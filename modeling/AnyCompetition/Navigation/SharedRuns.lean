import AnyCompetition.Navigation.SharedCompetition
import Mathlib.Data.Finset.Insert

/-!
# What a shared competition does happens in the app

Any devices of players can create, list and open one competition.  From then on they do in
the app whatever the shared competition does.
-/

namespace AnyCompetition

/-- A step does not change which document is shared. -/
theorem Shared.Stepped.documentID_eq {ι : Type} [DecidableEq ι] {created : Competition}
    {s t : Shared.System ι} {action : Shared.Action ι}
    (stepped : Shared.Stepped created s action t) : t.documentID = s.documentID := by
  cases stepped with
  | choose | finish | commit | fail | deliver => rfl

namespace Navigation.Club

open Json Trap GuardedRun CompetitionViewController

variable {ι : Type} [DecidableEq ι] {past : List (Club.Action ι)} {s t : Club ι}
  {documentID : String} {origin : Competition} {written : Fields}

/-! ## Runs in order -/

/-- A run whose snapshots arrive in order and on their own screens. -/
structure Course (past : List (Club.Action ι)) (s : Club ι) : Prop where
  run : run? step? {} past = some s
  guarded : Along step? SnapshotOfTop {} past
  inOrder : InOrder past

theorem Course.concat (course : Course past s) {action : Club.Action ι}
    (hstep : s.step? action = some t) (guard : s.SnapshotOfTop action)
    (sorted : ∀ device documentID, (reaching device documentID action).Pairwise (· ≤ ·))
    (inOrder : ∀ device documentID, ∀ version ∈ reaching device documentID action,
      ∀ earlier ∈ reached past device documentID, earlier ≤ version) :
    Course (past ++ [action]) t where
  run := run?_trans course.run ((run?_singleton s action).trans hstep)
  guarded := course.guarded.concat course.run guard
  inOrder device documentID := by
    rw [reached_concat]
    refine List.pairwise_append.mpr
      ⟨course.inOrder device documentID, sorted device documentID, ?_⟩
    intro earlier hearlier version hversion
    exact inOrder device documentID version hversion earlier hearlier

/-! ## The simulation -/

/-- The competition is on top of the device, as it is on the shared one. -/
structure Playing (documentID : String) (qty : Int) (app : App) (device : Shared.Device) :
    Prop where
  screen : app.screen = some {
    competitionId := some documentID, qty, matchViewController := device.matchViewController }
  competition : app.competition = device.competition
  listens : documentID ∈ app.listeners

/-- The app stores, writes and shows what the shared competition does. -/
structure Realises (origin : Competition) (devices : Finset ι) (past : List (Club.Action ι))
    (s : Club ι) (shared : Shared.System ι) : Prop where
  course : Course past s
  created : s.created shared.documentID = some origin
  versions : s.versions shared.documentID = shared.versions
  inFlight : s.inFlight = shared.inFlight.map Shared.Write.document
  playing : ∀ device ∈ devices, Playing shared.documentID origin.players.length
    (s.devices device) (shared.devices device)
  delivered : ∀ device, ∀ version ∈ reached past device shared.documentID,
    version ≤ (shared.devices device).delivered

section Simulation

variable {devices : Finset ι} {shared next : Shared.System ι} {device : ι}

/-- A step of a device that plays the competition. -/
theorem Realises.onDevice (realises : Realises origin devices past s shared)
    {action : Navigation.Action} {app : App} {changed : Shared.Device}
    (answered : s.isAnswered device action = true)
    (hstep : (s.app device).step? action = some app)
    (guard : Navigation.SnapshotOfTop (s.app device) action)
    (sorted : ∀ other documentID,
      (reaching other documentID (.onDevice device action)).Pairwise (· ≤ ·))
    (reaches : ∀ other documentID,
      ∀ version ∈ reaching other documentID (.onDevice device action),
        other = device ∧ documentID = shared.documentID ∧
          (shared.devices device).delivered ≤ version ∧ version ≤ changed.delivered)
    (hid : next.documentID = shared.documentID)
    (devices_eq : next.devices = Function.update shared.devices device changed)
    (later : (shared.devices device).delivered ≤ changed.delivered)
    (versions : app.versions shared.documentID = next.versions)
    (inFlight : app.inFlight = next.inFlight.map Shared.Write.document)
    (playing : device ∈ devices →
      Playing shared.documentID origin.players.length app changed) :
    Realises origin devices (past ++ [.onDevice device action]) (s.setApp device app) next where
  course := by
    refine realises.course.concat ?_ guard sorted ?_
    · rw [step?, if_pos answered, hstep]
      rfl
    · intro other documentID version hversion earlier hearlier
      obtain ⟨rfl, rfl, hle, _⟩ := reaches other documentID version hversion
      exact (realises.delivered other earlier hearlier).trans hle
  created := by
    rw [hid]
    exact realises.created
  versions := by
    rw [hid]
    exact versions
  inFlight := inFlight
  playing other hother := by
    rw [hid, devices_eq]
    by_cases hsame : other = device
    · subst hsame
      rw [setApp_same, Function.update_self]
      exact playing hother
    · rw [setApp_other s device app other hsame, Function.update_of_ne hsame]
      exact realises.playing other hother
  delivered other version hversion := by
    rw [hid, reached_concat] at hversion
    rw [devices_eq]
    rcases List.mem_append.mp hversion with earlier | now
    · have hle := realises.delivered other version earlier
      by_cases hsame : other = device
      · subst hsame
        rw [Function.update_self]
        exact hle.trans later
      · rw [Function.update_of_ne hsame]
        exact hle
    · obtain ⟨rfl, _, _, hle⟩ := reaches other _ version now
      rw [Function.update_self]
      exact hle

theorem Realises.app (realises : Realises origin devices past s shared)
    (hdevice : device ∈ devices) :
    Playing shared.documentID origin.players.length (s.app device) (shared.devices device) :=
  let playing := realises.playing device hdevice
  ⟨playing.screen, playing.competition, playing.listens⟩

/-- The match on top is left. -/
theorem Realises.dismiss (realises : Realises origin devices past s shared)
    (hdevice : device ∈ devices) :
    ∃ more t, Realises origin devices (past ++ more) t (shared.setDevice device
      { shared.devices device with matchViewController := none }) := by
  have playing := realises.app hdevice
  cases hopened : (shared.devices device).matchViewController with
  | none =>
      refine ⟨[], s, ?_⟩
      rw [List.append_nil]
      have hsame : shared.setDevice device
          { shared.devices device with matchViewController := none } = shared := by
        rw [← hopened]
        simp only [Shared.System.setDevice, Function.update_eq_self]
      rw [hsame]
      exact realises
  | some opened =>
      have hscreen : (s.app device).screen = some {
          competitionId := some shared.documentID
          qty := origin.players.length
          matchViewController := some opened } := hopened ▸ playing.screen
      have hstep : (s.app device).step? .dismiss = some { s.app device with
          screen := some {
            competitionId := some shared.documentID, qty := origin.players.length } } := by
        rw [App.step?, hscreen]
      exact ⟨[.onDevice device .dismiss], _, realises.onDevice rfl hstep trivial
        (fun _ _ => List.Pairwise.nil) (fun _ _ => List.forall_mem_nil _) rfl rfl (Nat.le_refl _)
        realises.versions realises.inFlight
        fun _ => ⟨rfl, playing.competition, playing.listens⟩⟩

theorem Realises.choose (realises : Realises origin devices past s shared)
    (hdevice : device ∈ devices) {i j : Nat} {shown : Competition} {table : CompetitionTable}
    {played : Match} (hne : i ≠ j) (hshown : (shared.devices device).competition = some shown)
    (htable : shown.competitionTable = some table)
    (wellFormed : table.WellFormed origin.players) (found : table.match? i j = some played) :
    ∃ more t, Realises origin devices (past ++ more) t (shared.setDevice device
      { shared.devices device with matchViewController := some { played } }) := by
  obtain ⟨more, middle, left⟩ := realises.dismiss hdevice
  have playing := left.app hdevice
  rw [Shared.System.setDevice_same] at playing
  have hscreen : (middle.app device).screen = some {
      competitionId := some shared.documentID, qty := origin.players.length } := playing.screen
  have hcompetition : (middle.app device).competition = some shown :=
    playing.competition.trans hshown
  obtain ⟨hi, hj⟩ := wellFormed.lt_of_match found
  have hcell : ¬ (i = j ∨ ¬ ((i : Int) < origin.players.length ∧
      (j : Int) < origin.players.length)) := by omega
  have hstep : (middle.app device).step? (.choose i j) = some { middle.app device with
      screen := some {
        competitionId := some shared.documentID
        qty := origin.players.length
        matchViewController := some { played } } } := by
    rw [App.step?, hscreen]
    dsimp only
    rw [if_neg hcell, hcompetition, chooseMatch_eq htable found]
  have hdevices : (shared.setDevice device
      { shared.devices device with matchViewController := some { played } }).devices =
      Function.update (shared.setDevice device
        { shared.devices device with matchViewController := none }).devices device
        { shared.devices device with matchViewController := some { played } } := by
    simp only [Shared.System.setDevice, Function.update_idem]
  have hdelivered : ((shared.setDevice device
      { shared.devices device with matchViewController := none }).devices device).delivered ≤
      (shared.devices device).delivered := by
    rw [Shared.System.setDevice_same]
  have after : Realises origin devices _ _ (shared.setDevice device
      { shared.devices device with matchViewController := some { played } }) :=
    left.onDevice rfl hstep trivial (fun _ _ => List.Pairwise.nil)
      (fun _ _ => List.forall_mem_nil _) rfl hdevices hdelivered left.versions left.inFlight
      fun _ => ⟨rfl, playing.competition, playing.listens⟩
  rw [List.append_assoc] at after
  exact ⟨_, _, after⟩

theorem Realises.finish (realises : Realises origin devices past s shared)
    (hdevice : device ∈ devices) {a b : Int}
    (hstep : shared.step? (.finish device a b) = some next) :
    ∃ more t, Realises origin devices (past ++ more) t next := by
  have playing := realises.app hdevice
  rw [Shared.System.step?] at hstep
  split at hstep
  · cases hstep
  · rename_i opened hopened
    dsimp only at hstep
    split at hstep
    · cases hstep
    · rename_i competition document hwinning
      cases hstep
      have hscreen : (s.app device).screen = some {
          competitionId := some shared.documentID
          qty := origin.players.length
          matchViewController := some opened } := hopened ▸ playing.screen
      rw [← playing.competition] at hwinning
      have happ : (s.app device).step? (.finish a b) = some { s.app device with
          competition := some competition
          screen := some {
            competitionId := some shared.documentID
            qty := origin.players.length
            matchViewController := some (opened.finishMatch a b) }
          inFlight := s.inFlight ++ [document]
          finished := (s.app device).finished ++
            [⟨some shared.documentID, competition.id, document⟩] } := by
        rw [App.step?, hscreen]
        dsimp only
        rw [hwinning]
        rfl
      refine ⟨[.onDevice device (.finish a b)], _, realises.onDevice rfl happ trivial
        (fun _ _ => List.Pairwise.nil) (fun _ _ => List.forall_mem_nil _) rfl rfl (Nat.le_refl _)
        realises.versions ?_ fun _ => ⟨rfl, rfl, playing.listens⟩⟩
      simp only [realises.inFlight, Shared.System.issue, Shared.System.setDevice,
        List.map_append, List.map_singleton]

theorem Realises.deliver (realises : Realises origin devices past s shared)
    (hdevice : device ∈ devices) {version : Nat} {data : Fields} {received : Competition}
    (hle : (shared.devices device).delivered ≤ version)
    (hdata : shared.versions[version]? = some data)
    (hreceived : Database.decodeCompetition ⟨shared.documentID, data⟩ = some received) :
    ∃ more t, Realises origin devices (past ++ more) t (shared.setDevice device
      { shared.devices device with
        competition := some received
        delivered := version
        snapshots := (shared.devices device).snapshots + 1 }) := by
  have playing := realises.app hdevice
  have hversion : ((s.app device).versions shared.documentID)[version]? = some data := by
    rw [← realises.versions] at hdata
    exact hdata
  have hstep : (s.app device).step? (.deliver shared.documentID version) =
      some { s.app device with competition := some received } := by
    rw [App.step?, if_pos playing.listens, hversion, Option.map_some, receiveSnapshot, hreceived]
  have hreaching : ∀ other documentID, ∀ found ∈ reaching other documentID
      (.onDevice device (.deliver shared.documentID version)),
      other = device ∧ documentID = shared.documentID ∧ found = version := by
    intro other documentID found hfound
    rw [reaching] at hfound
    split at hfound
    · rename_i hsame
      exact ⟨hsame.1.symm, hsame.2.symm, List.mem_singleton.mp hfound⟩
    · cases hfound
  refine ⟨[.onDevice device (.deliver shared.documentID version)], _, realises.onDevice
    rfl hstep ?_ ?_ ?_ rfl rfl hle realises.versions realises.inFlight
    fun _ => ⟨playing.screen, rfl, playing.listens⟩⟩
  · intro screen hscreen
    rw [playing.screen] at hscreen
    cases hscreen
    rfl
  · intro other documentID
    rw [reaching]
    split
    · exact List.pairwise_singleton _ _
    · exact List.Pairwise.nil
  · intro other documentID found hfound
    obtain ⟨hother, hown, rfl⟩ := hreaching other documentID found hfound
    exact ⟨hother, hown, hle, Nat.le_refl _⟩

/-- A step of the store, taken by any device. -/
theorem Realises.store (realises : Realises origin devices past s shared) (device : ι)
    {action : Navigation.Action} {app : App}
    (answered : s.isAnswered device action = true)
    (hstep : (s.app device).step? action = some app)
    (guard : Navigation.SnapshotOfTop (s.app device) action)
    (quiet : ∀ other documentID, reaching other documentID (.onDevice device action) = [])
    (hid : next.documentID = shared.documentID) (devices_eq : next.devices = shared.devices)
    (versions : app.versions shared.documentID = next.versions)
    (inFlight : app.inFlight = next.inFlight.map Shared.Write.document)
    (screen : app.screen = (s.devices device).screen)
    (competition : app.competition = (s.devices device).competition)
    (listeners : app.listeners = (s.devices device).listeners) :
    Realises origin devices (past ++ [.onDevice device action]) (s.setApp device app) next := by
  refine realises.onDevice answered hstep guard ?_ ?_ hid
    (devices_eq.trans (Function.update_eq_self device _).symm) (Nat.le_refl _) versions inFlight
    ?_
  · intro other documentID
    rw [quiet]
    exact List.Pairwise.nil
  · intro other documentID version hversion
    rw [quiet] at hversion
    cases hversion
  · intro hdevice
    have playing := realises.playing device hdevice
    exact ⟨screen.trans playing.screen, competition.trans playing.competition,
      listeners ▸ playing.listens⟩

/-- The device that a step of the shared competition needs. -/
def actor : Shared.Action ι → Option ι
  | .choose device _ _ | .finish device _ _ | .deliver device _ => some device
  | .commit _ | .fail _ => none

/-- Every step of the shared competition is one of the app, maybe after leaving a match. -/
theorem Realises.step (realises : Realises origin devices past s shared)
    (consistent : Shared.Consistent origin shared) (nonempty : devices.Nonempty)
    {tap : Shared.Action ι} (hstep : shared.step? tap = some next)
    (acting : ∀ device, actor tap = some device → device ∈ devices) :
    ∃ more t, Realises origin devices (past ++ more) t next := by
  obtain ⟨any, _⟩ := nonempty
  cases consistent.stepped hstep with
  | choose hne hshown htable wellFormed found =>
      exact realises.choose (acting _ rfl) hne hshown htable wellFormed found
  | finish => exact realises.finish (acting _ rfl) hstep
  | deliver hle hdata hreceived => exact realises.deliver (acting _ rfl) hle hdata hreceived
  | @commit index write hwrite =>
      have hdocument : s.inFlight[index]? = some write.document := by
        rw [realises.inFlight, List.getElem?_map, hwrite, Option.map_some]
      have hown := (consistent.inFlight write (List.mem_of_getElem? hwrite)).1
      have happ : (s.app any).step? (.commit index) = some { s.app any with
          versions := Function.update s.versions write.document.documentID
            (s.versions write.document.documentID ++ [write.document.data])
          inFlight := s.inFlight.eraseIdx index } := by
        rw [App.step?, show (s.app any).inFlight[index]? = _ from hdocument]
        rfl
      refine ⟨[.onDevice any (.commit index)], _, realises.store any rfl happ trivial
        (fun _ _ => rfl) rfl rfl ?_ ?_ rfl rfl rfl⟩
      · simp only [hown, Function.update_self, realises.versions]
      · simp only [realises.inFlight, List.eraseIdx_map]
  | @fail index write hwrite =>
      have hlength : index < (s.app any).inFlight.length := by
        have hindex := (List.getElem?_eq_some_iff.mp hwrite).1
        rw [show (s.app any).inFlight = _ from realises.inFlight, List.length_map]
        exact hindex
      have happ : (s.app any).step? (.fail index) = some { s.app any with
          inFlight := s.inFlight.eraseIdx index } := by
        rw [App.step?, if_pos hlength]
        rfl
      refine ⟨[.onDevice any (.fail index)], _, realises.store any rfl happ trivial
        (fun _ _ => rfl) rfl rfl realises.versions ?_ rfl rfl rfl⟩
      simp only [realises.inFlight, List.eraseIdx_map]

end Simulation

/-! ## Opening the competition -/

section Opening

variable {devices : Finset ι} {device : ι} {uid : String}

omit [DecidableEq ι] in
/-- The first version of the document, as it is listed. -/
theorem exists_first (starts : Shared.StartsWith origin (started ι documentID written)) :
    ∃ first table, Database.decodeCompetition ⟨documentID, written⟩ = some first ∧
      first.id = some documentID ∧ first.competitionTable = some table ∧
      table.qtyPlayers = origin.players.length ∧
      first.accessUsersIdArray = origin.accessUsersIdArray := by
  obtain ⟨data, first, _, wellFormed, hid, _, _, hdecode, hstarted⟩ := starts.initial
  cases congrArg Shared.System.versions hstarted
  obtain ⟨table, htable, tableWellFormed⟩ := wellFormed.table
  exact ⟨first, table, hdecode, hid, htable, tableWellFormed.qtyPlayers,
    wellFormed.accessUsersIdArray⟩

/-- A device that does not play the competition is signed in. -/
theorem Realises.signIn {shared : Shared.System ι}
    (realises : Realises origin devices past s shared) (absent : device ∉ devices)
    (hstep : s.step? (.signIn device uid) = some t) :
    Realises origin devices (past ++ [.signIn device uid]) t shared := by
  have course := realises.course.concat hstep trivial (fun _ _ => List.Pairwise.nil)
    (fun _ _ => List.forall_mem_nil _)
  cases hstep
  refine ⟨course, realises.created, realises.versions, realises.inFlight, ?_, ?_⟩
  · intro other hother
    have hne : other ≠ device := fun hsame => absent (hsame ▸ hother)
    simp only [Function.update_of_ne hne]
    exact realises.playing other hother
  · intro other version hversion
    rw [reached_concat] at hversion
    rcases List.mem_append.mp hversion with earlier | now
    · exact realises.delivered other version earlier
    · cases now

/-- One more device plays the competition. -/
theorem Realises.insert {shared : Shared.System ι}
    (realises : Realises origin devices past s shared)
    (playing : Playing shared.documentID origin.players.length (s.devices device)
      (shared.devices device)) :
    Realises origin (insert device devices) past s shared := by
  refine { realises with playing := ?_ }
  intro other hother
  rcases Finset.mem_insert.mp hother with rfl | hother
  · exact playing
  · exact realises.playing other hother

theorem reaching_first (other device : ι) (found documentID : String) :
    reaching other found (.onDevice device (.receiveList [(documentID, 0)])) =
      if device = other ∧ documentID = found then [0] else [] := by
  rw [reaching]
  by_cases hother : device = other
  · by_cases hfound : documentID = found
    · simp [hother, hfound]
    · simp [hother, hfound]
  · simp [hother]

theorem pairwise_reaching_first (documentID : String) (device other : ι) (found : String) :
    (reaching other found (.onDevice device (.receiveList [(documentID, 0)]))).Pairwise
      (· ≤ ·) := by
  rw [reaching_first]
  split
  · exact List.pairwise_singleton _ _
  · exact List.Pairwise.nil

theorem mem_reaching_first (documentID : String) (written : Fields) (device other : ι)
    (found : String) :
    ∀ version ∈ reaching other found (.onDevice device (.receiveList [(documentID, 0)])),
      other = device ∧ found = documentID ∧
        ((started ι documentID written).devices device).delivered ≤ version ∧
        version ≤ ((started ι documentID written).devices device).delivered := by
  intro version hversion
  rw [reaching_first] at hversion
  split at hversion
  · rename_i hsame
    rw [List.mem_singleton.mp hversion]
    exact ⟨hsame.1.symm, hsame.2.symm, Nat.le_refl _, Nat.le_refl _⟩
  · cases hversion

/-- A player lists and opens the competition. -/
theorem Realises.open (starts : Shared.StartsWith origin (started ι documentID written))
    (realises : Realises origin devices past s (started ι documentID written))
    (absent : device ∉ devices) (player : uid ∈ origin.accessUsersIdArray) :
    ∃ more t, Realises origin (Insert.insert device devices) (past ++ more) t
      (started ι documentID written) := by
  obtain ⟨first, table, hdecode, hid, htable, hqty, haccess⟩ := exists_first starts
  obtain ⟨signed, hsigned⟩ : ∃ signed, s.step? (.signIn device uid) = some signed := ⟨_, rfl⟩
  have realisesSigned := realises.signIn absent hsigned
  have hscreen : (signed.app device).screen = none := by
    rw [app_signIn hsigned, if_pos rfl]
  have huser : (signed.users device).head? = some uid := by
    cases hsigned
    simp only [Function.update_self, List.head?_cons]
  have hdocuments : (signed.app device).documents [(documentID, 0)] =
      [⟨documentID, written⟩] := by
    have hversions : (signed.app device).versions documentID = [written] :=
      realisesSigned.versions
    simp only [App.documents, List.filterMap_cons, List.filterMap_nil, hversions,
      List.getElem?_cons_zero, Option.map_some]
  have answered : signed.isAnswered device (.receiveList [(documentID, 0)]) = true := by
    have hfound := (hasAccess_iff_of_decodes hdecode uid).mpr (haccess ▸ player)
    simp only [isAnswered, hdocuments, huser, List.all_cons, List.all_nil, Bool.and_true,
      Option.any_some]
    exact hfound
  have hlist : (signed.app device).step? (.receiveList [(documentID, 0)]) =
      some { signed.app device with competitions := [first] } := by
    rw [App.step?, hdocuments, Database.getAllCompetitions, Database.appendDecoded_eq]
    simp only [List.isEmpty_cons, Bool.false_eq_true, if_false, List.filterMap_cons, hdecode,
      List.filterMap_nil, App.sortedByDate,
      List.insertionSort_cons, List.insertionSort_nil, List.orderedInsert_nil]
  have listed : Realises origin devices _ _ (started ι documentID written) :=
    realisesSigned.onDevice answered hlist trivial (pairwise_reaching_first documentID device)
      (mem_reaching_first documentID written device) rfl (Function.update_eq_self device _).symm
      (Nat.le_refl _) realisesSigned.versions realisesSigned.inFlight
      fun hdevice => absurd hdevice absent
  have hpress : ((signed.setApp device
      { signed.app device with competitions := [first] }).app device).step?
        (.pressCompetition 0) = some { signed.app device with
          competitions := [first]
          competition := some first
          screen := some { competitionId := some documentID, qty := origin.players.length }
          listeners := (signed.app device).listeners ++ [documentID] } := by
    rw [app_setApp, if_pos rfl, App.step?, hscreen]
    simp only [Option.isSome_none, Bool.false_eq_true, if_false, List.getElem?_cons_zero,
      Option.bind_some, App.open?, htable, Option.map_some, hid, hqty, Option.toList_some]
  have pressed : Realises origin devices _ _ (started ι documentID written) :=
    listed.onDevice rfl hpress trivial (fun _ _ => List.Pairwise.nil)
      (fun _ _ => List.forall_mem_nil _) rfl (Function.update_eq_self device _).symm
      (Nat.le_refl _) realisesSigned.versions realisesSigned.inFlight
      fun hdevice => absurd hdevice absent
  rw [List.append_assoc, List.append_assoc] at pressed
  refine ⟨_, _, pressed.insert ?_⟩
  rw [setApp_same]
  exact ⟨rfl, hdecode.symm, List.mem_append_right _ List.mem_cons_self⟩

/-- The competition is created, and its document stored. -/
theorem exists_realises {screen : AddCompetitionViewController} {title : Option String}
    {now : String}
    (tapped : screen.tapAddCompetitionButton title now = .ok (.dismissed origin written))
    (documentID : String) (device : ι) :
    ∃ past s, Realises origin ∅ past s (started ι documentID written) := by
  have start : Course [] ({} : Club ι) := ⟨rfl, trivial, fun _ _ => List.Pairwise.nil⟩
  obtain ⟨sent, hsent⟩ : ∃ sent : Club ι, sent = {
      created := Function.update (fun _ => none) documentID (some origin)
      inFlight := [⟨documentID, written⟩] } := ⟨_, rfl⟩
  have hcreate : ({} : Club ι).step? (.tapAddCompetitionButton screen title now documentID) =
      some sent := by
    rw [step?, tapped, hsent]
    rfl
  have hcommit : sent.step? (.onDevice device (.commit 0)) = some (sent.setApp device {
      sent.app device with
        versions := Function.update sent.versions documentID
          (sent.versions documentID ++ [written])
        inFlight := [] }) := by
    rw [hsent]
    rfl
  have created := start.concat hcreate trivial (fun _ _ => List.Pairwise.nil)
    fun _ _ => List.forall_mem_nil _
  have stored := created.concat hcommit trivial (fun _ _ => List.Pairwise.nil)
    fun _ _ => List.forall_mem_nil _
  refine ⟨_, _, stored, ?_, ?_, rfl, ?_, ?_⟩
  · simp only [setApp, started, Function.update_self, hsent]
  · simp only [setApp, started, Function.update_self, hsent]
    rfl
  · intro other hother
    cases hother
  · intro other version hversion
    cases hversion

/-- All players of the devices list and open the competition. -/
theorem exists_playing (starts : Shared.StartsWith origin (started ι documentID written))
    (stored : ∃ past s, Realises origin ∅ past s (started ι documentID written))
    {uid : ι → String} (devices : Finset ι)
    (players : ∀ device ∈ devices, uid device ∈ origin.accessUsersIdArray) :
    ∃ past s, Realises origin devices past s (started ι documentID written) := by
  induction devices using Finset.induction_on with
  | empty => exact stored
  | insert device devices absent ih =>
      obtain ⟨past, s, realises⟩ := ih fun other hother =>
        players other (Finset.mem_insert_of_mem hother)
      obtain ⟨more, t, opened⟩ := realises.open starts absent
        (players device (Finset.mem_insert_self device devices))
      exact ⟨past ++ more, t, opened⟩

end Opening

/-! ## Whole runs -/

/-- The app can store, write and show what the shared competition does. -/
structure Realisable (origin : Competition) (documentID : String) (devices : Finset ι)
    (shared : Shared.System ι) : Prop where
  documentID_eq : shared.documentID = documentID
  consistent : Shared.Consistent origin shared
  realised : ∃ past s, Realises origin devices past s shared

theorem Realisable.step {devices : Finset ι} {shared next : Shared.System ι}
    (realisable : Realisable origin documentID devices shared) (nonempty : devices.Nonempty)
    {tap : Shared.Action ι} (hstep : shared.step? tap = some next)
    (acting : ∀ device, actor tap = some device → device ∈ devices) :
    Realisable origin documentID devices next := by
  obtain ⟨hid, consistent, past, s, realises⟩ := realisable
  obtain ⟨more, t, realisesNext⟩ := realises.step consistent nonempty hstep acting
  exact ⟨(consistent.stepped hstep).documentID_eq.trans hid, consistent.step hstep, past ++ more,
    t, realisesNext⟩

/--
Whatever the devices of a shared competition can do, in the app they can do it as well: when
each of them has a player to sign in, the competition can be created by the button and
opened on all of them, and then for every run of the shared competition there is one of
the app, with its snapshots in order and on their own screens, that stores, writes and
shows the same, with the same matches open.
-/
theorem shared_runs_happen {screen : AddCompetitionViewController} {title : Option String}
    {now : String}
    (tapped : screen.tapAddCompetitionButton title now = .ok (.dismissed origin written))
    {uid : ι → String} {devices : Finset ι} (nonempty : devices.Nonempty)
    (players : ∀ device ∈ devices, ∃ player ∈ origin.players, player.id = some (uid device))
    {initial shared : Shared.System ι} {taps : List (Shared.Action ι)}
    (hcreate : Shared.System.create ι documentID origin = .ok initial)
    (hrun : run? Shared.System.step? initial taps = some shared)
    (acting : ∀ tap ∈ taps, ∀ device, actor tap = some device → device ∈ devices) :
    ∃ (actions : List (Club.Action ι)) (s : Club ι), run? step? {} actions = some s ∧
      Along step? SnapshotOfTop {} actions ∧ InOrder actions ∧
      s.created documentID = some origin ∧ s.versions documentID = shared.versions ∧
      s.inFlight = shared.inFlight.map Shared.Write.document ∧
      ∀ device ∈ devices, Playing documentID origin.players.length (s.devices device)
        (shared.devices device) := by
  obtain ⟨sent, hwritten, _⟩ := Sent.of_tap tapped
  have starts := startsWith_started ι tapped documentID
  rw [Shared.System.create, Database.sendCompetitionToDatabase_eq, hwritten] at hcreate
  obtain rfl : started ι documentID written = initial := Except.ok.inj hcreate
  obtain ⟨device, hdevice⟩ := id nonempty
  have access : ∀ device ∈ devices, uid device ∈ origin.accessUsersIdArray :=
    fun other hother => (sent.mem_access_iff (uid other)).mpr (players other hother)
  have opened := exists_playing starts (exists_realises tapped documentID device) devices access
  have start : Realisable origin documentID devices (started ι documentID written) :=
    ⟨rfl, starts.consistent, opened⟩
  obtain ⟨rfl, _, past, s, realises⟩ := @run?_prefix_invariant _ _ _ _
    (fun _ shared => Realisable origin documentID devices shared) start taps
    (fun htaps _ holds hstep => holds.step nonempty hstep (acting _ (htaps ▸
      List.mem_append_right _ List.mem_cons_self))) _ hrun
  exact ⟨past, s, realises.course.run, realises.course.guarded, realises.course.inOrder,
    realises.created, realises.versions, realises.inFlight, realises.playing⟩

/-- The two players of a competition finish its match on two devices, and one of the results
is lost. -/
theorem shared_runs_happen_two_devices :
    ∃ (actions : List (Club.Action Bool)) (s : Club Bool), run? step? {} actions = some s ∧
      (s.versions "c1").length = 3 ∧ s.inFlight = [] ∧
      Along step? SnapshotOfTop {} actions ∧ InOrder actions := by
  have hcheck : (run? Shared.System.step? (Shared.opened Bool [.anna, .boris])
      [.choose true 0 1, .choose false 0 1, .finish true 2 1, .finish false 0 3, .commit 0,
       .commit 0, .deliver true 2]).any
      (fun shared => shared.versions.length = 3 ∧ shared.inFlight.length = 0) = true := by
    decide +kernel
  obtain ⟨shared, hrun, hlengths⟩ := (Option.any_eq_true _ _).mp hcheck
  obtain ⟨hversions, hidle⟩ := of_decide_eq_true hlengths
  have tapped : AddCompetitionViewController.tapAddCompetitionButton
      { user := some .anna, playersArray := [.anna, .boris] } (some "Cup")
      "2022-11-18 10:00:00 +0000" = .ok (.dismissed (Shared.cup [.anna, .boris])
        ((Shared.cup [.anna, .boris]).dictionary.toOption.getD [])) := rfl
  have hcreate : Shared.System.create Bool "c1" (Shared.cup [.anna, .boris]) =
      .ok (Shared.opened Bool [.anna, .boris]) := rfl
  have players : ∀ device ∈ ({true, false} : Finset Bool),
      ∃ player ∈ (Shared.cup [.anna, .boris]).players,
        player.id = some (if device then "u1" else "u2") := by
    decide
  obtain ⟨actions, s, happ, guarded, inOrder, _, hstored, hpending, _⟩ := shared_runs_happen
    tapped (Finset.insert_nonempty true _) players hcreate hrun (by decide)
  rw [← hstored] at hversions
  rw [List.length_eq_zero_iff.mp hidle] at hpending
  exact ⟨actions, s, happ, hversions, hpending, guarded, inOrder⟩

end Navigation.Club

end AnyCompetition
