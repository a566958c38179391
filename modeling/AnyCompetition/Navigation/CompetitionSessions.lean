import AnyCompetition.Library.PendingWrites
import AnyCompetition.Library.RunHistory
import AnyCompetition.Navigation.ClubTables

/-!
# The sessions of one competition

Seen from one of its competitions, the app is the shared competition: each time that a
device opens it is a device of its own there.  What other competitions, other screens and
other users do is not seen.
-/

namespace AnyCompetition.Navigation

open Json Trap GuardedRun CompetitionViewController PendingWrites

/-- Where the competition is on top, its copy and its open match are those of the device. -/
def ShowsOn (documentID : String) (app : App) (device : Shared.Device) : Prop :=
  ∀ screen, app.screen = some screen → screen.competitionId = some documentID →
    device.competition = app.competition ∧
      ∀ opened, screen.matchViewController = some opened →
        device.matchViewController = some opened

/-! ## Steps of the shared competition -/

section SharedSteps

variable {κ : Type} [DecidableEq κ] {shared : Shared.System κ} {device : κ}

theorem step_choose {i j : Nat} {opened : MatchViewController} (hne : i ≠ j)
    (hopened : chooseMatch (shared.devices device).competition i j = .ok (some opened)) :
    shared.step? (.choose device i j) = some (shared.setDevice device
      { shared.devices device with matchViewController := some opened }) := by
  rw [Shared.System.step?, if_neg hne, hopened]

theorem step_finish {a b : Int} {opened : MatchViewController} {competition : Competition}
    {document : Document} (hopened : (shared.devices device).matchViewController = some opened)
    (hwinning : winning (shared.devices device).competition (opened.finishMatch a b).played =
      .ok (competition, document)) :
    shared.step? (.finish device a b) = some ((shared.setDevice device
      { shared.devices device with
        competition := some competition
        matchViewController := some (opened.finishMatch a b) }).issue
      ⟨device, (shared.devices device).snapshots, document⟩) := by
  simp only [Shared.System.step?, hopened, hwinning]

theorem step_deliver {version : Nat} {data : Fields}
    (hle : (shared.devices device).delivered ≤ version)
    (hdata : shared.versions[version]? = some data) :
    shared.step? (.deliver device version) = some (shared.setDevice device
      { shared.devices device with
        competition :=
          receiveSnapshot (shared.devices device).competition ⟨shared.documentID, data⟩
        delivered := version
        snapshots := (shared.devices device).snapshots + 1 }) := by
  simp only [Shared.System.step?, if_pos hle, hdata]

theorem step_commit {index : Nat} {write : Shared.Write κ}
    (hwrite : shared.inFlight[index]? = some write)
    (hid : write.document.documentID = shared.documentID) :
    shared.step? (.commit index) = some { shared with
      versions := shared.versions ++ [write.document.data]
      inFlight := shared.inFlight.eraseIdx index } := by
  simp only [Shared.System.step?, hwrite, if_pos hid]

theorem step_fail {index : Nat} {write : Shared.Write κ}
    (hwrite : shared.inFlight[index]? = some write) :
    shared.step? (.fail index) = some { shared with
      inFlight := shared.inFlight.eraseIdx index
      failed := shared.failed ++ [write] } := by
  simp only [Shared.System.step?, hwrite]

end SharedSteps

namespace Club

variable {ι : Type}

/-- The pending writes of a document. -/
def pending (s : Club ι) (documentID : String) : List Document :=
  s.inFlight.filter fun document => document.documentID = documentID

/-- The shared competition stores and writes what the document does, and its devices show
what those that have it on top show. -/
structure Projects {κ : Type} (s : Club ι) (documentID : String) (session : ι → κ)
    (shared : Shared.System κ) : Prop where
  documentID_eq : shared.documentID = documentID
  versions : shared.versions = s.versions documentID
  inFlight : shared.inFlight.map Shared.Write.document = s.pending documentID
  shown : ∀ device, ShowsOn documentID (s.devices device) (shared.devices (session device))

/-- A match of the competition is finished on the screen of a device. -/
def FinishedOn (documentID : String) (device : ι) (a b : Int) (opened : MatchViewController) :
    List (Club.Action ι) → Club ι → Club.Action ι → Prop :=
  fun _ s action => action = .onDevice device (.finish a b) ∧
    ∃ screen, (s.devices device).screen = some screen ∧
      screen.competitionId = some documentID ∧ screen.matchViewController = some opened

variable [DecidableEq ι]

/-- The versions of a document that reach a device with an action. -/
def reaching (device : ι) (documentID : String) : Club.Action ι → List Nat
  | .onDevice receiver (.receiveList chosen) =>
      if receiver = device then
        (chosen.filter fun entry => entry.1 = documentID).map Prod.snd
      else []
  | .onDevice receiver (.deliver delivered version) =>
      if receiver = device ∧ delivered = documentID then [version] else []
  | _ => []

/-- The versions of a document that have reached a device. -/
def reached (past : List (Club.Action ι)) (device : ι) (documentID : String) : List Nat :=
  past.flatMap (reaching device documentID)

/-- No device goes back to an earlier version of a document. -/
def InOrder (actions : List (Club.Action ι)) : Prop :=
  ∀ device documentID, (reached actions device documentID).Pairwise (· ≤ ·)

/-! ## The invariant -/

/-- The shared competition before anything has happened. -/
def started (κ : Type) (documentID : String) (written : Fields) : Shared.System κ where
  documentID
  versions := [written]
  devices := fun _ => { competition := Database.decodeCompetition ⟨documentID, written⟩ }

/-- The sessions of the devices, the last one of each being the current one. -/
structure Follows (past : List (Club.Action ι)) (s : Club ι) (documentID : String)
    (session : ι → Nat) (shared : Shared.System (ι × Nat)) : Prop
    extends s.Projects documentID (fun device => (device, session device)) shared where
  delivered : ∀ device, (shared.devices (device, session device)).delivered = 0 ∨
    (shared.devices (device, session device)).delivered ∈ reached past device documentID
  fresh : ∀ device later, session device < later →
    (shared.devices (device, later)).delivered = 0

variable {past : List (Club.Action ι)} {s t : Club ι} {documentID : String}

theorem reached_concat (past : List (Club.Action ι)) (action : Club.Action ι) (device : ι)
    (documentID : String) : reached (past ++ [action]) device documentID =
      reached past device documentID ++ reaching device documentID action := by
  rw [reached, List.flatMap_append, List.flatMap_singleton]
  rfl

theorem reached_subset (past : List (Club.Action ι)) (action : Club.Action ι) (device : ι)
    (documentID : String) :
    reached past device documentID ⊆ reached (past ++ [action]) device documentID := by
  rw [reached_concat]
  exact List.subset_append_left _ _

omit [DecidableEq ι] in
/-- A write is pending for its own document. -/
theorem pending_issue (document : Document) (issued : t.inFlight = s.inFlight ++ [document])
    (documentID : String) : t.pending documentID = s.pending documentID ++
      if document.documentID = documentID then [document] else [] := by
  rw [pending, issued, List.filter_append, pending]
  congr 1
  by_cases hsame : document.documentID = documentID
  · simp [hsame]
  · simp [hsame]

/-- One device is changed, and maybe opens a session. -/
theorem Follows.of_update {session : ι → Nat} {shared next : Shared.System (ι × Nat)}
    (follows : Follows past s documentID session shared) (action : Club.Action ι)
    {device : ι} {current : Nat} {changed : Shared.Device} (later : session device ≤ current)
    (hid : next.documentID = documentID) (versions : next.versions = t.versions documentID)
    (inFlight : next.inFlight.map Shared.Write.document = t.pending documentID)
    (devices : next.devices = Function.update shared.devices (device, current) changed)
    (others : ∀ other, other ≠ device → t.devices other = s.devices other)
    (shows : ShowsOn documentID (t.devices device) changed)
    (delivered : changed.delivered = 0 ∨
      changed.delivered ∈ reached (past ++ [action]) device documentID) :
    Follows (past ++ [action]) t documentID (Function.update session device current) next := by
  have hchanged : next.devices (device, current) = changed := by
    rw [devices, Function.update_self]
  have hsame : ∀ other number, other ≠ device →
      next.devices (other, number) = shared.devices (other, number) := by
    intro other number hne
    rw [devices, Function.update_of_ne]
    exact fun heq => hne (Prod.ext_iff.mp heq).1
  refine ⟨⟨hid, versions, inFlight, ?_⟩, ?_, ?_⟩
  · intro other
    by_cases hother : other = device
    · subst hother
      rw [Function.update_self, hchanged]
      exact shows
    · rw [Function.update_of_ne hother, hsame other _ hother, others other hother]
      exact follows.shown other
  · intro other
    by_cases hother : other = device
    · subst hother
      rw [Function.update_self, hchanged]
      exact delivered
    · rw [Function.update_of_ne hother, hsame other _ hother]
      exact (follows.delivered other).imp_right fun membership =>
        reached_subset past action other documentID membership
  · intro other number hnumber
    by_cases hother : other = device
    · subst hother
      rw [Function.update_self] at hnumber
      rw [devices, Function.update_of_ne]
      · exact follows.fresh other number (Nat.lt_of_le_of_lt later hnumber)
      · exact fun heq => (Nat.ne_of_gt hnumber) (Prod.ext_iff.mp heq).2
    · rw [Function.update_of_ne hother] at hnumber
      rw [hsame other number hother]
      exact follows.fresh other number hnumber

/-- A change of one device that the shared competition does not see. -/
theorem Follows.unseen {session : ι → Nat} {shared : Shared.System (ι × Nat)}
    (follows : Follows past s documentID session shared) (action : Club.Action ι) (device : ι)
    (versions : t.versions documentID = s.versions documentID)
    (inFlight : t.pending documentID = s.pending documentID)
    (others : ∀ other, other ≠ device → t.devices other = s.devices other)
    (shows : ShowsOn documentID (t.devices device) (shared.devices (device, session device))) :
    Follows (past ++ [action]) t documentID session shared := by
  have updated : Follows (past ++ [action]) t documentID
      (Function.update session device (session device)) shared :=
    follows.of_update action (Nat.le_refl _) follows.documentID_eq
      (follows.versions.trans versions.symm) (follows.inFlight.trans inFlight.symm)
      (Function.update_eq_self _ _).symm others shows
      ((follows.delivered device).imp_right fun membership =>
        reached_subset past action device documentID membership)
  rwa [Function.update_eq_self] at updated

/-- A step of no device that does not concern the document. -/
theorem Follows.mono {session : ι → Nat} {shared : Shared.System (ι × Nat)}
    (follows : Follows past s documentID session shared) (action : Club.Action ι)
    (versions : t.versions documentID = s.versions documentID)
    (inFlight : t.pending documentID = s.pending documentID)
    (devices : t.devices = s.devices) :
    Follows (past ++ [action]) t documentID session shared where
  documentID_eq := follows.documentID_eq
  versions := follows.versions.trans versions.symm
  inFlight := follows.inFlight.trans inFlight.symm
  shown device := devices ▸ follows.shown device
  delivered device := (follows.delivered device).imp_right fun membership =>
    reached_subset past action device documentID membership
  fresh := follows.fresh

/-- What the shared competition sees of a step: nothing, or a step of its own. -/
inductive Seen (past : List (Club.Action ι)) (s : Club ι) (documentID : String)
    (session : ι → Nat) (shared : Shared.System (ι × Nat)) (action : Club.Action ι)
    (t : Club ι) : Prop where
  | nothing (follows : Follows (past ++ [action]) t documentID session shared)
  | step {tap : Shared.Action (ι × Nat)} {current : ι → Nat} {next : Shared.System (ι × Nat)}
      (hstep : shared.step? tap = some next)
      (follows : Follows (past ++ [action]) t documentID current next)
      (finished : ∀ device number a b opened, tap = .finish (device, number) a b →
        (shared.devices (device, number)).matchViewController = some opened →
        FinishedOn documentID device a b opened past s action)

/-- The competitions of a list have reached its device as versions of their documents. -/
def Listed (past : List (Club.Action ι)) (s : Club ι) : Prop :=
  ∀ device competition documentID, competition ∈ (s.devices device).competitions →
    competition.id = some documentID →
    ∃ version data, version ∈ reached past device documentID ∧
      (s.versions documentID)[version]? = some data ∧
      Database.decodeCompetition ⟨documentID, data⟩ = some competition

theorem setApp_other (s : Club ι) (device : ι) (next : App) :
    ∀ other, other ≠ device → (s.setApp device next).devices other = s.devices other := by
  intro other hne
  simp only [setApp, Function.update_of_ne hne]

theorem setApp_same (s : Club ι) (device : ι) (next : App) :
    (s.setApp device next).devices device = next := by
  simp only [setApp, Function.update_self]

section OnDevice

variable {session : ι → Nat} {shared : Shared.System (ι × Nat)} {device : ι}

/-- A step of a device that changes neither the document nor what the shared competition
sees of the device. -/
theorem Follows.seen_nothing (follows : Follows past s documentID session shared)
    (action : Club.Action ι) {next : App}
    (versions : next.versions documentID = s.versions documentID)
    (inFlight : (s.setApp device next).pending documentID = s.pending documentID)
    (shows : ShowsOn documentID next (shared.devices (device, session device))) :
    Seen past s documentID session shared action (s.setApp device next) := by
  refine .nothing (follows.unseen action device versions inFlight (setApp_other s device next) ?_)
  rw [setApp_same]
  exact shows

/-- A step of the current session of a device. -/
theorem Follows.seen_setDevice (follows : Follows past s documentID session shared)
    {action : Club.Action ι} {next : App} {tap : Shared.Action (ι × Nat)} {current : Nat}
    {changed : Shared.Device} (later : session device ≤ current)
    (hstep : shared.step? tap = some (shared.setDevice (device, current) changed))
    (versions : next.versions documentID = s.versions documentID)
    (inFlight : (s.setApp device next).pending documentID = s.pending documentID)
    (shows : ShowsOn documentID next changed)
    (delivered : changed.delivered = 0 ∨
      changed.delivered ∈ reached (past ++ [action]) device documentID)
    (noFinish : ∀ device a b, tap ≠ .finish device a b) :
    Seen past s documentID session shared action (s.setApp device next) := by
  refine .step hstep (follows.of_update (t := s.setApp device next) action later
    follows.documentID_eq (follows.versions.trans versions.symm)
    (follows.inFlight.trans inFlight.symm) rfl (setApp_other s device next) ?_ delivered) ?_
  · rw [setApp_same]
    exact shows
  · intro _ _ _ _ _ htap
    exact absurd htap (noFinish _ _ _)

/-- The competition is opened: a new session starts with the version of the list. -/
theorem Follows.seen_pressCompetition (follows : Follows past s documentID session shared)
    (listed : Listed past s) {index : Nat} {chosen : Competition} {qty : Int}
    {listeners : List String} (hchosen : (s.app device).competitions[index]? = some chosen) :
    Seen past s documentID session shared (.onDevice device (.pressCompetition index))
      (s.setApp device { s.app device with
        competition := some chosen
        screen := some { competitionId := chosen.id, qty }
        listeners }) := by
  by_cases hid : chosen.id = some documentID
  · obtain ⟨version, data, hreached, hdata, hdecode⟩ :=
      listed device chosen documentID (List.mem_of_getElem? hchosen) hid
    have hfresh := follows.fresh device (session device + 1) (Nat.lt_succ_self _)
    have hle : (shared.devices (device, session device + 1)).delivered ≤ version := by
      rw [hfresh]
      exact Nat.zero_le version
    have hversion : shared.versions[version]? = some data := by
      rw [follows.versions, hdata]
    refine follows.seen_setDevice (Nat.le_succ _) (step_deliver hle hversion) rfl rfl ?_
      (Or.inr (reached_subset past _ device documentID hreached)) (fun _ _ _ => by simp)
    rintro _ ⟨⟩ _
    refine ⟨?_, fun _ hnone => by cases hnone⟩
    simp only [receiveSnapshot, follows.documentID_eq, hdecode]
  · refine follows.seen_nothing _ rfl rfl ?_
    rintro _ ⟨⟩ hpressed
    exact absurd hpressed hid

theorem Follows.seen_choose (follows : Follows past s documentID session shared) {i j : Nat}
    {screen : CompetitionScreen} {opened : MatchViewController}
    (hscreen : (s.app device).screen = some screen) (hne : i ≠ j)
    (hopened : chooseMatch (s.app device).competition i j = .ok (some opened)) :
    Seen past s documentID session shared (.onDevice device (.choose i j))
      (s.setApp device { s.app device with
        screen := some { screen with matchViewController := some opened } }) := by
  by_cases hid : screen.competitionId = some documentID
  · obtain ⟨hcompetition, _⟩ := follows.shown device screen hscreen hid
    have hchoose : chooseMatch (shared.devices (device, session device)).competition i j =
        .ok (some opened) := by
      rw [hcompetition]
      exact hopened
    refine follows.seen_setDevice (Nat.le_refl _) (step_choose hne hchoose) rfl rfl ?_
      ((follows.delivered device).imp_right fun membership =>
        reached_subset past _ device documentID membership) (fun _ _ _ => by simp)
    rintro _ ⟨⟩ _
    exact ⟨hcompetition, fun _ hsame => hsame⟩
  · refine follows.seen_nothing _ rfl rfl ?_
    rintro _ ⟨⟩ hpressed
    exact absurd hpressed hid

/-- A match is finished in the session of its device, or in another competition. -/
theorem Follows.seen_finish (follows : Follows past s documentID session shared)
    (apart : s.Apart) {a b : Int} {screen : CompetitionScreen} {opened : MatchViewController}
    {competition : Competition} {document : Document} {finished : List FinishedMatch}
    (hscreen : (s.app device).screen = some screen)
    (hopened : screen.matchViewController = some opened)
    (hwinning : winning (s.app device).competition (opened.finishMatch a b).played =
      .ok (competition, document)) :
    Seen past s documentID session shared (.onDevice device (.finish a b))
      (s.setApp device { s.app device with
        competition := some competition
        screen := some { screen with matchViewController := some (opened.finishMatch a b) }
        inFlight := (s.app device).inFlight ++ [document]
        finished }) := by
  obtain ⟨own, origin, shown, table, onScreen⟩ := (apart.own.devices device).onScreen hscreen
    ((apart.inPlace device).shown screen hscreen)
  obtain ⟨stored, data, hstored, _⟩ := onScreen.winning hopened a b
  rw [hwinning] at hstored
  cases hstored
  by_cases hown : own = documentID
  · subst hown
    obtain ⟨hcompetition, hmatch⟩ := follows.shown device screen hscreen onScreen.pressed
    have hstored : winning (shared.devices (device, session device)).competition
        (opened.finishMatch a b).played = .ok (competition, ⟨own, data⟩) := by
      rw [hcompetition]
      exact hwinning
    have hstep := step_finish (hmatch opened hopened) hstored
    refine .step hstep (follows.of_update _ (Nat.le_refl (session device))
      follows.documentID_eq follows.versions ?_ rfl (setApp_other s device _) ?_
      ((follows.delivered device).imp_right fun membership =>
        reached_subset past _ device own membership)) ?_
    · rw [pending_issue (s := s) ⟨own, data⟩ rfl, if_pos rfl, ← follows.inFlight]
      exact List.map_append
    · rw [setApp_same]
      rintro _ ⟨⟩ _
      exact ⟨rfl, fun _ hsame => hsame⟩
    · intro _ _ _ _ again htap hagain
      cases htap
      rw [hmatch opened hopened] at hagain
      cases hagain
      exact ⟨rfl, screen, hscreen, onScreen.pressed, hopened⟩
  · refine follows.seen_nothing _ rfl ?_ ?_
    · rw [pending_issue (s := s) ⟨own, data⟩ rfl, if_neg hown, List.append_nil]
    · rintro _ ⟨⟩ hpressed
      exact absurd (Option.some.inj (onScreen.pressed.symm.trans hpressed)) hown

/-- A snapshot delivered in order is one of the session of its device, when the competition
is on top there. -/
theorem Follows.seen_deliver (follows : Follows past s documentID session shared)
    {delivered : String} {version : Nat} {data : Fields}
    (guard : Navigation.SnapshotOfTop (s.app device) (.deliver delivered version))
    (inOrder : ∀ next ∈ reaching device documentID (.onDevice device (.deliver delivered version)),
      ∀ earlier ∈ reached past device documentID, earlier ≤ next)
    (hdata : ((s.app device).versions delivered)[version]? = some data) :
    Seen past s documentID session shared (.onDevice device (.deliver delivered version))
      (s.setApp device { s.app device with
        competition := receiveSnapshot (s.app device).competition ⟨delivered, data⟩ }) := by
  by_cases hopen : ∃ screen, (s.app device).screen = some screen ∧
      screen.competitionId = some documentID
  · obtain ⟨screen, hscreen, hid⟩ := hopen
    have hsame := guard screen hscreen
    rw [hid] at hsame
    cases hsame
    obtain ⟨hcompetition, hmatch⟩ := follows.shown device screen hscreen hid
    have hreaching : reaching device documentID
        (.onDevice device (.deliver documentID version)) = [version] := if_pos ⟨rfl, rfl⟩
    rw [hreaching] at inOrder
    have hle : (shared.devices (device, session device)).delivered ≤ version := by
      rcases follows.delivered device with hzero | hreached
      · rw [hzero]
        exact Nat.zero_le version
      · exact inOrder version List.mem_cons_self _ hreached
    have hversion : shared.versions[version]? = some data := by
      rw [follows.versions]
      exact hdata
    refine follows.seen_setDevice (Nat.le_refl _) (step_deliver hle hversion) rfl rfl ?_ (Or.inr ?_)
      (fun _ _ _ => by simp)
    · intro other hother hpressed
      obtain ⟨_, hopened⟩ := follows.shown device other hother hpressed
      rw [hcompetition, follows.documentID_eq]
      exact ⟨rfl, hopened⟩
    · rw [reached_concat, hreaching]
      exact List.mem_append_right _ List.mem_cons_self
  · refine follows.seen_nothing _ rfl rfl ?_
    intro screen hscreen hid
    exact absurd ⟨screen, hscreen, hid⟩ hopen

/-- A step of the store. -/
theorem Follows.seen_store (follows : Follows past s documentID session shared)
    {action : Club.Action ι} {next : App} {tap : Shared.Action (ι × Nat)}
    {after : Shared.System (ι × Nat)} (hstep : shared.step? tap = some after)
    (hid : after.documentID = shared.documentID) (devices : after.devices = shared.devices)
    (versions : after.versions = next.versions documentID)
    (inFlight : after.inFlight.map Shared.Write.document =
      (s.setApp device next).pending documentID)
    (screen : next.screen = (s.devices device).screen)
    (competition : next.competition = (s.devices device).competition)
    (noFinish : ∀ device a b, tap ≠ .finish device a b) :
    Seen past s documentID session shared action (s.setApp device next) := by
  have shows : ShowsOn documentID ((s.setApp device next).devices device)
      (shared.devices (device, session device)) := by
    rw [setApp_same]
    intro shown hshown hpressed
    rw [competition]
    exact follows.shown device shown (screen ▸ hshown) hpressed
  have updated : Follows (past ++ [action]) (s.setApp device next) documentID
      (Function.update session device (session device)) after :=
    follows.of_update action (Nat.le_refl _) (hid.trans follows.documentID_eq) versions inFlight
      (devices.trans (Function.update_eq_self _ _).symm) (setApp_other s device next) shows
      ((follows.delivered device).imp_right fun membership =>
        reached_subset past action device documentID membership)
  refine .step hstep updated ?_
  intro _ _ _ _ _ htap
  exact absurd htap (noFinish _ _ _)

/-- A pending write of the document is one of the shared competition. -/
theorem Follows.exists_write (follows : Follows past s documentID session shared) {index : Nat}
    {document : Document} (hdocument : s.inFlight[index]? = some document)
    (hown : document.documentID = documentID) :
    ∃ write, shared.inFlight[place (fun document => document.documentID = documentID)
        s.inFlight index]? = some write ∧ write.document = document ∧
      (shared.inFlight.eraseIdx (place (fun document => document.documentID = documentID)
          s.inFlight index)).map Shared.Write.document =
        (s.inFlight.eraseIdx index).filter fun document => document.documentID = documentID := by
  have hplace := filter_place (Q := fun document : Document => document.documentID = documentID)
    hdocument (decide_eq_true hown)
  have hpending := follows.inFlight
  rw [pending] at hpending
  rw [← hpending, List.getElem?_map] at hplace
  obtain ⟨write, hwrite, hsame⟩ := Option.map_eq_some_iff.mp hplace
  refine ⟨write, hwrite, hsame, ?_⟩
  rw [filter_eraseIdx_of_pos hdocument (decide_eq_true hown), ← hpending, List.eraseIdx_map]

theorem Follows.seen_commit (follows : Follows past s documentID session shared) {index : Nat}
    {document : Document} (hdocument : s.inFlight[index]? = some document) :
    Seen past s documentID session shared (.onDevice device (.commit index))
      (s.setApp device { s.app device with
        versions := Function.update s.versions document.documentID
          (s.versions document.documentID ++ [document.data])
        inFlight := s.inFlight.eraseIdx index }) := by
  by_cases hown : document.documentID = documentID
  · obtain ⟨write, hwrite, rfl, herased⟩ := follows.exists_write hdocument hown
    have hstep := step_commit hwrite (hown.trans follows.documentID_eq.symm)
    refine follows.seen_store hstep rfl rfl ?_ herased rfl rfl (fun _ _ _ => by simp)
    simp only [follows.versions, hown, Function.update_self]
  · refine follows.seen_nothing _ (Function.update_of_ne (Ne.symm hown) _ _) ?_
      (follows.shown device)
    exact filter_eraseIdx_of_neg hdocument (decide_eq_false hown)

theorem Follows.seen_fail (follows : Follows past s documentID session shared) {index : Nat} :
    Seen past s documentID session shared (.onDevice device (.fail index))
      (s.setApp device { s.app device with inFlight := s.inFlight.eraseIdx index }) := by
  cases hdocument : s.inFlight[index]? with
  | none =>
      refine follows.seen_nothing _ rfl ?_ (follows.shown device)
      exact congrArg (List.filter _)
        (List.eraseIdx_of_length_le (List.getElem?_eq_none_iff.mp hdocument))
  | some document =>
      by_cases hown : document.documentID = documentID
      · obtain ⟨write, hwrite, rfl, herased⟩ := follows.exists_write hdocument hown
        exact follows.seen_store (step_fail hwrite) rfl rfl follows.versions herased rfl rfl
          (fun _ _ _ => by simp)
      · exact follows.seen_nothing _ rfl
          (filter_eraseIdx_of_neg hdocument (decide_eq_false hown)) (follows.shown device)

/-- The shared competition sees a step of any device as its own, or not at all. -/
theorem Follows.seen (follows : Follows past s documentID session shared) (apart : s.Apart)
    (listed : Listed past s) {action : Navigation.Action} {next : App}
    (hstep : (s.app device).step? action = some next)
    (guard : Navigation.SnapshotOfTop (s.app device) action)
    (inOrder : ∀ version ∈ reaching device documentID (.onDevice device action),
      ∀ earlier ∈ reached past device documentID, earlier ≤ version) :
    Seen past s documentID session shared (.onDevice device action) (s.setApp device next) := by
  cases Navigation.stepped_of_step hstep with
  | receiveNothing | receiveList | chooseNothing =>
      exact follows.seen_nothing _ rfl rfl (follows.shown device)
  | pressCompetition _ hchosen => exact follows.seen_pressCompetition listed hchosen
  | back =>
      refine follows.seen_nothing _ rfl rfl ?_
      intro screen hnone
      cases hnone
  | choose hscreen hne _ _ hopened => exact follows.seen_choose hscreen hne hopened
  | finish hscreen hopened hwinning => exact follows.seen_finish apart hscreen hopened hwinning
  | @dismiss screen hscreen =>
      refine follows.seen_nothing _ rfl rfl ?_
      rintro _ ⟨⟩ hpressed
      exact ⟨(follows.shown device screen hscreen hpressed).1, fun _ hnone => by cases hnone⟩
  | deliver hdata => exact follows.seen_deliver guard inOrder hdata
  | commit hdocument => exact follows.seen_commit hdocument
  | fail => exact follows.seen_fail

end OnDevice

end Club

end AnyCompetition.Navigation
