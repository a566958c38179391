import AnyCompetition.Navigation.CompetitionSessions

/-!
# One competition among all

A document that has no version is not on any screen.  From its first version on, the runs
of the whole app are runs of a shared competition.
-/

namespace AnyCompetition.Navigation

open Json Trap GuardedRun CompetitionViewController PendingWrites

namespace Club

variable {ι : Type} [DecidableEq ι] {past : List (Club.Action ι)} {s t : Club ι}
  {documentID : String}

/-! ## Lists and screens -/

/-- A step only adds versions. -/
theorem versions_kept {action : Club.Action ι} (hstep : s.step? action = some t) {version : Nat}
    {data : Fields} (hdata : (s.versions documentID)[version]? = some data) :
    (t.versions documentID)[version]? = some data := by
  cases stepped_of_step hstep with
  | signIn | notSent | sent => exact hdata
  | onDevice _ hnext =>
      cases Navigation.stepped_of_step hnext with
      | @commit index document hdocument =>
          by_cases hown : document.documentID = documentID
          · subst hown
            simp only [setApp, Function.update_self]
            exact (List.getElem?_append_left (List.getElem?_eq_some_iff.mp hdata).1).trans hdata
          · simp only [setApp, Function.update_of_ne (Ne.symm hown)]
            exact hdata
      | _ => exact hdata

theorem versions_ne_nil {action : Club.Action ι} (hstep : s.step? action = some t)
    (stored : s.versions documentID ≠ []) : t.versions documentID ≠ [] := by
  obtain ⟨data, hdata⟩ := List.exists_mem_of_ne_nil _ stored
  obtain ⟨version, hversion⟩ := List.getElem?_of_mem hdata
  exact List.ne_nil_of_mem (List.mem_of_getElem? (versions_kept hstep hversion))

/-- What was listed before stays listed. -/
theorem Listed.of_subset (listed : Listed past s) {action : Club.Action ι}
    (hstep : s.step? action = some t)
    (fewer : ∀ device, (t.devices device).competitions ⊆ (s.devices device).competitions) :
    Listed (past ++ [action]) t := by
  intro device competition documentID membership hid
  obtain ⟨version, data, hversion, hdata, hdecode⟩ :=
    listed device competition documentID (fewer device membership) hid
  exact ⟨version, data, reached_subset past action device documentID hversion,
    versions_kept hstep hdata, hdecode⟩

theorem Listed.step (listed : Listed past s) {action : Club.Action ι}
    (hstep : s.step? action = some t) : Listed (past ++ [action]) t := by
  cases stepped_of_step hstep with
  | @signIn device uid =>
      refine listed.of_subset hstep ?_
      intro other
      by_cases hother : other = device
      · subst hother
        simp only [Function.update_self]
        exact List.nil_subset _
      · simp only [Function.update_of_ne hother]
        exact List.Subset.refl _
  | notSent | sent => exact listed.of_subset hstep fun _ => List.Subset.refl _
  | @onDevice device action next _ hnext =>
      cases Navigation.stepped_of_step hnext with
      | @receiveList chosen =>
          intro other competition documentID membership hid
          by_cases hother : other = device
          · subst hother
            rw [setApp_same, App.sortedByDate, List.mem_insertionSort,
              Database.getAllCompetitions, Database.appendDecoded_eq] at membership
            obtain ⟨document, hdocument, hdecode⟩ := List.mem_filterMap.mp membership
            obtain ⟨entry, hentry, hfound⟩ := List.mem_filterMap.mp hdocument
            obtain ⟨data, hdata, rfl⟩ := Option.map_eq_some_iff.mp hfound
            have hown := Database.id_of_decodeCompetition hdecode
            rw [hid] at hown
            cases hown
            refine ⟨entry.2, data, ?_, versions_kept hstep hdata, hdecode⟩
            rw [reached_concat, reaching, if_pos rfl]
            exact List.mem_append_right _ (List.mem_map.mpr
              ⟨entry, List.mem_filter.mpr ⟨hentry, decide_eq_true rfl⟩, rfl⟩)
          · rw [setApp_other s device _ other hother] at membership
            obtain ⟨version, data, hversion, hdata, hdecode⟩ :=
              listed other competition documentID membership hid
            exact ⟨version, data, reached_subset past _ other documentID hversion,
              versions_kept hstep hdata, hdecode⟩
      | _ =>
          refine listed.of_subset hstep ?_
          intro other
          by_cases hother : other = device
          · subst hother
            rw [setApp_same]
            exact List.Subset.refl _
          · rw [setApp_other s device _ other hother]
            exact List.Subset.refl _

/-- A competition on a screen has been stored. -/
def Opened (s : Club ι) : Prop :=
  ∀ device screen documentID, (s.devices device).screen = some screen →
    screen.competitionId = some documentID → s.versions documentID ≠ []

theorem Opened.step (opened : Opened s) (listed : Listed past s) {action : Club.Action ι}
    (hstep : s.step? action = some t) : Opened t := by
  have kept : ∀ device screen documentID, (s.devices device).screen = some screen →
      screen.competitionId = some documentID → t.versions documentID ≠ [] :=
    fun device screen documentID hscreen hid =>
      versions_ne_nil hstep (opened device screen documentID hscreen hid)
  cases stepped_of_step hstep with
  | @signIn device uid =>
      intro other screen documentID hscreen hid
      by_cases hother : other = device
      · subst hother
        simp only [Function.update_self] at hscreen
        cases hscreen
      · simp only [Function.update_of_ne hother] at hscreen
        exact kept other screen documentID hscreen hid
  | notSent | sent => exact kept
  | @onDevice device action next _ hnext =>
      intro other screen documentID hscreen hid
      by_cases hother : other = device
      · subst hother
        rw [setApp_same] at hscreen
        cases Navigation.stepped_of_step hnext with
        | receiveNothing | receiveList | chooseNothing | deliver | commit | fail =>
            exact kept other screen documentID hscreen hid
        | @pressCompetition index chosen table _ hchosen =>
            cases hscreen
            obtain ⟨version, data, _, hdata, _⟩ :=
              listed other chosen documentID (List.mem_of_getElem? hchosen) hid
            exact List.ne_nil_of_mem (List.mem_of_getElem? hdata)
        | back => cases hscreen
        | choose hbefore | finish hbefore | dismiss hbefore =>
            cases hscreen
            exact kept other _ documentID hbefore hid
      · rw [setApp_other s device next other hother] at hscreen
        exact kept other screen documentID hscreen hid

/-! ## Phases -/

/-- Every finish of the shared competition is one of the app. -/
def Traced (past : List (Club.Action ι)) (documentID : String)
    (initial : Shared.System (ι × Nat)) (taps : List (Shared.Action (ι × Nat))) : Prop :=
  ∀ front rest before device session a b opened,
    taps = front ++ .finish (device, session) a b :: rest →
    run? Shared.System.step? initial front = some before →
    (before.devices (device, session)).matchViewController = some opened →
    Happened step? {} (FinishedOn documentID device a b opened) past

/-- How far a competition has come. -/
inductive Phase (past : List (Club.Action ι)) (s : Club ι) (documentID : String) : Prop where
  | absent (unstored : s.versions documentID = []) (idle : s.pending documentID = [])
  | sent {origin : Competition} {written : Fields}
      (created : s.created documentID = some origin)
      (starts : Shared.StartsWith origin (started (ι × Nat) documentID written))
      (unstored : s.versions documentID = [])
      (writing : s.pending documentID = [⟨documentID, written⟩])
  | stored {origin : Competition} {written : Fields} {taps : List (Shared.Action (ι × Nat))}
      {shared : Shared.System (ι × Nat)} {session : ι → Nat}
      (created : s.created documentID = some origin)
      (starts : Shared.StartsWith origin (started (ι × Nat) documentID written))
      (run : run? Shared.System.step? (started (ι × Nat) documentID written) taps = some shared)
      (follows : Follows past s documentID session shared)
      (traced : Traced past documentID (started (ι × Nat) documentID written) taps)

/-- The shared competition that the button of a new competition starts. -/
theorem startsWith_started (κ : Type) {screen : AddCompetitionViewController}
    {title : Option String} {now : String} {origin : Competition} {written : Fields}
    (tapped : screen.tapAddCompetitionButton title now = .ok (.dismissed origin written))
    (documentID : String) : Shared.StartsWith origin (started κ documentID written) := by
  obtain ⟨_, _, ids, _, _, hcreated, hwritten⟩ := init_of_tap tapped
  refine ⟨(Sent.of_tap tapped).1.two_le, ⟨_, _, _, _, ids, hcreated⟩, documentID, ?_⟩
  rw [Shared.System.create, Database.sendCompetitionToDatabase_eq, hwritten]
  rfl

/-- No session has been opened when the document gets its first version. -/
theorem follows_started {written : Fields} (versions : t.versions documentID = [written])
    (idle : t.pending documentID = [])
    (closed : ∀ device screen, (t.devices device).screen = some screen →
      screen.competitionId ≠ some documentID) :
    Follows past t documentID (fun _ => 0) (started (ι × Nat) documentID written) where
  documentID_eq := rfl
  versions := versions.symm
  inFlight := idle.symm
  shown device screen hscreen hid := absurd hid (closed device screen hscreen)
  delivered _ := Or.inl rfl
  fresh _ _ _ := rfl

theorem Traced.append {initial : Shared.System (ι × Nat)}
    {taps : List (Shared.Action (ι × Nat))} (traced : Traced past documentID initial taps)
    (later : List (Club.Action ι)) : Traced (past ++ later) documentID initial taps :=
  fun front rest before device session a b opened hsplit hfront hopened =>
    (traced front rest before device session a b opened hsplit hfront hopened).append later

theorem traced_nil (past : List (Club.Action ι)) (documentID : String)
    (initial : Shared.System (ι × Nat)) : Traced past documentID initial [] := by
  intro front rest before device session a b opened hsplit
  exact absurd hsplit.symm (by simp)

theorem Traced.concat {initial shared : Shared.System (ι × Nat)}
    {taps : List (Shared.Action (ι × Nat))} {tap : Shared.Action (ι × Nat)}
    {action : Club.Action ι} (traced : Traced past documentID initial taps)
    (hpast : run? step? {} past = some s)
    (hrun : run? Shared.System.step? initial taps = some shared)
    (finished : ∀ device number a b opened, tap = .finish (device, number) a b →
      (shared.devices (device, number)).matchViewController = some opened →
      FinishedOn documentID device a b opened past s action) :
    Traced (past ++ [action]) documentID initial (taps ++ [tap]) := by
  intro front rest before device session a b opened hsplit hfront hopened
  rcases List.eq_nil_or_concat rest with rfl | ⟨middle, last, rfl⟩
  · obtain ⟨rfl, hlast⟩ := List.append_inj' hsplit rfl
    rw [hrun] at hfront
    cases hfront
    exact Happened.last hpast
      (finished device session a b opened (List.singleton_inj.mp hlast) hopened)
  · rw [List.concat_eq_append, ← List.cons_append, ← List.append_assoc] at hsplit
    obtain ⟨rfl, _⟩ := List.append_inj' hsplit rfl
    exact traced.append [action] front middle before device session a b opened rfl hfront
      hopened

/-- What a step of a device does to a document that has no version. -/
theorem unstored_onDevice (apart : s.Apart) (opened : Opened s) {device : ι}
    {action : Navigation.Action} {next : App} (hstep : (s.app device).step? action = some next)
    (unstored : s.versions documentID = []) :
    ((s.setApp device next).versions documentID = [] ∧
        (s.setApp device next).pending documentID = s.pending documentID) ∨
      ∃ index document, (s.pending documentID)[index]? = some document ∧
        (s.setApp device next).pending documentID = (s.pending documentID).eraseIdx index ∧
        ((s.setApp device next).versions documentID = [] ∨
          (s.setApp device next).versions documentID = [document.data] ∧
            next.screen = (s.devices device).screen) := by
  cases Navigation.stepped_of_step hstep with
  | receiveNothing | receiveList | pressCompetition | back | chooseNothing | choose | dismiss
    | deliver => exact Or.inl ⟨unstored, rfl⟩
  | @finish a b screen found competition document hscreen hopened hwinning =>
      obtain ⟨own, origin, shown, table, onScreen⟩ := (apart.own.devices device).onScreen hscreen
        ((apart.inPlace device).shown screen hscreen)
      obtain ⟨stored, data, hstored, _⟩ := onScreen.winning hopened a b
      rw [hwinning] at hstored
      cases hstored
      refine Or.inl ⟨unstored, ?_⟩
      rw [pending_issue (s := s) ⟨own, data⟩ rfl, if_neg, List.append_nil]
      intro hown
      exact opened device screen documentID hscreen (hown ▸ onScreen.pressed) unstored
  | @commit index document hdocument =>
      by_cases hown : document.documentID = documentID
      · refine Or.inr ⟨_, document, filter_place hdocument (decide_eq_true hown),
          filter_eraseIdx_of_pos hdocument (decide_eq_true hown), Or.inr ⟨?_, rfl⟩⟩
        simp only [setApp, hown, Function.update_self]
        rw [show (s.app device).versions documentID = [] from unstored]
        rfl
      · refine Or.inl ⟨?_, filter_eraseIdx_of_neg hdocument (decide_eq_false hown)⟩
        simp only [setApp, Function.update_of_ne (Ne.symm hown)]
        exact unstored
  | @fail index =>
      cases hdocument : s.inFlight[index]? with
      | none =>
          exact Or.inl ⟨unstored, congrArg (List.filter _)
            (List.eraseIdx_of_length_le (List.getElem?_eq_none_iff.mp hdocument))⟩
      | some document =>
          by_cases hown : document.documentID = documentID
          · exact Or.inr ⟨_, document, filter_place hdocument (decide_eq_true hown),
              filter_eraseIdx_of_pos hdocument (decide_eq_true hown), Or.inl unstored⟩
          · exact Or.inl ⟨unstored, filter_eraseIdx_of_neg hdocument (decide_eq_false hown)⟩

theorem Phase.step (phase : Phase past s documentID) (apart : s.Apart) (listed : Listed past s)
    (opened : Opened s) (hpast : run? step? {} past = some s) {action : Club.Action ι}
    (hstep : s.step? action = some t) (guard : s.SnapshotOfTop action)
    (inOrder : ∀ device, ∀ version ∈ reaching device documentID action,
      ∀ earlier ∈ reached past device documentID, earlier ≤ version) :
    Phase (past ++ [action]) t documentID := by
  cases stepped_of_step hstep with
  | @signIn device uid =>
      cases phase with
      | absent unstored idle => exact .absent unstored idle
      | sent created starts unstored writing => exact .sent created starts unstored writing
      | stored created starts run follows traced =>
          refine .stored created starts run (follows.unseen _ device rfl rfl ?_ ?_)
            (traced.append _)
          · intro other hother
            simp only [Function.update_of_ne hother]
          · intro screen hnone
            simp only [Function.update_self] at hnone
            cases hnone
  | notSent =>
      cases phase with
      | absent unstored idle => exact .absent unstored idle
      | sent created starts unstored writing => exact .sent created starts unstored writing
      | stored created starts run follows traced =>
          exact .stored created starts run (follows.mono _ rfl rfl rfl) (traced.append _)
  | @sent screen title now newID origin written tapped hnew =>
      by_cases hown : newID = documentID
      · subst hown
        cases phase with
        | absent unstored idle =>
            refine .sent (Function.update_self ..) (startsWith_started _ tapped newID)
              unstored ?_
            rw [pending_issue (s := s) ⟨newID, written⟩ rfl, idle, if_pos rfl]
            rfl
        | sent created | stored created =>
            rw [hnew] at created
            cases created
      · have idle : pending { s with
              created := Function.update s.created newID (some origin)
              inFlight := s.inFlight ++ [⟨newID, written⟩] } documentID =
            s.pending documentID := by
          rw [pending_issue (s := s) ⟨newID, written⟩ rfl, if_neg hown,
            List.append_nil]
        have known : ∀ {found}, s.created documentID = some found →
            Function.update s.created newID (some origin) documentID = some found :=
          fun hfound => (Function.update_of_ne (Ne.symm hown) _ _).trans hfound
        cases phase with
        | absent unstored hidle => exact .absent unstored (idle.trans hidle)
        | sent created starts unstored writing =>
            exact .sent (known created) starts unstored (idle.trans writing)
        | stored created starts run follows traced =>
            exact .stored (known created) starts run (follows.mono _ rfl idle rfl)
              (traced.append _)
  | @onDevice device action next _ hnext =>
      cases phase with
      | absent unstored idle =>
          rcases unstored_onDevice apart opened hnext unstored with
            ⟨hversions, hpending⟩ | ⟨index, document, hdocument, _⟩
          · exact .absent hversions (hpending.trans idle)
          · rw [idle] at hdocument
            cases hdocument
      | sent created starts unstored writing =>
          rcases unstored_onDevice apart opened hnext unstored with
            ⟨hversions, hpending⟩ | ⟨index, document, hdocument, hpending, hversions⟩
          · exact .sent created starts hversions (hpending.trans writing)
          · rw [writing] at hdocument hpending
            obtain ⟨hindex, hsent⟩ := List.getElem?_eq_some_iff.mp hdocument
            obtain rfl : index = 0 := Nat.lt_one_iff.mp hindex
            cases hsent
            rcases hversions with hlost | ⟨hversions, hscreen⟩
            · exact .absent hlost hpending
            · refine .stored created starts rfl (follows_started hversions hpending ?_)
                (traced_nil _ _ _)
              intro other screen hother hid
              by_cases hsame : other = device
              · subst hsame
                rw [setApp_same, hscreen] at hother
                exact opened other screen documentID hother hid unstored
              · rw [setApp_other s device next other hsame] at hother
                exact opened other screen documentID hother hid unstored
      | stored created starts run follows traced =>
          cases follows.seen apart listed hnext guard (inOrder device) with
          | nothing after => exact .stored created starts run after (traced.append _)
          | step hshared after finished =>
              exact .stored created starts
                (run?_trans run ((run?_singleton _ _).trans hshared)) after
                (traced.concat hpast run finished)

/-! ## Whole runs -/

theorem InOrder.le {front rest : List (Club.Action ι)} {action : Club.Action ι}
    (inOrder : InOrder (front ++ action :: rest)) (device : ι) (documentID : String) :
    ∀ version ∈ reaching device documentID action,
      ∀ earlier ∈ reached front device documentID, earlier ≤ version := by
  intro version hversion earlier hearlier
  have ordered := inOrder device documentID
  rw [reached, List.flatMap_append, List.flatMap_cons] at ordered
  exact (List.pairwise_append.mp ordered).2.2 earlier hearlier version
    (List.mem_append_left _ hversion)

/-- Everything known of a run whose snapshots arrive in order and on their own screens. -/
structure Seeing (actions : List (Club.Action ι)) (s : Club ι) : Prop where
  apart : s.Apart
  listed : Listed actions s
  opened : Opened s
  phase : ∀ documentID, Phase actions s documentID

theorem seeing_of_run {actions : List (Club.Action ι)} (hrun : run? step? {} actions = some s)
    (guarded : Along step? SnapshotOfTop {} actions) (inOrder : InOrder actions) :
    Seeing actions s := by
  have start : Seeing [] ({} : Club ι) := by
    refine ⟨apart_start, ?_, ?_, fun documentID => .absent rfl rfl⟩
    · intro device competition documentID membership
      cases membership
    · intro device screen documentID hnone
      cases hnone
  refine run?_prefix_invariant start ?_ hrun
  rintro front rest s t action rfl hfront ⟨apart, listed, opened, phase⟩ hstep
  have guard := guarded.guard hfront hstep
  refine ⟨(apart.step_iff hstep).mpr guard, listed.step hstep, opened.step listed hstep, ?_⟩
  intro documentID
  exact (phase documentID).step apart listed opened hfront hstep guard
    fun device => inOrder.le device documentID

/--
Any number of devices create, list, open, play and write any number of competitions.  When
the snapshots that arrive while a competition is on top are of that competition, and no
device goes back to an earlier version of a document, then each stored competition is a
shared competition on its own: a run of it stores and writes what the document does, and
shows on the last session of each device what that device shows of the competition, with
the same match open.  Every finish of that run is one that was tapped in the app.
-/
theorem refines_shared {actions : List (Club.Action ι)}
    (hrun : run? step? {} actions = some s)
    (guarded : Along step? SnapshotOfTop {} actions) (inOrder : InOrder actions)
    {origin : Competition} (created : s.created documentID = some origin)
    (stored : s.versions documentID ≠ []) :
    ∃ (initial shared : Shared.System (ι × Nat)) (taps : List (Shared.Action (ι × Nat)))
      (session : ι → Nat), Shared.StartsWith origin initial ∧
      run? Shared.System.step? initial taps = some shared ∧
      s.Projects documentID (fun device => (device, session device)) shared ∧
      Traced actions documentID initial taps := by
  cases (seeing_of_run hrun guarded inOrder).phase documentID with
  | absent unstored | sent _ _ unstored => exact absurd unstored stored
  | stored found starts run follows traced =>
      rw [created] at found
      cases found
      exact ⟨_, _, _, _, starts, run, follows.toProjects, traced⟩

/-- A match is finished on one device, and the other one opens the competition afterwards. -/
def openedTwice : List (Club.Action Bool) :=
  twoDevices ++ [.onDevice false (.pressCompetition 0)]

theorem snapshotOfTop_openedTwice : Along step? SnapshotOfTop {} openedTwice := by
  simp [Along, SnapshotOfTop, Navigation.SnapshotOfTop, openedTwice, twoDevices]

theorem inOrder_openedTwice : InOrder openedTwice := by
  intro device documentID
  by_cases hown : "c1" = documentID
  · cases device <;> simp [reached, reaching, openedTwice, twoDevices, hown]
  · cases device <;> simp [reached, reaching, openedTwice, twoDevices, hown]

theorem refines_shared_two_devices :
    ∃ (final : Club Bool) (origin : Competition) (initial shared : Shared.System (Bool × Nat))
      (taps : List (Shared.Action (Bool × Nat))) (session : Bool → Nat),
      run? step? {} openedTwice = some final ∧ final.created "c1" = some origin ∧
      (final.versions "c1").length = 2 ∧ Shared.StartsWith origin initial ∧
      run? Shared.System.step? initial taps = some shared ∧
      final.Projects "c1" (fun device => (device, session device)) shared := by
  have hcheck : ((run? step? {} openedTwice).bind fun final =>
      (final.created "c1").map fun origin => (final, origin)).any
      (fun found => (found.1.versions "c1").length = 2) = true := by
    decide +kernel
  obtain ⟨⟨final, origin⟩, hfound, hchecked⟩ := (Option.any_eq_true _ _).mp hcheck
  obtain ⟨_, hrun, hrest⟩ := Option.bind_eq_some_iff.mp hfound
  obtain ⟨_, hcreated, htuple⟩ := Option.map_eq_some_iff.mp hrest
  cases htuple
  have hlength : (final.versions "c1").length = 2 := of_decide_eq_true hchecked
  obtain ⟨initial, shared, taps, session, starts, hshared, projects, _⟩ :=
    refines_shared hrun snapshotOfTop_openedTwice inOrder_openedTwice hcreated
      (List.ne_nil_of_length_pos (by omega))
  exact ⟨final, origin, initial, shared, taps, session, hrun, hcreated, hlength, starts, hshared,
    projects⟩

end Club

end AnyCompetition.Navigation
