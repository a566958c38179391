import AnyCompetition.Navigation.SharedCompetition
import AnyCompetition.Shared.EnteredResults

/-!
# Where the results of the app come from

What holds of a shared competition on its own holds of every competition of the app, as
long as snapshots arrive in order and on their own screens.
-/

namespace AnyCompetition.Navigation.Club

open Json GuardedRun

variable {ι : Type} {s : Club ι} {documentID : String} {table : CompetitionTable}

/-- The table is stored, pending or shown as that of the competition. -/
inductive HoldsTable (s : Club ι) (documentID : String) (table : CompetitionTable) : Prop where
  | version {data : Fields} (membership : data ∈ s.versions documentID)
      (holds : Shared.HoldsIn documentID data table)
  | inFlight {data : Fields} (membership : (⟨documentID, data⟩ : Document) ∈ s.inFlight)
      (holds : Shared.HoldsIn documentID data table)
  | shown {device : ι} {screen : CompetitionScreen} {competition : Competition}
      (top : (s.devices device).screen = some screen)
      (pressed : screen.competitionId = some documentID)
      (shown : (s.devices device).competition = some competition)
      (holds : competition.competitionTable = some table)

theorem mem_pending {document : Document} (membership : document ∈ s.inFlight) :
    document ∈ s.pending document.documentID :=
  List.mem_filter.mpr ⟨membership, decide_eq_true rfl⟩

/-- A table of the competition is one of the shared competition. -/
theorem Projects.holds {κ : Type} {session : ι → κ} {shared : Shared.System κ}
    (projects : s.Projects documentID session shared) (held : s.HoldsTable documentID table) :
    Shared.Holds shared table := by
  cases held with
  | version membership holds =>
      rw [← projects.versions] at membership
      exact .version membership (projects.documentID_eq ▸ holds)
  | inFlight membership holds =>
      have hpending := mem_pending membership
      rw [← projects.inFlight] at hpending
      obtain ⟨write, hwrite, hdocument⟩ := List.mem_map.mp hpending
      refine .inFlight hwrite ?_
      rw [hdocument, projects.documentID_eq]
      exact holds
  | shown top pressed shown holds =>
      exact .shown ((projects.shown _ _ top pressed).1.trans shown) holds

variable [DecidableEq ι]

/-- The run of the shared competition that holds a table of the app. -/
theorem exists_shared {actions : List (Club.Action ι)} (hrun : run? step? {} actions = some s)
    (guarded : Along step? SnapshotOfTop {} actions) (inOrder : InOrder actions)
    (held : s.HoldsTable documentID table) :
    ∃ (origin : Competition) (initial shared : Shared.System (ι × Nat))
      (taps : List (Shared.Action (ι × Nat))), s.created documentID = some origin ∧
      Shared.StartsWith origin initial ∧
      run? Shared.System.step? initial taps = some shared ∧ Shared.Holds shared table ∧
      Traced actions documentID initial taps := by
  have seeing := seeing_of_run hrun guarded inOrder
  cases seeing.phase documentID with
  | absent unstored idle =>
      cases held with
      | version membership =>
          rw [unstored] at membership
          cases membership
      | inFlight membership =>
          have hpending := mem_pending membership
          rw [idle] at hpending
          cases hpending
      | shown top pressed => exact absurd unstored (seeing.opened _ _ documentID top pressed)
  | @sent origin written created starts unstored writing =>
      refine ⟨origin, _, _, [], created, starts, rfl, ?_, traced_nil _ _ _⟩
      cases held with
      | version membership =>
          rw [unstored] at membership
          cases membership
      | inFlight membership holds =>
          have hpending := mem_pending membership
          rw [writing] at hpending
          cases List.mem_singleton.mp hpending
          exact .version List.mem_cons_self holds
      | shown top pressed => exact absurd unstored (seeing.opened _ _ documentID top pressed)
  | stored created starts run follows traced =>
      exact ⟨_, _, _, _, created, starts, run, follows.toProjects.holds held, traced⟩

/--
In the whole app no result is invented: when snapshots arrive in order and on their own
screens, every done cell of a table that is stored, pending or shown as that of a
competition has scores that were entered earlier, on a screen of this very competition with
an open match of this pair: in the order of the cell, or reversed when the match was
opened from the mirrored cell.
-/
theorem result_was_finished_on_screen {actions : List (Club.Action ι)}
    (hrun : run? step? {} actions = some s)
    (guarded : Along step? SnapshotOfTop {} actions) (inOrder : InOrder actions)
    (held : s.HoldsTable documentID table) {i j : Nat} {played : Match}
    (found : table.match? i j = some played) (done : played.isDone = true) :
    ∃ device a b opened,
      Happened step? {} (FinishedOn documentID device a b opened) actions ∧
      opened.played.isDone = false ∧
      ((opened.played.matchIndex = ⟨i, j⟩ ∧ played.scorePlayer1 = a ∧
          played.scorePlayer2 = b) ∨
        (opened.played.matchIndex = ⟨j, i⟩ ∧ played.scorePlayer1 = b ∧
          played.scorePlayer2 = a)) := by
  obtain ⟨origin, initial, shared, taps, _, starts, hshared, hheld, traced⟩ :=
    exists_shared hrun guarded inOrder held
  obtain ⟨front, action, rest, before, htaps, hfront, enters⟩ :=
    starts.exists_enters hshared hheld found done
  obtain ⟨⟨device, session⟩, a, b, opened, rfl, hopened, hopen, hscores⟩ := enters.scores
  exact ⟨device, a, b, opened,
    traced front rest before device session a b opened htaps hfront hopened, hopen, hscores⟩

/-- A device lists and opens the competition after another one has finished its match. -/
theorem result_was_finished_on_screen_two_devices :
    ∃ (final : Club Bool) (table : CompetitionTable) (played : Match),
      run? step? {} openedTwice = some final ∧ final.HoldsTable "c1" table ∧
      table.match? 1 0 = some played ∧ played.isDone = true ∧
      ∃ device a b opened,
        Happened step? {} (FinishedOn "c1" device a b opened) openedTwice ∧
        (played.scorePlayer1 = a ∧ played.scorePlayer2 = b ∨
          played.scorePlayer1 = b ∧ played.scorePlayer2 = a) := by
  have hcheck : ((run? step? {} openedTwice).bind fun final =>
      (final.devices false).screen.bind fun screen =>
        (final.devices false).competition.bind fun shown =>
          shown.competitionTable.bind fun table =>
            (table.match? 1 0).map fun played => (final, screen, shown, table, played)).any
      (fun found => found.2.1.competitionId = some "c1" ∧ found.2.2.2.2.isDone = true) = true := by
    decide +kernel
  obtain ⟨⟨final, screen, shown, table, played⟩, hfound, hchecked⟩ :=
    (Option.any_eq_true _ _).mp hcheck
  obtain ⟨hpressed, done⟩ := of_decide_eq_true hchecked
  obtain ⟨_, hrun, hrest⟩ := Option.bind_eq_some_iff.mp hfound
  obtain ⟨_, hscreen, hrest⟩ := Option.bind_eq_some_iff.mp hrest
  obtain ⟨_, hshown, hrest⟩ := Option.bind_eq_some_iff.mp hrest
  obtain ⟨_, htable, hrest⟩ := Option.bind_eq_some_iff.mp hrest
  obtain ⟨_, hplayed, htuple⟩ := Option.map_eq_some_iff.mp hrest
  cases htuple
  have held : final.HoldsTable "c1" table := .shown hscreen hpressed hshown htable
  obtain ⟨device, a, b, opened, happened, _, hscores⟩ := result_was_finished_on_screen hrun
    snapshotOfTop_openedTwice inOrder_openedTwice held hplayed done
  exact ⟨final, table, played, hrun, held, hplayed, done, device, a, b, opened, happened,
    hscores.imp And.right And.right⟩

end AnyCompetition.Navigation.Club
