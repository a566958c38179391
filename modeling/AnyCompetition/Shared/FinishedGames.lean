import AnyCompetition.Models.FinishedPairs
import AnyCompetition.Shared.HeldTables

/-!
# The counter of finished games

The counters of all tables held stay exact along a run exactly when no finish of
the run is tapped for a pair already done in the copy of its device.
-/

namespace AnyCompetition.Shared

open Json GuardedRun PairCounting

variable {ι : Type} [DecidableEq ι] {created : Competition} {s t : System ι}

/-- The finish button is tapped only for a match whose pair is still open in the
current copy of its device. -/
def FinishesOpenPair (s : System ι) : Action ι → Prop
  | .finish device _ _ => ∀ screen shown table,
      (s.devices device).matchViewController = some screen →
      (s.devices device).competition = some shown →
      shown.competitionTable = some table →
      ¬ table.isDone screen.played.matchIndex.indexOfPlayer.toNat
        screen.played.matchIndex.indexOfMatch.toNat
  | _ => True

omit [DecidableEq ι] in
/-- The guard of a finish, once the screen and the copy of the device are known. -/
theorem Finishing.finishesOpenPair_iff {device : ι} {a b : Int}
    {screen : MatchViewController} {shown : Competition} {table : CompetitionTable}
    {i j : Nat} {data : Fields}
    (finishing : Finishing created s device a b screen shown table i j data) :
    FinishesOpenPair s (.finish device a b) ↔ ¬ table.isDone i j := by
  have hindex := finishing.openCell.2.2.2.matchIndex
  constructor
  · intro guard
    simpa [hindex] using guard screen shown table finishing.screen_eq finishing.shown_eq
      finishing.table_eq
  · intro hopen other copy found hother hcopy hfound
    rw [finishing.screen_eq] at hother
    cases hother
    rw [finishing.shown_eq] at hcopy
    cases hcopy
    rw [finishing.table_eq] at hfound
    cases hfound
    simpa [hindex] using hopen

/-- A step keeps every counter exact when it meets the guard, and only then. -/
theorem counted_step (consistent : Consistent created s)
    (counted : Everywhere (CompetitionTable.Counted created.players.length) s)
    {action : Action ι} (hstep : s.step? action = some t) :
    Everywhere (CompetitionTable.Counted created.players.length) t ↔
      FinishesOpenPair s action := by
  have stepped := consistent.stepped hstep
  cases action with
  | finish device a b =>
      cases stepped with
      | @finish _ _ _ screen shown table i j data finishing =>
          obtain ⟨hne, hi, hj, _⟩ := finishing.openCell
          have hcopy := counted table (.shown finishing.shown_eq finishing.table_eq)
          have hstore := CompetitionTable.counted_storeMatch finishing.wellFormed hcopy
            (screen.played.makeMatch_isDone a b) hi hj hne
          rw [finishing.finishesOpenPair_iff, ← hstore]
          constructor
          · intro everywhere
            exact everywhere _ (holds_afterFinish s device a b screen shown table i j data)
          · intro hnew held hheld
            rcases finishing.holds hheld with before | rfl | rfl
            · exact counted held before
            · exact hnew
            · exact CompetitionTable.counted_withoutDocId.mpr hnew
  | choose | commit | fail | deliver =>
      refine ⟨fun _ => trivial, fun _ => stepped.everywhere counted ?_⟩
      intro _ _ _ _ _ _ _ _ _ hfinish
      cases hfinish

omit [DecidableEq ι] in
/-- At the start every table held is counted. -/
theorem StartsWith.counted (starts : StartsWith created s) :
    Everywhere (CompetitionTable.Counted created.players.length) s := by
  intro table held
  obtain ⟨new, hnew, rfl⟩ := starts.holds held
  exact CompetitionTable.counted_withoutDocId.mpr
    (CompetitionTable.counted_init hnew starts.two_le)

/--
Throughout a run every table that is stored, in flight or shown on a device
counts its finished pairs exactly, if and only if no finish of the run is tapped
for a pair that is already done in the copy of its device.
-/
theorem counted_throughout_iff {initial : System ι} {actions : List (Action ι)}
    (starts : StartsWith created initial) :
    Throughout System.step? (Everywhere (CompetitionTable.Counted created.players.length))
        initial actions ↔
      Along System.step? FinishesOpenPair initial actions :=
  throughout_iff_along (Consistent created)
    (fun consistent _ _ hstep => consistent.step hstep)
    (fun consistent counted hstep => counted_step consistent counted hstep)
    starts.consistent starts.counted

/-- Two devices finish two different pairs. -/
theorem counted_throughout_iff_two_devices :
    StartsWith (cup [.anna, .boris, .vera]) (opened Bool [.anna, .boris, .vera]) ∧
      (Throughout System.step?
          (Everywhere (CompetitionTable.Counted (cup [.anna, .boris, .vera]).players.length))
          (opened Bool [.anna, .boris, .vera])
          [.choose true 0 1, .choose false 2 0, .finish true 1 0, .finish false 3 3] ↔
        Along System.step? FinishesOpenPair (opened Bool [.anna, .boris, .vera])
          [.choose true 0 1, .choose false 2 0, .finish true 1 0, .finish false 3 3]) :=
  ⟨startsWith_three Bool, counted_throughout_iff (startsWith_three Bool)⟩

/-- Three devices open the same match, and each finishes it after the result of the one
before has arrived: the competition of three players is finished, with one finished
pair of three. -/
theorem finished_after_one_pair :
    let actions : List (Action (Fin 3)) := [
      .choose 0 0 1, .choose 1 0 1, .choose 2 0 1, .finish 0 1 0, .commit 0, .deliver 1 1,
      .finish 1 1 0, .commit 0, .deliver 2 2, .finish 2 1 0]
    StartsWith (cup [.anna, .boris, .vera]) (opened (Fin 3) [.anna, .boris, .vera]) ∧
    ∃ final shown table,
      run? System.step? (opened (Fin 3) [.anna, .boris, .vera]) actions = some final ∧
      (final.devices 2).competition = some shown ∧
      shown.competitionTable = some table ∧
      table.qtyFinishedGames = 3 ∧ table.qtyGames = 3 ∧
      table.isCompetitionFinished = true ∧
      countPairs 3 table.isDone = 1 ∧ ¬ table.isDone 0 2 ∧
      ¬ Everywhere (CompetitionTable.Counted 3) final := by
  intro actions
  have hrun : ((run? System.step? (opened (Fin 3) [.anna, .boris, .vera]) actions).bind
      fun final => (final.devices 2).competition.bind Competition.competitionTable).any
        (fun table =>
          table.qtyFinishedGames = 3 ∧ table.qtyGames = 3 ∧
          table.isCompetitionFinished = true ∧ countPairs 3 table.isDone = 1 ∧
          ¬ table.isDone 0 2) = true := by
    decide +kernel
  obtain ⟨table, htable, hcheck⟩ := (Option.any_eq_true _ _).mp hrun
  obtain ⟨final, hfinal, hshown⟩ := Option.bind_eq_some_iff.mp htable
  obtain ⟨shown, hcopy, hfound⟩ := Option.bind_eq_some_iff.mp hshown
  obtain ⟨hfinished, hgames, hflag, hcount, hopen⟩ := of_decide_eq_true hcheck
  refine ⟨startsWith_three (Fin 3), final, shown, table, hfinal, hcopy, hfound, hfinished,
    hgames, hflag, hcount, hopen, ?_⟩
  intro everywhere
  have hexact := (everywhere table (.shown hcopy hfound)).qtyFinishedGames
  rw [hfinished, hcount] at hexact
  cases hexact

end AnyCompetition.Shared
