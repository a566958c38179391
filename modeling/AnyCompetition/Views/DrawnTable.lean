import AnyCompetition.Navigation.App
import AnyCompetition.Shared.PointTotals

/-!
# The table on the screen

The view of a competition counts its rows and columns once, from the table it is built
with, and keeps the players of that moment.  The cells and the points are drawn later,
from the static competition, which snapshots and finished matches replace meanwhile.
-/

namespace AnyCompetition

open SquareTable Trap

structure CompetitionTableView where
  playersArray : Option (List User)
  /-- Read lazily, already while the view is built. -/
  qty : Option Int

namespace CompetitionTableView

/-- The collections of the view, each asked for its sections and items. -/
inductive Collection where
  | tableCollectionView
  | playersNumberCollectionView
  | playersNamesCollectionView
  | playersScoreCollectionView
  deriving DecidableEq, Repr

/-- The table view of the screen that is opened for a competition. -/
def build (competition : Option Competition) : Except Trap CompetitionTableView := do
  let shown ← unwrap competition
  let competitionTable ← unwrap shown.competitionTable
  return { playersArray := shown.players, qty := competitionTable.qtyPlayers }

def numberOfSections (view : CompetitionTableView) (collection : Collection) :
    Except Trap Int :=
  if collection ≠ .playersNumberCollectionView then unwrap view.qty else return 1

def numberOfItemsInSection (view : CompetitionTableView) (collection : Collection) :
    Except Trap Int :=
  if collection = .tableCollectionView then unwrap view.qty
  else if collection = .playersNumberCollectionView then unwrap view.qty
  else return 1

/-- The text of a cell of `playersNamesCollectionView`. -/
def nameForItemAt (view : CompetitionTableView) (sectionOfPlayer : Int) :
    Except Trap String := do
  let playersArray ← unwrap view.playersArray
  let player ← element playersArray sectionOfPlayer
  return s!"#{sectionOfPlayer + 1} {player.firstName}\n{player.nick}"

end CompetitionTableView

open CompetitionTableView CompetitionViewController

/-- A cell drawn for a match of a table. -/
def CompetitionTable.drawnCell (table : CompetitionTable) (i j : Nat) :
    CompetitionTableCollectionViewCell :=
  if table.isDone i j then
    if table.isWinned i j then { text := "1", backgroundColor := .anyGreenColor }
    else { text := "0", backgroundColor := .anyPurpleColor }
  else if i = j then { backgroundColor := .anyDarckColor }
  else { backgroundColor := .white }

/-- The row of a player has as many ones as the player has points. -/
def CompetitionTable.onesInRow (table : CompetitionTable) (n i : Nat) : Nat :=
  (List.range n).countP fun j => (table.drawnCell i j).text = some "1"

variable {players : List User} {created shown : Competition} {table : CompetitionTable}
  {i j : Nat}

namespace CompetitionTable.WellFormed

theorem cellForItemAt (wellFormed : table.WellFormed players)
    (hasTable : shown.competitionTable = some table) (hi : i < players.length)
    (hj : j < players.length) :
    CompetitionTableView.cellForItemAt (some shown) i j = .ok (table.drawnCell i j) := by
  obtain ⟨played, found⟩ := wellFormed.exists_match hi hj
  obtain ⟨cells, hcells, hplayed⟩ := Option.bind_eq_some_iff.mp found
  rw [CompetitionTable.cells, List.getElem?_map] at hcells
  obtain ⟨row, hrow, rfl⟩ := Option.map_eq_some_iff.mp hcells
  have hdone : table.isDone i j ↔ played.isDone = true := by simp [isDone, found]
  have hwon : table.isWinned i j ↔ played.isWinned = true := by simp [isWinned, found]
  simp only [CompetitionTableView.cellForItemAt, unwrap_some, hasTable, bind, Except.bind,
    element_of_getElem? hrow, element_of_getElem? hplayed, drawnCell, hdone, hwon]
  cases hplayedDone : played.isDone with
  | true => cases played.isWinned <;> rfl
  | false =>
      by_cases hdiagonal : i = j
      · simp [hdiagonal, pure, Except.pure]
      · have hother : ¬ j = i := fun heq => hdiagonal heq.symm
        simp [hdiagonal, hother, pure, Except.pure]

end CompetitionTable.WellFormed

namespace CompetitionTable

/-- A cell is drawn as a one when it is won. -/
theorem text_drawnCell_eq_one_iff (played : table.isWinned i j → table.isDone i j) :
    (table.drawnCell i j).text = some "1" ↔ table.isWinned i j := by
  unfold drawnCell
  by_cases hdone : table.isDone i j
  · by_cases hwon : table.isWinned i j <;> simp [hdone, hwon]
  · have hwon : ¬ table.isWinned i j := fun hwon => hdone (played hwon)
    by_cases hdiagonal : i = j
    · rw [if_neg hdone, if_pos hdiagonal]
      simp [hwon]
    · rw [if_neg hdone, if_neg hdiagonal]
      simp [hwon]

theorem length_wonMatches_eq_onesInRow {n : Nat}
    (played : ∀ j < n, table.isWinned i j → table.isDone i j) :
    (table.wonMatches n i).length = table.onesInRow n i := by
  rw [wonMatches, onesInRow, List.countP_eq_length_filter]
  congr 1
  apply List.filter_congr
  intro j membership
  rw [Bool.eq_iff_iff, decide_eq_true_eq,
    text_drawnCell_eq_one_iff (played j (List.mem_range.mp membership))]
  exact Iff.rfl

end CompetitionTable

/-- The score of a player is drawn as the number of its ones. -/
theorem scoreForItemAt_eq (wellFormed : table.WellFormed players)
    (hasTable : shown.competitionTable = some table) (hi : i < players.length)
    (played : ∀ j < players.length, table.isWinned i j → table.isDone i j) :
    scoreForItemAt (some shown) i = .ok {
      text := toString (table.onesInRow players.length i : Int)
      backgroundColor := .white } := by
  have hpoints := CompetitionTable.calculatePointsOfPlayer_eq wellFormed.square
    wellFormed.square hi
  rw [CompetitionTable.length_wonMatches_eq_onesInRow played] at hpoints
  simp only [scoreForItemAt, hasTable, unwrap_some, bind, Except.bind, hpoints]
  rfl

namespace Shared

open GuardedRun

/-- The name of a player is drawn from the players of the copy that was opened. -/
theorem nameForItemAt_eq (wellFormed : created.WellFormed shown) {player : User}
    (hplayer : created.players[i]? = some player) (qty : Option Int) :
    CompetitionTableView.nameForItemAt { playersArray := some shown.players, qty } i =
      .ok s!"#{(i : Int) + 1} {player.firstName}\n{player.nick}" := by
  have hsame := congrArg (fun players : List User => players[i]?) wellFormed.players
  simp only [List.getElem?_map, hplayer, Option.map_some] at hsame
  obtain ⟨copy, hcopy, hequal⟩ := Option.map_eq_some_iff.mp hsame
  rw [User.withoutDocId_eq, User.withoutDocId_eq] at hequal
  have hfirstName := congrArg User.firstName hequal
  have hnick := congrArg User.nick hequal
  dsimp only at hfirstName hnick
  simp only [nameForItemAt, unwrap_some, bind, Except.bind, element_of_getElem? hcopy,
    hfirstName, hnick]
  rfl

/--
Whatever has been finished and received since the screen of the competition was opened,
its table can be drawn at any time, and every cell off the diagonal can be opened: the
view has the players of the competition, one row and one column for each, and every
score is the number of ones that its row shows.
-/
theorem table_is_drawn {ι : Type} [DecidableEq ι] {initial final : System ι}
    {actions : List (Action ι)} (starts : StartsWith created initial)
    (hrun : run? System.step? initial actions = some final) (device : ι) :
    ∃ view shown table, build (initial.devices device).competition = .ok view ∧
      (final.devices device).competition = some shown ∧
      shown.competitionTable = some table ∧
      view.numberOfSections .tableCollectionView = .ok created.players.length ∧
      view.numberOfItemsInSection .tableCollectionView = .ok created.players.length ∧
      (∀ (i : Nat) (player : User), created.players[i]? = some player →
        view.nameForItemAt i = .ok s!"#{(i : Int) + 1} {player.firstName}\n{player.nick}") ∧
      (∀ i : Nat, i < created.players.length → scoreForItemAt (some shown) i = .ok {
        text := toString (table.onesInRow created.players.length i : Int)
        backgroundColor := .white }) ∧
      ∀ i j : Nat, i < created.players.length → j < created.players.length →
        cellForItemAt (some shown) i j = .ok (table.drawnCell i j) ∧
        (i ≠ j → ∃ screen, chooseMatch (some shown) i j = .ok (some screen)) := by
  obtain ⟨opened, hopened, _, hopenedWellFormed⟩ := starts.consistent.shown device
  obtain ⟨openedTable, hopenedTable, hbuilt⟩ := hopenedWellFormed.table
  obtain ⟨shown, hshown, _, hshownWellFormed⟩ :=
    (starts.consistent_of_run hrun).shown device
  obtain ⟨table, htable, wellFormed⟩ := hshownWellFormed.table
  obtain ⟨finishes, reachable⟩ := starts.reachable_of_holds hrun (.shown hshown htable)
  have hview : build (initial.devices device).competition = .ok {
      playersArray := some opened.players, qty := some openedTable.qtyPlayers } := by
    rw [hopened, build, unwrap_some]
    simp only [bind, Except.bind, hopenedTable, unwrap_some]
    rfl
  rw [hbuilt.qtyPlayers] at hview
  refine ⟨_, shown, table, hview, hshown, htable, rfl, rfl, ?_, ?_, ?_⟩
  · intro i player hplayer
    exact nameForItemAt_eq hopenedWellFormed hplayer _
  · intro i hi
    apply scoreForItemAt_eq wellFormed htable hi
    intro j hj hwon
    by_contra hnotDone
    by_cases hdiagonal : i = j
    · subst hdiagonal
      exact wellFormed.not_isWinned_self i hwon
    · exact (reachable.not_isWinned_of_not_isDone hdiagonal hi hj hnotDone).1 hwon
  · intro i j hi hj
    refine ⟨wellFormed.cellForItemAt htable hi hj, fun _ => ?_⟩
    obtain ⟨played, found⟩ := wellFormed.exists_match hi hj
    exact ⟨_, chooseMatch_eq htable found⟩

/-- One screen stays open while the other finishes a match and its write arrives; a one
and a zero are drawn then, and the table is as large as before. -/
theorem table_is_drawn_after_snapshot :
    let actions : List (Action Bool) :=
      [.choose true 0 1, .finish true 3 1, .commit 0, .deliver false 1]
    ∃ (final : System Bool) (view : CompetitionTableView) (table : CompetitionTable),
      run? System.step? (opened Bool [.anna, .boris, .vera]) actions = some final ∧
      view.numberOfSections .tableCollectionView = .ok (3 : Nat) ∧
      ((final.devices false).competition.bind Competition.competitionTable) = some table ∧
      ∀ i j : Nat, i < 3 → j < 3 →
        cellForItemAt (final.devices false).competition i j = .ok (table.drawnCell i j) := by
  intro actions
  have hcheck : (run? System.step? (opened Bool [.anna, .boris, .vera]) actions).isSome = true := by
    decide +kernel
  obtain ⟨final, hrun⟩ := Option.isSome_iff_exists.mp hcheck
  obtain ⟨view, shown, table, _, hshown, htable, hsections, _, _, _, hcells⟩ :=
    table_is_drawn (startsWith_three Bool) hrun false
  refine ⟨final, view, table, hrun, hsections, ?_, ?_⟩
  · rw [hshown, Option.bind_some, htable]
  · intro i j hi hj
    rw [hshown]
    exact (hcells i j hi hj).1

end Shared

end AnyCompetition
