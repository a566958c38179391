import AnyCompetition.Library.GuardedRun
import AnyCompetition.Models.Competition

/-!
# Points and the open competition

The points of a player are counted over the columns of one table and in the cells
of the competition that is open.  They are the won cells of the table asked exactly
when the open one has these columns in the same row, with as many of them won.
-/

namespace AnyCompetition.CompetitionTable

open GuardedRun SquareTable Trap

/-! ## Tables changed by finished matches -/

/-- A finished match that traps leaves no table. -/
def finishMatch? (table : CompetitionTable) (played : Match) : Option CompetitionTable :=
  (table.finishMatch played).toOption

/-- A table built for the players and changed by a sequence of finished matches. -/
def Built (players : List User) (table : CompetitionTable) : Prop :=
  ∃ new played, init players = .ok new ∧ run? finishMatch? new played = some table

variable {table : CompetitionTable} {players : List User} {n : Nat}

/-- A write that does not trap is a write into a cell. -/
theorem exists_cell_of_setMatch {rows next : List MatchesOfPlayer} {index : MatchIndex}
    {played : Match} (written : setMatch rows index played = .ok next) :
    ∃ i j : Nat, index = ⟨i, j⟩ ∧
      (cell? (rows.map MatchesOfPlayer.matchesOfPlayer) i j).isSome := by
  obtain ⟨row, hrow, hcolumns⟩ := bind_eq_ok_iff.mp written
  obtain ⟨columns, hcolumn, _⟩ := bind_eq_ok_iff.mp hcolumns
  obtain ⟨i, hi, found⟩ := getElem?_of_element hrow
  obtain ⟨j, hj, inside⟩ := lt_of_replaceElement hcolumn
  refine ⟨i, j, ?_, ?_⟩
  · rw [← hi, ← hj]
  · simp [cell?, found, inside]

/-- A finished match that does not trap keeps the shape of the table. -/
theorem square_finishMatch? {next : CompetitionTable} {played : Match}
    (square : Square n table.cells) (finished : table.finishMatch? played = some next) :
    Square n next.cells := by
  cases hresult : table.finishMatch played with
  | error trap =>
      rw [finishMatch?, hresult] at finished
      cases finished
  | ok result =>
      rw [finishMatch?, hresult] at finished
      cases finished
      obtain ⟨rows, hfirst, _⟩ := bind_eq_ok_iff.mp hresult
      obtain ⟨i, j, hindex, hcell⟩ := exists_cell_of_setMatch hfirst
      obtain ⟨hi, hj⟩ := (square.isSome_cell?_iff i j).mp hcell
      rw [finishMatch_eq square hindex hi hj] at hresult
      cases hresult
      exact square_storeMatch square i j played

theorem Built.square (built : Built players table) : Square players.length table.cells := by
  obtain ⟨new, played, created, hrun⟩ := built
  exact run?_invariant square_finishMatch? (square_init created) hrun

/-! ## Counting -/

/-- One turn of the loop, in the row of the open competition. -/
def addPoint (row : List Match) (points : Int) (i : Nat) : Except Trap Int := do
  let played ← element row i
  return if played.isWinned then points + 1 else points

/-- The loop counts the won cells of the first columns, if there are as many. -/
theorem foldlM_addPoint (row : List Match) (columns : Nat) :
    (List.range columns).foldlM (addPoint row) 0 =
      if columns ≤ row.length then .ok ((row.take columns).countP Match.isWinned : Int)
      else .error .indexOutOfRange := by
  induction columns with
  | zero => rfl
  | succ columns ih =>
      rw [List.range_succ, List.foldlM_append, ih]
      cases hcell : row[columns]? with
      | none =>
          have hlength : row.length ≤ columns := List.getElem?_eq_none_iff.mp hcell
          rw [if_neg (by omega : ¬ columns + 1 ≤ row.length)]
          by_cases hcolumns : columns ≤ row.length
          · rw [if_pos hcolumns]
            simp [bind, Except.bind, addPoint, element_of_getElem?_none hcell]
          · rw [if_neg hcolumns]
            rfl
      | some played =>
          have hlength : columns < row.length := (List.getElem?_eq_some_iff.mp hcell).1
          rw [if_pos (Nat.le_of_lt hlength), if_pos (by omega : columns + 1 ≤ row.length),
            List.take_add_one, hcell, List.countP_append]
          cases hwon : played.isWinned <;>
            simp [bind, Except.bind, pure, Except.pure, addPoint, element_of_getElem? hcell,
              hwon]

/-- The points of a player whose row has cells, for any competition that is open. -/
theorem calculatePointsOfPlayer_of_row {p : Nat} {row : MatchesOfPlayer}
    (hrow : table.competitionTable[p]? = some row) (nonempty : row.matchesOfPlayer ≠ [])
    (shown : Option CompetitionTable) :
    table.calculatePointsOfPlayer shown p =
      match shown with
      | none => .ok 0
      | some shown => element shown.competitionTable p >>= fun shownRow =>
          (List.range row.matchesOfPlayer.length).foldlM
            (addPoint shownRow.matchesOfPlayer) 0 := by
  have hempty : row.matchesOfPlayer.isEmpty = false := by
    rw [List.isEmpty_eq_false_iff]
    exact nonempty
  rw [calculatePointsOfPlayer, element_of_getElem? hrow]
  simp only [bind, Except.bind, hempty, Bool.false_eq_true, if_false]
  cases shown with
  | none =>
      have hloop : (List.range row.matchesOfPlayer.length).foldlM
          (fun (points : Int) (_ : Nat) => (pure points : Except Trap Int)) 0 = .ok _ :=
        foldlM_ok (fun points _ => points) fun _ _ _ => rfl
      simpa using hloop
  | some shown =>
      cases hshown : element shown.competitionTable p with
      | ok shownRow =>
          simp only [hshown]
          rfl
      | error trap =>
          -- already the first turn of the loop traps
          obtain ⟨columns, hcolumns⟩ := Nat.exists_eq_succ_of_ne_zero
            (fun hzero => nonempty (List.eq_nil_of_length_eq_zero hzero))
          rw [hcolumns, List.range_succ_eq_map]
          simp only [List.foldlM_cons, hshown, bind, Except.bind]

/-- The open competition has the columns of this row, with as many of them won;
with no table open, none of them is won. -/
def AgreesInRow (row : List Match) (shown : Option CompetitionTable) (p : Nat) : Prop :=
  match shown with
  | none => row.countP Match.isWinned = 0
  | some shown => ∃ shownRow, shown.competitionTable[p]? = some shownRow ∧
      row.length ≤ shownRow.matchesOfPlayer.length ∧
      (shownRow.matchesOfPlayer.take row.length).countP Match.isWinned =
        row.countP Match.isWinned

theorem calculatePointsOfPlayer_iff_of_row {p : Nat} {row : MatchesOfPlayer}
    (hrow : table.competitionTable[p]? = some row) (nonempty : row.matchesOfPlayer ≠ [])
    (shown : Option CompetitionTable) :
    table.calculatePointsOfPlayer shown p =
        .ok (row.matchesOfPlayer.countP Match.isWinned : Int) ↔
      AgreesInRow row.matchesOfPlayer shown p := by
  rw [calculatePointsOfPlayer_of_row hrow nonempty]
  cases shown with
  | none =>
      constructor
      · intro hpoints
        have hzero := Except.ok.inj hpoints
        exact Int.ofNat.inj hzero.symm
      · intro hzero
        exact congrArg (fun won : Nat => Except.ok (won : Int)) hzero.symm
  | some shown =>
      cases hshown : shown.competitionTable[p]? with
      | none => simp [AgreesInRow, hshown, element_of_getElem?_none hshown, bind, Except.bind]
      | some shownRow =>
          have hloop := foldlM_addPoint shownRow.matchesOfPlayer row.matchesOfPlayer.length
          simp only [AgreesInRow, hshown, element_of_getElem? hshown, bind, Except.bind, hloop]
          by_cases hlength : row.matchesOfPlayer.length ≤ shownRow.matchesOfPlayer.length
          · rw [if_pos hlength, Except.ok.injEq, Int.natCast_inj]
            constructor
            · intro hwon
              exact ⟨shownRow, rfl, hlength, hwon⟩
            · rintro ⟨_, ⟨⟩, _, hwon⟩
              exact hwon
          · simp [hlength]

/-! ## Two players and another competition -/

def ivan : User := { firstName := "Ivan", lastName := "Petrov", nick := "ivan" }

def oleg : User := { firstName := "Oleg", lastName := "Sidorov", nick := "oleg" }

/-- The match of the two players, won by the first. -/
def wonByIvan : Match := (Match.init ivan oleg ⟨0, 1⟩).makeMatch 3 1

def playedTable : CompetitionTable where
  competitionTable := [
    ⟨[Match.init ivan ivan ⟨0, 0⟩, wonByIvan]⟩,
    ⟨[wonByIvan.makeMirrorMatch, Match.init oleg oleg ⟨1, 1⟩]⟩]
  qtyPlayers := 2
  qtyGames := 1
  qtyFinishedGames := 1
  isCompetitionFinished := true

/-- A competition of one player. -/
def otherCompetition : Competition where
  title := "Other"
  qtyPlayers := 1
  date := "2022-12-20 10:00:00 +0000"
  accessUsersIdArray := []
  players := [ivan]
  competitionTable := some {
    competitionTable := [⟨[Match.init ivan ivan ⟨0, 0⟩]⟩], qtyPlayers := 1 }

theorem built_playedTable : Built [ivan, oleg] playedTable :=
  ⟨_, [wonByIvan], rfl, rfl⟩

/--
For every table built for some players and changed by finished matches, every player
of it and every competition that is open: the points are the won cells in the row
of the player if and only if the open competition agrees in this row.
-/
theorem calculatePointsOfPlayer_iff (built : Built players table) {p : Nat}
    (hp : p < table.competitionTable.length) (competition : Option Competition) :
    table.calculatePointsOfPlayer (competition.bind Competition.competitionTable) p =
        .ok (table.competitionTable[p].matchesOfPlayer.countP Match.isWinned : Int) ↔
      AgreesInRow table.competitionTable[p].matchesOfPlayer
        (competition.bind Competition.competitionTable) p := by
  have square := built.square
  have hrows : table.competitionTable.length = players.length := by
    simpa [cells] using square.rows_length
  have hrow : table.competitionTable[p].matchesOfPlayer.length = players.length :=
    square.row_length _ (List.mem_map_of_mem (List.getElem_mem hp))
  refine calculatePointsOfPlayer_iff_of_row (List.getElem?_eq_getElem hp) ?_ _
  exact List.ne_nil_of_length_pos (by omega)

/-- The winner has a point while the played competition is open itself. -/
theorem calculatePointsOfPlayer_iff_own_competition :
    playedTable.calculatePointsOfPlayer (some playedTable) (0 : Nat) = .ok 1 ∧
    (playedTable.calculatePointsOfPlayer
        ((some { otherCompetition with competitionTable := some playedTable } :
          Option Competition).bind Competition.competitionTable) (0 : Nat) = .ok 1 ↔
      AgreesInRow [Match.init ivan ivan ⟨0, 0⟩, wonByIvan] (some playedTable) 0) :=
  ⟨rfl, calculatePointsOfPlayer_iff built_playedTable (by decide) _⟩

/-- The winner of the only match has no points while nothing is open, and the program
stops while a smaller competition is open. -/
theorem points_depend_on_open_competition :
    Built [ivan, oleg] playedTable ∧
    playedTable.competitionTable.map (fun row => row.matchesOfPlayer.countP Match.isWinned) =
      [1, 0] ∧
    playedTable.calculatePointsOfPlayer none (0 : Nat) = .ok 0 ∧
    playedTable.calculatePointsOfPlayer otherCompetition.competitionTable (0 : Nat) =
      .error .indexOutOfRange ∧
    ¬ ∀ competition : Option Competition,
      playedTable.calculatePointsOfPlayer (competition.bind Competition.competitionTable)
        (0 : Nat) = .ok 1 := by
  refine ⟨built_playedTable, rfl, rfl, rfl, ?_⟩
  intro independent
  have hpoints : (Except.ok 0 : Except Trap Int) = .ok 1 := independent none
  cases hpoints

end AnyCompetition.CompetitionTable
