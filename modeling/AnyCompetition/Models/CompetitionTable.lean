import AnyCompetition.Library.SquareTable
import AnyCompetition.Library.Trap
import AnyCompetition.Models.Match

/-!
# The tournament table

The table is built by two nested loops over the players and changed by
`finishMatch`, which writes a match and its mirror image into their cells and
counts one more finished game.  Array accesses trap outside the bounds.
-/

namespace AnyCompetition

open Json SquareTable Trap

structure MatchesOfPlayer where
  matchesOfPlayer : List Match

def MatchesOfPlayer.dictionary (row : MatchesOfPlayer) : Fields :=
  [("matchesOfPlayer", .array (row.matchesOfPlayer.map fun played =>
    .object played.dictionary))]

structure CompetitionTable where
  competitionTable : List MatchesOfPlayer := []
  qtyPlayers : Int := 0
  qtyGames : Int := 0
  qtyFinishedGames : Int := 0
  isCompetitionFinished : Bool := false

namespace CompetitionTable

def dictionary (table : CompetitionTable) : Fields :=
  [("competitionTable", .array (table.competitionTable.map fun row =>
      .object row.dictionary)),
   ("qtyPlayers", .number table.qtyPlayers),
   ("qtyGames", .number table.qtyGames),
   ("qtyFinishedGames", .number table.qtyFinishedGames),
   ("isCompetitionFinished", .bool table.isCompetitionFinished)]

/-- The row of one player: the inner loop over all players. -/
def createMatchArray (playersArray : List User) (player : User) (i : Nat) : List Match :=
  playersArray.zipIdx.foldl
    (fun matchArray opponent =>
      matchArray ++ [Match.init player opponent.1 ⟨i, opponent.2⟩]) []

/-- With no players the range `0...playersArray.count - 1` traps. -/
def createCompetitionTable (playersArray : List User) :
    Except Trap (List MatchesOfPlayer) :=
  if playersArray.isEmpty then .error .invalidRange
  else .ok (playersArray.zipIdx.foldl
    (fun competitionTable player =>
      competitionTable ++ [⟨createMatchArray playersArray player.1 player.2⟩]) [])

def init (playersArray : List User) : Except Trap CompetitionTable := do
  let competitionTable ← createCompetitionTable playersArray
  let qtyPlayers : Int := playersArray.length
  return {
    competitionTable
    qtyPlayers
    qtyGames := (qtyPlayers * qtyPlayers - qtyPlayers) / 2 }

/-- `competitionTable[index.indexOfPlayer].matchesOfPlayer[index.indexOfMatch] = played`. -/
def setMatch (competitionTable : List MatchesOfPlayer) (index : MatchIndex)
    (played : Match) : Except Trap (List MatchesOfPlayer) := do
  let row ← element competitionTable index.indexOfPlayer
  let matchesOfPlayer ← replaceElement row.matchesOfPlayer index.indexOfMatch played
  replaceElement competitionTable index.indexOfPlayer { row with matchesOfPlayer }

def checkFinish (table : CompetitionTable) (qtyFinishedGames : Int) : CompetitionTable :=
  if qtyFinishedGames = table.qtyGames then
    { table with isCompetitionFinished := true }
  else table

/-- The counter is raised whether or not the match was done before. -/
def finishMatch (table : CompetitionTable) (played : Match) :
    Except Trap CompetitionTable := do
  let matchMirror := played.makeMirrorMatch
  let competitionTable ← setMatch table.competitionTable played.matchIndex played
  let competitionTable ← setMatch competitionTable matchMirror.matchIndex matchMirror
  let qtyFinishedGames := table.qtyFinishedGames + 1
  return checkFinish { table with competitionTable, qtyFinishedGames } qtyFinishedGames

/--
The points of a player.  The number of columns is taken from this table, the
matches from `shown`, the table of `CompetitionViewController.competition`.
-/
def calculatePointsOfPlayer (table : CompetitionTable)
    (shown : Option CompetitionTable) (playerNumber : Int) : Except Trap Int := do
  let row ← element table.competitionTable playerNumber
  if row.matchesOfPlayer.isEmpty then throw .invalidRange
  (List.range row.matchesOfPlayer.length).foldlM
    (fun (points : Int) (i : Nat) =>
      match shown with
      | none => return points
      | some shown => do
          let shownRow ← element shown.competitionTable playerNumber
          let played ← element shownRow.matchesOfPlayer (i : Int)
          return if played.isWinned then points + 1 else points) 0

/-- The cells of the table, as a list of rows. -/
def cells (table : CompetitionTable) : List (List Match) :=
  table.competitionTable.map MatchesOfPlayer.matchesOfPlayer

/-- The cell in the row of player `i` against player `j`. -/
def match? (table : CompetitionTable) (i j : Nat) : Option Match :=
  cell? table.cells i j

/-- The pair `i`, `j` is finished: its cell in row `i` is done. -/
def isDone (table : CompetitionTable) (i j : Nat) : Prop :=
  (table.match? i j).any Match.isDone = true

instance (table : CompetitionTable) : DecidableRel table.isDone := fun i j =>
  inferInstanceAs (Decidable ((table.match? i j).any Match.isDone = true))

theorem isDone_of_match {table : CompetitionTable} {i j : Nat} {played : Match}
    (found : table.match? i j = some played) (done : played.isDone = true) :
    table.isDone i j := by
  rw [isDone, found, Option.any_some, done]

/-- The table with no document id in the players of its matches. -/
def withoutDocId (table : CompetitionTable) : CompetitionTable :=
  { table with
    competitionTable := table.competitionTable.map fun row =>
      ⟨row.matchesOfPlayer.map Match.withoutDocId⟩ }

/-! ## Construction -/

theorem createMatchArray_eq (playersArray : List User) (player : User) (i : Nat) :
    createMatchArray playersArray player i =
      playersArray.zipIdx.map fun opponent =>
        Match.init player opponent.1 ⟨i, opponent.2⟩ :=
  foldl_append_singleton _ _

theorem createCompetitionTable_eq {playersArray : List User}
    (nonempty : playersArray ≠ []) :
    createCompetitionTable playersArray =
      .ok (playersArray.zipIdx.map fun player =>
        ⟨createMatchArray playersArray player.1 player.2⟩) := by
  have hempty : playersArray.isEmpty = false := by simpa using nonempty
  rw [createCompetitionTable, foldl_append_singleton]
  simp [hempty]

/-- The table that the two loops and the initializer build. -/
theorem init_eq {playersArray : List User} (nonempty : playersArray ≠ []) :
    init playersArray = .ok {
      competitionTable := playersArray.zipIdx.map fun player =>
        ⟨createMatchArray playersArray player.1 player.2⟩
      qtyPlayers := playersArray.length
      qtyGames := ((playersArray.length : Int) * playersArray.length -
        playersArray.length) / 2 } := by
  rw [init, createCompetitionTable_eq nonempty]
  rfl

/-- There is no table without players. -/
theorem ne_nil_of_init {playersArray : List User} {table : CompetitionTable}
    (created : init playersArray = .ok table) : playersArray ≠ [] := by
  rintro rfl
  cases created

theorem cells_init {playersArray : List User} {table : CompetitionTable}
    (created : init playersArray = .ok table) :
    table.cells = playersArray.zipIdx.map fun player =>
      playersArray.zipIdx.map fun opponent =>
        Match.init player.1 opponent.1 ⟨player.2, opponent.2⟩ := by
  rw [init_eq (ne_nil_of_init created)] at created
  cases created
  simp [cells, createMatchArray_eq]

theorem square_init {playersArray : List User} {table : CompetitionTable}
    (created : init playersArray = .ok table) :
    Square playersArray.length table.cells := by
  rw [cells_init created]
  refine ⟨by simp, ?_⟩
  intro row membership
  obtain ⟨player, _, rfl⟩ := List.mem_map.mp membership
  simp

/-- Cell `i`, `j` of a new table is the unplayed match of players `i` and `j`. -/
theorem match?_init {playersArray : List User} {table : CompetitionTable}
    (created : init playersArray = .ok table) (i j : Nat) :
    table.match? i j =
      (playersArray[i]?).bind fun player =>
        (playersArray[j]?).map fun opponent => Match.init player opponent ⟨i, j⟩ := by
  rw [match?, cells_init created, cell?]
  simp only [List.getElem?_map, List.getElem?_zipIdx, Option.map_map, Nat.zero_add]
  cases playersArray[i]? with
  | none => rfl
  | some player => cases hopponent : playersArray[j]? <;> simp [hopponent]

/-- No pair of a new table is finished. -/
theorem not_isDone_init {playersArray : List User} {table : CompetitionTable}
    (created : init playersArray = .ok table) (i j : Nat) : ¬ table.isDone i j := by
  rw [isDone, match?_init created]
  cases playersArray[i]? with
  | none => simp
  | some player => cases playersArray[j]? <;> simp [Match.init]

theorem not_started_init {playersArray : List User} {table : CompetitionTable}
    (created : init playersArray = .ok table) :
    table.qtyFinishedGames = 0 ∧ table.isCompetitionFinished = false := by
  rw [init_eq (ne_nil_of_init created)] at created
  cases created
  exact ⟨rfl, rfl⟩

/-! ## Finishing a match -/

/-- A table is its cells and its counters. -/
theorem ext_cells {first second : CompetitionTable} (cells_eq : first.cells = second.cells)
    (players_eq : first.qtyPlayers = second.qtyPlayers)
    (games_eq : first.qtyGames = second.qtyGames)
    (finished_eq : first.qtyFinishedGames = second.qtyFinishedGames)
    (flag_eq : first.isCompetitionFinished = second.isCompetitionFinished) :
    first = second := by
  obtain ⟨rows, players, games, finished, flag⟩ := first
  obtain ⟨rows', players', games', finished', flag'⟩ := second
  have hrows : rows = rows' := by
    apply List.map_injective_iff.mpr _ cells_eq
    rintro ⟨row⟩ ⟨row'⟩ hrow
    exact congrArg MatchesOfPlayer.mk hrow
  simp only at players_eq games_eq finished_eq flag_eq
  rw [hrows, players_eq, games_eq, finished_eq, flag_eq]

/-- A write inside the table replaces one cell. -/
theorem setMatch_eq (rows : List MatchesOfPlayer) {i j : Nat} (played : Match)
    (inside : (cell? (rows.map MatchesOfPlayer.matchesOfPlayer) i j).isSome) :
    setMatch rows ⟨i, j⟩ played =
      .ok ((setCell (rows.map MatchesOfPlayer.matchesOfPlayer) i j played).map
        MatchesOfPlayer.mk) := by
  unfold cell? at inside
  rw [List.getElem?_map] at inside
  cases hrow : rows[i]? with
  | none => simp [hrow] at inside
  | some row =>
      have hcolumn : j < row.matchesOfPlayer.length := by simpa [hrow] using inside
      have hbound : i < rows.length := (List.getElem?_eq_some_iff.mp hrow).1
      have hget : rows[i] = row := (List.getElem?_eq_some_iff.mp hrow).2
      simp only [setMatch, element_of_getElem? hrow, replaceElement_of_lt _ hcolumn,
        replaceElement_of_lt _ hbound, bind, Except.bind, Except.ok.injEq]
      apply List.ext_getElem (by simp [setCell])
      intro k hk hk'
      by_cases hki : i = k
      · subst hki
        simp [setCell, hget]
      · simp [setCell, hki]

theorem map_matchesOfPlayer_mk (rows : List (List Match)) :
    (rows.map MatchesOfPlayer.mk).map MatchesOfPlayer.matchesOfPlayer = rows := by
  rw [List.map_map]
  exact List.map_id _

/-- The table after a match is stored in cell `i`, `j` and mirrored. -/
def storeMatch (table : CompetitionTable) (i j : Nat) (played : Match) :
    CompetitionTable :=
  { table with
    competitionTable :=
      (setCell (setCell table.cells i j played) j i played.makeMirrorMatch).map
        MatchesOfPlayer.mk
    qtyFinishedGames := table.qtyFinishedGames + 1
    isCompetitionFinished := table.isCompetitionFinished ||
      decide (table.qtyFinishedGames + 1 = table.qtyGames) }

/-- Finishing a match whose index is inside a square table does not trap. -/
theorem finishMatch_eq {n : Nat} {table : CompetitionTable} {played : Match} {i j : Nat}
    (square : Square n table.cells) (index_eq : played.matchIndex = ⟨i, j⟩)
    (hi : i < n) (hj : j < n) :
    table.finishMatch played = .ok (table.storeMatch i j played) := by
  have hmirror : played.makeMirrorMatch.matchIndex = ⟨j, i⟩ := by
    simp [Match.makeMirrorMatch, Match.init, index_eq]
  have hfirst : setMatch table.competitionTable ⟨i, j⟩ played =
      .ok ((setCell table.cells i j played).map MatchesOfPlayer.mk) :=
    setMatch_eq _ played ((square.isSome_cell?_iff i j).mpr ⟨hi, hj⟩)
  have hcells := map_matchesOfPlayer_mk (setCell table.cells i j played)
  have hsecond := setMatch_eq
    ((setCell table.cells i j played).map MatchesOfPlayer.mk)
    (i := j) (j := i) played.makeMirrorMatch
    (by rw [hcells]; exact ((square.setCell i j played).isSome_cell?_iff j i).mpr ⟨hj, hi⟩)
  rw [hcells] at hsecond
  rw [finishMatch, index_eq, hmirror, hfirst]
  change (setMatch _ _ _ >>= _) = _
  rw [hsecond]
  by_cases hfinished : table.qtyFinishedGames + 1 = table.qtyGames
  · simp [bind, Except.bind, pure, Except.pure, checkFinish, storeMatch, hfinished]
  · simp [bind, Except.bind, pure, Except.pure, checkFinish, storeMatch, hfinished]

@[simp]
theorem cells_storeMatch (table : CompetitionTable) (i j : Nat) (played : Match) :
    (table.storeMatch i j played).cells =
      setCell (setCell table.cells i j played) j i played.makeMirrorMatch :=
  map_matchesOfPlayer_mk _

theorem square_storeMatch {n : Nat} {table : CompetitionTable}
    (square : Square n table.cells) (i j : Nat) (played : Match) :
    Square n (table.storeMatch i j played).cells := by
  rw [cells_storeMatch]
  exact (square.setCell i j played).setCell j i _

/-- Storing a match changes its cell and the mirrored one, and no other. -/
theorem match?_storeMatch {n : Nat} {table : CompetitionTable}
    (square : Square n table.cells) {i j : Nat} (played : Match) (hi : i < n) (hj : j < n)
    (k l : Nat) :
    (table.storeMatch i j played).match? k l =
      if k = j ∧ l = i then some played.makeMirrorMatch
      else if k = i ∧ l = j then some played
      else table.match? k l := by
  have hfirst := (square.isSome_cell?_iff i j).mpr ⟨hi, hj⟩
  have hsecond := ((square.setCell i j played).isSome_cell?_iff j i).mpr ⟨hj, hi⟩
  rw [match?, cells_storeMatch, cell?_setCell _ hsecond, cell?_setCell _ hfirst]
  rfl

/-! ## Points of a player -/

/-- The won cells of row `p`. -/
def wonMatches (table : CompetitionTable) (n p : Nat) : List Nat :=
  (List.range n).filter fun i => (table.match? p i).any Match.isWinned

theorem foldl_count (won : Nat → Bool) (columns : List Nat) (start : Int) :
    columns.foldl (fun points i => if won i then points + 1 else points) start =
      start + (columns.filter won).length := by
  induction columns generalizing start with
  | nil => simp
  | cons i rest ih =>
      rw [List.foldl_cons, ih]
      cases hwon : won i
      · simp [hwon]
      · simp [hwon]
        omega

/-- Between tables of one size, the points of player `p` are the won cells of
row `p` of the table shown. -/
theorem calculatePointsOfPlayer_eq {n : Nat} {table shown : CompetitionTable} {p : Nat}
    (square : Square n table.cells) (square_shown : Square n shown.cells) (hp : p < n) :
    table.calculatePointsOfPlayer (some shown) p =
      .ok ((shown.wonMatches n p).length) := by
  have hrows : table.competitionTable.length = n := by
    simpa [cells] using square.rows_length
  have hshown : shown.competitionTable.length = n := by
    simpa [cells] using square_shown.rows_length
  have hrow : table.competitionTable[p].matchesOfPlayer.length = n :=
    square.row_length _ (List.mem_map_of_mem (List.getElem_mem (hrows ▸ hp)))
  have hshownRow : shown.competitionTable[p].matchesOfPlayer.length = n :=
    square_shown.row_length _ (List.mem_map_of_mem (List.getElem_mem (hshown ▸ hp)))
  have hempty : table.competitionTable[p].matchesOfPlayer.isEmpty = false := by
    rw [List.isEmpty_eq_false_iff]
    exact List.ne_nil_of_length_pos (by omega)
  have hget := element_of_getElem? (List.getElem?_eq_getElem (hrows.symm ▸ hp))
  have hgetShown := element_of_getElem? (List.getElem?_eq_getElem (hshown.symm ▸ hp))
  rw [calculatePointsOfPlayer, hget]
  simp only [bind, Except.bind, hempty, hrow, hgetShown, Bool.false_eq_true, if_false]
  rw [foldlM_ok (fun points i =>
    if (shown.match? p i).any Match.isWinned then points + 1 else points)]
  · rw [foldl_count, Int.zero_add, wonMatches]
  · intro points i membership
    have hi : i < shown.competitionTable[p].matchesOfPlayer.length := by
      rw [hshownRow]
      exact List.mem_range.mp membership
    have hcell : shown.match? p i = some shown.competitionTable[p].matchesOfPlayer[i] := by
      simp [match?, cell?, cells, hshown, hp, hi]
    rw [element_of_getElem? (List.getElem?_eq_getElem hi), hcell]
    simp [pure, Except.pure]

end CompetitionTable

end AnyCompetition
