import AnyCompetition.Models.PointsOfPlayer
import AnyCompetition.Models.WellFormed

/-!
# Tables with matches of other competitions

A match is stored where its own index says, in whatever table is open then.  The players
in a cell may be of another competition; the size, the indices, the mirror images and
the open diagonal of a table are kept, and so is the rest of its competition.
-/

namespace AnyCompetition

open SquareTable Trap

/-- A match that belongs in cell `i`, `j` of some table. -/
structure Match.At (i j : Nat) (played : Match) : Prop where
  matchIndex : played.matchIndex = ⟨i, j⟩
  flag : played.FlagAgrees

namespace Match

variable {i j : Nat} {played : Match}

theorem OfCell.at {players : List User} (ofCell : played.OfCell players i j) :
    played.At i j :=
  ⟨ofCell.matchIndex, ofCell.flag⟩

theorem At.makeMatch (isAt : played.At i j) (a b : Int) : (played.makeMatch a b).At i j where
  matchIndex := by rw [makeMatch_matchIndex, isAt.matchIndex]
  flag := makeMatch_flagAgrees isAt.flag a b

theorem At.makeMirrorMatch (isAt : played.At i j) : played.makeMirrorMatch.At j i where
  matchIndex := by simp [Match.makeMirrorMatch, Match.init, isAt.matchIndex]
  flag := makeMirrorMatch_flagAgrees played

theorem At.withoutDocId (isAt : played.At i j) : played.withoutDocId.At i j :=
  ⟨isAt.matchIndex, isAt.flag⟩

end Match

namespace CompetitionTable

/-- All of a well-formed table but its players. -/
structure Mirrored (n : Nat) (table : CompetitionTable) : Prop where
  square : Square n table.cells
  qtyPlayers : table.qtyPlayers = n
  qtyGames : table.qtyGames = ((n * n - n) / 2 : Nat)
  cell : ∀ i j played, table.match? i j = some played → played.At i j
  diagonal : ∀ i played, table.match? i i = some played → played.isDone = false
  mirror : ∀ i j played, table.match? i j = some played →
    table.match? j i = some played.makeMirrorMatch

variable {n : Nat} {table next : CompetitionTable}

theorem WellFormed.mirrored {players : List User} (wellFormed : table.WellFormed players) :
    table.Mirrored players.length :=
  { wellFormed with cell := fun i j played found => (wellFormed.ofCell i j played found).at }

namespace Mirrored

/-- The cells after a match of an off-diagonal cell is stored with its mirror image. -/
theorem match?_storeMatch_cases (mirrored : table.Mirrored n) {i j : Nat} (played : Match)
    (hi : i < n) (hj : j < n) (hne : i ≠ j) (k l : Nat) :
    (k = i ∧ l = j ∧ (table.storeMatch i j played).match? k l = some played ∧
        (table.storeMatch i j played).match? l k = some played.makeMirrorMatch) ∨
      (k = j ∧ l = i ∧ (table.storeMatch i j played).match? k l = some played.makeMirrorMatch ∧
        (table.storeMatch i j played).match? l k = some played) ∨
      ((table.storeMatch i j played).match? k l = table.match? k l ∧
        (table.storeMatch i j played).match? l k = table.match? l k) := by
  have hcell := match?_storeMatch mirrored.square played hi hj
  rw [hcell, hcell]
  by_cases hsame : k = i ∧ l = j
  · left
    refine ⟨hsame.1, hsame.2, ?_, ?_⟩
    · rw [if_neg (by omega), if_pos hsame]
    · rw [if_pos ⟨hsame.2, hsame.1⟩]
  · right
    by_cases hmirrored : k = j ∧ l = i
    · left
      refine ⟨hmirrored.1, hmirrored.2, ?_, ?_⟩
      · rw [if_pos hmirrored]
      · rw [if_neg (by omega), if_pos ⟨hmirrored.2, hmirrored.1⟩]
    · right
      constructor
      · rw [if_neg hmirrored, if_neg hsame]
      · rw [if_neg (by omega), if_neg (by omega)]

theorem storeMatch (mirrored : table.Mirrored n) {i j : Nat} {played : Match}
    (isAt : played.At i j) (hi : i < n) (hj : j < n) (hne : i ≠ j) :
    (table.storeMatch i j played).Mirrored n where
  square := square_storeMatch mirrored.square i j played
  qtyPlayers := mirrored.qtyPlayers
  qtyGames := mirrored.qtyGames
  cell k l found hfound := by
    rcases mirrored.match?_storeMatch_cases played hi hj hne k l with
      ⟨rfl, rfl, hcell, _⟩ | ⟨rfl, rfl, hcell, _⟩ | ⟨hcell, _⟩
    · rw [hcell] at hfound
      cases hfound
      exact isAt
    · rw [hcell] at hfound
      cases hfound
      exact isAt.makeMirrorMatch
    · exact mirrored.cell k l found (hcell ▸ hfound)
  diagonal k found hfound := by
    rcases mirrored.match?_storeMatch_cases played hi hj hne k k with
      ⟨rfl, rfl, _⟩ | ⟨rfl, rfl, _⟩ | ⟨hcell, _⟩
    · exact absurd rfl hne
    · exact absurd rfl hne
    · exact mirrored.diagonal k found (hcell ▸ hfound)
  mirror k l found hfound := by
    rcases mirrored.match?_storeMatch_cases played hi hj hne k l with
      ⟨rfl, rfl, hcell, hother⟩ | ⟨rfl, rfl, hcell, hother⟩ | ⟨hcell, hother⟩
    · rw [hcell] at hfound
      cases hfound
      exact hother
    · rw [hcell] at hfound
      cases hfound
      rw [hother, Match.makeMirrorMatch_makeMirrorMatch isAt.flag]
    · rw [hother]
      exact mirrored.mirror k l found (hcell ▸ hfound)

/-- A match that is finished without a trap is stored in a cell of the table. -/
theorem finishMatch (mirrored : table.Mirrored n) {i j : Nat} {played : Match}
    (isAt : played.At i j) (hne : i ≠ j) (finished : table.finishMatch played = .ok next) :
    next.Mirrored n := by
  obtain ⟨rows, hfirst, _⟩ := bind_eq_ok_iff.mp finished
  obtain ⟨k, l, hindex, hcell⟩ := exists_cell_of_setMatch hfirst
  obtain ⟨hk, hl⟩ := (mirrored.square.isSome_cell?_iff k l).mp hcell
  rw [isAt.matchIndex] at hindex
  simp only [MatchIndex.mk.injEq, Int.natCast_inj] at hindex
  obtain ⟨rfl, rfl⟩ := hindex
  rw [finishMatch_eq mirrored.square isAt.matchIndex hk hl] at finished
  cases finished
  exact mirrored.storeMatch isAt hk hl hne

theorem withoutDocId (mirrored : table.Mirrored n) : table.withoutDocId.Mirrored n where
  square := by
    have hcells : table.withoutDocId.cells =
        table.cells.map (List.map Match.withoutDocId) := by
      simp [cells, CompetitionTable.withoutDocId, Function.comp_def]
    rw [hcells]
    exact mirrored.square.map _
  qtyPlayers := mirrored.qtyPlayers
  qtyGames := mirrored.qtyGames
  cell i j played found := by
    rw [match?_withoutDocId] at found
    obtain ⟨source, hsource, rfl⟩ := Option.map_eq_some_iff.mp found
    exact (mirrored.cell i j source hsource).withoutDocId
  diagonal i played found := by
    rw [match?_withoutDocId] at found
    obtain ⟨source, hsource, rfl⟩ := Option.map_eq_some_iff.mp found
    exact mirrored.diagonal i source hsource
  mirror i j played found := by
    rw [match?_withoutDocId] at found ⊢
    obtain ⟨source, hsource, rfl⟩ := Option.map_eq_some_iff.mp found
    rw [mirrored.mirror i j source hsource, Option.map_some, Match.makeMirrorMatch_withoutDocId]

end Mirrored

end CompetitionTable

namespace Competition

/-- A version of a created competition, maybe with matches of other competitions. -/
structure Keeps (created competition : Competition) : Prop where
  title : competition.title = created.title
  date : competition.date = created.date
  qtyPlayers : competition.qtyPlayers = created.qtyPlayers
  accessUsersIdArray : competition.accessUsersIdArray = created.accessUsersIdArray
  players : competition.players.map User.withoutDocId =
    created.players.map User.withoutDocId
  table : ∃ table, competition.competitionTable = some table ∧
    table.Mirrored created.players.length

variable {created competition : Competition}

theorem WellFormed.keeps (wellFormed : created.WellFormed competition) :
    created.Keeps competition := by
  obtain ⟨table, htable, hwellFormed⟩ := wellFormed.table
  exact { wellFormed with table := ⟨table, htable, hwellFormed.mirrored⟩ }

/-- What is read back from a document keeps what was written. -/
theorem Keeps.readBack (keeps : created.Keeps competition) (documentID : String) :
    created.Keeps { competition.withoutDocId with id := some documentID } := by
  obtain ⟨table, htable, mirrored⟩ := keeps.table
  refine { keeps with players := ?_, table := ⟨table.withoutDocId, ?_, mirrored.withoutDocId⟩ }
  · simpa [withoutDocId, Function.comp_def] using keeps.players
  · simp [withoutDocId, htable]

end Competition

end AnyCompetition
