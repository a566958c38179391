import AnyCompetition.Models.Competition

/-!
# Well-formed tables

The invariant of a table created for a list of players: its shape, the players
and index of every cell, an unplayed diagonal, and the mirror symmetry of its
cells.  Users are compared up to their document ids, which a stored document
does not carry.
-/

namespace AnyCompetition

open Json SquareTable

/-- A match that belongs in cell `i`, `j` of the table of these players. -/
structure Match.OfCell (players : List User) (i j : Nat) (played : Match) : Prop where
  matchIndex : played.matchIndex = ⟨i, j⟩
  player1 : (players[i]?).map User.withoutDocId = some played.player1.withoutDocId
  player2 : (players[j]?).map User.withoutDocId = some played.player2.withoutDocId
  flag : played.FlagAgrees

namespace Match.OfCell

variable {players : List User} {i j : Nat} {played : Match}

/-- Entering scores keeps a match in its cell. -/
theorem makeMatch (ofCell : played.OfCell players i j) (a b : Int) :
    (played.makeMatch a b).OfCell players i j where
  matchIndex := by rw [makeMatch_matchIndex, ofCell.matchIndex]
  player1 := by rw [makeMatch_player1, ofCell.player1]
  player2 := by rw [makeMatch_player2, ofCell.player2]
  flag := makeMatch_flagAgrees ofCell.flag a b

/-- The mirror image of a match belongs in the mirrored cell. -/
theorem makeMirrorMatch (ofCell : played.OfCell players i j) :
    played.makeMirrorMatch.OfCell players j i where
  matchIndex := by simp [Match.makeMirrorMatch, Match.init, ofCell.matchIndex]
  player1 := ofCell.player2
  player2 := ofCell.player1
  flag := makeMirrorMatch_flagAgrees played

theorem withoutDocId (ofCell : played.OfCell players i j) :
    played.withoutDocId.OfCell players i j where
  matchIndex := ofCell.matchIndex
  player1 := by rw [ofCell.player1, Match.withoutDocId, User.withoutDocId_withoutDocId]
  player2 := by rw [ofCell.player2, Match.withoutDocId, User.withoutDocId_withoutDocId]
  flag := ofCell.flag

end Match.OfCell

namespace CompetitionTable

structure WellFormed (players : List User) (table : CompetitionTable) : Prop where
  square : Square players.length table.cells
  qtyPlayers : table.qtyPlayers = players.length
  qtyGames : table.qtyGames =
    ((players.length * players.length - players.length) / 2 : Nat)
  ofCell : ∀ i j played, table.match? i j = some played → played.OfCell players i j
  diagonal : ∀ i played, table.match? i i = some played → played.isDone = false
  mirror : ∀ i j played, table.match? i j = some played →
    table.match? j i = some played.makeMirrorMatch

variable {players : List User} {table : CompetitionTable}

@[simp]
theorem match?_withoutDocId (table : CompetitionTable) (i j : Nat) :
    table.withoutDocId.match? i j = (table.match? i j).map Match.withoutDocId := by
  have hcells : table.withoutDocId.cells =
      table.cells.map (List.map Match.withoutDocId) := by
    simp [cells, withoutDocId, Function.comp_def]
  rw [match?, hcells, cell?_map]
  rfl

@[simp]
theorem isDone_withoutDocId (table : CompetitionTable) (i j : Nat) :
    table.withoutDocId.isDone i j ↔ table.isDone i j := by
  simp [isDone, Option.any_map, Match.withoutDocId]

/-- A new table is well formed. -/
theorem wellFormed_init (created : init players = .ok table) :
    table.WellFormed players := by
  have hcell := match?_init created
  refine ⟨square_init created, ?_, ?_, ?_, ?_, ?_⟩
  · rw [init_eq (ne_nil_of_init created)] at created
    cases created
    rfl
  · rw [init_eq (ne_nil_of_init created)] at created
    cases created
    have hle : players.length ≤ players.length * players.length :=
      Nat.le_mul_self players.length
    dsimp only
    omega
  · intro i j played found
    rw [hcell] at found
    obtain ⟨player, hplayer, hmap⟩ := Option.bind_eq_some_iff.mp found
    obtain ⟨opponent, hopponent, rfl⟩ := Option.map_eq_some_iff.mp hmap
    exact ⟨rfl, by rw [hplayer]; rfl, by rw [hopponent]; rfl, rfl⟩
  · intro i played found
    rw [hcell] at found
    obtain ⟨player, _, hmap⟩ := Option.bind_eq_some_iff.mp found
    obtain ⟨opponent, _, rfl⟩ := Option.map_eq_some_iff.mp hmap
    rfl
  · intro i j played found
    rw [hcell] at found ⊢
    obtain ⟨player, hplayer, hmap⟩ := Option.bind_eq_some_iff.mp found
    obtain ⟨opponent, hopponent, rfl⟩ := Option.map_eq_some_iff.mp hmap
    rw [hplayer, hopponent]
    rfl

namespace WellFormed

theorem exists_match (wellFormed : table.WellFormed players) {i j : Nat}
    (hi : i < players.length) (hj : j < players.length) :
    ∃ played, table.match? i j = some played :=
  wellFormed.square.exists_cell hi hj

theorem lt_of_match (wellFormed : table.WellFormed players) {i j : Nat} {played : Match}
    (found : table.match? i j = some played) : i < players.length ∧ j < players.length :=
  wellFormed.square.lt_of_cell found

/-- The two cells of a pair are done together. -/
theorem isDone_comm (wellFormed : table.WellFormed players) (i j : Nat) :
    table.isDone i j → table.isDone j i := by
  intro done
  cases found : table.match? i j with
  | none => simp [isDone, found] at done
  | some played =>
      simpa [isDone, found, wellFormed.mirror i j played found] using done

/-- Storing a match of an off-diagonal cell keeps the table well formed. -/
theorem storeMatch (wellFormed : table.WellFormed players) {i j : Nat} {played : Match}
    (ofCell : played.OfCell players i j) (hi : i < players.length)
    (hj : j < players.length) (hne : i ≠ j) :
    (table.storeMatch i j played).WellFormed players := by
  have hcell := match?_storeMatch wellFormed.square played hi hj
  refine ⟨square_storeMatch wellFormed.square i j played, wellFormed.qtyPlayers,
    wellFormed.qtyGames, ?_, ?_, ?_⟩
  · intro k l found hfound
    rw [hcell] at hfound
    split at hfound
    · rename_i haddress
      obtain ⟨rfl, rfl⟩ := haddress
      cases hfound
      exact ofCell.makeMirrorMatch
    · split at hfound
      · rename_i haddress
        obtain ⟨rfl, rfl⟩ := haddress
        cases hfound
        exact ofCell
      · exact wellFormed.ofCell k l found hfound
  · intro k found hfound
    rw [hcell, if_neg (by omega), if_neg (by omega)] at hfound
    exact wellFormed.diagonal k found hfound
  · intro k l found hfound
    rw [hcell] at hfound ⊢
    by_cases hmirrored : k = j ∧ l = i
    · obtain ⟨rfl, rfl⟩ := hmirrored
      rw [if_pos ⟨rfl, rfl⟩] at hfound
      cases hfound
      rw [if_neg (by omega), if_pos ⟨rfl, rfl⟩,
        Match.makeMirrorMatch_makeMirrorMatch ofCell.flag]
    · rw [if_neg hmirrored] at hfound
      by_cases hsame : k = i ∧ l = j
      · obtain ⟨rfl, rfl⟩ := hsame
        rw [if_pos ⟨rfl, rfl⟩] at hfound
        cases hfound
        rw [if_pos ⟨rfl, rfl⟩]
      · rw [if_neg hsame] at hfound
        rw [if_neg (by omega), if_neg (by omega)]
        exact wellFormed.mirror k l found hfound

/-- Forgetting document ids keeps the table well formed. -/
theorem withoutDocId (wellFormed : table.WellFormed players) :
    table.withoutDocId.WellFormed players := by
  refine ⟨?_, wellFormed.qtyPlayers, wellFormed.qtyGames, ?_, ?_, ?_⟩
  · have hcells : table.withoutDocId.cells =
        table.cells.map (List.map Match.withoutDocId) := by
      simp [cells, CompetitionTable.withoutDocId, Function.comp_def]
    rw [hcells]
    exact wellFormed.square.map _
  · intro i j played found
    rw [match?_withoutDocId] at found
    obtain ⟨source, hsource, rfl⟩ := Option.map_eq_some_iff.mp found
    exact (wellFormed.ofCell i j source hsource).withoutDocId
  · intro i played found
    rw [match?_withoutDocId] at found
    obtain ⟨source, hsource, rfl⟩ := Option.map_eq_some_iff.mp found
    exact wellFormed.diagonal i source hsource
  · intro i j played found
    rw [match?_withoutDocId] at found ⊢
    obtain ⟨source, hsource, rfl⟩ := Option.map_eq_some_iff.mp found
    rw [wellFormed.mirror i j source hsource, Option.map_some,
      Match.makeMirrorMatch_withoutDocId]

/-- Finishing a match of an off-diagonal cell stores it and does not trap. -/
theorem finishMatch (wellFormed : table.WellFormed players) {i j : Nat} {played : Match}
    (ofCell : played.OfCell players i j) (hi : i < players.length)
    (hj : j < players.length) :
    table.finishMatch played = .ok (table.storeMatch i j played) :=
  finishMatch_eq wellFormed.square ofCell.matchIndex hi hj

end WellFormed

end CompetitionTable

namespace Competition

/-- A version of a created competition, in its document or on a device. -/
structure WellFormed (created competition : Competition) : Prop where
  title : competition.title = created.title
  date : competition.date = created.date
  qtyPlayers : competition.qtyPlayers = created.qtyPlayers
  accessUsersIdArray : competition.accessUsersIdArray = created.accessUsersIdArray
  players : competition.players.map User.withoutDocId =
    created.players.map User.withoutDocId
  table : ∃ table, competition.competitionTable = some table ∧
    table.WellFormed created.players

/-- A created competition is well formed, and its table is the new one of its players. -/
theorem wellFormed_init {title date : String} {qtyPlayers : Int} {players : List User}
    {accessUserIdArray : List String} {created : Competition}
    (hinit : init title qtyPlayers date players accessUserIdArray = .ok created) :
    created.WellFormed created ∧ ∃ table, CompetitionTable.init created.players = .ok table ∧
      created.competitionTable = some table := by
  unfold init at hinit
  cases htable : CompetitionTable.init players with
  | error trap =>
      rw [htable] at hinit
      cases hinit
  | ok table =>
      rw [htable] at hinit
      cases hinit
      exact ⟨⟨rfl, rfl, rfl, rfl, rfl, table, rfl,
        CompetitionTable.wellFormed_init htable⟩, table, htable, rfl⟩

/-- What is read back from a document is well formed when what was written is. -/
theorem WellFormed.readBack {created competition : Competition}
    (wellFormed : created.WellFormed competition) (documentID : String) :
    created.WellFormed { competition.withoutDocId with id := some documentID } := by
  obtain ⟨table, htable, hwellFormed⟩ := wellFormed.table
  refine ⟨wellFormed.title, wellFormed.date, wellFormed.qtyPlayers,
    wellFormed.accessUsersIdArray, ?_, table.withoutDocId, ?_, hwellFormed.withoutDocId⟩
  · simpa [withoutDocId, Function.comp_def] using wellFormed.players
  · simp [withoutDocId, htable]

end Competition

end AnyCompetition
