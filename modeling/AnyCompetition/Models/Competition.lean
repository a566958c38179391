import AnyCompetition.Models.CompetitionTable
import AnyCompetition.Models.UserDocument

/-!
# Competitions and their documents

A competition is stored as one document.  The maps are written by hand, type by
type; the decoders are the synthesised ones and read every stored property.
-/

namespace AnyCompetition

open Json Trap

structure Competition where
  id : Option String := none
  title : String
  qtyPlayers : Int
  date : String
  accessUsersIdArray : List String
  players : List User
  competitionTable : Option CompetitionTable := none

namespace Competition

def init (title : String) (qtyPlayers : Int) (date : String) (players : List User)
    (accessUserIdArray : List String) : Except Trap Competition := do
  let competitionTable ← CompetitionTable.init players
  return {
    title, qtyPlayers, date, players
    accessUsersIdArray := accessUserIdArray
    competitionTable := some competitionTable }

theorem init_eq {players : List User} {table : CompetitionTable}
    (created : CompetitionTable.init players = .ok table) (title : String) (qtyPlayers : Int)
    (date : String) (accessUserIdArray : List String) :
    init title qtyPlayers date players accessUserIdArray = .ok {
      title, qtyPlayers, date, players
      accessUsersIdArray := accessUserIdArray
      competitionTable := some table } := by
  rw [init, created]
  rfl

/-- The map of a competition; its own id is not part of it. -/
def dictionary (competition : Competition) : Except Trap Fields := do
  let competitionTable ← unwrap competition.competitionTable
  return [
    ("title", .string competition.title),
    ("qtyPlayers", .number competition.qtyPlayers),
    ("date", .string competition.date),
    ("accessUsersIdArray", .array (competition.accessUsersIdArray.map .string)),
    ("players", .array (competition.players.map fun player => .object player.dictionary)),
    ("competitionTable", .object competitionTable.dictionary)]

/-- The competition with no document id in any user it holds. -/
def withoutDocId (competition : Competition) : Competition :=
  { competition with
    players := competition.players.map User.withoutDocId
    competitionTable := competition.competitionTable.map CompetitionTable.withoutDocId }

end Competition

/-! ## Synthesised decoders -/

def MatchIndex.decode (json : Json) : Option MatchIndex := do
  let fields ← json.fields?
  let indexOfPlayer ← required fields "indexOfPlayer" int?
  let indexOfMatch ← required fields "indexOfMatch" int?
  return { indexOfPlayer, indexOfMatch }

def Match.decode (json : Json) : Option Match := do
  let fields ← json.fields?
  let player1 ← required fields "player1" User.decode
  let player2 ← required fields "player2" User.decode
  let isDone ← required fields "isDone" bool?
  let isWinned ← required fields "isWinned" bool?
  let scorePlayer1 ← required fields "scorePlayer1" int?
  let scorePlayer2 ← required fields "scorePlayer2" int?
  let matchIndex ← required fields "matchIndex" MatchIndex.decode
  return { player1, player2, isDone, isWinned, scorePlayer1, scorePlayer2, matchIndex }

def MatchesOfPlayer.decode (json : Json) : Option MatchesOfPlayer := do
  let fields ← json.fields?
  let matchesOfPlayer ← required fields "matchesOfPlayer" (listOf Match.decode)
  return { matchesOfPlayer }

def CompetitionTable.decode (json : Json) : Option CompetitionTable := do
  let fields ← json.fields?
  let competitionTable ← required fields "competitionTable" (listOf MatchesOfPlayer.decode)
  let qtyPlayers ← required fields "qtyPlayers" int?
  let qtyGames ← required fields "qtyGames" int?
  let qtyFinishedGames ← required fields "qtyFinishedGames" int?
  let isCompetitionFinished ← required fields "isCompetitionFinished" bool?
  return { competitionTable, qtyPlayers, qtyGames, qtyFinishedGames, isCompetitionFinished }

def Competition.decode (json : Json) : Option Competition := do
  let fields ← json.fields?
  let id ← ifPresent fields "id" string?
  let title ← required fields "title" string?
  let qtyPlayers ← required fields "qtyPlayers" int?
  let date ← required fields "date" string?
  let accessUsersIdArray ← required fields "accessUsersIdArray" (listOf string?)
  let players ← required fields "players" (listOf User.decode)
  let competitionTable ← ifPresent fields "competitionTable" CompetitionTable.decode
  return { id, title, qtyPlayers, date, accessUsersIdArray, players, competitionTable }

/-! ## Reading back what was written -/

@[simp]
theorem MatchIndex.decode_dictionary (index : MatchIndex) :
    MatchIndex.decode (.object index.dictionary) = some index := rfl

@[simp]
theorem Match.decode_dictionary (played : Match) :
    Match.decode (.object played.dictionary) = some played.withoutDocId := by
  have hplayer1 : required played.dictionary "player1" User.decode =
      some played.player1.withoutDocId := User.decode_dictionary played.player1
  have hplayer2 : required played.dictionary "player2" User.decode =
      some played.player2.withoutDocId := User.decode_dictionary played.player2
  have hisDone : required played.dictionary "isDone" bool? = some played.isDone := rfl
  have hisWinned : required played.dictionary "isWinned" bool? = some played.isWinned := rfl
  have hscore1 : required played.dictionary "scorePlayer1" int? =
      some played.scorePlayer1 := rfl
  have hscore2 : required played.dictionary "scorePlayer2" int? =
      some played.scorePlayer2 := rfl
  have hindex : required played.dictionary "matchIndex" MatchIndex.decode =
      some played.matchIndex := MatchIndex.decode_dictionary played.matchIndex
  simp only [decode, fields?, hplayer1, hplayer2, hisDone, hisWinned, hscore1, hscore2,
    hindex, Option.bind_eq_bind, Option.bind_some, Option.pure_def]
  rfl

@[simp]
theorem MatchesOfPlayer.decode_dictionary (row : MatchesOfPlayer) :
    MatchesOfPlayer.decode (.object row.dictionary) =
      some ⟨row.matchesOfPlayer.map Match.withoutDocId⟩ := by
  have hrow : required row.dictionary "matchesOfPlayer" (listOf Match.decode) =
      some (row.matchesOfPlayer.map Match.withoutDocId) :=
    listOf_map fun played _ => played.decode_dictionary
  simp only [decode, fields?, hrow, Option.bind_eq_bind, Option.bind_some, Option.pure_def]

@[simp]
theorem CompetitionTable.decode_dictionary (table : CompetitionTable) :
    CompetitionTable.decode (.object table.dictionary) = some table.withoutDocId := by
  have hrows : required table.dictionary "competitionTable"
      (listOf MatchesOfPlayer.decode) = some table.withoutDocId.competitionTable :=
    listOf_map fun row _ => row.decode_dictionary
  have hplayers : required table.dictionary "qtyPlayers" int? =
      some table.qtyPlayers := rfl
  have hgames : required table.dictionary "qtyGames" int? = some table.qtyGames := rfl
  have hfinished : required table.dictionary "qtyFinishedGames" int? =
      some table.qtyFinishedGames := rfl
  have hflag : required table.dictionary "isCompetitionFinished" bool? =
      some table.isCompetitionFinished := rfl
  simp only [decode, fields?, hrows, hplayers, hgames, hfinished, hflag,
    Option.bind_eq_bind, Option.bind_some, Option.pure_def]
  rfl

/-- A competition is written only when it has a table. -/
theorem Competition.exists_table_of_dictionary {competition : Competition}
    {fields : Fields} (written : competition.dictionary = .ok fields) :
    ∃ table, competition.competitionTable = some table ∧
      required fields "title" string? = some competition.title ∧
      required fields "qtyPlayers" int? = some competition.qtyPlayers ∧
      required fields "date" string? = some competition.date ∧
      required fields "accessUsersIdArray" (listOf string?) =
        some competition.accessUsersIdArray ∧
      required fields "players" (listOf User.decode) =
        some (competition.players.map User.withoutDocId) ∧
      ifPresent fields "competitionTable" CompetitionTable.decode =
        some (some table.withoutDocId) := by
  cases htable : competition.competitionTable with
  | none =>
      rw [dictionary, htable] at written
      cases written
  | some table =>
      rw [dictionary, htable] at written
      cases written
      refine ⟨table, rfl, rfl, rfl, rfl, listOf_strings _, ?_, ?_⟩
      · exact listOf_map fun player _ => player.decode_dictionary
      · exact congrArg (Option.map some) table.decode_dictionary

/-- The map of a competition with a table, once `"id"` is set, is read back as
the competition with that id and no document ids in its users. -/
theorem Competition.decode_dictionary {competition : Competition} {fields : Fields}
    (written : competition.dictionary = .ok fields) (documentID : String) :
    Competition.decode (.object (setKey fields "id" (.string documentID))) =
      some { competition.withoutDocId with id := some documentID } := by
  obtain ⟨table, htable, htitle, hqty, hdate, haccess, hplayers, hrows⟩ :=
    exists_table_of_dictionary written
  have hid : ifPresent (setKey fields "id" (.string documentID)) "id" string? =
      some (some documentID) := rfl
  simp (disch := decide) only [decode, fields?, hid, htitle, hqty, hdate, haccess, hplayers,
    hrows, required_setKey_of_ne, ifPresent_setKey_of_ne, Option.bind_eq_bind,
    Option.bind_some, Option.pure_def]
  rw [withoutDocId, htable]
  rfl

end AnyCompetition
