import AnyCompetition.Models.Competition

/-!
# Documents of the database

The writers spell the stored maps out once more next to the `dictionary` of the
models.  The readers set the id of the document in the map, decode it, and skip
a document that does not decode.
-/

namespace AnyCompetition

open Json Trap

/-- One document of a collection. -/
structure Document where
  documentID : String
  data : Fields

namespace Database

/-! ## Writers -/

/-- The map given to `addDocument`. -/
def sendCompetitionToDatabase (competition : Competition) : Except Trap Fields := do
  let competitionTable ← unwrap competition.competitionTable
  return [
    ("title", .string competition.title),
    ("qtyPlayers", .number competition.qtyPlayers),
    ("date", .string competition.date),
    ("accessUsersIdArray", .array (competition.accessUsersIdArray.map .string)),
    ("players", .array (competition.players.map fun player => .object player.dictionary)),
    ("competitionTable", .object competitionTable.dictionary)]

/-- The document that the transaction sets; the transaction reads nothing. -/
def updateCompetitionDataToDataBase (competition : Competition) (competitionId : String) :
    Except Trap Document := do
  let competitionTable ← unwrap competition.competitionTable
  return {
    documentID := competitionId
    data := [
      ("title", .string competition.title),
      ("qtyPlayers", .number competition.qtyPlayers),
      ("date", .string competition.date),
      ("accessUsersIdArray", .array (competition.accessUsersIdArray.map .string)),
      ("players", .array (competition.players.map fun player =>
        .object player.dictionary)),
      ("competitionTable", .object competitionTable.dictionary)] }

/-- The map given to `addDocument` for a user. -/
def addUser (user : User) : Fields :=
  [("id", ofOption .string user.id),
   ("firstName", .string user.firstName),
   ("lastName", .string user.lastName),
   ("nick", .string user.nick),
   ("mail", .string user.mail),
   ("friends", ofOption (fun friends => .array (friends.map .string)) user.friends),
   ("playedGames", .number user.playedGames),
   ("wonGames", .number user.wonGames),
   ("lostGames", .number user.lostGames),
   ("wonCups", .number user.wonCups),
   ("notificationArray", .array (user.notificationArray.map fun notification =>
     .object notification.dictionary))]

/-! ## Readers -/

/-- `json["id"] = documentID`, then the decoder of a competition. -/
def decodeCompetition (document : Document) : Option Competition :=
  Competition.decode
    (.object (setKey document.data "id" (.string document.documentID)))

/-- `json["docId"] = documentID`, then the decoder of a user. -/
def decodeUser (document : Document) : Option User :=
  User.decode (.object (setKey document.data "docId" (.string document.documentID)))

/-- The loop over a snapshot that appends what decodes. -/
def appendDecoded {α : Type} (decode : Document → Option α) (documents : List Document) :
    List α :=
  documents.foldl
    (fun values document =>
      match decode document with
      | some value => values ++ [value]
      | none => values) []

def getAllCompetitions (documents : List Document) : List Competition :=
  appendDecoded decodeCompetition documents

def getAllUsers (documents : List Document) : List User :=
  appendDecoded decodeUser documents

/-- The loop computes the documents that decode, in order. -/
theorem appendDecoded_eq {α : Type} (decode : Document → Option α)
    (documents : List Document) :
    appendDecoded decode documents = documents.filterMap decode := by
  suffices ∀ built, documents.foldl (fun values document =>
      match decode document with
      | some value => values ++ [value]
      | none => values) built = built ++ documents.filterMap decode by
    exact this []
  induction documents with
  | nil => simp
  | cons document rest ih =>
      intro built
      cases hdecode : decode document with
      | none => simp [hdecode, ih]
      | some value => simp [hdecode, ih]

/-! ## Reading back -/

/-- The map spelled out by the creation is the map of the model. -/
theorem sendCompetitionToDatabase_eq (competition : Competition) :
    sendCompetitionToDatabase competition = competition.dictionary := rfl

/-- The map spelled out by the update is the map of the model. -/
theorem updateCompetitionDataToDataBase_eq {competition : Competition} {fields : Fields}
    (written : competition.dictionary = .ok fields) (competitionId : String) :
    updateCompetitionDataToDataBase competition competitionId =
      .ok ⟨competitionId, fields⟩ := by
  obtain ⟨table, htable, _⟩ := Competition.exists_table_of_dictionary written
  rw [Competition.dictionary, htable] at written
  cases written
  rw [updateCompetitionDataToDataBase, htable]
  rfl

theorem exists_dictionary (competition : Competition) {table : CompetitionTable}
    (hasTable : competition.competitionTable = some table) :
    ∃ fields, competition.dictionary = .ok fields := by
  rw [Competition.dictionary, hasTable]
  exact ⟨_, rfl⟩

theorem addUser_storedIn (user : User) : user.StoredIn (addUser user) := by
  constructor
  case notificationArray =>
    rw [AddFriendNotification.dictionaries_eq_map]
    rfl
  all_goals rfl

theorem decodeCompetition_dictionary {competition : Competition} {fields : Fields}
    (written : competition.dictionary = .ok fields) (documentID : String) :
    decodeCompetition ⟨documentID, fields⟩ =
      some { competition.withoutDocId with id := some documentID } :=
  Competition.decode_dictionary written documentID

/-- A map with the entries of a user is read back with the id of its document. -/
theorem decodeUser_of_storedIn {user : User} {data : Fields} (stored : user.StoredIn data)
    (documentID : String) :
    decodeUser ⟨documentID, data⟩ =
      some { user.withoutDocId with docId := some documentID } :=
  User.decode_of_storedIn (stored.setDocId _) rfl

theorem decodeUser_addUser (user : User) (documentID : String) :
    decodeUser ⟨documentID, addUser user⟩ =
      some { user.withoutDocId with docId := some documentID } :=
  decodeUser_of_storedIn (addUser_storedIn user) documentID

/--
A competition with a table is written as one and the same map by its
dictionary, its creation and its update, and read back with the id of its
document and without the document ids of its users; a user written by `addUser`
is read back by `getAllUsers`, wherever its document stands in the collection,
with the id of its document and without those of the nested users.
-/
theorem stored_documents_read_back (competition : Competition) (table : CompetitionTable)
    (hasTable : competition.competitionTable = some table) (documentID : String) :
    (∃ fields, competition.dictionary = .ok fields ∧
      sendCompetitionToDatabase competition = .ok fields ∧
      updateCompetitionDataToDataBase competition documentID =
        .ok ⟨documentID, fields⟩ ∧
      decodeCompetition ⟨documentID, fields⟩ =
        some { competition.withoutDocId with id := some documentID }) ∧
    ∀ (user : User) (before after : List Document),
      getAllUsers (before ++ ⟨documentID, addUser user⟩ :: after) =
        getAllUsers before ++
          { user.withoutDocId with docId := some documentID } :: getAllUsers after := by
  constructor
  · obtain ⟨fields, written⟩ := exists_dictionary competition hasTable
    exact ⟨fields, written, (sendCompetitionToDatabase_eq competition).trans written,
      updateCompetitionDataToDataBase_eq written documentID,
      decodeCompetition_dictionary written documentID⟩
  · intro user before after
    simp only [getAllUsers, appendDecoded_eq, List.filterMap_append,
      List.filterMap_cons, decodeUser_addUser]

/-- A competition between a user with a pending request and another user. -/
theorem stored_documents_read_back_two_players :
    let asked : User := { User.boris with
      friends := some ["d1"]
      notificationArray := [⟨"2022-11-17 10:00:00 +0000", .anna⟩] }
    let competition : Competition := {
      title := "Cup", qtyPlayers := 2, date := "2022-11-18 10:00:00 +0000"
      accessUsersIdArray := ["u1", "u2"], players := [.anna, asked]
      competitionTable := some {
        competitionTable := [⟨[Match.init .anna .anna ⟨0, 0⟩, Match.init .anna asked ⟨0, 1⟩]⟩]
        qtyPlayers := 2, qtyGames := 1 } }
    ∃ fields, competition.dictionary = .ok fields ∧
      decodeCompetition ⟨"c1", fields⟩ =
        some { competition.withoutDocId with id := some "c1" } := by
  intro asked competition
  obtain ⟨⟨fields, written, _, _, readBack⟩, _⟩ :=
    stored_documents_read_back competition _ rfl "c1"
  exact ⟨fields, written, readBack⟩

end Database

end AnyCompetition
