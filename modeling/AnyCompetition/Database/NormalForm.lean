import AnyCompetition.Database.Documents

/-!
# Reading a document and writing it back

A decoder ignores the entries that no property has, and the writers forget the document
ids of all users.  What the app writes is therefore a normal form: it determines the
competition up to these ids, and reading it and writing it back changes nothing.
-/

namespace AnyCompetition

open Json Trap

/-! ## Maps without document ids -/

mutual

/-- Document ids are not written, neither of a user nor of the users inside its requests. -/
@[simp]
theorem User.dictionary_withoutDocId (user : User) :
    user.withoutDocId.dictionary = user.dictionary := by
  cases user with
  | mk firstName lastName nick docId id mail friends playedGames wonGames lostGames
      wonCups notifications =>
      have inner := AddFriendNotification.dictionaries_withoutDocIds notifications
      simp only [User.withoutDocId, User.dictionary, inner]
termination_by structural user

theorem AddFriendNotification.dictionary_withoutDocId (notification : AddFriendNotification) :
    notification.withoutDocId.dictionary = notification.dictionary := by
  cases notification with
  | mk date userFriend =>
      have inner := User.dictionary_withoutDocId userFriend
      simp only [AddFriendNotification.withoutDocId, AddFriendNotification.dictionary, inner]
termination_by structural notification

theorem AddFriendNotification.dictionaries_withoutDocIds
    (notifications : List AddFriendNotification) :
    AddFriendNotification.dictionaries (AddFriendNotification.withoutDocIds notifications) =
      AddFriendNotification.dictionaries notifications := by
  cases notifications with
  | nil => rfl
  | cons notification rest =>
      have first := AddFriendNotification.dictionary_withoutDocId notification
      have later := AddFriendNotification.dictionaries_withoutDocIds rest
      simp only [AddFriendNotification.withoutDocIds, AddFriendNotification.dictionaries, first,
        later]
termination_by structural notifications

end

@[simp]
theorem Match.dictionary_withoutDocId (played : Match) :
    played.withoutDocId.dictionary = played.dictionary := by
  simp only [Match.dictionary, Match.withoutDocId, User.dictionary_withoutDocId]

@[simp]
theorem CompetitionTable.dictionary_withoutDocId (table : CompetitionTable) :
    table.withoutDocId.dictionary = table.dictionary := by
  simp only [CompetitionTable.dictionary, CompetitionTable.withoutDocId,
    MatchesOfPlayer.dictionary, List.map_map, Function.comp_def, Match.dictionary_withoutDocId]

namespace Competition

@[simp]
theorem dictionary_withoutDocId (competition : Competition) :
    competition.withoutDocId.dictionary = competition.dictionary := by
  cases htable : competition.competitionTable with
  | none => simp only [dictionary, withoutDocId, htable, Option.map_none]; rfl
  | some table =>
      simp only [dictionary, withoutDocId, htable, Option.map_some, List.map_map,
        Function.comp_def, User.dictionary_withoutDocId, unwrap_some]
      simp only [bind, Except.bind, CompetitionTable.dictionary_withoutDocId]

/-- The id is not part of the map. -/
theorem dictionary_setId (competition : Competition) (id : Option String) :
    { competition with id }.dictionary = competition.dictionary := rfl

/-- What is left of a competition in its map. -/
def written (competition : Competition) : Competition :=
  { competition.withoutDocId with id := none }

/-- Two competitions have the same map when they agree up to their ids and the
document ids of their users. -/
theorem dictionary_eq_iff {first second : Competition} {fields : Fields}
    (hfirst : first.dictionary = .ok fields) :
    second.dictionary = .ok fields ↔ second.written = first.written := by
  constructor
  · intro hsecond
    have hread := Database.decodeCompetition_dictionary hfirst ""
    rw [Database.decodeCompetition_dictionary hsecond] at hread
    exact congrArg (fun competition => { competition with id := none }) (Option.some.inj hread)
  · intro hsame
    rw [← hfirst, ← dictionary_withoutDocId first, ← dictionary_withoutDocId second,
      ← dictionary_setId first.withoutDocId none, ← dictionary_setId second.withoutDocId none]
    exact congrArg dictionary hsame

end Competition

namespace Database

/-- A document is read, and what was read is written under its id. -/
def rewrite (document : Document) : Option Document := do
  let competition ← decodeCompetition document
  (updateCompetitionDataToDataBase competition document.documentID).toOption

variable {document : Document} {competition : Competition}

theorem rewrite_eq {fields : Fields}
    (decoded : decodeCompetition document = some competition)
    (written : competition.dictionary = .ok fields) :
    rewrite document = some ⟨document.documentID, fields⟩ := by
  rw [rewrite, decoded, Option.bind_eq_bind, Option.bind_some,
    updateCompetitionDataToDataBase_eq written]
  rfl

/-- What the transaction of an update sets is the map of the competition. -/
theorem dictionary_of_update {competitionId : String}
    (updated : updateCompetitionDataToDataBase competition competitionId = .ok document) :
    competition.dictionary = .ok document.data := by
  cases htable : competition.competitionTable with
  | none =>
      rw [updateCompetitionDataToDataBase, htable] at updated
      cases updated
  | some table =>
      obtain ⟨fields, written⟩ := exists_dictionary competition htable
      rw [updateCompetitionDataToDataBase_eq written] at updated
      cases updated
      exact written

/-- A map that was written is written again when it is read. -/
theorem dictionary_of_decodes_written {fields : Fields}
    (written : competition.dictionary = .ok fields) (documentID : String) :
    ∃ readBack, decodeCompetition ⟨documentID, fields⟩ = some readBack ∧
      readBack.dictionary = .ok fields := by
  refine ⟨_, decodeCompetition_dictionary written documentID, ?_⟩
  rw [Competition.dictionary_setId, Competition.dictionary_withoutDocId, written]

/--
Whatever a document contains: when it is read as a competition with a table, the document
written back reads as the same competition without the document ids of its users, and is
not changed by reading and writing it once more.  A document with this id has the same
document written back exactly when it reads as the same competition up to those ids.
Without a table nothing is written: the force-unwrap traps.
-/
theorem rewrite_normalizes (decoded : decodeCompetition document = some competition) :
    (competition.competitionTable = none → rewrite document = none) ∧
      ∀ table, competition.competitionTable = some table → ∃ normal,
        rewrite document = some normal ∧ normal.documentID = document.documentID ∧
          decodeCompetition normal =
            some { competition.withoutDocId with id := some document.documentID } ∧
          rewrite normal = some normal ∧
          ∀ other otherCompetition, other.documentID = document.documentID →
            decodeCompetition other = some otherCompetition →
              (rewrite other = some normal ↔
                otherCompetition.written = competition.written) := by
  constructor
  · intro htable
    rw [rewrite, decoded, Option.bind_eq_bind, Option.bind_some,
      updateCompetitionDataToDataBase, htable]
    rfl
  · intro table htable
    obtain ⟨fields, written⟩ := exists_dictionary competition htable
    obtain ⟨readBack, hreadBack, again⟩ :=
      dictionary_of_decodes_written written document.documentID
    refine ⟨⟨document.documentID, fields⟩, rewrite_eq decoded written, rfl,
      decodeCompetition_dictionary written document.documentID, rewrite_eq hreadBack again, ?_⟩
    intro other otherCompetition hsame hother
    rw [← Competition.dictionary_eq_iff written, ← hsame]
    constructor
    · intro hrewrite
      rw [rewrite, hother, Option.bind_eq_bind, Option.bind_some] at hrewrite
      cases hupdate : updateCompetitionDataToDataBase otherCompetition other.documentID with
      | error trap =>
          rw [hupdate] at hrewrite
          cases hrewrite
      | ok normal =>
          rw [hupdate] at hrewrite
          cases hrewrite
          exact dictionary_of_update hupdate
    · exact rewrite_eq hother

/-- A document with an entry that no property has, and with the document id of a player. -/
theorem rewrite_normalizes_extra_entries :
    let table : CompetitionTable := { qtyPlayers := 1 }
    let document : Document := ⟨"c1", [
      ("title", .string "Cup"), ("owner", .string "u1"), ("qtyPlayers", .number 1),
      ("date", .string "2022-12-20 10:00:00 +0000"),
      ("accessUsersIdArray", .array [.string "u1"]),
      ("players", .array [.object (("docId", .string "d1") :: User.anna.dictionary)]),
      ("competitionTable", .object table.dictionary)]⟩
    ∃ competition normal, decodeCompetition document = some competition ∧
      rewrite document = some normal ∧ rewrite normal = some normal ∧
      normal.data.lookup "owner" = none := by
  intro table document
  let competition : Competition := {
    id := some "c1", title := "Cup", qtyPlayers := 1, date := "2022-12-20 10:00:00 +0000"
    accessUsersIdArray := ["u1"], players := [.anna]
    competitionTable := some table }
  have decoded : decodeCompetition document = some competition := by rfl
  have htable : competition.competitionTable = some table := rfl
  obtain ⟨normal, hrewrite, _, _, again, _⟩ := (rewrite_normalizes decoded).2 table htable
  refine ⟨competition, normal, decoded, hrewrite, again, ?_⟩
  obtain ⟨fields, written⟩ := exists_dictionary competition htable
  rw [rewrite_eq decoded written] at hrewrite
  cases hrewrite
  cases written
  rfl

end Database

end AnyCompetition
