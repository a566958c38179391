import AnyCompetition.Database.Documents

/-!
# Friend requests in the users collection

Accepting a request looks the requester up by id in the whole collection and
overwrites the friends of the receiver with a list made from a copy of the
receiver.
-/

namespace AnyCompetition.Database

open Json Trap

/-- One document of the loop; a document without an id stops the program. -/
def receiveUser (uid : String) (received : List User) (document : Document) :
    Except Trap (List User) :=
  match document.data.lookup "id" with
  | some (.string id) =>
      if id = uid then
        match decodeUser document with
        | some user => return received ++ [user]
        | none => return received
      else return received
  | _ => throw .failedCast

/-- The users handed to the completion, one for each document of this id that
decodes. -/
def getUserData (uid : String) (documents : List Document) : Except Trap (List User) :=
  documents.foldlM (receiveUser uid) []

/-- `updateData` sets one entry of one document. -/
def updateData (documents : List Document) (docId : String) (key : String) (value : Json) :
    List Document :=
  documents.map fun document =>
    if document.documentID = docId then
      { document with data := setKey document.data key value }
    else document

/-- The completion of the lookup: the requester's document id is appended to the
friends of the copy, when it has any, and the result is written. -/
def acceptFriend (receivingUser : User) (documents : List Document) (user : User) :
    List Document :=
  match receivingUser.docId, user.docId with
  | some docId, some friendDocId =>
      let friendArray := receivingUser.friends.map fun friends => friends ++ [friendDocId]
      updateData documents docId "friends"
        (ofOption (fun friends => .array (friends.map .string)) friendArray)
  | _, _ => documents

/-- The documents of an account. -/
def accounts (uid : String) (documents : List Document) : List Document :=
  documents.filter fun document =>
    (document.data.lookup "id").bind string? = some uid

/-- The document of a user with an id lets the loop go on. -/
theorem receiveUser_of_storedIn {user : User} {data : Fields} {id : String}
    (stored : user.StoredIn data) (hid : user.id = some id) (documentID uid : String)
    (received : List User) :
    receiveUser uid received ⟨documentID, data⟩ =
      .ok (if id = uid then
        received ++ [{ user.withoutDocId with docId := some documentID }] else received) := by
  have hlookup := stored.id
  rw [hid] at hlookup
  rw [receiveUser, hlookup, decodeUser_of_storedIn stored]
  dsimp only [ofOption]
  split <;> rfl

theorem receiveUser_eq {uid : String} {received next : List User} {document : Document}
    (hnext : receiveUser uid received document = .ok next) :
    next = received ++ (accounts uid [document]).filterMap decodeUser := by
  unfold receiveUser at hnext
  split at hnext
  · rename_i id hid
    by_cases hsame : id = uid
    · subst hsame
      rw [if_pos rfl] at hnext
      cases hdecode : decodeUser document with
      | none =>
          rw [hdecode] at hnext
          cases hnext
          simp [accounts, hid, string?, hdecode]
      | some user =>
          rw [hdecode] at hnext
          cases hnext
          simp [accounts, hid, string?, hdecode]
    · rw [if_neg hsame] at hnext
      cases hnext
      simp [accounts, hid, string?, hsame]
  · cases hnext

/-- A lookup that does not trap finds the documents of the account that decode. -/
theorem getUserData_eq {uid : String} {documents : List Document} {found : List User}
    (hfound : getUserData uid documents = .ok found) :
    found = (accounts uid documents).filterMap decodeUser := by
  suffices hloop : ∀ received, documents.foldlM (receiveUser uid) received = .ok found →
      found = received ++ (accounts uid documents).filterMap decodeUser from
    hloop [] hfound
  clear hfound
  induction documents with
  | nil =>
      intro received hfound
      cases hfound
      simp [accounts]
  | cons document rest ih =>
      intro received hfound
      rw [List.foldlM_cons] at hfound
      cases hnext : receiveUser uid received document with
      | error trap =>
          rw [hnext] at hfound
          cases hfound
      | ok next =>
          rw [hnext] at hfound
          rw [ih next hfound, receiveUser_eq hnext, List.append_assoc, ← List.filterMap_append]
          simp only [accounts, ← List.filter_append, List.singleton_append]

/-- What a lookup finds is stored. -/
theorem exists_document_of_getUserData {uid : String} {documents : List Document}
    {found : List User} (hfound : getUserData uid documents = .ok found) {user : User}
    (membership : user ∈ found) : ∃ document ∈ documents, decodeUser document = some user := by
  rw [getUserData_eq hfound] at membership
  obtain ⟨document, haccount, hdecode⟩ := List.mem_filterMap.mp membership
  exact ⟨document, List.mem_of_mem_filter haccount, hdecode⟩

/-- The copy kept after a lookup is the old one or one of those found. -/
theorem mem_of_foldl_some {found : List User} {old : Option User} {user : User}
    (hlast : found.foldl (fun _ user => some user) old = some user) :
    old = some user ∨ user ∈ found := by
  induction found generalizing old with
  | nil => exact .inl hlast
  | cons first rest ih =>
      rcases ih hlast with hfirst | later
      · cases hfirst
        exact .inr List.mem_cons_self
      · exact .inr (List.mem_cons_of_mem _ later)

/-! ## Updating one document -/

theorem decodeUser_docId {document : Document} {user : User}
    (decoded : decodeUser document = some user) : user.docId = some document.documentID := by
  have hdocId := User.docId_of_decode decoded
  rw [ifPresent, lookup_setKey_same] at hdocId
  exact (Option.some.inj hdocId).symm

/-- Writing the friends of a user changes the friends it is read back with. -/
theorem decodeUser_setFriends {document : Document} {user : User}
    (decoded : decodeUser document = some user) (friends : Option (List String)) :
    decodeUser { document with
      data := setKey document.data "friends"
        (ofOption (fun friends => .array (friends.map .string)) friends) } =
      some { user with friends } := by
  apply User.decode_of_friends decoded
  · intro key hkey
    exact lookup_setKey_setKey_of_ne _ _ _ _ hkey
  · rw [lookup_setKey_of_ne _ _ (by decide), lookup_setKey_same]

end AnyCompetition.Database
