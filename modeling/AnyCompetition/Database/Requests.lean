import AnyCompetition.Database.Documents

/-!
# Friend requests sent to a user

A request carries the whole map of the user who asks, with the requests received
by that user, and is added to the array of the receiver unless the array has an equal map.
-/

namespace AnyCompetition.Database

open Json

/-- `updateData` with an `arrayUnion` of one request. -/
def addRequest (notification : AddFriendNotification) (document : Document) : Document :=
  { document with
    data := setKey document.data "notificationArray"
      (arrayUnion (document.data.lookup "notificationArray")
        (.object notification.dictionary)) }

/-- `now` is the description of the current date. -/
def sendNotificationToAddToFriends (requestingUser receivingUser : User) (now : String)
    (documents : List Document) : List Document :=
  let notification : AddFriendNotification := { date := now, userFriend := requestingUser }
  match receivingUser.docId with
  | none => documents
  | some docId => documents.map fun document =>
      if document.documentID = docId then addRequest notification document else document

/-- The array of the document has the very map of the request. -/
def HasRequest (document : Document) (notification : AddFriendNotification) : Prop :=
  holds (document.data.lookup "notificationArray") (.object notification.dictionary) = true

instance (document : Document) (notification : AddFriendNotification) :
    Decidable (HasRequest document notification) :=
  inferInstanceAs (Decidable (_ = true))

variable {notification : AddFriendNotification} {document : Document} {user : User}

/-- The documents after a request: one document has it added. -/
theorem mem_sendNotification {requestingUser receivingUser : User} {now : String}
    {documents : List Document}
    (membership : document ∈
      sendNotificationToAddToFriends requestingUser receivingUser now documents) :
    document ∈ documents ∨ ∃ before ∈ documents,
      receivingUser.docId = some before.documentID ∧
        document = addRequest ⟨now, requestingUser⟩ before := by
  unfold sendNotificationToAddToFriends at membership
  split at membership
  · exact .inl membership
  · rename_i docId hdocId
    obtain ⟨before, hbefore, rfl⟩ := List.mem_map.mp membership
    by_cases hsame : before.documentID = docId
    · rw [if_pos hsame]
      exact .inr ⟨before, hbefore, hsame ▸ hdocId, rfl⟩
    · rw [if_neg hsame]
      exact .inl hbefore

theorem addRequest_mem_sendNotification {requestingUser receivingUser : User} {now : String}
    {documents : List Document} (membership : document ∈ documents)
    (hdocId : receivingUser.docId = some document.documentID) :
    addRequest ⟨now, requestingUser⟩ document ∈
      sendNotificationToAddToFriends requestingUser receivingUser now documents := by
  rw [sendNotificationToAddToFriends, hdocId]
  exact List.mem_map.mpr ⟨document, membership, if_pos rfl⟩

theorem lookup_addRequest (notification : AddFriendNotification) (document : Document)
    (docId : Json) {key : String} (hkey : key ≠ "notificationArray") :
    (setKey (addRequest notification document).data "docId" docId).lookup key =
      (setKey document.data "docId" docId).lookup key :=
  lookup_setKey_setKey_of_ne _ _ _ _ hkey

theorem lookup_notificationArray_addRequest (notification : AddFriendNotification)
    (document : Document) (docId : Json) :
    (setKey (addRequest notification document).data "docId" docId).lookup
        "notificationArray" =
      some (arrayUnion (document.data.lookup "notificationArray")
        (.object notification.dictionary)) := by
  rw [lookup_setKey_of_ne _ _ (by decide)]
  exact lookup_setKey_same ..

/-- A request that the array has already changes nothing that is read. -/
theorem decodeUser_addRequest_of_hasRequest (has : HasRequest document notification) :
    decodeUser (addRequest notification document) = decodeUser document := by
  apply User.decode_of_lookup_eq
  intro key
  by_cases hkey : key = "notificationArray"
  · subst hkey
    rw [lookup_notificationArray_addRequest, lookup_setKey_of_ne _ _ (by decide)]
    unfold HasRequest holds at has
    split at has
    · rename_i items hstored
      rw [hstored, arrayUnion, holds, if_pos has]
    · cases has
  · exact lookup_addRequest _ _ _ hkey

/-- A request that the array does not have is read after the others. -/
theorem decodeUser_addRequest_iff {items : List Json}
    (stored : document.data.lookup "notificationArray" = some (.array items))
    (new : ¬ HasRequest document notification) :
    decodeUser (addRequest notification document) = some user ↔
      ∃ before, decodeUser document = some before ∧
        user = { before with
          notificationArray := before.notificationArray ++ [notification.withoutDocId] } := by
  have hstored : (setKey document.data "docId" (.string document.documentID)).lookup
      "notificationArray" = some (.array items) := by
    rw [lookup_setKey_of_ne _ _ (by decide)]
    exact stored
  refine User.decode_append_iff hstored (fun key => lookup_addRequest _ _ _) ?_
  rw [HasRequest, stored] at new
  rw [lookup_notificationArray_addRequest, stored, arrayUnion, if_neg new]

/-- The array of the user that is read after a request is sent. -/
theorem decodeUser_addRequest_of_decodes {before : User}
    (decoded : decodeUser document = some before) :
    decodeUser (addRequest notification document) = some (
      if HasRequest document notification then before
      else { before with
        notificationArray := before.notificationArray ++ [notification.withoutDocId] }) := by
  split
  · rename_i has
    rw [decodeUser_addRequest_of_hasRequest has, decoded]
  · rename_i new
    obtain ⟨items, hitems⟩ := User.lookup_notificationArray decoded
    rw [lookup_setKey_of_ne _ _ (by decide)] at hitems
    exact (decodeUser_addRequest_iff hitems new).mpr ⟨before, decoded, rfl⟩

/-- A document that was not read before is read with this request alone. -/
theorem notificationArray_of_addRequest (unreadable : decodeUser document = none)
    (decoded : decodeUser (addRequest notification document) = some user) :
    user.notificationArray = [notification.withoutDocId] := by
  by_cases has : HasRequest document notification
  · rw [decodeUser_addRequest_of_hasRequest has, unreadable] at decoded
    cases decoded
  · by_cases harray : ∃ items, document.data.lookup "notificationArray" = some (.array items)
    · obtain ⟨items, hitems⟩ := harray
      obtain ⟨before, hbefore, _⟩ := (decodeUser_addRequest_iff hitems has).mp decoded
      rw [unreadable] at hbefore
      cases hbefore
    · have hsingle : arrayUnion (document.data.lookup "notificationArray")
          (.object notification.dictionary) = .array [.object notification.dictionary] := by
        unfold arrayUnion
        split
        · rename_i items hitems
          exact absurd ⟨items, hitems⟩ harray
        · rfl
      refine User.notificationArray_of_single ?_ decoded
      rw [lookup_notificationArray_addRequest, hsingle]

end AnyCompetition.Database
