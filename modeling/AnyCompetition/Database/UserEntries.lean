import AnyCompetition.Database.Friends
import AnyCompetition.Database.Requests

/-!
# The entries of a user's document

A document of the users collection has an id, friends and requests of its own, whether
it decodes as a user or not.  The two writers of friend requests touch one entry each:
a request is put after the others, and the friends are replaced.
-/

namespace AnyCompetition

open Json

namespace Database

/-- The id of the user in the document. -/
def storedId (document : Document) : Option String :=
  (document.data.lookup "id").bind string?

/-- The friends in the document; an entry that is no list of strings has none. -/
def friendsIn (document : Document) : List String :=
  ((document.data.lookup "friends").bind (listOf string?)).getD []

/-- The requests in the document; an array that cannot be read has none. -/
def requestsIn (document : Document) : List AddFriendNotification :=
  ((document.data.lookup "notificationArray").bind
    (listOf (AddFriendNotification.read User.decode))).getD []

variable {document : Document} {user : User}

theorem mem_accounts_iff {uid : String} {documents : List Document} :
    document ∈ accounts uid documents ↔ document ∈ documents ∧ storedId document = some uid := by
  rw [accounts, List.mem_filter, decide_eq_true_eq]
  exact Iff.rfl

/-! ## What a user is read with -/

/-- The entries that the decoder finds, with the document id set. -/
theorem readFrom_of_decodes (decoded : decodeUser document = some user) :
    user.ReadFrom (AddFriendNotification.read (User.readTo (depthFields
      (setKey document.data "docId" (.string document.documentID)))))
      (setKey document.data "docId" (.string document.documentID)) :=
  (User.decode_eq_some_iff (Nat.le_refl _)).mp decoded

theorem id_of_decodes (decoded : decodeUser document = some user) {id : String}
    (stored : storedId document = some id) : user.id = some id := by
  have hid := (readFrom_of_decodes decoded).id
  obtain ⟨value, hlookup, hvalue⟩ := Option.bind_eq_some_iff.mp stored
  rw [ifPresent, lookup_setKey_of_ne _ _ (by decide), hlookup] at hid
  cases value with
  | string text =>
      cases hvalue
      exact (Option.some.inj hid).symm
  | _ => cases hvalue

theorem friendsIn_of_decodes (decoded : decodeUser document = some user) :
    friendsIn document = user.friends.getD [] := by
  have hfriends := (readFrom_of_decodes decoded).friends
  rw [ifPresent, lookup_setKey_of_ne _ _ (by decide)] at hfriends
  rw [friendsIn]
  split at hfriends
  · rename_i hlookup
    rw [hlookup, ← Option.some.inj hfriends, Option.bind_none]
  · rename_i hlookup
    rw [hlookup, ← Option.some.inj hfriends]
    rfl
  · rename_i value _ hlookup
    obtain ⟨friends, hread, hsome⟩ := Option.map_eq_some_iff.mp hfriends
    rw [hlookup, Option.bind_some, hread, ← hsome]

theorem requestsIn_of_decodes (decoded : decodeUser document = some user) :
    requestsIn document = user.notificationArray := by
  have entries := readFrom_of_decodes decoded
  have hrequests := entries.notificationArray
  obtain ⟨value, hlookup, hread⟩ := Option.bind_eq_some_iff.mp hrequests
  have hvalue := depth_le_depthFields hlookup
  rw [lookup_setKey_of_ne _ _ (by decide)] at hlookup
  have hsame : listOf (AddFriendNotification.read User.decode) value =
      some user.notificationArray := by
    rw [← hread]
    apply listOf_congr
    intro items item harray membership
    have hitem : item.depth < value.depth := depth_lt_of_mem harray membership
    apply AddFriendNotification.read_congr
    intro userFriend huser
    exact User.readTo_eq_of_depth_le (Nat.le_refl _) (by omega)
  rw [requestsIn, hlookup, Option.bind_some, hsame]
  rfl

/-! ## A request is sent -/

theorem lookup_addRequest_of_ne (notification : AddFriendNotification) (document : Document)
    {key : String} (hkey : key ≠ "notificationArray") :
    (addRequest notification document).data.lookup key = document.data.lookup key :=
  lookup_setKey_of_ne _ _ hkey

theorem friendsIn_addRequest (notification : AddFriendNotification) (document : Document) :
    friendsIn (addRequest notification document) = friendsIn document := by
  rw [friendsIn, lookup_addRequest_of_ne _ _ (by decide), friendsIn]

theorem read_request (notification : AddFriendNotification) :
    AddFriendNotification.read User.decode (.object notification.dictionary) =
      some notification.withoutDocId :=
  AddFriendNotification.read_dictionary notification.userFriend.decode_dictionary

/-- The requests stay, and at most this one is put after them. -/
theorem requestsIn_addRequest (notification : AddFriendNotification) (document : Document) :
    requestsIn (addRequest notification document) = requestsIn document ∨
      requestsIn (addRequest notification document) =
        requestsIn document ++ [notification.withoutDocId] := by
  have hwritten : (addRequest notification document).data.lookup "notificationArray" =
      some (arrayUnion (document.data.lookup "notificationArray")
        (.object notification.dictionary)) := lookup_setKey_same _ _ _
  by_cases harray : ∃ items, document.data.lookup "notificationArray" = some (.array items)
  · obtain ⟨items, hitems⟩ := harray
    rw [requestsIn, requestsIn, hwritten, hitems, arrayUnion]
    split
    · exact Or.inl rfl
    · simp only [Option.bind_some, listOf, items?, Option.bind_eq_bind]
      cases hread : readAll (AddFriendNotification.read User.decode) items with
      | some before =>
          rw [readAll_concat_eq_some_iff.mpr ⟨before, _, hread, read_request _, rfl⟩]
          exact Or.inr rfl
      | none =>
          left
          congr 1
          apply Option.eq_none_iff_forall_ne_some.mpr
          intro values hvalues
          obtain ⟨before, _, hbefore, _⟩ := readAll_concat_eq_some_iff.mp hvalues
          rw [hread] at hbefore
          cases hbefore
  · right
    have hnone : requestsIn document = [] := by
      rw [requestsIn]
      cases hlookup : document.data.lookup "notificationArray" with
      | none => rfl
      | some value =>
          cases value with
          | array items => exact absurd ⟨items, hlookup⟩ harray
          | _ => rfl
    have hsingle : arrayUnion (document.data.lookup "notificationArray")
        (.object notification.dictionary) = .array [.object notification.dictionary] := by
      unfold arrayUnion
      split
      · rename_i items hitems
        exact absurd ⟨items, hitems⟩ harray
      · rfl
    rw [hnone, requestsIn, hwritten, hsingle]
    simp [listOf, items?, readAll, read_request]

/-! ## The friends are replaced -/

/-- The friends written are the friends of the document. -/
theorem friendsIn_setFriends (document : Document) (friends : Option (List String)) :
    friendsIn { document with
      data := setKey document.data "friends"
        (ofOption (fun friends => .array (friends.map .string)) friends) } =
      friends.getD [] := by
  rw [friendsIn, lookup_setKey_same, Option.bind_some]
  cases friends with
  | none => rfl
  | some friends =>
      rw [ofOption, listOf_strings]

theorem requestsIn_setFriends (document : Document) (friends : Option (List String)) :
    requestsIn { document with
      data := setKey document.data "friends"
        (ofOption (fun friends => .array (friends.map .string)) friends) } =
      requestsIn document := by
  rw [requestsIn, requestsIn, lookup_setKey_of_ne _ _ (by decide)]

end Database

end AnyCompetition
