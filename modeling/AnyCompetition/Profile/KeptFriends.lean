import AnyCompetition.Profile.HostCopies

/-!
# Friends of the start are kept

Accepts on stale copies overwrite each other, so that a friend made in a run can get lost.
The friends that a user has at the start cannot: every copy has them first, whichever
version it was read from.  A user without a list of friends stays without one.
-/

namespace AnyCompetition.Profile.Friendship

open Json GuardedRun Database

/-- The friends of a document as the decoder of a user reads them, `nil` for no list. -/
def friendsEntry (document : Document) : Option (Option (List String)) :=
  ifPresent document.data "friends" (listOf string?)

/-- A list of friends has others after them; anything else stays as it is. -/
def KeepsFriends : Option (Option (List String)) → Option (Option (List String)) → Prop
  | some (some friends), later => ∃ added, later = some (some (friends ++ added))
  | earlier, later => later = earlier

theorem KeepsFriends.refl (entry : Option (Option (List String))) : KeepsFriends entry entry := by
  match entry with
  | none => rfl
  | some none => rfl
  | some (some friends) => exact ⟨[], by rw [List.append_nil]⟩

/-- The friends of an accept are put after those of the copy. -/
theorem KeepsFriends.append {earlier : Option (Option (List String))}
    {friends : Option (List String)} (kept : KeepsFriends earlier (some friends))
    (friend : String) :
    KeepsFriends earlier (some (friends.map fun friends => friends ++ [friend])) := by
  match earlier with
  | none => cases kept
  | some none =>
      cases kept
      rfl
  | some (some first) =>
      obtain ⟨added, hadded⟩ := kept
      cases hadded
      exact ⟨added ++ [friend], by rw [Option.map_some, List.append_assoc]⟩

theorem friendsEntry_of_decodes {document : Document} {user : User}
    (decoded : decodeUser document = some user) : friendsEntry document = some user.friends := by
  have hfriends := (readFrom_of_decodes decoded).friends
  rwa [ifPresent_setKey_of_ne _ _ _ (by decide)] at hfriends

theorem friendsEntry_setFriends (document : Document) (friends : Option (List String)) :
    friendsEntry { document with
      data := setKey document.data "friends"
        (ofOption (fun friends => .array (friends.map .string)) friends) } = some friends :=
  ifPresent_ofOption _ (lookup_setKey_same _ _ _) listOf_strings fun _ => Json.noConfusion

namespace Community

variable {ι : Type} {c : Community ι}

/-- The entry belongs to a document of the start and has kept its friends. -/
def FriendsKept (c : Community ι) (documentID : String) (entry : Option (Option (List String))) :
    Prop :=
  ∃ origin ∈ c.documents, documentID = origin.documentID ∧
    KeepsFriends (friendsEntry origin) entry

variable (c) in
theorem tracks_friendsKept :
    c.Tracks (fun document => c.FriendsKept document.documentID (friendsEntry document))
      fun copy => ∀ docId, copy.docId = some docId → c.FriendsKept docId (some copy.friends) where
  start document hdocument := ⟨document, hdocument, rfl, .refl _⟩
  read document copy kept decoded := by
    intro docId hdocId
    rw [decodeUser_docId decoded] at hdocId
    cases hdocId
    rwa [friendsEntry_of_decodes decoded] at kept
  addRequest document notification kept := by
    have hentry : friendsEntry (addRequest notification document) = friendsEntry document :=
      ifPresent_setKey_of_ne _ _ _ (by decide)
    rw [hentry]
    exact kept
  setFriends document copy friend _ copied hdocId := by
    obtain ⟨origin, horigin, hsame, kept⟩ := copied document.documentID hdocId
    rw [friendsEntry_setFriends]
    exact ⟨origin, horigin, hsame, kept.append friend⟩

/--
However the answers are delayed and the writes are reordered or lost: in every version
of the collection a user has all friends that it had at the start, in the same order and
before all others, and has a list of friends only if it had one at the start.
-/
theorem friends_of_start_are_kept [DecidableEq ι] {s : State ι} {actions : List (Action ι)}
    (hrun : run? c.step? c.start actions = some s) {documents : List Document}
    {document : Document} (hversion : documents ∈ s.versions) (hdocument : document ∈ documents) :
    ∃ origin ∈ c.documents, document.documentID = origin.documentID ∧
      KeepsFriends (friendsEntry origin) (friendsEntry document) :=
  ((tracks_friendsKept c).of_run hrun).versions documents hversion document hdocument

theorem friends_of_start_are_kept_two_users :
    let befriended : Community Bool := { twoUsers with
      documents := [⟨"d1", addUser .anna⟩,
        ⟨"d2", addUser { User.boris with friends := some ["d3"] }⟩]
      distinct := by decide }
    ∃ (final : State Bool) (documents : List Document) (document : Document),
      run? befriended.step? befriended.start (asks ++ accepts) = some final ∧
      documents ∈ final.versions ∧ document ∈ documents ∧ friendsIn document = ["d3", "d1"] ∧
      ∃ origin ∈ befriended.documents, document.documentID = origin.documentID ∧
        KeepsFriends (friendsEntry origin) (friendsEntry document) := by
  intro befriended
  have hcheck : ((run? befriended.step? befriended.start (asks ++ accepts)).bind fun final =>
      final.versions[2]?.bind fun documents => documents[1]?.map fun document =>
        (final, documents, document)).any
      (fun found => friendsIn found.2.2 = ["d3", "d1"]) = true := by
    decide +kernel
  obtain ⟨⟨final, documents, document⟩, hfound, hfacts⟩ := (Option.any_eq_true _ _).mp hcheck
  obtain ⟨_, hrun, hrest⟩ := Option.bind_eq_some_iff.mp hfound
  obtain ⟨_, hversion, hrest⟩ := Option.bind_eq_some_iff.mp hrest
  obtain ⟨_, hdocument, hsame⟩ := Option.map_eq_some_iff.mp hrest
  cases hsame
  have hmember := List.mem_of_getElem? hversion
  have hstored := List.mem_of_getElem? hdocument
  exact ⟨final, documents, document, hrun, hmember, hstored, of_decide_eq_true hfacts,
    friends_of_start_are_kept hrun hmember hstored⟩

end Community

end AnyCompetition.Profile.Friendship
