import AnyCompetition.Database.Friends

/-!
# Looking up a user among others

The lookup casts the id of every document before it decodes any, while the loop over
all users skips what it cannot read.  A collection of added users is looked up
without trapping exactly when every one of them has an id.
-/

namespace AnyCompetition.Database

open Json Trap

/-- The document of a user added to the collection. -/
def addedUser (entry : String × User) : Document :=
  ⟨entry.1, addUser entry.2⟩

/-- An added user as it is read back. -/
def readBack (entry : String × User) : User :=
  { entry.2.withoutDocId with docId := some entry.1 }

@[simp]
theorem decodeUser_addedUser (entry : String × User) :
    decodeUser (addedUser entry) = some (readBack entry) :=
  decodeUser_addUser entry.2 entry.1

@[simp]
theorem lookup_id_addedUser (entry : String × User) :
    (addedUser entry).data.lookup "id" = some (ofOption .string entry.2.id) :=
  (addUser_storedIn entry.2).id

@[simp]
theorem id_readBack (entry : String × User) : (readBack entry).id = entry.2.id := by
  rw [readBack, User.withoutDocId_eq]

theorem getAllUsers_addedUser (written : List (String × User)) :
    getAllUsers (written.map addedUser) = written.map readBack := by
  rw [getAllUsers, appendDecoded_eq, List.filterMap_map]
  exact (List.filterMap_congr fun entry _ => decodeUser_addedUser entry).trans
    (congrFun List.filterMap_eq_map written)

/-- The documents of an account are those of the users added with its id. -/
theorem accounts_addedUser (uid : String) (written : List (String × User)) :
    accounts uid (written.map addedUser) =
      (written.filter fun entry => entry.2.id = some uid).map addedUser := by
  rw [accounts, List.filter_map]
  congr 1
  apply List.filter_congr
  intro entry _
  dsimp only [Function.comp_apply]
  rw [lookup_id_addedUser]
  cases entry.2.id with
  | none => rfl
  | some id => rfl

/-- A user with an id lets the loop go on. -/
theorem receiveUser_of_id {entry : String × User} {id : String} (hid : entry.2.id = some id)
    (uid : String) (received : List User) :
    receiveUser uid received (addedUser entry) =
      .ok (if id = uid then received ++ [readBack entry] else received) :=
  receiveUser_of_storedIn (addUser_storedIn entry.2) hid entry.1 uid received

/-- A user with no id stops the program, whoever is looked up. -/
theorem receiveUser_of_nil {entry : String × User} (hid : entry.2.id = none)
    (uid : String) (received : List User) :
    receiveUser uid received (addedUser entry) = .error .failedCast := by
  have hlookup : (addedUser entry).data.lookup "id" = some .null := by
    rw [lookup_id_addedUser, hid]
    rfl
  rw [receiveUser, hlookup]
  rfl

/-- The loop ends exactly when every user of the collection has an id. -/
theorem exists_getUserData_iff (written : List (String × User)) (uid : String) :
    (∃ found, getUserData uid (written.map addedUser) = .ok found) ↔
      ∀ entry ∈ written, entry.2.id.isSome := by
  suffices hloop : ∀ received,
      (∃ found, (written.map addedUser).foldlM (receiveUser uid) received = .ok found) ↔
        ∀ entry ∈ written, entry.2.id.isSome from hloop []
  induction written with
  | nil => exact fun received => ⟨fun _ _ => nofun, fun _ => ⟨received, rfl⟩⟩
  | cons entry rest ih =>
      intro received
      rw [List.map_cons, List.foldlM_cons, List.forall_mem_cons]
      cases hid : entry.2.id with
      | none =>
          rw [receiveUser_of_nil hid]
          constructor
          · rintro ⟨_, hfound⟩
            cases hfound
          · rintro ⟨hsome, _⟩
            cases hsome
      | some id =>
          rw [receiveUser_of_id hid]
          exact (ih _).trans ⟨fun later => ⟨rfl, later⟩, fun both => both.2⟩

/--
For every collection of added users and every uid: the lookup runs through all
documents without trapping and delivers exactly the users with this id, in order,
each with the id of its document, which are those that all users would publish
with this id, if and only if every added user has an id.
-/
theorem getUserData_delivers_iff (written : List (String × User)) (uid : String) :
    (∃ found, getUserData uid (written.map addedUser) = .ok found ∧
      found = (written.filter fun entry => entry.2.id = some uid).map (fun entry =>
        { entry.2.withoutDocId with docId := some entry.1 }) ∧
      found = (getAllUsers (written.map addedUser)).filter fun user => user.id = some uid) ↔
    ∀ entry ∈ written, entry.2.id.isSome := by
  rw [← exists_getUserData_iff written uid]
  constructor
  · rintro ⟨found, hfound, _⟩
    exact ⟨found, hfound⟩
  · rintro ⟨found, hfound⟩
    have hvalue : found =
        (written.filter fun entry => entry.2.id = some uid).map readBack := by
      rw [getUserData_eq hfound, accounts_addedUser, List.filterMap_map]
      exact (List.filterMap_congr fun entry _ => decodeUser_addedUser entry).trans
        (congrFun List.filterMap_eq_map _)
    refine ⟨found, hfound, hvalue, ?_⟩
    rw [hvalue, getAllUsers_addedUser, List.filter_map]
    congr 1
    apply List.filter_congr
    intro entry _
    rw [Function.comp_apply, id_readBack]

/-- A user added with no id stops the lookup of the other one, while both are among
all users. -/
theorem getUserData_traps_on_other_user :
    let stranger : User := { User.boris with id := none }
    let documents := [addedUser ("d1", .anna), addedUser ("d2", stranger)]
    getUserData "u1" documents = .error .failedCast ∧
      getAllUsers documents = [.anna, stranger] ∧
      ¬ ∃ found, getUserData "u1" documents = .ok found := by
  intro stranger documents
  have htrap : getUserData "u1" documents = .error .failedCast := rfl
  refine ⟨htrap, getAllUsers_addedUser [("d1", .anna), ("d2", stranger)], ?_⟩
  rintro ⟨found, hfound⟩
  rw [htrap] at hfound
  cases hfound

end AnyCompetition.Database
