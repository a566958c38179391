import AnyCompetition.Library.Hashing
import AnyCompetition.Models.User

/-!
# Hashes of users and friend requests

The hashes are synthesised from all stored properties, while the equality is written by
hand on a few of them.  Equal values feed the same only when they also agree in all
that the equality leaves out, at every level of nested requests.
-/

namespace AnyCompetition

open Hashing

/-! ## The synthesised hashes -/

mutual

/-- What the synthesised `hash(into:)` of a user feeds. -/
def User.hashInto : User → List Fed
  | user@{ notificationArray := notifications, .. } =>
      ofString user.firstName ++ ofString user.lastName ++ ofString user.nick ++
        ofOption ofString user.docId ++ ofOption ofString user.id ++ ofString user.mail ++
        ofOption (ofArray ofString) user.friends ++ ofInt user.playedGames ++
        ofInt user.wonGames ++ ofInt user.lostGames ++ ofInt user.wonCups ++
        (.int notifications.length :: AddFriendNotification.hashAll notifications)
termination_by structural user => user

/-- What the synthesised `hash(into:)` of a request feeds. -/
def AddFriendNotification.hashInto : AddFriendNotification → List Fed
  | ⟨date, userFriend⟩ => ofString date ++ userFriend.hashInto
termination_by structural notification => notification

def AddFriendNotification.hashAll : List AddFriendNotification → List Fed
  | [] => []
  | notification :: rest => notification.hashInto ++ AddFriendNotification.hashAll rest
termination_by structural notifications => notifications

end

theorem AddFriendNotification.hashAll_eq_flatMap (notifications : List AddFriendNotification) :
    hashAll notifications = notifications.flatMap hashInto := by
  induction notifications with
  | nil => rfl
  | cons notification rest ih => exact congrArg (notification.hashInto ++ ·) ih

mutual

/-- All stored properties are read off what a user feeds. -/
theorem User.readOff_hashInto (user : User) : ReadOff User.hashInto user := by
  cases user with
  | mk firstName lastName nick docId id mail friends playedGames wonGames lostGames
      wonCups notifications =>
      have inner := readOff_ofArray (AddFriendNotification.readOff_hashAll notifications)
      rintro ⟨_, _, _, _, _, _, _, _, _, _, _, _⟩ rest otherRest hfirstName
      simp only [User.hashInto, AddFriendNotification.hashAll_eq_flatMap, List.append_assoc]
        at hfirstName
      obtain ⟨rfl, hlastName⟩ := readOff_ofString _ _ _ _ hfirstName
      obtain ⟨rfl, hnick⟩ := readOff_ofString _ _ _ _ hlastName
      obtain ⟨rfl, hdocId⟩ := readOff_ofString _ _ _ _ hnick
      obtain ⟨rfl, hid⟩ := readOff_ofOption (fun id _ => readOff_ofString id) _ _ _ hdocId
      obtain ⟨rfl, hmail⟩ := readOff_ofOption (fun id _ => readOff_ofString id) _ _ _ hid
      obtain ⟨rfl, hfriends⟩ := readOff_ofString _ _ _ _ hmail
      obtain ⟨rfl, hplayed⟩ := readOff_ofOption
        (fun friends _ => readOff_ofArray fun friend _ => readOff_ofString friend) _ _ _ hfriends
      obtain ⟨rfl, hwon⟩ := readOff_ofInt _ _ _ _ hplayed
      obtain ⟨rfl, hlost⟩ := readOff_ofInt _ _ _ _ hwon
      obtain ⟨rfl, hcups⟩ := readOff_ofInt _ _ _ _ hlost
      obtain ⟨rfl, hnotifications⟩ := readOff_ofInt _ _ _ _ hcups
      obtain ⟨rfl, hrest⟩ := inner _ _ _ hnotifications
      exact ⟨rfl, hrest⟩
termination_by structural user

theorem AddFriendNotification.readOff_hashInto (notification : AddFriendNotification) :
    ReadOff AddFriendNotification.hashInto notification := by
  cases notification with
  | mk date userFriend =>
      have inner := User.readOff_hashInto userFriend
      rintro ⟨_, _⟩ rest otherRest hdate
      simp only [AddFriendNotification.hashInto, List.append_assoc] at hdate
      obtain ⟨rfl, huserFriend⟩ := readOff_ofString _ _ _ _ hdate
      obtain ⟨rfl, hrest⟩ := inner _ _ _ huserFriend
      exact ⟨rfl, hrest⟩
termination_by structural notification

theorem AddFriendNotification.readOff_hashAll (notifications : List AddFriendNotification) :
    ∀ notification ∈ notifications, ReadOff AddFriendNotification.hashInto notification := by
  cases notifications with
  | nil => exact fun _ membership => absurd membership List.not_mem_nil
  | cons notification rest =>
      have first := AddFriendNotification.readOff_hashInto notification
      have later := AddFriendNotification.readOff_hashAll rest
      exact List.forall_mem_cons.mpr ⟨first, later⟩
termination_by structural notifications

end

/-! ## What the equality leaves out -/

mutual

/-- The users agree in the properties that `==` does not compare, and so do the users
nested at the same places of their requests. -/
def User.SameIgnored : User → User → Prop
  | lhs@{ notificationArray := left, .. }, rhs@{ notificationArray := right, .. } =>
      lhs.docId = rhs.docId ∧ lhs.id = rhs.id ∧ lhs.mail = rhs.mail ∧
        lhs.friends = rhs.friends ∧ lhs.playedGames = rhs.playedGames ∧
        lhs.wonGames = rhs.wonGames ∧ lhs.lostGames = rhs.lostGames ∧
        lhs.wonCups = rhs.wonCups ∧ AddFriendNotification.SameIgnoredAll left right
termination_by structural lhs => lhs

/-- The date of a request is not compared either. -/
def AddFriendNotification.SameIgnored : AddFriendNotification → AddFriendNotification → Prop
  | ⟨leftDate, left⟩, ⟨rightDate, right⟩ => leftDate = rightDate ∧ User.SameIgnored left right
termination_by structural lhs => lhs

def AddFriendNotification.SameIgnoredAll :
    List AddFriendNotification → List AddFriendNotification → Prop
  | left :: lefts, right :: rights =>
      AddFriendNotification.SameIgnored left right ∧
        AddFriendNotification.SameIgnoredAll lefts rights
  | _, _ => True
termination_by structural lhs => lhs

end

mutual

/-- Nothing but what `==` compares and what it leaves out makes up a user. -/
theorem User.eq_iff (lhs rhs : User) :
    lhs = rhs ↔ User.beq lhs rhs = true ∧ User.SameIgnored lhs rhs := by
  cases lhs with
  | mk firstName lastName nick docId id mail friends playedGames wonGames lostGames
      wonCups notifications =>
      have inner := AddFriendNotification.all_eq_iff notifications
      cases rhs
      simp only [User.mk.injEq, User.beq, User.SameIgnored, Bool.and_eq_true, beq_iff_eq, inner]
      constructor
      · rintro ⟨hfirstName, hlastName, hnick, hdocId, hid, hmail, hfriends, hplayed, hwon, hlost,
          hcups, hequal, hignored⟩
        exact ⟨⟨⟨⟨hfirstName, hlastName⟩, hnick⟩, hequal⟩, hdocId, hid, hmail, hfriends, hplayed,
          hwon, hlost, hcups, hignored⟩
      · rintro ⟨⟨⟨⟨hfirstName, hlastName⟩, hnick⟩, hequal⟩, hdocId, hid, hmail, hfriends, hplayed,
          hwon, hlost, hcups, hignored⟩
        exact ⟨hfirstName, hlastName, hnick, hdocId, hid, hmail, hfriends, hplayed, hwon, hlost,
          hcups, hequal, hignored⟩
termination_by structural lhs

theorem AddFriendNotification.eq_iff (lhs rhs : AddFriendNotification) :
    lhs = rhs ↔
      AddFriendNotification.beq lhs rhs = true ∧ AddFriendNotification.SameIgnored lhs rhs := by
  cases lhs with
  | mk date userFriend =>
      have inner := User.eq_iff userFriend
      cases rhs
      simp only [AddFriendNotification.mk.injEq, AddFriendNotification.beq,
        AddFriendNotification.SameIgnored, inner]
      exact and_left_comm
termination_by structural lhs

theorem AddFriendNotification.all_eq_iff (lefts rights : List AddFriendNotification) :
    lefts = rights ↔ AddFriendNotification.beqAll lefts rights = true ∧
      AddFriendNotification.SameIgnoredAll lefts rights := by
  cases lefts with
  | nil =>
      cases rights with
      | nil => exact ⟨fun _ => ⟨rfl, trivial⟩, fun _ => rfl⟩
      | cons right rights => simp [AddFriendNotification.beqAll]
  | cons left lefts =>
      cases rights with
      | nil => simp [AddFriendNotification.beqAll]
      | cons right rights =>
          have first := AddFriendNotification.eq_iff left right
          have later := AddFriendNotification.all_eq_iff lefts rights
          simp only [List.cons.injEq, AddFriendNotification.beqAll,
            AddFriendNotification.SameIgnoredAll, Bool.and_eq_true, first, later]
          exact and_and_and_comm
termination_by structural lefts

end

/--
For all users and for all requests, nested to any depth: the law that two values, if equal,
feed the same sequence to a hasher is kept by them if and only if they are not equal or
agree, at every level, in all that the equality leaves out.
-/
theorem equal_values_feed_same_iff (lhs rhs : User) (first second : AddFriendNotification) :
    (((lhs == rhs) = true → lhs.hashInto = rhs.hashInto) ↔
      (lhs == rhs) = false ∨ lhs.SameIgnored rhs) ∧
    (((first == second) = true → first.hashInto = second.hashInto) ↔
      (first == second) = false ∨ first.SameIgnored second) := by
  constructor
  · exact lhs.readOff_hashInto.feeds_same_iff (User.eq_iff lhs rhs)
  · exact first.readOff_hashInto.feeds_same_iff (AddFriendNotification.eq_iff first second)

/-- Two accounts with the same names are equal and feed different ids, and the requests of one
user at two times are equal and feed different dates. -/
theorem equal_values_feed_differently :
    let namesake : User := { User.anna with id := some "u2" }
    let first : AddFriendNotification := ⟨"2022-12-20 10:00:00 +0000", .anna⟩
    let second : AddFriendNotification := ⟨"2022-12-20 10:00:01 +0000", .anna⟩
    ((User.anna == namesake) = true ∧ User.anna.hashInto ≠ namesake.hashInto) ∧
    ((first == second) = true ∧ first.hashInto ≠ second.hashInto) ∧
    (¬ ∀ lhs rhs : User, (lhs == rhs) = true → lhs.hashInto = rhs.hashInto) ∧
    ¬ ∀ lhs rhs : AddFriendNotification, (lhs == rhs) = true → lhs.hashInto = rhs.hashInto := by
  intro namesake first second
  have hequal : (User.anna == namesake) = true := by decide
  have hfeeds : User.anna.hashInto ≠ namesake.hashInto := by decide
  have hequalRequests : (first == second) = true := by decide
  have hfeedsRequests : first.hashInto ≠ second.hashInto := by decide
  refine ⟨⟨hequal, hfeeds⟩, ⟨hequalRequests, hfeedsRequests⟩, ?_, ?_⟩
  · intro law
    exact hfeeds (law .anna namesake hequal)
  · intro law
    exact hfeedsRequests (law first second hequalRequests)

end AnyCompetition
