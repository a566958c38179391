import AnyCompetition.Library.Json

/-!
# Users and friend requests

A user carries the friend requests received, and a request carries the user who
asked.  A `String` below stands for a Swift string up to canonical equivalence,
which is what `==` on Swift strings compares.
-/

namespace AnyCompetition

open Json

mutual

structure User where
  firstName : String
  lastName : String
  nick : String
  docId : Option String := none
  id : Option String := none
  mail : String := ""
  friends : Option (List String) := none
  playedGames : Int := 0
  wonGames : Int := 0
  lostGames : Int := 0
  wonCups : Int := 0
  notificationArray : List AddFriendNotification := []

/-- `userFriend` is the user who asks to be a friend. -/
structure AddFriendNotification where
  date : String
  userFriend : User

end

/-! ## Equality of users -/

mutual

/-- `User.==` compares the names, the nick and the requests, and neither of the ids. -/
def User.beq : User → User → Bool
  | lhs@{ notificationArray := left, .. }, rhs@{ notificationArray := right, .. } =>
      lhs.firstName == rhs.firstName && lhs.lastName == rhs.lastName &&
        lhs.nick == rhs.nick && AddFriendNotification.beqAll left right
termination_by structural lhs => lhs

/-- `AddFriendNotification.==` ignores the date. -/
def AddFriendNotification.beq : AddFriendNotification → AddFriendNotification → Bool
  | ⟨_, left⟩, ⟨_, right⟩ => User.beq left right
termination_by structural lhs => lhs

def AddFriendNotification.beqAll :
    List AddFriendNotification → List AddFriendNotification → Bool
  | [], [] => true
  | left :: lefts, right :: rights =>
      AddFriendNotification.beq left right &&
        AddFriendNotification.beqAll lefts rights
  | _, _ => false
termination_by structural lhs => lhs

end

instance : BEq User := ⟨User.beq⟩

instance : BEq AddFriendNotification := ⟨AddFriendNotification.beq⟩

/-! ## Encoding -/

mutual

/-- The map of a user; the document id is not part of it. -/
def User.dictionary : User → Fields
  | user@{ notificationArray := notifications, .. } =>
      [("firstName", .string user.firstName),
       ("lastName", .string user.lastName),
       ("nick", .string user.nick),
       ("id", ofOption .string user.id),
       ("mail", .string user.mail),
       ("friends", ofOption (fun friends => .array (friends.map .string)) user.friends),
       ("playedGames", .number user.playedGames),
       ("wonGames", .number user.wonGames),
       ("lostGames", .number user.lostGames),
       ("wonCups", .number user.wonCups),
       ("notificationArray", .array (AddFriendNotification.dictionaries notifications))]
termination_by structural user => user

def AddFriendNotification.dictionary : AddFriendNotification → Fields
  | ⟨date, userFriend⟩ =>
      [("userFriend", .object userFriend.dictionary), ("date", .string date)]
termination_by structural notification => notification

def AddFriendNotification.dictionaries : List AddFriendNotification → List Json
  | [] => []
  | notification :: rest =>
      .object notification.dictionary :: AddFriendNotification.dictionaries rest
termination_by structural notifications => notifications

end

theorem AddFriendNotification.dictionaries_eq_map
    (notifications : List AddFriendNotification) :
    dictionaries notifications =
      notifications.map fun notification => .object notification.dictionary := by
  induction notifications with
  | nil => rfl
  | cons notification rest ih => exact congrArg (List.cons _) ih

/-! ## Forgetting document ids -/

mutual

/-- The user with no document id, in the user itself and in every nested user. -/
def User.withoutDocId : User → User
  | user@{ notificationArray := notifications, .. } =>
      { user with
        docId := none
        notificationArray := AddFriendNotification.withoutDocIds notifications }
termination_by structural user => user

def AddFriendNotification.withoutDocId : AddFriendNotification → AddFriendNotification
  | ⟨date, userFriend⟩ => ⟨date, userFriend.withoutDocId⟩
termination_by structural notification => notification

def AddFriendNotification.withoutDocIds :
    List AddFriendNotification → List AddFriendNotification
  | [] => []
  | notification :: rest =>
      notification.withoutDocId :: AddFriendNotification.withoutDocIds rest
termination_by structural notifications => notifications

end

theorem AddFriendNotification.withoutDocIds_eq_map
    (notifications : List AddFriendNotification) :
    withoutDocIds notifications = notifications.map withoutDocId := by
  induction notifications with
  | nil => rfl
  | cons notification rest ih => exact congrArg (List.cons _) ih

theorem User.withoutDocId_eq (user : User) :
    user.withoutDocId =
      { user with
        docId := none
        notificationArray := user.notificationArray.map
          AddFriendNotification.withoutDocId } := by
  cases user
  rw [← AddFriendNotification.withoutDocIds_eq_map]
  rfl

mutual

/-- Document ids have no part in the equality of users. -/
@[simp]
theorem User.beq_withoutDocId (lhs rhs : User) :
    User.beq lhs rhs.withoutDocId = User.beq lhs rhs := by
  cases lhs with
  | mk firstName lastName nick docId id mail friends playedGames wonGames lostGames
      wonCups notifications =>
      cases rhs
      have inner := AddFriendNotification.beqAll_withoutDocIds notifications
      simp only [User.withoutDocId, User.beq, inner]
termination_by structural lhs

theorem AddFriendNotification.beq_withoutDocId (lhs rhs : AddFriendNotification) :
    AddFriendNotification.beq lhs rhs.withoutDocId = AddFriendNotification.beq lhs rhs := by
  cases lhs with
  | mk date userFriend =>
      cases rhs
      have inner := User.beq_withoutDocId userFriend
      simp only [AddFriendNotification.withoutDocId, AddFriendNotification.beq, inner]
termination_by structural lhs

theorem AddFriendNotification.beqAll_withoutDocIds
    (lefts rights : List AddFriendNotification) :
    AddFriendNotification.beqAll lefts (AddFriendNotification.withoutDocIds rights) =
      AddFriendNotification.beqAll lefts rights := by
  cases lefts with
  | nil => cases rights <;> rfl
  | cons left lefts =>
      cases rights with
      | nil => rfl
      | cons right rights =>
          have first := AddFriendNotification.beq_withoutDocId left right
          have later := AddFriendNotification.beqAll_withoutDocIds lefts rights
          simp only [AddFriendNotification.withoutDocIds, AddFriendNotification.beqAll, first,
            later]
termination_by structural lefts

end

mutual

/-- Nothing is left to forget the second time. -/
@[simp]
theorem User.withoutDocId_withoutDocId (user : User) :
    user.withoutDocId.withoutDocId = user.withoutDocId := by
  cases user with
  | mk firstName lastName nick docId id mail friends playedGames wonGames lostGames
      wonCups notifications =>
      have inner := AddFriendNotification.withoutDocIds_withoutDocIds notifications
      simp only [User.withoutDocId, inner]
termination_by structural user

theorem AddFriendNotification.withoutDocId_withoutDocId
    (notification : AddFriendNotification) :
    notification.withoutDocId.withoutDocId = notification.withoutDocId := by
  cases notification with
  | mk date userFriend =>
      have inner := User.withoutDocId_withoutDocId userFriend
      simp only [AddFriendNotification.withoutDocId, inner]
termination_by structural notification

theorem AddFriendNotification.withoutDocIds_withoutDocIds
    (notifications : List AddFriendNotification) :
    AddFriendNotification.withoutDocIds
        (AddFriendNotification.withoutDocIds notifications) =
      AddFriendNotification.withoutDocIds notifications := by
  cases notifications with
  | nil => rfl
  | cons notification rest =>
      have first := AddFriendNotification.withoutDocId_withoutDocId notification
      have later := AddFriendNotification.withoutDocIds_withoutDocIds rest
      simp only [AddFriendNotification.withoutDocIds, first, later]
termination_by structural notifications

end

/-! ## Three users -/

def User.anna : User :=
  { firstName := "Anna", lastName := "Petrova", nick := "anna"
    docId := some "d1", id := some "u1" }

def User.boris : User :=
  { firstName := "Boris", lastName := "Ivanov", nick := "boris"
    docId := some "d2", id := some "u2" }

def User.vera : User :=
  { firstName := "Vera", lastName := "Orlova", nick := "vera"
    docId := some "d3", id := some "u3" }

end AnyCompetition
