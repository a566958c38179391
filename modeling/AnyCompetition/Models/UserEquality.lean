import AnyCompetition.Models.User

/-!
# Users up to equality

The hand-written equality of users is equality of what it compares: the names and the
nick, here and in the users nested in the requests.  So it is an equivalence, and it
does not see whether a user has been stored and read back.
-/

namespace AnyCompetition

mutual

/-- A user with only what `==` compares. -/
def User.compared : User → User
  | user@{ notificationArray := notifications, .. } =>
      { firstName := user.firstName
        lastName := user.lastName
        nick := user.nick
        notificationArray := AddFriendNotification.comparedAll notifications }
termination_by structural user => user

def AddFriendNotification.compared : AddFriendNotification → AddFriendNotification
  | ⟨_, userFriend⟩ => ⟨"", userFriend.compared⟩
termination_by structural notification => notification

def AddFriendNotification.comparedAll :
    List AddFriendNotification → List AddFriendNotification
  | [] => []
  | notification :: rest =>
      notification.compared :: AddFriendNotification.comparedAll rest
termination_by structural notifications => notifications

end

mutual

theorem User.beq_iff_compared (lhs rhs : User) :
    User.beq lhs rhs = true ↔ lhs.compared = rhs.compared := by
  cases lhs with
  | mk firstName lastName nick docId id mail friends playedGames wonGames lostGames
      wonCups notifications =>
      have inner := AddFriendNotification.beqAll_iff_compared notifications
      cases rhs
      simp only [User.beq, User.compared, User.mk.injEq, Bool.and_eq_true, beq_iff_eq, inner,
        and_assoc, true_and]
termination_by structural lhs

theorem AddFriendNotification.beq_iff_compared (lhs rhs : AddFriendNotification) :
    AddFriendNotification.beq lhs rhs = true ↔ lhs.compared = rhs.compared := by
  cases lhs with
  | mk date userFriend =>
      have inner := User.beq_iff_compared userFriend
      cases rhs
      simp only [AddFriendNotification.beq, AddFriendNotification.compared,
        AddFriendNotification.mk.injEq, inner, true_and]
termination_by structural lhs

theorem AddFriendNotification.beqAll_iff_compared (lefts rights : List AddFriendNotification) :
    AddFriendNotification.beqAll lefts rights = true ↔
      AddFriendNotification.comparedAll lefts = AddFriendNotification.comparedAll rights := by
  cases lefts with
  | nil =>
      cases rights with
      | nil => exact ⟨fun _ => rfl, fun _ => rfl⟩
      | cons right rights => simp [AddFriendNotification.beqAll, AddFriendNotification.comparedAll]
  | cons left lefts =>
      cases rights with
      | nil => simp [AddFriendNotification.beqAll, AddFriendNotification.comparedAll]
      | cons right rights =>
          have first := AddFriendNotification.beq_iff_compared left right
          have later := AddFriendNotification.beqAll_iff_compared lefts rights
          simp only [AddFriendNotification.beqAll, AddFriendNotification.comparedAll,
            Bool.and_eq_true, List.cons.injEq, first, later]
termination_by structural lefts

end

theorem User.beq_eq_true_iff {lhs rhs : User} :
    (lhs == rhs) = true ↔ lhs.compared = rhs.compared :=
  User.beq_iff_compared lhs rhs

instance : EquivBEq User where
  rfl := User.beq_eq_true_iff.mpr rfl
  symm hequal := User.beq_eq_true_iff.mpr (User.beq_eq_true_iff.mp hequal).symm
  trans first second := User.beq_eq_true_iff.mpr
    ((User.beq_eq_true_iff.mp first).trans (User.beq_eq_true_iff.mp second))

end AnyCompetition
