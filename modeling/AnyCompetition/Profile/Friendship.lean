import AnyCompetition.Controllers.UserSearch
import AnyCompetition.Database.Friends
import AnyCompetition.Database.Requests
import AnyCompetition.Library.RunHistory
import Mathlib.Data.List.Nodup
import Mathlib.Logic.Function.Basic

/-!
# How users become friends

The screens of the profile hand copies of the signed-in user on to each other.  The
users collection answers from any version it ever had, and what is written reaches it
in any order or not at all.
-/

namespace AnyCompetition

open Json GuardedRun Database

/-- The user handed over by a tap on any of the friends. -/
def FriendsCollectionView.didSelectItemAt : User :=
  { firstName := "a", lastName := "sdfsd", nick := "sdfsdf" }

namespace Profile.Friendship

/-- A write that has not reached the collection yet. -/
inductive Write where
  | sendNotificationToAddToFriends (requestingUser receivingUser : User) (now : String)
  /-- From the completion of `acceptFriendRequesr`, called with a user. -/
  | acceptFriend (receivingUser user : User)

def Write.apply (documents : List Document) : Write → List Document
  | .sendNotificationToAddToFriends requestingUser receivingUser now =>
      Database.sendNotificationToAddToFriends requestingUser receivingUser now documents
  | .acceptFriend receivingUser user => Database.acceptFriend receivingUser documents user

/-- The screens opened last after a sign-in. -/
structure Screens where
  /-- `ProfileViewController.hostUser`. -/
  hostUser : Option User := none
  /-- The host user and the search of `FindToAddUserViewController`. -/
  findToAddUser : Option (Option User × UserSearch) := none
  /-- The host user of `FriendsViewController`. -/
  friends : Option (Option User) := none
  /-- The host user and the chosen user of `FriendViewController`. -/
  friend : Option (User × User) := none
  /-- The host user of `NotificationsViewController`. -/
  notifications : Option User := none
  /-- The host user and the requesting user of `NotificationViewController`. -/
  notification : Option (User × User) := none
  /-- The host and the requesting users of the accepts whose lookup has no answer yet. -/
  lookups : List (User × User) := []

/-- What happens on the screens alone. -/
inductive Tap where
  /-- The answer to `requestUserData`, from a version of the collection. -/
  | requestUserData (version : Nat)
  | presentNotificationController
  /-- A tap on one of the notifications. -/
  | tapToNotification (index : Nat)
  | tapAcceptButton
  | tapDeclineButton
  | tapAddFriendButton
  /-- The answer to `getAllUsers` of `FindToAddUserViewController`. -/
  | getAllUsers (version : Nat)
  | text (query : String)
  /-- A tap on one of the users found. -/
  | didSelectRowAt (index : Nat)
  | tapFriendButton
  /-- A tap on a friend in the profile. -/
  | tapToCell
  /-- A tap on a friend in `FriendsViewController`. -/
  | tapToCellOfFriends

inductive Action (ι : Type) where
  | onScreens (signIn : ι) (tap : Tap)
  | tapAddToFriendButton (signIn : ι) (now : String)
  /-- The answer to the lookup of an accept, from a version of the collection. -/
  | answer (signIn : ι) (lookup version : Nat)
  | commit (write : Nat)
  | fail (write : Nat)

/-- The sign-ins with their uids, and the users stored at the start. -/
structure Community (ι : Type) where
  uid : ι → String
  documents : List Document
  distinct : (documents.map Document.documentID).Nodup
  hasPrefix : String → String → Bool

/-- A document of the start is known by its id. -/
theorem Community.eq_of_documentID {ι : Type} {c : Community ι} {first second : Document}
    (hfirst : first ∈ c.documents) (hsecond : second ∈ c.documents)
    (same : first.documentID = second.documentID) : first = second :=
  List.inj_on_of_nodup_map c.distinct hfirst hsecond same

structure State (ι : Type) where
  /-- The versions of the users collection, the current one last. -/
  versions : List (List Document)
  screens : ι → Screens := fun _ => {}
  inFlight : List Write := []

variable {ι : Type} [DecidableEq ι]

namespace Screens

/-- A tap on a friend, in the profile and in `FriendsViewController`. -/
def tapToCell (screens : Screens) (hostUser : Option User) (user : User) : Screens :=
  match hostUser with
  | some hostUser => { screens with friend := some (hostUser, user) }
  | none => screens

/-- The requesting user is looked up, unless it has no id. -/
def acceptFriendRequesr (screens : Screens) (requestingUser receivingUser : User) : Screens :=
  if requestingUser.id.isSome then
    { screens with lookups := screens.lookups ++ [(receivingUser, requestingUser)] }
  else screens

def step? (c : Community ι) (signIn : ι) (versions : List (List Document))
    (screens : Screens) : Tap → Option Screens
  | .requestUserData version =>
      versions[version]?.bind fun documents =>
        (getUserData (c.uid signIn) documents).toOption.map fun received =>
          { screens with hostUser := received.foldl (fun _ user => some user) screens.hostUser }
  | .presentNotificationController =>
      screens.hostUser.map fun hostUser => { screens with notifications := some hostUser }
  | .tapToNotification index =>
      screens.notifications.bind fun hostUser =>
        hostUser.notificationArray[index]?.map fun notification =>
          { screens with notification := some (hostUser, notification.userFriend) }
  | .tapAcceptButton =>
      screens.notification.map fun screen => screens.acceptFriendRequesr screen.2 screen.1
  | .tapDeclineButton => screens.notification.map fun _ => screens
  | .tapAddFriendButton =>
      some { screens with
        findToAddUser := some
          (screens.hostUser, UserSearch.viewDidLoad .findToAddUserViewController) }
  | .getAllUsers version =>
      screens.findToAddUser.bind fun find =>
        versions[version]?.map fun documents =>
          { screens with
            findToAddUser := some
              (find.1, find.2.addObserverToUser (Database.getAllUsers documents)) }
  | .text query =>
      screens.findToAddUser.bind fun find =>
        (find.2.step? c.hasPrefix .findToAddUserViewController (.text query)).map fun search =>
          { screens with findToAddUser := some (find.1, search) }
  | .didSelectRowAt index =>
      screens.findToAddUser.bind fun find =>
        find.2.searchTable.foundUsers[index]?.bind fun choosedUser =>
          find.1.map fun hostUser => { screens with friend := some (hostUser, choosedUser) }
  | .tapFriendButton => some { screens with friends := some screens.hostUser }
  | .tapToCell =>
      some (screens.tapToCell screens.hostUser FriendsCollectionView.didSelectItemAt)
  | .tapToCellOfFriends =>
      screens.friends.map fun hostUser =>
        screens.tapToCell hostUser FriendsCollectionView.didSelectItemAt

end Screens

namespace Community

def start (c : Community ι) : State ι where
  versions := [c.documents]

def step? (c : Community ι) (s : State ι) : Action ι → Option (State ι)
  | .onScreens signIn tap =>
      ((s.screens signIn).step? c signIn s.versions tap).map fun screens =>
        { s with screens := Function.update s.screens signIn screens }
  | .tapAddToFriendButton signIn now =>
      (s.screens signIn).friend.map fun screen =>
        { s with
          inFlight := s.inFlight ++
            [.sendNotificationToAddToFriends screen.1 screen.2 now] }
  | .answer signIn lookup version =>
      (s.screens signIn).lookups[lookup]?.bind fun asked =>
        asked.2.id.bind fun frienduid =>
          s.versions[version]?.bind fun documents =>
            (getUserData frienduid documents).toOption.map fun found =>
              { s with
                screens := Function.update s.screens signIn { s.screens signIn with
                  lookups := (s.screens signIn).lookups.eraseIdx lookup }
                inFlight := s.inFlight ++ found.map (Write.acceptFriend asked.1) }
  | .commit write =>
      s.inFlight[write]?.bind fun issued =>
        s.versions.getLast?.map fun documents =>
          { s with
            versions := s.versions ++ [issued.apply documents]
            inFlight := s.inFlight.eraseIdx write }
  | .fail write =>
      if write < s.inFlight.length then
        some { s with inFlight := s.inFlight.eraseIdx write }
      else none

/-! ## What reaches the collection -/

variable {c : Community ι} {s t : State ι}

/-- A write is applied to the current version. -/
theorem commit_cases {index : Nat} (hstep : c.step? s (.commit index) = some t) :
    ∃ write documents, s.inFlight[index]? = some write ∧
      s.versions.getLast? = some documents ∧
      t = { s with
        versions := s.versions ++ [write.apply documents]
        inFlight := s.inFlight.eraseIdx index } := by
  obtain ⟨write, hwrite, hrest⟩ := Option.bind_eq_some_iff.mp hstep
  obtain ⟨documents, hcurrent, rfl⟩ := Option.map_eq_some_iff.mp hrest
  exact ⟨write, documents, hwrite, hcurrent, rfl⟩

/-- Nothing is written otherwise. -/
theorem versions_eq {action : Action ι} (quiet : ∀ index, action ≠ .commit index)
    (hstep : c.step? s action = some t) : t.versions = s.versions := by
  cases action with
  | commit index => exact absurd rfl (quiet index)
  | onScreens signIn tap =>
      obtain ⟨screens, _, rfl⟩ := Option.map_eq_some_iff.mp hstep
      rfl
  | tapAddToFriendButton signIn now =>
      obtain ⟨screen, _, rfl⟩ := Option.map_eq_some_iff.mp hstep
      rfl
  | answer signIn lookup version =>
      obtain ⟨asked, _, hrest⟩ := Option.bind_eq_some_iff.mp hstep
      obtain ⟨id, _, hrest⟩ := Option.bind_eq_some_iff.mp hrest
      obtain ⟨documents, _, hrest⟩ := Option.bind_eq_some_iff.mp hrest
      obtain ⟨found, _, rfl⟩ := Option.map_eq_some_iff.mp hrest
      rfl
  | fail index =>
      rw [step?] at hstep
      split at hstep
      · cases hstep
        rfl
      · cases hstep

/-! ## Two users -/

/-- The user with the first of the documents is signed in on the one device, the other
user on the other. -/
def twoUsers : Community Bool where
  uid signIn := if signIn then "u2" else "u1"
  documents := [⟨"d1", addUser .anna⟩,
    ⟨"d2", addUser { User.boris with friends := some [] }⟩]
  distinct := by decide
  hasPrefix := UserSearch.startsWith

/-- The first user finds the second and sends a request. -/
def asks : List (Action Bool) := [
  .onScreens false (.requestUserData 0), .onScreens false .tapAddFriendButton,
  .onScreens false (.getAllUsers 0), .onScreens false (.text "bor"),
  .onScreens false (.didSelectRowAt 0),
  .tapAddToFriendButton false "2022-12-20 10:00:00 +0000", .commit 0]

/-- The second user accepts it. -/
def accepts : List (Action Bool) := [
  .onScreens true (.requestUserData 1), .onScreens true .presentNotificationController,
  .onScreens true (.tapToNotification 0), .onScreens true .tapAcceptButton,
  .answer true 0 0, .commit 0]

end Community

end Profile.Friendship

end AnyCompetition
