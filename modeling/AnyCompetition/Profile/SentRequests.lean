import AnyCompetition.Database.Friends
import AnyCompetition.Database.Requests
import AnyCompetition.Library.GuardedRun

/-!
# Sending friend requests

Every device asks with its own copy of the signed-in user, taken when the profile was
loaded and handed on to the screen of the chosen user.  Requests are equal by the
user who asks, but are stored once only when their whole maps are equal: a user has
at most one of equal requests as long as each is repeated word for word.  A request is
taken here at the moment at which its write is applied.
-/

namespace AnyCompetition.Profile

open Json GuardedRun Database

/-- The devices are named by the ids of their users. -/
structure Requests where
  users : List Document
  /-- `ProfileViewController.hostUser`. -/
  hostUser : String → Option User := fun _ => none
  /-- The host user and the chosen user of `FriendViewController`. -/
  friend : String → Option (User × User) := fun _ => none
  /-- The number of requests sent so far. -/
  sent : Nat := 0

namespace Requests

inductive Action where
  | requestUserData (uid : String)
  | openFriendViewController (uid : String) (choosedUser : User)
  | tapAddToFriendButton (uid : String) (now : String)

def step? (s : Requests) : Action → Option Requests
  | .requestUserData uid =>
      match getUserData uid s.users with
      | .error _ => none
      | .ok received =>
          some { s with
            hostUser := Function.update s.hostUser uid
              (received.foldl (fun _ user => some user) (s.hostUser uid)) }
  | .openFriendViewController uid choosedUser =>
      (s.hostUser uid).map fun hostUser =>
        { s with friend := Function.update s.friend uid (some (hostUser, choosedUser)) }
  | .tapAddToFriendButton uid now =>
      (s.friend uid).map fun screen =>
        { s with
          users := sendNotificationToAddToFriends screen.1 screen.2 now s.users
          sent := s.sent + 1 }

/-- No stored user has two equal requests. -/
def OnePending (s : Requests) : Prop :=
  ∀ document ∈ s.users, ∀ user, decodeUser document = some user →
    user.notificationArray.Pairwise fun first second => (first == second) = false

instance (s : Requests) : Decidable (OnePending s) :=
  inferInstanceAs (Decidable (∀ document ∈ s.users, ∀ user ∈ decodeUser document,
    user.notificationArray.Pairwise fun first second => (first == second) = false))

/-- A request is sent to a user who has an equal one only when it is stored there with
the same map. -/
def RepeatsWholeMaps (s : Requests) : Action → Prop
  | .tapAddToFriendButton uid now => ∀ requestingUser receivingUser document user,
      s.friend uid = some (requestingUser, receivingUser) → document ∈ s.users →
      receivingUser.docId = some document.documentID → decodeUser document = some user →
      (∃ stored ∈ user.notificationArray, stored == ⟨now, requestingUser⟩) →
      HasRequest document ⟨now, requestingUser⟩
  | _ => True

variable {s t : Requests}

/-- A stored request is equal to a request just when it is equal to its stored copy. -/
theorem eq_withoutDocId (stored notification : AddFriendNotification) :
    (stored == notification.withoutDocId) = (stored == notification) :=
  AddFriendNotification.beq_withoutDocId stored notification

theorem onePending_tap_iff (once : OnePending s) {uid now : String}
    (hstep : s.step? (.tapAddToFriendButton uid now) = some t) :
    OnePending t ↔ RepeatsWholeMaps s (.tapAddToFriendButton uid now) := by
  obtain ⟨⟨requestingUser, receivingUser⟩, hfriend, rfl⟩ := Option.map_eq_some_iff.mp hstep
  constructor
  · intro onceAfter asks receives document user hscreen hdocument hdocId hdecode hequal
    rw [hfriend] at hscreen
    cases hscreen
    obtain ⟨stored, hstored, hequal⟩ := hequal
    by_contra new
    have hpairwise := onceAfter _ (addRequest_mem_sendNotification hdocument hdocId) _
      (decodeUser_addRequest_of_decodes hdecode)
    rw [if_neg new] at hpairwise
    have hdifferent := (List.pairwise_append.mp hpairwise).2.2 stored hstored _
      List.mem_cons_self
    rw [eq_withoutDocId, hequal] at hdifferent
    cases hdifferent
  · intro guard document membership user hdecode
    rcases mem_sendNotification membership with kept | ⟨before, hbefore, hdocId, rfl⟩
    · exact once document kept user hdecode
    · cases hold : decodeUser before with
      | none =>
          rw [notificationArray_of_addRequest hold hdecode]
          exact List.pairwise_singleton _ _
      | some receiver =>
          rw [decodeUser_addRequest_of_decodes hold, Option.some.injEq] at hdecode
          rw [← hdecode]
          have hbeforePairwise := once before hbefore receiver hold
          split
          · exact hbeforePairwise
          · rename_i new
            refine List.pairwise_append.mpr ⟨hbeforePairwise, List.pairwise_singleton _ _, ?_⟩
            intro stored hstored added hadded
            rw [List.mem_singleton.mp hadded, eq_withoutDocId, ← Bool.not_eq_true]
            intro hequal
            exact new (guard requestingUser receivingUser before receiver hfriend hbefore hdocId
              hold ⟨stored, hstored, hequal⟩)

/-- A profile that is loaded is found in the collection. -/
theorem requestUserData_cases {uid : String} (hstep : s.step? (.requestUserData uid) = some t) :
    ∃ received, getUserData uid s.users = .ok received ∧ t = { s with
      hostUser := Function.update s.hostUser uid
        (received.foldl (fun _ user => some user) (s.hostUser uid)) } := by
  rw [step?] at hstep
  split at hstep
  · cases hstep
  · rename_i received hfound
    cases hstep
    exact ⟨received, hfound, rfl⟩

theorem onePending_step_iff (once : OnePending s) {action : Action}
    (hstep : s.step? action = some t) : OnePending t ↔ RepeatsWholeMaps s action := by
  cases action with
  | tapAddToFriendButton uid now => exact onePending_tap_iff once hstep
  | openFriendViewController uid choosedUser =>
      obtain ⟨hostUser, _, rfl⟩ := Option.map_eq_some_iff.mp hstep
      exact ⟨fun _ => trivial, fun _ => once⟩
  | requestUserData uid =>
      obtain ⟨received, _, rfl⟩ := requestUserData_cases hstep
      exact ⟨fun _ => trivial, fun _ => once⟩

/-! ## Two users -/

/-- Two users without requests. -/
def registered : Requests where
  users := [⟨"d1", addUser .anna⟩, ⟨"d2", addUser .boris⟩]

theorem onePending_registered : OnePending registered := by
  intro document membership user hdecode
  rcases List.mem_pair.mp membership with rfl | rfl
  · rw [decodeUser_addUser] at hdecode
    cases hdecode
    exact List.Pairwise.nil
  · rw [decodeUser_addUser] at hdecode
    cases hdecode
    exact List.Pairwise.nil

/--
For every run of loaded profiles and of requests from any users to any others: no
stored user has two equal requests in any state, if it has none at the start, if and only
if every request written to a user who has an equal one is stored there with the same map.
-/
theorem onePending_throughout_iff {initial : Requests} (once : OnePending initial)
    (actions : List Action) :
    Throughout step? OnePending initial actions ↔ Along step? RepeatsWholeMaps initial actions :=
  throughout_iff_along_of_step_iff (fun once hstep => onePending_step_iff once hstep) once
    actions

/-- The same request twice within one second is stored once. -/
theorem onePending_throughout_iff_registered :
    let actions : List Action := [
      .requestUserData "u1", .openFriendViewController "u1" .boris,
      .tapAddToFriendButton "u1" "2022-12-20 10:00:00 +0000",
      .tapAddToFriendButton "u1" "2022-12-20 10:00:00 +0000"]
    (Throughout step? OnePending registered actions ↔
      Along step? RepeatsWholeMaps registered actions) ∧
    ∃ final, run? step? registered actions = some final ∧ final.sent = 2 ∧ OnePending final := by
  intro actions
  refine ⟨onePending_throughout_iff onePending_registered actions, ?_⟩
  have hcheck : (run? step? registered actions).any (fun final =>
      final.sent = 2 ∧ OnePending final) = true := by
    decide +kernel
  obtain ⟨final, hrun, hfinal⟩ := (Option.any_eq_true _ _).mp hcheck
  exact ⟨final, hrun, of_decide_eq_true hfinal⟩

/-- The same user asks again a second later, and both requests are stored. -/
theorem second_request_is_stored :
    OnePending registered ∧
    ∃ final, run? step? registered
        [.requestUserData "u1", .openFriendViewController "u1" .boris,
         .tapAddToFriendButton "u1" "2022-12-20 10:00:00 +0000",
         .tapAddToFriendButton "u1" "2022-12-20 10:00:01 +0000"] = some final ∧
      ¬ OnePending final := by
  refine ⟨onePending_registered, ?_⟩
  have hcheck : (run? step? registered
      [.requestUserData "u1", .openFriendViewController "u1" .boris,
       .tapAddToFriendButton "u1" "2022-12-20 10:00:00 +0000",
       .tapAddToFriendButton "u1" "2022-12-20 10:00:01 +0000"]).any (fun final =>
        ¬ OnePending final) = true := by
    decide +kernel
  obtain ⟨final, hrun, hfinal⟩ := (Option.any_eq_true _ _).mp hcheck
  exact ⟨final, hrun, of_decide_eq_true hfinal⟩

end Requests

end AnyCompetition.Profile
