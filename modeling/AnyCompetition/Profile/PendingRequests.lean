import AnyCompetition.Profile.AcceptedRequest
import AnyCompetition.Profile.RequestNesting

/-!
# Requests that reach the collection

A request is applied to the users stored when its write reaches the collection, with the
copies that its device had on the screen.  For the users it makes no difference how long
it has been on its way, nor do the accepts in between.  A copy is never nested deeper than
writes have been applied when it is read.
-/

namespace AnyCompetition.Profile.Friendship

open Json GuardedRun Database

/-- A device has these copies on the screen, over the users stored now. -/
def asking (users : List Document) (requestingUser receivingUser : User) : Requests where
  users
  friend _ := some (requestingUser, receivingUser)

variable {ι : Type} [DecidableEq ι] {c : Community ι} {s t : State ι}

namespace Community

/-- No user of the current version has two equal requests. -/
def OnePending (s : State ι) : Prop :=
  ∀ documents, s.versions.getLast? = some documents → Requests.OnePending { users := documents }

/-- A request is written to a user who has an equal one only when it is stored there with
the same map. -/
def RepeatsWholeMaps (s : State ι) : Action ι → Prop
  | .commit index => ∀ requestingUser receivingUser now documents,
      s.inFlight[index]? = some (.sendNotificationToAddToFriends requestingUser receivingUser now) →
      s.versions.getLast? = some documents →
      Requests.RepeatsWholeMaps (asking documents requestingUser receivingUser)
        (.tapAddToFriendButton "" now)
  | _ => True

/-- All users of all versions can be read. -/
def AllDecode (s : State ι) : Prop :=
  ∀ documents ∈ s.versions, ∀ document ∈ documents, (decodeUser document).isSome = true

theorem AllDecode.step (decode : AllDecode s) {action : Action ι}
    (hstep : c.step? s action = some t) : AllDecode t := by
  rcases versions_step hstep with hsame | ⟨current, write, hcurrent, hversions⟩
  · rw [AllDecode, hsame]
    exact decode
  · rw [AllDecode, hversions]
    intro documents membership document hdocument
    rcases List.mem_append.mp membership with earlier | last
    · exact decode documents earlier document hdocument
    · rw [List.mem_singleton.mp last] at hdocument
      obtain ⟨origin, horigin, keeps⟩ :=
        forall₂_exists_right (write.keeps current) hdocument
      exact keeps.decodes (decode current (List.mem_of_getLast? hcurrent) origin horigin)

/-- The commit of a request is the tap that sends it, on the users stored now. -/
theorem step?_asking (documents : List Document) (requestingUser receivingUser : User)
    (uid now : String) :
    (asking documents requestingUser receivingUser).step? (.tapAddToFriendButton uid now) =
      some { asking documents requestingUser receivingUser with
        users := (Write.sendNotificationToAddToFriends requestingUser receivingUser now).apply
          documents
        sent := 1 } :=
  rfl

/-- An accept leaves the requests of all users as they are. -/
theorem onePending_acceptFriend {documents : List Document}
    (once : Requests.OnePending { users := documents })
    (decode : ∀ document ∈ documents, (decodeUser document).isSome = true)
    (receivingUser user : User) :
    Requests.OnePending { users := Database.acceptFriend receivingUser documents user } := by
  intro document membership read hread
  rcases mem_acceptFriend membership with kept | ⟨before, hbefore, friendDocId, _, _, rfl⟩
  · exact once document kept read hread
  · obtain ⟨stored, hstored⟩ := Option.isSome_iff_exists.mp (decode before hbefore)
    rw [decodeUser_setFriends hstored] at hread
    cases hread
    exact once before hbefore stored hstored

theorem onePending_step_iff (decode : AllDecode s) (once : OnePending s) {action : Action ι}
    (hstep : c.step? s action = some t) : OnePending t ↔ RepeatsWholeMaps s action := by
  cases action with
  | commit index =>
      obtain ⟨write, documents, hwrite, hcurrent, rfl⟩ := commit_cases hstep
      have hnext : OnePending { s with
          versions := s.versions ++ [write.apply documents]
          inFlight := s.inFlight.eraseIdx index } ↔
          Requests.OnePending { users := write.apply documents } := by
        simp only [OnePending, List.getLast?_concat, Option.some.injEq, forall_eq']
      rw [hnext]
      cases write with
      | sendNotificationToAddToFriends requestingUser receivingUser now =>
          have hiff := Requests.onePending_tap_iff
            (s := asking documents requestingUser receivingUser) (once documents hcurrent)
            (step?_asking documents requestingUser receivingUser "" now)
          constructor
          · intro onceAfter _ _ _ _ hother hdocuments
            rw [hwrite] at hother
            cases hother
            rw [hcurrent] at hdocuments
            cases hdocuments
            exact hiff.mp onceAfter
          · exact fun guard => hiff.mpr (guard requestingUser receivingUser now documents hwrite
              hcurrent)
      | acceptFriend receivingUser user =>
          constructor
          · intro _ _ _ _ _ hother
            rw [hwrite] at hother
            cases hother
          · exact fun _ => onePending_acceptFriend (once documents hcurrent)
              (decode documents (List.mem_of_getLast? hcurrent)) receivingUser user
  | onScreens | tapAddToFriendButton | answer | fail =>
      have hversions := versions_eq (fun _ hcommit => by cases hcommit) hstep
      rw [OnePending, hversions]
      exact ⟨fun _ => trivial, fun _ => once⟩

/--
For every run of the community, however the profiles are read, the requests are delayed,
reordered or lost and accepts come in between: no stored user has two equal requests at
any time, if none has at the start, if and only if every request that is written to a
user who has an equal one is stored there with the same map.
-/
theorem pending_once_throughout_iff
    (decode : ∀ document ∈ c.documents, (decodeUser document).isSome = true)
    (once : Requests.OnePending { users := c.documents }) (actions : List (Action ι)) :
    Throughout c.step? OnePending c.start actions ↔
      Along c.step? RepeatsWholeMaps c.start actions := by
  refine throughout_iff_along AllDecode (fun decode _ _ hstep => decode.step hstep)
    (fun decode once hstep => onePending_step_iff decode once hstep) ?_ ?_
  · intro documents membership
    rw [List.mem_singleton.mp membership]
    exact decode
  · rintro documents ⟨⟩
    exact once

/-- A request that has been accepted is sent again with the old copy of its user, word for
word. -/
theorem pending_once_throughout_iff_two_users :
    let actions := asks ++ accepts ++ asks
    (run? twoUsers.step? twoUsers.start actions).any (fun final =>
      (final.versions.getLast?.bind fun documents => documents[1]?.map fun document =>
        (requestsIn document).length) = some 1) = true ∧
    (Throughout twoUsers.step? OnePending twoUsers.start actions ↔
      Along twoUsers.step? RepeatsWholeMaps twoUsers.start actions) := by
  intro actions
  exact ⟨by decide +kernel, pending_once_throughout_iff registered_twoUsers.decodes
    (by decide +kernel) actions⟩

/-! ## Nested requests -/

/-- The stored users, the copies of them and the requests on their way are nested at most
so deep. -/
structure NestedWithin (bound : Nat) (s : State ι) : Prop where
  tracked : Tracked
    (fun document => ∃ user, decodeUser document = some user ∧ user.nesting ≤ bound)
    (fun copy => copy.nesting ≤ bound) s
  requests : ∀ requestingUser receivingUser now,
    Write.sendNotificationToAddToFriends requestingUser receivingUser now ∈ s.inFlight →
      requestingUser.nesting ≤ bound

omit [DecidableEq ι] in
theorem NestedWithin.mono {bound later : Nat} (nested : NestedWithin bound s)
    (atMost : bound ≤ later) : NestedWithin later s where
  tracked := nested.tracked.imp
    (fun _ ⟨user, hdecode, hbound⟩ => ⟨user, hdecode, Nat.le_trans hbound atMost⟩)
    (fun _ hbound => Nat.le_trans hbound atMost)
  requests requestingUser receivingUser now membership :=
    Nat.le_trans (nested.requests requestingUser receivingUser now membership) atMost

omit [DecidableEq ι] in
/-- A request nests the copy that was sent one level deeper, and an accept nothing. -/
theorem NestedWithin.apply {bound : Nat} (nested : NestedWithin bound s) {write : Write}
    (hwrite : write ∈ s.inFlight) {documents : List Document} (hversion : documents ∈ s.versions) :
    ∀ document ∈ write.apply documents,
      ∃ user, decodeUser document = some user ∧ user.nesting ≤ bound + 1 := by
  have stored := nested.tracked.versions documents hversion
  intro document membership
  cases write with
  | sendNotificationToAddToFriends requestingUser receivingUser now =>
      have hrequesting := nested.requests requestingUser receivingUser now hwrite
      rcases mem_sendNotification membership with kept | ⟨before, hbefore, _, rfl⟩
      · obtain ⟨user, hdecode, hbound⟩ := stored document kept
        exact ⟨user, hdecode, Nat.le_succ_of_le hbound⟩
      · obtain ⟨receiver, hdecode, hbound⟩ := stored before hbefore
        exact Requests.nesting_addRequest hdecode hbound hrequesting
  | acceptFriend receivingUser user =>
      rcases mem_acceptFriend membership with kept | ⟨before, hbefore, friendDocId, _, _, rfl⟩
      · obtain ⟨user, hdecode, hbound⟩ := stored document kept
        exact ⟨user, hdecode, Nat.le_succ_of_le hbound⟩
      · obtain ⟨accepting, hdecode, hbound⟩ := stored before hbefore
        refine ⟨_, decodeUser_setFriends hdecode _, ?_⟩
        rw [User.nesting_eq] at hbound ⊢
        exact Nat.le_succ_of_le hbound

/-- Requests on their way carry the copy on the screen, or were on their way before. -/
theorem NestedWithin.requests_step {bound : Nat} (nested : NestedWithin bound s)
    {action : Action ι} (hstep : c.step? s action = some t) {requestingUser receivingUser : User}
    {now : String}
    (membership : .sendNotificationToAddToFriends requestingUser receivingUser now ∈ t.inFlight) :
    requestingUser.nesting ≤ bound := by
  cases action with
  | onScreens signIn tap =>
      obtain ⟨screens, _, rfl⟩ := Option.map_eq_some_iff.mp hstep
      exact nested.requests requestingUser receivingUser now membership
  | tapAddToFriendButton signIn date =>
      obtain ⟨screen, hscreen, rfl⟩ := Option.map_eq_some_iff.mp hstep
      rcases List.mem_append.mp membership with earlier | last
      · exact nested.requests requestingUser receivingUser now earlier
      · cases List.mem_singleton.mp last
        exact (nested.tracked.screens signIn).friend screen.1 screen.2 hscreen
  | answer signIn lookup version =>
      obtain ⟨asked, _, hrest⟩ := Option.bind_eq_some_iff.mp hstep
      obtain ⟨id, _, hrest⟩ := Option.bind_eq_some_iff.mp hrest
      obtain ⟨documents, _, hrest⟩ := Option.bind_eq_some_iff.mp hrest
      obtain ⟨found, _, rfl⟩ := Option.map_eq_some_iff.mp hrest
      rcases List.mem_append.mp membership with earlier | issued
      · exact nested.requests requestingUser receivingUser now earlier
      · obtain ⟨_, _, hother⟩ := List.mem_map.mp issued
        cases hother
  | commit index =>
      obtain ⟨_, _, _, _, rfl⟩ := commit_cases hstep
      exact nested.requests requestingUser receivingUser now (List.mem_of_mem_eraseIdx membership)
  | fail index =>
      rw [step?] at hstep
      split at hstep
      · cases hstep
        exact nested.requests requestingUser receivingUser now
          (List.mem_of_mem_eraseIdx membership)
      · cases hstep

theorem NestedWithin.step {bound later : Nat} (nested : NestedWithin bound s)
    (atMost : bound ≤ later) {action : Action ι} (hstep : c.step? s action = some t)
    (commits : ∀ index, action = .commit index → bound < later) : NestedWithin later t where
  tracked := by
    refine (nested.mono atMost).tracked.step_of_apply ?_ hstep ?_
    · rintro document copy ⟨user, hread, hbound⟩ hdecode
      rw [hread] at hdecode
      cases hdecode
      exact hbound
    · intro index write documents hcommit hwrite hcurrent document membership
      obtain ⟨user, hdecode, hbound⟩ := nested.apply (List.mem_of_getElem? hwrite)
        (List.mem_of_getLast? hcurrent) document membership
      exact ⟨user, hdecode, Nat.le_trans hbound (commits index hcommit)⟩
  requests _ _ _ membership := Nat.le_trans (nested.requests_step hstep membership) atMost

/-- The users of each version are nested at most as deep as there are versions before. -/
def NestedByVersion (s : State ι) : Prop :=
  ∀ version documents, s.versions[version]? = some documents →
    Requests.NestedWithin version { users := documents }

/-- What carries the bound along a run: it holds of everything, up to the last version. -/
structure NestedVersions (s : State ι) : Prop where
  within : ∃ bound, s.versions.length = bound + 1 ∧ NestedWithin bound s
  byVersion : NestedByVersion s

theorem NestedVersions.step (nested : NestedVersions s) {action : Action ι}
    (hstep : c.step? s action = some t) : NestedVersions t := by
  obtain ⟨bound, hlength, within⟩ := nested.within
  by_cases hcommit : ∃ index, action = .commit index
  · obtain ⟨index, rfl⟩ := hcommit
    have after := within.step (Nat.le_succ bound) hstep fun _ _ => Nat.lt_succ_self bound
    obtain ⟨write, current, _, _, rfl⟩ := commit_cases hstep
    refine ⟨⟨bound + 1, ?_, after⟩, ?_⟩
    · rw [List.length_append, hlength]
      rfl
    · intro version documents hversion
      rw [List.getElem?_append, hlength] at hversion
      split at hversion
      · exact nested.byVersion version documents hversion
      · rename_i hlast
        have hdocuments := List.mem_of_getElem? hversion
        intro document membership
        obtain ⟨user, hdecode, hbound⟩ := after.tracked.versions documents
          (List.mem_append_right _ hdocuments) document membership
        exact ⟨user, hdecode, Nat.le_trans hbound (Nat.le_of_not_lt hlast)⟩
  · have quiet : ∀ index, action ≠ .commit index := fun index same => hcommit ⟨index, same⟩
    have hversions := versions_eq quiet hstep
    refine ⟨⟨bound, by rw [hversions, hlength], ?_⟩, ?_⟩
    · exact within.step (Nat.le_refl bound) hstep fun index same => absurd same (quiet index)
    · rw [NestedByVersion, hversions]
      exact nested.byVersion

omit [DecidableEq ι] in
theorem nestedVersions_start (empty : Requests.WithoutRequests c.documents) :
    NestedVersions c.start := by
  have stored : ∀ document ∈ c.documents,
      ∃ user, decodeUser document = some user ∧ user.nesting ≤ 0 := by
    intro document membership
    obtain ⟨user, hdecode, hempty⟩ := empty document membership
    exact ⟨user, hdecode, Requests.nesting_le_zero hempty⟩
  refine ⟨⟨0, rfl, tracked_start stored, fun _ _ _ membership => by cases membership⟩, ?_⟩
  intro version documents hversion
  cases version with
  | zero =>
      cases hversion
      exact stored
  | succ version => cases hversion

/--
When no user has requests at the start, then in every run of the community, with profiles
read from any version and requests that come late, in any order or never, the users of
each version are nested at most as deep as writes have been applied before.
-/
theorem nested_by_version_throughout (empty : Requests.WithoutRequests c.documents)
    (actions : List (Action ι)) : Throughout c.step? NestedByVersion c.start actions :=
  (throughout_of_preserved (fun nested hstep => nested.step hstep) (nestedVersions_start empty)
    actions).imp fun nested => nested.byVersion

/-- The second user has received a request and asks back: the request of the first is then
stored inside that of the second. -/
theorem nested_by_version_throughout_two_users :
    let actions : List (Action Bool) := asks ++ [
      .onScreens true (.requestUserData 1), .onScreens true .tapAddFriendButton,
      .onScreens true (.getAllUsers 0), .onScreens true (.text "ann"),
      .onScreens true (.didSelectRowAt 0),
      .tapAddToFriendButton true "2022-12-20 10:00:01 +0000", .commit 0]
    ∃ final documents, run? twoUsers.step? twoUsers.start actions = some final ∧
      final.versions[2]? = some documents ∧ Requests.NestedWithin 2 { users := documents } := by
  intro actions
  have hcheck : ((run? twoUsers.step? twoUsers.start actions).bind fun final =>
      final.versions[2]?).isSome = true := by
    decide +kernel
  obtain ⟨documents, hbind⟩ := Option.isSome_iff_exists.mp hcheck
  obtain ⟨final, hrun, hversion⟩ := Option.bind_eq_some_iff.mp hbind
  have empty : Requests.WithoutRequests twoUsers.documents := by
    intro document membership
    rcases List.mem_pair.mp membership with rfl | rfl
    · exact ⟨_, decodeUser_addUser _ _, rfl⟩
    · exact ⟨_, decodeUser_addUser _ _, rfl⟩
  have nested : NestedByVersion final := (nested_by_version_throughout empty actions).last hrun
  exact ⟨final, documents, hrun, hversion, nested 2 documents hversion⟩

end Community

end AnyCompetition.Profile.Friendship
