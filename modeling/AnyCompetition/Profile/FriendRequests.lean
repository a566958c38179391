import AnyCompetition.Library.EachOnce
import AnyCompetition.Profile.HostCopies

/-!
# Accepting friend requests

The profile of the signed-in user is a copy of its document, handed on to the screen of
all requests and from there to the screen of one.  An accept writes the friends of that
copy with one more, once its lookup is answered and the write has reached the collection.
It keeps all friends exactly when the copy has a list of friends, without the requester
and with everybody else who is stored by then.
-/

namespace AnyCompetition.Profile.Friendship

open Json GuardedRun Database

/-- The community, and the friends that its users should have. -/
structure Accepting (ι : Type) where
  state : State ι
  /-- By document id, the initial friends and then the requesters accepted so far. -/
  expected : String → List String

/-- The friend is new in the copy, which has a list of friends and everybody else who is
stored. -/
def IsFresh (copy : User) (friend : String) (document : Document) : Prop :=
  ∃ friends, copy.friends = some friends ∧ friend ∉ friends ∧
    ∀ other ∈ friendsIn document, other ≠ friend → other ∈ friends

namespace Accepting

variable {ι : Type}

/-- A user is expected to keep its friends of the start. -/
def start (c : Community ι) : Accepting ι where
  state := c.start
  expected docId :=
    ((c.documents.find? fun document => document.documentID = docId).map friendsIn).getD []

/-- A requester is accepted when the write of the accept is applied. -/
def expect (expected : String → List String) : Write → String → List String
  | .sendNotificationToAddToFriends .. => expected
  | .acceptFriend receivingUser user =>
      match receivingUser.docId, user.docId with
      | some docId, some friendDocId =>
          Function.update expected docId (expected docId ++ [friendDocId])
      | _, _ => expected

def expectedAfter (s : Accepting ι) : Action ι → String → List String
  | .commit index =>
      match s.state.inFlight[index]? with
      | some write => expect s.expected write
      | none => s.expected
  | _ => s.expected

def step? [DecidableEq ι] (c : Community ι) (s : Accepting ι) (action : Action ι) :
    Option (Accepting ι) :=
  (c.step? s.state action).map fun state => { state, expected := s.expectedAfter action }

/-- The current documents of the users. -/
def stored (s : Accepting ι) : List Document :=
  s.state.versions.getLast?.getD []

/-- Every user has each initial friend and each requester accepted so far exactly once. -/
def KeepsFriends (s : Accepting ι) : Prop :=
  ∀ document ∈ s.stored, EachOnce (s.expected document.documentID) (friendsIn document)

/-- An accept is written from a copy of the user that has a list of friends, without the
requester and with every other friend stored at that time. -/
def WritesFresh (s : Accepting ι) : Action ι → Prop
  | .commit index => ∀ receivingUser user friendDocId,
      s.state.inFlight[index]? = some (.acceptFriend receivingUser user) →
      user.docId = some friendDocId →
      ∀ document ∈ s.stored, receivingUser.docId = some document.documentID →
        IsFresh receivingUser friendDocId document
  | _ => True

/-! ## The invariant -/

/-- A document has no friend twice, and nobody who is not expected. -/
def Known (expected : String → List String) (document : Document) : Prop :=
  (friendsIn document).Nodup ∧
    ∀ friend ∈ friendsIn document, friend ∈ expected document.documentID

/-- So does a copy, of any age, of the user of a document. -/
def Copied (expected : String → List String) (copy : User) : Prop :=
  (copy.friends.getD []).Nodup ∧ ∀ docId, copy.docId = some docId →
    ∀ friend ∈ copy.friends.getD [], friend ∈ expected docId

/-- All documents, copies and writes are known. -/
abbrev Sound (s : Accepting ι) : Prop :=
  Community.Tracked (Known s.expected) (Copied s.expected) s.state

theorem Known.copied {expected : String → List String} (document : Document) (copy : User)
    (known : Known expected document) (decoded : decodeUser document = some copy) :
    Copied expected copy := by
  rw [Known, friendsIn_of_decodes decoded] at known
  refine ⟨known.1, ?_⟩
  intro docId hdocId
  rw [decodeUser_docId decoded] at hdocId
  cases hdocId
  exact known.2

theorem Known.addRequest {expected : String → List String} {document : Document}
    (known : Known expected document) (notification : AddFriendNotification) :
    Known expected (addRequest notification document) := by
  rw [Known, friendsIn_addRequest]
  exact known

theorem expect_acceptFriend {expected : String → List String} {receivingUser user : User}
    {docId friendDocId : String} (hdocId : receivingUser.docId = some docId)
    (hfriend : user.docId = some friendDocId) :
    expect expected (.acceptFriend receivingUser user) =
      Function.update expected docId (expected docId ++ [friendDocId]) := by
  rw [expect, hdocId, hfriend]

/-- What is expected stays so. -/
theorem mem_expect {expected : String → List String} {docId friend : String}
    (membership : friend ∈ expected docId) (write : Write) :
    friend ∈ expect expected write docId := by
  cases write with
  | sendNotificationToAddToFriends => exact membership
  | acceptFriend receivingUser user =>
      cases hdocId : receivingUser.docId with
      | none =>
          rw [expect, hdocId]
          exact membership
      | some receiver =>
          cases hfriend : user.docId with
          | none =>
              rw [expect, hdocId, hfriend]
              exact membership
          | some friendDocId =>
              rw [expect_acceptFriend hdocId hfriend]
              by_cases hsame : docId = receiver
              · subst hsame
                rw [Function.update_self]
                exact List.mem_append_left _ membership
              · rw [Function.update_of_ne hsame]
                exact membership

/-- The friends written are known when the copy is fresh. -/
theorem Known.setFriends {expected : String → List String} {document : Document} {copy : User}
    {friendDocId : String} (copied : Copied expected copy)
    (hdocId : copy.docId = some document.documentID) (fresh : IsFresh copy friendDocId document)
    {user : User} (hfriend : user.docId = some friendDocId) :
    Known (expect expected (.acceptFriend copy user)) { document with
      data := setKey document.data "friends"
        (ofOption (fun friends => .array (friends.map .string))
          (copy.friends.map fun friends => friends ++ [friendDocId])) } := by
  obtain ⟨friends, hfriends, hnew, _⟩ := fresh
  obtain ⟨hnodup, hexpected⟩ := copied
  rw [hfriends] at hnodup hexpected
  rw [Known, friendsIn_setFriends, hfriends, expect_acceptFriend hdocId hfriend,
    Function.update_self]
  constructor
  · simpa using hnodup.concat hnew
  · intro friend membership
    rcases List.mem_append.mp membership with before | last
    · exact List.mem_append_left _ (hexpected document.documentID hdocId friend before)
    · exact List.mem_append_right _ last

/-- A write that meets the guard leaves every document known. -/
theorem known_apply {expected : String → List String} {write : Write}
    {documents : List Document} (known : ∀ document ∈ documents, Known expected document)
    (copied : ∀ receivingUser user, write = .acceptFriend receivingUser user →
      Copied expected receivingUser)
    (guard : ∀ receivingUser user friendDocId, write = .acceptFriend receivingUser user →
      user.docId = some friendDocId → ∀ document ∈ documents,
        receivingUser.docId = some document.documentID →
          IsFresh receivingUser friendDocId document) :
    ∀ document ∈ write.apply documents, Known (expect expected write) document := by
  intro document membership
  cases write with
  | sendNotificationToAddToFriends requestingUser receivingUser now =>
      rcases mem_sendNotification membership with kept | ⟨before, hbefore, _, rfl⟩
      · exact known document kept
      · exact (known before hbefore).addRequest _
  | acceptFriend receivingUser user =>
      rcases Community.mem_acceptFriend membership with
        kept | ⟨before, hbefore, friendDocId, hdocId, hfriend, rfl⟩
      · exact ⟨(known document kept).1, fun friend hmember =>
          mem_expect ((known document kept).2 friend hmember) _⟩
      · exact Known.setFriends (copied receivingUser user rfl) hdocId
          (guard receivingUser user friendDocId rfl hfriend before hbefore hdocId) hfriend

/-- One friend more is written: all are kept when the copy is fresh, and only then. -/
theorem eachOnce_append_iff {expected : List String} {document : Document} {copy : User}
    (once : EachOnce expected (friendsIn document))
    (known : ∀ friend ∈ friendsIn document, friend ∈ expected)
    (nodup : (copy.friends.getD []).Nodup) (friendDocId : String) :
    EachOnce (expected ++ [friendDocId])
        ((copy.friends.map fun friends => friends ++ [friendDocId]).getD []) ↔
      IsFresh copy friendDocId document := by
  have hstored : ∀ friend, friend ∈ friendsIn document ↔ friend ∈ expected :=
    fun friend => ⟨known friend, once.mem⟩
  cases hfriends : copy.friends with
  | none =>
      constructor
      · intro lost
        cases lost.mem (List.mem_append_right _ List.mem_cons_self)
      · rintro ⟨friends, hsome, _⟩
        rw [hfriends] at hsome
        cases hsome
  | some friends =>
      rw [hfriends] at nodup
      simp only [IsFresh, hfriends, Option.some.injEq, exists_eq_left', hstored]
      exact EachOnce.append_iff expected friendDocId nodup

/-- All users keep their friends when the copy is fresh for the document it is written to,
and only then. -/
theorem keepsFriends_acceptFriend_iff {expected : String → List String}
    {documents : List Document} {receivingUser : User}
    (keeps : ∀ document ∈ documents,
      EachOnce (expected document.documentID) (friendsIn document))
    (known : ∀ document ∈ documents, Known expected document)
    (copied : Copied expected receivingUser) (user : User) :
    (∀ document ∈ Database.acceptFriend receivingUser documents user,
        EachOnce (expect expected (.acceptFriend receivingUser user) document.documentID)
          (friendsIn document)) ↔
      ∀ friendDocId, user.docId = some friendDocId → ∀ document ∈ documents,
        receivingUser.docId = some document.documentID →
          IsFresh receivingUser friendDocId document := by
  cases hdocId : receivingUser.docId with
  | none =>
      simp only [Database.acceptFriend, expect, hdocId, reduceCtorEq, false_implies,
        implies_true, iff_true]
      exact keeps
  | some docId =>
      cases hfriend : user.docId with
      | none =>
          simp only [Database.acceptFriend, expect, hdocId, hfriend, reduceCtorEq,
            false_implies, implies_true, iff_true]
          exact keeps
      | some friendDocId =>
          rw [expect_acceptFriend hdocId hfriend]
          simp only [Database.acceptFriend, hdocId, hfriend, updateData, List.forall_mem_map,
            Option.some.injEq, forall_eq']
          refine forall₂_congr fun document membership => ?_
          by_cases hsame : document.documentID = docId
          · subst hsame
            rw [if_pos rfl, friendsIn_setFriends, Function.update_self,
              eachOnce_append_iff (keeps document membership) (known document membership).2
                copied.1]
            exact ⟨fun fresh _ => fresh, fun fresh => fresh rfl⟩
          · rw [if_neg hsame, Function.update_of_ne hsame]
            exact ⟨fun _ hother => absurd hother.symm hsame, fun _ => keeps document membership⟩

/-! ## One step -/

section Steps

variable [DecidableEq ι] {c : Community ι} {s t : Accepting ι}

/-- A write that reaches the collection replaces the current documents. -/
theorem commit_cases {index : Nat} (hstep : s.step? c (.commit index) = some t) :
    ∃ write, s.state.inFlight[index]? = some write ∧
      s.state.versions.getLast? = some s.stored ∧ t.stored = write.apply s.stored ∧
      t.expected = expect s.expected write := by
  obtain ⟨state, hstate, rfl⟩ := Option.map_eq_some_iff.mp hstep
  obtain ⟨write, documents, hwrite, hcurrent, rfl⟩ := Community.commit_cases hstate
  have hstored : s.stored = documents := by rw [stored, hcurrent, Option.getD_some]
  refine ⟨write, hwrite, hstored ▸ hcurrent, ?_, ?_⟩
  · rw [hstored, stored, List.getLast?_concat, Option.getD_some]
  · rw [expectedAfter, hwrite]

/-- Nothing is written otherwise. -/
theorem frame {action : Action ι} (quiet : ∀ index, action ≠ .commit index)
    (hstep : s.step? c action = some t) : t.stored = s.stored ∧ t.expected = s.expected := by
  obtain ⟨state, hstate, rfl⟩ := Option.map_eq_some_iff.mp hstep
  refine ⟨?_, ?_⟩
  · rw [stored, stored, Community.versions_eq quiet hstate]
  · cases action with
    | commit index => exact absurd rfl (quiet index)
    | onScreens | tapAddToFriendButton | answer | fail => rfl

theorem Sound.step (sound : Sound s) {action : Action ι} (guard : WritesFresh s action)
    (hstep : s.step? c action = some t) : Sound t := by
  obtain ⟨state, hstate, ht⟩ := Option.map_eq_some_iff.mp hstep
  cases action with
  | commit index =>
      obtain ⟨write, hwrite, hcurrent, _, hexpected⟩ := commit_cases hstep
      have grown : Community.Tracked (Known t.expected) (Copied t.expected) s.state := by
        rw [hexpected]
        refine sound.imp ?_ ?_
        · exact fun document known => ⟨known.1, fun friend membership =>
            mem_expect (known.2 friend membership) write⟩
        · exact fun copy copied => ⟨copied.1, fun docId hdocId friend membership =>
            mem_expect (copied.2 docId hdocId friend membership) write⟩
      subst ht
      refine grown.step_of_apply Known.copied hstate ?_
      intro other committed documents hother hcommitted hdocuments
      cases hother
      rw [hwrite] at hcommitted
      cases hcommitted
      rw [hcurrent] at hdocuments
      cases hdocuments
      rw [hexpected]
      refine known_apply (sound.versions _ (List.mem_of_getLast? hcurrent)) ?_ ?_
      · rintro receivingUser user rfl
        exact sound.inFlight receivingUser user (List.mem_of_getElem? hwrite)
      · rintro receivingUser user friendDocId rfl
        exact guard receivingUser user friendDocId hwrite
  | onScreens | tapAddToFriendButton | answer | fail =>
      subst ht
      exact sound.step_of_apply Known.copied hstate fun _ _ _ hcommit => by cases hcommit

/-- A write keeps the friends of all users when it meets the guard, and only then. -/
theorem keepsFriends_commit_iff (sound : Sound s) (keeps : KeepsFriends s) {index : Nat}
    (hstep : s.step? c (.commit index) = some t) :
    KeepsFriends t ↔ WritesFresh s (.commit index) := by
  obtain ⟨write, hwrite, hcurrent, hstored, hexpected⟩ := commit_cases hstep
  have known := sound.versions _ (List.mem_of_getLast? hcurrent)
  rw [KeepsFriends, hstored, hexpected]
  cases write with
  | sendNotificationToAddToFriends requestingUser receivingUser now =>
      have hguard : WritesFresh s (.commit index) := by
        intro _ _ _ haccept
        rw [hwrite] at haccept
        cases haccept
      refine ⟨fun _ => hguard, fun _ document membership => ?_⟩
      rcases mem_sendNotification membership with kept | ⟨before, hbefore, _, rfl⟩
      · exact keeps document kept
      · rw [friendsIn_addRequest]
        exact keeps before hbefore
  | acceptFriend receivingUser user =>
      have copied := sound.inFlight receivingUser user (List.mem_of_getElem? hwrite)
      rw [Write.apply, keepsFriends_acceptFriend_iff keeps known copied user]
      constructor
      · intro fresh _ _ friendDocId haccept
        rw [hwrite] at haccept
        cases haccept
        exact fresh friendDocId
      · exact fun guard friendDocId => guard receivingUser user friendDocId hwrite

theorem keepsFriends_step_iff (sound : Sound s) (keeps : KeepsFriends s) {action : Action ι}
    (hstep : s.step? c action = some t) : KeepsFriends t ↔ WritesFresh s action := by
  cases action with
  | commit index => exact keepsFriends_commit_iff sound keeps hstep
  | onScreens | tapAddToFriendButton | answer | fail =>
      obtain ⟨hstored, hexpected⟩ := frame (fun _ hcommit => by cases hcommit) hstep
      rw [KeepsFriends, hstored, hexpected]
      exact ⟨fun _ => trivial, fun _ => keeps⟩

end Steps

/-! ## The start -/

variable {c : Community ι}

theorem expected_start {document : Document} (membership : document ∈ c.documents) :
    (start c).expected document.documentID = friendsIn document := by
  cases hfind : c.documents.find? fun other => other.documentID = document.documentID with
  | none =>
      have hdifferent := List.find?_eq_none.mp hfind document membership
      exact absurd (decide_eq_true rfl) hdifferent
  | some found =>
      have hsame := List.find?_some hfind
      rw [decide_eq_true_eq] at hsame
      obtain rfl :=
        Community.eq_of_documentID (List.mem_of_find?_eq_some hfind) membership hsame
      simp only [start, hfind, Option.map_some, Option.getD_some]

theorem keepsFriends_start (nodup : ∀ document ∈ c.documents, (friendsIn document).Nodup) :
    KeepsFriends (start c) := by
  intro document membership
  rw [expected_start membership]
  exact EachOnce.of_nodup (nodup document membership) fun _ hfriend => hfriend

theorem sound_start (nodup : ∀ document ∈ c.documents, (friendsIn document).Nodup) :
    Sound (start c) := by
  refine Community.tracked_start fun document membership => ⟨nodup document membership, ?_⟩
  rw [expected_start membership]
  exact fun _ hfriend => hfriend

/-! ## A user with two requests -/

/-- A user with these friends, asked by two others. -/
def asked (friends : Option (List String)) : Community Unit where
  uid _ := "u1"
  documents := [
    ⟨"d1", addUser { User.anna with
      friends
      notificationArray :=
        [⟨"2022-12-20 10:00:00 +0000", .boris⟩, ⟨"2022-12-21 10:00:00 +0000", .vera⟩] }⟩,
    ⟨"d2", addUser .boris⟩, ⟨"d3", addUser .vera⟩]
  distinct := by simp
  hasPrefix := UserSearch.startsWith

/-- The profile is loaded from a version, and the screen of all requests is opened. -/
def loads (version : Nat) : List (Action Unit) :=
  [.onScreens () (.requestUserData version), .onScreens () .presentNotificationController]

/-- A request is accepted, and the requester is looked up. -/
def accepts (request : Nat) : List (Action Unit) :=
  [.onScreens () (.tapToNotification request), .onScreens () .tapAcceptButton,
    .answer () 0 0]

/--
However the profiles are reloaded, the lookups are answered and the writes are delayed,
reordered or lost: throughout a run every user has each initial friend and each requester
accepted so far exactly once, if and only if every accept of the run is written from a
copy of the user with a list of friends that has everybody stored by then but not yet the
requester.
-/
theorem keepsFriends_throughout_iff [DecidableEq ι]
    (nodup : ∀ document ∈ c.documents, (friendsIn document).Nodup) (actions : List (Action ι)) :
    Throughout (step? c) KeepsFriends (start c) actions ↔
      Along (step? c) WritesFresh (start c) actions :=
  throughout_iff_along Sound (fun sound _ guard hstep => sound.step guard hstep)
    (fun sound keeps hstep => keepsFriends_step_iff sound keeps hstep) (sound_start nodup)
    (keepsFriends_start nodup)

/-- Both requests are accepted, with the profile loaded again in between. -/
theorem keepsFriends_throughout_iff_two_requests :
    let actions := loads 0 ++ accepts 0 ++ [.commit 0] ++ loads 1 ++ accepts 1 ++ [.commit 0]
    (run? (step? (asked (some ["d4"]))) (start (asked (some ["d4"]))) actions).any
      (fun final => final.stored.head?.map friendsIn = some ["d4", "d2", "d3"]) = true ∧
    (Throughout (step? (asked (some ["d4"]))) KeepsFriends (start (asked (some ["d4"])))
        actions ↔
      Along (step? (asked (some ["d4"]))) WritesFresh (start (asked (some ["d4"]))) actions) := by
  intro actions
  exact ⟨by decide +kernel, keepsFriends_throughout_iff (by decide +kernel) actions⟩

theorem exists_lost {c : Community Unit} {actions : List (Action Unit)}
    {expected found : List String}
    (hcheck : ((run? (step? c) (start c) actions).bind fun final =>
      final.stored.head?.map (final, ·)).any (fun reached =>
        reached.2.documentID = "d1" ∧ reached.1.expected "d1" = expected ∧
          friendsIn reached.2 = found) = true)
    {friend : String} (isExpected : friend ∈ expected) (missing : friend ∉ found) :
    ∃ final document, run? (step? c) (start c) actions = some final ∧
      final.stored.head? = some document ∧ final.expected "d1" = expected ∧
      friendsIn document = found ∧ ¬ KeepsFriends final := by
  obtain ⟨⟨final, document⟩, hreached, hfacts⟩ := (Option.any_eq_true _ _).mp hcheck
  obtain ⟨hdocId, rfl, rfl⟩ := of_decide_eq_true hfacts
  obtain ⟨_, hrun, hrest⟩ := Option.bind_eq_some_iff.mp hreached
  obtain ⟨_, hstored, hsame⟩ := Option.map_eq_some_iff.mp hrest
  cases hsame
  refine ⟨final, document, hrun, hstored, rfl, rfl, ?_⟩
  intro keeps
  have once := keeps document (List.mem_of_mem_head? hstored)
  rw [hdocId] at once
  exact missing (once.mem isExpected)

/-- An accept without a list of friends stores nothing.  A second accept drops the first
one when its copy is older than the write of that one: without loading the profile
again, and also when the profile is loaded again before the write has reached the
collection. -/
theorem accept_loses_friend :
    (∃ final document, run? (step? (asked none)) (start (asked none))
        (loads 0 ++ accepts 0 ++ [.commit 0]) = some final ∧
      final.stored.head? = some document ∧ final.expected "d1" = ["d2"] ∧
      friendsIn document = [] ∧ ¬ KeepsFriends final) ∧
    (∃ final document, run? (step? (asked (some []))) (start (asked (some [])))
        (loads 0 ++ accepts 0 ++ [.commit 0] ++ accepts 1 ++ [.commit 0]) = some final ∧
      final.stored.head? = some document ∧ final.expected "d1" = ["d2", "d3"] ∧
      friendsIn document = ["d3"] ∧ ¬ KeepsFriends final) ∧
    ∃ final document, run? (step? (asked (some []))) (start (asked (some [])))
        (loads 0 ++ accepts 0 ++ loads 0 ++ [.commit 0] ++ accepts 1 ++ [.commit 0]) =
          some final ∧
      final.stored.head? = some document ∧ final.expected "d1" = ["d2", "d3"] ∧
      friendsIn document = ["d3"] ∧ ¬ KeepsFriends final := by
  have hmissing : "d2" ∉ ["d3"] := by decide
  exact ⟨exists_lost (by decide +kernel) List.mem_cons_self List.not_mem_nil,
    exists_lost (by decide +kernel) List.mem_cons_self hmissing,
    exists_lost (by decide +kernel) List.mem_cons_self hmissing⟩

end Accepting

end AnyCompetition.Profile.Friendship
