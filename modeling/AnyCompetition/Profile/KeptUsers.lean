import AnyCompetition.Database.UserEntries
import AnyCompetition.Library.PendingWrites
import AnyCompetition.Profile.Friendship
import Mathlib.Data.List.Forall2

/-!
# Users are kept

A write replaces the friends of one document or puts a request after the others.  In a
later version of the collection every user is still there, reads as before and
has the same requests first.
-/

namespace AnyCompetition.Profile.Friendship

open Json GuardedRun Database

/-- The second document may have other friends and more requests. -/
structure Keeps (first second : Document) : Prop where
  documentID : second.documentID = first.documentID
  lookup : ∀ key, key ≠ "friends" → key ≠ "notificationArray" →
    second.data.lookup key = first.data.lookup key
  requests : requestsIn first <+: requestsIn second
  decodes : (decodeUser first).isSome = true → (decodeUser second).isSome = true

namespace Keeps

variable {first second third : Document}

theorem refl (document : Document) : Keeps document document :=
  ⟨rfl, fun _ _ _ => rfl, List.prefix_rfl, id⟩

theorem trans (before : Keeps first second) (after : Keeps second third) :
    Keeps first third where
  documentID := after.documentID.trans before.documentID
  lookup key hfriends hrequests :=
    (after.lookup key hfriends hrequests).trans (before.lookup key hfriends hrequests)
  requests := before.requests.trans after.requests
  decodes hdecodes := after.decodes (before.decodes hdecodes)

theorem addRequest (notification : AddFriendNotification) (document : Document) :
    Keeps document (addRequest notification document) where
  documentID := rfl
  lookup _ _ hrequests := lookup_addRequest_of_ne _ _ hrequests
  requests := by
    rcases requestsIn_addRequest notification document with kept | added
    · exact kept.symm ▸ List.prefix_rfl
    · rw [added]
      exact List.prefix_append _ _
  decodes hdecodes := by
    obtain ⟨user, hdecode⟩ := Option.isSome_iff_exists.mp hdecodes
    rw [decodeUser_addRequest_of_decodes hdecode]
    rfl

theorem setFriends (document : Document) (friends : Option (List String)) :
    Keeps document { document with
      data := setKey document.data "friends"
        (ofOption (fun friends => .array (friends.map .string)) friends) } where
  documentID := rfl
  lookup _ hfriends _ := lookup_setKey_of_ne _ _ hfriends
  requests := (requestsIn_setFriends document friends).symm ▸ List.prefix_rfl
  decodes hdecodes := by
    obtain ⟨user, hdecode⟩ := Option.isSome_iff_exists.mp hdecodes
    rw [decodeUser_setFriends hdecode]
    rfl

end Keeps

theorem forall₂_keeps_trans {first second third : List Document}
    (before : List.Forall₂ Keeps first second) (after : List.Forall₂ Keeps second third) :
    List.Forall₂ Keeps first third := by
  induction before generalizing third with
  | nil => exact after
  | cons keeps _ ih =>
      obtain ⟨_, _, hkeeps, hrest, rfl⟩ := List.forall₂_cons_left_iff.mp after
      exact .cons (keeps.trans hkeeps) (ih hrest)

/-- A write that changes single documents keeps the users of all. -/
theorem forall₂_keeps_map {change : Document → Document} (keeps : ∀ document, Keeps document
    (change document)) (documents : List Document) :
    List.Forall₂ Keeps documents (documents.map change) := by
  rw [List.forall₂_map_right_iff, List.forall₂_same]
  exact fun document _ => keeps document

theorem Write.keeps (write : Write) (documents : List Document) :
    List.Forall₂ Keeps documents (write.apply documents) := by
  cases write with
  | sendNotificationToAddToFriends requestingUser receivingUser now =>
      rw [Write.apply, Database.sendNotificationToAddToFriends]
      cases receivingUser.docId with
      | none => exact List.forall₂_same.mpr fun document _ => .refl document
      | some docId =>
          apply forall₂_keeps_map
          intro document
          split
          · exact .addRequest _ document
          · exact .refl document
  | acceptFriend receivingUser user =>
      rw [Write.apply, Database.acceptFriend]
      split
      · apply forall₂_keeps_map
        intro document
        split
        · exact .setFriends document _
        · exact .refl document
      · exact List.forall₂_same.mpr fun document _ => .refl document

variable {ι : Type} [DecidableEq ι] {c : Community ι} {s t : State ι}

namespace Community

/-- One step adds a version or none. -/
theorem versions_step {action : Action ι} (hstep : c.step? s action = some t) :
    t.versions = s.versions ∨ ∃ current write, s.versions.getLast? = some current ∧
      t.versions = s.versions ++ [Write.apply current write] := by
  by_cases hcommit : ∃ index, action = .commit index
  · obtain ⟨index, rfl⟩ := hcommit
    obtain ⟨write, current, _, hcurrent, rfl⟩ := commit_cases hstep
    exact Or.inr ⟨current, write, hcurrent, rfl⟩
  · exact Or.inl (versions_eq (not_exists.mp hcommit) hstep)

theorem pairwise_keeps_step (kept : s.versions.Pairwise (List.Forall₂ Keeps))
    {action : Action ι} (hstep : c.step? s action = some t) :
    t.versions.Pairwise (List.Forall₂ Keeps) := by
  rcases versions_step hstep with hsame | ⟨current, write, hcurrent, hversions⟩
  · rw [hsame]
    exact kept
  · rw [hversions]
    refine List.pairwise_append.mpr ⟨kept, List.pairwise_singleton _ _, ?_⟩
    intro earlier hearlier later hlater
    rw [List.mem_singleton.mp hlater]
    rcases PendingWrites.eq_or_related_getLast kept hearlier hcurrent with rfl | related
    · exact write.keeps earlier
    · exact forall₂_keeps_trans related (write.keeps current)

/--
However the answers are delayed and the writes are reordered or lost: every later
version of the collection has the same documents in the same order.  Each has all of its
entries but the friends and the requests, all its requests first and in order,
and can be read if it could be read before.
-/
theorem users_are_kept {actions : List (Action ι)}
    (hrun : run? c.step? c.start actions = some s) :
    s.versions.Pairwise (List.Forall₂ Keeps) :=
  run?_invariant (P := fun s : State ι => s.versions.Pairwise (List.Forall₂ Keeps))
    (fun kept hstep => pairwise_keeps_step kept hstep) (List.pairwise_singleton _ _) hrun

theorem users_are_kept_two_users :
    ∃ final : State Bool, run? twoUsers.step? twoUsers.start (asks ++ accepts) = some final ∧
      final.versions.length = 3 ∧ final.versions.Pairwise (List.Forall₂ Keeps) := by
  have hcheck : (run? twoUsers.step? twoUsers.start (asks ++ accepts)).any
      (fun final => final.versions.length = 3) = true := by
    decide +kernel
  obtain ⟨final, hrun, hlength⟩ := (Option.any_eq_true _ _).mp hcheck
  exact ⟨final, hrun, of_decide_eq_true hlength, users_are_kept hrun⟩

end Community

end AnyCompetition.Profile.Friendship
