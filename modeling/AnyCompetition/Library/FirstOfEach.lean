import Mathlib.Data.List.Induction
import Mathlib.Data.List.Pairwise

/-!
# The first of each class of equal elements

`List.eraseDups` keeps an element when none before it is equal to it.  The laws below ask
of the equality at most what they need, so that they serve an equality that leaves out
a part of its arguments.
-/

namespace AnyCompetition.FirstOfEach

universe u

variable {α : Type u} [BEq α]

theorem loop_concat (last : α) (elements kept : List α) :
    List.eraseDupsBy.loop (· == ·) (elements ++ [last]) kept =
      if (List.eraseDupsBy.loop (· == ·) elements kept).any (last == ·) then
        List.eraseDupsBy.loop (· == ·) elements kept
      else List.eraseDupsBy.loop (· == ·) elements kept ++ [last] := by
  induction elements generalizing kept with
  | nil =>
      simp only [List.nil_append, List.eraseDupsBy.loop, List.any_reverse]
      cases hany : kept.any (last == ·) with
      | true => rfl
      | false => exact List.reverse_cons
  | cons element rest ih =>
      rw [List.cons_append, List.eraseDupsBy.loop, List.eraseDupsBy.loop]
      cases kept.any (element == ·) with
      | true => exact ih kept
      | false => exact ih (element :: kept)

/-- A last element is kept when it is not equal to one that is kept. -/
theorem eraseDups_concat (elements : List α) (last : α) :
    (elements ++ [last]).eraseDups =
      if elements.eraseDups.any (last == ·) then elements.eraseDups
      else elements.eraseDups ++ [last] :=
  loop_concat last elements []

/-- What is kept stays in order. -/
theorem eraseDups_sublist (elements : List α) : elements.eraseDups.Sublist elements := by
  induction elements using List.reverseRecOn with
  | nil => exact List.Sublist.slnil
  | append_singleton front last ih =>
      rw [eraseDups_concat]
      split
      · exact ih.trans (List.sublist_append_left front [last])
      · exact ih.append (List.Sublist.refl [last])

/-- None that is kept is equal to one before it. -/
theorem pairwise_eraseDups (elements : List α) :
    elements.eraseDups.Pairwise fun earlier later => (later == earlier) = false := by
  induction elements using List.reverseRecOn with
  | nil => exact List.Pairwise.nil
  | append_singleton front last ih =>
      rw [eraseDups_concat]
      split
      · exact ih
      · rename_i hnew
        refine List.pairwise_append.mpr ⟨ih, List.pairwise_singleton _ _, ?_⟩
        intro earlier hearlier later hlater
        rw [List.mem_singleton.mp hlater]
        rw [Bool.not_eq_true, List.any_eq_false] at hnew
        exact Bool.eq_false_iff.mpr (hnew earlier hearlier)

/-- Every element is equal to one that is kept. -/
theorem exists_mem_eraseDups [ReflBEq α] {elements : List α} {element : α}
    (membership : element ∈ elements) : ∃ kept ∈ elements.eraseDups, (element == kept) = true := by
  induction elements using List.reverseRecOn with
  | nil => cases membership
  | append_singleton front last ih =>
      have hkept : ∀ kept ∈ front.eraseDups, kept ∈ (front ++ [last]).eraseDups := by
        intro kept hkept
        rw [eraseDups_concat]
        split
        · exact hkept
        · exact List.mem_append_left _ hkept
      rcases List.mem_append.mp membership with earlier | hlast
      · obtain ⟨kept, hmember, hequal⟩ := ih earlier
        exact ⟨kept, hkept kept hmember, hequal⟩
      · rw [List.mem_singleton.mp hlast]
        by_cases hany : front.eraseDups.any (last == ·) = true
        · obtain ⟨kept, hmember, hequal⟩ := List.any_eq_true.mp hany
          exact ⟨kept, hkept kept hmember, hequal⟩
        · refine ⟨last, ?_, BEq.rfl⟩
          rw [eraseDups_concat, if_neg hany]
          exact List.mem_append_right _ (List.mem_singleton_self last)

/-- Of those that are kept no two are equal. -/
theorem eq_of_mem_eraseDups [PartialEquivBEq α] {elements : List α} {first second : α}
    (hfirst : first ∈ elements.eraseDups) (hsecond : second ∈ elements.eraseDups)
    (hequal : (first == second) = true) : first = second := by
  by_contra hne
  have symmetric : Std.Symm fun earlier later : α => (later == earlier) = false :=
    ⟨fun earlier later hdifferent => by rw [BEq.comm, hdifferent]⟩
  have hdifferent := (pairwise_eraseDups elements).forall hsecond hfirst (Ne.symm hne)
  rw [hequal] at hdifferent
  cases hdifferent

end AnyCompetition.FirstOfEach
