import Mathlib.Data.List.Nodup

/-!
# Entries listed exactly once

A list keeps up with a growing list of expected entries when it has each of them
exactly once.  One more expected entry is kept up with either by appending it or
by leaving the list alone, and the rules below say exactly when.
-/

namespace AnyCompetition

universe u

variable {α : Type u} [DecidableEq α]

/-- Every expected entry is listed exactly once. -/
def EachOnce (expected values : List α) : Prop :=
  ∀ value ∈ expected, values.count value = 1

namespace EachOnce

variable {expected values : List α} {value : α}

theorem mem (once : EachOnce expected values) (membership : value ∈ expected) :
    value ∈ values :=
  List.count_pos_iff.mp (Nat.lt_of_lt_of_eq Nat.zero_lt_one (once value membership).symm)

theorem of_nodup (nodup : values.Nodup) (present : ∀ value ∈ expected, value ∈ values) :
    EachOnce expected values :=
  fun value membership => List.count_eq_one_of_mem nodup (present value membership)

/-- A list of expected entries has no duplicates. -/
theorem nodup (once : EachOnce expected values)
    (known : ∀ value ∈ values, value ∈ expected) : values.Nodup := by
  rw [List.nodup_iff_count_le_one]
  intro value
  by_cases membership : value ∈ values
  · exact Nat.le_of_eq (once value (known value membership))
  · rw [List.count_eq_zero.mpr membership]
    exact Nat.zero_le 1

/-- One more entry is expected of a list that stays as it is. -/
theorem expect_iff (once : EachOnce expected values) (nodup : values.Nodup) :
    EachOnce (expected ++ [value]) values ↔ value ∈ values := by
  constructor
  · intro next
    exact next.mem (List.mem_append_right _ List.mem_cons_self)
  · intro membership
    refine of_nodup nodup fun other hother => ?_
    rcases List.mem_append.mp hother with before | last
    · exact once.mem before
    · rwa [List.mem_singleton.mp last]

/-- One more entry is expected and appended. -/
theorem append_iff (expected : List α) (value : α) (nodup : values.Nodup) :
    EachOnce (expected ++ [value]) (values ++ [value]) ↔
      value ∉ values ∧ ∀ other ∈ expected, other ≠ value → other ∈ values := by
  constructor
  · intro once
    refine ⟨?_, ?_⟩
    · have hself := once value (List.mem_append_right _ List.mem_cons_self)
      rw [List.count_append, List.count_singleton_self] at hself
      exact List.count_eq_zero.mp (by omega)
    · intro other membership hne
      rcases List.mem_append.mp (once.mem (List.mem_append_left _ membership)) with
        before | last
      · exact before
      · exact absurd (List.mem_singleton.mp last) hne
  · rintro ⟨hnew, hothers⟩
    have hnext : (values ++ [value]).Nodup := by
      rw [← List.concat_eq_append]
      exact nodup.concat hnew
    refine of_nodup hnext fun other membership => ?_
    rcases List.mem_append.mp membership with before | last
    · by_cases hsame : other = value
      · rw [hsame]
        exact List.mem_append_right _ List.mem_cons_self
      · exact List.mem_append_left _ (hothers other before hsame)
    · exact List.mem_append_right _ last

end EachOnce

end AnyCompetition
