import Mathlib.Data.List.Lex
import Mathlib.Data.Nat.Digits.Defs

/-!
# Text of fixed width

A number written with a fixed number of decimal digits is compared as text the way
it is compared as a number.  A record of such numbers with fixed separators is
compared as text the way the list of its numbers is compared.
-/

namespace AnyCompetition.FixedWidth

/-! ## Lexicographic order -/

/-- After prefixes of one length the prefixes decide first. -/
theorem append_lt_append_iff {α : Type} [LT α] [Std.Irrefl (α := α) (· < ·)]
    {first second : List α} (hlength : first.length = second.length) (left right : List α) :
    first ++ left < second ++ right ↔ first < second ∨ first = second ∧ left < right := by
  induction first generalizing second with
  | nil =>
      cases second with
      | nil => simp
      | cons b second => cases hlength
  | cons a first ih =>
      cases second with
      | nil => cases hlength
      | cons b second =>
          simp only [List.cons_append, List.cons_lt_cons_iff, ih (Nat.succ.inj hlength),
            List.cons.injEq]
          tauto

/-! ## Padded numbers -/

/-- The last `width` decimal digits of a number, the highest first. -/
def padded : Nat → Nat → List Char
  | 0, _ => []
  | width + 1, n => padded width (n / 10) ++ [Nat.digitChar (n % 10)]

@[simp]
theorem length_padded (width n : Nat) : (padded width n).length = width := by
  induction width generalizing n with
  | zero => rfl
  | succ width ih => simp [padded, ih]

theorem digitChar_lt_iff :
    ∀ a < 10, ∀ b < 10, Nat.digitChar a < Nat.digitChar b ↔ a < b := by
  decide

/-- Two numbers that fit their width are written alike only when they are equal. -/
theorem padded_inj {width m n : Nat} (hm : m < 10 ^ width) (hn : n < 10 ^ width) :
    padded width m = padded width n ↔ m = n := by
  refine ⟨?_, fun heq => heq ▸ rfl⟩
  induction width generalizing m n with
  | zero =>
      intro _
      omega
  | succ width ih =>
      intro heq
      rw [Nat.pow_succ] at hm hn
      obtain ⟨hfront, hlast⟩ := List.append_inj' heq rfl
      have hhigh : m / 10 = n / 10 := ih (by omega) (by omega) hfront
      have hdigit : Nat.digitChar (m % 10) = Nat.digitChar (n % 10) := List.singleton_inj.mp hlast
      have hlow := digitChar_lt_iff (m % 10) (by omega) (n % 10) (by omega)
      have hlow' := digitChar_lt_iff (n % 10) (by omega) (m % 10) (by omega)
      rw [hdigit] at hlow hlow'
      have hirrefl := Char.lt_irrefl (Nat.digitChar (n % 10))
      have hle : ¬ m % 10 < n % 10 := fun less => hirrefl (hlow.mpr less)
      have hge : ¬ n % 10 < m % 10 := fun less => hirrefl (hlow'.mpr less)
      omega

/-- Two numbers that fit their width are ordered as they are written. -/
theorem padded_lt_iff {width m n : Nat} (hm : m < 10 ^ width) (hn : n < 10 ^ width) :
    padded width m < padded width n ↔ m < n := by
  induction width generalizing m n with
  | zero =>
      simp only [padded, List.not_lt_nil, false_iff]
      omega
  | succ width ih =>
      rw [Nat.pow_succ] at hm hn
      have hdigit := digitChar_lt_iff (m % 10) (by omega) (n % 10) (by omega)
      rw [padded, padded, append_lt_append_iff (by simp), ih (by omega) (by omega),
        padded_inj (by omega) (by omega), List.cons_lt_cons_iff]
      simp only [hdigit, List.not_lt_nil, and_false, or_false]
      omega

/-! ## Records -/

/-- The numbers at their widths, each followed by its separator. -/
def render : List (Nat × List Char) → List Nat → List Char
  | (width, separator) :: shape, value :: values =>
      padded width value ++ (separator ++ render shape values)
  | _, _ => []

/-- One number for every width, none of them too long. -/
abbrev Fits (shape : List (Nat × List Char)) (values : List Nat) : Prop :=
  List.Forall₂ (fun field value => value < 10 ^ field.1) shape values

/-- Records that fit their shape are ordered as they are written. -/
theorem render_lt_iff {shape : List (Nat × List Char)} {first second : List Nat}
    (hfirst : Fits shape first) (hsecond : Fits shape second) :
    render shape first < render shape second ↔ first < second := by
  induction hfirst generalizing second with
  | nil =>
      cases hsecond
      simp [render]
  | @cons field m shape first hm _ ih =>
      cases hsecond with
      | @cons _ n _ second hn hrest =>
          obtain ⟨width, separator⟩ := field
          rw [render, render, append_lt_append_iff (by simp), padded_lt_iff hm hn,
            padded_inj hm hn, append_lt_append_iff rfl, ih hrest, List.cons_lt_cons_iff]
          have hirrefl : ¬ separator < separator := List.lt_irrefl separator
          tauto

end AnyCompetition.FixedWidth
