import Mathlib.Algebra.BigOperators.Group.Finset.Basic
import Mathlib.Algebra.BigOperators.Intervals
import Mathlib.Algebra.Group.Action.Defs
import Mathlib.Tactic.Ring

/-!
# Counting unordered pairs

An unordered pair of two different numbers below `n` is represented by its
increasing ordered pair.  The sum over a square splits into its diagonal and
the two orders of every pair.
-/

namespace AnyCompetition.PairCounting

open Finset

/-- The unordered pairs of different numbers below `n`. -/
def pairs (n : Nat) : Finset (Nat × Nat) :=
  (range n ×ˢ range n).filter fun pair => pair.1 < pair.2

@[simp]
theorem mem_pairs {n i j : Nat} : (i, j) ∈ pairs n ↔ i < j ∧ j < n := by
  simp only [pairs, mem_filter, mem_product, mem_range]
  omega

theorem pairs_succ (n : Nat) :
    pairs (n + 1) = pairs n ∪ (range n).image fun i => (i, n) := by
  ext ⟨i, j⟩
  simp only [mem_union, mem_pairs, mem_image, mem_range, Prod.mk.injEq]
  constructor
  · rintro ⟨hij, hj⟩
    rcases Nat.lt_or_eq_of_le (Nat.le_of_lt_succ hj) with lower | rfl
    · exact Or.inl ⟨hij, lower⟩
    · exact Or.inr ⟨i, hij, rfl, rfl⟩
  · rintro (⟨hij, hj⟩ | ⟨k, hk, rfl, rfl⟩)
    · exact ⟨hij, Nat.lt_succ_of_lt hj⟩
    · exact ⟨hk, Nat.lt_succ_self _⟩

theorem disjoint_pairs_last (n : Nat) :
    Disjoint (pairs n) ((range n).image fun i => (i, n)) := by
  rw [disjoint_left]
  rintro ⟨i, j⟩ hpair hlast
  obtain ⟨k, _, hk⟩ := mem_image.mp hlast
  cases hk
  exact Nat.lt_irrefl _ (mem_pairs.mp hpair).2

/-- The sum over a square is the sum of its diagonal and of the two orders of
every pair. -/
theorem sum_square (n : Nat) (f : Nat → Nat → Nat) :
    ∑ i ∈ range n, ∑ j ∈ range n, f i j =
      ∑ i ∈ range n, f i i + ∑ pair ∈ pairs n, (f pair.1 pair.2 + f pair.2 pair.1) := by
  induction n with
  | zero => rfl
  | succ n ih =>
      have hlast : ∑ pair ∈ (range n).image (fun i => (i, n)),
          (f pair.1 pair.2 + f pair.2 pair.1) = ∑ i ∈ range n, (f i n + f n i) := by
        rw [sum_image]
        intro i _ j _ heq
        exact congrArg Prod.fst heq
      rw [pairs_succ, sum_union (disjoint_pairs_last n), hlast]
      simp only [sum_range_succ, sum_add_distrib, ih]
      ring

/-- There are `n (n - 1) / 2` unordered pairs, written as the division of
`n * n - n`. -/
theorem card_pairs (n : Nat) : (pairs n).card = (n * n - n) / 2 := by
  have hsquare := sum_square n fun _ _ => 1
  simp only [sum_const, card_range, smul_eq_mul, mul_one] at hsquare
  omega

/-- The number of unordered pairs below `n` with a property. -/
def countPairs (n : Nat) (P : Nat → Nat → Prop) [DecidableRel P] : Nat :=
  ((pairs n).filter fun pair => P pair.1 pair.2).card

variable {n : Nat} {P Q : Nat → Nat → Prop} [DecidableRel P] [DecidableRel Q]

theorem countPairs_le : countPairs n P ≤ (n * n - n) / 2 := by
  rw [← card_pairs]
  exact card_filter_le _ _

/-- All pairs have a symmetric property exactly when as many have it as there are. -/
theorem countPairs_eq_iff (symmetric : ∀ i j, P i j → P j i) :
    countPairs n P = (n * n - n) / 2 ↔ ∀ i j, i < n → j < n → i ≠ j → P i j := by
  rw [← card_pairs, countPairs, card_filter_eq_iff]
  constructor
  · intro all i j hi hj hne
    rcases Nat.lt_or_gt_of_ne hne with hij | hji
    · exact all (i, j) (mem_pairs.mpr ⟨hij, hj⟩)
    · exact symmetric _ _ (all (j, i) (mem_pairs.mpr ⟨hji, hi⟩))
  · rintro all ⟨i, j⟩ hpair
    obtain ⟨hij, hj⟩ := mem_pairs.mp hpair
    exact all i j (Nat.lt_trans hij hj) hj (Nat.ne_of_lt hij)

theorem countPairs_congr
    (agree : ∀ i j, i < n → j < n → i ≠ j → (P i j ↔ Q i j)) :
    countPairs n P = countPairs n Q := by
  unfold countPairs
  congr 1
  apply filter_congr
  rintro ⟨i, j⟩ hpair
  obtain ⟨hij, hj⟩ := mem_pairs.mp hpair
  exact agree i j (Nat.lt_trans hij hj) hj (Nat.ne_of_lt hij)

/-- Adding one new pair to a property raises the count by one. -/
theorem countPairs_add_one {i j : Nat} (hi : i < n) (hj : j < n) (hne : i ≠ j)
    (added : ∀ k l, k < n → l < n → k ≠ l →
      (Q k l ↔ P k l ∨ (k = i ∧ l = j) ∨ (k = j ∧ l = i)))
    (absent : ¬ P i j) (absent_swap : ¬ P j i) :
    countPairs n Q = countPairs n P + 1 := by
  have hinsert : ((pairs n).filter fun pair => Q pair.1 pair.2) =
      insert (min i j, max i j) ((pairs n).filter fun pair => P pair.1 pair.2) := by
    ext ⟨k, l⟩
    simp only [mem_filter, mem_insert, mem_pairs, Prod.mk.injEq]
    constructor
    · rintro ⟨⟨hkl, hl⟩, hQ⟩
      rcases (added k l (by omega) hl (by omega)).mp hQ with hP | hnew
      · exact Or.inr ⟨⟨hkl, hl⟩, hP⟩
      · exact Or.inl (by omega)
    · rintro (hnew | ⟨⟨hkl, hl⟩, hP⟩)
      · refine ⟨by omega, (added k l (by omega) (by omega) (by omega)).mpr (Or.inr ?_)⟩
        omega
      · exact ⟨⟨hkl, hl⟩, (added k l (by omega) hl (by omega)).mpr (Or.inl hP)⟩
  unfold countPairs
  rw [hinsert, card_insert_of_notMem]
  intro membership
  have hP := (mem_filter.mp membership).2
  rcases Nat.lt_or_gt_of_ne hne with hij | hji
  · rw [min_eq_left hij.le, max_eq_right hij.le] at hP
    exact absent hP
  · rw [min_eq_right hji.le, max_eq_left hji.le] at hP
    exact absent_swap hP

/-- A property split into two that exclude each other is counted in two parts. -/
theorem countPairs_add {R : Nat → Nat → Prop} [DecidableRel R]
    (split : ∀ i j, i < n → j < n → i ≠ j → (R i j ↔ P i j ∨ Q i j))
    (apart : ∀ i j, i < n → j < n → i ≠ j → ¬ (P i j ∧ Q i j)) :
    countPairs n R = countPairs n P + countPairs n Q := by
  unfold countPairs
  rw [← card_union_of_disjoint]
  · congr 1
    ext ⟨i, j⟩
    simp only [mem_union, mem_filter, mem_pairs]
    constructor
    · rintro ⟨⟨hij, hj⟩, hR⟩
      exact ((split i j (by omega) hj (by omega)).mp hR).imp
        (fun hP => ⟨⟨hij, hj⟩, hP⟩) fun hQ => ⟨⟨hij, hj⟩, hQ⟩
    · rintro (⟨⟨hij, hj⟩, hP⟩ | ⟨⟨hij, hj⟩, hQ⟩)
      · exact ⟨⟨hij, hj⟩, (split i j (by omega) hj (by omega)).mpr (Or.inl hP)⟩
      · exact ⟨⟨hij, hj⟩, (split i j (by omega) hj (by omega)).mpr (Or.inr hQ)⟩
  · rw [disjoint_left]
    rintro ⟨i, j⟩ hfirst hsecond
    obtain ⟨hpair, hP⟩ := mem_filter.mp hfirst
    obtain ⟨hij, hj⟩ := mem_pairs.mp hpair
    exact apart i j (Nat.lt_trans hij hj) hj (Nat.ne_of_lt hij) ⟨hP, (mem_filter.mp hsecond).2⟩

/-- Where every pair with the property has exactly one chosen order, and the
others and the diagonal have none, the chosen cells of a square are as many as
the pairs with the property. -/
theorem sum_chosen_eq_countPairs (chosen : Nat → Nat → Prop) [DecidableRel chosen]
    (diagonal : ∀ i, i < n → ¬ chosen i i)
    (one_order : ∀ i j, i < n → j < n → i ≠ j →
      (P i j ↔ (chosen i j ∨ chosen j i)) ∧ ¬ (chosen i j ∧ chosen j i)) :
    ∑ i ∈ range n, ((range n).filter fun j => chosen i j).card = countPairs n P := by
  have hdiagonal : ∑ i ∈ range n, (if chosen i i then 1 else 0) = 0 := by
    apply sum_eq_zero
    intro i hi
    rw [if_neg (diagonal i (mem_range.mp hi))]
  unfold countPairs
  simp only [card_filter]
  rw [sum_square n fun i j => if chosen i j then 1 else 0, hdiagonal, Nat.zero_add]
  apply sum_congr rfl
  rintro ⟨i, j⟩ hpair
  obtain ⟨hij, hj⟩ := mem_pairs.mp hpair
  obtain ⟨hP, hboth⟩ := one_order i j (Nat.lt_trans hij hj) hj (Nat.ne_of_lt hij)
  by_cases hfirst : chosen i j
  · have hsecond : ¬ chosen j i := fun hsecond => hboth ⟨hfirst, hsecond⟩
    simp [hP, hfirst, hsecond]
  · by_cases hsecond : chosen j i <;> simp [hP, hfirst, hsecond]

end AnyCompetition.PairCounting
