import Mathlib.Data.List.Lex
import Mathlib.Data.Nat.Find
import Mathlib.Order.Monotone.Basic

/-!
# The calendar

The natural numbers are cut into consecutive blocks of different lengths: the days
into years, and the days of a year into months.  A number is given by its block
and its place in the block, and numbers are ordered as these are.
-/

namespace AnyCompetition.Calendar

/-- Consecutive blocks, each of at least a positive length. -/
structure Blocks where
  length : Nat → Nat
  shortest : Nat
  shortest_pos : 0 < shortest
  shortest_le : ∀ i, shortest ≤ length i

namespace Blocks

variable (blocks : Blocks)

/-- The first number of a block. -/
def start : Nat → Nat
  | 0 => 0
  | i + 1 => start i + blocks.length i

/-- The block of a number. -/
def index (x : Nat) : Nat :=
  Nat.findGreatest (fun i => blocks.start i ≤ x) (x / blocks.shortest)

/-- The place of a number in its block. -/
def offset (x : Nat) : Nat :=
  x - blocks.start (blocks.index x)

theorem start_strictMono : StrictMono blocks.start :=
  strictMono_nat_of_lt_succ fun i =>
    Nat.lt_add_of_pos_right (Nat.lt_of_lt_of_le blocks.shortest_pos (blocks.shortest_le i))

theorem mul_shortest_le_start (i : Nat) : i * blocks.shortest ≤ blocks.start i := by
  induction i with
  | zero => simp
  | succ i ih =>
      rw [Nat.succ_mul, start]
      exact Nat.add_le_add ih (blocks.shortest_le i)

theorem start_index_le (x : Nat) : blocks.start (blocks.index x) ≤ x :=
  Nat.findGreatest_spec (P := fun i => blocks.start i ≤ x) (m := 0) (Nat.zero_le _)
    (Nat.zero_le x)

theorem lt_start_index_succ (x : Nat) : x < blocks.start (blocks.index x + 1) := by
  by_contra hle
  have hstart : blocks.start (blocks.index x + 1) ≤ x := Nat.le_of_not_lt hle
  have hbound : blocks.index x + 1 ≤ x / blocks.shortest :=
    (Nat.le_div_iff_mul_le blocks.shortest_pos).mpr
      (Nat.le_trans (blocks.mul_shortest_le_start _) hstart)
  exact Nat.findGreatest_is_greatest (Nat.lt_succ_self _) hbound hstart

/-- A number lies before the start of a block when its own block does. -/
theorem index_lt_iff {x i : Nat} : blocks.index x < i ↔ x < blocks.start i := by
  constructor
  · intro hlt
    exact Nat.lt_of_lt_of_le (blocks.lt_start_index_succ x)
      (blocks.start_strictMono.monotone hlt)
  · intro hlt
    exact blocks.start_strictMono.lt_iff_lt.mp
      (Nat.lt_of_le_of_lt (blocks.start_index_le x) hlt)

theorem offset_lt (x : Nat) : blocks.offset x < blocks.length (blocks.index x) := by
  have hupper := blocks.lt_start_index_succ x
  have hlower := blocks.start_index_le x
  rw [start] at hupper
  rw [offset]
  omega

/-- Numbers are ordered by their blocks, and by their places in one block. -/
theorem lt_iff (x y : Nat) :
    x < y ↔ blocks.index x < blocks.index y ∨
      blocks.index x = blocks.index y ∧ blocks.offset x < blocks.offset y := by
  have hx := blocks.start_index_le x
  have hy := blocks.start_index_le y
  rcases Nat.lt_trichotomy (blocks.index x) (blocks.index y) with less | same | greater
  · have hxy : x < y := Nat.lt_of_lt_of_le (blocks.index_lt_iff.mp less) hy
    simp [less, hxy]
  · rw [offset, offset, same]
    rw [same] at hx
    omega
  · have hyx : y < x := Nat.lt_of_lt_of_le (blocks.index_lt_iff.mp greater) hx
    constructor
    · intro hxy
      omega
    · rintro (less | ⟨same, _⟩)
      · omega
      · omega

/-- A number is determined by its block and its place there. -/
theorem eq_iff (x y : Nat) :
    x = y ↔ blocks.index x = blocks.index y ∧ blocks.offset x = blocks.offset y := by
  constructor
  · rintro rfl
    exact ⟨rfl, rfl⟩
  · rintro ⟨hindex, hoffset⟩
    have hx := blocks.start_index_le x
    have hy := blocks.start_index_le y
    rw [offset, offset, hindex] at hoffset
    rw [hindex] at hx
    omega

end Blocks

/-! ## Years and months -/

def isLeap (year : Nat) : Bool :=
  year % 4 = 0 ∧ (year % 100 ≠ 0 ∨ year % 400 = 0)

def yearLength (year : Nat) : Nat :=
  if isLeap year then 366 else 365

/-- The length of a month, January being month 0. -/
def monthLength (leap : Bool) : Nat → Nat
  | 1 => if leap then 29 else 28
  | 3 | 5 | 8 | 10 => 30
  | _ => 31

/-- The years from year 1 on. -/
def years : Blocks where
  length i := yearLength (i + 1)
  shortest := 365
  shortest_pos := by decide
  shortest_le i := by
    rw [yearLength]
    split <;> omega

/-- The months of a year, those after December being of the next year. -/
def months (leap : Bool) : Blocks where
  length := monthLength leap
  shortest := 28
  shortest_pos := by decide
  shortest_le i := by
    unfold monthLength
    repeat' split
    all_goals decide

theorem monthLength_le (leap : Bool) (month : Nat) : monthLength leap month ≤ 31 := by
  unfold monthLength
  repeat' split
  all_goals decide

/-- The twelve months make up the year. -/
theorem start_months_twelve (year : Nat) :
    (months (isLeap year)).start 12 = yearLength year := by
  rw [yearLength]
  cases isLeap year <;> rfl

/-! ## Seconds -/

/-- Year, month, day, hour, minute and second of a number of seconds from the
beginning of year 1 on. -/
def components (seconds : Nat) : List Nat :=
  let days := seconds / 86400
  let year := years.index days + 1
  let dayOfYear := years.offset days
  [year, (months (isLeap year)).index dayOfYear + 1, (months (isLeap year)).offset dayOfYear + 1,
    seconds % 86400 / 3600, seconds % 3600 / 60, seconds % 60]

/-- The number of seconds in the years 1 to `year`. -/
def endOfYear (year : Nat) : Nat :=
  86400 * years.start year

theorem day_lt_iff (x y : Nat) :
    x < y ↔ x / 86400 < y / 86400 ∨ x / 86400 = y / 86400 ∧ x % 86400 < y % 86400 := by
  omega

/-- The time of day is ordered as its hour, minute and second. -/
theorem timeOfDay_lt_iff (x y : Nat) :
    x % 86400 < y % 86400 ↔
      x % 86400 / 3600 < y % 86400 / 3600 ∨ x % 86400 / 3600 = y % 86400 / 3600 ∧
        (x % 3600 / 60 < y % 3600 / 60 ∨ x % 3600 / 60 = y % 3600 / 60 ∧ x % 60 < y % 60) := by
  omega

/-- Numbers of seconds are ordered as their components. -/
theorem components_lt_iff (x y : Nat) : components x < components y ↔ x < y := by
  rw [day_lt_iff x y, timeOfDay_lt_iff x y, years.lt_iff, years.eq_iff (x / 86400)]
  simp only [components, List.cons_lt_cons_iff, List.not_lt_nil, and_false, or_false,
    Nat.add_lt_add_iff_right, Nat.add_right_cancel_iff]
  by_cases hyear : years.index (x / 86400) = years.index (y / 86400)
  · -- within one year the months have the same lengths
    rw [hyear, (months (isLeap (years.index (y / 86400) + 1))).lt_iff (years.offset (x / 86400)),
      (months (isLeap (years.index (y / 86400) + 1))).eq_iff (years.offset (x / 86400))]
    tauto
  · simp only [hyear, false_and, or_false]

/-- A second of the years 1 to 9999 has a year of four digits and two digits for all
the rest. -/
theorem components_of_lt_endOfYear {seconds : Nat} (hseconds : seconds < endOfYear 9999) :
    ∃ year month day hour minute second,
      components seconds = [year, month, day, hour, minute, second] ∧ year < 10000 ∧
      month < 100 ∧ day < 100 ∧ hour < 100 ∧ minute < 100 ∧ second < 100 := by
  rw [endOfYear] at hseconds
  refine ⟨_, _, _, _, _, _, rfl, ?_, ?_, ?_, by omega, by omega, by omega⟩
  · have hyear : years.index (seconds / 86400) < 9999 :=
      years.index_lt_iff.mpr (Nat.div_lt_of_lt_mul hseconds)
    omega
  · have hoffset := years.offset_lt (seconds / 86400)
    have hmonth : (months (isLeap (years.index (seconds / 86400) + 1))).index
        (years.offset (seconds / 86400)) < 12 := by
      rw [Blocks.index_lt_iff, start_months_twelve]
      exact hoffset
    omega
  · have hoffset := (months (isLeap (years.index (seconds / 86400) + 1))).offset_lt
      (years.offset (seconds / 86400))
    have hlength := monthLength_le (isLeap (years.index (seconds / 86400) + 1))
      ((months (isLeap (years.index (seconds / 86400) + 1))).index
        (years.offset (seconds / 86400)))
    exact Nat.lt_of_le_of_lt (Nat.lt_of_lt_of_le hoffset hlength) (by decide)

end AnyCompetition.Calendar
