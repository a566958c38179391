import Mathlib.Data.List.Induction

/-!
# Integers read from text

A text of 16-bit units is read as an integer when it is an optional sign and at
least one decimal digit and does not overflow 64 bits.  The texts read as a
number of one digit are those of zeros and a last digit.
-/

namespace AnyCompetition.DecimalText

/-- The unit of the digit zero. -/
abbrev zero : UInt16 := 48

abbrev plus : UInt16 := 43

abbrev minus : UInt16 := 45

/-- The greatest integer of 64 bits; the least one is further from zero by one. -/
abbrev maxInt : Nat := 9223372036854775807

def digit? (unit : UInt16) : Option Nat :=
  if 48 ≤ unit.toNat ∧ unit.toNat ≤ 57 then some (unit.toNat - 48) else none

/-- One more digit; a value above the limit overflows. -/
def addDigit (limit value : Nat) (unit : UInt16) : Option Nat :=
  (digit? unit).bind fun digit =>
    if 10 * value + digit ≤ limit then some (10 * value + digit) else none

/-- The value of at least one digit. -/
def digits? (limit : Nat) (units : List UInt16) : Option Nat :=
  if units = [] then none else units.foldlM (addDigit limit) 0

/-- The integer of a text. -/
def int? (text : List UInt16) : Option Int :=
  match text with
  | [] => none
  | sign :: units =>
      if sign = minus then (digits? (maxInt + 1) units).map fun value : Nat => -(value : Int)
      else if sign = plus then (digits? maxInt units).map fun value : Nat => (value : Int)
      else (digits? maxInt text).map fun value : Nat => (value : Int)

/-- Only zeros, at least one. -/
def Zeros (units : List UInt16) : Prop :=
  ∃ zeros, units = List.replicate zeros zero ++ [zero]

/-- Zeros and a last digit. -/
def LastDigit (units : List UInt16) : Prop :=
  ∃ zeros digit, units = List.replicate zeros zero ++ [digit] ∧ (digit? digit).isSome

/-- A number of one digit, with an optional sign; only zero has a minus. -/
def OneDigit (text : List UInt16) : Prop :=
  LastDigit text ∨ (∃ units, text = plus :: units ∧ LastDigit units) ∨
    ∃ units, text = minus :: units ∧ Zeros units

theorem digit?_eq_some_iff {unit : UInt16} {digit : Nat} :
    digit? unit = some digit ↔ unit.toNat = digit + 48 ∧ digit ≤ 9 := by
  rw [digit?, Option.ite_none_right_eq_some, Option.some.injEq]
  omega

theorem digit?_eq_zero_iff {unit : UInt16} : digit? unit = some 0 ↔ unit = zero := by
  rw [digit?_eq_some_iff, ← UInt16.toNat_inj]
  constructor
  · rintro ⟨hunit, _⟩
    exact hunit
  · intro hunit
    exact ⟨hunit, Nat.zero_le 9⟩

theorem addDigit_eq_some_iff {limit value next : Nat} {unit : UInt16} :
    addDigit limit value unit = some next ↔
      ∃ digit, digit? unit = some digit ∧ next = 10 * value + digit ∧ next ≤ limit := by
  simp only [addDigit, Option.bind_eq_some_iff, Option.ite_none_right_eq_some,
    Option.some.injEq]
  constructor
  · rintro ⟨digit, hdigit, hlimit, rfl⟩
    exact ⟨digit, hdigit, rfl, hlimit⟩
  · rintro ⟨digit, hdigit, rfl, hlimit⟩
    exact ⟨digit, hdigit, hlimit, rfl⟩

/-- The last digit is added to the value of the others. -/
theorem foldlM_concat_eq_some_iff {limit value : Nat} {units : List UInt16} {last : UInt16} :
    (units ++ [last]).foldlM (addDigit limit) 0 = some value ↔
      ∃ before digit, units.foldlM (addDigit limit) 0 = some before ∧
        digit? last = some digit ∧ value = 10 * before + digit ∧ value ≤ limit := by
  rw [List.foldlM_append]
  simp only [List.foldlM_cons, List.foldlM_nil, bind_pure, Option.bind_eq_bind,
    Option.bind_eq_some_iff, addDigit_eq_some_iff, exists_and_left]

theorem foldlM_eq_zero_iff {limit : Nat} {units : List UInt16} :
    units.foldlM (addDigit limit) 0 = some 0 ↔
      ∃ zeros, units = List.replicate zeros zero := by
  induction units using List.reverseRecOn with
  | nil => exact ⟨fun _ => ⟨0, rfl⟩, fun _ => rfl⟩
  | append_singleton units last ih =>
      rw [foldlM_concat_eq_some_iff]
      constructor
      · rintro ⟨before, digit, hbefore, hdigit, hzero, _⟩
        obtain ⟨rfl, rfl⟩ : before = 0 ∧ digit = 0 := by omega
        obtain ⟨zeros, rfl⟩ := ih.mp hbefore
        rw [digit?_eq_zero_iff.mp hdigit]
        exact ⟨zeros + 1, List.replicate_succ'.symm⟩
      · rintro ⟨zeros, hzeros⟩
        cases zeros with
        | zero => exact absurd hzeros (List.append_ne_nil_of_right_ne_nil _ (List.cons_ne_nil _ _))
        | succ zeros =>
            rw [List.replicate_succ'] at hzeros
            obtain ⟨rfl, hlast⟩ := List.append_inj' hzeros rfl
            exact ⟨0, 0, ih.mpr ⟨zeros, rfl⟩, digit?_eq_zero_iff.mpr (List.singleton_inj.mp hlast),
              rfl, Nat.zero_le limit⟩

/-- A value of one digit is the last digit, and all the others are zero. -/
theorem digits?_le_nine_iff {limit value : Nat} (hlimit : 9 ≤ limit) (hvalue : value ≤ 9)
    {units : List UInt16} :
    digits? limit units = some value ↔
      ∃ zeros digit, units = List.replicate zeros zero ++ [digit] ∧
        digit? digit = some value := by
  rcases List.eq_nil_or_concat units with rfl | ⟨front, last, rfl⟩
  · constructor
    · intro hnone
      cases hnone
    · rintro ⟨zeros, digit, hunits, _⟩
      exact absurd hunits.symm (List.append_ne_nil_of_right_ne_nil _ (List.cons_ne_nil _ _))
  · rw [List.concat_eq_append, digits?, if_neg (by simp), foldlM_concat_eq_some_iff]
    constructor
    · rintro ⟨before, digit, hbefore, hdigit, rfl, _⟩
      obtain rfl : before = 0 := by omega
      obtain ⟨zeros, rfl⟩ := foldlM_eq_zero_iff.mp hbefore
      rw [Nat.mul_zero, Nat.zero_add]
      exact ⟨zeros, last, rfl, hdigit⟩
    · rintro ⟨zeros, digit, hunits, hdigit⟩
      obtain ⟨rfl, hlast⟩ := List.append_inj' hunits rfl
      rw [List.singleton_inj.mp hlast]
      exact ⟨0, value, foldlM_eq_zero_iff.mpr ⟨zeros, rfl⟩, hdigit, by omega, by omega⟩

/-- Digits of a value of at most nine. -/
theorem exists_digits?_iff {limit : Nat} (hlimit : 9 ≤ limit) {units : List UInt16} :
    (∃ value ≤ 9, digits? limit units = some value) ↔ LastDigit units := by
  constructor
  · rintro ⟨value, hvalue, hdigits⟩
    obtain ⟨zeros, digit, hunits, hdigit⟩ := (digits?_le_nine_iff hlimit hvalue).mp hdigits
    exact ⟨zeros, digit, hunits, Option.isSome_iff_exists.mpr ⟨value, hdigit⟩⟩
  · rintro ⟨zeros, digit, hunits, hsome⟩
    obtain ⟨value, hdigit⟩ := Option.isSome_iff_exists.mp hsome
    have hvalue := (digit?_eq_some_iff.mp hdigit).2
    exact ⟨value, hvalue, (digits?_le_nine_iff hlimit hvalue).mpr ⟨zeros, digit, hunits, hdigit⟩⟩

theorem digits?_eq_zero_iff {limit : Nat} (hlimit : 9 ≤ limit) {units : List UInt16} :
    digits? limit units = some 0 ↔ Zeros units := by
  rw [digits?_le_nine_iff hlimit (Nat.zero_le 9)]
  constructor
  · rintro ⟨zeros, digit, hunits, hdigit⟩
    rw [digit?_eq_zero_iff.mp hdigit] at hunits
    exact ⟨zeros, hunits⟩
  · rintro ⟨zeros, hunits⟩
    exact ⟨zeros, zero, hunits, digit?_eq_zero_iff.mpr rfl⟩

/-- The first unit of zeros and a last digit is a digit. -/
theorem LastDigit.head {unit : UInt16} {units : List UInt16}
    (lastDigit : LastDigit (unit :: units)) : (digit? unit).isSome := by
  obtain ⟨zeros, digit, hunits, hdigit⟩ := lastDigit
  cases zeros with
  | zero =>
      cases hunits
      exact hdigit
  | succ zeros =>
      cases hunits
      rfl

/-- A single unit is a number of one digit when it is a digit. -/
theorem oneDigit_singleton_iff {unit : UInt16} : OneDigit [unit] ↔ (digit? unit).isSome := by
  constructor
  · rintro (lastDigit | ⟨_, ⟨⟩, zeros, digit, hunits, _⟩ | ⟨_, ⟨⟩, zeros, hunits⟩)
    · exact lastDigit.head
    · exact absurd hunits.symm (List.append_ne_nil_of_right_ne_nil _ (List.cons_ne_nil _ _))
    · exact absurd hunits.symm (List.append_ne_nil_of_right_ne_nil _ (List.cons_ne_nil _ _))
  · exact fun hdigit => .inl ⟨0, unit, rfl, hdigit⟩

theorem LastDigit.isSome {units : List UInt16} (lastDigit : LastDigit units) :
    ∀ unit ∈ units, (digit? unit).isSome := by
  obtain ⟨zeros, digit, rfl, hdigit⟩ := lastDigit
  intro unit membership
  rcases List.mem_append.mp membership with hzero | last
  · rw [List.eq_of_mem_replicate hzero]
    rfl
  · rw [List.mem_singleton.mp last]
    exact hdigit

/-- A number of one digit has only digits and signs. -/
theorem OneDigit.digit_or_sign {text : List UInt16} (oneDigit : OneDigit text) :
    ∀ unit ∈ text, (digit? unit).isSome ∨ unit = plus ∨ unit = minus := by
  intro unit membership
  rcases oneDigit with lastDigit | ⟨units, rfl, lastDigit⟩ | ⟨units, rfl, zeros, rfl⟩
  · exact .inl (lastDigit.isSome unit membership)
  · rcases List.mem_cons.mp membership with rfl | later
    · exact .inr (.inl rfl)
    · exact .inl (lastDigit.isSome unit later)
  · rcases List.mem_cons.mp membership with rfl | later
    · exact .inr (.inr rfl)
    · exact .inl (LastDigit.isSome ⟨zeros, zero, rfl, rfl⟩ unit later)

/-- Digits read without a minus. -/
theorem map_natCast_between_iff {limit : Nat} (hlimit : 9 ≤ limit) (units : List UInt16) :
    (∃ value, (digits? limit units).map (fun value : Nat => (value : Int)) = some value ∧
      0 ≤ value ∧ value ≤ 9) ↔ LastDigit units := by
  rw [← exists_digits?_iff hlimit]
  constructor
  · rintro ⟨_, hvalue, _, hle⟩
    obtain ⟨value, hdigits, rfl⟩ := Option.map_eq_some_iff.mp hvalue
    exact ⟨value, by omega, hdigits⟩
  · rintro ⟨value, hle, hdigits⟩
    exact ⟨value, by rw [hdigits, Option.map_some], by omega, by omega⟩

/-- Digits read after a minus. -/
theorem map_neg_between_iff {limit : Nat} (hlimit : 9 ≤ limit) (units : List UInt16) :
    (∃ value, (digits? limit units).map (fun value : Nat => -(value : Int)) = some value ∧
      0 ≤ value ∧ value ≤ 9) ↔ Zeros units := by
  rw [← digits?_eq_zero_iff hlimit]
  constructor
  · rintro ⟨_, hvalue, hnonneg, _⟩
    obtain ⟨value, hdigits, rfl⟩ := Option.map_eq_some_iff.mp hvalue
    obtain rfl : value = 0 := by omega
    exact hdigits
  · intro hdigits
    exact ⟨0, by rw [hdigits, Option.map_some]; rfl, by omega, by omega⟩

/-- The texts read as an integer between 0 and 9. -/
theorem int?_between_iff (text : List UInt16) :
    (∃ value, int? text = some value ∧ 0 ≤ value ∧ value ≤ 9) ↔ OneDigit text := by
  cases text with
  | nil =>
      constructor
      · rintro ⟨_, hnone, _⟩
        cases hnone
      · rintro (⟨zeros, digit, hunits, _⟩ | ⟨_, hunits, _⟩ | ⟨_, hunits, _⟩)
        · exact absurd hunits.symm (List.append_ne_nil_of_right_ne_nil _ (List.cons_ne_nil _ _))
        · cases hunits
        · cases hunits
  | cons sign units =>
      have hdigits (lastDigit : LastDigit (sign :: units)) : sign ≠ minus ∧ sign ≠ plus := by
        constructor
        · rintro rfl
          cases lastDigit.head
        · rintro rfl
          cases lastDigit.head
      by_cases hminus : sign = minus
      · subst hminus
        rw [int?, if_pos rfl, map_neg_between_iff (by decide)]
        constructor
        · intro zeros
          exact .inr (.inr ⟨units, rfl, zeros⟩)
        · rintro (lastDigit | ⟨_, hplus, _⟩ | ⟨_, ⟨⟩, zeros⟩)
          · exact absurd rfl (hdigits lastDigit).1
          · cases hplus
          · exact zeros
      · by_cases hplus : sign = plus
        · subst hplus
          rw [int?, if_neg hminus, if_pos rfl, map_natCast_between_iff (by decide)]
          constructor
          · intro lastDigit
            exact .inr (.inl ⟨units, rfl, lastDigit⟩)
          · rintro (lastDigit | ⟨_, ⟨⟩, lastDigit⟩ | ⟨_, hsign, _⟩)
            · exact absurd rfl (hdigits lastDigit).2
            · exact lastDigit
            · cases hsign
        · rw [int?, if_neg hminus, if_neg hplus, map_natCast_between_iff (by decide)]
          constructor
          · exact .inl
          · rintro (lastDigit | ⟨_, hsign, _⟩ | ⟨_, hsign, _⟩)
            · exact lastDigit
            · exact absurd (List.cons.inj hsign).1 hplus
            · exact absurd (List.cons.inj hsign).1 hminus

end AnyCompetition.DecimalText
