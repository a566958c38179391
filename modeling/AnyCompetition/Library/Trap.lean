import Mathlib.Data.List.Basic

/-!
# Operations that stop the program

An array read or written outside its bounds, a forced optional that is nil, a
closed range with crossed bounds and a forced cast to the wrong type stop the
program.  Such operations return `.error` with the reason.
-/

namespace AnyCompetition

/-- The reasons for which a running program stops. -/
inductive Trap where
  | indexOutOfRange
  | unexpectedNil
  | invalidRange
  | failedCast
  deriving DecidableEq, Repr

namespace Trap

variable {α β : Type}

/-- `values[index]`. -/
def element (values : List α) (index : Int) : Except Trap α :=
  if index < 0 then .error .indexOutOfRange
  else
    match values[index.toNat]? with
    | some value => .ok value
    | none => .error .indexOutOfRange

/-- `values[index] = value`. -/
def replaceElement (values : List α) (index : Int) (value : α) :
    Except Trap (List α) :=
  if 0 ≤ index ∧ index.toNat < values.length then
    .ok (values.set index.toNat value)
  else .error .indexOutOfRange

/-- `value!`. -/
def unwrap : Option α → Except Trap α
  | some value => .ok value
  | none => .error .unexpectedNil

@[simp]
theorem unwrap_some (value : α) : unwrap (some value) = .ok value := rfl

/-- An operation that continues with a value succeeds when both parts do. -/
theorem bind_eq_ok_iff {operation : Except Trap α} {next : α → Except Trap β} {result : β} :
    (operation >>= next) = .ok result ↔
      ∃ value, operation = .ok value ∧ next value = .ok result := by
  cases operation with
  | error trap => simp [bind, Except.bind]
  | ok value => simp [bind, Except.bind]

theorem element_of_getElem? {values : List α} {index : Nat} {value : α}
    (found : values[index]? = some value) : element values index = .ok value := by
  have hnonneg : ¬ ((index : Int) < 0) := by omega
  simp [element, hnonneg, found]

theorem element_of_getElem?_none {values : List α} {index : Nat}
    (missing : values[index]? = none) :
    element values index = .error .indexOutOfRange := by
  have hnonneg : ¬ ((index : Int) < 0) := by omega
  simp [element, hnonneg, missing]

theorem replaceElement_of_lt {values : List α} {index : Nat} (value : α)
    (inside : index < values.length) :
    replaceElement values index value = .ok (values.set index value) := by
  simp [replaceElement, inside]

/-- An access that does not trap is at a position of the list. -/
theorem getElem?_of_element {values : List α} {index : Int} {value : α}
    (found : element values index = .ok value) :
    ∃ position : Nat, index = position ∧ values[position]? = some value := by
  rw [element] at found
  split at found
  · cases found
  · rename_i hnonneg
    refine ⟨index.toNat, by omega, ?_⟩
    split at found
    · rename_i hvalue
      cases found
      exact hvalue
    · cases found

theorem lt_of_replaceElement {values next : List α} {index : Int} {value : α}
    (written : replaceElement values index value = .ok next) :
    ∃ position : Nat, index = position ∧ position < values.length := by
  rw [replaceElement] at written
  split at written
  · rename_i inside
    exact ⟨index.toNat, by omega, inside.2⟩
  · cases written

/-- Forcing optionals none of which is nil collects their values. -/
theorem mapM_unwrap (value? : α → Option β) {values : List α}
    (present : ∀ value ∈ values, (value? value).isSome) :
    values.mapM (fun value => unwrap (value? value)) = .ok (values.filterMap value?) := by
  induction values with
  | nil => rfl
  | cons value rest ih =>
      obtain ⟨found, hfound⟩ := Option.isSome_iff_exists.mp (present value List.mem_cons_self)
      have hrest := ih fun later membership => present later (List.mem_cons_of_mem _ membership)
      rw [List.mapM_cons, hrest, hfound, List.filterMap_cons_some hfound]
      rfl

/-- Forcing optionals one of which is nil traps. -/
theorem mapM_unwrap_trap {value? : α → Option β} {values : List α} {missing : α}
    (membership : missing ∈ values) (isNil : value? missing = none) :
    values.mapM (fun value => unwrap (value? value)) = .error .unexpectedNil := by
  induction values with
  | nil => cases membership
  | cons value rest ih =>
      rw [List.mapM_cons]
      cases hvalue : value? value with
      | none => rfl
      | some found =>
          rcases List.mem_cons.mp membership with rfl | later
          · rw [isNil] at hvalue
            cases hvalue
          · rw [unwrap_some, ih later]
            rfl

/-- Forced optionals that do not trap are the optionals. -/
theorem map_some_of_mapM_unwrap {value? : α → Option β} {values : List α} {found : List β}
    (forced : values.mapM (fun value => unwrap (value? value)) = .ok found) :
    found.map some = values.map value? := by
  induction values generalizing found with
  | nil =>
      cases forced
      rfl
  | cons value rest ih =>
      rw [List.mapM_cons] at forced
      obtain ⟨first, hfirst, hrest⟩ := bind_eq_ok_iff.mp forced
      obtain ⟨later, hlater, ⟨⟩⟩ := bind_eq_ok_iff.mp hrest
      cases hvalue : value? value with
      | none =>
          rw [hvalue] at hfirst
          cases hfirst
      | some present =>
          rw [hvalue] at hfirst
          cases hfirst
          rw [List.map_cons, List.map_cons, hvalue, ih hlater]

/-- A loop none of whose steps traps computes the fold of its steps. -/
theorem foldlM_ok {step : β → α → Except Trap β} (next : β → α → β)
    {values : List α} {start : β}
    (steps : ∀ current, ∀ value ∈ values, step current value = .ok (next current value)) :
    values.foldlM step start = .ok (values.foldl next start) := by
  induction values generalizing start with
  | nil => rfl
  | cons value rest ih =>
      rw [List.foldlM_cons, steps start value List.mem_cons_self]
      exact ih fun current later membership =>
        steps current later (List.mem_cons_of_mem _ membership)

end Trap

end AnyCompetition
