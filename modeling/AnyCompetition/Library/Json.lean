import Mathlib.Data.List.Basic

/-!
# Nested documents and keyed decoding

Documents are finite trees of scalars, arrays and keyed objects.  A decoder
reads one value and may fail.  The keyed readers follow the usual convention:
a required key must be present with a readable value, an optional key may also
be missing or null.
-/

namespace AnyCompetition

inductive Json where
  | null
  | bool (value : Bool)
  | number (value : Int)
  | string (value : String)
  | array (items : List Json)
  | object (fields : List (String × Json))

namespace Json

/-- The keyed entries of an object. -/
abbrev Fields := List (String × Json)

mutual

/-- The number of nested levels of a document; a scalar has one. -/
def depth : Json → Nat
  | .array items => depthItems items + 1
  | .object fields => depthFields fields + 1
  | _ => 1
termination_by structural json => json

def depthItems : List Json → Nat
  | [] => 0
  | item :: rest => max (depth item) (depthItems rest)
termination_by structural items => items

def depthFields : Fields → Nat
  | [] => 0
  | field :: rest => max (depthField field) (depthFields rest)
termination_by structural fields => fields

def depthField : String × Json → Nat
  | (_, value) => depth value
termination_by structural field => field

end

/-- An absent value is stored as null. -/
def ofOption {α : Type} (write : α → Json) : Option α → Json
  | none => .null
  | some value => write value

/-! ## Equality and union -/

mutual

/-- Equality of values; the keys of a map have no order. -/
def sameValue : Json → Json → Bool
  | .null, .null => true
  | .bool first, .bool second => first == second
  | .number first, .number second => first == second
  | .string first, .string second => first == second
  | .array first, .array second => sameItems first second
  | .object first, .object second =>
      first.length == second.length && sameFields first second
  | _, _ => false
termination_by structural first => first

def sameItems : List Json → List Json → Bool
  | [], [] => true
  | first :: firsts, second :: seconds => sameValue first second && sameItems firsts seconds
  | _, _ => false
termination_by structural first => first

def sameFields : Fields → Fields → Bool
  | [], _ => true
  | field :: rest, fields => sameField field fields && sameFields rest fields
termination_by structural first => first

def sameField : String × Json → Fields → Bool
  | (key, value), fields =>
      match fields.lookup key with
      | some other => sameValue value other
      | none => false
termination_by structural first => first

end

/-- The array has an item equal to the element. -/
def holds (stored : Option Json) (element : Json) : Bool :=
  match stored with
  | some (.array items) => items.any fun item => sameValue element item
  | _ => false

/-- An element is appended unless the array has it; what is not an array is replaced. -/
def arrayUnion (stored : Option Json) (element : Json) : Json :=
  match stored with
  | some (.array items) =>
      if holds stored element then .array items else .array (items ++ [element])
  | _ => .array [element]

/-- Equal arrays have equally many items. -/
theorem length_eq_of_sameItems {first second : List Json}
    (same : sameItems first second = true) : first.length = second.length := by
  induction first generalizing second with
  | nil =>
      cases second with
      | nil => rfl
      | cons item rest => cases same
  | cons item rest ih =>
      cases second with
      | nil => cases same
      | cons other others =>
          rw [sameItems, Bool.and_eq_true] at same
          exact congrArg Nat.succ (ih same.2)

/-- Equal maps have equal values under a key. -/
theorem sameValue_of_mem {first second : Fields} {key : String} {value : Json}
    (same : sameValue (.object first) (.object second) = true) (membership : (key, value) ∈ first) :
    ∃ other, second.lookup key = some other ∧ sameValue value other = true := by
  rw [sameValue, Bool.and_eq_true] at same
  have fields := same.2
  clear same
  induction first with
  | nil => cases membership
  | cons field rest ih =>
      rw [sameFields, Bool.and_eq_true] at fields
      rcases List.mem_cons.mp membership with rfl | later
      · cases hother : second.lookup key with
        | none =>
            rw [sameField, hother] at fields
            cases fields.1
        | some other =>
            rw [sameField, hother] at fields
            exact ⟨other, rfl, fields.1⟩
      · exact ih later fields.2

/-! ## Reading one value -/

def bool? : Json → Option Bool
  | .bool value => some value
  | _ => none

def int? : Json → Option Int
  | .number value => some value
  | _ => none

def string? : Json → Option String
  | .string value => some value
  | _ => none

def fields? : Json → Option Fields
  | .object fields => some fields
  | _ => none

def items? : Json → Option (List Json)
  | .array items => some items
  | _ => none

/-- Read every item of an array; one unreadable item makes the array unreadable. -/
def readAll {α : Type} (read : Json → Option α) : List Json → Option (List α)
  | [] => some []
  | item :: rest => do
      let value ← read item
      let values ← readAll read rest
      return value :: values

def listOf {α : Type} (read : Json → Option α) (json : Json) : Option (List α) := do
  readAll read (← json.items?)

/-- A reader that continues with a value succeeds when both parts do. -/
theorem bind_eq_some_iff {α β : Type} {read : Option α} {next : α → Option β} {result : β} :
    (read >>= next) = some result ↔ ∃ value, read = some value ∧ next value = some result :=
  Option.bind_eq_some_iff

/-! ## Reading by key -/

/-- The key must be present and its value readable. -/
def required {α : Type} (fields : Fields) (key : String)
    (read : Json → Option α) : Option α := do
  read (← fields.lookup key)

/-- The key may be missing or null; any other value must be readable. -/
def ifPresent {α : Type} (fields : Fields) (key : String)
    (read : Json → Option α) : Option (Option α) :=
  match fields.lookup key with
  | none => some none
  | some .null => some none
  | some value => (read value).map some

theorem required_of_lookup {α : Type} {fields : Fields} {key : String} {value : Json}
    (found : fields.lookup key = some value) (read : Json → Option α) :
    required fields key read = read value := by
  rw [required, found]
  rfl

/-- A key is read alike in two maps that agree there. -/
theorem required_of_lookup_eq {α : Type} {fields next : Fields} {key : String}
    (same : next.lookup key = fields.lookup key) (read : Json → Option α) :
    required next key read = required fields key read := by
  rw [required, required, same]

theorem ifPresent_of_lookup_eq {α : Type} {fields next : Fields} {key : String}
    (same : next.lookup key = fields.lookup key) (read : Json → Option α) :
    ifPresent next key read = ifPresent fields key read := by
  rw [ifPresent, ifPresent, same]

/-- Set the value of a key, replacing the value it has. -/
def setKey (fields : Fields) (key : String) (value : Json) : Fields :=
  (key, value) :: fields.filter fun field => field.1 != key

@[simp]
theorem lookup_setKey_same (fields : Fields) (key : String) (value : Json) :
    (setKey fields key value).lookup key = some value := by
  simp [setKey]

/-- Setting one key leaves the others as they are. -/
theorem lookup_setKey_of_ne (fields : Fields) {key other : String} (value : Json)
    (hne : other ≠ key) :
    (setKey fields key value).lookup other = fields.lookup other := by
  have hkey : (other == key) = false := by simpa using hne
  rw [setKey, List.lookup_cons, hkey]
  dsimp only
  induction fields with
  | nil => rfl
  | cons field rest ih =>
      obtain ⟨name, stored⟩ := field
      by_cases hname : name = key
      · subst hname
        simp [List.lookup_cons, hkey, ih]
      · simp [List.lookup_cons, hname, ih]

/-- A key set underneath another one shows only at its own place. -/
theorem lookup_setKey_setKey_of_ne (fields : Fields) {key other : String} (value : Json)
    (above : String) (stored : Json) (hne : other ≠ key) :
    (setKey (setKey fields key value) above stored).lookup other =
      (setKey fields above stored).lookup other := by
  by_cases habove : other = above
  · rw [habove, lookup_setKey_same, lookup_setKey_same]
  · rw [lookup_setKey_of_ne _ _ habove, lookup_setKey_of_ne _ _ habove,
      lookup_setKey_of_ne _ _ hne]

theorem required_setKey_of_ne {α : Type} (fields : Fields) {key other : String}
    (value : Json) (read : Json → Option α) (hne : other ≠ key) :
    required (setKey fields key value) other read = required fields other read :=
  required_of_lookup_eq (lookup_setKey_of_ne fields value hne) read

theorem ifPresent_setKey_of_ne {α : Type} (fields : Fields) {key other : String}
    (value : Json) (read : Json → Option α) (hne : other ≠ key) :
    ifPresent (setKey fields key value) other read = ifPresent fields other read :=
  ifPresent_of_lookup_eq (lookup_setKey_of_ne fields value hne) read

/-- Reading back a list written item by item. -/
theorem readAll_map {α β : Type} {read : Json → Option β} {write : α → Json}
    {image : α → β} {values : List α}
    (readable : ∀ value ∈ values, read (write value) = some (image value)) :
    readAll read (values.map write) = some (values.map image) := by
  induction values with
  | nil => rfl
  | cons value rest ih =>
      have hrest := ih fun later membership =>
        readable later (List.mem_cons_of_mem _ membership)
      simp [readAll, readable value List.mem_cons_self, hrest]

/-- Reading back an array written item by item. -/
theorem listOf_map {α β : Type} {read : Json → Option β} {write : α → Json}
    {image : α → β} {values : List α}
    (readable : ∀ value ∈ values, read (write value) = some (image value)) :
    listOf read (.array (values.map write)) = some (values.map image) := by
  simpa [listOf, items?] using readAll_map readable

@[simp]
theorem listOf_strings (values : List String) :
    listOf string? (.array (values.map .string)) = some values := by
  have hlist : listOf string? (.array (values.map .string)) = some (values.map id) :=
    listOf_map fun _ _ => rfl
  rwa [List.map_id] at hlist

/-- An optional value written with null for its absence is read back. -/
theorem ifPresent_ofOption {α : Type} {fields : Fields} {key : String}
    (read : Json → Option α) {write : α → Json} {stored : Option α}
    (found : fields.lookup key = some (ofOption write stored))
    (readable : ∀ value, read (write value) = some value)
    (nonnull : ∀ value, write value ≠ .null) :
    ifPresent fields key read = some stored := by
  cases stored with
  | none => simp [ifPresent, found, ofOption]
  | some value =>
      have hread := readable value
      cases hwrite : write value with
      | null => exact absurd hwrite (nonnull value)
      | _ =>
          rw [hwrite] at hread
          simp [ifPresent, found, ofOption, hwrite, hread]

/-- One more item of an array is read after the others. -/
theorem readAll_concat_eq_some_iff {α : Type} {read : Json → Option α} {items : List Json}
    {item : Json} {values : List α} :
    readAll read (items ++ [item]) = some values ↔
      ∃ before last, readAll read items = some before ∧ read item = some last ∧
        values = before ++ [last] := by
  induction items generalizing values with
  | nil =>
      simp only [List.nil_append, readAll, bind_eq_some_iff, Option.some.injEq, Option.pure_def]
      constructor
      · rintro ⟨last, hlast, _, rfl, rfl⟩
        exact ⟨[], last, rfl, hlast, rfl⟩
      · rintro ⟨_, last, rfl, hlast, rfl⟩
        exact ⟨last, hlast, [], rfl, rfl⟩
  | cons first rest ih =>
      simp only [List.cons_append, readAll, bind_eq_some_iff, Option.pure_def, Option.some.injEq]
      constructor
      · rintro ⟨value, hvalue, later, hlater, rfl⟩
        obtain ⟨before, last, hbefore, hlast, rfl⟩ := ih.mp hlater
        exact ⟨value :: before, last, ⟨value, hvalue, before, hbefore, rfl⟩, hlast, rfl⟩
      · rintro ⟨_, last, ⟨value, hvalue, before, hbefore, rfl⟩, hlast, rfl⟩
        exact ⟨value, hvalue, before ++ [last], ih.mpr ⟨before, last, hbefore, hlast, rfl⟩, rfl⟩

/-- Two readers that agree on every item read the same list. -/
theorem readAll_congr {α : Type} {first second : Json → Option α}
    {items : List Json} (agree : ∀ item ∈ items, first item = second item) :
    readAll first items = readAll second items := by
  induction items with
  | nil => rfl
  | cons item rest ih =>
      have hrest := ih fun later membership =>
        agree later (List.mem_cons_of_mem _ membership)
      simp [readAll, agree item List.mem_cons_self, hrest]

/-! ## Depth of what a reader reaches -/

theorem depth_le_depthItems {items : List Json} {item : Json}
    (membership : item ∈ items) : item.depth ≤ depthItems items := by
  induction items with
  | nil => cases membership
  | cons first rest ih =>
      rcases List.mem_cons.mp membership with rfl | later
      · exact Nat.le_max_left _ _
      · exact Nat.le_trans (ih later) (Nat.le_max_right _ _)

/-- A value found under a key is nested less deeply than the object. -/
theorem depth_le_depthFields {fields : Fields} {key : String} {value : Json}
    (found : fields.lookup key = some value) : value.depth ≤ depthFields fields := by
  induction fields with
  | nil => cases found
  | cons field rest ih =>
      obtain ⟨name, stored⟩ := field
      rw [List.lookup_cons] at found
      cases hname : key == name with
      | true =>
          rw [hname] at found
          cases found
          exact Nat.le_max_left _ _
      | false =>
          rw [hname] at found
          exact Nat.le_trans (ih found) (Nat.le_max_right _ _)

/-- An item of an array is nested less deeply than the array. -/
theorem depth_lt_of_mem {json : Json} {items : List Json} {item : Json}
    (harray : json.items? = some items) (membership : item ∈ items) :
    item.depth < json.depth := by
  cases json with
  | array stored =>
      cases harray
      exact Nat.lt_succ_of_le (depth_le_depthItems membership)
  | _ => cases harray

theorem required_congr {α : Type} {fields : Fields} {key : String}
    {first second : Json → Option α}
    (agree : ∀ value, fields.lookup key = some value → first value = second value) :
    required fields key first = required fields key second := by
  cases found : fields.lookup key with
  | none => simp [required, found]
  | some value => simp [required, found, agree value found]

theorem listOf_congr {α : Type} {json : Json} {first second : Json → Option α}
    (agree : ∀ items item, json.items? = some items → item ∈ items →
      first item = second item) :
    listOf first json = listOf second json := by
  cases harray : json.items? with
  | none => simp [listOf, harray]
  | some items =>
      simpa [listOf, harray] using
        readAll_congr fun item membership => agree items item harray membership

end Json

end AnyCompetition
