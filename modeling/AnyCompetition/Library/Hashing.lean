import Mathlib.Data.List.Basic

/-!
# Values fed to a hasher

A synthesised hash feeds its hasher the stored properties one after the other: a
discriminator before an optional value, the length before the items of an array.
What was fed can therefore be read off from the front, and two values feed the same
sequence only when they are the same.
-/

namespace AnyCompetition.Hashing

universe u

variable {α : Type u}

/-- One value given to a hasher. -/
inductive Fed where
  | byte (value : UInt8)
  | int (value : Int)
  | string (value : String)
  deriving DecidableEq

def ofInt (value : Int) : List Fed := [.int value]

def ofString (value : String) : List Fed := [.string value]

/-- An optional value feeds a discriminator first. -/
def ofOption (feed : α → List Fed) : Option α → List Fed
  | none => [.byte 0]
  | some value => .byte 1 :: feed value

/-- An array feeds its length first. -/
def ofArray (feed : α → List Fed) (items : List α) : List Fed :=
  .int items.length :: items.flatMap feed

/-- What the value feeds is told from whatever is fed after it. -/
def ReadOff (feed : α → List Fed) (value : α) : Prop :=
  ∀ other rest otherRest, feed value ++ rest = feed other ++ otherRest →
    value = other ∧ rest = otherRest

variable {feed : α → List Fed} {value other : α}

/-- Values that are read off feed the same only when they are the same. -/
theorem ReadOff.eq_iff (readOff : ReadOff feed value) :
    feed value = feed other ↔ value = other := by
  constructor
  · intro hfed
    exact (readOff other [] [] (congrArg (· ++ []) hfed)).1
  · exact congrArg feed

/-- An equality that leaves something out keeps the law of hashes exactly where it fails or
what it leaves out is the same. -/
theorem ReadOff.feeds_same_iff (readOff : ReadOff feed value) {equal : Bool} {ignored : Prop}
    (hsame : value = other ↔ equal = true ∧ ignored) :
    (equal = true → feed value = feed other) ↔ equal = false ∨ ignored := by
  rw [readOff.eq_iff, hsame]
  cases equal with
  | false => simp
  | true => simp

theorem readOff_ofInt (value : Int) : ReadOff ofInt value := by
  intro other rest otherRest hfed
  obtain ⟨hhead, hrest⟩ := List.cons.inj hfed
  exact ⟨Fed.int.inj hhead, hrest⟩

theorem readOff_ofString (value : String) : ReadOff ofString value := by
  intro other rest otherRest hfed
  obtain ⟨hhead, hrest⟩ := List.cons.inj hfed
  exact ⟨Fed.string.inj hhead, hrest⟩

/-- The discriminator tells whether there is a value. -/
theorem readOff_ofOption {value : Option α} (readOff : ∀ inner ∈ value, ReadOff feed inner) :
    ReadOff (ofOption feed) value := by
  intro other rest otherRest hfed
  cases value with
  | none =>
      cases other with
      | none => exact ⟨rfl, (List.cons.inj hfed).2⟩
      | some inner => exact absurd (List.cons.inj hfed).1 (by decide)
  | some inner =>
      cases other with
      | none => exact absurd (List.cons.inj hfed).1 (by decide)
      | some otherInner =>
          obtain ⟨rfl, hrest⟩ :=
            readOff inner rfl otherInner rest otherRest (List.cons.inj hfed).2
          exact ⟨rfl, hrest⟩

/-- Equally many items are read off one by one. -/
theorem items_eq_of_flatMap {items others : List α} {rest otherRest : List Fed}
    (readOff : ∀ item ∈ items, ReadOff feed item) (hlength : items.length = others.length)
    (hfed : items.flatMap feed ++ rest = others.flatMap feed ++ otherRest) :
    items = others ∧ rest = otherRest := by
  induction items generalizing others with
  | nil =>
      obtain rfl := List.eq_nil_of_length_eq_zero hlength.symm
      exact ⟨rfl, hfed⟩
  | cons item items ih =>
      cases others with
      | nil => cases hlength
      | cons other others =>
          rw [List.flatMap_cons, List.flatMap_cons, List.append_assoc, List.append_assoc] at hfed
          obtain ⟨rfl, hlater⟩ := readOff item List.mem_cons_self _ _ _ hfed
          obtain ⟨rfl, hrest⟩ := ih
            (fun later membership => readOff later (List.mem_cons_of_mem _ membership))
            (Nat.succ.inj hlength) hlater
          exact ⟨rfl, hrest⟩

theorem readOff_ofArray {items : List α} (readOff : ∀ item ∈ items, ReadOff feed item) :
    ReadOff (ofArray feed) items := by
  intro others rest otherRest hfed
  obtain ⟨hhead, hitems⟩ := List.cons.inj hfed
  have hlength : items.length = others.length := Int.ofNat.inj (Fed.int.inj hhead)
  exact items_eq_of_flatMap readOff hlength hitems

end AnyCompetition.Hashing
