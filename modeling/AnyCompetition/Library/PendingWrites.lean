import Mathlib.Data.List.Basic
import Mathlib.Data.List.InsertIdx

/-!
# Whole-value writes in flight

A register has a history of committed values and a queue of pending writes of
the whole value.  A relation that holds from each committed or pending value to
every later one survives the issue of a value that everything is related to, the
loss of a pending write, and the commit of a write related to all older ones.
-/

namespace AnyCompetition.PendingWrites

universe u

variable {Value : Type u} {R : Value → Value → Prop} {committed pending : List Value}

theorem pairwise_issue {value : Value} (ordered : (committed ++ pending).Pairwise R)
    (related : ∀ earlier ∈ committed ++ pending, R earlier value) :
    (committed ++ (pending ++ [value])).Pairwise R := by
  rw [← List.append_assoc]
  refine List.pairwise_append.mpr ⟨ordered, List.pairwise_singleton R value, ?_⟩
  intro earlier membership later hlater
  rw [List.mem_singleton.mp hlater]
  exact related earlier membership

theorem pairwise_drop (ordered : (committed ++ pending).Pairwise R) (index : Nat) :
    (committed ++ pending.eraseIdx index).Pairwise R :=
  ordered.sublist ((List.Sublist.refl committed).append (pending.eraseIdx_sublist index))

/-- A pending write other than the one dropped stays in the queue. -/
theorem mem_eraseIdx_or_eq {value dropped : Value} {index : Nat}
    (hdropped : pending[index]? = some dropped) (membership : value ∈ pending) :
    value ∈ pending.eraseIdx index ∨ value = dropped := by
  obtain ⟨position, hposition⟩ := List.getElem?_of_mem membership
  by_cases hsame : position = index
  · rw [hsame, hdropped] at hposition
    exact Or.inr (Option.some.inj hposition).symm
  · exact Or.inl (List.mem_eraseIdx_iff_getElem?.mpr ⟨position, hsame, hposition⟩)

/-- A pending write leaves the queue for the history when it is related to all
the older ones. -/
theorem pairwise_commit {value : Value} {index : Nat}
    (ordered : (committed ++ pending).Pairwise R) (hvalue : pending[index]? = some value)
    (older : ∀ earlier other, earlier < index → pending[earlier]? = some other →
      R value other) :
    (committed ++ [value] ++ pending.eraseIdx index).Pairwise R := by
  obtain ⟨hcommitted, hpending, hacross⟩ := List.pairwise_append.mp ordered
  obtain ⟨hindex, hget⟩ := List.getElem?_eq_some_iff.mp hvalue
  have hsplit : pending = pending.take index ++ value :: pending.drop (index + 1) := by
    rw [← hget, List.getElem_cons_drop, List.take_append_drop]
  have hlater : ∀ other ∈ pending.drop (index + 1), R value other := by
    rw [hsplit] at hpending
    exact (List.pairwise_cons.mp (List.pairwise_append.mp hpending).2.1).1
  have hfirst : (committed ++ [value]).Pairwise R := by
    refine List.pairwise_append.mpr ⟨hcommitted, List.pairwise_singleton R value, ?_⟩
    intro earlier membership later hlater
    rw [List.mem_singleton.mp hlater]
    exact hacross earlier membership value (List.mem_of_getElem? hvalue)
  refine List.pairwise_append.mpr ⟨hfirst, hpending.eraseIdx index, ?_⟩
  intro earlier membership other hother
  rcases List.mem_append.mp membership with before | committing
  · exact hacross earlier before other (List.mem_of_mem_eraseIdx hother)
  · rw [List.mem_singleton.mp committing]
    rw [List.eraseIdx_eq_take_drop_succ] at hother
    rcases List.mem_append.mp hother with taken | dropped
    · obtain ⟨position, hposition, hget⟩ := List.getElem_of_mem taken
      rw [List.length_take] at hposition
      rw [List.getElem_take] at hget
      exact older position other (by omega)
        (List.getElem?_eq_some_iff.mpr ⟨by omega, hget⟩)
    · exact hlater other dropped

/-- Every committed value is the current one or related to it. -/
theorem eq_or_related_getLast {value current : Value} (ordered : committed.Pairwise R)
    (membership : value ∈ committed) (hcurrent : committed.getLast? = some current) :
    value = current ∨ R value current := by
  obtain ⟨front, rfl⟩ := List.getLast?_eq_some_iff.mp hcurrent
  rcases List.mem_append.mp membership with before | last
  · exact Or.inr ((List.pairwise_append.mp ordered).2.2 value before current
      List.mem_cons_self)
  · exact Or.inl (List.mem_singleton.mp last)

/-! ## The writes of one register among others -/

section Place

variable {Q : Value → Bool} {value : Value} {index : Nat}

/-- The place of a pending write among those that have the property. -/
def place (Q : Value → Bool) (pending : List Value) (index : Nat) : Nat :=
  ((pending.take index).filter Q).length

/-- The queue around one of its writes, with it and without it. -/
theorem eq_take_append_drop (hvalue : pending[index]? = some value) :
    pending = pending.take index ++ value :: pending.drop (index + 1) ∧
      pending.eraseIdx index = pending.take index ++ pending.drop (index + 1) := by
  obtain ⟨hindex, hget⟩ := List.getElem?_eq_some_iff.mp hvalue
  refine ⟨?_, List.eraseIdx_eq_take_drop_succ pending index⟩
  rw [← hget, List.getElem_cons_drop, List.take_append_drop]

/-- A write with the property has its place among them. -/
theorem filter_place (hvalue : pending[index]? = some value) (holds : Q value = true) :
    (pending.filter Q)[place Q pending index]? = some value := by
  have hfilter := congrArg (List.filter Q) (eq_take_append_drop hvalue).1
  rw [List.filter_append, List.filter_cons_of_pos holds] at hfilter
  rw [hfilter, place, List.getElem?_append_right (Nat.le_refl _), Nat.sub_self]
  rfl

/-- Dropping a write with the property drops it from its place among them. -/
theorem filter_eraseIdx_of_pos (hvalue : pending[index]? = some value) (holds : Q value = true) :
    (pending.eraseIdx index).filter Q =
      (pending.filter Q).eraseIdx (place Q pending index) := by
  obtain ⟨hsplit, herase⟩ := eq_take_append_drop hvalue
  have hfilter := congrArg (List.filter Q) hsplit
  rw [List.filter_append, List.filter_cons_of_pos holds] at hfilter
  rw [herase, hfilter, List.filter_append, place, List.eraseIdx_append_of_length_le (Nat.le_refl _),
    Nat.sub_self]
  rfl

/-- Dropping another write drops none of them. -/
theorem filter_eraseIdx_of_neg (hvalue : pending[index]? = some value)
    (fails : Q value = false) : (pending.eraseIdx index).filter Q = pending.filter Q := by
  obtain ⟨hsplit, herase⟩ := eq_take_append_drop hvalue
  have hfilter := congrArg (List.filter Q) hsplit
  rw [List.filter_append, List.filter_cons_of_neg (by simp [fails])] at hfilter
  rw [herase, hfilter, List.filter_append]

end Place

end AnyCompetition.PendingWrites
