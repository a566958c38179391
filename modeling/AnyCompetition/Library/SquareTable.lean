import Mathlib.Data.List.Basic

/-!
# Square tables as lists of rows

Cells are addressed by a row and a column; an address outside the table has no
cell.  Replacing one cell changes no other, and two square tables with the same
cells are the same table.
-/

namespace AnyCompetition.SquareTable

universe u v

variable {α : Type u} {β : Type v}

def cell? (rows : List (List α)) (i j : Nat) : Option α :=
  rows[i]?.bind fun row => row[j]?

def setCell (rows : List (List α)) (i j : Nat) (value : α) : List (List α) :=
  rows.modify i fun row => row.set j value

/-- As many rows as every row has cells. -/
structure Square (n : Nat) (rows : List (List α)) : Prop where
  rows_length : rows.length = n
  row_length : ∀ row ∈ rows, row.length = n

/-- The replaced cell holds the new value, and every other cell its old one. -/
theorem cell?_setCell {rows : List (List α)} {i j : Nat} (value : α)
    (inside : (cell? rows i j).isSome) (k l : Nat) :
    cell? (setCell rows i j value) k l =
      if k = i ∧ l = j then some value else cell? rows k l := by
  unfold cell? setCell at *
  rw [List.getElem?_modify]
  by_cases hrow : i = k
  · subst hrow
    cases hget : rows[i]? with
    | none => simp [hget] at inside
    | some row =>
        by_cases hcolumn : j = l
        · subst hcolumn
          have hbound : j < row.length := by simpa [hget] using inside
          simp [hbound]
        · simp [hcolumn, Ne.symm hcolumn]
  · simp [hrow, Ne.symm hrow]

/-- Mapping every cell maps the cell found. -/
theorem cell?_map (f : α → β) (rows : List (List α)) (i j : Nat) :
    cell? (rows.map (List.map f)) i j = (cell? rows i j).map f := by
  unfold cell?
  rw [List.getElem?_map]
  cases rows[i]? with
  | none => rfl
  | some row => simp

/-- A loop that appends one value for each element computes a map. -/
theorem foldl_append_singleton (f : α → β) (values : List α) :
    values.foldl (fun built value => built ++ [f value]) [] = values.map f := by
  rw [List.map_eq_flatMap (f := f), List.foldl_append_eq_append, List.nil_append]
  rfl

namespace Square

/-- A square table has exactly the cells below its size. -/
theorem isSome_cell?_iff {n : Nat} {rows : List (List α)} (square : Square n rows)
    (i j : Nat) : (cell? rows i j).isSome ↔ i < n ∧ j < n := by
  unfold cell?
  by_cases hrow : i < rows.length
  · have hlength := square.row_length rows[i] (List.getElem_mem hrow)
    have hbound : i < n := square.rows_length ▸ hrow
    simp [List.getElem?_eq_getElem hrow, hlength, hbound]
  · have hbound : ¬ i < n := square.rows_length ▸ hrow
    simp [List.getElem?_eq_none (Nat.le_of_not_lt hrow), hbound]

theorem exists_cell {n : Nat} {rows : List (List α)} (square : Square n rows)
    {i j : Nat} (hi : i < n) (hj : j < n) : ∃ value, cell? rows i j = some value :=
  Option.isSome_iff_exists.mp ((square.isSome_cell?_iff i j).mpr ⟨hi, hj⟩)

theorem lt_of_cell {n : Nat} {rows : List (List α)} (square : Square n rows)
    {i j : Nat} {value : α} (found : cell? rows i j = some value) : i < n ∧ j < n :=
  (square.isSome_cell?_iff i j).mp (Option.isSome_iff_exists.mpr ⟨value, found⟩)

protected theorem setCell {n : Nat} {rows : List (List α)} (square : Square n rows)
    (i j : Nat) (value : α) : Square n (setCell rows i j value) := by
  refine ⟨by simpa [SquareTable.setCell] using square.rows_length, ?_⟩
  intro row membership
  obtain ⟨k, hk, rfl⟩ := List.getElem_of_mem membership
  have hold : k < rows.length := by simpa [SquareTable.setCell] using hk
  have hlength := square.row_length rows[k] (List.getElem_mem hold)
  simp only [SquareTable.setCell, List.getElem_modify]
  split
  · simpa using hlength
  · exact hlength

protected theorem map {n : Nat} {rows : List (List α)} (square : Square n rows)
    (f : α → β) : Square n (rows.map (List.map f)) := by
  refine ⟨by simpa using square.rows_length, ?_⟩
  intro row membership
  obtain ⟨source, hsource, rfl⟩ := List.mem_map.mp membership
  simpa using square.row_length source hsource

/-- A square table is determined by its cells. -/
theorem ext {n : Nat} {first second : List (List α)} (hfirst : Square n first)
    (hsecond : Square n second)
    (agree : ∀ i j, i < n → j < n → cell? first i j = cell? second i j) :
    first = second := by
  have hlength : first.length = second.length :=
    hfirst.rows_length.trans hsecond.rows_length.symm
  apply List.ext_getElem hlength
  intro i hi hi'
  have hrow := hfirst.row_length first[i] (List.getElem_mem hi)
  have hrow' := hsecond.row_length second[i] (List.getElem_mem hi')
  apply List.ext_getElem (hrow.trans hrow'.symm)
  intro j hj hj'
  have hcell := agree i j (hfirst.rows_length ▸ hi) (hrow ▸ hj)
  simpa [cell?, List.getElem?_eq_getElem hi, List.getElem?_eq_getElem hi',
    List.getElem?_eq_getElem hj, List.getElem?_eq_getElem hj'] using hcell

end Square

end AnyCompetition.SquareTable
