/-!
# Tables of register banks

Every bank of the interrupt controller is a table: 512 interrupt states, 480
shared priorities, eight private banks, one CPU interface per connected CPU.
The number of rows is part of the type, so a table never changes its shape.

## The model

`Table n α` is an array of exactly `n` rows. It is seen through `row`, which is
total: past the end every row is the default one. Each operation is described
by what it does to `row` (`row_alter`, `row_mapRows`, `row_build`), and two
tables with the same rows are the same (`ext_row`), so nothing below looks at
the array again. Whole tables are made as lists, which also evaluate fast in
proofs: an array that grows by one row at a time does not.
-/

namespace Gic

/-- A table of `n` rows. -/
structure Table (n : Nat) (α : Type) where
  /-- The rows, first to last. -/
  cells : Array α
  /-- There are `n` of them. -/
  size_cells : cells.size = n
  deriving DecidableEq

namespace Table

variable {n : Nat} {α : Type}

/-- The table whose rows are all `a`. -/
def replicate (n : Nat) (a : α) : Table n α :=
  ⟨Array.replicate n a, Array.size_replicate⟩

/-- The table whose row `i` is `f i`. -/
def build (n : Nat) (f : Nat → α) : Table n α :=
  ⟨((List.range n).map f).toArray, by
    rw [List.size_toArray, List.length_map, List.length_range]⟩

instance [Inhabited α] : Inhabited (Table n α) := ⟨replicate n default⟩

/-- Row `i`, the default one past the end. -/
def row [Inhabited α] (t : Table n α) (i : Nat) : α := t.cells.getD i default

/-- Replaces row `i` by its image under `f`; there is nothing to do past the end. -/
def alter (t : Table n α) (i : Nat) (f : α → α) : Table n α :=
  ⟨t.cells.modify i f, by rw [Array.size_modify]; exact t.size_cells⟩

/-- Replaces every row `i` by its image under `f i`. -/
def mapRows (t : Table n α) (f : Nat → α → α) : Table n α :=
  ⟨(t.cells.toList.zipIdx.map fun cell => f cell.2 cell.1).toArray, by
    rw [List.size_toArray, List.length_map, List.length_zipIdx]; exact t.size_cells⟩

/-- The rows as a list, first to last. -/
def toList (t : Table n α) : List α := t.cells.toList

theorem row_eq [Inhabited α] (t : Table n α) (i : Nat) : t.row i = t.cells[i]?.getD default :=
  Array.getD_eq_getD_getElem?

theorem row_of_le [Inhabited α] (t : Table n α) {i : Nat} (h : n ≤ i) : t.row i = default := by
  have h : t.cells.size ≤ i := by rw [t.size_cells]; exact h
  rw [row_eq, Array.getElem?_eq_none h, Option.getD_none]

theorem row_replicate [Inhabited α] (a : α) (i : Nat) :
    (replicate n a).row i = if i < n then a else default := by
  rw [row_eq, replicate, Array.getElem?_replicate]
  split <;> rfl

theorem row_build [Inhabited α] (f : Nat → α) (i : Nat) :
    (build n f).row i = if i < n then f i else default := by
  rw [row_eq, build, List.getElem?_toArray, List.getElem?_map]
  split
  · rename_i hi
    rw [List.getElem?_range hi]
    rfl
  · rename_i hi
    rw [List.getElem?_eq_none (by rw [List.length_range]; omega)]
    rfl

theorem row_alter [Inhabited α] (t : Table n α) (i : Nat) (f : α → α) (j : Nat) :
    (t.alter i f).row j = if i = j ∧ j < n then f (t.row j) else t.row j := by
  rw [row_eq, row_eq, alter, Array.getElem?_modify]
  by_cases hj : j < n
  · have hj' : j < t.cells.size := by rw [t.size_cells]; exact hj
    rw [Array.getElem?_eq_getElem hj']
    by_cases hi : i = j <;> simp [hi, hj]
  · have hj' : t.cells.size ≤ j := by rw [t.size_cells]; omega
    rw [Array.getElem?_eq_none hj']
    by_cases hi : i = j <;> simp [hi, hj]

theorem row_mapRows [Inhabited α] (t : Table n α) (f : Nat → α → α) (j : Nat) :
    (t.mapRows f).row j = if j < n then f j (t.row j) else default := by
  have hcells : t.cells.toList[j]? = t.cells[j]? := Array.getElem?_toList
  rw [row_eq, row_eq, mapRows, List.getElem?_toArray, List.getElem?_map, List.getElem?_zipIdx,
    hcells, Nat.zero_add]
  by_cases hj : j < n
  · have hj' : j < t.cells.size := by rw [t.size_cells]; exact hj
    rw [Array.getElem?_eq_getElem hj', if_pos hj]
    rfl
  · have hj' : t.cells.size ≤ j := by rw [t.size_cells]; omega
    rw [Array.getElem?_eq_none hj', if_neg hj]
    rfl

theorem getElem?_toList [Inhabited α] (t : Table n α) (i : Nat) :
    t.toList[i]? = if i < n then some (t.row i) else none := by
  have hsize := t.size_cells
  rw [toList, Array.getElem?_toList, row_eq]
  split
  · have hi : i < t.cells.size := by omega
    rw [Array.getElem?_eq_getElem hi]
    rfl
  · rename_i hi
    exact Array.getElem?_eq_none (by omega)

/-- What a change of one row leaves alone is the same for all rows after it. -/
theorem alter_keeps [Inhabited α] {β : Type} (φ : α → β) {f : α → α} (hf : ∀ a, φ (f a) = φ a)
    (t : Table n α) (i j : Nat) : φ ((t.alter i f).row j) = φ (t.row j) := by
  rw [row_alter]
  split
  · exact hf _
  · rfl

/-- What a change of all rows leaves alone in one of them is the same for that row after it. -/
theorem mapRows_keeps [Inhabited α] {β : Type} (φ : α → β) {f : Nat → α → α} {i : Nat}
    (hf : ∀ a, φ (f i a) = φ a) (t : Table n α) : φ ((t.mapRows f).row i) = φ (t.row i) := by
  by_cases hi : i < n
  · rw [row_mapRows, if_pos hi, hf]
  · have hi : n ≤ i := Nat.le_of_not_lt hi
    rw [row_of_le _ hi, row_of_le _ hi]

/-- A table is its rows. -/
theorem ext_row [Inhabited α] {s t : Table n α} (h : ∀ i, i < n → s.row i = t.row i) : s = t := by
  obtain ⟨a, ha⟩ := s
  obtain ⟨b, hb⟩ := t
  have : a = b := by
    apply Array.ext (by omega)
    intro i h₁ h₂
    have := h i (by omega)
    simpa [row_eq, h₁, h₂] using this
  subst this
  rfl

end Table

end Gic
