/-
Two-dimensional arrays that lie row by row in one checked buffer, and the counting
loops that visit every cell of them.
-/
import OsCourse.CheckedBuffer

namespace CheckedBuffer

section Counting

variable {State : Type} {body : Nat → State → Except Fault State}

/-- `for (int i = 0; i < count; i++) body`. -/
def forLoop (body : Nat → State → Except Fault State) :
    (count : Nat) → State → Except Fault State
  | 0, state => .ok state
  | count + 1, state => forLoop body count state >>= body count

/-- The rule for counting loops: the state before each turn is known. -/
theorem forLoop_eq {count : Nat} (states : Nat → State)
    (hnext : ∀ i < count, body i (states i) = .ok (states (i + 1))) :
    forLoop body count (states 0) = .ok (states count) := by
  induction count with
  | zero => rfl
  | succ count ih =>
      rw [forLoop, ih fun i hi => hnext i (Nat.lt_succ_of_lt hi)]
      exact hnext count (Nat.lt_succ_self count)

end Counting

section Grids

variable {Cell : Type} {size i j : Nat} {cells other : Nat → Nat → Cell}
  {cell : Cell}

/-- A square array, row by row. -/
def grid (size : Nat) (cells : Nat → Nat → Cell) : List Cell :=
  (List.range (size * size)).map fun position =>
    cells (position / size) (position % size)

/-- Where a cell is in the buffer. -/
def cellIndex (size i j : Nat) : Int :=
  (size * i + j : Nat)

def setCell (cells : Nat → Nat → Cell) (i j : Nat) (cell : Cell) :
    Nat → Nat → Cell := fun row column =>
  if row = i ∧ column = j then cell else cells row column

theorem setCell_same : setCell cells i j cell i j = cell :=
  if_pos ⟨rfl, rfl⟩

theorem setCell_self : setCell cells i j (cells i j) = cells := by
  funext row column
  by_cases hsame : row = i ∧ column = j
  · rw [setCell, if_pos hsame, hsame.1, hsame.2]
  · rw [setCell, if_neg hsame]

theorem setCell_setCell {first : Cell} :
    setCell (setCell cells i j first) i j cell = setCell cells i j cell := by
  funext row column
  by_cases hsame : row = i ∧ column = j
  · rw [setCell, if_pos hsame, setCell, if_pos hsame]
  · rw [setCell, if_neg hsame, setCell, if_neg hsame, setCell, if_neg hsame]

/-- One part of what is stored, as `f` picks it. -/
theorem apply_setCell {Part : Type} (f : Cell → Part) :
    (fun row column => f (setCell cells i j cell row column)) =
      setCell (fun row column => f (cells row column)) i j (f cell) := by
  funext row column
  rw [setCell, setCell, apply_ite f]

theorem length_grid : (grid size cells).length = size * size := by
  rw [grid, List.length_map, List.length_range]

theorem cellIndex_lt (hi : i < size) (hj : j < size) :
    size * i + j < size * size := by
  calc size * i + j < size * i + size := Nat.add_lt_add_left hj _
    _ = size * (i + 1) := (Nat.mul_succ size i).symm
    _ ≤ size * size := Nat.mul_le_mul_left size hi

theorem getElem?_grid {position : Nat} (hposition : position < size * size) :
    (grid size cells)[position]? =
      some (cells (position / size) (position % size)) := by
  rw [grid, List.getElem?_map, List.getElem?_range hposition, Option.map_some]

theorem div_mod_cellIndex (hj : j < size) :
    (size * i + j) / size = i ∧ (size * i + j) % size = j := by
  have hsize : 0 < size := Nat.zero_lt_of_lt hj
  rw [Nat.mul_add_div hsize, Nat.div_eq_of_lt hj, Nat.mul_add_mod,
    Nat.mod_eq_of_lt hj]
  exact ⟨rfl, rfl⟩

theorem load_grid (hi : i < size) (hj : j < size) :
    load (grid size cells) (cellIndex size i j) = .ok (cells i j) := by
  obtain ⟨hdiv, hmod⟩ := @div_mod_cellIndex size i j hj
  have hcell := @getElem?_grid _ size cells _ (cellIndex_lt hi hj)
  rw [hdiv, hmod] at hcell
  exact load_of_getElem? hcell

/-- Only the cells inside of the array count. -/
theorem grid_congr
    (hcells : ∀ i < size, ∀ j < size, cells i j = other i j) :
    grid size cells = grid size other := by
  refine List.map_congr_left fun position hposition => ?_
  have hlt := List.mem_range.mp hposition
  have hsize : 0 < size := by
    rcases Nat.eq_zero_or_pos size with rfl | hsize
    · exact absurd hlt (Nat.not_lt_zero position)
    · exact hsize
  exact hcells _ (Nat.div_lt_of_lt_mul hlt) _ (Nat.mod_lt _ hsize)

theorem store_grid (hi : i < size) (hj : j < size) :
    store (grid size cells) (cellIndex size i j) cell =
      .ok (grid size (setCell cells i j cell)) := by
  have hlt := cellIndex_lt hi hj
  have hinside : 0 ≤ cellIndex size i j ∧
      cellIndex size i j < (grid size cells).length := by
    rw [length_grid, cellIndex]
    omega
  have hcells : (grid size cells).set (size * i + j) cell =
      grid size (setCell cells i j cell) := by
    apply List.ext_getElem?
    intro position
    by_cases hposition : position < size * size
    · rw [getElem?_grid hposition]
      by_cases hsame : position = size * i + j
      · obtain ⟨hdiv, hmod⟩ := @div_mod_cellIndex size i j hj
        rw [hsame, hdiv, hmod, List.getElem?_set_self (by rwa [length_grid]),
          setCell, if_pos ⟨rfl, rfl⟩]
      · have hother : ¬ (position / size = i ∧ position % size = j) := by
          rintro ⟨rfl, rfl⟩
          exact hsame (Nat.div_add_mod position size).symm
        rw [List.getElem?_set_ne (Ne.symm hsame), getElem?_grid hposition,
          setCell, if_neg hother]
    · rw [List.getElem?_eq_none, List.getElem?_eq_none]
      · rw [length_grid]
        omega
      · rw [List.length_set, length_grid]
        omega
  rw [store, if_pos hinside, cellIndex, Int.toNat_natCast, hcells]

/-- Every buffer of the right length is an array. -/
theorem exists_eq_grid [Inhabited Cell] {buffer : List Cell}
    (hlength : buffer.length = size * size) :
    ∃ cells, buffer = grid size cells := by
  refine ⟨fun i j => buffer.getD (size * i + j) default, ?_⟩
  apply List.ext_getElem?
  intro position
  by_cases hposition : position < size * size
  · rw [getElem?_grid hposition, Nat.div_add_mod,
      List.getD_eq_getElem?_getD, List.getElem?_eq_getElem (by omega),
      Option.getD_some]
  · rw [List.getElem?_eq_none (by omega), List.getElem?_eq_none]
    rw [length_grid]
    omega

end Grids

section GridLoops

variable {State Value : Type} {size : Nat}
  {body : Nat → Nat → State → Except Fault State}
  {cells : Nat → Nat → Value} {change : Nat → Nat → Value → Value}

/-- The cells for which a test holds are changed. -/
def changeWhere (change : Nat → Nat → Value → Value)
    (test : Nat → Nat → Bool) (cells : Nat → Nat → Value) :
    Nat → Nat → Value := fun row column =>
  if test row column then change row column (cells row column)
  else cells row column

theorem changeWhere_false :
    changeWhere change (fun _ _ => false) cells = cells := rfl

/-- Changing one more cell, which was not changed before. -/
theorem setCell_changeWhere {test more : Nat → Nat → Bool} {i j : Nat}
    (hbefore : test i j = false)
    (hmore : ∀ row column, more row column =
      (decide (row = i ∧ column = j) || test row column)) :
    setCell (changeWhere change test cells) i j
        (change i j (changeWhere change test cells i j)) =
      changeWhere change more cells := by
  funext row column
  simp only [setCell, changeWhere, hmore]
  by_cases hsame : row = i ∧ column = j
  · obtain ⟨rfl, rfl⟩ := hsame
    simp [hbefore]
  · simp [hsame]

/-- The rule for loops over an array: each turn changes its own cell, to something that
its place and its old content decide. -/
theorem gridLoop_eq (state : (Nat → Nat → Value) → State)
    (change : Nat → Nat → Value → Value)
    (hbody : ∀ cells, ∀ i < size, ∀ j < size,
      body i j (state cells) =
        .ok (state (setCell cells i j (change i j (cells i j)))))
    (cells : Nat → Nat → Value) :
    forLoop (fun i => forLoop (body i) size) size (state cells) =
      .ok (state (changeWhere change
        (fun row column => decide (row < size ∧ column < size)) cells)) := by
  -- the cells that were visited before the turn `i`, `j`
  let visited := fun i j row column : Nat =>
    decide (row < i ∧ column < size ∨ row = i ∧ column < j)
  have hrow : ∀ i < size,
      forLoop (body i) size (state (changeWhere change (visited i 0) cells)) =
        .ok (state (changeWhere change (visited i size) cells)) := by
    intro i hi
    refine forLoop_eq
      (fun j => state (changeWhere change (visited i j) cells))
      fun j hj => ?_
    rw [hbody _ i hi j hj, setCell_changeWhere]
    · simp [visited]
    · intro row column
      simp only [visited, ← Bool.decide_or, decide_eq_decide]
      omega
  have hnext : ∀ i, visited i size = visited (i + 1) 0 := by
    intro i
    funext row column
    simp only [visited, decide_eq_decide]
    omega
  have hstart : visited 0 0 = fun _ _ => false := by
    funext row column
    simp [visited]
  have hend : visited size 0 =
      fun row column => decide (row < size ∧ column < size) := by
    funext row column
    simp [visited]
  have hloop : forLoop (fun i => forLoop (body i) size) size
      (state (changeWhere change (visited 0 0) cells)) =
        .ok (state (changeWhere change (visited size 0) cells)) :=
    forLoop_eq (fun i => state (changeWhere change (visited i 0) cells))
      fun i hi => by rw [hrow i hi, hnext]
  rw [hstart, hend, changeWhere_false] at hloop
  exact hloop

end GridLoops

end CheckedBuffer
