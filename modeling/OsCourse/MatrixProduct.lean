/-
The matrix product with which the scheduling lab keeps a processor busy.  The matrices
are blocks of doubles, row by row, of any size.  What the program computes is said for
every arithmetic on doubles, and then for the exact one.
-/
import OsCourse.GridBuffer
import Mathlib

namespace OsCourse

namespace MatrixProduct

open CheckedBuffer

section Program

variable {Double : Type} [Zero Double] [Add Double] [Mul Double]
  [IntCast Double]

/-- The three blocks, each of `size * size` doubles. -/
structure Blocks (Double : Type) where
  A : List Double
  B : List Double
  C : List Double

/-- The loops that initialize the matrices; `tenth` is the double `0.1`. -/
def fillMatrices (tenth : Double) (size : Nat) :
    Blocks Double → Except Fault (Blocks Double) :=
  forLoop (fun i => forLoop (fun j blocks => do
    let A ← store blocks.A (cellIndex size i j) (((i + j : Int) : Double) * tenth)
    let B ← store blocks.B (cellIndex size i j) (((i - j : Int) : Double) * tenth)
    let C ← store blocks.C (cellIndex size i j) 0
    return ⟨A, B, C⟩) size) size

/-- `C[i][j] += A[i][k] * B[k][j]`. -/
def accumulate (size : Nat) (A B : List Double) (i j k : Nat)
    (C : List Double) : Except Fault (List Double) := do
  let a ← load A (cellIndex size i k)
  let b ← load B (cellIndex size k j)
  let c ← load C (cellIndex size i j)
  store C (cellIndex size i j) (c + a * b)

def multiply (size : Nat) (A B : List Double) :
    List Double → Except Fault (List Double) :=
  forLoop (fun i =>
    forLoop (fun j => forLoop (accumulate size A B i j) size) size) size

/-- `HeavyCpuTask`, from what `malloc` returned to the checksum of the log. -/
def heavyCpuTask (tenth : Double) (size : Nat) (blocks : Blocks Double) :
    Except Fault (Blocks Double × Double) := do
  let filled ← fillMatrices tenth size blocks
  let C ← multiply size filled.A filled.B filled.C
  let checksum ← load C (cellIndex size (size / 2) (size / 2))
  return (⟨filled.A, filled.B, C⟩, checksum)

end Program

section Products

variable {Double : Type} [Add Double] [Mul Double] {size i j : Nat}
  {A B : Nat → Nat → Double}

/-- The sum of the first `count` products, from the left, added to `start`. -/
def rowSum (A B : Nat → Nat → Double) (i j count : Nat) (start : Double) :
    Double :=
  (List.range count).foldl (fun sum k => sum + A i k * B k j) start

theorem rowSum_succ {count : Nat} {start : Double} :
    rowSum A B i j (count + 1) start =
      rowSum A B i j count start + A i count * B count j := by
  rw [rowSum, List.range_succ, List.foldl_concat, rowSum]

theorem accumulate_grid {k : Nat} (hi : i < size) (hj : j < size)
    (hk : k < size) (C : Nat → Nat → Double) :
    accumulate size (grid size A) (grid size B) i j k (grid size C) =
      .ok (grid size (setCell C i j (C i j + A i k * B k j))) := by
  simp only [accumulate, load_grid hi hk, load_grid hk hj, load_grid hi hj]
  exact store_grid hi hj

/-- The innermost loop adds up one cell. -/
theorem accumulate_row (hi : i < size) (hj : j < size)
    (C : Nat → Nat → Double) :
    forLoop (accumulate size (grid size A) (grid size B) i j) size
        (grid size C) =
      .ok (grid size (setCell C i j (rowSum A B i j size (C i j)))) := by
  have hloop := @forLoop_eq _
    (accumulate size (grid size A) (grid size B) i j) size
    (fun k => grid size (setCell C i j (rowSum A B i j k (C i j))))
    fun k hk => ?_
  · have hstart : rowSum A B i j 0 (C i j) = C i j := rfl
    rw [hstart, setCell_self] at hloop
    exact hloop
  · rw [accumulate_grid hi hj hk, rowSum_succ, setCell_setCell, setCell_same]

theorem multiply_grid (C : Nat → Nat → Double) :
    multiply size (grid size A) (grid size B) (grid size C) =
      .ok (grid size fun i j => rowSum A B i j size (C i j)) := by
  have hloop := @gridLoop_eq _ _ size
    (fun i j => forLoop (accumulate size (grid size A) (grid size B) i j) size)
    (grid size) (fun i j => rowSum A B i j size)
    (fun C i hi j hj => accumulate_row hi hj C) C
  rw [multiply, hloop]
  refine congrArg Except.ok (grid_congr fun i hi j hj => ?_)
  rw [changeWhere, if_pos (decide_eq_true ⟨hi, hj⟩)]

end Products

section Filling

variable {Double : Type} [Zero Double] [Mul Double] [IntCast Double]
  {tenth : Double} {size : Nat}

/-- What the program writes to `A` and to `B`. -/
def cellsA (tenth : Double) (i j : Nat) : Double :=
  ((i + j : Int) : Double) * tenth

def cellsB (tenth : Double) (i j : Nat) : Double :=
  ((i - j : Int) : Double) * tenth

theorem fillMatrices_grid (A B C : Nat → Nat → Double) :
    fillMatrices tenth size ⟨grid size A, grid size B, grid size C⟩ =
      .ok ⟨grid size (cellsA tenth), grid size (cellsB tenth),
        grid size fun _ _ => 0⟩ := by
  have hloop := @gridLoop_eq _ (Double × Double × Double) size
    (fun i j blocks => do
      let A ← store blocks.A (cellIndex size i j) (cellsA tenth i j)
      let B ← store blocks.B (cellIndex size i j) (cellsB tenth i j)
      let C ← store blocks.C (cellIndex size i j) 0
      return Blocks.mk A B C)
    (fun cells => ⟨grid size fun i j => (cells i j).1,
      grid size fun i j => (cells i j).2.1,
      grid size fun i j => (cells i j).2.2⟩)
    (fun i j _ => (cellsA tenth i j, cellsB tenth i j, 0))
    (fun cells i hi j hj => ?_)
    (fun i j => (A i j, B i j, C i j))
  · refine hloop.trans (congrArg Except.ok ?_)
    congr 1 <;> refine grid_congr fun i hi j hj => ?_ <;>
      rw [changeWhere, if_pos (decide_eq_true ⟨hi, hj⟩)]
  · simp only [store_grid hi hj, apply_setCell Prod.fst,
      apply_setCell fun cell : Double × Double × Double => cell.2.1,
      apply_setCell fun cell : Double × Double × Double => cell.2.2]
    rfl

end Filling

section Runs

variable {Double : Type} [Zero Double] [Add Double] [Mul Double]
  [IntCast Double] {tenth : Double} {size : Nat}

/-- What the program leaves in `C`. -/
def cellsC (tenth : Double) (size i j : Nat) : Double :=
  rowSum (cellsA tenth) (cellsB tenth) i j size 0

/-- The blocks are read and written inside of their bounds only, and every cell of `C` is
the sum of the products in the order of the loop. -/
theorem heavyCpuTask_grid (hsize : 0 < size) {blocks : Blocks Double}
    (hA : blocks.A.length = size * size) (hB : blocks.B.length = size * size)
    (hC : blocks.C.length = size * size) :
    heavyCpuTask tenth size blocks =
      .ok (⟨grid size (cellsA tenth), grid size (cellsB tenth),
        grid size (cellsC tenth size)⟩,
        cellsC tenth size (size / 2) (size / 2)) := by
  have : Inhabited Double := ⟨0⟩
  obtain ⟨A, hA⟩ := exists_eq_grid hA
  obtain ⟨B, hB⟩ := exists_eq_grid hB
  obtain ⟨C, hC⟩ := exists_eq_grid hC
  have hhalf : size / 2 < size := Nat.div_lt_self hsize Nat.one_lt_two
  have hblocks : blocks = ⟨grid size A, grid size B, grid size C⟩ := by
    rw [← hA, ← hB, ← hC]
  rw [hblocks, heavyCpuTask, fillMatrices_grid]
  change (multiply size _ _ _ >>= _) = _
  rw [multiply_grid]
  change (load _ _ >>= _) = _
  rw [load_grid hhalf hhalf]
  rfl

end Runs

section ExactArithmetic

variable {size i j : Nat} {A B : Nat → Nat → ℚ}

theorem rowSum_eq_sum (count : Nat) (start : ℚ) :
    rowSum A B i j count start =
      start + ∑ k ∈ Finset.range count, A i k * B k j := by
  induction count with
  | zero => rw [Finset.sum_range_zero, add_zero]; rfl
  | succ count ih => rw [rowSum_succ, ih, Finset.sum_range_succ, add_assoc]

/-- A square array of the program as a matrix. -/
def toMatrix (size : Nat) (cells : Nat → Nat → ℚ) :
    Matrix (Fin size) (Fin size) ℚ :=
  Matrix.of fun i j => cells i j

theorem toMatrix_cellsC (tenth : ℚ) :
    toMatrix size (cellsC tenth size) =
      toMatrix size (cellsA tenth) * toMatrix size (cellsB tenth) := by
  ext i j
  rw [Matrix.mul_apply, toMatrix, Matrix.of_apply, cellsC, rowSum_eq_sum,
    zero_add, Finset.sum_range]
  rfl

/-- The squares of the rows and columns are all that the middle cell depends on. -/
theorem cellsC_diagonal (tenth : ℚ) (size i : Nat) :
    cellsC tenth size i i =
      ((size - 1) * size * (2 * size - 1) / 6 - size * i ^ 2) * tenth ^ 2 := by
  have hsum : ∀ count : Nat, ∑ k ∈ Finset.range count,
      cellsA tenth i k * cellsB tenth k i =
        ((count - 1) * count * (2 * count - 1) / 6 - count * i ^ 2) *
          tenth ^ 2 := by
    intro count
    induction count with
    | zero => simp
    | succ count ih =>
        rw [Finset.sum_range_succ, ih, cellsA, cellsB]
        push_cast
        ring
  rw [cellsC, rowSum_eq_sum, zero_add, hsum]

/-- Whatever `malloc` returned, `HeavyCpuTask` stays inside of its blocks and leaves the
cells of `cellsC`; with exact arithmetic they are the matrix product, and the checksum
depends on the size only. -/
theorem heavyCpuTask_spec (hsize : 0 < size) :
    (∀ (Double : Type) [Zero Double] [Add Double] [Mul Double]
        [IntCast Double] (tenth : Double) (blocks : Blocks Double),
      blocks.A.length = size * size → blocks.B.length = size * size →
      blocks.C.length = size * size →
      heavyCpuTask tenth size blocks =
        .ok (⟨grid size (cellsA tenth), grid size (cellsB tenth),
          grid size (cellsC tenth size)⟩,
          cellsC tenth size (size / 2) (size / 2))) ∧
    ∀ tenth : ℚ,
      toMatrix size (cellsC tenth size) =
        toMatrix size (cellsA tenth) * toMatrix size (cellsB tenth) ∧
      cellsC tenth size (size / 2) (size / 2) =
        ((size - 1) * size * (2 * size - 1) / 6 -
          size * (size / 2 : Nat) ^ 2) * tenth ^ 2 :=
  ⟨fun _ _ _ _ _ _ _ hA hB hC => heavyCpuTask_grid hsize hA hB hC,
    fun tenth =>
      ⟨toMatrix_cellsC tenth, cellsC_diagonal tenth size (size / 2)⟩⟩

/-- The checksum that the log of the repository shows. -/
theorem heavyCpuTask_courseSize :
    cellsC (1 / 10 : ℚ) 500 250 250 = 102917.5 ∧
      ∃ checksum, heavyCpuTask (1 / 10 : ℚ) 2
        ⟨[7, 7, 7, 7], [7, 7, 7, 7], [7, 7, 7, 7]⟩ = .ok checksum := by
  constructor
  · rw [show (250 : Nat) = 500 / 2 from rfl,
      ((heavyCpuTask_spec (Nat.succ_pos 499)).2 (1 / 10)).2]
    norm_num
  · exact ⟨_, (heavyCpuTask_spec Nat.two_pos).1 ℚ (1 / 10)
      ⟨[7, 7, 7, 7], [7, 7, 7, 7], [7, 7, 7, 7]⟩ rfl rfl rfl⟩

end ExactArithmetic

end MatrixProduct

end OsCourse
