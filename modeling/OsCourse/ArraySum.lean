/-
The array homework: `FillArray` stores the numbers from 1 on, `SumArray` adds them up in
an `int`, whose additions wrap modulo 2^32, and `main` does so for a size that it reads.
-/
import OsCourse.GridBuffer
import OsCourse.ScanText
import Mathlib.Tactic.Ring
import Mathlib.Tactic.Linarith

namespace OsCourse

namespace ArraySum

open CheckedBuffer ScanText

section Program

def fillArray (arr : List Int32) (size : Int) : Except Fault (List Int32) :=
  forLoop (fun i arr => store arr i (Int32.ofInt (i + 1))) size.toNat arr

def sumArray (arr : List Int32) (size : Int) : Except Fault Int32 :=
  forLoop (fun i sum => do
    let cell ← load arr i
    return sum + cell) size.toNat 0

inductive Exit where
  | invalidInput
  | allocationFailed
  | printed (sum : Int)
deriving Repr, DecidableEq

/-- `main`.  `allocated` says whether `malloc` returned a block, and `garbage` is what a
block holds before it is written. -/
def main (allocated : Bool) (garbage : Nat → Int32) (stdin : List Char) :
    Except Fault Exit :=
  match (scanInt stdin).1 with
  | none => return .invalidInput
  | some n =>
      if n < 10 ∨ n > 50 then return .invalidInput
      else if allocated then do
        let arr ← fillArray ((List.range n.toNat).map garbage) n
        let sum ← sumArray arr n
        return .printed sum.toInt
      else return .allocationFailed

end Program

section Loops

variable {arr : List Int32} {size : Nat}

/-- The numbers from 1 on. -/
def numbers (count : Nat) : List Int32 :=
  (List.range count).map fun i : Nat => Int32.ofInt (i + 1)

def triangle (count : Nat) : Int :=
  count * (count + 1) / 2

theorem triangle_succ (count : Nat) :
    triangle (count + 1) = triangle count + (count + 1) := by
  have hsplit : ((count + 1 : Nat) : Int) * ((count + 1 : Nat) + 1) =
      count * (count + 1) + 2 * (count + 1) := by
    push_cast
    ring
  rw [triangle, hsplit, Int.add_mul_ediv_left _ _ (by decide), triangle]

theorem length_numbers (count : Nat) : (numbers count).length = count := by
  rw [numbers, List.length_map, List.length_range]

theorem fillArray_eq (hsize : arr.length = size) :
    fillArray arr size = .ok (numbers size) := by
  have hloop := @forLoop_eq _
    (fun i arr => store arr i (Int32.ofInt (i + 1))) size
    (fun i => numbers i ++ arr.drop i) fun i hi => ?_
  · rw [← hsize, List.drop_length, List.append_nil, hsize] at hloop
    exact hloop
  · obtain ⟨cell, hcell⟩ : ∃ cell, arr.drop i = cell :: arr.drop (i + 1) :=
      ⟨_, List.drop_eq_getElem_cons (by omega)⟩
    have hnext : numbers (i + 1) = numbers i ++ [Int32.ofInt (i + 1)] := by
      rw [numbers, List.range_succ, List.map_append, numbers]
      rfl
    rw [hcell, store_append (by rw [length_numbers]), hnext, List.append_assoc]
    rfl

theorem sumArray_numbers (size : Nat) :
    sumArray (numbers size) size = .ok (Int32.ofInt (triangle size)) := by
  refine @forLoop_eq _ _ size (fun i => Int32.ofInt (triangle i)) fun i hi => ?_
  have hcell : load (numbers size) i = .ok (Int32.ofInt (i + 1)) := by
    apply load_of_getElem?
    rw [numbers, List.getElem?_map, List.getElem?_range hi]
    rfl
  rw [hcell, triangle_succ, Int32.ofInt_add (triangle i)]
  rfl

theorem triangle_lt_iff (count : Nat) :
    triangle count < 2 ^ 31 ↔ count ≤ 65535 := by
  have hbound : triangle count < 2 ^ 31 ↔ (count : Int) * (count + 1) < 2 ^ 32 := by
    rw [triangle]
    omega
  rw [hbound]
  constructor
  · intro hlt
    by_contra hlarge
    have hcount : (65536 : Int) ≤ count := by omega
    nlinarith
  · intro hle
    have hcount : (count : Int) ≤ 65535 := by omega
    nlinarith

/-- The wrapped sum is the sum exactly if the sum is an `int`. -/
theorem toInt_triangle_iff (count : Nat) :
    (Int32.ofInt (triangle count)).toInt = triangle count ↔ count ≤ 65535 := by
  have hnonneg : 0 ≤ triangle count :=
    Int.ediv_nonneg (by positivity) (by decide)
  rw [← triangle_lt_iff]
  constructor
  · intro heq
    rw [← heq]
    exact Int32.toInt_lt _
  · intro hlt
    rw [Int32.toInt_ofInt, Int32.size]
    exact Int.bmod_eq_of_le (by omega) (by omega)

/-- The two functions on the array of `main`. -/
theorem sumArray_fillArray (hsize : arr.length = size) :
    ∃ filled sum, fillArray arr size = .ok filled ∧
      sumArray filled size = .ok sum ∧
      (sum.toInt = triangle size ↔ size ≤ 65535) :=
  ⟨numbers size, Int32.ofInt (triangle size), fillArray_eq hsize,
    sumArray_numbers size, toInt_triangle_iff size⟩

/-- What `main` does for each input. -/
theorem main_eq (allocated : Bool) (garbage : Nat → Int32) (stdin : List Char) :
    main allocated garbage stdin = .ok
      (match (scanInt stdin).1 with
      | none => .invalidInput
      | some n =>
          if 10 ≤ n ∧ n ≤ 50 then
            if allocated then .printed (n * (n + 1) / 2) else .allocationFailed
          else .invalidInput) := by
  rw [main]
  cases (scanInt stdin).1 with
  | none => rfl
  | some n =>
      dsimp only
      by_cases hrange : n < 10 ∨ n > 50
      · rw [if_pos hrange, if_neg (by omega)]
        rfl
      · have hinside : 10 ≤ n ∧ n ≤ 50 := by omega
        rw [if_neg hrange, if_pos hinside]
        cases allocated with
        | false => rfl
        | true =>
            obtain ⟨size, rfl⟩ := Int.eq_ofNat_of_zero_le (show 0 ≤ n by omega)
            have hlength : ((List.range size).map garbage).length = size := by
              rw [List.length_map, List.length_range]
            have hsum := (toInt_triangle_iff size).mpr (by omega)
            simp only [Int.toNat_natCast, if_true, fillArray_eq hlength,
              sumArray_numbers, bind, Except.bind, hsum]
            rfl

/-- No access is outside of the array, and the sum is right up to the size 65535 and for
no other; `main` takes only sizes from 10 to 50, and prints the sum of the numbers up to
them. -/
theorem sum_spec :
    (∀ (size : Nat) (arr : List Int32), arr.length = size →
      ∃ filled sum, fillArray arr size = .ok filled ∧
        sumArray filled size = .ok sum ∧
        (sum.toInt = size * (size + 1) / 2 ↔ size ≤ 65535)) ∧
    ∀ allocated garbage stdin,
      main allocated garbage stdin = .ok
        (match (scanInt stdin).1 with
        | none => .invalidInput
        | some n =>
            if 10 ≤ n ∧ n ≤ 50 then
              if allocated then .printed (n * (n + 1) / 2) else .allocationFailed
            else .invalidInput) :=
  ⟨fun _ _ hsize => sumArray_fillArray hsize, main_eq⟩

end Loops

end ArraySum

end OsCourse
