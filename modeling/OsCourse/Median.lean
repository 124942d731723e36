/-
The median of a list over an ordered field, independent of how it is computed:
the middle of the sorted list, or half the sum of the two middle elements.
-/
import Mathlib.Algebra.Order.Field.Basic
import Mathlib.Data.List.GetD
import Mathlib.Data.List.Sort
import Mathlib.Tactic.Linarith

namespace Median

universe u

/-- A list has one sorted arrangement. -/
theorem insertionSort_eq_of_perm {α : Type u} [LinearOrder α]
    {values sorted : List α} (hsorted : sorted.Pairwise (· ≤ ·))
    (hperm : sorted.Perm values) :
    values.insertionSort (· ≤ ·) = sorted :=
  ((List.perm_insertionSort (· ≤ ·) values).trans
    hperm.symm).eq_of_pairwise'
      (List.pairwise_insertionSort (· ≤ ·) values) hsorted

/-- A list that is not empty has two middle elements or one. -/
theorem middle_cases {α : Type u} {list : List α} (hlist : list ≠ []) :
    (∃ half low high, list.length = 2 * half + 2 ∧
        list[half]? = some low ∧ list[half + 1]? = some high) ∨
      ∃ half only, list.length = 2 * half + 1 ∧ list[half]? = some only := by
  have hlength := List.length_pos_iff.mpr hlist
  rcases Nat.even_or_odd' list.length with ⟨half, heven | hodd⟩
  · obtain ⟨half, rfl⟩ : ∃ before, half = before + 1 :=
      ⟨half - 1, by omega⟩
    have hbefore : half < list.length := by omega
    have hafter : half + 1 < list.length := by omega
    exact .inl ⟨half, _, _, by omega, List.getElem?_eq_getElem hbefore,
      List.getElem?_eq_getElem hafter⟩
  · have hinside : half < list.length := by omega
    exact .inr ⟨half, _, hodd, List.getElem?_eq_getElem hinside⟩

variable {K : Type u} [Field K]

/-- The median of a sorted list. -/
def middle (sorted : List K) : K :=
  if sorted.length % 2 = 0 then
    (sorted.getD (sorted.length / 2 - 1) 0 +
      sorted.getD (sorted.length / 2) 0) / 2
  else sorted.getD (sorted.length / 2) 0

section Middle

variable {sorted : List K} {half : Nat}

theorem middle_even {low high : K} (hlength : sorted.length = 2 * half + 2)
    (hlow : sorted[half]? = some low) (hhigh : sorted[half + 1]? = some high) :
    middle sorted = (low + high) / 2 := by
  have hbefore : sorted.length / 2 - 1 = half := by omega
  have hafter : sorted.length / 2 = half + 1 := by omega
  rw [middle, if_pos (by omega), hbefore, hafter,
    List.getD_eq_getElem?_getD, List.getD_eq_getElem?_getD, hlow, hhigh]
  rfl

theorem middle_odd {only : K} (hlength : sorted.length = 2 * half + 1)
    (honly : sorted[half]? = some only) : middle sorted = only := by
  have hhalf : sorted.length / 2 = half := by omega
  rw [middle, if_neg (by omega), hhalf, List.getD_eq_getElem?_getD, honly]
  rfl

/-- The median of a sorted list that is not empty lies between two of its values. -/
theorem middle_between [LinearOrder K] [IsStrictOrderedRing K]
    (hsorted : sorted ≠ []) :
    ∃ low ∈ sorted, ∃ high ∈ sorted,
      low ≤ middle sorted ∧ middle sorted ≤ high := by
  rcases middle_cases hsorted with
    ⟨half, low, high, hlength, hlow, hhigh⟩ | ⟨half, only, hlength, honly⟩
  · rw [middle_even hlength hlow hhigh]
    have hmemLow := List.mem_of_getElem? hlow
    have hmemHigh := List.mem_of_getElem? hhigh
    rcases le_total low high with hle | hle
    · exact ⟨low, hmemLow, high, hmemHigh, by linarith, by linarith⟩
    · exact ⟨high, hmemHigh, low, hmemLow, by linarith, by linarith⟩
  · rw [middle_odd hlength honly]
    have hmem := List.mem_of_getElem? honly
    exact ⟨only, hmem, only, hmem, le_rfl, le_rfl⟩

end Middle

variable [LinearOrder K]

def median (values : List K) : K :=
  middle (values.insertionSort (· ≤ ·))

variable {values sorted : List K}

/-- Any sorted arrangement of the values gives their median. -/
theorem median_eq_middle (hsorted : sorted.Pairwise (· ≤ ·))
    (hperm : sorted.Perm values) : median values = middle sorted := by
  rw [median, insertionSort_eq_of_perm hsorted hperm]

theorem median_perm {other : List K} (hperm : other.Perm values) :
    median other = median values := by
  have hsorted : (values.insertionSort (· ≤ ·)).Perm other :=
    (List.perm_insertionSort (· ≤ ·) values).trans hperm.symm
  exact median_eq_middle (List.pairwise_insertionSort (· ≤ ·) values) hsorted

theorem median_between [IsStrictOrderedRing K] (hvalues : values ≠ []) :
    ∃ low ∈ values, ∃ high ∈ values,
      low ≤ median values ∧ median values ≤ high := by
  have hperm := List.perm_insertionSort (· ≤ ·) values
  have hsorted : values.insertionSort (· ≤ ·) ≠ [] := by
    intro hempty
    rw [hempty] at hperm
    exact hvalues hperm.nil_eq.symm
  obtain ⟨low, hlow, high, hhigh, hbetween⟩ := middle_between hsorted
  exact ⟨low, hperm.mem_iff.mp hlow, high, hperm.mem_iff.mp hhigh, hbetween⟩

end Median
