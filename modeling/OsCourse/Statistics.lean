/-
The statistics program: the median and the mean of an `int` array that `main`
reads and sorts.  An addition of two `int`s wraps modulo 2^32; the `double`s are
rational numbers, and the rounding of a `double` addition is a parameter.
-/
import OsCourse.MergeSort
import OsCourse.Median
import Mathlib.Algebra.Order.Ring.Rat
import Mathlib.Tactic.NormNum

namespace OsCourse

namespace Statistics

open CheckedBuffer

/-- `CalculateMedian`; the division by `2.0` is exact. -/
def calculateMedian (arr : List Int32) (size : Int) : Except Fault Rat :=
  let middleOfArray := size.tdiv 2
  if size.tmod 2 = 0 then do
    let low ← load arr (middleOfArray - 1)
    let high ← load arr middleOfArray
    return ((low + high).toInt : Rat) / 2
  else do
    let only ← load arr middleOfArray
    return only.toInt

/-- The operands of the division that gives the mean. -/
structure Quotient where
  dividend : Rat
  divisor : Int

/-- The variables of `CalculateMean`. -/
structure Summing where
  i : Int
  media : Rat

/-- `while (i < size)` of `CalculateMean`, with the rounding of its `double`
additions. -/
def sumLoop (round : Rat → Rat) (arr : List Int32) (size : Int) :
    Nat → Summing → Except Fault Summing :=
  whileLoop (fun state => .ok (decide (state.i < size)))
    (fun state => do
      let cell ← load arr state.i
      return ⟨state.i + 1, round (state.media + cell.toInt)⟩)

def calculateMean (round : Rat → Rat) (arr : List Int32) (size : Int) :
    Except Fault Quotient := do
  let summed ← sumLoop round arr size (size.toNat + 1) ⟨0, 0⟩
  return ⟨summed.media, size⟩

/-- The variables of the loop that reads the numbers. -/
structure Reading where
  i : Int
  numbers : List Int32

/-- The loop that reads the numbers; an input that is no number leaves its cell as
it is. -/
def readLoop (scanned : Nat → Option Int32) (size : Int) :
    Nat → Reading → Except Fault Reading :=
  whileLoop (fun state => .ok (decide (state.i < size)))
    (fun state =>
      match scanned state.i.toNat with
      | some number => do
          let numbers ← store state.numbers state.i number
          return ⟨state.i + 1, numbers⟩
      | none => return ⟨state.i + 1, state.numbers⟩)

inductive Exit where
  | allocationFailed
  | reported (median : Rat) (mean : Quotient)

/-- `main` for the `size` it has read.  `allocated` says whether `malloc` returned a
block, and `garbage` is what a block holds before it is written. -/
def main (round : Rat → Rat) (allocated : Bool) (garbage : Nat → Int32)
    (scanned : Nat → Option Int32) (size : Int) : Except Fault Exit :=
  if allocated then do
    let read ← readLoop scanned size (size.toNat + 1)
      ⟨0, (List.range size.toNat).map garbage⟩
    let sorted ← sortArray read.numbers size
    let median ← calculateMedian sorted size
    let mean ← calculateMean round sorted size
    return .reported median mean
  else return .allocationFailed

section Median

variable {arr values sorted : List Int32} {half : Nat} {size : Int}

theorem calculateMedian_even {low high : Int32} (hsize : size = 2 * half + 2)
    (hlow : arr[half]? = some low) (hhigh : arr[half + 1]? = some high) :
    calculateMedian arr size = .ok (((low + high).toInt : Rat) / 2) := by
  have hmiddle : size.tdiv 2 = ((half + 1 : Nat) : Int) := by
    rw [Int.tdiv_eq_ediv_of_nonneg (by omega)]
    omega
  have hbefore : size.tdiv 2 - 1 = (half : Int) := by omega
  have heven : size.tmod 2 = 0 := by
    rw [Int.tmod_eq_emod_of_nonneg (by omega)]
    omega
  simp only [calculateMedian, if_pos heven, hbefore, load_of_getElem? hlow]
  rw [hmiddle, load_of_getElem? hhigh]
  rfl

theorem calculateMedian_odd {only : Int32} (hsize : size = 2 * half + 1)
    (honly : arr[half]? = some only) :
    calculateMedian arr size = .ok only.toInt := by
  have hmiddle : size.tdiv 2 = half := by
    rw [Int.tdiv_eq_ediv_of_nonneg (by omega)]
    omega
  have hodd : ¬ size.tmod 2 = 0 := by
    rw [Int.tmod_eq_emod_of_nonneg (by omega)]
    omega
  simp only [calculateMedian, if_neg hodd, hmiddle, load_of_getElem? honly]
  rfl

/-- What is reported as the median of an array: `SortArray`, then
`CalculateMedian`. -/
def reportedMedian (values : List Int32) : Except Fault Rat := do
  let sorted ← sortArray values values.length
  calculateMedian sorted values.length

def rational (value : Int32) : Rat :=
  value.toInt

/-- The reported median is the median, lies between two of the values, and is the
same for every order of them. -/
def MedianExact (values : List Int32) : Prop :=
  ∃ reported, reportedMedian values = .ok reported ∧
    reported = Median.median (values.map rational) ∧
    (∃ low ∈ values, rational low ≤ reported) ∧
    (∃ high ∈ values, reported ≤ rational high) ∧
    ∀ other, other.Perm values → reportedMedian other = .ok reported

/-- The sum of the two middle elements as an integer. -/
def middleSum (values : List Int32) : Int :=
  let sorted := (values.map Int32.toInt).insertionSort (· ≤ ·)
  sorted.getD (values.length / 2 - 1) 0 + sorted.getD (values.length / 2) 0

/-- The `int` addition of the median does not wrap. -/
def MiddleSumFits (values : List Int32) : Prop :=
  values.length % 2 = 1 ∨
    (-2 ^ 31 ≤ middleSum values ∧ middleSum values < 2 ^ 31)

instance (values : List Int32) : Decidable (MiddleSumFits values) :=
  inferInstanceAs (Decidable (_ ∨ _))

theorem toInt_add_eq_iff (first second : Int32) :
    (first + second).toInt = first.toInt + second.toInt ↔
      -2 ^ 31 ≤ first.toInt + second.toInt ∧
        first.toInt + second.toInt < 2 ^ 31 := by
  constructor
  · intro heq
    rw [← heq]
    exact ⟨Int32.le_toInt _, Int32.toInt_lt _⟩
  · rintro ⟨hlow, hhigh⟩
    rw [Int32.toInt_add]
    apply Int.bmod_eq_of_le
    · omega
    · omega

theorem middleSum_eq {low high : Int32} (hsorted : sorted.Pairwise (· ≤ ·))
    (hperm : sorted.Perm values) (hlength : values.length = 2 * half + 2)
    (hlow : sorted[half]? = some low) (hhigh : sorted[half + 1]? = some high) :
    middleSum values = low.toInt + high.toInt := by
  have hints : (sorted.map Int32.toInt).Pairwise (· ≤ ·) := by
    rw [List.pairwise_map]
    exact hsorted.imp Int32.le_iff_toInt_le.mp
  have hafter : values.length / 2 = half + 1 := by omega
  rw [middleSum,
    Median.insertionSort_eq_of_perm hints (hperm.map Int32.toInt)]
  simp [hafter, List.getD_eq_getElem?_getD, hlow, hhigh]

theorem rational_median_eq (hsorted : sorted.Pairwise (· ≤ ·))
    (hperm : sorted.Perm values) :
    Median.median (values.map rational) =
      Median.middle (sorted.map rational) := by
  apply Median.median_eq_middle
  · rw [List.pairwise_map]
    apply hsorted.imp
    intro first second hle
    exact Int.cast_le.mpr (Int32.le_iff_toInt_le.mp hle)
  · exact hperm.map rational

/-- What is reported, and when it is the median. -/
theorem reportedMedian_spec (hvalues : values ≠ []) :
    ∃ reported, reportedMedian values = .ok reported ∧
      (reported = Median.median (values.map rational) ↔
        MiddleSumFits values) := by
  obtain ⟨sorted, hsort, hsorted, hperm⟩ := sortArray_spec values []
  rw [List.append_nil, List.append_nil] at hsort
  have hreported : reportedMedian values =
      calculateMedian sorted values.length := by
    rw [reportedMedian, hsort]
    rfl
  rw [hreported, rational_median_eq hsorted hperm]
  have hlength := hperm.length_eq
  have hnonempty : sorted ≠ [] := by
    rintro rfl
    exact hvalues (List.eq_nil_of_length_eq_zero hlength.symm)
  rcases Median.middle_cases hnonempty with
    ⟨half, low, high, heven, hlow, hhigh⟩ | ⟨half, only, hodd, honly⟩
  · have hsum := middleSum_eq hsorted hperm (by omega) hlow hhigh
    refine ⟨_, calculateMedian_even (by omega) hlow hhigh, ?_⟩
    rw [Median.middle_even
      (show (sorted.map rational).length = 2 * half + 2 by
        rw [List.length_map, heven])
      (show (sorted.map rational)[half]? = some (rational low) by
        rw [List.getElem?_map, hlow]
        rfl)
      (show (sorted.map rational)[half + 1]? = some (rational high) by
        rw [List.getElem?_map, hhigh]
        rfl)]
    have hfits : MiddleSumFits values ↔
        (low + high).toInt = low.toInt + high.toInt := by
      rw [toInt_add_eq_iff, MiddleSumFits, hsum]
      omega
    rw [hfits, div_left_inj' two_ne_zero, rational, rational]
    exact_mod_cast Iff.rfl
  · refine ⟨_, calculateMedian_odd (by omega) honly, ?_⟩
    rw [Median.middle_odd
      (show (sorted.map rational).length = 2 * half + 1 by
        rw [List.length_map, hodd])
      (show (sorted.map rational)[half]? = some (rational only) by
        rw [List.getElem?_map, honly]
        rfl)]
    exact ⟨fun _ => .inl (by omega), fun _ => rfl⟩

theorem middleSum_perm {other : List Int32} (hperm : other.Perm values) :
    middleSum other = middleSum values := by
  have hsorted := Median.insertionSort_eq_of_perm
    (List.pairwise_insertionSort (· ≤ ·) (values.map Int32.toInt))
    ((List.perm_insertionSort (· ≤ ·) _).trans (hperm.map Int32.toInt).symm)
  rw [middleSum, middleSum, hsorted, hperm.length_eq]

theorem middleSumFits_perm {other : List Int32} (hperm : other.Perm values) :
    MiddleSumFits other ↔ MiddleSumFits values := by
  rw [MiddleSumFits, MiddleSumFits, middleSum_perm hperm, hperm.length_eq]

theorem middleSumFits_of_medianExact (hvalues : values ≠ [])
    (hexact : MedianExact values) : MiddleSumFits values := by
  obtain ⟨reported, hreported, hmedian⟩ := reportedMedian_spec hvalues
  obtain ⟨same, hsame, heq, -⟩ := hexact
  rw [hreported] at hsame
  rw [← hmedian, Except.ok.inj hsame, heq]

theorem medianExact_of_middleSumFits (hvalues : values ≠ [])
    (hfits : MiddleSumFits values) : MedianExact values := by
  obtain ⟨reported, hreported, hexact⟩ := reportedMedian_spec hvalues
  have hmedian := hexact.mpr hfits
  have hrationals : values.map rational ≠ [] := by
    rwa [ne_eq, List.map_eq_nil_iff]
  obtain ⟨low, hlow, high, hhigh, hle, hge⟩ :=
    Median.median_between hrationals
  obtain ⟨lowest, hlowest, rfl⟩ := List.mem_map.mp hlow
  obtain ⟨highest, hhighest, rfl⟩ := List.mem_map.mp hhigh
  rw [← hmedian] at hle hge
  refine ⟨reported, hreported, hmedian, ⟨lowest, hlowest, hle⟩,
    ⟨highest, hhighest, hge⟩, ?_⟩
  intro other hother
  have hnonempty : other ≠ [] := by
    rintro rfl
    exact hvalues hother.nil_eq.symm
  obtain ⟨again, hagain, hsame⟩ := reportedMedian_spec hnonempty
  have hagainMedian := hsame.mpr ((middleSumFits_perm hother).mpr hfits)
  rw [hagain, hagainMedian, hmedian,
    Median.median_perm (hother.map rational)]

/-- The reported median is exact just when the sum of the middle elements is an
`int`. -/
theorem medianExact_iff (values : List Int32) (hvalues : values ≠ []) :
    MedianExact values ↔ MiddleSumFits values :=
  ⟨middleSumFits_of_medianExact hvalues,
    medianExact_of_middleSumFits hvalues⟩

theorem medianExact_iff_negative :
    MedianExact [-5, 0, 5, 10] ↔ MiddleSumFits [-5, 0, 5, 10] :=
  medianExact_iff [-5, 0, 5, 10] (List.cons_ne_nil _ _)

/-- The largest `int` and 1 have a sum that is no `int`. -/
theorem not_medianExact_wrapping :
    ¬ ∀ values, values ≠ [] → MedianExact values := by
  intro hexact
  have hfits := middleSumFits_of_medianExact (List.cons_ne_nil _ _)
    (hexact [2147483647, 1] (List.cons_ne_nil _ _))
  revert hfits
  decide

end Median

section Accesses

variable {arr numbers : List Int32} {size : Int} (round : Rat → Rat)
  (garbage : Nat → Int32) (scanned : Nat → Option Int32)

/-- The numbers that are scanned replace what the block held. -/
theorem readLoop_spec {fuel : Nat} (hsize : size = numbers.length)
    (hfuel : numbers.length < fuel) :
    readLoop scanned size fuel ⟨0, numbers⟩ =
      .ok ⟨numbers.length,
        numbers.mapIdx fun i old => (scanned i).getD old⟩ := by
  rw [← List.append_nil (numbers.mapIdx _)]
  apply whileLoop_over numbers (fun done rest => Reading.mk done.length
    ((done.mapIdx fun i old => (scanned i).getD old) ++ rest))
  · intro done old rest hnumbers
    have hlength := congrArg List.length hnumbers
    rw [List.length_append, List.length_cons] at hlength
    constructor
    · rw [decide_eq_true]
      dsimp only
      omega
    · rw [List.mapIdx_concat, List.append_assoc, List.length_append]
      simp only [Int.toNat_natCast]
      cases hscanned : scanned done.length with
      | none => rfl
      | some number =>
          have hstore := @store_append _
            (done.mapIdx fun i old => (scanned i).getD old) rest
            done.length number old (by rw [List.length_mapIdx])
          simp only [bind, Except.bind, hstore]
          rfl
  · rw [decide_eq_false]
    dsimp only
    omega
  · exact hfuel

def roundedSum (arr : List Int32) : Rat :=
  arr.foldl (fun media cell => round (media + cell.toInt)) 0

theorem sumLoop_spec {fuel : Nat} (hsize : size = arr.length)
    (hfuel : arr.length < fuel) :
    sumLoop round arr size fuel ⟨0, 0⟩ =
      .ok ⟨arr.length, roundedSum round arr⟩ := by
  apply whileLoop_over arr
    (fun done _ => Summing.mk done.length (roundedSum round done))
  · intro done cell rest harr
    have hlength := congrArg List.length harr
    rw [List.length_append, List.length_cons] at hlength
    have hload : load arr done.length = .ok cell := by
      rw [harr]
      exact load_append rfl
    constructor
    · rw [decide_eq_true]
      dsimp only
      omega
    · simp only [hload, List.length_append, roundedSum, List.foldl_append]
      rfl
  · rw [decide_eq_false]
    dsimp only
    omega
  · exact hfuel

/-- The mean of a whole array is the rounded sum over its length. -/
theorem calculateMean_spec (hsize : size = arr.length) :
    calculateMean round arr size = .ok ⟨roundedSum round arr, size⟩ := by
  rw [calculateMean, sumLoop_spec round hsize (by omega)]
  rfl

theorem calculateMedian_empty (hsize : size ≤ 0) :
    ∃ fault, calculateMedian [] size = .error fault := by
  have hmiddle : size.tdiv 2 ≤ 0 := by
    have hneg := Int.tdiv_nonneg (show 0 ≤ -size by omega) zero_le_two
    rw [Int.neg_tdiv] at hneg
    omega
  by_cases heven : size.tmod 2 = 0
  · refine ⟨.outside (size.tdiv 2 - 1), ?_⟩
    simp only [calculateMedian, if_pos heven]
    rw [load_outside (.inl (by omega))]
    rfl
  · refine ⟨.outside (size.tdiv 2), ?_⟩
    simp only [calculateMedian, if_neg heven]
    rw [load_outside (by simp only [List.length_nil]; omega)]
    rfl

/-- What the array holds once it is read. -/
def received (size : Int) : List Int32 :=
  (List.range size.toNat).map fun i => (scanned i).getD (garbage i)

theorem readLoop_received (hsize : 0 ≤ size) :
    readLoop scanned size (size.toNat + 1)
        ⟨0, (List.range size.toNat).map garbage⟩ =
      .ok ⟨size, received garbage scanned size⟩ := by
  have hlength : size = ((List.range size.toNat).map garbage).length := by
    rw [List.length_map, List.length_range, Int.toNat_of_nonneg hsize]
  rw [readLoop_spec scanned hlength (by omega), ← hlength, received]
  congr 2
  apply List.ext_getElem
  · simp
  · intro i hleft hright
    simp

/-- With one number or more, `main` reports what the median of them is computed to,
and divides the mean by their number. -/
theorem main_reports (hsize : 1 ≤ size) :
    ∃ median mean,
      main round true garbage scanned size = .ok (.reported median mean) ∧
      reportedMedian (received garbage scanned size) = .ok median ∧
      mean.divisor = size := by
  have hlength : size = (received garbage scanned size).length := by
    simp only [received, List.length_map, List.length_range]
    omega
  have hnonempty : received garbage scanned size ≠ [] := by
    rw [← List.length_pos_iff]
    omega
  obtain ⟨median, hmedian, -⟩ := reportedMedian_spec hnonempty
  obtain ⟨sorted, hsort, -, hperm⟩ :=
    sortArray_spec (received garbage scanned size) []
  rw [List.append_nil, List.append_nil, ← hlength] at hsort
  have hreported : calculateMedian sorted size = .ok median := by
    rw [reportedMedian, ← hlength, hsort] at hmedian
    exact hmedian
  have hmean := calculateMean_spec round
    (show size = sorted.length by rw [hperm.length_eq, ← hlength])
  refine ⟨median, ⟨roundedSum round sorted, size⟩, ?_, hmedian, rfl⟩
  rw [main, if_pos rfl]
  simp only [readLoop_received garbage scanned (show 0 ≤ size by omega),
    hsort, hreported, hmean, bind, Except.bind]
  rfl

/-- Without a number, `CalculateMedian` reads outside of the array. -/
theorem main_fault (hsize : size ≤ 0) :
    ∃ fault, main round true garbage scanned size = .error fault := by
  obtain ⟨fault, hfault⟩ := calculateMedian_empty hsize
  have hblock : (List.range size.toNat).map garbage = [] := by
    rw [Int.toNat_of_nonpos hsize]
    rfl
  have hread : readLoop scanned size (size.toNat + 1) ⟨0, []⟩ =
      .ok ⟨0, []⟩ := by
    apply whileLoop_done
    rw [decide_eq_false]
    dsimp only
    omega
  have hsort : sortArray [] size = .ok [] := by
    rw [sortArray, mergeSort, if_neg (by omega)]
    rfl
  refine ⟨fault, ?_⟩
  rw [main, if_pos rfl, hblock]
  simp only [hread, hsort, hfault, bind, Except.bind]

/-- Every access is inside of the array, and the mean divides by something, just
when there is a number. -/
theorem main_inside_iff (size : Int) :
    (∃ median mean,
      main round true garbage scanned size = .ok (.reported median mean) ∧
      mean.divisor ≠ 0) ↔ 1 ≤ size := by
  constructor
  · rintro ⟨median, mean, hmain, -⟩
    by_contra hsize
    obtain ⟨fault, hfault⟩ := main_fault round garbage scanned
      (show size ≤ 0 by omega)
    rw [hfault] at hmain
    contradiction
  · intro hsize
    obtain ⟨median, mean, hmain, -, hdivisor⟩ :=
      main_reports round garbage scanned hsize
    exact ⟨median, mean, hmain, by omega⟩

/-- The size 0, for a `malloc` that returns a block of no bytes. -/
theorem not_main_inside_empty :
    ¬ ∀ size : Int, ∃ median mean,
      main id true (fun _ => 0) (fun _ => none) size =
        .ok (.reported median mean) ∧ mean.divisor ≠ 0 := by
  intro hinside
  obtain ⟨median, mean, hmain, -⟩ := hinside 0
  obtain ⟨fault, hfault⟩ :=
    main_fault id (fun _ => 0) (fun _ => none) (le_refl 0)
  rw [hfault] at hmain
  contradiction

end Accesses

end Statistics

end OsCourse
