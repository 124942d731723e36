/-
The statistics program from its standard input to its report.
-/
import OsCourse.Statistics
import OsCourse.ScanLines

namespace OsCourse

namespace Statistics

open CheckedBuffer ScanText

section Input

/-- `main` from its standard input.  `allocates` says for which sizes `malloc` returns a
block, and `uninitialised` is what `size_of_array` holds before it is read. -/
def run (round : Rat → Rat) (allocates : Int → Bool) (garbage : Nat → Int32)
    (uninitialised : Int) (stdin : List Char) : Except Fault Exit :=
  let (converted, rest) := scanInt stdin
  let size := converted.getD uninitialised
  main round (allocates size) garbage
    (fun i => (scanInts size.toNat rest)[i]?.join.map Int32.ofInt) size

variable {round : Rat → Rat} {allocates : Int → Bool} {garbage : Nat → Int32}
  {uninitialised : Int} {values sorted : List Int32} {stdin : List Char}

/-- The program on an input that lists the number of values and then the values. -/
theorem run_eq_main
    (hstdin : Lists (values.length :: values.map Int32.toInt) stdin)
    (hallocates : allocates values.length = true) :
    run round allocates garbage uninitialised stdin =
      main round true garbage (fun i => values[i]?) values.length := by
  cases hstdin with
  | next hblanks hvalue hrest hvalues =>
      have hscanned := hvalues.scanInts
      rw [List.length_map] at hscanned
      rw [run, scanInt_lld hblanks hvalue hrest]
      simp only [Option.getD_some, hallocates, Int.toNat_natCast, hscanned]
      congr 1
      funext i
      rw [List.getElem?_map, List.getElem?_map]
      cases values[i]? with
      | none => rfl
      | some value => exact congrArg some (Int32.ofInt_toInt value)

theorem received_values :
    received garbage (fun i => values[i]?) values.length = values := by
  apply List.ext_getElem
  · simp [received]
  · intro i hleft hright
    simp [received, hright]

theorem roundedSum_of_exact (hround : ∀ value, round value = value)
    (hperm : sorted.Perm values) :
    roundedSum round sorted = (values.map rational).sum := by
  have hsum : ∀ start : Rat, sorted.foldl
      (fun media cell => round (media + cell.toInt)) start =
        start + (sorted.map rational).sum := by
    clear hperm
    induction sorted with
    | nil => intro start; rw [List.map_nil, List.sum_nil, add_zero]; rfl
    | cons cell sorted ih =>
        intro start
        rw [List.foldl_cons, ih, hround, List.map_cons, List.sum_cons, ← add_assoc,
          rational]
  rw [roundedSum, hsum, zero_add, (hperm.map rational).sum_eq]

theorem eq_of_sorted {first second : List Int32}
    (hfirst : first.Pairwise (· ≤ ·)) (hsecond : second.Pairwise (· ≤ ·))
    (hperm : first.Perm second) : first = second := by
  have hints : ∀ {list : List Int32}, list.Pairwise (· ≤ ·) →
      (list.map Int32.toInt).Pairwise (· ≤ ·) := by
    intro list hlist
    rw [List.pairwise_map]
    exact hlist.imp Int32.le_iff_toInt_le.mp
  apply List.map_injective_iff.mpr fun _ _ => Int32.toInt_inj.mp
  exact (hperm.map Int32.toInt).eq_of_pairwise' (hints hfirst) (hints hsecond)

theorem sortArray_eq (hsorted : sorted.Pairwise (· ≤ ·))
    (hperm : sorted.Perm values) :
    sortArray values values.length = .ok sorted := by
  obtain ⟨arranged, hsort, harranged, hsame⟩ := sortArray_spec values []
  rw [List.append_nil, List.append_nil] at hsort
  rw [hsort, eq_of_sorted harranged hsorted (hsame.trans hperm.symm)]

/-- The report is made from the values in order. -/
theorem main_sorted {median : Rat} (hsorted : sorted.Pairwise (· ≤ ·))
    (hperm : sorted.Perm values)
    (hmedian : calculateMedian sorted sorted.length = .ok median) :
    main round true garbage (fun i => values[i]?) values.length =
      .ok (.reported median ⟨roundedSum round sorted, sorted.length⟩) := by
  have hmean := @calculateMean_spec sorted sorted.length round rfl
  rw [hperm.length_eq] at hmedian hmean ⊢
  rw [main, if_pos rfl]
  simp only [readLoop_received garbage _ (Int.natCast_nonneg values.length),
    received_values, sortArray_eq hsorted hperm, hmedian, hmean, bind,
    Except.bind]
  rfl

/-- Numbers with any blanks between them are reported with their median, where the sum of
the middle ones is an `int`, and with their mean; the order in which they are typed
changes nothing, however the additions are rounded. -/
theorem run_reports (hvalues : values ≠ [])
    (hstdin : Lists (values.length :: values.map Int32.toInt) stdin)
    (hallocates : allocates values.length = true) :
    ∃ median sum,
      run round allocates garbage uninitialised stdin =
        .ok (.reported median ⟨sum, values.length⟩) ∧
      (median = Median.median (values.map rational) ↔
        MiddleSumFits values) ∧
      ((∀ value, round value = value) → sum = (values.map rational).sum) ∧
      ∀ (other : List Int32) (again : List Char), other.Perm values →
        Lists (other.length :: other.map Int32.toInt) again →
        run round allocates garbage uninitialised again =
          .ok (.reported median ⟨sum, values.length⟩) := by
  obtain ⟨sorted, -, hsorted, hperm⟩ := sortArray_spec values []
  obtain ⟨median, hmedian, hexact⟩ := reportedMedian_spec hvalues
  have hcalculated : calculateMedian sorted sorted.length = .ok median := by
    rw [reportedMedian, sortArray_eq hsorted hperm] at hmedian
    rw [hperm.length_eq]
    exact hmedian
  have hreport : ∀ (other : List Int32) (again : List Char),
      other.Perm values →
      Lists (other.length :: other.map Int32.toInt) again →
      run round allocates garbage uninitialised again =
        .ok (.reported median
          ⟨roundedSum round sorted, values.length⟩) := by
    intro other again hother hagain
    rw [run_eq_main hagain (by rwa [hother.length_eq]),
      main_sorted hsorted (hperm.trans hother.symm) hcalculated,
      hperm.length_eq]
  exact ⟨median, roundedSum round sorted,
    hreport values stdin (List.Perm.refl values) hstdin, hexact,
    fun hround => roundedSum_of_exact hround hperm, hreport⟩

/-- Three numbers, typed in two lines. -/
theorem run_reports_threeValues :
    ∃ median sum,
      run id (fun _ => true) (fun _ => 0) 0
          ['3', '\n', '5', ' ', '-', '1', ' ', '2', '\n'] =
        .ok (.reported median ⟨sum, 3⟩) ∧
      (median = Median.median ([5, -1, 2].map rational) ↔
        MiddleSumFits [5, -1, 2]) := by
  have hblank : ∀ char ∈ [' '], DecimalText.isSpace char = true := by
    simp [DecimalText.isSpace]
  have hline : ∀ char ∈ ['\n'], DecimalText.isSpace char = true := by
    simp [DecimalText.isSpace]
  have hvalues : Lists [5, -1, 2]
      ['\n', '5', ' ', '-', '1', ' ', '2', '\n'] :=
    @Lists.next _ [' ', '-', '1', ' ', '2', '\n'] 5 _ hline (by decide) (by simp)
      (@Lists.next _ [' ', '2', '\n'] (-1) _ hblank (by decide) (by simp)
        (@Lists.next _ ['\n'] 2 _ hblank (by decide) (by simp)
          (.done (by simp))))
  obtain ⟨median, sum, hrun, hmedian, -⟩ :=
    @run_reports id (fun _ => true) (fun _ => 0) 0 [5, -1, 2] _
      (List.cons_ne_nil _ _)
      (@Lists.next [] _ 3 [5, -1, 2] (List.forall_mem_nil _) (by decide)
        (by simp) hvalues) rfl
  exact ⟨median, sum, hrun, hmedian⟩

end Input

end Statistics

end OsCourse
