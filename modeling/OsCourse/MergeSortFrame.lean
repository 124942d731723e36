/-
What `MergeSort` touches.  The functions of the sorting are run once more with a
record of the cells they access and of the values of their `int` expressions; the
record changes nothing of what they do.  The `merge` and `merge_sort` of the
class example are the same functions.
-/
import Mathlib.Algebra.Ring.Int.Defs
import OsCourse.MergeSort

namespace OsCourse

namespace Statistics

open CheckedBuffer

/-- An access to the array or to a temporary of `n1` or `n2` cells, or the value
of an `int` expression. -/
inductive Touch where
  | arr (index : Int)
  | L (index n1 : Int)
  | R (index n2 : Int)
  | int (value : Int)
deriving Repr, DecidableEq

/-- The touch stays in the segment, in its temporary or in the range of an
`int`. -/
def Touch.Within (left right : Int) : Touch → Prop
  | .arr index => left ≤ index ∧ index ≤ right
  | .L index n1 => 0 ≤ index ∧ index < n1
  | .R index n2 => 0 ≤ index ∧ index < n2
  | .int value => -2 ^ 31 ≤ value ∧ value < 2 ^ 31

structure Traced (Result : Type) where
  result : Result
  touched : List Touch

/-- `for (int i = 0; i < n1; i++) L[i] = arr[left + i];`, and the same for
`R`. -/
def copyRangeTraced (temporary : Int → Int → Touch) (arr : List Int32)
    (first count : Int) : Except Fault (Traced (List Int32)) :=
  whileLoop
    (fun state => .ok (decide ((state.result.length : Int) < count)))
    (fun state => do
      let i : Int := state.result.length
      let cell ← load arr (first + i)
      return ⟨state.result ++ [cell], state.touched ++
        [.int (first + i), .arr (first + i), temporary i count,
          .int (i + 1)]⟩)
    (count.toNat + 1) ⟨[], []⟩

def mergeLoopTraced (L R : List Int32) (n1 n2 : Int) :
    Nat → Traced Merging → Except Fault (Traced Merging) :=
  whileLoop
    (fun state => .ok (decide (state.result.i < n1) &&
      decide (state.result.j < n2)))
    (fun ⟨state, touched⟩ => do
      let l ← load L state.i
      let r ← load R state.j
      let touched := touched ++ [.L state.i n1, .R state.j n2]
      if l ≤ r then
        let arr ← store state.arr state.k l
        return ⟨⟨state.i + 1, state.j, state.k + 1, arr⟩, touched ++
          [.L state.i n1, .int (state.i + 1), .arr state.k,
            .int (state.k + 1)]⟩
      else
        let arr ← store state.arr state.k r
        return ⟨⟨state.i, state.j + 1, state.k + 1, arr⟩, touched ++
          [.R state.j n2, .int (state.j + 1), .arr state.k,
            .int (state.k + 1)]⟩)

def drainLoopTraced (temporary : Int → Int → Touch) (half : List Int32)
    (count : Int) : Nat → Traced Draining → Except Fault (Traced Draining) :=
  whileLoop (fun state => .ok (decide (state.result.index < count)))
    (fun ⟨state, touched⟩ => do
      let cell ← load half state.index
      let arr ← store state.arr state.k cell
      return ⟨⟨state.index + 1, state.k + 1, arr⟩, touched ++
        [temporary state.index count, .int (state.index + 1), .arr state.k,
          .int (state.k + 1)]⟩)

def mergeTraced (arr : List Int32) (left mid right : Int) :
    Except Fault (Traced (List Int32)) := do
  let n1 := mid - left + 1
  let n2 := right - mid
  let L ← copyRangeTraced .L arr left n1
  let R ← copyRangeTraced .R arr (mid + 1) n2
  let fuel := n1.toNat + n2.toNat + 1
  let merged ← mergeLoopTraced L.result R.result n1 n2 fuel
    ⟨⟨0, 0, left, arr⟩, []⟩
  let first ← drainLoopTraced .L L.result n1 fuel
    ⟨⟨merged.result.i, merged.result.k, merged.result.arr⟩, []⟩
  let second ← drainLoopTraced .R R.result n2 fuel
    ⟨⟨merged.result.j, first.result.k, first.result.arr⟩, []⟩
  return ⟨second.result.arr,
    [.int (mid - left), .int n1, .int n2, .int (mid + 1)] ++ L.touched ++
      R.touched ++ merged.touched ++ first.touched ++ second.touched⟩

def mergeSortTraced : Nat → List Int32 → (left right : Int) →
    Except Fault (Traced (List Int32))
  | 0, _, _, _ => .error .outOfFuel
  | fuel + 1, arr, left, right =>
      if left < right then do
        let mid := left + (right - left).tdiv 2
        let lower ← mergeSortTraced fuel arr left mid
        let upper ← mergeSortTraced fuel lower.result (mid + 1) right
        let merged ← mergeTraced upper.result left mid right
        return ⟨merged.result,
          [.int (right - left), .int ((right - left).tdiv 2), .int mid,
            .int (mid + 1)] ++ lower.touched ++ upper.touched ++
              merged.touched⟩
      else return ⟨arr, []⟩

section Forget

theorem copyRangeTraced_result (temporary : Int → Int → Touch)
    (arr : List Int32) (first count : Int) :
    (copyRangeTraced temporary arr first count).map Traced.result =
      copyRange arr first count := by
  apply whileLoop_map Traced.result
  · exact fun _ => rfl
  · intro state
    cases hload : load arr (first + state.result.length) <;>
      simp only [hload, bind, Except.bind] <;> rfl

theorem mergeLoopTraced_result (L R : List Int32) (n1 n2 : Int) (fuel : Nat)
    (state : Traced Merging) :
    (mergeLoopTraced L R n1 n2 fuel state).map Traced.result =
      mergeLoop L R n1 n2 fuel state.result := by
  apply whileLoop_map Traced.result
  · exact fun _ => rfl
  · rintro ⟨state, touched⟩
    cases hl : load L state.i with
    | error fault => simp only [hl, bind, Except.bind]; rfl
    | ok l =>
        cases hr : load R state.j with
        | error fault => simp only [hl, hr, bind, Except.bind]; rfl
        | ok r =>
            simp only [hl, hr, bind, Except.bind]
            split
            · cases hstore : store state.arr state.k l <;> rfl
            · cases hstore : store state.arr state.k r <;> rfl

theorem drainLoopTraced_result (temporary : Int → Int → Touch)
    (half : List Int32) (count : Int) (fuel : Nat) (state : Traced Draining) :
    (drainLoopTraced temporary half count fuel state).map Traced.result =
      drainLoop half count fuel state.result := by
  apply whileLoop_map Traced.result
  · exact fun _ => rfl
  · rintro ⟨state, touched⟩
    cases hload : load half state.index with
    | error fault => simp only [hload, bind, Except.bind]; rfl
    | ok cell =>
        simp only [hload, bind, Except.bind]
        cases hstore : store state.arr state.k cell <;> rfl

theorem mergeTraced_result (arr : List Int32) (left mid right : Int) :
    (mergeTraced arr left mid right).map Traced.result =
      merge arr left mid right := by
  refine map_bind_of_map (copyRangeTraced_result ..) fun L => ?_
  refine map_bind_of_map (copyRangeTraced_result ..) fun R => ?_
  refine map_bind_of_map (mergeLoopTraced_result ..) fun merged => ?_
  refine map_bind_of_map (drainLoopTraced_result ..) fun first => ?_
  exact map_bind_of_map (drainLoopTraced_result ..) fun second => rfl

theorem mergeSortTraced_result (fuel : Nat) (arr : List Int32)
    (left right : Int) :
    (mergeSortTraced fuel arr left right).map Traced.result =
      mergeSort fuel arr left right := by
  induction fuel generalizing arr left right with
  | zero => rfl
  | succ fuel ih =>
      rw [mergeSortTraced, mergeSort]
      split
      · refine map_bind_of_map (ih ..) fun lower => ?_
        refine map_bind_of_map (ih ..) fun upper => ?_
        have hmerge := mergeTraced_result upper.result left
          (left + (right - left).tdiv 2) right
        cases hmerged : mergeTraced upper.result left
            (left + (right - left).tdiv 2) right with
        | error fault =>
            rw [hmerged] at hmerge
            exact hmerge
        | ok merged =>
            rw [hmerged] at hmerge
            exact hmerge
      · rfl

end Forget

/-- A segment of an array whose size is an `int`. -/
structure IsSegment (left right : Int) : Prop where
  low : 0 ≤ left
  high : right + 1 < 2 ^ 31

section Touched

variable {arr L R half : List Int32} {left mid right first count n1 n2 : Int}
  {fuel : Nat} {temporary : Int → Int → Touch}

theorem copyRangeTraced_within {copied : Traced (List Int32)}
    (hsegment : IsSegment left right) (hfirst : left ≤ first)
    (hlast : first + count ≤ right + 1)
    (htemporary : ∀ i, 0 ≤ i → i < count →
      (temporary i count).Within left right)
    (hcopied : copyRangeTraced temporary arr first count = .ok copied) :
    ∀ touch ∈ copied.touched, touch.Within left right := by
  rcases hsegment with ⟨hlow, hhigh⟩
  refine (whileLoop_invariant
    (fun state => ∀ touch ∈ state.touched, touch.Within left right)
    ?_ (fun _ hmem => by cases hmem) hcopied).1
  intro state next hstate hguard hbody
  have hless := of_decide_eq_true (Except.ok.inj hguard)
  obtain ⟨cell, -, hnext⟩ := bind_eq_ok_iff.mp hbody
  obtain rfl := Except.ok.inj hnext
  rw [List.forall_mem_append]
  refine ⟨hstate, ?_⟩
  have htemp := htemporary state.result.length (Int.natCast_nonneg _) hless
  simp only [List.forall_mem_cons, List.not_mem_nil, Touch.Within]
  exact ⟨by omega, by omega, htemp, by omega, by simp⟩

/-- Inside the merging loop: what the indices are and that every touch so far was
within. -/
structure MergingWithin (left right n1 n2 : Int) (state : Traced Merging) :
    Prop where
  indexL : 0 ≤ state.result.i ∧ state.result.i ≤ n1
  indexR : 0 ≤ state.result.j ∧ state.result.j ≤ n2
  position : state.result.k = left + state.result.i + state.result.j
  touched : ∀ touch ∈ state.touched, touch.Within left right

theorem mergeLoopTraced_within {merged : Traced Merging}
    (hsegment : IsSegment left right) (hn1 : 0 ≤ n1) (hn2 : 0 ≤ n2)
    (hlast : left + n1 + n2 ≤ right + 1)
    (hmerged : mergeLoopTraced L R n1 n2 fuel ⟨⟨0, 0, left, arr⟩, []⟩ =
      .ok merged) : MergingWithin left right n1 n2 merged := by
  rcases hsegment with ⟨hlow, hhigh⟩
  refine (whileLoop_invariant (MergingWithin left right n1 n2) ?_ ?_
    hmerged).1
  · rintro ⟨state, touched⟩ next hstate hguard hbody
    rcases hstate with ⟨hi, hj, hk, htouched⟩
    have hmore := Except.ok.inj hguard
    rw [Bool.and_eq_true, decide_eq_true_iff, decide_eq_true_iff] at hmore
    obtain ⟨l, -, hbody⟩ := bind_eq_ok_iff.mp hbody
    obtain ⟨r, -, hbody⟩ := bind_eq_ok_iff.mp hbody
    dsimp only at hi hj hk htouched hmore
    split at hbody
    · obtain ⟨after, -, hnext⟩ := bind_eq_ok_iff.mp hbody
      obtain rfl := Except.ok.inj hnext
      refine ⟨?_, hj, ?_, ?_⟩
      · dsimp only
        omega
      · dsimp only
        omega
      · rw [List.forall_mem_append, List.forall_mem_append]
        simp only [List.forall_mem_cons, List.not_mem_nil, Touch.Within]
        exact ⟨⟨htouched, by omega, by omega, by simp⟩, by omega, by omega,
          by omega, by omega, by simp⟩
    · obtain ⟨after, -, hnext⟩ := bind_eq_ok_iff.mp hbody
      obtain rfl := Except.ok.inj hnext
      refine ⟨hi, ?_, ?_, ?_⟩
      · dsimp only
        omega
      · dsimp only
        omega
      · rw [List.forall_mem_append, List.forall_mem_append]
        simp only [List.forall_mem_cons, List.not_mem_nil, Touch.Within]
        exact ⟨⟨htouched, by omega, by omega, by simp⟩, by omega, by omega,
          by omega, by omega, by simp⟩
  · refine ⟨⟨Int.le_refl 0, hn1⟩, ⟨Int.le_refl 0, hn2⟩, ?_,
      fun _ hmem => by cases hmem⟩
    dsimp only
    omega

/-- Inside a loop that copies the rest of one half to the cells from `base` on. -/
structure DrainingWithin (left right count base : Int)
    (state : Traced Draining) : Prop where
  index : 0 ≤ state.result.index ∧ state.result.index ≤ count
  position : state.result.k = base + state.result.index
  touched : ∀ touch ∈ state.touched, touch.Within left right

theorem drainLoopTraced_within (base : Int) {start : Draining}
    {drained : Traced Draining} (hsegment : IsSegment left right)
    (hbase : left ≤ base) (hlast : base + count ≤ right + 1)
    (htemporary : ∀ i, 0 ≤ i → i < count →
      (temporary i count).Within left right)
    (hstart : DrainingWithin left right count base ⟨start, []⟩)
    (hdrained : drainLoopTraced temporary half count fuel ⟨start, []⟩ =
      .ok drained) :
    DrainingWithin left right count base drained ∧
      drained.result.index = count := by
  rcases hsegment with ⟨hlow, hhigh⟩
  obtain ⟨hwithin, hguard⟩ := whileLoop_invariant
    (DrainingWithin left right count base) (by
      rintro ⟨state, touched⟩ next hstate hguard hbody
      rcases hstate with ⟨hindex, hk, htouched⟩
      have hless := of_decide_eq_true (Except.ok.inj hguard)
      obtain ⟨cell, -, hbody⟩ := bind_eq_ok_iff.mp hbody
      obtain ⟨after, -, hnext⟩ := bind_eq_ok_iff.mp hbody
      obtain rfl := Except.ok.inj hnext
      dsimp only at hindex hk htouched hless
      have htemp := htemporary state.index hindex.1 hless
      refine ⟨?_, ?_, ?_⟩
      · dsimp only
        omega
      · dsimp only
        omega
      · rw [List.forall_mem_append]
        simp only [List.forall_mem_cons, List.not_mem_nil, Touch.Within]
        exact ⟨htouched, htemp, by omega, by omega, by omega, by simp⟩)
    hstart hdrained
  refine ⟨hwithin, ?_⟩
  have hdone := of_decide_eq_false (Except.ok.inj hguard)
  have hindex := hwithin.index
  omega

theorem mergeTraced_within {merged : Traced (List Int32)}
    (hsegment : IsSegment left right) (hmid : left ≤ mid)
    (hright : mid < right)
    (hmerged : mergeTraced arr left mid right = .ok merged) :
    ∀ touch ∈ merged.touched, touch.Within left right := by
  have hlow := hsegment.low
  have hhigh := hsegment.high
  have hinL : ∀ i, 0 ≤ i → i < mid - left + 1 →
      (Touch.L i (mid - left + 1)).Within left right :=
    fun _ hi hless => ⟨hi, hless⟩
  have hinR : ∀ i, 0 ≤ i → i < right - mid →
      (Touch.R i (right - mid)).Within left right :=
    fun _ hi hless => ⟨hi, hless⟩
  obtain ⟨L, hL, hmerged⟩ := bind_eq_ok_iff.mp hmerged
  obtain ⟨R, hR, hmerged⟩ := bind_eq_ok_iff.mp hmerged
  obtain ⟨loop, hloop, hmerged⟩ := bind_eq_ok_iff.mp hmerged
  obtain ⟨first, hfirst, hmerged⟩ := bind_eq_ok_iff.mp hmerged
  obtain ⟨second, hsecond, hmerged⟩ := bind_eq_ok_iff.mp hmerged
  obtain rfl := Except.ok.inj hmerged
  have htouchedL := copyRangeTraced_within hsegment (Int.le_refl left)
    (by omega) hinL hL
  have htouchedR := copyRangeTraced_within hsegment
    (by omega : left ≤ mid + 1) (by omega) hinR hR
  obtain ⟨hi, hj, hk, htouchedLoop⟩ := mergeLoopTraced_within hsegment
    (by omega) (by omega) (by omega) hloop
  -- the rest of `L` goes behind what was taken from `R`, and the rest of `R`
  -- behind the whole of `L`
  obtain ⟨hfirstWithin, hfirstIndex⟩ := drainLoopTraced_within
    (left + loop.result.j) hsegment (by omega) (by omega) hinL
    ⟨hi, by dsimp only; omega, fun _ hmem => by cases hmem⟩ hfirst
  have hposition := hfirstWithin.position
  have hsecondWithin := (drainLoopTraced_within
    (left + (mid - left + 1)) hsegment (by omega) (by omega) hinR
    ⟨hj, by dsimp only; omega, fun _ hmem => by cases hmem⟩ hsecond).1
  have hints : ∀ touch ∈ [Touch.int (mid - left), .int (mid - left + 1),
      .int (right - mid), .int (mid + 1)], touch.Within left right := by
    simp only [List.forall_mem_cons, List.not_mem_nil, Touch.Within]
    exact ⟨by omega, by omega, by omega, by omega, by simp⟩
  simp only [List.forall_mem_append]
  exact ⟨⟨⟨⟨⟨hints, htouchedL⟩, htouchedR⟩, htouchedLoop⟩,
    hfirstWithin.touched⟩, hsecondWithin.touched⟩

/-- A part of a segment is touched within the segment. -/
theorem Touch.Within.mono {outerLeft outerRight : Int} {touch : Touch}
    (hwithin : touch.Within left right) (hleft : outerLeft ≤ left)
    (hright : right ≤ outerRight) : touch.Within outerLeft outerRight := by
  cases touch with
  | arr index => exact ⟨hleft.trans hwithin.1, hwithin.2.trans hright⟩
  | L index n1 => exact hwithin
  | R index n2 => exact hwithin
  | int value => exact hwithin

theorem mergeSortTraced_within {sorted : Traced (List Int32)}
    (hsegment : IsSegment left right)
    (hsorted : mergeSortTraced fuel arr left right = .ok sorted) :
    ∀ touch ∈ sorted.touched, touch.Within left right := by
  induction fuel generalizing arr left right sorted with
  | zero => cases hsorted
  | succ fuel ih =>
      have hlow := hsegment.low
      have hhigh := hsegment.high
      rw [mergeSortTraced] at hsorted
      by_cases hlt : left < right
      · rw [if_pos hlt] at hsorted
        obtain ⟨lower, hlower, hsorted⟩ := bind_eq_ok_iff.mp hsorted
        obtain ⟨upper, hupper, hsorted⟩ := bind_eq_ok_iff.mp hsorted
        obtain ⟨merged, hmerged, hsorted⟩ := bind_eq_ok_iff.mp hsorted
        obtain rfl := Except.ok.inj hsorted
        have hhalf : (right - left).tdiv 2 = (right - left) / 2 :=
          Int.tdiv_eq_ediv_of_nonneg (by omega)
        rw [hhalf] at hlower hupper hmerged ⊢
        have htouchedLower := ih ⟨hlow, by omega⟩ hlower
        have htouchedUpper := ih ⟨by omega, hhigh⟩ hupper
        have htouchedMerge := mergeTraced_within hsegment
          (by omega) (by omega) hmerged
        have hints : ∀ touch ∈ [Touch.int (right - left),
            .int ((right - left) / 2), .int (left + (right - left) / 2),
            .int (left + (right - left) / 2 + 1)],
            touch.Within left right := by
          simp only [List.forall_mem_cons, List.not_mem_nil, Touch.Within]
          exact ⟨by omega, by omega, by omega, by omega, by simp⟩
        simp only [List.forall_mem_append]
        exact ⟨⟨⟨hints,
          fun touch hmem => (htouchedLower touch hmem).mono
            (Int.le_refl left) (by omega)⟩,
          fun touch hmem => (htouchedUpper touch hmem).mono
            (by omega) (Int.le_refl right)⟩, htouchedMerge⟩
      · rw [if_neg hlt] at hsorted
        obtain rfl := Except.ok.inj hsorted
        exact fun _ hmem => by cases hmem

end Touched

/-- The array as what is before, in and behind a segment. -/
theorem exists_segment {arr : List Int32} {left right : Int}
    (hleft : 0 ≤ left) (hright : left ≤ right + 1)
    (hsize : right < arr.length) :
    ∃ front part back, arr = front ++ part ++ back ∧
      left = front.length ∧ right + 1 = left + part.length := by
  refine ⟨arr.take left.toNat,
    (arr.drop left.toNat).take (right - left + 1).toNat,
    (arr.drop left.toNat).drop (right - left + 1).toNat, ?_, ?_, ?_⟩
  · rw [List.append_assoc, List.take_append_drop, List.take_append_drop]
  · rw [List.length_take]
    omega
  · rw [List.length_take, List.length_drop]
    omega

/-- Parts of one length have the same cells around them. -/
theorem getElem?_around {front part sorted back : List Int32}
    (hlength : sorted.length = part.length) {index : Nat}
    (houtside : index < front.length ∨
      front.length + part.length ≤ index) :
    (front ++ sorted ++ back)[index]? = (front ++ part ++ back)[index]? := by
  rcases houtside with hbefore | hbehind
  · rw [List.append_assoc, List.append_assoc,
      List.getElem?_append_left hbefore, List.getElem?_append_left hbefore]
  · have hlast : (front ++ sorted).length = (front ++ part).length := by
      rw [List.length_append, List.length_append, hlength]
    have hle : (front ++ part).length ≤ index := by
      rwa [List.length_append]
    rw [List.getElem?_append_right hle,
      List.getElem?_append_right (hlast.trans_le hle), hlast]

/-- `MergeSort` ends on every segment of an array, touches nothing else of the array
and leaves it as it is. -/
theorem mergeSort_frame (arr : List Int32) (left right : Int)
    (hleft : 0 ≤ left) (hright : left ≤ right + 1)
    (hsize : right < arr.length) (hint : (arr.length : Int) ≤ 2 ^ 31 - 1)
    (fuel : Nat) (hfuel : right - left + 1 < fuel) :
    ∃ sorted, mergeSortTraced fuel arr left right = .ok sorted ∧
      mergeSort fuel arr left right = .ok sorted.result ∧
      (∀ touch ∈ sorted.touched, touch.Within left right) ∧
      sorted.result.length = arr.length ∧
      ∀ index : Nat, index < left ∨ right < index →
        sorted.result[index]? = arr[index]? := by
  obtain ⟨front, part, back, rfl, hfront, hpart⟩ :=
    exists_segment hleft hright hsize
  obtain ⟨depth, rfl⟩ : ∃ depth, fuel = depth + 1 := ⟨fuel - 1, by omega⟩
  obtain ⟨sortedPart, hsort, -, hperm⟩ := mergeSort_spec rfl hfront hpart
    (show part.length ≤ depth by omega)
  have hlength := hperm.length_eq
  have hresult := mergeSortTraced_result (depth + 1) (front ++ part ++ back)
    left right
  rw [hsort] at hresult
  cases htraced : mergeSortTraced (depth + 1) (front ++ part ++ back) left
      right with
  | error fault =>
      rw [htraced] at hresult
      cases hresult
  | ok sorted =>
      rw [htraced] at hresult
      obtain ⟨result, touched⟩ := sorted
      obtain rfl : result = _ := Except.ok.inj hresult
      refine ⟨_, rfl, hsort,
        mergeSortTraced_within ⟨hleft, by omega⟩ htraced, ?_, ?_⟩
      · simp only [List.length_append, hlength]
      · intro index houtside
        exact getElem?_around hlength (by omega)

/-- The middle of an array is sorted, and its ends are not looked at. -/
theorem mergeSort_frame_middle :
    ∃ sorted, mergeSortTraced 5 [9, 3, -1, 2, 0] 1 3 = .ok sorted ∧
      sorted.result = [9, -1, 2, 3, 0] ∧
      ∀ touch ∈ sorted.touched, touch.Within 1 3 := by
  obtain ⟨sorted, htraced, hsort, hwithin, -, -⟩ :=
    mergeSort_frame [9, 3, -1, 2, 0] 1 3 (by decide) (by decide) (by decide)
      (by decide) 5 (by decide)
  have hresult : mergeSort 5 [9, 3, -1, 2, 0] 1 3 =
      .ok [9, -1, 2, 3, 0] := by
    decide +kernel
  rw [hsort, Except.ok.injEq] at hresult
  exact ⟨sorted, htraced, hresult, hwithin⟩

end Statistics

end OsCourse
