/-
The sorting of the statistics program: `Merge`, `MergeSort` and `SortArray` on an
`int` array that is sorted in place.  Indices are integers; none of them leaves
the range of an `int`, since they stay between -1 and the size.
-/
import OsCourse.CheckedBuffer
import Mathlib.Data.List.Sort
import Mathlib.Tactic.Common

namespace OsCourse

namespace Statistics

open CheckedBuffer

/-- The loops that fill `L` and `R`: a fresh buffer of `count` cells, as far as it
is filled. -/
def copyRange (arr : List Int32) (first count : Int) :
    Except Fault (List Int32) :=
  whileLoop (fun copy => .ok (decide ((copy.length : Int) < count)))
    (fun copy => do
      let cell ← load arr (first + copy.length)
      return copy ++ [cell])
    (count.toNat + 1) []

/-- The variables of the merging loop. -/
structure Merging where
  i : Int
  j : Int
  k : Int
  arr : List Int32

/-- `while (i < n1 && j < n2)`. -/
def mergeLoop (L R : List Int32) (n1 n2 : Int) :
    Nat → Merging → Except Fault Merging :=
  whileLoop
    (fun state => .ok (decide (state.i < n1) && decide (state.j < n2)))
    (fun state => do
      let l ← load L state.i
      let r ← load R state.j
      if l ≤ r then
        let arr ← store state.arr state.k l
        return ⟨state.i + 1, state.j, state.k + 1, arr⟩
      else
        let arr ← store state.arr state.k r
        return ⟨state.i, state.j + 1, state.k + 1, arr⟩)

/-- The variables of a loop that copies the rest of one half. -/
structure Draining where
  index : Int
  k : Int
  arr : List Int32

/-- `while (index < count) arr[k++] = half[index++];`. -/
def drainLoop (half : List Int32) (count : Int) :
    Nat → Draining → Except Fault Draining :=
  whileLoop (fun state => .ok (decide (state.index < count)))
    (fun state => do
      let cell ← load half state.index
      let arr ← store state.arr state.k cell
      return ⟨state.index + 1, state.k + 1, arr⟩)

/-- `Merge`; the `malloc`s of the two halves succeed. -/
def merge (arr : List Int32) (left mid right : Int) :
    Except Fault (List Int32) := do
  let n1 := mid - left + 1
  let n2 := right - mid
  let L ← copyRange arr left n1
  let R ← copyRange arr (mid + 1) n2
  let fuel := n1.toNat + n2.toNat + 1
  let merged ← mergeLoop L R n1 n2 fuel ⟨0, 0, left, arr⟩
  let first ← drainLoop L n1 fuel ⟨merged.i, merged.k, merged.arr⟩
  let second ← drainLoop R n2 fuel ⟨merged.j, first.k, first.arr⟩
  return second.arr

/-- `MergeSort`, with a bound on the depth of its recursion. -/
def mergeSort : Nat → List Int32 → (left right : Int) →
    Except Fault (List Int32)
  | 0, _, _, _ => .error .outOfFuel
  | fuel + 1, arr, left, right =>
      if left < right then do
        let mid := left + (right - left).tdiv 2
        let arr ← mergeSort fuel arr left mid
        let arr ← mergeSort fuel arr (mid + 1) right
        merge arr left mid right
      else return arr

def sortArray (arr : List Int32) (size : Int) : Except Fault (List Int32) :=
  mergeSort (size.toNat + 1) arr 0 (size - 1)

section Merge

variable {arr front part back : List Int32} {first count : Int}

theorem copyRange_spec (harr : arr = front ++ part ++ back)
    (hfirst : first = front.length) (hcount : count = part.length) :
    copyRange arr first count = .ok part := by
  refine whileLoop_over part (fun copy _ => copy) ?_ ?_ (by omega)
  · intro copy cell rest hpart
    have hlength := congrArg List.length hpart
    rw [List.length_append, List.length_cons] at hlength
    have hload : load arr (first + copy.length) = .ok cell := by
      rw [harr, hpart, ← List.append_assoc, List.append_assoc,
        List.cons_append]
      apply load_append
      rw [List.length_append]
      omega
    constructor
    · rw [decide_eq_true]
      omega
    · simp only [hload]
      rfl
  · rw [decide_eq_false]
    omega

/-- Inside the merging loop: `done` is written back, `restL` and `restR` are still to
be merged, and `old` is what they will overwrite. -/
structure MergedSoFar (L R front back restL restR done old : List Int32)
    (state : Merging) : Prop where
  left : ∃ taken, L = taken ++ restL ∧ state.i = taken.length
  right : ∃ taken, R = taken ++ restR ∧ state.j = taken.length
  position : state.k = (front ++ done).length
  arr : state.arr = front ++ done ++ old ++ back
  merged : done ++ restL.merge restR = L.merge R
  room : old.length = restL.length + restR.length

section MergeLoop

variable {L R restL restR done old : List Int32} {state : Merging}
  {l r : Int32}

/-- The write `arr[k++] = cell`. -/
theorem MergedSoFar.store (cell : Int32)
    (hstate : MergedSoFar L R front back restL restR done old state)
    (hmore : 0 < restL.length + restR.length) :
    ∃ first rest, old = first :: rest ∧
      CheckedBuffer.store state.arr state.k cell =
        .ok (front ++ (done ++ [cell]) ++ rest ++ back) := by
  have hroom := hstate.room
  cases old with
  | nil =>
      rw [List.length_nil] at hroom
      omega
  | cons first rest =>
      refine ⟨first, rest, rfl, ?_⟩
      rw [hstate.arr, List.append_assoc (front ++ done), List.cons_append,
        store_append hstate.position]
      simp

theorem MergedSoFar.takeLeft {first : Int32} {rest arr : List Int32}
    (hstate : MergedSoFar L R front back (l :: restL) (r :: restR) done
      (first :: rest) state)
    (hle : l ≤ r) (harr : arr = front ++ (done ++ [l]) ++ rest ++ back) :
    MergedSoFar L R front back restL (r :: restR) (done ++ [l]) rest
      ⟨state.i + 1, state.j, state.k + 1, arr⟩ where
  left := by
    obtain ⟨taken, hL, hi⟩ := hstate.left
    exact ⟨taken ++ [l], by simp [hL], by simp [hi]⟩
  right := hstate.right
  position := by simp [hstate.position, Int.add_assoc]
  arr := harr
  merged := by
    rw [← hstate.merged, List.cons_merge_cons_pos _ _ _ (by simpa using hle),
      List.append_assoc]
    rfl
  room := by
    have hroom := hstate.room
    simp only [List.length_cons] at hroom ⊢
    omega

theorem MergedSoFar.takeRight {first : Int32} {rest arr : List Int32}
    (hstate : MergedSoFar L R front back (l :: restL) (r :: restR) done
      (first :: rest) state)
    (hle : ¬ l ≤ r) (harr : arr = front ++ (done ++ [r]) ++ rest ++ back) :
    MergedSoFar L R front back (l :: restL) restR (done ++ [r]) rest
      ⟨state.i, state.j + 1, state.k + 1, arr⟩ where
  left := hstate.left
  right := by
    obtain ⟨taken, hR, hj⟩ := hstate.right
    exact ⟨taken ++ [r], by simp [hR], by simp [hj]⟩
  position := by simp [hstate.position, Int.add_assoc]
  arr := harr
  merged := by
    rw [← hstate.merged, List.cons_merge_cons_neg _ _ _ (by simpa using hle),
      List.append_assoc]
    rfl
  room := by
    have hroom := hstate.room
    simp only [List.length_cons] at hroom ⊢
    omega

theorem mergeLoop_spec {n1 n2 left : Int} {fuel : Nat} (hn1 : n1 = L.length)
    (hn2 : n2 = R.length) (hleft : left = front.length)
    (harr : arr = front ++ old ++ back)
    (hold : old.length = L.length + R.length)
    (hfuel : L.length + R.length < fuel) :
    ∃ last, mergeLoop L R n1 n2 fuel ⟨0, 0, left, arr⟩ = .ok last ∧
      ∃ restL restR done old,
        MergedSoFar L R front back restL restR done old last ∧
          (restL = [] ∨ restR = []) := by
  apply whileLoop_spec
    (fun state => ∃ restL restR done old,
      MergedSoFar L R front back restL restR done old state)
    _ (fun state => L.length + R.length - (state.i.toNat + state.j.toNat))
  · rintro state ⟨restL, restR, done, old, hstate⟩
    obtain ⟨takenL, hL, hi⟩ := hstate.left
    obtain ⟨takenR, hR, hj⟩ := hstate.right
    have hlengthL := congrArg List.length hL
    have hlengthR := congrArg List.length hR
    rw [List.length_append] at hlengthL hlengthR
    cases restL with
    | nil =>
        have hdone : decide (state.i < n1) = false := by
          rw [List.length_nil] at hlengthL
          rw [decide_eq_false_iff_not]
          omega
        refine .inl ⟨?_, [], restR, done, old, hstate, .inl rfl⟩
        rw [hdone, Bool.false_and]
    | cons l restL =>
        cases restR with
        | nil =>
            have hdone : decide (state.j < n2) = false := by
              rw [List.length_nil] at hlengthR
              rw [decide_eq_false_iff_not]
              omega
            refine .inl ⟨?_, l :: restL, [], done, old, hstate, .inr rfl⟩
            rw [hdone, Bool.and_false]
        | cons r restR =>
            have hloadL : load L state.i = .ok l := by
              rw [hL]
              exact load_append hi
            have hloadR : load R state.j = .ok r := by
              rw [hR]
              exact load_append hj
            rw [List.length_cons] at hlengthL hlengthR
            have hmore : (decide (state.i < n1) && decide (state.j < n2)) =
                true := by
              rw [Bool.and_eq_true, decide_eq_true_iff, decide_eq_true_iff]
              omega
            have hroom : 0 < (l :: restL).length + (r :: restR).length :=
              Nat.add_pos_left (Nat.succ_pos _) _
            by_cases hle : l ≤ r
            · obtain ⟨first, rest, rfl, hstore⟩ :=
                hstate.store l hroom
              refine .inr ⟨⟨state.i + 1, state.j, state.k + 1, _⟩,
                congrArg Except.ok hmore, ?_,
                ⟨_, _, _, _, hstate.takeLeft hle rfl⟩, ?_⟩
              · simp only [hloadL, hloadR, hstore, bind, Except.bind,
                  if_pos hle]
                rfl
              · dsimp only
                omega
            · obtain ⟨first, rest, rfl, hstore⟩ :=
                hstate.store r hroom
              refine .inr ⟨⟨state.i, state.j + 1, state.k + 1, _⟩,
                congrArg Except.ok hmore, ?_,
                ⟨_, _, _, _, hstate.takeRight hle rfl⟩, ?_⟩
              · simp only [hloadL, hloadR, hstore, bind, Except.bind,
                  if_neg hle]
                rfl
              · dsimp only
                omega
  · refine ⟨L, R, [], old, ⟨⟨[], rfl, rfl⟩, ⟨[], rfl, rfl⟩, ?_, ?_, rfl, hold⟩⟩
    · rw [List.append_nil]
      exact hleft
    · rw [List.append_nil]
      exact harr
  · simpa using hfuel

end MergeLoop

/-- The rest of a half goes to the end of what is written. -/
theorem drainLoop_spec {half taken rest done old : List Int32}
    {count index k : Int} {fuel : Nat} (hhalf : half = taken ++ rest)
    (hcount : count = half.length) (hindex : index = taken.length)
    (hk : k = done.length) (harr : arr = done ++ old ++ back)
    (hold : old.length = rest.length) (hfuel : rest.length < fuel) :
    drainLoop half count fuel ⟨index, k, arr⟩ =
      .ok ⟨half.length, (done ++ rest).length, done ++ rest ++ back⟩ := by
  have hlength := congrArg List.length hhalf
  rw [List.length_append] at hlength
  have hloop : drainLoop half count fuel
      ⟨(taken ++ []).length, (done ++ []).length, done ++ [] ++ old ++ back⟩ =
        .ok ⟨(taken ++ rest).length, (done ++ rest).length,
          done ++ rest ++ old.drop rest.length ++ back⟩ := by
    refine whileLoop_over rest (fun moved _ => Draining.mk
      (taken ++ moved).length (done ++ moved).length
      (done ++ moved ++ old.drop moved.length ++ back)) ?_ ?_ hfuel
    · intro moved cell left hrest
      have hmoved := congrArg List.length hrest
      rw [List.length_append, List.length_cons] at hmoved
      have hload : load half (taken ++ moved).length = .ok cell := by
        rw [hhalf, hrest, ← List.append_assoc]
        exact load_append rfl
      have hstore : store (done ++ moved ++ old.drop moved.length ++ back)
          (done ++ moved).length cell =
            .ok (done ++ (moved ++ [cell]) ++
              old.drop (moved ++ [cell]).length ++ back) := by
        rw [List.drop_eq_getElem_cons (by omega), List.append_assoc,
          List.cons_append, store_append rfl, List.length_append]
        simp
      constructor
      · rw [decide_eq_true]
        dsimp only
        rw [List.length_append]
        omega
      · simp only [hload, hstore, bind, Except.bind]
        simp only [← List.append_assoc, List.length_append,
          List.length_singleton, Int.natCast_add]
        rfl
    · rw [decide_eq_false]
      dsimp only
      rw [List.length_append]
      omega
  rw [List.append_nil, List.append_nil, ← hindex, ← hk, ← harr, ← hhalf,
    ← hold, List.drop_length, List.append_nil] at hloop
  exact hloop

/-- `Merge` on two halves with anything around them. -/
theorem merge_spec {xs ys : List Int32} {left mid right : Int}
    (harr : arr = front ++ xs ++ ys ++ back) (hleft : left = front.length)
    (hmid : mid + 1 = left + xs.length) (hright : right = mid + ys.length) :
    merge arr left mid right = .ok (front ++ xs.merge ys ++ back) := by
  have hn1 : mid - left + 1 = xs.length := by omega
  have hn2 : right - mid = ys.length := by omega
  have hL : copyRange arr left (mid - left + 1) = .ok xs :=
    copyRange_spec (by rw [harr, List.append_assoc]) hleft hn1
  have hR : copyRange arr (mid + 1) (right - mid) = .ok ys := by
    apply copyRange_spec harr _ hn2
    rw [hmid, List.length_append]
    omega
  have hfuel : xs.length + ys.length <
      (mid - left + 1).toNat + (right - mid).toNat + 1 := by omega
  obtain ⟨merged, hmerged, restL, restR, done, old, hstate, hempty⟩ :=
    mergeLoop_spec hn1 hn2 hleft
      (harr.trans (by rw [List.append_assoc front xs ys]))
      List.length_append hfuel
  obtain ⟨takenL, hxs, hi⟩ := hstate.left
  obtain ⟨takenR, hys, hj⟩ := hstate.right
  have hlengthL := congrArg List.length hxs
  have hlengthR := congrArg List.length hys
  rw [List.length_append] at hlengthL hlengthR
  obtain ⟨oldL, oldR, rfl, holdL⟩ :
      ∃ oldL oldR, old = oldL ++ oldR ∧ oldL.length = restL.length :=
    ⟨_, _, (List.take_append_drop restL.length old).symm, by
      rw [List.length_take, hstate.room]
      omega⟩
  have holdR : oldR.length = restR.length := by
    have hroom := hstate.room
    rw [List.length_append] at hroom
    omega
  have hfirst := drainLoop_spec hxs hn1 hi hstate.position
    (hstate.arr.trans (by simp only [List.append_assoc]) :
      merged.arr = front ++ done ++ oldL ++ (oldR ++ back))
    holdL
    (show restL.length < (mid - left + 1).toNat + (right - mid).toNat + 1 by
      omega)
  have hsecond := drainLoop_spec hys hn2 hj rfl
    (by simp only [List.append_assoc] :
      front ++ done ++ restL ++ (oldR ++ back) =
        front ++ done ++ restL ++ oldR ++ back)
    holdR
    (show restR.length < (mid - left + 1).toNat + (right - mid).toNat + 1 by
      omega)
  have hresult : done ++ restL ++ restR = xs.merge ys := by
    rw [← hstate.merged]
    rcases hempty with rfl | rfl
    · rw [List.nil_merge, List.append_nil]
    · rw [List.merge_right, List.append_nil]
  simp only [merge, hL, hR, hmerged, hfirst, hsecond, bind, Except.bind]
  rw [← hresult]
  simp only [List.append_assoc]
  rfl

section Sorted

theorem int32_le_trans {first second third : Int32} (hfirst : first ≤ second)
    (hsecond : second ≤ third) : first ≤ third := by
  rw [Int32.le_iff_toInt_le] at hfirst hsecond ⊢
  exact hfirst.trans hsecond

theorem int32_le_total (first second : Int32) :
    first ≤ second ∨ second ≤ first := by
  rw [Int32.le_iff_toInt_le, Int32.le_iff_toInt_le]
  exact Int.le_total _ _

theorem pairwise_merge {xs ys : List Int32} (hxs : xs.Pairwise (· ≤ ·))
    (hys : ys.Pairwise (· ≤ ·)) : (xs.merge ys).Pairwise (· ≤ ·) := by
  have hmerge := @List.pairwise_merge Int32
    (fun first second => decide (first ≤ second))
    (by simpa using fun _ _ _ => int32_le_trans)
    (by simpa using int32_le_total) xs ys (by simpa using hxs)
    (by simpa using hys)
  simpa using hmerge

/-- `MergeSort` sorts the part between its bounds and leaves the rest. -/
theorem mergeSort_spec {fuel : Nat} {left right : Int}
    (harr : arr = front ++ part ++ back) (hleft : left = front.length)
    (hright : right + 1 = left + part.length) (hfuel : part.length ≤ fuel) :
    ∃ sorted, mergeSort (fuel + 1) arr left right =
        .ok (front ++ sorted ++ back) ∧
      sorted.Pairwise (· ≤ ·) ∧ sorted.Perm part := by
  induction fuel generalizing arr front part back left right with
  | zero =>
      obtain rfl : part = [] := List.length_eq_zero_iff.mp (by omega)
      refine ⟨[], ?_, List.Pairwise.nil, List.Perm.nil⟩
      rw [mergeSort, if_neg (by simp only [List.length_nil] at hright; omega),
        harr]
      rfl
  | succ fuel ih =>
      by_cases hlt : left < right
      · obtain ⟨xs, ys, rfl, hxs⟩ :
            ∃ xs ys, part = xs ++ ys ∧ xs.length = (part.length - 1) / 2 + 1 :=
          ⟨part.take ((part.length - 1) / 2 + 1),
            part.drop ((part.length - 1) / 2 + 1),
            (List.take_append_drop _ part).symm, by
              rw [List.length_take]
              omega⟩
        rw [List.length_append] at hxs hright hfuel
        have hmid : left + (right - left).tdiv 2 + 1 = left + xs.length := by
          rw [Int.tdiv_eq_ediv_of_nonneg (by omega)]
          omega
        obtain ⟨sortedXs, hfirst, hsortedXs, hpermXs⟩ := ih
          (harr.trans (by simp only [List.append_assoc]) :
            arr = front ++ xs ++ (ys ++ back))
          hleft hmid (by omega)
        have hlengthXs := hpermXs.length_eq
        have hsplit : left + (right - left).tdiv 2 + 1 =
            (front ++ sortedXs).length := by
          rw [hmid, List.length_append]
          omega
        have hend : right + 1 =
            left + (right - left).tdiv 2 + 1 + ys.length := by omega
        obtain ⟨sortedYs, hsecond, hsortedYs, hpermYs⟩ := ih
          (List.append_assoc (front ++ sortedXs) ys back).symm hsplit hend
          (by omega)
        have hmerge : merge (front ++ sortedXs ++ sortedYs ++ back) left
            (left + (right - left).tdiv 2) right =
              .ok (front ++ sortedXs.merge sortedYs ++ back) := by
          apply merge_spec rfl hleft
          · omega
          · rw [hpermYs.length_eq]
            omega
        refine ⟨sortedXs.merge sortedYs, ?_, pairwise_merge hsortedXs hsortedYs,
          (List.merge_perm_append _).trans (hpermXs.append hpermYs)⟩
        rw [mergeSort, if_pos hlt]
        simp only [hfirst, hsecond, hmerge, bind, Except.bind]
      · refine ⟨part, ?_, ?_, List.Perm.refl part⟩
        · rw [mergeSort, if_neg hlt, harr]
          rfl
        · rcases part with _ | ⟨only, _ | ⟨next, rest⟩⟩
          · exact List.Pairwise.nil
          · exact List.pairwise_singleton _ only
          · simp only [List.length_cons] at hright
            omega

end Sorted

end Merge

/-- `SortArray` on a prefix of any length. -/
theorem sortArray_spec (values rest : List Int32) :
    ∃ sorted, sortArray (values ++ rest) values.length =
        .ok (sorted ++ rest) ∧
      sorted.Pairwise (· ≤ ·) ∧ sorted.Perm values := by
  have harr : values ++ rest = [] ++ values ++ rest := rfl
  have hright : (values.length : Int) - 1 + 1 = 0 + values.length := by omega
  exact mergeSort_spec harr rfl hright (Nat.le_refl _)

example : sortArray [3, -1, 2, 2, 9, 0] 5 = .ok [-1, 2, 2, 3, 9, 0] := by
  decide +kernel

/-- `SortArray` sorts the first elements and leaves the rest as it is. -/
theorem sortArray_sorts (arr : List Int32) (size : Int) (hlow : 0 ≤ size)
    (hhigh : size ≤ arr.length) :
    ∃ after, sortArray arr size = .ok after ∧
      (after.take size.toNat).Pairwise (· ≤ ·) ∧
      (after.take size.toNat).Perm (arr.take size.toNat) ∧
      after.drop size.toNat = arr.drop size.toNat := by
  obtain ⟨sorted, hsorted, hpairwise, hperm⟩ :=
    sortArray_spec (arr.take size.toNat) (arr.drop size.toNat)
  have hlength : (arr.take size.toNat).length = size.toNat := by
    rw [List.length_take]
    omega
  rw [List.take_append_drop, hlength, Int.toNat_of_nonneg hlow] at hsorted
  have hcut : size.toNat = sorted.length := by
    rw [hperm.length_eq, hlength]
  refine ⟨_, hsorted, ?_, ?_, ?_⟩
  · rw [hcut, List.take_left]
    exact hpairwise
  · rw [hcut, List.take_left, ← hcut]
    exact hperm
  · rw [hcut, List.drop_left, ← hcut]

theorem sortArray_sorts_duplicates :
    ∃ after, sortArray [3, -1, 2, 2, 9, 0] 5 = .ok after ∧
      (after.take 5).Pairwise (· ≤ ·) ∧
      (after.take 5).Perm [3, -1, 2, 2, 9] ∧ after.drop 5 = [0] :=
  sortArray_sorts [3, -1, 2, 2, 9, 0] 5 (by decide) (by decide)

end Statistics

end OsCourse
