/-
The shared segment of Section2/class_examples/shm_example_v2, where the reader does not
wait for the writer: exactly which outputs this permits.  The processes share one
segment, by name, which an earlier run may have left.
-/
import OsCourse.TransitionSystem
import Mathlib.Data.List.Range

namespace OsCourse

namespace UnguardedFloats

open TransitionSystem

/-- `N_ELEM`. -/
def elemCount : Nat := 45

inductive ReaderPlace where
  | shmOpen
  | printFloat (i : Nat)
  | removeSegment
  | returned
deriving Repr, DecidableEq

inductive WriterPlace where
  | shmOpen
  | storeFloat (i : Nat)
  | returned
  | mmapFailed
deriving Repr, DecidableEq

/-- Both processes and the segment; `named` says whether its name is there. -/
structure State (α : Type) where
  reader : ReaderPlace
  writer : WriterPlace
  named : Bool
  floats : Nat → α
  printed : List α

inductive Action where
  | reader
  | writer
deriving Repr, DecidableEq

section Program

-- `value i` is `i * 0.2` as a float; a new segment is zero-filled
variable {α : Type} (zero : α) (value : Nat → α)

namespace State

/-- The segment that an earlier run left, if there is one. -/
def start (left : Option (Nat → α)) : State α :=
  ⟨.shmOpen, .shmOpen, left.isSome, left.getD fun _ => zero, []⟩

/-- The reader makes the segment if there is none, and removes its name at the end. -/
def runReader (state : State α) : Option (State α) :=
  match state.reader with
  | .shmOpen => some { state with
      reader := .printFloat 0
      named := true
      floats := if state.named then state.floats else fun _ => zero }
  | .printFloat i =>
      if i < elemCount then
        some { state with
          reader := .printFloat (i + 1)
          printed := state.printed ++ [state.floats i] }
      else some { state with reader := .removeSegment }
  | .removeSegment =>
      some { state with reader := .returned, named := false }
  | .returned => none

def runWriter (state : State α) : Option (State α) :=
  match state.writer with
  | .shmOpen => some { state with
      writer := if state.named then .storeFloat 0 else .mmapFailed }
  | .storeFloat i =>
      if i < elemCount then
        some { state with
          writer := .storeFloat (i + 1)
          floats := Function.update state.floats i (value i) }
      else some { state with writer := .returned }
  | .returned | .mmapFailed => none

def step (state : State α) : Action → Option (State α)
  | .reader => state.runReader zero
  | .writer => state.runWriter value

end State

def sharedFloats (left : Option (Nat → α)) : System (State α) Action where
  start := State.start zero left
  step := State.step zero value

end Program

section Invariants

variable {α : Type} {zero : α} {value : Nat → α} {left : Option (Nat → α)}
  {state next : State α} {action : Action}

/-- What the segment holds before the writer comes. -/
def before (zero : α) (left : Option (Nat → α)) : Nat → α :=
  left.getD fun _ => zero

/-- The floats that a reader may print, if those were written for which `written`
holds. -/
def mixed (zero : α) (value : Nat → α) (left : Option (Nat → α))
    (written : Nat → Bool) (i : Nat) : α :=
  if written i then value i else before zero left i

/-- The number of floats that are stored. -/
def WriterPlace.count : WriterPlace → Nat
  | .shmOpen | .mmapFailed => 0
  | .storeFloat i => i
  | .returned => elemCount

/-- The number of floats that are printed. -/
def ReaderPlace.count : ReaderPlace → Nat
  | .shmOpen => 0
  | .printFloat i => i
  | .removeSegment | .returned => elemCount

/-- The segment holds what the writer has stored so far, and each float is printed as it
was then. -/
structure Sound (zero : α) (value : Nat → α) (left : Option (Nat → α))
    (state : State α) : Prop where
  floats : state.floats =
    mixed zero value left fun i => decide (i < state.writer.count)
  opens : state.reader = .shmOpen → state.named = left.isSome ∧
    (left = none → state.writer = .shmOpen ∨ state.writer = .mmapFailed)
  reads : ∀ i, state.reader = .printFloat i → i ≤ elemCount
  stores : ∀ i, state.writer = .storeFloat i → i ≤ elemCount
  printed : ∃ written, state.printed =
    (List.range state.reader.count).map (mixed zero value left written)

theorem Sound.start : Sound zero value left (State.start zero left) :=
  ⟨rfl, fun _ => ⟨rfl, fun _ => .inl rfl⟩, by simp [State.start],
    by simp [State.start], fun _ => false, rfl⟩

/-- One more float, printed as the writer has left it. -/
theorem map_mixed_succ (written : Nat → Bool) (i : Nat) (stored : Bool) :
    (List.range i).map (mixed zero value left written) ++
        [if stored then value i else before zero left i] =
      (List.range (i + 1)).map
        (mixed zero value left (Function.update written i stored)) := by
  rw [List.range_succ, List.map_append]
  congr 1
  · refine List.map_congr_left fun j hj => ?_
    rw [mixed, mixed,
      Function.update_of_ne (Nat.ne_of_lt (List.mem_range.mp hj))]
  · rw [List.map_singleton, mixed, Function.update_self]

theorem Sound.runReader (hsound : Sound zero value left state)
    (hstep : state.runReader zero = some next) : Sound zero value left next := by
  obtain ⟨hfloats, hopens, hreads, hstores, written, hprinted⟩ := hsound
  cases hplace : state.reader with
  | returned => simp [State.runReader, hplace] at hstep
  | shmOpen =>
      simp only [State.runReader, hplace, Option.some.injEq] at hstep
      cases hstep
      rw [hplace] at hprinted
      refine ⟨?_, by simp, by simp [elemCount], hstores, written, hprinted⟩
      obtain ⟨hnamed, hwriter⟩ := hopens hplace
      by_cases hname : state.named = true
      · rw [if_pos hname]
        exact hfloats
      · have hleft : left = none := by
          rwa [hnamed, Option.isSome_iff_ne_none, not_not] at hname
        rw [if_neg hname]
        funext i
        rcases hwriter hleft with hnone | hnone <;>
          simp [mixed, before, hleft, hnone, WriterPlace.count]
  | printFloat i =>
      rw [hplace] at hprinted
      simp only [State.runReader, hplace] at hstep
      split at hstep
      · rename_i hi
        cases hstep
        refine ⟨hfloats, by simp, ?_, hstores,
          Function.update written i (decide (i < state.writer.count)), ?_⟩
        · rintro j hj
          cases hj
          exact hi
        · rw [hprinted, hfloats]
          exact map_mixed_succ written i _
      · rename_i hi
        cases hstep
        have hlast : i = elemCount := le_antisymm (hreads i hplace) (not_lt.mp hi)
        rw [hlast] at hprinted
        exact ⟨hfloats, by simp, by simp, hstores, written, hprinted⟩
  | removeSegment =>
      simp only [State.runReader, hplace, Option.some.injEq] at hstep
      cases hstep
      rw [hplace] at hprinted
      exact ⟨hfloats, by simp, by simp, hstores, written, hprinted⟩

theorem update_mixed (i : Nat) :
    Function.update (mixed zero value left fun j => decide (j < i)) i (value i) =
      mixed zero value left fun j => decide (j < i + 1) := by
  funext j
  by_cases hj : j = i
  · rw [hj, Function.update_self]
    simp [mixed]
  · have hlt : j < i + 1 ↔ j < i := by omega
    rw [Function.update_of_ne hj, mixed, mixed, decide_eq_decide.mpr hlt]

theorem Sound.runWriter (hsound : Sound zero value left state)
    (hstep : state.runWriter value = some next) : Sound zero value left next := by
  obtain ⟨hfloats, hopens, hreads, hstores, hprinted⟩ := hsound
  cases hplace : state.writer with
  | returned | mmapFailed => simp [State.runWriter, hplace] at hstep
  | shmOpen =>
      simp only [State.runWriter, hplace, Option.some.injEq] at hstep
      cases hstep
      rw [hplace] at hfloats
      refine ⟨?_, ?_, hreads, ?_, hprinted⟩
      · by_cases hname : state.named = true <;> simp only [hname] <;> exact hfloats
      · intro hreader
        obtain ⟨hnamed, hwriter⟩ := hopens hreader
        refine ⟨hnamed, fun hleft => .inr ?_⟩
        rw [hleft] at hnamed
        simp [hnamed]
      · intro i hi
        by_cases hname : state.named = true <;> simp only [hname] at hi <;> cases hi
        exact Nat.zero_le _
  | storeFloat i =>
      simp only [State.runWriter, hplace] at hstep
      rw [hplace] at hfloats
      have hopened : state.reader = .shmOpen → left ≠ none := by
        intro hreader hleft
        rcases (hopens hreader).2 hleft with hnone | hnone <;>
          rw [hplace] at hnone <;> cases hnone
      split at hstep
      · rename_i hi
        cases hstep
        refine ⟨?_, ?_, hreads, ?_, hprinted⟩
        · rw [hfloats]
          exact update_mixed i
        · exact fun hreader => ⟨(hopens hreader).1,
            fun hleft => absurd hleft (hopened hreader)⟩
        · rintro j hj
          cases hj
          exact hi
      · rename_i hi
        cases hstep
        have hlast : i = elemCount := le_antisymm (hstores i hplace) (not_lt.mp hi)
        rw [hlast] at hfloats
        refine ⟨hfloats, ?_, hreads, by simp, hprinted⟩
        exact fun hreader => ⟨(hopens hreader).1,
          fun hleft => absurd hleft (hopened hreader)⟩

theorem invariant (zero : α) (value : Nat → α) (left : Option (Nat → α)) :
    Invariant (sharedFloats zero value left) (Sound zero value left) where
  start := Sound.start
  step := fun {_ _ action} hsound hstep => by
    cases action with
    | reader => exact hsound.runReader hstep
    | writer => exact hsound.runWriter hstep

end Invariants

section Outputs

variable {α : Type} {zero : α} {value : Nat → α} {left : Option (Nat → α)}
  {state next : State α}

theorem reachable_runReader
    (hreach : (sharedFloats zero value left).Reachable state)
    (hstep : state.runReader zero = some next) :
    (sharedFloats zero value left).Reachable next :=
  hreach.step (show (sharedFloats zero value left).step state .reader =
    some next from hstep)

theorem reachable_runWriter
    (hreach : (sharedFloats zero value left).Reachable state)
    (hstep : state.runWriter value = some next) :
    (sharedFloats zero value left).Reachable next :=
  hreach.step (show (sharedFloats zero value left).step state .writer =
    some next from hstep)

/-- A writer that is left alone comes as far as one likes. -/
theorem exists_stored
    (hreach : (sharedFloats zero value left).Reachable state) {i : Nat}
    (hplace : state.writer = .storeFloat i) {count : Nat} (hle : i ≤ count)
    (hcount : count ≤ elemCount) :
    ∃ next, (sharedFloats zero value left).Reachable next ∧
      next.writer = .storeFloat count ∧ next.reader = state.reader ∧
      next.printed = state.printed := by
  induction count, hle using Nat.le_induction with
  | base => exact ⟨state, hreach, hplace, rfl, rfl⟩
  | succ count hle ih =>
      obtain ⟨next, hnext, hwriter, hreader, hprinted⟩ :=
        ih (Nat.le_of_succ_le hcount)
      refine ⟨{ next with
        writer := .storeFloat (count + 1)
        floats := Function.update next.floats count (value count) },
        reachable_runWriter hnext ?_, rfl, hreader, hprinted⟩
      simp only [State.runWriter, hwriter, if_pos (Nat.lt_of_succ_le hcount)]

/-- The reader prints any mixture, if the writer stores a float just before it is to be
printed. -/
theorem exists_printed (written : Nat → Bool) {i : Nat} (hi : i ≤ elemCount) :
    ∃ state, (sharedFloats zero value left).Reachable state ∧
      state.reader = .printFloat i ∧
      (∃ count ≤ i, state.writer = .storeFloat count) ∧
      state.printed = (List.range i).map (mixed zero value left written) := by
  induction i with
  | zero =>
      exact ⟨_, ⟨[.reader, .writer], rfl⟩, rfl, ⟨0, Nat.le_refl 0, rfl⟩, rfl⟩
  | succ i ih =>
      obtain ⟨state, hreach, hreader, ⟨count, hcount, hwriter⟩, hprinted⟩ :=
        ih (Nat.le_of_succ_le hi)
      -- the writer stores the float or not, and then the reader prints it
      obtain ⟨next, hnext, ⟨stored, hstored, hstores⟩, hreads, hlines, hmixed⟩ :
          ∃ next, (sharedFloats zero value left).Reachable next ∧
            (∃ stored ≤ i + 1, next.writer = .storeFloat stored) ∧
            next.reader = .printFloat i ∧ next.printed = state.printed ∧
            next.floats i = mixed zero value left written i := by
        cases hi' : written i with
        | true =>
            obtain ⟨next, hnext, hstores, hreads, hlines⟩ :=
              exists_stored hreach hwriter (Nat.le_succ_of_le hcount) hi
            have hsound := (invariant zero value left).reachable hnext
            refine ⟨next, hnext, ⟨i + 1, Nat.le_refl _, hstores⟩,
              hreads.trans hreader, hlines, ?_⟩
            rw [hsound.floats, hstores]
            simp [mixed, hi', WriterPlace.count]
        | false =>
            have hsound := (invariant zero value left).reachable hreach
            refine ⟨state, hreach, ⟨count, Nat.le_succ_of_le hcount, hwriter⟩,
              hreader, rfl, ?_⟩
            rw [hsound.floats, hwriter]
            simp [mixed, hi', WriterPlace.count, not_lt.mpr hcount]
      refine ⟨{ next with
        reader := .printFloat (i + 1)
        printed := next.printed ++ [next.floats i] },
        reachable_runReader hnext ?_, rfl, ⟨stored, hstored, hstores⟩, ?_⟩
      · simp only [State.runReader, hreads, if_pos (Nat.lt_of_succ_le hi)]
      · change next.printed ++ [next.floats i] = _
        rw [hlines, hprinted, hmixed, List.range_succ, List.map_append,
          List.map_singleton]

/-- What a reader can have printed when it ends: any mixture of the floats of the writer
and those that were there before it, and nothing else. -/
theorem printed_iff (zero : α) (value : Nat → α) (left : Option (Nat → α))
    (output : List α) :
    (∃ state, (sharedFloats zero value left).Reachable state ∧
      state.reader = .returned ∧ state.printed = output) ↔
    ∃ written : Nat → Bool, output = (List.range elemCount).map fun i =>
      if written i then value i else left.getD (fun _ => zero) i := by
  constructor
  · rintro ⟨state, hreach, hreturned, rfl⟩
    obtain ⟨written, hprinted⟩ :=
      ((invariant zero value left).reachable hreach).printed
    rw [hreturned] at hprinted
    exact ⟨written, hprinted⟩
  · rintro ⟨written, rfl⟩
    obtain ⟨state, hreach, hreader, -, hprinted⟩ :=
      @exists_printed α zero value left written _ (Nat.le_refl elemCount)
    have hlast : (sharedFloats zero value left).Reachable
        { state with reader := .removeSegment } := by
      apply reachable_runReader hreach
      simp only [State.runReader, hreader, if_neg (Nat.lt_irrefl _)]
    exact ⟨_, reachable_runReader hlast rfl, rfl, hprinted⟩

end Outputs

end UnguardedFloats

end OsCourse
