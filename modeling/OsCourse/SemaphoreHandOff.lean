/-
The shared segment of Section2/class_examples/shm_example_semaphores.  A reader
makes the segment and waits on a semaphore for a writer to fill it.  Both are
found by name, and every reader removes the names it finds: any number of readers
and writers run, and objects of earlier runs may be left.
-/
import OsCourse.TransitionSystem
import OsCourse.Processes

namespace OsCourse

namespace HandOff

open TransitionSystem ThreadPool NamedObjects

/-- The floats that a writer stores and a reader prints. -/
def floatCount : Nat := 20

/-- A segment has no pages until it is truncated to its length. -/
structure Segment (α : Type) where
  truncated : Bool
  floats : Nat → α

inductive ReaderPlace where
  | shmUnlink
  | shmOpen
  | ftruncate
  | semUnlink
  | semOpen
  | semWait
  | printFloat (i : Nat)
  | removeSegment
  | returned
  | crashed
deriving Repr, DecidableEq

inductive WriterPlace where
  | shmOpen
  | semOpen
  | storeFloat (i : Nat)
  | semPost
  | returned
  | mmapFailed
  | crashed
deriving Repr, DecidableEq

structure Reader (α : Type) where
  place : ReaderPlace
  segment : Nat
  semaphore : Nat
  printed : List α
deriving Repr, DecidableEq

/-- `semaphore` is none after a failed `sem_open`. -/
structure Writer where
  place : WriterPlace
  segment : Nat
  semaphore : Option Nat
deriving Repr, DecidableEq

/-- The processes and the kernel's objects; a semaphore is its count. -/
structure State (R W α : Type) where
  readers : R → Reader α
  writers : W → Writer
  segments : Registry (Segment α)
  semaphores : Registry Nat

inductive Action (R W : Type) where
  | reader (reader : R)
  | writer (writer : W)
deriving Repr, DecidableEq

section Program

-- `value i` is `i * 0.66` as a float; a new segment is zero-filled
variable {R W α : Type} [DecidableEq R] [DecidableEq W] (zero : α)
  (value : Nat → α)

def Reader.start : Reader α := ⟨.shmUnlink, 0, 0, []⟩

def Writer.start : Writer := ⟨.shmOpen, 0, none⟩

namespace State

def setReader (state : State R W α) (index : R) (reader : Reader α) :
    State R W α :=
  { state with readers := Function.update state.readers index reader }

def setWriter (state : State R W α) (index : W) (writer : Writer) :
    State R W α :=
  { state with writers := Function.update state.writers index writer }

/-- The next statement of the reader. -/
def runReader (state : State R W α) (index : R) : Option (State R W α) :=
  let reader := state.readers index
  match reader.place with
  | .shmUnlink =>
      some ({ state with segments := state.segments.unlink }.setReader index
        { reader with place := .shmOpen })
  | .shmOpen =>
      let opened := state.segments.openOrMake ⟨false, fun _ => zero⟩
      some ({ state with segments := opened.1 }.setReader index
        { reader with place := .ftruncate, segment := opened.2 })
  | .ftruncate =>
      let segment := state.segments.object reader.segment
      some ({ state with
        segments := state.segments.set reader.segment
          { segment with truncated := true } }.setReader index
            { reader with place := .semUnlink })
  | .semUnlink =>
      some ({ state with semaphores := state.semaphores.unlink }.setReader
        index { reader with place := .semOpen })
  | .semOpen =>
      let opened := state.semaphores.openOrMake 0
      some ({ state with semaphores := opened.1 }.setReader index
        { reader with place := .semWait, semaphore := opened.2 })
  | .semWait =>
      let count := state.semaphores.object reader.semaphore
      if 0 < count then
        some ({ state with
          semaphores := state.semaphores.set reader.semaphore (count - 1)
            }.setReader index { reader with place := .printFloat 0 })
      else none
  | .printFloat i =>
      let segment := state.segments.object reader.segment
      some (state.setReader index
        (if i < floatCount then
          if segment.truncated then
            { reader with
              place := .printFloat (i + 1),
              printed := reader.printed ++ [segment.floats i] }
          else { reader with place := .crashed }
        else { reader with place := .removeSegment }))
  | .removeSegment =>
      some ({ state with segments := state.segments.unlink }.setReader index
        { reader with place := .returned })
  | .returned | .crashed => none

/-- The next statement of the writer.  A segment without pages ends it with
SIGBUS, and so does a semaphore that could not be opened. -/
def runWriter (state : State R W α) (index : W) : Option (State R W α) :=
  let writer := state.writers index
  match writer.place with
  | .shmOpen =>
      some (state.setWriter index
        (match state.segments.name with
        | some id => { writer with place := .semOpen, segment := id }
        | none => { writer with place := .mmapFailed }))
  | .semOpen =>
      some (state.setWriter index
        { writer with
          place := .storeFloat 0, semaphore := state.semaphores.name })
  | .storeFloat i =>
      let segment := state.segments.object writer.segment
      if i < floatCount then
        if segment.truncated then
          some ({ state with
            segments := state.segments.set writer.segment
              { segment with
                floats := Function.update segment.floats i (value i) }
              }.setWriter index { writer with place := .storeFloat (i + 1) })
        else some (state.setWriter index { writer with place := .crashed })
      else some (state.setWriter index { writer with place := .semPost })
  | .semPost =>
      match writer.semaphore with
      | some id =>
          some ({ state with
            semaphores := state.semaphores.set id
              (state.semaphores.object id + 1) }.setWriter index
                { writer with place := .returned })
      | none => some (state.setWriter index { writer with place := .crashed })
  | .returned | .mmapFailed | .crashed => none

def step (state : State R W α) : Action R W → Option (State R W α)
  | .reader index => state.runReader zero index
  | .writer index => state.runWriter value index

end State

/-- The programs started with whatever objects earlier runs have left. -/
def handOff (segments : Registry (Segment α)) (semaphores : Registry Nat) :
    System (State R W α) (Action R W) where
  start := ⟨fun _ => Reader.start, fun _ => Writer.start, segments, semaphores⟩
  step := State.step zero value

end Program

/-- The reader has removed the semaphore's name. -/
def ReaderPlace.cleared : ReaderPlace → Bool
  | .shmUnlink | .shmOpen | .ftruncate | .semUnlink => false
  | _ => true

def ReaderPlace.mapped : ReaderPlace → Bool
  | .shmUnlink | .shmOpen => false
  | _ => true

def ReaderPlace.sized : ReaderPlace → Bool
  | .shmUnlink | .shmOpen | .ftruncate => false
  | _ => true

def ReaderPlace.opened : ReaderPlace → Bool
  | .shmUnlink | .shmOpen | .ftruncate | .semUnlink | .semOpen => false
  | _ => true

/-- The reader has come back from `sem_wait`. -/
def ReaderPlace.woken : ReaderPlace → Bool
  | .printFloat _ | .removeSegment | .returned | .crashed => true
  | _ => false

/-- The floats that the reader has printed. -/
def ReaderPlace.count : ReaderPlace → Nat
  | .printFloat i => i
  | .removeSegment | .returned => floatCount
  | _ => 0

def WriterPlace.mapped : WriterPlace → Bool
  | .shmOpen | .mmapFailed => false
  | _ => true

/-- The floats that the writer has stored. -/
def WriterPlace.count : WriterPlace → Nat
  | .storeFloat i => i
  | .semPost | .returned => floatCount
  | _ => 0

section Safety

variable {R W α : Type} {zero : α} {value : Nat → α} {old : Nat}
  {state next : State R W α}

/-- The writer has posted on the semaphore. -/
def Writer.Posted (writer : Writer) (id : Nat) : Prop :=
  writer.place = .returned ∧ writer.semaphore = some id

instance (writer : Writer) (id : Nat) : Decidable (writer.Posted id) :=
  inferInstanceAs (Decidable (_ ∧ _))

/-- What holds of a reader when the semaphores before `old` are those of earlier
runs. -/
structure ReaderSound (value : Nat → α) (old : Nat) (state : State R W α)
    (reader : Reader α) : Prop where
  cleared : reader.place.cleared = true →
    ∀ id, state.semaphores.name = some id → old ≤ id
  opened : reader.place.opened = true →
    old ≤ reader.semaphore ∧ reader.semaphore < state.semaphores.made
  mapped : reader.place.mapped = true →
    reader.segment < state.segments.made
  sized : reader.place.sized = true →
    (state.segments.object reader.segment).truncated = true
  running : reader.place ≠ .crashed
  count_le : reader.place.count ≤ floatCount
  silent : reader.place.woken = false → reader.printed = []
  printed : reader.place.woken = true →
    (∀ index, (state.writers index).Posted reader.semaphore →
      (state.writers index).segment = reader.segment) →
    reader.printed = (List.range reader.place.count).map value

structure WriterSound (value : Nat → α) (state : State R W α)
    (writer : Writer) : Prop where
  opened : ∀ id, writer.semaphore = some id → id < state.semaphores.made
  mapped : writer.place.mapped = true →
    writer.segment < state.segments.made
  stored : ∀ i < writer.place.count,
    (state.segments.object writer.segment).floats i = value i

/-- What a step leaves of what the processes rely on. -/
structure Continues (value : Nat → α) (state next : State R W α) :
    Prop where
  segments : Registry.Extends state.segments next.segments
  semaphores : Registry.Extends state.semaphores next.semaphores
  truncated : ∀ id < state.segments.made,
    (state.segments.object id).truncated = true →
      (next.segments.object id).truncated = true
  stored : ∀ id < state.segments.made, ∀ i,
    (state.segments.object id).floats i = value i →
      (next.segments.object id).floats i = value i
  posted : ∀ index id, (state.writers index).Posted id →
    next.writers index = state.writers index

theorem ReaderSound.continues {reader : Reader α}
    (hsound : ReaderSound value old state reader)
    (hnext : Continues value state next)
    (hold : old ≤ state.semaphores.made) :
    ReaderSound value old next reader where
  cleared := by
    intro hplace id hname
    rcases hnext.semaphores.name_new id hname with hbefore | hle
    · exact hsound.cleared hplace id hbefore
    · exact hold.trans hle
  opened := by
    intro hplace
    have hopened := hsound.opened hplace
    exact ⟨hopened.1, hopened.2.trans_le hnext.semaphores.made_le⟩
  mapped := fun hplace =>
    (hsound.mapped hplace).trans_le hnext.segments.made_le
  sized := by
    intro hplace
    have hmapped : reader.place.mapped = true := by
      cases hreader : reader.place <;> simp_all [ReaderPlace.sized,
        ReaderPlace.mapped]
    exact hnext.truncated _ (hsound.mapped hmapped) (hsound.sized hplace)
  running := hsound.running
  count_le := hsound.count_le
  silent := hsound.silent
  printed := by
    intro hwoken hposted
    apply hsound.printed hwoken
    intro index hindex
    have hsame := hnext.posted index _ hindex
    have := hposted index (by rw [hsame]; exact hindex)
    rwa [hsame] at this

theorem WriterSound.continues {writer : Writer}
    (hsound : WriterSound value state writer)
    (hnext : Continues value state next) :
    WriterSound value next writer where
  opened := fun id hid =>
    (hsound.opened id hid).trans_le hnext.semaphores.made_le
  mapped := fun hplace =>
    (hsound.mapped hplace).trans_le hnext.segments.made_le
  stored := by
    intro i hi
    have hmapped : writer.place.mapped = true := by
      cases hwriter : writer.place <;> simp_all [WriterPlace.count,
        WriterPlace.mapped]
    exact hnext.stored _ (hsound.mapped hmapped) i (hsound.stored i hi)

section Steps

variable {readerAt : R} {writerAt : W}

theorem continues_runReader [DecidableEq R]
    (hstep : state.runReader zero readerAt = some next) :
    Continues value state next := by
  unfold State.runReader at hstep
  cases hplace : (state.readers readerAt).place with
  | returned | crashed => simp [hplace] at hstep
  | shmUnlink | removeSegment =>
      simp only [hplace, Option.some.injEq] at hstep
      subst next
      exact ⟨Registry.extends_unlink _, Registry.Extends.refl _,
        fun _ _ htrue => htrue, fun _ _ _ hvalue => hvalue, fun _ _ _ => rfl⟩
  | semUnlink =>
      simp only [hplace, Option.some.injEq] at hstep
      subst next
      exact ⟨Registry.Extends.refl _, Registry.extends_unlink _,
        fun _ _ htrue => htrue, fun _ _ _ hvalue => hvalue, fun _ _ _ => rfl⟩
  | shmOpen =>
      simp only [hplace, Option.some.injEq] at hstep
      subst next
      refine ⟨Registry.extends_openOrMake _ _, Registry.Extends.refl _, ?_, ?_,
        fun _ _ _ => rfl⟩
      · intro id hid htrue
        exact (congrArg Segment.truncated
          (Registry.openOrMake_object hid)).trans htrue
      · intro id hid i hvalue
        exact (congrArg (fun segment => segment.floats i)
          (Registry.openOrMake_object hid)).trans hvalue
  | ftruncate =>
      simp only [hplace, Option.some.injEq] at hstep
      subst next
      refine ⟨Registry.extends_set _ _ _, Registry.Extends.refl _, ?_, ?_,
        fun _ _ _ => rfl⟩
      · intro id hid htrue
        by_cases heq : id = (state.readers readerAt).segment
        · simp [State.setReader, heq]
        · simpa [State.setReader, heq] using htrue
      · intro id hid i hvalue
        by_cases heq : id = (state.readers readerAt).segment
        · simpa [State.setReader, heq] using heq ▸ hvalue
        · simpa [State.setReader, heq] using hvalue
  | semOpen =>
      simp only [hplace, Option.some.injEq] at hstep
      subst next
      exact ⟨Registry.Extends.refl _, Registry.extends_openOrMake _ _,
        fun _ _ htrue => htrue, fun _ _ _ hvalue => hvalue, fun _ _ _ => rfl⟩
  | semWait =>
      simp only [hplace, Option.ite_none_right_eq_some,
        Option.some.injEq] at hstep
      obtain ⟨-, rfl⟩ := hstep
      exact ⟨Registry.Extends.refl _, Registry.extends_set _ _ _,
        fun _ _ htrue => htrue, fun _ _ _ hvalue => hvalue, fun _ _ _ => rfl⟩
  | printFloat i =>
      simp only [hplace, Option.some.injEq] at hstep
      subst next
      exact ⟨Registry.Extends.refl _, Registry.Extends.refl _,
        fun _ _ htrue => htrue, fun _ _ _ hvalue => hvalue, fun _ _ _ => rfl⟩

theorem posted_setWriter [DecidableEq W] {writer : Writer}
    (hplace : (state.writers writerAt).place ≠ .returned) (index : W) (id : Nat)
    (hposted : (state.writers index).Posted id) :
    (state.setWriter writerAt writer).writers index =
      state.writers index := by
  apply Function.update_of_ne
  rintro rfl
  exact hplace hposted.1

theorem continues_runWriter [DecidableEq W]
    (hstep : state.runWriter value writerAt = some next) :
    Continues value state next := by
  unfold State.runWriter at hstep
  cases hplace : (state.writers writerAt).place with
  | returned | mmapFailed | crashed => simp [hplace] at hstep
  | shmOpen | semOpen =>
      simp only [hplace, Option.some.injEq] at hstep
      subst next
      exact ⟨Registry.Extends.refl _, Registry.Extends.refl _,
        fun _ _ htrue => htrue, fun _ _ _ hvalue => hvalue,
        posted_setWriter (by simp [hplace])⟩
  | storeFloat i =>
      simp only [hplace] at hstep
      split at hstep
      · split at hstep
        · rw [Option.some.injEq] at hstep
          subst next
          refine ⟨Registry.extends_set _ _ _, Registry.Extends.refl _, ?_, ?_,
            posted_setWriter (by simp [hplace])⟩
          · intro id _ htrue
            by_cases heq : id = (state.writers writerAt).segment
            · simpa [State.setWriter, heq] using heq ▸ htrue
            · simpa [State.setWriter, heq] using htrue
          · intro id _ j hvalue
            by_cases heq : id = (state.writers writerAt).segment
            · by_cases hj : j = i
              · simp [State.setWriter, heq, hj]
              · simpa [State.setWriter, heq, hj] using heq ▸ hvalue
            · simpa [State.setWriter, heq] using hvalue
        · rw [Option.some.injEq] at hstep
          subst next
          exact ⟨Registry.Extends.refl _, Registry.Extends.refl _,
            fun _ _ htrue => htrue, fun _ _ _ hvalue => hvalue,
            posted_setWriter (by simp [hplace])⟩
      · rw [Option.some.injEq] at hstep
        subst next
        exact ⟨Registry.Extends.refl _, Registry.Extends.refl _,
          fun _ _ htrue => htrue, fun _ _ _ hvalue => hvalue,
          posted_setWriter (by simp [hplace])⟩
  | semPost =>
      simp only [hplace] at hstep
      split at hstep
      · rw [Option.some.injEq] at hstep
        subst next
        exact ⟨Registry.Extends.refl _, Registry.extends_set _ _ _,
          fun _ _ htrue => htrue, fun _ _ _ hvalue => hvalue,
          posted_setWriter (by simp [hplace])⟩
      · rw [Option.some.injEq] at hstep
        subst next
        exact ⟨Registry.Extends.refl _, Registry.Extends.refl _,
          fun _ _ htrue => htrue, fun _ _ _ hvalue => hvalue,
          posted_setWriter (by simp [hplace])⟩

/-- The reader has taken a post on the semaphore. -/
def Reader.tookFrom (id : Nat) (reader : Reader α) : Bool :=
  reader.place.woken && (reader.semaphore == id)

def Writer.postedOn (id : Nat) (writer : Writer) : Bool :=
  decide (writer.Posted id)

/-- The posts that have not been taken yet. -/
def Balanced [Fintype R] [Fintype W] (old : Nat) (state : State R W α) :
    Prop :=
  ∀ id, old ≤ id → id < state.semaphores.made →
    state.semaphores.object id +
        countAt state.readers (Reader.tookFrom id) =
      countAt state.writers (Writer.postedOn id)

/-- A step of a reader moves that reader only. -/
theorem runReader_eq [DecidableEq R]
    (hstep : state.runReader zero readerAt = some next) :
    next.writers = state.writers ∧ ∃ reader,
      next.readers = Function.update state.readers readerAt reader := by
  unfold State.runReader at hstep
  cases hplace : (state.readers readerAt).place <;>
    simp only [hplace, Option.ite_none_right_eq_some, Option.some.injEq,
      reduceCtorEq] at hstep
  case semWait =>
    obtain ⟨-, rfl⟩ := hstep
    exact ⟨rfl, _, rfl⟩
  all_goals
    subst next
    exact ⟨rfl, _, rfl⟩

theorem runWriter_eq [DecidableEq W]
    (hstep : state.runWriter value writerAt = some next) :
    next.readers = state.readers ∧ ∃ writer,
      next.writers = Function.update state.writers writerAt writer := by
  unfold State.runWriter at hstep
  cases hplace : (state.writers writerAt).place with
  | returned | mmapFailed | crashed => simp [hplace] at hstep
  | shmOpen | semOpen =>
      simp only [hplace, Option.some.injEq] at hstep
      subst next
      exact ⟨rfl, _, rfl⟩
  | storeFloat i =>
      simp only [hplace] at hstep
      split at hstep
      · split at hstep <;> rw [Option.some.injEq] at hstep <;> subst next <;>
          exact ⟨rfl, _, rfl⟩
      · rw [Option.some.injEq] at hstep
        subst next
        exact ⟨rfl, _, rfl⟩
  | semPost =>
      simp only [hplace] at hstep
      split at hstep <;> rw [Option.some.injEq] at hstep <;> subst next <;>
        exact ⟨rfl, _, rfl⟩

/-- What the reader prints was stored by a writer that posted. -/
def Filled (value : Nat → α) (state : State R W α) (reader : Reader α) :
    Prop :=
  reader.place.woken = true →
    (∀ index, (state.writers index).Posted reader.semaphore →
      (state.writers index).segment = reader.segment) →
    ∀ i < floatCount,
      (state.segments.object reader.segment).floats i = value i

theorem ReaderSound.runReader [DecidableEq R]
    (hsound : ReaderSound value old state (state.readers readerAt))
    (hfilled : Filled value state (state.readers readerAt))
    (hold : old ≤ state.semaphores.made)
    (hstep : state.runReader zero readerAt = some next) :
    ReaderSound value old next (next.readers readerAt) := by
  have hnext := hsound.continues (continues_runReader hstep) hold
  obtain ⟨hcleared, hopened, hmapped, hsized, hrunning, hcount, hsilent,
    hprinted⟩ := hsound
  unfold State.runReader at hstep
  cases hplace : (state.readers readerAt).place with
  | returned | crashed => simp [hplace] at hstep
  | shmUnlink | ftruncate | semUnlink | removeSegment =>
      simp only [hplace, Option.some.injEq] at hstep
      subst next
      simp only [State.setReader, Function.update_self]
      constructor <;> simp_all [ReaderPlace.cleared, ReaderPlace.opened,
        ReaderPlace.mapped, ReaderPlace.sized, ReaderPlace.woken,
        ReaderPlace.count]
  | shmOpen =>
      simp only [hplace, Option.some.injEq] at hstep
      subst next
      simp only [State.setReader, Function.update_self]
      constructor <;> simp_all [ReaderPlace.cleared, ReaderPlace.opened,
        ReaderPlace.mapped, ReaderPlace.sized, ReaderPlace.woken,
        ReaderPlace.count, Registry.openOrMake_lt]
  | semOpen =>
      simp only [hplace, Option.some.injEq] at hstep
      subst next
      simp only [State.setReader, Function.update_self]
      have hname := hnext.cleared (by rw [hplace]; rfl)
      have hnew := hname _ Registry.openOrMake_name
      constructor <;> simp_all [ReaderPlace.cleared, ReaderPlace.opened,
        ReaderPlace.mapped, ReaderPlace.sized, ReaderPlace.woken,
        ReaderPlace.count, State.setReader, Registry.openOrMake_lt]
  | semWait =>
      simp only [hplace, Option.ite_none_right_eq_some,
        Option.some.injEq] at hstep
      obtain ⟨-, rfl⟩ := hstep
      simp only [State.setReader, Function.update_self]
      constructor <;> simp_all [ReaderPlace.cleared, ReaderPlace.opened,
        ReaderPlace.mapped, ReaderPlace.sized, ReaderPlace.woken,
        ReaderPlace.count]
  | printFloat i =>
      simp only [hplace, Option.some.injEq] at hstep
      subst next
      simp only [State.setReader, Function.update_self]
      by_cases hi : i < floatCount
      · have htrue := hsized (by rw [hplace]; rfl)
        rw [if_pos hi, if_pos htrue]
        constructor
        case printed =>
          intro _ hposted
          rw [hprinted (by rw [hplace]; rfl) hposted, hplace]
          simp only [ReaderPlace.count, List.range_succ, List.map_append,
            List.map_cons, List.map_nil]
          rw [hfilled (by rw [hplace]; rfl) hposted i hi]
        case count_le => exact hi
        all_goals simp_all [ReaderPlace.cleared, ReaderPlace.opened,
          ReaderPlace.mapped, ReaderPlace.sized, ReaderPlace.woken]
      · rw [if_neg hi]
        have hlast : i = floatCount := by
          rw [hplace] at hcount
          exact le_antisymm hcount (not_lt.mp hi)
        constructor <;> simp_all [ReaderPlace.cleared, ReaderPlace.opened,
          ReaderPlace.mapped, ReaderPlace.sized, ReaderPlace.woken,
          ReaderPlace.count]

theorem WriterSound.runWriter [DecidableEq W]
    (hsound : WriterSound value state (state.writers writerAt))
    (hstep : state.runWriter value writerAt = some next) :
    WriterSound value next (next.writers writerAt) := by
  obtain ⟨hopened, hmapped, hstored⟩ := hsound
  unfold State.runWriter at hstep
  cases hplace : (state.writers writerAt).place with
  | returned | mmapFailed | crashed => simp [hplace] at hstep
  | shmOpen =>
      simp only [hplace, Option.some.injEq] at hstep
      subst next
      simp only [State.setWriter, Function.update_self]
      have hlt := state.segments.name_lt
      split <;> constructor <;>
        simp_all [WriterPlace.mapped, WriterPlace.count]
  | semOpen =>
      simp only [hplace, Option.some.injEq] at hstep
      subst next
      simp only [State.setWriter, Function.update_self]
      have hlt := state.semaphores.name_lt
      constructor <;> simp_all [WriterPlace.mapped, WriterPlace.count]
  | storeFloat i =>
      simp only [hplace] at hstep
      split at hstep
      · split at hstep
        · rw [Option.some.injEq] at hstep
          subst next
          simp only [State.setWriter, Function.update_self]
          constructor
          case stored =>
            intro j hj
            rw [Registry.set_object_self]
            by_cases heq : j = i
            · rw [heq]
              exact Function.update_self ..
            · have hlt : j < i :=
                lt_of_le_of_ne (Nat.lt_succ_iff.mp hj) heq
              rw [hplace] at hstored
              exact (Function.update_of_ne heq _ _).trans (hstored j hlt)
          all_goals simp_all [WriterPlace.mapped]
        · rw [Option.some.injEq] at hstep
          subst next
          simp only [State.setWriter, Function.update_self]
          constructor <;> simp_all [WriterPlace.mapped, WriterPlace.count]
      · rename_i hlast
        rw [Option.some.injEq] at hstep
        subst next
        simp only [State.setWriter, Function.update_self]
        constructor
        case stored =>
          intro j hj
          rw [hplace] at hstored
          exact hstored j (hj.trans_le (not_lt.mp hlast))
        all_goals simp_all [WriterPlace.mapped]
  | semPost =>
      simp only [hplace] at hstep
      split at hstep <;> rw [Option.some.injEq] at hstep <;> subst next <;>
        simp only [State.setWriter, Function.update_self] <;>
        constructor <;> simp_all [WriterPlace.mapped, WriterPlace.count]

section Balance

variable [Fintype R] [Fintype W]

/-- A step that leaves the semaphores and does not wake or post. -/
theorem Balanced.of_counts (hbalanced : Balanced old state)
    (hmade : next.semaphores.made = state.semaphores.made)
    (hobject : ∀ id, next.semaphores.object id = state.semaphores.object id)
    (hreaders : ∀ id, countAt next.readers (Reader.tookFrom id) =
      countAt state.readers (Reader.tookFrom id))
    (hwriters : ∀ id, countAt next.writers (Writer.postedOn id) =
      countAt state.writers (Writer.postedOn id)) :
    Balanced old next := by
  intro id hid hlt
  rw [hobject, hreaders, hwriters]
  exact hbalanced id hid (hmade ▸ hlt)

/-- Nobody waits or posts on a semaphore that has not been made. -/
theorem counts_of_unmade
    (hsound : ∀ index, ReaderSound value old state (state.readers index))
    (hwriters : ∀ index, WriterSound value state (state.writers index)) :
    countAt state.readers (Reader.tookFrom state.semaphores.made) =
      0 ∧
    countAt state.writers (Writer.postedOn state.semaphores.made) = 0 := by
  constructor
  · rw [countAt_eq_zero_iff]
    intro index
    rw [Reader.tookFrom, Bool.and_eq_false_imp]
    intro hwoken
    have hopened : (state.readers index).place.opened = true := by
      cases hplace : (state.readers index).place <;>
        simp_all [ReaderPlace.woken, ReaderPlace.opened]
    have hlt := ((hsound index).opened hopened).2
    simpa using hlt.ne
  · rw [countAt_eq_zero_iff]
    intro index
    rw [Writer.postedOn, decide_eq_false_iff_not]
    rintro ⟨-, hsemaphore⟩
    exact lt_irrefl _ ((hwriters index).opened _ hsemaphore)

theorem Balanced.runReader [DecidableEq R]
    (hbalanced : Balanced old state)
    (hsound : ∀ index, ReaderSound value old state (state.readers index))
    (hwriters : ∀ index, WriterSound value state (state.writers index))
    (hstep : state.runReader zero readerAt = some next) :
    Balanced old next := by
  unfold State.runReader at hstep
  cases hplace : (state.readers readerAt).place with
  | returned | crashed => simp [hplace] at hstep
  | shmUnlink | shmOpen | ftruncate | semUnlink | removeSegment =>
      simp only [hplace, Option.some.injEq] at hstep
      subst next
      refine hbalanced.of_counts rfl (fun _ => rfl) ?_ fun _ => rfl
      intro id
      apply countAt_update_of_same
      simp [hplace, Reader.tookFrom, ReaderPlace.woken]
  | printFloat i =>
      simp only [hplace, Option.some.injEq] at hstep
      subst next
      refine hbalanced.of_counts rfl (fun _ => rfl) ?_ fun _ => rfl
      intro id
      apply countAt_update_of_same
      split
      · split <;> simp [hplace, Reader.tookFrom, ReaderPlace.woken]
      · simp [hplace, Reader.tookFrom, ReaderPlace.woken]
  | semOpen =>
      simp only [hplace, Option.some.injEq] at hstep
      subst next
      have hsame : ∀ id, countAt (Function.update state.readers readerAt
            { state.readers readerAt with
              place := .semWait,
              semaphore := (state.semaphores.openOrMake 0).2 })
          (Reader.tookFrom id) =
          countAt state.readers (Reader.tookFrom id) := by
        intro id
        apply countAt_update_of_same
        simp [hplace, Reader.tookFrom, ReaderPlace.woken]
      cases hname : state.semaphores.name with
      | some opened =>
          refine hbalanced.of_counts ?_ ?_ hsame fun _ => rfl
          · simp [State.setReader, Registry.openOrMake, hname]
          · simp [State.setReader, Registry.openOrMake, hname]
      | none =>
          intro id hid hlt
          simp only [State.setReader, Registry.openOrMake, hname] at hsame hlt ⊢
          rw [hsame id]
          by_cases heq : id = state.semaphores.made
          · subst id
            obtain ⟨hnone, hnoPost⟩ := counts_of_unmade hsound hwriters
            rw [hnone, hnoPost]
            exact Function.update_self ..
          · have hbefore : id < state.semaphores.made :=
              lt_of_le_of_ne (Nat.lt_succ_iff.mp hlt) heq
            rw [← hbalanced id hid hbefore]
            congr 1
            exact Function.update_of_ne heq _ _
  | semWait =>
      simp only [hplace, Option.ite_none_right_eq_some,
        Option.some.injEq] at hstep
      obtain ⟨hpos, rfl⟩ := hstep
      intro id hid hlt
      have hcount := countAt_update state.readers
        (Reader.tookFrom id) readerAt
        { state.readers readerAt with place := .printFloat 0 }
      have hbefore := hbalanced id hid hlt
      have hout : Reader.tookFrom id (state.readers readerAt) = false := by
        rw [Reader.tookFrom, hplace]
        rfl
      rw [hout, Bool.toNat_false, Nat.add_zero] at hcount
      simp only [State.setReader]
      rw [hcount, Reader.tookFrom, ReaderPlace.woken, Bool.true_and]
      by_cases heq : (state.readers readerAt).semaphore = id
      · subst id
        rw [Registry.set_object_self]
        simp only [beq_self_eq_true, Bool.toNat_true]
        omega
      · rw [Registry.set_object_of_ne (Ne.symm heq)]
        simp only [beq_eq_false_iff_ne.mpr heq, Bool.toNat_false]
        omega

theorem Balanced.runWriter [DecidableEq W]
    (hbalanced : Balanced old state)
    (hstep : state.runWriter value writerAt = some next) :
    Balanced old next := by
  unfold State.runWriter at hstep
  cases hplace : (state.writers writerAt).place with
  | returned | mmapFailed | crashed => simp [hplace] at hstep
  | shmOpen =>
      simp only [hplace, Option.some.injEq] at hstep
      subst next
      refine hbalanced.of_counts rfl (fun _ => rfl) (fun _ => rfl) ?_
      intro id
      apply countAt_update_of_same
      split <;> simp [hplace, Writer.postedOn, Writer.Posted]
  | semOpen =>
      simp only [hplace, Option.some.injEq] at hstep
      subst next
      refine hbalanced.of_counts rfl (fun _ => rfl) (fun _ => rfl) ?_
      intro id
      apply countAt_update_of_same
      simp [hplace, Writer.postedOn, Writer.Posted]
  | storeFloat i =>
      simp only [hplace] at hstep
      split at hstep
      · split at hstep <;> rw [Option.some.injEq] at hstep <;> subst next
        all_goals
          refine hbalanced.of_counts rfl (fun _ => rfl) (fun _ => rfl) ?_
          intro id
          apply countAt_update_of_same
          simp [hplace, Writer.postedOn, Writer.Posted]
      · rw [Option.some.injEq] at hstep
        subst next
        refine hbalanced.of_counts rfl (fun _ => rfl) (fun _ => rfl) ?_
        intro id
        apply countAt_update_of_same
        simp [hplace, Writer.postedOn, Writer.Posted]
  | semPost =>
      simp only [hplace] at hstep
      split at hstep
      · rename_i posted hsemaphore
        rw [Option.some.injEq] at hstep
        subst next
        intro id hid hlt
        have hcount := countAt_update state.writers
          (Writer.postedOn id) writerAt
          { state.writers writerAt with place := .returned }
        have hbefore := hbalanced id hid hlt
        have hout : Writer.postedOn id (state.writers writerAt) = false := by
          simp [Writer.postedOn, Writer.Posted, hplace]
        rw [hout, Bool.toNat_false, Nat.add_zero] at hcount
        simp only [State.setWriter]
        rw [hcount]
        by_cases heq : posted = id
        · subst id
          have hin : Writer.postedOn posted { state.writers writerAt with
              place := .returned } = true := by
            simp [Writer.postedOn, Writer.Posted, hsemaphore]
          rw [hin, Registry.set_object_self, Bool.toNat_true]
          omega
        · have hin : Writer.postedOn id { state.writers writerAt with
              place := .returned } = false := by
            simp [Writer.postedOn, Writer.Posted, hsemaphore, heq]
          rw [hin, Registry.set_object_of_ne (Ne.symm heq), Bool.toNat_false]
          omega
      · rw [Option.some.injEq] at hstep
        subst next
        refine hbalanced.of_counts rfl (fun _ => rfl) (fun _ => rfl) ?_
        intro id
        apply countAt_update_of_same
        simp [hplace, Writer.postedOn, Writer.Posted]

end Balance

end Steps

variable [Fintype R] [Fintype W]

/-- What holds in every state of every run. -/
structure Sound (value : Nat → α) (old : Nat) (state : State R W α) :
    Prop where
  old_le : old ≤ state.semaphores.made
  readers : ∀ index, ReaderSound value old state (state.readers index)
  writers : ∀ index, WriterSound value state (state.writers index)
  balanced : Balanced old state

/-- A reader that has come back from `sem_wait` took the post of a writer. -/
theorem Sound.exists_posted (hsound : Sound value old state) {index : R}
    (hwoken : (state.readers index).place.woken = true) :
    ∃ poster, (state.writers poster).Posted (state.readers index).semaphore := by
  have hopened : (state.readers index).place.opened = true := by
    cases hplace : (state.readers index).place <;>
      simp_all [ReaderPlace.woken, ReaderPlace.opened]
  obtain ⟨hold, hlt⟩ := (hsound.readers index).opened hopened
  have hbalanced := hsound.balanced _ hold hlt
  have htook : Reader.tookFrom (state.readers index).semaphore
      (state.readers index) = true := by
    simp [Reader.tookFrom, hwoken]
  have hpos := countAt_pos htook
  by_contra hnone
  rw [not_exists] at hnone
  have hzero : countAt state.writers
      (Writer.postedOn (state.readers index).semaphore) = 0 := by
    rw [countAt_eq_zero_iff]
    intro poster
    simp [Writer.postedOn, hnone poster]
  omega

theorem Sound.filled (hsound : Sound value old state) (index : R) :
    Filled value state (state.readers index) := by
  intro hwoken hposted i hi
  obtain ⟨poster, hposter⟩ := hsound.exists_posted hwoken
  rw [← hposted poster hposter]
  apply (hsound.writers poster).stored
  rw [hposter.1]
  exact hi

variable [DecidableEq R] [DecidableEq W]

theorem sound_invariant (segments : Registry (Segment α))
    (semaphores : Registry Nat) :
    Invariant (handOff (R := R) (W := W) zero value segments semaphores)
      (Sound value semaphores.made) where
  start := by
    refine ⟨le_refl _, fun _ => ?_, fun _ => ?_, ?_⟩
    · constructor <;> simp [handOff, Reader.start, ReaderPlace.cleared,
        ReaderPlace.opened, ReaderPlace.mapped, ReaderPlace.sized,
        ReaderPlace.woken, ReaderPlace.count]
    · constructor <;> simp [handOff, Writer.start, WriterPlace.mapped,
        WriterPlace.count]
    · intro id hold hlt
      exact absurd hlt (not_lt.mpr hold)
  step := by
    intro state next action hsound hstep
    cases action with
    | reader readerAt =>
        have hnext : Continues value state next := continues_runReader hstep
        have hmoved := (hsound.readers readerAt).runReader
          (hsound.filled readerAt) hsound.old_le hstep
        obtain ⟨hwriters, reader, hreaders⟩ := runReader_eq hstep
        refine ⟨hsound.old_le.trans hnext.semaphores.made_le, ?_, ?_,
          hsound.balanced.runReader hsound.readers hsound.writers hstep⟩
        · rw [hreaders, Function.update_self] at hmoved
          apply forall_of_update _ hreaders hmoved
          exact fun index _ =>
            (hsound.readers index).continues hnext hsound.old_le
        · rw [hwriters]
          exact fun index => (hsound.writers index).continues hnext
    | writer writerAt =>
        have hnext := continues_runWriter hstep
        have hmoved := (hsound.writers writerAt).runWriter hstep
        obtain ⟨hreaders, writer, hwriters⟩ := runWriter_eq hstep
        refine ⟨hsound.old_le.trans hnext.semaphores.made_le, ?_, ?_,
          hsound.balanced.runWriter hstep⟩
        · rw [hreaders]
          exact fun index =>
            (hsound.readers index).continues hnext hsound.old_le
        · rw [hwriters, Function.update_self] at hmoved
          apply forall_of_update _ hwriters hmoved
          exact fun index _ => (hsound.writers index).continues hnext

/-- The floats of `shm_writer`, in hundredths. -/
def scaled (i : Nat) : Nat := 66 * i

/-- The reader waits, the writer fills its segment, the reader prints. -/
def session : List (Action Unit Unit) :=
  List.replicate 5 (.reader ()) ++ List.replicate 24 (.writer ()) ++
    List.replicate 23 (.reader ())

/-- How a session that starts with no objects ends. -/
theorem run_session :
    ((handOff 0 scaled (Registry.empty ⟨false, fun _ => 0⟩)
      (Registry.empty 0)).run session).map (fun last =>
        ((last.readers ()).place, (last.writers ()).place,
          (last.readers ()).printed)) =
      some (.returned, .returned, (List.range floatCount).map scaled) := by
  decide +kernel

/-- No reader is ended by SIGBUS, one that comes back from `sem_wait` was posted
to, and if the writers that posted had opened the reader's own segment, what it
has printed so far is what they stored. -/
theorem printed_of_woken {segments : Registry (Segment α)}
    {semaphores : Registry Nat} {state : State R W α}
    (hreach : (handOff zero value segments semaphores).Reachable state)
    {index : R} (hwoken : (state.readers index).place.woken = true) :
    (state.readers index).place ≠ .crashed ∧
    (∃ poster,
      (state.writers poster).Posted (state.readers index).semaphore) ∧
    ((∀ poster,
        (state.writers poster).Posted (state.readers index).semaphore →
          (state.writers poster).segment = (state.readers index).segment) →
      (state.readers index).printed =
        (List.range (state.readers index).place.count).map value) := by
  have hsound := (sound_invariant segments semaphores).reachable hreach
  exact ⟨(hsound.readers index).running, hsound.exists_posted hwoken,
    (hsound.readers index).printed hwoken⟩

theorem printed_of_woken_session :
    ∃ last : State Unit Unit Nat,
      (last.readers ()).printed = (List.range floatCount).map scaled ∧
        ∃ poster,
          (last.writers poster).Posted (last.readers ()).semaphore := by
  obtain ⟨last, hlast, hends⟩ := Option.map_eq_some_iff.mp run_session
  simp only [Prod.mk.injEq] at hends
  obtain ⟨hreader, hwriter, hprinted⟩ := hends
  have hwoken : (last.readers ()).place.woken = true := by
    rw [hreader]
    rfl
  exact ⟨last, hprinted, (printed_of_woken ⟨session, hlast⟩ hwoken).2.1⟩

end Safety

section Pair

variable {α : Type} {zero : α} {value : Nat → α} {old : Nat}
  {state next : State Unit Unit α}

/-- The writer has the reader's segment open. -/
def Shares (reader : Reader α) (writer : Writer) : Prop :=
  writer.place.mapped = true ∧ writer.segment = reader.segment

/-- With one reader the names stand for its objects, and its segment stays blank
until the writer opens it. -/
structure Paired (zero : α) (reader : Reader α) (writer : Writer)
    (segments : Registry (Segment α)) (semaphores : Registry Nat) : Prop where
  unnamedSegment : reader.place = .shmOpen → segments.name = none
  namedSegment : reader.place.mapped = true → reader.place ≠ .returned →
    segments.name = some reader.segment
  unnamedSemaphore : reader.place = .semOpen → semaphores.name = none
  namedSemaphore : reader.place.opened = true →
    semaphores.name = some reader.semaphore
  blank : reader.place.mapped = true → ¬ Shares reader writer → ∀ i,
    (segments.object reader.segment).floats i = zero
  printedBlank : reader.place.woken = true → ¬ Shares reader writer →
    reader.printed = List.replicate reader.place.count zero

abbrev State.IsPaired (zero : α) (state : State Unit Unit α) : Prop :=
  Paired zero (state.readers ()) (state.writers ()) state.segments
    state.semaphores

theorem Paired.runReader (hpaired : state.IsPaired zero)
    (hsound : Sound value old state)
    (hstep : state.runReader zero () = some next) : next.IsPaired zero := by
  obtain ⟨hunnamed, hnamed, hunnamedSemaphore, hnamedSemaphore, hblank,
    hprinted⟩ := hpaired
  have hreader := hsound.readers ()
  have hwriter := (hsound.writers ()).mapped
  unfold State.runReader at hstep
  cases hplace : (state.readers ()).place with
  | returned | crashed => simp [hplace] at hstep
  | shmUnlink | ftruncate | semUnlink | removeSegment =>
      simp only [hplace, Option.some.injEq] at hstep
      subst next
      simp only [State.IsPaired, State.setReader, Function.update_self]
      constructor <;> simp_all [Shares, ReaderPlace.mapped,
        ReaderPlace.opened, ReaderPlace.woken, ReaderPlace.count]
  | shmOpen =>
      have hmake := hunnamed hplace
      simp only [hplace, Option.some.injEq] at hstep
      subst next
      simp only [State.IsPaired, State.setReader, Function.update_self]
      rw [Registry.openOrMake_of_none hmake]
      constructor <;> simp_all [Shares, ReaderPlace.mapped,
        ReaderPlace.opened, ReaderPlace.woken, Registry.make]
  | semOpen =>
      have hmake := hunnamedSemaphore hplace
      simp only [hplace, Option.some.injEq] at hstep
      subst next
      simp only [State.IsPaired, State.setReader, Function.update_self]
      constructor <;> simp_all [Shares, ReaderPlace.mapped,
        ReaderPlace.opened, ReaderPlace.woken, ReaderPlace.count,
        Registry.openOrMake_name]
  | semWait =>
      simp only [hplace, Option.ite_none_right_eq_some,
        Option.some.injEq] at hstep
      obtain ⟨-, rfl⟩ := hstep
      simp only [State.IsPaired, State.setReader, Function.update_self]
      have hsilent := hreader.silent
      constructor <;> simp_all [Shares, ReaderPlace.mapped,
        ReaderPlace.opened, ReaderPlace.woken, ReaderPlace.count]
  | printFloat i =>
      simp only [hplace, Option.some.injEq] at hstep
      subst next
      simp only [State.IsPaired, State.setReader, Function.update_self]
      by_cases hi : i < floatCount
      · have htrue := hreader.sized (by rw [hplace]; rfl)
        rw [if_pos hi, if_pos htrue]
        constructor <;> simp_all [Shares, ReaderPlace.mapped,
          ReaderPlace.opened, ReaderPlace.woken, ReaderPlace.count,
          List.replicate_succ']
      · have hlast : i = floatCount := by
          have hcount := hreader.count_le
          rw [hplace] at hcount
          exact le_antisymm hcount (not_lt.mp hi)
        rw [if_neg hi]
        constructor <;> simp_all [Shares, ReaderPlace.mapped,
          ReaderPlace.opened, ReaderPlace.woken, ReaderPlace.count]

/-- A move of the writer that leaves the names, and a segment that is not the
reader's. -/
theorem Paired.writer_moves {reader : Reader α} {writer moved : Writer}
    {segments laterSegments : Registry (Segment α)}
    {semaphores laterSemaphores : Registry Nat}
    (hpaired : Paired zero reader writer segments semaphores)
    (hsegments : laterSegments.name = segments.name)
    (hsemaphores : laterSemaphores.name = semaphores.name)
    (hshares : Shares reader writer → Shares reader moved)
    (hfloats : ¬ Shares reader moved → ∀ i,
      (laterSegments.object reader.segment).floats i =
        (segments.object reader.segment).floats i) :
    Paired zero reader moved laterSegments laterSemaphores where
  unnamedSegment := hsegments ▸ hpaired.unnamedSegment
  namedSegment := hsegments ▸ hpaired.namedSegment
  unnamedSemaphore := hsemaphores ▸ hpaired.unnamedSemaphore
  namedSemaphore := hsemaphores ▸ hpaired.namedSemaphore
  blank := fun hmapped hnot i =>
    (hfloats hnot i).trans (hpaired.blank hmapped (mt hshares hnot) i)
  printedBlank := fun hwoken hnot =>
    hpaired.printedBlank hwoken (mt hshares hnot)

theorem Paired.runWriter (hpaired : state.IsPaired zero)
    (hstep : state.runWriter value () = some next) : next.IsPaired zero := by
  unfold State.runWriter at hstep
  cases hplace : (state.writers ()).place with
  | returned | mmapFailed | crashed => simp [hplace] at hstep
  | shmOpen =>
      simp only [hplace, Option.some.injEq] at hstep
      subst next
      simp only [State.IsPaired, State.setWriter, Function.update_self]
      apply hpaired.writer_moves rfl rfl _ fun _ _ => rfl
      simp [Shares, hplace, WriterPlace.mapped]
  | semOpen =>
      simp only [hplace, Option.some.injEq] at hstep
      subst next
      simp only [State.IsPaired, State.setWriter, Function.update_self]
      apply hpaired.writer_moves rfl rfl _ fun _ _ => rfl
      simp [Shares, WriterPlace.mapped]
  | storeFloat i =>
      simp only [hplace] at hstep
      split at hstep
      · split at hstep
        · rw [Option.some.injEq] at hstep
          subst next
          simp only [State.IsPaired, State.setWriter, Function.update_self]
          apply hpaired.writer_moves (Registry.set_name ..) rfl
          · simp [Shares, WriterPlace.mapped]
          · intro hnot j
            have hne : (state.readers ()).segment ≠
                (state.writers ()).segment := fun heq =>
              hnot ⟨rfl, heq.symm⟩
            rw [Registry.set_object_of_ne hne]
        · rw [Option.some.injEq] at hstep
          subst next
          simp only [State.IsPaired, State.setWriter, Function.update_self]
          apply hpaired.writer_moves rfl rfl _ fun _ _ => rfl
          simp [Shares, WriterPlace.mapped]
      · rw [Option.some.injEq] at hstep
        subst next
        simp only [State.IsPaired, State.setWriter, Function.update_self]
        apply hpaired.writer_moves rfl rfl _ fun _ _ => rfl
        simp [Shares, WriterPlace.mapped]
  | semPost =>
      simp only [hplace] at hstep
      split at hstep <;> rw [Option.some.injEq] at hstep <;> subst next <;>
        simp only [State.IsPaired, State.setWriter, Function.update_self]
      · apply hpaired.writer_moves rfl (Registry.set_name ..) _ fun _ _ => rfl
        simp [Shares, WriterPlace.mapped]
      · apply hpaired.writer_moves rfl rfl _ fun _ _ => rfl
        simp [Shares, WriterPlace.mapped]

/-- The writer opens the segment and the semaphore after the reader has made
them. -/
def InOrder (state : State Unit Unit α) : Action Unit Unit → Prop
  | .reader _ => True
  | .writer _ =>
      ((state.writers ()).place = .shmOpen →
        (state.readers ()).place.mapped = true) ∧
      ((state.writers ()).place = .semOpen →
        (state.readers ()).place.opened = true)

/-- What the writer has opened so far is what the reader made. -/
@[mk_iff] structure OnTrack (reader : Reader α) (writer : Writer) : Prop where
  running : writer.place ≠ .mmapFailed ∧ writer.place ≠ .crashed
  mapped : writer.place.mapped = true →
    reader.place.mapped = true ∧ writer.segment = reader.segment
  opened : writer.place.mapped = true → writer.place ≠ .semOpen →
    reader.place.opened = true ∧ writer.semaphore = some reader.semaphore

/-- A move of the reader that opens nothing. -/
theorem onTrack_congr {reader moved : Reader α} {writer : Writer}
    (hmapped : moved.place.mapped = reader.place.mapped)
    (hopened : moved.place.opened = reader.place.opened)
    (hsegment : moved.segment = reader.segment)
    (hsemaphore : moved.semaphore = reader.semaphore) :
    OnTrack moved writer ↔ OnTrack reader writer := by
  rw [onTrack_iff, onTrack_iff, hmapped, hopened, hsegment, hsemaphore]

theorem onTrack_runReader (hpaired : state.IsPaired zero)
    (hsound : Sound value old state)
    (hstep : state.runReader zero () = some next) :
    OnTrack (next.readers ()) (next.writers ()) ↔
      OnTrack (state.readers ()) (state.writers ()) := by
  have hwriter := hsound.writers ()
  unfold State.runReader at hstep
  cases hplace : (state.readers ()).place with
  | returned | crashed => simp [hplace] at hstep
  | shmUnlink | ftruncate | semUnlink | removeSegment =>
      simp only [hplace, Option.some.injEq] at hstep
      subst next
      simp only [State.setReader, Function.update_self]
      apply onTrack_congr <;> simp [hplace, ReaderPlace.mapped,
        ReaderPlace.opened]
  | shmOpen =>
      have hmake := hpaired.unnamedSegment hplace
      simp only [hplace, Option.some.injEq] at hstep
      subst next
      simp only [State.setReader, Function.update_self]
      rw [Registry.openOrMake_of_none hmake]
      have hnew : (state.writers ()).place.mapped = true →
          (state.writers ()).segment ≠ state.segments.made :=
        fun hmapped => (hwriter.mapped hmapped).ne
      simp only [onTrack_iff, hplace, ReaderPlace.mapped, ReaderPlace.opened,
        true_and, false_and, Bool.false_eq_true, imp_false]
      refine and_congr_right fun _ => and_congr_left fun _ => ?_
      exact ⟨fun hsame hmapped => hnew hmapped (hsame hmapped),
        fun hnot hmapped => absurd hmapped hnot⟩
  | semOpen =>
      have hmake := hpaired.unnamedSemaphore hplace
      simp only [hplace, Option.some.injEq] at hstep
      subst next
      simp only [State.setReader, Function.update_self]
      rw [Registry.openOrMake_of_none hmake]
      have hnew : (state.writers ()).semaphore ≠
          some state.semaphores.made :=
        fun heq => lt_irrefl _ (hwriter.opened _ heq)
      simp [onTrack_iff, hplace, ReaderPlace.mapped, ReaderPlace.opened, hnew]
  | semWait =>
      simp only [hplace, Option.ite_none_right_eq_some,
        Option.some.injEq] at hstep
      obtain ⟨-, rfl⟩ := hstep
      simp only [State.setReader, Function.update_self]
      apply onTrack_congr <;> simp [hplace, ReaderPlace.mapped,
        ReaderPlace.opened]
  | printFloat i =>
      simp only [hplace, Option.some.injEq] at hstep
      subst next
      simp only [State.setReader, Function.update_self]
      apply onTrack_congr
      · split
        · split <;> simp [hplace, ReaderPlace.mapped]
        · simp [hplace, ReaderPlace.mapped]
      · split
        · split <;> simp [hplace, ReaderPlace.opened]
        · simp [hplace, ReaderPlace.opened]
      · split
        · split <;> rfl
        · rfl
      · split
        · split <;> rfl
        · rfl

theorem onTrack_runWriter (hpaired : state.IsPaired zero)
    (hsound : Sound value old state)
    (hstep : state.runWriter value () = some next) :
    OnTrack (next.readers ()) (next.writers ()) ↔
      OnTrack (state.readers ()) (state.writers ()) ∧
        InOrder state (.writer ()) := by
  unfold State.runWriter at hstep
  cases hplace : (state.writers ()).place with
  | returned | mmapFailed | crashed => simp [hplace] at hstep
  | shmOpen =>
      have hwaits : (state.readers ()).place.mapped = true →
          state.segments.name = some (state.readers ()).segment := by
        intro hmapped
        apply hpaired.namedSegment hmapped
        intro hreturned
        have hwoken : (state.readers ()).place.woken = true := by
          rw [hreturned]
          rfl
        obtain ⟨_, hposted⟩ := hsound.exists_posted hwoken
        simp [Writer.Posted, hplace] at hposted
      simp only [hplace, Option.some.injEq] at hstep
      subst next
      simp only [State.setWriter, Function.update_self]
      cases hname : state.segments.name with
      | none =>
          simp [onTrack_iff, InOrder, hplace, WriterPlace.mapped]
          rw [← Bool.not_eq_true]
          intro hmapped
          rw [hwaits hmapped] at hname
          contradiction
      | some id =>
          simp [onTrack_iff, InOrder, hplace, WriterPlace.mapped]
          intro hmapped
          rw [hwaits hmapped, Option.some.injEq] at hname
          exact hname.symm
  | semOpen =>
      simp only [hplace, Option.some.injEq] at hstep
      subst next
      simp only [State.setWriter, Function.update_self]
      have hnamed := hpaired.namedSemaphore
      simp [onTrack_iff, InOrder, hplace, WriterPlace.mapped]
      exact fun _ _ hopened => hnamed hopened
  | storeFloat i =>
      have hiff : InOrder state (.writer ()) := by simp [InOrder, hplace]
      rw [and_iff_left hiff]
      simp only [hplace] at hstep
      split at hstep
      · split at hstep
        · rw [Option.some.injEq] at hstep
          subst next
          simp only [State.setWriter, Function.update_self]
          simp [onTrack_iff, hplace, WriterPlace.mapped]
        · rename_i hblank
          rw [Option.some.injEq] at hstep
          subst next
          simp only [State.setWriter, Function.update_self]
          refine iff_of_false (fun htrack => htrack.running.2 rfl) ?_
          intro htrack
          obtain ⟨hopened, -⟩ := htrack.opened (by rw [hplace]; rfl)
            (by simp [hplace])
          obtain ⟨-, hsegment⟩ := htrack.mapped (by rw [hplace]; rfl)
          have hsized : (state.readers ()).place.sized = true := by
            cases hreader : (state.readers ()).place <;>
              simp_all [ReaderPlace.opened, ReaderPlace.sized]
          rw [hsegment] at hblank
          exact hblank ((hsound.readers ()).sized hsized)
      · rw [Option.some.injEq] at hstep
        subst next
        simp only [State.setWriter, Function.update_self]
        simp [onTrack_iff, hplace, WriterPlace.mapped]
  | semPost =>
      have hiff : InOrder state (.writer ()) := by simp [InOrder, hplace]
      rw [and_iff_left hiff]
      simp only [hplace] at hstep
      split at hstep
      · rw [Option.some.injEq] at hstep
        subst next
        simp only [State.setWriter, Function.update_self]
        simp [onTrack_iff, hplace, WriterPlace.mapped]
      · rename_i hfailed
        rw [Option.some.injEq] at hstep
        subst next
        simp only [State.setWriter, Function.update_self]
        refine iff_of_false (fun htrack => htrack.running.2 rfl) ?_
        intro htrack
        obtain ⟨-, hsemaphore⟩ := htrack.opened (by rw [hplace]; rfl)
          (by simp [hplace])
        rw [hfailed] at hsemaphore
        contradiction

variable {segments : Registry (Segment α)} {semaphores : Registry Nat}

theorem paired_invariant :
    Invariant (handOff zero value segments semaphores) fun state =>
      Sound value semaphores.made state ∧ state.IsPaired zero where
  start := by
    refine ⟨(sound_invariant segments semaphores).start, ?_⟩
    constructor <;> simp [handOff, Reader.start, ReaderPlace.mapped,
      ReaderPlace.opened, ReaderPlace.woken]
  step := by
    rintro state next action ⟨hsound, hpaired⟩ hstep
    refine ⟨(sound_invariant segments semaphores).step hsound hstep, ?_⟩
    cases action with
    | reader _ => exact Paired.runReader hpaired hsound hstep
    | writer _ => exact Paired.runWriter hpaired hstep

theorem onTrack_step (hpaired : state.IsPaired zero)
    (hsound : Sound value old state) {action : Action Unit Unit}
    (hstep : state.step zero value action = some next) :
    OnTrack (next.readers ()) (next.writers ()) ↔
      OnTrack (state.readers ()) (state.writers ()) ∧
        InOrder state action := by
  cases action with
  | reader _ =>
      rw [onTrack_runReader hpaired hsound hstep]
      exact (and_iff_left trivial).symm
  | writer _ => exact onTrack_runWriter hpaired hsound hstep

theorem runWriter_eq_none_iff : state.runWriter value () = none ↔
    (state.writers ()).place = .returned ∨
      (state.writers ()).place = .mmapFailed ∨
        (state.writers ()).place = .crashed := by
  unfold State.runWriter
  cases hplace : (state.writers ()).place with
  | storeFloat i =>
      simp only [hplace]
      split
      · split <;> simp
      · simp
  | semPost =>
      simp only [hplace]
      split <;> simp
  | shmOpen | semOpen | returned | mmapFailed | crashed => simp [hplace]

theorem runReader_eq_none_iff : state.runReader zero () = none ↔
    (state.readers ()).place = .returned ∨
      (state.readers ()).place = .crashed ∨
        ((state.readers ()).place = .semWait ∧
          state.semaphores.object (state.readers ()).semaphore = 0) := by
  unfold State.runReader
  cases hplace : (state.readers ()).place <;> simp [hplace]

/-- A reader whose semaphore the writer has posted on comes back. -/
theorem reader_returned (hsound : Sound value old state)
    (hstuck : (handOff zero value segments semaphores).Stuck state)
    (hposted : (state.writers ()).Posted (state.readers ()).semaphore)
    (hopened : (state.readers ()).place.opened = true) :
    (state.readers ()).place = .returned := by
  have hreader := hsound.readers ()
  rcases runReader_eq_none_iff.mp (hstuck (.reader ())) with
    hreturned | hcrashed | ⟨hwaits, hzero⟩
  · exact hreturned
  · exact absurd hcrashed hreader.running
  · obtain ⟨hold, hlt⟩ := hreader.opened hopened
    have hbalanced := hsound.balanced _ hold hlt
    have hpost : Writer.postedOn (state.readers ()).semaphore
        (state.writers ()) = true := by
      simpa [Writer.postedOn] using hposted
    have hpos := countAt_pos hpost
    have hnone : countAt state.readers
        (Reader.tookFrom (state.readers ()).semaphore) = 0 := by
      rw [countAt_eq_zero_iff]
      rintro ⟨⟩
      rw [Reader.tookFrom, hwaits]
      rfl
    omega

/-- When neither process can go on, the reader has printed what the writer stored
exactly if the writer had opened what the reader made. -/
theorem printed_iff_onTrack (hpaired : state.IsPaired zero)
    (hsound : Sound value old state)
    (hvalue : ∃ i < floatCount, value i ≠ zero)
    (hstuck : (handOff zero value segments semaphores).Stuck state) :
    ((state.readers ()).place = .returned ∧ (state.readers ()).printed =
        (List.range floatCount).map value) ↔
      OnTrack (state.readers ()) (state.writers ()) := by
  constructor
  · rintro ⟨hreturned, hprinted⟩
    have hwoken : (state.readers ()).place.woken = true := by
      rw [hreturned]
      rfl
    obtain ⟨_, hplace, hsemaphore⟩ := hsound.exists_posted hwoken
    have hshares : Shares (state.readers ()) (state.writers ()) := by
      by_contra hnot
      have hblank := hpaired.printedBlank hwoken hnot
      rw [hprinted] at hblank
      obtain ⟨i, hi, hne⟩ := hvalue
      have hmem : value i ∈ (List.range floatCount).map value :=
        List.mem_map_of_mem (List.mem_range.mpr hi)
      rw [hblank] at hmem
      exact hne (List.eq_of_mem_replicate hmem)
    constructor
    · simp [hplace]
    · exact fun _ => ⟨by simp [hreturned, ReaderPlace.mapped], hshares.2⟩
    · exact fun _ _ => ⟨by simp [hreturned, ReaderPlace.opened], hsemaphore⟩
  · intro htrack
    have hplace : (state.writers ()).place = .returned := by
      rcases runWriter_eq_none_iff.mp (hstuck (.writer ())) with
        hreturned | hfailed | hcrashed
      · exact hreturned
      · exact absurd hfailed htrack.running.1
      · exact absurd hcrashed htrack.running.2
    have hmapped : (state.writers ()).place.mapped = true := by
      rw [hplace]
      rfl
    obtain ⟨-, hsegment⟩ := htrack.mapped hmapped
    obtain ⟨hopened, hsemaphore⟩ :=
      htrack.opened hmapped (by simp [hplace])
    have hreturned :=
      reader_returned hsound hstuck ⟨hplace, hsemaphore⟩ hopened
    refine ⟨hreturned, ?_⟩
    have hprinted := (hsound.readers ()).printed
      (by simp [hreturned, ReaderPlace.woken]) fun _ _ => hsegment
    rw [hreturned] at hprinted
    exact hprinted

/-- A reader that has not printed the writer's floats waits for good, or has printed
those of a segment that nobody wrote to. -/
theorem waits_or_blank (hpaired : state.IsPaired zero)
    (hsound : Sound value old state)
    (hstuck : (handOff zero value segments semaphores).Stuck state)
    (hnot : ¬ ((state.readers ()).place = .returned ∧
      (state.readers ()).printed = (List.range floatCount).map value)) :
    (state.readers ()).place = .semWait ∨
      (state.readers ()).place = .returned ∧
        (state.readers ()).printed = List.replicate floatCount zero := by
  have hreader := hsound.readers ()
  rcases runReader_eq_none_iff.mp (hstuck (.reader ())) with
    hreturned | hcrashed | ⟨hwaits, -⟩
  · have hwoken : (state.readers ()).place.woken = true := by
      rw [hreturned]
      rfl
    refine .inr ⟨hreturned, ?_⟩
    by_cases hshares : Shares (state.readers ()) (state.writers ())
    · have hprinted := hreader.printed hwoken fun _ _ => hshares.2
      rw [hreturned] at hprinted
      exact absurd ⟨hreturned, hprinted⟩ hnot
    · have hblank := hpaired.printedBlank hwoken hshares
      rw [hreturned] at hblank
      exact hblank
  · exact absurd hcrashed hreader.running
  · exact .inl hwaits

/-- One reader and one writer, and whatever earlier runs have left: when neither
can go on, the reader has printed the writer's floats exactly if the writer opened
the segment and the semaphore after the reader had made them; otherwise it waits for
good or has printed zeros. -/
theorem printed_iff_inOrder (hvalue : ∃ i < floatCount, value i ≠ zero)
    {schedule : List (Action Unit Unit)} {last : State Unit Unit α}
    (hrun : (handOff zero value segments semaphores).run schedule = some last)
    (hstuck : (handOff zero value segments semaphores).Stuck last) :
    (((last.readers ()).place = .returned ∧ (last.readers ()).printed =
        (List.range floatCount).map value) ↔
      (handOff zero value segments semaphores).Meets InOrder schedule) ∧
    (¬ (handOff zero value segments semaphores).Meets InOrder schedule →
      (last.readers ()).place = .semWait ∨
        (last.readers ()).place = .returned ∧
          (last.readers ()).printed = List.replicate floatCount zero) := by
  obtain ⟨hsound, hpaired⟩ := paired_invariant.run hrun
  refine (fun hiff => ⟨hiff, fun hnot =>
    waits_or_blank hpaired hsound hstuck (mt hiff.mp hnot)⟩) ?_
  rw [printed_iff_onTrack hpaired hsound hvalue hstuck]
  apply last_iff_meets (P := fun state =>
    OnTrack (state.readers ()) (state.writers ())) paired_invariant _ _ hrun
  · constructor <;> simp [handOff, Writer.start, WriterPlace.mapped]
  · exact fun hstate hstep => onTrack_step hstate.2 hstate.1 hstep

theorem printed_iff_inOrder_session :
    (handOff 0 scaled (Registry.empty ⟨false, fun _ => 0⟩)
      (Registry.empty 0)).Meets InOrder session := by
  obtain ⟨last, hlast, hends⟩ := Option.map_eq_some_iff.mp run_session
  simp only [Prod.mk.injEq] at hends
  obtain ⟨hreader, hwriter, hprinted⟩ := hends
  have hstuck : (handOff 0 scaled (Registry.empty ⟨false, fun _ => 0⟩)
      (Registry.empty 0)).Stuck last := by
    rintro (⟨⟨⟩⟩ | ⟨⟨⟩⟩)
    · exact runReader_eq_none_iff.mpr (.inl hreader)
    · exact runWriter_eq_none_iff.mpr (.inl hwriter)
  have hvalue : ∃ i < floatCount, scaled i ≠ 0 :=
    ⟨1, by decide, by decide⟩
  exact (printed_iff_inOrder hvalue hlast hstuck).1.mp ⟨hreader, hprinted⟩

end Pair

end HandOff

end OsCourse
