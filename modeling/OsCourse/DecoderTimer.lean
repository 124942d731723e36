/-
The threads of the image decoder and its timer.  `Decode` counts its pixels
under `progress_mutex`, and `TryTest` takes the same mutex on top of whichever
thread the system delivers SIGALRM to.
-/
import OsCourse.TransitionSystem
import OsCourse.LockOwnership
import OsCourse.PixelDecoders

namespace OsCourse

namespace DecoderTimer

open TransitionSystem LockOwnership Decoder

/-- The main thread and the `Decode` threads. -/
inductive Thread (n : Nat) where
  | main
  | decode (tryNumber : Fin n)
deriving Repr, DecidableEq

/-- What the threads find: the contents of `encrypt.bin`, and which of their
output files can be opened. -/
structure Files (n : Nat) where
  encrypt : Option (List UInt8)
  ppmOpens : Fin n → Bool
  txtOpens : Fin n → Bool

inductive MainPlace where
  | create (next : Nat)
  | join (next : Nat)
  | returned
deriving Repr, DecidableEq

/-- The statement of the loop of `Decode`, with its `i`. -/
inductive DecodePlace where
  | unstarted
  | loop (i : Nat)
  | lock (i : Nat)
  | increment (i : Nat)
  | unlock (i : Nat)
  | finished
deriving Repr, DecidableEq

/-- The statement of `TryTest`. -/
inductive HandlerPlace where
  | lock
  | print
  | unlock
deriving Repr, DecidableEq

/-- The decoder with the owner of `progress_mutex`; a thread with a handler runs
that first, and SIGALRM is blocked on it.  `ticks` is the progress that was
printed. -/
structure State (n : Nat) where
  owner : Option (Thread n)
  main : MainPlace
  decode : Fin n → DecodePlace
  handler : Thread n → Option HandlerPlace
  progress : Fin n → Nat
  ticks : List (List Nat)

inductive Action (n : Nat) where
  | run (thread : Thread n)
  | sigalrm (thread : Thread n)
deriving Repr, DecidableEq

/-- The loop of a `Decode` thread reads pixel `i`. -/
def Files.reads {n : Nat} (files : Files n) (tryNumber : Fin n) (i : Nat) :
    Bool :=
  match files.encrypt with
  | none => false
  | some bytes => files.ppmOpens tryNumber && files.txtOpens tryNumber &&
      decide (i < totalPixels) && decide (i < bytes.length / 3)

namespace State

variable {n : Nat}

def start (n : Nat) : State n :=
  ⟨none, .create 0, fun _ => .unstarted, fun _ => none, fun _ => 0, []⟩

def goto (state : State n) (tryNumber : Fin n) (place : DecodePlace) :
    State n :=
  { state with decode := Function.update state.decode tryNumber place }

def handle (state : State n) (thread : Thread n)
    (place : Option HandlerPlace) : State n :=
  { state with handler := Function.update state.handler thread place }

def tryTest (state : State n) (thread : Thread n) :
    HandlerPlace → Option (State n)
  | .lock =>
      if state.owner = none then
        some (({ state with owner := some thread } : State n).handle thread
          (some .print))
      else none
  | .print =>
      some (({ state with
        ticks := state.ticks ++ [List.ofFn state.progress] } : State n).handle
          thread (some .unlock))
  | .unlock =>
      some (({ state with owner := none } : State n).handle thread none)

/-- The next step of `main`; it joins the threads in order. -/
def runMain (state : State n) : Option (State n) :=
  match state.main with
  | .create next =>
      if hnext : next < n then
        some (({ state with main := .create (next + 1) } : State n).goto
          ⟨next, hnext⟩ (.loop 0))
      else some { state with main := .join 0 }
  | .join next =>
      if hnext : next < n then
        if state.decode ⟨next, hnext⟩ = .finished then
          some { state with main := .join (next + 1) }
        else none
      else some { state with main := .returned }
  | .returned => none

def runDecode (files : Files n) (state : State n) (tryNumber : Fin n) :
    Option (State n) :=
  match state.decode tryNumber with
  | .unstarted => none
  | .loop i =>
      some (state.goto tryNumber (if files.reads tryNumber i then .lock i
        else .finished))
  | .lock i =>
      if state.owner = none then
        some (({ state with owner := some (.decode tryNumber) } :
          State n).goto tryNumber (.increment i))
      else none
  | .increment i =>
      some (({ state with
        progress := Function.update state.progress tryNumber
          (state.progress tryNumber + 1) } : State n).goto tryNumber
            (.unlock i))
  | .unlock i =>
      some (({ state with owner := none } : State n).goto tryNumber
        (.loop (i + 1)))
  | .finished => none

/-- The thread exists and has not ended. -/
def alive (state : State n) : Thread n → Bool
  | .main => state.main != .returned
  | .decode tryNumber => state.decode tryNumber != .unstarted &&
      state.decode tryNumber != .finished

def step (files : Files n) (state : State n) : Action n → Option (State n)
  | .run thread =>
      match state.handler thread with
      | some place => state.tryTest thread place
      | none =>
          match thread with
          | .main => state.runMain
          | .decode tryNumber => state.runDecode files tryNumber
  | .sigalrm thread =>
      if state.handler thread = none ∧ state.alive thread = true then
        some (state.handle thread (some .lock))
      else none

end State

def decoder {n : Nat} (files : Files n) : System (State n) (Action n) where
  start := State.start n
  step := State.step files

def HandlerPlace.inSection : HandlerPlace → Bool
  | .lock => false
  | .print | .unlock => true

def DecodePlace.inSection : DecodePlace → Bool
  | .increment _ | .unlock _ => true
  | _ => false

variable {n : Nat} {files : Files n} {state next : State n}

/-- The thread's next statement is to lock the mutex. -/
def TriesToLock (state : State n) (thread : Thread n) : Prop :=
  state.handler thread = some .lock ∨
    (state.handler thread = none ∧ ∃ tryNumber i,
      thread = .decode tryNumber ∧ state.decode tryNumber = .lock i)

/-- No owner of the mutex tries to lock it, and the owner can come to release
it. -/
def NeverSelfLocked (files : Files n) (state : State n) : Prop :=
  (∀ thread, TriesToLock state thread → state.owner ≠ some thread) ∧
    (state.owner ≠ none → ∃ schedule later,
      (decoder files).runFrom state schedule = some later ∧
        later.owner = none)

/-- SIGALRM is not delivered to the thread that owns the mutex. -/
def SparesOwner (state : State n) (action : Action n) : Prop :=
  ∀ thread, action = .sigalrm thread → state.owner ≠ some thread

instance (state : State n) : (action : Action n) →
    Decidable (SparesOwner state action)
  | .run _ => isTrue fun _ heq => by cases heq
  | .sigalrm thread => decidable_of_iff (state.owner ≠ some thread)
      ⟨fun hne _ heq => (Action.sigalrm.inj heq) ▸ hne,
        fun hspares => hspares thread rfl⟩

/-- What the handler of a thread holds. -/
def HandlerHolds (state : State n) (thread : Thread n) : Prop :=
  ∃ place, state.handler thread = some place ∧ place.inSection = true

/-- What a thread's own code holds. -/
def CodeHolds (state : State n) (thread : Thread n) : Prop :=
  ∃ tryNumber, thread = .decode tryNumber ∧
    (state.decode tryNumber).inSection = true

def Holds (state : State n) (thread : Thread n) : Prop :=
  HandlerHolds state thread ∨ CodeHolds state thread

/-- The owner of the mutex is where the mutex is held, a handler that holds it
has not interrupted a holder, and threads wait to be created. -/
structure Sound (state : State n) : Prop where
  owned : OwnedBy state.owner (Holds state)
  apart : ∀ thread, HandlerHolds state thread → ¬ CodeHolds state thread
  created : ∀ next, state.main = .create next → ∀ tryNumber : Fin n,
    next ≤ tryNumber.val → state.decode tryNumber = .unstarted

section Moves

variable {thread other : Thread n} {tryNumber : Fin n}

theorem handlerHolds_congr
    (hhandler : next.handler thread = state.handler thread) :
    HandlerHolds next thread ↔ HandlerHolds state thread := by
  rw [HandlerHolds, HandlerHolds, hhandler]

theorem codeHolds_congr (hcode : ∀ tryNumber, thread = .decode tryNumber →
      next.decode tryNumber = state.decode tryNumber) :
    CodeHolds next thread ↔ CodeHolds state thread := by
  constructor
  · rintro ⟨tryNumber, hthread, hplace⟩
    exact ⟨tryNumber, hthread, hcode tryNumber hthread ▸ hplace⟩
  · rintro ⟨tryNumber, hthread, hplace⟩
    exact ⟨tryNumber, hthread, (hcode tryNumber hthread).symm ▸ hplace⟩

theorem handlerHolds_some {place : HandlerPlace}
    (hhandler : state.handler thread = some place) :
    HandlerHolds state thread ↔ place.inSection = true := by
  simp [HandlerHolds, hhandler]

theorem not_handlerHolds_none (hhandler : state.handler thread = none) :
    ¬ HandlerHolds state thread := by
  simp [HandlerHolds, hhandler]

theorem codeHolds_decode : CodeHolds state (.decode tryNumber) ↔
    (state.decode tryNumber).inSection = true := by
  simp [CodeHolds]

theorem codeHolds_goto {place : DecodePlace} :
    CodeHolds (state.goto tryNumber place) (.decode tryNumber) ↔
      place.inSection = true := by
  simp [codeHolds_decode, State.goto]

theorem handlerHolds_handle_of_ne {place : Option HandlerPlace}
    (hne : other ≠ thread) :
    HandlerHolds (state.handle thread place) other ↔
      HandlerHolds state other :=
  handlerHolds_congr (Function.update_of_ne hne _ _)

theorem codeHolds_goto_of_ne {place : DecodePlace}
    (hne : other ≠ .decode tryNumber) :
    CodeHolds (state.goto tryNumber place) other ↔ CodeHolds state other := by
  apply codeHolds_congr
  rintro otherNumber rfl
  exact Function.update_of_ne (fun heq => hne (congrArg _ heq)) _ _

end Moves

/-- Only the thread that runs changes what it holds. -/
theorem holds_handle_of_ne {thread other : Thread n}
    {place : Option HandlerPlace} (hne : other ≠ thread) :
    Holds (state.handle thread place) other ↔ Holds state other :=
  or_congr (handlerHolds_handle_of_ne hne) Iff.rfl

theorem holds_goto_of_ne {tryNumber : Fin n} {other : Thread n}
    {place : DecodePlace} (hne : other ≠ .decode tryNumber) :
    Holds (state.goto tryNumber place) other ↔ Holds state other :=
  or_congr Iff.rfl (codeHolds_goto_of_ne hne)

/-- A thread that stays inside or outside its section changes nothing. -/
theorem holds_goto_of_same {tryNumber : Fin n} {place : DecodePlace}
    (hsame : place.inSection = (state.decode tryNumber).inSection)
    (other : Thread n) :
    Holds (state.goto tryNumber place) other ↔ Holds state other := by
  by_cases heq : other = .decode tryNumber
  · subst other
    apply or_congr Iff.rfl
    rw [codeHolds_goto, codeHolds_decode, hsame]
  · exact holds_goto_of_ne heq

section Steps

variable {thread : Thread n} {tryNumber : Fin n}

/-- The steps of the loop of `Decode`, with what each needs. -/
inductive DecodeMoves (files : Files n) (state : State n)
    (tryNumber : Fin n) : State n → Prop where
  | loop (i : Nat) (hplace : state.decode tryNumber = .loop i) :
      DecodeMoves files state tryNumber (state.goto tryNumber
        (if files.reads tryNumber i then .lock i else .finished))
  | lock (i : Nat) (hplace : state.decode tryNumber = .lock i)
      (hfree : state.owner = none) :
      DecodeMoves files state tryNumber
        (({ state with owner := some (.decode tryNumber) } : State n).goto
          tryNumber (.increment i))
  | increment (i : Nat) (hplace : state.decode tryNumber = .increment i) :
      DecodeMoves files state tryNumber
        (({ state with
          progress := Function.update state.progress tryNumber
            (state.progress tryNumber + 1) } : State n).goto tryNumber
              (.unlock i))
  | unlock (i : Nat) (hplace : state.decode tryNumber = .unlock i) :
      DecodeMoves files state tryNumber
        (({ state with owner := none } : State n).goto tryNumber
          (.loop (i + 1)))

theorem runDecode_moves
    (hstep : state.runDecode files tryNumber = some next) :
    DecodeMoves files state tryNumber next := by
  unfold State.runDecode at hstep
  cases hplace : state.decode tryNumber with
  | unstarted
  | finished => simp [hplace] at hstep
  | loop i =>
      simp only [hplace, Option.some.injEq] at hstep
      subst next
      exact .loop i hplace
  | lock i =>
      simp only [hplace, Option.ite_none_right_eq_some,
        Option.some.injEq] at hstep
      obtain ⟨hfree, rfl⟩ := hstep
      exact .lock i hplace hfree
  | increment i =>
      simp only [hplace, Option.some.injEq] at hstep
      subst next
      exact .increment i hplace
  | unlock i =>
      simp only [hplace, Option.some.injEq] at hstep
      subst next
      exact .unlock i hplace

/-- A step of `main` creates the next thread or goes on to its joins. -/
theorem runMain_cases (hstep : state.runMain = some next) :
    (∃ (first : Nat) (hfirst : first < n), state.main = .create first ∧
        next = ({ state with main := .create (first + 1) } : State n).goto
          ⟨first, hfirst⟩ (.loop 0)) ∨
      ∃ place, (∀ first, place ≠ .create first) ∧
        next = { state with main := place } := by
  unfold State.runMain at hstep
  cases hmain : state.main with
  | create first =>
      simp only [hmain] at hstep
      split at hstep
      · rename_i hfirst
        rw [Option.some.injEq] at hstep
        exact .inl ⟨first, hfirst, rfl, hstep.symm⟩
      · rw [Option.some.injEq] at hstep
        exact .inr ⟨_, by simp, hstep.symm⟩
  | join first =>
      simp only [hmain] at hstep
      split at hstep
      · rw [Option.ite_none_right_eq_some, Option.some.injEq] at hstep
        exact .inr ⟨_, by simp, hstep.2.symm⟩
      · rw [Option.some.injEq] at hstep
        exact .inr ⟨_, by simp, hstep.symm⟩
  | returned => simp [hmain] at hstep

/-- A handler only holds the mutex where it has not interrupted a holder. -/
theorem apart_handle (hsound : Sound state) {place : Option HandlerPlace}
    (hself : (∃ holding, place = some holding ∧ holding.inSection = true) →
      ¬ CodeHolds state thread) :
    ∀ other, HandlerHolds (state.handle thread place) other →
      ¬ CodeHolds (state.handle thread place) other := by
  intro other hholds
  by_cases heq : other = thread
  · subst other
    apply hself
    simpa [HandlerHolds, State.handle] using hholds
  · exact hsound.apart other ((handlerHolds_handle_of_ne heq).mp hholds)

theorem apart_goto (hsound : Sound state) {place : DecodePlace}
    (hself : place.inSection = true →
      ¬ HandlerHolds state (.decode tryNumber)) :
    ∀ other, HandlerHolds (state.goto tryNumber place) other →
      ¬ CodeHolds (state.goto tryNumber place) other := by
  intro other hholds hcode
  by_cases heq : other = .decode tryNumber
  · subst other
    exact hself (codeHolds_goto.mp hcode) hholds
  · exact hsound.apart other hholds ((codeHolds_goto_of_ne heq).mp hcode)

theorem created_goto (hsound : Sound state) {place : DecodePlace}
    (hstarted : state.decode tryNumber ≠ .unstarted) :
    ∀ next, state.main = .create next → ∀ other : Fin n, next ≤ other.val →
      (state.goto tryNumber place).decode other = .unstarted := by
  intro next hmain other hle
  have hother := hsound.created next hmain other hle
  by_cases heq : other = tryNumber
  · exact absurd (heq ▸ hother) hstarted
  · exact (Function.update_of_ne heq _ _).trans hother

theorem sound_tryTest (hsound : Sound state) {place : HandlerPlace}
    (hhandler : state.handler thread = some place)
    (hstep : state.tryTest thread place = some next) : Sound next := by
  cases place with
  | lock =>
      simp only [State.tryTest, Option.ite_none_right_eq_some,
        Option.some.injEq] at hstep
      obtain ⟨hfree, rfl⟩ := hstep
      have howned := hsound.owned
      rw [hfree] at howned
      have hcode : ¬ CodeHolds state thread := fun hcode =>
        howned.free thread (.inr hcode)
      refine ⟨?_, apart_handle hsound fun _ => hcode, hsound.created⟩
      apply howned.acquire
      · exact .inl ⟨.print, Function.update_self _ _ _, rfl⟩
      · exact fun other hne => holds_handle_of_ne hne
  | print =>
      simp only [State.tryTest, Option.some.injEq] at hstep
      subst next
      have hholds : HandlerHolds state thread := ⟨.print, hhandler, rfl⟩
      have hcode := hsound.apart thread hholds
      refine ⟨hsound.owned.keep fun other => ?_,
        apart_handle hsound fun _ => hcode, hsound.created⟩
      by_cases heq : other = thread
      · subst other
        exact iff_of_true (.inl ⟨.unlock, Function.update_self _ _ _, rfl⟩)
          (.inl hholds)
      · exact holds_handle_of_ne heq
  | unlock =>
      simp only [State.tryTest, Option.some.injEq] at hstep
      subst next
      have hholds : HandlerHolds state thread := ⟨.unlock, hhandler, rfl⟩
      have hcode := hsound.apart thread hholds
      refine ⟨hsound.owned.release (.inl hholds) ?_
        fun other hne => holds_handle_of_ne hne,
        apart_handle hsound fun _ => hcode, hsound.created⟩
      rintro (hafter | hafter)
      · exact not_handlerHolds_none (Function.update_self _ _ _) hafter
      · exact hcode hafter

theorem sound_runDecode (hsound : Sound state)
    (hhandler : state.handler (.decode tryNumber) = none)
    (hstep : state.runDecode files tryNumber = some next) : Sound next := by
  have hnone := not_handlerHolds_none hhandler
  cases runDecode_moves hstep with
  | loop i hplace =>
      refine ⟨hsound.owned.keep (holds_goto_of_same ?_),
        apart_goto hsound fun _ => hnone,
        created_goto hsound (by simp [hplace])⟩
      rw [hplace]
      split <;> rfl
  | lock i hplace hfree =>
      have howned := hsound.owned
      rw [hfree] at howned
      refine ⟨?_, apart_goto hsound fun _ => hnone,
        created_goto hsound (by simp [hplace])⟩
      apply howned.acquire
      · exact .inr (codeHolds_goto.mpr rfl)
      · exact fun other hne => holds_goto_of_ne hne
  | increment i hplace =>
      refine ⟨hsound.owned.keep (holds_goto_of_same ?_),
        apart_goto hsound fun _ => hnone,
        created_goto hsound (by simp [hplace])⟩
      rw [hplace]
      rfl
  | unlock i hplace =>
      have hholds : CodeHolds state (.decode tryNumber) :=
        codeHolds_decode.mpr (by rw [hplace]; rfl)
      refine ⟨hsound.owned.release (.inr hholds) ?_
        fun other hne => holds_goto_of_ne hne,
        apart_goto hsound fun _ => hnone,
        created_goto hsound (by simp [hplace])⟩
      rintro (hafter | hafter)
      · exact hnone hafter
      · have hsection := codeHolds_goto.mp hafter
        contradiction

theorem sound_runMain (hsound : Sound state)
    (hstep : state.runMain = some next) : Sound next := by
  rcases runMain_cases hstep with
    ⟨first, hfirst, hmain, rfl⟩ | ⟨place, hplace, rfl⟩
  · have hunstarted := hsound.created first hmain ⟨first, hfirst⟩
      (Nat.le_refl first)
    refine ⟨hsound.owned.keep (holds_goto_of_same ?_),
      apart_goto hsound (by simp [DecodePlace.inSection]), ?_⟩
    · rw [hunstarted]
      rfl
    · intro second hsecond other hle
      obtain rfl : first + 1 = second := MainPlace.create.inj hsecond
      have hne : other ≠ ⟨first, hfirst⟩ := by
        rintro rfl
        exact Nat.not_succ_le_self first hle
      exact (Function.update_of_ne hne _ _).trans
        (hsound.created first hmain other (Nat.le_of_succ_le hle))
  · exact ⟨hsound.owned, hsound.apart, fun first heq =>
      absurd heq (hplace first)⟩

theorem step_sigalrm
    (hstep : state.step files (.sigalrm thread) = some next) :
    state.handler thread = none ∧ next = state.handle thread (some .lock) := by
  rw [State.step, Option.ite_none_right_eq_some, Option.some.injEq] at hstep
  exact ⟨hstep.1.1, hstep.2.symm⟩

theorem sound_sigalrm (hsound : Sound state)
    (hhandler : state.handler thread = none) :
    Sound (state.handle thread (some .lock)) := by
  refine ⟨hsound.owned.keep fun other => ?_,
    apart_handle hsound (by simp [HandlerPlace.inSection]), hsound.created⟩
  by_cases heq : other = thread
  · subst other
    apply or_congr _ Iff.rfl
    apply iff_of_false
    · rw [handlerHolds_some (Function.update_self _ _ _)]
      simp [HandlerPlace.inSection]
    · exact not_handlerHolds_none hhandler
  · exact holds_handle_of_ne heq

/-- The steps of a thread: its handler if it has one, else its own code. -/
theorem step_run (hstep : state.step files (.run thread) = some next) :
    (∃ place, state.handler thread = some place ∧
        state.tryTest thread place = some next) ∨
      (state.handler thread = none ∧ thread = .main ∧
        state.runMain = some next) ∨
      ∃ tryNumber, state.handler thread = none ∧ thread = .decode tryNumber ∧
        state.runDecode files tryNumber = some next := by
  unfold State.step at hstep
  cases hhandler : state.handler thread with
  | some place => exact .inl ⟨place, rfl, by simpa only [hhandler] using hstep⟩
  | none =>
      simp only [hhandler] at hstep
      cases thread with
      | main => exact .inr (.inl ⟨rfl, rfl, hstep⟩)
      | decode tryNumber => exact .inr (.inr ⟨tryNumber, rfl, rfl, hstep⟩)

theorem sound_invariant : Invariant (decoder files) Sound where
  start := by
    refine ⟨fun thread => ?_, ?_, fun _ _ _ _ => rfl⟩
    · apply iff_of_false
      · simp [decoder, State.start]
      · rintro (⟨_, hholds, _⟩ | ⟨_, _, hholds⟩) <;>
          simp [decoder, State.start, DecodePlace.inSection] at hholds
    · rintro thread ⟨_, hholds, _⟩
      simp [decoder, State.start] at hholds
  step := by
    intro state next action hsound hstep
    cases action with
    | run thread =>
        rcases step_run hstep with ⟨place, hhandler, hnext⟩ |
          ⟨_, rfl, hnext⟩ | ⟨tryNumber, hhandler, rfl, hnext⟩
        · exact sound_tryTest hsound hhandler hnext
        · exact sound_runMain hsound hnext
        · exact sound_runDecode hsound hhandler hnext
    | sigalrm thread =>
        change state.step files (.sigalrm thread) = some next at hstep
        obtain ⟨hhandler, rfl⟩ := step_sigalrm hstep
        exact sound_sigalrm hsound hhandler

/-- `TryTest` leaves the other threads' handlers and all loops alone. -/
theorem tryTest_frame {place : HandlerPlace}
    (hstep : state.tryTest thread place = some next) :
    next.decode = state.decode ∧
      ∀ other, other ≠ thread → next.handler other = state.handler other := by
  cases place with
  | lock =>
      simp only [State.tryTest, Option.ite_none_right_eq_some,
        Option.some.injEq] at hstep
      obtain ⟨_, rfl⟩ := hstep
      exact ⟨rfl, fun _ hne => Function.update_of_ne hne _ _⟩
  | print
  | unlock =>
      simp only [State.tryTest, Option.some.injEq] at hstep
      subst next
      exact ⟨rfl, fun _ hne => Function.update_of_ne hne _ _⟩

/-- A step of `main` only starts a thread at its loop. -/
theorem runMain_frame (hstep : state.runMain = some next) :
    next.owner = state.owner ∧ next.handler = state.handler ∧
      ∀ other, CodeHolds next other → CodeHolds state other := by
  rcases runMain_cases hstep with
    ⟨first, hfirst, _, rfl⟩ | ⟨place, _, rfl⟩
  · refine ⟨rfl, rfl, fun other hcode => ?_⟩
    by_cases heq : other = .decode ⟨first, hfirst⟩
    · subst other
      have hsection := codeHolds_goto.mp hcode
      contradiction
    · exact (codeHolds_goto_of_ne heq).mp hcode
  · exact ⟨rfl, rfl, fun _ => id⟩

/-- A `Decode` thread locks a free mutex, unlocks its own or leaves it alone. -/
theorem runDecode_frame
    (hstep : state.runDecode files tryNumber = some next) :
    (next.owner = state.owner ∨ state.owner = none ∨
        CodeHolds state (.decode tryNumber)) ∧
      next.handler = state.handler ∧
      ∀ other, other ≠ .decode tryNumber → CodeHolds next other →
        CodeHolds state other := by
  cases runDecode_moves hstep with
  | loop i
  | increment i =>
      exact ⟨.inl rfl, rfl, fun _ hne => (codeHolds_goto_of_ne hne).mp⟩
  | lock i hplace hfree =>
      exact ⟨.inr (.inl hfree), rfl,
        fun _ hne => (codeHolds_goto_of_ne hne).mp⟩
  | unlock i hplace =>
      refine ⟨.inr (.inr ?_), rfl, fun _ hne => (codeHolds_goto_of_ne hne).mp⟩
      rw [codeHolds_decode, hplace]
      rfl

end Steps

/-- No handler runs on a thread that holds the mutex in its loop. -/
def Uninterrupted (state : State n) : Prop :=
  ∀ thread, CodeHolds state thread → state.handler thread = none

/-- A thread locks itself out exactly where its handler has interrupted the
section of its loop. -/
theorem uninterrupted_iff (hsound : Sound state) :
    (∀ thread, TriesToLock state thread → state.owner ≠ some thread) ↔
      Uninterrupted state := by
  constructor
  · intro hfree thread hcode
    have howner := (hsound.owned thread).mpr (.inr hcode)
    cases hhandler : state.handler thread with
    | none => rfl
    | some place =>
        cases place with
        | lock => exact absurd howner (hfree thread (.inl hhandler))
        | print => exact absurd hcode (hsound.apart thread ⟨_, hhandler, rfl⟩)
        | unlock => exact absurd hcode (hsound.apart thread ⟨_, hhandler, rfl⟩)
  · intro huninterrupted thread htries howner
    have hholds := (hsound.owned thread).mp howner
    rcases htries with hhandler | ⟨hhandler, tryNumber, i, rfl, hplace⟩
    · rcases hholds with hholds | hcode
      · have hsection := (handlerHolds_some hhandler).mp hholds
        contradiction
      · rw [huninterrupted thread hcode] at hhandler
        contradiction
    · rcases hholds with hholds | hcode
      · exact not_handlerHolds_none hhandler hholds
      · rw [codeHolds_decode, hplace] at hcode
        contradiction

section Release

variable {thread : Thread n} {tryNumber : Fin n}

theorem handler_unlocks (files : Files n)
    (hhandler : state.handler thread = some .unlock) :
    ∃ later, (decoder files).runFrom state [.run thread] = some later ∧
      later.owner = none :=
  ⟨({ state with owner := none } : State n).handle thread none, by
    simp [System.runFrom_cons, decoder, State.step, hhandler,
      State.tryTest], rfl⟩

theorem code_unlocks (files : Files n) {i : Nat}
    (hhandler : state.handler (.decode tryNumber) = none)
    (hplace : state.decode tryNumber = .unlock i) :
    ∃ later, (decoder files).runFrom state [.run (.decode tryNumber)] =
        some later ∧
      later.owner = none :=
  ⟨({ state with owner := none } : State n).goto tryNumber (.loop (i + 1)), by
    simp [System.runFrom_cons, decoder, State.step, hhandler,
      State.runDecode, hplace], rfl⟩

/-- An owner that is not locked out has at most two more steps to its unlock. -/
theorem owner_unlocks (files : Files n) (hsound : Sound state)
    (huninterrupted : Uninterrupted state)
    (howner : state.owner = some thread) :
    ∃ schedule later, (decoder files).runFrom state schedule = some later ∧
      later.owner = none := by
  rcases (hsound.owned thread).mp howner with
    ⟨place, hhandler, hsection⟩ | hcode
  · cases place with
    | lock => contradiction
    | print =>
        obtain ⟨later, hlater, hnone⟩ := @handler_unlocks n
          (({ state with
            ticks := state.ticks ++ [List.ofFn state.progress] } :
              State n).handle thread (some .unlock)) thread files
          (Function.update_self _ _ _)
        refine ⟨[.run thread, .run thread], later, ?_, hnone⟩
        rw [System.runFrom_cons]
        simp only [decoder, State.step, hhandler, State.tryTest,
          Option.bind_some] at hlater ⊢
        exact hlater
    | unlock => exact ⟨_, handler_unlocks files hhandler⟩
  · have hhandler := huninterrupted thread hcode
    obtain ⟨tryNumber, rfl, hsection⟩ := hcode
    cases hplace : state.decode tryNumber with
    | increment i =>
        obtain ⟨later, hlater, hnone⟩ := @code_unlocks n
          (({ state with
            progress := Function.update state.progress tryNumber
              (state.progress tryNumber + 1) } : State n).goto tryNumber
                (.unlock i)) tryNumber files i hhandler
          (Function.update_self _ _ _)
        refine ⟨[.run (.decode tryNumber), .run (.decode tryNumber)], later,
          ?_, hnone⟩
        rw [System.runFrom_cons]
        simp only [decoder, State.step, hhandler, State.runDecode, hplace,
          Option.bind_some] at hlater ⊢
        exact hlater
    | unlock i => exact ⟨_, code_unlocks files hhandler hplace⟩
    | unstarted
    | loop _
    | lock _
    | finished => simp [hplace, DecodePlace.inSection] at hsection

end Release

theorem neverSelfLocked_iff_uninterrupted (files : Files n)
    (hsound : Sound state) :
    NeverSelfLocked files state ↔ Uninterrupted state := by
  rw [NeverSelfLocked, uninterrupted_iff hsound]
  constructor
  · exact And.left
  · intro huninterrupted
    refine ⟨huninterrupted, fun hne => ?_⟩
    obtain ⟨thread, howner⟩ := Option.ne_none_iff_exists'.mp hne
    exact owner_unlocks files hsound huninterrupted howner

/-- A step interrupts a holder exactly if it delivers SIGALRM to the owner. -/
theorem uninterrupted_step {action : Action n} (hsound : Sound state)
    (huninterrupted : Uninterrupted state)
    (hstep : state.step files action = some next) :
    Uninterrupted next ↔ SparesOwner state action := by
  cases action with
  | run thread =>
      refine iff_of_true ?_ fun _ heq => by contradiction
      intro other hcode
      rcases step_run hstep with ⟨place, hhandler, hnext⟩ |
        ⟨_, rfl, hnext⟩ | ⟨tryNumber, hhandler, rfl, hnext⟩
      · obtain ⟨hdecode, hothers⟩ := tryTest_frame hnext
        have hbefore : CodeHolds state other :=
          (codeHolds_congr fun _ _ => congrFun hdecode _).mp hcode
        have hnone := huninterrupted other hbefore
        by_cases heq : other = thread
        · rw [heq, hhandler] at hnone
          contradiction
        · rw [hothers other heq, hnone]
      · obtain ⟨_, hhandlers, hcodes⟩ := runMain_frame hnext
        rw [hhandlers]
        exact huninterrupted other (hcodes other hcode)
      · obtain ⟨_, hhandlers, hcodes⟩ := runDecode_frame hnext
        rw [hhandlers]
        by_cases heq : other = .decode tryNumber
        · rw [heq, hhandler]
        · exact huninterrupted other (hcodes other heq hcode)
  | sigalrm thread =>
      obtain ⟨hidle, rfl⟩ := step_sigalrm hstep
      have hself : (state.handle thread (some .lock)).handler thread =
          some .lock := Function.update_self _ _ _
      constructor
      · intro hafter target heq howner
        obtain rfl : thread = target := Action.sigalrm.inj heq
        rcases (hsound.owned thread).mp howner with hholds | hcode
        · exact not_handlerHolds_none hidle hholds
        · have hnone := hafter thread hcode
          rw [hself] at hnone
          contradiction
      · intro hspares other hcode
        by_cases heq : other = thread
        · exact absurd ((hsound.owned other).mpr (.inr hcode))
            (heq ▸ hspares thread rfl)
        · exact (Function.update_of_ne heq _ _).trans
            (huninterrupted other hcode)

/-- The decoder never locks itself out in exactly the runs in which no SIGALRM
goes to the owner of the mutex. -/
theorem neverSelfLocked_iff {schedule : List (Action n)} {last : State n}
    (hrun : (decoder files).run schedule = some last) :
    (decoder files).Always (NeverSelfLocked files) schedule ↔
      (decoder files).Meets SparesOwner schedule := by
  apply always_iff_meets sound_invariant _ _ hrun
  · apply (neverSelfLocked_iff_uninterrupted files sound_invariant.start).mpr
    rintro thread ⟨tryNumber, _, hsection⟩
    simp [decoder, State.start, DecodePlace.inSection] at hsection
  · intro state next action hsound hnever hstep
    have hnext := sound_invariant.step hsound hstep
    have huninterrupted :=
      (neverSelfLocked_iff_uninterrupted files hsound).mp hnever
    rw [neverSelfLocked_iff_uninterrupted files hnext]
    exact uninterrupted_step hsound huninterrupted hstep

/-- The handler of a thread waits for what the thread holds. -/
def SelfLocked (thread : Thread n) (state : State n) : Prop :=
  state.owner = some thread ∧ state.handler thread = some .lock

theorem selfLocked_step {thread : Thread n} {action : Action n}
    (hsound : Sound state) (hlocked : SelfLocked thread state)
    (hstep : state.step files action = some next) :
    SelfLocked thread next := by
  obtain ⟨howner, hhandler⟩ := hlocked
  cases action with
  | run other =>
      rcases step_run hstep with ⟨place, hplace, hnext⟩ |
        ⟨_, rfl, hnext⟩ | ⟨tryNumber, hnone, rfl, hnext⟩
      · have hne : thread ≠ other := by
          rintro rfl
          obtain rfl := Option.some.inj (hplace.symm.trans hhandler)
          simp [State.tryTest, howner] at hnext
        have hsame := (tryTest_frame hnext).2 thread hne
        refine ⟨?_, hsame.trans hhandler⟩
        cases place with
        | lock => simp [State.tryTest, howner] at hnext
        | print =>
            simp only [State.tryTest, Option.some.injEq] at hnext
            subst next
            exact howner
        | unlock =>
            have hother := (hsound.owned other).mpr
              (.inl ⟨.unlock, hplace, rfl⟩)
            exact absurd (Option.some.inj (howner.symm.trans hother)) hne
      · obtain ⟨howners, hhandlers, _⟩ := runMain_frame hnext
        exact ⟨howners.trans howner, (congrFun hhandlers _).trans hhandler⟩
      · obtain ⟨howners, hhandlers, _⟩ := runDecode_frame hnext
        refine ⟨?_, (congrFun hhandlers _).trans hhandler⟩
        rcases howners with hsame | hfree | hcode
        · exact hsame.trans howner
        · rw [hfree] at howner
          contradiction
        · have hother := (hsound.owned _).mpr (.inr hcode)
          rw [← Option.some.inj (howner.symm.trans hother),
            hhandler] at hnone
          contradiction
  | sigalrm other =>
      obtain ⟨hidle, rfl⟩ := step_sigalrm hstep
      have hne : thread ≠ other := by
        rintro rfl
        rw [hhandler] at hidle
        contradiction
      exact ⟨howner, (Function.update_of_ne hne _ _).trans hhandler⟩

/-- A thread that has locked itself out stays so, and the mutex with it. -/
theorem selfLocked_forever {thread : Thread n} (hsound : Sound state)
    (hlocked : SelfLocked thread state) {schedule : List (Action n)}
    {later : State n}
    (hrun : (decoder files).runFrom state schedule = some later) :
    SelfLocked thread later := by
  have hkeep : ∀ {state next : State n} {action : Action n},
      (Sound state ∧ SelfLocked thread state) →
      (decoder files).step state action = some next →
      Sound next ∧ SelfLocked thread next := by
    rintro state next action ⟨hsound, hlocked⟩ hstep
    exact ⟨sound_invariant.step hsound hstep,
      selfLocked_step hsound hlocked hstep⟩
  exact (runFrom_preserves hkeep ⟨hsound, hlocked⟩ hrun).2

section Progress

variable {tryNumber : Fin n}

/-- The pixels that `decode` counts for the thread. -/
def Files.pixels (files : Files n) (key : Int32) (tryNumber : Fin n) : Nat :=
  (decode files.encrypt (files.ppmOpens tryNumber) (files.txtOpens tryNumber)
    key).progress

theorem reads_iff (key : Int32) (i : Nat) :
    files.reads tryNumber i = true ↔ i < files.pixels key tryNumber := by
  unfold Files.reads Files.pixels
  cases files.encrypt with
  | none => simp [decode]
  | some bytes =>
      cases files.ppmOpens tryNumber with
      | false => simp [decode]
      | true =>
          cases files.txtOpens tryNumber with
          | false => simp [decode]
          | true =>
              rw [decode_progress]
              simp only [Bool.true_and, Bool.and_eq_true, decide_eq_true_eq,
                lt_min_iff]
              exact Iff.rfl

/-- What a thread of the given number of pixels has counted at the place. -/
def Counted (pixels progress : Nat) : DecodePlace → Prop
  | .unstarted => progress = 0
  | .loop i => progress = i ∧ i ≤ pixels
  | .lock i | .increment i => progress = i ∧ i < pixels
  | .unlock i => progress = i + 1 ∧ i < pixels
  | .finished => progress = pixels

def Counting (files : Files n) (key : Int32) (state : State n) : Prop :=
  ∀ tryNumber, Counted (files.pixels key tryNumber) (state.progress tryNumber)
    (state.decode tryNumber)

theorem counted_runMain {key : Int32} (hsound : Sound state)
    (hcounting : Counting files key state)
    (hstep : state.runMain = some next) : Counting files key next := by
  rcases runMain_cases hstep with
    ⟨first, hfirst, hmain, rfl⟩ | ⟨place, _, rfl⟩
  · have hunstarted := hsound.created first hmain ⟨first, hfirst⟩
      (Nat.le_refl first)
    intro other
    have hother := hcounting other
    by_cases heq : other = ⟨first, hfirst⟩
    · subst other
      rw [hunstarted] at hother
      simp only [State.goto, Function.update_self]
      exact ⟨hother, Nat.zero_le _⟩
    · simp only [State.goto, Function.update_of_ne heq]
      exact hother
  · exact hcounting

theorem counted_runDecode {key : Int32}
    (hcounted : Counted (files.pixels key tryNumber)
      (state.progress tryNumber) (state.decode tryNumber))
    (hstep : state.runDecode files tryNumber = some next) :
    Counted (files.pixels key tryNumber) (next.progress tryNumber)
      (next.decode tryNumber) := by
  cases runDecode_moves hstep with
  | loop i hplace =>
      rw [hplace] at hcounted
      simp only [State.goto, Function.update_self]
      split
      · rename_i hreads
        exact ⟨hcounted.1, (reads_iff key i).mp hreads⟩
      · rename_i hreads
        have hle := Nat.le_of_not_lt fun hlt =>
          hreads ((reads_iff key i).mpr hlt)
        exact hcounted.1.trans (Nat.le_antisymm hcounted.2 hle)
  | lock i hplace _ =>
      rw [hplace] at hcounted
      simp only [State.goto, Function.update_self]
      exact hcounted
  | increment i hplace =>
      rw [hplace] at hcounted
      simp only [State.goto, Function.update_self]
      exact ⟨congrArg (· + 1) hcounted.1, hcounted.2⟩
  | unlock i hplace =>
      rw [hplace] at hcounted
      simp only [State.goto, Function.update_self]
      exact hcounted

theorem progress_frame {other : Fin n} (hne : other ≠ tryNumber)
    (hstep : state.runDecode files tryNumber = some next) :
    next.progress other = state.progress other ∧
      next.decode other = state.decode other := by
  cases runDecode_moves hstep with
  | increment i =>
      exact ⟨Function.update_of_ne hne _ _, Function.update_of_ne hne _ _⟩
  | loop i
  | lock i
  | unlock i => exact ⟨rfl, Function.update_of_ne hne _ _⟩

theorem counting_invariant (files : Files n) (key : Int32) :
    Invariant (decoder files)
      (fun state => Sound state ∧ Counting files key state) where
  start := ⟨sound_invariant.start, fun _ => rfl⟩
  step := by
    rintro state next action ⟨hsound, hcounting⟩ hstep
    refine ⟨sound_invariant.step hsound hstep, ?_⟩
    cases action with
    | run thread =>
        rcases step_run hstep with ⟨place, _, hnext⟩ |
          ⟨_, rfl, hnext⟩ | ⟨tryNumber, _, rfl, hnext⟩
        · cases place with
          | lock =>
              simp only [State.tryTest, Option.ite_none_right_eq_some,
                Option.some.injEq] at hnext
              obtain ⟨_, rfl⟩ := hnext
              exact hcounting
          | print
          | unlock =>
              simp only [State.tryTest, Option.some.injEq] at hnext
              subst next
              exact hcounting
        · exact counted_runMain hsound hcounting hnext
        · intro other
          by_cases heq : other = tryNumber
          · rw [heq]
            exact counted_runDecode (hcounting tryNumber) hnext
          · obtain ⟨hprogress, hplace⟩ := progress_frame heq hnext
            rw [hprogress, hplace]
            exact hcounting other
    | sigalrm thread =>
        change state.step files (.sigalrm thread) = some next at hstep
        obtain ⟨_, rfl⟩ := step_sigalrm hstep
        exact hcounting

/-- Under any schedule and any ticks a thread that has finished has counted the
pixels that `decode` counts. -/
theorem progress_of_finished (key : Int32)
    (hreach : (decoder files).Reachable state)
    (hfinished : state.decode tryNumber = .finished) :
    state.progress tryNumber = (decode files.encrypt
      (files.ppmOpens tryNumber) (files.txtOpens tryNumber) key).progress := by
  have hcounted := ((counting_invariant files key).reachable hreach).2 tryNumber
  rw [hfinished] at hcounted
  exact hcounted

end Progress

namespace DecoderRuns

def tryZero : Fin 4 := ⟨0, by decide⟩

/-- Two pixels of three bytes; all output files can be opened. -/
def twoPixels : Files 4 :=
  ⟨some [1, 2, 3, 4, 5, 6], fun _ => true, fun _ => true⟩

def main (steps : Nat) : List (Action 4) := List.replicate steps (.run .main)

def decode (steps : Nat) : List (Action 4) :=
  List.replicate steps (.run (.decode tryZero))

/-- A tick on `main` while a thread counts a pixel, and one on the thread
between two pixels. -/
def ticksOutside : List (Action 4) :=
  main 1 ++ decode 3 ++ [.sigalrm .main] ++ decode 1 ++ main 3 ++
    [.sigalrm (.decode tryZero)] ++ decode 8 ++ main 4

/-- The thread gets the signal between its lock and its unlock. -/
def tickInside : List (Action 4) :=
  main 1 ++ decode 2 ++ [.sigalrm (.decode tryZero)]

end DecoderRuns

open DecoderRuns

theorem neverSelfLocked_iff_ticksOutside :
    (decoder twoPixels).Always (NeverSelfLocked twoPixels) ticksOutside := by
  have hrun : ((decoder twoPixels).run ticksOutside).isSome := by
    decide +kernel
  obtain ⟨last, hlast⟩ := Option.isSome_iff_exists.mp hrun
  exact (neverSelfLocked_iff hlast).mpr (by decide +kernel)

/-- One of four threads holds the mutex and its handler waits for it, for
ever. -/
theorem selfLocked_reachable :
    (∃ state : State 4, (decoder twoPixels).Reachable state ∧
      TriesToLock state (.decode tryZero) ∧
      ∀ schedule later, (decoder twoPixels).runFrom state schedule =
        some later → later.owner = some (.decode tryZero)) ∧
      ¬ ∀ (n : Nat) (files : Files n) (state : State n),
        (decoder files).Reachable state → NeverSelfLocked files state := by
  have hmap : ((decoder twoPixels).run tickInside).map (fun state =>
      (state.owner, state.handler (.decode tryZero))) =
        some (some (.decode tryZero), some .lock) := by
    decide +kernel
  obtain ⟨state, hrun, heq⟩ := Option.map_eq_some_iff.mp hmap
  have hlocked : SelfLocked (.decode tryZero) state := Prod.mk.inj heq
  have hsound := sound_invariant.run hrun
  refine ⟨⟨state, ⟨tickInside, hrun⟩, .inl hlocked.2,
    fun schedule later hlater =>
      (selfLocked_forever hsound hlocked hlater).1⟩, ?_⟩
  intro hall
  have hnever := hall 4 twoPixels state ⟨tickInside, hrun⟩
  exact hnever.1 _ (.inl hlocked.2) hlocked.1

end DecoderTimer

end OsCourse
