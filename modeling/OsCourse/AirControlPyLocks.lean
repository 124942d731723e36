/-
The locks of the Python air control, statement by statement: the workers with
`state_lock` and the runway locks, and `sigusr2_handler` on the main thread,
between any two of its bytecodes and on top of itself.
-/
import OsCourse.LockOwnership
import OsCourse.AirControlPy

namespace OsCourse

namespace AirControlPyLocks

open TransitionSystem LockOwnership Airport

/-- The main thread and the threads of `takeoff_worker`. -/
inductive Thread (n : Nat) where
  | main
  | worker (worker : Fin n)
deriving Repr, DecidableEq

/-- The locks of `main.py`; `running` is the one inside a `Thread` that its
`join` waits for. -/
inductive LockName (n : Nat) where
  | stateLock
  | runwayLock (runway : Runway)
  | running (worker : Fin n)
deriving Repr, DecidableEq

inductive MainPlace where
  | start (next : Nat)
  | waitForGround
  | join (next : Nat)
  | finished
deriving Repr, DecidableEq

/-- The bytecodes of `sigusr2_handler`; `store` has read `planes`. -/
inductive HandlerPlace where
  | acquire
  | load
  | store (planes : Int)
  | release
deriving Repr, DecidableEq

/-- The statement of `takeoff_worker` that a thread is at, with its runway. -/
inductive WorkerPlace where
  | unstarted
  | loopGuard
  | planesCheck
  | tryRunway1
  | tryRunway2
  | acquireState (runway : Runway)
  | recheck (runway : Runway)
  | releaseEarly (runway : Runway)
  | leaveEarly
  | decrementPlanes (runway : Runway)
  | countTakeoff (runway : Runway)
  | countTotal (runway : Runway)
  | testTakeoffs (runway : Runway)
  | signalRadio (runway : Runway)
  | resetTakeoffs (runway : Runway)
  | leaveState (runway : Runway)
  | sleeping (runway : Runway)
  | acquireClosing
  | testTotal
  | signalClosing
  | leaveClosing
  | ending
  | returned
deriving Repr, DecidableEq

/-- The globals, the owners of the locks and the threads; `handlers` are the
activations of `sigusr2_handler` on the main thread, the running one first. -/
structure State (n : Nat) where
  planes : Int
  takeoffs : Int
  totalTakeoffs : Int
  radioPid : Nat
  groundPid : Nat
  kills : List (Nat × Signal)
  owner : LockName n → Option (Thread n)
  main : MainPlace
  handlers : List HandlerPlace
  worker : Fin n → WorkerPlace

/-- A bytecode of a thread, an arrival of SIGUSR2, or the ground control storing
its pid. -/
inductive Action (n : Nat) where
  | main
  | worker (worker : Fin n)
  | sigusr2
  | attach (groundPid : Nat)
deriving Repr, DecidableEq

namespace State

variable {n : Nat}

/-- `main` before it starts the threads: the radio's pid is stored and the
handler installed. -/
def start (n radioPid : Nat) : State n :=
  ⟨0, 0, 0, radioPid, 0, [], fun _ => none, .start 0, [], fun _ => .unstarted⟩

def goto (state : State n) (worker : Fin n) (place : WorkerPlace) : State n :=
  { state with worker := Function.update state.worker worker place }

def own (state : State n) (lock : LockName n) (thread : Thread n) : State n :=
  { state with owner := Function.update state.owner lock (some thread) }

def free (state : State n) (lock : LockName n) : State n :=
  { state with owner := Function.update state.owner lock none }

/-- `os.kill` for the radio, unless its pid is zero. -/
def killRadio (state : State n) (signal : Signal) : State n :=
  if state.radioPid = 0 then state
  else { state with kills := state.kills ++ [(state.radioPid, signal)] }

/-- The next bytecode of the running handler. -/
def handlerStep (state : State n) (rest : List HandlerPlace) :
    HandlerPlace → Option (State n)
  | .acquire =>
      if state.owner .stateLock = none then
        some { state.own .stateLock .main with handlers := .load :: rest }
      else none
  | .load => some { state with handlers := .store state.planes :: rest }
  | .store planes => some { state with
      planes := planes + 5
      handlers := .release :: rest }
  | .release => some { state.free .stateLock with handlers := rest }

/-- The next step of `main` itself. -/
def mainStep (state : State n) : Option (State n) :=
  match state.main with
  | .start next =>
      if hnext : next < n then
        some (({ state with main := .start (next + 1) }.own
          (.running ⟨next, hnext⟩) (.worker ⟨next, hnext⟩)).goto
            ⟨next, hnext⟩ .loopGuard)
      else some { state with main := .waitForGround }
  | .waitForGround =>
      some (if state.groundPid = 0 then state
        else { state with main := .join 0 })
  | .join next =>
      if hnext : next < n then
        if state.owner (.running ⟨next, hnext⟩) = none then
          some { state with main := .join (next + 1) }
        else none
      else some { state with main := .finished }
  | .finished => none

/-- The next statement of a `takeoff_worker`. -/
def workerStep (state : State n) (worker : Fin n) : Option (State n) :=
  match state.worker worker with
  | .unstarted => none
  | .loopGuard =>
      some (state.goto worker (if state.totalTakeoffs < totalTakeoffsLimit then
        .planesCheck else .acquireClosing))
  | .planesCheck =>
      some (state.goto worker (if state.planes ≤ 0 then .loopGuard
        else .tryRunway1))
  | .tryRunway1 =>
      if state.owner (.runwayLock .runway1) = none then
        some ((state.own (.runwayLock .runway1) (.worker worker)).goto worker
          (.acquireState .runway1))
      else some (state.goto worker .tryRunway2)
  | .tryRunway2 =>
      if state.owner (.runwayLock .runway2) = none then
        some ((state.own (.runwayLock .runway2) (.worker worker)).goto worker
          (.acquireState .runway2))
      else some (state.goto worker .loopGuard)
  | .acquireState runway =>
      if state.owner .stateLock = none then
        some ((state.own .stateLock (.worker worker)).goto worker
          (.recheck runway))
      else none
  | .recheck runway =>
      some (state.goto worker (if state.planes ≤ 0 then .releaseEarly runway
        else .decrementPlanes runway))
  | .releaseEarly runway =>
      some ((state.free (.runwayLock runway)).goto worker .leaveEarly)
  | .leaveEarly => some ((state.free .stateLock).goto worker .loopGuard)
  | .decrementPlanes runway =>
      some ({ state with planes := state.planes - 1 }.goto worker
        (.countTakeoff runway))
  | .countTakeoff runway =>
      some ({ state with takeoffs := state.takeoffs + 1 }.goto worker
        (.countTotal runway))
  | .countTotal runway =>
      some ({ state with totalTakeoffs := state.totalTakeoffs + 1 }.goto worker
        (.testTakeoffs runway))
  | .testTakeoffs runway =>
      some (state.goto worker (if state.takeoffs = 5 then .signalRadio runway
        else .leaveState runway))
  | .signalRadio runway =>
      some ((state.killRadio .sigusr1).goto worker (.resetTakeoffs runway))
  | .resetTakeoffs runway =>
      some ({ state with takeoffs := 0 }.goto worker (.leaveState runway))
  | .leaveState runway =>
      some ((state.free .stateLock).goto worker (.sleeping runway))
  | .sleeping runway =>
      some ((state.free (.runwayLock runway)).goto worker .loopGuard)
  | .acquireClosing =>
      if state.owner .stateLock = none then
        some ((state.own .stateLock (.worker worker)).goto worker .testTotal)
      else none
  | .testTotal =>
      some (state.goto worker (if totalTakeoffsLimit ≤ state.totalTakeoffs then
        .signalClosing else .leaveClosing))
  | .signalClosing =>
      some ((state.killRadio .sigterm).goto worker .leaveClosing)
  | .leaveClosing => some ((state.free .stateLock).goto worker .ending)
  | .ending => some ((state.free (.running worker)).goto worker .returned)
  | .returned => none

def step (state : State n) : Action n → Option (State n)
  | .main =>
      match state.handlers with
      | place :: rest => state.handlerStep rest place
      | [] => state.mainStep
  | .worker worker => state.workerStep worker
  | .sigusr2 =>
      if state.main = .finished then none
      else some { state with handlers := .acquire :: state.handlers }
  | .attach groundPid => some { state with groundPid := groundPid }

end State

def airControl (n radioPid : Nat) : System (State n) (Action n) where
  start := State.start n radioPid
  step := State.step

/-- A signal puts its handler on top of what the main thread does. -/
theorem sigusr2_cases {n : Nat} {state next : State n}
    (hstep : state.step .sigusr2 = some next) :
    next = { state with handlers := .acquire :: state.handlers } := by
  rw [State.step, Option.ite_none_left_eq_some, Option.some.injEq] at hstep
  exact hstep.2.symm

/-- The locks that a worker holds: `state_lock`, a runway, and its own. -/
structure Holding where
  inSection : Bool
  runway : Option Runway
  running : Bool
deriving Repr, DecidableEq

def WorkerPlace.holding : WorkerPlace → Holding
  | .unstarted | .returned => ⟨false, none, false⟩
  | .loopGuard | .planesCheck | .tryRunway1 | .tryRunway2 | .acquireClosing
  | .ending => ⟨false, none, true⟩
  | .acquireState runway | .sleeping runway => ⟨false, some runway, true⟩
  | .recheck runway | .releaseEarly runway | .decrementPlanes runway
  | .countTakeoff runway | .countTotal runway | .testTakeoffs runway
  | .signalRadio runway | .resetTakeoffs runway | .leaveState runway =>
      ⟨true, some runway, true⟩
  | .leaveEarly | .testTotal | .signalClosing | .leaveClosing =>
      ⟨true, none, true⟩

/-- The worker waits for `state_lock`. -/
def WorkerPlace.wantsState : WorkerPlace → Bool
  | .acquireState _ | .acquireClosing => true
  | _ => false

def HandlerPlace.inSection : HandlerPlace → Bool
  | .acquire => false
  | _ => true

variable {n radioPid : Nat} {state next : State n}

/-- The worker with this holding has the lock. -/
def Holding.has (holding : Holding) (worker : Fin n) : LockName n → Prop
  | .stateLock => holding.inSection = true
  | .runwayLock runway => holding.runway = some runway
  | .running other => other = worker ∧ holding.running = true

def Holds (state : State n) (lock : LockName n) : Thread n → Prop
  | .main => lock = .stateLock ∧
      ∃ place ∈ state.handlers, place.inSection = true
  | .worker worker => (state.worker worker).holding.has worker lock

/-- The lock that a thread waits for; the runways are only tried. -/
def State.waiting (state : State n) : Thread n → Option (LockName n)
  | .main =>
      match state.handlers with
      | .acquire :: _ => some .stateLock
      | _ :: _ => none
      | [] =>
          match state.main with
          | .join next =>
              if hnext : next < n then some (.running ⟨next, hnext⟩) else none
          | _ => none
  | .worker worker =>
      if (state.worker worker).wantsState then some .stateLock else none

/-- SIGUSR2 does not start a handler while the main thread has `state_lock`. -/
def SparesHolder (state : State n) (action : Action n) : Prop :=
  action = .sigusr2 → state.owner .stateLock ≠ some .main

instance (state : State n) (action : Action n) :
    Decidable (SparesHolder state action) :=
  inferInstanceAs (Decidable (_ → _))

/-- From the first holding to the second the worker takes the lock. -/
def Takes (worker : Fin n) (before after : Holding) : LockName n → Prop
  | .stateLock => before.inSection = false ∧
      after = { before with inSection := true }
  | .runwayLock runway => before.runway = none ∧
      after = { before with runway := some runway }
  | .running other => other = worker ∧ before.running = false ∧
      after = { before with running := true }

section Takes

variable {worker : Fin n} {before after : Holding} {lock other : LockName n}

theorem Takes.has (htakes : Takes worker before after lock) :
    after.has worker lock := by
  cases lock with
  | stateLock => rw [htakes.2]; rfl
  | runwayLock runway => rw [htakes.2]; rfl
  | running someone => rw [htakes.2.2]; exact ⟨htakes.1, rfl⟩

theorem Takes.hasNot (htakes : Takes worker before after lock) :
    ¬ before.has worker lock := by
  cases lock with
  | stateLock => simp [Holding.has, htakes.1]
  | runwayLock runway => simp [Holding.has, htakes.1]
  | running someone => simp [Holding.has, htakes.2.1]

theorem Takes.same (htakes : Takes worker before after lock)
    (hne : other ≠ lock) : after.has worker other ↔ before.has worker other := by
  cases lock with
  | stateLock =>
      obtain ⟨_, rfl⟩ := htakes
      cases other with
      | stateLock => contradiction
      | runwayLock _ => exact Iff.rfl
      | running _ => exact Iff.rfl
  | runwayLock runway =>
      obtain ⟨hnone, rfl⟩ := htakes
      cases other with
      | stateLock => exact Iff.rfl
      | runwayLock runway' =>
          have hother : runway ≠ runway' := fun heq => hne (heq ▸ rfl)
          simp [Holding.has, hnone, hother]
      | running _ => exact Iff.rfl
  | running someone =>
      obtain ⟨rfl, _, rfl⟩ := htakes
      cases other with
      | stateLock => exact Iff.rfl
      | runwayLock _ => exact Iff.rfl
      | running other =>
          have hother : other ≠ someone := fun heq => hne (heq ▸ rfl)
          simp [Holding.has, hother]

end Takes

/-- The worker goes on, taking a free lock, giving one back or neither. -/
inductive Moves (state : State n) (worker : Fin n) (dest : WorkerPlace) :
    (LockName n → Option (Thread n)) → Prop where
  | keep
      (hsame : dest.holding = (state.worker worker).holding) :
      Moves state worker dest state.owner
  | take (lock : LockName n) (hfree : state.owner lock = none)
      (htakes : Takes worker (state.worker worker).holding dest.holding lock) :
      Moves state worker dest
        (Function.update state.owner lock (some (.worker worker)))
  | giveBack (lock : LockName n)
      (hgives : Takes worker dest.holding (state.worker worker).holding lock) :
      Moves state worker dest (Function.update state.owner lock none)

section Steps

variable {worker : Fin n}

theorem killRadio_frame (state : State n) (signal : Signal) :
    (state.killRadio signal).main = state.main ∧
      (state.killRadio signal).handlers = state.handlers ∧
      (state.killRadio signal).owner = state.owner ∧
      (state.killRadio signal).worker = state.worker := by
  unfold State.killRadio
  split <;> exact ⟨rfl, rfl, rfl, rfl⟩

/-- What a statement of a worker can do to the locks. -/
theorem workerStep_cases (hstep : state.workerStep worker = some next) :
    next.main = state.main ∧ next.handlers = state.handlers ∧
      state.worker worker ≠ .unstarted ∧
      ∃ dest, next.worker = Function.update state.worker worker dest ∧
        Moves state worker dest next.owner := by
  unfold State.workerStep at hstep
  cases hplace : state.worker worker with
  | unstarted
  | returned => simp [hplace] at hstep
  | loopGuard
  | planesCheck
  | recheck runway
  | testTakeoffs runway
  | testTotal =>
      simp only [hplace, Option.some.injEq] at hstep
      subst next
      refine ⟨rfl, rfl, by simp, _, rfl, .keep ?_⟩
      rw [hplace]
      split <;> rfl
  | decrementPlanes runway
  | countTakeoff runway
  | countTotal runway
  | resetTakeoffs runway =>
      simp only [hplace, Option.some.injEq] at hstep
      subst next
      exact ⟨rfl, rfl, by simp, _, rfl, .keep (by rw [hplace]; rfl)⟩
  | signalRadio runway =>
      simp only [hplace, Option.some.injEq] at hstep
      subst next
      obtain ⟨hmain, hhandlers, howner, hworker⟩ :=
        killRadio_frame state .sigusr1
      refine ⟨hmain, hhandlers, by simp, .resetTakeoffs runway, ?_, ?_⟩
      · simp only [State.goto, hworker]
      · simp only [State.goto, howner]
        exact .keep (by rw [hplace]; rfl)
  | signalClosing =>
      simp only [hplace, Option.some.injEq] at hstep
      subst next
      obtain ⟨hmain, hhandlers, howner, hworker⟩ :=
        killRadio_frame state .sigterm
      refine ⟨hmain, hhandlers, by simp, .leaveClosing, ?_, ?_⟩
      · simp only [State.goto, hworker]
      · simp only [State.goto, howner]
        exact .keep (by rw [hplace]; rfl)
  | tryRunway1
  | tryRunway2 =>
      simp only [hplace] at hstep
      split at hstep
      · rename_i hfree
        rw [Option.some.injEq] at hstep
        subst next
        exact ⟨rfl, rfl, by simp, _, rfl, .take _ hfree
          (by rw [hplace]; exact ⟨rfl, rfl⟩)⟩
      · rw [Option.some.injEq] at hstep
        subst next
        exact ⟨rfl, rfl, by simp, _, rfl, .keep (by rw [hplace]; rfl)⟩
  | acquireState runway
  | acquireClosing =>
      simp only [hplace, Option.ite_none_right_eq_some,
        Option.some.injEq] at hstep
      obtain ⟨hfree, rfl⟩ := hstep
      exact ⟨rfl, rfl, by simp, _, rfl, .take _ hfree
        (by rw [hplace]; exact ⟨rfl, rfl⟩)⟩
  | releaseEarly runway
  | leaveEarly
  | leaveState runway
  | sleeping runway
  | leaveClosing =>
      simp only [hplace, Option.some.injEq] at hstep
      subst next
      exact ⟨rfl, rfl, by simp, _, rfl, .giveBack _
        (by rw [hplace]; exact ⟨rfl, rfl⟩)⟩
  | ending =>
      simp only [hplace, Option.some.injEq] at hstep
      subst next
      exact ⟨rfl, rfl, by simp, _, rfl, .giveBack _
        (by rw [hplace]; exact ⟨rfl, rfl, rfl⟩)⟩

/-- What `main` itself can do to the locks: start a thread, which takes its
own. -/
theorem mainStep_cases (hstep : state.mainStep = some next) :
    next.handlers = state.handlers ∧
      ((next.worker = state.worker ∧ next.owner = state.owner ∧
          ∀ first, next.main = .start first → state.main = .start first) ∨
        ∃ first, ∃ hfirst : first < n, state.main = .start first ∧
          next.main = .start (first + 1) ∧
          next.worker =
            Function.update state.worker ⟨first, hfirst⟩ .loopGuard ∧
          next.owner = Function.update state.owner (.running ⟨first, hfirst⟩)
            (some (.worker ⟨first, hfirst⟩))) := by
  unfold State.mainStep at hstep
  cases hmain : state.main with
  | start first =>
      simp only [hmain] at hstep
      split at hstep
      · rename_i hfirst
        rw [Option.some.injEq] at hstep
        subst next
        exact ⟨rfl, .inr ⟨first, hfirst, rfl, rfl, rfl, rfl⟩⟩
      · rw [Option.some.injEq] at hstep
        subst next
        exact ⟨rfl, .inl ⟨rfl, rfl, fun _ heq => by contradiction⟩⟩
  | waitForGround =>
      simp only [hmain, Option.some.injEq] at hstep
      subst next
      split
      · exact ⟨rfl, .inl ⟨rfl, rfl, fun _ heq => hmain ▸ heq⟩⟩
      · exact ⟨rfl, .inl ⟨rfl, rfl, fun _ heq => by contradiction⟩⟩
  | join first =>
      simp only [hmain] at hstep
      split at hstep
      · rw [Option.ite_none_right_eq_some, Option.some.injEq] at hstep
        obtain ⟨_, rfl⟩ := hstep
        exact ⟨rfl, .inl ⟨rfl, rfl, fun _ heq => by contradiction⟩⟩
      · rw [Option.some.injEq] at hstep
        subst next
        exact ⟨rfl, .inl ⟨rfl, rfl, fun _ heq => by contradiction⟩⟩
  | finished => simp [hmain] at hstep

end Steps

/-- The locks belong to the threads that are where they are held; of the
activations of the handler at most one is past its `acquire`; the threads wait to
be started. -/
structure Sound (state : State n) : Prop where
  owned : AllOwned state.owner (Holds state)
  single : state.handlers.countP HandlerPlace.inSection ≤ 1
  created : ∀ next, state.main = .start next → ∀ worker : Fin n,
    next ≤ worker.val → state.worker worker = .unstarted

section Preservation

variable {worker : Fin n}

theorem created_update (hsound : Sound state) {dest : WorkerPlace}
    (hstarted : state.worker worker ≠ .unstarted) :
    ∀ next, state.main = .start next → ∀ other : Fin n, next ≤ other.val →
      Function.update state.worker worker dest other = .unstarted := by
  intro next hmain other hle
  have hother := hsound.created next hmain other hle
  by_cases heq : other = worker
  · exact absurd (heq ▸ hother) hstarted
  · exact (Function.update_of_ne heq _ _).trans hother

/-- Only the worker that moves changes what it holds. -/
theorem holds_of_ne {dest : WorkerPlace} {lock : LockName n}
    {thread : Thread n} (hhandlers : next.handlers = state.handlers)
    (hworker : next.worker = Function.update state.worker worker dest)
    (hne : thread ≠ .worker worker) :
    Holds next lock thread ↔ Holds state lock thread := by
  cases thread with
  | main => simp only [Holds, hhandlers]
  | worker other =>
      have hother : other ≠ worker := fun heq => hne (heq ▸ rfl)
      simp only [Holds, hworker, Function.update_of_ne hother]

theorem holds_self {dest : WorkerPlace} {lock : LockName n}
    (hworker : next.worker = Function.update state.worker worker dest) :
    Holds next lock (.worker worker) ↔ dest.holding.has worker lock := by
  simp only [Holds, hworker, Function.update_self]

theorem owned_moves {dest : WorkerPlace} (hsound : Sound state)
    (hhandlers : next.handlers = state.handlers)
    (hworker : next.worker = Function.update state.worker worker dest)
    (hmoves : Moves state worker dest next.owner) :
    AllOwned next.owner (Holds next) := by
  have hothers : ∀ other someone, someone ≠ .worker worker →
      (Holds next other someone ↔ Holds state other someone) :=
    fun _ _ hne => holds_of_ne hhandlers hworker hne
  generalize howner : next.owner = owner at hmoves
  cases hmoves with
  | keep hsame =>
      apply hsound.owned.keep
      intro other someone
      by_cases heq : someone = .worker worker
      · rw [heq, holds_self hworker, hsame]
        exact Iff.rfl
      · exact hothers other someone heq
  | take lock hfree htakes =>
      apply hsound.owned.acquire hfree
      · exact (holds_self hworker).mpr htakes.has
      · intro other someone hne
        by_cases heq : someone = .worker worker
        · have hother : other ≠ lock := hne.resolve_right (not_not.mpr heq)
          rw [heq, holds_self hworker]
          exact htakes.same hother
        · exact hothers other someone heq
  | giveBack lock hgives =>
      have hholds : Holds state lock (.worker worker) := hgives.has
      apply hsound.owned.release hholds
      · rw [holds_self hworker]
        exact hgives.hasNot
      · intro other someone hne
        by_cases heq : someone = .worker worker
        · have hother : other ≠ lock := hne.resolve_right (not_not.mpr heq)
          rw [heq, holds_self hworker]
          exact (hgives.same hother).symm
        · exact hothers other someone heq

theorem sound_workerStep (hsound : Sound state)
    (hstep : state.workerStep worker = some next) : Sound next := by
  obtain ⟨hmain, hhandlers, hstarted, dest, hworker, hmoves⟩ :=
    workerStep_cases hstep
  refine ⟨owned_moves hsound hhandlers hworker hmoves, ?_, ?_⟩
  · rw [hhandlers]
    exact hsound.single
  · rw [hmain, hworker]
    exact created_update hsound hstarted

/-- The lock of a thread that has not been started is free. -/
theorem running_free (hsound : Sound state)
    (hplace : state.worker worker = .unstarted) :
    state.owner (.running worker) = none := by
  cases howner : state.owner (.running worker) with
  | none => rfl
  | some thread =>
      have hholds := (hsound.owned _ thread).mp howner
      cases thread with
      | main => simp [Holds] at hholds
      | worker other =>
          obtain ⟨rfl, hrunning⟩ := hholds
          rw [hplace] at hrunning
          contradiction

theorem sound_mainStep (hsound : Sound state)
    (hstep : state.mainStep = some next) : Sound next := by
  obtain ⟨hhandlers, ⟨hworker, howner, hmain⟩ |
    ⟨first, hfirst, hstart, hmain, hworker, howner⟩⟩ := mainStep_cases hstep
  · refine ⟨?_, hhandlers ▸ hsound.single, ?_⟩
    · rw [howner]
      apply hsound.owned.keep
      intro other someone
      cases someone with
      | main => simp only [Holds, hhandlers]
      | worker someone => simp only [Holds, hworker]
    · intro first hnext
      rw [hworker]
      exact hsound.created first (hmain first hnext)
  · have hplace := hsound.created first hstart ⟨first, hfirst⟩
      (Nat.le_refl first)
    refine ⟨?_, hhandlers ▸ hsound.single, ?_⟩
    · apply owned_moves hsound hhandlers hworker
      rw [howner]
      apply Moves.take _ (running_free hsound hplace)
      rw [hplace]
      exact ⟨rfl, rfl, rfl⟩
    · intro second hsecond other hle
      rw [hmain, MainPlace.start.injEq] at hsecond
      subst second
      have hne : other ≠ ⟨first, hfirst⟩ := by
        rintro rfl
        exact Nat.not_succ_le_self first hle
      rw [hworker, Function.update_of_ne hne]
      exact hsound.created first hstart other
        (Nat.le_of_succ_le hle)

/-- A step that leaves the workers and `main` itself alone. -/
theorem Sound.handlerMove (hsound : Sound state)
    (hmain : next.main = state.main) (hworker : next.worker = state.worker)
    (howned : AllOwned next.owner (Holds next))
    (hsingle : next.handlers.countP HandlerPlace.inSection ≤ 1) :
    Sound next :=
  ⟨howned, hsingle, by rw [hmain, hworker]; exact hsound.created⟩

theorem main_holds {lock : LockName n} : Holds state lock .main ↔
    lock = .stateLock ∧ 0 < state.handlers.countP HandlerPlace.inSection := by
  rw [List.countP_pos_iff]
  exact Iff.rfl

/-- What the workers hold does not depend on the handlers. -/
theorem holds_same {lock : LockName n} {someone : Thread n}
    (hworker : next.worker = state.worker)
    (hcount : next.handlers.countP HandlerPlace.inSection =
      state.handlers.countP HandlerPlace.inSection) :
    Holds next lock someone ↔ Holds state lock someone := by
  cases someone with
  | main => rw [main_holds, main_holds, hcount]
  | worker someone => simp only [Holds, hworker]

/-- A step of the handlers that neither takes nor gives back the lock. -/
theorem Sound.handlerKeep (hsound : Sound state)
    (hmain : next.main = state.main) (hworker : next.worker = state.worker)
    (howner : next.owner = state.owner)
    (hcount : next.handlers.countP HandlerPlace.inSection =
      state.handlers.countP HandlerPlace.inSection) : Sound next := by
  refine hsound.handlerMove hmain hworker ?_ (hcount ▸ hsound.single)
  rw [howner]
  apply hsound.owned.keep
  intro other someone
  exact holds_same hworker hcount

theorem sound_handlerStep (hsound : Sound state) {place : HandlerPlace}
    {rest : List HandlerPlace} (hhandlers : state.handlers = place :: rest)
    (hstep : state.handlerStep rest place = some next) : Sound next := by
  have hsingle := hsound.single
  rw [hhandlers] at hsingle
  cases place with
  | acquire =>
      simp only [State.handlerStep, Option.ite_none_right_eq_some,
        Option.some.injEq] at hstep
      obtain ⟨hfree, rfl⟩ := hstep
      have hnone : ¬ Holds state .stateLock .main := fun hholds => by
        have howner := (hsound.owned _ _).mpr hholds
        rw [hfree] at howner
        contradiction
      rw [main_holds, hhandlers] at hnone
      have hrest : rest.countP HandlerPlace.inSection = 0 := by
        simpa [HandlerPlace.inSection] using hnone
      refine hsound.handlerMove rfl rfl ?_ ?_
      · apply hsound.owned.acquire hfree
        · exact main_holds.mpr ⟨rfl, by simp [HandlerPlace.inSection]⟩
        · intro other someone hne
          cases someone with
          | main => simp [Holds, hne.resolve_right (not_not.mpr rfl)]
          | worker someone => exact Iff.rfl
      · rw [List.countP_cons_of_pos rfl, hrest]
  | load =>
      simp only [State.handlerStep, Option.some.injEq] at hstep
      subst next
      exact hsound.handlerKeep rfl rfl rfl (by rw [hhandlers]; rfl)
  | store planes =>
      simp only [State.handlerStep, Option.some.injEq] at hstep
      subst next
      exact hsound.handlerKeep rfl rfl rfl (by rw [hhandlers]; rfl)
  | release =>
      simp only [State.handlerStep, Option.some.injEq] at hstep
      subst next
      have hrest : rest.countP HandlerPlace.inSection = 0 := by
        rw [List.countP_cons_of_pos rfl] at hsingle
        exact Nat.le_zero.mp (Nat.le_of_succ_le_succ hsingle)
      have hholds : Holds state .stateLock .main := main_holds.mpr ⟨rfl, by
        simp [hhandlers, HandlerPlace.inSection]⟩
      refine hsound.handlerMove rfl rfl ?_ ?_
      · apply hsound.owned.release hholds
        · rw [main_holds]
          simp [hrest]
        · intro other someone hne
          cases someone with
          | main => simp [Holds, hne.resolve_right (not_not.mpr rfl)]
          | worker someone => exact Iff.rfl
      · exact hrest.trans_le (Nat.zero_le 1)

theorem sound_invariant : Invariant (airControl n radioPid) Sound where
  start := by
    refine ⟨fun lock thread => ?_, Nat.zero_le 1, fun _ _ _ _ => rfl⟩
    apply iff_of_false
    · simp [airControl, State.start]
    · cases thread with
      | main => simp [Holds, airControl, State.start]
      | worker worker =>
          cases lock <;> simp [Holds, Holding.has, airControl, State.start,
            WorkerPlace.holding]
  step := by
    intro state next action hsound hstep
    change state.step action = some next at hstep
    cases action with
    | main =>
        unfold State.step at hstep
        cases hhandlers : state.handlers with
        | nil =>
            simp only [hhandlers] at hstep
            exact sound_mainStep hsound hstep
        | cons place rest =>
            simp only [hhandlers] at hstep
            exact sound_handlerStep hsound hhandlers hstep
    | worker worker => exact sound_workerStep hsound hstep
    | sigusr2 =>
        obtain rfl := sigusr2_cases hstep
        exact hsound.handlerKeep rfl rfl rfl rfl
    | attach groundPid =>
        rw [State.step, Option.some.injEq] at hstep
        subst next
        exact ⟨hsound.owned, hsound.single, hsound.created⟩

end Preservation

/-- A handler on the main thread waits for `state_lock`, and the main thread has
it. -/
def StateLockedOut (state : State n) : Prop :=
  state.owner .stateLock = some .main ∧
    ∃ rest, state.handlers = .acquire :: rest

/-- The locks of the threads are taken in this order. -/
def LockName.rank : LockName n → Nat
  | .running _ => 0
  | .runwayLock _ => 1
  | .stateLock => 2

theorem waiting_worker {worker : Fin n} {wanted : LockName n}
    (hwaiting : state.waiting (.worker worker) = some wanted) :
    wanted = .stateLock ∧ (state.worker worker).holding.inSection = false := by
  rw [State.waiting, Option.ite_none_right_eq_some,
    Option.some.injEq] at hwaiting
  refine ⟨hwaiting.2.symm, ?_⟩
  cases hplace : state.worker worker <;>
    simp [hplace, WorkerPlace.wantsState, WorkerPlace.holding] at hwaiting ⊢

/-- The workers never are in a deadlock; only the main thread can be, and only
with itself. -/
theorem deadlockFree_iff (hsound : Sound state) :
    DeadlockFree state.waiting state.owner ↔ ¬ StateLockedOut state := by
  constructor
  · rintro hfree ⟨howner, rest, hhandlers⟩
    have hwaiting : state.waiting .main = some .stateLock := by
      rw [State.waiting, hhandlers]
    exact hfree.selfWait .main .stateLock hwaiting howner
  · intro hout
    apply deadlockFree_of_ordered LockName.rank
    intro thread held wanted howner hwaiting
    have hholds := (hsound.owned held thread).mp howner
    cases thread with
    | main =>
        obtain ⟨rfl, place, hmem, hsection⟩ := hholds
        cases hhandlers : state.handlers with
        | nil =>
            rw [hhandlers] at hmem
            contradiction
        | cons first rest =>
            cases first with
            | acquire => exact absurd ⟨howner, rest, hhandlers⟩ hout
            | load
            | store _
            | release => simp [State.waiting, hhandlers] at hwaiting
    | worker worker =>
        obtain ⟨rfl, hsection⟩ := waiting_worker hwaiting
        cases held with
        | stateLock =>
            have hinside : (state.worker worker).holding.inSection = true :=
              hholds
            rw [hsection] at hinside
            contradiction
        | runwayLock _ => exact Nat.lt_succ_self 1
        | running _ => exact Nat.zero_lt_two

section Exactness

/-- A worker does not hand `state_lock` to the main thread. -/
theorem Moves.owner_main {worker : Fin n} {dest : WorkerPlace}
    {owner : LockName n → Option (Thread n)}
    (hmoves : Moves state worker dest owner)
    (howner : owner .stateLock = some .main) :
    state.owner .stateLock = some .main := by
  cases hmoves with
  | keep _ => exact howner
  | take lock hfree htakes =>
      by_cases heq : LockName.stateLock = lock
      · rw [← heq, Function.update_self] at howner
        simp at howner
      · rwa [Function.update_of_ne heq] at howner
  | giveBack lock hgives =>
      by_cases heq : LockName.stateLock = lock
      · rw [← heq, Function.update_self] at howner
        contradiction
      · rwa [Function.update_of_ne heq] at howner

/-- The main thread locks itself out exactly when a handler starts inside the
section of another one. -/
theorem lockedOut_step {action : Action n} (hout : ¬ StateLockedOut state)
    (hstep : state.step action = some next) :
    ¬ StateLockedOut next ↔ SparesHolder state action := by
  cases action with
  | main =>
      refine iff_of_true ?_ fun heq => by contradiction
      rintro ⟨howner, rest, hhandlers⟩
      unfold State.step at hstep
      cases hbefore : state.handlers with
      | nil =>
          simp only [hbefore] at hstep
          rw [(mainStep_cases hstep).1, hbefore] at hhandlers
          contradiction
      | cons place others =>
          simp only [hbefore] at hstep
          cases place with
          | acquire =>
              simp only [State.handlerStep, Option.ite_none_right_eq_some,
                Option.some.injEq] at hstep
              obtain ⟨_, rfl⟩ := hstep
              simp at hhandlers
          | load
          | store _ =>
              simp only [State.handlerStep, Option.some.injEq] at hstep
              subst next
              simp at hhandlers
          | release =>
              simp only [State.handlerStep, Option.some.injEq] at hstep
              subst next
              simp [State.free] at howner
  | worker worker =>
      refine iff_of_true ?_ fun heq => by contradiction
      rintro ⟨howner, rest, hhandlers⟩
      obtain ⟨_, hsame, _, dest, _, hmoves⟩ := workerStep_cases hstep
      exact hout ⟨hmoves.owner_main howner, rest, hsame ▸ hhandlers⟩
  | sigusr2 =>
      obtain rfl := sigusr2_cases hstep
      constructor
      · intro hnext _ howner
        exact hnext ⟨howner, state.handlers, rfl⟩
      · rintro hspares ⟨howner, _⟩
        exact hspares rfl howner
  | attach groundPid =>
      rw [State.step, Option.some.injEq] at hstep
      subst next
      exact iff_of_true hout fun heq => by contradiction

/-- The main thread does not come out of it any more. -/
theorem lockedOut_stays {action : Action n} (hsound : Sound state)
    (hout : StateLockedOut state) (hstep : state.step action = some next) :
    StateLockedOut next := by
  obtain ⟨howner, rest, hhandlers⟩ := hout
  cases action with
  | main => simp [State.step, hhandlers, State.handlerStep, howner] at hstep
  | worker worker =>
      obtain ⟨_, hsame, _, dest, _, hmoves⟩ := workerStep_cases hstep
      refine ⟨?_, rest, hsame.trans hhandlers⟩
      generalize howners : next.owner = owner at hmoves
      cases hmoves with
      | keep _ => exact howner
      | take lock hfree htakes =>
          have hne : LockName.stateLock ≠ lock := by
            rintro rfl
            rw [hfree] at howner
            contradiction
          rwa [Function.update_of_ne hne]
      | giveBack lock hgives =>
          have hne : LockName.stateLock ≠ lock := by
            rintro rfl
            have hholds : Holds state .stateLock (.worker worker) := hgives.has
            have hworker := (hsound.owned _ _).mpr hholds
            rw [howner] at hworker
            simp at hworker
          rwa [Function.update_of_ne hne]
  | sigusr2 =>
      obtain rfl := sigusr2_cases hstep
      exact ⟨howner, state.handlers, rfl⟩
  | attach groundPid =>
      rw [State.step, Option.some.injEq] at hstep
      subst next
      exact ⟨howner, rest, hhandlers⟩

theorem lockedOut_forever (hsound : Sound state)
    (hout : StateLockedOut state) {schedule : List (Action n)}
    {later : State n}
    (hrun : (airControl n radioPid).runFrom state schedule = some later) :
    StateLockedOut later := by
  have hkeep : ∀ {state next : State n} {action : Action n},
      (Sound state ∧ StateLockedOut state) →
      (airControl n radioPid).step state action = some next →
      Sound next ∧ StateLockedOut next := by
    rintro state next action ⟨hsound, hout⟩ hstep
    exact ⟨sound_invariant.step hsound hstep,
      lockedOut_stays hsound hout hstep⟩
  exact (runFrom_preserves hkeep ⟨hsound, hout⟩ hrun).2

end Exactness

/-- The air control is free of deadlock in exactly the runs in which no handler
starts while the main thread has `state_lock`. -/
theorem deadlockFree_run_iff {schedule : List (Action n)} {last : State n}
    (hrun : (airControl n radioPid).run schedule = some last) :
    (airControl n radioPid).Always
        (fun state => DeadlockFree state.waiting state.owner) schedule ↔
      (airControl n radioPid).Meets SparesHolder schedule := by
  apply always_iff_meets sound_invariant _ _ hrun
  · rw [deadlockFree_iff sound_invariant.start]
    rintro ⟨howner, _⟩
    simp [airControl, State.start] at howner
  · intro state next action hsound hfree hstep
    have hnext := sound_invariant.step hsound hstep
    rw [deadlockFree_iff hsound] at hfree
    rw [deadlockFree_iff hnext]
    exact lockedOut_step hfree hstep

namespace LockRuns

def main (steps : Nat) : List (Action strips) := List.replicate steps .main

def worker (steps : Nat) : List (Action strips) :=
  List.replicate steps (.worker firstWorker)

/-- The five threads start, and the ground control attaches. -/
def startUp : List (Action strips) := main 6 ++ [.attach 9] ++ main 1

/-- A handler brings planes; two more wait on top of each other for a worker in
its section. -/
def handlersWait : List (Action strips) :=
  startUp ++ [.sigusr2] ++ main 4 ++ worker 5 ++ [.sigusr2, .sigusr2] ++
    worker 5 ++ main 8 ++ worker 1

/-- The second signal comes while the first handler has `state_lock`. -/
def handlerNested : List (Action strips) :=
  startUp ++ [.sigusr2] ++ main 1 ++ [.sigusr2]

end LockRuns

open LockRuns

theorem deadlockFree_run_iff_handlersWait :
    ∃ last, (airControl strips 7).run handlersWait = some last ∧
      last.planes = 14 ∧
      (airControl strips 7).Always
        (fun state => DeadlockFree state.waiting state.owner)
          handlersWait := by
  have hplanes : ((airControl strips 7).run handlersWait).map State.planes =
      some 14 := by
    decide +kernel
  obtain ⟨last, hrun, hlast⟩ := Option.map_eq_some_iff.mp hplanes
  exact ⟨last, hrun, hlast,
    (deadlockFree_run_iff hrun).mpr (by decide +kernel)⟩

/-- The main thread waits for the lock that it holds, for ever. -/
theorem deadlock_reachable :
    (∃ state, (airControl strips 7).Reachable state ∧
      state.waiting .main = some .stateLock ∧
      ∀ schedule later, (airControl strips 7).runFrom state schedule =
        some later → later.owner .stateLock = some .main) ∧
      ¬ ∀ (n radioPid : Nat) (state : State n),
        (airControl n radioPid).Reachable state →
          DeadlockFree state.waiting state.owner := by
  have hmap : ((airControl strips 7).run handlerNested).map (fun state =>
      (state.owner .stateLock, state.handlers)) =
        some (some .main, [.acquire, .load]) := by
    decide +kernel
  obtain ⟨state, hrun, heq⟩ := Option.map_eq_some_iff.mp hmap
  obtain ⟨howner, hhandlers⟩ := Prod.mk.inj heq
  have hsound := sound_invariant.run hrun
  have hout : StateLockedOut state := ⟨howner, _, hhandlers⟩
  refine ⟨⟨state, ⟨handlerNested, hrun⟩, ?_, fun schedule later hlater =>
    (lockedOut_forever hsound hout hlater).1⟩, ?_⟩
  · rw [State.waiting, hhandlers]
  · intro hall
    have hfree := hall strips 7 state ⟨handlerNested, hrun⟩
    exact (deadlockFree_iff hsound).mp hfree hout

end AirControlPyLocks

end OsCourse
