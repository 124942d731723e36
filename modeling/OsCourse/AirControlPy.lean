/-
The Python air control: `takeoff_worker` and `sigusr2_handler`.  Each
`with state_lock` body is one atomic step, so `state_lock` itself does not
appear in the state.
-/
import OsCourse.AirportTower

namespace OsCourse

namespace Airport

open TransitionSystem StandardSignals

def totalTakeoffsLimit : Int := 20

inductive Runway where
  | runway1
  | runway2
deriving Repr, DecidableEq

/-- Where a `takeoff_worker` thread is. -/
inductive WorkerPlace where
  | loopGuard
  | planesCheck
  | acquireRunway1
  | acquireRunway2
  | takeoff (runway : Runway)
  | sleeping (runway : Runway)
  | closing
  | returned
deriving Repr, DecidableEq

/-- The globals of `main.py` and its threads.  `handlersRunning` counts the
activations of `sigusr2_handler` that have started and not yet run their
locked body. -/
structure AirControlPy (n : Nat) where
  planes : Int
  takeoffs : Int
  totalTakeoffs : Int
  runway1Locked : Bool
  runway2Locked : Bool
  place : Fin n → WorkerPlace
  handlersRunning : Nat

inductive PyAction (n : Nat) where
  | takeoffWorker (worker : Fin n)
  | sigusr2Handler
  | sigusr2Body
deriving Repr, DecidableEq

namespace AirControlPy

variable {n : Nat}

def start : AirControlPy n :=
  ⟨0, 0, 0, false, false, fun _ => .loopGuard, 0⟩

def goto (air : AirControlPy n) (worker : Fin n) (place : WorkerPlace) :
    AirControlPy n :=
  { air with place := Function.update air.place worker place }

def setLocked (air : AirControlPy n) (runway : Runway) (locked : Bool) :
    AirControlPy n :=
  match runway with
  | .runway1 => { air with runway1Locked := locked }
  | .runway2 => { air with runway2Locked := locked }

/-- The body under `state_lock`: check the planes again, then take off and
signal the radio after every fifth takeoff. -/
def takeoffBody (air : AirControlPy n) (worker : Fin n) (runway : Runway) :
    AirControlPy n × List Kill :=
  if air.planes ≤ 0 then
    ((air.setLocked runway false).goto worker .loopGuard, [])
  else
    let air := { air with
      planes := air.planes - 1
      takeoffs := air.takeoffs + 1
      totalTakeoffs := air.totalTakeoffs + 1 }
    if air.takeoffs = 5 then
      (({ air with takeoffs := 0 } : AirControlPy n).goto worker
        (.sleeping runway), [⟨.radio, .sigusr1⟩])
    else (air.goto worker (.sleeping runway), [])

/-- The next step of one `takeoff_worker` thread. -/
def takeoffWorker (air : AirControlPy n) (worker : Fin n) :
    Option (AirControlPy n × List Kill) :=
  match air.place worker with
  | .loopGuard =>
      some (air.goto worker (if air.totalTakeoffs < totalTakeoffsLimit then
        .planesCheck else .closing), [])
  | .planesCheck =>
      some (air.goto worker (if air.planes ≤ 0 then .loopGuard
        else .acquireRunway1), [])
  | .acquireRunway1 =>
      if air.runway1Locked then some (air.goto worker .acquireRunway2, [])
      else
        some ((air.setLocked .runway1 true).goto worker (.takeoff .runway1), [])
  | .acquireRunway2 =>
      if air.runway2Locked then some (air.goto worker .loopGuard, [])
      else
        some ((air.setLocked .runway2 true).goto worker (.takeoff .runway2), [])
  | .takeoff runway => some (air.takeoffBody worker runway)
  | .sleeping runway =>
      some ((air.setLocked runway false).goto worker .loopGuard, [])
  | .closing =>
      some (air.goto worker .returned,
        if totalTakeoffsLimit ≤ air.totalTakeoffs then
          [⟨.radio, .sigterm⟩] else [])
  | .returned => none

def step (air : AirControlPy n) :
    PyAction n → Option (AirControlPy n × List Kill)
  | .takeoffWorker worker => air.takeoffWorker worker
  | .sigusr2Handler =>
      some ({ air with handlersRunning := air.handlersRunning + 1 }, [])
  | .sigusr2Body =>
      if 0 < air.handlersRunning then
        some ({ air with
          planes := air.planes + 5
          handlersRunning := air.handlersRunning - 1 }, [])
      else none

def handles : PyAction n → Bool
  | .sigusr2Handler => true
  | _ => false

end AirControlPy

def airControlPy (n : Nat) : AirProgram (AirControlPy n) (PyAction n) where
  start := AirControlPy.start
  step := AirControlPy.step
  handles := AirControlPy.handles

/-- The number of `takeoff_worker` threads that `main` starts. -/
abbrev strips : Nat := 5

def firstWorker : Fin strips := ⟨0, by decide⟩

namespace AirControlPy

variable {n : Nat} {air next : AirControlPy n} {kills : List Kill}

section Fields

variable (air) (worker : Fin n) (place : WorkerPlace) (runway : Runway)
  (locked : Bool)

@[simp] theorem goto_planes : (air.goto worker place).planes = air.planes := rfl
@[simp] theorem goto_takeoffs :
    (air.goto worker place).takeoffs = air.takeoffs := rfl
@[simp] theorem goto_totalTakeoffs :
    (air.goto worker place).totalTakeoffs = air.totalTakeoffs := rfl
@[simp] theorem goto_handlersRunning :
    (air.goto worker place).handlersRunning = air.handlersRunning := rfl
@[simp] theorem setLocked_planes :
    (air.setLocked runway locked).planes = air.planes := by
  cases runway <;> rfl
@[simp] theorem setLocked_takeoffs :
    (air.setLocked runway locked).takeoffs = air.takeoffs := by
  cases runway <;> rfl
@[simp] theorem setLocked_totalTakeoffs :
    (air.setLocked runway locked).totalTakeoffs = air.totalTakeoffs := by
  cases runway <;> rfl
@[simp] theorem setLocked_handlersRunning :
    (air.setLocked runway locked).handlersRunning = air.handlersRunning := by
  cases runway <;> rfl

end Fields

/-- The counters that the accounting is about. -/
structure SameCounters (air next : AirControlPy n) : Prop where
  planes : next.planes = air.planes
  takeoffs : next.takeoffs = air.takeoffs
  totalTakeoffs : next.totalTakeoffs = air.totalTakeoffs
  handlersRunning : next.handlersRunning = air.handlersRunning

/-- All that one step of a worker can do to the counters and to the other
processes. -/
inductive WorkerEffect (air next : AirControlPy n) : List Kill → Prop where
  | quiet (same : SameCounters air next) : WorkerEffect air next []
  | takeoff (planes_pos : 0 < air.planes)
      (planes : next.planes = air.planes - 1)
      (takeoffs_ne : air.takeoffs + 1 ≠ 5)
      (takeoffs : next.takeoffs = air.takeoffs + 1)
      (totalTakeoffs : next.totalTakeoffs = air.totalTakeoffs + 1)
      (handlersRunning : next.handlersRunning = air.handlersRunning) :
      WorkerEffect air next []
  | batch (planes_pos : 0 < air.planes)
      (planes : next.planes = air.planes - 1)
      (takeoffs_eq : air.takeoffs + 1 = 5)
      (takeoffs : next.takeoffs = 0)
      (totalTakeoffs : next.totalTakeoffs = air.totalTakeoffs + 1)
      (handlersRunning : next.handlersRunning = air.handlersRunning) :
      WorkerEffect air next [⟨.radio, .sigusr1⟩]
  | finish (same : SameCounters air next)
      (limit : totalTakeoffsLimit ≤ air.totalTakeoffs) :
      WorkerEffect air next [⟨.radio, .sigterm⟩]

theorem takeoffBody_effect (air : AirControlPy n) (worker : Fin n)
    (runway : Runway) :
    WorkerEffect air (air.takeoffBody worker runway).1
      (air.takeoffBody worker runway).2 := by
  by_cases hplanes : air.planes ≤ 0
  · simp only [takeoffBody, if_pos hplanes]
    exact .quiet ⟨by simp, by simp, by simp, by simp⟩
  · by_cases hbatch : air.takeoffs + 1 = 5
    · simp only [takeoffBody, if_neg hplanes, if_pos hbatch]
      exact .batch (by omega) rfl hbatch rfl rfl rfl
    · simp only [takeoffBody, if_neg hplanes, if_neg hbatch]
      exact .takeoff (by omega) rfl hbatch rfl rfl rfl

theorem takeoffWorker_effect {worker : Fin n}
    (hstep : air.takeoffWorker worker = some (next, kills)) :
    WorkerEffect air next kills := by
  cases hplace : air.place worker with
  | loopGuard | planesCheck | sleeping runway =>
      simp only [takeoffWorker, hplace, Option.some.injEq,
        Prod.mk.injEq] at hstep
      rcases hstep with ⟨rfl, rfl⟩
      exact .quiet ⟨by simp, by simp, by simp, by simp⟩
  | acquireRunway1 | acquireRunway2 =>
      simp only [takeoffWorker, hplace] at hstep
      split at hstep
      all_goals
        simp only [Option.some.injEq, Prod.mk.injEq] at hstep
        rcases hstep with ⟨rfl, rfl⟩
        exact .quiet ⟨by simp, by simp, by simp, by simp⟩
  | takeoff runway =>
      have hbody := takeoffBody_effect air worker runway
      simp only [takeoffWorker, hplace, Option.some.injEq] at hstep
      rwa [hstep] at hbody
  | closing =>
      simp only [takeoffWorker, hplace, Option.some.injEq,
        Prod.mk.injEq] at hstep
      rcases hstep with ⟨rfl, rfl⟩
      by_cases hlimit : totalTakeoffsLimit ≤ air.totalTakeoffs
      · rw [if_pos hlimit]
        exact .finish ⟨rfl, rfl, rfl, rfl⟩ hlimit
      · rw [if_neg hlimit]
        exact .quiet ⟨rfl, rfl, rfl, rfl⟩
  | returned => simp [takeoffWorker, hplace] at hstep

theorem step_sigusr2Handler
    (hstep : air.step .sigusr2Handler = some (next, kills)) :
    kills = [] ∧
      next = { air with handlersRunning := air.handlersRunning + 1 } := by
  simp only [step, Option.some.injEq, Prod.mk.injEq] at hstep
  exact ⟨hstep.2.symm, hstep.1.symm⟩

theorem step_sigusr2Body
    (hstep : air.step .sigusr2Body = some (next, kills)) :
    0 < air.handlersRunning ∧ kills = [] ∧ next = { air with
      planes := air.planes + 5
      handlersRunning := air.handlersRunning - 1 } := by
  simp only [step, Option.ite_none_right_eq_some, Option.some.injEq,
    Prod.mk.injEq] at hstep
  exact ⟨hstep.1, hstep.2.2.symm, hstep.2.1.symm⟩

end AirControlPy

end Airport

end OsCourse
