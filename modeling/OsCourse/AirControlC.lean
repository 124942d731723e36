/-
The C air control with coarse atomic steps: each evaluation of the loop guard,
each test of `planes`, each trylock, each `state_lock` section, each unlock of a
runway and each run of `SigHandler2` is one step.  Unlike the Python program,
the section does not test `planes` or `total_takeoffs` again.
-/
import OsCourse.AirControlPy

namespace OsCourse

namespace Airport

open TransitionSystem StandardSignals ThreadPool

/-- The number of controller threads that `main` creates. -/
abbrev controllerCount : Nat := 5

/-- The threads of `controllers[0]` to `controllers[4]`. -/
def controller0 : Fin controllerCount := ⟨0, by decide⟩
def controller1 : Fin controllerCount := ⟨1, by decide⟩
def controller2 : Fin controllerCount := ⟨2, by decide⟩
def controller3 : Fin controllerCount := ⟨3, by decide⟩
def controller4 : Fin controllerCount := ⟨4, by decide⟩

/-- Where a thread running `TakeOffsFunction` is. -/
inductive ControllerPlace where
  | loopGuard
  | planesTest
  | tryRunway1
  | tryRunway2
  | takeoff (runway : Runway)
  | sleeping (runway : Runway)
  | limitTest
  | returned
deriving Repr, DecidableEq

structure AirControlC (n : Nat) where
  planes : Int
  takeoffs : Int
  totalTakeoffs : Int
  runway1Locked : Bool
  runway2Locked : Bool
  place : Fin n → ControllerPlace

inductive CAction (n : Nat) where
  | takeOffsFunction (controller : Fin n)
  | sigHandler2
deriving Repr, DecidableEq

namespace AirControlC

variable {n : Nat}

def start : AirControlC n := ⟨0, 0, 0, false, false, fun _ => .loopGuard⟩

def goto (air : AirControlC n) (controller : Fin n) (place : ControllerPlace) :
    AirControlC n :=
  { air with place := Function.update air.place controller place }

def setLocked (air : AirControlC n) (runway : Runway) (locked : Bool) :
    AirControlC n :=
  match runway with
  | .runway1 => { air with runway1Locked := locked }
  | .runway2 => { air with runway2Locked := locked }

/-- The section between the lock and the unlock of `state_lock`. -/
def takeoffSection (air : AirControlC n) : AirControlC n × List Kill :=
  let air := { air with
    planes := air.planes - 1
    takeoffs := air.takeoffs + 1
    totalTakeoffs := air.totalTakeoffs + 1 }
  if air.takeoffs = 5 then
    ({ air with takeoffs := 0 },
      [⟨.radio, .sigusr1⟩, ⟨.groundControl, .sigusr1⟩])
  else (air, [])

/-- The next step of one thread running `TakeOffsFunction`. -/
def takeOffsFunction (air : AirControlC n) (controller : Fin n) :
    Option (AirControlC n × List Kill) :=
  match air.place controller with
  | .loopGuard =>
      some (air.goto controller (if air.totalTakeoffs < totalTakeoffsLimit then
        .planesTest else .limitTest), [])
  | .planesTest =>
      some (air.goto controller (if air.planes ≤ 0 then .loopGuard
        else .tryRunway1), [])
  | .tryRunway1 =>
      if air.runway1Locked then some (air.goto controller .tryRunway2, [])
      else some
        ((air.setLocked .runway1 true).goto controller (.takeoff .runway1), [])
  | .tryRunway2 =>
      if air.runway2Locked then some (air.goto controller .loopGuard, [])
      else some
        ((air.setLocked .runway2 true).goto controller (.takeoff .runway2), [])
  | .takeoff runway =>
      some (air.takeoffSection.1.goto controller (.sleeping runway),
        air.takeoffSection.2)
  | .sleeping runway =>
      some ((air.setLocked runway false).goto controller .loopGuard, [])
  | .limitTest =>
      some (air.goto controller .returned,
        if air.totalTakeoffs ≥ 20 then [⟨.radio, .sigterm⟩] else [])
  | .returned => none

def sigHandler2 (air : AirControlC n) : AirControlC n :=
  { air with planes := air.planes + 5 }

def step (air : AirControlC n) :
    CAction n → Option (AirControlC n × List Kill)
  | .takeOffsFunction controller => air.takeOffsFunction controller
  | .sigHandler2 => some (air.sigHandler2, [])

def handles : CAction n → Bool
  | .takeOffsFunction _ => false
  | .sigHandler2 => true

end AirControlC

def airControlC (n : Nat) : AirProgram (AirControlC n) (CAction n) where
  start := AirControlC.start
  step := AirControlC.step
  handles := AirControlC.handles

namespace ControllerPlace

@[simp] def inSection : ControllerPlace → Bool
  | .takeoff _ => true
  | _ => false

/-- Past the test of `planes` and not yet through the section. -/
@[simp] def pastTest : ControllerPlace → Bool
  | .tryRunway1 | .tryRunway2 | .takeoff _ => true
  | _ => false

/-- Past the loop guard and not yet through the section. -/
@[simp] def pastGuard : ControllerPlace → Bool
  | .planesTest | .tryRunway1 | .tryRunway2 | .takeoff _ => true
  | _ => false

@[simp] def leftLoop : ControllerPlace → Bool
  | .limitTest | .returned => true
  | _ => false

theorem pastTest_of_inSection {place : ControllerPlace}
    (hsection : place.inSection = true) : place.pastTest = true := by
  cases place <;> simp_all

theorem pastGuard_of_pastTest {place : ControllerPlace}
    (hpast : place.pastTest = true) : place.pastGuard = true := by
  cases place <;> simp_all

end ControllerPlace

namespace AirControlC

variable {n : Nat} {air next : AirControlC n} {kills : List Kill}

/-- All that a step of `TakeOffsFunction` does to the counters and to the place
of its thread. -/
structure ControllerStep (air next : AirControlC n) (controller : Fin n)
    (dest : ControllerPlace) : Prop where
  place : next.place = Function.update air.place controller dest
  planes : next.planes =
    air.planes - (air.place controller).inSection.toNat
  totalTakeoffs : next.totalTakeoffs =
    air.totalTakeoffs + (air.place controller).inSection.toNat
  inSection : (air.place controller).inSection = true →
    dest.pastGuard = false ∧ dest.leftLoop = false
  pastTest : dest.pastTest = true →
    (air.place controller).pastTest = true ∨ 0 < air.planes
  pastGuard : dest.pastGuard = true →
    (air.place controller).pastGuard = true ∨
      air.totalTakeoffs < totalTakeoffsLimit
  leftLoop : dest.leftLoop = true →
    (air.place controller).leftLoop = true ∨
      totalTakeoffsLimit ≤ air.totalTakeoffs

theorem takeoffSection_fields (air : AirControlC n) :
    air.takeoffSection.1.place = air.place ∧
      air.takeoffSection.1.planes = air.planes - 1 ∧
      air.takeoffSection.1.totalTakeoffs = air.totalTakeoffs + 1 := by
  unfold takeoffSection
  by_cases hbatch : air.takeoffs + 1 = 5
  · simp [hbatch]
  · simp [hbatch]

@[simp] theorem setLocked_fields (air : AirControlC n) (runway : Runway)
    (locked : Bool) :
    (air.setLocked runway locked).place = air.place ∧
      (air.setLocked runway locked).planes = air.planes ∧
      (air.setLocked runway locked).totalTakeoffs = air.totalTakeoffs := by
  cases runway <;> exact ⟨rfl, rfl, rfl⟩

theorem takeOffsFunction_step {controller : Fin n}
    (hstep : air.takeOffsFunction controller = some (next, kills)) :
    ∃ dest, ControllerStep air next controller dest := by
  cases hplace : air.place controller with
  | loopGuard =>
      simp only [takeOffsFunction, hplace, Option.some.injEq,
        Prod.mk.injEq] at hstep
      rcases hstep with ⟨rfl, rfl⟩
      by_cases hlimit : air.totalTakeoffs < totalTakeoffsLimit
      · refine ⟨.planesTest, by simp [goto, hlimit], ?_, ?_, ?_, ?_, ?_, ?_⟩
        all_goals simp [goto, hplace, hlimit]
      · refine ⟨.limitTest, by simp [goto, hlimit], ?_, ?_, ?_, ?_, ?_, ?_⟩
        all_goals simp [goto, hplace, Int.not_lt.mp hlimit]
  | planesTest =>
      simp only [takeOffsFunction, hplace, Option.some.injEq,
        Prod.mk.injEq] at hstep
      rcases hstep with ⟨rfl, rfl⟩
      by_cases hplanes : air.planes ≤ 0
      · refine ⟨.loopGuard, by simp [goto, hplanes], ?_, ?_, ?_, ?_, ?_, ?_⟩
        all_goals simp [goto, hplace]
      · refine ⟨.tryRunway1, by simp [goto, hplanes], ?_, ?_, ?_, ?_, ?_, ?_⟩
        all_goals simp [goto, hplace, Int.not_le.mp hplanes]
  | tryRunway1 | tryRunway2 =>
      simp only [takeOffsFunction, hplace] at hstep
      split at hstep
      all_goals
        simp only [Option.some.injEq, Prod.mk.injEq] at hstep
        rcases hstep with ⟨rfl, rfl⟩
        refine ⟨_, by simp only [goto, setLocked]; rfl, ?_, ?_, ?_, ?_, ?_, ?_⟩
        all_goals simp [goto, hplace]
  | takeoff runway =>
      obtain ⟨hsame, hplanes, htotal⟩ := takeoffSection_fields air
      simp only [takeOffsFunction, hplace, Option.some.injEq,
        Prod.mk.injEq] at hstep
      rcases hstep with ⟨rfl, rfl⟩
      refine ⟨.sleeping runway, by simp [goto, hsame], ?_, ?_, ?_, ?_, ?_, ?_⟩
      all_goals simp [goto, hplace, hplanes, htotal]
  | sleeping runway =>
      simp only [takeOffsFunction, hplace, Option.some.injEq,
        Prod.mk.injEq] at hstep
      rcases hstep with ⟨rfl, rfl⟩
      refine ⟨.loopGuard, by simp [goto], ?_, ?_, ?_, ?_, ?_, ?_⟩
      all_goals simp [goto, hplace]
  | limitTest =>
      simp only [takeOffsFunction, hplace, Option.some.injEq,
        Prod.mk.injEq] at hstep
      rcases hstep with ⟨rfl, rfl⟩
      refine ⟨.returned, rfl, ?_, ?_, ?_, ?_, ?_, ?_⟩
      all_goals simp [goto, hplace]
  | returned => simp [takeOffsFunction, hplace] at hstep

end AirControlC

end Airport

end OsCourse
