/-
The C air control statement by statement: every read and every write of `planes`
is a step of its own, `state_lock` is a mutex, and `SigHandler2` runs on top of
any thread between any two of its steps.
-/
import OsCourse.AirControlC

namespace OsCourse

namespace Airport

open TransitionSystem StandardSignals ThreadPool

/-- Where a thread running `TakeOffsFunction` is, statement by statement. -/
inductive StatementPlace where
  | loopGuard
  | planesTest
  | tryRunway1
  | tryRunway2
  | lockState (runway : Runway)
  | loadPlanes (runway : Runway)
  | storePlanes (runway : Runway) (loaded : Int)
  | countTakeoff (runway : Runway)
  | killRadio (runway : Runway)
  | killGround (runway : Runway)
  | resetTakeoffs (runway : Runway)
  | unlockState (runway : Runway)
  | sleeping (runway : Runway)
  | limitTest
  | returned
deriving Repr, DecidableEq

/-- Where a run of `SigHandler2` on a thread is: `planes += 5` reads `planes`
and then writes it. -/
inductive HandlerPlace where
  | idle
  | loadPlanes
  | storePlanes (loaded : Int)
deriving Repr, DecidableEq

inductive Thread (n : Nat) where
  | main
  | controller (index : Fin n)
deriving Repr, DecidableEq

/-- The globals and threads of the process.  `handlerRuns` counts the completed
runs of `SigHandler2`. -/
structure AirThreads (n : Nat) where
  planes : Int
  takeoffs : Int
  totalTakeoffs : Int
  runway1Locked : Bool
  runway2Locked : Bool
  stateLocked : Bool
  place : Fin n → StatementPlace
  handler : Thread n → HandlerPlace
  handlerRuns : Nat

inductive ThreadAction (n : Nat) where
  | takeOffsFunction (controller : Fin n)
  | startSigHandler2 (thread : Thread n)
  | sigHandler2 (thread : Thread n)
deriving Repr, DecidableEq

namespace AirThreads

variable {n : Nat}

def start : AirThreads n :=
  ⟨0, 0, 0, false, false, false, fun _ => .loopGuard, fun _ => .idle, 0⟩

def goto (air : AirThreads n) (controller : Fin n) (place : StatementPlace) :
    AirThreads n :=
  { air with place := Function.update air.place controller place }

def setLocked (air : AirThreads n) (runway : Runway) (locked : Bool) :
    AirThreads n :=
  match runway with
  | .runway1 => { air with runway1Locked := locked }
  | .runway2 => { air with runway2Locked := locked }

/-- The next statement of `TakeOffsFunction` on one thread. -/
def statement (air : AirThreads n) (controller : Fin n) :
    Option (AirThreads n × List Kill) :=
  match air.place controller with
  | .loopGuard =>
      some (air.goto controller (if air.totalTakeoffs < totalTakeoffsLimit then
        .planesTest else .limitTest), [])
  | .planesTest =>
      some (air.goto controller (if air.planes ≤ 0 then .loopGuard
        else .tryRunway1), [])
  | .tryRunway1 =>
      if air.runway1Locked then some (air.goto controller .tryRunway2, [])
      else some
        ((air.setLocked .runway1 true).goto controller (.lockState .runway1),
          [])
  | .tryRunway2 =>
      if air.runway2Locked then some (air.goto controller .loopGuard, [])
      else some
        ((air.setLocked .runway2 true).goto controller (.lockState .runway2),
          [])
  | .lockState runway =>
      if air.stateLocked then none
      else some (({ air with stateLocked := true } : AirThreads n).goto
        controller (.loadPlanes runway), [])
  | .loadPlanes runway =>
      some (air.goto controller (.storePlanes runway air.planes), [])
  | .storePlanes runway loaded =>
      some (({ air with planes := loaded - 1 } : AirThreads n).goto
        controller (.countTakeoff runway), [])
  | .countTakeoff runway =>
      some (({ air with
          takeoffs := air.takeoffs + 1
          totalTakeoffs := air.totalTakeoffs + 1 } : AirThreads n).goto
        controller (if air.takeoffs + 1 = 5 then .killRadio runway
          else .unlockState runway), [])
  | .killRadio runway =>
      some (air.goto controller (.killGround runway), [⟨.radio, .sigusr1⟩])
  | .killGround runway =>
      some (air.goto controller (.resetTakeoffs runway),
        [⟨.groundControl, .sigusr1⟩])
  | .resetTakeoffs runway =>
      some (({ air with takeoffs := 0 } : AirThreads n).goto
        controller (.unlockState runway), [])
  | .unlockState runway =>
      some (({ air with stateLocked := false } : AirThreads n).goto
        controller (.sleeping runway), [])
  | .sleeping runway =>
      some ((air.setLocked runway false).goto controller .loopGuard, [])
  | .limitTest =>
      some (air.goto controller .returned,
        if air.totalTakeoffs ≥ 20 then [⟨.radio, .sigterm⟩] else [])
  | .returned => none

/-- A thread that has returned no longer takes signals. -/
def alive (air : AirThreads n) : Thread n → Bool
  | .main => true
  | .controller index => decide (air.place index ≠ .returned)

/-- The next statement of the `SigHandler2` run on one thread. -/
def handlerStatement (air : AirThreads n) (thread : Thread n) :
    Option (AirThreads n) :=
  match air.handler thread with
  | .idle => none
  | .loadPlanes =>
      some { air with handler :=
        Function.update air.handler thread (.storePlanes air.planes) }
  | .storePlanes loaded =>
      some { air with
        planes := loaded + 5
        handler := Function.update air.handler thread .idle
        handlerRuns := air.handlerRuns + 1 }

/-- A thread is suspended while a handler runs on it, and SIGUSR2 is blocked
there meanwhile. -/
def step (air : AirThreads n) :
    ThreadAction n → Option (AirThreads n × List Kill)
  | .takeOffsFunction controller =>
      if air.handler (.controller controller) = .idle then
        air.statement controller
      else none
  | .startSigHandler2 thread =>
      if air.handler thread = .idle ∧ air.alive thread = true then
        some ({ air with handler :=
          Function.update air.handler thread .loadPlanes }, [])
      else none
  | .sigHandler2 thread =>
      (air.handlerStatement thread).map fun air => (air, [])

def handles : ThreadAction n → Bool
  | .startSigHandler2 _ => true
  | _ => false

end AirThreads

def airThreads (n : Nat) : AirProgram (AirThreads n) (ThreadAction n) where
  start := AirThreads.start
  step := AirThreads.step
  handles := AirThreads.handles

namespace StatementPlace

/-- Between the lock and the unlock of `state_lock`. -/
def inSection : StatementPlace → Bool
  | .loadPlanes _ | .storePlanes _ _ | .countTakeoff _ | .killRadio _
  | .killGround _ | .resetTakeoffs _ | .unlockState _ => true
  | _ => false

/-- `planes` has been decremented and the takeoff is not yet counted. -/
def uncounted : StatementPlace → Bool
  | .countTakeoff _ => true
  | _ => false

/-- The value that the next statement writes `planes` from. -/
def loaded : StatementPlace → Option Int
  | .storePlanes _ loaded => some loaded
  | _ => none

theorem loaded_of_not_inSection {place : StatementPlace}
    (hsection : place.inSection = false) : place.loaded = none := by
  cases place <;> simp_all [loaded, inSection]

theorem inSection_of_uncounted {place : StatementPlace}
    (huncounted : place.uncounted = true) : place.inSection = true := by
  cases place <;> simp_all [uncounted, inSection]

theorem uncounted_of_not_inSection {place : StatementPlace}
    (hsection : place.inSection = false) : place.uncounted = false := by
  cases huncounted : place.uncounted with
  | false => rfl
  | true => rw [inSection_of_uncounted huncounted] at hsection; contradiction

end StatementPlace

def HandlerPlace.loaded : HandlerPlace → Option Int
  | .storePlanes loaded => some loaded
  | _ => none

namespace AirThreads

variable {n : Nat} {air next : AirThreads n} {kills : List Kill}

/-- A step that leaves everything alone that `state_lock` protects. -/
structure SameSection (air next : AirThreads n) : Prop where
  planes : next.planes = air.planes
  takeoffs : next.takeoffs = air.takeoffs
  totalTakeoffs : next.totalTakeoffs = air.totalTakeoffs
  stateLocked : next.stateLocked = air.stateLocked
  handler : next.handler = air.handler
  handlerRuns : next.handlerRuns = air.handlerRuns

/-- What one statement of a controller does: outside the section nothing that
`state_lock` protects, inside it exactly the statement that is due. -/
inductive StatementEffect (air : AirThreads n) (controller : Fin n) :
    AirThreads n → List Kill → Prop
  | outside {next : AirThreads n} {kills : List Kill} {dest : StatementPlace}
      (here : (air.place controller).inSection = false)
      (there : dest.inSection = false)
      (place : next.place = Function.update air.place controller dest)
      (same : SameSection air next)
      (sends : kills = [] ∨ kills = [⟨.radio, .sigterm⟩]) :
      StatementEffect air controller next kills
  | lockState {runway : Runway}
      (here : air.place controller = .lockState runway)
      (free : air.stateLocked = false) :
      StatementEffect air controller
        (({ air with stateLocked := true } : AirThreads n).goto controller
          (.loadPlanes runway)) []
  | loadPlanes {runway : Runway}
      (here : air.place controller = .loadPlanes runway) :
      StatementEffect air controller
        (air.goto controller (.storePlanes runway air.planes)) []
  | storePlanes {runway : Runway} {loaded : Int}
      (here : air.place controller = .storePlanes runway loaded) :
      StatementEffect air controller
        (({ air with planes := loaded - 1 } : AirThreads n).goto controller
          (.countTakeoff runway)) []
  | countTakeoff {runway : Runway} {dest : StatementPlace}
      (here : air.place controller = .countTakeoff runway)
      (due : dest = if air.takeoffs + 1 = 5 then .killRadio runway
        else .unlockState runway) :
      StatementEffect air controller
        (({ air with
            takeoffs := air.takeoffs + 1
            totalTakeoffs := air.totalTakeoffs + 1 } : AirThreads n).goto
          controller dest) []
  | killRadio {runway : Runway}
      (here : air.place controller = .killRadio runway) :
      StatementEffect air controller (air.goto controller (.killGround runway))
        [⟨.radio, .sigusr1⟩]
  | killGround {runway : Runway}
      (here : air.place controller = .killGround runway) :
      StatementEffect air controller
        (air.goto controller (.resetTakeoffs runway))
        [⟨.groundControl, .sigusr1⟩]
  | resetTakeoffs {runway : Runway}
      (here : air.place controller = .resetTakeoffs runway) :
      StatementEffect air controller
        (({ air with takeoffs := 0 } : AirThreads n).goto controller
          (.unlockState runway)) []
  | unlockState {runway : Runway}
      (here : air.place controller = .unlockState runway) :
      StatementEffect air controller
        (({ air with stateLocked := false } : AirThreads n).goto controller
          (.sleeping runway)) []

theorem sameSection_goto (air : AirThreads n) (controller : Fin n)
    (place : StatementPlace) : SameSection air (air.goto controller place) :=
  ⟨rfl, rfl, rfl, rfl, rfl, rfl⟩

theorem sameSection_setLocked_goto (air : AirThreads n) (runway : Runway)
    (locked : Bool) (controller : Fin n) (place : StatementPlace) :
    SameSection air ((air.setLocked runway locked).goto controller place) := by
  cases runway <;> exact ⟨rfl, rfl, rfl, rfl, rfl, rfl⟩

theorem setLocked_place (air : AirThreads n) (runway : Runway)
    (locked : Bool) : (air.setLocked runway locked).place = air.place := by
  cases runway <;> rfl

theorem statement_effect {controller : Fin n}
    (hstatement : air.statement controller = some (next, kills)) :
    StatementEffect air controller next kills := by
  cases hplace : air.place controller with
  | loopGuard | planesTest =>
      simp only [statement, hplace, Option.some.injEq,
        Prod.mk.injEq] at hstatement
      rcases hstatement with ⟨rfl, rfl⟩
      refine .outside (by rw [hplace]; rfl) ?_ rfl (sameSection_goto ..)
        (.inl rfl)
      split <;> rfl
  | tryRunway1 =>
      simp only [statement, hplace] at hstatement
      have htry2 : StatementPlace.tryRunway2.inSection = false := rfl
      have hlock : (StatementPlace.lockState .runway1).inSection = false := rfl
      split at hstatement
      · obtain ⟨rfl, rfl⟩ := Prod.mk.inj (Option.some.inj hstatement)
        exact .outside (by rw [hplace]; rfl) htry2 rfl (sameSection_goto ..)
          (.inl rfl)
      · obtain ⟨rfl, rfl⟩ := Prod.mk.inj (Option.some.inj hstatement)
        exact .outside (by rw [hplace]; rfl) hlock rfl
          (sameSection_setLocked_goto ..) (.inl rfl)
  | tryRunway2 =>
      simp only [statement, hplace] at hstatement
      have hloop : StatementPlace.loopGuard.inSection = false := rfl
      have hlock : (StatementPlace.lockState .runway2).inSection = false := rfl
      split at hstatement
      · obtain ⟨rfl, rfl⟩ := Prod.mk.inj (Option.some.inj hstatement)
        exact .outside (by rw [hplace]; rfl) hloop rfl (sameSection_goto ..)
          (.inl rfl)
      · obtain ⟨rfl, rfl⟩ := Prod.mk.inj (Option.some.inj hstatement)
        exact .outside (by rw [hplace]; rfl) hlock rfl
          (sameSection_setLocked_goto ..) (.inl rfl)
  | lockState runway =>
      simp only [statement, hplace, Option.ite_none_left_eq_some,
        Option.some.injEq, Prod.mk.injEq] at hstatement
      rcases hstatement with ⟨hfree, rfl, rfl⟩
      exact .lockState hplace (Bool.eq_false_iff.mpr hfree)
  | loadPlanes runway =>
      simp only [statement, hplace, Option.some.injEq,
        Prod.mk.injEq] at hstatement
      rcases hstatement with ⟨rfl, rfl⟩
      exact .loadPlanes hplace
  | storePlanes runway loaded =>
      simp only [statement, hplace, Option.some.injEq,
        Prod.mk.injEq] at hstatement
      rcases hstatement with ⟨rfl, rfl⟩
      exact .storePlanes hplace
  | countTakeoff runway =>
      simp only [statement, hplace, Option.some.injEq,
        Prod.mk.injEq] at hstatement
      rcases hstatement with ⟨rfl, rfl⟩
      exact .countTakeoff hplace rfl
  | killRadio runway =>
      simp only [statement, hplace, Option.some.injEq,
        Prod.mk.injEq] at hstatement
      rcases hstatement with ⟨rfl, rfl⟩
      exact .killRadio hplace
  | killGround runway =>
      simp only [statement, hplace, Option.some.injEq,
        Prod.mk.injEq] at hstatement
      rcases hstatement with ⟨rfl, rfl⟩
      exact .killGround hplace
  | resetTakeoffs runway =>
      simp only [statement, hplace, Option.some.injEq,
        Prod.mk.injEq] at hstatement
      rcases hstatement with ⟨rfl, rfl⟩
      exact .resetTakeoffs hplace
  | unlockState runway =>
      simp only [statement, hplace, Option.some.injEq,
        Prod.mk.injEq] at hstatement
      rcases hstatement with ⟨rfl, rfl⟩
      exact .unlockState hplace
  | sleeping runway =>
      simp only [statement, hplace, Option.some.injEq,
        Prod.mk.injEq] at hstatement
      rcases hstatement with ⟨rfl, rfl⟩
      have hloop : StatementPlace.loopGuard.inSection = false := rfl
      refine .outside (by rw [hplace]; rfl) hloop ?_
        (sameSection_setLocked_goto ..) (.inl rfl)
      simp only [goto, setLocked_place]
  | limitTest =>
      simp only [statement, hplace, Option.some.injEq,
        Prod.mk.injEq] at hstatement
      rcases hstatement with ⟨rfl, rfl⟩
      have hreturned : StatementPlace.returned.inSection = false := rfl
      refine .outside (by rw [hplace]; rfl) hreturned rfl
        (sameSection_goto ..) ?_
      split
      · exact .inr rfl
      · exact .inl rfl
  | returned => simp [statement, hplace] at hstatement

/-- What one step of a handler run does. -/
theorem handlerStatement_cases {thread : Thread n}
    (hstatement : air.handlerStatement thread = some next) :
    (air.handler thread = .loadPlanes ∧
        next = { air with
          handler :=
            Function.update air.handler thread (.storePlanes air.planes) }) ∨
      (∃ loaded, air.handler thread = .storePlanes loaded ∧
        next = { air with
          planes := loaded + 5
          handler := Function.update air.handler thread .idle
          handlerRuns := air.handlerRuns + 1 }) := by
  unfold handlerStatement at hstatement
  split at hstatement
  case h_1 => contradiction
  case h_2 hload => exact .inl ⟨hload, (Option.some.inj hstatement).symm⟩
  case h_3 loaded hstore =>
      exact .inr ⟨loaded, hstore, (Option.some.inj hstatement).symm⟩

theorem step_takeOffsFunction {controller : Fin n}
    (hstep : air.step (.takeOffsFunction controller) = some (next, kills)) :
    StatementEffect air controller next kills := by
  simp only [step, Option.ite_none_right_eq_some] at hstep
  exact statement_effect hstep.2

theorem step_startSigHandler2 {thread : Thread n}
    (hstep : air.step (.startSigHandler2 thread) = some (next, kills)) :
    kills = [] ∧ next = { air with
      handler := Function.update air.handler thread .loadPlanes } := by
  simp only [step, Option.ite_none_right_eq_some] at hstep
  obtain ⟨rfl, rfl⟩ := Prod.mk.inj (Option.some.inj hstep.2)
  exact ⟨rfl, rfl⟩

theorem step_sigHandler2 {thread : Thread n}
    (hstep : air.step (.sigHandler2 thread) = some (next, kills)) :
    kills = [] ∧ air.handlerStatement thread = some next := by
  simp only [step, Option.map_eq_some_iff] at hstep
  rcases hstep with ⟨after, hstatement, heq⟩
  obtain ⟨rfl, rfl⟩ := Prod.mk.inj heq
  exact ⟨rfl, hstatement⟩

end AirThreads

end Airport

end OsCourse
