/-
Every run of the coarse C program is a run of the program of statements: the
controllers go through the `state_lock` section without a pause and the handler
runs on the main thread.  What the coarse program can reach, negative planes and
twenty-one takeoffs included, the program of statements can reach.
-/
import OsCourse.TakeoffRaces
import OsCourse.AirControlCThreads

namespace OsCourse

namespace Airport

open TransitionSystem

variable {n : Nat}

/-- A coarse takeoff starts at the lock of `state_lock`. -/
def ControllerPlace.statement : ControllerPlace → StatementPlace
  | .loopGuard => .loopGuard
  | .planesTest => .planesTest
  | .tryRunway1 => .tryRunway1
  | .tryRunway2 => .tryRunway2
  | .takeoff runway => .lockState runway
  | .sleeping runway => .sleeping runway
  | .limitTest => .limitTest
  | .returned => .returned

/-- The coarse state with `state_lock` free and no handler running. -/
def AirThreads.ofCoarse (air : AirControlC n) (handlerRuns : Nat) :
    AirThreads n where
  planes := air.planes
  takeoffs := air.takeoffs
  totalTakeoffs := air.totalTakeoffs
  runway1Locked := air.runway1Locked
  runway2Locked := air.runway2Locked
  stateLocked := false
  place := ControllerPlace.statement ∘ air.place
  handler := fun _ => .idle
  handlerRuns := handlerRuns

theorem ofCoarse_goto (air : AirControlC n) (runs : Nat)
    (controller : Fin n) (place : ControllerPlace) :
    AirThreads.ofCoarse (air.goto controller place) runs =
      (AirThreads.ofCoarse air runs).goto controller place.statement := by
  simp only [AirThreads.ofCoarse, AirControlC.goto, AirThreads.goto,
    Function.comp_update]

theorem ofCoarse_setLocked (air : AirControlC n) (runs : Nat)
    (runway : Runway) (locked : Bool) :
    AirThreads.ofCoarse (air.setLocked runway locked) runs =
      (AirThreads.ofCoarse air runs).setLocked runway locked := by
  cases runway <;> rfl

theorem ofCoarse_place {air : AirControlC n} {runs : Nat}
    {controller : Fin n} {place : ControllerPlace}
    (hplace : air.place controller = place) :
    (AirThreads.ofCoarse air runs).place controller = place.statement :=
  congrArg ControllerPlace.statement hplace

/-- Outside the section the two programs make the same step. -/
theorem statement_ofCoarse {air next : AirControlC n} {controller : Fin n}
    {kills : List Kill} (runs : Nat)
    (hsection : (air.place controller).inSection = false)
    (hstep : air.takeOffsFunction controller = some (next, kills)) :
    (AirThreads.ofCoarse air runs).statement controller =
      some (.ofCoarse next runs, kills) := by
  cases hplace : air.place controller with
  | loopGuard | planesTest =>
      simp only [AirControlC.takeOffsFunction, hplace, Option.some.injEq,
        Prod.mk.injEq] at hstep
      rcases hstep with ⟨rfl, rfl⟩
      rw [ofCoarse_goto, apply_ite ControllerPlace.statement,
        AirThreads.statement, ofCoarse_place hplace]
      rfl
  | tryRunway1 | tryRunway2 =>
      simp only [AirControlC.takeOffsFunction, hplace] at hstep
      simp only [AirThreads.statement, ofCoarse_place hplace,
        ControllerPlace.statement]
      split at hstep
      all_goals
        rename_i hlocked
        simp only [Option.some.injEq, Prod.mk.injEq] at hstep
        rcases hstep with ⟨rfl, rfl⟩
        simp only [ofCoarse_goto, ofCoarse_setLocked,
          ControllerPlace.statement]
      · exact if_pos hlocked
      · exact if_neg hlocked
  | sleeping runway =>
      simp only [AirControlC.takeOffsFunction, hplace, Option.some.injEq,
        Prod.mk.injEq] at hstep
      rcases hstep with ⟨rfl, rfl⟩
      simp only [AirThreads.statement, ofCoarse_place hplace,
        ControllerPlace.statement, ofCoarse_goto, ofCoarse_setLocked]
  | limitTest =>
      simp only [AirControlC.takeOffsFunction, hplace, Option.some.injEq,
        Prod.mk.injEq] at hstep
      rcases hstep with ⟨rfl, rfl⟩
      simp only [AirThreads.statement, ofCoarse_place hplace,
        ControllerPlace.statement, ofCoarse_goto]
      rfl
  | takeoff runway => simp [hplace] at hsection
  | returned => simp [AirControlC.takeOffsFunction, hplace] at hstep

section Section

variable {air : AirThreads n} {controller : Fin n} {runway : Runway}

/-- The section without a batch: lock, read, write, count, unlock. -/
theorem section_run (hplace : air.place controller = .lockState runway)
    (hfree : air.stateLocked = false)
    (hidle : air.handler (.controller controller) = .idle)
    (hbatch : air.takeoffs + 1 ≠ 5) :
    (airThreads n).alone.runFrom air
        (List.replicate 5 (.takeOffsFunction controller)) =
      some { air with
        planes := air.planes - 1
        takeoffs := air.takeoffs + 1
        totalTakeoffs := air.totalTakeoffs + 1
        place := Function.update air.place controller (.sleeping runway) } := by
  simp [System.runFrom, AirProgram.alone, airThreads, AirThreads.step,
    AirThreads.statement, AirThreads.goto, hplace, hidle, hfree, hbatch,
    List.replicate_succ]

/-- The section that completes a batch also signals twice and resets. -/
theorem section_run_batch (hplace : air.place controller = .lockState runway)
    (hfree : air.stateLocked = false)
    (hidle : air.handler (.controller controller) = .idle)
    (hbatch : air.takeoffs + 1 = 5) :
    (airThreads n).alone.runFrom air
        (List.replicate 8 (.takeOffsFunction controller)) =
      some { air with
        planes := air.planes - 1
        takeoffs := 0
        totalTakeoffs := air.totalTakeoffs + 1
        place := Function.update air.place controller (.sleeping runway) } := by
  simp [System.runFrom, AirProgram.alone, airThreads, AirThreads.step,
    AirThreads.statement, AirThreads.goto, hplace, hidle, hfree, hbatch,
    List.replicate_succ]

end Section

/-- A whole step of a coarse controller, section included. -/
theorem runFrom_ofCoarse {air next : AirControlC n} {controller : Fin n}
    {kills : List Kill} (runs : Nat)
    (hstep : air.takeOffsFunction controller = some (next, kills)) :
    ∃ schedule, (airThreads n).alone.runFrom (.ofCoarse air runs) schedule =
      some (.ofCoarse next runs) := by
  cases hsection : (air.place controller).inSection with
  | false =>
      have hfine := statement_ofCoarse runs hsection hstep
      refine ⟨[.takeOffsFunction controller], ?_⟩
      have hidle : (AirThreads.ofCoarse air runs).handler
          (.controller controller) = .idle := rfl
      simp [System.runFrom, AirProgram.alone, airThreads, AirThreads.step,
        hidle, hfine]
  | true =>
      cases hplace : air.place controller with
      | takeoff runway =>
          have hlock : (AirThreads.ofCoarse air runs).place controller =
              .lockState runway := ofCoarse_place hplace
          simp only [AirControlC.takeOffsFunction, hplace, Option.some.injEq,
            Prod.mk.injEq] at hstep
          rcases hstep with ⟨rfl, _⟩
          by_cases hbatch : air.takeoffs + 1 = 5
          · refine ⟨_, (section_run_batch hlock rfl rfl hbatch).trans ?_⟩
            simp only [ofCoarse_goto, AirControlC.takeoffSection, if_pos hbatch]
            rfl
          · refine ⟨_, (section_run hlock rfl rfl hbatch).trans ?_⟩
            simp only [ofCoarse_goto, AirControlC.takeoffSection, if_neg hbatch]
            rfl
      | _ => simp [hplace] at hsection

/-- Every run of the coarse program is one of the program of statements, with
the same counters and runways. -/
theorem airThreads_simulates :
    Simulates (airThreads n).alone (airControlC n).alone fun coarse fine =>
      ∃ runs, fine = AirThreads.ofCoarse coarse runs where
  start := ⟨0, rfl⟩
  step := by
    rintro coarse next action _ ⟨runs, rfl⟩ hstep
    cases action with
    | takeOffsFunction controller =>
        simp only [AirProgram.alone, Option.map_eq_some_iff] at hstep
        rcases hstep with ⟨⟨_, kills⟩, hair, rfl⟩
        obtain ⟨schedule, hrun⟩ := runFrom_ofCoarse runs hair
        exact ⟨schedule, _, hrun, runs, rfl⟩
    | sigHandler2 =>
        obtain rfl := step_sigHandler2 hstep
        refine ⟨[.startSigHandler2 .main, .sigHandler2 .main,
          .sigHandler2 .main], _, ?_, runs + 1, rfl⟩
        simp [System.runFrom, AirProgram.alone, airThreads, AirThreads.step,
          AirThreads.alive, AirThreads.handlerStatement, AirThreads.ofCoarse,
          AirControlC.sigHandler2]

/-- The program of statements reaches the counters of every state that the
coarse program reaches. -/
theorem coarse_counters_reachable {coarse : AirControlC n}
    (hreach : (airControlC n).alone.Reachable coarse) :
    ∃ fine, (airThreads n).alone.Reachable fine ∧
      fine.planes = coarse.planes ∧ fine.takeoffs = coarse.takeoffs ∧
      fine.totalTakeoffs = coarse.totalTakeoffs := by
  obtain ⟨_, hfine, runs, rfl⟩ := airThreads_simulates.reachable hreach
  exact ⟨_, hfine, rfl, rfl, rfl⟩

end Airport

end OsCourse
