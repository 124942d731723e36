/-
The runways of the Python air control.  A worker keeps the number of its runway in
a local variable and gives the runway back in two places; whatever the others do
in between, it gives back what it has taken, and nothing else.
-/
import OsCourse.AirControlPyLocks
import OsCourse.Processes

namespace OsCourse

namespace AirControlPyLocks

open TransitionSystem LockOwnership ThreadPool Airport

/-- The statements that release the runway of the local variable. -/
def WorkerPlace.releases : WorkerPlace → Option Runway
  | .releaseEarly runway | .sleeping runway => some runway
  | _ => none

/-- Between the acquisition of a runway and its release. -/
def WorkerPlace.onRunway (place : WorkerPlace) : Bool :=
  place.holding.runway.isSome

/-- Between the acquisition of this runway and its release. -/
def WorkerPlace.onThis (runway : Runway) (place : WorkerPlace) : Bool :=
  decide (place.holding.runway = some runway)

/-- What the runway locks and the workers promise in every state. -/
structure RunwayDiscipline {n : Nat} (state : State n) : Prop where
  oneWorker : ∀ runway first second,
    (state.worker first).holding.runway = some runway →
    (state.worker second).holding.runway = some runway → first = second
  oneRunway : ∀ worker first second,
    state.owner (.runwayLock first) = some (.worker worker) →
    state.owner (.runwayLock second) = some (.worker worker) → first = second
  ownRelease : ∀ worker runway, (state.worker worker).releases = some runway →
    state.owner (.runwayLock runway) = some (.worker worker)
  atMostTwo : countAt state.worker WorkerPlace.onRunway ≤ 2
  iterationEnds : ∀ worker, state.worker worker = .loopGuard → ∀ runway,
    state.owner (.runwayLock runway) ≠ some (.worker worker)
  allReturned : (∀ worker, state.worker worker = .returned) → ∀ runway,
    state.owner (.runwayLock runway) = none

variable {n radioPid : Nat} {state : State n}

theorem WorkerPlace.holding_of_releases {place : WorkerPlace}
    {runway : Runway} (hreleases : place.releases = some runway) :
    place.holding.runway = some runway := by
  cases place <;> simp_all [WorkerPlace.releases, WorkerPlace.holding]

/-- The owner of a runway is the worker that is on it. -/
theorem Sound.owner_runway_iff (hsound : Sound state) (runway : Runway)
    (worker : Fin n) :
    state.owner (.runwayLock runway) = some (.worker worker) ↔
      (state.worker worker).holding.runway = some runway :=
  hsound.owned (.runwayLock runway) (.worker worker)

/-- The main thread does not take a runway. -/
theorem Sound.owner_runway_worker (hsound : Sound state) {runway : Runway}
    {thread : Thread n}
    (howner : state.owner (.runwayLock runway) = some thread) :
    ∃ worker, thread = .worker worker := by
  cases thread with
  | main =>
      have hholds := (hsound.owned (.runwayLock runway) .main).mp howner
      simp [Holds] at hholds
  | worker worker => exact ⟨worker, rfl⟩

theorem Sound.runway_unique (hsound : Sound state) {runway : Runway}
    {first second : Fin n}
    (hfirst : (state.worker first).holding.runway = some runway)
    (hsecond : (state.worker second).holding.runway = some runway) :
    first = second := by
  rw [← hsound.owner_runway_iff] at hfirst hsecond
  rw [hfirst, Option.some.injEq, Thread.worker.injEq] at hsecond
  exact hsecond

theorem Sound.atMostTwo (hsound : Sound state) :
    countAt state.worker WorkerPlace.onRunway ≤ 2 := by
  have hone : ∀ runway,
      countAt state.worker (WorkerPlace.onThis runway) ≤ 1 := by
    intro runway
    apply countAt_le_one_of_unique
    intro first second hfirst hsecond
    exact hsound.runway_unique (of_decide_eq_true hfirst)
      (of_decide_eq_true hsecond)
  have hsplit := @countAt_le_add _ _ _ state.worker
    (WorkerPlace.onThis .runway1) (WorkerPlace.onThis .runway2)
    WorkerPlace.onRunway (by
      intro place hrunway
      obtain ⟨runway, heq⟩ := Option.isSome_iff_exists.mp hrunway
      cases runway with
      | runway1 => exact .inl (decide_eq_true heq)
      | runway2 => exact .inr (decide_eq_true heq))
  have hrunway1 := hone .runway1
  have hrunway2 := hone .runway2
  omega

/-- The discipline holds in every state of every run. -/
theorem runwayDiscipline (hreach : (airControl n radioPid).Reachable state) :
    RunwayDiscipline state := by
  have hsound : Sound state := sound_invariant.reachable hreach
  have hnone : ∀ worker,
      (state.worker worker).holding.runway = none → ∀ runway,
      state.owner (.runwayLock runway) ≠ some (.worker worker) := by
    intro worker hholding runway
    rw [ne_eq, hsound.owner_runway_iff, hholding]
    simp
  refine ⟨fun _ _ _ => hsound.runway_unique, ?_, ?_, hsound.atMostTwo, ?_, ?_⟩
  · intro worker first second hfirst hsecond
    rw [hsound.owner_runway_iff] at hfirst hsecond
    exact Option.some.inj (hfirst.symm.trans hsecond)
  · intro worker runway hreleases
    rw [hsound.owner_runway_iff]
    exact WorkerPlace.holding_of_releases hreleases
  · intro worker hplace
    apply hnone
    rw [hplace]
    rfl
  · intro hreturned runway
    by_contra howner
    obtain ⟨thread, hthread⟩ := Option.ne_none_iff_exists'.mp howner
    obtain ⟨worker, rfl⟩ := hsound.owner_runway_worker hthread
    refine hnone worker ?_ runway hthread
    rw [hreturned]
    rfl

namespace RunwayRuns

def firstWorker : Fin 2 := ⟨0, Nat.two_pos⟩

def secondWorker : Fin 2 := ⟨1, Nat.one_lt_two⟩

/-- Both workers are started, five planes arrive, and each worker takes a
runway. -/
def bothTaken : List (Action 2) :=
  [.main, .main, .main, .sigusr2, .main, .main, .main, .main] ++
    List.replicate 3 (.worker firstWorker) ++
    List.replicate 4 (.worker secondWorker)

end RunwayRuns

open RunwayRuns

theorem runwayDiscipline_bothTaken :
    ∃ state, (airControl 2 7).run bothTaken = some state ∧
      state.owner (.runwayLock .runway1) = some (.worker firstWorker) ∧
      state.owner (.runwayLock .runway2) = some (.worker secondWorker) ∧
      RunwayDiscipline state := by
  have howners : (((airControl 2 7).run bothTaken).map fun state =>
      (state.owner (.runwayLock .runway1),
        state.owner (.runwayLock .runway2))) =
      some (some (.worker firstWorker), some (.worker secondWorker)) := by
    decide +kernel
  obtain ⟨state, hrun, heq⟩ := Option.map_eq_some_iff.mp howners
  rw [Prod.mk.injEq] at heq
  exact ⟨state, hrun, heq.1, heq.2, runwayDiscipline ⟨bothTaken, hrun⟩⟩

end AirControlPyLocks

end OsCourse
