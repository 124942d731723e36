/-
The planes of the C air control as a ledger: every plane that `SigHandler2`
added is either still in `planes` or has taken off.  The handler does not lock,
so a write of `planes` can overwrite another one; the ledger balances along a
run exactly when no write does.
-/
import OsCourse.AirControlCThreads

namespace OsCourse

namespace Airport

open TransitionSystem ThreadPool

variable {n : Nat}

/-- A step that writes `planes` finds there the value that was read for the
write: no other write came in between. -/
def FreshWrite (air : AirThreads n) : ThreadAction n → Prop
  | .takeOffsFunction controller =>
      ∀ loaded ∈ (air.place controller).loaded, loaded = air.planes
  | .startSigHandler2 _ => True
  | .sigHandler2 thread =>
      ∀ loaded ∈ (air.handler thread).loaded, loaded = air.planes

instance (air : AirThreads n) :
    (action : ThreadAction n) → Decidable (FreshWrite air action)
  | .takeOffsFunction controller =>
      inferInstanceAs (Decidable
        (∀ loaded ∈ (air.place controller).loaded, loaded = air.planes))
  | .startSigHandler2 _ => isTrue trivial
  | .sigHandler2 thread =>
      inferInstanceAs (Decidable
        (∀ loaded ∈ (air.handler thread).loaded, loaded = air.planes))

/-- Planes on the ground, planes decremented but not yet counted as a takeoff,
and takeoffs add up to the planes of the completed handler runs. -/
def Ledger (air : AirThreads n) : Prop :=
  air.planes + countAt air.place StatementPlace.uncounted +
      air.totalTakeoffs = 5 * air.handlerRuns

/-- No controller is inside the section and no handler is running. -/
def Quiescent (air : AirThreads n) : Prop :=
  (∀ controller, (air.place controller).inSection = false) ∧
    ∀ thread, air.handler thread = .idle

theorem freshWrite_of_loaded_none {air : AirThreads n} {controller : Fin n}
    (hloaded : (air.place controller).loaded = none) :
    FreshWrite air (.takeOffsFunction controller) := by
  simp [FreshWrite, hloaded]

theorem Ledger.of_kept {air next : AirThreads n} {controller : Fin n}
    {dest : StatementPlace} (hledger : Ledger air)
    (hplace : next.place = Function.update air.place controller dest)
    (hhere : (air.place controller).uncounted = false)
    (hdest : dest.uncounted = false) (hplanes : next.planes = air.planes)
    (htotal : next.totalTakeoffs = air.totalTakeoffs)
    (hruns : next.handlerRuns = air.handlerRuns) : Ledger next := by
  have hcount :=
    countAt_update air.place StatementPlace.uncounted controller dest
  rw [hhere, hdest, ← hplace] at hcount
  unfold Ledger at hledger ⊢
  omega

theorem ledger_takeOffsFunction {air next : AirThreads n}
    {controller : Fin n} {kills : List Kill} (hledger : Ledger air)
    (heffect : AirThreads.StatementEffect air controller next kills) :
    Ledger next ↔ FreshWrite air (.takeOffsFunction controller) := by
  cases heffect with
  | outside here there place same _ =>
      refine iff_of_true ?_ (freshWrite_of_loaded_none
        (StatementPlace.loaded_of_not_inSection here))
      exact hledger.of_kept place
        (StatementPlace.uncounted_of_not_inSection here)
        (StatementPlace.uncounted_of_not_inSection there)
        same.planes same.totalTakeoffs same.handlerRuns
  | @storePlanes runway loaded here =>
      -- the write replaces whatever `planes` is by now
      have hcount := countAt_update air.place StatementPlace.uncounted
        controller (.countTakeoff runway)
      simp only [here, StatementPlace.uncounted, Bool.toNat_true,
        Bool.toNat_false] at hcount
      simp only [Ledger] at hledger
      simp only [Ledger, FreshWrite, here, StatementPlace.loaded,
        Option.mem_some_iff, forall_eq', AirThreads.goto]
      omega
  | @countTakeoff runway dest here due =>
      have hdest : dest.uncounted = false := by
        rw [due]
        split <;> rfl
      have hcount :=
        countAt_update air.place StatementPlace.uncounted controller dest
      rw [here, hdest] at hcount
      simp only [StatementPlace.uncounted, Bool.toNat_true,
        Bool.toNat_false] at hcount
      refine iff_of_true ?_ (freshWrite_of_loaded_none (by rw [here]; rfl))
      simp only [Ledger] at hledger
      simp only [Ledger, AirThreads.goto]
      omega
  | lockState here
  | loadPlanes here
  | killRadio here
  | killGround here
  | resetTakeoffs here
  | unlockState here =>
      refine iff_of_true ?_ (freshWrite_of_loaded_none (by rw [here]; rfl))
      exact hledger.of_kept rfl (by rw [here]; rfl) rfl rfl rfl rfl

theorem ledger_sigHandler2 {air next : AirThreads n} {thread : Thread n}
    (hledger : Ledger air)
    (hstatement : air.handlerStatement thread = some next) :
    Ledger next ↔ FreshWrite air (.sigHandler2 thread) := by
  unfold Ledger at hledger ⊢
  rcases AirThreads.handlerStatement_cases hstatement with
    ⟨hload, rfl⟩ | ⟨loaded, hstore, rfl⟩
  · exact iff_of_true hledger (by simp [FreshWrite, hload, HandlerPlace.loaded])
  · simp only [FreshWrite, hstore, HandlerPlace.loaded, Option.mem_some_iff,
      forall_eq']
    push_cast
    omega

/-- The ledger balances along a run exactly when every write of the run is
fresh. -/
theorem ledger_always_iff {schedule : List (ThreadAction n)}
    {last : AirThreads n}
    (hrun : (airThreads n).alone.run schedule = some last) :
    (airThreads n).alone.Always Ledger schedule ↔
      (airThreads n).alone.Meets FreshWrite schedule := by
  have htrivial : Invariant (airThreads n).alone fun _ => True :=
    ⟨trivial, fun _ _ => trivial⟩
  apply always_iff_meets htrivial _ _ hrun
  · have hcount : countAt (airThreads n).alone.start.place
        StatementPlace.uncounted = 0 :=
      countAt_eq_zero_iff.mpr fun _ => rfl
    rw [Ledger, hcount]
    rfl
  intro air next action _ hledger hstep
  simp only [AirProgram.alone, Option.map_eq_some_iff] at hstep
  rcases hstep with ⟨⟨_, kills⟩, hair, rfl⟩
  cases action with
  | takeOffsFunction controller =>
      exact ledger_takeOffsFunction hledger
        (AirThreads.step_takeOffsFunction hair)
  | startSigHandler2 thread =>
      obtain ⟨_, rfl⟩ := AirThreads.step_startSigHandler2 hair
      exact iff_of_true hledger trivial
  | sigHandler2 thread =>
      exact ledger_sigHandler2 hledger (AirThreads.step_sigHandler2 hair).2

namespace LedgerRuns

/-- A full run of `SigHandler2` on the main thread. -/
def supply : List (ThreadAction controllerCount) :=
  [.startSigHandler2 .main, .sigHandler2 .main, .sigHandler2 .main]

/-- The statements of one thread in a row. -/
def statements (controller : Fin controllerCount) (steps : Nat) :
    List (ThreadAction controllerCount) :=
  List.replicate steps (.takeOffsFunction controller)

/-- A takeoff up to the unlock of `state_lock`, with no handler in between. -/
def quietTakeoff : List (ThreadAction controllerCount) :=
  supply ++ statements controller0 8 ++ supply

/-- The same takeoff; the second batch arrives between the read and the write
of `planes--`. -/
def overwrittenBatch : List (ThreadAction controllerCount) :=
  supply ++ statements controller0 5 ++ supply ++ statements controller0 3

end LedgerRuns

open LedgerRuns

instance (air : AirThreads controllerCount) : Decidable (Quiescent air) :=
  decidable_of_iff
    ((∀ controller, (air.place controller).inSection = false) ∧
      air.handler .main = .idle ∧
      ∀ controller, air.handler (.controller controller) = .idle) (by
    constructor
    · rintro ⟨hsection, hmain, hcontrollers⟩
      refine ⟨hsection, fun thread => ?_⟩
      cases thread with
      | main => exact hmain
      | controller index => exact hcontrollers index
    · rintro ⟨hsection, hidle⟩
      exact ⟨hsection, hidle .main, fun index => hidle (.controller index)⟩)

end Airport

end OsCourse
