/-
What the missing second test in the C section costs.  The planes can go below
zero and the takeoffs above the limit; a run is free of either exactly when
every section is entered in a state where the test would still pass.
-/
import OsCourse.AirControlC

namespace OsCourse

namespace Airport

open TransitionSystem ThreadPool

variable {n : Nat}

/-- A controller enters the `state_lock` section only while a plane is left. -/
def EntersWithPlane (air : AirControlC n) : CAction n → Prop
  | .takeOffsFunction controller =>
      (air.place controller).inSection = true → 0 < air.planes
  | .sigHandler2 => True

/-- A controller enters the `state_lock` section only while the loop guard
still holds. -/
def EntersBelowLimit (air : AirControlC n) : CAction n → Prop
  | .takeOffsFunction controller =>
      (air.place controller).inSection = true →
        air.totalTakeoffs < totalTakeoffsLimit
  | .sigHandler2 => True

theorem step_takeOffsFunction {air next : AirControlC n} {controller : Fin n}
    (hstep : (airControlC n).alone.step air (.takeOffsFunction controller) =
      some next) :
    ∃ dest, AirControlC.ControllerStep air next controller dest := by
  simp only [AirProgram.alone, Option.map_eq_some_iff] at hstep
  rcases hstep with ⟨⟨_, kills⟩, hair, rfl⟩
  exact AirControlC.takeOffsFunction_step hair

theorem step_sigHandler2 {air next : AirControlC n}
    (hstep : (airControlC n).alone.step air .sigHandler2 = some next) :
    next = air.sigHandler2 :=
  (Option.some.inj hstep).symm

/-- A section takes one from what is left, which is enough where something is
left. -/
theorem section_room_iff {inSection : Bool} {room : Int} (hroom : 0 ≤ room) :
    0 ≤ room - inSection.toNat ↔ (inSection = true → 0 < room) := by
  cases inSection with
  | false =>
      rw [Bool.toNat_false]
      exact iff_of_true (by omega) fun hinside => by cases hinside
  | true =>
      rw [Bool.toNat_true]
      exact ⟨fun hleft _ => by omega, fun hleft => by
        have := hleft rfl
        omega⟩

/-- A thread that has left its loop saw the limit reached. -/
def LeaversSawLimit (air : AirControlC n) : Prop :=
  ∀ controller, (air.place controller).leftLoop = true →
    totalTakeoffsLimit ≤ air.totalTakeoffs

theorem leaversSawLimit_invariant :
    Invariant (airControlC n).alone LeaversSawLimit where
  start := by
    intro controller hleft
    simp [AirProgram.alone, airControlC, AirControlC.start] at hleft
  step := by
    intro air next action hinv hstep
    cases action with
    | sigHandler2 =>
        obtain rfl := step_sigHandler2 hstep
        exact hinv
    | takeOffsFunction controller =>
        obtain ⟨dest, hmove⟩ := step_takeOffsFunction hstep
        have htotal := hmove.totalTakeoffs
        intro other hleft
        rw [hmove.place] at hleft
        by_cases heq : other = controller
        · subst other
          rw [Function.update_self] at hleft
          rcases hmove.leftLoop hleft with hbefore | hlimit
          · have := hinv controller hbefore
            omega
          · omega
        · rw [Function.update_of_ne heq] at hleft
          have := hinv other hleft
          omega

/-- At most twenty takeoffs, and exactly twenty once all threads returned. -/
def ExactTakeoffs (air : AirControlC n) : Prop :=
  air.totalTakeoffs ≤ 20 ∧
    ((∀ controller, air.place controller = .returned) →
      air.totalTakeoffs = 20)

instance (air : AirControlC n) : Decidable (ExactTakeoffs air) :=
  inferInstanceAs (Decidable (_ ∧ _))

/-- The takeoffs are exact along a run exactly when every section of the run is
entered while the loop guard still holds. -/
theorem exactTakeoffs_iff {schedule : List (CAction controllerCount)}
    {last : AirControlC controllerCount}
    (hrun : (airControlC controllerCount).alone.run schedule = some last) :
    (airControlC controllerCount).alone.Always ExactTakeoffs schedule ↔
      (airControlC controllerCount).alone.Meets EntersBelowLimit schedule := by
  have hexact : ∀ air : AirControlC controllerCount, LeaversSawLimit air →
      (ExactTakeoffs air ↔ air.totalTakeoffs ≤ totalTakeoffsLimit) := by
    intro air hleavers
    refine ⟨fun hair => hair.1, fun hle => ⟨hle, fun hreturned => ?_⟩⟩
    have hge := hleavers 0 (by rw [hreturned 0]; rfl)
    exact Int.le_antisymm hle hge
  apply always_iff_meets leaversSawLimit_invariant _ _ hrun
  · rw [hexact _ leaversSawLimit_invariant.start]
    decide
  intro air next action hleavers hair hstep
  rw [hexact air hleavers] at hair
  rw [hexact next (leaversSawLimit_invariant.step hleavers hstep)]
  cases action with
  | sigHandler2 =>
      obtain rfl := step_sigHandler2 hstep
      exact iff_of_true hair trivial
  | takeOffsFunction controller =>
      obtain ⟨dest, hmove⟩ := step_takeOffsFunction hstep
      have hroom := @section_room_iff (air.place controller).inSection
        (totalTakeoffsLimit - air.totalTakeoffs) (Int.sub_nonneg.mpr hair)
      rw [sub_sub, ← hmove.totalTakeoffs, Int.sub_nonneg, Int.sub_pos] at hroom
      exact hroom

/-- Each controller between its test and its section can cost one plane, so the
five of them never take the planes below -4. -/
theorem planes_ge {air : AirControlC controllerCount}
    (hreach : (airControlC controllerCount).alone.Reachable air) :
    -4 ≤ air.planes := by
  have hinv : Invariant (airControlC controllerCount).alone fun air =>
      -4 ≤ air.planes - countAt air.place ControllerPlace.pastTest := by
    refine ⟨by decide, ?_⟩
    intro air next action hinv hstep
    cases action with
    | sigHandler2 =>
        obtain rfl := step_sigHandler2 hstep
        simp only [AirControlC.sigHandler2]
        omega
    | takeOffsFunction controller =>
        obtain ⟨dest, hmove⟩ := step_takeOffsFunction hstep
        have hplanes := hmove.planes
        have hcount := countAt_update air.place ControllerPlace.pastTest
          controller dest
        rw [← hmove.place] at hcount
        cases hdest : dest.pastTest with
        | false =>
            -- leaving through the section takes one plane with it
            have hle : (air.place controller).inSection.toNat ≤
                (air.place controller).pastTest.toNat :=
              Bool.toNat_le_toNat ControllerPlace.pastTest_of_inSection
            rw [hdest, Bool.toNat_false] at hcount
            omega
        | true =>
            have hguard := ControllerPlace.pastGuard_of_pastTest hdest
            have hout : (air.place controller).inSection = false := by
              cases hsection : (air.place controller).inSection with
              | false => rfl
              | true =>
                  rw [(hmove.inSection hsection).1] at hguard
                  contradiction
            rw [hout, Bool.toNat_false] at hplanes
            rw [hdest, Bool.toNat_true] at hcount
            rcases hmove.pastTest hdest with hbefore | hpos
            · rw [hbefore, Bool.toNat_true] at hcount
              omega
            · have hcard := countAt_le_card next.place ControllerPlace.pastTest
              rw [Fintype.card_fin] at hcard
              change _ ≤ 5 at hcard
              omega
  have hair := hinv.reachable hreach
  omega

namespace TakeoffRuns

/-- The steps of one thread in a row. -/
def thread (controller : Fin controllerCount) (steps : Nat) :
    List (CAction controllerCount) :=
  List.replicate steps (.takeOffsFunction controller)

/-- Five planes, four of which have taken off. -/
def onePlaneLeft : List (CAction controllerCount) :=
  .sigHandler2 :: thread controller0 20

/-- Two controllers pass the test on the last plane and take both runways. -/
def lastPlaneTwice : List (CAction controllerCount) :=
  onePlaneLeft ++ thread controller0 2 ++ thread controller1 2 ++
    thread controller0 1 ++ thread controller1 2 ++ thread controller0 1 ++
    thread controller1 1

/-- Twenty-five planes; two controllers pass the guard after 19 takeoffs. -/
def limitPassedTwice : List (CAction controllerCount) :=
  List.replicate 5 .sigHandler2 ++ thread controller0 95 ++
    thread controller0 2 ++ thread controller1 2 ++ thread controller0 1 ++
    thread controller1 2 ++ thread controller0 1 ++ thread controller1 1

/-- Twenty takeoffs by one thread, after which all five return. -/
def oneByOne : List (CAction controllerCount) :=
  List.replicate 4 .sigHandler2 ++ thread controller0 100 ++
    thread controller0 2 ++ thread controller1 2 ++ thread controller2 2 ++
    thread controller3 2 ++ thread controller4 2

end TakeoffRuns

open TakeoffRuns

theorem exactTakeoffs_iff_oneByOne :
    (airControlC controllerCount).alone.Meets EntersBelowLimit oneByOne := by
  have hrun : ((airControlC controllerCount).alone.run oneByOne).isSome := by
    decide +kernel
  obtain ⟨last, hlast⟩ := Option.isSome_iff_exists.mp hrun
  exact (exactTakeoffs_iff hlast).mp (by decide +kernel)

/-- Twenty-one takeoffs. -/
theorem takeoffs_above_limit_reachable :
    ¬ ∀ air : AirControlC controllerCount,
      (airControlC controllerCount).alone.Reachable air → ExactTakeoffs air := by
  intro hall
  have htotal : ((airControlC controllerCount).alone.run limitPassedTwice).map
      AirControlC.totalTakeoffs = some 21 := by
    decide +kernel
  obtain ⟨air, hrun, hair⟩ := Option.map_eq_some_iff.mp htotal
  have := (hall air ⟨limitPassedTwice, hrun⟩).1
  omega

end Airport

end OsCourse
