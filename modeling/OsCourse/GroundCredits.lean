/-
How often ground control counts a batch of the C air control.  Air control
signals ground control itself and the radio relays a second SIGUSR1, so a batch
is counted once only if one of the two merges with the other or makes up for one
that was lost.
-/
import OsCourse.AirControlCThreads

namespace OsCourse

namespace Airport

open TransitionSystem StandardSignals ThreadPool

variable {n : Nat}

/-- The step sends ground control a SIGUSR1, from a controller or from the
radio's `SigHandler1`. -/
def creditsGround (state : State (AirThreads n)) :
    Action (ThreadAction n) → Bool
  | .air action =>
      decide (⟨.groundControl, .sigusr1⟩ ∈
        airSends (airThreads n) state (.air action))
  | .radioResume => decide (state.radio.frames.head? = some .killGroundControl)
  | _ => false

/-- The takeoffs that ground control has counted, or has started a `SigHandler1` to
count. -/
def groundTaken (state : State (AirThreads n)) : Int :=
  state.ground.takeoffs + 5 * state.ground.running .addTakeoffs

/-- The step sends ground control a SIGUSR1 only to merge with a pending one, or
while ground control has taken fewer batches than air control completed. -/
def CreditDue (state : State (AirThreads n))
    (action : Action (ThreadAction n)) : Prop :=
  creditsGround state action = true →
    state.groundPending .sigusr1 = true ∨
      groundTaken state / 5 < state.air.totalTakeoffs / 5

instance (state : State (AirThreads n)) (action : Action (ThreadAction n)) :
    Decidable (CreditDue state action) :=
  inferInstanceAs (Decidable (_ → _))

/-- The takeoffs of ground control, with those that its pending SIGUSR1 stands
for. -/
def groundBooked (state : State (AirThreads n)) : Int :=
  groundTaken state + 5 * state.groundPending.due .sigusr1

/-- Ground control's takeoffs, with the pending SIGUSR1, are takeoffs of air
control. -/
def Credited (state : State (AirThreads n)) : Prop :=
  groundBooked state ≤ state.air.totalTakeoffs

/-- Ground control counts in batches. -/
def CountsBatches (state : State (AirThreads n)) : Prop :=
  groundTaken state % 5 = 0

/-- A statement never takes a takeoff back, and the one that signals ground
control does not count one. -/
theorem AirThreads.totalTakeoffs_mono {air next : AirThreads n}
    {action : ThreadAction n} {kills : List Kill}
    (hstep : air.step action = some (next, kills)) :
    air.totalTakeoffs ≤ next.totalTakeoffs ∧
      (⟨.groundControl, .sigusr1⟩ ∈ kills →
        next.totalTakeoffs = air.totalTakeoffs) := by
  cases action with
  | takeOffsFunction controller =>
      cases AirThreads.step_takeOffsFunction hstep with
      | outside _ _ _ same _ =>
          exact ⟨same.totalTakeoffs.ge, fun _ => same.totalTakeoffs⟩
      | countTakeoff here due => simp [AirThreads.goto]
      | lockState | loadPlanes | storePlanes | killRadio | killGround |
        resetTakeoffs | unlockState => exact ⟨le_rfl, fun _ => rfl⟩
  | startSigHandler2 thread =>
      obtain ⟨_, rfl⟩ := AirThreads.step_startSigHandler2 hstep
      exact ⟨le_rfl, fun _ => rfl⟩
  | sigHandler2 thread =>
      have hstatement := (AirThreads.step_sigHandler2 hstep).2
      rcases AirThreads.handlerStatement_cases hstatement with
        ⟨_, rfl⟩ | ⟨loaded, _, rfl⟩
      · exact ⟨le_rfl, fun _ => rfl⟩
      · exact ⟨le_rfl, fun _ => rfl⟩

/-- A step never takes a takeoff back, and one that signals ground control does
not count one. -/
theorem step_totalTakeoffs {state next : State (AirThreads n)}
    {action : Action (ThreadAction n)}
    (hstep : step (airThreads n) state action = some next) :
    state.air.totalTakeoffs ≤ next.air.totalTakeoffs ∧
      (creditsGround state action = true →
        next.air.totalTakeoffs = state.air.totalTakeoffs) := by
  rcases step_airState hstep with ⟨airAction, rfl, hair⟩ | ⟨_, hsame⟩
  · obtain ⟨htotal, hkept⟩ := AirThreads.totalTakeoffs_mono hair
    exact ⟨htotal, fun hcredits => hkept (of_decide_eq_true hcredits)⟩
  · rw [hsame]
    exact ⟨le_rfl, fun _ => rfl⟩

theorem groundBooked_of_sends {state next : State (AirThreads n)}
    {action : Action (ThreadAction n)}
    (hground : groundTaken next = groundTaken state)
    (hpending : next.groundPending .sigusr1 =
      (state.groundPending .sigusr1 || creditsGround state action)) :
    groundBooked next = groundBooked state +
      5 * (creditsGround state action &&
        !state.groundPending .sigusr1).toNat := by
  unfold groundBooked Pending.due
  rw [hground, hpending]
  cases creditsGround state action <;>
    cases state.groundPending .sigusr1 <;> simp

/-- The radio signals ground control with the `kill` of its `SigHandler1`. -/
theorem mem_radioKills_iff {radio next : Radio} {kills : List Kill}
    (hresume : radio.resume = some (next, kills)) :
    ⟨.groundControl, .sigusr1⟩ ∈ kills ↔
      radio.frames.head? = some .killGroundControl := by
  obtain ⟨frame, outer, hframes, hstatement⟩ := Radio.resume_eq_some hresume
  rw [hframes, List.head?_cons, Option.some.injEq]
  cases frame
  all_goals
    obtain ⟨_, rfl⟩ := Prod.mk.inj hstatement
    simp

/-- A step books five takeoffs more exactly when it sends ground control a
SIGUSR1 that does not merge. -/
theorem step_groundBooked {state next : State (AirThreads n)}
    {action : Action (ThreadAction n)}
    (hstep : step (airThreads n) state action = some next) :
    groundBooked next = groundBooked state +
      5 * (creditsGround state action &&
        !state.groundPending .sigusr1).toNat := by
  cases action with
  | air action =>
      obtain ⟨_, air, kills, _, hsends, rfl⟩ := step_air hstep
      have hground : (state.takeSigusr2
          ((airThreads n).handles action)).ground = state.ground ∧
          (state.takeSigusr2
            ((airThreads n).handles action)).groundPending =
              state.groundPending := by
        unfold State.takeSigusr2
        split <;> exact ⟨rfl, rfl⟩
      apply groundBooked_of_sends
      · rw [groundTaken, (State.post_frame _ kills).2.2, hground.1]
        rfl
      · refine (State.post_pending _ kills .groundControl .sigusr1).trans ?_
        simp only [State.pending, hground.2, creditsGround, hsends]
  | radioDeliver signal =>
      obtain ⟨_, radio, _, rfl⟩ := step_radioDeliver hstep
      exact (Int.add_zero _).symm
  | radioResume =>
      obtain ⟨radio, kills, hresume, rfl⟩ := step_radioResume hstep
      apply groundBooked_of_sends
      · rw [groundTaken, (State.post_frame _ kills).2.2]
        rfl
      · refine (State.post_pending _ kills .groundControl .sigusr1).trans ?_
        simp only [State.pending, creditsGround, mem_radioKills_iff hresume]
  | radioReturn =>
      obtain ⟨_, rfl⟩ := step_radioReturn hstep
      exact (Int.add_zero _).symm
  | timer =>
      obtain rfl := step_timer hstep
      simp [groundBooked, groundTaken, creditsGround]
  | groundDeliver signal =>
      obtain ⟨hpending, ground, hdeliver, rfl⟩ := step_groundDeliver hstep
      -- a pending SIGUSR1 becomes a `SigHandler1` that has to count
      have hground := GroundControl.deliver_delivered hdeliver
      have hdue := Pending.due_clear hpending .sigusr1
      simp only [groundBooked, groundTaken, creditsGround, Bool.false_and,
        Bool.toNat_false, hground.takeoffs, hground.addTakeoffs]
      omega
  | groundResume =>
      obtain ⟨ground, kills, hresume, rfl⟩ := step_groundResume hstep
      have hbooks := GroundControl.resume_keepsBooks hresume
      have htakeoffs := hbooks.takeoffs
      simp only [groundBooked, groundTaken, creditsGround, Bool.false_and,
        Bool.toNat_false]
      rcases hbooks.kills with rfl | rfl
      all_goals
        simp only [State.post_cons, State.post_nil, State.kill_radio]
        omega

theorem credited_step {state next : State (AirThreads n)}
    {action : Action (ThreadAction n)} (hbatches : CountsBatches state)
    (hcredited : Credited state)
    (hstep : step (airThreads n) state action = some next) :
    Credited next ↔ CreditDue state action := by
  have hbooked := step_groundBooked hstep
  obtain ⟨htotal, hsame⟩ := step_totalTakeoffs hstep
  change groundBooked state ≤ state.air.totalTakeoffs at hcredited
  change groundBooked next ≤ next.air.totalTakeoffs ↔ _
  cases hsends : creditsGround state action with
  | false =>
      rw [hsends, Bool.false_and, Bool.toNat_false] at hbooked
      exact iff_of_true (by omega) (by simp [CreditDue, hsends])
  | true =>
      have hkept := hsame hsends
      simp only [CreditDue, hsends, true_implies]
      cases hpending : state.groundPending .sigusr1 with
      | true =>
          rw [hsends, hpending, Bool.not_true, Bool.and_false,
            Bool.toNat_false] at hbooked
          exact iff_of_true (by omega) (.inl rfl)
      | false =>
          rw [hsends, hpending, Bool.not_false, Bool.and_true,
            Bool.toNat_true] at hbooked
          have hcounted : groundBooked state = groundTaken state := by
            rw [groundBooked, Pending.due_of_not_pending hpending]
            omega
          unfold CountsBatches at hbatches
          simp only [Bool.false_eq_true, false_or]
          omega

theorem countsBatches_invariant :
    Invariant (airport (airThreads n)) CountsBatches where
  start := rfl
  step := by
    intro state next action hinv hstep
    have hbooked := step_groundBooked hstep
    unfold CountsBatches at hinv ⊢
    unfold groundBooked at hbooked
    omega

/-- The books of ground control stay within air control's takeoffs along a run,
the pending SIGUSR1 included, exactly when every SIGUSR1 sent to ground control
merges or is due. -/
theorem credited_always_iff {schedule : List (Action (ThreadAction n))}
    {last : State (AirThreads n)}
    (hrun : (airport (airThreads n)).run schedule = some last) :
    (airport (airThreads n)).Always Credited schedule ↔
      (airport (airThreads n)).Meets CreditDue schedule :=
  always_iff_meets countsBatches_invariant (Int.le_refl 0)
    (fun hbatches hcredited hstep => credited_step hbatches hcredited hstep)
    hrun

/-- Along a run in which every SIGUSR1 sent to ground control merges or is due,
ground control never counts more takeoffs than happened. -/
theorem groundTakeoffs_le {schedule : List (Action (ThreadAction n))}
    {last : State (AirThreads n)}
    (hrun : (airport (airThreads n)).run schedule = some last)
    (hmeets : (airport (airThreads n)).Meets CreditDue schedule) :
    (airport (airThreads n)).Always (fun state =>
      state.ground.takeoffs ≤ state.air.totalTakeoffs) schedule := by
  intro pre hpre state hstate
  have hcredited : Credited state :=
    (credited_always_iff hrun).mpr hmeets pre hpre state hstate
  have hdue := state.groundPending.due_nonneg .sigusr1
  have hrunning := state.ground.running_nonneg .addTakeoffs
  unfold Credited groundBooked groundTaken at hcredited
  omega

namespace CreditRuns

/-- One statement of the first controller. -/
def statements (steps : Nat) : List (Action (ThreadAction controllerCount)) :=
  List.replicate steps (.air (.takeOffsFunction controller0))

/-- Ground control adds five planes, the radio passes them on and the main
thread of air control handles them. -/
def supply : List (Action (ThreadAction controllerCount)) :=
  [.timer, .groundDeliver .sigalrm] ++ List.replicate 4 .groundResume ++
    .radioDeliver .sigusr2 :: List.replicate 4 .radioResume ++
    [.air (.startSigHandler2 .main), .air (.sigHandler2 .main),
      .air (.sigHandler2 .main)]

/-- Five takeoffs of one controller, up to both signals of the batch. -/
def batch : List (Action (ThreadAction controllerCount)) :=
  supply ++ statements 45

/-- The radio counts the batch and relays its SIGUSR1. -/
def relay : List (Action (ThreadAction controllerCount)) :=
  .radioDeliver .sigusr1 :: List.replicate 3 .radioResume

/-- Ground control takes a SIGUSR1 and counts it. -/
def credit : List (Action (ThreadAction controllerCount)) :=
  [.groundDeliver .sigusr1, .groundResume]

/-- The relay merges with the SIGUSR1 still pending at ground control. -/
def mergedRelay : List (Action (ThreadAction controllerCount)) :=
  batch ++ relay ++ credit

/-- Ground control has taken the direct SIGUSR1 before the relay arrives. -/
def countedTwice : List (Action (ThreadAction controllerCount)) :=
  batch ++ credit ++ relay ++ credit

end CreditRuns

open CreditRuns

/-- One batch, signalled twice and counted once. -/
theorem groundTakeoffs_le_mergedRelay :
    ∃ state, (airport (airThreads controllerCount)).run mergedRelay =
        some state ∧
      state.ground.takeoffs = 5 ∧
      state.ground.takeoffs ≤ state.air.totalTakeoffs := by
  have htakeoffs : ((airport (airThreads controllerCount)).run
      mergedRelay).map (fun state => state.ground.takeoffs) = some 5 := by
    decide +kernel
  obtain ⟨state, hrun, hfive⟩ := Option.map_eq_some_iff.mp htakeoffs
  exact ⟨state, hrun, hfive, groundTakeoffs_le hrun (by decide +kernel) _
    (List.prefix_refl _) state hrun⟩

/-- One batch of five takeoffs is counted as ten. -/
theorem batch_counted_twice_reachable :
    ¬ ∀ state : State (AirThreads controllerCount),
      (airport (airThreads controllerCount)).Reachable state →
        state.ground.takeoffs ≤ state.air.totalTakeoffs := by
  intro hall
  have hcounted : ((airport (airThreads controllerCount)).run
      countedTwice).map (fun state =>
        (state.ground.takeoffs, state.air.totalTakeoffs)) = some (10, 5) := by
    decide +kernel
  obtain ⟨state, hrun, hstate⟩ := Option.map_eq_some_iff.mp hcounted
  simp only [Prod.mk.injEq] at hstate
  have := hall state ⟨countedTwice, hrun⟩
  omega

end Airport

end OsCourse
