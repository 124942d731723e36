/-
Accounting of planes and takeoffs across air control, radio and ground control.
Each counter is compared with the one upstream of it together with every signal
still on the way: pending, taken by a handler that has not counted it, or not yet
sent on by one that has.
-/
import OsCourse.AirControlPy

namespace OsCourse

namespace Airport

open TransitionSystem StandardSignals

variable {n : Nat}

structure Accounting (state : State (AirControlPy n)) : Prop where
  planes_nonneg : 0 ≤ state.air.planes
  planes_air : state.air.planes + state.air.totalTakeoffs +
      5 * state.air.handlersRunning + 5 * state.airPending.due .sigusr2 +
      5 * state.radio.running RadioFrame.relaysPlanes ≤ state.radio.planes
  planes_radio : state.radio.planes + 5 * state.radio.running RadioFrame.countsPlanes +
      5 * state.radioPending.due .sigusr2 +
      5 * state.ground.running .killRadio ≤ state.ground.planes
  planes_limit : state.ground.planes + 5 * state.ground.running .addPlanes ≤
    planesLimit
  planes_batches : state.ground.planes % 5 = 0
  traffic : state.ground.OneTraffic
  takeoffs_range : 0 ≤ state.air.takeoffs ∧ state.air.takeoffs < 5
  takeoffs_batches : (state.air.totalTakeoffs - state.air.takeoffs) % 5 = 0
  takeoffs_radio : state.radio.takeoffs +
      5 * state.radio.running RadioFrame.countsTakeoffs +
      5 * state.radioPending.due .sigusr1 ≤
    state.air.totalTakeoffs - state.air.takeoffs
  takeoffs_ground : state.ground.takeoffs +
      5 * state.ground.running .addTakeoffs +
      5 * state.groundPending.due .sigusr1 +
      5 * state.radio.running RadioFrame.relaysTakeoffs ≤ state.radio.takeoffs
  closing : state.radioPending .sigterm = true ∨
      state.radio.blocks .sigterm = true →
    totalTakeoffsLimit ≤ state.air.totalTakeoffs

theorem accounting_start : Accounting (airport (airControlPy n)).start := by
  constructor <;> simp [airport, airControlPy, AirControlPy.start, Radio.start,
    GroundControl.start, GroundControl.OneTraffic, GroundControl.running,
    Radio.running, Radio.blocks, planesLimit]

section AirSteps

variable {state next : State (AirControlPy n)}

theorem step_takeoffWorker {worker : Fin n}
    (hstep : step (airControlPy n) state (.air (.takeoffWorker worker)) =
      some next) :
    ∃ air kills, AirControlPy.WorkerEffect state.air air kills ∧
      airSends (airControlPy n) state (.air (.takeoffWorker worker)) = kills ∧
      next = ({ state with air := air } : State _).post kills := by
  obtain ⟨_, air, kills, hair, hsends, rfl⟩ := step_air hstep
  exact ⟨air, kills, AirControlPy.takeoffWorker_effect hair, hsends, rfl⟩

theorem step_sigusr2Handler
    (hstep : step (airControlPy n) state (.air .sigusr2Handler) =
      some next) :
    state.airPending .sigusr2 = true ∧
      airSends (airControlPy n) state (.air .sigusr2Handler) = [] ∧
      next = { state with
        air := { state.air with
          handlersRunning := state.air.handlersRunning + 1 }
        airPending := state.airPending.clear .sigusr2 } := by
  obtain ⟨hpending, air, kills, hair, hsends, rfl⟩ := step_air hstep
  obtain ⟨rfl, rfl⟩ := AirControlPy.step_sigusr2Handler hair
  exact ⟨hpending rfl, hsends, rfl⟩

theorem step_sigusr2Body
    (hstep : step (airControlPy n) state (.air .sigusr2Body) = some next) :
    0 < state.air.handlersRunning ∧
      airSends (airControlPy n) state (.air .sigusr2Body) = [] ∧
      next = { state with
        air := { state.air with
          planes := state.air.planes + 5
          handlersRunning := state.air.handlersRunning - 1 } } := by
  obtain ⟨_, air, kills, hair, hsends, rfl⟩ := step_air hstep
  obtain ⟨hrunning, rfl, rfl⟩ := AirControlPy.step_sigusr2Body hair
  exact ⟨hrunning, hsends, rfl⟩

end AirSteps

section Preservation

variable {state next : State (AirControlPy n)}

theorem Accounting.of_sameCounters {air : AirControlPy n}
    (hinv : Accounting state)
    (hsame : AirControlPy.SameCounters state.air air) :
    Accounting { state with air := air } := by
  rcases hsame with ⟨hplanes, htakeoffs, htotal, hrunning⟩
  constructor <;> simp only [hplanes, htakeoffs, htotal, hrunning]
  exacts [hinv.planes_nonneg, hinv.planes_air, hinv.planes_radio,
    hinv.planes_limit, hinv.planes_batches, hinv.traffic, hinv.takeoffs_range,
    hinv.takeoffs_batches, hinv.takeoffs_radio, hinv.takeoffs_ground,
    hinv.closing]

theorem accounting_worker {worker : Fin n} (hinv : Accounting state)
    (hstep : step (airControlPy n) state (.air (.takeoffWorker worker)) =
      some next) : Accounting next := by
  obtain ⟨air, kills, heffect, _, rfl⟩ := step_takeoffWorker hstep
  have hair := hinv.planes_air
  have hrange := hinv.takeoffs_range
  have hbatches := hinv.takeoffs_batches
  have hradio := hinv.takeoffs_radio
  cases heffect with
  | quiet same => exact hinv.of_sameCounters same
  | takeoff hpos hplanes hne htakeoffs htotal hrunning =>
      exact { hinv with
        planes_nonneg := by simp only [State.post_nil]; omega
        planes_air := by simp only [State.post_nil]; omega
        takeoffs_range := by simp only [State.post_nil]; omega
        takeoffs_batches := by simp only [State.post_nil]; omega
        takeoffs_radio := by simp only [State.post_nil]; omega
        closing := by
          intro hterm
          have := hinv.closing hterm
          simp only [State.post_nil]
          omega }
  | batch hpos hplanes heq htakeoffs htotal hrunning =>
      have hdue := state.radioPending.due_nonneg .sigusr1
      simp only [State.post_cons, State.post_nil, State.kill_radio]
      exact { hinv with
        planes_nonneg := by simp only; omega
        planes_air := by simp only; omega
        planes_radio := by simpa using hinv.planes_radio
        takeoffs_range := by simp only; omega
        takeoffs_batches := by simp only; omega
        takeoffs_radio := by simp only [Pending.due_raise_self]; omega
        closing := by
          intro hterm
          have := hinv.closing (by simpa using hterm)
          simp only
          omega }
  | finish same limit =>
      have hsame := hinv.of_sameCounters same
      simp only [State.post_cons, State.post_nil, State.kill_radio]
      exact { hsame with
        planes_radio := by simpa using hsame.planes_radio
        takeoffs_radio := by simpa using hsame.takeoffs_radio
        closing := by
          intro _
          simpa [same.totalTakeoffs] using limit }

theorem accounting_sigusr2Handler (hinv : Accounting state)
    (hstep : step (airControlPy n) state (.air .sigusr2Handler) = some next) :
    Accounting next := by
  obtain ⟨hpending, _, rfl⟩ := step_sigusr2Handler hstep
  have hair := hinv.planes_air
  rw [Pending.due_of_pending hpending] at hair
  exact { hinv with
    planes_air := by
      simp only [Pending.due_clear_self]
      omega }

theorem accounting_sigusr2Body (hinv : Accounting state)
    (hstep : step (airControlPy n) state (.air .sigusr2Body) = some next) :
    Accounting next := by
  obtain ⟨hrunning, _, rfl⟩ := step_sigusr2Body hstep
  have hair := hinv.planes_air
  have hnonneg := hinv.planes_nonneg
  exact { hinv with
    planes_nonneg := by simp only; omega
    planes_air := by simp only; omega }

theorem accounting_radioDeliver {signal : Signal} (hinv : Accounting state)
    (hstep : step (airControlPy n) state (.radioDeliver signal) =
      some next) : Accounting next := by
  obtain ⟨hpending, radio, hdeliver, rfl⟩ := step_radioDeliver hstep
  have hradio := Radio.deliver_delivered hdeliver
  have hdue := Pending.due_clear hpending
  have hdue1 := hdue .sigusr1
  have hdue2 := hdue .sigusr2
  have hplanes := hinv.planes_radio
  have htakeoffs := hinv.takeoffs_radio
  exact { hinv with
    planes_air := by
      simp only [hradio.planes, hradio.relaysPlanes]
      exact hinv.planes_air
    planes_radio := by
      simp only [hradio.planes, hradio.countsPlanes]
      omega
    takeoffs_radio := by
      simp only [hradio.takeoffs, hradio.countsTakeoffs]
      omega
    takeoffs_ground := by
      simp only [hradio.takeoffs, hradio.relaysTakeoffs]
      exact hinv.takeoffs_ground
    closing := by
      intro hclosing
      refine hinv.closing ?_
      rcases hclosing with hstill | hblocks
      · by_cases hsignal : signal = .sigterm
        · exact .inl (hsignal ▸ hpending)
        · exact .inl (by simpa [Ne.symm hsignal] using hstill)
      · rcases hradio.closing hblocks with hbefore | rfl
        · exact .inr hbefore
        · exact .inl hpending }

theorem accounting_radioResume (hinv : Accounting state)
    (hstep : step (airControlPy n) state .radioResume = some next) :
    Accounting next := by
  obtain ⟨radio, kills, hresume, rfl⟩ := step_radioResume hstep
  have hbooks := Radio.resume_keepsBooks hresume
  obtain ⟨hair, hradio, hground⟩ :=
    State.post_frame { state with radio := radio } kills
  -- a relayed signal replaces the handler, or merges with a pending one
  have hdueAir : _ ≤ state.airPending.due .sigusr2 + _ :=
    State.post_due_le { state with radio := radio } kills .airControl .sigusr2
  have hdueGround : _ ≤ state.groundPending.due .sigusr1 + _ :=
    State.post_due_le { state with radio := radio } kills .groundControl
      .sigusr1
  have hpending : (({ state with radio := radio } : State _).post
      kills).radioPending = state.radioPending := funext fun signal =>
    (State.post_pending { state with radio := radio } kills .radio signal).trans
      (by simp [hbooks.silent, State.pending])
  generalize ({ state with radio := radio } : State _).post kills = next at *
  have hplanesAir := hinv.planes_air
  have hplanesRadio := hinv.planes_radio
  have htakeoffsRadio := hinv.takeoffs_radio
  have htakeoffsGround := hinv.takeoffs_ground
  have hplanes := hbooks.planes
  have htakeoffs := hbooks.takeoffs
  have hrelaysPlanes := hbooks.relaysPlanes
  have hrelaysTakeoffs := hbooks.relaysTakeoffs
  simp only [State.pending] at hdueAir hdueGround
  constructor
  all_goals simp only [hair, hradio, hground, hpending]
  · exact hinv.planes_nonneg
  · omega
  · omega
  · exact hinv.planes_limit
  · exact hinv.planes_batches
  · exact hinv.traffic
  · exact hinv.takeoffs_range
  · exact hinv.takeoffs_batches
  · omega
  · omega
  · exact fun hclosing => hinv.closing (hclosing.imp_right hbooks.closing)

theorem accounting_groundDeliver {signal : Signal} (hinv : Accounting state)
    (hstep : step (airControlPy n) state (.groundDeliver signal) =
      some next) : Accounting next := by
  obtain ⟨hpending, ground, hdeliver, rfl⟩ := step_groundDeliver hstep
  have hground := GroundControl.deliver_delivered hdeliver
  have hdue := Pending.due_clear hpending .sigusr1
  have htakeoffs := hinv.takeoffs_ground
  exact { hinv with
    planes_radio := by
      simp only [hground.planes, hground.killRadio]
      exact hinv.planes_radio
    planes_limit := by
      simp only [hground.planes, hground.addPlanes]
      exact hinv.planes_limit
    planes_batches := by
      simp only [hground.planes]
      exact hinv.planes_batches
    traffic := hground.traffic hinv.traffic
    takeoffs_ground := by
      simp only [hground.takeoffs, hground.addTakeoffs]
      omega }

theorem accounting_groundResume (hinv : Accounting state)
    (hstep : step (airControlPy n) state .groundResume = some next) :
    Accounting next := by
  obtain ⟨ground, kills, hresume, rfl⟩ := step_groundResume hstep
  have hbooks := GroundControl.resume_keepsBooks hresume
  have hplanes := hinv.planes_radio
  have htakeoffs := hinv.takeoffs_ground
  have hkillRadio := hbooks.killRadio
  have hbooksTakeoffs := hbooks.takeoffs
  have hbatches := hbooks.batches.trans hinv.planes_batches
  have htraffic := hbooks.traffic hinv.traffic
  have hlimit := hbooks.limit hinv.traffic hinv.planes_batches hinv.planes_limit
  have hdue := state.radioPending.due_nonneg .sigusr2
  rcases hbooks.kills with rfl | rfl
  · rw [List.count_nil] at hkillRadio
    exact { hinv with
      planes_radio := by simp only [State.post_nil]; omega
      planes_limit := hlimit
      planes_batches := hbatches
      traffic := htraffic
      takeoffs_ground := by simp only [State.post_nil]; omega }
  · rw [List.count_singleton_self] at hkillRadio
    exact { hinv with
      planes_radio := by
        simp only [State.post_cons, State.post_nil, State.kill_radio,
          Pending.due_raise_self]
        omega
      planes_limit := hlimit
      planes_batches := hbatches
      traffic := htraffic
      takeoffs_radio := by simpa using hinv.takeoffs_radio
      takeoffs_ground := by
        simp only [State.post_cons, State.post_nil, State.kill_radio]
        omega
      closing := by simpa using hinv.closing }

theorem accounting_invariant :
    Invariant (airport (airControlPy n)) Accounting where
  start := accounting_start
  step := by
    intro state next action hinv hstep
    change step (airControlPy n) state action = some next at hstep
    cases action with
    | air action =>
        cases action with
        | takeoffWorker worker => exact accounting_worker hinv hstep
        | sigusr2Handler => exact accounting_sigusr2Handler hinv hstep
        | sigusr2Body => exact accounting_sigusr2Body hinv hstep
    | radioDeliver signal => exact accounting_radioDeliver hinv hstep
    | radioResume => exact accounting_radioResume hinv hstep
    | radioReturn =>
        obtain ⟨_, rfl⟩ := step_radioReturn hstep
        exact { hinv with }
    | timer =>
        obtain rfl := step_timer hstep
        exact { hinv with
          takeoffs_ground := by simpa using hinv.takeoffs_ground }
    | groundDeliver signal => exact accounting_groundDeliver hinv hstep
    | groundResume => exact accounting_groundResume hinv hstep

end Preservation

/-- In every reachable state each counter is bounded by the one upstream of it,
ending at ground control's limit. -/
theorem accounting_chain {state : State (AirControlPy n)}
    (hreach : (airport (airControlPy n)).Reachable state) :
    0 ≤ state.air.planes ∧
      state.air.planes + state.air.totalTakeoffs ≤ state.radio.planes ∧
      state.radio.planes ≤ state.ground.planes ∧
      state.ground.planes ≤ planesLimit ∧
      state.ground.takeoffs ≤ state.radio.takeoffs ∧
      state.radio.takeoffs ≤ 5 * (state.air.totalTakeoffs / 5) ∧
      state.air.totalTakeoffs ≤ totalTakeoffsLimit := by
  have hinv := accounting_invariant.reachable hreach
  have hair := hinv.planes_air
  have hradio := hinv.planes_radio
  have htakeoffs := hinv.takeoffs_radio
  have hground := hinv.takeoffs_ground
  have hrange := hinv.takeoffs_range
  have hbatches := hinv.takeoffs_batches
  have hnonneg := hinv.planes_nonneg
  have hlimit := hinv.planes_limit
  have hdueAir := state.airPending.due_nonneg .sigusr2
  have hdueRadio1 := state.radioPending.due_nonneg .sigusr1
  have hdueRadio2 := state.radioPending.due_nonneg .sigusr2
  have hdueGround := state.groundPending.due_nonneg .sigusr1
  have hrelays1 := state.radio.running_nonneg RadioFrame.relaysTakeoffs
  have hrelays2 := state.radio.running_nonneg RadioFrame.relaysPlanes
  have hcounts1 := state.radio.running_nonneg RadioFrame.countsTakeoffs
  have hcounts2 := state.radio.running_nonneg RadioFrame.countsPlanes
  have hkillRadio := state.ground.running_nonneg .killRadio
  have haddPlanes := state.ground.running_nonneg .addPlanes
  have haddTakeoffs := state.ground.running_nonneg .addTakeoffs
  simp only [planesLimit, totalTakeoffsLimit] at hlimit ⊢
  omega

namespace AirportRuns

/-- Ground control adds five planes and both relays pass them on. -/
def supply : List (Action (PyAction strips)) :=
  [.timer, .groundDeliver .sigalrm] ++ List.replicate 4 .groundResume ++
    .radioDeliver .sigusr2 :: List.replicate 4 .radioResume ++
    [.air .sigusr2Handler, .air .sigusr2Body]

/-- One worker takes off five times, five steps each. -/
def batch : List (Action (PyAction strips)) :=
  supply ++ List.replicate 25 (.air (.takeoffWorker firstWorker))

/-- The radio counts a batch and ground control is told. -/
def credit : List (Action (PyAction strips)) :=
  .radioDeliver .sigusr1 :: List.replicate 3 .radioResume ++
    [.groundDeliver .sigusr1, .groundResume]

end AirportRuns

open AirportRuns

/-- After the first batch of takeoffs the whole chain has moved by five. -/
theorem accounting_chain_firstBatch :
    ∃ state, (airport (airControlPy strips)).run (batch ++ credit) =
        some state ∧
      state.ground.takeoffs = 5 ∧
      state.air.planes + state.air.totalTakeoffs ≤ state.radio.planes ∧
      state.ground.takeoffs ≤ state.radio.takeoffs ∧
      state.radio.takeoffs ≤ 5 * (state.air.totalTakeoffs / 5) := by
  have htakeoffs : ((airport (airControlPy strips)).run (batch ++ credit)).map
      (fun state => state.ground.takeoffs) = some 5 := by
    decide +kernel
  obtain ⟨state, hrun, hfive⟩ := Option.map_eq_some_iff.mp htakeoffs
  obtain ⟨_, hair, _, _, hground, hradio, _⟩ :=
    accounting_chain ⟨batch ++ credit, hrun⟩
  exact ⟨state, hrun, hfive, hair, hground, hradio⟩

end Airport

end OsCourse
