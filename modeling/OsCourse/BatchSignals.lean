/-
What `state_lock` gives the C air control: one controller in the section at a
time, so each fifth takeoff is signalled once.  The signals that air control
sends to ground control itself therefore never count a batch too often; only the
relay of the radio can.
-/
import OsCourse.GroundCredits

namespace OsCourse

namespace Airport

open TransitionSystem StandardSignals ThreadPool

variable {n : Nat}

namespace StatementPlace

/-- Signalling a batch: `takeoffs` is 5 and not yet reset. -/
def batchDue : StatementPlace → Bool
  | .killRadio _ | .killGround _ | .resetTakeoffs _ => true
  | _ => false

/-- Ground control has been signalled and `takeoffs` is not yet reset. -/
def batchSent : StatementPlace → Bool
  | .resetTakeoffs _ => true
  | _ => false

theorem inSection_of_batchDue {place : StatementPlace}
    (hdue : place.batchDue = true) : place.inSection = true := by
  cases place <;> simp_all [batchDue, inSection]

theorem batchDue_of_batchSent {place : StatementPlace}
    (hsent : place.batchSent = true) : place.batchDue = true := by
  cases place <;> simp_all [batchDue, batchSent]

theorem batchDue_of_not_inSection {place : StatementPlace}
    (hsection : place.inSection = false) : place.batchDue = false := by
  cases place <;> simp_all [batchDue, inSection]

theorem batchSent_of_not_inSection {place : StatementPlace}
    (hsection : place.inSection = false) : place.batchSent = false := by
  cases place <;> simp_all [batchSent, inSection]

end StatementPlace

/-- At most one controller is in the section, and while it signals a batch the
counter stands at 5. -/
structure BatchCounter (air : AirThreads n) : Prop where
  locked : countAt air.place StatementPlace.inSection = air.stateLocked.toNat
  takeoffs_nonneg : 0 ≤ air.takeoffs
  batchDue : 0 < countAt air.place StatementPlace.batchDue → air.takeoffs = 5

section Section

variable {air next : AirThreads n} {controller : Fin n} {kills : List Kill}

theorem BatchCounter.section_le (hinv : BatchCounter air) :
    countAt air.place StatementPlace.inSection ≤ 1 := by
  rw [hinv.locked]
  exact Bool.toNat_le air.stateLocked

/-- With one controller in the section, the place of that controller decides
whether a batch is being signalled. -/
theorem none_due (controller : Fin n) {place : Fin n → StatementPlace}
    (hle : countAt place StatementPlace.inSection ≤ 1)
    (hsection : (place controller).inSection = true)
    (hdue : (place controller).batchDue = false) :
    countAt place StatementPlace.batchDue = 0 := by
  let idle : StatementPlace → Bool := fun here =>
    here.inSection && !here.batchDue
  have hidle : 0 < countAt place idle :=
    countAt_pos (show idle (place controller) = true by
      simp [idle, hsection, hdue])
  have hboth : countAt place StatementPlace.batchDue + countAt place idle ≤
      countAt place StatementPlace.inSection := by
    apply countAt_add_le
    intro here
    cases here <;> simp [idle, StatementPlace.batchDue,
      StatementPlace.inSection]
  omega

/-- A statement inside the section keeps the counter if it arrives at the
signals only with `takeoffs` at 5. -/
theorem BatchCounter.of_inside {dest : StatementPlace}
    (hinv : BatchCounter air)
    (hplace : next.place = Function.update air.place controller dest)
    (hhere : (air.place controller).inSection = true)
    (hthere : dest.inSection = true)
    (hlocked : next.stateLocked = air.stateLocked)
    (hnonneg : 0 ≤ next.takeoffs)
    (hdue : dest.batchDue = true → next.takeoffs = 5) :
    BatchCounter next := by
  have hcount :=
    countAt_update air.place StatementPlace.inSection controller dest
  rw [hhere, hthere, ← hplace] at hcount
  have hbefore := hinv.locked
  have hsection := hinv.section_le
  have hself : next.place controller = dest := by
    rw [hplace, Function.update_self]
  refine ⟨?_, hnonneg, fun hpos => ?_⟩
  · rw [hlocked]
    omega
  · apply hdue
    cases hbatch : dest.batchDue with
    | true => rfl
    | false =>
        have hnone : countAt next.place StatementPlace.batchDue = 0 :=
          none_due controller (by omega) (by rw [hself, hthere])
            (by rw [hself, hbatch])
        omega

theorem batchCounter_statement (hinv : BatchCounter air)
    (heffect : AirThreads.StatementEffect air controller next kills) :
    BatchCounter next := by
  have hsection := fun dest =>
    countAt_update air.place StatementPlace.inSection controller dest
  have hdue := fun dest =>
    countAt_update air.place StatementPlace.batchDue controller dest
  have hlocked := hinv.locked
  have hnonneg := hinv.takeoffs_nonneg
  cases heffect with
  | @outside _ _ dest here there place same _ =>
      have hcount := hsection dest
      have hbatch := hdue dest
      rw [here, there, ← place] at hcount
      rw [StatementPlace.batchDue_of_not_inSection here,
        StatementPlace.batchDue_of_not_inSection there, ← place] at hbatch
      refine ⟨?_, ?_, fun hpos => ?_⟩
      · rw [same.stateLocked]
        omega
      · rw [same.takeoffs]
        exact hnonneg
      · rw [same.takeoffs]
        exact hinv.batchDue (by omega)
  | @lockState runway here free =>
      have hcount := hsection (.loadPlanes runway)
      have hbatch := hdue (.loadPlanes runway)
      have hnone : countAt air.place StatementPlace.batchDue ≤
          countAt air.place StatementPlace.inSection :=
        countAt_mono fun _ => StatementPlace.inSection_of_batchDue
      rw [free, Bool.toNat_false] at hlocked
      simp only [here, StatementPlace.inSection, StatementPlace.batchDue,
        Bool.toNat_true, Bool.toNat_false] at hcount hbatch
      refine ⟨?_, hnonneg, fun hpos => ?_⟩
      · simp only [AirThreads.goto, Bool.toNat_true]
        omega
      · simp only [AirThreads.goto] at hpos
        omega
  | loadPlanes here
  | storePlanes here =>
      exact hinv.of_inside rfl (by rw [here]; rfl) rfl rfl hnonneg
        (fun hbatch => by contradiction)
  | @countTakeoff runway dest here due =>
      refine hinv.of_inside rfl (by rw [here]; rfl) ?_ rfl
        (Int.add_nonneg hnonneg Int.one_nonneg) fun hbatch => ?_
      · rw [due]
        split <;> rfl
      · by_contra hne
        have hearly : ¬ air.takeoffs + 1 = 5 := hne
        rw [due, if_neg hearly] at hbatch
        contradiction
  | killRadio here
  | killGround here =>
      exact hinv.of_inside rfl (by rw [here]; rfl) rfl rfl hnonneg
        fun _ => hinv.batchDue (countAt_pos (by rw [here]; rfl))
  | resetTakeoffs here =>
      exact hinv.of_inside rfl (by rw [here]; rfl) rfl rfl (Int.le_refl 0)
        (fun hbatch => by contradiction)
  | @unlockState runway here =>
      have hcount := hsection (.sleeping runway)
      have hbatch := hdue (.sleeping runway)
      have hle := hinv.section_le
      simp only [here, StatementPlace.inSection, StatementPlace.batchDue,
        Bool.toNat_true, Bool.toNat_false] at hcount hbatch
      refine ⟨?_, hnonneg, fun hpos => hinv.batchDue ?_⟩
      · simp only [AirThreads.goto, Bool.toNat_false]
        omega
      · simp only [AirThreads.goto] at hpos
        omega

end Section

theorem batchCounter_invariant :
    Invariant (airport (airThreads n)) fun state => BatchCounter state.air := by
  have hstart : BatchCounter (airThreads n).start := by
    refine ⟨countAt_eq_zero_iff.mpr fun _ => rfl, Int.le_refl 0, fun hpos => ?_⟩
    rw [countAt_eq_zero_iff.mpr fun _ => rfl] at hpos
    contradiction
  apply airport_invariant hstart
  intro air next action kills hinv hstep
  cases action with
  | takeOffsFunction controller =>
      exact batchCounter_statement hinv
        (AirThreads.step_takeOffsFunction hstep)
  | startSigHandler2 thread =>
      obtain ⟨_, rfl⟩ := AirThreads.step_startSigHandler2 hstep
      exact { hinv with }
  | sigHandler2 thread =>
      have hstatement := (AirThreads.step_sigHandler2 hstep).2
      rcases AirThreads.handlerStatement_cases hstatement with
        ⟨_, rfl⟩ | ⟨loaded, _, rfl⟩
      · exact { hinv with }
      · exact { hinv with }

/-- `state_lock` excludes: no two controllers are in the section. -/
theorem section_exclusive {state : State (AirThreads n)}
    {first second : Fin n}
    (hreach : (airport (airThreads n)).Reachable state)
    (hfirst : (state.air.place first).inSection = true)
    (hsecond : (state.air.place second).inSection = true) :
    first = second :=
  eq_of_countAt_le_one (batchCounter_invariant.reachable hreach).section_le
    hfirst hsecond

/-- The takeoffs of the batches that air control itself has signalled to ground
control. -/
def signalledTakeoffs (air : AirThreads n) : Int :=
  air.totalTakeoffs - air.takeoffs +
    5 * countAt air.place StatementPlace.batchSent

section Signalled

variable {air next : AirThreads n} {controller : Fin n} {kills : List Kill}

theorem signalledTakeoffs_le (hinv : BatchCounter air) :
    signalledTakeoffs air ≤ air.totalTakeoffs := by
  have hsent : countAt air.place StatementPlace.batchSent ≤
      countAt air.place StatementPlace.batchDue :=
    countAt_mono fun _ => StatementPlace.batchDue_of_batchSent
  have hdue : countAt air.place StatementPlace.batchDue ≤
      countAt air.place StatementPlace.inSection :=
    countAt_mono fun _ => StatementPlace.inSection_of_batchDue
  have hsection := hinv.section_le
  have hnonneg := hinv.takeoffs_nonneg
  unfold signalledTakeoffs
  rcases Nat.eq_zero_or_pos (countAt air.place StatementPlace.batchSent) with
    hnone | hsome
  · omega
  · have hfive := hinv.batchDue (by omega)
    omega

theorem signalledTakeoffs_of_place {dest : StatementPlace} {sent : Nat}
    (hplace : next.place = Function.update air.place controller dest)
    (hcounters : next.totalTakeoffs - next.takeoffs +
        5 * (dest.batchSent.toNat : Int) =
      air.totalTakeoffs - air.takeoffs +
        5 * ((air.place controller).batchSent.toNat : Int) + 5 * sent) :
    signalledTakeoffs next = signalledTakeoffs air + 5 * sent := by
  have hcount :=
    countAt_update air.place StatementPlace.batchSent controller dest
  unfold signalledTakeoffs
  rw [hplace]
  omega

/-- A statement raises the signalled takeoffs by five exactly when it sends
ground control a SIGUSR1. -/
theorem signalledTakeoffs_statement (hinv : BatchCounter air)
    (heffect : AirThreads.StatementEffect air controller next kills) :
    signalledTakeoffs next = signalledTakeoffs air +
      5 * (decide (⟨.groundControl, .sigusr1⟩ ∈ kills)).toNat := by
  cases heffect with
  | @outside _ _ dest here there place same sends =>
      apply signalledTakeoffs_of_place place
      rw [StatementPlace.batchSent_of_not_inSection here,
        StatementPlace.batchSent_of_not_inSection there, same.takeoffs,
        same.totalTakeoffs]
      rcases sends with rfl | rfl
      · exact (Int.add_zero _).symm
      · exact (Int.add_zero _).symm
  | lockState here _
  | loadPlanes here
  | storePlanes here
  | unlockState here
  | killRadio here =>
      apply signalledTakeoffs_of_place rfl
      rw [here]
      exact (Int.add_zero _).symm
  | @countTakeoff runway dest here due =>
      have hdest : dest.batchSent = false := by
        rw [due]
        split <;> rfl
      apply signalledTakeoffs_of_place rfl
      rw [here, hdest]
      change air.totalTakeoffs + 1 - (air.takeoffs + 1) + 5 * 0 =
        air.totalTakeoffs - air.takeoffs + 5 * 0 + 5 * 0
      omega
  | @killGround runway here =>
      apply signalledTakeoffs_of_place rfl
      rw [here]
      change air.totalTakeoffs - air.takeoffs + 5 * 1 =
        air.totalTakeoffs - air.takeoffs + 5 * 0 + 5 * 1
      omega
  | @resetTakeoffs runway here =>
      have hfive : air.takeoffs = 5 :=
        hinv.batchDue (countAt_pos (by rw [here]; rfl))
      apply signalledTakeoffs_of_place rfl
      rw [here]
      change air.totalTakeoffs - 0 + 5 * 0 =
        air.totalTakeoffs - air.takeoffs + 5 * 1 + 5 * 0
      omega

theorem signalledTakeoffs_step {action : ThreadAction n}
    (hinv : BatchCounter air)
    (hstep : air.step action = some (next, kills)) :
    signalledTakeoffs next = signalledTakeoffs air +
      5 * (decide (⟨.groundControl, .sigusr1⟩ ∈ kills)).toNat := by
  cases action with
  | takeOffsFunction controller =>
      exact signalledTakeoffs_statement hinv
        (AirThreads.step_takeOffsFunction hstep)
  | startSigHandler2 thread =>
      obtain ⟨rfl, rfl⟩ := AirThreads.step_startSigHandler2 hstep
      exact (Int.add_zero _).symm
  | sigHandler2 thread =>
      obtain ⟨rfl, hstatement⟩ := AirThreads.step_sigHandler2 hstep
      rcases AirThreads.handlerStatement_cases hstatement with
        ⟨_, rfl⟩ | ⟨loaded, _, rfl⟩
      · exact (Int.add_zero _).symm
      · exact (Int.add_zero _).symm

end Signalled

/-- Ground control's takeoffs, with the pending SIGUSR1, are takeoffs that air
control has signalled itself. -/
def Signalled (state : State (AirThreads n)) : Prop :=
  groundBooked state ≤ signalledTakeoffs state.air

/-- The radio relays a SIGUSR1 only to merge with a pending one, or to replace
one that was lost. -/
def RelayCovered (state : State (AirThreads n)) :
    Action (ThreadAction n) → Prop
  | .radioResume => state.radio.frames.head? = some .killGroundControl →
      state.groundPending .sigusr1 = true ∨
        groundTaken state + 5 ≤ signalledTakeoffs state.air
  | _ => True

theorem signalled_step {state next : State (AirThreads n)}
    {action : Action (ThreadAction n)} (hinv : BatchCounter state.air)
    (hsignalled : Signalled state)
    (hstep : step (airThreads n) state action = some next) :
    Signalled next ↔ RelayCovered state action := by
  have hbooked := step_groundBooked hstep
  unfold Signalled at hsignalled ⊢
  rcases step_airState hstep with ⟨airAction, rfl, hair⟩ | ⟨hsends, hsame⟩
  · -- a direct SIGUSR1 books at most the batch that it signals
    refine iff_of_true ?_ trivial
    have hraised := signalledTakeoffs_step hinv hair
    have hle : (creditsGround state (.air airAction) &&
        !state.groundPending .sigusr1).toNat ≤
          (creditsGround state (.air airAction)).toNat :=
      Bool.toNat_le_toNat fun hboth => (Bool.and_eq_true_iff.mp hboth).1
    simp only [creditsGround] at hbooked hle
    omega
  · rw [hsame]
    cases action with
    | air airAction =>
        simp only [creditsGround, hsends, List.not_mem_nil, decide_false,
          Bool.false_and, Bool.toNat_false] at hbooked
        exact iff_of_true (by omega) trivial
    | radioDeliver _ | radioReturn | timer | groundDeliver _ | groundResume =>
        simp only [creditsGround, Bool.false_and, Bool.toNat_false] at hbooked
        exact iff_of_true (by omega) trivial
    | radioResume =>
        unfold RelayCovered
        simp only [creditsGround] at hbooked
        by_cases hrelays : state.radio.frames.head? = some .killGroundControl
        · simp only [hrelays, decide_true, Bool.true_and, true_implies]
            at hbooked ⊢
          cases hpending : state.groundPending .sigusr1 with
          | true =>
              rw [hpending, Bool.not_true, Bool.toNat_false] at hbooked
              exact iff_of_true (by omega) (.inl rfl)
          | false =>
              have hcounted : groundBooked state = groundTaken state := by
                rw [groundBooked, Pending.due_of_not_pending hpending]
                omega
              rw [hpending, Bool.not_false, Bool.toNat_true] at hbooked
              simp only [Bool.false_eq_true, false_or]
              omega
        · simp only [hrelays, decide_false, Bool.false_and, Bool.toNat_false,
            false_implies, iff_true] at hbooked ⊢
          omega

/-- Ground control counts only what air control has signalled itself, along a
run, exactly when every relay of the radio is covered. -/
theorem signalled_always_iff {schedule : List (Action (ThreadAction n))}
    {last : State (AirThreads n)}
    (hrun : (airport (airThreads n)).run schedule = some last) :
    (airport (airThreads n)).Always Signalled schedule ↔
      (airport (airThreads n)).Meets RelayCovered schedule := by
  apply always_iff_meets batchCounter_invariant _ _ hrun
  · change (0 : Int) + 5 * 0 ≤ 0 - 0 + 5 * (countAt _ _ : Nat)
    omega
  · intro state next action hinv hsignalled hstep
    exact signalled_step hinv hsignalled hstep

/-- The signals of air control itself never over-credit ground control: it
counts more takeoffs than happened only after a relay that was not covered. -/
theorem groundTakeoffs_le_of_relays {schedule : List (Action (ThreadAction n))}
    {last : State (AirThreads n)}
    (hrun : (airport (airThreads n)).run schedule = some last)
    (hmeets : (airport (airThreads n)).Meets RelayCovered schedule) :
    last.ground.takeoffs ≤ last.air.totalTakeoffs := by
  have hsignalled : Signalled last := (signalled_always_iff hrun).mpr hmeets
    schedule (List.prefix_refl _) last hrun
  have hle := signalledTakeoffs_le
    (batchCounter_invariant.reachable ⟨schedule, hrun⟩)
  have hdue := last.groundPending.due_nonneg .sigusr1
  have hrunning := last.ground.running_nonneg .addTakeoffs
  unfold Signalled groundBooked groundTaken at hsignalled
  omega

end Airport

end OsCourse
