/-
The report that the radio prints when it is terminated.  Its planes are always
right; its takeoffs are right exactly when no SIGUSR1 of air control was lost on
the way: none merged with a pending one, and when `SigTerm` prints none is still
pending and no `SigHandler1` below it has yet to count one.
-/
import OsCourse.AirportAccounting

namespace OsCourse

namespace Airport

open TransitionSystem StandardSignals

variable {n : Nat}

/-- The print of `SigTerm`, taking the radio from `state` to `next`, shows air
control's takeoffs and ground control's planes, and both are 20. -/
def ClosingReport (state next : State (AirControlPy n)) : Prop :=
  next.radio.printed = state.radio.printed ++
      [.endOfOperations state.air.totalTakeoffs state.ground.planes] ∧
    state.air.totalTakeoffs = 20 ∧ state.ground.planes = 20

instance (state next : State (AirControlPy n)) :
    Decidable (ClosingReport state next) :=
  inferInstanceAs (Decidable (_ ∧ _ ∧ _))

/-- The step does not send the radio a SIGUSR1 while one is pending there. -/
def Unmerged (state : State (AirControlPy n)) (action : Action (PyAction n)) :
    Prop :=
  ⟨.radio, .sigusr1⟩ ∈ airSends (airControlPy n) state action →
    state.radioPending .sigusr1 = false

instance (state : State (AirControlPy n)) (action : Action (PyAction n)) :
    Decidable (Unmerged state action) :=
  inferInstanceAs (Decidable (_ → _))

/-- Counts the batches of takeoffs whose SIGUSR1 was merged away. -/
def mergedBatch (state : State (AirControlPy n))
    (action : Action (PyAction n)) : Nat :=
  if Unmerged state action then 0 else 1

theorem mergedBatch_of_no_sigusr1 {state : State (AirControlPy n)}
    {action : Action (PyAction n)}
    (hsends : ⟨.radio, .sigusr1⟩ ∉ airSends (airControlPy n) state action) :
    mergedBatch state action = 0 :=
  if_pos fun hmem => absurd hmem hsends

/-- Every completed batch is counted by the radio, taken there by a handler that has
not counted it, pending there, or lost. -/
def BatchesSplit (lost : Nat) (state : State (AirControlPy n)) : Prop :=
  state.radio.takeoffs + 5 * state.radio.running RadioFrame.countsTakeoffs +
      5 * state.radioPending.due .sigusr1 + 5 * lost =
    state.air.totalTakeoffs - state.air.takeoffs

theorem batchesSplit_worker {lost : Nat} {state next : State (AirControlPy n)}
    {worker : Fin n} (hsplit : BatchesSplit lost state)
    (hstep : step (airControlPy n) state (.air (.takeoffWorker worker)) =
      some next) :
    BatchesSplit
      (lost + mergedBatch state (.air (.takeoffWorker worker))) next := by
  obtain ⟨air, kills, heffect, hsends, rfl⟩ := step_takeoffWorker hstep
  unfold BatchesSplit at hsplit ⊢
  cases heffect with
  | quiet same =>
      rw [mergedBatch_of_no_sigusr1 (by simp [hsends])]
      simp only [State.post_nil, same.totalTakeoffs, same.takeoffs]
      exact hsplit
  | takeoff _ _ _ htakeoffs htotal _ =>
      rw [mergedBatch_of_no_sigusr1 (by simp [hsends])]
      simp only [State.post_nil, Nat.add_zero]
      omega
  | batch _ _ hfive htakeoffs htotal _ =>
      simp only [State.post_cons, State.post_nil, State.kill_radio,
        Pending.due_raise_self]
      cases hpending : state.radioPending .sigusr1 with
      | false =>
          rw [Pending.due_of_not_pending hpending] at hsplit
          have hkept : mergedBatch state (.air (.takeoffWorker worker)) = 0 :=
            if_pos fun _ => hpending
          rw [hkept]
          omega
      | true =>
          rw [Pending.due_of_pending hpending] at hsplit
          have hlost : mergedBatch state (.air (.takeoffWorker worker)) = 1 :=
            if_neg (by simp [Unmerged, hsends, hpending])
          rw [hlost]
          omega
  | finish same limit =>
      rw [mergedBatch_of_no_sigusr1 (by simp [hsends])]
      simpa [same.totalTakeoffs, same.takeoffs] using hsplit

theorem batchesSplit_step {lost : Nat} {state next : State (AirControlPy n)}
    {action : Action (PyAction n)} (hsplit : BatchesSplit lost state)
    (hstep : step (airControlPy n) state action = some next) :
    BatchesSplit (lost + mergedBatch state action) next := by
  cases action with
  | air action =>
      cases action with
      | takeoffWorker worker => exact batchesSplit_worker hsplit hstep
      | sigusr2Handler =>
          obtain ⟨_, hsends, rfl⟩ := step_sigusr2Handler hstep
          rw [mergedBatch_of_no_sigusr1 (by simp [hsends])]
          exact hsplit
      | sigusr2Body =>
          obtain ⟨_, hsends, rfl⟩ := step_sigusr2Body hstep
          rw [mergedBatch_of_no_sigusr1 (by simp [hsends])]
          exact hsplit
  | radioDeliver signal =>
      obtain ⟨hpending, radio, hdeliver, rfl⟩ := step_radioDeliver hstep
      rw [mergedBatch_of_no_sigusr1 (by simp [airSends])]
      -- a taken SIGUSR1 is one that a handler has to count
      have hradio := Radio.deliver_delivered hdeliver
      have hdue := Pending.due_clear hpending .sigusr1
      unfold BatchesSplit at hsplit ⊢
      simp only [hradio.takeoffs, hradio.countsTakeoffs, Nat.add_zero]
      omega
  | radioResume =>
      obtain ⟨radio, kills, hresume, rfl⟩ := step_radioResume hstep
      rw [mergedBatch_of_no_sigusr1 (by simp [airSends])]
      have hbooks := Radio.resume_keepsBooks hresume
      have htakeoffs := hbooks.takeoffs
      obtain ⟨hair, hradio, _⟩ :=
        State.post_frame { state with radio := radio } kills
      have hpending : (({ state with radio := radio } : State _).post
          kills).radioPending .sigusr1 = state.radioPending .sigusr1 :=
        (State.post_pending { state with radio := radio } kills .radio
          .sigusr1).trans (by simp [hbooks.silent, State.pending])
      unfold BatchesSplit Pending.due at hsplit ⊢
      rw [hair, hradio, hpending]
      simp only [Nat.add_zero]
      omega
  | radioReturn =>
      obtain ⟨_, rfl⟩ := step_radioReturn hstep
      rw [mergedBatch_of_no_sigusr1 (by simp [airSends])]
      exact hsplit
  | timer =>
      obtain rfl := step_timer hstep
      rw [mergedBatch_of_no_sigusr1 (by simp [airSends])]
      exact hsplit
  | groundDeliver signal =>
      obtain ⟨_, ground, _, rfl⟩ := step_groundDeliver hstep
      rw [mergedBatch_of_no_sigusr1 (by simp [airSends])]
      exact hsplit
  | groundResume =>
      obtain ⟨ground, kills, hresume, rfl⟩ := step_groundResume hstep
      rw [mergedBatch_of_no_sigusr1 (by simp [airSends])]
      unfold BatchesSplit at hsplit ⊢
      rcases (GroundControl.resume_keepsBooks hresume).kills with rfl | rfl
      · exact hsplit
      · simpa using hsplit

theorem batchesSplit_run {schedule : List (Action (PyAction n))}
    {state : State (AirControlPy n)}
    (hrun : (airport (airControlPy n)).run schedule = some state) :
    BatchesSplit ((airport (airControlPy n)).tally mergedBatch schedule)
      state :=
  tally_invariant
    (by simp [BatchesSplit, airport, airControlPy, AirControlPy.start,
      Radio.start, Radio.running])
    batchesSplit_step hrun

/-- While the radio's `SigTerm` runs, all twenty planes have come and gone. -/
theorem counters_at_sigterm {state : State (AirControlPy n)}
    (hinv : Accounting state)
    (hblocks : state.radio.blocks .sigterm = true) :
    state.air.totalTakeoffs = 20 ∧ state.air.takeoffs = 0 ∧
      state.radio.planes = 20 ∧ state.ground.planes = 20 := by
  have hclosing := hinv.closing (.inr hblocks)
  have hair := hinv.planes_air
  have hradio := hinv.planes_radio
  have hnonneg := hinv.planes_nonneg
  have hlimit := hinv.planes_limit
  have hrange := hinv.takeoffs_range
  have hbatches := hinv.takeoffs_batches
  have hdueAir := state.airPending.due_nonneg .sigusr2
  have hdueRadio := state.radioPending.due_nonneg .sigusr2
  have hrelays := state.radio.running_nonneg RadioFrame.relaysPlanes
  have hcounts := state.radio.running_nonneg RadioFrame.countsPlanes
  have hkillRadio := state.ground.running_nonneg .killRadio
  have haddPlanes := state.ground.running_nonneg .addPlanes
  simp only [planesLimit] at hlimit
  simp only [totalTakeoffsLimit] at hclosing
  omega

theorem running_countsTakeoffs_eq_zero_iff {radio : Radio} :
    radio.running RadioFrame.countsTakeoffs = 0 ↔
      .addTakeoffs ∉ radio.frames := by
  rw [Radio.running, Int.natCast_eq_zero, List.countP_eq_zero]
  constructor
  · exact fun hnone hmem => hnone _ hmem rfl
  · intro hmem frame hframe hcounts
    cases frame with
    | addTakeoffs => exact hmem hframe
    | _ => contradiction

/-- The closing report is right exactly when every SIGUSR1 of the run was sent to a
radio that had none pending, and at the print none is pending and no `SigHandler1`
has started and not yet counted its takeoffs. -/
theorem closingReport_iff {schedule : List (Action (PyAction n))}
    {state next : State (AirControlPy n)}
    (hrun : (airport (airControlPy n)).run schedule = some state)
    (hprint : state.radio.frames.head? = some .printReport)
    (hterm : (airport (airControlPy n)).step state .radioResume = some next) :
    ClosingReport state next ↔
      (airport (airControlPy n)).Meets Unmerged schedule ∧
        state.radioPending .sigusr1 = false ∧
        .addTakeoffs ∉ state.radio.frames := by
  change step (airControlPy n) state .radioResume = some next at hterm
  obtain ⟨radio, kills, hresume, rfl⟩ := step_radioResume hterm
  obtain ⟨frame, outer, hframes, hstatement⟩ := Radio.resume_eq_some hresume
  rw [hframes, List.head?_cons, Option.some.injEq] at hprint
  subst frame
  obtain ⟨rfl, rfl⟩ := Prod.mk.inj hstatement
  have hblocks : state.radio.blocks .sigterm = true := by
    rw [Radio.blocks, hframes, List.any_cons]
    rfl
  have hlost : (airport (airControlPy n)).tally mergedBatch schedule = 0 ↔
      (airport (airControlPy n)).Meets Unmerged schedule := by
    rw [tally_eq_zero_iff hrun]
    simp [mergedBatch]
  have hsplit := batchesSplit_run hrun
  obtain ⟨htotal, htakeoffs, hplanes, hground⟩ :=
    counters_at_sigterm (accounting_invariant.run hrun) hblocks
  have hreport : ClosingReport state
      (({ state with radio := (state.radio.statement outer .printReport).1 } :
        State _).post []) ↔ state.radio.takeoffs = 20 := by
    simp [ClosingReport, Radio.statement, htotal, hplanes, hground]
  have hcounts := state.radio.running_nonneg RadioFrame.countsTakeoffs
  rw [← running_countsTakeoffs_eq_zero_iff, ← hlost]
  refine hreport.trans ?_
  unfold BatchesSplit at hsplit
  cases hsigusr1 : state.radioPending .sigusr1 with
  | false =>
      rw [Pending.due_of_not_pending hsigusr1] at hsplit
      simp only [true_and]
      omega
  | true =>
      rw [Pending.due_of_pending hsigusr1] at hsplit
      simp only [Bool.true_eq_false, false_and, and_false, iff_false]
      omega

namespace AirportRuns

/-- Twenty takeoffs; the last SIGUSR1 is still pending at the radio when the
worker that saw the limit sends SIGTERM. -/
def lateCredit : List (Action (PyAction strips)) :=
  batch ++ credit ++ batch ++ credit ++ batch ++ credit ++ batch ++
    List.replicate 2 (.air (.takeoffWorker firstWorker))

/-- `ClosingReport` of the SIGTERM taken at the end of a schedule, when the
schedule runs and the SIGTERM can be taken and its report printed. -/
def reportAfter (schedule : List (Action (PyAction strips))) : Option Bool := do
  let state ← (airport (airControlPy strips)).run
    (schedule ++ [.radioDeliver .sigterm])
  let next ← (airport (airControlPy strips)).step state .radioResume
  if state.radio.frames.head? = some .printReport then
    return decide (ClosingReport state next)
  else none

theorem reportAfter_eq_some {schedule : List (Action (PyAction strips))}
    {correct : Bool} (hreport : reportAfter schedule = some correct) :
    ∃ state next, (airport (airControlPy strips)).run
        (schedule ++ [.radioDeliver .sigterm]) = some state ∧
      state.radio.frames.head? = some .printReport ∧
      (airport (airControlPy strips)).step state .radioResume = some next ∧
      (ClosingReport state next ↔ correct = true) := by
  simp only [reportAfter, Option.bind_eq_bind, Option.bind_eq_some_iff,
    Option.ite_none_right_eq_some, Option.pure_def, Option.some.injEq] at hreport
  rcases hreport with ⟨state, hrun, next, hterm, hprint, rfl⟩
  exact ⟨state, next, hrun, hprint, hterm, by simp⟩

/-- The SIGTERM is taken on top of the `SigHandler1` of the last batch. -/
def startedCredit : List (Action (PyAction strips)) :=
  lateCredit ++ [.radioDeliver .sigusr1]

example : reportAfter startedCredit = some false := by decide +kernel

end AirportRuns

open AirportRuns

/-- With the last credit delivered before the SIGTERM the report is right, and
indeed nothing was lost. -/
theorem closingReport_iff_punctual :
    ∃ state next, (airport (airControlPy strips)).run
        (lateCredit ++ credit ++ [.radioDeliver .sigterm]) = some state ∧
      ClosingReport state next ∧
      (airport (airControlPy strips)).Meets Unmerged
        (lateCredit ++ credit ++ [.radioDeliver .sigterm]) ∧
      state.radioPending .sigusr1 = false ∧
      .addTakeoffs ∉ state.radio.frames := by
  have hreport : reportAfter (lateCredit ++ credit) = some true := by
    decide +kernel
  obtain ⟨state, next, hrun, hprint, hterm, hcorrect⟩ :=
    reportAfter_eq_some hreport
  have hclosing : ClosingReport state next := hcorrect.mpr rfl
  exact ⟨state, next, hrun, hclosing,
    (closingReport_iff hrun hprint hterm).mp hclosing⟩

/-- A SIGTERM taken before the pending SIGUSR1 reports 15 takeoffs. -/
theorem closingReport_lateCredit :
    ¬ ∀ (schedule : List (Action (PyAction strips)))
        (state next : State (AirControlPy strips)),
      (airport (airControlPy strips)).run schedule = some state →
      state.radio.frames.head? = some .printReport →
      (airport (airControlPy strips)).step state .radioResume = some next →
        ClosingReport state next := by
  intro hall
  have hreport : reportAfter lateCredit = some false := by decide +kernel
  obtain ⟨state, next, hrun, hprint, hterm, hcorrect⟩ :=
    reportAfter_eq_some hreport
  exact absurd (hcorrect.mp (hall _ state next hrun hprint hterm))
    (by decide)

end Airport

end OsCourse
