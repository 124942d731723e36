/-
The main loop of the data processor, with SIGUSR2 delivered at any point of it.
The handler counts the signal; a delivery ends `pause` and nothing else, so a
signal that comes at another place is counted and not answered.
-/
import OsCourse.TransitionSystem

namespace OsCourse

namespace DataProcessor

open TransitionSystem

/-- `exam1_structure` sends after every `pause`; `exam1_structurefixed` tests
`signal_count` again. -/
inductive Version where
  | first
  | fixed
deriving Repr, DecidableEq

def maxSignals : Nat := 5

/-- The statement of the main loop that the process is at; `paused` is inside
`pause`. -/
inductive Place where
  | guard
  | pause
  | paused
  | testCount
  | average
  | send
  | exited
deriving Repr, DecidableEq

/-- The loop with the number of messages it sent and of deliveries to come;
`handled` says that a signal was handled since the last test of the guard. -/
structure Processor where
  place : Place
  signalCount : Nat
  sent : Nat
  toCome : Nat
  handled : Bool
deriving Repr, DecidableEq

/-- A statement of the loop, or SIGUSR2 and its handler. -/
inductive ProcessorAction where
  | process
  | deliver
deriving Repr, DecidableEq

namespace Processor

def start (signals : Nat) : Processor := ⟨.guard, 0, 0, signals, false⟩

def process (version : Version) (processor : Processor) : Option Processor :=
  match processor.place with
  | .guard => some { processor with
      handled := false
      place := if processor.signalCount < maxSignals then .pause
        else .exited }
  | .pause => some { processor with place := .paused }
  | .paused => none
  | .testCount => some { processor with
      place := match version with
        | .first => .average
        | .fixed => if processor.signalCount ≤ maxSignals then .average
            else .guard }
  | .average => some { processor with place := .send }
  | .send => some { processor with
      sent := processor.sent + 1
      place := .guard }
  | .exited => none

def signalHandler (processor : Processor) : Processor :=
  { processor with
    signalCount := processor.signalCount + 1
    handled := true }

/-- A delivery while the loop runs; it ends `pause`. -/
def deliver (processor : Processor) : Option Processor :=
  if processor.toCome = 0 ∨ processor.place = .exited then none
  else some { processor.signalHandler with
    toCome := processor.toCome - 1
    place := if processor.place = .paused then .testCount
      else processor.place }

def step (version : Version) (processor : Processor) :
    ProcessorAction → Option Processor
  | .process => processor.process version
  | .deliver => processor.deliver

end Processor

def dataProcessor (version : Version) (signals : Nat) :
    System Processor ProcessorAction where
  start := Processor.start signals
  step := Processor.step version

/-- On exit every counted signal has been answered, and the process does not
wait for a signal that has already been. -/
def OneAveragePerSignal (processor : Processor) : Prop :=
  (processor.place = .exited →
      processor.sent = processor.signalCount ∧
        processor.signalCount = maxSignals) ∧
    ¬ (processor.place = .paused ∧ processor.handled = true ∧
      processor.toCome = 0)

/-- Signals come only while the process is inside `pause`. -/
def DeliveredInPause (processor : Processor) (action : ProcessorAction) :
    Prop :=
  action = .deliver → processor.place = .paused

instance (processor : Processor) (action : ProcessorAction) :
    Decidable (DeliveredInPause processor action) :=
  inferInstanceAs (Decidable (_ → _))

variable {version : Version} {signals : Nat} {processor next : Processor}
  {action : ProcessorAction}

theorem step_deliver (hstep : processor.deliver = some next) :
    processor.place ≠ .exited ∧
      next = { processor.signalHandler with
        toCome := processor.toCome - 1
        place := if processor.place = .paused then .testCount
          else processor.place } := by
  rw [Processor.deliver, Option.ite_none_left_eq_some,
    Option.some.injEq] at hstep
  exact ⟨fun hexited => hstep.1 (.inr hexited), hstep.2.symm⟩

/-- The place has a wake-up that is not yet answered. -/
def Place.awake : Place → Bool
  | .testCount | .average | .send => true
  | _ => false

/-- The loop when all signals so far came inside `pause`. -/
def Paced (processor : Processor) : Prop :=
  match processor.place with
  | .guard => processor.sent = processor.signalCount ∧
      processor.signalCount ≤ maxSignals
  | .pause | .paused => processor.sent = processor.signalCount ∧
      processor.signalCount < maxSignals ∧ processor.handled = false
  | .testCount | .average | .send =>
      processor.sent + 1 = processor.signalCount ∧
        processor.signalCount ≤ maxSignals
  | .exited => processor.sent = processor.signalCount ∧
      processor.signalCount = maxSignals

theorem paced_process (hpaced : Paced processor)
    (hstep : processor.process version = some next) : Paced next := by
  unfold Processor.process at hstep
  unfold Paced at hpaced
  cases hplace : processor.place with
  | guard =>
      simp only [hplace, Option.some.injEq] at hstep hpaced
      subst next
      by_cases hguard : processor.signalCount < maxSignals
      · simp only [if_pos hguard]
        exact ⟨hpaced.1, hguard, rfl⟩
      · simp only [if_neg hguard]
        exact ⟨hpaced.1, Nat.le_antisymm hpaced.2 (Nat.le_of_not_lt hguard)⟩
  | pause =>
      simp only [hplace, Option.some.injEq] at hstep hpaced
      subst next
      exact hpaced
  | paused => simp [hplace] at hstep
  | testCount =>
      simp only [hplace, Option.some.injEq] at hstep hpaced
      subst next
      cases version with
      | first => exact hpaced
      | fixed =>
          simp only [if_pos hpaced.2]
          exact hpaced
  | average =>
      simp only [hplace, Option.some.injEq] at hstep hpaced
      subst next
      exact hpaced
  | send =>
      simp only [hplace, Option.some.injEq] at hstep hpaced
      subst next
      exact hpaced
  | exited => simp [hplace] at hstep

theorem paced_deliver (hpaced : Paced processor)
    (hpaused : processor.place = .paused)
    (hstep : processor.deliver = some next) : Paced next := by
  obtain ⟨_, rfl⟩ := step_deliver hstep
  unfold Paced at hpaced
  simp only [hpaused] at hpaced
  simp only [hpaused, if_true]
  exact ⟨congrArg (· + 1) hpaced.1, hpaced.2.1⟩

theorem paced_invariant :
    InvariantUnder (dataProcessor version signals) DeliveredInPause Paced where
  start := ⟨rfl, Nat.zero_le maxSignals⟩
  step := by
    intro processor next action hpaced hpause hstep
    cases action with
    | process => exact paced_process hpaced hstep
    | deliver => exact paced_deliver hpaced (hpause rfl) hstep

theorem Paced.oneAveragePerSignal (hpaced : Paced processor) :
    OneAveragePerSignal processor := by
  unfold Paced at hpaced
  constructor
  · intro hexited
    rwa [hexited] at hpaced
  · rintro ⟨hpaused, hhandled, _⟩
    rw [hpaused] at hpaced
    rw [hpaced.2.2] at hhandled
    contradiction

/-- The deliveries that fall outside `pause`. -/
def unanswered (processor : Processor) (action : ProcessorAction) : Nat :=
  if DeliveredInPause processor action then 0 else 1

/-- Every message, every wake-up and every unanswered delivery has been
counted by the handler. -/
def Answers (missed : Nat) (processor : Processor) : Prop :=
  processor.sent + missed + (if processor.place.awake then 1 else 0) ≤
    processor.signalCount

theorem answers_step {missed : Nat} (hanswers : Answers missed processor)
    (hstep : (dataProcessor version signals).step processor action =
      some next) :
    Answers (missed + unanswered processor action) next := by
  unfold Answers at hanswers
  cases action with
  | process =>
      change processor.process version = some next at hstep
      have hnone : unanswered processor .process = 0 := rfl
      unfold Processor.process at hstep
      rw [hnone, Nat.add_zero]
      cases hplace : processor.place with
      | guard =>
          simp only [hplace, Place.awake, Option.some.injEq] at hstep hanswers
          subst next
          unfold Answers
          split <;> exact hanswers
      | testCount =>
          simp only [hplace, Place.awake, Option.some.injEq] at hstep hanswers
          subst next
          unfold Answers
          cases version with
          | first => exact hanswers
          | fixed =>
              dsimp only
              split
              · exact hanswers
              · exact Nat.le_of_succ_le hanswers
      | send =>
          simp only [hplace, Place.awake, if_true, Option.some.injEq]
            at hstep hanswers
          subst next
          unfold Answers
          rw [Nat.add_right_comm] at hanswers
          exact hanswers
      | pause
      | average =>
          simp only [hplace, Place.awake, Option.some.injEq] at hstep hanswers
          subst next
          exact hanswers
      | paused
      | exited => simp [hplace] at hstep
  | deliver =>
      obtain ⟨_, rfl⟩ := step_deliver hstep
      unfold Answers Processor.signalHandler
      by_cases hpaused : processor.place = .paused
      · have hnone : unanswered processor .deliver = 0 :=
          if_pos fun _ => hpaused
        rw [hpaused] at hanswers
        simp only [hnone, hpaused, if_true]
        exact Nat.succ_le_succ hanswers
      · have hone : unanswered processor .deliver = 1 :=
          if_neg fun hpause => hpaused (hpause rfl)
        simp only [hone, if_neg hpaused]
        omega

/-- One average per signal: in every run whose signals come inside `pause`; and
if the loop has exited, in no other run. -/
theorem oneAveragePerSignal_iff {schedule : List ProcessorAction}
    {last : Processor}
    (hrun : (dataProcessor version signals).run schedule = some last) :
    ((dataProcessor version signals).Meets DeliveredInPause schedule →
        (dataProcessor version signals).Always OneAveragePerSignal
          schedule) ∧
      (last.place = .exited →
        (dataProcessor version signals).Always OneAveragePerSignal schedule →
          (dataProcessor version signals).Meets DeliveredInPause
            schedule) := by
  constructor
  · intro hmeets pre hpre state hstate
    have hpaced : Paced state :=
      paced_invariant.always hmeets pre hpre state hstate
    exact hpaced.oneAveragePerSignal
  · intro hexited halways
    have hlast := halways schedule (List.prefix_refl schedule) last hrun
    have hanswers :
        Answers ((dataProcessor version signals).tally unanswered schedule)
          last :=
      tally_invariant (Nat.le_refl 0) answers_step hrun
    have hnone :
        (dataProcessor version signals).tally unanswered schedule = 0 := by
      have hsent := (hlast.1 hexited).1
      unfold Answers at hanswers
      omega
    simpa [unanswered] using (tally_eq_zero_iff hrun).mp hnone

namespace ProcessorRuns

/-- Five signals, each inside `pause`. -/
def fiveInPause : List ProcessorAction :=
  (List.replicate 5 [.process, .process, .deliver, .process, .process,
    .process]).flatten ++ [.process]

/-- The only signal comes between the guard and `pause`. -/
def beforePause : List ProcessorAction := [.process, .deliver, .process]

/-- The second of five signals comes while the first is averaged. -/
def whileAveraging : List ProcessorAction :=
  [.process, .process, .deliver, .process, .deliver, .process, .process] ++
    (List.replicate 3 [.process, .process, .deliver, .process, .process,
      .process]).flatten ++ [.process]

end ProcessorRuns

open ProcessorRuns

theorem oneAveragePerSignal_fiveInPause :
    ∃ last, (dataProcessor .fixed 5).run fiveInPause = some last ∧
      last.sent = 5 ∧
      (dataProcessor .fixed 5).Always OneAveragePerSignal fiveInPause := by
  have hsent : ((dataProcessor .fixed 5).run fiveInPause).map
      Processor.sent = some 5 := by
    decide +kernel
  obtain ⟨last, hrun, hlast⟩ := Option.map_eq_some_iff.mp hsent
  exact ⟨last, hrun, hlast,
    (oneAveragePerSignal_iff hrun).1 (by decide +kernel)⟩

/-- A lost wake-up, and an exit with four messages for five signals. -/
theorem average_lost_reachable :
    (dataProcessor .fixed 1).run beforePause = some ⟨.paused, 1, 0, 0, true⟩ ∧
      (dataProcessor .fixed 5).run whileAveraging =
        some ⟨.exited, 5, 4, 0, false⟩ ∧
      ¬ ∀ (version : Version) (signals : Nat) (processor : Processor),
        (dataProcessor version signals).Reachable processor →
          OneAveragePerSignal processor := by
  have hpaused : (dataProcessor .fixed 1).run beforePause =
      some ⟨.paused, 1, 0, 0, true⟩ := by
    decide +kernel
  refine ⟨hpaused, by decide +kernel, ?_⟩
  intro hall
  have hone := hall .fixed 1 _ ⟨beforePause, hpaused⟩
  exact hone.2 ⟨rfl, rfl, rfl⟩

end DataProcessor

end OsCourse
