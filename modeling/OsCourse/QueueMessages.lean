/-
What a message of the prime queue carries, for every number a file can hold:
its text fits both buffers and is read back, and the stop value is the one
number that a worker does not test.
-/
import OsCourse.PrimeDelivery

namespace OsCourse

namespace PrimeQueue

open DecimalText

variable {square : Int → Int} {state : Processes} {worker : Worker}
  {number : Int} {rest : List (List Char)}

theorem length_message_lt (hnumber : InLongLong number) :
    (message number).length < messageSize := by
  have hlength := length_lld_le hnumber
  rw [message, List.length_append, List.length_singleton, messageSize]
  omega

/-- `main` sends the number, whatever it is. -/
theorem mainStep_sending (hnumber : InLongLong number) {unread : List Int}
    (hmain : state.main = .sending (number :: unread)) :
    state.mainStep = state.mqSend (message number) (.sending unread) := by
  simp only [Processes.mainStep, hmain]
  exact if_neg (not_tooLarge hnumber)

/-- The worker that takes the number does so inside its buffer, and stops on the stop
value. -/
theorem workerStep_message (hnumber : InLongLong number)
    (hplace : state.worker worker = .receiving)
    (hqueue : state.queue = message number :: rest) :
    ∃ next, state.workerStep square worker = some next ∧
      next.worker worker =
        if number = -1 then .exited else .testing number := by
  simp only [Processes.workerStep, hplace, hqueue,
    receivedNumber_message hnumber]
  by_cases hstop : number = -1
  · rw [if_pos hstop, if_pos hstop]
    exact ⟨_, rfl, Function.update_self worker _ _⟩
  · rw [if_neg hstop, if_neg hstop]
    exact ⟨_, rfl, Function.update_self worker _ _⟩

/-- Every worker that takes the number tests it. -/
def TreatedAsData (square : Int → Int) (number : Int) : Prop :=
  ∀ state worker rest, state.worker worker = .receiving →
    state.queue = message number :: rest →
    ∃ next, Processes.workerStep square state worker = some next ∧
      next.worker worker = .testing number

/-- The stop value among the numbers, with a worker that waits. -/
def stopValueQueued : Processes :=
  { Processes.start [] with queue := [message (-1)] }

theorem treatedAsData_iff (hnumber : InLongLong number) :
    TreatedAsData square number ↔ number ≠ -1 := by
  constructor
  · rintro hdata rfl
    obtain ⟨next, hstep, htesting⟩ :=
      hdata stopValueQueued .worker1 [] rfl rfl
    obtain ⟨same, hsame, hexited⟩ := workerStep_message hnumber
      (rfl : stopValueQueued.worker .worker1 = .receiving) rfl
    rw [Option.some.inj (hstep.symm.trans hsame), hexited, if_pos rfl]
      at htesting
    contradiction
  · intro hdata state worker rest hplace hqueue
    obtain ⟨next, hstep, htesting⟩ :=
      workerStep_message hnumber hplace hqueue
    rw [if_neg hdata] at htesting
    exact ⟨next, hstep, htesting⟩

/-- Every 64-bit number is sent in full and read back inside the buffer, and is data
unless it is the stop value. -/
theorem message_separates (square : Int → Int) (number : Int)
    (hnumber : InLongLong number) :
    (message number).length < messageSize ∧
      (∀ state unread,
        state.main = .sending (number :: unread) →
          Processes.mainStep state =
            state.mqSend (message number) (.sending unread)) ∧
      receivedNumber (message number) = some number ∧
      (TreatedAsData square number ↔ number ≠ -1) ∧
      ∀ state worker rest, state.worker worker = .receiving →
        state.queue = message number :: rest →
        ∃ next, Processes.workerStep square state worker = some next ∧
          next.worker worker =
            if number = -1 then .exited else .testing number := by
  refine ⟨length_message_lt hnumber, ?_, receivedNumber_message hnumber,
    treatedAsData_iff hnumber, ?_⟩
  · intro state unread hmain
    exact mainStep_sending hnumber hmain
  · intro state worker rest hplace hqueue
    exact workerStep_message hnumber hplace hqueue

theorem message_separates_mostNegative :
    (message (-9223372036854775808)).length < messageSize ∧
      receivedNumber (message (-9223372036854775808)) =
        some (-9223372036854775808) ∧
      TreatedAsData (fun i => i * i) (-9223372036854775808) := by
  obtain ⟨hlength, -, hread, hdata, -⟩ :=
    message_separates (fun i => i * i) (-9223372036854775808) (by decide)
  exact ⟨hlength, hread, hdata.mpr (by decide)⟩

/-- The number -1 of a file stops the worker that takes it. -/
theorem not_treatedAsData_stopValue :
    ¬ ∀ number, InLongLong number →
      TreatedAsData (fun i => i * i) number := by
  intro hdata
  exact (treatedAsData_iff (by decide)).mp (hdata (-1) (by decide)) rfl

end PrimeQueue

end OsCourse
