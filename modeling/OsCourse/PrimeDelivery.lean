/-
Exactly-once delivery through the prime queue.  Every number of the file is
either unread, in the queue, in the hands of a worker or tested; behind the
numbers the queue holds only stop messages, so a worker can take one only after
all numbers have been taken.
-/
import Mathlib.Data.List.Count
import OsCourse.PrimeQueue

namespace OsCourse

namespace PrimeQueue

open TransitionSystem DecimalText

/-- The numbers that `main` still has to send. -/
def MainPlace.unsent : MainPlace → List Int
  | .sending unread => unread
  | _ => []

/-- The stop messages that `main` has sent. -/
def MainPlace.stopsSent : MainPlace → Nat
  | .sending _ | .failed => 0
  | .stopping sent => sent
  | .waiting _ | .exited => 2

/-- The workers that `main` has waited for. -/
def MainPlace.joined : MainPlace → List Worker
  | .waiting .worker2 => [.worker1]
  | .exited => [.worker1, .worker2]
  | _ => []

def WorkerPlace.inTest : WorkerPlace → List Int
  | .testing number => [number]
  | _ => []

def WorkerPlace.stopsTaken : WorkerPlace → Nat
  | .exited => 1
  | _ => 0

section Messages

variable {number : Int}

/-- A worker reads the number that `main` sent. -/
theorem receivedNumber_message (hnumber : InLongLong number) :
    receivedNumber (message number) = some number := by
  have hlength := length_lld_le hnumber
  have hshort : (message number).length < messageSize := by
    simp only [message, List.length_append, List.length_singleton, messageSize]
    omega
  have hread : atoll (lld number ++ [nul, nul]) = number :=
    atoll_lld hnumber fun char hmem => by
      rw [List.head?_cons, Option.mem_some_iff] at hmem
      subst hmem
      rfl
  unfold receivedNumber
  rw [if_pos hshort, message, List.append_assoc]
  exact congrArg some hread

theorem not_tooLarge (hnumber : InLongLong number) :
    ¬ messageSize ≤ (lld number).length := by
  have hlength := length_lld_le hnumber
  unfold messageSize
  omega

end Messages

/-- The numbers of the file are 64-bit numbers and none is the stop value. -/
def ValidFile (numbers : List Int) : Prop :=
  ∀ number ∈ numbers, InLongLong number ∧ number ≠ -1

/-- How often the two workers together have tested a number. -/
def testedCount (tested : Worker → List Int) (number : Int) : Nat :=
  (tested .worker1).count number + (tested .worker2).count number

/-- How often the workers have received a number, tested or still in test. -/
def takenCount (tested : Worker → List Int) (place : Worker → WorkerPlace)
    (number : Int) : Nat :=
  testedCount tested number + ((place .worker1).inTest.count number +
    (place .worker2).inTest.count number)

/-- The numbers of the file are tested, in test, queued or unread, and the queue
holds `pending` numbers before `stops` stop messages. -/
structure Delivery (square : Int → Int) (numbers : List Int)
    (state : Processes) (pending : List Int) (stops : Nat) : Prop where
  queue : state.queue =
    (pending ++ List.replicate stops (-1)).map message
  room : state.queue.length ≤ queueSlots
  split : ∀ number, takenCount state.tested state.worker number +
    pending.count number + state.main.unsent.count number =
      numbers.count number
  found : ∀ number, state.found.count number =
    if isPrime square number = some 1 then testedCount state.tested number
    else 0
  sent : stops + state.stops .worker1 + state.stops .worker2 =
    state.main.stopsSent
  sent_le : state.main.stopsSent ≤ 2
  taken : ∀ worker, state.stops worker = (state.worker worker).stopsTaken
  drained : ∀ worker, state.worker worker = .exited → pending = []
  joined : ∀ worker ∈ state.main.joined, state.worker worker = .exited
  main_ne : state.main ≠ .failed
  worker_ne : ∀ worker, state.worker worker ≠ .overrun

section Preservation

variable {square : Int → Int} {numbers pending : List Int}
  {state next : Processes} {stops : Nat} {worker : Worker}

theorem delivery_start (square : Int → Int) (numbers : List Int) :
    Delivery square numbers (Processes.start numbers) [] 0 where
  queue := rfl
  room := Nat.zero_le _
  split := by
    intro number
    simp [Processes.start, takenCount, testedCount, WorkerPlace.inTest,
      MainPlace.unsent]
  found := by simp [Processes.start, testedCount]
  sent := rfl
  sent_le := Nat.zero_le _
  taken := fun _ => rfl
  drained := fun _ _ => rfl
  joined := by simp [Processes.start, MainPlace.joined]
  main_ne := by simp [Processes.start]
  worker_ne := by simp [Processes.start]

theorem Delivery.valid_of_unsent
    (hdelivery : Delivery square numbers state pending stops)
    (hfile : ValidFile numbers) {number : Int}
    (hmem : number ∈ state.main.unsent) :
    InLongLong number ∧ number ≠ -1 := by
  have hsplit := hdelivery.split number
  have hcount := List.count_pos_iff.mpr hmem
  exact hfile number (List.count_pos_iff.mp (by omega))

theorem Delivery.valid_of_pending
    (hdelivery : Delivery square numbers state pending stops)
    (hfile : ValidFile numbers) {number : Int} (hmem : number ∈ pending) :
    InLongLong number ∧ number ≠ -1 := by
  have hsplit := hdelivery.split number
  have hcount := List.count_pos_iff.mpr hmem
  exact hfile number (List.count_pos_iff.mp (by omega))

/-- No worker has exited while `main` has not sent a stop message. -/
theorem Delivery.stops_eq_zero
    (hdelivery : Delivery square numbers state pending stops)
    (hsent : state.main.stopsSent = 0) (worker : Worker) :
    state.worker worker ≠ .exited := by
  intro hexited
  have hsum := hdelivery.sent
  have htaken := hdelivery.taken worker
  rw [hexited, WorkerPlace.stopsTaken] at htaken
  cases worker <;> omega

/-- A step of `main` that sends nothing. -/
theorem Delivery.mainMove {place : MainPlace}
    (hdelivery : Delivery square numbers state pending stops)
    (hunsent : place.unsent = state.main.unsent)
    (hstops : place.stopsSent = state.main.stopsSent)
    (hjoined : ∀ worker ∈ place.joined, state.worker worker = .exited)
    (hplace : place ≠ .failed) :
    Delivery square numbers { state with main := place } pending stops :=
  { hdelivery with
    split := fun number => hunsent ▸ hdelivery.split number
    sent := hdelivery.sent.trans hstops.symm
    sent_le := hstops.trans_le hdelivery.sent_le
    joined := hjoined
    main_ne := hplace }

theorem delivery_main (hfile : ValidFile numbers)
    (hdelivery : Delivery square numbers state pending stops)
    (heffect : MainEffect state next) :
    ∃ pending stops, Delivery square numbers next pending stops := by
  have hsent := hdelivery.sent
  have hsplit := hdelivery.split
  have hroom := hdelivery.room
  cases heffect with
  | endOfFile here =>
      exact ⟨pending, stops, hdelivery.mainMove (by rw [here]; rfl)
        (by rw [here]; rfl) (by simp [MainPlace.joined]) (by simp)⟩
  | @tooLarge number unread here large =>
      have hmem : number ∈ state.main.unsent := by simp [here, MainPlace.unsent]
      exact absurd large
        (not_tooLarge (hdelivery.valid_of_unsent hfile hmem).1)
  | @sendNumber number unread here room =>
      have hnone := hdelivery.stops_eq_zero (by rw [here]; rfl)
      rw [here, MainPlace.stopsSent] at hsent
      obtain rfl : stops = 0 := by omega
      refine ⟨pending ++ [number], 0, { hdelivery with
        queue := ?_
        room := ?_
        split := ?_
        sent := hsent
        sent_le := Nat.zero_le _
        drained := fun worker hexited => absurd hexited (hnone worker)
        joined := by simp [MainPlace.joined]
        main_ne := by simp }⟩
      · simp [hdelivery.queue]
      · rw [List.length_append, List.length_singleton]
        exact room
      · intro other
        have hother := hsplit other
        rw [here, MainPlace.unsent, List.count_cons] at hother
        simp only [MainPlace.unsent, List.count_append,
          List.count_singleton] at hother ⊢
        omega
  | @sendStop sent here left room =>
      rw [here] at hsent hsplit
      refine ⟨pending, stops + 1, { hdelivery with
        queue := ?_
        room := ?_
        split := hsplit
        sent := ?_
        sent_le := ?_
        joined := by simp [MainPlace.joined]
        main_ne := by simp }⟩
      · simp [hdelivery.queue, List.replicate_succ']
      · rw [List.length_append, List.length_singleton]
        exact room
      · simp only [MainPlace.stopsSent] at hsent ⊢
        omega
      · exact left
  | @wait sent here done =>
      have hle := hdelivery.sent_le
      rw [here] at hle
      have htwo : state.main.stopsSent = 2 := by
        rw [here]
        exact Nat.le_antisymm hle done
      exact ⟨pending, stops, hdelivery.mainMove (by rw [here]; rfl)
        htwo.symm (by simp [MainPlace.joined]) (by simp)⟩
  | joinWorker1 here exit =>
      exact ⟨pending, stops, hdelivery.mainMove (by rw [here]; rfl)
        (by rw [here]; rfl) (by simpa [MainPlace.joined] using exit)
        (by simp)⟩
  | joinWorker2 here exit =>
      have hjoined := hdelivery.joined .worker1 (by simp [here, MainPlace.joined])
      exact ⟨pending, stops, hdelivery.mainMove (by rw [here]; rfl)
        (by rw [here]; rfl)
        (by simpa [MainPlace.joined] using ⟨hjoined, exit⟩) (by simp)⟩

theorem takenCount_update (tested : Worker → List Int)
    (place : Worker → WorkerPlace) (worker : Worker) (dest : WorkerPlace)
    (number : Int) :
    takenCount tested (Function.update place worker dest) number +
        (place worker).inTest.count number =
      takenCount tested place number + dest.inTest.count number := by
  cases worker with
  | worker1 | worker2 =>
      simp only [takenCount, Function.update_self, ne_eq, reduceCtorEq,
        not_false_eq_true, Function.update_of_ne]
      omega

theorem testedCount_append (tested : Worker → List Int) (worker : Worker)
    (number other : Int) :
    testedCount (Function.update tested worker (tested worker ++ [number]))
        other =
      testedCount tested other + [number].count other := by
  cases worker with
  | worker1 | worker2 =>
      simp only [testedCount, Function.update_self, ne_eq, reduceCtorEq,
        not_false_eq_true, Function.update_of_ne, List.count_append]
      omega

/-- A worker that has not exited is not among those waited for. -/
theorem Delivery.joined_goto
    (hdelivery : Delivery square numbers state pending stops)
    (hrunning : state.worker worker ≠ .exited) (place : WorkerPlace) :
    ∀ other ∈ state.main.joined,
      Function.update state.worker worker place other = .exited := by
  intro other hmem
  have hexited := hdelivery.joined other hmem
  have hne : other ≠ worker := by
    rintro rfl
    exact hrunning hexited
  rw [Function.update_of_ne hne, hexited]

theorem Delivery.worker_ne_goto
    (hdelivery : Delivery square numbers state pending stops)
    {place : WorkerPlace} (hplace : place ≠ .overrun) :
    ∀ other, Function.update state.worker worker place other ≠ .overrun := by
  intro other
  by_cases heq : other = worker
  · rw [heq, Function.update_self]
    exact hplace
  · rw [Function.update_of_ne heq]
    exact hdelivery.worker_ne other

theorem Delivery.taken_goto
    (hdelivery : Delivery square numbers state pending stops)
    {place : WorkerPlace}
    (hplace : place.stopsTaken = (state.worker worker).stopsTaken) :
    ∀ other, state.stops other =
      (Function.update state.worker worker place other).stopsTaken := by
  intro other
  by_cases heq : other = worker
  · rw [heq, Function.update_self, hplace]
    exact hdelivery.taken worker
  · rw [Function.update_of_ne heq]
    exact hdelivery.taken other

/-- The first message of the queue is the first pending number, or else a stop
message. -/
theorem Delivery.queue_head
    (hdelivery : Delivery square numbers state pending stops)
    (hfile : ValidFile numbers) {received : List Char}
    {rest : List (List Char)} (hqueue : state.queue = received :: rest) :
    (∃ number later, pending = number :: later ∧ number ≠ -1 ∧
        receivedNumber received = some number ∧
        rest = (later ++ List.replicate stops (-1)).map message) ∨
      (∃ left, pending = [] ∧ stops = left + 1 ∧
        receivedNumber received = some (-1) ∧
        rest = ([] ++ List.replicate left (-1)).map message) := by
  have hmessages := hdelivery.queue.symm.trans hqueue
  cases pending with
  | cons number later =>
      obtain ⟨hnumber, hdata⟩ :=
        hdelivery.valid_of_pending hfile List.mem_cons_self
      rw [List.cons_append, List.map_cons, List.cons.injEq] at hmessages
      rcases hmessages with ⟨rfl, rfl⟩
      exact .inl ⟨number, later, rfl, hdata,
        receivedNumber_message hnumber, rfl⟩
  | nil =>
      cases stops with
      | zero => simp at hmessages
      | succ left =>
          rw [List.nil_append, List.replicate_succ, List.map_cons,
            List.cons.injEq] at hmessages
          rcases hmessages with ⟨rfl, rfl⟩
          exact .inr ⟨left, rfl, rfl,
            receivedNumber_message (by decide), rfl⟩

theorem delivery_receive (hfile : ValidFile numbers)
    (hdelivery : Delivery square numbers state pending stops)
    {received : List Char} {rest : List (List Char)} {number : Int}
    (hplace : state.worker worker = .receiving)
    (hqueue : state.queue = received :: rest)
    (hread : receivedNumber received = some number) (hdata : number ≠ -1) :
    ∃ pending stops, Delivery square numbers
      (({ state with queue := rest } : Processes).goto worker
        (.testing number)) pending stops := by
  have hroom := hdelivery.room
  rcases hdelivery.queue_head hfile hqueue with
    ⟨head, later, rfl, _, hhead, hrest⟩ | ⟨left, _, _, hstop, _⟩
  · obtain rfl : head = number := by
      rw [hhead, Option.some.injEq] at hread
      exact hread
    have hrunning : ∀ other, state.worker other ≠ .exited :=
      fun other hexited =>
        List.cons_ne_nil head later (hdelivery.drained other hexited)
    refine ⟨later, stops, { hdelivery with
      queue := hrest
      room := ?_
      split := ?_
      taken := hdelivery.taken_goto (by rw [hplace]; rfl)
      drained := ?_
      joined := hdelivery.joined_goto (hrunning worker) _
      worker_ne := hdelivery.worker_ne_goto (by simp) }⟩
    · rw [hqueue, List.length_cons] at hroom
      exact Nat.le_of_succ_le hroom
    · intro other
      have hmoved := takenCount_update state.tested state.worker worker
        (.testing head) other
      have hother := hdelivery.split other
      simp only [hplace, WorkerPlace.inTest, List.count_nil,
        List.count_cons] at hmoved hother
      simp only [Processes.goto]
      omega
    · intro other hexited
      by_cases heq : other = worker
      · subst heq
        simp [Processes.goto] at hexited
      · simp only [Processes.goto, Function.update_of_ne heq] at hexited
        exact absurd hexited (hrunning other)
  · rw [hstop, Option.some.injEq] at hread
    exact absurd hread.symm hdata

theorem delivery_stop (hfile : ValidFile numbers)
    (hdelivery : Delivery square numbers state pending stops)
    {received : List Char} {rest : List (List Char)}
    (hplace : state.worker worker = .receiving)
    (hqueue : state.queue = received :: rest)
    (hread : receivedNumber received = some (-1)) :
    ∃ pending stops, Delivery square numbers
      (({ state with
          queue := rest
          stops := Function.update state.stops worker
            (state.stops worker + 1) } : Processes).goto worker .exited)
      pending stops := by
  have hroom := hdelivery.room
  rcases hdelivery.queue_head hfile hqueue with
    ⟨head, _, _, hdata, hhead, _⟩ | ⟨left, rfl, rfl, _, hrest⟩
  · rw [hhead, Option.some.injEq] at hread
    exact absurd hread hdata
  · have htaken : state.stops worker = 0 := by
      rw [hdelivery.taken worker, hplace]
      rfl
    refine ⟨[], left, { hdelivery with
      queue := hrest
      room := ?_
      split := ?_
      sent := ?_
      taken := ?_
      drained := fun _ _ => rfl
      joined := hdelivery.joined_goto (by simp [hplace]) _
      worker_ne := hdelivery.worker_ne_goto (by simp) }⟩
    · rw [hqueue, List.length_cons] at hroom
      exact Nat.le_of_succ_le hroom
    · intro other
      have hmoved := takenCount_update state.tested state.worker worker
        .exited other
      have hother := hdelivery.split other
      simp only [hplace, WorkerPlace.inTest, List.count_nil] at hmoved
      simp only [Processes.goto]
      omega
    · have hsent := hdelivery.sent
      simp only [Processes.goto]
      cases worker with
      | worker1 | worker2 =>
          simp only [Function.update_self, ne_eq, reduceCtorEq,
            not_false_eq_true, Function.update_of_ne]
          omega
    · intro other
      by_cases heq : other = worker
      · subst heq
        simp [Processes.goto, htaken, WorkerPlace.stopsTaken]
      · simp only [Processes.goto, Function.update_of_ne heq]
        exact hdelivery.taken other

theorem delivery_test
    (hdelivery : Delivery square numbers state pending stops)
    {number prime : Int} (hplace : state.worker worker = .testing number)
    (hresult : isPrime square number = some prime) :
    Delivery square numbers
      (({ state with
          tested := Function.update state.tested worker
            (state.tested worker ++ [number])
          found := if prime ≠ 0 then state.found ++ [number]
            else state.found } : Processes).goto worker .receiving)
      pending stops := by
  refine { hdelivery with
    split := ?_
    found := ?_
    taken := hdelivery.taken_goto (by rw [hplace]; rfl)
    drained := ?_
    joined := hdelivery.joined_goto (by simp [hplace]) _
    worker_ne := hdelivery.worker_ne_goto (by simp) }
  · intro other
    have hmoved := takenCount_update state.tested state.worker worker
      .receiving other
    have htested := testedCount_append state.tested worker number other
    have hother := hdelivery.split other
    have hhere : (state.worker worker).inTest = [number] := by
      rw [hplace]
      rfl
    have hthere : WorkerPlace.receiving.inTest = [] := rfl
    rw [hhere, hthere, List.count_nil, Nat.add_zero] at hmoved
    simp only [takenCount] at hmoved hother
    simp only [Processes.goto, takenCount, htested]
    omega
  · intro other
    have htested := testedCount_append state.tested worker number other
    have hother := hdelivery.found other
    simp only [Processes.goto, htested]
    by_cases heq : other = number
    · subst heq
      rcases isPrime_returns square other with hzero | hone
      · obtain rfl : prime = 0 := by
          rw [hzero, Option.some.injEq] at hresult
          exact hresult.symm
        simpa [hzero] using hother
      · obtain rfl : prime = 1 := by
          rw [hone, Option.some.injEq] at hresult
          exact hresult.symm
        simpa [hone] using hother
    · have hcount : [number].count other = 0 :=
        List.count_eq_zero_of_not_mem (by simpa using heq)
      rw [hcount, Nat.add_zero, ← hother]
      split
      · rw [List.count_append, hcount, Nat.add_zero]
      · rfl
  · intro other hexited
    have hne : other ≠ worker := by
      rintro rfl
      simp [Processes.goto] at hexited
    simp only [Processes.goto, Function.update_of_ne hne] at hexited
    exact hdelivery.drained other hexited

theorem delivery_step (hfile : ValidFile numbers) {process : Process}
    (hdelivery : Delivery square numbers state pending stops)
    (hstep : (primeQueue square numbers).step state process = some next) :
    ∃ pending stops, Delivery square numbers next pending stops := by
  cases process with
  | main => exact delivery_main hfile hdelivery (mainStep_effect hstep)
  | worker worker =>
      cases workerStep_effect hstep with
      | overrun here queue read =>
          rcases hdelivery.queue_head hfile queue with
            ⟨_, _, _, _, hhead, _⟩ | ⟨_, _, _, hstop, _⟩
          · rw [hhead] at read
            contradiction
          · rw [hstop] at read
            contradiction
      | stop here queue read =>
          exact delivery_stop hfile hdelivery here queue read
      | receive here queue read data =>
          exact delivery_receive hfile hdelivery here queue read data
      | test here result =>
          exact ⟨pending, stops, delivery_test hdelivery here result⟩

theorem delivery_invariant (hfile : ValidFile numbers) :
    Invariant (primeQueue square numbers) fun state =>
      ∃ pending stops, Delivery square numbers state pending stops where
  start := ⟨[], 0, delivery_start square numbers⟩
  step := by
    intro state next process hinv hstep
    rcases hinv with ⟨pending, stops, hdelivery⟩
    exact delivery_step hfile hdelivery hstep

end Preservation

/-- All three processes have ended. -/
def Final (state : Processes) : Prop :=
  state.main = .exited ∧ ∀ worker, state.worker worker = .exited

section Progress

variable {square : Int → Int} {numbers pending : List Int}
  {state : Processes} {stops : Nat}

/-- A worker that has not exited can step unless the queue is empty. -/
theorem Delivery.worker_enabled
    (hdelivery : Delivery square numbers state pending stops)
    {worker : Worker} (hrunning : state.worker worker ≠ .exited)
    (hqueue : state.queue ≠ []) :
    (state.workerStep square worker).isSome = true := by
  cases hplace : state.worker worker with
  | receiving =>
      cases hmessages : state.queue with
      | nil => exact absurd hmessages hqueue
      | cons received rest =>
          simp only [Processes.workerStep, hplace, hmessages]
          split
          · rfl
          · split <;> rfl
  | testing number =>
      rcases isPrime_returns square number with hzero | hone
      · simp [Processes.workerStep, hplace, hzero]
      · simp [Processes.workerStep, hplace, hone]
  | exited => exact absurd hplace hrunning
  | overrun => exact absurd hplace (hdelivery.worker_ne worker)

/-- While a stop message has still to be sent, some worker has not exited. -/
theorem Delivery.exists_running
    (hdelivery : Delivery square numbers state pending stops)
    (hsent : state.main.stopsSent < 2) :
    ∃ worker, state.worker worker ≠ .exited := by
  by_contra hall
  simp only [not_exists, not_not] at hall
  have hsum := hdelivery.sent
  have htaken1 := hdelivery.taken .worker1
  have htaken2 := hdelivery.taken .worker2
  rw [hall, WorkerPlace.stopsTaken] at htaken1 htaken2
  omega

/-- A worker that has not exited still finds a stop message when both have been
sent. -/
theorem Delivery.queue_ne_nil
    (hdelivery : Delivery square numbers state pending stops)
    (hsent : state.main.stopsSent = 2) {worker : Worker}
    (hrunning : state.worker worker ≠ .exited) : state.queue ≠ [] := by
  have hsum := hdelivery.sent
  have hle : ∀ other, state.stops other ≤ 1 := by
    intro other
    rw [hdelivery.taken other]
    unfold WorkerPlace.stopsTaken
    split <;> omega
  have hzero : state.stops worker = 0 := by
    rw [hdelivery.taken worker]
    unfold WorkerPlace.stopsTaken
    split
    · contradiction
    · rfl
  have hstops : 0 < stops := by
    have h1 := hle .worker1
    have h2 := hle .worker2
    cases worker with
    | worker1 | worker2 => omega
  rw [hdelivery.queue]
  intro hnil
  have hlength := congrArg List.length hnil
  simp only [List.length_map, List.length_append, List.length_replicate,
    List.length_nil] at hlength
  omega

/-- While the queue has room `main` can send; when it is full a worker can
receive. -/
theorem Delivery.send_enabled
    (hdelivery : Delivery square numbers state pending stops)
    (hsent : state.main.stopsSent < 2)
    (hsend : state.queue.length < queueSlots →
      state.mainStep.isSome = true) :
    ∃ process, ((primeQueue square numbers).step state process).isSome =
      true := by
  by_cases hroom : state.queue.length < queueSlots
  · exact ⟨.main, hsend hroom⟩
  · obtain ⟨worker, hrunning⟩ := hdelivery.exists_running hsent
    have hqueue : state.queue ≠ [] := by
      rintro hnil
      rw [hnil] at hroom
      exact hroom (by decide)
    exact ⟨.worker worker, hdelivery.worker_enabled hrunning hqueue⟩

theorem Delivery.enabled
    (hdelivery : Delivery square numbers state pending stops)
    (hfinal : ¬ Final state) :
    ∃ process, ((primeQueue square numbers).step state process).isSome =
      true := by
  cases hmain : state.main with
  | sending unread =>
      apply hdelivery.send_enabled (by rw [hmain]; exact Nat.zero_lt_two)
      intro hroom
      cases unread with
      | nil => simp [Processes.mainStep, hmain]
      | cons number unread =>
          simp only [Processes.mainStep, hmain, Processes.mqSend, hroom]
          split <;> rfl
  | stopping sent =>
      by_cases hleft : sent < 2
      · apply hdelivery.send_enabled (by rw [hmain]; exact hleft)
        intro hroom
        simp only [Processes.mainStep, hmain, if_pos hleft, Processes.mqSend,
          if_pos hroom]
        rfl
      · refine ⟨.main, ?_⟩
        simp only [primeQueue, Processes.mainStep, hmain, if_neg hleft]
        rfl
  | waiting worker =>
      by_cases hexited : state.worker worker = .exited
      · refine ⟨.main, ?_⟩
        simp only [primeQueue, Processes.mainStep, hmain, if_pos hexited]
        rfl
      · have hqueue := hdelivery.queue_ne_nil (by rw [hmain]; rfl) hexited
        exact ⟨.worker worker, hdelivery.worker_enabled hexited hqueue⟩
  | exited =>
      refine absurd ⟨hmain, fun worker => hdelivery.joined worker ?_⟩ hfinal
      cases worker with
      | worker1 | worker2 => simp [hmain, MainPlace.joined]
  | failed => exact absurd hmain hdelivery.main_ne

/-- Once both workers have exited, both stop messages and all numbers have been
taken. -/
theorem Delivery.all_taken
    (hdelivery : Delivery square numbers state pending stops)
    (hexited : ∀ worker, state.worker worker = .exited) :
    stops = 0 ∧ pending = [] ∧ state.main.unsent = [] := by
  have hsum := hdelivery.sent
  have hle := hdelivery.sent_le
  have htaken1 := hdelivery.taken .worker1
  have htaken2 := hdelivery.taken .worker2
  rw [hexited, WorkerPlace.stopsTaken] at htaken1 htaken2
  refine ⟨by omega, hdelivery.drained .worker1 (hexited .worker1), ?_⟩
  cases hmain : state.main with
  | sending unread =>
      rw [hmain, MainPlace.stopsSent] at hsum
      omega
  | stopping | waiting | exited | failed => rfl

theorem Delivery.tested_perm
    (hdelivery : Delivery square numbers state pending stops)
    (hexited : ∀ worker, state.worker worker = .exited) :
    (state.tested .worker1 ++ state.tested .worker2).Perm numbers := by
  obtain ⟨_, hpending, hunsent⟩ := hdelivery.all_taken hexited
  rw [List.perm_iff_count]
  intro number
  have hsplit := hdelivery.split number
  rw [hpending, hunsent] at hsplit
  simpa [takenCount, testedCount, hexited, WorkerPlace.inTest] using hsplit

theorem Delivery.found_perm
    (hdelivery : Delivery square numbers state pending stops)
    (hexited : ∀ worker, state.worker worker = .exited) :
    state.found.Perm
      (numbers.filter fun number => isPrime square number = some 1) := by
  have htested := List.perm_iff_count.mp (hdelivery.tested_perm hexited)
  rw [List.perm_iff_count]
  intro number
  rw [hdelivery.found number, testedCount, ← List.count_append, htested]
  split
  · rename_i hprime
    rw [List.count_filter (by simpa using hprime)]
  · rename_i hprime
    rw [List.count_eq_zero_of_not_mem]
    simp [List.mem_filter, hprime]

end Progress

/-- The queue delivers every number exactly once: no run gets stuck before all
processes have ended, and when both workers have exited they have tested the
numbers of the file and reported its primes, each has consumed one stop message,
and nothing is left in the queue. -/
theorem numbers_delivered_once {square : Int → Int} {numbers : List Int}
    (hfile : ValidFile numbers) {state : Processes}
    (hreach : (primeQueue square numbers).Reachable state) :
    (¬ Final state → ∃ process next,
        (primeQueue square numbers).step state process = some next) ∧
      ((∀ worker, state.worker worker = .exited) →
        (state.tested .worker1 ++ state.tested .worker2).Perm numbers ∧
          state.found.Perm
            (numbers.filter fun number => isPrime square number = some 1) ∧
          (∀ worker, state.stops worker = 1) ∧ state.queue = []) := by
  obtain ⟨pending, stops, hdelivery⟩ :=
    (delivery_invariant hfile).reachable hreach
  constructor
  · intro hfinal
    obtain ⟨process, henabled⟩ := hdelivery.enabled hfinal
    exact ⟨process, Option.isSome_iff_exists.mp henabled⟩
  · intro hexited
    obtain ⟨hstops, hpending, _⟩ := hdelivery.all_taken hexited
    refine ⟨hdelivery.tested_perm hexited, hdelivery.found_perm hexited, ?_, ?_⟩
    · intro worker
      rw [hdelivery.taken worker, hexited worker]
      rfl
    · rw [hdelivery.queue, hpending, hstops]
      rfl

namespace QueueRuns

/-- A file with a repeated prime. -/
def file : List Int := [7, 8, 7]

/-- Both workers take a number, the first also the last one; each then takes a
stop message and `main` joins them. -/
def sharedOut : List Process :=
  [.main, .main, .main, .worker .worker1, .worker .worker2, .worker .worker2,
    .worker .worker1, .worker .worker1, .worker .worker1, .main, .main, .main,
    .worker .worker2, .worker .worker1, .main, .main, .main]

end QueueRuns

open QueueRuns

theorem numbers_delivered_once_sharedOut :
    ∃ state, (primeQueue (fun i => i * i) file).run sharedOut = some state ∧
      Final state ∧
      (state.tested .worker1 ++ state.tested .worker2).Perm [7, 8, 7] ∧
      state.found.Perm
        (file.filter fun number => isPrime (fun i => i * i) number = some 1) ∧
      (∀ worker, state.stops worker = 1) ∧ state.queue = [] := by
  have hplaces : ((primeQueue (fun i => i * i) file).run sharedOut).map
      (fun state => (state.main, state.worker .worker1,
        state.worker .worker2)) = some (.exited, .exited, .exited) := by
    decide +kernel
  obtain ⟨state, hrun, heq⟩ := Option.map_eq_some_iff.mp hplaces
  simp only [Prod.mk.injEq] at heq
  have hexited : ∀ worker, state.worker worker = .exited := by
    intro worker
    cases worker with
    | worker1 => exact heq.2.1
    | worker2 => exact heq.2.2
  have hfile : ValidFile file := by
    unfold ValidFile
    decide
  exact ⟨state, hrun, ⟨heq.1, hexited⟩,
    (numbers_delivered_once hfile ⟨sharedOut, hrun⟩).2 hexited⟩

end PrimeQueue

end OsCourse
