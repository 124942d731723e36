/-
The prime queue: `main` sends the numbers of the file and then two stop
messages through a POSIX message queue of five slots, and two workers receive
and test them.  `mq_send` blocks while the queue is full and `mq_receive` while
it is empty.
-/
import OsCourse.TransitionSystem
import OsCourse.DecimalText
import OsCourse.TrialDivision

namespace OsCourse

namespace PrimeQueue

open TransitionSystem DecimalText

/-- `attr.mq_maxmsg`. -/
def queueSlots : Nat := 5

/-- The size of both `msg` buffers. -/
def messageSize : Nat := 40

def nul : Char := Char.ofNat 0

/-- The `strlen(msg) + 1` characters that `main` sends for a number. -/
def message (number : Int) : List Char := lld number ++ [nul]

/-- What a worker reads from a message; `none` when `msg[bytes]` lies outside
its buffer. -/
def receivedNumber (received : List Char) : Option Int :=
  if received.length < messageSize then some (atoll (received ++ [nul]))
  else none

inductive Worker where
  | worker1
  | worker2
deriving Repr, DecidableEq

inductive MainPlace where
  | sending (unread : List Int)
  | stopping (sent : Nat)
  | waiting (worker : Worker)
  | exited
  | failed
deriving Repr, DecidableEq

inductive WorkerPlace where
  | receiving
  | testing (number : Int)
  | exited
  | overrun
deriving Repr, DecidableEq

/-- The three processes and the queue.  `tested` and `stops` record what each
worker has finished testing and how many stop messages it consumed, `found` the
numbers of the PRIME FOUND lines. -/
structure Processes where
  main : MainPlace
  queue : List (List Char)
  worker : Worker → WorkerPlace
  tested : Worker → List Int
  stops : Worker → Nat
  found : List Int

namespace Processes

def start (numbers : List Int) : Processes :=
  ⟨.sending numbers, [], fun _ => .receiving, fun _ => [], fun _ => 0, []⟩

/-- `mq_send` of a message, after which `main` is at `next`. -/
def mqSend (state : Processes) (text : List Char) (next : MainPlace) :
    Option Processes :=
  if state.queue.length < queueSlots then
    some { state with main := next, queue := state.queue ++ [text] }
  else none

/-- The next step of `main`. -/
def mainStep (state : Processes) : Option Processes :=
  match state.main with
  | .sending [] => some { state with main := .stopping 0 }
  | .sending (number :: unread) =>
      -- "Number too large for message buffer"
      if messageSize ≤ (lld number).length then
        some { state with main := .failed }
      else state.mqSend (message number) (.sending unread)
  | .stopping sent =>
      if sent < 2 then state.mqSend (message (-1)) (.stopping (sent + 1))
      else some { state with main := .waiting .worker1 }
  | .waiting worker =>
      if state.worker worker = .exited then
        some { state with main := match worker with
          | .worker1 => .waiting .worker2
          | .worker2 => .exited }
      else none
  | .exited | .failed => none

def goto (state : Processes) (worker : Worker) (place : WorkerPlace) :
    Processes :=
  { state with worker := Function.update state.worker worker place }

/-- The next step of a worker: `mq_receive` with the test for the stop value, or
the test of a received number. -/
def workerStep (square : Int → Int) (state : Processes) (worker : Worker) :
    Option Processes :=
  match state.worker worker with
  | .receiving =>
      match state.queue with
      | [] => none
      | received :: rest =>
          let state := { state with queue := rest }
          match receivedNumber received with
          | none => some (state.goto worker .overrun)
          | some number =>
              if number = -1 then
                some ({ state with
                  stops := Function.update state.stops worker
                    (state.stops worker + 1) }.goto worker .exited)
              else some (state.goto worker (.testing number))
  | .testing number =>
      (isPrime square number).map fun prime =>
        { state with
          tested := Function.update state.tested worker
            (state.tested worker ++ [number])
          found := if prime ≠ 0 then state.found ++ [number]
            else state.found }.goto worker .receiving
  | .exited | .overrun => none

end Processes

inductive Process where
  | main
  | worker (worker : Worker)
deriving Repr, DecidableEq

/-- The system for a file of numbers; an action is the process that steps. -/
def primeQueue (square : Int → Int) (numbers : List Int) :
    System Processes Process where
  start := Processes.start numbers
  step state process :=
    match process with
    | .main => state.mainStep
    | .worker worker => state.workerStep square worker

/-- What a step of `main` does. -/
inductive MainEffect (state : Processes) : Processes → Prop
  | endOfFile (here : state.main = .sending []) :
      MainEffect state { state with main := .stopping 0 }
  | tooLarge {number : Int} {unread : List Int}
      (here : state.main = .sending (number :: unread))
      (large : messageSize ≤ (lld number).length) :
      MainEffect state { state with main := .failed }
  | sendNumber {number : Int} {unread : List Int}
      (here : state.main = .sending (number :: unread))
      (room : state.queue.length < queueSlots) :
      MainEffect state { state with
        main := .sending unread
        queue := state.queue ++ [message number] }
  | sendStop {sent : Nat} (here : state.main = .stopping sent)
      (left : sent < 2) (room : state.queue.length < queueSlots) :
      MainEffect state { state with
        main := .stopping (sent + 1)
        queue := state.queue ++ [message (-1)] }
  | wait {sent : Nat} (here : state.main = .stopping sent)
      (done : 2 ≤ sent) :
      MainEffect state { state with main := .waiting .worker1 }
  | joinWorker1 (here : state.main = .waiting .worker1)
      (exit : state.worker .worker1 = .exited) :
      MainEffect state { state with main := .waiting .worker2 }
  | joinWorker2 (here : state.main = .waiting .worker2)
      (exit : state.worker .worker2 = .exited) :
      MainEffect state { state with main := .exited }

theorem mainStep_effect {state next : Processes}
    (hstep : state.mainStep = some next) : MainEffect state next := by
  cases hmain : state.main with
  | sending unread =>
      cases unread with
      | nil =>
          simp only [Processes.mainStep, hmain, Option.some.injEq] at hstep
          exact hstep ▸ .endOfFile hmain
      | cons number unread =>
          simp only [Processes.mainStep, hmain] at hstep
          split at hstep
          · rename_i hlarge
            exact Option.some.inj hstep ▸ .tooLarge hmain hlarge
          · simp only [Processes.mqSend,
              Option.ite_none_right_eq_some] at hstep
            exact Option.some.inj hstep.2 ▸ .sendNumber hmain hstep.1
  | stopping sent =>
      simp only [Processes.mainStep, hmain] at hstep
      split at hstep
      · rename_i hleft
        simp only [Processes.mqSend, Option.ite_none_right_eq_some] at hstep
        exact Option.some.inj hstep.2 ▸ .sendStop hmain hleft hstep.1
      · rename_i hdone
        exact Option.some.inj hstep ▸ .wait hmain (Nat.le_of_not_lt hdone)
  | waiting worker =>
      simp only [Processes.mainStep, hmain,
        Option.ite_none_right_eq_some] at hstep
      cases worker with
      | worker1 =>
          exact Option.some.inj hstep.2 ▸ .joinWorker1 hmain hstep.1
      | worker2 =>
          exact Option.some.inj hstep.2 ▸ .joinWorker2 hmain hstep.1
  | exited => simp [Processes.mainStep, hmain] at hstep
  | failed => simp [Processes.mainStep, hmain] at hstep

/-- What a step of a worker does. -/
inductive WorkerEffect (square : Int → Int) (state : Processes)
    (worker : Worker) : Processes → Prop
  | overrun {received : List Char} {rest : List (List Char)}
      (here : state.worker worker = .receiving)
      (queue : state.queue = received :: rest)
      (read : receivedNumber received = none) :
      WorkerEffect square state worker
        ({ state with queue := rest }.goto worker .overrun)
  | stop {received : List Char} {rest : List (List Char)}
      (here : state.worker worker = .receiving)
      (queue : state.queue = received :: rest)
      (read : receivedNumber received = some (-1)) :
      WorkerEffect square state worker
        ({ state with
            queue := rest
            stops := Function.update state.stops worker
              (state.stops worker + 1) }.goto worker .exited)
  | receive {received : List Char} {rest : List (List Char)} {number : Int}
      (here : state.worker worker = .receiving)
      (queue : state.queue = received :: rest)
      (read : receivedNumber received = some number) (data : number ≠ -1) :
      WorkerEffect square state worker
        ({ state with queue := rest }.goto worker (.testing number))
  | test {number prime : Int} (here : state.worker worker = .testing number)
      (result : isPrime square number = some prime) :
      WorkerEffect square state worker
        ({ state with
            tested := Function.update state.tested worker
              (state.tested worker ++ [number])
            found := if prime ≠ 0 then state.found ++ [number]
              else state.found }.goto worker .receiving)

theorem workerStep_effect {square : Int → Int} {state next : Processes}
    {worker : Worker} (hstep : state.workerStep square worker = some next) :
    WorkerEffect square state worker next := by
  cases hplace : state.worker worker with
  | receiving =>
      cases hqueue : state.queue with
      | nil => simp [Processes.workerStep, hplace, hqueue] at hstep
      | cons received rest =>
          simp only [Processes.workerStep, hplace, hqueue] at hstep
          split at hstep
          · rename_i hread
            exact Option.some.inj hstep ▸ .overrun hplace hqueue hread
          · rename_i number hread
            split at hstep
            · rename_i hstop
              subst hstop
              exact Option.some.inj hstep ▸ .stop hplace hqueue hread
            · rename_i hdata
              exact Option.some.inj hstep ▸
                .receive hplace hqueue hread hdata
  | testing number =>
      simp only [Processes.workerStep, hplace, Option.map_eq_some_iff] at hstep
      rcases hstep with ⟨prime, hresult, rfl⟩
      exact .test hplace hresult
  | exited => simp [Processes.workerStep, hplace] at hstep
  | overrun => simp [Processes.workerStep, hplace] at hstep

end PrimeQueue

end OsCourse
