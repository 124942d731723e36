/-
The manager and its two workers.  Every command travels as a signal, and the
SIGTERM that ends the workers travels on the same channel; a worker appends a
line to its log from the handler of the signal.
-/
import OsCourse.TransitionSystem
import OsCourse.Processes

namespace OsCourse

namespace CommandQueue

open TransitionSystem StandardSignals

/-- The signals that `Parse_signal` knows. -/
inductive UserSignal where
  | sigusr1
  | sigusr2
deriving Repr, DecidableEq

inductive Signal where
  | user (signal : UserSignal)
  | sigterm
deriving Repr, DecidableEq

inductive WorkerName where
  | worker1
  | worker2
deriving Repr, DecidableEq

/-- A valid line of `commands.txt`. -/
structure Command where
  worker : WorkerName
  signal : UserSignal
deriving Repr, DecidableEq

/-- The statement that `main` of a worker runs next; a `sigaction` statement
stands for what comes before its handler is installed. -/
inductive Place where
  | sigactionUsr1
  | sigactionUsr2
  | sigactionTerm
  | loopGuard
  | pauseCall
  | paused
  | shuttingDown
  | exited
  | killed
deriving Repr, DecidableEq

/-- A handler on the stack, and whether it is about to return. -/
structure Frame where
  signal : Signal
  returning : Bool
deriving Repr, DecidableEq

/-- A worker with what was sent to it. -/
structure Worker where
  place : Place
  keepRunning : Bool
  frames : List Frame
  pending : Pending Signal
  log : List UserSignal
  sent : List UserSignal

def Place.ended : Place → Bool
  | .exited | .killed => true
  | _ => false

/-- The handlers are installed in the order SIGUSR1, SIGUSR2, SIGTERM. -/
def Place.installed : Place → Signal → Bool
  | .sigactionUsr1, _ => false
  | .sigactionUsr2, signal => decide (signal = .user .sigusr1)
  | .sigactionTerm, signal => decide (signal ≠ .sigterm)
  | _, _ => true

/-- A handled signal makes a waiting `pause` return. -/
def Place.interrupted : Place → Place
  | .paused => .loopGuard
  | place => place

/-- The line that a handler appends to `worker_log_<pid>.txt`. -/
def UserSignal.logLine : UserSignal → String
  | .sigusr1 => "SIGUSR1 received\n"
  | .sigusr2 => "SIGUSR2 received\n"

namespace Worker

def start : Worker :=
  ⟨.sigactionUsr1, true, [], Pending.none, [], []⟩

def logLines (worker : Worker) : List String :=
  worker.log.map UserSignal.logLine

/-- The body shared by the two logging handlers; without a log file they return
at once. -/
def appendLine (worker : Worker) (opened : Bool) (signal : UserSignal) :
    Worker :=
  if opened then { worker with log := worker.log ++ [signal] } else worker

def sigusr1Handler (worker : Worker) (opened : Bool) : Worker :=
  worker.appendLine opened .sigusr1

def sigusr2Handler (worker : Worker) (opened : Bool) : Worker :=
  worker.appendLine opened .sigusr2

def sigtermHandler (worker : Worker) : Worker :=
  { worker with keepRunning := false }

def handle (worker : Worker) (opened : Bool) : Signal → Worker
  | .user .sigusr1 => worker.sigusr1Handler opened
  | .user .sigusr2 => worker.sigusr2Handler opened
  | .sigterm => worker.sigtermHandler

/-- `kill` from the manager. -/
def kill (worker : Worker) (signal : Signal) : Worker :=
  { worker with
    pending := worker.pending.raise signal
    sent := match signal with
      | .user command => worker.sent ++ [command]
      | .sigterm => worker.sent }

/-- The masks of the handlers are empty: only the handler's own signal is blocked
while it runs. -/
def blocked (worker : Worker) (signal : Signal) : Bool :=
  worker.frames.any fun frame => decide (frame.signal = signal)

/-- A pending signal is delivered: its handler starts, or the default action ends
the process. -/
def deliver (worker : Worker) (signal : Signal) : Option Worker :=
  if worker.place.ended = false ∧ worker.pending signal = true ∧
      worker.blocked signal = false then
    some (if worker.place.installed signal then
      { worker with
        place := worker.place.interrupted
        frames := ⟨signal, false⟩ :: worker.frames
        pending := worker.pending.clear signal }
    else
      { worker with
        place := .killed
        pending := worker.pending.clear signal })
  else none

/-- The topmost handler runs its body, then returns. -/
def runHandler (worker : Worker) (opened : Bool) : Option Worker :=
  if worker.place.ended then none
  else match worker.frames with
    | [] => none
    | ⟨signal, false⟩ :: below =>
        some { worker.handle opened signal with
          frames := ⟨signal, true⟩ :: below }
    | ⟨_, true⟩ :: below => some { worker with frames := below }

/-- The next step of `main`; it waits for the handlers. -/
def runMain (worker : Worker) : Option Worker :=
  if worker.frames = [] then
    match worker.place with
    | .sigactionUsr1 => some { worker with place := .sigactionUsr2 }
    | .sigactionUsr2 => some { worker with place := .sigactionTerm }
    | .sigactionTerm => some { worker with place := .loopGuard }
    | .loopGuard =>
        some { worker with
          place := if worker.keepRunning then .pauseCall else .shuttingDown }
    | .pauseCall => some { worker with place := .paused }
    | .shuttingDown => some { worker with place := .exited }
    | .paused | .exited | .killed => none
  else none

end Worker

/-- The manager with the commands and the SIGTERMs it has not sent yet, and the
workers. -/
structure State where
  commands : List Command
  terms : List WorkerName
  worker : WorkerName → Worker

inductive Action where
  | manager
  | deliver (name : WorkerName) (signal : Signal)
  | handler (name : WorkerName) (opened : Bool)
  | main (name : WorkerName)
deriving Repr, DecidableEq

namespace State

def start (commands : List Command) : State :=
  ⟨commands, [.worker1, .worker2], fun _ => .start⟩

def put (state : State) (name : WorkerName) (worker : Worker) : State :=
  { state with worker := Function.update state.worker name worker }

/-- The commands in order, then SIGTERM to both workers. -/
def runManager (state : State) : Option State :=
  match state.commands with
  | command :: rest =>
      some (({ state with commands := rest } : State).put command.worker
        ((state.worker command.worker).kill (.user command.signal)))
  | [] =>
      match state.terms with
      | name :: rest =>
          some (({ state with terms := rest } : State).put name
            ((state.worker name).kill .sigterm))
      | [] => none

def step (state : State) : Action → Option State
  | .manager => state.runManager
  | .deliver name signal => ((state.worker name).deliver signal).map
      (state.put name)
  | .handler name opened => ((state.worker name).runHandler opened).map
      (state.put name)
  | .main name => (state.worker name).runMain.map (state.put name)

end State

/-- The manager and the workers on a list of commands. -/
def queueOf (commands : List Command) : System State Action :=
  ⟨State.start commands, State.step⟩

/-- The signals that the commands send to a worker. -/
def signalsFor (name : WorkerName) (commands : List Command) :
    List UserSignal :=
  (commands.filter fun command => decide (command.worker = name)).map
    Command.signal

namespace Worker

/-- The lines that the worker still has to write for a signal: of the handler that
has started, and of the pending flag. -/
def underway (worker : Worker) (signal : UserSignal) : Int :=
  worker.frames.count ⟨.user signal, false⟩ +
    worker.pending.due (.user signal)

def Settled (worker : Worker) : Prop :=
  ∀ signal, worker.underway signal = 0

/-- The signal of the handler that runs its body next. -/
def writing (worker : Worker) : Option UserSignal :=
  match worker.frames with
  | ⟨.user signal, false⟩ :: _ => some signal
  | _ => none

/-- A handler writes the line of the earliest signal sent that has no line yet. -/
def WritesNext (worker : Worker) (opened : Bool) : Prop :=
  match worker.writing with
  | some signal =>
      opened = true ∧ worker.sent[worker.log.length]? = some signal
  | none => True

/-- No line is written twice. -/
def Bounded (worker : Worker) : Prop :=
  ∀ signal, (worker.log.count signal : Int) + worker.underway signal ≤
    worker.sent.count signal

/-- The log is right so far, and every line it lacks is underway. -/
structure Faithful (worker : Worker) : Prop where
  inOrder : worker.log <+: worker.sent
  counted : ∀ signal, (worker.sent.count signal : Int) =
    worker.log.count signal + worker.underway signal
  complete : worker.place.ended = true → worker.log = worker.sent

instance (worker : Worker) : Decidable worker.Settled :=
  decidable_of_iff
    (worker.underway .sigusr1 = 0 ∧ worker.underway .sigusr2 = 0)
    ⟨fun ⟨husr1, husr2⟩ signal => by cases signal <;> assumption,
      fun hall => ⟨hall _, hall _⟩⟩

instance (worker : Worker) (opened : Bool) :
    Decidable (worker.WritesNext opened) :=
  match hwriting : worker.writing with
  | some signal => decidable_of_iff
      (opened = true ∧ worker.sent[worker.log.length]? = some signal)
      (by simp only [WritesNext, hwriting])
  | none => isTrue (by simp only [WritesNext, hwriting])

end Worker

/-- A command waits until its signal is no longer pending, a handler writes its
line in the order of the commands, and a worker ends with nothing underway. -/
def Orderly (state : State) : Action → Prop
  | .manager =>
      match state.commands with
      | command :: _ =>
          (state.worker command.worker).pending (.user command.signal) = false ∧
            (state.worker command.worker).place.ended = false
      | [] => True
  | .deliver name signal =>
      (state.worker name).place.installed signal = false →
        signal = .sigterm ∧ (state.worker name).Settled
  | .handler name opened => (state.worker name).WritesNext opened
  | .main name =>
      (state.worker name).place = .shuttingDown → (state.worker name).Settled

instance (state : State) : (action : Action) → Decidable (Orderly state action)
  | .manager =>
      match hcommands : state.commands with
      | command :: _ => decidable_of_iff
          ((state.worker command.worker).pending (.user command.signal) =
              false ∧
            (state.worker command.worker).place.ended = false)
          (by simp only [Orderly, hcommands])
      | [] => isTrue (by simp only [Orderly, hcommands])
  | .deliver name signal =>
      inferInstanceAs (Decidable (_ → _))
  | .handler name opened =>
      inferInstanceAs (Decidable ((state.worker name).WritesNext opened))
  | .main name => inferInstanceAs (Decidable (_ → _))

section Workers

variable {worker next : Worker} {signal : Signal} {command other : UserSignal}
  {opened : Bool}

namespace Worker

@[simp] theorem kill_log : (worker.kill signal).log = worker.log := rfl

@[simp] theorem kill_place : (worker.kill signal).place = worker.place := rfl

@[simp] theorem kill_sent_sigterm :
    (worker.kill .sigterm).sent = worker.sent := rfl

@[simp] theorem kill_sent_user :
    (worker.kill (.user command)).sent = worker.sent ++ [command] := rfl

theorem underway_kill_sigterm :
    (worker.kill .sigterm).underway command = worker.underway command := by
  simp [underway, kill]

theorem underway_kill_user :
    (worker.kill (.user command)).underway other =
      worker.underway other +
        if command = other then 1 - worker.pending.due (.user command)
        else 0 := by
  by_cases hother : command = other
  · simp only [underway, kill, hother, Pending.due_raise_self, if_pos]
    omega
  · simp [underway, kill, hother, Ne.symm hother]

/-- What a delivery does. -/
theorem deliver_cases (hstep : worker.deliver signal = some next) :
    worker.place.ended = false ∧ next.log = worker.log ∧
      next.sent = worker.sent ∧
      ((worker.place.installed signal = true ∧ next.place.ended = false ∧
          ∀ other, next.underway other = worker.underway other) ∨
        (worker.place.installed signal = false ∧ next.place.ended = true ∧
          ∀ other, next.underway other = worker.underway other -
            if signal = .user other then 1 else 0)) := by
  rw [deliver, Option.ite_none_right_eq_some, Option.some.injEq] at hstep
  obtain ⟨⟨halive, hpending, _⟩, rfl⟩ := hstep
  have hdue := Pending.due_of_pending hpending
  by_cases hinstalled : worker.place.installed signal = true
  · rw [if_pos hinstalled]
    refine ⟨halive, rfl, rfl, .inl ⟨hinstalled, ?_, ?_⟩⟩
    · cases hplace : worker.place <;> simp_all [Place.interrupted, Place.ended]
    · intro other
      by_cases hother : signal = .user other
      · subst signal
        simp only [underway, List.count_cons_self, Pending.due_clear_self, hdue]
        omega
      · simp [underway, hother, Ne.symm hother]
  · rw [if_neg hinstalled]
    rw [Bool.not_eq_true] at hinstalled
    refine ⟨halive, rfl, rfl, .inr ⟨hinstalled, rfl, ?_⟩⟩
    intro other
    by_cases hother : signal = .user other
    · subst signal
      simp only [underway, Pending.due_clear_self, hdue, if_pos]
      omega
    · simp [underway, hother, Ne.symm hother]

@[simp] theorem appendLine_place :
    (worker.appendLine opened command).place = worker.place := by
  cases opened <;> rfl

@[simp] theorem appendLine_pending :
    (worker.appendLine opened command).pending = worker.pending := by
  cases opened <;> rfl

@[simp] theorem appendLine_sent :
    (worker.appendLine opened command).sent = worker.sent := by
  cases opened <;> rfl

theorem appendLine_log :
    (worker.appendLine opened command).log =
      if opened then worker.log ++ [command] else worker.log := by
  cases opened <;> rfl

@[simp] theorem handle_user :
    worker.handle opened (.user command) =
      worker.appendLine opened command := by
  cases command <;> rfl

/-- What the topmost handler does. -/
theorem runHandler_cases (hstep : worker.runHandler opened = some next) :
    worker.place.ended = false ∧ next.place.ended = false ∧
      next.sent = worker.sent ∧
      ((worker.writing = none ∧ next.log = worker.log ∧
          ∀ other, next.underway other = worker.underway other) ∨
        ∃ command, worker.writing = some command ∧
          next.log = (if opened then worker.log ++ [command]
            else worker.log) ∧
          ∀ other, next.underway other = worker.underway other -
            if command = other then 1 else 0) := by
  rw [runHandler, Option.ite_none_left_eq_some, Bool.not_eq_true] at hstep
  obtain ⟨halive, hstep⟩ := hstep
  cases hframes : worker.frames with
  | nil => simp [hframes] at hstep
  | cons frame below =>
      obtain ⟨signal, returning⟩ := frame
      cases returning with
      | true =>
          simp only [hframes, Option.some.injEq] at hstep
          subst next
          refine ⟨halive, halive, rfl, .inl ⟨by simp [writing, hframes], rfl, ?_⟩⟩
          intro other
          simp [underway, hframes]
      | false =>
          simp only [hframes, Option.some.injEq] at hstep
          subst next
          cases signal with
          | sigterm =>
              refine ⟨halive, halive, rfl,
                .inl ⟨by simp [writing, hframes], rfl, ?_⟩⟩
              intro other
              simp [underway, hframes, handle, sigtermHandler]
          | user command =>
              rw [handle_user]
              refine ⟨halive, by rw [appendLine_place, halive],
                appendLine_sent, .inr ⟨command, by simp [writing, hframes],
                  appendLine_log, ?_⟩⟩
              intro other
              by_cases hother : command = other
              · simp only [underway, hframes, hother, appendLine_pending,
                  List.count_cons_self, if_pos]
                rw [List.count_cons_of_ne (by simp)]
                omega
              · simp [underway, hframes, hother]

theorem runMain_cases (hstep : worker.runMain = some next) :
    worker.place.ended = false ∧
      (next.place.ended = true ↔ worker.place = .shuttingDown) ∧
      next.log = worker.log ∧ next.sent = worker.sent ∧
      ∀ other, next.underway other = worker.underway other := by
  rw [runMain, Option.ite_none_right_eq_some] at hstep
  obtain ⟨_, hstep⟩ := hstep
  cases hplace : worker.place with
  | sigactionUsr1
  | sigactionUsr2
  | sigactionTerm
  | pauseCall
  | shuttingDown =>
      simp only [hplace, Option.some.injEq] at hstep
      subst next
      exact ⟨rfl, by simp [Place.ended], rfl, rfl, fun _ => rfl⟩
  | loopGuard =>
      simp only [hplace, Option.some.injEq] at hstep
      subst next
      refine ⟨rfl, ?_, rfl, rfl, fun _ => rfl⟩
      cases worker.keepRunning <;> simp [Place.ended]
  | paused
  | exited
  | killed => simp [hplace] at hstep

theorem underway_nonneg (worker : Worker) (signal : UserSignal) :
    0 ≤ worker.underway signal :=
  add_nonneg (Int.natCast_nonneg _) (Pending.due_nonneg _ _)

theorem length_eq_counts (signals : List UserSignal) :
    signals.length = signals.count .sigusr1 + signals.count .sigusr2 := by
  induction signals with
  | nil => rfl
  | cons signal rest ih => cases signal <;> simp <;> omega

theorem count_append_single (signals : List UserSignal)
    (command other : UserSignal) :
    (signals ++ [command]).count other =
      signals.count other + if command = other then 1 else 0 := by
  simp [List.count_append, List.count_singleton]

theorem append_isPrefix_iff {log sent : List UserSignal} :
    log ++ [command] <+: sent ↔
      log <+: sent ∧ sent[log.length]? = some command := by
  constructor
  · rintro ⟨rest, rfl⟩
    exact ⟨⟨command :: rest, by simp⟩, by simp⟩
  · rintro ⟨⟨rest, rfl⟩, hnext⟩
    rw [List.getElem?_append_right (Nat.le_refl _), Nat.sub_self] at hnext
    cases rest with
    | nil => contradiction
    | cons head tail =>
        rw [List.getElem?_cons_zero, Option.some.injEq] at hnext
        exact ⟨tail, by simp [hnext]⟩

section Bounded

theorem Bounded.of_le (hbounded : Bounded worker)
    (hsent : next.sent = worker.sent)
    (hle : ∀ signal, (next.log.count signal : Int) + next.underway signal ≤
      worker.log.count signal + worker.underway signal) : Bounded next := by
  intro signal
  rw [hsent]
  exact (hle signal).trans (hbounded signal)

theorem Bounded.kill (hbounded : Bounded worker) (signal : Signal) :
    Bounded (worker.kill signal) := by
  cases signal with
  | sigterm =>
      apply hbounded.of_le kill_sent_sigterm
      intro signal
      rw [kill_log, underway_kill_sigterm]
  | user command =>
      intro other
      have hbefore := hbounded other
      have hdue := Pending.due_nonneg worker.pending (.user command)
      rw [kill_sent_user, kill_log, count_append_single, underway_kill_user]
      split <;> omega

theorem Bounded.deliver (hbounded : Bounded worker)
    (hstep : worker.deliver signal = some next) : Bounded next := by
  obtain ⟨_, hlog, hsent, hunderway⟩ := deliver_cases hstep
  apply hbounded.of_le hsent
  intro other
  rw [hlog]
  rcases hunderway with ⟨_, _, hsame⟩ | ⟨_, _, hless⟩
  · rw [hsame]
  · rw [hless]
    split <;> omega

theorem Bounded.runHandler (hbounded : Bounded worker)
    (hstep : worker.runHandler opened = some next) : Bounded next := by
  obtain ⟨_, _, hsent, ⟨_, hlog, hsame⟩ | ⟨command, _, hlog, hless⟩⟩ :=
    runHandler_cases hstep
  · apply hbounded.of_le hsent
    intro other
    rw [hlog, hsame]
  · apply hbounded.of_le hsent
    intro other
    rw [hlog, hless]
    cases opened with
    | false =>
        rw [if_neg Bool.false_ne_true]
        split <;> omega
    | true =>
        rw [if_pos rfl, count_append_single]
        split <;> omega

theorem Bounded.runMain (hbounded : Bounded worker)
    (hstep : worker.runMain = some next) : Bounded next := by
  obtain ⟨_, _, hlog, hsent, hsame⟩ := runMain_cases hstep
  apply hbounded.of_le hsent
  intro other
  rw [hlog, hsame]

theorem Bounded.length_le (hbounded : Bounded worker) :
    worker.log.length ≤ worker.sent.length := by
  have husr1 := hbounded .sigusr1
  have husr2 := hbounded .sigusr2
  have hfirst := underway_nonneg worker .sigusr1
  have hsecond := underway_nonneg worker .sigusr2
  rw [length_eq_counts, length_eq_counts]
  omega

end Bounded

section Faithful

/-- With an exact count, a log that is right so far is complete when nothing is
underway. -/
theorem log_eq_sent_iff (hbegin : worker.log <+: worker.sent)
    (hcounted : ∀ signal, (worker.sent.count signal : Int) =
      worker.log.count signal + worker.underway signal) :
    worker.log = worker.sent ↔ worker.Settled := by
  constructor
  · intro heq signal
    have hcount := hcounted signal
    rw [heq] at hcount
    omega
  · intro hsettled
    apply hbegin.eq_of_length
    have husr1 := hcounted .sigusr1
    have husr2 := hcounted .sigusr2
    rw [hsettled] at husr1 husr2
    rw [length_eq_counts, length_eq_counts worker.sent]
    omega

/-- A worker that has ended is faithful exactly if its log is what was sent. -/
theorem faithful_iff_of_ended (hbounded : Bounded worker)
    (hended : worker.place.ended = true) :
    Faithful worker ↔ worker.log = worker.sent := by
  constructor
  · intro hfaithful
    exact hfaithful.complete hended
  · intro heq
    refine ⟨heq ▸ List.prefix_refl _, fun signal => ?_, fun _ => heq⟩
    have hcount := hbounded signal
    have hunderway := underway_nonneg worker signal
    rw [heq] at hcount ⊢
    omega

/-- A step that neither sends nor writes keeps a worker faithful unless it ends it
too early. -/
theorem faithful_iff_of_same (halive : worker.place.ended = false)
    (hlog : next.log = worker.log) (hsent : next.sent = worker.sent)
    (hsame : ∀ signal, next.underway signal = worker.underway signal) :
    Faithful next ↔
      Faithful worker ∧ (next.place.ended = true → worker.Settled) := by
  constructor
  · intro hfaithful
    have hbegin : worker.log <+: worker.sent := by
      rw [← hlog, ← hsent]
      exact hfaithful.inOrder
    have hcounted : ∀ signal, (worker.sent.count signal : Int) =
        worker.log.count signal + worker.underway signal := by
      intro signal
      rw [← hlog, ← hsent, ← hsame]
      exact hfaithful.counted signal
    refine ⟨⟨hbegin, hcounted, fun hended => ?_⟩, fun hended => ?_⟩
    · rw [halive] at hended
      contradiction
    · rw [← log_eq_sent_iff hbegin hcounted, ← hlog, ← hsent]
      exact hfaithful.complete hended
  · rintro ⟨hfaithful, hsettled⟩
    refine ⟨?_, fun signal => ?_, fun hended => ?_⟩
    · rw [hlog, hsent]
      exact hfaithful.inOrder
    · rw [hlog, hsent, hsame]
      exact hfaithful.counted signal
    · rw [hlog, hsent,
        log_eq_sent_iff hfaithful.inOrder hfaithful.counted]
      exact hsettled hended

theorem faithful_kill_sigterm :
    Faithful (worker.kill .sigterm) ↔ Faithful worker := by
  constructor
  · intro hfaithful
    refine ⟨hfaithful.inOrder, fun signal => ?_, hfaithful.complete⟩
    rw [← underway_kill_sigterm]
    exact hfaithful.counted signal
  · intro hfaithful
    refine ⟨hfaithful.inOrder, fun signal => ?_, hfaithful.complete⟩
    rw [underway_kill_sigterm]
    exact hfaithful.counted signal

/-- A command is merged if its signal is pending, and lost on an ended worker. -/
theorem faithful_kill_user (hbounded : Bounded worker) :
    Faithful (worker.kill (.user command)) ↔
      Faithful worker ∧ worker.pending (.user command) = false ∧
        worker.place.ended = false := by
  constructor
  · intro hfaithful
    have halive : worker.place.ended = false := by
      rw [← Bool.not_eq_true]
      intro hended
      have hlength := congrArg List.length (hfaithful.complete hended)
      rw [kill_log, kill_sent_user, List.length_append,
        List.length_singleton] at hlength
      have hle := hbounded.length_le
      omega
    have hquiet : worker.pending (.user command) = false := by
      rw [← Bool.not_eq_true]
      intro hpending
      have hcount := hfaithful.counted command
      have hbefore := hbounded command
      rw [kill_sent_user, kill_log, count_append_single, underway_kill_user,
        Pending.due_of_pending hpending, if_pos rfl, if_pos rfl] at hcount
      omega
    refine ⟨⟨?_, fun other => ?_, fun hended => ?_⟩, hquiet, halive⟩
    · exact List.prefix_of_prefix_length_le hfaithful.inOrder
        (List.prefix_append _ _) hbounded.length_le
    · have hcount := hfaithful.counted other
      rw [kill_sent_user, kill_log, count_append_single, underway_kill_user,
        Pending.due_of_not_pending hquiet] at hcount
      split at hcount <;> omega
    · rw [halive] at hended
      contradiction
  · rintro ⟨hfaithful, hquiet, halive⟩
    refine ⟨?_, fun other => ?_, fun hended => ?_⟩
    · exact hfaithful.inOrder.trans (List.prefix_append _ _)
    · have hcount := hfaithful.counted other
      rw [kill_sent_user, kill_log, count_append_single, underway_kill_user,
        Pending.due_of_not_pending hquiet]
      split <;> omega
    · rw [kill_place, halive] at hended
      contradiction

theorem faithful_deliver (hbounded : Bounded worker)
    (hstep : worker.deliver signal = some next) :
    Faithful next ↔ Faithful worker ∧
      (worker.place.installed signal = false →
        signal = .sigterm ∧ worker.Settled) := by
  obtain ⟨halive, hlog, hsent, hcases⟩ := deliver_cases hstep
  rcases hcases with
    ⟨hinstalled, hlives, hsame⟩ | ⟨hinstalled, hended, hless⟩
  · rw [faithful_iff_of_same halive hlog hsent hsame, hlives, hinstalled]
    simp
  · cases signal with
    | sigterm =>
        rw [faithful_iff_of_same halive hlog hsent
          (fun other => by simp [hless]), hended, hinstalled]
        simp
    | user command =>
        apply iff_of_false
        · intro hfaithful
          have hcount := hfaithful.counted command
          have hunderway := underway_nonneg next command
          have hbefore := hbounded command
          have hcomplete := hfaithful.complete hended
          rw [hcomplete, hsent] at hcount
          rw [← hlog, hcomplete, hsent] at hbefore
          rw [hless, if_pos rfl] at hcount
          omega
        · rintro ⟨_, hterm⟩
          exact absurd (hterm hinstalled).1 (by simp)

theorem faithful_runHandler (hbounded : Bounded worker)
    (hstep : worker.runHandler opened = some next) :
    Faithful next ↔ Faithful worker ∧ worker.WritesNext opened := by
  obtain ⟨halive, hlives, hsent, ⟨hnone, hlog, hsame⟩ |
    ⟨command, hwriting, hlog, hless⟩⟩ := runHandler_cases hstep
  · rw [faithful_iff_of_same halive hlog hsent hsame, hlives]
    simp [WritesNext, hnone]
  · simp only [WritesNext, hwriting]
    cases opened with
    | false =>
        apply iff_of_false
        · intro hfaithful
          have hcount := hfaithful.counted command
          have hbefore := hbounded command
          rw [hlog, hsent, hless, if_neg Bool.false_ne_true,
            if_pos rfl] at hcount
          omega
        · rintro ⟨_, hopened, _⟩
          contradiction
    | true =>
        rw [if_pos rfl] at hlog
        have hcounts : ∀ other, (next.log.count other : Int) +
            next.underway other =
              worker.log.count other + worker.underway other := by
          intro other
          rw [hlog, hless, count_append_single]
          split <;> omega
        constructor
        · intro hfaithful
          have hbegin := hfaithful.inOrder
          rw [hlog, hsent, append_isPrefix_iff] at hbegin
          refine ⟨⟨hbegin.1, fun other => ?_, fun hended => ?_⟩, rfl,
            hbegin.2⟩
          · rw [← hcounts, ← hsent]
            exact hfaithful.counted other
          · rw [halive] at hended
            contradiction
        · rintro ⟨hfaithful, _, hnext⟩
          refine ⟨?_, fun other => ?_, fun hended => ?_⟩
          · rw [hlog, hsent, append_isPrefix_iff]
            exact ⟨hfaithful.inOrder, hnext⟩
          · rw [hcounts, hsent]
            exact hfaithful.counted other
          · rw [hlives] at hended
            contradiction

theorem faithful_runMain (hstep : worker.runMain = some next) :
    Faithful next ↔ Faithful worker ∧
      (worker.place = .shuttingDown → worker.Settled) := by
  obtain ⟨halive, hended, hlog, hsent, hsame⟩ := runMain_cases hstep
  rw [faithful_iff_of_same halive hlog hsent hsame, hended]

end Faithful

end Worker

end Workers

theorem UserSignal.logLine_injective :
    Function.Injective UserSignal.logLine := by
  intro left right heq
  cases left with
  | sigusr1 =>
      cases right with
      | sigusr1 => rfl
      | sigusr2 => exact absurd heq (by decide)
  | sigusr2 =>
      cases right with
      | sigusr1 => exact absurd heq (by decide)
      | sigusr2 => rfl

section Runs

variable {commands : List Command} {state next last : State}
  {action : Action} {name : WorkerName} {worker : Worker}

theorem signalsFor_cons (name : WorkerName) (command : Command)
    (rest : List Command) :
    signalsFor name (command :: rest) =
      (if command.worker = name then [command.signal] else []) ++
        signalsFor name rest := by
  by_cases hname : command.worker = name
  · simp [signalsFor, hname]
  · simp [signalsFor, hname]

@[simp] theorem put_commands : (state.put name worker).commands =
    state.commands := rfl

theorem forall_put (Q : WorkerName → Worker → Prop) :
    (∀ other, Q other ((state.put name worker).worker other)) ↔
      Q name worker ∧ ∀ other, other ≠ name → Q other (state.worker other) :=
  Function.forall_update_iff state.worker Q

/-- What holds in every run: no line is written twice, the manager sends the
commands in order, and SIGTERM comes after them. -/
structure Invariants (commands : List Command) (state : State) : Prop where
  bounded : ∀ name, (state.worker name).Bounded
  sent : ∀ name, (state.worker name).sent ++ signalsFor name state.commands =
    signalsFor name commands
  terms : state.terms ≠ [.worker1, .worker2] → state.commands = []

/-- A step of a worker does not touch what the manager has sent. -/
theorem Invariants.put (hinv : Invariants commands state)
    (hbounded : worker.Bounded)
    (hsent : worker.sent = (state.worker name).sent) :
    Invariants commands (state.put name worker) where
  bounded := (forall_put fun _ worker => worker.Bounded).mpr
    ⟨hbounded, fun other _ => hinv.bounded other⟩
  sent := by
    rw [put_commands, forall_put fun other worker =>
      worker.sent ++ signalsFor other state.commands =
        signalsFor other commands, hsent]
    exact ⟨hinv.sent name, fun other _ => hinv.sent other⟩
  terms := hinv.terms

/-- The manager sends the next command, or after the last one the next SIGTERM. -/
theorem runManager_cases (hstep : state.runManager = some next) :
    (∃ command rest, state.commands = command :: rest ∧
        next = ({ state with commands := rest } : State).put command.worker
          ((state.worker command.worker).kill (.user command.signal))) ∨
      ∃ name rest, state.commands = [] ∧ state.terms = name :: rest ∧
        next = ({ state with terms := rest } : State).put name
          ((state.worker name).kill .sigterm) := by
  unfold State.runManager at hstep
  cases hcommands : state.commands with
  | cons command rest =>
      simp only [hcommands, Option.some.injEq] at hstep
      exact .inl ⟨command, rest, rfl, hstep.symm⟩
  | nil =>
      cases hterms : state.terms with
      | nil => simp [hcommands, hterms] at hstep
      | cons name rest =>
          simp only [hcommands, hterms, Option.some.injEq] at hstep
          exact .inr ⟨name, rest, rfl, rfl, hstep.symm⟩

theorem Invariants.runManager (hinv : Invariants commands state)
    (hstep : state.runManager = some next) : Invariants commands next := by
  rcases runManager_cases hstep with
    ⟨command, rest, hcommands, rfl⟩ | ⟨name, rest, hcommands, _, rfl⟩
  · refine ⟨?_, ?_, fun hterms => ?_⟩
    · exact (forall_put fun _ worker => worker.Bounded).mpr
        ⟨(hinv.bounded _).kill _, fun other _ => hinv.bounded other⟩
    · rw [put_commands, forall_put fun other worker =>
        worker.sent ++ signalsFor other rest = signalsFor other commands]
      constructor
      · rw [← hinv.sent, hcommands, signalsFor_cons, if_pos rfl,
          Worker.kill_sent_user, List.append_assoc]
      · intro other hother
        rw [← hinv.sent, hcommands, signalsFor_cons,
          if_neg (Ne.symm hother), List.nil_append]
    · rw [hinv.terms hterms] at hcommands
      contradiction
  · have hkept : Invariants commands ({ state with terms := rest } : State) :=
      ⟨hinv.bounded, hinv.sent, fun _ => hcommands⟩
    exact hkept.put ((hinv.bounded name).kill .sigterm)
      Worker.kill_sent_sigterm

theorem invariants (commands : List Command) :
    Invariant (queueOf commands) (Invariants commands) where
  start := ⟨fun _ _ => Int.le_refl 0, fun _ => rfl, fun hterms => absurd rfl hterms⟩
  step := by
    intro state next action hinv hstep
    cases action with
    | manager => exact hinv.runManager hstep
    | deliver name signal =>
        obtain ⟨worker, hworker, rfl⟩ := Option.map_eq_some_iff.mp hstep
        exact hinv.put ((hinv.bounded name).deliver hworker)
          (Worker.deliver_cases hworker).2.2.1
    | handler name opened =>
        obtain ⟨worker, hworker, rfl⟩ := Option.map_eq_some_iff.mp hstep
        exact hinv.put ((hinv.bounded name).runHandler hworker)
          (Worker.runHandler_cases hworker).2.2.1
    | main name =>
        obtain ⟨worker, hworker, rfl⟩ := Option.map_eq_some_iff.mp hstep
        exact hinv.put ((hinv.bounded name).runMain hworker)
          (Worker.runMain_cases hworker).2.2.2.1

def AllFaithful (state : State) : Prop :=
  ∀ name, (state.worker name).Faithful

/-- From one worker to both: the other one is untouched. -/
theorem allFaithful_put {C : Prop}
    (hiff : worker.Faithful ↔ (state.worker name).Faithful ∧ C) :
    AllFaithful (state.put name worker) ↔ AllFaithful state ∧ C := by
  rw [AllFaithful, forall_put fun _ worker => worker.Faithful, hiff]
  constructor
  · rintro ⟨⟨hname, hC⟩, hothers⟩
    refine ⟨fun other => ?_, hC⟩
    by_cases hother : other = name
    · exact hother ▸ hname
    · exact hothers other hother
  · rintro ⟨hall, hC⟩
    exact ⟨⟨hall name, hC⟩, fun other _ => hall other⟩

/-- The step lemma: a step leaves both workers faithful exactly if they were and
it is orderly. -/
theorem allFaithful_step (hinv : Invariants commands state)
    (hstep : (queueOf commands).step state action = some next) :
    AllFaithful next ↔ AllFaithful state ∧ Orderly state action := by
  cases action with
  | manager =>
      rcases runManager_cases hstep with
        ⟨command, rest, hcommands, rfl⟩ | ⟨name, rest, hcommands, _, rfl⟩
      · simp only [Orderly, hcommands]
        apply allFaithful_put
        exact Worker.faithful_kill_user (hinv.bounded command.worker)
      · simp only [Orderly, hcommands]
        apply allFaithful_put
        rw [Worker.faithful_kill_sigterm, and_true]
  | deliver name signal =>
      obtain ⟨worker, hworker, rfl⟩ := Option.map_eq_some_iff.mp hstep
      apply allFaithful_put
      exact Worker.faithful_deliver (hinv.bounded name) hworker
  | handler name opened =>
      obtain ⟨worker, hworker, rfl⟩ := Option.map_eq_some_iff.mp hstep
      apply allFaithful_put
      exact Worker.faithful_runHandler (hinv.bounded name) hworker
  | main name =>
      obtain ⟨worker, hworker, rfl⟩ := Option.map_eq_some_iff.mp hstep
      apply allFaithful_put
      exact Worker.faithful_runMain hworker

theorem allFaithful_start (commands : List Command) :
    AllFaithful (State.start commands) := by
  intro name
  refine ⟨List.prefix_refl _, fun signal => rfl, fun hended => ?_⟩
  exact absurd hended Bool.false_ne_true

theorem allFaithful_iff_meets {schedule : List Action}
    (hrun : (queueOf commands).run schedule = some last) :
    AllFaithful last ↔ (queueOf commands).Meets Orderly schedule :=
  last_iff_meets (invariants commands) (allFaithful_start commands)
    allFaithful_step hrun

/-- When the manager is done and both workers have ended, the logs are the
commands exactly if every step of the run was orderly. -/
theorem logsEqualCommands_iff {schedule : List Action}
    (hrun : (queueOf commands).run schedule = some last)
    (hterms : last.terms = [])
    (hended : ∀ name, (last.worker name).place.ended = true) :
    (∀ name, (last.worker name).logLines =
        (signalsFor name commands).map UserSignal.logLine) ↔
      (queueOf commands).Meets Orderly schedule := by
  rw [← allFaithful_iff_meets hrun]
  have hinv := (invariants commands).run hrun
  apply forall_congr'
  intro name
  have hsent : (last.worker name).sent = signalsFor name commands := by
    have hall := hinv.sent name
    rw [hinv.terms (by simp [hterms])] at hall
    simpa [signalsFor] using hall
  rw [Worker.faithful_iff_of_ended (hinv.bounded name) (hended name), hsent]
  exact (List.map_injective_iff.mpr UserSignal.logLine_injective).eq_iff

end Runs

namespace SampleRuns

/-- The script of the performance test. -/
def testCommands : List Command :=
  [⟨.worker1, .sigusr1⟩, ⟨.worker2, .sigusr2⟩, ⟨.worker1, .sigusr2⟩,
    ⟨.worker2, .sigusr1⟩]

/-- A worker installs its handlers and waits in `pause`. -/
def ready (name : WorkerName) : List Action :=
  List.replicate 5 (.main name)

/-- A signal is delivered, its handler runs, and `main` goes on. -/
def receive (name : WorkerName) (signal : Signal) : List Action :=
  [.deliver name signal, .handler name true, .handler name true,
    .main name, .main name]

/-- Each signal is handled before the manager sends the next one. -/
def prompt : List Action :=
  ready .worker1 ++ ready .worker2 ++
    [.manager] ++ receive .worker1 (.user .sigusr1) ++
    [.manager] ++ receive .worker2 (.user .sigusr2) ++
    [.manager] ++ receive .worker1 (.user .sigusr2) ++
    [.manager] ++ receive .worker2 (.user .sigusr1) ++
    [.manager] ++ receive .worker1 .sigterm ++
    [.manager] ++ receive .worker2 .sigterm

/-- The first worker only gets to run when both its signals are pending: the
second handler starts on top of the first. -/
def overtaken : List Action :=
  ready .worker1 ++ ready .worker2 ++
    [.manager, .manager] ++ receive .worker2 (.user .sigusr2) ++
    [.manager, .deliver .worker1 (.user .sigusr1),
      .deliver .worker1 (.user .sigusr2)] ++
    List.replicate 4 (.handler .worker1 true) ++
    [.main .worker1, .main .worker1] ++
    [.manager] ++ receive .worker2 (.user .sigusr1) ++
    [.manager] ++ receive .worker1 .sigterm ++
    [.manager] ++ receive .worker2 .sigterm

/-- The same command twice, the second one while the first is pending. -/
def merged : List Action :=
  ready .worker1 ++ ready .worker2 ++ [.manager, .manager] ++
    receive .worker1 (.user .sigusr1) ++
    [.manager] ++ receive .worker1 .sigterm ++
    [.manager] ++ receive .worker2 .sigterm

/-- The last command is pending when the second worker handles SIGTERM. -/
def cutOff : List Action :=
  ready .worker1 ++ ready .worker2 ++
    [.manager] ++ receive .worker1 (.user .sigusr1) ++
    [.manager] ++ receive .worker2 (.user .sigusr2) ++
    [.manager] ++ receive .worker1 (.user .sigusr2) ++
    [.manager, .manager] ++ receive .worker1 .sigterm ++
    [.manager] ++ receive .worker2 .sigterm

/-- The log of both workers, when the manager is done and they have ended. -/
def logs (state : State) : Option (List UserSignal × List UserSignal) :=
  if state.terms = [] ∧ (state.worker .worker1).place.ended = true ∧
      (state.worker .worker2).place.ended = true then
    some ((state.worker .worker1).log, (state.worker .worker2).log)
  else none

end SampleRuns

open SampleRuns

section Logs

variable {commands : List Command} {schedule : List Action}
  {first second : List UserSignal}

/-- A run that has logs is one in which the manager is done and both workers have
ended. -/
theorem exists_run_of_logs
    (hlogs : ((queueOf commands).run schedule).bind logs =
      some (first, second)) :
    ∃ last, (queueOf commands).run schedule = some last ∧
      last.terms = [] ∧ (∀ name, (last.worker name).place.ended = true) ∧
      (last.worker .worker1).log = first ∧
      (last.worker .worker2).log = second := by
  obtain ⟨last, hrun, hlast⟩ := Option.bind_eq_some_iff.mp hlogs
  rw [logs, Option.ite_none_right_eq_some, Option.some.injEq,
    Prod.mk.injEq] at hlast
  obtain ⟨⟨hterms, hfirst, hsecond⟩, hlog⟩ := hlast
  refine ⟨last, hrun, hterms, fun name => ?_, hlog⟩
  cases name with
  | worker1 => exact hfirst
  | worker2 => exact hsecond

end Logs

theorem logsEqualCommands_iff_prompt :
    ∃ last, (queueOf testCommands).run prompt = some last ∧
      ∀ name, (last.worker name).logLines =
        (signalsFor name testCommands).map UserSignal.logLine := by
  have hlogs : ((queueOf testCommands).run prompt).bind logs =
      some ([.sigusr1, .sigusr2], [.sigusr2, .sigusr1]) := by
    decide +kernel
  obtain ⟨last, hrun, hterms, hended, _⟩ :=
    exists_run_of_logs hlogs
  exact ⟨last, hrun,
    (logsEqualCommands_iff hrun hterms hended).mpr (by decide +kernel)⟩

/-- On the script of the test the lines of a late worker are swapped, or SIGTERM
cuts off the last one; a repeated command leaves one line. -/
theorem wrongLogs_reachable :
    ((queueOf testCommands).run overtaken).bind logs =
        some ([.sigusr2, .sigusr1], [.sigusr2, .sigusr1]) ∧
      ((queueOf testCommands).run cutOff).bind logs =
        some ([.sigusr1, .sigusr2], [.sigusr2]) ∧
      ((queueOf (List.replicate 2 ⟨.worker1, .sigusr1⟩)).run merged).bind
        logs = some ([.sigusr1], []) ∧
      ¬ ∀ (commands : List Command) (schedule : List Action) (last : State),
        (queueOf commands).run schedule = some last → last.terms = [] →
          (∀ name, (last.worker name).place.ended = true) →
          ∀ name, (last.worker name).logLines =
            (signalsFor name commands).map UserSignal.logLine := by
  have hovertaken : ((queueOf testCommands).run overtaken).bind logs =
      some ([.sigusr2, .sigusr1], [.sigusr2, .sigusr1]) := by
    decide +kernel
  refine ⟨hovertaken, by decide +kernel, by decide +kernel, ?_⟩
  intro hall
  obtain ⟨last, hrun, hterms, hended, hlog, _⟩ :=
    exists_run_of_logs hovertaken
  have hlines := hall _ _ last hrun hterms hended .worker1
  rw [Worker.logLines, hlog] at hlines
  exact absurd hlines (by decide)

end CommandQueue

end OsCourse
