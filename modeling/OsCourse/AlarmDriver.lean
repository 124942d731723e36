/-
The driver that sends SIGALRM to `time_plotter` at an interval, and the handler there
that prints the time since the last signal.  Sending, delivery and the passing of time
interleave in any way; the two parts of a time are read as exact.
-/
import OsCourse.TransitionSystem
import OsCourse.DecimalText

namespace OsCourse

namespace AlarmDriver

open TransitionSystem DecimalText

section Argument

def splitSign : List Char → Int × List Char
  | '-' :: rest => (-1, rest)
  | '+' :: rest => (1, rest)
  | rest => (1, rest)

/-- `strtol` to the base 10: the value and where it ends, which without a digit is the
start of the text. -/
def strtol (text : List Char) : Int × List Char :=
  let (sign, rest) := splitSign (text.dropWhile isSpace)
  if rest.takeWhile Char.isDigit = [] then (0, text)
  else (saturate (sign * leadingDigits rest), rest.dropWhile Char.isDigit)

/-- The interval in milliseconds, if `main` takes its argument. -/
def parseInterval (argument : List Char) : Option Int :=
  let (intervalMs, endText) := strtol argument
  if argument = [] ∨ endText ≠ [] ∨ intervalMs ≤ 0 then none
  else some intervalMs

/-- `(useconds_t)(interval_ms * 1000)`; `useconds_t` has 32 bits. -/
def useconds (intervalMs : Int) : Nat :=
  (intervalMs * 1000 % 2 ^ 32).toNat

end Argument

section Times

/-- `struct timespec`. -/
structure Timespec where
  sec : Int
  nsec : Int
deriving Repr, DecidableEq

/-- What `clock_gettime` stores at a time in nanoseconds. -/
def Timespec.ofNanos (clock : Nat) : Timespec :=
  ⟨clock / 1000000000, clock % 1000000000⟩

/-- `timespec_diff`. -/
def timespecDiff (current previous : Timespec) : ℚ :=
  let sec : ℚ := (current.sec - previous.sec : Int)
  let nsec : ℚ := (current.nsec - previous.nsec : Int) / 1000000000
  sec + nsec

end Times

/-- The next statement of the driver; `usleep` returns at the time `wake` or later. -/
inductive DriverPlace where
  | fork
  | usleep
  | sleeping (wake : Nat)
  | kill
  | returned (status : Nat)
deriving Repr, DecidableEq

/-- Why a process has ended. -/
inductive Ended where
  | byAlarm
  | status (value : Nat)
deriving Repr, DecidableEq

/-- The next statement of the child: `paused` is the endless loop of `time_plotter`, and
the three places behind it are those of the handler. -/
inductive TimerPlace where
  | unborn
  | execlp
  | sigaction
  | paused
  | clockGettime
  | report (current : Timespec)
  | setLast (current : Timespec)
  | zombie (ended : Ended)
deriving Repr, DecidableEq

/-- What the handler prints. -/
inductive Line where
  | started
  | elapsed (seconds : ℚ)
deriving Repr, DecidableEq

/-- Both processes.  `kills` are the calls of `kill` that succeeded and `readings` the
times that the handler read. -/
structure State where
  clock : Nat
  driver : DriverPlace
  timer : TimerPlace
  pending : Bool
  firstCall : Bool
  lastTime : Timespec
  printed : List Line
  kills : Nat
  readings : List Nat
deriving Repr, DecidableEq

/-- The system decides what calls succeed, which process runs, when a signal is delivered
and how time passes. -/
inductive Action where
  | tick
  | fork (succeeds : Bool)
  | driver
  | timer (succeeds : Bool)
  | deliver
deriving Repr, DecidableEq

namespace State

def start : State :=
  ⟨0, .fork, .unborn, false, true, ⟨0, 0⟩, [], 0, []⟩

def fork (state : State) (succeeds : Bool) : Option State :=
  if state.driver = .fork then
    if succeeds then
      some { state with driver := .usleep, timer := .execlp }
    else some { state with driver := .returned 1 }
  else none

/-- `kill` finds a process until it is waited for, which the driver never does. -/
def runDriver (intervalUs : Nat) (state : State) : Option State :=
  match state.driver with
  | .usleep =>
      some { state with driver := .sleeping (state.clock + intervalUs * 1000) }
  | .sleeping wake =>
      if wake ≤ state.clock then some { state with driver := .kill } else none
  | .kill =>
      match state.timer with
      | .unborn => some { state with driver := .returned 0 }
      | .zombie _ =>
          some { state with driver := .usleep, kills := state.kills + 1 }
      | _ => some { state with
          driver := .usleep, pending := true, kills := state.kills + 1 }
  | .fork | .returned _ => none

def runTimer (state : State) (succeeds : Bool) : Option State :=
  match state.timer with
  | .execlp =>
      some { state with
        timer := if succeeds then .sigaction else .zombie (.status 127) }
  | .sigaction =>
      some { state with
        timer := if succeeds then .paused else .zombie (.status 1) }
  | .clockGettime => some { state with
      timer := .report (Timespec.ofNanos state.clock)
      readings := state.readings ++ [state.clock] }
  | .report current =>
      if state.firstCall then
        some { state with
          timer := .setLast current
          firstCall := false
          printed := state.printed ++ [.started] }
      else
        some { state with
          timer := .setLast current
          printed := state.printed ++
            [.elapsed (timespecDiff current state.lastTime)] }
  | .setLast current =>
      some { state with timer := .paused, lastTime := current }
  | .unborn | .paused | .zombie _ => none

/-- A signal that comes before the handler is set ends the process, and the signal is
blocked while the handler runs. -/
def deliver (state : State) : Option State :=
  if state.pending then
    match state.timer with
    | .execlp | .sigaction => some { state with
        pending := false, timer := .zombie .byAlarm }
    | .paused => some { state with pending := false, timer := .clockGettime }
    | _ => none
  else none

def step (intervalUs : Nat) (state : State) : Action → Option State
  | .tick => some { state with clock := state.clock + 1 }
  | .fork succeeds => state.fork succeeds
  | .driver => state.runDriver intervalUs
  | .timer succeeds => state.runTimer succeeds
  | .deliver => state.deliver

end State

/-- The driver for an interval that `parseInterval` takes. -/
def alarmDriver (intervalMs : Int) : System State Action where
  start := State.start
  step := State.step (useconds intervalMs)

section Lines

/-- The lines of a handler that reads these times. -/
def linesFrom (previous : Nat) : List Nat → List Line
  | [] => []
  | time :: times =>
      .elapsed (((time : ℚ) - previous) / 1000000000) :: linesFrom time times

def linesOf : List Nat → List Line
  | [] => []
  | time :: times => .started :: linesFrom time times

/-- The seconds of a line. -/
def Line.seconds : Line → ℚ
  | .started => 0
  | .elapsed seconds => seconds

/-- The line about one more time. -/
def nextLine (times : List Nat) (time : Nat) : Line :=
  match times.getLast? with
  | none => .started
  | some previous => .elapsed (((time : ℚ) - previous) / 1000000000)

theorem linesFrom_concat (previous : Nat) (times : List Nat) (time : Nat) :
    linesFrom previous (times ++ [time]) =
      linesFrom previous times ++ [nextLine (previous :: times) time] := by
  induction times generalizing previous with
  | nil => rfl
  | cons first times ih =>
      rw [List.cons_append, linesFrom, ih, linesFrom, List.cons_append,
        nextLine, nextLine, List.getLast?_cons_cons]

theorem linesOf_concat (times : List Nat) (time : Nat) :
    linesOf (times ++ [time]) = linesOf times ++ [nextLine times time] := by
  cases times with
  | nil => rfl
  | cons first times =>
      rw [List.cons_append, linesOf, linesFrom_concat, linesOf, List.cons_append]

/-- What the lines say adds up to the time from the first signal to the last. -/
theorem sum_linesFrom (previous : Nat) (times : List Nat) :
    ((linesFrom previous times).map Line.seconds).sum =
      (((times.getLastD previous : Nat) : ℚ) - previous) / 1000000000 := by
  induction times generalizing previous with
  | nil => simp [linesFrom]
  | cons time times ih =>
      rw [linesFrom, List.map_cons, List.sum_cons, ih, Line.seconds,
        List.getLastD_cons]
      ring

theorem timespecDiff_ofNanos (current previous : Nat) :
    timespecDiff (Timespec.ofNanos current) (Timespec.ofNanos previous) =
      ((current : ℚ) - previous) / 1000000000 := by
  have hcurrent := Int.mul_ediv_add_emod current 1000000000
  have hprevious := Int.mul_ediv_add_emod previous 1000000000
  have hcurrent' : (current : ℚ) =
      1000000000 * ((current : Int) / 1000000000 : Int) +
        ((current : Int) % 1000000000 : Int) := by
    exact_mod_cast hcurrent.symm
  have hprevious' : (previous : ℚ) =
      1000000000 * ((previous : Int) / 1000000000 : Int) +
        ((previous : Int) % 1000000000 : Int) := by
    exact_mod_cast hprevious.symm
  rw [timespecDiff, Timespec.ofNanos, Timespec.ofNanos, hcurrent', hprevious']
  push_cast
  ring

end Lines

section Invariants

variable {interval : Nat} {state next : State} {action : Action} {succeeds : Bool}

@[simp] def DriverPlace.forked : DriverPlace → Bool
  | .fork | .returned _ => false
  | .usleep | .sleeping _ | .kill => true

/-- The driver and its clock: each signal comes an interval after the one before. -/
structure Paced (interval : Nat) (state : State) : Prop where
  unborn : state.timer = .unborn ↔ state.driver.forked = false
  stays : state.driver.forked = false →
    state.driver = .fork ∨ state.driver = .returned 1
  killed : state.kills * (interval * 1000) ≤ state.clock
  sleeping : ∀ wake, state.driver = .sleeping wake →
    (state.kills + 1) * (interval * 1000) ≤ wake
  kill : state.driver = .kill →
    (state.kills + 1) * (interval * 1000) ≤ state.clock

theorem Paced.start : Paced interval State.start :=
  ⟨by decide, fun _ => .inl rfl, by simp [State.start], by simp [State.start],
    by simp [State.start]⟩

/-- The timer leaves the driver alone, and stays born. -/
structure DriverSame (state next : State) : Prop where
  clock : next.clock = state.clock
  driver : next.driver = state.driver
  kills : next.kills = state.kills
  unborn : next.timer = .unborn ↔ state.timer = .unborn

theorem DriverSame.paced (hsame : DriverSame state next)
    (hpaced : Paced interval state) : Paced interval next := by
  obtain ⟨hclock, hdriver, hkills, hunborn⟩ := hsame
  constructor
  · rw [hunborn, hdriver]
    exact hpaced.unborn
  · rw [hdriver]
    exact hpaced.stays
  · rw [hkills, hclock]
    exact hpaced.killed
  · rw [hkills, hdriver]
    exact hpaced.sleeping
  · rw [hkills, hdriver, hclock]
    exact hpaced.kill

/-- What the timer does by itself. -/
theorem runTimer_cases (hstep : state.runTimer succeeds = some next) :
    (state.timer ∈ [.execlp, .sigaction] ∧ ∃ dest ∈ [TimerPlace.sigaction,
        .paused, .zombie (.status 127), .zombie (.status 1)],
      next = { state with timer := dest }) ∨
    (state.timer = .clockGettime ∧ next = { state with
      timer := .report (Timespec.ofNanos state.clock)
      readings := state.readings ++ [state.clock] }) ∨
    (∃ current, state.timer = .report current ∧ next = { state with
      timer := .setLast current
      firstCall := false
      printed := state.printed ++ [if state.firstCall then .started
        else .elapsed (timespecDiff current state.lastTime)] }) ∨
    ∃ current, state.timer = .setLast current ∧
      next = { state with timer := .paused, lastTime := current } := by
  cases hplace : state.timer with
  | unborn | paused | zombie ended => simp [State.runTimer, hplace] at hstep
  | execlp | sigaction =>
      simp only [State.runTimer, hplace, Option.some.injEq] at hstep
      refine .inl ⟨by simp, _, ?_, hstep.symm⟩
      cases succeeds <;> simp
  | clockGettime =>
      simp only [State.runTimer, hplace, Option.some.injEq] at hstep
      exact .inr (.inl ⟨rfl, hstep.symm⟩)
  | report current =>
      refine .inr (.inr (.inl ⟨current, rfl, ?_⟩))
      cases hfirst : state.firstCall with
      | true =>
          simp only [State.runTimer, hplace, hfirst, if_true] at hstep
          exact (Option.some.inj hstep).symm
      | false =>
          simp only [State.runTimer, hplace, hfirst, Bool.false_eq_true,
            if_false] at hstep
          exact (Option.some.inj hstep).symm
  | setLast current =>
      simp only [State.runTimer, hplace, Option.some.injEq] at hstep
      exact .inr (.inr (.inr ⟨current, rfl, hstep.symm⟩))

/-- What a signal does that is delivered. -/
theorem deliver_cases (hstep : state.deliver = some next) :
    state.pending = true ∧
      ((state.timer ∈ [.execlp, .sigaction] ∧ next = { state with
        pending := false, timer := .zombie .byAlarm }) ∨
      (state.timer = .paused ∧ next = { state with
        pending := false, timer := .clockGettime })) := by
  rw [State.deliver] at hstep
  split at hstep
  · rename_i hpending
    refine ⟨hpending, ?_⟩
    split at hstep
    · rename_i hplace
      exact .inl ⟨by simp [hplace], (Option.some.inj hstep).symm⟩
    · rename_i hplace
      exact .inl ⟨by simp [hplace], (Option.some.inj hstep).symm⟩
    · rename_i hplace
      exact .inr ⟨hplace, (Option.some.inj hstep).symm⟩
    · cases hstep
  · cases hstep

theorem driverSame_runTimer (hstep : state.runTimer succeeds = some next) :
    DriverSame state next := by
  rcases runTimer_cases hstep with
    ⟨hplace, dest, hdest, rfl⟩ | ⟨hplace, rfl⟩ | ⟨current, hplace, rfl⟩ |
    ⟨current, hplace, rfl⟩
  · refine ⟨rfl, rfl, rfl, ?_⟩
    have hborn : state.timer ≠ .unborn := by
      rintro hunborn
      rw [hunborn] at hplace
      exact absurd hplace (by decide)
    have hdest : dest ≠ .unborn := by
      rintro rfl
      exact absurd hdest (by decide)
    exact iff_of_false hdest hborn
  · exact ⟨rfl, rfl, rfl, by simp [hplace]⟩
  · exact ⟨rfl, rfl, rfl, by simp [hplace]⟩
  · exact ⟨rfl, rfl, rfl, by simp [hplace]⟩

theorem driverSame_deliver (hstep : state.deliver = some next) :
    DriverSame state next := by
  obtain ⟨-, ⟨hplace, rfl⟩ | ⟨hplace, rfl⟩⟩ := deliver_cases hstep
  · have hborn : state.timer ≠ .unborn := by
      rintro hunborn
      rw [hunborn] at hplace
      exact absurd hplace (by decide)
    exact ⟨rfl, rfl, rfl, iff_of_false (by simp) hborn⟩
  · exact ⟨rfl, rfl, rfl, by simp [hplace]⟩

theorem Paced.fork (hpaced : Paced interval state)
    (hstep : state.fork succeeds = some next) : Paced interval next := by
  rw [State.fork] at hstep
  split at hstep
  · cases succeeds with
    | true =>
        cases hstep
        exact ⟨by simp, by simp, hpaced.killed, by simp, by simp⟩
    | false =>
        rename_i hplace
        cases hstep
        refine ⟨?_, fun _ => .inr rfl, hpaced.killed, by simp, by simp⟩
        rw [hpaced.unborn, hplace]
        rfl
  · cases hstep

/-- The statements of the driver's loop; a signal that it sends is pending, unless its
child has ended. -/
theorem runDriver_cases (hpaced : Paced interval state)
    (hstep : state.runDriver interval = some next) :
    (state.driver = .usleep ∧ next = { state with
      driver := .sleeping (state.clock + interval * 1000) }) ∨
    (∃ wake, state.driver = .sleeping wake ∧ wake ≤ state.clock ∧
      next = { state with driver := .kill }) ∨
    (state.driver = .kill ∧ ∃ pending, (pending = true ∨
      pending = state.pending) ∧
      next = { state with
        driver := .usleep, pending := pending, kills := state.kills + 1 }) := by
  cases hplace : state.driver with
  | fork | returned status => simp [State.runDriver, hplace] at hstep
  | usleep =>
      simp only [State.runDriver, hplace, Option.some.injEq] at hstep
      exact .inl ⟨rfl, hstep.symm⟩
  | sleeping wake =>
      simp only [State.runDriver, hplace, Option.ite_none_right_eq_some,
        Option.some.injEq] at hstep
      exact .inr (.inl ⟨wake, rfl, hstep.1, hstep.2.symm⟩)
  | kill =>
      refine .inr (.inr ⟨rfl, ?_⟩)
      simp only [State.runDriver, hplace] at hstep
      split at hstep
      · rename_i hunborn
        have hforked := hpaced.unborn.mp hunborn
        rw [hplace] at hforked
        cases hforked
      · exact ⟨state.pending, .inr rfl, (Option.some.inj hstep).symm⟩
      · exact ⟨true, .inl rfl, (Option.some.inj hstep).symm⟩

theorem Paced.runDriver (hpaced : Paced interval state)
    (hstep : state.runDriver interval = some next) : Paced interval next := by
  have hsucc := Nat.add_one_mul state.kills (interval * 1000)
  rcases runDriver_cases hpaced hstep with
    ⟨hplace, rfl⟩ | ⟨wake, hplace, hwake, rfl⟩ |
    ⟨hplace, pending, -, rfl⟩
  · refine ⟨?_, by simp, hpaced.killed, ?_, by simp⟩
    · rw [hpaced.unborn, hplace]
      rfl
    · rintro wake hwake
      have hkilled := hpaced.killed
      cases hwake
      change (state.kills + 1) * (interval * 1000) ≤
        state.clock + interval * 1000
      omega
  · refine ⟨?_, by simp, hpaced.killed, by simp, ?_⟩
    · rw [hpaced.unborn, hplace]
      rfl
    · exact fun _ => (hpaced.sleeping wake hplace).trans hwake
  · refine ⟨?_, by simp, hpaced.kill hplace, by simp, by simp⟩
    rw [hpaced.unborn, hplace]
    rfl

theorem Paced.step (hpaced : Paced interval state)
    (hstep : state.step interval action = some next) : Paced interval next := by
  cases action with
  | tick =>
      cases hstep
      exact ⟨hpaced.unborn, hpaced.stays, Nat.le_succ_of_le hpaced.killed,
        hpaced.sleeping, fun hkill => Nat.le_succ_of_le (hpaced.kill hkill)⟩
  | fork succeeds => exact hpaced.fork hstep
  | driver => exact hpaced.runDriver hstep
  | timer succeeds => exact (driverSame_runTimer hstep).paced hpaced
  | deliver => exact (driverSame_deliver hstep).paced hpaced

/-- The places before the handler is set and after the end. -/
@[simp] def TimerPlace.deaf : TimerPlace → Bool
  | .unborn | .execlp | .sigaction | .zombie _ => true
  | .paused | .clockGettime | .report _ | .setLast _ => false

/-- Signals on their way to the handler. -/
def due (state : State) : Nat :=
  state.pending.toNat + (decide (state.timer = .clockGettime)).toNat

/-- The times that the handler read, each for a signal of its own. -/
structure Read (interval : Nat) (state : State) : Prop where
  count : state.readings.length + due state ≤ state.kills
  paced : ∀ k time, state.readings[k]? = some time →
    (k + 1) * (interval * 1000) ≤ time ∧ time ≤ state.clock
  sorted : state.readings.Pairwise (· ≤ ·)
  deaf : state.timer.deaf = true → state.readings = []

theorem Read.start : Read interval State.start :=
  ⟨Nat.le_refl 0, by simp [State.start], List.Pairwise.nil, fun _ => rfl⟩

/-- A step that reads no time. -/
theorem Read.of_same (hread : Read interval state)
    (hreadings : next.readings = state.readings)
    (hcount : due next + state.kills ≤ due state + next.kills)
    (hclock : state.clock ≤ next.clock)
    (hdeaf : next.timer.deaf = true → state.timer.deaf = true) :
    Read interval next := by
  have hold := hread.count
  constructor
  · rw [hreadings]
    omega
  · rw [hreadings]
    intro k time htime
    obtain ⟨hlow, hhigh⟩ := hread.paced k time htime
    exact ⟨hlow, hhigh.trans hclock⟩
  · rw [hreadings]
    exact hread.sorted
  · rw [hreadings]
    exact fun hnext => hread.deaf (hdeaf hnext)

theorem deaf_of_mem (hplace : state.timer ∈ [.execlp, .sigaction]) :
    state.timer.deaf = true ∧ state.timer ≠ .clockGettime := by
  simp only [List.mem_cons, List.not_mem_nil, or_false] at hplace
  rcases hplace with hplace | hplace <;> simp [hplace]

/-- A time is read for a signal that was sent an interval after the one before. -/
theorem Read.clockGettime (hread : Read interval state)
    (hpaced : Paced interval state) (hplace : state.timer = .clockGettime) :
    Read interval { state with
      timer := .report (Timespec.ofNanos state.clock)
      readings := state.readings ++ [state.clock] } := by
  have hcount := hread.count
  have hdue : due state = state.pending.toNat + 1 := by
    rw [due, hplace]
    rfl
  rw [hdue] at hcount
  constructor
  · rw [List.length_append]
    exact (show state.readings.length + 1 + state.pending.toNat ≤ state.kills by
      omega)
  · intro k time htime
    rcases Nat.lt_trichotomy k state.readings.length with hk | rfl | hk
    · rw [List.getElem?_append_left hk] at htime
      exact hread.paced k time htime
    · rw [List.getElem?_concat_length, Option.some.injEq] at htime
      rw [← htime]
      refine ⟨?_, Nat.le_refl _⟩
      calc (state.readings.length + 1) * (interval * 1000)
          ≤ state.kills * (interval * 1000) :=
            Nat.mul_le_mul_right _ (by omega)
        _ ≤ state.clock := hpaced.killed
    · rw [List.getElem?_eq_none] at htime
      · cases htime
      · rw [List.length_append]
        exact hk
  · refine List.pairwise_append.mpr ⟨hread.sorted, List.pairwise_singleton _ _, ?_⟩
    intro first hfirst last hlast
    obtain ⟨k, hk⟩ := List.getElem?_of_mem hfirst
    rw [List.mem_singleton.mp hlast]
    exact (hread.paced k first hk).2
  · exact fun hdeaf => absurd hdeaf (by simp)

theorem Read.runTimer (hread : Read interval state)
    (hpaced : Paced interval state)
    (hstep : state.runTimer succeeds = some next) : Read interval next := by
  rcases runTimer_cases hstep with
    ⟨hplace, dest, hdest, rfl⟩ | ⟨hplace, rfl⟩ | ⟨current, hplace, rfl⟩ |
    ⟨current, hplace, rfl⟩
  · have hstart := deaf_of_mem hplace
    have hnot : dest ≠ .clockGettime := by
      rintro rfl
      exact absurd hdest (by decide)
    exact hread.of_same rfl (by simp [due, hstart.2, hnot]) (Nat.le_refl _)
      fun _ => hstart.1
  · exact hread.clockGettime hpaced hplace
  · exact hread.of_same rfl (by simp [due]) (Nat.le_refl _) (by simp)
  · exact hread.of_same rfl (by simp [due]) (Nat.le_refl _) (by simp)

theorem Read.deliver (hread : Read interval state)
    (hstep : state.deliver = some next) : Read interval next := by
  obtain ⟨hpending, ⟨hplace, rfl⟩ | ⟨hplace, rfl⟩⟩ := deliver_cases hstep
  · exact hread.of_same rfl (by simp [due]) (Nat.le_refl _)
      fun _ => (deaf_of_mem hplace).1
  · exact hread.of_same rfl (by simp [due, hpending]) (Nat.le_refl _) (by simp)

theorem Read.runDriver (hread : Read interval state)
    (hpaced : Paced interval state)
    (hstep : state.runDriver interval = some next) : Read interval next := by
  rcases runDriver_cases hpaced hstep with
    ⟨hplace, rfl⟩ | ⟨wake, hplace, hwake, rfl⟩ |
    ⟨hplace, pending, hpending, rfl⟩
  · exact hread.of_same rfl (Nat.le_refl _) (Nat.le_refl _) id
  · exact hread.of_same rfl (Nat.le_refl _) (Nat.le_refl _) id
  · refine hread.of_same rfl ?_ (Nat.le_refl _) id
    have hnew : pending.toNat ≤ state.pending.toNat + 1 := by
      rcases hpending with rfl | rfl
      · exact Nat.le_add_left _ _
      · exact Nat.le_succ _
    simp only [due]
    omega

theorem Read.step (hread : Read interval state) (hpaced : Paced interval state)
    (hstep : state.step interval action = some next) : Read interval next := by
  cases action with
  | tick =>
      cases hstep
      exact hread.of_same rfl (Nat.le_refl _) (Nat.le_succ _) id
  | fork succeeds =>
      rw [State.step, State.fork] at hstep
      split at hstep
      · rename_i hplace
        have hunborn := hpaced.unborn.mpr (by rw [hplace]; rfl)
        cases succeeds with
        | true =>
            cases hstep
            exact hread.of_same rfl (by simp [due, hunborn]) (Nat.le_refl _)
              fun _ => by rw [hunborn]; rfl
        | false =>
            cases hstep
            exact hread.of_same rfl (Nat.le_refl _) (Nat.le_refl _) id
      · cases hstep
  | driver => exact hread.runDriver hpaced hstep
  | timer succeeds => exact hread.runTimer hpaced hstep
  | deliver => exact hread.deliver hstep

/-- The handler holds a time that it has read. -/
@[simp] def TimerPlace.busy : TimerPlace → Bool
  | .report _ | .setLast _ => true
  | .unborn | .execlp | .sigaction | .paused | .clockGettime | .zombie _ => false

/-- What is printed and remembered of the given times. -/
structure Printed (state : State) (times : List Nat) : Prop where
  lines : state.printed = linesOf times
  first : state.firstCall = true ↔ times = []
  last : ∀ time, times.getLast? = some time →
    state.lastTime = Timespec.ofNanos time

/-- The handler prints a line for each time, and then remembers the time. -/
structure Output (state : State) : Prop where
  rest : state.timer.busy = false → Printed state state.readings
  report : ∀ current, state.timer = .report current → ∃ before time,
    state.readings = before ++ [time] ∧ current = Timespec.ofNanos time ∧
      Printed state before
  setLast : ∀ current, state.timer = .setLast current → ∃ before time,
    state.readings = before ++ [time] ∧ current = Timespec.ofNanos time ∧
      state.printed = linesOf state.readings ∧ state.firstCall = false

theorem Output.start : Output State.start :=
  ⟨fun _ => ⟨rfl, by simp [State.start], by simp [State.start]⟩,
    by simp [State.start], by simp [State.start]⟩

theorem Output.of_same (houtput : Output state)
    (hprinted : next.printed = state.printed)
    (hfirst : next.firstCall = state.firstCall)
    (hlast : next.lastTime = state.lastTime)
    (hreadings : next.readings = state.readings)
    (htimer : next.timer = state.timer ∨
      (state.timer.busy = false ∧ next.timer.busy = false)) :
    Output next := by
  have hsame : ∀ {times}, Printed state times → Printed next times := by
    rintro times ⟨hlines, hempty, htime⟩
    exact ⟨hprinted.trans hlines, by rw [hfirst, hempty],
      fun time hmem => hlast.trans (htime time hmem)⟩
  rcases htimer with htimer | ⟨hidle, hnext⟩
  · constructor
    · rw [htimer, hreadings]
      exact fun hidle => hsame (houtput.rest hidle)
    · rw [htimer, hreadings]
      intro current hplace
      obtain ⟨before, time, hsplit, hcurrent, hbefore⟩ :=
        houtput.report current hplace
      exact ⟨before, time, hsplit, hcurrent, hsame hbefore⟩
    · rw [htimer, hreadings, hprinted, hfirst]
      exact houtput.setLast
  · constructor
    · rw [hreadings]
      exact fun _ => hsame (houtput.rest hidle)
    · intro current hplace
      rw [hplace] at hnext
      cases hnext
    · intro current hplace
      rw [hplace] at hnext
      cases hnext

/-- The line that the handler prints is that of the time it has read. -/
theorem Printed.line {before : List Nat} {time : Nat}
    (hprinted : Printed state before) :
    (if state.firstCall then Line.started
      else .elapsed (timespecDiff (Timespec.ofNanos time) state.lastTime)) =
        nextLine before time := by
  rw [nextLine]
  cases hbefore : before.getLast? with
  | none =>
      rw [if_pos (hprinted.first.mpr (List.getLast?_eq_none_iff.mp hbefore))]
  | some previous =>
      have hfirst : ¬ state.firstCall = true := by
        rw [hprinted.first]
        rintro rfl
        cases hbefore
      rw [if_neg hfirst, hprinted.last previous hbefore, timespecDiff_ofNanos]

theorem Output.runTimer (houtput : Output state)
    (hstep : state.runTimer succeeds = some next) : Output next := by
  rcases runTimer_cases hstep with
    ⟨hplace, dest, hdest, rfl⟩ | ⟨hplace, rfl⟩ | ⟨current, hplace, rfl⟩ |
    ⟨current, hplace, rfl⟩
  · refine houtput.of_same rfl rfl rfl rfl (.inr ?_)
    simp only [List.mem_cons, List.not_mem_nil, or_false] at hplace hdest
    constructor
    · rcases hplace with hplace | hplace <;> simp [hplace]
    · rcases hdest with rfl | rfl | rfl | rfl <;> rfl
  · have hrest := houtput.rest (by rw [hplace]; rfl)
    refine ⟨by simp, ?_, by simp⟩
    intro current hcurrent
    cases hcurrent
    exact ⟨state.readings, state.clock, rfl, rfl,
      hrest.lines, hrest.first, hrest.last⟩
  · obtain ⟨before, time, hsplit, rfl, hbefore⟩ := houtput.report current hplace
    refine ⟨by simp, by simp, ?_⟩
    intro last hlast
    cases hlast
    refine ⟨before, time, hsplit, rfl, ?_, rfl⟩
    rw [hbefore.line, hbefore.lines, hsplit, linesOf_concat]
  · obtain ⟨before, time, hsplit, rfl, hlines, hfirst⟩ :=
      houtput.setLast current hplace
    refine ⟨fun _ => ⟨hlines, ?_, ?_⟩, by simp, by simp⟩
    · rw [hsplit]
      simp [hfirst]
    · rw [hsplit]
      intro last hlast
      rw [List.getLast?_concat, Option.some.injEq] at hlast
      rw [hlast]

theorem Output.step (houtput : Output state) (hpaced : Paced interval state)
    (hstep : state.step interval action = some next) : Output next := by
  cases action with
  | tick =>
      cases hstep
      exact houtput.of_same rfl rfl rfl rfl (.inl rfl)
  | fork succeeds =>
      rw [State.step, State.fork] at hstep
      split at hstep
      · rename_i hplace
        have hunborn := hpaced.unborn.mpr (by rw [hplace]; rfl)
        cases succeeds with
        | true =>
            cases hstep
            exact houtput.of_same rfl rfl rfl rfl
              (.inr ⟨by rw [hunborn]; rfl, rfl⟩)
        | false =>
            cases hstep
            exact houtput.of_same rfl rfl rfl rfl (.inl rfl)
      · cases hstep
  | driver =>
      rcases runDriver_cases hpaced hstep with
        ⟨-, rfl⟩ | ⟨wake, -, -, rfl⟩ | ⟨-, pending, -, rfl⟩ <;>
        exact houtput.of_same rfl rfl rfl rfl (.inl rfl)
  | timer succeeds => exact houtput.runTimer hstep
  | deliver =>
      obtain ⟨-, ⟨hplace, rfl⟩ | ⟨hplace, rfl⟩⟩ := deliver_cases hstep
      · refine houtput.of_same rfl rfl rfl rfl (.inr ⟨?_, rfl⟩)
        simp only [List.mem_cons, List.not_mem_nil, or_false] at hplace
        rcases hplace with hplace | hplace <;> simp [hplace]
      · exact houtput.of_same rfl rfl rfl rfl (.inr ⟨by rw [hplace]; rfl, rfl⟩)

end Invariants

section Runs

variable {intervalMs : Int} {state : State}

theorem invariant (intervalMs : Int) :
    Invariant (alarmDriver intervalMs) fun state =>
      Paced (useconds intervalMs) state ∧ Read (useconds intervalMs) state ∧
        Output state where
  start := ⟨Paced.start, Read.start, Output.start⟩
  step := fun ⟨hpaced, hread, houtput⟩ hstep =>
    ⟨hpaced.step hstep, hread.step hpaced hstep, houtput.step hpaced hstep⟩

/-- The times that are printed so far are those that the handler read, perhaps without the
last. -/
theorem Output.exists_times (houtput : Output state) :
    ∃ times, times <+: state.readings ∧ state.printed = linesOf times := by
  by_cases hbusy : state.timer.busy = false
  · exact ⟨state.readings, List.prefix_refl _, (houtput.rest hbusy).lines⟩
  · cases hplace : state.timer with
    | report current =>
        obtain ⟨before, time, hsplit, -, hprinted⟩ :=
          houtput.report current hplace
        exact ⟨before, ⟨[time], hsplit.symm⟩, hprinted.lines⟩
    | setLast current =>
        obtain ⟨-, -, -, -, hlines, -⟩ := houtput.setLast current hplace
        exact ⟨state.readings, List.prefix_refl _, hlines⟩
    | unborn | execlp | sigaction | paused | clockGettime | zombie ended =>
        rw [hplace] at hbusy
        exact absurd rfl hbusy

theorem sum_linesOf (times : List Nat) :
    ((linesOf times).map Line.seconds).sum =
      ((times.getLastD 0 : Nat) - (times.headD 0 : Nat) : ℚ) / 1000000000 := by
  cases times with
  | nil => simp [linesOf]
  | cons time times =>
      rw [linesOf, List.map_cons, List.sum_cons, Line.seconds, zero_add,
        sum_linesFrom, List.getLastD_cons, List.headD_cons]

/-- In every run the lines are about times that never decrease, of which the k-th is no
earlier than k intervals after the start, so that there are no more than signals; they add
up to the time from the first to the last of them.  The driver never leaves its loop, and
a timer that has printed a line never ends. -/
theorem printed_of_reachable
    (hreach : (alarmDriver intervalMs).Reachable state) :
    (∃ times : List Nat, state.printed = linesOf times ∧
      times.Pairwise (· ≤ ·) ∧ times.length ≤ state.kills ∧
      (∀ k time, times[k]? = some time →
        (k + 1) * (useconds intervalMs * 1000) ≤ time ∧ time ≤ state.clock) ∧
      (state.printed.map Line.seconds).sum =
        ((times.getLastD 0 : Nat) - (times.headD 0 : Nat) : ℚ) /
          1000000000) ∧
    state.driver ≠ .returned 0 ∧
    ∀ ended, state.timer = .zombie ended → state.printed = [] := by
  obtain ⟨hpaced, hread, houtput⟩ := (invariant intervalMs).reachable hreach
  obtain ⟨times, hprefix, hprinted⟩ := houtput.exists_times
  refine ⟨⟨times, hprinted, ?_, ?_, ?_, ?_⟩, ?_, ?_⟩
  · exact hread.sorted.sublist hprefix.sublist
  · exact hprefix.length_le.trans ((Nat.le_add_right _ _).trans hread.count)
  · intro k time htime
    obtain ⟨later, hlater⟩ := hprefix
    apply hread.paced k time
    rw [← hlater, List.getElem?_append_left
      (List.getElem?_eq_some_iff.mp htime).choose, htime]
  · rw [hprinted, sum_linesOf]
  · intro hreturned
    rcases hpaced.stays (by rw [hreturned]; rfl) with hplace | hplace
    · rw [hreturned] at hplace
      cases hplace
    · rw [hreturned] at hplace
      cases hplace
  · intro ended hended
    have hnil := hread.deaf (by rw [hended]; rfl)
    rw [hnil, List.prefix_nil] at hprefix
    rw [hprinted, hprefix]
    rfl

/-- An interval whose microseconds are a multiple of 2^32 is none: the first signal comes
at the time 0. -/
theorem printed_firstAlarm :
    ∃ state, (alarmDriver 4294967296).Reachable state ∧
      state.printed = [.started] ∧ state.driver ≠ .returned 0 := by
  have hreach : (alarmDriver 4294967296).Reachable
      ⟨0, .usleep, .setLast ⟨0, 0⟩, false, false, ⟨0, 0⟩, [.started], 1, [0]⟩ :=
    ⟨[.fork true, .timer true, .timer true, .driver, .driver, .driver, .deliver,
      .timer true, .timer true], rfl⟩
  exact ⟨_, hreach, rfl, (printed_of_reachable hreach).2.1⟩

end Runs

section Arguments

variable {argument digits rest : List Char} {intervalMs : Int}

/-- Blanks, perhaps a plus sign, and the digits of a number above zero; what is too large
for a `long` becomes the largest one. -/
def IsInterval (argument : List Char) (intervalMs : Int) : Prop :=
  ∃ blanks digits, (∀ char ∈ blanks, isSpace char = true) ∧
    (∀ char ∈ digits, char.isDigit = true) ∧
    (argument = blanks ++ digits ∨ argument = blanks ++ '+' :: digits) ∧
    0 < leadingDigits digits ∧
    intervalMs = min (leadingDigits digits : Int) (2 ^ 63 - 1)

theorem splitSign_cases {text : List Char} {sign : Int}
    (hsign : splitSign text = (sign, rest)) :
    (sign = -1 ∧ text = '-' :: rest) ∨
      (sign = 1 ∧ (text = rest ∨ text = '+' :: rest)) := by
  unfold splitSign at hsign
  split at hsign <;> cases hsign
  · exact .inl ⟨rfl, rfl⟩
  · exact .inr ⟨rfl, .inr rfl⟩
  · exact .inr ⟨rfl, .inl rfl⟩

theorem splitSign_digits (hdigits : ∀ char ∈ digits, char.isDigit = true) :
    splitSign digits = (1, digits) := by
  unfold splitSign
  split
  · exact absurd (hdigits _ List.mem_cons_self) (by decide)
  · exact absurd (hdigits _ List.mem_cons_self) (by decide)
  · rfl

theorem saturate_pos_iff {value : Int} :
    0 < saturate value ↔ 0 < value := by
  unfold saturate
  omega

theorem saturate_of_pos {value : Int} (hpos : 0 < value) :
    saturate value = min value (2 ^ 63 - 1) := by
  unfold saturate
  omega

/-- An argument is taken if there are only digits behind its sign, of a number above
zero. -/
theorem parseInterval_of_splitSign {sign : Int}
    (hsign : splitSign (argument.dropWhile isSpace) = (sign, rest)) :
    parseInterval argument = some intervalMs ↔
      (∀ char ∈ rest, char.isDigit = true) ∧
        0 < saturate (sign * leadingDigits rest) ∧
        intervalMs = saturate (sign * leadingDigits rest) := by
  simp only [parseInterval, strtol, hsign]
  by_cases hdigits : rest.takeWhile Char.isDigit = []
  · have hzero : leadingDigits rest = 0 := by
      rw [leadingDigits, hdigits]
      rfl
    simp [hdigits, hzero, saturate]
  · have hargument : argument ≠ [] := by
      rintro rfl
      cases hsign
      exact hdigits rfl
    simp only [if_neg hdigits, hargument, false_or, Option.ite_none_left_eq_some,
      not_or, not_not, List.dropWhile_eq_nil_iff, Int.not_le, Option.some.injEq,
      and_assoc]
    exact and_congr_right fun _ => and_congr_right fun _ => eq_comm

theorem parseInterval_eq_some_iff :
    parseInterval argument = some intervalMs ↔
      IsInterval argument intervalMs := by
  constructor
  · intro hparse
    rcases hsign : splitSign (argument.dropWhile isSpace) with ⟨sign, rest⟩
    obtain ⟨hdigits, hpos, hvalue⟩ := (parseInterval_of_splitSign hsign).mp hparse
    rw [saturate_pos_iff] at hpos
    have hblanks : ∀ char ∈ argument.takeWhile isSpace, isSpace char = true :=
      fun _ => List.mem_takeWhile_imp
    have hsplit := @List.takeWhile_append_dropWhile _ isSpace argument
    rcases splitSign_cases hsign with ⟨rfl, -⟩ | ⟨rfl, hbody⟩
    · omega
    · rw [one_mul] at hpos hvalue
      refine ⟨argument.takeWhile isSpace, rest, hblanks, hdigits, ?_,
        by omega, ?_⟩
      · rcases hbody with hbody | hbody
        · rw [hbody] at hsplit
          exact .inl hsplit.symm
        · rw [hbody] at hsplit
          exact .inr hsplit.symm
      · rw [hvalue, saturate_of_pos hpos]
  · rintro ⟨blanks, digits, hblanks, hdigits, hargument, hpos, rfl⟩
    have hsign : splitSign (argument.dropWhile isSpace) = (1, digits) := by
      rcases hargument with rfl | rfl
      · rw [List.dropWhile_append_of_pos hblanks]
        cases digits with
        | nil => rfl
        | cons char digits =>
            have hspace := isSpace_of_isDigit (hdigits char List.mem_cons_self)
            rw [List.dropWhile_cons_of_neg (by simp [hspace]),
              splitSign_digits hdigits]
      · rw [List.dropWhile_append_of_pos hblanks]
        rfl
    have hvalue : 0 < (leadingDigits digits : Int) := by omega
    rw [parseInterval_of_splitSign hsign, one_mul, saturate_pos_iff]
    exact ⟨hdigits, hvalue, (saturate_of_pos hvalue).symm⟩

theorem useconds_eq_iff (hpos : 0 < intervalMs) :
    (useconds intervalMs : Int) = intervalMs * 1000 ↔ intervalMs ≤ 4294967 := by
  rw [useconds, Int.toNat_of_nonneg (Int.emod_nonneg _ (by decide))]
  omega

/-- The arguments that the driver takes, and up to which interval it waits as long as it
was asked. -/
theorem parseInterval_spec (argument : List Char) (intervalMs : Int) :
    (parseInterval argument = some intervalMs ↔
      IsInterval argument intervalMs) ∧
    (IsInterval argument intervalMs →
      ((useconds intervalMs : Int) = intervalMs * 1000 ↔
        intervalMs ≤ 4294967)) := by
  refine ⟨parseInterval_eq_some_iff, ?_⟩
  rintro ⟨blanks, digits, -, -, -, hpos, rfl⟩
  exact useconds_eq_iff (by omega)

end Arguments

end AlarmDriver

end OsCourse
