/-
The radio and ground control processes of the airport project, and their
composition with an air control program over POSIX standard signals.  All three
processes are registered in the shared pid table and have installed their
handlers; every counter starts at 0.
-/
import OsCourse.TransitionSystem
import OsCourse.Processes

namespace OsCourse

namespace Airport

open TransitionSystem StandardSignals

inductive Signal where
  | sigusr1
  | sigusr2
  | sigterm
  | sigalrm
deriving Repr, DecidableEq

/-- The three slots of the shared pid table. -/
inductive Slot where
  | airControl
  | radio
  | groundControl
deriving Repr, DecidableEq

/-- One call `kill(shared_memory[target], signal)`. -/
structure Kill where
  target : Slot
  signal : Signal
deriving Repr, DecidableEq

inductive RadioLine where
  | takeoffClearance (takeoffs : Int)
  | planes (planes : Int)
  | runwayOverloaded
  | endOfOperations (takeoffs planes : Int)
deriving Repr, DecidableEq

/-- The statement that a running handler of the radio comes to next. -/
inductive RadioFrame where
  -- `SigHandler1`
  | addTakeoffs
  | printClearance
  | killGroundControl
  -- `SigHandler2`
  | addPlanes
  | printPlanes
  | killAirControl
  | overloadTest
  -- `SigTerm`
  | printReport
  | killGroundTerm
  | exitCall
deriving Repr, DecidableEq

namespace RadioFrame

def signal : RadioFrame → Signal
  | .addTakeoffs | .printClearance | .killGroundControl => .sigusr1
  | .addPlanes | .printPlanes | .killAirControl | .overloadTest => .sigusr2
  | .printReport | .killGroundTerm | .exitCall => .sigterm

/-- `SigHandler1` has started and still has to count its takeoffs. -/
def countsTakeoffs : RadioFrame → Bool
  | .addTakeoffs => true
  | _ => false

/-- `SigHandler1` has counted its takeoffs and still has to relay the signal. -/
def relaysTakeoffs : RadioFrame → Bool
  | .printClearance | .killGroundControl => true
  | _ => false

/-- `SigHandler2` has started and still has to count its planes. -/
def countsPlanes : RadioFrame → Bool
  | .addPlanes => true
  | _ => false

/-- `SigHandler2` has counted its planes and still has to relay the signal. -/
def relaysPlanes : RadioFrame → Bool
  | .printPlanes | .killAirControl => true
  | _ => false

end RadioFrame

/-- The radio process; the innermost running handler comes first. -/
structure Radio where
  planes : Int
  takeoffs : Int
  frames : List RadioFrame
  printed : List RadioLine
  exited : Bool
deriving Repr, DecidableEq

namespace Radio

def start : Radio := ⟨0, 0, [], [], false⟩

/-- A signal stays blocked while its own handler runs. -/
def blocks (radio : Radio) (signal : Signal) : Bool :=
  radio.frames.any fun frame => decide (frame.signal = signal)

/-- A signal starts its handler on top of whatever is running. -/
def deliver (radio : Radio) (signal : Signal) : Option Radio :=
  if radio.exited || radio.blocks signal then none
  else match signal with
    | .sigusr1 => some { radio with frames := .addTakeoffs :: radio.frames }
    | .sigusr2 => some { radio with frames := .addPlanes :: radio.frames }
    | .sigterm => some { radio with frames := .printReport :: radio.frames }
    -- no handler is installed: the default action ends the process
    | .sigalrm => some { radio with exited := true }

/-- The next statement of the innermost handler; `outer` are the handlers below
it. -/
def statement (radio : Radio) (outer : List RadioFrame) :
    RadioFrame → Radio × List Kill
  | .addTakeoffs => ({ radio with
      takeoffs := radio.takeoffs + 5
      frames := .printClearance :: outer }, [])
  | .printClearance => ({ radio with
      printed := radio.printed ++ [.takeoffClearance radio.takeoffs]
      frames := .killGroundControl :: outer }, [])
  | .killGroundControl =>
      ({ radio with frames := outer }, [⟨.groundControl, .sigusr1⟩])
  | .addPlanes => ({ radio with
      planes := radio.planes + 5
      frames := .printPlanes :: outer }, [])
  | .printPlanes => ({ radio with
      printed := radio.printed ++ [.planes radio.planes]
      frames := .killAirControl :: outer }, [])
  | .killAirControl =>
      ({ radio with frames := .overloadTest :: outer },
        [⟨.airControl, .sigusr2⟩])
  | .overloadTest => ({ radio with
      printed :=
        if radio.planes - radio.takeoffs ≥ 10 ∧ radio.planes < 50 then
          radio.printed ++ [.runwayOverloaded]
        else radio.printed
      frames := outer }, [])
  | .printReport => ({ radio with
      printed := radio.printed ++
        [.endOfOperations radio.takeoffs radio.planes]
      frames := .killGroundTerm :: outer }, [])
  | .killGroundTerm =>
      ({ radio with frames := .exitCall :: outer },
        [⟨.groundControl, .sigterm⟩])
  | .exitCall => ({ radio with frames := outer, exited := true }, [])

/-- The innermost handler makes its next statement. -/
def resume (radio : Radio) : Option (Radio × List Kill) :=
  if radio.exited then none
  else match radio.frames with
    | [] => none
    | frame :: outer => some (radio.statement outer frame)

/-- How many running handlers are at certain statements. -/
def running (radio : Radio) (stage : RadioFrame → Bool) : Int :=
  radio.frames.countP stage

/-- `main` leaves its `pause` loop once `takeoffs` exceeds 100. -/
def mainReturn (radio : Radio) : Option Radio :=
  if radio.exited = false ∧ radio.frames = [] ∧ 100 < radio.takeoffs then
    some { radio with exited := true }
  else none

end Radio

def planesLimit : Int := 20

/-- The statement that a running handler of ground control comes to next. -/
inductive GroundFrame where
  -- `SigHandler1`
  | addTakeoffs
  -- `Traffic`
  | setTraffic
  | limitTest
  | addPlanes
  | killRadio
  -- `SigHandlerTerm`
  | unmapMemory
  | exitCall
deriving Repr, DecidableEq

def GroundFrame.signal : GroundFrame → Signal
  | .addTakeoffs => .sigusr1
  | .setTraffic | .limitTest | .addPlanes | .killRadio => .sigalrm
  | .unmapMemory | .exitCall => .sigterm

/-- Ground control; the innermost running handler comes first. -/
structure GroundControl where
  planes : Int
  takeoffs : Int
  traffic : Int
  frames : List GroundFrame
  exited : Bool
deriving Repr, DecidableEq

namespace GroundControl

def start : GroundControl := ⟨0, 0, 0, [], false⟩

def blocks (ground : GroundControl) (signal : Signal) : Bool :=
  ground.frames.any fun frame => decide (frame.signal = signal)

def deliver (ground : GroundControl) (signal : Signal) :
    Option GroundControl :=
  if ground.exited || ground.blocks signal then none
  else match signal with
    | .sigusr1 => some { ground with frames := .addTakeoffs :: ground.frames }
    | .sigterm => some { ground with frames := .unmapMemory :: ground.frames }
    | .sigalrm => some { ground with frames := .setTraffic :: ground.frames }
    -- no handler is installed: the default action ends the process
    | .sigusr2 => some { ground with exited := true }

/-- The next statement of the innermost handler; `outer` are the handlers below
it.  A `Traffic` on top of a `SigHandlerTerm` that has unmapped the pid table
dies of reading it. -/
def statement (ground : GroundControl) (outer : List GroundFrame) :
    GroundFrame → GroundControl × List Kill
  | .addTakeoffs => ({ ground with
      takeoffs := ground.takeoffs + 5
      frames := outer }, [])
  | .setTraffic => ({ ground with
      traffic := ground.planes - ground.takeoffs
      frames := .limitTest :: outer }, [])
  | .limitTest =>
      if ground.planes < planesLimit then
        ({ ground with frames := .addPlanes :: outer }, [])
      else ({ ground with frames := outer }, [])
  | .addPlanes => ({ ground with
      planes := ground.planes + 5
      frames := .killRadio :: outer }, [])
  | .killRadio =>
      if .exitCall ∈ outer then ({ ground with exited := true }, [])
      else ({ ground with frames := outer }, [⟨.radio, .sigusr2⟩])
  | .unmapMemory => ({ ground with frames := .exitCall :: outer }, [])
  | .exitCall => ({ ground with frames := outer, exited := true }, [])

/-- The innermost handler makes its next statement. -/
def resume (ground : GroundControl) : Option (GroundControl × List Kill) :=
  if ground.exited then none
  else match ground.frames with
    | [] => none
    | frame :: outer => some (ground.statement outer frame)

/-- The next statement is the `kill` of a `Traffic` that can read the pid table. -/
def notifies (ground : GroundControl) : Bool :=
  match ground.frames with
  | .killRadio :: outer => decide (.exitCall ∉ outer)
  | _ => false

/-- How many running handlers are at a certain statement. -/
def running (ground : GroundControl) (frame : GroundFrame) : Int :=
  ground.frames.count frame

/-- At most one `Traffic` is running. -/
def OneTraffic (ground : GroundControl) : Prop :=
  ground.running .setTraffic + ground.running .limitTest +
    ground.running .addPlanes + ground.running .killRadio ≤ 1

end GroundControl

/-- An air control program: its steps with the signals they send, and which of
them start the SIGUSR2 handler. -/
structure AirProgram (Air AirAction : Type) where
  start : Air
  step : Air → AirAction → Option (Air × List Kill)
  handles : AirAction → Bool

/-- The program alone, in an environment that may send SIGUSR2 at any time. -/
def AirProgram.alone {Air AirAction : Type} (program : AirProgram Air AirAction) :
    System Air AirAction where
  start := program.start
  step air action := (program.step air action).map Prod.fst

structure State (Air : Type) where
  air : Air
  radio : Radio
  ground : GroundControl
  airPending : Pending Signal
  radioPending : Pending Signal
  groundPending : Pending Signal

inductive Action (AirAction : Type) where
  | air (action : AirAction)
  | radioDeliver (signal : Signal)
  | radioResume
  | radioReturn
  | timer
  | groundDeliver (signal : Signal)
  | groundResume
deriving Repr, DecidableEq

section Composition

variable {Air AirAction : Type}

def State.pending (state : State Air) : Slot → Pending Signal
  | .airControl => state.airPending
  | .radio => state.radioPending
  | .groundControl => state.groundPending

/-- A signal to a process that has exited stays pending for ever. -/
def State.kill (state : State Air) (kill : Kill) : State Air :=
  match kill.target with
  | .airControl =>
      { state with airPending := state.airPending.raise kill.signal }
  | .radio =>
      { state with radioPending := state.radioPending.raise kill.signal }
  | .groundControl =>
      { state with groundPending := state.groundPending.raise kill.signal }

def State.post (state : State Air) (kills : List Kill) : State Air :=
  kills.foldl State.kill state

/-- Air control takes the pending SIGUSR2 when its handler starts. -/
def State.takeSigusr2 (state : State Air) (handles : Bool) : State Air :=
  if handles then { state with airPending := state.airPending.clear .sigusr2 }
  else state

def step (program : AirProgram Air AirAction) (state : State Air) :
    Action AirAction → Option (State Air)
  | .air action =>
      if program.handles action && !state.airPending .sigusr2 then none
      else (program.step state.air action).map fun (air, kills) =>
        ({ state.takeSigusr2 (program.handles action) with air := air }).post
          kills
  | .radioDeliver signal =>
      if state.radioPending signal then
        (state.radio.deliver signal).map fun radio =>
          { state with
            radio := radio
            radioPending := state.radioPending.clear signal }
      else none
  | .radioResume =>
      state.radio.resume.map fun (radio, kills) =>
        ({ state with radio := radio }).post kills
  | .radioReturn =>
      state.radio.mainReturn.map fun radio => { state with radio := radio }
  | .timer =>
      some { state with groundPending := state.groundPending.raise .sigalrm }
  | .groundDeliver signal =>
      if state.groundPending signal then
        (state.ground.deliver signal).map fun ground =>
          { state with
            ground := ground
            groundPending := state.groundPending.clear signal }
      else none
  | .groundResume =>
      state.ground.resume.map fun (ground, kills) =>
        ({ state with ground := ground }).post kills

/-- The signals that air control sends in a step. -/
def airSends (program : AirProgram Air AirAction) (state : State Air) :
    Action AirAction → List Kill
  | .air action => (program.step state.air action).elim [] Prod.snd
  | _ => []

def airport (program : AirProgram Air AirAction) :
    System (State Air) (Action AirAction) where
  start :=
    ⟨program.start, Radio.start, GroundControl.start, Pending.none,
      Pending.none, Pending.none⟩
  step := step program

@[simp] theorem State.post_nil (state : State Air) : state.post [] = state :=
  rfl

@[simp] theorem State.post_cons (state : State Air) (kill : Kill)
    (kills : List Kill) :
    state.post (kill :: kills) = (state.kill kill).post kills := rfl

@[simp] theorem State.kill_airControl (state : State Air) (signal : Signal) :
    state.kill ⟨.airControl, signal⟩ =
      { state with airPending := state.airPending.raise signal } := rfl

@[simp] theorem State.kill_radio (state : State Air) (signal : Signal) :
    state.kill ⟨.radio, signal⟩ =
      { state with radioPending := state.radioPending.raise signal } := rfl

@[simp] theorem State.kill_groundControl (state : State Air)
    (signal : Signal) :
    state.kill ⟨.groundControl, signal⟩ =
      { state with groundPending := state.groundPending.raise signal } := rfl

section Posting

variable (state : State Air) (kills : List Kill)

theorem State.kill_frame (kill : Kill) :
    (state.kill kill).air = state.air ∧
      (state.kill kill).radio = state.radio ∧
      (state.kill kill).ground = state.ground := by
  unfold State.kill
  split <;> exact ⟨rfl, rfl, rfl⟩

theorem State.kill_pending (kill : Kill) (slot : Slot) (signal : Signal) :
    (state.kill kill).pending slot signal =
      (state.pending slot signal || decide (kill = ⟨slot, signal⟩)) := by
  rcases kill with ⟨target, sent⟩
  by_cases hsignal : sent = signal
  · subst sent
    cases target <;> cases slot <;> simp [State.kill, State.pending]
  · cases target <;> cases slot <;>
      simp [State.kill, State.pending, hsignal,
        Pending.raise_of_ne (Ne.symm hsignal)]

theorem State.post_frame :
    (state.post kills).air = state.air ∧
      (state.post kills).radio = state.radio ∧
      (state.post kills).ground = state.ground := by
  induction kills generalizing state with
  | nil => exact ⟨rfl, rfl, rfl⟩
  | cons kill rest ih =>
      obtain ⟨hair, hradio, hground⟩ := ih (state.kill kill)
      obtain ⟨hair', hradio', hground'⟩ := state.kill_frame kill
      rw [State.post_cons]
      exact ⟨hair.trans hair', hradio.trans hradio', hground.trans hground'⟩

/-- Posting signals makes exactly the posted ones pending. -/
theorem State.post_pending (slot : Slot) (signal : Signal) :
    (state.post kills).pending slot signal =
      (state.pending slot signal || decide (⟨slot, signal⟩ ∈ kills)) := by
  induction kills generalizing state with
  | nil => simp
  | cons kill rest ih =>
      rw [State.post_cons, ih, State.kill_pending, Bool.or_assoc]
      simp only [List.mem_cons, Bool.decide_or, eq_comm]

/-- No more deliveries become due than signals are posted. -/
theorem State.post_due_le (slot : Slot) (signal : Signal) :
    ((state.post kills).pending slot).due signal ≤
      (state.pending slot).due signal + kills.count ⟨slot, signal⟩ := by
  unfold Pending.due
  rw [State.post_pending]
  by_cases hmem : ⟨slot, signal⟩ ∈ kills
  · have hcount := List.count_pos_iff.mpr hmem
    simp only [hmem, decide_true, Bool.or_true, ↓reduceIte]
    split <;> omega
  · simp [hmem]

end Posting

theorem Radio.running_nonneg (radio : Radio) (stage : RadioFrame → Bool) :
    0 ≤ radio.running stage :=
  Int.natCast_nonneg _

theorem Radio.running_cons {radio : Radio} {frame : RadioFrame}
    {outer : List RadioFrame} (hframes : radio.frames = frame :: outer)
    (stage : RadioFrame → Bool) :
    radio.running stage = outer.countP stage + (stage frame).toNat := by
  rw [Radio.running, hframes, List.countP_cons]
  cases stage frame <;> simp

/-- What delivering a signal does to the radio. -/
theorem Radio.deliver_cases {radio next : Radio} {signal : Signal}
    (hdeliver : radio.deliver signal = some next) :
    (∃ frame, frame.signal = signal ∧
        frame ∈ [.addTakeoffs, .addPlanes, .printReport] ∧
        next = { radio with frames := frame :: radio.frames }) ∨
      (signal = .sigalrm ∧ next = { radio with exited := true }) := by
  unfold Radio.deliver at hdeliver
  split at hdeliver
  · contradiction
  · cases signal with
    | sigalrm => exact .inr ⟨rfl, (Option.some.inj hdeliver).symm⟩
    | sigusr1 =>
        exact .inl ⟨.addTakeoffs, rfl, by decide,
          (Option.some.inj hdeliver).symm⟩
    | sigusr2 =>
        exact .inl ⟨.addPlanes, rfl, by decide,
          (Option.some.inj hdeliver).symm⟩
    | sigterm =>
        exact .inl ⟨.printReport, rfl, by decide,
          (Option.some.inj hdeliver).symm⟩

/-- A delivered signal is one that the radio has started to count. -/
structure Radio.Delivered (radio : Radio) (signal : Signal) (next : Radio) :
    Prop where
  planes : next.planes = radio.planes
  takeoffs : next.takeoffs = radio.takeoffs
  printed : next.printed = radio.printed
  countsPlanes : next.running RadioFrame.countsPlanes =
    radio.running RadioFrame.countsPlanes +
      (decide (signal = .sigusr2)).toNat
  countsTakeoffs : next.running RadioFrame.countsTakeoffs =
    radio.running RadioFrame.countsTakeoffs +
      (decide (signal = .sigusr1)).toNat
  relaysPlanes : next.running RadioFrame.relaysPlanes =
    radio.running RadioFrame.relaysPlanes
  relaysTakeoffs : next.running RadioFrame.relaysTakeoffs =
    radio.running RadioFrame.relaysTakeoffs
  closing : next.blocks .sigterm = true →
    radio.blocks .sigterm = true ∨ signal = .sigterm

theorem Radio.deliver_delivered {radio next : Radio} {signal : Signal}
    (hdeliver : radio.deliver signal = some next) :
    Radio.Delivered radio signal next := by
  rcases Radio.deliver_cases hdeliver with
    ⟨frame, rfl, hmem, rfl⟩ | ⟨rfl, rfl⟩
  · have hrunning := @Radio.running_cons
      { radio with frames := frame :: radio.frames } frame radio.frames rfl
    simp only [List.mem_cons, List.not_mem_nil, or_false] at hmem
    rcases hmem with rfl | rfl | rfl
    all_goals
      refine ⟨rfl, rfl, rfl, hrunning _, hrunning _, ?_, ?_, ?_⟩
      · exact (hrunning _).trans (Int.add_zero _)
      · exact (hrunning _).trans (Int.add_zero _)
      · simp [Radio.blocks, RadioFrame.signal]
  · exact ⟨rfl, rfl, rfl, (Int.add_zero _).symm, (Int.add_zero _).symm, rfl,
      rfl, .inl⟩

theorem Radio.resume_eq_some {radio next : Radio} {kills : List Kill}
    (hresume : radio.resume = some (next, kills)) :
    ∃ frame outer, radio.frames = frame :: outer ∧
      radio.statement outer frame = (next, kills) := by
  unfold Radio.resume at hresume
  split at hresume
  · contradiction
  · split at hresume
    · contradiction
    · rename_i frame outer hframes
      exact ⟨frame, outer, hframes, Option.some.inj hresume⟩

/-- A statement of the radio keeps its books: what was started is counted, and what
was counted is relayed. -/
structure Radio.KeepsBooks (radio next : Radio) (kills : List Kill) :
    Prop where
  planes : next.planes + 5 * next.running RadioFrame.countsPlanes =
    radio.planes + 5 * radio.running RadioFrame.countsPlanes
  takeoffs : next.takeoffs + 5 * next.running RadioFrame.countsTakeoffs =
    radio.takeoffs + 5 * radio.running RadioFrame.countsTakeoffs
  relaysPlanes : 5 * next.running RadioFrame.relaysPlanes +
      5 * kills.count ⟨.airControl, .sigusr2⟩ - next.planes =
    5 * radio.running RadioFrame.relaysPlanes - radio.planes
  relaysTakeoffs : 5 * next.running RadioFrame.relaysTakeoffs +
      5 * kills.count ⟨.groundControl, .sigusr1⟩ - next.takeoffs =
    5 * radio.running RadioFrame.relaysTakeoffs - radio.takeoffs
  closing : next.blocks .sigterm = true → radio.blocks .sigterm = true
  silent : ∀ signal, ⟨.radio, signal⟩ ∉ kills

theorem Radio.resume_keepsBooks {radio next : Radio} {kills : List Kill}
    (hresume : radio.resume = some (next, kills)) :
    Radio.KeepsBooks radio next kills := by
  obtain ⟨frame, outer, hframes, hstatement⟩ := Radio.resume_eq_some hresume
  rcases radio with ⟨planes, takeoffs, frames, printed, exited⟩
  obtain rfl : frames = frame :: outer := hframes
  cases frame
  all_goals
    obtain ⟨rfl, rfl⟩ := Prod.mk.inj hstatement
    constructor
    all_goals
      simp [Radio.running, Radio.blocks, List.countP_cons,
        RadioFrame.countsPlanes, RadioFrame.countsTakeoffs,
        RadioFrame.relaysPlanes, RadioFrame.relaysTakeoffs, RadioFrame.signal]
    all_goals omega

theorem Radio.mainReturn_cases {radio next : Radio}
    (hreturn : radio.mainReturn = some next) :
    100 < radio.takeoffs ∧ next = { radio with exited := true } := by
  unfold Radio.mainReturn at hreturn
  split at hreturn
  · rename_i hguard
    exact ⟨hguard.2.2, (Option.some.inj hreturn).symm⟩
  · contradiction

theorem GroundControl.running_nonneg (ground : GroundControl)
    (frame : GroundFrame) : 0 ≤ ground.running frame :=
  Int.natCast_nonneg _

/-- What delivering a signal does to ground control: a handler starts that was not
running, or the process ends. -/
theorem GroundControl.deliver_cases {ground next : GroundControl}
    {signal : Signal} (hdeliver : ground.deliver signal = some next) :
    (∃ frame, frame.signal = signal ∧
        frame ∈ [.addTakeoffs, .setTraffic, .unmapMemory] ∧
        (∀ running ∈ ground.frames, running.signal ≠ signal) ∧
        next = { ground with frames := frame :: ground.frames }) ∨
      (signal = .sigusr2 ∧ next = { ground with exited := true }) := by
  unfold GroundControl.deliver at hdeliver
  split at hdeliver
  · contradiction
  · rename_i hguard
    have hfree : ∀ running ∈ ground.frames, running.signal ≠ signal := by
      intro running hmem heq
      refine hguard (Bool.or_eq_true_iff.mpr (.inr ?_))
      exact List.any_eq_true.mpr ⟨running, hmem, decide_eq_true heq⟩
    cases signal with
    | sigusr2 => exact .inr ⟨rfl, (Option.some.inj hdeliver).symm⟩
    | sigusr1 =>
        exact .inl ⟨.addTakeoffs, rfl, by decide, hfree,
          (Option.some.inj hdeliver).symm⟩
    | sigterm =>
        exact .inl ⟨.unmapMemory, rfl, by decide, hfree,
          (Option.some.inj hdeliver).symm⟩
    | sigalrm =>
        exact .inl ⟨.setTraffic, rfl, by decide, hfree,
          (Option.some.inj hdeliver).symm⟩

theorem GroundControl.resume_eq_some {ground next : GroundControl}
    {kills : List Kill} (hresume : ground.resume = some (next, kills)) :
    ∃ frame outer, ground.frames = frame :: outer ∧
      ground.statement outer frame = (next, kills) := by
  unfold GroundControl.resume at hresume
  split at hresume
  · contradiction
  · split at hresume
    · contradiction
    · rename_i frame outer hframes
      exact ⟨frame, outer, hframes, Option.some.inj hresume⟩

/-- A delivered signal is one that ground control has started to count. -/
structure GroundControl.Delivered (ground : GroundControl) (signal : Signal)
    (next : GroundControl) : Prop where
  planes : next.planes = ground.planes
  takeoffs : next.takeoffs = ground.takeoffs
  addTakeoffs : next.running .addTakeoffs =
    ground.running .addTakeoffs + (decide (signal = .sigusr1)).toNat
  addPlanes : next.running .addPlanes = ground.running .addPlanes
  killRadio : next.running .killRadio = ground.running .killRadio
  traffic : ground.OneTraffic → next.OneTraffic

theorem GroundControl.deliver_delivered {ground next : GroundControl}
    {signal : Signal} (hdeliver : ground.deliver signal = some next) :
    GroundControl.Delivered ground signal next := by
  rcases GroundControl.deliver_cases hdeliver with
    ⟨frame, rfl, hmem, hfree, rfl⟩ | ⟨rfl, rfl⟩
  · simp only [List.mem_cons, List.not_mem_nil, or_false] at hmem
    rcases hmem with rfl | rfl | rfl
    · constructor <;> simp [GroundControl.running, GroundControl.OneTraffic,
        GroundFrame.signal]
    · -- `Traffic` starts when none is running
      have hnone : ∀ frame : GroundFrame, frame.signal = .sigalrm →
          ground.frames.count frame = 0 := fun frame hframe =>
        List.count_eq_zero.mpr fun hrunning => hfree frame hrunning hframe
      have hset := hnone .setTraffic rfl
      have htest := hnone .limitTest rfl
      have hadd := hnone .addPlanes rfl
      have hkill := hnone .killRadio rfl
      constructor <;> simp [GroundControl.running, GroundControl.OneTraffic,
        GroundFrame.signal, hset, htest, hadd, hkill]
    · constructor <;> simp [GroundControl.running, GroundControl.OneTraffic,
        GroundFrame.signal]
  · exact ⟨rfl, rfl, (Int.add_zero _).symm, rfl, rfl, id⟩

/-- A statement of ground control keeps its books, and it adds planes only up to
the limit. -/
structure GroundControl.KeepsBooks (ground next : GroundControl)
    (kills : List Kill) : Prop where
  takeoffs : next.takeoffs + 5 * next.running .addTakeoffs =
    ground.takeoffs + 5 * ground.running .addTakeoffs
  killRadio : 5 * next.running .killRadio +
      5 * kills.count ⟨.radio, .sigusr2⟩ - next.planes =
    5 * ground.running .killRadio - ground.planes
  batches : next.planes % 5 = ground.planes % 5
  traffic : ground.OneTraffic → next.OneTraffic
  limit : ground.OneTraffic → ground.planes % 5 = 0 →
    ground.planes + 5 * ground.running .addPlanes ≤ planesLimit →
      next.planes + 5 * next.running .addPlanes ≤ planesLimit
  kills : kills = [] ∨ kills = [⟨.radio, .sigusr2⟩]

theorem GroundControl.resume_keepsBooks {ground next : GroundControl}
    {kills : List Kill} (hresume : ground.resume = some (next, kills)) :
    GroundControl.KeepsBooks ground next kills := by
  obtain ⟨frame, outer, hframes, hstatement⟩ :=
    GroundControl.resume_eq_some hresume
  rcases ground with ⟨planes, takeoffs, traffic, frames, exited⟩
  obtain rfl : frames = frame :: outer := hframes
  cases frame with
  | limitTest =>
      simp only [GroundControl.statement] at hstatement
      split at hstatement
      all_goals
        rename_i hplanes
        rw [planesLimit] at hplanes
        obtain ⟨rfl, rfl⟩ := Prod.mk.inj hstatement
        constructor
        -- 20 is a multiple of 5, so five more planes still fit
        all_goals
          simp [GroundControl.running, GroundControl.OneTraffic, planesLimit]
        all_goals omega
  | killRadio =>
      simp only [GroundControl.statement] at hstatement
      split at hstatement
      all_goals
        obtain ⟨rfl, rfl⟩ := Prod.mk.inj hstatement
        constructor
        all_goals
          simp [GroundControl.running, GroundControl.OneTraffic]
        all_goals omega
  | addTakeoffs | setTraffic | addPlanes | unmapMemory | exitCall =>
      obtain ⟨rfl, rfl⟩ := Prod.mk.inj hstatement
      constructor
      all_goals
        simp [GroundControl.running, GroundControl.OneTraffic, planesLimit]
      all_goals omega

theorem GroundControl.resume_kills {ground next : GroundControl}
    {kills : List Kill} (hresume : ground.resume = some (next, kills)) :
    ground.frames ≠ [] ∧
      kills = if ground.notifies then [⟨.radio, .sigusr2⟩] else [] := by
  obtain ⟨frame, outer, hframes, hstatement⟩ :=
    GroundControl.resume_eq_some hresume
  refine ⟨by rw [hframes]; exact List.cons_ne_nil _ _, ?_⟩
  rw [GroundControl.notifies, hframes]
  cases frame with
  | limitTest | killRadio =>
      simp only [GroundControl.statement] at hstatement
      split at hstatement
      all_goals
        rename_i hguard
        obtain ⟨_, rfl⟩ := Prod.mk.inj hstatement
        simp [hguard]
  | addTakeoffs | setTraffic | addPlanes | unmapMemory | exitCall =>
      obtain ⟨_, rfl⟩ := Prod.mk.inj hstatement
      rfl

section Steps

variable {program : AirProgram Air AirAction} {state next : State Air}

theorem step_air {action : AirAction}
    (hstep : step program state (.air action) = some next) :
    (program.handles action = true → state.airPending .sigusr2 = true) ∧
      ∃ air kills, program.step state.air action = some (air, kills) ∧
        airSends program state (.air action) = kills ∧
        next = ({ state.takeSigusr2 (program.handles action) with
          air := air }).post kills := by
  simp only [step, Option.ite_none_left_eq_some, Option.map_eq_some_iff] at hstep
  rcases hstep with ⟨hguard, ⟨air, kills⟩, hair, rfl⟩
  refine ⟨fun hhandles => ?_, air, kills, hair, ?_, rfl⟩
  · simpa [hhandles] using hguard
  · simp [airSends, hair]

theorem step_radioDeliver {signal : Signal}
    (hstep : step program state (.radioDeliver signal) = some next) :
    state.radioPending signal = true ∧
      ∃ radio, state.radio.deliver signal = some radio ∧
        next = { state with
          radio := radio
          radioPending := state.radioPending.clear signal } := by
  simp only [step, Option.ite_none_right_eq_some, Option.map_eq_some_iff] at hstep
  rcases hstep with ⟨hpending, radio, hradio, rfl⟩
  exact ⟨hpending, radio, hradio, rfl⟩

theorem step_radioResume
    (hstep : step program state .radioResume = some next) :
    ∃ radio kills, state.radio.resume = some (radio, kills) ∧
      next = ({ state with radio := radio }).post kills := by
  simp only [step, Option.map_eq_some_iff] at hstep
  rcases hstep with ⟨⟨radio, kills⟩, hradio, rfl⟩
  exact ⟨radio, kills, hradio, rfl⟩

theorem step_radioReturn
    (hstep : step program state .radioReturn = some next) :
    100 < state.radio.takeoffs ∧
      next = { state with radio := { state.radio with exited := true } } := by
  simp only [step, Option.map_eq_some_iff] at hstep
  rcases hstep with ⟨radio, hradio, rfl⟩
  obtain ⟨htakeoffs, rfl⟩ := Radio.mainReturn_cases hradio
  exact ⟨htakeoffs, rfl⟩

theorem step_timer (hstep : step program state .timer = some next) :
    next = { state with
      groundPending := state.groundPending.raise .sigalrm } :=
  (Option.some.inj hstep).symm

theorem step_groundDeliver {signal : Signal}
    (hstep : step program state (.groundDeliver signal) = some next) :
    state.groundPending signal = true ∧
      ∃ ground, state.ground.deliver signal = some ground ∧
        next = { state with
          ground := ground
          groundPending := state.groundPending.clear signal } := by
  simp only [step, Option.ite_none_right_eq_some, Option.map_eq_some_iff] at hstep
  rcases hstep with ⟨hpending, ground, hground, rfl⟩
  exact ⟨hpending, ground, hground, rfl⟩

theorem step_groundResume
    (hstep : step program state .groundResume = some next) :
    ∃ ground kills, state.ground.resume = some (ground, kills) ∧
      next = ({ state with ground := ground }).post kills := by
  simp only [step, Option.map_eq_some_iff] at hstep
  rcases hstep with ⟨⟨ground, kills⟩, hground, rfl⟩
  exact ⟨ground, kills, hground, rfl⟩

/-- Every step of the airport either is a step of the air control or leaves its
state alone. -/
theorem step_airState (hstep : step program state action = some next) :
    (∃ airAction, action = .air airAction ∧
        program.step state.air airAction =
          some (next.air, airSends program state action)) ∨
      (airSends program state action = [] ∧ next.air = state.air) := by
  cases action with
  | air airAction =>
      obtain ⟨_, air, kills, hair, hsends, rfl⟩ := step_air hstep
      refine .inl ⟨airAction, rfl, ?_⟩
      rw [(State.post_frame _ kills).1, hsends, hair]
  | radioDeliver signal =>
      obtain ⟨_, radio, _, rfl⟩ := step_radioDeliver hstep
      exact .inr ⟨rfl, rfl⟩
  | radioResume =>
      obtain ⟨radio, kills, _, rfl⟩ := step_radioResume hstep
      exact .inr ⟨rfl, (State.post_frame _ kills).1⟩
  | radioReturn =>
      obtain ⟨_, rfl⟩ := step_radioReturn hstep
      exact .inr ⟨rfl, rfl⟩
  | timer =>
      obtain rfl := step_timer hstep
      exact .inr ⟨rfl, rfl⟩
  | groundDeliver signal =>
      obtain ⟨_, ground, _, rfl⟩ := step_groundDeliver hstep
      exact .inr ⟨rfl, rfl⟩
  | groundResume =>
      obtain ⟨ground, kills, _, rfl⟩ := step_groundResume hstep
      exact .inr ⟨rfl, (State.post_frame _ kills).1⟩

/-- What the steps of the air control keep of its state, the airport keeps. -/
theorem airport_invariant {P : Air → Prop} (hstart : P program.start)
    (hkeep : ∀ {air next : Air} {action : AirAction} {kills : List Kill},
      P air → program.step air action = some (next, kills) → P next) :
    Invariant (airport program) fun state => P state.air where
  start := hstart
  step := by
    intro state next action hinv hstep
    rcases step_airState hstep with ⟨airAction, _, hair⟩ | ⟨_, hsame⟩
    · exact hkeep hinv hair
    · rw [hsame]
      exact hinv

end Steps

end Composition

end Airport

end OsCourse
