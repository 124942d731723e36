/-
The message queue of Section2/class_examples/message_queue.  A sender puts ten
numbered messages into a queue of five, a reader takes one message out and prints it.
The queue is never removed, so any number of senders and readers share it, and
messages of earlier runs may be waiting in it.
-/
import OsCourse.DecimalText
import OsCourse.Processes
import OsCourse.TransitionSystem

namespace OsCourse

namespace NumberedMessages

open DecimalText ThreadPool TransitionSystem

section Program

/-- `mq_maxmsg`. -/
def maxMessages : Nat := 5

/-- The messages of one sender. -/
def messageCount : Nat := 10

/-- `"mensaje numero %d"`. -/
def message (i : Nat) : List Char :=
  "mensaje numero ".toList ++ lld i

inductive SenderPlace where
  | mqOpen
  | mqSend (i : Nat)
  | printSent (i : Nat)
  | finished
  | openFailed
deriving Repr, DecidableEq

inductive ReaderPlace where
  | mqOpen
  | announce
  | mqReceive
  | printReceived (buffer : List Char)
  | finished (buffer : List Char)
  | openFailed
deriving Repr, DecidableEq

/-- The processes and the queue.  What was sent and received is recorded in its order
and is read by no process. -/
structure State (S R : Type) where
  senders : S → SenderPlace
  readers : R → ReaderPlace
  queue : List (List Char)
  sent : List (S × Nat)
  received : List (R × List Char)

/-- A process runs its next statement; `opened` is whether an `mq_open` succeeds. -/
inductive Action (S R : Type) where
  | sender (sender : S) (opened : Bool)
  | reader (reader : R) (opened : Bool)
deriving Repr, DecidableEq

variable {S R : Type} [DecidableEq S] [DecidableEq R]

namespace State

def moveSender (state : State S R) (sender : S) (place : SenderPlace) :
    State S R :=
  { state with senders := Function.update state.senders sender place }

def moveReader (state : State S R) (reader : R) (place : ReaderPlace) :
    State S R :=
  { state with readers := Function.update state.readers reader place }

/-- `mq_send` into a queue with room. -/
def send (state : State S R) (sender : S) (i : Nat) : State S R :=
  { state with
    queue := state.queue ++ [message i]
    sent := state.sent ++ [(sender, i)] }

/-- `mq_receive` from a queue that begins with the message. -/
def receive (state : State S R) (reader : R) (buffer : List Char)
    (rest : List (List Char)) : State S R :=
  { state with
    queue := rest
    received := state.received ++ [(reader, buffer)] }

/-- The next statement of `main` of the sender; `mq_send` waits while the queue is
full. -/
def runSender (state : State S R) (sender : S) (opened : Bool) :
    Option (State S R) :=
  match state.senders sender with
  | .mqOpen =>
      some (state.moveSender sender
        (if opened then .mqSend 0 else .openFailed))
  | .mqSend i =>
      if i < messageCount then
        if state.queue.length < maxMessages then
          some ((state.send sender i).moveSender sender (.printSent i))
        else none
      else some (state.moveSender sender .finished)
  | .printSent i => some (state.moveSender sender (.mqSend (i + 1)))
  | .finished | .openFailed => none

/-- The next statement of `main` of the reader; `mq_receive` waits while the queue is
empty. -/
def runReader (state : State S R) (reader : R) (opened : Bool) :
    Option (State S R) :=
  match state.readers reader with
  | .mqOpen =>
      some (state.moveReader reader
        (if opened then .announce else .openFailed))
  | .announce => some (state.moveReader reader .mqReceive)
  | .mqReceive =>
      match state.queue with
      | [] => none
      | buffer :: rest =>
          some ((state.receive reader buffer rest).moveReader reader
            (.printReceived buffer))
  | .printReceived buffer =>
      some (state.moveReader reader (.finished buffer))
  | .finished _ | .openFailed => none

def step (state : State S R) : Action S R → Option (State S R)
  | .sender sender opened => state.runSender sender opened
  | .reader reader opened => state.runReader reader opened

end State

/-- The processes started with the messages that earlier runs have left. -/
def exchange (leftover : List (List Char)) :
    System (State S R) (Action S R) where
  start := ⟨fun _ => .mqOpen, fun _ => .mqOpen, leftover, [], []⟩
  step := State.step

end Program

/-- The messages that a sender has put into the queue. -/
def SenderPlace.sent : SenderPlace → Nat
  | .mqOpen | .openFailed => 0
  | .mqSend i => i
  | .printSent i => i + 1
  | .finished => messageCount

/-- The message that a reader has taken out of the queue. -/
def ReaderPlace.buffer : ReaderPlace → Option (List Char)
  | .printReceived buffer | .finished buffer => some buffer
  | _ => none

section Delivery

variable {S R : Type} [DecidableEq S] [DecidableEq R]
  {leftover : List (List Char)} {state next : State S R}

/-- The messages that a sender has sent, in their order. -/
def State.sentBy (state : State S R) (sender : S) : List Nat :=
  (state.sent.filter fun entry => entry.1 = sender).map Prod.snd

def State.receivedBy (state : State S R) (reader : R) : List (List Char) :=
  (state.received.filter fun entry => entry.1 = reader).map Prod.snd

/-- The queue is first in, first out, and the records agree with the processes. -/
structure Delivered (leftover : List (List Char)) (state : State S R) :
    Prop where
  order : leftover ++ state.sent.map (fun entry => message entry.2) =
    state.received.map Prod.snd ++ state.queue
  room : state.queue.length ≤ maxMessages
  sentBy : ∀ sender,
    state.sentBy sender = List.range (state.senders sender).sent
  sent_le : ∀ sender, (state.senders sender).sent ≤ messageCount
  receivedBy : ∀ reader,
    state.receivedBy reader = (state.readers reader).buffer.toList

theorem Delivered.moveSender (hstate : Delivered leftover state) {sender : S}
    {place : SenderPlace}
    (hsent : place.sent = (state.senders sender).sent) :
    Delivered leftover (state.moveSender sender place) where
  order := hstate.order
  room := hstate.room
  sentBy := fun other =>
    (hstate.sentBy other).trans
      (congrArg List.range (update_of_same hsent other).symm)
  sent_le := fun other =>
    (update_of_same hsent other).trans_le (hstate.sent_le other)
  receivedBy := hstate.receivedBy

theorem Delivered.moveReader (hstate : Delivered leftover state) {reader : R}
    {place : ReaderPlace}
    (hbuffer : place.buffer = (state.readers reader).buffer) :
    Delivered leftover (state.moveReader reader place) where
  order := hstate.order
  room := hstate.room
  sentBy := hstate.sentBy
  sent_le := hstate.sent_le
  receivedBy := fun other =>
    (hstate.receivedBy other).trans
      (congrArg Option.toList (update_of_same hbuffer other).symm)

theorem Delivered.send (hstate : Delivered leftover state) {sender : S}
    {i : Nat} (hplace : state.senders sender = .mqSend i)
    (hi : i < messageCount) (hroom : state.queue.length < maxMessages) :
    Delivered leftover
      ((state.send sender i).moveSender sender (.printSent i)) where
  order := by
    have horder := hstate.order
    simp only [State.send, State.moveSender, List.map_append, List.map_cons,
      List.map_nil]
    rw [← List.append_assoc, horder, List.append_assoc]
  room := by
    rw [State.send, State.moveSender, List.length_append,
      List.length_singleton]
    exact hroom
  sentBy := by
    intro other
    have hother := hstate.sentBy other
    simp only [State.sentBy, State.send, State.moveSender,
      List.filter_append, List.map_append] at hother ⊢
    by_cases hsame : other = sender
    · rw [hsame, hplace] at hother
      rw [hsame, Function.update_self, hother]
      simp [SenderPlace.sent, List.range_succ]
    · rw [Function.update_of_ne hsame, hother]
      simp [Ne.symm hsame]
  sent_le := by
    intro other
    simp only [State.send, State.moveSender]
    by_cases hsame : other = sender
    · rw [hsame, Function.update_self]
      exact hi
    · rw [Function.update_of_ne hsame]
      exact hstate.sent_le other
  receivedBy := hstate.receivedBy

theorem Delivered.receive (hstate : Delivered leftover state) {reader : R}
    {buffer : List Char} {rest : List (List Char)}
    (hplace : state.readers reader = .mqReceive)
    (hqueue : state.queue = buffer :: rest) :
    Delivered leftover ((state.receive reader buffer rest).moveReader reader
      (.printReceived buffer)) where
  order := by
    have horder := hstate.order
    rw [hqueue] at horder
    simp only [State.receive, State.moveReader, List.map_append,
      List.map_cons, List.map_nil, List.append_assoc, List.singleton_append]
    exact horder
  room := by
    have hroom := hstate.room
    rw [hqueue, List.length_cons] at hroom
    exact Nat.le_of_succ_le hroom
  sentBy := hstate.sentBy
  sent_le := hstate.sent_le
  receivedBy := by
    intro other
    have hother := hstate.receivedBy other
    simp only [State.receivedBy, State.receive, State.moveReader,
      List.filter_append, List.map_append] at hother ⊢
    by_cases hsame : other = reader
    · rw [hsame, hplace] at hother
      rw [hsame, Function.update_self, hother]
      simp [ReaderPlace.buffer]
    · rw [Function.update_of_ne hsame, hother]
      simp [Ne.symm hsame]

theorem delivered_runSender {sender : S} {opened : Bool}
    (hstate : Delivered leftover state)
    (hstep : state.runSender sender opened = some next) :
    Delivered leftover next := by
  unfold State.runSender at hstep
  split at hstep
  case h_1 hplace =>
    cases hstep
    refine hstate.moveSender ?_
    rw [hplace]
    cases opened <;> rfl
  case h_2 i hplace =>
    split at hstep
    case isTrue hi =>
      split at hstep
      case isTrue hroom =>
        cases hstep
        exact hstate.send hplace hi hroom
      case isFalse => cases hstep
    case isFalse hi =>
      cases hstep
      refine hstate.moveSender ?_
      have hle := hstate.sent_le sender
      rw [hplace] at hle ⊢
      exact Nat.le_antisymm (Nat.not_lt.mp hi) hle
  case h_3 i hplace =>
    cases hstep
    refine hstate.moveSender ?_
    rw [hplace]
    rfl
  case h_4 | h_5 => cases hstep

theorem delivered_runReader {reader : R} {opened : Bool}
    (hstate : Delivered leftover state)
    (hstep : state.runReader reader opened = some next) :
    Delivered leftover next := by
  unfold State.runReader at hstep
  split at hstep
  case h_1 hplace =>
    cases hstep
    refine hstate.moveReader ?_
    rw [hplace]
    cases opened <;> rfl
  case h_2 hplace | h_4 hplace =>
    cases hstep
    refine hstate.moveReader ?_
    rw [hplace]
    rfl
  case h_3 hplace =>
    split at hstep
    case h_1 => cases hstep
    case h_2 buffer rest hqueue =>
      cases hstep
      exact hstate.receive hplace hqueue
  case h_5 | h_6 => cases hstep

/-- The run lemma. -/
theorem delivered_invariant (hleftover : leftover.length ≤ maxMessages) :
    Invariant (exchange leftover) (Delivered (S := S) (R := R) leftover) where
  start :=
    { order := List.append_nil leftover
      room := hleftover
      sentBy := fun _ => rfl
      sent_le := fun _ => Nat.zero_le _
      receivedBy := fun _ => rfl }
  step := by
    intro state next action hstate hstep
    cases action with
    | sender sender opened => exact delivered_runSender hstate hstep
    | reader reader opened => exact delivered_runReader hstate hstep

/-- Whatever the processes do, the messages come out in the order in which they went
in, none is lost and none comes out twice: each sender sends its numbers in order, and
a reader that has ended has taken the one message it printed. -/
theorem received_in_order (hleftover : leftover.length ≤ maxMessages)
    (hreach : (exchange leftover).Reachable state) :
    state.received.map Prod.snd ++ state.queue =
        leftover ++ state.sent.map (fun entry => message entry.2) ∧
      state.queue.length ≤ maxMessages ∧
      (∀ sender,
        state.sentBy sender = List.range (state.senders sender).sent) ∧
      ∀ reader buffer, state.readers reader = .finished buffer →
        state.receivedBy reader = [buffer] := by
  have hstate := (delivered_invariant hleftover).reachable hreach
  refine ⟨hstate.order.symm, hstate.room, hstate.sentBy, ?_⟩
  intro reader buffer hplace
  rw [hstate.receivedBy, hplace]
  rfl

/-- A sender and a reader until the reader has printed its message. -/
def firstMessage : List (Action Unit Unit) :=
  [.sender () true, .sender () true, .sender () true, .reader () true,
    .reader () true, .reader () true, .reader () true]

theorem received_firstMessage :
    ∃ state : State Unit Unit,
      (exchange []).run firstMessage = some state ∧
        state.receivedBy () = [message 0] := by
  have hempty : ([] : List (List Char)).length ≤ maxMessages := by decide
  refine ⟨_, rfl, ?_⟩
  exact (received_in_order hempty ⟨firstMessage, rfl⟩).2.2.2 () _ rfl

end Delivery

/-- The process has opened the queue. -/
def SenderPlace.opened (place : SenderPlace) : Bool :=
  place ∉ [.mqOpen, .openFailed]

def ReaderPlace.opened (place : ReaderPlace) : Bool :=
  place ∉ [.mqOpen, .openFailed]

/-- The statements that a sender has before it. -/
def SenderPlace.left : SenderPlace → Nat
  | .mqOpen => 2 * messageCount + 2
  | .mqSend i => 2 * (messageCount - i) + 1
  | .printSent i => 2 * (messageCount - i)
  | .finished | .openFailed => 0

def ReaderPlace.left : ReaderPlace → Nat
  | .mqOpen => 4
  | .announce => 3
  | .mqReceive => 2
  | .printReceived _ => 1
  | .finished _ | .openFailed => 0

section Waiting

variable {S R : Type} [DecidableEq S] [DecidableEq R]
  {leftover : List (List Char)} {state : State S R}

/-- A sender that can do nothing has ended or waits for room. -/
theorem sender_of_stuck (hstuck : (exchange leftover).Stuck state)
    (sender : S) :
    state.senders sender = .finished ∨ state.senders sender = .openFailed ∨
      (∃ i < messageCount, state.senders sender = .mqSend i) ∧
        maxMessages ≤ state.queue.length := by
  have hnone := hstuck (.sender sender true)
  simp only [exchange, State.step, State.runSender] at hnone
  split at hnone
  case h_2 i hplace =>
    split at hnone
    case isTrue hi =>
      split at hnone
      case isTrue => cases hnone
      case isFalse hroom =>
        exact .inr (.inr ⟨⟨i, hi, hplace⟩, Nat.not_lt.mp hroom⟩)
    case isFalse => cases hnone
  case h_4 hplace => exact .inl hplace
  case h_5 hplace => exact .inr (.inl hplace)
  all_goals cases hnone

theorem reader_of_stuck (hstuck : (exchange leftover).Stuck state)
    (reader : R) :
    (∃ buffer, state.readers reader = .finished buffer) ∨
      state.readers reader = .openFailed ∨
        state.readers reader = .mqReceive ∧ state.queue = [] := by
  have hnone := hstuck (.reader reader true)
  simp only [exchange, State.step, State.runReader] at hnone
  split at hnone
  case h_3 hplace =>
    split at hnone
    case h_1 hqueue => exact .inr (.inr ⟨hplace, hqueue⟩)
    case h_2 => cases hnone
  case h_5 buffer hplace => exact .inl ⟨buffer, hplace⟩
  case h_6 hplace => exact .inr (.inl hplace)
  all_goals cases hnone

end Waiting

section Progress

variable {S R : Type} [Fintype S] [Fintype R]

def State.left (state : State S R) : Nat :=
  ∑ sender, (state.senders sender).left +
    ∑ reader, (state.readers reader).left

theorem left_moveSender [DecidableEq S] {state : State S R} {sender : S}
    {place : SenderPlace}
    (hless : place.left < (state.senders sender).left) :
    (state.moveSender sender place).left < state.left :=
  Nat.add_lt_add_right (sum_update_lt hless) _

theorem left_moveReader [DecidableEq R] {state : State S R} {reader : R}
    {place : ReaderPlace}
    (hless : place.left < (state.readers reader).left) :
    (state.moveReader reader place).left < state.left :=
  Nat.add_lt_add_left (sum_update_lt hless) _

variable [DecidableEq S] [DecidableEq R] {leftover : List (List Char)}
  {state next : State S R}

theorem left_runSender {sender : S} {opened : Bool}
    (hstate : Delivered leftover state)
    (hstep : state.runSender sender opened = some next) :
    next.left < state.left := by
  have hle := hstate.sent_le sender
  unfold State.runSender at hstep
  split at hstep
  case h_1 hplace =>
    cases hstep
    refine left_moveSender ?_
    rw [hplace]
    cases opened <;> decide
  case h_2 i hplace =>
    rw [hplace] at hle
    split at hstep
    case isTrue hi =>
      split at hstep
      case isTrue =>
        cases hstep
        have hless : (SenderPlace.printSent i).left <
            ((state.send sender i).senders sender).left := by
          rw [State.send, hplace]
          exact Nat.lt_succ_self _
        exact left_moveSender hless
      case isFalse => cases hstep
    case isFalse =>
      cases hstep
      refine left_moveSender ?_
      rw [hplace]
      exact Nat.succ_pos _
  case h_3 i hplace =>
    cases hstep
    refine left_moveSender ?_
    rw [hplace] at hle ⊢
    simp only [SenderPlace.sent, SenderPlace.left] at hle ⊢
    omega
  case h_4 | h_5 => cases hstep

omit [DecidableEq S] in
theorem left_runReader {reader : R} {opened : Bool}
    (hstep : state.runReader reader opened = some next) :
    next.left < state.left := by
  unfold State.runReader at hstep
  split at hstep
  case h_1 hplace =>
    cases hstep
    refine left_moveReader ?_
    rw [hplace]
    cases opened <;> decide
  case h_2 hplace =>
    cases hstep
    refine left_moveReader ?_
    rw [hplace]
    decide
  case h_3 hplace =>
    split at hstep
    case h_1 => cases hstep
    case h_2 buffer rest hqueue =>
      cases hstep
      have hless : (ReaderPlace.printReceived buffer).left <
          ((state.receive reader buffer rest).readers reader).left := by
        rw [State.receive, hplace]
        exact Nat.lt_succ_self _
      exact left_moveReader hless
  case h_4 buffer hplace =>
    cases hstep
    refine left_moveReader ?_
    rw [hplace]
    exact Nat.zero_lt_one
  case h_5 | h_6 => cases hstep

/-- Every run ends. -/
theorem length_le (hleftover : leftover.length ≤ maxMessages)
    {schedule : List (Action S R)}
    (hrun : (exchange leftover).run schedule = some state) :
    schedule.length ≤ 22 * Fintype.card S + 4 * Fintype.card R := by
  have hlength := length_add_measure_le (delivered_invariant hleftover)
    State.left (fun {state next action} hstate hstep => by
      cases action with
      | sender sender opened => exact left_runSender hstate hstep
      | reader reader opened => exact left_runReader hstep) hrun
  have hstart : State.left (exchange (S := S) (R := R) leftover).start =
      22 * Fintype.card S + 4 * Fintype.card R := by
    simp [State.left, exchange, SenderPlace.left, ReaderPlace.left,
      messageCount, Nat.mul_comm]
  omega

end Progress

section Ends

variable {S R : Type} [DecidableEq S] [DecidableEq R]
  {leftover : List (List Char)} {state : State S R}

theorem length_sent [Fintype S] (hstate : Delivered leftover state) :
    state.sent.length = ∑ sender, (state.senders sender).sent := by
  rw [← sum_length_filter]
  refine Finset.sum_congr rfl fun sender _ => ?_
  have hsent := congrArg List.length (hstate.sentBy sender)
  rwa [State.sentBy, List.length_map, List.length_range] at hsent

theorem length_received [Fintype R] (hstate : Delivered leftover state) :
    state.received.length =
      countAt state.readers fun place => place.buffer.isSome := by
  rw [← sum_length_filter]
  refine Finset.sum_congr rfl fun reader _ => ?_
  have hreceived := congrArg List.length (hstate.receivedBy reader)
  rw [State.receivedBy, List.length_map] at hreceived
  rw [hreceived]
  show (state.readers reader).buffer.toList.length =
    (state.readers reader).buffer.isSome.toNat
  generalize (state.readers reader).buffer = buffer
  cases buffer <;> rfl

/-- The senders that have opened the queue have all ended, or something is left to be
sent. -/
theorem sent_of_stuck [Fintype S] (hstuck : (exchange leftover).Stuck state) :
    ∑ sender, (state.senders sender).sent ≤
        messageCount * countAt state.senders SenderPlace.opened ∧
      ((∀ sender, (state.senders sender).opened = true →
          state.senders sender = .finished) ↔
        ∑ sender, (state.senders sender).sent =
          messageCount * countAt state.senders SenderPlace.opened) := by
  rw [countAt, Finset.mul_sum]
  have hle : ∀ sender ∈ Finset.univ, (state.senders sender).sent ≤
      messageCount * (state.senders sender).opened.toNat := by
    intro sender _
    rcases sender_of_stuck hstuck sender with
      hplace | hplace | ⟨⟨i, hi, hplace⟩, -⟩
    · rw [hplace]
      decide
    · rw [hplace]
      decide
    · rw [hplace]
      exact hi.le
  refine ⟨Finset.sum_le_sum hle, ?_⟩
  rw [Finset.sum_eq_sum_iff_of_le hle]
  refine forall_congr' fun sender => ?_
  rcases sender_of_stuck hstuck sender with
    hplace | hplace | ⟨⟨i, hi, hplace⟩, -⟩
  · rw [hplace]
    exact iff_of_true (fun _ => rfl) fun _ => rfl
  · rw [hplace]
    exact iff_of_true (fun hopened => absurd hopened (by decide)) fun _ => rfl
  · rw [hplace]
    refine iff_of_false (fun hfinished => ?_) fun hsent => ?_
    · exact SenderPlace.noConfusion (hfinished rfl)
    · exact hi.ne (hsent (Finset.mem_univ sender))

/-- With room in the queue no sender waits. -/
theorem finished_of_stuck (hstuck : (exchange leftover).Stuck state)
    (hroom : state.queue.length < maxMessages) (sender : S)
    (hopened : (state.senders sender).opened = true) :
    state.senders sender = .finished := by
  rcases sender_of_stuck hstuck sender with hplace | hplace | ⟨-, hfull⟩
  · exact hplace
  · rw [hplace] at hopened
    exact absurd hopened (by decide)
  · exact absurd hfull (Nat.not_le.mpr hroom)

/-- With a message in the queue no reader waits. -/
theorem received_of_stuck [Fintype R] (hstate : Delivered leftover state)
    (hstuck : (exchange leftover).Stuck state) (hqueue : state.queue ≠ []) :
    state.received.length = countAt state.readers ReaderPlace.opened := by
  rw [length_received hstate]
  refine Finset.sum_congr rfl fun reader _ => congrArg Bool.toNat ?_
  rcases reader_of_stuck hstuck reader with
    ⟨buffer, hplace⟩ | hplace | ⟨-, hempty⟩
  · rw [hplace]
    rfl
  · rw [hplace]
    rfl
  · exact absurd hempty hqueue

theorem received_le [Fintype R] (hstate : Delivered leftover state) :
    state.received.length ≤ countAt state.readers ReaderPlace.opened := by
  rw [length_received hstate]
  refine countAt_mono fun place hbuffer => ?_
  cases place <;> first | rfl | cases hbuffer

/-- Any number of senders and readers run until no more can be done.  Then as many
messages were received as there were readers or messages, whichever is less, and the
senders have all ended if and only if at most five messages were too many. -/
theorem exchange_ends [Fintype S] [Fintype R]
    (hleftover : leftover.length ≤ maxMessages)
    {schedule : List (Action S R)}
    (hrun : (exchange leftover).run schedule = some state) :
    schedule.length ≤ 22 * Fintype.card S + 4 * Fintype.card R ∧
      ((exchange leftover).Stuck state →
        state.received.length =
            min (countAt state.readers ReaderPlace.opened)
              (leftover.length +
                messageCount * countAt state.senders SenderPlace.opened) ∧
          ((∀ sender, (state.senders sender).opened = true →
              state.senders sender = .finished) ↔
            leftover.length +
                messageCount * countAt state.senders SenderPlace.opened ≤
              countAt state.readers ReaderPlace.opened + maxMessages)) := by
  refine ⟨length_le hleftover hrun, fun hstuck => ?_⟩
  have hstate := (delivered_invariant hleftover).run hrun
  have hreceived := received_le hstate
  obtain ⟨hsent, hended⟩ := sent_of_stuck hstuck
  have hroom := finished_of_stuck hstuck
  rw [hended] at hroom ⊢
  rw [← length_sent hstate] at hsent hroom ⊢
  have horder := congrArg List.length hstate.order
  simp only [List.length_append, List.length_map] at horder
  by_cases hqueue : state.queue = []
  · have hall := hroom (by rw [hqueue]; decide)
    rw [hqueue, List.length_nil] at horder
    omega
  · have hread := received_of_stuck hstate hstuck hqueue
    have hbound := hstate.room
    omega

/-- Five more messages, which nobody receives. -/
def fullQueue : List (Action Unit Unit) :=
  firstMessage ++ List.replicate 10 (.sender () true)

theorem exchange_ends_fullQueue :
    ∃ state : State Unit Unit,
      (exchange []).run fullQueue = some state ∧
        state.received.length = min 1 (0 + 10 * 1) := by
  have hempty : ([] : List (List Char)).length ≤ maxMessages := by decide
  obtain ⟨state, hrun, hstuck, hreaders, hsenders⟩ :
      ∃ state : State Unit Unit,
        (exchange []).run fullQueue = some state ∧
          (exchange []).Stuck state ∧
          countAt state.readers ReaderPlace.opened = 1 ∧
          countAt state.senders SenderPlace.opened = 1 := by
    refine ⟨_, rfl, fun action => ?_, rfl, rfl⟩
    rcases action with ⟨⟨⟩, opened⟩ | ⟨⟨⟩, opened⟩ <;> rfl
  have hreceived := ((exchange_ends hempty hrun).2 hstuck).1
  rw [hreaders, hsenders] at hreceived
  exact ⟨state, hrun, hreceived⟩

end Ends

end NumberedMessages

end OsCourse
