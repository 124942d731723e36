/-
The buyer of the ticket homework when it is the only one: `BuyTickets` is then
one operation on the segment, which the loop in `main` repeats while tickets are
available.  What the loop reads is first any sequence of requests and then what
`scanf` makes of any standard input.
-/
import OsCourse.UnlockedTickets
import OsCourse.ScanText

namespace OsCourse

namespace TicketBuyer

open TransitionSystem UnlockedTickets ScanText

/-- A call of `BuyTickets`: what it finds, returns, prints and leaves. -/
structure Call where
  before : Memory
  requested : Int
  returned : Int
  printed : BuyerLine
  after : Memory
deriving Repr, DecidableEq

def buyTickets (memory : Memory) (requestedTickets : Int) : Call :=
  if requestedTickets ≤ 0 then
    ⟨memory, requestedTickets, 0, .invalidNumber, memory⟩
  else
    let ticketsToBuy := if requestedTickets > 5 then 5 else requestedTickets
    let ticketsToBuy :=
      if ticketsToBuy > memory.availableTickets then memory.availableTickets
      else ticketsToBuy
    let after : Memory := {
      availableTickets := memory.availableTickets - ticketsToBuy
      purchasedTickets := memory.purchasedTickets + ticketsToBuy
      transactions := memory.transactions + 1 }
    ⟨memory, requestedTickets, ticketsToBuy,
      .purchased ticketsToBuy after.availableTickets, after⟩

/-- The loop in `main` on the requests that it reads one after the other. -/
def buyerLoop (memory : Memory) : List Int → List Call
  | [] => []
  | requested :: rest =>
      if memory.availableTickets > 0 then
        let call := buyTickets memory requested
        call :: buyerLoop call.after rest
      else []

section BuyTickets

variable {memory : Memory} {requested : Int}

@[simp] theorem buyTickets_requested (memory : Memory) (requested : Int) :
    (buyTickets memory requested).requested = requested := by
  unfold buyTickets
  split <;> rfl

theorem buyTickets_invalid (hrequested : requested ≤ 0) :
    buyTickets memory requested =
      ⟨memory, requested, 0, .invalidNumber, memory⟩ :=
  if_pos hrequested

/-- A valid request is cut down to five tickets and to the stock. -/
theorem buyTickets_valid (hrequested : 0 < requested) :
    buyTickets memory requested =
      let tickets := min requested (min 5 memory.availableTickets)
      ⟨memory, requested, tickets,
        .purchased tickets (memory.availableTickets - tickets),
        ⟨memory.availableTickets - tickets, memory.purchasedTickets + tickets,
          memory.transactions + 1⟩⟩ := by
  have hclipped :
      (if (if requested > 5 then 5 else requested) > memory.availableTickets
        then memory.availableTickets
        else if requested > 5 then 5 else requested) =
      min requested (min 5 memory.availableTickets) := by
    split <;> split <;> omega
  rw [buyTickets, if_neg (Int.not_le.mpr hrequested)]
  simp only [hclipped]

end BuyTickets

section Statements

variable {n : Nat}

variable {sale : Sale n} {buyer : Fin n} {place dest : BuyerPlace}

@[simp] theorem buyer_goto : (sale.goto buyer place).buyer buyer = place :=
  Function.update_self ..

@[simp] theorem memory_goto : (sale.goto buyer place).memory = sale.memory :=
  rfl

@[simp] theorem goto_goto :
    (sale.goto buyer place).goto buyer dest = sale.goto buyer dest := by
  simp [Sale.goto]

/-- The sale after a call of `BuyTickets`, back at the guard of the loop. -/
def afterCall (sale : Sale n) (buyer : Fin n) (call : Call) : Sale n :=
  (({ sale with memory := call.after } : Sale n).print buyer
    call.printed).goto buyer .loopGuard

/-- The statements of `BuyTickets` up to the subtraction. -/
theorem run_to_subtract (hplace : sale.buyer buyer = .scanf)
    {requested : Int} (hrequested : 0 < requested) :
    ∃ steps, (ticketSale n).runFrom sale
        (List.replicate steps (.buyer buyer requested)) =
      some (sale.goto buyer (.subtract
        (min requested (min 5 sale.memory.availableTickets)))) := by
  have hvalid : ¬ requested ≤ 0 := Int.not_le.mpr hrequested
  by_cases hclip : (if requested > 5 then 5 else requested) >
    sale.memory.availableTickets
  · have hmin : min requested (min 5 sale.memory.availableTickets) =
        sale.memory.availableTickets := by
      split at hclip <;> omega
    refine ⟨3, ?_⟩
    rw [hmin]
    simp only [List.replicate, System.runFrom_cons, ticketSale, Sale.step,
      Sale.buyerStep, hplace, hvalid, hclip, if_true, if_false, buyer_goto,
      memory_goto, goto_goto, Option.bind_some, System.runFrom_nil]
  · have hmin : min requested (min 5 sale.memory.availableTickets) =
        if requested > 5 then 5 else requested := by
      split at hclip <;> split <;> omega
    refine ⟨2, ?_⟩
    rw [hmin]
    simp only [List.replicate, System.runFrom_cons, ticketSale, Sale.step,
      Sale.buyerStep, hplace, hvalid, hclip, if_false, buyer_goto,
      memory_goto, goto_goto, Option.bind_some, System.runFrom_nil]

/-- A buyer that is left alone after its `scanf` does what one call of
`BuyTickets` does. -/
theorem run_buyTickets (hplace : sale.buyer buyer = .scanf)
    (requested : Int) :
    ∃ steps, (ticketSale n).runFrom sale
        (List.replicate steps (.buyer buyer requested)) =
      some (afterCall sale buyer (buyTickets sale.memory requested)) := by
  by_cases hrequested : requested ≤ 0
  · refine ⟨1, ?_⟩
    rw [buyTickets_invalid hrequested]
    simp only [List.replicate, System.runFrom_cons, ticketSale, Sale.step,
      Sale.buyerStep, hplace, hrequested, if_true, Option.bind_some,
      System.runFrom_nil]
    rfl
  · obtain ⟨steps, hsteps⟩ := run_to_subtract hplace (Int.not_le.mp hrequested)
    refine ⟨steps + 4, ?_⟩
    rw [List.replicate_add, System.runFrom_append, hsteps,
      buyTickets_valid (Int.not_le.mp hrequested)]
    simp only [Option.bind_some, List.replicate, System.runFrom_cons,
      ticketSale, Sale.step, Sale.buyerStep, buyer_goto]
    simp [afterCall, Sale.goto, Sale.print]

end Statements

section Requests

/-- The books of the segment between two calls. -/
structure InBooks (memory : Memory) : Prop where
  available : 0 ≤ memory.availableTickets
  balance : memory.availableTickets + memory.purchasedTickets = 20
  atMostFive : memory.purchasedTickets ≤ 5 * memory.transactions
  atLeastOne : memory.transactions ≤ memory.purchasedTickets

/-- What a call may do under the business rules. -/
structure BusinessRules (call : Call) : Prop where
  available : 0 ≤ call.after.availableTickets ∧
    call.after.availableTickets ≤ 20
  balance : call.after.availableTickets + call.after.purchasedTickets = 20
  sold : 0 < call.requested →
    call.returned = min (min call.requested 5) call.before.availableTickets
  rejected : call.requested ≤ 0 →
    call.returned = 0 ∧ call.after = call.before
  transactions : call.after.purchasedTickets ≤ 5 * call.after.transactions ∧
    call.after.transactions ≤ call.after.purchasedTickets

theorem InBooks.start : InBooks Memory.start := by
  constructor <;> decide

variable {memory : Memory} {requested : Int}

/-- A call keeps the books if the guard of the loop let it through: a sale of
nothing would count as a transaction. -/
theorem InBooks.buyTickets (hbooks : InBooks memory)
    (hguard : memory.availableTickets > 0) :
    InBooks (buyTickets memory requested).after := by
  rcases hbooks with ⟨havailable, hbalance, hmost, hleast⟩
  by_cases hrequested : requested ≤ 0
  · rw [buyTickets_invalid hrequested]
    exact ⟨havailable, hbalance, hmost, hleast⟩
  · rw [buyTickets_valid (Int.not_le.mp hrequested)]
    constructor <;> dsimp only <;> omega

theorem InBooks.businessRules (hbooks : InBooks memory)
    (hguard : memory.availableTickets > 0) :
    BusinessRules (TicketBuyer.buyTickets memory requested) := by
  have hafter := @InBooks.buyTickets memory requested hbooks hguard
  rcases hafter with ⟨havailable, hbalance, hmost, hleast⟩
  refine ⟨⟨havailable, by omega⟩, hbalance, ?_, ?_, hmost, hleast⟩
  · rw [buyTickets_requested]
    intro hrequested
    rw [buyTickets_valid hrequested, min_assoc]
  · rw [buyTickets_requested]
    intro hrequested
    rw [buyTickets_invalid hrequested]
    exact ⟨rfl, rfl⟩

end Requests

section StandardInput

/-- One turn of the loop: what its `scanf` converted, and the call after it. -/
structure Turn where
  converted : Option Int
  call : Call
deriving Repr, DecidableEq

/-- The first turns of the loop in `main`.  A `scanf` that converts nothing leaves
`tickets_to_buy` as it was, and its result is not looked at. -/
def mainLoop : (turns : Nat) → Memory → (ticketsToBuy : Int) → List Char →
    List Turn
  | 0, _, _, _ => []
  | turns + 1, memory, ticketsToBuy, stdin =>
      if memory.availableTickets > 0 then
        let (converted, rest) := scanInt stdin
        let ticketsToBuy := converted.getD ticketsToBuy
        let call := buyTickets memory ticketsToBuy
        ⟨converted, call⟩ :: mainLoop turns call.after ticketsToBuy rest
      else []

/-- The values passed to `BuyTickets`. -/
def passed (turns : List Turn) : List Int :=
  turns.map fun turn => turn.call.requested

/-- However long the buyer runs, and whatever its variable holds at first, it passes on
the numbers of its input in order, each once, and buys nothing on other input. -/
def BuysWhatWasAsked (uninitialised : Int) (stdin : List Char) : Prop :=
  ∀ count, let turns := mainLoop count Memory.start uninitialised stdin
    (∃ calls, passed turns <+: (scanInts calls stdin).reduceOption) ∧
      ∀ turn ∈ turns, turn.converted = none → turn.call.returned = 0

/-- What a request takes from a large stock. -/
def atMostFive (requested : Int) : Int :=
  max 0 (min requested 5)

/-- Numbers that `scanf` converts one after the other ask for all tickets. -/
def SellsOut (stdin : List Char) : Prop :=
  ∃ requests : List Int,
    scanInts requests.length stdin = requests.map some ∧
      20 ≤ (requests.map atMostFive).sum

section Stock

variable {memory : Memory} {requested : Int}

theorem buyTickets_available (havailable : memory.availableTickets > 0) :
    (buyTickets memory requested).after.availableTickets =
        max 0 (memory.availableTickets - atMostFive requested) ∧
      ((buyTickets memory requested).returned = 0 ↔
        atMostFive requested = 0) := by
  unfold atMostFive
  by_cases hrequested : requested ≤ 0
  · rw [buyTickets_invalid hrequested]
    constructor <;> dsimp only <;> omega
  · rw [buyTickets_valid (Int.not_le.mp hrequested)]
    constructor <;> dsimp only <;> omega

theorem sum_atMostFive_nonneg (requests : List Int) :
    0 ≤ (requests.map atMostFive).sum := by
  apply List.sum_nonneg
  intro tickets htickets
  obtain ⟨requested, -, rfl⟩ := List.mem_map.mp htickets
  exact le_max_left ..

end Stock

section Turns

variable {count : Nat} {memory : Memory} {ticketsToBuy : Int}
  {stdin : List Char}

theorem mainLoop_guarded (hguard : memory.availableTickets > 0) :
    mainLoop (count + 1) memory ticketsToBuy stdin =
      let value := (scanInt stdin).1.getD ticketsToBuy
      ⟨(scanInt stdin).1, buyTickets memory value⟩ ::
        mainLoop count (buyTickets memory value).after value
          (scanInt stdin).2 :=
  if_pos hguard

theorem mainLoop_soldOut (hguard : ¬ memory.availableTickets > 0) :
    mainLoop count memory ticketsToBuy stdin = [] := by
  cases count with
  | zero => rfl
  | succ count => exact if_neg hguard

/-- The calls are those of a buyer that was given the passed values. -/
theorem calls_mainLoop :
    (mainLoop count memory ticketsToBuy stdin).map Turn.call =
      buyerLoop memory
        (passed (mainLoop count memory ticketsToBuy stdin)) := by
  induction count generalizing memory ticketsToBuy stdin with
  | zero => rfl
  | succ count ih =>
      by_cases hguard : memory.availableTickets > 0
      · rw [mainLoop_guarded hguard]
        simp only [passed, List.map_cons, buyTickets_requested, buyerLoop,
          if_pos hguard]
        rw [ih]
        rfl
      · rw [mainLoop_soldOut hguard]
        rfl

/-- The turns make the conversions of as many successive calls of `scanf`. -/
theorem converted_mainLoop :
    (mainLoop count memory ticketsToBuy stdin).map Turn.converted =
      scanInts (mainLoop count memory ticketsToBuy stdin).length stdin := by
  induction count generalizing memory ticketsToBuy stdin with
  | zero => rfl
  | succ count ih =>
      by_cases hguard : memory.availableTickets > 0
      · rw [mainLoop_guarded hguard]
        simp only [List.map_cons, List.length_cons, scanInts]
        rw [ih]
      · rw [mainLoop_soldOut hguard]
        rfl

theorem mem_mainLoop {turn : Turn}
    (hturn : turn ∈ mainLoop count memory ticketsToBuy stdin) :
    (∀ value ∈ turn.converted, turn.call.requested = value) ∧
      (turn.call.returned = 0 ↔ atMostFive turn.call.requested = 0) := by
  induction count generalizing memory ticketsToBuy stdin with
  | zero => cases hturn
  | succ count ih =>
      by_cases hguard : memory.availableTickets > 0
      · rw [mainLoop_guarded hguard] at hturn
        rcases List.mem_cons.mp hturn with rfl | hrest
        · rw [buyTickets_requested]
          refine ⟨?_, (buyTickets_available hguard).2⟩
          intro value hvalue
          have hscan : (scanInt stdin).1 = some value := hvalue
          rw [hscan]
          rfl
        · exact ih hrest
      · rw [mainLoop_soldOut hguard] at hturn
        cases hturn

/-- The loop goes on only while the requests so far leave tickets. -/
theorem sum_lt_of_mainLoop {front back : List Int} {requested : Int}
    (hpassed : passed (mainLoop count memory ticketsToBuy stdin) =
      front ++ requested :: back) :
    (front.map atMostFive).sum < memory.availableTickets := by
  induction count generalizing memory ticketsToBuy stdin front with
  | zero => simp [passed, mainLoop] at hpassed
  | succ count ih =>
      by_cases hguard : memory.availableTickets > 0
      · cases front with
        | nil => exact hguard
        | cons first front =>
            rw [mainLoop_guarded hguard, passed, List.map_cons,
              List.cons_append, List.cons.injEq] at hpassed
            have hrest := ih hpassed.2
            have hnonneg := sum_atMostFive_nonneg front
            rw [(buyTickets_available hguard).1] at hrest
            rw [← hpassed.1, buyTickets_requested, List.map_cons,
              List.sum_cons]
            omega
      · simp [mainLoop_soldOut hguard, passed] at hpassed

/-- A loop that has ended has asked for all tickets. -/
theorem le_sum_of_mainLoop
    (hended : (mainLoop count memory ticketsToBuy stdin).length < count) :
    memory.availableTickets ≤
      ((passed (mainLoop count memory ticketsToBuy stdin)).map
        atMostFive).sum := by
  induction count generalizing memory ticketsToBuy stdin with
  | zero => cases hended
  | succ count ih =>
      by_cases hguard : memory.availableTickets > 0
      · rw [mainLoop_guarded hguard, List.length_cons,
          Nat.add_lt_add_iff_right] at hended
        have hrest := ih hended
        rw [(buyTickets_available hguard).1] at hrest
        rw [mainLoop_guarded hguard]
        simp only [passed, List.map_cons, List.sum_cons,
          buyTickets_requested] at hrest ⊢
        omega
      · rw [mainLoop_soldOut hguard]
        exact Int.not_lt.mp hguard

/-- Numbers that sell everything are all that the loop reads. -/
theorem mainLoop_of_sellsOut {requests : List Int}
    (hconverted : scanInts requests.length stdin = requests.map some)
    (hsum : memory.availableTickets ≤ (requests.map atMostFive).sum) :
    passed (mainLoop count memory ticketsToBuy stdin) <+: requests ∧
      ∀ turn ∈ mainLoop count memory ticketsToBuy stdin,
        turn.converted ≠ none := by
  induction requests generalizing count memory ticketsToBuy stdin with
  | nil =>
      rw [mainLoop_soldOut (Int.not_lt.mpr hsum)]
      exact ⟨List.nil_prefix, fun _ hturn => by cases hturn⟩
  | cons requested rest ih =>
      cases count with
      | zero => exact ⟨List.nil_prefix, fun _ hturn => by cases hturn⟩
      | succ count =>
          by_cases hguard : memory.availableTickets > 0
          · simp only [List.length_cons, scanInts, List.map_cons,
              List.cons.injEq] at hconverted
            rw [List.map_cons, List.sum_cons] at hsum
            have hafter :=
              (@buyTickets_available memory requested hguard).1
            have hnonneg := sum_atMostFive_nonneg rest
            rw [mainLoop_guarded hguard, hconverted.1]
            obtain ⟨hpassed, hturns⟩ := @ih count
              (buyTickets memory requested).after requested
              (scanInt stdin).2 hconverted.2 (by omega)
            constructor
            · simp only [passed, List.map_cons, Option.getD_some,
                buyTickets_requested]
              exact (List.prefix_cons_inj requested).mpr hpassed
            · rw [List.forall_mem_cons]
              exact ⟨by simp, hturns⟩
          · rw [mainLoop_soldOut hguard]
            exact ⟨List.nil_prefix, fun _ hturn => by cases hturn⟩

/-- Turns without a purchase do not change what was asked for. -/
theorem sum_passed {turns : List Turn}
    (hconverted : ∀ turn ∈ turns,
      ∀ value ∈ turn.converted, turn.call.requested = value)
    (hnone : ∀ turn ∈ turns, turn.converted = none →
      atMostFive turn.call.requested = 0) :
    ((passed turns).map atMostFive).sum =
      ((turns.map Turn.converted).reduceOption.map atMostFive).sum := by
  induction turns with
  | nil => rfl
  | cons turn turns ih =>
      rw [List.forall_mem_cons] at hconverted hnone
      have hrest := ih hconverted.2 hnone.2
      rw [passed] at hrest ⊢
      cases hturn : turn.converted with
      | none =>
          rw [List.map_cons, List.map_cons, List.sum_cons, hnone.1 hturn,
            hrest, List.map_cons, hturn, List.reduceOption_cons_of_none,
            Int.zero_add]
      | some value =>
          rw [List.map_cons, List.map_cons, List.sum_cons,
            hconverted.1 value hturn, hrest, List.map_cons, hturn,
            List.reduceOption_cons_of_some, List.map_cons, List.sum_cons]

end Turns

/-- If the loop passes on only what was converted, a `scanf` that fails would leave more
turns than numbers asked for all the tickets. -/
theorem sellsOut_of_buysWhatWasAsked {uninitialised : Int}
    {stdin : List Char} (hbuys : BuysWhatWasAsked uninitialised stdin) :
    SellsOut stdin := by
  obtain ⟨⟨calls, hpassed⟩, hnone⟩ := hbuys (stdin.length + 1)
  generalize hturns :
    mainLoop (stdin.length + 1) Memory.start uninitialised stdin = turns
    at hpassed hnone
  have hmem : ∀ turn ∈ turns,
      (∀ value ∈ turn.converted, turn.call.requested = value) ∧
        (turn.call.returned = 0 ↔ atMostFive turn.call.requested = 0) := by
    rw [← hturns]
    exact fun _ => mem_mainLoop
  -- more turns than there are characters cannot all have converted a number
  have hlength : turns.length ≤ stdin.length := by
    have hle := hpassed.length_le
    rw [passed, List.length_map] at hle
    exact hle.trans (length_reduceOption_scanInts_le calls stdin)
  have hsum : 20 ≤ ((passed turns).map atMostFive).sum := by
    rw [← hturns]
    apply le_sum_of_mainLoop
    rw [hturns]
    omega
  have hconverted : turns.map Turn.converted =
      scanInts turns.length stdin := by
    rw [← hturns]
    exact converted_mainLoop
  have hmade := sum_passed (fun turn hturn => (hmem turn hturn).1)
    (fun turn hturn hscan =>
      (hmem turn hturn).2.mp (hnone turn hturn hscan))
  rw [hconverted] at hmade
  have hcount : (scanInts turns.length stdin).length = turns.length := by
    rw [← hconverted, List.length_map]
  -- what was converted during the turns starts the passed values
  have hstart : (scanInts turns.length stdin).reduceOption <+:
      passed turns := by
    apply List.prefix_of_prefix_length_le
      ((scanInts_of_le (le_max_left turns.length calls) stdin).filterMap id)
      (hpassed.trans
        ((scanInts_of_le (le_max_right turns.length calls) stdin).filterMap
          id))
    rw [passed, List.length_map]
    exact (List.reduceOption_length_le _).trans_eq hcount
  obtain ⟨back, hback⟩ := hstart
  cases back with
  | cons requested back =>
      rw [← hturns] at hback
      have hlt := sum_lt_of_mainLoop hback.symm
      rw [hturns, ← hmade] at hlt
      exact absurd hsum (Int.not_le.mpr hlt)
  | nil =>
      rw [List.append_nil] at hback
      have hall := List.reduceOption_length_eq_iff.mp
        ((congrArg List.length hback).trans
          ((List.length_map _).trans hcount.symm))
      refine ⟨passed turns, ?_, hsum⟩
      rw [← hback, map_some_reduceOption hall, hback, passed,
        List.length_map]

/-- The buyer buys what was asked exactly if the numbers at the start of its input sell
all the tickets. -/
theorem buysWhatWasAsked_iff (uninitialised : Int) (stdin : List Char) :
    BuysWhatWasAsked uninitialised stdin ↔ SellsOut stdin := by
  constructor
  · exact sellsOut_of_buysWhatWasAsked
  · rintro ⟨requests, hconverted, hsum⟩ count
    obtain ⟨hpassed, hturns⟩ := @mainLoop_of_sellsOut count Memory.start
      uninitialised stdin requests hconverted hsum
    refine ⟨⟨requests.length, ?_⟩, ?_⟩
    · rwa [hconverted, reduceOption_map_some]
    · exact fun turn hturn hnone => absurd hnone (hturns turn hturn)

/-- One number and the end of the input: the number is bought again. -/
theorem not_buysWhatWasAsked_once :
    ¬ ∀ (uninitialised : Int) (stdin : List Char),
      BuysWhatWasAsked uninitialised stdin := by
  intro hall
  have hnone := (hall 0 ['3', '\n'] 2).2
  exact absurd hnone (by decide)

end StandardInput

end TicketBuyer

end OsCourse
