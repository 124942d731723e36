/-
The shared segment of the ticket office and the buyers that use it.  Every
access is inside the mutex of the segment, so one locked section of a
`BuyerThread` is one step.
-/
import OsCourse.TransitionSystem
import OsCourse.BoundedLog

namespace OsCourse

namespace Tickets

open TransitionSystem

/-- The fields of `struct memory` besides its mutex. -/
structure Memory where
  availableTickets : Int
  purchasesLog : Vector Int 100
  transactions : Nat
deriving Repr, DecidableEq

def initializeSharedMemory (memory : Memory) : Memory :=
  { memory with
    availableTickets := 100
    transactions := 0
    purchasesLog := Vector.replicate 100 0 }

/-- What a buyer prints at the end of a section. -/
inductive BuyerLine where
  | purchased (tickets remaining : Int)
  | failed (tickets available : Int)
  | noMoreTickets
deriving Repr, DecidableEq

/-- The locked section of `BuyTickets`; `none` is a write outside
`purchases_log`. -/
def buyTickets (memory : Memory) (ticketsToBuy : Int) :
    Option (Memory × BuyerLine) :=
  if memory.availableTickets ≥ ticketsToBuy then
    let available := memory.availableTickets - ticketsToBuy
    if hindex : memory.transactions < 100 then
      some
        ({ availableTickets := available
           purchasesLog :=
             memory.purchasesLog.set memory.transactions ticketsToBuy hindex
           transactions := memory.transactions + 1 },
          .purchased ticketsToBuy available)
    else none
  else some (memory, .failed ticketsToBuy memory.availableTickets)

/-- The locked section of `BuyerThread`: it repeats the section of `BuyTickets`
after a test for sold out. -/
def buyerSection (memory : Memory) (ticketsToBuy : Int) :
    Option (Memory × BuyerLine) :=
  if memory.availableTickets = 0 then some (memory, .noMoreTickets)
  else buyTickets memory ticketsToBuy

/-- `(rand() % 5) + 1`. -/
def ticketsToBuy (rand : Nat) : Int := rand % 5 + 1

/-- The segment and `n` buyer threads; `overrun` records that a section wrote
outside `purchases_log`. -/
structure TicketSale (n : Nat) where
  memory : Memory
  buying : Fin n → Bool
  printed : List (Fin n × BuyerLine)
  overrun : Bool

/-- One locked section of a buyer, with the number that `rand` returned. -/
structure BuyerAction (n : Nat) where
  buyer : Fin n
  rand : Nat

namespace TicketSale

variable {n : Nat}

def start (n : Nat) (memory : Memory) : TicketSale n :=
  ⟨initializeSharedMemory memory, fun _ => true, [], false⟩

/-- A buyer that finds no more tickets leaves its loop.  Nothing is promised
after a write outside the log, so nothing runs after one. -/
def step (sale : TicketSale n) (action : BuyerAction n) :
    Option (TicketSale n) :=
  if sale.buying action.buyer && !sale.overrun then
    match buyerSection sale.memory (ticketsToBuy action.rand) with
    | none => some { sale with overrun := true }
    | some (memory, line) =>
        some
          { memory := memory
            buying := if line = .noMoreTickets then
                Function.update sale.buying action.buyer false
              else sale.buying
            printed := sale.printed ++ [(action.buyer, line)]
            overrun := false }
  else none

end TicketSale

/-- `n` buyers on the segment that `InitializeSharedMemory` leaves. -/
def ticketSale (n : Nat) (memory : Memory) :
    System (TicketSale n) (BuyerAction n) where
  start := TicketSale.start n memory
  step := TicketSale.step

section Sections

variable {memory next : Memory} {line : BuyerLine} {tickets : Int}

/-- The purchases that success lines report. -/
def BuyerLine.sold : BuyerLine → Option Int
  | .purchased tickets _ => some tickets
  | _ => none

/-- The three outcomes of the section of `BuyTickets`. -/
theorem buyTickets_cases (memory : Memory) (tickets : Int) :
    (∃ hindex : memory.transactions < 100,
        tickets ≤ memory.availableTickets ∧
        buyTickets memory tickets = some
          ({ availableTickets := memory.availableTickets - tickets
             purchasesLog :=
               memory.purchasesLog.set memory.transactions tickets hindex
             transactions := memory.transactions + 1 },
            .purchased tickets (memory.availableTickets - tickets))) ∨
      (100 ≤ memory.transactions ∧ tickets ≤ memory.availableTickets ∧
        buyTickets memory tickets = none) ∨
      (memory.availableTickets < tickets ∧ buyTickets memory tickets =
        some (memory, .failed tickets memory.availableTickets)) := by
  by_cases havailable : tickets ≤ memory.availableTickets
  · by_cases hindex : memory.transactions < 100
    · exact .inl ⟨hindex, havailable, by
        simp [buyTickets, havailable, hindex]⟩
    · exact .inr (.inl ⟨Nat.le_of_not_lt hindex, havailable, by
        simp [buyTickets, havailable, hindex]⟩)
  · exact .inr (.inr ⟨Int.not_le.mp havailable, by
      simp [buyTickets, havailable]⟩)

end Sections

theorem ticketsToBuy_range (rand : Nat) :
    1 ≤ ticketsToBuy rand ∧ ticketsToBuy rand ≤ 5 := by
  unfold ticketsToBuy
  omega

theorem TicketSale.step_cases {n : Nat} {sale next : TicketSale n}
    {action : BuyerAction n} (hstep : sale.step action = some next) :
    (buyerSection sale.memory (ticketsToBuy action.rand) = none ∧
        next.overrun = true) ∨
      ∃ memory line,
        buyerSection sale.memory (ticketsToBuy action.rand) =
          some (memory, line) ∧
        next.memory = memory ∧
        next.printed = sale.printed ++ [(action.buyer, line)] ∧
        next.overrun = false := by
  unfold TicketSale.step at hstep
  split at hstep
  · split at hstep
    · rename_i hsection
      exact .inl ⟨hsection, by rw [← Option.some.inj hstep]⟩
    · rename_i memory line hsection
      obtain rfl := Option.some.inj hstep
      exact .inr ⟨memory, line, hsection, rfl, rfl, rfl⟩
  · contradiction

end Tickets

end OsCourse
