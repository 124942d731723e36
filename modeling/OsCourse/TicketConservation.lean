/-
The books of the ticket office: the log holds exactly the purchases that the
buyers were told of, and these and the available tickets add up to 100.  Every
sale takes at least one ticket, so the log cannot overflow.
-/
import Mathlib
import OsCourse.TicketOffice

namespace OsCourse

namespace Tickets

open TransitionSystem

/-- The segment after purchases of at least one ticket each, of any size. -/
structure Recorded (memory : Memory) (sold : List Int) : Prop where
  log : BoundedLog.Holds memory.purchasesLog 0 sold
  transactions : memory.transactions = sold.length
  balance : memory.availableTickets + sold.sum = 100
  available : 0 ≤ memory.availableTickets
  positive : ∀ tickets ∈ sold, 1 ≤ tickets

theorem recorded_initializeSharedMemory (memory : Memory) :
    Recorded (initializeSharedMemory memory) [] :=
  ⟨BoundedLog.Holds.empty 100 0, rfl, rfl, Int.le.intro 100 rfl, by simp⟩

/-- The segment after purchases that the buyers of the office can make. -/
structure Books (memory : Memory) (sold : List Int) : Prop
    extends Recorded memory sold where
  atMost : ∀ tickets ∈ sold, tickets ≤ 5

theorem books_initializeSharedMemory (memory : Memory) :
    Books (initializeSharedMemory memory) [] :=
  ⟨recorded_initializeSharedMemory memory, by simp⟩

section Sections

variable {memory : Memory} {sold : List Int} {tickets : Int}

/-- Each logged purchase has taken at least one ticket. -/
theorem Recorded.transactions_le (hrecorded : Recorded memory sold) :
    memory.transactions ≤ 100 - memory.availableTickets := by
  have hsum : sold.length • (1 : Int) ≤ sold.sum :=
    List.card_nsmul_le_sum sold 1 hrecorded.positive
  have hbalance := hrecorded.balance
  rw [Int.nsmul_eq_mul, Int.mul_one] at hsum
  rw [hrecorded.transactions]
  omega

theorem Recorded.transactions_lt (hrecorded : Recorded memory sold)
    (havailable : 0 < memory.availableTickets) :
    memory.transactions < 100 := by
  have hle := hrecorded.transactions_le
  omega

/-- A sale is recorded as the last entry. -/
theorem Recorded.sale (hrecorded : Recorded memory sold)
    (hrequest : 1 ≤ tickets)
    (havailable : tickets ≤ memory.availableTickets)
    (hindex : memory.transactions < 100) :
    Recorded
      { availableTickets := memory.availableTickets - tickets
        purchasesLog :=
          memory.purchasesLog.set memory.transactions tickets hindex
        transactions := memory.transactions + 1 } (sold ++ [tickets]) where
  log := by
    have hfree : sold.length < 100 := hrecorded.transactions ▸ hindex
    have hpush := hrecorded.log.push hfree tickets
    simpa only [hrecorded.transactions] using hpush
  transactions := by simp [hrecorded.transactions]
  balance := by
    have hbalance := hrecorded.balance
    rw [List.sum_append, List.sum_singleton]
    simp only
    omega
  available := Int.sub_nonneg_of_le havailable
  positive := by
    intro sale hmem
    rcases List.mem_append.mp hmem with hbefore | hlast
    · exact hrecorded.positive sale hbefore
    · rw [List.mem_singleton.mp hlast]
      exact hrequest

/-- A call sells what was requested or nothing. -/
theorem sold_of_buyTickets {after : Memory} {line : BuyerLine}
    (hbuys : Tickets.buyTickets memory tickets = some (after, line)) :
    ∀ sale ∈ line.sold, sale = tickets := by
  rcases buyTickets_cases memory tickets with
    ⟨_, _, hsale⟩ | ⟨_, _, hnone⟩ | ⟨_, hfail⟩
  · cases hbuys.symm.trans hsale
    rintro sale ⟨⟩
    rfl
  · cases hbuys.symm.trans hnone
  · cases hbuys.symm.trans hfail
    simp [BuyerLine.sold]

/-- A call never writes outside the log, and what it sells is what it prints. -/
theorem Recorded.buyTickets (hrecorded : Recorded memory sold)
    (hrequest : 1 ≤ tickets) :
    ∃ after line, Tickets.buyTickets memory tickets = some (after, line) ∧
      Recorded after (sold ++ line.sold.toList) := by
  rcases buyTickets_cases memory tickets with
    ⟨hindex, havailable, hsale⟩ | ⟨hfull, havailable, _⟩ | ⟨_, hfail⟩
  · exact ⟨_, _, hsale, hrecorded.sale hrequest havailable hindex⟩
  · have hlt := hrecorded.transactions_lt (by omega)
    omega
  · exact ⟨_, _, hfail, by simpa [BuyerLine.sold] using hrecorded⟩

theorem Books.requests (hbooks : Books memory sold) :
    ∀ tickets ∈ sold, 1 ≤ tickets ∧ tickets ≤ 5 := fun tickets hmem =>
  ⟨hbooks.positive tickets hmem, hbooks.atMost tickets hmem⟩

theorem Recorded.books {after : Memory} {more : List Int}
    (hrecorded : Recorded after (sold ++ more)) (hbooks : Books memory sold)
    (hmore : ∀ tickets ∈ more, tickets ≤ 5) : Books after (sold ++ more) := by
  refine ⟨hrecorded, fun sale hmem => ?_⟩
  rcases List.mem_append.mp hmem with hbefore | hlater
  · exact hbooks.atMost sale hbefore
  · exact hmore sale hlater

/-- A sale enters the books as their last entry. -/
theorem Books.sale (hbooks : Books memory sold)
    (hrequest : 1 ≤ tickets ∧ tickets ≤ 5)
    (havailable : tickets ≤ memory.availableTickets)
    (hindex : memory.transactions < 100) :
    Books
      { availableTickets := memory.availableTickets - tickets
        purchasesLog :=
          memory.purchasesLog.set memory.transactions tickets hindex
        transactions := memory.transactions + 1 } (sold ++ [tickets]) :=
  (hbooks.toRecorded.sale hrequest.1 havailable hindex).books hbooks
    (by simpa using hrequest.2)

theorem Books.buyTickets (hbooks : Books memory sold)
    (hrequest : 1 ≤ tickets ∧ tickets ≤ 5) :
    ∃ after line, Tickets.buyTickets memory tickets = some (after, line) ∧
      Books after (sold ++ line.sold.toList) := by
  obtain ⟨after, line, hbuys, hafter⟩ :=
    hbooks.toRecorded.buyTickets hrequest.1
  refine ⟨after, line, hbuys, hafter.books hbooks fun sale hmem => ?_⟩
  rw [sold_of_buyTickets hbuys sale (Option.mem_toList.mp hmem)]
  exact hrequest.2

theorem Books.buyerSection (hbooks : Books memory sold)
    (hrequest : 1 ≤ tickets ∧ tickets ≤ 5) :
    ∃ after line, Tickets.buyerSection memory tickets = some (after, line) ∧
      Books after (sold ++ line.sold.toList) := by
  unfold Tickets.buyerSection
  split
  · exact ⟨_, _, rfl, by simpa [BuyerLine.sold] using hbooks⟩
  · exact hbooks.buyTickets hrequest

end Sections

variable {n : Nat}

/-- The purchases that the buyers were told of, in order. -/
def TicketSale.sold (sale : TicketSale n) : List Int :=
  sale.printed.filterMap fun (_, line) => line.sold

/-- No section has written outside the log, and the segment holds the purchases
that were printed. -/
def InBooks (sale : TicketSale n) : Prop :=
  sale.overrun = false ∧ Books sale.memory sale.sold

theorem inBooks_invariant (memory : Memory) :
    Invariant (ticketSale n memory) InBooks where
  start := ⟨rfl, books_initializeSharedMemory memory⟩
  step := by
    intro sale next action hinv hstep
    rcases hinv with ⟨_, hbooks⟩
    obtain ⟨after, line, hsection, hafter⟩ :=
      hbooks.buyerSection (ticketsToBuy_range action.rand)
    rcases TicketSale.step_cases hstep with
      ⟨hnone, _⟩ | ⟨memory', line', hsome, hmemory, hprinted, hoverrun⟩
    · rw [hsection] at hnone
      contradiction
    · rw [hsection, Option.some.injEq, Prod.mk.injEq] at hsome
      rcases hsome with ⟨rfl, rfl⟩
      have hsold : next.sold = sale.sold ++ line.sold.toList := by
        unfold TicketSale.sold
        rw [hprinted, List.filterMap_append]
        cases hline : line.sold <;> simp [hline]
      refine ⟨hoverrun, ?_⟩
      rw [hmemory, hsold]
      exact hafter

/-- Along any run of any number of buyers the tickets are conserved and the log
is written only inside its bounds. -/
theorem tickets_conserved (memory : Memory) {sale : TicketSale n}
    (hreach : (ticketSale n memory).Reachable sale) :
    (0 ≤ sale.memory.availableTickets ∧
        sale.memory.availableTickets ≤ 100) ∧
      (sale.memory.transactions ≤ 100 ∧
        sale.memory.availableTickets +
          (sale.memory.purchasesLog.toList.take
            sale.memory.transactions).sum = 100) ∧
      (∀ (i : Nat) (hi : i < 100),
        (i < sale.memory.transactions →
          1 ≤ sale.memory.purchasesLog[i] ∧
            sale.memory.purchasesLog[i] ≤ 5) ∧
        (sale.memory.transactions ≤ i → sale.memory.purchasesLog[i] = 0)) ∧
      sale.overrun = false ∧
      (0 < sale.memory.availableTickets →
        sale.memory.transactions < 100) := by
  obtain ⟨hoverrun, hbooks⟩ := (inBooks_invariant memory).reachable hreach
  have htransactions := hbooks.transactions_le
  refine ⟨⟨hbooks.available, by omega⟩, ⟨?_, ?_⟩, ?_, hoverrun,
    hbooks.transactions_lt⟩
  · rw [hbooks.transactions]
    exact hbooks.log.length_le
  · rw [hbooks.transactions, hbooks.log.take]
    exact hbooks.balance
  · intro i hi
    rw [hbooks.transactions]
    exact ⟨fun hlogged => hbooks.requests _ (hbooks.log.mem_of_lt hi hlogged),
      hbooks.log.eq_fill_of_le hi⟩

namespace TicketRuns

/-- A segment with old content. -/
def leftover : Memory := ⟨7, Vector.replicate 100 9, 42⟩

/-- Twenty sales of five tickets each by two of three buyers; the third finds
no more tickets. -/
def soldOut : List (BuyerAction 3) :=
  List.replicate 10 ⟨0, 4⟩ ++ List.replicate 10 ⟨1, 9⟩ ++ [⟨2, 0⟩]

end TicketRuns

open TicketRuns

theorem tickets_conserved_soldOut :
    ∃ sale, (ticketSale 3 leftover).run soldOut = some sale ∧
      sale.buying 2 = false ∧ sale.memory.transactions = 20 ∧
      sale.memory.availableTickets +
        (sale.memory.purchasesLog.toList.take
          sale.memory.transactions).sum = 100 ∧
      sale.overrun = false := by
  have hsale : ((ticketSale 3 leftover).run soldOut).map (fun sale =>
      (sale.buying 2, sale.memory.transactions)) = some (false, 20) := by
    decide +kernel
  obtain ⟨sale, hrun, heq⟩ := Option.map_eq_some_iff.mp hsale
  simp only [Prod.mk.injEq] at heq
  obtain ⟨_, ⟨_, hsum⟩, _, hoverrun, _⟩ :=
    tickets_conserved leftover ⟨soldOut, hrun⟩
  exact ⟨sale, hrun, heq.1, heq.2, hsum, hoverrun⟩

end Tickets

end OsCourse
