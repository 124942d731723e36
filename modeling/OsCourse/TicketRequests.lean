/-
`BuyTickets` of the mutex version as its header exports it: called with any
requests, not only with those of `BuyerThread`.  It tests only that so many
tickets are available, which a request for nothing or less always passes.
-/
import OsCourse.TicketConservation

namespace OsCourse

namespace Tickets

open TransitionSystem

/-- Calls of `BuyTickets` on the segment that `InitializeSharedMemory` leaves; no
step is a write outside the log. -/
def ticketCalls (memory : Memory) : System Memory Int where
  start := initializeSharedMemory memory
  step memory ticketsToBuy := (buyTickets memory ticketsToBuy).map Prod.fst

/-- The books of the segment, read off its log. -/
structure InOrder (memory : Memory) : Prop where
  available : 0 ≤ memory.availableTickets ∧ memory.availableTickets ≤ 100
  balance : memory.availableTickets +
    (memory.purchasesLog.toList.take memory.transactions).sum = 100
  purchases : ∀ tickets ∈ memory.purchasesLog.toList.take memory.transactions,
    0 < tickets

/-- No call writes outside the log, and the books are in order after each. -/
def KeepsBooks (memory : Memory) (requests : List Int) : Prop :=
  ∀ pre, pre <+: requests → ∃ after,
    (ticketCalls memory).run pre = some after ∧ InOrder after

section Calls

variable {memory after : Memory} {sold : List Int} {tickets : Int}

theorem Recorded.inOrder (hrecorded : Recorded memory sold) :
    InOrder memory := by
  have htransactions := hrecorded.transactions_le
  have havailable := hrecorded.available
  have hlog : memory.purchasesLog.toList.take memory.transactions = sold := by
    rw [hrecorded.transactions, hrecorded.log.take]
  refine ⟨⟨havailable, by omega⟩, ?_, ?_⟩
  · rw [hlog]
    exact hrecorded.balance
  · rw [hlog]
    exact hrecorded.positive

/-- Calls for at least one ticket each are recorded one after the other. -/
theorem recorded_run {requests : List Int}
    (hpositive : ∀ tickets ∈ requests, 0 < tickets) :
    ∃ after sold, (ticketCalls memory).run requests = some after ∧
      Recorded after sold := by
  have hfrom : ∀ before sold, Recorded before sold →
      ∃ after sold, (ticketCalls memory).runFrom before requests =
        some after ∧ Recorded after sold := by
    induction requests with
    | nil => exact fun before sold hbefore => ⟨before, sold, rfl, hbefore⟩
    | cons tickets rest ih =>
        intro before sold hbefore
        rw [List.forall_mem_cons] at hpositive
        obtain ⟨next, line, hcall, hnext⟩ := hbefore.buyTickets hpositive.1
        have hstep : (ticketCalls memory).step before tickets = some next := by
          simp only [ticketCalls, hcall, Option.map_some]
        obtain ⟨after, sold, hrun, hafter⟩ := ih hpositive.2 next _ hnext
        refine ⟨after, sold, ?_, hafter⟩
        exact System.runFrom_cons_eq_some.mpr ⟨next, hstep, hrun⟩
  exact hfrom _ _ (recorded_initializeSharedMemory memory)

/-- The entry that a sale writes is among the recorded purchases. -/
theorem mem_log_of_sale {slots : Vector Int 100} {index : Nat}
    (hindex : index < 100) :
    tickets ∈ (slots.set index tickets hindex).toList.take (index + 1) := by
  have hlength : index < (slots.toList.set index tickets).length := by
    simpa using hindex
  rw [Vector.toList_set, List.take_succ_eq_append_getElem hlength,
    List.mem_append]
  right
  simp

/-- A request for nothing or less is always granted and recorded. -/
theorem positive_of_inOrder (hbefore : InOrder memory)
    (hcall : (ticketCalls memory).step memory tickets = some after)
    (hafter : InOrder after) : 0 < tickets := by
  by_contra hrequest
  have havailable := hbefore.available.1
  rcases buyTickets_cases memory tickets with
    ⟨hindex, _, hsale⟩ | ⟨_, _, hfull⟩ | ⟨hfew, _⟩
  · simp only [ticketCalls, hsale, Option.map_some, Option.some.injEq] at hcall
    subst after
    exact hrequest (hafter.purchases tickets (mem_log_of_sale hindex))
  · simp [ticketCalls, hfull] at hcall
  · omega

end Calls

/-- The books are kept exactly if every request is for at least one ticket. -/
theorem keepsBooks_iff (memory : Memory) (requests : List Int) :
    KeepsBooks memory requests ↔ ∀ tickets ∈ requests, 0 < tickets := by
  constructor
  · intro hkeeps tickets hmem
    obtain ⟨front, back, rfl⟩ := List.append_of_mem hmem
    obtain ⟨before, hfront, hbefore⟩ := hkeeps front ⟨_, rfl⟩
    obtain ⟨after, hrun, hafter⟩ := hkeeps (front ++ [tickets]) ⟨back, by simp⟩
    rw [System.run_append_eq_some hfront,
      System.runFrom_cons_eq_some] at hrun
    obtain ⟨next, hcall, hnext⟩ := hrun
    obtain rfl := Option.some.inj hnext
    exact positive_of_inOrder hbefore hcall hafter
  · intro hpositive pre hpre
    obtain ⟨after, sold, hrun, hafter⟩ := @recorded_run memory pre
      fun tickets hmem => hpositive tickets (hpre.mem hmem)
    exact ⟨after, hrun, hafter.inOrder⟩

/-- A negative purchase raises the number of available tickets. -/
theorem not_keepsBooks_negative :
    ¬ ∀ (memory : Memory) (requests : List Int),
      KeepsBooks memory requests := by
  intro hall
  obtain ⟨after, hrun, hafter⟩ :=
    hall ⟨0, Vector.replicate 100 0, 0⟩ [-5] [-5] List.prefix_rfl
  have havailable : ((ticketCalls ⟨0, Vector.replicate 100 0, 0⟩).run
      [-5]).map (fun memory => memory.availableTickets) = some 105 := by
    decide +kernel
  rw [hrun, Option.map_some, Option.some.injEq] at havailable
  have hbound := hafter.available.2
  omega

end Tickets

end OsCourse
