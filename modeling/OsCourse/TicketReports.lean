/-
The report loop of the ticket office beside the sections of the buyers.  The
loop reads the stock under the mutex, and `PrintTicketReport` reads it again
under the mutex; a section may fall between the two.
-/
import OsCourse.TicketConservation

namespace OsCourse

namespace Tickets

open TransitionSystem

/-- The `STATUS` line of a report. -/
inductive ReportStatus where
  | soldOut
  | ticketsAvailable
deriving Repr, DecidableEq

structure TicketReport where
  tickets : Int
  status : ReportStatus
  transactions : Nat
deriving Repr, DecidableEq

def printTicketReport (memory : Memory) : TicketReport where
  tickets := memory.availableTickets
  status := if memory.availableTickets = 0 then .soldOut else .ticketsAvailable
  transactions := memory.transactions

/-- The statement of the loop that the ticket office is at, with its local
`tickets_available`. -/
inductive LoopPlace where
  | sample
  | count (ticketsAvailable : Int)
  | report
  | exited
deriving Repr, DecidableEq

/-- The sale with the loop of the ticket office; `reports` is the log file. -/
structure ReportLoop (n : Nat) where
  sale : TicketSale n
  place : LoopPlace
  soldOutCount : Nat
  reports : List TicketReport

inductive LoopAction (n : Nat) where
  | ticketOffice
  | buyer (action : BuyerAction n)

namespace ReportLoop

variable {n : Nat}

def start (n : Nat) (memory : Memory) : ReportLoop n :=
  ⟨TicketSale.start n memory, .sample, 0, []⟩

/-- `sold_out_count` after the test of a sample. -/
def countSoldOut (loop : ReportLoop n) (ticketsAvailable : Int) : Nat :=
  if ticketsAvailable = 0 then loop.soldOutCount + 1 else 0

def officeStep (loop : ReportLoop n) : Option (ReportLoop n) :=
  match loop.place with
  | .sample =>
      some { loop with place := .count loop.sale.memory.availableTickets }
  | .count ticketsAvailable => some { loop with
      soldOutCount := loop.countSoldOut ticketsAvailable
      place := if loop.countSoldOut ticketsAvailable ≥ 5 then .exited
        else .report }
  | .report => some { loop with
      reports := loop.reports ++ [printTicketReport loop.sale.memory]
      place := .sample }
  | .exited => none

def step (loop : ReportLoop n) : LoopAction n → Option (ReportLoop n)
  | .ticketOffice => loop.officeStep
  | .buyer action => (loop.sale.step action).map fun sale =>
      { loop with sale := sale }

end ReportLoop

def reportLoop (n : Nat) (memory : Memory) :
    System (ReportLoop n) (LoopAction n) where
  start := ReportLoop.start n memory
  step := ReportLoop.step

/-- The segment may become this one while the buyers go on. -/
structure SellsTo (memory after : Memory) : Prop where
  available : after.availableTickets ≤ memory.availableTickets
  transactions : memory.transactions ≤ after.transactions

theorem SellsTo.refl (memory : Memory) : SellsTo memory memory :=
  ⟨Int.le_refl _, Nat.le_refl _⟩

/-- A section only takes tickets and only adds transactions. -/
theorem buyerSection_sellsTo {memory after : Memory} {tickets : Int}
    {line : BuyerLine} (htickets : 0 ≤ tickets)
    (hsection : buyerSection memory tickets = some (after, line)) :
    SellsTo memory after := by
  unfold buyerSection at hsection
  split at hsection
  · cases hsection
    exact SellsTo.refl memory
  · rcases buyTickets_cases memory tickets with
      ⟨_, _, hsale⟩ | ⟨_, _, hoverrun⟩ | ⟨_, hfail⟩
    · rw [hsale] at hsection
      cases hsection
      exact ⟨Int.sub_le_self _ htickets, Nat.le_succ _⟩
    · rw [hoverrun] at hsection
      contradiction
    · rw [hfail] at hsection
      cases hsection
      exact SellsTo.refl memory

theorem step_sellsTo {n : Nat} {sale next : TicketSale n}
    {action : BuyerAction n} (hbooks : InBooks next)
    (hstep : sale.step action = some next) :
    SellsTo sale.memory next.memory := by
  have hrequest := ticketsToBuy_range action.rand
  rcases TicketSale.step_cases hstep with
    ⟨_, hoverrun⟩ | ⟨memory, line, hsection, hmemory, _⟩
  · rw [hbooks.1] at hoverrun
    contradiction
  · rw [hmemory]
    apply buyerSection_sellsTo _ hsection
    omega

/-- No purchase is for more than five tickets. -/
theorem Books.sold_le {memory : Memory} {sold : List Int}
    (hbooks : Books memory sold) :
    100 - memory.availableTickets ≤ 5 * memory.transactions := by
  have hsum : sold.sum ≤ sold.length • (5 : Int) :=
    List.sum_le_card_nsmul sold 5 fun tickets hmem =>
      (hbooks.requests tickets hmem).2
  have hbalance := hbooks.balance
  rw [Int.nsmul_eq_mul] at hsum
  rw [hbooks.transactions]
  omega

/-- What a report says of itself. -/
structure Truthful (report : TicketReport) : Prop where
  nonneg : 0 ≤ report.tickets
  transactions_le : (report.transactions : Int) ≤ 100 - report.tickets
  sold_le : 100 - report.tickets ≤ 5 * report.transactions
  soldOut_iff : report.status = .soldOut ↔ report.tickets = 0

theorem Books.truthful {memory : Memory} {sold : List Int}
    (hbooks : Books memory sold) : Truthful (printTicketReport memory) where
  nonneg := hbooks.available
  transactions_le := hbooks.transactions_le
  sold_le := hbooks.sold_le
  soldOut_iff := by
    unfold printTicketReport
    split <;> simp [*]

/-- The report is of a segment that has become this one. -/
def Past (memory : Memory) (report : TicketReport) : Prop :=
  memory.availableTickets ≤ report.tickets ∧
    report.transactions ≤ memory.transactions

/-- The second report follows the first. -/
def Follows (earlier later : TicketReport) : Prop :=
  later.tickets ≤ earlier.tickets ∧ earlier.transactions ≤ later.transactions

/-- The reports so far and the segment they are about. -/
structure ReportsOf (memory : Memory) (reports : List TicketReport) : Prop where
  truthful : ∀ report ∈ reports, Truthful report
  past : ∀ report ∈ reports, Past memory report
  ordered : reports.Pairwise Follows

section Reports

variable {memory after : Memory} {reports : List TicketReport}

theorem ReportsOf.sell (hreports : ReportsOf memory reports)
    (hsells : SellsTo memory after) : ReportsOf after reports where
  truthful := hreports.truthful
  past := by
    intro report hmem
    obtain ⟨htickets, htransactions⟩ := hreports.past report hmem
    exact ⟨Int.le_trans hsells.available htickets,
      Nat.le_trans htransactions hsells.transactions⟩
  ordered := hreports.ordered

theorem ReportsOf.print (hreports : ReportsOf memory reports)
    {sold : List Int} (hbooks : Books memory sold) :
    ReportsOf memory (reports ++ [printTicketReport memory]) where
  truthful := by
    intro report hmem
    rcases List.mem_append.mp hmem with hbefore | hlast
    · exact hreports.truthful report hbefore
    · exact List.mem_singleton.mp hlast ▸ hbooks.truthful
  past := by
    intro report hmem
    rcases List.mem_append.mp hmem with hbefore | hlast
    · exact hreports.past report hbefore
    · exact List.mem_singleton.mp hlast ▸ ⟨Int.le_refl _, Nat.le_refl _⟩
  ordered := by
    apply List.pairwise_append.mpr
    refine ⟨hreports.ordered, List.pairwise_singleton _ _, ?_⟩
    intro earlier hearlier later hlater
    rw [List.mem_singleton.mp hlater]
    exact hreports.past earlier hearlier

/-- The reports that say SOLD OUT. -/
def soldOutReports (reports : List TicketReport) : List TicketReport :=
  reports.filter fun report => report.status = .soldOut

theorem mem_soldOutReports {report : TicketReport} :
    report ∈ soldOutReports reports ↔
      report ∈ reports ∧ report.status = .soldOut := by
  simp [soldOutReports]

/-- After a SOLD OUT report nothing is left. -/
theorem ReportsOf.empty_of_soldOut (hreports : ReportsOf memory reports)
    {sold : List Int} (hbooks : Books memory sold)
    (hsoldOut : 0 < (soldOutReports reports).length) :
    memory.availableTickets = 0 := by
  obtain ⟨report, hmem⟩ := List.exists_mem_of_length_pos hsoldOut
  obtain ⟨hreport, hstatus⟩ := mem_soldOutReports.mp hmem
  have hzero := (hreports.truthful report hreport).soldOut_iff.mp hstatus
  have hpast := (hreports.past report hreport).1
  apply Int.le_antisymm (hzero ▸ hpast) hbooks.available

theorem ReportsOf.soldOut_stays (hreports : ReportsOf memory reports) :
    reports.Pairwise fun earlier later =>
      earlier.status = .soldOut → later.status = .soldOut := by
  apply hreports.ordered.imp_of_mem
  intro earlier later hearlier hlater hfollows hsoldOut
  have hzero := (hreports.truthful earlier hearlier).soldOut_iff.mp hsoldOut
  have htruthful := hreports.truthful later hlater
  apply htruthful.soldOut_iff.mpr
  exact Int.le_antisymm (hzero ▸ hfollows.1) htruthful.nonneg

/-- Reports in which SOLD OUT stays end with the SOLD OUT ones. -/
theorem eq_append_soldOutReports
    (hstays : reports.Pairwise fun earlier later =>
      earlier.status = .soldOut → later.status = .soldOut) :
    ∃ before, reports = before ++ soldOutReports reports ∧
      ∀ report ∈ before, report.status = .ticketsAvailable := by
  induction reports with
  | nil => exact ⟨[], rfl, by simp⟩
  | cons report rest ih =>
      obtain ⟨hhead, hrest⟩ := List.pairwise_cons.mp hstays
      cases hstatus : report.status with
      | soldOut =>
          have hall : soldOutReports (report :: rest) = report :: rest := by
            apply List.filter_eq_self.mpr
            intro later hmem
            rcases List.mem_cons.mp hmem with rfl | hlater
            · exact decide_eq_true hstatus
            · exact decide_eq_true (hhead later hlater hstatus)
          exact ⟨[], hall.symm, by simp⟩
      | ticketsAvailable =>
          obtain ⟨before, heq, hbefore⟩ := ih hrest
          have hskip : soldOutReports (report :: rest) =
              soldOutReports rest := by
            simp [soldOutReports, hstatus]
          refine ⟨report :: before, ?_, ?_⟩
          · rw [hskip, List.cons_append, ← heq]
          · intro other hmem
            rcases List.mem_cons.mp hmem with rfl | hother
            · exact hstatus
            · exact hbefore other hother

end Reports

/-- `sold_out_count` against the number of SOLD OUT reports.  The report after
the last sample with tickets may already say SOLD OUT, so there may be one more
of them than is counted. -/
def Counted (memory : Memory) (place : LoopPlace) (count printed : Nat) :
    Prop :=
  match place with
  | .sample => count < 5 ∧ (printed = count ∨ printed = count + 1)
  | .count ticketsAvailable =>
      count < 5 ∧ (printed = count ∨ printed = count + 1) ∧
        (0 < printed → ticketsAvailable = 0) ∧
        (ticketsAvailable = 0 → memory.availableTickets = 0)
  | .report => count < 5 ∧ (count = 0 → printed = 0) ∧
      (0 < count → memory.availableTickets = 0 ∧
        (printed + 1 = count ∨ printed = count))
  | .exited => printed = 4 ∨ printed = 5

variable {n : Nat}

structure Reporting (loop : ReportLoop n) : Prop where
  books : InBooks loop.sale
  reports : ReportsOf loop.sale.memory loop.reports
  counted : Counted loop.sale.memory loop.place loop.soldOutCount
    (soldOutReports loop.reports).length

section Steps

variable {loop next : ReportLoop n}

/-- What is sold out stays sold out while the buyers go on. -/
theorem Counted.sell {memory after : Memory} {place : LoopPlace}
    {count printed : Nat} (hcounted : Counted memory place count printed)
    (hempty : memory.availableTickets = 0 → after.availableTickets = 0) :
    Counted after place count printed := by
  cases place with
  | sample => exact hcounted
  | count ticketsAvailable =>
      obtain ⟨hcount, hprinted, hsample, hzero⟩ := hcounted
      exact ⟨hcount, hprinted, hsample, fun heq => hempty (hzero heq)⟩
  | report =>
      obtain ⟨hcount, hnone, hsome⟩ := hcounted
      exact ⟨hcount, hnone, fun hpos =>
        ⟨hempty (hsome hpos).1, (hsome hpos).2⟩⟩
  | exited => exact hcounted

theorem reporting_buyer (memory : Memory) (hloop : Reporting loop)
    {action : BuyerAction n} {sale : TicketSale n}
    (hstep : loop.sale.step action = some sale) :
    Reporting ({ loop with sale := sale } : ReportLoop n) := by
  have hbooks : InBooks sale :=
    (inBooks_invariant memory).step hloop.books hstep
  have hsells := step_sellsTo hbooks hstep
  refine ⟨hbooks, hloop.reports.sell hsells, hloop.counted.sell ?_⟩
  intro hempty
  exact Int.le_antisymm (hempty ▸ hsells.available) hbooks.2.available

theorem length_soldOutReports_print (reports : List TicketReport)
    (memory : Memory) :
    (soldOutReports (reports ++ [printTicketReport memory])).length =
      (soldOutReports reports).length +
        if memory.availableTickets = 0 then 1 else 0 := by
  unfold soldOutReports printTicketReport
  split <;> simp [*]

theorem reporting_office (hloop : Reporting loop)
    (hstep : loop.officeStep = some next) : Reporting next := by
  have hbooks := hloop.books.2
  have hempty := hloop.reports.empty_of_soldOut hbooks
  have hcounted := hloop.counted
  unfold ReportLoop.officeStep at hstep
  cases hplace : loop.place with
  | sample =>
      simp only [hplace, Option.some.injEq] at hstep
      rw [hplace] at hcounted
      subst next
      exact ⟨hloop.books, hloop.reports, hcounted.1, hcounted.2, hempty, id⟩
  | count ticketsAvailable =>
      simp only [hplace, Option.some.injEq] at hstep
      rw [hplace] at hcounted
      obtain ⟨hcount, hprinted, hsample, hzero⟩ := hcounted
      subst next
      refine ⟨hloop.books, hloop.reports, ?_⟩
      unfold ReportLoop.countSoldOut
      by_cases hsold : ticketsAvailable = 0
      · simp only [if_pos hsold]
        split
        · -- the fifth sample in a row; four reports have followed a sample
          show _ ∨ _
          omega
        · exact ⟨by omega, by omega, fun _ => ⟨hzero hsold, by omega⟩⟩
      · -- a reset only ever sets a count to zero that is zero
        have hnone : (soldOutReports loop.reports).length = 0 :=
          Nat.eq_zero_of_not_pos fun hpos => hsold (hsample hpos)
        simp only [if_neg hsold]
        exact ⟨by decide, fun _ => hnone, by simp⟩
  | report =>
      simp only [hplace, Option.some.injEq] at hstep
      rw [hplace] at hcounted
      obtain ⟨hcount, hnone, hsome⟩ := hcounted
      subst next
      refine ⟨hloop.books, hloop.reports.print hbooks, hcount, ?_⟩
      rw [length_soldOutReports_print]
      rcases Nat.eq_zero_or_pos loop.soldOutCount with hzero | hpos
      · rw [hnone hzero, hzero]
        split <;> simp
      · obtain ⟨havailable, hprinted⟩ := hsome hpos
        rw [if_pos havailable]
        exact hprinted.imp id (congrArg (· + 1))
  | exited => simp [hplace] at hstep

end Steps

theorem reporting_invariant (memory : Memory) :
    Invariant (reportLoop n memory) Reporting where
  start := by
    refine ⟨(inBooks_invariant memory).start, ⟨by simp [reportLoop,
      ReportLoop.start], by simp [reportLoop, ReportLoop.start],
      List.Pairwise.nil⟩, Nat.succ_pos 4, .inl rfl⟩
  step := by
    intro loop next action hloop hstep
    cases action with
    | ticketOffice => exact reporting_office hloop hstep
    | buyer action =>
        obtain ⟨sale, hsale, rfl⟩ := Option.map_eq_some_iff.mp hstep
        exact reporting_buyer memory hloop hsale

/-- The reports of any run are ordered and consistent and end sold out. -/
theorem reports_endSoldOut (memory : Memory) {loop : ReportLoop n}
    (hreach : (reportLoop n memory).Reachable loop) :
    (loop.reports.Pairwise fun earlier later =>
        later.tickets ≤ earlier.tickets ∧
          earlier.transactions ≤ later.transactions) ∧
      (∀ report ∈ loop.reports,
        (report.transactions : Int) ≤ 100 - report.tickets ∧
          100 - report.tickets ≤ 5 * report.transactions) ∧
      (loop.reports.Pairwise fun earlier later =>
        earlier.status = .soldOut → later.status ≠ .ticketsAvailable) ∧
      (loop.place = .exited → ∃ before last,
        loop.reports = before ++ last ∧
          (∀ report ∈ before, report.status = .ticketsAvailable) ∧
          (∀ report ∈ last, report.status = .soldOut) ∧
          (last.length = 4 ∨ last.length = 5)) := by
  have hloop := (reporting_invariant memory).reachable hreach
  have hstays := hloop.reports.soldOut_stays
  refine ⟨hloop.reports.ordered, ?_, ?_, ?_⟩
  · intro report hmem
    have htruthful := hloop.reports.truthful report hmem
    exact ⟨htruthful.transactions_le, htruthful.sold_le⟩
  · apply hstays.imp
    intro earlier later hkeep hsoldOut
    rw [hkeep hsoldOut]
    simp
  · intro hexited
    obtain ⟨before, heq, hbefore⟩ := eq_append_soldOutReports hstays
    refine ⟨before, _, heq, hbefore, ?_, ?_⟩
    · intro report hmem
      exact (mem_soldOutReports.mp hmem).2
    · have hcounted := hloop.counted
      rw [hexited] at hcounted
      exact hcounted

namespace ReportRuns

def buyer : Fin 2 := ⟨0, Nat.two_pos⟩

def fiveTickets : LoopAction 2 := .buyer ⟨buyer, 4⟩

/-- The last tickets are sold between a sample and its report, so five reports
say SOLD OUT. -/
def soldOutBetween : List (LoopAction 2) :=
  List.replicate 19 fiveTickets ++ List.replicate 5 .ticketOffice ++
    [fiveTickets] ++ List.replicate 15 .ticketOffice

end ReportRuns

open TicketRuns ReportRuns

theorem reports_endSoldOut_between :
    ∃ loop, (reportLoop 2 leftover).run soldOutBetween = some loop ∧
      loop.place = .exited ∧
      (∃ before last, loop.reports = before ++ last ∧
        (∀ report ∈ before, report.status = .ticketsAvailable) ∧
        (∀ report ∈ last, report.status = .soldOut) ∧
        (last.length = 4 ∨ last.length = 5)) ∧
      (soldOutReports loop.reports).length = 5 := by
  have hloop : ((reportLoop 2 leftover).run soldOutBetween).map (fun loop =>
      (loop.place, (soldOutReports loop.reports).length)) =
        some (.exited, 5) := by
    decide +kernel
  obtain ⟨loop, hrun, heq⟩ := Option.map_eq_some_iff.mp hloop
  simp only [Prod.mk.injEq] at heq
  obtain ⟨_, _, _, hends⟩ :=
    reports_endSoldOut leftover ⟨soldOutBetween, hrun⟩
  exact ⟨loop, hrun, heq.1, hends heq.1, heq.2⟩

end Tickets

end OsCourse
