/-
The start-up of the ticket office with buyers that attach while it runs: the
five start-up steps and the statements of the buyers' sections in any order.  The
segment starts zero-filled, and a zero-filled mutex is a free one.
-/
import OsCourse.TicketConservation
import OsCourse.Processes

namespace OsCourse

namespace Tickets

open TransitionSystem ThreadPool

/-- The start-up step that the ticket office is at. -/
inductive StartupPlace where
  | createSegment
  | setAvailable
  | setTransactions
  | initMutex
  | clearLog
  | finished
deriving Repr, DecidableEq

/-- `available_tickets` has been set. -/
def StartupPlace.stocked : StartupPlace → Bool
  | .createSegment | .setAvailable => false
  | _ => true

/-- The statement of `BuyerThread` that a buyer is at, with its
`tickets_to_buy`. -/
inductive BuyerPlace where
  | attach
  | drawTickets
  | lock (tickets : Int)
  | testSoldOut (tickets : Int)
  | testRequest (tickets : Int)
  | decrement (tickets : Int)
  | logPurchase (tickets : Int)
  | countTransaction (tickets : Int)
  | printPurchased (tickets : Int)
  | printFailed (tickets : Int)
  | unlock
  | unlockSoldOut
  | returned
deriving Repr, DecidableEq

/-- The segment with its mutex, the ticket office and `n` buyers; `overrun`
records a write outside `purchases_log`. -/
structure Opening (n : Nat) where
  office : StartupPlace
  memory : Memory
  locked : Bool
  buyer : Fin n → BuyerPlace
  printed : List (Fin n × BuyerLine)
  overrun : Bool

/-- `rand` is what the function of that name returns, if the buyer calls it. -/
inductive OpeningAction (n : Nat) where
  | ticketOffice
  | buyer (buyer : Fin n) (rand : Nat)
deriving Repr, DecidableEq

namespace Opening

variable {n : Nat}

def zeroFilled : Memory := ⟨0, Vector.replicate 100 0, 0⟩

def start (n : Nat) : Opening n :=
  ⟨.createSegment, zeroFilled, false, fun _ => .attach, [], false⟩

def goto (opening : Opening n) (buyer : Fin n) (place : BuyerPlace) :
    Opening n :=
  { opening with buyer := Function.update opening.buyer buyer place }

def print (opening : Opening n) (buyer : Fin n) (line : BuyerLine) :
    Opening n :=
  { opening with printed := opening.printed ++ [(buyer, line)] }

/-- `CreateSharedMemory` and the statements of `InitializeSharedMemory`. -/
def officeStep (opening : Opening n) : Option (Opening n) :=
  match opening.office with
  | .createSegment => some { opening with office := .setAvailable }
  | .setAvailable => some { opening with
      memory := { opening.memory with availableTickets := 100 }
      office := .setTransactions }
  | .setTransactions => some { opening with
      memory := { opening.memory with transactions := 0 }
      office := .initMutex }
  | .initMutex => some { opening with locked := false, office := .clearLog }
  | .clearLog => some { opening with
      memory := { opening.memory with purchasesLog := Vector.replicate 100 0 }
      office := .finished }
  | .finished => none

/-- The next statement of a buyer. -/
def buyerStep (opening : Opening n) (buyer : Fin n) (rand : Nat) :
    Option (Opening n) :=
  if opening.overrun then none
  else match opening.buyer buyer with
  | .attach =>
      if opening.office = .createSegment then none
      else some (opening.goto buyer .drawTickets)
  | .drawTickets => some (opening.goto buyer (.lock (ticketsToBuy rand)))
  | .lock tickets =>
      if opening.locked then none
      else some (({ opening with locked := true } : Opening n).goto buyer
        (.testSoldOut tickets))
  | .testSoldOut tickets =>
      some (opening.goto buyer (if opening.memory.availableTickets = 0 then
        .unlockSoldOut else .testRequest tickets))
  | .testRequest tickets =>
      some (opening.goto buyer (if opening.memory.availableTickets ≥ tickets
        then .decrement tickets else .printFailed tickets))
  | .decrement tickets =>
      some (({ opening with memory := { opening.memory with
        availableTickets := opening.memory.availableTickets - tickets } } :
          Opening n).goto buyer (.logPurchase tickets))
  | .logPurchase tickets =>
      if hindex : opening.memory.transactions < 100 then
        some (({ opening with memory := { opening.memory with
          purchasesLog := opening.memory.purchasesLog.set
            opening.memory.transactions tickets hindex } } :
              Opening n).goto buyer (.countTransaction tickets))
      else some { opening with overrun := true }
  | .countTransaction tickets =>
      some (({ opening with memory := { opening.memory with
        transactions := opening.memory.transactions + 1 } } :
          Opening n).goto buyer (.printPurchased tickets))
  | .printPurchased tickets =>
      some ((opening.print buyer
        (.purchased tickets opening.memory.availableTickets)).goto buyer
          .unlock)
  | .printFailed tickets =>
      some ((opening.print buyer
        (.failed tickets opening.memory.availableTickets)).goto buyer .unlock)
  | .unlock =>
      some (({ opening with locked := false } : Opening n).goto buyer
        .drawTickets)
  | .unlockSoldOut =>
      some ((({ opening with locked := false } : Opening n).print buyer
        .noMoreTickets).goto buyer .returned)
  | .returned => none

def step (opening : Opening n) : OpeningAction n → Option (Opening n)
  | .ticketOffice => opening.officeStep
  | .buyer buyer rand => opening.buyerStep buyer rand

end Opening

def opening (n : Nat) : System (Opening n) (OpeningAction n) where
  start := Opening.start n
  step := Opening.step

namespace BuyerPlace

/-- Between the lock and the unlock of the mutex. -/
def inSection : BuyerPlace → Bool
  | .testSoldOut _ | .testRequest _ | .decrement _ | .logPurchase _
  | .countTransaction _ | .printPurchased _ | .printFailed _ | .unlock
  | .unlockSoldOut => true
  | _ => false

/-- The request of a buyer that still may buy. -/
def request : BuyerPlace → Option Int
  | .lock tickets | .testSoldOut tickets | .testRequest tickets
  | .decrement tickets => some tickets
  | _ => none

/-- The buyer has logged a purchase or found no more tickets. -/
def concluded : BuyerPlace → Bool
  | .countTransaction _ | .printPurchased _ | .unlockSoldOut | .returned => true
  | _ => false

/-- What the next statement of the buyer needs has been set up. -/
def mayProceed (office : StartupPlace) : BuyerPlace → Bool
  | .testSoldOut _ => office.stocked
  | .logPurchase _ => office == .finished
  | _ => true

end BuyerPlace

variable {n : Nat}

/-- Once start-up has finished and no buyer is in its section, the tickets are in
the stock or in the log; and no buyer has left its loop before. -/
def LosesNothing (opening : Opening n) : Prop :=
  (opening.office = .finished →
      (∀ buyer, (opening.buyer buyer).inSection = false) →
        opening.memory.availableTickets +
          (opening.memory.purchasesLog.toList.take
            opening.memory.transactions).sum = 100) ∧
    ∀ buyer, opening.buyer buyer = .returned → opening.office = .finished

/-- No buyer tests `available_tickets` before it is set or writes to the log
before it is cleared, and the mutex is not initialised while a buyer holds
it. -/
def FollowsStartup (opening : Opening n) : OpeningAction n → Prop
  | .ticketOffice => opening.office = .initMutex → opening.locked = false
  | .buyer buyer _ => (opening.buyer buyer).mayProceed opening.office = true

instance (opening : Opening n) :
    (action : OpeningAction n) → Decidable (FollowsStartup opening action)
  | .ticketOffice => inferInstanceAs (Decidable (_ → _))
  | .buyer _ _ => inferInstanceAs (Decidable (_ = _))

/-- The books as the holder of the mutex leaves them: a purchase is entered in
three statements, and between them the entry is completed. -/
def SectionBooks (memory : Memory) : BuyerPlace → Prop
  | .decrement tickets => tickets ≤ memory.availableTickets ∧
      ∃ sold, Books memory sold
  | .logPurchase tickets => ∃ hindex : memory.transactions < 100,
      ∃ sold, Books
        { memory with
          purchasesLog :=
            memory.purchasesLog.set memory.transactions tickets hindex
          transactions := memory.transactions + 1 } sold
  | .countTransaction _ => ∃ sold, Books
      { memory with transactions := memory.transactions + 1 } sold
  | _ => ∃ sold, Books memory sold

/-- The request of a buyer at the place is one that `rand` can give. -/
def Ranged (place : BuyerPlace) : Prop :=
  ∀ tickets ∈ place.request, 1 ≤ tickets ∧ tickets ≤ 5

/-- A buyer with the mutex has only just taken it. -/
def AtTest (place : BuyerPlace) : Prop :=
  place.inSection = true → ∃ tickets, place = .testSoldOut tickets

/-- If a buyer at the place holds the mutex, it completes the books. -/
def Settled (memory : Memory) (place : BuyerPlace) : Prop :=
  place.inSection = true → SectionBooks memory place

/-- Nothing has been entered in the log. -/
structure Blank (opening : Opening n) : Prop where
  log : opening.memory.purchasesLog = Vector.replicate 100 0
  transactions : opening.memory.transactions = 0
  early : ∀ buyer, (opening.buyer buyer).concluded = false

/-- The books are right whenever the mutex is free, and its holder is on the way
to right ones. -/
structure InBusiness (opening : Opening n) : Prop where
  holder : ∀ buyer, Settled opening.memory (opening.buyer buyer)
  free : opening.locked = false → ∃ sold, Books opening.memory sold

/-- The sale may begin as soon as the tickets are there; until the log has been
cleared it stays as empty as the segment came. -/
structure Opened (opening : Opening n) : Prop where
  exclusive : Exclusive opening.buyer BuyerPlace.inSection opening.locked
  requests : ∀ buyer, Ranged (opening.buyer buyer)
  overrun : opening.overrun = false
  blank : opening.office ≠ .finished → Blank opening
  waiting : opening.office.stocked = false →
    ∀ buyer, AtTest (opening.buyer buyer)
  inBusiness : opening.office.stocked = true → InBusiness opening

section Moves

variable {opening next : Opening n} {buyer : Fin n} {dest : BuyerPlace}

theorem settled_of_not_inSection {memory : Memory} {place : BuyerPlace}
    (hsection : place.inSection = false) : Settled memory place := by
  intro hinside
  rw [hsection] at hinside
  contradiction

theorem atTest_of_not_inSection {place : BuyerPlace}
    (hsection : place.inSection = false) : AtTest place := by
  intro hinside
  rw [hsection] at hinside
  contradiction

theorem ranged_of_none {place : BuyerPlace} (hrequest : place.request = none) :
    Ranged place := by
  simp [Ranged, hrequest]

/-- A buyer that has concluded a purchase shows that start-up is over. -/
theorem Opened.finished_of_concluded (hopened : Opened opening)
    (hconcluded : (opening.buyer buyer).concluded = true) :
    opening.office = .finished := by
  by_contra hoffice
  have hearly := (hopened.blank hoffice).early buyer
  rw [hconcluded] at hearly
  contradiction

/-- A move that leaves the log as it is. -/
theorem Blank.move (hblank : Blank opening)
    (hplace : next.buyer = Function.update opening.buyer buyer dest)
    (hlog : next.memory.purchasesLog = opening.memory.purchasesLog)
    (htransactions : next.memory.transactions = opening.memory.transactions)
    (hdest : dest.concluded = false) : Blank next where
  log := hlog.trans hblank.log
  transactions := htransactions.trans hblank.transactions
  early := forall_of_update (fun place => place.concluded = false) hplace hdest
    fun other _ => hblank.early other

/-- A move outside the section. -/
theorem Opened.outside (hopened : Opened opening)
    (hhere : (opening.buyer buyer).inSection = false)
    (hthere : dest.inSection = false) (hdest : dest.concluded = false)
    (hrequest : Ranged dest) : Opened (opening.goto buyer dest) where
  exclusive := hopened.exclusive.stay (by rw [hhere, hthere])
  requests := forall_of_update Ranged rfl hrequest
    fun other _ => hopened.requests other
  overrun := hopened.overrun
  blank := fun hoffice => (hopened.blank hoffice).move rfl rfl rfl hdest
  waiting := fun hoffice => forall_of_update AtTest rfl
    (atTest_of_not_inSection hthere)
    fun other _ => hopened.waiting hoffice other
  inBusiness := by
    intro hoffice
    have hbusiness := hopened.inBusiness hoffice
    exact ⟨forall_of_update (Settled opening.memory) rfl
      (settled_of_not_inSection hthere)
      fun other _ => hbusiness.holder other, hbusiness.free⟩

/-- Taking the mutex. -/
theorem Opened.lock {tickets : Int} (hopened : Opened opening)
    (here : opening.buyer buyer = .lock tickets)
    (hfree : opening.locked = false) :
    Opened (({ opening with locked := true } : Opening n).goto buyer
      (.testSoldOut tickets)) where
  exclusive := (hfree ▸ hopened.exclusive).enter rfl
  requests := by
    have hrequest := hopened.requests buyer
    rw [here] at hrequest
    exact forall_of_update Ranged rfl hrequest
      fun other _ => hopened.requests other
  overrun := hopened.overrun
  blank := fun hoffice => (hopened.blank hoffice).move rfl rfl rfl rfl
  waiting := fun hoffice => forall_of_update AtTest rfl
    (fun _ => ⟨tickets, rfl⟩) fun other _ => hopened.waiting hoffice other
  inBusiness := by
    intro hoffice
    have hbusiness := hopened.inBusiness hoffice
    refine ⟨?_, fun hlocked => by simp [Opening.goto] at hlocked⟩
    exact forall_of_update (Settled opening.memory) rfl
      (fun _ => hbusiness.free hfree) fun other _ => hbusiness.holder other

/-- A move of a buyer once the tickets are there. -/
theorem Opened.buyerMove (hopened : Opened opening)
    (hoffice : opening.office.stocked = true)
    (hplace : next.buyer = Function.update opening.buyer buyer dest)
    (hsame : next.office = opening.office)
    (hoverrun : next.overrun = opening.overrun) (hrequest : Ranged dest)
    (hblank : opening.office ≠ .finished → Blank next)
    (hexclusive : Exclusive next.buyer BuyerPlace.inSection next.locked)
    (hbusiness : InBusiness next) : Opened next where
  exclusive := hexclusive
  requests := forall_of_update Ranged hplace hrequest
    fun other _ => hopened.requests other
  overrun := hoverrun.trans hopened.overrun
  blank := fun hunfinished => hblank (hsame ▸ hunfinished)
  waiting := by
    intro hunstocked
    rw [hsame, hoffice] at hunstocked
    contradiction
  inBusiness := fun _ => hbusiness

/-- A statement of the section: only its own buyer is there. -/
theorem Opened.inside (hopened : Opened opening)
    (hoffice : opening.office.stocked = true)
    (hhere : (opening.buyer buyer).inSection = true)
    (hthere : dest.inSection = true)
    (hplace : next.buyer = Function.update opening.buyer buyer dest)
    (hsame : next.office = opening.office)
    (hlocked : next.locked = opening.locked)
    (hoverrun : next.overrun = opening.overrun) (hrequest : Ranged dest)
    (hblank : opening.office ≠ .finished → Blank next)
    (hbooks : SectionBooks next.memory dest) : Opened next := by
  apply hopened.buyerMove hoffice hplace hsame hoverrun hrequest hblank
  · rw [hplace, hlocked]
    exact hopened.exclusive.stay (by rw [hhere, hthere])
  · constructor
    · apply forall_of_update (Settled next.memory) hplace fun _ => hbooks
      intro other hne hinside
      exact absurd (hopened.exclusive.unique hhere hinside) hne
    · intro hfree
      rw [hlocked, hopened.exclusive.locked_of_inside hhere] at hfree
      contradiction

/-- Giving the mutex back. -/
theorem Opened.leave (hopened : Opened opening)
    (hoffice : opening.office.stocked = true)
    (hhere : (opening.buyer buyer).inSection = true)
    (hthere : dest.inSection = false) (hrequest : Ranged dest)
    (hplace : next.buyer = Function.update opening.buyer buyer dest)
    (hsame : next.office = opening.office) (hlocked : next.locked = false)
    (hoverrun : next.overrun = opening.overrun)
    (hblank : opening.office ≠ .finished → Blank next)
    (hbooks : ∃ sold, Books next.memory sold) : Opened next := by
  apply hopened.buyerMove hoffice hplace hsame hoverrun hrequest hblank
  · rw [hplace, hlocked]
    exact hopened.exclusive.leave hhere hthere
  · refine ⟨?_, fun _ => hbooks⟩
    apply forall_of_update (Settled next.memory) hplace
      (settled_of_not_inSection hthere)
    intro other hne hinside
    exact absurd (hopened.exclusive.unique hhere hinside) hne

/-- A step of the office that changes nothing that matters to the sale. -/
theorem Opened.officeMove (hopened : Opened opening)
    (hunfinished : opening.office ≠ .finished)
    (hbuyer : next.buyer = opening.buyer)
    (hmemory : next.memory = opening.memory)
    (hlocked : next.locked = opening.locked)
    (hoverrun : next.overrun = opening.overrun)
    (hstocked : next.office.stocked = opening.office.stocked) :
    Opened next where
  exclusive := by rw [hbuyer, hlocked]; exact hopened.exclusive
  requests := by rw [hbuyer]; exact hopened.requests
  overrun := hoverrun.trans hopened.overrun
  blank := by
    intro _
    have hblank := hopened.blank hunfinished
    exact ⟨hmemory ▸ hblank.log, hmemory ▸ hblank.transactions,
      hbuyer ▸ hblank.early⟩
  waiting := by rw [hbuyer, hstocked]; exact hopened.waiting
  inBusiness := by
    intro hsale
    have hbusiness := hopened.inBusiness (hstocked ▸ hsale)
    constructor
    · rw [hbuyer, hmemory]
      exact hbusiness.holder
    · rw [hlocked, hmemory]
      exact hbusiness.free

end Moves

section Steps

variable {opening next : Opening n} {buyer : Fin n} {rand : Nat}

/-- Attaching, drawing a number and taking the mutex. -/
theorem opened_buyer_outside (hopened : Opened opening)
    (houtside : (opening.buyer buyer).inSection = false)
    (hstep : opening.buyerStep buyer rand = some next) : Opened next := by
  rw [Opening.buyerStep, if_neg (by simp [hopened.overrun])] at hstep
  cases hplace : opening.buyer buyer with
  | attach =>
      simp only [hplace, Option.ite_none_left_eq_some,
        Option.some.injEq] at hstep
      obtain ⟨_, rfl⟩ := hstep
      exact hopened.outside houtside rfl rfl (ranged_of_none rfl)
  | drawTickets =>
      simp only [hplace, Option.some.injEq] at hstep
      subst next
      apply hopened.outside houtside rfl rfl
      intro tickets hmem
      rw [BuyerPlace.request, Option.mem_some_iff] at hmem
      exact hmem ▸ ticketsToBuy_range rand
  | lock tickets =>
      simp only [hplace, Option.ite_none_left_eq_some,
        Option.some.injEq] at hstep
      obtain ⟨hfree, rfl⟩ := hstep
      exact hopened.lock hplace (Bool.eq_false_iff.mpr hfree)
  | returned => simp [hplace] at hstep
  | testSoldOut _
  | testRequest _
  | decrement _
  | logPurchase _
  | countTransaction _
  | printPurchased _
  | printFailed _
  | unlock
  | unlockSoldOut => simp [hplace, BuyerPlace.inSection] at houtside

/-- A buyer does not get past its first test before the tickets are there. -/
theorem Opened.stocked_of_inside (hopened : Opened opening)
    (hinside : (opening.buyer buyer).inSection = true)
    (hfollows : FollowsStartup opening (.buyer buyer rand)) :
    opening.office.stocked = true := by
  cases hstocked : opening.office.stocked with
  | true => rfl
  | false =>
      obtain ⟨tickets, hplace⟩ := hopened.waiting hstocked buyer hinside
      simp [FollowsStartup, hplace, BuyerPlace.mayProceed, hstocked] at hfollows

/-- The first buyer does not find the tickets sold out. -/
theorem Opened.finished_of_soldOut (hopened : Opened opening)
    {sold : List Int} (hbooks : Books opening.memory sold)
    (hempty : opening.memory.availableTickets = 0) :
    opening.office = .finished := by
  by_contra hoffice
  have hlength := hbooks.transactions
  have hbalance := hbooks.balance
  rw [(hopened.blank hoffice).transactions] at hlength
  rw [List.eq_nil_of_length_eq_zero hlength.symm, hempty] at hbalance
  contradiction

/-- The statements of the section. -/
theorem opened_buyer_inside (hopened : Opened opening)
    (hfollows : FollowsStartup opening (.buyer buyer rand))
    (hinside : (opening.buyer buyer).inSection = true)
    (hstep : opening.buyerStep buyer rand = some next) : Opened next := by
  have hoffice := hopened.stocked_of_inside hinside hfollows
  have hsettled := (hopened.inBusiness hoffice).holder buyer hinside
  have hranged := hopened.requests buyer
  have hfinished : (opening.buyer buyer).concluded = true →
      opening.office = .finished := hopened.finished_of_concluded
  rw [Opening.buyerStep, if_neg (by simp [hopened.overrun])] at hstep
  cases hplace : opening.buyer buyer with
  | testSoldOut tickets =>
      simp only [hplace, Option.some.injEq] at hstep
      rw [hplace] at hsettled hranged
      obtain ⟨sold, hbooks⟩ := hsettled
      subst next
      split
      · rename_i hempty
        exact hopened.inside hoffice hinside rfl rfl rfl rfl rfl
          (ranged_of_none rfl)
          (absurd (hopened.finished_of_soldOut hbooks hempty)) ⟨sold, hbooks⟩
      · exact hopened.inside hoffice hinside rfl rfl rfl rfl rfl hranged
          (fun hopen => (hopened.blank hopen).move rfl rfl rfl rfl)
          ⟨sold, hbooks⟩
  | testRequest tickets =>
      simp only [hplace, Option.some.injEq] at hstep
      rw [hplace] at hsettled hranged
      subst next
      split
      · rename_i henough
        exact hopened.inside hoffice hinside rfl rfl rfl rfl rfl hranged
          (fun hopen => (hopened.blank hopen).move rfl rfl rfl rfl)
          ⟨henough, hsettled⟩
      · exact hopened.inside hoffice hinside rfl rfl rfl rfl rfl
          (ranged_of_none rfl)
          (fun hopen => (hopened.blank hopen).move rfl rfl rfl rfl) hsettled
  | decrement tickets =>
      simp only [hplace, Option.some.injEq] at hstep
      rw [hplace] at hsettled hranged
      subst next
      obtain ⟨henough, sold, hbooks⟩ := hsettled
      have hrequest : 1 ≤ tickets ∧ tickets ≤ 5 := hranged tickets rfl
      have hindex : opening.memory.transactions < 100 :=
        hbooks.transactions_lt (by omega)
      exact hopened.inside hoffice hinside rfl rfl rfl rfl rfl
        (ranged_of_none rfl)
        (fun hopen => (hopened.blank hopen).move rfl rfl rfl rfl)
        ⟨hindex, sold ++ [tickets], hbooks.sale hrequest henough hindex⟩
  | logPurchase tickets =>
      rw [hplace] at hsettled
      simp only [FollowsStartup, hplace, BuyerPlace.mayProceed,
        beq_iff_eq] at hfollows
      obtain ⟨hindex, hbooks⟩ := hsettled
      simp only [hplace, hindex, dite_true, Option.some.injEq] at hstep
      subst next
      exact hopened.inside hoffice hinside rfl rfl rfl rfl rfl
        (ranged_of_none rfl) (absurd hfollows) hbooks
  | countTransaction tickets =>
      simp only [hplace, Option.some.injEq] at hstep
      rw [hplace] at hsettled hfinished
      subst next
      exact hopened.inside hoffice hinside rfl rfl rfl rfl rfl
        (ranged_of_none rfl) (absurd (hfinished rfl)) hsettled
  | printPurchased tickets =>
      simp only [hplace, Option.some.injEq] at hstep
      rw [hplace] at hsettled hfinished
      subst next
      exact hopened.inside hoffice hinside rfl rfl rfl rfl rfl
        (ranged_of_none rfl) (absurd (hfinished rfl)) hsettled
  | printFailed tickets =>
      simp only [hplace, Option.some.injEq] at hstep
      rw [hplace] at hsettled
      subst next
      exact hopened.inside hoffice hinside rfl rfl rfl rfl rfl
        (ranged_of_none rfl)
        (fun hopen => (hopened.blank hopen).move rfl rfl rfl rfl) hsettled
  | unlock =>
      simp only [hplace, Option.some.injEq] at hstep
      rw [hplace] at hsettled
      subst next
      exact hopened.leave hoffice hinside rfl (ranged_of_none rfl) rfl rfl
        rfl rfl (fun hopen => (hopened.blank hopen).move rfl rfl rfl rfl)
        hsettled
  | unlockSoldOut =>
      simp only [hplace, Option.some.injEq] at hstep
      rw [hplace] at hsettled hfinished
      subst next
      exact hopened.leave hoffice hinside rfl (ranged_of_none rfl) rfl rfl
        rfl rfl (absurd (hfinished rfl)) hsettled
  | attach
  | drawTickets
  | lock _
  | returned => simp [hplace, BuyerPlace.inSection] at hinside

/-- Setting `available_tickets` turns the blank segment into open books. -/
theorem Blank.books (hblank : Blank opening) :
    Books { opening.memory with availableTickets := 100 } [] where
  log := hblank.log ▸ BoundedLog.Holds.empty 100 0
  transactions := hblank.transactions
  balance := rfl
  available := Int.le.intro 100 rfl
  positive := by simp
  atMost := by simp

/-- The start-up steps.  Besides the tickets they only set what is already
there. -/
theorem opened_office (hopened : Opened opening)
    (hfollows : FollowsStartup opening .ticketOffice)
    (hstep : opening.officeStep = some next) : Opened next := by
  unfold Opening.officeStep at hstep
  cases hoffice : opening.office with
  | createSegment =>
      simp only [hoffice, Option.some.injEq] at hstep
      subst next
      exact hopened.officeMove (by simp [hoffice]) rfl rfl rfl rfl
        (by rw [hoffice]; rfl)
  | setAvailable =>
      have hblank := hopened.blank (by simp [hoffice])
      simp only [hoffice, Option.some.injEq] at hstep
      subst next
      refine ⟨hopened.exclusive, hopened.requests, hopened.overrun,
        fun _ => ⟨hblank.log, hblank.transactions, hblank.early⟩,
        fun hunstocked => by simp [StartupPlace.stocked] at hunstocked,
        fun _ => ⟨fun buyer hinside => ?_, fun _ => ⟨[], hblank.books⟩⟩⟩
      obtain ⟨tickets, htest⟩ := hopened.waiting (by rw [hoffice]; rfl) buyer
        hinside
      simp only [htest]
      exact ⟨[], hblank.books⟩
  | setTransactions =>
      have hblank := hopened.blank (by simp [hoffice])
      simp only [hoffice, Option.some.injEq] at hstep
      subst next
      exact hopened.officeMove (by simp [hoffice]) rfl
        (by simp only [← hblank.transactions]) rfl rfl (by rw [hoffice]; rfl)
  | initMutex =>
      simp only [hoffice, Option.some.injEq] at hstep
      subst next
      exact hopened.officeMove (by simp [hoffice]) rfl rfl
        (hfollows hoffice).symm rfl (by rw [hoffice]; rfl)
  | clearLog =>
      have hblank := hopened.blank (by simp [hoffice])
      simp only [hoffice, Option.some.injEq] at hstep
      subst next
      exact hopened.officeMove (by simp [hoffice]) rfl
        (by simp only [← hblank.log]) rfl rfl (by rw [hoffice]; rfl)
  | finished => simp [hoffice] at hstep

end Steps

/-- If no buyer disturbs start-up, the books are in order ever after. -/
theorem opened_invariant :
    InvariantUnder (opening n) FollowsStartup Opened where
  start := by
    refine ⟨countAt_eq_zero_iff.mpr fun _ => rfl, fun _ => ranged_of_none rfl,
      rfl, fun _ => ⟨rfl, rfl, fun _ => rfl⟩,
      fun _ _ => atTest_of_not_inSection rfl, fun hstocked => ?_⟩
    simp [opening, Opening.start, StartupPlace.stocked] at hstocked
  step := by
    intro state next action hopened hfollows hstep
    cases action with
    | ticketOffice => exact opened_office hopened hfollows hstep
    | buyer buyer rand =>
        cases hsection : (state.buyer buyer).inSection with
        | false => exact opened_buyer_outside hopened hsection hstep
        | true => exact opened_buyer_inside hopened hfollows hsection hstep

theorem Opened.losesNothing {state : Opening n} (hopened : Opened state) :
    LosesNothing state := by
  constructor
  · intro hoffice hquiet
    have hcount : countAt state.buyer BuyerPlace.inSection = 0 :=
      countAt_eq_zero_iff.mpr hquiet
    have hfree : state.locked = false := by
      have hexclusive := hopened.exclusive
      rw [Exclusive, hcount] at hexclusive
      cases hlocked : state.locked with
      | false => rfl
      | true => simp [hlocked] at hexclusive
    obtain ⟨sold, hbooks⟩ :=
      (hopened.inBusiness (by rw [hoffice]; rfl)).free hfree
    rw [hbooks.transactions, hbooks.log.take]
    exact hbooks.balance
  · intro buyer hreturned
    exact hopened.finished_of_concluded (by rw [hreturned]; rfl)

/-- In every run in which the buyers follow start-up, no sale is lost and no
buyer is sent away. -/
theorem startup_losesNothing {schedule : List (OpeningAction n)}
    (hmeets : (opening n).Meets FollowsStartup schedule) :
    (opening n).Always LosesNothing schedule := by
  intro pre hpre state hstate
  have hopened : Opened state :=
    opened_invariant.always hmeets pre hpre state hstate
  exact hopened.losesNothing

namespace OpeningRuns

def firstBuyer : Fin 2 := ⟨0, Nat.two_pos⟩

def secondBuyer : Fin 2 := ⟨1, Nat.one_lt_two⟩

def office (steps : Nat) : List (OpeningAction 2) :=
  List.replicate steps .ticketOffice

def buyer (buyer : Fin 2) (steps : Nat) : List (OpeningAction 2) :=
  List.replicate steps (.buyer buyer 4)

/-- A buyer is in its section when the log is cleared; a second one waits. -/
def duringStartup : List (OpeningAction 2) :=
  office 1 ++ buyer secondBuyer 2 ++ office 3 ++ buyer firstBuyer 6 ++
    office 1 ++ buyer firstBuyer 4 ++ buyer secondBuyer 9

/-- A purchase of five tickets between the mutex and the log. -/
def boughtTooEarly : List (OpeningAction 2) :=
  office 4 ++ buyer firstBuyer 10 ++ office 1

/-- A buyer that comes before the tickets. -/
def cameTooEarly : List (OpeningAction 2) := office 1 ++ buyer firstBuyer 5

end OpeningRuns

open OpeningRuns

theorem startup_losesNothing_duringStartup :
    (opening 2).Always LosesNothing duringStartup ∧
      ((opening 2).run duringStartup).map (fun state =>
        (state.memory.availableTickets, state.memory.transactions)) =
          some (90, 2) :=
  ⟨startup_losesNothing (by decide +kernel), by decide +kernel⟩

/-- Five tickets are neither in the stock nor in the log after start-up; and a
buyer has left with nothing in the middle of it. -/
theorem startup_loses :
    (∃ state, (opening 2).run boughtTooEarly = some state ∧
      state.office = .finished ∧
      (∀ buyer, (state.buyer buyer).inSection = false) ∧
      state.memory.availableTickets +
        (state.memory.purchasesLog.toList.take
          state.memory.transactions).sum = 95) ∧
      (∃ state, (opening 2).run cameTooEarly = some state ∧
        state.buyer firstBuyer = .returned ∧ state.office = .setAvailable) ∧
      ¬ ∀ (n : Nat) (state : Opening n), (opening n).Reachable state →
        LosesNothing state := by
  have hbought : ∃ state, (opening 2).run boughtTooEarly = some state ∧
      state.office = .finished ∧
      (∀ buyer, (state.buyer buyer).inSection = false) ∧
      state.memory.availableTickets +
        (state.memory.purchasesLog.toList.take
          state.memory.transactions).sum = 95 := by
    refine ⟨_, rfl, ?_⟩
    decide +kernel
  refine ⟨hbought, ⟨_, rfl, by decide +kernel⟩, ?_⟩
  intro hall
  obtain ⟨state, hrun, hoffice, hquiet, hsum⟩ := hbought
  have hbalance := (hall 2 state ⟨boughtTooEarly, hrun⟩).1 hoffice hquiet
  rw [hsum] at hbalance
  contradiction

end Tickets

end OsCourse
