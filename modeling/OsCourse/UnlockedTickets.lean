/-
The ticket homework without a mutex: any number of buyers and the ticket office
on one segment, where every statement that reads or writes the segment is a step
of its own.  The amounts are integers; no run comes near the bounds of an `int`
before the stock is oversold.
-/
import OsCourse.TransitionSystem
import OsCourse.Processes

namespace OsCourse

namespace UnlockedTickets

open TransitionSystem ThreadPool

/-- `struct memory`. -/
structure Memory where
  availableTickets : Int
  purchasedTickets : Int
  transactions : Int
deriving Repr, DecidableEq

/-- What the ticket office stores before its loop. -/
def Memory.start : Memory := ⟨20, 0, 0⟩

/-- Where a buyer is: at the guard of the loop in `main`, at its `scanf`, or at
a statement of `BuyTickets` with `tickets_to_buy`. -/
inductive BuyerPlace where
  | loopGuard
  | scanf
  | clipTest (tickets : Int)
  | clip
  | subtract (tickets : Int)
  | addPurchased (tickets : Int)
  | countTransaction (tickets : Int)
  | printPurchase (tickets : Int)
  | returned
deriving Repr, DecidableEq

inductive BuyerLine where
  | invalidNumber
  | purchased (tickets available : Int)
  | noMoreTickets
deriving Repr, DecidableEq

/-- Where the ticket office is: at the guard of its loop or at a line of a
report, which is the closing one after the loop. -/
inductive OfficePlace where
  | loopGuard
  | purchasedLine (closing : Bool)
  | availableLine (closing : Bool)
  | transactionsLine (closing : Bool)
  | returned
deriving Repr, DecidableEq

inductive OfficeLine where
  | purchasedTickets (tickets : Int)
  | availableTickets (tickets : Int)
  | transactions (count : Int)
  | soldOut
deriving Repr, DecidableEq

structure Sale (n : Nat) where
  memory : Memory
  buyer : Fin n → BuyerPlace
  printed : List (Fin n × BuyerLine)
  office : OfficePlace
  report : List OfficeLine

/-- `requested` is what `scanf` stores, if the buyer is there. -/
inductive SaleAction (n : Nat) where
  | buyer (buyer : Fin n) (requested : Int)
  | ticketOffice
deriving Repr, DecidableEq

namespace Sale

variable {n : Nat}

def start (n : Nat) : Sale n :=
  ⟨Memory.start, fun _ => .loopGuard, [], .loopGuard, []⟩

def goto (sale : Sale n) (buyer : Fin n) (place : BuyerPlace) : Sale n :=
  { sale with buyer := Function.update sale.buyer buyer place }

def print (sale : Sale n) (buyer : Fin n) (line : BuyerLine) : Sale n :=
  { sale with printed := sale.printed ++ [(buyer, line)] }

/-- The next statement of a buyer. -/
def buyerStep (sale : Sale n) (buyer : Fin n) (requested : Int) :
    Option (Sale n) :=
  match sale.buyer buyer with
  | .loopGuard =>
      if sale.memory.availableTickets > 0 then some (sale.goto buyer .scanf)
      else some ((sale.print buyer .noMoreTickets).goto buyer .returned)
  | .scanf =>
      if requested ≤ 0 then
        some ((sale.print buyer .invalidNumber).goto buyer .loopGuard)
      else some (sale.goto buyer (.clipTest (if requested > 5 then 5
        else requested)))
  | .clipTest tickets =>
      some (sale.goto buyer (if tickets > sale.memory.availableTickets then
        .clip else .subtract tickets))
  | .clip => some (sale.goto buyer (.subtract sale.memory.availableTickets))
  | .subtract tickets =>
      some (({ sale with memory := { sale.memory with
        availableTickets := sale.memory.availableTickets - tickets } } :
          Sale n).goto buyer (.addPurchased tickets))
  | .addPurchased tickets =>
      some (({ sale with memory := { sale.memory with
        purchasedTickets := sale.memory.purchasedTickets + tickets } } :
          Sale n).goto buyer (.countTransaction tickets))
  | .countTransaction tickets =>
      some (({ sale with memory := { sale.memory with
        transactions := sale.memory.transactions + 1 } } :
          Sale n).goto buyer (.printPurchase tickets))
  | .printPurchase tickets =>
      some ((sale.print buyer
        (.purchased tickets sale.memory.availableTickets)).goto buyer
          .loopGuard)
  | .returned => none

/-- The next statement of the ticket office. -/
def officeStep (sale : Sale n) : Option (Sale n) :=
  match sale.office with
  | .loopGuard => some { sale with
      office := .purchasedLine (decide (sale.memory.availableTickets ≤ 0)) }
  | .purchasedLine closing => some { sale with
      report := sale.report ++
        [.purchasedTickets sale.memory.purchasedTickets]
      office := .availableLine closing }
  | .availableLine closing => some { sale with
      report := sale.report ++
        [.availableTickets sale.memory.availableTickets]
      office := .transactionsLine closing }
  | .transactionsLine closing => some { sale with
      report := sale.report ++ [.transactions sale.memory.transactions] ++
        (if closing then [.soldOut] else [])
      office := if closing then .returned else .loopGuard }
  | .returned => none

def step (sale : Sale n) : SaleAction n → Option (Sale n)
  | .buyer buyer requested => sale.buyerStep buyer requested
  | .ticketOffice => sale.officeStep

end Sale

def ticketSale (n : Nat) : System (Sale n) (SaleAction n) where
  start := Sale.start n
  step := Sale.step

namespace BuyerPlace

/-- In a call of `BuyTickets`. -/
def inBuyTickets : BuyerPlace → Bool
  | .clipTest _ | .clip | .subtract _ | .addPurchased _ | .countTransaction _
  | .printPurchase _ => true
  | _ => false

/-- Tickets that have been taken and not yet counted as purchased. -/
def taken : BuyerPlace → Int
  | .addPurchased tickets => tickets
  | _ => 0

/-- The tickets that the next statement takes out of the stock. -/
def subtracting : BuyerPlace → Option Int
  | .subtract tickets => some tickets
  | _ => none

/-- `tickets_to_buy` where it still enters the segment. -/
def ticketsToBuy : BuyerPlace → Int
  | .clipTest tickets | .subtract tickets | .addPurchased tickets => tickets
  | _ => 0

theorem taken_of_not_inBuyTickets {place : BuyerPlace}
    (hplace : place.inBuyTickets = false) : place.taken = 0 := by
  cases place <;> simp_all [inBuyTickets, taken]

end BuyerPlace

section Steps

variable {n : Nat} {sale next : Sale n} {buyer : Fin n} {requested : Int}

/-- What one statement of a buyer does to the tickets: nothing, or it takes them
out of the stock, or it counts them as purchased. -/
inductive BuyerEffect (sale : Sale n) (buyer : Fin n) : Sale n → Prop
  | quiet {next : Sale n} {dest : BuyerPlace}
      (place : next.buyer = Function.update sale.buyer buyer dest)
      (available : next.memory.availableTickets =
        sale.memory.availableTickets)
      (purchased : next.memory.purchasedTickets =
        sale.memory.purchasedTickets)
      (here : (sale.buyer buyer).taken = 0) (there : dest.taken = 0)
      (stay : (sale.buyer buyer).subtracting = none)
      (request : 0 ≤ sale.memory.availableTickets →
        0 ≤ (sale.buyer buyer).ticketsToBuy → 0 ≤ dest.ticketsToBuy) :
      BuyerEffect sale buyer next
  | subtract {tickets : Int} (here : sale.buyer buyer = .subtract tickets) :
      BuyerEffect sale buyer (({ sale with memory := { sale.memory with
        availableTickets := sale.memory.availableTickets - tickets } } :
          Sale n).goto buyer (.addPurchased tickets))
  | addPurchased {tickets : Int}
      (here : sale.buyer buyer = .addPurchased tickets) :
      BuyerEffect sale buyer (({ sale with memory := { sale.memory with
        purchasedTickets := sale.memory.purchasedTickets + tickets } } :
          Sale n).goto buyer (.countTransaction tickets))

theorem buyerStep_effect
    (hstep : sale.buyerStep buyer requested = some next) :
    BuyerEffect sale buyer next := by
  cases hplace : sale.buyer buyer with
  | loopGuard =>
      simp only [Sale.buyerStep, hplace] at hstep
      split at hstep
      · obtain rfl := Option.some.inj hstep
        exact .quiet rfl rfl rfl (by rw [hplace]; rfl) rfl
          (by rw [hplace]; rfl) (fun _ _ => Int.le_refl 0)
      · obtain rfl := Option.some.inj hstep
        exact .quiet rfl rfl rfl (by rw [hplace]; rfl) rfl
          (by rw [hplace]; rfl) (fun _ _ => Int.le_refl 0)
  | scanf =>
      simp only [Sale.buyerStep, hplace] at hstep
      split at hstep
      · obtain rfl := Option.some.inj hstep
        exact .quiet rfl rfl rfl (by rw [hplace]; rfl) rfl
          (by rw [hplace]; rfl) (fun _ _ => Int.le_refl 0)
      · rename_i hpositive
        obtain rfl := Option.some.inj hstep
        refine .quiet rfl rfl rfl (by rw [hplace]; rfl) rfl
          (by rw [hplace]; rfl) (fun _ _ => ?_)
        simp only [BuyerPlace.ticketsToBuy]
        split <;> omega
  | clipTest tickets =>
      simp only [Sale.buyerStep, hplace, Option.some.injEq] at hstep
      subst next
      refine .quiet rfl rfl rfl (by rw [hplace]; rfl) ?_ (by rw [hplace]; rfl)
        (fun _ hrequest => ?_)
      · split <;> rfl
      · rw [hplace] at hrequest
        split
        · exact Int.le_refl 0
        · exact hrequest
  | clip =>
      simp only [Sale.buyerStep, hplace, Option.some.injEq] at hstep
      subst next
      exact .quiet rfl rfl rfl (by rw [hplace]; rfl) rfl (by rw [hplace]; rfl)
        (fun havailable _ => havailable)
  | subtract tickets =>
      simp only [Sale.buyerStep, hplace, Option.some.injEq] at hstep
      exact hstep ▸ .subtract hplace
  | addPurchased tickets =>
      simp only [Sale.buyerStep, hplace, Option.some.injEq] at hstep
      exact hstep ▸ .addPurchased hplace
  | countTransaction tickets =>
      simp only [Sale.buyerStep, hplace, Option.some.injEq] at hstep
      subst next
      exact .quiet rfl rfl rfl (by rw [hplace]; rfl) rfl (by rw [hplace]; rfl)
        (fun _ _ => Int.le_refl 0)
  | printPurchase tickets =>
      simp only [Sale.buyerStep, hplace, Option.some.injEq] at hstep
      subst next
      exact .quiet rfl rfl rfl (by rw [hplace]; rfl) rfl (by rw [hplace]; rfl)
        (fun _ _ => Int.le_refl 0)
  | returned => simp [Sale.buyerStep, hplace] at hstep

/-- The ticket office only reads the segment. -/
theorem officeStep_frame (hstep : sale.officeStep = some next) :
    next.memory = sale.memory ∧ next.buyer = sale.buyer := by
  cases hplace : sale.office with
  | loopGuard
  | purchasedLine closing
  | availableLine closing
  | transactionsLine closing =>
      simp only [Sale.officeStep, hplace, Option.some.injEq] at hstep
      subst next
      exact ⟨rfl, rfl⟩
  | returned => simp [Sale.officeStep, hplace] at hstep

end Steps

variable {n : Nat}

/-- Every ticket is available, purchased or taken by a buyer that has not counted
it yet. -/
def Balance (sale : Sale n) : Prop :=
  sale.memory.availableTickets + sale.memory.purchasedTickets +
    totalAt sale.buyer BuyerPlace.taken = 20

theorem balance_invariant : Invariant (ticketSale n) Balance where
  start := by
    have htaken : totalAt (Sale.start n).buyer BuyerPlace.taken = 0 :=
      totalAt_eq_zero fun _ => rfl
    change (20 : Int) + 0 + totalAt (Sale.start n).buyer _ = 20
    rw [htaken]
    rfl
  step := by
    intro sale next action hinv hstep
    unfold Balance at hinv ⊢
    cases action with
    | buyer buyer requested =>
        have htaken := totalAt_update sale.buyer BuyerPlace.taken buyer
        cases buyerStep_effect hstep with
        | @quiet _ dest place available purchased here there _ _ =>
            have hdest := htaken dest
            rw [here, there, ← place] at hdest
            rw [available, purchased]
            omega
        | @subtract tickets here =>
            have hdest := htaken (.addPurchased tickets)
            rw [here] at hdest
            simp only [BuyerPlace.taken] at hdest
            simp only [Sale.goto]
            omega
        | @addPurchased tickets here =>
            have hdest := htaken (.countTransaction tickets)
            rw [here] at hdest
            simp only [BuyerPlace.taken] at hdest
            simp only [Sale.goto]
            omega
    | ticketOffice =>
        obtain ⟨hmemory, hbuyer⟩ := officeStep_frame hstep
        rw [hmemory, hbuyer]
        exact hinv

/-- No buyer is in a call of `BuyTickets`. -/
def Quiescent (sale : Sale n) : Prop :=
  ∀ buyer, (sale.buyer buyer).inBuyTickets = false

/-- Nothing is oversold, and between calls the books agree. -/
def WithinStock (sale : Sale n) : Prop :=
  0 ≤ sale.memory.availableTickets ∧ sale.memory.purchasedTickets ≤ 20 ∧
    (Quiescent sale → sale.memory.availableTickets +
      sale.memory.purchasedTickets = 20)

/-- Tickets are taken only while that many are available. -/
def SubtractsAvailable (sale : Sale n) : SaleAction n → Prop
  | .buyer buyer _ => ∀ tickets ∈ (sale.buyer buyer).subtracting,
      tickets ≤ sale.memory.availableTickets
  | .ticketOffice => True

instance (sale : Sale n) :
    (action : SaleAction n) → Decidable (SubtractsAvailable sale action)
  | .buyer buyer _ => inferInstanceAs (Decidable
      (∀ tickets ∈ (sale.buyer buyer).subtracting,
        tickets ≤ sale.memory.availableTickets))
  | .ticketOffice => isTrue trivial

/-- The stock is not negative, and no buyer takes a negative number from it. -/
structure Stocked (sale : Sale n) : Prop where
  available : 0 ≤ sale.memory.availableTickets
  requests : ∀ buyer, 0 ≤ (sale.buyer buyer).ticketsToBuy

theorem stocked_start : Stocked (ticketSale n).start :=
  ⟨Int.le.intro 20 rfl, fun _ => Int.le_refl 0⟩

theorem Stocked.requests_update {sale next : Sale n} {buyer : Fin n}
    {dest : BuyerPlace} (hstocked : Stocked sale)
    (hplace : next.buyer = Function.update sale.buyer buyer dest)
    (hdest : 0 ≤ dest.ticketsToBuy) (other : Fin n) :
    0 ≤ (next.buyer other).ticketsToBuy := by
  rw [hplace]
  by_cases heq : other = buyer
  · subst other
    rw [Function.update_self]
    exact hdest
  · rw [Function.update_of_ne heq]
    exact hstocked.requests other

/-- One step keeps the stock exactly if it takes no more than is available. -/
theorem stocked_step {sale next : Sale n} {action : SaleAction n}
    (hstocked : Stocked sale)
    (hstep : (ticketSale n).step sale action = some next) :
    Stocked next ↔ SubtractsAvailable sale action := by
  cases action with
  | ticketOffice =>
      obtain ⟨hmemory, hbuyer⟩ := officeStep_frame hstep
      exact iff_of_true
        ⟨hmemory ▸ hstocked.available, hbuyer ▸ hstocked.requests⟩ trivial
  | buyer buyer requested =>
      have hrequest := hstocked.requests buyer
      cases buyerStep_effect hstep with
      | @quiet _ dest place available _ _ _ stay request =>
          refine iff_of_true ⟨?_, ?_⟩ (by simp [SubtractsAvailable, stay])
          · rw [available]
            exact hstocked.available
          · exact hstocked.requests_update place
              (request hstocked.available hrequest)
      | @subtract tickets here =>
          simp only [SubtractsAvailable, here, BuyerPlace.subtracting,
            Option.mem_some_iff, forall_eq']
          rw [here] at hrequest
          constructor
          · intro hnext
            have havailable := hnext.available
            simp only [Sale.goto] at havailable
            omega
          · intro henough
            exact ⟨Int.sub_nonneg_of_le henough,
              hstocked.requests_update rfl hrequest⟩
      | @addPurchased tickets here =>
          refine iff_of_true ⟨hstocked.available, ?_⟩ ?_
          · exact hstocked.requests_update rfl (Int.le_refl 0)
          · simp [SubtractsAvailable, here, BuyerPlace.subtracting]

theorem stocked_always_iff {schedule : List (SaleAction n)} {last : Sale n}
    (hrun : (ticketSale n).run schedule = some last) :
    (ticketSale n).Always Stocked schedule ↔
      (ticketSale n).Meets SubtractsAvailable schedule :=
  always_iff_meets balance_invariant stocked_start
    (fun _ hstocked hstep => stocked_step hstocked hstep) hrun

/-- While the stock is not negative, no buyer comes to take a negative
number. -/
theorem stocked_of_available :
    InvariantUnder (ticketSale n)
      (fun sale _ => 0 ≤ sale.memory.availableTickets)
      (fun sale => ∀ buyer, 0 ≤ (sale.buyer buyer).ticketsToBuy) where
  start := stocked_start.requests
  step := by
    intro sale next action hrequests havailable hstep
    have hstocked : Stocked sale := ⟨havailable, hrequests⟩
    cases action with
    | ticketOffice =>
        rw [(officeStep_frame hstep).2]
        exact hrequests
    | buyer buyer requested =>
        have hrequest := hrequests buyer
        cases buyerStep_effect hstep with
        | @quiet _ dest place _ _ _ _ _ request =>
            exact hstocked.requests_update place
              (request havailable hrequest)
        | @subtract tickets here =>
            rw [here] at hrequest
            exact hstocked.requests_update rfl hrequest
        | @addPurchased tickets here =>
            exact hstocked.requests_update rfl (Int.le_refl 0)

theorem withinStock_of_stocked {sale : Sale n} (hbalance : Balance sale)
    (hstocked : Stocked sale) : WithinStock sale := by
  have htaken : 0 ≤ totalAt sale.buyer BuyerPlace.taken := by
    apply totalAt_nonneg
    intro buyer
    have hrequest := hstocked.requests buyer
    cases hplace : sale.buyer buyer with
    | addPurchased tickets => rwa [hplace] at hrequest
    | loopGuard
    | scanf
    | clipTest _
    | clip
    | subtract _
    | countTransaction _
    | printPurchase _
    | returned => exact Int.le_refl 0
  have havailable := hstocked.available
  unfold Balance at hbalance
  refine ⟨havailable, by omega, fun hquiet => ?_⟩
  have hnone : totalAt sale.buyer BuyerPlace.taken = 0 :=
    totalAt_eq_zero fun buyer =>
      BuyerPlace.taken_of_not_inBuyTickets (hquiet buyer)
  omega

/-- A run never oversells, and its books agree between calls, exactly when every
subtraction finds the tickets available. -/
theorem withinStock_iff {schedule : List (SaleAction n)} {last : Sale n}
    (hrun : (ticketSale n).run schedule = some last) :
    (ticketSale n).Always WithinStock schedule ↔
      (ticketSale n).Meets SubtractsAvailable schedule := by
  rw [← stocked_always_iff hrun]
  constructor
  · intro halways
    have havailable : (ticketSale n).Always
        (fun sale => 0 ≤ sale.memory.availableTickets) schedule :=
      fun pre hpre sale hsale => (halways pre hpre sale hsale).1
    have hrequests := stocked_of_available.always (meets_of_always havailable)
    exact fun pre hpre sale hsale =>
      ⟨havailable pre hpre sale hsale, hrequests pre hpre sale hsale⟩
  · intro halways pre hpre sale hsale
    exact withinStock_of_stocked (balance_invariant.run hsale)
      (halways pre hpre sale hsale)

namespace SaleRuns

/-- One buyer through a request that need not be clipped to the stock. -/
def purchase (buyer : Fin 2) (requested : Int) : List (SaleAction 2) :=
  List.replicate 7 (.buyer buyer requested)

def firstBuyer : Fin 2 := ⟨0, Nat.two_pos⟩

def secondBuyer : Fin 2 := ⟨1, Nat.one_lt_two⟩

/-- Both buyers pass the test on the last five tickets before either takes
them. -/
def lastTicketsTwice : List (SaleAction 2) :=
  purchase firstBuyer 9 ++ purchase firstBuyer 5 ++ purchase firstBuyer 5 ++
    List.replicate 3 (.buyer firstBuyer 5) ++
    List.replicate 3 (.buyer secondBuyer 5) ++
    [.buyer firstBuyer 5, .buyer secondBuyer 5]

/-- One buyer buys everything, asking for more than is left at the end, and the
office closes. -/
def soldOut : List (SaleAction 2) :=
  purchase firstBuyer 9 ++ purchase firstBuyer 5 ++ purchase firstBuyer 4 ++
    purchase firstBuyer 3 ++ List.replicate 8 (.buyer firstBuyer 5) ++
    [.buyer firstBuyer 1, .buyer secondBuyer 1] ++
    List.replicate 4 .ticketOffice

end SaleRuns

open SaleRuns

/-- Buying everything one request after the other. -/
theorem withinStock_iff_soldOut :
    (ticketSale 2).Always WithinStock soldOut := by
  have hrun : ((ticketSale 2).run soldOut).isSome := by decide +kernel
  obtain ⟨last, hlast⟩ := Option.isSome_iff_exists.mp hrun
  exact (withinStock_iff hlast).mpr (by decide +kernel)

/-- Twenty-five tickets sold of twenty. -/
theorem oversold_reachable :
    ¬ ∀ (n : Nat) (sale : Sale n), (ticketSale n).Reachable sale →
      WithinStock sale := by
  intro hall
  have hstock : ((ticketSale 2).run lastTicketsTwice).map
      (fun sale => sale.memory.availableTickets) = some (-5) := by
    decide +kernel
  obtain ⟨sale, hrun, hsale⟩ := Option.map_eq_some_iff.mp hstock
  have hwithin := hall 2 sale ⟨lastTicketsTwice, hrun⟩
  have havailable := hwithin.1
  omega

end UnlockedTickets

end OsCourse
