/-
What `is_prime` of the queue workers decides: with exact squares it is the test
for primes, and with 64-bit squares it is the same test on every number whose
guard stays inside the type.
-/
import OsCourse.DecimalText
import OsCourse.TrialDivision
import Mathlib.Data.Nat.Prime.Basic
import Mathlib.NumberTheory.LucasPrimality
import Mathlib.Tactic.NormNum.Prime
import Mathlib.Tactic.ReduceModChar

namespace OsCourse

namespace PrimeQueue

open DecimalText

def exactSquare (i : Int) : Int :=
  i * i

/-- The number is a prime. -/
def PrimeNumber (number : Int) : Prop :=
  ∃ p : Nat, p.Prime ∧ number = p

section Decision

variable {number i : Int} {fuel : Nat}

theorem primeNumber_iff (hnumber : 2 ≤ number) :
    PrimeNumber number ↔ ∀ d, 2 ≤ d → d * d ≤ number → ¬ d ∣ number := by
  obtain ⟨p, rfl⟩ := Int.eq_ofNat_of_zero_le (show 0 ≤ number by omega)
  have hprime : PrimeNumber p ↔ p.Prime := by
    constructor
    · rintro ⟨q, hq, heq⟩
      rwa [Int.ofNat_inj.mp heq]
    · intro hp
      exact ⟨p, hp, rfl⟩
  rw [hprime, Nat.prime_def_le_sqrt]
  constructor
  · rintro ⟨-, hnone⟩ d hd hsquare hdvd
    obtain ⟨m, rfl⟩ := Int.eq_ofNat_of_zero_le (show 0 ≤ d by omega)
    refine hnone m (by omega) (Nat.le_sqrt.mpr ?_) (Int.ofNat_dvd.mp hdvd)
    exact_mod_cast hsquare
  · intro hnone
    refine ⟨by omega, ?_⟩
    intro m hm hle hdvd
    have hsquare := Nat.le_sqrt.mp hle
    exact hnone m (by omega) (by exact_mod_cast hsquare)
      (Int.ofNat_dvd.mpr hdvd)

/-- From a divisor on, the loop tells whether no divisor up to the square root is
left. -/
theorem isPrimeLoop_exact (hi : 2 ≤ i) (hfuel : number < i + fuel)
    (hmore : i ≤ number) :
    isPrimeLoop exactSquare number fuel i = some 1 ↔
      ∀ d, i ≤ d → d * d ≤ number → ¬ d ∣ number := by
  induction fuel generalizing i with
  | zero => omega
  | succ fuel ih =>
      rw [isPrimeLoop]
      split
      · rename_i hguard
        rw [exactSquare] at hguard
        have hnext : i + 1 ≤ number := by nlinarith
        split
        · rename_i hdivides
          constructor
          · intro hresult
            simp at hresult
          · intro hnone
            exact absurd (Int.dvd_of_tmod_eq_zero hdivides)
              (hnone i le_rfl hguard)
        · rename_i hdivides
          rw [ih (by omega) (by omega) hnext]
          constructor
          · intro hnone d hd hsquare
            rcases hd.eq_or_lt with rfl | hlt
            · intro hdvd
              exact hdivides (Int.tmod_eq_zero_of_dvd hdvd)
            · exact hnone d (by omega) hsquare
          · intro hnone d hd
            exact hnone d (by omega)
      · rename_i hguard
        rw [exactSquare] at hguard
        constructor
        · intro _ d hd hsquare
          nlinarith
        · intro _
          rfl

/-- `is_prime` always answers, and its answer is 1 just for the primes. -/
theorem isPrime_exact (number : Int) :
    (isPrime exactSquare number = some 0 ∨
      isPrime exactSquare number = some 1) ∧
      (isPrime exactSquare number = some 1 ↔ PrimeNumber number) := by
  refine ⟨isPrime_returns exactSquare number, ?_⟩
  unfold isPrime
  split
  · rename_i hsmall
    constructor
    · intro hresult
      simp at hresult
    · rintro ⟨p, hp, rfl⟩
      have htwo := hp.two_le
      omega
  · rw [isPrimeLoop_exact (by omega) (by omega) (by omega),
      primeNumber_iff (by omega)]

end Decision

section Overflow

/-- The divisors at which the loop guard is evaluated. -/
def guardsLoop (square : Int → Int) (number : Int) : Nat → Int → List Int
  | 0, _ => []
  | fuel + 1, i =>
      i :: if square i ≤ number then
        if number.tmod i = 0 then []
        else guardsLoop square number fuel (i + 1)
      else []

def guards (square : Int → Int) (number : Int) : List Int :=
  if number ≤ 1 then [] else guardsLoop square number number.toNat 2

def longLongMax : Int := 2 ^ 63 - 1

/-- A product of `long long`s: exact where it fits, anything where it does not. -/
def ExactWhereFits (square : Int → Int) : Prop :=
  ∀ i, i * i ≤ longLongMax → square i = i * i

/-- No guard overflows, and the loop ends as it does with exact squares. -/
def StaysExact (square : Int → Int) (number : Int) : Prop :=
  (∀ i ∈ guards square number, i * i ≤ longLongMax) ∧
    isPrime square number = isPrime exactSquare number

/-- The largest integer whose square is a `long long`. -/
def largestRoot : Int := 3037000499

variable {square : Int → Int} {number i x : Int} {fuel : Nat}

theorem mem_guardsLoop :
    x ∈ guardsLoop square number fuel i ↔
      i ≤ x ∧ x < i + fuel ∧
        ∀ j, i ≤ j → j < x → square j ≤ number ∧ number.tmod j ≠ 0 := by
  induction fuel generalizing i with
  | zero =>
      simp only [guardsLoop, List.not_mem_nil, false_iff]
      omega
  | succ fuel ih =>
      rw [guardsLoop, List.mem_cons]
      constructor
      · rintro (rfl | hrest)
        · exact ⟨le_rfl, by omega, fun j hlow hhigh => by omega⟩
        · split at hrest
          · rename_i hguard
            split at hrest
            · simp at hrest
            · rename_i hdivides
              obtain ⟨hlow, hhigh, hall⟩ := ih.mp hrest
              refine ⟨by omega, by omega, ?_⟩
              intro j hj hlt
              rcases hj.eq_or_lt with rfl | hnext
              · exact ⟨hguard, hdivides⟩
              · exact hall j (by omega) hlt
          · simp at hrest
      · rintro ⟨hlow, hhigh, hall⟩
        rcases hlow.eq_or_lt with rfl | hnext
        · exact .inl rfl
        · obtain ⟨hguard, hdivides⟩ := hall i le_rfl hnext
          rw [if_pos hguard, if_neg hdivides]
          exact .inr (ih.mpr ⟨by omega, by omega,
            fun j hj hlt => hall j (by omega) hlt⟩)

theorem isPrimeLoop_congr {other : Int → Int}
    (hguards : ∀ j ∈ guardsLoop square number fuel i, square j = other j) :
    isPrimeLoop square number fuel i = isPrimeLoop other number fuel i := by
  induction fuel generalizing i with
  | zero => rfl
  | succ fuel ih =>
      rw [guardsLoop, List.forall_mem_cons] at hguards
      obtain ⟨hhere, hrest⟩ := hguards
      rw [isPrimeLoop, isPrimeLoop, ← hhere]
      split
      · rename_i hguard
        rw [if_pos hguard] at hrest
        split
        · rfl
        · rename_i hdivides
          rw [if_neg hdivides] at hrest
          exact ih hrest
      · rfl

theorem isPrime_congr {other : Int → Int}
    (hguards : ∀ i ∈ guards square number, square i = other i) :
    isPrime square number = isPrime other number := by
  unfold isPrime
  split
  · rfl
  · rename_i hlarge
    rw [guards, if_neg hlarge] at hguards
    exact isPrimeLoop_congr hguards

/-- The loop gets to a divisor when all smaller ones fail. -/
theorem mem_guards :
    x ∈ guards square number ↔
      2 ≤ number ∧ 2 ≤ x ∧ x ≤ number + 1 ∧
        ∀ j, 2 ≤ j → j < x → square j ≤ number ∧ ¬ j ∣ number := by
  simp only [Int.dvd_iff_tmod_eq_zero]
  unfold guards
  split
  · simp only [List.not_mem_nil, false_iff]
    omega
  · rw [mem_guardsLoop]
    constructor
    · rintro ⟨hlow, hhigh, hall⟩
      exact ⟨by omega, hlow, by omega, hall⟩
    · rintro ⟨-, hlow, hhigh, hall⟩
      exact ⟨hlow, by omega, hall⟩

theorem square_fits_iff (hx : 0 ≤ x) :
    x * x ≤ longLongMax ↔ x ≤ largestRoot := by
  constructor
  · intro hfits
    by_contra hlarge
    have hroot : largestRoot + 1 ≤ x := by omega
    have hsquare := Int.mul_le_mul hroot hroot (by decide) hx
    exact absurd (hsquare.trans hfits) (by decide)
  · intro hroot
    have hsquare := Int.mul_le_mul hroot hroot hx (by decide)
    exact hsquare.trans (by decide)

theorem overflows_of_prime (hsquare : ExactWhereFits square)
    (hprime : PrimeNumber number)
    (hlarge : largestRoot * largestRoot < number) :
    largestRoot + 1 ∈ guards square number := by
  have hnumber : largestRoot + 1 < number :=
    (by decide : largestRoot + 1 < largestRoot * largestRoot).trans hlarge
  have htwo : 2 ≤ number := (by decide : 2 ≤ largestRoot + 1).trans hnumber.le
  refine mem_guards.mpr ⟨htwo, by decide, by omega, ?_⟩
  intro j hlow hhigh
  have hroot : j ≤ largestRoot := Int.lt_add_one_iff.mp hhigh
  have hle : j * j ≤ number :=
    (Int.mul_le_mul hroot hroot (by omega) (by decide)).trans hlarge.le
  rw [hsquare j ((square_fits_iff (by omega)).mpr hroot)]
  exact ⟨hle, (primeNumber_iff htwo).mp hprime j hlow hle⟩

/-- Past the last root, all divisors up to it have failed. -/
theorem prime_of_overflows (hsquare : ExactWhereFits square)
    (hnumber : number ≤ longLongMax) (hx : x ∈ guards square number)
    (hlarge : largestRoot < x) :
    PrimeNumber number ∧ largestRoot * largestRoot < number := by
  obtain ⟨htwo, -, -, hall⟩ := mem_guards.mp hx
  have hfail : ∀ j, 2 ≤ j → j ≤ largestRoot →
      j * j ≤ number ∧ ¬ j ∣ number := by
    intro j hlow hroot
    have hj := hall j hlow (by omega)
    rwa [hsquare j ((square_fits_iff (by omega)).mpr hroot)] at hj
  constructor
  · rw [primeNumber_iff htwo]
    intro d hd hle
    have hroot := (square_fits_iff (by omega)).mp (hle.trans hnumber)
    exact (hfail d hd hroot).2
  · obtain ⟨hle, hdvd⟩ := hfail largestRoot (by decide) le_rfl
    rcases hle.eq_or_lt with heq | hlt
    · exact absurd (Dvd.intro _ heq) hdvd
    · exact hlt

/-- The guard overflows just for the primes beyond the square of the last root. -/
theorem staysExact_iff (square : Int → Int) (number : Int)
    (hsquare : ExactWhereFits square) (hnumber : InLongLong number) :
    StaysExact square number ↔
      ¬ (PrimeNumber number ∧ largestRoot * largestRoot < number) := by
  constructor
  · rintro ⟨hguards, -⟩ ⟨hprime, hlarge⟩
    have hfits := hguards _ (overflows_of_prime hsquare hprime hlarge)
    exact absurd hfits (by decide)
  · intro hcondition
    have hguards : ∀ i ∈ guards square number, i * i ≤ longLongMax := by
      intro i hi
      obtain ⟨-, hlow, -⟩ := mem_guards.mp hi
      rw [square_fits_iff (by omega)]
      by_contra hlarge
      have hmax : number ≤ longLongMax := Int.le_sub_one_of_lt hnumber.2
      exact hcondition
        (prime_of_overflows hsquare hmax hi (Int.not_le.mp hlarge))
    exact ⟨hguards,
      isPrime_congr fun i hi => hsquare i (hguards i hi)⟩

/-- Products modulo 2^64. -/
def wrappingSquare (i : Int) : Int :=
  (i * i).bmod (2 ^ 64)

theorem exactWhereFits_wrappingSquare : ExactWhereFits wrappingSquare := by
  intro i hi
  rw [longLongMax] at hi
  have hnonneg := mul_self_nonneg i
  apply Int.bmod_eq_of_le
  · omega
  · omega

theorem staysExact_iff_wrapping :
    StaysExact wrappingSquare 9223372036854775807 ↔
      ¬ (PrimeNumber 9223372036854775807 ∧
        largestRoot * largestRoot < 9223372036854775807) :=
  staysExact_iff wrappingSquare 9223372036854775807
    exactWhereFits_wrappingSquare (by decide)

/-- One of the primes that overflow, by the test of Lucas. -/
theorem prime_beyondRoot : Nat.Prime 9223372031070830593 := by
  apply lucas_primality _ (5 : ZMod 9223372031070830593)
  · reduce_mod_char
  · intro q hq hdvd
    have hprimes : ∀ factor ∈
        List.replicate 22 2 ++ [3, 17, 137, 443, 829, 857],
          Prime factor := by
      simp only [List.forall_mem_append, List.forall_mem_cons,
        List.forall_mem_replicate, ← Nat.prime_iff]
      norm_num
    have hprod : (List.replicate 22 2 ++ [3, 17, 137, 443, 829, 857]).prod =
        9223372031070830593 - 1 := by
      simp only [List.prod_append, List.prod_replicate, List.prod_cons,
        List.prod_nil]
      norm_num
    have hmem := mem_list_primes_of_dvd_prod hq.prime hprimes (hprod ▸ hdvd)
    simp only [List.mem_append, List.mem_replicate, List.mem_cons,
      List.not_mem_nil, or_false] at hmem
    rcases hmem with ⟨-, rfl⟩ | rfl | rfl | rfl | rfl | rfl | rfl
    all_goals
      simp only [Nat.reduceSub, Nat.reduceDiv]
      reduce_mod_char
      decide

/-- A prime between the square of the last root and 2^63. -/
theorem not_staysExact_prime :
    ¬ ∀ square number, ExactWhereFits square → InLongLong number →
      StaysExact square number := by
  intro hstays
  obtain ⟨hguards, -⟩ := hstays wrappingSquare 9223372031070830593
    exactWhereFits_wrappingSquare (by decide)
  have hfits := hguards _
    (overflows_of_prime exactWhereFits_wrappingSquare
      ⟨_, prime_beyondRoot, rfl⟩ (by decide))
  exact absurd hfits (by decide)

end Overflow

end PrimeQueue

end OsCourse
