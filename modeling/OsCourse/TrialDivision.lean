/-
`is_prime` of the queue workers.  The square in its loop guard is a parameter,
so that the same function is read with exact and with 64-bit products.
-/
import Mathlib.Order.Basic

namespace OsCourse

namespace PrimeQueue

/-- The loop of `is_prime` from a divisor on; `none` when the fuel runs out. -/
def isPrimeLoop (square : Int → Int) (number : Int) : Nat → Int → Option Int
  | 0, _ => none
  | fuel + 1, i =>
      if square i ≤ number then
        if number.tmod i = 0 then some 0
        else isPrimeLoop square number fuel (i + 1)
      else some 1

/-- `is_prime`: trial division by 2, 3, ... while `i*i <= number`. -/
def isPrime (square : Int → Int) (number : Int) : Option Int :=
  if number ≤ 1 then some 0
  else isPrimeLoop square number number.toNat 2

/-- Whatever the guard computes, the loop ends at the latest when the divisor
reaches the number. -/
theorem isPrimeLoop_returns {square : Int → Int} {number : Int} {fuel : Nat}
    {i : Int} (hi : i ≤ number) (hfuel : number < i + fuel) :
    isPrimeLoop square number fuel i = some 0 ∨
      isPrimeLoop square number fuel i = some 1 := by
  induction fuel generalizing i with
  | zero => omega
  | succ fuel ih =>
      simp only [isPrimeLoop]
      split
      · split
        · exact .inl rfl
        · rename_i hdivides
          have hne : i ≠ number := by
            rintro rfl
            exact hdivides Int.tmod_self
          exact ih (by omega) (by omega)
      · exact .inr rfl

theorem isPrime_returns (square : Int → Int) (number : Int) :
    isPrime square number = some 0 ∨ isPrime square number = some 1 := by
  unfold isPrime
  split
  · exact .inl rfl
  · exact isPrimeLoop_returns (by omega) (by omega)

end PrimeQueue

end OsCourse
