/-
Decimal text of C integers: what `%lld` prints and what `atoll` reads, and that
reading back a printed 64-bit number gives the number.
-/
import Mathlib

namespace DecimalText

/-- The values of `long long`. -/
def InLongLong (number : Int) : Prop :=
  -2 ^ 63 ≤ number ∧ number < 2 ^ 63

instance (number : Int) : Decidable (InLongLong number) :=
  inferInstanceAs (Decidable (_ ∧ _))

/-- `%lld`. -/
def lld (number : Int) : List Char :=
  if number < 0 then '-' :: Nat.toDigits 10 number.natAbs
  else Nat.toDigits 10 number.natAbs

/-- `isspace` in the C locale. -/
def isSpace (char : Char) : Bool :=
  char = ' ' || (9 ≤ char.toNat && char.toNat ≤ 13)

/-- The value of the longest run of digits at the start of a text. -/
def leadingDigits (text : List Char) : Nat :=
  Nat.ofDigitChars 10 (text.takeWhile Char.isDigit) 0

/-- A value outside `long long` is clamped, as `strtoll` does. -/
def saturate (value : Int) : Int :=
  max (-2 ^ 63) (min value (2 ^ 63 - 1))

/-- White space, an optional sign and the digits up to the first other
character. -/
def atoll (text : List Char) : Int :=
  match text.dropWhile isSpace with
  | '-' :: rest => saturate (-leadingDigits rest)
  | '+' :: rest => saturate (leadingDigits rest)
  | rest => saturate (leadingDigits rest)

theorem saturate_of_inLongLong {value : Int} (hvalue : InLongLong value) :
    saturate value = value := by
  rcases hvalue with ⟨hlow, hhigh⟩
  unfold saturate
  omega

theorem isDigit_of_mem_digits {value : Nat} {char : Char}
    (hchar : char ∈ Nat.toDigits 10 value) : char.isDigit = true :=
  Nat.isDigit_of_mem_toDigits (by decide) (Nat.le_refl 10) hchar

/-- Printed digits are read back up to a character that is not a digit. -/
theorem leadingDigits_toDigits (value : Nat) {rest : List Char}
    (hrest : ∀ char ∈ rest.head?, char.isDigit = false) :
    leadingDigits (Nat.toDigits 10 value ++ rest) = value := by
  have hdigits : ∀ char ∈ Nat.toDigits 10 value, char.isDigit = true :=
    fun _ => isDigit_of_mem_digits
  have hstop : rest.takeWhile Char.isDigit = [] := by
    cases rest with
    | nil => rfl
    | cons char tail => simp [hrest char rfl]
  unfold leadingDigits
  rw [List.takeWhile_append_of_pos hdigits, hstop, List.append_nil,
    Nat.ofDigitChars_ten_toDigits]

theorem digit_range {char : Char} (hdigit : char.isDigit = true) :
    48 ≤ char.toNat ∧ char.toNat ≤ 57 := by
  simpa [Char.isDigit, UInt32.le_iff_toNat_le] using hdigit

theorem isSpace_of_isDigit {char : Char} (hdigit : char.isDigit = true) :
    isSpace char = false := by
  have hrange := digit_range hdigit
  have hspace : char ≠ ' ' := by
    rintro rfl
    exact absurd hrange.1 (by decide)
  have hcontrol : 9 ≤ char.toNat → 13 < char.toNat := by omega
  simpa [isSpace, hspace] using hcontrol

/-- A text that starts with a digit is read without white space or sign. -/
theorem atoll_of_digit {char : Char} {rest : List Char}
    (hdigit : char.isDigit = true) :
    atoll (char :: rest) = saturate (leadingDigits (char :: rest)) := by
  have hminus : char ≠ '-' := by
    rintro rfl
    contradiction
  have hplus : char ≠ '+' := by
    rintro rfl
    contradiction
  unfold atoll
  rw [List.dropWhile_cons_of_neg (by simp [isSpace_of_isDigit hdigit])]
  split
  · rename_i hcons
    exact absurd (List.cons.inj hcons).1 hminus
  · rename_i hcons
    exact absurd (List.cons.inj hcons).1 hplus
  · rfl

/-- Reading back what was printed, whatever follows the last digit. -/
theorem atoll_lld {number : Int} (hnumber : InLongLong number)
    {rest : List Char} (hrest : ∀ char ∈ rest.head?, char.isDigit = false) :
    atoll (lld number ++ rest) = number := by
  by_cases hsign : number < 0
  · have hvalue : -(number.natAbs : Int) = number := by omega
    have hdrop : ∀ tail : List Char,
        ('-' :: tail).dropWhile isSpace = '-' :: tail :=
      fun tail => List.dropWhile_cons_of_neg (by decide)
    simp only [lld, hsign, ↓reduceIte, List.cons_append, atoll, hdrop,
      leadingDigits_toDigits _ hrest, hvalue,
      saturate_of_inLongLong hnumber]
  · have hvalue : (number.natAbs : Int) = number := by omega
    have hread := leadingDigits_toDigits number.natAbs hrest
    rw [lld, if_neg hsign]
    cases htext : Nat.toDigits 10 number.natAbs with
    | nil => exact absurd htext Nat.toDigits_ne_nil
    | cons char tail =>
        have hdigit : char.isDigit = true :=
          isDigit_of_mem_digits (htext ▸ List.mem_cons_self)
        rw [htext] at hread
        rw [List.cons_append, atoll_of_digit hdigit, ← List.cons_append,
          hread, hvalue, saturate_of_inLongLong hnumber]

/-- A printed 64-bit number has at most a sign and nineteen digits. -/
theorem length_lld_le {number : Int} (hnumber : InLongLong number) :
    (lld number).length ≤ 20 := by
  have hdigits : (Nat.toDigits 10 number.natAbs).length ≤ 19 := by
    rw [Nat.length_toDigits_le_iff (by decide) (by decide)]
    rcases hnumber with ⟨hlow, hhigh⟩
    omega
  unfold lld
  split
  · rw [List.length_cons]
    omega
  · omega

end DecimalText
