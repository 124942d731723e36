/-
What the conversions of `scanf` take from a text and what they leave there.  A
text is the list of its bytes, written as characters.
-/
import OsCourse.DecimalText

namespace ScanText

open DecimalText

section Integers

/-- The `int` that an assignment keeps of a 64-bit value. -/
def toInt (value : Int) : Int :=
  value.bmod (2 ^ 32)

/-- The digits of `%d` behind the sign; without a digit nothing is converted. -/
def scanDigits (sign : Int) (text : List Char) : Option Int × List Char :=
  if text.takeWhile Char.isDigit = [] then (none, text)
  else (some (toInt (saturate (sign * leadingDigits text))),
    text.dropWhile Char.isDigit)

/-- `%d`.  White space and a sign are taken even where no digit follows. -/
def scanInt (text : List Char) : Option Int × List Char :=
  match text.dropWhile isSpace with
  | '-' :: rest => scanDigits (-1) rest
  | '+' :: rest => scanDigits 1 rest
  | rest => scanDigits 1 rest

/-- The results of successive conversions. -/
def scanInts : (calls : Nat) → List Char → List (Option Int)
  | 0, _ => []
  | calls + 1, text => (scanInt text).1 :: scanInts calls (scanInt text).2

theorem length_scanDigits (sign : Int) (text : List Char) :
    (scanDigits sign text).1.toList.length +
      (scanDigits sign text).2.length ≤ text.length := by
  unfold scanDigits
  split
  · simp
  · rename_i hdigits
    have hlength := congrArg List.length
      (@List.takeWhile_append_dropWhile _ Char.isDigit text)
    have hpos := List.length_pos_of_ne_nil hdigits
    rw [List.length_append] at hlength
    simp only [Option.toList_some, List.length_singleton]
    omega

/-- A conversion takes at least one digit. -/
theorem length_scanInt (text : List Char) :
    (scanInt text).1.toList.length + (scanInt text).2.length ≤
      text.length := by
  have hdrop := List.length_dropWhile_le isSpace text
  unfold scanInt
  split
  · rename_i rest hsign
    have hlength := length_scanDigits (-1) rest
    rw [hsign, List.length_cons] at hdrop
    omega
  · rename_i rest hsign
    have hlength := length_scanDigits 1 rest
    rw [hsign, List.length_cons] at hdrop
    omega
  · exact (length_scanDigits 1 _).trans hdrop

theorem length_reduceOption_scanInts_le (calls : Nat) (text : List Char) :
    (scanInts calls text).reduceOption.length ≤ text.length := by
  induction calls generalizing text with
  | zero => exact Nat.zero_le _
  | succ calls ih =>
      have hfirst := length_scanInt text
      have hrest := ih (scanInt text).2
      rw [scanInts]
      cases hscan : (scanInt text).1 with
      | none =>
          rw [List.reduceOption_cons_of_none]
          omega
      | some value =>
          rw [hscan, Option.toList_some, List.length_singleton] at hfirst
          rw [List.reduceOption_cons_of_some, List.length_cons]
          omega

theorem scanInts_of_le {few calls : Nat} (hle : few ≤ calls)
    (text : List Char) : scanInts few text <+: scanInts calls text := by
  induction calls generalizing few text with
  | zero =>
      rw [Nat.le_zero.mp hle]
  | succ calls ih =>
      cases few with
      | zero => exact List.nil_prefix
      | succ few =>
          exact (List.prefix_cons_inj _).mpr
            (ih (Nat.le_of_succ_le_succ hle) _)

theorem reduceOption_map_some (values : List Int) :
    (values.map some).reduceOption = values := by
  simp [List.reduceOption, List.filterMap_map]

/-- Results without a failure are those of their values. -/
theorem map_some_reduceOption {results : List (Option Int)}
    (hall : ∀ result ∈ results, result.isSome) :
    results.reduceOption.map some = results := by
  induction results with
  | nil => rfl
  | cons result results ih =>
      rw [List.forall_mem_cons] at hall
      obtain ⟨value, rfl⟩ := Option.isSome_iff_exists.mp hall.1
      rw [List.reduceOption_cons_of_some, List.map_cons, ih hall.2]

end Integers

end ScanText
