/-
Hexadecimal text of 64-bit numbers: what `%lx` prints and what it converts, and that
a printed number is read back.  Where `0x` stands without a digit behind it nothing is
converted by the standard, and a lenient library takes it for zero.
-/
import OsCourse.ScanFloat

namespace ScanText

open DecimalText

section Printing

/-- `%lx` when it prints. -/
def hexDigits (value : Nat) : List Char :=
  Nat.toDigits 16 value

/-- `%0<width>lx`. -/
def paddedHex (width value : Nat) : List Char :=
  (hexDigits value).leftpad width '0'

theorem digitChar_hex {digit : Nat} (hdigit : digit < 16) :
    isHexDigit digit.digitChar = true ∧
      digitValue digit.digitChar = digit := by
  interval_cases digit <;> decide

theorem hexDigits_eq (value : Nat) :
    hexDigits value =
      (if value < 16 then [] else hexDigits (value / 16)) ++
        [(value % 16).digitChar] := by
  rw [hexDigits, Nat.toDigits_eq_if (by decide)]
  split
  · rename_i hsmall
    rw [Nat.mod_eq_of_lt hsmall]
    rfl
  · rfl

theorem isHexDigit_of_mem_hexDigits (value : Nat) :
    ∀ char ∈ hexDigits value, isHexDigit char = true := by
  induction value using Nat.strong_induction_on with
  | _ value ih =>
      intro char hchar
      rw [hexDigits_eq, List.mem_append, List.mem_singleton] at hchar
      rcases hchar with hhigh | rfl
      · split at hhigh
        · cases hhigh
        · exact ih (value / 16) (by omega) char hhigh
      · exact (digitChar_hex (Nat.mod_lt _ (by decide))).1

theorem ofDigits_append (base : Nat) (high low : List Char) :
    ofDigits base (high ++ low) =
      low.foldl (fun value digit => base * value + digitValue digit)
        (ofDigits base high) :=
  List.foldl_append

/-- Printed digits have the value that is printed. -/
theorem ofDigits_hexDigits (value : Nat) :
    ofDigits 16 (hexDigits value) = value := by
  induction value using Nat.strong_induction_on with
  | _ value ih =>
      have hlow := (digitChar_hex (Nat.mod_lt value (by decide : 0 < 16))).2
      have hhigh : ofDigits 16
          (if value < 16 then [] else hexDigits (value / 16)) =
            value / 16 := by
        split
        · rename_i hsmall
          rw [Nat.div_eq_of_lt hsmall]
          rfl
        · exact ih (value / 16) (by omega)
      rw [hexDigits_eq, ofDigits_append, hhigh, List.foldl_cons,
        List.foldl_nil, hlow]
      omega

theorem length_hexDigits_le {value count : Nat} (hcount : 0 < count)
    (hvalue : value < 16 ^ count) : (hexDigits value).length ≤ count :=
  (Nat.length_toDigits_le_iff (by decide) hcount).mpr hvalue

theorem hexDigits_ne_nil (value : Nat) : hexDigits value ≠ [] :=
  Nat.toDigits_ne_nil

theorem ofDigits_replicate_zero (count : Nat) :
    ofDigits 16 (List.replicate count '0') = 0 := by
  induction count with
  | zero => rfl
  | succ count ih =>
      rw [List.replicate_succ', ofDigits_append, ih]
      rfl

theorem ofDigits_paddedHex (width value : Nat) :
    ofDigits 16 (paddedHex width value) = value := by
  rw [paddedHex, List.leftpad, ofDigits_append, ofDigits_replicate_zero]
  exact ofDigits_hexDigits value

/-- Enough digits are not padded. -/
theorem paddedHex_of_le {width value : Nat}
    (hwidth : width ≤ (hexDigits value).length) :
    paddedHex width value = hexDigits value := by
  rw [paddedHex, List.leftpad, Nat.sub_eq_zero_of_le hwidth]
  rfl

theorem isHexDigit_of_mem_paddedHex (width value : Nat) :
    ∀ char ∈ paddedHex width value, isHexDigit char = true := by
  intro char hchar
  rw [paddedHex, List.leftpad, List.mem_append] at hchar
  rcases hchar with hzero | hdigit
  · rw [List.eq_of_mem_replicate hzero]
    rfl
  · exact isHexDigit_of_mem_hexDigits value char hdigit

theorem paddedHex_ne_nil (width value : Nat) : paddedHex width value ≠ [] :=
  List.append_ne_nil_of_right_ne_nil _ (hexDigits_ne_nil value)

theorem length_paddedHex_le {width value count : Nat} (hcount : 0 < count)
    (hwidth : width ≤ count) (hvalue : value < 16 ^ count) :
    (paddedHex width value).length ≤ count := by
  rw [paddedHex, List.length_leftpad]
  exact Nat.max_le.mpr ⟨hwidth, length_hexDigits_le hcount hvalue⟩

end Printing

section Scanning

/-- `strtoul`: a value that is too large is clamped, a sign is taken modulo
`2 ^ 64`. -/
def toUnsignedLong (negative : Bool) (value : Nat) : Nat :=
  if 2 ^ 64 ≤ value then 2 ^ 64 - 1
  else if negative then (2 ^ 64 - value) % 2 ^ 64
  else value

/-- The digits behind the sign, with an optional `0x` before them. -/
def scanHexDigits (lenient : Bool) (text : List Char) :
    Option (Nat × List Char) :=
  match text with
  | '0' :: 'x' :: rest | '0' :: 'X' :: rest =>
      if rest.takeWhile isHexDigit = [] then
        if lenient then some (0, rest) else none
      else some (ofDigits 16 (rest.takeWhile isHexDigit),
        rest.dropWhile isHexDigit)
  | text =>
      if text.takeWhile isHexDigit = [] then none
      else some (ofDigits 16 (text.takeWhile isHexDigit),
        text.dropWhile isHexDigit)

/-- `%lx` when it converts: white space, an optional sign and the digits, and what is
left. -/
def scanHex (lenient : Bool) (text : List Char) : Option (Nat × List Char) :=
  match text.dropWhile isSpace with
  | '-' :: rest =>
      (scanHexDigits lenient rest).map (Prod.map (toUnsignedLong true) id)
  | '+' :: rest =>
      (scanHexDigits lenient rest).map (Prod.map (toUnsignedLong false) id)
  | rest =>
      (scanHexDigits lenient rest).map (Prod.map (toUnsignedLong false) id)

theorem toUnsignedLong_of_lt {value : Nat} (hvalue : value < 2 ^ 64) :
    toUnsignedLong false value = value := by
  rw [toUnsignedLong, if_neg (Nat.not_le.mpr hvalue)]
  rfl

theorem le_toNat_of_isHexDigit {char : Char}
    (hdigit : isHexDigit char = true) : 48 ≤ char.toNat := by
  rw [isHexDigit, Bool.or_eq_true, Bool.or_eq_true] at hdigit
  rcases hdigit with (hdecimal | hlower) | hupper
  · exact (digit_range hdecimal).1
  · have hrange : 97 ≤ char.toNat ∧ char.toNat ≤ 102 := by
      simpa [Char.le_def, UInt32.le_iff_toNat_le] using hlower
    omega
  · have hrange : 65 ≤ char.toNat ∧ char.toNat ≤ 70 := by
      simpa [Char.le_def, UInt32.le_iff_toNat_le] using hupper
    omega

theorem isSpace_of_isHexDigit {char : Char}
    (hdigit : isHexDigit char = true) : isSpace char = false := by
  have hrange := le_toNat_of_isHexDigit hdigit
  have hspace : char ≠ ' ' := by
    rintro rfl
    exact absurd hrange (by decide)
  have hcontrol : 9 ≤ char.toNat → 13 < char.toNat := by omega
  simpa [isSpace, hspace] using hcontrol

/-- Digits are read up to a character that is neither a digit nor an `x`. -/
theorem scanHexDigits_append (lenient : Bool) {digits rest : List Char}
    {stop : Char} (hnonempty : digits ≠ [])
    (hdigits : ∀ char ∈ digits, isHexDigit char = true)
    (hstop : isHexDigit stop = false) (hmark : stop ≠ 'x' ∧ stop ≠ 'X') :
    scanHexDigits lenient (digits ++ stop :: rest) =
      some (ofDigits 16 digits, stop :: rest) := by
  -- behind the first digit there is a digit or `stop`, so no `x`
  have hsecond : ∀ mark : Char, isHexDigit mark = false → stop ≠ mark →
      ∀ tail, digits ++ stop :: rest ≠ '0' :: mark :: tail := by
    intro mark hnone hne tail heq
    cases digits with
    | nil => exact hnonempty rfl
    | cons first digits =>
        rw [List.cons_append, List.cons.injEq] at heq
        cases digits with
        | nil => exact hne (List.cons.inj heq.2).1
        | cons second digits =>
            have hdigit := hdigits second (by simp)
            rw [(List.cons.inj heq.2).1, hnone] at hdigit
            cases hdigit
  have htake : (digits ++ stop :: rest).takeWhile isHexDigit = digits := by
    rw [List.takeWhile_append_of_pos hdigits,
      List.takeWhile_cons_of_neg (by simp [hstop]), List.append_nil]
  have hdrop : (digits ++ stop :: rest).dropWhile isHexDigit =
      stop :: rest := by
    rw [List.dropWhile_append_of_pos hdigits,
      List.dropWhile_cons_of_neg (by simp [hstop])]
  rw [scanHexDigits, htake, hdrop, if_neg hnonempty]
  · exact hsecond 'x' (by decide) hmark.1
  · exact hsecond 'X' (by decide) hmark.2

theorem scanHex_append (lenient : Bool) {digits rest : List Char}
    {stop : Char} (hnonempty : digits ≠ [])
    (hdigits : ∀ char ∈ digits, isHexDigit char = true)
    (hstop : isHexDigit stop = false) (hmark : stop ≠ 'x' ∧ stop ≠ 'X') :
    scanHex lenient (digits ++ stop :: rest) =
      some (toUnsignedLong false (ofDigits 16 digits), stop :: rest) := by
  have hscan := @scanHexDigits_append lenient digits rest stop hnonempty
    hdigits hstop hmark
  cases digits with
  | nil => exact absurd rfl hnonempty
  | cons first digits =>
      have hfirst := hdigits first List.mem_cons_self
      have hdrop : (first :: digits ++ stop :: rest).dropWhile isSpace =
          first :: digits ++ stop :: rest :=
        List.dropWhile_cons_of_neg (by simp [isSpace_of_isHexDigit hfirst])
      rw [scanHex, hdrop]
      split
      · rename_i heq
        rw [(List.cons.inj heq).1] at hfirst
        cases hfirst
      · rename_i heq
        rw [(List.cons.inj heq).1] at hfirst
        cases hfirst
      · rw [hscan]
        rfl

end Scanning

end ScanText
