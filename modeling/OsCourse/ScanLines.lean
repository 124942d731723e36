/-
Texts from which numbers are scanned one after the other: what a part of a text
decides, what is found line by line, and texts that list given numbers.
-/
import OsCourse.ScanText
import OsCourse.LineInput

namespace ScanText

open DecimalText LineInput

section Parts

variable {line tail : List Char}

theorem takeWhile_isDigit_append (htail : ∀ char ∈ tail.head?, char.isDigit = false) :
    (line ++ tail).takeWhile Char.isDigit = line.takeWhile Char.isDigit := by
  have hstop : tail.takeWhile Char.isDigit = [] := by
    cases tail with
    | nil => rfl
    | cons char tail => simp [htail char rfl]
  rw [List.takeWhile_append, hstop, List.append_nil]
  split
  · rename_i hall
    exact ((List.takeWhile_sublist _).eq_of_length hall).symm
  · rfl

theorem dropWhile_isDigit_append (htail : ∀ char ∈ tail.head?, char.isDigit = false) :
    (line ++ tail).dropWhile Char.isDigit =
      line.dropWhile Char.isDigit ++ tail := by
  have hsplit := @List.takeWhile_append_dropWhile _ Char.isDigit (line ++ tail)
  rw [takeWhile_isDigit_append htail] at hsplit
  have hline := @List.takeWhile_append_dropWhile _ Char.isDigit line
  rw [← List.append_cancel_left_eq (line.takeWhile Char.isDigit), hsplit,
    ← List.append_assoc, hline]

theorem scanDigits_append (sign : Int)
    (htail : ∀ char ∈ tail.head?, char.isDigit = false) :
    scanDigits sign (line ++ tail) =
      ((scanDigits sign line).1, (scanDigits sign line).2 ++ tail) := by
  rw [scanDigits, scanDigits, leadingDigits, takeWhile_isDigit_append htail,
    dropWhile_isDigit_append htail, ← leadingDigits]
  split <;> rfl

/-- `%d` at a character that is no blank. -/
theorem scanInt_cons {char : Char} {rest : List Char}
    (hline : line.dropWhile isSpace = char :: rest) :
    scanInt line =
      if char = '-' then scanDigits (-1) rest
      else if char = '+' then scanDigits 1 rest
      else scanDigits 1 (char :: rest) := by
  unfold scanInt
  rw [hline]
  split
  · rename_i digits heq
    obtain ⟨rfl, rfl⟩ := List.cons.inj heq
    rfl
  · rename_i digits heq
    obtain ⟨rfl, rfl⟩ := List.cons.inj heq
    rfl
  · rename_i hminus hplus
    rw [if_neg, if_neg]
    · rintro rfl
      exact hplus rest rfl
    · rintro rfl
      exact hminus rest rfl

/-- What follows a text with more than blanks is not looked at, unless a number could go
on in it. -/
theorem scanInt_append (hline : line.dropWhile isSpace ≠ [])
    (htail : ∀ char ∈ tail.head?, char.isDigit = false) :
    scanInt (line ++ tail) = ((scanInt line).1, (scanInt line).2 ++ tail) := by
  obtain ⟨char, rest, hrest⟩ := List.exists_cons_of_ne_nil hline
  have hwhole : (line ++ tail).dropWhile isSpace = char :: (rest ++ tail) := by
    rw [List.dropWhile_append, if_neg (by simpa using hline), hrest,
      List.cons_append]
  rw [scanInt_cons hwhole, scanInt_cons hrest]
  split
  · exact scanDigits_append (-1) htail
  · split
    · exact scanDigits_append 1 htail
    · exact @scanDigits_append (char :: rest) tail 1 htail

/-- Blanks before a number are skipped. -/
theorem scanInt_blanks (hline : line.dropWhile isSpace = []) :
    scanInt (line ++ tail) = scanInt tail := by
  rw [scanInt, scanInt, List.dropWhile_append, if_pos (by simpa using hline)]

end Parts

section Lines

/-- `while (getchar() != '\n')` with an empty body.  At the end of the input it does not
end. -/
def discardLine : List Char → Option (List Char)
  | [] => none
  | char :: rest => if char = '\n' then some rest else discardLine rest

/-- What `%d` makes of a line: numbers, and `none` for other text, with which the line is
given up. -/
def entriesFrom : (fuel : Nat) → List Char → List (Option Int)
  | 0, _ => []
  | fuel + 1, line =>
      if line.dropWhile isSpace = [] then []
      else
        match scanInt line with
        | (some value, rest) => some value :: entriesFrom fuel rest
        | (none, _) => [none]

def lineEntries (line : List Char) : List (Option Int) :=
  entriesFrom (line.length + 1) line

/-- What the lines of a text offer, one line after the other. -/
def entries (text : List Char) : List (Option Int) :=
  (text.splitOn '\n').flatMap lineEntries

example : entries ['7', ' ', '2', '\n', 'x', ' ', '1', '\n', '-', '\n', '4'] =
    [some 7, some 2, none, none, some 4] := by decide

variable {line text rest : List Char} {value : Int}

theorem discardLine_append (hline : '\n' ∉ line) :
    discardLine (line ++ '\n' :: rest) = some rest := by
  induction line with
  | nil => rfl
  | cons char line ih =>
      rw [List.mem_cons, not_or] at hline
      rw [List.cons_append, discardLine, if_neg (Ne.symm hline.1), ih hline.2]

theorem discardLine_of_notMem (hline : '\n' ∉ line) :
    discardLine line = none := by
  induction line with
  | nil => rfl
  | cons char line ih =>
      rw [List.mem_cons, not_or] at hline
      rw [discardLine, if_neg (Ne.symm hline.1), ih hline.2]

theorem length_discardLine (hrest : discardLine text = some rest) :
    rest.length < text.length := by
  induction text with
  | nil => cases hrest
  | cons char text ih =>
      rw [discardLine] at hrest
      rw [List.length_cons]
      split at hrest
      · cases hrest
        exact Nat.lt_succ_self _
      · exact Nat.lt_succ_of_lt (ih hrest)

theorem length_of_scanInt (hscan : scanInt text = (some value, rest)) :
    rest.length < text.length := by
  have hlength := length_scanInt text
  rw [hscan] at hlength
  simp only [Option.toList_some, List.length_singleton] at hlength
  omega

theorem entriesFrom_eq {fuel other : Nat} (hfuel : line.length < fuel)
    (hother : line.length < other) :
    entriesFrom fuel line = entriesFrom other line := by
  induction fuel generalizing line other with
  | zero => exact absurd hfuel (Nat.not_lt_zero _)
  | succ fuel ih =>
      obtain ⟨other, rfl⟩ := Nat.exists_eq_succ_of_ne_zero
        (Nat.ne_zero_of_lt hother)
      rw [entriesFrom, entriesFrom]
      split
      · rfl
      · split
        · rename_i value rest hscan
          have hshort := length_of_scanInt hscan
          exact congrArg _ (ih (by omega) (by omega))
        · rfl

theorem lineEntries_blank (hline : line.dropWhile isSpace = []) :
    lineEntries line = [] := by
  rw [lineEntries, entriesFrom, if_pos hline]

theorem lineEntries_some (hline : line.dropWhile isSpace ≠ [])
    (hscan : scanInt line = (some value, rest)) :
    lineEntries line = some value :: lineEntries rest := by
  rw [lineEntries, entriesFrom, if_neg hline, hscan]
  exact congrArg _ (entriesFrom_eq (length_of_scanInt hscan)
    (Nat.lt_succ_self _))

theorem lineEntries_none (hline : line.dropWhile isSpace ≠ [])
    (hscan : scanInt line = (none, rest)) : lineEntries line = [none] := by
  rw [lineEntries, entriesFrom, if_neg hline, hscan]

theorem entries_line (hline : '\n' ∉ line) :
    entries line = lineEntries line := by
  rw [entries, List.splitOn_eq_singleton hline, List.flatMap_singleton]

theorem entries_append (hline : '\n' ∉ line) :
    entries (line ++ '\n' :: rest) = lineEntries line ++ entries rest := by
  rw [entries, List.splitOn_append_cons_self_of_not_mem hline,
    List.flatMap_cons, entries]

theorem mem_of_mem_scanDigits {sign : Int} {char : Char}
    (hchar : char ∈ (scanDigits sign text).2) : char ∈ text := by
  rw [scanDigits] at hchar
  split at hchar
  · exact hchar
  · exact (List.dropWhile_sublist _).subset hchar

theorem mem_of_mem_scanInt {char : Char} (hchar : char ∈ (scanInt text).2) :
    char ∈ text := by
  apply (List.dropWhile_sublist isSpace).subset
  unfold scanInt at hchar
  split at hchar
  · rename_i rest hrest
    rw [hrest]
    exact List.mem_cons_of_mem _ (mem_of_mem_scanDigits hchar)
  · rename_i rest hrest
    rw [hrest]
    exact List.mem_cons_of_mem _ (mem_of_mem_scanDigits hchar)
  · exact mem_of_mem_scanDigits hchar

theorem scanInt_of_blank (hline : line.dropWhile isSpace = []) :
    scanInt line = (none, []) := by
  rw [scanInt, hline]
  rfl

/-- What one `%d` finds is the first entry; where it finds other text, its line is what
`discardLine` drops. -/
theorem entries_scanInt (text : List Char) :
    (∃ value rest, scanInt text = (some value, rest) ∧
      entries text = some value :: entries rest) ∨
    (∃ rest more, scanInt text = (none, rest) ∧
      discardLine rest = some more ∧ entries text = none :: entries more) ∨
    ∃ rest, scanInt text = (none, rest) ∧ discardLine rest = none ∧
      ∀ entry ∈ entries text, entry = none := by
  induction text using line_induction with
  | last line hline =>
      rw [entries_line hline]
      rcases hscan : scanInt line with ⟨found, rest⟩
      have hrest : '\n' ∉ rest := fun hmem =>
        hline (mem_of_mem_scanInt (by rwa [hscan]))
      by_cases hblank : line.dropWhile isSpace = []
      · rw [scanInt_of_blank hblank] at hscan
        cases hscan
        exact .inr (.inr ⟨[], rfl, rfl, by
          rw [lineEntries_blank hblank]
          exact List.forall_mem_nil _⟩)
      · cases found with
        | some value =>
            exact .inl ⟨value, rest, rfl, by
              rw [entries_line hrest, lineEntries_some hblank hscan]⟩
        | none =>
            exact .inr (.inr ⟨rest, rfl, discardLine_of_notMem hrest, by
              rw [lineEntries_none hblank hscan]
              exact List.forall_mem_singleton.mpr rfl⟩)
  | step line more hline ih =>
      rw [entries_append hline]
      by_cases hblank : line.dropWhile isSpace = []
      · -- the conversion goes on in the next line
        have hnext : scanInt (line ++ '\n' :: more) = scanInt more := by
          rw [scanInt_blanks hblank]
          exact @scanInt_blanks ['\n'] more rfl
        rw [hnext, lineEntries_blank hblank]
        exact ih
      · have hhere := @scanInt_append line ('\n' :: more) hblank
          (fun char hchar => by cases hchar; rfl)
        rcases hscan : scanInt line with ⟨found, rest⟩
        have hrest : '\n' ∉ rest := fun hmem =>
          hline (mem_of_mem_scanInt (by rwa [hscan]))
        rw [hscan] at hhere
        rw [hhere]
        cases found with
        | some value =>
            exact .inl ⟨value, _, rfl, by
              rw [entries_append hrest, lineEntries_some hblank hscan,
                List.cons_append]⟩
        | none =>
            exact .inr (.inl ⟨_, more, rfl, discardLine_append hrest, by
              rw [lineEntries_none hblank hscan, List.singleton_append]⟩)

end Lines

section Listings

/-- The values of `int`. -/
def InInt (value : Int) : Prop :=
  -2 ^ 31 ≤ value ∧ value < 2 ^ 31

instance (value : Int) : Decidable (InInt value) :=
  inferInstanceAs (Decidable (_ ∧ _))

/-- A text of the decimals of some `int`s with blanks before them.  No digit may follow
one of them. -/
inductive Lists : List Int → List Char → Prop where
  | done {rest : List Char} (hrest : ∀ char ∈ rest.head?, char.isDigit = false) :
      Lists [] rest
  | next {blanks rest : List Char} {value : Int} {values : List Int}
      (hblanks : ∀ char ∈ blanks, isSpace char = true) (hvalue : InInt value)
      (hrest : ∀ char ∈ rest.head?, char.isDigit = false)
      (hvalues : Lists values rest) :
      Lists (value :: values) (blanks ++ lld value ++ rest)

variable {blanks rest text : List Char} {value : Int} {values : List Int}

theorem toInt_saturate (hvalue : InInt value) : toInt (saturate value) = value := by
  rcases hvalue with ⟨hlow, hhigh⟩
  rw [saturate_of_inLongLong ⟨by omega, by omega⟩, toInt]
  exact Int.bmod_eq_of_le (by omega) (by omega)

theorem scanDigits_toDigits {sign : Int} {digits : Nat}
    (hvalue : InInt (sign * digits))
    (hrest : ∀ char ∈ rest.head?, char.isDigit = false) :
    scanDigits sign (Nat.toDigits 10 digits ++ rest) =
      (some (sign * digits), rest) := by
  have hdigits : ∀ char ∈ Nat.toDigits 10 digits, char.isDigit = true :=
    fun _ => isDigit_of_mem_digits
  rw [scanDigits, leadingDigits_toDigits digits hrest,
    takeWhile_isDigit_append hrest, dropWhile_isDigit_append hrest,
    List.takeWhile_eq_self_iff.mpr hdigits,
    List.dropWhile_eq_nil_iff.mpr hdigits, if_neg Nat.toDigits_ne_nil,
    toInt_saturate hvalue, List.nil_append]

/-- `%d` reads a printed number back. -/
theorem scanInt_lld (hblanks : ∀ char ∈ blanks, isSpace char = true)
    (hvalue : InInt value)
    (hrest : ∀ char ∈ rest.head?, char.isDigit = false) :
    scanInt (blanks ++ lld value ++ rest) = (some value, rest) := by
  rw [List.append_assoc, scanInt_blanks (List.dropWhile_eq_nil_iff.mpr hblanks),
    lld]
  split
  · rename_i hneg
    have hsign : -1 * (value.natAbs : Int) = value := by omega
    rw [scanInt_cons (show (('-' :: Nat.toDigits 10 value.natAbs) ++ rest).dropWhile
      isSpace = '-' :: (Nat.toDigits 10 value.natAbs ++ rest) from rfl),
      if_pos rfl, scanDigits_toDigits (by rwa [hsign]) hrest, hsign]
  · rename_i hnonneg
    have hsign : 1 * (value.natAbs : Int) = value := by omega
    obtain ⟨char, digits, hdigits⟩ :=
      List.exists_cons_of_ne_nil (@Nat.toDigits_ne_nil value.natAbs 10)
    have hdigit : char.isDigit = true :=
      isDigit_of_mem_digits (by rw [hdigits]; exact List.mem_cons_self)
    have hspace := isSpace_of_isDigit hdigit
    have hstart : (Nat.toDigits 10 value.natAbs ++ rest).dropWhile isSpace =
        char :: (digits ++ rest) := by
      rw [hdigits, List.cons_append, List.dropWhile_cons_of_neg (by simp [hspace])]
    rw [scanInt_cons hstart, if_neg, if_neg, ← List.cons_append, ← hdigits,
      scanDigits_toDigits (by rwa [hsign]) hrest, hsign]
    · rintro rfl
      exact absurd hdigit (by decide)
    · rintro rfl
      exact absurd hdigit (by decide)

theorem Lists.scanInts (hvalues : Lists values text) :
    ScanText.scanInts values.length text = values.map some := by
  induction hvalues with
  | done => rfl
  | next hblanks hvalue hrest hvalues ih =>
      rw [List.length_cons, ScanText.scanInts, scanInt_lld hblanks hvalue hrest,
        ih, List.map_cons]

end Listings

end ScanText
