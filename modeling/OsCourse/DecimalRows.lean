/-
Texts of decimal rows: one line a row, the numbers of a row separated by single
spaces.  The reader takes the text apart at its separators, so that it accepts
rows of any length, and it gives back the rows that were printed.
-/
import OsCourse.DecimalText

namespace DecimalRows

open DecimalText

section Printing

def printRow (row : List Nat) : List Char :=
  [' '].intercalate (row.map (Nat.toDigits 10))

def printRows (rows : List (List Nat)) : List Char :=
  rows.flatMap fun row => printRow row ++ ['\n']

end Printing

section Reading

/-- The lines of a text whose last line is ended as well. -/
def lines (text : List Char) : Option (List (List Char)) :=
  let parts := text.splitOn '\n'
  if parts.getLast? = some [] then some parts.dropLast else none

/-- A field that consists of digits. -/
def readNumber (field : List Char) : Option Nat :=
  if field ≠ [] ∧ ∀ char ∈ field, char.isDigit = true then
    some (Nat.ofDigitChars 10 field 0)
  else none

def readRow (line : List Char) : Option (List Nat) :=
  (line.splitOn ' ').mapM readNumber

def readRows (text : List Char) : Option (List (List Nat)) := do
  (← lines text).mapM readRow

end Reading

/-- Reading each element back reads the list back. -/
theorem mapM_map_some {α β : Type} {print : α → β} {read : β → Option α}
    {values : List α} (hread : ∀ value ∈ values, read (print value) = some value) :
    (values.map print).mapM read = some values := by
  induction values with
  | nil => rfl
  | cons value values ih =>
      rw [List.forall_mem_cons] at hread
      rw [List.map_cons, List.mapM_cons, hread.1, ih hread.2]
      rfl

theorem readNumber_toDigits (number : Nat) :
    readNumber (Nat.toDigits 10 number) = some number := by
  rw [readNumber, if_pos ⟨Nat.toDigits_ne_nil, fun _ => isDigit_of_mem_digits⟩,
    Nat.ofDigitChars_ten_toDigits]

variable {row : List Nat} {rows : List (List Nat)}

theorem readRow_printRow (hrow : row ≠ []) :
    readRow (printRow row) = some row := by
  have hfields : ∀ field ∈ row.map (Nat.toDigits 10), ' ' ∉ field := by
    intro field hfield hspace
    obtain ⟨number, -, rfl⟩ := List.mem_map.mp hfield
    exact absurd (isDigit_of_mem_digits hspace) (by decide)
  have hnonempty : row.map (Nat.toDigits 10) ≠ [] := by
    rwa [ne_eq, List.map_eq_nil_iff]
  rw [readRow, printRow, List.splitOn_intercalate ' ' hfields hnonempty]
  exact mapM_map_some fun number _ => readNumber_toDigits number

/-- A row has digits and spaces only. -/
theorem mem_printRow {char : Char} (hchar : char ∈ printRow row) :
    char.isDigit = true ∨ char = ' ' := by
  induction row with
  | nil => simp [printRow] at hchar
  | cons number row ih =>
      cases row with
      | nil =>
          rw [printRow, List.map_singleton,
            List.intercalate_singleton] at hchar
          exact .inl (isDigit_of_mem_digits hchar)
      | cons next row =>
          rw [printRow, List.map_cons, List.map_cons,
            List.intercalate_cons_cons, List.append_assoc, List.mem_append,
            List.mem_append, List.mem_singleton] at hchar
          rcases hchar with hdigit | hspace | hrest
          · exact .inl (isDigit_of_mem_digits hdigit)
          · exact .inr hspace
          · exact ih hrest

theorem newline_notMem_printRow : '\n' ∉ printRow row := by
  intro hchar
  rcases mem_printRow hchar with hdigit | hspace
  · exact absurd hdigit (by decide)
  · exact absurd hspace (by decide)

theorem splitOn_printRows :
    (printRows rows).splitOn '\n' = rows.map printRow ++ [[]] := by
  induction rows with
  | nil => rfl
  | cons row rows ih =>
      rw [printRows, List.flatMap_cons, List.append_assoc,
        List.singleton_append,
        List.splitOn_append_cons_self_of_not_mem newline_notMem_printRow]
      exact congrArg (printRow row :: ·) ih

/-- A text of rows has one line for each row. -/
theorem lines_printRows : lines (printRows rows) = some (rows.map printRow) := by
  simp only [lines, splitOn_printRows, List.getLast?_concat,
    List.dropLast_concat, if_true]

/-- Printed rows are read back. -/
theorem readRows_printRows (hrows : ∀ row ∈ rows, row ≠ []) :
    readRows (printRows rows) = some rows := by
  rw [readRows, lines_printRows]
  exact mapM_map_some fun row hrow => readRow_printRow (hrows row hrow)

theorem toNat_lt_of_mem_printRows {char : Char}
    (hchar : char ∈ printRows rows) : char.toNat < 256 := by
  obtain ⟨row, -, hrow⟩ := List.mem_flatMap.mp hchar
  rw [List.mem_append, List.mem_singleton] at hrow
  rcases hrow with hrow | rfl
  · rcases mem_printRow hrow with hdigit | rfl
    · have hrange := digit_range hdigit
      omega
    · decide
  · decide

end DecimalRows
