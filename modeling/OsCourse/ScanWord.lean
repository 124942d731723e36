/-
The words of a text, which are its runs of characters that are not white space, and
`%s` with a width, which may take a word in parts.
-/
import OsCourse.ScanText

namespace ScanText

open DecimalText

section Words

def isWordChar (char : Char) : Bool :=
  !isSpace char

/-- The words of a text, in order. -/
def words (text : List Char) : List (List Char) :=
  (text.splitOnP isSpace).filter (· ≠ [])

/-- The first word, empty if there is none. -/
def word (text : List Char) : List Char :=
  (text.dropWhile isSpace).takeWhile isWordChar

def afterWord (text : List Char) : List Char :=
  (text.dropWhile isSpace).dropWhile isWordChar

/-- `%s` with a width: white space is passed, and the word is taken up to the
width. -/
def scanWord (width : Nat) (text : List Char) :
    Option (List Char) × List Char :=
  let found := text.dropWhile isSpace
  let taken := (found.takeWhile isWordChar).take width
  if found = [] then (none, []) else (some taken, found.drop taken.length)

variable {text rest : List Char}

theorem words_append_cons {char : Char} (hspace : isSpace char = true)
    (before after : List Char) :
    words (before ++ char :: after) = words before ++ words after := by
  rw [words, List.splitOnP_append_cons before after hspace,
    List.filter_append]
  rfl

theorem words_cons {char : Char} (hspace : isSpace char = true)
    (after : List Char) : words (char :: after) = words after :=
  words_append_cons hspace [] after

theorem words_append_of_forall_isSpace {blanks : List Char}
    (hblanks : ∀ char ∈ blanks, isSpace char = true) (rest : List Char) :
    words (blanks ++ rest) = words rest := by
  induction blanks with
  | nil => rfl
  | cons char blanks ih =>
      rw [List.forall_mem_cons] at hblanks
      rw [List.cons_append, words_cons hblanks.1, ih hblanks.2]

theorem words_of_forall_isSpace
    (hblanks : ∀ char ∈ text, isSpace char = true) : words text = [] := by
  have hwords := words_append_of_forall_isSpace hblanks []
  rw [List.append_nil] at hwords
  exact hwords

theorem words_of_forall_isWordChar (hnonempty : text ≠ [])
    (hword : ∀ char ∈ text, isWordChar char = true) :
    words text = [text] := by
  have hsingle : text.splitOnP isSpace = [text] := by
    refine List.splitOnP_eq_singleton fun char hchar => ?_
    have hchar := hword char hchar
    rw [isWordChar, Bool.not_eq_true'] at hchar
    exact hchar
  rw [words, hsingle]
  simp [hnonempty]

theorem blanks_append_word (text : List Char) :
    text.takeWhile isSpace ++ (word text ++ afterWord text) = text := by
  rw [word, afterWord, List.takeWhile_append_dropWhile,
    List.takeWhile_append_dropWhile]

theorem isSpace_of_mem_blanks :
    ∀ char ∈ text.takeWhile isSpace, isSpace char = true :=
  fun _ hchar => List.mem_takeWhile_imp hchar

theorem isWordChar_of_mem_word :
    ∀ char ∈ word text, isWordChar char = true :=
  fun _ hchar => List.mem_takeWhile_imp hchar

/-- A word ends at white space or at the end of the text. -/
theorem isSpace_of_head_afterWord :
    ∀ char ∈ (afterWord text).head?, isSpace char = true := by
  intro char hchar
  have hhead := List.head?_dropWhile_not isWordChar
    (text.dropWhile isSpace)
  rw [afterWord] at hchar
  rw [hchar] at hhead
  simpa [isWordChar] using hhead

theorem dropWhile_isSpace_of_word_eq_nil (hword : word text = []) :
    text.dropWhile isSpace = [] := by
  cases hfound : text.dropWhile isSpace with
  | nil => rfl
  | cons char rest =>
      have hhead := List.head?_dropWhile_not isSpace text
      rw [hfound] at hhead
      have hchar : isWordChar char = true := by
        rw [isWordChar, hhead]
        rfl
      rw [word, hfound, List.takeWhile_cons_of_pos hchar] at hword
      exact absurd hword (List.cons_ne_nil _ _)

/-- The first word and the words behind it. -/
theorem words_eq (text : List Char) :
    words text =
      if word text = [] then [] else word text :: words (afterWord text) := by
  have hwords : words text = words (word text ++ afterWord text) := by
    have hblanks := words_append_of_forall_isSpace
      (@isSpace_of_mem_blanks text) (word text ++ afterWord text)
    rw [blanks_append_word] at hblanks
    exact hblanks
  rw [hwords]
  split
  · rename_i hempty
    have hafter : afterWord text = [] := by
      rw [afterWord, dropWhile_isSpace_of_word_eq_nil hempty]
      rfl
    rw [hempty, hafter]
    rfl
  · rename_i hnonempty
    have hword := words_of_forall_isWordChar hnonempty
      isWordChar_of_mem_word
    cases hafter : afterWord text with
    | nil =>
        rw [List.append_nil, hword]
        rfl
    | cons char rest =>
        have hspace : isSpace char = true :=
          isSpace_of_head_afterWord char (by rw [hafter]; rfl)
        rw [words_append_cons hspace, words_cons hspace, hword]
        rfl

/-- A word that is not wider than the width is taken whole. -/
theorem scanWord_of_le {width : Nat} (hword : word text ≠ [])
    (hwidth : (word text).length ≤ width) :
    scanWord width text = (some (word text), afterWord text) := by
  have hfound : text.dropWhile isSpace ≠ [] := by
    intro hempty
    rw [word, hempty] at hword
    exact hword rfl
  have hdrop : (text.dropWhile isSpace).drop (word text).length =
      afterWord text := by
    have happend : word text ++ afterWord text = text.dropWhile isSpace :=
      List.takeWhile_append_dropWhile
    rw [← happend, List.drop_left]
  have htake : ((text.dropWhile isSpace).takeWhile isWordChar).take width =
      word text := List.take_of_length_le hwidth
  rw [scanWord, if_neg hfound, htake, hdrop]

/-- Of a wider word the width is taken. -/
theorem fst_scanWord_of_lt {width : Nat}
    (hwidth : width < (word text).length) :
    ∃ taken, (scanWord width text).1 = some taken ∧
      taken.length = width := by
  have hfound : text.dropWhile isSpace ≠ [] := by
    intro hempty
    rw [word, hempty] at hwidth
    exact Nat.not_lt_zero _ hwidth
  rw [scanWord, if_neg hfound]
  exact ⟨_, rfl, List.length_take_of_le hwidth.le⟩

theorem scanWord_of_word_eq_nil {width : Nat} (hword : word text = []) :
    scanWord width text = (none, []) := by
  rw [scanWord, if_pos (dropWhile_isSpace_of_word_eq_nil hword)]

end Words

section Positions

variable {text : List Char}

/-- How many characters stand before the first word. -/
def firstWordStart (text : List Char) : Nat :=
  (text.takeWhile isSpace).length

/-- How many characters stand before the end of the second word. -/
def secondWordEnd (text : List Char) : Nat :=
  text.length - (afterWord (afterWord text)).length

theorem dropWhile_isSpace_append {blanks rest : List Char}
    (hblanks : ∀ char ∈ blanks, isSpace char = true) :
    (blanks ++ rest).dropWhile isSpace = rest.dropWhile isSpace :=
  List.dropWhile_append_of_pos hblanks

/-- White space before a word may be left out. -/
theorem dropWhile_drop {count : Nat} (hcount : count ≤ firstWordStart text) :
    (text.drop count).dropWhile isSpace = text.dropWhile isSpace := by
  have hblanks : ∀ char ∈ (text.takeWhile isSpace).drop count,
      isSpace char = true :=
    fun char hchar => isSpace_of_mem_blanks char (List.mem_of_mem_drop hchar)
  have hdrop : text.drop count =
      (text.takeWhile isSpace).drop count ++ text.dropWhile isSpace := by
    calc text.drop count
      _ = (text.takeWhile isSpace ++ text.dropWhile isSpace).drop count := by
          rw [List.takeWhile_append_dropWhile]
      _ = (text.takeWhile isSpace).drop count ++ text.dropWhile isSpace :=
          List.drop_append_of_le_length hcount
  rw [hdrop, dropWhile_isSpace_append hblanks, List.dropWhile_idempotent]

theorem word_drop {count : Nat} (hcount : count ≤ firstWordStart text) :
    word (text.drop count) = word text ∧
      afterWord (text.drop count) = afterWord text := by
  rw [word, afterWord, dropWhile_drop hcount]
  exact ⟨rfl, rfl⟩

theorem word_append {blanks found rest : List Char}
    (hblanks : ∀ char ∈ blanks, isSpace char = true)
    (hfound : ∀ char ∈ found, isWordChar char = true)
    (hrest : ∀ char ∈ rest.head?, isSpace char = true)
    (hnonempty : found ≠ []) :
    word (blanks ++ (found ++ rest)) = found ∧
      afterWord (blanks ++ (found ++ rest)) = rest := by
  have hstart : (found ++ rest).dropWhile isSpace = found ++ rest := by
    cases found with
    | nil => exact absurd rfl hnonempty
    | cons char found =>
        have hchar := hfound char List.mem_cons_self
        rw [isWordChar, Bool.not_eq_true'] at hchar
        exact List.dropWhile_cons_of_neg (by simp [hchar])
  have hstop : rest.takeWhile isWordChar = [] ∧
      rest.dropWhile isWordChar = rest := by
    cases rest with
    | nil => exact ⟨rfl, rfl⟩
    | cons char rest =>
        have hchar : ¬ isWordChar char = true := by
          rw [isWordChar, hrest char rfl]
          exact Bool.false_ne_true
        exact ⟨List.takeWhile_cons_of_neg hchar,
          List.dropWhile_cons_of_neg hchar⟩
  rw [word, afterWord, dropWhile_isSpace_append hblanks, hstart,
    List.takeWhile_append_of_pos hfound, List.dropWhile_append_of_pos hfound,
    hstop.1, hstop.2, List.append_nil]
  exact ⟨rfl, rfl⟩

/-- A text that is cut behind its first word. -/
theorem word_take {count : Nat} (hword : word text ≠ [])
    (hcount : text.length - (afterWord text).length ≤ count) :
    word (text.take count) = word text ∧
      afterWord (text.take count) =
        (afterWord text).take
          (count - (text.length - (afterWord text).length)) := by
  have htext := blanks_append_word text
  have hlength := congrArg List.length htext
  simp only [List.length_append] at hlength
  have htake : text.take count =
      text.takeWhile isSpace ++ (word text ++ (afterWord text).take
        (count - (text.length - (afterWord text).length))) := by
    calc text.take count
      _ = (text.takeWhile isSpace ++
            (word text ++ afterWord text)).take count := by
          rw [htext]
      _ = text.takeWhile isSpace ++ (word text ++ (afterWord text).take
            (count - (text.length - (afterWord text).length))) := by
          rw [List.take_append, List.take_append,
            List.take_of_length_le (by omega),
            List.take_of_length_le (by omega)]
          congr 3
          omega
  rw [htake]
  refine word_append isSpace_of_mem_blanks isWordChar_of_mem_word ?_ hword
  intro char hchar
  refine @isSpace_of_head_afterWord text char ?_
  generalize count - (text.length - (afterWord text).length) = left at hchar
  cases hafter : afterWord text with
  | nil =>
      rw [hafter, List.take_nil] at hchar
      exact hchar
  | cons next rest =>
      cases left with
      | zero => cases hchar
      | succ left =>
          rw [hafter] at hchar
          exact hchar

/-- A text that is cut behind its second word. -/
theorem words_take {count : Nat} (hfirst : word text ≠ [])
    (hsecond : word (afterWord text) ≠ [])
    (hcount : secondWordEnd text ≤ count) :
    word (text.take count) = word text ∧
      word (afterWord (text.take count)) = word (afterWord text) := by
  have hlength := congrArg List.length (blanks_append_word text)
  have hlater := congrArg List.length (blanks_append_word (afterWord text))
  simp only [List.length_append] at hlength hlater
  rw [secondWordEnd] at hcount
  obtain ⟨hword, hafter⟩ := @word_take text count hfirst (by omega)
  rw [hafter]
  exact ⟨hword, (word_take hsecond (by omega)).1⟩

end Positions

end ScanText
