/-
The log line of the mapping lab, and the test script that takes it apart with awk.
The fields of a block are read back as they were printed, in every run that gets to
the end of the line.
-/
import OsCourse.DecimalText
import OsCourse.MemoryBlocks

namespace OsCourse

namespace MemoryBlocks

open DecimalText ScanText

section Program

def logStart : List Char := ['L', 'O', 'G', '_', 'S', 'T', 'A', 'R', 'T']

def pidLabel : List Char := ['P', 'I', 'D', '=']

def logEnd : List Char := ['L', 'O', 'G', '_', 'E', 'N', 'D']

/-- What `main` prints: `"LOG_START|PID=%d|"`, the entries and `"LOG_END\n"`. -/
def logText (pid : Int) (entries : List Entry) : List Char :=
  logStart ++ '|' :: (pidLabel ++ lld pid ++
    '|' :: (entries.flatMap Entry.text ++ (logEnd ++ ['\n'])))

/-- `awk -F` with the separator, printing one field: nothing if there is no such
field. -/
def awkField (separator : Char) (index : Nat) (text : List Char) : List Char :=
  ((text.splitOn separator)[index - 1]?).getD []

/-- The variables of the script for one block. -/
structure Reported where
  name : List Char
  address : List Char
  size : List Char
  data : List Char
  mapRange : List Char
deriving DecidableEq

/-- `BLOCK_DATA` of the script: the number of the field, a colon and the field. -/
def blockData (line : List Char) (index : Nat) : List Char :=
  Nat.toDigits 10 (index + 3) ++ ':' :: awkField '|' (index + 3) line

/-- The fields that the script cuts out of a line of the log. -/
def reported (line : List Char) (index : Nat) : Reported :=
  let data := blockData line index
  { name := awkField '=' 1 data
    address := awkField '/' 1 (awkField '=' 2 data)
    size := awkField '/' 2 data
    data := awkField '/' 3 data
    mapRange := awkField '|' 1 (awkField '/' 4 data) }

/-- The line that `grep` finds, without its end. -/
def logLine (text : List Char) : List Char :=
  text.takeWhile fun char => char ≠ '\n'

end Program

section Fields

variable {separator : Char} {field rest : List Char}

theorem awkField_one_append (hfield : separator ∉ field) :
    awkField separator 1 (field ++ separator :: rest) = field := by
  rw [awkField, List.splitOn_append_cons_self_of_not_mem hfield]
  rfl

theorem splitOn_of_notMem (hfield : separator ∉ field) :
    field.splitOn separator = [field] := by
  have hfields : ∀ part ∈ [field], separator ∉ part := by simpa using hfield
  have hsplit := List.splitOn_intercalate separator hfields (by simp)
  rwa [List.intercalate_singleton] at hsplit

theorem awkField_one_of_notMem (hfield : separator ∉ field) :
    awkField separator 1 field = field := by
  rw [awkField, splitOn_of_notMem hfield]
  rfl

theorem awkField_succ_append (hfield : separator ∉ field) {index : Nat} :
    awkField separator (index + 2) (field ++ separator :: rest) =
      awkField separator (index + 1) rest := by
  rw [awkField, List.splitOn_append_cons_self_of_not_mem hfield]
  rfl

end Fields

section Marks

/-- The separators of the line, and its end. -/
def marks : List Char := ['|', '=', '/', '\n']

def Unmarked (text : List Char) : Prop :=
  ∀ mark ∈ marks, mark ∉ text

instance (text : List Char) : Decidable (Unmarked text) :=
  List.decidableBAll (fun mark => mark ∉ text) marks

variable {front back : List Char}

theorem Unmarked.append (hfront : Unmarked front) (hback : Unmarked back) :
    Unmarked (front ++ back) := fun mark hmark hchar =>
  (List.mem_append.mp hchar).elim (hfront mark hmark) (hback mark hmark)

theorem unmarked_of_all {text : List Char} {kind : Char → Bool}
    (hmarks : marks.all (fun mark => !kind mark) = true)
    (htext : ∀ char ∈ text, kind char = true) : Unmarked text := by
  intro mark hmark hchar
  have hkind := List.all_eq_true.mp hmarks mark hmark
  rw [htext mark hchar] at hkind
  cases hkind

theorem unmarked_hexDigits (value : Nat) : Unmarked (hexDigits value) :=
  unmarked_of_all (by decide) (isHexDigit_of_mem_hexDigits value)

theorem unmarked_toDigits (value : Nat) :
    Unmarked (Nat.toDigits 10 value) :=
  unmarked_of_all (by decide) fun _ => isDigit_of_mem_digits

theorem unmarked_lld (value : Int) : Unmarked (lld value) := by
  rw [lld]
  split
  · exact (show Unmarked ['-'] by decide).append (unmarked_toDigits _)
  · exact unmarked_toDigits _

theorem unmarked_osMapRange (lenient : Bool) (maps : Option (List Char))
    (address : Nat) :
    Unmarked ((MapsRange.osMapRange lenient maps address).getD []) := by
  have htext : ∀ range : MapsRange.Range, Unmarked (range.text.take 29) :=
    fun range mark hmark hchar => by
      have hrange : Unmarked range.text :=
        (unmarked_hexDigits _).append ((show Unmarked ['-'] by decide).append
          (unmarked_hexDigits _))
      exact hrange mark hmark (List.mem_of_mem_take hchar)
  cases maps with
  | none =>
      rw [MapsRange.osMapRange, MapsRange.getOsMapRange]
      decide
  | some stream =>
      rw [MapsRange.osMapRange, MapsRange.getOsMapRange]
      split
      · exact htext _
      · decide

end Marks

section Reading

/-- The text of an entry without its end. -/
def Entry.body (entry : Entry) : List Char :=
  entry.name ++ '=' :: (pointerText entry.address ++
    '/' :: (Nat.toDigits 10 entry.size ++
      '/' :: (lld entry.value ++ '/' :: entry.range)))

/-- The texts of an entry have no separators in them. -/
structure Entry.Plain (entry : Entry) : Prop where
  name : Unmarked entry.name
  range : Unmarked entry.range

variable {entry : Entry} {entries : List Entry} {line : List Char}

theorem Entry.text_eq (entry : Entry) : entry.text = entry.body ++ ['|'] := by
  simp [Entry.text, Entry.body]

theorem unmarked_pointerText (address : Nat) :
    Unmarked (pointerText address) := by
  rw [pointerText]
  split
  · decide
  · exact (show Unmarked ['0', 'x'] by decide).append
      (unmarked_hexDigits address)

theorem Entry.Plain.notMem_body (hplain : entry.Plain) {mark : Char}
    (hmark : mark ∈ ['|', '\n']) : mark ∉ entry.body := by
  have hmarks : mark ∈ marks := by
    rcases List.mem_pair.mp hmark with rfl | rfl <;> decide
  have hequals : mark ≠ '=' := by
    rcases List.mem_pair.mp hmark with rfl | rfl <;> decide
  have hslash : mark ≠ '/' := by
    rcases List.mem_pair.mp hmark with rfl | rfl <;> decide
  simp only [Entry.body, List.mem_append, List.mem_cons, hequals, hslash,
    false_or]
  rintro (hname | hpointer | hsize | hvalue | hrange)
  · exact hplain.name mark hmarks hname
  · exact unmarked_pointerText _ mark hmarks hpointer
  · exact unmarked_toDigits _ mark hmarks hsize
  · exact unmarked_lld _ mark hmarks hvalue
  · exact hplain.range mark hmarks hrange

theorem splitOn_entries (hplain : ∀ entry ∈ entries, entry.Plain)
    (rest : List Char) :
    (entries.flatMap Entry.text ++ rest).splitOn '|' =
      entries.map Entry.body ++ rest.splitOn '|' := by
  induction entries with
  | nil => rfl
  | cons entry entries ih =>
      rw [List.forall_mem_cons] at hplain
      rw [List.flatMap_cons, Entry.text_eq, List.append_assoc,
        List.append_assoc, List.singleton_append,
        List.splitOn_append_cons_self_of_not_mem
          (hplain.1.notMem_body (by decide)), ih hplain.2]
      rfl

theorem logLine_append {text : List Char} (htext : '\n' ∉ text) :
    logLine (text ++ ['\n']) = text := by
  have hline : ∀ char ∈ text, decide (char ≠ '\n') = true := by
    intro char hchar
    rw [decide_eq_true_eq]
    rintro rfl
    exact htext hchar
  rw [logLine, List.takeWhile_append_of_pos hline,
    List.takeWhile_cons_of_neg (by decide), List.append_nil]

theorem logLine_logText (hplain : ∀ entry ∈ entries, entry.Plain)
    (pid : Int) :
    logLine (logText pid entries) =
      logStart ++ '|' :: (pidLabel ++ lld pid ++
        '|' :: (entries.flatMap Entry.text ++ logEnd)) := by
  have htext : logText pid entries =
      (logStart ++ '|' :: (pidLabel ++ lld pid ++
        '|' :: (entries.flatMap Entry.text ++ logEnd))) ++ ['\n'] := by
    simp only [logText, List.append_assoc, List.cons_append]
  rw [htext, logLine_append]
  simp only [List.mem_append, List.mem_cons]
  rintro (hstart | hbar | (hlabel | hpid) | hbar | hentries | hend)
  · exact absurd hstart (by decide)
  · exact absurd hbar (by decide)
  · exact absurd hlabel (by decide)
  · exact unmarked_lld pid '\n' (by decide) hpid
  · exact absurd hbar (by decide)
  · obtain ⟨entry, hentry, htext⟩ := List.mem_flatMap.mp hentries
    rw [Entry.text_eq, List.mem_append] at htext
    rcases htext with hbody | hlast
    · exact (hplain entry hentry).notMem_body (by decide) hbody
    · exact absurd hlast (by decide)
  · exact absurd hend (by decide)

/-- The fields of the line behind the second are the entries. -/
theorem awkField_logLine (hplain : ∀ entry ∈ entries, entry.Plain)
    {index : Nat} (hentry : entries[index]? = some entry) (pid : Int) :
    awkField '|' (index + 3) (logLine (logText pid entries)) =
      entry.body := by
  have hpid : '|' ∉ pidLabel ++ lld pid := by
    rw [List.mem_append]
    rintro (hlabel | hpid)
    · exact absurd hlabel (by decide)
    · exact unmarked_lld pid '|' (by decide) hpid
  have hbody : (entries.map Entry.body)[index]? = some entry.body := by
    rw [List.getElem?_map, hentry, Option.map_some]
  rw [logLine_logText hplain, awkField,
    List.splitOn_append_cons_self_of_not_mem (by decide),
    List.splitOn_append_cons_self_of_not_mem hpid, splitOn_entries hplain]
  simp only [List.getElem?_cons_succ,
    show index + 3 - 1 = index + 2 from rfl]
  rw [List.getElem?_append_left (List.getElem?_eq_some_iff.mp hbody).1, hbody,
    Option.getD_some]

/-- What the script reads of a field that is an entry. -/
theorem reported_of_awkField (hplain : entry.Plain) {index : Nat}
    (hfield : awkField '|' (index + 3) line = entry.body) :
    reported line index =
      { name := Nat.toDigits 10 (index + 3) ++ ':' :: entry.name
        address := pointerText entry.address
        size := Nat.toDigits 10 entry.size
        data := lld entry.value
        mapRange := entry.range } := by
  let name := Nat.toDigits 10 (index + 3) ++ ':' :: entry.name
  let pointer := pointerText entry.address
  let fields := Nat.toDigits 10 entry.size ++
    '/' :: (lld entry.value ++ '/' :: entry.range)
  have hname : Unmarked name :=
    (unmarked_toDigits _).append ((show Unmarked [':'] by decide).append
      hplain.name)
  have hpointer : Unmarked pointer := unmarked_pointerText _
  have hequals : blockData line index =
      name ++ '=' :: (pointer ++ '/' :: fields) := by
    rw [blockData, hfield, Entry.body]
    simp [name, pointer, fields]
  have hslashes : blockData line index =
      (name ++ '=' :: pointer) ++ '/' :: fields := by
    rw [hequals]
    simp
  have hhead : '/' ∉ name ++ '=' :: pointer := by
    rw [List.mem_append, List.mem_cons]
    rintro (hmem | hmem | hmem)
    · exact hname '/' (by decide) hmem
    · exact absurd hmem (by decide)
    · exact hpointer '/' (by decide) hmem
  have htail : '=' ∉ pointer ++ '/' :: fields := by
    simp only [fields, List.mem_append, List.mem_cons]
    rintro (hmem | hmem | hmem | hmem | hmem | hmem | hmem)
    · exact hpointer '=' (by decide) hmem
    · exact absurd hmem (by decide)
    · exact unmarked_toDigits _ '=' (by decide) hmem
    · exact absurd hmem (by decide)
    · exact unmarked_lld _ '=' (by decide) hmem
    · exact absurd hmem (by decide)
    · exact hplain.range '=' (by decide) hmem
  have hsize : '/' ∉ Nat.toDigits 10 entry.size :=
    unmarked_toDigits _ '/' (by decide)
  have hvalue : '/' ∉ lld entry.value := unmarked_lld _ '/' (by decide)
  rw [reported]
  congr 1
  · rw [hequals, awkField_one_append (hname '=' (by decide))]
  · rw [hequals, awkField_succ_append (hname '=' (by decide)),
      awkField_one_of_notMem htail,
      awkField_one_append (hpointer '/' (by decide))]
  · rw [hslashes, awkField_succ_append hhead, awkField_one_append hsize]
  · rw [hslashes, awkField_succ_append hhead, awkField_succ_append hsize,
      awkField_one_append hvalue]
  · rw [hslashes, awkField_succ_append hhead, awkField_succ_append hsize,
      awkField_succ_append hvalue,
      awkField_one_of_notMem (hplain.range '/' (by decide)),
      awkField_one_of_notMem (hplain.range '|' (by decide))]

end Reading

section Report

variable {lenient : Bool} {answers : Fin 4 → Answer} {space final : Memory}
  {entries : List Entry}

theorem length_of_mapM {α β : Type} {read : α → Option β} {items : List α}
    {results : List β} (hresults : items.mapM read = some results) :
    results.length = items.length := by
  induction items generalizing results with
  | nil =>
      cases hresults
      rfl
  | cons item items ih =>
      rw [List.mapM_cons] at hresults
      simp only [Option.bind_eq_bind, Option.bind_eq_some_iff] at hresults
      obtain ⟨first, -, rest, hrest, hsome⟩ := hresults
      cases hsome
      exact congrArg Nat.succ (ih hrest)

theorem getElem?_of_mapM {α β : Type} {read : α → Option β} {items : List α}
    {results : List β} (hresults : items.mapM read = some results)
    (index : Nat) : results[index]? = items[index]?.bind read := by
  induction items generalizing results index with
  | nil =>
      cases hresults
      rfl
  | cons item items ih =>
      rw [List.mapM_cons] at hresults
      simp only [Option.bind_eq_bind, Option.bind_eq_some_iff] at hresults
      obtain ⟨first, hfirst, rest, hrest, hsome⟩ := hresults
      cases hsome
      cases index with
      | zero => exact hfirst.symm
      | succ index => exact ih hrest index

/-- The entries are about the calls, in their order. -/
theorem entries_spec (hmain : main lenient answers space =
      some (entries, final)) :
    entries.length = 4 ∧
      ∃ created, ∀ index : Nat, entries[index]? =
        (calls answers)[index]?.bind fun call =>
          printResultLog created (call.memoryBlock lenient) := by
  obtain ⟨created, -, hcreated⟩ :=
    createMemoryBlocks_spec lenient (calls answers) space
  rw [main, hcreated] at hmain
  simp only [Option.bind_eq_bind, Option.bind_some,
    Option.bind_eq_some_iff] at hmain
  obtain ⟨printed, hprinted, hresult⟩ := hmain
  cases hresult
  refine ⟨?_, created, fun index => ?_⟩
  · rw [length_of_mapM hprinted, List.length_map, calls, List.length_ofFn]
  · rw [getElem?_of_mapM hprinted, List.getElem?_map, Option.bind_map]
    rfl

theorem fields_of_printResultLog {call : Call} {entry : Entry}
    (hentry : printResultLog space (call.memoryBlock lenient) = some entry) :
    entry.name = call.1.name ∧ entry.size = call.1.size ∧
      Unmarked entry.range := by
  obtain ⟨value, -, rfl⟩ := Option.map_eq_some_iff.mp hentry
  rw [Call.memoryBlock]
  cases call.block? with
  | none => exact ⟨rfl, rfl, show Unmarked mapFailedText by decide⟩
  | some block => exact ⟨rfl, rfl, unmarked_osMapRange _ _ _⟩

theorem plain_of_mem (hmain : main lenient answers space =
      some (entries, final)) : ∀ entry ∈ entries, entry.Plain := by
  intro entry hmem
  obtain ⟨index, hindex⟩ := List.mem_iff_getElem?.mp hmem
  obtain ⟨-, created, hentries⟩ := entries_spec hmain
  have hentry := hentries index
  rw [hindex] at hentry
  obtain ⟨call, hcall, hprinted⟩ := Option.bind_eq_some_iff.mp hentry.symm
  obtain ⟨hname, -, hrange⟩ := fields_of_printResultLog hprinted
  obtain ⟨block, rfl⟩ := List.mem_ofFn.mp (List.mem_of_getElem? hcall)
  have hnames : ∀ block, Unmarked (requests block).name := by decide
  exact ⟨hname ▸ hnames block, hrange⟩

/-- In every run that prints the whole line, the test script reads the address, the
size, the value and the range of each block back as they were printed, and its name
behind the number of the field and a colon. -/
theorem reported_main (hmain : main lenient answers space =
      some (entries, final)) (pid : Int) (index : Fin 4) :
    ∃ entry, entries[index.val]? = some entry ∧
      reported (logLine (logText pid entries)) index =
        { name := Nat.toDigits 10 (index + 3) ++ ':' :: (requests index).name
          address := pointerText entry.address
          size := Nat.toDigits 10 (requests index).size
          data := lld entry.value
          mapRange := entry.range } := by
  have hplain := plain_of_mem hmain
  obtain ⟨hlength, created, hentries⟩ := entries_spec hmain
  have hcall : (calls answers)[index.val]? =
      some (requests index, answers index) := by
    rw [calls, List.getElem?_ofFn, dif_pos index.isLt]
  have hbound : index.val < entries.length := hlength.symm ▸ index.isLt
  obtain ⟨entry, hentry⟩ : ∃ entry, entries[index.val]? = some entry :=
    ⟨_, List.getElem?_eq_getElem hbound⟩
  have hprinted := hentries index
  rw [hcall, hentry, Option.bind_some] at hprinted
  obtain ⟨hname, hsize, -⟩ := fields_of_printResultLog hprinted.symm
  have hmem := List.mem_of_getElem? hentry
  refine ⟨entry, hentry, ?_⟩
  rw [reported_of_awkField (hplain entry hmem)
    (awkField_logLine hplain hentry pid), hname, hsize]

theorem reported_lowAnswers :
    ∃ entries final, main true lowAnswers emptyMemory =
      some (entries, final) ∧
      ∃ entry, entries[2]? = some entry ∧
        reported (logLine (logText 7 entries)) 2 =
          { name := Nat.toDigits 10 5 ++ ':' :: (requests 2).name
            address := pointerText entry.address
            size := Nat.toDigits 10 (requests 2).size
            data := lld entry.value
            mapRange := entry.range } := by
  have hcomplete : (main true lowAnswers emptyMemory).isSome = true :=
    isSome_main.mpr (by decide)
  obtain ⟨⟨entries, final⟩, hmain⟩ := Option.isSome_iff_exists.mp hcomplete
  exact ⟨entries, final, hmain, reported_main hmain 7 2⟩

end Report

end MemoryBlocks

end OsCourse
