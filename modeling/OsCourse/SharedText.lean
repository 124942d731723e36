/-
The shared text of the Caesar pair: `encrypt_writer` reads a line, shifts its
bytes and leaves them in a shared segment, and `decrypt_writer` copies them from
there and shifts them back.  A `char` is a byte and its arithmetic is modulo 256.
-/
import OsCourse.CheckedBuffer
import Mathlib.Data.List.TakeWhile
import Mathlib.Tactic.Common

namespace OsCourse

namespace SharedText

open CheckedBuffer

/-- `SHM_SIZE`, the size of the segment and of both buffers. -/
def shmSize : Nat := 1024

def newline : UInt8 := 10

/-- A segment, or a buffer before it is written. -/
structure Block where
  bytes : List UInt8
  full : bytes.length = shmSize

/-- The variables of the loops. -/
structure Cursor where
  i : Int
  buf : List UInt8

/-- `c && c != '\n'`: the byte does not end a text. -/
def inside (byte : UInt8) : Bool :=
  byte ≠ 0 && byte ≠ newline

section EncryptWriter

/-- What `fgets` takes from its stream, for at most `count` bytes. -/
def takeLine : (count : Nat) → List UInt8 → List UInt8
  | count + 1, byte :: rest =>
      if byte = newline then [byte] else byte :: takeLine count rest
  | _, _ => []

/-- `fgets` of a whole buffer; `none` for a stream without a byte. -/
def fgets (buf : Block) (stdin : List UInt8) : Option (List UInt8) :=
  let line := takeLine (shmSize - 1) stdin
  if line = [] then none
  else some (line ++ 0 :: buf.bytes.drop (line.length + 1))

/-- `for (size_t i = 0; buf[i] && buf[i] != '\n'; i++) buf[i] += 3;`. -/
def encryptLoop : Nat → Cursor → Except Fault Cursor :=
  whileLoop
    (fun state => do
      let cell ← load state.buf state.i
      return inside cell)
    (fun state => do
      let cell ← load state.buf state.i
      let buf ← store state.buf state.i (cell + 3)
      return ⟨state.i + 1, buf⟩)

/-- `strncpy`, which fills the rest of its `count` bytes with zeros. -/
def strncpy (destination source : List UInt8) (count : Nat) : List UInt8 :=
  let copied := (source.takeWhile (· ≠ 0)).take count
  copied ++ List.replicate (count - copied.length) 0 ++
    destination.drop count

theorem length_strncpy {destination source : List UInt8} {count : Nat}
    (hcount : count ≤ destination.length) :
    (strncpy destination source count).length = destination.length := by
  simp only [strncpy, List.length_append, List.length_replicate,
    List.length_drop, List.length_take]
  omega

/-- A segment after `memset(mem, 0, SHM_SIZE)`. -/
def zeros : Block :=
  ⟨List.replicate shmSize 0, List.length_replicate⟩

theorem zeros_room : shmSize - 1 ≤ zeros.bytes.length := by
  rw [zeros.full]
  exact Nat.sub_le _ _

inductive Encryption where
  | failed
  | written (mem : Block)

/-- `encrypt_writer`; `opened` tells whether the calls that map the segment
succeed. -/
def encryptWriter (opened : Bool) (buf : Block) (stdin : List UInt8) :
    Except Fault Encryption :=
  match fgets buf stdin with
  | none => return .failed
  | some buf => do
      let encrypted ← encryptLoop (shmSize + 1) ⟨0, buf⟩
      if opened then
        return .written ⟨strncpy zeros.bytes encrypted.buf (shmSize - 1),
          (length_strncpy zeros_room).trans zeros.full⟩
      else return .failed

end EncryptWriter

section DecryptWriter

/-- The loop that copies the segment up to a newline or its end. -/
def copyLoop (mem : List UInt8) : Nat → Cursor → Except Fault Cursor :=
  whileLoop
    (fun state =>
      if state.i < (shmSize : Int) - 1 then do
        let cell ← load mem state.i
        return inside cell
      else return false)
    (fun state => do
      let cell ← load mem state.i
      let buf ← store state.buf state.i cell
      return ⟨state.i + 1, buf⟩)

/-- `if (i < SHM_SIZE) buf[i++] = '\n';`. -/
def appendNewline (state : Cursor) : Except Fault Cursor :=
  if state.i < shmSize then do
    let buf ← store state.buf state.i newline
    return ⟨state.i + 1, buf⟩
  else return state

/-- What `printf` writes for a `%s`. -/
def printed (buf : List UInt8) : Except Fault (List UInt8) :=
  if 0 ∈ buf then .ok (buf.takeWhile (· ≠ 0))
  else .error (.outside buf.length)

/-- `for (size_t j = 0; j < i; j++) if (buf[j] != '\n') buf[j] -= 3;`. -/
def decryptLoop (i : Int) : Nat → Cursor → Except Fault Cursor :=
  whileLoop (fun state => .ok (decide (state.i < i)))
    (fun state => do
      let cell ← load state.buf state.i
      if cell ≠ newline then
        let buf ← store state.buf state.i (cell - 3)
        return ⟨state.i + 1, buf⟩
      else return ⟨state.i + 1, state.buf⟩)

inductive Decryption where
  | failed
  | finished (encrypted decrypted : List UInt8) (mem : Block)

/-- `decrypt_writer`. -/
def decryptWriter (opened : Bool) (buf mem : Block) :
    Except Fault Decryption :=
  if opened then do
    let copied ← copyLoop mem.bytes (shmSize + 1) ⟨0, buf.bytes⟩
    let ended ← appendNewline copied
    let buf ← store ended.buf ended.i 0
    let encrypted ← printed buf
    let shifted ← decryptLoop ended.i (shmSize + 1) ⟨0, buf⟩
    let decrypted ← printed shifted.buf
    return .finished encrypted decrypted zeros
  else return .failed

end DecryptWriter

section Loops

variable {text front back mem buf : List UInt8} {stop : UInt8} {fuel : Nat}

theorem encryptLoop_spec (htext : ∀ byte ∈ text, inside byte = true)
    (hstop : inside stop = false) (hfuel : text.length < fuel) :
    encryptLoop fuel ⟨0, text ++ stop :: back⟩ =
      .ok ⟨text.length, text.map (· + 3) ++ stop :: back⟩ := by
  refine whileLoop_over text (fun done rest => Cursor.mk done.length
    (done.map (· + 3) ++ (rest ++ stop :: back))) ?_ ?_ hfuel
  · intro done byte rest hitems
    have hbyte : inside byte = true := htext byte (by simp [hitems])
    have hload : load (done.map (· + 3) ++ (byte :: rest ++ stop :: back))
        done.length = .ok byte := load_append (by rw [List.length_map])
    have hstore : store (done.map (· + 3) ++ (byte :: rest ++ stop :: back))
        done.length (byte + 3) =
          .ok (done.map (· + 3) ++ (byte + 3) :: (rest ++ stop :: back)) :=
      store_append (by rw [List.length_map])
    constructor
    · simp only [hload, bind, Except.bind, hbyte]
      rfl
    · simp only [hload, hstore, bind, Except.bind, List.length_append,
        List.map_append, List.append_assoc]
      rfl
  · have hload : load (text.map (· + 3) ++ ([] ++ stop :: back))
        text.length = .ok stop := load_append (by rw [List.length_map])
    simp only [hload, bind, Except.bind, hstop]
    rfl

/-- The loop copies a text up to its end or up to the limit. -/
theorem copyLoop_spec (hmem : mem = text ++ back)
    (htext : ∀ byte ∈ text, inside byte = true)
    (hlength : text.length ≤ shmSize - 1)
    (hend : text.length < shmSize - 1 →
      ∃ stop after, back = stop :: after ∧ inside stop = false)
    (hbuf : buf.length = shmSize) (hfuel : text.length < fuel) :
    copyLoop mem fuel ⟨0, buf⟩ =
      .ok ⟨text.length, text ++ buf.drop text.length⟩ := by
  have hsize : shmSize = 1024 := rfl
  refine whileLoop_over text (fun done _ => Cursor.mk done.length
    (done ++ buf.drop done.length)) ?_ ?_ hfuel
  · intro done byte rest hitems
    have hbyte : inside byte = true := htext byte (by simp [hitems])
    have hshort := congrArg List.length hitems
    rw [List.length_append, List.length_cons] at hshort
    have hload : load mem done.length = .ok byte := by
      rw [hmem, hitems, List.append_assoc]
      exact load_append rfl
    have hstore : store (done ++ buf.drop done.length) done.length byte =
        .ok (done ++ byte :: buf.drop (done.length + 1)) := by
      rw [List.drop_eq_getElem_cons (by omega)]
      exact store_append rfl
    constructor
    · rw [if_pos (by dsimp only; omega)]
      simp only [hload, bind, Except.bind, hbyte]
      rfl
    · simp only [hload, hstore, bind, Except.bind, List.length_append,
        List.append_assoc]
      rfl
  · rcases Nat.lt_or_eq_of_le hlength with hlt | heq
    · obtain ⟨stop, after, rfl, hstop⟩ := hend hlt
      have hload : load mem text.length = .ok stop := by
        rw [hmem]
        exact load_append rfl
      rw [if_pos (by dsimp only; omega)]
      simp only [hload, bind, Except.bind, hstop]
      rfl
    · rw [if_neg (by dsimp only; omega)]
      rfl

/-- What the decryption makes of a byte. -/
def shiftBack (byte : UInt8) : UInt8 :=
  if byte ≠ newline then byte - 3 else byte

theorem decryptLoop_spec {i : Int} (hi : i = front.length)
    (hfuel : front.length < fuel) :
    decryptLoop i fuel ⟨0, front ++ back⟩ =
      .ok ⟨front.length, front.map shiftBack ++ back⟩ := by
  refine whileLoop_over front (fun done rest => Cursor.mk done.length
    (done.map shiftBack ++ (rest ++ back))) ?_ ?_ hfuel
  · intro done byte rest hitems
    have hlength := congrArg List.length hitems
    rw [List.length_append, List.length_cons] at hlength
    have hload : load (done.map shiftBack ++ (byte :: rest ++ back))
        done.length = .ok byte := load_append (by rw [List.length_map])
    have hstore : store (done.map shiftBack ++ (byte :: rest ++ back))
        done.length (byte - 3) =
          .ok (done.map shiftBack ++ (byte - 3) :: (rest ++ back)) :=
      store_append (by rw [List.length_map])
    constructor
    · rw [decide_eq_true]
      dsimp only
      omega
    · simp only [hload, bind, Except.bind, List.length_append,
        List.map_append, List.append_assoc]
      by_cases hbyte : byte ≠ newline
      · simp only [if_pos hbyte, hstore, List.map_singleton, shiftBack]
        rfl
      · simp only [if_neg hbyte, List.map_singleton, shiftBack]
        rfl
  · rw [decide_eq_false]
    dsimp only
    omega

end Loops

section Texts

variable {p q : UInt8 → Bool} {text rest : List UInt8}

/-- A text with a byte that ends it, at the first such byte. -/
theorem exists_stop (hstop : ∃ byte ∈ text, p byte = false) :
    ∃ stop back, text = text.takeWhile p ++ stop :: back ∧
      p stop = false := by
  induction text with
  | nil => simp at hstop
  | cons byte text ih =>
      cases hbyte : p byte with
      | false =>
          refine ⟨byte, text, ?_, hbyte⟩
          rw [List.takeWhile_cons_of_neg (by simp [hbyte])]
          rfl
      | true =>
          simp only [List.mem_cons, exists_eq_or_imp, hbyte] at hstop
          obtain ⟨stop, back, heq, hstop⟩ :=
            ih (hstop.resolve_left Bool.noConfusion)
          refine ⟨stop, back, ?_, hstop⟩
          rw [List.takeWhile_cons_of_pos hbyte, List.cons_append, ← heq]

theorem length_takeWhile_lt_iff :
    (text.takeWhile p).length < text.length ↔
      ∃ byte ∈ text, p byte = false := by
  constructor
  · intro hlt
    by_contra hnone
    push Not at hnone
    rw [List.takeWhile_eq_self_iff.mpr (by simpa using hnone)] at hlt
    omega
  · intro hstop
    obtain ⟨stop, back, heq, -⟩ := exists_stop hstop
    have hlength := congrArg List.length heq
    rw [List.length_append, List.length_cons] at hlength
    omega

theorem takeWhile_append_of_nil (hrest : rest.takeWhile p = []) :
    (text ++ rest).takeWhile p = text.takeWhile p := by
  rw [List.takeWhile_append, hrest, List.append_nil]
  split
  · rename_i hall
    exact ((List.takeWhile_prefix p).eq_of_length hall).symm
  · rfl

theorem ne_zero_of_inside {byte : UInt8} (hbyte : inside byte = true) :
    decide (byte ≠ 0) = true := by
  rw [inside, Bool.and_eq_true] at hbyte
  exact hbyte.1

/-- A text is printed with its newline. -/
theorem takeWhile_textLine (htext : ∀ byte ∈ text, inside byte = true) :
    (text ++ [newline]).takeWhile (· ≠ 0) = text ++ [newline] := by
  rw [List.takeWhile_eq_self_iff]
  intro byte hbyte
  rw [List.mem_append, List.mem_singleton] at hbyte
  rcases hbyte with hbyte | rfl
  · exact ne_zero_of_inside (htext byte hbyte)
  · rfl

theorem printed_append (text rest : List UInt8) :
    printed (text ++ 0 :: rest) = .ok (text.takeWhile (· ≠ 0)) := by
  rw [printed, if_pos (by simp), takeWhile_append_of_nil rfl]

end Texts

section Segment

variable {buf mem : Block}

/-- The text that `decrypt_writer` copies from the segment. -/
def segmentText (mem : Block) : List UInt8 :=
  (mem.bytes.take (shmSize - 1)).takeWhile inside

theorem length_take_segment (mem : Block) :
    (mem.bytes.take (shmSize - 1)).length = shmSize - 1 := by
  rw [List.length_take, mem.full]
  rfl

theorem segmentText_le (mem : Block) :
    (segmentText mem).length ≤ shmSize - 1 := by
  rw [← length_take_segment mem]
  exact (List.takeWhile_prefix inside).length_le

theorem segmentText_lt_iff (mem : Block) :
    (segmentText mem).length < shmSize - 1 ↔
      ∃ byte ∈ mem.bytes.take (shmSize - 1), inside byte = false := by
  have hiff := @length_takeWhile_lt_iff inside
    (mem.bytes.take (shmSize - 1))
  rwa [length_take_segment] at hiff

theorem inside_of_mem_segmentText {byte : UInt8}
    (hbyte : byte ∈ segmentText mem) : inside byte = true :=
  List.mem_takeWhile_imp hbyte

theorem copyLoop_segment (buf mem : Block) :
    copyLoop mem.bytes (shmSize + 1) ⟨0, buf.bytes⟩ =
      .ok ⟨(segmentText mem).length,
        segmentText mem ++ buf.bytes.drop (segmentText mem).length⟩ := by
  have hle := segmentText_le mem
  have hsplit : ∃ back, mem.bytes = segmentText mem ++ back ∧
      ((segmentText mem).length < shmSize - 1 →
        ∃ stop after, back = stop :: after ∧ inside stop = false) := by
    have hbytes := List.take_append_drop (shmSize - 1) mem.bytes
    by_cases hlt : (segmentText mem).length < shmSize - 1
    · obtain ⟨stop, back, heq, hstop⟩ :=
        exists_stop ((segmentText_lt_iff mem).mp hlt)
      refine ⟨stop :: back ++ mem.bytes.drop (shmSize - 1), ?_,
        fun _ => ⟨stop, _, rfl, hstop⟩⟩
      rw [← List.append_assoc, segmentText, ← heq, hbytes]
    · have hwhole : segmentText mem = mem.bytes.take (shmSize - 1) := by
        apply (List.takeWhile_prefix inside).eq_of_length
        rw [length_take_segment]
        exact Nat.le_antisymm hle (Nat.le_of_not_lt hlt)
      exact ⟨mem.bytes.drop (shmSize - 1), by rw [hwhole, hbytes],
        fun hshort => absurd hshort hlt⟩
  obtain ⟨back, hmem, hend⟩ := hsplit
  exact copyLoop_spec hmem (fun _ => inside_of_mem_segmentText) hle hend
    buf.full (by omega)

/-- With room for the newline and the NUL behind the text, `decrypt_writer` prints
the text and what its bytes are shifted back to. -/
theorem decryptWriter_short (buf : Block)
    (hshort : (segmentText mem).length < shmSize - 1) :
    decryptWriter true buf mem =
      .ok (.finished (segmentText mem ++ [newline])
        (((segmentText mem ++ [newline]).map shiftBack).takeWhile (· ≠ 0))
        zeros) := by
  have hsize : shmSize = 1024 := rfl
  obtain ⟨old, next, back, hdrop⟩ : ∃ old next back,
      buf.bytes.drop (segmentText mem).length = old :: next :: back := by
    have hfull := buf.full
    rw [List.drop_eq_getElem_cons (by omega),
      List.drop_eq_getElem_cons (by omega)]
    exact ⟨_, _, _, rfl⟩
  have happend : appendNewline ⟨(segmentText mem).length,
      segmentText mem ++ old :: next :: back⟩ =
        .ok ⟨(segmentText mem).length + 1,
          segmentText mem ++ newline :: next :: back⟩ := by
    rw [appendNewline, if_pos (by dsimp only; omega), store_append rfl]
    rfl
  have hend : ((segmentText mem).length + 1 : Int) =
      (segmentText mem ++ [newline]).length := by
    rw [List.length_append, List.length_singleton]
    rfl
  have hstore : store (segmentText mem ++ newline :: next :: back)
      ((segmentText mem).length + 1) 0 =
        .ok (segmentText mem ++ [newline] ++ 0 :: back) := by
    rw [List.append_cons]
    exact store_append hend
  have hshifted : decryptLoop ((segmentText mem).length + 1) (shmSize + 1)
      ⟨0, segmentText mem ++ [newline] ++ 0 :: back⟩ =
        .ok ⟨(segmentText mem ++ [newline]).length,
          (segmentText mem ++ [newline]).map shiftBack ++ 0 :: back⟩ := by
    apply decryptLoop_spec hend
    rw [List.length_append, List.length_singleton]
    omega
  have hinside : ∀ byte ∈ segmentText mem, inside byte = true :=
    fun _ => inside_of_mem_segmentText
  have hcopied := copyLoop_segment buf mem
  rw [hdrop] at hcopied
  simp only [decryptWriter, if_pos, hcopied, happend, hstore, hshifted,
    printed_append, takeWhile_textLine hinside, bind, Except.bind]
  rfl

/-- Without it, the NUL is written behind the buffer. -/
theorem decryptWriter_full (buf : Block)
    (hfull : ¬ (segmentText mem).length < shmSize - 1) :
    decryptWriter true buf mem = .error (.outside shmSize) := by
  have hsize : shmSize = 1024 := rfl
  have hlength : (segmentText mem).length = shmSize - 1 :=
    Nat.le_antisymm (segmentText_le mem) (Nat.le_of_not_lt hfull)
  obtain ⟨old, hdrop⟩ : ∃ old,
      buf.bytes.drop (segmentText mem).length = [old] := by
    have hfull := buf.full
    rw [← List.length_eq_one_iff, List.length_drop]
    omega
  have happend : appendNewline ⟨(segmentText mem).length,
      segmentText mem ++ [old]⟩ =
        .ok ⟨shmSize, segmentText mem ++ [newline]⟩ := by
    rw [appendNewline, if_pos (by dsimp only; omega), store_append rfl,
      hlength]
    rfl
  have hstore : store (segmentText mem ++ [newline]) shmSize 0 =
      .error (.outside shmSize) := by
    apply store_outside
    rw [List.length_append, List.length_singleton]
    omega
  have hcopied := copyLoop_segment buf mem
  rw [hdrop] at hcopied
  simp only [decryptWriter, if_pos, hcopied, happend, hstore, bind,
    Except.bind]

end Segment

section Written

variable {buf mem : Block} {stdin : List UInt8} {count : Nat}

/-- A byte that ends the text neither before nor after its shift. -/
def survives (byte : UInt8) : Bool :=
  inside byte && inside (byte + 3)

theorem inside_of_survives {byte : UInt8} (hbyte : survives byte = true) :
    inside byte = true := by
  rw [survives, Bool.and_eq_true] at hbyte
  exact hbyte.1

theorem length_takeLine_le (count : Nat) (stdin : List UInt8) :
    (takeLine count stdin).length ≤ count := by
  fun_induction takeLine count stdin with
  | case1 count rest => simp
  | case2 count byte rest hbyte ih => simpa using ih
  | case3 => simp

theorem takeLine_ne_nil {byte : UInt8} (rest : List UInt8) :
    takeLine (count + 1) (byte :: rest) ≠ [] := by
  rw [takeLine]
  split
  · exact List.cons_ne_nil _ _
  · exact List.cons_ne_nil _ _

/-- A line has the text of its stream up to its first newline. -/
theorem takeWhile_takeLine {p : UInt8 → Bool} (hnewline : p newline = false)
    (count : Nat) (stdin : List UInt8) :
    (takeLine count stdin).takeWhile p =
      (stdin.take count).takeWhile p := by
  fun_induction takeLine count stdin with
  | case1 count rest => simp [hnewline]
  | case2 count byte rest hbyte ih =>
      rw [List.take_succ_cons, List.takeWhile_cons, List.takeWhile_cons, ih]
  | case3 count stdin hempty =>
      rcases count with _ | count
      · rfl
      · rcases stdin with _ | ⟨byte, rest⟩
        · rfl
        · exact absurd rfl (hempty count byte rest rfl)

/-- What `strncpy` leaves of a text in a segment of zeros. -/
theorem takeWhile_strncpy (source : List UInt8) :
    ((strncpy zeros.bytes source (shmSize - 1)).take
        (shmSize - 1)).takeWhile inside =
      (source.take (shmSize - 1)).takeWhile inside := by
  have hcopied : ((source.takeWhile (· ≠ 0)).take (shmSize - 1)).length ≤
      shmSize - 1 := List.length_take_le _ _
  have hnul : ∀ count, (List.replicate count (0 : UInt8)).takeWhile inside =
      [] := by
    intro count
    rw [List.takeWhile_replicate]
    rfl
  have hinside : ∀ byte,
      decide (inside byte = true ∧ decide (byte ≠ 0) = true) =
        inside byte := by
    intro byte
    rw [Bool.eq_iff_iff, decide_eq_true_iff]
    exact ⟨And.left, fun hbyte => ⟨hbyte, ne_zero_of_inside hbyte⟩⟩
  rw [strncpy, List.take_left' (by
    rw [List.length_append, List.length_replicate]
    omega), takeWhile_append_of_nil (hnul _), List.take_takeWhile,
    List.takeWhile_takeWhile]
  simp only [hinside]

/-- The bytes of a line that survive both conventions, shifted, are the text of the
segment that is written for it. -/
theorem encryptWriter_spec (opened : Bool) (buf : Block)
    (hline : takeLine (shmSize - 1) stdin ≠ []) :
    ∃ mem, encryptWriter opened buf stdin =
        .ok (if opened then .written mem else .failed) ∧
      segmentText mem =
        ((stdin.take (shmSize - 1)).takeWhile survives).map (· + 3) := by
  obtain ⟨line, hdef⟩ : ∃ line, line = takeLine (shmSize - 1) stdin :=
    ⟨_, rfl⟩
  have hfgets : fgets buf stdin =
      some (line ++ 0 :: buf.bytes.drop (line.length + 1)) := by
    rw [fgets, if_neg hline, hdef]
  have htext : (line ++ 0 :: buf.bytes.drop (line.length + 1)).takeWhile
      inside = line.takeWhile inside := takeWhile_append_of_nil rfl
  obtain ⟨stop, back, hbuf, hstop⟩ := @exists_stop inside
    (line ++ 0 :: buf.bytes.drop (line.length + 1)) ⟨0, by simp, rfl⟩
  rw [htext] at hbuf
  have hlength : (line.takeWhile inside).length ≤ shmSize - 1 := by
    rw [hdef]
    exact (List.takeWhile_prefix inside).length_le.trans
      (length_takeLine_le _ _)
  have hloop := @encryptLoop_spec (line.takeWhile inside) back stop
    (shmSize + 1) (fun _ => List.mem_takeWhile_imp) hstop (by omega)
  refine ⟨⟨strncpy zeros.bytes
    ((line.takeWhile inside).map (· + 3) ++ stop :: back) (shmSize - 1),
    (length_strncpy zeros_room).trans zeros.full⟩, ?_, ?_⟩
  · simp only [encryptWriter, hfgets, hbuf, hloop, bind, Except.bind]
    cases opened with
    | true => rfl
    | false => rfl
  · have hends : (stop :: back).takeWhile inside = [] :=
      List.takeWhile_cons_of_neg (by simp [hstop])
    have hshort : ((line.takeWhile inside).map (· + 3)).length ≤
        shmSize - 1 := by
      rw [List.length_map]
      exact hlength
    have hsurvives : ∀ byte,
        decide ((inside ∘ (· + 3)) byte = true ∧ inside byte = true) =
          survives byte := by
      intro byte
      rw [survives, Bool.and_comm, Bool.decide_and, Bool.decide_coe,
        Bool.decide_coe]
      rfl
    rw [segmentText, takeWhile_strncpy, ← List.take_takeWhile,
      takeWhile_append_of_nil hends, List.take_takeWhile,
      List.take_of_length_le hshort, List.takeWhile_map,
      List.takeWhile_takeWhile]
    simp only [hsurvives]
    rw [hdef, takeWhile_takeLine rfl]

theorem segmentText_written {opened : Bool}
    (hwritten : encryptWriter opened buf stdin = .ok (.written mem)) :
    segmentText mem =
      ((stdin.take (shmSize - 1)).takeWhile survives).map (· + 3) := by
  by_cases hline : takeLine (shmSize - 1) stdin = []
  · simp [encryptWriter, fgets, hline, pure, Except.pure] at hwritten
  · obtain ⟨same, hsame, htext⟩ := encryptWriter_spec opened buf hline
    have hmem : (if opened then Encryption.written same else .failed) =
        .written mem := Except.ok.inj (hsame.symm.trans hwritten)
    cases opened with
    | true => rwa [← Encryption.written.inj hmem]
    | false => contradiction

end Written

section RoundTrip

variable {phrase : List UInt8}

/-- Whenever both programs finish, the phrase typed with a newline is printed as it
was. -/
def RoundTrips (phrase : List UInt8) : Prop :=
  ∀ opened buf rest mem,
    encryptWriter opened buf (phrase ++ newline :: rest) =
        .ok (.written mem) →
      ∀ buf, ∃ encrypted cleared, decryptWriter true buf mem =
        .ok (.finished encrypted (phrase ++ [newline]) cleared)

theorem survives_newline : survives newline = false := by
  decide

/-- The bytes that a shift turns into a terminator. -/
theorem survives_iff {byte : UInt8} (hnul : byte ≠ 0)
    (hnewline : byte ≠ newline) :
    survives byte = true ↔ byte ≠ 7 ∧ byte ≠ 253 := by
  have hseven : byte + 3 = newline ↔ byte = 7 :=
    (UInt8.add_left_inj 3 : byte + 3 = 7 + 3 ↔ byte = 7)
  have hlast : byte + 3 = 0 ↔ byte = 253 :=
    (UInt8.add_left_inj 3 : byte + 3 = 253 + 3 ↔ byte = 253)
  simp [survives, inside, hnul, hnewline, hseven, hlast, and_comm]

theorem shiftBack_add {byte : UInt8} (hbyte : survives byte = true) :
    shiftBack (byte + 3) = byte := by
  rw [survives, inside, inside, Bool.and_eq_true, Bool.and_eq_true,
    Bool.and_eq_true] at hbyte
  have hne : byte + 3 ≠ newline := of_decide_eq_true hbyte.2.2
  rw [shiftBack, if_pos hne, UInt8.add_sub_cancel]

/-- The phrase comes back up to its first byte that does not survive. -/
theorem decryptWriter_written {opened : Bool} {buf mem : Block}
    {rest : List UInt8} (hlength : phrase.length < shmSize - 1)
    (hwritten : encryptWriter opened buf (phrase ++ newline :: rest) =
      .ok (.written mem)) (other : Block) :
    ∃ encrypted, decryptWriter true other mem =
      .ok (.finished encrypted (phrase.takeWhile survives ++ [newline])
        zeros) := by
  have htext : segmentText mem =
      (phrase.takeWhile survives).map (· + 3) := by
    rw [segmentText_written hwritten, List.take_append,
      List.take_of_length_le hlength.le, takeWhile_append_of_nil]
    have hmore : shmSize - 1 - phrase.length ≠ 0 :=
      Nat.sub_ne_zero_of_lt hlength
    obtain ⟨left, hleft⟩ := Nat.exists_eq_add_one_of_ne_zero hmore
    rw [hleft, List.take_succ_cons]
    exact List.takeWhile_cons_of_neg (by simp [survives_newline])
  have hshort : (segmentText mem).length < shmSize - 1 := by
    rw [htext, List.length_map]
    exact (List.takeWhile_prefix survives).length_le.trans_lt hlength
  have hback : (segmentText mem ++ [newline]).map shiftBack =
      phrase.takeWhile survives ++ [newline] := by
    rw [htext, List.map_append, List.map_map]
    congr 1
    have hbytes : ∀ byte ∈ phrase.takeWhile survives,
        (shiftBack ∘ (· + 3)) byte = byte := fun byte hbyte =>
      shiftBack_add (List.mem_takeWhile_imp hbyte)
    exact (List.map_congr_left hbytes).trans (List.map_id' _)
  have hinside : ∀ byte ∈ phrase.takeWhile survives, inside byte = true :=
    fun _ hbyte => inside_of_survives (List.mem_takeWhile_imp hbyte)
  have hresult := decryptWriter_short other hshort
  rw [hback, takeWhile_textLine hinside] at hresult
  exact ⟨_, hresult⟩

theorem takeWhile_survives_iff (hnul : 0 ∉ phrase)
    (hnewline : newline ∉ phrase) :
    phrase.takeWhile survives = phrase ↔ 7 ∉ phrase ∧ 253 ∉ phrase := by
  have hbytes : ∀ byte ∈ phrase,
      (survives byte = true ↔ byte ≠ 7 ∧ byte ≠ 253) := fun byte hbyte =>
    survives_iff (ne_of_mem_of_not_mem hbyte hnul)
      (ne_of_mem_of_not_mem hbyte hnewline)
  rw [List.takeWhile_eq_self_iff]
  constructor
  · intro hall
    exact ⟨fun hmem => ((hbytes 7 hmem).mp (hall 7 hmem)).1 rfl,
      fun hmem => ((hbytes 253 hmem).mp (hall 253 hmem)).2 rfl⟩
  · rintro ⟨hseven, hlast⟩ byte hbyte
    exact (hbytes byte hbyte).mpr ⟨ne_of_mem_of_not_mem hbyte hseven,
      ne_of_mem_of_not_mem hbyte hlast⟩

theorem takeWhile_of_roundTrips (hlength : phrase.length < shmSize - 1)
    (hround : RoundTrips phrase) : phrase.takeWhile survives = phrase := by
  have hline : takeLine (shmSize - 1) (phrase ++ newline :: []) ≠ [] := by
    cases phrase with
    | nil => exact takeLine_ne_nil []
    | cons byte phrase => exact takeLine_ne_nil _
  obtain ⟨mem, hmem, -⟩ := encryptWriter_spec true zeros hline
  obtain ⟨encrypted, cleared, hprinted⟩ := hround true zeros [] mem hmem zeros
  obtain ⟨same, hsame⟩ := decryptWriter_written hlength hmem zeros
  rw [hprinted] at hsame
  injection hsame with hsame
  injection hsame with _ hphrase _
  exact (List.append_cancel_right hphrase).symm

/-- A phrase comes back just when none of its bytes is shifted to a terminator. -/
theorem roundTrips_iff (phrase : List UInt8) (hlength : phrase.length ≤ 1022)
    (hnul : 0 ∉ phrase) (hnewline : newline ∉ phrase) :
    RoundTrips phrase ↔ 7 ∉ phrase ∧ 253 ∉ phrase := by
  have hlt : phrase.length < shmSize - 1 := Nat.lt_succ_of_le hlength
  rw [← takeWhile_survives_iff hnul hnewline]
  constructor
  · exact takeWhile_of_roundTrips hlt
  · intro hphrase opened buf rest mem hwritten other
    obtain ⟨encrypted, hprinted⟩ := decryptWriter_written hlt hwritten other
    rw [hphrase] at hprinted
    exact ⟨encrypted, zeros, hprinted⟩

theorem roundTrips_iff_greeting :
    RoundTrips [72, 105] ↔
      (7 : UInt8) ∉ [72, 105] ∧ (253 : UInt8) ∉ [72, 105] :=
  roundTrips_iff [72, 105] (by decide) (by decide) (by decide)

/-- The bell character is shifted to a newline. -/
theorem not_roundTrips_bell :
    ¬ ∀ phrase : List UInt8, phrase.length ≤ 1022 → 0 ∉ phrase →
      newline ∉ phrase → RoundTrips phrase := by
  intro hround
  have hbell := takeWhile_of_roundTrips (by decide)
    (hround [7] (by decide) (by decide) (by decide))
  exact absurd hbell (by decide)

end RoundTrip

section Bounds

variable {buf mem : Block} {stdin : List UInt8}

/-- `decrypt_writer` runs to its end without an access outside of a buffer. -/
def StaysInside (buf mem : Block) : Prop :=
  ∃ encrypted decrypted cleared, decryptWriter true buf mem =
    .ok (.finished encrypted decrypted cleared)

theorem staysInside_iff (buf mem : Block) :
    StaysInside buf mem ↔ (segmentText mem).length < shmSize - 1 := by
  constructor
  · rintro ⟨encrypted, decrypted, cleared, hfinished⟩
    by_contra hfull
    rw [decryptWriter_full buf hfull] at hfinished
    contradiction
  · intro hshort
    exact ⟨_, _, _, decryptWriter_short buf hshort⟩

theorem inside_eq_false_iff (byte : UInt8) :
    inside byte = false ↔ byte = 0 ∨ byte = newline := by
  rw [inside, Bool.and_eq_false_iff, decide_eq_false_iff_not,
    decide_eq_false_iff_not, not_not, not_not]

theorem survives_eq_false_iff (byte : UInt8) :
    survives byte = false ↔ byte ∈ [0, 7, newline, 253] := by
  by_cases hnul : byte = 0
  · subst hnul
    decide
  by_cases hnewline : byte = newline
  · subst hnewline
    decide
  rw [← Bool.not_eq_true, survives_iff hnul hnewline]
  simp only [List.mem_cons, List.not_mem_nil, hnul, hnewline]
  tauto

/-- The text of a written segment fills it just when no byte of a long line ends
it. -/
theorem written_lt_iff {opened : Bool}
    (hwritten : encryptWriter opened buf stdin = .ok (.written mem)) :
    (segmentText mem).length < shmSize - 1 ↔
      stdin.length < shmSize - 1 ∨
        ∃ byte ∈ stdin.take (shmSize - 1), byte ∈ [0, 7, newline, 253] := by
  rw [segmentText_written hwritten, List.length_map]
  by_cases hlength : stdin.length < shmSize - 1
  · rw [List.take_of_length_le hlength.le]
    exact iff_of_true
      ((List.takeWhile_prefix survives).length_le.trans_lt hlength)
      (.inl hlength)
  · have hiff := @length_takeWhile_lt_iff survives
      (stdin.take (shmSize - 1))
    rw [List.length_take_of_le (Nat.le_of_not_lt hlength)] at hiff
    simp only [survives_eq_false_iff] at hiff
    rw [hiff, or_iff_right hlength]

/-- No access leaves a buffer just when one of the bytes that are copied ends the
text, for any segment and for the ones that `encrypt_writer` leaves. -/
theorem decryptWriter_staysInside_iff (buf mem : Block) :
    (StaysInside buf mem ↔
      ∃ byte ∈ mem.bytes.take (shmSize - 1), byte = 0 ∨ byte = newline) ∧
    ∀ opened other stdin,
      encryptWriter opened other stdin = .ok (.written mem) →
        (StaysInside buf mem ↔
          stdin.length < shmSize - 1 ∨
            ∃ byte ∈ stdin.take (shmSize - 1),
              byte ∈ [0, 7, newline, 253]) := by
  rw [staysInside_iff]
  constructor
  · rw [segmentText_lt_iff]
    simp only [inside_eq_false_iff]
  · intro opened other stdin hwritten
    exact written_lt_iff hwritten

theorem decryptWriter_staysInside_iff_greeting :
    ∃ mem, encryptWriter true zeros [72, 105, newline] =
        .ok (.written mem) ∧ StaysInside zeros mem := by
  obtain ⟨mem, hwritten, -⟩ :=
    encryptWriter_spec true zeros (takeLine_ne_nil [105, newline])
  exact ⟨mem, hwritten, ((decryptWriter_staysInside_iff zeros mem).2 true zeros
    [72, 105, newline] hwritten).mpr (.inl (by decide))⟩

/-- A line of 1023 letters: the NUL goes to index 1024. -/
theorem decryptWriter_outside_longLine :
    ∃ mem, encryptWriter true zeros (List.replicate 1023 65) =
        .ok (.written mem) ∧
      decryptWriter true zeros mem = .error (.outside 1024) ∧
      ¬ StaysInside zeros mem := by
  have hline : takeLine (shmSize - 1) (List.replicate 1023 65) ≠ [] :=
    takeLine_ne_nil (List.replicate 1022 65)
  obtain ⟨mem, hwritten, -⟩ := encryptWriter_spec true zeros hline
  have hfull : ¬ (segmentText mem).length < shmSize - 1 := by
    rw [written_lt_iff hwritten]
    rintro (hlength | ⟨byte, hbyte, hends⟩)
    · rw [List.length_replicate] at hlength
      exact absurd hlength (by decide)
    · have hletter := List.eq_of_mem_replicate (List.mem_of_mem_take hbyte)
      rw [hletter] at hends
      exact absurd hends (by decide)
  exact ⟨mem, hwritten, decryptWriter_full zeros hfull,
    fun hinside => hfull ((staysInside_iff zeros mem).mp hinside)⟩

end Bounds

end SharedText

end OsCourse
