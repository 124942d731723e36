/-
The run-length codec of the file compression homework: `CompressRLE` and
`DecompressRLE` on the contents of the files they open.  The `int64_t` size
counters are integers; a file never holds 2^63 bytes.
-/
import OsCourse.RunLength

namespace OsCourse

namespace Rle

open RunLength

def maxRun : Nat := 255

/-- What a codec call leaves: its return value and the bytes it wrote. -/
structure Outcome where
  returned : Int
  written : List UInt8
deriving Repr, DecidableEq

/-- The loop of `CompressRLE` over the bytes `fread` still has to deliver.
`counter` is an `unsigned char`, so `counter++` is taken modulo 256. -/
def compressLoop (currentByte counter : UInt8) (compressedSize : Int)
    (output : List UInt8) : List UInt8 → Outcome
  | [] => ⟨compressedSize + 2, output ++ [counter, currentByte]⟩
  | nextByte :: rest =>
      if nextByte = currentByte ∧ counter.toNat < maxRun then
        compressLoop currentByte (counter + 1) compressedSize output rest
      else
        compressLoop nextByte 1 (compressedSize + 2)
          (output ++ [counter, currentByte]) rest

/-- `CompressRLE`: `input` is what `fopen(input_filename, "rb")` finds, and
`outputOpens` tells whether the output file could be opened. -/
def compressRLE (input : Option (List UInt8)) (outputOpens : Bool) : Outcome :=
  match input, outputOpens with
  | none, _ => ⟨-1, []⟩
  | some _, false => ⟨-1, []⟩
  | some [], true => ⟨0, []⟩
  | some (currentByte :: rest), true => compressLoop currentByte 1 0 [] rest

/-- The inner `for` loop of `DecompressRLE`. -/
def writeRun (data : UInt8) : Nat → Outcome → Outcome
  | 0, sofar => sofar
  | remaining + 1, sofar =>
      writeRun data remaining ⟨sofar.returned + 1, sofar.written ++ [data]⟩

def decompressLoop : List UInt8 → Outcome → Outcome
  | [], sofar => sofar
  | [_], sofar => ⟨-1, sofar.written⟩
  | counter :: data :: rest, sofar =>
      decompressLoop rest (writeRun data counter.toNat sofar)

def decompressRLE (input : Option (List UInt8)) (outputOpens : Bool) :
    Outcome :=
  match input, outputOpens with
  | none, _ => ⟨-1, []⟩
  | some _, false => ⟨-1, []⟩
  | some bytes, true => decompressLoop bytes ⟨0, []⟩

/-- The bytes of a list of (count, byte) pairs as they stand in a file. -/
def pairStream (pairs : List (Nat × UInt8)) : List UInt8 :=
  pairs.flatMap fun pair => [UInt8.ofNat pair.1, pair.2]

@[simp] theorem pairStream_nil : pairStream [] = [] := rfl

@[simp] theorem pairStream_cons (pair : Nat × UInt8)
    (pairs : List (Nat × UInt8)) :
    pairStream (pair :: pairs) =
      UInt8.ofNat pair.1 :: pair.2 :: pairStream pairs := rfl

theorem pairStream_length (pairs : List (Nat × UInt8)) :
    (pairStream pairs).length = 2 * pairs.length := by
  induction pairs with
  | nil => rfl
  | cons pair pairs ih =>
      simp only [pairStream_cons, List.length_cons, ih]
      omega

/-- A stream of pairs with counts between 1 and 255 in which two neighbouring
pairs carry the same byte only if the first count is 255. -/
def CanonicalStream (stream : List UInt8) : Prop :=
  ∃ pairs, Canonical maxRun pairs ∧ pairStream pairs = stream

/-- Below the limit the byte counter counts without wrapping. -/
theorem toNat_counter_succ {counter : UInt8} (hlt : counter.toNat < maxRun) :
    (counter + 1).toNat = counter.toNat + 1 := by
  rw [maxRun] at hlt
  simp only [UInt8.toNat_add, UInt8.toNat_one]
  omega

/-- The byte loop computes the greedy encoding of what it still reads, with
(`counter`, `currentByte`) as the pending pair. -/
theorem compressLoop_eq (currentByte counter : UInt8) (compressedSize : Int)
    (output rest : List UInt8) :
    compressLoop currentByte counter compressedSize output rest =
      ⟨compressedSize +
          (pairStream (encodeFrom maxRun counter.toNat currentByte rest)).length,
        output ++
          pairStream (encodeFrom maxRun counter.toNat currentByte rest)⟩ := by
  induction rest generalizing currentByte counter compressedSize output with
  | nil => simp [compressLoop, encodeFrom]
  | cons nextByte rest ih =>
      by_cases hrun : nextByte = currentByte ∧ counter.toNat < maxRun
      · rw [compressLoop, if_pos hrun, ih, encodeFrom, if_pos hrun,
          toNat_counter_succ hrun.2]
      · rw [compressLoop, if_neg hrun, ih, encodeFrom, if_neg hrun]
        simp only [pairStream_cons, List.length_cons, List.append_assoc,
          List.cons_append, List.nil_append, UInt8.ofNat_toNat,
          UInt8.toNat_one, Outcome.mk.injEq, and_true]
        omega

/-- What `CompressRLE` writes is the pair stream of the greedy encoding, and
what it returns is the number of bytes written. -/
theorem compressRLE_eq (input : List UInt8) :
    compressRLE (some input) true =
      ⟨(pairStream (encode maxRun input)).length,
        pairStream (encode maxRun input)⟩ := by
  cases input with
  | nil => rfl
  | cons currentByte rest =>
      rw [compressRLE, compressLoop_eq, encode, UInt8.toNat_one]
      simp

theorem writeRun_eq (data : UInt8) (count : Nat) (sofar : Outcome) :
    writeRun data count sofar =
      ⟨sofar.returned + count,
        sofar.written ++ List.replicate count data⟩ := by
  induction count generalizing sofar with
  | zero => simp [writeRun]
  | succ count ih =>
      rw [writeRun, ih, List.replicate_succ]
      simp only [List.append_assoc, List.cons_append, List.nil_append,
        Outcome.mk.injEq, and_true]
      omega

/-- On a stream of pairs whose counts fit a byte the decoder appends their
expansion and counts its bytes. -/
theorem decompressLoop_pairStream {pairs : List (Nat × UInt8)}
    (hcounts : ∀ pair ∈ pairs, pair.1 ≤ maxRun) (sofar : Outcome) :
    decompressLoop (pairStream pairs) sofar =
      ⟨sofar.returned + (expand pairs).length,
        sofar.written ++ expand pairs⟩ := by
  induction pairs generalizing sofar with
  | nil => simp [decompressLoop]
  | cons pair pairs ih =>
      have hcount : (UInt8.ofNat pair.1).toNat = pair.1 := by
        have hle := hcounts pair List.mem_cons_self
        rw [maxRun] at hle
        exact UInt8.toNat_ofNat_of_lt' (Nat.lt_succ_of_le hle)
      have hrest : ∀ other ∈ pairs, other.1 ≤ maxRun := fun other hother =>
        hcounts other (List.mem_cons_of_mem pair hother)
      rw [pairStream_cons, decompressLoop, ih hrest, writeRun_eq, hcount]
      simp only [expand_cons, List.length_append, List.length_replicate,
        List.append_assoc, Outcome.mk.injEq, and_true]
      omega

theorem decompressRLE_pairStream {pairs : List (Nat × UInt8)}
    (hcanon : Canonical maxRun pairs) :
    decompressRLE (some (pairStream pairs)) true =
      ⟨(expand pairs).length, expand pairs⟩ := by
  rw [decompressRLE, decompressLoop_pairStream
    fun pair hpair => (hcanon.counts pair hpair).2]
  simp

theorem canonical_encode_maxRun (input : List UInt8) :
    Canonical maxRun (encode maxRun input) :=
  canonical_encode (by decide) input

/-- Decompressing what `CompressRLE` wrote gives the input and its length, so
it never takes the error exit. -/
theorem decompressRLE_compressRLE (input : List UInt8) :
    decompressRLE (some (compressRLE (some input) true).written) true =
      ⟨input.length, input⟩ := by
  rw [compressRLE_eq, decompressRLE_pairStream (canonical_encode_maxRun input),
    expand_encode]

example : compressRLE (some (List.replicate 256 7)) true =
    ⟨4, [255, 7, 1, 7]⟩ := by
  decide +kernel

/-- The image of `CompressRLE`, and the other half of the inverse. -/
theorem compressRLE_image_and_inverse :
    (∀ stream : List UInt8,
      (∃ input : List UInt8,
        (compressRLE (some input) true).written = stream) ↔
          CanonicalStream stream) ∧
    ∀ stream : List UInt8, CanonicalStream stream →
      (compressRLE
        (some (decompressRLE (some stream) true).written) true).written =
          stream := by
  constructor
  · intro stream
    constructor
    · rintro ⟨input, rfl⟩
      rw [compressRLE_eq]
      exact ⟨encode maxRun input, canonical_encode_maxRun input, rfl⟩
    · rintro ⟨pairs, hcanon, rfl⟩
      refine ⟨expand pairs, ?_⟩
      rw [compressRLE_eq, encode_expand hcanon]
  · rintro stream ⟨pairs, hcanon, rfl⟩
    rw [decompressRLE_pairStream hcanon, compressRLE_eq, encode_expand hcanon]

section Streams

/-- The pairs of any stream; half a pair at its end is left out. -/
def completePairs : List UInt8 → List (Nat × UInt8)
  | counter :: data :: rest => (counter.toNat, data) :: completePairs rest
  | _ => []

/-- The bytes at the positions 0, 2, 4, ... of a stream. -/
def evenPositions : List UInt8 → List UInt8
  | [] => []
  | [byte] => [byte]
  | byte :: _ :: rest => byte :: evenPositions rest

variable {stream first second : List UInt8}

/-- The decoder writes the expansion of the complete pairs and fails on half a
pair. -/
theorem decompressLoop_eq (stream : List UInt8) (sofar : Outcome) :
    decompressLoop stream sofar =
      ⟨if stream.length % 2 = 0 then
          sofar.returned + (expand (completePairs stream)).length
        else -1,
        sofar.written ++ expand (completePairs stream)⟩ := by
  fun_induction decompressLoop stream sofar with
  | case1 sofar => simp [completePairs]
  | case2 sofar data => simp [completePairs]
  | case3 counter data rest sofar ih =>
      have hparity : (counter :: data :: rest).length % 2 =
          rest.length % 2 := by
        simp only [List.length_cons]
        omega
      rw [ih, writeRun_eq, hparity, completePairs, expand_cons,
        List.length_append, List.length_replicate, List.append_assoc]
      simp only [Int.natCast_add, Int.add_assoc]

theorem decompressRLE_eq (stream : List UInt8) :
    decompressRLE (some stream) true =
      ⟨if stream.length % 2 = 0 then
          ((expand (completePairs stream)).length : Int)
        else -1,
        expand (completePairs stream)⟩ := by
  rw [decompressRLE, decompressLoop_eq, Int.zero_add, List.nil_append]

theorem length_expand_completePairs (heven : stream.length % 2 = 0) :
    (expand (completePairs stream)).length =
      ((evenPositions stream).map UInt8.toNat).sum := by
  fun_induction evenPositions stream with
  | case1 => rfl
  | case2 byte => contradiction
  | case3 byte data rest ih =>
      rw [completePairs, expand_cons, List.length_append,
        List.length_replicate, List.map_cons, List.sum_cons,
        ih (by simp only [List.length_cons] at heven; omega)]

theorem completePairs_append (heven : first.length % 2 = 0) :
    completePairs (first ++ second) =
      completePairs first ++ completePairs second := by
  fun_induction completePairs first with
  | case1 counter data rest ih =>
      rw [List.cons_append, List.cons_append, completePairs,
        ih (by simp only [List.length_cons] at heven; omega),
        List.cons_append]
  | case2 first hshort =>
      rcases first with _ | ⟨byte, _ | ⟨next, rest⟩⟩
      · rfl
      · contradiction
      · exact absurd rfl (hshort byte next rest)

/-- `DecompressRLE` on any stream: what it returns, what it writes, and what it
writes for a stream that is put together at a pair boundary. -/
theorem decompressRLE_streams :
    (∀ stream,
      ((decompressRLE (some stream) true).returned = -1 ↔
        stream.length % 2 = 1) ∧
      (stream.length % 2 = 0 →
        (decompressRLE (some stream) true).returned =
            ((evenPositions stream).map UInt8.toNat).sum ∧
          (decompressRLE (some stream) true).returned =
            (decompressRLE (some stream) true).written.length) ∧
      (decompressRLE (some stream) true).written =
        expand (completePairs stream)) ∧
    ∀ first second, first.length % 2 = 0 →
      (decompressRLE (some (first ++ second)) true).written =
        (decompressRLE (some first) true).written ++
          (decompressRLE (some second) true).written := by
  constructor
  · intro stream
    rw [decompressRLE_eq]
    dsimp only
    refine ⟨?_, ?_, rfl⟩
    · split
      · omega
      · omega
    · intro heven
      rw [if_pos heven, length_expand_completePairs heven]
      exact ⟨rfl, rfl⟩
  · intro first second heven
    rw [decompressRLE_eq, decompressRLE_eq, decompressRLE_eq,
      completePairs_append heven, expand_append]

/-- A zero counter, and half a pair behind it. -/
theorem decompressRLE_streams_zeroCounter :
    (decompressRLE (some [2, 7, 0, 9]) true).returned = 2 ∧
      (decompressRLE (some ([2, 7, 0, 9] ++ [1])) true).written =
        (decompressRLE (some [2, 7, 0, 9]) true).written ++
          (decompressRLE (some [1]) true).written :=
  ⟨((decompressRLE_streams.1 [2, 7, 0, 9]).2.1 rfl).1,
    decompressRLE_streams.2 [2, 7, 0, 9] [1] rfl⟩

end Streams

end Rle

end OsCourse
