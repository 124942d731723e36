/-
The two image decoders, `Decode` in C and `decode_image` in Python, on the
contents of `encrypt.bin`: what each leaves in its two output files and how often
it counts a pixel.
-/
import OsCourse.DecimalText

namespace OsCourse

namespace Decoder

open DecimalText

def weight : Nat := 100

def height : Nat := 100

def totalPixels : Nat := weight * height

/-- The bytes of an ASCII text. -/
def ascii (text : List Char) : List UInt8 :=
  text.map fun char => UInt8.ofNat char.toNat

structure File where
  name : List Char
  bytes : List UInt8
deriving Repr, DecidableEq

/-- The output files as far as they were opened, and the increments of the
thread's entry of `progress`. -/
structure Outcome where
  ppm : Option File
  txt : Option File
  progress : Nat
deriving Repr, DecidableEq

/-- What the pixel loops have written and counted so far. -/
structure Pixels where
  ppm : List UInt8
  txt : List UInt8
  progress : Nat
deriving Repr, DecidableEq

section C

/-- What `snprintf` leaves in a buffer of the given size, without the NUL. -/
def snprintf (size : Nat) (text : List Char) : List Char :=
  text.take (size - 1)

/-- `unsigned char decrypted = byte ^ key`: the byte is promoted to `int`, and
the result is truncated. -/
def decrypted (key : Int32) (byte : UInt8) : UInt8 :=
  (byte.toUInt32 ^^^ key.toUInt32).toUInt8

/-- The text of `"%d %d %d\n"`. -/
def txtLine (r g b : UInt8) : List Char :=
  lld r.toNat ++ [' '] ++ lld g.toNat ++ [' '] ++ lld b.toNat ++ ['\n']

/-- The `for` loop of `Decode` with `left` rounds to go; a `read` of less than
three bytes ends it. -/
def decodeLoop (key : Int32) : (left : Nat) → List UInt8 → Pixels → Pixels
  | 0, _, sofar => sofar
  | left + 1, file, sofar =>
      match file.take 3 with
      | [buffer0, buffer1, buffer2] =>
          let r := decrypted key buffer0
          let g := decrypted key buffer1
          let b := decrypted key buffer2
          decodeLoop key left (file.drop 3)
            ⟨sofar.ppm ++ [r, g, b],
              sofar.txt ++ ascii (snprintf 32 (txtLine r g b)),
              sofar.progress + 1⟩
      | _ => sofar

def ppmHeader : List Char :=
  "P6\n".toList ++ lld weight ++ [' '] ++ lld height ++ "\n255\n".toList

def outputName (key : List Char) (extension : String) : List Char :=
  "outputs/output_".toList ++ key ++ extension.toList

/-- `Decode`: `encrypt` is what `open("encrypt.bin", O_RDONLY)` finds, and the
flags tell whether the output files could be opened.  One that could is
truncated. -/
def decode (encrypt : Option (List UInt8)) (ppmOpens txtOpens : Bool)
    (key : Int32) : Outcome :=
  match encrypt with
  | none => ⟨none, none, 0⟩
  | some bytes =>
      let ppmFilename := snprintf 256 (outputName (lld key.toInt) ".ppm")
      let txtFilename := snprintf 256 (outputName (lld key.toInt) ".txt")
      if ppmOpens && txtOpens then
        let pixels := decodeLoop key totalPixels bytes
          ⟨ascii (snprintf 256 ppmHeader), [], 0⟩
        ⟨some ⟨ppmFilename, pixels.ppm⟩, some ⟨txtFilename, pixels.txt⟩,
          pixels.progress⟩
      else
        ⟨if ppmOpens then some ⟨ppmFilename, []⟩ else none,
          if txtOpens then some ⟨txtFilename, []⟩ else none, 0⟩

end C

section Python

/-- The text of an `int` in an f-string. -/
def str (number : Int) : List Char := (toString number).toList

/-- `bytes(values)`; `none` is the `ValueError` for a value that is no byte. -/
def bytes (values : List Int) : Option (List UInt8) :=
  if ∀ value ∈ values, 0 ≤ value ∧ value < 256 then
    some (values.map fun value => UInt8.ofNat value.toNat)
  else none

/-- `(byte ^ key) & 0xFF` on unbounded integers. -/
def componentDecrypted (key : Int) (byte : UInt8) : Int :=
  ((byte.toNat : Int).xor key).land 0xFF

/-- The f-string `f"{R} {G} {B}\n"`. -/
def colorLine (r g b : Int) : List Char :=
  str r ++ [' '] ++ str g ++ [' '] ++ str b ++ ['\n']

/-- The `while` loop of `decode_image`; an exception leaves it with what has
been written. -/
def decodeImageLoop (key : Int) (pixelsProcessed : Nat) (sofar : Pixels) :
    List UInt8 → Pixels
  | encrypted0 :: encrypted1 :: encrypted2 :: rest =>
      if pixelsProcessed < totalPixels then
        let r := componentDecrypted key encrypted0
        let g := componentDecrypted key encrypted1
        let b := componentDecrypted key encrypted2
        match bytes [r, g, b] with
        | none => sofar
        | some rgb =>
            decodeImageLoop key (pixelsProcessed + 1)
              ⟨sofar.ppm ++ rgb, sofar.txt ++ ascii (colorLine r g b),
                sofar.progress + 1⟩ rest
      else sofar
  -- `len(rgb_encrypted) != 3`
  | _ => sofar

def ppmHeaderPy : List Char :=
  "P6\n".toList ++ str weight ++ [' '] ++ str height ++ "\n255\n".toList

/-- `decode_image`: the `with` statement opens the ppm file before the txt
file. -/
def decodeImage (encrypt : Option (List UInt8)) (ppmOpens txtOpens : Bool)
    (key : Int) : Outcome :=
  match encrypt with
  | none => ⟨none, none, 0⟩
  | some bytes =>
      let ppmFilename := outputName (str key) ".ppm"
      let txtFilename := outputName (str key) ".txt"
      if ppmOpens then
        if txtOpens then
          let pixels := decodeImageLoop key 0 ⟨ascii ppmHeaderPy, [], 0⟩ bytes
          ⟨some ⟨ppmFilename, pixels.ppm⟩, some ⟨txtFilename, pixels.txt⟩,
            pixels.progress⟩
        else ⟨some ⟨ppmFilename, []⟩, none, 0⟩
      else ⟨none, none, 0⟩

end Python

section Bytes

/-- A wrapped integer keeps the low bits. -/
theorem getLsbD_ofInt {width : Nat} (value : Int) {i : Nat} (hi : i < width) :
    (BitVec.ofInt width value).getLsbD i = value.testBit i := by
  cases value with
  | ofNat value =>
      rw [Int.ofNat_eq_natCast, BitVec.ofInt_natCast, BitVec.getLsbD_ofNat]
      simp [hi, Int.testBit]
  | negSucc value =>
      rw [BitVec.ofInt_negSucc_eq_not_ofNat, BitVec.getLsbD_not,
        BitVec.getLsbD_ofNat]
      simp [hi, Int.testBit]

theorem testBit_mask (i : Nat) : Int.testBit 0xFF i = decide (i < 8) :=
  Nat.testBit_two_pow_sub_one 8 i

theorem toNat_decrypted (key : Int32) (byte : UInt8) :
    (decrypted key byte).toNat =
      (byte.toNat ^^^ key.toUInt32.toNat) % 2 ^ 8 := by
  simp only [decrypted, UInt32.toNat_toUInt8, UInt32.toNat_xor,
    UInt8.toNat_toUInt32]

/-- Masking on unbounded integers gives what truncation to a byte gives, also
for keys that are negative or do not fit an `int`. -/
theorem componentDecrypted_eq (key : Int) (byte : UInt8) :
    componentDecrypted key byte =
      (decrypted (Int32.ofInt key) byte).toNat := by
  obtain ⟨value, hvalue⟩ :
      ∃ value : Nat, componentDecrypted key byte = value := by
    cases key with
    | ofNat key => exact ⟨_, rfl⟩
    | negSucc key => exact ⟨_, rfl⟩
  rw [hvalue, Int.natCast_inj, toNat_decrypted]
  apply Nat.eq_of_testBit_eq
  intro i
  have hbit : value.testBit i = (componentDecrypted key byte).testBit i := by
    rw [hvalue]
    rfl
  rw [hbit, componentDecrypted, Int.testBit_land, Int.testBit_lxor,
    testBit_mask, Nat.testBit_mod_two_pow, Nat.testBit_xor]
  by_cases hi : i < 8
  · have hkey : (Int32.ofInt key).toUInt32.toNat.testBit i =
        key.testBit i := by
      change (Int32.ofInt key).toBitVec.getLsbD i = key.testBit i
      rw [Int32.toBitVec_ofInt, getLsbD_ofInt key (by omega)]
    rw [hkey, Bool.and_comm]
    rfl
  · simp [hi]

/-- `bytes` takes the components as they are. -/
theorem bytes_components (key : Int) (red green blue : UInt8) :
    bytes [componentDecrypted key red, componentDecrypted key green,
        componentDecrypted key blue] =
      some [decrypted (Int32.ofInt key) red,
        decrypted (Int32.ofInt key) green,
        decrypted (Int32.ofInt key) blue] := by
  have hrange : ∀ byte : UInt8,
      0 ≤ (byte.toNat : Int) ∧ (byte.toNat : Int) < 256 := by
    intro byte
    have := byte.toNat_lt
    omega
  unfold bytes
  simp only [componentDecrypted_eq]
  rw [if_pos (by simp [hrange])]
  simp

end Bytes

section Texts

/-- Both languages print an integer the same way. -/
theorem str_eq_lld (number : Int) : str number = lld number := by
  unfold str lld
  cases number with
  | ofNat number => simp [toString, Int.repr]
  | negSucc number => simp [toString, Int.repr]

theorem length_lld_byte (byte : UInt8) : (lld byte.toNat).length ≤ 3 := by
  have hpositive : ¬ (byte.toNat : Int) < 0 := by omega
  have hbyte := byte.toNat_lt
  rw [lld, if_neg hpositive, Int.natAbs_natCast,
    Nat.length_toDigits_le_iff (by decide) (by decide)]
  omega

/-- The line fits `txt_line`. -/
theorem snprintf_txtLine (r g b : UInt8) :
    snprintf 32 (txtLine r g b) = txtLine r g b := by
  have hr := length_lld_byte r
  have hg := length_lld_byte g
  have hb := length_lld_byte b
  rw [snprintf, List.take_of_length_le]
  simp only [txtLine, List.length_append, List.length_cons, List.length_nil]
  omega

theorem length_outputName (key : List Char) (extension : String) :
    (outputName key extension).length =
      15 + key.length + extension.toList.length := by
  have hdirectory : "outputs/output_".toList.length = 15 := by simp
  unfold outputName
  simp only [List.length_append, hdirectory]

theorem inLongLong_toInt (key : Int32) : InLongLong key.toInt := by
  have hlow := key.le_toInt
  have hhigh := key.toInt_lt
  constructor
  · omega
  · omega

/-- The file names fit their buffers. -/
theorem snprintf_outputName (key : Int32) (extension : String)
    (hextension : extension.toList.length ≤ 4) :
    snprintf 256 (outputName (lld key.toInt) extension) =
      outputName (lld key.toInt) extension := by
  have hkey := length_lld_le (inLongLong_toInt key)
  have hlength := length_outputName (lld key.toInt) extension
  exact List.take_of_length_le (by omega)

end Texts

/-- From any point on, the two loops write and count the same. -/
theorem decodeImageLoop_eq (key : Int) {left pixelsProcessed : Nat}
    (hleft : pixelsProcessed + left = totalPixels) (file : List UInt8)
    (sofar : Pixels) :
    decodeImageLoop key pixelsProcessed sofar file =
      decodeLoop (Int32.ofInt key) left file sofar := by
  induction left generalizing pixelsProcessed file sofar with
  | zero =>
      have hdone : ¬ pixelsProcessed < totalPixels := by omega
      rcases file with _ | ⟨first, _ | ⟨second, _ | ⟨third, rest⟩⟩⟩
      · rfl
      · rfl
      · rfl
      · rw [decodeImageLoop, if_neg hdone, decodeLoop]
  | succ left ih =>
      have hmore : pixelsProcessed < totalPixels := by omega
      rcases file with _ | ⟨first, _ | ⟨second, _ | ⟨third, rest⟩⟩⟩
      · rfl
      · rfl
      · rfl
      · have htake : (first :: second :: third :: rest).take 3 =
            [first, second, third] := rfl
        have hdrop : (first :: second :: third :: rest).drop 3 = rest := rfl
        rw [decodeImageLoop, if_pos hmore, decodeLoop, htake, hdrop]
        simp only [bytes_components]
        rw [ih (by omega)]
        simp only [snprintf_txtLine]
        simp only [colorLine, txtLine, str_eq_lld, componentDecrypted_eq]

/-- The loop counts each complete pixel until the image is full. -/
theorem decodeLoop_progress (key : Int32) (left : Nat) (file : List UInt8)
    (sofar : Pixels) :
    (decodeLoop key left file sofar).progress =
      sofar.progress + min left (file.length / 3) := by
  induction left generalizing file sofar with
  | zero => simp [decodeLoop]
  | succ left ih =>
      rcases file with _ | ⟨first, _ | ⟨second, _ | ⟨third, rest⟩⟩⟩
      · simp [decodeLoop]
      · simp [decodeLoop]
      · simp [decodeLoop]
      · have htake : (first :: second :: third :: rest).take 3 =
            [first, second, third] := rfl
        have hdrop : (first :: second :: third :: rest).drop 3 = rest := rfl
        have hpixels : (first :: second :: third :: rest).length / 3 =
            rest.length / 3 + 1 := by
          simp only [List.length_cons]
          omega
        rw [decodeLoop, htake, hdrop, hpixels]
        simp only [ih]
        omega

theorem decode_progress (contents : List UInt8) (key : Int32) :
    (decode (some contents) true true key).progress =
      min 10000 (contents.length / 3) := by
  simp only [decode, Bool.and_self, if_true, decodeLoop_progress]
  exact Nat.zero_add _

theorem ascii_ppmHeaderPy :
    ascii ppmHeaderPy = ascii (snprintf 256 ppmHeader) := by
  decide

/-- Both decoders write the same files and count the same pixels. -/
theorem decode_eq_decodeImage (contents : List UInt8) (key : Int32) :
    decode (some contents) true true key =
      decodeImage (some contents) true true key.toInt := by
  have hloop := decodeImageLoop_eq key.toInt (Nat.zero_add totalPixels) contents
    ⟨ascii ppmHeaderPy, [], 0⟩
  rw [Int32.ofInt_toInt, ascii_ppmHeaderPy] at hloop
  simp only [decode, decodeImage, Bool.and_self, if_true, str_eq_lld,
    ascii_ppmHeaderPy, hloop]
  rw [snprintf_outputName key ".ppm" (by decide),
    snprintf_outputName key ".txt" (by decide)]

/-- The decoders differ only where the ppm file cannot be opened and the txt file
can: `Decode` has then truncated it, `decode_image` has not. -/
theorem decode_eq_decodeImage_iff (encrypt : Option (List UInt8))
    (ppmOpens txtOpens : Bool) (key : Int32) :
    decode encrypt ppmOpens txtOpens key =
        decodeImage encrypt ppmOpens txtOpens key.toInt ↔
      encrypt = none ∨ ppmOpens = true ∨ txtOpens = false := by
  cases encrypt with
  | none => exact iff_of_true rfl (.inl rfl)
  | some contents =>
      cases ppmOpens with
      | true =>
          refine iff_of_true ?_ (.inr (.inl rfl))
          cases txtOpens with
          | true => exact decode_eq_decodeImage contents key
          | false =>
              simp only [decode, decodeImage, Bool.and_false, if_true,
                Bool.false_eq_true, if_false, str_eq_lld,
                snprintf_outputName key ".ppm" (by decide)]
      | false => cases txtOpens <;> simp [decode, decodeImage]

/-- For every content of `encrypt.bin` and every key the two decoders leave the
same files and count the same pixels; for a key that is no `int` they still
write the same bytes. -/
theorem decoders_agree (contents : List UInt8) :
    (∀ key : Int32,
      decode (some contents) true true key =
          decodeImage (some contents) true true key.toInt ∧
        (decode (some contents) true true key).progress =
          min 10000 (contents.length / 3)) ∧
    ∀ key : Int,
      (decode (some contents) true true (Int32.ofInt key)).ppm.map File.bytes =
          (decodeImage (some contents) true true key).ppm.map File.bytes ∧
        (decode (some contents) true true
            (Int32.ofInt key)).txt.map File.bytes =
          (decodeImage (some contents) true true key).txt.map File.bytes ∧
        (decodeImage (some contents) true true key).progress =
          min 10000 (contents.length / 3) := by
  refine ⟨fun key => ⟨decode_eq_decodeImage contents key,
    decode_progress contents key⟩, fun key => ?_⟩
  have hloop := decodeImageLoop_eq key (Nat.zero_add totalPixels) contents
    ⟨ascii ppmHeaderPy, [], 0⟩
  have hprogress := decode_progress contents (Int32.ofInt key)
  simp only [decode, decodeImage, Bool.and_self, if_true, ascii_ppmHeaderPy,
    Option.map_some] at hloop hprogress ⊢
  rw [hloop]
  exact ⟨rfl, rfl, hprogress⟩

/-- Five bytes are one pixel; the key 934 does not fit a byte. -/
example : decode (some [1, 2, 3, 4, 5]) true true 934 =
    decodeImage (some [1, 2, 3, 4, 5]) true true 934 := by
  decide +kernel

end Decoder

end OsCourse
