/-
The text output of the image decoders against their input: the rows of the txt
file are the pixels of the ppm file, and with the key they give back the bytes
of `encrypt.bin`.
-/
import OsCourse.DecimalRows
import OsCourse.PixelDecoders

namespace OsCourse

namespace Decoder

open DecimalText DecimalRows

/-- The complete pixels of a file, as far as there is room for them. -/
def chunks : (left : Nat) → List UInt8 → List (List UInt8)
  | left + 1, first :: second :: third :: rest =>
      [first, second, third] :: chunks left rest
  | _, _ => []

section Chunks

variable {left : Nat} {file : List UInt8}

theorem length_chunks : (chunks left file).length = min left (file.length / 3) := by
  fun_induction chunks left file with
  | case1 left first second third rest ih =>
      simp only [List.length_cons, ih]
      omega
  | case2 left file hshort =>
      rcases left with _ | left
      · rw [List.length_nil, Nat.zero_min]
      · have hlength : file.length < 3 := by
          rcases file with _ | ⟨first, _ | ⟨second, _ | ⟨third, rest⟩⟩⟩
          · exact Nat.succ_pos 2
          · exact Nat.lt_add_of_pos_left Nat.two_pos
          · exact Nat.lt_succ_self 2
          · exact absurd rfl (hshort left first second third rest rfl)
        rw [Nat.div_eq_of_lt hlength, List.length_nil, Nat.min_zero]

theorem length_of_mem_chunks {chunk : List UInt8}
    (hchunk : chunk ∈ chunks left file) : chunk.length = 3 := by
  fun_induction chunks left file with
  | case1 left first second third rest ih =>
      rcases List.mem_cons.mp hchunk with rfl | hrest
      · rfl
      · exact ih hrest
  | case2 => contradiction

theorem flatten_chunks :
    (chunks left file).flatten = file.take (3 * (chunks left file).length) := by
  fun_induction chunks left file with
  | case1 left first second third rest ih =>
      rw [List.flatten_cons, ih, List.length_cons, Nat.mul_succ]
      rfl
  | case2 => rfl

end Chunks

/-- The numbers of a decrypted pixel. -/
def pixelRow (key : Int32) (chunk : List UInt8) : List Nat :=
  chunk.map fun byte => (decrypted key byte).toNat

/-- A line of the txt file is a row of three numbers. -/
theorem txtLine_eq_printRow (r g b : UInt8) :
    txtLine r g b = printRow [r.toNat, g.toNat, b.toNat] ++ ['\n'] := by
  have hlld : ∀ byte : UInt8, lld byte.toNat = Nat.toDigits 10 byte.toNat := by
    intro byte
    rw [lld, if_neg (by omega), Int.natAbs_natCast]
  simp [txtLine, printRow, hlld, List.intercalate_cons_cons]

theorem ascii_append (front back : List Char) :
    ascii (front ++ back) = ascii front ++ ascii back :=
  List.map_append

/-- What the loop writes for the rest of the file. -/
theorem decodeLoop_eq (key : Int32) (left : Nat) (file : List UInt8)
    (sofar : Pixels) :
    decodeLoop key left file sofar =
      ⟨sofar.ppm ++ (chunks left file).flatten.map (decrypted key),
        sofar.txt ++
          ascii (printRows ((chunks left file).map (pixelRow key))),
        sofar.progress + (chunks left file).length⟩ := by
  induction left generalizing file sofar with
  | zero => simp [decodeLoop, chunks, printRows, ascii]
  | succ left ih =>
      rcases file with _ | ⟨first, _ | ⟨second, _ | ⟨third, rest⟩⟩⟩
      · simp [decodeLoop, chunks, printRows, ascii]
      · simp [decodeLoop, chunks, printRows, ascii]
      · simp [decodeLoop, chunks, printRows, ascii]
      · have htake : (first :: second :: third :: rest).take 3 =
            [first, second, third] := rfl
        have hdrop : (first :: second :: third :: rest).drop 3 = rest := rfl
        rw [decodeLoop, htake, hdrop]
        simp only [snprintf_txtLine]
        simp only [ih, txtLine_eq_printRow, chunks, List.flatten_cons,
          List.map_cons, List.map_append, printRows, List.flatMap_cons,
          ascii_append, List.append_assoc, List.length_cons, Pixels.mk.injEq]
        exact ⟨rfl, rfl, by omega⟩

/-- The low 8 bits of a key. -/
def lowByte (key : Int) : UInt8 :=
  UInt8.ofInt key

theorem decrypted_eq_xor (key : Int) (byte : UInt8) :
    decrypted (Int32.ofInt key) byte = byte ^^^ lowByte key := by
  have hkey : (Int32.ofInt key).toUInt32.toUInt8 = lowByte key := by
    apply UInt8.toNat_inj.mp
    have hlow : (key % 2 ^ 32).toNat % 2 ^ 8 = (key % 2 ^ 8).toNat % 2 ^ 8 := by
      omega
    simpa [lowByte, UInt8.ofInt, Int32.ofInt] using hlow
  rw [decrypted, UInt32.toUInt8_xor, UInt8.toUInt8_toUInt32, hkey]

theorem decrypted_xor (key : Int) (byte : UInt8) :
    decrypted (Int32.ofInt key) byte ^^^ lowByte key = byte := by
  rw [decrypted_eq_xor, UInt8.xor_assoc, UInt8.xor_self, UInt8.xor_zero]

/-- The text of a file of bytes. -/
def fileText (contents : List UInt8) : List Char :=
  contents.map fun byte => Char.ofNat byte.toNat

theorem fileText_printRows (rows : List (List Nat)) :
    fileText (ascii (printRows rows)) = printRows rows := by
  have hchars : ∀ char ∈ printRows rows,
      Char.ofNat (UInt8.ofNat char.toNat).toNat = char := by
    intro char hchar
    rw [UInt8.toNat_ofNat', Nat.mod_eq_of_lt (toNat_lt_of_mem_printRows hchar),
      Char.ofNat_toNat]
  rw [fileText, ascii, List.map_map]
  exact (List.map_congr_left hchars).trans (List.map_id' _)

/-- How many pixels are decoded. -/
def decodedPixels (contents : List UInt8) : Nat :=
  min totalPixels (contents.length / 3)

/-- The txt file has a line for each pixel of the ppm file, and the pixels give back
what was decoded. -/
structure TextRecovers (contents : List UInt8) (key : Int) (outcome : Outcome)
    (pixels text : List UInt8) : Prop where
  ppm : outcome.ppm =
    some ⟨outputName (lld key) ".ppm", ascii ppmHeader ++ pixels⟩
  txt : outcome.txt = some ⟨outputName (lld key) ".txt", text⟩
  lines : ∃ rows, lines (fileText text) = some rows ∧
    rows.length = decodedPixels contents
  triples : ∃ rows, readRows (fileText text) = some rows ∧
    (∀ row ∈ rows, row.length = 3) ∧ rows.flatten = pixels.map UInt8.toNat
  length : pixels.length = 3 * decodedPixels contents
  input : pixels.map (· ^^^ lowByte key) =
    contents.take (3 * decodedPixels contents)

/-- The files that the pixels of the contents make. -/
theorem textRecovers_chunks (contents : List UInt8) (key : Int)
    {outcome : Outcome}
    (hppm : outcome.ppm = some ⟨outputName (lld key) ".ppm",
      ascii ppmHeader ++ (chunks totalPixels contents).flatten.map
        (decrypted (Int32.ofInt key))⟩)
    (htxt : outcome.txt = some ⟨outputName (lld key) ".txt",
      ascii (printRows ((chunks totalPixels contents).map
        (pixelRow (Int32.ofInt key))))⟩) :
    ∃ pixels text, TextRecovers contents key outcome pixels text := by
  obtain ⟨rows, hrows⟩ : ∃ rows, rows =
      (chunks totalPixels contents).map (pixelRow (Int32.ofInt key)) :=
    ⟨_, rfl⟩
  have hcount : (chunks totalPixels contents).length =
      decodedPixels contents := length_chunks
  have hbytes : (chunks totalPixels contents).flatten =
      contents.take (3 * decodedPixels contents) := by
    rw [flatten_chunks, hcount]
  have hthree : ∀ row ∈ rows, row.length = 3 := by
    intro row hrow
    rw [hrows] at hrow
    obtain ⟨chunk, hchunk, rfl⟩ := List.mem_map.mp hrow
    rw [pixelRow, List.length_map, length_of_mem_chunks hchunk]
  have hnonempty : ∀ row ∈ rows, row ≠ [] := by
    rintro row hrow rfl
    exact absurd (hthree [] hrow) (by decide)
  rw [← hrows] at htxt
  refine ⟨_, _, hppm, htxt, ⟨rows.map printRow, ?_, ?_⟩,
    ⟨rows, ?_, hthree, ?_⟩, ?_, ?_⟩
  · rw [fileText_printRows, lines_printRows]
  · rw [List.length_map, hrows, List.length_map, hcount]
  · rw [fileText_printRows, readRows_printRows hnonempty]
  · rw [hrows, List.map_map, List.map_flatten]
    rfl
  · rw [List.length_map, hbytes, List.length_take, decodedPixels]
    omega
  · rw [List.map_map, ← hbytes]
    exact (List.map_congr_left fun byte _ => decrypted_xor key byte).trans
      (List.map_id' _)

/-- From the text output of either decoder and the key, the decoded part of the input
can be read back. -/
theorem decoders_text_recovers (contents : List UInt8) :
    (∀ key : Int32, ∃ pixels text,
      TextRecovers contents key.toInt (decode (some contents) true true key)
        pixels text) ∧
      ∀ key : Int, ∃ pixels text,
        TextRecovers contents key (decodeImage (some contents) true true key)
          pixels text := by
  have hheader : ascii (snprintf 256 ppmHeader) = ascii ppmHeader := by decide
  constructor
  · intro key
    apply textRecovers_chunks
    · simp only [decode, Bool.and_self, if_true, decodeLoop_eq, hheader,
        snprintf_outputName key ".ppm" (by decide), Int32.ofInt_toInt]
    · simp only [decode, Bool.and_self, if_true, decodeLoop_eq,
        snprintf_outputName key ".txt" (by decide), Int32.ofInt_toInt,
        List.nil_append]
  · intro key
    apply textRecovers_chunks
    · simp only [decodeImage, if_true, str_eq_lld, ascii_ppmHeaderPy, hheader,
        decodeImageLoop_eq key (Nat.zero_add totalPixels), decodeLoop_eq]
    · simp only [decodeImage, if_true, str_eq_lld, List.nil_append,
        decodeImageLoop_eq key (Nat.zero_add totalPixels), decodeLoop_eq]

/-- The header takes 15 bytes. -/
example : (ascii ppmHeader).length = 15 := by decide

end Decoder

end OsCourse
