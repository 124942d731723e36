/-
`CompressRLE` is optimal for its format: it writes one pair for each 255 bytes,
or a remainder, of a maximal run, and no stream that `DecompressRLE` accepts for
the same bytes is shorter.
-/
import OsCourse.RleCodec

namespace OsCourse

namespace Rle

open RunLength

/-- What `DecompressRLE` accepts is a stream of pairs; the counts are bytes and
may be zero. -/
theorem exists_pairs_of_accepted {stream : List UInt8} {sofar : Outcome}
    (haccepted : (decompressLoop stream sofar).returned ≠ -1) :
    ∃ pairs : List (Nat × UInt8), (∀ pair ∈ pairs, pair.1 ≤ maxRun) ∧
      pairStream pairs = stream := by
  induction stream, sofar using decompressLoop.induct with
  | case1 sofar => exact ⟨[], by simp, rfl⟩
  | case2 last sofar => exact absurd rfl haccepted
  | case3 counter data rest sofar ih =>
      obtain ⟨pairs, hcounts, rfl⟩ := ih haccepted
      refine ⟨(counter.toNat, data) :: pairs, ?_, ?_⟩
      · intro pair hpair
        rcases List.mem_cons.mp hpair with rfl | hpair
        · exact Nat.le_of_lt_succ counter.toNat_lt
        · exact hcounts pair hpair
      · rw [pairStream_cons, UInt8.ofNat_toNat]

theorem compressRLE_length (input : List UInt8) :
    (compressRLE (some input) true).written.length =
      2 * pairsNeeded maxRun input := by
  rw [compressRLE_eq, pairStream_length, encode_length (by decide)]

/-- The value that `CompressRLE` returns is the number of bytes it wrote, two for
each 255 bytes or remainder of a maximal run, and every stream accepted for the
same bytes is at least as long. -/
theorem compressRLE_optimal (input : List UInt8) :
    ((compressRLE (some input) true).returned =
        (compressRLE (some input) true).written.length ∧
      (compressRLE (some input) true).returned =
        2 * (pairsNeeded maxRun input : Int)) ∧
    ∀ stream : List UInt8,
      (decompressRLE (some stream) true).returned ≠ -1 →
      (decompressRLE (some stream) true).written = input →
        (compressRLE (some input) true).written.length ≤ stream.length := by
  have hreturned : (compressRLE (some input) true).returned =
      (compressRLE (some input) true).written.length := by
    rw [compressRLE_eq]
  refine ⟨⟨hreturned, ?_⟩, ?_⟩
  · rw [hreturned, compressRLE_length]
    exact Int.natCast_mul 2 (pairsNeeded maxRun input)
  · intro stream haccepted hinput
    obtain ⟨pairs, hcounts, rfl⟩ := exists_pairs_of_accepted haccepted
    have hexpand : expand pairs = input := by
      rw [← hinput, decompressRLE, decompressLoop_pairStream hcounts]
      rfl
    have hbound : pairsNeeded maxRun (expand pairs) ≤ pairs.length :=
      pairsNeeded_expand_le (by decide) hcounts
    rw [compressRLE_length, pairStream_length, ← hexpand]
    omega

end Rle

end OsCourse
