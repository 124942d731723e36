/-
A fixed array used as an append-only log: the entries from the first slot on and
a filler after them.
-/
import Mathlib.Data.List.Basic

namespace BoundedLog

universe u

variable {α : Type u} {size : Nat} {slots : Vector α size} {fill : α}
  {entries : List α}

/-- `slots` holds the entries in order and is otherwise filled. -/
structure Holds (slots : Vector α size) (fill : α) (entries : List α) :
    Prop where
  length_le : entries.length ≤ size
  toList_eq : slots.toList =
    entries ++ List.replicate (size - entries.length) fill

theorem Holds.empty (size : Nat) (fill : α) :
    Holds (Vector.replicate size fill) fill [] :=
  ⟨Nat.zero_le size, by simp⟩

/-- Writing the first free slot appends an entry. -/
theorem Holds.push (hholds : Holds slots fill entries)
    (hfree : entries.length < size) (entry : α) :
    Holds (slots.set entries.length entry hfree) fill (entries ++ [entry]) := by
  have hlength : (entries ++ [entry]).length = entries.length + 1 := by simp
  refine ⟨by omega, ?_⟩
  have hrest : size - entries.length =
      size - (entries ++ [entry]).length + 1 := by
    omega
  rw [Vector.toList_set, hholds.toList_eq, hrest, List.replicate_succ,
    List.set_append_right _ _ (Nat.le_refl _)]
  simp

theorem Holds.take (hholds : Holds slots fill entries) :
    slots.toList.take entries.length = entries := by
  rw [hholds.toList_eq, List.take_left]

theorem Holds.mem_of_lt (hholds : Holds slots fill entries) {i : Nat}
    (hi : i < size) (hentry : i < entries.length) : slots[i] ∈ entries := by
  have hlength : i < slots.toList.length := by simpa using hi
  rw [← Vector.getElem_toList hlength]
  simp only [hholds.toList_eq, List.getElem_append_left hentry]
  exact List.getElem_mem hentry

theorem Holds.eq_fill_of_le (hholds : Holds slots fill entries) {i : Nat}
    (hi : i < size) (hfree : entries.length ≤ i) : slots[i] = fill := by
  have hlength : i < slots.toList.length := by simpa using hi
  rw [← Vector.getElem_toList hlength]
  simp only [hholds.toList_eq, List.getElem_append_right hfree,
    List.getElem_replicate]

/-- Writing a new entry at or before the end of the log appends it exactly if it is
written at the end. -/
theorem take_set_eq_append_iff {buffer : List α} {index : Nat} {entry : α}
    (hnew : entry ∉ entries) (hindex : index ≤ entries.length)
    (hfree : entries.length < buffer.length) :
    (buffer.set index entry).take (entries.length + 1) =
        entries ++ [entry] ↔
      buffer.take entries.length = entries ∧ index = entries.length := by
  have hlength : entries.length < (buffer.set index entry).length := by
    rwa [List.length_set]
  rw [List.take_succ_eq_append_getElem hlength]
  constructor
  · intro happend
    obtain ⟨htake, hlast⟩ := List.append_inj' happend rfl
    rcases Nat.lt_or_eq_of_le hindex with hlt | rfl
    · have hentry : entry ∈ (buffer.set index entry).take entries.length := by
        rw [List.mem_take_iff_getElem]
        refine ⟨index, ?_, by simp⟩
        simp only [List.length_set]
        omega
      exact absurd (htake ▸ hentry) hnew
    · rw [List.take_set_of_le (Nat.le_refl _)] at htake
      exact ⟨htake, rfl⟩
  · rintro ⟨htake, rfl⟩
    rw [List.take_set_of_le (Nat.le_refl _), htake]
    simp

end BoundedLog
