/-
  Daredevil.Lib.FindBit

  Bit masks of `size` bits, and the search for the next bit that is set.  As usual for
  such searches, `size` itself says that there is none.

    * `findNextBit_spec`    — a bit that is found is set, and the first one;
    * `findNextBit_lt_iff`  — one is found exactly if there is one;
    * `findNextBit_wrap`    — a search that starts over at bit 0 misses none.
-/
import Mathlib.Data.List.Range

namespace FindBit

/-- The first bit from `start` on that is set in `mask`. -/
def findNextBit (size : Nat) (mask : Nat → Bool) (start : Nat) : Nat :=
  ((List.range size).find? fun i => decide (start ≤ i) && mask i).getD size

/-- No bit is set. -/
def empty (size : Nat) (mask : Nat → Bool) : Bool := !(List.range size).any mask

variable {size start : Nat} {mask : Nat → Bool}

theorem findNextBit_spec (h : findNextBit size mask start < size) :
    start ≤ findNextBit size mask start ∧ mask (findNextBit size mask start) = true := by
  unfold findNextBit at h ⊢
  cases h_find : (List.range size).find? fun i => decide (start ≤ i) && mask i with
  | none =>
      rw [h_find, Option.getD_none] at h
      omega
  | some i =>
      rw [Option.getD_some]
      have h_i := List.find?_some h_find
      simp only [Bool.and_eq_true, decide_eq_true_eq] at h_i
      exact h_i

theorem findNextBit_lt_iff :
    findNextBit size mask start < size ↔ ∃ i < size, start ≤ i ∧ mask i = true := by
  constructor
  · intro h
    exact ⟨_, h, findNextBit_spec h⟩
  · rintro ⟨i, h_i, h_start, h_mask⟩
    unfold findNextBit
    cases h_find : (List.range size).find? fun i => decide (start ≤ i) && mask i with
    | none =>
        have h_none := List.find?_eq_none.mp h_find i (List.mem_range.mpr h_i)
        simp [h_start, h_mask] at h_none
    | some j => exact List.mem_range.mp (List.mem_of_find?_eq_some h_find)

theorem empty_iff : empty size mask = true ↔ ∀ i < size, mask i = false := by
  simp [empty]

/-! ## Masks with room to spare -/

section Bound

variable {bound : Nat} (h_mask : ∀ i, mask i = true → i < bound) (h_bound : bound ≤ size)
include h_mask h_bound

/-- What is found is a bit; the other results are past all of them. -/
theorem findNextBit_lt_bound_iff :
    findNextBit size mask start < bound ↔ ∃ i, start ≤ i ∧ mask i = true := by
  constructor
  · intro h
    exact ⟨_, findNextBit_spec (Nat.lt_of_lt_of_le h h_bound)⟩
  · rintro ⟨i, h_start, h_i⟩
    apply h_mask
    have h_lt : i < size := Nat.lt_of_lt_of_le (h_mask i h_i) h_bound
    exact (findNextBit_spec (findNextBit_lt_iff.mpr ⟨i, h_lt, h_start, h_i⟩)).2

/-- The search from `start` on, and from 0 on if it fails. -/
theorem findNextBit_wrap :
    (if bound ≤ findNextBit size mask start then findNextBit size mask 0
      else findNextBit size mask start) < bound ↔ ∃ i, mask i = true := by
  split
  case isTrue =>
    rw [findNextBit_lt_bound_iff h_mask h_bound]
    simp
  case isFalse h =>
    have h := Nat.not_le.mp h
    obtain ⟨i, -, h_i⟩ := (findNextBit_lt_bound_iff h_mask h_bound).mp h
    exact iff_of_true h ⟨i, h_i⟩

end Bound

end FindBit
