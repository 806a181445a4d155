/-
  Daredevil.Lib.RingBuffer

  A first-in first-out list kept in an array of `cap` slots between two indices
  that wrap at `cap`.  The indices alone cannot tell a full ring from an empty one,
  so at most `cap - 1` elements may be held: `Holds r xs` says that `r` keeps
  exactly `xs`, every element still in its slot.

    * `Holds.push`, `Holds.pop` — both ends move, as long as there is room;
    * `Holds.front`             — the slot at the head is the oldest element;
    * `Mark r xs m`             — `m` is an index between head and tail, up to which
                                  the elements have been announced;
    * `ahead cap m i`           — how many slots there are from `m` up to `i`.
-/
import Mathlib.Data.Nat.ModEq
import Mathlib.Logic.Function.Basic

variable {α : Type*} {cap : Nat}

structure RingBuffer (α : Type*) (cap : Nat) where
  slots : Nat → Option α
  head : Nat
  tail : Nat

namespace RingBuffer

/-- The index after `i`. -/
def next (cap i : Nat) : Nat := if i + 1 = cap then 0 else i + 1

def empty : RingBuffer α cap := ⟨fun _ => none, 0, 0⟩

/-- Write the slot at the tail, and advance it. -/
def push (r : RingBuffer α cap) (x : α) : RingBuffer α cap where
  slots := Function.update r.slots r.tail (some x)
  head := r.head
  tail := next cap r.tail

/-- Advance the head. -/
def pop (r : RingBuffer α cap) : RingBuffer α cap := { r with head := next cap r.head }

/-- The ring keeps the elements `xs`, oldest first. -/
structure Holds (r : RingBuffer α cap) (xs : List α) : Prop where
  head_lt : r.head < cap
  length_lt : xs.length < cap
  tail_eq : r.tail = (r.head + xs.length) % cap
  slot : ∀ i, i < xs.length → r.slots ((r.head + i) % cap) = xs[i]?

/-- The index `m` lies between the head and the tail. -/
def Mark (r : RingBuffer α cap) (xs : List α) (m : Nat) : Prop :=
  ∃ k, k ≤ xs.length ∧ m = (r.head + k) % cap

/-- The number of slots from the index `m` up to the index `i`. -/
def ahead (cap m i : Nat) : Nat := if m ≤ i then i - m else i + cap - m

variable {r : RingBuffer α cap} {x : α} {xs : List α}

theorem next_eq {i : Nat} (h : i < cap) : next cap i = (i + 1) % cap := by
  rw [next]
  split
  case isTrue h_eq => rw [h_eq, Nat.mod_self]
  case isFalse h_ne => rw [Nat.mod_eq_of_lt (by omega)]

theorem next_mod {i : Nat} (h : 0 < cap) : next cap (i % cap) = (i + 1) % cap := by
  rw [next_eq (Nat.mod_lt i h), Nat.mod_add_mod]

/-- Within one round of the ring, offsets from the head are different slots. -/
theorem mod_ne_mod {a i j : Nat} (h_ij : i < j) (h_j : j < cap) :
    (a + i) % cap ≠ (a + j) % cap := by
  intro h_eq
  have h_mod : Nat.ModEq cap i j := Nat.ModEq.add_left_cancel' a h_eq
  exact absurd (h_mod.eq_of_lt_of_lt (by omega) h_j) (by omega)

namespace Holds

theorem empty (h : 0 < cap) : Holds (RingBuffer.empty : RingBuffer α cap) [] where
  head_lt := h
  length_lt := h
  tail_eq := (Nat.zero_mod cap).symm
  slot i h_i := absurd h_i (Nat.not_lt_zero i)

/-- The slot written is none of those in use, and all of them stay as they are. -/
theorem push (h : Holds r xs) (h_room : xs.length + 1 < cap) : Holds (r.push x) (xs ++ [x]) where
  head_lt := h.head_lt
  length_lt := by
    rw [List.length_append, List.length_singleton]
    exact h_room
  tail_eq := by
    rw [List.length_append, List.length_singleton]
    show next cap r.tail = (r.head + (xs.length + 1)) % cap
    rw [h.tail_eq, next_mod (by omega), Nat.add_assoc]
  slot i h_i := by
    rw [List.length_append, List.length_singleton] at h_i
    show Function.update r.slots r.tail (some x) ((r.head + i) % cap) = _
    rcases Nat.lt_or_ge i xs.length with h_old | h_new
    · have h_ne : (r.head + i) % cap ≠ r.tail := by
        rw [h.tail_eq]
        exact mod_ne_mod h_old h.length_lt
      rw [Function.update_of_ne h_ne, h.slot i h_old, List.getElem?_append_left h_old]
    · have h_last : i = xs.length := by omega
      rw [h_last, ← h.tail_eq, Function.update_self, List.getElem?_concat_length]

theorem front (h : Holds r (x :: xs)) : r.slots r.head = some x := by
  have h_slot := h.slot 0 (Nat.succ_pos _)
  rwa [Nat.add_zero, Nat.mod_eq_of_lt h.head_lt] at h_slot

theorem pop (h : Holds r (x :: xs)) : Holds r.pop xs := by
  have h_pos : 0 < cap := Nat.lt_of_le_of_lt (Nat.zero_le _) h.head_lt
  have h_len := h.length_lt
  rw [List.length_cons] at h_len
  have h_head : r.pop.head = (r.head + 1) % cap := next_eq h.head_lt
  refine ⟨?_, by omega, ?_, ?_⟩
  · rw [h_head]
    exact Nat.mod_lt _ h_pos
  · rw [h_head, Nat.mod_add_mod, Nat.add_assoc, Nat.add_comm 1]
    exact h.tail_eq
  · intro i h_i
    have h_slot := h.slot (i + 1) (Nat.succ_lt_succ h_i)
    rw [List.getElem?_cons_succ] at h_slot
    rw [h_head, Nat.mod_add_mod, Nat.add_assoc, Nat.add_comm 1]
    exact h_slot

/-- The indices meet exactly when nothing is held. -/
theorem head_eq_tail_iff (h : Holds r xs) : r.head = r.tail ↔ xs = [] := by
  rw [h.tail_eq]
  constructor
  · intro h_eq
    by_contra h_ne
    have h_pos := List.length_pos_iff.mpr h_ne
    have h_start : (r.head + 0) % cap = r.head := Nat.mod_eq_of_lt h.head_lt
    exact mod_ne_mod h_pos h.length_lt (h_start.trans h_eq)
  · intro h_nil
    rw [h_nil, List.length_nil, Nat.add_zero, Nat.mod_eq_of_lt h.head_lt]

theorem mark_tail (h : Holds r xs) : Mark r xs r.tail := ⟨xs.length, Nat.le_refl _, h.tail_eq⟩

end Holds

namespace Mark

variable {m : Nat}

theorem push (h : Mark r xs m) : Mark (r.push x) (xs ++ [x]) m := by
  obtain ⟨k, h_le, h_eq⟩ := h
  refine ⟨k, ?_, h_eq⟩
  rw [List.length_append]
  exact Nat.le_add_right_of_le h_le

/-- A mark that is not at the head has an element before it. -/
theorem ne_nil (h : Mark r xs m) (h_lt : r.head < cap) (h_ne : r.head ≠ m) : xs ≠ [] := by
  rintro rfl
  obtain ⟨k, h_le, h_eq⟩ := h
  have h_zero : k = 0 := Nat.le_zero.mp h_le
  rw [h_zero, Nat.add_zero, Nat.mod_eq_of_lt h_lt] at h_eq
  exact h_ne h_eq.symm

theorem pop (h : Mark r (x :: xs) m) (h_lt : r.head < cap) (h_ne : r.head ≠ m) :
    Mark r.pop xs m := by
  obtain ⟨k, h_le, h_eq⟩ := h
  cases k with
  | zero =>
      rw [Nat.add_zero, Nat.mod_eq_of_lt h_lt] at h_eq
      exact absurd h_eq.symm h_ne
  | succ k =>
      refine ⟨k, Nat.le_of_succ_le_succ h_le, ?_⟩
      have h_head : r.pop.head = (r.head + 1) % cap := next_eq h_lt
      rw [h_eq, h_head, Nat.mod_add_mod, Nat.add_assoc, Nat.add_comm 1]

end Mark

section Ahead

variable {m i : Nat}

theorem next_lt (h : i < cap) : next cap i < cap := by
  rw [next_eq h]
  exact Nat.mod_lt _ (by omega)

theorem ahead_self (m : Nat) : ahead cap m m = 0 := by
  rw [ahead, if_pos (Nat.le_refl m), Nat.sub_self]

theorem add_mod_of_le {n : Nat} (h_m : m < cap) (h_n : n < cap) (h_wrap : cap ≤ m + n) :
    (m + n) % cap = m + n - cap := by
  rw [Nat.mod_eq_sub_mod h_wrap, Nat.mod_eq_of_lt (by omega)]

/-- Within one round, an index is ahead of the mark by what has been added to it. -/
theorem ahead_add_mod {n : Nat} (h_m : m < cap) (h_n : n < cap) :
    ahead cap m ((m + n) % cap) = n := by
  by_cases h_wrap : m + n < cap
  · rw [Nat.mod_eq_of_lt h_wrap, ahead, if_pos (Nat.le_add_right m n), Nat.add_sub_cancel_left]
  · rw [add_mod_of_le h_m h_n (Nat.le_of_not_lt h_wrap), ahead, if_neg (by omega)]
    omega

/-- It is below the mark just when it has wrapped. -/
theorem le_add_mod_iff {n : Nat} (h_m : m < cap) (h_n : n < cap) :
    m ≤ (m + n) % cap ↔ m + n < cap := by
  by_cases h_wrap : m + n < cap
  · rw [Nat.mod_eq_of_lt h_wrap]
    exact iff_of_true (Nat.le_add_right m n) h_wrap
  · rw [add_mod_of_le h_m h_n (Nat.le_of_not_lt h_wrap)]
    omega

theorem ahead_eq_zero_iff (h_m : m < cap) : ahead cap m i = 0 ↔ m = i := by
  rw [ahead]
  split <;> omega

/-- Only the index just before the mark is `cap - 1` slots ahead of it. -/
theorem next_eq_iff (h_m : m < cap) (h_i : i < cap) :
    next cap i = m ↔ ahead cap m i = cap - 1 := by
  rw [ahead, next]
  split <;> split <;> omega

theorem ahead_lt (h_m : m < cap) (h_i : i < cap) (h_ne : next cap i ≠ m) :
    ahead cap m i < cap - 1 := by
  rw [Ne, next_eq_iff h_m h_i] at h_ne
  have h_cap : ahead cap m i < cap := by
    rw [ahead]
    split <;> omega
  omega

theorem ahead_next (h_m : m < cap) (h_ne : next cap i ≠ m) :
    ahead cap m (next cap i) = ahead cap m i + 1 := by
  unfold ahead
  unfold next at h_ne ⊢
  split
  case isTrue h_wrap =>
    rw [if_pos h_wrap] at h_ne
    split <;> split <;> omega
  case isFalse h_wrap =>
    rw [if_neg h_wrap] at h_ne
    split <;> split <;> omega

end Ahead

end RingBuffer
