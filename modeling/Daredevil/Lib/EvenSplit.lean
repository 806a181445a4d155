/-
  Daredevil.Lib.EvenSplit

  Splitting `total` consecutive items into `parts` blocks as evenly as possible:
  with `a = total / parts` and `r = total % parts`, the first `r` blocks have
  `a + 1` items and the others `a`.

    * `start total parts k` — the first item of block `k`;
    * `size total parts k` — the number of items of block `k`;
    * `block total parts x` — the block that item `x` falls in.

  The blocks tile `[0, total)` (`iUnion_items`), are pairwise disjoint, and
  `block` is the inverse of `start` on block starts (`block_start`).  Everything
  follows from one step equation, `start_succ`, and from `block_spec`, which
  places an item between the start of its block and the start of the next one.
-/
import Mathlib.Algebra.BigOperators.Group.List.Basic
import Mathlib.Data.Set.Lattice
import Mathlib.Order.CompletePartialOrder
import Mathlib.Order.Interval.Set.Basic
import Mathlib.Order.Monotone.Basic
import Mathlib.Tactic.Ring

namespace EvenSplit

/-- First item of block `k`. -/
def start (total parts k : Nat) : Nat :=
  k * (total / parts) + min k (total % parts)

/-- Number of items in block `k`. -/
def size (total parts k : Nat) : Nat :=
  if k < total % parts then total / parts + 1 else total / parts

/-- The block that item `x` belongs to. -/
def block (total parts x : Nat) : Nat :=
  if x < total % parts * (total / parts + 1) then
    x / (total / parts + 1)
  else
    total % parts + (x - total % parts * (total / parts + 1)) / (total / parts)

variable {total parts : Nat}

@[simp] theorem start_zero : start total parts 0 = 0 := by
  simp [start]

/-- Block `k + 1` starts where block `k` ends. -/
theorem start_succ (k : Nat) :
    start total parts (k + 1) = start total parts k + size total parts k := by
  unfold start size
  rw [Nat.succ_mul]
  split <;> omega

/-- The blocks cover exactly `total` items. -/
theorem start_parts (h_parts : 0 < parts) : start total parts parts = total := by
  have hr : total % parts < parts := Nat.mod_lt _ h_parts
  have hdiv : parts * (total / parts) + total % parts = total := Nat.div_add_mod total parts
  unfold start
  omega

/-- Starts of the longer blocks. -/
theorem start_of_le_mod {k : Nat} (hk : k ≤ total % parts) :
    start total parts k = k * (total / parts + 1) := by
  unfold start
  rw [Nat.min_eq_left hk, Nat.mul_succ]

/-- Starts of the shorter blocks. -/
theorem start_of_mod_le {k : Nat} (hk : total % parts ≤ k) :
    start total parts k = k * (total / parts) + total % parts := by
  unfold start
  rw [Nat.min_eq_right hk]

theorem div_pos_of_le (h_parts : 0 < parts) (h_le : parts ≤ total) : 0 < total / parts :=
  Nat.div_pos h_le h_parts

theorem size_pos (h_parts : 0 < parts) (h_le : parts ≤ total) (k : Nat) :
    0 < size total parts k := by
  have ha := div_pos_of_le h_parts h_le
  unfold size
  split <;> omega

/-- Any two blocks differ by at most one item. -/
theorem size_le_size_succ (i j : Nat) : size total parts i ≤ size total parts j + 1 := by
  unfold size
  split <;> split <;> omega

theorem start_strictMono (h_parts : 0 < parts) (h_le : parts ≤ total) :
    StrictMono (start total parts) := by
  apply strictMono_nat_of_lt_succ
  intro k
  have hsize := size_pos h_parts h_le k
  rw [start_succ]
  omega

/-- The blocks `k .. k + n - 1` follow one another. -/
theorem start_add (k n : Nat) :
    start total parts (k + n) =
      start total parts k + ((List.range n).map fun i => size total parts (k + i)).sum := by
  induction n with
  | zero => rw [List.range_zero, List.map_nil, List.sum_nil, Nat.add_zero, Nat.add_zero]
  | succ n ih =>
      rw [← Nat.add_assoc, start_succ, ih, List.range_succ, List.map_append, List.sum_append,
        List.map_singleton, List.sum_singleton, Nat.add_assoc]

theorem start_add_size_le (h_parts : 0 < parts) (h_le : parts ≤ total) {i j : Nat}
    (hij : i < j) : start total parts i + size total parts i ≤ start total parts j := by
  rw [← start_succ]
  exact (start_strictMono h_parts h_le).monotone hij

/-- A block number below `parts` is found for every item below `total`. -/
theorem block_lt (h_parts : 0 < parts) {x : Nat} (hx : x < total) :
    block total parts x < parts := by
  have hr : total % parts < parts := Nat.mod_lt _ h_parts
  have hdiv : parts * (total / parts) + total % parts = total := Nat.div_add_mod total parts
  unfold block
  split
  case isTrue h =>
    have : x / (total / parts + 1) < total % parts := Nat.div_lt_of_lt_mul (by rwa [Nat.mul_comm])
    omega
  case isFalse h =>
    -- what is left of `total` after the longer blocks is `(parts - r) * a`
    have hrest : x - total % parts * (total / parts + 1) <
        (total / parts) * (parts - total % parts) := by
      have hsplit : (total / parts) * (parts - total % parts) + (total / parts) * (total % parts) =
          (total / parts) * parts := by
        rw [← Nat.mul_add, Nat.sub_add_cancel (Nat.le_of_lt hr)]
      rw [Nat.mul_comm parts] at hdiv
      have hlong : total % parts * (total / parts + 1) =
          (total / parts) * (total % parts) + total % parts := by ring
      omega
    have := Nat.div_lt_of_lt_mul hrest
    omega

/-- An item lies between the start of its block and the start of the next. -/
theorem block_spec (h_parts : 0 < parts) (h_le : parts ≤ total) (x : Nat) :
    start total parts (block total parts x) ≤ x ∧
      x < start total parts (block total parts x + 1) := by
  have ha := div_pos_of_le h_parts h_le
  unfold block
  split
  case isTrue h =>
    have hk : x / (total / parts + 1) < total % parts :=
      Nat.div_lt_of_lt_mul (by rwa [Nat.mul_comm])
    rw [start_of_le_mod (Nat.le_of_lt hk), start_of_le_mod hk]
    exact ⟨Nat.div_mul_le_self _ _, Nat.lt_mul_of_div_lt (Nat.lt_succ_self _) (by omega)⟩
  case isFalse h =>
    generalize hy : x - total % parts * (total / parts + 1) = y
    have hlow := Nat.div_mul_le_self y (total / parts)
    have hhigh : y < (y / (total / parts) + 1) * (total / parts) :=
      Nat.lt_mul_of_div_lt (Nat.lt_succ_self _) ha
    rw [start_of_mod_le (Nat.le_add_right _ _),
      start_of_mod_le (Nat.le_succ_of_le (Nat.le_add_right _ _))]
    have hlong : total % parts * (total / parts + 1) =
        total % parts * (total / parts) + total % parts := by ring
    have hthis : (total % parts + y / (total / parts)) * (total / parts) =
        total % parts * (total / parts) + y / (total / parts) * (total / parts) := by ring
    have hnext : (total % parts + y / (total / parts) + 1) * (total / parts) =
        total % parts * (total / parts) + (y / (total / parts) + 1) * (total / parts) := by ring
    rw [hthis, hnext]
    omega

/-- The block of an item is the only one whose interval holds it. -/
theorem block_eq_of_mem (h_parts : 0 < parts) (h_le : parts ≤ total) {x k : Nat}
    (h_low : start total parts k ≤ x)
    (h_high : x < start total parts k + size total parts k) : block total parts x = k := by
  obtain ⟨hb_low, hb_high⟩ := block_spec h_parts h_le x
  have hmono := start_strictMono h_parts h_le
  rw [← start_succ] at h_high
  have h1 : k < block total parts x + 1 := hmono.lt_iff_lt.mp (Nat.lt_of_le_of_lt h_low hb_high)
  have h2 : block total parts x < k + 1 := hmono.lt_iff_lt.mp (Nat.lt_of_le_of_lt hb_low h_high)
  omega

theorem block_start (h_parts : 0 < parts) (h_le : parts ≤ total) (k : Nat) :
    block total parts (start total parts k) = k :=
  block_eq_of_mem h_parts h_le (Nat.le_refl _)
    (Nat.lt_add_of_pos_right (size_pos h_parts h_le k))

/-! ## The blocks as sets -/

/-- The items of block `k`. -/
def items (total parts k : Nat) : Set Nat :=
  Set.Ico (start total parts k) (start total parts k + size total parts k)

theorem items_disjoint (h_parts : 0 < parts) (h_le : parts ≤ total) {i j : Nat} (hij : i ≠ j) :
    Disjoint (items total parts i) (items total parts j) := by
  rw [Set.disjoint_left]
  intro x hi hj
  have hbi := block_eq_of_mem h_parts h_le hi.1 hi.2
  have hbj := block_eq_of_mem h_parts h_le hj.1 hj.2
  exact hij (hbi.symm.trans hbj)

theorem iUnion_items (h_parts : 0 < parts) (h_le : parts ≤ total) :
    (⋃ k ∈ Set.Iio parts, items total parts k) = Set.Iio total := by
  ext x
  simp only [Set.mem_iUnion, Set.mem_Iio, exists_prop]
  constructor
  · rintro ⟨k, hk, hx⟩
    have hend := start_add_size_le h_parts h_le hk
    rw [start_parts h_parts] at hend
    exact Nat.lt_of_lt_of_le hx.2 hend
  · intro hx
    obtain ⟨h_low, h_high⟩ := block_spec h_parts h_le x
    rw [start_succ] at h_high
    exact ⟨block total parts x, block_lt h_parts hx, h_low, h_high⟩

end EvenSplit
