/-
  Daredevil.Lib.BinaryHeap

  The loop that moves the root of an array-implemented binary min-heap down, for
  heaps whose keys are computed on demand: `key x` is `none` where computing the
  key of `x` fails, and the root is compared under a key `bound` of the caller's
  choice, not under its own.

    * `lesserChild` — the child to descend to: the left one, unless there is a
                      right one with a smaller key;
    * `siftDown`    — swap with that child until its key is above `bound`.

  The loop runs on fuel; `siftDown_fuel` says that `count` steps are enough, and
  `siftDown_succ_cases` what one step does.  What the loop leaves is a permutation of
  what it found (`siftDown_perm`), and it fails only where a key does
  (`siftDown_isSome`).

  With all keys equal and a `bound` that is not below them the loop only goes to the
  left.  It then rotates the items along the left edge (`siftDown_rotates`), so that
  repeated calls bring up these items in turn and no others (`rotates_returns`).
-/
import Mathlib.Algebra.Group.Nat.Defs
import Mathlib.Data.List.Perm.Basic
import Mathlib.Order.Lattice

namespace BinaryHeap

universe u

variable {α κ : Type u} [LT κ] [DecidableLT κ]

/-- Exchange the items at `i` and `j`. -/
def swap (xs : List α) (i j : Nat) : Option (List α) := do
  let x ← xs[i]?
  let y ← xs[j]?
  some ((xs.set i y).set j x)

/-- The child of `i` to descend to, and its key. -/
def lesserChild (key : α → Option κ) (count : Nat) (xs : List α) (i : Nat) :
    Option (Nat × κ) := do
  let left ← xs[2 * i + 1]?.bind key
  if 2 * i + 2 < count then
    let right ← xs[2 * i + 2]?.bind key
    some (if right < left then (2 * i + 2, right) else (2 * i + 1, left))
  else
    some (2 * i + 1, left)

/-- Move the item at `i` down until the lesser child's key is above `bound`. -/
def siftDown (key : α → Option κ) (count : Nat) (bound : κ) :
    Nat → Nat → List α → Option (List α)
  | 0, _, xs => some xs
  | fuel + 1, i, xs =>
      if 2 * i + 1 < count then do
        let child ← lesserChild key count xs i
        if bound < child.2 then
          some xs
        else do
          let xs ← swap xs i child.1
          siftDown key count bound fuel child.1 xs
      else
        some xs

variable {key : α → Option κ} {count : Nat} {bound : κ}

omit [LT κ] [DecidableLT κ] in
theorem swap_perm {xs ys : List α} {i j : Nat} (h : swap xs i j = some ys) : ys.Perm xs := by
  simp only [swap, Option.bind_eq_bind, Option.bind_eq_some_iff, Option.some.injEq] at h
  obtain ⟨x, hx, y, hy, rfl⟩ := h
  obtain ⟨hi, rfl⟩ := List.getElem?_eq_some_iff.mp hx
  obtain ⟨hj, rfl⟩ := List.getElem?_eq_some_iff.mp hy
  exact List.set_set_perm hi hj

theorem lesserChild_gt {xs : List α} {i : Nat} {child : Nat × κ}
    (h : lesserChild key count xs i = some child) : i < child.1 := by
  simp only [lesserChild, Option.bind_eq_bind, Option.bind_eq_some_iff] at h
  obtain ⟨left, -, h⟩ := h
  split at h
  · rw [Option.bind_eq_some_iff] at h
    obtain ⟨right, -, h⟩ := h
    cases h
    split
    · show i < 2 * i + 2
      omega
    · show i < 2 * i + 1
      omega
  · cases h
    show i < 2 * i + 1
    omega

/-- A round stops at the end of the array or above the lesser child, or it goes on from there. -/
theorem siftDown_succ_cases {fuel i : Nat} {xs ys : List α}
    (h : siftDown key count bound (fuel + 1) i xs = some ys) :
    ¬ 2 * i + 1 < count ∧ ys = xs ∨
      2 * i + 1 < count ∧ ∃ child, lesserChild key count xs i = some child ∧
        (bound < child.2 ∧ ys = xs ∨
          ¬ bound < child.2 ∧ ∃ zs, swap xs i child.1 = some zs ∧
            siftDown key count bound fuel child.1 zs = some ys) := by
  rw [siftDown] at h
  split at h
  case isFalse h_leaf =>
    cases h
    exact .inl ⟨h_leaf, rfl⟩
  case isTrue h_more =>
    simp only [Option.bind_eq_bind, Option.bind_eq_some_iff] at h
    obtain ⟨child, h_child, h⟩ := h
    refine .inr ⟨h_more, child, h_child, ?_⟩
    split at h
    case isTrue h_lt =>
      cases h
      exact .inl ⟨h_lt, rfl⟩
    case isFalse h_ge => exact .inr ⟨h_ge, Option.bind_eq_some_iff.mp h⟩

theorem siftDown_perm {fuel i : Nat} {xs ys : List α}
    (h : siftDown key count bound fuel i xs = some ys) : ys.Perm xs := by
  induction fuel generalizing i xs with
  | zero =>
      cases h
      exact .refl _
  | succ fuel ih =>
      rcases siftDown_succ_cases h with
        ⟨-, rfl⟩ | ⟨-, child, -, ⟨-, rfl⟩ | ⟨-, zs, h_swap, h_rest⟩⟩
      · exact .refl _
      · exact .refl _
      · exact (ih h_rest).trans (swap_perm h_swap)

omit [LT κ] [DecidableLT κ] in
theorem swap_of_lt {xs : List α} {i j : Nat} (hi : i < xs.length) (hj : j < xs.length) :
    swap xs i j = some ((xs.set i xs[j]).set j xs[i]) := by
  rw [swap, List.getElem?_eq_getElem hi, List.getElem?_eq_getElem hj]
  rfl

theorem lesserChild_isSome {xs : List α} {i : Nat} (h_len : xs.length = count)
    (h_key : ∀ x ∈ xs, (key x).isSome) (h_child : 2 * i + 1 < count) :
    ∃ child, lesserChild key count xs i = some child ∧ child.1 < count := by
  have h_left := h_key _ (List.getElem_mem (l := xs) (n := 2 * i + 1) (by omega))
  obtain ⟨left, h_left⟩ := Option.isSome_iff_exists.mp h_left
  rw [lesserChild, List.getElem?_eq_getElem (by omega : 2 * i + 1 < xs.length), Option.bind_some,
    h_left]
  simp only [Option.bind_eq_bind, Option.bind_some]
  split
  case isTrue h_two =>
    have h_right := h_key _ (List.getElem_mem (l := xs) (n := 2 * i + 2) (by omega))
    obtain ⟨right, h_right⟩ := Option.isSome_iff_exists.mp h_right
    rw [List.getElem?_eq_getElem (by omega : 2 * i + 2 < xs.length), Option.bind_some, h_right,
      Option.bind_some]
    refine ⟨_, rfl, ?_⟩
    split
    · exact h_two
    · exact h_child
  case isFalse => exact ⟨_, rfl, h_child⟩

/-- With a key for each item, and as many items as `count` says, the loop does not fail. -/
theorem siftDown_isSome (key : α → Option κ) (bound : κ) {xs : List α} (h_len : xs.length = count)
    (h_key : ∀ x ∈ xs, (key x).isSome) (fuel i : Nat) :
    ∃ ys, siftDown key count bound fuel i xs = some ys := by
  induction fuel generalizing i xs with
  | zero => exact ⟨xs, rfl⟩
  | succ fuel ih =>
      simp only [siftDown, Option.bind_eq_bind]
      split
      case isFalse => exact ⟨xs, rfl⟩
      case isTrue h_more =>
        obtain ⟨child, h_child, h_lt⟩ := lesserChild_isSome h_len h_key h_more
        rw [h_child, Option.bind_some]
        split
        case isTrue => exact ⟨xs, rfl⟩
        case isFalse =>
          have h_swap := swap_of_lt (show i < xs.length by omega)
            (show child.1 < xs.length by omega)
          have h_perm := swap_perm h_swap
          rw [h_swap, Option.bind_some]
          exact ih (h_perm.length_eq.trans h_len)
            (fun x h_x => h_key x (h_perm.mem_iff.mp h_x)) child.1

/-- Past `count` steps more fuel changes nothing: each step at least advances `i`. -/
theorem siftDown_fuel {fuel i : Nat} (h_fuel : count ≤ i + fuel) (extra : Nat) (xs : List α) :
    siftDown key count bound (fuel + extra) i xs = siftDown key count bound fuel i xs := by
  induction fuel generalizing i xs with
  | zero =>
      have h_stop : ¬ 2 * i + 1 < count := by omega
      cases extra with
      | zero => rfl
      | succ extra =>
          rw [Nat.zero_add]
          simp only [siftDown, if_neg h_stop]
  | succ fuel ih =>
      rw [Nat.succ_add_eq_add_succ, Nat.add_succ, siftDown, siftDown]
      split
      case isFalse => rfl
      case isTrue =>
        cases h_child : lesserChild key count xs i with
        | none => rfl
        | some child =>
            have h_gt := lesserChild_gt h_child
            simp only [Option.bind_eq_bind, Option.bind_some]
            split
            · rfl
            · congr 1
              funext ys
              exact ih (by omega) ys

/-! ## Equal keys -/

/-- The position reached from `i` by going left `k` times. -/
def leftmost (i : Nat) : Nat → Nat
  | 0 => i
  | k + 1 => leftmost (2 * i + 1) k

theorem leftmost_eq (i k : Nat) : leftmost i k + 1 = (i + 1) * 2 ^ k := by
  induction k generalizing i with
  | zero => rw [leftmost, Nat.pow_zero, Nat.mul_one]
  | succ k ih => rw [leftmost, ih, Nat.pow_succ', ← Nat.mul_assoc]; congr 1; omega

theorem le_leftmost (i k : Nat) : i ≤ leftmost i k := by
  induction k generalizing i with
  | zero => exact Nat.le_refl i
  | succ k ih =>
      have h := ih (2 * i + 1)
      rw [leftmost]
      omega

/-- From `xs` to `ys` the items below position `i` on its left edge move up by one level,
and the item at `i` moves to the end of the edge. -/
def Rotates (count i : Nat) (xs ys : List α) : Prop :=
  ∀ k, leftmost i k < count →
    ys[leftmost i k]? = if leftmost i (k + 1) < count then xs[leftmost i (k + 1)]? else xs[i]?

/-- Positions before `i` are not touched. -/
theorem siftDown_before {fuel i j : Nat} {xs ys : List α} (h_j : j < i)
    (h : siftDown key count bound fuel i xs = some ys) : ys[j]? = xs[j]? := by
  induction fuel generalizing i xs with
  | zero =>
      cases h
      rfl
  | succ fuel ih =>
      rcases siftDown_succ_cases h with
        ⟨-, rfl⟩ | ⟨-, child, h_child, ⟨-, rfl⟩ | ⟨-, zs, h_swap, h_rest⟩⟩
      · rfl
      · rfl
      · -- both positions of the swap are after `j`
        have h_gt := lesserChild_gt h_child
        rw [ih (by omega) h_rest]
        simp only [swap, Option.bind_eq_bind, Option.bind_eq_some_iff, Option.some.injEq] at h_swap
        obtain ⟨x, -, y, -, rfl⟩ := h_swap
        rw [List.getElem?_set_ne (by omega), List.getElem?_set_ne (by omega)]

/-- Of two children with the same key the left one is taken. -/
theorem lesserChild_const {c : κ} (h_irrefl : ¬ c < c) {xs : List α}
    (h_const : ∀ x ∈ xs, ∀ m, key x = some m → m = c) {i : Nat} {child : Nat × κ}
    (h : lesserChild key count xs i = some child) : child = (2 * i + 1, c) := by
  have h_key {j : Nat} {m : κ} (h_m : ∃ x, xs[j]? = some x ∧ key x = some m) : m = c := by
    obtain ⟨x, h_x, h_m⟩ := h_m
    exact h_const x (List.mem_of_getElem? h_x) m h_m
  simp only [lesserChild, Option.bind_eq_bind, Option.bind_eq_some_iff] at h
  obtain ⟨left, h_left, h⟩ := h
  obtain rfl := h_key h_left
  split at h
  case isTrue =>
    obtain ⟨right, h_right, h⟩ := Option.bind_eq_some_iff.mp h
    obtain rfl := h_key (Option.bind_eq_some_iff.mp h_right)
    rw [if_neg h_irrefl] at h
    exact (Option.some.inj h).symm
  case isFalse => exact (Option.some.inj h).symm

theorem siftDown_rotates {c : κ} (h_irrefl : ¬ c < c) (h_bound : ¬ bound < c)
    {fuel i : Nat} {xs ys : List α} (h_const : ∀ x ∈ xs, ∀ m, key x = some m → m = c)
    (h_fuel : count ≤ i + fuel) (h_i : i < count)
    (h : siftDown key count bound fuel i xs = some ys) : Rotates count i xs ys := by
  induction fuel generalizing i xs with
  | zero => omega
  | succ fuel ih =>
      intro k h_k
      rcases siftDown_succ_cases h with ⟨h_leaf, rfl⟩ | ⟨h_more, child, h_child, h_round⟩
      · -- the edge ends at `i`
        cases k with
        | zero => exact (if_neg h_leaf).symm
        | succ k =>
            have h_le := le_leftmost (2 * i + 1) k
            rw [leftmost] at h_k
            omega
      · cases lesserChild_const h_irrefl h_const h_child
        obtain ⟨h_lt, -⟩ | ⟨-, zs, h_swap, h_rest⟩ := h_round
        · exact absurd h_lt h_bound
        have h_perm := swap_perm h_swap
        simp only [swap, Option.bind_eq_bind, Option.bind_eq_some_iff, Option.some.injEq]
          at h_swap
        obtain ⟨x, h_x, y, h_y, rfl⟩ := h_swap
        obtain ⟨h_iLt, rfl⟩ := List.getElem?_eq_some_iff.mp h_x
        obtain ⟨h_sonLt, rfl⟩ := List.getElem?_eq_some_iff.mp h_y
        cases k with
        | zero =>
            -- the item of the child is now at `i`, which the rest does not touch
            have h_up : ys[i]? = xs[2 * i + 1]? := by
              rw [siftDown_before (by omega) h_rest, List.getElem?_set_ne (by omega),
                List.getElem?_set_self h_iLt, h_y]
            exact h_up.trans (if_pos h_more).symm
        | succ k =>
            have h_rot := ih (fun z h_z => h_const z (h_perm.mem_iff.mp h_z)) (by omega) h_more
              h_rest k h_k
            have h_le : 2 * (2 * i + 1) + 1 ≤ leftmost (2 * i + 1) (k + 1) := le_leftmost _ k
            show ys[leftmost (2 * i + 1) k]? =
              if leftmost (2 * i + 1) (k + 1) < count then xs[leftmost (2 * i + 1) (k + 1)]?
              else xs[i]?
            rw [h_rot, List.getElem?_set_ne (by omega), List.getElem?_set_ne (by omega),
              List.getElem?_set_self (by rw [List.length_set]; exact h_sonLt), h_x]

theorem leftmost_mono (i : Nat) {k l : Nat} (h : k ≤ l) : leftmost i k ≤ leftmost i l := by
  have h_k := leftmost_eq i k
  have h_l := leftmost_eq i l
  have h_pow := Nat.mul_le_mul_left (i + 1) (Nat.pow_le_pow_right Nat.two_pos h)
  omega

/-- The item at the root is there again after as many rotations as the edge is long. -/
theorem rotates_returns {e : Nat} {heaps : Nat → List α}
    (h_rot : ∀ j ≤ e, Rotates count 0 (heaps j) (heaps (j + 1)))
    (h_last : leftmost 0 e < count) (h_end : count ≤ leftmost 0 (e + 1)) :
    (heaps (e + 1))[0]? = (heaps 0)[0]? := by
  -- after the first rotation the item is at the end of the edge, and then it climbs
  have h_climb : ∀ m ≤ e, (heaps (m + 1))[leftmost 0 (e - m)]? = (heaps 0)[0]? := by
    intro m h_m
    induction m with
    | zero =>
        rw [Nat.sub_zero, h_rot 0 (Nat.zero_le e) e h_last, if_neg (Nat.not_lt.mpr h_end)]
    | succ m ih =>
        have h_level : e - (m + 1) + 1 = e - m := by omega
        have h_le := leftmost_mono 0 (Nat.sub_le e m)
        rw [h_rot (m + 1) h_m _ (by have := leftmost_mono 0 (Nat.sub_le e (m + 1)); omega),
          h_level, if_pos (by omega)]
        exact ih (Nat.le_of_succ_le h_m)
  have h_top := h_climb e (Nat.le_refl e)
  rwa [Nat.sub_self, leftmost] at h_top

/-- From three items on the edge is shorter than the number of items. -/
theorem exists_edge (h_count : 3 ≤ count) :
    ∃ e, e + 1 < count ∧ leftmost 0 e < count ∧ count ≤ leftmost 0 (e + 1) := by
  have h_eq (k : Nat) : leftmost 0 k + 1 = 2 ^ k := by rw [leftmost_eq, Nat.zero_add, Nat.one_mul]
  have h_pos : count ≠ 0 := by omega
  have h_le := Nat.log2_self_le h_pos
  have h_lt := Nat.lt_log2_self (n := count)
  have h_last := h_eq count.log2
  have h_end := h_eq (count.log2 + 1)
  refine ⟨count.log2, ?_, by omega, by omega⟩
  rcases Nat.lt_or_ge count.log2 2 with h_small | h_large
  · omega
  · -- doubling twice is more than adding two
    obtain ⟨e, h_e⟩ := Nat.exists_eq_add_of_le h_large
    have h_grow := Nat.lt_two_pow_self (n := e)
    rw [h_e, Nat.pow_add] at h_le
    omega

end BinaryHeap
