/-
  Daredevil.Lib.HeapOrder

  The order of an array-implemented binary min-heap, and what the loop of
  `Lib.BinaryHeap` does to it.

  `k` gives every item a key, the sinking item `top` among them.  The loop computes
  the other items' keys on demand and compares them with `bound`, the key of `top`.

    * `siftDown_ordered`     — from a heap that is in order but for its root, the loop
                               leaves one that is in order;
    * `siftDown_stays_iff`   — when `top` does not move at all;
    * `siftDown_rekeyed_iff` — when `top` gets another key `d` afterwards: the heap stays
                               in order exactly if `d` is between the keys that the loop
                               has passed on its way (`lesserPath`) and those it has not.
-/
import Daredevil.Lib.BinaryHeap
import Mathlib.Data.List.Nodup
import Mathlib.Order.Defs.LinearOrder

namespace BinaryHeap

universe u

variable {α κ : Type u} [LinearOrder κ]

/-! ## Order -/

/-- The positions of the children of `p`. -/
def IsChild (p c : Nat) : Prop := c = 2 * p + 1 ∨ c = 2 * p + 2

/-- The parents at the positions in `P` are in order with their children. -/
def OrderedAt (k : α → κ) (P : Nat → Prop) (xs : List α) : Prop :=
  ∀ p c x y, P p → IsChild p c → xs[p]? = some x → xs[c]? = some y → k x ≤ k y

/-- All are. -/
def Ordered (k : α → κ) (xs : List α) : Prop := OrderedAt k (fun _ => True) xs

/-- All are but the item at `i`, whose parent is not above its children. -/
structure DownOrder (k : α → κ) (i : Nat) (xs : List α) : Prop where
  others : OrderedAt k (· ≠ i) xs
  grand : ∀ p c x y, IsChild p i → IsChild i c → xs[p]? = some x → xs[c]? = some y → k x ≤ k y

variable {key : α → Option κ} {k k' : α → κ} {count fuel i j : Nat} {bound : κ}
  {xs ys : List α} {top : α}

theorem IsChild.lt {p c : Nat} (h : IsChild p c) : p < c := by
  unfold IsChild at h
  omega

theorem IsChild.parent_eq {p q c : Nat} (h : IsChild p c) (h' : IsChild q c) : p = q := by
  unfold IsChild at h h'
  omega

/-- The root is below everything. -/
theorem Ordered.root_le (h : Ordered k xs) {x y : α} (h_root : xs[0]? = some x) :
    ∀ n : Nat, xs[n]? = some y → k x ≤ k y := by
  intro n
  -- from parent to parent up to the root
  induction n using Nat.strongRecOn generalizing y with
  | ind n ih =>
      intro h_n
      by_cases h_zero : n = 0
      · rw [h_zero, h_root, Option.some.injEq] at h_n
        rw [h_n]
      · have h_child : IsChild ((n - 1) / 2) n := by
          unfold IsChild
          omega
        have h_lt := h_child.lt
        have h_len := (List.getElem?_eq_some_iff.mp h_n).1
        have h_parent : xs[(n - 1) / 2]? = some xs[(n - 1) / 2] :=
          List.getElem?_eq_getElem (by omega)
        exact (ih _ h_lt h_parent).trans (h _ n _ y trivial h_child h_parent h_n)

/-- To be in order is a test of each position but the first. -/
theorem orderedAt_iff {P : Nat → Prop} :
    (∀ c < xs.length, 0 < c → P ((c - 1) / 2) →
      ∀ x ∈ xs[(c - 1) / 2]?, ∀ y ∈ xs[c]?, k x ≤ k y) ↔ OrderedAt k P xs := by
  constructor
  · intro h p c x y h_p h_child h_x h_y
    have h_len := (List.getElem?_eq_some_iff.mp h_y).1
    have h_parent : (c - 1) / 2 = p := by
      unfold IsChild at h_child
      omega
    rw [← h_parent] at h_p h_x
    exact h c h_len (Nat.zero_lt_of_lt h_child.lt) h_p x h_x y h_y
  · intro h c h_len h_pos h_p x h_x y h_y
    have h_child : IsChild ((c - 1) / 2) c := by
      unfold IsChild
      omega
    exact h _ c x y h_p h_child h_x h_y

instance {P : Nat → Prop} [DecidablePred P] : Decidable (OrderedAt k P xs) :=
  decidable_of_iff _ orderedAt_iff

instance : Decidable (Ordered k xs) :=
  inferInstanceAs (Decidable (OrderedAt k (fun _ => True) xs))

/-! ## The lesser child -/

/-- The keys that are computed are those of the other items. -/
def Keyed (key : α → Option κ) (k : α → κ) (top : α) (xs : List α) : Prop :=
  ∀ x ∈ xs, x ≠ top → key x = some (k x)

omit [LinearOrder κ] in
/-- An item is at one position only. -/
theorem ne_of_getElem? (h_nodup : xs.Nodup) (h_top : xs[i]? = some top) {n : Nat} {x : α}
    (h_x : xs[n]? = some x) (h_ne : n ≠ i) : x ≠ top := by
  rintro rfl
  have h_lt := (List.getElem?_eq_some_iff.mp h_x).1
  exact h_ne ((List.getElem?_inj h_lt h_nodup).mp (h_x.trans h_top.symm))

omit [LinearOrder κ] in
/-- Below the sinking item there are only others. -/
theorem Keyed.child (h : Keyed key k top xs) (h_nodup : xs.Nodup) (h_top : xs[i]? = some top)
    {c : Nat} {y : α} (h_child : IsChild i c) (h_c : xs[c]? = some y) :
    key y = some (k y) ∧ y ≠ top := by
  have h_ne := ne_of_getElem? h_nodup h_top h_c (Nat.ne_of_gt h_child.lt)
  exact ⟨h y (List.mem_of_getElem? h_c) h_ne, h_ne⟩

theorem lesserChild_spec (h_len : xs.length = count) {child : Nat × κ}
    (h_key : ∀ c y, IsChild i c → xs[c]? = some y → key y = some (k y))
    (h : lesserChild key count xs i = some child) :
    IsChild i child.1 ∧ ∃ y, xs[child.1]? = some y ∧ child.2 = k y ∧
      ∀ c z, IsChild i c → xs[c]? = some z → k y ≤ k z := by
  simp only [lesserChild, Option.bind_eq_bind, Option.bind_eq_some_iff] at h
  obtain ⟨left, ⟨l, h_l, h_left⟩, h⟩ := h
  rw [h_key _ l (.inl rfl) h_l, Option.some.injEq] at h_left
  split at h
  case isTrue h_two =>
    simp only [Option.bind_eq_some_iff] at h
    obtain ⟨right, ⟨r, h_r, h_right⟩, h⟩ := h
    rw [h_key _ r (.inr rfl) h_r, Option.some.injEq] at h_right
    subst h_left h_right
    cases h
    -- a child is the left or the right one
    have h_both {y : α} (h_yl : k y ≤ k l) (h_yr : k y ≤ k r) :
        ∀ c z, IsChild i c → xs[c]? = some z → k y ≤ k z := by
      rintro c z (rfl | rfl) h_c
      · rw [h_l, Option.some.injEq] at h_c
        rwa [← h_c]
      · rw [h_r, Option.some.injEq] at h_c
        rwa [← h_c]
    split
    case isTrue h_lt => exact ⟨.inr rfl, r, h_r, rfl, h_both h_lt.le le_rfl⟩
    case isFalse h_ge => exact ⟨.inl rfl, l, h_l, rfl, h_both le_rfl (not_lt.mp h_ge)⟩
  case isFalse h_one =>
    subst h_left
    cases h
    refine ⟨.inl rfl, l, h_l, rfl, ?_⟩
    rintro c z (rfl | rfl) h_c
    · rw [h_l, Option.some.injEq] at h_c
      rw [h_c]
    · have h_lt := (List.getElem?_eq_some_iff.mp h_c).1
      omega

/-! ## One round -/

/-- What a swap of a parent with its child does to the positions. -/
theorem swap_getElem? {x y : α} (h_x : xs[i]? = some x) (h_y : xs[j]? = some y)
    (h_swap : swap xs i j = some ys) (n : Nat) :
    ys[n]? = if n = j then some x else if n = i then some y else xs[n]? := by
  obtain ⟨h_i, rfl⟩ := List.getElem?_eq_some_iff.mp h_x
  obtain ⟨h_j, rfl⟩ := List.getElem?_eq_some_iff.mp h_y
  rw [swap_of_lt h_i h_j, Option.some.injEq] at h_swap
  rw [← h_swap, List.getElem?_set, List.getElem?_set, List.length_set]
  by_cases h_nj : n = j
  · rw [if_pos h_nj.symm, if_pos h_j, if_pos h_nj]
  · rw [if_neg (Ne.symm h_nj), if_neg h_nj]
    by_cases h_ni : n = i
    · rw [if_pos h_ni.symm, if_pos h_i, if_pos h_ni]
    · rw [if_neg (Ne.symm h_ni), if_neg h_ni]

/-- The sinking item goes below the lesser child, whose key is not above its own. -/
theorem DownOrder.swap (h : DownOrder k i xs) {x y : α} (h_child : IsChild i j)
    (h_x : xs[i]? = some x) (h_y : xs[j]? = some y) (h_le : k y ≤ k x)
    (h_min : ∀ c z, IsChild i c → xs[c]? = some z → k y ≤ k z)
    (h_swap : swap xs i j = some ys) : DownOrder k j ys := by
  have h_lt := h_child.lt
  have h_get := swap_getElem? h_x h_y h_swap
  constructor
  · intro p c a b h_p h_pc h_a h_b
    have h_pc_lt := h_pc.lt
    rw [h_get, if_neg h_p] at h_a
    rw [h_get] at h_b
    by_cases h_pi : p = i
    · -- the lesser child is above its sibling and the sinking item
      subst h_pi
      rw [if_pos rfl, Option.some.injEq] at h_a
      rw [← h_a]
      split at h_b
      · rw [← Option.some.inj h_b]
        exact h_le
      · rw [if_neg (Nat.ne_of_gt h_pc_lt)] at h_b
        exact h_min c b h_pc h_b
    · rw [if_neg h_pi] at h_a
      have h_cj : c ≠ j := by
        rintro rfl
        exact h_pi (h_pc.parent_eq h_child)
      rw [if_neg h_cj] at h_b
      by_cases h_ci : c = i
      · -- the lesser child has come up below the parent that the item had
        subst h_ci
        rw [if_pos rfl, Option.some.injEq] at h_b
        rw [← h_b]
        exact h.grand p j a y h_pc h_child h_a h_y
      · rw [if_neg h_ci] at h_b
        exact h.others p c a b h_pi h_pc h_a h_b
  · -- the parent of the new place is the lesser child, which was the parent of what is below
    intro p c a b h_pj h_jc h_a h_b
    obtain rfl := h_pj.parent_eq h_child
    have h_jc_lt := h_jc.lt
    rw [h_get, if_neg (Nat.ne_of_lt h_lt), if_pos rfl, Option.some.injEq] at h_a
    rw [h_get, if_neg (Nat.ne_of_gt h_jc_lt), if_neg (Nat.ne_of_gt (h_lt.trans h_jc_lt))] at h_b
    rw [← h_a]
    exact h.others j c y b (Nat.ne_of_gt h_lt) h_jc h_y h_b

/-- Above its children, the item is in its place. -/
theorem DownOrder.stop (h : DownOrder k i xs) {x : α} (h_x : xs[i]? = some x)
    (h_le : ∀ c z, IsChild i c → xs[c]? = some z → k x ≤ k z) : Ordered k xs := by
  intro p c a b _ h_pc h_a h_b
  by_cases h_pi : p = i
  · subst h_pi
    rw [h_x, Option.some.injEq] at h_a
    rw [← h_a]
    exact h_le c b h_pc h_b
  · exact h.others p c a b h_pi h_pc h_a h_b

/-! ## The loop -/

/-- What the loop starts from, at position `i`. -/
structure Sinks (key : α → Option κ) (k : α → κ) (count : Nat) (top : α) (i : Nat)
    (xs : List α) : Prop where
  length : xs.length = count
  nodup : xs.Nodup
  here : xs[i]? = some top
  keyed : Keyed key k top xs
  order : DownOrder k i xs

theorem Sinks.child (h : Sinks key k count top i xs) {child : Nat × κ}
    (h_child : lesserChild key count xs i = some child) :
    IsChild i child.1 ∧ ∃ y, xs[child.1]? = some y ∧ y ≠ top ∧ child.2 = k y ∧
      ∀ c z, IsChild i c → xs[c]? = some z → k y ≤ k z := by
  obtain ⟨h_isChild, y, h_y, h_eq, h_min⟩ := lesserChild_spec h.length
    (fun c y h_c h_y => (h.keyed.child h.nodup h.here h_c h_y).1) h_child
  exact ⟨h_isChild, y, h_y, (h.keyed.child h.nodup h.here h_isChild h_y).2, h_eq, h_min⟩

/-- A round that goes on. -/
theorem Sinks.swap (h : Sinks key k count top i xs) {child : Nat × κ}
    (h_child : lesserChild key count xs i = some child) (h_le : child.2 ≤ k top)
    (h_swap : swap xs i child.1 = some ys) : Sinks key k count top child.1 ys := by
  obtain ⟨h_isChild, y, h_y, -, h_eq, h_min⟩ := h.child h_child
  have h_perm := swap_perm h_swap
  have h_get := swap_getElem? h.here h_y h_swap
  refine ⟨h_perm.length_eq.trans h.length, h_perm.nodup_iff.mpr h.nodup, ?_, ?_, ?_⟩
  · rw [h_get, if_pos rfl]
  · exact fun x h_x => h.keyed x (h_perm.mem_iff.mp h_x)
  · exact h.order.swap h_isChild h.here h_y (h_eq ▸ h_le) h_min h_swap

/-- A round that stops at the lesser child. -/
theorem Sinks.stop (h : Sinks key k count top i xs) {child : Nat × κ}
    (h_child : lesserChild key count xs i = some child) (h_lt : k top < child.2) :
    Ordered k xs := by
  obtain ⟨-, y, -, -, h_eq, h_min⟩ := h.child h_child
  apply h.order.stop h.here
  intro c z h_c h_z
  exact (h_eq ▸ h_lt).le.trans (h_min c z h_c h_z)

/-- A round without children. -/
theorem Sinks.leaf (h : Sinks key k count top i xs) (h_leaf : ¬ 2 * i + 1 < count) :
    Ordered k xs := by
  apply h.order.stop h.here
  intro c z h_c h_z
  have h_lt := (List.getElem?_eq_some_iff.mp h_z).1
  rw [h.length] at h_lt
  unfold IsChild at h_c
  omega

/-- The loop leaves the heap in order. -/
theorem siftDown_ordered (h : Sinks key k count top i xs) (h_fuel : count ≤ i + fuel)
    (h_sift : siftDown key count (k top) fuel i xs = some ys) : Ordered k ys := by
  induction fuel generalizing i xs with
  | zero =>
      -- where the fuel ends `i` is past the last parent
      cases h_sift
      exact h.leaf (by omega)
  | succ fuel ih =>
      rcases siftDown_succ_cases h_sift with
        ⟨h_leaf, rfl⟩ | ⟨-, child, h_child, ⟨h_lt, rfl⟩ | ⟨h_le, zs, h_swap, h_rest⟩⟩
      · exact h.leaf h_leaf
      · exact h.stop h_child h_lt
      · have h_gt := lesserChild_gt h_child
        exact ih (h.swap h_child (not_lt.mp h_le) h_swap) (by omega) h_rest

/-! ## The way down -/

/-- The items at the lesser children, from `i` down. -/
def lesserPath (key : α → Option κ) (count : Nat) (xs : List α) : Nat → Nat → List α
  | 0, _ => []
  | fuel + 1, i =>
      if 2 * i + 1 < count then
        match lesserChild key count xs i with
        | some child => xs[child.1]?.toList ++ lesserPath key count xs fuel child.1
        | none => []
      else
        []

theorem lesserPath_succ {child : Nat × κ} {y : α} (h_more : 2 * i + 1 < count)
    (h_child : lesserChild key count xs i = some child) (h_y : xs[child.1]? = some y) :
    lesserPath key count xs (fuel + 1) i = y :: lesserPath key count xs fuel child.1 := by
  rw [lesserPath, if_pos h_more, h_child]
  dsimp only
  rw [h_y]
  rfl

/-- It only depends on what is below. -/
theorem lesserPath_congr (h : ∀ n, i < n → ys[n]? = xs[n]?) :
    lesserPath key count ys fuel i = lesserPath key count xs fuel i := by
  induction fuel generalizing i with
  | zero => rfl
  | succ fuel ih =>
      have h_child : lesserChild key count ys i = lesserChild key count xs i := by
        rw [lesserChild, lesserChild, h (2 * i + 1) (by omega), h (2 * i + 2) (by omega)]
      rw [lesserPath, lesserPath, h_child]
      cases h_some : lesserChild key count xs i with
      | none => rfl
      | some child =>
          have h_gt := lesserChild_gt h_some
          dsimp only
          rw [h child.1 h_gt, ih fun n h_n => h n (h_gt.trans h_n)]

/-- Below an item of an ordered heap the way down has no lesser keys. -/
theorem lesserPath_ge (h_len : xs.length = count) (h_order : OrderedAt k (i ≤ ·) xs)
    (h_key : ∀ p c y, i ≤ p → IsChild p c → xs[c]? = some y → key y = some (k y)) {y : α}
    (h_y : xs[i]? = some y) : ∀ z ∈ lesserPath key count xs fuel i, k y ≤ k z := by
  induction fuel generalizing i y with
  | zero => exact fun z h_z => by cases h_z
  | succ fuel ih =>
      intro z h_z
      rw [lesserPath] at h_z
      split at h_z
      case isFalse => cases h_z
      case isTrue =>
        split at h_z
        case h_2 => cases h_z
        case h_1 child h_child =>
          obtain ⟨h_isChild, x, h_x, -, -⟩ :=
            lesserChild_spec h_len (fun c y => h_key i c y le_rfl) h_child
          have h_lt := h_isChild.lt
          -- the way goes on from a child, with the order below it
          have h_yx := h_order i child.1 y x le_rfl h_isChild h_y h_x
          rw [h_x] at h_z
          rcases List.mem_cons.mp h_z with rfl | h_z
          · exact h_yx
          · refine h_yx.trans (ih (fun p c a b h_p => ?_) (fun p c a h_p => ?_) h_x z h_z)
            · exact h_order p c a b (h_lt.le.trans h_p)
            · exact h_key p c a (h_lt.le.trans h_p)

/-- The way down from a lesser child. -/
theorem Sinks.path_ge (h : Sinks key k count top i xs) {child : Nat × κ} {y : α}
    (h_isChild : IsChild i child.1) (h_y : xs[child.1]? = some y) :
    ∀ z ∈ lesserPath key count xs fuel child.1, k y ≤ k z := by
  have h_lt := h_isChild.lt
  apply lesserPath_ge h.length _ _ h_y
  · intro p c a b h_p
    exact h.order.others p c a b (by omega)
  · intro p c a h_p h_pc h_a
    have h_pc_lt := h_pc.lt
    exact h.keyed a (List.mem_of_getElem? h_a) (ne_of_getElem? h.nodup h.here h_a (by omega))

/-- The item stays where it is if it is below everything on the way down. -/
theorem siftDown_stays_iff (h : Sinks key k count top i xs) (h_fuel : count ≤ i + fuel)
    (h_sift : siftDown key count (k top) fuel i xs = some ys) :
    ys[i]? = some top ↔ ∀ y ∈ lesserPath key count xs fuel i, k top < k y := by
  have h_len := (List.getElem?_eq_some_iff.mp h.here).1
  rw [h.length] at h_len
  -- there is fuel for a round, the item being in the array
  obtain ⟨fuel, rfl⟩ := Nat.exists_eq_succ_of_ne_zero (show fuel ≠ 0 by omega)
  rcases siftDown_succ_cases h_sift with ⟨h_none, rfl⟩ | ⟨h_more, child, h_child, h_round⟩
  · rw [lesserPath, if_neg h_none]
    exact iff_of_true h.here fun y h_y => absurd h_y List.not_mem_nil
  · obtain ⟨h_isChild, y, h_y, h_ne, h_eq, -⟩ := h.child h_child
    rw [lesserPath_succ h_more h_child h_y]
    rcases h_round with ⟨h_lt, rfl⟩ | ⟨h_le, zs, h_swap, h_rest⟩
    · -- what is above the lesser child is above the rest of the way
      refine iff_of_true h.here fun z h_z => ?_
      rw [h_eq] at h_lt
      rcases List.mem_cons.mp h_z with rfl | h_z
      · exact h_lt
      · exact h_lt.trans_le (h.path_ge h_isChild h_y z h_z)
    · -- the lesser child is at `i` now, and the rest does not touch it
      have h_lt := h_isChild.lt
      refine iff_of_false ?_ fun h_all => h_le (h_eq ▸ h_all y List.mem_cons_self)
      rw [siftDown_before h_lt h_rest, swap_getElem? h.here h_y h_swap,
        if_neg (Nat.ne_of_lt h_lt), if_pos rfl, Option.some.injEq]
      exact h_ne

/-! ## Another key afterwards -/

/-- What the place of the item must meet for another key. -/
theorem Sinks.rekeyed_iff (h : Sinks key k count top i xs) (h_same : ∀ x, x ≠ top → k' x = k x) :
    Ordered k' xs ↔ (∀ p x, IsChild p i → xs[p]? = some x → k x ≤ k' top) ∧
      ∀ c z, IsChild i c → xs[c]? = some z → k' top ≤ k z := by
  -- only `top` has another key, and it is at `i` only
  have h_else {n : Nat} {x : α} (h_n : xs[n]? = some x) (h_ne : n ≠ i) : k' x = k x :=
    h_same x (ne_of_getElem? h.nodup h.here h_n h_ne)
  constructor
  · intro h_ordered
    refine ⟨fun p x h_p h_x => ?_, fun c z h_c h_z => ?_⟩
    · rw [← h_else h_x (Nat.ne_of_lt h_p.lt)]
      exact h_ordered p i x top trivial h_p h_x h.here
    · rw [← h_else h_z (Nat.ne_of_gt h_c.lt)]
      exact h_ordered i c top z trivial h_c h.here h_z
  · rintro ⟨h_parent, h_children⟩ p c x y - h_pc h_x h_y
    by_cases h_p : p = i
    · subst h_p
      rw [h.here, Option.some.injEq] at h_x
      rw [← h_x, h_else h_y (Nat.ne_of_gt h_pc.lt)]
      exact h_children c y h_pc h_y
    · rw [h_else h_x h_p]
      by_cases h_c : c = i
      · subst h_c
        rw [h.here, Option.some.injEq] at h_y
        rw [← h_y]
        exact h_parent p x h_pc h_x
      · rw [h_else h_y h_c]
        exact h.order.others p c x y h_p h_pc h_x h_y

/-- Without children there is no way down. -/
theorem lesserPath_leaf (h_none : ¬ 2 * i + 1 < count) :
    lesserPath key count xs fuel i = [] := by
  cases fuel with
  | zero => rfl
  | succ fuel => rw [lesserPath, if_neg h_none]

theorem Sinks.rekeyed_leaf (h : Sinks key k count top i xs)
    (h_same : ∀ x, x ≠ top → k' x = k x) (h_none : ¬ 2 * i + 1 < count) :
    Ordered k' xs ↔ (∀ p x, IsChild p i → xs[p]? = some x → k x ≤ k' top) ∧
      (∀ y ∈ lesserPath key count xs fuel i, k y ≤ k top → k y ≤ k' top) ∧
      ∀ z ∈ lesserPath key count xs fuel i, k top < k z → k' top ≤ k z := by
  rw [h.rekeyed_iff h_same, lesserPath_leaf h_none]
  apply and_congr_right'
  refine iff_of_true (fun c z h_c h_z => ?_)
    (And.intro (fun y h_y => absurd h_y List.not_mem_nil)
      (fun z h_z => absurd h_z List.not_mem_nil))
  have h_lt := (List.getElem?_eq_some_iff.mp h_z).1
  rw [h.length] at h_lt
  unfold IsChild at h_c
  omega

/-- The loop stops above the lesser child: the whole way down is above the item. -/
theorem Sinks.rekeyed_stop (h : Sinks key k count top i xs)
    (h_same : ∀ x, x ≠ top → k' x = k x) {child : Nat × κ} {y : α} (h_isChild : IsChild i child.1)
    (h_y : xs[child.1]? = some y) (h_min : ∀ c z, IsChild i c → xs[c]? = some z → k y ≤ k z)
    (h_lt : k top < k y) {zs : List α} (h_ge : ∀ z ∈ zs, k y ≤ k z) :
    Ordered k' xs ↔ (∀ p x, IsChild p i → xs[p]? = some x → k x ≤ k' top) ∧
      (∀ z ∈ y :: zs, k z ≤ k top → k z ≤ k' top) ∧
      ∀ z ∈ y :: zs, k top < k z → k' top ≤ k z := by
  have h_all : ∀ z ∈ y :: zs, k y ≤ k z := by
    intro z h_z
    rcases List.mem_cons.mp h_z with rfl | h_z
    · exact le_rfl
    · exact h_ge z h_z
  rw [h.rekeyed_iff h_same]
  apply and_congr_right'
  constructor
  · intro h_children
    refine And.intro (fun z h_z h_le => ?_) (fun z h_z _ => ?_)
    · exact absurd (h_lt.trans_le (h_all z h_z)) (not_lt.mpr h_le)
    · exact (h_children child.1 y h_isChild h_y).trans (h_all z h_z)
  · rintro ⟨-, h_not⟩ c z h_c h_z
    exact (h_not y List.mem_cons_self h_lt).trans (h_min c z h_c h_z)

/-- It goes on: the parent of its new place is the lesser child. -/
theorem Sinks.rekeyed_swap (h : Sinks key k count top i xs) {y : α} (h_isChild : IsChild i j)
    (h_y : xs[j]? = some y) (h_le : k y ≤ k top) (h_swap : BinaryHeap.swap xs i j = some ys)
    {d : κ} {zs : List α} :
    ((∀ p x, IsChild p j → ys[p]? = some x → k x ≤ d) ∧
      (∀ z ∈ zs, k z ≤ k top → k z ≤ d) ∧ ∀ z ∈ zs, k top < k z → d ≤ k z) ↔
    (∀ p x, IsChild p i → xs[p]? = some x → k x ≤ d) ∧
      (∀ z ∈ y :: zs, k z ≤ k top → k z ≤ d) ∧ ∀ z ∈ y :: zs, k top < k z → d ≤ k z := by
  have h_i : ys[i]? = some y := by
    rw [swap_getElem? h.here h_y h_swap, if_neg (Nat.ne_of_lt h_isChild.lt), if_pos rfl]
  -- `y` is not below the old parent, so a bound by `y` includes the parent's
  constructor
  · rintro ⟨h_parent, h_passed, h_not⟩
    have h_yd := h_parent i y h_isChild h_i
    refine ⟨fun p x h_p h_x => ?_, fun z h_z h_zt => ?_, fun z h_z h_tz => ?_⟩
    · exact (h.order.grand p j x y h_p h_isChild h_x h_y).trans h_yd
    · rcases List.mem_cons.mp h_z with rfl | h_z
      · exact h_yd
      · exact h_passed z h_z h_zt
    · rcases List.mem_cons.mp h_z with rfl | h_z
      · exact absurd h_tz (not_lt.mpr h_le)
      · exact h_not z h_z h_tz
  · rintro ⟨-, h_passed, h_not⟩
    refine ⟨fun p x h_p h_x => ?_, fun z h_z h_zt => ?_, fun z h_z h_tz => ?_⟩
    · rw [h_p.parent_eq h_isChild, h_i, Option.some.injEq] at h_x
      rw [← h_x]
      exact h_passed y List.mem_cons_self h_le
    · exact h_passed z (List.mem_cons_of_mem y h_z) h_zt
    · exact h_not z (List.mem_cons_of_mem y h_z) h_tz

/-- The item that sank gets another key: it is in order with the keys that it passed and with
those that it did not. -/
theorem siftDown_rekeyed_iff (h : Sinks key k count top i xs) (h_fuel : count ≤ i + fuel)
    (h_same : ∀ x, x ≠ top → k' x = k x)
    (h_sift : siftDown key count (k top) fuel i xs = some ys) :
    Ordered k' ys ↔ (∀ p x, IsChild p i → xs[p]? = some x → k x ≤ k' top) ∧
      (∀ y ∈ lesserPath key count xs fuel i, k y ≤ k top → k y ≤ k' top) ∧
      ∀ z ∈ lesserPath key count xs fuel i, k top < k z → k' top ≤ k z := by
  induction fuel generalizing i xs with
  | zero =>
      cases h_sift
      exact h.rekeyed_leaf h_same (by omega)
  | succ fuel ih =>
      rcases siftDown_succ_cases h_sift with ⟨h_none, rfl⟩ | ⟨h_more, child, h_child, h_round⟩
      · exact h.rekeyed_leaf h_same h_none
      · obtain ⟨h_isChild, y, h_y, -, h_eq, h_min⟩ := h.child h_child
        rw [lesserPath_succ h_more h_child h_y]
        rcases h_round with ⟨h_lt, rfl⟩ | ⟨h_le, zs, h_swap, h_rest⟩
        · rw [h_eq] at h_lt
          exact h.rekeyed_stop h_same h_isChild h_y h_min h_lt (h.path_ge h_isChild h_y)
        · have h_gt := lesserChild_gt h_child
          rw [not_lt] at h_le
          -- the swap leaves what is below the lesser child
          have h_path : lesserPath key count zs fuel child.1 =
              lesserPath key count xs fuel child.1 := by
            apply lesserPath_congr
            intro n h_n
            rw [swap_getElem? h.here h_y h_swap, if_neg (Nat.ne_of_gt h_n),
              if_neg (Nat.ne_of_gt (h_gt.trans h_n))]
          rw [ih (h.swap h_child h_le h_swap) (by omega) h_rest, h_path]
          exact h.rekeyed_swap h_isChild h_y (h_eq ▸ h_le) h_swap

end BinaryHeap
