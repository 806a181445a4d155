/-
  Daredevil.Lib.LinkedList

  Singly linked lists.  `next` gives the link of each element, `none` is NULL.  `Seg next p
  xs q` says that the links lead from the pointer `p` through the elements `xs` to `q`.

    * `seg_append`          — segments are put together;
    * `Seg.congr`           — a link outside a segment may change;
    * `Seg.update_last`     — redirecting the last link;
    * `IsList.nodup`        — a list that ends at NULL has no element twice.
-/
import Mathlib.Data.List.Basic
import Mathlib.Data.List.Nodup

namespace LinkedList

variable {α : Type*}

/-- From `p`, the links lead through `xs` to `q`. -/
def Seg (next : α → Option α) : Option α → List α → Option α → Prop
  | p, [], q => p = q
  | p, x :: xs, q => p = some x ∧ Seg next (next x) xs q

/-- The NULL-terminated list from `p` on. -/
def IsList (next : α → Option α) (p : Option α) (xs : List α) : Prop := Seg next p xs none

variable {next next' : α → Option α} {p q r : Option α} {x : α} {xs ys : List α}

@[simp] theorem seg_nil : Seg next p [] q ↔ p = q := Iff.rfl

@[simp] theorem seg_cons : Seg next p (x :: xs) q ↔ p = some x ∧ Seg next (next x) xs q := Iff.rfl

theorem seg_append : Seg next p (xs ++ ys) q ↔ ∃ r, Seg next p xs r ∧ Seg next r ys q := by
  induction xs generalizing p with
  | nil => simp
  | cons x xs ih => simp [ih, and_assoc]

theorem Seg.congr (h : Seg next p xs q) (h_next : ∀ x ∈ xs, next' x = next x) :
    Seg next' p xs q := by
  induction xs generalizing p with
  | nil => exact h
  | cons x xs ih =>
      refine ⟨h.1, ?_⟩
      rw [h_next x List.mem_cons_self]
      exact ih h.2 fun y h_y => h_next y (List.mem_cons_of_mem x h_y)

theorem Seg.update_of_not_mem [DecidableEq α] (h : Seg next p xs q) (h_x : x ∉ xs) (r : Option α) :
    Seg (Function.update next x r) p xs q := by
  apply h.congr
  intro y h_y
  have h_ne : y ≠ x := fun h_eq => h_x (h_eq ▸ h_y)
  rw [Function.update_of_ne h_ne]

/-- The last element leads somewhere else. -/
theorem Seg.update_last [DecidableEq α] (h : Seg next p (xs ++ [x]) q) (h_x : x ∉ xs)
    (r : Option α) : Seg (Function.update next x r) p (xs ++ [x]) r := by
  obtain ⟨s, h_xs, h_s, -⟩ := seg_append.mp h
  refine seg_append.mpr ⟨s, h_xs.update_of_not_mem h_x r, h_s, ?_⟩
  rw [Function.update_self]
  exact seg_nil.mpr rfl

/-- Where a segment starts, if what comes behind it starts at `q`. -/
theorem Seg.start_eq (h : Seg next p xs q) : p = xs.head?.or q := by
  cases xs with
  | nil => exact h
  | cons x xs => exact h.1

theorem IsList.start_eq (h : IsList next p xs) : p = xs.head? := by
  have h_start := Seg.start_eq h
  rw [Option.or_none] at h_start
  exact h_start

/-- The links determine the list. -/
theorem IsList.unique (h : IsList next p xs) (h' : IsList next p ys) : xs = ys := by
  induction xs generalizing p ys with
  | nil =>
      have h_p : p = none := h
      cases ys with
      | nil => rfl
      | cons y ys =>
          rw [h_p] at h'
          cases h'.1
  | cons x xs ih =>
      cases ys with
      | nil =>
          have h_p : p = none := h'
          rw [h_p] at h
          cases h.1
      | cons y ys =>
          have h_eq : some x = some y := h.1.symm.trans h'.1
          cases h_eq
          rw [ih h.2 h'.2]

theorem IsList.nodup (h : IsList next p xs) : xs.Nodup := by
  induction xs generalizing p with
  | nil => exact List.nodup_nil
  | cons x xs ih =>
      refine List.nodup_cons.mpr ⟨?_, ih h.2⟩
      intro h_mem
      -- the list from `x` on would be shorter than itself
      obtain ⟨before, after, rfl⟩ := List.append_of_mem h_mem
      obtain ⟨r, -, h_r⟩ := seg_append.mp h.2
      have h_again : IsList next (some x) (x :: after) := h_r.1 ▸ h_r
      have h_start : IsList next (some x) (x :: (before ++ x :: after)) := ⟨rfl, h.2⟩
      have h_length := congrArg List.length (h_start.unique h_again)
      simp only [List.length_cons, List.length_append] at h_length
      omega

end LinkedList
