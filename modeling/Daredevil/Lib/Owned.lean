/-
  Daredevil.Lib.Owned

  Ownership of heap objects.  `Owns base own h` says that the heap `h` is `base` with the
  objects `own` allocated in addition, each of them once.  Freeing one of them is possible
  exactly once (`kfree` is `none` for an object that is not live), and a heap of which
  nothing is owned is `base` again.

    * `Owns.alloc`, `Owns.kfree`  — the two operations;
    * `Owns.kfreePtr`             — freeing through a pointer that may be NULL;
    * `Owns.trans`                — two owners, one after the other;
    * `Owns.cell_eq`              — nothing was lost, and nothing else was freed.
-/
import Daredevil.Lib.ObjHeap
import Daredevil.Lib.Returns
import Mathlib.Data.List.Perm.Basic

namespace ObjHeap

variable {α : Type*}

/-- Free the object at `a`; `none` where there is none. -/
def kfree (h : ObjHeap α) (a : Nat) : Option (ObjHeap α) :=
  if h.live a then some (h.free a) else none

/-- Free what a pointer designates; NULL is no error. -/
def kfreePtr (h : ObjHeap α) : Option Nat → Option (ObjHeap α)
  | none => some h
  | some a => h.kfree a

/-- Nothing is allocated from the next address on. -/
def Bounded (h : ObjHeap α) : Prop := ∀ a, h.next ≤ a → h.cell a = none

structure Owns (base : ObjHeap α) (own : List Nat) (h : ObjHeap α) : Prop where
  bounded : h.Bounded
  nodup : own.Nodup
  live : ∀ a ∈ own, h.live a = true
  fresh : ∀ a ∈ own, base.cell a = none
  frame : ∀ a ∉ own, h.cell a = base.cell a

variable {base h : ObjHeap α} {own own' : List Nat} {a : Nat}

theorem Owns.init (h_bounded : base.Bounded) : Owns base [] base where
  bounded := h_bounded
  nodup := List.nodup_nil
  live a h_a := by cases h_a
  fresh a h_a := by cases h_a
  frame _ _ := rfl

theorem Owns.perm (h_own : Owns base own h) (h_perm : own.Perm own') : Owns base own' h where
  bounded := h_own.bounded
  nodup := h_perm.nodup_iff.mp h_own.nodup
  live a h_a := h_own.live a (h_perm.mem_iff.mpr h_a)
  fresh a h_a := h_own.fresh a (h_perm.mem_iff.mpr h_a)
  frame a h_a := h_own.frame a fun h_mem => h_a (h_perm.mem_iff.mp h_mem)

/-- Addresses are not used again, so a new object is owned by nobody. -/
theorem Owns.next_not_mem (h_own : Owns base own h) : h.next ∉ own := by
  intro h_mem
  have h_live := h_own.live h.next h_mem
  rw [ObjHeap.live, h_own.bounded h.next (Nat.le_refl _)] at h_live
  cases h_live

theorem Owns.alloc (h_own : Owns base own h) (x : α) : Owns base (h.next :: own) (h.alloc x) where
  bounded a h_a := by
    have h_a : h.next + 1 ≤ a := h_a
    show Function.update h.cell h.next (some x) a = none
    rw [Function.update_of_ne (by omega)]
    exact h_own.bounded a (by omega)
  nodup := List.nodup_cons.mpr ⟨h_own.next_not_mem, h_own.nodup⟩
  live a h_a := by
    rcases List.mem_cons.mp h_a with rfl | h_mem
    · exact live_alloc_next
    · have h_ne : a ≠ h.next := fun h_eq => h_own.next_not_mem (h_eq ▸ h_mem)
      show (Function.update h.cell h.next (some x) a).isSome = true
      rw [Function.update_of_ne h_ne]
      exact h_own.live a h_mem
  fresh a h_a := by
    rcases List.mem_cons.mp h_a with rfl | h_mem
    · rw [← h_own.frame _ h_own.next_not_mem]
      exact h_own.bounded _ (Nat.le_refl _)
    · exact h_own.fresh a h_mem
  frame a h_a := by
    rw [List.mem_cons, not_or] at h_a
    show Function.update h.cell h.next (some x) a = base.cell a
    rw [Function.update_of_ne h_a.1]
    exact h_own.frame a h_a.2

/-- An object that is owned can be freed, and is not owned afterwards. -/
theorem Owns.kfree (h_own : Owns base (a :: own) h) : Returns (h.kfree a) (Owns base own) := by
  have h_live := h_own.live a List.mem_cons_self
  obtain ⟨h_not, h_nodup⟩ := List.nodup_cons.mp h_own.nodup
  refine ⟨h.free a, if_pos h_live, ?_, h_nodup, ?_, ?_, ?_⟩
  · intro b h_b
    by_cases h_eq : b = a
    · rw [h_eq, cell_free_self]
    · rw [cell_free_ne h_eq]
      exact h_own.bounded b h_b
  · intro b h_b
    have h_ne : b ≠ a := fun h_eq => h_not (h_eq ▸ h_b)
    rw [ObjHeap.live, cell_free_ne h_ne]
    exact h_own.live b (List.mem_cons_of_mem a h_b)
  · intro b h_b
    exact h_own.fresh b (List.mem_cons_of_mem a h_b)
  · intro b h_b
    by_cases h_eq : b = a
    · rw [h_eq, cell_free_self, h_own.fresh a List.mem_cons_self]
    · rw [cell_free_ne h_eq]
      refine h_own.frame b fun h_mem => ?_
      rcases List.mem_cons.mp h_mem with h_b' | h_b'
      · exact h_eq h_b'
      · exact h_b h_b'

theorem Owns.kfreePtr {p : Option Nat} (h_own : Owns base (p.toList ++ own) h) :
    Returns (h.kfreePtr p) (Owns base own) := by
  cases p with
  | none => exact .some h_own
  | some a => exact h_own.kfree

/-- What is allocated on top of a heap in which objects are owned already. -/
theorem Owns.trans {base₀ : ObjHeap α} {own₀ : List Nat} (h_own : Owns base own h)
    (h_base : Owns base₀ own₀ base) : Owns base₀ (own ++ own₀) h := by
  have h_disjoint : ∀ a ∈ own, a ∉ own₀ := by
    intro a h_a h_a₀
    have h_live := h_base.live a h_a₀
    rw [ObjHeap.live, h_own.fresh a h_a] at h_live
    cases h_live
  refine ⟨h_own.bounded, ?_, ?_, ?_, ?_⟩
  · refine List.nodup_append.mpr ⟨h_own.nodup, h_base.nodup, ?_⟩
    rintro a h_a b h_b rfl
    exact h_disjoint a h_a h_b
  · intro a h_a
    rcases List.mem_append.mp h_a with h_new | h_old
    · exact h_own.live a h_new
    · rw [ObjHeap.live, h_own.frame a fun h_new => h_disjoint a h_new h_old]
      exact h_base.live a h_old
  · intro a h_a
    rcases List.mem_append.mp h_a with h_new | h_old
    · rw [← h_base.frame a (h_disjoint a h_new)]
      exact h_own.fresh a h_new
    · exact h_base.fresh a h_old
  · intro a h_a
    rw [List.mem_append, not_or] at h_a
    rw [h_own.frame a h_a.1]
    exact h_base.frame a h_a.2

/-- Nothing is owned: every object that was allocated is freed, and nothing else. -/
theorem Owns.cell_eq (h_own : Owns base [] h) : h.cell = base.cell :=
  funext fun a => h_own.frame a List.not_mem_nil

end ObjHeap
