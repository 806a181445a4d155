/-
  Daredevil.Lib.ObjHeap

  Objects of one type that are allocated and freed under addresses which are never
  used again.  A pointer is `none` (NULL) or the address of an object; it dangles when
  that object was freed.
-/
import Mathlib.Logic.Function.Basic

structure ObjHeap (α : Type*) where
  /-- the next address -/
  next : Nat
  /-- the live objects -/
  cell : Nat → Option α

namespace ObjHeap

variable {α : Type*}

def empty : ObjHeap α := ⟨0, fun _ => none⟩

/-- A new object `x`, at the address `next`. -/
def alloc (h : ObjHeap α) (x : α) : ObjHeap α := ⟨h.next + 1, Function.update h.cell h.next (some x)⟩

def free (h : ObjHeap α) (a : Nat) : ObjHeap α := { h with cell := Function.update h.cell a none }

/-- The object at `a` is live. -/
def live (h : ObjHeap α) (a : Nat) : Bool := (h.cell a).isSome

/-- The pointer designates an object that was freed. -/
def dangles (h : ObjHeap α) (p : Option Nat) : Bool := p.any fun a => !h.live a

variable {h : ObjHeap α} {a b : Nat} {x : α}

@[simp] theorem cell_alloc_next : (h.alloc x).cell h.next = some x := Function.update_self _ _ _

@[simp] theorem cell_free_self : (h.free a).cell a = none := Function.update_self _ _ _

theorem cell_free_ne (h_ne : b ≠ a) : (h.free a).cell b = h.cell b := Function.update_of_ne h_ne _ _

@[simp] theorem live_alloc_next : (h.alloc x).live h.next = true := by
  rw [live, cell_alloc_next, Option.isSome_some]

@[simp] theorem live_free_self : (h.free a).live a = false := by
  rw [live, cell_free_self, Option.isSome_none]

/-- Freeing does not revive anything. -/
theorem live_free_of_not_live (h_b : h.live b = false) : (h.free a).live b = false := by
  by_cases h_eq : b = a
  · rw [h_eq, live_free_self]
  · rw [live, cell_free_ne h_eq]
    exact h_b

@[simp] theorem dangles_none : h.dangles none = false := rfl

@[simp] theorem dangles_some : h.dangles (some a) = !h.live a := rfl

end ObjHeap
