/-
  Daredevil.Lib.SparseArray

  An array with an entry at finitely many of its indices, which can be walked in
  the order of the indices while it changes: `findFrom` gives the first entry at or
  after an index, and a walk goes on after the entry it was given last.
-/
import Mathlib.Data.Finset.Max
import Mathlib.Logic.Function.Basic

structure SparseArray (α : Type*) where
  keys : Finset Nat
  val : Nat → Option α
  mem_keys : ∀ i, i ∈ keys ↔ (val i).isSome

namespace SparseArray

variable {α : Type*} (a : SparseArray α)

/-! ## Operations -/

def empty : SparseArray α := ⟨∅, fun _ => none, fun _ => by simp⟩

/-- The entry at an index. -/
def load (i : Nat) : Option α := a.val i

/-- Store an entry. -/
def insert (i : Nat) (v : α) : SparseArray α where
  keys := Insert.insert i a.keys
  val := Function.update a.val i (some v)
  mem_keys j := by
    by_cases h : j = i
    · simp [h]
    · simp [h, a.mem_keys]

/-- Change the entry at an index, if there is one. -/
def modify (i : Nat) (f : α → α) : SparseArray α where
  keys := a.keys
  val := Function.update a.val i ((a.val i).map f)
  mem_keys j := by
    by_cases h : j = i
    · simp [h, a.mem_keys]
    · simp [h, a.mem_keys]

/-- The index of the first entry at or after an index. -/
def findFrom (i : Nat) : Option Nat :=
  if h : (a.keys.filter (i ≤ ·)).Nonempty then some ((a.keys.filter (i ≤ ·)).min' h) else none

/-! ## What they read and leave -/

variable {a} {i j : Nat} {v : α} {f : α → α}

@[simp] theorem load_insert_self : (a.insert i v).load i = some v := Function.update_self ..

theorem load_insert_of_ne (h : j ≠ i) : (a.insert i v).load j = a.load j :=
  Function.update_of_ne h ..

@[simp] theorem load_modify_self : (a.modify i f).load i = (a.load i).map f :=
  Function.update_self ..

theorem load_modify_of_ne (h : j ≠ i) : (a.modify i f).load j = a.load j :=
  Function.update_of_ne h ..

/-- A search finds an entry, and passes over none. -/
theorem findFrom_some (h : a.findFrom i = some j) :
    i ≤ j ∧ (∃ v, a.load j = some v) ∧ ∀ k, i ≤ k → k < j → a.load k = none := by
  rw [findFrom] at h
  split at h
  case isFalse => cases h
  case isTrue h_ne =>
    cases h
    have h_mem := Finset.mem_filter.mp ((a.keys.filter (i ≤ ·)).min'_mem h_ne)
    refine ⟨h_mem.2, Option.isSome_iff_exists.mp ((a.mem_keys _).mp h_mem.1), ?_⟩
    intro k h_le h_lt
    by_contra h_some
    have h_key := (a.mem_keys k).mpr (Option.isSome_iff_ne_none.mpr h_some)
    have h_min := Finset.min'_le (a.keys.filter (i ≤ ·)) k (Finset.mem_filter.mpr ⟨h_key, h_le⟩)
    omega

/-- A search that finds nothing has no entry left. -/
theorem findFrom_none (h : a.findFrom i = none) (h_le : i ≤ j) : a.load j = none := by
  rw [findFrom] at h
  split at h
  case isTrue => cases h
  case isFalse h_empty =>
    by_contra h_some
    have h_key := (a.mem_keys j).mpr (Option.isSome_iff_ne_none.mpr h_some)
    exact h_empty ⟨j, Finset.mem_filter.mpr ⟨h_key, h_le⟩⟩

end SparseArray
