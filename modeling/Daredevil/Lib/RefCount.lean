/-
  Daredevil.Lib.RefCount

  Reference counts in a sparse table: a key that nobody refers to has no entry,
  every other key stores how many references there are.

    * `incr m k`        — take a reference: a missing entry becomes `1`;
    * `decr m k`        — drop one: the last reference removes the entry;
    * `Keys m s`        — `m` has an entry for exactly the keys in `s`;
    * `Counts m refs`   — `m` stores the multiplicities of the references `refs`.

  `Counts` is what a user of the table keeps: taking a reference adds it to the
  multiset (`Counts.incr`), dropping one that is held removes it
  (`Counts.decr`), and a table that counts no references has no entries
  (`Counts.eq_none`).
-/
import Mathlib.Data.Finset.Card
import Mathlib.Data.Multiset.AddSub
import Mathlib.Data.Multiset.Count
import Mathlib.Logic.Function.Basic

namespace RefCount

variable {κ : Type*} [DecidableEq κ]

/-- The count of a key, `0` for a missing entry. -/
def stored (m : κ → Option Nat) (k : κ) : Nat := (m k).getD 0

omit [DecidableEq κ] in
theorem stored_of_none {m : κ → Option Nat} {k : κ} (h : m k = none) : stored m k = 0 := by
  rw [stored, h, Option.getD_none]

omit [DecidableEq κ] in
theorem stored_of_some {m : κ → Option Nat} {k : κ} {v : Nat} (h : m k = some v) :
    stored m k = v := by
  rw [stored, h, Option.getD_some]

/-- Take a reference to `k`. -/
def incr (m : κ → Option Nat) (k : κ) : κ → Option Nat :=
  match m k with
  | none => Function.update m k (some 1)
  | some v => Function.update m k (some (v + 1))

/-- Drop a reference to `k`; dropping one that is not there changes nothing. -/
def decr (m : κ → Option Nat) (k : κ) : κ → Option Nat :=
  match m k with
  | none => m
  | some v => if 1 < v then Function.update m k (some (v - 1)) else Function.update m k none

theorem incr_eq_update (m : κ → Option Nat) (k : κ) :
    incr m k = Function.update m k (some (stored m k + 1)) := by
  unfold incr stored
  cases m k with
  | none => rfl
  | some v => rfl

theorem decr_eq_update (m : κ → Option Nat) (k : κ) :
    decr m k = Function.update m k (if 1 < stored m k then some (stored m k - 1) else none) := by
  unfold decr stored
  cases h : m k with
  | none =>
      dsimp only [Option.getD_none]
      rw [if_neg (Nat.not_lt_zero 1), ← h, Function.update_eq_self]
  | some v =>
      dsimp only [Option.getD_some]
      split
      · rfl
      · rfl

theorem incr_same (m : κ → Option Nat) (k : κ) : incr m k k = some (stored m k + 1) := by
  rw [incr_eq_update, Function.update_self]

theorem incr_other (m : κ → Option Nat) {k k' : κ} (h_ne : k' ≠ k) : incr m k k' = m k' := by
  rw [incr_eq_update, Function.update_of_ne h_ne]

theorem decr_other (m : κ → Option Nat) {k k' : κ} (h_ne : k' ≠ k) : decr m k k' = m k' := by
  rw [decr_eq_update, Function.update_of_ne h_ne]

theorem decr_same_of_one_lt {m : κ → Option Nat} {k : κ} (h : 1 < stored m k) :
    decr m k k = some (stored m k - 1) := by
  rw [decr_eq_update, Function.update_self, if_pos h]

theorem decr_same_of_le_one {m : κ → Option Nat} {k : κ} (h : stored m k ≤ 1) :
    decr m k k = none := by
  rw [decr_eq_update, Function.update_self, if_neg (Nat.not_lt.mpr h)]

theorem stored_incr_same (m : κ → Option Nat) (k : κ) :
    stored (incr m k) k = stored m k + 1 := by
  rw [stored, incr_same, Option.getD_some]

theorem stored_decr_same (m : κ → Option Nat) (k : κ) :
    stored (decr m k) k = stored m k - 1 := by
  by_cases h : 1 < stored m k
  · rw [stored, decr_same_of_one_lt h, Option.getD_some]
  · have h_le : stored m k ≤ 1 := Nat.le_of_not_lt h
    rw [stored, decr_same_of_le_one h_le, Option.getD_none]
    omega

omit [DecidableEq κ] in
theorem stored_congr {m m' : κ → Option Nat} {k : κ} (h : m k = m' k) :
    stored m k = stored m' k := congrArg (Option.getD · 0) h

/-- A reference that is taken and dropped again leaves no trace. -/
theorem decr_incr {m : κ → Option Nat} {k : κ} (h : m k ≠ some 0) : decr (incr m k) k = m := by
  funext k'
  by_cases h_eq : k' = k
  · subst h_eq
    cases h_v : m k' with
    | none =>
        have h_one : stored (incr m k') k' = 1 := by
          rw [stored_incr_same, stored_of_none h_v]
        rw [decr_same_of_le_one (Nat.le_of_eq h_one)]
    | some v =>
        have h_ne : v ≠ 0 := fun h_zero => h (by rw [h_v, h_zero])
        have h_succ : stored (incr m k') k' = v + 1 := by
          rw [stored_incr_same, stored_of_some h_v]
        rw [decr_same_of_one_lt (by omega), h_succ, Nat.add_sub_cancel]
  · rw [decr_other _ h_eq, incr_other _ h_eq]

/-! ## The keys of a table -/

/-- `m` has an entry for exactly the keys in `s`. -/
def Keys (m : κ → Option Nat) (s : Finset κ) : Prop := ∀ k, k ∈ s ↔ (m k).isSome = true

section Keys

variable {m : κ → Option Nat} {s : Finset κ}

omit [DecidableEq κ] in
theorem keys_empty : Keys (fun _ : κ => none) ∅ := fun k =>
  iff_of_false (Finset.notMem_empty k) Bool.false_ne_true

theorem Keys.incr (h : Keys m s) (k : κ) : Keys (incr m k) (insert k s) := by
  intro k'
  rw [Finset.mem_insert]
  by_cases h_eq : k' = k
  · subst h_eq
    rw [incr_same]
    exact iff_of_true (Or.inl rfl) rfl
  · rw [incr_other m h_eq, or_iff_right h_eq]
    exact h k'

theorem Keys.decr (h : Keys m s) (k : κ) :
    Keys (decr m k) (if 1 < stored m k then s else s.erase k) := by
  intro k'
  by_cases h_eq : k' = k
  · subst h_eq
    split
    case isTrue h_lt =>
      rw [decr_same_of_one_lt h_lt, h]
      cases h_v : m k' with
      | none =>
          rw [stored_of_none h_v] at h_lt
          exact absurd h_lt (Nat.not_lt_zero 1)
      | some v => rfl
    case isFalse h_le =>
      rw [decr_same_of_le_one (Nat.le_of_not_lt h_le)]
      exact iff_of_false (Finset.notMem_erase k' s) Bool.false_ne_true
  · rw [decr_other m h_eq, ← h k']
    split
    case isTrue => rfl
    case isFalse => rw [Finset.mem_erase, and_iff_right h_eq]

end Keys

/-! ## A table that counts a multiset of references -/

/-- `m` stores the multiplicities of `refs`, and has no entry for a key outside it. -/
structure Counts (m : κ → Option Nat) (refs : Multiset κ) : Prop where
  stored_eq : ∀ k, stored m k = refs.count k
  ne_zero : ∀ k, m k ≠ some 0

variable {m : κ → Option Nat} {refs : Multiset κ}

theorem counts_empty : Counts (fun _ : κ => none) 0 where
  stored_eq _ := rfl
  ne_zero _ := fun h => by cases h

theorem Counts.incr (h : Counts m refs) (k : κ) : Counts (incr m k) (k ::ₘ refs) where
  stored_eq k' := by
    by_cases h_eq : k' = k
    · subst h_eq
      rw [stored_incr_same, h.stored_eq, Multiset.count_cons_self]
    · rw [stored_congr (incr_other m h_eq), h.stored_eq, Multiset.count_cons_of_ne h_eq]
  ne_zero k' := by
    by_cases h_eq : k' = k
    · subst h_eq
      rw [incr_same]
      exact fun h0 => Nat.succ_ne_zero _ (Option.some.inj h0)
    · rw [incr_other m h_eq]
      exact h.ne_zero k'

theorem Counts.decr (h : Counts m refs) (k : κ) : Counts (decr m k) (refs.erase k) where
  stored_eq k' := by
    by_cases h_eq : k' = k
    · subst h_eq
      rw [stored_decr_same, h.stored_eq, Multiset.count_erase_self]
    · rw [stored_congr (decr_other m h_eq), h.stored_eq, Multiset.count_erase_of_ne h_eq]
  ne_zero k' := by
    by_cases h_eq : k' = k
    · subst h_eq
      by_cases h_lt : 1 < stored m k'
      · rw [decr_same_of_one_lt h_lt]
        intro h0
        have := Option.some.inj h0
        omega
      · rw [decr_same_of_le_one (Nat.le_of_not_lt h_lt)]
        exact fun h0 => by cases h0
    · rw [decr_other m h_eq]
      exact h.ne_zero k'

theorem Counts.eq_none_iff (h : Counts m refs) (k : κ) : m k = none ↔ k ∉ refs := by
  rw [← Multiset.count_eq_zero, ← h.stored_eq]
  unfold stored
  cases hk : m k with
  | none => simp
  | some v =>
      have := h.ne_zero k
      rw [hk] at this
      simpa using this

theorem Counts.eq_none (h : Counts m 0) (k : κ) : m k = none :=
  (h.eq_none_iff k).mpr (Multiset.notMem_zero k)

end RefCount
