/-
  Daredevil.Lib.Ledger

  Conservation of items that operations take from a list in hand and put into a
  state.  A ledger counts the items that a state holds; `good` are the states in
  which nothing is held out of place, so that the count is the whole account.

  `Keeps` is the relation "no item lost, none doubled" between a list with a state
  and what an operation makes of them.  It composes (`trans`), it does not see the
  order of the list (`of_perm`), and an operation on a part of the list keeps the
  whole (`frame`).
-/
import Mathlib.Data.List.Count
import Mathlib.Data.List.Perm.Basic

/-- What counts as held by a state, and in which states that is all. -/
structure Ledger (α σ : Type*) where
  good : σ → Prop
  held : σ → α → Nat

namespace Ledger

variable {α σ : Type*} [DecidableEq α] {L : Ledger α σ} {r r' r'' : List α × σ}
  {l l' m : List α} {s s' : σ}

/-- From `r` to `r'` no item is lost and none is doubled. -/
def Keeps (L : Ledger α σ) (r r' : List α × σ) : Prop :=
  L.good r.2 → L.good r'.2 ∧ ∀ a, L.held r'.2 a + r'.1.count a = L.held r.2 a + r.1.count a

theorem Keeps.refl (r : List α × σ) : L.Keeps r r := fun h_good => ⟨h_good, fun _ => rfl⟩

theorem Keeps.trans (h : L.Keeps r r') (h' : L.Keeps r' r'') : L.Keeps r r'' := by
  intro h_good
  obtain ⟨h_good', h_held⟩ := h h_good
  obtain ⟨h_good'', h_held'⟩ := h' h_good'
  exact ⟨h_good'', fun a => (h_held' a).trans (h_held a)⟩

theorem Keeps.of_perm (s : σ) (h_perm : l.Perm l') : L.Keeps (l, s) (l', s) := by
  intro h_good
  refine ⟨h_good, fun a => ?_⟩
  rw [h_perm.count_eq]

/-- The items `m` go into the state. -/
theorem Keeps.put (h_good : L.good s → L.good s')
    (h_held : L.good s → ∀ a, L.held s' a = L.held s a + m.count a) :
    L.Keeps (m ++ l, s) (l, s') := by
  intro h
  refine ⟨h_good h, fun a => ?_⟩
  dsimp only
  rw [h_held h a, List.count_append]
  omega

/-- The rest of the list is left alone. -/
theorem Keeps.frame (h : L.Keeps (l, s) (l', s')) (m : List α) :
    L.Keeps (l ++ m, s) (l' ++ m, s') := by
  intro h_good
  obtain ⟨h_good', h_held⟩ := h h_good
  refine ⟨h_good', fun a => ?_⟩
  have h_a := h_held a
  dsimp only at h_a ⊢
  rw [List.count_append, List.count_append]
  omega

end Ledger
