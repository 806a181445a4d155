/-
  Daredevil.Lib.Returns

  Total correctness of computations in `Option`, where `none` is a fault:
  `Returns m P` says that `m` does not fault and that its value has `P`.

  The rules follow the shape of the computation (`bind`, `map`, a fold over a
  list with an invariant), so that a proof about a loop names the invariant and
  shows that one round keeps it.
-/
import Mathlib.Data.Option.Basic

variable {α β : Type*}

/-- The computation does not fault and its value satisfies `P`. -/
def Returns (m : Option α) (P : α → Prop) : Prop := ∃ a, m = some a ∧ P a

namespace Returns

variable {m : Option α} {P Q : α → Prop} {a : α}

theorem some (h : P a) : Returns (some a) P := ⟨a, rfl, h⟩

theorem mono (h : Returns m P) (h_imp : ∀ a, P a → Q a) : Returns m Q := by
  obtain ⟨a, h_eq, h_a⟩ := h
  exact ⟨a, h_eq, h_imp a h_a⟩

theorem isSome (h : Returns m P) : m.isSome = true := by
  obtain ⟨a, rfl, -⟩ := h
  rfl

theorem bind {f : α → Option β} {R : β → Prop} (h : Returns m P)
    (h_f : ∀ a, P a → Returns (f a) R) : Returns (m.bind f) R := by
  obtain ⟨a, rfl, h_a⟩ := h
  exact h_f a h_a

theorem map {f : α → β} {R : β → Prop} (h : Returns m P) (h_f : ∀ a, P a → R (f a)) :
    Returns (m.map f) R := by
  obtain ⟨a, rfl, h_a⟩ := h
  exact ⟨f a, rfl, h_f a h_a⟩

/-- The value of a computation that returns `P` has `P`. -/
theorem of_eq_some (h : Returns m P) (h_eq : m = Option.some a) : P a := by
  obtain ⟨b, h_b, h_P⟩ := h
  rw [h_eq, Option.some.injEq] at h_b
  rwa [h_b]

/-- A loop whose rounds neither fault nor break the invariant `I`. -/
theorem foldlM {f : β → α → Option β} {I : β → Prop} {xs : List α} {b : β}
    (h_round : ∀ x ∈ xs, ∀ b, I b → Returns (f b x) I) (h_b : I b) :
    Returns (xs.foldlM f b) I := by
  induction xs generalizing b with
  | nil => exact some h_b
  | cons x xs ih =>
      rw [List.foldlM_cons]
      apply bind (h_round x (List.mem_cons_self ..) b h_b)
      intro b' h_b'
      exact ih (fun y h_y => h_round y (List.mem_cons_of_mem x h_y)) h_b'

end Returns
