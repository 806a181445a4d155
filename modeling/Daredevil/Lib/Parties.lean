/-
  Daredevil.Lib.Parties

  Parties that take their steps one at a time, kept in a list in no particular order.  What an
  invariant says of such a system is mostly how many parties are in one place, or how much they
  hold between them: the `total` of a weight over the list.

    * `total_erase` — a party leaves;
    * `le_total`    — what a single party has.
-/
import Mathlib.Data.List.Basic

namespace Parties

variable {α : Type*}

/-- The sum of a weight over the parties. -/
def total (w : α → Nat) : List α → Nat
  | [] => 0
  | a :: l => w a + total w l

@[simp] theorem total_nil (w : α → Nat) : total w [] = 0 := rfl

@[simp] theorem total_cons (w : α → Nat) (a : α) (l : List α) :
    total w (a :: l) = w a + total w l := rfl

theorem total_eq_zero {w : α → Nat} {l : List α} (h : ∀ a ∈ l, w a = 0) : total w l = 0 := by
  induction l with
  | nil => rfl
  | cons a l ih =>
      have h_a := h a (by simp)
      have h_l := ih fun b h_b => h b (List.mem_cons_of_mem a h_b)
      rw [total_cons]
      omega

theorem le_total {w : α → Nat} {l : List α} {a : α} (h : a ∈ l) : w a ≤ total w l := by
  induction l with
  | nil => cases h
  | cons b l ih =>
      rw [total_cons]
      cases List.mem_cons.mp h with
      | inl h_eq =>
          rw [h_eq]
          omega
      | inr h_mem =>
          have h_le := ih h_mem
          omega

variable [DecidableEq α]

/-- A party leaves. -/
theorem total_erase (w : α → Nat) {l : List α} {a : α} (h : a ∈ l) :
    total w (l.erase a) + w a = total w l := by
  induction l with
  | nil => cases h
  | cons b l ih =>
      by_cases h_eq : b = a
      · rw [h_eq, List.erase_cons_head, total_cons]
        omega
      · have h_mem : a ∈ l := (List.mem_cons.mp h).resolve_left fun h_a => h_eq h_a.symm
        have h_ne : (b == a) = false := by simpa using h_eq
        have h_l := ih h_mem
        rw [List.erase_cons_tail (by simp [h_ne]), total_cons, total_cons]
        omega

/-- A party leaves that has nothing, if it was there at all. -/
theorem total_erase_of_zero {w : α → Nat} {a : α} (h_zero : w a = 0) (l : List α) :
    total w (l.erase a) = total w l := by
  by_cases h : a ∈ l
  · have h_erase := total_erase w h
    omega
  · rw [List.erase_of_not_mem h]

/-- A party goes on: `a` is what it was, `b` what it is now. -/
def move (l : List α) (a b : α) : List α := b :: l.erase a

end Parties
