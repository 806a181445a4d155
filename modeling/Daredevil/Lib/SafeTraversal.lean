/-
  Daredevil.Lib.SafeTraversal

  A traversal of a linked list whose body may take the current element off the
  list: the element after it is looked up before the body runs, and the traversal
  goes on there.  What the body puts on the list behind that element is visited
  as well.

    * `forEachSafe`          — the traversal, with a bound on the number of turns;
    * `forEachSafe_returns`  — if every turn takes the element off and leaves the rest
                               of the list as it is, each element is visited once.
-/
import Daredevil.Lib.Returns

namespace SafeTraversal

variable {α σ : Type*} [DecidableEq α]

/-- The element after `x`; `none` is the head of the list. -/
def after (x : α) : List α → Option α
  | [] => none
  | y :: ys => if y = x then ys.head? else after x ys

theorem after_cons_self (x : α) (xs : List α) : after x (x :: xs) = xs.head? := if_pos rfl

/-- Traverse from a cursor on. `none` is a fault of the body, or more than `fuel` turns. -/
def forEachSafe (view : σ → List α) (body : σ → α → Option σ) : Nat → Option α → σ → Option σ
  | _, none, s => some s
  | 0, some _, _ => none
  | fuel + 1, some x, s => (body s x).bind (forEachSafe view body fuel (after x (view s)))

variable {view : σ → List α} {body : σ → α → Option σ}

/-- `R rest s` holds before the turn of the first element of `rest`. -/
theorem forEachSafe_returns {R : List α → σ → Prop}
    (h_view : ∀ x rest s, R (x :: rest) s → view s = x :: rest)
    (h_body : ∀ x rest s, R (x :: rest) s → Returns (body s x) (R rest))
    (xs : List α) {fuel : Nat} (h_fuel : xs.length ≤ fuel) {s : σ} (h : R xs s) :
    Returns (forEachSafe view body fuel xs.head? s) (R []) := by
  induction xs generalizing fuel s with
  | nil =>
      rw [List.head?_nil, forEachSafe.eq_def]
      exact Returns.some h
  | cons x rest ih =>
      cases fuel with
      | zero => exact absurd h_fuel (Nat.not_succ_le_zero _)
      | succ fuel =>
          rw [List.head?_cons, forEachSafe, h_view x rest s h, after_cons_self]
          apply (h_body x rest s h).bind
          intro s' h_s'
          exact ih (Nat.le_of_succ_le_succ h_fuel) h_s'

end SafeTraversal
