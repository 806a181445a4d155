/-
  Daredevil.Lib.WriteLog

  A memory that starts with some entries and takes a list of writes.  Nothing is ever
  erased, so an entry is the last value that was written to it.

  `replay_avoids_iff`: no entry has a value of the kind `P` exactly when each write of such
  a value is followed by another write to the same place, and the entries that were there
  from the start are written over as well.
-/
import Mathlib.Data.Option.Basic
import Mathlib.Logic.Function.Basic

namespace WriteLog

variable {κ α : Type*} [DecidableEq κ] {m : κ → Option α} {ws ws' : List (κ × α)} {k : κ}
  {P : α → Prop}

/-- The memory after the writes `ws`. -/
def replay : (κ → Option α) → List (κ × α) → κ → Option α
  | m, [] => m
  | m, w :: ws => replay (Function.update m w.1 (some w.2)) ws

/-- One of the writes goes to `k`. -/
def Covers (ws : List (κ × α)) (k : κ) : Prop := ∃ w ∈ ws, w.1 = k

/-- After a write of a value of the kind `P` there is another one to the same place. -/
def Superseded (P : α → Prop) : List (κ × α) → Prop
  | [] => True
  | w :: ws => (P w.2 → Covers ws w.1) ∧ Superseded P ws

@[simp] theorem replay_nil : replay m [] = m := rfl

@[simp] theorem replay_cons (w : κ × α) :
    replay m (w :: ws) = replay (Function.update m w.1 (some w.2)) ws := rfl

theorem replay_append : replay m (ws ++ ws') = replay (replay m ws) ws' := by
  induction ws generalizing m with
  | nil => rfl
  | cons w ws ih => exact ih

omit [DecidableEq κ] in
theorem covers_cons {w : κ × α} : Covers (w :: ws) k ↔ w.1 = k ∨ Covers ws k := by
  simp only [Covers, List.mem_cons, exists_eq_or_imp]

/-- What is found in the memory was there from the start or has been written. -/
theorem mem_of_replay {a : α} (h : replay m ws k = some a) : m k = some a ∨ (k, a) ∈ ws := by
  induction ws generalizing m with
  | nil => exact .inl h
  | cons w ws ih =>
      rcases ih h with h_m | h_mem
      · by_cases h_k : k = w.1
        · subst h_k
          rw [Function.update_self, Option.some.injEq] at h_m
          subst h_m
          exact .inr (List.mem_cons_self ..)
        · rw [Function.update_of_ne h_k] at h_m
          exact .inl h_m
      · exact .inr (List.mem_cons_of_mem w h_mem)

/-- The induction is on the writes, and the first one counts as an entry that was there. -/
theorem replay_avoids_iff :
    (∀ k a, replay m ws k = some a → ¬ P a) ↔
      (∀ k a, m k = some a → P a → Covers ws k) ∧ Superseded P ws := by
  induction ws generalizing m with
  | nil =>
      constructor
      · intro h
        exact ⟨fun k a h_m h_P => absurd h_P (h k a h_m), trivial⟩
      · rintro ⟨h, -⟩ k a h_m h_P
        obtain ⟨w, h_w, -⟩ := h k a h_m h_P
        cases h_w
  | cons w ws ih =>
      rw [replay_cons, ih, Superseded, ← and_assoc]
      refine and_congr_left fun _ => ?_
      constructor
      · intro h
        refine ⟨fun k a h_m h_P => covers_cons.mpr ?_, fun h_P => h w.1 w.2 ?_ h_P⟩
        · by_cases h_k : w.1 = k
          · exact .inl h_k
          · refine .inr (h k a ?_ h_P)
            rw [Function.update_of_ne (Ne.symm h_k), h_m]
        · rw [Function.update_self]
      · rintro ⟨h_start, h_w⟩ k a h_m h_P
        by_cases h_k : k = w.1
        · subst h_k
          rw [Function.update_self, Option.some.injEq] at h_m
          subst h_m
          exact h_w h_P
        · rw [Function.update_of_ne h_k] at h_m
          exact (covers_cons.mp (h_start k a h_m h_P)).resolve_left (Ne.symm h_k)

/-- For a memory that is empty at the start. -/
theorem replay_empty_avoids_iff (h_empty : ∀ k, m k = none) :
    (∀ k a, replay m ws k = some a → ¬ P a) ↔ Superseded P ws := by
  rw [replay_avoids_iff]
  refine and_iff_right fun k a h_m => ?_
  rw [h_empty k] at h_m
  cases h_m

end WriteLog
