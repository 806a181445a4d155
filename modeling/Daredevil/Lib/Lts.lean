/-
  Daredevil.Lib.Lts

  Systems given by a partial step function `f : σ → ε → Option σ`: the event `e`
  is possible in `s` exactly when `f s e` is `some` state.

    * `run f s es`          — the state after the events `es`, if all are possible;
    * `Reach f ok init`     — the states reached from `init` by steps that all
                              meet the guard `ok`;
    * `Reach.run_guarded`   — a run in which each step is checked against the guard;
    * `Reach.invariant`     — what `init` has and every guarded step keeps, every
                              reachable state has.

  With the trivial guard `Reach` is `run` from an initial state (`reach_iff_run`).
-/
import Mathlib.Data.Option.Basic

namespace Lts

variable {σ ε : Type*}

/-- The state after the events `es`; `none` when one of them is not possible. -/
def run (f : σ → ε → Option σ) : σ → List ε → Option σ
  | s, [] => some s
  | s, e :: es => (f s e).bind fun s' => run f s' es

/-- States reached from `init` by steps that meet `ok`. -/
inductive Reach (f : σ → ε → Option σ) (ok : σ → ε → Prop) (init : σ → Prop) : σ → Prop
  | init {s : σ} : init s → Reach f ok init s
  | step {s s' : σ} {e : ε} : Reach f ok init s → ok s e → f s e = some s' → Reach f ok init s'

/-- Every event is allowed. -/
def anyStep : σ → ε → Prop := fun _ _ => True

variable {f : σ → ε → Option σ} {ok : σ → ε → Prop} {init : σ → Prop}

@[simp] theorem run_nil (s : σ) : run f s [] = some s := rfl

@[simp] theorem run_cons (s : σ) (e : ε) (es : List ε) :
    run f s (e :: es) = (f s e).bind fun s' => run f s' es := rfl

theorem run_append (s : σ) (es es' : List ε) :
    run f s (es ++ es') = (run f s es).bind fun s' => run f s' es' := by
  induction es generalizing s with
  | nil => rfl
  | cons e es ih =>
      simp only [List.cons_append, run_cons]
      cases h : f s e with
      | none => rfl
      | some s' => exact ih s'

theorem run_cons_of_step {s s' : σ} {e : ε} (h_step : f s e = some s') (es : List ε) :
    run f s (e :: es) = run f s' es := by
  rw [run_cons, h_step, Option.bind_some]

theorem run_append_of_run {s s' : σ} {es : List ε} (h_run : run f s es = some s')
    (es' : List ε) : run f s (es ++ es') = run f s' es' := by
  rw [run_append, h_run, Option.bind_some]

/-- An invariant of the initial states and of every guarded step holds throughout. -/
theorem Reach.invariant {I : σ → Prop} (h_init : ∀ s, init s → I s)
    (h_step : ∀ s e s', I s → ok s e → f s e = some s' → I s') {s : σ}
    (h : Reach f ok init s) : I s := by
  induction h with
  | init hs => exact h_init _ hs
  | step _ h_ok h_eq ih => exact h_step _ _ _ ih h_ok h_eq

/-- Fewer constraints on the steps, more states. -/
theorem Reach.mono {ok' : σ → ε → Prop} (h_ok : ∀ s e, ok s e → ok' s e) {s : σ}
    (h : Reach f ok init s) : Reach f ok' init s := by
  induction h with
  | init hs => exact .init hs
  | step _ h_e h_eq ih => exact ih.step (h_ok _ _ h_e) h_eq

/-- A run of events that are always allowed. -/
theorem Reach.run {s s' : σ} {es : List ε} (h : Reach f ok init s)
    (h_ok : ∀ e ∈ es, ∀ s, ok s e) (h_run : run f s es = some s') : Reach f ok init s' := by
  induction es generalizing s with
  | nil =>
      cases h_run
      exact h
  | cons e es ih =>
      rw [run_cons, Option.bind_eq_some_iff] at h_run
      obtain ⟨t, h_step, h_rest⟩ := h_run
      have h_t := h.step (h_ok e List.mem_cons_self s) h_step
      exact ih h_t (fun e' h_e' => h_ok e' (List.mem_cons_of_mem e h_e')) h_rest

theorem Reach.run_anyStep {s s' : σ} {es : List ε} (h : Reach f anyStep init s)
    (h_run : Lts.run f s es = some s') : Reach f anyStep init s' :=
  h.run (fun _ _ _ => trivial) h_run

/-- The steps that meet `ok`; the others are not possible. -/
def guarded (f : σ → ε → Option σ) (ok : σ → ε → Prop) [∀ s e, Decidable (ok s e)] (s : σ)
    (e : ε) : Option σ :=
  if ok s e then f s e else none

theorem run_of_guarded [∀ s e, Decidable (ok s e)] {s s' : σ} {es : List ε}
    (h_run : Lts.run (guarded f ok) s es = some s') : Lts.run f s es = some s' := by
  induction es generalizing s with
  | nil => exact h_run
  | cons e es ih =>
      rw [run_cons, Option.bind_eq_some_iff] at h_run ⊢
      obtain ⟨t, h_step, h_rest⟩ := h_run
      exact ⟨t, (Option.ite_none_right_eq_some.mp h_step).2, ih h_rest⟩

theorem Reach.run_guarded [∀ s e, Decidable (ok s e)] {s s' : σ} {es : List ε}
    (h : Reach f ok init s) (h_run : Lts.run (guarded f ok) s es = some s') :
    Reach f ok init s' := by
  induction es generalizing s with
  | nil =>
      cases h_run
      exact h
  | cons e es ih =>
      rw [run_cons, Option.bind_eq_some_iff] at h_run
      obtain ⟨t, h_step, h_rest⟩ := h_run
      obtain ⟨h_ok, h_eq⟩ := Option.ite_none_right_eq_some.mp h_step
      exact ih (h.step h_ok h_eq) h_rest

theorem reach_iff_run {s : σ} :
    Reach f anyStep init s ↔ ∃ s₀ es, init s₀ ∧ run f s₀ es = some s := by
  constructor
  · intro h
    induction h with
    | init hs => exact ⟨_, [], hs, rfl⟩
    | @step t t' e _ _ h_eq ih =>
        obtain ⟨s₀, es, h₀, h_run⟩ := ih
        refine ⟨s₀, es ++ [e], h₀, ?_⟩
        rw [run_append_of_run h_run, run_cons_of_step h_eq, run_nil]
  · rintro ⟨s₀, es, h₀, h_run⟩
    exact (Reach.init h₀).run_anyStep h_run

end Lts
