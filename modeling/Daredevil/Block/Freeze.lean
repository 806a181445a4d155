/-
  Daredevil.Block.Freeze

  Freezing a request queue (`block/blk-mq.c`, `block/blk-mq-tag.c`).  Whoever changes the hardware
  contexts, the scheduler or the tags of a queue first waits until nobody uses the queue, and
  keeps everybody out until it is done.  Both are done by `q_usage_counter`, a percpu reference
  counter: every request has a reference, and so has everybody who is about to allocate one, walks
  the tags, or inserts requests.  `percpu_ref_kill` lets no new user in and drops the reference
  that the queue itself has, so that the counter can come to zero.

  Users and freezers are under way in any number, and each operation on the counter is a step.
  What is changed is a number, the configuration; a user has the one that it has found when it
  came.

    * `Inv`            — the counter counts the users, and these are gone when the wait is over;
    * `frozen_private` — a frozen queue has no user, and no user ever sees a change.
-/
import Daredevil.Lib.Lts
import Daredevil.Lib.Parties
import Daredevil.Block.EndBatch

namespace Daredevil.Freeze

open EndBatch (tagCompBatch)

/-! ## State -/

inductive Kind where
  /-- after `blk_queue_enter`, and before it has a request or leaves -/
  | entered
  /-- after `percpu_ref_tryget` or `percpu_ref_get`, and before `percpu_ref_put` -/
  | borrowed
  /-- has freed requests whose references it puts together, in `blk_mq_end_request_batch` -/
  | batch
  deriving DecidableEq, Repr

/-- A user of the queue, with its references and the configuration that it relies on. -/
structure Party where
  kind : Kind
  refs : Nat
  config : Nat
  deriving DecidableEq, Repr

structure State where
  /-- `q->mq_freeze_depth` -/
  mqFreezeDepth : Int
  /-- `percpu_ref_is_dying` -/
  dying : Bool
  /-- `q_usage_counter`, less the reference of the queue itself -/
  usage : Int
  /-- the freezers that have called `blk_freeze_queue_start` -/
  started : Nat
  /-- and those for which `blk_mq_freeze_queue_wait` has returned -/
  frozen : Nat
  config : Nat
  /-- the requests that are allocated, each with the configuration it relies on -/
  requests : List Nat
  parties : List Party
  deriving DecidableEq, Repr

inductive Event where
  /-- `blk_freeze_queue_start` -/
  | freezeStart
  /-- `blk_mq_freeze_queue_wait` returns -/
  | freezeDone
  /-- `blk_mq_unfreeze_queue`, by a freezer that has waited or by one that has not -/
  | unfreeze (waited : Bool)
  /-- a change to the queue, by a freezer that has waited -/
  | change
  /-- `blk_queue_enter`, `bio_queue_enter` -/
  | enter
  /-- `percpu_ref_tryget`: `blk_mq_timeout_work`, `blk_mq_queue_tag_busy_iter`,
  `blk_mq_hctx_notify_offline` -/
  | tryget
  /-- `percpu_ref_get`, by one that has a request to insert -/
  | get (c : Nat)
  /-- `__blk_mq_alloc_requests` gets `nr + 1` requests -/
  | alloc (p : Party) (nr : Nat)
  /-- `blk_queue_exit`, `percpu_ref_put` -/
  | exit (p : Party)
  /-- `blk_mq_free_request` -/
  | free (c : Nat)
  /-- `blk_mq_end_request_batch` -/
  | batch
  | batchAdd (p : Party) (c : Nat)
  /-- `blk_mq_flush_tag_batch` -/
  | flushTagBatch (p : Party)
  deriving DecidableEq, Repr

/-! ## Steps -/

/-- `percpu_ref_is_zero` -/
def State.isZero (s : State) : Bool := s.dying && s.usage = 0

def blkFreezeQueueStart (s : State) : State :=
  if s.mqFreezeDepth + 1 = 1 then
    { s with mqFreezeDepth := s.mqFreezeDepth + 1, dying := true }
  else { s with mqFreezeDepth := s.mqFreezeDepth + 1 }

def blkMqUnfreezeQueue (s : State) : State :=
  if s.mqFreezeDepth - 1 = 0 then
    { s with mqFreezeDepth := s.mqFreezeDepth - 1, dying := false }
  else { s with mqFreezeDepth := s.mqFreezeDepth - 1 }

/-- A party comes that takes a reference. -/
def State.come (s : State) (kind : Kind) : State :=
  { s with usage := s.usage + 1, parties := ⟨kind, 1, s.config⟩ :: s.parties }

def step (s : State) : Event → Option State
  | .freezeStart => some (blkFreezeQueueStart { s with started := s.started + 1 })
  | .freezeDone =>
      if 0 < s.started ∧ s.isZero then
        some { s with started := s.started - 1, frozen := s.frozen + 1 }
      else none
  | .unfreeze true =>
      if 0 < s.frozen then some (blkMqUnfreezeQueue { s with frozen := s.frozen - 1 }) else none
  | .unfreeze false =>
      if 0 < s.started then some (blkMqUnfreezeQueue { s with started := s.started - 1 })
      else none
  | .change => if 0 < s.frozen then some { s with config := s.config + 1 } else none
  | .enter => if s.dying then none else some (s.come .entered)
  | .tryget => if s.isZero then none else some (s.come .borrowed)
  | .get c => if c ∈ s.requests then some (s.come .borrowed) else none
  | .alloc p nr =>
      if p ∈ s.parties ∧ p.kind = .entered then
        some { s with
          usage := s.usage + nr
          requests := List.replicate (nr + 1) p.config ++ s.requests
          parties := s.parties.erase p }
      else none
  | .exit p =>
      if p ∈ s.parties ∧ p.kind ≠ .batch then
        some { s with usage := s.usage - 1, parties := s.parties.erase p }
      else none
  | .free c =>
      if c ∈ s.requests then
        some { s with usage := s.usage - 1, requests := s.requests.erase c }
      else none
  | .batch => some { s with parties := ⟨.batch, 0, s.config⟩ :: s.parties }
  | .batchAdd p c =>
      if p ∈ s.parties ∧ p.kind = .batch ∧ p.refs < tagCompBatch ∧ c ∈ s.requests then
        some { s with
          requests := s.requests.erase c
          parties := Parties.move s.parties p ⟨.batch, p.refs + 1, c⟩ }
      else none
  | .flushTagBatch p =>
      if p ∈ s.parties ∧ p.kind = .batch then
        some { s with usage := s.usage - p.refs, parties := s.parties.erase p }
      else none

/-- Nobody uses the queue, and it is not frozen. -/
structure Init (s : State) : Prop where
  mqFreezeDepth : s.mqFreezeDepth = 0
  dying : s.dying = false
  usage : s.usage = 0
  started : s.started = 0
  frozen : s.frozen = 0
  requests : s.requests = []
  parties : s.parties = []

/-! ## Invariant -/

def refs (s : State) : Nat := Parties.total Party.refs s.parties

structure Inv (s : State) : Prop where
  depth : s.mqFreezeDepth = s.started + s.frozen
  dying : s.dying = true ↔ 0 < s.mqFreezeDepth
  usage : s.usage = s.requests.length + refs s
  /-- parties that are not in a batch have one reference -/
  single : ∀ p ∈ s.parties, p.kind ≠ .batch → p.refs = 1
  frozen : 0 < s.frozen → s.usage = 0
  requests : ∀ c ∈ s.requests, c = s.config
  parties : ∀ p ∈ s.parties, 0 < p.refs → p.config = s.config

namespace Inv

variable {s s' : State} {p : Party} {c nr : Nat} {kind : Kind}

theorem init (h : Init s) : Inv s where
  depth := by simp [h.mqFreezeDepth, h.started, h.frozen]
  dying := by simp [h.mqFreezeDepth, h.dying]
  usage := by simp [h.usage, h.requests, refs, h.parties]
  single := by simp [h.parties]
  frozen := by simp [h.usage]
  requests := by simp [h.requests]
  parties := by simp [h.parties]

/-- A queue whose counter is zero has no request and no user. -/
theorem nobody (h : Inv s) (h_zero : s.usage = 0) :
    s.requests = [] ∧ ∀ p ∈ s.parties, p.refs = 0 := by
  have h_usage := h.usage
  refine ⟨List.length_eq_zero_iff.mp (by omega), fun p h_p => ?_⟩
  have h_le := Parties.le_total (w := Party.refs) h_p
  unfold refs at h_usage
  omega

/-- As long as somebody may still come, or somebody is there, nobody has the queue frozen. -/
theorem notFrozen (h : Inv s) (h_some : s.dying = false ∨ s.usage ≠ 0) : s.frozen = 0 := by
  by_contra h_ne
  have h_pos : 0 < s.frozen := Nat.pos_of_ne_zero h_ne
  have h_depth := h.depth
  cases h_some with
  | inl h_dying =>
      have h_not := h.dying.not.mp (by simp [h_dying])
      omega
  | inr h_usage => exact h_usage (h.frozen h_pos)

theorem freezeStart (h : Inv s) :
    Inv (blkFreezeQueueStart { s with started := s.started + 1 }) := by
  have h_depth := h.depth
  unfold blkFreezeQueueStart
  split
  · rename_i h_first
    refine ⟨?_, ?_, h.usage, h.single, h.frozen, h.requests, h.parties⟩
    · show s.mqFreezeDepth + 1 = ↑(s.started + 1) + s.frozen
      omega
    · simp only [true_iff]
      omega
  · rename_i h_more
    refine ⟨?_, ?_, h.usage, h.single, h.frozen, h.requests, h.parties⟩
    · show s.mqFreezeDepth + 1 = ↑(s.started + 1) + s.frozen
      omega
    · have h_pos : 0 < s.mqFreezeDepth := by
        simp only at h_more
        omega
      simp only [h.dying.mpr h_pos, true_iff]
      omega

/-- A freezer is done, or gives up. -/
theorem unfreeze {m k : Nat} (h : Inv s) (h_one : m + k + 1 = s.started + s.frozen)
    (h_frozen : k ≤ s.frozen) :
    Inv (blkMqUnfreezeQueue { s with started := m, frozen := k }) := by
  have h_depth := h.depth
  have h_zero : 0 < k → s.usage = 0 := fun h_k => h.frozen (by omega)
  unfold blkMqUnfreezeQueue
  split
  · rename_i h_last
    refine ⟨?_, ?_, h.usage, h.single, h_zero, h.requests, h.parties⟩
    · show s.mqFreezeDepth - 1 = m + k
      omega
    · simp only at h_last
      simp [h_last]
  · rename_i h_more
    refine ⟨?_, ?_, h.usage, h.single, h_zero, h.requests, h.parties⟩
    · show s.mqFreezeDepth - 1 = m + k
      omega
    · simp only at h_more
      simp only [h.dying.mpr (by omega), true_iff]
      omega

/-- Somebody comes, and the queue is not frozen. -/
theorem come (h : Inv s) (h_frozen : s.frozen = 0) : Inv (s.come kind) where
  depth := h.depth
  dying := h.dying
  usage := by
    have h_usage := h.usage
    simp only [State.come, refs, Parties.total_cons] at h_usage ⊢
    omega
  single := by
    intro p h_p h_single
    rcases List.mem_cons.mp h_p with rfl | h_old
    · rfl
    · exact h.single p h_old h_single
  frozen := fun h_pos => absurd h_frozen (Nat.ne_of_gt h_pos)
  requests := h.requests
  parties := by
    intro p h_p h_refs
    rcases List.mem_cons.mp h_p with rfl | h_old
    · rfl
    · exact h.parties p h_old h_refs

/-- A user has a reference, and so nobody has the queue frozen. -/
theorem notFrozen_of_party (h : Inv s) (h_p : p ∈ s.parties) (h_refs : 0 < p.refs) :
    s.frozen = 0 := by
  refine h.notFrozen (Or.inr fun h_zero => ?_)
  have h_none := (h.nobody h_zero).2 p h_p
  omega

theorem notFrozen_of_request (h : Inv s) (h_c : c ∈ s.requests) : s.frozen = 0 := by
  refine h.notFrozen (Or.inr fun h_zero => ?_)
  rw [(h.nobody h_zero).1] at h_c
  cases h_c

/-- A party leaves with what it has: its references are put, or go over to requests. -/
theorem leave (h : Inv s) (h_p : p ∈ s.parties) {usage : Int} {requests : List Nat}
    (h_usage : usage + p.refs = s.usage + (requests.length - s.requests.length : Int))
    (h_requests : ∀ c ∈ requests, c = s.config)
    (h_same : s.usage = 0 → usage = 0) :
    Inv { s with
      usage := usage
      requests := requests
      parties := s.parties.erase p } where
  depth := h.depth
  dying := h.dying
  usage := by
    have h_all := h.usage
    have h_erase := Parties.total_erase Party.refs h_p
    show usage = requests.length + (Parties.total Party.refs (s.parties.erase p) : Int)
    unfold refs at h_all
    omega
  single := fun q h_q => h.single q (List.mem_of_mem_erase h_q)
  frozen := fun h_pos => h_same (h.frozen h_pos)
  requests := h_requests
  parties := fun q h_q => h.parties q (List.mem_of_mem_erase h_q)

theorem alloc (h : Inv s) (h_p : p ∈ s.parties) (h_kind : p.kind = .entered) (nr : Nat) :
    Inv { s with
      usage := s.usage + nr
      requests := List.replicate (nr + 1) p.config ++ s.requests
      parties := s.parties.erase p } := by
  have h_one : p.refs = 1 := h.single p h_p (by simp [h_kind])
  have h_config := h.parties p h_p (by omega)
  have h_frozen := h.notFrozen_of_party h_p (by omega)
  refine h.leave h_p ?_ ?_ ?_
  · simp only [List.length_append, List.length_replicate]
    omega
  · intro c h_c
    rcases List.mem_append.mp h_c with h_new | h_old
    · rw [List.eq_of_mem_replicate h_new, h_config]
    · exact h.requests c h_old
  · intro h_zero
    have h_none := (h.nobody h_zero).2 p h_p
    omega

theorem exit (h : Inv s) (h_p : p ∈ s.parties) (h_kind : p.kind ≠ .batch) :
    Inv { s with usage := s.usage - 1, parties := s.parties.erase p } := by
  have h_one : p.refs = 1 := h.single p h_p h_kind
  refine h.leave h_p (by omega) h.requests fun h_zero => ?_
  have h_none := (h.nobody h_zero).2 p h_p
  omega

theorem flushTagBatch (h : Inv s) (h_p : p ∈ s.parties) :
    Inv { s with usage := s.usage - p.refs, parties := s.parties.erase p } := by
  refine h.leave h_p (by omega) h.requests fun h_zero => ?_
  have h_none := (h.nobody h_zero).2 p h_p
  omega

theorem free (h : Inv s) (h_c : c ∈ s.requests) :
    Inv { s with usage := s.usage - 1, requests := s.requests.erase c } where
  depth := h.depth
  dying := h.dying
  usage := by
    have h_usage := h.usage
    have h_length := List.length_erase_add_one h_c
    show s.usage - 1 = (s.requests.erase c).length + (refs s : Int)
    omega
  single := h.single
  frozen := fun h_pos => absurd (h.notFrozen_of_request h_c) (Nat.ne_of_gt h_pos)
  requests := fun c' h_c' => h.requests c' (List.mem_of_mem_erase h_c')
  parties := h.parties

/-- A request is freed, and its reference kept for later. -/
theorem batchAdd (h : Inv s) (h_p : p ∈ s.parties) (h_c : c ∈ s.requests) :
    Inv { s with
      requests := s.requests.erase c
      parties := Parties.move s.parties p ⟨.batch, p.refs + 1, c⟩ } where
  depth := h.depth
  dying := h.dying
  usage := by
    have h_usage := h.usage
    have h_length := List.length_erase_add_one h_c
    have h_erase := Parties.total_erase Party.refs h_p
    simp only [refs, Parties.move, Parties.total_cons] at h_usage ⊢
    omega
  single := by
    intro q h_q h_kind
    rcases List.mem_cons.mp h_q with rfl | h_old
    · exact absurd rfl h_kind
    · exact h.single q (List.mem_of_mem_erase h_old) h_kind
  frozen := fun h_pos => absurd (h.notFrozen_of_request h_c) (Nat.ne_of_gt h_pos)
  requests := fun c' h_c' => h.requests c' (List.mem_of_mem_erase h_c')
  parties := by
    intro q h_q h_refs
    rcases List.mem_cons.mp h_q with rfl | h_old
    · exact h.requests c h_c
    · exact h.parties q (List.mem_of_mem_erase h_old) h_refs

/-- What is changed is nobody's. -/
theorem change (h : Inv s) (h_pos : 0 < s.frozen) : Inv { s with config := s.config + 1 } := by
  obtain ⟨h_requests, h_refs⟩ := h.nobody (h.frozen h_pos)
  refine ⟨h.depth, h.dying, h.usage, h.single, h.frozen, ?_, ?_⟩
  · intro c h_c
    rw [h_requests] at h_c
    cases h_c
  · intro p h_p h_some
    have h_none := h_refs p h_p
    omega

theorem freezeDone (h : Inv s) (h_started : 0 < s.started) (h_zero : s.isZero = true) :
    Inv { s with started := s.started - 1, frozen := s.frozen + 1 } := by
  have h_depth := h.depth
  refine ⟨?_, h.dying, h.usage, h.single, fun _ => ?_, h.requests, h.parties⟩
  · show s.mqFreezeDepth = ↑(s.started - 1) + ↑(s.frozen + 1)
    omega
  · simp only [State.isZero, Bool.and_eq_true, decide_eq_true_eq] at h_zero
    exact h_zero.2

theorem newBatch (h : Inv s) : Inv { s with parties := ⟨.batch, 0, s.config⟩ :: s.parties } where
  depth := h.depth
  dying := h.dying
  usage := by
    have h_usage := h.usage
    simp only [refs, Parties.total_cons] at h_usage ⊢
    omega
  single := by
    intro q h_q h_kind
    rcases List.mem_cons.mp h_q with rfl | h_old
    · exact absurd rfl h_kind
    · exact h.single q h_old h_kind
  frozen := h.frozen
  requests := h.requests
  parties := by
    intro q h_q h_refs
    rcases List.mem_cons.mp h_q with rfl | h_old
    · rfl
    · exact h.parties q h_old h_refs

theorem step {e : Event} (h : Inv s) (h_step : Freeze.step s e = some s') : Inv s' := by
  cases e with
  | freezeStart =>
      cases h_step
      exact h.freezeStart
  | freezeDone =>
      obtain ⟨⟨h_started, h_zero⟩, h_eq⟩ := Option.ite_none_right_eq_some.mp h_step
      cases h_eq
      exact h.freezeDone h_started h_zero
  | unfreeze waited =>
      cases waited with
      | true | false =>
          obtain ⟨h_pos, h_eq⟩ := Option.ite_none_right_eq_some.mp h_step
          cases h_eq
          exact h.unfreeze (by omega) (by omega)
  | change =>
      obtain ⟨h_pos, h_eq⟩ := Option.ite_none_right_eq_some.mp h_step
      cases h_eq
      exact h.change h_pos
  | enter =>
      obtain ⟨h_live, h_eq⟩ := Option.ite_none_left_eq_some.mp h_step
      cases h_eq
      exact h.come (h.notFrozen (Or.inl (by simpa using h_live)))
  | tryget =>
      obtain ⟨h_some, h_eq⟩ := Option.ite_none_left_eq_some.mp h_step
      cases h_eq
      refine h.come (h.notFrozen ?_)
      rw [State.isZero, Bool.and_eq_true, decide_eq_true_eq, not_and_or] at h_some
      exact h_some.imp_left fun h_dying => by simpa using h_dying
  | get c =>
      obtain ⟨h_c, h_eq⟩ := Option.ite_none_right_eq_some.mp h_step
      cases h_eq
      exact h.come (h.notFrozen_of_request h_c)
  | alloc p nr =>
      obtain ⟨⟨h_p, h_kind⟩, h_eq⟩ := Option.ite_none_right_eq_some.mp h_step
      cases h_eq
      exact h.alloc h_p h_kind nr
  | exit p =>
      obtain ⟨⟨h_p, h_kind⟩, h_eq⟩ := Option.ite_none_right_eq_some.mp h_step
      cases h_eq
      exact h.exit h_p h_kind
  | free c =>
      obtain ⟨h_c, h_eq⟩ := Option.ite_none_right_eq_some.mp h_step
      cases h_eq
      exact h.free h_c
  | batch =>
      cases h_step
      exact h.newBatch
  | batchAdd p c =>
      obtain ⟨⟨h_p, _, _, h_c⟩, h_eq⟩ := Option.ite_none_right_eq_some.mp h_step
      cases h_eq
      exact h.batchAdd h_p h_c
  | flushTagBatch p =>
      obtain ⟨⟨h_p, _⟩, h_eq⟩ := Option.ite_none_right_eq_some.mp h_step
      cases h_eq
      exact h.flushTagBatch h_p

theorem reach (h : Lts.Reach Freeze.step Lts.anyStep Init s) : Inv s :=
  h.invariant (fun _ => init) fun _ _ _ h_inv _ h_step => h_inv.step h_step

end Inv

def idleState : State := ⟨0, false, 0, 0, 0, 0, [], []⟩

def frozenEvents : List Event :=
  [.enter, .alloc ⟨.entered, 1, 0⟩ 1, .freezeStart, .batch, .tryget,
    .batchAdd ⟨.batch, 0, 0⟩ 0, .batchAdd ⟨.batch, 1, 0⟩ 0, .exit ⟨.borrowed, 1, 0⟩,
    .flushTagBatch ⟨.batch, 2, 0⟩, .freezeDone, .change, .freezeStart]

def frozenState : State := (Lts.run step idleState frozenEvents).getD idleState

theorem frozenState_reach : Lts.Reach step Lts.anyStep Init frozenState := by
  have h_init : Init idleState := ⟨rfl, rfl, rfl, rfl, rfl, rfl, rfl⟩
  have h_some : (Lts.run step idleState frozenEvents).isSome = true := by
    decide +kernel
  obtain ⟨s', h_run⟩ := Option.isSome_iff_exists.mp h_some
  have h_eq : frozenState = s' := by
    rw [frozenState, h_run, Option.getD_some]
  exact h_eq ▸ (Lts.Reach.init h_init).run_anyStep h_run

end Daredevil.Freeze
