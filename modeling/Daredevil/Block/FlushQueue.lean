/-
  Daredevil.Block.FlushQueue

  The flush queue of a vNQ (`block/blk-flush.c`).  A PREFLUSH/FUA request goes through
  the steps of its policy, PREFLUSH, DATA and POSTFLUSH.  The requests that wait for a
  flush are on one of two lists, and while a flush is in flight for one of them, requests
  are put on the other.

  Here are the functions that are called with the lock of the queue held,
  `blk_kick_flush` and `blk_flush_complete_seq`, and what they keep (`Inv`).  `held` are
  requests that are on none of the lists for the time being; `completeSeq_inv` gives one
  of them its place.

  What the device and the driver have done is kept apart from the code's own account of
  it: `log` says which steps were performed for a request.
-/
import Daredevil.Lib.Returns
import Mathlib.Data.List.Count
import Mathlib.Data.List.Nodup
import Mathlib.Logic.Function.Basic

namespace Daredevil.Flush

/-! ## Sequences -/

/-- `REQ_FSEQ_*` -/
inductive Fseq where
  | preflush
  | data
  | postflush
  | done
  deriving DecidableEq, Repr

/-- A mask of `REQ_FSEQ_*`. -/
structure FseqMask where
  preflush : Bool
  data : Bool
  postflush : Bool
  done : Bool
  deriving DecidableEq, Repr

namespace FseqMask

def empty : FseqMask := ⟨false, false, false, false⟩

def bit : Fseq → FseqMask
  | .preflush => { empty with preflush := true }
  | .data => { empty with data := true }
  | .postflush => { empty with postflush := true }
  | .done => { empty with done := true }

def has (m : FseqMask) : Fseq → Bool
  | .preflush => m.preflush
  | .data => m.data
  | .postflush => m.postflush
  | .done => m.done

/-- `m | n` -/
def or (m n : FseqMask) : FseqMask :=
  ⟨m.preflush || n.preflush, m.data || n.data, m.postflush || n.postflush, m.done || n.done⟩

/-- `(m & n) != 0` -/
def meets (m n : FseqMask) : Bool :=
  m.preflush && n.preflush || m.data && n.data || m.postflush && n.postflush || m.done && n.done

/-- `REQ_FSEQ_ACTIONS & ~m` -/
def actionsBut (m : FseqMask) : FseqMask := ⟨!m.preflush, !m.data, !m.postflush, false⟩

end FseqMask

/-- `blk_flush_cur_seq`: the lowest bit that is clear; `none` is a bit above `REQ_FSEQ_DONE`. -/
def blkFlushCurSeq (seq : FseqMask) : Option Fseq :=
  [Fseq.preflush, .data, .postflush, .done].find? fun st => !seq.has st

/-! ## Requests and flush queues -/

structure Request where
  id : Nat
  mqHctx : Option Nat
  /-- `rq->mq_ctx->cpu` -/
  mqCtxCpu : Nat
  /-- `blk_rq_sectors` -/
  sectors : Nat
  /-- `REQ_PREFLUSH` -/
  reqPreflush : Bool
  /-- `REQ_FUA` -/
  reqFua : Bool
  deriving DecidableEq, Repr

/-- `blk_flush_policy`; `wc`, `fua`: `QUEUE_FLAG_WC`, `QUEUE_FLAG_FUA`. -/
def blkFlushPolicy (wc fua : Bool) (rq : Request) : FseqMask where
  preflush := wc && rq.reqPreflush
  data := rq.sectors != 0
  postflush := wc && (!fua && rq.reqFua)
  done := false

/-- The flush queue of a vNQ: its hctx and its CPU. -/
abbrev Key := Nat × Nat

/-- `blk_blex_get_flush_queue`, for `rq->mq_hctx` and `rq->mq_ctx->cpu`. -/
def blkBlexGetFlushQueue (mqHctx : Option Nat) (mqCtxCpu : Nat) : Key := (mqHctx.getD 0, mqCtxCpu)

def Request.key (rq : Request) : Key := blkBlexGetFlushQueue rq.mqHctx rq.mqCtxCpu

/-- `fq->flush_rq` -/
structure FlushRq where
  ref : Nat
  mqHctx : Option Nat
  mqCtxCpu : Nat

/-- `struct blk_flush_queue` -/
structure FlushQueue where
  flushQueue : Bool → List Request
  flushPendingIdx : Bool
  flushRunningIdx : Bool
  flushDataInFlight : List Request
  /-- 0 is `BLK_STS_OK` -/
  rqStatus : Nat
  flushRq : FlushRq
  /-- flush requests that were issued and have not ended -/
  inFlight : Nat
  /-- the requests that were waiting when the last flush was issued -/
  flushing : List Request
  /-- what the device answered to the flush in flight -/
  device : Option Nat
  /-- references to `flush_rq` that tag iterators hold -/
  iterators : Nat

structure State where
  fq : Key → FlushQueue
  /-- `rq->flush.seq` -/
  seq : Request → FseqMask
  /-- the policy that a request was inserted with -/
  policy : Request → FseqMask
  inserted : List Request
  /-- requests that are with the driver for their DATA step -/
  data : List Request
  /-- requests that are with the driver without a sequence -/
  direct : List Request
  /-- `blk_mq_end_request` -/
  ended : List (Request × Nat)
  /-- the steps that the device has performed for a request -/
  log : Request → List Fseq
  /-- the calls of `blk_flush_complete_seq`: request and flush queue -/
  acts : List (Request × Key)

namespace FlushQueue

variable (fq : FlushQueue) (rq : Request)

/-- The list that requests are put on. -/
def pending : List Request := fq.flushQueue fq.flushPendingIdx

/-- `list_del_init(&rq->flush.list)` -/
def listDel : FlushQueue :=
  { fq with
    flushQueue := fun i => (fq.flushQueue i).erase rq
    flushDataInFlight := fq.flushDataInFlight.erase rq }

/-- `list_move_tail(&rq->flush.list, pending)` -/
def moveToPending : FlushQueue :=
  let fq := fq.listDel rq
  { fq with
    flushQueue := Function.update fq.flushQueue fq.flushPendingIdx (fq.pending ++ [rq]) }

/-- `list_move_tail(&rq->flush.list, &fq->flush_data_in_flight)` -/
def moveToData : FlushQueue :=
  let fq := fq.listDel rq
  { fq with flushDataInFlight := fq.flushDataInFlight ++ [rq] }

end FlushQueue

def State.setFq (s : State) (k : Key) (fq : FlushQueue) : State :=
  { s with fq := Function.update s.fq k fq }

/-- `blk_kick_flush`; `late`: `FLUSH_PENDING_TIMEOUT` has passed since `flush_pending_since`. -/
def blkKickFlush (s : State) (k : Key) (late : Bool) : State :=
  let fq := s.fq k
  match fq.pending with
  | [] => s
  | firstRq :: _ =>
      if fq.flushPendingIdx ≠ fq.flushRunningIdx then s
      else if fq.flushDataInFlight ≠ [] ∧ late = false then s
      else
        s.setFq k { fq with
          flushPendingIdx := !fq.flushPendingIdx
          flushRq := ⟨1, firstRq.mqHctx, firstRq.mqCtxCpu⟩
          inFlight := fq.inFlight + 1
          flushing := fq.pending
          device := none }

/-- The switch of `blk_flush_complete_seq`, for the step that is next. -/
def blkFlushNext (s : State) (k : Key) (rq : Request) (error : Nat) : Fseq → State
  | .preflush | .postflush => s.setFq k ((s.fq k).moveToPending rq)
  | .data => { s.setFq k ((s.fq k).moveToData rq) with data := s.data ++ [rq] }
  | .done => { s.setFq k ((s.fq k).listDel rq) with ended := s.ended ++ [(rq, error)] }

/-- `blk_flush_complete_seq`; `none` is a `BUG_ON`. -/
def blkFlushCompleteSeq (s : State) (k : Key) (rq : Request) (seq : FseqMask) (error : Nat)
    (late : Bool) : Option State :=
  if (s.seq rq).meets seq then none
  else
    let seq := (s.seq rq).or seq
    let s := { s with seq := Function.update s.seq rq seq, acts := s.acts ++ [(rq, k)] }
    let next := if error = 0 then blkFlushCurSeq seq else some .done
    next.map fun next => blkKickFlush (blkFlushNext s k rq error next) k late

/-! ## Progress of a request -/

/-- The steps that a policy demands, in order. -/
def steps (policy : FseqMask) : List Fseq :=
  [Fseq.preflush, .data, .postflush].filter (policy.has ·)

/-- The steps of the policy that are marked as completed. -/
def completed (policy seq : FseqMask) : List Fseq :=
  [Fseq.preflush, .data, .postflush].filter fun st => policy.has st && seq.has st

/-- What the policy leaves out is marked from the start, and the rest in order. -/
def Progress (policy seq : FseqMask) : Bool :=
  (policy.preflush || seq.preflush) && (policy.data || seq.data) &&
    (policy.postflush || seq.postflush) && !seq.done &&
    (!(policy.data && seq.data) || seq.preflush) &&
    (!(policy.postflush && seq.postflush) || seq.preflush && seq.data)

/-- The next step of a request is a flush. -/
def Waits (seq : FseqMask) : Prop :=
  blkFlushCurSeq seq = some .preflush ∨ blkFlushCurSeq seq = some .postflush

theorem progress_start (policy : FseqMask) :
    Progress policy policy.actionsBut = true ∧ completed policy policy.actionsBut = [] := by
  rcases policy with ⟨_ | _, _ | _, _ | _, _ | _⟩ <;> decide

theorem progress_step {policy seq : FseqMask} {st : Fseq} (h : Progress policy seq = true)
    (h_cur : blkFlushCurSeq seq = some st) (h_st : st ≠ .done) :
    Progress policy (seq.or (.bit st)) = true ∧
      completed policy (seq.or (.bit st)) = completed policy seq ++ [st] := by
  revert h h_cur h_st
  rcases policy with ⟨_ | _, _ | _, _ | _, _ | _⟩ <;>
    rcases seq with ⟨_ | _, _ | _, _ | _, _ | _⟩ <;> cases st <;> decide

theorem progress_done {policy seq : FseqMask} (h : Progress policy seq = true)
    (h_cur : blkFlushCurSeq seq = some .done) : completed policy seq = steps policy := by
  revert h h_cur
  rcases policy with ⟨_ | _, _ | _, _ | _, _ | _⟩ <;>
    rcases seq with ⟨_ | _, _ | _, _ | _, _ | _⟩ <;> decide

/-- The sequence of a request does not run out of bits. -/
theorem progress_cur {policy seq : FseqMask} (h : Progress policy seq = true) :
    (blkFlushCurSeq seq).isSome = true := by
  revert h
  rcases policy with ⟨_ | _, _ | _, _ | _, _ | _⟩ <;>
    rcases seq with ⟨_ | _, _ | _, _ | _, _ | _⟩ <;> decide

/-- The step that is next is not marked yet. -/
theorem meets_cur {seq : FseqMask} {st : Fseq} (h : blkFlushCurSeq seq = some st) :
    seq.meets (.bit st) = false := by
  revert h
  rcases seq with ⟨_ | _, _ | _, _ | _, _ | _⟩ <;> cases st <;> decide

theorem empty_meets (m : FseqMask) : FseqMask.empty.meets m = false := rfl

theorem empty_or (m : FseqMask) : FseqMask.empty.or m = m := rfl

/-! ## What the flush queues keep -/

namespace FlushQueue

variable (fq : FlushQueue) (rq : Request)

/-- The requests that are on some list. -/
def all : List Request := fq.flushQueue false ++ fq.flushQueue true ++ fq.flushDataInFlight

/-- The list that the flush in flight was issued for. -/
def running : List Request := fq.flushQueue fq.flushRunningIdx

/-- No flush is in flight. -/
structure Idle : Prop where
  idx : fq.flushPendingIdx = fq.flushRunningIdx
  other : fq.flushQueue (!fq.flushPendingIdx) = []
  ref : fq.flushRq.ref = 0
  iterators : fq.iterators = 0
  inFlight : fq.inFlight = 0
  rqStatus : fq.rqStatus = 0
  device : fq.device = none

/-- One flush is in flight; `flush_rq` leads back to this queue. -/
structure Flying (k : Key) : Prop where
  idx : fq.flushPendingIdx = !fq.flushRunningIdx
  ref : fq.flushRq.ref = fq.iterators + if fq.device = none then 1 else 0
  ref_ne : fq.flushRq.ref ≠ 0
  key : blkBlexGetFlushQueue fq.flushRq.mqHctx fq.flushRq.mqCtxCpu = k
  inFlight : fq.inFlight = 1
  flushing : fq.flushing = fq.running
  rqStatus : fq.rqStatus = fq.device.getD 0

/-- The device has performed the flush that the request waits for. -/
def Answered : Prop := fq.device = some 0 ∧ rq ∈ fq.running

instance : Decidable (fq.Answered rq) := inferInstanceAs (Decidable (_ ∧ _))

end FlushQueue

/-- A flush queue by itself. -/
structure FqInv (seq policy : Request → FseqMask) (log : Request → List Fseq) (k : Key)
    (fq : FlushQueue) : Prop where
  key : ∀ rq ∈ fq.all, rq.key = k
  waits : ∀ i, ∀ rq ∈ fq.flushQueue i, Waits (seq rq)
  data : ∀ rq ∈ fq.flushDataInFlight, blkFlushCurSeq (seq rq) = some .data
  phase : fq.Idle ∨ fq.Flying k
  progress : ∀ rq ∈ fq.all, Progress (policy rq) (seq rq) = true
  log : ∀ rq ∈ fq.all, log rq = completed (policy rq) (seq rq) ++
    if fq.Answered rq then (blkFlushCurSeq (seq rq)).toList else []

/-- All flush queues, with `held` requests on no list. -/
structure Inv (s : State) (held : List Request) : Prop where
  fq : ∀ k, FqInv s.seq s.policy s.log k (s.fq k)
  /-- an inserted request is in one place -/
  places : ∀ rq, (s.fq rq.key).all.count rq + s.direct.count rq + held.count rq +
    (s.ended.map Prod.fst).count rq = if rq ∈ s.inserted then 1 else 0
  data : ∀ rq, s.data.count rq = (s.fq rq.key).flushDataInFlight.count rq
  direct : ∀ rq ∈ s.direct, steps (s.policy rq) = [.data] ∧ s.log rq = []
  fresh : ∀ rq, rq ∉ s.inserted → s.log rq = []
  ended : ∀ rq, (rq, 0) ∈ s.ended → s.log rq = steps (s.policy rq)
  acts : ∀ a ∈ s.acts, a.2 = a.1.key

section Lists

variable {fq : FlushQueue} {rq x : Request}

namespace FlushQueue

theorem mem_all : x ∈ fq.all ↔ (∃ i, x ∈ fq.flushQueue i) ∨ x ∈ fq.flushDataInFlight := by
  rw [all, List.mem_append, List.mem_append, Bool.exists_bool]

theorem mem_all_of_queue {i : Bool} (h : x ∈ fq.flushQueue i) : x ∈ fq.all :=
  mem_all.mpr (.inl ⟨i, h⟩)

theorem mem_all_of_data (h : x ∈ fq.flushDataInFlight) : x ∈ fq.all := mem_all.mpr (.inr h)

theorem listDel_of_notMem (h : rq ∉ fq.all) : fq.listDel rq = fq := by
  rw [mem_all, not_or, not_exists] at h
  have h_queue : (fun i => (fq.flushQueue i).erase rq) = fq.flushQueue :=
    funext fun i => List.erase_of_not_mem (h.1 i)
  rw [listDel, h_queue, List.erase_of_not_mem h.2]

/-- A request that is on no list is put on a list. -/
theorem moveToPending_all (h : rq ∉ fq.all) : (fq.moveToPending rq).all.Perm (rq :: fq.all) := by
  rw [moveToPending, listDel_of_notMem h, all, all, pending]
  cases fq.flushPendingIdx with
  | false => simp
  | true =>
      have h_perm := @List.perm_middle _ rq (fq.flushQueue false ++ fq.flushQueue true)
        fq.flushDataInFlight
      simpa using h_perm

theorem moveToData_all (h : rq ∉ fq.all) : (fq.moveToData rq).all.Perm (rq :: fq.all) := by
  rw [moveToData, listDel_of_notMem h, all, all, ← List.append_assoc]
  exact List.perm_append_singleton rq _

theorem moveToPending_queue (h : rq ∉ fq.all) (i : Bool) :
    (fq.moveToPending rq).flushQueue i =
      if i = fq.flushPendingIdx then fq.flushQueue i ++ [rq] else fq.flushQueue i := by
  rw [moveToPending, listDel_of_notMem h]
  dsimp only
  by_cases h_eq : i = fq.flushPendingIdx
  · subst h_eq
    rw [Function.update_self, if_pos rfl]
    rfl
  · rw [Function.update_of_ne h_eq, if_neg h_eq]

/-- Taken off, a request is on no list. -/
theorem notMem_listDel (h : fq.all.Nodup) : rq ∉ (fq.listDel rq).all := by
  rw [all, List.nodup_append, List.nodup_append] at h
  obtain ⟨⟨h_false, h_true, -⟩, h_data, -⟩ := h
  rw [mem_all, not_or, not_exists]
  refine ⟨fun i => ?_, h_data.not_mem_erase⟩
  cases i with
  | false => exact h_false.not_mem_erase
  | true => exact h_true.not_mem_erase

theorem Idle.not_answered (h : fq.Idle) : ¬ fq.Answered rq := by
  rintro ⟨h_device, -⟩
  rw [h.device] at h_device
  cases h_device

theorem not_answered_of_notMem (h : rq ∉ fq.all) : ¬ fq.Answered rq :=
  fun h_answered => h (mem_all_of_queue h_answered.2)

/-- A request that starts to wait does so for a later flush. -/
theorem moveToPending_answered {k : Key} (h : rq ∉ fq.all) (h_phase : fq.Idle ∨ fq.Flying k) :
    (fq.moveToPending rq).Answered x ↔ fq.Answered x := by
  rcases h_phase with h_idle | h_flying
  · refine iff_of_false (fun h_answered => ?_) h_idle.not_answered
    have h_device : fq.device = some 0 := h_answered.1
    rw [h_idle.device] at h_device
    cases h_device
  · have h_running : (fq.moveToPending rq).running = fq.running := by
      show (fq.moveToPending rq).flushQueue fq.flushRunningIdx = fq.running
      rw [moveToPending_queue h, if_neg (by simp [h_flying.idx])]
      rfl
    rw [Answered, h_running]
    rfl

theorem Idle.moveToPending (h : fq.Idle) (h_rq : rq ∉ fq.all) : (fq.moveToPending rq).Idle where
  idx := h.idx
  other := by
    show (fq.moveToPending rq).flushQueue (!fq.flushPendingIdx) = []
    rw [moveToPending_queue h_rq, if_neg (by simp), h.other]
  ref := h.ref
  iterators := h.iterators
  inFlight := h.inFlight
  rqStatus := h.rqStatus
  device := h.device

theorem Flying.moveToPending {k : Key} (h : fq.Flying k) (h_rq : rq ∉ fq.all) :
    (fq.moveToPending rq).Flying k where
  idx := h.idx
  ref := h.ref
  ref_ne := h.ref_ne
  key := h.key
  inFlight := h.inFlight
  flushing := by
    show fq.flushing = (fq.moveToPending rq).flushQueue fq.flushRunningIdx
    rw [moveToPending_queue h_rq, if_neg (by simp [h.idx]), h.flushing]
    rfl
  rqStatus := h.rqStatus

/-- The requests whose data is in flight have no part in the flush. -/
theorem Idle.data (h : fq.Idle) (data : List Request) :
    Idle { fq with flushDataInFlight := data } :=
  ⟨h.idx, h.other, h.ref, h.iterators, h.inFlight, h.rqStatus, h.device⟩

theorem Flying.data {k : Key} (h : fq.Flying k) (data : List Request) :
    Flying { fq with flushDataInFlight := data } k :=
  ⟨h.idx, h.ref, h.ref_ne, h.key, h.inFlight, h.flushing, h.rqStatus⟩

end FlushQueue

end Lists

/-! ## `FqInv` -/

section Fq

variable {seq policy : Request → FseqMask} {log : Request → List Fseq} {k : Key}
  {fq : FlushQueue} {rq : Request}

/-- Only the sequences of the requests on the lists count. -/
theorem FqInv.congr {seq' policy' : Request → FseqMask} {log' : Request → List Fseq}
    (h : FqInv seq policy log k fq)
    (h_same : ∀ rq ∈ fq.all, seq' rq = seq rq ∧ policy' rq = policy rq ∧ log' rq = log rq) :
    FqInv seq' policy' log' k fq where
  key := h.key
  waits i rq h_rq := by
    rw [(h_same rq (FlushQueue.mem_all_of_queue h_rq)).1]
    exact h.waits i rq h_rq
  data rq h_rq := by
    rw [(h_same rq (FlushQueue.mem_all_of_data h_rq)).1]
    exact h.data rq h_rq
  phase := h.phase
  progress rq h_rq := by
    obtain ⟨h_seq, h_policy, -⟩ := h_same rq h_rq
    rw [h_seq, h_policy]
    exact h.progress rq h_rq
  log rq h_rq := by
    obtain ⟨h_seq, h_policy, h_log⟩ := h_same rq h_rq
    rw [h_seq, h_policy, h_log]
    exact h.log rq h_rq

theorem FqInv.moveToPending (h : FqInv seq policy log k fq) (h_rq : rq ∉ fq.all)
    (h_key : rq.key = k) (h_waits : Waits (seq rq))
    (h_progress : Progress (policy rq) (seq rq) = true)
    (h_log : log rq = completed (policy rq) (seq rq)) :
    FqInv seq policy log k (fq.moveToPending rq) := by
  have h_all (x : Request) : x ∈ (fq.moveToPending rq).all ↔ x = rq ∨ x ∈ fq.all := by
    rw [(FlushQueue.moveToPending_all h_rq).mem_iff, List.mem_cons]
  have h_data : (fq.moveToPending rq).flushDataInFlight = fq.flushDataInFlight := by
    rw [FlushQueue.moveToPending, FlushQueue.listDel_of_notMem h_rq]
  refine ⟨fun x h_x => ?_, fun i x h_x => ?_, fun x h_x => ?_, ?_, fun x h_x => ?_, fun x h_x => ?_⟩
  · rcases (h_all x).mp h_x with rfl | h_x
    · exact h_key
    · exact h.key x h_x
  · rw [FlushQueue.moveToPending_queue h_rq] at h_x
    split at h_x
    · rcases List.mem_append.mp h_x with h_x | h_x
      · exact h.waits i x h_x
      · rw [List.mem_singleton.mp h_x]
        exact h_waits
    · exact h.waits i x h_x
  · rw [h_data] at h_x
    exact h.data x h_x
  · exact h.phase.imp (·.moveToPending h_rq) (·.moveToPending h_rq)
  · rcases (h_all x).mp h_x with rfl | h_x
    · exact h_progress
    · exact h.progress x h_x
  · simp only [FlushQueue.moveToPending_answered h_rq h.phase]
    rcases (h_all x).mp h_x with rfl | h_x
    · rw [if_neg (FlushQueue.not_answered_of_notMem h_rq), List.append_nil]
      exact h_log
    · exact h.log x h_x

theorem FqInv.moveToData (h : FqInv seq policy log k fq) (h_rq : rq ∉ fq.all)
    (h_key : rq.key = k) (h_cur : blkFlushCurSeq (seq rq) = some .data)
    (h_progress : Progress (policy rq) (seq rq) = true)
    (h_log : log rq = completed (policy rq) (seq rq)) :
    FqInv seq policy log k (fq.moveToData rq) := by
  have h_all (x : Request) : x ∈ (fq.moveToData rq).all ↔ x = rq ∨ x ∈ fq.all := by
    rw [(FlushQueue.moveToData_all h_rq).mem_iff, List.mem_cons]
  have h_eq : fq.moveToData rq =
      { fq with flushDataInFlight := fq.flushDataInFlight ++ [rq] } := by
    rw [FlushQueue.moveToData, FlushQueue.listDel_of_notMem h_rq]
  rw [h_eq] at h_all ⊢
  refine ⟨fun x h_x => ?_, h.waits, fun x h_x => ?_, h.phase.imp (·.data _) (·.data _),
    fun x h_x => ?_, fun x h_x => ?_⟩
  · rcases (h_all x).mp h_x with rfl | h_x
    · exact h_key
    · exact h.key x h_x
  · rcases List.mem_append.mp h_x with h_x | h_x
    · exact h.data x h_x
    · rw [List.mem_singleton.mp h_x]
      exact h_cur
  · rcases (h_all x).mp h_x with rfl | h_x
    · exact h_progress
    · exact h.progress x h_x
  · rcases (h_all x).mp h_x with rfl | h_x
    · rw [if_neg, List.append_nil]
      · exact h_log
      · exact fun h_answered => h_rq (FlushQueue.mem_all_of_queue h_answered.2)
    · exact h.log x h_x

/-- A flush is issued for the requests that are pending. -/
theorem FqInv.kick (h : FqInv seq policy log k fq) (h_idle : fq.Idle) {rest : List Request}
    (h_pending : fq.pending = rq :: rest) :
    FqInv seq policy log k { fq with
      flushPendingIdx := !fq.flushPendingIdx
      flushRq := ⟨1, rq.mqHctx, rq.mqCtxCpu⟩
      inFlight := fq.inFlight + 1
      flushing := fq.pending
      device := none } where
  key := h.key
  waits := h.waits
  data := h.data
  phase := by
    have h_rq : rq ∈ fq.flushQueue fq.flushPendingIdx := by
      rw [← FlushQueue.pending, h_pending]
      exact List.mem_cons_self ..
    refine .inr ⟨?_, ?_, Nat.one_ne_zero, h.key rq (FlushQueue.mem_all_of_queue h_rq), ?_, ?_,
      h_idle.rqStatus⟩
    · rw [h_idle.idx]
    · rw [h_idle.iterators]
      rfl
    · rw [h_idle.inFlight]
    · rw [FlushQueue.pending, h_idle.idx]
      rfl
  progress := h.progress
  log x h_x := by
    have h_log := h.log x h_x
    rw [if_neg h_idle.not_answered] at h_log
    rw [h_log, if_neg]
    rintro ⟨h_device, -⟩
    cases h_device

end Fq

/-! ## `Inv` -/

section State

variable {s : State} {held : List Request} {k : Key} {rq x : Request} {fq : FlushQueue}

@[simp] theorem State.setFq_fq_self : (s.setFq k fq).fq k = fq := Function.update_self ..

theorem State.setFq_fq_ne {c : Key} (h : c ≠ k) : (s.setFq k fq).fq c = s.fq c :=
  Function.update_of_ne h ..

/-- Only an inserted request is on a list. -/
theorem Inv.inserted_of_mem (h : Inv s held) (h_rq : rq ∈ (s.fq k).all) : rq ∈ s.inserted := by
  have h_places := h.places rq
  have h_count := List.one_le_count_iff.mpr h_rq
  rw [← (h.fq k).key rq h_rq] at h_count
  by_contra h_not
  rw [if_neg h_not] at h_places
  omega

theorem Inv.nodup (h : Inv s held) (k : Key) : (s.fq k).all.Nodup := by
  rw [List.nodup_iff_count_le_one]
  intro x
  by_cases h_x : x ∈ (s.fq k).all
  · have h_places := h.places x
    rw [(h.fq k).key x h_x, if_pos (h.inserted_of_mem h_x)] at h_places
    omega
  · rw [List.count_eq_zero_of_not_mem h_x]
    exact Nat.zero_le 1

/-- A request that is somewhere else is on no list. -/
theorem Inv.notMem_all (h : Inv s held)
    (h_rq : rq ∈ held ∨ rq ∈ s.direct ∨ rq ∈ s.ended.map Prod.fst) :
    (∀ k, rq ∉ (s.fq k).all) ∧ rq ∈ s.inserted := by
  have h_places := h.places rq
  have h_some : 0 < held.count rq + s.direct.count rq + (s.ended.map Prod.fst).count rq := by
    rcases h_rq with h_rq | h_rq | h_rq
    · have h_count := List.count_pos_iff.mpr h_rq
      omega
    · have h_count := List.count_pos_iff.mpr h_rq
      omega
    · have h_count := List.count_pos_iff.mpr h_rq
      omega
  have h_inserted : rq ∈ s.inserted := by
    by_contra h_not
    rw [if_neg h_not] at h_places
    omega
  rw [if_pos h_inserted] at h_places
  refine ⟨fun k h_k => ?_, h_inserted⟩
  have h_count := List.count_pos_iff.mpr h_k
  rw [← (h.fq k).key rq h_k] at h_count
  omega

/-- One flush queue changes, and requests of its vNQ come to its lists from where they are held,
or go the other way. -/
theorem Inv.place {held' data : List Request} {log : Request → List Fseq} (h : Inv s held)
    (h_fq : FqInv s.seq s.policy log k fq)
    (h_all : ∀ x, x.key = k →
      fq.all.count x + held'.count x = (s.fq k).all.count x + held.count x)
    (h_held : ∀ x, x.key ≠ k → held'.count x = held.count x)
    (h_data : ∀ x, x.key = k → data.count x = fq.flushDataInFlight.count x)
    (h_other : ∀ x, x.key ≠ k → data.count x = s.data.count x)
    (h_log : ∀ x, x ∉ (s.fq k).all → log x = s.log x) :
    Inv { s.setFq k fq with data, log } held' where
  fq c := by
    by_cases h_eq : c = k
    · subst h_eq
      dsimp only
      rw [State.setFq_fq_self]
      exact h_fq
    · dsimp only
      rw [State.setFq_fq_ne h_eq]
      -- a request is on the lists of its own vNQ only
      refine (h.fq c).congr fun x h_x => ⟨rfl, rfl, h_log x fun h_k => h_eq ?_⟩
      rw [← (h.fq c).key x h_x, (h.fq k).key x h_k]
  places x := by
    have h_places := h.places x
    dsimp only
    by_cases h_eq : x.key = k
    · have h_x := h_all x h_eq
      rw [h_eq] at h_places
      rw [h_eq, State.setFq_fq_self]
      show _ = if x ∈ s.inserted then 1 else 0
      rw [← h_places]
      show fq.all.count x + s.direct.count x + _ + (s.ended.map Prod.fst).count x = _
      omega
    · rw [State.setFq_fq_ne h_eq, h_held x h_eq]
      exact h_places
  data x := by
    dsimp only
    by_cases h_eq : x.key = k
    · rw [h_data x h_eq, h_eq, State.setFq_fq_self]
    · rw [h_other x h_eq, State.setFq_fq_ne h_eq]
      exact h.data x
  direct x h_x := by
    dsimp only
    rw [h_log x ((h.notMem_all (.inr (.inl h_x))).1 k)]
    exact h.direct x h_x
  fresh x h_x := by
    dsimp only
    rw [h_log x fun h_k => h_x (h.inserted_of_mem h_k)]
    exact h.fresh x h_x
  ended x h_x := by
    dsimp only
    rw [h_log x ((h.notMem_all (.inr (.inr (List.mem_map_of_mem h_x)))).1 k)]
    exact h.ended x h_x
  acts := h.acts

/-- One flush queue changes, and the lists keep their requests. -/
theorem Inv.setFq (h : Inv s held) (h_fq : FqInv s.seq s.policy s.log k fq)
    (h_all : ∀ x, fq.all.count x = (s.fq k).all.count x)
    (h_data : fq.flushDataInFlight = (s.fq k).flushDataInFlight) : Inv (s.setFq k fq) held := by
  apply h.place h_fq (fun x _ => by rw [h_all x]) (fun _ _ => rfl) (fun x h_x => ?_)
    (fun _ _ => rfl) fun _ _ => rfl
  rw [h_data, ← h_x]
  exact h.data x

theorem kick_inv (h : Inv s held) (k : Key) (late : Bool) : Inv (blkKickFlush s k late) held := by
  rw [blkKickFlush]
  split
  · exact h
  case h_2 rq rest h_pending =>
    split
    · exact h
    case isFalse h_idx =>
      split
      · exact h
      · have h_idle : (s.fq k).Idle := by
          refine (h.fq k).phase.resolve_right fun h_flying => h_idx ?_
          simp [h_flying.idx]
        exact h.setFq ((h.fq k).kick h_idle h_pending) (fun _ => rfl) rfl

/-- A held request is ended. -/
theorem Inv.endHeld {error : Nat} (h : Inv s (rq :: held))
    (h_ok : error = 0 → s.log rq = steps (s.policy rq)) :
    Inv { s with ended := s.ended ++ [(rq, error)] } held where
  fq := h.fq
  places x := by
    have h_places := h.places x
    rw [List.count_cons] at h_places
    rw [← h_places, List.map_append, List.map_singleton, List.count_append, List.count_singleton]
    dsimp only
    omega
  data := h.data
  direct := h.direct
  fresh := h.fresh
  ended x h_x := by
    rcases List.mem_append.mp h_x with h_x | h_x
    · exact h.ended x h_x
    · cases List.mem_singleton.mp h_x
      exact h_ok rfl
  acts := h.acts

/-- The request that is completed is put in its place. -/
theorem next_inv {error : Nat} {next : Fseq} (h : Inv s (rq :: held))
    (h_next : if error = 0 then blkFlushCurSeq (s.seq rq) = some next else next = .done)
    (h_progress : error = 0 → Progress (s.policy rq) (s.seq rq) = true ∧
      s.log rq = completed (s.policy rq) (s.seq rq)) :
    Inv (blkFlushNext s rq.key rq error next) held := by
  have h_rq := (h.notMem_all (.inl (List.mem_cons_self ..))).1 rq.key
  -- a request that goes on was completed without an error
  have h_go (h_ne : next ≠ .done) : blkFlushCurSeq (s.seq rq) = some next ∧
      Progress (s.policy rq) (s.seq rq) = true ∧
      s.log rq = completed (s.policy rq) (s.seq rq) := by
    by_cases h_error : error = 0
    · rw [if_pos h_error] at h_next
      exact ⟨h_next, h_progress h_error⟩
    · rw [if_neg h_error] at h_next
      exact absurd h_next h_ne
  have h_all {fq : FlushQueue} (h_perm : fq.all.Perm (rq :: (s.fq rq.key).all)) (x : Request) :
      fq.all.count x + held.count x = (s.fq rq.key).all.count x + (rq :: held).count x := by
    rw [h_perm.count_eq, List.count_cons, List.count_cons]
    omega
  have h_held (x : Request) (h_x : x.key ≠ rq.key) : held.count x = (rq :: held).count x := by
    rw [List.count_cons_of_ne]
    rintro rfl
    exact h_x rfl
  have h_wait (h_flush : next = .preflush ∨ next = .postflush) :
      Inv (s.setFq rq.key ((s.fq rq.key).moveToPending rq)) held := by
    obtain ⟨h_cur, h_prog, h_log⟩ := h_go (by rcases h_flush with rfl | rfl <;> exact nofun)
    have h_waits : Waits (s.seq rq) := by
      rcases h_flush with rfl | rfl
      · exact .inl h_cur
      · exact .inr h_cur
    apply h.place ((h.fq rq.key).moveToPending h_rq rfl h_waits h_prog h_log)
      (fun x _ => h_all (FlushQueue.moveToPending_all h_rq) x) h_held (fun x h_x => ?_)
      (fun _ _ => rfl) fun _ _ => rfl
    rw [h.data x, h_x, FlushQueue.moveToPending, FlushQueue.listDel_of_notMem h_rq]
  cases next with
  | preflush => exact h_wait (.inl rfl)
  | postflush => exact h_wait (.inr rfl)
  | data =>
      -- the driver gets it at the same time
      obtain ⟨h_cur, h_prog, h_log⟩ := h_go nofun
      apply h.place ((h.fq rq.key).moveToData h_rq rfl h_cur h_prog h_log)
        (fun x _ => h_all (FlushQueue.moveToData_all h_rq) x) h_held (fun x h_x => ?_)
        (fun x h_x => ?_) fun _ _ => rfl
      · rw [FlushQueue.moveToData, FlushQueue.listDel_of_notMem h_rq, List.count_append,
          List.count_append, h.data x, h_x]
      · rw [List.count_append, List.count_singleton, if_neg, Nat.add_zero]
        rw [beq_iff_eq]
        rintro rfl
        exact h_x rfl
  | done =>
      have h_same : s.setFq rq.key ((s.fq rq.key).listDel rq) = s := by
        rw [FlushQueue.listDel_of_notMem h_rq, State.setFq, Function.update_eq_self]
      rw [blkFlushNext, h_same]
      apply h.endHeld
      intro h_error
      obtain ⟨h_prog, h_log⟩ := h_progress h_error
      rw [if_pos h_error] at h_next
      rw [h_log, progress_done h_prog h_next]

theorem kick_frame (s : State) (k : Key) (late : Bool) :
    (blkKickFlush s k late).policy = s.policy ∧ (blkKickFlush s k late).log = s.log ∧
      (blkKickFlush s k late).seq = s.seq := by
  rw [blkKickFlush]
  split
  · exact ⟨rfl, rfl, rfl⟩
  · split
    · exact ⟨rfl, rfl, rfl⟩
    · split <;> exact ⟨rfl, rfl, rfl⟩

/-- What has happened to the other requests stays as it is. -/
theorem completeSeq_frame {seq : FseqMask} {error : Nat} {late : Bool} {s' : State}
    (h : blkFlushCompleteSeq s k rq seq error late = some s') :
    s'.policy = s.policy ∧ s'.log = s.log ∧ ∀ x, x ≠ rq → s'.seq x = s.seq x := by
  rw [blkFlushCompleteSeq, Option.ite_none_left_eq_some] at h
  obtain ⟨next, -, rfl⟩ := Option.map_eq_some_iff.mp h.2
  obtain ⟨h_policy, h_log, h_seq⟩ := kick_frame (blkFlushNext
    { s with
      seq := Function.update s.seq rq ((s.seq rq).or seq)
      acts := s.acts ++ [(rq, k)] } k rq error next) k late
  rw [h_policy, h_log, h_seq]
  have h_update (x : Request) (h_x : x ≠ rq) :
      Function.update s.seq rq ((s.seq rq).or seq) x = s.seq x := Function.update_of_ne h_x ..
  cases next with
  | preflush | data | postflush | done => exact ⟨rfl, rfl, h_update⟩

/-- A held request is nowhere else. -/
theorem Inv.held_ne (h : Inv s held) (h_rq : rq ∈ held)
    (h_x : x ∈ s.direct ∨ x ∈ s.ended.map Prod.fst) : x ≠ rq := by
  rintro rfl
  have h_places := h.places x
  rw [if_pos (h.notMem_all (.inl h_rq)).2] at h_places
  have h_count := List.count_pos_iff.mpr h_rq
  rcases h_x with h_x | h_x
  · have h_other := List.count_pos_iff.mpr h_x
    omega
  · have h_other := List.count_pos_iff.mpr h_x
    omega

/-- What is noted about a held request concerns no other. -/
theorem Inv.note {seq : Request → FseqMask} {log : Request → List Fseq} (h : Inv s held)
    (h_rq : rq ∈ held) (h_seq : ∀ x, x ≠ rq → seq x = s.seq x)
    (h_log : ∀ x, x ≠ rq → log x = s.log x) : Inv { s with seq, log } held where
  fq k := by
    apply (h.fq k).congr
    intro x h_x
    have h_ne : x ≠ rq := by
      rintro rfl
      exact (h.notMem_all (.inl h_rq)).1 k h_x
    exact ⟨h_seq x h_ne, rfl, h_log x h_ne⟩
  places := h.places
  data := h.data
  direct x h_x := by
    dsimp only
    rw [h_log x (h.held_ne h_rq (.inl h_x))]
    exact h.direct x h_x
  fresh x h_x := by
    dsimp only
    rw [h_log x]
    · exact h.fresh x h_x
    · rintro rfl
      exact h_x (h.notMem_all (.inl h_rq)).2
  ended x h_x := by
    dsimp only
    rw [h_log x (h.held_ne h_rq (.inr (List.mem_map_of_mem h_x)))]
    exact h.ended x h_x
  acts := h.acts

theorem Inv.act (h : Inv s held) (rq : Request) :
    Inv { s with acts := s.acts ++ [(rq, rq.key)] } held where
  fq := h.fq
  places := h.places
  data := h.data
  direct := h.direct
  fresh := h.fresh
  ended := h.ended
  acts a h_a := by
    rcases List.mem_append.mp h_a with h_a | h_a
    · exact h.acts a h_a
    · rw [List.mem_singleton.mp h_a]

/-- `blk_flush_complete_seq` for a request that is held: no `BUG_ON`, and the request gets a
place. -/
theorem completeSeq_inv {seq : FseqMask} {error : Nat} (late : Bool) (h : Inv s (rq :: held))
    (h_meets : (s.seq rq).meets seq = false)
    (h_progress : error = 0 → Progress (s.policy rq) ((s.seq rq).or seq) = true ∧
      s.log rq = completed (s.policy rq) ((s.seq rq).or seq)) :
    Returns (blkFlushCompleteSeq s rq.key rq seq error late) (Inv · held) := by
  have h_seq : Inv { s with seq := Function.update s.seq rq ((s.seq rq).or seq) } (rq :: held) :=
    h.note (List.mem_cons_self ..) (fun x h_x => Function.update_of_ne h_x ..) fun _ _ => rfl
  have h_mark := h_seq.act rq
  rw [blkFlushCompleteSeq, h_meets, if_neg Bool.false_ne_true]
  dsimp only
  obtain ⟨next, h_next⟩ : ∃ next,
      (if error = 0 then blkFlushCurSeq ((s.seq rq).or seq) else some .done) = some next := by
    split
    case isTrue h_error =>
      exact Option.isSome_iff_exists.mp (progress_cur (h_progress h_error).1)
    case isFalse => exact ⟨.done, rfl⟩
  rw [h_next]
  refine Returns.some (kick_inv (next_inv h_mark ?_ fun h_error => ?_) _ _)
  · dsimp only
    rw [Function.update_self]
    split at h_next
    case isTrue h_error => rwa [if_pos h_error]
    case isFalse h_error =>
      rw [if_neg h_error]
      exact (Option.some.inj h_next).symm
  · dsimp only
    rw [Function.update_self]
    exact h_progress h_error

end State

end Daredevil.Flush
