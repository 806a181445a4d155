/-
  Daredevil.Block.Flush

  Runs of the flush machinery (`block/blk-flush.c`): requests are inserted, their data
  completes, flushes complete, and tag iterators hold references to a flush request,
  in any order and on any vNQ.

  `flush_end_io` has two gaps.  It traverses the list of the requests that were waiting
  for the flush, and a flush that is issued in the course of that makes this very list
  the one that requests are put on: a request without data that goes from PREFLUSH
  to POSTFLUSH is met again, and its POSTFLUSH is taken for done.  And an error
  that is noted in `rq_status` while there are references left is overwritten by the
  next but last reference that is dropped.

  `flush_sequenced`: in runs that stay clear of both (`Guarded`), every request gets the
  steps of its policy.
-/
import Daredevil.Block.FlushQueue
import Daredevil.Lib.Lts
import Daredevil.Lib.SafeTraversal

namespace Daredevil.Flush

open SafeTraversal (forEachSafe)

/-! ## The functions -/

/-- A turn of the loop of `flush_end_io`; `late` is indexed by the turns. -/
def flushEndTurn (key : Key) (error : Nat) (late : Nat → Bool) (r : Nat × State) (rq : Request) :
    Option (Nat × State) :=
  (blkFlushCurSeq (r.2.seq rq)).bind fun seq =>
    if seq = .preflush ∨ seq = .postflush then
      (blkFlushCompleteSeq r.2 key rq (.bit seq) error (late r.1)).map (r.1 + 1, ·)
    else none

/-- `flush_end_io`, for the flush request of queue `k`; `none` is a `BUG_ON`. -/
def flushEndIo (s : State) (k : Key) (error : Nat) (late : Nat → Bool) : Option State :=
  let flushRq := (s.fq k).flushRq
  let key := blkBlexGetFlushQueue flushRq.mqHctx flushRq.mqCtxCpu
  let s := s.setFq k { s.fq k with flushRq := { flushRq with ref := flushRq.ref - 1 } }
  let fq := s.fq key
  -- `!req_ref_put_and_test(flush_rq)`
  if flushRq.ref ≠ 1 then some (s.setFq key { fq with rqStatus := error })
  else
    let error := if fq.rqStatus ≠ 0 then fq.rqStatus else error
    if fq.flushPendingIdx = fq.flushRunningIdx then none
    else
      let running := fq.flushRunningIdx
      let s := s.setFq key { fq with
        rqStatus := 0
        flushRunningIdx := !running
        inFlight := fq.inFlight - 1
        device := none }
      -- no request is met more than once for each of its flush steps
      let turns := 2 * fq.running.length
      (forEachSafe (fun r => (r.2.fq key).flushQueue running) (flushEndTurn key error late) turns
        fq.running.head? (0, s)).map (·.2)

/-- `mq_flush_data_end_io` -/
def mqFlushDataEndIo (s : State) (rq : Request) (error : Nat) (late : Bool) : Option State :=
  blkFlushCompleteSeq s (blkBlexGetFlushQueue rq.mqHctx rq.mqCtxCpu) rq (.bit .data) error late

/-- `blk_insert_flush` -/
def blkInsertFlush (s : State) (rq : Request) (wc fua late : Bool) : Option State :=
  let policy := blkFlushPolicy wc fua rq
  let s := { s with
    inserted := s.inserted ++ [rq]
    policy := Function.update s.policy rq policy }
  if policy = .empty then some { s with ended := s.ended ++ [(rq, 0)] }
  else if policy.data = true ∧ ¬ (policy.preflush = true ∨ policy.postflush = true) then
    -- `blk_mq_request_bypass_insert`
    some { s with direct := s.direct ++ [rq] }
  else
    let s := { s with seq := Function.update s.seq rq .empty }
    blkFlushCompleteSeq s (blkBlexGetFlushQueue rq.mqHctx rq.mqCtxCpu) rq policy.actionsBut 0 late

/-! ## Runs -/

inductive Event where
  | insert (rq : Request) (wc fua late : Bool)
  /-- the driver completes a request's DATA step -/
  | dataEnd (rq : Request) (error : Nat) (late : Bool)
  /-- the driver completes a request that has no sequence -/
  | directEnd (rq : Request) (error : Nat)
  /-- a tag iterator takes a reference to the flush request of a queue -/
  | getRef (k : Key)
  /-- it drops the reference, which calls `flush_end_io` with `BLK_STS_OK` -/
  | putRef (k : Key) (late : Nat → Bool)
  /-- the driver completes the flush request of a queue -/
  | flushEnd (k : Key) (error : Nat) (late : Nat → Bool)

/-- The device's answer to the flush in flight: without an error, the flush was performed for the
requests that it was issued for. -/
def State.answer (s : State) (k : Key) (error : Nat) : State :=
  let fq := s.fq k
  { s.setFq k { fq with device := some error } with
    log := fun rq =>
      if error = 0 ∧ rq ∈ fq.flushing then s.log rq ++ (blkFlushCurSeq (s.seq rq)).toList
      else s.log rq }

/-- The device has performed DATA, unless it says that it failed. -/
def State.dataDone (s : State) (rq : Request) (error : Nat) : State :=
  { s with
    log := Function.update s.log rq (if error = 0 then s.log rq ++ [.data] else s.log rq) }

/-- What the surroundings do: new requests are inserted, what is with the driver completes. -/
def Possible (s : State) : Event → Prop
  | .insert rq .. => rq ∉ s.inserted
  | .dataEnd rq .. => rq ∈ s.data
  | .directEnd rq _ => rq ∈ s.direct
  | .getRef k => (s.fq k).flushRq.ref ≠ 0
  | .putRef k _ => (s.fq k).iterators ≠ 0
  | .flushEnd k .. => (s.fq k).inFlight ≠ 0 ∧ (s.fq k).device = none

instance (s : State) : DecidablePred (Possible s) := fun e =>
  match e with
  | .insert .. => inferInstanceAs (Decidable (_ ∉ _))
  | .dataEnd .. => inferInstanceAs (Decidable (_ ∈ _))
  | .directEnd .. => inferInstanceAs (Decidable (_ ∈ _))
  | .getRef _ => inferInstanceAs (Decidable (_ ≠ _))
  | .putRef .. => inferInstanceAs (Decidable (_ ≠ _))
  | .flushEnd .. => inferInstanceAs (Decidable (_ ∧ _))

/-- `none` is a `BUG_ON`. -/
def perform (s : State) : Event → Option State
  | .insert rq wc fua late => blkInsertFlush s rq wc fua late
  | .dataEnd rq error late =>
      mqFlushDataEndIo { s.dataDone rq error with data := s.data.erase rq } rq error late
  | .directEnd rq error =>
      some { s.dataDone rq error with
        direct := s.direct.erase rq
        ended := s.ended ++ [(rq, error)] }
  | .getRef k =>
      let fq := s.fq k
      some (s.setFq k { fq with
        flushRq := { fq.flushRq with ref := fq.flushRq.ref + 1 }
        iterators := fq.iterators + 1 })
  | .putRef k late =>
      let fq := s.fq k
      flushEndIo (s.setFq k { fq with iterators := fq.iterators - 1 }) k 0 late
  | .flushEnd k error late => flushEndIo (s.answer k error) k error late

def step (s : State) (e : Event) : Option State := if Possible s e then perform s e else none

/-- A flush queue as it is allocated. -/
def newFq : FlushQueue where
  flushQueue _ := []
  flushPendingIdx := false
  flushRunningIdx := false
  flushDataInFlight := []
  rqStatus := 0
  flushRq := ⟨0, none, 0⟩
  inFlight := 0
  flushing := []
  device := none
  iterators := 0

/-- Nothing was inserted yet. -/
def start : State where
  fq _ := newFq
  seq _ := .empty
  policy _ := .empty
  inserted := []
  data := []
  direct := []
  ended := []
  log _ := []
  acts := []

def Init (s : State) : Prop := s = start

/-! ## What is expected -/

/-- Every step of a request acts on the flush queue of its vNQ, one flush is in flight at a time,
no `BUG_ON` is met, and a request ends once and, without an error, after the steps of its policy. -/
structure Sequenced (s : State) : Prop where
  sameQueue : ∀ a ∈ s.acts, a.2 = a.1.key
  oneInFlight : ∀ k, (s.fq k).inFlight ≤ 1
  endedOnce : (s.ended.map Prod.fst).Nodup
  performed : ∀ rq, (rq, 0) ∈ s.ended → s.log rq = steps (s.policy rq)

/-- What a request does after the step that it waits for. -/
def nextSeq (seq : FseqMask) : Option Fseq :=
  (blkFlushCurSeq seq).bind fun cur => blkFlushCurSeq (seq.or (.bit cur))

/-- The first requests `a` of the list that is traversed have a flush issued: requests are
pending, and no data is in flight or the timeout has passed. -/
def Kicks (s : State) (k : Key) (late : Nat → Bool) (a : List Request) : Prop :=
  a ≠ [] ∧
    ((s.fq k).pending ≠ [] ∨ ∃ x ∈ a, nextSeq (s.seq x) = some .postflush) ∧
    (((s.fq k).flushDataInFlight = [] ∧ ∀ x ∈ a, nextSeq (s.seq x) ≠ some .data) ∨
      late (a.length - 1) = true)

/-- No request that goes on to POSTFLUSH stands behind one with which a flush is issued, unless
it is the last one. -/
def Orderly (s : State) (k : Key) (error : Nat) (late : Nat → Bool) : Prop :=
  error = 0 → ∀ a rq b, (s.fq k).running = a ++ rq :: b → b ≠ [] →
    nextSeq (s.seq rq) = some .postflush → ∀ a', a' <+: a → ¬ Kicks s k late a'

/-- A flush ends in order, and the error of a flush is not overwritten. -/
def Guarded (s : State) : Event → Prop
  | .putRef k late =>
      ((s.fq k).flushRq.ref = 1 → Orderly s k (s.fq k).rqStatus late) ∧
        ((s.fq k).flushRq.ref ≠ 1 → (s.fq k).rqStatus = 0)
  | .flushEnd k error late => (s.fq k).flushRq.ref = 1 → Orderly s k error late
  | _ => True

/-! ## A traversal that takes the list off first

`s.onto k i rest` is `s` with the requests that are still to be visited on the list `i`, in front
of what is there.  A turn of the loop does to it what it does to `s` (`completeSeq_onto`). -/

def FlushQueue.onto (fq : FlushQueue) (i : Bool) (rest : List Request) : FlushQueue :=
  { fq with flushQueue := Function.update fq.flushQueue i (rest ++ fq.flushQueue i) }

def State.onto (s : State) (k : Key) (i : Bool) (rest : List Request) : State :=
  s.setFq k ((s.fq k).onto i rest)

section Onto

variable {s : State} {k : Key} {i : Bool} {rest : List Request} {rq : Request}
  {fq fq' : FlushQueue}

theorem State.setFq_setFq : (s.setFq k fq).setFq k fq' = s.setFq k fq' := by
  rw [State.setFq, State.setFq, State.setFq, Function.update_idem]

theorem State.setFq_self : s.setFq k (s.fq k) = s := by
  rw [State.setFq, Function.update_eq_self]

theorem State.onto_nil : s.onto k i [] = s := by
  rw [State.onto, FlushQueue.onto, List.nil_append, Function.update_eq_self, State.setFq_self]

theorem FlushQueue.onto_queue_self : (fq.onto i rest).flushQueue i = rest ++ fq.flushQueue i :=
  Function.update_self ..

theorem FlushQueue.onto_queue_ne {j : Bool} (h : j ≠ i) :
    (fq.onto i rest).flushQueue j = fq.flushQueue j :=
  Function.update_of_ne h ..

/-- Before it is put in its place, the request is taken off its list. -/
theorem completeSeq_congr {seq : FseqMask} {error : Nat} {late : Bool}
    (h : fq.listDel rq = fq'.listDel rq) :
    blkFlushCompleteSeq (s.setFq k fq) k rq seq error late =
      blkFlushCompleteSeq (s.setFq k fq') k rq seq error late := by
  have h_pending : fq.moveToPending rq = fq'.moveToPending rq := by
    rw [FlushQueue.moveToPending, h, FlushQueue.moveToPending]
  have h_data : fq.moveToData rq = fq'.moveToData rq := by
    rw [FlushQueue.moveToData, h, FlushQueue.moveToData]
  have h_next (next : Fseq) (s : State) :
      blkFlushNext (s.setFq k fq) k rq error next = blkFlushNext (s.setFq k fq') k rq error next := by
    cases next with
    | preflush | postflush =>
        simp only [blkFlushNext, State.setFq_fq_self, State.setFq_setFq, h_pending]
    | data =>
        simp only [blkFlushNext, State.setFq_fq_self, State.setFq_setFq, h_data]
        rfl
    | done =>
        simp only [blkFlushNext, State.setFq_fq_self, State.setFq_setFq, h]
        rfl
  rw [blkFlushCompleteSeq, blkFlushCompleteSeq]
  congr 1
  dsimp only
  congr 1
  funext next
  congr 1
  exact h_next next { s with
    seq := Function.update s.seq rq ((s.seq rq).or seq)
    acts := s.acts ++ [(rq, k)] }

/-- `blk_kick_flush` leaves things as they are. -/
theorem kick_waits {late : Bool}
    (h : (s.fq k).pending = [] ∨ (s.fq k).flushPendingIdx ≠ (s.fq k).flushRunningIdx ∨
      (s.fq k).flushDataInFlight ≠ [] ∧ late = false) :
    blkKickFlush s k late = s := by
  rw [blkKickFlush]
  split
  · rfl
  case h_2 h_pending =>
    split
    · rfl
    case isFalse h_idx =>
      rw [h_pending] at h
      exact if_pos ((h.resolve_left (List.cons_ne_nil _ _)).resolve_left h_idx)

/-- `blk_kick_flush` issues a flush. -/
theorem kick_issues {late : Bool} {tail : List Request} (h_pending : (s.fq k).pending = rq :: tail)
    (h_idx : (s.fq k).flushPendingIdx = (s.fq k).flushRunningIdx)
    (h_data : (s.fq k).flushDataInFlight = [] ∨ late = true) :
    blkKickFlush s k late = s.setFq k { s.fq k with
      flushPendingIdx := !(s.fq k).flushPendingIdx
      flushRq := ⟨1, rq.mqHctx, rq.mqCtxCpu⟩
      inFlight := (s.fq k).inFlight + 1
      flushing := (s.fq k).pending
      device := none } := by
  rw [blkKickFlush, h_pending]
  dsimp only
  rw [if_neg (not_not.mpr h_idx), if_neg]
  rintro ⟨h_ne, h_late⟩
  rcases h_data with h_data | h_data
  · exact h_ne h_data
  · rw [h_late] at h_data
    cases h_data

theorem kick_onto {late : Bool} (h_idx : (s.fq k).flushRunningIdx = !i) :
    blkKickFlush (s.onto k i rest) k late = (blkKickFlush s k late).onto k i rest := by
  have h_fq : (s.onto k i rest).fq k = (s.fq k).onto i rest := State.setFq_fq_self
  by_cases h_flying : (s.fq k).flushPendingIdx = i
  · -- a flush was issued already, for the other list
    have h_ne : (s.fq k).flushPendingIdx ≠ (s.fq k).flushRunningIdx := by simp [h_idx, h_flying]
    rw [kick_waits (.inr (.inl h_ne)), kick_waits (.inr (.inl (by rw [h_fq]; exact h_ne)))]
  · have h_list : ((s.fq k).onto i rest).pending = (s.fq k).pending :=
      FlushQueue.onto_queue_ne h_flying
    have h_pending : ((s.onto k i rest).fq k).pending = (s.fq k).pending := by rw [h_fq, h_list]
    have h_running : (s.fq k).flushPendingIdx = (s.fq k).flushRunningIdx := by
      rw [h_idx]
      exact Bool.eq_not_of_ne h_flying
    by_cases h_data : (s.fq k).flushDataInFlight = [] ∨ late = true
    · cases h_cons : (s.fq k).pending with
      | nil =>
          rw [kick_waits (.inl h_cons), kick_waits (.inl (by rw [h_pending, h_cons]))]
      | cons first tail =>
          rw [kick_issues h_cons h_running h_data, kick_issues (h_pending.trans h_cons)
            (by rw [h_fq]; exact h_running) (by rw [h_fq]; exact h_data)]
          simp only [State.onto, State.setFq_fq_self, State.setFq_setFq, h_list]
          rfl
    · rw [not_or, Bool.not_eq_true] at h_data
      rw [kick_waits (.inr (.inr h_data)), kick_waits (.inr (.inr (by rw [h_fq]; exact h_data)))]

/-- The lists of the queue but for the requests to be visited. -/
theorem FlushQueue.onto_listDel (h_rq : rq ∉ fq.all) (h_rest : rq ∉ rest) :
    (fq.onto i rest).listDel rq = fq.onto i rest := by
  apply FlushQueue.listDel_of_notMem
  rw [FlushQueue.mem_all, not_or, not_exists] at h_rq ⊢
  refine ⟨fun j => ?_, h_rq.2⟩
  by_cases h_eq : j = i
  · subst h_eq
    rw [FlushQueue.onto_queue_self, List.mem_append, not_or]
    exact ⟨h_rest, h_rq.1 j⟩
  · rw [FlushQueue.onto_queue_ne h_eq]
    exact h_rq.1 j

/-- The request whose turn it is is the first of those. -/
theorem FlushQueue.onto_cons_listDel (h_rq : rq ∉ fq.all) (h_rest : rq ∉ rest) :
    (fq.onto i (rq :: rest)).listDel rq = (fq.onto i rest).listDel rq := by
  rw [FlushQueue.onto_listDel h_rq h_rest]
  rw [FlushQueue.mem_all, not_or, not_exists] at h_rq
  have h_queue (j : Bool) :
      ((fq.onto i (rq :: rest)).flushQueue j).erase rq = (fq.onto i rest).flushQueue j := by
    by_cases h_eq : j = i
    · subst h_eq
      rw [FlushQueue.onto_queue_self, FlushQueue.onto_queue_self, List.cons_append,
        List.erase_cons_head]
    · rw [FlushQueue.onto_queue_ne h_eq, FlushQueue.onto_queue_ne h_eq]
      exact List.erase_of_not_mem (h_rq.1 j)
  have h_data : (fq.onto i (rq :: rest)).flushDataInFlight.erase rq = fq.flushDataInFlight :=
    List.erase_of_not_mem h_rq.2
  rw [FlushQueue.listDel, funext h_queue, h_data]
  rfl

theorem FlushQueue.onto_moveToPending (h_rq : rq ∉ fq.all) (h_rest : rq ∉ rest)
    (h_idx : rest = [] ∨ fq.flushPendingIdx ≠ i) :
    (fq.onto i rest).moveToPending rq = (fq.moveToPending rq).onto i rest := by
  rcases h_idx with rfl | h_idx
  · simp only [FlushQueue.onto, List.nil_append, Function.update_eq_self]
  · rw [FlushQueue.moveToPending, FlushQueue.onto_listDel h_rq h_rest, FlushQueue.moveToPending,
      FlushQueue.listDel_of_notMem h_rq]
    have h_list : (fq.onto i rest).pending = fq.pending := FlushQueue.onto_queue_ne h_idx
    rw [h_list]
    simp only [FlushQueue.onto]
    congr 1
    rw [Function.update_of_ne h_idx.symm, Function.update_comm h_idx.symm]

theorem FlushQueue.onto_moveToData (h_rq : rq ∉ fq.all) (h_rest : rq ∉ rest) :
    (fq.onto i rest).moveToData rq = (fq.moveToData rq).onto i rest := by
  rw [FlushQueue.moveToData, FlushQueue.onto_listDel h_rq h_rest, FlushQueue.moveToData,
    FlushQueue.listDel_of_notMem h_rq]
  rfl

/-- The list that a request is moved to for its next step. -/
def FlushQueue.moveNext (fq : FlushQueue) (rq : Request) : Fseq → FlushQueue
  | .preflush | .postflush => fq.moveToPending rq
  | .data => fq.moveToData rq
  | .done => fq.listDel rq

theorem FlushQueue.moveNext_runningIdx (fq : FlushQueue) (rq : Request) (next : Fseq) :
    (fq.moveNext rq next).flushRunningIdx = fq.flushRunningIdx := by
  cases next with
  | preflush | data | postflush | done => rfl

/-- A list that the request does not go to. -/
theorem FlushQueue.moveNext_queue {next : Fseq} (h_rq : rq ∉ fq.all)
    (h_next : next = .preflush ∨ next = .postflush → fq.flushPendingIdx ≠ i) :
    (fq.moveNext rq next).flushQueue i = fq.flushQueue i := by
  cases next with
  | preflush | postflush =>
      rw [FlushQueue.moveNext, FlushQueue.moveToPending_queue h_rq,
        if_neg (h_next (by simp)).symm]
  | data => rw [FlushQueue.moveNext, FlushQueue.moveToData, FlushQueue.listDel_of_notMem h_rq]
  | done => rw [FlushQueue.moveNext, FlushQueue.listDel_of_notMem h_rq]

theorem next_fq (s : State) (k : Key) (rq : Request) (error : Nat) (next : Fseq) :
    (blkFlushNext s k rq error next).fq k = (s.fq k).moveNext rq next := by
  cases next with
  | preflush | data | postflush | done => exact State.setFq_fq_self

theorem next_idx (s : State) (k : Key) (rq : Request) (error : Nat) (next : Fseq) :
    ((blkFlushNext s k rq error next).fq k).flushPendingIdx = (s.fq k).flushPendingIdx ∧
      ((blkFlushNext s k rq error next).fq k).flushRunningIdx = (s.fq k).flushRunningIdx := by
  rw [next_fq]
  cases next with
  | preflush | data | postflush | done => exact ⟨rfl, rfl⟩

theorem next_onto {error : Nat} {next : Fseq} (h_rq : rq ∉ (s.fq k).all) (h_rest : rq ∉ rest)
    (h_next : next = .preflush ∨ next = .postflush → rest = [] ∨ (s.fq k).flushPendingIdx ≠ i) :
    blkFlushNext (s.onto k i rest) k rq error next =
      (blkFlushNext s k rq error next).onto k i rest := by
  have h_fq : (s.onto k i rest).fq k = (s.fq k).onto i rest := State.setFq_fq_self
  have h_onto (fq : FlushQueue) :
      (s.onto k i rest).setFq k (fq.onto i rest) = (s.setFq k fq).onto k i rest := by
    rw [State.onto, State.onto, State.setFq_setFq, State.setFq_fq_self, State.setFq_setFq]
  cases next with
  | preflush | postflush =>
      rw [blkFlushNext, blkFlushNext, h_fq,
        FlushQueue.onto_moveToPending h_rq h_rest (h_next (by simp)), h_onto]
  | data =>
      rw [blkFlushNext, blkFlushNext, h_fq, FlushQueue.onto_moveToData h_rq h_rest, h_onto]
      rfl
  | done =>
      rw [blkFlushNext, blkFlushNext, h_fq, FlushQueue.onto_listDel h_rq h_rest,
        FlushQueue.listDel_of_notMem h_rq, h_onto]
      rfl

/-- A turn of the traversal, for a request that is not put on the list that is traversed. -/
theorem completeSeq_onto {seq : FseqMask} {error : Nat} {late : Bool}
    (h_rq : rq ∉ (s.fq k).all) (h_rest : rq ∉ rest) (h_idx : (s.fq k).flushRunningIdx = !i)
    (h_next : ∀ next,
      (if error = 0 then blkFlushCurSeq ((s.seq rq).or seq) else some .done) = some next →
      next = .preflush ∨ next = .postflush → rest = [] ∨ (s.fq k).flushPendingIdx ≠ i) :
    blkFlushCompleteSeq (s.onto k i rest) k rq seq error late =
      (blkFlushCompleteSeq s k rq seq error late).map (·.onto k i rest) := by
  have h_seq : (s.onto k i rest).seq = s.seq := rfl
  rw [blkFlushCompleteSeq, blkFlushCompleteSeq, h_seq]
  split
  case isTrue h_meets =>
    rfl
  case isFalse h_meets =>
    dsimp only
    generalize (if error = 0 then blkFlushCurSeq ((s.seq rq).or seq) else some .done) = next
      at h_next
    cases next with
    | none => rfl
    | some next =>
        have h_turn := @next_onto { s with
          seq := Function.update s.seq rq ((s.seq rq).or seq)
          acts := s.acts ++ [(rq, k)] } k i rest rq error next h_rq h_rest (h_next next rfl)
        have h_kick := @kick_onto (blkFlushNext { s with
          seq := Function.update s.seq rq ((s.seq rq).or seq)
          acts := s.acts ++ [(rq, k)] } k rq error next) k i rest late
          (by rw [(next_idx _ k rq error next).2]; exact h_idx)
        rw [← h_turn] at h_kick
        exact congrArg some h_kick

/-! ## The loop of `flush_end_io` -/

/-- `blk_kick_flush` only issues a flush for pending requests, with no data in flight or late. -/
theorem kick_cases (s : State) (k : Key) (late : Bool) :
    blkKickFlush s k late = s ∨
      (s.fq k).pending ≠ [] ∧ ((s.fq k).flushDataInFlight = [] ∨ late = true) := by
  by_cases h_list : (s.fq k).pending = []
  · exact .inl (kick_waits (.inl h_list))
  by_cases h_data : (s.fq k).flushDataInFlight = [] ∨ late = true
  · exact .inr ⟨h_list, h_data⟩
  · rw [not_or, Bool.not_eq_true] at h_data
    exact .inl (kick_waits (.inr (.inr h_data)))

theorem kick_lists (s : State) (k : Key) (late : Bool) :
    ((blkKickFlush s k late).fq k).flushQueue = (s.fq k).flushQueue ∧
      ((blkKickFlush s k late).fq k).flushRunningIdx = (s.fq k).flushRunningIdx := by
  rw [blkKickFlush]
  split
  · exact ⟨rfl, rfl⟩
  · split
    · exact ⟨rfl, rfl⟩
    · split
      · exact ⟨rfl, rfl⟩
      · rw [State.setFq_fq_self]
        exact ⟨rfl, rfl⟩

/-- The parts of `blk_flush_complete_seq`. -/
theorem completeSeq_cases {seq : FseqMask} {error : Nat} {late : Bool} {s' : State}
    (h : blkFlushCompleteSeq s k rq seq error late = some s') :
    ∃ next u,
      (if error = 0 then blkFlushCurSeq ((s.seq rq).or seq) else some .done) = some next ∧
      u.fq k = (s.fq k).moveNext rq next ∧ s' = blkKickFlush u k late := by
  rw [blkFlushCompleteSeq, Option.ite_none_left_eq_some] at h
  obtain ⟨next, h_next, rfl⟩ := Option.map_eq_some_iff.mp h.2
  refine ⟨next, _, h_next, ?_, rfl⟩
  exact next_fq _ k rq error next

theorem nextSeq_of_cur {seq : FseqMask} {cur : Fseq} (h : blkFlushCurSeq seq = some cur) :
    nextSeq seq = blkFlushCurSeq (seq.or (.bit cur)) := by
  rw [nextSeq, h, Option.bind_some]

theorem nextSeq_ne_preflush (seq : FseqMask) : nextSeq seq ≠ some .preflush := by
  rcases seq with ⟨_ | _, _ | _, _ | _, _ | _⟩ <;> decide

end Onto

section Loop

variable {s t : State} {k : Key} {i : Bool} {error : Nat} {late : Nat → Bool}
  {visited rest : List Request} {rq : Request}

/-- No flush was issued so far, and this is where the requests went. -/
structure Unkicked (s : State) (k : Key) (i : Bool) (visited : List Request) (t : State) :
    Prop where
  idx : (t.fq k).flushPendingIdx = !i
  pending : (t.fq k).pending ≠ [] ↔
    (s.fq k).pending ≠ [] ∨ ∃ x ∈ visited, nextSeq (s.seq x) = some .postflush
  data : (t.fq k).flushDataInFlight = [] ↔
    (s.fq k).flushDataInFlight = [] ∧ ∀ x ∈ visited, nextSeq (s.seq x) ≠ some .data

/-- After the turns of `visited`, with the others held back.  `s` is the state before the call. -/
structure Loop (s : State) (k : Key) (i : Bool) (error : Nat) (late : Nat → Bool)
    (visited rest : List Request) (t : State) : Prop where
  inv : Inv t rest
  nodup : rest.Nodup
  idx : (t.fq k).flushRunningIdx = !i
  empty : rest ≠ [] → (t.fq k).flushQueue i = []
  key : ∀ x ∈ rest, x.key = k
  seq : ∀ x ∈ rest, t.seq x = s.seq x
  waits : ∀ x ∈ rest, Waits (t.seq x)
  progress : error = 0 → ∀ x ∈ rest, Progress (t.policy x) (t.seq x) = true ∧
    t.log x = completed (t.policy x) (t.seq x) ++ (blkFlushCurSeq (t.seq x)).toList
  kicks : error = 0 → Unkicked s k i visited t ∨ ∃ a, a <+: visited ∧ Kicks s k late a

/-- A request goes on to its next step, and no flush is issued yet. -/
theorem Unkicked.move {u : State} {next : Fseq} (h : Unkicked s k i visited t)
    (h_rq : rq ∉ (t.fq k).all) (h_next : nextSeq (s.seq rq) = some next)
    (h_u : u.fq k = (t.fq k).moveNext rq next) : Unkicked s k i (visited ++ [rq]) u := by
  have h_del := FlushQueue.listDel_of_notMem h_rq
  have h_post : (∃ x ∈ visited ++ [rq], nextSeq (s.seq x) = some .postflush) ↔
      (∃ x ∈ visited, nextSeq (s.seq x) = some .postflush) ∨ next = .postflush := by
    simp [or_and_right, exists_or, h_next]
  have h_data : (∀ x ∈ visited ++ [rq], nextSeq (s.seq x) ≠ some .data) ↔
      (∀ x ∈ visited, nextSeq (s.seq x) ≠ some .data) ∧ next ≠ .data := by
    simp [or_imp, forall_and, h_next]
  cases next with
  -- nothing comes before PREFLUSH
  | preflush => exact absurd h_next (nextSeq_ne_preflush _)
  | postflush =>
      have h_list : ((t.fq k).moveToPending rq).pending = (t.fq k).pending ++ [rq] := by
        have h_queue := FlushQueue.moveToPending_queue h_rq (t.fq k).flushPendingIdx
        rwa [if_pos rfl] at h_queue
      have h_ne : Fseq.postflush ≠ .data := by decide
      rw [FlushQueue.moveNext] at h_u
      rw [and_iff_left h_ne] at h_data
      refine ⟨?_, ?_, ?_⟩
      · rw [h_u]
        exact h.idx
      · rw [h_u, h_list, h_post]
        simp
      · rw [h_u, h_data, FlushQueue.moveToPending, h_del]
        exact h.data
  | data =>
      have h_ne : Fseq.data ≠ .postflush := by decide
      rw [FlushQueue.moveNext, FlushQueue.moveToData, h_del] at h_u
      rw [or_iff_left h_ne] at h_post
      refine ⟨?_, ?_, ?_⟩
      · rw [h_u]
        exact h.idx
      · rw [h_u, h_post]
        exact h.pending
      · rw [h_u, h_data]
        simp
  | done =>
      have h_ne : Fseq.done ≠ .postflush ∧ Fseq.done ≠ .data := by decide
      rw [FlushQueue.moveNext, h_del] at h_u
      rw [or_iff_left h_ne.1] at h_post
      rw [and_iff_left h_ne.2] at h_data
      refine ⟨?_, ?_, ?_⟩
      · rw [h_u]
        exact h.idx
      · rw [h_u, h_post]
        exact h.pending
      · rw [h_u, h_data]
        exact h.data

/-- What one more turn does when no flush was issued before. -/
theorem Unkicked.turn {u : State} {next : Fseq} (h : Unkicked s k i visited t)
    (h_rq : rq ∉ (t.fq k).all) (h_next : nextSeq (s.seq rq) = some next)
    (h_u : u.fq k = (t.fq k).moveNext rq next) :
    Unkicked s k i (visited ++ [rq]) (blkKickFlush u k (late visited.length)) ∨
      Kicks s k late (visited ++ [rq]) := by
  have h_u' := h.move h_rq h_next h_u
  rcases kick_cases u k (late visited.length) with h_same | ⟨h_list, h_late⟩
  · rw [h_same]
    exact .inl h_u'
  · refine .inr ⟨List.append_ne_nil_of_right_ne_nil _ (List.cons_ne_nil _ _), ?_, ?_⟩
    · exact h_u'.pending.mp h_list
    · rw [List.length_append, List.length_singleton, Nat.add_sub_cancel, ← h_u'.data]
      exact h_late

/-- The step that was performed for the request whose turn it is. -/
theorem Loop.performed (h : Loop s k i error late visited (rq :: rest) t) :
    ∃ cur, blkFlushCurSeq (t.seq rq) = some cur ∧ (cur = .preflush ∨ cur = .postflush) ∧
      nextSeq (s.seq rq) = blkFlushCurSeq ((t.seq rq).or (.bit cur)) := by
  have h_rq : rq ∈ rq :: rest := List.mem_cons_self ..
  rw [← h.seq rq h_rq]
  rcases h.waits rq h_rq with h_cur | h_cur
  · exact ⟨_, h_cur, .inl rfl, nextSeq_of_cur h_cur⟩
  · exact ⟨_, h_cur, .inr rfl, nextSeq_of_cur h_cur⟩

/-- The request gets its place. -/
theorem Loop.completes {cur : Fseq} (h : Loop s k i error late visited (rq :: rest) t)
    (h_cur : blkFlushCurSeq (t.seq rq) = some cur) (h_flush : cur = .preflush ∨ cur = .postflush) :
    Returns (blkFlushCompleteSeq t k rq (.bit cur) error (late visited.length)) (Inv · rest) := by
  have h_rq : rq ∈ rq :: rest := List.mem_cons_self ..
  obtain rfl := h.key rq h_rq
  apply completeSeq_inv _ h.inv (meets_cur h_cur)
  intro h_error
  obtain ⟨h_progress, h_log⟩ := h.progress h_error rq h_rq
  obtain ⟨h_step, h_completed⟩ := progress_step h_progress h_cur
    (by rcases h_flush with rfl | rfl <;> exact nofun)
  rw [h_log, h_completed, h_cur]
  exact ⟨h_step, rfl⟩

/-- It is not put on the list behind the others. -/
theorem Loop.notBehind {next : Fseq} (h : Loop s k i error late visited (rq :: rest) t)
    (h_orderly : error = 0 → rest ≠ [] → nextSeq (s.seq rq) = some .postflush →
      ∀ a, a <+: visited → ¬ Kicks s k late a)
    (h_next : (if error = 0 then nextSeq (s.seq rq) else some .done) = some next)
    (h_wait : next = .preflush ∨ next = .postflush) :
    rest = [] ∨ (t.fq k).flushPendingIdx ≠ i := by
  by_cases h_error : error = 0
  · rw [if_pos h_error] at h_next
    have h_post : next = .postflush := by
      refine h_wait.resolve_left fun h_pre => ?_
      rw [h_pre] at h_next
      exact nextSeq_ne_preflush _ h_next
    rw [h_post] at h_next
    by_cases h_nil : rest = []
    · exact .inl h_nil
    · rcases h.kicks h_error with h_unkicked | ⟨a, h_a, h_kicks⟩
      · rw [h_unkicked.idx]
        exact .inr (by simp)
      · exact absurd h_kicks (h_orderly h_error h_nil h_next a h_a)
  · rw [if_neg h_error] at h_next
    rcases h_wait with rfl | rfl <;> cases h_next

/-- The others are held back as before. -/
theorem Loop.next {u : State} {next : Fseq} (h : Loop s k i error late visited (rq :: rest) t)
    (h_inv : Inv (blkKickFlush u k (late visited.length)) rest)
    (h_u : u.fq k = (t.fq k).moveNext rq next)
    (h_next : (if error = 0 then nextSeq (s.seq rq) else some .done) = some next)
    (h_idx : next = .preflush ∨ next = .postflush → rest = [] ∨ (t.fq k).flushPendingIdx ≠ i)
    (h_policy : (blkKickFlush u k (late visited.length)).policy = t.policy)
    (h_log : (blkKickFlush u k (late visited.length)).log = t.log)
    (h_seq : ∀ x, x ≠ rq → (blkKickFlush u k (late visited.length)).seq x = t.seq x) :
    Loop s k i error late (visited ++ [rq]) rest (blkKickFlush u k (late visited.length)) := by
  obtain ⟨h_queue, h_running⟩ := kick_lists u k (late visited.length)
  have h_all := (h.inv.notMem_all (.inl (List.mem_cons_self ..))).1 k
  obtain ⟨h_rest, h_nodup⟩ := List.nodup_cons.mp h.nodup
  have h_mem {x : Request} (h_x : x ∈ rest) : x ∈ rq :: rest := List.mem_cons_of_mem _ h_x
  have h_same {x : Request} (h_x : x ∈ rest) :
      (blkKickFlush u k (late visited.length)).seq x = t.seq x := by
    apply h_seq
    rintro rfl
    exact h_rest h_x
  refine ⟨h_inv, h_nodup, ?_, fun h_some => ?_, fun x h_x => h.key x (h_mem h_x), fun x h_x => ?_,
    fun x h_x => ?_, fun h_error x h_x => ?_, fun h_error => ?_⟩
  · rw [h_running, h_u, FlushQueue.moveNext_runningIdx]
    exact h.idx
  · rw [h_queue, h_u]
    rw [FlushQueue.moveNext_queue h_all fun h_wait => (h_idx h_wait).resolve_left h_some]
    exact h.empty (List.cons_ne_nil _ _)
  · rw [h_same h_x]
    exact h.seq x (h_mem h_x)
  · rw [h_same h_x]
    exact h.waits x (h_mem h_x)
  · rw [h_policy, h_log, h_same h_x]
    exact h.progress h_error x (h_mem h_x)
  · -- the first flush that is issued stays noted
    rcases h.kicks h_error with h_unkicked | ⟨a, h_a, h_kicks⟩
    · rw [if_pos h_error] at h_next
      refine (h_unkicked.turn h_all h_next h_u).imp_right fun h_kicks => ?_
      exact ⟨_, List.prefix_refl _, h_kicks⟩
    · exact .inr ⟨a, h_a.trans (List.prefix_append _ _), h_kicks⟩

/-- One turn. -/
theorem Loop.turn (h : Loop s k i error late visited (rq :: rest) t)
    (h_orderly : error = 0 → rest ≠ [] → nextSeq (s.seq rq) = some .postflush →
      ∀ a, a <+: visited → ¬ Kicks s k late a) :
    Returns (flushEndTurn k error late (visited.length, t.onto k i (rq :: rest)) rq) fun r =>
      ∃ t', r = ((visited ++ [rq]).length, t'.onto k i rest) ∧
        Loop s k i error late (visited ++ [rq]) rest t' := by
  have h_all := (h.inv.notMem_all (.inl (List.mem_cons_self ..))).1 k
  have h_rest := (List.nodup_cons.mp h.nodup).1
  obtain ⟨cur, h_cur, h_flush, h_nextSeq⟩ := h.performed
  obtain ⟨t', h_eq, h_inv⟩ := h.completes h_cur h_flush
  obtain ⟨h_policy, h_log, h_seq⟩ := completeSeq_frame h_eq
  obtain ⟨next, u, h_some, h_u, rfl⟩ := completeSeq_cases h_eq
  have h_next := h_some
  rw [← h_nextSeq] at h_next
  have h_idx := h.notBehind h_orderly h_next
  have h_turn : blkFlushCompleteSeq (t.onto k i (rq :: rest)) k rq (.bit cur) error
      (late visited.length) =
        some ((blkKickFlush u k (late visited.length)).onto k i rest) := by
    rw [State.onto, completeSeq_congr (FlushQueue.onto_cons_listDel h_all h_rest),
      ← State.onto, completeSeq_onto h_all h_rest h.idx, h_eq]
    · rfl
    · intro next' h_next' h_wait
      rw [h_some] at h_next'
      cases h_next'
      exact h_idx h_wait
  refine ⟨(visited.length + 1, (blkKickFlush u k (late visited.length)).onto k i rest),
    ?_, blkKickFlush u k (late visited.length), ?_, ?_⟩
  · have h_onto : (t.onto k i (rq :: rest)).seq rq = t.seq rq := rfl
    rw [flushEndTurn]
    dsimp only
    rw [h_onto, h_cur, Option.bind_some, if_pos h_flush, h_turn]
    rfl
  · rw [List.length_append, List.length_singleton]
  · exact h.next h_inv h_u h_next h_idx h_policy h_log h_seq

/-- The loop visits each request once. -/
theorem Loop.run {running : List Request} (h : Loop s k i error late [] running t)
    (h_orderly : error = 0 → ∀ a rq b, running = a ++ rq :: b → b ≠ [] →
      nextSeq (s.seq rq) = some .postflush → ∀ a', a' <+: a → ¬ Kicks s k late a') :
    Returns (forEachSafe (fun r => (r.2.fq k).flushQueue i) (flushEndTurn k error late)
      (2 * running.length) running.head? (0, t.onto k i running)) fun r => Inv r.2 [] := by
  refine Returns.mono (SafeTraversal.forEachSafe_returns
    (R := fun rest r => ∃ visited t', running = visited ++ rest ∧
      r = (visited.length, t'.onto k i rest) ∧ Loop s k i error late visited rest t')
    (fun x rest r h_r => ?_) (fun x rest r h_r => ?_) running
    (Nat.le_mul_of_pos_left _ Nat.two_pos) ⟨[], t, rfl, rfl, h⟩) ?_
  · -- the list shows the requests that are still to be visited
    obtain ⟨visited, t', -, rfl, h_loop⟩ := h_r
    dsimp only
    rw [State.onto, State.setFq_fq_self, FlushQueue.onto_queue_self,
      h_loop.empty (List.cons_ne_nil _ _), List.append_nil]
  · obtain ⟨visited, t', h_running, rfl, h_loop⟩ := h_r
    have h_turn := h_loop.turn fun h_error h_some h_post =>
      h_orderly h_error visited x rest h_running h_some h_post
    apply h_turn.mono
    rintro r ⟨t'', rfl, h_next⟩
    refine ⟨visited ++ [x], t'', ?_, rfl, h_next⟩
    rw [h_running, List.append_assoc, List.singleton_append]
  · rintro r ⟨visited, t', -, rfl, h_loop⟩
    rw [State.onto_nil]
    exact h_loop.inv

end Loop

/-! ## `flush_end_io` -/

/-- A flush queue whose flush has ended, with its requests taken off. -/
def FlushQueue.settled (fq : FlushQueue) : FlushQueue :=
  { fq with
    flushQueue := Function.update fq.flushQueue fq.flushRunningIdx []
    flushRunningIdx := !fq.flushRunningIdx
    rqStatus := 0
    flushRq := { fq.flushRq with ref := 0 }
    inFlight := fq.inFlight - 1
    device := none }

section FlushEnd

variable {s : State} {k : Key} {error : Nat} {late : Nat → Bool}

/-- Some reference is left. -/
theorem flushEndIo_put
    (h_key : blkBlexGetFlushQueue (s.fq k).flushRq.mqHctx (s.fq k).flushRq.mqCtxCpu = k)
    (h_ref : (s.fq k).flushRq.ref ≠ 1) :
    flushEndIo s k error late = some (s.setFq k { s.fq k with
      flushRq := { (s.fq k).flushRq with ref := (s.fq k).flushRq.ref - 1 }
      rqStatus := error }) := by
  rw [flushEndIo]
  dsimp only
  rw [h_key, if_pos h_ref, State.setFq_fq_self, State.setFq_setFq]

theorem flushEndIo_last
    (h_key : blkBlexGetFlushQueue (s.fq k).flushRq.mqHctx (s.fq k).flushRq.mqCtxCpu = k)
    (h_ref : (s.fq k).flushRq.ref = 1)
    (h_idx : (s.fq k).flushPendingIdx ≠ (s.fq k).flushRunningIdx) :
    flushEndIo s k error late =
      (forEachSafe (fun r => (r.2.fq k).flushQueue (s.fq k).flushRunningIdx)
        (flushEndTurn k (if (s.fq k).rqStatus ≠ 0 then (s.fq k).rqStatus else error) late)
        (2 * (s.fq k).running.length) (s.fq k).running.head?
        (0, (s.setFq k (s.fq k).settled).onto k (s.fq k).flushRunningIdx
          (s.fq k).running)).map (·.2) := by
  have h_onto : (s.setFq k (s.fq k).settled).onto k (s.fq k).flushRunningIdx (s.fq k).running =
      s.setFq k { s.fq k with
        flushRunningIdx := !(s.fq k).flushRunningIdx
        rqStatus := 0
        flushRq := { (s.fq k).flushRq with ref := 0 }
        inFlight := (s.fq k).inFlight - 1
        device := none } := by
    rw [State.onto, State.setFq_fq_self, State.setFq_setFq, FlushQueue.onto, FlushQueue.settled]
    dsimp only
    rw [Function.update_idem, Function.update_self, List.append_nil, FlushQueue.running,
      Function.update_eq_self]
  rw [h_onto, flushEndIo]
  dsimp only
  rw [h_key, if_neg (not_not.mpr h_ref), State.setFq_fq_self, if_neg h_idx, State.setFq_setFq,
    h_ref]
  rfl

/-- The list is taken off. -/
theorem FlushQueue.settled_all (fq : FlushQueue) :
    (fq.settled.all ++ fq.running).Perm fq.all := by
  rw [FlushQueue.settled, FlushQueue.all, FlushQueue.all, FlushQueue.running]
  cases fq.flushRunningIdx with
  | false =>
      have h_perm := @List.perm_append_comm _ (fq.flushQueue true ++ fq.flushDataInFlight)
        (fq.flushQueue false)
      simpa using h_perm
  | true =>
      have h_perm := (@List.perm_append_comm _ fq.flushDataInFlight
        (fq.flushQueue true)).append_left (fq.flushQueue false)
      simpa using h_perm

theorem FlushQueue.settled_queue (fq : FlushQueue) (i : Bool) :
    fq.settled.flushQueue i = if i = fq.flushRunningIdx then [] else fq.flushQueue i := by
  rw [FlushQueue.settled]
  exact Function.update_apply ..

variable {seq policy : Request → FseqMask} {log log' : Request → List Fseq} {fq : FlushQueue}

theorem FqInv.settled (h : FqInv seq policy log k fq) (h_flying : fq.Flying k)
    (h_nodup : fq.all.Nodup) (h_log : ∀ x, x ∉ fq.running → log' x = log x) :
    FqInv seq policy log' k { fq.settled with iterators := 0 } := by
  have h_all {x : Request} (h_x : x ∈ fq.settled.all) : x ∈ fq.all ∧ x ∉ fq.running := by
    refine ⟨fq.settled_all.subset (List.mem_append_left _ h_x), fun h_running => ?_⟩
    have h_split := (fq.settled_all.nodup_iff.mpr h_nodup)
    exact (List.nodup_append.mp h_split).2.2 x h_x x h_running rfl
  refine ⟨fun x h_x => h.key x (h_all h_x).1, fun i x h_x => ?_, h.data, .inl ?_,
    fun x h_x => h.progress x (h_all h_x).1, fun x h_x => ?_⟩
  · dsimp only at h_x
    rw [FlushQueue.settled_queue] at h_x
    split at h_x
    · cases h_x
    · exact h.waits i x h_x
  · refine ⟨h_flying.idx, ?_, rfl, rfl, ?_, rfl, rfl⟩
    · show fq.settled.flushQueue (!fq.flushPendingIdx) = []
      rw [FlushQueue.settled_queue, h_flying.idx, Bool.not_not, if_pos rfl]
    · show fq.inFlight - 1 = 0
      rw [h_flying.inFlight]
  · obtain ⟨h_fq, h_running⟩ := h_all h_x
    have h_before := h.log x h_fq
    rw [if_neg fun h_answered => h_running h_answered.2] at h_before
    rw [h_log x h_running, h_before, if_neg]
    rintro ⟨h_device, -⟩
    cases h_device

/-- The loop starts with the requests of the flush held back. -/
theorem Inv.settled (h : Inv s []) (h_flying : (s.fq k).Flying k)
    (h_out : ∀ x, x ∉ (s.fq k).running → log' x = s.log x)
    (h_in : error = 0 → ∀ x ∈ (s.fq k).running,
      log' x = completed (s.policy x) (s.seq x) ++ (blkFlushCurSeq (s.seq x)).toList) :
    Loop s k (s.fq k).flushRunningIdx error late [] (s.fq k).running
      { s.setFq k { (s.fq k).settled with iterators := 0 } with log := log' } := by
  have h_fq := h.fq k
  have h_nodup := h.nodup k
  have h_mem {x : Request} (h_x : x ∈ (s.fq k).running) : x ∈ (s.fq k).all :=
    FlushQueue.mem_all_of_queue h_x
  have h_start : ({ s.setFq k { (s.fq k).settled with iterators := 0 } with
      log := log' } : State).fq k = { (s.fq k).settled with iterators := 0 } :=
    State.setFq_fq_self
  refine ⟨?_, ?_, ?_, fun _ => ?_, fun x h_x => h_fq.key x (h_mem h_x), fun _ _ => rfl,
    fun x h_x => h_fq.waits _ x h_x, fun h_error x h_x => ?_, fun _ => .inl ⟨?_, ?_, ?_⟩⟩
  · apply h.place (h_fq.settled h_flying h_nodup h_out)
    · intro x _
      rw [List.count_nil, Nat.add_zero, ← (s.fq k).settled_all.count_eq, List.count_append]
      rfl
    · intro x h_x
      exact List.count_eq_zero_of_not_mem fun h_running => h_x (h_fq.key x (h_mem h_running))
    · intro x h_x
      rw [← h_x]
      exact h.data x
    · exact fun _ _ => rfl
    · exact fun x h_x => h_out x fun h_running => h_x (h_mem h_running)
  · have h_split := (s.fq k).settled_all.nodup_iff.mpr h_nodup
    exact (List.nodup_append.mp h_split).2.1
  · rw [h_start]
    rfl
  · rw [h_start]
    show (s.fq k).settled.flushQueue (s.fq k).flushRunningIdx = []
    rw [FlushQueue.settled_queue, if_pos rfl]
  · exact ⟨h_fq.progress x (h_mem h_x), h_in h_error x h_x⟩
  · rw [h_start]
    exact h_flying.idx
  · rw [h_start]
    have h_pending : ({ (s.fq k).settled with iterators := 0 } : FlushQueue).pending =
        (s.fq k).pending := by
      show (s.fq k).settled.flushQueue (s.fq k).flushPendingIdx = _
      rw [FlushQueue.settled_queue, if_neg (by simp [h_flying.idx])]
      rfl
    rw [h_pending]
    simp
  · rw [h_start]
    simp [FlushQueue.settled]

/-- The state when `flush_end_io` is called: `iterators` is the number of references that
iterators still have, and `log` takes account of the device's answer `device`. -/
def State.ending (s : State) (k : Key) (iterators : Nat) (device : Option Nat)
    (log : Request → List Fseq) : State :=
  { s.setFq k { s.fq k with iterators, device } with log }

section Ending

variable {iterators : Nat} {device : Option Nat}

theorem State.ending_fq :
    (s.ending k iterators device log').fq k = { s.fq k with iterators, device } :=
  State.setFq_fq_self

theorem State.ending_setFq :
    (s.ending k iterators device log').setFq k fq = { s.setFq k fq with log := log' } := by
  simp only [State.ending, State.setFq, Function.update_idem]

/-- A reference is dropped, and the status that is noted is in keeping with the answer. -/
theorem FqInv.put (h : FqInv seq policy log k fq) (h_flying : fq.Flying k)
    (h_ref : fq.flushRq.ref = iterators + (if device = none then 1 else 0) + 1)
    (h_one : fq.flushRq.ref ≠ 1)
    (h_out : ∀ x, x ∉ fq.running → log' x = log x)
    (h_in : ∀ x ∈ fq.running, log' x = completed (policy x) (seq x) ++
      if device = some 0 then (blkFlushCurSeq (seq x)).toList else [])
    (h_error : error = device.getD 0) :
    FqInv seq policy log' k { fq with
      iterators, device
      flushRq := { fq.flushRq with ref := fq.flushRq.ref - 1 }
      rqStatus := error } := by
  refine ⟨h.key, h.waits, h.data, .inr ⟨h_flying.idx, ?_, ?_, h_flying.key,
    h_flying.inFlight, h_flying.flushing, h_error⟩, h.progress, fun x h_x => ?_⟩
  · dsimp only
    omega
  · have h_pos := h_flying.ref_ne
    dsimp only
    omega
  · -- what the device answered concerns the requests of the flush
    by_cases h_running : x ∈ fq.running
    · rw [h_in x h_running]
      congr 1
      exact if_congr (iff_self_and.mpr fun _ => h_running) rfl rfl
    · have h_before := h.log x h_x
      rw [if_neg fun h_answered => h_running h_answered.2] at h_before
      rw [h_out x h_running, h_before, if_neg fun h_answered => h_running h_answered.2]

theorem flushEndIo_put_inv (h : Inv s []) (h_flying : (s.fq k).Flying k)
    (h_ref : (s.fq k).flushRq.ref = iterators + (if device = none then 1 else 0) + 1)
    (h_one : (s.fq k).flushRq.ref ≠ 1)
    (h_out : ∀ x, x ∉ (s.fq k).running → log' x = s.log x)
    (h_in : ∀ x ∈ (s.fq k).running, log' x = completed (s.policy x) (s.seq x) ++
      if device = some 0 then (blkFlushCurSeq (s.seq x)).toList else [])
    (h_error : error = device.getD 0) :
    Returns (flushEndIo (s.ending k iterators device log') k error late) (Inv · []) := by
  rw [flushEndIo_put (by rw [State.ending_fq]; exact h_flying.key)
    (by rw [State.ending_fq]; exact h_one), State.ending_fq, State.ending_setFq]
  apply Returns.some
  apply h.place ((h.fq k).put h_flying h_ref h_one h_out h_in h_error)
  · exact fun _ _ => rfl
  · exact fun _ _ => rfl
  · intro x h_x
    rw [← h_x]
    exact h.data x
  · exact fun _ _ => rfl
  · exact fun x h_x => h_out x fun h_running => h_x (FlushQueue.mem_all_of_queue h_running)

theorem flushEndIo_last_inv (h : Inv s []) (h_flying : (s.fq k).Flying k)
    (h_ref : (s.fq k).flushRq.ref = iterators + (if device = none then 1 else 0) + 1)
    (h_one : (s.fq k).flushRq.ref = 1)
    (h_out : ∀ x, x ∉ (s.fq k).running → log' x = s.log x)
    (h_in : ∀ x ∈ (s.fq k).running, log' x = completed (s.policy x) (s.seq x) ++
      if device = some 0 then (blkFlushCurSeq (s.seq x)).toList else [])
    (h_error : (if (s.fq k).rqStatus ≠ 0 then (s.fq k).rqStatus else error) = device.getD 0)
    (h_orderly : Orderly s k (device.getD 0) late) :
    Returns (flushEndIo (s.ending k iterators device log') k error late) (Inv · []) := by
  have h_idx : (s.fq k).flushPendingIdx ≠ (s.fq k).flushRunningIdx := by simp [h_flying.idx]
  -- the reference is that of the driver
  have h_iterators : iterators = 0 := by omega
  have h_device : device ≠ none := by
    intro h_none
    rw [if_pos h_none] at h_ref
    omega
  rw [flushEndIo_last (by rw [State.ending_fq]; exact h_flying.key)
    (by rw [State.ending_fq]; exact h_one) (by rw [State.ending_fq]; exact h_idx),
    State.ending_fq, State.ending_setFq]
  dsimp only
  rw [h_error, h_iterators]
  apply Returns.map (P := fun r => Inv r.2 [])
  · apply Loop.run _ h_orderly
    apply h.settled h_flying h_out
    intro h_ok x h_x
    have h_zero : device = some 0 := by
      obtain ⟨st, rfl⟩ := Option.ne_none_iff_exists'.mp h_device
      exact congrArg some h_ok
    rw [h_in x h_x, if_pos h_zero]
  · exact fun _ h_inv => h_inv

/-- `flush_end_io`, called with a status that is in keeping with the device's answer. -/
theorem flushEndIo_inv (h : Inv s []) (h_flying : (s.fq k).Flying k)
    (h_ref : (s.fq k).flushRq.ref = iterators + (if device = none then 1 else 0) + 1)
    (h_out : ∀ x, x ∉ (s.fq k).running → log' x = s.log x)
    (h_in : ∀ x ∈ (s.fq k).running, log' x = completed (s.policy x) (s.seq x) ++
      if device = some 0 then (blkFlushCurSeq (s.seq x)).toList else [])
    (h_put : (s.fq k).flushRq.ref ≠ 1 → error = device.getD 0)
    (h_last : (s.fq k).flushRq.ref = 1 →
      (if (s.fq k).rqStatus ≠ 0 then (s.fq k).rqStatus else error) = device.getD 0 ∧
        Orderly s k (device.getD 0) late) :
    Returns (flushEndIo (s.ending k iterators device log') k error late) (Inv · []) := by
  by_cases h_one : (s.fq k).flushRq.ref = 1
  · obtain ⟨h_error, h_orderly⟩ := h_last h_one
    exact flushEndIo_last_inv h h_flying h_ref h_one h_out h_in h_error h_orderly
  · exact flushEndIo_put_inv h h_flying h_ref h_one h_out h_in (h_put h_one)

end Ending

end FlushEnd

/-! ## The events -/

section Events

variable {s : State} {k : Key} {rq : Request} {error : Nat}

/-- A new request is held until it gets its place. -/
theorem Inv.register (h : Inv s []) (h_rq : rq ∉ s.inserted) (policy : FseqMask) :
    Inv { s with
      inserted := s.inserted ++ [rq]
      policy := Function.update s.policy rq policy } [rq] := by
  have h_policy {x : Request} (h_x : x ∈ s.inserted) :
      Function.update s.policy rq policy x = s.policy x := by
    apply Function.update_of_ne
    rintro rfl
    exact h_rq h_x
  refine ⟨fun k => ?_, fun x => ?_, h.data, fun x h_x => ?_, fun x h_x => ?_, fun x h_x => ?_,
    h.acts⟩
  · apply (h.fq k).congr
    exact fun x h_x => ⟨rfl, h_policy (h.inserted_of_mem h_x), rfl⟩
  · have h_places := h.places x
    dsimp only
    rw [List.count_nil] at h_places
    by_cases h_eq : x = rq
    · subst h_eq
      rw [if_neg h_rq] at h_places
      rw [List.count_singleton_self, if_pos (List.mem_append_right _ (List.mem_singleton_self _))]
      omega
    · have h_mem : x ∈ s.inserted ++ [rq] ↔ x ∈ s.inserted := by
        rw [List.mem_append, List.mem_singleton, or_iff_left h_eq]
      rw [List.count_eq_zero_of_not_mem (mt List.mem_singleton.mp h_eq), h_places]
      exact if_congr h_mem.symm rfl rfl
  · dsimp only
    rw [h_policy (h.notMem_all (.inr (.inl h_x))).2]
    exact h.direct x h_x
  · exact h.fresh x fun h_mem => h_x (List.mem_append_left _ h_mem)
  · dsimp only
    rw [h_policy (h.notMem_all (.inr (.inr (List.mem_map_of_mem h_x)))).2]
    exact h.ended x h_x

/-- A held request is given to the driver as it is. -/
theorem Inv.toDirect (h : Inv s [rq]) (h_steps : steps (s.policy rq) = [.data])
    (h_log : s.log rq = []) : Inv { s with direct := s.direct ++ [rq] } [] where
  fq := h.fq
  places x := by
    have h_places := h.places x
    rw [← h_places, List.count_append, List.count_nil]
    dsimp only
    omega
  data := h.data
  direct x h_x := by
    rcases List.mem_append.mp h_x with h_x | h_x
    · exact h.direct x h_x
    · rw [List.mem_singleton.mp h_x]
      exact ⟨h_steps, h_log⟩
  fresh := h.fresh
  ended := h.ended
  acts := h.acts

theorem insert_inv (h : Inv s []) (h_rq : rq ∉ s.inserted) (wc fua late : Bool) :
    Returns (blkInsertFlush s rq wc fua late) (Inv · []) := by
  have h_new := h.register h_rq (blkFlushPolicy wc fua rq)
  have h_log := h.fresh rq h_rq
  have h_policy : Function.update s.policy rq (blkFlushPolicy wc fua rq) rq =
    blkFlushPolicy wc fua rq := Function.update_self ..
  rw [blkInsertFlush]
  generalize blkFlushPolicy wc fua rq = policy at h_new h_policy ⊢
  dsimp only
  split
  case isTrue h_empty =>
    -- ended at once
    apply Returns.some
    apply h_new.endHeld
    intro _
    dsimp only
    rw [h_policy, h_log, h_empty]
    rfl
  split
  case isTrue h_data =>
    -- no flush is needed
    apply Returns.some
    apply h_new.toDirect _ h_log
    dsimp only
    rw [h_policy]
    obtain ⟨h_data, h_flush⟩ := h_data
    rw [not_or, Bool.not_eq_true, Bool.not_eq_true] at h_flush
    simp [steps, FseqMask.has, h_data, h_flush]
  case isFalse =>
    -- what the policy leaves out is completed from the start
    have h_seq := h_new.note (List.mem_singleton_self rq)
      (fun x h_x => Function.update_of_ne h_x FseqMask.empty s.seq) fun _ _ => rfl
    have h_empty : Function.update s.seq rq FseqMask.empty rq = .empty := Function.update_self ..
    apply completeSeq_inv late h_seq
    · dsimp only
      rw [h_empty]
      exact empty_meets _
    · intro _
      obtain ⟨h_progress, h_completed⟩ := progress_start policy
      dsimp only
      rw [h_empty, empty_or, h_policy, h_completed]
      exact ⟨h_progress, h_log⟩

theorem FlushQueue.notMem_queue {fq : FlushQueue} (h_nodup : fq.all.Nodup)
    (h_rq : rq ∈ fq.flushDataInFlight) (i : Bool) : rq ∉ fq.flushQueue i := by
  intro h_i
  have h_both : rq ∈ fq.flushQueue false ++ fq.flushQueue true := by
    cases i with
    | false => exact List.mem_append_left _ h_i
    | true => exact List.mem_append_right _ h_i
  exact (List.nodup_append.mp h_nodup).2.2 rq h_both rq h_rq rfl

/-- A request whose data completes is taken off its list. -/
theorem FlushQueue.listDel_data {fq : FlushQueue} (h_nodup : fq.all.Nodup)
    (h_rq : rq ∈ fq.flushDataInFlight) :
    fq.listDel rq = { fq with flushDataInFlight := fq.flushDataInFlight.erase rq } := by
  have h_queue (i : Bool) : (fq.flushQueue i).erase rq = fq.flushQueue i :=
    List.erase_of_not_mem (FlushQueue.notMem_queue h_nodup h_rq i)
  rw [FlushQueue.listDel, funext h_queue]

theorem FqInv.eraseData {seq policy : Request → FseqMask} {log : Request → List Fseq}
    {fq : FlushQueue} (h : FqInv seq policy log k fq) (rq : Request) :
    FqInv seq policy log k { fq with flushDataInFlight := fq.flushDataInFlight.erase rq } := by
  have h_all {x : Request} (h_x : x ∈ FlushQueue.all { fq with
      flushDataInFlight := fq.flushDataInFlight.erase rq }) : x ∈ fq.all := by
    rw [FlushQueue.mem_all] at h_x ⊢
    exact h_x.imp_right List.mem_of_mem_erase
  exact ⟨fun x h_x => h.key x (h_all h_x), h.waits,
    fun x h_x => h.data x (List.mem_of_mem_erase h_x), h.phase.imp (·.data _) (·.data _),
    fun x h_x => h.progress x (h_all h_x), fun x h_x => h.log x (h_all h_x)⟩

/-- A request that is with the driver for its DATA step. -/
theorem Inv.data_mem (h : Inv s []) (h_rq : rq ∈ s.data) :
    rq ∈ (s.fq rq.key).flushDataInFlight := by
  rw [← List.count_pos_iff, ← h.data rq]
  exact List.count_pos_iff.mpr h_rq

theorem Inv.takeData (h : Inv s []) (h_rq : rq ∈ s.data) :
    Inv { s.setFq rq.key ((s.fq rq.key).listDel rq) with data := s.data.erase rq } [rq] := by
  have h_list := h.data_mem h_rq
  rw [FlushQueue.listDel_data (h.nodup rq.key) h_list]
  have h_count {l : List Request} (h_l : rq ∈ l) (x : Request) :
      (l.erase rq).count x + [rq].count x = l.count x := by
    rw [(List.perm_cons_erase h_l).count_eq, List.count_cons, List.count_cons, List.count_nil,
      Nat.zero_add]
  apply h.place ((h.fq rq.key).eraseData rq)
  · intro x _
    have h_data := h_count h_list x
    simp only [FlushQueue.all, List.count_append, List.count_nil]
    omega
  · intro x h_x
    exact List.count_eq_zero_of_not_mem fun h_mem => h_x (by rw [List.mem_singleton.mp h_mem])
  · intro x h_x
    have h_data := h.data x
    have h_before := h_count h_rq x
    have h_after := h_count h_list x
    rw [h_x] at h_data
    dsimp only
    omega
  · intro x h_x
    rw [← h_count h_rq x, List.count_eq_zero_of_not_mem (a := x) (l := [rq]), Nat.add_zero]
    exact fun h_mem => h_x (by rw [List.mem_singleton.mp h_mem])
  · exact fun _ _ => rfl

/-- The list that the request is on makes no difference. -/
theorem completeSeq_off {seq : FseqMask} {late : Bool} (h_nodup : (s.fq k).all.Nodup) :
    blkFlushCompleteSeq s k rq seq error late =
      blkFlushCompleteSeq (s.setFq k ((s.fq k).listDel rq)) k rq seq error late := by
  have h_del := FlushQueue.listDel_of_notMem (@FlushQueue.notMem_listDel (s.fq k) rq h_nodup)
  calc blkFlushCompleteSeq s k rq seq error late
      = blkFlushCompleteSeq (s.setFq k (s.fq k)) k rq seq error late := by rw [State.setFq_self]
    _ = _ := completeSeq_congr h_del.symm

theorem dataEnd_inv (h : Inv s []) (h_rq : rq ∈ s.data) (late : Bool) :
    Returns (mqFlushDataEndIo { s.dataDone rq error with data := s.data.erase rq } rq error late)
      (Inv · []) := by
  have h_fq := h.fq rq.key
  have h_list := h.data_mem h_rq
  have h_all := FlushQueue.mem_all_of_data h_list
  have h_nodup := h.nodup rq.key
  have h_log := h_fq.log rq h_all
  rw [if_neg fun h_answered => FlushQueue.notMem_queue h_nodup h_list _ h_answered.2,
    List.append_nil] at h_log
  have h_cur := h_fq.data rq h_list
  -- off its list and with its log
  have h_taken := (h.takeData h_rq).note (List.mem_singleton_self rq) (fun _ _ => rfl)
    fun x h_x => Function.update_of_ne h_x (if error = 0 then s.log rq ++ [.data] else s.log rq)
      s.log
  have h_off := @completeSeq_off { s.dataDone rq error with data := s.data.erase rq } rq.key rq
    error (.bit .data) late h_nodup
  rw [mqFlushDataEndIo, ← Request.key, h_off]
  apply completeSeq_inv late h_taken (meets_cur h_cur)
  intro h_error
  obtain ⟨h_progress, h_completed⟩ := progress_step (h_fq.progress rq h_all) h_cur nofun
  refine ⟨h_progress, ?_⟩
  dsimp only
  rw [Function.update_self, if_pos h_error, h_log]
  exact h_completed.symm

/-- A request that the driver has as it is. -/
theorem directEnd_inv (h : Inv s []) (h_rq : rq ∈ s.direct) :
    Inv { s.dataDone rq error with
      direct := s.direct.erase rq
      ended := s.ended ++ [(rq, error)] } [] := by
  obtain ⟨h_steps, h_log⟩ := h.direct rq h_rq
  have h_taken : Inv { s with direct := s.direct.erase rq } [rq] := by
    refine ⟨h.fq, fun x => ?_, h.data, fun x h_x => h.direct x (List.mem_of_mem_erase h_x),
      h.fresh, h.ended, h.acts⟩
    have h_places := h.places x
    rw [← h_places, (List.perm_cons_erase h_rq).count_eq]
    simp only [List.count_cons, List.count_nil]
    omega
  have h_note := h_taken.note (List.mem_singleton_self rq) (fun _ _ => rfl)
    fun x h_x => Function.update_of_ne h_x (if error = 0 then s.log rq ++ [.data] else s.log rq)
      s.log
  apply h_note.endHeld
  intro h_error
  dsimp only
  rw [Function.update_self, if_pos h_error, h_log, h_steps]
  rfl

/-- A queue whose flush request has references has a flush in flight. -/
theorem Inv.flying (h : Inv s [])
    (h_busy : (s.fq k).flushRq.ref ≠ 0 ∨ (s.fq k).iterators ≠ 0 ∨ (s.fq k).inFlight ≠ 0) :
    (s.fq k).Flying k := by
  refine (h.fq k).phase.resolve_left fun h_idle => ?_
  rcases h_busy with h_ref | h_iterators | h_inFlight
  · exact h_ref h_idle.ref
  · exact h_iterators h_idle.iterators
  · exact h_inFlight h_idle.inFlight

theorem getRef_inv (h : Inv s []) (h_ref : (s.fq k).flushRq.ref ≠ 0) :
    Inv (s.setFq k { s.fq k with
      flushRq := { (s.fq k).flushRq with ref := (s.fq k).flushRq.ref + 1 }
      iterators := (s.fq k).iterators + 1 }) [] := by
  have h_flying := h.flying (.inl h_ref)
  have h_fq := h.fq k
  have h_new : FqInv s.seq s.policy s.log k { s.fq k with
      flushRq := { (s.fq k).flushRq with ref := (s.fq k).flushRq.ref + 1 }
      iterators := (s.fq k).iterators + 1 } := by
    refine ⟨h_fq.key, h_fq.waits, h_fq.data, .inr ⟨h_flying.idx, ?_, Nat.succ_ne_zero _,
      h_flying.key, h_flying.inFlight, h_flying.flushing, h_flying.rqStatus⟩, h_fq.progress,
      h_fq.log⟩
    dsimp only
    rw [h_flying.ref]
    omega
  exact h.setFq h_new (fun _ => rfl) rfl

/-- An iterator drops its reference: the flush ends with what was noted in `rq_status`. -/
theorem putRef_inv {late : Nat → Bool} (h : Inv s []) (h_iterators : (s.fq k).iterators ≠ 0)
    (h_last : (s.fq k).flushRq.ref = 1 → Orderly s k (s.fq k).rqStatus late)
    (h_put : (s.fq k).flushRq.ref ≠ 1 → (s.fq k).rqStatus = 0) :
    Returns (flushEndIo (s.setFq k { s.fq k with iterators := (s.fq k).iterators - 1 }) k 0 late)
      (Inv · []) := by
  have h_flying := h.flying (.inr (.inl h_iterators))
  -- the device's answer, if there is one, was noted
  have h_status := h_flying.rqStatus
  apply @flushEndIo_inv s k 0 late s.log _ (s.fq k).device h h_flying
  · rw [h_flying.ref]
    omega
  · exact fun _ _ => rfl
  · intro x h_x
    rw [(h.fq k).log x (FlushQueue.mem_all_of_queue h_x)]
    congr 1
    exact if_congr (and_iff_left h_x) rfl rfl
  · intro h_ref
    rw [← h_status, h_put h_ref]
  · intro h_ref
    rw [← h_status]
    refine ⟨?_, h_last h_ref⟩
    split
    case isTrue => rfl
    case isFalse h_zero => exact (not_not.mp h_zero).symm

/-- The driver completes the flush request. -/
theorem flushEnd_inv {late : Nat → Bool} (h : Inv s []) (h_inFlight : (s.fq k).inFlight ≠ 0)
    (h_device : (s.fq k).device = none)
    (h_last : (s.fq k).flushRq.ref = 1 → Orderly s k error late) :
    Returns (flushEndIo (s.answer k error) k error late) (Inv · []) := by
  have h_flying := h.flying (.inr (.inr h_inFlight))
  -- nothing was noted before the answer
  have h_status : (s.fq k).rqStatus = 0 := by
    rw [h_flying.rqStatus, h_device]
    rfl
  apply @flushEndIo_inv s k error late (s.answer k error).log _ (some error) h h_flying
  · rw [h_flying.ref, h_device]
    rfl
  · intro x h_x
    apply if_neg
    rw [h_flying.flushing]
    exact fun h_performed => h_x h_performed.2
  · intro x h_x
    have h_log := (h.fq k).log x (FlushQueue.mem_all_of_queue h_x)
    rw [if_neg, List.append_nil] at h_log
    · rw [State.answer, h_flying.flushing]
      dsimp only
      by_cases h_error : error = 0
      · rw [if_pos ⟨h_error, h_x⟩, if_pos (congrArg some h_error), h_log]
      · rw [if_neg fun h_performed => h_error h_performed.1,
          if_neg fun h_zero => h_error (Option.some.inj h_zero), h_log, List.append_nil]
    · rintro ⟨h_some, -⟩
      rw [h_device] at h_some
      cases h_some
  · exact fun _ => rfl
  · intro h_ref
    rw [h_status, if_neg (not_not.mpr rfl)]
    exact ⟨rfl, h_last h_ref⟩

/-- No `BUG_ON` is met, and what the queues keep is kept. -/
theorem perform_inv {e : Event} (h : Inv s []) (h_possible : Possible s e)
    (h_guarded : Guarded s e) : Returns (perform s e) (Inv · []) := by
  cases e with
  | insert rq wc fua late => exact insert_inv h h_possible wc fua late
  | dataEnd rq error late => exact dataEnd_inv h h_possible late
  | directEnd rq error => exact Returns.some (directEnd_inv h h_possible)
  | getRef k => exact Returns.some (getRef_inv (k := k) h h_possible)
  | putRef k late => exact putRef_inv h h_possible h_guarded.1 h_guarded.2
  | flushEnd k error late => exact flushEnd_inv h h_possible.1 h_possible.2 h_guarded

end Events

/-! ## Whole runs -/

theorem start_inv : Inv start [] where
  fq _ := {
    key := nofun
    waits := fun _ => nofun
    data := nofun
    phase := .inl ⟨rfl, rfl, rfl, rfl, rfl, rfl, rfl⟩
    progress := nofun
    log := nofun }
  places _ := rfl
  data _ := rfl
  direct := nofun
  fresh _ _ := rfl
  ended := nofun
  acts := nofun

theorem reach_inv {s : State} (h : Lts.Reach step Guarded Init s) : Inv s [] := by
  refine Lts.Reach.invariant (I := (Inv · [])) (fun s h_init => ?_)
    (fun s e s' h_inv h_guarded h_step => ?_) h
  · rw [h_init]
    exact start_inv
  · rw [step, Option.ite_none_right_eq_some] at h_step
    exact (perform_inv h_inv h_step.1 h_guarded).of_eq_some h_step.2

theorem Inv.sequenced {s : State} (h : Inv s []) : Sequenced s where
  sameQueue := h.acts
  oneInFlight k := by
    rcases (h.fq k).phase with h_idle | h_flying
    · rw [h_idle.inFlight]
      exact Nat.zero_le 1
    · exact Nat.le_of_eq h_flying.inFlight
  endedOnce := by
    rw [List.nodup_iff_count_le_one]
    intro rq
    have h_places := h.places rq
    split at h_places
    case isTrue => omega
    case isFalse => omega
  performed := h.ended

/-- In runs that stay clear of the two gaps of `flush_end_io`, every request is sequenced, and no
`BUG_ON` is met in what may come next. -/
theorem flush_sequenced {s : State} (h : Lts.Reach step Guarded Init s) :
    Sequenced s ∧ ∀ e, Possible s e → Guarded s e → (step s e).isSome = true := by
  have h_inv := reach_inv h
  refine ⟨h_inv.sequenced, fun e h_possible h_guarded => ?_⟩
  rw [step, if_pos h_possible]
  exact (perform_inv h_inv h_possible h_guarded).isSome

/-- A flush that was issued for one request ends in order. -/
theorem orderly_of_single {s : State} {k : Key} {error : Nat} {late : Nat → Bool}
    (h : (s.fq k).running.length = 1) : Orderly s k error late := by
  intro _ a rq b h_running h_some
  rw [h_running, List.length_append, List.length_cons] at h
  have h_b := List.length_pos_iff.mpr h_some
  omega

/-- A write with PREFLUSH and FUA. -/
def flushedWrite (id : Nat) : Request := ⟨id, some 0, 0, 8, true, true⟩

/-- The queue has a write cache and no FUA. -/
def writeRun : List Event :=
  [.insert (flushedWrite 0) true false false, .flushEnd (0, 0) 0 fun _ => false,
    .dataEnd (flushedWrite 0) 0 false, .flushEnd (0, 0) 0 fun _ => false]

theorem flush_sequenced_writeRun :
    ∃ s, Lts.run step start writeRun = some s ∧ s.ended = [(flushedWrite 0, 0)] ∧
      s.log (flushedWrite 0) = [.preflush, .data, .postflush] ∧ Sequenced s := by
  have h_start : Lts.Reach step Guarded Init start := .init rfl
  have h_preflush := (h_start.step (e := Event.insert (flushedWrite 0) true false false)
    trivial rfl).step (e := Event.flushEnd (0, 0) 0 fun _ => false)
    (fun _ => orderly_of_single (by decide +kernel)) rfl
  have h_postflush := (h_preflush.step (e := Event.dataEnd (flushedWrite 0) 0 false)
    trivial rfl).step (e := Event.flushEnd (0, 0) 0 fun _ => false)
    (fun _ => orderly_of_single (by decide +kernel)) rfl
  exact ⟨_, rfl, by decide +kernel, by decide +kernel, (flush_sequenced h_postflush).1⟩

/-- A PREFLUSH/FUA request without data. -/
def flushOnly (id : Nat) : Request := ⟨id, some 0, 0, 0, true, true⟩

/-- Three requests wait for the second flush.  With the first of them a third flush is issued. -/
def revisitRun : List Event :=
  [.insert (flushOnly 1) true true false, .insert (flushOnly 2) true false false,
    .insert (flushOnly 3) true false false, .insert (flushOnly 4) true false false,
    .flushEnd (0, 0) 0 fun _ => false, .flushEnd (0, 0) 0 fun _ => false]

/-- The flush fails with two iterators at its flush request. -/
def overwriteRun : List Event :=
  [.insert (flushOnly 1) true true false, .getRef (0, 0), .getRef (0, 0),
    .flushEnd (0, 0) 5 fun _ => false, .putRef (0, 0) fun _ => false,
    .putRef (0, 0) fun _ => false]

/-- A run in which a request ends without an error and not all of its steps. -/
theorem ended_early {es : List Event} {rq : Request} {log : List Fseq} {policy : FseqMask}
    (h_run : (Lts.run step start es).map (fun s =>
      (decide ((rq, 0) ∈ s.ended), s.log rq, s.policy rq)) = some (true, log, policy))
    (h_ne : log ≠ steps policy) :
    ∃ s, Lts.run step start es = some s ∧ (rq, 0) ∈ s.ended ∧ s.log rq = log ∧
      ¬ Sequenced s := by
  obtain ⟨s, h_eq, h_s⟩ := Option.map_eq_some_iff.mp h_run
  rw [Prod.mk.injEq, Prod.mk.injEq, decide_eq_true_iff] at h_s
  obtain ⟨h_ended, h_log, h_policy⟩ := h_s
  refine ⟨s, h_eq, h_ended, h_log, fun h_seq => h_ne ?_⟩
  rw [← h_log, ← h_policy]
  exact h_seq.performed rq h_ended

/-- Requests end without an error before their POSTFLUSH, or although their flush has failed. -/
theorem flush_notSequenced :
    (∃ s, Lts.run step start revisitRun = some s ∧ (flushOnly 3, 0) ∈ s.ended ∧
      s.log (flushOnly 3) = [.preflush] ∧ ¬ Sequenced s) ∧
    ∃ s, Lts.run step start overwriteRun = some s ∧ (flushOnly 1, 0) ∈ s.ended ∧
      s.log (flushOnly 1) = [] ∧ ¬ Sequenced s := by
  constructor
  · exact @ended_early revisitRun (flushOnly 3) [.preflush] ⟨true, false, true, false⟩
      (by decide +kernel) (by decide)
  · exact @ended_early overwriteRun (flushOnly 1) [] ⟨true, false, false, false⟩
      (by decide +kernel) (by decide)

end Daredevil.Flush
