/-
  Daredevil.Block.Submit

  `blk_mq_submit_bio` (`block/blk-mq.c`) on a blex queue: what becomes of a bio.  It is
  ended, merged into another request, or attached to one, which is then handed to the
  flush machinery, put on the plug or issued.

  Splitting, integrity and the entry of the queue end the bio themselves when they
  fail.  `blk_mq_get_new_requests` ends it when the allocation returns NULL for a bio
  that does not wait, and otherwise returns: before the scheduler chose hctxs, NULL
  had no other reason.  `submit_handles` says that this is the only way to lose a bio.
-/
import Daredevil.Block.Alloc
import Daredevil.Block.Plug

namespace Daredevil.Submit

open Sched (ProfileCall blkBlexIoprioSimpleMap blkBlexIsHighPrio blkBlexLPrioMask
  blkBlexHctxToNqid)
open Vnq (Request)
open Alloc (Queue IoContext Bio Attempt Caller LacksHctx Reached blkMqAllocRequests prepareTask)
open Plug (BlkPlug blkAddRqToPlug blkMqTryIssueDirectly)

/-! ## A submission -/

/-- Requests and where they are. -/
structure Requests where
  env : Plug.Env
  state : Plug.State
  placed : state.Placed env
  /-- the request for a tag of a hctx -/
  new : Nat → Request
  new_hctx : ∀ hctx, env.mqHctx (new hctx) = hctx

/-- A call of `blk_mq_submit_bio`, and what it meets. -/
structure Submission where
  bio : Bio
  /-- `bio_may_exceed_limits` and `__bio_split_to_limits` leave a bio -/
  splitToLimits : Bool
  integrityPrep : Bool
  /-- `raw_smp_processor_id()` -/
  cpu : Nat
  iocAlloc : Bool
  xaInsert : Bool
  setTaskIoprio : Bool
  /-- `current->io_context` -/
  current : Option IoContext
  /-- `bio_set_ioprio` -/
  bioSetIoprio : Nat → Nat
  plug : Option BlkPlug
  /-- the first request of `plug->cached_rq`, if it is of this queue -/
  cachedRq : Option Request
  /-- `blk_mq_attempt_bio_merge`, when a cached request is looked for -/
  mergesCached : Bool
  /-- `bio_queue_enter` -/
  queueEnter : Bool
  /-- `blk_mq_attempt_bio_merge`, when a new request is needed -/
  mergesNew : Bool
  attempts : List Attempt
  /-- `blk_crypto_rq_get_keyslot` -/
  getKeyslot : Bool
  /-- `op_is_flush(bio->bi_opf)` -/
  opIsFlush : Bool
  rqs : Requests

/-- The call of `blk_blex_tenant_ioc_profile`. -/
def Submission.profile (sub : Submission) : ProfileCall :=
  ⟨sub.cpu, sub.bio.biOpf, sub.iocAlloc, sub.xaInsert⟩

/-- The bio after `bio_set_ioprio`. -/
def Submission.bioSet (sub : Submission) : Bio :=
  { sub.bio with biIoprio := sub.bioSetIoprio sub.bio.biIoprio }

/-- What has become of the bio. -/
inductive Fate where
  /-- neither ended nor attached to a request -/
  | dropped
  | ended
  | merged
  /-- attached to a request, which `blk_insert_flush` takes -/
  | flush (rq : Request)
  | plugged (rq : Request) (plug : BlkPlug)
  | issued (rq : Request) (s : Plug.State)

inductive Outcome where
  | returns (fate : Fate)
  | faults
  /-- still waiting for a tag -/
  | waits

/-! ## The source functions -/

/-- The priority of the eNQ of a request's hctx. -/
def rqPrio (q : Queue) (sub : Submission) (rq : Request) : Option Nat :=
  (q.reg.enq? (blkBlexHctxToNqid (sub.rqs.env.mqHctx rq))).map (·.prio)

/-- A cached request is used for a bio of its level only. -/
def cachedFits (q : Queue) (bio : Bio) (cachedRqPrio : Nat) : Bool :=
  let bioPrio := blkBlexIoprioSimpleMap q.env bio.biIoprio
  if cachedRqPrio &&& blkBlexLPrioMask ≠ 0 then
    bioPrio &&& blkBlexLPrioMask ≠ 0 || blkBlexIsHighPrio q.env bio.biOpf
  else
    !(bioPrio &&& blkBlexLPrioMask ≠ 0 && blkBlexIsHighPrio q.env bio.biOpf)

/-- What `blk_mq_get_cached_request` comes to. -/
inductive Cached where
  | merged
  | none
  | request (rq : Request)
  | faults

/-- `blk_mq_get_cached_request` -/
def blkMqGetCachedRequest (q : Queue) (sub : Submission) : Cached :=
  match sub.plug, sub.cachedRq with
  | some _, some rq =>
      if sub.mergesCached then .merged
      else
        match rqPrio q sub rq with
        | none => .faults
        | some prio => if cachedFits q sub.bioSet prio then .request rq else .none
  | _, _ => .none

/-- `blk_mq_submit_bio` from the request on. -/
def withRequest (q : Queue) (sub : Submission) (rq : Request) : Outcome :=
  if !sub.getKeyslot then .returns .ended
  else if sub.opIsFlush then .returns (.flush rq)
  else
    match rqPrio q sub rq, sub.plug with
    | none, _ => .faults
    | some prio, some plug =>
        if prio &&& blkBlexLPrioMask ≠ 0 then
          .returns (.issued rq
            (blkMqTryIssueDirectly sub.rqs.env sub.rqs.state (sub.rqs.env.mqHctx rq) rq))
        else
          match blkAddRqToPlug sub.rqs.env plug rq sub.rqs.state with
          | none => .faults
          | some (plug, _) => .returns (.plugged rq plug)
    | some _, none =>
        .returns (.issued rq
          (blkMqTryIssueDirectly sub.rqs.env sub.rqs.state (sub.rqs.env.mqHctx rq) rq))

/-- `blk_mq_get_new_requests`, and `blk_mq_submit_bio` from its result on. -/
def withNewRequest (q : Queue) (sub : Submission) (current : Option IoContext) : Outcome :=
  if !sub.queueEnter then .returns .ended
  else if sub.mergesNew then .returns .merged
  else
    match blkMqAllocRequests q (Caller.getNewRequests sub.bioSet).data current sub.attempts with
    | .request hctx => withRequest q sub (sub.rqs.new hctx)
    | .failed =>
        -- `bio_wouldblock_error`
        if sub.bio.biOpf &&& q.reqNowait ≠ 0 then .returns .ended else .returns .dropped
    | .retry => .waits
    | .null _ | .fault => .faults

/-- `blk_mq_submit_bio` once the task is prepared. -/
def findRequest (q : Queue) (sub : Submission) (current : Option IoContext) : Outcome :=
  match blkMqGetCachedRequest q sub with
  | .merged => .returns .merged
  | .request rq => withRequest q sub rq
  | .none => withNewRequest q sub current
  | .faults => .faults

/-- `blk_mq_submit_bio`, on a blex queue -/
def blkMqSubmitBio (q : Queue) (sub : Submission) : Outcome :=
  if !sub.splitToLimits then .returns .ended
  else if !sub.integrityPrep then .returns .ended
  else
    match prepareTask q sub.profile sub.setTaskIoprio sub.current with
    | none => .faults
    | some (q, current) => findRequest q sub current

/-! ## What becomes of a bio -/

variable {q : Queue} {sub : Submission} {current : Option IoContext} {fate : Fate}

/-- The bio is ended, merged, or attached to a request that is where it belongs. -/
def Handled (sub : Submission) : Fate → Prop
  | .dropped => False
  | .ended | .merged | .flush _ => True
  | .plugged rq plug => rq ∈ plug.mqList
  | .issued rq s => s.places sub.rqs.env rq = sub.rqs.state.places sub.rqs.env rq + 1

/-- A new request is needed for a bio that can wait for a tag, and the attempt that decides has
no hctx. -/
def LosesHctx (q : Queue) (sub : Submission) (current : Option IoContext) : Prop :=
  blkMqGetCachedRequest q sub = .none ∧ sub.queueEnter = true ∧ sub.mergesNew = false ∧
    sub.bio.biOpf &&& q.reqNowait = 0 ∧
      Reached q (Caller.getNewRequests sub.bioSet).data current sub.attempts
        (LacksHctx q (Caller.getNewRequests sub.bioSet).data current)

theorem issued_handled (sub : Submission) (rq : Request) :
    Handled sub (.issued rq
      (blkMqTryIssueDirectly sub.rqs.env sub.rqs.state (sub.rqs.env.mqHctx rq) rq)) := by
  have h_keeps := @Plug.blkMqTryIssueDirectly_keeps sub.rqs.env rq [] sub.rqs.state
  have h_held := (h_keeps sub.rqs.placed).2 rq
  rw [List.count_cons_self] at h_held
  exact h_held

/-- A bio that has got a request is not lost. -/
theorem withRequest_handled {rq : Request} (h : withRequest q sub rq = .returns fate) :
    Handled sub fate := by
  rw [withRequest] at h
  split at h
  · cases h
    trivial
  split at h
  · cases h
    trivial
  split at h
  · cases h
  · split at h
    · cases h
      exact issued_handled sub rq
    · split at h
      · cases h
      case h_2 h_add =>
        cases h
        exact Plug.addRqToPlug_mem h_add
  · cases h
    exact issued_handled sub rq

theorem withNewRequest_handled_iff (h_cached : blkMqGetCachedRequest q sub = .none)
    (h : withNewRequest q sub current = .returns fate) :
    Handled sub fate ↔ ¬ LosesHctx q sub current := by
  rw [withNewRequest] at h
  split at h
  case isTrue h_enter =>
    cases h
    refine iff_of_true trivial ?_
    rintro ⟨-, h_queueEnter, -⟩
    rw [h_queueEnter] at h_enter
    cases h_enter
  split at h
  case isTrue h_merges =>
    cases h
    refine iff_of_true trivial ?_
    rintro ⟨-, -, h_mergesNew, -⟩
    exact nomatch h_merges.symm.trans h_mergesNew
  case isFalse h_enter h_merges =>
    rw [Bool.not_eq_true, Bool.not_eq_false'] at h_enter
    rw [Bool.not_eq_true] at h_merges
    -- for a bio that can wait, NULL means that there was no hctx
    have h_failed (h_wait : sub.bio.biOpf &&& q.reqNowait = 0) :
        blkMqAllocRequests q (Caller.getNewRequests sub.bioSet).data current sub.attempts =
          .failed ↔ LosesHctx q sub current := by
      have h_nowait : (Caller.getNewRequests sub.bioSet).data.nowait q = false := by
        simpa [Alloc.AllocData.nowait, Caller.data, Submission.bioSet] using h_wait
      rw [Alloc.allocRequests_failed_iff h_nowait, LosesHctx]
      simp only [h_cached, h_enter, h_merges, h_wait, true_and]
    split at h
    case h_1 hctx h_alloc =>
      refine iff_of_true (withRequest_handled h) (fun h_loses => ?_)
      rw [(h_failed h_loses.2.2.2.1).mpr h_loses] at h_alloc
      cases h_alloc
    case h_2 h_alloc =>
      split at h
      case isTrue h_nowait =>
        cases h
        exact iff_of_true trivial (fun h_loses => h_nowait h_loses.2.2.2.1)
      case isFalse h_wait =>
        cases h
        exact iff_of_false id (not_not.mpr ((h_failed (not_not.mp h_wait)).mp h_alloc))
    · cases h
    · cases h
    · cases h

theorem findRequest_handled_iff (h : findRequest q sub current = .returns fate) :
    Handled sub fate ↔ ¬ LosesHctx q sub current := by
  rw [findRequest] at h
  split at h
  case h_1 h_cached =>
    cases h
    exact iff_of_true trivial (fun h_loses => nomatch h_cached.symm.trans h_loses.1)
  case h_2 rq h_cached =>
    exact iff_of_true (withRequest_handled h) (fun h_loses => nomatch h_cached.symm.trans h_loses.1)
  case h_3 h_cached => exact withNewRequest_handled_iff h_cached h
  · cases h

/-- When `blk_mq_submit_bio` has returned, the bio is ended, merged or attached to a request that
is in its place, unless it went on to an allocation that it can wait for and in which the attempt
that decides had no hctx. -/
theorem submit_handles (q : Queue) (sub : Submission) (fate : Fate)
    (h : blkMqSubmitBio q sub = .returns fate) :
    Handled sub fate ↔ ¬ (sub.splitToLimits = true ∧ sub.integrityPrep = true ∧
      ∃ q' current', prepareTask q sub.profile sub.setTaskIoprio sub.current =
        some (q', current') ∧ LosesHctx q' sub current') := by
  rw [blkMqSubmitBio] at h
  split at h
  case isTrue h_split =>
    cases h
    refine iff_of_true trivial (fun h_and => ?_)
    rw [h_and.1] at h_split
    cases h_split
  split at h
  case isTrue h_prep =>
    cases h
    refine iff_of_true trivial (fun h_and => ?_)
    rw [h_and.2.1] at h_prep
    cases h_prep
  case isFalse h_split h_prep =>
    rw [Bool.not_eq_true, Bool.not_eq_false'] at h_split h_prep
    split at h
    · cases h
    case h_2 q' current' h_prepare =>
      rw [findRequest_handled_iff h]
      simp only [h_split, h_prep, h_prepare, true_and, Option.some.injEq, Prod.mk.injEq]
      refine not_congr ⟨fun h_loses => ⟨q', current', ⟨rfl, rfl⟩, h_loses⟩, ?_⟩
      rintro ⟨_, _, ⟨rfl, rfl⟩, h_loses⟩
      exact h_loses

/-! ## A task on four queues -/

/-- Nothing is pending, and requests have the number of their hctx. -/
def noRequests : Requests where
  env := { Plug.busy with nrCpuIds := 4, mqHctx := Request.id }
  state := Plug.idle
  placed := Plug.placed_idle _
  new hctx := ⟨hctx, 1⟩
  new_hctx _ := rfl

/-- The first bio of a task on CPU 1, with everything granted and no plug. -/
def firstBio (biOpf : Nat) : Submission where
  bio := ⟨0, biOpf⟩
  splitToLimits := true
  integrityPrep := true
  cpu := 1
  iocAlloc := true
  xaInsert := true
  setTaskIoprio := true
  current := none
  bioSetIoprio := id
  plug := none
  cachedRq := none
  mergesCached := false
  queueEnter := true
  mergesNew := false
  attempts := [Alloc.undisturbed]
  getKeyslot := true
  opIsFlush := false
  rqs := noRequests

/-- A bio that is not promoted goes to the hctx of its task. -/
theorem submit_handles_firstBio :
    ∃ fate, blkMqSubmitBio Alloc.fourQueue (firstBio 0) = .returns fate ∧
      (Handled (firstBio 0) fate ↔ ¬ ∃ q' current',
        prepareTask Alloc.fourQueue (firstBio 0).profile true none = some (q', current') ∧
          LosesHctx q' (firstBio 0) current') := by
  refine ⟨_, rfl, (submit_handles Alloc.fourQueue (firstBio 0) _ rfl).trans (not_congr ?_)⟩
  exact ⟨fun h_and => h_and.2.2, fun h_loses => ⟨rfl, rfl, h_loses⟩⟩

/-- Hctx 2 is not in the table, because its tags could not be allocated.  A synchronous bio of a
T task on CPU 1 is promoted to it. -/
theorem promotedBio_dropped :
    blkMqSubmitBio { Alloc.fourQueue with hctxTable := fun i => i != 2 } (firstBio 2048) =
      .returns .dropped ∧ ¬ Handled (firstBio 2048) .dropped :=
  ⟨rfl, id⟩

end Daredevil.Submit
