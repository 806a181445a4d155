/-
  Daredevil.Nvme.Overflow

  Commands in flight on shared completion queues.  Requests of any namespace take a
  tag from the tag set of their hctx, are copied into the ring of their submission
  queue, become visible to the controller when the doorbell is written, are fetched
  in order, and complete on the CQ that the submission queue is attached to.

  The events are the single steps of that life, so a run interleaves the calls of
  the driver (`nvmeQueueRq`, `nvmeQueueRqs`, `nvmeCommitRqs`: sequences of events),
  the controller and the completion path in any way.

  `tagSets_noOverflow`: one tag set for each CQ, with one tag less than a queue has slots,
  bounds everything that is outstanding on it, so that both kinds of rings keep
  every entry until it is read.
-/
import Daredevil.Block.Layout
import Daredevil.Lib.Lts
import Daredevil.Lib.RingBuffer
import Mathlib.Data.List.Nodup

namespace Daredevil.Nvme.Overflow

/-! ## State -/

/-- A request that holds a tag; also the command that is copied for it. -/
structure Request where
  ns : Nat
  /-- the submission queue: the index of its hctx plus one -/
  nqid : Nat
  tag : Nat
  deriving DecidableEq, Repr

/-- Where the command of a request is. -/
inductive Stage where
  /-- not submitted, or completed -/
  | held
  /-- in the submission ring -/
  | copied
  /-- fetched by the controller -/
  | fetched
  /-- its completion is in the CQ, unread -/
  | posted
  deriving DecidableEq, Repr

structure Tracked where
  req : Request
  stage : Stage
  deriving DecidableEq, Repr

/-- The fields of `struct nvme_completion` that identify the command. -/
structure Cqe where
  sqId : Nat
  commandId : Nat
  deriving DecidableEq, Repr

structure NvmeSq (qDepth : Nat) where
  /-- `sq_cmds` between the controller's fetch index and `sq_tail` -/
  ring : RingBuffer Request qDepth
  /-- `last_sq_tail`: the doorbell, in the shadow buffer or in the register -/
  lastSqTail : Nat

structure State (qDepth : Nat) where
  /-- the bits of the sbitmap of each tag set -/
  taken : Nat → Nat → Bool
  /-- the requests that hold a tag, in the order in which they reached their stage -/
  tracked : List Tracked
  sq : Nat → NvmeSq qDepth
  /-- `cqes`; the phase bits tell the driver where the unread entries end -/
  cq : Nat → RingBuffer Cqe qDepth

/-! ## Source functions -/

section Source

variable {qDepth : Nat}

/-- `set->queue_depth`, for `BLK_MQ_MAX_DEPTH = 10240` -/
def setQueueDepth (qDepth : Nat) : Nat := min qDepth 10240 - 1

/-- `nvme_sq_copy_cmd` -/
def nvmeSqCopyCmd (nvmeq : NvmeSq qDepth) (cmd : Request) : NvmeSq qDepth :=
  { nvmeq with ring := nvmeq.ring.push cmd }

/-- `nvme_write_sq_db` -/
def nvmeWriteSqDb (nvmeq : NvmeSq qDepth) (writeSq : Bool) : NvmeSq qDepth :=
  let nextTail := RingBuffer.next qDepth nvmeq.ring.tail
  -- a doorbell that may wait does so until the next command would reach the last one written
  if !writeSq && nextTail != nvmeq.lastSqTail then nvmeq
  else { nvmeq with lastSqTail := nvmeq.ring.tail }

/-- The body of `nvme_commit_rqs`. -/
def nvmeCommitSq (nvmeq : NvmeSq qDepth) : NvmeSq qDepth :=
  if nvmeq.ring.tail ≠ nvmeq.lastSqTail then nvmeWriteSqDb nvmeq true else nvmeq

/-- The body of `nvme_queue_rq` for a command that `nvme_prep_rq` has prepared. -/
def nvmeQueueSq (nvmeq : NvmeSq qDepth) (cmd : Request) (last : Bool) : NvmeSq qDepth :=
  nvmeWriteSqDb (nvmeSqCopyCmd nvmeq cmd) last

/-- The body of `nvme_submit_cmds`. -/
def nvmeSubmitSq (nvmeq : NvmeSq qDepth) (cmds : List Request) : NvmeSq qDepth :=
  nvmeWriteSqDb (cmds.foldl nvmeSqCopyCmd nvmeq) true

end Source

section Run

variable (L : QueueLayout) (qDepth : Nat)

/-- `hctx->tags`, as `blk_blex_map_swqueue` binds it: the index in `set->tags`. -/
def hctxTags (hctxIdx : Nat) : Nat := blkBlexGetTagIdx hctxIdx L.toBlkBlexDevInfo

/-- The tag set and the tag of a request. -/
def tagKey (req : Request) : Nat × Nat := (hctxTags L (req.nqid - 1), req.tag)

/-- The CQ that a submission queue is attached to. -/
def assocCq (nqid : Nat) : Nat := blkBlexGetCqid nqid L.maxNqid L.nrCqs

/-- Take a request from one stage to the next, behind those that are there. -/
def restage (tracked : List Tracked) (t : Tracked) (stage : Stage) : List Tracked :=
  tracked.erase t ++ [⟨t.req, stage⟩]

/-- `nvme_find_rq` on `nvme_queue_tagset` of the CQ. -/
def nvmeFindRq (tracked : List Tracked) (cqid commandId : Nat) : Option Tracked :=
  tracked.find? fun t => tagKey L t.req = (hctxTags L (cqid - 1), commandId)

inductive Event where
  /-- the sbitmap of the tag set of `hctxIdx` hands out a tag -/
  | allocTag (ns hctxIdx tag : Nat)
  | copyCmd (req : Request)
  | writeSqDb (nqid : Nat) (writeSq : Bool)
  | commitRqs (nqid : Nat)
  /-- the controller fetches the next command of a submission queue -/
  | fetch (nqid : Nat)
  /-- the controller posts the completion of a command that it has fetched -/
  | complete (req : Request)
  /-- `nvme_handle_cqe` for the entry at the head of a CQ -/
  | handleCqe (cqid : Nat)
  | freeTag (req : Request)

def step (s : State qDepth) : Event → Option (State qDepth)
  | .allocTag ns hctxIdx tag =>
      if hctxIdx < L.maxNqid ∧ tag < setQueueDepth qDepth ∧ s.taken (hctxTags L hctxIdx) tag = false
      then
        some { s with
          taken := Function.update s.taken (hctxTags L hctxIdx)
            (Function.update (s.taken (hctxTags L hctxIdx)) tag true)
          tracked := s.tracked ++ [⟨⟨ns, hctxIdx + 1, tag⟩, .held⟩] }
      else none
  | .copyCmd req =>
      -- the source does not compare the tail with how far the controller has read
      if ⟨req, .held⟩ ∈ s.tracked then
        some { s with
          tracked := restage s.tracked ⟨req, .held⟩ .copied
          sq := Function.update s.sq req.nqid (nvmeSqCopyCmd (s.sq req.nqid) req) }
      else none
  | .writeSqDb nqid writeSq =>
      some { s with sq := Function.update s.sq nqid (nvmeWriteSqDb (s.sq nqid) writeSq) }
  | .commitRqs nqid => some { s with sq := Function.update s.sq nqid (nvmeCommitSq (s.sq nqid)) }
  | .fetch nqid =>
      if (s.sq nqid).ring.head = (s.sq nqid).lastSqTail then none
      else
        ((s.sq nqid).ring.slots (s.sq nqid).ring.head).map fun req =>
          { s with
            tracked := restage s.tracked ⟨req, .copied⟩ .fetched
            sq := Function.update s.sq nqid { s.sq nqid with ring := (s.sq nqid).ring.pop } }
  | .complete req =>
      if ⟨req, .fetched⟩ ∈ s.tracked then
        some { s with
          tracked := restage s.tracked ⟨req, .fetched⟩ .posted
          cq := Function.update s.cq (assocCq L req.nqid)
            ((s.cq (assocCq L req.nqid)).push ⟨req.nqid, req.tag⟩) }
      else none
  | .handleCqe cqid =>
      if (s.cq cqid).head = (s.cq cqid).tail then none
      else
        ((s.cq cqid).slots (s.cq cqid).head).map fun cqe =>
          { s with
            -- an unknown command id is only warned about
            tracked := match nvmeFindRq L s.tracked cqid cqe.commandId with
              | none => s.tracked
              | some t => restage s.tracked t .held
            cq := Function.update s.cq cqid (s.cq cqid).pop }
  | .freeTag req =>
      if ⟨req, .held⟩ ∈ s.tracked then
        some { s with
          taken := Function.update s.taken (hctxTags L (req.nqid - 1))
            (Function.update (s.taken (hctxTags L (req.nqid - 1))) req.tag false)
          tracked := s.tracked.erase ⟨req, .held⟩ }
      else none

/-- No tag is taken and all rings are empty. -/
def Init (s : State qDepth) : Prop :=
  s = ⟨fun _ _ => false, [], fun _ => ⟨.empty, 0⟩, fun _ => .empty⟩

/-! ## Calls of the driver -/

/-- `nvme_queue_rq` for a request whose preparation succeeds or fails. -/
def nvmeQueueRq (req : Request) (prepOk last : Bool) : List Event :=
  if prepOk then [.copyCmd req, .writeSqDb req.nqid last] else []

/-- `nvme_submit_cmds` -/
def nvmeSubmitCmds (nqid : Nat) (rqlist : List Request) : List Event :=
  rqlist.map .copyCmd ++ [.writeSqDb nqid true]

/-- The loop of `nvme_queue_rqs`: `batch` are the prepared requests of the current hctx that are
    not submitted yet. -/
def queueRqsLoop : List (Request × Bool) → List Request → List Event
  | [], _ => []
  | (req, prepOk) :: rest, batch =>
      -- a request that cannot be prepared goes to the requeue list
      let batch := if prepOk then batch ++ [req] else batch
      if batch = [] then queueRqsLoop rest []
      else
        match rest with
        | [] => nvmeSubmitCmds req.nqid batch
        | (next, _) :: _ =>
            if (req.ns, req.nqid) ≠ (next.ns, next.nqid) then
              nvmeSubmitCmds req.nqid batch ++ queueRqsLoop rest []
            else queueRqsLoop rest batch

/-- `nvme_queue_rqs`, for requests with the outcome of their preparation. -/
def nvmeQueueRqs (rqlist : List (Request × Bool)) : List Event := queueRqsLoop rqlist []

/-- `nvme_commit_rqs` -/
def nvmeCommitRqs (nqid : Nat) : List Event := [.commitRqs nqid]

end Run

/-! ## What is outstanding -/

section Outstanding

variable (L : QueueLayout) (tracked : List Tracked)

/-- The requests at `stage` in the place `i`, in the order in which they got there. -/
def atStage (stage : Stage) (place : Request → Nat) (i : Nat) : List Request :=
  (tracked.filter fun t => t.stage = stage ∧ place t.req = i).map (·.req)

/-- The commands copied into the ring of `nqid` that the controller has not fetched. -/
def unfetched (nqid : Nat) : List Request := atStage tracked .copied (·.nqid) nqid

def cqeOf (req : Request) : Cqe := ⟨req.nqid, req.tag⟩

/-- The completions posted to a CQ that the driver has not read. -/
def unread (cqid : Nat) : List Cqe :=
  (atStage tracked .posted (fun req => assocCq L req.nqid) cqid).map cqeOf

/-- The commands outstanding on the submission queues attached to a CQ. -/
def outstanding (cqid : Nat) : List Request :=
  (tracked.filter fun t => t.stage ≠ .held ∧ assocCq L t.req.nqid = cqid).map (·.req)

end Outstanding

/-- Distinct tags on each CQ, no more than `q_depth - 1` commands, and every ring entry in its
    slot until it is read. -/
structure NoOverflow (L : QueueLayout) {qDepth : Nat} (s : State qDepth) : Prop where
  distinct : ∀ cqid, ((outstanding L s.tracked cqid).map (·.tag)).Nodup
  outstanding_le : ∀ cqid, (outstanding L s.tracked cqid).length ≤ qDepth - 1
  unfetched_le : ∀ nqid, (unfetched s.tracked nqid).length ≤ qDepth - 1
  unfetched_kept : ∀ nqid, (s.sq nqid).ring.Holds (unfetched s.tracked nqid)
  unread_le : ∀ cqid, (unread L s.tracked cqid).length ≤ qDepth - 1
  unread_kept : ∀ cqid, (s.cq cqid).Holds (unread L s.tracked cqid)

/-- Tags identify the requests that hold them. -/
structure TagInv (L : QueueLayout) (qDepth : Nat) (taken : Nat → Nat → Bool)
    (tracked : List Tracked) : Prop where
  keys : (tracked.map fun t => tagKey L t.req).Nodup
  valid : ∀ t ∈ tracked, 1 ≤ t.req.nqid ∧ t.req.tag < setQueueDepth qDepth
  taken : ∀ t ∈ tracked, taken (hctxTags L (t.req.nqid - 1)) t.req.tag = true

/-- The rings follow the stages, and no doorbell is past a tail. -/
structure Inv (L : QueueLayout) {qDepth : Nat} (s : State qDepth) : Prop where
  tags : TagInv L qDepth s.taken s.tracked
  sq : ∀ nqid, (s.sq nqid).ring.Holds (unfetched s.tracked nqid)
  doorbell : ∀ nqid,
    RingBuffer.Mark (s.sq nqid).ring (unfetched s.tracked nqid) (s.sq nqid).lastSqTail
  cq : ∀ cqid, (s.cq cqid).Holds (unread L s.tracked cqid)

/-! ### Lists of tracked requests -/

section Tracked

variable {L : QueueLayout} {tracked : List Tracked} {t : Tracked} {stage : Stage}

theorem hctxTags_assocCq {nqid : Nat} (h : 1 ≤ nqid) :
    hctxTags L (assocCq L nqid - 1) = hctxTags L (nqid - 1) :=
  blkBlexGetTagIdx_getCqid L.nrCqs_pos L.nrCqs_le h

theorem erase_keys (h : t ∈ tracked) :
    (tracked.map fun t => tagKey L t.req).Perm
      (tagKey L t.req :: (tracked.erase t).map fun t => tagKey L t.req) :=
  (List.perm_cons_erase h).map _

theorem restage_keys (h : t ∈ tracked) :
    ((restage tracked t stage).map fun t => tagKey L t.req).Perm
      (tracked.map fun t => tagKey L t.req) := by
  rw [restage, List.map_append]
  exact (List.perm_append_singleton _ _).trans (erase_keys h).symm

theorem mem_restage {u : Tracked} (h : u ∈ restage tracked t stage) :
    u ∈ tracked ∨ u = ⟨t.req, stage⟩ := by
  rw [restage, List.mem_append, List.mem_singleton] at h
  exact h.imp List.mem_of_mem_erase id

/-- What a change of stage does to the requests with `p`: the old entry goes, the new one is
    the last. -/
theorem filter_restage (p : Tracked → Bool) :
    (restage tracked t stage).filter p =
      (tracked.filter p).erase t ++ [⟨t.req, stage⟩].filter p := by
  rw [restage, List.filter_append, List.erase_filter]

section AtStage

variable {at_ : Stage} {place : Request → Nat}

theorem atStage_restage (h_new : stage ≠ at_) (i : Nat) :
    atStage (restage tracked t stage) at_ place i =
      ((tracked.filter fun t => t.stage = at_ ∧ place t.req = i).erase t).map (·.req) := by
  have h_single : ([⟨t.req, stage⟩] : List Tracked).filter
      (fun t => t.stage = at_ ∧ place t.req = i) = [] := by
    rw [List.filter_singleton, decide_eq_false (fun h => h_new h.1)]
    rfl
  rw [atStage, filter_restage, h_single, List.append_nil]

/-- The lists of a stage do not change when a request passes between two others. -/
theorem atStage_restage_of_ne (h_old : t.stage ≠ at_) (h_new : stage ≠ at_) (i : Nat) :
    atStage (restage tracked t stage) at_ place i = atStage tracked at_ place i := by
  rw [atStage_restage h_new, List.erase_of_not_mem, atStage]
  intro h_mem
  exact h_old (of_decide_eq_true (List.mem_filter.mp h_mem).2).1

theorem atStage_enter (h_old : t.stage ≠ at_) (i : Nat) :
    atStage (restage tracked t at_) at_ place i =
      if place t.req = i then atStage tracked at_ place i ++ [t.req]
      else atStage tracked at_ place i := by
  have h_notMem : t ∉ tracked.filter fun t => t.stage = at_ ∧ place t.req = i := fun h_mem =>
    h_old (of_decide_eq_true (List.mem_filter.mp h_mem).2).1
  rw [atStage, filter_restage, List.erase_of_not_mem h_notMem, List.filter_singleton]
  split
  case isTrue h_place =>
    rw [decide_eq_true ⟨rfl, h_place⟩, atStage]
    exact List.map_append
  case isFalse h_place =>
    rw [decide_eq_false (fun h => h_place h.2), atStage]
    exact congrArg _ (List.append_nil _)

/-- The oldest request of its place leaves. -/
theorem atStage_leave {req : Request} {rest : List Request} (h_new : stage ≠ at_)
    (h_front : atStage tracked at_ place (place req) = req :: rest) (i : Nat) :
    atStage (restage tracked ⟨req, at_⟩ stage) at_ place i =
      if place req = i then rest else atStage tracked at_ place i := by
  rw [atStage_restage h_new]
  split
  case isTrue h_place =>
    rw [← h_place]
    rw [atStage, List.map_eq_cons_iff] at h_front
    obtain ⟨u, us, h_filter, h_u, h_rest⟩ := h_front
    have h_mem : u ∈ tracked.filter fun t => t.stage = at_ ∧ place t.req = place req := by
      rw [h_filter]
      exact List.mem_cons_self ..
    have h_stage := (of_decide_eq_true (List.mem_filter.mp h_mem).2).1
    have h_eq : u = ⟨req, at_⟩ := by rw [← h_u, ← h_stage]
    rw [h_filter, h_eq, List.erase_cons_head, h_rest]
  case isFalse h_place =>
    rw [List.erase_of_not_mem, atStage]
    intro h_mem
    exact h_place (of_decide_eq_true (List.mem_filter.mp h_mem).2).2

theorem mem_of_mem_atStage {req : Request} {i : Nat} (h : req ∈ atStage tracked at_ place i) :
    ⟨req, at_⟩ ∈ tracked ∧ place req = i := by
  obtain ⟨u, h_u, rfl⟩ := List.mem_map.mp h
  obtain ⟨h_mem, h_dec⟩ := List.mem_filter.mp h_u
  obtain ⟨h_stage, h_place⟩ := of_decide_eq_true h_dec
  exact ⟨by rw [← h_stage]; exact h_mem, h_place⟩

end AtStage

/-- Requests on one tag set have different tags, and there are no more tags than `depth`. -/
theorem filter_tags (p : Tracked → Bool) (idx : Nat) {depth : Nat}
    (h_keys : (tracked.map fun t => tagKey L t.req).Nodup)
    (h_tag : ∀ t ∈ tracked, t.req.tag < depth)
    (h_idx : ∀ t ∈ tracked, p t = true → hctxTags L (t.req.nqid - 1) = idx) :
    ((tracked.filter p).map (·.req.tag)).Nodup ∧ (tracked.filter p).length ≤ depth := by
  have h_nodup : ((tracked.filter p).map fun t => tagKey L t.req).Nodup :=
    h_keys.sublist (List.filter_sublist.map _)
  -- on one tag set the key is the tag
  have h_pair : (tracked.filter p).map (fun t => tagKey L t.req) =
      ((tracked.filter p).map (·.req.tag)).map (Prod.mk idx) := by
    rw [List.map_map]
    apply List.map_congr_left
    intro t h_t
    rw [List.mem_filter] at h_t
    exact Prod.ext (h_idx t h_t.1 h_t.2) rfl
  have h_tags : ((tracked.filter p).map (·.req.tag)).Nodup := by
    rw [h_pair] at h_nodup
    exact h_nodup.of_map _
  refine ⟨h_tags, ?_⟩
  have h_sub : (tracked.filter p).map (·.req.tag) ⊆ List.range depth := by
    intro tag h_mem
    obtain ⟨t, h_t, rfl⟩ := List.mem_map.mp h_mem
    exact List.mem_range.mpr (h_tag t (List.mem_filter.mp h_t).1)
  have h_len := h_tags.length_le_of_subset h_sub
  rwa [List.length_map, List.length_range] at h_len

/-- The driver finds the request whose completion it reads. -/
theorem nvmeFindRq_eq {cqid : Nat} {req : Request} {st : Stage}
    (h_keys : (tracked.map fun t => tagKey L t.req).Nodup) (h_mem : ⟨req, st⟩ ∈ tracked)
    (h_nqid : 1 ≤ req.nqid) (h_cq : assocCq L req.nqid = cqid) :
    nvmeFindRq L tracked cqid req.tag = some ⟨req, st⟩ := by
  have h_key : tagKey L req = (hctxTags L (cqid - 1), req.tag) := by
    rw [tagKey, ← h_cq, hctxTags_assocCq h_nqid]
  cases h_find : nvmeFindRq L tracked cqid req.tag with
  | none =>
      rw [nvmeFindRq, List.find?_eq_none] at h_find
      exact absurd (decide_eq_true h_key) (h_find _ h_mem)
  | some u =>
      rw [nvmeFindRq] at h_find
      have h_dec := List.find?_some h_find
      have h_u : tagKey L u.req = (hctxTags L (cqid - 1), req.tag) := of_decide_eq_true h_dec
      have h_uMem := List.mem_of_find?_eq_some h_find
      rw [List.inj_on_of_nodup_map h_keys h_uMem h_mem (h_u.trans h_key.symm)]

end Tracked

/-! ### Bounds -/

section Bounds

variable {L : QueueLayout} {qDepth : Nat} {taken : Nat → Nat → Bool} {tracked : List Tracked}

theorem setQueueDepth_le : setQueueDepth qDepth ≤ qDepth - 1 := by
  rw [setQueueDepth]
  omega

theorem TagInv.restage (h : TagInv L qDepth taken tracked) {t : Tracked} (h_mem : t ∈ tracked)
    (stage : Stage) : TagInv L qDepth taken (restage tracked t stage) where
  keys := (restage_keys h_mem).nodup_iff.mpr h.keys
  valid u h_u := by
    rcases mem_restage h_u with h_old | rfl
    · exact h.valid u h_old
    · exact h.valid t h_mem
  taken u h_u := by
    rcases mem_restage h_u with h_old | rfl
    · exact h.taken u h_old
    · exact h.taken t h_mem

theorem TagInv.filter_length_le (h : TagInv L qDepth taken tracked) {p : Tracked → Bool}
    (idx : Nat) (h_idx : ∀ t ∈ tracked, p t = true → hctxTags L (t.req.nqid - 1) = idx) :
    (tracked.filter p).length ≤ qDepth - 1 :=
  Nat.le_trans (filter_tags p idx h.keys (fun t h_t => (h.valid t h_t).2) h_idx).2 setQueueDepth_le

theorem TagInv.unfetched_le (h : TagInv L qDepth taken tracked) (nqid : Nat) :
    (unfetched tracked nqid).length ≤ qDepth - 1 := by
  rw [unfetched, atStage, List.length_map]
  apply h.filter_length_le (hctxTags L (nqid - 1))
  intro t _ h_p
  rw [(of_decide_eq_true h_p).2]

/-- All queues of a CQ share its tag set. -/
theorem TagInv.unread_le (h : TagInv L qDepth taken tracked) (cqid : Nat) :
    (unread L tracked cqid).length ≤ qDepth - 1 := by
  rw [unread, List.length_map, atStage, List.length_map]
  apply h.filter_length_le (hctxTags L (cqid - 1))
  intro t h_t h_p
  rw [← (of_decide_eq_true h_p).2, hctxTags_assocCq (h.valid t h_t).1]

theorem TagInv.outstanding_tags (h : TagInv L qDepth taken tracked) (cqid : Nat) :
    ((outstanding L tracked cqid).map (·.tag)).Nodup ∧
      (outstanding L tracked cqid).length ≤ qDepth - 1 := by
  have h_tags := filter_tags (fun t => t.stage ≠ .held ∧ assocCq L t.req.nqid = cqid)
    (hctxTags L (cqid - 1)) h.keys (fun t h_t => (h.valid t h_t).2) fun t h_t h_p => by
      rw [← (of_decide_eq_true h_p).2, hctxTags_assocCq (h.valid t h_t).1]
  rw [outstanding, List.map_map, List.length_map]
  exact ⟨h_tags.1, Nat.le_trans h_tags.2 setQueueDepth_le⟩

end Bounds

/-! ### Events -/

section Events

variable {L : QueueLayout} {qDepth : Nat} {s s' : State qDepth}

theorem inv_init (h_depth : 1 ≤ qDepth) (h : Init qDepth s) : Inv L s := by
  subst h
  have h_empty {β : Type} : (RingBuffer.empty : RingBuffer β qDepth).Holds [] := .empty h_depth
  refine ⟨⟨List.nodup_nil, ?_, ?_⟩, fun _ => h_empty, ?_,
    fun _ => h_empty⟩
  · intro t h_t
    exact absurd h_t List.not_mem_nil
  · intro t h_t
    exact absurd h_t List.not_mem_nil
  · intro _
    exact h_empty.mark_tail

theorem inv_allocTag {ns hctxIdx tag : Nat} (h : Inv L s)
    (h_step : step L qDepth s (.allocTag ns hctxIdx tag) = some s') : Inv L s' := by
  rw [step] at h_step
  split at h_step
  case isFalse => cases h_step
  case isTrue h_free =>
    obtain ⟨-, h_tag, h_free⟩ := h_free
    cases h_step
    -- the tag is not in use, so no request has its key
    have h_new : tagKey L ⟨ns, hctxIdx + 1, tag⟩ ∉ s.tracked.map fun t => tagKey L t.req := by
      intro h_mem
      obtain ⟨t, h_t, h_key⟩ := List.mem_map.mp h_mem
      have h_taken := h.tags.taken t h_t
      rw [tagKey, tagKey, Prod.mk.injEq] at h_key
      rw [h_key.1, h_key.2, Nat.add_sub_cancel, h_free] at h_taken
      exact Bool.false_ne_true h_taken
    -- a request that is only held is in no ring
    have h_same (stage : Stage) (h_stage : stage ≠ .held) (place : Request → Nat) (i : Nat) :
        atStage (s.tracked ++ [⟨⟨ns, hctxIdx + 1, tag⟩, .held⟩]) stage place i =
          atStage s.tracked stage place i := by
      rw [atStage, List.filter_append, List.filter_singleton,
        decide_eq_false fun h => h_stage h.1.symm]
      exact congrArg _ (List.append_nil _)
    have h_copied := h_same .copied (by decide)
    have h_posted := h_same .posted (by decide)
    refine ⟨⟨?_, ?_, ?_⟩, ?_, ?_, ?_⟩
    · rw [List.map_append, List.map_singleton]
      exact (List.nodup_append_comm.mp (List.nodup_cons.mpr ⟨h_new, h.tags.keys⟩))
    · intro t h_t
      rcases List.mem_append.mp h_t with h_t | h_t
      · exact h.tags.valid t h_t
      · rw [List.mem_singleton.mp h_t]
        exact ⟨Nat.le_add_left _ _, h_tag⟩
    · intro t h_t
      show Function.update s.taken _ _ _ _ = true
      rcases List.mem_append.mp h_t with h_t | h_t
      · have h_taken := h.tags.taken t h_t
        rw [Function.update_apply]
        split
        case isFalse => exact h_taken
        case isTrue h_idx =>
          rw [h_idx] at h_taken
          rw [Function.update_apply]
          split
          · rfl
          · exact h_taken
      · rw [List.mem_singleton.mp h_t]
        show Function.update s.taken _ _ (hctxTags L (hctxIdx + 1 - 1)) tag = true
        rw [Nat.add_sub_cancel, Function.update_self, Function.update_self]
    · intro nqid
      rw [unfetched, h_copied]
      exact h.sq nqid
    · intro nqid
      rw [unfetched, h_copied]
      exact h.doorbell nqid
    · intro cqid
      rw [unread, h_posted]
      exact h.cq cqid

/-- One submission queue changes, and the commands that are in it. -/
theorem Inv.updateSq {nqid : Nat} {cmds : Nat → List Request} (h : Inv L s)
    (nvmeq : NvmeSq qDepth) (h_ne : ∀ i, i ≠ nqid → cmds i = unfetched s.tracked i)
    (h_holds : nvmeq.ring.Holds (cmds nqid))
    (h_mark : RingBuffer.Mark nvmeq.ring (cmds nqid) nvmeq.lastSqTail) :
    (∀ i, (Function.update s.sq nqid nvmeq i).ring.Holds (cmds i)) ∧
      ∀ i, RingBuffer.Mark (Function.update s.sq nqid nvmeq i).ring (cmds i)
        (Function.update s.sq nqid nvmeq i).lastSqTail := by
  rw [Function.forall_update_iff s.sq fun i q => q.ring.Holds (cmds i),
    Function.forall_update_iff s.sq fun i q => RingBuffer.Mark q.ring (cmds i) q.lastSqTail]
  refine ⟨⟨h_holds, fun i h_i => ?_⟩, h_mark, fun i h_i => ?_⟩
  · rw [h_ne i h_i]
    exact h.sq i
  · rw [h_ne i h_i]
    exact h.doorbell i

/-- One completion queue changes, and the entries that are in it. -/
theorem Inv.updateCq {cqid : Nat} {cqes : Nat → List Cqe} (h : Inv L s)
    (ring : RingBuffer Cqe qDepth) (h_ne : ∀ i, i ≠ cqid → cqes i = unread L s.tracked i)
    (h_holds : ring.Holds (cqes cqid)) :
    ∀ i, (Function.update s.cq cqid ring i).Holds (cqes i) := by
  rw [Function.forall_update_iff s.cq fun i q => q.Holds (cqes i)]
  refine ⟨h_holds, fun i h_i => ?_⟩
  rw [h_ne i h_i]
  exact h.cq i

theorem inv_copyCmd {req : Request} (h_depth : 2 ≤ qDepth) (h : Inv L s)
    (h_step : step L qDepth s (.copyCmd req) = some s') : Inv L s' := by
  rw [step] at h_step
  split at h_step
  case isFalse => cases h_step
  case isTrue h_mem =>
    cases h_step
    have h_tags := h.tags.restage h_mem .copied
    have h_room := h_tags.unfetched_le req.nqid
    have h_posted (cqid : Nat) : unread L (restage s.tracked ⟨req, .held⟩ .copied) cqid =
        unread L s.tracked cqid :=
      congrArg _ (atStage_restage_of_ne (show Stage.held ≠ .posted by decide) (by decide) cqid)
    have h_enter (nqid : Nat) : unfetched (restage s.tracked ⟨req, .held⟩ .copied) nqid =
        if req.nqid = nqid then unfetched s.tracked nqid ++ [req] else unfetched s.tracked nqid :=
      atStage_enter (show Stage.held ≠ .copied by decide) nqid
    have h_ne (i : Nat) (h_i : i ≠ req.nqid) :
        unfetched (restage s.tracked ⟨req, .held⟩ .copied) i = unfetched s.tracked i := by
      rw [h_enter, if_neg (Ne.symm h_i)]
    -- the request itself is among the commands that the tags bound
    rw [h_enter, if_pos rfl, List.length_append, List.length_singleton] at h_room
    have h_holds := (h.sq req.nqid).push (x := req) (by omega)
    have h_mark := (h.doorbell req.nqid).push (x := req)
    obtain ⟨h_sq, h_doorbell⟩ := h.updateSq (nvmeSqCopyCmd (s.sq req.nqid) req) h_ne
      (by rwa [h_enter, if_pos rfl]) (by rwa [h_enter, if_pos rfl])
    refine ⟨h_tags, h_sq, h_doorbell, fun cqid => ?_⟩
    rw [h_posted]
    exact h.cq cqid

theorem nvmeWriteSqDb_mark {nvmeq : NvmeSq qDepth} {xs : List Request} (h : nvmeq.ring.Holds xs)
    (h_mark : RingBuffer.Mark nvmeq.ring xs nvmeq.lastSqTail) (writeSq : Bool) :
    (nvmeWriteSqDb nvmeq writeSq).ring = nvmeq.ring ∧
      RingBuffer.Mark nvmeq.ring xs (nvmeWriteSqDb nvmeq writeSq).lastSqTail := by
  simp only [nvmeWriteSqDb]
  split
  · exact ⟨rfl, h_mark⟩
  · exact ⟨rfl, h.mark_tail⟩

/-- Writing a doorbell moves no entry. -/
theorem inv_doorbell (h : Inv L s) {nqid : Nat} {nvmeq : NvmeSq qDepth}
    (h_ring : nvmeq.ring = (s.sq nqid).ring)
    (h_mark : RingBuffer.Mark (s.sq nqid).ring (unfetched s.tracked nqid) nvmeq.lastSqTail) :
    Inv L { s with sq := Function.update s.sq nqid nvmeq } := by
  obtain ⟨h_sq, h_doorbell⟩ := h.updateSq nvmeq (fun _ _ => rfl)
    (by
      rw [h_ring]
      exact h.sq nqid)
    (by rwa [h_ring])
  exact ⟨h.tags, h_sq, h_doorbell, h.cq⟩

theorem inv_writeSqDb {nqid : Nat} {writeSq : Bool} (h : Inv L s)
    (h_step : step L qDepth s (.writeSqDb nqid writeSq) = some s') : Inv L s' := by
  cases h_step
  obtain ⟨h_ring, h_mark⟩ := nvmeWriteSqDb_mark (h.sq nqid) (h.doorbell nqid) writeSq
  exact inv_doorbell h h_ring h_mark

theorem inv_commitRqs {nqid : Nat} (h : Inv L s)
    (h_step : step L qDepth s (.commitRqs nqid) = some s') : Inv L s' := by
  cases h_step
  obtain ⟨h_ring, h_mark⟩ := nvmeWriteSqDb_mark (h.sq nqid) (h.doorbell nqid) true
  rw [nvmeCommitSq]
  split
  · exact inv_doorbell h h_ring h_mark
  · exact inv_doorbell h rfl (h.doorbell nqid)

theorem inv_fetch {nqid : Nat} (h : Inv L s)
    (h_step : step L qDepth s (.fetch nqid) = some s') : Inv L s' := by
  rw [step] at h_step
  split at h_step
  case isTrue => cases h_step
  case isFalse h_rung =>
    rw [Option.map_eq_some_iff] at h_step
    obtain ⟨req, h_slot, rfl⟩ := h_step
    have h_holds := h.sq nqid
    have h_mark := h.doorbell nqid
    -- the doorbell is past the head, so the slot there holds the oldest command
    obtain ⟨front, rest, h_front⟩ :=
      List.exists_cons_of_ne_nil (h_mark.ne_nil h_holds.head_lt h_rung)
    rw [h_front] at h_holds h_mark
    have h_req : front = req := Option.some.inj (h_holds.front.symm.trans h_slot)
    rw [h_req] at h_front h_holds h_mark
    have h_mem : req ∈ unfetched s.tracked nqid := by
      rw [h_front]
      exact List.mem_cons_self ..
    obtain ⟨h_tracked, h_nqid⟩ := mem_of_mem_atStage h_mem
    have h_posted (cqid : Nat) : unread L (restage s.tracked ⟨req, .copied⟩ .fetched) cqid =
        unread L s.tracked cqid :=
      congrArg _ (atStage_restage_of_ne (show Stage.copied ≠ .posted by decide) (by decide) cqid)
    have h_leave (i : Nat) : unfetched (restage s.tracked ⟨req, .copied⟩ .fetched) i =
        if nqid = i then rest else unfetched s.tracked i := by
      rw [← h_nqid]
      rw [← h_nqid] at h_front
      exact atStage_leave (by decide) h_front i
    have h_ne (i : Nat) (h_i : i ≠ nqid) :
        unfetched (restage s.tracked ⟨req, .copied⟩ .fetched) i = unfetched s.tracked i := by
      rw [h_leave, if_neg (Ne.symm h_i)]
    have h_popped := h_mark.pop h_holds.head_lt h_rung
    obtain ⟨h_sq, h_doorbell⟩ := h.updateSq
      { s.sq nqid with ring := (s.sq nqid).ring.pop } h_ne
      (by
        rw [h_leave, if_pos rfl]
        exact h_holds.pop)
      (by rwa [h_leave, if_pos rfl])
    refine ⟨h.tags.restage h_tracked .fetched, h_sq, h_doorbell, fun cqid => ?_⟩
    rw [h_posted]
    exact h.cq cqid

theorem inv_complete {req : Request} (h_depth : 2 ≤ qDepth) (h : Inv L s)
    (h_step : step L qDepth s (.complete req) = some s') : Inv L s' := by
  rw [step] at h_step
  split at h_step
  case isFalse => cases h_step
  case isTrue h_mem =>
    cases h_step
    have h_tags := h.tags.restage h_mem .posted
    have h_room := h_tags.unread_le (assocCq L req.nqid)
    have h_copied (nqid : Nat) : unfetched (restage s.tracked ⟨req, .fetched⟩ .posted) nqid =
        unfetched s.tracked nqid :=
      atStage_restage_of_ne (show Stage.fetched ≠ .copied by decide) (by decide) nqid
    have h_enter (cqid : Nat) : unread L (restage s.tracked ⟨req, .fetched⟩ .posted) cqid =
        if assocCq L req.nqid = cqid then unread L s.tracked cqid ++ [cqeOf req]
        else unread L s.tracked cqid := by
      rw [unread, atStage_enter (show Stage.fetched ≠ .posted by decide)]
      split
      · rw [List.map_append, List.map_singleton, unread]
      · rw [unread]
    have h_ne (i : Nat) (h_i : i ≠ assocCq L req.nqid) :
        unread L (restage s.tracked ⟨req, .fetched⟩ .posted) i = unread L s.tracked i := by
      rw [h_enter, if_neg (Ne.symm h_i)]
    -- the entry itself is among those that the tags of the CQ bound
    rw [h_enter, if_pos rfl, List.length_append, List.length_singleton] at h_room
    refine ⟨h_tags, ?_, ?_, ?_⟩
    · intro nqid
      rw [h_copied]
      exact h.sq nqid
    · intro nqid
      rw [h_copied]
      exact h.doorbell nqid
    · apply h.updateCq _ h_ne
      rw [h_enter, if_pos rfl]
      exact (h.cq _).push (by omega)

theorem inv_handleCqe {cqid : Nat} (h : Inv L s)
    (h_step : step L qDepth s (.handleCqe cqid) = some s') : Inv L s' := by
  rw [step] at h_step
  split at h_step
  case isTrue => cases h_step
  case isFalse h_pending =>
    rw [Option.map_eq_some_iff] at h_step
    obtain ⟨cqe, h_slot, rfl⟩ := h_step
    have h_holds := h.cq cqid
    -- the phase bit says that there is an entry, so a posted request is behind it
    have h_some : unread L s.tracked cqid ≠ [] := fun h_nil =>
      h_pending (h_holds.head_eq_tail_iff.mpr h_nil)
    rw [unread] at h_some h_holds
    obtain ⟨req, rest, h_front⟩ :=
      List.exists_cons_of_ne_nil (fun h_nil => h_some (congrArg (List.map cqeOf) h_nil))
    rw [h_front, List.map_cons] at h_holds
    have h_cqe : cqeOf req = cqe := Option.some.inj (h_holds.front.symm.trans h_slot)
    have h_mem : req ∈ atStage s.tracked .posted (fun req => assocCq L req.nqid) cqid := by
      rw [h_front]
      exact List.mem_cons_self ..
    obtain ⟨h_tracked, h_cq⟩ := mem_of_mem_atStage h_mem
    -- the command id leads back to the request of the entry
    have h_find : nvmeFindRq L s.tracked cqid cqe.commandId = some ⟨req, .posted⟩ := by
      rw [← h_cqe]
      exact nvmeFindRq_eq h.tags.keys h_tracked (h.tags.valid _ h_tracked).1 h_cq
    have h_copied (nqid : Nat) : unfetched (restage s.tracked ⟨req, .posted⟩ .held) nqid =
        unfetched s.tracked nqid :=
      atStage_restage_of_ne (show Stage.posted ≠ .copied by decide) (by decide) nqid
    have h_leave (i : Nat) : unread L (restage s.tracked ⟨req, .posted⟩ .held) i =
        if cqid = i then rest.map cqeOf else unread L s.tracked i := by
      rw [← h_cq] at h_front
      rw [unread, atStage_leave (by decide) h_front i, h_cq]
      split
      · rfl
      · rfl
    have h_ne (i : Nat) (h_i : i ≠ cqid) :
        unread L (restage s.tracked ⟨req, .posted⟩ .held) i = unread L s.tracked i := by
      rw [h_leave, if_neg (Ne.symm h_i)]
    rw [h_find]
    refine ⟨h.tags.restage h_tracked .held, ?_, ?_, ?_⟩
    · intro nqid
      show (s.sq nqid).ring.Holds (unfetched (restage s.tracked ⟨req, .posted⟩ .held) nqid)
      rw [h_copied]
      exact h.sq nqid
    · intro nqid
      show RingBuffer.Mark (s.sq nqid).ring
        (unfetched (restage s.tracked ⟨req, .posted⟩ .held) nqid) (s.sq nqid).lastSqTail
      rw [h_copied]
      exact h.doorbell nqid
    · apply h.updateCq _ h_ne
      rw [h_leave, if_pos rfl]
      exact h_holds.pop

theorem inv_freeTag {req : Request} (h : Inv L s)
    (h_step : step L qDepth s (.freeTag req) = some s') : Inv L s' := by
  rw [step] at h_step
  split at h_step
  case isFalse => cases h_step
  case isTrue h_mem =>
    cases h_step
    have h_keys := (erase_keys (L := L) h_mem).nodup_iff.mp h.tags.keys
    rw [List.nodup_cons] at h_keys
    have h_same (stage : Stage) (h_stage : stage ≠ .held) (place : Request → Nat) (i : Nat) :
        atStage (s.tracked.erase ⟨req, .held⟩) stage place i =
          atStage s.tracked stage place i := by
      rw [atStage, ← List.erase_filter, List.erase_of_not_mem, atStage]
      intro h_in
      exact h_stage (of_decide_eq_true (List.mem_filter.mp h_in).2).1.symm
    refine ⟨⟨h_keys.2, fun t h_t => h.tags.valid t (List.mem_of_mem_erase h_t), ?_⟩,
      ?_, ?_, ?_⟩
    · intro t h_t
      -- the other requests of the tag set have other tags
      have h_taken := h.tags.taken t (List.mem_of_mem_erase h_t)
      have h_ne : tagKey L t.req ≠ tagKey L req := fun h_eq =>
        h_keys.1 (h_eq ▸ List.mem_map_of_mem h_t)
      show Function.update s.taken _ _ _ _ = true
      rw [Function.update_apply]
      split
      case isFalse => exact h_taken
      case isTrue h_idx =>
        have h_tag : t.req.tag ≠ req.tag := fun h_tag => h_ne (Prod.ext h_idx h_tag)
        rw [h_idx] at h_taken
        rw [Function.update_of_ne h_tag]
        exact h_taken
    · intro nqid
      rw [unfetched, h_same .copied (by decide)]
      exact h.sq nqid
    · intro nqid
      rw [unfetched, h_same .copied (by decide)]
      exact h.doorbell nqid
    · intro cqid
      rw [unread, h_same .posted (by decide)]
      exact h.cq cqid

theorem step_inv {e : Event} (h_depth : 2 ≤ qDepth) (h : Inv L s)
    (h_step : step L qDepth s e = some s') : Inv L s' := by
  cases e with
  | allocTag ns hctxIdx tag => exact inv_allocTag h h_step
  | copyCmd req => exact inv_copyCmd h_depth h h_step
  | writeSqDb nqid writeSq => exact inv_writeSqDb h h_step
  | commitRqs nqid => exact inv_commitRqs h h_step
  | fetch nqid => exact inv_fetch h h_step
  | complete req => exact inv_complete h_depth h h_step
  | handleCqe cqid => exact inv_handleCqe h h_step
  | freeTag req => exact inv_freeTag h h_step

end Events

/-! ### The calls are runs -/

section Calls

variable {L : QueueLayout} {qDepth : Nat}

/-- The requests that events of the driver copy into rings. -/
def copies (es : List Event) : List Request :=
  es.filterMap fun e => match e with
    | .copyCmd req => some req
    | _ => none

/-- Copying commands and writing doorbells. -/
def IsSubmission : Event → Prop
  | .copyCmd _ | .writeSqDb _ _ | .commitRqs _ => True
  | _ => False

/-- Nothing stops the submission of different requests that are held. -/
theorem run_submission {es : List Event} {s : State qDepth} (h_es : ∀ e ∈ es, IsSubmission e)
    (h_nodup : (copies es).Nodup) (h_held : ∀ req ∈ copies es, ⟨req, .held⟩ ∈ s.tracked) :
    (Lts.run (step L qDepth) s es).isSome = true := by
  induction es generalizing s with
  | nil => rfl
  | cons e es ih =>
      have h_tail := fun e' h_e' => h_es e' (List.mem_cons_of_mem e h_e')
      have h_e := h_es e (List.mem_cons_self ..)
      cases e with
      | copyCmd req =>
          have h_copies : copies (.copyCmd req :: es) = req :: copies es := rfl
          rw [h_copies] at h_nodup h_held
          obtain ⟨h_notMem, h_nodup⟩ := List.nodup_cons.mp h_nodup
          have h_mem := h_held req (List.mem_cons_self ..)
          rw [Lts.run_cons_of_step (if_pos h_mem)]
          apply ih h_tail h_nodup
          intro req' h_req'
          -- the other requests stay held
          have h_ne : req' ≠ req := fun h_eq => h_notMem (h_eq ▸ h_req')
          apply List.mem_append_left
          apply (List.mem_erase_of_ne fun h_eq => h_ne (congrArg Tracked.req h_eq)).mpr
          exact h_held req' (List.mem_cons_of_mem req h_req')
      | writeSqDb nqid writeSq => exact ih h_tail h_nodup h_held
      | commitRqs nqid => exact ih h_tail h_nodup h_held
      | allocTag => exact h_e.elim
      | fetch => exact h_e.elim
      | complete => exact h_e.elim
      | handleCqe => exact h_e.elim
      | freeTag => exact h_e.elim

theorem copies_append (es es' : List Event) : copies (es ++ es') = copies es ++ copies es' :=
  List.filterMap_append

theorem copies_submitCmds (nqid : Nat) (rqlist : List Request) :
    copies (nvmeSubmitCmds nqid rqlist) = rqlist := by
  have h_map : copies (rqlist.map .copyCmd) = rqlist := by
    induction rqlist with
    | nil => rfl
    | cons req rqlist ih => exact congrArg (List.cons req) ih
  rw [nvmeSubmitCmds, copies_append, h_map]
  exact List.append_nil _

theorem submitCmds_isSubmission {nqid : Nat} {rqlist : List Request} {e : Event}
    (h : e ∈ nvmeSubmitCmds nqid rqlist) : IsSubmission e := by
  rw [nvmeSubmitCmds, List.mem_append, List.mem_singleton] at h
  rcases h with h_copy | rfl
  · obtain ⟨req, -, rfl⟩ := List.mem_map.mp h_copy
    exact trivial
  · exact trivial

/-- The requests that were prepared. -/
def prepared (rqlist : List (Request × Bool)) : List Request :=
  (rqlist.filter (·.2)).map (·.1)

theorem prepared_cons (req : Request) (prepOk : Bool) (rqlist : List (Request × Bool)) :
    prepared ((req, prepOk) :: rqlist) =
      (if prepOk then [req] else []) ++ prepared rqlist := by
  cases prepOk with
  | true => rfl
  | false => rfl

/-- A batch is submitted before the list ends. -/
theorem queueRqsLoop_copies (rqlist : List (Request × Bool)) (batch : List Request)
    (h : batch ≠ [] → rqlist ≠ []) :
    copies (queueRqsLoop rqlist batch) = batch ++ prepared rqlist ∧
      ∀ e ∈ queueRqsLoop rqlist batch, IsSubmission e := by
  induction rqlist generalizing batch with
  | nil =>
      have h_batch : batch = [] := by
        by_contra h_ne
        exact h h_ne rfl
      rw [h_batch]
      exact ⟨rfl, fun e h_e => absurd h_e List.not_mem_nil⟩
  | cons head rest ih =>
      obtain ⟨req, prepOk⟩ := head
      have h_next : (if prepOk then batch ++ [req] else batch) ++ prepared rest =
          batch ++ prepared ((req, prepOk) :: rest) := by
        rw [prepared_cons]
        split
        · exact List.append_assoc ..
        · rfl
      rw [queueRqsLoop.eq_def, ← h_next]
      simp only
      generalize (if prepOk then batch ++ [req] else batch) = batch'
      -- nothing to submit yet, the end of the list, another hctx next, or the same hctx
      split
      case isTrue h_empty =>
        rw [h_empty]
        exact ih [] fun h_ne => absurd rfl h_ne
      case isFalse h_some =>
        split
        case h_1 =>
          rw [copies_submitCmds]
          exact ⟨(List.append_nil _).symm, fun _ => submitCmds_isSubmission⟩
        case h_2 next nextOk rest' =>
          split
          · have h_rest := ih [] fun h_ne => absurd rfl h_ne
            rw [copies_append, copies_submitCmds, h_rest.1, List.nil_append]
            refine ⟨rfl, ?_⟩
            intro e h_e
            rcases List.mem_append.mp h_e with h_e | h_e
            · exact submitCmds_isSubmission h_e
            · exact h_rest.2 e h_e
          · exact ih _ fun _ => List.cons_ne_nil _ _

/-- `nvme_queue_rqs` copies the prepared requests, in order, whenever they are held. -/
theorem nvmeQueueRqs_run {s : State qDepth} {rqlist : List (Request × Bool)}
    (h_nodup : (prepared rqlist).Nodup)
    (h_held : ∀ req ∈ prepared rqlist, ⟨req, .held⟩ ∈ s.tracked) :
    copies (nvmeQueueRqs rqlist) = prepared rqlist ∧
      (Lts.run (step L qDepth) s (nvmeQueueRqs rqlist)).isSome = true := by
  obtain ⟨h_copies, h_events⟩ :=
    queueRqsLoop_copies rqlist [] fun h_ne => absurd rfl h_ne
  rw [List.nil_append] at h_copies
  exact ⟨h_copies, run_submission h_events (h_copies ▸ h_nodup) (h_copies ▸ h_held)⟩

end Calls

/-! ## Every interleaving -/

/-- In every state of every interleaving, for every layout and every queue depth. -/
theorem tagSets_noOverflow (L : QueueLayout) {qDepth : Nat} (h_depth : 2 ≤ qDepth) {s : State qDepth}
    (h : Lts.Reach (step L qDepth) Lts.anyStep (Init qDepth) s) : NoOverflow L s := by
  have h_inv : Inv L s :=
    h.invariant (fun _ h_init => inv_init (Nat.le_of_succ_le h_depth) h_init)
      fun _ _ _ h_inv _ h_step => step_inv h_depth h_inv h_step
  refine ⟨?_, ?_, ?_, h_inv.sq, ?_, h_inv.cq⟩
  · intro cqid
    exact (h_inv.tags.outstanding_tags cqid).1
  · intro cqid
    exact (h_inv.tags.outstanding_tags cqid).2
  · intro nqid
    exact h_inv.tags.unfetched_le nqid
  · intro cqid
    exact h_inv.tags.unread_le cqid

/-- Four queues on two completion queues. -/
def fourOnTwo : QueueLayout := ⟨⟨4, 2⟩, by decide, by decide⟩

/-- Queues 1 and 2 use both tags of their CQ, one namespace each; one command has completed. -/
def bothTags : List Event :=
  [.allocTag 1 0 0, .allocTag 2 1 1] ++ nvmeQueueRq ⟨1, 1, 0⟩ true false ++
    nvmeQueueRqs [(⟨2, 2, 1⟩, true)] ++ [.fetch 2] ++ nvmeCommitRqs 1 ++ [.complete ⟨2, 2, 1⟩]

theorem tagSets_noOverflow_bothTags :
    ∃ s, Lts.run (step fourOnTwo 3) ⟨fun _ _ => false, [], fun _ => ⟨.empty, 0⟩,
      fun _ => .empty⟩ bothTags = some s ∧ NoOverflow fourOnTwo s := by
  cases h_run : Lts.run (step fourOnTwo 3) ⟨fun _ _ => false, [], fun _ => ⟨.empty, 0⟩,
      fun _ => .empty⟩ bothTags with
  | none =>
      have h_some : (Lts.run (step fourOnTwo 3) ⟨fun _ _ => false, [], fun _ => ⟨.empty, 0⟩,
          fun _ => .empty⟩ bothTags).isSome = true := by
        decide
      rw [h_run] at h_some
      cases h_some
  | some s =>
      exact ⟨s, rfl, tagSets_noOverflow fourOnTwo (by decide)
        (Lts.reach_iff_run.mpr ⟨_, _, rfl, h_run⟩)⟩

end Daredevil.Nvme.Overflow
