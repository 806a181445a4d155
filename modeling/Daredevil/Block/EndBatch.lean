/-
  Daredevil.Block.EndBatch

  The completion of a batch of requests, `blk_mq_end_request_batch` (`block/blk-mq.c`).
  The tags of the requests that are finished are collected in an array, which is flushed
  when it is full and when a request of another hctx comes.

  One flush is one call for all its tags, so its effects are compared one tag at a time
  (`effects`): a bit that is cleared, a reference of a queue that is dropped, an active
  request that is not counted any more.

    * `flush_perm`              — what a flush does for each of its tags;
    * `endRequest_returns`      — one turn of the loop;
    * `endRequestBatch_returns` — every finished request has its own effects, once, and the
                                  others have none.
-/
import Daredevil.Lib.Returns
import Mathlib.Data.List.Perm.Basic
import Mathlib.Data.List.Count

namespace Daredevil.EndBatch

/-! ## The source functions -/

/-- What `end_io` returns. -/
inductive RqEndIoRet where
  /-- `RQ_END_IO_NONE`: the handler keeps the request -/
  | none
  /-- `RQ_END_IO_FREE` -/
  | free
  deriving DecidableEq, Repr

structure Request where
  mqHctx : Nat
  tag : Nat
  /-- what the handler returns, if there is one -/
  endIo : Option RqEndIoRet
  /-- the references when `req_ref_put_and_test` drops one -/
  ref : Nat
  deriving DecidableEq, Repr

/-- The hctxs, of any number of queues, and their tag sets. -/
structure Env where
  queue : Nat → Nat
  tags : Nat → Nat
  /-- `BLK_MQ_F_TAG_QUEUE_SHARED` -/
  tagQueueShared : Nat → Bool
  /-- `blk_mq_is_shared_tags` -/
  isSharedTags : Nat → Bool
  nrReservedTags : Nat → Nat

/-- A counter of active requests. -/
inductive Counter where
  /-- `nr_active_requests_shared_tags` of a queue -/
  | queue (queue : Nat)
  /-- `nr_active` of an hctx -/
  | hctx (hctx : Nat)
  deriving DecidableEq, Repr

inductive Bitmap where
  | bitmapTags (tags : Nat)
  | breservedTags (tags : Nat)
  deriving DecidableEq, Repr

inductive Event where
  /-- `__blk_mq_sub_active_requests` -/
  | subActive (counter : Counter) (val : Nat)
  /-- `blk_mq_put_tags` -/
  | putTags (tags : Nat) (tagArray : List Nat)
  /-- `percpu_ref_put_many` of `q_usage_counter` -/
  | putMany (queue nr : Nat)
  deriving DecidableEq, Repr

/-- `TAG_COMP_BATCH` -/
def tagCompBatch : Nat := 32

/-- The state of the loop: `tags[nr_tags]`, `cur_hctx`, and what has been flushed. -/
structure State where
  tags : List Nat
  curHctx : Option Nat
  log : List Event
  deriving Repr

variable (env : Env)

/-- The counter of `__blk_mq_sub_active_requests`. -/
def activeCounter (hctx : Nat) : Counter :=
  if env.isSharedTags hctx then .queue (env.queue hctx) else .hctx hctx

/-- `blk_mq_flush_tag_batch` -/
def blkMqFlushTagBatch (hctx : Nat) (tagArray : List Nat) : List Event :=
  (if env.tagQueueShared hctx then [.subActive (activeCounter env hctx) tagArray.length] else []) ++
    [.putTags (env.tags hctx) tagArray, .putMany (env.queue hctx) tagArray.length]

/-- A request that `blk_mq_end_request_batch` finishes: it drops the last reference. -/
def finished (rq : Request) : Bool := rq.endIo != some .none && rq.ref == 1

/-- A turn of the loop of `blk_mq_end_request_batch`; `none` is a write past `tags`. -/
def endRequest (s : State) (rq : Request) : Option State :=
  if rq.endIo = some .none then some s
  -- `req_ref_put_and_test`
  else if rq.ref ≠ 1 then some s
  else
    let s :=
      if s.tags.length = tagCompBatch ∨ s.curHctx ≠ some rq.mqHctx then
        { tags := []
          curHctx := some rq.mqHctx
          log := s.log ++ (s.curHctx.map fun hctx => blkMqFlushTagBatch env hctx s.tags).getD [] }
      else s
    if s.tags.length < tagCompBatch then some { s with tags := s.tags ++ [rq.tag] } else none

/-- `blk_mq_end_request_batch` -/
def blkMqEndRequestBatch (batch : List Request) : Option (List Event) :=
  (batch.foldlM (endRequest env) ⟨[], none, []⟩).bind fun s =>
  if s.tags = [] then some s.log
  else s.curHctx.map fun hctx => s.log ++ blkMqFlushTagBatch env hctx s.tags

/-- `blk_mq_put_tag`: the bit that is cleared -/
def blkMqPutTag (tags tag : Nat) : Bitmap × Int :=
  if tag < env.nrReservedTags tags then (.breservedTags tags, tag)
  else (.bitmapTags tags, (tag : Int) - env.nrReservedTags tags)

/-- `blk_mq_put_tags` -/
def blkMqPutTags (tags : Nat) (tagArray : List Nat) : List (Bitmap × Int) :=
  tagArray.map fun (tag : Nat) => (.bitmapTags tags, (tag : Int) - env.nrReservedTags tags)

/-! ## Effects -/

/-- The effects of the calls, for one request each. -/
inductive Effect where
  | subActive (counter : Counter)
  | clearBit (bit : Bitmap × Int)
  | putUsage (queue : Nat)
  deriving DecidableEq, Repr

def Event.effects : Event → List Effect
  | .subActive counter val => List.replicate val (.subActive counter)
  | .putTags tags tagArray => (blkMqPutTags env tags tagArray).map .clearBit
  | .putMany queue nr => List.replicate nr (.putUsage queue)

def effects (log : List Event) : List Effect := log.flatMap (Event.effects env)

/-- The effects of finishing a request of `hctx` with `tag`. -/
def tagEffects (hctx tag : Nat) : List Effect :=
  (if env.tagQueueShared hctx then [.subActive (activeCounter env hctx)] else []) ++
    ((blkMqPutTags env (env.tags hctx) [tag]).map .clearBit ++ [.putUsage (env.queue hctx)])

/-- The effects of finishing a request: on the tag set of its own hctx, on the counter of active
requests if the tags are shared, and on the usage counter of its queue. -/
def requestEffects (rq : Request) : List Effect := tagEffects env rq.mqHctx rq.tag

variable {env} {s : State} {done : List Request}

theorem effects_append (log log' : List Event) :
    effects env (log ++ log') = effects env log ++ effects env log' := List.flatMap_append

/-- A flush is the sum of what it is for each of its tags. -/
theorem flush_perm (hctx : Nat) (tagArray : List Nat) :
    (effects env (blkMqFlushTagBatch env hctx tagArray)).Perm
      (tagArray.flatMap (tagEffects env hctx)) := by
  induction tagArray with
  | nil =>
      rw [blkMqFlushTagBatch, effects_append]
      split <;> exact .refl _
  | cons tag tagArray ih =>
      apply List.Perm.trans _ (ih.append_left (tagEffects env hctx tag))
      apply List.perm_iff_count.mpr
      intro effect
      simp only [blkMqFlushTagBatch, tagEffects, effects, blkMqPutTags]
      split <;>
        · simp only [Event.effects, blkMqPutTags, List.length_cons, List.replicate_succ,
            List.map_cons, List.map_nil, List.flatMap_cons, List.flatMap_nil, List.flatMap_append,
            List.count_append, List.count_cons, List.count_nil]
          omega

/-! ## The loop -/

/-- The tags that are not flushed yet. -/
def pending (env : Env) (s : State) : List Effect :=
  match s.curHctx with
  | none => []
  | some hctx => s.tags.flatMap (tagEffects env hctx)

/-- The requests `done` have been popped. -/
structure Collected (env : Env) (done : List Request) (s : State) : Prop where
  length_le : s.tags.length ≤ tagCompBatch
  tags_nil : s.curHctx = none → s.tags = []
  account : (effects env s.log ++ pending env s).Perm
    ((done.filter finished).flatMap (requestEffects env))

/-- A flush settles what was pending. -/
theorem Collected.flushed (h : Collected env done s) (hctx : Nat) :
    Collected env done
      { tags := []
        curHctx := some hctx
        log := s.log ++ (s.curHctx.map fun hctx => blkMqFlushTagBatch env hctx s.tags).getD [] } := by
  refine ⟨Nat.zero_le _, fun _ => rfl, ?_⟩
  apply List.Perm.trans _ h.account
  show (effects env _ ++ []).Perm _
  rw [List.append_nil, effects_append]
  apply List.Perm.append_left
  unfold pending
  cases s.curHctx with
  | none => exact .refl _
  | some hctx => exact flush_perm hctx s.tags

/-- Appending a tag of the current hctx. -/
theorem Collected.push (h : Collected env done s) {rq : Request} (h_fin : finished rq = true)
    (h_hctx : s.curHctx = some rq.mqHctx) (h_room : s.tags.length < tagCompBatch) :
    Collected env (done ++ [rq]) { s with tags := s.tags ++ [rq.tag] } := by
  refine ⟨?_, fun h_none => ?_, ?_⟩
  · rw [List.length_append, List.length_singleton]
    exact h_room
  · rw [h_hctx] at h_none
    cases h_none
  · have h_pending : pending env { s with tags := s.tags ++ [rq.tag] } =
        pending env s ++ requestEffects env rq := by
      simp only [pending, h_hctx, requestEffects, List.flatMap_append, List.flatMap_cons,
        List.flatMap_nil, List.append_nil]
    have h_filter : (done ++ [rq]).filter finished = done.filter finished ++ [rq] := by
      rw [List.filter_append, List.filter_cons_of_pos h_fin, List.filter_nil]
    rw [h_pending, h_filter, List.flatMap_append, ← List.append_assoc, List.flatMap_cons,
      List.flatMap_nil, List.append_nil]
    exact h.account.append_right _

/-- A request that is not finished has no effect. -/
theorem Collected.skip (h : Collected env done s) {rq : Request} (h_fin : finished rq = false) :
    Collected env (done ++ [rq]) s := by
  refine ⟨h.length_le, h.tags_nil, ?_⟩
  rw [List.filter_append, List.filter_cons_of_neg (by simp [h_fin]), List.filter_nil, List.append_nil]
  exact h.account

theorem endRequest_returns (h : Collected env done s) (rq : Request) :
    Returns (endRequest env s rq) (Collected env (done ++ [rq])) := by
  rw [endRequest]
  split
  case isTrue h_none => exact .some (h.skip (by simp [finished, h_none]))
  split
  case isTrue h_ref => exact .some (h.skip (by simp [finished, h_ref]))
  case isFalse h_kept h_ref =>
    have h_fin : finished rq = true := by
      simp only [finished, Bool.and_eq_true, bne_iff_ne, beq_iff_eq]
      exact ⟨h_kept, not_not.mp h_ref⟩
    dsimp only
    split
    case isTrue =>
      -- the array is empty after the flush
      have h_room : ([] : List Nat).length < tagCompBatch := by decide
      rw [if_pos h_room]
      exact .some ((h.flushed rq.mqHctx).push h_fin rfl h_room)
    case isFalse h_same =>
      rw [not_or, not_not] at h_same
      have h_room : s.tags.length < tagCompBatch := Nat.lt_of_le_of_ne h.length_le h_same.1
      rw [if_pos h_room]
      exact .some (h.push h_fin h_same.2 h_room)

theorem loop_returns (h : Collected env done s) (batch : List Request) :
    Returns (batch.foldlM (endRequest env) s) (Collected env (done ++ batch)) := by
  induction batch generalizing done s with
  | nil =>
      rw [List.append_nil]
      exact .some h
  | cons rq batch ih =>
      rw [List.foldlM_cons]
      apply (endRequest_returns h rq).bind
      intro s' h_s'
      rw [← List.singleton_append, ← List.append_assoc]
      exact ih h_s'

/-! ## The batch -/

/-- The effects of a completed batch are those of the requests whose last reference it has
dropped, each once; the bit that is cleared for a tag that is not reserved is the one that
`blk_mq_put_tag` would clear. -/
theorem endRequestBatch_returns (env : Env) (batch : List Request) :
    Returns (blkMqEndRequestBatch env batch) fun log =>
      (effects env log).Perm ((batch.filter finished).flatMap (requestEffects env)) ∧
      ∀ rq ∈ batch, env.nrReservedTags (env.tags rq.mqHctx) ≤ rq.tag →
        blkMqPutTags env (env.tags rq.mqHctx) [rq.tag] =
          [blkMqPutTag env (env.tags rq.mqHctx) rq.tag] := by
  have h_bits (rq : Request) (h_tag : env.nrReservedTags (env.tags rq.mqHctx) ≤ rq.tag) :
      blkMqPutTags env (env.tags rq.mqHctx) [rq.tag] =
        [blkMqPutTag env (env.tags rq.mqHctx) rq.tag] := by
    rw [blkMqPutTag, if_neg (Nat.not_lt.mpr h_tag)]
    rfl
  have h_init : Collected env [] ⟨[], none, []⟩ := ⟨Nat.zero_le _, fun _ => rfl, .refl _⟩
  rw [blkMqEndRequestBatch]
  apply (loop_returns h_init batch).bind
  intro s h_s
  rw [List.nil_append] at h_s
  have h_account := h_s.account
  split
  case isTrue h_nil =>
    refine .some ⟨?_, fun rq _ => h_bits rq⟩
    have h_pending : pending env s = [] := by
      unfold pending
      split
      · rfl
      · rw [h_nil]
        rfl
    rw [h_pending, List.append_nil] at h_account
    exact h_account
  case isFalse h_some =>
    cases h_hctx : s.curHctx with
    | none => exact absurd (h_s.tags_nil h_hctx) h_some
    | some hctx =>
        refine .some ⟨?_, fun rq _ => h_bits rq⟩
        rw [pending, h_hctx] at h_account
        rw [effects_append]
        exact ((flush_perm hctx s.tags).append_left _).trans h_account

/-- Three hctxs of one queue, two of which share a tag set. -/
def threeHctxs : Env where
  queue _ := 0
  tags hctx := hctx / 2
  tagQueueShared hctx := hctx == 2
  isSharedTags _ := false
  nrReservedTags _ := 0

/-- The request with a further reference does not end the batch of hctx 0. -/
example :
    blkMqEndRequestBatch threeHctxs [⟨0, 5, none, 1⟩, ⟨1, 6, none, 2⟩, ⟨0, 7, some .free, 1⟩,
      ⟨2, 5, none, 1⟩] =
    some [.putTags 0 [5, 7], .putMany 0 2, .subActive (.hctx 2) 1, .putTags 1 [5], .putMany 0 1] := by
  decide

end Daredevil.EndBatch
