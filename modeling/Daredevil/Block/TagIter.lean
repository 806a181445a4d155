/-
  Daredevil.Block.TagIter

  Iteration over the in-flight requests of a queue: `blk_mq_queue_tag_busy_iter`
  and `bt_iter` of `block/blk-mq-tag.c`.

  On a blex tag set several hardware contexts share one `struct blk_mq_tags`.
  The loop over the hardware contexts skips those without a completion queue of
  their own, so that a shared set is visited once; `bt_iter` then passes over
  every request whose `mq_hctx` is not the context being visited.  The requests
  of a skipped context are therefore never reported (`busyIter_iff`): a request
  is reported exactly once when its own context is an NCQ, and never otherwise.

  `btVisits` is the list of requests one bitmap pass reports; the passes of the
  source, run with a callback that always returns true, report these and no
  others (`forEachSet_logged`), and the count over the whole loop is read off
  the lists.
-/
import Daredevil.Block.Layout
import Mathlib.Data.List.Nodup

namespace Daredevil.TagIter

/-! ## State -/

/-- A pointer to a hardware context: its queue and its `queue_num`. -/
structure HctxId where
  queue : Nat
  queueNum : Nat
  deriving DecidableEq, Repr

/-- The part of `struct request` that the iteration reads. -/
structure Request where
  /-- `rq->q` -/
  q : Nat
  mqHctx : HctxId
  /-- `none` for `BLK_MQ_NO_TAG` -/
  tag : Option Nat
  ref : Nat
  deriving DecidableEq, Repr

/-- `struct blk_mq_tags` over request pointers `ρ`. -/
structure BlkMqTags (ρ : Type) where
  nrTags : Nat
  nrReservedTags : Nat
  breservedTags : Nat → Bool
  bitmapTags : Nat → Bool
  rqs : Nat → Option ρ

structure BlkMqHwCtx where
  id : HctxId
  nrCtx : Nat
  /-- index in `set->tags` of the tags object that `hctx->tags` points to -/
  tags : Option Nat
  deriving DecidableEq, Repr

structure BlkMqTagSet (ρ : Type) where
  nrHwQueues : Nat
  blexInfo : Option BlkBlexDevInfo
  /-- `set->shared_tags`, when `blk_mq_is_shared_tags(set->flags)` -/
  sharedTags : Option (BlkMqTags ρ)
  tags : Nat → BlkMqTags ρ

structure RequestQueue where
  id : Nat
  qUsageCounter : Nat
  hctxTable : List BlkMqHwCtx

/-! ## The source functions -/

section Source

variable {ρ β : Type}

/-- `sbitmap_for_each_set` over the listed bits: stop when `f` returns false. -/
def forEachSet (f : Nat → β → Bool × β) : List Nat → β → β
  | [], priv => priv
  | bitnr :: bits, priv =>
      let r := f bitnr priv
      if r.1 then forEachSet f bits r.2 else r.2

/-- The set bits of a bitmap of `depth` bits, in the order of the iteration. -/
def setBits (depth : Nat) (bt : Nat → Bool) : List Nat := (List.range depth).filter bt

/-- `blk_mq_find_and_get_req`: the request recorded for a tag, if it still holds the
    tag and its reference count is not zero. -/
def blkMqFindAndGetReq (reqs : ρ → Request) (tags : BlkMqTags ρ) (bitnr : Nat) : Option ρ :=
  match tags.rqs bitnr with
  | none => none
  | some rq => if (reqs rq).tag ≠ some bitnr ∨ (reqs rq).ref = 0 then none else some rq

/-- `bt_iter`, with the tags object it selects as an argument. -/
def btIter (reqs : ρ → Request) (tags : BlkMqTags ρ) (hctx : Option HctxId) (q : Nat)
    (reserved : Bool) (fn : ρ → β → Bool × β) (bitnr : Nat) (priv : β) : Bool × β :=
  let bitnr := if reserved then bitnr else bitnr + tags.nrReservedTags
  match blkMqFindAndGetReq reqs tags bitnr with
  | none => (true, priv)
  | some rq =>
      if (reqs rq).q = q ∧ (hctx = none ∨ hctx = some (reqs rq).mqHctx) then
        fn rq priv
      else
        (true, priv)

/-- `bt_for_each` on the reserved or on the ordinary bitmap of a tags object. -/
def btForEach (reqs : ρ → Request) (tags : BlkMqTags ρ) (hctx : Option HctxId) (q : Nat)
    (fn : ρ → β → Bool × β) (priv : β) (reserved : Bool) : β :=
  let bits := if reserved then setBits tags.nrReservedTags tags.breservedTags
    else setBits (tags.nrTags - tags.nrReservedTags) tags.bitmapTags
  forEachSet (btIter reqs tags hctx q reserved fn) bits priv

/-- Both passes over one tags object. -/
def tagsForEach (reqs : ρ → Request) (tags : BlkMqTags ρ) (hctx : Option HctxId) (q : Nat)
    (fn : ρ → β → Bool × β) (priv : β) : β :=
  let priv := if tags.nrReservedTags = 0 then priv else btForEach reqs tags hctx q fn priv true
  btForEach reqs tags hctx q fn priv false

/-- `blk_blex_nvme_enabled(set) && !blk_blex_has_cq(blk_blex_hctx_to_nqid(hctx), set)` -/
def nsqOnly (set : BlkMqTagSet ρ) (hctx : BlkMqHwCtx) : Bool :=
  match set.blexInfo with
  | some info => decide (1 < set.nrHwQueues) && !blkBlexHasCq (hctx.id.queueNum + 1) info
  | none => false

/-- The body of the loop over the hardware contexts. -/
def hctxForEach (set : BlkMqTagSet ρ) (reqs : ρ → Request) (q : Nat) (fn : ρ → β → Bool × β)
    (priv : β) (hctx : BlkMqHwCtx) : β :=
  match hctx.tags with
  | none => priv
  | some idx =>
      if hctx.nrCtx = 0 then priv
      else if nsqOnly set hctx then priv
      else tagsForEach reqs (set.tags idx) (some hctx.id) q fn priv

/-- `blk_mq_queue_tag_busy_iter` -/
def blkMqQueueTagBusyIter (set : BlkMqTagSet ρ) (reqs : ρ → Request) (q : RequestQueue)
    (fn : ρ → β → Bool × β) (priv : β) : β :=
  if q.qUsageCounter = 0 then priv
  else
    match set.sharedTags with
    | some tags => tagsForEach reqs tags none q.id fn priv
    | none => q.hctxTable.foldl (hctxForEach set reqs q.id fn) priv

/-- The callback `fn` with a record of the requests it is called on. -/
def logged (fn : ρ → β → Bool × β) (rq : ρ) (priv : β × List ρ) : Bool × β × List ρ :=
  let r := fn rq priv.1
  (r.1, r.2, priv.2 ++ [rq])

/-- The requests on which `blk_mq_queue_tag_busy_iter(q, fn)` calls `fn`, in order. -/
def busyIterCalls (set : BlkMqTagSet ρ) (reqs : ρ → Request) (q : RequestQueue)
    (fn : ρ → β → Bool × β) (priv : β) : List ρ :=
  (blkMqQueueTagBusyIter set reqs q (logged fn) (priv, [])).2

end Source

/-! ## What a pass reports -/

section Visits

variable {ρ β : Type} (reqs : ρ → Request) (tags : BlkMqTags ρ) (hctx : HctxId) (q : Nat)

/-- The request that `bt_iter` reports for a bit, if any. -/
def btSelect (reserved : Bool) (bitnr : Nat) : Option ρ :=
  (blkMqFindAndGetReq reqs tags (if reserved then bitnr else bitnr + tags.nrReservedTags)).filter
    fun rq => decide ((reqs rq).q = q ∧ (reqs rq).mqHctx = hctx)

/-- The requests that one `bt_for_each` reports. -/
def btVisits (reserved : Bool) : List ρ :=
  (if reserved then setBits tags.nrReservedTags tags.breservedTags
    else setBits (tags.nrTags - tags.nrReservedTags) tags.bitmapTags).filterMap
      (btSelect reqs tags hctx q reserved)

variable {reqs tags hctx q} {fn : ρ → β → Bool × β}

theorem btIter_logged (h_true : ∀ rq priv, (fn rq priv).1 = true) (reserved : Bool) (bitnr : Nat)
    (priv : β × List ρ) :
    (btIter reqs tags (some hctx) q reserved (logged fn) bitnr priv).1 = true ∧
      (btIter reqs tags (some hctx) q reserved (logged fn) bitnr priv).2.2 =
        priv.2 ++ (btSelect reqs tags hctx q reserved bitnr).toList := by
  simp only [btIter, btSelect]
  cases h_find : blkMqFindAndGetReq reqs tags
      (if reserved then bitnr else bitnr + tags.nrReservedTags) with
  | none => simp
  | some rq =>
      by_cases h_rq : (reqs rq).q = q ∧ (reqs rq).mqHctx = hctx
      · have h_rq' : (reqs rq).q = q ∧ (some hctx = none ∨ some hctx = some (reqs rq).mqHctx) :=
          ⟨h_rq.1, .inr (by rw [h_rq.2])⟩
        simp only [if_pos h_rq', Option.filter_some, decide_eq_true_eq, if_pos h_rq]
        exact ⟨h_true rq priv.1, rfl⟩
      · have h_rq' : ¬ ((reqs rq).q = q ∧ (some hctx = none ∨ some hctx = some (reqs rq).mqHctx)) := by
          rintro ⟨h_q, h_none | h_some⟩
          · cases h_none
          · exact h_rq ⟨h_q, (Option.some.inj h_some).symm⟩
        simp only [if_neg h_rq', Option.filter_some, decide_eq_true_eq, if_neg h_rq,
          Option.toList_none, List.append_nil, and_self]

theorem forEachSet_logged (h_true : ∀ rq priv, (fn rq priv).1 = true) (reserved : Bool)
    (bits : List Nat) (priv : β × List ρ) :
    (forEachSet (btIter reqs tags (some hctx) q reserved (logged fn)) bits priv).2 =
      priv.2 ++ bits.filterMap (btSelect reqs tags hctx q reserved) := by
  induction bits generalizing priv with
  | nil => simp [forEachSet]
  | cons bitnr bits ih =>
      obtain ⟨h_cont, h_log⟩ := @btIter_logged ρ β reqs tags hctx q fn h_true reserved bitnr priv
      rw [forEachSet, if_pos h_cont, ih, h_log, List.append_assoc]
      congr 1
      cases h_sel : btSelect reqs tags hctx q reserved bitnr <;> simp [h_sel]

theorem btForEach_logged (h_true : ∀ rq priv, (fn rq priv).1 = true) (reserved : Bool)
    (priv : β × List ρ) :
    (btForEach reqs tags (some hctx) q (logged fn) priv reserved).2 =
      priv.2 ++ btVisits reqs tags hctx q reserved :=
  forEachSet_logged h_true reserved _ priv

/-- A pass over an empty reserved bitmap reports nothing, so leaving it out changes nothing. -/
theorem tagsForEach_logged (h_true : ∀ rq priv, (fn rq priv).1 = true) (priv : β × List ρ) :
    (tagsForEach reqs tags (some hctx) q (logged fn) priv).2 =
      priv.2 ++ (btVisits reqs tags hctx q true ++ btVisits reqs tags hctx q false) := by
  unfold tagsForEach
  rw [btForEach_logged h_true]
  split
  case isTrue h_zero =>
    have h_nil : btVisits reqs tags hctx q true = [] := by
      simp [btVisits, setBits, h_zero]
    rw [h_nil, List.nil_append]
  case isFalse =>
    rw [btForEach_logged h_true, List.append_assoc]

end Visits

/-- The requests reported for one hardware context. -/
def hctxVisits {ρ : Type} (set : BlkMqTagSet ρ) (reqs : ρ → Request) (q : Nat)
    (hctx : BlkMqHwCtx) : List ρ :=
  match hctx.tags with
  | none => []
  | some idx =>
      if hctx.nrCtx = 0 then []
      else if nsqOnly set hctx then []
      else btVisits reqs (set.tags idx) hctx.id q true ++ btVisits reqs (set.tags idx) hctx.id q false

section Loop

variable {ρ β : Type} {set : BlkMqTagSet ρ} {reqs : ρ → Request} {fn : ρ → β → Bool × β}

theorem hctxForEach_logged (h_true : ∀ rq priv, (fn rq priv).1 = true) (q : Nat)
    (priv : β × List ρ) (hctx : BlkMqHwCtx) :
    (hctxForEach set reqs q (logged fn) priv hctx).2 = priv.2 ++ hctxVisits set reqs q hctx := by
  unfold hctxForEach hctxVisits
  cases hctx.tags with
  | none => simp
  | some idx =>
      simp only
      split
      · simp
      · split
        · simp
        · exact tagsForEach_logged h_true priv

theorem foldl_hctxForEach_logged (h_true : ∀ rq priv, (fn rq priv).1 = true) (q : Nat)
    (hctxs : List BlkMqHwCtx) (priv : β × List ρ) :
    (hctxs.foldl (hctxForEach set reqs q (logged fn)) priv).2 =
      priv.2 ++ hctxs.flatMap (hctxVisits set reqs q) := by
  induction hctxs generalizing priv with
  | nil => simp
  | cons hctx hctxs ih =>
      rw [List.foldl_cons, ih, hctxForEach_logged h_true, List.flatMap_cons, List.append_assoc]

/-- With a callback that always returns true, the calls are the visits of all contexts. -/
theorem busyIterCalls_eq (h_true : ∀ rq priv, (fn rq priv).1 = true) {q : RequestQueue}
    (h_usage : q.qUsageCounter ≠ 0) (h_shared : set.sharedTags = none) (priv : β) :
    busyIterCalls set reqs q fn priv = q.hctxTable.flatMap (hctxVisits set reqs q.id) := by
  rw [busyIterCalls, blkMqQueueTagBusyIter, if_neg h_usage, h_shared]
  exact foldl_hctxForEach_logged h_true q.id q.hctxTable (priv, [])

end Loop

/-! ## Each request at most once -/

section Once

variable {ρ : Type} {reqs : ρ → Request} {tags : BlkMqTags ρ} {hctx : HctxId} {q : Nat}

theorem blkMqFindAndGetReq_eq_some {bitnr : Nat} {rq : ρ} :
    blkMqFindAndGetReq reqs tags bitnr = some rq ↔
      tags.rqs bitnr = some rq ∧ (reqs rq).tag = some bitnr ∧ (reqs rq).ref ≠ 0 := by
  unfold blkMqFindAndGetReq
  cases h : tags.rqs bitnr with
  | none => simp
  | some rq' =>
      simp only [Option.ite_none_left_eq_some, not_or, not_not, Option.some.injEq]
      constructor
      · rintro ⟨⟨h_tag, h_ref⟩, rfl⟩
        exact ⟨rfl, h_tag, h_ref⟩
      · rintro ⟨rfl, h_tag, h_ref⟩
        exact ⟨⟨h_tag, h_ref⟩, rfl⟩

theorem btSelect_eq_some {reserved : Bool} {bitnr : Nat} {rq : ρ} :
    btSelect reqs tags hctx q reserved bitnr = some rq ↔
      tags.rqs (if reserved then bitnr else bitnr + tags.nrReservedTags) = some rq ∧
        (reqs rq).tag = some (if reserved then bitnr else bitnr + tags.nrReservedTags) ∧
        (reqs rq).ref ≠ 0 ∧ (reqs rq).q = q ∧ (reqs rq).mqHctx = hctx := by
  simp only [btSelect, Option.filter_eq_some_iff, blkMqFindAndGetReq_eq_some, decide_eq_true_eq]
  tauto

theorem mem_setBits {depth bitnr : Nat} {bt : Nat → Bool} :
    bitnr ∈ setBits depth bt ↔ bitnr < depth ∧ bt bitnr = true := by
  simp [setBits]

theorem setBits_nodup (depth : Nat) (bt : Nat → Bool) : (setBits depth bt).Nodup :=
  List.nodup_range.filter _

theorem mem_btVisits_true {rq : ρ} :
    rq ∈ btVisits reqs tags hctx q true ↔ ∃ bitnr,
      (bitnr < tags.nrReservedTags ∧ tags.breservedTags bitnr = true) ∧
        tags.rqs bitnr = some rq ∧ (reqs rq).tag = some bitnr ∧
        (reqs rq).ref ≠ 0 ∧ (reqs rq).q = q ∧ (reqs rq).mqHctx = hctx := by
  simp only [btVisits, if_true, List.mem_filterMap, mem_setBits, btSelect_eq_some]

theorem mem_btVisits_false {rq : ρ} :
    rq ∈ btVisits reqs tags hctx q false ↔ ∃ bitnr,
      (bitnr < tags.nrTags - tags.nrReservedTags ∧ tags.bitmapTags bitnr = true) ∧
        tags.rqs (bitnr + tags.nrReservedTags) = some rq ∧
        (reqs rq).tag = some (bitnr + tags.nrReservedTags) ∧
        (reqs rq).ref ≠ 0 ∧ (reqs rq).q = q ∧ (reqs rq).mqHctx = hctx := by
  simp only [btVisits, Bool.false_eq_true, if_false, List.mem_filterMap, mem_setBits,
    btSelect_eq_some]

theorem btVisits_nodup (reserved : Bool) : (btVisits reqs tags hctx q reserved).Nodup := by
  refine List.Nodup.filterMap ?_ ?_
  · -- a request holds one tag, so one bit only selects it
    intro bit bit' rq h h'
    have h_tag := (btSelect_eq_some.mp h).2.1
    have h_tag' := (btSelect_eq_some.mp h').2.1
    rw [h_tag, Option.some.injEq] at h_tag'
    cases reserved
    · simpa using h_tag'
    · simpa using h_tag'
  · cases reserved
    · exact setBits_nodup _ _
    · exact setBits_nodup _ _

theorem btVisits_append_nodup :
    (btVisits reqs tags hctx q true ++ btVisits reqs tags hctx q false).Nodup := by
  refine List.nodup_append.mpr ⟨btVisits_nodup true, btVisits_nodup false, ?_⟩
  intro rq h_resv rq' h_ord h_eq
  subst h_eq
  obtain ⟨bit, ⟨h_lt, -⟩, -, h_tag, -⟩ := mem_btVisits_true.mp h_resv
  obtain ⟨bit', -, -, h_tag', -⟩ := mem_btVisits_false.mp h_ord
  rw [h_tag, Option.some.injEq] at h_tag'
  omega

end Once

/-! ## Busy iteration over a blex queue -/

/-- `rq` is a live request of queue `q` that holds a driver tag. -/
def HoldsTag {ρ : Type} (reqs : ρ → Request) (q : Nat) (rq : ρ) : Prop :=
  (reqs rq).q = q ∧ (reqs rq).ref ≠ 0 ∧ (reqs rq).tag ≠ none

/-- The bit of tag `tag` is set in the bitmap that `blk_mq_get_tag` takes it from. -/
def BlkMqTags.Allocated {ρ : Type} (tags : BlkMqTags ρ) (tag : Nat) : Prop :=
  if tag < tags.nrReservedTags then tags.breservedTags tag = true
  else tag < tags.nrTags ∧ tags.bitmapTags (tag - tags.nrReservedTags) = true

/-- A queue on a tag set of layout `L`, mapped by `blk_blex_map_swqueue`, with any
    assignment of driver tags to its requests: each was allocated through one of the
    queue's hardware contexts, from that context's shared tags, and recorded there. -/
structure BlexQueue (ρ : Type) (L : QueueLayout) where
  set : BlkMqTagSet ρ
  q : RequestQueue
  reqs : ρ → Request
  nrCpuIds : Nat
  nrCpuIds_pos : nrCpuIds ≠ 0
  nrHwQueues_eq : set.nrHwQueues = L.maxNqid
  blexInfo_eq : set.blexInfo = some L.toBlkBlexDevInfo
  sharedTags_eq : set.sharedTags = none
  hctxTable_eq : q.hctxTable = (List.range L.maxNqid).map fun i =>
    ⟨⟨q.id, i⟩, nrCpuIds, some (blkBlexGetTagIdx i L.toBlkBlexDevInfo)⟩
  /-- requests of the queue hold a reference on it -/
  usage : ∀ rq, HoldsTag reqs q.id rq → q.qUsageCounter ≠ 0
  hctx_queue : ∀ rq, HoldsTag reqs q.id rq → (reqs rq).mqHctx.queue = q.id
  hctx_lt : ∀ rq, HoldsTag reqs q.id rq → (reqs rq).mqHctx.queueNum < L.maxNqid
  tagged : ∀ rq tag, HoldsTag reqs q.id rq → (reqs rq).tag = some tag →
    let tags := set.tags (blkBlexGetTagIdx (reqs rq).mqHctx.queueNum L.toBlkBlexDevInfo)
    tags.rqs tag = some rq ∧ tags.Allocated tag

namespace BlexQueue

variable {ρ β : Type} {L : QueueLayout} (B : BlexQueue ρ L)

/-- Hardware context `i` of the queue. -/
def hctx (i : Nat) : BlkMqHwCtx :=
  ⟨⟨B.q.id, i⟩, B.nrCpuIds, some (blkBlexGetTagIdx i L.toBlkBlexDevInfo)⟩

/-- Queue 1 is an NCQ of every layout. -/
theorem hasCq_one : blkBlexHasCq 1 L.toBlkBlexDevInfo = true := by
  have h_le := blkBlexGetCqid_le L.nrCqs_pos L.nrCqs_le (Nat.le_refl 1)
  have h_pos := @blkBlexGetCqid_pos L.maxNqid L.nrCqs 1 (Nat.le_refl 1)
  exact beq_iff_eq.mpr (Nat.le_antisymm h_pos h_le)

/-- The loop skips exactly the contexts whose queue is not an NCQ. -/
theorem nsqOnly_hctx {i : Nat} (h_i : i < L.maxNqid) :
    nsqOnly B.set (B.hctx i) = !blkBlexHasCq (i + 1) L.toBlkBlexDevInfo := by
  simp only [nsqOnly, B.blexInfo_eq, B.nrHwQueues_eq, hctx]
  by_cases h_one : 1 < L.maxNqid
  · rw [decide_eq_true h_one, Bool.true_and]
  · have h_zero : i = 0 := by omega
    subst h_zero
    rw [decide_eq_false h_one, Bool.false_and, hasCq_one, Bool.not_true]

theorem hctxVisits_hctx {i : Nat} (h_i : i < L.maxNqid) :
    hctxVisits B.set B.reqs B.q.id (B.hctx i) =
      if blkBlexHasCq (i + 1) L.toBlkBlexDevInfo then
        btVisits B.reqs (B.set.tags (blkBlexGetTagIdx i L.toBlkBlexDevInfo)) ⟨B.q.id, i⟩ B.q.id
            true ++
          btVisits B.reqs (B.set.tags (blkBlexGetTagIdx i L.toBlkBlexDevInfo)) ⟨B.q.id, i⟩ B.q.id
            false
      else [] := by
  have h_skip := B.nsqOnly_hctx h_i
  have h_ctx : (B.hctx i).nrCtx ≠ 0 := B.nrCpuIds_pos
  show (if (B.hctx i).nrCtx = 0 then [] else if nsqOnly B.set (B.hctx i) then [] else _) = _
  rw [if_neg h_ctx]
  cases h_cq : blkBlexHasCq (i + 1) L.toBlkBlexDevInfo with
  | false => rw [if_pos (by rw [h_skip, h_cq, Bool.not_false]), if_neg Bool.false_ne_true]
  | true =>
      rw [if_neg (by rw [h_skip, h_cq, Bool.not_true]; exact Bool.false_ne_true), if_pos rfl]
      rfl

/-- What is reported for context `i`: its tagged requests, if its queue is an NCQ. -/
theorem mem_hctxVisits {i : Nat} (h_i : i < L.maxNqid) {rq : ρ} :
    rq ∈ hctxVisits B.set B.reqs B.q.id (B.hctx i) ↔
      HoldsTag B.reqs B.q.id rq ∧ (B.reqs rq).mqHctx = ⟨B.q.id, i⟩ ∧
        blkBlexHasCq (i + 1) L.toBlkBlexDevInfo = true := by
  rw [B.hctxVisits_hctx h_i]
  by_cases h_cq : blkBlexHasCq (i + 1) L.toBlkBlexDevInfo = true
  · rw [if_pos h_cq, List.mem_append, mem_btVisits_true, mem_btVisits_false]
    constructor
    · rintro (⟨bit, -, -, h_tag, h_ref, h_q, h_hctx⟩ | ⟨bit, -, -, h_tag, h_ref, h_q, h_hctx⟩)
      · exact ⟨⟨h_q, h_ref, by simp [h_tag]⟩, h_hctx, h_cq⟩
      · exact ⟨⟨h_q, h_ref, by simp [h_tag]⟩, h_hctx, h_cq⟩
    · rintro ⟨h_holds, h_hctx, -⟩
      obtain ⟨tag, h_tag⟩ := Option.ne_none_iff_exists'.mp h_holds.2.2
      obtain ⟨h_rec, h_alloc⟩ := B.tagged rq tag h_holds h_tag
      rw [h_hctx] at h_rec h_alloc
      unfold BlkMqTags.Allocated at h_alloc
      split at h_alloc
      case isTrue h_resv =>
        exact .inl ⟨tag, ⟨h_resv, h_alloc⟩, h_rec, h_tag, h_holds.2.1, h_holds.1, h_hctx⟩
      case isFalse h_ord =>
        refine .inr ⟨tag - (B.set.tags (blkBlexGetTagIdx i L.toBlkBlexDevInfo)).nrReservedTags,
          ⟨Nat.sub_lt_sub_right (Nat.le_of_not_lt h_ord) h_alloc.1, h_alloc.2⟩, ?_⟩
        rw [Nat.sub_add_cancel (Nat.le_of_not_lt h_ord)]
        exact ⟨h_rec, h_tag, h_holds.2.1, h_holds.1, h_hctx⟩
  · rw [if_neg h_cq]
    simp [h_cq]

theorem hctxVisits_nodup {i : Nat} (h_i : i < L.maxNqid) :
    (hctxVisits B.set B.reqs B.q.id (B.hctx i)).Nodup := by
  rw [B.hctxVisits_hctx h_i]
  split
  · exact btVisits_append_nodup
  · exact List.nodup_nil

/-- The calls of the iteration with any callback that always returns true. -/
theorem mem_busyIterCalls {fn : ρ → β → Bool × β} (h_true : ∀ rq priv, (fn rq priv).1 = true)
    (priv : β) (rq : ρ) :
    rq ∈ busyIterCalls B.set B.reqs B.q fn priv ↔
      HoldsTag B.reqs B.q.id rq ∧
        blkBlexHasCq ((B.reqs rq).mqHctx.queueNum + 1) L.toBlkBlexDevInfo = true := by
  by_cases h_usage : B.q.qUsageCounter = 0
  · have h_free : ¬ HoldsTag B.reqs B.q.id rq := fun h => B.usage rq h h_usage
    simp [busyIterCalls, blkMqQueueTagBusyIter, h_usage, h_free]
  · rw [busyIterCalls_eq h_true h_usage B.sharedTags_eq, B.hctxTable_eq, List.flatMap_map,
      List.mem_flatMap]
    constructor
    · rintro ⟨i, h_i, h_mem⟩
      obtain ⟨h_holds, h_hctx, h_cq⟩ := (B.mem_hctxVisits (List.mem_range.mp h_i)).mp h_mem
      refine ⟨h_holds, ?_⟩
      rw [h_hctx]
      exact h_cq
    · rintro ⟨h_holds, h_cq⟩
      have h_lt := B.hctx_lt rq h_holds
      refine ⟨(B.reqs rq).mqHctx.queueNum, List.mem_range.mpr h_lt,
        (B.mem_hctxVisits h_lt).mpr ⟨h_holds, ?_, h_cq⟩⟩
      rw [← B.hctx_queue rq h_holds]

theorem busyIterCalls_nodup {fn : ρ → β → Bool × β} (h_true : ∀ rq priv, (fn rq priv).1 = true)
    (priv : β) : (busyIterCalls B.set B.reqs B.q fn priv).Nodup := by
  by_cases h_usage : B.q.qUsageCounter = 0
  · simp [busyIterCalls, blkMqQueueTagBusyIter, h_usage]
  · rw [busyIterCalls_eq h_true h_usage B.sharedTags_eq, B.hctxTable_eq, List.flatMap_map]
    refine List.nodup_flatMap.mpr ⟨?_, ?_⟩
    · intro i h_i
      exact B.hctxVisits_nodup (List.mem_range.mp h_i)
    · -- two contexts report requests of different `mq_hctx`
      refine List.Pairwise.imp_of_mem ?_ (List.nodup_range (n := L.maxNqid))
      intro i j h_i h_j h_ne rq h_rq h_rq'
      have h_hctx := ((B.mem_hctxVisits (List.mem_range.mp h_i)).mp h_rq).2.1
      have h_hctx' := ((B.mem_hctxVisits (List.mem_range.mp h_j)).mp h_rq').2.1
      rw [h_hctx, HctxId.mk.injEq] at h_hctx'
      exact h_ne h_hctx'.2

/-- `fn` is called exactly once on each request of `p`, and on no other. -/
def ExactlyOnce (calls : List ρ) (p : ρ → Prop) : Prop :=
  calls.Nodup ∧ ∀ rq, rq ∈ calls ↔ p rq

/-- Busy iteration calls `fn` exactly once on each live request of the queue that holds
    a driver tag if and only if all of these were allocated through an NCQ. -/
theorem busyIter_iff {fn : ρ → β → Bool × β} (h_true : ∀ rq priv, (fn rq priv).1 = true)
    (priv : β) :
    ExactlyOnce (busyIterCalls B.set B.reqs B.q fn priv) (HoldsTag B.reqs B.q.id) ↔
      ∀ rq, HoldsTag B.reqs B.q.id rq →
        blkBlexHasCq ((B.reqs rq).mqHctx.queueNum + 1) L.toBlkBlexDevInfo = true := by
  constructor
  · rintro ⟨-, h_mem⟩ rq h_holds
    exact ((B.mem_busyIterCalls h_true priv rq).mp ((h_mem rq).mpr h_holds)).2
  · intro h_cq
    refine ⟨B.busyIterCalls_nodup h_true priv, ?_⟩
    intro rq
    rw [B.mem_busyIterCalls h_true]
    exact and_iff_left_of_imp (h_cq rq)

/-- Two queues on one completion queue, and one live request with tag 0, allocated
    through hardware context `i`. -/
def oneRequest (i : Nat) (h_i : i < 2) :
    BlexQueue Unit ⟨⟨2, 1⟩, by decide, by decide⟩ where
  set := ⟨2, some ⟨2, 1⟩, none, fun _ =>
    ⟨4, 0, fun _ => false, fun bit => bit == 0, fun bit => if bit = 0 then some () else none⟩⟩
  q := ⟨5, 1, (List.range 2).map fun i => ⟨⟨5, i⟩, 4, some (blkBlexGetTagIdx i ⟨2, 1⟩)⟩⟩
  reqs := fun _ => ⟨5, ⟨5, i⟩, some 0, 1⟩
  nrCpuIds := 4
  nrCpuIds_pos := by decide
  nrHwQueues_eq := rfl
  blexInfo_eq := rfl
  sharedTags_eq := rfl
  hctxTable_eq := rfl
  usage := fun _ _ => Nat.one_ne_zero
  hctx_queue := fun _ _ => rfl
  hctx_lt := fun _ _ => h_i
  tagged := by
    intro rq tag _ h_tag
    cases h_tag
    exact ⟨rfl, Nat.lt_of_sub_eq_succ rfl, rfl⟩

/-- The request of the NCQ's own context is reported. -/
theorem busyIter_oneRequest_zero :
    ExactlyOnce (busyIterCalls (oneRequest 0 (by decide)).set (oneRequest 0 (by decide)).reqs
        (oneRequest 0 (by decide)).q (fun _ (n : Nat) => (true, n + 1)) 0)
      (HoldsTag (oneRequest 0 (by decide)).reqs 5) :=
  ((oneRequest 0 (by decide)).busyIter_iff (fun _ _ => rfl) 0).mpr fun _ _ =>
    (by decide : blkBlexHasCq 1 ⟨2, 1⟩ = true)

/-- The request of the context without a completion queue is not. -/
theorem busyIter_oneRequest_one :
    ¬ ExactlyOnce (busyIterCalls (oneRequest 1 (by decide)).set (oneRequest 1 (by decide)).reqs
        (oneRequest 1 (by decide)).q (fun _ (n : Nat) => (true, n + 1)) 0)
      (HoldsTag (oneRequest 1 (by decide)).reqs 5) := by
  rintro ⟨-, h_mem⟩
  have h_holds : HoldsTag (oneRequest 1 (by decide)).reqs 5 () :=
    ⟨rfl, Nat.one_ne_zero, Option.some_ne_none 0⟩
  have h_calls : busyIterCalls (oneRequest 1 (by decide)).set (oneRequest 1 (by decide)).reqs
      (oneRequest 1 (by decide)).q (fun _ (n : Nat) => (true, n + 1)) 0 = [] := by decide
  have h_in := (h_mem ()).mpr h_holds
  rw [h_calls] at h_in
  cases h_in

end BlexQueue

end Daredevil.TagIter
