/-
  Daredevil.Block.TagSet

  The array `set->tags` of a blex tag set over its life: `blk_mq_alloc_tag_set`,
  queue creation and teardown, `blk_mq_update_nr_hw_queues` to a larger count,
  and `blk_mq_free_tag_set` (`block/blk-mq.c`, the blex branches).

  `blk_mq_alloc_tag_set` gives the array one entry per completion queue; the
  allocation loop, `blk_mq_init_hctx` and `blk_blex_map_swqueue` convert an hctx
  index to a tag index, but `blk_mq_exit_hctx`, `blk_mq_free_tag_set` and the copy
  in `blk_mq_realloc_tag_set_tags` index the array by hctx.

  Every access goes through `readTags` and `writeTags`, which fault (`none`) on an
  index that is not below the number of entries.  Each allocation takes its
  outcome from a list of answers, so a statement over all lists covers every
  pattern of failures.  `tagArray_safe_iff`: no run faults exactly when every queue
  is a completion queue.
-/
import Daredevil.Block.Layout
import Daredevil.Lib.Lts
import Daredevil.Lib.Returns
import Mathlib.Data.List.Sort

namespace Daredevil.TagSet

open Lts

/-! ## State -/

/-- The part of `struct blk_mq_tag_set` that sizes and fills the tag array. -/
structure BlkMqTagSet where
  /-- `set->tags`: `none` for NULL; an entry is true when it points to a tags object -/
  tags : Option (List Bool)
  nrHwQueues : Nat
  blexInfo : BlkBlexDevInfo
  queueDepth : Nat
  reservedTags : Nat
  nrMaps : Nat
  deriving DecidableEq, Repr

structure RequestQueue where
  /-- `blk_queue_init_done(q)` -/
  initDone : Bool
  nrHwQueues : Nat
  /-- the indices present in `q->hctx_table`, in ascending order -/
  hctxTable : List Nat
  deriving DecidableEq, Repr

structure State where
  set : BlkMqTagSet
  /-- `set->tag_list` -/
  queues : List RequestQueue
  /-- a `blk_mq_update_nr_hw_queues` call has been followed for a while and not returned -/
  updating : Bool
  deriving DecidableEq, Repr

/-- Outcomes of the allocations to come; an allocation past the end fails. -/
abbrev Answers := List Bool

def nextAnswer : Answers → Bool × Answers
  | [] => (false, [])
  | ok :: rest => (ok, rest)

/-- `BLK_MQ_MAX_DEPTH` -/
def blkMqMaxDepth : Nat := 10240

/-- `BLK_MQ_TAG_MIN` -/
def blkMqTagMin : Nat := 1

/-! ## Accesses to the array -/

namespace BlkMqTagSet

variable (s : BlkMqTagSet)

/-- Number of entries the array was last allocated with. -/
def len : Nat :=
  match s.tags with
  | none => 0
  | some entries => entries.length

/-- Read `set->tags[idx]`. -/
def readTags (idx : Nat) : Option Bool :=
  match s.tags with
  | none => none
  | some entries => entries[idx]?

/-- Write `set->tags[idx]`. -/
def writeTags (idx : Nat) (entry : Bool) : Option BlkMqTagSet :=
  match s.tags with
  | none => none
  | some entries =>
      if idx < entries.length then some { s with tags := some (entries.set idx entry) } else none

/-- `blk_blex_get_tag_idx(hctx_idx, set)` -/
def tagIdx (hctxIdx : Nat) : Nat := blkBlexGetTagIdx hctxIdx s.blexInfo

end BlkMqTagSet

/-! ## Allocating and freeing the entries -/

/-- `__blk_mq_alloc_map_and_rqs`, for a set without shared tags. -/
def blkMqAllocMapAndRqs (s : BlkMqTagSet) (idx : Nat) (ans : Answers) :
    Option (Bool × BlkMqTagSet × Answers) :=
  let r := nextAnswer ans
  (s.writeTags idx r.1).map fun s => (r.1, s, r.2)

/-- `__blk_mq_free_map_and_rqs`, for a set without shared tags. -/
def blkMqFreeMapAndRqs (s : BlkMqTagSet) (idx : Nat) : Option BlkMqTagSet :=
  (s.readTags idx).bind fun _ => s.writeTags idx false

/-- `out_unwind` of `__blk_mq_alloc_rq_maps`: free the entries below `i`, last first. -/
def unwind : Nat → BlkMqTagSet → Option BlkMqTagSet
  | 0, s => some s
  | i + 1, s => (blkMqFreeMapAndRqs s i).bind (unwind i)

/-- The loop of `__blk_mq_alloc_rq_maps` from entry `i` on, with `n` entries to go. -/
def allocRqMapsFrom (i : Nat) : Nat → BlkMqTagSet → Answers → Option (Bool × BlkMqTagSet × Answers)
  | 0, s, ans => some (true, s, ans)
  | n + 1, s, ans =>
      (blkMqAllocMapAndRqs s i ans).bind fun r =>
        if r.1 then allocRqMapsFrom (i + 1) n r.2.1 r.2.2
        else (unwind i r.2.1).map fun s => (false, s, r.2.2)

/-- `__blk_mq_alloc_rq_maps`: one entry for each completion queue. -/
def blkMqAllocRqMaps (s : BlkMqTagSet) (ans : Answers) : Option (Bool × BlkMqTagSet × Answers) :=
  allocRqMapsFrom 0 s.blexInfo.nrCqs s ans

/-- The loop of `blk_mq_alloc_set_map_and_rqs`: on failure, try again with half the depth. -/
def allocSetLoop : Nat → BlkMqTagSet → Answers → Option (Bool × BlkMqTagSet × Answers)
  | 0, s, ans => some (false, s, ans)
  | fuel + 1, s, ans =>
      (blkMqAllocRqMaps s ans).bind fun r =>
        if r.1 then some r
        else
          let s := { r.2.1 with queueDepth := r.2.1.queueDepth / 2 }
          if s.queueDepth < s.reservedTags + blkMqTagMin then some (false, s, r.2.2)
          else allocSetLoop fuel s r.2.2

/-- `blk_mq_alloc_set_map_and_rqs`; the depth halves in every round, so that many rounds do. -/
def blkMqAllocSetMapAndRqs (s : BlkMqTagSet) (ans : Answers) :
    Option (Bool × BlkMqTagSet × Answers) :=
  allocSetLoop (s.queueDepth + 1) s ans

/-- `blk_mq_realloc_tag_set_tags`: a new array of `new` entries, with `cur` entries copied. -/
def blkMqReallocTagSetTags (s : BlkMqTagSet) (cur new : Nat) (ans : Answers) :
    Option (Bool × BlkMqTagSet × Answers) :=
  if new ≤ cur then some (true, s, ans)
  else
    let r := nextAnswer ans
    if r.1 then
      match s.tags with
      | none => some (true, { s with tags := some (List.replicate new false) }, r.2)
      | some entries =>
          -- the `memcpy` reads entries `0 .. cur - 1` of the old array
          if cur ≤ entries.length then
            some (true,
              { s with tags := some (entries.take cur ++ List.replicate (new - cur) false) }, r.2)
          else none
    else some (false, s, r.2)

/-- One `kcalloc_node` for each of `n` queue maps; false when one fails. -/
def allocMqMaps : Nat → Answers → Bool × Answers
  | 0, ans => (true, ans)
  | n + 1, ans =>
      let r := nextAnswer ans
      if r.1 then allocMqMaps n r.2 else (false, r.2)

/-- `blk_mq_alloc_tag_set`, not in a kdump kernel, for a driver with `queue_rq` and
    without budget callbacks: whether it succeeds, and the set it leaves. -/
def blkMqAllocTagSet (s : BlkMqTagSet) (ans : Answers) : Option (Bool × BlkMqTagSet) :=
  if s.nrHwQueues = 0 ∨ s.queueDepth = 0 ∨ s.queueDepth < s.reservedTags + blkMqTagMin then
    some (false, s)
  else
    let s := { s with queueDepth := min s.queueDepth blkMqMaxDepth }
    (blkMqReallocTagSetTags s 0 s.blexInfo.nrCqs ans).bind fun r =>
      if r.1 then
        let m := allocMqMaps s.nrMaps r.2.2
        if m.1 then
          (blkMqAllocSetMapAndRqs r.2.1 m.2).map fun t =>
            if t.1 then (true, t.2.1) else (false, { t.2.1 with tags := none })
        else some (false, { r.2.1 with tags := none })
      else some (false, r.2.1)

/-- The loop `for (i = from; i < to; i++) __blk_mq_free_map_and_rqs(set, i)`. -/
def freeRange (s : BlkMqTagSet) (lo hi : Nat) : Option BlkMqTagSet :=
  (List.range' lo (hi - lo)).foldlM blkMqFreeMapAndRqs s

/-- `blk_mq_free_tag_set` -/
def blkMqFreeTagSet (s : BlkMqTagSet) : Option BlkMqTagSet :=
  (freeRange s 0 s.nrHwQueues).map fun s => { s with tags := none }

/-! ## Hardware contexts of a queue -/

/-- `blk_mq_exit_hctx`: once the queue is initialised, `set->tags[hctx_idx]` is read to
    clear the flush request's mapping. -/
def blkMqExitHctx (s : BlkMqTagSet) (q : RequestQueue) (hctxIdx : Nat) : Option RequestQueue :=
  let gone := { q with hctxTable := q.hctxTable.filter (· ≠ hctxIdx) }
  -- the index is not converted to a tag index
  if q.initDone then (s.readTags hctxIdx).map fun _ => gone else some gone

/-- `blk_mq_exit_hw_queues`: every context present, up to index `nrQueue`. -/
def blkMqExitHwQueues (s : BlkMqTagSet) (q : RequestQueue) (nrQueue : Nat) : Option RequestQueue :=
  (q.hctxTable.takeWhile (· ≠ nrQueue)).foldlM (blkMqExitHctx s) q

/-- `blk_mq_init_hctx`: the tags pointer is read at the tag index; the steps after it
    succeed or fail as one. -/
def blkMqInitHctx (s : BlkMqTagSet) (q : RequestQueue) (hctxIdx : Nat) (ans : Answers) :
    Option (Bool × RequestQueue × Answers) :=
  (s.readTags (s.tagIdx hctxIdx)).map fun _ =>
    let r := nextAnswer ans
    if r.1 then (true, { q with hctxTable := q.hctxTable.orderedInsert (· ≤ ·) hctxIdx }, r.2)
    else (false, q, r.2)

/-- `blk_mq_alloc_and_init_hctx` -/
def blkMqAllocAndInitHctx (s : BlkMqTagSet) (q : RequestQueue) (hctxIdx : Nat) (ans : Answers) :
    Option (Bool × RequestQueue × Answers) :=
  let r := nextAnswer ans
  if r.1 then blkMqInitHctx s q hctxIdx r.2 else some (false, q, r.2)

/-- The loop of `blk_mq_realloc_hw_ctxs` from index `i` on; the index it stops at. -/
def reallocLoop (s : BlkMqTagSet) (i : Nat) :
    Nat → RequestQueue → Answers → Option (Nat × RequestQueue × Answers)
  | 0, q, ans => some (i, q, ans)
  | n + 1, q, ans =>
      let old := decide (i ∈ q.hctxTable)
      (if old then blkMqExitHctx s q i else some q).bind fun q =>
        (blkMqAllocAndInitHctx s q i ans).bind fun r =>
          if r.1 then reallocLoop s (i + 1) n r.2.1 r.2.2
          else if old then
            -- fall back to the previous node; a second failure only warns
            (blkMqAllocAndInitHctx s r.2.1 i r.2.2).bind fun r =>
              reallocLoop s (i + 1) n r.2.1 r.2.2
          else some (i, r.2.1, r.2.2)

/-- `blk_mq_realloc_hw_ctxs` -/
def blkMqReallocHwCtxs (s : BlkMqTagSet) (q : RequestQueue) (ans : Answers) :
    Option (RequestQueue × Answers) :=
  (reallocLoop s 0 s.nrHwQueues q ans).bind fun r =>
    let j := if r.1 ≠ s.nrHwQueues then r.2.1.nrHwQueues else r.1
    let q := if r.1 ≠ s.nrHwQueues then r.2.1 else { r.2.1 with nrHwQueues := s.nrHwQueues }
    ((q.hctxTable.filter (j ≤ ·)).foldlM (blkMqExitHctx s) q).map fun q => (q, r.2.2)

/-- One round of the first loop of `blk_blex_map_swqueue`. -/
def mapSwqueueRound (w : BlkMqTagSet × RequestQueue × Answers) (hctxIdx : Nat) :
    Option (BlkMqTagSet × RequestQueue × Answers) :=
  let tagIdx := w.1.tagIdx hctxIdx
  (w.1.readTags tagIdx).bind fun present =>
    (if present then some w
      else
        (blkMqAllocMapAndRqs w.1 tagIdx w.2.2).bind fun r =>
          if r.1 then some (r.2.1, w.2.1, r.2.2)
          else (blkMqExitHctx r.2.1 w.2.1 hctxIdx).map fun q => (r.2.1, q, r.2.2)).bind fun w =>
      (w.1.readTags tagIdx).map fun _ => w

/-- `blk_blex_map_swqueue` -/
def blkBlexMapSwqueue (s : BlkMqTagSet) (q : RequestQueue) (ans : Answers) :
    Option (BlkMqTagSet × RequestQueue × Answers) :=
  q.hctxTable.foldlM mapSwqueueRound (s, q, ans)

/-- `blk_mq_init_allocated_queue`: the new queue joins the tag list, unless it got no
    hardware contexts. -/
def blkMqInitAllocatedQueue (w : State) (ans : Answers) : Option State :=
  (blkMqReallocHwCtxs w.set ⟨false, 0, []⟩ ans).bind fun r =>
    if r.1.nrHwQueues = 0 then some w
    else (blkBlexMapSwqueue w.set r.1 r.2).map fun m =>
      { w with set := m.1, queues := w.queues ++ [m.2.1] }

/-- The part of `__blk_mq_update_nr_hw_queues` from the label `fallback` on: `done` are
    the queues of the tag list already handled, `todo` the others.  The source can go
    back to `fallback` without bound; `fuel` rounds of the loop are followed. -/
def updateLoop (prev : Nat) : Nat → BlkMqTagSet → List RequestQueue → List RequestQueue →
    Answers → Option State
  | 0, s, done, todo, _ => some ⟨s, done ++ todo, true⟩
  | _ + 1, s, done, [], _ => some ⟨s, done, false⟩
  | fuel + 1, s, done, q :: todo, ans =>
      (blkMqReallocHwCtxs s q ans).bind fun r =>
        if r.1.nrHwQueues ≠ s.nrHwQueues then
          (freeRange s prev s.nrHwQueues).bind fun s =>
            updateLoop prev fuel { s with nrHwQueues := prev } [] (done ++ r.1 :: todo) r.2
        else
          (blkBlexMapSwqueue s r.1 r.2).bind fun m =>
            updateLoop prev fuel m.1 (done ++ [m.2.1]) todo m.2.2

/-- `__blk_mq_update_nr_hw_queues`, for queues without an I/O scheduler. -/
def blkMqUpdateNrHwQueues (w : State) (nrHwQueues fuel : Nat) (ans : Answers) : Option State :=
  if nrHwQueues < 1 ∨ nrHwQueues = w.set.nrHwQueues then some w
  else
    (blkMqReallocTagSetTags w.set w.set.nrHwQueues nrHwQueues ans).bind fun r =>
      if r.1 then
        updateLoop w.set.nrHwQueues fuel { r.2.1 with nrHwQueues := nrHwQueues } [] w.queues r.2.2
      else some w

/-! ## Runs -/

inductive Event where
  | allocTagSet (ans : Answers)
  | initAllocatedQueue (ans : Answers)
  /-- the disk of queue `k` is registered: `QUEUE_FLAG_INIT_DONE` -/
  | registerQueue (k : Nat)
  /-- `blk_mq_exit_queue` -/
  | exitQueue (k : Nat)
  | updateNrHwQueues (nrHwQueues fuel : Nat) (ans : Answers)
  | freeTagSet

/-- The calls that the driver makes in a state: the set is allocated first and freed
    last, with no queue left, and the count of hardware queues only grows. -/
def Enabled (w : State) (e : Event) : Prop :=
  w.updating = false ∧
    match e with
    | .allocTagSet _ => w.set.tags = none
    | .initAllocatedQueue _ => w.set.tags ≠ none
    | .registerQueue k => k < w.queues.length
    | .exitQueue k => k < w.queues.length
    | .updateNrHwQueues n _ _ => w.set.tags ≠ none ∧ w.set.nrHwQueues < n
    | .freeTagSet => w.set.tags ≠ none ∧ w.queues = []

/-- One call; `none` when it indexes the array out of range. -/
def exec (w : State) : Event → Option State
  | .allocTagSet ans =>
      -- the driver sets `nr_hw_queues` for the set it allocates
      (blkMqAllocTagSet { w.set with nrHwQueues := w.set.blexInfo.maxNqid } ans).map fun r =>
        { w with set := r.2 }
  | .initAllocatedQueue ans => blkMqInitAllocatedQueue w ans
  | .registerQueue k =>
      some { w with queues := w.queues.modify k fun q => { q with initDone := true } }
  | .exitQueue k =>
      match w.queues[k]? with
      | none => some w
      | some q =>
          (blkMqExitHwQueues w.set q w.set.nrHwQueues).map fun _ =>
            { w with queues := w.queues.eraseIdx k }
  | .updateNrHwQueues n fuel ans => blkMqUpdateNrHwQueues w n fuel ans
  | .freeTagSet => (blkMqFreeTagSet w.set).map fun s => { w with set := s }

/-- A tag set of the layout before its first allocation. -/
def Init (L : QueueLayout) (w : State) : Prop :=
  w.set.tags = none ∧ w.set.blexInfo = L.toBlkBlexDevInfo ∧ w.queues = [] ∧ w.updating = false

/-- Whatever is called in a reachable state, no index is out of range. -/
def NeverOverruns (L : QueueLayout) : Prop :=
  ∀ w, Reach exec Enabled (Init L) w → ∀ e, Enabled w e → (exec w e).isSome

/-! ## Accesses in range -/

/-- `t` is `s` up to the contents of the array. -/
structure SameShape (s t : BlkMqTagSet) : Prop where
  len : t.len = s.len
  isSome : t.tags = none ↔ s.tags = none
  nrHwQueues : t.nrHwQueues = s.nrHwQueues
  blexInfo : t.blexInfo = s.blexInfo

theorem SameShape.refl (s : BlkMqTagSet) : SameShape s s := ⟨rfl, Iff.rfl, rfl, rfl⟩

theorem SameShape.trans {s t u : BlkMqTagSet} (h₁ : SameShape s t) (h₂ : SameShape t u) :
    SameShape s u :=
  ⟨h₂.len.trans h₁.len, h₂.isSome.trans h₁.isSome, h₂.nrHwQueues.trans h₁.nrHwQueues,
    h₂.blexInfo.trans h₁.blexInfo⟩

section Accesses

variable {s : BlkMqTagSet} {idx : Nat}

theorem tags_of_lt (h : idx < s.len) : ∃ entries, s.tags = some entries ∧ idx < entries.length := by
  unfold BlkMqTagSet.len at h
  cases h_tags : s.tags with
  | none =>
      rw [h_tags] at h
      exact absurd h (Nat.not_lt_zero _)
  | some entries =>
      rw [h_tags] at h
      exact ⟨entries, rfl, h⟩

theorem readTags_returns (h : idx < s.len) : Returns (s.readTags idx) fun _ => True := by
  obtain ⟨entries, h_tags, h_lt⟩ := tags_of_lt h
  unfold BlkMqTagSet.readTags
  rw [h_tags]
  exact ⟨_, List.getElem?_eq_getElem h_lt, trivial⟩

/-- A read at or past the length faults. -/
theorem readTags_eq_none (h : s.len ≤ idx) : s.readTags idx = none := by
  unfold BlkMqTagSet.len at h
  unfold BlkMqTagSet.readTags
  cases h_tags : s.tags with
  | none => rfl
  | some entries =>
      rw [h_tags] at h
      exact List.getElem?_eq_none h

theorem writeTags_returns (entry : Bool) (h : idx < s.len) :
    Returns (s.writeTags idx entry) (SameShape s) := by
  obtain ⟨entries, h_tags, h_lt⟩ := tags_of_lt h
  unfold BlkMqTagSet.writeTags
  simp only [h_tags, if_pos h_lt]
  refine Returns.some ⟨?_, ?_, rfl, rfl⟩
  · simp only [BlkMqTagSet.len, h_tags, List.length_set]
  · simp [h_tags]

theorem allocMapAndRqs_returns (ans : Answers) (h : idx < s.len) :
    Returns (blkMqAllocMapAndRqs s idx ans) fun r => SameShape s r.2.1 :=
  (writeTags_returns _ h).map fun _ h_same => h_same

theorem freeMapAndRqs_returns (h : idx < s.len) :
    Returns (blkMqFreeMapAndRqs s idx) (SameShape s) :=
  (readTags_returns h).bind fun _ _ => writeTags_returns _ h

theorem unwind_returns (i : Nat) (h : i ≤ s.len) : Returns (unwind i s) (SameShape s) := by
  induction i generalizing s with
  | zero => exact Returns.some (SameShape.refl s)
  | succ i ih =>
      apply (freeMapAndRqs_returns h).bind
      intro t h_t
      exact (ih (by rw [h_t.len]; omega)).mono fun u h_u => h_t.trans h_u

theorem allocRqMapsFrom_returns (n : Nat) {i : Nat} (ans : Answers) (h : i + n ≤ s.len) :
    Returns (allocRqMapsFrom i n s ans) fun r => SameShape s r.2.1 := by
  induction n generalizing i s ans with
  | zero => exact Returns.some (SameShape.refl s)
  | succ n ih =>
      apply (allocMapAndRqs_returns ans (by omega)).bind
      intro r h_r
      split
      · exact (ih r.2.2 (by rw [h_r.len]; omega)).mono fun t h_t => h_r.trans h_t
      · exact (unwind_returns i (by rw [h_r.len]; omega)).map fun t h_t => h_r.trans h_t

theorem allocSetLoop_returns (fuel : Nat) (ans : Answers) (h : s.blexInfo.nrCqs ≤ s.len) :
    Returns (allocSetLoop fuel s ans) fun r => SameShape s r.2.1 := by
  induction fuel generalizing s ans with
  | zero => exact Returns.some (SameShape.refl s)
  | succ fuel ih =>
      apply (allocRqMapsFrom_returns _ ans (by omega)).bind
      intro r h_r
      have h_half : SameShape s { r.2.1 with queueDepth := r.2.1.queueDepth / 2 } :=
        ⟨h_r.len, h_r.isSome, h_r.nrHwQueues, h_r.blexInfo⟩
      split
      · exact Returns.some h_r
      · simp only
        split
        · exact Returns.some h_half
        · have h_fits : r.2.1.blexInfo.nrCqs ≤ r.2.1.len := by
            rw [h_r.blexInfo, h_r.len]
            exact h
          exact (@ih { r.2.1 with queueDepth := r.2.1.queueDepth / 2 } r.2.2 h_fits).mono
            fun t h_t => h_half.trans h_t

theorem freeRange_returns {lo hi : Nat} (h : hi ≤ s.len) :
    Returns (freeRange s lo hi) (SameShape s) := by
  refine Returns.foldlM ?_ (SameShape.refl s)
  intro i h_i t h_t
  have h_lt : i < t.len := by
    rw [List.mem_range'_1] at h_i
    rw [h_t.len]
    omega
  exact (freeMapAndRqs_returns h_lt).mono fun u h_u => h_t.trans h_u

/-- Freeing one entry for each hardware queue runs past an array that is shorter. -/
theorem freeRange_eq_none {lo hi : Nat} (h_lo : lo ≤ s.len) (h_hi : s.len < hi) :
    freeRange s lo hi = none := by
  unfold freeRange
  generalize h_n : hi - lo = n
  induction n generalizing s lo with
  | zero => omega
  | succ n ih =>
      rw [List.range'_succ, List.foldlM_cons]
      by_cases h_lt : lo < s.len
      · obtain ⟨t, h_eq, h_t⟩ := freeMapAndRqs_returns h_lt
        rw [h_eq]
        exact ih (by rw [h_t.len]; omega) (by rw [h_t.len]; omega) (by omega)
      · rw [blkMqFreeMapAndRqs, readTags_eq_none (Nat.le_of_not_lt h_lt)]
        rfl

end Accesses

/-! ## One completion queue for every queue -/

/-- Every queue is a completion queue, so tag indices are hctx indices. -/
def Square (s : BlkMqTagSet) : Prop :=
  1 ≤ s.blexInfo.nrCqs ∧ s.blexInfo.maxNqid = s.blexInfo.nrCqs

/-- All hardware contexts of the queue have an index below `n`. -/
def Below (n : Nat) (q : RequestQueue) : Prop := ∀ idx ∈ q.hctxTable, idx < n

theorem Below.mono {m n : Nat} {q : RequestQueue} (h : Below m q) (h_le : m ≤ n) : Below n q :=
  fun idx h_idx => Nat.lt_of_lt_of_le (h idx h_idx) h_le

theorem tagIdx_eq_of_square {s : BlkMqTagSet} (h : Square s) (idx : Nat) : s.tagIdx idx = idx := by
  obtain ⟨h_pos, h_eq⟩ := h
  rw [BlkMqTagSet.tagIdx, blkBlexGetTagIdx, cqidToIndex_getCqid h_pos (Nat.le_of_eq h_eq.symm)
    (Nat.succ_pos idx), h_eq, EvenSplit.block, Nat.mod_self, Nat.div_self h_pos]
  simp

theorem SameShape.square {s t : BlkMqTagSet} (h : SameShape s t) (h_sq : Square s) : Square t := by
  unfold Square
  rw [h.blexInfo]
  exact h_sq

section Queues

variable {s : BlkMqTagSet} {q : RequestQueue}

theorem exitHctx_returns {idx : Nat} (h_idx : idx < s.len) :
    Returns (blkMqExitHctx s q idx) fun q' =>
      (∀ i ∈ q'.hctxTable, i ∈ q.hctxTable ∧ i ≠ idx) ∧ q'.nrHwQueues = q.nrHwQueues := by
  have h_gone : ∀ i ∈ q.hctxTable.filter (· ≠ idx), i ∈ q.hctxTable ∧ i ≠ idx := by
    intro i h_i
    rw [List.mem_filter, decide_eq_true_eq] at h_i
    exact h_i
  unfold blkMqExitHctx
  split
  · exact (readTags_returns h_idx).map fun _ _ => ⟨h_gone, rfl⟩
  · exact Returns.some ⟨h_gone, rfl⟩

/-- After the loop over `idxs`, none of them is left in the table. -/
theorem exitHctxs_returns {idxs : List Nat} (h_idxs : ∀ idx ∈ idxs, idx < s.len) :
    Returns (idxs.foldlM (blkMqExitHctx s) q) fun q' =>
      (∀ i ∈ q'.hctxTable, i ∈ q.hctxTable ∧ i ∉ idxs) ∧ q'.nrHwQueues = q.nrHwQueues := by
  induction idxs generalizing q with
  | nil => exact Returns.some ⟨fun i h_i => ⟨h_i, List.not_mem_nil⟩, rfl⟩
  | cons idx idxs ih =>
      rw [List.foldlM_cons]
      apply (exitHctx_returns (h_idxs idx (List.mem_cons_self ..))).bind
      intro q₁ h_q₁
      refine (ih fun i h_i => h_idxs i (List.mem_cons_of_mem idx h_i)).mono ?_
      intro q₂ h_q₂
      refine ⟨?_, h_q₂.2.trans h_q₁.2⟩
      intro i h_i
      obtain ⟨h_mem, h_not⟩ := h_q₂.1 i h_i
      obtain ⟨h_mem', h_ne⟩ := h_q₁.1 i h_mem
      exact ⟨h_mem', List.not_mem_cons_of_ne_of_not_mem h_ne h_not⟩

theorem exitHwQueues_returns (nrQueue : Nat) (h_q : Below s.len q) :
    Returns (blkMqExitHwQueues s q nrQueue) fun _ => True :=
  (exitHctxs_returns fun idx h_idx =>
    h_q idx ((List.takeWhile_sublist _).subset h_idx)).mono fun _ _ => trivial

/-- What the steps of `blk_mq_realloc_hw_ctxs` keep of a queue. -/
def Kept (s : BlkMqTagSet) (q q' : RequestQueue) : Prop :=
  Below s.len q' ∧ q'.nrHwQueues = q.nrHwQueues

theorem allocAndInitHctx_returns (h_sq : Square s) {idx : Nat} (h_idx : idx < s.len)
    (h_q : Below s.len q) (ans : Answers) :
    Returns (blkMqAllocAndInitHctx s q idx ans) fun r => Kept s q r.2.1 := by
  unfold blkMqAllocAndInitHctx blkMqInitHctx
  rw [tagIdx_eq_of_square h_sq]
  simp only
  split
  · apply (readTags_returns h_idx).map
    intro _ _
    split
    · refine ⟨?_, rfl⟩
      intro i h_i
      rw [List.mem_orderedInsert] at h_i
      rcases h_i with rfl | h_i
      · exact h_idx
      · exact h_q i h_i
    · exact ⟨h_q, rfl⟩
  · exact Returns.some ⟨h_q, rfl⟩

theorem reallocLoop_returns (h_sq : Square s) (n : Nat) {i : Nat} (h_i : i + n ≤ s.len)
    (h_q : Below s.len q) (ans : Answers) :
    Returns (reallocLoop s i n q ans) fun r => Kept s q r.2.1 := by
  induction n generalizing i q ans with
  | zero => exact Returns.some ⟨h_q, rfl⟩
  | succ n ih =>
      have h_idx : i < s.len := by omega
      -- a context that is there is left before its index is initialised again
      have h_exit : Returns (if decide (i ∈ q.hctxTable) then blkMqExitHctx s q i else some q)
          (Kept s q) := by
        split
        · exact (exitHctx_returns h_idx).mono fun _ h_q' =>
            ⟨fun j h_j => h_q j (h_q'.1 j h_j).1, h_q'.2⟩
        · exact Returns.some ⟨h_q, rfl⟩
      apply h_exit.bind
      intro q₁ h_q₁
      apply (allocAndInitHctx_returns h_sq h_idx h_q₁.1 ans).bind
      intro r h_r
      have h_nr := h_r.2.trans h_q₁.2
      split
      · exact (ih (by omega) h_r.1 r.2.2).mono fun _ h_u => ⟨h_u.1, h_u.2.trans h_nr⟩
      · split
        · apply (allocAndInitHctx_returns h_sq h_idx h_r.1 r.2.2).bind
          intro t h_t
          exact (ih (by omega) h_t.1 t.2.2).mono fun _ h_u =>
            ⟨h_u.1, h_u.2.trans (h_t.2.trans h_nr)⟩
        · exact Returns.some ⟨h_r.1, h_nr⟩

/-- The queue ends with the set's count or keeps its own; with the set's count, it has
    no context at or past it. -/
theorem reallocHwCtxs_returns (h_sq : Square s) (h_nr : s.nrHwQueues ≤ s.len)
    (h_q : Below s.len q) (ans : Answers) :
    Returns (blkMqReallocHwCtxs s q ans) fun r =>
      Below s.len r.1 ∧ (r.1.nrHwQueues = s.nrHwQueues → Below s.nrHwQueues r.1) ∧
        (r.1.nrHwQueues = s.nrHwQueues ∨ r.1.nrHwQueues = q.nrHwQueues) := by
  apply (reallocLoop_returns h_sq s.nrHwQueues (by omega) h_q ans).bind
  intro r h_r
  have h_exit (j : Nat) (q' : RequestQueue) (h_q' : Below s.len q') :
      Returns ((q'.hctxTable.filter (j ≤ ·)).foldlM (blkMqExitHctx s) q') fun q'' =>
        Below s.len q'' ∧ Below j q'' ∧ q''.nrHwQueues = q'.nrHwQueues := by
    refine (exitHctxs_returns fun idx h_idx => h_q' idx (List.mem_of_mem_filter h_idx)).mono ?_
    rintro q'' ⟨h_mem, h_eq⟩
    refine ⟨fun i h_i => h_q' i (h_mem i h_i).1, ?_, h_eq⟩
    intro i h_i
    obtain ⟨h_old, h_not⟩ := h_mem i h_i
    rw [List.mem_filter, decide_eq_true_eq] at h_not
    exact Nat.lt_of_not_le fun h_le => h_not ⟨h_old, h_le⟩
  -- either every index was initialised, or the queue keeps the count it had
  by_cases h_stop : r.1 = s.nrHwQueues
  · simp only [h_stop, ne_eq, not_true_eq_false, if_false]
    apply (h_exit s.nrHwQueues { r.2.1 with nrHwQueues := s.nrHwQueues } h_r.1).map
    rintro q'' ⟨h_len, h_below, h_eq⟩
    exact ⟨h_len, fun _ => h_below, .inl h_eq⟩
  · simp only [ne_eq, h_stop, not_false_eq_true, if_true]
    apply (h_exit r.2.1.nrHwQueues r.2.1 h_r.1).map
    rintro q'' ⟨h_len, h_below, h_eq⟩
    refine ⟨h_len, ?_, .inr (h_eq.trans h_r.2)⟩
    intro h_nr'
    rwa [← h_eq, h_nr'] at h_below

theorem mapSwqueue_returns (h_sq : Square s) {n : Nat} (h_n : n ≤ s.len) (h_q : Below n q)
    (ans : Answers) :
    Returns (blkBlexMapSwqueue s q ans) fun r => SameShape s r.1 ∧ Below n r.2.1 := by
  refine Returns.foldlM ?_ ⟨SameShape.refl s, h_q⟩
  rintro idx h_idx ⟨t, q₁, ans₁⟩ ⟨h_t, h_q₁⟩
  have h_lt : idx < t.len := by
    rw [h_t.len]
    exact Nat.lt_of_lt_of_le (h_q idx h_idx) h_n
  unfold mapSwqueueRound
  -- with as many CQs as queues, tag index and hctx index are the same
  simp only [tagIdx_eq_of_square (h_t.square h_sq)]
  apply (readTags_returns h_lt).bind
  intro present _
  have h_filled : Returns (if present then some (t, q₁, ans₁) else
      (blkMqAllocMapAndRqs t idx ans₁).bind fun r =>
        if r.1 then some (r.2.1, q₁, r.2.2)
        else (blkMqExitHctx r.2.1 q₁ idx).map fun q => (r.2.1, q, r.2.2))
      fun r => SameShape t r.1 ∧ Below n r.2.1 := by
    split
    · exact Returns.some ⟨SameShape.refl t, h_q₁⟩
    · apply (allocMapAndRqs_returns ans₁ h_lt).bind
      intro r h_r
      split
      · exact Returns.some ⟨h_r, h_q₁⟩
      · apply (exitHctx_returns (by rw [h_r.len]; exact h_lt)).map
        intro q₂ h_q₂
        exact ⟨h_r, fun i h_i => h_q₁ i (h_q₂.1 i h_i).1⟩
  apply h_filled.bind
  intro u h_u
  apply (readTags_returns (by rw [h_u.1.len]; exact h_lt)).map
  intro _ _
  exact ⟨h_t.trans h_u.1, h_u.2⟩

end Queues

/-- What holds between calls when every queue is a completion queue. -/
structure Inv (w : State) : Prop where
  square : Square w.set
  nrHwQueues_le : w.set.tags ≠ none → w.set.nrHwQueues ≤ w.set.len
  below : ∀ q ∈ w.queues, Below w.set.nrHwQueues q
  queues_nil : w.set.tags = none → w.queues = []

theorem updateLoop_returns {prev : Nat} (fuel : Nat) {s : BlkMqTagSet}
    {done todo : List RequestQueue} (ans : Answers) (h_sq : Square s) (h_some : s.tags ≠ none)
    (h_prev : prev ≤ s.len) (h_nr : s.nrHwQueues ≤ s.len)
    (h_done : ∀ q ∈ done, Below s.nrHwQueues q) (h_todo : ∀ q ∈ todo, Below s.len q) :
    Returns (updateLoop prev fuel s done todo ans) fun w => w.updating = false → Inv w := by
  induction fuel generalizing s done todo ans with
  | zero => exact Returns.some fun h => absurd h.symm Bool.false_ne_true
  | succ fuel ih =>
      cases todo with
      | nil =>
          exact Returns.some fun _ => ⟨h_sq, fun _ => h_nr, h_done, fun h => absurd h h_some⟩
      | cons q todo =>
          have h_rest : ∀ p ∈ todo, Below s.len p := fun p h_p =>
            h_todo p (List.mem_cons_of_mem q h_p)
          apply (reallocHwCtxs_returns h_sq h_nr (h_todo q (List.mem_cons_self ..)) ans).bind
          rintro r ⟨h_len, h_below, -⟩
          split
          · -- back to `fallback` with the previous count and all queues to do
            apply (freeRange_returns h_nr).bind
            intro t h_t
            refine @ih { t with nrHwQueues := prev } [] (done ++ r.1 :: todo) r.2
              (h_t.square h_sq) (fun h => h_some (h_t.isSome.mp h)) ?_ ?_ (by simp) ?_
            · exact Nat.le_trans h_prev (Nat.le_of_eq h_t.len.symm)
            · exact Nat.le_trans h_prev (Nat.le_of_eq h_t.len.symm)
            · intro p h_p
              refine Below.mono ?_ (Nat.le_of_eq h_t.len.symm)
              rw [List.mem_append, List.mem_cons] at h_p
              rcases h_p with h_p | rfl | h_p
              · exact (h_done p h_p).mono h_nr
              · exact h_len
              · exact h_rest p h_p
          case isFalse h_same =>
            apply (mapSwqueue_returns h_sq h_nr (h_below (not_not.mp h_same)) r.2).bind
            rintro m ⟨h_t, h_q⟩
            refine ih m.2.2 (h_t.square h_sq) (fun h => h_some (h_t.isSome.mp h))
              (by rw [h_t.len]; exact h_prev) (by rw [h_t.nrHwQueues, h_t.len]; exact h_nr) ?_
              (by rw [h_t.len]; exact h_rest)
            intro p h_p
            rw [h_t.nrHwQueues]
            rw [List.mem_append, List.mem_singleton] at h_p
            rcases h_p with h_p | rfl
            · exact h_done p h_p
            · exact h_q

/-- `t` is `s` with either no array or one with an entry for each completion queue. -/
structure Fresh (s t : BlkMqTagSet) : Prop where
  len : t.tags ≠ none → t.len = s.blexInfo.nrCqs
  nrHwQueues : t.nrHwQueues = s.nrHwQueues
  blexInfo : t.blexInfo = s.blexInfo

theorem fresh_of_none {s t : BlkMqTagSet} (h_tags : t.tags = none)
    (h_nr : t.nrHwQueues = s.nrHwQueues) (h_info : t.blexInfo = s.blexInfo) : Fresh s t :=
  ⟨fun h => absurd h_tags h, h_nr, h_info⟩

theorem reallocTagSetTags_fresh {s : BlkMqTagSet} (h_tags : s.tags = none)
    (h_pos : 1 ≤ s.blexInfo.nrCqs) (ans : Answers) :
    Returns (blkMqReallocTagSetTags s 0 s.blexInfo.nrCqs ans) fun r =>
      Fresh s r.2.1 ∧ (r.1 = true → r.2.1.len = s.blexInfo.nrCqs) := by
  unfold blkMqReallocTagSetTags
  rw [if_neg (by omega)]
  simp only [h_tags]
  have h_len : (List.replicate s.blexInfo.nrCqs false).length = s.blexInfo.nrCqs :=
    List.length_replicate
  split
  · exact Returns.some ⟨⟨fun _ => h_len, rfl, rfl⟩, fun _ => h_len⟩
  · exact Returns.some ⟨fresh_of_none h_tags rfl rfl, fun h => absurd h Bool.false_ne_true⟩

theorem allocTagSet_returns {s : BlkMqTagSet} (h_tags : s.tags = none)
    (h_pos : 1 ≤ s.blexInfo.nrCqs) (ans : Answers) :
    Returns (blkMqAllocTagSet s ans) fun r => Fresh s r.2 := by
  unfold blkMqAllocTagSet
  split
  · exact Returns.some (fresh_of_none h_tags rfl rfl)
  · let t : BlkMqTagSet := { s with queueDepth := min s.queueDepth blkMqMaxDepth }
    apply (@reallocTagSetTags_fresh t h_tags h_pos ans).bind
    intro r h_r
    obtain ⟨h_fresh, h_len⟩ := h_r
    -- both error paths free the array and clear the pointer
    have h_freed (u : BlkMqTagSet) (h_u : SameShape r.2.1 u) :
        Fresh s { u with tags := none } :=
      fresh_of_none rfl (h_u.nrHwQueues.trans h_fresh.nrHwQueues)
        (h_u.blexInfo.trans h_fresh.blexInfo)
    split
    case isFalse => exact Returns.some ⟨h_fresh.len, h_fresh.nrHwQueues, h_fresh.blexInfo⟩
    case isTrue h_ok =>
      simp only
      split
      case isFalse => exact Returns.some (h_freed r.2.1 (SameShape.refl _))
      case isTrue =>
        have h_fits : r.2.1.blexInfo.nrCqs ≤ r.2.1.len := by
          rw [h_len h_ok, h_fresh.blexInfo]
        apply (allocSetLoop_returns (r.2.1.queueDepth + 1) _ h_fits).map
        intro u h_u
        split
        · refine ⟨fun _ => h_u.len.trans (h_len h_ok), h_u.nrHwQueues.trans h_fresh.nrHwQueues,
            h_u.blexInfo.trans h_fresh.blexInfo⟩
        · exact h_freed u.2.1 h_u

section Calls

variable {w : State}

theorem inv_allocTagSet (h_inv : Inv w) (h_tags : w.set.tags = none) (ans : Answers) :
    Returns (exec w (.allocTagSet ans)) Inv := by
  have h_nil := h_inv.queues_nil h_tags
  refine (@allocTagSet_returns { w.set with nrHwQueues := w.set.blexInfo.maxNqid } h_tags
    h_inv.square.1 ans).map fun r h_r => ⟨?_, ?_, by simp [h_nil], fun _ => h_nil⟩
  · unfold Square
    rw [h_r.blexInfo]
    exact h_inv.square
  · intro h_some
    rw [h_r.nrHwQueues, h_r.len h_some]
    exact Nat.le_of_eq h_inv.square.2

theorem inv_initAllocatedQueue (h_inv : Inv w) (h_tags : w.set.tags ≠ none) (ans : Answers) :
    Returns (exec w (.initAllocatedQueue ans)) Inv := by
  have h_nr := h_inv.nrHwQueues_le h_tags
  have h_empty : Below w.set.len ⟨false, 0, []⟩ := by simp [Below]
  apply (reallocHwCtxs_returns h_inv.square h_nr h_empty ans).bind
  rintro r ⟨-, h_below, h_count⟩
  split
  · exact Returns.some h_inv
  case isFalse h_zero =>
    have h_r := h_below (h_count.resolve_right h_zero)
    apply (mapSwqueue_returns h_inv.square h_nr h_r r.2).map
    rintro m ⟨h_t, h_q⟩
    refine ⟨h_t.square h_inv.square, ?_, ?_, fun h => absurd (h_t.isSome.mp h) h_tags⟩
    · intro h
      show m.1.nrHwQueues ≤ m.1.len
      rw [h_t.nrHwQueues, h_t.len]
      exact h_nr
    · intro p h_p
      show Below m.1.nrHwQueues p
      rw [h_t.nrHwQueues]
      rw [List.mem_append, List.mem_singleton] at h_p
      rcases h_p with h_p | rfl
      · exact h_inv.below p h_p
      · exact h_q

theorem inv_registerQueue (h_inv : Inv w) {k : Nat} (h_k : k < w.queues.length) :
    Returns (exec w (.registerQueue k)) Inv := by
  refine Returns.some ⟨h_inv.square, h_inv.nrHwQueues_le, ?_, ?_⟩
  · intro p h_p
    obtain ⟨j, h_j, rfl⟩ := List.mem_iff_getElem.mp h_p
    rw [List.getElem_modify]
    rw [List.length_modify] at h_j
    have h_q := h_inv.below _ (List.getElem_mem h_j)
    split
    · exact h_q
    · exact h_q
  · intro h
    rw [h_inv.queues_nil h] at h_k
    exact absurd h_k (Nat.not_lt_zero _)

theorem inv_exitQueue (h_inv : Inv w) (k : Nat) : Returns (exec w (.exitQueue k)) Inv := by
  simp only [exec]
  cases h_get : w.queues[k]? with
  | none => exact Returns.some h_inv
  | some q =>
      have h_mem : q ∈ w.queues := List.mem_of_getElem? h_get
      have h_tags : w.set.tags ≠ none := fun h => by
        rw [h_inv.queues_nil h] at h_mem
        cases h_mem
      have h_q := (h_inv.below q h_mem).mono (h_inv.nrHwQueues_le h_tags)
      exact (exitHwQueues_returns w.set.nrHwQueues h_q).map fun _ _ =>
        ⟨h_inv.square, h_inv.nrHwQueues_le,
          fun p h_p => h_inv.below p (List.mem_of_mem_eraseIdx h_p), fun h => absurd h h_tags⟩

theorem inv_updateNrHwQueues (h_inv : Inv w) (h_tags : w.set.tags ≠ none) {n : Nat}
    (h_n : w.set.nrHwQueues < n) (fuel : Nat) (ans : Answers) :
    Returns (exec w (.updateNrHwQueues n fuel ans)) fun w => w.updating = false → Inv w := by
  have h_le := h_inv.nrHwQueues_le h_tags
  unfold exec blkMqUpdateNrHwQueues blkMqReallocTagSetTags
  simp only
  rw [if_neg (by omega), if_neg (by omega)]
  cases h_ans : (nextAnswer ans).1 with
  | false => exact Returns.some fun _ => h_inv
  | true =>
      cases h_entries : w.set.tags with
      | none => exact absurd h_entries h_tags
      | some entries =>
          have h_len : w.set.len = entries.length := by rw [BlkMqTagSet.len, h_entries]
          rw [h_len] at h_le
          simp only [if_pos h_le, if_true, Option.bind_some]
          -- the new array: the copied entries, then empty ones up to `n`
          let t : BlkMqTagSet :=
            { w.set with
              tags := some (entries.take w.set.nrHwQueues ++
                List.replicate (n - w.set.nrHwQueues) false)
              nrHwQueues := n }
          have h_new : t.len = n := by
            simp only [t, BlkMqTagSet.len, List.length_append, List.length_take,
              List.length_replicate]
            omega
          refine @updateLoop_returns w.set.nrHwQueues fuel t [] w.queues (nextAnswer ans).2
            h_inv.square (Option.some_ne_none _) (by omega) (Nat.le_of_eq h_new.symm) (by simp) ?_
          exact fun q h_q => (h_inv.below q h_q).mono (by omega)

theorem inv_freeTagSet (h_inv : Inv w) (h_tags : w.set.tags ≠ none) (h_nil : w.queues = []) :
    Returns (exec w .freeTagSet) Inv := by
  refine ((freeRange_returns (h_inv.nrHwQueues_le h_tags)).map (R := fun t =>
    t.tags = none ∧ Square t) ?_).map ?_
  · exact fun t h_t => ⟨rfl, h_t.square h_inv.square⟩
  · rintro t ⟨h_t, h_sq⟩
    exact ⟨h_sq, fun h => absurd h_t h, by simp [h_nil], fun _ => h_nil⟩

theorem exec_returns (h_inv : Inv w) {e : Event} (h_en : Enabled w e) :
    Returns (exec w e) fun w => w.updating = false → Inv w := by
  obtain ⟨-, h_en⟩ := h_en
  cases e with
  | allocTagSet ans => exact (inv_allocTagSet h_inv h_en ans).mono fun _ h _ => h
  | initAllocatedQueue ans => exact (inv_initAllocatedQueue h_inv h_en ans).mono fun _ h _ => h
  | registerQueue k => exact (inv_registerQueue h_inv h_en).mono fun _ h _ => h
  | exitQueue k => exact (inv_exitQueue h_inv k).mono fun _ h _ => h
  | updateNrHwQueues n fuel ans => exact inv_updateNrHwQueues h_inv h_en.1 h_en.2 fuel ans
  | freeTagSet => exact (inv_freeTagSet h_inv h_en.1 h_en.2).mono fun _ h _ => h

end Calls

theorem neverOverruns_of_eq {L : QueueLayout} (h_eq : L.maxNqid = L.nrCqs) : NeverOverruns L := by
  intro w h_reach e h_en
  have h_inv : w.updating = false → Inv w := by
    refine h_reach.invariant (I := fun w => w.updating = false → Inv w) ?_ ?_
    · rintro w ⟨h_tags, h_info, h_nil, -⟩ -
      refine ⟨?_, fun h => absurd h_tags h, by simp [h_nil], fun _ => h_nil⟩
      unfold Square
      rw [h_info]
      exact ⟨L.nrCqs_pos, h_eq⟩
    · intro w e w' h_inv h_en h_exec
      exact (exec_returns (h_inv h_en.1) h_en).of_eq_some h_exec
  exact (exec_returns (h_inv h_en.1) h_en).isSome

/-! ## Fewer completion queues than queues -/

/-- With every allocation granted, the loop fills the array. -/
theorem allocRqMapsFrom_granted (n : Nat) {i : Nat} {s : BlkMqTagSet} (h : i + n ≤ s.len) :
    ∃ t, allocRqMapsFrom i n s (List.replicate n true) = some (true, t, []) ∧ SameShape s t := by
  induction n generalizing i s with
  | zero => exact ⟨s, rfl, SameShape.refl s⟩
  | succ n ih =>
      have h_lt : i < s.len := by omega
      obtain ⟨t, h_eq, h_t⟩ := @writeTags_returns s i true h_lt
      obtain ⟨u, h_eq', h_u⟩ := @ih (i + 1) t (by rw [h_t.len]; omega)
      refine ⟨u, ?_, h_t.trans h_u⟩
      rw [List.replicate_succ, allocRqMapsFrom, blkMqAllocMapAndRqs]
      simp only [nextAnswer, h_eq, Option.map_some, Option.bind_some, if_true]
      exact h_eq'

/-- A set that asks for the least depth the source accepts. -/
def smallSet (L : QueueLayout) : State := ⟨⟨none, 0, L.toBlkBlexDevInfo, 1, 0, 1⟩, [], false⟩

theorem init_smallSet (L : QueueLayout) : Init L (smallSet L) := ⟨rfl, rfl, rfl, rfl⟩

/-- `blk_mq_alloc_tag_set` with every allocation granted: `nrCqs` entries, and a count of
    `maxNqid` hardware queues. -/
theorem exec_allocTagSet_granted (L : QueueLayout) :
    ∃ t, exec (smallSet L) (.allocTagSet (true :: true :: List.replicate L.nrCqs true)) =
        some ⟨t, [], false⟩ ∧
      t.len = L.nrCqs ∧ t.tags ≠ none ∧ t.nrHwQueues = L.maxNqid := by
  let s : BlkMqTagSet :=
    ⟨some (List.replicate L.nrCqs false), L.maxNqid, L.toBlkBlexDevInfo, 1, 0, 1⟩
  have h_len : s.len = L.nrCqs := List.length_replicate
  have h_pos := L.nrCqs_pos
  have h_max : L.maxNqid ≠ 0 := by
    have := L.nrCqs_le
    omega
  obtain ⟨t, h_eq, h_t⟩ := @allocRqMapsFrom_granted L.nrCqs 0 s (by omega)
  refine ⟨t, ?_, h_t.len.trans h_len, ?_, h_t.nrHwQueues⟩
  · have h_loop : blkMqAllocSetMapAndRqs s (List.replicate L.nrCqs true) = some (true, t, []) := by
      rw [blkMqAllocSetMapAndRqs, allocSetLoop, blkMqAllocRqMaps, h_eq]
      rfl
    have h_array (rest : Answers) :
        blkMqReallocTagSetTags ⟨none, L.maxNqid, L.toBlkBlexDevInfo, 1, 0, 1⟩ 0 L.nrCqs
          (true :: rest) = some (true, s, rest) := if_neg (by omega)
    have h_valid : ¬ (L.maxNqid = 0 ∨ (1 : Nat) = 0 ∨ 1 < 0 + blkMqTagMin) := by
      rintro (h | h | h)
      · exact h_max h
      · cases h
      · exact absurd h (by decide)
    have h_set : blkMqAllocTagSet ⟨none, L.maxNqid, L.toBlkBlexDevInfo, 1, 0, 1⟩
        (true :: true :: List.replicate L.nrCqs true) = some (true, t) := by
      apply (if_neg h_valid).trans
      show (blkMqReallocTagSetTags ⟨none, L.maxNqid, L.toBlkBlexDevInfo, 1, 0, 1⟩ 0 L.nrCqs
        (true :: true :: List.replicate L.nrCqs true)).bind _ = _
      rw [h_array, Option.bind_some]
      show (blkMqAllocSetMapAndRqs s (List.replicate L.nrCqs true)).map _ = _
      rw [h_loop]
      rfl
    exact congrArg (Option.map fun r => (⟨r.2, [], false⟩ : State)) h_set
  · intro h
    exact Option.some_ne_none _ (h_t.isSome.mp h)

/-- Freeing the set runs past its array. -/
theorem freeTagSet_overruns {L : QueueLayout} (h_lt : L.nrCqs < L.maxNqid) :
    ∃ w, Reach exec Enabled (Init L) w ∧ Enabled w .freeTagSet ∧ exec w .freeTagSet = none := by
  obtain ⟨t, h_exec, h_len, h_some, h_nr⟩ := exec_allocTagSet_granted L
  have h_free : blkMqFreeTagSet t = none := by
    rw [blkMqFreeTagSet, freeRange_eq_none (Nat.zero_le _) (by omega)]
    rfl
  refine ⟨⟨t, [], false⟩, .step (.init (init_smallSet L)) ⟨rfl, rfl⟩ h_exec,
    ⟨rfl, h_some, rfl⟩, ?_⟩
  rw [exec, h_free]
  rfl

/-- No run of a tag set indexes its array out of range exactly when every queue of its
    layout is a completion queue. -/
theorem tagArray_safe_iff (L : QueueLayout) : NeverOverruns L ↔ L.maxNqid = L.nrCqs := by
  constructor
  · intro h_safe
    by_contra h_ne
    have h_le := L.nrCqs_le
    obtain ⟨w, h_reach, h_en, h_none⟩ := @freeTagSet_overruns L (by omega)
    have h_some := h_safe w h_reach .freeTagSet h_en
    rw [h_none] at h_some
    cases h_some
  · exact neverOverruns_of_eq

/-- Three queues on two completion queues: allocated and freed with no queue in between,
    the set's array of two entries is read at index 2. -/
theorem tagArray_overrun_three_two :
    ∃ w, run exec (smallSet ⟨⟨3, 2⟩, by decide, by decide⟩)
        [.allocTagSet (List.replicate 4 true)] = some w ∧
      Enabled w .freeTagSet ∧ w.set.len = 2 ∧ w.set.nrHwQueues = 3 ∧ exec w .freeTagSet = none :=
  ⟨_, rfl, ⟨rfl, Option.some_ne_none _, rfl⟩, rfl, rfl, rfl⟩

end Daredevil.TagSet
