/-
  Daredevil.Block.FlushMapping

  Which flush requests the arrays `tags->rqs` lead to (`blk_mq_get_driver_tag` of
  `block/blk-mq.h`), and what `blk_mq_exit_hctx` takes out of them (`block/blk-mq.c`).

  A flush request enters the array under the tag that it borrows from the first request
  that waits for it, and it stays there until another request gets the same tag.
  `blk_mq_exit_hctx` therefore looks for the flush request of `hctx->fq`.  On a blex queue
  that one is never issued: flushes go through the flush queues of the vNQs, one for each
  CPU, which are not looked for.  And the array that is searched is `set->tags[hctx_idx]`,
  with the index not converted to a tag index.

  The flush machinery is the one of `Daredevil.Block.FlushQueue`; in between, requests get
  driver tags in any order.  `exitHctx_unmapped_iff`: after the exit no entry leads to a flush
  request of the hctx exactly when each of them was written over before.
-/
import Daredevil.Block.Flush
import Daredevil.Block.Layout
import Daredevil.Lib.WriteLog

namespace Daredevil.FlushMapping

open Flush (Key blkKickFlush)
open WriteLog

/-! ## State -/

/-- A pointer to a request. -/
inductive RqPtr where
  /-- `hctx->fq->flush_rq` -/
  | fq (hctx : Nat)
  /-- `hctx->vnqs[cpu].fq->flush_rq` -/
  | vnq (k : Key)
  /-- a request of the tag set, or a flush request of another queue -/
  | other (id : Nat)
  deriving DecidableEq, Repr

/-- The flush requests that an hctx owns. -/
def RqPtr.OwnedBy (hctx : Nat) : RqPtr → Prop
  | .fq h => h = hctx
  | .vnq k => k.1 = hctx
  | .other _ => False

/-- What `blk_mq_get_driver_tag` reads of a request. -/
structure Request where
  ptr : RqPtr
  mqHctx : Option Nat
  /-- `none` for `BLK_MQ_NO_TAG` -/
  tag : Option Nat

structure BlkMqTags where
  rqs : Nat → Option RqPtr

/-- `none` in `tags` is NULL. -/
structure BlkMqTagSet (info : BlkBlexDevInfo) where
  tags : Fin info.nrCqs → Option BlkMqTags
  queueDepth : Nat

structure RequestQueue where
  /-- `blk_queue_init_done(q)` -/
  initDone : Bool
  elevator : Bool

structure State (info : BlkBlexDevInfo) where
  flush : Flush.State
  set : BlkMqTagSet info

/-- A tags object and a tag. -/
abbrev Slot (info : BlkBlexDevInfo) := Fin info.nrCqs × Nat

/-- An index into an array of `n` entries; `none` is an access past its end. -/
def inArray (n idx : Nat) : Option (Fin n) := if h : idx < n then some ⟨idx, h⟩ else none

section Source

variable {info : BlkBlexDevInfo} (q : RequestQueue) (rqTag : Flush.Request → Option Nat)

namespace BlkMqTagSet

variable (set : BlkMqTagSet info)

/-- `set->tags[idx]->rqs[tag]` -/
def entry (k : Slot info) : Option RqPtr := (set.tags k.1).bind fun tags => tags.rqs k.2

/-- `set->tags[idx] = tags` -/
def setTags (idx : Fin info.nrCqs) (tags : Option BlkMqTags) : BlkMqTagSet info :=
  { set with tags := Function.update set.tags idx tags }

end BlkMqTagSet

/-! ## The functions -/

/-- The index of `hctx->tags` in the array of the set. -/
def hctxTags (info : BlkBlexDevInfo) (hctx : Nat) : Option (Fin info.nrCqs) :=
  inArray info.nrCqs (blkBlexGetTagIdx hctx info)

/-- `blk_mq_get_driver_tag`; `new` is the tag that `__blk_mq_alloc_driver_tag` gives to a request
without one, `none` when all are in use. -/
def blkMqGetDriverTag (set : BlkMqTagSet info) (rq : Request) (new : Option Nat) :
    Option (BlkMqTagSet info) :=
  rq.mqHctx.bind fun hctx => (hctxTags info hctx).bind fun idx =>
    (set.tags idx).bind fun tags =>
      match rq.tag.or new with
      | none => some set
      | some tag =>
          if tag < set.queueDepth then
            some (set.setTags idx (some ⟨Function.update tags.rqs tag (some rq.ptr)⟩))
          else none

/-- `cmpxchg(&rqs[i], old, NULL)` -/
def cmpxchgNull (rqs : Nat → Option RqPtr) (old : RqPtr) (i : Nat) : Nat → Option RqPtr :=
  if rqs i = some old then Function.update rqs i none else rqs

/-- `blk_mq_clear_flush_rq_mapping` -/
def blkMqClearFlushRqMapping (tags : Option BlkMqTags) (queueDepth : Nat) (flushRq : RqPtr) :
    Option BlkMqTags :=
  tags.map fun tags => ⟨(List.range queueDepth).foldl (cmpxchgNull · flushRq) tags.rqs⟩

/-- `blk_mq_exit_hctx`, as far as it concerns the tag set. -/
def blkMqExitHctx (set : BlkMqTagSet info) (hctxIdx : Nat) : Option (BlkMqTagSet info) :=
  let flushRq := RqPtr.fq hctxIdx
  if q.initDone then
    (inArray info.nrCqs hctxIdx).map fun idx =>
      set.setTags idx (blkMqClearFlushRqMapping (set.tags idx) set.queueDepth flushRq)
  else some set

/-- The flush request of a vNQ as `blk_kick_flush` fills it in. -/
def flushRequest (fs : Flush.State) (k : Key) : Request where
  ptr := .vnq k
  mqHctx := (fs.fq k).flushRq.mqHctx
  -- the tag of `first_rq`, and with a scheduler none but `internal_tag`
  tag := if q.elevator then none else (fs.fq k).flushing.head?.bind rqTag

/-! ## Runs -/

inductive Event where
  | flush (e : Flush.Event)
  /-- the flush request in flight on a vNQ gets its driver tag -/
  | flushTag (k : Key) (new : Option Nat)
  /-- another request does -/
  | driverTag (id : Nat) (mqHctx tag new : Option Nat)

/-- The request gets its driver tag, or none is free. -/
def State.getDriverTag (s : State info) (rq : Request) (new : Option Nat) : Option (State info) :=
  (blkMqGetDriverTag s.set rq new).map fun set => { s with set }

def step (s : State info) : Event → Option (State info)
  | .flush e => (Flush.step s.flush e).map fun flush => { s with flush }
  | .flushTag k new =>
      if (s.flush.fq k).inFlight ≠ 0 ∧ (s.flush.fq k).device = none then
        s.getDriverTag (flushRequest q rqTag s.flush k) new
      else none
  | .driverTag id mqHctx tag new => s.getDriverTag ⟨.other id, mqHctx, tag⟩ new

/-- Nothing was issued yet, and the arrays are as they are allocated. -/
structure Init (s : State info) : Prop where
  flush : s.flush = Flush.start
  set : ∀ k, s.set.entry k = none

/-! ## What is recorded -/

/-- The slot that a request is entered in, if it gets a tag. -/
def Request.slot (info : BlkBlexDevInfo) (rq : Request) (new : Option Nat) : Option (Slot info) :=
  rq.mqHctx.bind fun hctx => (hctxTags info hctx).bind fun idx =>
    (rq.tag.or new).map fun tag => (idx, tag)

def Request.recorded (rq : Request) (new : Option Nat) : List (Slot info × RqPtr) :=
  (rq.slot info new).toList.map fun k => (k, rq.ptr)

/-- The entry that an event makes, if any. -/
def recorded (s : State info) : Event → List (Slot info × RqPtr)
  | .flush _ => []
  | .flushTag k new => (flushRequest q rqTag s.flush k).recorded new
  | .driverTag id mqHctx tag new => Request.recorded ⟨.other id, mqHctx, tag⟩ new

/-- The entries that are made in a run. -/
def recordings : State info → List Event → List (Slot info × RqPtr)
  | _, [] => []
  | s, e :: es =>
      recorded q rqTag s e ++
        match step q rqTag s e with
        | none => []
        | some s' => recordings s' es

end Source

/-- No entry of the tag set leads to a flush request of the hctx. -/
def Unmapped {info : BlkBlexDevInfo} (set : BlkMqTagSet info) (hctx : Nat) : Prop :=
  ∀ k rq, set.entry k = some rq → ¬ rq.OwnedBy hctx

/-- The flush request that `blk_kick_flush` issues has the tag of the first request that waits. -/
theorem kick_flushRequest (q : RequestQueue) (rqTag : Flush.Request → Option Nat)
    {fs : Flush.State} {k : Key} {late : Bool} {firstRq : Flush.Request}
    {rest : List Flush.Request} (h_pending : (fs.fq k).pending = firstRq :: rest)
    (h_idx : (fs.fq k).flushPendingIdx = (fs.fq k).flushRunningIdx)
    (h_data : (fs.fq k).flushDataInFlight = [] ∨ late = true) :
    flushRequest q rqTag (blkKickFlush fs k late) k =
      ⟨.vnq k, firstRq.mqHctx, if q.elevator then none else rqTag firstRq⟩ := by
  rw [Flush.kick_issues h_pending h_idx h_data, flushRequest, Flush.State.setFq_fq_self]
  dsimp only
  rw [h_pending]
  rfl

section Entries

variable {info : BlkBlexDevInfo} {q : RequestQueue} {rqTag : Flush.Request → Option Nat}
  {set set' : BlkMqTagSet info} {s s' : State info} {rq : Request} {new : Option Nat} {hctx : Nat}

theorem entry_setTags_self {idx : Fin info.nrCqs} {tags : Option BlkMqTags} {tag : Nat} :
    (set.setTags idx tags).entry (idx, tag) = tags.bind fun tags => tags.rqs tag := by
  rw [BlkMqTagSet.entry, BlkMqTagSet.setTags]
  dsimp only
  rw [Function.update_self]

theorem entry_setTags_ne {idx : Fin info.nrCqs} {tags : Option BlkMqTags} {k : Slot info}
    (h : k.1 ≠ idx) : (set.setTags idx tags).entry k = set.entry k := by
  rw [BlkMqTagSet.entry, BlkMqTagSet.entry, BlkMqTagSet.setTags]
  dsimp only
  rw [Function.update_of_ne h]

theorem entry_record {idx : Fin info.nrCqs} {tags : BlkMqTags} (h : set.tags idx = some tags)
    (tag : Nat) (ptr : RqPtr) :
    (set.setTags idx (some ⟨Function.update tags.rqs tag (some ptr)⟩)).entry =
      Function.update set.entry (idx, tag) (some ptr) := by
  funext k
  obtain ⟨i, j⟩ := k
  by_cases h_i : i = idx
  · subst h_i
    rw [entry_setTags_self, Option.bind_some]
    dsimp only
    by_cases h_j : j = tag
    · subst h_j
      rw [Function.update_self, Function.update_self]
    · have h_ne : (i, j) ≠ (i, tag) := fun h_eq => h_j (Prod.mk.inj h_eq).2
      rw [Function.update_of_ne h_j, Function.update_of_ne h_ne, BlkMqTagSet.entry, h,
        Option.bind_some]
  · have h_ne : (i, j) ≠ (idx, tag) := fun h_eq => h_i (Prod.mk.inj h_eq).1
    rw [entry_setTags_ne h_i, Function.update_of_ne h_ne]

/-- A request that gets its driver tag is entered in its slot. -/
theorem getDriverTag_entry (h : blkMqGetDriverTag set rq new = some set') :
    set'.entry = replay set.entry (rq.recorded new) := by
  rw [blkMqGetDriverTag, Option.bind_eq_some_iff] at h
  obtain ⟨hctx, h_hctx, h⟩ := h
  obtain ⟨idx, h_idx, h⟩ := Option.bind_eq_some_iff.mp h
  obtain ⟨tags, h_tags, h⟩ := Option.bind_eq_some_iff.mp h
  have h_slot : rq.slot info new = (rq.tag.or new).map fun tag => (idx, tag) := by
    rw [Request.slot, h_hctx, Option.bind_some, h_idx, Option.bind_some]
  rw [Request.recorded, h_slot]
  split at h
  case h_1 h_tag =>
    cases h
    rw [h_tag]
    rfl
  case h_2 tag h_tag =>
    rw [Option.ite_none_right_eq_some] at h
    obtain ⟨-, h⟩ := h
    cases h
    rw [h_tag, entry_record h_tags]
    rfl

theorem step_entry {e : Event} (h : step q rqTag s e = some s') :
    s'.set.entry = replay s.set.entry (recorded q rqTag s e) := by
  cases e with
  | flush e =>
      obtain ⟨flush, -, rfl⟩ := Option.map_eq_some_iff.mp h
      rfl
  | flushTag k new =>
      rw [step, Option.ite_none_right_eq_some] at h
      obtain ⟨set, h_set, rfl⟩ := Option.map_eq_some_iff.mp h.2
      exact getDriverTag_entry h_set
  | driverTag id mqHctx tag new =>
      obtain ⟨set, h_set, rfl⟩ := Option.map_eq_some_iff.mp h
      exact getDriverTag_entry h_set

/-- After a run the arrays hold what was recorded last. -/
theorem run_entry {es : List Event} (h : Lts.run (step q rqTag) s es = some s') :
    s'.set.entry = replay s.set.entry (recordings q rqTag s es) := by
  induction es generalizing s with
  | nil =>
      cases h
      rfl
  | cons e es ih =>
      rw [Lts.run_cons, Option.bind_eq_some_iff] at h
      obtain ⟨t, h_step, h_rest⟩ := h
      rw [recordings, h_step, replay_append, ← step_entry h_step]
      exact ih h_rest

/-- The flush request of `hctx->fq` is never issued. -/
theorem recorded_ne_fq {e : Event} : ∀ w ∈ recorded q rqTag s e, w.2 ≠ .fq hctx := by
  intro w h_w
  cases e with
  | flush e => cases h_w
  | flushTag k new =>
      obtain ⟨slot, -, rfl⟩ := List.mem_map.mp h_w
      exact nofun
  | driverTag id mqHctx tag new =>
      obtain ⟨slot, -, rfl⟩ := List.mem_map.mp h_w
      exact nofun

theorem recordings_ne_fq {es : List Event} :
    ∀ w ∈ recordings q rqTag s es, w.2 ≠ .fq hctx := by
  induction es generalizing s with
  | nil => exact nofun
  | cons e es ih =>
      intro w h_w
      rw [recordings, List.mem_append] at h_w
      rcases h_w with h_w | h_w
      · exact recorded_ne_fq w h_w
      · split at h_w
        case h_1 => cases h_w
        case h_2 => exact ih w h_w

theorem run_ne_fq {es : List Event} (h_init : Init s)
    (h_run : Lts.run (step q rqTag) s es = some s') (k : Slot info) :
    s'.set.entry k ≠ some (.fq hctx) := by
  intro h_k
  rw [run_entry h_run] at h_k
  rcases mem_of_replay h_k with h_start | h_mem
  · rw [h_init.set k] at h_start
    cases h_start
  · exact recordings_ne_fq _ h_mem rfl

/-! ## The exit of a hardware context -/

theorem cmpxchgNull_apply (rqs : Nat → Option RqPtr) (old : RqPtr) (i j : Nat) :
    cmpxchgNull rqs old i j = if j = i ∧ rqs j = some old then none else rqs j := by
  rw [cmpxchgNull]
  split
  case isTrue h_old =>
    by_cases h_j : j = i
    · subst h_j
      rw [if_pos ⟨rfl, h_old⟩, Function.update_self]
    · rw [if_neg fun h => h_j h.1, Function.update_of_ne h_j]
  case isFalse h_old =>
    rw [if_neg]
    rintro ⟨rfl, h⟩
    exact h_old h

/-- The loop takes out the pointer that it looks for, below the queue depth, and no other. -/
theorem clear_apply (rqs : Nat → Option RqPtr) (flushRq : RqPtr) (queueDepth j : Nat) :
    (List.range queueDepth).foldl (cmpxchgNull · flushRq) rqs j =
      if j < queueDepth ∧ rqs j = some flushRq then none else rqs j := by
  induction queueDepth with
  | zero => rfl
  | succ n ih =>
      rw [List.range_succ, List.foldl_append, List.foldl_cons, List.foldl_nil, cmpxchgNull_apply,
        ih]
      by_cases h_rq : rqs j = some flushRq
      · simp only [h_rq, and_true]
        by_cases h_lt : j < n
        · rw [if_pos h_lt, if_pos (Nat.lt_succ_of_lt h_lt), ite_self]
        · rw [if_neg h_lt]
          by_cases h_j : j = n
          · rw [if_pos ⟨h_j, rfl⟩, if_pos (by omega)]
          · rw [if_neg fun h => h_j h.1, if_neg (by omega)]
      · simp only [h_rq, and_false, if_false]

/-- `blk_mq_exit_hctx` does not fault when its index is one of the array, and it leaves every entry
as it is when none leads to the flush request of `hctx->fq`. -/
theorem exitHctx_eq (h_init : q.initDone = true)
    (h_fq : ∀ k, set.entry k ≠ some (.fq hctx)) :
    (∃ set', blkMqExitHctx q set hctx = some set' ∧ set'.entry = set.entry) ∧ hctx < info.nrCqs ∨
      blkMqExitHctx q set hctx = none ∧ ¬ hctx < info.nrCqs := by
  rw [blkMqExitHctx, if_pos h_init, inArray]
  split
  case isFalse h_lt => exact .inr ⟨rfl, h_lt⟩
  case isTrue h_lt =>
    refine .inl ⟨⟨_, rfl, ?_⟩, h_lt⟩
    funext k
    obtain ⟨i, j⟩ := k
    by_cases h_i : i = ⟨hctx, h_lt⟩
    · subst h_i
      rw [entry_setTags_self, BlkMqTagSet.entry, blkMqClearFlushRqMapping]
      cases h_tags : set.tags ⟨hctx, h_lt⟩ with
      | none => rfl
      | some tags =>
          rw [Option.map_some, Option.bind_some, Option.bind_some]
          dsimp only
          rw [clear_apply, if_neg]
          rintro ⟨-, h_j⟩
          apply h_fq (⟨hctx, h_lt⟩, j)
          rw [BlkMqTagSet.entry, h_tags, Option.bind_some, h_j]
    · rw [entry_setTags_ne h_i]

/-- After any run of flushes and other requests on an initialised queue, `blk_mq_exit_hctx` leaves
no pointer to a flush request of the hctx exactly when its index is one of `set->tags` and after
each time that such a request was recorded another entry was made under the same tag of the same
set. -/
theorem exitHctx_unmapped_iff {es : List Event} (hctx : Nat) (h_done : q.initDone = true)
    (h_init : Init s) (h_run : Lts.run (step q rqTag) s es = some s') :
    Returns (blkMqExitHctx q s'.set hctx) (Unmapped · hctx) ↔
      hctx < info.nrCqs ∧ Superseded (·.OwnedBy hctx) (recordings q rqTag s es) := by
  have h_entry : Unmapped s'.set hctx ↔
      Superseded (·.OwnedBy hctx) (recordings q rqTag s es) := by
    rw [Unmapped, run_entry h_run]
    exact replay_empty_avoids_iff h_init.set
  rw [← h_entry]
  rcases exitHctx_eq h_done (run_ne_fq h_init h_run) with
    ⟨⟨set', h_exit, h_eq⟩, h_lt⟩ | ⟨h_exit, h_lt⟩
  · have h_unmapped : Unmapped set' hctx ↔ Unmapped s'.set hctx := by
      rw [Unmapped, Unmapped, h_eq]
    rw [h_exit, and_iff_right h_lt, ← h_unmapped]
    exact ⟨fun h => h.of_eq_some rfl, fun h => Returns.some h⟩
  · rw [h_exit]
    refine iff_of_false ?_ fun h => h_lt h.1
    rintro ⟨set', h_eq, -⟩
    cases h_eq

end Entries

/-! ## Two runs -/

/-- A tag set for two queues that are both completion queues. -/
def newState : State ⟨2, 2⟩ := ⟨Flush.start, ⟨fun _ => some ⟨fun _ => none⟩, 32⟩⟩

/-- The driver tag of a request is its id. -/
def ownTag (rq : Flush.Request) : Option Nat := some rq.id

/-- A flush, and `sectors` sectors to be written after it, from CPU 1. -/
def flushFirst (sectors : Nat) : Flush.Request := ⟨7, some 0, 1, sectors, true, false⟩

/-- The data is sent to the device after the flush, under the tag that the flush had. -/
def dataRun : List Event :=
  [.flush (.insert (flushFirst 8) true false false), .flushTag (0, 1) none,
    .flush (.flushEnd (0, 1) 0 fun _ => false), .driverTag 7 (some 0) (some 7) none,
    .flush (.dataEnd (flushFirst 8) 0 false)]

/-- There is no data. -/
def flushRun : List Event :=
  [.flush (.insert (flushFirst 0) true false false), .flushTag (0, 1) none,
    .flush (.flushEnd (0, 1) 0 fun _ => false)]

theorem newState_init : Init newState := ⟨rfl, fun _ => rfl⟩

theorem exitHctx_unmapped_dataRun :
    ∃ s, Lts.run (step ⟨true, false⟩ ownTag) newState dataRun = some s ∧
      Returns (blkMqExitHctx ⟨true, false⟩ s.set 0) (Unmapped · 0) := by
  have h_some : (Lts.run (step ⟨true, false⟩ ownTag) newState dataRun).isSome = true := by
    decide +kernel
  obtain ⟨s, h_run⟩ := Option.isSome_iff_exists.mp h_some
  refine ⟨s, h_run, (exitHctx_unmapped_iff 0 rfl newState_init h_run).mpr ⟨by decide, ?_⟩⟩
  have h_recordings : recordings ⟨true, false⟩ ownTag newState dataRun =
      [((0, 7), .vnq (0, 1)), ((0, 7), .other 7)] := by decide +kernel
  rw [h_recordings]
  exact ⟨fun _ => ⟨_, List.mem_cons_self .., rfl⟩, fun h => h.elim, trivial⟩

/-- The flush request of the vNQ of CPU 1 is still found under tag 7. -/
theorem flushRun_mapped :
    ¬ ∀ es s, Lts.run (step ⟨true, false⟩ ownTag) newState es = some s →
      Returns (blkMqExitHctx ⟨true, false⟩ s.set 0) (Unmapped · 0) := by
  intro h
  have h_entry : (Lts.run (step ⟨true, false⟩ ownTag) newState flushRun).bind (fun s =>
      (blkMqExitHctx ⟨true, false⟩ s.set 0).bind (·.entry (0, 7))) = some (.vnq (0, 1)) := by
    decide +kernel
  obtain ⟨s, h_run, h_exit⟩ := Option.bind_eq_some_iff.mp h_entry
  obtain ⟨set, h_set, h_vnq⟩ := Option.bind_eq_some_iff.mp h_exit
  exact (h flushRun s h_run).of_eq_some h_set (0, 7) _ h_vnq rfl

end Daredevil.FlushMapping
