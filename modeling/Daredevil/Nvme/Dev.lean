/-
  Daredevil.Nvme.Dev

  The queues of an NVMe device (`drivers/nvme/host/pci.c`, with extra queues):
  allocation, creation, suspension and freeing of one queue, and the loops over
  them.

  A queue owns a completion ring (`cqes`) only if it is an NCQ of the layout in
  force when it was allocated.  `max_qid` and `nr_cqs` change later, so each queue
  also records that layout (`allocInfo`; the source keeps no such field, it is
  read by statements only).  Clearing a ring that is not allocated, and following
  the NULL `dev` of a queue that was never set up, are faults.

  `RingInv` relates rings to recorded layouts, `OnlineInv` the online count to the
  enabled queues and `AssocInv` the controller's attachments to the current layout;
  the operations keep them.
-/
import Daredevil.Block.Layout
import Daredevil.Lib.Returns
import Mathlib.Logic.Function.Basic

namespace Daredevil.Nvme

/-! ## State -/

/-- The memory behind a pointer returned by `dma_alloc_coherent`. -/
inductive Ring where
  | null
  | allocated
  | freed
  deriving DecidableEq, Repr

/-- `dma_free_coherent`; the pointer keeps its value. -/
def Ring.release : Ring → Ring
  | .null => .null
  | _ => .freed

structure NvmeQueue where
  /-- `nvmeq->dev` is set -/
  hasDev : Bool
  cqes : Ring
  /-- `NVMEQ_ENABLED` -/
  enabled : Bool
  /-- `NVMEQ_POLLED` -/
  polled : Bool
  /-- the layout in force when the queue was last allocated -/
  allocInfo : Option BlkBlexDevInfo
  deriving DecidableEq, Repr

/-- A zeroed `struct nvme_queue`. -/
def NvmeQueue.zero : NvmeQueue := ⟨false, .null, false, false, none⟩

structure NvmeDev where
  queues : Nat → NvmeQueue
  nrAllocatedQueues : Nat
  /-- `ctrl.queue_count` -/
  queueCount : Nat
  onlineQueues : Nat
  maxQid : Nat
  nrCqs : Nat
  numVecs : Nat
  nrWriteQueues : Nat
  nrPollQueues : Nat
  /-- `io_queues[HCTX_TYPE_POLL]` -/
  ioQueuesPoll : Nat
  /-- CQ id of the last accepted Create SQ command for each queue id -/
  sqCqid : Nat → Nat
  /-- `shutdown_lock` is held by the code modelled here -/
  shutdownLock : Bool
  /-- `ctrl.tagset` is set -/
  tagset : Bool

namespace NvmeDev

/-- The layout the driver computes with. -/
def info (dev : NvmeDev) : BlkBlexDevInfo := ⟨dev.maxQid, dev.nrCqs⟩

def setQueue (dev : NvmeDev) (qid : Nat) (nvmeq : NvmeQueue) : NvmeDev :=
  { dev with queues := Function.update dev.queues qid nvmeq }

end NvmeDev

inductive Fault where
  /-- `nvmeq->dev` is NULL where it is followed -/
  | nullDev (qid : Nat)
  /-- `nvme_init_queue` clears a ring that is not allocated -/
  | clearRing (qid : Nat)
  deriving DecidableEq, Repr

def eio : Int := -5
def enomem : Int := -12
def enodev : Int := -19

/-- What the allocator, the controller and the interrupt core answer for one queue. -/
structure QueueEnv where
  cqesAlloc : Bool
  sqAlloc : Bool
  createCq : Int
  createSq : Int
  /-- `shutdown_lock` is free and the controller is connecting -/
  lockFree : Bool
  requestIrq : Int

/-! ## One queue -/

/-- `blex_nvmeq_has_cq` -/
def blexNvmeqHasCq (dev : NvmeDev) (qid : Nat) : Bool :=
  qid == 0 || qid == blkBlexGetCqid qid dev.maxQid dev.nrCqs

/-- The CQ id that `nvme_blex_create_queue` attaches the SQ of `qid` to. -/
def assocCqid (dev : NvmeDev) (qid : Nat) : Nat :=
  if blexNvmeqHasCq dev qid then qid else blkBlexGetCqid qid dev.maxQid dev.nrCqs

/-- `nvme_blex_alloc_queue`; false for `-ENOMEM`. -/
def nvmeBlexAllocQueue (env : QueueEnv) (dev : NvmeDev) (qid : Nat) : Bool × NvmeDev :=
  let nvmeq := dev.queues qid
  let hasCq := blexNvmeqHasCq dev qid
  if dev.queueCount > qid then (true, dev)
  else if hasCq && !env.cqesAlloc then (false, dev.setQueue qid { nvmeq with cqes := .null })
  else
    let nvmeq := if hasCq then { nvmeq with cqes := .allocated } else nvmeq
    if !env.sqAlloc then
      (false, dev.setQueue qid { nvmeq with cqes := nvmeq.cqes.release })
    else
      -- `cqes` of a queue without a CQ keeps the value it had
      (true, { dev.setQueue qid { nvmeq with hasDev := true, allocInfo := some dev.info } with
        queueCount := dev.queueCount + 1 })

/-- `nvme_alloc_queue`, which the admin queue is allocated with. -/
def nvmeAllocQueue (env : QueueEnv) (dev : NvmeDev) (qid : Nat) : Bool × NvmeDev :=
  let nvmeq := dev.queues qid
  if dev.queueCount > qid then (true, dev)
  else if !env.cqesAlloc then (false, dev.setQueue qid { nvmeq with cqes := .null })
  else if !env.sqAlloc then (false, dev.setQueue qid { nvmeq with cqes := .freed })
  else
    (true, { dev.setQueue qid
        { nvmeq with hasDev := true, cqes := .allocated, allocInfo := some dev.info } with
      queueCount := dev.queueCount + 1 })

/-- `nvme_init_queue` -/
def nvmeInitQueue (dev : NvmeDev) (qid : Nat) : Except Fault NvmeDev :=
  if blexNvmeqHasCq dev qid && (dev.queues qid).cqes != .allocated then .error (.clearRing qid)
  else .ok { dev with onlineQueues := dev.onlineQueues + 1 }

/-- `nvme_setup_io_queues_trylock`; `none` for `-ENODEV`. -/
def nvmeSetupIoQueuesTrylock (lockFree : Bool) (dev : NvmeDev) : Option NvmeDev :=
  if lockFree && !dev.shutdownLock then some { dev with shutdownLock := true } else none

/-- `nvme_blex_create_queue`, for a queue that is not polled. -/
def nvmeBlexCreateQueue (env : QueueEnv) (dev : NvmeDev) (qid : Nat) :
    Except Fault (Int × NvmeDev) :=
  if !(dev.queues qid).hasDev then .error (.nullDev qid)
  else
    let hasCq := blexNvmeqHasCq dev qid
    if hasCq && env.createCq != 0 then .ok (env.createCq, dev)
    else if env.createSq < 0 then .ok (env.createSq, dev)
    -- `release_cq`: a CQ created above is deleted again
    else if env.createSq ≠ 0 then .ok (env.createSq, dev)
    else
      let dev := { dev with sqCqid := Function.update dev.sqCqid qid (assocCqid dev qid) }
      match nvmeSetupIoQueuesTrylock env.lockFree dev with
      | none => .ok (enodev, dev)
      | some dev =>
          match nvmeInitQueue dev qid with
          | .error fault => .error fault
          | .ok dev =>
              if hasCq && decide (env.requestIrq < 0) then
                -- `release_sq`
                .ok (env.requestIrq,
                  { dev with onlineQueues := dev.onlineQueues - 1, shutdownLock := false })
              else
                .ok (if hasCq then env.requestIrq else 0,
                  { dev.setQueue qid { dev.queues qid with enabled := true } with
                    shutdownLock := false })

/-- `nvme_suspend_queue` -/
def nvmeSuspendQueue (dev : NvmeDev) (qid : Nat) : NvmeDev :=
  let nvmeq := dev.queues qid
  if !nvmeq.enabled then dev
  else
    -- `NVMEQ_POLLED` is tested and cleared for queues with a CQ only
    let polled := nvmeq.polled && !blexNvmeqHasCq dev qid
    { dev.setQueue qid { nvmeq with enabled := false, polled := polled } with
      onlineQueues := dev.onlineQueues - 1 }

/-- `nvme_free_queue` for the last queue, with the decrement of `queue_count`. -/
def nvmeFreeLastQueue (dev : NvmeDev) : NvmeDev :=
  let qid := dev.queueCount - 1
  let nvmeq := dev.queues qid
  { dev.setQueue qid { nvmeq with cqes := nvmeq.cqes.release } with queueCount := qid }

/-! ## Loops over the queues -/

/-- The allocation loop of `nvme_blex_create_io_queues`: `n` queues from `qid` on. -/
def allocLoop (env : Nat → QueueEnv) : Nat → Nat → NvmeDev → Bool × NvmeDev
  | 0, _, dev => (true, dev)
  | n + 1, qid, dev =>
      let r := nvmeBlexAllocQueue (env qid) dev qid
      if r.1 then allocLoop env n (qid + 1) r.2 else (false, r.2)

/-- The creation loop of `nvme_blex_create_io_queues`: `n` queues from `qid` on. -/
def createLoop (env : Nat → QueueEnv) :
    Nat → Nat → Int → NvmeDev → Except Fault (Int × NvmeDev)
  | 0, _, ret, dev => .ok (ret, dev)
  | n + 1, qid, _, dev =>
      match nvmeBlexCreateQueue (env qid) dev qid with
      | .error fault => .error fault
      | .ok (ret, dev) => if ret ≠ 0 then .ok (ret, dev) else createLoop env n (qid + 1) ret dev

/-- `nvme_blex_create_io_queues` -/
def nvmeBlexCreateIoQueues (env : Nat → QueueEnv) (dev : NvmeDev) :
    Except Fault (Int × NvmeDev) :=
  let a := allocLoop env (dev.maxQid + 1 - dev.queueCount) dev.queueCount dev
  let max := min a.2.maxQid (a.2.queueCount - 1)
  if a.2.ioQueuesPoll ≠ 0 then .ok (-1, a.2)
  else
    match createLoop env (max + 1 - a.2.onlineQueues) a.2.onlineQueues (if a.1 then 0 else enomem)
        a.2 with
    | .error fault => .error fault
    | .ok (ret, dev) => .ok (if 0 ≤ ret then 0 else ret, dev)

/-- The loop of `nvme_suspend_io_queues`, from queue `n` down to queue 1. -/
def suspendFrom : Nat → NvmeDev → NvmeDev
  | 0, dev => dev
  | n + 1, dev => suspendFrom n (nvmeSuspendQueue dev (n + 1))

/-- `nvme_suspend_io_queues` -/
def nvmeSuspendIoQueues (dev : NvmeDev) : NvmeDev := suspendFrom (dev.queueCount - 1) dev

/-- The loop of `nvme_free_queues`: `n` queues, last first. -/
def freeLoop : Nat → NvmeDev → NvmeDev
  | 0, dev => dev
  | n + 1, dev => freeLoop n (nvmeFreeLastQueue dev)

/-- `nvme_free_queues` -/
def nvmeFreeQueues (dev : NvmeDev) (lowest : Nat) : NvmeDev :=
  freeLoop (dev.queueCount - lowest) dev

/-- `nvme_blex_extraq_update_queues`; `none` for `-ENOMEM`.  Only the admin queue is
    copied to the new array. -/
def nvmeBlexExtraqUpdateQueues (arrayAlloc : Bool) (dev : NvmeDev) (nrIoQueues : Nat) :
    Option NvmeDev :=
  if nrIoQueues ≤ dev.nrAllocatedQueues - 1 then some dev
  else if !arrayAlloc then none
  else
    some { dev with
      nrAllocatedQueues := nrIoQueues + 1
      queues := fun qid => if qid = 0 then dev.queues 0 else NvmeQueue.zero }

/-! ## Invariants -/

/-- The queue was allocated as an NCQ: with a completion ring. -/
def NvmeQueue.AllocatedAsNcq (nvmeq : NvmeQueue) (qid : Nat) : Prop :=
  ∃ info, nvmeq.allocInfo = some info ∧ blkBlexHasCq qid info = true

instance (nvmeq : NvmeQueue) (qid : Nat) : Decidable (nvmeq.AllocatedAsNcq qid) :=
  match h : nvmeq.allocInfo with
  | none => .isFalse fun ⟨_, h_info, _⟩ => by rw [h] at h_info; cases h_info
  | some info =>
      if h_cq : blkBlexHasCq qid info = true then .isTrue ⟨info, h, h_cq⟩
      else .isFalse fun ⟨_, h_info, h_true⟩ => by
        rw [h, Option.some.injEq] at h_info
        subst h_info
        exact h_cq h_true

/-- Rings are where the recorded layouts say, and nowhere past the queue count. -/
structure RingInv (dev : NvmeDev) : Prop where
  admin : 1 ≤ dev.queueCount → (dev.queues 0).cqes = .allocated
  ring_iff : ∀ qid, 1 ≤ qid → qid < dev.queueCount →
    ((dev.queues qid).cqes = .allocated ↔ (dev.queues qid).AllocatedAsNcq qid)
  beyond : ∀ qid, dev.queueCount ≤ qid → (dev.queues qid).cqes ≠ .allocated

/-- The enabled I/O queues are those below the online count, and they are allocated. -/
structure OnlineInv (dev : NvmeDev) : Prop where
  le : dev.onlineQueues ≤ dev.queueCount
  enabled_iff : ∀ qid, 1 ≤ qid → ((dev.queues qid).enabled = true ↔ qid < dev.onlineQueues)

/-- The controller attached the SQ of every online queue to the CQ of the current layout. -/
def AssocInv (dev : NvmeDev) : Prop :=
  ∀ qid, 1 ≤ qid → qid < dev.onlineQueues →
    dev.sqCqid qid = blkBlexGetCqid qid dev.maxQid dev.nrCqs

/-- What the queues and the controller agree on at any time. -/
structure DevInv (dev : NvmeDev) : Prop where
  ring : RingInv dev
  online : OnlineInv dev
  assoc : AssocInv dev

theorem AssocInv.of_online_le_one {dev : NvmeDev} (h : dev.onlineQueues ≤ 1) : AssocInv dev :=
  fun qid h_qid h_lt => absurd h_lt (by omega)

/-! ## Basic facts -/

theorem blexNvmeqHasCq_eq {dev : NvmeDev} {qid : Nat} (h_qid : 1 ≤ qid) :
    blexNvmeqHasCq dev qid = blkBlexHasCq qid dev.info := by
  have h_zero : (qid == 0) = false := beq_eq_false_iff_ne.mpr (by omega)
  rw [blexNvmeqHasCq, h_zero, Bool.false_or]
  rfl

theorem assocCqid_eq {dev : NvmeDev} {qid : Nat} (h_qid : 1 ≤ qid) :
    assocCqid dev qid = blkBlexGetCqid qid dev.maxQid dev.nrCqs := by
  rw [assocCqid, blexNvmeqHasCq_eq h_qid]
  split
  case isTrue h => exact beq_iff_eq.mp h
  case isFalse => rfl

theorem setQueue_queues_of_ne {dev : NvmeDev} {i qid : Nat} {nvmeq : NvmeQueue} (h : i ≠ qid) :
    (dev.setQueue qid nvmeq).queues i = dev.queues i :=
  Function.update_of_ne h _ _

@[simp] theorem setQueue_queues_self {dev : NvmeDev} {qid : Nat} {nvmeq : NvmeQueue} :
    (dev.setQueue qid nvmeq).queues qid = nvmeq :=
  Function.update_self _ _ _

/-- Replacing a queue by one with the same `f` keeps `f` of every queue. -/
theorem setQueue_congr {α : Type} (f : NvmeQueue → α) {dev : NvmeDev} {qid : Nat}
    {nvmeq : NvmeQueue} (h : f nvmeq = f (dev.queues qid)) (i : Nat) :
    f ((dev.setQueue qid nvmeq).queues i) = f (dev.queues i) := by
  by_cases h_i : i = qid
  · rw [h_i, setQueue_queues_self, h]
  · rw [setQueue_queues_of_ne h_i]

theorem release_ne_allocated (r : Ring) : r.release ≠ .allocated := by
  cases r <;> decide

/-- No operation that leaves these alone changes which rings exist. -/
structure SameRings (dev dev' : NvmeDev) : Prop where
  queueCount : dev'.queueCount = dev.queueCount
  info : dev'.info = dev.info
  cqes : ∀ qid, (dev'.queues qid).cqes = (dev.queues qid).cqes
  allocInfo : ∀ qid, (dev'.queues qid).allocInfo = (dev.queues qid).allocInfo

theorem SameRings.refl (dev : NvmeDev) : SameRings dev dev := ⟨rfl, rfl, fun _ => rfl, fun _ => rfl⟩

theorem SameRings.trans {dev₁ dev₂ dev₃ : NvmeDev} (h : SameRings dev₁ dev₂)
    (h' : SameRings dev₂ dev₃) : SameRings dev₁ dev₃ where
  queueCount := h'.queueCount.trans h.queueCount
  info := h'.info.trans h.info
  cqes qid := (h'.cqes qid).trans (h.cqes qid)
  allocInfo qid := (h'.allocInfo qid).trans (h.allocInfo qid)

theorem allocatedAsNcq_congr {nvmeq nvmeq' : NvmeQueue} {qid : Nat}
    (h : nvmeq'.allocInfo = nvmeq.allocInfo) :
    nvmeq'.AllocatedAsNcq qid ↔ nvmeq.AllocatedAsNcq qid := by
  rw [NvmeQueue.AllocatedAsNcq, NvmeQueue.AllocatedAsNcq, h]

theorem RingInv.of_sameRings {dev dev' : NvmeDev} (h : RingInv dev) (h_same : SameRings dev dev') :
    RingInv dev' where
  admin h_count := by
    rw [h_same.queueCount] at h_count
    rw [h_same.cqes]
    exact h.admin h_count
  ring_iff qid h_qid h_lt := by
    rw [h_same.queueCount] at h_lt
    rw [h_same.cqes, allocatedAsNcq_congr (h_same.allocInfo qid)]
    exact h.ring_iff qid h_qid h_lt
  beyond qid h_ge := by
    rw [h_same.queueCount] at h_ge
    rw [h_same.cqes]
    exact h.beyond qid h_ge

theorem blexNvmeqHasCq_congr {dev dev' : NvmeDev} (h : dev'.info = dev.info) (qid : Nat) :
    blexNvmeqHasCq dev' qid = blexNvmeqHasCq dev qid := by
  rw [NvmeDev.info, NvmeDev.info, BlkBlexDevInfo.mk.injEq] at h
  rw [blexNvmeqHasCq, blexNvmeqHasCq, h.1, h.2]

/-! ## Allocation -/

/-- What allocating queues from the queue count on does: the old queues stay, and the new ones
    record the current layout. -/
structure Grown (dev dev' : NvmeDev) : Prop where
  info : dev'.info = dev.info
  onlineQueues : dev'.onlineQueues = dev.onlineQueues
  sqCqid : dev'.sqCqid = dev.sqCqid
  le : dev.queueCount ≤ dev'.queueCount
  old : ∀ qid, qid < dev.queueCount → dev'.queues qid = dev.queues qid
  enabled : ∀ qid, (dev'.queues qid).enabled = (dev.queues qid).enabled
  new : ∀ qid, dev.queueCount ≤ qid → qid < dev'.queueCount →
    (dev'.queues qid).allocInfo = some dev.info

theorem Grown.refl (dev : NvmeDev) : Grown dev dev where
  info := rfl
  onlineQueues := rfl
  sqCqid := rfl
  le := Nat.le_refl _
  old _ _ := rfl
  enabled _ := rfl
  new _ h_ge h_lt := absurd h_lt (Nat.not_lt.mpr h_ge)

theorem Grown.trans {dev₁ dev₂ dev₃ : NvmeDev} (h : Grown dev₁ dev₂) (h' : Grown dev₂ dev₃) :
    Grown dev₁ dev₃ where
  info := h'.info.trans h.info
  onlineQueues := h'.onlineQueues.trans h.onlineQueues
  sqCqid := h'.sqCqid.trans h.sqCqid
  le := Nat.le_trans h.le h'.le
  old qid h_lt := (h'.old qid (Nat.lt_of_lt_of_le h_lt h.le)).trans (h.old qid h_lt)
  enabled qid := (h'.enabled qid).trans (h.enabled qid)
  new qid h_ge h_lt := by
    rcases Nat.lt_or_ge qid dev₂.queueCount with h_mid | h_mid
    · rw [h'.old qid h_mid]
      exact h.new qid h_ge h_mid
    · rw [h'.new qid h_mid h_lt, h.info]

theorem Grown.of_setQueue {dev : NvmeDev} {qid : Nat} {nvmeq : NvmeQueue}
    (h_qid : dev.queueCount ≤ qid) (h_enabled : nvmeq.enabled = (dev.queues qid).enabled) :
    Grown dev (dev.setQueue qid nvmeq) where
  info := rfl
  onlineQueues := rfl
  sqCqid := rfl
  le := Nat.le_refl _
  old i h_lt := setQueue_queues_of_ne (by omega)
  enabled := setQueue_congr NvmeQueue.enabled h_enabled
  new _ h_ge h_lt := absurd h_lt (Nat.not_lt.mpr h_ge)

/-- A queue past the count may lose its ring. -/
theorem RingInv.setQueue_beyond {dev : NvmeDev} (h : RingInv dev) {nvmeq : NvmeQueue}
    {qid : Nat} (h_qid : dev.queueCount ≤ qid) (h_ring : nvmeq.cqes ≠ .allocated) :
    RingInv (dev.setQueue qid nvmeq) where
  admin h_count := by
    have h_lt : 1 ≤ dev.queueCount := h_count
    rw [setQueue_queues_of_ne (by omega)]
    exact h.admin h_lt
  ring_iff i h_i h_lt := by
    have h_lt : i < dev.queueCount := h_lt
    rw [setQueue_queues_of_ne (by omega)]
    exact h.ring_iff i h_i h_lt
  beyond i h_ge := by
    by_cases h_i : i = qid
    · rw [h_i, setQueue_queues_self]
      exact h_ring
    · rw [setQueue_queues_of_ne h_i]
      exact h.beyond i h_ge

/-- The queue at the count joins with a ring exactly if it records an NCQ layout. -/
theorem RingInv.setQueue_last {dev : NvmeDev} (h : RingInv dev) {nvmeq : NvmeQueue}
    (h_count : 1 ≤ dev.queueCount)
    (h_ring : nvmeq.cqes = .allocated ↔ nvmeq.AllocatedAsNcq dev.queueCount) :
    RingInv { dev.setQueue dev.queueCount nvmeq with queueCount := dev.queueCount + 1 } where
  admin _ := by
    show ((dev.setQueue dev.queueCount nvmeq).queues 0).cqes = .allocated
    rw [setQueue_queues_of_ne (by omega)]
    exact h.admin h_count
  ring_iff i h_i h_lt := by
    have h_lt : i < dev.queueCount + 1 := h_lt
    show ((dev.setQueue dev.queueCount nvmeq).queues i).cqes = .allocated ↔
      ((dev.setQueue dev.queueCount nvmeq).queues i).AllocatedAsNcq i
    by_cases h_last : i = dev.queueCount
    · rw [h_last, setQueue_queues_self]
      exact h_ring
    · rw [setQueue_queues_of_ne h_last]
      exact h.ring_iff i h_i (by omega)
  beyond i h_ge := by
    have h_ge : dev.queueCount + 1 ≤ i := h_ge
    show ((dev.setQueue dev.queueCount nvmeq).queues i).cqes ≠ .allocated
    rw [setQueue_queues_of_ne (by omega)]
    exact h.beyond i (by omega)

/-- Allocating the queue at the count: it grows the device, and the count says whether it
    succeeded. -/
theorem nvmeBlexAllocQueue_last (env : QueueEnv) {dev : NvmeDev} (h_count : 1 ≤ dev.queueCount)
    (h : RingInv dev) :
    let r := nvmeBlexAllocQueue env dev dev.queueCount
    RingInv r.2 ∧ Grown dev r.2 ∧
      r.2.queueCount = if r.1 then dev.queueCount + 1 else dev.queueCount := by
  have h_free := h.beyond dev.queueCount (Nat.le_refl _)
  have h_hasCq : blexNvmeqHasCq dev dev.queueCount = blkBlexHasCq dev.queueCount dev.info :=
    blexNvmeqHasCq_eq h_count
  simp only [nvmeBlexAllocQueue, gt_iff_lt, Nat.lt_irrefl, if_false]
  split
  · exact ⟨h.setQueue_beyond (Nat.le_refl _) (by simp), .of_setQueue (Nat.le_refl _) rfl, rfl⟩
  · split
    · refine ⟨h.setQueue_beyond (Nat.le_refl _) (release_ne_allocated _),
        .of_setQueue (Nat.le_refl _) ?_, rfl⟩
      split <;> rfl
    · refine ⟨h.setQueue_last h_count ?_, ?_, rfl⟩
      · -- the ring is allocated for an NCQ of this layout, and was not there before
        cases h_cq : blexNvmeqHasCq dev dev.queueCount with
        | true => exact iff_of_true rfl ⟨dev.info, rfl, h_hasCq ▸ h_cq⟩
        | false =>
            apply iff_of_false h_free
            rintro ⟨info, h_info, h_true⟩
            cases h_info
            rw [← h_hasCq, h_cq] at h_true
            cases h_true
      · refine ⟨rfl, rfl, rfl, Nat.le_succ _, fun i h_lt => setQueue_queues_of_ne (by omega),
          setQueue_congr NvmeQueue.enabled ?_, ?_⟩
        · split <;> rfl
        · intro i h_ge h_lt
          have h_i : i = dev.queueCount := by
            have h_lt : i < dev.queueCount + 1 := h_lt
            omega
          rw [h_i, setQueue_queues_self]

theorem allocLoop_grown (env : Nat → QueueEnv) {n : Nat} {dev : NvmeDev}
    (h_count : 1 ≤ dev.queueCount) (h : RingInv dev) :
    RingInv (allocLoop env n dev.queueCount dev).2 ∧
      Grown dev (allocLoop env n dev.queueCount dev).2 := by
  induction n generalizing dev with
  | zero => exact ⟨h, .refl dev⟩
  | succ n ih =>
      obtain ⟨h_ring, h_grown, h_eq⟩ := nvmeBlexAllocQueue_last (env dev.queueCount) h_count h
      rw [allocLoop]
      split
      case isFalse => exact ⟨h_ring, h_grown⟩
      case isTrue h_ok =>
        rw [if_pos h_ok] at h_eq
        have h_next := ih (by omega) h_ring
        rw [h_eq] at h_next
        exact ⟨h_next.1, h_grown.trans h_next.2⟩

theorem OnlineInv.of_grown {dev dev' : NvmeDev} (h : OnlineInv dev) (h_grown : Grown dev dev') :
    OnlineInv dev' where
  le := by
    rw [h_grown.onlineQueues]
    exact Nat.le_trans h.le h_grown.le
  enabled_iff qid h_qid := by
    rw [h_grown.enabled, h_grown.onlineQueues]
    exact h.enabled_iff qid h_qid

theorem AssocInv.of_grown {dev dev' : NvmeDev} (h : AssocInv dev) (h_grown : Grown dev dev') :
    AssocInv dev' := by
  intro qid h_qid h_lt
  have h_info := h_grown.info
  rw [NvmeDev.info, NvmeDev.info, BlkBlexDevInfo.mk.injEq] at h_info
  rw [h_grown.onlineQueues] at h_lt
  rw [h_grown.sqCqid, h_info.1, h_info.2]
  exact h qid h_qid h_lt

/-! ## Creation -/

/-- The device after queue `qid` was created. -/
def created (dev : NvmeDev) (qid : Nat) : NvmeDev :=
  { dev.setQueue qid { dev.queues qid with enabled := true } with
    sqCqid := Function.update dev.sqCqid qid (assocCqid dev qid)
    onlineQueues := dev.onlineQueues + 1
    shutdownLock := false }

/-- How the creation of a queue ends.  A queue that was not created leaves at most an attachment
    and the lock behind. -/
theorem nvmeBlexCreateQueue_cases (env : QueueEnv) (dev : NvmeDev) (qid : Nat) :
    nvmeBlexCreateQueue env dev qid = .error (.nullDev qid) ∨
    (nvmeBlexCreateQueue env dev qid = .error (.clearRing qid) ∧
      blexNvmeqHasCq dev qid = true ∧ (dev.queues qid).cqes ≠ .allocated) ∨
    (∃ ret cqid lock, ret ≠ 0 ∧ nvmeBlexCreateQueue env dev qid = .ok (ret, { dev with
      sqCqid := Function.update dev.sqCqid qid cqid, shutdownLock := lock })) ∨
    ∃ ret, nvmeBlexCreateQueue env dev qid = .ok (ret, created dev qid) := by
  have h_same : { dev with
      sqCqid := Function.update dev.sqCqid qid (dev.sqCqid qid)
      shutdownLock := dev.shutdownLock } = dev := by
    rw [Function.update_eq_self]
  have of_same {ret : Int} (h_ret : ret ≠ 0) : ∃ ret' cqid lock, ret' ≠ 0 ∧
      (.ok (ret, dev) : Except Fault (Int × NvmeDev)) = .ok (ret', { dev with
        sqCqid := Function.update dev.sqCqid qid cqid, shutdownLock := lock }) :=
    ⟨ret, dev.sqCqid qid, dev.shutdownLock, h_ret, by rw [h_same]⟩
  simp only [nvmeBlexCreateQueue]
  split
  case isTrue => exact .inl rfl
  split
  case isTrue h_cq =>
    -- Create CQ failed
    rw [Bool.and_eq_true, bne_iff_ne] at h_cq
    exact .inr (.inr (.inl (of_same h_cq.2)))
  split
  case isTrue h_sq => exact .inr (.inr (.inl (of_same (by omega))))
  split
  case isTrue h_sq => exact .inr (.inr (.inl (of_same h_sq)))
  -- Create SQ was accepted
  rw [nvmeSetupIoQueuesTrylock]
  split
  case h_1 =>
    exact .inr (.inr (.inl ⟨enodev, assocCqid dev qid, dev.shutdownLock, by decide, rfl⟩))
  case h_2 dev₁ h_lock =>
    split at h_lock
    case isFalse => cases h_lock
    cases h_lock
    rw [nvmeInitQueue]
    split
    case h_1 fault h_init =>
      split at h_init
      case isFalse => cases h_init
      case isTrue h_clear =>
        rw [Bool.and_eq_true, bne_iff_ne] at h_clear
        cases h_init
        exact .inr (.inl ⟨rfl, h_clear⟩)
    case h_2 dev₂ h_init =>
      split at h_init
      case isTrue => cases h_init
      cases h_init
      split
      case isTrue h_irq =>
        -- no interrupt: the online count goes back
        rw [Bool.and_eq_true, decide_eq_true_eq] at h_irq
        exact .inr (.inr (.inl ⟨env.requestIrq, assocCqid dev qid, false, by omega, rfl⟩))
      case isFalse => exact .inr (.inr (.inr ⟨_, rfl⟩))

/-- A queue that is created, or not, without a fault. -/
theorem nvmeBlexCreateQueue_ok {env : QueueEnv} {dev dev' : NvmeDev} {qid : Nat} {ret : Int}
    (h : nvmeBlexCreateQueue env dev qid = .ok (ret, dev')) :
    (ret ≠ 0 ∧ ∃ cqid lock, dev' = { dev with
      sqCqid := Function.update dev.sqCqid qid cqid, shutdownLock := lock }) ∨
    dev' = created dev qid := by
  rcases nvmeBlexCreateQueue_cases env dev qid with
    h_eq | ⟨h_eq, -⟩ | ⟨ret', cqid, lock, h_ret, h_eq⟩ | ⟨ret', h_eq⟩
  · rw [h_eq] at h
    cases h
  · rw [h_eq] at h
    cases h
  · rw [h_eq] at h
    cases h
    exact .inl ⟨h_ret, cqid, lock, rfl⟩
  · rw [h_eq] at h
    cases h
    exact .inr rfl

theorem nvmeBlexCreateQueue_clearRing {env : QueueEnv} {dev : NvmeDev} {qid i : Nat}
    (h : nvmeBlexCreateQueue env dev qid = .error (.clearRing i)) :
    i = qid ∧ blexNvmeqHasCq dev qid = true ∧ (dev.queues qid).cqes ≠ .allocated := by
  rcases nvmeBlexCreateQueue_cases env dev qid with
    h_eq | ⟨h_eq, h_clear⟩ | ⟨ret', cqid, lock, h_ret, h_eq⟩ | ⟨ret', h_eq⟩
  · rw [h_eq] at h
    cases h
  · rw [h_eq] at h
    cases h
    exact ⟨rfl, h_clear⟩
  · rw [h_eq] at h
    cases h
  · rw [h_eq] at h
    cases h

theorem created_sameRings (dev : NvmeDev) (qid : Nat) : SameRings dev (created dev qid) where
  queueCount := rfl
  info := rfl
  cqes := setQueue_congr NvmeQueue.cqes rfl
  allocInfo := setQueue_congr NvmeQueue.allocInfo rfl

/-- What creating queues from the online count on keeps. -/
structure Built (dev dev' : NvmeDev) : Prop where
  rings : SameRings dev dev'
  online : OnlineInv dev'
  assoc : AssocInv dev'
  admin : dev'.queues 0 = dev.queues 0
  le : dev.onlineQueues ≤ dev'.onlineQueues

theorem Built.refl {dev : NvmeDev} (h_online : OnlineInv dev) (h_assoc : AssocInv dev) :
    Built dev dev :=
  ⟨.refl dev, h_online, h_assoc, rfl, Nat.le_refl _⟩

theorem Built.trans {dev₁ dev₂ dev₃ : NvmeDev} (h : Built dev₁ dev₂) (h' : Built dev₂ dev₃) :
    Built dev₁ dev₃ where
  rings := h.rings.trans h'.rings
  online := h'.online
  assoc := h'.assoc
  admin := h'.admin.trans h.admin
  le := Nat.le_trans h.le h'.le

/-- Creating the first queue that is not online. -/
theorem created_built {dev : NvmeDev} (h_online : OnlineInv dev) (h_assoc : AssocInv dev)
    (h_pos : 1 ≤ dev.onlineQueues) (h_lt : dev.onlineQueues < dev.queueCount) :
    Built dev (created dev dev.onlineQueues) where
  rings := created_sameRings dev _
  online := by
    refine ⟨h_lt, ?_⟩
    intro i h_i
    show ((dev.setQueue dev.onlineQueues _).queues i).enabled = true ↔ i < dev.onlineQueues + 1
    by_cases h_eq : i = dev.onlineQueues
    · rw [h_eq, setQueue_queues_self]
      exact iff_of_true rfl (Nat.lt_succ_self _)
    · rw [setQueue_queues_of_ne h_eq, h_online.enabled_iff i h_i]
      omega
  assoc := by
    intro i h_i h_lt_succ
    have h_lt_succ : i < dev.onlineQueues + 1 := h_lt_succ
    show Function.update dev.sqCqid dev.onlineQueues (assocCqid dev dev.onlineQueues) i =
      blkBlexGetCqid i dev.maxQid dev.nrCqs
    by_cases h_eq : i = dev.onlineQueues
    · rw [h_eq, Function.update_self]
      exact assocCqid_eq h_pos
    · rw [Function.update_of_ne h_eq]
      exact h_assoc i h_i (by omega)
  admin := setQueue_queues_of_ne (by omega)
  le := Nat.le_succ _

/-- A queue that was not created, when it is the first one not online. -/
theorem Built.of_notCreated {dev : NvmeDev} (h_online : OnlineInv dev) (h_assoc : AssocInv dev)
    (cqid : Nat) (lock : Bool) :
    Built dev { dev with
      sqCqid := Function.update dev.sqCqid dev.onlineQueues cqid, shutdownLock := lock } where
  rings := ⟨rfl, rfl, fun _ => rfl, fun _ => rfl⟩
  online := ⟨h_online.le, h_online.enabled_iff⟩
  assoc := by
    intro i h_i h_lt
    have h_lt : i < dev.onlineQueues := h_lt
    show Function.update dev.sqCqid dev.onlineQueues cqid i = _
    rw [Function.update_of_ne (by omega)]
    exact h_assoc i h_i h_lt
  admin := rfl
  le := Nat.le_refl _

theorem createLoop_built {env : Nat → QueueEnv} {n : Nat} {ret ret' : Int} {dev dev' : NvmeDev}
    (h_online : OnlineInv dev) (h_assoc : AssocInv dev) (h_pos : 1 ≤ dev.onlineQueues)
    (h_n : dev.onlineQueues + n ≤ dev.queueCount)
    (h : createLoop env n dev.onlineQueues ret dev = .ok (ret', dev')) :
    Built dev dev' ∧ dev'.onlineQueues ≤ dev.onlineQueues + n := by
  induction n generalizing dev ret with
  | zero =>
      cases h
      exact ⟨.refl h_online h_assoc, Nat.le_refl _⟩
  | succ n ih =>
      rw [createLoop] at h
      split at h
      case h_1 => cases h
      case h_2 ret₁ dev₁ h_create =>
        -- the loop stops at a queue that was not created, and may stop at one that was
        rcases nvmeBlexCreateQueue_ok h_create with ⟨h_ret, cqid, lock, rfl⟩ | rfl
        · rw [if_pos h_ret] at h
          cases h
          exact ⟨.of_notCreated h_online h_assoc cqid lock, Nat.le_add_right _ _⟩
        · have h_built := created_built h_online h_assoc h_pos (by omega)
          split at h
          · cases h
            exact ⟨h_built, by show dev.onlineQueues + 1 ≤ _; omega⟩
          · have h_next := ih h_built.online h_built.assoc (Nat.le_add_left _ _)
              (by show dev.onlineQueues + 1 + n ≤ dev.queueCount; omega) h
            refine ⟨h_built.trans h_next.1, Nat.le_trans h_next.2 ?_⟩
            show dev.onlineQueues + 1 + n ≤ _
            omega

/-- The ring that is cleared without being allocated was missing before the loop. -/
theorem createLoop_clearRing {env : Nat → QueueEnv} {n i : Nat} {ret : Int} {dev : NvmeDev}
    {qid : Nat} (h : createLoop env n qid ret dev = .error (.clearRing i)) :
    qid ≤ i ∧ i < qid + n ∧ blexNvmeqHasCq dev i = true ∧ (dev.queues i).cqes ≠ .allocated := by
  induction n generalizing dev ret qid with
  | zero => cases h
  | succ n ih =>
      rw [createLoop] at h
      split at h
      case h_1 fault h_create =>
        cases h
        obtain ⟨rfl, h_clear⟩ := nvmeBlexCreateQueue_clearRing h_create
        exact ⟨Nat.le_refl _, by omega, h_clear⟩
      case h_2 ret₁ dev₁ h_create =>
        split at h
        · cases h
        · -- creating a queue allocates no ring
          have h_same : SameRings dev dev₁ := by
            rcases nvmeBlexCreateQueue_ok h_create with ⟨_, _, _, rfl⟩ | rfl
            · exact ⟨rfl, rfl, fun _ => rfl, fun _ => rfl⟩
            · exact created_sameRings dev qid
          obtain ⟨h_ge, h_lt, h_cq, h_ring⟩ := ih h
          rw [blexNvmeqHasCq_congr h_same.info] at h_cq
          rw [h_same.cqes] at h_ring
          exact ⟨by omega, by omega, h_cq, h_ring⟩

/-- Setting up the I/O queues allocates from the queue count on, then creates from the online
    count on. -/
theorem nvmeBlexCreateIoQueues_ok {env : Nat → QueueEnv} {dev dev' : NvmeDev} {ret : Int}
    (h : DevInv dev) (h_pos : 1 ≤ dev.onlineQueues) (h_max : dev.onlineQueues ≤ dev.maxQid + 1)
    (h_eq : nvmeBlexCreateIoQueues env dev = .ok (ret, dev')) :
    ∃ mid, RingInv mid ∧ Grown dev mid ∧ Built mid dev' ∧ dev'.onlineQueues ≤ dev.maxQid + 1 := by
  have h_count : 1 ≤ dev.queueCount := Nat.le_trans h_pos h.online.le
  obtain ⟨h_ring, h_grown⟩ :=
    allocLoop_grown env (n := dev.maxQid + 1 - dev.queueCount) h_count h.ring
  have h_online := h.online.of_grown h_grown
  have h_assoc := h.assoc.of_grown h_grown
  have h_le := h_online.le
  have h_more := h_grown.le
  have h_same := h_grown.onlineQueues
  have h_info := h_grown.info
  rw [NvmeDev.info, NvmeDev.info, BlkBlexDevInfo.mk.injEq] at h_info
  refine ⟨_, h_ring, h_grown, ?_⟩
  simp only [nvmeBlexCreateIoQueues] at h_eq
  split at h_eq
  case isTrue =>
    cases h_eq
    exact ⟨.refl h_online h_assoc, by omega⟩
  case isFalse =>
    split at h_eq
    case h_1 => cases h_eq
    case h_2 ret₁ dev₁ h_loop =>
      cases h_eq
      have h_loop := createLoop_built h_online h_assoc (by omega) (by omega) h_loop
      exact ⟨h_loop.1, by omega⟩

theorem nvmeBlexCreateIoQueues_clearRing {env : Nat → QueueEnv} {dev : NvmeDev} {i : Nat}
    (h : DevInv dev) (h_pos : 1 ≤ dev.onlineQueues)
    (h_eq : nvmeBlexCreateIoQueues env dev = .error (.clearRing i)) :
    ∃ mid, RingInv mid ∧ Grown dev mid ∧ 1 ≤ i ∧ i < mid.queueCount ∧ i ≤ mid.maxQid ∧
      blexNvmeqHasCq mid i = true ∧ (mid.queues i).cqes ≠ .allocated := by
  have h_count : 1 ≤ dev.queueCount := Nat.le_trans h_pos h.online.le
  obtain ⟨h_ring, h_grown⟩ :=
    allocLoop_grown env (n := dev.maxQid + 1 - dev.queueCount) h_count h.ring
  have h_same := h_grown.onlineQueues
  have h_le := h_grown.le
  simp only [nvmeBlexCreateIoQueues] at h_eq
  split at h_eq
  case isTrue => cases h_eq
  case isFalse =>
    split at h_eq
    case h_2 => cases h_eq
    case h_1 fault h_loop =>
      cases h_eq
      obtain ⟨h_ge, h_lt, h_clear⟩ := createLoop_clearRing h_loop
      exact ⟨_, h_ring, h_grown, by omega, by omega, by omega, h_clear⟩

/-! ## Suspension and freeing -/

theorem nvmeSuspendQueue_sameRings (dev : NvmeDev) (qid : Nat) :
    SameRings dev (nvmeSuspendQueue dev qid) := by
  rw [nvmeSuspendQueue]
  split
  · exact .refl dev
  · exact ⟨rfl, rfl, setQueue_congr NvmeQueue.cqes rfl, setQueue_congr NvmeQueue.allocInfo rfl⟩

theorem nvmeSuspendQueue_queues_of_ne {dev : NvmeDev} {qid i : Nat} (h : i ≠ qid) :
    (nvmeSuspendQueue dev qid).queues i = dev.queues i := by
  rw [nvmeSuspendQueue]
  split
  · rfl
  · exact setQueue_queues_of_ne h

/-- Suspending the last online queue, or one past it. -/
theorem nvmeSuspendQueue_online {dev : NvmeDev} {qid : Nat} (h_qid : 1 ≤ qid)
    (h : OnlineInv dev) (h_le : dev.onlineQueues ≤ qid + 1) :
    OnlineInv (nvmeSuspendQueue dev qid) ∧
      (nvmeSuspendQueue dev qid).onlineQueues = min dev.onlineQueues qid := by
  have h_iff := h.enabled_iff qid h_qid
  rw [nvmeSuspendQueue]
  split
  case isTrue h_off =>
    rw [Bool.not_eq_true'] at h_off
    rw [h_off] at h_iff
    have h_ge : ¬ qid < dev.onlineQueues := fun h_lt => absurd (h_iff.mpr h_lt) (by decide)
    exact ⟨h, by omega⟩
  case isFalse h_on =>
    rw [Bool.not_eq_true', Bool.not_eq_false] at h_on
    have h_lt := h_iff.mp h_on
    have h_count := h.le
    refine ⟨⟨?_, ?_⟩, ?_⟩
    · show dev.onlineQueues - 1 ≤ dev.queueCount
      omega
    · intro i h_i
      show ((dev.setQueue qid _).queues i).enabled = true ↔ i < dev.onlineQueues - 1
      by_cases h_eq : i = qid
      · rw [h_eq, setQueue_queues_self]
        exact iff_of_false Bool.false_ne_true (by omega)
      · rw [setQueue_queues_of_ne h_eq, h.enabled_iff i h_i]
        omega
    · show dev.onlineQueues - 1 = _
      omega

/-- The loop runs downwards, so each queue it meets is the last one online. -/
theorem suspendFrom_online {n : Nat} {dev : NvmeDev} (h : OnlineInv dev)
    (h_le : dev.onlineQueues ≤ n + 1) :
    OnlineInv (suspendFrom n dev) ∧ (suspendFrom n dev).onlineQueues = min dev.onlineQueues 1 := by
  induction n generalizing dev with
  | zero => exact ⟨h, by show dev.onlineQueues = _; omega⟩
  | succ n ih =>
      obtain ⟨h_inv, h_eq⟩ := nvmeSuspendQueue_online (Nat.le_add_left 1 n) h h_le
      have h_next := ih h_inv (by omega)
      rw [suspendFrom]
      exact ⟨h_next.1, by omega⟩

theorem suspendFrom_sameRings (n : Nat) (dev : NvmeDev) : SameRings dev (suspendFrom n dev) := by
  induction n generalizing dev with
  | zero => exact .refl dev
  | succ n ih => exact (nvmeSuspendQueue_sameRings dev (n + 1)).trans (ih _)

theorem suspendFrom_admin (n : Nat) (dev : NvmeDev) :
    (suspendFrom n dev).queues 0 = dev.queues 0 := by
  induction n generalizing dev with
  | zero => rfl
  | succ n ih =>
      rw [suspendFrom, ih]
      exact nvmeSuspendQueue_queues_of_ne (by omega)

/-- Only the admin queue stays online. -/
theorem nvmeSuspendIoQueues_online {dev : NvmeDev} (h : OnlineInv dev) :
    OnlineInv (nvmeSuspendIoQueues dev) ∧
      (nvmeSuspendIoQueues dev).onlineQueues = min dev.onlineQueues 1 := by
  have h_le := h.le
  exact suspendFrom_online h (by omega)

theorem nvmeFreeLastQueue_ringInv {dev : NvmeDev} (h : RingInv dev) (h_count : 1 ≤ dev.queueCount) :
    RingInv (nvmeFreeLastQueue dev) where
  admin h_pos := by
    have h_pos : 1 ≤ dev.queueCount - 1 := h_pos
    show ((dev.setQueue (dev.queueCount - 1) _).queues 0).cqes = .allocated
    rw [setQueue_queues_of_ne (by omega)]
    exact h.admin h_count
  ring_iff i h_i h_lt := by
    have h_lt : i < dev.queueCount - 1 := h_lt
    show ((dev.setQueue (dev.queueCount - 1) _).queues i).cqes = .allocated ↔
      ((dev.setQueue (dev.queueCount - 1) _).queues i).AllocatedAsNcq i
    rw [setQueue_queues_of_ne (by omega)]
    exact h.ring_iff i h_i (by omega)
  beyond i h_ge := by
    have h_ge : dev.queueCount - 1 ≤ i := h_ge
    show ((dev.setQueue (dev.queueCount - 1) _).queues i).cqes ≠ .allocated
    by_cases h_eq : i = dev.queueCount - 1
    · rw [h_eq, setQueue_queues_self]
      exact release_ne_allocated _
    · rw [setQueue_queues_of_ne h_eq]
      exact h.beyond i (by omega)

/-- What freeing queues keeps besides the count. -/
structure Freed (dev dev' : NvmeDev) : Prop where
  info : dev'.info = dev.info
  onlineQueues : dev'.onlineQueues = dev.onlineQueues
  sqCqid : dev'.sqCqid = dev.sqCqid
  tagset : dev'.tagset = dev.tagset
  enabled : ∀ qid, (dev'.queues qid).enabled = (dev.queues qid).enabled

theorem nvmeFreeLastQueue_freed (dev : NvmeDev) : Freed dev (nvmeFreeLastQueue dev) where
  info := rfl
  onlineQueues := rfl
  sqCqid := rfl
  tagset := rfl
  enabled := setQueue_congr NvmeQueue.enabled rfl

theorem Freed.trans {dev₁ dev₂ dev₃ : NvmeDev} (h : Freed dev₁ dev₂) (h' : Freed dev₂ dev₃) :
    Freed dev₁ dev₃ where
  info := h'.info.trans h.info
  onlineQueues := h'.onlineQueues.trans h.onlineQueues
  sqCqid := h'.sqCqid.trans h.sqCqid
  tagset := h'.tagset.trans h.tagset
  enabled qid := (h'.enabled qid).trans (h.enabled qid)

theorem freeLoop_freed {n : Nat} {dev : NvmeDev} (h : RingInv dev) (h_n : n ≤ dev.queueCount) :
    RingInv (freeLoop n dev) ∧ Freed dev (freeLoop n dev) ∧
      (freeLoop n dev).queueCount = dev.queueCount - n := by
  induction n generalizing dev with
  | zero => exact ⟨h, ⟨rfl, rfl, rfl, rfl, fun _ => rfl⟩, rfl⟩
  | succ n ih =>
      have h_count : (nvmeFreeLastQueue dev).queueCount = dev.queueCount - 1 := rfl
      obtain ⟨h_inv, h_freed, h_eq⟩ :=
        ih (nvmeFreeLastQueue_ringInv h (by omega)) (by rw [h_count]; omega)
      rw [freeLoop]
      exact ⟨h_inv, (nvmeFreeLastQueue_freed dev).trans h_freed, by omega⟩

theorem nvmeFreeQueues_freed {dev : NvmeDev} (h : RingInv dev) (h_online : OnlineInv dev) :
    RingInv (nvmeFreeQueues dev dev.onlineQueues) ∧
      OnlineInv (nvmeFreeQueues dev dev.onlineQueues) ∧
      Freed dev (nvmeFreeQueues dev dev.onlineQueues) := by
  have h_le := h_online.le
  obtain ⟨h_inv, h_freed, h_count⟩ :=
    freeLoop_freed (n := dev.queueCount - dev.onlineQueues) h (Nat.sub_le _ _)
  refine ⟨h_inv, ⟨?_, ?_⟩, h_freed⟩
  · rw [nvmeFreeQueues, h_freed.onlineQueues, h_count]
    omega
  · intro qid h_qid
    rw [nvmeFreeQueues, h_freed.enabled, h_freed.onlineQueues]
    exact h_online.enabled_iff qid h_qid

theorem extraqUpdate_ringInv {arrayAlloc : Bool} {dev dev' : NvmeDev} {nrIoQueues : Nat}
    (h : RingInv dev) (h_eq : nvmeBlexExtraqUpdateQueues arrayAlloc dev nrIoQueues = some dev') :
    RingInv dev' := by
  rw [nvmeBlexExtraqUpdateQueues] at h_eq
  split at h_eq
  · cases h_eq
    exact h
  split at h_eq
  · cases h_eq
  · cases h_eq
    refine ⟨fun h_count => h.admin h_count, ?_, ?_⟩
    · intro qid h_qid _
      -- the new array forgets the queues, and with them the rings
      show (if qid = 0 then dev.queues 0 else NvmeQueue.zero).cqes = .allocated ↔
        (if qid = 0 then dev.queues 0 else NvmeQueue.zero).AllocatedAsNcq qid
      rw [if_neg (by omega)]
      apply iff_of_false (by decide)
      rintro ⟨info, h_info, -⟩
      cases h_info
    · intro qid h_ge
      show (if qid = 0 then dev.queues 0 else NvmeQueue.zero).cqes ≠ .allocated
      split
      case isTrue h_zero =>
        rw [h_zero] at h_ge
        exact h.beyond 0 h_ge
      case isFalse => decide

theorem extraqUpdate_online {arrayAlloc : Bool} {dev dev' : NvmeDev} {nrIoQueues : Nat}
    (h : OnlineInv dev) (h_one : dev.onlineQueues ≤ 1)
    (h_eq : nvmeBlexExtraqUpdateQueues arrayAlloc dev nrIoQueues = some dev') :
    OnlineInv dev' ∧ dev'.onlineQueues = dev.onlineQueues := by
  rw [nvmeBlexExtraqUpdateQueues] at h_eq
  split at h_eq
  · cases h_eq
    exact ⟨h, rfl⟩
  split at h_eq
  · cases h_eq
  · cases h_eq
    refine ⟨⟨h.le, ?_⟩, rfl⟩
    intro qid h_qid
    show (if qid = 0 then dev.queues 0 else NvmeQueue.zero).enabled = true ↔ qid < dev.onlineQueues
    rw [if_neg (by omega)]
    exact iff_of_false (by decide) (by omega)

end Daredevil.Nvme
