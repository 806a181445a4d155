/-
  Daredevil.Sched.Init

  `blk_blex_nq_regulator_alloc_and_init` with every allocation successful: first
  the two groups, each of which attaches its NCQs to itself, then the eNQs in
  increasing order, each of which takes the group of its NCQ.  The driver fills in
  the queue depths afterwards.

    * `InitInv`          — what the single steps keep, the whole of it keeps;
    * `nqGroupInit_spec` — one group;
    * `enqInit_spec`     — one eNQ, given its NCQ's group;
    * `regulatorInit_wf` — the regulator that comes out is well formed.
-/
import Daredevil.Sched.Regulator

namespace Daredevil

namespace Sched

/-! ## The source functions -/

/-- Zeroed memory. -/
def NqPriorityArray.zero : NqPriorityArray := ⟨0, [], 0, 0⟩

def NqGroup.zero : NqGroup := ⟨0, 0, .zero, 0, 0, 0, 0⟩

def ExposedNq.zero : ExposedNq := ⟨none, 0, 0, 0, 0, ⟨0, 0, 0, 0, ∅⟩, none⟩

/-- The common part of `blk_blex_nq_prio_arr_init`: `nth id` is the queue stored at `id`. -/
def prioArrInit (env : Env) (maxHeapSz initNqCount : Nat) (nth : Nat → Nat) :
    Option NqPriorityArray :=
  -- the source writes past `bin_heap` when it is too short
  if maxHeapSz < initNqCount then
    none
  else
    let binHeap := (List.range initNqCount).map nth
    some { mru := env.prioArrMru, binHeap := binHeap, topNq := binHeap.headD 0,
           nqCount := initNqCount }

/-- `blk_blex_nq_prio_arr_init` of a group. -/
def blkBlexNqPrioArrInitNcq (env : Env) (info : BlkBlexDevInfo) (group : NqGroup) :
    Option NqPriorityArray :=
  let startNcqIdx := blkBlexCqidToIndex group.ncqStart info.maxNqid info.nrCqs
  prioArrInit env env.nrCpuIds group.nrNcqs fun id =>
    blkBlexGetKthCqid (startNcqIdx + id) info.maxNqid info.nrCqs

/-- `blk_blex_nq_prio_arr_init` of an eNCQ. -/
def blkBlexNqPrioArrInitNsq (env : Env) (encq : EnqNcq) : Option NqPriorityArray :=
  prioArrInit env encq.nrAttachedNsqs encq.nrAttachedNsqs fun id => encq.cqid + id

/-- Attach the NCQs `cqids` to a group. -/
def attachNcqs (prio : Nat) (reg : NqRegulator) : List Nat → NqRegulator
  | [] => reg
  | cqid :: cqids =>
      attachNcqs prio (reg.setEnq cqid { reg.enqs cqid with group := some prio }) cqids

/-- `blk_blex_nq_group_init` -/
def blkBlexNqGroupInit (env : Env) (reg : NqRegulator) (prio : Nat) : Option NqRegulator := do
  let maxNqid := reg.blexInfo.maxNqid
  let nrCqs := reg.blexInfo.nrCqs
  let nrInitPerGroupCqs := nrCqs / blkBlexPrioLevel
  let ncqStartIdx := prio * nrInitPerGroupCqs
  let nrNcqs :=
    if prio + 1 = blkBlexPrioLevel then nrCqs - ncqStartIdx else nrInitPerGroupCqs
  let cqids := (List.range nrNcqs).map fun i => blkBlexGetKthCqid (ncqStartIdx + i) maxNqid nrCqs
  let group : NqGroup :=
    { prio := prio
      ncqStart := blkBlexGetKthCqid ncqStartIdx maxNqid nrCqs
      nrNcqs := nrNcqs
      nrAttachNsqs := (cqids.map fun cqid => blkBlexGetCqNrNsqs cqid maxNqid nrCqs).sum
      rrNcqOffset := 0
      rrNsqOffset := 0
      prioArr := .zero }
  let prioArr ← blkBlexNqPrioArrInitNcq env reg.blexInfo group
  some ((attachNcqs prio reg cqids).setGroup prio { group with prioArr := prioArr })

/-- The eNCQ that `blk_blex_enq_init` allocates for an NCQ. -/
def encqInit (env : Env) (info : BlkBlexDevInfo) (cqid : Nat) : Option EnqNcq := do
  let encq : EnqNcq :=
    { cqid := cqid
      nrAttachedNsqs := blkBlexGetCqNrNsqs cqid info.maxNqid info.nrCqs
      rrNsqOffset := 0
      ncqSchedMerit := 0
      nrInFlightRqs := 0
      nrCompleteRqs := 0
      nrIrqs := 0
      prioArr := .zero }
  if 1 < encq.nrAttachedNsqs then do
    let prioArr ← blkBlexNqPrioArrInitNsq env encq
    some { encq with prioArr := prioArr }
  else
    some encq

/-- The `encq` that `blk_blex_enq_init` leaves in an eNQ. -/
def enqEncq (env : Env) (info : BlkBlexDevInfo) (enq : ExposedNq) (nqid cqid : Nat) :
    Option (Option EnqNcq) :=
  if nqid = cqid then (encqInit env info cqid).map some else some enq.encq

/-- `blk_blex_enq_init` -/
def blkBlexEnqInit (env : Env) (reg : NqRegulator) (nqid : Nat) : Option NqRegulator := do
  let info := reg.blexInfo
  let enq := reg.enqs nqid
  let cqid := blkBlexGetCqid nqid info.maxNqid info.nrCqs
  let cqInfo ← reg.enq? cqid
  -- the NCQ got its group before the first eNQ is set up
  let group ← cqInfo.group
  let encq ← enqEncq env info enq nqid cqid
  some (reg.setEnq nqid
    { enq with
      nqid := nqid
      cqid := cqid
      group := some group
      prio := (reg.nqGroups group).prio
      ensq :=
        { enq.ensq with sqid := nqid, nrInLockNs := 0, nrSubmitRqs := 0, claimedCoreCpumask := ∅ }
      encq := encq })

/-- The eNQs `1 .. n`. -/
def enqInitLoop (env : Env) : Nat → NqRegulator → Option NqRegulator
  | 0, reg => some reg
  | n + 1, reg => (enqInitLoop env n reg).bind fun reg => blkBlexEnqInit env reg (n + 1)

/-- The regulator before its groups are set up. -/
def regulatorZero (info : BlkBlexDevInfo) : NqRegulator where
  blexInfo := info
  nsqMaps _ := ⟨0, fun _ => none⟩
  enqs _ := .zero
  nqGroups _ := .zero

/-- `blk_blex_nq_regulator_alloc_and_init` -/
def blkBlexNqRegulatorAllocAndInit (env : Env) (info : BlkBlexDevInfo) : Option NqRegulator := do
  let reg ← blkBlexNqGroupInit env (regulatorZero info) blkBlexTPrio
  let reg ← blkBlexNqGroupInit env reg blkBlexLPrio
  enqInitLoop env info.maxNqid reg

/-- The end of `nvme_pci_alloc_tag_set`: the depths of the driver's queues. -/
def NqRegulator.setQdepths (reg : NqRegulator) (qDepth : Nat → Nat) : NqRegulator :=
  { reg with enqs := fun nqid => { reg.enqs nqid with qdepth := qDepth nqid } }

/-- The regulator of a device, as the driver publishes it. -/
def regulatorInit (env : Env) (info : BlkBlexDevInfo) (qDepth : Nat → Nat) :
    Option NqRegulator :=
  (blkBlexNqRegulatorAllocAndInit env info).map fun reg => reg.setQdepths qDepth

end Sched

/-! ## The NCQ of a queue -/

namespace QueueLayout

open Sched

variable (L : QueueLayout)

/-- Every queue is attached to the NCQ that `blk_blex_get_cqid` finds. -/
theorem getCqid_spec {nqid : Nat} (h_pos : 1 ≤ nqid) (h_le : nqid ≤ L.maxNqid) :
    ∃ k < L.nrCqs, blkBlexGetCqid nqid L.maxNqid L.nrCqs = L.kthCqid k ∧
      nqid ∈ L.attached (L.kthCqid k) := by
  have hk : EvenSplit.block L.maxNqid L.nrCqs (nqid - 1) < L.nrCqs :=
    EvenSplit.block_lt L.nrCqs_pos (by omega)
  have h_spec := EvenSplit.block_spec L.nrCqs_pos L.nrCqs_le (nqid - 1)
  refine ⟨_, hk, ?_, ?_⟩
  · rw [blkBlexGetCqid_eq h_pos, L.kthCqid_eq hk]
  · rw [L.mem_attached_kthCqid hk, EvenSplit.items, Set.mem_Ico, ← EvenSplit.start_succ]
    exact ⟨h_pos, h_spec⟩

variable (h_groups : 2 ≤ L.nrCqs)
include h_groups

/-- A queue is in the group of its NCQ. -/
theorem prioOf_getCqid {nqid : Nat} (h_pos : 1 ≤ nqid) (h_le : nqid ≤ L.maxNqid) :
    L.prioOf (blkBlexGetCqid nqid L.maxNqid L.nrCqs) = L.prioOf nqid := by
  obtain ⟨k, hk, h_cqid, h_mem⟩ := L.getCqid_spec h_pos h_le
  rw [h_cqid, L.prioOf_of_attached h_groups hk (L.kthCqid_mem_attached hk),
    L.prioOf_of_attached h_groups hk h_mem]

/-- Every NCQ is listed by the group of its priority. -/
theorem kthCqid_mem_groupNcqs {k : Nat} (hk : k < L.nrCqs) :
    L.kthCqid k ∈ L.groupNcqs (L.prioOf (L.kthCqid k)) := by
  rw [L.prioOf_of_attached h_groups hk (L.kthCqid_mem_attached hk)]
  simp only [groupNcqs, List.mem_map, List.mem_range, groupNr, groupIdx]
  split
  case isTrue h =>
    refine ⟨k, ?_, by rw [blkBlexTPrio, Nat.zero_mul, Nat.zero_add]⟩
    rwa [if_neg (by decide)]
  case isFalse h =>
    refine ⟨k - L.nrCqs / blkBlexPrioLevel, ?_, ?_⟩
    · rw [if_pos (by decide), blkBlexLPrio, Nat.one_mul]
      omega
    · rw [blkBlexLPrio, Nat.one_mul]
      congr 1
      omega

/-- A group lists exactly the NCQs of its priority. -/
theorem mem_groupNcqs_iff {k prio : Nat} (hk : k < L.nrCqs) (h_prio : prio < blkBlexPrioLevel) :
    L.kthCqid k ∈ L.groupNcqs prio ↔ L.prioOf (L.kthCqid k) = prio := by
  constructor
  · intro h_mem
    obtain ⟨_, _, _, h_attached⟩ := L.groupNcqs_spec h_groups h_prio h_mem
    exact h_attached _ (L.kthCqid_mem_attached hk)
  · rintro rfl
    exact L.kthCqid_mem_groupNcqs h_groups hk

theorem groupNr_pos (prio : Nat) : 0 < L.groupNr prio := by
  have h_half := L.half_lt h_groups
  have h_pos := L.half_pos h_groups
  unfold groupNr groupIdx
  split
  case isTrue h =>
    have h_one : prio = 1 := by
      unfold blkBlexPrioLevel at h
      omega
    rw [h_one]
    omega
  case isFalse => exact h_pos

theorem cqidToIndex_groupIdx {prio : Nat} (h_prio : prio < blkBlexPrioLevel) :
    blkBlexCqidToIndex (L.kthCqid (L.groupIdx prio)) L.maxNqid L.nrCqs = L.groupIdx prio := by
  have h_lt := L.groupIdx_add_lt h_groups h_prio (L.groupNr_pos h_groups prio)
  exact L.onePartition.toIndex _ h_lt

end QueueLayout

namespace Sched

variable {L : QueueLayout} {reg reg' : NqRegulator} {env : Env}

/-! ## Priority arrays -/

theorem prioArrInit_over {maxHeapSz initNqCount : Nat} {nth : Nat → Nat} {arr : NqPriorityArray}
    (h_pos : 0 < initNqCount) (h : prioArrInit env maxHeapSz initNqCount nth = some arr) :
    arr.Over ((List.range initNqCount).map nth) := by
  unfold prioArrInit at h
  split at h
  case isTrue => cases h
  case isFalse =>
    cases h
    refine ⟨.refl _, ?_, by rw [List.length_map, List.length_range]⟩
    obtain ⟨n, rfl⟩ := Nat.exists_eq_succ_of_ne_zero (Nat.ne_of_gt h_pos)
    simp only [Nat.succ_eq_add_one, List.range_succ_eq_map, List.map_cons, List.head?_cons,
      List.headD_cons]

/-! ## Groups -/

theorem attachNcqs_eq (prio : Nat) (reg : NqRegulator) (cqids : List Nat) :
    attachNcqs prio reg cqids =
      { reg with enqs := fun nqid =>
          if nqid ∈ cqids then { reg.enqs nqid with group := some prio } else reg.enqs nqid } := by
  induction cqids generalizing reg with
  | nil => simp [attachNcqs]
  | cons cqid cqids ih =>
      rw [attachNcqs, ih]
      simp only [NqRegulator.setEnq, NqRegulator.mk.injEq, true_and, and_true]
      funext nqid
      by_cases h_eq : nqid = cqid
      · subst h_eq
        simp
      · simp only [Function.update_of_ne h_eq, List.mem_cons, h_eq, false_or]

/-- An eNQ takes the group of its NCQ; the others stay. -/
theorem enqInit_cases {nqid : Nat} (h : blkBlexEnqInit env reg nqid = some reg') :
    ∃ cqInfo group encq,
      reg.enq? (blkBlexGetCqid nqid reg.blexInfo.maxNqid reg.blexInfo.nrCqs) = some cqInfo ∧
      cqInfo.group = some group ∧
      enqEncq env reg.blexInfo (reg.enqs nqid) nqid
        (blkBlexGetCqid nqid reg.blexInfo.maxNqid reg.blexInfo.nrCqs) = some encq ∧
      reg' = reg.setEnq nqid
        { reg.enqs nqid with
          nqid := nqid
          cqid := blkBlexGetCqid nqid reg.blexInfo.maxNqid reg.blexInfo.nrCqs
          group := some group
          prio := (reg.nqGroups group).prio
          ensq :=
            { (reg.enqs nqid).ensq with
              sqid := nqid, nrInLockNs := 0, nrSubmitRqs := 0, claimedCoreCpumask := ∅ }
          encq := encq } := by
  simp only [blkBlexEnqInit, Option.bind_eq_bind, Option.bind_eq_some_iff, Option.some.injEq] at h
  obtain ⟨cqInfo, h_cqInfo, group, h_group, encq, h_encq, rfl⟩ := h
  exact ⟨cqInfo, group, encq, h_cqInfo, h_group, h_encq, rfl⟩

theorem nqRegulatorInit_cases {info : BlkBlexDevInfo}
    (h : blkBlexNqRegulatorAllocAndInit env info = some reg) :
    ∃ reg₁ reg₂, blkBlexNqGroupInit env (regulatorZero info) blkBlexTPrio = some reg₁ ∧
      blkBlexNqGroupInit env reg₁ blkBlexLPrio = some reg₂ ∧
      enqInitLoop env info.maxNqid reg₂ = some reg := by
  simp only [blkBlexNqRegulatorAllocAndInit, Option.bind_eq_bind, Option.bind_eq_some_iff] at h
  obtain ⟨reg₁, h_T, reg₂, h_L, h_loop⟩ := h
  exact ⟨reg₁, reg₂, h_T, h_L, h_loop⟩

/-- The loop over the eNQs: what its next round adds to what the earlier ones left. -/
theorem enqInitLoop_induction {I : Nat → NqRegulator → Prop} {n : Nat}
    (h_round : ∀ k reg reg', k < n → I k reg → blkBlexEnqInit env reg (k + 1) = some reg' →
      I (k + 1) reg')
    (h_zero : I 0 reg) (h_loop : enqInitLoop env n reg = some reg') : I n reg' := by
  induction n generalizing reg' with
  | zero =>
      cases h_loop
      exact h_zero
  | succ n ih =>
      rw [enqInitLoop, Option.bind_eq_some_iff] at h_loop
      obtain ⟨reg₁, h_rest, h_last⟩ := h_loop
      have h_n := ih (fun k reg reg' h_k => h_round k reg reg' (Nat.lt_succ_of_lt h_k)) h_rest
      exact h_round n reg₁ reg' (Nat.lt_succ_self n) h_n h_last

/-- What the initialisation keeps; `I n` is about a regulator whose eNQs `1 .. n` are done. -/
structure InitInv (env : Env) (I : Nat → NqRegulator → Prop) : Prop where
  attach : ∀ reg prio nqid, I 0 reg →
    I 0 (reg.setEnq nqid { reg.enqs nqid with group := some prio })
  setGroup : ∀ reg prio group, I 0 reg → I 0 (reg.setGroup prio group)
  enqInit : ∀ n reg reg', I n reg → blkBlexEnqInit env reg (n + 1) = some reg' → I (n + 1) reg'

section InitInv

variable {I : Nat → NqRegulator → Prop}

theorem InitInv.attachNcqs (h : InitInv env I) (h_reg : I 0 reg) (prio : Nat) (cqids : List Nat) :
    I 0 (attachNcqs prio reg cqids) := by
  induction cqids generalizing reg with
  | nil => exact h_reg
  | cons cqid cqids ih => exact ih (h.attach reg prio cqid h_reg)

theorem InitInv.nqGroupInit (h : InitInv env I) (h_reg : I 0 reg) {prio : Nat}
    (h_init : blkBlexNqGroupInit env reg prio = some reg') : I 0 reg' := by
  simp only [blkBlexNqGroupInit, Option.bind_eq_bind, Option.bind_eq_some_iff,
    Option.some.injEq] at h_init
  obtain ⟨arr, -, rfl⟩ := h_init
  exact h.setGroup _ _ _ (h.attachNcqs h_reg _ _)

/-- For any counts of queues. -/
theorem InitInv.allocAndInit (h : InitInv env I) {info : BlkBlexDevInfo}
    (h_zero : I 0 (regulatorZero info))
    (h_init : blkBlexNqRegulatorAllocAndInit env info = some reg) : I info.maxNqid reg := by
  obtain ⟨reg₁, reg₂, h_T, h_L, h_loop⟩ := nqRegulatorInit_cases h_init
  have h_groups : I 0 reg₂ := h.nqGroupInit (h.nqGroupInit h_zero h_T) h_L
  exact enqInitLoop_induction (fun k reg reg' _ => h.enqInit k reg reg') h_groups h_loop

end InitInv

/-- One group: its own record, and a pointer to it from each of its NCQs. -/
theorem nqGroupInit_spec (h_groups : 2 ≤ L.nrCqs) (h_info : reg.blexInfo = L.toBlkBlexDevInfo)
    {prio : Nat} (h_prio : prio < blkBlexPrioLevel)
    (h : blkBlexNqGroupInit env reg prio = some reg') :
    ∃ group, GroupWf L prio group ∧
      reg' = (attachNcqs prio reg (L.groupNcqs prio)).setGroup prio group := by
  simp only [blkBlexNqGroupInit, h_info, Option.bind_eq_bind, Option.bind_eq_some_iff,
    Option.some.injEq] at h
  obtain ⟨arr, h_arr, rfl⟩ := h
  refine ⟨_, ?_, rfl⟩
  have h_idx : blkBlexCqidToIndex
      (blkBlexGetKthCqid (prio * (L.nrCqs / blkBlexPrioLevel)) L.maxNqid L.nrCqs) L.maxNqid
      L.nrCqs = L.groupIdx prio := L.cqidToIndex_groupIdx h_groups h_prio
  rw [blkBlexNqPrioArrInitNcq] at h_arr
  simp only [h_idx] at h_arr
  exact ⟨rfl, rfl, rfl, rfl, prioArrInit_over (L.groupNr_pos h_groups prio) h_arr⟩

/-- The state between the loop over the groups and the loop over the eNQs, when the
eNQs `1 .. n` are done. -/
structure Grouped (L : QueueLayout) (n : Nat) (reg : NqRegulator) : Prop where
  info : reg.blexInfo = L.toBlkBlexDevInfo
  group : ∀ prio < blkBlexPrioLevel, GroupWf L prio (reg.nqGroups prio)
  ncqGroup : ∀ k < L.nrCqs, (reg.enqs (L.kthCqid k)).group = some (L.prioOf (L.kthCqid k))
  noEncq : ∀ nqid, n < nqid → (reg.enqs nqid).encq = none
  done : ∀ nqid, 1 ≤ nqid → nqid ≤ n → EnqWf L nqid (reg.enqs nqid)
  /-- no queue is in use -/
  maps : reg.nsqMaps = fun _ => ⟨0, fun _ => none⟩
  mask : ∀ nqid, (reg.enqs nqid).ensq.claimedCoreCpumask = ∅

theorem groupsInit_grouped (h_groups : 2 ≤ L.nrCqs) {reg₁ : NqRegulator}
    (h_T : blkBlexNqGroupInit env (regulatorZero L.toBlkBlexDevInfo) blkBlexTPrio = some reg₁)
    (h_L : blkBlexNqGroupInit env reg₁ blkBlexLPrio = some reg) : Grouped L 0 reg := by
  obtain ⟨groupT, h_groupT, rfl⟩ := nqGroupInit_spec h_groups rfl (by decide) h_T
  rw [attachNcqs_eq] at h_L
  obtain ⟨groupL, h_groupL, rfl⟩ := nqGroupInit_spec h_groups rfl (by decide) h_L
  rw [attachNcqs_eq]
  refine ⟨rfl, ?_, ?_, ?_, ?_, rfl, ?_⟩
  · intro prio h_prio
    rcases prio_cases h_prio with rfl | rfl
    · exact h_groupT
    · exact h_groupL
  · intro k hk
    have h_mem {prio : Nat} (h_prio : prio < blkBlexPrioLevel) :=
      L.mem_groupNcqs_iff h_groups hk h_prio
    simp only [NqRegulator.setGroup, regulatorZero]
    split
    case isTrue h_in => exact congrArg some ((h_mem (by decide)).mp h_in).symm
    case isFalse h_notL =>
      -- the T group came first and attached it
      rcases prio_cases (L.prioOf_lt (L.kthCqid k)) with h_T | h_L
      · rw [if_pos ((h_mem (by decide)).mpr h_T), h_T]
      · exact absurd ((h_mem (by decide)).mpr h_L) h_notL
  · intro nqid _
    simp only [NqRegulator.setGroup, regulatorZero]
    split <;> split <;> rfl
  · intro nqid h_pos h_le
    omega
  · intro nqid
    simp only [NqRegulator.setGroup, regulatorZero]
    split <;> split <;> rfl

/-! ## eNQs -/

theorem encqInit_wf {nqid : Nat} {encq : EnqNcq}
    (h : encqInit env L.toBlkBlexDevInfo nqid = some encq) : EncqWf L nqid encq := by
  simp only [encqInit, Option.bind_eq_bind] at h
  split at h
  case isTrue h_many =>
    simp only [Option.bind_eq_some_iff, Option.some.injEq] at h
    obtain ⟨arr, h_arr, rfl⟩ := h
    exact ⟨rfl, rfl, fun _ => prioArrInit_over (Nat.lt_trans Nat.one_pos h_many) h_arr⟩
  case isFalse h_one =>
    cases h
    exact ⟨rfl, rfl, fun h_many => absurd h_many h_one⟩

/-- The NCQs, and no other queues, get an eNCQ. -/
theorem enqEncq_wf {enq : ExposedNq} {nqid : Nat} {encq : Option EnqNcq}
    (h_none : enq.encq = none)
    (h : enqEncq env L.toBlkBlexDevInfo enq nqid (blkBlexGetCqid nqid L.maxNqid L.nrCqs) =
      some encq) :
    encq.isSome = blkBlexHasCq nqid L.toBlkBlexDevInfo ∧
      ∀ e, encq = some e → EncqWf L nqid e := by
  rw [enqEncq] at h
  rw [blkBlexHasCq]
  split at h
  case isTrue h_eq =>
    obtain ⟨e, h_init, rfl⟩ := Option.map_eq_some_iff.mp h
    rw [← h_eq] at h_init
    refine ⟨(beq_iff_eq.mpr h_eq).symm, ?_⟩
    intro e' h_e'
    cases h_e'
    exact encqInit_wf h_init
  case isFalse h_ne =>
    rw [h_none] at h
    cases h
    refine ⟨(beq_eq_false_iff_ne.mpr h_ne).symm, ?_⟩
    intro e' h_e'
    cases h_e'

/-- The next eNQ is stored; the earlier ones and the groups of the NCQs stay. -/
theorem Grouped.setEnq {n : Nat} (h : Grouped L n reg) {enq : ExposedNq}
    (h_enq : EnqWf L (n + 1) enq) (h_mask : enq.ensq.claimedCoreCpumask = ∅) :
    Grouped L (n + 1) (reg.setEnq (n + 1) enq) := by
  have h_same : (reg.setEnq (n + 1) enq).enqs (n + 1) = enq := Function.update_self _ _ _
  have h_other {nqid : Nat} (h_ne : nqid ≠ n + 1) :
      (reg.setEnq (n + 1) enq).enqs nqid = reg.enqs nqid := Function.update_of_ne h_ne _ _
  refine ⟨h.info, h.group, ?_, ?_, ?_, h.maps, ?_⟩
  · intro k hk
    by_cases h_eq : L.kthCqid k = n + 1
    · rw [h_eq, h_same, h_enq.group_eq]
    · rw [h_other h_eq]
      exact h.ncqGroup k hk
  · intro nqid h_lt
    rw [h_other (Nat.ne_of_gt h_lt)]
    exact h.noEncq nqid (Nat.lt_of_succ_lt h_lt)
  · intro nqid h_pos h_le
    by_cases h_eq : nqid = n + 1
    · rw [h_eq, h_same]
      exact h_enq
    · rw [h_other h_eq]
      exact h.done nqid h_pos (by omega)
  · intro nqid
    by_cases h_eq : nqid = n + 1
    · rw [h_eq, h_same]
      exact h_mask
    · rw [h_other h_eq]
      exact h.mask nqid

theorem enqInit_spec (h_groups : 2 ≤ L.nrCqs) {n : Nat} (h_n : n + 1 ≤ L.maxNqid)
    (h_reg : Grouped L n reg) (h : blkBlexEnqInit env reg (n + 1) = some reg') :
    Grouped L (n + 1) reg' := by
  obtain ⟨k, hk, h_cqid, -⟩ := L.getCqid_spec (Nat.succ_pos n) h_n
  obtain ⟨cqInfo, group, encq, h_cqInfo, h_group, h_encq, rfl⟩ := enqInit_cases h
  rw [h_reg.info] at h_cqInfo h_encq ⊢
  -- the group is that of the NCQ, which was attached in the loop over the groups
  rw [NqRegulator.enq?, h_cqid] at h_cqInfo
  split at h_cqInfo
  case isFalse => cases h_cqInfo
  cases h_cqInfo
  rw [h_reg.ncqGroup k hk, Option.some.injEq, ← h_cqid,
    L.prioOf_getCqid h_groups (Nat.succ_pos n) h_n] at h_group
  subst h_group
  obtain ⟨h_hasCq, h_encqWf⟩ := enqEncq_wf (h_reg.noEncq _ (Nat.lt_succ_self n)) h_encq
  have h_prio := (h_reg.group _ (L.prioOf_lt (n + 1))).prio_eq
  exact h_reg.setEnq ⟨rfl, rfl, rfl, h_prio, rfl, h_hasCq, h_encqWf⟩ rfl

theorem enqInitLoop_grouped (h_groups : 2 ≤ L.nrCqs) {n : Nat} (h_n : n ≤ L.maxNqid)
    (h_reg : Grouped L 0 reg) (h : enqInitLoop env n reg = some reg') : Grouped L n reg' :=
  enqInitLoop_induction
    (fun _ _ _ h_k h_grouped h_step =>
      enqInit_spec h_groups (Nat.le_trans h_k h_n) h_grouped h_step)
    h_reg h

/-! ## The whole regulator -/

/-- No CPU claims a queue. -/
structure MapsEmpty (reg : NqRegulator) : Prop where
  maps : reg.nsqMaps = fun _ => ⟨0, fun _ => none⟩
  mask : ∀ nqid, (reg.enqs nqid).ensq.claimedCoreCpumask = ∅

theorem allocAndInit_grouped (h_groups : 2 ≤ L.nrCqs)
    (h : blkBlexNqRegulatorAllocAndInit env L.toBlkBlexDevInfo = some reg) :
    Grouped L L.maxNqid reg := by
  obtain ⟨reg₁, reg₂, h_T, h_L, h_loop⟩ := nqRegulatorInit_cases h
  exact enqInitLoop_grouped h_groups (Nat.le_refl _) (groupsInit_grouped h_groups h_T h_L) h_loop

theorem regulatorInit_wf (h_groups : 2 ≤ L.nrCqs) {qDepth : Nat → Nat}
    (h : regulatorInit env L.toBlkBlexDevInfo qDepth = some reg) : RegWf L reg ∧ MapsEmpty reg := by
  obtain ⟨reg₀, h_init, rfl⟩ := Option.map_eq_some_iff.mp h
  have h_done := allocAndInit_grouped h_groups h_init
  refine ⟨⟨h_done.info, ?_, h_done.group⟩, ⟨h_done.maps, h_done.mask⟩⟩
  intro nqid h_pos h_le
  have h_enq := h_done.done nqid h_pos h_le
  exact ⟨h_enq.nqid_eq, h_enq.cqid_eq, h_enq.group_eq, h_enq.prio_eq, h_enq.sqid_eq, h_enq.hasCq,
    h_enq.encq⟩

end Sched

end Daredevil
