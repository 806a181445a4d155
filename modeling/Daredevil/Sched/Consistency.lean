/-
  Daredevil.Sched.Consistency

  What the scheduler takes for granted of a regulator, stated against the layout
  alone: which NCQ and which group each eNQ has, which eNQs are NCQs, how the two
  groups divide the queue ids, and what is in each heap.

    * `Consistent`              — these facts;
    * `allocAndInit_isSome`     — initialisation succeeds when the heaps of the
                                  groups are large enough;
    * `allocAndInit_consistent` — the regulator that it builds is consistent.
-/
import Daredevil.Sched.Init

namespace Daredevil

namespace Sched

/-- The queue ids that a group's fields give it. -/
def NqGroup.nsqRange (group : NqGroup) : Set Nat :=
  Set.Ico group.ncqStart (group.ncqStart + group.nrAttachNsqs)

/-- The heap has each of the queues once, and the eNQ of its first entry is `top_nq`. -/
structure NqPriorityArray.Lists (arr : NqPriorityArray) (reg : NqRegulator) (nqs : Set Nat) :
    Prop where
  nodup : arr.binHeap.Nodup
  mem_iff : ∀ nqid, nqid ∈ arr.binHeap ↔ nqid ∈ nqs
  top : arr.binHeap[0]? = some arr.topNq
  topNq : ∃ enq, reg.enq? arr.topNq = some enq ∧ enq.nqid = arr.topNq

end Sched

namespace QueueLayout

/-- The NCQs of a layout. -/
def ncqs (L : QueueLayout) : Set Nat := {cqid | ∃ k < L.nrCqs, cqid = L.kthCqid k}

end QueueLayout

namespace Sched

/-- A regulator that agrees with the layout. -/
structure Consistent (L : QueueLayout) (reg : NqRegulator) : Prop where
  nqid : ∀ nqid ∈ Set.Icc 1 L.maxNqid, (reg.enqs nqid).nqid = nqid
  /-- every queue completes on the NCQ of its block -/
  cqid : ∀ nqid ∈ Set.Icc 1 L.maxNqid, ∃ k < L.nrCqs,
    nqid ∈ L.attached (L.kthCqid k) ∧ (reg.enqs nqid).cqid = L.kthCqid k
  hasEncq : ∀ nqid ∈ Set.Icc 1 L.maxNqid, (reg.enqs nqid).encq.isSome ↔ nqid ∈ L.ncqs
  nrAttachedNsqs : ∀ k < L.nrCqs, ∀ encq, (reg.enqs (L.kthCqid k)).encq = some encq →
    encq.nrAttachedNsqs = EvenSplit.size L.maxNqid L.nrCqs k
  nonempty : ∀ prio < blkBlexPrioLevel, (reg.nqGroups prio).nsqRange.Nonempty
  disjoint : Disjoint (reg.nqGroups blkBlexTPrio).nsqRange (reg.nqGroups blkBlexLPrio).nsqRange
  tile : (reg.nqGroups blkBlexTPrio).nsqRange ∪ (reg.nqGroups blkBlexLPrio).nsqRange =
    Set.Icc 1 L.maxNqid
  /-- a queue is in the group whose range has it -/
  group : ∀ prio < blkBlexPrioLevel, ∀ nqid ∈ (reg.nqGroups prio).nsqRange,
    (reg.enqs nqid).group = some prio ∧ (reg.enqs nqid).prio = prio
  groupHeap : ∀ prio < blkBlexPrioLevel,
    (reg.nqGroups prio).prioArr.Lists reg (L.ncqs ∩ (reg.nqGroups prio).nsqRange)
  encqHeap : ∀ cqid ∈ L.ncqs, ∀ encq, (reg.enqs cqid).encq = some encq →
    1 < encq.nrAttachedNsqs → encq.prioArr.Lists reg (L.attached cqid)

end Sched

/-! ## The ranges of the groups -/

namespace QueueLayout

open Sched

variable (L : QueueLayout)

theorem mem_ncqs_iff {nqid : Nat} (h_range : nqid ∈ Set.Icc 1 L.maxNqid) :
    nqid ∈ L.ncqs ↔ blkBlexHasCq nqid L.toBlkBlexDevInfo := by
  rw [blkBlexHasCq, beq_iff_eq]
  constructor
  · rintro ⟨k, hk, rfl⟩
    exact (L.getCqid_of_mem_attached hk (L.kthCqid_mem_attached hk)).symm
  · intro h_eq
    obtain ⟨k, hk, h_cqid, -⟩ := L.getCqid_spec h_range.1 h_range.2
    exact ⟨k, hk, h_eq.trans h_cqid⟩

variable (h_groups : 2 ≤ L.nrCqs)
include h_groups

theorem groupIdx_lt {prio : Nat} (h_prio : prio < blkBlexPrioLevel) :
    L.groupIdx prio < L.nrCqs :=
  L.groupIdx_add_lt h_groups h_prio (L.groupNr_pos h_groups prio)

/-- The NSQs of a group are those between its first NCQ and the block after its last. -/
theorem groupNsqs_sum {prio : Nat} (h_prio : prio < blkBlexPrioLevel) :
    ((L.groupNcqs prio).map fun cqid => blkBlexGetCqNrNsqs cqid L.maxNqid L.nrCqs).sum +
        EvenSplit.start L.maxNqid L.nrCqs (L.groupIdx prio) =
      EvenSplit.start L.maxNqid L.nrCqs (L.groupIdx prio + L.groupNr prio) := by
  rw [EvenSplit.start_add, Nat.add_comm, groupNcqs, List.map_map]
  congr 2
  apply List.map_congr_left
  intro i hi
  exact L.nrNsqs_kthCqid (L.groupIdx_add_lt h_groups h_prio (List.mem_range.mp hi))

theorem groupNcqs_nodup {prio : Nat} (h_prio : prio < blkBlexPrioLevel) :
    (L.groupNcqs prio).Nodup := by
  apply List.Nodup.map_on _ List.nodup_range
  intro i hi j hj h_eq
  have h_lt {n : Nat} (hn : n ∈ List.range (L.groupNr prio)) :=
    L.groupIdx_add_lt h_groups h_prio (List.mem_range.mp hn)
  have h_index := congrArg (fun cqid => blkBlexCqidToIndex cqid L.maxNqid L.nrCqs) h_eq
  simp only [L.onePartition.toIndex _ (h_lt hi), L.onePartition.toIndex _ (h_lt hj)] at h_index
  exact Nat.add_left_cancel h_index

omit h_groups in
theorem nsqsOf_nodup (cqid : Nat) : (L.nsqsOf cqid).Nodup :=
  List.Nodup.map (fun _ _ h_eq => Nat.add_left_cancel h_eq) List.nodup_range

end QueueLayout

namespace Sched

variable {L : QueueLayout} {reg reg' : NqRegulator} {env : Env}

/-- A group's range goes from the block of its first NCQ to the one after its last. -/
theorem GroupWf.nsqRange_eq (h_groups : 2 ≤ L.nrCqs) {prio : Nat}
    (h_prio : prio < blkBlexPrioLevel) {group : NqGroup} (h : GroupWf L prio group) :
    group.nsqRange =
      Set.Ico (EvenSplit.start L.maxNqid L.nrCqs (L.groupIdx prio) + 1)
        (EvenSplit.start L.maxNqid L.nrCqs (L.groupIdx prio + L.groupNr prio) + 1) := by
  have h_lt := L.groupIdx_lt h_groups h_prio
  rw [NqGroup.nsqRange, h.ncqStart_eq, L.kthCqid_eq h_lt, h.nrAttachNsqs_eq,
    ← L.groupNsqs_sum h_groups h_prio]
  congr 1
  ring

/-- A group's range has the queues of its priority. -/
theorem GroupWf.mem_nsqRange (h_groups : 2 ≤ L.nrCqs) {prio : Nat}
    (h_prio : prio < blkBlexPrioLevel) {group : NqGroup} (h : GroupWf L prio group) {nqid : Nat} :
    nqid ∈ group.nsqRange ↔ nqid ∈ Set.Icc 1 L.maxNqid ∧ L.prioOf nqid = prio := by
  have h_half := L.half_lt h_groups
  have h_mono := EvenSplit.start_strictMono L.nrCqs_pos L.nrCqs_le h_half
  have h_end : EvenSplit.start L.maxNqid L.nrCqs L.nrCqs = L.maxNqid :=
    EvenSplit.start_parts L.nrCqs_pos
  have h_prioOf : L.prioOf nqid =
      if nqid < EvenSplit.start L.maxNqid L.nrCqs (L.nrCqs / blkBlexPrioLevel) + 1 then
        blkBlexTPrio else blkBlexLPrio := by
    rw [QueueLayout.prioOf, QueueLayout.lStart, L.kthCqid_eq h_half]
  rw [h.nsqRange_eq h_groups h_prio, Set.mem_Ico, Set.mem_Icc, h_prioOf]
  rcases prio_cases h_prio with rfl | rfl
  · -- the T group ends where the L group starts
    have h_idx : L.groupIdx blkBlexTPrio = 0 := Nat.zero_mul _
    have h_nr : L.groupNr blkBlexTPrio = L.nrCqs / blkBlexPrioLevel := if_neg (by decide)
    rw [h_idx, h_nr, Nat.zero_add, EvenSplit.start_zero, ite_eq_left_iff]
    simp only [blkBlexLPrio, blkBlexTPrio, Nat.one_ne_zero, imp_false, not_not]
    omega
  · have h_idx : L.groupIdx blkBlexLPrio = L.nrCqs / blkBlexPrioLevel := Nat.one_mul _
    have h_nr : L.groupNr blkBlexLPrio = L.nrCqs - L.nrCqs / blkBlexPrioLevel := by
      rw [QueueLayout.groupNr, if_pos (by decide), h_idx]
    rw [h_idx, h_nr, Nat.add_sub_cancel' (Nat.le_of_lt h_half), h_end, ite_eq_right_iff]
    simp only [blkBlexLPrio, blkBlexTPrio, Nat.zero_ne_one, imp_false]
    omega

/-- The range of a group within the queues. -/
theorem RegWf.group_range (h : RegWf L reg) (h_groups : 2 ≤ L.nrCqs) {prio : Nat}
    (h_prio : prio < blkBlexPrioLevel) :
    1 ≤ (reg.nqGroups prio).ncqStart ∧ 0 < (reg.nqGroups prio).nrAttachNsqs ∧
      (reg.nqGroups prio).ncqStart + (reg.nqGroups prio).nrAttachNsqs ≤ L.maxNqid + 1 := by
  have h_mem {nqid : Nat} : nqid ∈ (reg.nqGroups prio).nsqRange ↔ _ :=
    (h.group prio h_prio).mem_nsqRange h_groups h_prio
  have h_first : (reg.nqGroups prio).ncqStart ∈ (reg.nqGroups prio).nsqRange := by
    rw [h_mem, (h.group prio h_prio).ncqStart_eq]
    have h_k := L.groupIdx_lt h_groups h_prio
    have h_in : L.kthCqid (L.groupIdx prio) ∈ L.groupNcqs prio :=
      List.mem_map.mpr ⟨0, List.mem_range.mpr (L.groupNr_pos h_groups prio), rfl⟩
    exact ⟨L.mem_range_of_attached h_k (L.kthCqid_mem_attached h_k),
      (L.mem_groupNcqs_iff h_groups h_k h_prio).mp h_in⟩
  have h_pos := (h_mem.mp h_first).1.1
  rw [NqGroup.nsqRange, Set.mem_Ico] at h_first
  have h_last : (reg.nqGroups prio).ncqStart + (reg.nqGroups prio).nrAttachNsqs - 1 ∈
      (reg.nqGroups prio).nsqRange := by
    rw [NqGroup.nsqRange, Set.mem_Ico]
    omega
  have h_le := (h_mem.mp h_last).1.2
  omega

/-! ## Initialisation is consistent -/

theorem NqPriorityArray.Over.lists {arr : NqPriorityArray} {nqs : List Nat} {s : Set Nat}
    (h : arr.Over nqs) (h_nodup : nqs.Nodup) (h_mem : ∀ nqid, nqid ∈ nqs ↔ nqid ∈ s)
    (h_enq : ∀ nqid ∈ s, ∃ enq, reg.enq? nqid = some enq ∧ enq.nqid = nqid) :
    arr.Lists reg s where
  nodup := h.perm.nodup_iff.mpr h_nodup
  mem_iff nqid := by rw [h.perm.mem_iff, h_mem]
  top := by rw [← List.head?_eq_getElem?, h.top]
  topNq := h_enq _ ((h_mem _).mp h.topNq_mem)

theorem Grouped.consistent (h_groups : 2 ≤ L.nrCqs) (h : Grouped L L.maxNqid reg) :
    Consistent L reg := by
  have h_enq {nqid : Nat} (h_range : nqid ∈ Set.Icc 1 L.maxNqid) : EnqWf L nqid (reg.enqs nqid) :=
    h.done nqid h_range.1 h_range.2
  have h_read : ∀ nqid ∈ Set.Icc 1 L.maxNqid, ∃ enq, reg.enq? nqid = some enq ∧ enq.nqid = nqid := by
    intro nqid h_range
    refine ⟨reg.enqs nqid, ?_, (h_enq h_range).nqid_eq⟩
    rw [NqRegulator.enq?, h.info, if_pos ⟨h_range.1, h_range.2⟩]
  have h_mem {prio : Nat} (h_prio : prio < blkBlexPrioLevel) {nqid : Nat} :
      nqid ∈ (reg.nqGroups prio).nsqRange ↔ nqid ∈ Set.Icc 1 L.maxNqid ∧ L.prioOf nqid = prio :=
    (h.group prio h_prio).mem_nsqRange h_groups h_prio
  have h_ncq {k : Nat} (hk : k < L.nrCqs) : L.kthCqid k ∈ Set.Icc 1 L.maxNqid :=
    L.mem_range_of_attached hk (L.kthCqid_mem_attached hk)
  refine ⟨?_, ?_, ?_, ?_, ?_, ?_, ?_, ?_, ?_, ?_⟩
  · intro nqid h_range
    exact (h_enq h_range).nqid_eq
  · intro nqid h_range
    obtain ⟨k, hk, h_cqid, h_attached⟩ := L.getCqid_spec h_range.1 h_range.2
    exact ⟨k, hk, h_attached, (h_enq h_range).cqid_eq.trans h_cqid⟩
  · intro nqid h_range
    rw [(h_enq h_range).hasCq, L.mem_ncqs_iff h_range]
  · intro k hk encq h_encq
    rw [((h_enq (h_ncq hk)).encq encq h_encq).nrAttachedNsqs_eq, L.nrNsqs_kthCqid hk]
  · intro prio h_prio
    -- a group has an NCQ, which is in its range
    have hk := L.groupIdx_lt h_groups h_prio
    refine ⟨L.kthCqid (L.groupIdx prio), ?_⟩
    have h_in : L.kthCqid (L.groupIdx prio) ∈ L.groupNcqs prio :=
      List.mem_map.mpr ⟨0, List.mem_range.mpr (L.groupNr_pos h_groups prio), rfl⟩
    exact (h_mem h_prio).mpr ⟨h_ncq hk, (L.mem_groupNcqs_iff h_groups hk h_prio).mp h_in⟩
  · rw [Set.disjoint_left]
    intro nqid h_T h_L
    have h_eq := ((h_mem (by decide)).mp h_T).2.symm.trans ((h_mem (by decide)).mp h_L).2
    exact absurd h_eq (by decide)
  · ext nqid
    rw [Set.mem_union, h_mem (by decide), h_mem (by decide), ← and_or_left]
    exact and_iff_left (prio_cases (L.prioOf_lt nqid))
  · intro prio h_prio nqid h_nqid
    obtain ⟨h_range, rfl⟩ := (h_mem h_prio).mp h_nqid
    exact ⟨(h_enq h_range).group_eq, (h_enq h_range).prio_eq⟩
  · intro prio h_prio
    apply (h.group prio h_prio).prioArr.lists (L.groupNcqs_nodup h_groups h_prio)
    · intro cqid
      constructor
      · intro h_in
        obtain ⟨k, hk, rfl, h_attached⟩ := L.groupNcqs_spec h_groups h_prio h_in
        exact ⟨⟨k, hk, rfl⟩,
          (h_mem h_prio).mpr ⟨h_ncq hk, h_attached _ (L.kthCqid_mem_attached hk)⟩⟩
      · rintro ⟨⟨k, hk, rfl⟩, h_range⟩
        exact (L.mem_groupNcqs_iff h_groups hk h_prio).mpr ((h_mem h_prio).mp h_range).2
    · rintro cqid ⟨⟨k, hk, rfl⟩, -⟩
      exact h_read _ (h_ncq hk)
  · rintro cqid ⟨k, hk, rfl⟩ encq h_encq h_many
    apply (((h_enq (h_ncq hk)).encq encq h_encq).prioArr h_many).lists (L.nsqsOf_nodup _)
    · intro nqid
      exact L.mem_nsqsOf
    · intro nqid h_attached
      exact h_read nqid (L.mem_range_of_attached hk h_attached)

/-! ## For any counts -/

theorem nqGroupInit_groups {prio : Nat} (h : blkBlexNqGroupInit env reg prio = some reg') :
    reg'.blexInfo = reg.blexInfo ∧
      (reg'.nqGroups prio).nrNcqs =
        (if prio + 1 = blkBlexPrioLevel then
          reg.blexInfo.nrCqs - prio * (reg.blexInfo.nrCqs / blkBlexPrioLevel)
        else reg.blexInfo.nrCqs / blkBlexPrioLevel) ∧
      ∀ p, p ≠ prio → reg'.nqGroups p = reg.nqGroups p := by
  simp only [blkBlexNqGroupInit, Option.bind_eq_bind, Option.bind_eq_some_iff,
    Option.some.injEq] at h
  obtain ⟨arr, h_arr, rfl⟩ := h
  rw [attachNcqs_eq]
  refine ⟨rfl, ?_, ?_⟩
  · rw [NqRegulator.nqGroups_setGroup_self]
  · intro p h_ne
    rw [NqRegulator.nqGroups_setGroup_ne _ _ h_ne]

theorem enqInit_groups {nqid : Nat} (h : blkBlexEnqInit env reg nqid = some reg') :
    reg'.nqGroups = reg.nqGroups ∧ reg'.blexInfo = reg.blexInfo := by
  obtain ⟨cqInfo, group, encq, -, -, -, rfl⟩ := enqInit_cases h
  exact ⟨rfl, rfl⟩

theorem enqInitLoop_groups {n : Nat} (h : enqInitLoop env n reg = some reg') :
    reg'.nqGroups = reg.nqGroups ∧ reg'.blexInfo = reg.blexInfo := by
  refine enqInitLoop_induction
    (I := fun _ r => r.nqGroups = reg.nqGroups ∧ r.blexInfo = reg.blexInfo) ?_ ⟨rfl, rfl⟩ h
  intro k reg₁ reg₂ _ h_rest h_step
  obtain ⟨h_groups, h_info⟩ := enqInit_groups h_step
  exact ⟨h_groups.trans h_rest.1, h_info.trans h_rest.2⟩

/-- The first group has half of the completion queues, for any counts. -/
theorem allocAndInit_nrNcqs {info : BlkBlexDevInfo}
    (h : blkBlexNqRegulatorAllocAndInit env info = some reg) :
    (reg.nqGroups blkBlexTPrio).nrNcqs = info.nrCqs / blkBlexPrioLevel := by
  obtain ⟨reg₁, reg₂, h_T, h_L, h_loop⟩ := nqRegulatorInit_cases h
  obtain ⟨-, h_nr, -⟩ := nqGroupInit_groups h_T
  obtain ⟨-, -, h_other⟩ := nqGroupInit_groups h_L
  rw [(enqInitLoop_groups h_loop).1, h_other blkBlexTPrio (by decide), h_nr, if_neg (by decide)]
  rfl

theorem allocAndInit_info {info : BlkBlexDevInfo}
    (h : blkBlexNqRegulatorAllocAndInit env info = some reg) : reg.blexInfo = info := by
  obtain ⟨reg₁, reg₂, h_T, h_L, h_loop⟩ := nqRegulatorInit_cases h
  rw [(enqInitLoop_groups h_loop).2, (nqGroupInit_groups h_L).1, (nqGroupInit_groups h_T).1]
  rfl

/-! ## Initialisation succeeds -/

theorem prioArrInit_isSome (env : Env) {maxHeapSz initNqCount : Nat} (h_le : initNqCount ≤ maxHeapSz)
    (nth : Nat → Nat) : ∃ arr, prioArrInit env maxHeapSz initNqCount nth = some arr :=
  ⟨_, if_neg (Nat.not_lt.mpr h_le)⟩

theorem nqGroupInit_isSome (h_info : reg.blexInfo = L.toBlkBlexDevInfo) {prio : Nat}
    (h_heap : L.groupNr prio ≤ env.nrCpuIds) :
    ∃ reg', blkBlexNqGroupInit env reg prio = some reg' := by
  rw [blkBlexNqGroupInit, h_info]
  obtain ⟨arr, h_arr⟩ := prioArrInit_isSome env h_heap
    (fun id => blkBlexGetKthCqid
      (blkBlexCqidToIndex (L.kthCqid (L.groupIdx prio)) L.maxNqid L.nrCqs + id) L.maxNqid L.nrCqs)
  exact ⟨_, Option.bind_eq_some_iff.mpr ⟨arr, h_arr, rfl⟩⟩

/-- The heap of an eNCQ is as large as its NSQs are many. -/
theorem encqInit_isSome (env : Env) (info : BlkBlexDevInfo) (cqid : Nat) :
    ∃ encq, encqInit env info cqid = some encq := by
  simp only [encqInit, Option.bind_eq_bind]
  split
  case isTrue =>
    obtain ⟨arr, h_arr⟩ := prioArrInit_isSome env (Nat.le_refl _) (fun id => cqid + id)
    exact ⟨_, Option.bind_eq_some_iff.mpr ⟨arr, h_arr, rfl⟩⟩
  case isFalse => exact ⟨_, rfl⟩

theorem enqEncq_isSome (env : Env) (info : BlkBlexDevInfo) (enq : ExposedNq) (nqid cqid : Nat) :
    ∃ encq, enqEncq env info enq nqid cqid = some encq := by
  rw [enqEncq]
  split
  case isTrue =>
    obtain ⟨encq, h_encq⟩ := encqInit_isSome env info cqid
    exact ⟨some encq, congrArg _ h_encq⟩
  case isFalse => exact ⟨_, rfl⟩

theorem enqInit_isSome (env : Env) {n : Nat} (h_n : n + 1 ≤ L.maxNqid) (h : Grouped L n reg) :
    ∃ reg', blkBlexEnqInit env reg (n + 1) = some reg' := by
  obtain ⟨k, hk, h_cqid, -⟩ := L.getCqid_spec (Nat.succ_pos n) h_n
  have h_range := L.mem_range_of_attached hk (L.kthCqid_mem_attached hk)
  have h_read : reg.enq? (L.kthCqid k) = some (reg.enqs (L.kthCqid k)) := by
    rw [NqRegulator.enq?, h.info, if_pos h_range]
  obtain ⟨encq, h_encq⟩ := enqEncq_isSome env L.toBlkBlexDevInfo (reg.enqs (n + 1)) (n + 1)
    (L.kthCqid k)
  simp only [blkBlexEnqInit, h.info, h_cqid, h_read, h.ncqGroup k hk, h_encq, Option.bind_eq_bind,
    Option.bind_some]
  exact ⟨_, rfl⟩

theorem enqInitLoop_isSome (env : Env) (h_groups : 2 ≤ L.nrCqs) {n : Nat} (h_n : n ≤ L.maxNqid)
    (h : Grouped L 0 reg) : ∃ reg', enqInitLoop env n reg = some reg' := by
  induction n with
  | zero => exact ⟨reg, rfl⟩
  | succ n ih =>
      obtain ⟨reg₁, h_loop⟩ := ih (Nat.le_of_succ_le h_n)
      have h_grouped := enqInitLoop_grouped h_groups (Nat.le_of_succ_le h_n) h h_loop
      obtain ⟨reg₂, h_step⟩ := enqInit_isSome env h_n h_grouped
      exact ⟨reg₂, by rw [enqInitLoop, h_loop, Option.bind_some, h_step]⟩

theorem allocAndInit_isSome (h_groups : 2 ≤ L.nrCqs)
    (h_heap : ∀ prio < blkBlexPrioLevel, L.groupNr prio ≤ env.nrCpuIds) :
    ∃ reg, blkBlexNqRegulatorAllocAndInit env L.toBlkBlexDevInfo = some reg := by
  have h_zero : (regulatorZero L.toBlkBlexDevInfo).blexInfo = L.toBlkBlexDevInfo := rfl
  obtain ⟨reg₁, h_T⟩ := nqGroupInit_isSome h_zero (h_heap blkBlexTPrio (by decide))
  obtain ⟨groupT, -, h_reg₁⟩ := nqGroupInit_spec h_groups rfl (by decide) h_T
  have h_info : reg₁.blexInfo = L.toBlkBlexDevInfo := by
    rw [h_reg₁, attachNcqs_eq]
    rfl
  obtain ⟨reg₂, h_L⟩ := nqGroupInit_isSome h_info (h_heap blkBlexLPrio (by decide))
  have h_grouped := groupsInit_grouped h_groups h_T h_L
  obtain ⟨reg, h_loop⟩ := enqInitLoop_isSome env h_groups (Nat.le_refl _) h_grouped
  refine ⟨reg, ?_⟩
  simp only [blkBlexNqRegulatorAllocAndInit, h_T, h_L, h_loop, Option.bind_eq_bind,
    Option.bind_some]

/-- Every layout with two NCQs or more: initialisation succeeds, and what it builds is
consistent. -/
theorem allocAndInit_consistent (h_groups : 2 ≤ L.nrCqs)
    (h_heap : ∀ prio < blkBlexPrioLevel, L.groupNr prio ≤ env.nrCpuIds) :
    ∃ reg, blkBlexNqRegulatorAllocAndInit env L.toBlkBlexDevInfo = some reg ∧ Consistent L reg := by
  obtain ⟨reg, h_init⟩ := allocAndInit_isSome h_groups h_heap
  exact ⟨reg, h_init, (allocAndInit_grouped h_groups h_init).consistent h_groups⟩

/-- Seven queues on three NCQs. -/
def sevenNqs : QueueLayout := ⟨⟨7, 3⟩, by decide, by decide⟩

theorem allocAndInit_consistent_seven :
    ∃ reg, blkBlexNqRegulatorAllocAndInit (.default 2) sevenNqs.toBlkBlexDevInfo = some reg ∧
      Consistent sevenNqs reg :=
  allocAndInit_consistent (by decide) (by decide)

end Sched

end Daredevil
