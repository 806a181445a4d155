/-
  Daredevil.Sched.Regulator

  The NQ regulator of `include/linux/blk-blex.h` and the heap-based choice of a
  queue in `block/blk-blex.c`.

  A regulator has one exposed NQ (eNQ) per queue and two NQ groups, one for each
  base priority.  A group keeps its NCQs in a priority array, and every NCQ with
  more than one attached NSQ keeps those in a priority array of its own.
  `blk_blex_recommend_nsq` takes the top NCQ of a group and the top NSQ of that
  NCQ, and then lets each array age.

  Pointers to eNQs are queue ids; a computation is `none` where the source
  faults: an index outside an array, a NULL pointer followed, a division by zero.

    * `RegWf`               — each priority array holds exactly the queues the
                              layout gives it, with its top in `top_nq`;
    * `recommendNsq_spec`   — a recommended queue belongs to the requested group.
-/
import Daredevil.Block.Layout
import Daredevil.Lib.BinaryHeap
import Daredevil.Lib.Word32
import Mathlib.Data.Finset.Card
import Mathlib.Data.Finset.Insert
import Mathlib.Data.List.Perm.Basic
import Mathlib.Logic.Function.Basic

namespace Daredevil

namespace Sched

/-! ## Parameters -/

/-- The module parameters of `block/blk-blex.h`, and what the scheduler takes from
the kernel's own headers. -/
structure Env where
  nrCpuIds : Nat
  /-- `daredevil_blex_opt_level` -/
  blexOptLevel : Int
  /-- `daredevil_io_profile_on` -/
  ioProfileOn : Bool
  prioArrMru : Int
  meritAlphaNumer : Int
  meritAlphaDenom : Int
  /-- `IOPRIO_PRIO_CLASS` -/
  ioprioPrioClass : Nat → Nat
  /-- `IOPRIO_CLASS_RT` -/
  ioprioClassRt : Nat
  /-- `REQ_SYNC` -/
  reqSync : Nat
  /-- `REQ_META` -/
  reqMeta : Nat
  /-- `REQ_PRIO` -/
  reqPrio : Nat
  /-- `REQ_IDLE` -/
  reqIdle : Nat

/-- The defaults of the parameters and the values of the kernel headers. -/
def Env.default (nrCpuIds : Nat) : Env where
  nrCpuIds := nrCpuIds
  blexOptLevel := 2
  ioProfileOn := true
  prioArrMru := 4
  meritAlphaNumer := 4
  meritAlphaDenom := 5
  ioprioPrioClass prio := prio / 8192 % 8
  ioprioClassRt := 1
  reqSync := 2048
  reqMeta := 4096
  reqPrio := 8192
  reqIdle := 32768

/-- `BLK_BLEX_T_PRIO` -/
def blkBlexTPrio : Nat := 0

/-- `BLK_BLEX_L_PRIO` -/
def blkBlexLPrio : Nat := 1

/-- `BLK_BLEX_PRIO_LEVEL` -/
def blkBlexPrioLevel : Nat := 2

/-- `BLK_BLEX_OUTLIER_PRIO` -/
def blkBlexOutlierPrio : Nat := 3

/-- `BLK_BLEX_L_PRIO_MASK` -/
def blkBlexLPrioMask : Nat := 1

/-- `BLEX_SCHED_MERIT_INF` -/
def blexSchedMeritInf : Int := 2147483647

theorem prio_cases {prio : Nat} (h_prio : prio < blkBlexPrioLevel) :
    prio = blkBlexTPrio ∨ prio = blkBlexLPrio := by
  unfold blkBlexPrioLevel at h_prio
  unfold blkBlexTPrio blkBlexLPrio
  omega

/-! ## State -/

/-- `enum blk_blex_nq_type_enum` -/
inductive NqType where
  | nsq
  | ncq
  deriving DecidableEq, Repr

structure NqPriorityArray where
  mru : Int
  binHeap : List Nat
  /-- `0` before the array is initialised -/
  topNq : Nat
  nqCount : Nat
  deriving DecidableEq, Repr

structure NqGroup where
  prio : Nat
  nrAttachNsqs : Nat
  prioArr : NqPriorityArray
  rrNsqOffset : Nat
  rrNcqOffset : Nat
  nrNcqs : Nat
  ncqStart : Nat
  deriving DecidableEq, Repr

structure EnqNcq where
  cqid : Nat
  nrAttachedNsqs : Nat
  rrNsqOffset : Nat
  ncqSchedMerit : Int
  nrInFlightRqs : Nat
  nrCompleteRqs : Nat
  nrIrqs : Nat
  prioArr : NqPriorityArray
  deriving DecidableEq, Repr

structure EnqNsq where
  sqid : Nat
  nsqSchedMerit : Int
  nrInLockNs : Nat
  nrSubmitRqs : Nat
  claimedCoreCpumask : Finset Nat
  deriving DecidableEq

structure ExposedNq where
  /-- the group, by its number; `none` for NULL -/
  group : Option Nat
  prio : Nat
  qdepth : Nat
  nqid : Nat
  cqid : Nat
  ensq : EnqNsq
  encq : Option EnqNcq
  deriving DecidableEq

structure NsqMap where
  nrInUse : Int
  xaNsqMap : Nat → Option Nat

structure NqRegulator where
  blexInfo : BlkBlexDevInfo
  /-- one for each CPU -/
  nsqMaps : Nat → NsqMap
  /-- by queue id: the source's entry `nqid - 1` -/
  enqs : Nat → ExposedNq
  nqGroups : Nat → NqGroup

namespace NqRegulator

/-- Follow a pointer into `enqs`. -/
def enq? (reg : NqRegulator) (nqid : Nat) : Option ExposedNq :=
  if 1 ≤ nqid ∧ nqid ≤ reg.blexInfo.maxNqid then some (reg.enqs nqid) else none

/-- Read an entry of `nq_groups`. -/
def group? (reg : NqRegulator) (prio : Nat) : Option NqGroup :=
  if prio < blkBlexPrioLevel then some (reg.nqGroups prio) else none

def setEnq (reg : NqRegulator) (nqid : Nat) (enq : ExposedNq) : NqRegulator :=
  { reg with enqs := Function.update reg.enqs nqid enq }

def setGroup (reg : NqRegulator) (prio : Nat) (group : NqGroup) : NqRegulator :=
  { reg with nqGroups := Function.update reg.nqGroups prio group }

@[simp] theorem enqs_setEnq_self (reg : NqRegulator) (nqid : Nat) (enq : ExposedNq) :
    (reg.setEnq nqid enq).enqs nqid = enq := Function.update_self _ _ _

theorem enqs_setEnq_ne (reg : NqRegulator) {nqid n : Nat} (enq : ExposedNq) (h : n ≠ nqid) :
    (reg.setEnq nqid enq).enqs n = reg.enqs n := Function.update_of_ne h _ _

@[simp] theorem nqGroups_setGroup_self (reg : NqRegulator) (prio : Nat) (group : NqGroup) :
    (reg.setGroup prio group).nqGroups prio = group := Function.update_self _ _ _

theorem nqGroups_setGroup_ne (reg : NqRegulator) {prio p : Nat} (group : NqGroup) (h : p ≠ prio) :
    (reg.setGroup prio group).nqGroups p = reg.nqGroups p := Function.update_of_ne h _ _

/-- What the new queue has and all others had, every queue has. -/
theorem setEnq_forall {P : Nat → ExposedNq → Prop} {reg : NqRegulator} {nqid : Nat}
    {enq : ExposedNq} (h_enq : P nqid enq) (h : ∀ n, n ≠ nqid → P n (reg.enqs n)) (n : Nat) :
    P n ((reg.setEnq nqid enq).enqs n) := by
  by_cases h_eq : n = nqid
  · rw [h_eq, enqs_setEnq_self]
    exact h_enq
  · rw [enqs_setEnq_ne reg enq h_eq]
    exact h n h_eq

end NqRegulator

/-! ## Merits -/

/-- The two shares of the moving average, `x * alpha_numer / alpha_denom`. -/
def meritShare (env : Env) (x : Int) : Int :=
  (Word32.signed (x * env.meritAlphaNumer)).tdiv env.meritAlphaDenom

/-- The sample of `blk_blex_calc_sched_merit` for an NCQ. -/
def ncqMeritTmp (encq : EnqNcq) (qdepth : Nat) : Int :=
  Word32.signed (Word32.wrap (encq.nrInFlightRqs * encq.nrIrqs) / qdepth + encq.nrCompleteRqs)

/-- The sample of `blk_blex_calc_sched_merit` for an NSQ. -/
def nsqMeritTmp (ensq : EnqNsq) : Int :=
  if ensq.nrSubmitRqs = 0 then
    0
  else
    Word32.signed (Word32.wrap (ensq.nrInLockNs * (ensq.claimedCoreCpumask.card + 1)) /
      ensq.nrSubmitRqs)

def blkBlexCalcSchedMerit (env : Env) (type : NqType) (enq : ExposedNq) : Option Int := do
  let (meritLast, meritTmp) ←
    match type with
    | .ncq =>
        enq.encq.bind fun encq =>
          if enq.qdepth = 0 then none else some (encq.ncqSchedMerit, ncqMeritTmp encq enq.qdepth)
    | .nsq => some (enq.ensq.nsqSchedMerit, nsqMeritTmp enq.ensq)
  if env.meritAlphaDenom = 0 then
    none
  else
    some (Word32.signed (Word32.signed (meritLast - meritShare env meritLast) +
      meritShare env meritTmp))

/-! ## Priority arrays -/

/-- Keep the merit of a queue that leaves the top and clear its statistics. -/
def clearOldTop (type : NqType) (merit : Int) (enq : ExposedNq) : ExposedNq :=
  match type with
  | .ncq =>
      { enq with encq := enq.encq.map fun encq =>
          { encq with ncqSchedMerit := merit, nrInFlightRqs := 0, nrCompleteRqs := 0,
                      nrIrqs := 0 } }
  | .nsq =>
      { enq with ensq :=
          { enq.ensq with nsqSchedMerit := merit, nrInLockNs := 0, nrSubmitRqs := 0 } }

/-- The merit of a heap entry. -/
def NqRegulator.meritOf (reg : NqRegulator) (env : Env) (type : NqType) (nqid : Nat) :
    Option Int :=
  (reg.enq? nqid).bind (blkBlexCalcSchedMerit env type)

/-- `blk_blex_update_priority_array` on the array `arr`, with the heap lock free. -/
def blkBlexUpdatePriorityArray (env : Env) (reg : NqRegulator) (arr : NqPriorityArray)
    (mru forceMerit : Int) (type : NqType) : Option (NqRegulator × NqPriorityArray) :=
  -- the array ages with every use and is reordered once it has run down
  if 0 < Word32.signed (arr.mru - mru) then
    some (reg, { arr with mru := Word32.signed (arr.mru - mru) })
  else do
    let oldTopNq ← reg.enq? arr.topNq
    let merit ← blkBlexCalcSchedMerit env type oldTopNq
    let usedMerit :=
      if forceMerit = blexSchedMeritInf then blexSchedMeritInf
      else Word32.signed (merit + forceMerit)
    -- the source also loads `bin_heap[right_son]` past the end, without using it
    let binHeap ← BinaryHeap.siftDown (reg.meritOf env type) arr.nqCount usedMerit arr.nqCount 0
      arr.binHeap
    let top ← binHeap[0]?
    -- an old top that stays on top keeps its statistics
    if top ≠ oldTopNq.nqid then
      some (reg.setEnq arr.topNq (clearOldTop type merit oldTopNq),
        { arr with binHeap := binHeap, topNq := top, mru := env.prioArrMru })
    else
      some (reg, { arr with binHeap := binHeap, mru := env.prioArrMru })

/-- The update of a group's array of NCQs. -/
def updateGroupArr (env : Env) (reg : NqRegulator) (prio : Nat) (mru forceMerit : Int) :
    Option NqRegulator := do
  let group ← reg.group? prio
  let (reg, arr) ← blkBlexUpdatePriorityArray env reg group.prioArr mru forceMerit .ncq
  some (reg.setGroup prio { group with prioArr := arr })

/-- Store the array of NCQ `cqid`. -/
def NqRegulator.setNcqArr (reg : NqRegulator) (cqid : Nat) (arr : NqPriorityArray) :
    NqRegulator :=
  reg.setEnq cqid
    { reg.enqs cqid with encq := (reg.enqs cqid).encq.map fun encq =>
        { encq with prioArr := arr } }

/-- The update of an NCQ's array of NSQs. -/
def updateNcqArr (env : Env) (reg : NqRegulator) (cqid : Nat) (mru forceMerit : Int) :
    Option NqRegulator := do
  let ncq ← reg.enq? cqid
  let encq ← ncq.encq
  let (reg, arr) ← blkBlexUpdatePriorityArray env reg encq.prioArr mru forceMerit .nsq
  some (reg.setNcqArr cqid arr)

/-- `blk_blex_peek_recommend` -/
def blkBlexPeekRecommend (reg : NqRegulator) (prio : Nat) : Option Nat := do
  let group ← reg.group? prio
  let ncq ← reg.enq? group.prioArr.topNq
  let encq ← ncq.encq
  if 1 < encq.nrAttachedNsqs then some encq.prioArr.topNq else some group.prioArr.topNq

/-- `blk_blex_recommend_nsq` -/
def blkBlexRecommendNsq (env : Env) (reg : NqRegulator) (prio : Nat) (roundRobin : Bool)
    (ncqMru nsqMru : Int) : Option (NqRegulator × Nat) := do
  let nsqMru := if roundRobin then env.prioArrMru else nsqMru
  let ncqMru := if roundRobin then env.prioArrMru else ncqMru
  let forceMerit := if roundRobin then blexSchedMeritInf else 0
  let group ← reg.group? prio
  -- both arrays are asked for their top before they age
  let ncq := group.prioArr.topNq
  let reg ← updateGroupArr env reg prio ncqMru forceMerit
  let ncqEnq ← reg.enq? ncq
  let encq ← ncqEnq.encq
  if encq.nrAttachedNsqs = 1 then
    some (reg, ncq)
  else do
    let reg ← updateNcqArr env reg ncq nsqMru forceMerit
    some (reg, encq.prioArr.topNq)

end Sched

/-! ## The groups of a layout -/

namespace QueueLayout

open Sched

variable (L : QueueLayout)

/-- The index of a group's first NCQ. -/
def groupIdx (prio : Nat) : Nat := prio * (L.nrCqs / blkBlexPrioLevel)

/-- The number of NCQs of a group; the last group has those that are left over. -/
def groupNr (prio : Nat) : Nat :=
  if prio + 1 = blkBlexPrioLevel then L.nrCqs - L.groupIdx prio else L.nrCqs / blkBlexPrioLevel

/-- The NCQs of a group. -/
def groupNcqs (prio : Nat) : List Nat :=
  (List.range (L.groupNr prio)).map fun i => L.kthCqid (L.groupIdx prio + i)

/-- The first queue of the L group. -/
def lStart : Nat := L.kthCqid (L.nrCqs / blkBlexPrioLevel)

/-- The group that a queue belongs to. -/
def prioOf (nqid : Nat) : Nat := if nqid < L.lStart then blkBlexTPrio else blkBlexLPrio

/-- The NSQs attached to an NCQ. -/
def nsqsOf (cqid : Nat) : List Nat :=
  (List.range (blkBlexGetCqNrNsqs cqid L.maxNqid L.nrCqs)).map (cqid + ·)

theorem mem_nsqsOf {cqid nqid : Nat} : nqid ∈ L.nsqsOf cqid ↔ nqid ∈ L.attached cqid := by
  simp only [nsqsOf, attached, List.mem_map, List.mem_range, Set.mem_Ico]
  constructor
  · rintro ⟨i, hi, rfl⟩
    omega
  · rintro ⟨h_low, h_high⟩
    exact ⟨nqid - cqid, by omega, by omega⟩

theorem prioOf_lt (nqid : Nat) : L.prioOf nqid < blkBlexPrioLevel := by
  unfold prioOf
  split <;> decide

theorem mem_range_of_attached {k nqid : Nat} (hk : k < L.nrCqs)
    (h : nqid ∈ L.attached (L.kthCqid k)) : 1 ≤ nqid ∧ nqid ≤ L.maxNqid := by
  have h_tile := L.iUnion_attached
  have h_mem : nqid ∈ (⋃ k ∈ Set.Iio L.nrCqs, L.attached (L.kthCqid k)) :=
    Set.mem_biUnion hk h
  rw [h_tile] at h_mem
  exact h_mem

variable (h_groups : 2 ≤ L.nrCqs)
include h_groups

theorem half_lt : L.nrCqs / blkBlexPrioLevel < L.nrCqs :=
  Nat.div_lt_self (by omega) (by decide)

theorem half_pos : 0 < L.nrCqs / blkBlexPrioLevel :=
  Nat.div_pos h_groups (by decide)

/-- The queues of the first half of the NCQs are those below the start of the L group. -/
theorem prioOf_of_attached {k nqid : Nat} (hk : k < L.nrCqs)
    (h : nqid ∈ L.attached (L.kthCqid k)) :
    L.prioOf nqid = if k < L.nrCqs / blkBlexPrioLevel then blkBlexTPrio else blkBlexLPrio := by
  rw [L.mem_attached_kthCqid hk, EvenSplit.items, Set.mem_Ico, ← EvenSplit.start_succ] at h
  have h_half := L.half_lt h_groups
  -- the intervals of the NCQs follow one another, so comparing starts is comparing indices
  have h_mono := (EvenSplit.start_strictMono L.nrCqs_pos L.nrCqs_le).monotone
  have h_iff : nqid < L.lStart ↔ k < L.nrCqs / blkBlexPrioLevel := by
    rw [lStart, L.kthCqid_eq h_half]
    constructor
    · intro h_lt
      by_contra h_ge
      have := h_mono (Nat.le_of_not_lt h_ge)
      omega
    · intro h_lt
      have := h_mono (show k + 1 ≤ L.nrCqs / blkBlexPrioLevel from h_lt)
      omega
  unfold prioOf
  simp only [h_iff]

theorem groupIdx_add_lt {prio i : Nat} (h_prio : prio < blkBlexPrioLevel)
    (hi : i < L.groupNr prio) : L.groupIdx prio + i < L.nrCqs := by
  have h_half := L.half_lt h_groups
  unfold groupNr groupIdx at *
  rcases prio_cases h_prio with rfl | rfl
  · rw [if_neg (by decide)] at hi
    rw [blkBlexTPrio, Nat.zero_mul]
    omega
  · rw [if_pos (by decide)] at hi
    omega

/-- Every NCQ that a group lists is one, and its queues belong to the group. -/
theorem groupNcqs_spec {prio cqid : Nat} (h_prio : prio < blkBlexPrioLevel)
    (h : cqid ∈ L.groupNcqs prio) :
    ∃ k < L.nrCqs, cqid = L.kthCqid k ∧ ∀ nqid ∈ L.attached cqid, L.prioOf nqid = prio := by
  simp only [groupNcqs, List.mem_map, List.mem_range] at h
  obtain ⟨i, hi, rfl⟩ := h
  have hk := L.groupIdx_add_lt h_groups h_prio hi
  refine ⟨_, hk, rfl, ?_⟩
  intro nqid h_nqid
  rw [L.prioOf_of_attached h_groups hk h_nqid]
  unfold groupNr groupIdx at *
  rcases prio_cases h_prio with rfl | rfl
  · rw [if_neg (by decide)] at hi
    rw [if_pos (by rwa [blkBlexTPrio, Nat.zero_mul, Nat.zero_add])]
  · rw [if_neg (by rw [blkBlexLPrio]; omega)]

omit h_groups in
/-- The index of an NCQ wraps around. -/
theorem kthCqid_mod (k : Nat) : L.kthCqid (k % L.nrCqs) = L.kthCqid k := by
  rw [kthCqid, kthCqid, blkBlexGetKthCqid_eq, blkBlexGetKthCqid_eq, Nat.mod_mod]

omit h_groups in
theorem kthCqid_mem_attached {k : Nat} (hk : k < L.nrCqs) :
    L.kthCqid k ∈ L.attached (L.kthCqid k) := by
  have h_pos := L.onePartition.nonempty k hk
  exact Set.mem_Ico.mpr ⟨Nat.le_refl _, Nat.lt_add_of_pos_right h_pos⟩

end QueueLayout

namespace Sched

/-! ## Well-formed regulators -/

/-- The array holds exactly the queues `nqs`, with `top_nq` the first of its heap. -/
structure NqPriorityArray.Over (arr : NqPriorityArray) (nqs : List Nat) : Prop where
  perm : arr.binHeap.Perm nqs
  top : arr.binHeap.head? = some arr.topNq
  count : arr.nqCount = nqs.length

theorem NqPriorityArray.Over.topNq_mem {arr : NqPriorityArray} {nqs : List Nat}
    (h : arr.Over nqs) : arr.topNq ∈ nqs :=
  h.perm.mem_iff.mp (List.mem_of_mem_head? h.top)

/-- What initialisation writes into an eNCQ and nothing changes afterwards. -/
structure EncqWf (L : QueueLayout) (nqid : Nat) (encq : EnqNcq) : Prop where
  cqid_eq : encq.cqid = nqid
  nrAttachedNsqs_eq : encq.nrAttachedNsqs = blkBlexGetCqNrNsqs nqid L.maxNqid L.nrCqs
  prioArr : 1 < encq.nrAttachedNsqs → encq.prioArr.Over (L.nsqsOf nqid)

structure EnqWf (L : QueueLayout) (nqid : Nat) (enq : ExposedNq) : Prop where
  nqid_eq : enq.nqid = nqid
  cqid_eq : enq.cqid = blkBlexGetCqid nqid L.maxNqid L.nrCqs
  group_eq : enq.group = some (L.prioOf nqid)
  prio_eq : enq.prio = L.prioOf nqid
  sqid_eq : enq.ensq.sqid = nqid
  /-- the NCQs are the queues with an eNCQ -/
  hasCq : enq.encq.isSome = blkBlexHasCq nqid L.toBlkBlexDevInfo
  encq : ∀ encq, enq.encq = some encq → EncqWf L nqid encq

structure GroupWf (L : QueueLayout) (prio : Nat) (group : NqGroup) : Prop where
  prio_eq : group.prio = prio
  nrNcqs_eq : group.nrNcqs = L.groupNr prio
  ncqStart_eq : group.ncqStart = L.kthCqid (L.groupIdx prio)
  nrAttachNsqs_eq : group.nrAttachNsqs =
    ((L.groupNcqs prio).map fun cqid => blkBlexGetCqNrNsqs cqid L.maxNqid L.nrCqs).sum
  prioArr : group.prioArr.Over (L.groupNcqs prio)

/-- The regulator of a device with the layout `L`. -/
structure RegWf (L : QueueLayout) (reg : NqRegulator) : Prop where
  info : reg.blexInfo = L.toBlkBlexDevInfo
  enq : ∀ nqid, 1 ≤ nqid → nqid ≤ L.maxNqid → EnqWf L nqid (reg.enqs nqid)
  group : ∀ prio < blkBlexPrioLevel, GroupWf L prio (reg.nqGroups prio)

variable {L : QueueLayout} {reg reg' : NqRegulator} {env : Env}

theorem RegWf.enq?_eq (h : RegWf L reg) {nqid : Nat} (h_pos : 1 ≤ nqid)
    (h_le : nqid ≤ L.maxNqid) : reg.enq? nqid = some (reg.enqs nqid) := by
  rw [NqRegulator.enq?, h.info, if_pos ⟨h_pos, h_le⟩]

theorem RegWf.enq?_some (h : RegWf L reg) {nqid : Nat} {enq : ExposedNq}
    (h_enq : reg.enq? nqid = some enq) :
    1 ≤ nqid ∧ nqid ≤ L.maxNqid ∧ enq = reg.enqs nqid ∧ EnqWf L nqid enq := by
  rw [NqRegulator.enq?, h.info] at h_enq
  split at h_enq
  case isTrue h_range =>
    cases h_enq
    exact ⟨h_range.1, h_range.2, rfl, h.enq nqid h_range.1 h_range.2⟩
  case isFalse => cases h_enq

theorem group?_some {prio : Nat} {group : NqGroup} (h : reg.group? prio = some group) :
    prio < blkBlexPrioLevel ∧ group = reg.nqGroups prio := by
  rw [NqRegulator.group?] at h
  split at h
  case isTrue h_prio => exact ⟨h_prio, (Option.some.inj h).symm⟩
  case isFalse => cases h

theorem enq?_eq_enqs {nqid : Nat} {enq : ExposedNq} (h_enq : reg.enq? nqid = some enq) :
    enq = reg.enqs nqid := by
  unfold NqRegulator.enq? at h_enq
  split at h_enq
  · exact (Option.some.inj h_enq).symm
  · cases h_enq

theorem RegWf.setEnq (h : RegWf L reg) {nqid : Nat} {enq : ExposedNq} (h_enq : EnqWf L nqid enq) :
    RegWf L (reg.setEnq nqid enq) where
  info := h.info
  enq := NqRegulator.setEnq_forall (P := fun n enq => 1 ≤ n → n ≤ L.maxNqid → EnqWf L n enq)
    (fun _ _ => h_enq) fun n _ => h.enq n
  group := h.group

theorem RegWf.setGroup (h : RegWf L reg) {prio : Nat} {group : NqGroup}
    (h_group : GroupWf L prio group) : RegWf L (reg.setGroup prio group) where
  info := h.info
  enq := h.enq
  group p h_p := by
    by_cases h_eq : p = prio
    · rw [h_eq, NqRegulator.nqGroups_setGroup_self]
      exact h_group
    · rw [NqRegulator.nqGroups_setGroup_ne reg group h_eq]
      exact h.group p h_p

/-- Changing statistics or the array of an eNCQ keeps the rest of the eNQ. -/
theorem EnqWf.mapEncq {nqid : Nat} {enq : ExposedNq} (h : EnqWf L nqid enq)
    (f : EnqNcq → EnqNcq) (h_f : ∀ encq, EncqWf L nqid encq → EncqWf L nqid (f encq)) :
    EnqWf L nqid { enq with encq := enq.encq.map f } where
  nqid_eq := h.nqid_eq
  cqid_eq := h.cqid_eq
  group_eq := h.group_eq
  prio_eq := h.prio_eq
  sqid_eq := h.sqid_eq
  hasCq := by rw [Option.isSome_map, h.hasCq]
  encq encq' h_eq := by
    obtain ⟨encq, h_encq, rfl⟩ := Option.map_eq_some_iff.mp h_eq
    exact h_f encq (h.encq encq h_encq)

theorem EnqWf.setEnsq {nqid : Nat} {enq : ExposedNq} (h : EnqWf L nqid enq) {ensq : EnqNsq}
    (h_sqid : ensq.sqid = nqid) : EnqWf L nqid { enq with ensq := ensq } where
  nqid_eq := h.nqid_eq
  cqid_eq := h.cqid_eq
  group_eq := h.group_eq
  prio_eq := h.prio_eq
  sqid_eq := h_sqid
  hasCq := h.hasCq
  encq := h.encq

theorem EnqWf.clearOldTop {nqid : Nat} {enq : ExposedNq} (h : EnqWf L nqid enq) (type : NqType)
    (merit : Int) : EnqWf L nqid (clearOldTop type merit enq) := by
  cases type with
  | ncq => exact h.mapEncq _ fun _ h_encq => ⟨h_encq.1, h_encq.2, h_encq.3⟩
  | nsq => exact h.setEnsq h.sqid_eq

/-! ## What the operations keep -/

/-- The usage maps and CPU masks of two regulators are the same. -/
structure SameMaps (reg reg' : NqRegulator) : Prop where
  nsqMaps : reg'.nsqMaps = reg.nsqMaps
  mask : ∀ nqid,
    (reg'.enqs nqid).ensq.claimedCoreCpumask = (reg.enqs nqid).ensq.claimedCoreCpumask

theorem SameMaps.refl (reg : NqRegulator) : SameMaps reg reg := ⟨rfl, fun _ => rfl⟩

theorem SameMaps.trans {reg'' : NqRegulator} (h : SameMaps reg reg') (h' : SameMaps reg' reg'') :
    SameMaps reg reg'' :=
  ⟨h'.nsqMaps.trans h.nsqMaps, fun nqid => (h'.mask nqid).trans (h.mask nqid)⟩

theorem SameMaps.setGroup (reg : NqRegulator) (prio : Nat) (group : NqGroup) :
    SameMaps reg (reg.setGroup prio group) := ⟨rfl, fun _ => rfl⟩

theorem SameMaps.setEnq {nqid : Nat} {enq : ExposedNq}
    (h : enq.ensq.claimedCoreCpumask = (reg.enqs nqid).ensq.claimedCoreCpumask) :
    SameMaps reg (reg.setEnq nqid enq) where
  nsqMaps := rfl
  mask := NqRegulator.setEnq_forall (P := fun n enq =>
    enq.ensq.claimedCoreCpumask = (reg.enqs n).ensq.claimedCoreCpumask) h fun _ _ => rfl

theorem clearOldTop_mask (type : NqType) (merit : Int) (enq : ExposedNq) :
    (clearOldTop type merit enq).ensq.claimedCoreCpumask = enq.ensq.claimedCoreCpumask := by
  cases type <;> rfl

/-- An update counts the age of the array down, or it moves the old top down the heap and clears
its statistics if another queue comes up. -/
theorem updatePriorityArray_cases {arr arr' : NqPriorityArray} {mru forceMerit : Int}
    {type : NqType}
    (h_upd : blkBlexUpdatePriorityArray env reg arr mru forceMerit type = some (reg', arr')) :
    0 < Word32.signed (arr.mru - mru) ∧ reg' = reg ∧
        arr' = { arr with mru := Word32.signed (arr.mru - mru) } ∨
      ¬ 0 < Word32.signed (arr.mru - mru) ∧ ∃ old merit heap top,
        reg.enq? arr.topNq = some old ∧ blkBlexCalcSchedMerit env type old = some merit ∧
        BinaryHeap.siftDown (reg.meritOf env type) arr.nqCount
          (if forceMerit = blexSchedMeritInf then blexSchedMeritInf
            else Word32.signed (merit + forceMerit)) arr.nqCount 0 arr.binHeap = some heap ∧
        heap[0]? = some top ∧
        (top ≠ old.nqid ∧ reg' = reg.setEnq arr.topNq (clearOldTop type merit old) ∧
            arr' = { arr with binHeap := heap, topNq := top, mru := env.prioArrMru } ∨
          top = old.nqid ∧ reg' = reg ∧
            arr' = { arr with binHeap := heap, mru := env.prioArrMru }) := by
  unfold blkBlexUpdatePriorityArray at h_upd
  split at h_upd
  case isTrue h_young =>
    cases h_upd
    exact .inl ⟨h_young, rfl, rfl⟩
  case isFalse h_aged =>
    simp only [Option.bind_eq_bind, Option.bind_eq_some_iff] at h_upd
    obtain ⟨old, h_old, merit, h_merit, heap, h_sift, top, h_top, h_upd⟩ := h_upd
    refine .inr ⟨h_aged, old, merit, heap, top, h_old, h_merit, h_sift, h_top, ?_⟩
    split at h_upd
    case isTrue h_new =>
      cases h_upd
      exact .inl ⟨h_new, rfl, rfl⟩
    case isFalse h_same =>
      cases h_upd
      exact .inr ⟨not_not.mp h_same, rfl, rfl⟩

/-- An update permutes the array and touches only the statistics of its old top. -/
theorem updatePriorityArray_spec (h : RegWf L reg) {arr arr' : NqPriorityArray} {nqs : List Nat}
    (h_over : arr.Over nqs) {mru forceMerit : Int} {type : NqType}
    (h_upd : blkBlexUpdatePriorityArray env reg arr mru forceMerit type = some (reg', arr')) :
    RegWf L reg' ∧ arr'.Over nqs ∧ SameMaps reg reg' := by
  rcases updatePriorityArray_cases h_upd with
    ⟨-, rfl, rfl⟩ | ⟨-, old, merit, heap, top, h_old, -, h_sift, h_top, h_new⟩
  · -- the array does not age out yet
    exact ⟨h, ⟨h_over.perm, h_over.top, h_over.count⟩, .refl _⟩
  · obtain ⟨-, -, rfl, h_oldWf⟩ := h.enq?_some h_old
    have h_perm : heap.Perm nqs := (BinaryHeap.siftDown_perm h_sift).trans h_over.perm
    rw [← List.head?_eq_getElem?] at h_top
    -- either way the new heap has `top` as its head: a new one, or the one it had
    rcases h_new with ⟨-, rfl, rfl⟩ | ⟨h_same, rfl, rfl⟩
    · exact ⟨h.setEnq (h_oldWf.clearOldTop type merit), ⟨h_perm, h_top, h_over.count⟩,
        .setEnq (clearOldTop_mask _ _ _)⟩
    · rw [h_same, h_oldWf.nqid_eq] at h_top
      exact ⟨h, ⟨h_perm, h_top, h_over.count⟩, .refl _⟩

theorem updateGroupArr_spec (h : RegWf L reg) {prio : Nat} {mru forceMerit : Int}
    (h_upd : updateGroupArr env reg prio mru forceMerit = some reg') :
    RegWf L reg' ∧ SameMaps reg reg' := by
  simp only [updateGroupArr, Option.bind_eq_bind, Option.bind_eq_some_iff, Option.some.injEq]
    at h_upd
  obtain ⟨group, h_group, ⟨reg₁, arr⟩, h_arr, rfl⟩ := h_upd
  obtain ⟨h_prio, rfl⟩ := group?_some h_group
  have h_groupWf := h.group prio h_prio
  obtain ⟨h₁, h_over, h_maps⟩ := updatePriorityArray_spec h h_groupWf.prioArr h_arr
  refine ⟨h₁.setGroup ?_, h_maps.trans (.setGroup _ _ _)⟩
  exact ⟨h_groupWf.prio_eq, h_groupWf.nrNcqs_eq, h_groupWf.ncqStart_eq, h_groupWf.nrAttachNsqs_eq,
    h_over⟩

/-- The array of an NCQ that has other queues attached. -/
theorem updateNcqArr_spec (h : RegWf L reg) {cqid : Nat} {mru forceMerit : Int}
    (h_size : blkBlexGetCqNrNsqs cqid L.maxNqid L.nrCqs ≠ 1)
    (h_ne : 0 < blkBlexGetCqNrNsqs cqid L.maxNqid L.nrCqs)
    (h_upd : updateNcqArr env reg cqid mru forceMerit = some reg') :
    RegWf L reg' ∧ SameMaps reg reg' := by
  simp only [updateNcqArr, Option.bind_eq_bind, Option.bind_eq_some_iff, Option.some.injEq]
    at h_upd
  obtain ⟨ncq, h_ncq, encq, h_encq, ⟨reg₁, arr⟩, h_arr, rfl⟩ := h_upd
  obtain ⟨h_pos, h_le, rfl, h_ncqWf⟩ := h.enq?_some h_ncq
  have h_encqWf := h_ncqWf.encq encq h_encq
  have h_many : 1 < encq.nrAttachedNsqs := by
    rw [h_encqWf.nrAttachedNsqs_eq]
    omega
  obtain ⟨h₁, h_over, h_maps⟩ := updatePriorityArray_spec h (h_encqWf.prioArr h_many) h_arr
  refine ⟨h₁.setEnq ((h₁.enq cqid h_pos h_le).mapEncq _ ?_), h_maps.trans (.setEnq rfl)⟩
  exact fun _ h_encq => ⟨h_encq.cqid_eq, h_encq.nrAttachedNsqs_eq, fun _ => h_over⟩

/-- The top NCQ of a group, with everything the layout says about it. -/
theorem RegWf.topNcq (h : RegWf L reg) (h_groups : 2 ≤ L.nrCqs) {prio : Nat}
    (h_prio : prio < blkBlexPrioLevel) :
    ∃ k < L.nrCqs, (reg.nqGroups prio).prioArr.topNq = L.kthCqid k ∧
      ∀ nqid ∈ L.attached (L.kthCqid k), L.prioOf nqid = prio := by
  have h_mem := (h.group prio h_prio).prioArr.topNq_mem
  obtain ⟨k, hk, h_top, h_attached⟩ := L.groupNcqs_spec h_groups h_prio h_mem
  rw [h_top] at h_attached
  exact ⟨k, hk, h_top, h_attached⟩

/-- A recommendation ages the array of the group, and that of its top NCQ if this one has other
queues attached. -/
theorem recommendNsq_cases {prio nqid : Nat} {roundRobin : Bool} {ncqMru nsqMru : Int}
    (h_rec : blkBlexRecommendNsq env reg prio roundRobin ncqMru nsqMru = some (reg', nqid)) :
    prio < blkBlexPrioLevel ∧ ∃ reg₁ ncq encq,
      updateGroupArr env reg prio (if roundRobin then env.prioArrMru else ncqMru)
        (if roundRobin then blexSchedMeritInf else 0) = some reg₁ ∧
      reg₁.enq? (reg.nqGroups prio).prioArr.topNq = some ncq ∧ ncq.encq = some encq ∧
      (encq.nrAttachedNsqs = 1 ∧ reg' = reg₁ ∧ nqid = (reg.nqGroups prio).prioArr.topNq ∨
        encq.nrAttachedNsqs ≠ 1 ∧ nqid = encq.prioArr.topNq ∧
          updateNcqArr env reg₁ (reg.nqGroups prio).prioArr.topNq
            (if roundRobin then env.prioArrMru else nsqMru)
            (if roundRobin then blexSchedMeritInf else 0) = some reg') := by
  simp only [blkBlexRecommendNsq, Option.bind_eq_bind, Option.bind_eq_some_iff] at h_rec
  obtain ⟨group, h_group, reg₁, h_upd, ncq, h_ncq, encq, h_encq, h_rec⟩ := h_rec
  obtain ⟨h_prio, rfl⟩ := group?_some h_group
  refine ⟨h_prio, reg₁, ncq, encq, h_upd, h_ncq, h_encq, ?_⟩
  split at h_rec
  case isTrue h_one =>
    cases h_rec
    exact .inl ⟨h_one, rfl, rfl⟩
  case isFalse h_many =>
    simp only [Option.bind_eq_some_iff, Option.some.injEq, Prod.mk.injEq] at h_rec
    obtain ⟨reg₂, h_upd₂, rfl, rfl⟩ := h_rec
    exact .inr ⟨h_many, rfl, h_upd₂⟩

/-- A recommended queue belongs to the requested group. -/
theorem recommendNsq_spec (h : RegWf L reg) (h_groups : 2 ≤ L.nrCqs) {prio nqid : Nat}
    {roundRobin : Bool} {ncqMru nsqMru : Int}
    (h_rec : blkBlexRecommendNsq env reg prio roundRobin ncqMru nsqMru = some (reg', nqid)) :
    RegWf L reg' ∧ SameMaps reg reg' ∧ 1 ≤ nqid ∧ nqid ≤ L.maxNqid ∧ L.prioOf nqid = prio := by
  obtain ⟨h_prio, reg₁, ncq, encq, h_upd, h_ncq, h_encq, h_cases⟩ := recommendNsq_cases h_rec
  obtain ⟨h₁, h_maps⟩ := updateGroupArr_spec h h_upd
  obtain ⟨k, hk, h_top, h_attached⟩ := h.topNcq h_groups h_prio
  rw [h_top] at h_ncq h_cases
  obtain ⟨-, -, rfl, h_ncqWf⟩ := h₁.enq?_some h_ncq
  have h_encqWf := h_ncqWf.encq encq h_encq
  -- an NCQ serves at least itself, so the count is `1` or the NCQ has an array
  have h_nonempty := L.onePartition.nonempty k hk
  rcases h_cases with ⟨-, rfl, rfl⟩ | ⟨h_many, rfl, h_upd₂⟩
  · -- the NCQ is the only queue attached to itself
    have h_self := L.kthCqid_mem_attached hk
    obtain ⟨h_pos, h_le⟩ := L.mem_range_of_attached hk h_self
    exact ⟨h₁, h_maps, h_pos, h_le, h_attached _ h_self⟩
  · rw [h_encqWf.nrAttachedNsqs_eq] at h_many
    obtain ⟨h₂, h_maps₂⟩ := updateNcqArr_spec h₁ h_many h_nonempty h_upd₂
    have h_size : 1 < encq.nrAttachedNsqs := by
      rw [h_encqWf.nrAttachedNsqs_eq]
      omega
    have h_mem := L.mem_nsqsOf.mp (h_encqWf.prioArr h_size).topNq_mem
    obtain ⟨h_pos, h_le⟩ := L.mem_range_of_attached hk h_mem
    exact ⟨h₂, h_maps.trans h_maps₂, h_pos, h_le, h_attached _ h_mem⟩

end Sched

end Daredevil
