/-
  Daredevil.Sched.HeapOrder

  The order of a priority array under `blk_blex_update_priority_array`.

  The loop sinks the old top under `used_merit`, and compares it with the merits of the
  other queues.  From a heap that is in order below its root it leaves one that is in
  order (`updatePriorityArray_restoresHeap`).

  That order is one under the merits of the call.  The old top's statistics are cleared
  behind it, and the next call computes `merit_last - merit_last * alpha` from the merit
  that it was given (`decayedMerit`).  A top that has sunk past a queue with the same
  merit is then above it with a lesser one: `updatePriorityArray_composes_iff` says when
  the heap is still in order.
-/
import Daredevil.Lib.HeapOrder
import Daredevil.Sched.Merit
import Daredevil.Sched.RoundRobin

namespace Daredevil

namespace Sched

open BinaryHeap (Ordered OrderedAt Sinks lesserPath)

variable {L : QueueLayout} {reg reg' : NqRegulator} {env : Env} {type : NqType}
  {arr arr' : NqPriorityArray} {mru forceMerit merit : Int}

/-! ## Keys -/

/-- The merit of a queue that has one. -/
def NqRegulator.meritKey (reg : NqRegulator) (env : Env) (type : NqType) (nqid : Nat) : Int :=
  (reg.meritOf env type nqid).getD 0

/-- `used_merit` -/
def usedMerit (merit forceMerit : Int) : Int :=
  if forceMerit = blexSchedMeritInf then blexSchedMeritInf else Word32.signed (merit + forceMerit)

/-- The merits, but for the old top, which counts with `used`. -/
def NqRegulator.sunkKey (reg : NqRegulator) (env : Env) (type : NqType) (oldTop : Nat)
    (used : Int) : Nat → Int :=
  Function.update (reg.meritKey env type) oldTop used

/-- A priority array of which every queue has a merit. -/
structure NqPriorityArray.Scored (env : Env) (reg : NqRegulator) (type : NqType)
    (arr : NqPriorityArray) : Prop where
  nodup : arr.binHeap.Nodup
  top : arr.binHeap.head? = some arr.topNq
  count : arr.nqCount = arr.binHeap.length
  nqid_eq : (reg.enqs arr.topNq).nqid = arr.topNq
  merit : ∀ nqid ∈ arr.binHeap, (reg.meritOf env type nqid).isSome

instance : Decidable (arr.Scored env reg type) :=
  decidable_of_iff
    (arr.binHeap.Nodup ∧ arr.binHeap.head? = some arr.topNq ∧
      arr.nqCount = arr.binHeap.length ∧ (reg.enqs arr.topNq).nqid = arr.topNq ∧
      ∀ nqid ∈ arr.binHeap, (reg.meritOf env type nqid).isSome)
    (Iff.intro (fun h => ⟨h.1, h.2.1, h.2.2.1, h.2.2.2.1, h.2.2.2.2⟩)
      (fun h => ⟨h.nodup, h.top, h.count, h.nqid_eq, h.merit⟩))

theorem meritKey_eq {nqid : Nat} (h : reg.meritOf env type nqid = some merit) :
    reg.meritKey env type nqid = merit := by
  rw [NqRegulator.meritKey, h, Option.getD_some]

/-- Without a forced merit the old top counts with its own. -/
theorem usedMerit_zero {nqid : Nat} (h : reg.meritOf env type nqid = some merit) :
    usedMerit merit 0 = merit := by
  obtain ⟨enq, -, h_merit⟩ := Option.bind_eq_some_iff.mp h
  rw [usedMerit, if_neg (by decide), Int.add_zero]
  exact calcSchedMerit_signed h_merit

namespace NqPriorityArray.Scored

variable (h : arr.Scored env reg type)
include h

theorem first : arr.binHeap[0]? = some arr.topNq := by
  rw [← List.head?_eq_getElem?]
  exact h.top

theorem topNq_mem : arr.topNq ∈ arr.binHeap := List.mem_of_getElem? h.first

theorem meritOf_eq {nqid : Nat} (h_mem : nqid ∈ arr.binHeap) :
    reg.meritOf env type nqid = some (reg.meritKey env type nqid) := by
  obtain ⟨m, h_m⟩ := Option.isSome_iff_exists.mp (h.merit nqid h_mem)
  rw [h_m, meritKey_eq h_m]

theorem pos : 0 < arr.binHeap.length := List.length_pos_of_mem h.topNq_mem

/-- The loop starts from the root, with its key replaced. -/
theorem sinks (used : Int) (h_order : OrderedAt (reg.meritKey env type) (· ≠ 0) arr.binHeap) :
    Sinks (reg.meritOf env type) (reg.sunkKey env type arr.topNq used) arr.nqCount arr.topNq 0
      arr.binHeap where
  length := h.count.symm
  nodup := h.nodup
  here := h.first
  keyed nqid h_mem h_ne := by
    rw [NqRegulator.sunkKey, Function.update_of_ne h_ne]
    exact h.meritOf_eq h_mem
  order := by
    constructor
    · intro p c x y h_p h_child h_x h_y
      -- the top is the first item and no other
      have h_else {n nqid : Nat} (h_n : arr.binHeap[n]? = some nqid) (h_ne : n ≠ 0) :
          nqid ≠ arr.topNq := BinaryHeap.ne_of_getElem? h.nodup h.first h_n h_ne
      have h_c : c ≠ 0 := Nat.ne_of_gt (Nat.zero_lt_of_lt h_child.lt)
      rw [NqRegulator.sunkKey, Function.update_of_ne (h_else h_x h_p),
        Function.update_of_ne (h_else h_y h_c)]
      exact h_order p c x y h_p h_child h_x h_y
    · intro p c x y h_p
      exact absurd h_p.lt (Nat.not_lt_zero p)

theorem enq?_topNq : ∃ enq, reg.enq? arr.topNq = some enq ∧ enq = reg.enqs arr.topNq ∧
    blkBlexCalcSchedMerit env type enq = some (reg.meritKey env type arr.topNq) := by
  obtain ⟨enq, h_enq, h_merit⟩ := Option.bind_eq_some_iff.mp (h.meritOf_eq h.topNq_mem)
  exact ⟨enq, h_enq, enq?_eq_enqs h_enq, h_merit⟩

/-- An update that runs its critical section. -/
theorem update_eq (mru forceMerit : Int) (h_runs : Word32.signed (arr.mru - mru) ≤ 0) :
    ∃ heap top,
      BinaryHeap.siftDown (reg.meritOf env type) arr.nqCount
        (usedMerit (reg.meritKey env type arr.topNq) forceMerit) arr.nqCount 0 arr.binHeap =
          some heap ∧
      heap[0]? = some top ∧
      blkBlexUpdatePriorityArray env reg arr mru forceMerit type =
        some (if top ≠ arr.topNq then
            reg.setEnq arr.topNq (clearOldTop type (reg.meritKey env type arr.topNq)
              (reg.enqs arr.topNq))
          else reg,
          { arr with binHeap := heap, topNq := top, mru := env.prioArrMru }) := by
  obtain ⟨enq, h_enq, rfl, h_merit⟩ := h.enq?_topNq
  obtain ⟨heap, h_heap⟩ := BinaryHeap.siftDown_isSome (reg.meritOf env type)
    (usedMerit (reg.meritKey env type arr.topNq) forceMerit) h.count.symm
    (fun nqid h_mem => by rw [h.meritOf_eq h_mem, Option.isSome_some]) arr.nqCount 0
  have h_first : 0 < heap.length := by
    rw [(BinaryHeap.siftDown_perm h_heap).length_eq]
    exact h.pos
  refine ⟨heap, heap[0], h_heap, List.getElem?_eq_getElem h_first, ?_⟩
  rw [blkBlexUpdatePriorityArray, if_neg (Int.not_lt.mpr h_runs), h_enq]
  simp only [Option.bind_eq_bind, Option.bind_some, h_merit]
  rw [show (if forceMerit = blexSchedMeritInf then blexSchedMeritInf
      else Word32.signed (reg.meritKey env type arr.topNq + forceMerit)) =
    usedMerit (reg.meritKey env type arr.topNq) forceMerit from rfl, h_heap]
  simp only [Option.bind_some, List.getElem?_eq_getElem h_first, h.nqid_eq]
  -- an old top that stays is not cleared, and `top_nq` is not written
  by_cases h_top : heap[0] = arr.topNq
  · rw [if_neg (not_not.mpr h_top), if_neg (not_not.mpr h_top), h_top]
  · rw [if_pos h_top, if_pos h_top]

end NqPriorityArray.Scored

/-- The sift-down restores the heap. -/
theorem updatePriorityArray_restoresHeap (h : arr.Scored env reg type)
    (h_order : OrderedAt (reg.meritKey env type) (· ≠ 0) arr.binHeap)
    (h_runs : Word32.signed (arr.mru - mru) ≤ 0) :
    ∃ merit reg' arr', reg.meritOf env type arr.topNq = some merit ∧
      blkBlexUpdatePriorityArray env reg arr mru forceMerit type = some (reg', arr') ∧
      (forceMerit = 0 → usedMerit merit forceMerit = merit) ∧
      arr'.binHeap.Perm arr.binHeap ∧ arr'.binHeap.head? = some arr'.topNq ∧
      Ordered (reg.sunkKey env type arr.topNq (usedMerit merit forceMerit)) arr'.binHeap ∧
      ∀ nqid ∈ arr'.binHeap,
        reg.sunkKey env type arr.topNq (usedMerit merit forceMerit) arr'.topNq ≤
          reg.sunkKey env type arr.topNq (usedMerit merit forceMerit) nqid := by
  have h_merit := h.meritOf_eq h.topNq_mem
  obtain ⟨heap, top, h_heap, h_first, h_upd⟩ := h.update_eq mru forceMerit h_runs
  -- the old top counts with the used merit, and the others with their own
  have h_ordered := BinaryHeap.siftDown_ordered
    (h.sinks (usedMerit (reg.meritKey env type arr.topNq) forceMerit) h_order)
    (Nat.le_of_eq (Nat.zero_add _).symm) (by
      rw [NqRegulator.sunkKey, Function.update_self]
      exact h_heap)
  refine ⟨_, _, _, h_merit, h_upd, ?_, BinaryHeap.siftDown_perm h_heap, ?_, h_ordered, ?_⟩
  · rintro rfl
    exact usedMerit_zero h_merit
  · rw [List.head?_eq_getElem?]
    exact h_first
  · intro nqid h_mem
    obtain ⟨n, h_n⟩ := List.mem_iff_getElem?.mp h_mem
    exact h_ordered.root_le h_first n h_n

/-- The L group of five queues, whose NCQs `3`, `4` and `5` have completed requests. -/
def completedNqs (a b c : Nat) : Option NqRegulator := do
  let reg ← regulatorInit (.default 4) fiveNqs.toBlkBlexDevInfo fun _ => 64
  Lts.run (nqStep (.default 4)) reg
    [.statistics 3 ⟨0, 0, 0, a, 0⟩ ∅, .statistics 4 ⟨0, 0, 0, b, 0⟩ ∅,
      .statistics 5 ⟨0, 0, 0, c, 0⟩ ∅]

/-- The loaded top `3` sinks below `5`. -/
theorem updatePriorityArray_restoresHeap_loaded :
    ∃ reg, completedNqs 100 50 20 = some reg ∧
      ∃ merit reg' arr', reg.meritOf (.default 4) .ncq (reg.nqGroups 1).prioArr.topNq = some merit ∧
        blkBlexUpdatePriorityArray (.default 4) reg (reg.nqGroups 1).prioArr 4 0 .ncq =
          some (reg', arr') ∧
        ((0 : Int) = 0 → usedMerit merit 0 = merit) ∧
        arr'.binHeap.Perm (reg.nqGroups 1).prioArr.binHeap ∧
        arr'.binHeap.head? = some arr'.topNq ∧
        Ordered (reg.sunkKey (.default 4) .ncq (reg.nqGroups 1).prioArr.topNq (usedMerit merit 0))
          arr'.binHeap ∧
        ∀ nqid ∈ arr'.binHeap,
          reg.sunkKey (.default 4) .ncq (reg.nqGroups 1).prioArr.topNq (usedMerit merit 0)
              arr'.topNq ≤
            reg.sunkKey (.default 4) .ncq (reg.nqGroups 1).prioArr.topNq (usedMerit merit 0)
              nqid := by
  have h_any : (completedNqs 100 50 20).any (fun reg => decide
      ((reg.nqGroups 1).prioArr.Scored (.default 4) reg .ncq ∧
        OrderedAt (reg.meritKey (.default 4) .ncq) (· ≠ 0) (reg.nqGroups 1).prioArr.binHeap ∧
        Word32.signed ((reg.nqGroups 1).prioArr.mru - 4) ≤ 0)) = true := by
    decide +kernel
  obtain ⟨reg, h_reg, h_dec⟩ := (Option.any_eq_true _ _).mp h_any
  obtain ⟨h_scored, h_order, h_runs⟩ := of_decide_eq_true h_dec
  exact ⟨reg, h_reg, updatePriorityArray_restoresHeap h_scored h_order h_runs⟩

/-! ## The next call -/

/-- The queues on the way that the old top can sink along. -/
def NqPriorityArray.wayDown (env : Env) (reg : NqRegulator) (type : NqType)
    (arr : NqPriorityArray) : List Nat :=
  lesserPath (reg.meritOf env type) arr.nqCount arr.binHeap arr.nqCount 0

/-- If the old top ties with a queue on its way down, its next merit is not below theirs, and
not above that of the queues on the way that it does not pass. -/
def NqPriorityArray.DecayFits (env : Env) (reg : NqRegulator) (type : NqType)
    (arr : NqPriorityArray) : Prop :=
  (∃ nqid ∈ arr.wayDown env reg type,
      reg.meritKey env type nqid = reg.meritKey env type arr.topNq) →
    reg.meritKey env type arr.topNq ≤ decayedMerit env (reg.meritKey env type arr.topNq) ∧
    ∀ nqid ∈ arr.wayDown env reg type,
      reg.meritKey env type arr.topNq < reg.meritKey env type nqid →
        decayedMerit env (reg.meritKey env type arr.topNq) ≤ reg.meritKey env type nqid

/-- Clearing the old top only changes its own merit. -/
theorem meritKey_clearOldTop {enq : ExposedNq} {oldTop : Nat} {m : Int}
    (h_enq : reg.enq? oldTop = some enq) (h_merit : blkBlexCalcSchedMerit env type enq = some m) :
    (reg.setEnq oldTop (clearOldTop type m (reg.enqs oldTop))).meritKey env type =
      reg.sunkKey env type oldTop (decayedMerit env m) := by
  have h_range : 1 ≤ oldTop ∧ oldTop ≤ reg.blexInfo.maxNqid := by
    by_contra h_not
    rw [NqRegulator.enq?, if_neg h_not] at h_enq
    cases h_enq
  funext nqid
  by_cases h_eq : nqid = oldTop
  · -- the statistics of the old top are cleared, so only its stored merit counts
    subst h_eq
    rw [NqRegulator.sunkKey, Function.update_self]
    apply meritKey_eq
    rw [NqRegulator.meritOf, NqRegulator.enq?, NqRegulator.enqs_setEnq_self,
      ← enq?_eq_enqs h_enq]
    exact (congrArg (Option.bind · _) (if_pos h_range)).trans (calcSchedMerit_clearOldTop h_merit)
  · rw [NqRegulator.sunkKey, Function.update_of_ne h_eq, NqRegulator.meritKey,
      NqRegulator.meritKey, NqRegulator.meritOf, NqRegulator.meritOf, NqRegulator.enq?,
      NqRegulator.enq?, NqRegulator.enqs_setEnq_ne reg _ h_eq]
    rfl

namespace NqPriorityArray.Scored

variable (h : arr.Scored env reg type) (h_order : Ordered (reg.meritKey env type) arr.binHeap)
include h h_order

/-- The loop of a call without a forced merit. -/
theorem sinks_self : Sinks (reg.meritOf env type) (reg.meritKey env type) arr.nqCount arr.topNq 0
    arr.binHeap := by
  have h_sinks := h.sinks (reg.meritKey env type arr.topNq)
    fun p c x y _ => h_order p c x y trivial
  rwa [NqRegulator.sunkKey, Function.update_eq_self] at h_sinks

/-- In a heap in order nothing is below the top, so it passes what it ties with. -/
theorem wayDown_ge {nqid : Nat} (h_mem : nqid ∈ arr.wayDown env reg type) :
    reg.meritKey env type arr.topNq ≤ reg.meritKey env type nqid := by
  refine BinaryHeap.lesserPath_ge h.count.symm ?_ ?_ h.first nqid h_mem
  · exact fun p c x y _ => h_order p c x y trivial
  · exact fun p c y _ _ h_y => h.meritOf_eq (List.mem_of_getElem? h_y)

/-- It stays on top unless it ties with a queue on its way down. -/
theorem stays_iff {heap : List Nat}
    (h_heap : BinaryHeap.siftDown (reg.meritOf env type) arr.nqCount
      (reg.meritKey env type arr.topNq) arr.nqCount 0 arr.binHeap = some heap) :
    heap[0]? = some arr.topNq ↔ ¬ ∃ nqid ∈ arr.wayDown env reg type,
      reg.meritKey env type nqid = reg.meritKey env type arr.topNq := by
  rw [BinaryHeap.siftDown_stays_iff (h.sinks_self h_order) (Nat.le_of_eq (Nat.zero_add _).symm)
    h_heap]
  constructor
  · rintro h_all ⟨nqid, h_mem, h_eq⟩
    exact absurd h_eq (Int.ne_of_gt (h_all nqid h_mem))
  · intro h_none nqid h_mem
    have h_ge := h.wayDown_ge h_order h_mem
    exact lt_of_le_of_ne h_ge fun h_eq => h_none ⟨nqid, h_mem, h_eq.symm⟩

/-- The merits after the old top has sunk and was cleared. -/
theorem ordered_cleared_iff {heap : List Nat}
    (h_heap : BinaryHeap.siftDown (reg.meritOf env type) arr.nqCount
      (reg.meritKey env type arr.topNq) arr.nqCount 0 arr.binHeap = some heap)
    (h_ties : ∃ nqid ∈ arr.wayDown env reg type,
      reg.meritKey env type nqid = reg.meritKey env type arr.topNq) :
    Ordered (reg.sunkKey env type arr.topNq
        (decayedMerit env (reg.meritKey env type arr.topNq))) heap ↔
      arr.DecayFits env reg type := by
  have h_self {d : Int} : reg.sunkKey env type arr.topNq d arr.topNq = d :=
    Function.update_self _ _ _
  rw [BinaryHeap.siftDown_rekeyed_iff (h.sinks_self h_order)
    (Nat.le_of_eq (Nat.zero_add _).symm) (fun nqid h_ne => Function.update_of_ne h_ne _ _) h_heap,
    h_self]
  obtain ⟨tied, h_tied, h_eq⟩ := h_ties
  -- what is passed on the way ties with the old top, so its next merit must not fall below that
  constructor
  · rintro ⟨-, h_passed, h_not⟩ -
    have h_le := h_passed tied h_tied (Int.le_of_eq h_eq)
    rw [h_eq] at h_le
    exact ⟨h_le, h_not⟩
  · intro h_fits
    obtain ⟨h_le, h_not⟩ := h_fits ⟨tied, h_tied, h_eq⟩
    refine ⟨fun p x h_p => absurd h_p.lt (Nat.not_lt_zero p), fun nqid _ h_nqid => ?_, h_not⟩
    exact h_nqid.trans h_le

end NqPriorityArray.Scored

/-- The order survives an update exactly if the decay of the old top fits. -/
theorem updatePriorityArray_composes_iff (h : arr.Scored env reg type)
    (h_order : Ordered (reg.meritKey env type) arr.binHeap) (mru : Int) :
    ∃ reg' arr', blkBlexUpdatePriorityArray env reg arr mru 0 type = some (reg', arr') ∧
      (Ordered (reg'.meritKey env type) arr'.binHeap ↔
        (Word32.signed (arr.mru - mru) ≤ 0 → arr.DecayFits env reg type)) := by
  by_cases h_runs : Word32.signed (arr.mru - mru) ≤ 0
  · obtain ⟨heap, top, h_heap, h_first, h_upd⟩ := h.update_eq mru 0 h_runs
    rw [usedMerit_zero (h.meritOf_eq h.topNq_mem)] at h_heap
    refine ⟨_, _, h_upd, ?_⟩
    rw [imp_iff_right h_runs]
    have h_stays := h.stays_iff h_order h_heap
    rw [h_first, Option.some.injEq] at h_stays
    by_cases h_top : top = arr.topNq
    · -- the top stays, with its statistics
      rw [if_neg (not_not.mpr h_top)]
      have h_ordered := BinaryHeap.siftDown_ordered (h.sinks_self h_order)
        (Nat.le_of_eq (Nat.zero_add _).symm) h_heap
      exact iff_of_true h_ordered fun h_ties => absurd h_ties (h_stays.mp h_top)
    · -- another queue comes up: the old top has a tie on its way, and is cleared
      rw [if_pos h_top]
      obtain ⟨enq, h_enq, -, h_merit⟩ := h.enq?_topNq
      rw [meritKey_clearOldTop h_enq h_merit]
      exact h.ordered_cleared_iff h_order h_heap (not_not.mp (mt h_stays.mpr h_top))
  · -- the array is too young, and only its age changes
    refine ⟨_, _, if_pos (Int.not_le.mp h_runs), ?_⟩
    exact iff_of_true h_order fun h_le => absurd h_le h_runs

/-- The top `3` ties with `4`, and sinks below it. -/
theorem updatePriorityArray_composes_iff_tied :
    ∃ reg, completedNqs 100 100 200 = some reg ∧
      ∃ reg' arr',
        blkBlexUpdatePriorityArray (.default 4) reg (reg.nqGroups 1).prioArr 4 0 .ncq =
          some (reg', arr') ∧
        (Ordered (reg'.meritKey (.default 4) .ncq) arr'.binHeap ↔
          (Word32.signed ((reg.nqGroups 1).prioArr.mru - 4) ≤ 0 →
            (reg.nqGroups 1).prioArr.DecayFits (.default 4) reg .ncq)) := by
  have h_any : (completedNqs 100 100 200).any (fun reg => decide
      ((reg.nqGroups 1).prioArr.Scored (.default 4) reg .ncq ∧
        Ordered (reg.meritKey (.default 4) .ncq) (reg.nqGroups 1).prioArr.binHeap)) = true := by
    decide +kernel
  obtain ⟨reg, h_reg, h_dec⟩ := (Option.any_eq_true _ _).mp h_any
  obtain ⟨h_scored, h_order⟩ := of_decide_eq_true h_dec
  exact ⟨reg, h_reg, updatePriorityArray_composes_iff h_scored h_order 4⟩

/-- There its merit falls from `80` to `16`, below that of its new parent. -/
theorem updatePriorityArray_losesOrder :
    ∃ reg, completedNqs 100 100 200 = some reg ∧
      (reg.nqGroups 1).prioArr.Scored (.default 4) reg .ncq ∧
      Ordered (reg.meritKey (.default 4) .ncq) (reg.nqGroups 1).prioArr.binHeap ∧
      ∃ reg' arr',
        blkBlexUpdatePriorityArray (.default 4) reg (reg.nqGroups 1).prioArr 4 0 .ncq =
          some (reg', arr') ∧
        arr'.binHeap = [4, 3, 5] ∧
        arr'.binHeap.map (reg'.meritKey (.default 4) .ncq) = [80, 16, 160] ∧
        ¬ Ordered (reg'.meritKey (.default 4) .ncq) arr'.binHeap := by
  have h_any : (completedNqs 100 100 200).any (fun reg => decide
      ((reg.nqGroups 1).prioArr.Scored (.default 4) reg .ncq ∧
        Ordered (reg.meritKey (.default 4) .ncq) (reg.nqGroups 1).prioArr.binHeap) &&
      (blkBlexUpdatePriorityArray (.default 4) reg (reg.nqGroups 1).prioArr 4 0 .ncq).any
        fun r => decide (r.2.binHeap = [4, 3, 5] ∧
          r.2.binHeap.map (r.1.meritKey (.default 4) .ncq) = [80, 16, 160] ∧
          ¬ Ordered (r.1.meritKey (.default 4) .ncq) r.2.binHeap)) = true := by
    decide +kernel
  obtain ⟨reg, h_reg, h_dec⟩ := (Option.any_eq_true _ _).mp h_any
  obtain ⟨h_before, h_after⟩ := Bool.and_eq_true_iff.mp h_dec
  obtain ⟨⟨reg', arr'⟩, h_upd, h_after⟩ := (Option.any_eq_true _ _).mp h_after
  obtain ⟨h_scored, h_order⟩ := of_decide_eq_true h_before
  exact ⟨reg, h_reg, h_scored, h_order, reg', arr', h_upd, of_decide_eq_true h_after⟩

/-- Where nothing wraps: no tie on the way down, or a merit of which the share is zero. -/
theorem decayFits_iff (h_numer : 0 < env.meritAlphaNumer)
    (h_denom : env.meritAlphaNumer ≤ env.meritAlphaDenom)
    (h_nonneg : 0 ≤ reg.meritKey env type arr.topNq)
    (h_fits : reg.meritKey env type arr.topNq * env.meritAlphaNumer < 2147483648) :
    arr.DecayFits env reg type ↔
      ((∃ nqid ∈ arr.wayDown env reg type,
          reg.meritKey env type nqid = reg.meritKey env type arr.topNq) →
        reg.meritKey env type arr.topNq * env.meritAlphaNumer < env.meritAlphaDenom) := by
  rw [NqPriorityArray.DecayFits, decayedMerit_eq h_numer h_denom h_nonneg h_fits]
  have h_bounds := share_bounds h_numer h_denom h_nonneg
  -- the merit does not fall exactly if its share rounds to zero
  have h_zero : reg.meritKey env type arr.topNq * env.meritAlphaNumer / env.meritAlphaDenom < 1 ↔
      reg.meritKey env type arr.topNq * env.meritAlphaNumer < env.meritAlphaDenom := by
    rw [Int.ediv_lt_iff_lt_mul (by omega), Int.one_mul]
  rw [← h_zero]
  apply imp_congr_right
  intro _
  -- it never rises, so the bound from above holds anyway
  constructor
  · rintro ⟨h_le, -⟩
    omega
  · intro h_lt
    refine ⟨by omega, fun nqid _ h_above => by omega⟩

/-! ## The arrays of a regulator -/

/-- An array of a regulator that works has a merit for each of its queues. -/
theorem RegWf.scored (h : RegWf L reg) (h_div : Divides env L reg) {nqs : List Nat}
    (h_over : arr.Over nqs) (h_nodup : nqs.Nodup)
    (h_range : ∀ nqid ∈ nqs, 1 ≤ nqid ∧ nqid ≤ L.maxNqid)
    (h_type : type = .ncq → ∀ nqid ∈ nqs, (reg.enqs nqid).encq.isSome) :
    arr.Scored env reg type where
  nodup := h_over.perm.nodup_iff.mpr h_nodup
  top := h_over.top
  count := h_over.count.trans h_over.perm.length_eq.symm
  nqid_eq := by
    obtain ⟨h_pos, h_le⟩ := h_range _ h_over.topNq_mem
    exact (h.enq _ h_pos h_le).nqid_eq
  merit nqid h_mem := by
    have h_nqs := h_over.perm.mem_iff.mp h_mem
    obtain ⟨h_pos, h_le⟩ := h_range nqid h_nqs
    rw [NqRegulator.meritOf, h.enq?_eq h_pos h_le]
    exact Option.isSome_iff_exists.mpr
      (calcSchedMerit_isSome h_div type h_pos h_le fun h_ncq => h_type h_ncq nqid h_nqs)

theorem RegWf.scored_group (h : RegWf L reg) (h_groups : 2 ≤ L.nrCqs) (h_div : Divides env L reg)
    {prio : Nat} (h_prio : prio < blkBlexPrioLevel) :
    (reg.nqGroups prio).prioArr.Scored env reg .ncq := by
  apply h.scored h_div (h.group prio h_prio).prioArr (L.groupNcqs_nodup h_groups h_prio)
  · intro nqid h_mem
    obtain ⟨h_pos, h_le, -⟩ := groupNcqs_range h_groups h_prio h_mem
    exact ⟨h_pos, h_le⟩
  · intro _ nqid h_mem
    obtain ⟨h_pos, h_le, h_has⟩ := groupNcqs_range h_groups h_prio h_mem
    rw [(h.enq nqid h_pos h_le).hasCq, h_has]

theorem RegWf.scored_ncq (h : RegWf L reg) (h_div : Divides env L reg) {k : Nat}
    (hk : k < L.nrCqs) {encq : EnqNcq} (h_encq : (reg.enqs (L.kthCqid k)).encq = some encq)
    (h_many : 1 < encq.nrAttachedNsqs) : encq.prioArr.Scored env reg .nsq := by
  obtain ⟨h_pos, h_le⟩ := L.mem_range_of_attached hk (L.kthCqid_mem_attached hk)
  have h_encqWf := (h.enq _ h_pos h_le).encq encq h_encq
  apply h.scored h_div (h_encqWf.prioArr h_many) (L.nsqsOf_nodup _)
  · exact fun nqid h_mem => L.mem_range_of_attached hk (L.mem_nsqsOf.mp h_mem)
  · intro h_ncq
    cases h_ncq

end Sched

end Daredevil
