/-
  Daredevil.Sched.Recommend

  Recommendations over the life of a regulator: priority arrays are updated and
  NSQs are recommended in any order and with any arguments, while the driver
  changes the statistics that the merits are computed from.

  Whatever the merits are, an update only permutes a heap, so the two levels of
  heaps keep the queues that initialisation gave them:

    * `recommendNsq_peek`        — a recommendation is the queue that a peek finds;
    * `recommendNsq_isSome`      — it comes to an end where no division fails;
    * `recommendations_inGroup`  — in every run the recommended queue is of the
                                   group, and no heap loses or doubles a queue.
-/
import Daredevil.Sched.Consistency
import Daredevil.Sched.Route

namespace Daredevil

namespace Sched

variable {L : QueueLayout} {reg reg' : NqRegulator} {env : Env}

/-! ## Operations -/

/-- Store arbitrary statistics in an eNQ, and an arbitrary set of claiming CPUs. -/
def setStatistics (reg : NqRegulator) (nqid : Nat) (stats : NqStats) (mask : Finset Nat) :
    Option NqRegulator :=
  (setStats reg nqid stats).map fun reg => reg.setCpumask nqid mask

/-- The calls on a regulator and the changes between them. -/
inductive NqOp where
  | statistics (nqid : Nat) (stats : NqStats) (mask : Finset Nat)
  | updateGroup (prio : Nat) (mru forceMerit : Int)
  | updateNcq (cqid : Nat) (mru forceMerit : Int)
  | recommend (prio : Nat) (roundRobin : Bool) (ncqMru nsqMru : Int)

/-- An NCQ that has a priority array of its own. -/
def NqRegulator.hasNsqArr (reg : NqRegulator) (cqid : Nat) : Bool :=
  match (reg.enq? cqid).bind ExposedNq.encq with
  | some encq => decide (1 < encq.nrAttachedNsqs)
  | none => false

def nqStep (env : Env) (reg : NqRegulator) : NqOp → Option NqRegulator
  | .statistics nqid stats mask => setStatistics reg nqid stats mask
  | .updateGroup prio mru forceMerit => updateGroupArr env reg prio mru forceMerit
  -- initialisation leaves no array where an NCQ is its only NSQ
  | .updateNcq cqid mru forceMerit =>
      if reg.hasNsqArr cqid then updateNcqArr env reg cqid mru forceMerit else none
  | .recommend prio roundRobin ncqMru nsqMru =>
      (blkBlexRecommendNsq env reg prio roundRobin ncqMru nsqMru).map Prod.fst

theorem hasNsqArr_spec (h : RegWf L reg) {cqid : Nat} (h_arr : reg.hasNsqArr cqid = true) :
    1 < blkBlexGetCqNrNsqs cqid L.maxNqid L.nrCqs := by
  unfold NqRegulator.hasNsqArr at h_arr
  split at h_arr
  case h_1 encq h_encq =>
    obtain ⟨enq, h_enq, h_encq⟩ := Option.bind_eq_some_iff.mp h_encq
    obtain ⟨-, -, -, h_enqWf⟩ := h.enq?_some h_enq
    rw [← (h_enqWf.encq encq h_encq).nrAttachedNsqs_eq]
    exact of_decide_eq_true h_arr
  case h_2 => cases h_arr

theorem setStatistics_wf (h : RegWf L reg) {nqid : Nat} {stats : NqStats} {mask : Finset Nat}
    (h_set : setStatistics reg nqid stats mask = some reg') : RegWf L reg' := by
  obtain ⟨reg₁, h_stats, rfl⟩ := Option.map_eq_some_iff.mp h_set
  have h₁ := (setStats_wf h h_stats).1
  obtain ⟨enq, h_enq, -⟩ := Option.map_eq_some_iff.mp h_stats
  obtain ⟨h_pos, h_le, -, -⟩ := h.enq?_some h_enq
  exact h₁.setCpumask h_pos h_le mask

theorem nqStep_wf (h : RegWf L reg) (h_groups : 2 ≤ L.nrCqs) {op : NqOp}
    (h_step : nqStep env reg op = some reg') : RegWf L reg' := by
  cases op with
  | statistics nqid stats mask => exact setStatistics_wf h h_step
  | updateGroup prio mru forceMerit => exact (updateGroupArr_spec h h_step).1
  | updateNcq cqid mru forceMerit =>
      simp only [nqStep] at h_step
      split at h_step
      case isTrue h_arr =>
        have h_many := hasNsqArr_spec h h_arr
        exact (updateNcqArr_spec h (Nat.ne_of_gt h_many) (Nat.lt_of_succ_lt h_many) h_step).1
      case isFalse => cases h_step
  | recommend prio roundRobin ncqMru nsqMru =>
      obtain ⟨⟨reg₁, nqid⟩, h_rec, rfl⟩ := Option.map_eq_some_iff.mp h_step
      exact (recommendNsq_spec h h_groups h_rec).1

/-! ## What the arrays do to the rest of the regulator -/

/-- `R` holds across each single write that an update of an array makes. -/
structure ArraySteps (R : NqRegulator → NqRegulator → Prop) : Prop where
  refl : ∀ reg, R reg reg
  trans : ∀ {reg₁ reg₂ reg₃}, R reg₁ reg₂ → R reg₂ reg₃ → R reg₁ reg₃
  clearOldTop : ∀ (reg : NqRegulator) nqid type merit,
    R reg (reg.setEnq nqid (Sched.clearOldTop type merit (reg.enqs nqid)))
  setGroup : ∀ (reg : NqRegulator) prio group, R reg (reg.setGroup prio group)
  setNcqArr : ∀ (reg : NqRegulator) cqid arr, R reg (reg.setNcqArr cqid arr)

namespace ArraySteps

variable {R : NqRegulator → NqRegulator → Prop}

theorem updatePriorityArray (h : ArraySteps R) {arr arr' : NqPriorityArray}
    {mru forceMerit : Int} {type : NqType}
    (h_upd : blkBlexUpdatePriorityArray env reg arr mru forceMerit type = some (reg', arr')) :
    R reg reg' := by
  rcases updatePriorityArray_cases h_upd with
    ⟨-, rfl, -⟩ | ⟨-, old, merit, -, -, h_old, -, -, -, ⟨-, rfl, -⟩ | ⟨-, rfl, -⟩⟩
  · exact h.refl _
  · rw [enq?_eq_enqs h_old]
    exact h.clearOldTop _ _ _ _
  · exact h.refl _

theorem updateGroupArr (h : ArraySteps R) {prio : Nat} {mru forceMerit : Int}
    (h_upd : Sched.updateGroupArr env reg prio mru forceMerit = some reg') : R reg reg' := by
  simp only [Sched.updateGroupArr, Option.bind_eq_bind, Option.bind_eq_some_iff,
    Option.some.injEq] at h_upd
  obtain ⟨group, -, ⟨reg₁, arr⟩, h_arr, rfl⟩ := h_upd
  exact h.trans (h.updatePriorityArray h_arr) (h.setGroup _ _ _)

theorem updateNcqArr (h : ArraySteps R) {cqid : Nat} {mru forceMerit : Int}
    (h_upd : Sched.updateNcqArr env reg cqid mru forceMerit = some reg') : R reg reg' := by
  simp only [Sched.updateNcqArr, Option.bind_eq_bind, Option.bind_eq_some_iff, Option.some.injEq]
    at h_upd
  obtain ⟨ncq, -, encq, -, ⟨reg₁, arr⟩, h_arr, rfl⟩ := h_upd
  exact h.trans (h.updatePriorityArray h_arr) (h.setNcqArr _ _ _)

theorem recommendNsq (h : ArraySteps R) {prio nqid : Nat} {roundRobin : Bool}
    {ncqMru nsqMru : Int}
    (h_rec : blkBlexRecommendNsq env reg prio roundRobin ncqMru nsqMru = some (reg', nqid)) :
    R reg reg' := by
  obtain ⟨-, reg₁, -, -, h_upd, -, -, ⟨-, rfl, -⟩ | ⟨-, -, h_upd₂⟩⟩ := recommendNsq_cases h_rec
  · exact h.updateGroupArr h_upd
  · exact h.trans (h.updateGroupArr h_upd) (h.updateNcqArr h_upd₂)

/-- So `R` holds across every operation that also keeps `R` when it writes statistics. -/
theorem nqStep (h : ArraySteps R) {op : NqOp}
    (h_stats : ∀ nqid stats mask, op = .statistics nqid stats mask →
      setStatistics reg nqid stats mask = some reg' → R reg reg')
    (h_step : Sched.nqStep env reg op = some reg') : R reg reg' := by
  cases op with
  | statistics nqid stats mask => exact h_stats nqid stats mask rfl h_step
  | updateGroup prio mru forceMerit => exact h.updateGroupArr h_step
  | updateNcq cqid mru forceMerit =>
      simp only [Sched.nqStep] at h_step
      split at h_step
      case isTrue => exact h.updateNcqArr h_step
      case isFalse => cases h_step
  | recommend prio roundRobin ncqMru nsqMru =>
      obtain ⟨⟨reg₁, nqid⟩, h_rec, rfl⟩ := Option.map_eq_some_iff.mp h_step
      exact h.recommendNsq h_rec

end ArraySteps

/-- The layout of a regulator is constant. -/
theorem info_arraySteps : ArraySteps fun reg reg' => reg'.blexInfo = reg.blexInfo where
  refl _ := rfl
  trans h h' := h'.trans h
  clearOldTop _ _ _ _ := rfl
  setGroup _ _ _ := rfl
  setNcqArr _ _ _ := rfl

/-! ## Depths

The driver writes the queue depths once, when the regulator is new. -/

/-- The queue depths of two regulators are the same. -/
def SameDepths (reg reg' : NqRegulator) : Prop :=
  ∀ nqid, (reg'.enqs nqid).qdepth = (reg.enqs nqid).qdepth

theorem SameDepths.refl (reg : NqRegulator) : SameDepths reg reg := fun _ => rfl

theorem SameDepths.trans {reg'' : NqRegulator} (h : SameDepths reg reg')
    (h' : SameDepths reg' reg'') : SameDepths reg reg'' :=
  fun nqid => (h' nqid).trans (h nqid)

theorem SameDepths.setEnq {nqid : Nat} {enq : ExposedNq}
    (h : enq.qdepth = (reg.enqs nqid).qdepth) : SameDepths reg (reg.setEnq nqid enq) :=
  NqRegulator.setEnq_forall (P := fun n enq => enq.qdepth = (reg.enqs n).qdepth) h fun _ _ => rfl

theorem clearOldTop_qdepth (type : NqType) (merit : Int) (enq : ExposedNq) :
    (clearOldTop type merit enq).qdepth = enq.qdepth := by
  cases type <;> rfl

theorem SameDepths.arraySteps : ArraySteps SameDepths where
  refl := .refl
  trans := .trans
  clearOldTop _ _ _ _ := .setEnq (clearOldTop_qdepth _ _ _)
  setGroup _ _ _ := fun _ => rfl
  setNcqArr _ _ _ := .setEnq rfl

theorem setStats_depths {nqid : Nat} {stats : NqStats}
    (h_stats : setStats reg nqid stats = some reg') : SameDepths reg reg' := by
  obtain ⟨enq, h_enq, rfl⟩ := Option.map_eq_some_iff.mp h_stats
  exact SameDepths.setEnq (by rw [enq?_eq_enqs h_enq])

theorem setStatistics_depths {nqid : Nat} {stats : NqStats} {mask : Finset Nat}
    (h_set : setStatistics reg nqid stats mask = some reg') : SameDepths reg reg' := by
  obtain ⟨reg₁, h_stats, rfl⟩ := Option.map_eq_some_iff.mp h_set
  exact (setStats_depths h_stats).trans (.setEnq rfl)

theorem nqStep_depths {op : NqOp} (h_step : nqStep env reg op = some reg') :
    SameDepths reg reg' :=
  SameDepths.arraySteps.nqStep (fun _ _ _ _ h_set => setStatistics_depths h_set) h_step

/-! ## A recommendation is what a peek finds -/

/-- What an NCQ's own array is read for: the number of its NSQs and the array. -/
def NqRegulator.nsqArr (reg : NqRegulator) (cqid : Nat) : Option (Nat × NqPriorityArray) :=
  (reg.enqs cqid).encq.map fun encq => (encq.nrAttachedNsqs, encq.prioArr)

theorem nsqArr_setEnq {nqid : Nat} {enq : ExposedNq}
    (h : enq.encq.map (fun encq => (encq.nrAttachedNsqs, encq.prioArr)) = reg.nsqArr nqid) :
    (reg.setEnq nqid enq).nsqArr = reg.nsqArr := by
  funext n
  exact NqRegulator.setEnq_forall (P := fun n enq =>
    enq.encq.map (fun encq => (encq.nrAttachedNsqs, encq.prioArr)) = reg.nsqArr n) h
    (fun _ _ => rfl) n

theorem clearOldTop_nsqArr (type : NqType) (merit : Int) (enq : ExposedNq) :
    (clearOldTop type merit enq).encq.map (fun encq => (encq.nrAttachedNsqs, encq.prioArr)) =
      enq.encq.map fun encq => (encq.nrAttachedNsqs, encq.prioArr) := by
  cases type with
  | ncq =>
      cases h : enq.encq with
      | none => simp [clearOldTop, h]
      | some encq => simp [clearOldTop, h]
  | nsq => rfl

/-- The update of a group's array leaves the arrays of the NCQs alone. -/
theorem updatePriorityArray_nsqArr {arr arr' : NqPriorityArray} {mru forceMerit : Int}
    {type : NqType}
    (h_upd : blkBlexUpdatePriorityArray env reg arr mru forceMerit type = some (reg', arr')) :
    reg'.nsqArr = reg.nsqArr := by
  unfold blkBlexUpdatePriorityArray at h_upd
  split at h_upd
  · cases h_upd
    rfl
  · simp only [Option.bind_eq_bind, Option.bind_eq_some_iff] at h_upd
    obtain ⟨old, h_old, merit, -, heap, -, top, -, h_upd⟩ := h_upd
    split at h_upd
    case isTrue =>
      cases h_upd
      apply nsqArr_setEnq
      rw [clearOldTop_nsqArr, enq?_eq_enqs h_old]
      rfl
    case isFalse =>
      cases h_upd
      rfl

theorem updateGroupArr_nsqArr {prio : Nat} {mru forceMerit : Int}
    (h_upd : updateGroupArr env reg prio mru forceMerit = some reg') :
    reg'.nsqArr = reg.nsqArr := by
  simp only [updateGroupArr, Option.bind_eq_bind, Option.bind_eq_some_iff, Option.some.injEq]
    at h_upd
  obtain ⟨group, -, ⟨reg₁, arr⟩, h_arr, rfl⟩ := h_upd
  have h₁ : reg₁.nsqArr = reg.nsqArr := updatePriorityArray_nsqArr h_arr
  exact h₁

/-- The eNQ of an NCQ has an eNCQ. -/
theorem RegWf.kthEncq (h : RegWf L reg) {k : Nat} (hk : k < L.nrCqs) :
    ∃ encq, reg.enq? (L.kthCqid k) = some (reg.enqs (L.kthCqid k)) ∧
      (reg.enqs (L.kthCqid k)).encq = some encq ∧ EncqWf L (L.kthCqid k) encq := by
  have h_self := L.kthCqid_mem_attached hk
  obtain ⟨h_pos, h_le⟩ := L.mem_range_of_attached hk h_self
  have h_enq := h.enq _ h_pos h_le
  have h_has : (reg.enqs (L.kthCqid k)).encq.isSome = true := by
    rw [h_enq.hasCq, blkBlexHasCq, L.getCqid_of_mem_attached hk h_self, beq_self_eq_true]
  obtain ⟨encq, h_encq⟩ := Option.isSome_iff_exists.mp h_has
  exact ⟨encq, h.enq?_eq h_pos h_le, h_encq, h_enq.encq encq h_encq⟩

/-- The top NCQ of a group has an eNCQ. -/
theorem RegWf.topEncq (h : RegWf L reg) (h_groups : 2 ≤ L.nrCqs) {prio : Nat}
    (h_prio : prio < blkBlexPrioLevel) :
    ∃ encq, reg.enq? (reg.nqGroups prio).prioArr.topNq =
        some (reg.enqs (reg.nqGroups prio).prioArr.topNq) ∧
      (reg.enqs (reg.nqGroups prio).prioArr.topNq).encq = some encq ∧
      EncqWf L (reg.nqGroups prio).prioArr.topNq encq ∧ 0 < encq.nrAttachedNsqs := by
  obtain ⟨k, hk, h_top, -⟩ := h.topNcq h_groups h_prio
  obtain ⟨encq, h_enq, h_encq, h_encqWf⟩ := h.kthEncq hk
  rw [h_top]
  refine ⟨encq, h_enq, h_encq, h_encqWf, ?_⟩
  rw [h_encqWf.nrAttachedNsqs_eq]
  exact L.onePartition.nonempty k hk

theorem peekRecommend_eq {prio : Nat} (h_prio : prio < blkBlexPrioLevel)
    {encq : EnqNcq}
    (h_top : reg.enq? (reg.nqGroups prio).prioArr.topNq =
      some (reg.enqs (reg.nqGroups prio).prioArr.topNq))
    (h_encq : (reg.enqs (reg.nqGroups prio).prioArr.topNq).encq = some encq) :
    blkBlexPeekRecommend reg prio =
      if 1 < encq.nrAttachedNsqs then some encq.prioArr.topNq
      else some (reg.nqGroups prio).prioArr.topNq := by
  simp only [blkBlexPeekRecommend, NqRegulator.group?, if_pos h_prio, h_top, h_encq,
    Option.bind_eq_bind, Option.bind_some]

/-- A recommendation is the queue that a peek finds before it. -/
theorem recommendNsq_peek (h : RegWf L reg) (h_groups : 2 ≤ L.nrCqs) {prio nqid : Nat}
    {roundRobin : Bool} {ncqMru nsqMru : Int}
    (h_rec : blkBlexRecommendNsq env reg prio roundRobin ncqMru nsqMru = some (reg', nqid)) :
    blkBlexPeekRecommend reg prio = some nqid := by
  obtain ⟨h_prio, reg₁, ncq, encq₁, h_upd, h_ncq, h_encq₁, h_cases⟩ := recommendNsq_cases h_rec
  obtain ⟨encq, h_top, h_encq, -, h_attached⟩ := h.topEncq h_groups h_prio
  rw [peekRecommend_eq h_prio h_top h_encq]
  -- the update of the group's array does not touch what is read of the NCQ after it
  have h_arr := congrFun (updateGroupArr_nsqArr h_upd) (reg.nqGroups prio).prioArr.topNq
  rw [enq?_eq_enqs h_ncq] at h_encq₁
  simp only [NqRegulator.nsqArr, h_encq, h_encq₁, Option.map_some, Option.some.injEq,
    Prod.mk.injEq] at h_arr
  rw [h_arr.1, h_arr.2] at h_cases
  rcases h_cases with ⟨h_one, -, rfl⟩ | ⟨h_many, rfl, -⟩
  · rw [if_neg (by omega)]
  · rw [if_pos (by omega)]

/-! ## No computation fails -/

/-- What the divisions of `blk_blex_calc_sched_merit` need. -/
structure Divides (env : Env) (L : QueueLayout) (reg : NqRegulator) : Prop where
  alphaDenom : env.meritAlphaDenom ≠ 0
  qdepth : ∀ nqid, 1 ≤ nqid → nqid ≤ L.maxNqid → (reg.enqs nqid).qdepth ≠ 0

theorem Divides.of_sameDepths (h : Divides env L reg) (h_same : SameDepths reg reg') :
    Divides env L reg' where
  alphaDenom := h.alphaDenom
  qdepth nqid h_pos h_le := by
    rw [h_same nqid]
    exact h.qdepth nqid h_pos h_le

/-- An eNQ of the range has a merit; as an NCQ, if it has an eNCQ. -/
theorem calcSchedMerit_isSome (h_div : Divides env L reg) (type : NqType) {nqid : Nat}
    (h_pos : 1 ≤ nqid) (h_le : nqid ≤ L.maxNqid)
    (h_type : type = .ncq → (reg.enqs nqid).encq.isSome) :
    ∃ merit, blkBlexCalcSchedMerit env type (reg.enqs nqid) = some merit := by
  cases type with
  | nsq =>
      simp only [blkBlexCalcSchedMerit, Option.bind_eq_bind, Option.bind_some,
        if_neg h_div.alphaDenom]
      exact ⟨_, rfl⟩
  | ncq =>
      obtain ⟨encq, h_encq⟩ := Option.isSome_iff_exists.mp (h_type rfl)
      simp only [blkBlexCalcSchedMerit, h_encq, if_neg (h_div.qdepth nqid h_pos h_le),
        Option.bind_eq_bind, Option.bind_some, if_neg h_div.alphaDenom]
      exact ⟨_, rfl⟩

theorem updatePriorityArray_isSome (h : RegWf L reg) (h_div : Divides env L reg)
    (type : NqType) {arr : NqPriorityArray} {nqs : List Nat} (h_over : arr.Over nqs)
    (h_range : ∀ nqid ∈ nqs, 1 ≤ nqid ∧ nqid ≤ L.maxNqid)
    (h_type : type = .ncq → ∀ nqid ∈ nqs, (reg.enqs nqid).encq.isSome) (mru forceMerit : Int) :
    ∃ r, blkBlexUpdatePriorityArray env reg arr mru forceMerit type = some r := by
  have h_merit {nqid : Nat} (h_mem : nqid ∈ nqs) :=
    calcSchedMerit_isSome h_div type (h_range nqid h_mem).1 (h_range nqid h_mem).2
      fun h_ncq => h_type h_ncq nqid h_mem
  have h_enq {nqid : Nat} (h_mem : nqid ∈ nqs) :=
    h.enq?_eq (h_range nqid h_mem).1 (h_range nqid h_mem).2
  unfold blkBlexUpdatePriorityArray
  split
  case isTrue => exact ⟨_, rfl⟩
  case isFalse =>
    obtain ⟨merit, h_top⟩ := h_merit h_over.topNq_mem
    simp only [h_enq h_over.topNq_mem, h_top, Option.bind_eq_bind, Option.bind_some]
    obtain ⟨heap, h_heap⟩ := BinaryHeap.siftDown_isSome (reg.meritOf env type)
      (if forceMerit = blexSchedMeritInf then blexSchedMeritInf
        else Word32.signed (merit + forceMerit))
      (h_over.perm.length_eq.trans h_over.count.symm)
      (fun nqid h_mem => by
        have h_in := h_over.perm.mem_iff.mp h_mem
        obtain ⟨m, h_m⟩ := h_merit h_in
        rw [NqRegulator.meritOf, h_enq h_in, Option.bind_some, h_m, Option.isSome_some])
      arr.nqCount 0
    -- the heap is not empty, so its first entry can be read
    have h_first : 0 < heap.length := by
      have h_nqs := List.length_pos_of_mem h_over.topNq_mem
      rw [(BinaryHeap.siftDown_perm h_heap).length_eq, h_over.perm.length_eq]
      exact h_nqs
    rw [h_heap, Option.bind_some, List.getElem?_eq_getElem h_first, Option.bind_some]
    split <;> exact ⟨_, rfl⟩

theorem groupNcqs_range (h_groups : 2 ≤ L.nrCqs) {prio nqid : Nat}
    (h_prio : prio < blkBlexPrioLevel) (h_mem : nqid ∈ L.groupNcqs prio) :
    1 ≤ nqid ∧ nqid ≤ L.maxNqid ∧ blkBlexHasCq nqid L.toBlkBlexDevInfo = true := by
  obtain ⟨k, hk, rfl, -⟩ := L.groupNcqs_spec h_groups h_prio h_mem
  have h_self := L.kthCqid_mem_attached hk
  obtain ⟨h_pos, h_le⟩ := L.mem_range_of_attached hk h_self
  refine ⟨h_pos, h_le, ?_⟩
  rw [blkBlexHasCq, L.getCqid_of_mem_attached hk h_self, beq_self_eq_true]

theorem updateGroupArr_isSome (h : RegWf L reg) (h_groups : 2 ≤ L.nrCqs)
    (h_div : Divides env L reg) {prio : Nat} (h_prio : prio < blkBlexPrioLevel)
    (mru forceMerit : Int) : ∃ reg', updateGroupArr env reg prio mru forceMerit = some reg' := by
  obtain ⟨⟨reg₁, arr⟩, h_arr⟩ := updatePriorityArray_isSome h h_div .ncq
    (h.group prio h_prio).prioArr
    (fun nqid h_mem =>
      have h_range := groupNcqs_range h_groups h_prio h_mem
      ⟨h_range.1, h_range.2.1⟩)
    (fun _ nqid h_mem => by
      obtain ⟨h_pos, h_le, h_has⟩ := groupNcqs_range h_groups h_prio h_mem
      rw [(h.enq nqid h_pos h_le).hasCq, h_has])
    mru forceMerit
  simp only [updateGroupArr, NqRegulator.group?, if_pos h_prio, h_arr, Option.bind_eq_bind,
    Option.bind_some]
  exact ⟨_, rfl⟩

theorem updateNcqArr_isSome (h : RegWf L reg) (h_div : Divides env L reg) {k : Nat}
    (hk : k < L.nrCqs) (h_many : 1 < blkBlexGetCqNrNsqs (L.kthCqid k) L.maxNqid L.nrCqs)
    (mru forceMerit : Int) :
    ∃ reg', updateNcqArr env reg (L.kthCqid k) mru forceMerit = some reg' := by
  obtain ⟨encq, h_enq, h_encq, h_encqWf⟩ := h.kthEncq hk
  rw [← h_encqWf.nrAttachedNsqs_eq] at h_many
  obtain ⟨⟨reg₁, arr⟩, h_arr⟩ := updatePriorityArray_isSome h h_div .nsq
    (h_encqWf.prioArr h_many)
    (fun nqid h_mem => L.mem_range_of_attached hk (L.mem_nsqsOf.mp h_mem))
    (fun h_ncq => by cases h_ncq) mru forceMerit
  simp only [updateNcqArr, h_enq, h_encq, h_arr, Option.bind_eq_bind, Option.bind_some]
  exact ⟨_, rfl⟩

theorem recommendNsq_isSome (h : RegWf L reg) (h_groups : 2 ≤ L.nrCqs)
    (h_div : Divides env L reg) {prio : Nat} (h_prio : prio < blkBlexPrioLevel)
    (roundRobin : Bool) (ncqMru nsqMru : Int) :
    ∃ r, blkBlexRecommendNsq env reg prio roundRobin ncqMru nsqMru = some r := by
  obtain ⟨k, hk, h_top, -⟩ := h.topNcq h_groups h_prio
  have h_range := L.mem_range_of_attached hk (L.kthCqid_mem_attached hk)
  obtain ⟨reg₁, h_upd⟩ := updateGroupArr_isSome h h_groups h_div h_prio
    (if roundRobin then env.prioArrMru else ncqMru)
    (if roundRobin then blexSchedMeritInf else 0)
  have h₁ := (updateGroupArr_spec h h_upd).1
  obtain ⟨encq, -, h_encq, -, -⟩ := h.topEncq h_groups h_prio
  have h_arr := congrFun (updateGroupArr_nsqArr h_upd) (L.kthCqid k)
  rw [h_top] at h_encq
  simp only [NqRegulator.nsqArr, h_encq, Option.map_some] at h_arr
  obtain ⟨encq₁, h_encq₁, -⟩ := Option.map_eq_some_iff.mp h_arr
  have h_encqWf := (h₁.enq _ h_range.1 h_range.2).encq encq₁ h_encq₁
  simp only [blkBlexRecommendNsq, NqRegulator.group?, if_pos h_prio, h_upd, h_top,
    h₁.enq?_eq h_range.1 h_range.2, h_encq₁, Option.bind_eq_bind, Option.bind_some]
  split
  case isTrue => exact ⟨_, rfl⟩
  case isFalse h_ne =>
    have h_size := L.onePartition.nonempty k hk
    rw [h_encqWf.nrAttachedNsqs_eq] at h_ne
    obtain ⟨reg₂, h_upd₂⟩ := updateNcqArr_isSome h₁
      (h_div.of_sameDepths (SameDepths.arraySteps.updateGroupArr h_upd)) hk (by omega)
      (if roundRobin then env.prioArrMru else nsqMru)
      (if roundRobin then blexSchedMeritInf else 0)
    rw [h_upd₂]
    exact ⟨_, rfl⟩

/-! ## Runs -/

/-- The array has the queues that it started with, and `top_nq` is its first one's eNQ. -/
structure NqPriorityArray.Keeps (reg : NqRegulator) (arr₀ arr : NqPriorityArray) : Prop where
  perm : arr.binHeap.Perm arr₀.binHeap
  top : ∃ enq, reg.enq? arr.topNq = some enq ∧ arr.binHeap[0]? = some enq.nqid

/-- Every array of the regulator has the queues that it has in `reg₀`. -/
structure KeepsHeaps (reg₀ reg : NqRegulator) : Prop where
  group : ∀ prio < blkBlexPrioLevel,
    NqPriorityArray.Keeps reg (reg₀.nqGroups prio).prioArr (reg.nqGroups prio).prioArr
  ncq : ∀ cqid, reg₀.hasNsqArr cqid = true → ∃ encq₀ encq,
    (reg₀.enqs cqid).encq = some encq₀ ∧ (reg.enqs cqid).encq = some encq ∧
      NqPriorityArray.Keeps reg encq₀.prioArr encq.prioArr

/-- The recommendation `nqid` is the one of a peek, of the group `prio`, and attached to
the group's top NCQ. -/
structure RecommendsTop (reg : NqRegulator) (prio nqid : Nat) : Prop where
  peek : blkBlexPeekRecommend reg prio = some nqid
  enq : ∃ enq ncq, reg.enq? nqid = some enq ∧
    reg.enq? (reg.nqGroups prio).prioArr.topNq = some ncq ∧ enq.prio = prio ∧ enq.cqid = ncq.cqid

theorem Over.keeps {arr₀ arr : NqPriorityArray} {nqs : List Nat} (h : RegWf L reg)
    (h_over₀ : arr₀.Over nqs) (h_over : arr.Over nqs)
    (h_range : 1 ≤ arr.topNq ∧ arr.topNq ≤ L.maxNqid) : NqPriorityArray.Keeps reg arr₀ arr where
  perm := h_over.perm.trans h_over₀.perm.symm
  top := by
    refine ⟨_, h.enq?_eq h_range.1 h_range.2, ?_⟩
    rw [← List.head?_eq_getElem?, h_over.top, (h.enq _ h_range.1 h_range.2).nqid_eq]

/-- Two regulators of one layout have the same queues in their heaps. -/
theorem RegWf.keepsHeaps (h_groups : 2 ≤ L.nrCqs) (h₀ : RegWf L reg) (h : RegWf L reg') :
    KeepsHeaps reg reg' where
  group prio h_prio := by
    have h_over := (h.group prio h_prio).prioArr
    obtain ⟨h_pos, h_le, -⟩ := groupNcqs_range h_groups h_prio h_over.topNq_mem
    exact Over.keeps h (h₀.group prio h_prio).prioArr h_over ⟨h_pos, h_le⟩
  ncq cqid h_arr := by
    have h_size := hasNsqArr_spec h₀ h_arr
    obtain ⟨enq₀, h_enq₀, h_encq₀⟩ : ∃ enq, reg.enq? cqid = some enq ∧ enq.encq.isSome := by
      unfold NqRegulator.hasNsqArr at h_arr
      split at h_arr
      case h_1 encq h_encq =>
        obtain ⟨enq, h_enq, h_encq⟩ := Option.bind_eq_some_iff.mp h_encq
        exact ⟨enq, h_enq, Option.isSome_of_eq_some h_encq⟩
      case h_2 => cases h_arr
    obtain ⟨h_pos, h_le, rfl, h_wf₀⟩ := h₀.enq?_some h_enq₀
    have h_wf := h.enq cqid h_pos h_le
    obtain ⟨encq₀, h_encq₀⟩ := Option.isSome_iff_exists.mp h_encq₀
    have h_has : (reg'.enqs cqid).encq.isSome = true := by
      rw [h_wf.hasCq, ← h_wf₀.hasCq, h_encq₀, Option.isSome_some]
    obtain ⟨encq, h_encq⟩ := Option.isSome_iff_exists.mp h_has
    have h_encqWf₀ := h_wf₀.encq encq₀ h_encq₀
    have h_encqWf := h_wf.encq encq h_encq
    have h_over := h_encqWf.prioArr (by rw [h_encqWf.nrAttachedNsqs_eq]; exact h_size)
    have h_over₀ := h_encqWf₀.prioArr (by rw [h_encqWf₀.nrAttachedNsqs_eq]; exact h_size)
    obtain ⟨k, hk, h_cqid, -⟩ := L.getCqid_spec h_pos h_le
    have h_self : cqid = L.kthCqid k := by
      have h_eq := h_wf₀.hasCq
      rw [h_encq₀, Option.isSome_some, blkBlexHasCq, h_cqid] at h_eq
      exact beq_iff_eq.mp h_eq.symm
    refine ⟨encq₀, encq, h_encq₀, h_encq, Over.keeps h h_over₀ h_over ?_⟩
    rw [h_self] at h_over
    exact L.mem_range_of_attached hk (L.mem_nsqsOf.mp h_over.topNq_mem)

theorem recommendNsq_top (h : RegWf L reg) (h_groups : 2 ≤ L.nrCqs) {prio nqid : Nat}
    {roundRobin : Bool} {ncqMru nsqMru : Int}
    (h_rec : blkBlexRecommendNsq env reg prio roundRobin ncqMru nsqMru = some (reg', nqid)) :
    RecommendsTop reg prio nqid where
  peek := recommendNsq_peek h h_groups h_rec
  enq := by
    have h_peek := recommendNsq_peek h h_groups h_rec
    have h_prio := (recommendNsq_cases h_rec).1
    obtain ⟨k, hk, h_top, h_attached⟩ := h.topNcq h_groups h_prio
    obtain ⟨encq, h_ncq, h_encq, h_encqWf, -⟩ := h.topEncq h_groups h_prio
    rw [peekRecommend_eq h_prio h_ncq h_encq] at h_peek
    have h_self := L.kthCqid_mem_attached hk
    -- the queue is one of those attached to the top NCQ
    have h_mem : nqid ∈ L.attached (L.kthCqid k) := by
      split at h_peek
      case isTrue h_many =>
        have h_in := L.mem_nsqsOf.mp (h_encqWf.prioArr h_many).topNq_mem
        rwa [h_top, Option.some.inj h_peek] at h_in
      case isFalse =>
        rw [← Option.some.inj h_peek, h_top]
        exact h_self
    have h_read {n : Nat} (h_n : n ∈ L.attached (L.kthCqid k)) :
        reg.enq? n = some (reg.enqs n) ∧ (reg.enqs n).prio = prio ∧
          (reg.enqs n).cqid = L.kthCqid k := by
      obtain ⟨h_pos, h_le⟩ := L.mem_range_of_attached hk h_n
      have h_enq := h.enq n h_pos h_le
      exact ⟨h.enq?_eq h_pos h_le, h_enq.prio_eq.trans (h_attached n h_n),
        h_enq.cqid_eq.trans (L.getCqid_of_mem_attached hk h_n)⟩
    obtain ⟨h_enq, h_enqPrio, h_enqCqid⟩ := h_read h_mem
    refine ⟨_, _, h_enq, h_ncq, h_enqPrio, ?_⟩
    rw [h_enqCqid, h_top, (h_read h_self).2.2]

/-- What every run keeps of the regulator that it starts with. -/
theorem nqRun_wf (h_groups : 2 ≤ L.nrCqs) (h : RegWf L reg) {ops : List NqOp}
    (h_run : Lts.run (nqStep env) reg ops = some reg') : RegWf L reg' ∧ SameDepths reg reg' := by
  induction ops generalizing reg with
  | nil =>
      cases h_run
      exact ⟨h, .refl _⟩
  | cons op ops ih =>
      rw [Lts.run_cons, Option.bind_eq_some_iff] at h_run
      obtain ⟨reg₁, h_step, h_rest⟩ := h_run
      obtain ⟨h_wf, h_depths⟩ := ih (nqStep_wf h h_groups h_step) h_rest
      exact ⟨h_wf, (nqStep_depths h_step).trans h_depths⟩

/-- Recommendations stay inside their group. -/
theorem recommendations_inGroup (h_groups : 2 ≤ L.nrCqs) {qDepth : Nat → Nat}
    {reg₀ : NqRegulator} {ops : List NqOp}
    (h_init : regulatorInit env L.toBlkBlexDevInfo qDepth = some reg₀)
    (h_run : Lts.run (nqStep env) reg₀ ops = some reg) :
    KeepsHeaps reg₀ reg ∧
      ∀ prio < blkBlexPrioLevel, ∀ (roundRobin : Bool) (ncqMru nsqMru : Int),
        (∀ reg' nqid,
          blkBlexRecommendNsq env reg prio roundRobin ncqMru nsqMru = some (reg', nqid) →
            RecommendsTop reg prio nqid) ∧
        -- the call fails only where it divides by zero
        (Divides env L reg₀ →
          ∃ r, blkBlexRecommendNsq env reg prio roundRobin ncqMru nsqMru = some r) := by
  have h₀ := (regulatorInit_wf h_groups h_init).1
  obtain ⟨h_wf, h_depths⟩ := nqRun_wf h_groups h₀ h_run
  refine ⟨h₀.keepsHeaps h_groups h_wf, ?_⟩
  intro prio h_prio roundRobin ncqMru nsqMru
  constructor
  · intro reg' nqid h_rec
    exact recommendNsq_top h_wf h_groups h_rec
  · intro h_div
    exact recommendNsq_isSome h_wf h_groups (h_div.of_sameDepths h_depths) h_prio roundRobin
      ncqMru nsqMru

/-- Seven queues on three NCQs, after statistics and calls on both levels. -/
theorem recommendations_inGroup_seven :
    ∃ reg₀ reg,
      regulatorInit (.default 2) sevenNqs.toBlkBlexDevInfo (fun _ => 64) = some reg₀ ∧
      Lts.run (nqStep (.default 2)) reg₀
        [.statistics 4 ⟨3, 1, 2, 7, 1⟩ ∅, .recommend 1 true 0 0, .updateGroup 0 4 0,
          .updateNcq 6 4 0] = some reg ∧
      KeepsHeaps reg₀ reg ∧
        ∀ prio < blkBlexPrioLevel, ∀ (roundRobin : Bool) (ncqMru nsqMru : Int),
          (∀ reg' nqid,
            blkBlexRecommendNsq (.default 2) reg prio roundRobin ncqMru nsqMru =
              some (reg', nqid) → RecommendsTop reg prio nqid) ∧
          (Divides (.default 2) sevenNqs reg₀ →
            ∃ r, blkBlexRecommendNsq (.default 2) reg prio roundRobin ncqMru nsqMru = some r) := by
  have h_some : ((regulatorInit (.default 2) sevenNqs.toBlkBlexDevInfo fun _ => 64).bind
      fun reg₀ => Lts.run (nqStep (.default 2)) reg₀
        [.statistics 4 ⟨3, 1, 2, 7, 1⟩ ∅, .recommend 1 true 0 0, .updateGroup 0 4 0,
          .updateNcq 6 4 0]).isSome := by
    decide +kernel
  obtain ⟨reg, h_reg⟩ := Option.isSome_iff_exists.mp h_some
  obtain ⟨reg₀, h_init, h_run⟩ := Option.bind_eq_some_iff.mp h_reg
  exact ⟨reg₀, reg, h_init, h_run, recommendations_inGroup (by decide) h_init h_run⟩

end Sched

end Daredevil
