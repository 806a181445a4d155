/-
  Daredevil.Nvme.Vectors

  The queue groups of the regulator that `nvme_pci_alloc_tag_set` builds.  Whether it
  is built depends on the number of hardware queues, but how many completion queues
  there are to divide among the groups depends on the interrupt vectors: all but one
  of them, and one if there is only one vector.

    * `VecsInv`                   — the completion queues are the vectors but one;
    * `groupsUsable_iff`          — what the groups need of the completion queues;
    * `groupsUsable_iff_vectors`  — every group has queues exactly with three vectors
                                    or more.
-/
import Daredevil.Nvme.Frame
import Daredevil.Sched.Consistency
import Daredevil.Sched.Route

namespace Daredevil

namespace Sched

/-! ## Usable groups -/

/-- The number of the hctx that `blk_blex_map_swqueue` makes a CPU's default for a group. -/
def blexHctxIdx (group : NqGroup) (cpu : Nat) : Option Nat :=
  if group.nrAttachNsqs = 0 then none
  else some (group.ncqStart + (group.ncqStart - 1 + cpu) % group.nrAttachNsqs)

/-- A group that can be scheduled from: it has queues, the round robin and the default hctxs
divide by no zero, and the first entry of the heap is a queue. -/
structure GroupUsable (reg : NqRegulator) (prio : Nat) : Prop where
  nrNcqs : 1 ≤ (reg.nqGroups prio).nrNcqs
  nrAttachNsqs : 1 ≤ (reg.nqGroups prio).nrAttachNsqs
  roundRobin : ∀ type, (blkBlexSchedRrNextNsqid reg prio type).isSome
  defaultHctx : ∀ cpu, (blexHctxIdx (reg.nqGroups prio) cpu).isSome
  heap : ∃ nqid ∈ Set.Icc 1 reg.blexInfo.maxNqid,
    (reg.nqGroups prio).prioArr.binHeap[0]? = some nqid

variable {L : QueueLayout} {reg reg' : NqRegulator} {env : Env}

/-- The round robin over the NCQs finds an eNCQ with an NSQ, whatever its offset is. -/
theorem Grouped.rrNextNsqid_isSome (h_groups : 2 ≤ L.nrCqs) (h : Grouped L L.maxNqid reg)
    {prio : Nat} (h_prio : prio < blkBlexPrioLevel) (h_nrNcqs : (reg.nqGroups prio).nrNcqs ≠ 0)
    (h_nrNsqs : (reg.nqGroups prio).nrAttachNsqs ≠ 0) (type : NqType) :
    (blkBlexSchedRrNextNsqid reg prio type).isSome := by
  have h_read : reg.group? prio = some (reg.nqGroups prio) := if_pos h_prio
  simp only [blkBlexSchedRrNextNsqid, h_read, Option.bind_eq_bind, Option.bind_some]
  cases type with
  | nsq =>
      simp only [if_neg h_nrNsqs]
      rfl
  | ncq =>
      simp only [if_neg h_nrNcqs, h.info]
      generalize blkBlexCqidToIndex _ _ _ + _ = i
      have h_i : i % L.nrCqs < L.nrCqs := Nat.mod_lt _ L.nrCqs_pos
      have h_ncq := L.mem_range_of_attached h_i (L.kthCqid_mem_attached h_i)
      have h_eq : blkBlexGetKthCqid i L.maxNqid L.nrCqs = L.kthCqid (i % L.nrCqs) :=
        (L.kthCqid_mod i).symm
      have h_consistent := h.consistent h_groups
      have h_isSome := (h_consistent.hasEncq _ h_ncq).mpr ⟨_, h_i, rfl⟩
      obtain ⟨encq, h_encq⟩ := Option.isSome_iff_exists.mp h_isSome
      have h_size := h_consistent.nrAttachedNsqs _ h_i encq h_encq
      have h_pos := EvenSplit.size_pos L.nrCqs_pos L.nrCqs_le (i % L.nrCqs)
      rw [h_eq, NqRegulator.enq?, h.info, if_pos h_ncq, Option.bind_some, h_encq, Option.bind_some,
        if_neg (by omega)]
      rfl

theorem Grouped.groupUsable (h_groups : 2 ≤ L.nrCqs) (h : Grouped L L.maxNqid reg) {prio : Nat}
    (h_prio : prio < blkBlexPrioLevel) : GroupUsable reg prio := by
  have h_consistent := h.consistent h_groups
  have h_nrNcqs : 1 ≤ (reg.nqGroups prio).nrNcqs := by
    rw [(h.group prio h_prio).nrNcqs_eq]
    exact L.groupNr_pos h_groups prio
  have h_nrNsqs : 1 ≤ (reg.nqGroups prio).nrAttachNsqs := by
    obtain ⟨nqid, h_low, h_high⟩ := h_consistent.nonempty prio h_prio
    omega
  refine ⟨h_nrNcqs, h_nrNsqs, ?_, ?_, ?_⟩
  · intro type
    exact h.rrNextNsqid_isSome h_groups h_prio (by omega) (by omega) type
  · intro cpu
    rw [blexHctxIdx, if_neg (Nat.ne_of_gt h_nrNsqs)]
    rfl
  · have h_lists := h_consistent.groupHeap prio h_prio
    obtain ⟨enq, h_enq, -⟩ := h_lists.topNq
    refine ⟨_, ?_, h_lists.top⟩
    rw [NqRegulator.enq?] at h_enq
    split at h_enq
    case isTrue h_range => exact h_range
    case isFalse => cases h_enq

/-- Two completion queues are what the two groups need. -/
theorem groupsUsable_iff (h_init : blkBlexNqRegulatorAllocAndInit env L.toBlkBlexDevInfo = some reg) :
    (∀ prio < blkBlexPrioLevel, GroupUsable reg prio) ↔ 2 ≤ L.nrCqs := by
  constructor
  · intro h
    have h_T := (h blkBlexTPrio (by decide)).nrNcqs
    rw [allocAndInit_nrNcqs h_init, blkBlexPrioLevel] at h_T
    omega
  · intro h_groups prio h_prio
    exact (allocAndInit_grouped h_groups h_init).groupUsable h_groups h_prio

end Sched

namespace Nvme

/-! ## Completion queues and vectors -/

/-- The completion queues that the device has are all its vectors but the admin queue's. -/
def VecsInv (dev : NvmeDev) : Prop := dev.nrCqs = 0 ∨ dev.nrCqs = max (dev.numVecs - 1) 1

/-- Nothing but a new attempt changes the two counts. -/
structure SameVecs (dev dev' : NvmeDev) : Prop where
  nrCqs : dev'.nrCqs = dev.nrCqs
  numVecs : dev'.numVecs = dev.numVecs

theorem SameVecs.refl (dev : NvmeDev) : SameVecs dev dev := ⟨rfl, rfl⟩

theorem SameVecs.trans {dev₁ dev₂ dev₃ : NvmeDev} (h : SameVecs dev₁ dev₂)
    (h' : SameVecs dev₂ dev₃) : SameVecs dev₁ dev₃ :=
  ⟨h'.nrCqs.trans h.nrCqs, h'.numVecs.trans h.numVecs⟩

theorem VecsInv.of_same {dev dev' : NvmeDev} (h : VecsInv dev) (h_same : SameVecs dev dev') :
    VecsInv dev' := by
  rw [VecsInv, h_same.nrCqs, h_same.numVecs]
  exact h

theorem SameConfig.sameVecs {dev dev' : NvmeDev} (h : SameConfig dev dev') : SameVecs dev dev' :=
  ⟨h.nrCqs, h.numVecs⟩

theorem nvmeBlexExtraqUpdateQueues_sameVecs {arrayAlloc : Bool} {dev dev' : NvmeDev}
    {nrIoQueues : Nat} (h : nvmeBlexExtraqUpdateQueues arrayAlloc dev nrIoQueues = some dev') :
    SameVecs dev dev' := by
  rcases nvmeBlexExtraqUpdateQueues_cases h with ⟨-, rfl⟩ | ⟨-, -, rfl⟩
  · exact .refl _
  · exact ⟨rfl, rfl⟩

/-! ## Runs -/

theorem nvmeSetupIoQueues_sameVecs (env : ResetEnv) (dev : NvmeDev) :
    SameVecs dev (nvmeSetupIoQueues env dev).dev := by
  simp only [nvmeSetupIoQueues]
  split
  · exact ⟨rfl, rfl⟩
  split
  · exact ⟨rfl, rfl⟩
  split
  case h_1 => exact ⟨rfl, rfl⟩
  case h_2 dev₁ h_lock =>
    have h_same := (nvmeSetupIoQueuesTrylock_sameConfig h_lock).sameVecs
    have h_locked : SameVecs dev dev₁ := ⟨h_same.nrCqs, h_same.numVecs⟩
    split
    case h_1 => exact h_locked.trans ⟨rfl, rfl⟩
    case h_2 dev₂ h_array =>
      have h_extra := nvmeBlexExtraqUpdateQueues_sameVecs h_array
      have h_off : SameVecs dev₁ (dev₁.setAdminEnabled false) := ⟨rfl, rfl⟩
      have h_same := (h_locked.trans h_off).trans h_extra
      split
      · exact h_same.trans ⟨rfl, rfl⟩
      · exact h_same

theorem nvmeResetWork_sameVecs (env : ResetEnv) (dev : NvmeDev) :
    SameVecs dev (nvmeResetWork env dev).dev := by
  have h_disable := (nvmeDevDisable_sameConfig dev).1.sameVecs
  simp only [nvmeResetWork]
  split
  case h_1 => exact h_disable
  case h_2 ret dev₁ h_admin =>
    have h_same := h_disable.trans (nvmePciConfigureAdminQueue_sameConfig h_admin).1.sameVecs
    split
    · exact h_same
    split
    · exact h_same
    · exact h_same.trans (nvmeSetupIoQueues_sameVecs env dev₁)

/-- An attempt that has vectors chooses both counts again. -/
theorem setupAttempt_vecsInv (plat : Platform) (env : AttemptEnv) (nrIoQueues : Nat)
    {dev : NvmeDev} (h : VecsInv dev) : VecsInv (setupAttempt plat env nrIoQueues dev).dev := by
  simp only [setupAttempt]
  split
  case isTrue => exact h.of_same ⟨rfl, rfl⟩
  split
  case isTrue => exact .inr rfl
  split
  case h_1 => exact .inr rfl
  case h_2 ret dev₁ h_create =>
    have h_new : VecsInv dev₁ := by
      apply VecsInv.of_same _ (nvmeBlexCreateIoQueues_sameConfig h_create).sameVecs
      exact .inr rfl
    split
    case isTrue => exact h_new
    split
    case isTrue =>
      split
      case h_1 => exact h_new
      case h_2 locked h_lock =>
        apply h_new.of_same
        have h_suspend := (suspendFrom_sameConfig (locked.queueCount - 1) locked).1
        exact ((nvmeSetupIoQueuesTrylock_sameConfig h_lock).trans h_suspend).sameVecs
    case isFalse => split <;> exact h_new

theorem step_vecsInv {plat : Platform} {s s' : State} {e : Event} (h : VecsInv s.dev)
    (h_step : step plat s e = some s') : VecsInv s'.dev := by
  unfold step at h_step
  split at h_step
  case h_1 env h_phase =>
    cases h_step
    exact h.of_same (nvmeResetWork_sameVecs env s.dev)
  case h_2 env nrIoQueues h_phase =>
    cases h_step
    exact setupAttempt_vecsInv plat env nrIoQueues h
  case h_3 tagsetAlloc ret h_phase =>
    split at h_step
    case isFalse => cases h_step
    cases h_step
    apply h.of_same
    simp only [nvmeResetWorkFinish]
    split
    · exact ⟨rfl, rfl⟩
    split
    · exact ⟨rfl, rfl⟩
    · exact (freeLoop_sameConfig _ _).sameVecs
  case h_4 => cases h_step

theorem reach_vecsInv {plat : Platform} {s : State}
    (h : Lts.Reach (step plat) Lts.anyStep Probed s) : VecsInv s.dev := by
  apply h.invariant (I := fun s => VecsInv s.dev)
  · rintro s ⟨nrAllocatedQueues, rfl⟩
    exact .inl rfl
  · intro s e s' h_inv _ h_step
    exact step_vecsInv h_inv h_step

/-! ## The groups of an enabled device -/

/-- `nvme_pci_alloc_tag_set` is called next, and its test `nr_hw_queues > 1` succeeds. -/
structure EnablesBlex (s : State) : Prop where
  returned : s.phase = .returned 0
  noTagset : s.dev.tagset = false
  nrHwQueues : 1 < s.dev.onlineQueues - 1

/-- The regulator of a device that gets one has queues in every group exactly when the device
has three interrupt vectors. -/
theorem groupsUsable_iff_vectors (plat : Platform) (env : Sched.Env) {s : State}
    (h : Lts.Reach (step plat) Lts.anyStep Probed s) (h_enables : EnablesBlex s)
    {reg : Sched.NqRegulator}
    (h_init : Sched.blkBlexNqRegulatorAllocAndInit env s.dev.info = some reg) :
    (∀ prio < Sched.blkBlexPrioLevel, Sched.GroupUsable reg prio) ↔ 3 ≤ s.dev.numVecs := by
  have h_online := h_enables.nrHwQueues
  have h_settled := ((reach_inv h).returned h_enables.returned).settled (by omega)
  let L : QueueLayout := ⟨s.dev.info, h_settled.nrCqs_pos, h_settled.nrCqs_le⟩
  rw [Sched.groupsUsable_iff (L := L) h_init]
  -- there is at least one completion queue, so the two counts were chosen together
  have h_vecs := (reach_vecsInv h).resolve_left (Nat.ne_of_gt h_settled.nrCqs_pos)
  show 2 ≤ s.dev.nrCqs ↔ _
  omega

/-- The setup of four queues with four vectors: three completion queues. -/
def fourVectors : State :=
  setupAttempt ⟨4, false, false⟩ (attemptVecs 4 fun _ => queueOk) 4
    (nvmeResetWork (resetGranting 4) (.probed 3)).dev

theorem fourVectors_reach :
    Lts.Reach (step ⟨4, false, false⟩) Lts.anyStep Probed fourVectors := by
  have h_reset : Lts.Reach (step ⟨4, false, false⟩) Lts.anyStep Probed
      (nvmeResetWork (resetGranting 4) (.probed 3)) :=
    (Lts.Reach.init ⟨3, rfl⟩).step (e := .reset (resetGranting 4)) trivial rfl
  exact h_reset.step (e := .attempt (attemptVecs 4 fun _ => queueOk)) trivial rfl

theorem groupsUsable_iff_vectors_four :
    ∃ reg, Sched.blkBlexNqRegulatorAllocAndInit (.default 4) fourVectors.dev.info = some reg ∧
      ((∀ prio < Sched.blkBlexPrioLevel, Sched.GroupUsable reg prio) ↔
        3 ≤ fourVectors.dev.numVecs) := by
  have h_enables : EnablesBlex fourVectors := ⟨by decide, by decide, by decide⟩
  have h_some : (Sched.blkBlexNqRegulatorAllocAndInit (.default 4) fourVectors.dev.info).isSome := by
    decide
  obtain ⟨reg, h_init⟩ := Option.isSome_iff_exists.mp h_some
  exact ⟨reg, h_init, groupsUsable_iff_vectors _ _ fourVectors_reach h_enables h_init⟩

/-- The same controller with two vectors: one completion queue, and the T group has none. -/
def twoVectors : State :=
  setupAttempt twoCpus (attemptVecs 2 fun _ => queueOk) 4
    (nvmeResetWork (resetGranting 4) (.probed 3)).dev

theorem twoVectors_emptyGroup :
    Lts.Reach (step twoCpus) Lts.anyStep Probed twoVectors ∧ EnablesBlex twoVectors ∧
      ∃ reg, Sched.blkBlexNqRegulatorAllocAndInit (.default 2) twoVectors.dev.info = some reg ∧
        (reg.nqGroups Sched.blkBlexTPrio).nrNcqs = 0 ∧
        (reg.nqGroups Sched.blkBlexTPrio).nrAttachNsqs = 0 ∧
        (∀ type, Sched.blkBlexSchedRrNextNsqid reg Sched.blkBlexTPrio type = none) ∧
        (∀ cpu, Sched.blexHctxIdx (reg.nqGroups Sched.blkBlexTPrio) cpu = none) ∧
        (reg.nqGroups Sched.blkBlexTPrio).prioArr.binHeap[0]? = none ∧
        ¬ ∀ prio < Sched.blkBlexPrioLevel, Sched.GroupUsable reg prio := by
  have h_reset : Lts.Reach (step twoCpus) Lts.anyStep Probed
      (nvmeResetWork (resetGranting 4) (.probed 3)) :=
    (Lts.Reach.init ⟨3, rfl⟩).step (e := .reset (resetGranting 4)) trivial rfl
  refine ⟨h_reset.step (e := .attempt (attemptVecs 2 fun _ => queueOk)) trivial rfl,
    ⟨by decide, by decide, by decide⟩, ?_⟩
  cases h_init : Sched.blkBlexNqRegulatorAllocAndInit (.default 2) twoVectors.dev.info with
  | none =>
      have h_some :
          (Sched.blkBlexNqRegulatorAllocAndInit (.default 2) twoVectors.dev.info).isSome := by
        decide
      rw [h_init] at h_some
      cases h_some
  | some reg =>
      have h_group : (Sched.blkBlexNqRegulatorAllocAndInit (.default 2) twoVectors.dev.info).map
          (fun reg => reg.nqGroups Sched.blkBlexTPrio) =
            some ⟨0, 0, ⟨4, [], 0, 0⟩, 0, 0, 0, 1⟩ := by
        decide
      rw [h_init, Option.map_some, Option.some.injEq] at h_group
      have h_read : reg.group? Sched.blkBlexTPrio = some (reg.nqGroups Sched.blkBlexTPrio) := rfl
      refine ⟨reg, rfl, ?_, ?_, ?_, ?_, ?_, ?_⟩
      · rw [h_group]
      · rw [h_group]
      · intro type
        rw [Sched.blkBlexSchedRrNextNsqid, h_read, h_group]
        cases type <;> rfl
      · intro cpu
        rw [h_group]
        rfl
      · rw [h_group]
        rfl
      · intro h
        have h_pos := (h Sched.blkBlexTPrio (by decide)).nrNcqs
        rw [h_group] at h_pos
        exact absurd h_pos (by decide)

end Nvme

end Daredevil
