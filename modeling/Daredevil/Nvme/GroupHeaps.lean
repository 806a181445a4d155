/-
  Daredevil.Nvme.GroupHeaps

  The heaps of the queue groups.  `blk_blex_nq_prio_arr_init` allocates a group's heap with
  `nr_cpu_ids` entries, and fills in as many as the group has NCQs.  How many NCQs there are
  is decided by the driver: it asks for a vector for every possible CPU and every write and
  poll queue, but a device with poll queues gets no I/O queues at all, and the two groups
  share what is left.

    * `reach_retry`      — the write queues at the label `retry` are those of the parameter;
    * `nrCqs_le`         — a device that gets a regulator has at most two NCQs for each CPU;
    * `groupHeaps_fit`   — both groups fit into their heaps.
-/
import Daredevil.Nvme.Vectors

namespace Daredevil

namespace Sched

/-! ## The heap of a group -/

theorem prioArrInit_length {env : Env} {maxHeapSz initNqCount : Nat} {nth : Nat → Nat}
    {arr : NqPriorityArray} (h : prioArrInit env maxHeapSz initNqCount nth = some arr) :
    arr.binHeap.length = initNqCount ∧ initNqCount ≤ maxHeapSz := by
  rw [prioArrInit] at h
  split at h
  case isTrue => cases h
  case isFalse h_fits =>
    cases h
    dsimp only
    rw [List.length_map, List.length_range]
    exact ⟨rfl, Nat.not_lt.mp h_fits⟩

/-- What is written into a group's heap is inside it. -/
theorem nqGroupInit_heap {env : Env} {reg reg' : NqRegulator} {prio : Nat}
    (h : blkBlexNqGroupInit env reg prio = some reg') :
    (reg'.nqGroups prio).prioArr.binHeap.length = (reg'.nqGroups prio).nrNcqs ∧
      (reg'.nqGroups prio).nrNcqs ≤ env.nrCpuIds := by
  simp only [blkBlexNqGroupInit, Option.bind_eq_bind, Option.bind_eq_some_iff,
    Option.some.injEq] at h
  obtain ⟨arr, h_arr, rfl⟩ := h
  rw [NqRegulator.nqGroups_setGroup_self]
  exact prioArrInit_length h_arr

end Sched

namespace Nvme

/-! ## Module parameters -/

def einval : Int := -22

/-- `io_queue_count_set` -/
def ioQueueCountSet (plat : Platform) (n : Nat) : Int :=
  if n > plat.numPossibleCpus then einval else 0

/-- A reset samples module parameters that were accepted. -/
def ParamsAccepted (plat : Platform) (_ : State) : Event → Prop
  | .reset env => ioQueueCountSet plat env.writeQueues = 0 ∧ ioQueueCountSet plat env.pollQueues = 0
  | _ => True

theorem ioQueueCountSet_zero_iff {plat : Platform} {n : Nat} :
    ioQueueCountSet plat n = 0 ↔ n ≤ plat.numPossibleCpus := by
  unfold ioQueueCountSet einval
  split <;> omega

/-! ## The write queues -/

/-- The write queues of a setup that can still be tried. -/
def RetryInv (plat : Platform) (s : State) : Prop :=
  ∀ nrIoQueues, s.phase = .retry nrIoQueues → s.dev.nrWriteQueues ≤ plat.numPossibleCpus

theorem nvmeBlexExtraqUpdateQueues_nrWriteQueues {arrayAlloc : Bool} {dev dev' : NvmeDev}
    {nrIoQueues : Nat} (h : nvmeBlexExtraqUpdateQueues arrayAlloc dev nrIoQueues = some dev') :
    dev'.nrWriteQueues = dev.nrWriteQueues := by
  rcases nvmeBlexExtraqUpdateQueues_cases h with ⟨-, rfl⟩ | ⟨-, -, rfl⟩
  · rfl
  · rfl

/-- The parameter is sampled before the label `retry`. -/
theorem nvmeSetupIoQueues_nrWriteQueues (env : ResetEnv) (dev : NvmeDev) :
    (nvmeSetupIoQueues env dev).dev.nrWriteQueues = env.writeQueues := by
  simp only [nvmeSetupIoQueues]
  split
  · rfl
  split
  · rfl
  split
  case h_1 => rfl
  case h_2 dev₁ h_lock =>
    have h_locked := (nvmeSetupIoQueuesTrylock_sameConfig h_lock).nrWriteQueues
    split
    case h_1 => exact h_locked
    case h_2 dev₂ h_array =>
      have h_extra := nvmeBlexExtraqUpdateQueues_nrWriteQueues h_array
      split <;> exact h_extra.trans h_locked

theorem nvmeResetWork_retryInv {plat : Platform} {env : ResetEnv} (dev : NvmeDev)
    (h_env : env.writeQueues ≤ plat.numPossibleCpus) : RetryInv plat (nvmeResetWork env dev) := by
  intro nrIoQueues h_phase
  simp only [nvmeResetWork] at h_phase ⊢
  split at h_phase
  · cases h_phase
  split at h_phase
  · cases h_phase
  split at h_phase
  · cases h_phase
  · rename_i h_admin h_ret h_init
    rw [if_neg h_ret, if_neg h_init, nvmeSetupIoQueues_nrWriteQueues]
    exact h_env

theorem setupAttempt_nrWriteQueues (plat : Platform) (env : AttemptEnv) (nrIoQueues : Nat)
    (dev : NvmeDev) : (setupAttempt plat env nrIoQueues dev).dev.nrWriteQueues = dev.nrWriteQueues := by
  rcases setupAttempt_config plat env nrIoQueues dev with ⟨-, h_s⟩ | ⟨-, h_same⟩
  · rw [h_s]
    rfl
  · exact h_same.nrWriteQueues

theorem reach_retry {plat : Platform} {s : State}
    (h : Lts.Reach (step plat) (ParamsAccepted plat) Probed s) : RetryInv plat s := by
  apply h.invariant (I := RetryInv plat)
  · rintro s ⟨nrAllocatedQueues, rfl⟩ nrIoQueues h_phase
    cases h_phase
  · intro s e s' h_inv h_ok h_step
    unfold step at h_step
    split at h_step
    case h_1 env h_phase =>
      cases h_step
      exact nvmeResetWork_retryInv s.dev (ioQueueCountSet_zero_iff.mp h_ok.1)
    case h_2 env nrIoQueues h_phase =>
      cases h_step
      intro _ _
      rw [setupAttempt_nrWriteQueues]
      exact h_inv nrIoQueues h_phase
    case h_3 tagsetAlloc ret h_phase =>
      split at h_step
      case isFalse => cases h_step
      cases h_step
      intro _ h_idle
      cases h_idle
    case h_4 => cases h_step

/-! ## A setup that succeeds -/

/-- With poll queues no I/O queue is created. -/
theorem nvmeBlexCreateIoQueues_noPoll {env : Nat → QueueEnv} {dev dev' : NvmeDev} {ret : Int}
    (h : nvmeBlexCreateIoQueues env dev = .ok (ret, dev')) (h_ret : 0 ≤ ret) :
    dev.ioQueuesPoll = 0 := by
  have h_alloc := (allocLoop_sameConfig env (dev.maxQid + 1 - dev.queueCount) dev.queueCount dev).1
  by_contra h_poll
  rw [← h_alloc.ioQueuesPoll] at h_poll
  simp only [nvmeBlexCreateIoQueues, if_pos h_poll] at h
  cases h
  omega

/-- An attempt that returns 0 has vectors for its queues, and none of them is a poll queue. -/
theorem setupAttempt_returned {plat : Platform} {env : AttemptEnv} {nrIoQueues : Nat}
    {dev : NvmeDev} (h : (setupAttempt plat env nrIoQueues dev).phase = .returned 0) :
    0 < nvmeSetupIrqs plat env.vecs dev nrIoQueues ∧ pollQueues dev nrIoQueues = 0 := by
  unfold setupAttempt at h
  dsimp only at h
  split at h
  case isTrue => cases h
  case isFalse h_irqs =>
    refine ⟨by omega, ?_⟩
    split at h
    case isTrue h_admin =>
      rw [Phase.returned.injEq] at h
      exact absurd h h_admin
    split at h
    case h_1 => cases h
    case h_2 ret dev' h_create =>
      have h_poll (h_ret : 0 ≤ ret) : pollQueues dev nrIoQueues = 0 :=
        nvmeBlexCreateIoQueues_noPoll h_create h_ret
      split at h
      case isTrue =>
        cases h
        exact h_poll (Int.le_refl 0)
      case isFalse h_go => exact h_poll (by omega)

theorem nvmeSetupIoQueues_returned {env : ResetEnv} {dev : NvmeDev}
    (h : (nvmeSetupIoQueues env dev).phase = .returned 0) :
    (nvmeSetupIoQueues env dev).dev.onlineQueues = dev.onlineQueues := by
  simp only [nvmeSetupIoQueues] at h ⊢
  split at h
  case isTrue h_neg =>
    rw [Phase.returned.injEq] at h
    omega
  case isFalse h_pos =>
    rw [if_neg h_pos]
    split at h
    case isTrue h_none =>
      rw [if_pos h_none]
    case isFalse h_some =>
      split at h
      case h_1 => cases h
      case h_2 =>
        split at h
        case h_1 => cases h
        case h_2 => split at h <;> cases h

/-- A reset alone brings no I/O queue online. -/
theorem nvmeResetWork_online {env : ResetEnv} {dev : NvmeDev} (h : DevInv dev)
    (h_admin : AdminInv dev) (h_phase : (nvmeResetWork env dev).phase = .returned 0) :
    (nvmeResetWork env dev).dev.onlineQueues = 1 := by
  obtain ⟨h_disabled, h_zero⟩ := nvmeDevDisable_devInv h h_admin
  obtain ⟨ret, dev₁, h_eq, -, h_ok⟩ := nvmePciConfigureAdminQueue_devInv env h_disabled h_zero
  simp only [nvmeResetWork, h_eq] at h_phase ⊢
  split at h_phase
  case isTrue h_ret =>
    rw [Phase.returned.injEq] at h_phase
    exact absurd h_phase h_ret
  case isFalse h_ret =>
    rw [if_neg h_ret]
    split at h_phase
    case isTrue h_init =>
      rw [Phase.returned.injEq] at h_phase
      exact absurd h_phase h_init
    case isFalse h_init =>
      rw [if_neg h_init, nvmeSetupIoQueues_returned h_phase]
      exact (h_ok (not_not.mp h_ret)).1

/-- The requested vectors bound the NCQs. -/
theorem withLayout_nrCqs_le {plat : Platform} (vecs : Int) {dev : NvmeDev} {nrIoQueues : Nat}
    (h_cpus : 1 ≤ plat.numPossibleCpus) (h_write : dev.nrWriteQueues ≤ plat.numPossibleCpus)
    (h_poll : pollQueues dev nrIoQueues = 0) (h_two : 2 ≤ nrIoQueues) :
    (withLayout dev nrIoQueues (nvmeSetupIrqs plat vecs dev nrIoQueues)).nrCqs ≤
      2 * plat.numPossibleCpus := by
  have h_noPoll : dev.nrPollQueues = 0 := by
    unfold pollQueues at h_poll
    omega
  have h_max : nvmeMaxIoQueues plat dev ≤ 2 * plat.numPossibleCpus := by
    unfold nvmeMaxIoQueues
    split <;> omega
  have h_irqs : nvmeSetupIrqs plat vecs dev nrIoQueues ≤ nvmeMaxIoQueues plat dev + 1 := by
    simp only [nvmeSetupIrqs]
    omega
  show max ((nvmeSetupIrqs plat vecs dev nrIoQueues).toNat - 1) 1 ≤ _
  omega

/-- A device that gets a regulator has at most two NCQs for each possible CPU. -/
theorem nrCqs_le {plat : Platform} (h_cpus : 1 ≤ plat.numPossibleCpus) {s : State}
    (h : Lts.Reach (step plat) (ParamsAccepted plat) Probed s) (h_enables : EnablesBlex s) :
    s.dev.nrCqs ≤ 2 * plat.numPossibleCpus := by
  have h_returned := h_enables.returned
  have h_online := h_enables.nrHwQueues
  cases h with
  | init h_init =>
      obtain ⟨nrAllocatedQueues, rfl⟩ := h_init
      cases h_returned
  | @step s₀ _ e h_reach h_ok h_step =>
      have h_inv := reach_inv h_reach
      have h_settled := ((step_inv h_inv h_step).returned h_returned).settled (by omega)
      unfold step at h_step
      split at h_step
      case h_1 env h_phase =>
        cases h_step
        have h_one := nvmeResetWork_online h_inv.dev (h_inv.idle h_phase).admin h_returned
        omega
      case h_2 env nrIoQueues h_phase =>
        cases h_step
        obtain ⟨h_irqs, h_poll⟩ := setupAttempt_returned h_returned
        rcases setupAttempt_config plat env nrIoQueues s₀.dev with ⟨h_none, -⟩ | ⟨-, h_same⟩
        · omega
        · rw [h_same.nrCqs]
          have h_max : nrIoQueues = (setupAttempt plat env nrIoQueues s₀.dev).dev.maxQid :=
            h_same.maxQid.symm
          have h_all := h_settled.online
          exact withLayout_nrCqs_le env.vecs h_cpus (reach_retry h_reach nrIoQueues h_phase) h_poll
            (by omega)
      case h_3 tagsetAlloc ret h_phase =>
        split at h_step
        case isFalse => cases h_step
        cases h_step
        cases h_returned
      case h_4 => cases h_step

/-! ## The groups -/

/-- There is a CPU, and every possible CPU has an id below `nr_cpu_ids`. -/
structure CpuCounts (plat : Platform) (env : Sched.Env) : Prop where
  possible_pos : 1 ≤ plat.numPossibleCpus
  possible_le : plat.numPossibleCpus ≤ env.nrCpuIds

/-- When a regulator is built for a device, the NCQs of each group are written inside the heap
that was allocated for it. -/
theorem groupHeaps_fit {plat : Platform} {env : Sched.Env} (h_cpus : CpuCounts plat env) {s : State}
    (h : Lts.Reach (step plat) (ParamsAccepted plat) Probed s) (h_enables : EnablesBlex s) :
    ∃ reg₁ reg₂,
      Sched.blkBlexNqGroupInit env (Sched.regulatorZero s.dev.info) Sched.blkBlexTPrio =
        some reg₁ ∧
      Sched.blkBlexNqGroupInit env reg₁ Sched.blkBlexLPrio = some reg₂ ∧
      Sched.blkBlexNqRegulatorAllocAndInit env s.dev.info =
        Sched.enqInitLoop env s.dev.maxQid reg₂ ∧
      ∀ prio < Sched.blkBlexPrioLevel,
        (reg₂.nqGroups prio).prioArr.binHeap.length = (reg₂.nqGroups prio).nrNcqs ∧
        (reg₂.nqGroups prio).nrNcqs ≤ env.nrCpuIds := by
  have h_le := nrCqs_le h_cpus.possible_pos h h_enables
  have h_ids := h_cpus.possible_le
  have h_online := h_enables.nrHwQueues
  have h_settled := ((reach_inv h).returned h_enables.returned).settled (by omega)
  let L : QueueLayout := ⟨s.dev.info, h_settled.nrCqs_pos, h_settled.nrCqs_le⟩
  have h_fits (prio : Nat) (h_prio : prio < Sched.blkBlexPrioLevel) :
      L.groupNr prio ≤ env.nrCpuIds := by
    rcases Sched.prio_cases h_prio with rfl | rfl
    · show s.dev.nrCqs / 2 ≤ _
      omega
    · show s.dev.nrCqs - 1 * (s.dev.nrCqs / 2) ≤ _
      omega
  have h_zero : (Sched.regulatorZero s.dev.info).blexInfo = L.toBlkBlexDevInfo := rfl
  obtain ⟨reg₁, h_T⟩ := Sched.nqGroupInit_isSome h_zero (h_fits Sched.blkBlexTPrio (by decide))
  have h_info : reg₁.blexInfo = L.toBlkBlexDevInfo := (Sched.nqGroupInit_groups h_T).1
  obtain ⟨reg₂, h_L⟩ := Sched.nqGroupInit_isSome h_info (h_fits Sched.blkBlexLPrio (by decide))
  refine ⟨reg₁, reg₂, h_T, h_L, ?_, ?_⟩
  · rw [Sched.blkBlexNqRegulatorAllocAndInit, h_T]
    show (Sched.blkBlexNqGroupInit env reg₁ Sched.blkBlexLPrio).bind _ = _
    rw [h_L]
    rfl
  · intro prio h_prio
    obtain ⟨-, -, h_other⟩ := Sched.nqGroupInit_groups h_L
    rcases Sched.prio_cases h_prio with rfl | rfl
    · rw [h_other Sched.blkBlexTPrio (by decide)]
      exact Sched.nqGroupInit_heap h_T
    · exact Sched.nqGroupInit_heap h_L

/-- Two CPUs and two write queues: four queues, each of them an NCQ. -/
def twoWriteQueues : State :=
  setupAttempt twoCpus (attemptVecs 5 fun _ => queueOk) 4
    (nvmeResetWork { resetGranting 4 with writeQueues := 2 } (.probed 3)).dev

theorem twoWriteQueues_reach :
    Lts.Reach (step twoCpus) (ParamsAccepted twoCpus) Probed twoWriteQueues := by
  have h_reset : Lts.Reach (step twoCpus) (ParamsAccepted twoCpus) Probed
      (nvmeResetWork { resetGranting 4 with writeQueues := 2 } (.probed 3)) :=
    (Lts.Reach.init ⟨3, rfl⟩).step (e := .reset { resetGranting 4 with writeQueues := 2 })
      ⟨by decide, by decide⟩ rfl
  exact h_reset.step (e := .attempt (attemptVecs 5 fun _ => queueOk)) trivial rfl

/-- Both heaps are full. -/
theorem groupHeaps_fit_twoWriteQueues :
    twoWriteQueues.dev.nrCqs = 2 * twoCpus.numPossibleCpus ∧
      ∃ reg₁ reg₂,
        Sched.blkBlexNqGroupInit (.default 2) (Sched.regulatorZero twoWriteQueues.dev.info)
          Sched.blkBlexTPrio = some reg₁ ∧
        Sched.blkBlexNqGroupInit (.default 2) reg₁ Sched.blkBlexLPrio = some reg₂ ∧
        ∀ prio < Sched.blkBlexPrioLevel, (reg₂.nqGroups prio).prioArr.binHeap.length ≤ 2 := by
  have h_cpus : CpuCounts twoCpus (.default 2) := ⟨by decide, by decide⟩
  have h_enables : EnablesBlex twoWriteQueues := ⟨by decide, by decide, by decide⟩
  obtain ⟨reg₁, reg₂, h_T, h_L, -, h_fits⟩ :=
    groupHeaps_fit h_cpus twoWriteQueues_reach h_enables
  refine ⟨by decide, reg₁, reg₂, h_T, h_L, ?_⟩
  intro prio h_prio
  obtain ⟨h_length, h_le⟩ := h_fits prio h_prio
  rw [h_length]
  exact h_le

end Nvme

end Daredevil
