/-
  Daredevil.Sched.Separation

  Whether requests stay in the queues of their priority.  A request that uses the
  hctx of its task is always routed as it should be.  A promoted request of a T
  task is not: the source takes the CPU modulo the number of L queues, adds one,
  and uses the result as an hctx number, without adding the start of the L group.

  `requestRouting_iff` gives the CPUs for which the promoted request still reaches
  an L queue.
-/
import Daredevil.Sched.Route

namespace Daredevil

namespace QueueLayout

variable (L : QueueLayout)

/-- The number of queues of the L group. -/
def nrLPrioNqs : Nat := L.maxNqid - L.lStart + 1

variable (h_groups : 2 ≤ L.nrCqs)
include h_groups

theorem lStart_le : L.lStart ≤ L.maxNqid :=
  have h_half := L.half_lt h_groups
  (L.mem_range_of_attached h_half (L.kthCqid_mem_attached h_half)).2

/-- The T group is not empty. -/
theorem one_lt_lStart : 1 < L.lStart := by
  have h_lt := L.onePartition.strictMono 0 _ (L.half_pos h_groups) (L.half_lt h_groups)
  rwa [L.onePartition.first] at h_lt

/-- There are fewer L queues than queues, so a computed hctx number exists. -/
theorem mod_nrLPrioNqs_add_two_le (n : Nat) : n % L.nrLPrioNqs + 2 ≤ L.maxNqid := by
  have h_start := L.one_lt_lStart h_groups
  have h_le := L.lStart_le h_groups
  have h_mod : n % L.nrLPrioNqs < L.nrLPrioNqs := Nat.mod_lt _ (Nat.succ_pos _)
  unfold nrLPrioNqs at h_mod ⊢
  omega

end QueueLayout

namespace Sched

/-! ## The queue of a promoted request -/

/-- The CPU that the promoted queue is computed from: the upper half counts down. -/
def foldedCpu (nrCpuIds cpu : Nat) : Nat :=
  if cpu ≤ nrCpuIds / 2 then cpu else nrCpuIds - cpu - 1

variable {L : QueueLayout} {reg : NqRegulator} {env : Env} {c : Caller} {ioc : TaskIoc}

theorem getNonDefaultNqid_eq (h : RegWf L reg) (h_groups : 2 ≤ L.nrCqs)
    (h_cpu : ioc.lastWorkingCpu < env.nrCpuIds) :
    blkBlexSchedGetNonDefaultNqid env reg ioc =
      some ((foldedCpu env.nrCpuIds ioc.lastWorkingCpu % L.nrLPrioNqs + 1 : Nat) : Int) := by
  have h_start := (h.group blkBlexLPrio (by decide)).ncqStart_eq
  have h_idx : L.groupIdx blkBlexLPrio = L.nrCqs / blkBlexPrioLevel := Nat.one_mul _
  have h_le := L.lStart_le h_groups
  have h_nr : (L.maxNqid : Int) - L.lStart + 1 = (L.nrLPrioNqs : Nat) := by
    unfold QueueLayout.nrLPrioNqs
    omega
  have h_pos : ((L.nrLPrioNqs : Nat) : Int) ≠ 0 := by
    unfold QueueLayout.nrLPrioNqs
    omega
  rw [h_idx] at h_start
  have h_group : reg.group? blkBlexLPrio = some (reg.nqGroups blkBlexLPrio) :=
    if_pos (by decide)
  simp only [blkBlexSchedGetNonDefaultNqid, h_group, Option.bind_eq_bind, Option.bind_some,
    h_start, h.info]
  rw [show (L.kthCqid (L.nrCqs / blkBlexPrioLevel) : Int) = L.lStart from rfl, h_nr,
    if_neg h_pos, foldedCpu]
  have h_half : (ioc.lastWorkingCpu : Int) ≤ (env.nrCpuIds : Int).tdiv 2 ↔
      ioc.lastWorkingCpu ≤ env.nrCpuIds / 2 := Int.ofNat_le
  simp only [h_half]
  -- the C remainder of naturals is theirs
  split
  case isTrue => rfl
  case isFalse =>
    have h_sub : (env.nrCpuIds : Int) - ioc.lastWorkingCpu - 1 =
        ((env.nrCpuIds - ioc.lastWorkingCpu - 1 : Nat) : Int) := by omega
    rw [h_sub]
    rfl

/-- A promoted request lands on the hctx with the computed number, so one queue further. -/
theorem promoted_hctx (h : RegWf L reg) (h_groups : 2 ≤ L.nrCqs)
    (h_cpu : ioc.lastWorkingCpu < env.nrCpuIds) (h_prio : ioc.blexIoprio = blkBlexTPrio)
    {bioIoprio cmdFlags : Nat} (h_promoted : useDefault env ioc bioIoprio cmdFlags = false) :
    blkBlexSchedReqAlloc env reg ioc bioIoprio cmdFlags =
      some (some (foldedCpu env.nrCpuIds ioc.lastWorkingCpu % L.nrLPrioNqs + 1)) := by
  have h_notOutlier : ¬ ioc.blexIoprio = blkBlexOutlierPrio := by
    rw [h_prio]
    decide
  have h_range := L.mod_nrLPrioNqs_add_two_le h_groups (foldedCpu env.nrCpuIds ioc.lastWorkingCpu)
  rw [blkBlexSchedReqAlloc, h_promoted, if_neg Bool.false_ne_true, if_neg h_notOutlier,
    getNonDefaultNqid_eq h h_groups h_cpu]
  simp only [Option.bind_eq_bind, Option.bind_some, Option.some.injEq]
  rw [xaLoadHctx, h.info, if_pos, Int.toNat_natCast]
  omega

/-! ## Routing -/

/-- The request is of a priority above T. -/
def HighPrio (env : Env) (bioIoprio cmdFlags : Nat) : Prop :=
  env.ioprioPrioClass bioIoprio = env.ioprioClassRt ∨ blkBlexIsHighPrio env cmdFlags = true

instance (env : Env) (bioIoprio cmdFlags : Nat) : Decidable (HighPrio env bioIoprio cmdFlags) :=
  inferInstanceAs (Decidable (_ ∨ _))

/-- The priority that a request should be served with. -/
def expectedPrio (env : Env) (ioc : TaskIoc) (bioIoprio cmdFlags : Nat) : Nat :=
  if ioc.blexIoprio = blkBlexLPrio ∨ HighPrio env bioIoprio cmdFlags then blkBlexLPrio
  else blkBlexTPrio

/-- The request gets an hctx whose eNQ has priority `prio`. -/
def RoutedAs (env : Env) (c : Caller) (reg : NqRegulator) (ioc : TaskIoc) (oldHctx : Option Nat)
    (bioIoprio cmdFlags prio : Nat) : Prop :=
  ∃ hctx enq,
    blkBlexSchedHctx env c reg ioc oldHctx (some bioIoprio) cmdFlags .req =
      some (reg, ioc, some hctx) ∧
    reg.enq? (blkBlexHctxToNqid hctx) = some enq ∧ enq.prio = prio

/-- The hctx that scheduling a task for `prio` produced, at its initialisation or an update. -/
def ScheduledFor (env : Env) (L : QueueLayout) (prio : Nat) (hctx : Option Nat) : Prop :=
  ∃ c reg ioc oldHctx bio info reg' ioc', RegReach env L reg ∧
    ((ioc.blexIoprio = prio ∧
        blkBlexSchedHctx env c reg ioc oldHctx bio info .taskInit = some (reg', ioc', hctx)) ∨
      blkBlexSchedHctx env c reg ioc oldHctx bio prio .taskUpdate = some (reg', ioc', hctx))

theorem ScheduledFor.queueOf (h_groups : 2 ≤ L.nrCqs) (h_opt : env.blexOptLevel = 2) {prio : Nat}
    {hctx : Option Nat} (h : ScheduledFor env L prio hctx) : ∃ nqid, QueueOf L prio nqid hctx := by
  obtain ⟨c, reg, ioc, oldHctx, bio, info, reg', ioc', h_reach, h_sched⟩ := h
  have h_wf := h_reach.wf h_groups
  rcases h_sched with ⟨rfl, h_init⟩ | h_upd
  · obtain ⟨nqid, h_queue, -⟩ := taskInit_spec h_wf h_groups h_opt h_init
    exact ⟨nqid, h_queue⟩
  · have h_some : ∃ old, ioc.hctx = some old := by
      obtain ⟨old, h_old, -⟩ := Option.bind_eq_some_iff.mp h_upd
      exact ⟨old, h_old⟩
    obtain ⟨old, h_old⟩ := h_some
    obtain ⟨nqid, h_queue, -⟩ := taskUpdate_spec h_wf h_groups h_opt h_old h_upd
    exact ⟨nqid, h_queue⟩

theorem routedAs_iff (h : RegWf L reg) {bioIoprio cmdFlags nqid : Nat} (oldHctx : Option Nat)
    (prio : Nat) (h_pos : 1 ≤ nqid) (h_le : nqid ≤ L.maxNqid)
    (h_req : blkBlexSchedReqAlloc env reg ioc bioIoprio cmdFlags = some (some (nqid - 1))) :
    RoutedAs env c reg ioc oldHctx bioIoprio cmdFlags prio ↔ L.prioOf nqid = prio := by
  have h_nqid : blkBlexHctxToNqid (nqid - 1) = nqid := Nat.sub_add_cancel h_pos
  have h_sched : blkBlexSchedHctx env c reg ioc oldHctx (some bioIoprio) cmdFlags .req =
      some (reg, ioc, some (nqid - 1)) := by
    simp only [blkBlexSchedHctx, Option.bind_eq_bind, Option.bind_some, h_req]
  have h_enq := h.enq?_eq h_pos h_le
  have h_prio := (h.enq nqid h_pos h_le).prio_eq
  constructor
  · rintro ⟨hctx, enq, h_sched', h_enq', h_prio'⟩
    rw [h_sched] at h_sched'
    cases h_sched'
    rw [h_nqid, h_enq] at h_enq'
    cases h_enq'
    rw [← h_prio, h_prio']
  · intro h_eq
    exact ⟨_, _, h_sched, h_nqid.symm ▸ h_enq, h_prio.trans h_eq⟩

theorem useDefault_iff (h_prio : ioc.blexIoprio = blkBlexTPrio ∨ ioc.blexIoprio = blkBlexLPrio)
    (bioIoprio cmdFlags : Nat) :
    useDefault env ioc bioIoprio cmdFlags = false ↔
      ioc.blexIoprio = blkBlexTPrio ∧ HighPrio env bioIoprio cmdFlags := by
  have h_map : (blkBlexIoprioSimpleMap env bioIoprio &&& blkBlexLPrioMask != 0) = true ↔
      env.ioprioPrioClass bioIoprio = env.ioprioClassRt := by
    unfold blkBlexIoprioSimpleMap
    split
    case isTrue h => exact iff_of_true (by decide) h
    case isFalse h => exact iff_of_false (by decide) h
  have h_bit : (ioc.blexIoprio &&& blkBlexLPrioMask == 0) = true ↔
      ioc.blexIoprio = blkBlexTPrio := by
    rcases h_prio with h | h
    · rw [h]
      exact iff_of_true (by decide) rfl
    · rw [h]
      exact iff_of_false (by decide) (by decide)
  rw [useDefault, Bool.not_eq_false', Bool.and_eq_true, Bool.or_eq_true, h_bit, h_map, HighPrio]

/-- A promoted request is routed to an L queue exactly if the computed queue is one. -/
theorem promoted_routedAs_iff (h : RegWf L reg) (h_groups : 2 ≤ L.nrCqs)
    (h_cpu : ioc.lastWorkingCpu < env.nrCpuIds) (h_prio : ioc.blexIoprio = blkBlexTPrio)
    (oldHctx : Option Nat) {bioIoprio cmdFlags : Nat}
    (h_promoted : useDefault env ioc bioIoprio cmdFlags = false) :
    RoutedAs env c reg ioc oldHctx bioIoprio cmdFlags blkBlexLPrio ↔
      L.lStart ≤ foldedCpu env.nrCpuIds ioc.lastWorkingCpu % L.nrLPrioNqs + 2 := by
  have h_range := L.mod_nrLPrioNqs_add_two_le h_groups (foldedCpu env.nrCpuIds ioc.lastWorkingCpu)
  rw [routedAs_iff h oldHctx blkBlexLPrio (Nat.succ_pos _) h_range
    (promoted_hctx h h_groups h_cpu h_prio h_promoted), QueueLayout.prioOf]
  split
  case isTrue h_lt => exact iff_of_false (by decide) (Nat.not_le_of_lt h_lt)
  case isFalse h_ge => exact iff_of_true rfl (Nat.le_of_not_lt h_ge)

/-- A request that uses the hctx of its task is served with the priority of the task. -/
theorem default_routedAs (h : RegWf L reg) {nqid : Nat}
    (h_queue : QueueOf L ioc.blexIoprio nqid ioc.hctx) (oldHctx : Option Nat)
    {bioIoprio cmdFlags : Nat} (h_default : useDefault env ioc bioIoprio cmdFlags = true) :
    RoutedAs env c reg ioc oldHctx bioIoprio cmdFlags ioc.blexIoprio := by
  have h_req : blkBlexSchedReqAlloc env reg ioc bioIoprio cmdFlags = some (some (nqid - 1)) := by
    rw [blkBlexSchedReqAlloc, if_pos h_default, h_queue.hctx_eq]
  exact (routedAs_iff h oldHctx _ h_queue.pos h_queue.le h_req).mpr h_queue.prio_eq

/-- On opt level 2 a request of a T or L task is served with the priority it should
have, unless it is promoted and the computed queue falls short of the L group. -/
theorem requestRouting_iff (h_groups : 2 ≤ L.nrCqs) (h_opt : env.blexOptLevel = 2)
    (h_reg : RegReach env L reg)
    (h_prio : ioc.blexIoprio = blkBlexTPrio ∨ ioc.blexIoprio = blkBlexLPrio)
    (h_hctx : ScheduledFor env L ioc.blexIoprio ioc.hctx)
    (h_cpu : ioc.lastWorkingCpu < env.nrCpuIds) (c : Caller) (oldHctx : Option Nat)
    (bioIoprio cmdFlags : Nat) :
    RoutedAs env c reg ioc oldHctx bioIoprio cmdFlags (expectedPrio env ioc bioIoprio cmdFlags) ↔
      (ioc.blexIoprio = blkBlexTPrio → HighPrio env bioIoprio cmdFlags →
        L.lStart ≤ foldedCpu env.nrCpuIds ioc.lastWorkingCpu % L.nrLPrioNqs + 2) := by
  have h_wf := h_reg.wf h_groups
  have h_useDefault : useDefault env ioc bioIoprio cmdFlags = false ↔
      ioc.blexIoprio = blkBlexTPrio ∧ HighPrio env bioIoprio cmdFlags :=
    useDefault_iff h_prio bioIoprio cmdFlags
  by_cases h_promoted : useDefault env ioc bioIoprio cmdFlags = false
  · obtain ⟨h_T, h_high⟩ := h_useDefault.mp h_promoted
    have h_expected : expectedPrio env ioc bioIoprio cmdFlags = blkBlexLPrio :=
      if_pos (.inr h_high)
    rw [h_expected, promoted_routedAs_iff h_wf h_groups h_cpu h_T oldHctx h_promoted]
    exact ⟨fun h_le _ _ => h_le, fun h_imp => h_imp h_T h_high⟩
  · -- then an L task, or a request that is not above T
    obtain ⟨nqid, h_queue⟩ := h_hctx.queueOf h_groups h_opt
    have h_notHigh (h_T : ioc.blexIoprio = blkBlexTPrio) : ¬ HighPrio env bioIoprio cmdFlags :=
      fun h_high => h_promoted (h_useDefault.mpr ⟨h_T, h_high⟩)
    have h_expected : expectedPrio env ioc bioIoprio cmdFlags = ioc.blexIoprio := by
      rcases h_prio with h_T | h_L
      · have h_ne : ¬ ioc.blexIoprio = blkBlexLPrio := by
          rw [h_T]
          decide
        rw [expectedPrio, if_neg (not_or.mpr ⟨h_ne, h_notHigh h_T⟩), h_T]
      · rw [expectedPrio, if_pos (.inl h_L), h_L]
    rw [h_expected]
    apply iff_of_true
    · exact default_routedAs h_wf h_queue oldHctx (Bool.eq_true_of_not_eq_false h_promoted)
    · intro h_T h_high
      exact absurd h_high (h_notHigh h_T)

/-! ## Four queues, four CPUs -/

/-- Four queues, each with its own completion queue. -/
def fourNqs : QueueLayout := ⟨⟨4, 4⟩, by decide, by decide⟩

/-- Their regulator when it has just been initialised. -/
def fourNqsReg : NqRegulator :=
  (regulatorInit (.default 4) fourNqs.toBlkBlexDevInfo fun _ => 1024).getD
    (regulatorZero fourNqs.toBlkBlexDevInfo)

/-- A call on CPU 0 by the task itself, with all tags free. -/
def onCpuZero : Caller := ⟨0, 0, true, fun _ => false⟩

/-- A T task that was initialised on CPU 0. -/
def tTask : TaskIoc := ⟨0, 0, 0, some 0, none, false, blkBlexTPrio⟩

theorem fourNqsReg_initialised :
    ∃ qDepth, regulatorInit (.default 4) fourNqs.toBlkBlexDevInfo qDepth = some fourNqsReg := by
  have h_some : (regulatorInit (.default 4) fourNqs.toBlkBlexDevInfo fun _ => 1024).isSome := by
    decide
  obtain ⟨reg, h_reg⟩ := Option.isSome_iff_exists.mp h_some
  have h_eq : fourNqsReg = reg := by
    rw [fourNqsReg, h_reg, Option.getD_some]
  exact ⟨_, h_eq ▸ h_reg⟩

theorem fourNqsReg_reach : RegReach (.default 4) fourNqs fourNqsReg :=
  .init fourNqsReg_initialised

theorem tTask_scheduledFor : ScheduledFor (.default 4) fourNqs tTask.blexIoprio tTask.hctx := by
  have h_hctx : (blkBlexSchedHctx (.default 4) onCpuZero fourNqsReg { tTask with hctx := none }
      none none 0 .taskInit).map (fun r => r.2.2) = some (some 0) := by decide
  obtain ⟨⟨reg', ioc', hctx⟩, h_sched, rfl⟩ := Option.map_eq_some_iff.mp h_hctx
  exact ⟨onCpuZero, fourNqsReg, { tTask with hctx := none }, none, none, 0, reg', ioc',
    fourNqsReg_reach, .inl ⟨rfl, h_sched⟩⟩

/-- A synchronous request of the task. -/
theorem requestRouting_iff_fourNqs :
    RoutedAs (.default 4) onCpuZero fourNqsReg tTask none 0 2048
        (expectedPrio (.default 4) tTask 0 2048) ↔
      (tTask.blexIoprio = blkBlexTPrio → HighPrio (.default 4) 0 2048 →
        fourNqs.lStart ≤ foldedCpu 4 tTask.lastWorkingCpu % fourNqs.nrLPrioNqs + 2) :=
  requestRouting_iff (by decide) rfl fourNqsReg_reach (.inl rfl) tTask_scheduledFor
    (by decide) onCpuZero none 0 2048

/-- The L group is `3, 4`, but the request is sent to queue `2`. -/
theorem promotedRequest_misrouted :
    RegReach (.default 4) fourNqs fourNqsReg ∧
      ScheduledFor (.default 4) fourNqs tTask.blexIoprio tTask.hctx ∧
      2 ≤ fourNqs.nrCqs ∧ tTask.blexIoprio = blkBlexTPrio ∧ tTask.lastWorkingCpu < 4 ∧
      expectedPrio (.default 4) tTask 0 2048 = blkBlexLPrio ∧
      ¬ RoutedAs (.default 4) onCpuZero fourNqsReg tTask none 0 2048 blkBlexLPrio := by
  refine ⟨fourNqsReg_reach, tTask_scheduledFor, by decide, rfl, by decide, by decide, ?_⟩
  rintro ⟨hctx, enq, h_sched, h_enq, h_prio⟩
  have h_hctx : (blkBlexSchedHctx (.default 4) onCpuZero fourNqsReg tTask none (some 0) 2048
      .req).map (fun r => r.2.2) = some (some 1) := by decide
  rw [h_sched, Option.map_some, Option.some.injEq, Option.some.injEq] at h_hctx
  subst h_hctx
  have h_T : (fourNqsReg.enq? 2).map ExposedNq.prio = some blkBlexTPrio := by decide
  rw [show blkBlexHctxToNqid 1 = 2 from rfl] at h_enq
  rw [h_enq, Option.map_some, h_prio] at h_T
  exact absurd h_T (by decide)

end Sched

end Daredevil
