/-
  Daredevil.Nvme.Poll

  Which completion rings the timeout path looks at: `nvme_timeout` polls the queue
  of the request that timed out, and where it disables the device,
  `nvme_reap_pending_cqes` polls every queue that `blex_nvmeq_has_cq` calls an NCQ.

  The functions return the ids of the queues whose CQ they inspect, in order.
  `nvmeTimeout_realCqs_iff` says, for every state a run of resets reaches, when all
  of these are rings, and the ring of the request is the one its SQ completes on.
-/
import Daredevil.Nvme.Setup

namespace Daredevil.Nvme

/-! ## Source functions -/

/-- `ctrl.state`, with the states that `nvme_timeout` does not tell apart as one. -/
inductive CtrlState where
  | live
  | resetting
  | connecting
  | deleting
  | other
  deriving DecidableEq, Repr

/-- What `nvme_timeout` reads of the device and of the request. -/
structure TimeoutEnv where
  channelOffline : Bool
  /-- `NVME_CSTS_CFS` -/
  cfs : Bool
  /-- the controller has subsystem resets and reports one (`NVME_CSTS_NSSRO`) -/
  nssro : Bool
  state : CtrlState
  /-- `nvme_dev_disable` finds the controller dead -/
  dead : Bool
  /-- the request is still in flight after the poll -/
  inFlight : Bool
  /-- `iod->aborted` -/
  aborted : Bool

/-- `nvme_should_reset` -/
def nvmeShouldReset (env : TimeoutEnv) : Bool :=
  match env.state with
  | .resetting | .connecting => false
  | _ => env.cfs || env.nssro

/-- The CQ that `nvme_poll` inspects. -/
def nvmePoll (qid : Nat) : List Nat := [qid]

/-- The CQ that `nvme_poll_irqdisable` inspects. -/
def nvmePollIrqdisable (qid : Nat) : List Nat := [qid]

/-- The loop of `nvme_reap_pending_cqes`, from queue `n` down to queue 1. -/
def reapFrom (dev : NvmeDev) : Nat → List Nat
  | 0 => []
  | n + 1 =>
      if blexNvmeqHasCq dev (n + 1) then (n + 1) :: reapFrom dev n else reapFrom dev n

/-- `nvme_reap_pending_cqes` -/
def nvmeReapPendingCqes (dev : NvmeDev) : List Nat := reapFrom dev (dev.queueCount - 1)

/-- The CQs that `nvme_dev_disable` inspects: the admin queue's, unless the controller is dead,
    and once the queues are suspended those of the NCQs. -/
def nvmeDevDisableCqs (dead : Bool) (dev : NvmeDev) : List Nat :=
  (if !dead && decide (0 < dev.queueCount) then nvmePollIrqdisable 0 else []) ++
    nvmeReapPendingCqes (nvmeDevDisable dev)

structure TimeoutCqs where
  /-- polled for the request that timed out -/
  request : List Nat
  /-- inspected by `nvme_dev_disable` -/
  disable : List Nat

/-- `nvme_timeout` for a request on queue `qid`. -/
def nvmeTimeout (env : TimeoutEnv) (dev : NvmeDev) (qid : Nat) : TimeoutCqs :=
  -- the PCI error handler takes over
  if env.channelOffline then ⟨[], []⟩
  else if nvmeShouldReset env then ⟨[], nvmeDevDisableCqs env.dead dev⟩
  else
    let request := if (dev.queues qid).polled then nvmePoll qid else nvmePollIrqdisable qid
    -- the poll completed the request
    if !env.inFlight then ⟨request, []⟩
    else
      match env.state with
      | .connecting | .deleting => ⟨request, nvmeDevDisableCqs env.dead dev⟩
      | .resetting => ⟨request, []⟩
      | .live | .other =>
          -- the first timeout of an I/O request only sends an abort
          if qid == 0 || env.aborted then ⟨request, nvmeDevDisableCqs env.dead dev⟩
          else ⟨request, []⟩

/-! ## Which queues are inspected -/

theorem mem_reapFrom {dev : NvmeDev} {n i : Nat} :
    i ∈ reapFrom dev n ↔ 1 ≤ i ∧ i ≤ n ∧ blexNvmeqHasCq dev i = true := by
  induction n with
  | zero =>
      rw [reapFrom, List.mem_nil_iff, false_iff]
      omega
  | succ n ih =>
      have h_last : i = n + 1 ∨ i ≠ n + 1 := eq_or_ne i (n + 1)
      rw [reapFrom]
      split
      case isTrue h_cq =>
        rw [List.mem_cons, ih]
        constructor
        · rintro (rfl | ⟨h_pos, h_le, h_i⟩)
          · exact ⟨Nat.le_add_left 1 n, Nat.le_refl _, h_cq⟩
          · exact ⟨h_pos, Nat.le_succ_of_le h_le, h_i⟩
        · rintro ⟨h_pos, h_le, h_i⟩
          exact h_last.imp id fun h_ne => ⟨h_pos, by omega, h_i⟩
      case isFalse h_cq =>
        rw [ih]
        constructor
        · rintro ⟨h_pos, h_le, h_i⟩
          exact ⟨h_pos, Nat.le_succ_of_le h_le, h_i⟩
        · rintro ⟨h_pos, h_le, h_i⟩
          rcases h_last with rfl | h_ne
          · exact absurd h_i h_cq
          · exact ⟨h_pos, by omega, h_i⟩

theorem nvmeDevDisable_sameRings (dev : NvmeDev) : SameRings dev (nvmeDevDisable dev) :=
  (suspendFrom_sameRings _ dev).trans (nvmeSuspendQueue_sameRings _ 0)

theorem mem_nvmeReapPendingCqes {dev : NvmeDev} {i : Nat} :
    i ∈ nvmeReapPendingCqes dev ↔
      1 ≤ i ∧ i < dev.queueCount ∧ blkBlexHasCq i dev.info = true := by
  rw [nvmeReapPendingCqes, mem_reapFrom]
  constructor
  · rintro ⟨h_pos, h_le, h_cq⟩
    exact ⟨h_pos, by omega, by rw [← blexNvmeqHasCq_eq h_pos]; exact h_cq⟩
  · rintro ⟨h_pos, h_lt, h_cq⟩
    exact ⟨h_pos, by omega, by rw [blexNvmeqHasCq_eq h_pos]; exact h_cq⟩

/-- Suspending the queues does not change what is reaped. -/
theorem mem_reap_nvmeDevDisable {dev : NvmeDev} {i : Nat} :
    i ∈ nvmeReapPendingCqes (nvmeDevDisable dev) ↔ i ∈ nvmeReapPendingCqes dev := by
  have h_same := nvmeDevDisable_sameRings dev
  rw [mem_nvmeReapPendingCqes, mem_nvmeReapPendingCqes, h_same.queueCount, h_same.info]

theorem mem_nvmeDevDisableCqs {dead : Bool} {dev : NvmeDev} {i : Nat}
    (h : i ∈ nvmeDevDisableCqs dead dev) :
    i = 0 ∧ 1 ≤ dev.queueCount ∨ i ∈ nvmeReapPendingCqes dev := by
  rw [nvmeDevDisableCqs, List.mem_append] at h
  rcases h with h_admin | h_reap
  · split at h_admin
    case isTrue h_count =>
      rw [Bool.and_eq_true, decide_eq_true_eq] at h_count
      exact .inl ⟨List.mem_singleton.mp h_admin, h_count.2⟩
    case isFalse => cases h_admin
  · exact .inr (mem_reap_nvmeDevDisable.mp h_reap)

/-- The queue of the request is polled unless the handler stops before. -/
theorem nvmeTimeout_request (env : TimeoutEnv) (dev : NvmeDev) (qid : Nat) :
    (nvmeTimeout env dev qid).request =
      if env.channelOffline || nvmeShouldReset env then [] else [qid] := by
  have h_own : (if (dev.queues qid).polled then nvmePoll qid else nvmePollIrqdisable qid) = [qid] :=
    ite_self _
  rw [nvmeTimeout, h_own]
  cases env.channelOffline with
  | true => rfl
  | false =>
      cases nvmeShouldReset env with
      | true => rfl
      | false =>
          show (if !env.inFlight then (⟨[qid], []⟩ : TimeoutCqs) else _).request = [qid]
          split
          · rfl
          · split
            · rfl
            · rfl
            · rfl
            · split <;> rfl
            · split <;> rfl

theorem mem_nvmeTimeout_disable {env : TimeoutEnv} {dev : NvmeDev} {qid i : Nat}
    (h : i ∈ (nvmeTimeout env dev qid).disable) : i ∈ nvmeDevDisableCqs env.dead dev := by
  rw [nvmeTimeout] at h
  split at h
  · cases h
  split at h
  · exact h
  simp only at h
  split at h
  · cases h
  split at h
  · exact h
  · exact h
  · cases h
  · split at h
    · exact h
    · cases h
  · split at h
    · exact h
    · cases h

/-! ## Real completion rings -/

/-- A timeout on queue `qid` looks at rings only, and for the request at the ring that its SQ is
    attached to; reaping looks at rings only. -/
structure RealCqs (env : TimeoutEnv) (dev : NvmeDev) (qid : Nat) : Prop where
  attached : ∀ i ∈ (nvmeTimeout env dev qid).request, i = dev.sqCqid qid
  request : ∀ i ∈ (nvmeTimeout env dev qid).request, (dev.queues i).cqes = .allocated
  disable : ∀ i ∈ (nvmeTimeout env dev qid).disable, (dev.queues i).cqes = .allocated
  reap : ∀ i ∈ nvmeReapPendingCqes dev, (dev.queues i).cqes = .allocated

/-- Every queue below the queue count that is an NCQ of the current layout was allocated as one. -/
def RingsCurrent (dev : NvmeDev) : Prop :=
  ∀ qid, 1 ≤ qid → qid < dev.queueCount → blkBlexHasCq qid dev.info = true →
    (dev.queues qid).AllocatedAsNcq qid

theorem reap_allocated_iff {dev : NvmeDev} (h : RingInv dev) :
    (∀ i ∈ nvmeReapPendingCqes dev, (dev.queues i).cqes = .allocated) ↔ RingsCurrent dev := by
  constructor
  · intro h_reap qid h_qid h_lt h_cq
    exact (h.ring_iff qid h_qid h_lt).mp (h_reap qid (mem_nvmeReapPendingCqes.mpr ⟨h_qid, h_lt, h_cq⟩))
  · intro h_current i h_i
    obtain ⟨h_qid, h_lt, h_cq⟩ := mem_nvmeReapPendingCqes.mp h_i
    exact (h.ring_iff i h_qid h_lt).mpr (h_current i h_qid h_lt h_cq)

/-- In every state that resets reach and for every I/O queue that is online then: the timeout
    path looks at the right rings exactly if the request's queue is an NCQ or is not polled, and
    the allocated NCQs of the current layout were allocated as such. -/
theorem nvmeTimeout_realCqs_iff (plat : Platform) {s : State}
    (h : Lts.Reach (step plat) Lts.anyStep Probed s) (env : TimeoutEnv) {qid : Nat}
    (h_qid : 1 ≤ qid) (h_online : qid < s.dev.onlineQueues) :
    RealCqs env s.dev qid ↔
      (env.channelOffline = true ∨ nvmeShouldReset env = true ∨
        blkBlexHasCq qid s.dev.info = true) ∧ RingsCurrent s.dev := by
  obtain ⟨h_ring, h_count, h_assoc⟩ := (reach_inv h).dev
  have h_lt : qid < s.dev.queueCount := Nat.lt_of_lt_of_le h_online h_count.le
  -- the SQ completes on the queue itself exactly if the queue is an NCQ
  have h_own : qid = s.dev.sqCqid qid ↔ blkBlexHasCq qid s.dev.info = true := by
    rw [h_assoc qid h_qid h_online]
    exact beq_iff_eq.symm
  have h_request := nvmeTimeout_request env s.dev qid
  constructor
  · intro h_real
    refine ⟨?_, (reap_allocated_iff h_ring).mp h_real.reap⟩
    by_cases h_stop : (env.channelOffline || nvmeShouldReset env) = true
    · rw [Bool.or_eq_true] at h_stop
      exact h_stop.elim .inl fun h_reset => .inr (.inl h_reset)
    · rw [if_neg h_stop] at h_request
      have h_attached := h_real.attached
      rw [h_request] at h_attached
      exact .inr (.inr (h_own.mp (h_attached qid (List.mem_singleton_self qid))))
  · rintro ⟨h_stop, h_current⟩
    have h_reap := (reap_allocated_iff h_ring).mpr h_current
    have h_polled : ∀ i ∈ (nvmeTimeout env s.dev qid).request,
        i = qid ∧ blkBlexHasCq qid s.dev.info = true := by
      intro i h_i
      rw [h_request] at h_i
      -- the handler polls only if it stops for neither of the first two reasons
      split at h_i
      case isTrue => cases h_i
      case isFalse h_go =>
        rw [Bool.or_eq_true, not_or] at h_go
        exact ⟨List.mem_singleton.mp h_i, (h_stop.resolve_left h_go.1).resolve_left h_go.2⟩
    refine ⟨?_, ?_, ?_, h_reap⟩
    · intro i h_i
      obtain ⟨rfl, h_cq⟩ := h_polled i h_i
      exact h_own.mpr h_cq
    · intro i h_i
      obtain ⟨rfl, h_cq⟩ := h_polled i h_i
      exact (h_ring.ring_iff i h_qid h_lt).mpr (h_current i h_qid h_lt h_cq)
    · intro i h_i
      rcases mem_nvmeDevDisableCqs (mem_nvmeTimeout_disable h_i) with ⟨rfl, h_pos⟩ | h_i
      · exact h_ring.admin h_pos
      · exact h_reap i h_i

/-- A live controller, and a request that stays in flight. -/
def liveTimeout : TimeoutEnv := ⟨false, false, false, .live, false, true, false⟩

/-- Four queues on two completion queues, after the reset has finished. -/
def fourQueuesIdle : State := ⟨nvmeResetWorkFinish true fourQueues.dev, .idle⟩

theorem fourQueuesIdle_reach : Lts.Reach (step twoCpus) Lts.anyStep Probed fourQueuesIdle :=
  (fourQueues_reach.mono fun _ _ _ => trivial).step (e := .finish true) trivial rfl

/-- A timeout on queue 1, an NCQ. -/
theorem nvmeTimeout_realCqs_fourQueues : RealCqs liveTimeout fourQueuesIdle.dev 1 := by
  have h_rings : ∀ qid < 5, blkBlexHasCq qid fourQueuesIdle.dev.info = true → 1 ≤ qid →
      (fourQueuesIdle.dev.queues qid).AllocatedAsNcq qid := by
    decide
  apply (nvmeTimeout_realCqs_iff twoCpus fourQueuesIdle_reach liveTimeout (Nat.le_refl 1)
    (by decide)).mpr
  exact ⟨.inr (.inr (by decide)), fun qid h_qid h_lt h_cq => h_rings qid h_lt h_cq h_qid⟩

/-- A timeout on queue 2, which completes on queue 1, polls the NULL ring of queue 2. -/
theorem nvmeTimeout_pollsNull_fourQueues :
    ∃ s, Lts.Reach (step twoCpus) Lts.anyStep Probed s ∧ s.phase = .idle ∧ s.dev.tagset = true ∧
      2 < s.dev.onlineQueues ∧ (nvmeTimeout liveTimeout s.dev 2).request = [2] ∧
      s.dev.sqCqid 2 = 1 ∧ (s.dev.queues 2).cqes = .null ∧ ¬ RealCqs liveTimeout s.dev 2 := by
  refine ⟨fourQueuesIdle, fourQueuesIdle_reach, rfl, by decide, by decide, by decide, by decide,
    by decide, ?_⟩
  intro h
  have h_ring := h.request 2 (by decide)
  revert h_ring
  decide

end Daredevil.Nvme
