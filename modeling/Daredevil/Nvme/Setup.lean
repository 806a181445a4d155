/-
  Daredevil.Nvme.Setup

  Controller resets (`nvme_reset_work`) and the setup of the I/O queues
  (`nvme_setup_io_queues`) as a transition system.  One event is

    * `reset`   — `nvme_reset_work` up to the label `retry`;
    * `attempt` — one pass from `retry` to the jump back to it or to the return;
    * `finish`  — the rest of `nvme_reset_work` after a setup that returned 0.

  Each event carries what the allocator, the controller and the interrupt core
  answer.  `Inv` holds of every reachable state.  `max_qid` and `nr_cqs` are chosen
  again by every attempt, but queues below the queue count keep the rings they were
  allocated with: `setup_ncqsBacked` says when the NCQs of the new layout are
  nevertheless backed by rings, `shrinkingSetup_clearsNull` gives a run where one is not.
-/
import Daredevil.Lib.Lts
import Daredevil.Nvme.Dev

namespace Daredevil.Nvme

/-! ## Environment -/

/-- The machine and the controller's quirks. -/
structure Platform where
  numPossibleCpus : Nat
  /-- `NVME_QUIRK_SHARED_TAGS` -/
  sharedTags : Bool
  /-- `NVME_QUIRK_SINGLE_VECTOR` -/
  singleVector : Bool

/-- The answers `nvme_reset_work` gets before the label `retry`. -/
structure ResetEnv where
  /-- for the admin queue -/
  admin : QueueEnv
  enableCtrl : Int
  /-- the steps between the admin queue and the I/O queues; nonzero aborts the reset -/
  initCtrl : Int
  writeQueues : Nat
  pollQueues : Nat
  /-- `nvme_set_queue_count`, and the number of I/O queues it grants -/
  setQueueCount : Int
  granted : Nat
  lockFree : Bool
  arrayAlloc : Bool
  /-- `nvme_remap_bar` succeeds for this many I/O queues -/
  remapBar : Nat → Bool

/-- The answers one pass from `retry` on gets. -/
structure AttemptEnv where
  /-- `pci_alloc_irq_vectors_affinity` -/
  vecs : Int
  adminIrq : Int
  queue : Nat → QueueEnv
  lockFree : Bool
  /-- `nvme_blex_get_arbitration_burst` -/
  arbitration : Int

inductive Event where
  | reset (env : ResetEnv)
  | attempt (env : AttemptEnv)
  /-- `tagsetAlloc`: `nvme_pci_alloc_tag_set` succeeds -/
  | finish (tagsetAlloc : Bool)

inductive Phase where
  /-- no reset is running -/
  | idle
  /-- at the label `retry` of `nvme_setup_io_queues` -/
  | retry (nrIoQueues : Nat)
  /-- `nvme_setup_io_queues`, or a step of `nvme_reset_work` before it, has returned -/
  | returned (ret : Int)
  | faulted (fault : Fault)
  deriving DecidableEq, Repr

structure State where
  dev : NvmeDev
  phase : Phase

/-! ## Before the I/O queues -/

/-- The queues' part of `nvme_dev_disable`. -/
def nvmeDevDisable (dev : NvmeDev) : NvmeDev := nvmeSuspendQueue (nvmeSuspendIoQueues dev) 0

def NvmeDev.setAdminEnabled (dev : NvmeDev) (enabled : Bool) : NvmeDev :=
  dev.setQueue 0 { dev.queues 0 with enabled := enabled }

/-- `nvme_pci_configure_admin_queue` -/
def nvmePciConfigureAdminQueue (env : ResetEnv) (dev : NvmeDev) : Except Fault (Int × NvmeDev) :=
  let a := nvmeAllocQueue env.admin dev 0
  if !a.1 then .ok (enomem, a.2)
  else if env.enableCtrl ≠ 0 then .ok (env.enableCtrl, a.2)
  else
    match nvmeInitQueue a.2 0 with
    | .error fault => .error fault
    | .ok dev =>
        if env.admin.requestIrq ≠ 0 then
          .ok (env.admin.requestIrq, { dev with onlineQueues := dev.onlineQueues - 1 })
        else .ok (0, dev.setAdminEnabled true)

/-- `NVME_MAX_IO_QUEUES` -/
def nvmeMaxNrIoQueues : Nat := 65535

/-- The loop around `nvme_remap_bar`, from `n` I/O queues on; `none` when it reaches 0. -/
def remapLoop (remapBar : Nat → Bool) : Nat → Option Nat
  | 0 => none
  | n + 1 => if remapBar (n + 1) then some (n + 1) else remapLoop remapBar n

/-- `nvme_setup_io_queues` up to the label `retry`. -/
def nvmeSetupIoQueues (env : ResetEnv) (dev : NvmeDev) : State :=
  let dev := { dev with nrWriteQueues := env.writeQueues, nrPollQueues := env.pollQueues }
  let nrIoQueues := min (nvmeMaxNrIoQueues - 1) env.granted
  if env.setQueueCount < 0 then ⟨dev, .returned env.setQueueCount⟩
  else if nrIoQueues = 0 then ⟨dev, .returned 0⟩
  else
    match nvmeSetupIoQueuesTrylock env.lockFree dev with
    | none => ⟨dev, .returned enodev⟩
    | some dev =>
        let dev := dev.setAdminEnabled false
        match nvmeBlexExtraqUpdateQueues env.arrayAlloc dev nrIoQueues with
        -- returns with `shutdown_lock` held
        | none => ⟨dev, .returned enomem⟩
        | some dev =>
            match remapLoop env.remapBar nrIoQueues with
            | none => ⟨{ dev with shutdownLock := false }, .returned enomem⟩
            | some nrIoQueues => ⟨dev, .retry nrIoQueues⟩

/-- `nvme_reset_work` up to the label `retry`.  A device that was not disabled by whoever
    asked for the reset is disabled here; on the first probe this does nothing. -/
def nvmeResetWork (env : ResetEnv) (dev : NvmeDev) : State :=
  let dev := nvmeDevDisable dev
  match nvmePciConfigureAdminQueue env dev with
  | .error fault => ⟨dev, .faulted fault⟩
  | .ok (ret, dev) =>
      if ret ≠ 0 then ⟨dev, .returned ret⟩
      else if env.initCtrl ≠ 0 then ⟨dev, .returned env.initCtrl⟩
      else nvmeSetupIoQueues env dev

/-! ## One attempt -/

/-- `nvme_max_io_queues` -/
def nvmeMaxIoQueues (plat : Platform) (dev : NvmeDev) : Nat :=
  if plat.sharedTags then 1 else plat.numPossibleCpus + dev.nrWriteQueues + dev.nrPollQueues

/-- `poll_queues` of `nvme_setup_irqs` -/
def pollQueues (dev : NvmeDev) (nrIoQueues : Nat) : Nat := min dev.nrPollQueues (nrIoQueues - 1)

/-- `nvme_setup_irqs`: at most the requested vectors are granted. -/
def nvmeSetupIrqs (plat : Platform) (vecs : Int) (dev : NvmeDev) (nrIoQueues : Nat) : Int :=
  let irqQueues :=
    if plat.singleVector then 1 else 1 + (nrIoQueues - pollQueues dev nrIoQueues)
  min vecs (min irqQueues (nvmeMaxIoQueues plat dev + 1) : Nat)

/-- The device when `nvme_setup_io_queues` has `irqs` vectors for `nrIoQueues` queues. -/
def withLayout (dev : NvmeDev) (nrIoQueues : Nat) (irqs : Int) : NvmeDev :=
  { dev.setAdminEnabled false with
    ioQueuesPoll := pollQueues dev nrIoQueues
    numVecs := irqs.toNat
    nrCqs := max (irqs.toNat - 1) 1
    maxQid := nrIoQueues }

/-- One pass from the label `retry` of `nvme_setup_io_queues`. -/
def setupAttempt (plat : Platform) (env : AttemptEnv) (nrIoQueues : Nat) (dev : NvmeDev) : State :=
  let irqs := nvmeSetupIrqs plat env.vecs dev nrIoQueues
  -- `-EIO` before the new layout is stored
  if irqs ≤ 0 then
    ⟨{ dev.setAdminEnabled false with
        ioQueuesPoll := pollQueues dev nrIoQueues, shutdownLock := false }, .returned eio⟩
  else
    let dev := { withLayout dev nrIoQueues irqs with shutdownLock := false }
    if env.adminIrq ≠ 0 then ⟨dev, .returned env.adminIrq⟩
    else
      let dev := dev.setAdminEnabled true
      match nvmeBlexCreateIoQueues env.queue dev with
      | .error fault => ⟨dev, .faulted fault⟩
      | .ok (ret, dev) =>
          -- the admin queue alone is no error
          if ret ≠ 0 ∨ dev.onlineQueues < 2 then ⟨dev, .returned ret⟩
          -- try again with the number of queues that could be created
          else if dev.onlineQueues - 1 < dev.maxQid then
            match nvmeSetupIoQueuesTrylock env.lockFree dev with
            | none => ⟨dev, .returned enodev⟩
            | some locked => ⟨nvmeSuspendIoQueues locked, .retry (dev.onlineQueues - 1)⟩
          else if env.arbitration < 0 then ⟨dev, .returned env.arbitration⟩
          else ⟨dev, .returned 0⟩

/-! ## The transition system -/

/-- The rest of `nvme_reset_work` when `nvme_setup_io_queues` returned 0. -/
def nvmeResetWorkFinish (tagsetAlloc : Bool) (dev : NvmeDev) : NvmeDev :=
  if dev.onlineQueues < 2 then { dev with tagset := false }
  else if !dev.tagset then { dev with tagset := tagsetAlloc }
  -- `nvme_pci_update_nr_queues`
  else nvmeFreeQueues dev dev.onlineQueues

def step (plat : Platform) (s : State) (e : Event) : Option State :=
  match e, s.phase with
  | .reset env, .idle => some (nvmeResetWork env s.dev)
  | .attempt env, .retry nrIoQueues => some (setupAttempt plat env nrIoQueues s.dev)
  | .finish tagsetAlloc, .returned ret =>
      if ret = 0 then some ⟨nvmeResetWorkFinish tagsetAlloc s.dev, .idle⟩ else none
  | _, _ => none

/-- A device with `nrAllocatedQueues` zeroed queues, as `nvme_probe` leaves it. -/
def NvmeDev.probed (nrAllocatedQueues : Nat) : NvmeDev where
  queues := fun _ => .zero
  nrAllocatedQueues := nrAllocatedQueues
  queueCount := 0
  onlineQueues := 0
  maxQid := 0
  nrCqs := 0
  numVecs := 0
  nrWriteQueues := 0
  nrPollQueues := 0
  ioQueuesPoll := 0
  sqCqid := fun _ => 0
  shutdownLock := false
  tagset := false

def Probed (s : State) : Prop := ∃ nrAllocatedQueues, s = ⟨.probed nrAllocatedQueues, .idle⟩

/-! ## The invariant -/

/-- The layout of a device whose I/O queues are online: all of them are. -/
structure Settled (dev : NvmeDev) : Prop where
  nrCqs_pos : 1 ≤ dev.nrCqs
  nrCqs_le : dev.nrCqs ≤ dev.maxQid
  online : dev.onlineQueues = dev.maxQid + 1

/-- The admin queue counts as online exactly if it is enabled. -/
def AdminInv (dev : NvmeDev) : Prop := (dev.queues 0).enabled = true ↔ 1 ≤ dev.onlineQueues

/-- Between resets, and after a setup that returned 0. -/
structure RestInv (dev : NvmeDev) : Prop where
  admin : AdminInv dev
  settled : 2 ≤ dev.onlineQueues → Settled dev

structure Inv (s : State) : Prop where
  dev : DevInv s.dev
  idle : s.phase = .idle → RestInv s.dev
  retry : ∀ nrIoQueues, s.phase = .retry nrIoQueues → 1 ≤ nrIoQueues ∧ s.dev.onlineQueues = 1
  returned : s.phase = .returned 0 → RestInv s.dev

/-- With no I/O queue online, the layout fields do not matter. -/
theorem DevInv.congr {dev dev' : NvmeDev} (h : DevInv dev) (h_queues : dev'.queues = dev.queues)
    (h_count : dev'.queueCount = dev.queueCount) (h_online : dev'.onlineQueues = dev.onlineQueues)
    (h_one : dev'.onlineQueues ≤ 1) : DevInv dev' where
  ring := by
    refine ⟨?_, ?_, ?_⟩
    · rw [h_count, h_queues]
      exact h.ring.admin
    · rw [h_count, h_queues]
      exact h.ring.ring_iff
    · rw [h_count, h_queues]
      exact h.ring.beyond
  online := by
    refine ⟨?_, ?_⟩
    · rw [h_count, h_online]
      exact h.online.le
    · rw [h_queues, h_online]
      exact h.online.enabled_iff
  assoc := .of_online_le_one h_one

theorem setAdminEnabled_sameRings (dev : NvmeDev) (enabled : Bool) :
    SameRings dev (dev.setAdminEnabled enabled) where
  queueCount := rfl
  info := rfl
  cqes := setQueue_congr NvmeQueue.cqes rfl
  allocInfo := setQueue_congr NvmeQueue.allocInfo rfl

theorem OnlineInv.setAdminEnabled {dev : NvmeDev} (h : OnlineInv dev) (enabled : Bool) :
    OnlineInv (dev.setAdminEnabled enabled) where
  le := h.le
  enabled_iff qid h_qid := by
    show ((dev.setQueue 0 _).queues qid).enabled = true ↔ qid < dev.onlineQueues
    rw [setQueue_queues_of_ne (by omega)]
    exact h.enabled_iff qid h_qid

theorem DevInv.setAdminEnabled {dev : NvmeDev} (h : DevInv dev) (enabled : Bool) :
    DevInv (dev.setAdminEnabled enabled) :=
  ⟨h.ring.of_sameRings (setAdminEnabled_sameRings dev enabled), h.online.setAdminEnabled enabled,
    h.assoc⟩

theorem setAdminEnabled_admin (dev : NvmeDev) (enabled : Bool) :
    ((dev.setAdminEnabled enabled).queues 0).enabled = enabled := by
  show ((dev.setQueue 0 _).queues 0).enabled = enabled
  rw [setQueue_queues_self]

/-! ### Before the label `retry` -/

/-- Nothing is online once the device is disabled. -/
theorem nvmeDevDisable_devInv {dev : NvmeDev} (h : DevInv dev) (h_admin : AdminInv dev) :
    DevInv (nvmeDevDisable dev) ∧ (nvmeDevDisable dev).onlineQueues = 0 := by
  -- the I/O queues first, which leaves at most the admin queue in the count
  obtain ⟨h_online, h_min⟩ := nvmeSuspendIoQueues_online h.online
  have h_rings := suspendFrom_sameRings (dev.queueCount - 1) dev
  have h_queue : (nvmeSuspendIoQueues dev).queues 0 = dev.queues 0 := suspendFrom_admin _ dev
  have h_zero : (nvmeDevDisable dev).onlineQueues = 0 := by
    rw [nvmeDevDisable, nvmeSuspendQueue, h_queue]
    cases h_on : (dev.queues 0).enabled with
    | true =>
        have h_pos := h_admin.mp h_on
        show (nvmeSuspendIoQueues dev).onlineQueues - 1 = 0
        omega
    | false =>
        have h_not : ¬ 1 ≤ dev.onlineQueues := fun h_pos => by
          rw [h_admin.mpr h_pos] at h_on
          cases h_on
        show (nvmeSuspendIoQueues dev).onlineQueues = 0
        omega
  refine ⟨⟨?_, ⟨by omega, ?_⟩, .of_online_le_one (by omega)⟩, h_zero⟩
  · exact (h.ring.of_sameRings h_rings).of_sameRings (nvmeSuspendQueue_sameRings _ 0)
  · intro qid h_qid
    rw [nvmeDevDisable, nvmeSuspendQueue_queues_of_ne (by omega), h_online.enabled_iff qid h_qid]
    rw [nvmeDevDisable] at h_zero
    omega

/-- Allocating the admin queue leaves the I/O queues alone. -/
theorem nvmeAllocQueue_admin (env : QueueEnv) {dev : NvmeDev} (h : DevInv dev)
    (h_zero : dev.onlineQueues = 0) :
    let r := nvmeAllocQueue env dev 0
    DevInv r.2 ∧ r.2.onlineQueues = 0 ∧ (r.1 = true → 1 ≤ r.2.queueCount) := by
  have h_off {nvmeq : NvmeQueue} (i : Nat) (h_i : 1 ≤ i) :
      ((dev.setQueue 0 nvmeq).queues i).enabled = true ↔ i < dev.onlineQueues := by
    rw [setQueue_queues_of_ne (by omega)]
    exact h.online.enabled_iff i h_i
  simp only [nvmeAllocQueue]
  split
  case isTrue h_count => exact ⟨h, h_zero, fun _ => h_count⟩
  case isFalse h_count =>
    have h_count : dev.queueCount = 0 := by omega
    split
    · exact ⟨⟨h.ring.setQueue_beyond (by omega) (by simp), ⟨h.online.le, h_off⟩, h.assoc⟩, h_zero,
        fun h_ok => by cases h_ok⟩
    · split
      · exact ⟨⟨h.ring.setQueue_beyond (by omega) (by simp), ⟨h.online.le, h_off⟩, h.assoc⟩,
          h_zero, fun h_ok => by cases h_ok⟩
      · refine ⟨⟨⟨?_, ?_, ?_⟩, ⟨?_, h_off⟩, h.assoc⟩,
          h_zero, fun _ => Nat.le_add_left _ _⟩
        · intro _
          exact congrArg NvmeQueue.cqes setQueue_queues_self
        · intro i h_i h_lt
          have h_lt : i < dev.queueCount + 1 := h_lt
          omega
        · intro i h_ge
          have h_ge : dev.queueCount + 1 ≤ i := h_ge
          show ((dev.setQueue 0 _).queues i).cqes ≠ .allocated
          rw [setQueue_queues_of_ne (by omega)]
          exact h.ring.beyond i (by omega)
        · show dev.onlineQueues ≤ dev.queueCount + 1
          omega

/-- The admin queue's ring is there when it is cleared, and only the admin queue is online
    afterwards. -/
theorem nvmePciConfigureAdminQueue_devInv (env : ResetEnv) {dev : NvmeDev} (h : DevInv dev)
    (h_zero : dev.onlineQueues = 0) :
    ∃ ret dev', nvmePciConfigureAdminQueue env dev = .ok (ret, dev') ∧ DevInv dev' ∧
      (ret = 0 → dev'.onlineQueues = 1 ∧ (dev'.queues 0).enabled = true) := by
  obtain ⟨h_alloc, h_off, h_count⟩ := nvmeAllocQueue_admin env.admin h h_zero
  simp only [nvmePciConfigureAdminQueue]
  split
  case isTrue => exact ⟨_, _, rfl, h_alloc, fun h_ret => absurd h_ret (by decide)⟩
  case isFalse h_ok =>
    rw [Bool.not_eq_true', Bool.not_eq_false] at h_ok
    split
    case isTrue h_ctrl => exact ⟨_, _, rfl, h_alloc, fun h_ret => absurd h_ret h_ctrl⟩
    case isFalse =>
      have h_ring := h_alloc.ring.admin (h_count h_ok)
      have h_init : nvmeInitQueue (nvmeAllocQueue env.admin dev 0).2 0 =
          .ok { (nvmeAllocQueue env.admin dev 0).2 with onlineQueues := 0 + 1 } := by
        rw [nvmeInitQueue, h_ring, h_off]
        rfl
      simp only [h_init]
      -- with only the admin queue online, no I/O queue is
      have h_one : DevInv { (nvmeAllocQueue env.admin dev 0).2 with onlineQueues := 0 + 1 } := by
        refine ⟨⟨h_alloc.ring.admin, h_alloc.ring.ring_iff, h_alloc.ring.beyond⟩,
          ⟨h_count h_ok, ?_⟩, .of_online_le_one (Nat.le_refl 1)⟩
        intro qid h_qid
        show ((nvmeAllocQueue env.admin dev 0).2.queues qid).enabled = true ↔ qid < 0 + 1
        rw [h_alloc.online.enabled_iff qid h_qid, h_off]
        omega
      split
      case isTrue h_irq =>
        refine ⟨_, _, rfl, ?_, fun h_ret => absurd h_ret h_irq⟩
        refine ⟨⟨h_alloc.ring.admin, h_alloc.ring.ring_iff, h_alloc.ring.beyond⟩,
          ⟨Nat.zero_le _, ?_⟩, .of_online_le_one (Nat.zero_le 1)⟩
        intro qid h_qid
        show ((nvmeAllocQueue env.admin dev 0).2.queues qid).enabled = true ↔ qid < 0
        rw [h_alloc.online.enabled_iff qid h_qid, h_off]
      case isFalse =>
        exact ⟨_, _, rfl, h_one.setAdminEnabled true, fun _ => ⟨rfl, setAdminEnabled_admin _ true⟩⟩

theorem remapLoop_range {remapBar : Nat → Bool} {n nrIoQueues : Nat}
    (h : remapLoop remapBar n = some nrIoQueues) : 1 ≤ nrIoQueues ∧ nrIoQueues ≤ n := by
  induction n with
  | zero => cases h
  | succ n ih =>
      rw [remapLoop] at h
      split at h
      · cases h
        exact ⟨Nat.le_add_left _ _, Nat.le_refl _⟩
      · obtain ⟨h_pos, h_le⟩ := ih h
        exact ⟨h_pos, Nat.le_succ_of_le h_le⟩

theorem RestInv.of_admin {dev : NvmeDev} (h_one : dev.onlineQueues = 1)
    (h_on : (dev.queues 0).enabled = true) : RestInv dev :=
  ⟨iff_of_true h_on (by omega), fun h_two => absurd h_two (by omega)⟩

/-- A state of a reset that has returned something else than 0. -/
theorem Inv.of_returned {dev : NvmeDev} {ret : Int} (h : DevInv dev)
    (h_ret : ret = 0 → RestInv dev) : Inv ⟨dev, .returned ret⟩ where
  dev := h
  idle h_phase := by cases h_phase
  retry _ h_phase := by cases h_phase
  returned h_phase := by
    cases h_phase
    exact h_ret rfl

theorem Inv.of_faulted {dev : NvmeDev} {fault : Fault} (h : DevInv dev) :
    Inv ⟨dev, .faulted fault⟩ where
  dev := h
  idle h_phase := by cases h_phase
  retry _ h_phase := by cases h_phase
  returned h_phase := by cases h_phase

theorem Inv.of_retry {dev : NvmeDev} {nrIoQueues : Nat} (h : DevInv dev) (h_nr : 1 ≤ nrIoQueues)
    (h_one : dev.onlineQueues = 1) : Inv ⟨dev, .retry nrIoQueues⟩ where
  dev := h
  idle h_phase := by cases h_phase
  retry _ h_phase := by
    cases h_phase
    exact ⟨h_nr, h_one⟩
  returned h_phase := by cases h_phase

theorem nvmeSetupIoQueues_inv (env : ResetEnv) {dev : NvmeDev} (h : DevInv dev)
    (h_one : dev.onlineQueues = 1) (h_on : (dev.queues 0).enabled = true) :
    Inv (nvmeSetupIoQueues env dev) := by
  have h_params : DevInv { dev with
      nrWriteQueues := env.writeQueues, nrPollQueues := env.pollQueues } :=
    h.congr rfl rfl rfl (Nat.le_of_eq h_one)
  simp only [nvmeSetupIoQueues, nvmeSetupIoQueuesTrylock]
  split
  case isTrue h_neg => exact .of_returned h_params fun h_ret => absurd h_ret (by omega)
  split
  case isTrue => exact .of_returned h_params fun _ => .of_admin h_one h_on
  split
  case h_1 => exact .of_returned h_params fun h_ret => absurd h_ret (by decide)
  case h_2 dev₁ h_lock =>
    split at h_lock
    case isFalse => cases h_lock
    cases h_lock
    have h_locked : DevInv { dev with
        nrWriteQueues := env.writeQueues, nrPollQueues := env.pollQueues, shutdownLock := true } :=
      h.congr rfl rfl rfl (Nat.le_of_eq h_one)
    have h_off := h_locked.setAdminEnabled false
    split
    case h_1 => exact .of_returned h_off fun h_ret => absurd h_ret (by decide)
    case h_2 dev₂ h_array =>
      have h_ring := extraqUpdate_ringInv h_off.ring h_array
      obtain ⟨h_online, h_eq⟩ := extraqUpdate_online h_off.online (Nat.le_of_eq h_one) h_array
      have h_one₂ : dev₂.onlineQueues = 1 := h_eq.trans h_one
      have h_dev₂ : DevInv dev₂ := ⟨h_ring, h_online, .of_online_le_one (Nat.le_of_eq h_one₂)⟩
      split
      case h_1 =>
        exact .of_returned (h_dev₂.congr rfl rfl rfl (Nat.le_of_eq h_one₂))
          fun h_ret => absurd h_ret (by decide)
      case h_2 nrIoQueues h_remap => exact .of_retry h_dev₂ (remapLoop_range h_remap).1 h_one₂

theorem nvmeResetWork_inv (env : ResetEnv) {dev : NvmeDev} (h : DevInv dev)
    (h_admin : AdminInv dev) : Inv (nvmeResetWork env dev) := by
  obtain ⟨h_disabled, h_zero⟩ := nvmeDevDisable_devInv h h_admin
  obtain ⟨ret, dev₁, h_eq, h_dev, h_ok⟩ := nvmePciConfigureAdminQueue_devInv env h_disabled h_zero
  simp only [nvmeResetWork, h_eq]
  split
  case isTrue h_ret => exact .of_returned h_dev fun h_zero => absurd h_zero h_ret
  case isFalse h_ret =>
    obtain ⟨h_one, h_on⟩ := h_ok (not_not.mp h_ret)
    split
    case isTrue h_init => exact .of_returned h_dev fun h_zero => absurd h_zero h_init
    case isFalse => exact nvmeSetupIoQueues_inv env h_dev h_one h_on

/-! ### Attempts -/

theorem withLayout_devInv {dev : NvmeDev} (h : DevInv dev) (h_one : dev.onlineQueues = 1)
    (nrIoQueues : Nat) (irqs : Int) (lock : Bool) :
    DevInv { withLayout dev nrIoQueues irqs with shutdownLock := lock } :=
  (h.setAdminEnabled false).congr rfl rfl rfl (Nat.le_of_eq h_one)

/-- The interrupt core grants no more vectors than the queues and the admin queue need. -/
theorem nvmeSetupIrqs_le (plat : Platform) (vecs : Int) (dev : NvmeDev) (nrIoQueues : Nat) :
    nvmeSetupIrqs plat vecs dev nrIoQueues ≤ nrIoQueues + 1 := by
  have h_queues : (if plat.singleVector then 1 else 1 + (nrIoQueues - pollQueues dev nrIoQueues)) ≤
      nrIoQueues + 1 := by
    split <;> omega
  rw [nvmeSetupIrqs]
  omega

/-- The device that an attempt creates its queues on. -/
def attemptDev (dev : NvmeDev) (nrIoQueues : Nat) (irqs : Int) : NvmeDev :=
  { withLayout dev nrIoQueues irqs with shutdownLock := false }.setAdminEnabled true

theorem attemptDev_devInv {dev : NvmeDev} (h : DevInv dev) (h_one : dev.onlineQueues = 1)
    (nrIoQueues : Nat) (irqs : Int) : DevInv (attemptDev dev nrIoQueues irqs) :=
  (withLayout_devInv h h_one nrIoQueues irqs false).setAdminEnabled true

/-- How an attempt ends. -/
theorem setupAttempt_cases (plat : Platform) (env : AttemptEnv) (nrIoQueues : Nat)
    (dev : NvmeDev) :
    let irqs := nvmeSetupIrqs plat env.vecs dev nrIoQueues
    let s := setupAttempt plat env nrIoQueues dev
    (∃ ret dev', s = ⟨dev', .returned ret⟩ ∧ ret ≠ 0 ∧
      dev'.queues = (dev.setAdminEnabled false).queues ∧ dev'.queueCount = dev.queueCount ∧
      dev'.onlineQueues = dev.onlineQueues) ∨
    (0 < irqs ∧ ∃ fault, s = ⟨attemptDev dev nrIoQueues irqs, .faulted fault⟩ ∧
      nvmeBlexCreateIoQueues env.queue (attemptDev dev nrIoQueues irqs) = .error fault) ∨
    (0 < irqs ∧ ∃ ret dev',
      nvmeBlexCreateIoQueues env.queue (attemptDev dev nrIoQueues irqs) = .ok (ret, dev') ∧
      ((∃ ret', s = ⟨dev', .returned ret'⟩ ∧
          (ret' = 0 → dev'.onlineQueues < 2 ∨ dev'.maxQid + 1 ≤ dev'.onlineQueues)) ∨
        (2 ≤ dev'.onlineQueues ∧ s = ⟨nvmeSuspendIoQueues { dev' with shutdownLock := true },
          .retry (dev'.onlineQueues - 1)⟩))) := by
  simp only [setupAttempt]
  -- no vectors, no interrupt for the admin queue, then by what creating the queues returned
  split
  case isTrue => exact .inl ⟨_, _, rfl, by decide, rfl, rfl, rfl⟩
  case isFalse h_irqs =>
    have h_irqs : 0 < nvmeSetupIrqs plat env.vecs dev nrIoQueues := by omega
    split
    case isTrue h_admin => exact .inl ⟨_, _, rfl, h_admin, rfl, rfl, rfl⟩
    case isFalse =>
      refine .inr ?_
      cases h_create : nvmeBlexCreateIoQueues env.queue
          (attemptDev dev nrIoQueues (nvmeSetupIrqs plat env.vecs dev nrIoQueues)) with
      | error fault =>
          simp only [attemptDev] at h_create
          simp only [h_create]
          exact .inl ⟨h_irqs, fault, rfl, rfl⟩
      | ok r =>
          obtain ⟨ret, dev'⟩ := r
          simp only [attemptDev] at h_create
          simp only [h_create]
          refine .inr ⟨h_irqs, ret, dev', rfl, ?_⟩
          split
          case isTrue h_stop =>
            refine .inl ⟨ret, rfl, fun h_ret => .inl ?_⟩
            exact h_stop.resolve_left (not_not.mpr h_ret)
          case isFalse h_go =>
            have h_two : 2 ≤ dev'.onlineQueues := by omega
            split
            case isTrue h_fewer =>
              rw [nvmeSetupIoQueuesTrylock]
              split
              case h_1 => exact .inl ⟨_, rfl, fun h_ret => absurd h_ret (by decide)⟩
              case h_2 locked h_lock =>
                split at h_lock
                case isFalse => cases h_lock
                cases h_lock
                exact .inr ⟨h_two, rfl⟩
            case isFalse h_all =>
              split
              case isTrue h_neg => exact .inl ⟨_, rfl, fun h_ret => absurd h_ret (by omega)⟩
              case isFalse => exact .inl ⟨0, rfl, fun _ => .inr (by omega)⟩

/-- An attempt whose queues were created. -/
theorem attempt_created {env : Nat → QueueEnv} {dev dev' : NvmeDev} {nrIoQueues : Nat} {irqs ret : Int}
    (h : DevInv dev) (h_one : dev.onlineQueues = 1)
    (h_eq : nvmeBlexCreateIoQueues env (attemptDev dev nrIoQueues irqs) = .ok (ret, dev')) :
    DevInv dev' ∧ AdminInv dev' ∧ 1 ≤ dev'.onlineQueues ∧ dev'.onlineQueues ≤ nrIoQueues + 1 ∧
      dev'.info = ⟨nrIoQueues, max (irqs.toNat - 1) 1⟩ := by
  have h_start := attemptDev_devInv h h_one nrIoQueues irqs
  have h_first : (attemptDev dev nrIoQueues irqs).onlineQueues = 1 := h_one
  obtain ⟨mid, h_ring, h_grown, h_built, h_max⟩ :=
    nvmeBlexCreateIoQueues_ok h_start (by omega) (by omega) h_eq
  have h_pos : 1 ≤ dev'.onlineQueues := by
    have h_le := h_built.le
    rw [h_grown.onlineQueues] at h_le
    exact Nat.le_trans (Nat.le_of_eq h_one.symm) h_le
  refine ⟨⟨h_ring.of_sameRings h_built.rings, h_built.online, h_built.assoc⟩, ?_, h_pos, h_max,
    h_built.rings.info.trans h_grown.info⟩
  refine iff_of_true ?_ h_pos
  rw [h_built.admin, h_grown.old 0 (Nat.le_trans (Nat.le_of_eq h_one.symm) h_start.online.le)]
  exact setAdminEnabled_admin _ true

theorem setupAttempt_inv (plat : Platform) (env : AttemptEnv) {nrIoQueues : Nat} {dev : NvmeDev}
    (h : DevInv dev) (h_nr : 1 ≤ nrIoQueues) (h_one : dev.onlineQueues = 1) :
    Inv (setupAttempt plat env nrIoQueues dev) := by
  have h_irqs := nvmeSetupIrqs_le plat env.vecs dev nrIoQueues
  rcases setupAttempt_cases plat env nrIoQueues dev with
    ⟨ret, dev', h_s, h_ret, h_queues, h_count, h_online⟩ | ⟨_, fault, h_s, _⟩ |
    ⟨_, ret, dev', h_create, ⟨ret', h_s, h_end⟩ | ⟨h_two, h_s⟩⟩
  · rw [h_s]
    exact .of_returned ((h.setAdminEnabled false).congr h_queues h_count h_online (by omega))
      fun h_zero => absurd h_zero h_ret
  · rw [h_s]
    exact .of_faulted (attemptDev_devInv h h_one nrIoQueues _)
  · obtain ⟨h_dev, h_admin, h_pos, h_max, h_info⟩ := attempt_created h h_one h_create
    rw [NvmeDev.info, BlkBlexDevInfo.mk.injEq] at h_info
    rw [h_s]
    refine .of_returned h_dev fun h_ret => ⟨h_admin, ?_⟩
    intro h_two
    -- with two queues online, the setup stopped because all of them are
    have h_all := (h_end h_ret).resolve_left (by omega)
    exact ⟨by omega, by omega, by omega⟩
  · obtain ⟨h_dev, h_admin, h_pos, h_max, h_info⟩ := attempt_created h h_one h_create
    rw [h_s]
    have h_locked : DevInv { dev' with shutdownLock := true } :=
      ⟨⟨h_dev.ring.admin, h_dev.ring.ring_iff, h_dev.ring.beyond⟩,
        ⟨h_dev.online.le, h_dev.online.enabled_iff⟩, h_dev.assoc⟩
    obtain ⟨h_online, h_min⟩ := nvmeSuspendIoQueues_online h_locked.online
    have h_one' : (nvmeSuspendIoQueues { dev' with shutdownLock := true }).onlineQueues = 1 := by
      rw [h_min]
      exact Nat.min_eq_right h_pos
    exact .of_retry ⟨h_locked.ring.of_sameRings (suspendFrom_sameRings _ _), h_online,
      .of_online_le_one (Nat.le_of_eq h_one')⟩ (by omega) h_one'

/-! ### All events -/

theorem nvmeResetWorkFinish_inv (tagsetAlloc : Bool) {dev : NvmeDev} (h : DevInv dev)
    (h_rest : RestInv dev) : Inv ⟨nvmeResetWorkFinish tagsetAlloc dev, .idle⟩ := by
  have of_idle {dev' : NvmeDev} (h' : DevInv dev') (h_rest' : RestInv dev') : Inv ⟨dev', .idle⟩ :=
    ⟨h', fun _ => h_rest', fun _ h_phase => (by cases h_phase), fun h_phase => by cases h_phase⟩
  have h_same (tagset : Bool) : Inv ⟨{ dev with tagset := tagset }, .idle⟩ :=
    of_idle ⟨⟨h.ring.admin, h.ring.ring_iff, h.ring.beyond⟩, ⟨h.online.le, h.online.enabled_iff⟩,
      h.assoc⟩ ⟨h_rest.admin, fun h_two => ⟨(h_rest.settled h_two).nrCqs_pos,
        (h_rest.settled h_two).nrCqs_le, (h_rest.settled h_two).online⟩⟩
  rw [nvmeResetWorkFinish]
  split
  · exact h_same false
  split
  · exact h_same tagsetAlloc
  · -- queues past the online count are freed, and the layout stays
    obtain ⟨h_ring, h_online, h_freed⟩ := nvmeFreeQueues_freed h.ring h.online
    have h_info := h_freed.info
    rw [NvmeDev.info, NvmeDev.info, BlkBlexDevInfo.mk.injEq] at h_info
    refine of_idle ⟨h_ring, h_online, ?_⟩ ⟨?_, ?_⟩
    · intro qid h_qid h_lt
      rw [h_freed.onlineQueues] at h_lt
      rw [h_freed.sqCqid, h_info.1, h_info.2]
      exact h.assoc qid h_qid h_lt
    · rw [AdminInv, h_freed.enabled, h_freed.onlineQueues]
      exact h_rest.admin
    · intro h_two
      rw [h_freed.onlineQueues] at h_two
      obtain ⟨h_pos, h_le, h_all⟩ := h_rest.settled h_two
      exact ⟨by rw [h_info.2]; exact h_pos, by rw [h_info.1, h_info.2]; exact h_le,
        by rw [h_freed.onlineQueues, h_info.1]; exact h_all⟩

theorem step_inv {plat : Platform} {s s' : State} {e : Event} (h : Inv s)
    (h_step : step plat s e = some s') : Inv s' := by
  unfold step at h_step
  split at h_step
  case h_1 env h_phase =>
    cases h_step
    exact nvmeResetWork_inv env h.dev (h.idle h_phase).admin
  case h_2 env nrIoQueues h_phase =>
    cases h_step
    obtain ⟨h_nr, h_one⟩ := h.retry nrIoQueues h_phase
    exact setupAttempt_inv plat env h.dev h_nr h_one
  case h_3 tagsetAlloc ret h_phase =>
    split at h_step
    case isFalse => cases h_step
    case isTrue h_ret =>
      cases h_step
      rw [h_ret] at h_phase
      exact nvmeResetWorkFinish_inv tagsetAlloc h.dev (h.returned h_phase)
  case h_4 => cases h_step

theorem probed_inv {s : State} (h : Probed s) : Inv s := by
  obtain ⟨nrAllocatedQueues, rfl⟩ := h
  refine ⟨⟨⟨?_, ?_, ?_⟩, ⟨Nat.le_refl 0, ?_⟩,
    .of_online_le_one (Nat.zero_le 1)⟩, fun _ => ⟨?_, ?_⟩,
    fun _ h_phase => (by cases h_phase), fun h_phase => by cases h_phase⟩
  · intro h_pos
    exact absurd h_pos (Nat.not_succ_le_zero 0)
  · intro qid _ h_lt
    exact absurd h_lt (Nat.not_lt_zero qid)
  · intro _ _
    exact Ring.noConfusion
  · intro _ _
    exact iff_of_false Bool.false_ne_true (Nat.not_lt_zero _)
  · exact iff_of_false Bool.false_ne_true (Nat.not_succ_le_zero 0)
  · intro h_two
    exact absurd h_two (Nat.not_succ_le_zero 1)

/-- Every reachable state has the invariant. -/
theorem reach_inv {plat : Platform} {ok : State → Event → Prop} {s : State}
    (h : Lts.Reach (step plat) ok Probed s) : Inv s :=
  h.invariant (fun _ => probed_inv) fun _ _ _ h_inv _ h_step => step_inv h_inv h_step

/-! ## Rings of the NCQs -/

/-- Every NCQ of the device's layout that is allocated already was allocated as an NCQ. -/
def RingsMatch (dev : NvmeDev) : Prop :=
  ∀ qid, 1 ≤ qid → qid < dev.queueCount → qid ≤ dev.maxQid →
    blkBlexHasCq qid dev.info = true → (dev.queues qid).AllocatedAsNcq qid

/-- The event is not an attempt with a layout that the allocated queues do not match. -/
def AttemptMatches (plat : Platform) (s : State) (e : Event) : Prop :=
  match e, s.phase with
  | .attempt env, .retry nrIoQueues =>
      let irqs := nvmeSetupIrqs plat env.vecs s.dev nrIoQueues
      0 < irqs → RingsMatch (withLayout s.dev nrIoQueues irqs)
  | _, _ => True

/-- No ring is cleared that is not allocated, and a setup that returns 0 with I/O queues online
    has a ring for every NCQ. -/
structure NcqsBacked (s : State) : Prop where
  clear : ∀ qid, s.phase ≠ .faulted (.clearRing qid)
  ncq : s.phase = .returned 0 → 2 ≤ s.dev.onlineQueues →
    ∀ qid, 1 ≤ qid → qid ≤ s.dev.maxQid →
      qid = blkBlexGetCqid qid s.dev.maxQid s.dev.nrCqs → (s.dev.queues qid).cqes = .allocated

theorem NcqsBacked.of_idle {dev : NvmeDev} : NcqsBacked ⟨dev, .idle⟩ :=
  ⟨fun _ h_phase => (by cases h_phase), fun h_phase => by cases h_phase⟩

theorem NcqsBacked.of_retry {dev : NvmeDev} {nrIoQueues : Nat} :
    NcqsBacked ⟨dev, .retry nrIoQueues⟩ :=
  ⟨fun _ h_phase => (by cases h_phase), fun h_phase => by cases h_phase⟩

theorem NcqsBacked.of_returned {dev : NvmeDev} {ret : Int}
    (h : ret = 0 → dev.onlineQueues ≤ 1) : NcqsBacked ⟨dev, .returned ret⟩ where
  clear _ h_phase := by cases h_phase
  ncq h_phase h_two := by
    cases h_phase
    have h_two : 2 ≤ dev.onlineQueues := h_two
    exact absurd (h rfl) (by omega)

theorem ringsMatch_attemptDev {dev : NvmeDev} {nrIoQueues : Nat} {irqs : Int}
    (h : RingsMatch (withLayout dev nrIoQueues irqs)) :
    RingsMatch (attemptDev dev nrIoQueues irqs) := by
  intro qid h_qid h_lt h_le h_cq
  have h_same := setAdminEnabled_sameRings
    { withLayout dev nrIoQueues irqs with shutdownLock := false } true
  rw [attemptDev, allocatedAsNcq_congr (h_same.allocInfo qid)]
  exact h qid h_qid h_lt h_le h_cq

/-- Queues are allocated under the layout in force, so only the older ones can lack a ring. -/
theorem grown_ncq {dev mid : NvmeDev} {qid : Nat} (h_match : RingsMatch dev) (h_ring : RingInv mid)
    (h_grown : Grown dev mid) (h_qid : 1 ≤ qid) (h_lt : qid < mid.queueCount)
    (h_le : qid ≤ dev.maxQid) (h_cq : blkBlexHasCq qid dev.info = true) :
    (mid.queues qid).cqes = .allocated := by
  apply (h_ring.ring_iff qid h_qid h_lt).mpr
  rcases Nat.lt_or_ge qid dev.queueCount with h_old | h_new
  · rw [h_grown.old qid h_old]
    exact h_match qid h_qid h_old h_le h_cq
  · exact ⟨dev.info, h_grown.new qid h_new h_lt, h_cq⟩

theorem nvmeSetupIoQueues_ncqsBacked (env : ResetEnv) {dev : NvmeDev}
    (h_one : dev.onlineQueues = 1) : NcqsBacked (nvmeSetupIoQueues env dev) := by
  simp only [nvmeSetupIoQueues]
  split
  case isTrue h_neg => exact .of_returned fun h_ret => absurd h_ret (by omega)
  split
  case isTrue => exact .of_returned fun _ => Nat.le_of_eq h_one
  split
  case h_1 => exact .of_returned fun h_ret => absurd h_ret (by decide)
  split
  case h_1 => exact .of_returned fun h_ret => absurd h_ret (by decide)
  split
  case h_1 => exact .of_returned fun h_ret => absurd h_ret (by decide)
  case h_2 => exact .of_retry

theorem nvmeResetWork_ncqsBacked (env : ResetEnv) {dev : NvmeDev} (h : DevInv dev)
    (h_admin : AdminInv dev) : NcqsBacked (nvmeResetWork env dev) := by
  obtain ⟨h_disabled, h_zero⟩ := nvmeDevDisable_devInv h h_admin
  obtain ⟨ret, dev₁, h_eq, -, h_ok⟩ := nvmePciConfigureAdminQueue_devInv env h_disabled h_zero
  simp only [nvmeResetWork, h_eq]
  split
  case isTrue h_ret => exact .of_returned fun h_zero => absurd h_zero h_ret
  case isFalse h_ret =>
    split
    case isTrue h_init => exact .of_returned fun h_zero => absurd h_zero h_init
    case isFalse => exact nvmeSetupIoQueues_ncqsBacked env (h_ok (not_not.mp h_ret)).1

theorem setupAttempt_ncqsBacked (plat : Platform) (env : AttemptEnv) {nrIoQueues : Nat}
    {dev : NvmeDev} (h : DevInv dev) (h_one : dev.onlineQueues = 1)
    (h_match : 0 < nvmeSetupIrqs plat env.vecs dev nrIoQueues →
      RingsMatch (withLayout dev nrIoQueues (nvmeSetupIrqs plat env.vecs dev nrIoQueues))) :
    NcqsBacked (setupAttempt plat env nrIoQueues dev) := by
  have h_start := attemptDev_devInv h h_one nrIoQueues (nvmeSetupIrqs plat env.vecs dev nrIoQueues)
  have h_first : (attemptDev dev nrIoQueues
      (nvmeSetupIrqs plat env.vecs dev nrIoQueues)).onlineQueues = 1 := h_one
  rcases setupAttempt_cases plat env nrIoQueues dev with
    ⟨ret, dev', h_s, h_ret, -⟩ | ⟨h_irqs, fault, h_s, h_create⟩ |
    ⟨h_irqs, ret, dev', h_create, ⟨ret', h_s, h_end⟩ | ⟨-, h_s⟩⟩
  · rw [h_s]
    exact .of_returned fun h_zero => absurd h_zero h_ret
  · rw [h_s]
    refine ⟨?_, fun h_phase => by cases h_phase⟩
    intro qid h_phase
    cases h_phase
    -- the cleared ring belongs to an NCQ of this layout, which has one
    obtain ⟨mid, h_ring, h_grown, h_qid, h_lt, h_le, h_cq, h_null⟩ :=
      nvmeBlexCreateIoQueues_clearRing h_start (by omega) h_create
    have h_info := h_grown.info
    rw [blexNvmeqHasCq_eq h_qid, h_info] at h_cq
    rw [NvmeDev.info, NvmeDev.info, BlkBlexDevInfo.mk.injEq] at h_info
    exact h_null (grown_ncq (ringsMatch_attemptDev (h_match h_irqs)) h_ring h_grown h_qid h_lt
      (by omega) h_cq)
  · rw [h_s]
    refine ⟨fun _ h_phase => (by cases h_phase), ?_⟩
    intro h_phase h_two qid h_qid h_le h_cq
    cases h_phase
    have h_two : 2 ≤ dev'.onlineQueues := h_two
    have h_le : qid ≤ dev'.maxQid := h_le
    obtain ⟨mid, h_ring, h_grown, h_built, -⟩ :=
      nvmeBlexCreateIoQueues_ok h_start (by omega) (by omega) h_create
    -- the setup returned 0 with I/O queues online, so every queue of the layout is allocated
    have h_all := (h_end rfl).resolve_left (by omega)
    have h_count := h_built.online.le
    rw [h_built.rings.queueCount] at h_count
    have h_info := h_built.rings.info.trans h_grown.info
    have h_max := h_info
    rw [NvmeDev.info, NvmeDev.info, BlkBlexDevInfo.mk.injEq] at h_max
    show (dev'.queues qid).cqes = .allocated
    rw [h_built.rings.cqes]
    refine grown_ncq (ringsMatch_attemptDev (h_match h_irqs)) h_ring h_grown h_qid (by omega)
      (by omega) ?_
    rw [← h_info]
    exact beq_iff_eq.mpr h_cq
  · rw [h_s]
    exact .of_retry

/-- In every run whose attempts all have a layout that the queues allocated before match, each
    NCQ is backed by a ring. -/
theorem setup_ncqsBacked (plat : Platform) {s : State}
    (h : Lts.Reach (step plat) (AttemptMatches plat) Probed s) : NcqsBacked s := by
  cases h with
  | init h_init =>
      obtain ⟨nrAllocatedQueues, rfl⟩ := h_init
      exact .of_idle
  | @step s₀ _ e h_reach h_ok h_step =>
      have h_inv := reach_inv h_reach
      unfold step at h_step
      split at h_step
      case h_1 env h_phase =>
        cases h_step
        exact nvmeResetWork_ncqsBacked env h_inv.dev (h_inv.idle h_phase).admin
      case h_2 env nrIoQueues h_phase =>
        cases h_step
        simp only [AttemptMatches, h_phase] at h_ok
        exact setupAttempt_ncqsBacked plat env h_inv.dev (h_inv.retry nrIoQueues h_phase).2 h_ok
      case h_3 =>
        split at h_step
        case isFalse => cases h_step
        case isTrue =>
          cases h_step
          exact .of_idle
      case h_4 => cases h_step

/-! ### Concrete runs -/

/-- Two CPUs, and a controller without quirks. -/
def twoCpus : Platform := ⟨2, false, false⟩

def queueOk : QueueEnv := ⟨true, true, 0, 0, true, 0⟩

/-- A reset that reaches `retry` with `granted` I/O queues. -/
def resetGranting (granted : Nat) : ResetEnv where
  admin := queueOk
  enableCtrl := 0
  initCtrl := 0
  writeQueues := 0
  pollQueues := 0
  setQueueCount := 0
  granted := granted
  lockFree := true
  arrayAlloc := true
  remapBar := fun _ => true

/-- An attempt with `vecs` vectors (one of them the admin queue's) in which `queue` answers. -/
def attemptVecs (vecs : Int) (queue : Nat → QueueEnv) : AttemptEnv := ⟨vecs, 0, queue, true, 0⟩

/-- The setup of four queues on two completion queues after the probe. -/
def fourQueues : State :=
  setupAttempt twoCpus (attemptVecs 3 fun _ => queueOk) 4
    (nvmeResetWork (resetGranting 4) (.probed 3)).dev

theorem fourQueues_reach :
    Lts.Reach (step twoCpus) (AttemptMatches twoCpus) Probed fourQueues := by
  have h_reset : Lts.Reach (step twoCpus) (AttemptMatches twoCpus) Probed
      (nvmeResetWork (resetGranting 4) (.probed 3)) :=
    (Lts.Reach.init ⟨3, rfl⟩).step (e := .reset (resetGranting 4)) trivial rfl
  refine h_reset.step (e := .attempt (attemptVecs 3 fun _ => queueOk)) ?_ rfl
  -- only the admin queue is allocated
  show 0 < _ → RingsMatch _
  intro _ qid h_qid h_lt
  have h_lt : qid < 1 := h_lt
  omega

theorem setup_ncqsBacked_fourQueues :
    fourQueues.phase = .returned 0 ∧ fourQueues.dev.onlineQueues = 5 ∧ NcqsBacked fourQueues :=
  ⟨by decide, by decide, setup_ncqsBacked twoCpus fourQueues_reach⟩

/-- Five queues are granted, but Create SQ fails for queue 5: the second attempt has four queues,
    of which queue 3 is an NCQ now and was none when it was allocated. -/
def shrinkingSetup : List Event :=
  [.reset (resetGranting 5),
   .attempt (attemptVecs 3 fun qid => if qid = 5 then { queueOk with createSq := 2 } else queueOk),
   .attempt (attemptVecs 3 fun _ => queueOk)]

theorem shrinkingSetup_clearsNull :
    ∃ s, Lts.Reach (step twoCpus) Lts.anyStep Probed s ∧
      (s.dev.queues 3).cqes = .null ∧ s.phase = .faulted (.clearRing 3) ∧ ¬ NcqsBacked s := by
  cases h_run : Lts.run (step twoCpus) ⟨.probed 3, .idle⟩ shrinkingSetup with
  | none =>
      have h_some : (Lts.run (step twoCpus) ⟨.probed 3, .idle⟩ shrinkingSetup).isSome = true := by
        decide
      rw [h_run] at h_some
      cases h_some
  | some s =>
      have h_end : (Lts.run (step twoCpus) ⟨.probed 3, .idle⟩ shrinkingSetup).map
          (fun s => ((s.dev.queues 3).cqes, s.phase)) = some (.null, .faulted (.clearRing 3)) := by
        decide
      rw [h_run, Option.map_some, Option.some.injEq, Prod.mk.injEq] at h_end
      refine ⟨s, Lts.reach_iff_run.mpr ⟨_, _, ⟨3, rfl⟩, h_run⟩, h_end.1, h_end.2, ?_⟩
      intro h
      exact h.clear 3 h_end.2

end Daredevil.Nvme
