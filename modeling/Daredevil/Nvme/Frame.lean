/-
  Daredevil.Nvme.Frame

  What the functions on the queues leave alone.

  Allocating, creating, suspending and freeing queues changes the queues, how many there
  are, what the controller has attached them to, and the lock.  The sizes and parameters
  of the device (`SameConfig`) are chosen by `nvme_setup_io_queues` alone.
-/
import Daredevil.Nvme.Setup

namespace Daredevil.Nvme

/-- The devices differ in their queues, and in what goes with those, only. -/
structure SameConfig (dev dev' : NvmeDev) : Prop where
  nrAllocatedQueues : dev'.nrAllocatedQueues = dev.nrAllocatedQueues
  maxQid : dev'.maxQid = dev.maxQid
  nrCqs : dev'.nrCqs = dev.nrCqs
  numVecs : dev'.numVecs = dev.numVecs
  nrWriteQueues : dev'.nrWriteQueues = dev.nrWriteQueues
  nrPollQueues : dev'.nrPollQueues = dev.nrPollQueues
  ioQueuesPoll : dev'.ioQueuesPoll = dev.ioQueuesPoll
  tagset : dev'.tagset = dev.tagset

namespace SameConfig

theorem refl (dev : NvmeDev) : SameConfig dev dev := ⟨rfl, rfl, rfl, rfl, rfl, rfl, rfl, rfl⟩

theorem trans {dev₁ dev₂ dev₃ : NvmeDev} (h : SameConfig dev₁ dev₂) (h' : SameConfig dev₂ dev₃) :
    SameConfig dev₁ dev₃ where
  nrAllocatedQueues := h'.nrAllocatedQueues.trans h.nrAllocatedQueues
  maxQid := h'.maxQid.trans h.maxQid
  nrCqs := h'.nrCqs.trans h.nrCqs
  numVecs := h'.numVecs.trans h.numVecs
  nrWriteQueues := h'.nrWriteQueues.trans h.nrWriteQueues
  nrPollQueues := h'.nrPollQueues.trans h.nrPollQueues
  ioQueuesPoll := h'.ioQueuesPoll.trans h.ioQueuesPoll
  tagset := h'.tagset.trans h.tagset

/-- The fields of the queues. -/
theorem of_queues (dev : NvmeDev) (queues : Nat → NvmeQueue) (queueCount onlineQueues : Nat)
    (sqCqid : Nat → Nat) (lock : Bool) :
    SameConfig dev { dev with
      queues := queues, queueCount := queueCount, onlineQueues := onlineQueues, sqCqid := sqCqid,
      shutdownLock := lock } :=
  ⟨rfl, rfl, rfl, rfl, rfl, rfl, rfl, rfl⟩

end SameConfig

/-! ## Allocation -/

/-- Allocating a queue does not touch the lock either. -/
theorem nvmeBlexAllocQueue_sameConfig (env : QueueEnv) (dev : NvmeDev) (qid : Nat) :
    SameConfig dev (nvmeBlexAllocQueue env dev qid).2 ∧
      (nvmeBlexAllocQueue env dev qid).2.shutdownLock = dev.shutdownLock := by
  simp only [nvmeBlexAllocQueue]
  split
  · exact ⟨.refl dev, rfl⟩
  split
  · exact ⟨.of_queues dev _ _ _ _ _, rfl⟩
  · split <;> exact ⟨.of_queues dev _ _ _ _ _, rfl⟩

theorem allocLoop_sameConfig (env : Nat → QueueEnv) (n qid : Nat) (dev : NvmeDev) :
    SameConfig dev (allocLoop env n qid dev).2 ∧
      (allocLoop env n qid dev).2.shutdownLock = dev.shutdownLock := by
  induction n generalizing qid dev with
  | zero => exact ⟨.refl dev, rfl⟩
  | succ n ih =>
      obtain ⟨h_first, h_lock⟩ := nvmeBlexAllocQueue_sameConfig (env qid) dev qid
      rw [allocLoop]
      split
      · obtain ⟨h_rest, h_lock'⟩ := ih (qid + 1) (nvmeBlexAllocQueue (env qid) dev qid).2
        exact ⟨h_first.trans h_rest, h_lock'.trans h_lock⟩
      · exact ⟨h_first, h_lock⟩

theorem nvmeAllocQueue_sameConfig (env : QueueEnv) (dev : NvmeDev) (qid : Nat) :
    SameConfig dev (nvmeAllocQueue env dev qid).2 ∧
      (nvmeAllocQueue env dev qid).2.shutdownLock = dev.shutdownLock := by
  simp only [nvmeAllocQueue]
  split
  · exact ⟨.refl dev, rfl⟩
  split
  · exact ⟨.of_queues dev _ _ _ _ _, rfl⟩
  · split <;> exact ⟨.of_queues dev _ _ _ _ _, rfl⟩

/-! ## Creation -/

theorem nvmeSetupIoQueuesTrylock_eq {lockFree : Bool} {dev dev' : NvmeDev}
    (h : nvmeSetupIoQueuesTrylock lockFree dev = some dev') :
    lockFree = true ∧ dev.shutdownLock = false ∧ dev' = { dev with shutdownLock := true } := by
  rw [nvmeSetupIoQueuesTrylock] at h
  split at h
  case isTrue h_free =>
    cases h
    rw [Bool.and_eq_true, Bool.not_eq_true'] at h_free
    exact ⟨h_free.1, h_free.2, rfl⟩
  case isFalse => cases h

theorem nvmeSetupIoQueuesTrylock_sameConfig {lockFree : Bool} {dev dev' : NvmeDev}
    (h : nvmeSetupIoQueuesTrylock lockFree dev = some dev') : SameConfig dev dev' := by
  obtain ⟨-, -, rfl⟩ := nvmeSetupIoQueuesTrylock_eq h
  exact .of_queues dev _ _ _ _ _

theorem nvmeBlexCreateQueue_sameConfig {env : QueueEnv} {dev dev' : NvmeDev} {qid : Nat}
    {ret : Int} (h : nvmeBlexCreateQueue env dev qid = .ok (ret, dev')) : SameConfig dev dev' := by
  rcases nvmeBlexCreateQueue_ok h with ⟨-, cqid, lock, rfl⟩ | rfl
  · exact .of_queues dev _ _ _ _ _
  · exact .of_queues dev _ _ _ _ _

theorem createLoop_sameConfig {env : Nat → QueueEnv} {n qid : Nat} {ret ret' : Int}
    {dev dev' : NvmeDev} (h : createLoop env n qid ret dev = .ok (ret', dev')) :
    SameConfig dev dev' := by
  induction n generalizing qid ret dev with
  | zero =>
      cases h
      exact .refl _
  | succ n ih =>
      rw [createLoop] at h
      split at h
      case h_1 => cases h
      case h_2 ret₁ dev₁ h_first =>
        have h_same := nvmeBlexCreateQueue_sameConfig h_first
        split at h
        · cases h
          exact h_same
        · exact h_same.trans (ih h)

theorem nvmeBlexCreateIoQueues_sameConfig {env : Nat → QueueEnv} {dev dev' : NvmeDev} {ret : Int}
    (h : nvmeBlexCreateIoQueues env dev = .ok (ret, dev')) : SameConfig dev dev' := by
  have h_alloc := (allocLoop_sameConfig env (dev.maxQid + 1 - dev.queueCount) dev.queueCount dev).1
  simp only [nvmeBlexCreateIoQueues] at h
  split at h
  · cases h
    exact h_alloc
  · split at h
    case h_1 => cases h
    case h_2 ret₁ dev₁ h_create =>
      cases h
      exact h_alloc.trans (createLoop_sameConfig h_create)

/-! ## Suspension and freeing -/

theorem nvmeSuspendQueue_sameConfig (dev : NvmeDev) (qid : Nat) :
    SameConfig dev (nvmeSuspendQueue dev qid) ∧
      (nvmeSuspendQueue dev qid).shutdownLock = dev.shutdownLock := by
  rw [nvmeSuspendQueue]
  split
  · exact ⟨.refl dev, rfl⟩
  · exact ⟨.of_queues dev _ _ _ _ _, rfl⟩

theorem suspendFrom_sameConfig (n : Nat) (dev : NvmeDev) :
    SameConfig dev (suspendFrom n dev) ∧
      (suspendFrom n dev).shutdownLock = dev.shutdownLock := by
  induction n generalizing dev with
  | zero => exact ⟨.refl dev, rfl⟩
  | succ n ih =>
      obtain ⟨h_first, h_lock⟩ := nvmeSuspendQueue_sameConfig dev (n + 1)
      obtain ⟨h_rest, h_lock'⟩ := ih (nvmeSuspendQueue dev (n + 1))
      exact ⟨h_first.trans h_rest, h_lock'.trans h_lock⟩

theorem nvmeDevDisable_sameConfig (dev : NvmeDev) :
    SameConfig dev (nvmeDevDisable dev) ∧
      (nvmeDevDisable dev).shutdownLock = dev.shutdownLock := by
  obtain ⟨h_io, h_lock⟩ := suspendFrom_sameConfig (dev.queueCount - 1) dev
  obtain ⟨h_admin, h_lock'⟩ := nvmeSuspendQueue_sameConfig (nvmeSuspendIoQueues dev) 0
  exact ⟨h_io.trans h_admin, h_lock'.trans h_lock⟩

theorem freeLoop_sameConfig (n : Nat) (dev : NvmeDev) : SameConfig dev (freeLoop n dev) := by
  induction n generalizing dev with
  | zero => exact .refl dev
  | succ n ih =>
      have h_first : SameConfig dev (nvmeFreeLastQueue dev) := .of_queues dev _ _ _ _ _
      exact h_first.trans (ih _)

/-! ## Before the I/O queues -/

theorem nvmePciConfigureAdminQueue_sameConfig {env : ResetEnv} {dev dev' : NvmeDev} {ret : Int}
    (h : nvmePciConfigureAdminQueue env dev = .ok (ret, dev')) :
    SameConfig dev dev' ∧ dev'.shutdownLock = dev.shutdownLock := by
  obtain ⟨h_alloc, h_lock⟩ := nvmeAllocQueue_sameConfig env.admin dev 0
  simp only [nvmePciConfigureAdminQueue] at h
  split at h
  · cases h
    exact ⟨h_alloc, h_lock⟩
  split at h
  · cases h
    exact ⟨h_alloc, h_lock⟩
  split at h
  case h_1 => cases h
  case h_2 dev₁ h_init =>
    rw [nvmeInitQueue] at h_init
    split at h_init
    case isTrue => cases h_init
    cases h_init
    split at h <;>
      · cases h
        exact ⟨h_alloc.trans (.of_queues _ _ _ _ _ _), h_lock⟩

/-- Only the array of the queues is enlarged. -/
theorem nvmeBlexExtraqUpdateQueues_cases {arrayAlloc : Bool} {dev dev' : NvmeDev}
    {nrIoQueues : Nat} (h : nvmeBlexExtraqUpdateQueues arrayAlloc dev nrIoQueues = some dev') :
    (nrIoQueues ≤ dev.nrAllocatedQueues - 1 ∧ dev' = dev) ∨
      (dev.nrAllocatedQueues - 1 < nrIoQueues ∧ arrayAlloc = true ∧
        dev' = { dev with
          nrAllocatedQueues := nrIoQueues + 1
          queues := fun qid => if qid = 0 then dev.queues 0 else NvmeQueue.zero }) := by
  rw [nvmeBlexExtraqUpdateQueues] at h
  split at h
  case isTrue h_fits =>
    cases h
    exact .inl ⟨h_fits, rfl⟩
  case isFalse h_more =>
    split at h
    case isTrue => cases h
    case isFalse h_alloc =>
      cases h
      exact .inr ⟨by omega, by simpa using h_alloc, rfl⟩

/-! ## Attempts -/

/-- An attempt keeps the layout that it chooses once it has its vectors. -/
theorem setupAttempt_config (plat : Platform) (env : AttemptEnv) (nrIoQueues : Nat)
    (dev : NvmeDev) :
    (nvmeSetupIrqs plat env.vecs dev nrIoQueues ≤ 0 ∧
      setupAttempt plat env nrIoQueues dev = ⟨{ dev.setAdminEnabled false with
        ioQueuesPoll := pollQueues dev nrIoQueues, shutdownLock := false }, .returned eio⟩) ∨
    (0 < nvmeSetupIrqs plat env.vecs dev nrIoQueues ∧
      SameConfig (withLayout dev nrIoQueues (nvmeSetupIrqs plat env.vecs dev nrIoQueues))
        (setupAttempt plat env nrIoQueues dev).dev) := by
  rcases le_or_gt (nvmeSetupIrqs plat env.vecs dev nrIoQueues) 0 with h_irqs | h_irqs
  · refine .inl ⟨h_irqs, ?_⟩
    rw [setupAttempt]
    exact if_pos h_irqs
  refine .inr ⟨h_irqs, ?_⟩
  generalize h_s : setupAttempt plat env nrIoQueues dev = s
  unfold setupAttempt at h_s
  dsimp only at h_s
  rw [if_neg (Int.not_le.mpr h_irqs)] at h_s
  generalize h_layout : withLayout dev nrIoQueues _ = layout at h_s ⊢
  have h_start : SameConfig layout { layout with shutdownLock := false } :=
    .of_queues layout _ _ _ _ _
  split at h_s
  case isTrue =>
    subst h_s
    exact h_start
  have h_on : SameConfig layout
      (NvmeDev.setAdminEnabled { layout with shutdownLock := false } true) :=
    .of_queues layout _ _ _ _ _
  split at h_s
  case h_1 =>
    subst h_s
    exact h_on
  case h_2 ret created h_create =>
    have h_created := h_on.trans (nvmeBlexCreateIoQueues_sameConfig h_create)
    split at h_s
    case isTrue =>
      subst h_s
      exact h_created
    split at h_s
    case isTrue =>
      split at h_s
      case h_1 =>
        subst h_s
        exact h_created
      case h_2 locked h_lock =>
        subst h_s
        exact (h_created.trans (nvmeSetupIoQueuesTrylock_sameConfig h_lock)).trans
          (suspendFrom_sameConfig _ locked).1
    case isFalse =>
      split at h_s
      · subst h_s
        exact h_created
      · subst h_s
        exact h_created

end Daredevil.Nvme
