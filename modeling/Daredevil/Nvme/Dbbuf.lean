/-
  Daredevil.Nvme.Dbbuf

  The shadow doorbells.  `nvme_reset_work` allocates the two buffers before it sets up the
  I/O queues, with room for the queues that the array has then; a buffer that is there
  already is only cleared.  `nvme_init_queue` takes the addresses of a queue's entries.
  Clearing and freeing compute the size of the buffer anew.

  `dbbufStep` is the transition system of `Nvme.Setup` with the buffers and with every
  access to them.  The array of the queues is enlarged after the buffers are allocated, so
  the sizes agree only as long as it is not:

    * `nvmeResetWork_room`  — the step before `retry`: who enlarges the array;
    * `dbbufStep_inv`       — any step;
    * `dbbuf_inBounds`      — a run.
-/
import Daredevil.Lib.Word32
import Daredevil.Nvme.ShutdownLock
import Mathlib.Tactic.Ring

namespace Daredevil.Nvme

/-! ## The buffers -/

/-- `nvme_dbbuf_size` -/
def nvmeDbbufSize (dev : NvmeDev) (dbStride : Nat) : Nat :=
  Word32.wrap (dev.nrAllocatedQueues * 8 * dbStride)

/-- `sq_idx` -/
def sqIdx (qid stride : Nat) : Nat := Word32.wrap (qid * 2 * stride)

/-- `cq_idx` -/
def cqIdx (qid stride : Nat) : Nat := Word32.wrap ((qid * 2 + 1) * stride)

/-- `dbbuf_dbs` and `dbbuf_eis`: how many bytes are behind them, `none` for NULL. -/
structure Dbbuf where
  dbs : Option Nat
  eis : Option Nat
  deriving DecidableEq, Repr

/-- An access to a buffer for which `size` bytes were allocated. -/
inductive DbbufAccess where
  | memset (len size : Nat)
  /-- `nvme_dbbuf_init` takes the addresses of the two entries of a queue. -/
  | init (qid size : Nat)
  /-- `dma_free_coherent` -/
  | free (len size : Nat)
  deriving DecidableEq, Repr

/-- The entries are `__le32`. -/
def DbbufAccess.InBounds (dbStride : Nat) : DbbufAccess → Prop
  | .memset len size => len ≤ size
  | .init qid size => sqIdx qid dbStride < size / 4 ∧ cqIdx qid dbStride < size / 4
  | .free len size => len = size

instance (dbStride : Nat) (a : DbbufAccess) : Decidable (a.InBounds dbStride) := by
  cases a <;> unfold DbbufAccess.InBounds <;> infer_instance

/-- `nvme_dbbuf_dma_alloc`; its result is only reported. -/
def nvmeDbbufDmaAlloc (dbsAlloc eisAlloc : Bool) (memSize : Nat) (buf : Dbbuf) :
    List DbbufAccess × Dbbuf :=
  match buf.dbs with
  | some size => ([.memset memSize size, .memset memSize (buf.eis.getD 0)], buf)
  | none =>
      if !dbsAlloc then ([], { buf with dbs := none })
      else if !eisAlloc then ([.free memSize memSize], ⟨none, none⟩)
      else ([], ⟨some memSize, some memSize⟩)

/-- `nvme_dbbuf_dma_free` -/
def nvmeDbbufDmaFree (memSize : Nat) (buf : Dbbuf) : List DbbufAccess × Dbbuf :=
  (buf.dbs.toList.map (.free memSize) ++ buf.eis.toList.map (.free memSize), ⟨none, none⟩)

/-- `nvme_dbbuf_init` -/
def nvmeDbbufInit (buf : Dbbuf) (qid : Nat) : List DbbufAccess :=
  if qid = 0 then []
  else
    match buf.dbs with
    | none => []
    | some size => [.init qid size, .init qid (buf.eis.getD 0)]

/-- The calls of `nvme_dbbuf_init` from `nvme_init_queue`. -/
def initAccesses (buf : Dbbuf) (ops : List SetupOp) : List DbbufAccess :=
  ops.flatMap fun op =>
    match op with
    | .initQueue qid => nvmeDbbufInit buf qid
    | _ => []

/-! ## The transition system -/

structure DbbufState where
  sys : State
  buf : Dbbuf
  accesses : List DbbufAccess
  /-- `nvme_pci_free_ctrl` has been called -/
  freed : Bool

/-- The answers to a reset of a controller with `NVME_CTRL_OACS_DBBUF_SUPP`. -/
structure DbbufResetEnv extends ResetEnv where
  dbsAlloc : Bool
  eisAlloc : Bool
  /-- the step that fails with `initCtrl` is `nvme_setup_host_mem`, after the allocation -/
  hostMemFails : Bool

inductive DbbufEvent where
  | reset (env : DbbufResetEnv)
  | attempt (env : AttemptLockEnv)
  /-- `dbbufSet`: the command of `nvme_dbbuf_set` succeeds -/
  | finish (tagsetAlloc dbbufSet : Bool)
  /-- `nvme_pci_free_ctrl` -/
  | freeCtrl

/-- The part of `nvme_reset_work` that allocates the buffers. -/
def resetDbbuf (dbStride : Nat) (env : DbbufResetEnv) (dev : NvmeDev) (buf : Dbbuf) :
    List DbbufAccess × Dbbuf :=
  match nvmePciConfigureAdminQueue env.toResetEnv (nvmeDevDisable dev) with
  | .error _ => ([], buf)
  | .ok (ret, dev) =>
      if ret = 0 ∧ (env.initCtrl = 0 ∨ env.hostMemFails = true) then
        nvmeDbbufDmaAlloc env.dbsAlloc env.eisAlloc (nvmeDbbufSize dev dbStride) buf
      else ([], buf)

/-- `nvme_dbbuf_set`, which frees the buffers that the controller does not take. -/
def nvmeDbbufSet (dbbufSet : Bool) (memSize : Nat) (buf : Dbbuf) : List DbbufAccess × Dbbuf :=
  if buf.dbs = none then ([], buf)
  else if dbbufSet then ([], buf)
  else nvmeDbbufDmaFree memSize buf

namespace DbbufState

def withBuf (s : DbbufState) (sys : State) (t : List DbbufAccess × Dbbuf) : DbbufState :=
  { s with sys := sys, accesses := s.accesses ++ t.1, buf := t.2 }

end DbbufState

def dbbufStep (plat : Platform) (dbStride : Nat) (s : DbbufState) (e : DbbufEvent) :
    Option DbbufState :=
  if s.freed then none
  else
    match e, s.sys.phase with
    | .reset env, .idle =>
        some (s.withBuf (nvmeResetWork env.toResetEnv s.sys.dev)
          (resetDbbuf dbStride env s.sys.dev s.buf))
    | .attempt env, .retry nrIoQueues =>
        let t := setupAttemptOps plat env nrIoQueues s.sys.dev
        some (s.withBuf t.2 (initAccesses s.buf t.1, s.buf))
    | .finish tagsetAlloc dbbufSet, .returned ret =>
        if ret = 0 then
          let dev := nvmeResetWorkFinish tagsetAlloc s.sys.dev
          some (s.withBuf ⟨dev, .idle⟩
            (if s.sys.dev.onlineQueues < 2 then ([], s.buf)
            else nvmeDbbufSet dbbufSet (nvmeDbbufSize dev dbStride) s.buf))
        else none
    | .freeCtrl, .idle =>
        some { s.withBuf s.sys (nvmeDbbufDmaFree (nvmeDbbufSize s.sys.dev dbStride) s.buf) with
          freed := true }
    | .freeCtrl, .returned _ =>
        some { s.withBuf s.sys (nvmeDbbufDmaFree (nvmeDbbufSize s.sys.dev dbStride) s.buf) with
          freed := true }
    | _, _ => none

/-- The state that `nvme_probe` leaves; the array has room for the admin queue at least. -/
def DbbufProbed (s : DbbufState) : Prop :=
  ∃ nrAllocatedQueues ≥ 1, s = ⟨⟨.probed nrAllocatedQueues, .idle⟩, ⟨none, none⟩, [], false⟩

/-! ## What a reset does to the array -/

/-- The reset gets as far as enlarging the array of the queues, and has the memory. -/
structure ArrayGrows (env : ResetEnv) (dev : NvmeDev) : Prop where
  admin : ∃ dev', nvmePciConfigureAdminQueue env (nvmeDevDisable dev) = .ok (0, dev')
  initCtrl : env.initCtrl = 0
  granted : 0 ≤ env.setQueueCount
  lockFree : env.lockFree = true
  free : dev.shutdownLock = false
  more : dev.nrAllocatedQueues - 1 < env.nrIoQueues
  memory : env.arrayAlloc = true

/-- The array does not become larger while there are buffers, and buffers are allocated only when
their size is an `unsigned int`. -/
def DbbufFits (dbStride : Nat) (s : DbbufState) : DbbufEvent → Prop
  | .reset env =>
      (s.buf.dbs ≠ none ∨ env.dbsAlloc = true ∧ env.eisAlloc = true →
        ¬ ArrayGrows env.toResetEnv s.sys.dev) ∧
      (s.buf.dbs = none → env.dbsAlloc = true → env.eisAlloc = true →
        s.sys.dev.nrAllocatedQueues * 8 * dbStride < Word32.bound)
  | _ => True

/-- Where the setup comes to `retry`, the array has room for the queues that it will create. -/
theorem nvmeSetupIoQueues_room (env : ResetEnv) {dev : NvmeDev} (h_pos : 1 ≤ dev.nrAllocatedQueues) :
    ((nvmeSetupIoQueues env dev).dev.nrAllocatedQueues = dev.nrAllocatedQueues ∨
      0 ≤ env.setQueueCount ∧ env.lockFree = true ∧ dev.shutdownLock = false ∧
        dev.nrAllocatedQueues - 1 < env.nrIoQueues ∧ env.arrayAlloc = true) ∧
    1 ≤ (nvmeSetupIoQueues env dev).dev.nrAllocatedQueues ∧
    ∀ n, (nvmeSetupIoQueues env dev).phase = .retry n →
      n + 1 ≤ (nvmeSetupIoQueues env dev).dev.nrAllocatedQueues := by
  have of_returned {dev' : NvmeDev} {ret : Int}
      (h_same : dev'.nrAllocatedQueues = dev.nrAllocatedQueues) (P : Prop) :
      ((State.mk dev' (.returned ret)).dev.nrAllocatedQueues = dev.nrAllocatedQueues ∨ P) ∧
      1 ≤ (State.mk dev' (.returned ret)).dev.nrAllocatedQueues ∧
      ∀ n, (State.mk dev' (.returned ret)).phase = .retry n →
        n + 1 ≤ (State.mk dev' (.returned ret)).dev.nrAllocatedQueues :=
    ⟨.inl h_same, Nat.le_trans h_pos (Nat.le_of_eq h_same.symm), fun n h_phase => by cases h_phase⟩
  generalize h_s : nvmeSetupIoQueues env dev = s
  unfold nvmeSetupIoQueues at h_s
  dsimp only at h_s
  split at h_s
  case isTrue =>
    subst h_s
    exact of_returned rfl _
  case isFalse h_granted =>
    split at h_s
    case isTrue =>
      subst h_s
      exact of_returned rfl _
    split at h_s
    case h_1 =>
      subst h_s
      exact of_returned rfl _
    case h_2 locked h_lock =>
      obtain ⟨h_lockFree, h_free, rfl⟩ := nvmeSetupIoQueuesTrylock_eq h_lock
      split at h_s
      case h_1 =>
        subst h_s
        exact of_returned rfl _
      case h_2 grown h_array =>
        -- the array is as large as before, or as the queues need
        have h_grown : (grown.nrAllocatedQueues = dev.nrAllocatedQueues ∨
            0 ≤ env.setQueueCount ∧ env.lockFree = true ∧ dev.shutdownLock = false ∧
              dev.nrAllocatedQueues - 1 < env.nrIoQueues ∧ env.arrayAlloc = true) ∧
            1 ≤ grown.nrAllocatedQueues ∧ env.nrIoQueues + 1 ≤ grown.nrAllocatedQueues := by
          rcases nvmeBlexExtraqUpdateQueues_cases h_array with
            ⟨h_fits, rfl⟩ | ⟨h_more, h_memory, rfl⟩
          · have h_fits : env.nrIoQueues ≤ dev.nrAllocatedQueues - 1 := h_fits
            exact ⟨.inl rfl, h_pos, by show env.nrIoQueues + 1 ≤ dev.nrAllocatedQueues; omega⟩
          · exact ⟨.inr ⟨by omega, h_lockFree, h_free, h_more, h_memory⟩, Nat.le_add_left _ _,
              Nat.le_refl _⟩
        split at h_s
        case h_1 =>
          subst h_s
          exact ⟨h_grown.1, h_grown.2.1, fun n h_phase => by cases h_phase⟩
        case h_2 nrIoQueues h_remap =>
          subst h_s
          refine ⟨h_grown.1, h_grown.2.1, ?_⟩
          intro n h_phase
          cases h_phase
          exact Nat.le_trans (Nat.succ_le_succ (remapLoop_range h_remap).2) h_grown.2.2

theorem nvmeResetWork_room (env : ResetEnv) {dev : NvmeDev} (h_pos : 1 ≤ dev.nrAllocatedQueues) :
    ((nvmeResetWork env dev).dev.nrAllocatedQueues = dev.nrAllocatedQueues ∨ ArrayGrows env dev) ∧
    1 ≤ (nvmeResetWork env dev).dev.nrAllocatedQueues ∧
    ∀ n, (nvmeResetWork env dev).phase = .retry n →
      n + 1 ≤ (nvmeResetWork env dev).dev.nrAllocatedQueues := by
  obtain ⟨h_disable, h_lock⟩ := nvmeDevDisable_sameConfig dev
  have h_alloc := h_disable.nrAllocatedQueues
  simp only [nvmeResetWork]
  split
  case h_1 => exact ⟨.inl h_alloc, Nat.le_trans h_pos (Nat.le_of_eq h_alloc.symm),
    fun n h_phase => by cases h_phase⟩
  case h_2 ret dev₁ h_admin =>
    obtain ⟨h_config, h_lock₁⟩ := nvmePciConfigureAdminQueue_sameConfig h_admin
    have h_alloc₁ : dev₁.nrAllocatedQueues = dev.nrAllocatedQueues :=
      h_config.nrAllocatedQueues.trans h_alloc
    have h_pos₁ : 1 ≤ dev₁.nrAllocatedQueues := Nat.le_trans h_pos (Nat.le_of_eq h_alloc₁.symm)
    split
    case isTrue => exact ⟨.inl h_alloc₁, h_pos₁, fun n h_phase => by cases h_phase⟩
    case isFalse h_ret =>
      split
      case isTrue => exact ⟨.inl h_alloc₁, h_pos₁, fun n h_phase => by cases h_phase⟩
      case isFalse h_init =>
        obtain ⟨h_same, h_room⟩ := nvmeSetupIoQueues_room env h_pos₁
        refine ⟨?_, h_room⟩
        rcases h_same with h_same | ⟨h_granted, h_lockFree, h_free, h_more, h_memory⟩
        · exact .inl (h_same.trans h_alloc₁)
        · rw [not_not] at h_ret h_init
          subst h_ret
          rw [h_alloc₁] at h_more
          exact .inr ⟨⟨dev₁, h_admin⟩, h_init, h_granted, h_lockFree,
            (h_lock₁.trans h_lock).symm.trans h_free, h_more, h_memory⟩

/-! ## The queues that an attempt initialises -/

theorem NotTaken.not_initQueue {ops : List SetupOp} (h : NotTaken ops) (qid : Nat) :
    .initQueue qid ∉ ops := by
  rcases h with rfl | rfl <;> simp

theorem trylockOps_not_initQueue (mutexFree lockFree : Bool) (dev : NvmeDev) (qid : Nat) :
    .initQueue qid ∉ (nvmeSetupIoQueuesTrylockOps mutexFree lockFree dev).1 := by
  rcases trylockOps_cases mutexFree lockFree dev with ⟨h_ops, -⟩ | ⟨h_taken, -⟩
  · exact h_ops.not_initQueue qid
  · rw [h_taken]
    simp

theorem createQueueOps_initQueue {env : QueueLockEnv} {dev : NvmeDev} {qid i : Nat}
    (h : .initQueue i ∈ (nvmeBlexCreateQueueOps env dev qid).1) : i = qid := by
  rcases createQueueOps_cases env dev qid with ⟨h_ops, -⟩ | ⟨h_ops, -⟩ | ⟨h_ops, -⟩
  · exact absurd h (h_ops.not_initQueue i)
  · rw [h_ops] at h
    simpa using h
  · rw [h_ops] at h
    simpa using h

/-- The loop initialises queues of its range only. -/
theorem createLoopOps_initQueue {env : Nat → QueueLockEnv} {n qid i : Nat} {ret : Int}
    {dev : NvmeDev} (h : .initQueue i ∈ (createLoopOps env n qid ret dev).1) :
    qid ≤ i ∧ i < qid + n := by
  induction n generalizing qid ret dev with
  | zero => cases h
  | succ n ih =>
      simp only [createLoopOps] at h
      have of_first (h_i : .initQueue i ∈ (nvmeBlexCreateQueueOps (env qid) dev qid).1) :
          qid ≤ i ∧ i < qid + (n + 1) := by
        have h_eq := createQueueOps_initQueue h_i
        omega
      split at h
      case h_1 => exact of_first h
      case h_2 ret₁ dev₁ _ =>
        split at h
        case isTrue => exact of_first h
        case isFalse =>
          rcases List.mem_append.mp h with h_i | h_i
          · exact of_first h_i
          · have h_rest := ih h_i
            omega

theorem createIoQueuesOps_initQueue {env : Nat → QueueLockEnv} {dev : NvmeDev} {i : Nat}
    (h : .initQueue i ∈ (nvmeBlexCreateIoQueuesOps env dev).1) : i ≤ dev.maxQid := by
  have h_maxQid := (allocLoop_sameConfig (fun qid => (env qid).toQueueEnv)
    (dev.maxQid + 1 - dev.queueCount) dev.queueCount dev).1.maxQid
  simp only [nvmeBlexCreateIoQueuesOps] at h
  split at h
  case isTrue => cases h
  case isFalse =>
    rw [← h_maxQid]
    generalize (allocLoop _ _ _ dev).2 = grown at h ⊢
    split at h
    case h_1 =>
      have h_range := createLoopOps_initQueue h
      omega
    case h_2 =>
      have h_range := createLoopOps_initQueue h
      omega

/-- An attempt for `nrIoQueues` queues initialises none past them. -/
theorem setupAttemptOps_initQueue {plat : Platform} {env : AttemptLockEnv} {nrIoQueues i : Nat}
    {dev : NvmeDev} (h : .initQueue i ∈ (setupAttemptOps plat env nrIoQueues dev).1) :
    i ≤ nrIoQueues := by
  generalize h_t : setupAttemptOps plat env nrIoQueues dev = t at h
  unfold setupAttemptOps at h_t
  dsimp only at h_t
  split at h_t
  case isTrue =>
    subst h_t
    simp at h
  split at h_t
  case isTrue =>
    subst h_t
    simp at h
  generalize h_dev : NvmeDev.setAdminEnabled _ true = start at h_t
  have h_maxQid : start.maxQid = nrIoQueues := by
    rw [← h_dev]
    rfl
  have of_created {ops : List SetupOp} (h_ops : ∀ op, op ∈ ops → op ≠ .initQueue i)
      (h_i : .initQueue i ∈ .unlock :: (nvmeBlexCreateIoQueuesOps env.queueLock start).1 ++ ops) :
      i ≤ nrIoQueues := by
    rcases List.mem_append.mp h_i with h_i | h_i
    · rcases List.mem_cons.mp h_i with h_eq | h_i
      · cases h_eq
      · rw [← h_maxQid]
        exact createIoQueuesOps_initQueue h_i
    · exact absurd rfl (h_ops _ h_i)
  have of_nil (h_i : .initQueue i ∈
      SetupOp.unlock :: (nvmeBlexCreateIoQueuesOps env.queueLock start).1) : i ≤ nrIoQueues := by
    have h_none : ∀ op, op ∈ ([] : List SetupOp) → op ≠ .initQueue i := by
      intro op h_op
      cases h_op
    apply of_created h_none
    rwa [List.append_nil]
  split at h_t
  case h_1 =>
    subst h_t
    exact of_nil h
  case h_2 ret created _ =>
    split at h_t
    case isTrue =>
      subst h_t
      exact of_nil h
    split at h_t
    case isTrue =>
      have h_lock : ∀ op, op ∈ (nvmeSetupIoQueuesTrylockOps env.mutexFree env.lockFree created).1 →
          op ≠ .initQueue i := by
        rintro op h_op rfl
        exact trylockOps_not_initQueue _ _ _ i h_op
      split at h_t
      case h_1 =>
        subst h_t
        exact of_created h_lock h
      case h_2 =>
        subst h_t
        exact of_created h_lock h
    case isFalse =>
      split at h_t
      · subst h_t
        exact of_nil h
      · subst h_t
        exact of_nil h

/-! ## Runs -/

/-- There are no buffers, or buffers for `nrQueues` queues. -/
def Dbbuf.Sized (dbStride nrQueues : Nat) (buf : Dbbuf) : Prop :=
  buf = ⟨none, none⟩ ∨
    nrQueues * 8 * dbStride < Word32.bound ∧
      buf = ⟨some (nrQueues * 8 * dbStride), some (nrQueues * 8 * dbStride)⟩

/-- The buffers are as large as the array needs, and the next attempt stays inside the array. -/
structure DbbufInv (dbStride : Nat) (s : DbbufState) : Prop where
  sys : Inv s.sys
  pos : 1 ≤ s.sys.dev.nrAllocatedQueues
  room : ∀ n, s.sys.phase = .retry n → n + 1 ≤ s.sys.dev.nrAllocatedQueues
  buf : s.buf.Sized dbStride s.sys.dev.nrAllocatedQueues
  accesses : ∀ a ∈ s.accesses, a.InBounds dbStride

variable {dbStride : Nat}

/-- The entries of a queue that the array has room for. -/
theorem init_inBounds {nrQueues qid : Nat} (h_stride : 1 ≤ dbStride) (h_qid : qid + 1 ≤ nrQueues)
    (h_lt : nrQueues * 8 * dbStride < Word32.bound) :
    (DbbufAccess.init qid (nrQueues * 8 * dbStride)).InBounds dbStride := by
  have h_last : (qid * 2 + 1) * dbStride < nrQueues * 2 * dbStride :=
    Nat.mul_lt_mul_of_pos_right (by omega) h_stride
  have h_first : qid * 2 * dbStride ≤ (qid * 2 + 1) * dbStride :=
    Nat.mul_le_mul_right _ (Nat.le_succ _)
  have h_size : nrQueues * 8 * dbStride = nrQueues * 2 * dbStride * 4 := by ring
  have h_quarter : nrQueues * 8 * dbStride / 4 = nrQueues * 2 * dbStride := by omega
  rw [DbbufAccess.InBounds, sqIdx, cqIdx, Word32.wrap, Word32.wrap, h_quarter,
    Nat.mod_eq_of_lt (by omega), Nat.mod_eq_of_lt (by omega)]
  exact ⟨by omega, h_last⟩

/-- Allocating, or clearing what is there. -/
theorem nvmeDbbufDmaAlloc_inBounds (dbStride : Nat) (dbsAlloc eisAlloc : Bool) {memSize : Nat}
    {buf : Dbbuf} (h : buf = ⟨none, none⟩ ∨ buf = ⟨some memSize, some memSize⟩) :
    (∀ a ∈ (nvmeDbbufDmaAlloc dbsAlloc eisAlloc memSize buf).1, a.InBounds dbStride) ∧
      ((nvmeDbbufDmaAlloc dbsAlloc eisAlloc memSize buf).2 = ⟨none, none⟩ ∨
        (nvmeDbbufDmaAlloc dbsAlloc eisAlloc memSize buf).2 = ⟨some memSize, some memSize⟩ ∧
          (buf.dbs ≠ none ∨ dbsAlloc = true ∧ eisAlloc = true)) := by
  rcases h with rfl | rfl
  · have h_nil : ∀ a ∈ ([] : List DbbufAccess), a.InBounds dbStride := by
      intro a h_a
      cases h_a
    rw [nvmeDbbufDmaAlloc]
    cases dbsAlloc with
    | false => exact ⟨h_nil, .inl rfl⟩
    | true =>
        cases eisAlloc with
        | false =>
            refine ⟨?_, .inl rfl⟩
            intro a h_a
            rw [List.mem_singleton.mp h_a]
            rfl
        | true => exact ⟨h_nil, .inr ⟨rfl, .inr ⟨rfl, rfl⟩⟩⟩
  · refine ⟨?_, .inr ⟨rfl, .inl (Option.some_ne_none _)⟩⟩
    intro a h_a
    have h_a : a = .memset memSize memSize := by simpa [nvmeDbbufDmaAlloc] using h_a
    rw [h_a]
    exact Nat.le_refl _

theorem nvmeDbbufDmaFree_inBounds {memSize : Nat} {buf : Dbbuf}
    (h : buf = ⟨none, none⟩ ∨ buf = ⟨some memSize, some memSize⟩) :
    ∀ a ∈ (nvmeDbbufDmaFree memSize buf).1, a.InBounds dbStride := by
  rcases h with rfl | rfl
  · intro a h_a
    cases h_a
  · intro a h_a
    have h_a : a = .free memSize memSize := by simpa [nvmeDbbufDmaFree] using h_a
    rw [h_a]
    rfl

theorem initAccesses_inBounds {buf : Dbbuf} {ops : List SetupOp}
    (h : buf = ⟨none, none⟩ ∨ ∃ size, buf = ⟨some size, some size⟩ ∧
      ∀ qid, .initQueue qid ∈ ops → (DbbufAccess.init qid size).InBounds dbStride) :
    ∀ a ∈ initAccesses buf ops, a.InBounds dbStride := by
  intro a h_a
  obtain ⟨op, h_op, h_a⟩ := List.mem_flatMap.mp h_a
  cases op with
  | lock => cases h_a
  | unlock => cases h_a
  | initQueue qid =>
      have h_a : a ∈ nvmeDbbufInit buf qid := h_a
      rw [nvmeDbbufInit] at h_a
      split at h_a
      · cases h_a
      rcases h with rfl | ⟨size, rfl, h_size⟩
      · cases h_a
      · have h_a : a = .init qid size := by simpa using h_a
        rw [h_a]
        exact h_size qid h_op

/-- Accesses of one more step. -/
theorem forall_accesses_append {accesses new : List DbbufAccess}
    (h : ∀ a ∈ accesses, a.InBounds dbStride) (h_new : ∀ a ∈ new, a.InBounds dbStride) :
    ∀ a ∈ accesses ++ new, a.InBounds dbStride := by
  intro a h_a
  rcases List.mem_append.mp h_a with h_a | h_a
  · exact h a h_a
  · exact h_new a h_a

theorem DbbufInv.sizes {s : DbbufState} (h : DbbufInv dbStride s) :
    s.buf = ⟨none, none⟩ ∨ s.buf = ⟨some (nvmeDbbufSize s.sys.dev dbStride),
      some (nvmeDbbufSize s.sys.dev dbStride)⟩ := by
  rcases h.buf with h_none | ⟨h_lt, h_some⟩
  · exact .inl h_none
  · right
    rw [nvmeDbbufSize, Word32.wrap, Nat.mod_eq_of_lt h_lt]
    exact h_some

/-- The buffers before and after the reset, if it does not enlarge the array. -/
theorem resetDbbuf_inBounds {s : DbbufState} {env : DbbufResetEnv} (h : DbbufInv dbStride s)
    (h_fits : DbbufFits dbStride s (.reset env)) :
    let t := resetDbbuf dbStride env s.sys.dev s.buf
    (∀ a ∈ t.1, a.InBounds dbStride) ∧
      t.2.Sized dbStride s.sys.dev.nrAllocatedQueues ∧
      (t.2 = ⟨none, none⟩ ∨ ¬ ArrayGrows env.toResetEnv s.sys.dev) := by
  obtain ⟨h_noGrowth, h_lt⟩ := h_fits
  have h_kept : s.buf = ⟨none, none⟩ ∨ ¬ ArrayGrows env.toResetEnv s.sys.dev := by
    rcases h.buf with h_none | ⟨h_size, h_some⟩
    · exact .inl h_none
    · refine .inr (h_noGrowth (.inl ?_))
      rw [h_some]
      exact Option.some_ne_none _
  have h_nil : ∀ a ∈ ([] : List DbbufAccess), a.InBounds dbStride := by
    intro a h_a
    cases h_a
  dsimp only [resetDbbuf]
  split
  case h_1 => exact ⟨h_nil, h.buf, h_kept⟩
  case h_2 ret dev₁ h_admin =>
    split
    case isFalse => exact ⟨h_nil, h.buf, h_kept⟩
    case isTrue =>
      have h_same : dev₁.nrAllocatedQueues = s.sys.dev.nrAllocatedQueues :=
        (nvmePciConfigureAdminQueue_sameConfig h_admin).1.nrAllocatedQueues.trans
          (nvmeDevDisable_sameConfig s.sys.dev).1.nrAllocatedQueues
      have h_memSize : nvmeDbbufSize dev₁ dbStride = nvmeDbbufSize s.sys.dev dbStride := by
        rw [nvmeDbbufSize, nvmeDbbufSize, h_same]
      rw [h_memSize]
      obtain ⟨h_bounds, h_buf⟩ :=
        nvmeDbbufDmaAlloc_inBounds dbStride env.dbsAlloc env.eisAlloc h.sizes
      refine ⟨h_bounds, ?_⟩
      rcases h_buf with h_none | ⟨h_some, h_why⟩
      · exact ⟨.inl h_none, .inl h_none⟩
      · have h_size : s.sys.dev.nrAllocatedQueues * 8 * dbStride < Word32.bound := by
          rcases h.buf with h_new | ⟨h_old, -⟩
          · rcases h_why with h_dbs | ⟨h_dbs, h_eis⟩
            · rw [h_new] at h_dbs
              exact absurd rfl h_dbs
            · exact h_lt (by rw [h_new]) h_dbs h_eis
          · exact h_old
        refine ⟨.inr ⟨h_size, ?_⟩, .inr (h_noGrowth h_why)⟩
        rw [h_some, nvmeDbbufSize, Word32.wrap, Nat.mod_eq_of_lt h_size]

/-- Freeing, or keeping, what is there. -/
theorem DbbufInv.of_freed {s : DbbufState} {sys : State} {t : List DbbufAccess × Dbbuf}
    (h : DbbufInv dbStride s) (h_sys : Inv sys)
    (h_same : sys.dev.nrAllocatedQueues = s.sys.dev.nrAllocatedQueues)
    (h_phase : ∀ n, sys.phase ≠ .retry n) (h_t : ∀ a ∈ t.1, a.InBounds dbStride)
    (h_buf : t.2 = ⟨none, none⟩ ∨ t.2 = s.buf) : DbbufInv dbStride (s.withBuf sys t) where
  sys := h_sys
  pos := Nat.le_trans h.pos (Nat.le_of_eq h_same.symm)
  room n h_retry := absurd h_retry (h_phase n)
  buf := by
    show t.2.Sized dbStride sys.dev.nrAllocatedQueues
    rcases h_buf with h_none | h_kept
    · exact .inl h_none
    · rw [h_kept, h_same]
      exact h.buf
  accesses := forall_accesses_append h.accesses h_t

theorem nvmeResetWorkFinish_nrAllocated (tagsetAlloc : Bool) (dev : NvmeDev) :
    (nvmeResetWorkFinish tagsetAlloc dev).nrAllocatedQueues = dev.nrAllocatedQueues := by
  rw [nvmeResetWorkFinish]
  split
  · rfl
  split
  · rfl
  · exact (freeLoop_sameConfig _ dev).nrAllocatedQueues

theorem dbbufStep_reset {s : DbbufState} {env : DbbufResetEnv}
    (h : DbbufInv dbStride s) (h_fits : DbbufFits dbStride s (.reset env))
    (h_idle : s.sys.phase = .idle) :
    DbbufInv dbStride (s.withBuf (nvmeResetWork env.toResetEnv s.sys.dev)
      (resetDbbuf dbStride env s.sys.dev s.buf)) := by
  obtain ⟨h_same, h_pos, h_room⟩ := nvmeResetWork_room env.toResetEnv h.pos
  obtain ⟨h_bounds, h_sized, h_buf⟩ := resetDbbuf_inBounds h h_fits
  refine ⟨?_, h_pos, h_room, ?_, forall_accesses_append h.accesses h_bounds⟩
  · exact nvmeResetWork_inv env.toResetEnv h.sys.dev (h.sys.idle h_idle).admin
  · show (resetDbbuf dbStride env s.sys.dev s.buf).2.Sized dbStride
      (nvmeResetWork env.toResetEnv s.sys.dev).dev.nrAllocatedQueues
    rcases h_buf with h_none | h_noGrowth
    · exact .inl h_none
    · -- with buffers the array is as large as before
      rw [h_same.resolve_right h_noGrowth]
      exact h_sized

theorem dbbufStep_attempt {plat : Platform} {s : DbbufState} {env : AttemptLockEnv}
    {nrIoQueues : Nat} (h_stride : 1 ≤ dbStride) (h : DbbufInv dbStride s)
    (h_retry : s.sys.phase = .retry nrIoQueues) :
    let t := setupAttemptOps plat env nrIoQueues s.sys.dev
    DbbufInv dbStride (s.withBuf t.2 (initAccesses s.buf t.1, s.buf)) := by
  obtain ⟨h_nr, h_one⟩ := h.sys.retry nrIoQueues h_retry
  have h_room := h.room nrIoQueues h_retry
  have h_result := setupAttemptOps_result plat env nrIoQueues s.sys.dev
  have h_same : (setupAttempt plat env.toAttemptEnv nrIoQueues s.sys.dev).dev.nrAllocatedQueues =
      s.sys.dev.nrAllocatedQueues := by
    rcases setupAttempt_config plat env.toAttemptEnv nrIoQueues s.sys.dev with
      ⟨-, h_eq⟩ | ⟨-, h_config⟩
    · rw [h_eq]
      rfl
    · exact h_config.nrAllocatedQueues
  dsimp only
  refine ⟨?_, ?_, ?_, ?_, forall_accesses_append h.accesses ?_⟩
  · show Inv (setupAttemptOps plat env nrIoQueues s.sys.dev).2
    rw [h_result]
    exact setupAttempt_inv plat env.toAttemptEnv h.sys.dev h_nr h_one
  · show 1 ≤ (setupAttemptOps plat env nrIoQueues s.sys.dev).2.dev.nrAllocatedQueues
    rw [h_result, h_same]
    exact h.pos
  · intro n h_phase
    have h_phase : (setupAttemptOps plat env nrIoQueues s.sys.dev).2.phase = .retry n := h_phase
    show n + 1 ≤ (setupAttemptOps plat env nrIoQueues s.sys.dev).2.dev.nrAllocatedQueues
    rw [h_result] at h_phase ⊢
    rw [h_same]
    -- no more queues are online than this attempt was for
    rcases setupAttempt_cases plat env.toAttemptEnv nrIoQueues s.sys.dev with
      ⟨ret, dev', h_s, -⟩ | ⟨-, fault, h_s, -⟩ | ⟨-, ret, dev', h_create, ⟨ret', h_s, -⟩ | ⟨-, h_s⟩⟩
    · rw [h_s] at h_phase
      cases h_phase
    · rw [h_s] at h_phase
      cases h_phase
    · rw [h_s] at h_phase
      cases h_phase
    · rw [h_s] at h_phase
      cases h_phase
      have h_max := (attempt_created h.sys.dev h_one h_create).2.2.2.1
      omega
  · show s.buf.Sized dbStride (setupAttemptOps plat env nrIoQueues s.sys.dev).2.dev.nrAllocatedQueues
    rw [h_result, h_same]
    exact h.buf
  · apply initAccesses_inBounds
    rcases h.buf with h_none | ⟨h_lt, h_some⟩
    · exact .inl h_none
    · refine .inr ⟨_, h_some, ?_⟩
      intro qid h_qid
      have h_le := setupAttemptOps_initQueue h_qid
      exact init_inBounds h_stride (by omega) h_lt

/-- Any step, if it does not enlarge the array under a buffer. -/
theorem dbbufStep_inv {plat : Platform} {s s' : DbbufState} {e : DbbufEvent}
    (h_stride : 1 ≤ dbStride) (h : DbbufInv dbStride s) (h_fits : DbbufFits dbStride s e)
    (h_step : dbbufStep plat dbStride s e = some s') : DbbufInv dbStride s' := by
  have of_free (h_phase : ∀ n, s.sys.phase ≠ .retry n) : DbbufInv dbStride
      { s.withBuf s.sys (nvmeDbbufDmaFree (nvmeDbbufSize s.sys.dev dbStride) s.buf) with
        freed := true } := by
    have h_inv := h.of_freed h.sys rfl h_phase (nvmeDbbufDmaFree_inBounds h.sizes) (.inl rfl)
    exact ⟨h_inv.sys, h_inv.pos, h_inv.room, h_inv.buf, h_inv.accesses⟩
  unfold dbbufStep at h_step
  split at h_step
  · cases h_step
  split at h_step
  case h_1 env h_idle =>
    cases h_step
    exact dbbufStep_reset h h_fits h_idle
  case h_2 env nrIoQueues h_retry =>
    cases h_step
    exact dbbufStep_attempt h_stride h h_retry
  case h_3 tagsetAlloc dbbufSet ret h_returned =>
    split at h_step
    case isFalse => cases h_step
    case isTrue h_ret =>
      cases h_step
      rw [h_ret] at h_returned
      have h_sys := nvmeResetWorkFinish_inv tagsetAlloc h.sys.dev (h.sys.returned h_returned)
      have h_same := nvmeResetWorkFinish_nrAllocated tagsetAlloc s.sys.dev
      have h_size : nvmeDbbufSize (nvmeResetWorkFinish tagsetAlloc s.sys.dev) dbStride =
          nvmeDbbufSize s.sys.dev dbStride := by
        rw [nvmeDbbufSize, nvmeDbbufSize, h_same]
      have h_nil : ∀ a ∈ ([] : List DbbufAccess), a.InBounds dbStride := by
        intro a h_a
        cases h_a
      apply h.of_freed h_sys h_same
      · intro n h_phase
        cases h_phase
      · rw [h_size, nvmeDbbufSet]
        split
        · exact h_nil
        split
        · exact h_nil
        split
        · exact h_nil
        · exact nvmeDbbufDmaFree_inBounds h.sizes
      · rw [nvmeDbbufSet]
        split
        · exact .inr rfl
        split
        · exact .inr rfl
        split
        · exact .inr rfl
        · exact .inl rfl
  case h_4 h_idle =>
    cases h_step
    exact of_free fun n h_phase => by rw [h_idle] at h_phase; cases h_phase
  case h_5 ret h_returned =>
    cases h_step
    exact of_free fun n h_phase => by rw [h_returned] at h_phase; cases h_phase
  case h_6 => cases h_step

theorem dbbufProbed_inv {s : DbbufState} (h : DbbufProbed s) : DbbufInv dbStride s := by
  obtain ⟨nrAllocatedQueues, h_pos, rfl⟩ := h
  refine ⟨probed_inv ⟨nrAllocatedQueues, rfl⟩, h_pos, ?_, .inl rfl, ?_⟩
  · intro n h_phase
    cases h_phase
  · intro a h_a
    cases h_a

/-- In every run that does not enlarge the array of the queues under the buffers, no access goes
past a buffer, and each buffer is freed with the size that it was allocated with. -/
theorem dbbuf_inBounds (plat : Platform) {dbStride : Nat} (h_stride : 1 ≤ dbStride) {s : DbbufState}
    (h : Lts.Reach (dbbufStep plat dbStride) (DbbufFits dbStride) DbbufProbed s) :
    ∀ a ∈ s.accesses, a.InBounds dbStride := by
  have h_inv : DbbufInv dbStride s := h.invariant (fun _ => dbbufProbed_inv)
    fun _ _ _ h_inv h_fits h_step => dbbufStep_inv h_stride h_inv h_fits h_step
  exact h_inv.accesses

/-- A reset in which both buffers are allocated if they are not there. -/
def dbbufReset (granted : Nat) : DbbufEvent := .reset ⟨resetGranting granted, true, true, false⟩

def dbbufAttempt (vecs : Int) : DbbufEvent :=
  .attempt ⟨attemptVecs vecs fun _ => queueOk, true, fun _ => true⟩

/-- The probe of a device with room for three queues. -/
def dbbufProbe : DbbufState := ⟨⟨.probed 3, .idle⟩, ⟨none, none⟩, [], false⟩

/-- The controller grants the two I/O queues that the array has room for. -/
def twoGranted : DbbufState :=
  let t := setupAttemptOps twoCpus ⟨attemptVecs 3 fun _ => queueOk, true, fun _ => true⟩ 2
    (nvmeResetWork (resetGranting 2) (.probed 3)).dev
  ⟨t.2, ⟨some 24, some 24⟩, [.init 1 24, .init 1 24, .init 2 24, .init 2 24], false⟩

theorem twoGranted_inBounds :
    Lts.Reach (dbbufStep twoCpus 1) (DbbufFits 1) DbbufProbed twoGranted ∧
      ∀ a ∈ twoGranted.accesses, a.InBounds 1 := by
  have h_fits : DbbufFits 1 dbbufProbe (dbbufReset 2) := by
    refine ⟨fun _ h_grows => ?_, fun _ _ _ => by decide⟩
    have h_more : 3 - 1 < (resetGranting 2).nrIoQueues := h_grows.more
    exact absurd h_more (by decide)
  have h_reset : Lts.Reach (dbbufStep twoCpus 1) (DbbufFits 1) DbbufProbed
      ⟨nvmeResetWork (resetGranting 2) (.probed 3), ⟨some 24, some 24⟩, [], false⟩ :=
    (Lts.Reach.init ⟨3, by decide, rfl⟩).step h_fits rfl
  have h_reach : Lts.Reach (dbbufStep twoCpus 1) (DbbufFits 1) DbbufProbed twoGranted :=
    h_reset.step (e := dbbufAttempt 3) trivial rfl
  exact ⟨h_reach, dbbuf_inBounds twoCpus (Nat.le_refl 1) h_reach⟩

/-- The controller grants four, and the array is enlarged to five queues; a second reset finds no
vectors, and the device is removed. -/
def fourGranted : List DbbufEvent :=
  [dbbufReset 4, dbbufAttempt 3, .finish true true, dbbufReset 4, dbbufAttempt 0, .freeCtrl]

/-- Queue 3 has its entries past the buffer for three queues, and clearing and freeing it take
it for one for five. -/
theorem fourGranted_pastBuffer :
    ∃ s, Lts.Reach (dbbufStep twoCpus 1) Lts.anyStep DbbufProbed s ∧
      .init 3 24 ∈ s.accesses ∧ ¬ cqIdx 3 1 < 24 / 4 ∧ .memset 40 24 ∈ s.accesses ∧
      .free 40 24 ∈ s.accesses ∧ ¬ ∀ a ∈ s.accesses, a.InBounds 1 := by
  cases h_run : Lts.run (dbbufStep twoCpus 1) dbbufProbe fourGranted with
  | none =>
      have h_some : (Lts.run (dbbufStep twoCpus 1) dbbufProbe fourGranted).isSome = true := by
        decide
      rw [h_run] at h_some
      cases h_some
  | some s =>
      have h_end : (Lts.run (dbbufStep twoCpus 1) dbbufProbe fourGranted).map
          (fun s => decide (.init 3 24 ∈ s.accesses ∧ .memset 40 24 ∈ s.accesses ∧
            .free 40 24 ∈ s.accesses)) = some true := by
        decide
      rw [h_run, Option.map_some, Option.some.injEq, decide_eq_true_eq] at h_end
      obtain ⟨h_init, h_memset, h_free⟩ := h_end
      refine ⟨s, Lts.reach_iff_run.mpr ⟨_, _, ⟨3, by decide, rfl⟩, h_run⟩, h_init, by decide,
        h_memset, h_free, ?_⟩
      intro h
      exact absurd (h _ h_init) (by decide)

end Daredevil.Nvme
