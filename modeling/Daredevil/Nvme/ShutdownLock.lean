/-
  Daredevil.Nvme.ShutdownLock

  `shutdown_lock` while `nvme_setup_io_queues` runs.

  The function takes the lock before it frees the admin queue's interrupt, comes to the
  label `retry` with the lock held, and gives it up before it creates queues: creating a
  queue takes the lock again, and so does going back to `retry`.  `nvmeSetupIoQueuesOps`,
  `setupAttemptOps` and what they call are the functions of `Nvme.Setup` with what they do
  to the lock, and with the queues that they initialise.

    * `setupAttemptOps_balance` — the step: one pass from `retry` on;
    * `setupRetries_balance`    — any number of passes;
    * `setupRun_balanced_iff`   — the one return that keeps the lock.
-/
import Daredevil.Nvme.Frame

namespace Daredevil.Nvme

/-! ## The functions, with what they do to the lock -/

inductive SetupOp where
  /-- `mutex_lock` or a `mutex_trylock` that succeeds -/
  | lock
  /-- `mutex_unlock` -/
  | unlock
  /-- `nvme_init_queue` -/
  | initQueue (qid : Nat)
  deriving DecidableEq, Repr

/-- What one queue gets as answers, and why it does not get the lock. -/
structure QueueLockEnv extends QueueEnv where
  /-- `mutex_trylock` would succeed; read where `lockFree` is false -/
  mutexFree : Bool

structure ResetLockEnv extends ResetEnv where
  mutexFree : Bool

structure AttemptLockEnv extends AttemptEnv where
  mutexFree : Bool
  queueMutexFree : Nat → Bool

def AttemptLockEnv.queueLock (env : AttemptLockEnv) (qid : Nat) : QueueLockEnv :=
  ⟨env.queue qid, env.queueMutexFree qid⟩

/-- `nvme_setup_io_queues_trylock` -/
def nvmeSetupIoQueuesTrylockOps (mutexFree lockFree : Bool) (dev : NvmeDev) :
    List SetupOp × Option NvmeDev :=
  -- held by the code that is modelled here
  if dev.shutdownLock then ([], none)
  else if lockFree then ([.lock], some { dev with shutdownLock := true })
  -- the controller is in the wrong state
  else if mutexFree then ([.lock, .unlock], none)
  else ([], none)

/-- `nvme_blex_create_queue` -/
def nvmeBlexCreateQueueOps (env : QueueLockEnv) (dev : NvmeDev) (qid : Nat) :
    List SetupOp × Except Fault (Int × NvmeDev) :=
  if !(dev.queues qid).hasDev then ([], .error (.nullDev qid))
  else
    let hasCq := blexNvmeqHasCq dev qid
    if hasCq && env.createCq != 0 then ([], .ok (env.createCq, dev))
    else if env.createSq < 0 then ([], .ok (env.createSq, dev))
    else if env.createSq ≠ 0 then ([], .ok (env.createSq, dev))
    else
      let dev := { dev with sqCqid := Function.update dev.sqCqid qid (assocCqid dev qid) }
      let t := nvmeSetupIoQueuesTrylockOps env.mutexFree env.lockFree dev
      match t.2 with
      | none => (t.1, .ok (enodev, dev))
      | some dev =>
          let ops := t.1 ++ [.initQueue qid]
          match nvmeInitQueue dev qid with
          | .error fault => (ops, .error fault)
          | .ok dev =>
              if hasCq && decide (env.requestIrq < 0) then
                -- `release_sq`
                (ops ++ [.unlock], .ok (env.requestIrq,
                  { dev with onlineQueues := dev.onlineQueues - 1, shutdownLock := false }))
              else
                (ops ++ [.unlock], .ok (if hasCq then env.requestIrq else 0,
                  { dev.setQueue qid { dev.queues qid with enabled := true } with
                    shutdownLock := false }))

/-- The creation loop of `nvme_blex_create_io_queues`. -/
def createLoopOps (env : Nat → QueueLockEnv) :
    Nat → Nat → Int → NvmeDev → List SetupOp × Except Fault (Int × NvmeDev)
  | 0, _, ret, dev => ([], .ok (ret, dev))
  | n + 1, qid, _, dev =>
      let t := nvmeBlexCreateQueueOps (env qid) dev qid
      match t.2 with
      | .error fault => (t.1, .error fault)
      | .ok (ret, dev) =>
          if ret ≠ 0 then (t.1, .ok (ret, dev))
          else
            let rest := createLoopOps env n (qid + 1) ret dev
            (t.1 ++ rest.1, rest.2)

/-- `nvme_blex_create_io_queues` -/
def nvmeBlexCreateIoQueuesOps (env : Nat → QueueLockEnv) (dev : NvmeDev) :
    List SetupOp × Except Fault (Int × NvmeDev) :=
  let a := allocLoop (fun qid => (env qid).toQueueEnv) (dev.maxQid + 1 - dev.queueCount)
    dev.queueCount dev
  let max := min a.2.maxQid (a.2.queueCount - 1)
  if a.2.ioQueuesPoll ≠ 0 then ([], .ok (-1, a.2))
  else
    let t := createLoopOps env (max + 1 - a.2.onlineQueues) a.2.onlineQueues
      (if a.1 then 0 else enomem) a.2
    match t.2 with
    | .error fault => (t.1, .error fault)
    | .ok (ret, dev) => (t.1, .ok (if 0 ≤ ret then 0 else ret, dev))

/-- `nvme_setup_io_queues` up to the label `retry`. -/
def nvmeSetupIoQueuesOps (env : ResetLockEnv) (dev : NvmeDev) : List SetupOp × State :=
  let dev := { dev with nrWriteQueues := env.writeQueues, nrPollQueues := env.pollQueues }
  let nrIoQueues := min (nvmeMaxNrIoQueues - 1) env.granted
  if env.setQueueCount < 0 then ([], ⟨dev, .returned env.setQueueCount⟩)
  else if nrIoQueues = 0 then ([], ⟨dev, .returned 0⟩)
  else
    let t := nvmeSetupIoQueuesTrylockOps env.mutexFree env.lockFree dev
    match t.2 with
    | none => (t.1, ⟨dev, .returned enodev⟩)
    | some dev =>
        let dev := dev.setAdminEnabled false
        match nvmeBlexExtraqUpdateQueues env.arrayAlloc dev nrIoQueues with
        -- this return does not go through `out_unlock`
        | none => (t.1, ⟨dev, .returned enomem⟩)
        | some dev =>
            match remapLoop env.remapBar nrIoQueues with
            | none => (t.1 ++ [.unlock], ⟨{ dev with shutdownLock := false }, .returned enomem⟩)
            | some nrIoQueues => (t.1, ⟨dev, .retry nrIoQueues⟩)

/-- One pass from the label `retry` of `nvme_setup_io_queues`. -/
def setupAttemptOps (plat : Platform) (env : AttemptLockEnv) (nrIoQueues : Nat) (dev : NvmeDev) :
    List SetupOp × State :=
  let irqs := nvmeSetupIrqs plat env.vecs dev nrIoQueues
  if irqs ≤ 0 then
    ([.unlock], ⟨{ dev.setAdminEnabled false with
        ioQueuesPoll := pollQueues dev nrIoQueues, shutdownLock := false }, .returned eio⟩)
  else
    let dev := { withLayout dev nrIoQueues irqs with shutdownLock := false }
    if env.adminIrq ≠ 0 then ([.unlock], ⟨dev, .returned env.adminIrq⟩)
    else
      let dev := dev.setAdminEnabled true
      let t := nvmeBlexCreateIoQueuesOps env.queueLock dev
      match t.2 with
      | .error fault => (.unlock :: t.1, ⟨dev, .faulted fault⟩)
      | .ok (ret, dev) =>
          if ret ≠ 0 ∨ dev.onlineQueues < 2 then (.unlock :: t.1, ⟨dev, .returned ret⟩)
          else if dev.onlineQueues - 1 < dev.maxQid then
            let l := nvmeSetupIoQueuesTrylockOps env.mutexFree env.lockFree dev
            match l.2 with
            | none => (.unlock :: t.1 ++ l.1, ⟨dev, .returned enodev⟩)
            | some locked =>
                (.unlock :: t.1 ++ l.1, ⟨nvmeSuspendIoQueues locked, .retry (dev.onlineQueues - 1)⟩)
          else if env.arbitration < 0 then (.unlock :: t.1, ⟨dev, .returned env.arbitration⟩)
          else (.unlock :: t.1, ⟨dev, .returned 0⟩)

/-- `nvme_setup_io_queues` from `retry` on, as long as it comes back there and answers are left. -/
def setupRetries (plat : Platform) : List AttemptLockEnv → State → List SetupOp × State
  | [], s => ([], s)
  | env :: envs, s =>
      match s.phase with
      | .retry nrIoQueues =>
          let t := setupAttemptOps plat env nrIoQueues s.dev
          let rest := setupRetries plat envs t.2
          (t.1 ++ rest.1, rest.2)
      | _ => ([], s)

/-- `nvme_setup_io_queues` -/
def setupRun (plat : Platform) (env : ResetLockEnv) (envs : List AttemptLockEnv) (dev : NvmeDev) :
    List SetupOp × State :=
  let t := nvmeSetupIoQueuesOps env dev
  let rest := setupRetries plat envs t.2
  (t.1 ++ rest.1, rest.2)

/-! ## The operations do not change the run -/

theorem trylockOps_result (mutexFree lockFree : Bool) (dev : NvmeDev) :
    (nvmeSetupIoQueuesTrylockOps mutexFree lockFree dev).2 =
      nvmeSetupIoQueuesTrylock lockFree dev := by
  rw [nvmeSetupIoQueuesTrylockOps, nvmeSetupIoQueuesTrylock]
  cases dev.shutdownLock with
  | true => cases lockFree <;> rfl
  | false =>
      cases lockFree with
      | true => rfl
      | false => cases mutexFree <;> rfl

theorem createQueueOps_result (env : QueueLockEnv) (dev : NvmeDev) (qid : Nat) :
    (nvmeBlexCreateQueueOps env dev qid).2 = nvmeBlexCreateQueue env.toQueueEnv dev qid := by
  simp only [nvmeBlexCreateQueueOps, nvmeBlexCreateQueue, trylockOps_result]
  split
  · rfl
  split
  · rfl
  split
  · rfl
  split
  · rfl
  cases nvmeSetupIoQueuesTrylock env.lockFree
      { dev with sqCqid := Function.update dev.sqCqid qid (assocCqid dev qid) } with
  | none => rfl
  | some locked =>
      dsimp only
      cases nvmeInitQueue locked qid with
      | error fault => rfl
      | ok online =>
          dsimp only
          split
          · rfl
          · rfl

theorem createLoopOps_result (env : Nat → QueueLockEnv) (n qid : Nat) (ret : Int)
    (dev : NvmeDev) :
    (createLoopOps env n qid ret dev).2 =
      createLoop (fun qid => (env qid).toQueueEnv) n qid ret dev := by
  induction n generalizing qid ret dev with
  | zero => rfl
  | succ n ih =>
      simp only [createLoopOps, createLoop, createQueueOps_result]
      cases h_create : nvmeBlexCreateQueue (env qid).toQueueEnv dev qid with
      | error fault => rfl
      | ok r =>
          dsimp only
          split
          · rfl
          · exact ih (qid + 1) r.1 r.2

theorem createIoQueuesOps_result (env : Nat → QueueLockEnv) (dev : NvmeDev) :
    (nvmeBlexCreateIoQueuesOps env dev).2 =
      nvmeBlexCreateIoQueues (fun qid => (env qid).toQueueEnv) dev := by
  simp only [nvmeBlexCreateIoQueuesOps, nvmeBlexCreateIoQueues, createLoopOps_result]
  split
  · rfl
  · cases createLoop _ _ _ _ _ with
    | error fault => rfl
    | ok r => rfl

theorem setupIoQueuesOps_result (env : ResetLockEnv) (dev : NvmeDev) :
    (nvmeSetupIoQueuesOps env dev).2 = nvmeSetupIoQueues env.toResetEnv dev := by
  simp only [nvmeSetupIoQueuesOps, nvmeSetupIoQueues, trylockOps_result]
  split
  · rfl
  split
  · rfl
  cases nvmeSetupIoQueuesTrylock env.lockFree { dev with
      nrWriteQueues := env.writeQueues, nrPollQueues := env.pollQueues } with
  | none => rfl
  | some locked =>
      dsimp only
      cases nvmeBlexExtraqUpdateQueues env.arrayAlloc (locked.setAdminEnabled false)
          (min (nvmeMaxNrIoQueues - 1) env.granted) with
      | none => rfl
      | some grown =>
          dsimp only
          cases remapLoop env.remapBar (min (nvmeMaxNrIoQueues - 1) env.granted) with
          | none => rfl
          | some nrIoQueues => rfl

theorem setupAttemptOps_result (plat : Platform) (env : AttemptLockEnv) (nrIoQueues : Nat)
    (dev : NvmeDev) :
    (setupAttemptOps plat env nrIoQueues dev).2 =
      setupAttempt plat env.toAttemptEnv nrIoQueues dev := by
  simp only [setupAttemptOps, setupAttempt, createIoQueuesOps_result, trylockOps_result]
  split
  · rfl
  split
  · rfl
  have h_queue : (fun qid => (env.queueLock qid).toQueueEnv) = env.queue := rfl
  rw [h_queue]
  generalize nvmeBlexCreateIoQueues env.queue _ = created
  cases created with
  | error fault => rfl
  | ok r =>
      dsimp only
      split
      · rfl
      split
      · cases nvmeSetupIoQueuesTrylock env.lockFree r.2 with
        | none => rfl
        | some locked => rfl
      · split <;> rfl

/-! ## Counting the lock operations -/

/-- How much more often the lock was taken than released. -/
def heldBy (ops : List SetupOp) : Int := (ops.count .lock : Int) - ops.count .unlock

@[simp] theorem heldBy_nil : heldBy [] = 0 := rfl

@[simp] theorem heldBy_append (ops ops' : List SetupOp) :
    heldBy (ops ++ ops') = heldBy ops + heldBy ops' := by
  rw [heldBy, heldBy, heldBy, List.count_append, List.count_append]
  omega

@[simp] theorem heldBy_lock (ops : List SetupOp) : heldBy (.lock :: ops) = 1 + heldBy ops := by
  rw [heldBy, heldBy, List.count_cons_self, List.count_cons_of_ne (by decide)]
  omega

@[simp] theorem heldBy_unlock (ops : List SetupOp) : heldBy (.unlock :: ops) = heldBy ops - 1 := by
  rw [heldBy, heldBy, List.count_cons_self, List.count_cons_of_ne (by decide)]
  omega

@[simp] theorem heldBy_initQueue (qid : Nat) (ops : List SetupOp) :
    heldBy (.initQueue qid :: ops) = heldBy ops := by
  rw [heldBy, heldBy, List.count_cons_of_ne (by simp), List.count_cons_of_ne (by simp)]

theorem heldBy_eq_zero_iff (ops : List SetupOp) :
    heldBy ops = 0 ↔ ops.count .lock = ops.count .unlock := by
  rw [heldBy]
  omega

/-- The function gave back what it took: the lock is free before and after. -/
structure LockNeutral (ops : List SetupOp) (dev : NvmeDev) : Prop where
  heldBy : heldBy ops = 0
  free : dev.shutdownLock = false

/-- The lock was not taken, or given back at once. -/
def NotTaken (ops : List SetupOp) : Prop := ops = [] ∨ ops = [.lock, .unlock]

theorem NotTaken.heldBy {ops : List SetupOp} (h : NotTaken ops) : heldBy ops = 0 := by
  rcases h with rfl | rfl
  · rfl
  · rfl

theorem trylockOps_cases (mutexFree lockFree : Bool) (dev : NvmeDev) :
    (NotTaken (nvmeSetupIoQueuesTrylockOps mutexFree lockFree dev).1 ∧
      (nvmeSetupIoQueuesTrylockOps mutexFree lockFree dev).2 = none ∧
      (dev.shutdownLock = true ∨ lockFree = false)) ∨
    (nvmeSetupIoQueuesTrylockOps mutexFree lockFree dev =
        ([.lock], some { dev with shutdownLock := true }) ∧
      dev.shutdownLock = false ∧ lockFree = true) := by
  rw [nvmeSetupIoQueuesTrylockOps]
  cases dev.shutdownLock with
  | true => exact .inl ⟨.inl rfl, rfl, .inl rfl⟩
  | false =>
      cases lockFree with
      | true => exact .inr ⟨rfl, rfl, rfl⟩
      | false =>
          cases mutexFree with
          | true => exact .inl ⟨.inr rfl, rfl, .inr rfl⟩
          | false => exact .inl ⟨.inl rfl, rfl, .inr rfl⟩

/-! ## Queues -/

/-- Creating a queue initialises it under the lock, or does not come so far. -/
theorem createQueueOps_cases (env : QueueLockEnv) (dev : NvmeDev) (qid : Nat) :
    (NotTaken (nvmeBlexCreateQueueOps env dev qid).1 ∧
      ∀ ret dev', (nvmeBlexCreateQueueOps env dev qid).2 = .ok (ret, dev') →
        dev'.shutdownLock = dev.shutdownLock) ∨
    ((nvmeBlexCreateQueueOps env dev qid).1 = [.lock, .initQueue qid, .unlock] ∧
      ∀ ret dev', (nvmeBlexCreateQueueOps env dev qid).2 = .ok (ret, dev') →
        dev'.shutdownLock = false) ∨
    ((nvmeBlexCreateQueueOps env dev qid).1 = [.lock, .initQueue qid] ∧
      ∃ fault, (nvmeBlexCreateQueueOps env dev qid).2 = .error fault) := by
  have of_same (ret' : Int) : ∀ ret dev',
      (Except.ok (ret', dev) : Except Fault (Int × NvmeDev)) = .ok (ret, dev') →
        dev'.shutdownLock = dev.shutdownLock := by
    rintro ret dev' ⟨⟩
    rfl
  generalize h_t : nvmeBlexCreateQueueOps env dev qid = t
  unfold nvmeBlexCreateQueueOps at h_t
  dsimp only at h_t
  -- nothing has been taken when the queue is missing or the controller does not create it
  split at h_t
  case isTrue =>
    subst h_t
    exact .inl ⟨.inl rfl, fun ret dev' h_eq => by cases h_eq⟩
  split at h_t
  case isTrue =>
    subst h_t
    exact .inl ⟨.inl rfl, of_same _⟩
  split at h_t
  case isTrue =>
    subst h_t
    exact .inl ⟨.inl rfl, of_same _⟩
  split at h_t
  case isTrue =>
    subst h_t
    exact .inl ⟨.inl rfl, of_same _⟩
  rcases trylockOps_cases env.mutexFree env.lockFree
      { dev with sqCqid := Function.update dev.sqCqid qid (assocCqid dev qid) } with
    ⟨h_ops, h_none, -⟩ | ⟨h_taken, h_free, -⟩
  · rw [h_none] at h_t
    subst h_t
    refine .inl ⟨h_ops, ?_⟩
    rintro ret dev' ⟨⟩
    rfl
  · rw [h_taken] at h_t
    refine .inr ?_
    dsimp only at h_t
    split at h_t
    case h_1 fault _ =>
      subst h_t
      exact .inr ⟨rfl, fault, rfl⟩
    case h_2 =>
      split at h_t
      case isTrue =>
        subst h_t
        refine .inl ⟨rfl, ?_⟩
        rintro ret dev' ⟨⟩
        rfl
      case isFalse =>
        subst h_t
        refine .inl ⟨rfl, ?_⟩
        rintro ret dev' ⟨⟩
        rfl

/-- A created queue leaves the lock as it was: free. -/
theorem createQueueOps_neutral {env : QueueLockEnv} {dev dev' : NvmeDev} {qid : Nat} {ret : Int}
    (h_free : dev.shutdownLock = false)
    (h : (nvmeBlexCreateQueueOps env dev qid).2 = .ok (ret, dev')) :
    LockNeutral (nvmeBlexCreateQueueOps env dev qid).1 dev' := by
  rcases createQueueOps_cases env dev qid with ⟨h_ops, h_lock⟩ | ⟨h_ops, h_lock⟩ | ⟨-, fault, h_err⟩
  · exact ⟨h_ops.heldBy, (h_lock ret dev' h).trans h_free⟩
  · refine ⟨?_, h_lock ret dev' h⟩
    rw [h_ops]
    rfl
  · rw [h_err] at h
    cases h

theorem createLoopOps_neutral {env : Nat → QueueLockEnv} {n qid : Nat} {ret ret' : Int}
    {dev dev' : NvmeDev} (h_free : dev.shutdownLock = false)
    (h : (createLoopOps env n qid ret dev).2 = .ok (ret', dev')) :
    LockNeutral (createLoopOps env n qid ret dev).1 dev' := by
  induction n generalizing qid ret dev with
  | zero =>
      cases h
      exact ⟨rfl, h_free⟩
  | succ n ih =>
      simp only [createLoopOps] at h ⊢
      cases h_first : (nvmeBlexCreateQueueOps (env qid) dev qid).2 with
      | error fault =>
          rw [h_first] at h
          cases h
      | ok r =>
          obtain ⟨h_zero, h_first_free⟩ := createQueueOps_neutral h_free h_first
          rw [h_first] at h
          dsimp only at h ⊢
          split at h
          case isTrue h_ret =>
            cases h
            rw [if_pos h_ret]
            exact ⟨h_zero, h_first_free⟩
          case isFalse h_ret =>
            obtain ⟨h_rest, h_last_free⟩ := ih h_first_free h
            rw [if_neg h_ret]
            refine ⟨?_, h_last_free⟩
            rw [heldBy_append, h_zero, h_rest]
            rfl

theorem createIoQueuesOps_neutral {env : Nat → QueueLockEnv} {dev dev' : NvmeDev} {ret : Int}
    (h_free : dev.shutdownLock = false)
    (h : (nvmeBlexCreateIoQueuesOps env dev).2 = .ok (ret, dev')) :
    LockNeutral (nvmeBlexCreateIoQueuesOps env dev).1 dev' := by
  have h_alloc := (allocLoop_sameConfig (fun qid => (env qid).toQueueEnv)
    (dev.maxQid + 1 - dev.queueCount) dev.queueCount dev).2.trans h_free
  simp only [nvmeBlexCreateIoQueuesOps] at h ⊢
  split at h
  case isTrue h_poll =>
    cases h
    rw [if_pos h_poll]
    exact ⟨rfl, h_alloc⟩
  case isFalse h_poll =>
    rw [if_neg h_poll]
    generalize h_loop : createLoopOps env _ _ _ _ = t at h ⊢
    cases h_ok : t.2 with
    | error fault =>
        rw [h_ok] at h
        cases h
    | ok r =>
        rw [← h_loop] at h_ok
        have h_neutral := createLoopOps_neutral h_alloc h_ok
        rw [h_loop] at h_ok h_neutral
        rw [h_ok] at h
        cases h
        exact h_neutral

/-! ## The setup -/

/-- The I/O queues that the controller grants, as `nvme_setup_io_queues` asks for them. -/
def ResetEnv.nrIoQueues (env : ResetEnv) : Nat := min (nvmeMaxNrIoQueues - 1) env.granted

/-- The setup gets the lock, finds that the array of the queues has to be enlarged, and there is
no memory for that. -/
structure GrowthFails (env : ResetEnv) (dev : NvmeDev) : Prop where
  granted : 0 ≤ env.setQueueCount
  lockFree : env.lockFree = true
  free : dev.shutdownLock = false
  more : dev.nrAllocatedQueues - 1 < env.nrIoQueues
  noMemory : env.arrayAlloc = false

/-- The lock is held at the label `retry`, and at one return. -/
theorem setupIoQueuesOps_cases (env : ResetLockEnv) (dev : NvmeDev) :
    (¬ GrowthFails env.toResetEnv dev ∧ heldBy (nvmeSetupIoQueuesOps env dev).1 = 0 ∧
      ∃ dev' ret, (nvmeSetupIoQueuesOps env dev).2 = ⟨dev', .returned ret⟩) ∨
    (¬ GrowthFails env.toResetEnv dev ∧ heldBy (nvmeSetupIoQueuesOps env dev).1 = 1 ∧
      ∃ dev' nrIoQueues, (nvmeSetupIoQueuesOps env dev).2 = ⟨dev', .retry nrIoQueues⟩) ∨
    (GrowthFails env.toResetEnv dev ∧ heldBy (nvmeSetupIoQueuesOps env dev).1 = 1 ∧
      ∃ dev', (nvmeSetupIoQueuesOps env dev).2 = ⟨dev', .returned enomem⟩ ∧
        dev'.shutdownLock = true) := by
  generalize h_t : nvmeSetupIoQueuesOps env dev = t
  unfold nvmeSetupIoQueuesOps at h_t
  dsimp only at h_t
  split at h_t
  case isTrue h_neg =>
    subst h_t
    exact .inl ⟨fun h => absurd h.granted (by omega), rfl, _, _, rfl⟩
  case isFalse h_granted =>
    split at h_t
    case isTrue h_zero =>
      subst h_t
      refine .inl ⟨fun h => ?_, rfl, _, _, rfl⟩
      have h_more := h.more
      rw [ResetEnv.nrIoQueues, h_zero] at h_more
      exact absurd h_more (Nat.not_lt_zero _)
    case isFalse =>
      rcases trylockOps_cases env.mutexFree env.lockFree { dev with
          nrWriteQueues := env.writeQueues, nrPollQueues := env.pollQueues } with
        ⟨h_ops, h_none, h_why⟩ | ⟨h_taken, h_free, h_lock⟩
      · rw [h_none] at h_t
        subst h_t
        refine .inl ⟨fun h => ?_, h_ops.heldBy, _, _, rfl⟩
        rcases h_why with h_held | h_busy
        · exact absurd (h.free.symm.trans h_held) (by decide)
        · exact absurd (h.lockFree.symm.trans h_busy) (by decide)
      · rw [h_taken] at h_t
        dsimp only at h_t
        generalize h_dev : NvmeDev.setAdminEnabled _ false = locked at h_t
        have h_alloc : locked.nrAllocatedQueues = dev.nrAllocatedQueues := by
          rw [← h_dev]
          rfl
        have h_held : locked.shutdownLock = true := by
          rw [← h_dev]
          rfl
        cases h_array : nvmeBlexExtraqUpdateQueues env.arrayAlloc locked
            (min (nvmeMaxNrIoQueues - 1) env.granted) with
        | none =>
            -- the return that Daredevil added
            rw [h_array] at h_t
            subst h_t
            rw [nvmeBlexExtraqUpdateQueues] at h_array
            split at h_array
            case isTrue => cases h_array
            case isFalse h_more =>
              split at h_array
              case isFalse => cases h_array
              case isTrue h_noMemory =>
                rw [h_alloc] at h_more
                exact .inr (.inr ⟨⟨by omega, h_lock, h_free, Nat.lt_of_not_le h_more,
                  by simpa using h_noMemory⟩, rfl, _, rfl, h_held⟩)
        | some grown =>
            have h_not : ¬ GrowthFails env.toResetEnv dev := by
              intro h
              rcases nvmeBlexExtraqUpdateQueues_cases h_array with ⟨h_fits, -⟩ | ⟨-, h_memory, -⟩
              · rw [h_alloc] at h_fits
                exact absurd h.more (Nat.not_lt.mpr h_fits)
              · exact absurd (h.noMemory.symm.trans h_memory) (by decide)
            rw [h_array] at h_t
            dsimp only at h_t
            split at h_t
            case h_1 =>
              subst h_t
              exact .inl ⟨h_not, rfl, _, _, rfl⟩
            case h_2 =>
              subst h_t
              exact .inr (.inl ⟨h_not, rfl, _, _, rfl⟩)

/-- One pass gives the lock up that it starts with, and has it again where it goes back. -/
theorem setupAttemptOps_balance (plat : Platform) (env : AttemptLockEnv) (nrIoQueues : Nat)
    (dev : NvmeDev) :
    (∀ ret, (setupAttemptOps plat env nrIoQueues dev).2.phase = .returned ret →
      heldBy (setupAttemptOps plat env nrIoQueues dev).1 = -1) ∧
    (∀ n, (setupAttemptOps plat env nrIoQueues dev).2.phase = .retry n →
      heldBy (setupAttemptOps plat env nrIoQueues dev).1 = 0) ∧
    (setupAttemptOps plat env nrIoQueues dev).2.phase ≠ .idle := by
  have of_returned {ops : List SetupOp} {dev : NvmeDev} {ret : Int} (h_ops : heldBy ops = -1) :
      (∀ ret', (State.mk dev (.returned ret)).phase = .returned ret' → heldBy ops = -1) ∧
      (∀ n, (State.mk dev (.returned ret)).phase = .retry n → heldBy ops = 0) ∧
      (State.mk dev (.returned ret)).phase ≠ .idle :=
    ⟨fun _ _ => h_ops, fun _ h_phase => (by cases h_phase), fun h_phase => by cases h_phase⟩
  generalize h_t : setupAttemptOps plat env nrIoQueues dev = t
  unfold setupAttemptOps at h_t
  dsimp only at h_t
  split at h_t
  case isTrue =>
    subst h_t
    exact of_returned rfl
  split at h_t
  case isTrue =>
    subst h_t
    exact of_returned rfl
  generalize h_dev : NvmeDev.setAdminEnabled _ true = start at h_t
  have h_free : start.shutdownLock = false := by
    rw [← h_dev]
    rfl
  generalize h_created : nvmeBlexCreateIoQueuesOps env.queueLock start = created at h_t
  cases h_ok : created.2 with
  | error fault =>
      rw [h_ok] at h_t
      subst h_t
      exact ⟨fun _ h_phase => (by cases h_phase), fun _ h_phase => (by cases h_phase),
        fun h_phase => by cases h_phase⟩
  | ok r =>
      have h_neutral : LockNeutral created.1 r.2 := by
        rw [← h_created] at h_ok ⊢
        exact createIoQueuesOps_neutral h_free h_ok
      have h_given : heldBy (.unlock :: created.1) = -1 := by
        rw [heldBy_unlock, h_neutral.heldBy]
        rfl
      rw [h_ok] at h_t
      dsimp only at h_t
      split at h_t
      case isTrue =>
        subst h_t
        exact of_returned h_given
      split at h_t
      case isTrue =>
        rcases trylockOps_cases env.mutexFree env.lockFree r.2 with
          ⟨h_ops, h_none, -⟩ | ⟨h_taken, -, -⟩
        · rw [h_none] at h_t
          subst h_t
          apply of_returned
          rw [heldBy_append, h_given, h_ops.heldBy]
          rfl
        · -- back to `retry`, with the lock
          rw [h_taken] at h_t
          subst h_t
          refine ⟨fun _ h_phase => (by cases h_phase), fun _ _ => ?_, fun h_phase => by cases h_phase⟩
          rw [heldBy_append, h_given]
          rfl
      case isFalse =>
        split at h_t
        · subst h_t
          exact of_returned h_given
        · subst h_t
          exact of_returned h_given

/-- From `retry` to a return the lock is released once more than it is taken. -/
theorem setupRetries_balance (plat : Platform) (envs : List AttemptLockEnv) {dev : NvmeDev}
    {nrIoQueues : Nat} {ret : Int}
    (h : (setupRetries plat envs ⟨dev, .retry nrIoQueues⟩).2.phase = .returned ret) :
    heldBy (setupRetries plat envs ⟨dev, .retry nrIoQueues⟩).1 = -1 := by
  induction envs generalizing dev nrIoQueues with
  | nil => cases h
  | cons env envs ih =>
      obtain ⟨h_returned, h_retry, h_idle⟩ := setupAttemptOps_balance plat env nrIoQueues dev
      simp only [setupRetries] at h ⊢
      rw [heldBy_append]
      cases h_phase : (setupAttemptOps plat env nrIoQueues dev).2 with
      | mk dev' phase =>
          rw [h_phase] at h h_returned h_retry h_idle
          cases phase with
          | idle => exact absurd rfl h_idle
          | retry n =>
              rw [h_retry n rfl, ih h]
              rfl
          | returned ret' =>
              rw [h_returned ret' rfl]
              cases envs <;> rfl
          | faulted fault => cases envs <;> cases h

/-- The setup returns with the lock released as often as it was taken, except where the array of
the queues cannot be enlarged. -/
theorem setupRun_balanced_iff (plat : Platform) (env : ResetLockEnv) (envs : List AttemptLockEnv)
    (dev : NvmeDev) {ret : Int} (h_ret : (setupRun plat env envs dev).2.phase = .returned ret) :
    (setupRun plat env envs dev).1.count .lock = (setupRun plat env envs dev).1.count .unlock ↔
      ¬ GrowthFails env.toResetEnv dev := by
  rw [← heldBy_eq_zero_iff]
  simp only [setupRun] at h_ret ⊢
  rw [heldBy_append]
  rcases setupIoQueuesOps_cases env dev with
    ⟨h_not, h_ops, dev', ret', h_s⟩ | ⟨h_not, h_ops, dev', n, h_s⟩ | ⟨h_fails, h_ops, dev', h_s, -⟩
  · -- returned before `retry`
    have h_rest : (setupRetries plat envs ⟨dev', .returned ret'⟩).1 = [] := by
      cases envs <;> rfl
    rw [h_s, h_ops, h_rest]
    exact iff_of_true rfl h_not
  · rw [h_s] at h_ret ⊢
    rw [h_ops, setupRetries_balance plat envs h_ret]
    exact iff_of_true rfl h_not
  · have h_rest : (setupRetries plat envs ⟨dev', .returned enomem⟩).1 = [] := by
      cases envs <;> rfl
    rw [h_s, h_ops, h_rest]
    exact iff_of_false (by decide) (not_not.mpr h_fails)

/-- The device when `nvme_setup_io_queues` is called for the first time: three queues have room,
and the admin queue is online. -/
def adminOnline : NvmeDev :=
  { NvmeDev.probed 3 with queueCount := 1, onlineQueues := 1 }.setQueue 0
    ⟨true, .allocated, true, false, none⟩

/-- The first pass creates three of the four queues, the second is left with three. -/
def retryingSetup : List SetupOp × State :=
  setupRun twoCpus ⟨resetGranting 4, true⟩
    [⟨attemptVecs 3 fun qid => if qid = 4 then { queueOk with createSq := 2 } else queueOk, true,
      fun _ => true⟩, ⟨attemptVecs 3 fun _ => queueOk, true, fun _ => true⟩] adminOnline

theorem retryingSetup_balanced :
    retryingSetup.2.phase = .returned 0 ∧ ¬ GrowthFails (resetGranting 4) adminOnline ∧
      retryingSetup.1.count .lock = retryingSetup.1.count .unlock := by
  have h_fits : ¬ GrowthFails (resetGranting 4) adminOnline := fun h => by cases h.noMemory
  have h_returned : retryingSetup.2.phase = .returned 0 := by decide
  exact ⟨h_returned, h_fits, (setupRun_balanced_iff _ _ _ _ h_returned).mpr h_fits⟩

/-- Four queues are granted, and there is no memory for their array. -/
theorem failedGrowth_keepsLock :
    ∃ s, setupRun twoCpus ⟨{ resetGranting 4 with arrayAlloc := false }, true⟩ [] adminOnline =
        ([.lock], s) ∧
      s.phase = .returned enomem ∧ s.dev.shutdownLock = true ∧
      ([.lock] : List SetupOp).count .lock ≠ ([.lock] : List SetupOp).count .unlock :=
  ⟨_, rfl, rfl, rfl, by decide⟩

end Daredevil.Nvme
