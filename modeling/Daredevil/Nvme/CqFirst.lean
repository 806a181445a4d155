/-
  Daredevil.Nvme.CqFirst

  The admin commands of `nvme_blex_create_io_queues`.

  A queue with a CQ of its own submits Create I/O Completion Queue before Create I/O
  Submission Queue.  Any other queue submits only the latter, and names the CQ of an
  earlier queue.  On the way back `release_sq` and `release_cq` delete what was created.

  `nvmeBlexCreateQueueTrace` is `nvmeBlexCreateQueue` with its commands, and
  `createdCqs` is what they make of the controller's completion queues.  A command that
  deletes is submitted only before the loop stops, and the loop goes from the first id
  on, so every Create SQ finds its CQ:

    * `createQueueTrace_onCqs` — the step: one queue, if the CQs up to it exist;
    * `createLoopTrace_onCqs`  — the loop;
    * `createIoQueues_cqFirst` — a run, with the queues that it enables.
-/
import Daredevil.Nvme.Vectors

namespace Daredevil.Nvme

/-! ## Commands -/

/-- An argument of type `u16`. -/
def u16 (n : Nat) : Nat := n % 65536

/-- The commands that create and delete I/O queues.  A result of `0` is success; the results of
the deletions are not read. -/
inductive AdminCmd where
  /-- `adapter_alloc_cq` -/
  | createCq (cqid vector : Nat) (result : Int)
  /-- `adapter_alloc_sq` -/
  | createSq (sqid cqid : Nat) (result : Int)
  /-- `adapter_delete_sq` -/
  | deleteSq (sqid : Nat)
  /-- `adapter_delete_cq` -/
  | deleteCq (cqid : Nat)
  deriving DecidableEq, Repr

/-- The interrupt vector that `nvme_blex_create_queue` computes. -/
def createQueueVector (dev : NvmeDev) (qid : Nat) : Nat :=
  if blexNvmeqHasCq dev qid then
    if dev.numVecs = 1 then 0 else u16 (blkBlexCqidToIndex qid dev.maxQid dev.nrCqs)
  else
    0

/-- `nvme_blex_create_queue`, with the commands that it submits. -/
def nvmeBlexCreateQueueTrace (env : QueueEnv) (dev : NvmeDev) (qid : Nat) :
    List AdminCmd × Except Fault (Int × NvmeDev) :=
  if !(dev.queues qid).hasDev then ([], .error (.nullDev qid))
  else
    let hasCq := blexNvmeqHasCq dev qid
    let allocCq :=
      if hasCq then [AdminCmd.createCq (u16 qid) (createQueueVector dev qid) env.createCq] else []
    if hasCq && env.createCq != 0 then (allocCq, .ok (env.createCq, dev))
    else
      let allocSq := allocCq ++ [.createSq (u16 qid) (u16 (assocCqid dev qid)) env.createSq]
      let releaseCq := if hasCq then [AdminCmd.deleteCq (u16 qid)] else []
      if env.createSq < 0 then (allocSq, .ok (env.createSq, dev))
      else if env.createSq ≠ 0 then (allocSq ++ releaseCq, .ok (env.createSq, dev))
      else
        let dev := { dev with sqCqid := Function.update dev.sqCqid qid (assocCqid dev qid) }
        match nvmeSetupIoQueuesTrylock env.lockFree dev with
        | none => (allocSq, .ok (enodev, dev))
        | some dev =>
            match nvmeInitQueue dev qid with
            | .error fault => (allocSq, .error fault)
            | .ok dev =>
                if hasCq && decide (env.requestIrq < 0) then
                  -- `release_sq`, and `release_cq` after it
                  (allocSq ++ .deleteSq (u16 qid) :: releaseCq, .ok (env.requestIrq,
                    { dev with onlineQueues := dev.onlineQueues - 1, shutdownLock := false }))
                else
                  (allocSq, .ok (if hasCq then env.requestIrq else 0,
                    { dev.setQueue qid { dev.queues qid with enabled := true } with
                      shutdownLock := false }))

/-- The creation loop, with its commands. -/
def createLoopTrace (env : Nat → QueueEnv) :
    Nat → Nat → Int → NvmeDev → List AdminCmd × Except Fault (Int × NvmeDev)
  | 0, _, ret, dev => ([], .ok (ret, dev))
  | n + 1, qid, _, dev =>
      let t := nvmeBlexCreateQueueTrace (env qid) dev qid
      match t.2 with
      | .error fault => (t.1, .error fault)
      | .ok (ret, dev) =>
          if ret ≠ 0 then (t.1, .ok (ret, dev))
          else
            let rest := createLoopTrace env n (qid + 1) ret dev
            (t.1 ++ rest.1, rest.2)

/-- `nvme_blex_create_io_queues`, with its commands. -/
def nvmeBlexCreateIoQueuesTrace (env : Nat → QueueEnv) (dev : NvmeDev) :
    List AdminCmd × Except Fault (Int × NvmeDev) :=
  let a := allocLoop env (dev.maxQid + 1 - dev.queueCount) dev.queueCount dev
  let max := min a.2.maxQid (a.2.queueCount - 1)
  if a.2.ioQueuesPoll ≠ 0 then ([], .ok (-1, a.2))
  else
    let t := createLoopTrace env (max + 1 - a.2.onlineQueues) a.2.onlineQueues
      (if a.1 then 0 else enomem) a.2
    match t.2 with
    | .error fault => (t.1, .error fault)
    | .ok (ret, dev) => (t.1, .ok (if 0 ≤ ret then 0 else ret, dev))

/-! ## The commands do not change the run -/

theorem createQueueTrace_result (env : QueueEnv) (dev : NvmeDev) (qid : Nat) :
    (nvmeBlexCreateQueueTrace env dev qid).2 = nvmeBlexCreateQueue env dev qid := by
  simp only [nvmeBlexCreateQueueTrace, nvmeBlexCreateQueue]
  split
  · rfl
  split
  · rfl
  split
  · rfl
  split
  · rfl
  cases nvmeSetupIoQueuesTrylock env.lockFree
      { dev with sqCqid := Function.update dev.sqCqid qid (assocCqid dev qid) } with
  | none => rfl
  | some locked =>
      dsimp only
      cases nvmeInitQueue locked qid with
      | error fault => rfl
      | ok online =>
          dsimp only
          split
          · rfl
          · rfl

theorem createLoopTrace_result (env : Nat → QueueEnv) (n qid : Nat) (ret : Int) (dev : NvmeDev) :
    (createLoopTrace env n qid ret dev).2 = createLoop env n qid ret dev := by
  induction n generalizing qid ret dev with
  | zero => rfl
  | succ n ih =>
      simp only [createLoopTrace, createLoop, createQueueTrace_result]
      cases h_create : nvmeBlexCreateQueue (env qid) dev qid with
      | error fault => rfl
      | ok r =>
          dsimp only
          split
          · rfl
          · exact ih (qid + 1) r.1 r.2

theorem createIoQueuesTrace_result (env : Nat → QueueEnv) (dev : NvmeDev) :
    (nvmeBlexCreateIoQueuesTrace env dev).2 = nvmeBlexCreateIoQueues env dev := by
  simp only [nvmeBlexCreateIoQueuesTrace, nvmeBlexCreateIoQueues, createLoopTrace_result]
  split
  · rfl
  · cases createLoop env _ _ _ _ with
    | error fault => rfl
    | ok r => rfl

/-! ## The completion queues of the controller -/

/-- What a command makes of the existing CQs. -/
def AdminCmd.apply (cqs : Finset Nat) : AdminCmd → Finset Nat
  | .createCq cqid _ result => if result = 0 then insert cqid cqs else cqs
  | .createSq _ _ _ => cqs
  | .deleteSq _ => cqs
  | .deleteCq cqid => cqs.erase cqid

def createdCqs (cqs : Finset Nat) (cmds : List AdminCmd) : Finset Nat :=
  cmds.foldl AdminCmd.apply cqs

/-- The command names a CQ that exists. -/
def AdminCmd.OnCq (cqs : Finset Nat) : AdminCmd → Prop
  | .createSq _ cqid _ => cqid ∈ cqs
  | _ => True

/-- Every Create SQ names a CQ that exists then. -/
def OnCqs (cqs : Finset Nat) : List AdminCmd → Prop
  | [] => True
  | cmd :: cmds => cmd.OnCq cqs ∧ OnCqs (cmd.apply cqs) cmds

variable {cqs : Finset Nat} {cmds : List AdminCmd}

theorem onCqs_append {cmds' : List AdminCmd} :
    OnCqs cqs (cmds ++ cmds') ↔ OnCqs cqs cmds ∧ OnCqs (createdCqs cqs cmds) cmds' := by
  induction cmds generalizing cqs with
  | nil => exact ⟨fun h => ⟨trivial, h⟩, And.right⟩
  | cons cmd cmds ih =>
      rw [List.cons_append, OnCqs, OnCqs, ih, and_assoc]
      rfl

/-- A CQ that exists was created, and not deleted since. -/
theorem mem_createdCqs {cqid : Nat} (h : cqid ∈ createdCqs ∅ cmds) :
    ∃ before vector between, cmds = before ++ .createCq cqid vector 0 :: between ∧
      AdminCmd.deleteCq cqid ∉ between := by
  -- from the last command back
  induction cmds using List.reverseRecOn with
  | nil => exact absurd h (Finset.notMem_empty cqid)
  | append_singleton cmds cmd ih =>
      rw [createdCqs, List.foldl_append] at h
      have of_kept (h_mem : cqid ∈ createdCqs ∅ cmds) (h_ne : cmd ≠ .deleteCq cqid) :
          ∃ before vector between, cmds ++ [cmd] = before ++ .createCq cqid vector 0 :: between ∧
            AdminCmd.deleteCq cqid ∉ between := by
        obtain ⟨before, vector, between, rfl, h_between⟩ := ih h_mem
        refine ⟨before, vector, between ++ [cmd], by simp, ?_⟩
        rw [List.mem_append, List.mem_singleton, not_or]
        exact ⟨h_between, Ne.symm h_ne⟩
      cases cmd with
      | createCq id vector result =>
          have h : cqid ∈ if result = 0 then insert id (createdCqs ∅ cmds) else createdCqs ∅ cmds := h
          split at h
          case isTrue h_ok =>
            rcases Finset.mem_insert.mp h with rfl | h_mem
            · exact ⟨cmds, vector, [], by rw [h_ok], List.not_mem_nil⟩
            · exact of_kept h_mem (by simp)
          case isFalse => exact of_kept h (by simp)
      | createSq sqid id result => exact of_kept h (by simp)
      | deleteSq sqid => exact of_kept h (by simp)
      | deleteCq id =>
          obtain ⟨h_ne, h_mem⟩ := Finset.mem_erase.mp h
          exact of_kept h_mem (by simpa using Ne.symm h_ne)

/-! ## One queue -/

variable {dev dev' : NvmeDev} {qid : Nat}

/-- The commands of a queue until something fails. -/
def createCmds (env : QueueEnv) (dev : NvmeDev) (qid : Nat) : List AdminCmd :=
  (if blexNvmeqHasCq dev qid then
    [.createCq (u16 qid) (createQueueVector dev qid) env.createCq]
  else
    []) ++ [.createSq (u16 qid) (u16 (assocCqid dev qid)) env.createSq]

/-- `adapter_delete_sq` and `adapter_delete_cq` -/
def AdminCmd.Deletes : AdminCmd → Prop
  | .deleteSq _ => True
  | .deleteCq _ => True
  | _ => False

/-- Which commands a queue submits: Create SQ only after its own Create CQ has succeeded, and
deletions only where the queue is not created. -/
theorem createQueueTrace_cases (env : QueueEnv) (dev : NvmeDev) (qid : Nat) :
    ((nvmeBlexCreateQueueTrace env dev qid).1 = [] ∧
      (nvmeBlexCreateQueueTrace env dev qid).2 = .error (.nullDev qid)) ∨
    (∃ vector ret, ret ≠ 0 ∧
      (nvmeBlexCreateQueueTrace env dev qid).1 = [.createCq (u16 qid) vector ret] ∧
      (nvmeBlexCreateQueueTrace env dev qid).2 = .ok (ret, dev)) ∨
    (blexNvmeqHasCq dev qid = true → env.createCq = 0) ∧
      ∃ tail, (nvmeBlexCreateQueueTrace env dev qid).1 = createCmds env dev qid ++ tail ∧
        (∀ cmd ∈ tail, cmd.Deletes) ∧
        ∀ dev', (nvmeBlexCreateQueueTrace env dev qid).2 = .ok (0, dev') → tail = [] := by
  have h_releaseCq : ∀ cmd ∈ (if blexNvmeqHasCq dev qid then [AdminCmd.deleteCq (u16 qid)] else []),
      cmd.Deletes := by
    intro cmd h_cmd
    split at h_cmd
    · rw [List.mem_singleton.mp h_cmd]
      trivial
    · cases h_cmd
  have h_nil : ∀ cmd ∈ ([] : List AdminCmd), cmd.Deletes := fun cmd h_cmd => by cases h_cmd
  generalize h_t : nvmeBlexCreateQueueTrace env dev qid = t
  unfold nvmeBlexCreateQueueTrace at h_t
  dsimp only at h_t
  split at h_t
  case isTrue =>
    -- `nvmeq->dev` is NULL
    subst h_t
    exact .inl ⟨rfl, rfl⟩
  refine .inr ?_
  split at h_t
  case isTrue h_failed =>
    -- Create CQ fails
    rw [Bool.and_eq_true, bne_iff_ne] at h_failed
    rw [if_pos h_failed.1] at h_t
    subst h_t
    exact .inl ⟨_, _, h_failed.2, rfl, rfl⟩
  case isFalse h_ok =>
    have h_created : blexNvmeqHasCq dev qid = true → env.createCq = 0 := by
      intro h_cq
      rw [h_cq, Bool.true_and, bne_iff_ne, not_not] at h_ok
      exact h_ok
    refine .inr ⟨h_created, ?_⟩
    split at h_t
    case isTrue =>
      -- a host error of Create SQ: the CQ is not released
      subst h_t
      exact ⟨[], (List.append_nil _).symm, h_nil, fun _ _ => rfl⟩
    split at h_t
    case isTrue h_sq =>
      -- a status of the controller: `release_cq`
      subst h_t
      refine ⟨_, rfl, h_releaseCq, fun dev' h_eq => ?_⟩
      rw [Except.ok.injEq, Prod.mk.injEq] at h_eq
      exact absurd h_eq.1 h_sq
    split at h_t
    case h_1 =>
      -- the lock is not free
      subst h_t
      exact ⟨[], (List.append_nil _).symm, h_nil, fun _ _ => rfl⟩
    case h_2 locked _ =>
      split at h_t
      case h_1 =>
        subst h_t
        exact ⟨[], (List.append_nil _).symm, h_nil, fun _ _ => rfl⟩
      case h_2 online _ =>
        split at h_t
        case isTrue h_irq =>
          -- `release_sq` falls through to `release_cq`
          subst h_t
          rw [Bool.and_eq_true, decide_eq_true_eq] at h_irq
          refine ⟨_, rfl, ?_, fun dev' h_eq => ?_⟩
          · intro cmd h_cmd
            rcases List.mem_cons.mp h_cmd with rfl | h_cmd
            · trivial
            · exact h_releaseCq cmd h_cmd
          · rw [Except.ok.injEq, Prod.mk.injEq] at h_eq
            exact absurd h_eq.1 (Int.ne_of_lt h_irq.2)
        case isFalse =>
          subst h_t
          exact ⟨[], (List.append_nil _).symm, h_nil, fun _ _ => rfl⟩

/-- Deletions name no CQ of an SQ. -/
theorem onCqs_of_deletes (h : ∀ cmd ∈ cmds, cmd.Deletes) : OnCqs cqs cmds := by
  induction cmds generalizing cqs with
  | nil => trivial
  | cons cmd cmds ih =>
      refine ⟨?_, ih fun c h_c => h c (List.mem_cons_of_mem cmd h_c)⟩
      have h_cmd := h cmd List.mem_cons_self
      cases cmd with
      | createSq sqid cqid result => exact absurd h_cmd id
      | createCq cqid vector result => trivial
      | deleteSq sqid => trivial
      | deleteCq cqid => trivial

/-- A queue's own CQ exists before its SQ, and an earlier one where it has none. -/
theorem createCmds_onCqs {env : QueueEnv} (h_own : blexNvmeqHasCq dev qid = true → env.createCq = 0)
    (h_other : blexNvmeqHasCq dev qid = false → u16 (assocCqid dev qid) ∈ cqs) :
    OnCqs cqs (createCmds env dev qid) ∧
      createdCqs cqs (createCmds env dev qid) =
        if blexNvmeqHasCq dev qid then insert (u16 qid) cqs else cqs := by
  cases h_cq : blexNvmeqHasCq dev qid with
  | false =>
      simp only [createCmds, h_cq, Bool.false_eq_true, if_false, List.nil_append]
      exact ⟨⟨h_other h_cq, trivial⟩, rfl⟩
  | true =>
      have h_assoc : assocCqid dev qid = qid := by rw [assocCqid, if_pos h_cq]
      simp only [createCmds, h_cq, if_true, h_own h_cq, h_assoc, List.singleton_append]
      refine ⟨⟨trivial, ?_, trivial⟩, rfl⟩
      exact Finset.mem_insert_self (u16 qid) cqs

theorem createQueueTrace_onCqs (env : QueueEnv)
    (h_other : blexNvmeqHasCq dev qid = false → u16 (assocCqid dev qid) ∈ cqs) :
    OnCqs cqs (nvmeBlexCreateQueueTrace env dev qid).1 ∧
      ∀ dev', (nvmeBlexCreateQueueTrace env dev qid).2 = .ok (0, dev') →
        createdCqs cqs (nvmeBlexCreateQueueTrace env dev qid).1 =
          if blexNvmeqHasCq dev qid then insert (u16 qid) cqs else cqs := by
  rcases createQueueTrace_cases env dev qid with
    ⟨h_cmds, h_ret⟩ | ⟨vector, ret, h_ne, h_cmds, h_ret⟩ | ⟨h_own, tail, h_cmds, h_tail, h_last⟩
  · rw [h_cmds, h_ret]
    exact ⟨trivial, fun dev' h_eq => by cases h_eq⟩
  · rw [h_cmds, h_ret]
    refine ⟨⟨trivial, trivial⟩, fun dev' h_eq => ?_⟩
    rw [Except.ok.injEq, Prod.mk.injEq] at h_eq
    exact absurd h_eq.1 h_ne
  · obtain ⟨h_on, h_created⟩ := createCmds_onCqs h_own h_other
    rw [h_cmds, onCqs_append]
    refine ⟨⟨h_on, onCqs_of_deletes h_tail⟩, fun dev' h_eq => ?_⟩
    rw [h_last dev' h_eq, List.append_nil]
    exact h_created

/-! ## The loop -/

/-- The CQs of the ids below `qid` exist. -/
def CqsBelow (dev : NvmeDev) (qid : Nat) (cqs : Finset Nat) : Prop :=
  ∀ cqid, 1 ≤ cqid → cqid < qid → blexNvmeqHasCq dev cqid = true → u16 cqid ∈ cqs

/-- The CQ of a queue without one of its own is that of an earlier id. -/
theorem CqsBelow.assocCqid (h : CqsBelow dev qid cqs) (h_pos : 1 ≤ dev.nrCqs)
    (h_le : dev.nrCqs ≤ dev.maxQid) (h_qid : 1 ≤ qid) (h_cq : blexNvmeqHasCq dev qid = false) :
    u16 (assocCqid dev qid) ∈ cqs := by
  rw [assocCqid_eq h_qid]
  rw [blexNvmeqHasCq_eq h_qid, blkBlexHasCq, beq_eq_false_iff_ne] at h_cq
  have h_first : 1 ≤ blkBlexGetCqid qid dev.maxQid dev.nrCqs := blkBlexGetCqid_pos h_qid
  have h_before := blkBlexGetCqid_le h_pos h_le h_qid
  apply h _ h_first
  · exact Nat.lt_of_le_of_ne h_before (Ne.symm h_cq)
  · rw [blexNvmeqHasCq_eq h_first, blkBlexHasCq]
    exact beq_iff_eq.mpr (blkBlexGetCqid_idem h_pos h_le h_qid).symm

theorem CqsBelow.next (h : CqsBelow dev qid cqs) (h_info : dev'.info = dev.info) :
    CqsBelow dev' (qid + 1) (if blexNvmeqHasCq dev qid then insert (u16 qid) cqs else cqs) := by
  intro cqid h_one h_lt h_cq
  rw [blexNvmeqHasCq_congr h_info] at h_cq
  by_cases h_eq : cqid = qid
  · rw [← h_eq, h_cq, if_pos rfl]
    exact Finset.mem_insert_self (u16 cqid) cqs
  · have h_old := h cqid h_one (by omega) h_cq
    split
    · exact Finset.mem_insert_of_mem h_old
    · exact h_old

theorem createLoopTrace_onCqs (env : Nat → QueueEnv) {n : Nat} {ret : Int} (h_pos : 1 ≤ dev.nrCqs)
    (h_le : dev.nrCqs ≤ dev.maxQid) (h_qid : 1 ≤ qid) (h : CqsBelow dev qid cqs) :
    OnCqs cqs (createLoopTrace env n qid ret dev).1 := by
  induction n generalizing qid ret dev cqs with
  | zero => trivial
  | succ n ih =>
      obtain ⟨h_on, h_created⟩ := createQueueTrace_onCqs (env qid)
        (h.assocCqid h_pos h_le h_qid)
      simp only [createLoopTrace]
      cases h_ret : (nvmeBlexCreateQueueTrace (env qid) dev qid).2 with
      | error fault => exact h_on
      | ok r =>
          obtain ⟨ret₁, dev₁⟩ := r
          dsimp only
          split
          case isTrue => exact h_on
          case isFalse h_zero =>
            rw [not_not] at h_zero
            subst h_zero
            -- creating a queue changes nothing that the ids depend on
            have h_same : dev₁.info = dev.info := by
              rw [createQueueTrace_result] at h_ret
              rcases nvmeBlexCreateQueue_ok h_ret with ⟨-, _, _, rfl⟩ | rfl
              · rfl
              · rfl
            have h_info := h_same
            rw [NvmeDev.info, NvmeDev.info, BlkBlexDevInfo.mk.injEq] at h_info
            rw [onCqs_append, h_created dev₁ h_ret]
            exact ⟨h_on, ih (h_info.2 ▸ h_pos) (by rw [h_info.1, h_info.2]; exact h_le)
              (Nat.le_add_left 1 qid) (h.next h_same)⟩

/-! ## A run -/

/-- No I/O queue is online. -/
structure OnlyAdminOnline (dev : NvmeDev) : Prop where
  queueCount : 1 ≤ dev.queueCount
  onlineQueues : dev.onlineQueues = 1
  enabled : ∀ qid, 1 ≤ qid → (dev.queues qid).enabled = false

/-- Allocating queues leaves them as they are to the controller. -/
structure SameOnline (dev dev' : NvmeDev) : Prop where
  info : dev'.info = dev.info
  onlineQueues : dev'.onlineQueues = dev.onlineQueues
  enabled : ∀ qid, (dev'.queues qid).enabled = (dev.queues qid).enabled
  queueCount : dev.queueCount ≤ dev'.queueCount

theorem SameOnline.refl (dev : NvmeDev) : SameOnline dev dev := ⟨rfl, rfl, fun _ => rfl, le_rfl⟩

theorem SameOnline.trans {dev₁ dev₂ dev₃ : NvmeDev} (h : SameOnline dev₁ dev₂)
    (h' : SameOnline dev₂ dev₃) : SameOnline dev₁ dev₃ where
  info := h'.info.trans h.info
  onlineQueues := h'.onlineQueues.trans h.onlineQueues
  enabled qid := (h'.enabled qid).trans (h.enabled qid)
  queueCount := h.queueCount.trans h'.queueCount

theorem nvmeBlexAllocQueue_sameOnline (env : QueueEnv) (dev : NvmeDev) (qid : Nat) :
    SameOnline dev (nvmeBlexAllocQueue env dev qid).2 := by
  have of_setQueue {nvmeq : NvmeQueue} {count : Nat} (h_count : dev.queueCount ≤ count)
      (h : nvmeq.enabled = (dev.queues qid).enabled) :
      SameOnline dev { dev.setQueue qid nvmeq with queueCount := count } :=
    ⟨rfl, rfl, setQueue_congr NvmeQueue.enabled h, h_count⟩
  simp only [nvmeBlexAllocQueue]
  split
  · exact .refl dev
  split
  · exact of_setQueue le_rfl rfl
  split
  · refine of_setQueue le_rfl ?_
    split <;> rfl
  · refine of_setQueue (Nat.le_succ _) ?_
    split <;> rfl

theorem allocLoop_sameOnline (env : Nat → QueueEnv) (n qid : Nat) (dev : NvmeDev) :
    SameOnline dev (allocLoop env n qid dev).2 := by
  induction n generalizing qid dev with
  | zero => exact .refl dev
  | succ n ih =>
      have h_first := nvmeBlexAllocQueue_sameOnline (env qid) dev qid
      rw [allocLoop]
      split
      · exact h_first.trans (ih (qid + 1) _)
      · exact h_first

theorem OnlyAdminOnline.of_same (h : OnlyAdminOnline dev) (h_same : SameOnline dev dev') :
    OnlyAdminOnline dev' where
  queueCount := h.queueCount.trans h_same.queueCount
  onlineQueues := h_same.onlineQueues.trans h.onlineQueues
  enabled qid h_qid := (h_same.enabled qid).trans (h.enabled qid h_qid)

theorem OnlyAdminOnline.onlineInv (h : OnlyAdminOnline dev) : OnlineInv dev where
  le := h.onlineQueues ▸ h.queueCount
  enabled_iff qid h_qid := by
    rw [h.enabled qid h_qid, h.onlineQueues]
    exact iff_of_false Bool.false_ne_true (by omega)

/-- Every SQ of a run is created on a CQ that exists, and the queues that the run enables are
a prefix of the ids. -/
theorem createIoQueues_cqFirst (env : Nat → QueueEnv) {dev : NvmeDev} (h_pos : 1 ≤ dev.nrCqs)
    (h_le : dev.nrCqs ≤ dev.maxQid) (h : OnlyAdminOnline dev) :
    (∀ earlier sqid cqid result later,
      (nvmeBlexCreateIoQueuesTrace env dev).1 = earlier ++ .createSq sqid cqid result :: later →
      ∃ before vector between, earlier = before ++ .createCq cqid vector 0 :: between ∧
        AdminCmd.deleteCq cqid ∉ between) ∧
    ∀ ret dev', (nvmeBlexCreateIoQueuesTrace env dev).2 = .ok (ret, dev') →
      ∃ m ≤ dev.maxQid, dev'.onlineQueues = m + 1 ∧
        ∀ qid, 1 ≤ qid → ((dev'.queues qid).enabled = true ↔ qid ≤ m) := by
  have h_same := allocLoop_sameOnline env (dev.maxQid + 1 - dev.queueCount) dev.queueCount dev
  have h_alloc := h.of_same h_same
  have h_info := h_same.info
  rw [NvmeDev.info, NvmeDev.info, BlkBlexDevInfo.mk.injEq] at h_info
  constructor
  · intro earlier sqid cqid result later h_cmds
    have h_on : OnCqs ∅ (nvmeBlexCreateIoQueuesTrace env dev).1 := by
      simp only [nvmeBlexCreateIoQueuesTrace]
      split
      · trivial
      · have h_loop (n : Nat) (ret : Int) := @createLoopTrace_onCqs ∅ _ 1 env n ret
          (h_info.2.symm ▸ h_pos) (by rw [h_info.1, h_info.2]; exact h_le) le_rfl
          (fun cqid h_one h_lt => absurd h_lt (by omega))
        rw [h_alloc.onlineQueues]
        split <;> exact h_loop _ _
    rw [h_cmds, onCqs_append] at h_on
    exact mem_createdCqs h_on.2.1
  · intro ret dev' h_run
    rw [createIoQueuesTrace_result] at h_run
    simp only [nvmeBlexCreateIoQueues] at h_run
    split at h_run
    case isTrue =>
      cases h_run
      refine ⟨0, Nat.zero_le _, h_alloc.onlineQueues, fun qid h_qid => ?_⟩
      rw [h_alloc.enabled qid h_qid]
      exact iff_of_false Bool.false_ne_true (by omega)
    case isFalse =>
      split at h_run
      case h_1 => cases h_run
      case h_2 ret₁ dev₁ h_loop =>
        cases h_run
        have h_count := h_alloc.queueCount
        have h_one := h_alloc.onlineQueues
        obtain ⟨h_built, h_max⟩ := createLoop_built h_alloc.onlineInv
          (.of_online_le_one (Nat.le_of_eq h_one)) (Nat.le_of_eq h_one.symm) (by omega) h_loop
        have h_more := h_built.le
        refine ⟨dev'.onlineQueues - 1, by omega, by omega, fun qid h_qid => ?_⟩
        rw [h_built.online.enabled_iff qid h_qid]
        omega

/-- Four ids on three CQs, before their queues are created. -/
def readyDev : NvmeDev where
  queues qid := if qid = 0 then ⟨true, .allocated, true, false, none⟩ else .zero
  nrAllocatedQueues := 5
  queueCount := 1
  onlineQueues := 1
  maxQid := 4
  nrCqs := 3
  numVecs := 4
  nrWriteQueues := 0
  nrPollQueues := 0
  ioQueuesPoll := 0
  sqCqid _ := 0
  shutdownLock := false
  tagset := false

theorem readyDev_onlyAdminOnline : OnlyAdminOnline readyDev where
  queueCount := by decide
  onlineQueues := rfl
  enabled qid h_qid := congrArg NvmeQueue.enabled (if_neg (Nat.ne_of_gt h_qid))

/-- The interrupt of the last queue is refused: its SQ and CQ are deleted again. -/
def lastIrqRefused (qid : Nat) : QueueEnv :=
  if qid = 4 then { queueOk with requestIrq := enomem } else queueOk

example : (nvmeBlexCreateIoQueuesTrace lastIrqRefused readyDev).1 =
    [.createCq 1 0 0, .createSq 1 1 0, .createSq 2 1 0, .createCq 3 1 0, .createSq 3 3 0,
      .createCq 4 2 0, .createSq 4 4 0, .deleteSq 4, .deleteCq 4] := by
  decide

theorem createIoQueues_cqFirst_ready :
    (∀ earlier sqid cqid result later,
      (nvmeBlexCreateIoQueuesTrace lastIrqRefused readyDev).1 =
        earlier ++ .createSq sqid cqid result :: later →
      ∃ before vector between, earlier = before ++ .createCq cqid vector 0 :: between ∧
        AdminCmd.deleteCq cqid ∉ between) ∧
    ∀ ret dev', (nvmeBlexCreateIoQueuesTrace lastIrqRefused readyDev).2 = .ok (ret, dev') →
      ∃ m ≤ 4, dev'.onlineQueues = m + 1 ∧
        ∀ qid, 1 ≤ qid → ((dev'.queues qid).enabled = true ↔ qid ≤ m) :=
  @createIoQueues_cqFirst lastIrqRefused readyDev (by decide) (by decide)
    readyDev_onlyAdminOnline

end Daredevil.Nvme
