/-
  Daredevil.Sched.Profile

  `blk_blex_tenant_ioc_profile`, which every bio of a task goes through: it creates
  the task's context for the device, follows the task to another CPU, applies a
  pending ioprio change, and watches the mix of synchronous and asynchronous bios.
  A T task whose bios turn synchronous is an outlier and is given a second hctx.

  `Counted reg ioc refs` says that the maps of the regulator count the task once on
  its CPU and hctx, besides `refs`.  Each part of the profile keeps it, except the
  scheduling of the outlier hctx, which moves the count and leaves the hctx.
-/
import Daredevil.Sched.Route

namespace Daredevil

namespace Sched

/-! ## The source functions -/

/-- `blk_blex_decide_dominance` -/
def blkBlexDecideDominance (candidate0 candidate1 type : Int) : Int :=
  if type = 0 then
    if candidate0 ≠ 0 ∧ candidate1 ≠ 0 then
      if candidate0 + (candidate1.tdiv 2).tdiv candidate1 ≥ 10 then 0
      else if candidate1 + (candidate0.tdiv 2).tdiv candidate0 ≥ 10 then 1
      else -1
    else if candidate0 ≠ 0 then 0
    else if candidate1 ≠ 0 then 1
    else -1
  else if candidate1 = 0 then 0
  else if candidate0 + (candidate1.tdiv 2).tdiv candidate1 ≥ 10 then 1
  else 0

/-- `blk_blex_map_task_ioc_ioprio` -/
def blkBlexMapTaskIocIoprio (env : Env) (ioc : TaskIoc) (parentIoprio : Nat) : Nat :=
  let blexIoprio := blkBlexIoprioSimpleMap env parentIoprio
  -- the dominance is stored in a `bool`
  let syncDom := blkBlexDecideDominance (Word32.signed ioc.nrAsyncReqs)
    (Word32.signed ioc.nrSyncReqs) 0 ≠ 0
  if syncDom ∧ blexIoprio = blkBlexTPrio then blkBlexOutlierPrio else blexIoprio

/-- `blk_blex_is_sync_req` -/
def blkBlexIsSyncReq (env : Env) (cmdFlags : Nat) : Bool :=
  cmdFlags &&& env.reqSync ≠ 0 ∧ cmdFlags &&& env.reqIdle = 0

/-- The dominance that `__blk_blex_update_task_ioc_stats` compares. -/
def syncDominance (ioc : TaskIoc) : Int :=
  blkBlexDecideDominance (Word32.signed ioc.nrSyncReqs) (Word32.signed ioc.nrAsyncReqs) 1

/-- One more bio in the counts. -/
def countBio (env : Env) (biOpf : Nat) (ioc : TaskIoc) : TaskIoc :=
  if blkBlexIsSyncReq env biOpf then
    { ioc with nrSyncReqs := Word32.wrap (ioc.nrSyncReqs + 1) }
  else
    { ioc with nrAsyncReqs := Word32.wrap (ioc.nrAsyncReqs + 1) }

/-- `__blk_blex_update_task_ioc_stats`, if I/O profiling is on -/
def blkBlexUpdateTaskIocStats (env : Env) (biOpf : Nat) (ioc : TaskIoc) : Bool × TaskIoc :=
  if env.ioProfileOn then
    (syncDominance (countBio env biOpf ioc) != syncDominance ioc, countBio env biOpf ioc)
  else
    (false, ioc)

/-- A bio of a task, and what its profile meets. -/
structure ProfileCall where
  /-- `raw_smp_processor_id()` -/
  cpu : Nat
  /-- `bio->bi_opf` -/
  biOpf : Nat
  /-- a new context can be allocated -/
  iocAlloc : Bool
  /-- and stored in `ioc->blk_blex_iocs` -/
  xaInsert : Bool

/-- The profile runs in the task itself. -/
def ProfileCall.caller (call : ProfileCall) : Caller := ⟨call.cpu, call.cpu, true, fun _ => false⟩

/-- A context as `blk_blex_alloc_and_init_task_ioc` hands it to the scheduler. -/
def newTaskIoc (env : Env) (prio : Nat) : TaskIoc where
  nrSyncReqs := 0
  nrAsyncReqs := 0
  lastWorkingCpu := 0
  hctx := none
  outlierHctx := none
  needUpdate := false
  blexIoprio := blkBlexIoprioSimpleMap env prio

/-- `blk_blex_alloc_and_init_task_ioc` -/
def blkBlexAllocAndInitTaskIoc (env : Env) (call : ProfileCall) (prio : Nat)
    (reg : NqRegulator) : Option (NqRegulator × Option TaskIoc) :=
  if call.iocAlloc then do
    let new := newTaskIoc env prio
    let (reg, ioc, hctx) ← blkBlexSchedHctx env call.caller reg new none none new.blexIoprio
      .taskInit
    match hctx with
    | none => some (reg, none)
    | some hctx => some (reg, some { ioc with hctx := some hctx })
  else
    some (reg, none)

/-- The context that the profile works on; `none` if it gives up. -/
def findOrInit (env : Env) (call : ProfileCall) (prio : Nat) (reg : NqRegulator)
    (found : Option TaskIoc) : Option (NqRegulator × Option TaskIoc) :=
  match found with
  | none => do
      let (reg, ioc) ← blkBlexAllocAndInitTaskIoc env call prio reg
      -- the context is freed, but the maps keep counting it
      if call.xaInsert then some (reg, ioc) else some (reg, none)
  | some ioc =>
      if ioc.hctx = none then do
        let (reg, ioc, hctx) ← blkBlexSchedHctx env call.caller reg ioc none none ioc.blexIoprio
          .taskInit
        some (reg, some { ioc with hctx := hctx, lastWorkingCpu := call.cpu })
      else
        some (reg, some ioc)

/-- The task may have been rescheduled to another CPU. -/
def followCpu (cpu : Nat) (reg : NqRegulator) (ioc : TaskIoc) : Option (NqRegulator × TaskIoc) :=
  if ioc.lastWorkingCpu ≠ cpu then do
    let hctx ← ioc.hctx
    let reg ← blkBlexClearMaps reg ioc.lastWorkingCpu (blkBlexHctxToNqid hctx)
    let reg ← blkBlexSetMaps reg cpu (blkBlexHctxToNqid hctx)
    some (reg, { ioc with lastWorkingCpu := cpu })
  else
    some (reg, ioc)

/-- The branch for `need_update`. -/
def applyNeedUpdate (env : Env) (call : ProfileCall) (prio : Nat) (reg : NqRegulator)
    (ioc : TaskIoc) : Option (NqRegulator × TaskIoc) :=
  if ioc.needUpdate then do
    let newIoprio := blkBlexMapTaskIocIoprio env ioc prio
    let (reg, ioc, newHctx) ← blkBlexSchedHctx env call.caller reg { ioc with needUpdate := false }
      none none newIoprio .taskUpdate
    -- the number of the new hctx is printed
    let newHctx ← newHctx
    some (reg, { ioc with blexIoprio := newIoprio, hctx := some newHctx })
  else
    some (reg, ioc)

/-- The outlier hctx for the new priority. -/
def settleOutlier (env : Env) (call : ProfileCall) (newIoprio : Nat) (reg : NqRegulator)
    (ioc : TaskIoc) : Option (NqRegulator × TaskIoc) :=
  if newIoprio = blkBlexOutlierPrio then
    if ioc.outlierHctx = none then do
      -- the update context moves the maps away from `ioc.hctx`, which stays as it is
      let (reg, ioc, newOutlier) ← blkBlexSchedHctx env call.caller reg ioc none none blkBlexLPrio
        .taskUpdate
      some (reg, { ioc with outlierHctx := newOutlier })
    else
      some (reg, ioc)
  else if ioc.blexIoprio = blkBlexOutlierPrio then
    some (reg, { ioc with outlierHctx := none })
  else
    some (reg, ioc)

/-- The branch for `profile_update`. -/
def applyProfileUpdate (env : Env) (call : ProfileCall) (prio : Nat) (profileUpdate : Bool)
    (reg : NqRegulator) (ioc : TaskIoc) : Option (NqRegulator × TaskIoc) :=
  if profileUpdate then do
    let newIoprio := blkBlexMapTaskIocIoprio env ioc prio
    let (reg, ioc) ← settleOutlier env call newIoprio reg ioc
    some (reg, { ioc with nrSyncReqs := 0, nrAsyncReqs := 0, blexIoprio := newIoprio })
  else
    some (reg, ioc)

/-- The profile of a bio once the task has a context. -/
def profileBio (env : Env) (call : ProfileCall) (prio : Nat) (reg : NqRegulator) (ioc : TaskIoc) :
    Option (NqRegulator × TaskIoc) := do
  let (profileUpdate, ioc) := blkBlexUpdateTaskIocStats env call.biOpf ioc
  let (reg, ioc) ← followCpu call.cpu reg ioc
  let (reg, ioc) ← applyNeedUpdate env call prio reg ioc
  applyProfileUpdate env call prio profileUpdate reg ioc

/-- `blk_blex_tenant_ioc_profile`: `found` is the entry of `ioc->blk_blex_iocs` before the
call, and the entry after it is returned.  `prio` is `ioc->ioprio`. -/
def blkBlexTenantIocProfile (env : Env) (call : ProfileCall) (prio : Nat) (reg : NqRegulator)
    (found : Option TaskIoc) : Option (NqRegulator × Option TaskIoc) := do
  let (reg, ioc) ← findOrInit env call prio reg found
  match ioc with
  | none => some (reg, none)
  | some ioc => (profileBio env call prio reg ioc).map fun r => (r.1, some r.2)

/-- `blk_blex_free_task_ioc` -/
def blkBlexFreeTaskIoc (reg : NqRegulator) (ioc : TaskIoc) : Option NqRegulator := do
  let hctx ← ioc.hctx
  blkBlexClearMaps reg ioc.lastWorkingCpu (blkBlexHctxToNqid hctx)

variable {L : QueueLayout} {env : Env} {call : ProfileCall} {prio : Nat}
  {reg reg' : NqRegulator} {ioc ioc' : TaskIoc} {refs : Multiset (Nat × Nat)}

/-! ## What each part of the profile does -/

/-- A new context is not allocated, or the task is scheduled and the context kept if an hctx was
found. -/
theorem allocAndInit_cases {new : Option TaskIoc}
    (h_init : blkBlexAllocAndInitTaskIoc env call prio reg = some (reg', new)) :
    call.iocAlloc = false ∧ reg' = reg ∧ new = none ∨
      call.iocAlloc = true ∧ ∃ ioc hctx,
        blkBlexSchedTaskInit env call.caller reg (newTaskIoc env prio) = some (reg', ioc, hctx) ∧
        new = hctx.map fun hctx => { ioc with hctx := some hctx } := by
  unfold blkBlexAllocAndInitTaskIoc at h_init
  split at h_init
  case isFalse h_alloc =>
    cases h_init
    exact .inl ⟨Bool.eq_false_of_not_eq_true h_alloc, rfl, rfl⟩
  case isTrue h_alloc =>
    simp only [Option.bind_eq_bind, Option.bind_eq_some_iff] at h_init
    obtain ⟨⟨reg₁, ioc, hctx⟩, h_sched, h_init⟩ := h_init
    refine .inr ⟨h_alloc, ioc, hctx, ?_⟩
    cases hctx with
    | none =>
        cases h_init
        exact ⟨h_sched, rfl⟩
    | some hctx =>
        cases h_init
        exact ⟨h_sched, rfl⟩

theorem findOrInit_none_cases {entry : Option TaskIoc}
    (h_find : findOrInit env call prio reg none = some (reg', entry)) :
    ∃ new, blkBlexAllocAndInitTaskIoc env call prio reg = some (reg', new) ∧
      entry = if call.xaInsert then new else none := by
  simp only [findOrInit, Option.bind_eq_bind, Option.bind_eq_some_iff] at h_find
  obtain ⟨⟨reg₁, new⟩, h_init, h_find⟩ := h_find
  split at h_find
  case isTrue h_insert =>
    cases h_find
    exact ⟨new, h_init, (if_pos h_insert).symm⟩
  case isFalse h_insert =>
    cases h_find
    exact ⟨new, h_init, (if_neg h_insert).symm⟩

/-- A context that is found is used as it is, unless it has no hctx. -/
theorem findOrInit_some_cases {entry : Option TaskIoc}
    (h_find : findOrInit env call prio reg (some ioc) = some (reg', entry)) :
    ioc.hctx ≠ none ∧ reg' = reg ∧ entry = some ioc ∨
      ioc.hctx = none ∧ ∃ ioc₁ hctx,
        blkBlexSchedTaskInit env call.caller reg ioc = some (reg', ioc₁, hctx) ∧
        entry = some { ioc₁ with hctx := hctx, lastWorkingCpu := call.cpu } := by
  unfold findOrInit at h_find
  dsimp only at h_find
  split at h_find
  case isTrue h_none =>
    simp only [Option.bind_eq_bind, Option.bind_eq_some_iff] at h_find
    obtain ⟨⟨reg₁, ioc₁, hctx⟩, h_sched, h_eq⟩ := h_find
    cases h_eq
    exact .inr ⟨h_none, ioc₁, hctx, h_sched, rfl⟩
  case isFalse h_some =>
    cases h_find
    exact .inl ⟨h_some, rfl, rfl⟩

/-- The context is on the CPU of the bio afterwards, and the maps with it. -/
theorem followCpu_cases {cpu : Nat} (h_follow : followCpu cpu reg ioc = some (reg', ioc')) :
    ioc' = { ioc with lastWorkingCpu := cpu } ∧
      (ioc.lastWorkingCpu = cpu ∧ reg' = reg ∨
        ioc.lastWorkingCpu ≠ cpu ∧ ∃ hctx reg₁, ioc.hctx = some hctx ∧
          blkBlexClearMaps reg ioc.lastWorkingCpu (blkBlexHctxToNqid hctx) = some reg₁ ∧
          blkBlexSetMaps reg₁ cpu (blkBlexHctxToNqid hctx) = some reg') := by
  unfold followCpu at h_follow
  split at h_follow
  case isTrue h_moved =>
    simp only [Option.bind_eq_bind, Option.bind_eq_some_iff] at h_follow
    obtain ⟨hctx, h_hctx, reg₁, h_clear, reg₂, h_set, h_eq⟩ := h_follow
    cases h_eq
    exact ⟨rfl, .inr ⟨h_moved, hctx, reg₁, h_hctx, h_clear, h_set⟩⟩
  case isFalse h_same =>
    cases h_follow
    exact ⟨by rw [← not_not.mp h_same], .inl ⟨not_not.mp h_same, rfl⟩⟩

/-- A pending update schedules the task for the priority that its counts map to. -/
theorem applyNeedUpdate_cases
    (h_apply : applyNeedUpdate env call prio reg ioc = some (reg', ioc')) :
    ioc.needUpdate = false ∧ reg' = reg ∧ ioc' = ioc ∨
      ioc.needUpdate = true ∧ ∃ ioc₁ newHctx,
        blkBlexSchedTaskUpdate env call.caller reg (blkBlexMapTaskIocIoprio env ioc prio)
          { ioc with needUpdate := false } = some (reg', ioc₁, some newHctx) ∧
        ioc' = { ioc₁ with
          blexIoprio := blkBlexMapTaskIocIoprio env ioc prio, hctx := some newHctx } := by
  unfold applyNeedUpdate at h_apply
  split at h_apply
  case isTrue h_need =>
    simp only [Option.bind_eq_bind, Option.bind_eq_some_iff] at h_apply
    obtain ⟨⟨reg₁, ioc₁, hctx⟩, h_sched, newHctx, h_new, h_eq⟩ := h_apply
    cases h_eq
    dsimp only at h_new
    subst h_new
    exact .inr ⟨h_need, ioc₁, newHctx, h_sched, rfl⟩
  case isFalse h_idle =>
    cases h_apply
    exact .inl ⟨Bool.eq_false_of_not_eq_true h_idle, rfl, rfl⟩

/-- A new outlier is scheduled a second hctx; what was an outlier loses it. -/
theorem settleOutlier_cases {newIoprio : Nat}
    (h_settle : settleOutlier env call newIoprio reg ioc = some (reg', ioc')) :
    (newIoprio = blkBlexOutlierPrio ∧ ioc.outlierHctx = none ∧ ∃ ioc₁ newOutlier,
        blkBlexSchedTaskUpdate env call.caller reg blkBlexLPrio ioc =
          some (reg', ioc₁, newOutlier) ∧
        ioc' = { ioc₁ with outlierHctx := newOutlier }) ∨
      reg' = reg ∧ (ioc' = ioc ∨ newIoprio ≠ blkBlexOutlierPrio ∧
        ioc.blexIoprio = blkBlexOutlierPrio ∧ ioc' = { ioc with outlierHctx := none }) := by
  unfold settleOutlier at h_settle
  split at h_settle
  case isTrue h_outlier =>
    split at h_settle
    case isTrue h_none =>
      simp only [Option.bind_eq_bind, Option.bind_eq_some_iff] at h_settle
      obtain ⟨⟨reg₁, ioc₁, newOutlier⟩, h_sched, h_eq⟩ := h_settle
      cases h_eq
      exact .inl ⟨h_outlier, h_none, ioc₁, newOutlier, h_sched, rfl⟩
    case isFalse =>
      cases h_settle
      exact .inr ⟨rfl, .inl rfl⟩
  case isFalse h_other =>
    split at h_settle
    case isTrue h_was =>
      cases h_settle
      exact .inr ⟨rfl, .inr ⟨h_other, h_was, rfl⟩⟩
    case isFalse =>
      cases h_settle
      exact .inr ⟨rfl, .inl rfl⟩

/-- A new dominance settles the outlier hctx and starts the counts again. -/
theorem applyProfileUpdate_cases {profileUpdate : Bool}
    (h_apply : applyProfileUpdate env call prio profileUpdate reg ioc = some (reg', ioc')) :
    profileUpdate = false ∧ reg' = reg ∧ ioc' = ioc ∨
      profileUpdate = true ∧ ∃ ioc₁,
        settleOutlier env call (blkBlexMapTaskIocIoprio env ioc prio) reg ioc =
          some (reg', ioc₁) ∧
        ioc' = { ioc₁ with
          nrSyncReqs := 0, nrAsyncReqs := 0,
          blexIoprio := blkBlexMapTaskIocIoprio env ioc prio } := by
  unfold applyProfileUpdate at h_apply
  split at h_apply
  case isTrue h_update =>
    simp only [Option.bind_eq_bind, Option.bind_eq_some_iff] at h_apply
    obtain ⟨⟨reg₁, ioc₁⟩, h_settle, h_eq⟩ := h_apply
    cases h_eq
    exact .inr ⟨h_update, ioc₁, h_settle, rfl⟩
  case isFalse h_steady =>
    cases h_apply
    exact .inl ⟨Bool.eq_false_of_not_eq_true h_steady, rfl, rfl⟩

/-! ## The count of one task -/

/-- The reference that a task holds: its CPU and the queue of its hctx. -/
def TaskIoc.ref (ioc : TaskIoc) : Option (Nat × Nat) :=
  ioc.hctx.map fun hctx => (ioc.lastWorkingCpu, blkBlexHctxToNqid hctx)

/-- The maps count the task, and otherwise `refs`. -/
structure Counted (L : QueueLayout) (reg : NqRegulator) (ioc : TaskIoc)
    (refs : Multiset (Nat × Nat)) : Prop where
  wf : RegWf L reg
  maps : ∃ p, ioc.ref = some p ∧ MapsInv reg (p ::ₘ refs)

theorem Counted.congr (h : Counted L reg ioc refs) (h_hctx : ioc'.hctx = ioc.hctx)
    (h_cpu : ioc'.lastWorkingCpu = ioc.lastWorkingCpu) : Counted L reg ioc' refs where
  wf := h.wf
  maps := by
    rw [TaskIoc.ref, h_hctx, h_cpu]
    exact h.maps

theorem Counted.hctx (h : Counted L reg ioc refs) : ∃ hctx, ioc.hctx = some hctx ∧
    MapsInv reg ((ioc.lastWorkingCpu, blkBlexHctxToNqid hctx) ::ₘ refs) := by
  obtain ⟨p, h_ref, h_maps⟩ := h.maps
  obtain ⟨hctx, h_hctx, rfl⟩ := Option.map_eq_some_iff.mp h_ref
  exact ⟨hctx, h_hctx, h_maps⟩

/-- A new context is counted where it was scheduled. -/
theorem allocAndInit_counted (h : RegWf L reg) (h_groups : 2 ≤ L.nrCqs)
    (h_opt : env.blexOptLevel = 2) (h_maps : MapsInv reg refs)
    (h_init : blkBlexAllocAndInitTaskIoc env call prio reg = some (reg', some ioc)) :
    Counted L reg' ioc refs ∧ ioc.nrSyncReqs = 0 ∧ ioc.nrAsyncReqs = 0 := by
  rcases allocAndInit_cases h_init with ⟨-, -, h_none⟩ | ⟨-, ioc₁, hctx, h_sched, h_new⟩
  · cases h_none
  · obtain ⟨nqid, h_queue, rfl, h_refs⟩ := taskInit_spec h h_groups h_opt h_sched
    have h_wf := taskInit_wf h h_groups h_sched
    rw [h_queue.hctx_eq] at h_new
    cases h_new
    refine ⟨⟨h_wf, (call.cpu, nqid), ?_, h_refs refs h_maps⟩, rfl, rfl⟩
    rw [TaskIoc.ref, Option.map_some, blkBlexHctxToNqid, Nat.sub_add_cancel h_queue.pos]
    rfl

/-- A context that could not be set up was never counted, if it was not allocated. -/
theorem allocAndInit_notCounted (h : RegWf L reg) (h_groups : 2 ≤ L.nrCqs)
    (h_opt : env.blexOptLevel = 2)
    (h_init : blkBlexAllocAndInitTaskIoc env call prio reg = some (reg', none)) :
    reg' = reg ∧ call.iocAlloc = false := by
  rcases allocAndInit_cases h_init with ⟨h_alloc, rfl, -⟩ | ⟨-, ioc₁, hctx, h_sched, h_new⟩
  · exact ⟨rfl, h_alloc⟩
  · obtain ⟨nqid, h_queue, -⟩ := taskInit_spec h h_groups h_opt h_sched
    rw [h_queue.hctx_eq] at h_new
    cases h_new

/-- Counting a bio leaves the hctxs and the CPU alone. -/
theorem updateTaskIocStats_kept (env : Env) (biOpf : Nat) (ioc : TaskIoc) :
    (blkBlexUpdateTaskIocStats env biOpf ioc).2.hctx = ioc.hctx ∧
      (blkBlexUpdateTaskIocStats env biOpf ioc).2.lastWorkingCpu = ioc.lastWorkingCpu ∧
      (blkBlexUpdateTaskIocStats env biOpf ioc).2.outlierHctx = ioc.outlierHctx := by
  unfold blkBlexUpdateTaskIocStats countBio
  split
  · split <;> exact ⟨rfl, rfl, rfl⟩
  · exact ⟨rfl, rfl, rfl⟩

/-- The count follows the task to its CPU. -/
theorem followCpu_counted (h : Counted L reg ioc refs) {cpu : Nat}
    (h_follow : followCpu cpu reg ioc = some (reg', ioc')) :
    Counted L reg' ioc' refs ∧ ioc' = { ioc with lastWorkingCpu := cpu } := by
  obtain ⟨rfl, ⟨rfl, rfl⟩ | ⟨-, hctx', reg₁, h_hctx', h_clear, h_set⟩⟩ := followCpu_cases h_follow
  · exact ⟨h, rfl⟩
  · obtain ⟨hctx, h_hctx, h_maps⟩ := h.hctx
    obtain rfl : hctx = hctx' := Option.some_inj.mp (h_hctx.symm.trans h_hctx')
    -- the reference on the old CPU goes and one on the new CPU comes
    obtain ⟨h₁, h_maps₁⟩ := h_maps.clearMaps h.wf h_clear
    rw [Multiset.erase_cons_head] at h_maps₁
    obtain ⟨h₂, h_maps₂⟩ := h_maps₁.setMaps h₁ h_set
    exact ⟨⟨h₂, _, by rw [TaskIoc.ref, h_hctx, Option.map_some], h_maps₂⟩, rfl⟩

/-- Updating a task in place moves its count to the queue it is given. -/
theorem taskUpdate_counted (h : Counted L reg ioc refs) (h_groups : 2 ≤ L.nrCqs)
    (h_opt : env.blexOptLevel = 2) (h_cpu : ioc.lastWorkingCpu = call.cpu) {ioprio : Nat}
    {hctx : Option Nat}
    (h_upd : blkBlexSchedTaskUpdate env call.caller reg ioprio ioc = some (reg', ioc', hctx)) :
    Counted L reg' { ioc' with hctx := hctx } refs ∧ ioc' = ioc := by
  obtain ⟨old, h_old, h_maps⟩ := h.hctx
  obtain ⟨nqid, h_queue, h_cases⟩ := taskUpdate_spec h.wf h_groups h_opt h_old h_upd
  have h_wf := taskUpdate_wf h.wf h_groups h_upd
  have h_nqid : blkBlexHctxToNqid (nqid - 1) = nqid := Nat.sub_add_cancel h_queue.pos
  rw [h_queue.hctx_eq]
  rcases h_cases with ⟨rfl, rfl, h_refs⟩ | ⟨rfl, h_refs⟩
  · exact ⟨⟨h_wf, _, rfl, h_refs _ h_maps⟩, rfl⟩
  · -- a new queue: its reference is taken first, so the old one is erased behind it
    have h_maps' := h_refs h_cpu _ h_maps
    rw [show call.caller.cpu = ioc.lastWorkingCpu from h_cpu.symm, Multiset.cons_swap] at h_maps'
    rw [show ((ioc.lastWorkingCpu, old + 1) : Nat × Nat) =
      (ioc.lastWorkingCpu, blkBlexHctxToNqid old) from rfl, Multiset.erase_cons_head] at h_maps'
    have h_same : { ioc with lastWorkingCpu := call.caller.cpu } = ioc := by
      rw [show call.caller.cpu = ioc.lastWorkingCpu from h_cpu.symm]
    rw [h_same]
    exact ⟨⟨h_wf, _, by rw [TaskIoc.ref, Option.map_some, h_nqid], h_maps'⟩, rfl⟩

theorem applyNeedUpdate_counted (h : Counted L reg ioc refs) (h_groups : 2 ≤ L.nrCqs)
    (h_opt : env.blexOptLevel = 2) (h_cpu : ioc.lastWorkingCpu = call.cpu)
    (h_apply : applyNeedUpdate env call prio reg ioc = some (reg', ioc')) :
    Counted L reg' ioc' refs ∧ ioc'.lastWorkingCpu = call.cpu ∧
      ioc'.nrSyncReqs = ioc.nrSyncReqs ∧ ioc'.nrAsyncReqs = ioc.nrAsyncReqs ∧
      ioc'.outlierHctx = ioc.outlierHctx := by
  rcases applyNeedUpdate_cases h_apply with ⟨-, rfl, rfl⟩ | ⟨-, ioc₁, newHctx, h_sched, rfl⟩
  · exact ⟨h, h_cpu, rfl, rfl, rfl⟩
  · have h_cleared : Counted L reg { ioc with needUpdate := false } refs := h.congr rfl rfl
    obtain ⟨h_counted, rfl⟩ := taskUpdate_counted h_cleared h_groups h_opt h_cpu h_sched
    exact ⟨h_counted.congr rfl rfl, h_cpu, rfl, rfl, rfl⟩

/-- The mapped priority depends on the counts only. -/
theorem mapTaskIocIoprio_congr (h_sync : ioc'.nrSyncReqs = ioc.nrSyncReqs)
    (h_async : ioc'.nrAsyncReqs = ioc.nrAsyncReqs) (prio : Nat) :
    blkBlexMapTaskIocIoprio env ioc' prio = blkBlexMapTaskIocIoprio env ioc prio := by
  unfold blkBlexMapTaskIocIoprio
  rw [h_sync, h_async]

/-- The profile update of a task that is not given an outlier hctx keeps the count. -/
theorem applyProfileUpdate_counted (h : Counted L reg ioc refs) {profileUpdate : Bool}
    (h_noOutlier : ¬ (profileUpdate = true ∧
      blkBlexMapTaskIocIoprio env ioc prio = blkBlexOutlierPrio ∧ ioc.outlierHctx = none))
    (h_apply : applyProfileUpdate env call prio profileUpdate reg ioc = some (reg', ioc')) :
    Counted L reg' ioc' refs := by
  rcases applyProfileUpdate_cases h_apply with ⟨-, rfl, rfl⟩ | ⟨h_update, ioc₁, h_settle, rfl⟩
  · exact h
  · rcases settleOutlier_cases h_settle with
      ⟨h_outlier, h_none, -⟩ | ⟨rfl, rfl | ⟨-, -, rfl⟩⟩
    · -- only here the scheduler is asked for a second hctx
      exact absurd ⟨h_update, h_outlier, h_none⟩ h_noOutlier
    · exact h.congr rfl rfl
    · exact h.congr rfl rfl

/-! ## A whole profile -/

/-- The bio turns the task into an outlier that has no outlier hctx yet. -/
def EntersOutlier (env : Env) (biOpf prio : Nat) (ioc : TaskIoc) : Prop :=
  (blkBlexUpdateTaskIocStats env biOpf ioc).1 = true ∧
    blkBlexMapTaskIocIoprio env (blkBlexUpdateTaskIocStats env biOpf ioc).2 prio =
      blkBlexOutlierPrio ∧
    ioc.outlierHctx = none

/-- The first bio of a context does not change the dominance. -/
theorem not_entersOutlier_first (biOpf prio : Nat) (h_sync : ioc.nrSyncReqs = 0)
    (h_async : ioc.nrAsyncReqs = 0) : ¬ EntersOutlier env biOpf prio ioc := by
  rintro ⟨h_changed, -⟩
  unfold blkBlexUpdateTaskIocStats at h_changed
  split at h_changed
  case isFalse => cases h_changed
  case isTrue =>
    unfold countBio at h_changed
    split at h_changed
    · simp only [syncDominance, h_sync, h_async] at h_changed
      exact absurd h_changed (by decide)
    · simp only [syncDominance, h_sync, h_async] at h_changed
      exact absurd h_changed (by decide)

theorem profileBio_counted (h : Counted L reg ioc refs) (h_groups : 2 ≤ L.nrCqs)
    (h_opt : env.blexOptLevel = 2) (h_noOutlier : ¬ EntersOutlier env call.biOpf prio ioc)
    (h_profile : profileBio env call prio reg ioc = some (reg', ioc')) :
    Counted L reg' ioc' refs := by
  simp only [profileBio, Option.bind_eq_bind, Option.bind_eq_some_iff] at h_profile
  obtain ⟨⟨reg₁, ioc₁⟩, h_follow, ⟨reg₂, ioc₂⟩, h_need, h_apply⟩ := h_profile
  -- each part works on the context that the part before it leaves
  obtain ⟨h_hctx, h_cpu, h_outlier⟩ := updateTaskIocStats_kept env call.biOpf ioc
  have h₀ := h.congr h_hctx h_cpu
  obtain ⟨h₁, rfl⟩ := followCpu_counted h₀ h_follow
  obtain ⟨h₂, -, h_sync, h_async, h_outlierHctx⟩ :=
    applyNeedUpdate_counted h₁ h_groups h_opt rfl h_need
  refine applyProfileUpdate_counted h₂ ?_ h_apply
  rintro ⟨h_changed, h_map, h_none⟩
  rw [mapTaskIocIoprio_congr h_sync h_async] at h_map
  rw [h_outlierHctx] at h_none
  exact h_noOutlier ⟨h_changed, h_map, h_outlier.symm.trans h_none⟩

/-- Profiling a bio of a task that has a context. -/
theorem tenantIocProfile_found (h : Counted L reg ioc refs) (h_groups : 2 ≤ L.nrCqs)
    (h_opt : env.blexOptLevel = 2) (h_noOutlier : ¬ EntersOutlier env call.biOpf prio ioc)
    {entry : Option TaskIoc}
    (h_profile : blkBlexTenantIocProfile env call prio reg (some ioc) = some (reg', entry)) :
    ∃ ioc', entry = some ioc' ∧ Counted L reg' ioc' refs := by
  obtain ⟨hctx, h_hctx, -⟩ := h.hctx
  have h_set : ¬ ioc.hctx = none := by
    rw [h_hctx]
    exact Option.some_ne_none hctx
  simp only [blkBlexTenantIocProfile, findOrInit, if_neg h_set, Option.bind_eq_bind,
    Option.bind_some] at h_profile
  obtain ⟨⟨reg₁, ioc₁⟩, h_bio, h_eq⟩ := Option.map_eq_some_iff.mp h_profile
  cases h_eq
  exact ⟨ioc₁, rfl, profileBio_counted h h_groups h_opt h_noOutlier h_bio⟩

/-- Profiling the first bio of a task: it is counted, or there was no context. -/
theorem tenantIocProfile_new (h : RegWf L reg) (h_groups : 2 ≤ L.nrCqs)
    (h_opt : env.blexOptLevel = 2) (h_maps : MapsInv reg refs)
    (h_insert : call.iocAlloc = true → call.xaInsert = true) {entry : Option TaskIoc}
    (h_profile : blkBlexTenantIocProfile env call prio reg none = some (reg', entry)) :
    (entry = none ∧ reg' = reg) ∨ ∃ ioc', entry = some ioc' ∧ Counted L reg' ioc' refs := by
  simp only [blkBlexTenantIocProfile, Option.bind_eq_bind, Option.bind_eq_some_iff] at h_profile
  obtain ⟨⟨reg₁, ioc?⟩, h_find, h_profile⟩ := h_profile
  obtain ⟨new, h_init, rfl⟩ := findOrInit_none_cases h_find
  cases new with
  | none =>
      obtain ⟨rfl, -⟩ := allocAndInit_notCounted h h_groups h_opt h_init
      rw [ite_self] at h_profile
      cases h_profile
      exact .inl ⟨rfl, rfl⟩
  | some new =>
      obtain ⟨h_new, h_sync, h_async⟩ := allocAndInit_counted h h_groups h_opt h_maps h_init
      have h_alloc : call.iocAlloc = true := by
        rcases allocAndInit_cases h_init with ⟨-, -, h_none⟩ | ⟨h_alloc, -⟩
        · cases h_none
        · exact h_alloc
      rw [if_pos (h_insert h_alloc)] at h_profile
      obtain ⟨⟨reg₂, ioc₂⟩, h_bio, h_eq⟩ := Option.map_eq_some_iff.mp h_profile
      cases h_eq
      exact .inr ⟨ioc₂, rfl, profileBio_counted h_new h_groups h_opt
        (not_entersOutlier_first _ _ h_sync h_async) h_bio⟩

/-- Freeing a context drops its count. -/
theorem freeTaskIoc_counted (h : Counted L reg ioc refs)
    (h_free : blkBlexFreeTaskIoc reg ioc = some reg') : RegWf L reg' ∧ MapsInv reg' refs := by
  obtain ⟨hctx, h_hctx, h_maps⟩ := h.hctx
  simp only [blkBlexFreeTaskIoc, h_hctx, Option.bind_eq_bind, Option.bind_some] at h_free
  have h_cleared := h_maps.clearMaps h.wf h_free
  rwa [Multiset.erase_cons_head] at h_cleared

end Sched

end Daredevil
