/-
  Daredevil.Sched.FailedProfile

  The first profile of a task, and the ways in which it fails to create a context:
  no memory for the context, no hctx for the task, or no place for the context in
  `ioc->blk_blex_iocs`.

  `blk_blex_sched_task_init` counts the task in the maps of its queue.  The steps
  after it that fail free the context with `kfree` alone, where
  `blk_blex_free_task_ioc` gives the count back first.

    * `SameMaps.taskInit`         — below optimization level 2 nothing is counted;
    * `taskInit_nsqMaps_ne`       — from level 2 on something always is;
    * `failedProfile_noTrace_iff` — so when a failed profile leaves no trace.
-/
import Daredevil.Sched.Profile
import Daredevil.Sched.RoundRobin

namespace Daredevil

namespace Sched

/-! ## The first profile -/

/-- `ioc->blk_blex_iocs`, by `q->id` -/
abbrev BlexIocs := Nat → Option TaskIoc

/-- `xa_insert`; `none` if there is an entry, or no memory. -/
def xaInsert (iocs : BlexIocs) (id : Nat) (ioc : TaskIoc) (memory : Bool) : Option BlexIocs :=
  if iocs id = none ∧ memory = true then some (Function.update iocs id (some ioc)) else none

/-- The creation of a context in `blk_blex_tenant_ioc_profile`; the context is `none` where the
function returns early.  `iocs` is the array when the context is inserted: a task that shares the
io_context may have stored one since the array was looked up. -/
def createTaskIoc (env : Env) (call : ProfileCall) (id prio : Nat) (memory : Bool)
    (reg : NqRegulator) (iocs : BlexIocs) : Option (NqRegulator × BlexIocs × Option TaskIoc) := do
  let (reg, ioc) ← blkBlexAllocAndInitTaskIoc env call prio reg
  match ioc with
  | none => some (reg, iocs, none)
  | some ioc =>
      match xaInsert iocs id ioc memory with
      -- the context is freed, but the maps keep counting it
      | none => some (reg, iocs, none)
      | some iocs => some (reg, iocs, some ioc)

/-- `blk_blex_tenant_ioc_profile` of a task that has no context -/
def firstProfile (env : Env) (call : ProfileCall) (id prio : Nat) (memory : Bool)
    (reg : NqRegulator) (iocs : BlexIocs) : Option (NqRegulator × BlexIocs) := do
  let (reg, iocs, ioc) ← createTaskIoc env call id prio memory reg iocs
  match ioc with
  | none => some (reg, iocs)
  | some ioc => do
      let (reg, ioc) ← profileBio env call prio reg ioc
      some (reg, Function.update iocs id (some ioc))

/-- The first profile returns without a context. -/
def CreationFails (env : Env) (call : ProfileCall) (id prio : Nat) (memory : Bool)
    (reg : NqRegulator) (iocs : BlexIocs) : Prop :=
  ∃ reg' iocs', createTaskIoc env call id prio memory reg iocs = some (reg', iocs', none)

/-- The maps, the masks and the contexts are as before. -/
structure NoTrace (reg : NqRegulator) (iocs : BlexIocs) (reg' : NqRegulator) (iocs' : BlexIocs) :
    Prop where
  maps : SameMaps reg reg'
  iocs : iocs' = iocs

variable {env : Env} {c : Caller} {call : ProfileCall} {id prio : Nat} {memory : Bool}
  {reg reg' : NqRegulator} {ioc ioc' : TaskIoc} {iocs iocs' : BlexIocs} {hctx : Option Nat}

/-- A first profile is a profile whose context is stored exactly if `xa_insert` succeeds. -/
theorem firstProfile_eq (h_insert : call.xaInsert = true ↔ iocs id = none ∧ memory = true) :
    (firstProfile env call id prio memory reg iocs).map Prod.fst =
      (blkBlexTenantIocProfile env call prio reg none).map Prod.fst := by
  simp only [firstProfile, createTaskIoc, blkBlexTenantIocProfile, findOrInit,
    Option.bind_eq_bind, xaInsert, h_insert]
  cases blkBlexAllocAndInitTaskIoc env call prio reg with
  | none => rfl
  | some r =>
      obtain ⟨reg₁, ioc⟩ := r
      cases ioc with
      | none =>
          simp only [Option.bind_some, ite_self]
          rfl
      | some ioc =>
          -- the context that could not be stored is freed, and no bio is counted
          by_cases h_stored : iocs id = none ∧ memory = true
          · simp only [Option.bind_some, if_pos h_stored]
            cases profileBio env call prio reg₁ ioc with
            | none => rfl
            | some r => rfl
          · simp only [Option.bind_some, if_neg h_stored]
            rfl

/-! ## What scheduling a new task counts -/

theorem SameMaps.arraySteps : ArraySteps SameMaps where
  refl := .refl
  trans := .trans
  clearOldTop _ _ _ _ := .setEnq (clearOldTop_mask _ _ _)
  setGroup _ _ _ := .setGroup _ _ _
  setNcqArr _ _ _ := .setEnq rfl

theorem SameMaps.rrNextNsqid {type : NqType} {nqid : Int}
    (h_rr : blkBlexSchedRrNextNsqid reg prio type = some (reg', nqid)) : SameMaps reg reg' := by
  obtain ⟨-, ⟨offset, rfl⟩ | ⟨offset, cqid, -, rfl⟩⟩ := rrNextNsqid_cases h_rr
  · exact .setGroup _ _ _
  · exact (SameMaps.setGroup _ _ _).trans (.setEnq rfl)

/-- Below optimization level 2 a new task is scheduled round robin. -/
theorem SameMaps.taskInit (h_opt : env.blexOptLevel < 2)
    (h_init : blkBlexSchedTaskInit env c reg ioc = some (reg', ioc', hctx)) :
    SameMaps reg reg' := by
  rcases taskInit_cases h_init with ⟨-, -, nqid, h_rr, -⟩ | ⟨h_high, -⟩
  · exact .rrNextNsqid h_rr
  · omega

/-- One more task on a queue changes the count of the CPU. -/
theorem setMaps_nsqMaps_ne {cpu enq : Nat} (h_set : blkBlexSetMaps reg cpu enq = some reg') :
    reg'.nsqMaps ≠ reg.nsqMaps := by
  rw [setMaps_eq, Option.map_eq_some_iff] at h_set
  obtain ⟨e, -, rfl⟩ := h_set
  intro h_same
  have h_usage : (reg.claim cpu enq e.nqid).usage = reg.usage := by
    unfold NqRegulator.usage
    rw [h_same]
  have h_stored := RefCount.stored_incr_same reg.usage (cpu, e.nqid)
  rw [← usage_claim reg cpu enq e.nqid, h_usage] at h_stored
  omega

/-- From optimization level 2 on a new task is counted, whether an hctx is found or not. -/
theorem taskInit_nsqMaps_ne (h_opt : 2 ≤ env.blexOptLevel)
    (h_init : blkBlexSchedTaskInit env c reg ioc = some (reg', ioc', hctx)) :
    reg'.nsqMaps ≠ reg.nsqMaps := by
  rcases taskInit_cases h_init with ⟨h_low, -⟩ | ⟨-, -, reg₁, selEnq, enq, h_rec, -, h_upd, -⟩
  · omega
  · have h_maps := (SameMaps.arraySteps.recommendNsq h_rec).nsqMaps
    simp only [blkBlexSchedUpdateMappings, Option.bind_eq_bind, Option.bind_fun_some] at h_upd
    rw [← h_maps]
    exact setMaps_nsqMaps_ne h_upd

/-! ## Creations that fail -/

theorem createTaskIoc_noMemory (h_alloc : call.iocAlloc = false) :
    createTaskIoc env call id prio memory reg iocs = some (reg, iocs, none) := by
  simp only [createTaskIoc, blkBlexAllocAndInitTaskIoc, h_alloc, Option.bind_eq_bind]
  rfl

/-- A creation that has allocated its context and fails has scheduled the task, and stores
nothing. -/
theorem createTaskIoc_fails (h_alloc : call.iocAlloc = true)
    (h_create : createTaskIoc env call id prio memory reg iocs = some (reg', iocs', none)) :
    iocs' = iocs ∧ ∃ ioc' hctx, blkBlexSchedTaskInit env call.caller reg (newTaskIoc env prio) =
      some (reg', ioc', hctx) := by
  simp only [createTaskIoc, Option.bind_eq_bind, Option.bind_eq_some_iff] at h_create
  obtain ⟨⟨reg₁, new⟩, h_init, h_create⟩ := h_create
  rcases allocAndInit_cases h_init with ⟨h_not, -⟩ | ⟨-, ioc₁, hctx, h_sched, rfl⟩
  · rw [h_alloc] at h_not
    cases h_not
  cases hctx with
  | none =>
      -- no hctx was found
      cases h_create
      exact ⟨rfl, ioc₁, none, h_sched⟩
  | some hctx =>
      dsimp only [Option.map_some] at h_create
      split at h_create
      · -- the context could not be stored
        cases h_create
        exact ⟨rfl, ioc₁, some hctx, h_sched⟩
      · cases h_create

/-- A failed first profile leaves no trace exactly if the context was not allocated, or the
scheduling does not count tasks. -/
theorem failedProfile_noTrace_iff (h_fails : CreationFails env call id prio memory reg iocs) :
    ∃ reg' iocs', firstProfile env call id prio memory reg iocs = some (reg', iocs') ∧
      (NoTrace reg iocs reg' iocs' ↔ call.iocAlloc = false ∨ env.blexOptLevel < 2) := by
  obtain ⟨reg', iocs', h_create⟩ := h_fails
  refine ⟨reg', iocs', ?_, ?_⟩
  · simp only [firstProfile, h_create, Option.bind_eq_bind, Option.bind_some]
  · cases h_alloc : call.iocAlloc with
    | false =>
        rw [createTaskIoc_noMemory h_alloc] at h_create
        cases h_create
        exact iff_of_true ⟨.refl reg, rfl⟩ (Or.inl rfl)
    | true =>
        obtain ⟨h_iocs, ioc', hctx, h_init⟩ := createTaskIoc_fails h_alloc h_create
        rcases Int.lt_or_le env.blexOptLevel 2 with h_low | h_high
        · exact iff_of_true ⟨.taskInit h_low h_init, h_iocs⟩ (Or.inr h_low)
        · -- the count is not taken back on any of the ways out
          refine iff_of_false ?_ ?_
          · intro h_none
            exact taskInit_nsqMaps_ne h_high h_init h_none.maps.nsqMaps
          · rintro (h_false | h_low)
            · cases h_false
            · omega

/-! ## A shared io_context -/

/-- The first bio of a task on CPU 0. -/
def firstSyncBio : ProfileCall := ⟨0, 2048, true, true⟩

/-- Another task of the io_context has stored its context for the device first. -/
def sharedIocs : BlexIocs := fun id => if id = 0 then some (newTaskIoc (.default 4) 0) else none

theorem sharedIocs_fails :
    ∃ reg, regulatorInit (.default 4) fiveNqs.toBlkBlexDevInfo (fun _ => 64) = some reg ∧
      (reg.nsqMaps 0).nrInUse = 0 ∧
      CreationFails (.default 4) firstSyncBio 0 0 true reg sharedIocs ∧
      ∃ reg' iocs', firstProfile (.default 4) firstSyncBio 0 0 true reg sharedIocs =
        some (reg', iocs') ∧ (reg'.nsqMaps 0).nrInUse = 1 := by
  have h_any : (regulatorInit (.default 4) fiveNqs.toBlkBlexDevInfo fun _ => 64).any (fun reg =>
      decide ((reg.nsqMaps 0).nrInUse = 0) &&
        (createTaskIoc (.default 4) firstSyncBio 0 0 true reg sharedIocs).any (fun r =>
          decide (r.2.2 = none ∧ (r.1.nsqMaps 0).nrInUse = 1))) = true := by
    decide +kernel
  obtain ⟨reg, h_init, h_facts⟩ := (Option.any_eq_true _ _).mp h_any
  obtain ⟨h_idle, h_create⟩ := (Bool.and_eq_true _ _).mp h_facts
  obtain ⟨⟨reg', iocs', ioc⟩, h_create, h_facts⟩ := (Option.any_eq_true _ _).mp h_create
  obtain ⟨rfl, h_used⟩ := of_decide_eq_true h_facts
  refine ⟨reg, h_init, of_decide_eq_true h_idle, ⟨reg', iocs', h_create⟩, reg', iocs', ?_, h_used⟩
  simp only [firstProfile, h_create, Option.bind_eq_bind, Option.bind_some]

theorem failedProfile_noTrace_iff_shared :
    ∃ reg, regulatorInit (.default 4) fiveNqs.toBlkBlexDevInfo (fun _ => 64) = some reg ∧
      ∃ reg' iocs', firstProfile (.default 4) firstSyncBio 0 0 true reg sharedIocs =
        some (reg', iocs') ∧
        (NoTrace reg sharedIocs reg' iocs' ↔
          firstSyncBio.iocAlloc = false ∨ (Env.default 4).blexOptLevel < 2) := by
  obtain ⟨reg, h_init, -, h_fails, -⟩ := sharedIocs_fails
  exact ⟨reg, h_init, failedProfile_noTrace_iff h_fails⟩

/-- The count of CPU 0 stays at one, although no task uses the queue. -/
theorem failedProfile_leaks :
    ∃ reg, regulatorInit (.default 4) fiveNqs.toBlkBlexDevInfo (fun _ => 64) = some reg ∧
      CreationFails (.default 4) firstSyncBio 0 0 true reg sharedIocs ∧
      ∃ reg' iocs', firstProfile (.default 4) firstSyncBio 0 0 true reg sharedIocs =
        some (reg', iocs') ∧ (reg.nsqMaps 0).nrInUse = 0 ∧ (reg'.nsqMaps 0).nrInUse = 1 ∧
        ¬ NoTrace reg sharedIocs reg' iocs' := by
  obtain ⟨reg, h_init, h_idle, h_fails, reg', iocs', h_profile, h_used⟩ := sharedIocs_fails
  refine ⟨reg, h_init, h_fails, reg', iocs', h_profile, h_idle, h_used, ?_⟩
  intro h_none
  have h_same := congrArg (fun maps => (maps 0).nrInUse) h_none.maps.nsqMaps
  omega

end Sched

end Daredevil
