/-
  Daredevil.Sched.Outlier

  The outlier hctx of a T task.  A T task whose bios turn synchronous gets the
  outlier priority and a second hctx of the L group, which its high-priority requests
  are meant to use; when it is an outlier no longer, the second hctx is dropped.

  The outlier priority has the bit of L set, and `blk_blex_sched_req_alloc` tests
  that bit first: no request of an outlier is promoted.  A pending ioprio change may
  also store or replace the outlier priority without looking at the second hctx.

    * `outlier_usesDefault` — an outlier's requests all go to the hctx of the task;
    * `turning_unserved`    — so a bio that makes the task an outlier breaks the promise;
    * `outlier_served`      — it is kept in every run without such a bio.
-/
import Daredevil.Sched.PrioIndex

namespace Daredevil

namespace Sched

namespace Outlier

/-! ## A task and its bios -/

/-- The context of a task for one device, and the regulator of the device. -/
structure State where
  reg : NqRegulator
  entry : Option TaskIoc

inductive Event where
  /-- the task submits a bio: `blk_blex_tenant_ioc_profile` -/
  | profile (call : ProfileCall)
  /-- an ioprio change, or a full default hctx, marks the context -/
  | needUpdate
  /-- anything else that uses the regulator -/
  | others (reg : NqRegulator)

/-- `prio` is the ioprio of the task. -/
def step (env : Env) (prio : Nat) (s : State) : Event → Option State
  | .profile call => do
      let (reg, entry) ← blkBlexTenantIocProfile env call prio s.reg s.entry
      some ⟨reg, entry⟩
  | .needUpdate => some { s with entry := s.entry.map fun ioc => { ioc with needUpdate := true } }
  | .others reg => some { s with reg := reg }

/-- No bio was submitted yet. -/
def Init (s : State) : Prop := s.entry = none

/-- What the outlier hctx is for. -/
structure Served (env : Env) (reg : NqRegulator) (ioc : TaskIoc) : Prop where
  inLGroup : ioc.blexIoprio = blkBlexOutlierPrio → ∃ hctx enq, ioc.outlierHctx = some hctx ∧
    reg.enq? (blkBlexHctxToNqid hctx) = some enq ∧ enq.prio = blkBlexLPrio
  routed : ioc.blexIoprio = blkBlexOutlierPrio → ∀ bioIoprio cmdFlags,
    HighPrio env bioIoprio cmdFlags →
      blkBlexSchedReqAlloc env reg ioc bioIoprio cmdFlags = some ioc.outlierHctx
  cleared : ioc.blexIoprio ≠ blkBlexOutlierPrio → ioc.outlierHctx = none

/-- The bio is one that the task's priority is mapped again for, with a pending change or a new
dominance, and that makes it an outlier: the task is not of class RT, and its bios, with this one,
are not asynchronous. -/
def TurnsOutlier (env : Env) (biOpf prio : Nat) (ioc : TaskIoc) : Prop :=
  (ioc.needUpdate = true ∨ (blkBlexUpdateTaskIocStats env biOpf ioc).1 = true) ∧
    env.ioprioPrioClass prio ≠ env.ioprioClassRt ∧
    ¬ PrioIndex.AsyncDominates (blkBlexUpdateTaskIocStats env biOpf ioc).2

/-- No bio makes the task an outlier. -/
def Steady (env : Env) (prio : Nat) (s : State) : Event → Prop
  | .profile call => ∀ ioc, s.entry = some ioc → ¬ TurnsOutlier env call.biOpf prio ioc
  | _ => True

instance (env : Env) (biOpf prio : Nat) (ioc : TaskIoc) :
    Decidable (TurnsOutlier env biOpf prio ioc) :=
  inferInstanceAs (Decidable (_ ∧ _ ∧ ¬ (_ ∧ _)))

instance (env : Env) (prio : Nat) (s : State) (e : Event) : Decidable (Steady env prio s e) :=
  match e with
  | .profile call =>
      inferInstanceAs (Decidable (∀ ioc ∈ s.entry, ¬ TurnsOutlier env call.biOpf prio ioc))
  | .needUpdate | .others _ => .isTrue trivial

variable {L : QueueLayout} {env : Env} {call : ProfileCall} {prio : Nat}
  {reg reg' : NqRegulator} {ioc ioc' : TaskIoc}

/-! ## An outlier's requests -/

/-- The branch for the outlier hctx is never taken. -/
theorem outlier_usesDefault (h : ioc.blexIoprio = blkBlexOutlierPrio) (bioIoprio cmdFlags : Nat) :
    blkBlexSchedReqAlloc env reg ioc bioIoprio cmdFlags = some ioc.hctx := by
  have h_default : useDefault env ioc bioIoprio cmdFlags = true := by
    rw [useDefault, h]
    rfl
  rw [blkBlexSchedReqAlloc, if_pos h_default]

/-- The hctx of the task is of the T group. -/
def OnTQueue (reg : NqRegulator) (ioc : TaskIoc) : Prop :=
  ∃ hctx enq, ioc.hctx = some hctx ∧ reg.enq? (blkBlexHctxToNqid hctx) = some enq ∧
    enq.prio = blkBlexTPrio

/-- An outlier on a T queue is not served as it should be, if there are any high-priority
requests. -/
theorem outlier_unserved (h_prio : ioc.blexIoprio = blkBlexOutlierPrio) (h_T : OnTQueue reg ioc)
    {bioIoprio cmdFlags : Nat} (h_high : HighPrio env bioIoprio cmdFlags) :
    ¬ Served env reg ioc := by
  intro h
  obtain ⟨hctx, enq, h_hctx, h_enq, h_enqT⟩ := h_T
  obtain ⟨out, enq', h_out, h_enq', h_enqL⟩ := h.inLGroup h_prio
  have h_routed := h.routed h_prio bioIoprio cmdFlags h_high
  rw [outlier_usesDefault h_prio, Option.some.injEq, h_hctx, h_out, Option.some.injEq] at h_routed
  subst h_routed
  obtain rfl := Option.some.inj (h_enq.symm.trans h_enq')
  rw [h_enqT] at h_enqL
  exact absurd h_enqL (by decide)

/-! ## The parts of a profile -/

/-- Not an outlier, and without an outlier hctx. -/
structure Cleared (ioc : TaskIoc) : Prop where
  prio : ioc.blexIoprio ≠ blkBlexOutlierPrio
  outlierHctx : ioc.outlierHctx = none

theorem Cleared.served (h : Cleared ioc) : Served env reg ioc where
  inLGroup h_prio := absurd h_prio h.prio
  routed h_prio := absurd h_prio h.prio
  cleared _ := h.outlierHctx

/-- Only the CPU and the hctx of the context were changed. -/
def Moved (ioc ioc' : TaskIoc) : Prop :=
  ∃ cpu hctx, ioc' = { ioc with lastWorkingCpu := cpu, hctx := hctx }

theorem Cleared.moved (h : Cleared ioc) (h_moved : Moved ioc ioc') : Cleared ioc' := by
  obtain ⟨cpu, hctx, rfl⟩ := h_moved
  exact ⟨h.prio, h.outlierHctx⟩

theorem taskInit_moved {c : Caller} {hctx : Option Nat}
    (h : blkBlexSchedTaskInit env c reg ioc = some (reg', ioc', hctx)) : Moved ioc ioc' := by
  rcases taskInit_cases h with ⟨-, rfl, -⟩ | ⟨-, rfl, -⟩
  · exact ⟨_, _, rfl⟩
  · exact ⟨_, _, rfl⟩

theorem taskUpdate_kept {c : Caller} {ioprio : Nat} {hctx : Option Nat}
    (h : blkBlexSchedTaskUpdate env c reg ioprio ioc = some (reg', ioc', hctx)) :
    ∃ cpu, ioc' = { ioc with lastWorkingCpu := cpu } := by
  obtain ⟨-, -, -, -, -, -, -, ⟨-, -, rfl⟩ | ⟨-, rfl, -⟩⟩ := taskUpdate_cases h
  · exact ⟨_, rfl⟩
  · exact ⟨_, rfl⟩

theorem followCpu_moved {cpu : Nat} (h : followCpu cpu reg ioc = some (reg', ioc')) :
    Moved ioc ioc' := by
  obtain ⟨rfl, -⟩ := followCpu_cases h
  exact ⟨_, _, rfl⟩

/-- Counting a bio touches the counts only. -/
theorem updateStats_kept (env : Env) (biOpf : Nat) (ioc : TaskIoc) :
    (blkBlexUpdateTaskIocStats env biOpf ioc).2.needUpdate = ioc.needUpdate ∧
      (Cleared ioc → Cleared (blkBlexUpdateTaskIocStats env biOpf ioc).2) := by
  unfold blkBlexUpdateTaskIocStats countBio
  split
  · split <;> exact ⟨rfl, fun h => ⟨h.prio, h.outlierHctx⟩⟩
  · exact ⟨rfl, id⟩

/-- What the counts of a bio come to does not depend on the CPU and the hctx. -/
theorem updateStats_moved (h_moved : Moved ioc ioc') (env : Env) (biOpf : Nat) :
    (blkBlexUpdateTaskIocStats env biOpf ioc').1 = (blkBlexUpdateTaskIocStats env biOpf ioc).1 ∧
      Moved (blkBlexUpdateTaskIocStats env biOpf ioc).2
        (blkBlexUpdateTaskIocStats env biOpf ioc').2 := by
  obtain ⟨cpu, hctx, rfl⟩ := h_moved
  unfold blkBlexUpdateTaskIocStats countBio syncDominance
  split
  · split <;> exact ⟨by dsimp only, cpu, hctx, rfl⟩
  · exact ⟨rfl, cpu, hctx, rfl⟩

theorem TurnsOutlier.of_moved {biOpf : Nat} (h_moved : Moved ioc ioc')
    (h : TurnsOutlier env biOpf prio ioc') : TurnsOutlier env biOpf prio ioc := by
  obtain ⟨h_changed, h_stats⟩ := updateStats_moved h_moved env biOpf
  obtain ⟨h_again, h_class, h_sync⟩ := h
  rw [h_changed] at h_again
  obtain ⟨cpu, hctx, rfl⟩ := h_moved
  obtain ⟨_, _, h_eq⟩ := h_stats
  rw [h_eq] at h_sync
  exact ⟨h_again, h_class, h_sync⟩

/-- The mapped priority is the outlier's only for a bio that turns the task. -/
theorem applyNeedUpdate_cleared (h : Cleared ioc)
    (h_map : ioc.needUpdate = true → blkBlexMapTaskIocIoprio env ioc prio ≠ blkBlexOutlierPrio)
    (h_apply : applyNeedUpdate env call prio reg ioc = some (reg', ioc')) :
    Cleared ioc' ∧ ioc'.nrSyncReqs = ioc.nrSyncReqs ∧ ioc'.nrAsyncReqs = ioc.nrAsyncReqs := by
  rcases applyNeedUpdate_cases h_apply with ⟨-, rfl, rfl⟩ | ⟨h_need, ioc₁, newHctx, h_sched, rfl⟩
  · exact ⟨h, rfl, rfl⟩
  · obtain ⟨cpu, rfl⟩ := taskUpdate_kept h_sched
    refine ⟨⟨?_, h.outlierHctx⟩, rfl, rfl⟩
    dsimp only
    exact h_map h_need

theorem applyProfileUpdate_cleared (h : Cleared ioc) {profileUpdate : Bool}
    (h_map : profileUpdate = true → blkBlexMapTaskIocIoprio env ioc prio ≠ blkBlexOutlierPrio)
    (h_apply : applyProfileUpdate env call prio profileUpdate reg ioc = some (reg', ioc')) :
    Cleared ioc' := by
  rcases applyProfileUpdate_cases h_apply with ⟨-, rfl, rfl⟩ | ⟨h_update, ioc₁, h_settle, rfl⟩
  · exact h
  · rcases settleOutlier_cases h_settle with
      ⟨h_outlier, -⟩ | ⟨rfl, rfl | ⟨-, h_was, -⟩⟩
    · exact absurd h_outlier (h_map h_update)
    · refine ⟨?_, h.outlierHctx⟩
      dsimp only
      exact h_map h_update
    · exact absurd h_was h.prio

/-- A bio that does not turn the task leaves it as it was. -/
theorem profileBio_cleared (h : Cleared ioc) (h_steady : ¬ TurnsOutlier env call.biOpf prio ioc)
    (h_profile : profileBio env call prio reg ioc = some (reg', ioc')) : Cleared ioc' := by
  simp only [profileBio, Option.bind_eq_bind, Option.bind_eq_some_iff] at h_profile
  obtain ⟨⟨reg₁, ioc₁⟩, h_follow, ⟨reg₂, ioc₂⟩, h_need, h_apply⟩ := h_profile
  obtain ⟨h_same, h_cleared⟩ := updateStats_kept env call.biOpf ioc
  have h_moved := followCpu_moved h_follow
  have h₁ := (h_cleared h).moved h_moved
  obtain ⟨cpu, hctx, rfl⟩ := h_moved
  -- the two branches map the priority for the same counts
  have h_map (h_again : ioc.needUpdate = true ∨
      (blkBlexUpdateTaskIocStats env call.biOpf ioc).1 = true) :
      blkBlexMapTaskIocIoprio env (blkBlexUpdateTaskIocStats env call.biOpf ioc).2 prio ≠
        blkBlexOutlierPrio :=
    fun h_outlier => h_steady ⟨h_again, (mapTaskIocIoprio_outlier_iff _ prio).mp h_outlier⟩
  obtain ⟨h₂, h_sync, h_async⟩ := applyNeedUpdate_cleared h₁
    (fun h_pending => h_map (.inl (h_same ▸ h_pending))) h_need
  refine applyProfileUpdate_cleared h₂ (fun h_update => ?_) h_apply
  rw [mapTaskIocIoprio_congr h_sync h_async]
  exact h_map (.inr h_update)

/-- A context that is found is moved at most. -/
theorem findOrInit_some_moved {found : Option TaskIoc} {old : TaskIoc}
    (h_init : findOrInit env call prio reg (some old) = some (reg', found)) :
    ∀ ioc, found = some ioc → ioc = old ∨ Moved old ioc := by
  rcases findOrInit_some_cases h_init with ⟨-, -, rfl⟩ | ⟨-, ioc₁, hctx, h_sched, rfl⟩
  · rintro ioc ⟨⟩
    exact .inl rfl
  · obtain ⟨cpu, hctx', rfl⟩ := taskInit_moved h_sched
    rintro ioc ⟨⟩
    exact .inr ⟨_, _, rfl⟩

theorem allocAndInit_moved {new : Option TaskIoc}
    (h_alloc : blkBlexAllocAndInitTaskIoc env call prio reg = some (reg', new)) :
    ∀ ioc, new = some ioc → Moved (newTaskIoc env prio) ioc := by
  rcases allocAndInit_cases h_alloc with ⟨-, -, rfl⟩ | ⟨-, ioc₁, hctx, h_sched, rfl⟩
  · intro ioc h_none
    cases h_none
  · intro ioc h_some
    obtain ⟨cpu, hctx', rfl⟩ := taskInit_moved h_sched
    obtain ⟨n, -, rfl⟩ := Option.map_eq_some_iff.mp h_some
    exact ⟨_, _, rfl⟩

theorem findOrInit_none_moved {found : Option TaskIoc}
    (h_init : findOrInit env call prio reg none = some (reg', found)) :
    ∀ ioc, found = some ioc → Moved (newTaskIoc env prio) ioc := by
  obtain ⟨new, h_alloc, rfl⟩ := findOrInit_none_cases h_init
  split
  · exact allocAndInit_moved h_alloc
  · intro ioc h_none
    cases h_none

theorem newTaskIoc_cleared : Cleared (newTaskIoc env prio) := by
  refine ⟨?_, rfl⟩
  show blkBlexIoprioSimpleMap env prio ≠ blkBlexOutlierPrio
  rcases prio_cases (simpleMap_lt env prio) with h_T | h_L
  · rw [h_T]
    decide
  · rw [h_L]
    decide

/-- One bio does not change the dominance. -/
theorem newTaskIoc_notTurning : ¬ TurnsOutlier env call.biOpf prio (newTaskIoc env prio) := by
  intro h_turns
  rcases h_turns.1 with h_pending | h_changed
  · cases h_pending
  · have h_map := (mapTaskIocIoprio_outlier_iff _ prio).mpr h_turns.2
    have h_counts : (newTaskIoc env prio).nrSyncReqs = 0 := rfl
    exact not_entersOutlier_first call.biOpf prio h_counts rfl ⟨h_changed, h_map, rfl⟩

/-- A context that is found is moved at most; a new one has nothing pending and no counts. -/
theorem findOrInit_cleared {found entry : Option TaskIoc}
    (h : ∀ ioc, entry = some ioc → Cleared ioc)
    (h_steady : ∀ ioc, entry = some ioc → ¬ TurnsOutlier env call.biOpf prio ioc)
    (h_init : findOrInit env call prio reg entry = some (reg', found)) :
    ∀ ioc, found = some ioc → Cleared ioc ∧ ¬ TurnsOutlier env call.biOpf prio ioc := by
  intro ioc h_found
  cases entry with
  | some old =>
      have h_old := h old rfl
      rcases findOrInit_some_moved h_init ioc h_found with rfl | h_moved
      · exact ⟨h_old, h_steady ioc rfl⟩
      · exact ⟨h_old.moved h_moved, fun h_turns => h_steady old rfl (h_turns.of_moved h_moved)⟩
  | none =>
      have h_moved := findOrInit_none_moved h_init ioc h_found
      exact ⟨newTaskIoc_cleared.moved h_moved,
        fun h_turns => newTaskIoc_notTurning (h_turns.of_moved h_moved)⟩

/-! ## A bio that turns the task -/

theorem OnTQueue.of_wf (h : OnTQueue reg ioc) (h_wf : RegWf L reg) (h_wf' : RegWf L reg')
    (h_hctx : ioc'.hctx = ioc.hctx) : OnTQueue reg' ioc' := by
  obtain ⟨hctx, enq, h_some, h_enq, h_prio⟩ := h
  obtain ⟨h_pos, h_le, rfl, h_enqWf⟩ := h_wf.enq?_some h_enq
  refine ⟨hctx, _, h_hctx.trans h_some, h_wf'.enq?_eq h_pos h_le, ?_⟩
  rw [(h_wf'.enq _ h_pos h_le).prio_eq, ← h_enqWf.prio_eq, h_prio]

theorem followCpu_wf (h_wf : RegWf L reg) {cpu : Nat}
    (h : followCpu cpu reg ioc = some (reg', ioc')) :
    RegWf L reg' ∧ ioc'.hctx = ioc.hctx := by
  obtain ⟨rfl, ⟨-, rfl⟩ | ⟨-, hctx, reg₁, -, h_clear, h_set⟩⟩ := followCpu_cases h
  · exact ⟨h_wf, rfl⟩
  · exact ⟨(setMaps_spec (clearMaps_spec h_wf h_clear).1 h_set).1, rfl⟩

/-- No queue is of the outlier priority, and `nq_groups` has no entry for it. -/
theorem taskUpdate_outlier (h_wf : RegWf L reg) (c : Caller) (ioc : TaskIoc) :
    blkBlexSchedTaskUpdate env c reg blkBlexOutlierPrio ioc = none := by
  rw [← Option.not_isSome_iff_eq_none, Option.isSome_iff_exists]
  rintro ⟨⟨reg', ioc', hctx⟩, h⟩
  obtain ⟨old, allright, reg₁, schedEnq, -, h_allright, h_choose, -⟩ := taskUpdate_cases h
  simp only [blkBlexSchedNqAllright, Option.bind_eq_bind, Option.bind_eq_some_iff] at h_allright
  obtain ⟨enq, h_enq, h_allright⟩ := h_allright
  obtain ⟨-, -, -, h_enqWf⟩ := h_wf.enq?_some h_enq
  have h_lt := L.prioOf_lt (blkBlexHctxToNqid old)
  have h_ne : enq.prio ≠ blkBlexOutlierPrio := by
    rw [h_enqWf.prio_eq]
    exact fun h_eq => absurd (h_eq ▸ h_lt) (by decide)
  rw [if_neg h_ne] at h_allright
  cases h_allright
  have h_group : reg.group? blkBlexOutlierPrio = none := if_neg (by decide)
  unfold chooseUpdateNq at h_choose
  rw [if_neg Bool.false_ne_true] at h_choose
  split at h_choose
  · rw [blkBlexSchedRrNextNsqid, h_group] at h_choose
    cases h_choose
  · rw [blkBlexRecommendNsq, h_group] at h_choose
    cases h_choose

/-- The profile leaves an outlier on its T queue: a pending change to the outlier priority runs
into the end of `nq_groups`, and a new dominance does not touch the hctx. -/
theorem profileBio_turning (h_wf : RegWf L reg) (h_groups : 2 ≤ L.nrCqs) (h_T : OnTQueue reg ioc)
    (h_turns : TurnsOutlier env call.biOpf prio ioc)
    (h_profile : profileBio env call prio reg ioc = some (reg', ioc')) :
    ioc'.blexIoprio = blkBlexOutlierPrio ∧ OnTQueue reg' ioc' := by
  simp only [profileBio, Option.bind_eq_bind, Option.bind_eq_some_iff] at h_profile
  obtain ⟨⟨reg₁, ioc₁⟩, h_follow, ⟨reg₂, ioc₂⟩, h_need, h_apply⟩ := h_profile
  obtain ⟨h_wf₁, h_hctx₁⟩ := followCpu_wf h_wf h_follow
  obtain ⟨h_hctx, -, -⟩ := updateTaskIocStats_kept env call.biOpf ioc
  have h_pending := (updateStats_kept env call.biOpf ioc).1
  have h_T₁ : OnTQueue reg₁ ioc₁ := h_T.of_wf h_wf h_wf₁ (h_hctx₁.trans h_hctx)
  obtain ⟨cpu, hctx, rfl⟩ := followCpu_moved h_follow
  have h_map : blkBlexMapTaskIocIoprio env
      { (blkBlexUpdateTaskIocStats env call.biOpf ioc).2 with lastWorkingCpu := cpu, hctx := hctx }
      prio = blkBlexOutlierPrio := by
    rw [mapTaskIocIoprio_congr rfl rfl]
    exact (mapTaskIocIoprio_outlier_iff _ prio).mpr h_turns.2
  rcases applyNeedUpdate_cases h_need with ⟨h_notPending, rfl, rfl⟩ | ⟨-, _, _, h_sched, -⟩
  · have h_changed : (blkBlexUpdateTaskIocStats env call.biOpf ioc).1 = true := by
      rcases h_turns.1 with h_again | h_again
      · rw [h_pending, h_again] at h_notPending
        cases h_notPending
      · exact h_again
    rcases applyProfileUpdate_cases h_apply with ⟨h_steady, -⟩ | ⟨-, ioc₃, h_settle, rfl⟩
    · rw [h_changed] at h_steady
      cases h_steady
    · rw [h_map] at h_settle ⊢
      refine ⟨rfl, ?_⟩
      rcases settleOutlier_cases h_settle with
        ⟨-, -, ioc₄, newOutlier, h_sched, rfl⟩ | ⟨rfl, rfl | ⟨h_other, -⟩⟩
      · have h_wf₄ := taskUpdate_wf h_wf₁ h_groups h_sched
        obtain ⟨cpu', rfl⟩ := taskUpdate_kept h_sched
        exact h_T₁.of_wf h_wf₁ h_wf₄ rfl
      · exact h_T₁.of_wf h_wf₁ h_wf₁ rfl
      · exact absurd rfl h_other
  · rw [mapTaskIocIoprio_congr rfl rfl, h_map, taskUpdate_outlier h_wf₁] at h_sched
    cases h_sched

/-- A bio that turns the task breaks the promise, if there are any high-priority requests. -/
theorem turning_unserved (h_wf : RegWf L reg) (h_groups : 2 ≤ L.nrCqs) (h_T : OnTQueue reg ioc)
    (h_turns : TurnsOutlier env call.biOpf prio ioc) {bioIoprio cmdFlags : Nat}
    (h_high : HighPrio env bioIoprio cmdFlags) {s' : State}
    (h_step : step env prio ⟨reg, some ioc⟩ (.profile call) = some s') :
    ∃ ioc', s'.entry = some ioc' ∧ ¬ Served env s'.reg ioc' := by
  obtain ⟨hctx, enq, h_hctx, -⟩ := id h_T
  have h_found : ¬ ioc.hctx = none := by
    rw [h_hctx]
    exact Option.some_ne_none hctx
  simp only [step, blkBlexTenantIocProfile, findOrInit, if_neg h_found, Option.bind_eq_bind,
    Option.bind_some, Option.bind_eq_some_iff] at h_step
  obtain ⟨⟨reg', entry⟩, h_profile, h_eq⟩ := h_step
  cases h_eq
  obtain ⟨⟨reg₁, ioc₁⟩, h_bio, h_eq⟩ := Option.map_eq_some_iff.mp h_profile
  cases h_eq
  obtain ⟨h_prio, h_T₁⟩ := profileBio_turning h_wf h_groups h_T h_turns h_bio
  exact ⟨ioc₁, rfl, outlier_unserved h_prio h_T₁ h_high⟩

/-! ## Runs -/

theorem step_cleared {s s' : State} {e : Event} (h : ∀ ioc, s.entry = some ioc → Cleared ioc)
    (h_steady : Steady env prio s e) (h_step : step env prio s e = some s') :
    ∀ ioc, s'.entry = some ioc → Cleared ioc := by
  cases e with
  | profile call =>
      simp only [step, blkBlexTenantIocProfile, Option.bind_eq_bind, Option.bind_eq_some_iff]
        at h_step
      obtain ⟨⟨reg, entry⟩, ⟨⟨reg₁, found⟩, h_find, h_profile⟩, h_eq⟩ := h_step
      cases h_eq
      have h_found := findOrInit_cleared h h_steady h_find
      cases found with
      | none =>
          cases h_profile
          intro ioc h_none
          cases h_none
      | some ioc₀ =>
          obtain ⟨⟨reg₂, ioc₂⟩, h_bio, h_eq⟩ := Option.map_eq_some_iff.mp h_profile
          cases h_eq
          rintro ioc ⟨⟩
          obtain ⟨h_cleared, h_notTurning⟩ := h_found ioc₀ rfl
          exact profileBio_cleared h_cleared h_notTurning h_bio
  | needUpdate =>
      cases h_step
      intro ioc h_ioc
      obtain ⟨old, h_old, rfl⟩ := Option.map_eq_some_iff.mp h_ioc
      exact ⟨(h old h_old).prio, (h old h_old).outlierHctx⟩
  | others reg =>
      cases h_step
      exact h

/-- In every run in which no bio turns the task into an outlier, the promise is kept. -/
theorem outlier_served {s : State} (h : Lts.Reach (step env prio) (Steady env prio) Init s) :
    ∀ ioc, s.entry = some ioc → Served env s.reg ioc := by
  have h_cleared : ∀ ioc, s.entry = some ioc → Cleared ioc := by
    apply h.invariant
    · intro s₀ h_init ioc h_ioc
      rw [h_init] at h_ioc
      cases h_ioc
    · intro s₁ e s₂ h₁ h_steady h_step
      exact step_cleared h₁ h_steady h_step
  intro ioc h_ioc
  exact (h_cleared ioc h_ioc).served

/-! ## A task on four queues -/

/-- Asynchronous bios, before the last of which the priority is to be mapped again, and a
synchronous one. -/
def steadyBios : List Event :=
  [.profile (bioOn 0 0), .profile (bioOn 0 0), .needUpdate, .profile (bioOn 0 0),
   .profile (bioOn 0 2048)]

theorem outlier_served_fiveEvents :
    ∃ s ioc, Lts.run (step (.default 4) 0) ⟨fourNqsReg, none⟩ steadyBios = some s ∧
      s.entry = some ioc ∧ ioc.nrAsyncReqs = 3 ∧ ioc.nrSyncReqs = 1 ∧
        Served (.default 4) s.reg ioc := by
  have h_some : (Lts.run (Lts.guarded (step (.default 4) 0) (Steady (.default 4) 0))
      ⟨fourNqsReg, none⟩ steadyBios).bind
        (fun s => s.entry.map fun ioc => (ioc.nrAsyncReqs, ioc.nrSyncReqs)) = some (3, 1) := by
    decide +kernel
  obtain ⟨s, h_run, h_entry⟩ := Option.bind_eq_some_iff.mp h_some
  obtain ⟨ioc, h_ioc, h_counts⟩ := Option.map_eq_some_iff.mp h_entry
  obtain ⟨h_async, h_sync⟩ := Prod.mk.inj h_counts
  have h_init : Init ⟨fourNqsReg, none⟩ := rfl
  have h_reach : Lts.Reach (step (.default 4) 0) (Steady (.default 4) 0) Init s :=
    (Lts.Reach.init h_init).run_guarded h_run
  exact ⟨s, ioc, Lts.run_of_guarded h_run, h_ioc, h_async, h_sync,
    outlier_served h_reach ioc h_ioc⟩

/-- One asynchronous bio and ten synchronous ones. -/
def turningBios : List Event :=
  .profile (bioOn 0 0) :: List.replicate 10 (.profile (bioOn 0 2048))

/-- The task turns into an outlier with the L hctx `2`, but a synchronous request of it goes to
its T hctx `0`.  A pending change then makes it a T task again and leaves the L hctx. -/
theorem outlier_notServed :
    (∃ s ioc, Lts.run (step (.default 4) 0) ⟨fourNqsReg, none⟩ turningBios = some s ∧
      s.entry = some ioc ∧ ioc.blexIoprio = blkBlexOutlierPrio ∧ ioc.outlierHctx = some 2 ∧
        HighPrio (.default 4) 0 2048 ∧
        blkBlexSchedReqAlloc (.default 4) s.reg ioc 0 2048 = some (some 0) ∧
        ¬ Served (.default 4) s.reg ioc) ∧
    ∃ s ioc, Lts.run (step (.default 4) 0) ⟨fourNqsReg, none⟩
        (turningBios ++ [.profile (bioOn 0 0), .needUpdate, .profile (bioOn 0 0)]) = some s ∧
      s.entry = some ioc ∧ ioc.blexIoprio = blkBlexTPrio ∧ ioc.outlierHctx = some 2 ∧
        ¬ Served (.default 4) s.reg ioc := by
  have h_turned : (Lts.run (step (.default 4) 0) ⟨fourNqsReg, none⟩ turningBios).bind
      (fun s => s.entry.map fun ioc => (ioc.blexIoprio, ioc.hctx, ioc.outlierHctx)) =
        some (blkBlexOutlierPrio, some 0, some 2) := by decide +kernel
  have h_back : (Lts.run (step (.default 4) 0) ⟨fourNqsReg, none⟩
      (turningBios ++ [.profile (bioOn 0 0), .needUpdate, .profile (bioOn 0 0)])).bind
        (fun s => s.entry.map fun ioc => (ioc.blexIoprio, ioc.outlierHctx)) =
          some (blkBlexTPrio, some 2) := by decide +kernel
  have h_high : HighPrio (.default 4) 0 2048 := .inr rfl
  constructor
  · obtain ⟨s, h_run, h_entry⟩ := Option.bind_eq_some_iff.mp h_turned
    obtain ⟨ioc, h_ioc, h_eq⟩ := Option.map_eq_some_iff.mp h_entry
    simp only [Prod.mk.injEq] at h_eq
    obtain ⟨h_prio, h_hctx, h_outlier⟩ := h_eq
    have h_routed : blkBlexSchedReqAlloc (.default 4) s.reg ioc 0 2048 = some ioc.hctx :=
      outlier_usesDefault h_prio 0 2048
    rw [h_hctx] at h_routed
    refine ⟨s, ioc, h_run, h_ioc, h_prio, h_outlier, h_high, h_routed, fun h => ?_⟩
    have h_meant := h.routed h_prio 0 2048 h_high
    rw [h_routed, h_outlier] at h_meant
    exact absurd h_meant (by decide)
  · obtain ⟨s, h_run, h_entry⟩ := Option.bind_eq_some_iff.mp h_back
    obtain ⟨ioc, h_ioc, h_eq⟩ := Option.map_eq_some_iff.mp h_entry
    rw [Prod.mk.injEq] at h_eq
    obtain ⟨h_prio, h_outlier⟩ := h_eq
    refine ⟨s, ioc, h_run, h_ioc, h_prio, h_outlier, fun h => ?_⟩
    have h_none := h.cleared (by rw [h_prio]; decide)
    rw [h_outlier] at h_none
    cases h_none

end Outlier

end Sched

end Daredevil
