/-
  Daredevil.Sched.PrioIndex

  The priorities that are used as array indices: of `nq_groups`, when a task or a
  request is scheduled, and of `blex_hctxs`, when `blk_mq_get_tag` chooses an hctx
  again after waiting for a tag.  Both arrays have an entry for each base priority.

  The outlier priority is none of them, but the profile stores it in the same field
  and hands it to the scheduler.  `indices_inRange_iff` says exactly when that
  happens.
-/
import Daredevil.Sched.Accounting
import Daredevil.Sched.Recommend

namespace Daredevil

namespace Sched

/-! ## The layout of a regulator is constant -/

variable {L : QueueLayout} {env : Env} {c : Caller} {reg reg' : NqRegulator} {ioc ioc' : TaskIoc}

theorem recommendNsq_info {prio nqid : Nat} {roundRobin : Bool} {ncqMru nsqMru : Int}
    (h : blkBlexRecommendNsq env reg prio roundRobin ncqMru nsqMru = some (reg', nqid)) :
    reg'.blexInfo = reg.blexInfo := info_arraySteps.recommendNsq h

theorem rrNextNsqid_info {prio : Nat} {type : NqType} {nqid : Int}
    (h : blkBlexSchedRrNextNsqid reg prio type = some (reg', nqid)) :
    reg'.blexInfo = reg.blexInfo := by
  obtain ⟨-, ⟨offset, rfl⟩ | ⟨offset, cqid, -, rfl⟩⟩ := rrNextNsqid_cases h
  · rfl
  · rfl

theorem setMaps_info {cpu enq : Nat} (h : blkBlexSetMaps reg cpu enq = some reg') :
    reg'.blexInfo = reg.blexInfo := by
  rw [setMaps_eq, Option.map_eq_some_iff] at h
  obtain ⟨e, -, rfl⟩ := h
  rfl

theorem clearMaps_info {cpu enq : Nat} (h : blkBlexClearMaps reg cpu enq = some reg') :
    reg'.blexInfo = reg.blexInfo := by
  rw [clearMaps_eq, Option.map_eq_some_iff] at h
  obtain ⟨e, -, rfl⟩ := h
  rfl

theorem updateMappings_info {cpu schedEnq : Nat} {oldEnq : Option Nat}
    (h : blkBlexSchedUpdateMappings reg cpu schedEnq oldEnq = some reg') :
    reg'.blexInfo = reg.blexInfo := by
  simp only [blkBlexSchedUpdateMappings, Option.bind_eq_bind, Option.bind_eq_some_iff] at h
  obtain ⟨reg₁, h_set, h⟩ := h
  have h₁ := setMaps_info h_set
  cases oldEnq with
  | none =>
      cases h
      exact h₁
  | some old => exact (clearMaps_info h).trans h₁

/-- An hctx that the scheduler returns is one of the device. -/
def HctxInRange (info : BlkBlexDevInfo) (hctx : Option Nat) : Prop :=
  ∀ n, hctx = some n → n < info.maxNqid

theorem xaLoadHctx_inRange (info : BlkBlexDevInfo) (idx : Int) :
    HctxInRange info (xaLoadHctx info idx) := by
  intro n h
  rw [xaLoadHctx] at h
  split at h
  case isTrue h_range =>
    cases h
    omega
  case isFalse => cases h

theorem nqidToHctx_inRange (info : BlkBlexDevInfo) (nqid : Int) :
    HctxInRange info (blkBlexNqidToHctx info nqid) := xaLoadHctx_inRange info _

theorem taskInit_info {hctx : Option Nat}
    (h : blkBlexSchedTaskInit env c reg ioc = some (reg', ioc', hctx)) :
    reg'.blexInfo = reg.blexInfo ∧ HctxInRange reg.blexInfo hctx ∧
      ioc'.blexIoprio = ioc.blexIoprio ∧ ioc'.needUpdate = ioc.needUpdate := by
  rcases taskInit_cases h with
    ⟨-, rfl, nqid, h_rr, rfl⟩ | ⟨-, rfl, reg₁, selEnq, enq, h_rec, -, h_upd, rfl⟩
  · have h_info := rrNextNsqid_info h_rr
    rw [h_info]
    exact ⟨rfl, nqidToHctx_inRange _ _, rfl, rfl⟩
  · have h_info := (updateMappings_info h_upd).trans (recommendNsq_info h_rec)
    rw [h_info]
    exact ⟨rfl, nqidToHctx_inRange _ _, rfl, rfl⟩

theorem chooseUpdateNq_info {ioprio oldHctx : Nat} {allright : Bool} {schedEnq hctx : Option Nat}
    (h_old : oldHctx < reg.blexInfo.maxNqid)
    (h : chooseUpdateNq env reg ioprio oldHctx allright = some (reg', schedEnq, hctx)) :
    reg'.blexInfo = reg.blexInfo ∧ HctxInRange reg.blexInfo hctx := by
  unfold chooseUpdateNq at h
  split at h
  · cases h
    refine ⟨rfl, ?_⟩
    rintro n ⟨⟩
    exact h_old
  split at h
  · simp only [Option.bind_eq_bind, Option.bind_eq_some_iff] at h
    obtain ⟨⟨reg₁, nqid⟩, h_rr, h_eq⟩ := h
    cases h_eq
    have h_info := rrNextNsqid_info h_rr
    refine ⟨h_info, ?_⟩
    rw [← h_info]
    exact nqidToHctx_inRange _ _
  · simp only [Option.bind_eq_bind, Option.bind_eq_some_iff] at h
    obtain ⟨⟨reg₁, enq⟩, h_rec, e, -, h_eq⟩ := h
    cases h_eq
    have h_info := recommendNsq_info h_rec
    refine ⟨h_info, ?_⟩
    rw [← h_info]
    exact nqidToHctx_inRange _ _

theorem moveMaps_info {schedEnq oldEnq : Nat}
    (h : moveMaps c reg ioc schedEnq oldEnq = some reg') : reg'.blexInfo = reg.blexInfo := by
  unfold moveMaps at h
  split at h
  · simp only [Option.bind_eq_bind, Option.bind_eq_some_iff] at h
    obtain ⟨reg₁, h_clear, h_upd⟩ := h
    exact (updateMappings_info h_upd).trans (clearMaps_info h_clear)
  · exact updateMappings_info h

/-- Updating a task touches neither its priority nor its hctxs. -/
theorem taskUpdate_info {ioprio : Nat} {hctx : Option Nat}
    (h_range : HctxInRange reg.blexInfo ioc.hctx)
    (h : blkBlexSchedTaskUpdate env c reg ioprio ioc = some (reg', ioc', hctx)) :
    reg'.blexInfo = reg.blexInfo ∧ HctxInRange reg.blexInfo hctx ∧ ioc'.hctx = ioc.hctx ∧
      ioc'.blexIoprio = ioc.blexIoprio := by
  obtain ⟨old, allright, reg₁, schedEnq, h_old, -, h_choose, h_cases⟩ := taskUpdate_cases h
  obtain ⟨h_info, h_hctx⟩ := chooseUpdateNq_info (h_range old h_old) h_choose
  rcases h_cases with ⟨-, rfl, rfl⟩ | ⟨-, rfl, enq, -, h_move⟩
  · exact ⟨h_info, h_hctx, rfl, rfl⟩
  · exact ⟨(moveMaps_info h_move).trans h_info, h_hctx, rfl, rfl⟩

/-! ## Indices of a call -/

/-- The entries of `nq_groups` that a scheduling call of a task uses. -/
def schedIndices (ioc : TaskIoc) (info : Nat) : SchedContext → List Nat
  -- `blk_blex_recommend_nsq`, or the round robin, for the task's own priority
  | .taskInit => [ioc.blexIoprio]
  -- `blk_blex_sched_nq_allright`, and then the same for the new priority
  | .taskUpdate => [info]
  -- not called by the profile
  | .req | .noTag => []

/-- `findOrInit` -/
def findOrInitIndices (env : Env) (call : ProfileCall) (prio : Nat) : Option TaskIoc → List Nat
  | none =>
      if call.iocAlloc then
        schedIndices (newTaskIoc env prio) (newTaskIoc env prio).blexIoprio .taskInit
      else []
  | some ioc => if ioc.hctx = none then schedIndices ioc ioc.blexIoprio .taskInit else []

/-- `applyNeedUpdate` -/
def needUpdateIndices (env : Env) (prio : Nat) (ioc : TaskIoc) : List Nat :=
  if ioc.needUpdate then schedIndices ioc (blkBlexMapTaskIocIoprio env ioc prio) .taskUpdate else []

/-- `applyProfileUpdate` -/
def profileUpdateIndices (env : Env) (prio : Nat) (profileUpdate : Bool) (ioc : TaskIoc) :
    List Nat :=
  if profileUpdate ∧ blkBlexMapTaskIocIoprio env ioc prio = blkBlexOutlierPrio ∧
      ioc.outlierHctx = none then
    schedIndices ioc blkBlexLPrio .taskUpdate
  else []

/-- `profileBio`; nothing is used after a fault. -/
def profileBioIndices (env : Env) (call : ProfileCall) (prio : Nat) (reg : NqRegulator)
    (ioc : TaskIoc) : List Nat :=
  let (profileUpdate, ioc) := blkBlexUpdateTaskIocStats env call.biOpf ioc
  match followCpu call.cpu reg ioc with
  | none => []
  | some (reg, ioc) =>
      needUpdateIndices env prio ioc ++
        match applyNeedUpdate env call prio reg ioc with
        | none => []
        | some (_, ioc) => profileUpdateIndices env prio profileUpdate ioc

/-- `blk_blex_tenant_ioc_profile` -/
def profileIndices (env : Env) (call : ProfileCall) (prio : Nat) (reg : NqRegulator)
    (found : Option TaskIoc) : List Nat :=
  findOrInitIndices env call prio found ++
    match findOrInit env call prio reg found with
    | some (reg, some ioc) => profileBioIndices env call prio reg ioc
    | _ => []

/-- `blk_blex_sched_req_alloc` -/
def reqAllocIndices (env : Env) (ioc : TaskIoc) (bioIoprio cmdFlags : Nat) : List Nat :=
  if useDefault env ioc bioIoprio cmdFlags ∨ ioc.blexIoprio = blkBlexOutlierPrio then []
  else [blkBlexLPrio]

/-- The entry of `blex_hctxs` that `blk_mq_get_tag` uses after a wait; without the
scheduler it maps the CPU instead. -/
def getTagIndices (env : Env) (ioc : TaskIoc) : List Nat :=
  if env.blexOptLevel ≠ 0 then [ioc.blexIoprio] else []

/-! ## The system -/

namespace PrioIndex

inductive Event where
  /-- a profile, a change of ioprio, an exit or the driver's counters -/
  | task (e : Sched.Event)
  /-- a task has a request scheduled -/
  | reqAlloc (task q bioIoprio cmdFlags : Nat)
  /-- a task has waited for a tag in `blk_mq_get_tag` -/
  | tagWait (task q : Nat)

/-- What an event uses as an index. -/
def indices (env : Env) (s : State) : Event → List Nat
  | .task (.profile task q call) =>
      profileIndices env call (s.ioprio task) s.reg (s.lookup task q)
  | .task _ => []
  | .reqAlloc task q bioIoprio cmdFlags =>
      match s.lookup task q with
      | none => []
      | some ioc => reqAllocIndices env ioc bioIoprio cmdFlags
  | .tagWait task q =>
      match s.lookup task q with
      | none => []
      | some ioc => getTagIndices env ioc

/-- There is no next state after a fault, of which an index out of range is one. -/
def step (env : Env) (s : State) : Event → Option State
  | .task e => Sched.step env s e
  | .reqAlloc task q bioIoprio cmdFlags => do
      let ioc ← s.lookup task q
      let _ ← blkBlexSchedReqAlloc env s.reg ioc bioIoprio cmdFlags
      some s
  | .tagWait task q => do
      let ioc ← s.lookup task q
      if ∀ i ∈ getTagIndices env ioc, i < blkBlexPrioLevel then some s else none

/-- The counts say that a task submits asynchronous bios: it has ten of them, or no others. -/
def AsyncDominates (ioc : TaskIoc) : Prop :=
  Word32.signed ioc.nrAsyncReqs ≠ 0 ∧
    (Word32.signed ioc.nrSyncReqs = 0 ∨ 10 ≤ Word32.signed ioc.nrAsyncReqs)

/-- A pending update finds a task whose ioprio is not of class RT and whose bios, with this one,
are not asynchronous. -/
def UpdatesOutlier (env : Env) (biOpf prio : Nat) (ioc : TaskIoc) : Prop :=
  ioc.needUpdate = true ∧ env.ioprioPrioClass prio ≠ env.ioprioClassRt ∧
    ¬ AsyncDominates (blkBlexUpdateTaskIocStats env biOpf ioc).2

/-- The events that use base priorities only. -/
def InRange (env : Env) (s : State) : Event → Prop
  | .task (.profile task q call) => ∀ ioc, s.lookup task q = some ioc →
      ¬ UpdatesOutlier env call.biOpf (s.ioprio task) ioc
  | .task _ => True
  | .reqAlloc _ _ _ _ => True
  | .tagWait task q => ∀ ioc, s.lookup task q = some ioc →
      env.blexOptLevel = 0 ∨ ioc.blexIoprio ≠ blkBlexOutlierPrio

end PrioIndex

/-! ## The mapped priority -/

/-- The rounding term of the dominance is always zero. -/
theorem tdiv_two_tdiv_self (x : Int) : (x.tdiv 2).tdiv x = 0 := by
  apply Int.natAbs_eq_zero.mp
  rw [Int.natAbs_tdiv, Int.natAbs_tdiv]
  show x.natAbs / 2 / x.natAbs = 0
  rcases Nat.eq_zero_or_pos x.natAbs with h_zero | h_pos
  · rw [h_zero]
  · exact Nat.div_eq_of_lt (Nat.div_lt_self h_pos (by decide))

/-- The first of two candidates dominates if it is ten or more, or if there is no second. -/
theorem decideDominance_zero_iff (candidate0 candidate1 : Int) :
    blkBlexDecideDominance candidate0 candidate1 0 = 0 ↔
      candidate0 ≠ 0 ∧ (candidate1 = 0 ∨ 10 ≤ candidate0) := by
  rw [blkBlexDecideDominance, if_pos rfl, tdiv_two_tdiv_self, tdiv_two_tdiv_self]
  split
  case isTrue h_both =>
    split
    · omega
    · split <;> omega
  case isFalse h_one =>
    split
    · omega
    · split <;> omega

theorem mapTaskIocIoprio_outlier_iff (ioc : TaskIoc) (prio : Nat) :
    blkBlexMapTaskIocIoprio env ioc prio = blkBlexOutlierPrio ↔
      env.ioprioPrioClass prio ≠ env.ioprioClassRt ∧ ¬ PrioIndex.AsyncDominates ioc := by
  have h_dom := decideDominance_zero_iff (Word32.signed ioc.nrAsyncReqs)
    (Word32.signed ioc.nrSyncReqs)
  unfold blkBlexMapTaskIocIoprio blkBlexIoprioSimpleMap
  by_cases h_class : env.ioprioPrioClass prio = env.ioprioClassRt
  · -- a task of class RT has the L priority
    rw [if_pos h_class, if_neg (fun h => absurd h.2 (by decide))]
    exact iff_of_false (by decide) (fun h => h.1 h_class)
  · rw [if_neg h_class]
    by_cases h_async : PrioIndex.AsyncDominates ioc
    · rw [if_neg (fun h => h.1 (h_dom.mpr h_async))]
      exact iff_of_false (by decide) (fun h => h.2 h_async)
    · rw [if_pos ⟨fun h => h_async (h_dom.mp h), rfl⟩]
      exact iff_of_true rfl ⟨h_class, h_async⟩

/-- The priorities that a context can have. -/
def IsPrio (prio : Nat) : Prop :=
  prio = blkBlexTPrio ∨ prio = blkBlexLPrio ∨ prio = blkBlexOutlierPrio

theorem simpleMap_lt (env : Env) (prio : Nat) :
    blkBlexIoprioSimpleMap env prio < blkBlexPrioLevel := by
  unfold blkBlexIoprioSimpleMap
  split <;> decide

theorem simpleMap_isPrio (env : Env) (prio : Nat) : IsPrio (blkBlexIoprioSimpleMap env prio) := by
  rcases prio_cases (simpleMap_lt env prio) with h_T | h_L
  · exact .inl h_T
  · exact .inr (.inl h_L)

theorem mapTaskIocIoprio_isPrio (env : Env) (ioc : TaskIoc) (prio : Nat) :
    IsPrio (blkBlexMapTaskIocIoprio env ioc prio) := by
  unfold blkBlexMapTaskIocIoprio
  simp only
  split
  · exact .inr (.inr rfl)
  · exact simpleMap_isPrio env prio

/-- Only the outlier priority is no index. -/
theorem IsPrio.lt_iff {prio : Nat} (h : IsPrio prio) :
    prio < blkBlexPrioLevel ↔ prio ≠ blkBlexOutlierPrio := by
  rcases h with rfl | rfl | rfl <;> decide

/-! ## Contexts -/

/-- A context with an hctx of the device and one of the three priorities. -/
structure EntryOk (info : BlkBlexDevInfo) (ioc : TaskIoc) : Prop where
  hctx : ∃ n, ioc.hctx = some n ∧ n < info.maxNqid
  prio : IsPrio ioc.blexIoprio

variable {call : ProfileCall} {prio : Nat}

theorem EntryOk.inRange {info : BlkBlexDevInfo} (h : EntryOk info ioc) :
    HctxInRange info ioc.hctx := by
  obtain ⟨n, h_hctx, h_lt⟩ := h.hctx
  intro m h_m
  rw [h_hctx, Option.some.injEq] at h_m
  omega

theorem EntryOk.congr {info : BlkBlexDevInfo} (h : EntryOk info ioc)
    (h_hctx : ioc'.hctx = ioc.hctx) (h_prio : ioc'.blexIoprio = ioc.blexIoprio) :
    EntryOk info ioc' where
  hctx := by
    rw [h_hctx]
    exact h.hctx
  prio := by
    rw [h_prio]
    exact h.prio

/-- A context found with an hctx is taken as it is. -/
theorem findOrInit_found (h : EntryOk reg.blexInfo ioc) :
    findOrInit env call prio reg (some ioc) = some (reg, some ioc) ∧
      findOrInitIndices env call prio (some ioc) = [] := by
  obtain ⟨n, h_hctx, -⟩ := h.hctx
  have h_ne : ¬ ioc.hctx = none := by
    rw [h_hctx]
    exact Option.some_ne_none n
  exact ⟨if_neg h_ne, if_neg h_ne⟩

/-- A new context is set up with a base priority and no update pending. -/
theorem findOrInit_new {found : Option TaskIoc}
    (h : findOrInit env call prio reg none = some (reg', found)) :
    reg'.blexInfo = reg.blexInfo ∧
      ∀ ioc, found = some ioc → EntryOk reg.blexInfo ioc ∧ ioc.needUpdate = false := by
  obtain ⟨new, h_init, rfl⟩ := findOrInit_none_cases h
  have h_new : reg'.blexInfo = reg.blexInfo ∧
      ∀ ioc, new = some ioc → EntryOk reg.blexInfo ioc ∧ ioc.needUpdate = false := by
    rcases allocAndInit_cases h_init with ⟨-, rfl, rfl⟩ | ⟨-, ioc₂, hctx, h_sched, rfl⟩
    · exact ⟨rfl, fun ioc h_eq => by cases h_eq⟩
    · obtain ⟨h_info, h_range, h_prio, h_need⟩ := taskInit_info h_sched
      refine ⟨h_info, fun ioc h_eq => ?_⟩
      obtain ⟨n, rfl, rfl⟩ := Option.map_eq_some_iff.mp h_eq
      refine ⟨⟨⟨n, rfl, h_range n rfl⟩, ?_⟩, h_need⟩
      show IsPrio ioc₂.blexIoprio
      rw [h_prio]
      exact simpleMap_isPrio env prio
  split
  · exact h_new
  · exact ⟨h_new.1, fun ioc h_eq => by cases h_eq⟩

/-- The two queues that the count moves between exist. -/
theorem followCpu_some (h : EntryOk reg.blexInfo ioc) (cpu : Nat) :
    ∃ reg', followCpu cpu reg ioc = some (reg', { ioc with lastWorkingCpu := cpu }) ∧
      reg'.blexInfo = reg.blexInfo := by
  obtain ⟨n, h_hctx, h_lt⟩ := h.hctx
  have h_range : 1 ≤ n + 1 ∧ n + 1 ≤ reg.blexInfo.maxNqid := by omega
  unfold followCpu
  split
  case isFalse h_same =>
    refine ⟨reg, ?_, rfl⟩
    rw [← not_not.mp h_same]
  case isTrue =>
    have h_clear : ∃ reg₁, blkBlexClearMaps reg ioc.lastWorkingCpu (n + 1) = some reg₁ := by
      rw [clearMaps_eq, NqRegulator.enq?, if_pos h_range]
      exact ⟨_, rfl⟩
    obtain ⟨reg₁, h_clear⟩ := h_clear
    have h_info := clearMaps_info h_clear
    have h_set : ∃ reg₂, blkBlexSetMaps reg₁ cpu (n + 1) = some reg₂ := by
      rw [setMaps_eq, NqRegulator.enq?, h_info, if_pos h_range]
      exact ⟨_, rfl⟩
    obtain ⟨reg₂, h_set⟩ := h_set
    refine ⟨reg₂, ?_, (setMaps_info h_set).trans h_info⟩
    simp only [h_hctx, Option.bind_eq_bind, Option.bind_some, blkBlexHctxToNqid, h_clear, h_set]

theorem applyNeedUpdate_ok (h : EntryOk reg.blexInfo ioc)
    (h_apply : applyNeedUpdate env call prio reg ioc = some (reg', ioc')) :
    reg'.blexInfo = reg.blexInfo ∧ EntryOk reg.blexInfo ioc' := by
  rcases applyNeedUpdate_cases h_apply with ⟨-, rfl, rfl⟩ | ⟨-, ioc₁, newHctx, h_sched, rfl⟩
  · exact ⟨rfl, h⟩
  · have h_cleared : EntryOk reg.blexInfo { ioc with needUpdate := false } := h.congr rfl rfl
    obtain ⟨h_info, h_range, -, -⟩ := taskUpdate_info h_cleared.inRange h_sched
    refine ⟨h_info, ⟨newHctx, rfl, h_range newHctx rfl⟩, ?_⟩
    dsimp only
    exact mapTaskIocIoprio_isPrio env ioc prio

theorem applyProfileUpdate_ok (h : EntryOk reg.blexInfo ioc) {profileUpdate : Bool}
    (h_apply : applyProfileUpdate env call prio profileUpdate reg ioc = some (reg', ioc')) :
    reg'.blexInfo = reg.blexInfo ∧ EntryOk reg.blexInfo ioc' := by
  rcases applyProfileUpdate_cases h_apply with ⟨-, rfl, rfl⟩ | ⟨-, ioc₁, h_settle, rfl⟩
  · exact ⟨rfl, h⟩
  · have h_kept : reg'.blexInfo = reg.blexInfo ∧ ioc₁.hctx = ioc.hctx := by
      rcases settleOutlier_cases h_settle with
        ⟨-, -, ioc₂, newOutlier, h_sched, rfl⟩ | ⟨rfl, rfl | ⟨-, -, rfl⟩⟩
      · obtain ⟨h_info, -, h_hctx, -⟩ := taskUpdate_info h.inRange h_sched
        exact ⟨h_info, h_hctx⟩
      · exact ⟨rfl, rfl⟩
      · exact ⟨rfl, rfl⟩
    refine ⟨h_kept.1, ?_, ?_⟩
    · show ∃ n, ioc₁.hctx = some n ∧ n < reg.blexInfo.maxNqid
      rw [h_kept.2]
      exact h.hctx
    · dsimp only
      exact mapTaskIocIoprio_isPrio env ioc prio

/-- Counting a bio leaves the hctx, the priority and the flag alone. -/
theorem EntryOk.counted {info : BlkBlexDevInfo} (h : EntryOk info ioc) (env : Env) (biOpf : Nat) :
    EntryOk info (blkBlexUpdateTaskIocStats env biOpf ioc).2 ∧
      (blkBlexUpdateTaskIocStats env biOpf ioc).2.needUpdate = ioc.needUpdate := by
  have h_kept : (blkBlexUpdateTaskIocStats env biOpf ioc).2.hctx = ioc.hctx ∧
      (blkBlexUpdateTaskIocStats env biOpf ioc).2.blexIoprio = ioc.blexIoprio ∧
      (blkBlexUpdateTaskIocStats env biOpf ioc).2.needUpdate = ioc.needUpdate := by
    unfold blkBlexUpdateTaskIocStats countBio
    split
    · split <;> exact ⟨rfl, rfl, rfl⟩
    · exact ⟨rfl, rfl, rfl⟩
  exact ⟨h.congr h_kept.1 h_kept.2.1, h_kept.2.2⟩

theorem profileBio_ok (h : EntryOk reg.blexInfo ioc)
    (h_profile : profileBio env call prio reg ioc = some (reg', ioc')) :
    reg'.blexInfo = reg.blexInfo ∧ EntryOk reg.blexInfo ioc' := by
  obtain ⟨h_counted, -⟩ := h.counted env call.biOpf
  obtain ⟨reg₁, h_follow, h_info₁⟩ := followCpu_some h_counted call.cpu
  simp only [profileBio, h_follow, Option.bind_eq_bind, Option.bind_some,
    Option.bind_eq_some_iff] at h_profile
  obtain ⟨⟨reg₂, ioc₂⟩, h_need, h_apply⟩ := h_profile
  -- the parts work on one another's results, and none changes the layout
  have h_entry₁ : EntryOk reg₁.blexInfo
      { (blkBlexUpdateTaskIocStats env call.biOpf ioc).2 with lastWorkingCpu := call.cpu } := by
    rw [h_info₁]
    exact h_counted.congr rfl rfl
  obtain ⟨h_info₂, h_entry₂⟩ := applyNeedUpdate_ok h_entry₁ h_need
  have h_info := h_info₂.trans h_info₁
  rw [h_info₁, ← h_info] at h_entry₂
  obtain ⟨h_info₃, h_entry₃⟩ := applyProfileUpdate_ok h_entry₂ h_apply
  rw [h_info] at h_info₃ h_entry₃
  exact ⟨h_info₃, h_entry₃⟩

/-! ## The indices of a profile -/

theorem needUpdateIndices_lt_iff (ioc : TaskIoc) (prio : Nat) :
    (∀ i ∈ needUpdateIndices env prio ioc, i < blkBlexPrioLevel) ↔
      ¬ (ioc.needUpdate = true ∧ env.ioprioPrioClass prio ≠ env.ioprioClassRt ∧
        ¬ PrioIndex.AsyncDominates ioc) := by
  have h_lt := (mapTaskIocIoprio_isPrio env ioc prio).lt_iff
  rw [← mapTaskIocIoprio_outlier_iff]
  unfold needUpdateIndices
  split
  case isTrue h_need => simp only [schedIndices, List.mem_singleton, forall_eq, h_lt, h_need, true_and]
  case isFalse h_need =>
    exact iff_of_true (fun i h_mem => absurd h_mem List.not_mem_nil) (fun h => h_need h.1)

/-- The outlier hctx is asked for with a base priority. -/
theorem profileUpdateIndices_lt (prio : Nat) (profileUpdate : Bool) (ioc : TaskIoc) :
    ∀ i ∈ profileUpdateIndices env prio profileUpdate ioc, i < blkBlexPrioLevel := by
  intro i h_mem
  unfold profileUpdateIndices at h_mem
  split at h_mem
  · rw [List.mem_singleton.mp h_mem]
    decide
  · exact absurd h_mem List.not_mem_nil

theorem profileBioIndices_lt_iff (h : EntryOk reg.blexInfo ioc) :
    (∀ i ∈ profileBioIndices env call prio reg ioc, i < blkBlexPrioLevel) ↔
      ¬ PrioIndex.UpdatesOutlier env call.biOpf prio ioc := by
  obtain ⟨h_counted, h_need⟩ := h.counted env call.biOpf
  obtain ⟨reg₁, h_follow, -⟩ := followCpu_some h_counted call.cpu
  simp only [profileBioIndices, h_follow, List.forall_mem_append]
  rw [needUpdateIndices_lt_iff, PrioIndex.UpdatesOutlier, ← h_need]
  apply and_iff_left
  intro i h_mem
  split at h_mem
  · exact absurd h_mem List.not_mem_nil
  · exact profileUpdateIndices_lt _ _ _ i h_mem

theorem profileIndices_found (h : EntryOk reg.blexInfo ioc) :
    (∀ i ∈ profileIndices env call prio reg (some ioc), i < blkBlexPrioLevel) ↔
      ¬ PrioIndex.UpdatesOutlier env call.biOpf prio ioc := by
  have h_found : findOrInit env call prio reg (some ioc) = some (reg, some ioc) ∧
      findOrInitIndices env call prio (some ioc) = [] := findOrInit_found h
  obtain ⟨h_find, h_none⟩ := h_found
  rw [profileIndices, h_find, h_none, List.nil_append]
  exact profileBioIndices_lt_iff h

/-- The first bio of a task has no update pending. -/
theorem profileIndices_new :
    ∀ i ∈ profileIndices env call prio reg none, i < blkBlexPrioLevel := by
  rw [profileIndices]
  intro i h_mem
  rcases List.mem_append.mp h_mem with h_init | h_bio
  · rw [findOrInitIndices] at h_init
    split at h_init
    · rw [List.mem_singleton.mp h_init]
      exact simpleMap_lt env prio
    · exact absurd h_init List.not_mem_nil
  · split at h_bio
    · rename_i reg₁ ioc h_find
      obtain ⟨h_info, h_new⟩ := findOrInit_new h_find
      obtain ⟨h_entry, h_need⟩ := h_new ioc rfl
      rw [← h_info] at h_entry
      refine (profileBioIndices_lt_iff h_entry).mpr ?_ i h_bio
      rintro ⟨h_true, -⟩
      rw [h_need] at h_true
      cases h_true
    · exact absurd h_bio List.not_mem_nil

/-! ## Runs -/

namespace PrioIndex

structure Inv (L : QueueLayout) (s : State) : Prop where
  info : s.reg.blexInfo = L.toBlkBlexDevInfo
  entries : ∀ e ∈ s.live, EntryOk L.toBlkBlexDevInfo e.ioc

variable {s s' : State}

theorem Inv.lookup (h : Inv L s) {task q : Nat} (h_lookup : s.lookup task q = some ioc) :
    EntryOk s.reg.blexInfo ioc := by
  obtain ⟨e, h_mem, rfl, -⟩ := lookup_perm h_lookup
  rw [h.info]
  exact h.entries e h_mem

/-- What a lookup that starts from `found` leaves in the xarray. -/
theorem tenantIocProfile_ok {found entry : Option TaskIoc}
    (h_found : ∀ ioc, found = some ioc → EntryOk reg.blexInfo ioc)
    (h : blkBlexTenantIocProfile env call prio reg found = some (reg', entry)) :
    reg'.blexInfo = reg.blexInfo ∧ ∀ ioc, entry = some ioc → EntryOk reg.blexInfo ioc := by
  simp only [blkBlexTenantIocProfile, Option.bind_eq_bind, Option.bind_eq_some_iff] at h
  obtain ⟨⟨reg₁, ioc?⟩, h_find, h⟩ := h
  have h_start : reg₁.blexInfo = reg.blexInfo ∧ ∀ ioc, ioc? = some ioc → EntryOk reg.blexInfo ioc := by
    cases found with
    | none =>
        obtain ⟨h_info, h_new⟩ := findOrInit_new h_find
        exact ⟨h_info, fun ioc h_eq => (h_new ioc h_eq).1⟩
    | some ioc =>
        have h_entry := h_found ioc rfl
        rw [(findOrInit_found h_entry).1] at h_find
        cases h_find
        exact ⟨rfl, fun ioc h_eq => h_found ioc h_eq⟩
  cases ioc? with
  | none =>
      cases h
      exact ⟨h_start.1, fun ioc h_eq => by cases h_eq⟩
  | some ioc =>
      obtain ⟨⟨reg₂, ioc₂⟩, h_bio, h_eq⟩ := Option.map_eq_some_iff.mp h
      cases h_eq
      have h_entry := h_start.2 ioc rfl
      rw [← h_start.1] at h_entry
      obtain ⟨h_info, h_ok⟩ := profileBio_ok h_entry h_bio
      refine ⟨h_info.trans h_start.1, ?_⟩
      rintro ioc' ⟨⟩
      rw [← h_start.1]
      exact h_ok

theorem freeAll_info {es : List Entry} (h : freeAll reg es = some reg') :
    reg'.blexInfo = reg.blexInfo := by
  induction es generalizing reg with
  | nil =>
      cases h
      rfl
  | cons e es ih =>
      rw [freeAll, Option.bind_eq_some_iff] at h
      obtain ⟨reg₁, h_one, h_rest⟩ := h
      simp only [blkBlexFreeTaskIoc, Option.bind_eq_bind, Option.bind_eq_some_iff] at h_one
      obtain ⟨hctx, -, h_clear⟩ := h_one
      exact (ih h_rest).trans (clearMaps_info h_clear)

theorem step_inv {e : Event} (h : Inv L s) (h_step : step env s e = some s') : Inv L s' := by
  have of_store {reg : NqRegulator} {task q : Nat} {entry : Option TaskIoc}
      (h_info : reg.blexInfo = s.reg.blexInfo)
      (h_entry : ∀ ioc, entry = some ioc → EntryOk s.reg.blexInfo ioc) :
      Inv L { s with reg := reg, live := store s.live task q entry } := by
    refine ⟨h_info.trans h.info, ?_⟩
    intro e h_mem
    cases entry with
    | none => exact h.entries e (List.mem_of_mem_eraseP h_mem)
    | some ioc =>
        rcases List.mem_cons.mp h_mem with rfl | h_old
        · rw [← h.info]
          exact h_entry ioc rfl
        · exact h.entries e (List.mem_of_mem_eraseP h_old)
  cases e with
  | reqAlloc task q bioIoprio cmdFlags =>
      simp only [step, Option.bind_eq_bind, Option.bind_eq_some_iff] at h_step
      obtain ⟨ioc, -, hctx, -, h_eq⟩ := h_step
      cases h_eq
      exact h
  | tagWait task q =>
      simp only [step, Option.bind_eq_bind, Option.bind_eq_some_iff] at h_step
      obtain ⟨ioc, -, h_step⟩ := h_step
      split at h_step
      · cases h_step
        exact h
      · cases h_step
  | task e =>
      cases e with
      | profile task q call =>
          simp only [step, Sched.step, Option.bind_eq_bind, Option.bind_eq_some_iff] at h_step
          obtain ⟨⟨reg, entry⟩, h_profile, h_eq⟩ := h_step
          cases h_eq
          obtain ⟨h_info, h_entry⟩ := tenantIocProfile_ok (fun ioc h_eq => h.lookup h_eq) h_profile
          exact of_store h_info h_entry
      | setIoprio task prio =>
          cases h_step
          refine ⟨h.info, ?_⟩
          intro e h_mem
          have h_mark : ∃ e₀ ∈ s.live, e.ioc.hctx = e₀.ioc.hctx ∧
              e.ioc.blexIoprio = e₀.ioc.blexIoprio := by
            dsimp only at h_mem
            split at h_mem
            · obtain ⟨e₀, h_mem₀, rfl⟩ := List.mem_map.mp h_mem
              refine ⟨e₀, h_mem₀, ?_⟩
              unfold markNeedUpdate
              split <;> exact ⟨rfl, rfl⟩
            · exact ⟨e, h_mem, rfl, rfl⟩
          obtain ⟨e₀, h_mem₀, h_hctx, h_prio⟩ := h_mark
          exact (h.entries e₀ h_mem₀).congr h_hctx h_prio
      | exit task =>
          simp only [step, Sched.step, Option.bind_eq_bind, Option.bind_eq_some_iff] at h_step
          obtain ⟨reg, h_free, h_eq⟩ := h_step
          cases h_eq
          exact ⟨(freeAll_info h_free).trans h.info,
            fun e h_mem => h.entries e (List.mem_of_mem_filter h_mem)⟩
      | stats nqid stats =>
          simp only [step, Sched.step, Option.bind_eq_bind, Option.bind_eq_some_iff] at h_step
          obtain ⟨reg, h_stats, h_eq⟩ := h_step
          cases h_eq
          obtain ⟨enq, -, rfl⟩ := Option.map_eq_some_iff.mp h_stats
          exact ⟨h.info, h.entries⟩

theorem reach_inv (h : Lts.Reach (step env) Lts.anyStep (Init env L) s) : Inv L s := by
  apply h.invariant
  · rintro s ⟨⟨qDepth, h_reg⟩, h_live⟩
    obtain ⟨reg₀, h_init, h_eq⟩ := Option.map_eq_some_iff.mp h_reg
    refine ⟨?_, ?_⟩
    · rw [← h_eq]
      have h_info := allocAndInit_info h_init
      exact h_info
    · rw [h_live]
      exact fun e h_mem => absurd h_mem List.not_mem_nil
  · intro s e s' h_inv _ h_step
    exact step_inv h_inv h_step

/-- In every state of every run, the next event uses base priorities as indices exactly when it
is not one of the two that meet an outlier. -/
theorem indices_inRange_iff (h : Lts.Reach (step env) Lts.anyStep (Init env L) s) (e : Event) :
    (∀ i ∈ indices env s e, i < blkBlexPrioLevel) ↔ InRange env s e := by
  have h_inv := reach_inv h
  have h_nil : ∀ i ∈ ([] : List Nat), i < blkBlexPrioLevel :=
    fun i h_mem => absurd h_mem List.not_mem_nil
  cases e with
  | task e =>
      cases e with
      | profile task q call =>
          simp only [indices, InRange]
          cases h_lookup : s.lookup task q with
          | none => exact iff_of_true profileIndices_new (fun ioc h_eq => by cases h_eq)
          | some ioc =>
              simp only [profileIndices_found (h_inv.lookup h_lookup), Option.some.injEq,
                forall_eq']
      | setIoprio task prio => exact iff_of_true h_nil trivial
      | exit task => exact iff_of_true h_nil trivial
      | stats nqid stats => exact iff_of_true h_nil trivial
  | reqAlloc task q bioIoprio cmdFlags =>
      refine iff_of_true ?_ trivial
      simp only [indices]
      cases s.lookup task q with
      | none => exact h_nil
      | some ioc =>
          simp only [reqAllocIndices]
          split
          · exact h_nil
          · decide
  | tagWait task q =>
      simp only [indices, InRange]
      cases h_lookup : s.lookup task q with
      | none => exact iff_of_true h_nil (fun ioc h_eq => by cases h_eq)
      | some ioc =>
          have h_lt := (h_inv.lookup h_lookup).prio.lt_iff
          simp only [getTagIndices, Option.some.injEq, forall_eq']
          split
          case isTrue h_opt =>
            rw [List.forall_mem_singleton, h_lt, or_iff_right h_opt]
          case isFalse h_opt => exact iff_of_true h_nil (.inl (not_not.mp h_opt))

/-- A task on CPU 0 with one asynchronous bio waits for a tag. -/
theorem indices_inRange_iff_tagWait :
    ∃ s, Lts.run (step (.default 4)) fourNqsIdle [.task (.profile 0 0 (bioOn 0 0))] = some s ∧
      ((∀ i ∈ indices (.default 4) s (.tagWait 0 0), i < blkBlexPrioLevel) ↔
        InRange (.default 4) s (.tagWait 0 0)) := by
  have h_some : (Lts.run (step (.default 4)) fourNqsIdle
      [.task (.profile 0 0 (bioOn 0 0))]).isSome = true := by decide +kernel
  obtain ⟨s, h_run⟩ := Option.isSome_iff_exists.mp h_some
  have h_reach : Lts.Reach (step (.default 4)) Lts.anyStep (Init (.default 4) fourNqs) s :=
    Lts.reach_iff_run.mpr ⟨_, _, fourNqsIdle_init, h_run⟩
  exact ⟨s, h_run, indices_inRange_iff h_reach (.tagWait 0 0)⟩

/-- One asynchronous bio and ten synchronous ones make the task an outlier, and the next wait for
a tag uses its priority as an index.  So does the bio after a change of ioprio. -/
theorem outlierTask_indexesOutside :
    (∃ s, Lts.Reach (step (.default 4)) Lts.anyStep (Init (.default 4) fourNqs) s ∧
      indices (.default 4) s (.tagWait 0 0) = [3]) ∧
    ∃ s, Lts.Reach (step (.default 4)) Lts.anyStep (Init (.default 4) fourNqs) s ∧
      indices (.default 4) s (.task (.profile 0 0 (bioOn 0 2048))) = [3] := by
  have h_wait : (Lts.run (step (.default 4)) fourNqsIdle (outlierBios.map .task)).map
      (fun s => indices (.default 4) s (.tagWait 0 0)) = some [3] := by decide +kernel
  have h_bio : (Lts.run (step (.default 4)) fourNqsIdle
      ((outlierBios ++ [Sched.Event.setIoprio 0 1]).map .task)).map
      (fun s => indices (.default 4) s (.task (.profile 0 0 (bioOn 0 2048)))) = some [3] := by
    decide +kernel
  obtain ⟨s, h_s, h_eq⟩ := Option.map_eq_some_iff.mp h_wait
  obtain ⟨s', h_s', h_eq'⟩ := Option.map_eq_some_iff.mp h_bio
  exact ⟨⟨s, Lts.reach_iff_run.mpr ⟨_, _, fourNqsIdle_init, h_s⟩, h_eq⟩,
    ⟨s', Lts.reach_iff_run.mpr ⟨_, _, fourNqsIdle_init, h_s'⟩, h_eq'⟩⟩

end PrioIndex

end Sched

end Daredevil
