/-
  Daredevil.Sched.Route

  `blk_blex_sched_hctx`: the queue of a task when it is initialised or updated, and
  the queue of a request when it is allocated or finds no tag.

  A task is scheduled into the group of its priority and keeps its hctx; a request
  uses the hctx of its task, unless it is a high-priority request of a T task.
  Such a request is promoted to a queue computed from the CPU of the task.

  hctxs are their `queue_num`; `none` is NULL.  Queue `nqid` belongs to hctx
  `nqid - 1`, but a promoted request uses the id it computed as the hctx number.
-/
import Daredevil.Lib.Lts
import Daredevil.Sched.UsageMap

namespace Daredevil

namespace Sched

/-! ## hctxs and queue ids -/

/-- `blk_blex_hctx_to_nqid` -/
def blkBlexHctxToNqid (queueNum : Nat) : Nat := queueNum + 1

/-- `xa_load` of `q->hctx_table`, which holds the hctxs `0 .. max_nqid - 1`. -/
def xaLoadHctx (info : BlkBlexDevInfo) (idx : Int) : Option Nat :=
  if 0 ≤ idx ∧ idx < info.maxNqid then some idx.toNat else none

/-- `blk_blex_nqid_to_hctx` -/
def blkBlexNqidToHctx (info : BlkBlexDevInfo) (nqid : Int) : Option Nat :=
  xaLoadHctx info (if nqid = 0 then nqid else nqid - 1)

/-! ## Tasks, bios and callers -/

/-- `struct blk_blex_task_ioc` -/
structure TaskIoc where
  nrSyncReqs : Nat
  nrAsyncReqs : Nat
  lastWorkingCpu : Nat
  hctx : Option Nat
  outlierHctx : Option Nat
  needUpdate : Bool
  blexIoprio : Nat
  deriving DecidableEq, Repr

/-- What a call finds around it. -/
structure Caller where
  /-- `get_cpu()` -/
  cpu : Nat
  /-- `task_cpu(parent_task)` -/
  taskCpu : Nat
  /-- `current == parent_task` -/
  isCurrent : Bool
  /-- no tag of the hctx's tags is free -/
  full : Nat → Bool

/-- `enum blk_blex_sched_context` -/
inductive SchedContext where
  | taskInit
  | taskUpdate
  | req
  | noTag
  deriving DecidableEq, Repr

/-- `blk_blex_ioprio_simple_map` -/
def blkBlexIoprioSimpleMap (env : Env) (prio : Nat) : Nat :=
  if env.ioprioPrioClass prio = env.ioprioClassRt then blkBlexLPrio else blkBlexTPrio

/-- `blk_blex_is_high_prio` -/
def blkBlexIsHighPrio (env : Env) (cmdFlags : Nat) : Bool :=
  if cmdFlags &&& (env.reqSync ||| env.reqMeta ||| env.reqPrio) ≠ 0 then
    cmdFlags &&& env.reqIdle = 0
  else
    false

/-! ## Round robin -/

/-- `blk_blex_sched_rr_next_nsqid` -/
def blkBlexSchedRrNextNsqid (reg : NqRegulator) (prio : Nat) (type : NqType) :
    Option (NqRegulator × Int) := do
  let group ← reg.group? prio
  match type with
  | .ncq =>
      if group.nrNcqs = 0 then
        none
      else do
        let startNcqIdx :=
          blkBlexCqidToIndex group.ncqStart reg.blexInfo.maxNqid reg.blexInfo.nrCqs
        let selNcqQid := blkBlexGetKthCqid (startNcqIdx + group.rrNcqOffset % group.nrNcqs)
          reg.blexInfo.maxNqid reg.blexInfo.nrCqs
        let ncq ← reg.enq? selNcqQid
        let encq ← ncq.encq
        if encq.nrAttachedNsqs = 0 then
          none
        else
          some ((reg.setGroup prio
              { group with rrNcqOffset := Word32.wrap (group.rrNcqOffset + 1) }).setEnq selNcqQid
              { ncq with encq := ncq.encq.map fun encq =>
                  { encq with rrNsqOffset := Word32.wrap (encq.rrNsqOffset + 1) } },
            (selNcqQid + encq.rrNsqOffset % encq.nrAttachedNsqs : Nat))
  | .nsq =>
      if group.nrAttachNsqs = 0 then
        none
      else
        -- both operands of this remainder are `int`
        some (reg.setGroup prio { group with rrNsqOffset := Word32.wrap (group.rrNsqOffset + 1) },
          group.ncqStart + (Word32.signed group.rrNsqOffset).tmod group.nrAttachNsqs)

/-- `blk_blex_sched_rr_next_nq` -/
def blkBlexSchedRrNextNq (reg : NqRegulator) (prio : Nat) (type : NqType) :
    Option (NqRegulator × Option Nat) :=
  (blkBlexSchedRrNextNsqid reg prio type).map fun (reg, nqid) =>
    (reg, blkBlexNqidToHctx reg.blexInfo nqid)

/-! ## Scheduling a task -/

/-- `blk_blex_sched_update_mappings`; the old eNQ is given in the update context only. -/
def blkBlexSchedUpdateMappings (reg : NqRegulator) (cpu schedEnq : Nat) (oldEnq : Option Nat) :
    Option NqRegulator := do
  let reg ← blkBlexSetMaps reg cpu schedEnq
  match oldEnq with
  | none => some reg
  | some oldEnq => blkBlexClearMaps reg cpu oldEnq

/-- `blk_blex_sched_task_init` -/
def blkBlexSchedTaskInit (env : Env) (c : Caller) (reg : NqRegulator) (ioc : TaskIoc) :
    Option (NqRegulator × TaskIoc × Option Nat) :=
  if env.blexOptLevel < 2 then do
    -- no reference is taken and the CPU is not recorded
    let (reg, nqid) ← blkBlexSchedRrNextNsqid reg ioc.blexIoprio .nsq
    some (reg, ioc, blkBlexNqidToHctx reg.blexInfo nqid)
  else do
    let (reg, selEnq) ← blkBlexRecommendNsq env reg ioc.blexIoprio true 0 0
    let enq ← reg.enq? selEnq
    let reg ← blkBlexSchedUpdateMappings reg c.cpu selEnq none
    some (reg, { ioc with lastWorkingCpu := c.cpu }, blkBlexNqidToHctx reg.blexInfo enq.nqid)

/-- `blk_blex_sched_nq_allright` in the update context -/
def blkBlexSchedNqAllright (env : Env) (reg : NqRegulator) (prio nqid : Nat) : Option Bool := do
  let enq ← reg.enq? nqid
  if enq.prio = prio then
    if env.blexOptLevel = 2 then
      (blkBlexPeekRecommend reg prio).map fun top => nqid == top
    else
      some true
  else
    some false

/-- The choice of `blk_blex_sched_task_update`: the hctx, and `sched_enq` when it is set. -/
def chooseUpdateNq (env : Env) (reg : NqRegulator) (ioprio oldHctx : Nat) (allright : Bool) :
    Option (NqRegulator × Option Nat × Option Nat) :=
  if allright then
    some (reg, none, some oldHctx)
  else if env.blexOptLevel = 1 then do
    let (reg, nqid) ← blkBlexSchedRrNextNsqid reg ioprio .nsq
    some (reg, none, blkBlexNqidToHctx reg.blexInfo nqid)
  else do
    let (reg, schedEnq) ← blkBlexRecommendNsq env reg ioprio false env.prioArrMru 1
    let enq ← reg.enq? schedEnq
    some (reg, some schedEnq, blkBlexNqidToHctx reg.blexInfo enq.nqid)

/-- The maps when a task moves to another queue. -/
def moveMaps (c : Caller) (reg : NqRegulator) (ioc : TaskIoc) (schedEnq oldEnq : Nat) :
    Option NqRegulator :=
  if ioc.lastWorkingCpu ≠ c.taskCpu then do
    -- the old queue is cleared here on the old CPU, and below again on this one
    let reg ← blkBlexClearMaps reg ioc.lastWorkingCpu oldEnq
    blkBlexSchedUpdateMappings reg c.cpu schedEnq (some oldEnq)
  else
    blkBlexSchedUpdateMappings reg c.cpu schedEnq (some oldEnq)

/-- `blk_blex_sched_task_update` -/
def blkBlexSchedTaskUpdate (env : Env) (c : Caller) (reg : NqRegulator) (ioprio : Nat)
    (ioc : TaskIoc) : Option (NqRegulator × TaskIoc × Option Nat) := do
  let oldHctx ← ioc.hctx
  let allright ← blkBlexSchedNqAllright env reg ioprio (blkBlexHctxToNqid oldHctx)
  let (reg, schedEnq, schedHctx) ← chooseUpdateNq env reg ioprio oldHctx allright
  if env.blexOptLevel = 1 then
    some (reg, ioc, schedHctx)
  else if schedHctx ≠ none ∧ schedHctx ≠ some oldHctx then do
    let schedEnq ← schedEnq
    let reg ← moveMaps c reg ioc schedEnq (blkBlexHctxToNqid oldHctx)
    some (reg, { ioc with lastWorkingCpu := c.cpu }, schedHctx)
  else
    some (reg, ioc, schedHctx)

/-! ## Scheduling a request -/

/-- `blk_blex_sched_get_non_default_nqid` -/
def blkBlexSchedGetNonDefaultNqid (env : Env) (reg : NqRegulator) (ioc : TaskIoc) :
    Option Int := do
  let group ← reg.group? blkBlexLPrio
  let cpu : Int := ioc.lastWorkingCpu
  let nrTotCpus : Int := env.nrCpuIds
  -- the start of the L group enters the modulus only, not the result
  let nrLPrioNqs : Int := reg.blexInfo.maxNqid - group.ncqStart + 1
  if nrLPrioNqs = 0 then
    none
  else if cpu ≤ nrTotCpus.tdiv 2 then
    some (cpu.tmod nrLPrioNqs + 1)
  else
    some ((nrTotCpus - cpu - 1).tmod nrLPrioNqs + 1)

/-- A high-priority request of a task without the L bit does not use the task's hctx. -/
def useDefault (env : Env) (ioc : TaskIoc) (bioIoprio cmdFlags : Nat) : Bool :=
  !(ioc.blexIoprio &&& blkBlexLPrioMask == 0 &&
    (blkBlexIoprioSimpleMap env bioIoprio &&& blkBlexLPrioMask != 0 ||
      blkBlexIsHighPrio env cmdFlags))

/-- `blk_blex_sched_req_alloc` -/
def blkBlexSchedReqAlloc (env : Env) (reg : NqRegulator) (ioc : TaskIoc)
    (bioIoprio cmdFlags : Nat) : Option (Option Nat) :=
  if useDefault env ioc bioIoprio cmdFlags then
    some ioc.hctx
  else if ioc.blexIoprio = blkBlexOutlierPrio then
    some ioc.outlierHctx
  else do
    let nqid ← blkBlexSchedGetNonDefaultNqid env reg ioc
    -- a queue id, looked up in the table of hctx numbers
    some (xaLoadHctx reg.blexInfo nqid)

/-- The first choice of `blk_blex_sched_no_tag`. -/
def noTagFirst (env : Env) (reg : NqRegulator) (oldEnq : ExposedNq) :
    Option (NqRegulator × Option Nat) :=
  if env.blexOptLevel = 1 then
    blkBlexSchedRrNextNq reg oldEnq.prio .ncq
  else do
    let group ← oldEnq.group
    let reg ← updateGroupArr env reg group env.prioArrMru blexSchedMeritInf
    let (reg, schedEnq) ← blkBlexRecommendNsq env reg oldEnq.prio false 0 1
    let enq ← reg.enq? schedEnq
    some (reg, blkBlexNqidToHctx reg.blexInfo enq.nqid)

/-- `blk_blex_sched_no_tag` -/
def blkBlexSchedNoTag (env : Env) (c : Caller) (reg : NqRegulator) (ioc : TaskIoc)
    (oldHctx : Nat) : Option (NqRegulator × TaskIoc × Option Nat) :=
  if !c.isCurrent then
    some (reg, ioc, none)
  else do
    let oldEnq ← reg.enq? (blkBlexHctxToNqid oldHctx)
    -- the default hctx of the task is out of tags
    let ioc := if ioc.hctx = some oldHctx then { ioc with needUpdate := true } else ioc
    let (reg, first) ← noTagFirst env reg oldEnq
    let first ← first
    if !c.full first then
      some (reg, ioc, some first)
    else do
      -- one more try, and then the queue of a promoted request, full or not
      let (reg, second) ← blkBlexSchedRrNextNq reg oldEnq.prio .ncq
      let second ← second
      if !c.full second then
        some (reg, ioc, some second)
      else do
        let nqid ← blkBlexSchedGetNonDefaultNqid env reg ioc
        some (reg, ioc, blkBlexNqidToHctx reg.blexInfo nqid)

/-- `blk_blex_sched_hctx`; a bio is its `bi_ioprio`. -/
def blkBlexSchedHctx (env : Env) (c : Caller) (reg : NqRegulator) (ioc : TaskIoc)
    (oldHctx bio : Option Nat) (info : Nat) (context : SchedContext) :
    Option (NqRegulator × TaskIoc × Option Nat) :=
  match context with
  | .taskInit => blkBlexSchedTaskInit env c reg ioc
  | .taskUpdate => blkBlexSchedTaskUpdate env c reg info ioc
  | .req => do
      let bioIoprio ← bio
      let hctx ← blkBlexSchedReqAlloc env reg ioc bioIoprio info
      some (reg, ioc, hctx)
  | .noTag => do
      let oldHctx ← oldHctx
      blkBlexSchedNoTag env c reg ioc oldHctx

/-! ## What a scheduling call keeps and returns -/

variable {L : QueueLayout} {reg reg' : NqRegulator} {env : Env} {c : Caller} {ioc ioc' : TaskIoc}

theorem nqidToHctx_eq {info : BlkBlexDevInfo} {nqid : Nat} (h_pos : 1 ≤ nqid)
    (h_le : nqid ≤ info.maxNqid) : blkBlexNqidToHctx info nqid = some (nqid - 1) := by
  have h_ne : (nqid : Int) ≠ 0 := by omega
  have h_range : 0 ≤ (nqid : Int) - 1 ∧ (nqid : Int) - 1 < info.maxNqid := by omega
  rw [blkBlexNqidToHctx, if_neg h_ne, xaLoadHctx, if_pos h_range]
  congr 1
  omega

/-- The round robin advances its own counters: that of the group's NSQs, or that of its NCQs and
that of the NSQs of the NCQ it selects. -/
theorem rrNextNsqid_cases {prio : Nat} {type : NqType} {nqid : Int}
    (h_rr : blkBlexSchedRrNextNsqid reg prio type = some (reg', nqid)) :
    prio < blkBlexPrioLevel ∧
      ((∃ rrNsqOffset, reg' = reg.setGroup prio { reg.nqGroups prio with rrNsqOffset }) ∨
        ∃ rrNcqOffset cqid, reg.enq? cqid = some (reg.enqs cqid) ∧
          reg' = (reg.setGroup prio { reg.nqGroups prio with rrNcqOffset }).setEnq cqid
            { reg.enqs cqid with encq := (reg.enqs cqid).encq.map fun encq =>
                { encq with rrNsqOffset := Word32.wrap (encq.rrNsqOffset + 1) } }) := by
  simp only [blkBlexSchedRrNextNsqid, Option.bind_eq_bind, Option.bind_eq_some_iff] at h_rr
  obtain ⟨group, h_group, h_rr⟩ := h_rr
  obtain ⟨h_prio, rfl⟩ := group?_some h_group
  refine ⟨h_prio, ?_⟩
  cases type with
  | nsq =>
      dsimp only at h_rr
      split at h_rr
      · cases h_rr
      · cases h_rr
        exact .inl ⟨_, rfl⟩
  | ncq =>
      dsimp only at h_rr
      split at h_rr
      · cases h_rr
      · simp only [Option.bind_eq_some_iff] at h_rr
        obtain ⟨ncq, h_ncq, encq, -, h_rr⟩ := h_rr
        obtain rfl := enq?_eq_enqs h_ncq
        split at h_rr
        · cases h_rr
        · cases h_rr
          exact .inr ⟨_, _, h_ncq, rfl⟩

theorem rrNextNsqid_wf (h : RegWf L reg) {prio : Nat} {type : NqType} {nqid : Int}
    (h_rr : blkBlexSchedRrNextNsqid reg prio type = some (reg', nqid)) : RegWf L reg' := by
  obtain ⟨h_prio, h_cases⟩ := rrNextNsqid_cases h_rr
  have h_groupWf := h.group prio h_prio
  rcases h_cases with ⟨offset, rfl⟩ | ⟨offset, cqid, h_enq, rfl⟩
  · exact h.setGroup ⟨h_groupWf.1, h_groupWf.2, h_groupWf.3, h_groupWf.4, h_groupWf.5⟩
  · obtain ⟨-, -, -, h_ncqWf⟩ := h.enq?_some h_enq
    refine (h.setGroup ?_).setEnq (h_ncqWf.mapEncq _ ?_)
    · exact ⟨h_groupWf.1, h_groupWf.2, h_groupWf.3, h_groupWf.4, h_groupWf.5⟩
    · exact fun _ h_e => ⟨h_e.1, h_e.2, h_e.3⟩

theorem rrNextNq_wf (h : RegWf L reg) {prio : Nat} {type : NqType} {hctx : Option Nat}
    (h_rr : blkBlexSchedRrNextNq reg prio type = some (reg', hctx)) : RegWf L reg' := by
  obtain ⟨⟨reg₁, nqid⟩, h_next, h_eq⟩ := Option.map_eq_some_iff.mp h_rr
  cases h_eq
  exact rrNextNsqid_wf h h_next

/-- Scheduling a task onto `schedEnq` takes a reference, leaving `oldEnq` drops one. -/
theorem updateMappings_spec (h : RegWf L reg) {cpu schedEnq : Nat} {oldEnq : Option Nat}
    (h_upd : blkBlexSchedUpdateMappings reg cpu schedEnq oldEnq = some reg') :
    RegWf L reg' ∧ ∀ refs, MapsInv reg refs → MapsInv reg'
      (match oldEnq with
        | none => (cpu, schedEnq) ::ₘ refs
        | some old => ((cpu, schedEnq) ::ₘ refs).erase (cpu, old)) := by
  simp only [blkBlexSchedUpdateMappings, Option.bind_eq_bind, Option.bind_eq_some_iff] at h_upd
  obtain ⟨reg₁, h_set, h_upd⟩ := h_upd
  have h₁ := (setMaps_spec h h_set).1
  cases oldEnq with
  | none =>
      cases h_upd
      exact ⟨h₁, fun refs h_refs => (h_refs.setMaps h h_set).2⟩
  | some old =>
      dsimp only at h_upd
      exact ⟨(clearMaps_spec h₁ h_upd).1,
        fun refs h_refs => ((h_refs.setMaps h h_set).2.clearMaps h₁ h_upd).2⟩

/-- A queue of the group `prio`, and the hctx it belongs to. -/
structure QueueOf (L : QueueLayout) (prio nqid : Nat) (hctx : Option Nat) : Prop where
  pos : 1 ≤ nqid
  le : nqid ≤ L.maxNqid
  prio_eq : L.prioOf nqid = prio
  hctx_eq : hctx = some (nqid - 1)

theorem recommend_queueOf (h : RegWf L reg) (h_groups : 2 ≤ L.nrCqs) {prio enq : Nat}
    {roundRobin : Bool} {ncqMru nsqMru : Int} {e : ExposedNq}
    (h_rec : blkBlexRecommendNsq env reg prio roundRobin ncqMru nsqMru = some (reg', enq))
    (h_e : reg'.enq? enq = some e) :
    RegWf L reg' ∧ SameMaps reg reg' ∧ e.nqid = enq ∧
      QueueOf L prio enq (blkBlexNqidToHctx L.toBlkBlexDevInfo enq) := by
  obtain ⟨h', h_maps, h_pos, h_le, h_prio⟩ := recommendNsq_spec h h_groups h_rec
  obtain ⟨-, -, -, h_eWf⟩ := h'.enq?_some h_e
  exact ⟨h', h_maps, h_eWf.nqid_eq, h_pos, h_le, h_prio, nqidToHctx_eq h_pos h_le⟩

/-- A new task is scheduled round robin, or recommended a queue that it is then counted on. -/
theorem taskInit_cases {hctx : Option Nat}
    (h_init : blkBlexSchedTaskInit env c reg ioc = some (reg', ioc', hctx)) :
    (env.blexOptLevel < 2 ∧ ioc' = ioc ∧ ∃ nqid,
      blkBlexSchedRrNextNsqid reg ioc.blexIoprio .nsq = some (reg', nqid) ∧
        hctx = blkBlexNqidToHctx reg'.blexInfo nqid) ∨
    (2 ≤ env.blexOptLevel ∧ ioc' = { ioc with lastWorkingCpu := c.cpu } ∧ ∃ reg₁ selEnq enq,
      blkBlexRecommendNsq env reg ioc.blexIoprio true 0 0 = some (reg₁, selEnq) ∧
        reg₁.enq? selEnq = some enq ∧
        blkBlexSchedUpdateMappings reg₁ c.cpu selEnq none = some reg' ∧
        hctx = blkBlexNqidToHctx reg'.blexInfo enq.nqid) := by
  unfold blkBlexSchedTaskInit at h_init
  split at h_init
  case isTrue h_low =>
    simp only [Option.bind_eq_bind, Option.bind_eq_some_iff] at h_init
    obtain ⟨⟨reg₁, nqid⟩, h_rr, h_eq⟩ := h_init
    cases h_eq
    exact .inl ⟨h_low, rfl, nqid, h_rr, rfl⟩
  case isFalse h_high =>
    simp only [Option.bind_eq_bind, Option.bind_eq_some_iff] at h_init
    obtain ⟨⟨reg₁, selEnq⟩, h_rec, enq, h_enq, reg₂, h_upd, h_eq⟩ := h_init
    cases h_eq
    exact .inr ⟨Int.not_lt.mp h_high, rfl, reg₁, selEnq, enq, h_rec, h_enq, h_upd, rfl⟩

theorem taskInit_wf (h : RegWf L reg) (h_groups : 2 ≤ L.nrCqs) {hctx : Option Nat}
    (h_init : blkBlexSchedTaskInit env c reg ioc = some (reg', ioc', hctx)) : RegWf L reg' := by
  rcases taskInit_cases h_init with
    ⟨-, -, nqid, h_rr, -⟩ | ⟨-, -, reg₁, selEnq, enq, h_rec, -, h_upd, -⟩
  · exact rrNextNsqid_wf h h_rr
  · exact (updateMappings_spec (recommendNsq_spec h h_groups h_rec).1 h_upd).1

/-- A new task is put on a queue of its group, which it is then counted on. -/
theorem taskInit_spec (h : RegWf L reg) (h_groups : 2 ≤ L.nrCqs) (h_opt : env.blexOptLevel = 2)
    {hctx : Option Nat}
    (h_init : blkBlexSchedTaskInit env c reg ioc = some (reg', ioc', hctx)) :
    ∃ nqid, QueueOf L ioc.blexIoprio nqid hctx ∧ ioc' = { ioc with lastWorkingCpu := c.cpu } ∧
      ∀ refs, MapsInv reg refs → MapsInv reg' ((c.cpu, nqid) ::ₘ refs) := by
  rcases taskInit_cases h_init with ⟨h_low, -⟩ | ⟨-, h_ioc, reg₁, selEnq, e, h_rec, h_e, h_upd, rfl⟩
  · omega
  · obtain ⟨h₁, h_maps, h_nqid, h_queue⟩ := recommend_queueOf h h_groups h_rec h_e
    obtain ⟨h₂, h_refs⟩ := updateMappings_spec h₁ h_upd
    refine ⟨selEnq, ?_, h_ioc, fun refs h_inv => h_refs refs (h_inv.of_sameMaps h_maps)⟩
    rw [h₂.info, h_nqid]
    exact h_queue

theorem moveMaps_spec (h : RegWf L reg) {schedEnq oldEnq : Nat}
    (h_move : moveMaps c reg ioc schedEnq oldEnq = some reg') :
    RegWf L reg' ∧ (ioc.lastWorkingCpu = c.taskCpu → ∀ refs, MapsInv reg refs →
      MapsInv reg' (((c.cpu, schedEnq) ::ₘ refs).erase (c.cpu, oldEnq))) := by
  unfold moveMaps at h_move
  split at h_move
  case isTrue h_ne =>
    simp only [Option.bind_eq_bind, Option.bind_eq_some_iff] at h_move
    obtain ⟨reg₁, h_clear, h_upd⟩ := h_move
    exact ⟨(updateMappings_spec (clearMaps_spec h h_clear).1 h_upd).1,
      fun h_eq => absurd h_eq h_ne⟩
  case isFalse =>
    obtain ⟨h', h_refs⟩ := updateMappings_spec h h_move
    exact ⟨h', fun _ => h_refs⟩

theorem chooseUpdateNq_wf (h : RegWf L reg) (h_groups : 2 ≤ L.nrCqs) {ioprio oldHctx : Nat}
    {allright : Bool} {schedEnq hctx : Option Nat}
    (h_choose : chooseUpdateNq env reg ioprio oldHctx allright = some (reg', schedEnq, hctx)) :
    RegWf L reg' := by
  unfold chooseUpdateNq at h_choose
  split at h_choose
  · cases h_choose
    exact h
  · split at h_choose
    · simp only [Option.bind_eq_bind, Option.bind_eq_some_iff] at h_choose
      obtain ⟨⟨reg₁, nqid⟩, h_rr, h_eq⟩ := h_choose
      cases h_eq
      exact rrNextNsqid_wf h h_rr
    · simp only [Option.bind_eq_bind, Option.bind_eq_some_iff] at h_choose
      obtain ⟨⟨reg₁, enq⟩, h_rec, e, -, h_eq⟩ := h_choose
      cases h_eq
      exact (recommendNsq_spec h h_groups h_rec).1

/-- An updated task keeps its maps, or they move from its queue to the one chosen for it. -/
theorem taskUpdate_cases {ioprio : Nat} {hctx : Option Nat}
    (h_upd : blkBlexSchedTaskUpdate env c reg ioprio ioc = some (reg', ioc', hctx)) :
    ∃ old allright reg₁ schedEnq, ioc.hctx = some old ∧
      blkBlexSchedNqAllright env reg ioprio (blkBlexHctxToNqid old) = some allright ∧
      chooseUpdateNq env reg ioprio old allright = some (reg₁, schedEnq, hctx) ∧
      ((env.blexOptLevel = 1 ∨ hctx = none ∨ hctx = some old) ∧ reg' = reg₁ ∧ ioc' = ioc ∨
        hctx ≠ some old ∧ ioc' = { ioc with lastWorkingCpu := c.cpu } ∧
          ∃ enq, schedEnq = some enq ∧
            moveMaps c reg₁ ioc enq (blkBlexHctxToNqid old) = some reg') := by
  simp only [blkBlexSchedTaskUpdate, Option.bind_eq_bind, Option.bind_eq_some_iff] at h_upd
  obtain ⟨old, h_old, allright, h_ok, ⟨reg₁, schedEnq, schedHctx⟩, h_choose, h_upd⟩ := h_upd
  refine ⟨old, allright, reg₁, schedEnq, h_old, h_ok, ?_⟩
  split at h_upd
  case isTrue h_baseline =>
    cases h_upd
    exact ⟨h_choose, .inl ⟨.inl h_baseline, rfl, rfl⟩⟩
  case isFalse =>
    split at h_upd
    case isTrue h_new =>
      simp only [Option.bind_eq_some_iff] at h_upd
      obtain ⟨enq, h_enq, reg₂, h_move, h_eq⟩ := h_upd
      cases h_eq
      exact ⟨h_choose, .inr ⟨h_new.2, rfl, enq, h_enq, h_move⟩⟩
    case isFalse h_same =>
      cases h_upd
      exact ⟨h_choose, .inl ⟨.inr (by tauto), rfl, rfl⟩⟩

theorem taskUpdate_wf (h : RegWf L reg) (h_groups : 2 ≤ L.nrCqs) {ioprio : Nat}
    {hctx : Option Nat}
    (h_upd : blkBlexSchedTaskUpdate env c reg ioprio ioc = some (reg', ioc', hctx)) :
    RegWf L reg' := by
  obtain ⟨old, allright, reg₁, schedEnq, -, -, h_choose, h_cases⟩ := taskUpdate_cases h_upd
  have h₁ := chooseUpdateNq_wf h h_groups h_choose
  rcases h_cases with ⟨-, rfl, -⟩ | ⟨-, -, enq, -, h_move⟩
  · exact h₁
  · exact (moveMaps_spec h₁ h_move).1

/-- A queue is only found all right for its own priority. -/
theorem nqAllright_spec (h : RegWf L reg) {prio old : Nat}
    (h_ok : blkBlexSchedNqAllright env reg prio (blkBlexHctxToNqid old) = some true) :
    QueueOf L prio (old + 1) (some old) := by
  simp only [blkBlexSchedNqAllright, Option.bind_eq_bind, Option.bind_eq_some_iff] at h_ok
  obtain ⟨enq, h_enq, h_ok⟩ := h_ok
  obtain ⟨h_pos, h_le, rfl, h_enqWf⟩ := h.enq?_some h_enq
  split at h_ok
  case isTrue h_prio =>
    rw [h_enqWf.prio_eq] at h_prio
    exact ⟨h_pos, h_le, h_prio, rfl⟩
  case isFalse => cases h_ok

/-- An updated task is on a queue of the requested group; if that is a new queue, the
count moves with it. -/
theorem taskUpdate_spec (h : RegWf L reg) (h_groups : 2 ≤ L.nrCqs) (h_opt : env.blexOptLevel = 2)
    {ioprio old : Nat} {hctx : Option Nat} (h_old : ioc.hctx = some old)
    (h_upd : blkBlexSchedTaskUpdate env c reg ioprio ioc = some (reg', ioc', hctx)) :
    ∃ nqid, QueueOf L ioprio nqid hctx ∧
      ((nqid = old + 1 ∧ ioc' = ioc ∧ ∀ refs, MapsInv reg refs → MapsInv reg' refs) ∨
        (ioc' = { ioc with lastWorkingCpu := c.cpu } ∧
          (ioc.lastWorkingCpu = c.taskCpu → ∀ refs, MapsInv reg refs →
            MapsInv reg' (((c.cpu, nqid) ::ₘ refs).erase (c.cpu, old + 1))))) := by
  have h_notBaseline : ¬ env.blexOptLevel = 1 := by omega
  obtain ⟨old', allright, reg₁, schedEnq, h_old', h_ok, h_choose, h_cases⟩ := taskUpdate_cases h_upd
  obtain rfl : old = old' := Option.some_inj.mp (h_old.symm.trans h_old')
  cases allright with
  | true =>
      -- the task stays where it is
      cases h_choose
      rcases h_cases with ⟨-, rfl, rfl⟩ | ⟨h_ne, -⟩
      · exact ⟨old + 1, nqAllright_spec h h_ok, .inl ⟨rfl, rfl, fun _ h_refs => h_refs⟩⟩
      · exact absurd rfl h_ne
  | false =>
      simp only [chooseUpdateNq, Bool.false_eq_true, if_false, if_neg h_notBaseline,
        Option.bind_eq_bind, Option.bind_eq_some_iff] at h_choose
      obtain ⟨⟨reg₂, enq⟩, h_rec, e, h_e, h_eq⟩ := h_choose
      obtain ⟨h₁, h_maps, h_nqid, h_queue⟩ := recommend_queueOf h h_groups h_rec h_e
      cases h_eq
      rw [h_nqid, h₁.info] at h_cases ⊢
      refine ⟨enq, h_queue, ?_⟩
      rcases h_cases with ⟨h_same, rfl, rfl⟩ | ⟨-, rfl, enq', h_enq, h_move⟩
      · -- the recommended queue is the one the task is on
        refine .inl ⟨?_, rfl, fun refs h_inv => h_inv.of_sameMaps h_maps⟩
        have h_pos := h_queue.pos
        rw [h_queue.hctx_eq] at h_same
        simp only [h_notBaseline, reduceCtorEq, Option.some.injEq, false_or] at h_same
        omega
      · obtain rfl : enq = enq' := Option.some_inj.mp h_enq
        have h_refs := (moveMaps_spec h₁ h_move).2
        exact .inr ⟨rfl, fun h_cpu refs h_inv =>
          h_refs h_cpu refs (h_inv.of_sameMaps h_maps)⟩

theorem noTag_wf (h : RegWf L reg) (h_groups : 2 ≤ L.nrCqs) {old : Nat} {hctx : Option Nat}
    (h_noTag : blkBlexSchedNoTag env c reg ioc old = some (reg', ioc', hctx)) : RegWf L reg' := by
  rw [blkBlexSchedNoTag] at h_noTag
  split at h_noTag
  · cases h_noTag
    exact h
  simp only [Option.bind_eq_bind, Option.bind_eq_some_iff] at h_noTag
  obtain ⟨oldEnq, -, ⟨reg₁, hctx₁⟩, h_first, first, -, h_noTag⟩ := h_noTag
  -- the first choice, the second if that one is full, and a queue by number if both are
  have h₁ : RegWf L reg₁ := by
    unfold noTagFirst at h_first
    split at h_first
    · exact rrNextNq_wf h h_first
    · simp only [Option.bind_eq_bind, Option.bind_eq_some_iff] at h_first
      obtain ⟨group, -, reg₂, h_upd, ⟨reg₃, enq⟩, h_rec, e, -, h_eq⟩ := h_first
      cases h_eq
      exact (recommendNsq_spec (updateGroupArr_spec h h_upd).1 h_groups h_rec).1
  split at h_noTag
  · cases h_noTag
    exact h₁
  · simp only [Option.bind_eq_some_iff] at h_noTag
    obtain ⟨⟨reg₂, hctx₂⟩, h_second, second, -, h_noTag⟩ := h_noTag
    have h₂ := rrNextNq_wf h₁ h_second
    split at h_noTag
    · cases h_noTag
      exact h₂
    · simp only [Option.bind_eq_some_iff] at h_noTag
      obtain ⟨nqid, -, h_eq⟩ := h_noTag
      cases h_eq
      exact h₂

theorem schedHctx_wf (h : RegWf L reg) (h_groups : 2 ≤ L.nrCqs) {oldHctx bio hctx : Option Nat}
    {info : Nat} {context : SchedContext}
    (h_sched : blkBlexSchedHctx env c reg ioc oldHctx bio info context =
      some (reg', ioc', hctx)) : RegWf L reg' := by
  unfold blkBlexSchedHctx at h_sched
  cases context with
  | taskInit => exact taskInit_wf h h_groups h_sched
  | taskUpdate => exact taskUpdate_wf h h_groups h_sched
  | req =>
      simp only [Option.bind_eq_bind, Option.bind_eq_some_iff] at h_sched
      obtain ⟨_, -, _, -, h_eq⟩ := h_sched
      cases h_eq
      exact h
  | noTag =>
      simp only [Option.bind_eq_bind, Option.bind_eq_some_iff] at h_sched
      obtain ⟨old, -, h_sched⟩ := h_sched
      exact noTag_wf h h_groups h_sched

/-! ## Regulators in use -/

/-- The counters that the driver keeps for a queue. -/
structure NqStats where
  nrInLockNs : Nat
  nrSubmitRqs : Nat
  nrInFlightRqs : Nat
  nrCompleteRqs : Nat
  nrIrqs : Nat

def setStats (reg : NqRegulator) (nqid : Nat) (stats : NqStats) : Option NqRegulator :=
  (reg.enq? nqid).map fun enq => reg.setEnq nqid
    { enq with
      ensq :=
        { enq.ensq with nrInLockNs := stats.nrInLockNs, nrSubmitRqs := stats.nrSubmitRqs }
      encq := enq.encq.map fun encq =>
        { encq with nrInFlightRqs := stats.nrInFlightRqs, nrCompleteRqs := stats.nrCompleteRqs,
                    nrIrqs := stats.nrIrqs } }

/-- What happens to a regulator once it is initialised. -/
inductive RegOp where
  | stats (nqid : Nat) (stats : NqStats)
  | sched (c : Caller) (ioc : TaskIoc) (oldHctx bio : Option Nat) (info : Nat)
      (context : SchedContext)
  | setMaps (cpu enq : Nat)
  | clearMaps (cpu enq : Nat)

def regStep (env : Env) (reg : NqRegulator) : RegOp → Option NqRegulator
  | .stats nqid stats => setStats reg nqid stats
  | .sched c ioc oldHctx bio info context =>
      (blkBlexSchedHctx env c reg ioc oldHctx bio info context).map fun r => r.1
  | .setMaps cpu enq => blkBlexSetMaps reg cpu enq
  | .clearMaps cpu enq => blkBlexClearMaps reg cpu enq

/-- The regulators of the layout `L`, in use. -/
def RegReach (env : Env) (L : QueueLayout) : NqRegulator → Prop :=
  Lts.Reach (regStep env) Lts.anyStep fun reg =>
    ∃ qDepth, regulatorInit env L.toBlkBlexDevInfo qDepth = some reg

theorem setStats_wf (h : RegWf L reg) {nqid : Nat} {stats : NqStats}
    (h_stats : setStats reg nqid stats = some reg') : RegWf L reg' ∧ SameMaps reg reg' := by
  obtain ⟨enq, h_enq, rfl⟩ := Option.map_eq_some_iff.mp h_stats
  obtain ⟨h_pos, h_le, rfl, h_enqWf⟩ := h.enq?_some h_enq
  refine ⟨h.setEnq ?_, .setEnq rfl⟩
  have h_ensq : EnqWf L nqid { reg.enqs nqid with ensq :=
      { (reg.enqs nqid).ensq with
        nrInLockNs := stats.nrInLockNs, nrSubmitRqs := stats.nrSubmitRqs } } :=
    h_enqWf.setEnsq h_enqWf.sqid_eq
  exact h_ensq.mapEncq _ fun _ h_e => ⟨h_e.1, h_e.2, h_e.3⟩

/-- A regulator in use is well formed. -/
theorem RegReach.wf (h_groups : 2 ≤ L.nrCqs) (h : RegReach env L reg) : RegWf L reg := by
  apply Lts.Reach.invariant ?_ ?_ h
  · rintro reg₀ ⟨qDepth, h_init⟩
    exact (regulatorInit_wf h_groups h_init).1
  · intro reg₁ op reg₂ h_wf _ h_step
    cases op with
    | stats nqid stats => exact (setStats_wf h_wf h_step).1
    | sched c ioc oldHctx bio info context =>
        obtain ⟨⟨reg', ioc', hctx⟩, h_sched, rfl⟩ := Option.map_eq_some_iff.mp h_step
        exact schedHctx_wf h_wf h_groups h_sched
    | setMaps cpu enq => exact (setMaps_spec h_wf h_step).1
    | clearMaps cpu enq => exact (clearMaps_spec h_wf h_step).1

end Sched

end Daredevil
