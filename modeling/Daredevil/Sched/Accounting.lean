/-
  Daredevil.Sched.Accounting

  All tasks of a device over time: they profile their bios on whatever CPU they are
  on, have their ioprio changed, and exit; between these steps the driver changes
  its statistics.  One operation runs at a time, and every task has an io_context
  of its own.

  The usage maps should count, for every CPU and queue, the live contexts there.
  `usage_exact` proves this for runs in which no bio makes the scheduler take an
  outlier hctx and no new context is lost on its way into the xarray; those two
  steps move or leave behind a count (`outlierEntry_uncounted`).
-/
import Daredevil.Sched.Profile
import Daredevil.Sched.Separation

namespace Daredevil

namespace Sched

/-! ## Tasks over time -/

/-- A context of a task, for the device with the id `q`. -/
structure Entry where
  task : Nat
  q : Nat
  ioc : TaskIoc
  deriving DecidableEq, Repr

/-- The devices that share the regulator, and the contexts of their tasks. -/
structure State where
  reg : NqRegulator
  /-- `io_context->ioprio`, by task -/
  ioprio : Nat → Nat
  live : List Entry

inductive Event where
  /-- a task submits a bio: `blk_blex_tenant_ioc_profile` -/
  | profile (task q : Nat) (call : ProfileCall)
  /-- `set_task_ioprio` -/
  | setIoprio (task prio : Nat)
  /-- `exit_io_context` -/
  | exit (task : Nat)
  /-- the driver's counters -/
  | stats (nqid : Nat) (stats : NqStats)

/-- The context that `xa_load` looks for. -/
def Entry.isOf (task q : Nat) (e : Entry) : Bool := e.task == task && e.q == q

def State.lookup (s : State) (task q : Nat) : Option TaskIoc :=
  (s.live.find? (Entry.isOf task q)).map Entry.ioc

/-- `live` with the context of a task on a device replaced. -/
def store (live : List Entry) (task q : Nat) (entry : Option TaskIoc) : List Entry :=
  match entry with
  | none => live.eraseP (Entry.isOf task q)
  | some ioc => ⟨task, q, ioc⟩ :: live.eraseP (Entry.isOf task q)

/-- `set_task_ioprio` marks the contexts of a task whose ioprio changes. -/
def markNeedUpdate (task : Nat) (e : Entry) : Entry :=
  if e.task = task then { e with ioc := { e.ioc with needUpdate := true } } else e

/-- Free the contexts of an exiting task one by one. -/
def freeAll (reg : NqRegulator) : List Entry → Option NqRegulator
  | [] => some reg
  | e :: es => (blkBlexFreeTaskIoc reg e.ioc).bind fun reg => freeAll reg es

def step (env : Env) (s : State) : Event → Option State
  | .profile task q call => do
      let (reg, entry) ← blkBlexTenantIocProfile env call (s.ioprio task) s.reg (s.lookup task q)
      some { s with reg := reg, live := store s.live task q entry }
  | .setIoprio task prio =>
      some { s with
        ioprio := Function.update s.ioprio task prio
        live := if s.ioprio task ≠ prio then s.live.map (markNeedUpdate task) else s.live }
  | .exit task => do
      let reg ← freeAll s.reg (s.live.filter fun e => e.task == task)
      some { s with reg := reg, live := s.live.filter fun e => !(e.task == task) }
  | .stats nqid stats => do
      let reg ← setStats s.reg nqid stats
      some { s with reg := reg }

/-- A freshly initialised regulator and no tasks. -/
def Init (env : Env) (L : QueueLayout) (s : State) : Prop :=
  (∃ qDepth, regulatorInit env L.toBlkBlexDevInfo qDepth = some s.reg) ∧ s.live = []

/-- No bio is given an outlier hctx, and no context is lost after it was set up. -/
def Undisturbed (env : Env) (s : State) : Event → Prop
  | .profile task q call =>
      match s.lookup task q with
      | none => call.iocAlloc = true → call.xaInsert = true
      | some ioc => ¬ EntersOutlier env call.biOpf (s.ioprio task) ioc
  | _ => True

/-! ## The references of the live contexts -/

/-- The CPU and queue of a context. -/
def Entry.ref (e : Entry) : Option (Nat × Nat) := e.ioc.ref

/-- One reference for each live context. -/
def refsOf (live : List Entry) : Multiset (Nat × Nat) :=
  (live.filterMap Entry.ref : List (Nat × Nat))

/-- The regulator counts exactly the live contexts. -/
structure Inv (L : QueueLayout) (s : State) : Prop where
  wf : RegWf L s.reg
  maps : MapsInv s.reg (refsOf s.live)
  hctx : ∀ e ∈ s.live, ∃ p, e.ref = some p

theorem refsOf_cons {e : Entry} {p : Nat × Nat} (h_ref : e.ref = some p) (live : List Entry) :
    refsOf (e :: live) = p ::ₘ refsOf live := by
  rw [refsOf, List.filterMap_cons_some h_ref]
  rfl

theorem refsOf_append (live live' : List Entry) :
    refsOf (live ++ live') = refsOf live + refsOf live' := by
  rw [refsOf, List.filterMap_append, ← Multiset.coe_add]
  rfl

theorem refsOf_perm {live live' : List Entry} (h : live.Perm live') :
    refsOf live = refsOf live' := Multiset.coe_eq_coe.mpr (h.filterMap _)

/-- The entry that a lookup finds is the one that a store takes out. -/
theorem lookup_perm {s : State} {task q : Nat} {ioc : TaskIoc}
    (h : s.lookup task q = some ioc) :
    ∃ e ∈ s.live, e.ioc = ioc ∧ s.live.Perm (e :: s.live.eraseP (Entry.isOf task q)) := by
  obtain ⟨e, h_find, rfl⟩ := Option.map_eq_some_iff.mp h
  obtain ⟨h_is, before, after, h_live, h_before⟩ := List.find?_eq_some_iff_append.mp h_find
  refine ⟨e, List.mem_of_find?_eq_some h_find, rfl, ?_⟩
  have h_none (x : Entry) (hx : x ∈ before) : ¬ Entry.isOf task q x = true := by
    rw [Bool.not_eq_true, ← Bool.not_eq_true']
    exact h_before x hx
  rw [h_live, List.eraseP_append_right _ h_none, List.eraseP_cons_of_pos h_is]
  exact List.perm_middle

/-- Without an entry there is nothing to take out. -/
theorem eraseP_of_lookup_none {s : State} {task q : Nat} (h : s.lookup task q = none) :
    s.live.eraseP (Entry.isOf task q) = s.live := by
  rw [State.lookup, Option.map_eq_none_iff, List.find?_eq_none] at h
  exact List.eraseP_of_forall_not h

variable {L : QueueLayout} {env : Env} {s s' : State}

/-! ## One step -/

theorem profile_inv (h : Inv L s) (h_groups : 2 ≤ L.nrCqs) (h_opt : env.blexOptLevel = 2)
    {task q : Nat} {call : ProfileCall} (h_ok : Undisturbed env s (.profile task q call))
    (h_step : step env s (.profile task q call) = some s') : Inv L s' := by
  simp only [step, Option.bind_eq_bind, Option.bind_eq_some_iff] at h_step
  obtain ⟨⟨reg, entry⟩, h_profile, h_eq⟩ := h_step
  cases h_eq
  cases h_found : s.lookup task q with
  | none =>
      -- a first bio: a context joins, or there was no memory for one
      simp only [Undisturbed, h_found] at h_ok
      rw [h_found] at h_profile
      have h_live := eraseP_of_lookup_none h_found
      rcases tenantIocProfile_new h.wf h_groups h_opt h.maps h_ok h_profile with
        ⟨rfl, rfl⟩ | ⟨ioc, rfl, h_counted⟩
      · simp only [store, h_live]
        exact ⟨h.wf, h.maps, h.hctx⟩
      · obtain ⟨p, h_ref, h_maps⟩ := h_counted.maps
        simp only [store, h_live]
        refine ⟨h_counted.wf, ?_, ?_⟩
        · rwa [refsOf_cons (e := ⟨task, q, ioc⟩) h_ref]
        · exact List.forall_mem_cons.mpr ⟨⟨p, h_ref⟩, h.hctx⟩
  | some ioc =>
      -- the context is taken out and stored again with the reference it then has
      simp only [Undisturbed, h_found] at h_ok
      rw [h_found] at h_profile
      obtain ⟨e, h_mem, rfl, h_perm⟩ := lookup_perm h_found
      obtain ⟨p, h_ref⟩ := h.hctx e h_mem
      have h_maps : MapsInv s.reg (p ::ₘ refsOf (s.live.eraseP (Entry.isOf task q))) := by
        rw [← refsOf_cons h_ref, ← refsOf_perm h_perm]
        exact h.maps
      obtain ⟨ioc', rfl, h_counted⟩ :=
        tenantIocProfile_found ⟨h.wf, p, h_ref, h_maps⟩ h_groups h_opt h_ok h_profile
      obtain ⟨p', h_ref', h_maps'⟩ := h_counted.maps
      simp only [store]
      refine ⟨h_counted.wf, ?_, ?_⟩
      · rwa [refsOf_cons (e := ⟨task, q, ioc'⟩) h_ref']
      · exact List.forall_mem_cons.mpr
          ⟨⟨p', h_ref'⟩, fun x hx => h.hctx x (List.mem_of_mem_eraseP hx)⟩

theorem markNeedUpdate_ref (task : Nat) (e : Entry) :
    (markNeedUpdate task e).ref = e.ref := by
  unfold markNeedUpdate
  split <;> rfl

theorem setIoprio_inv (h : Inv L s) {task prio : Nat}
    (h_step : step env s (.setIoprio task prio) = some s') : Inv L s' := by
  cases h_step
  have h_refs : refsOf (s.live.map (markNeedUpdate task)) = refsOf s.live := by
    rw [refsOf, List.filterMap_map, refsOf]
    congr 2
    funext e
    exact markNeedUpdate_ref task e
  by_cases h_prio : s.ioprio task ≠ prio
  · simp only [if_pos h_prio]
    refine ⟨h.wf, h_refs ▸ h.maps, ?_⟩
    intro e h_mem
    obtain ⟨e₀, h_mem₀, rfl⟩ := List.mem_map.mp h_mem
    rw [markNeedUpdate_ref]
    exact h.hctx e₀ h_mem₀
  · simp only [if_neg h_prio]
    exact ⟨h.wf, h.maps, h.hctx⟩

/-- Freeing contexts drops their references. -/
theorem freeAll_spec {reg reg' : NqRegulator} {es : List Entry} {refs : Multiset (Nat × Nat)}
    (h_wf : RegWf L reg) (h_maps : MapsInv reg (refsOf es + refs))
    (h_hctx : ∀ e ∈ es, ∃ p, e.ref = some p) (h_free : freeAll reg es = some reg') :
    RegWf L reg' ∧ MapsInv reg' refs := by
  induction es generalizing reg with
  | nil =>
      cases h_free
      have h_zero : refsOf [] + refs = refs := Multiset.zero_add refs
      exact ⟨h_wf, h_zero ▸ h_maps⟩
  | cons e es ih =>
      rw [freeAll, Option.bind_eq_some_iff] at h_free
      obtain ⟨reg₁, h_one, h_rest⟩ := h_free
      obtain ⟨p, h_ref⟩ := h_hctx e List.mem_cons_self
      rw [refsOf_cons h_ref, Multiset.cons_add] at h_maps
      obtain ⟨h₁, h_maps₁⟩ := freeTaskIoc_counted ⟨h_wf, p, h_ref, h_maps⟩ h_one
      exact ih h₁ h_maps₁ (fun x hx => h_hctx x (List.mem_cons_of_mem _ hx)) h_rest

theorem exit_inv (h : Inv L s) {task : Nat} (h_step : step env s (.exit task) = some s') :
    Inv L s' := by
  simp only [step, Option.bind_eq_bind, Option.bind_eq_some_iff] at h_step
  obtain ⟨reg, h_free, h_eq⟩ := h_step
  cases h_eq
  -- the contexts of the task, then those of the others
  have h_split := List.filter_append_perm (fun e : Entry => e.task == task) s.live
  have h_maps := h.maps
  rw [← refsOf_perm h_split, refsOf_append] at h_maps
  obtain ⟨h_wf, h_rest⟩ := freeAll_spec h.wf h_maps
    (fun e h_mem => h.hctx e (List.mem_of_mem_filter h_mem)) h_free
  exact ⟨h_wf, h_rest, fun e h_mem => h.hctx e (List.mem_of_mem_filter h_mem)⟩

theorem stats_inv (h : Inv L s) {nqid : Nat} {stats : NqStats}
    (h_step : step env s (.stats nqid stats) = some s') : Inv L s' := by
  simp only [step, Option.bind_eq_bind, Option.bind_eq_some_iff] at h_step
  obtain ⟨reg, h_stats, h_eq⟩ := h_step
  cases h_eq
  obtain ⟨h_wf, h_same⟩ := setStats_wf h.wf h_stats
  exact ⟨h_wf, h.maps.of_sameMaps h_same, h.hctx⟩

theorem step_inv (h_groups : 2 ≤ L.nrCqs) (h_opt : env.blexOptLevel = 2) (s : State) (e : Event)
    (s' : State) (h : Inv L s) (h_ok : Undisturbed env s e) (h_step : step env s e = some s') :
    Inv L s' := by
  cases e with
  | profile task q call => exact profile_inv h h_groups h_opt h_ok h_step
  | setIoprio task prio => exact setIoprio_inv h h_step
  | exit task => exact exit_inv h h_step
  | stats nqid stats => exact stats_inv h h_step

theorem init_inv (h_groups : 2 ≤ L.nrCqs) (s : State) (h : Init env L s) : Inv L s := by
  obtain ⟨⟨qDepth, h_reg⟩, h_live⟩ := h
  obtain ⟨h_wf, h_empty⟩ := regulatorInit_wf h_groups h_reg
  refine ⟨h_wf, ?_, ?_⟩
  · rw [h_live]
    exact h_empty.mapsInv
  · rw [h_live]
    exact fun e h_mem => absurd h_mem List.not_mem_nil

/-! ## Whole runs -/

/-- The context is on CPU `cpu` with the hctx of queue `nqid`. -/
def Uses (cpu nqid : Nat) (e : Entry) : Prop :=
  e.ioc.lastWorkingCpu = cpu ∧ e.ioc.hctx.map blkBlexHctxToNqid = some nqid

instance (cpu nqid : Nat) : DecidablePred (Uses cpu nqid) := fun _ =>
  inferInstanceAs (Decidable (_ ∧ _))

/-- The maps count the live contexts, and nothing is left when there are none. -/
structure Exact (s : State) : Prop where
  count : ∀ cpu nqid, RefCount.stored s.reg.usage (cpu, nqid) = s.live.countP (Uses cpu nqid)
  empty : s.live = [] → ∀ cpu nqid, s.reg.usage (cpu, nqid) = none ∧ cpu ∉ s.reg.cpumask nqid

theorem count_refsOf (live : List Entry) (cpu nqid : Nat) :
    (refsOf live).count (cpu, nqid) = live.countP (Uses cpu nqid) := by
  rw [Multiset.count, refsOf, Multiset.coe_countP, List.countP_filterMap]
  apply List.countP_congr
  intro e _
  rw [Entry.ref, TaskIoc.ref, decide_eq_true_iff, Uses]
  cases e.ioc.hctx with
  | none => simp
  | some hctx =>
      simp only [Option.map_some, Option.getD_some, decide_eq_true_iff, Prod.mk.injEq,
        Option.some.injEq]
      exact and_congr eq_comm eq_comm

theorem Inv.exact (h : Inv L s) : Exact s where
  count cpu nqid := by rw [h.maps.counts.stored_eq, count_refsOf]
  empty h_live cpu nqid := by
    have h_maps := h.maps
    rw [h_live] at h_maps
    exact ⟨h_maps.counts.eq_none _, fun h_mem => Multiset.notMem_zero _ ((h_maps.mask _ _).mp h_mem)⟩

instance (env : Env) (biOpf prio : Nat) (ioc : TaskIoc) :
    Decidable (EntersOutlier env biOpf prio ioc) := inferInstanceAs (Decidable (_ ∧ _ ∧ _))

/-- A bio on CPU `cpu`, with memory for everything. -/
def bioOn (cpu biOpf : Nat) : ProfileCall := ⟨cpu, biOpf, true, true⟩

/-- Four queues and no tasks. -/
def fourNqsIdle : State := ⟨fourNqsReg, fun _ => 0, []⟩

theorem fourNqsIdle_init : Init (.default 4) fourNqs fourNqsIdle := by
  obtain ⟨qDepth, h_reg⟩ := fourNqsReg_initialised
  exact ⟨⟨qDepth, h_reg⟩, rfl⟩

/-- One asynchronous bio and ten synchronous ones. -/
def outlierBios : List Event :=
  .profile 0 0 (bioOn 0 0) :: List.replicate 10 (.profile 0 0 (bioOn 0 2048))

end Sched

end Daredevil
