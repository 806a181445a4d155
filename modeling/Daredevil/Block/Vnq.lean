/-
  Daredevil.Block.Vnq

  Staging of requests on the virtual queues (vNQs) of one hardware context, as a
  transition system over any number of concurrent submitters and dispatchers.

    * `blk_blex_stage_request` (`block/blk-blex.h`) takes two steps: it sets the
      CPU's bit in `run_cpumask`, and then, under the vNQ's `dispatch_lock`, adds
      the request to the vNQ's `dispatch_list`;
    * the blex branch of `blk_mq_insert_requests` (`block/blk-mq.c`) splices and
      sets the bit in one critical section;
    * the vNQ scan of `__blk_mq_sched_dispatch_requests` (`block/blk-mq-sched.c`)
      walks the mask, peeks at each list, and takes a non-empty list and clears
      the bit in one critical section.

  Each bit operation and each critical section is one event.  Between the two
  steps of `blk_blex_stage_request` a dispatcher can take the list and clear the
  bit that the submitter has just set; the request then goes on a list whose bit
  is clear.  `staging_noStrand` says that this is the only way to strand a
  request, and that it always can.
-/
import Daredevil.Lib.Lts
import Mathlib.Logic.Function.Basic

namespace Daredevil.Vnq

open Lts

/-! ## State -/

/-- The part of `struct request` that staging reads. -/
structure Request where
  id : Nat
  /-- `rq->mq_ctx->cpu` -/
  mqCtxCpu : Nat
  deriving DecidableEq, Repr

/-- The part of `struct blk_mq_hw_ctx` that holds pending requests. -/
structure Hctx where
  dispatch : List Request
  /-- `vnqs[cpu].dispatch_list` -/
  dispatchList : Nat → List Request
  runCpumask : Nat → Bool
  ctxMapAny : Bool
  schedHasWork : Bool

/-- A `blk_blex_stage_request` call that has set the bit and not yet added its request. -/
structure StageCall where
  rq : Request
  atHead : Bool

/-- Where a dispatcher stands in `__blk_mq_sched_dispatch_requests`. -/
inductive Pc where
  /-- about to look at `hctx->dispatch` without the lock -/
  | peekDispatch
  /-- about to splice `hctx->dispatch` under `hctx->lock` -/
  | spliceDispatch
  /-- about to test `cpumask_empty(hctx->run_cpumask)` -/
  | testMask
  /-- `for_each_cpu`: about to read the bit of `cpu` -/
  | nextCpu (cpu : Nat)
  /-- about to look at the list of `cpu` without its lock -/
  | peekVnq (cpu : Nat)
  /-- about to enter the critical section of `cpu`'s list -/
  | lockVnq (cpu : Nat)
  /-- the scan is over -/
  | scanned
  deriving DecidableEq, Repr

structure Dispatcher where
  pc : Pc
  rqList : List Request
  deriving DecidableEq, Repr

structure State where
  hctx : Hctx
  staging : List StageCall
  dispatchers : List Dispatcher

/-- `blk_mq_hctx_has_pending`, the blex branch, for a mask over `nrCpuIds` CPUs. -/
def blkMqHctxHasPending (nrCpuIds : Nat) (h : Hctx) : Bool :=
  !h.dispatch.isEmpty || h.ctxMapAny || h.schedHasWork || (List.range nrCpuIds).any h.runCpumask

/-! ## Atomic operations on the hardware context -/

namespace Hctx

/-- `blk_blex_mark_allowed_cpu` -/
def blkBlexMarkAllowedCpu (h : Hctx) (cpu : Nat) : Hctx :=
  { h with runCpumask := Function.update h.runCpumask cpu true }

/-- `blk_blex_unmark_allowed_cpu` -/
def blkBlexUnmarkAllowedCpu (h : Hctx) (cpu : Nat) : Hctx :=
  { h with runCpumask := Function.update h.runCpumask cpu false }

/-- Replace the dispatch list of one vNQ. -/
def setDispatchList (h : Hctx) (cpu : Nat) (rqs : List Request) : Hctx :=
  { h with dispatchList := Function.update h.dispatchList cpu rqs }

/-- The critical section of `blk_blex_stage_request`. -/
def stageAdd (h : Hctx) (call : StageCall) : Hctx :=
  let cpu := call.rq.mqCtxCpu
  h.setDispatchList cpu
    (if call.atHead then call.rq :: h.dispatchList cpu else h.dispatchList cpu ++ [call.rq])

/-- The critical section of `blk_mq_insert_requests`. -/
def insertRequests (h : Hctx) (cpu : Nat) (rqs : List Request) : Hctx :=
  (h.setDispatchList cpu (h.dispatchList cpu ++ rqs)).blkBlexMarkAllowedCpu cpu

/-- The critical section of the vNQ scan, for a non-empty list. -/
def takeVnq (h : Hctx) (cpu : Nat) : Hctx :=
  (h.setDispatchList cpu []).blkBlexUnmarkAllowedCpu cpu

end Hctx

/-! ## Steps -/

/-- One step of the scan of `__blk_mq_sched_dispatch_requests`. -/
def dispatcherStep (nrCpuIds : Nat) (h : Hctx) (d : Dispatcher) : Option (Hctx × Dispatcher) :=
  match d.pc with
  | .peekDispatch =>
      some (h, { d with pc := if h.dispatch.isEmpty then .testMask else .spliceDispatch })
  | .spliceDispatch =>
      some ({ h with dispatch := [] }, { pc := .testMask, rqList := h.dispatch ++ d.rqList })
  | .testMask =>
      some (h, { d with
        pc := if (List.range nrCpuIds).any h.runCpumask then .nextCpu 0 else .scanned })
  | .nextCpu cpu =>
      if cpu < nrCpuIds then
        some (h, { d with pc := if h.runCpumask cpu then .peekVnq cpu else .nextCpu (cpu + 1) })
      else
        some (h, { d with pc := .scanned })
  | .peekVnq cpu =>
      some (h, { d with
        pc := if (h.dispatchList cpu).isEmpty then .nextCpu (cpu + 1) else .lockVnq cpu })
  | .lockVnq cpu =>
      -- the list is tested again under the lock
      if (h.dispatchList cpu).isEmpty then
        some (h, { d with pc := .nextCpu (cpu + 1) })
      else
        some (h.takeVnq cpu, { pc := .nextCpu (cpu + 1), rqList := d.rqList ++ h.dispatchList cpu })
  | .scanned => none

inductive Event where
  /-- first step of `blk_blex_stage_request(rq, hctx, at_head, true)` -/
  | stageMark (rq : Request) (atHead : Bool)
  /-- second and last step of the `i`-th call under way -/
  | stageAdd (i : Nat)
  | insertRequests (cpu : Nat) (rqs : List Request)
  | dispatchStart
  | dispatchStep (i : Nat)
  /-- the `i`-th dispatcher hands its list to the driver; what the driver does
      not accept goes back on `hctx->dispatch` -/
  | dispatchEnd (i : Nat) (left : Request → Bool)

/-- One event of the staging system of a hardware context with `nrCpuIds` vNQs. -/
def step (nrCpuIds : Nat) (s : State) : Event → Option State
  | .stageMark rq atHead =>
      if rq.mqCtxCpu < nrCpuIds then
        some { s with
          hctx := s.hctx.blkBlexMarkAllowedCpu rq.mqCtxCpu
          staging := s.staging ++ [⟨rq, atHead⟩] }
      else none
  | .stageAdd i =>
      (s.staging[i]?).map fun call =>
        { s with hctx := s.hctx.stageAdd call, staging := s.staging.eraseIdx i }
  | .insertRequests cpu rqs =>
      -- `BUG_ON(rq->mq_ctx != ctx)` for every request of the list
      if cpu < nrCpuIds ∧ ∀ rq ∈ rqs, rq.mqCtxCpu = cpu then
        some { s with hctx := s.hctx.insertRequests cpu rqs }
      else none
  | .dispatchStart => some { s with dispatchers := s.dispatchers ++ [⟨.peekDispatch, []⟩] }
  | .dispatchStep i =>
      (s.dispatchers[i]?).bind fun d =>
        (dispatcherStep nrCpuIds s.hctx d).map fun r =>
          { s with hctx := r.1, dispatchers := s.dispatchers.set i r.2 }
  | .dispatchEnd i left =>
      (s.dispatchers[i]?).bind fun d =>
        if d.pc = .scanned then
          some { s with
            hctx := { s.hctx with dispatch := s.hctx.dispatch ++ d.rqList.filter left }
            dispatchers := s.dispatchers.eraseIdx i }
        else none

/-- A hardware context as `blk_blex_map_swqueue` leaves it, with no call under way. -/
def Init (s : State) : Prop :=
  (∀ cpu, s.hctx.dispatchList cpu = []) ∧ (∀ cpu, s.hctx.runCpumask cpu = false) ∧
    s.staging = [] ∧ s.dispatchers = []

/-- No submitter is between its first and its last step. -/
def State.Quiescent (s : State) : Prop := s.staging = []

/-- Every CPU with staged requests has its bit set. -/
def Hctx.Marked (h : Hctx) : Prop :=
  ∀ cpu, h.dispatchList cpu ≠ [] → h.runCpumask cpu = true

/-- In `s`, the event is a dispatcher's critical section on a non-empty list of a
    CPU for which a submitter has set the bit and not yet added its request. -/
def TakesUnderStaging (s : State) (e : Event) : Prop :=
  ∃ i d cpu, e = .dispatchStep i ∧ s.dispatchers[i]? = some d ∧ d.pc = .lockVnq cpu ∧
    s.hctx.dispatchList cpu ≠ [] ∧ ∃ call ∈ s.staging, call.rq.mqCtxCpu = cpu

/-- The dispatcher is about to take a list to which a call under way will add its request. -/
def takesUnderStaging (s : State) (d : Dispatcher) : Bool :=
  match d.pc with
  | .lockVnq cpu =>
      !(s.hctx.dispatchList cpu).isEmpty && s.staging.any fun call => call.rq.mqCtxCpu = cpu
  | _ => false

theorem takesUnderStaging_iff (s : State) (d : Dispatcher) :
    takesUnderStaging s d = true ↔ ∃ cpu, d.pc = .lockVnq cpu ∧
      s.hctx.dispatchList cpu ≠ [] ∧ ∃ call ∈ s.staging, call.rq.mqCtxCpu = cpu := by
  unfold takesUnderStaging
  cases d.pc with
  | lockVnq cpu =>
      constructor
      · intro h_takes
        obtain ⟨h_list, h_call⟩ := Bool.and_eq_true_iff.mp h_takes
        exact ⟨cpu, rfl, by simpa using h_list, by simpa using h_call⟩
      · rintro ⟨_, h_eq, h_list, h_call⟩
        cases h_eq
        exact Bool.and_eq_true_iff.mpr ⟨by simpa using h_list, by simpa using h_call⟩
  | _ => simp

instance (s : State) (e : Event) : Decidable (TakesUnderStaging s e) :=
  match e with
  | .dispatchStep i =>
      decidable_of_iff ((s.dispatchers[i]?).any (takesUnderStaging s) = true) <| by
        simp [TakesUnderStaging, Option.any_eq_true, takesUnderStaging_iff]
  | .stageMark .. | .stageAdd _ | .insertRequests .. | .dispatchStart | .dispatchEnd .. =>
      .isFalse (by rintro ⟨_, _, _, h_event, _⟩; cases h_event)

/-! ## Effect of the atomic operations on lists and bits -/

namespace Hctx

variable (h : Hctx) (cpu : Nat)

theorem stageAdd_dispatchList_of_ne (call : StageCall) (h_ne : cpu ≠ call.rq.mqCtxCpu) :
    (h.stageAdd call).dispatchList cpu = h.dispatchList cpu :=
  Function.update_of_ne h_ne _ _

theorem stageAdd_mem (call : StageCall) (rq : Request) :
    rq ∈ (h.stageAdd call).dispatchList cpu ↔
      rq ∈ h.dispatchList cpu ∨ (cpu = call.rq.mqCtxCpu ∧ rq = call.rq) := by
  by_cases h_cpu : cpu = call.rq.mqCtxCpu
  · subst h_cpu
    simp only [stageAdd, setDispatchList, Function.update_self]
    split
    · simp only [List.mem_cons, true_and]
      exact or_comm
    · simp only [List.mem_append, List.mem_singleton, true_and]
  · rw [stageAdd_dispatchList_of_ne h cpu call h_cpu]
    simp only [h_cpu, false_and, or_false]

@[simp] theorem takeVnq_dispatchList :
    (h.takeVnq cpu).dispatchList = Function.update h.dispatchList cpu [] := rfl

@[simp] theorem takeVnq_runCpumask :
    (h.takeVnq cpu).runCpumask = Function.update h.runCpumask cpu false := rfl

end Hctx

/-- A dispatcher's step leaves lists and bits alone, or takes one non-empty list. -/
theorem dispatcherStep_cases {nrCpuIds : Nat} {h h' : Hctx} {d d' : Dispatcher}
    (h_step : dispatcherStep nrCpuIds h d = some (h', d')) :
    (h'.dispatchList = h.dispatchList ∧ h'.runCpumask = h.runCpumask) ∨
      (∃ cpu, d.pc = .lockVnq cpu ∧ h.dispatchList cpu ≠ [] ∧ h' = h.takeVnq cpu) := by
  unfold dispatcherStep at h_step
  cases h_pc : d.pc with
  | nextCpu cpu =>
      rw [h_pc] at h_step
      simp only at h_step
      split at h_step <;> cases h_step <;> exact .inl ⟨rfl, rfl⟩
  | lockVnq cpu =>
      rw [h_pc] at h_step
      simp only [List.isEmpty_iff] at h_step
      by_cases h_list : h.dispatchList cpu = []
      · rw [if_pos h_list] at h_step
        cases h_step
        exact .inl ⟨rfl, rfl⟩
      · -- the one step that splices a list away
        rw [if_neg h_list] at h_step
        cases h_step
        exact .inr ⟨cpu, rfl, h_list, rfl⟩
  | scanned =>
      rw [h_pc] at h_step
      cases h_step
  | _ =>
      rw [h_pc] at h_step
      cases h_step
      exact .inl ⟨rfl, rfl⟩

/-! ## Runs in which no list is taken under a submitter -/

/-- Lists are marked, and so is the CPU of every call that has set its bit. -/
structure Inv (nrCpuIds : Nat) (s : State) : Prop where
  marked : s.hctx.Marked
  stagingMarked : ∀ call ∈ s.staging, s.hctx.runCpumask call.rq.mqCtxCpu = true
  stagingCpu : ∀ call ∈ s.staging, call.rq.mqCtxCpu < nrCpuIds
  listCpu : ∀ cpu, s.hctx.dispatchList cpu ≠ [] → cpu < nrCpuIds

variable {nrCpuIds : Nat} {s s' : State}

theorem inv_init (h_init : Init s) : Inv nrCpuIds s := by
  obtain ⟨h_list, -, h_staging, -⟩ := h_init
  refine ⟨fun cpu h => absurd (h_list cpu) h, ?_, ?_, fun cpu h => absurd (h_list cpu) h⟩ <;>
    simp [h_staging]

theorem update_true_of {m : Nat → Bool} {c cpu : Nat} (h : m cpu = true) :
    Function.update m c true cpu = true := by
  by_cases h_c : cpu = c
  · rw [h_c, Function.update_self]
  · rw [Function.update_of_ne h_c, h]

theorem inv_stageMark {rq : Request} {atHead : Bool} (h_inv : Inv nrCpuIds s)
    (h_step : step nrCpuIds s (.stageMark rq atHead) = some s') : Inv nrCpuIds s' := by
  simp only [step] at h_step
  split at h_step
  case isFalse => cases h_step
  case isTrue h_cpu =>
    cases h_step
    refine ⟨fun cpu h => update_true_of (h_inv.marked cpu h), ?_, ?_, h_inv.listCpu⟩
    · intro call h_call
      rw [List.mem_append, List.mem_singleton] at h_call
      rcases h_call with h_call | rfl
      · exact update_true_of (h_inv.stagingMarked call h_call)
      · exact Function.update_self _ _ _
    · intro call h_call
      rw [List.mem_append, List.mem_singleton] at h_call
      rcases h_call with h_call | rfl
      · exact h_inv.stagingCpu call h_call
      · exact h_cpu

theorem inv_stageAdd {i : Nat} (h_inv : Inv nrCpuIds s)
    (h_step : step nrCpuIds s (.stageAdd i) = some s') : Inv nrCpuIds s' := by
  simp only [step, Option.map_eq_some_iff] at h_step
  obtain ⟨call, h_get, rfl⟩ := h_step
  have h_call : call ∈ s.staging := List.mem_of_getElem? h_get
  -- only the list of the call's CPU grows, and its bit was set before the lock was taken
  have h_list (cpu : Nat) (h : (s.hctx.stageAdd call).dispatchList cpu ≠ []) :
      s.hctx.dispatchList cpu ≠ [] ∨ cpu = call.rq.mqCtxCpu := by
    by_cases h_cpu : cpu = call.rq.mqCtxCpu
    · exact .inr h_cpu
    · rw [s.hctx.stageAdd_dispatchList_of_ne cpu call h_cpu] at h
      exact .inl h
  refine ⟨?_, ?_, ?_, ?_⟩
  · intro cpu h
    rcases h_list cpu h with h' | rfl
    · exact h_inv.marked cpu h'
    · exact h_inv.stagingMarked call h_call
  · exact fun c hc => h_inv.stagingMarked c (List.mem_of_mem_eraseIdx hc)
  · exact fun c hc => h_inv.stagingCpu c (List.mem_of_mem_eraseIdx hc)
  · intro cpu h
    rcases h_list cpu h with h' | rfl
    · exact h_inv.listCpu cpu h'
    · exact h_inv.stagingCpu call h_call

theorem inv_insertRequests {cpu : Nat} {rqs : List Request} (h_inv : Inv nrCpuIds s)
    (h_step : step nrCpuIds s (.insertRequests cpu rqs) = some s') : Inv nrCpuIds s' := by
  simp only [step] at h_step
  split at h_step
  case isFalse => cases h_step
  case isTrue h_guard =>
    cases h_step
    refine ⟨?_, fun c hc => update_true_of (h_inv.stagingMarked c hc), h_inv.stagingCpu, ?_⟩
    · intro c h
      by_cases h_c : c = cpu
      · subst h_c
        exact Function.update_self _ _ _
      · refine update_true_of (h_inv.marked c ?_)
        rwa [show (s.hctx.insertRequests cpu rqs).dispatchList c = s.hctx.dispatchList c from
          Function.update_of_ne h_c _ _] at h
    · intro c h
      by_cases h_c : c = cpu
      · subst h_c
        exact h_guard.1
      · apply h_inv.listCpu c
        rwa [show (s.hctx.insertRequests cpu rqs).dispatchList c = s.hctx.dispatchList c from
          Function.update_of_ne h_c _ _] at h

theorem inv_dispatchStep {i : Nat} (h_inv : Inv nrCpuIds s)
    (h_ok : ¬ TakesUnderStaging s (.dispatchStep i))
    (h_step : step nrCpuIds s (.dispatchStep i) = some s') : Inv nrCpuIds s' := by
  simp only [step, Option.bind_eq_some_iff, Option.map_eq_some_iff] at h_step
  obtain ⟨d, h_get, ⟨h', d'⟩, h_disp, rfl⟩ := h_step
  rcases dispatcherStep_cases h_disp with ⟨h_list, h_mask⟩ | ⟨cpu, h_pc, h_ne, rfl⟩
  · refine ⟨?_, ?_, h_inv.stagingCpu, ?_⟩
    · intro cpu h
      rw [h_mask]
      exact h_inv.marked cpu (by rwa [h_list] at h)
    · intro call h_call
      rw [h_mask]
      exact h_inv.stagingMarked call h_call
    · intro cpu h
      exact h_inv.listCpu cpu (by rwa [h_list] at h)
  · -- the bit is cleared together with the list, and no call under way relied on it
    have h_other (c : Nat) (h : (s.hctx.takeVnq cpu).dispatchList c ≠ []) :
        c ≠ cpu ∧ s.hctx.dispatchList c ≠ [] := by
      by_cases h_c : c = cpu
      · subst h_c
        exact absurd (Function.update_self _ _ _) h
      · rw [s.hctx.takeVnq_dispatchList, Function.update_of_ne h_c] at h
        exact ⟨h_c, h⟩
    refine ⟨?_, ?_, h_inv.stagingCpu, fun c h => h_inv.listCpu c (h_other c h).2⟩
    · intro c h
      rw [Hctx.takeVnq_runCpumask, Function.update_of_ne (h_other c h).1]
      exact h_inv.marked c (h_other c h).2
    · intro call h_call
      have h_c : call.rq.mqCtxCpu ≠ cpu := fun h_eq =>
        h_ok ⟨i, d, cpu, rfl, h_get, h_pc, h_ne, call, h_call, h_eq⟩
      rw [Hctx.takeVnq_runCpumask, Function.update_of_ne h_c]
      exact h_inv.stagingMarked call h_call

theorem inv_step {e : Event} (h_inv : Inv nrCpuIds s) (h_ok : ¬ TakesUnderStaging s e)
    (h_step : step nrCpuIds s e = some s') : Inv nrCpuIds s' := by
  cases e with
  | stageMark rq atHead => exact inv_stageMark h_inv h_step
  | stageAdd i => exact inv_stageAdd h_inv h_step
  | insertRequests cpu rqs => exact inv_insertRequests h_inv h_step
  | dispatchStart =>
      cases h_step
      exact ⟨h_inv.marked, h_inv.stagingMarked, h_inv.stagingCpu, h_inv.listCpu⟩
  | dispatchStep i => exact inv_dispatchStep h_inv h_ok h_step
  | dispatchEnd i left =>
      simp only [step, Option.bind_eq_some_iff] at h_step
      obtain ⟨d, -, h_end⟩ := h_step
      split at h_end
      case isFalse => cases h_end
      case isTrue =>
        cases h_end
        exact ⟨h_inv.marked, h_inv.stagingMarked, h_inv.stagingCpu, h_inv.listCpu⟩

theorem inv_reach (h : Reach (step nrCpuIds) (fun s e => ¬ TakesUnderStaging s e) Init s) :
    Inv nrCpuIds s :=
  h.invariant (fun _ => inv_init) (fun _ _ _ => inv_step)

theorem hasPending_of_marked (h_inv : Inv nrCpuIds s) {cpu : Nat}
    (h_list : s.hctx.dispatchList cpu ≠ []) : blkMqHctxHasPending nrCpuIds s.hctx = true := by
  have h_any : (List.range nrCpuIds).any s.hctx.runCpumask = true :=
    List.any_eq_true.mpr ⟨cpu, List.mem_range.mpr (h_inv.listCpu cpu h_list),
      h_inv.marked cpu h_list⟩
  rw [blkMqHctxHasPending, h_any, Bool.or_true]

/-! ## A scan that runs alone takes every marked list -/

/-- `k` steps of one dispatcher with no other event in between. -/
def scanAlone (nrCpuIds : Nat) (h : Hctx) (d : Dispatcher) (k : Nat) : Option (Hctx × Dispatcher) :=
  run (fun p (_ : Unit) => dispatcherStep nrCpuIds p.1 p.2) (h, d) (List.replicate k ())

theorem scanAlone_succ {h h' : Hctx} {d d' : Dispatcher}
    (h_step : dispatcherStep nrCpuIds h d = some (h', d')) (k : Nat) :
    scanAlone nrCpuIds h d (k + 1) = scanAlone nrCpuIds h' d' k := by
  rw [scanAlone, List.replicate_succ, run_cons_of_step h_step]
  rfl

theorem marked_takeVnq {h : Hctx} (h_marked : h.Marked) (cpu : Nat) : (h.takeVnq cpu).Marked := by
  intro c h_list
  by_cases h_c : c = cpu
  · subst h_c
    exact absurd (Function.update_self _ _ _) h_list
  · rw [Hctx.takeVnq_dispatchList, Function.update_of_ne h_c] at h_list
    rw [Hctx.takeVnq_runCpumask, Function.update_of_ne h_c]
    exact h_marked c h_list

/-- From CPU `cpu` on, the scan ends with every request staged there. -/
theorem scanAlone_from (m : Nat) {cpu : Nat} {h : Hctx} {rqs : List Request}
    (h_left : cpu + m = nrCpuIds) (h_marked : h.Marked) :
    ∃ k h' d', scanAlone nrCpuIds h ⟨.nextCpu cpu, rqs⟩ k = some (h', d') ∧ d'.pc = .scanned ∧
      (∀ rq ∈ rqs, rq ∈ d'.rqList) ∧
      ∀ c, cpu ≤ c → c < nrCpuIds → ∀ rq ∈ h.dispatchList c, rq ∈ d'.rqList := by
  -- on the number of CPUs still to be scanned
  induction m generalizing cpu h rqs with
  | zero =>
      have h_step : dispatcherStep nrCpuIds h ⟨.nextCpu cpu, rqs⟩ = some (h, ⟨.scanned, rqs⟩) :=
        if_neg (by omega)
      refine ⟨1, h, ⟨.scanned, rqs⟩, scanAlone_succ h_step 0, rfl, fun _ => id, ?_⟩
      intro c h_c h_lt
      omega
  | succ m ih =>
      have h_read : dispatcherStep nrCpuIds h ⟨.nextCpu cpu, rqs⟩ =
          some (h, ⟨if h.runCpumask cpu then .peekVnq cpu else .nextCpu (cpu + 1), rqs⟩) :=
        if_pos (by omega)
      by_cases h_list : h.dispatchList cpu = []
      · -- nothing staged on `cpu`: go on to the next CPU, through the peek if its bit is set
        obtain ⟨k, h', d', h_run, h_pc, h_kept, h_taken⟩ := @ih (cpu + 1) h rqs (by omega) h_marked
        have h_taken' (c : Nat) (h_c : cpu ≤ c) (h_lt : c < nrCpuIds) :
            ∀ rq ∈ h.dispatchList c, rq ∈ d'.rqList := by
          rcases Nat.eq_or_lt_of_le h_c with rfl | h_c
          · simp [h_list]
          · exact h_taken c h_c h_lt
        cases h_bit : h.runCpumask cpu with
        | false =>
            rw [h_bit] at h_read
            exact ⟨k + 1, h', d', (scanAlone_succ h_read k).trans h_run, h_pc, h_kept, h_taken'⟩
        | true =>
            rw [h_bit] at h_read
            have h_peek : dispatcherStep nrCpuIds h ⟨.peekVnq cpu, rqs⟩ =
                some (h, ⟨.nextCpu (cpu + 1), rqs⟩) := by
              simp [dispatcherStep, h_list]
            exact ⟨k + 2, h', d', (scanAlone_succ h_read _).trans
              ((scanAlone_succ h_peek k).trans h_run), h_pc, h_kept, h_taken'⟩
      · -- a marked list is seen, locked and spliced in three steps
        rw [h_marked cpu h_list] at h_read
        have h_peek : dispatcherStep nrCpuIds h ⟨.peekVnq cpu, rqs⟩ =
            some (h, ⟨.lockVnq cpu, rqs⟩) := by
          simp [dispatcherStep, h_list]
        have h_lock : dispatcherStep nrCpuIds h ⟨.lockVnq cpu, rqs⟩ =
            some (h.takeVnq cpu, ⟨.nextCpu (cpu + 1), rqs ++ h.dispatchList cpu⟩) := by
          simp [dispatcherStep, h_list]
        obtain ⟨k, h', d', h_run, h_pc, h_kept, h_taken⟩ :=
          @ih (cpu + 1) (h.takeVnq cpu) (rqs ++ h.dispatchList cpu) (by omega)
            (marked_takeVnq h_marked cpu)
        refine ⟨k + 3, h', d', (scanAlone_succ h_read _).trans ((scanAlone_succ h_peek _).trans
          ((scanAlone_succ h_lock k).trans h_run)), h_pc, ?_, ?_⟩
        · exact fun rq h_rq => h_kept rq (List.mem_append_left _ h_rq)
        · intro c h_c h_lt rq h_rq
          rcases Nat.eq_or_lt_of_le h_c with rfl | h_c
          · exact h_kept rq (List.mem_append_right _ h_rq)
          · apply h_taken c h_c h_lt rq
            rwa [Hctx.takeVnq_dispatchList, Function.update_of_ne (by omega)]

/-- A dispatcher started now reaches the scan with the mask found non-empty. -/
theorem scanAlone_start {h : Hctx} {cpu : Nat} (h_cpu : cpu < nrCpuIds) (h_marked : h.Marked)
    (h_list : h.dispatchList cpu ≠ []) :
    ∃ k h' d', scanAlone nrCpuIds h ⟨.peekDispatch, []⟩ k = some (h', d') ∧ d'.pc = .scanned ∧
      ∀ rq ∈ h.dispatchList cpu, rq ∈ d'.rqList := by
  have h_any : (List.range nrCpuIds).any h.runCpumask = true :=
    List.any_eq_true.mpr ⟨cpu, List.mem_range.mpr h_cpu, h_marked cpu h_list⟩
  have h_test (g : Hctx) (h_mask : g.runCpumask = h.runCpumask) (rqs : List Request) :
      dispatcherStep nrCpuIds g ⟨.testMask, rqs⟩ = some (g, ⟨.nextCpu 0, rqs⟩) := by
    simp [dispatcherStep, h_mask, h_any]
  cases h_disp : h.dispatch.isEmpty with
  | true =>
      have h_peek : dispatcherStep nrCpuIds h ⟨.peekDispatch, []⟩ = some (h, ⟨.testMask, []⟩) := by
        simp [dispatcherStep, h_disp]
      obtain ⟨k, h', d', h_run, h_pc, -, h_taken⟩ :=
        @scanAlone_from nrCpuIds nrCpuIds 0 h [] (Nat.zero_add _) h_marked
      exact ⟨k + 2, h', d', (scanAlone_succ h_peek _).trans
        ((scanAlone_succ (h_test h rfl []) k).trans h_run), h_pc,
        h_taken cpu (Nat.zero_le _) h_cpu⟩
  | false =>
      have h_peek : dispatcherStep nrCpuIds h ⟨.peekDispatch, []⟩ =
          some (h, ⟨.spliceDispatch, []⟩) := by
        simp [dispatcherStep, h_disp]
      have h_splice : dispatcherStep nrCpuIds h ⟨.spliceDispatch, []⟩ =
          some ({ h with dispatch := [] }, ⟨.testMask, h.dispatch ++ []⟩) := rfl
      obtain ⟨k, h', d', h_run, h_pc, -, h_taken⟩ :=
        @scanAlone_from nrCpuIds nrCpuIds 0 { h with dispatch := [] } (h.dispatch ++ [])
          (Nat.zero_add _) h_marked
      exact ⟨k + 3, h', d', (scanAlone_succ h_peek _).trans ((scanAlone_succ h_splice _).trans
        ((scanAlone_succ (h_test { h with dispatch := [] } rfl _) k).trans h_run)), h_pc,
        h_taken cpu (Nat.zero_le _) h_cpu⟩

/-- Steps of one dispatcher alone are steps of the system. -/
theorem run_of_scanAlone (k : Nat) {i : Nat} {h' : Hctx} {d d' : Dispatcher}
    (h_get : s.dispatchers[i]? = some d)
    (h_run : scanAlone nrCpuIds s.hctx d k = some (h', d')) :
    ∃ s', run (step nrCpuIds) s (List.replicate k (.dispatchStep i)) = some s' ∧
      s'.hctx = h' ∧ s'.dispatchers[i]? = some d' := by
  induction k generalizing s d with
  | zero =>
      cases h_run
      exact ⟨s, rfl, rfl, h_get⟩
  | succ k ih =>
      rw [scanAlone, List.replicate_succ, run_cons, Option.bind_eq_some_iff] at h_run
      obtain ⟨⟨h₁, d₁⟩, h_step, h_rest⟩ := h_run
      have h_sys : step nrCpuIds s (.dispatchStep i) =
          some { s with hctx := h₁, dispatchers := s.dispatchers.set i d₁ } := by
        simp only [step, h_get, Option.bind_some, h_step, Option.map_some]
      have h_len : i < s.dispatchers.length := (List.getElem?_eq_some_iff.mp h_get).1
      obtain ⟨s', h_run', h_hctx, h_get'⟩ :=
        @ih { s with hctx := h₁, dispatchers := s.dispatchers.set i d₁ } d₁
          (List.getElem?_set_self h_len) h_rest
      refine ⟨s', ?_, h_hctx, h_get'⟩
      rw [List.replicate_succ, run_cons_of_step h_sys, h_run']

/-- The next queue run, left alone, ends its scan with every request staged on `cpu`. -/
def NextRunTakes (nrCpuIds : Nat) (s : State) (cpu : Nat) : Prop :=
  ∃ k s' d, run (step nrCpuIds) s
      (.dispatchStart :: List.replicate k (.dispatchStep s.dispatchers.length)) = some s' ∧
    s'.dispatchers[s.dispatchers.length]? = some d ∧ d.pc = .scanned ∧
      ∀ rq ∈ s.hctx.dispatchList cpu, rq ∈ d.rqList

theorem nextRunTakes_of_marked {cpu : Nat} (h_cpu : cpu < nrCpuIds) (h_marked : s.hctx.Marked)
    (h_list : s.hctx.dispatchList cpu ≠ []) : NextRunTakes nrCpuIds s cpu := by
  obtain ⟨k, h', d', h_scan, h_pc, h_taken⟩ := scanAlone_start h_cpu h_marked h_list
  have h_start : step nrCpuIds s .dispatchStart =
      some { s with dispatchers := s.dispatchers ++ [⟨.peekDispatch, []⟩] } := rfl
  obtain ⟨s', h_run, -, h_get⟩ := @run_of_scanAlone nrCpuIds
    { s with dispatchers := s.dispatchers ++ [⟨.peekDispatch, []⟩] } k _ _ _ _
    List.getElem?_concat_length h_scan
  exact ⟨k, s', d', (run_cons_of_step h_start _).trans h_run, h_get, h_pc, h_taken⟩

/-! ## Taking a list under a submitter strands its request -/

/-- Let every call under way finish: all their requests are staged, no bit changes. -/
theorem run_stageAdd_all (calls : List StageCall) (h_staging : s.staging = calls) :
    ∃ s', run (step nrCpuIds) s (List.replicate calls.length (.stageAdd 0)) = some s' ∧
      s'.staging = [] ∧ s'.hctx.runCpumask = s.hctx.runCpumask ∧
      (∀ cpu, ∀ rq ∈ s.hctx.dispatchList cpu, rq ∈ s'.hctx.dispatchList cpu) ∧
      ∀ call ∈ calls, call.rq ∈ s'.hctx.dispatchList call.rq.mqCtxCpu := by
  induction calls generalizing s with
  | nil => exact ⟨s, rfl, h_staging, rfl, fun _ _ => id, by simp⟩
  | cons call calls ih =>
      have h_step : step nrCpuIds s (.stageAdd 0) =
          some { s with hctx := s.hctx.stageAdd call, staging := calls } := by
        simp [step, h_staging]
      obtain ⟨s', h_run, h_nil, h_mask, h_kept, h_added⟩ :=
        @ih { s with hctx := s.hctx.stageAdd call, staging := calls } rfl
      refine ⟨s', ?_, h_nil, h_mask, ?_, ?_⟩
      · rw [List.length_cons, List.replicate_succ, run_cons_of_step h_step, h_run]
      · exact fun cpu rq h_rq =>
          h_kept cpu rq ((s.hctx.stageAdd_mem cpu call rq).mpr (.inl h_rq))
      · intro c h_c
        rcases List.mem_cons.mp h_c with rfl | h_c
        · exact h_kept _ _ ((s.hctx.stageAdd_mem _ c _).mpr (.inr ⟨rfl, rfl⟩))
        · exact h_added c h_c

/-- After such a step, letting the calls under way finish leaves a list whose bit is clear. -/
theorem strands_of_takesUnderStaging {e : Event} (h_takes : TakesUnderStaging s e)
    (h_step : step nrCpuIds s e = some s') :
    ∃ es s'', run (step nrCpuIds) s' es = some s'' ∧ s''.Quiescent ∧ ¬ s''.hctx.Marked := by
  obtain ⟨i, d, cpu, rfl, h_get, h_pc, h_list, call, h_call, h_cpu⟩ := h_takes
  have h_disp : dispatcherStep nrCpuIds s.hctx d = some (s.hctx.takeVnq cpu,
      { pc := .nextCpu (cpu + 1), rqList := d.rqList ++ s.hctx.dispatchList cpu }) := by
    simp [dispatcherStep, h_pc, h_list]
  simp only [step, h_get, Option.bind_some, h_disp, Option.map_some, Option.some.injEq] at h_step
  obtain ⟨s'', h_run, h_nil, h_mask, -, h_added⟩ :=
    @run_stageAdd_all nrCpuIds s' s.staging (by rw [← h_step])
  refine ⟨_, s'', h_run, h_nil, ?_⟩
  intro h_marked
  have h_mem := h_added call h_call
  rw [h_cpu] at h_mem
  have h_bit := h_marked cpu (List.ne_nil_of_mem h_mem)
  rw [h_mask, ← h_step, Hctx.takeVnq_runCpumask, Function.update_self] at h_bit
  cases h_bit

/-- No request is stranded in a run in which no dispatcher takes the list of a CPU
    between the two steps of a submitter of that CPU; and every dispatcher step that
    does so can be followed by the ends of the calls under way to a state in which a
    non-empty list has its bit clear. -/
theorem staging_noStrand (nrCpuIds : Nat) :
    (∀ s, Reach (step nrCpuIds) (fun s e => ¬ TakesUnderStaging s e) Init s →
      ∀ cpu, s.hctx.dispatchList cpu ≠ [] →
        s.hctx.runCpumask cpu = true ∧ blkMqHctxHasPending nrCpuIds s.hctx = true ∧
          NextRunTakes nrCpuIds s cpu) ∧
    ∀ s e s', TakesUnderStaging s e → step nrCpuIds s e = some s' →
      ∃ es s'', run (step nrCpuIds) s' es = some s'' ∧ s''.Quiescent ∧ ¬ s''.hctx.Marked := by
  refine ⟨?_, fun s e s' => strands_of_takesUnderStaging⟩
  intro s h_reach cpu h_list
  have h_inv := inv_reach h_reach
  exact ⟨h_inv.marked cpu h_list, hasPending_of_marked h_inv h_list,
    nextRunTakes_of_marked (h_inv.listCpu cpu h_list) h_inv.marked h_list⟩

/-- Hardware context with nothing staged. -/
def idle : State := ⟨⟨[], fun _ => [], fun _ => false, false, false⟩, [], []⟩

theorem init_idle : Init idle := ⟨fun _ => rfl, fun _ => rfl, rfl, rfl⟩

/-- A dispatcher takes the list of CPU 0 between the two steps of a submitter of CPU 1. -/
def twoCpusRun : List Event :=
  [.stageMark ⟨7, 0⟩ false, .stageAdd 0, .stageMark ⟨8, 1⟩ false, .dispatchStart,
   .dispatchStep 0, .dispatchStep 0, .dispatchStep 0, .dispatchStep 0, .dispatchStep 0, .stageAdd 0]

theorem staging_noStrand_twoCpus :
    ∃ s, run (step 2) idle twoCpusRun = some s ∧ s.hctx.dispatchList 0 = [] ∧
      s.dispatchers = [⟨.nextCpu 1, [⟨7, 0⟩]⟩] ∧ s.hctx.dispatchList 1 ≠ [] ∧
      s.hctx.runCpumask 1 = true ∧ NextRunTakes 2 s 1 := by
  have h_some : (run (guarded (step 2) fun s e => ¬ TakesUnderStaging s e) idle
      twoCpusRun).isSome = true := by
    decide +kernel
  obtain ⟨s, h_run⟩ := Option.isSome_iff_exists.mp h_some
  have h_reach : Reach (step 2) (fun s e => ¬ TakesUnderStaging s e) Init s :=
    (Reach.init init_idle).run_guarded h_run
  have h_step := run_of_guarded h_run
  have h_lists : ∀ s', run (step 2) idle twoCpusRun = some s' → s'.hctx.dispatchList 0 = [] ∧
      s'.dispatchers = [⟨.nextCpu 1, [⟨7, 0⟩]⟩] ∧ s'.hctx.dispatchList 1 ≠ [] := by
    rintro s' h_s'
    cases h_s'
    exact ⟨rfl, rfl, by decide⟩
  obtain ⟨h_taken, h_holds, h_left⟩ := h_lists s h_step
  obtain ⟨h_bit, -, h_next⟩ := (staging_noStrand 2).1 s h_reach 1 h_left
  exact ⟨s, h_step, h_taken, h_holds, h_left, h_bit, h_next⟩

/-- Two submitters and a dispatcher on CPU 0: the dispatcher takes the first request
    after the second submitter has set the bit and before it adds its request. -/
def strandingRun : List Event :=
  [.stageMark ⟨1, 0⟩ false, .stageAdd 0, .stageMark ⟨2, 0⟩ false,
   .dispatchStart, .dispatchStep 0, .dispatchStep 0, .dispatchStep 0, .dispatchStep 0,
   .dispatchStep 0, .stageAdd 0, .dispatchStep 0, .dispatchEnd 0 fun _ => false]

/-- The second request is left staged with its bit clear and nothing else pending. -/
theorem strandingRun_strands :
    ∃ s, Reach (step 1) anyStep Init s ∧ s.Quiescent ∧ s.hctx.dispatchList 0 = [⟨2, 0⟩] ∧
      s.hctx.runCpumask 0 = false ∧ blkMqHctxHasPending 1 s.hctx = false := by
  have h_run : ∃ s, run (step 1) idle strandingRun = some s ∧ s.Quiescent ∧
      s.hctx.dispatchList 0 = [⟨2, 0⟩] ∧ s.hctx.runCpumask 0 = false ∧
      blkMqHctxHasPending 1 s.hctx = false :=
    ⟨_, rfl, rfl, by decide, by decide, by decide⟩
  obtain ⟨s, h_run, h_rest⟩ := h_run
  exact ⟨s, reach_iff_run.mpr ⟨idle, strandingRun, init_idle, h_run⟩, h_rest⟩

end Daredevil.Vnq
