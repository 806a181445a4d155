/-
  Daredevil.Block.IoContext

  The life of an io_context and of the task contexts in its `blk_blex_iocs`
  (`block/blk-ioc.c`).  Tasks share an io_context after a fork with CLONE_IO; it is
  given back when the last of them has exited and no reference is left.

  `exit_io_context` walks `blk_blex_iocs` and frees what it finds, in every exiting
  task, after it has put the io_context, and without taking the entries out.
  `contexts_live` says for which runs this does no harm.
-/
import Daredevil.Lib.Lts
import Daredevil.Lib.SparseArray

namespace Daredevil.Ioc

/-! ## State -/

/-- `struct io_context` -/
structure IoContext where
  refcount : Nat
  activeRef : Nat
  /-- references of `get_io_context` that have not been put -/
  gets : Nat
  /-- `icq_list` is not empty -/
  icqs : Bool
  /-- `release_work` is queued -/
  releaseQueued : Bool
  /-- it was given back to `iocontext_cachep` -/
  released : Bool
  /-- the `blk_blex_task_ioc` of each queue id, by number -/
  blkBlexIocs : SparseArray Nat

/-- A task, as far as `task->io_context` goes. -/
inductive TaskState where
  | noContext
  | has (ctx : Nat)
  /-- in `exit_io_context`, with the walk at queue id `qId` -/
  | exiting (ctx qId : Nat)
  | dead
  deriving DecidableEq, Repr

inductive Fault where
  | walkReleased (ctx : Nat)
  | lookupFreed (ioc : Nat)
  | doubleFree (ioc : Nat)
  deriving DecidableEq, Repr

structure State where
  tasks : Nat → TaskState
  ctxs : Nat → IoContext
  /-- io_contexts allocated so far -/
  nrCtxs : Nat
  /-- task contexts allocated so far -/
  nrIocs : Nat
  /-- the task contexts that were given to `kfree` -/
  freed : Nat → Bool
  fault : Option Fault

inductive Event where
  /-- a task gets its own io_context: `set_task_ioprio`, `ioc_find_get_icq` -/
  | create (task : Nat)
  /-- `__copy_io`; `ioprioValid`: `ioprio_valid(ioc->ioprio)` -/
  | fork (task child : Nat) (cloneIo ioprioValid : Bool)
  /-- `blk_blex_tenant_ioc_profile` or the request allocation looks up the context -/
  | lookup (task qId : Nat)
  /-- `blk_blex_tenant_ioc_profile` has found none and adds one; `ok`: memory for the xarray -/
  | insert (task qId : Nat) (ok : Bool)
  /-- `ioc_find_get_icq`; `linked`: the icq is in `icq_list` afterwards -/
  | get (task : Nat) (linked : Bool)
  /-- `put_io_context`, of a reference taken with `get` -/
  | put (ctx : Nat)
  /-- `ioc_clear_queue` takes the last icq out of the list -/
  | clearIcqs (ctx : Nat)
  /-- `ioc_release_fn` -/
  | releaseWork (ctx : Nat)
  /-- `exit_io_context` up to the walk -/
  | exit (task : Nat)
  /-- one turn of its `xa_for_each` -/
  | walk (task : Nat)

def State.setTask (s : State) (task : Nat) (t : TaskState) : State :=
  { s with tasks := Function.update s.tasks task t }

def State.setCtx (s : State) (ctx : Nat) (ioc : IoContext) : State :=
  { s with ctxs := Function.update s.ctxs ctx ioc }

@[simp] theorem setTask_tasks (s : State) (task : Nat) (t : TaskState) :
    (s.setTask task t).tasks = Function.update s.tasks task t := rfl

@[simp] theorem setTask_ctxs (s : State) (task : Nat) (t : TaskState) :
    (s.setTask task t).ctxs = s.ctxs := rfl

@[simp] theorem setCtx_tasks (s : State) (ctx : Nat) (ioc : IoContext) :
    (s.setCtx ctx ioc).tasks = s.tasks := rfl

@[simp] theorem setCtx_ctxs (s : State) (ctx : Nat) (ioc : IoContext) :
    (s.setCtx ctx ioc).ctxs = Function.update s.ctxs ctx ioc := rfl

/-! ## The source functions -/

/-- `alloc_io_context` -/
def allocIoContext : IoContext where
  refcount := 1
  activeRef := 1
  gets := 0
  icqs := false
  releaseQueued := false
  released := false
  blkBlexIocs := .empty

/-- `put_io_context` -/
def putIoContext (ioc : IoContext) : IoContext :=
  let ioc := { ioc with refcount := ioc.refcount - 1 }
  if ioc.refcount = 0 then
    -- `ioc_delay_free`
    if ioc.icqs then { ioc with releaseQueued := true } else { ioc with released := true }
  else ioc

/-- A task gets a new io_context. -/
def State.newContext (s : State) (task : Nat) : State :=
  { (s.setTask task (.has s.nrCtxs)).setCtx s.nrCtxs allocIoContext with nrCtxs := s.nrCtxs + 1 }

/-- `blk_blex_free_task_ioc`, as far as the memory goes -/
def State.freeTaskIoc (s : State) (ioc : Nat) : State :=
  if s.freed ioc then { s with fault := some (.doubleFree ioc) }
  else { s with freed := Function.update s.freed ioc true }

/-- `__copy_io` -/
def copyIo (s : State) (ctx child : Nat) (cloneIo ioprioValid : Bool) : State :=
  let ioc := s.ctxs ctx
  if cloneIo then
    (s.setCtx ctx { ioc with activeRef := ioc.activeRef + 1 }).setTask child (.has ctx)
  else if ioprioValid then s.newContext child
  else s

/-- `xa_load` of a context -/
def lookupTaskIoc (s : State) (ctx qId : Nat) : State :=
  match (s.ctxs ctx).blkBlexIocs.load qId with
  | none => s
  | some ioc => if s.freed ioc then { s with fault := some (.lookupFreed ioc) } else s

/-- A new context and its `xa_insert`; it is freed again if that fails. -/
def insertTaskIoc (s : State) (ctx qId : Nat) (ok : Bool) : State :=
  let ioc := s.ctxs ctx
  let s' := { s with nrIocs := s.nrIocs + 1 }
  if ok ∧ ioc.blkBlexIocs.load qId = none then
    s'.setCtx ctx { ioc with blkBlexIocs := ioc.blkBlexIocs.insert qId s.nrIocs }
  else { s' with freed := Function.update s.freed s.nrIocs true }

/-- `exit_io_context` up to the walk -/
def exitIoContext (s : State) (task ctx : Nat) : State :=
  let ioc := { s.ctxs ctx with activeRef := (s.ctxs ctx).activeRef - 1 }
  (s.setTask task (.exiting ctx 0)).setCtx ctx
    (if ioc.activeRef = 0 then putIoContext ioc else ioc)

/-- The walk of `exit_io_context`: free the next context. -/
def exitWalk (s : State) (task ctx qId : Nat) : State :=
  let ioc := s.ctxs ctx
  if ioc.released then { s with fault := some (.walkReleased ctx) }
  else
    match ioc.blkBlexIocs.findFrom qId with
    | none => s.setTask task .dead
    | some next =>
        match ioc.blkBlexIocs.load next with
        | none => s
        -- the entry stays in the xarray
        | some taskIoc => (s.freeTaskIoc taskIoc).setTask task (.exiting ctx (next + 1))

/-- What is possible, as long as nothing went wrong. -/
def step (s : State) (e : Event) : Option State :=
  if s.fault ≠ none then none
  else
    match e with
    | .create task => if s.tasks task = .noContext then some (s.newContext task) else none
    | .fork task child cloneIo ioprioValid =>
        match s.tasks task with
        | .has ctx =>
            if s.tasks child = .noContext then some (copyIo s ctx child cloneIo ioprioValid)
            else none
        | _ => none
    | .lookup task qId =>
        match s.tasks task with
        | .has ctx => some (lookupTaskIoc s ctx qId)
        | _ => none
    | .insert task qId ok =>
        match s.tasks task with
        | .has ctx => some (insertTaskIoc s ctx qId ok)
        | _ => none
    | .get task linked =>
        match s.tasks task with
        | .has ctx =>
            let ioc := s.ctxs ctx
            some (s.setCtx ctx { ioc with
              refcount := ioc.refcount + 1, gets := ioc.gets + 1, icqs := ioc.icqs || linked })
        | _ => none
    | .put ctx =>
        let ioc := s.ctxs ctx
        if ctx < s.nrCtxs ∧ 0 < ioc.gets then
          some (s.setCtx ctx (putIoContext { ioc with gets := ioc.gets - 1 }))
        else none
    | .clearIcqs ctx =>
        let ioc := s.ctxs ctx
        if ctx < s.nrCtxs ∧ ioc.icqs ∧ ¬ ioc.released then
          some (s.setCtx ctx { ioc with icqs := false })
        else none
    | .releaseWork ctx =>
        let ioc := s.ctxs ctx
        if ctx < s.nrCtxs ∧ ioc.releaseQueued then
          some (s.setCtx ctx { ioc with icqs := false, releaseQueued := false, released := true })
        else none
    | .exit task =>
        match s.tasks task with
        | .has ctx => some (exitIoContext s task ctx)
        | _ => none
    | .walk task =>
        match s.tasks task with
        | .exiting ctx qId => some (exitWalk s task ctx qId)
        | _ => none

/-- No io_contexts yet. -/
def Init (s : State) : Prop :=
  (∀ task, s.tasks task = .noContext) ∧ s.nrCtxs = 0 ∧ s.nrIocs = 0 ∧ (∀ ioc, s.freed ioc = false) ∧
    s.fault = none

/-! ## Runs without harm -/

/-- A task is walking the io_context, or still has it. -/
def Uses (t : TaskState) (ctx : Nat) : Prop := t = .has ctx ∨ ∃ qId, t = .exiting ctx qId

/-- A task still has to walk the io_context. -/
def WalkPending (s : State) (ctx : Nat) : Prop := ∃ task qId, s.tasks task = .exiting ctx qId

/-- Putting a reference gives the io_context back. -/
def LastPut (ioc : IoContext) : Prop := ioc.refcount = 1 ∧ ioc.icqs = false

/-- No io_context is given back with a walk of it to come, and no walk frees a context that another
task can still reach. -/
def Careful (s : State) : Event → Prop
  -- the walk of the exiting task itself is to come
  | .exit task => ∀ ctx, s.tasks task = .has ctx →
      ¬ ((s.ctxs ctx).activeRef = 1 ∧ LastPut (s.ctxs ctx))
  | .put ctx => LastPut (s.ctxs ctx) → ¬ WalkPending s ctx
  | .releaseWork ctx => ¬ WalkPending s ctx
  | .walk task => ∀ ctx qId, s.tasks task = .exiting ctx qId →
      (s.ctxs ctx).blkBlexIocs.findFrom qId = none ∨
        ∀ other, other ≠ task → ¬ Uses (s.tasks other) ctx
  | _ => True

/-! ## The invariant -/

/-- What holds of the io_context `ctx`, given the states of the tasks and the freed contexts. -/
structure CtxInv (tasks : Nat → TaskState) (freed : Nat → Bool) (ctx : Nat) (ioc : IoContext) :
    Prop where
  /-- `active_ref` counts the tasks that have it -/
  sharers : ∃ sharers : Finset Nat, (∀ task, task ∈ sharers ↔ tasks task = .has ctx) ∧
    sharers.card = ioc.activeRef
  /-- they hold one reference together -/
  refcount : ioc.refcount = ioc.gets + if ioc.activeRef = 0 then 0 else 1
  queued : ioc.releaseQueued = true → ioc.refcount = 0
  released : ioc.released = true → ioc.refcount = 0 ∧ ∀ task qId, tasks task ≠ .exiting ctx qId
  /-- what a task can find is not freed -/
  live : ∀ task, tasks task = .has ctx →
    ∀ qId taskIoc, ioc.blkBlexIocs.load qId = some taskIoc → freed taskIoc = false
  /-- nor is what a walk has still to come to -/
  ahead : ∀ task cursor, tasks task = .exiting ctx cursor →
    ∀ qId taskIoc, cursor ≤ qId → ioc.blkBlexIocs.load qId = some taskIoc → freed taskIoc = false

structure Inv (s : State) : Prop where
  fault : s.fault = none
  ctx : ∀ ctx < s.nrCtxs, CtxInv s.tasks s.freed ctx (s.ctxs ctx)
  uses : ∀ task ctx, Uses (s.tasks task) ctx → ctx < s.nrCtxs
  freed : ∀ taskIoc, s.freed taskIoc = true → taskIoc < s.nrIocs
  stored : ∀ ctx < s.nrCtxs, ∀ qId taskIoc,
    (s.ctxs ctx).blkBlexIocs.load qId = some taskIoc → taskIoc < s.nrIocs
  /-- a context is stored in one place -/
  unique : ∀ ctx < s.nrCtxs, ∀ ctx' < s.nrCtxs, ∀ qId qId' taskIoc,
    (s.ctxs ctx).blkBlexIocs.load qId = some taskIoc →
    (s.ctxs ctx').blkBlexIocs.load qId' = some taskIoc → ctx = ctx' ∧ qId = qId'

variable {tasks : Nat → TaskState} {freed : Nat → Bool} {ctx task : Nat} {ioc ioc' : IoContext}
  {s s' : State}

/-! ### One io_context -/

/-- A task that has the io_context keeps it in use. -/
theorem CtxInv.active (h : CtxInv tasks freed ctx ioc) (h_has : tasks task = .has ctx) :
    ioc.activeRef ≠ 0 ∧ ioc.refcount ≠ 0 := by
  obtain ⟨sharers, h_mem, h_card⟩ := h.sharers
  have h_pos : 0 < sharers.card := Finset.card_pos.mpr ⟨task, (h_mem task).mpr h_has⟩
  have h_active : ioc.activeRef ≠ 0 := by omega
  have h_count := h.refcount
  rw [if_neg h_active] at h_count
  exact ⟨h_active, by omega⟩

/-- Nothing but the fields that the invariant of an io_context reads. -/
theorem CtxInv.congr_refs (h : CtxInv tasks freed ctx ioc)
    (h_iocs : ioc'.blkBlexIocs = ioc.blkBlexIocs) (h_active : ioc'.activeRef = ioc.activeRef)
    (h_count : ioc'.refcount = ioc'.gets + if ioc'.activeRef = 0 then 0 else 1)
    (h_queued : ioc'.releaseQueued = true → ioc'.refcount = 0)
    (h_released : ioc'.released = true →
      ioc'.refcount = 0 ∧ ∀ task qId, tasks task ≠ .exiting ctx qId) :
    CtxInv tasks freed ctx ioc' where
  sharers := by
    rw [h_active]
    exact h.sharers
  refcount := h_count
  queued := h_queued
  released := h_released
  live := by
    rw [h_iocs]
    exact h.live
  ahead := by
    rw [h_iocs]
    exact h.ahead

/-- A task that used and uses other io_contexts does not matter. -/
theorem CtxInv.other_task (h : CtxInv tasks freed ctx ioc) {t : TaskState}
    (h_old : ¬ Uses (tasks task) ctx) (h_new : ¬ Uses t ctx) :
    CtxInv (Function.update tasks task t) freed ctx ioc := by
  have h_has (other : Nat) :
      Function.update tasks task t other = .has ctx ↔ tasks other = .has ctx := by
    by_cases h_eq : other = task
    · rw [h_eq, Function.update_self]
      exact iff_of_false (fun h => h_new (.inl h)) (fun h => h_old (.inl h))
    · rw [Function.update_of_ne h_eq]
  have h_exiting (other qId : Nat) :
      Function.update tasks task t other = .exiting ctx qId ↔ tasks other = .exiting ctx qId := by
    by_cases h_eq : other = task
    · rw [h_eq, Function.update_self]
      exact iff_of_false (fun h => h_new (.inr ⟨_, h⟩)) (fun h => h_old (.inr ⟨_, h⟩))
    · rw [Function.update_of_ne h_eq]
  refine ⟨?_, h.refcount, h.queued, ?_, ?_, ?_⟩
  · simpa only [h_has] using h.sharers
  · simpa only [ne_eq, h_exiting] using h.released
  · simpa only [h_has] using h.live
  · simpa only [h_exiting] using h.ahead

/-- Freeing a context that is stored elsewhere does not matter. -/
theorem CtxInv.free_other (h : CtxInv tasks freed ctx ioc) {taskIoc : Nat}
    (h_ne : ∀ qId, ioc.blkBlexIocs.load qId ≠ some taskIoc) :
    CtxInv tasks (Function.update freed taskIoc true) ctx ioc := by
  have h_same {qId other : Nat} (h_load : ioc.blkBlexIocs.load qId = some other) :
      Function.update freed taskIoc true other = freed other := by
    apply Function.update_of_ne
    rintro rfl
    exact h_ne qId h_load
  refine ⟨h.sharers, h.refcount, h.queued, h.released, ?_, ?_⟩
  · intro task h_has qId other h_load
    rw [h_same h_load]
    exact h.live task h_has qId other h_load
  · intro task cursor h_exiting qId other h_le h_load
    rw [h_same h_load]
    exact h.ahead task cursor h_exiting qId other h_le h_load

/-- A new context is stored. -/
theorem CtxInv.insertIoc (h : CtxInv tasks freed ctx ioc) {qId taskIoc : Nat}
    (h_fresh : freed taskIoc = false) : CtxInv tasks freed ctx
      { ioc with blkBlexIocs := ioc.blkBlexIocs.insert qId taskIoc } := by
  have h_live {qId' other : Nat}
      (h_old : ioc.blkBlexIocs.load qId' = some other → freed other = false)
      (h_load : (ioc.blkBlexIocs.insert qId taskIoc).load qId' = some other) :
      freed other = false := by
    by_cases h_eq : qId' = qId
    · rw [h_eq, SparseArray.load_insert_self] at h_load
      cases h_load
      exact h_fresh
    · rw [SparseArray.load_insert_of_ne h_eq] at h_load
      exact h_old h_load
  refine ⟨h.sharers, h.refcount, h.queued, h.released, ?_, ?_⟩
  · intro task h_has qId' other h_load
    exact h_live (h.live task h_has qId' other) h_load
  · intro task cursor h_exit qId' other h_le h_load
    exact h_live (h.ahead task cursor h_exit qId' other h_le) h_load

/-! ### Changes of the state -/

/-- A change of one io_context that keeps what is stored in it. -/
theorem load_update (s : State) (h_iocs : ioc.blkBlexIocs = (s.ctxs ctx).blkBlexIocs) (c : Nat) :
    (Function.update s.ctxs ctx ioc c).blkBlexIocs = (s.ctxs c).blkBlexIocs := by
  by_cases h_eq : c = ctx
  · rw [h_eq, Function.update_self, h_iocs]
  · rw [Function.update_of_ne h_eq]

theorem Inv.setCtx (h : Inv s) (h_iocs : ioc.blkBlexIocs = (s.ctxs ctx).blkBlexIocs)
    (h_ctx : CtxInv s.tasks s.freed ctx ioc) : Inv (s.setCtx ctx ioc) := by
  refine ⟨h.fault, ?_, h.uses, h.freed, ?_, ?_⟩
  · intro c h_c
    rw [setCtx_ctxs]
    by_cases h_eq : c = ctx
    · rw [h_eq, Function.update_self]
      exact h_ctx
    · rw [Function.update_of_ne h_eq]
      exact h.ctx c h_c
  · simp only [setCtx_ctxs, load_update s h_iocs]
    exact h.stored
  · simp only [setCtx_ctxs, load_update s h_iocs]
    exact h.unique

/-- A task moves between states that concern one io_context. -/
theorem Inv.setTask (h : Inv s) (h_lt : ctx < s.nrCtxs) {t : TaskState}
    (h_old : ∀ c, Uses (s.tasks task) c → c = ctx) (h_new : ∀ c, Uses t c → c = ctx)
    (h_iocs : ioc.blkBlexIocs = (s.ctxs ctx).blkBlexIocs)
    (h_ctx : CtxInv (Function.update s.tasks task t) s.freed ctx ioc) :
    Inv ((s.setTask task t).setCtx ctx ioc) := by
  refine ⟨h.fault, ?_, ?_, h.freed, ?_, ?_⟩
  · intro c h_c
    rw [setCtx_ctxs, setTask_ctxs]
    by_cases h_eq : c = ctx
    · rw [h_eq, Function.update_self]
      exact h_ctx
    · rw [Function.update_of_ne h_eq]
      exact (h.ctx c h_c).other_task (fun h_uses => h_eq (h_old c h_uses))
        (fun h_uses => h_eq (h_new c h_uses))
  · intro other c h_uses
    rw [setCtx_tasks, setTask_tasks] at h_uses
    by_cases h_eq : other = task
    · rw [h_eq, Function.update_self] at h_uses
      rw [h_new c h_uses]
      exact h_lt
    · rw [Function.update_of_ne h_eq] at h_uses
      exact h.uses other c h_uses
  · simp only [setCtx_ctxs, setTask_ctxs, load_update s h_iocs]
    exact h.stored
  · simp only [setCtx_ctxs, setTask_ctxs, load_update s h_iocs]
    exact h.unique

theorem uses_has {ctx c : Nat} (h : Uses (.has ctx) c) : c = ctx := by
  rcases h with h_has | ⟨qId, h_exiting⟩
  · cases h_has
    rfl
  · cases h_exiting

theorem uses_exiting {ctx cursor c : Nat} (h : Uses (.exiting ctx cursor) c) : c = ctx := by
  rcases h with h_has | ⟨qId, h_exiting⟩
  · cases h_has
  · cases h_exiting
    rfl

theorem not_uses_noContext {c : Nat} : ¬ Uses .noContext c := by
  rintro (h | ⟨qId, h⟩) <;> cases h

/-- A task in a state that is not the new one is another task. -/
theorem update_ne {t t' : TaskState} {other : Nat} (h_ne : t ≠ t')
    (h : Function.update tasks task t other = t') : other ≠ task ∧ tasks other = t' := by
  by_cases h_eq : other = task
  · rw [h_eq, Function.update_self] at h
    exact absurd h h_ne
  · rw [Function.update_of_ne h_eq] at h
    exact ⟨h_eq, h⟩

/-- What `put_io_context` changes. -/
theorem putIoContext_spec (ioc : IoContext) :
    (putIoContext ioc).blkBlexIocs = ioc.blkBlexIocs ∧
      (putIoContext ioc).activeRef = ioc.activeRef ∧ (putIoContext ioc).gets = ioc.gets ∧
      (putIoContext ioc).refcount = ioc.refcount - 1 ∧
      ((putIoContext ioc).releaseQueued = true → ioc.releaseQueued = true ∨ ioc.refcount - 1 = 0) ∧
      ((putIoContext ioc).released = true →
        ioc.released = true ∨ ioc.refcount - 1 = 0 ∧ ioc.icqs = false) := by
  simp only [putIoContext]
  split
  case isTrue h_zero =>
    split
    case isTrue => exact ⟨rfl, rfl, rfl, rfl, fun _ => .inr h_zero, .inl⟩
    case isFalse h_icqs =>
      exact ⟨rfl, rfl, rfl, rfl, .inl, fun _ => .inr ⟨h_zero, Bool.eq_false_of_not_eq_true h_icqs⟩⟩
  case isFalse => exact ⟨rfl, rfl, rfl, rfl, .inl, .inl⟩

/-! ### One lemma for each event -/

theorem Inv.newContext (h : Inv s) (h_task : s.tasks task = .noContext) :
    Inv (s.newContext task) := by
  have h_ne {c : Nat} (h_c : c < s.nrCtxs) : c ≠ s.nrCtxs := Nat.ne_of_lt h_c
  have h_old {c : Nat} (h_c : c < s.nrCtxs) :
      (s.newContext task).ctxs c = s.ctxs c := Function.update_of_ne (h_ne h_c) _ _
  have h_new : (s.newContext task).ctxs s.nrCtxs = allocIoContext := Function.update_self _ _ _
  have h_lt {c : Nat} (h_c : c < (s.newContext task).nrCtxs) (h_ne : c ≠ s.nrCtxs) :
      c < s.nrCtxs := Nat.lt_of_le_of_ne (Nat.le_of_lt_succ h_c) h_ne
  refine ⟨h.fault, ?_, ?_, h.freed, ?_, ?_⟩
  · intro c h_c
    by_cases h_eq : c = s.nrCtxs
    · rw [h_eq, h_new]
      -- only this task has it, and nobody walks it
      have h_none (other : Nat) : ¬ Uses (s.tasks other) s.nrCtxs := fun h_uses =>
        Nat.lt_irrefl _ (h.uses other _ h_uses)
      have h_exiting (other cursor : Nat) :
          (s.newContext task).tasks other ≠ .exiting s.nrCtxs cursor := by
        intro h_exit
        obtain ⟨-, h_exit⟩ := update_ne (fun h => by cases h) h_exit
        exact h_none other (.inr ⟨cursor, h_exit⟩)
      refine ⟨⟨{task}, ?_, rfl⟩, rfl, (fun h => by cases h), (fun h => by cases h), ?_, ?_⟩
      · intro other
        rw [Finset.mem_singleton]
        constructor
        · rintro rfl
          exact Function.update_self _ _ _
        · intro h_has
          by_contra h_eq'
          exact h_none other (.inl ((Function.update_of_ne h_eq' _ _).symm.trans h_has))
      · intro _ _ qId taskIoc h_load
        cases h_load
      · intro other cursor h_exit
        exact absurd h_exit (h_exiting other cursor)
    · rw [h_old (h_lt h_c h_eq)]
      apply (h.ctx c (h_lt h_c h_eq)).other_task
      · rw [h_task]
        exact not_uses_noContext
      · exact fun h_uses => h_eq (uses_has h_uses)
  · intro other c h_uses
    by_cases h_eq : other = task
    · rw [h_eq] at h_uses
      have h_uses : Uses (.has s.nrCtxs) c := by
        rwa [State.newContext, setCtx_tasks, setTask_tasks, Function.update_self] at h_uses
      rw [uses_has h_uses]
      exact Nat.lt_succ_self _
    · have h_uses : Uses (s.tasks other) c := by
        rwa [State.newContext, setCtx_tasks, setTask_tasks, Function.update_of_ne h_eq] at h_uses
      exact Nat.lt_succ_of_lt (h.uses other c h_uses)
  · intro c h_c qId taskIoc h_load
    by_cases h_eq : c = s.nrCtxs
    · rw [h_eq, h_new] at h_load
      cases h_load
    · rw [h_old (h_lt h_c h_eq)] at h_load
      exact h.stored c (h_lt h_c h_eq) qId taskIoc h_load
  · intro c h_c c' h_c' qId qId' taskIoc h_load h_load'
    by_cases h_eq : c = s.nrCtxs
    · rw [h_eq, h_new] at h_load
      cases h_load
    by_cases h_eq' : c' = s.nrCtxs
    · rw [h_eq', h_new] at h_load'
      cases h_load'
    rw [h_old (h_lt h_c h_eq)] at h_load
    rw [h_old (h_lt h_c' h_eq')] at h_load'
    exact h.unique c (h_lt h_c h_eq) c' (h_lt h_c' h_eq') qId qId' taskIoc h_load h_load'

/-- One more task has it after a fork with CLONE_IO. -/
theorem CtxInv.copyIo (h : CtxInv tasks freed ctx ioc) {child : Nat}
    (h_task : tasks task = .has ctx) (h_child : tasks child = .noContext) :
    CtxInv (Function.update tasks child (.has ctx)) freed ctx
      { ioc with activeRef := ioc.activeRef + 1 } := by
  obtain ⟨h_active, h_count⟩ := h.active h_task
  refine ⟨?_, ?_, h.queued, ?_, ?_, ?_⟩
  · obtain ⟨sharers, h_mem, h_card⟩ := h.sharers
    have h_notMem : child ∉ sharers := by
      rw [h_mem, h_child]
      exact fun h => by cases h
    refine ⟨insert child sharers, ?_, by rw [Finset.card_insert_of_notMem h_notMem, h_card]⟩
    intro other
    rw [Finset.mem_insert]
    by_cases h_eq : other = child
    · rw [h_eq, Function.update_self]
      exact iff_of_true (.inl rfl) rfl
    · rw [Function.update_of_ne h_eq, h_mem]
      exact or_iff_right h_eq
  · have h_refs := h.refcount
    rw [if_neg h_active] at h_refs
    exact h_refs
  · intro h_released
    exact absurd (h.released h_released).1 h_count
  · intro _ _ qId taskIoc h_load
    exact h.live task h_task qId taskIoc h_load
  · intro other cursor h_exit
    exact h.ahead other cursor (update_ne (fun h => by cases h) h_exit).2

/-- The exit of a task; its walk is to come. -/
theorem CtxInv.exit (h : CtxInv tasks freed ctx ioc) (h_task : tasks task = .has ctx)
    (h_careful : ¬ (ioc.activeRef = 1 ∧ LastPut ioc)) (h_ioc' : ioc' =
      if ioc.activeRef - 1 = 0 then putIoContext { ioc with activeRef := ioc.activeRef - 1 }
      else { ioc with activeRef := ioc.activeRef - 1 }) :
    CtxInv (Function.update tasks task (.exiting ctx 0)) freed ctx ioc' := by
  obtain ⟨h_active, h_count⟩ := h.active h_task
  have h_refs := h.refcount
  rw [if_neg h_active] at h_refs
  have h_released : ioc.released ≠ true := fun h_rel => h_count (h.released h_rel).1
  have h_queued : ioc.releaseQueued ≠ true := fun h_q => h_count (h.queued h_q)
  have h_put := putIoContext_spec { ioc with activeRef := ioc.activeRef - 1 }
  have h_iocs : ioc'.blkBlexIocs = ioc.blkBlexIocs := by
    rw [h_ioc']
    split
    · exact h_put.1
    · rfl
  have h_active' : ioc'.activeRef = ioc.activeRef - 1 := by
    rw [h_ioc']
    split
    · exact h_put.2.1
    · rfl
  refine ⟨?_, ?_, ?_, ?_, ?_, ?_⟩
  · obtain ⟨sharers, h_mem, h_card⟩ := h.sharers
    refine ⟨sharers.erase task, ?_, ?_⟩
    · intro other
      rw [Finset.mem_erase]
      by_cases h_eq : other = task
      · rw [h_eq, Function.update_self]
        exact iff_of_false (fun h => h.1 rfl) (fun h => by cases h)
      · rw [Function.update_of_ne h_eq, h_mem]
        exact and_iff_right h_eq
    · rw [Finset.card_erase_of_mem ((h_mem task).mpr h_task), h_card, h_active']
  · rw [h_active', h_ioc']
    split
    case isTrue h_zero => rw [h_put.2.2.2.1, h_put.2.2.1]; exact Nat.sub_eq_of_eq_add h_refs
    case isFalse => exact h_refs
  · rw [h_ioc']
    split
    case isTrue =>
      intro h_q
      rw [h_put.2.2.2.1]
      exact (h_put.2.2.2.2.1 h_q).resolve_left h_queued
    case isFalse => exact fun h_q => absurd h_q h_queued
  · rw [h_ioc']
    split
    case isTrue h_zero =>
      intro h_rel
      obtain ⟨h_one, h_icqs⟩ := (h_put.2.2.2.2.2 h_rel).resolve_left h_released
      have h_last : LastPut ioc := ⟨by dsimp only at h_one; omega, h_icqs⟩
      exact absurd ⟨by omega, h_last⟩ h_careful
    case isFalse => exact fun h_rel => absurd h_rel h_released
  · intro other h_has
    rw [h_iocs]
    exact h.live other (update_ne (fun h => by cases h) h_has).2
  · intro other cursor h_exit qId taskIoc h_le
    rw [h_iocs]
    by_cases h_eq : other = task
    · exact h.live task h_task qId taskIoc
    · rw [Function.update_of_ne h_eq] at h_exit
      exact h.ahead other cursor h_exit qId taskIoc h_le

/-- A walk moves on, or ends. -/
theorem CtxInv.moveOn (h : CtxInv tasks freed ctx ioc) {cursor : Nat} {t : TaskState}
    (h_task : tasks task = .exiting ctx cursor)
    (h_t : ∀ c cursor', t ≠ .has c ∧ (t = .exiting c cursor' → cursor ≤ cursor')) :
    CtxInv (Function.update tasks task t) freed ctx ioc := by
  have h_has (other : Nat) :
      Function.update tasks task t other = .has ctx ↔ tasks other = .has ctx := by
    by_cases h_eq : other = task
    · rw [h_eq, Function.update_self, h_task]
      exact iff_of_false (h_t ctx 0).1 (fun h => by cases h)
    · rw [Function.update_of_ne h_eq]
  refine ⟨?_, h.refcount, h.queued, ?_, ?_, ?_⟩
  · simpa only [h_has] using h.sharers
  · intro h_released
    exact absurd h_task ((h.released h_released).2 task cursor)
  · simpa only [h_has] using h.live
  · intro other cursor' h_exit qId taskIoc h_le
    by_cases h_eq : other = task
    · rw [h_eq, Function.update_self] at h_exit
      exact h.ahead task cursor h_task qId taskIoc (((h_t ctx cursor').2 h_exit).trans h_le)
    · rw [Function.update_of_ne h_eq] at h_exit
      exact h.ahead other cursor' h_exit qId taskIoc h_le

theorem Inv.moveOn (h : Inv s) {cursor : Nat} {t : TaskState}
    (h_task : s.tasks task = .exiting ctx cursor)
    (h_t : ∀ c cursor', t ≠ .has c ∧ (t = .exiting c cursor' → c = ctx ∧ cursor ≤ cursor')) :
    Inv (s.setTask task t) := by
  have h_lt := h.uses task ctx (.inr ⟨cursor, h_task⟩)
  have h_self : (s.setTask task t).setCtx ctx (s.ctxs ctx) = s.setTask task t := by
    rw [State.setCtx, setTask_ctxs, Function.update_eq_self]
    rfl
  rw [← h_self]
  apply h.setTask h_lt
  · intro c h_uses
    rw [h_task] at h_uses
    exact uses_exiting h_uses
  · rintro c (h_has | ⟨cursor', h_exit⟩)
    · exact absurd h_has (h_t c 0).1
    · exact ((h_t c cursor').2 h_exit).1
  · rfl
  · exact (h.ctx ctx h_lt).moveOn h_task fun c cursor' =>
      ⟨(h_t c cursor').1, fun h_exit => ((h_t c cursor').2 h_exit).2⟩

/-- The walk has passed an entry that nobody else can reach, which is freed. -/
theorem Inv.free (h : Inv s) (h_lt : ctx < s.nrCtxs) {qId taskIoc : Nat}
    (h_load : (s.ctxs ctx).blkBlexIocs.load qId = some taskIoc)
    (h_task : s.tasks task = .exiting ctx (qId + 1))
    (h_alone : ∀ other, other ≠ task → ¬ Uses (s.tasks other) ctx) :
    Inv { s with freed := Function.update s.freed taskIoc true } := by
  refine ⟨h.fault, ?_, h.uses, ?_, h.stored, h.unique⟩
  · intro c h_c
    by_cases h_eq : c = ctx
    · have h_ctx := h.ctx c h_c
      rw [h_eq] at h_ctx ⊢
      refine ⟨h_ctx.sharers, h_ctx.refcount, h_ctx.queued, h_ctx.released, ?_, ?_⟩
      · intro other h_has
        by_cases h_other : other = task
        · rw [h_other, h_task] at h_has
          cases h_has
        · exact absurd (.inl h_has) (h_alone other h_other)
      · intro other cursor h_exit qId' taskIoc' h_le h_load'
        by_cases h_other : other = task
        · rw [h_other, h_task] at h_exit
          cases h_exit
          -- the entries ahead are not the one that is freed
          have h_ne : taskIoc' ≠ taskIoc := by
            rintro rfl
            have := (h.unique ctx h_lt ctx h_lt qId qId' _ h_load h_load').2
            omega
          exact (Function.update_of_ne h_ne _ _).trans
            (h_ctx.ahead task _ h_task qId' taskIoc' h_le h_load')
        · exact absurd (.inr ⟨cursor, h_exit⟩) (h_alone other h_other)
    · apply (h.ctx c h_c).free_other
      intro qId' h_load'
      exact h_eq (h.unique c h_c ctx h_lt qId' qId taskIoc h_load' h_load).1
  · intro other h_freed
    by_cases h_eq : other = taskIoc
    · rw [h_eq]
      exact h.stored ctx h_lt qId taskIoc h_load
    · exact h.freed other ((Function.update_of_ne h_eq _ _).symm.trans h_freed)

/-- A turn of the walk. -/
theorem Inv.exitWalk (h : Inv s) {cursor : Nat} (h_task : s.tasks task = .exiting ctx cursor)
    (h_careful : (s.ctxs ctx).blkBlexIocs.findFrom cursor = none ∨
      ∀ other, other ≠ task → ¬ Uses (s.tasks other) ctx) :
    Inv (Ioc.exitWalk s task ctx cursor) := by
  have h_lt := h.uses task ctx (.inr ⟨cursor, h_task⟩)
  have h_ctx := h.ctx ctx h_lt
  have h_released : ¬ (s.ctxs ctx).released = true := fun h_rel =>
    (h_ctx.released h_rel).2 task cursor h_task
  rw [Ioc.exitWalk, if_neg h_released]
  cases h_find : (s.ctxs ctx).blkBlexIocs.findFrom cursor with
  | none =>
      apply h.moveOn h_task
      intro c cursor'
      exact ⟨fun h => (by cases h), fun h => (by cases h)⟩
  | some next =>
      obtain ⟨h_le, ⟨taskIoc, h_load⟩, -⟩ := SparseArray.findFrom_some h_find
      have h_alone := h_careful.resolve_left (by rw [h_find]; exact Option.some_ne_none next)
      have h_live := h_ctx.ahead task cursor h_task next taskIoc h_le h_load
      have h_moved : Inv (s.setTask task (.exiting ctx (next + 1))) := by
        apply h.moveOn h_task
        intro c cursor'
        refine ⟨fun h => (by cases h), fun h => ?_⟩
        cases h
        exact ⟨rfl, by omega⟩
      simp only [h_load]
      rw [State.freeTaskIoc, h_live]
      apply h_moved.free h_lt h_load (Function.update_self ..)
      intro other h_ne
      rw [setTask_tasks, Function.update_of_ne h_ne]
      exact h_alone other h_ne

/-- A new context, stored or freed at once. -/
theorem Inv.insertTaskIoc (h : Inv s) {qId : Nat} {ok : Bool} (h_lt : ctx < s.nrCtxs) :
    Inv (Ioc.insertTaskIoc s ctx qId ok) := by
  have h_fresh : s.freed s.nrIocs = false := by
    apply Bool.eq_false_of_not_eq_true
    exact fun h_freed => Nat.lt_irrefl _ (h.freed _ h_freed)
  simp only [Ioc.insertTaskIoc]
  split
  case isTrue h_ok =>
    -- what is stored now: the new context, or what was stored before
    have h_load {c qId' taskIoc : Nat}
        (h_some : ((s.setCtx ctx { s.ctxs ctx with
          blkBlexIocs := (s.ctxs ctx).blkBlexIocs.insert qId s.nrIocs }).ctxs c).blkBlexIocs.load
            qId' = some taskIoc) :
        (c = ctx ∧ qId' = qId ∧ taskIoc = s.nrIocs) ∨
          (s.ctxs c).blkBlexIocs.load qId' = some taskIoc := by
      rw [setCtx_ctxs] at h_some
      by_cases h_eq : c = ctx
      · rw [h_eq, Function.update_self] at h_some
        by_cases h_q : qId' = qId
        · rw [h_q, SparseArray.load_insert_self] at h_some
          cases h_some
          exact .inl ⟨h_eq, h_q, rfl⟩
        · rw [SparseArray.load_insert_of_ne h_q] at h_some
          exact .inr (h_eq ▸ h_some)
      · rw [Function.update_of_ne h_eq] at h_some
        exact .inr h_some
    have h_ne_new {c qId' : Nat} (h_c : c < s.nrCtxs)
        (h_some : (s.ctxs c).blkBlexIocs.load qId' = some s.nrIocs) : False :=
      Nat.lt_irrefl _ (h.stored c h_c qId' _ h_some)
    refine ⟨h.fault, ?_, h.uses, fun _ h_freed => Nat.lt_succ_of_lt (h.freed _ h_freed), ?_, ?_⟩
    · intro c h_c
      rw [setCtx_ctxs]
      by_cases h_eq : c = ctx
      · rw [h_eq, Function.update_self]
        exact (h.ctx ctx h_lt).insertIoc h_fresh
      · rw [Function.update_of_ne h_eq]
        exact h.ctx c h_c
    · intro c h_c qId' taskIoc h_some
      rcases h_load h_some with ⟨-, -, rfl⟩ | h_some
      · exact Nat.lt_succ_self _
      · exact Nat.lt_succ_of_lt (h.stored c h_c qId' taskIoc h_some)
    · intro c h_c c' h_c' qId₁ qId₂ taskIoc h_some h_some'
      rcases h_load h_some with ⟨h₁, h₂, rfl⟩ | h_some
      · rcases h_load h_some' with ⟨h₃, h₄, -⟩ | h_some'
        · exact ⟨h₁.trans h₃.symm, h₂.trans h₄.symm⟩
        · exact (h_ne_new h_c' h_some').elim
      · rcases h_load h_some' with ⟨-, -, rfl⟩ | h_some'
        · exact (h_ne_new h_c h_some).elim
        · exact h.unique c h_c c' h_c' qId₁ qId₂ taskIoc h_some h_some'
  case isFalse =>
    refine ⟨h.fault, ?_, h.uses, ?_, ?_, h.unique⟩
    · intro c h_c
      apply (h.ctx c h_c).free_other
      exact fun qId' h_some => Nat.lt_irrefl _ (h.stored c h_c qId' _ h_some)
    · intro taskIoc h_freed
      by_cases h_eq : taskIoc = s.nrIocs
      · rw [h_eq]
        exact Nat.lt_succ_self _
      · exact Nat.lt_succ_of_lt
          (h.freed taskIoc ((Function.update_of_ne h_eq _ _).symm.trans h_freed))
    · exact fun c h_c qId' taskIoc h_some => Nat.lt_succ_of_lt (h.stored c h_c qId' _ h_some)

theorem Inv.copyIo (h : Inv s) {child : Nat} {cloneIo ioprioValid : Bool}
    (h_task : s.tasks task = .has ctx) (h_child : s.tasks child = .noContext) :
    Inv (Ioc.copyIo s ctx child cloneIo ioprioValid) := by
  have h_lt := h.uses task ctx (.inl h_task)
  rw [Ioc.copyIo]
  split
  case isTrue =>
    apply h.setTask h_lt
    · intro c h_uses
      rw [h_child] at h_uses
      exact absurd h_uses not_uses_noContext
    · exact fun c => uses_has
    · rfl
    · exact (h.ctx ctx h_lt).copyIo h_task h_child
  case isFalse =>
    split
    case isTrue => exact h.newContext h_child
    case isFalse => exact h

theorem Inv.lookupTaskIoc (h : Inv s) (h_task : s.tasks task = .has ctx) (qId : Nat) :
    Inv (Ioc.lookupTaskIoc s ctx qId) := by
  rw [Ioc.lookupTaskIoc]
  cases h_load : (s.ctxs ctx).blkBlexIocs.load qId with
  | none => exact h
  | some taskIoc =>
      have h_live := (h.ctx ctx (h.uses task ctx (.inl h_task))).live task h_task qId taskIoc h_load
      simp only [h_live]
      exact h

theorem Inv.exitIoContext (h : Inv s) (h_task : s.tasks task = .has ctx)
    (h_careful : ¬ ((s.ctxs ctx).activeRef = 1 ∧ LastPut (s.ctxs ctx))) :
    Inv (Ioc.exitIoContext s task ctx) := by
  have h_lt := h.uses task ctx (.inl h_task)
  have h_ctx := (h.ctx ctx h_lt).exit h_task h_careful rfl
  rw [Ioc.exitIoContext]
  apply h.setTask h_lt _ (fun c => uses_exiting) _ h_ctx
  · intro c h_uses
    rw [h_task] at h_uses
    exact uses_has h_uses
  · split
    · exact (putIoContext_spec _).1
    · rfl

/-- A reference that was taken with `get_io_context` is put. -/
theorem Inv.put (h : Inv s) (h_lt : ctx < s.nrCtxs) (h_gets : 0 < (s.ctxs ctx).gets)
    (h_careful : LastPut (s.ctxs ctx) → ¬ WalkPending s ctx) :
    Inv (s.setCtx ctx (putIoContext { s.ctxs ctx with gets := (s.ctxs ctx).gets - 1 })) := by
  have h_ctx := h.ctx ctx h_lt
  have h_refs := h_ctx.refcount
  have h_put := putIoContext_spec { s.ctxs ctx with gets := (s.ctxs ctx).gets - 1 }
  apply h.setCtx h_put.1
  apply h_ctx.congr_refs h_put.1 h_put.2.1
  · rw [h_put.2.1, h_put.2.2.1, h_put.2.2.2.1]
    dsimp only
    omega
  · intro h_queued
    rw [h_put.2.2.2.1]
    rcases h_put.2.2.2.2.1 h_queued with h_old | h_zero
    · have := h_ctx.queued h_old
      dsimp only
      omega
    · exact h_zero
  · intro h_released
    rw [h_put.2.2.2.1]
    rcases h_put.2.2.2.2.2 h_released with h_old | ⟨h_zero, h_icqs⟩
    · have := (h_ctx.released h_old).1
      omega
    · have h_one : (s.ctxs ctx).refcount = 1 := by
        dsimp only at h_zero
        omega
      have h_none := h_careful ⟨h_one, h_icqs⟩
      exact ⟨h_zero, fun task qId h_exit => h_none ⟨task, qId, h_exit⟩⟩

/-- A careful step keeps the invariant; there is a case for each event. -/
theorem Inv.next {e : Event} (h : Inv s) (h_careful : Careful s e) (h_step : step s e = some s') :
    Inv s' := by
  rw [step.eq_def, if_neg (fun h_ne => h_ne h.fault)] at h_step
  cases e with
  | create task =>
      obtain ⟨h_task, h_eq⟩ := Option.ite_none_right_eq_some.mp h_step
      cases h_eq
      exact h.newContext h_task
  | fork task child cloneIo ioprioValid =>
      dsimp only at h_step
      split at h_step
      case h_1 ctx h_task =>
        obtain ⟨h_child, h_eq⟩ := Option.ite_none_right_eq_some.mp h_step
        cases h_eq
        exact h.copyIo h_task h_child
      case h_2 => cases h_step
  | lookup task qId =>
      dsimp only at h_step
      split at h_step
      case h_1 ctx h_task =>
        cases h_step
        exact h.lookupTaskIoc h_task qId
      case h_2 => cases h_step
  | insert task qId ok =>
      dsimp only at h_step
      split at h_step
      case h_1 ctx h_task =>
        cases h_step
        exact h.insertTaskIoc (h.uses task ctx (.inl h_task))
      case h_2 => cases h_step
  | get task linked =>
      dsimp only at h_step
      split at h_step
      case h_1 ctx h_task =>
        cases h_step
        have h_lt := h.uses task ctx (.inl h_task)
        have h_ctx := h.ctx ctx h_lt
        have h_count := (h_ctx.active h_task).2
        have h_refs := h_ctx.refcount
        refine h.setCtx rfl ?_
        refine h_ctx.congr_refs rfl rfl ?_ ?_ ?_
        · dsimp only
          omega
        · intro h_queued
          exact absurd (h_ctx.queued h_queued) h_count
        · intro h_released
          exact absurd (h_ctx.released h_released).1 h_count
      case h_2 => cases h_step
  | put ctx =>
      obtain ⟨⟨h_lt, h_gets⟩, h_eq⟩ := Option.ite_none_right_eq_some.mp h_step
      cases h_eq
      exact h.put h_lt h_gets h_careful
  | clearIcqs ctx =>
      obtain ⟨⟨h_lt, -⟩, h_eq⟩ := Option.ite_none_right_eq_some.mp h_step
      cases h_eq
      have h_ctx := h.ctx ctx h_lt
      refine h.setCtx rfl ?_
      exact h_ctx.congr_refs rfl rfl h_ctx.refcount h_ctx.queued h_ctx.released
  | releaseWork ctx =>
      obtain ⟨⟨h_lt, h_queued⟩, h_eq⟩ := Option.ite_none_right_eq_some.mp h_step
      cases h_eq
      have h_ctx := h.ctx ctx h_lt
      have h_zero := h_ctx.queued h_queued
      refine h.setCtx rfl ?_
      refine h_ctx.congr_refs rfl rfl h_ctx.refcount (fun _ => h_zero) ?_
      intro _
      exact ⟨h_zero, fun task qId h_exit => h_careful ⟨task, qId, h_exit⟩⟩
  | exit task =>
      dsimp only at h_step
      split at h_step
      case h_1 ctx h_task =>
        cases h_step
        exact h.exitIoContext h_task (h_careful ctx h_task)
      case h_2 => cases h_step
  | walk task =>
      dsimp only at h_step
      split at h_step
      case h_1 ctx qId h_task =>
        cases h_step
        exact h.exitWalk h_task (h_careful ctx qId h_task)
      case h_2 => cases h_step

/-- In a careful run no context is freed twice or found after it was freed, and no io_context is
walked after it was given back. -/
theorem contexts_live (h : Lts.Reach step Careful Init s) : s.fault = none := by
  have h_inv : Inv s := by
    refine h.invariant ?_ (fun _ _ _ h_inv h_careful h_step => h_inv.next h_careful h_step)
    rintro s ⟨h_tasks, h_ctxs, -, h_freed, h_fault⟩
    have h_none (c : Nat) : ¬ c < s.nrCtxs := by omega
    refine ⟨h_fault, fun c h_c => absurd h_c (h_none c), ?_, ?_, fun c h_c => absurd h_c (h_none c),
      fun c h_c => absurd h_c (h_none c)⟩
    · intro task c h_uses
      rw [h_tasks] at h_uses
      exact absurd h_uses not_uses_noContext
    · intro taskIoc h_true
      rw [h_freed] at h_true
      cases h_true
  exact h_inv.fault

def noContexts : State where
  tasks _ := .noContext
  ctxs _ := allocIoContext
  nrCtxs := 0
  nrIocs := 0
  freed _ := false
  fault := none

/-- A task whose io_context is still referenced, by a request with an icq, when it exits. -/
def heldRun : List Event :=
  [.create 0, .insert 0 3 true, .get 0 true, .lookup 0 3, .exit 0, .walk 0, .walk 0, .clearIcqs 0,
    .put 0]

theorem contexts_live_heldRun :
    ∃ s, Lts.run step noContexts heldRun = some s ∧ (s.ctxs 0).released ∧ s.freed 0 ∧
      s.fault = none := by
  have h_init : Lts.Reach step Careful Init noContexts :=
    .init ⟨fun _ => rfl, rfl, rfl, fun _ => rfl, rfl⟩
  have h_get := ((h_init.step (e := Event.create 0) trivial rfl).step
    (e := Event.insert 0 3 true) trivial rfl).step (e := Event.get 0 true) trivial rfl
  have h_exit := (h_get.step (e := Event.lookup 0 3) trivial rfl).step (e := Event.exit 0) (by
    intro ctx h_has
    have h_has : TaskState.has 0 = .has ctx := h_has
    cases h_has
    rintro ⟨-, h_one, -⟩
    exact absurd h_one (by decide +kernel)) rfl
  -- there is no other task
  have h_other {tasks : Nat → TaskState} (h : ∀ other, other ≠ 0 → tasks other = .noContext)
      (t : TaskState) : ∀ other, other ≠ 0 → Function.update tasks 0 t other = .noContext := by
    intro other h_ne
    rw [Function.update_of_ne h_ne]
    exact h other h_ne
  have h_alone := h_other (h_other (fun other _ => (rfl : noContexts.tasks other = _)) (.has 0))
    (.exiting 0 0)
  have h_free := h_exit.step (e := Event.walk 0) (by
    intro ctx qId _
    refine .inr fun other h_ne h_uses => not_uses_noContext (c := ctx) ?_
    exact (congrArg (Uses · ctx) (h_alone other h_ne)).mp h_uses) rfl
  have h_dead := h_free.step (e := Event.walk 0) (by
    intro ctx qId h_walk
    have h_walk : TaskState.exiting 0 4 = .exiting ctx qId := h_walk
    cases h_walk
    exact .inl (by decide +kernel)) rfl
  have h_put := (h_dead.step (e := Event.clearIcqs 0) trivial rfl).step (e := Event.put 0) (by
    rintro - ⟨task, qId, h_walk⟩
    by_cases h_eq : task = 0
    · rw [h_eq] at h_walk
      cases (h_walk : TaskState.dead = .exiting 0 qId)
    · cases (h_other (h_other h_alone (.exiting 0 4)) .dead task h_eq).symm.trans h_walk) rfl
  exact ⟨_, rfl, rfl, rfl, contexts_live h_put⟩

/-- One task does I/O and exits; a task that shares its io_context does I/O, or exits, after it. -/
theorem exit_harms :
    ((Lts.run step noContexts [.create 0, .insert 0 3 true, .exit 0, .walk 0]).bind State.fault =
      some (.walkReleased 0)) ∧
    ((Lts.run step noContexts
      [.create 0, .insert 0 3 true, .fork 0 1 true true, .exit 0, .walk 0, .lookup 1 3]).bind
        State.fault = some (.lookupFreed 0)) ∧
    (Lts.run step noContexts [.create 0, .insert 0 3 true, .fork 0 1 true true,
      .fork 0 2 true true, .exit 0, .walk 0, .exit 1, .walk 1]).bind State.fault =
        some (.doubleFree 0) := by
  decide +kernel

end Daredevil.Ioc
