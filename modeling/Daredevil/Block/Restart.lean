/-
  Daredevil.Block.Restart

  How a hardware context that has run out of driver tags is run again (`block/blk-mq-sched.c`,
  `block/blk-mq.c`).  On a queue with an I/O scheduler a request gets its driver tag when it is
  dispatched.  A dispatcher that gets none marks the context (`BLK_MQ_S_SCHED_RESTART`), tries
  once more, puts what is left on `hctx->dispatch`, and looks whether the mark is still there.
  Whoever frees a request of the context takes the mark away and runs the context.

  A blex tag set has no I/O scheduler (`BLK_MQ_F_NO_SCHED`), so this is about the others, the set of
  an NVMe device with one I/O queue among them: every context has tags of its own, and
  `__blk_mq_sched_dispatch_requests` takes `hctx->dispatch` and then goes to the scheduler.  The
  tags are not shared between request queues, and the scheduler has a queue for each hardware
  context.

  Any number of dispatchers and of completions are under way at a time, and each access to the
  mark, to the list, to the scheduler and to the tags is a step.

    * `Counters`     — a hardware context as the numbers of requests and of parties;
    * `Counters.Ok`  — who sees to it that the context is run;
    * `step_ok`      — every step keeps that;
    * `noStall`      — a context on which nobody is at work has nothing to dispatch, or is marked,
                       and the driver has a request of it.
-/
import Daredevil.Block.Dispatch
import Daredevil.Lib.Lts
import Daredevil.Lib.Parties

namespace Daredevil.Restart

open Dispatch (BlkStatus)

/-! ## State -/

/-- A request that has been dispatched; `tag` says whether it has a driver tag. -/
structure Request where
  id : Nat
  tag : Bool
  deriving DecidableEq, Repr

/-- Requests that have got a tag. -/
def withTags (ids : List Nat) : List Request := ids.map fun id => ⟨id, true⟩

/-- The part of `struct blk_mq_hw_ctx` that is about running it. -/
structure HwCtx where
  /-- `BLK_MQ_S_SCHED_RESTART` -/
  restart : Bool
  dispatch : List Request
  /-- what the scheduler has for the context -/
  sched : List Nat
  /-- `run_work` is queued -/
  runWork : Bool
  deriving DecidableEq, Repr

/-- The variables of a call of `blk_mq_dispatch_rq_list`, and of its caller. -/
structure Batch where
  list : List Request
  needsResource : Bool
  /-- the requests are from the scheduler, not from `hctx->dispatch` -/
  fromSched : Bool
  /-- `__blk_mq_do_dispatch_sched` has found requests on `hctx->dispatch` -/
  busy : Bool
  deriving DecidableEq, Repr

/-- Where a dispatcher stands. -/
inductive Pc where
  /-- at the beginning of `__blk_mq_sched_dispatch_requests` -/
  | start
  /-- has taken `hctx->dispatch` -/
  | taken (rq : Request) (rqs : List Request)
  /-- in the loop of `__blk_mq_do_dispatch_sched`, with requests that have got a tag, is to ask the
  scheduler whether it has work -/
  | collect (ids : List Nat)
  /-- is to look at `hctx->dispatch` -/
  | look (ids : List Nat)
  /-- is to take a request from the scheduler -/
  | dequeue (ids : List Nat)
  /-- has taken one, which is to get a tag -/
  | dequeued (ids : List Nat) (id : Nat)
  /-- at the loop of `blk_mq_dispatch_rq_list` -/
  | next (b : Batch)
  /-- `blk_mq_get_driver_tag` has failed, for a request that is first on the list -/
  | failed (id : Nat) (b : Batch)
  /-- has set the mark in `blk_mq_mark_tag_wait` -/
  | marked (id : Nat) (b : Batch)
  /-- has a request with a tag, and is to see about `bd.last` -/
  | last (id : Nat) (b : Batch)
  /-- in `queue_rq` -/
  | queued (id : Nat) (b : Batch)
  /-- in `blk_mq_handle_dev_resource`, is to put the tag of the request that was refused -/
  | refused (id : Nat) (b : Batch)
  /-- is to put what is left on `hctx->dispatch` -/
  | putBack (id : Nat) (b : Batch)
  /-- is to look at the mark -/
  | check (b : Batch)
  deriving DecidableEq, Repr

section State

variable (ι : Type)

/-- A call of `blk_mq_sched_dispatch_requests`. -/
structure Dispatcher where
  hctx : ι
  /-- `__blk_mq_sched_dispatch_requests` has returned `-EAGAIN` once -/
  again : Bool
  pc : Pc
  deriving DecidableEq, Repr

/-- Where a caller of `blk_mq_sched_restart` or `blk_mq_run_hw_queue` stands. -/
inductive Stage where
  /-- is to look at the mark -/
  | restart
  /-- has seen it -/
  | clear
  /-- is to look at `hctx->dispatch` -/
  | run
  /-- found nothing there, and is to ask the scheduler -/
  | ask
  deriving DecidableEq, Repr

structure Caller where
  hctx : ι
  stage : Stage
  deriving DecidableEq, Repr

structure State where
  hctx : ι → HwCtx
  /-- the contexts of the requests that the driver has -/
  accepted : List ι
  /-- the contexts of the requests that have a tag -/
  held : List ι
  dispatchers : List (Dispatcher ι)
  callers : List (Caller ι)

end State

/-- What a step depends on besides the state. -/
inductive Choice where
  | go
  /-- `count` has reached `max_dispatch`, or `need_resched()` -/
  | stop
  /-- what `queue_rq` returns -/
  | answer (st : BlkStatus)
  deriving DecidableEq, Repr

inductive Event (ι : Type) where
  /-- `blk_mq_sched_insert_request`, to the scheduler -/
  | insert (i : ι) (id : Nat)
  /-- the same for a flush or a passthrough request: `blk_mq_request_bypass_insert` -/
  | bypass (i : ι) (id : Nat) (atHead : Bool)
  /-- a request is completed and freed, and its tag put -/
  | complete (i : ι)
  | call (c : Caller ι)
  /-- `blk_mq_delay_run_hw_queue` -/
  | delayRun (i : ι)
  /-- `blk_mq_run_work_fn` -/
  | runWork (i : ι)
  | turn (d : Dispatcher ι) (choice : Choice)
  deriving DecidableEq, Repr

/-! ## Steps -/

section Steps

variable {ι : Type} [DecidableEq ι]

namespace State

def setHctx (s : State ι) (i : ι) (x : HwCtx) : State ι :=
  { s with hctx := Function.update s.hctx i x }

def spawn (s : State ι) (i : ι) (stage : Stage) : State ι :=
  { s with callers := ⟨i, stage⟩ :: s.callers }

/-- A dispatcher begins, goes on, or is done. -/
def launch (s : State ι) (i : ι) : State ι :=
  { s with dispatchers := ⟨i, false, .start⟩ :: s.dispatchers }

def move (s : State ι) (d d' : Dispatcher ι) : State ι :=
  { s with dispatchers := Parties.move s.dispatchers d d' }

def leave (s : State ι) (d : Dispatcher ι) : State ι :=
  { s with dispatchers := s.dispatchers.erase d }

/-- `blk_mq_get_driver_tag` -/
def getTag (s : State ι) (i : ι) : State ι := { s with held := i :: s.held }

/-- `blk_mq_put_driver_tag`, for a request that has one -/
def putTag (s : State ι) (i : ι) : State ι := { s with held := s.held.erase i }

/-- The tags of context `i` are not all taken. -/
def hasTag (depth : Nat) (s : State ι) (i : ι) : Bool := s.held.count i < depth

/-- `-EAGAIN`: once more, and the second time `blk_mq_run_hw_queue`. -/
def retry (s : State ι) (d : Dispatcher ι) : State ι :=
  if d.again then (s.leave d).spawn d.hctx .run
  else s.move d { d with again := true, pc := .start }

/-- The loop of `__blk_mq_do_dispatch_sched` has ended. -/
def collected (s : State ι) (d : Dispatcher ι) (ids : List Nat) (busy : Bool) : State ι :=
  if ids.isEmpty then if busy then s.retry d else s.leave d
  else s.move d { d with pc := .next ⟨withTags ids, false, true, busy⟩ }

/-- `blk_mq_dispatch_rq_list` has returned false. -/
def finish (s : State ι) (d : Dispatcher ι) (b : Batch) : State ι :=
  if b.busy then s.retry d else s.leave d

end State

/-- `blk_mq_handle_dev_resource`, up to `__blk_mq_requeue_request`: the next request gives its tag
back. -/
def blkMqHandleDevResource (s : State ι) (i : ι) (b : Batch) : State ι × Batch :=
  match b.list with
  | nxt :: rqs =>
      if nxt.tag then (s.putTag i, { b with list := { nxt with tag := false } :: rqs })
      else (s, b)
  | [] => (s, b)

/-- What a dispatcher does next. -/
def turn (depth : Nat) (s : State ι) (d : Dispatcher ι) (choice : Choice) : Option (State ι) :=
  let h := s.hctx d.hctx
  let goto := fun (s : State ι) (pc : Pc) => s.move d { d with pc := pc }
  match d.pc with
  | .start =>
      match h.dispatch with
      | rq :: rqs => some (goto (s.setHctx d.hctx { h with dispatch := [] }) (.taken rq rqs))
      | [] => some (goto s (.collect []))
  | .taken rq rqs =>
      some (goto (s.setHctx d.hctx { h with restart := true })
        (.next ⟨rq :: rqs, false, false, false⟩))
  | .collect ids =>
      if choice = .stop then if ids.isEmpty then none else some (s.collected d ids false)
      else if h.sched.isEmpty then some (s.collected d ids false)
      else some (goto s (.look ids))
  | .look ids =>
      if h.dispatch.isEmpty then some (goto s (.dequeue ids)) else some (s.collected d ids true)
  | .dequeue ids =>
      match h.sched with
      | id :: rest => some (goto (s.setHctx d.hctx { h with sched := rest }) (.dequeued ids id))
      | [] =>
          -- `blk_mq_delay_run_hw_queues`; `.delayRun` is the same for the other contexts
          if ids.isEmpty then some ((s.setHctx d.hctx { h with runWork := true }).leave d)
          else some (s.collected d ids false)
  | .dequeued ids id =>
      if s.hasTag depth d.hctx then some (goto (s.getTag d.hctx) (.collect (ids ++ [id])))
      -- no more requests are taken from the scheduler than there are tags, but one
      else some (goto s (.next ⟨withTags ids ++ [⟨id, false⟩], false, true, false⟩))
  | .next b =>
      match b.list with
      | rq :: rqs =>
          if rq.tag then some (goto s (.last rq.id { b with list := rqs }))
          else if s.hasTag depth d.hctx then
            some (goto (s.getTag d.hctx) (.last rq.id { b with list := rqs }))
          else some (goto s (.failed rq.id { b with list := rqs }))
      | [] =>
          if b.busy then some (s.retry d)
          else if choice = .stop then
            if b.fromSched then
              some ((s.setHctx d.hctx { h with runWork := true }).leave d)
            else none
          else some (goto s (.collect []))
  | .failed id b => some (goto (s.setHctx d.hctx { h with restart := true }) (.marked id b))
  | .marked id b =>
      if s.hasTag depth d.hctx then some (goto (s.getTag d.hctx) (.last id b))
      else some (goto s (.putBack id b))
  | .last id b =>
      match b.list with
      | nxt :: rqs =>
          if !nxt.tag && s.hasTag depth d.hctx then
            some (goto (s.getTag d.hctx)
              (.queued id { b with list := { nxt with tag := true } :: rqs }))
          else some (goto s (.queued id b))
      | [] => some (goto s (.queued id b))
  | .queued id b =>
      match choice with
      | .answer .ok => some (goto { s with accepted := d.hctx :: s.accepted } (.next b))
      | .answer .resource =>
          let r := blkMqHandleDevResource s d.hctx b
          some (goto r.1 (.refused id { r.2 with needsResource := true }))
      | .answer .devResource =>
          -- the driver says so only when it has a request that it will complete
          if d.hctx ∈ s.accepted then
            let r := blkMqHandleDevResource s d.hctx b
            some (goto r.1 (.refused id r.2))
          else none
      | .answer .error => some (goto ((s.putTag d.hctx).spawn d.hctx .restart) (.next b))
      -- no zoned device
      | _ => none
  | .refused id b => some (goto (s.putTag d.hctx) (.putBack id b))
  | .putBack id b =>
      some (goto (s.setHctx d.hctx { h with dispatch := h.dispatch ++ ⟨id, false⟩ :: b.list })
        (.check { b with list := [] }))
  | .check b =>
      if !h.restart then some ((s.spawn d.hctx .run).finish d b)
      else if b.needsResource then
        some ((s.setHctx d.hctx { h with runWork := true }).finish d b)
      else some (s.finish d b)

def step (depth : Nat) (s : State ι) : Event ι → Option (State ι)
  | .insert i id =>
      some ((s.setHctx i { s.hctx i with sched := (s.hctx i).sched ++ [id] }).spawn i .run)
  | .bypass i id atHead =>
      let list := (s.hctx i).dispatch
      some ((s.setHctx i { s.hctx i with
        dispatch := if atHead then ⟨id, false⟩ :: list else list ++ [⟨id, false⟩] }).spawn i .run)
  | .complete i =>
      if i ∈ s.accepted then
        some (({ s with accepted := s.accepted.erase i }.putTag i).spawn i .restart)
      else none
  | .call c =>
      if c ∈ s.callers then
        let s' := { s with callers := s.callers.erase c }
        match c.stage with
        | .restart => some (if (s.hctx c.hctx).restart then s'.spawn c.hctx .clear else s')
        | .clear =>
            some ((s'.setHctx c.hctx { s.hctx c.hctx with restart := false }).spawn c.hctx .run)
        | .run =>
            some (if (s.hctx c.hctx).dispatch.isEmpty then s'.spawn c.hctx .ask
              else s'.setHctx c.hctx { s.hctx c.hctx with runWork := true })
        | .ask =>
            some (if (s.hctx c.hctx).sched.isEmpty then s'
              else s'.setHctx c.hctx { s.hctx c.hctx with runWork := true })
      else none
  | .delayRun i => some (s.setHctx i { s.hctx i with runWork := true })
  | .runWork i =>
      if (s.hctx i).runWork then
        some ((s.setHctx i { s.hctx i with runWork := false }).launch i)
      else none
  | .turn d choice => if d ∈ s.dispatchers then turn depth s d choice else none

/-- Nothing has been submitted. -/
structure Init (s : State ι) : Prop where
  hctx : ∀ i, s.hctx i = ⟨false, [], [], false⟩
  accepted : s.accepted = []
  held : s.held = []
  dispatchers : s.dispatchers = []
  callers : s.callers = []

/-- Nobody is at work on the context, or about to be. -/
structure Quiet (s : State ι) (i : ι) : Prop where
  runWork : (s.hctx i).runWork = false
  dispatchers : ∀ d ∈ s.dispatchers, d.hctx ≠ i
  callers : ∀ c ∈ s.callers, c.hctx ≠ i

/-- `blk_mq_hctx_has_pending`, of which a caller's two looks are `.run` and `.ask` -/
def blkMqHctxHasPending (h : HwCtx) : Bool := !h.dispatch.isEmpty || !h.sched.isEmpty

/-- What the context has waits for a request that the driver has. -/
structure Waits (s : State ι) (i : ι) : Prop where
  dispatch : (s.hctx i).dispatch ≠ []
  restart : (s.hctx i).restart = true
  accepted : i ∈ s.accepted

/-- A context on which nobody is at work has nothing pending, or waits. -/
def NoStall (s : State ι) (i : ι) : Prop :=
  Quiet s i → blkMqHctxHasPending (s.hctx i) = true → Waits s i

end Steps

/-! ## A context in numbers -/

/-- Where a dispatcher stands, as far as running the context again is concerned. -/
inductive Kind where
  | start
  /-- in the scheduler's loop, or at the end of its list -/
  | idle
  /-- has a request to get rid of that has no tag -/
  | wanting
  /-- or that has one -/
  | holding
  /-- is to put requests back, and will see to it that the context is run -/
  | putNeeds
  | putBusy
  /-- is to put requests back, and relies on the mark -/
  | putPlain
  | checkNeeds
  | checkPlain
  deriving DecidableEq, Repr

/-- With these on its list. -/
def listKind : List Request → Kind
  | [] => .idle
  | rq :: _ => if rq.tag then .holding else .wanting

def Pc.kind : Pc → Kind
  | .start => .start
  | .taken _ _ => .wanting
  | .collect ids | .look ids | .dequeue ids => if ids.isEmpty then .idle else .holding
  | .dequeued ids _ => if ids.isEmpty then .wanting else .holding
  | .next b => listKind b.list
  | .failed _ _ => .wanting
  | .marked _ _ => .wanting
  | .last _ _ => .holding
  | .queued _ _ => .holding
  -- a driver that has a request to complete has been relied on from its answer on
  | .refused _ b => if b.needsResource then .holding else if b.busy then .putBusy else .putPlain
  | .putBack _ b => if b.needsResource then .putNeeds else if b.busy then .putBusy else .putPlain
  | .check b => if b.needsResource || b.busy then .checkNeeds else .checkPlain

/-- A hardware context in numbers. -/
structure Counters where
  dispatch : Nat
  sched : Nat
  restart : Nat
  run : Nat
  accepted : Nat
  held : Nat
  /-- the callers -/
  atRestart : Nat
  atClear : Nat
  atRun : Nat
  atAsk : Nat
  /-- the dispatchers -/
  num : Kind → Nat

namespace Counters

/-- Who sees to it that the context is run. -/
structure Ok (depth : Nat) (c : Counters) : Prop where
  held : c.held ≤ depth
  /-- the tags are not all with requests that wait -/
  full : depth ≤ c.held → 0 < c.accepted ∨ 0 < c.num .holding
  /-- the mark is there for somebody to see who has not come to it yet -/
  mark : 0 < c.restart → 0 < c.atClear ∨ 0 < c.accepted ∨ 0 < c.atRestart ∨ 0 < c.num .wanting ∨
    0 < c.num .holding ∨ 0 < c.num .putNeeds ∨ 0 < c.dispatch
  /-- what is on the list is not forgotten -/
  list : 0 < c.dispatch → 0 < c.run ∨ 0 < c.atRun ∨ 0 < c.num .start ∨ 0 < c.atClear ∨
    0 < c.num .putNeeds ∨ 0 < c.num .putBusy ∨ 0 < c.num .checkNeeds ∨
    (0 < c.restart ∧
      (0 < c.accepted ∨ 0 < c.atRestart ∨ 0 < c.num .wanting ∨ 0 < c.num .holding)) ∨
    (c.restart = 0 ∧ (0 < c.num .putPlain ∨ 0 < c.num .checkPlain))
  /-- nor is what the scheduler has -/
  sched : 0 < c.sched → 0 < c.dispatch ∨ 0 < c.run ∨ 0 < c.atRun ∨ 0 < c.atAsk ∨
    0 < c.num .start ∨ 0 < c.num .idle ∨ 0 < c.num .wanting ∨ 0 < c.num .holding ∨ 0 < c.num .putNeeds ∨
    0 < c.num .putBusy ∨ 0 < c.num .putPlain

/-- A dispatcher goes from one place to another, or comes, or leaves. -/
def enter (c : Counters) (kind : Kind) : Counters :=
  { c with num := fun k => c.num k + if kind = k then 1 else 0 }

def exit (c : Counters) (kind : Kind) : Counters :=
  { c with num := fun k => c.num k - if kind = k then 1 else 0 }

def spawn (c : Counters) : Stage → Counters
  | .restart => { c with atRestart := c.atRestart + 1 }
  | .clear => { c with atClear := c.atClear + 1 }
  | .run => { c with atRun := c.atRun + 1 }
  | .ask => { c with atAsk := c.atAsk + 1 }

def gone (c : Counters) : Stage → Counters
  | .restart => { c with atRestart := c.atRestart - 1 }
  | .clear => { c with atClear := c.atClear - 1 }
  | .run => { c with atRun := c.atRun - 1 }
  | .ask => { c with atAsk := c.atAsk - 1 }

def setHctx (c : Counters) (x : HwCtx) : Counters :=
  { c with
    dispatch := x.dispatch.length
    sched := x.sched.length
    restart := x.restart.toNat
    run := x.runWork.toNat }

end Counters

section Counting

variable {ι : Type} [DecidableEq ι]

/-- One for a dispatcher of context `i` that stands at `k`. -/
def stands (i : ι) (k : Kind) (d : Dispatcher ι) : Nat :=
  if d.hctx = i ∧ d.pc.kind = k then 1 else 0

/-- Context `i` in numbers. -/
def State.counters (s : State ι) (i : ι) : Counters where
  dispatch := (s.hctx i).dispatch.length
  sched := (s.hctx i).sched.length
  restart := (s.hctx i).restart.toNat
  run := (s.hctx i).runWork.toNat
  accepted := s.accepted.count i
  held := s.held.count i
  atRestart := s.callers.count ⟨i, .restart⟩
  atClear := s.callers.count ⟨i, .clear⟩
  atRun := s.callers.count ⟨i, .run⟩
  atAsk := s.callers.count ⟨i, .ask⟩
  num := fun k => Parties.total (stands i k) s.dispatchers

end Counting

section Effects

variable {ι : Type} [DecidableEq ι] {s : State ι} {d d' : Dispatcher ι} {i j : ι}

/-! What the operations do to the context they are about, and to the others. -/

theorem counters_setHctx (s : State ι) (i : ι) (x : HwCtx) :
    (s.setHctx i x).counters i = (s.counters i).setHctx x := by
  simp [State.counters, State.setHctx, Counters.setHctx]

theorem counters_spawn (s : State ι) (i : ι) (stage : Stage) :
    (s.spawn i stage).counters i = (s.counters i).spawn stage := by
  cases stage <;> simp [State.counters, State.spawn, Counters.spawn]

theorem counters_getTag (s : State ι) (i : ι) :
    (s.getTag i).counters i = { s.counters i with held := (s.counters i).held + 1 } := by
  simp [State.counters, State.getTag]

theorem counters_putTag (s : State ι) (i : ι) :
    (s.putTag i).counters i = { s.counters i with held := (s.counters i).held - 1 } := by
  simp [State.counters, State.putTag]

theorem counters_leave (h_d : d ∈ s.dispatchers) :
    (s.leave d).counters d.hctx = (s.counters d.hctx).exit d.pc.kind := by
  have h_num : (fun k => Parties.total (stands d.hctx k) (s.dispatchers.erase d)) = fun k =>
      Parties.total (stands d.hctx k) s.dispatchers - if d.pc.kind = k then 1 else 0 := by
    funext k
    have h_erase := Parties.total_erase (stands d.hctx k) h_d
    simp only [stands, true_and] at h_erase ⊢
    omega
  simp only [State.counters, State.leave, Counters.exit, h_num]

theorem counters_move (h_d : d ∈ s.dispatchers) (again : Bool) (pc : Pc) :
    (s.move d ⟨d.hctx, again, pc⟩).counters d.hctx =
      ((s.counters d.hctx).exit d.pc.kind).enter pc.kind := by
  have h_leave := counters_leave h_d
  have h_num : (fun k => Parties.total (stands d.hctx k)
      (⟨d.hctx, again, pc⟩ :: s.dispatchers.erase d)) = fun k =>
      Parties.total (stands d.hctx k) (s.dispatchers.erase d) +
        if pc.kind = k then 1 else 0 := by
    funext k
    simp only [Parties.total_cons, stands, true_and]
    omega
  rw [← h_leave]
  simp only [State.counters, State.move, State.leave, Parties.move, Counters.enter, h_num]

theorem counters_launch (s : State ι) (i : ι) :
    (s.launch i).counters i = (s.counters i).enter .start := by
  simp [State.counters, State.launch, Counters.enter, stands, Pc.kind, Nat.add_comm]

theorem setHctx_other (s : State ι) (h : j ≠ i) (x : HwCtx) :
    (s.setHctx i x).counters j = s.counters j := by
  simp [State.counters, State.setHctx, Function.update_of_ne h]

theorem spawn_other (s : State ι) (h : j ≠ i) (stage : Stage) :
    (s.spawn i stage).counters j = s.counters j := by
  have h_ne : i ≠ j := h.symm
  simp [State.counters, State.spawn, h_ne]

theorem launch_other (s : State ι) (h : j ≠ i) : (s.launch i).counters j = s.counters j := by
  have h_ne : i ≠ j := h.symm
  simp [State.counters, State.launch, stands, h_ne]

theorem getTag_other (s : State ι) (h : j ≠ i) : (s.getTag i).counters j = s.counters j := by
  have h_ne : i ≠ j := h.symm
  simp [State.counters, State.getTag, h_ne]

theorem putTag_other (s : State ι) (h : j ≠ i) : (s.putTag i).counters j = s.counters j := by
  simp [State.counters, State.putTag, List.count_erase_of_ne h]

theorem leave_other (s : State ι) (h : j ≠ d.hctx) : (s.leave d).counters j = s.counters j := by
  have h_stands : ∀ k, stands j k d = 0 := fun k => if_neg fun h_at => h h_at.1.symm
  simp only [State.counters, State.leave, Parties.total_erase_of_zero (h_stands _)]

theorem move_other (s : State ι) (h_hctx : d'.hctx = d.hctx) (h : j ≠ d.hctx) :
    (s.move d d').counters j = s.counters j := by
  have h_ne : d'.hctx ≠ j := fun h_eq => h (h_eq.symm.trans h_hctx)
  have h_stands : ∀ k, stands j k d' = 0 := fun k => if_neg fun h_at => h_ne h_at.1
  rw [← leave_other s h]
  simp only [State.counters, State.move, State.leave, Parties.move, Parties.total_cons, h_stands,
    Nat.zero_add]

/-- A dispatcher counts. -/
theorem counters_mem (h_d : d ∈ s.dispatchers) : 0 < (s.counters d.hctx).num d.pc.kind := by
  have h_num := Parties.le_total (w := stands d.hctx d.pc.kind) h_d
  simp only [stands, and_self, if_true] at h_num
  exact h_num

end Effects

/-! ## What a step does to the numbers -/

namespace Counters

variable {depth : Nat} {c : Counters} {a : Kind} {k n : Nat}

/-- A dispatcher that goes on as it was. -/
theorem exit_enter (h_num : 0 < c.num a) : (c.exit a).enter a = c := by
  have h_all : (fun k => c.num k - (if a = k then 1 else 0) + if a = k then 1 else 0) =
      c.num := by
    funext k
    by_cases h_k : a = k
    · simp only [h_k, if_true]
      rw [h_k] at h_num
      omega
    · simp only [h_k, if_false]
      omega
  simp only [enter, exit, h_all]

namespace Ok

/-! A dispatcher at the beginning. -/

/-- It takes the list, and what it has then it will not let go of unseen. -/
theorem take (h : c.Ok depth) :
    (({ c with dispatch := 0 }.exit .start).enter .wanting).Ok depth where
  held := h.held
  full := h.full
  mark := fun _ => by simp [enter, exit]
  list := fun h_pos => absurd h_pos (Nat.lt_irrefl 0)
  sched := fun _ => by simp [enter, exit]

/-- The list is empty, and it goes to the scheduler. -/
theorem collect (h : c.Ok depth) (h_dispatch : c.dispatch = 0) :
    ((c.exit .start).enter .idle).Ok depth where
  held := h.held
  full := h.full
  mark := h.mark
  list := fun h_pos => absurd h_pos (by simp [enter, exit, h_dispatch])
  sched := fun _ => by simp [enter, exit]

/-! A dispatcher in the scheduler's loop, or with an empty list. -/

theorem setSched (h : c.Ok depth) (h_some : 0 < c.num .idle ∨ 0 < c.num .holding) :
    { c with sched := n }.Ok depth where
  held := h.held
  full := h.full
  mark := h.mark
  list := h.list
  sched := by
    intro _
    simp only
    omega

/-- It has a request that has not got a tag. -/
theorem want (h : c.Ok depth) : ((c.exit .idle).enter .wanting).Ok depth where
  held := h.held
  full := h.full
  mark := fun _ => by simp [enter, exit]
  list := by
    intro h_pos
    have h_list := h.list h_pos
    simp only [enter, exit, reduceCtorEq, if_false, if_true]
    omega
  sched := fun _ => by simp [enter, exit]

/-- It is done with the scheduler, or the context is to be run again. -/
theorem leaveIdle (h : c.Ok depth) (h_rest : c.sched = 0 ∨ 0 < c.run) :
    (c.exit .idle).Ok depth where
  held := h.held
  full := h.full
  mark := h.mark
  list := h.list
  sched := by
    intro h_pos
    have h_run : 0 < c.run := h_rest.resolve_left (Nat.ne_of_gt h_pos)
    exact Or.inr (Or.inl h_run)

/-- It starts anew. -/
theorem retry (h : c.Ok depth) (h_kind : a = .idle ∨ a = .checkNeeds) :
    ((c.exit a).enter .start).Ok depth where
  held := h.held
  full := by
    rcases h_kind with rfl | rfl
    · exact h.full
    · exact h.full
  mark := by
    rcases h_kind with rfl | rfl
    · exact h.mark
    · exact h.mark
  list := fun _ => by simp [enter, exit]
  sched := fun _ => by simp [enter, exit]

/-- It leaves, and runs the context. -/
theorem rerun (h : c.Ok depth) (h_kind : a = .idle ∨ a = .checkNeeds ∨ a = .checkPlain) :
    ((c.exit a).spawn .run).Ok depth where
  held := h.held
  full := by
    rcases h_kind with rfl | rfl | rfl
    · exact h.full
    · exact h.full
    · exact h.full
  mark := by
    rcases h_kind with rfl | rfl | rfl
    · exact h.mark
    · exact h.mark
    · exact h.mark
  list := fun _ => by simp [exit, spawn]
  sched := fun _ => by simp [exit, spawn]

/-! A dispatcher with requests. -/

/-- It sets the mark. -/
theorem setMark (h : c.Ok depth) (h_num : 0 < c.num .wanting) :
    { c with restart := 1 }.Ok depth where
  held := h.held
  full := h.full
  mark := fun _ => by
    simp only
    omega
  list := by
    intro h_pos
    have h_list := h.list h_pos
    simp only
    omega
  sched := h.sched

/-- The first of its requests has a tag already. -/
theorem hold (h : c.Ok depth) : ((c.exit .wanting).enter .holding).Ok depth where
  held := h.held
  full := fun _ => by simp [enter, exit]
  mark := fun _ => by simp [enter, exit]
  list := by
    intro h_pos
    have h_list := h.list h_pos
    simp only [enter, exit, reduceCtorEq, if_false, if_true]
    omega
  sched := fun _ => by simp [enter, exit]

/-- A request of it gets a tag. -/
theorem getTag (h : c.Ok depth) (h_room : c.held < depth)
    (h_kind : a = .idle ∨ a = .wanting ∨ a = .holding) :
    (({ c with held := c.held + 1 }.exit a).enter .holding).Ok depth where
  held := h_room
  full := fun _ => by simp [enter, exit]
  mark := fun _ => by simp [enter, exit]
  list := by
    intro h_pos
    have h_list := h.list h_pos
    -- with the mark there, a dispatcher that holds a tag is as good as one that wants it
    rcases h_kind with rfl | rfl | rfl
    · simp only [enter, exit, reduceCtorEq, if_false, if_true]
      omega
    · simp only [enter, exit, reduceCtorEq, if_false, if_true]
      omega
    · simp only [enter, exit, reduceCtorEq, if_false, if_true]
      omega
  sched := fun _ => by simp [enter, exit]

/-- The driver takes a request. -/
theorem accept (h : c.Ok depth) (h_kind : a = .idle ∨ a = .wanting ∨ a = .holding) :
    (({ c with accepted := c.accepted + 1 }.exit .holding).enter a).Ok depth where
  held := h.held
  full := fun _ => Or.inl (Nat.succ_pos _)
  mark := fun _ => Or.inr (Or.inl (Nat.succ_pos _))
  list := by
    intro h_pos
    have h_list := h.list h_pos
    -- the request is the driver's now, and its completion sees the mark
    rcases h_kind with rfl | rfl | rfl
    · simp only [enter, exit, reduceCtorEq, if_false, if_true]
      omega
    · simp only [enter, exit, reduceCtorEq, if_false, if_true]
      omega
    · simp only [enter, exit, reduceCtorEq, if_false, if_true]
      omega
  sched := by
    intro _
    rcases h_kind with rfl | rfl | rfl
    · simp [enter, exit]
    · simp [enter, exit]
    · simp [enter, exit]

/-- A tag less is taken. -/
theorem putTag (h : c.Ok depth) : { c with held := c.held - k }.Ok depth where
  held := Nat.le_trans (Nat.sub_le _ _) h.held
  full := fun h_le => h.full (Nat.le_trans h_le (Nat.sub_le _ _))
  mark := h.mark
  list := h.list
  sched := h.sched

/-- With a tag put there is one to be had. -/
theorem room (h : c.Ok depth) (h_depth : 0 < depth) : c.held - 1 < depth := by
  have h_held := h.held
  omega

/-- The driver fails a request, which is freed. -/
theorem fail (h : c.Ok depth) (h_depth : 0 < depth)
    (h_kind : a = .idle ∨ a = .wanting ∨ a = .holding) :
    ((({ c with held := c.held - 1 }.spawn .restart).exit .holding).enter a).Ok depth where
  held := Nat.le_of_lt (h.room h_depth)
  full := fun h_le => absurd h_le (Nat.not_le_of_lt (h.room h_depth))
  mark := fun _ => by simp [enter, exit, spawn]
  list := by
    intro h_pos
    have h_list := h.list h_pos
    -- whoever frees it sees the mark
    rcases h_kind with rfl | rfl | rfl
    · simp only [enter, exit, spawn, reduceCtorEq, if_false, if_true]
      omega
    · simp only [enter, exit, spawn, reduceCtorEq, if_false, if_true]
      omega
    · simp only [enter, exit, spawn, reduceCtorEq, if_false, if_true]
      omega
  sched := by
    intro _
    rcases h_kind with rfl | rfl | rfl
    · simp [enter, exit, spawn]
    · simp [enter, exit, spawn]
    · simp [enter, exit, spawn]

/-- It gives up because there is no tag: somebody else has a request that has one. -/
theorem giveUp (h : c.Ok depth) (h_none : depth ≤ c.held)
    (h_kind : a = .putNeeds ∨ a = .putBusy ∨ a = .putPlain) :
    ((c.exit .wanting).enter a).Ok depth := by
  -- whoever that is, it takes over all that this one has been responsible for
  have h_full := h.full h_none
  refine ⟨h.held, ?_, ?_, ?_, ?_⟩
  · intro _
    simp only [enter, exit, reduceCtorEq, if_false]
    omega
  · intro _
    simp only [enter, exit, reduceCtorEq, if_false]
    omega
  · intro h_pos
    have h_list := h.list h_pos
    rcases h_kind with rfl | rfl | rfl
    · simp [enter, exit]
    · simp [enter, exit]
    · simp only [enter, exit, reduceCtorEq, if_false, if_true]
      omega
  · intro _
    rcases h_kind with rfl | rfl | rfl
    · simp [enter, exit]
    · simp [enter, exit]
    · simp [enter, exit]

/-- It gives up because of a request that the driver has. -/
theorem giveUpAccepted (h : c.Ok depth) (h_accepted : 0 < c.accepted)
    (h_kind : a = .putNeeds ∨ a = .putBusy ∨ a = .putPlain) :
    ((c.exit .holding).enter a).Ok depth where
  held := h.held
  full := fun _ => Or.inl h_accepted
  mark := fun _ => Or.inr (Or.inl h_accepted)
  list := by
    intro h_pos
    have h_list := h.list h_pos
    rcases h_kind with rfl | rfl | rfl
    · simp [enter, exit]
    · simp [enter, exit]
    · simp only [enter, exit, reduceCtorEq, if_false, if_true]
      omega
  sched := by
    intro _
    rcases h_kind with rfl | rfl | rfl
    · simp [enter, exit]
    · simp [enter, exit]
    · simp [enter, exit]

/-- It gives up, and will see to it that the context is run. -/
theorem giveUpNeeds (h : c.Ok depth) (h_depth : 0 < depth) :
    (({ c with held := c.held - 1 }.exit .holding).enter .putNeeds).Ok depth where
  held := Nat.le_of_lt (h.room h_depth)
  full := fun h_le => absurd h_le (Nat.not_le_of_lt (h.room h_depth))
  mark := fun _ => by simp [enter, exit]
  list := fun _ => by simp [enter, exit]
  sched := fun _ => by simp [enter, exit]

/-! A dispatcher that puts requests back. -/

theorem putBackNeeds (h : c.Ok depth) (h_kind : a = .putNeeds ∨ a = .putBusy ∨ a = .putPlain) :
    (({ c with dispatch := c.dispatch + (n + 1) }.exit a).enter .checkNeeds).Ok depth where
  held := h.held
  full := by
    rcases h_kind with rfl | rfl | rfl
    · exact h.full
    · exact h.full
    · exact h.full
  mark := by
    intro _
    simp only [enter, exit]
    omega
  list := fun _ => by simp [enter, exit]
  sched := by
    intro _
    simp only [enter, exit]
    omega

/-- If the mark is there, somebody is still to see it. -/
theorem putBackPlain (h : c.Ok depth) :
    (({ c with dispatch := c.dispatch + (n + 1) }.exit .putPlain).enter .checkPlain).Ok depth where
  held := h.held
  full := h.full
  mark := by
    intro _
    simp only [enter, exit]
    omega
  list := by
    intro _
    -- without the mark it will run the context itself
    have h_mark := h.mark
    have h_list := h.list
    simp only [enter, exit, reduceCtorEq, if_false, if_true]
    omega
  sched := by
    intro _
    simp only [enter, exit]
    omega

/-- It relies on the mark. -/
theorem leavePlain (h : c.Ok depth) (h_restart : 0 < c.restart) :
    (c.exit .checkPlain).Ok depth where
  held := h.held
  full := h.full
  mark := h.mark
  list := by
    intro h_pos
    -- nobody relies on a dispatcher that finds the mark
    have h_list := h.list h_pos
    simp only [exit, reduceCtorEq, if_false, if_true]
    omega
  sched := h.sched

theorem leaveRun (h : c.Ok depth) : ({ c with run := 1 }.exit .checkNeeds).Ok depth where
  held := h.held
  full := h.full
  mark := h.mark
  list := fun _ => by simp [exit]
  sched := fun _ => by simp [exit]

/-! The others. -/

theorem setRun (h : c.Ok depth) : { c with run := 1 }.Ok depth where
  held := h.held
  full := h.full
  mark := h.mark
  list := fun _ => Or.inl Nat.one_pos
  sched := fun _ => Or.inr (Or.inl Nat.one_pos)

theorem spawnRun (h : c.Ok depth) : (c.spawn .run).Ok depth where
  held := h.held
  full := h.full
  mark := h.mark
  list := fun _ => by simp [spawn]
  sched := fun _ => by simp [spawn]

theorem insert (h : c.Ok depth) : ({ c with sched := n }.spawn .run).Ok depth where
  held := h.held
  full := h.full
  mark := h.mark
  list := fun _ => by simp [spawn]
  sched := fun _ => by simp [spawn]

theorem bypass (h : c.Ok depth) :
    ({ c with dispatch := c.dispatch + 1 }.spawn .run).Ok depth where
  held := h.held
  full := h.full
  mark := fun _ => by simp [spawn]
  list := fun _ => by simp [spawn]
  sched := fun _ => by simp [spawn]

/-- A request is freed. -/
theorem complete (h : c.Ok depth) (h_depth : 0 < depth) :
    ({ c with accepted := c.accepted - 1, held := c.held - 1 }.spawn .restart).Ok depth where
  held := Nat.le_of_lt (h.room h_depth)
  full := fun h_le => absurd h_le (Nat.not_le_of_lt (h.room h_depth))
  mark := fun _ => by simp [spawn]
  list := by
    intro h_pos
    -- the mark that the request was to see is seen by the one who frees it
    have h_list := h.list h_pos
    simp only [spawn]
    omega
  sched := by
    intro h_pos
    have h_sched := h.sched h_pos
    simp only [spawn]
    omega

/-- It sees the mark. -/
theorem seen (h : c.Ok depth) : ((c.gone .restart).spawn .clear).Ok depth where
  held := h.held
  full := h.full
  mark := fun _ => by simp [spawn]
  list := fun _ => by simp [spawn]
  sched := h.sched

theorem unseen (h : c.Ok depth) (h_restart : c.restart = 0) : (c.gone .restart).Ok depth where
  held := h.held
  full := h.full
  mark := fun h_pos => absurd h_pos (by simp [gone, h_restart])
  list := by
    intro h_pos
    have h_list := h.list h_pos
    simp only [gone]
    omega
  sched := h.sched

/-- It takes the mark away, and runs the context. -/
theorem clear (h : c.Ok depth) :
    (({ c with restart := 0 }.gone .clear).spawn .run).Ok depth where
  held := h.held
  full := h.full
  mark := fun h_pos => absurd h_pos (by simp [gone, spawn])
  list := fun _ => by simp [spawn]
  sched := fun _ => by simp [spawn]

/-- There is nothing on the list, and it is to ask the scheduler. -/
theorem ask (h : c.Ok depth) (h_dispatch : c.dispatch = 0) :
    ((c.gone .run).spawn .ask).Ok depth where
  held := h.held
  full := h.full
  mark := h.mark
  list := fun h_pos => absurd h_pos (by simp [gone, spawn, h_dispatch])
  sched := fun _ => by simp [gone, spawn]

/-- There is nothing to run it for. -/
theorem nothing (h : c.Ok depth) (h_sched : c.sched = 0) : (c.gone .ask).Ok depth where
  held := h.held
  full := h.full
  mark := h.mark
  list := h.list
  sched := fun h_pos => absurd h_pos (by simp [gone, h_sched])

theorem queueRun (h : c.Ok depth) {stage : Stage} (h_stage : stage = .run ∨ stage = .ask) :
    ({ c with run := 1 }.gone stage).Ok depth := by
  have h_run := h.setRun
  rcases h_stage with rfl | rfl
  · exact ⟨h_run.held, h_run.full, h_run.mark, fun _ => Or.inl Nat.one_pos,
      fun _ => Or.inr (Or.inl Nat.one_pos)⟩
  · exact ⟨h_run.held, h_run.full, h_run.mark, fun _ => Or.inl Nat.one_pos,
      fun _ => Or.inr (Or.inl Nat.one_pos)⟩

theorem runWork (h : c.Ok depth) : ({ c with run := 0 }.enter .start).Ok depth where
  held := h.held
  full := h.full
  mark := h.mark
  list := fun _ => by simp [enter]
  sched := fun _ => by simp [enter]

end Ok

end Counters

/-! ## Steps and numbers -/

section Run

variable {ι : Type} [DecidableEq ι] {depth : Nat} {s s' : State ι} {d : Dispatcher ι} {i j : ι}
  {choice : Choice}

theorem goto_same (h_d : d ∈ s.dispatchers) (pc : Pc) (h_kind : pc.kind = d.pc.kind) :
    (s.move d { d with pc := pc }).counters d.hctx = s.counters d.hctx := by
  rw [counters_move h_d, h_kind]
  exact Counters.exit_enter (counters_mem h_d)

theorem room_of_hasTag (h : s.hasTag depth i = true) : (s.counters i).held < depth := by
  show s.held.count i < depth
  simpa [State.hasTag] using h

theorem full_of_hasTag (h : s.hasTag depth i = false) : depth ≤ (s.counters i).held := by
  show depth ≤ s.held.count i
  simpa [State.hasTag] using h

theorem retry_other (s : State ι) (h : j ≠ d.hctx) :
    (s.retry d).counters j = s.counters j := by
  unfold State.retry
  split
  · rw [spawn_other _ h, leave_other s h]
  · exact move_other s rfl h

theorem finish_other (s : State ι) (h : j ≠ d.hctx) (b : Batch) :
    (s.finish d b).counters j = s.counters j := by
  unfold State.finish
  split
  · exact retry_other s h
  · exact leave_other s h

theorem collected_other (s : State ι) (h : j ≠ d.hctx) (ids : List Nat) (busy : Bool) :
    (s.collected d ids busy).counters j = s.counters j := by
  unfold State.collected
  split
  · split
    · exact retry_other s h
    · exact leave_other s h
  · exact move_other s rfl h

theorem handleDevResource_other (s : State ι) (h : j ≠ i) (b : Batch) :
    (blkMqHandleDevResource s i b).1.counters j = s.counters j := by
  unfold blkMqHandleDevResource
  split
  · split
    · exact putTag_other s h
    · rfl
  · rfl

/-- A dispatcher does nothing to the other contexts. -/
theorem turn_other (h_turn : turn depth s d choice = some s') (h : j ≠ d.hctx) :
    s'.counters j = s.counters j := by
  have h_move : ∀ (s : State ι) (pc : Pc),
      (s.move d { d with pc := pc }).counters j = s.counters j := fun s pc => move_other s rfl h
  have h_set : ∀ (s : State ι) (x : HwCtx), (s.setHctx d.hctx x).counters j = s.counters j :=
    fun s x => setHctx_other s h x
  have h_get : ∀ s : State ι, (s.getTag d.hctx).counters j = s.counters j :=
    fun s => getTag_other s h
  unfold turn at h_turn
  cases h_pc : d.pc with
  | start =>
      simp only [h_pc] at h_turn
      split at h_turn
      · cases h_turn
        rw [h_move, h_set]
      · cases h_turn
        rw [h_move]
  | taken rq rqs =>
      simp only [h_pc] at h_turn
      cases h_turn
      rw [h_move, h_set]
  | collect ids =>
      simp only [h_pc] at h_turn
      split at h_turn
      · split at h_turn
        · cases h_turn
        · cases h_turn
          exact collected_other s h ids false
      · split at h_turn
        · cases h_turn
          exact collected_other s h ids false
        · cases h_turn
          rw [h_move]
  | look ids =>
      simp only [h_pc] at h_turn
      split at h_turn
      · cases h_turn
        rw [h_move]
      · cases h_turn
        exact collected_other s h ids true
  | dequeue ids =>
      simp only [h_pc] at h_turn
      split at h_turn
      · cases h_turn
        rw [h_move, h_set]
      · split at h_turn
        · cases h_turn
          rw [leave_other _ h, h_set]
        · cases h_turn
          exact collected_other s h ids false
  | dequeued ids id =>
      simp only [h_pc] at h_turn
      split at h_turn
      · cases h_turn
        rw [h_move, h_get]
      · cases h_turn
        rw [h_move]
  | next b =>
      simp only [h_pc] at h_turn
      split at h_turn
      · split at h_turn
        · cases h_turn
          rw [h_move]
        · split at h_turn
          · cases h_turn
            rw [h_move, h_get]
          · cases h_turn
            rw [h_move]
      · split at h_turn
        · cases h_turn
          exact retry_other s h
        · split at h_turn
          · split at h_turn
            · cases h_turn
              rw [leave_other _ h, h_set]
            · cases h_turn
          · cases h_turn
            rw [h_move]
  | failed id b =>
      simp only [h_pc] at h_turn
      cases h_turn
      rw [h_move, h_set]
  | marked id b =>
      simp only [h_pc] at h_turn
      split at h_turn
      · cases h_turn
        rw [h_move, h_get]
      · cases h_turn
        rw [h_move]
  | last id b =>
      simp only [h_pc] at h_turn
      split at h_turn
      · split at h_turn
        · cases h_turn
          rw [h_move, h_get]
        · cases h_turn
          rw [h_move]
      · cases h_turn
        rw [h_move]
  | queued id b =>
      simp only [h_pc] at h_turn
      split at h_turn
      · cases h_turn
        rw [h_move]
        simp [State.counters, h.symm]
      · cases h_turn
        rw [h_move]
        exact handleDevResource_other s h b
      · split at h_turn
        · cases h_turn
          rw [h_move]
          exact handleDevResource_other s h b
        · cases h_turn
      · cases h_turn
        rw [h_move, spawn_other _ h, putTag_other s h]
      · cases h_turn
  | refused id b =>
      simp only [h_pc] at h_turn
      cases h_turn
      rw [h_move, putTag_other s h]
  | putBack id b =>
      simp only [h_pc] at h_turn
      cases h_turn
      rw [h_move, h_set]
  | check b =>
      simp only [h_pc] at h_turn
      split at h_turn
      · cases h_turn
        rw [finish_other _ h, spawn_other s h]
      · split at h_turn
        · cases h_turn
          rw [finish_other _ h, h_set]
        · cases h_turn
          exact finish_other s h b

/-! A dispatcher, place by place, and its own context. -/

theorem counters_restart (s : State ι) (i : ι) (b : Bool) :
    (s.setHctx i { s.hctx i with restart := b }).counters i =
      { s.counters i with restart := b.toNat } :=
  counters_setHctx s i _

theorem counters_runWork (s : State ι) (i : ι) (b : Bool) :
    (s.setHctx i { s.hctx i with runWork := b }).counters i =
      { s.counters i with run := b.toNat } :=
  counters_setHctx s i _

theorem counters_sched (s : State ι) (i : ι) (ids : List Nat) :
    (s.setHctx i { s.hctx i with sched := ids }).counters i =
      { s.counters i with sched := ids.length } :=
  counters_setHctx s i _

theorem counters_dispatch (s : State ι) (i : ι) (rqs : List Request) :
    (s.setHctx i { s.hctx i with dispatch := rqs }).counters i =
      { s.counters i with dispatch := rqs.length } :=
  counters_setHctx s i _

theorem listKind_cases (rqs : List Request) :
    listKind rqs = .idle ∨ listKind rqs = .wanting ∨ listKind rqs = .holding := by
  cases rqs with
  | nil => exact Or.inl rfl
  | cons rq rqs =>
      cases h_tag : rq.tag with
      | false => exact Or.inr (Or.inl (by simp [listKind, h_tag]))
      | true => exact Or.inr (Or.inr (by simp [listKind, h_tag]))

/-- What has been collected has tags. -/
theorem listKind_collected {ids : List Nat} (h_some : ids.isEmpty = false) (rqs : List Request) :
    listKind (withTags ids ++ rqs) = .holding := by
  cases ids with
  | nil => cases h_some
  | cons id ids => rfl

theorem retry_ok (h_d : d ∈ s.dispatchers) (h : (s.counters d.hctx).Ok depth)
    (h_kind : d.pc.kind = .idle ∨ d.pc.kind = .checkNeeds) :
    ((s.retry d).counters d.hctx).Ok depth := by
  unfold State.retry
  split
  · rw [counters_spawn, counters_leave h_d]
    exact h.rerun (h_kind.imp_right Or.inl)
  · rw [counters_move h_d]
    exact h.retry h_kind

theorem start_ok (h_d : d ∈ s.dispatchers) (h : (s.counters d.hctx).Ok depth) (h_pc : d.pc = .start)
    (h_turn : turn depth s d choice = some s') : (s'.counters d.hctx).Ok depth := by
  simp only [turn, h_pc] at h_turn
  split at h_turn
  · cases h_turn
    rw [counters_move (s := s.setHctx d.hctx { s.hctx d.hctx with dispatch := [] }) h_d,
      counters_dispatch, h_pc]
    exact h.take
  · rename_i h_dispatch
    cases h_turn
    rw [counters_move h_d, h_pc]
    have h_none : (s.counters d.hctx).dispatch = 0 := by
      show (s.hctx d.hctx).dispatch.length = 0
      rw [h_dispatch]
      rfl
    exact h.collect h_none

theorem taken_ok (h_d : d ∈ s.dispatchers) (h : (s.counters d.hctx).Ok depth) {rq : Request}
    {rqs : List Request} (h_pc : d.pc = .taken rq rqs)
    (h_turn : turn depth s d choice = some s') : (s'.counters d.hctx).Ok depth := by
  have h_num := counters_mem h_d
  rw [h_pc] at h_num
  have h_mark := h.setMark h_num
  simp only [turn, h_pc] at h_turn
  cases h_turn
  have h_d' : d ∈ (s.setHctx d.hctx { s.hctx d.hctx with restart := true }).dispatchers := h_d
  cases h_tag : rq.tag with
  | false =>
      rw [goto_same h_d' _ (by simp [h_pc, Pc.kind, listKind, h_tag]), counters_restart]
      exact h_mark
  | true =>
      have h_kind : (Pc.next ⟨rq :: rqs, false, false, false⟩).kind = .holding := by
        simp [Pc.kind, listKind, h_tag]
      rw [counters_move h_d', counters_restart, h_kind, h_pc]
      exact h_mark.hold

/-- The scheduler's loop ends: there is something to dispatch, or a list to come back for, or the
scheduler has nothing. -/
theorem collected_ok (h_d : d ∈ s.dispatchers) (h : (s.counters d.hctx).Ok depth) {ids : List Nat}
    (h_kind : d.pc.kind = if ids.isEmpty then .idle else .holding) {busy : Bool}
    (h_none : ids.isEmpty = true → busy = false → (s.counters d.hctx).sched = 0) :
    ((s.collected d ids busy).counters d.hctx).Ok depth := by
  unfold State.collected
  split
  · rename_i h_empty
    rw [if_pos h_empty] at h_kind
    split
    · exact retry_ok h_d h (Or.inl h_kind)
    · rename_i h_busy
      rw [counters_leave h_d, h_kind]
      exact h.leaveIdle (Or.inl (h_none h_empty (by simpa using h_busy)))
  · rename_i h_some
    rw [if_neg h_some] at h_kind
    have h_list := listKind_collected (by simpa using h_some : ids.isEmpty = false) []
    rw [List.append_nil] at h_list
    rw [goto_same h_d (.next ⟨withTags ids, false, true, busy⟩) (h_list.trans h_kind.symm)]
    exact h

theorem collect_ok (h_d : d ∈ s.dispatchers) (h : (s.counters d.hctx).Ok depth) {ids : List Nat}
    (h_pc : d.pc = .collect ids) (h_turn : turn depth s d choice = some s') :
    (s'.counters d.hctx).Ok depth := by
  have h_kind : d.pc.kind = if ids.isEmpty then .idle else .holding := by rw [h_pc]; rfl
  simp only [turn, h_pc] at h_turn
  split at h_turn
  · split at h_turn
    · cases h_turn
    · rename_i h_some
      cases h_turn
      exact collected_ok h_d h h_kind fun h_empty => absurd h_empty h_some
  · split at h_turn
    · rename_i h_sched
      cases h_turn
      refine collected_ok h_d h h_kind fun _ _ => ?_
      show (s.hctx d.hctx).sched.length = 0
      rw [List.isEmpty_iff.mp h_sched]
      rfl
    · cases h_turn
      rw [goto_same h_d (.look ids) h_kind.symm]
      exact h

theorem look_ok (h_d : d ∈ s.dispatchers) (h : (s.counters d.hctx).Ok depth) {ids : List Nat}
    (h_pc : d.pc = .look ids) (h_turn : turn depth s d choice = some s') :
    (s'.counters d.hctx).Ok depth := by
  have h_kind : d.pc.kind = if ids.isEmpty then .idle else .holding := by rw [h_pc]; rfl
  simp only [turn, h_pc] at h_turn
  split at h_turn
  · cases h_turn
    rw [goto_same h_d (.dequeue ids) h_kind.symm]
    exact h
  · cases h_turn
    exact collected_ok h_d h h_kind fun _ h_busy => absurd h_busy (by decide)

theorem dequeue_ok (h_d : d ∈ s.dispatchers) (h : (s.counters d.hctx).Ok depth) {ids : List Nat}
    (h_pc : d.pc = .dequeue ids) (h_turn : turn depth s d choice = some s') :
    (s'.counters d.hctx).Ok depth := by
  have h_kind : d.pc.kind = if ids.isEmpty then .idle else .holding := by rw [h_pc]; rfl
  have h_num := counters_mem h_d
  simp only [turn, h_pc] at h_turn
  split at h_turn
  · rename_i id rest h_sched
    cases h_turn
    have h_d' : d ∈ (s.setHctx d.hctx { s.hctx d.hctx with sched := rest }).dispatchers := h_d
    rw [counters_move h_d', counters_sched, h_kind]
    cases h_empty : ids.isEmpty with
    | true =>
        -- it has a request now, for which it wants a tag
        rw [h_kind, h_empty] at h_num
        have h_want : (Pc.dequeued ids id).kind = .wanting := by simp [Pc.kind, h_empty]
        rw [h_want]
        exact (h.setSched (Or.inl h_num)).want
    | false =>
        rw [h_kind, h_empty] at h_num
        have h_hold : (Pc.dequeued ids id).kind = .holding := by simp [Pc.kind, h_empty]
        rw [h_hold]
        have h_some : 0 < ({ s.counters d.hctx with sched := rest.length } : Counters).num
            .holding := h_num
        show ((({ s.counters d.hctx with sched := rest.length } : Counters).exit
          .holding).enter .holding).Ok depth
        rw [Counters.exit_enter h_some]
        exact h.setSched (Or.inr h_num)
  · split at h_turn
    · -- another dispatcher was faster, and the context is run again
      rename_i h_empty
      cases h_turn
      have h_d' : d ∈ (s.setHctx d.hctx { s.hctx d.hctx with runWork := true }).dispatchers := h_d
      rw [counters_leave h_d', counters_runWork, h_kind, if_pos h_empty]
      exact h.setRun.leaveIdle (Or.inr Nat.one_pos)
    · rename_i h_some
      cases h_turn
      exact collected_ok h_d h h_kind fun h_empty => absurd h_empty h_some

theorem dequeued_ok (h_d : d ∈ s.dispatchers) (h : (s.counters d.hctx).Ok depth) {ids : List Nat}
    {id : Nat} (h_pc : d.pc = .dequeued ids id) (h_turn : turn depth s d choice = some s') :
    (s'.counters d.hctx).Ok depth := by
  have h_kind : d.pc.kind = if ids.isEmpty then .wanting else .holding := by rw [h_pc]; rfl
  simp only [turn, h_pc] at h_turn
  split at h_turn
  · rename_i h_tag
    cases h_turn
    have h_hold : (Pc.collect (ids ++ [id])).kind = .holding := by simp [Pc.kind]
    rw [counters_move (s := s.getTag d.hctx) h_d, counters_getTag, h_hold]
    refine h.getTag (room_of_hasTag h_tag) (Or.inr ?_)
    rw [h_kind]
    split
    · exact Or.inl rfl
    · exact Or.inr rfl
  · cases h_turn
    have h_next : (Pc.next ⟨withTags ids ++ [⟨id, false⟩], false, true, false⟩).kind =
        d.pc.kind := by
      rw [h_kind]
      cases h_empty : ids.isEmpty with
      | true =>
          rw [List.isEmpty_iff.mp h_empty]
          rfl
      | false => exact listKind_collected h_empty _
    rw [goto_same h_d _ h_next]
    exact h

theorem next_ok (h_d : d ∈ s.dispatchers) (h : (s.counters d.hctx).Ok depth) {b : Batch}
    (h_pc : d.pc = .next b) (h_turn : turn depth s d choice = some s') :
    (s'.counters d.hctx).Ok depth := by
  simp only [turn, h_pc] at h_turn
  split at h_turn
  · rename_i rq rqs h_list
    split at h_turn
    · rename_i h_tag
      have h_kind : d.pc.kind = .holding := by simp [h_pc, Pc.kind, listKind, h_list, h_tag]
      cases h_turn
      rw [goto_same h_d (.last rq.id { b with list := rqs }) h_kind.symm]
      exact h
    · rename_i h_tag
      have h_kind : d.pc.kind = .wanting := by simp [h_pc, Pc.kind, listKind, h_list, h_tag]
      split at h_turn
      · rename_i h_room
        cases h_turn
        rw [counters_move (s := s.getTag d.hctx) h_d, counters_getTag, h_kind]
        exact h.getTag (room_of_hasTag h_room) (Or.inr (Or.inl rfl))
      · cases h_turn
        rw [goto_same h_d (.failed rq.id { b with list := rqs }) h_kind.symm]
        exact h
  · rename_i h_list
    have h_kind : d.pc.kind = .idle := by simp [h_pc, Pc.kind, listKind, h_list]
    split at h_turn
    · cases h_turn
      exact retry_ok h_d h (Or.inl h_kind)
    · split at h_turn
      · split at h_turn
        · cases h_turn
          have h_d' : d ∈ (s.setHctx d.hctx { s.hctx d.hctx with runWork := true }).dispatchers :=
            h_d
          rw [counters_leave h_d', counters_runWork, h_kind]
          exact h.setRun.leaveIdle (Or.inr Nat.one_pos)
        · cases h_turn
      · cases h_turn
        rw [goto_same h_d (.collect []) h_kind.symm]
        exact h

theorem failed_ok (h_d : d ∈ s.dispatchers) (h : (s.counters d.hctx).Ok depth) {id : Nat}
    {b : Batch} (h_pc : d.pc = .failed id b) (h_turn : turn depth s d choice = some s') :
    (s'.counters d.hctx).Ok depth := by
  have h_num := counters_mem h_d
  rw [h_pc] at h_num
  simp only [turn, h_pc] at h_turn
  cases h_turn
  rw [goto_same (s := s.setHctx d.hctx { s.hctx d.hctx with restart := true }) h_d _
    (by rw [h_pc]; rfl), counters_restart]
  exact h.setMark h_num

/-- Where a dispatcher puts its requests back from. -/
theorem putBack_kind (id : Nat) (b : Batch) : (Pc.putBack id b).kind = .putNeeds ∨
    (Pc.putBack id b).kind = .putBusy ∨ (Pc.putBack id b).kind = .putPlain := by
  simp only [Pc.kind]
  split
  · exact Or.inl rfl
  · split
    · exact Or.inr (Or.inl rfl)
    · exact Or.inr (Or.inr rfl)

theorem marked_ok (h_d : d ∈ s.dispatchers) (h : (s.counters d.hctx).Ok depth) {id : Nat}
    {b : Batch} (h_pc : d.pc = .marked id b) (h_turn : turn depth s d choice = some s') :
    (s'.counters d.hctx).Ok depth := by
  simp only [turn, h_pc] at h_turn
  split at h_turn
  · rename_i h_room
    cases h_turn
    rw [counters_move (s := s.getTag d.hctx) h_d, counters_getTag, h_pc]
    exact h.getTag (room_of_hasTag h_room) (Or.inr (Or.inl rfl))
  · rename_i h_none
    cases h_turn
    rw [counters_move h_d, h_pc]
    exact h.giveUp (full_of_hasTag (by simpa using h_none)) (putBack_kind id b)

theorem last_ok (h_d : d ∈ s.dispatchers) (h : (s.counters d.hctx).Ok depth) {id : Nat} {b : Batch}
    (h_pc : d.pc = .last id b) (h_turn : turn depth s d choice = some s') :
    (s'.counters d.hctx).Ok depth := by
  have h_kind : d.pc.kind = .holding := by rw [h_pc]; rfl
  have h_same : ((s.move d ⟨d.hctx, d.again, .queued id b⟩).counters d.hctx).Ok depth := by
    rw [goto_same h_d (.queued id b) h_kind.symm]
    exact h
  simp only [turn, h_pc] at h_turn
  split at h_turn
  · split at h_turn
    · rename_i h_tag
      cases h_turn
      have h_room := room_of_hasTag (Bool.and_eq_true_iff.mp h_tag).2
      rw [counters_move (s := s.getTag d.hctx) h_d, counters_getTag, h_kind]
      exact h.getTag h_room (Or.inr (Or.inr rfl))
    · cases h_turn
      exact h_same
  · cases h_turn
    exact h_same

/-- What the next request does with its tag. -/
theorem handleDevResource_spec (s : State ι) (i : ι) (b : Batch) :
    ∃ k, (blkMqHandleDevResource s i b).1.counters i =
        { s.counters i with held := (s.counters i).held - k } ∧
      (blkMqHandleDevResource s i b).1.dispatchers = s.dispatchers := by
  unfold blkMqHandleDevResource
  split
  · split
    · exact ⟨1, counters_putTag s i, rfl⟩
    · exact ⟨0, rfl, rfl⟩
  · exact ⟨0, rfl, rfl⟩

/-- A dispatcher that the driver will have run again is as good as done with the request. -/
theorem refused_kind (id : Nat) {b : Batch} (h_needs : b.needsResource = false) :
    (Pc.refused id b).kind = (Pc.putBack id b).kind := by
  simp [Pc.kind, h_needs]

theorem queued_ok (h_depth : 0 < depth) (h_d : d ∈ s.dispatchers)
    (h : (s.counters d.hctx).Ok depth) {id : Nat} {b : Batch} (h_pc : d.pc = .queued id b)
    (h_turn : turn depth s d choice = some s') : (s'.counters d.hctx).Ok depth := by
  have h_kind : d.pc.kind = .holding := by rw [h_pc]; rfl
  obtain ⟨k, h_counters, h_dispatchers⟩ := handleDevResource_spec s d.hctx b
  have h_d' : d ∈ (blkMqHandleDevResource s d.hctx b).1.dispatchers := h_dispatchers ▸ h_d
  have h_put : ((blkMqHandleDevResource s d.hctx b).1.counters d.hctx).Ok depth :=
    h_counters ▸ h.putTag
  simp only [turn, h_pc] at h_turn
  split at h_turn
  · cases h_turn
    have h_accepted : ({ s with accepted := d.hctx :: s.accepted } : State ι).counters d.hctx =
        { s.counters d.hctx with accepted := (s.counters d.hctx).accepted + 1 } := by
      simp [State.counters]
    rw [counters_move (s := { s with accepted := d.hctx :: s.accepted }) h_d, h_accepted, h_kind]
    exact h.accept (listKind_cases b.list)
  · cases h_turn
    have h_same : (Pc.refused id
        { (blkMqHandleDevResource s d.hctx b).2 with needsResource := true }).kind = d.pc.kind :=
      h_kind.symm
    rw [goto_same h_d' _ h_same]
    exact h_put
  · split at h_turn
    · -- from here on the request that the driver has is relied on, not this dispatcher
      rename_i h_accepted
      cases h_turn
      have h_pos : 0 < ((blkMqHandleDevResource s d.hctx b).1.counters d.hctx).accepted := by
        rw [h_counters]
        exact List.count_pos_iff.mpr h_accepted
      cases h_needs : (blkMqHandleDevResource s d.hctx b).2.needsResource with
      | true =>
          have h_same : (Pc.refused id (blkMqHandleDevResource s d.hctx b).2).kind = d.pc.kind := by
            rw [h_kind]
            simp [Pc.kind, h_needs]
          rw [goto_same h_d' _ h_same]
          exact h_put
      | false =>
          rw [counters_move h_d', h_kind, refused_kind id h_needs]
          exact h_put.giveUpAccepted h_pos (putBack_kind id _)
    · cases h_turn
  · cases h_turn
    rw [counters_move (s := (s.putTag d.hctx).spawn d.hctx .restart) h_d, counters_spawn,
      counters_putTag, h_kind]
    exact h.fail h_depth (listKind_cases b.list)
  · cases h_turn

theorem refused_ok (h_depth : 0 < depth) (h_d : d ∈ s.dispatchers)
    (h : (s.counters d.hctx).Ok depth) {id : Nat} {b : Batch} (h_pc : d.pc = .refused id b)
    (h_turn : turn depth s d choice = some s') : (s'.counters d.hctx).Ok depth := by
  simp only [turn, h_pc] at h_turn
  cases h_turn
  cases h_needs : b.needsResource with
  | true =>
      have h_kind : d.pc.kind = .holding := by simp [h_pc, Pc.kind, h_needs]
      have h_putBack : (Pc.putBack id b).kind = .putNeeds := by simp [Pc.kind, h_needs]
      rw [counters_move (s := s.putTag d.hctx) h_d, counters_putTag, h_kind, h_putBack]
      exact h.giveUpNeeds h_depth
  | false =>
      have h_kind : (Pc.putBack id b).kind = d.pc.kind := by
        rw [h_pc, refused_kind id h_needs]
      rw [goto_same (s := s.putTag d.hctx) h_d (.putBack id b) h_kind, counters_putTag]
      exact h.putTag

theorem putBack_ok (h_d : d ∈ s.dispatchers) (h : (s.counters d.hctx).Ok depth) {id : Nat}
    {b : Batch} (h_pc : d.pc = .putBack id b) (h_turn : turn depth s d choice = some s') :
    (s'.counters d.hctx).Ok depth := by
  have h_length : ((s.hctx d.hctx).dispatch ++ ⟨id, false⟩ :: b.list).length =
      (s.counters d.hctx).dispatch + (b.list.length + 1) := by
    rw [List.length_append]
    rfl
  simp only [turn, h_pc] at h_turn
  cases h_turn
  rw [counters_move (s := s.setHctx d.hctx { s.hctx d.hctx with
    dispatch := (s.hctx d.hctx).dispatch ++ ⟨id, false⟩ :: b.list }) h_d, counters_dispatch,
    h_length]
  by_cases h_needs : b.needsResource = true ∨ b.busy = true
  · have h_check : (Pc.check { b with list := [] }).kind = .checkNeeds := by
      rcases h_needs with h_b | h_b <;> simp [Pc.kind, h_b]
    rw [h_check, h_pc]
    exact h.putBackNeeds (putBack_kind id b)
  · obtain ⟨h_needs', h_busy⟩ := not_or.mp h_needs
    have h_check : (Pc.check { b with list := [] }).kind = .checkPlain := by
      simp [Pc.kind, h_needs', h_busy]
    have h_kind : d.pc.kind = .putPlain := by simp [h_pc, Pc.kind, h_needs', h_busy]
    rw [h_check, h_kind]
    exact h.putBackPlain

theorem check_ok (h_d : d ∈ s.dispatchers) (h : (s.counters d.hctx).Ok depth) {b : Batch}
    (h_pc : d.pc = .check b) (h_turn : turn depth s d choice = some s') :
    (s'.counters d.hctx).Ok depth := by
  have h_kind : d.pc.kind = if b.needsResource || b.busy then .checkNeeds else .checkPlain := by
    rw [h_pc]
    rfl
  have h_busy_kind : b.busy = true → d.pc.kind = .checkNeeds := by
    intro h_busy
    rw [h_kind, h_busy, Bool.or_true, if_pos rfl]
  simp only [turn, h_pc] at h_turn
  split at h_turn
  · -- somebody has taken the mark away
    cases h_turn
    have h_run : ((s.spawn d.hctx .run).counters d.hctx).Ok depth := by
      rw [counters_spawn]
      exact h.spawnRun
    unfold State.finish
    split
    · rename_i h_busy
      exact retry_ok (s := s.spawn d.hctx .run) h_d h_run (Or.inr (h_busy_kind h_busy))
    · rw [counters_leave (s := s.spawn d.hctx .run) h_d, counters_spawn, h_kind]
      refine h.rerun (Or.inr ?_)
      split
      · exact Or.inl rfl
      · exact Or.inr rfl
  · rename_i h_restart
    have h_mark : 0 < (s.counters d.hctx).restart := by
      have h_true : (s.hctx d.hctx).restart = true := by simpa using h_restart
      show 0 < (s.hctx d.hctx).restart.toNat
      rw [h_true]
      exact Nat.one_pos
    split at h_turn
    · rename_i h_needs
      cases h_turn
      have h_run : ((s.setHctx d.hctx { s.hctx d.hctx with runWork := true }).counters
          d.hctx).Ok depth := by
        rw [counters_runWork]
        exact h.setRun
      unfold State.finish
      split
      · rename_i h_busy
        exact retry_ok (s := s.setHctx d.hctx { s.hctx d.hctx with runWork := true }) h_d h_run
          (Or.inr (h_busy_kind h_busy))
      · rw [counters_leave (s := s.setHctx d.hctx { s.hctx d.hctx with runWork := true }) h_d,
          counters_runWork, h_kind, h_needs, Bool.true_or, if_pos rfl]
        exact h.leaveRun
    · rename_i h_needs
      cases h_turn
      unfold State.finish
      split
      · rename_i h_busy
        exact retry_ok h_d h (Or.inr (h_busy_kind h_busy))
      · rename_i h_busy
        rw [counters_leave h_d, h_kind, if_neg (by simp [h_needs, h_busy])]
        exact h.leavePlain h_mark

/-- A dispatcher's step, and its own context. -/
theorem turn_ok (h_depth : 0 < depth) (h_d : d ∈ s.dispatchers)
    (h : (s.counters d.hctx).Ok depth) (h_turn : turn depth s d choice = some s') :
    (s'.counters d.hctx).Ok depth := by
  cases h_pc : d.pc with
  | start => exact start_ok h_d h h_pc h_turn
  | taken rq rqs => exact taken_ok h_d h h_pc h_turn
  | collect ids => exact collect_ok h_d h h_pc h_turn
  | look ids => exact look_ok h_d h h_pc h_turn
  | dequeue ids => exact dequeue_ok h_d h h_pc h_turn
  | dequeued ids id => exact dequeued_ok h_d h h_pc h_turn
  | next b => exact next_ok h_d h h_pc h_turn
  | failed id b => exact failed_ok h_d h h_pc h_turn
  | marked id b => exact marked_ok h_d h h_pc h_turn
  | last id b => exact last_ok h_d h h_pc h_turn
  | queued id b => exact queued_ok h_depth h_d h h_pc h_turn
  | refused id b => exact refused_ok h_depth h_d h h_pc h_turn
  | putBack id b => exact putBack_ok h_d h h_pc h_turn
  | check b => exact check_ok h_d h h_pc h_turn

/-! The others. -/

theorem counters_gone (s : State ι) (c : Caller ι) :
    ({ s with callers := s.callers.erase c } : State ι).counters c.hctx =
      (s.counters c.hctx).gone c.stage := by
  obtain ⟨i, stage⟩ := c
  cases stage <;> simp [State.counters, Counters.gone]

theorem gone_other (s : State ι) {c : Caller ι} (h : j ≠ c.hctx) :
    ({ s with callers := s.callers.erase c } : State ι).counters j = s.counters j := by
  have h_ne : ∀ stage : Stage, (⟨j, stage⟩ : Caller ι) ≠ c := fun stage h_eq => h (by rw [← h_eq])
  simp [State.counters, List.count_erase_of_ne (h_ne _)]

theorem call_ok {c : Caller ι} (h : (s.counters i).Ok depth)
    (h_step : step depth s (.call c) = some s') : (s'.counters i).Ok depth := by
  simp only [step] at h_step
  split at h_step
  · by_cases h_i : i = c.hctx
    · rw [h_i] at h ⊢
      have h_gone := counters_gone s c
      split at h_step
      · rename_i h_stage
        rw [h_stage] at h_gone
        cases h_step
        split
        · rw [counters_spawn, h_gone]
          exact h.seen
        · rename_i h_restart
          have h_zero : (s.counters c.hctx).restart = 0 := by
            have h_false : (s.hctx c.hctx).restart = false := by simpa using h_restart
            show (s.hctx c.hctx).restart.toNat = 0
            rw [h_false]
            rfl
          rw [h_gone]
          exact h.unseen h_zero
      · rename_i h_stage
        rw [h_stage] at h_gone
        cases h_step
        rw [counters_spawn, counters_setHctx, h_gone]
        exact h.clear
      · rename_i h_stage
        rw [h_stage] at h_gone
        cases h_step
        split
        · rename_i h_empty
          have h_dispatch : (s.counters c.hctx).dispatch = 0 := by
            show (s.hctx c.hctx).dispatch.length = 0
            rw [List.isEmpty_iff.mp h_empty]
            rfl
          rw [counters_spawn, h_gone]
          exact h.ask h_dispatch
        · rw [counters_setHctx, h_gone]
          exact h.queueRun (Or.inl rfl)
      · rename_i h_stage
        rw [h_stage] at h_gone
        cases h_step
        split
        · rename_i h_empty
          have h_sched : (s.counters c.hctx).sched = 0 := by
            show (s.hctx c.hctx).sched.length = 0
            rw [List.isEmpty_iff.mp h_empty]
            rfl
          rw [h_gone]
          exact h.nothing h_sched
        · rw [counters_setHctx, h_gone]
          exact h.queueRun (Or.inr rfl)
    · have h_gone := gone_other s h_i
      split at h_step
      · cases h_step
        split
        · rw [spawn_other _ h_i, h_gone]
          exact h
        · rw [h_gone]
          exact h
      · cases h_step
        rw [spawn_other _ h_i, setHctx_other _ h_i, h_gone]
        exact h
      · cases h_step
        split
        · rw [spawn_other _ h_i, h_gone]
          exact h
        · rw [setHctx_other _ h_i, h_gone]
          exact h
      · cases h_step
        split
        · rw [h_gone]
          exact h
        · rw [setHctx_other _ h_i, h_gone]
          exact h
  · cases h_step

theorem complete_ok {k : ι} (h_depth : 0 < depth) (h : (s.counters i).Ok depth)
    (h_step : step depth s (.complete k) = some s') : (s'.counters i).Ok depth := by
  obtain ⟨h_k, h_eq⟩ := Option.ite_none_right_eq_some.mp h_step
  cases h_eq
  by_cases h_i : i = k
  · subst h_i
    have h_freed : ({ s with accepted := s.accepted.erase i } : State ι).counters i =
        { s.counters i with accepted := (s.counters i).accepted - 1 } := by
      simp [State.counters]
    rw [counters_spawn, counters_putTag, h_freed]
    exact h.complete h_depth
  · have h_freed : ({ s with accepted := s.accepted.erase k } : State ι).counters i =
        s.counters i := by
      simp [State.counters, List.count_erase_of_ne h_i]
    rw [spawn_other _ h_i, putTag_other _ h_i, h_freed]
    exact h

theorem runWork_ok {k : ι} (h : (s.counters i).Ok depth)
    (h_step : step depth s (.runWork k) = some s') : (s'.counters i).Ok depth := by
  obtain ⟨h_k, h_eq⟩ := Option.ite_none_right_eq_some.mp h_step
  cases h_eq
  by_cases h_i : i = k
  · subst h_i
    rw [counters_launch, counters_runWork]
    exact h.runWork
  · rw [launch_other _ h_i, setHctx_other _ h_i]
    exact h

/-- Every step keeps what is said of a context. -/
theorem step_ok {e : Event ι} (h_depth : 0 < depth) (h : (s.counters i).Ok depth)
    (h_step : step depth s e = some s') : (s'.counters i).Ok depth := by
  cases e with
  | insert k id =>
      cases h_step
      by_cases h_i : i = k
      · subst h_i
        rw [counters_spawn, counters_sched]
        exact h.insert
      · rw [spawn_other _ h_i, setHctx_other _ h_i]
        exact h
  | bypass k id atHead =>
      cases h_step
      by_cases h_i : i = k
      · subst h_i
        have h_length : (if atHead then ⟨id, false⟩ :: (s.hctx i).dispatch
            else (s.hctx i).dispatch ++ [⟨id, false⟩]).length = (s.counters i).dispatch + 1 := by
          cases atHead with
          | true => rfl
          | false =>
              simp only [Bool.false_eq_true, if_false, List.length_append]
              rfl
        rw [counters_spawn, counters_dispatch, h_length]
        exact h.bypass
      · rw [spawn_other _ h_i, setHctx_other _ h_i]
        exact h
  | delayRun k =>
      cases h_step
      by_cases h_i : i = k
      · subst h_i
        rw [counters_runWork]
        exact h.setRun
      · rw [setHctx_other _ h_i]
        exact h
  | complete k => exact complete_ok h_depth h h_step
  | call c => exact call_ok h h_step
  | runWork k => exact runWork_ok h h_step
  | turn d choice =>
      obtain ⟨h_d, h_turn⟩ := Option.ite_none_right_eq_some.mp h_step
      by_cases h_i : i = d.hctx
      · subst h_i
        exact turn_ok h_depth h_d h h_turn
      · rw [turn_other h_turn h_i]
        exact h

theorem Init.ok (h_depth : 0 < depth) (h : Init s) (i : ι) : (s.counters i).Ok depth := by
  have h_zero : s.counters i = ⟨0, 0, 0, 0, 0, 0, 0, 0, 0, 0, fun _ => 0⟩ := by
    simp [State.counters, h.hctx i, h.accepted, h.held, h.dispatchers, h.callers]
  rw [h_zero]
  refine ⟨Nat.zero_le depth, ?_, ?_, ?_, ?_⟩
  · exact fun h_full => absurd h_full (Nat.not_le_of_lt h_depth)
  · exact fun h_pos => absurd h_pos (Nat.lt_irrefl 0)
  · exact fun h_pos => absurd h_pos (Nat.lt_irrefl 0)
  · exact fun h_pos => absurd h_pos (Nat.lt_irrefl 0)

/-- Where nobody is at work, the mark is there, and the driver has a request. -/
theorem noStall_of_ok (h : (s.counters i).Ok depth) : NoStall s i := by
  intro h_quiet h_pending
  have h_run : (s.counters i).run = 0 := by
    show (s.hctx i).runWork.toNat = 0
    rw [h_quiet.runWork]
    rfl
  have h_num : ∀ k, (s.counters i).num k = 0 := fun k =>
    Parties.total_eq_zero fun d h_d => if_neg fun h_at => h_quiet.dispatchers d h_d h_at.1
  have h_callers : ∀ stage, s.callers.count ⟨i, stage⟩ = 0 := fun stage =>
    List.count_eq_zero.mpr fun h_mem => h_quiet.callers _ h_mem rfl
  have h_restart : (s.counters i).atRestart = 0 := h_callers .restart
  have h_clear : (s.counters i).atClear = 0 := h_callers .clear
  have h_atRun : (s.counters i).atRun = 0 := h_callers .run
  have h_atAsk : (s.counters i).atAsk = 0 := h_callers .ask
  have h_sched := h.sched
  have h_list := h.list
  simp only [h_num, h_run, h_restart, h_clear, h_atRun, h_atAsk, Nat.lt_irrefl,
    false_or, or_false,
    and_false] at h_sched h_list
  -- what the scheduler has waits for what is on the list
  have h_dispatch : 0 < (s.counters i).dispatch := by
    have h_some : (s.hctx i).dispatch ≠ [] ∨ (s.hctx i).sched ≠ [] := by
      simpa [blkMqHctxHasPending, Decidable.or_iff_not_imp_left] using h_pending
    cases h_some with
    | inl h_ne => exact List.length_pos_iff.mpr h_ne
    | inr h_ne => exact h_sched (List.length_pos_iff.mpr h_ne)
  obtain ⟨h_mark, h_accepted⟩ := h_list h_dispatch
  refine ⟨List.length_pos_iff.mp h_dispatch, ?_, List.count_pos_iff.mp h_accepted⟩
  cases h_b : (s.hctx i).restart with
  | true => rfl
  | false =>
      have h_zero : (s.counters i).restart = 0 := by
        show (s.hctx i).restart.toNat = 0
        rw [h_b]
        rfl
      omega

/-- A request of the context is freed, and whoever frees it goes through
`__blk_mq_sched_restart`. -/
def freed (i : ι) : List (Event ι) :=
  [.complete i, .call ⟨i, .restart⟩, .call ⟨i, .clear⟩, .call ⟨i, .run⟩]

/-- Then the context is run. -/
theorem Waits.run_freed (h : Waits s i) :
    ∃ s', Lts.run (step depth) s (freed i) = some s' ∧ (s'.hctx i).runWork = true := by
  have h_some : (Lts.run (step depth) s (freed i)).isSome = true := by
    simp [freed, Lts.run, step, State.spawn, State.putTag, State.setHctx, h.accepted, h.restart]
  obtain ⟨s', h_run⟩ := Option.isSome_iff_exists.mp h_some
  refine ⟨s', h_run, ?_⟩
  simp [freed, Lts.run, step, State.spawn, State.putTag, State.setHctx, h.accepted, h.restart,
    h.dispatch] at h_run
  rw [← h_run]
  simp

/-- A context has somebody at work on it, or nothing to dispatch, or it is marked, and the driver
has a request of it, which when it is freed has the context run. -/
theorem noStall (h_depth : 0 < depth) (h_reach : Lts.Reach (step depth) Lts.anyStep Init s)
    (i : ι) :
    NoStall s i ∧ (Quiet s i → blkMqHctxHasPending (s.hctx i) = true →
      ∃ s', Lts.run (step depth) s (freed i) = some s' ∧ (s'.hctx i).runWork = true) := by
  have h_ok : (s.counters i).Ok depth := h_reach.invariant (fun _ h_init => h_init.ok h_depth i)
    fun _ _ _ h_ok _ h_step => step_ok h_depth h_ok h_step
  have h_noStall := noStall_of_ok h_ok
  refine ⟨h_noStall, fun h_quiet h_pending => ?_⟩
  exact (h_noStall h_quiet h_pending).run_freed

end Run

/-! One tag and two requests: the driver has the first, and the second waits for it. -/

def emptyState : State Unit := ⟨fun _ => ⟨false, [], [], false⟩, [], [], [], []⟩

theorem emptyState_init : Init emptyState := ⟨fun _ => rfl, rfl, rfl, rfl, rfl⟩

def oneTagEvents : List (Event Unit) :=
  [.insert () 0, .insert () 1, .call ⟨(), .run⟩, .call ⟨(), .ask⟩, .call ⟨(), .run⟩,
    .call ⟨(), .ask⟩, .runWork (), .turn ⟨(), false, .start⟩ .go,
    .turn ⟨(), false, .collect []⟩ .go, .turn ⟨(), false, .look []⟩ .go,
    .turn ⟨(), false, .dequeue []⟩ .go, .turn ⟨(), false, .dequeued [] 0⟩ .go,
    .turn ⟨(), false, .collect [0]⟩ .go, .turn ⟨(), false, .look [0]⟩ .go,
    .turn ⟨(), false, .dequeue [0]⟩ .go, .turn ⟨(), false, .dequeued [0] 1⟩ .go,
    .turn ⟨(), false, .next ⟨[⟨0, true⟩, ⟨1, false⟩], false, true, false⟩⟩ .go,
    .turn ⟨(), false, .last 0 ⟨[⟨1, false⟩], false, true, false⟩⟩ .go,
    .turn ⟨(), false, .queued 0 ⟨[⟨1, false⟩], false, true, false⟩⟩ (.answer .ok),
    .turn ⟨(), false, .next ⟨[⟨1, false⟩], false, true, false⟩⟩ .go,
    .turn ⟨(), false, .failed 1 ⟨[], false, true, false⟩⟩ .go,
    .turn ⟨(), false, .marked 1 ⟨[], false, true, false⟩⟩ .go,
    .turn ⟨(), false, .putBack 1 ⟨[], false, true, false⟩⟩ .go,
    .turn ⟨(), false, .check ⟨[], false, true, false⟩⟩ .go]

def oneTagState : State Unit := (Lts.run (step 1) emptyState oneTagEvents).getD emptyState

theorem oneTagState_reach : Lts.Reach (step 1) Lts.anyStep Init oneTagState := by
  have h_some : (Lts.run (step 1) emptyState oneTagEvents).isSome = true := by decide +kernel
  obtain ⟨s', h_run⟩ := Option.isSome_iff_exists.mp h_some
  have h_eq : oneTagState = s' := by
    rw [oneTagState, h_run, Option.getD_some]
  exact h_eq ▸ (Lts.Reach.init emptyState_init).run_anyStep h_run

theorem oneTagState_quiet : Quiet oneTagState () := by
  have h_dispatchers : oneTagState.dispatchers = [] := by decide +kernel
  have h_callers : oneTagState.callers = [] := by decide +kernel
  refine ⟨by decide +kernel, ?_, ?_⟩
  · simp [h_dispatchers]
  · simp [h_callers]

theorem noStall_oneTag : (oneTagState.hctx ()).dispatch = [⟨1, false⟩] ∧
    ∃ s', Lts.run (step 1) oneTagState (freed ()) = some s' ∧ (s'.hctx ()).runWork = true := by
  have h_pending : blkMqHctxHasPending (oneTagState.hctx ()) = true := by decide +kernel
  refine ⟨by decide +kernel, ?_⟩
  exact (noStall Nat.one_pos oneTagState_reach ()).2 oneTagState_quiet h_pending

end Daredevil.Restart
