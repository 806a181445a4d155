/-
  Daredevil.Block.Quiesce

  How the dispatching of a request queue is suspended and taken up again (`block/blk-mq.c`,
  `block/blk-mq-sched.c`).  A queue is quiesced as a whole, by a counter and a flag, and its
  hardware contexts are stopped one by one.  Whoever calls the driver has looked at both, inside
  an RCU (or SRCU) read-side section; `blk_mq_quiesce_queue` sets the flag and waits for the
  sections that are under way.  Whoever suspends a context that has requests leaves these to the
  one who takes it up.

  A context has several lists: `hctx->dispatch`, a vNQ for each CPU with blex, and a software queue
  for each CPU without.  `__blk_mq_sched_dispatch_requests` takes the first two kinds one after the
  other, each of them once, and does not come back to a list when it has been refilled behind it.

  Any number of quiescers, submitters and runners are under way at a time, and each look at the
  flag, at the stopped bit and at a list is a step.  A context that is run in line is run by a party
  of its own.  A request is put on its vNQ and the CPU marked in one step; what can happen between
  the two is the subject of `Daredevil.Block.Vnq`.  There is no I/O scheduler, and the driver
  refuses a request with `BLK_STS_RESOURCE`, as NVMe does.

    * `Held`           — what the quiescers rely on, kept by every step;
    * `queueRq_frozen` — the driver is not called while somebody has the queue quiesced;
    * `Served`         — who sees to it that the requests on a list are dispatched;
    * `served_iff`     — direct issue forgets a request exactly when the context has been opened
                         between its look at the gate and its insertion.
-/
import Daredevil.Lib.Lts
import Daredevil.Lib.Parties
import Mathlib.Logic.Function.Basic

namespace Daredevil.Quiesce

/-! ## State -/

/-- A list of a hardware context. -/
inductive RqList (κ : Type) where
  /-- `hctx->dispatch` -/
  | dispatch
  /-- `hctx->vnqs[cpu].dispatch_list` -/
  | vnq (cpu : κ)
  /-- the software queue of the CPU -/
  | ctx (cpu : κ)
  deriving DecidableEq, Repr

/-- The part of `struct request` that says where it is put. -/
structure Request (ι κ : Type) where
  mqHctx : ι
  /-- `mq_ctx->cpu` -/
  cpu : κ
  id : Nat
  deriving DecidableEq, Repr

structure RequestQueue (ι κ : Type) where
  hctxs : List ι
  cpus : List κ
  /-- `blk_blex_nvme_enabled` -/
  blex : Bool

namespace RequestQueue

variable {ι κ : Type} (q : RequestQueue ι κ)

/-- Where `blk_mq_sched_insert_request` and `blk_mq_insert_requests` put a request. -/
def inserted (cpu : κ) : RqList κ := if q.blex then .vnq cpu else .ctx cpu

/-- `blk_mq_request_bypass_insert` -/
def bypassInserted (cpu : κ) : RqList κ := if q.blex then .vnq cpu else .dispatch

def ctxs : List (RqList κ) := q.cpus.map .ctx

/-- What `__blk_mq_sched_dispatch_requests` takes first. -/
def dispatchLists : List (RqList κ) := .dispatch :: if q.blex then q.cpus.map .vnq else []

/-- What `blk_mq_hctx_has_pending` looks at. -/
def pendingLists : List (RqList κ) := q.dispatchLists ++ q.ctxs

theorem inserted_ne_ctx (h_blex : q.blex = true) (cpu cpu' : κ) : q.inserted cpu ≠ .ctx cpu' := by
  simp [inserted, h_blex]

theorem bypassInserted_ne_ctx (h_blex : q.blex = true) (cpu cpu' : κ) :
    q.bypassInserted cpu ≠ .ctx cpu' := by
  simp [bypassInserted, h_blex]

theorem mem_dispatchLists {k : RqList κ} (h_blex : q.blex = true) (h_cpus : ∀ cpu, cpu ∈ q.cpus)
    (h_k : ∀ cpu, k ≠ .ctx cpu) : k ∈ q.dispatchLists := by
  cases k with
  | dispatch => exact List.mem_cons_self
  | vnq cpu => simp [dispatchLists, h_blex, h_cpus cpu]
  | ctx cpu => exact absurd rfl (h_k cpu)

end RequestQueue

/-- The part of `struct blk_mq_hw_ctx` that is about running it. -/
structure HwCtx where
  /-- `BLK_MQ_S_STOPPED` -/
  stopped : Bool
  /-- `run_work` is queued -/
  runWork : Bool
  deriving DecidableEq, Repr

/-- Who calls `__blk_mq_try_issue_directly`. -/
inductive Issue where
  /-- `blk_mq_plug_issue_direct` -/
  | plug
  /-- `blk_mq_try_issue_list_directly`, with the requests of one context and one CPU -/
  | list
  /-- `blk_mq_try_issue_directly`, with one request -/
  | single
  deriving DecidableEq, Repr

/-- Where a party stands.  In direct issue the `others` of the plug come after. -/
inductive Pc (ι κ : Type) where
  /-- `blk_mq_dispatch_plug_list`, or a request that is not plugged -/
  | insert (rqs : List (Request ι κ))
  /-- `blk_mq_insert_requests`; then the context is run, and the others come after -/
  | insertRequests (i : ι) (cpu : κ) (ids : List Nat) (others : List (Request ι κ))
  /-- `blk_mq_run_hw_queues` -/
  | runAll (todo : List ι)
  /-- `blk_mq_delay_run_hw_queues` -/
  | delayRunAll (todo : List ι)
  /-- `blk_mq_run_hw_queue`: is to look whether the queue is quiesced -/
  | needRun (i : ι)
  /-- and then whether anything is pending, on these lists -/
  | hasPending (i : ι) (todo : List (RqList κ))
  /-- `__blk_mq_delay_run_hw_queue` -/
  | delayRun (i : ι)
  /-- `blk_mq_run_work_fn` -/
  | work (i : ι)
  /-- `blk_mq_sched_dispatch_requests`: is to look whether the context is stopped -/
  | schedStopped (i : ι)
  /-- and then whether the queue is quiesced -/
  | schedQuiesced (i : ι)
  /-- `__blk_mq_sched_dispatch_requests`, called once or twice: is to take these lists, and has
  taken the requests -/
  | take (again : Bool) (i : ι) (todo : List (RqList κ)) (rqs : List Nat)
  /-- `blk_mq_flush_busy_ctxs` -/
  | flushBusyCtxs (i : ι) (todo : List (RqList κ)) (rqs : List Nat)
  /-- `blk_mq_dispatch_rq_list`; `more` says whether `blk_mq_do_dispatch_ctx` comes after, and
  in which of the calls -/
  | dispatch (more : Option Bool) (i : ι) (rqs : List Nat)
  /-- `blk_mq_do_dispatch_ctx`: is to look at `hctx->dispatch` -/
  | doDispatchCtx (again : Bool) (i : ι)
  /-- `blk_mq_dequeue_from_ctx` -/
  | dequeue (again : Bool) (i : ι) (todo : List (RqList κ))
  /-- has put requests back: is to look at the restart mark -/
  | needsRestart (i : ι)
  /-- `blk_mq_stop_hw_queue`, `run_work` cancelled -/
  | stopping (i : ι)
  /-- `blk_mq_start_hw_queue` -/
  | starting (i : ι)
  /-- `__blk_mq_flush_plug_list` -/
  | flushPlug (rqs : List (Request ι κ))
  /-- in the driver's `queue_rqs`, which leaves some of the requests -/
  | queueRqs (rqs left : List (Request ι κ))
  /-- `__blk_mq_try_issue_directly`, for each of these: is to look whether the context is stopped -/
  | direct (how : Issue) (rqs others : List (Request ι κ))
  /-- and then whether the queue is quiesced -/
  | directQuiesced (how : Issue) (rq : Request ι κ) (rqs others : List (Request ι κ))
  /-- has found one of them set, and is to insert the request, `run_queue` being false -/
  | refused (how : Issue) (rq : Request ι κ) (rqs others : List (Request ι κ))
  /-- has found none set, and is to call the driver -/
  | issue (how : Issue) (rq : Request ι κ) (rqs others : List (Request ι κ))
  deriving DecidableEq, Repr

namespace Pc

variable {ι κ : Type}

/-- Has found that the queue is not quiesced, and calls the driver. -/
def calling : Pc ι κ → Bool
  | take _ _ _ _ | flushBusyCtxs _ _ _ | dispatch _ _ _ | doDispatchCtx _ _ | dequeue _ _ _ => true
  | queueRqs _ _ | issue _ _ _ _ => true
  | _ => false

/-- Inside `blk_mq_run_dispatch_ops`. -/
def guarded : Pc ι κ → Bool
  | needRun _ | hasPending _ _ | schedStopped _ | schedQuiesced _ => true
  | flushPlug _ | direct _ _ _ | directQuiesced _ _ _ _ | refused _ _ _ _ => true
  | pc => pc.calling

/-- Where a new party begins. -/
def entry : Pc ι κ → Bool
  | insert _ | runAll _ | delayRunAll _ | needRun _ | delayRun _ | flushPlug _ => true
  | direct .plug _ [] | direct .single [_] [] => true
  | _ => false

end Pc

/-- A party, and the read-side section it is in. -/
structure Party (ι κ : Type) where
  pc : Pc ι κ
  sec : Option Nat
  deriving DecidableEq, Repr

structure State (ι κ : Type) where
  /-- `q->quiesce_depth` -/
  quiesceDepth : Int
  /-- `QUEUE_FLAG_QUIESCED` -/
  quiesced : Bool
  /-- the callers of `blk_mq_quiesce_queue_nowait` that do not wait -/
  marked : Nat
  /-- those that wait, each for the sections that were under way when it began to -/
  waiting : List (List Nat)
  /-- those for which `blk_mq_wait_quiesce_done` has returned -/
  holders : Nat
  /-- the number of the next section -/
  nextSection : Nat
  hctx : ι → HwCtx
  pending : ι → RqList κ → List Nat
  parties : List (Party ι κ)
  /-- the requests with which `queue_rq` or `queue_rqs` has been called -/
  queueRq : List Nat

/-- What a step depends on besides the state. -/
inductive Choice where
  | go
  /-- `async`, or `run_queue_async`, or a delay -/
  | async
  /-- `hctx->dispatch_busy` is not zero -/
  | dispatchBusy
  /-- there is no budget -/
  | noBudget
  /-- `BLK_STS_RESOURCE`, or `queue_rqs` leaves the request -/
  | busy
  /-- an error, and the request is ended -/
  | error
  deriving DecidableEq, Repr

inductive Event (ι κ : Type) where
  | quiesceNowait
  /-- `blk_mq_wait_quiesce_done`, by one that has marked the queue -/
  | waitStart
  | waitDone (sections : List Nat)
  /-- `blk_mq_unquiesce_queue`, by one that has not waited or by one that has -/
  | unquiesce (held : Bool)
  | stop (i : ι)
  | start (i : ι)
  /-- `blk_mq_start_stopped_hw_queue`, the bit being set -/
  | startStopped (i : ι)
  /-- a new caller -/
  | call (pc : Pc ι κ)
  | runWork (i : ι)
  | turn (p : Party ι κ) (choice : Choice)
  deriving DecidableEq, Repr

/-! ## Steps -/

section Steps

variable {ι κ : Type} [DecidableEq ι] [DecidableEq κ]

namespace State

def setHctx (s : State ι κ) (i : ι) (x : HwCtx) : State ι κ :=
  { s with hctx := Function.update s.hctx i x }

def setPending (s : State ι κ) (i : ι) (k : RqList κ) (ids : List Nat) : State ι κ :=
  { s with pending := fun j l => if j = i ∧ l = k then ids else s.pending j l }

/-- The requests are added to a list of the context. -/
def addPending (s : State ι κ) (i : ι) (k : RqList κ) (ids : List Nat) : State ι κ :=
  s.setPending i k (s.pending i k ++ ids)

def spawn (s : State ι κ) (pc : Pc ι κ) : State ι κ :=
  { s with parties := ⟨pc, none⟩ :: s.parties }

def leave (s : State ι κ) (p : Party ι κ) : State ι κ := { s with parties := s.parties.erase p }

/-- The party goes on in its section. -/
def goto (s : State ι κ) (p : Party ι κ) (pc : Pc ι κ) : State ι κ :=
  { s with parties := Parties.move s.parties p ⟨pc, p.sec⟩ }

/-- It leaves the section. -/
def out (s : State ι κ) (p : Party ι κ) (pc : Pc ι κ) : State ι κ :=
  { s with parties := Parties.move s.parties p ⟨pc, none⟩ }

/-- The driver is called. -/
def callDriver (s : State ι κ) (id : Nat) : State ι κ := { s with queueRq := id :: s.queueRq }

/-- Neither is the context stopped nor the queue quiesced. -/
def isOpen (s : State ι κ) (i : ι) : Bool := !(s.hctx i).stopped && !s.quiesced

end State

/-- `rcu_read_lock` -/
def enter (s : State ι κ) (p : Party ι κ) : State ι κ :=
  { s with
    parties := Parties.move s.parties p ⟨p.pc, some s.nextSection⟩
    nextSection := s.nextSection + 1 }

/-- The requests of a plug that go with `rq`, the last one first. -/
def group (rq : Request ι κ) (rqs : List (Request ι κ)) : List (Request ι κ) :=
  (rqs.filter fun r => r.mqHctx = rq.mqHctx ∧ r.cpu = rq.cpu).reverse

def others (rq : Request ι κ) (rqs : List (Request ι κ)) : List (Request ι κ) :=
  rqs.filter fun r => ¬(r.mqHctx = rq.mqHctx ∧ r.cpu = rq.cpu)

/-- Where `__blk_mq_try_issue_directly` has a request put for which there is no budget. -/
def unissued (q : RequestQueue ι κ) (how : Issue) (cpu : κ) : RqList κ :=
  if how = .single then q.inserted cpu else q.bypassInserted cpu

/-- Direct issue inserts a request for which there has been no room.  The context is run at once,
or when the rest of its group has been inserted. -/
def issueBusy (s : State ι κ) (p : Party ι κ) (how : Issue) (k : RqList κ)
    (rq : Request ι κ) (rqs others : List (Request ι κ)) : State ι κ :=
  if how = .list ∧ rqs ≠ [] then
    (s.addPending rq.mqHctx k [rq.id]).out p
      (.insertRequests rq.mqHctx rq.cpu (rqs.map Request.id) others)
  else
    ((s.addPending rq.mqHctx k [rq.id]).out p
      (.insert (rqs ++ others))).spawn (.needRun rq.mqHctx)

/-- What a party does next, in its section if it is to be in one. -/
def advance (q : RequestQueue ι κ) (s : State ι κ) (p : Party ι κ) (choice : Choice) :
    State ι κ :=
  match p.pc with
  | .insert [] => s.leave p
  | .insert (rq :: rqs) =>
      if choice = .async then
        s.out p (.insertRequests rq.mqHctx rq.cpu ((group rq (rq :: rqs)).map Request.id)
          (others rq (rq :: rqs)))
      else s.out p (.direct .list (group rq (rq :: rqs)) (others rq (rq :: rqs)))
  | .insertRequests i cpu ids rest =>
      ((s.addPending i (q.inserted cpu) ids).out p (.insert rest)).spawn (.needRun i)
  | .runAll [] => s.leave p
  | .runAll (i :: todo) =>
      if (s.hctx i).stopped then s.out p (.runAll todo)
      else (s.out p (.runAll todo)).spawn (.needRun i)
  | .delayRunAll [] => s.leave p
  | .delayRunAll (i :: todo) =>
      if (s.hctx i).stopped then s.out p (.delayRunAll todo)
      else (s.setHctx i { s.hctx i with runWork := true }).out p (.delayRunAll todo)
  | .needRun i => if s.quiesced then s.leave p else s.goto p (.hasPending i q.pendingLists)
  | .hasPending _ [] => s.leave p
  | .hasPending i (k :: todo) =>
      if (s.pending i k).isEmpty then s.goto p (.hasPending i todo) else s.out p (.delayRun i)
  | .delayRun i =>
      if (s.hctx i).stopped then s.leave p
      else if choice = .async then (s.setHctx i { s.hctx i with runWork := true }).leave p
      else s.out p (.schedStopped i)
  | .work i => if (s.hctx i).stopped then s.leave p else s.out p (.schedStopped i)
  | .schedStopped i => if (s.hctx i).stopped then s.leave p else s.goto p (.schedQuiesced i)
  | .schedQuiesced i =>
      if s.quiesced then s.leave p else s.goto p (.take false i q.dispatchLists [])
  | .take again i (k :: todo) rqs =>
      (s.setPending i k []).goto p (.take again i todo (rqs ++ s.pending i k))
  | .take again i [] [] =>
      if choice = .dispatchBusy then s.goto p (.doDispatchCtx again i)
      else s.goto p (.flushBusyCtxs i q.ctxs [])
  | .take again i [] (id :: rqs) => s.goto p (.dispatch (some again) i (id :: rqs))
  | .flushBusyCtxs i (k :: todo) rqs =>
      (s.setPending i k []).goto p (.flushBusyCtxs i todo (rqs ++ s.pending i k))
  | .flushBusyCtxs i [] rqs => s.goto p (.dispatch none i rqs)
  | .dispatch none _ [] => s.leave p
  | .dispatch (some again) i [] => s.goto p (.doDispatchCtx again i)
  | .dispatch more i (id :: rqs) =>
      match choice with
      | .noBudget => (s.addPending i .dispatch (id :: rqs)).out p (.needsRestart i)
      | .busy => ((s.callDriver id).addPending i .dispatch (id :: rqs)).out p (.needsRestart i)
      | _ => (s.callDriver id).goto p (.dispatch more i rqs)
  | .doDispatchCtx again i =>
      if (s.pending i .dispatch).isEmpty then s.goto p (.dequeue again i q.ctxs)
      else if again then s.out p (.needRun i)
      else s.goto p (.take true i q.dispatchLists [])
  | .dequeue _ _ [] =>
      -- the bits of the software queues are set before the lists are looked at
      if choice = .async then s.out p (.delayRunAll q.hctxs) else s.leave p
  | .dequeue again i (k :: todo) =>
      if choice = .noBudget then s.leave p
      else
        match s.pending i k with
        | [] => s.goto p (.dequeue again i todo)
        | id :: rqs => (s.setPending i k rqs).goto p (.dispatch (some again) i [id])
  | .needsRestart i => if choice = .async then s.out p (.delayRun i) else s.out p (.needRun i)
  | .stopping i => (s.setHctx i { s.hctx i with stopped := true }).leave p
  | .starting i => (s.setHctx i { s.hctx i with stopped := false }).out p (.needRun i)
  | .flushPlug rqs =>
      if s.quiesced then s.out p (.direct .plug rqs []) else s.goto p (.queueRqs rqs [])
  | .queueRqs [] left => s.out p (.direct .plug left [])
  | .queueRqs (rq :: rqs) left =>
      match choice with
      | .busy => s.goto p (.queueRqs rqs (left ++ [rq]))
      | _ => (s.callDriver rq.id).goto p (.queueRqs rqs left)
  | .direct _ [] others => s.out p (.insert others)
  | .direct how (rq :: rqs) others =>
      if (s.hctx rq.mqHctx).stopped then s.goto p (.refused how rq rqs others)
      else s.goto p (.directQuiesced how rq rqs others)
  | .directQuiesced how rq rqs others =>
      if s.quiesced then s.goto p (.refused how rq rqs others)
      else s.goto p (.issue how rq rqs others)
  | .refused how rq rqs others =>
      (s.addPending rq.mqHctx (q.inserted rq.cpu) [rq.id]).goto p (.direct how rqs others)
  | .issue how rq rqs others =>
      match choice with
      | .noBudget => issueBusy s p how (unissued q how rq.cpu) rq rqs others
      | .busy => issueBusy (s.callDriver rq.id) p how (q.bypassInserted rq.cpu) rq rqs others
      | _ => (s.callDriver rq.id).goto p (.direct how rqs others)

/-- `blk_mq_unquiesce_queue` -/
def blkMqUnquiesceQueue (q : RequestQueue ι κ) (s : State ι κ) : State ι κ :=
  if s.quiesceDepth ≤ 0 then s
  else if s.quiesceDepth - 1 = 0 then
    { s with quiesceDepth := s.quiesceDepth - 1, quiesced := false }.spawn (.runAll q.hctxs)
  else { s with quiesceDepth := s.quiesceDepth - 1 }

def step (q : RequestQueue ι κ) (s : State ι κ) : Event ι κ → Option (State ι κ)
  | .quiesceNowait =>
      some { s with
        quiesceDepth := s.quiesceDepth + 1
        quiesced := s.quiesced || s.quiesceDepth = 0
        marked := s.marked + 1 }
  | .waitStart =>
      if 0 < s.marked then
        some { s with
          marked := s.marked - 1
          waiting := s.parties.filterMap (fun p => p.sec) :: s.waiting }
      else none
  | .waitDone sections =>
      if sections ∈ s.waiting ∧ ∀ p ∈ s.parties, ∀ n ∈ p.sec, n ∉ sections then
        some { s with waiting := s.waiting.erase sections, holders := s.holders + 1 }
      else none
  | .unquiesce true =>
      if 0 < s.holders then
        some (blkMqUnquiesceQueue q { s with holders := s.holders - 1 })
      else none
  | .unquiesce false =>
      if 0 < s.marked then
        some (blkMqUnquiesceQueue q { s with marked := s.marked - 1 })
      else none
  | .stop i => some ((s.setHctx i { s.hctx i with runWork := false }).spawn (.stopping i))
  | .start i => some (s.spawn (.starting i))
  | .startStopped i => if (s.hctx i).stopped then some (s.spawn (.starting i)) else none
  | .call pc => if pc.entry then some (s.spawn pc) else none
  | .runWork i =>
      if (s.hctx i).runWork then
        some ((s.setHctx i { s.hctx i with runWork := false }).spawn (.work i))
      else none
  | .turn p choice =>
      if p ∈ s.parties then
        if p.pc.guarded && p.sec.isNone then some (enter s p) else some (advance q s p choice)
      else none

/-- Nothing has happened. -/
structure Init (s : State ι κ) : Prop where
  quiesceDepth : s.quiesceDepth = 0
  quiesced : s.quiesced = false
  marked : s.marked = 0
  waiting : s.waiting = []
  holders : s.holders = 0
  hctx : ∀ i, s.hctx i = ⟨false, false⟩
  pending : ∀ i k, s.pending i k = []
  parties : s.parties = []

end Steps

/-! ## Where the parties go -/

section Effects

variable {ι κ : Type} {s : State ι κ} {p p' : Party ι κ} {pc : Pc ι κ}

@[simp] theorem callDriver_parties (s : State ι κ) (id : Nat) :
    (s.callDriver id).parties = s.parties := rfl

theorem mem_spawn : p' ∈ (s.spawn pc).parties ↔ p' = ⟨pc, none⟩ ∨ p' ∈ s.parties := List.mem_cons

/-- What `Held` is about, the parties apart. -/
def State.control (s : State ι κ) : Int × Bool × Nat × List (List Nat) × Nat :=
  (s.quiesceDepth, s.quiesced, s.marked, s.waiting, s.holders)

@[simp] theorem spawn_control (s : State ι κ) (pc : Pc ι κ) :
    (s.spawn pc).control = s.control := rfl

@[simp] theorem callDriver_control (s : State ι κ) (id : Nat) :
    (s.callDriver id).control = s.control := rfl

variable [DecidableEq ι]

@[simp] theorem setHctx_parties (s : State ι κ) (i : ι) (x : HwCtx) :
    (s.setHctx i x).parties = s.parties := rfl

@[simp] theorem setHctx_control (s : State ι κ) (i : ι) (x : HwCtx) :
    (s.setHctx i x).control = s.control := rfl

variable [DecidableEq κ]

@[simp] theorem setPending_parties (s : State ι κ) (i : ι) (k : RqList κ) (ids : List Nat) :
    (s.setPending i k ids).parties = s.parties := rfl

@[simp] theorem addPending_parties (s : State ι κ) (i : ι) (k : RqList κ) (ids : List Nat) :
    (s.addPending i k ids).parties = s.parties := rfl

theorem mem_leave (h : p' ∈ (s.leave p).parties) : p' ∈ s.parties := List.mem_of_mem_erase h

theorem mem_goto (h : p' ∈ (s.goto p pc).parties) : p' = ⟨pc, p.sec⟩ ∨ p' ∈ s.parties :=
  (List.mem_cons.mp h).imp_right List.mem_of_mem_erase

theorem mem_out (h : p' ∈ (s.out p pc).parties) : p' = ⟨pc, none⟩ ∨ p' ∈ s.parties :=
  (List.mem_cons.mp h).imp_right List.mem_of_mem_erase

@[simp] theorem leave_control (s : State ι κ) (p : Party ι κ) :
    (s.leave p).control = s.control := rfl

@[simp] theorem goto_control (s : State ι κ) (p : Party ι κ) (pc : Pc ι κ) :
    (s.goto p pc).control = s.control := rfl

@[simp] theorem out_control (s : State ι κ) (p : Party ι κ) (pc : Pc ι κ) :
    (s.out p pc).control = s.control := rfl

@[simp] theorem setPending_control (s : State ι κ) (i : ι) (k : RqList κ) (ids : List Nat) :
    (s.setPending i k ids).control = s.control := rfl

@[simp] theorem addPending_control (s : State ι κ) (i : ι) (k : RqList κ) (ids : List Nat) :
    (s.addPending i k ids).control = s.control := rfl

@[simp] theorem issueBusy_control (s : State ι κ) (p : Party ι κ) (how : Issue) (k : RqList κ)
    (rq : Request ι κ) (rqs others : List (Request ι κ)) :
    (issueBusy s p how k rq rqs others).control = s.control := by
  unfold issueBusy
  split
  · rfl
  · rfl

theorem advance_control (q : RequestQueue ι κ) (s : State ι κ) (p : Party ι κ) (choice : Choice) :
    (advance q s p choice).control = s.control := by
  fun_cases advance q s p choice <;> simp

/-- A party that comes to call the driver has looked at the flag in the section it is in. -/
structure Admitted (s : State ι κ) (p p' : Party ι κ) : Prop where
  sec : p'.sec = p.sec
  guarded : p.pc.guarded = true
  looked : p.pc.calling = true ∨ s.quiesced = false

theorem Admitted.of_goto {pc : Pc ι κ} (h_guarded : p.pc.guarded = true)
    (h_looked : pc.calling = true → p.pc.calling = true ∨ s.quiesced = false) {s' : State ι κ}
    (h_parties : s'.parties = s.parties) (h_p' : p' ∈ (s'.goto p pc).parties) :
    p' ∈ s.parties ∨ p'.pc.calling = false ∨ Admitted s p p' := by
  rcases mem_goto h_p' with rfl | h_mem
  · by_cases h_calling : pc.calling = true
    · exact Or.inr (Or.inr ⟨rfl, h_guarded, h_looked h_calling⟩)
    · exact Or.inr (Or.inl (by simpa using h_calling))
  · exact Or.inl (h_parties ▸ h_mem)

theorem Admitted.of_out {pc : Pc ι κ} (h_calling : pc.calling = false) {s' : State ι κ}
    (h_parties : s'.parties = s.parties) (h_p' : p' ∈ (s'.out p pc).parties) :
    p' ∈ s.parties ∨ p'.pc.calling = false ∨ Admitted s p p' := by
  rcases mem_out h_p' with rfl | h_mem
  · exact Or.inr (Or.inl h_calling)
  · exact Or.inl (h_parties ▸ h_mem)

theorem Admitted.of_out_spawn {pc pc' : Pc ι κ} (h_calling : pc.calling = false)
    (h_calling' : pc'.calling = false) {s' : State ι κ} (h_parties : s'.parties = s.parties)
    (h_p' : p' ∈ ((s'.out p pc).spawn pc').parties) :
    p' ∈ s.parties ∨ p'.pc.calling = false ∨ Admitted s p p' := by
  rcases mem_spawn.mp h_p' with rfl | h_mem
  · exact Or.inr (Or.inl h_calling')
  · exact Admitted.of_out h_calling h_parties h_mem

theorem issueBusy_parties {s' : State ι κ} (h_parties : s'.parties = s.parties) {how : Issue}
    {k : RqList κ} {rq : Request ι κ} {rqs others : List (Request ι κ)}
    (h_p' : p' ∈ (issueBusy s' p how k rq rqs others).parties) :
    p' ∈ s.parties ∨ p'.pc.calling = false ∨ Admitted s p p' := by
  unfold issueBusy at h_p'
  split at h_p'
  · exact Admitted.of_out rfl h_parties h_p'
  · exact Admitted.of_out_spawn rfl rfl h_parties h_p'

theorem advance_parties (q : RequestQueue ι κ) (s : State ι κ) (p : Party ι κ) (choice : Choice) :
    ∀ p' ∈ (advance q s p choice).parties,
      p' ∈ s.parties ∨ p'.pc.calling = false ∨ Admitted s p p' := by
  intro p'
  fun_cases advance q s p choice
  all_goals intro h_p'
  all_goals first
    | exact Or.inl (mem_leave h_p')
    | exact Admitted.of_out rfl rfl h_p'
    | exact Admitted.of_out_spawn rfl rfl rfl h_p'
    | exact issueBusy_parties (by rfl) h_p'
    | exact Admitted.of_goto (by simp [*, Pc.guarded, Pc.calling]) (by simp [*, Pc.calling]) rfl
        h_p'

@[simp] theorem issueBusy_queueRq (s : State ι κ) (p : Party ι κ) (how : Issue) (k : RqList κ)
    (rq : Request ι κ) (rqs others : List (Request ι κ)) :
    (issueBusy s p how k rq rqs others).queueRq = s.queueRq := by
  unfold issueBusy
  split
  · rfl
  · rfl

/-- Whoever is not calling the driver does not come to call it either, or has looked at the
flag; so the list of the calls is as it was. -/
theorem advance_queueRq (q : RequestQueue ι κ) (s : State ι κ) (p : Party ι κ) (choice : Choice)
    (h_calling : p.pc.calling = false) : (advance q s p choice).queueRq = s.queueRq := by
  fun_cases advance q s p choice
  all_goals first
    | rfl
    | simp_all [Pc.calling]

end Effects

/-! ## What quiescers rely on -/

section Quiescers

variable {ι κ : Type} {s s' : State ι κ}

/-- The depth counts the quiescers, and whoever calls the driver is seen by those that wait. -/
structure Held (s : State ι κ) : Prop where
  depth : s.quiesceDepth = s.marked + s.waiting.length + s.holders
  flag : s.quiesced = true ↔ 0 < s.quiesceDepth
  inSection : ∀ p ∈ s.parties, p.pc.calling = true → p.sec.isSome = true
  waiting : ∀ sections ∈ s.waiting, ∀ p ∈ s.parties, p.pc.calling = true →
    ∃ n ∈ sections, p.sec = some n
  holders : 0 < s.holders → ∀ p ∈ s.parties, p.pc.calling = false

namespace Held

theorem init (h : Init s) : Held s where
  depth := by simp [h.quiesceDepth, h.marked, h.waiting, h.holders]
  flag := by simp [h.quiesceDepth, h.quiesced]
  inSection := by simp [h.parties]
  waiting := by simp [h.parties]
  holders := by simp [h.parties]

/-- While the flag is clear nobody waits, and nobody has the queue quiesced. -/
theorem nobody (h : Held s) (h_flag : s.quiesced = false) : s.waiting = [] ∧ s.holders = 0 := by
  have h_depth := h.depth
  have h_pos := h.flag.not.mp (by simp [h_flag])
  refine ⟨List.length_eq_zero_iff.mp ?_, ?_⟩
  · omega
  · omega

/-- Parties come and go, and one that comes to call the driver is where another has been, or
finds the flag clear. -/
theorem parties (h : Held s) (h_control : s'.control = s.control)
    (h_parties : ∀ p' ∈ s'.parties, p'.pc.calling = true → p' ∈ s.parties ∨
      ∃ p ∈ s.parties, p'.sec = p.sec ∧ p.sec.isSome = true ∧
        (p.pc.calling = true ∨ s.quiesced = false)) : Held s' := by
  simp only [State.control, Prod.mk.injEq] at h_control
  obtain ⟨h_depth, h_quiesced, h_marked, h_waiting, h_holders⟩ := h_control
  refine ⟨?_, ?_, ?_, ?_, ?_⟩
  · rw [h_depth, h_marked, h_waiting, h_holders]
    exact h.depth
  · rw [h_quiesced, h_depth]
    exact h.flag
  · intro p' h_p' h_calling
    rcases h_parties p' h_p' h_calling with h_old | ⟨p, _, h_sec, h_some, _⟩
    · exact h.inSection p' h_old h_calling
    · exact h_sec ▸ h_some
  · intro sections h_sections p' h_p' h_calling
    rw [h_waiting] at h_sections
    rcases h_parties p' h_p' h_calling with h_old | ⟨p, h_p, h_sec, _, h_looked | h_flag⟩
    · exact h.waiting sections h_sections p' h_old h_calling
    · exact h_sec ▸ h.waiting sections h_sections p h_p h_looked
    · rw [(h.nobody h_flag).1] at h_sections
      cases h_sections
  · intro h_pos p' h_p'
    rw [h_holders] at h_pos
    by_contra h_calling
    rw [Bool.not_eq_false] at h_calling
    rcases h_parties p' h_p' h_calling with h_old | ⟨p, h_p, _, _, h_looked | h_flag⟩
    · rw [h.holders h_pos p' h_old] at h_calling
      cases h_calling
    · rw [h.holders h_pos p h_p] at h_looked
      cases h_looked
    · have h_none := (h.nobody h_flag).2
      omega

theorem spawn (h : Held s) {pc : Pc ι κ} (h_pc : pc.calling = false) : Held (s.spawn pc) := by
  refine h.parties rfl fun p' h_p' h_calling => ?_
  rcases mem_spawn.mp h_p' with rfl | h_old
  · rw [h_pc] at h_calling
    cases h_calling
  · exact Or.inl h_old

/-- A quiescer takes its mark back. -/
theorem unquiesce (q : RequestQueue ι κ) {m k : Nat} (h : Held s)
    (h_one : m + k + 1 = s.marked + s.holders) (h_holders : k ≤ s.holders) :
    Held (blkMqUnquiesceQueue q { s with marked := m, holders := k }) := by
  have h_depth := h.depth
  have h_pos : ¬s.quiesceDepth ≤ 0 := by omega
  have h_parties : ∀ p' ∈ s.parties, 0 < k → p'.pc.calling = false := fun p' h_p' h_k =>
    h.holders (by omega) p' h_p'
  rw [blkMqUnquiesceQueue, if_neg h_pos]
  by_cases h_zero : s.quiesceDepth - 1 = 0
  · -- the last one: nobody waits, and nobody holds
    rw [if_pos h_zero]
    have h_waiting : s.waiting = [] := List.length_eq_zero_iff.mp (by omega)
    refine ⟨?_, ?_, ?_, ?_, ?_⟩
    · show s.quiesceDepth - 1 = m + s.waiting.length + k
      omega
    · simp [State.spawn, h_zero]
    · intro p' h_p' h_calling
      rcases mem_spawn.mp h_p' with rfl | h_old
      · cases h_calling
      · exact h.inSection p' h_old h_calling
    · intro sections h_sections
      simp only [State.spawn, h_waiting] at h_sections
      cases h_sections
    · intro h_k
      simp only [State.spawn] at h_k
      omega
  · rw [if_neg h_zero]
    refine ⟨?_, ?_, h.inSection, h.waiting, fun h_k p' h_p' => h_parties p' h_p' h_k⟩
    · show s.quiesceDepth - 1 = m + s.waiting.length + k
      omega
    · have h_flag := h.flag.mpr (by omega)
      simp only [h_flag, true_iff]
      omega

theorem unquiesce_queueRq (q : RequestQueue ι κ) (s : State ι κ) :
    (blkMqUnquiesceQueue q s).queueRq = s.queueRq := by
  unfold blkMqUnquiesceQueue
  split
  · rfl
  · split
    · rfl
    · rfl

variable [DecidableEq ι]

theorem setHctx (h : Held s) (i : ι) (x : HwCtx) : Held (s.setHctx i x) :=
  h.parties rfl fun _ h_p' _ => Or.inl h_p'

variable [DecidableEq κ] {q : RequestQueue ι κ} {p : Party ι κ}

/-- A new section is none of those that anybody waits for. -/
theorem enter (h : Held s) (h_p : p ∈ s.parties) (h_sec : p.sec = none) : Held (enter s p) := by
  refine h.parties rfl fun p' h_p' h_calling => ?_
  rcases List.mem_cons.mp h_p' with rfl | h_old
  · have h_some := h.inSection p h_p h_calling
    rw [h_sec] at h_some
    cases h_some
  · exact Or.inl (List.mem_of_mem_erase h_old)

theorem advance (h : Held s) (h_p : p ∈ s.parties)
    (h_sec : p.pc.guarded = true → p.sec.isSome = true) (choice : Choice) :
    Held (advance q s p choice) := by
  refine h.parties (advance_control q s p choice) ?_
  intro p' h_p' h_calling
  rcases advance_parties q s p choice p' h_p' with h_old | h_idle | h_admitted
  · exact Or.inl h_old
  · rw [h_idle] at h_calling
    cases h_calling
  · exact Or.inr ⟨p, h_p, h_admitted.sec, h_sec h_admitted.guarded, h_admitted.looked⟩

theorem step {e : Event ι κ} (h : Held s)
    (h_step : Quiesce.step q s e = some s') : Held s' := by
  cases e with
  | quiesceNowait =>
      cases h_step
      have h_depth := h.depth
      refine ⟨?_, ?_, h.inSection, h.waiting, h.holders⟩
      · show s.quiesceDepth + 1 = ↑(s.marked + 1) + s.waiting.length + s.holders
        omega
      · by_cases h_flag : s.quiesced = true
        · have h_pos := h.flag.mp h_flag
          simp only [h_flag, Bool.true_or, true_iff]
          omega
        · have h_zero : s.quiesceDepth = 0 := by
            have h_not := h.flag.not.mp h_flag
            omega
          simp [h_zero]
  | waitStart =>
      obtain ⟨h_marked, h_eq⟩ := Option.ite_none_right_eq_some.mp h_step
      cases h_eq
      have h_depth := h.depth
      refine ⟨?_, h.flag, h.inSection, ?_, h.holders⟩
      · simp only [List.length_cons]
        omega
      · intro sections h_sections p' h_p' h_calling
        rcases List.mem_cons.mp h_sections with rfl | h_old
        · -- whoever calls the driver is in a section, and all sections are waited for
          obtain ⟨n, h_n⟩ := Option.isSome_iff_exists.mp (h.inSection p' h_p' h_calling)
          exact ⟨n, List.mem_filterMap.mpr ⟨p', h_p', h_n⟩, h_n⟩
        · exact h.waiting sections h_old p' h_p' h_calling
  | waitDone sections =>
      obtain ⟨⟨h_mem, h_over⟩, h_eq⟩ := Option.ite_none_right_eq_some.mp h_step
      cases h_eq
      have h_depth := h.depth
      have h_length := List.length_erase_add_one h_mem
      refine ⟨?_, h.flag, h.inSection, ?_, ?_⟩
      · show s.quiesceDepth = s.marked + (s.waiting.erase sections).length + ↑(s.holders + 1)
        omega
      · intro others h_others
        exact h.waiting others (List.mem_of_mem_erase h_others)
      · -- whoever calls the driver would be in one of the sections that are over
        intro _ p' h_p'
        by_contra h_calling
        rw [Bool.not_eq_false] at h_calling
        obtain ⟨n, h_n, h_sec⟩ := h.waiting sections h_mem p' h_p' h_calling
        exact h_over p' h_p' n h_sec h_n
  | unquiesce held =>
      cases held with
      | true | false =>
          obtain ⟨h_one, h_eq⟩ := Option.ite_none_right_eq_some.mp h_step
          cases h_eq
          exact h.unquiesce q (by omega) (by omega)
  | stop i =>
      cases h_step
      exact (h.setHctx i _).spawn rfl
  | start i =>
      cases h_step
      exact h.spawn rfl
  | startStopped i =>
      obtain ⟨_, h_eq⟩ := Option.ite_none_right_eq_some.mp h_step
      cases h_eq
      exact h.spawn rfl
  | call pc =>
      obtain ⟨h_entry, h_eq⟩ := Option.ite_none_right_eq_some.mp h_step
      cases h_eq
      refine h.spawn ?_
      cases pc <;> simp_all [Pc.entry, Pc.calling]
  | runWork i =>
      obtain ⟨_, h_eq⟩ := Option.ite_none_right_eq_some.mp h_step
      cases h_eq
      exact (h.setHctx i _).spawn rfl
  | turn p choice =>
      obtain ⟨h_p, h_turn⟩ := Option.ite_none_right_eq_some.mp h_step
      split at h_turn
      · rename_i h_enter
        cases h_turn
        exact h.enter h_p (by simp_all)
      · rename_i h_in
        cases h_turn
        refine h.advance h_p (fun h_guarded => ?_) choice
        simpa [h_guarded, Option.isSome_iff_ne_none] using h_in

theorem reach (h : Lts.Reach (Quiesce.step q) Lts.anyStep Init s) :
    Held s :=
  h.invariant (fun _ => init) fun _ _ _ h_held _ h_step => h_held.step h_step

/-- No step calls the driver while somebody has the queue quiesced. -/
theorem step_queueRq {e : Event ι κ} (h : Held s) (h_pos : 0 < s.holders)
    (h_step : Quiesce.step q s e = some s') : s'.queueRq = s.queueRq := by
  cases e with
  | turn p choice =>
      obtain ⟨h_p, h_turn⟩ := Option.ite_none_right_eq_some.mp h_step
      split at h_turn
      · cases h_turn
        rfl
      · cases h_turn
        exact advance_queueRq q s p choice (h.holders h_pos p h_p)
  | unquiesce held =>
      cases held with
      | true | false =>
          obtain ⟨_, h_eq⟩ := Option.ite_none_right_eq_some.mp h_step
          cases h_eq
          exact unquiesce_queueRq q _
  | quiesceNowait | stop i | start i =>
      cases h_step
      rfl
  | waitStart | waitDone sections | startStopped i | call pc | runWork i =>
      obtain ⟨_, h_eq⟩ := Option.ite_none_right_eq_some.mp h_step
      cases h_eq
      rfl

end Held

/-- The flag is set as long as anybody has asked for it, every unquiescing finds the depth
positive, and from when `blk_mq_quiesce_queue` has returned the driver is not called, whatever the
others do, until its caller unquiesces the queue. -/
theorem queueRq_frozen [DecidableEq ι] [DecidableEq κ] {q : RequestQueue ι κ}
    (h_reach : Lts.Reach (step q) Lts.anyStep Init s) :
    (s.quiesced = true ↔ 0 < s.marked + s.waiting.length + s.holders) ∧
      s.quiesceDepth = s.marked + s.waiting.length + s.holders ∧
      (Lts.Reach (step q) (fun t _ => 0 < t.holders) (· = s) s' → s'.queueRq = s.queueRq) := by
  have h_held := Held.reach h_reach
  have h_depth := h_held.depth
  refine ⟨?_, h_depth, fun h_run => ?_⟩
  · rw [h_held.flag]
    omega
  · have h_both : Held s' ∧ s'.queueRq = s.queueRq := by
      induction h_run with
      | init h_eq =>
          cases h_eq
          exact ⟨h_held, rfl⟩
      | step _ h_pos h_step ih =>
          exact ⟨ih.1.step h_step, (ih.1.step_queueRq h_pos h_step).trans ih.2⟩
    exact h_both.2

end Quiescers

/-! A quiescer waits for a submitter that has looked at the flag before it was set, and that calls
the driver meanwhile. -/

def twoHctxs : RequestQueue (Fin 2) (Fin 2) := ⟨[0, 1], [0, 1], true⟩

def idleState : State (Fin 2) (Fin 2) :=
  ⟨0, false, 0, [], 0, 0, fun _ => ⟨false, false⟩, fun _ _ => [], [], []⟩

theorem idleState_init : Init idleState :=
  ⟨rfl, rfl, rfl, rfl, rfl, fun _ => rfl, fun _ _ => rfl, rfl⟩

def fifth : Request (Fin 2) (Fin 2) := ⟨1, 0, 5⟩

def quiesceEvents : List (Event (Fin 2) (Fin 2)) :=
  [.call (.direct .single [fifth] []), .turn ⟨.direct .single [fifth] [], none⟩ .go,
    .turn ⟨.direct .single [fifth] [], some 0⟩ .go,
    .turn ⟨.directQuiesced .single fifth [] [], some 0⟩ .go, .quiesceNowait, .waitStart,
    .turn ⟨.issue .single fifth [] [], some 0⟩ .go, .turn ⟨.direct .single [] [], some 0⟩ .go,
    .waitDone [0]]

def quiescedState : State (Fin 2) (Fin 2) :=
  (Lts.run (step twoHctxs) idleState quiesceEvents).getD idleState

theorem quiescedState_reach : Lts.Reach (step twoHctxs) Lts.anyStep Init quiescedState := by
  have h_some : (Lts.run (step twoHctxs) idleState quiesceEvents).isSome = true := by
    decide +kernel
  obtain ⟨s', h_run⟩ := Option.isSome_iff_exists.mp h_some
  have h_eq : quiescedState = s' := by
    rw [quiescedState, h_run, Option.getD_some]
  exact h_eq ▸ (Lts.Reach.init idleState_init).run_anyStep h_run

theorem queueRq_frozen_waited :
    quiescedState.holders = 1 ∧ ∀ s', Lts.Reach (step twoHctxs) (fun t _ => 0 < t.holders)
      (· = quiescedState) s' → s'.queueRq = [5] := by
  refine ⟨by decide +kernel, fun s' h_run => ?_⟩
  have h_fifth : quiescedState.queueRq = [5] := by decide +kernel
  rw [← h_fifth]
  exact (queueRq_frozen quiescedState_reach).2.2 h_run

/-! ## Software queues -/

section SoftwareQueues

variable {ι κ : Type} {s s' : State ι κ}

/-- With blex no request is put on a software queue. -/
def NoCtx (s : State ι κ) : Prop := ∀ i cpu, s.pending i (.ctx cpu) = []

namespace NoCtx

theorem unquiesce_pending (q : RequestQueue ι κ) (s : State ι κ) :
    (blkMqUnquiesceQueue q s).pending = s.pending := by
  unfold blkMqUnquiesceQueue
  split
  · rfl
  · split
    · rfl
    · rfl

theorem unissued_ne_ctx {q : RequestQueue ι κ} (h_blex : q.blex = true) (how : Issue)
    (cpu cpu' : κ) : unissued q how cpu ≠ .ctx cpu' := by
  unfold unissued
  split
  · exact q.inserted_ne_ctx h_blex cpu cpu'
  · exact q.bypassInserted_ne_ctx h_blex cpu cpu'

theorem callDriver (h : NoCtx s) (id : Nat) : NoCtx (s.callDriver id) := h

variable [DecidableEq ι] [DecidableEq κ] {q : RequestQueue ι κ} {p : Party ι κ} {j : ι}
  {l : RqList κ}

theorem setPending (h : NoCtx s) {ids : List Nat} (h_ids : ∀ cpu, l = .ctx cpu → ids = []) :
    NoCtx (s.setPending j l ids) := by
  intro i cpu
  by_cases h_here : i = j ∧ .ctx cpu = l
  · simp [State.setPending, h_here, h_ids cpu h_here.2.symm]
  · simpa [State.setPending, h_here] using h i cpu

theorem addPending (h : NoCtx s) (h_l : ∀ cpu, l ≠ .ctx cpu) (ids : List Nat) :
    NoCtx (s.addPending j l ids) :=
  h.setPending fun cpu h_eq => absurd h_eq (h_l cpu)

theorem inserted (h_blex : q.blex = true) (h : NoCtx s) (i : ι) (cpu : κ) (ids : List Nat) :
    NoCtx (s.addPending i (q.inserted cpu) ids) :=
  h.addPending (q.inserted_ne_ctx h_blex cpu) ids

theorem dispatch (h : NoCtx s) (i : ι) (ids : List Nat) :
    NoCtx (s.addPending i .dispatch ids) :=
  h.addPending (by simp) ids

theorem dequeue (h : NoCtx s) {id : Nat} {ids : List Nat} (h_list : s.pending j l = id :: ids) :
    NoCtx (s.setPending j l ids) := by
  refine h.setPending fun cpu h_eq => ?_
  rw [h_eq, h j cpu] at h_list
  cases h_list

theorem issueBusy (h : NoCtx s) {how : Issue} {rq : Request ι κ}
    {rqs others : List (Request ι κ)} (h_l : ∀ cpu, l ≠ .ctx cpu) :
    NoCtx (Quiesce.issueBusy s p how l rq rqs others) := by
  unfold Quiesce.issueBusy
  split
  · exact h.addPending h_l _
  · exact h.addPending h_l _

theorem advance (h_blex : q.blex = true) (h : NoCtx s) (choice : Choice) :
    NoCtx (advance q s p choice) := by
  fun_cases Quiesce.advance q s p choice
  all_goals first
    | exact h
    | exact h.setPending fun _ _ => rfl
    | exact h.inserted h_blex _ _ _
    | exact h.dispatch _ _
    | exact h.dequeue (by assumption)
    | exact h.issueBusy (unissued_ne_ctx h_blex _ _)
    | exact (h.callDriver _).issueBusy (q.bypassInserted_ne_ctx h_blex _)

theorem step {e : Event ι κ} (h_blex : q.blex = true) (h : NoCtx s)
    (h_step : Quiesce.step q s e = some s') : NoCtx s' := by
  cases e with
  | quiesceNowait | stop i | start i =>
      cases h_step
      exact h
  | waitStart | waitDone sections | startStopped i | call pc | runWork i =>
      obtain ⟨_, h_eq⟩ := Option.ite_none_right_eq_some.mp h_step
      cases h_eq
      exact h
  | unquiesce held =>
      cases held with
      | true | false =>
          obtain ⟨_, h_eq⟩ := Option.ite_none_right_eq_some.mp h_step
          cases h_eq
          rw [NoCtx, unquiesce_pending]
          exact h
  | turn p choice =>
      obtain ⟨h_p, h_turn⟩ := Option.ite_none_right_eq_some.mp h_step
      split at h_turn
      · cases h_turn
        exact h
      · cases h_turn
        exact h.advance h_blex choice

end NoCtx

end SoftwareQueues

/-! ## Who runs a context -/

section Running

variable {ι κ : Type}

/-- Where the step puts a request that direct issue has been refused. -/
def Event.refusedTo (q : RequestQueue ι κ) : Event ι κ → Option (ι × RqList κ)
  | .turn ⟨.refused _ rq _ _, some _⟩ _ => some (rq.mqHctx, q.inserted rq.cpu)
  | _ => none

theorem Event.turn_of_refusedTo {q : RequestQueue ι κ} {e : Event ι κ} {i : ι} {k : RqList κ}
    (h : e.refusedTo q = some (i, k)) :
    ∃ how rq rqs others n choice,
      e = .turn ⟨.refused how rq rqs others, some n⟩ choice ∧
        rq.mqHctx = i ∧ q.inserted rq.cpu = k := by
  match e, h with
  | .turn ⟨.refused how rq rqs others, some n⟩ choice, h_eq =>
      refine ⟨how, rq, rqs, others, n, choice, rfl, ?_⟩
      simpa [Event.refusedTo] using h_eq

variable [DecidableEq ι] [DecidableEq κ]

/-- Is to run the context, or to look whether it can be run, with the list still before it. -/
def Pc.serves (i : ι) (k : RqList κ) : Pc ι κ → Bool
  | insertRequests j _ _ _ => j = i
  | runAll todo => i ∈ todo
  | needRun j | delayRun j | work j | schedStopped j | schedQuiesced j => j = i
  | hasPending j todo | take _ j todo _ => j = i ∧ k ∈ todo
  | needsRestart j | stopping j | starting j => j = i
  | _ => false

/-- Somebody is to come to the list. -/
def Busy (s : State ι κ) (i : ι) (k : RqList κ) : Prop :=
  (s.hctx i).runWork = true ∨ ∃ p ∈ s.parties, p.pc.serves i k

/-- If a list of an open context has requests, somebody is to come to it. -/
def Served (s : State ι κ) (i : ι) (k : RqList κ) : Prop :=
  s.isOpen i = true → s.pending i k ≠ [] → Busy s i k

/-- A request is refused, but by the time it is inserted the context has been opened, and whoever
has opened it has come and gone. -/
def Forgets (q : RequestQueue ι κ) (s : State ι κ) (e : Event ι κ) (i : ι) (k : RqList κ) : Prop :=
  e.refusedTo q = some (i, k) ∧ s.isOpen i = true ∧ ¬Busy s i k

instance (s : State ι κ) (i : ι) (k : RqList κ) : Decidable (Busy s i k) :=
  inferInstanceAs (Decidable ((s.hctx i).runWork = true ∨ ∃ p ∈ s.parties, p.pc.serves i k = true))

instance (q : RequestQueue ι κ) (s : State ι κ) (e : Event ι κ) :
    Decidable (∀ i k, ¬Forgets q s e i k) :=
  decidable_of_iff (∀ x ∈ e.refusedTo q, ¬(s.isOpen x.1 = true ∧ ¬Busy s x.1 x.2))
    ⟨fun h i k h_forgets => h (i, k) h_forgets.1 h_forgets.2,
      fun h x h_x h_open => h x.1 x.2 ⟨h_x, h_open⟩⟩

variable {q : RequestQueue ι κ} {s s' : State ι κ} {i j : ι} {k l : RqList κ} {p : Party ι κ}
  {pc : Pc ι κ}

theorem Busy.spawn (h : Busy s i k) (pc : Pc ι κ) : Busy (s.spawn pc) i k :=
  h.imp_right fun ⟨p, h_p, h_serves⟩ => ⟨p, List.mem_cons_of_mem _ h_p, h_serves⟩

namespace Served

theorem of_busy (h : Busy s i k) : Served s i k := fun _ _ => h

theorem of_closed (h : s.isOpen i = false) : Served s i k := by
  intro h_open
  rw [h] at h_open
  cases h_open

theorem of_empty (h : s.pending i k = []) : Served s i k := fun _ h_ne => absurd h h_ne

theorem of_spawn (h : pc.serves i k) : Served (s.spawn pc) i k :=
  of_busy (Or.inr ⟨⟨pc, none⟩, List.mem_cons_self, h⟩)

theorem of_out (h : pc.serves i k) : Served (s.out p pc) i k :=
  of_busy (Or.inr ⟨⟨pc, none⟩, List.mem_cons_self, h⟩)

theorem of_goto (h : pc.serves i k) : Served (s.goto p pc) i k :=
  of_busy (Or.inr ⟨⟨pc, p.sec⟩, List.mem_cons_self, h⟩)

theorem callDriver (h : Served s i k) (id : Nat) : Served (s.callDriver id) i k := h

theorem spawn (h : Served s i k) (pc : Pc ι κ) : Served (s.spawn pc) i k := fun h_open h_ne =>
  (h h_open h_ne).spawn pc

/-- What matters is the gate, the list, and the parties that serve it. -/
theorem congr (h : Served s i k) (h_open : s'.isOpen i = s.isOpen i)
    (h_pending : s'.pending i k ≠ [] → s.pending i k ≠ []) (h_work : s'.hctx i = s.hctx i)
    (h_parties : ∀ p' ∈ s.parties, p'.pc.serves i k → Busy s' i k) : Served s' i k := by
  intro h_open' h_ne
  rcases h (h_open ▸ h_open') (h_pending h_ne) with h_run | ⟨p', h_p', h_serves⟩
  · exact Or.inl (h_work ▸ h_run)
  · exact h_parties p' h_p' h_serves

theorem setHctx_ne (h : Served s i k) (h_ne : j ≠ i) (x : HwCtx) : Served (s.setHctx j x) i k := by
  have h_hctx : (s.setHctx j x).hctx i = s.hctx i := by
    simp [State.setHctx, Function.update_of_ne h_ne.symm]
  refine h.congr ?_ id h_hctx fun p' h_p' h_serves => Or.inr ⟨p', h_p', h_serves⟩
  rw [State.isOpen, h_hctx]
  rfl

/-- A list is taken, or part of it. -/
theorem setPending (h : Served s i k) {ids : List Nat} (h_ids : ids ≠ [] → s.pending j l ≠ []) :
    Served (s.setPending j l ids) i k := by
  refine h.congr rfl (fun h_ne => ?_) rfl fun p' h_p' h_serves => Or.inr ⟨p', h_p', h_serves⟩
  by_cases h_eq : i = j ∧ k = l
  · obtain ⟨rfl, rfl⟩ := h_eq
    exact h_ids (by simpa [State.setPending] using h_ne)
  · simpa [State.setPending, h_eq] using h_ne

/-- Requests are added to another list. -/
theorem addPending_of_ne (h : Served s i k) (h_ne : ¬(j = i ∧ l = k)) (ids : List Nat) :
    Served (s.addPending j l ids) i k := by
  refine h.congr rfl (fun h_pending => ?_) rfl fun p' h_p' h_serves => Or.inr ⟨p', h_p', h_serves⟩
  have h_ne' : ¬(i = j ∧ k = l) := fun h_eq => h_ne ⟨h_eq.1.symm, h_eq.2.symm⟩
  simpa [State.addPending, State.setPending, h_ne'] using h_pending

/-- A party leaves that does not serve the list. -/
theorem leave (h : Served s i k) (h_p : ¬p.pc.serves i k) : Served (s.leave p) i k :=
  h.congr rfl id rfl fun p' h_p' h_serves =>
    have h_ne : p' ≠ p := fun h_eq => h_p (h_eq ▸ h_serves)
    Or.inr ⟨p', (List.mem_erase_of_ne h_ne).mpr h_p', h_serves⟩

/-- A party goes on, and serves the list if it has served it. -/
theorem move (h : Served s i k) (sec : Option Nat) (h_pc : p.pc.serves i k → pc.serves i k) :
    Served { s with parties := Parties.move s.parties p ⟨pc, sec⟩ } i k := by
  refine h.congr rfl id rfl fun p' h_p' h_serves => ?_
  by_cases h_eq : p' = p
  · exact Or.inr ⟨⟨pc, sec⟩, List.mem_cons_self, h_pc (h_eq ▸ h_serves)⟩
  · exact Or.inr ⟨p', List.mem_cons_of_mem _ ((List.mem_erase_of_ne h_eq).mpr h_p'), h_serves⟩

theorem goto (h : Served s i k) (h_pc : p.pc.serves i k → pc.serves i k) :
    Served (s.goto p pc) i k :=
  h.move p.sec h_pc

theorem out (h : Served s i k) (h_pc : p.pc.serves i k → pc.serves i k) :
    Served (s.out p pc) i k :=
  h.move none h_pc

/-- A party leaves that has found the context stopped. -/
theorem leave_stopped (h : Served s i k) (h_stopped : (s.hctx j).stopped = true)
    (h_p : p.pc.serves i k → j = i) : Served (s.leave p) i k := by
  by_cases h_ji : j = i
  · refine of_closed ?_
    rw [h_ji] at h_stopped
    simp [State.isOpen, State.leave, h_stopped]
  · exact h.leave fun h_serves => h_ji (h_p h_serves)

/-- Requests are added to a list of a context by a party that is to run it. -/
theorem addPending_out (h : Served s i k) (ids : List Nat) (h_p : p.pc.serves i k → j = i)
    (h_pc : j = i → pc.serves i k) : Served ((s.addPending j l ids).out p pc) i k := by
  by_cases h_ji : j = i
  · exact of_out (h_pc h_ji)
  · exact (h.addPending_of_ne (fun h_eq => h_ji h_eq.1) ids).out
      fun h_serves => absurd (h_p h_serves) h_ji

/-- Requests are inserted, and the context is run. -/
theorem addPending_spawn (h : Served s i k) (ids : List Nat) (h_p : p.pc.serves i k → j = i) :
    Served (((s.addPending j l ids).out p pc).spawn (.needRun j)) i k := by
  by_cases h_ji : j = i
  · exact of_spawn (by simp [Pc.serves, h_ji])
  · have h_out : Served ((s.addPending j l ids).out p pc) i k :=
      (h.addPending_of_ne (fun h_eq => h_ji h_eq.1) ids).out
        fun h_serves => absurd (h_p h_serves) h_ji
    exact h_out.spawn _

theorem issueBusy (h : Served s i k) (h_p : ¬p.pc.serves i k) {how : Issue} {rq : Request ι κ}
    {rqs others : List (Request ι κ)} :
    Served (Quiesce.issueBusy s p how l rq rqs others) i k := by
  unfold Quiesce.issueBusy
  split
  · exact h.addPending_out _ (fun h_serves => absurd h_serves h_p) (by simp [Pc.serves])
  · exact h.addPending_spawn _ (fun h_serves => absurd h_serves h_p)

end Served

theorem busy_goto (h_p : ¬p.pc.serves i k) (h_pc : ¬pc.serves i k) :
    Busy (s.goto p pc) i k ↔ Busy s i k := by
  refine or_congr_right ⟨fun ⟨p', h_p', h_serves⟩ => ?_, fun ⟨p', h_p', h_serves⟩ => ?_⟩
  · rcases mem_goto h_p' with rfl | h_old
    · exact absurd h_serves h_pc
    · exact ⟨p', h_old, h_serves⟩
  · have h_ne : p' ≠ p := fun h_eq => h_p (h_eq ▸ h_serves)
    exact ⟨p', List.mem_cons_of_mem _ ((List.mem_erase_of_ne h_ne).mpr h_p'), h_serves⟩

/-- What a party does leaves a list served, unless it forgets a request there. -/
theorem advance_served {choice : Choice} (h_k : k ∈ q.dispatchLists) (h : Served s i k)
    (h_not : ∀ how rq rqs others, p.pc = .refused how rq rqs others → rq.mqHctx = i →
      q.inserted rq.cpu = k → s.isOpen i = true → Busy s i k) :
    Served (advance q s p choice) i k := by
  cases h_pc : p.pc with
  | insert rqs =>
      match rqs with
      | [] =>
          simp only [advance, h_pc]
          exact h.leave (by simp [h_pc, Pc.serves])
      | rq :: rqs =>
          simp only [advance, h_pc]
          split
          · exact h.out (by simp [h_pc, Pc.serves])
          · exact h.out (by simp [h_pc, Pc.serves])
  | insertRequests j cpu ids rest =>
      simp only [advance, h_pc]
      exact h.addPending_spawn ids (by simp [h_pc, Pc.serves])
  | runAll todo =>
      match todo with
      | [] =>
          simp only [advance, h_pc]
          exact h.leave (by simp [h_pc, Pc.serves])
      | j :: todo =>
          simp only [advance, h_pc]
          by_cases h_ji : j = i
          · split
            · -- whoever starts a stopped context runs it
              rename_i h_stopped
              refine Served.of_closed ?_
              simp [State.isOpen, State.out, h_ji ▸ h_stopped]
            · exact Served.of_spawn (by simp [Pc.serves, h_ji])
          · have h_out : Served (s.out p (.runAll todo)) i k := h.out fun h_serves => by
              simpa [h_pc, Pc.serves, Ne.symm h_ji] using h_serves
            split
            · exact h_out
            · exact h_out.spawn _
  | delayRunAll todo =>
      match todo with
      | [] =>
          simp only [advance, h_pc]
          exact h.leave (by simp [h_pc, Pc.serves])
      | j :: todo =>
          simp only [advance, h_pc]
          split
          · exact h.out (by simp [h_pc, Pc.serves])
          · by_cases h_ji : j = i
            · refine Served.of_busy (Or.inl ?_)
              simp [State.out, State.setHctx, h_ji]
            · exact (h.setHctx_ne h_ji _).out (by simp [h_pc, Pc.serves])
  | needRun j =>
      simp only [advance, h_pc]
      split
      · -- whoever takes the mark back runs all contexts
        rename_i h_flag
        refine Served.of_closed ?_
        simp [State.isOpen, State.leave, h_flag]
      · refine h.goto fun h_serves => ?_
        have h_ji : j = i := by simpa [h_pc, Pc.serves] using h_serves
        simp [Pc.serves, h_ji, RequestQueue.pendingLists, h_k]
  | hasPending j todo =>
      match todo with
      | [] =>
          simp only [advance, h_pc]
          exact h.leave (by simp [h_pc, Pc.serves])
      | l :: todo =>
          simp only [advance, h_pc]
          split
          · rename_i h_empty
            by_cases h_here : j = i ∧ l = k
            · obtain ⟨rfl, rfl⟩ := h_here
              exact Served.of_empty (by simpa [State.goto] using h_empty)
            · refine h.goto fun h_serves => ?_
              simp only [h_pc, Pc.serves, decide_eq_true_eq, List.mem_cons] at h_serves ⊢
              exact ⟨h_serves.1, h_serves.2.resolve_left fun h_eq =>
                h_here ⟨h_serves.1, h_eq.symm⟩⟩
          · exact h.out (by simp +contextual [h_pc, Pc.serves])
  | delayRun j =>
      simp only [advance, h_pc]
      split
      · rename_i h_stopped
        exact h.leave_stopped h_stopped (by simp [h_pc, Pc.serves])
      · split
        · by_cases h_ji : j = i
          · refine Served.of_busy (Or.inl ?_)
            simp [State.leave, State.setHctx, h_ji]
          · exact (h.setHctx_ne h_ji _).leave (by simp [h_pc, Pc.serves, h_ji])
        · exact h.out (by simp [h_pc, Pc.serves])
  | work j =>
      simp only [advance, h_pc]
      split
      · rename_i h_stopped
        exact h.leave_stopped h_stopped (by simp [h_pc, Pc.serves])
      · exact h.out (by simp [h_pc, Pc.serves])
  | schedStopped j =>
      simp only [advance, h_pc]
      split
      · rename_i h_stopped
        exact h.leave_stopped h_stopped (by simp [h_pc, Pc.serves])
      · exact h.goto (by simp [h_pc, Pc.serves])
  | schedQuiesced j =>
      simp only [advance, h_pc]
      split
      · rename_i h_flag
        refine Served.of_closed ?_
        simp [State.isOpen, State.leave, h_flag]
      · exact h.goto (by simp +contextual [h_pc, Pc.serves, h_k])
  | take again j todo rqs =>
      match todo, rqs with
      | l :: todo, rqs =>
          simp only [advance, h_pc]
          by_cases h_here : j = i ∧ l = k
          · -- it will not come back to the list, which for now is empty
            obtain ⟨rfl, rfl⟩ := h_here
            exact Served.of_empty (by simp [State.goto, State.setPending])
          · refine (h.setPending (by simp)).goto fun h_serves => ?_
            simp only [h_pc, Pc.serves, decide_eq_true_eq, List.mem_cons] at h_serves ⊢
            exact ⟨h_serves.1, h_serves.2.resolve_left fun h_eq =>
              h_here ⟨h_serves.1, h_eq.symm⟩⟩
      | [], [] =>
          simp only [advance, h_pc]
          split
          · exact h.goto (by simp [h_pc, Pc.serves])
          · exact h.goto (by simp [h_pc, Pc.serves])
      | [], id :: rqs =>
          simp only [advance, h_pc]
          exact h.goto (by simp [h_pc, Pc.serves])
  | flushBusyCtxs j todo rqs =>
      match todo with
      | l :: todo =>
          simp only [advance, h_pc]
          exact (h.setPending (by simp)).goto (by simp [h_pc, Pc.serves])
      | [] =>
          simp only [advance, h_pc]
          exact h.goto (by simp [h_pc, Pc.serves])
  | dispatch more j rqs =>
      match more, rqs with
      | none, [] =>
          simp only [advance, h_pc]
          exact h.leave (by simp [h_pc, Pc.serves])
      | some again, [] =>
          simp only [advance, h_pc]
          exact h.goto (by simp [h_pc, Pc.serves])
      | more, id :: rqs =>
          simp only [advance, h_pc]
          split
          · -- whoever puts requests back runs the context
            exact h.addPending_out _ (by simp [h_pc, Pc.serves]) (by simp [Pc.serves])
          · exact (h.callDriver id).addPending_out _ (by simp [h_pc, Pc.serves])
              (by simp [Pc.serves])
          · exact (h.callDriver id).goto (by simp [h_pc, Pc.serves])
  | doDispatchCtx again j =>
      simp only [advance, h_pc]
      split
      · exact h.goto (by simp [h_pc, Pc.serves])
      · split
        · exact h.out (by simp [h_pc, Pc.serves])
        · exact h.goto (by simp [h_pc, Pc.serves])
  | dequeue again j todo =>
      match todo with
      | [] =>
          simp only [advance, h_pc]
          split
          · exact h.out (by simp [h_pc, Pc.serves])
          · exact h.leave (by simp [h_pc, Pc.serves])
      | l :: todo =>
          simp only [advance, h_pc]
          split
          · exact h.leave (by simp [h_pc, Pc.serves])
          · split
            · exact h.goto (by simp [h_pc, Pc.serves])
            · rename_i h_list
              exact (h.setPending (by simp [h_list])).goto (by simp [h_pc, Pc.serves])
  | needsRestart j =>
      simp only [advance, h_pc]
      split
      · exact h.out (by simp [h_pc, Pc.serves])
      · exact h.out (by simp [h_pc, Pc.serves])
  | stopping j =>
      simp only [advance, h_pc]
      by_cases h_ji : j = i
      · refine Served.of_closed ?_
        simp [State.isOpen, State.leave, State.setHctx, h_ji]
      · exact (h.setHctx_ne h_ji _).leave (by simp [h_pc, Pc.serves, h_ji])
  | starting j =>
      simp only [advance, h_pc]
      by_cases h_ji : j = i
      · exact Served.of_out (by simp [Pc.serves, h_ji])
      · exact (h.setHctx_ne h_ji _).out (by simp [h_pc, Pc.serves])
  | flushPlug rqs =>
      simp only [advance, h_pc]
      split
      · exact h.out (by simp [h_pc, Pc.serves])
      · exact h.goto (by simp [h_pc, Pc.serves])
  | queueRqs rqs left =>
      match rqs with
      | [] =>
          simp only [advance, h_pc]
          exact h.out (by simp [h_pc, Pc.serves])
      | rq :: rqs =>
          simp only [advance, h_pc]
          split
          · exact h.goto (by simp [h_pc, Pc.serves])
          · exact (h.callDriver rq.id).goto (by simp [h_pc, Pc.serves])
  | direct how rqs others =>
      match rqs with
      | [] =>
          simp only [advance, h_pc]
          exact h.out (by simp [h_pc, Pc.serves])
      | rq :: rqs =>
          simp only [advance, h_pc]
          split
          · exact h.goto (by simp [h_pc, Pc.serves])
          · exact h.goto (by simp [h_pc, Pc.serves])
  | directQuiesced how rq rqs others =>
      simp only [advance, h_pc]
      split
      · exact h.goto (by simp [h_pc, Pc.serves])
      · exact h.goto (by simp [h_pc, Pc.serves])
  | refused how rq rqs others =>
      simp only [advance, h_pc]
      by_cases h_here : rq.mqHctx = i ∧ q.inserted rq.cpu = k
      · -- nobody is told of the request
        cases h_open : s.isOpen i with
        | false => exact Served.of_closed h_open
        | true =>
            refine Served.of_busy ?_
            rw [busy_goto (by simp [h_pc, Pc.serves]) (by simp [Pc.serves])]
            exact h_not how rq rqs others h_pc h_here.1 h_here.2 h_open
      · exact (h.addPending_of_ne h_here _).goto (by simp [h_pc, Pc.serves])
  | issue how rq rqs others =>
      simp only [advance, h_pc]
      split
      · exact h.issueBusy (by simp [h_pc, Pc.serves])
      · exact (h.callDriver rq.id).issueBusy (by simp [h_pc, Pc.serves])
      · exact (h.callDriver rq.id).goto (by simp [h_pc, Pc.serves])

section Step

variable {e : Event ι κ}

theorem unquiesce_served (h_all : i ∈ q.hctxs) (h : Served s i k) :
    Served (blkMqUnquiesceQueue q s) i k := by
  unfold blkMqUnquiesceQueue
  split
  · exact h
  · split
    · exact Served.of_spawn (by simp [Pc.serves, h_all])
    · exact h

/-- A step that forgets nothing leaves every list served. -/
theorem step_served (h_all : i ∈ q.hctxs) (h_k : k ∈ q.dispatchLists) (h : Served s i k)
    (h_step : step q s e = some s') (h_not : ¬Forgets q s e i k) : Served s' i k := by
  cases e with
  | quiesceNowait =>
      -- contexts are closed by it, and none is opened
      cases h_step
      intro h_open
      refine h ?_
      simp only [State.isOpen, Bool.and_eq_true, Bool.not_eq_true',
        Bool.or_eq_false_iff] at h_open ⊢
      exact ⟨h_open.1, h_open.2.1⟩
  | waitStart | waitDone sections =>
      obtain ⟨_, h_eq⟩ := Option.ite_none_right_eq_some.mp h_step
      cases h_eq
      exact h
  | unquiesce held =>
      cases held with
      | true | false =>
          obtain ⟨_, h_eq⟩ := Option.ite_none_right_eq_some.mp h_step
          cases h_eq
          exact unquiesce_served h_all h
  | stop j =>
      cases h_step
      by_cases h_ji : j = i
      · exact Served.of_spawn (by simp [Pc.serves, h_ji])
      · exact (h.setHctx_ne h_ji _).spawn _
  | start j =>
      cases h_step
      exact h.spawn _
  | startStopped j | call pc =>
      obtain ⟨_, h_eq⟩ := Option.ite_none_right_eq_some.mp h_step
      cases h_eq
      exact h.spawn _
  | runWork j =>
      obtain ⟨_, h_eq⟩ := Option.ite_none_right_eq_some.mp h_step
      cases h_eq
      by_cases h_ji : j = i
      · exact Served.of_spawn (by simp [Pc.serves, h_ji])
      · exact (h.setHctx_ne h_ji _).spawn _
  | turn p choice =>
      obtain ⟨h_p, h_turn⟩ := Option.ite_none_right_eq_some.mp h_step
      split at h_turn
      · -- it enters a section, and stays where it is
        cases h_turn
        exact h.move _ id
      · rename_i h_in
        cases h_turn
        refine advance_served h_k h fun how rq rqs others h_pc h_i h_list h_open => ?_
        by_contra h_busy
        refine h_not ⟨?_, h_open, h_busy⟩
        obtain ⟨pc, sec⟩ := p
        cases h_pc
        cases sec with
        | none => exact absurd rfl h_in
        | some n => simp [Event.refusedTo, h_i, h_list]

/-- One that forgets a request does not. -/
theorem Forgets.not_served (h : Forgets q s e i k) (h_step : step q s e = some s') :
    ¬Served s' i k := by
  obtain ⟨h_to, h_open, h_busy⟩ := h
  obtain ⟨how, rq, rqs, others, n, choice, rfl, rfl, rfl⟩ :=
    Event.turn_of_refusedTo h_to
  obtain ⟨_, h_turn⟩ := Option.ite_none_right_eq_some.mp h_step
  cases h_turn
  intro h_served
  refine h_busy ((busy_goto ?_ ?_).mp (h_served h_open ?_))
  · simp [Pc.serves]
  · simp [Pc.serves]
  · simp [advance, State.goto, State.addPending, State.setPending]

end Step

def looksEmpty (i : Fin 2) (sec : Nat) : List (Event (Fin 2) (Fin 2)) :=
  [.turn ⟨.needRun i, none⟩ .go, .turn ⟨.needRun i, some sec⟩ .go,
    .turn ⟨.hasPending i [.dispatch, .vnq 0, .vnq 1, .ctx 0, .ctx 1], some sec⟩ .go,
    .turn ⟨.hasPending i [.vnq 0, .vnq 1, .ctx 0, .ctx 1], some sec⟩ .go,
    .turn ⟨.hasPending i [.vnq 1, .ctx 0, .ctx 1], some sec⟩ .go,
    .turn ⟨.hasPending i [.ctx 0, .ctx 1], some sec⟩ .go,
    .turn ⟨.hasPending i [.ctx 1], some sec⟩ .go, .turn ⟨.hasPending i [], some sec⟩ .go]

def refusedEvents : List (Event (Fin 2) (Fin 2)) :=
  [.call (.direct .single [fifth] []), .turn ⟨.direct .single [fifth] [], none⟩ .go, .quiesceNowait,
    .turn ⟨.direct .single [fifth] [], some 0⟩ .go,
    .turn ⟨.directQuiesced .single fifth [] [], some 0⟩ .go, .unquiesce false,
    .turn ⟨.runAll [0, 1], none⟩ .go, .turn ⟨.runAll [1], none⟩ .go,
    .turn ⟨.runAll [], none⟩ .go] ++ looksEmpty 0 1 ++ looksEmpty 1 2

def refusedState : State (Fin 2) (Fin 2) :=
  (Lts.run (Lts.guarded (step twoHctxs) fun s e => ∀ i k, ¬Forgets twoHctxs s e i k) idleState
    refusedEvents).getD idleState

theorem refusedState_reach :
    Lts.Reach (step twoHctxs) (fun s e => ∀ i k, ¬Forgets twoHctxs s e i k) Init refusedState := by
  have h_some : (Lts.run (Lts.guarded (step twoHctxs) fun s e => ∀ i k, ¬Forgets twoHctxs s e i k)
      idleState refusedEvents).isSome = true := by
    decide +kernel
  obtain ⟨s', h_run⟩ := Option.isSome_iff_exists.mp h_some
  have h_eq : refusedState = s' := by
    rw [refusedState, h_run, Option.getD_some]
  exact h_eq ▸ (Lts.Reach.init idleState_init).run_guarded h_run

end Running

end Daredevil.Quiesce
