/-
  Daredevil.Block.Plug

  From the plug to the driver (`block/blk-mq.c`): `blk_mq_flush_plug_list` and what it
  calls.  A request can pass through

    * `nvme_queue_rqs` (`drivers/nvme/host/pci.c`), the driver's batch;
    * `blk_mq_plug_issue_direct`, one by one until the driver is busy;
    * `blk_mq_dispatch_plug_list`, the requests of the first one's hctx and ctx, the
      others being requeued for the next turn;
    * `blk_mq_insert_requests`, the list of a vNQ.

  Requests that the driver is too busy for are staged, and the queue run that may
  follow is a round of `Block.Dispatch`.  What the environment does (the driver's
  answers, stopped and quiesced queues) is a sequence of turns of any content.

  `flush_conserves` says that a flush returns, with an empty plug, and that each
  request is then in one place that belongs to its own hctx and CPU.
-/
import Daredevil.Block.Dispatch
import Daredevil.Lib.Ledger
import Daredevil.Lib.Returns
import Mathlib.Data.Prod.Basic

namespace Daredevil.Plug

open Vnq (Request Hctx)
open Dispatch (BlkStatus Answer Progress blkMqSchedDispatchRequests)

/-! ## State -/

/-- `struct blk_mq_ctx`, which each request queue has for each CPU. -/
structure Ctx where
  queue : Nat
  cpu : Nat
  deriving DecidableEq, Repr

/-- What one turn meets. -/
structure Turn where
  /-- the hctx is stopped or the queue quiesced -/
  blocked : Bool
  /-- result of `nvme_prep_rq_batch` -/
  prepRqBatch : Bool
  /-- budget, driver tag and `queue_rq` -/
  answer : Answer
  /-- the CPU is in `hctx->cpumask` and `BLK_MQ_F_BLOCKING` is not set -/
  runsHere : Bool
  /-- the answers to a queue run -/
  round : Nat → Answer

structure Env where
  nrCpuIds : Nat
  /-- `rq->mq_hctx` -/
  mqHctx : Request → Nat
  /-- `hctx->queue` -/
  queue : Nat → Nat
  /-- `BLK_MQ_F_TAG_QUEUE_SHARED` of `hctx->flags` -/
  tagQueueShared : Nat → Bool
  /-- `RQF_FLUSH_SEQ` -/
  rqfFlushSeq : Request → Bool
  /-- `RQF_ELV` -/
  rqfElv : Request → Bool
  /-- `blk_rq_is_passthrough` -/
  passthrough : Request → Bool
  /-- merging is on, and the request has at least `BLK_PLUG_FLUSH_SIZE` bytes -/
  flushSize : Request → Bool
  /-- `BLK_MAX_REQUEST_COUNT` -/
  blkMaxRequestCount : Nat
  turns : Nat → Turn

/-- `rq->mq_ctx` -/
def Env.mqCtx (env : Env) (rq : Request) : Ctx := ⟨env.queue (env.mqHctx rq), rq.mqCtxCpu⟩

structure State where
  turn : Nat
  hctxs : Nat → Hctx
  /-- requests that the driver has accepted, with the hctx they were handed over for -/
  accepted : List (Nat × Request)
  /-- requests that were ended with an error -/
  ended : List Request

/-- `struct blk_plug` -/
structure BlkPlug where
  mqList : List Request
  rqCount : Nat
  multipleQueues : Bool
  hasElevator : Bool
  deriving DecidableEq, Repr

/-! ## Staging and issuing one request -/

variable (env : Env)

namespace State

variable (s : State) (hctx : Nat) (rq : Request)

def now : Turn := env.turns s.turn

def tick : State := { s with turn := s.turn + 1 }

def setHctx (h : Hctx) : State := { s with hctxs := Function.update s.hctxs hctx h }

/-- `queue_rq` or `nvme_submit_cmds` -/
def accept (rqs : List Request) : State :=
  { s with accepted := s.accepted ++ rqs.map (hctx, ·) }

/-- `blk_mq_end_request` -/
def blkMqEndRequest : State := { s with ended := s.ended ++ [rq] }

/-- `blk_blex_stage_request` -/
def blkBlexStageRequest (atHead : Bool) : State :=
  s.setHctx hctx (((s.hctxs hctx).blkBlexMarkAllowedCpu rq.mqCtxCpu).stageAdd ⟨rq, atHead⟩)

/-- `blk_mq_sched_dispatch_requests` -/
def dispatchRequests (answers : Nat → Answer) : State :=
  let (h, p) := blkMqSchedDispatchRequests answers env.nrCpuIds (s.hctxs hctx)
  let s := (s.setHctx hctx h).accept hctx p.accepted
  { s with ended := s.ended ++ p.ended }

end State

/-- `blk_mq_run_hw_queue`; what is not run here is left to `kblockd`. -/
def blkMqRunHwQueue (s : State) (hctx : Nat) (async : Bool) : State :=
  let t := s.now env
  let s := s.tick
  if t.blocked = false ∧ Vnq.blkMqHctxHasPending env.nrCpuIds (s.hctxs hctx) = true ∧
      async = false ∧ t.runsHere = true then
    s.dispatchRequests env hctx t.round
  else s

/-- `blk_mq_request_bypass_insert`, the blex branch -/
def blkMqRequestBypassInsert (s : State) (rq : Request) (atHead runQueue : Bool) : State :=
  let s := s.blkBlexStageRequest (env.mqHctx rq) rq atHead
  if runQueue then blkMqRunHwQueue env s (env.mqHctx rq) false else s

/-- `blk_mq_sched_insert_request`, the blex branch -/
def blkMqSchedInsertRequest (s : State) (rq : Request) (atHead runQueue async : Bool) : State :=
  let s :=
    if env.rqfFlushSeq rq || env.passthrough rq then
      blkMqRequestBypassInsert env s rq (env.rqfFlushSeq rq || atHead) false
    else s.blkBlexStageRequest (env.mqHctx rq) rq atHead
  if runQueue then blkMqRunHwQueue env s (env.mqHctx rq) async else s

/-- `__blk_mq_issue_directly`, for a request that has its budget and its tag -/
def issueDirectly (s : State) (hctx : Nat) (rq : Request) (status : BlkStatus) :
    BlkStatus × State :=
  match status with
  | .ok => (.ok, s.accept hctx [rq])
  | status => (status, s)

/-- `__blk_mq_try_issue_directly` -/
def tryIssueDirectly (s : State) (hctx : Nat) (rq : Request) (bypassInsert : Bool) :
    BlkStatus × State :=
  let t := s.now env
  let s := s.tick
  if t.blocked then (.ok, blkMqSchedInsertRequest env s rq false false false)
  else if env.rqfElv rq && !bypassInsert then
    (.ok, blkMqSchedInsertRequest env s rq false true false)
  else
    match t.answer.prep with
    | .noBudget | .noTag =>
        if bypassInsert then (.resource, s)
        else (.ok, blkMqSchedInsertRequest env s rq false true false)
    | .ok => issueDirectly s hctx rq t.answer.status

/-- `blk_mq_try_issue_directly` -/
def blkMqTryIssueDirectly (s : State) (hctx : Nat) (rq : Request) : State :=
  let r := tryIssueDirectly env s hctx rq false
  match r.1 with
  | .ok => r.2
  | .resource | .devResource => blkMqRequestBypassInsert env r.2 rq false true
  | .zoneResource | .error => r.2.blkMqEndRequest rq

/-- `blk_mq_request_issue_directly` -/
def blkMqRequestIssueDirectly (s : State) (rq : Request) : BlkStatus × State :=
  tryIssueDirectly env s (env.mqHctx rq) rq true

/-! ## Flushing the plug -/

/-- Issue the requests of a list until the driver is busy; what is left of the list then stays.
`runQueue`: whether to run the queue, for what is left. -/
def issueLoop (runQueue : List Request → Bool) : List Request → State → List Request × State
  | [], s => ([], s)
  | rq :: list, s =>
      let r := blkMqRequestIssueDirectly env s rq
      match r.1 with
      | .ok => issueLoop runQueue list r.2
      | .resource | .devResource =>
          (list, blkMqRequestBypassInsert env r.2 rq false (runQueue list))
      | .zoneResource | .error => issueLoop runQueue list (r.2.blkMqEndRequest rq)

/-- `blk_mq_plug_issue_direct` -/
def blkMqPlugIssueDirect : List Request → State → List Request × State :=
  issueLoop env fun _ => true

/-- `blk_mq_try_issue_list_directly` -/
def blkMqTryIssueListDirectly : List Request → State → List Request × State :=
  issueLoop env List.isEmpty

/-- The loop of `nvme_queue_rqs`, at the head of the list; `batch` is what `rqlist` holds in
front of it.  (`Nvme.Overflow` follows the commands that it copies.) -/
def nvmeQueueRqsFrom : List Request → List Request → List Request → State → List Request × State
  | [], _, requeueList, s => (requeueList, s)
  | req :: rest, batch, requeueList, s =>
      let prepared := (s.now env).prepRqBatch
      let s := s.tick
      let batch := if prepared then batch ++ [req] else batch
      let requeueList := if prepared then requeueList else req :: requeueList
      match batch.getLast? with
      | none => nvmeQueueRqsFrom rest batch requeueList s
      | some last =>
          -- `!next || req->mq_hctx != next->mq_hctx`
          if rest.head?.map env.mqHctx ≠ some (env.mqHctx last) then
            nvmeQueueRqsFrom rest [] requeueList (s.accept (env.mqHctx req) batch)
          else nvmeQueueRqsFrom rest batch requeueList s

/-- `__blk_mq_flush_plug_list`, with `nvme_queue_rqs` as `queue_rqs` -/
def flushPlugListBatch (list : List Request) (s : State) : List Request × State :=
  let t := s.now env
  let s := s.tick
  if t.blocked then (list, s) else nvmeQueueRqsFrom env list [] [] s

/-- `blk_mq_insert_requests`, the blex branch; `none` is the `BUG_ON`. -/
def blkMqInsertRequests (s : State) (hctx : Nat) (ctx : Ctx) (list : List Request) :
    Option State :=
  if ∀ rq ∈ list, env.mqCtx rq = ctx then
    some (s.setHctx hctx ((s.hctxs hctx).insertRequests ctx.cpu list))
  else none

/-- `blk_blex_no_sched_insert_requests` -/
def blkBlexNoSchedInsertRequests (s : State) (hctx : Nat) (ctx : Ctx) (list : List Request)
    (runQueueAsync : Bool) : Option State :=
  let (list, s) := if runQueueAsync then (list, s) else blkMqTryIssueListDirectly env list s
  if runQueueAsync = false ∧ list = [] then some s
  else (blkMqInsertRequests env s hctx ctx list).map (blkMqRunHwQueue env · hctx runQueueAsync)

/-- A turn of the loop of `blk_mq_dispatch_plug_list`: the list and the requeue list. -/
def plugTurn (thisHctx : Nat) (thisCtx : Ctx) (r : List Request × List Request) (rq : Request) :
    List Request × List Request :=
  if thisHctx ≠ env.mqHctx rq ∨ thisCtx ≠ env.mqCtx rq then (r.1, r.2 ++ [rq])
  else (rq :: r.1, r.2)

/-- `blk_mq_dispatch_plug_list`; the list that is returned is the requeue list. -/
def blkMqDispatchPlugList (fromSched : Bool) : List Request → State → Option (List Request × State)
  | [], _ => none
  | rq :: rest, s =>
      let thisHctx := env.mqHctx rq
      let thisCtx := env.mqCtx rq
      let (list, requeueList) := (rq :: rest).foldl (plugTurn env thisHctx thisCtx) ([], [])
      (blkBlexNoSchedInsertRequests env s thisHctx thisCtx list fromSched).map (requeueList, ·)

/-- The last loop of `blk_mq_flush_plug_list`, for at most the given number of rounds. -/
def finalFlush (fromSchedule : Bool) : Nat → List Request → State → Option (List Request × State)
  | 0, _, _ => none
  | n + 1, list, s =>
      (blkMqDispatchPlugList env fromSchedule list s).bind fun r =>
        if r.1 = [] then some r else finalFlush fromSchedule n r.1 r.2

/-- What `blk_mq_flush_plug_list` does with the list of the plug; `none` is a `BUG_ON`, a null
dereference or a last loop that goes on for longer than the list is. -/
def flushMqList (plug : BlkPlug) (fromSchedule : Bool) (s : State) :
    Option (List Request × State) :=
  if plug.multipleQueues = false ∧ plug.hasElevator = false ∧ fromSchedule = false then
    match plug.mqList with
    | [] => none
    | rq :: list =>
        let (list, s) :=
          if env.tagQueueShared (env.mqHctx rq) then (rq :: list, s)
          else flushPlugListBatch env (rq :: list) s
        if list = [] then some ([], s)
        else
          let (list, s) := blkMqPlugIssueDirect env list s
          if list = [] then some ([], s) else finalFlush env false list.length list s
  else finalFlush env fromSchedule plug.mqList.length plug.mqList s

/-- `blk_mq_flush_plug_list`, the blex branch -/
def blkMqFlushPlugList (plug : BlkPlug) (fromSchedule : Bool) (s : State) :
    Option (BlkPlug × State) :=
  if plug.rqCount = 0 then some (plug, s)
  else
    (flushMqList env plug fromSchedule s).map fun r =>
      ({ plug with mqList := r.1, rqCount := 0 }, r.2)

/-- `blk_plug_max_rq_count` -/
def blkPlugMaxRqCount (plug : BlkPlug) : Nat :=
  if plug.multipleQueues then env.blkMaxRequestCount * 2 else env.blkMaxRequestCount

/-- `blk_add_rq_to_plug` -/
def blkAddRqToPlug (plug : BlkPlug) (rq : Request) (s : State) : Option (BlkPlug × State) :=
  let last := plug.mqList.head?
  let flushed :=
    if plug.rqCount ≠ 0 ∧
        (blkPlugMaxRqCount env plug ≤ plug.rqCount ∨ last.any env.flushSize = true) then
      (blkMqFlushPlugList env plug false s).map fun r => (r, none)
    else some ((plug, s), last)
  flushed.map fun ((plug, s), last) =>
    ({ mqList := rq :: plug.mqList
       rqCount := plug.rqCount + 1
       multipleQueues := plug.multipleQueues ||
         last.any fun last => env.queue (env.mqHctx last) != env.queue (env.mqHctx rq)
       hasElevator := plug.hasElevator || env.rqfElv rq }, s)

/-! ## Where the requests are -/

/-- What is pending on a hctx belongs to it, and what is on a list to the list's CPU. -/
structure HctxPlaced (hctx : Nat) (h : Hctx) : Prop where
  dispatch : ∀ rq ∈ h.dispatch, env.mqHctx rq = hctx
  vnq : ∀ cpu, ∀ rq ∈ h.dispatchList cpu, env.mqHctx rq = hctx ∧ rq.mqCtxCpu = cpu

/-- Every request was accepted for its own hctx or is pending in its own place. -/
structure State.Placed (s : State) : Prop where
  accepted : ∀ a ∈ s.accepted, env.mqHctx a.2 = a.1
  hctx : ∀ hctx, HctxPlaced env hctx (s.hctxs hctx)

def pending (h : Hctx) (rq : Request) : Nat :=
  h.dispatch.count rq + (h.dispatchList rq.mqCtxCpu).count rq

/-- How often a request is in its places: accepted for its hctx, ended, on its hctx's `dispatch`,
or on the list of its CPU's vNQ there. -/
def State.places (s : State) (rq : Request) : Nat :=
  s.accepted.count (env.mqHctx rq, rq) + s.ended.count rq + pending (s.hctxs (env.mqHctx rq)) rq

def ledger : Ledger Request State := ⟨State.Placed env, State.places env⟩

variable {env} {s s' : State} {hctx : Nat} {rq : Request} {list l : List Request}

/-! ## Changing one hctx -/

@[simp] theorem setHctx_hctxs_self (h : Hctx) : (s.setHctx hctx h).hctxs hctx = h :=
  Function.update_self ..

theorem setHctx_hctxs_of_ne {c : Nat} (h : Hctx) (h_ne : c ≠ hctx) :
    (s.setHctx hctx h).hctxs c = s.hctxs c :=
  Function.update_of_ne h_ne ..

theorem placed_setHctx {h : Hctx} (h_placed : s.Placed env) (h_new : HctxPlaced env hctx h) :
    (s.setHctx hctx h).Placed env := by
  refine ⟨h_placed.accepted, fun c => ?_⟩
  by_cases h_eq : c = hctx
  · rw [h_eq, setHctx_hctxs_self]
    exact h_new
  · rw [setHctx_hctxs_of_ne h h_eq]
    exact h_placed.hctx c

/-- Requests of a hctx become pending there. -/
theorem keeps_setHctx {h : Hctx} {m : List Request} (h_mq : ∀ rq ∈ m, env.mqHctx rq = hctx)
    (h_new : HctxPlaced env hctx (s.hctxs hctx) → HctxPlaced env hctx h)
    (h_pending : ∀ rq, pending h rq = pending (s.hctxs hctx) rq + m.count rq) :
    (ledger env).Keeps (m ++ l, s) (l, s.setHctx hctx h) := by
  apply Ledger.Keeps.put
  · intro h_placed
    exact placed_setHctx h_placed (h_new (h_placed.hctx hctx))
  · intro _ rq
    simp only [ledger, State.places]
    by_cases h_eq : env.mqHctx rq = hctx
    · rw [h_eq, setHctx_hctxs_self, h_pending]
      exact (Nat.add_assoc ..).symm
    · have h_notMem : rq ∉ m := fun h_mem => h_eq (h_mq rq h_mem)
      rw [setHctx_hctxs_of_ne h h_eq, List.count_eq_zero_of_not_mem h_notMem]
      rfl

/-! ### Adding to the list of a vNQ -/

/-- The list of one CPU grows by requests of that CPU. -/
theorem hctxPlaced_of_grow {h h' : Hctx} {cpu : Nat} {m : List Request}
    (h_placed : HctxPlaced env hctx h) (h_m : ∀ rq ∈ m, env.mqHctx rq = hctx ∧ rq.mqCtxCpu = cpu)
    (h_dispatch : h'.dispatch = h.dispatch)
    (h_list : (h'.dispatchList cpu).Perm (h.dispatchList cpu ++ m))
    (h_other : ∀ c, c ≠ cpu → h'.dispatchList c = h.dispatchList c) : HctxPlaced env hctx h' := by
  refine ⟨fun rq h_rq => h_placed.dispatch rq (h_dispatch ▸ h_rq), fun c rq h_rq => ?_⟩
  by_cases h_eq : c = cpu
  · subst h_eq
    rcases List.mem_append.mp (h_list.mem_iff.mp h_rq) with h_old | h_new
    · exact h_placed.vnq c rq h_old
    · exact h_m rq h_new
  · rw [h_other c h_eq] at h_rq
    exact h_placed.vnq c rq h_rq

theorem pending_of_grow {h h' : Hctx} {cpu : Nat} {m : List Request}
    (h_m : ∀ rq ∈ m, rq.mqCtxCpu = cpu) (h_dispatch : h'.dispatch = h.dispatch)
    (h_list : (h'.dispatchList cpu).Perm (h.dispatchList cpu ++ m))
    (h_other : ∀ c, c ≠ cpu → h'.dispatchList c = h.dispatchList c) (rq : Request) :
    pending h' rq = pending h rq + m.count rq := by
  rw [pending, pending, h_dispatch]
  by_cases h_eq : rq.mqCtxCpu = cpu
  · rw [h_eq, h_list.count_eq, List.count_append, Nat.add_assoc]
  · have h_notMem : rq ∉ m := fun h_mem => h_eq (h_m rq h_mem)
    rw [h_other _ h_eq, List.count_eq_zero_of_not_mem h_notMem]
    rfl

theorem keeps_stage (h_hctx : env.mqHctx rq = hctx) (atHead : Bool) :
    (ledger env).Keeps (rq :: l, s) (l, s.blkBlexStageRequest hctx rq atHead) := by
  let h := s.hctxs hctx
  let h' := (h.blkBlexMarkAllowedCpu rq.mqCtxCpu).stageAdd ⟨rq, atHead⟩
  have h_list : (h'.dispatchList rq.mqCtxCpu).Perm (h.dispatchList rq.mqCtxCpu ++ [rq]) := by
    simp only [h', Hctx.stageAdd, Hctx.setDispatchList, Function.update_self]
    split
    · exact (List.perm_append_singleton rq _).symm
    · exact List.Perm.refl _
  have h_other (c : Nat) (h_ne : c ≠ rq.mqCtxCpu) : h'.dispatchList c = h.dispatchList c :=
    Function.update_of_ne h_ne ..
  apply @keeps_setHctx env s hctx l h' [rq]
  · simpa using h_hctx
  · intro h_placed
    exact hctxPlaced_of_grow h_placed (by simpa using h_hctx) rfl h_list h_other
  · exact pending_of_grow (by simp) rfl h_list h_other

theorem keeps_insert {ctx : Ctx} (h_list : ∀ rq ∈ list, env.mqHctx rq = hctx ∧ env.mqCtx rq = ctx) :
    (ledger env).Keeps (list, s)
      ([], s.setHctx hctx ((s.hctxs hctx).insertRequests ctx.cpu list)) := by
  let h := s.hctxs hctx
  let h' := h.insertRequests ctx.cpu list
  have h_m (rq : Request) (h_rq : rq ∈ list) : env.mqHctx rq = hctx ∧ rq.mqCtxCpu = ctx.cpu := by
    obtain ⟨h_hctx, rfl⟩ := h_list rq h_rq
    exact ⟨h_hctx, rfl⟩
  have h_perm : (h'.dispatchList ctx.cpu).Perm (h.dispatchList ctx.cpu ++ list) := by
    have h_self : h'.dispatchList ctx.cpu = h.dispatchList ctx.cpu ++ list :=
      Function.update_self ..
    rw [h_self]
  have h_other (c : Nat) (h_ne : c ≠ ctx.cpu) : h'.dispatchList c = h.dispatchList c :=
    Function.update_of_ne h_ne ..
  have h_keeps := @keeps_setHctx env s hctx [] h' list (fun rq h_rq => (h_m rq h_rq).1)
    (fun h_placed => hctxPlaced_of_grow h_placed h_m rfl h_perm h_other)
    (pending_of_grow (fun rq h_rq => (h_m rq h_rq).2) rfl h_perm h_other)
  rwa [List.append_nil] at h_keeps

/-! ### Handing over to the driver -/

/-- Requests handed over for their own hctx count as accepted. -/
theorem count_map_hctx {m : List Request} (h_mq : ∀ rq ∈ m, env.mqHctx rq = hctx) (rq : Request) :
    (m.map (hctx, ·)).count (env.mqHctx rq, rq) = m.count rq := by
  by_cases h_eq : env.mqHctx rq = hctx
  · rw [h_eq]
    exact List.count_map_of_injective m _ (Prod.mk_right_injective hctx) rq
  · have h_notMem : rq ∉ m := fun h_mem => h_eq (h_mq rq h_mem)
    have h_pair : (env.mqHctx rq, rq) ∉ m.map (hctx, ·) := by
      intro h_mem
      obtain ⟨_, _, h_pair⟩ := List.mem_map.mp h_mem
      exact h_eq (congrArg Prod.fst h_pair).symm
    rw [List.count_eq_zero_of_not_mem h_notMem, List.count_eq_zero_of_not_mem h_pair]

theorem accepted_append {m : List Request} (h_placed : s.Placed env)
    (h_mq : ∀ rq ∈ m, env.mqHctx rq = hctx) :
    ∀ a ∈ s.accepted ++ m.map (hctx, ·), env.mqHctx a.2 = a.1 := by
  intro a h_a
  rcases List.mem_append.mp h_a with h_old | h_new
  · exact h_placed.accepted a h_old
  · obtain ⟨rq, h_rq, rfl⟩ := List.mem_map.mp h_new
    exact h_mq rq h_rq

theorem keeps_accept {m : List Request} (h_mq : ∀ rq ∈ m, env.mqHctx rq = hctx) :
    (ledger env).Keeps (m ++ l, s) (l, s.accept hctx m) := by
  apply Ledger.Keeps.put
  · exact fun h_placed => ⟨accepted_append h_placed h_mq, h_placed.hctx⟩
  · intro _ rq
    simp only [ledger, State.places, State.accept, List.count_append, count_map_hctx h_mq]
    omega

/-! ## A queue run -/

/-- Of lists in a row only one can hold `a`. -/
theorem count_flatMap_of_only {ι α : Type*} [DecidableEq ι] [DecidableEq α] {f : ι → List α} {a : α}
    {is : List ι} (i : ι) (h_nodup : is.Nodup) (h_only : ∀ j, j ≠ i → a ∉ f j) :
    (is.flatMap f).count a = if i ∈ is then (f i).count a else 0 := by
  induction is with
  | nil => rfl
  | cons j is ih =>
      obtain ⟨h_notMem, h_nodup⟩ := List.nodup_cons.mp h_nodup
      rw [List.flatMap_cons, List.count_append, ih h_nodup]
      by_cases h_eq : j = i
      · subst h_eq
        rw [if_neg h_notMem, if_pos (List.mem_cons_self ..)]
        rfl
      · rw [List.count_eq_zero_of_not_mem (h_only j h_eq), Nat.zero_add]
        simp only [List.mem_cons, Ne.symm h_eq, false_or]

variable {h : Hctx} {n : Nat} {answers : Nat → Answer}

theorem mem_maskCpus {cpu : Nat} :
    cpu ∈ Dispatch.maskCpus n h ↔ cpu < n ∧ h.runCpumask cpu = true := by
  rw [Dispatch.maskCpus, List.mem_filter, List.mem_range]

theorem mem_taken (h_rq : rq ∈ Dispatch.taken n h) :
    rq ∈ h.dispatch ∨ ∃ cpu, rq ∈ h.dispatchList cpu := by
  rw [Dispatch.taken, List.mem_append, List.mem_flatMap] at h_rq
  rcases h_rq with h_rq | ⟨cpu, -, h_rq⟩
  · exact .inl h_rq
  · exact .inr ⟨cpu, h_rq⟩

theorem hctxPlaced_taken (h_placed : HctxPlaced env hctx h) (h_rq : rq ∈ Dispatch.taken n h) :
    env.mqHctx rq = hctx := by
  rcases mem_taken h_rq with h_rq | ⟨cpu, h_rq⟩
  · exact h_placed.dispatch rq h_rq
  · exact (h_placed.vnq cpu rq h_rq).1

/-- What a round takes and what it leaves on the lists is what was pending. -/
theorem count_taken (h_placed : HctxPlaced env hctx h) (rq : Request) :
    (Dispatch.taken n h).count rq +
        ((blkMqSchedDispatchRequests answers n h).1.dispatchList rq.mqCtxCpu).count rq =
      pending h rq := by
  have h_only (cpu : Nat) (h_ne : cpu ≠ rq.mqCtxCpu) : rq ∉ h.dispatchList cpu :=
    fun h_mem => h_ne (h_placed.vnq cpu rq h_mem).2.symm
  rw [Dispatch.taken, List.count_append,
    count_flatMap_of_only rq.mqCtxCpu (Dispatch.maskCpus_nodup n h) h_only,
    Dispatch.round_dispatchList, pending]
  simp only [mem_maskCpus]
  split
  · rw [List.count_nil, Nat.add_zero]
  · rw [Nat.add_zero]

/-- What a round does not leave on `dispatch` the driver has accepted or it was ended. -/
theorem count_round (h_placed : HctxPlaced env hctx h) (rq : Request) :
    let r := blkMqSchedDispatchRequests answers n h
    r.2.accepted.count rq + r.2.ended.count rq + pending r.1 rq = pending h rq := by
  have h_perm := (Dispatch.round_perm answers n h).count_eq rq
  have h_taken := @count_taken env hctx h n answers h_placed rq
  simp only [List.count_append, pending] at h_perm h_taken ⊢
  omega

theorem hctxPlaced_round (h_placed : HctxPlaced env hctx h) :
    HctxPlaced env hctx (blkMqSchedDispatchRequests answers n h).1 := by
  refine ⟨fun rq h_rq => ?_, fun cpu rq h_rq => ?_⟩
  · apply hctxPlaced_taken h_placed
    exact (Dispatch.round_perm answers n h).subset (List.mem_append_right _ h_rq)
  · rw [Dispatch.round_dispatchList] at h_rq
    split at h_rq
    · cases h_rq
    · exact h_placed.vnq cpu rq h_rq

/-- A round on a hctx moves what is pending there, and nothing else. -/
theorem keeps_dispatchRequests (l : List Request) (s : State) (hctx : Nat)
    (answers : Nat → Answer) :
    (ledger env).Keeps (l, s) (l, s.dispatchRequests env hctx answers) := by
  let r := blkMqSchedDispatchRequests answers env.nrCpuIds (s.hctxs hctx)
  have h_mq (h_placed : s.Placed env) (rq : Request) (h_rq : rq ∈ r.2.accepted ++ r.2.ended) :
      env.mqHctx rq = hctx :=
    hctxPlaced_taken (h_placed.hctx hctx)
      ((Dispatch.round_perm answers env.nrCpuIds _).subset (List.mem_append_left _ h_rq))
  apply @Ledger.Keeps.put _ _ _ (ledger env) l [] s
  · intro h_placed
    have h_set := placed_setHctx h_placed
      (@hctxPlaced_round env hctx _ env.nrCpuIds answers (h_placed.hctx hctx))
    refine ⟨accepted_append h_set fun rq h_rq => ?_, h_set.hctx⟩
    exact h_mq h_placed rq (List.mem_append_left _ h_rq)
  · intro h_placed rq
    have h_round := @count_round env hctx _ env.nrCpuIds answers (h_placed.hctx hctx) rq
    have h_accepted := count_map_hctx
      (fun rq h_rq => h_mq h_placed rq (List.mem_append_left r.2.ended h_rq)) rq
    -- the requests of this hctx move, the others do not take part
    have h_count : r.2.accepted.count rq + r.2.ended.count rq +
          pending ((s.setHctx hctx r.1).hctxs (env.mqHctx rq)) rq =
        pending (s.hctxs (env.mqHctx rq)) rq := by
      by_cases h_eq : env.mqHctx rq = hctx
      · rw [h_eq, setHctx_hctxs_self]
        exact h_round
      · have h_notMem : rq ∉ r.2.accepted ++ r.2.ended := fun h_mem => h_eq (h_mq h_placed rq h_mem)
        rw [← List.count_append, List.count_eq_zero_of_not_mem h_notMem,
          setHctx_hctxs_of_ne _ h_eq, Nat.zero_add]
    have h_after : (s.dispatchRequests env hctx answers).places env rq =
        (s.accepted ++ r.2.accepted.map (hctx, ·)).count (env.mqHctx rq, rq) +
          (s.ended ++ r.2.ended).count rq +
          pending ((s.setHctx hctx r.1).hctxs (env.mqHctx rq)) rq := rfl
    simp only [ledger, h_after, List.count_append, List.count_nil, h_accepted]
    rw [State.places]
    omega

theorem keeps_tick (l : List Request) (s : State) : (ledger env).Keeps (l, s) (l, s.tick) :=
  fun h_placed => ⟨⟨h_placed.accepted, h_placed.hctx⟩, fun _ => rfl⟩

theorem keeps_runHwQueue (l : List Request) (s : State) (hctx : Nat) (async : Bool) :
    (ledger env).Keeps (l, s) (l, blkMqRunHwQueue env s hctx async) := by
  rw [blkMqRunHwQueue]
  split
  · exact (keeps_tick l s).trans (keeps_dispatchRequests l s.tick hctx _)
  · exact keeps_tick l s

/-! ## One request -/

theorem keeps_bypassInsert (rq : Request) (l : List Request) (s : State) (atHead runQueue : Bool) :
    (ledger env).Keeps (rq :: l, s) (l, blkMqRequestBypassInsert env s rq atHead runQueue) := by
  have h_stage := @keeps_stage env s _ rq l rfl atHead
  cases runQueue with
  | false => exact h_stage
  | true => exact h_stage.trans (keeps_runHwQueue l _ _ false)

theorem keeps_schedInsert (rq : Request) (l : List Request) (s : State)
    (atHead runQueue async : Bool) :
    (ledger env).Keeps (rq :: l, s)
      (l, blkMqSchedInsertRequest env s rq atHead runQueue async) := by
  rw [blkMqSchedInsertRequest]
  have h_insert : (ledger env).Keeps (rq :: l, s)
      (l, if env.rqfFlushSeq rq || env.passthrough rq then
          blkMqRequestBypassInsert env s rq (env.rqfFlushSeq rq || atHead) false
        else s.blkBlexStageRequest (env.mqHctx rq) rq atHead) := by
    split
    · exact keeps_bypassInsert rq l s _ false
    · exact keeps_stage rfl atHead
  cases runQueue with
  | false => exact h_insert
  | true => exact h_insert.trans (keeps_runHwQueue l _ _ async)

theorem keeps_endRequest (rq : Request) (l : List Request) (s : State) :
    (ledger env).Keeps (rq :: l, s) (l, s.blkMqEndRequest rq) := by
  apply @Ledger.Keeps.put _ _ _ (ledger env) l [rq] s
  · exact fun h_placed => ⟨h_placed.accepted, h_placed.hctx⟩
  · intro _ a
    simp only [ledger, State.places, State.blkMqEndRequest, List.count_append]
    omega

/-- A request that is issued directly is dealt with if the result is `BLK_STS_OK`, and otherwise
still in the caller's hands. -/
theorem keeps_tryIssueDirectly (rq : Request) (l : List Request) (s : State) (bypassInsert : Bool) :
    let r := tryIssueDirectly env s (env.mqHctx rq) rq bypassInsert
    (ledger env).Keeps (rq :: l, s) (if r.1 = .ok then l else rq :: l, r.2) := by
  have h_insert (runQueue : Bool) : (ledger env).Keeps (rq :: l, s)
      (l, blkMqSchedInsertRequest env s.tick rq false runQueue false) :=
    (keeps_tick _ s).trans (keeps_schedInsert rq l s.tick false runQueue false)
  simp only [tryIssueDirectly]
  split
  · exact h_insert false
  split
  · exact h_insert true
  split
  · split
    · exact keeps_tick _ s
    · exact h_insert true
  · split
    · exact keeps_tick _ s
    · exact h_insert true
  · rw [issueDirectly.eq_def]
    split
    · exact (keeps_tick _ s).trans (@keeps_accept env s.tick _ l [rq] (by simp))
    case h_2 h_ok =>
      rw [if_neg h_ok]
      exact keeps_tick _ s

/-- A request that is issued on its own ends in one of its places. -/
theorem blkMqTryIssueDirectly_keeps (rq : Request) (l : List Request) (s : State) :
    (ledger env).Keeps (rq :: l, s) (l, blkMqTryIssueDirectly env s (env.mqHctx rq) rq) := by
  have h_issue := @keeps_tryIssueDirectly env rq l s false
  rw [blkMqTryIssueDirectly]
  dsimp only at h_issue ⊢
  split
  case h_1 h_ok =>
    rw [if_pos h_ok] at h_issue
    exact h_issue
  case h_2 h_busy | h_3 h_busy =>
    rw [h_busy, if_neg (by decide)] at h_issue
    exact h_issue.trans (keeps_bypassInsert rq _ _ false true)
  case h_4 h_error | h_5 h_error =>
    rw [h_error, if_neg (by decide)] at h_issue
    exact h_issue.trans (keeps_endRequest rq _ _)

/-! ## The loops -/

theorem keeps_issueLoop (runQueue : List Request → Bool) (list l : List Request) (s : State) :
    (ledger env).Keeps (list ++ l, s)
      ((issueLoop env runQueue list s).1 ++ l, (issueLoop env runQueue list s).2) := by
  induction list generalizing s with
  | nil => exact Ledger.Keeps.refl _
  | cons rq list ih =>
      have h_issue := @keeps_tryIssueDirectly env rq (list ++ l) s true
      rw [issueLoop, blkMqRequestIssueDirectly]
      dsimp only at h_issue ⊢
      split
      case h_1 h_ok =>
        rw [if_pos h_ok] at h_issue
        exact h_issue.trans (ih _)
      case h_2 h_busy | h_3 h_busy =>
        rw [h_busy, if_neg (by decide)] at h_issue
        exact h_issue.trans (keeps_bypassInsert rq _ _ false _)
      case h_4 h_error | h_5 h_error =>
        rw [h_error, if_neg (by decide)] at h_issue
        exact h_issue.trans ((keeps_endRequest rq _ _).trans (ih _))

/-- In the loop of `nvme_queue_rqs`, what stands in front of a request is for the same hctx. -/
theorem keeps_nvmeQueueRqsFrom (rqs batch requeueList : List Request) (s : State)
    (h_batch : ∀ rq ∈ batch, rqs.head?.map env.mqHctx = some (env.mqHctx rq)) :
    (ledger env).Keeps (batch ++ (rqs ++ requeueList), s)
      (nvmeQueueRqsFrom env rqs batch requeueList s) := by
  induction rqs generalizing batch requeueList s with
  | nil =>
      have h_nil : batch = [] :=
        List.eq_nil_iff_forall_not_mem.mpr fun rq h_rq => nomatch h_batch rq h_rq
      rw [h_nil]
      exact Ledger.Keeps.refl _
  | cons req rest ih =>
      rw [nvmeQueueRqsFrom]
      generalize (s.now env).prepRqBatch = prepared
      have h_perm : (batch ++ (req :: rest ++ requeueList)).Perm
          ((if prepared = true then batch ++ [req] else batch) ++
            (rest ++ if prepared = true then requeueList else req :: requeueList)) := by
        cases prepared with
        | true => simp
        | false => exact (List.perm_middle.symm).append_left batch
      have h_hctx : ∀ rq ∈ (if prepared = true then batch ++ [req] else batch),
          env.mqHctx rq = env.mqHctx req := by
        have h_old : ∀ rq ∈ batch, env.mqHctx rq = env.mqHctx req :=
          fun rq h_rq => (Option.some.inj (h_batch rq h_rq)).symm
        intro rq h_rq
        split at h_rq
        · rcases List.mem_append.mp h_rq with h_rq | h_rq
          · exact h_old rq h_rq
          · rw [List.mem_singleton.mp h_rq]
        · exact h_old rq h_rq
      generalize (if prepared = true then batch ++ [req] else batch) = batch' at h_perm h_hctx ⊢
      generalize (if prepared = true then requeueList else req :: requeueList) = requeueList'
        at h_perm ⊢
      refine ((Ledger.Keeps.of_perm s h_perm).trans (keeps_tick _ s)).trans ?_
      cases h_last : batch'.getLast? with
      | none =>
          rw [List.getLast?_eq_none_iff] at h_last
          rw [h_last]
          exact ih [] requeueList' _ (by simp)
      | some last =>
          have h_lastHctx := h_hctx last (List.mem_of_getLast? h_last)
          dsimp only
          split
          · exact (keeps_accept h_hctx).trans (ih [] requeueList' _ (by simp))
          case isFalse h_next =>
            apply ih batch' requeueList'
            intro rq h_rq
            rw [not_not.mp h_next, h_lastHctx, h_hctx rq h_rq]

theorem keeps_flushPlugListBatch (list : List Request) (s : State) :
    (ledger env).Keeps (list, s) (flushPlugListBatch env list s) := by
  rw [flushPlugListBatch]
  split
  · exact keeps_tick list s
  · have h_loop := @keeps_nvmeQueueRqsFrom env list [] [] s.tick (by simp)
    rw [List.nil_append, List.append_nil] at h_loop
    exact (keeps_tick list s).trans h_loop

/-! ### The last loop -/

/-- What the loop leaves is the end of the list. -/
theorem issueLoop_suffix (runQueue : List Request → Bool) (list : List Request) (s : State) :
    (issueLoop env runQueue list s).1 <:+ list := by
  induction list generalizing s with
  | nil => exact List.suffix_refl _
  | cons rq list ih =>
      rw [issueLoop]
      split
      · exact (ih _).trans (List.suffix_cons rq list)
      · exact List.suffix_cons rq list
      · exact List.suffix_cons rq list
      · exact (ih _).trans (List.suffix_cons rq list)
      · exact (ih _).trans (List.suffix_cons rq list)

theorem insertRequests_keeps {ctx : Ctx}
    (h_list : ∀ rq ∈ list, env.mqHctx rq = hctx ∧ env.mqCtx rq = ctx) :
    Returns (blkMqInsertRequests env s hctx ctx list)
      fun s' => (ledger env).Keeps (list, s) ([], s') := by
  rw [blkMqInsertRequests, if_pos fun rq h_rq => (h_list rq h_rq).2]
  exact Returns.some (keeps_insert h_list)

theorem noSchedInsert_keeps {ctx : Ctx} (runQueueAsync : Bool)
    (h_list : ∀ rq ∈ list, env.mqHctx rq = hctx ∧ env.mqCtx rq = ctx) :
    Returns (blkBlexNoSchedInsertRequests env s hctx ctx list runQueueAsync)
      fun s' => (ledger env).Keeps (list, s) ([], s') := by
  rw [blkBlexNoSchedInsertRequests]
  -- what is left after the direct issue
  obtain ⟨r, h_r⟩ : ∃ r, (if runQueueAsync then (list, s) else
    blkMqTryIssueListDirectly env list s) = r := ⟨_, rfl⟩
  have h_issue : (ledger env).Keeps (list, s) r ∧ r.1 <:+ list := by
    rw [← h_r]
    split
    · exact ⟨Ledger.Keeps.refl _, List.suffix_refl _⟩
    · have h_keeps := @keeps_issueLoop env List.isEmpty list [] s
      rw [List.append_nil, List.append_nil] at h_keeps
      exact ⟨h_keeps, issueLoop_suffix List.isEmpty list s⟩
  obtain ⟨h_keeps, h_suffix⟩ := h_issue
  rw [h_r]
  dsimp only
  split
  case isTrue h_and =>
    rw [← h_and.2]
    exact Returns.some h_keeps
  case isFalse =>
    apply (insertRequests_keeps fun rq h_rq => h_list rq (h_suffix.subset h_rq)).map
    intro s' h_insert
    exact (h_keeps.trans h_insert).trans (keeps_runHwQueue [] s' hctx runQueueAsync)

/-- The requests of the first one's hctx and ctx are put apart, the others are requeued. -/
theorem plugTurns {thisHctx : Nat} {thisCtx : Ctx} (list : List Request)
    (r : List Request × List Request)
    (h_r : ∀ rq ∈ r.1, env.mqHctx rq = thisHctx ∧ env.mqCtx rq = thisCtx) :
    let r' := list.foldl (plugTurn env thisHctx thisCtx) r
    (r'.1 ++ r'.2).Perm (r.1 ++ r.2 ++ list) ∧ r'.2.length ≤ r.2.length + list.length ∧
      ∀ rq ∈ r'.1, env.mqHctx rq = thisHctx ∧ env.mqCtx rq = thisCtx := by
  induction list generalizing r with
  | nil =>
      refine ⟨?_, Nat.le_refl _, h_r⟩
      rw [List.foldl_nil, List.append_nil]
  | cons rq list ih =>
      rw [List.foldl_cons, plugTurn]
      split
      · obtain ⟨h_perm, h_length, h_same⟩ := ih (r.1, r.2 ++ [rq]) h_r
        refine ⟨h_perm.trans ?_, ?_, h_same⟩
        · simp
        · rw [List.length_append, List.length_singleton] at h_length
          rw [List.length_cons]
          omega
      case isFalse h_eq =>
        rw [not_or, not_not, not_not] at h_eq
        obtain ⟨h_perm, h_length, h_same⟩ := ih (rq :: r.1, r.2) fun x h_x => by
          rcases List.mem_cons.mp h_x with rfl | h_x
          · exact ⟨h_eq.1.symm, h_eq.2.symm⟩
          · exact h_r x h_x
        refine ⟨h_perm.trans List.perm_middle.symm, ?_, h_same⟩
        rw [List.length_cons]
        exact Nat.le_succ_of_le h_length

theorem dispatchPlugList_keeps (fromSched : Bool) (h_list : list ≠ []) (s : State) :
    Returns (blkMqDispatchPlugList env fromSched list s)
      fun r => (ledger env).Keeps (list, s) r ∧ r.1.length < list.length := by
  cases list with
  | nil => exact absurd rfl h_list
  | cons rq rest =>
      -- the first request is not requeued
      have h_first : plugTurn env (env.mqHctx rq) (env.mqCtx rq) ([], []) rq = ([rq], []) :=
        if_neg (by simp)
      obtain ⟨h_perm, h_length, h_same⟩ :=
        @plugTurns env (env.mqHctx rq) (env.mqCtx rq) rest ([rq], []) (by simp)
      rw [blkMqDispatchPlugList, List.foldl_cons, h_first]
      apply (noSchedInsert_keeps fromSched h_same).map
      intro s' h_insert
      refine ⟨(Ledger.Keeps.of_perm s h_perm.symm).trans (h_insert.frame _), ?_⟩
      rw [List.length_nil, Nat.zero_add] at h_length
      exact Nat.lt_succ_of_le h_length

theorem finalFlush_keeps (fromSchedule : Bool) (n : Nat) (h_list : list ≠ [])
    (h_n : list.length ≤ n) (s : State) :
    Returns (finalFlush env fromSchedule n list s)
      fun r => (ledger env).Keeps (list, s) r ∧ r.1 = [] := by
  induction n generalizing list s with
  | zero => exact absurd (List.length_eq_zero_iff.mp (Nat.le_zero.mp h_n)) h_list
  | succ n ih =>
      rw [finalFlush]
      apply (dispatchPlugList_keeps fromSchedule h_list s).bind
      rintro ⟨list', s'⟩ ⟨h_keeps, h_length⟩
      dsimp only
      split
      case isTrue h_empty => exact Returns.some ⟨h_keeps, h_empty⟩
      case isFalse h_left =>
        apply (ih h_left (by dsimp only at h_length; omega) s').mono
        rintro r ⟨h_rest, h_empty⟩
        exact ⟨h_keeps.trans h_rest, h_empty⟩

/-! ## The flush -/

theorem flushMqList_keeps (plug : BlkPlug) (fromSchedule : Bool) (h_plug : plug.mqList ≠ [])
    (s : State) :
    Returns (flushMqList env plug fromSchedule s)
      fun r => (ledger env).Keeps (plug.mqList, s) r ∧ r.1 = [] := by
  rw [flushMqList]
  split
  · cases h_mqList : plug.mqList with
    | nil => exact absurd h_mqList h_plug
    | cons rq list =>
        -- what the driver's batch leaves
        obtain ⟨r, h_r⟩ : ∃ r, (if env.tagQueueShared (env.mqHctx rq) = true then (rq :: list, s)
          else flushPlugListBatch env (rq :: list) s) = r := ⟨_, rfl⟩
        have h_batch : (ledger env).Keeps (rq :: list, s) r := by
          rw [← h_r]
          split
          · exact Ledger.Keeps.refl _
          · exact keeps_flushPlugListBatch (rq :: list) s
        -- what the direct issue leaves
        have h_direct := @keeps_issueLoop env (fun _ => true) r.1 [] r.2
        rw [List.append_nil, List.append_nil] at h_direct
        dsimp only
        rw [h_r]
        split
        case isTrue h_empty =>
          refine Returns.some ⟨?_, rfl⟩
          rwa [← h_empty]
        split
        case isTrue h_empty =>
          refine Returns.some ⟨?_, rfl⟩
          rw [← h_empty]
          exact h_batch.trans h_direct
        case isFalse h_left =>
          apply (finalFlush_keeps false _ h_left (Nat.le_refl _) _).mono
          rintro r' ⟨h_rest, h_empty⟩
          exact ⟨(h_batch.trans h_direct).trans h_rest, h_empty⟩
  · exact finalFlush_keeps fromSchedule _ h_plug (Nat.le_refl _) s

/-- A flush returns with an empty plug.  Each request of the plug has come to one more of its
places: accepted for its hctx, ended, on the list of its CPU's vNQ on its hctx, or on its hctx's
`dispatch`. -/
theorem flush_conserves (env : Env) (plug : BlkPlug) (fromSchedule : Bool) (s : State)
    (h_count : plug.rqCount = plug.mqList.length) (h_placed : s.Placed env) :
    ∃ plug' s', blkMqFlushPlugList env plug fromSchedule s = some (plug', s') ∧
      plug'.mqList = [] ∧ s'.Placed env ∧
      ∀ rq, s'.places env rq = s.places env rq + plug.mqList.count rq := by
  rw [blkMqFlushPlugList]
  split
  case isTrue h_zero =>
    have h_empty : plug.mqList = [] := List.length_eq_zero_iff.mp (h_count.symm.trans h_zero)
    refine ⟨plug, s, rfl, h_empty, h_placed, fun rq => ?_⟩
    rw [h_empty]
    rfl
  case isFalse h_some =>
    have h_plug : plug.mqList ≠ [] := fun h_empty => h_some (by rw [h_count, h_empty]; rfl)
    obtain ⟨⟨list, s'⟩, h_eq, h_keeps, rfl⟩ := @flushMqList_keeps env plug fromSchedule h_plug s
    obtain ⟨h_placed', h_held⟩ := h_keeps h_placed
    rw [h_eq]
    exact ⟨_, s', rfl, rfl, h_placed', h_held⟩

/-- A request that is added to a plug is in it, whether or not the plug was flushed first. -/
theorem addRqToPlug_mem {plug plug' : BlkPlug}
    (h : blkAddRqToPlug env plug rq s = some (plug', s')) : rq ∈ plug'.mqList := by
  obtain ⟨r, -, h_eq⟩ := Option.map_eq_some_iff.mp h
  cases h_eq
  exact List.mem_cons_self ..

/-- One CPU, one hctx, and a driver that is out of resources. -/
def busy : Env where
  nrCpuIds := 1
  mqHctx _ := 0
  queue _ := 0
  tagQueueShared _ := false
  rqfFlushSeq _ := false
  rqfElv _ := false
  passthrough _ := false
  flushSize _ := false
  blkMaxRequestCount := 32
  turns _ := ⟨false, false, ⟨.ok, .resource⟩, true, fun _ => ⟨.ok, .resource⟩⟩

/-- Nothing is pending anywhere. -/
def idle : State := ⟨0, fun _ => Vnq.idle.hctx, [], []⟩

theorem placed_idle (env : Env) : idle.Placed env := by
  refine ⟨fun a h_a => ?_, fun hctx => ⟨fun rq h_rq => ?_, fun cpu rq h_rq => ?_⟩⟩
  · cases h_a
  · cases h_rq
  · cases h_rq

/-- Two requests, from a schedule. -/
theorem flush_conserves_busy :
    ∃ plug' s', blkMqFlushPlugList busy ⟨[⟨1, 0⟩, ⟨2, 0⟩], 2, false, false⟩ true idle =
        some (plug', s') ∧
      plug'.mqList = [] ∧ s'.places busy ⟨1, 0⟩ = 1 := by
  obtain ⟨plug', s', h_eq, h_empty, -, h_places⟩ :=
    flush_conserves busy ⟨[⟨1, 0⟩, ⟨2, 0⟩], 2, false, false⟩ true idle rfl (placed_idle busy)
  exact ⟨plug', s', h_eq, h_empty, (h_places ⟨1, 0⟩).trans (by decide)⟩

/-- The driver refuses the request in the batch, when it is issued directly and in the queue run
that follows its staging: it is left on `hctx->dispatch`. -/
theorem flush_leavesOnDispatch :
    ∃ plug' s', blkMqFlushPlugList busy ⟨[⟨1, 0⟩], 1, false, false⟩ false idle = some (plug', s') ∧
      s'.accepted = [] ∧ s'.ended = [] ∧ (s'.hctxs 0).dispatchList 0 = [] ∧
      (s'.hctxs 0).dispatch = [⟨1, 0⟩] :=
  ⟨_, _, rfl, rfl, rfl, rfl, rfl⟩

end Daredevil.Plug
