/-
  Daredevil.Nvme.Doorbell

  The doorbells of a batch.  `nvme_queue_rq` (`drivers/nvme/host/pci.c`) copies a
  command and leaves the doorbell of its queue to the last request of the batch;
  `blk_mq_plug_issue_direct` and `blk_mq_try_issue_list_directly` (`block/blk-mq.c`)
  call `nvme_commit_rqs` where the batch ends in another way.

  The functions are those of `Block.Plug`, with the submission queues added, and with the
  branches for tag sets without blex; the controller is ready, so that a command is
  copied whenever the answer is `BLK_STS_OK`.  Nobody else submits during the call.

  A request that is staged because its hctx was stopped or its queue quiesced counts as
  issued, and the batch is not known to have ended early; and `nvme_mq_admin_ops` have no
  `commit_rqs`.  `doorbells_cover_iff`: all doorbells are written, unless such a request
  is the last one behind commands of its own hctx (`Stranded`), or the admin queue's last
  command was not the last of its batch (`Lagging`).
-/
import Daredevil.Block.Plug
import Daredevil.Nvme.Overflow
import Mathlib.Data.List.TakeWhile

namespace Daredevil.Nvme.Doorbell

open Overflow (NvmeSq nvmeQueueSq nvmeCommitSq nvmeWriteSqDb nvmeSqCopyCmd)
open Vnq (Request)
open Dispatch (BlkStatus Answer Progress dispatchLoop)

/-! ## State -/

/-- The tag set of a hctx. -/
inductive TagSetKind where
  /-- `nvme_mq_ops`, several hctxs: `blk_blex_nvme_enabled` -/
  | blex
  /-- `nvme_mq_ops`, one hctx -/
  | single
  /-- `nvme_mq_admin_ops`, one hctx -/
  | admin
  deriving DecidableEq, Repr

/-- `mq_ops->commit_rqs` is set. -/
def TagSetKind.commits : TagSetKind → Bool
  | .blex | .single => true
  | .admin => false

structure Env where
  plug : Plug.Env
  tagSet : Nat → TagSetKind
  /-- `hctx->driver_data`: the index of the `nvme_queue` -/
  driverData : Nat → Nat
  /-- `iod->cmd` -/
  iodCmd : Request → Overflow.Request
  /-- in the queue run at a turn: the next request of the list gets its driver tag -/
  nextTag : Nat → Nat → Bool
  /-- in the queue run at a turn: what `blk_mq_do_dispatch_ctx` takes off the software queues, which
  the plug's state does not have -/
  fromCtxs : Nat → List Request

structure State (qDepth : Nat) where
  plug : Plug.State
  sq : Nat → NvmeSq qDepth
  /-- the queues that received a command, once for each -/
  received : List Nat

/-- What becomes of a request in `blk_mq_request_issue_directly`. -/
inductive Outcome where
  | accepted
  /-- on the list of its vNQ, since the hctx is stopped or the queue quiesced -/
  | staged
  | busy
  | failed
  deriving DecidableEq, Repr

def outcome (t : Plug.Turn) : Outcome :=
  if t.blocked then .staged
  else
    match t.answer.prep with
    | .noBudget | .noTag => .busy
    | .ok =>
        match t.answer.status with
        | .ok => .accepted
        | .resource | .devResource => .busy
        | .zoneResource | .error => .failed

variable {qDepth : Nat} (env : Env)

/-! ## The driver -/

namespace State

variable (s : State qDepth) (hctx : Nat)

/-- `nvme_queue_rq` -/
def queueRq (rq : Request) (last : Bool) : State qDepth :=
  let qid := env.driverData hctx
  { s with
    sq := Function.update s.sq qid (nvmeQueueSq (s.sq qid) (env.iodCmd rq) last)
    received := s.received ++ [qid] }

/-- `mq_ops->commit_rqs`, where there is one: `nvme_commit_rqs` -/
def commitRqs : State qDepth :=
  if (env.tagSet hctx).commits then
    let qid := env.driverData hctx
    { s with sq := Function.update s.sq qid (nvmeCommitSq (s.sq qid)) }
  else s

end State

/-! ## A queue run -/

/-- The calls of `queue_rq` in the loop of `blk_mq_dispatch_rq_list`; `turn` counts the
answers. -/
def dispatchSq (ans : Nat → Answer) (nextTag : Nat → Bool) :
    Nat → List Request → NvmeSq qDepth → NvmeSq qDepth
  | _, [], sq => sq
  | turn, rq :: list, sq =>
      match (ans turn).prep with
      | .noTag | .noBudget => sq
      | .ok =>
          match (ans turn).status with
          | .ok =>
              dispatchSq ans nextTag (turn + 1) list
                -- `bd.last`
                (nvmeQueueSq sq (env.iodCmd rq) (list.isEmpty || !nextTag turn))
          | .resource | .devResource => sq
          | .zoneResource | .error => dispatchSq ans nextTag (turn + 1) list sq

/-- The condition on which `blk_mq_dispatch_rq_list` calls `commit_rqs`. -/
def dispatchCommits (p : Progress) : Prop :=
  (p.list ++ p.zoneList ≠ [] ∨ p.ended ≠ [] ∨
      -- `needs_resource`
      (.resource ∈ p.results ∨ .zoneResource ∈ p.results) ∨
      p.results.getLast? = some .devResource) ∧
    p.accepted ≠ []

instance (p : Progress) : Decidable (dispatchCommits p) := inferInstanceAs (Decidable (_ ∧ _))

/-- `blk_mq_dispatch_rq_list`; the blex branch does not ask whether there is a `commit_rqs`. -/
def dispatchRqList (kind : TagSetKind) (ans : Nat → Answer) (nextTag : Nat → Bool)
    (list : List Request) (sq : NvmeSq qDepth) : NvmeSq qDepth :=
  let sq := dispatchSq env ans nextTag 0 list sq
  if dispatchCommits (dispatchLoop ans 0 list .start) ∧ kind.commits = true then nvmeCommitSq sq
  else sq

/-- `blk_mq_dispatch_rq_list` returns true. -/
def dispatched (p : Progress) : Bool :=
  (p.list ++ p.zoneList).isEmpty && !(p.accepted ++ p.ended).isEmpty

namespace State

variable (s : State qDepth) (hctx : Nat)

/-- `blk_mq_dispatch_rq_list`, with where it leaves the requests -/
def dispatchList (ans : Nat → Answer) (nextTag : Nat → Bool) (list : List Request) :
    Progress × State qDepth :=
  let p := dispatchLoop ans 0 list .start
  let qid := env.driverData hctx
  let h := s.plug.hctxs hctx
  let plug := (s.plug.setHctx hctx
    { h with dispatch := h.dispatch ++ (p.list ++ p.zoneList) }).accept hctx p.accepted
  (p, {
    plug := { plug with ended := plug.ended ++ p.ended }
    sq := Function.update s.sq qid
      (dispatchRqList env (env.tagSet hctx) ans nextTag list (s.sq qid))
    received := s.received ++ p.accepted.map fun _ => qid })

/-- `blk_mq_do_dispatch_ctx`; `turn` counts the answers. -/
def doDispatchCtx (ans : Nat → Answer) (hctx : Nat) :
    Nat → List Request → State qDepth → State qDepth
  | _, [], s => s
  | turn, rq :: list, s =>
      let r := s.dispatchList env hctx (fun k => ans (turn + k)) (fun _ => true) [rq]
      if dispatched r.1 then doDispatchCtx ans hctx (turn + 1) list r.2 else r.2

/-- `blk_mq_sched_dispatch_requests`, not the blex branch.  `hctx->dispatch` is not empty: the queue
is run for a request that was put there. -/
def dispatchPlain (ans : Nat → Answer) (nextTag : Nat → Bool) (fromCtxs : List Request) :
    State qDepth :=
  let h := s.plug.hctxs hctx
  let r := State.dispatchList env
    { s with plug := s.plug.setHctx hctx { h with dispatch := [] } } hctx ans nextTag h.dispatch
  if dispatched r.1 then doDispatchCtx env ans hctx h.dispatch.length fromCtxs r.2 else r.2

/-- `blk_mq_sched_dispatch_requests`, the blex branch -/
def dispatchBlex (answers : Nat → Answer) (nextTag : Nat → Bool) : State qDepth :=
  let (_, rqList) := Dispatch.gather env.plug.nrCpuIds (s.plug.hctxs hctx)
  let qid := env.driverData hctx
  { plug := s.plug.dispatchRequests env.plug hctx answers
    sq := Function.update s.sq qid
      (dispatchRqList env (env.tagSet hctx) answers nextTag rqList (s.sq qid))
    received := s.received ++
      (dispatchLoop answers 0 rqList .start).accepted.map fun _ => qid }

end State

/-- `blk_mq_hctx_has_pending` -/
def blkMqHctxHasPending (s : State qDepth) (hctx : Nat) (fromCtxs : List Request) : Bool :=
  if env.tagSet hctx = .blex then
    Vnq.blkMqHctxHasPending env.plug.nrCpuIds (s.plug.hctxs hctx)
  else !(s.plug.hctxs hctx).dispatch.isEmpty || !fromCtxs.isEmpty

/-- `blk_mq_run_hw_queue`, not asynchronous -/
def blkMqRunHwQueue (s : State qDepth) (hctx : Nat) : State qDepth :=
  let t := s.plug.now env.plug
  let nextTag := env.nextTag s.plug.turn
  let fromCtxs := env.fromCtxs s.plug.turn
  let s := { s with plug := s.plug.tick }
  if t.blocked = false ∧ blkMqHctxHasPending env s hctx fromCtxs = true ∧ t.runsHere = true then
    if env.tagSet hctx = .blex then s.dispatchBlex env hctx t.round nextTag
    else s.dispatchPlain env hctx t.round nextTag fromCtxs
  else s

/-- A request is put on `hctx->dispatch`. -/
def addDispatch (s : Plug.State) (hctx : Nat) (rq : Request) (atHead : Bool) : Plug.State :=
  let h := s.hctxs hctx
  s.setHctx hctx
    { h with dispatch := if atHead then rq :: h.dispatch else h.dispatch ++ [rq] }

/-- `blk_mq_request_bypass_insert`, at the tail -/
def blkMqRequestBypassInsert (s : State qDepth) (rq : Request) (runQueue : Bool) : State qDepth :=
  let hctx := env.plug.mqHctx rq
  let s := { s with
    plug :=
      if env.tagSet hctx = .blex then s.plug.blkBlexStageRequest hctx rq false
      else addDispatch s.plug hctx rq false }
  if runQueue then blkMqRunHwQueue env s hctx else s

/-! ## The two batches -/

/-- `blk_mq_sched_insert_request`, not the blex branch, without a queue run -/
def insertPlain (s : Plug.State) (rq : Request) : Plug.State :=
  if env.plug.rqfFlushSeq rq || env.plug.passthrough rq then
    addDispatch s (env.plug.mqHctx rq) rq (env.plug.rqfFlushSeq rq)
  -- on a software queue
  else s

/-- `blk_mq_request_issue_directly`, not the blex branch -/
def issuePlain (s : Plug.State) (rq : Request) : BlkStatus × Plug.State :=
  let t := s.now env.plug
  let s := s.tick
  if t.blocked then (.ok, insertPlain env s rq)
  else
    match t.answer.prep with
    | .noBudget | .noTag => (.resource, s)
    | .ok => Plug.issueDirectly s (env.plug.mqHctx rq) rq t.answer.status

/-- `blk_mq_request_issue_directly` -/
def blkMqRequestIssueDirectly (s : State qDepth) (rq : Request) (last : Bool) :
    BlkStatus × State qDepth :=
  let t := s.plug.now env.plug
  let (ret, plug) :=
    if env.tagSet (env.plug.mqHctx rq) = .blex then
      Plug.blkMqRequestIssueDirectly env.plug s.plug rq
    else issuePlain env s.plug rq
  let s := { s with plug }
  (ret, if outcome t = .accepted then s.queueRq env (env.plug.mqHctx rq) rq last else s)

/-- The variables of the loops. -/
structure Loop (qDepth : Nat) where
  hctx : Option Nat
  queued : Nat
  /-- a busy driver, which ends the loop, is counted as well -/
  errors : Nat
  s : State qDepth

/-- `blk_mq_commit_rqs` -/
def blkMqCommitRqs (l : Loop qDepth) : Loop qDepth :=
  match l.hctx with
  | none => l
  | some hctx => { l with queued := 0, s := l.s.commitRqs env hctx }

/-- What `blk_mq_plug_issue_direct` does with a request of another hctx. -/
def enterHctx (l : Loop qDepth) (hctx : Nat) : Loop qDepth :=
  if l.hctx = some hctx then l else { blkMqCommitRqs env l with hctx := some hctx }

/-- The loop of either function.  `enter` is what precedes the issue of a request, `runQueue`
whether to run the queue for a request that is put aside, given what is left. -/
def issueLoop (enter : Loop qDepth → Nat → Loop qDepth) (runQueue : List Request → Bool) :
    List Request → Loop qDepth → List Request × Loop qDepth
  | [], l => ([], l)
  | rq :: list, l =>
      let l := enter l (env.plug.mqHctx rq)
      let (ret, s) := blkMqRequestIssueDirectly env l.s rq list.isEmpty
      match ret with
      | .ok => issueLoop enter runQueue list { l with queued := l.queued + 1, s }
      | .resource | .devResource =>
          (list, { l with
            errors := l.errors + 1
            s := blkMqRequestBypassInsert env s rq (runQueue list) })
      | .zoneResource | .error =>
          issueLoop enter runQueue list { l with
            errors := l.errors + 1
            s := { s with plug := s.plug.blkMqEndRequest rq } }

/-- `blk_mq_plug_issue_direct` -/
def blkMqPlugIssueDirect (list : List Request) (s : State qDepth) :
    List Request × State qDepth :=
  let (list, l) := issueLoop env (enterHctx env) (fun _ => true) list ⟨none, 0, 0, s⟩
  (list, if l.errors ≠ 0 then (blkMqCommitRqs env l).s else l.s)

/-- `blk_mq_try_issue_list_directly` -/
def blkMqTryIssueListDirectly (hctx : Nat) (list : List Request) (s : State qDepth) :
    List Request × State qDepth :=
  let (list, l) := issueLoop env (fun l _ => l) List.isEmpty list ⟨some hctx, 0, 0, s⟩
  (list, if (list ≠ [] ∨ l.errors ≠ 0) ∧ l.queued ≠ 0 then l.s.commitRqs env hctx else l.s)

/-! ## In a blex tag set the requests go where `Block.Plug` sends them -/

variable {env} {s : State qDepth} {rq : Request} {hctx : Nat}

theorem runHwQueue_plug (s : State qDepth) (h_blex : env.tagSet hctx = .blex) :
    (blkMqRunHwQueue env s hctx).plug = Plug.blkMqRunHwQueue env.plug s.plug hctx false := by
  simp only [blkMqRunHwQueue, Plug.blkMqRunHwQueue, blkMqHctxHasPending, if_pos h_blex, true_and]
  split <;> rfl

theorem bypassInsert_plug (s : State qDepth) (h_blex : env.tagSet (env.plug.mqHctx rq) = .blex)
    (runQueue : Bool) :
    (blkMqRequestBypassInsert env s rq runQueue).plug =
      Plug.blkMqRequestBypassInsert env.plug s.plug rq false runQueue := by
  simp only [blkMqRequestBypassInsert, Plug.blkMqRequestBypassInsert, if_pos h_blex]
  cases runQueue with
  | false => rfl
  | true => exact runHwQueue_plug _ h_blex

/-- The answer, and where the request is. -/
theorem issue_fst_plug (s : State qDepth) (rq : Request) (last : Bool) :
    let r := if env.tagSet (env.plug.mqHctx rq) = .blex then
        Plug.blkMqRequestIssueDirectly env.plug s.plug rq
      else issuePlain env s.plug rq
    (blkMqRequestIssueDirectly env s rq last).1 = r.1 ∧
      (blkMqRequestIssueDirectly env s rq last).2.plug = r.2 := by
  dsimp only [blkMqRequestIssueDirectly]
  refine ⟨rfl, ?_⟩
  split <;> rfl

theorem issue_plug (s : State qDepth) (h_blex : env.tagSet (env.plug.mqHctx rq) = .blex)
    (last : Bool) :
    (blkMqRequestIssueDirectly env s rq last).1 =
        (Plug.blkMqRequestIssueDirectly env.plug s.plug rq).1 ∧
      (blkMqRequestIssueDirectly env s rq last).2.plug =
        (Plug.blkMqRequestIssueDirectly env.plug s.plug rq).2 := by
  have h_issue := @issue_fst_plug _ env s rq last
  rwa [if_pos h_blex] at h_issue

theorem State.commitRqs_plug (s : State qDepth) (hctx : Nat) :
    (s.commitRqs env hctx).plug = s.plug := by
  rw [State.commitRqs]
  split <;> rfl

theorem issueLoop_plug (h_blex : ∀ hctx, env.tagSet hctx = .blex)
    {enter : Loop qDepth → Nat → Loop qDepth}
    (h_enter : ∀ l hctx, (enter l hctx).s.plug = l.s.plug) (runQueue : List Request → Bool)
    (list : List Request) (l : Loop qDepth) :
    ((issueLoop env enter runQueue list l).1, (issueLoop env enter runQueue list l).2.s.plug) =
      Plug.issueLoop env.plug runQueue list l.s.plug := by
  induction list generalizing l with
  | nil => rfl
  | cons rq list ih =>
      obtain ⟨h_ret, h_state⟩ :=
        @issue_plug qDepth env rq (enter l (env.plug.mqHctx rq)).s (h_blex _) list.isEmpty
      rw [h_enter] at h_ret h_state
      rw [issueLoop, Plug.issueLoop]
      dsimp only
      rw [h_ret]
      cases (Plug.blkMqRequestIssueDirectly env.plug l.s.plug rq).1 with
      | ok => rw [← h_state]; exact ih _
      | resource | devResource => rw [← h_state, ← bypassInsert_plug _ (h_blex _)]
      | zoneResource | error => rw [← h_state]; exact ih _

theorem commitRqs_plug (l : Loop qDepth) : (blkMqCommitRqs env l).s.plug = l.s.plug := by
  rw [blkMqCommitRqs.eq_def]
  split
  · rfl
  · exact State.commitRqs_plug _ _

theorem enterHctx_plug (l : Loop qDepth) (hctx : Nat) :
    (enterHctx env l hctx).s.plug = l.s.plug := by
  rw [enterHctx]
  split
  · rfl
  · exact commitRqs_plug l

/-- The list and the requests are as without the submission queues. -/
theorem plugIssueDirect_plug (h_blex : ∀ hctx, env.tagSet hctx = .blex) (list : List Request)
    (s : State qDepth) :
    ((blkMqPlugIssueDirect env list s).1, (blkMqPlugIssueDirect env list s).2.plug) =
      Plug.blkMqPlugIssueDirect env.plug list s.plug := by
  rw [Plug.blkMqPlugIssueDirect, ← issueLoop_plug h_blex enterHctx_plug _ list ⟨none, 0, 0, s⟩]
  dsimp only [blkMqPlugIssueDirect]
  split
  · rw [commitRqs_plug]
  · rfl

theorem tryIssueListDirectly_plug (h_blex : ∀ hctx, env.tagSet hctx = .blex) (hctx : Nat)
    (list : List Request) (s : State qDepth) :
    ((blkMqTryIssueListDirectly env hctx list s).1,
        (blkMqTryIssueListDirectly env hctx list s).2.plug) =
      Plug.blkMqTryIssueListDirectly env.plug list s.plug := by
  rw [Plug.blkMqTryIssueListDirectly,
    ← issueLoop_plug h_blex (fun _ _ => rfl) _ list ⟨some hctx, 0, 0, s⟩]
  dsimp only [blkMqTryIssueListDirectly]
  split
  · rw [State.commitRqs_plug]
  · rfl

/-! ## Doorbells -/

/-- The doorbell covers all commands. -/
def Announced (sq : NvmeSq qDepth) : Prop := sq.lastSqTail = sq.ring.tail

/-- Every queue that received a command has its doorbell written. -/
def Covered (s : State qDepth) : Prop := ∀ q ∈ s.received, Announced (s.sq q)

/-- What the functions of the driver keep: a doorbell is written before the tail comes round to
the one that was written last. -/
structure SqWf (sq : NvmeSq qDepth) : Prop where
  tail_lt : sq.ring.tail < qDepth
  last_lt : sq.lastSqTail < qDepth
  room : RingBuffer.next qDepth sq.ring.tail ≠ sq.lastSqTail

/-- How many commands the doorbell does not cover. -/
def unannounced (sq : NvmeSq qDepth) : Nat :=
  RingBuffer.ahead qDepth sq.lastSqTail sq.ring.tail

theorem announced_iff {sq : NvmeSq qDepth} (h : SqWf sq) :
    Announced sq ↔ unannounced sq = 0 :=
  (RingBuffer.ahead_eq_zero_iff h.last_lt).symm

theorem unannounced_lt {sq : NvmeSq qDepth} (h : SqWf sq) : unannounced sq < qDepth - 1 :=
  RingBuffer.ahead_lt h.last_lt h.tail_lt h.room

theorem sqWf_empty (h : 2 ≤ qDepth) : SqWf (⟨.empty, 0⟩ : NvmeSq qDepth) where
  tail_lt := by
    show 0 < qDepth
    omega
  last_lt := by
    show 0 < qDepth
    omega
  room := by
    show RingBuffer.next qDepth 0 ≠ 0
    rw [RingBuffer.next, if_neg (by omega)]
    omega

section Queue

variable {sq : NvmeSq qDepth}

theorem next_ne_self {i : Nat} (h : 2 ≤ qDepth) : RingBuffer.next qDepth i ≠ i := by
  rw [RingBuffer.next]
  split <;> omega

/-- Once there is room, there are two slots. -/
theorem SqWf.two_le (h : SqWf sq) : 2 ≤ qDepth := by
  have h_lt := unannounced_lt h
  omega

theorem writeSqDb_true (sq : NvmeSq qDepth) :
    nvmeWriteSqDb sq true = { sq with lastSqTail := sq.ring.tail } := rfl

theorem writeSqDb_false (sq : NvmeSq qDepth) :
    nvmeWriteSqDb sq false =
      if RingBuffer.next qDepth sq.ring.tail = sq.lastSqTail then
        { sq with lastSqTail := sq.ring.tail }
      else sq := by
  simp only [nvmeWriteSqDb, Bool.not_false, Bool.true_and, bne_iff_ne, ne_eq, ite_not]

theorem commitSq_eq (sq : NvmeSq qDepth) :
    nvmeCommitSq sq = { sq with lastSqTail := sq.ring.tail } := by
  rw [nvmeCommitSq, writeSqDb_true]
  split
  · rfl
  case isFalse h_eq =>
    rw [not_not] at h_eq
    rw [h_eq]

theorem commitSq_announced (sq : NvmeSq qDepth) : Announced (nvmeCommitSq sq) := by
  rw [commitSq_eq]
  rfl

theorem SqWf.commit (h : SqWf sq) : SqWf (nvmeCommitSq sq) := by
  rw [commitSq_eq]
  exact ⟨h.tail_lt, h.tail_lt, next_ne_self h.two_le⟩

theorem queueSq_true (sq : NvmeSq qDepth) (cmd : Overflow.Request) :
    Announced (nvmeQueueSq sq cmd true) := rfl

/-- The doorbell waits, unless the next command would reach it. -/
theorem SqWf.queue (h : SqWf sq) (cmd : Overflow.Request) :
    SqWf (nvmeQueueSq sq cmd false) ∧
      unannounced (nvmeQueueSq sq cmd false) = (unannounced sq + 1) % (qDepth - 1) := by
  have h_next := RingBuffer.next_lt h.tail_lt
  have h_ahead := @RingBuffer.ahead_next qDepth _ _ h.last_lt h.room
  have h_iff := RingBuffer.next_eq_iff h.last_lt h_next
  have h_lt := unannounced_lt h
  rw [h_ahead] at h_iff
  change _ ↔ unannounced sq + 1 = qDepth - 1 at h_iff
  rw [nvmeQueueSq, writeSqDb_false]
  split
  case isTrue h_full =>
    refine ⟨⟨h_next, h_next, next_ne_self h.two_le⟩, ?_⟩
    rw [h_iff.mp h_full, Nat.mod_self]
    exact RingBuffer.ahead_self _
  case isFalse h_room =>
    refine ⟨⟨h_next, h.last_lt, h_room⟩, ?_⟩
    have h_ne := mt h_iff.mpr h_room
    rw [Nat.mod_eq_of_lt (by omega)]
    exact h_ahead

theorem SqWf.queue_last (h : SqWf sq) (cmd : Overflow.Request) :
    SqWf (nvmeQueueSq sq cmd true) := by
  have h_next := RingBuffer.next_lt h.tail_lt
  exact ⟨h_next, h_next, next_ne_self h.two_le⟩

theorem SqWf.queue_any (h : SqWf sq) (cmd : Overflow.Request) (last : Bool) :
    SqWf (nvmeQueueSq sq cmd last) := by
  cases last with
  | false => exact (h.queue cmd).1
  | true => exact h.queue_last cmd

end Queue

/-! ## A queue run writes the doorbell of what it submits -/

section Run

variable {ans : Nat → Answer} {nextTag : Nat → Bool} {kind : TagSetKind}

/-- Requests that were put aside or ended stay so to the end of the loop. -/
theorem dispatchLoop_aside (list : List Request) (turn : Nat) (p : Progress)
    (h : p.zoneList ≠ [] ∨ p.ended ≠ []) :
    (dispatchLoop ans turn list p).zoneList ≠ [] ∨ (dispatchLoop ans turn list p).ended ≠ [] := by
  induction list generalizing turn p with
  | nil => exact h
  | cons rq list ih =>
      rw [dispatchLoop]
      cases (ans turn).prep with
      | noTag | noBudget => exact h
      | ok =>
          dsimp only
          cases (ans turn).status with
          | resource | devResource => exact h
          | ok => exact ih _ _ h
          | zoneResource => exact ih _ _ (.inl (List.cons_ne_nil _ _))
          | error =>
              refine ih _ _ (.inr ?_)
              exact List.append_ne_nil_of_right_ne_nil _ (List.cons_ne_nil _ _)

/-- The loop leaves the queue alone if nothing was accepted.  Otherwise the last command was the
last of the list, or there is a reason to commit. -/
theorem dispatchSq_spec (list : List Request) (turn : Nat) (p : Progress) (sq : NvmeSq qDepth) :
    let p' := dispatchLoop ans turn list p
    let sq' := dispatchSq env ans nextTag turn list sq
    (p'.accepted = p.accepted ∧ sq' = sq ∨ p'.accepted ≠ []) ∧
      (list = [] ∨ p'.list ≠ [] ∨ p'.zoneList ≠ [] ∨ p'.ended ≠ [] ∨ Announced sq') := by
  induction list generalizing turn p sq with
  | nil => exact ⟨.inl ⟨rfl, rfl⟩, .inl rfl⟩
  | cons rq list ih =>
      rw [dispatchLoop, dispatchSq]
      cases (ans turn).prep with
      | noTag | noBudget => exact ⟨.inl ⟨rfl, rfl⟩, .inr (.inl (List.cons_ne_nil _ _))⟩
      | ok =>
          dsimp only
          cases (ans turn).status with
          | resource | devResource => exact ⟨.inl ⟨rfl, rfl⟩, .inr (.inl (List.cons_ne_nil _ _))⟩
          | ok =>
              obtain ⟨h_accepted, h_last⟩ := ih (turn + 1)
                { p with results := p.results ++ [.ok], accepted := p.accepted ++ [rq] }
                (nvmeQueueSq sq (env.iodCmd rq) (list.isEmpty || !nextTag turn))
              refine ⟨.inr ?_, .inr ?_⟩
              · rcases h_accepted with ⟨h_eq, -⟩ | h_ne
                · rw [h_eq]
                  exact List.append_ne_nil_of_right_ne_nil _ (List.cons_ne_nil _ _)
                · exact h_ne
              · cases list with
                | nil => exact .inr (.inr (.inr (queueSq_true _ _)))
                | cons next list => exact h_last.resolve_left (List.cons_ne_nil _ _)
          | zoneResource =>
              refine ⟨(ih (turn + 1) _ sq).1, .inr (.inr ?_)⟩
              exact or_assoc.mp (.inl (dispatchLoop_aside list _ _ (.inl (List.cons_ne_nil _ _))))
          | error =>
              refine ⟨(ih (turn + 1) _ sq).1, .inr (.inr ?_)⟩
              exact or_assoc.mp (.inl (dispatchLoop_aside list _ _
                (.inr (List.append_ne_nil_of_right_ne_nil _ (List.cons_ne_nil _ _)))))

/-- A queue run that submits commands writes their doorbell. -/
theorem dispatchRqList_spec (h_commits : kind.commits = true) (list : List Request)
    (sq : NvmeSq qDepth) :
    (dispatchLoop ans 0 list .start).accepted = [] ∧
        dispatchRqList env kind ans nextTag list sq = sq ∨
      Announced (dispatchRqList env kind ans nextTag list sq) := by
  obtain ⟨h_accepted, h_last⟩ := @dispatchSq_spec qDepth env ans nextTag list 0 .start sq
  rw [dispatchRqList]
  split
  case isTrue => exact .inr (commitSq_announced _)
  case isFalse h_not =>
    rcases h_accepted with ⟨h_nil, h_eq⟩ | h_some
    · exact .inl ⟨h_nil, h_eq⟩
    · -- nothing was left, so that the last command was submitted as such
      have h_done : ¬ (_ ∨ _ ∨ _) := fun h_left => h_not ⟨⟨h_left, h_some⟩, h_commits⟩
      simp only [not_or, not_not, List.append_eq_nil_iff] at h_done
      obtain ⟨⟨h_list, h_zone⟩, h_ended, -⟩ := h_done
      rcases h_last with h_empty | h_ne | h_ne | h_ne | h_announced
      · rw [h_empty] at h_some
        exact absurd rfl h_some
      · exact absurd h_list h_ne
      · exact absurd h_zone h_ne
      · exact absurd h_ended h_ne
      · exact .inr h_announced

theorem SqWf.dispatch (list : List Request) (turn : Nat) {sq : NvmeSq qDepth} (h : SqWf sq) :
    SqWf (dispatchSq env ans nextTag turn list sq) := by
  induction list generalizing turn sq with
  | nil => exact h
  | cons rq list ih =>
      rw [dispatchSq]
      split
      · exact h
      · exact h
      split
      · exact ih _ (h.queue_any _ _)
      · exact h
      · exact h
      · exact ih _ h
      · exact ih _ h

theorem SqWf.dispatchRqList (list : List Request) {sq : NvmeSq qDepth} (h : SqWf sq) :
    SqWf (dispatchRqList env kind ans nextTag list sq) := by
  rw [Doorbell.dispatchRqList]
  split
  · exact (h.dispatch list 0).commit
  · exact h.dispatch list 0

end Run

/-! ## The queues stay well-formed -/

/-- The premise of what follows, for every queue. -/
def State.Wf (s : State qDepth) : Prop := ∀ q, SqWf (s.sq q)

variable {l : Loop qDepth}

theorem State.Wf.update {sq : NvmeSq qDepth} {q : Nat} (h : s.Wf) (h_sq : SqWf sq) (i : Nat) :
    SqWf (Function.update s.sq q sq i) := by
  by_cases h_eq : i = q
  · subst h_eq
    rwa [Function.update_self]
  · rw [Function.update_of_ne h_eq]
    exact h i

theorem State.Wf.commitRqs (h : s.Wf) (hctx : Nat) : (s.commitRqs env hctx).Wf := by
  rw [State.commitRqs]
  split
  · exact State.Wf.update h (h _).commit
  · exact h

theorem State.Wf.dispatchList (h : s.Wf) (hctx : Nat) (ans : Nat → Answer) (nextTag : Nat → Bool)
    (list : List Request) : (s.dispatchList env hctx ans nextTag list).2.Wf :=
  State.Wf.update h ((h _).dispatchRqList list)

theorem State.Wf.doDispatchCtx (h : s.Wf) (ans : Nat → Answer) (hctx turn : Nat)
    (list : List Request) : (State.doDispatchCtx env ans hctx turn list s).Wf := by
  induction list generalizing turn s with
  | nil => exact h
  | cons rq list ih =>
      have h_list := @State.Wf.dispatchList _ env _ h hctx (fun k => ans (turn + k))
        (fun _ => true) [rq]
      rw [State.doDispatchCtx]
      split
      · exact ih h_list (turn + 1)
      · exact h_list

theorem State.Wf.runHwQueue (h : s.Wf) (hctx : Nat) : (blkMqRunHwQueue env s hctx).Wf := by
  dsimp only [blkMqRunHwQueue]
  split
  · split
    · exact State.Wf.update h ((h _).dispatchRqList _)
    · have h_list (plug : Plug.State) :=
        @State.Wf.dispatchList _ env { s with plug := plug } h hctx
      rw [State.dispatchPlain]
      split
      · exact (h_list _ _ _ _).doDispatchCtx _ _ _ _
      · exact h_list _ _ _ _
  · exact h

theorem State.Wf.bypassInsert (h : s.Wf) (rq : Request) (runQueue : Bool) :
    (blkMqRequestBypassInsert env s rq runQueue).Wf := by
  dsimp only [blkMqRequestBypassInsert]
  generalize (if env.tagSet (env.plug.mqHctx rq) = .blex then _ else _) = plug
  have h_stage : State.Wf { s with plug := plug } := h
  split
  · exact h_stage.runHwQueue _
  · exact h_stage

theorem State.Wf.issue (h : s.Wf) (rq : Request) (last : Bool) :
    (blkMqRequestIssueDirectly env s rq last).2.Wf := by
  dsimp only [blkMqRequestIssueDirectly]
  split
  · exact State.Wf.update h ((h _).queue_any _ _)
  · exact h

theorem commitRqs_wf (h : l.s.Wf) : (blkMqCommitRqs env l).s.Wf := by
  rw [blkMqCommitRqs.eq_def]
  split
  · exact h
  · exact h.commitRqs _

theorem enterHctx_wf (h : l.s.Wf) (hctx : Nat) : (enterHctx env l hctx).s.Wf := by
  rw [enterHctx]
  split
  · exact h
  · exact commitRqs_wf h

theorem issueLoop_wf {enter : Loop qDepth → Nat → Loop qDepth}
    (h_enter : ∀ l hctx, l.s.Wf → (enter l hctx).s.Wf) (runQueue : List Request → Bool)
    (list : List Request) (h : l.s.Wf) : (issueLoop env enter runQueue list l).2.s.Wf := by
  induction list generalizing l with
  | nil => exact h
  | cons rq list ih =>
      have h_issue := @State.Wf.issue _ env _ (h_enter l (env.plug.mqHctx rq) h) rq list.isEmpty
      rw [issueLoop]
      dsimp only
      split
      · exact ih h_issue
      · exact h_issue.bypassInsert rq _
      · exact h_issue.bypassInsert rq _
      · exact ih h_issue
      · exact ih h_issue

/-- Both functions keep what the next call relies on. -/
theorem plugIssueDirect_wf (h : s.Wf) (list : List Request) :
    (blkMqPlugIssueDirect env list s).2.Wf := by
  have h_loop := @issueLoop_wf _ env ⟨none, 0, 0, s⟩ (enterHctx env)
    (fun _ hctx h => enterHctx_wf h hctx) (fun _ => true) list h
  dsimp only [blkMqPlugIssueDirect]
  split
  · exact commitRqs_wf h_loop
  · exact h_loop

theorem tryIssueListDirectly_wf (h : s.Wf) (hctx : Nat) (list : List Request) :
    (blkMqTryIssueListDirectly env hctx list s).2.Wf := by
  have h_loop := @issueLoop_wf _ env ⟨some hctx, 0, 0, s⟩ (fun l _ => l) (fun _ _ h => h)
    List.isEmpty list h
  dsimp only [blkMqTryIssueListDirectly]
  split
  · exact h_loop.commitRqs hctx
  · exact h_loop

/-! ## What the loop has left open -/

/-- Only the queue of the current hctx can have commands without a doorbell, and then only if
something was queued since the last commit, which is possible for it. -/
structure At (env : Env) (l : Loop qDepth) : Prop where
  commits : ∀ hctx, l.hctx = some hctx → (env.tagSet hctx).commits = true
  others : ∀ q ∈ l.s.received, (∀ hctx, l.hctx = some hctx → env.driverData hctx ≠ q) →
    Announced (l.s.sq q)
  fresh : l.queued = 0 → Covered l.s

theorem commitRqs_received : (s.commitRqs env hctx).received = s.received := by
  rw [State.commitRqs]
  split <;> rfl

theorem commitRqs_sq_self (h_commits : (env.tagSet hctx).commits = true) :
    (s.commitRqs env hctx).sq (env.driverData hctx) =
      nvmeCommitSq (s.sq (env.driverData hctx)) := by
  rw [State.commitRqs, if_pos h_commits]
  exact Function.update_self ..

theorem commitRqs_sq_ne {q : Nat} (h_ne : env.driverData hctx ≠ q) :
    (s.commitRqs env hctx).sq q = s.sq q := by
  rw [State.commitRqs]
  split
  · exact Function.update_of_ne h_ne.symm ..
  · rfl

theorem At.commit_covered (h : At env l) (h_hctx : l.hctx = some hctx) :
    Covered (l.s.commitRqs env hctx) := by
  intro q h_q
  rw [commitRqs_received] at h_q
  by_cases h_eq : env.driverData hctx = q
  · rw [← h_eq, commitRqs_sq_self (h.commits hctx h_hctx)]
    exact commitSq_announced _
  · rw [commitRqs_sq_ne h_eq]
    apply h.others q h_q
    intro hctx' h_hctx'
    rw [h_hctx] at h_hctx'
    cases h_hctx'
    exact h_eq

theorem At.commit (h : At env l) : Covered (blkMqCommitRqs env l).s := by
  rw [blkMqCommitRqs.eq_def]
  split
  case h_1 h_none =>
    intro q h_q
    apply h.others q h_q
    intro hctx h_hctx
    rw [h_none] at h_hctx
    cases h_hctx
  case h_2 h_hctx => exact h.commit_covered h_hctx

theorem enterHctx_hctx (l : Loop qDepth) (hctx : Nat) :
    (enterHctx env l hctx).hctx = some hctx := by
  rw [enterHctx]
  split
  case isTrue h_same => exact h_same
  case isFalse => rfl

theorem At.enter (h : At env l) (h_commits : (env.tagSet hctx).commits = true) :
    At env (enterHctx env l hctx) := by
  rw [enterHctx]
  split
  · exact h
  · refine ⟨fun c h_c => ?_, fun q h_q _ => h.commit q h_q, fun _ => h.commit⟩
    cases h_c
    exact h_commits

/-! ### One issue -/

/-- The batch goes on as if the request had been issued. -/
def Outcome.quiet : Outcome → Bool
  | .accepted | .staged => true
  | .busy | .failed => false

/-- The request takes one turn, and the answer is `BLK_STS_OK` if it was staged, too. -/
theorem plugIssue_spec (penv : Plug.Env) (s : Plug.State) (rq : Request) :
    let r := Plug.blkMqRequestIssueDirectly penv s rq
    (r.1 = .ok ↔ (outcome (s.now penv)).quiet = true) ∧ r.2.turn = s.turn + 1 := by
  rw [Plug.blkMqRequestIssueDirectly, Plug.tryIssueDirectly, outcome]
  dsimp only
  split
  case isTrue =>
    refine ⟨by simp [Outcome.quiet], ?_⟩
    rw [Plug.blkMqSchedInsertRequest, if_neg Bool.false_ne_true]
    dsimp only
    split <;> rfl
  case isFalse =>
    rw [Bool.not_true, Bool.and_false, if_neg Bool.false_ne_true]
    cases (s.now penv).answer.prep with
    | noBudget | noTag => exact ⟨by simp [Outcome.quiet], rfl⟩
    | ok =>
        dsimp only
        cases (s.now penv).answer.status with
        | ok | resource | devResource | zoneResource | error =>
            exact ⟨by simp [Outcome.quiet, Plug.issueDirectly], rfl⟩

theorem issuePlain_spec (s : Plug.State) (rq : Request) :
    let r := issuePlain env s rq
    (r.1 = .ok ↔ (outcome (s.now env.plug)).quiet = true) ∧ r.2.turn = s.turn + 1 := by
  rw [issuePlain, outcome]
  dsimp only
  split
  case isTrue =>
    refine ⟨by simp [Outcome.quiet], ?_⟩
    rw [insertPlain]
    split <;> rfl
  case isFalse =>
    cases (s.now env.plug).answer.prep with
    | noBudget | noTag => exact ⟨by simp [Outcome.quiet], rfl⟩
    | ok =>
        dsimp only
        cases (s.now env.plug).answer.status with
        | ok | resource | devResource | zoneResource | error =>
            exact ⟨by simp [Outcome.quiet, Plug.issueDirectly], rfl⟩

theorem issue_spec (s : State qDepth) (rq : Request) (last : Bool) :
    ((blkMqRequestIssueDirectly env s rq last).1 = .ok ↔
        (outcome (s.plug.now env.plug)).quiet = true) ∧
      (blkMqRequestIssueDirectly env s rq last).2.plug.turn = s.plug.turn + 1 := by
  obtain ⟨h_ret, h_plug⟩ := @issue_fst_plug _ env s rq last
  rw [h_ret, h_plug]
  split
  · exact plugIssue_spec env.plug s.plug rq
  · exact issuePlain_spec s.plug rq

theorem issue_ret (s : State qDepth) (rq : Request) (last : Bool) :
    (blkMqRequestIssueDirectly env s rq last).1 = .ok ↔
      (outcome (s.plug.now env.plug)).quiet = true :=
  (issue_spec s rq last).1

theorem issue_turn (s : State qDepth) (rq : Request) (last : Bool) :
    (blkMqRequestIssueDirectly env s rq last).2.plug.turn = s.plug.turn + 1 :=
  (issue_spec s rq last).2

/-- A request that is not accepted leaves the queues as they are. -/
theorem issue_skip {last : Bool} (h : outcome (s.plug.now env.plug) ≠ .accepted) :
    (blkMqRequestIssueDirectly env s rq last).2.received = s.received ∧
      (blkMqRequestIssueDirectly env s rq last).2.sq = s.sq := by
  dsimp only [blkMqRequestIssueDirectly]
  rw [if_neg h]
  exact ⟨rfl, rfl⟩

/-- An accepted one is copied to the queue of its hctx. -/
theorem issue_accept {last : Bool} (h : outcome (s.plug.now env.plug) = .accepted) :
    let qid := env.driverData (env.plug.mqHctx rq)
    (blkMqRequestIssueDirectly env s rq last).2.received = s.received ++ [qid] ∧
      (blkMqRequestIssueDirectly env s rq last).2.sq =
        Function.update s.sq qid (nvmeQueueSq (s.sq qid) (env.iodCmd rq) last) := by
  dsimp only [blkMqRequestIssueDirectly]
  rw [if_pos h]
  exact ⟨rfl, rfl⟩

/-- Whatever becomes of the request, the queues of other hctxs are as before. -/
theorem issue_other {last : Bool} {q : Nat} (h_ne : env.driverData (env.plug.mqHctx rq) ≠ q) :
    (q ∈ (blkMqRequestIssueDirectly env s rq last).2.received → q ∈ s.received) ∧
      (blkMqRequestIssueDirectly env s rq last).2.sq q = s.sq q := by
  by_cases h_accepted : outcome (s.plug.now env.plug) = .accepted
  · obtain ⟨h_received, h_sq⟩ := @issue_accept _ env s rq last h_accepted
    rw [h_received, h_sq, Function.update_of_ne h_ne.symm]
    refine ⟨fun h_q => ?_, rfl⟩
    rcases List.mem_append.mp h_q with h_q | h_q
    · exact h_q
    · exact absurd (List.mem_singleton.mp h_q).symm h_ne
  · obtain ⟨h_received, h_sq⟩ := @issue_skip _ env s rq last h_accepted
    rw [h_received, h_sq]
    exact ⟨id, rfl⟩

/-- The request belongs to the current hctx. -/
theorem At.issue_ok (h : At env l) (h_hctx : l.hctx = some (env.plug.mqHctx rq)) (last : Bool) :
    At env { l with
      queued := l.queued + 1
      s := (blkMqRequestIssueDirectly env l.s rq last).2 } where
  commits := h.commits
  others q h_q h_ne := by
    obtain ⟨h_received, h_sq⟩ := @issue_other _ env l.s rq last q (h_ne _ h_hctx)
    rw [h_sq]
    exact h.others q (h_received h_q) h_ne
  fresh h_zero := absurd h_zero (Nat.succ_ne_zero _)

theorem At.of_eq {l' : Loop qDepth} (h : At env l) (h_hctx : l'.hctx = l.hctx)
    (h_queued : l'.queued = l.queued) (h_received : l'.s.received = l.s.received)
    (h_sq : l'.s.sq = l.s.sq) : At env l' := by
  refine ⟨fun c h_c => h.commits c (h_hctx ▸ h_c), fun q h_q h_ne => ?_, fun h_zero q h_q => ?_⟩
  · rw [h_sq]
    rw [h_received] at h_q
    rw [h_hctx] at h_ne
    exact h.others q h_q h_ne
  · rw [h_sq]
    rw [h_received] at h_q
    rw [h_queued] at h_zero
    exact h.fresh h_zero q h_q

/-- Commands for the queue of `hctx` at most, whose doorbell is written if there are any. -/
structure Covers (env : Env) (hctx : Nat) (s s' : State qDepth) : Prop where
  others : ∀ q, env.driverData hctx ≠ q → (q ∈ s'.received → q ∈ s.received) ∧ s'.sq q = s.sq q
  own : s'.received = s.received ∧ s'.sq (env.driverData hctx) = s.sq (env.driverData hctx) ∨
    Announced (s'.sq (env.driverData hctx))

theorem Covers.refl (s : State qDepth) (plug : Plug.State) :
    Covers env hctx s { s with plug := plug } where
  others _ _ := ⟨id, rfl⟩
  own := .inl ⟨rfl, rfl⟩

theorem Covers.trans {s' s'' : State qDepth} (h : Covers env hctx s s')
    (h' : Covers env hctx s' s'') : Covers env hctx s s'' where
  others q h_ne := by
    obtain ⟨h_received, h_sq⟩ := h'.others q h_ne
    rw [h_sq]
    exact ⟨fun h_q => (h.others q h_ne).1 (h_received h_q), (h.others q h_ne).2⟩
  own := by
    rcases h'.own with ⟨h_received, h_sq⟩ | h_announced
    · rw [h_received, h_sq]
      exact h.own
    · exact .inr h_announced

/-- A list that is dispatched where `commit_rqs` is set. -/
theorem dispatch_covers (h_commits : (env.tagSet hctx).commits = true) (ans : Nat → Answer)
    (nextTag : Nat → Bool) (list : List Request) (s : State qDepth) (plug : Plug.State) :
    Covers env hctx s
      { plug := plug
        sq := Function.update s.sq (env.driverData hctx)
          (dispatchRqList env (env.tagSet hctx) ans nextTag list (s.sq (env.driverData hctx)))
        received := s.received ++
          (dispatchLoop ans 0 list .start).accepted.map fun _ => env.driverData hctx } where
  others q h_ne := by
    refine ⟨fun h_q => ?_, Function.update_of_ne h_ne.symm ..⟩
    rcases List.mem_append.mp h_q with h_q | h_q
    · exact h_q
    · obtain ⟨-, -, h_eq⟩ := List.mem_map.mp h_q
      exact absurd h_eq h_ne
  own := by
    dsimp only
    rw [Function.update_self]
    rcases @dispatchRqList_spec _ env ans nextTag _ h_commits list (s.sq (env.driverData hctx)) with
      ⟨h_nil, h_same⟩ | h_announced
    · rw [h_nil, h_same, List.map_nil, List.append_nil]
      exact .inl ⟨rfl, rfl⟩
    · exact .inr h_announced

theorem dispatchList_covers (h_commits : (env.tagSet hctx).commits = true) (ans : Nat → Answer)
    (nextTag : Nat → Bool) (list : List Request) (s : State qDepth) :
    Covers env hctx s (s.dispatchList env hctx ans nextTag list).2 :=
  dispatch_covers h_commits ans nextTag list s _

theorem doDispatchCtx_covers (h_commits : (env.tagSet hctx).commits = true) (ans : Nat → Answer)
    (turn : Nat) (list : List Request) (s : State qDepth) :
    Covers env hctx s (s.doDispatchCtx env ans hctx turn list) := by
  induction list generalizing turn s with
  | nil => exact .refl s s.plug
  | cons rq list ih =>
      have h_list := dispatchList_covers h_commits (fun k => ans (turn + k)) (fun _ => true) [rq] s
      rw [State.doDispatchCtx]
      split
      · exact h_list.trans (ih (turn + 1) _)
      · exact h_list

theorem dispatchPlain_covers (h_commits : (env.tagSet hctx).commits = true) (ans : Nat → Answer)
    (nextTag : Nat → Bool) (fromCtxs : List Request) (s : State qDepth) :
    Covers env hctx s (s.dispatchPlain env hctx ans nextTag fromCtxs) := by
  have h_list (plug : Plug.State) := (Covers.refl s plug).trans
    (dispatchList_covers h_commits ans nextTag (s.plug.hctxs hctx).dispatch { s with plug := plug })
  rw [State.dispatchPlain]
  split
  · exact (h_list _).trans (doDispatchCtx_covers h_commits _ _ _ _)
  · exact h_list _

/-- A queue run writes the doorbell of what it submits. -/
theorem runHwQueue_covers (h_commits : (env.tagSet hctx).commits = true) (s : State qDepth) :
    Covers env hctx s (blkMqRunHwQueue env s hctx) := by
  dsimp only [blkMqRunHwQueue]
  split
  · apply (Covers.refl s s.plug.tick).trans
    split
    · exact dispatch_covers h_commits _ _ _ _ _
    · exact dispatchPlain_covers h_commits _ _ _ _
  · exact .refl s s.plug.tick

theorem At.of_covers {s' : State qDepth} (h : At env l) (h_hctx : l.hctx = some hctx)
    (h_covers : Covers env hctx l.s s') : At env { l with s := s' } where
  commits := h.commits
  others q h_q h_ne := by
    obtain ⟨h_received, h_sq⟩ := h_covers.others q (h_ne hctx h_hctx)
    rw [h_sq]
    exact h.others q (h_received h_q) h_ne
  fresh h_zero q h_q := by
    by_cases h_eq : env.driverData hctx = q
    · subst h_eq
      rcases h_covers.own with ⟨h_received, h_sq⟩ | h_announced
      · rw [h_sq]
        exact h.fresh h_zero _ (h_received ▸ h_q)
      · exact h_announced
    · obtain ⟨h_received, h_sq⟩ := h_covers.others q h_eq
      rw [h_sq]
      exact h.fresh h_zero q (h_received h_q)

theorem At.bypassInsert (h : At env l) (h_hctx : l.hctx = some (env.plug.mqHctx rq))
    (runQueue : Bool) :
    At env { l with s := blkMqRequestBypassInsert env l.s rq runQueue } := by
  apply h.of_covers h_hctx
  dsimp only [blkMqRequestBypassInsert]
  split
  · exact (Covers.refl _ _).trans (runHwQueue_covers (h.commits _ h_hctx) _)
  · exact .refl _ _

/-! ### The loop -/

/-- Whatever happens, the loop leaves at most the current queue open. -/
theorem At.issueLoop (runQueue : List Request → Bool) (list : List Request)
    (h_list : ∀ rq ∈ list, (env.tagSet (env.plug.mqHctx rq)).commits = true) (h : At env l) :
    At env (issueLoop env (enterHctx env) runQueue list l).2 := by
  induction list generalizing l with
  | nil => exact h
  | cons rq list ih =>
      obtain ⟨h_commits, h_list⟩ := List.forall_mem_cons.mp h_list
      have h_enter := h.enter h_commits
      have h_hctx := @enterHctx_hctx _ env l (env.plug.mqHctx rq)
      rw [Doorbell.issueLoop]
      generalize enterHctx env l (env.plug.mqHctx rq) = l at h_enter h_hctx ⊢
      have h_skip (h_ret : (blkMqRequestIssueDirectly env l.s rq list.isEmpty).1 ≠ .ok) :
          At env { l with
            errors := l.errors + 1
            s := (blkMqRequestIssueDirectly env l.s rq list.isEmpty).2 } := by
        have h_outcome : outcome (l.s.plug.now env.plug) ≠ .accepted := by
          intro h_accepted
          rw [Ne, issue_ret, h_accepted] at h_ret
          exact h_ret rfl
        obtain ⟨h_received, h_sq⟩ := @issue_skip _ env l.s rq list.isEmpty h_outcome
        exact h_enter.of_eq rfl rfl h_received h_sq
      have h_ok := h_enter.issue_ok h_hctx list.isEmpty
      generalize blkMqRequestIssueDirectly env l.s rq list.isEmpty = r at h_skip h_ok ⊢
      obtain ⟨ret, s⟩ := r
      cases ret with
      | ok => exact ih h_list h_ok
      | resource | devResource => exact (h_skip nofun).bypassInsert h_hctx _
      | zoneResource | error => exact ih h_list ((h_skip nofun).of_eq rfl rfl rfl rfl)

/-! ## A batch that counts as issued -/

/-- The hctxs of the requests, and what becomes of the requests while each takes one turn. -/
def issues (env : Env) (turn : Nat) (list : List Request) : List (Nat × Outcome) :=
  (list.zipIdx turn).map fun r => (env.plug.mqHctx r.1, outcome (env.plug.turns r.2))

section History

variable (env : Env) (sq : Nat → NvmeSq qDepth) (past : List (Nat × Outcome))

/-- What a queue owes when the requests before, newest first, are done with: nothing if one of
them was for a hctx of the queue, since that hctx was left with a commit. -/
def settled (q : Nat) : Nat :=
  if ∃ i ∈ past, env.driverData i.1 = q then 0 else unannounced (sq q)

/-- The commands among the newest requests for `hctx`. -/
def copied (hctx : Nat) : Nat := (past.takeWhile (·.1 == hctx)).countP (·.2 == .accepted)

/-- What the queue of `hctx` owes: a doorbell that waits is written when it is `qDepth - 1`
commands behind. -/
def owed (hctx : Nat) : Nat :=
  (settled env sq (past.dropWhile (·.1 == hctx)) (env.driverData hctx) + copied past hctx) %
    (qDepth - 1)

/-- All requests count as issued, and the newest one is staged behind commands of its hctx that
are owed a doorbell. -/
def StrandedBy : List (Nat × Outcome) → Prop
  | (hctx, .staged) :: past =>
      (∀ i ∈ past, i.2.quiet = true) ∧ copied past hctx ≠ 0 ∧ owed env sq past hctx ≠ 0
  | _ => False

end History

/-- The condition on which the last commands of a batch are left without a doorbell. -/
def Stranded (env : Env) (list : List Request) (s : State qDepth) : Prop :=
  StrandedBy env s.sq (issues env s.plug.turn list).reverse

section Quiet

variable {sq : Nat → NvmeSq qDepth} {past : List (Nat × Outcome)} {o : Outcome}

theorem issues_cons (turn : Nat) (rq : Request) (list : List Request) :
    issues env turn (rq :: list) =
      (env.plug.mqHctx rq, outcome (env.plug.turns turn)) :: issues env (turn + 1) list := by
  rw [issues, List.zipIdx_cons, List.map_cons, issues]

theorem settled_of_mem {i : Nat × Outcome} {q : Nat} (h_mem : i ∈ past)
    (h_eq : env.driverData i.1 = q) : settled env sq past q = 0 :=
  if_pos ⟨i, h_mem, h_eq⟩

theorem settled_cons_ne {q : Nat} (h_ne : env.driverData hctx ≠ q) :
    settled env sq ((hctx, o) :: past) q = settled env sq past q := by
  rw [settled, settled]
  congr 1
  rw [List.exists_mem_cons_iff, or_iff_right h_ne]

theorem copied_cons_self :
    copied ((hctx, o) :: past) hctx = copied past hctx + if o = .accepted then 1 else 0 := by
  rw [copied, List.takeWhile_cons, if_pos (beq_self_eq_true hctx), List.countP_cons, copied]
  simp only [beq_iff_eq]

theorem owed_cons_self :
    owed env sq ((hctx, o) :: past) hctx =
      (owed env sq past hctx + if o = .accepted then 1 else 0) % (qDepth - 1) := by
  rw [owed, List.dropWhile_cons, if_pos (beq_self_eq_true hctx), copied_cons_self, owed,
    Nat.mod_add_mod, Nat.add_assoc]

/-- Nothing was copied for a hctx since another one was current. -/
theorem owed_of_head_ne (h_head : past.head?.map Prod.fst ≠ some hctx) :
    owed env sq past hctx = settled env sq past (env.driverData hctx) % (qDepth - 1) := by
  cases past with
  | nil => rfl
  | cons i past =>
      have h_ne : ¬ (i.1 == hctx) = true := by
        rw [beq_iff_eq]
        exact fun h_eq => h_head (congrArg some h_eq)
      rw [owed, copied, List.takeWhile_cons, if_neg h_ne, List.dropWhile_cons, if_neg h_ne]
      rfl

theorem owed_lt (h : 2 ≤ qDepth) : owed env sq past hctx < qDepth - 1 :=
  Nat.mod_lt _ (by omega)

theorem StrandedBy.quiet (h : StrandedBy env sq past) : ∀ i ∈ past, i.2.quiet = true := by
  rcases past with - | ⟨⟨hctx, o⟩, past⟩
  · cases h
  · cases o with
    | staged => exact List.forall_mem_cons.mpr ⟨rfl, h.1⟩
    | accepted | busy | failed => cases h

/-- All requests so far count as issued. -/
structure Issued (env : Env) (past : List (Nat × Outcome)) (s : State qDepth) : Prop where
  wf : ∀ q, SqWf (s.sq q)
  quiet : ∀ i ∈ past, i.2.quiet = true
  received : ∀ q, q ∈ s.received ↔ ∃ i ∈ past, i.2 = .accepted ∧ env.driverData i.1 = q

/-- Before a request of `hctx` is issued. -/
structure Owes (env : Env) (sq : Nat → NvmeSq qDepth) (past : List (Nat × Outcome)) (hctx : Nat)
    (s : State qDepth) : Prop extends Issued env past s where
  current : unannounced (s.sq (env.driverData hctx)) = owed env sq past hctx
  others : ∀ q, env.driverData hctx ≠ q → unannounced (s.sq q) = settled env sq past q

/-- Between two requests. -/
structure Ready (env : Env) (sq : Nat → NvmeSq qDepth) (past : List (Nat × Outcome))
    (l : Loop qDepth) : Prop extends Issued env past l.s where
  commits : ∀ hctx, l.hctx = some hctx → (env.tagSet hctx).commits = true
  head : past.head?.map Prod.fst = l.hctx
  current : ∀ hctx, l.hctx = some hctx →
    unannounced (l.s.sq (env.driverData hctx)) = owed env sq past hctx
  others : ∀ q, (∀ hctx, l.hctx = some hctx → env.driverData hctx ≠ q) →
    unannounced (l.s.sq q) = settled env sq past q

theorem ready_start (h_sq : s.Wf) (h_received : s.received = []) :
    Ready env s.sq [] ⟨none, 0, 0, s⟩ where
  wf := h_sq
  quiet := nofun
  received q := by simp [h_received]
  commits := nofun
  head := rfl
  current := nofun
  others q _ := by rw [settled, if_neg (by simp)]

theorem Issued.commit (h : Issued env past s) (hctx : Nat) :
    Issued env past (s.commitRqs env hctx) where
  wf := State.Wf.commitRqs h.wf hctx
  quiet := h.quiet
  received := by
    rw [commitRqs_received]
    exact h.received

/-- After a commit for the current hctx, if any, all queues are settled. -/
theorem Ready.commit (h : Ready env sq past l) :
    Issued env past (blkMqCommitRqs env l).s ∧
      ∀ q, unannounced ((blkMqCommitRqs env l).s.sq q) = settled env sq past q := by
  rw [blkMqCommitRqs.eq_def]
  split
  case h_1 h_none => exact ⟨h.toIssued, fun q => h.others q (by simp [h_none])⟩
  case h_2 c h_hctx =>
    refine ⟨h.toIssued.commit c, fun q => ?_⟩
    by_cases h_eq : env.driverData c = q
    · subst h_eq
      have h_head := h.head
      rw [h_hctx, Option.map_eq_some_iff] at h_head
      obtain ⟨i, h_i, h_c⟩ := h_head
      rw [settled_of_mem (List.mem_of_head? h_i) (by rw [h_c])]
      apply (announced_iff ((h.toIssued.commit c).wf _)).mp
      rw [commitRqs_sq_self (h.commits c h_hctx)]
      exact commitSq_announced _
    · dsimp only
      rw [commitRqs_sq_ne h_eq]
      apply h.others q
      intro c' h_c'
      rw [h_hctx] at h_c'
      cases h_c'
      exact h_eq

theorem Ready.enter (h : Ready env sq past l) (hctx : Nat) :
    Owes env sq past hctx (enterHctx env l hctx).s := by
  rw [enterHctx]
  split
  case isTrue h_same =>
    refine ⟨h.toIssued, h.current hctx h_same, fun q h_ne => h.others q fun c h_c => ?_⟩
    rw [h_same] at h_c
    cases h_c
    exact h_ne
  case isFalse h_switch =>
    obtain ⟨h_issued, h_settled⟩ := h.commit
    refine ⟨h_issued, ?_, fun q _ => h_settled q⟩
    have h_lt := unannounced_lt (h_issued.wf (env.driverData hctx))
    rw [h_settled] at h_lt
    show unannounced ((blkMqCommitRqs env l).s.sq (env.driverData hctx)) = _
    rw [h_settled, owed_of_head_ne (by rw [h.head]; exact h_switch), Nat.mod_eq_of_lt h_lt]

/-- A request that counts as issued, and is not the last of the list. -/
theorem Owes.issue {queued errors : Nat} (h : Owes env sq past (env.plug.mqHctx rq) s)
    (h_commits : (env.tagSet (env.plug.mqHctx rq)).commits = true)
    (h_quiet : (outcome (s.plug.now env.plug)).quiet = true) :
    Ready env sq ((env.plug.mqHctx rq, outcome (s.plug.now env.plug)) :: past)
      ⟨some (env.plug.mqHctx rq), queued, errors,
        (blkMqRequestIssueDirectly env s rq false).2⟩ := by
  have h_others (q : Nat) (h_ne : env.driverData (env.plug.mqHctx rq) ≠ q) :
      unannounced ((blkMqRequestIssueDirectly env s rq false).2.sq q) =
        settled env sq ((env.plug.mqHctx rq, outcome (s.plug.now env.plug)) :: past) q := by
    rw [(issue_other h_ne).2, settled_cons_ne h_ne]
    exact h.others q h_ne
  have h_past : ∀ i ∈ (env.plug.mqHctx rq, outcome (s.plug.now env.plug)) :: past,
      i.2.quiet = true := List.forall_mem_cons.mpr ⟨h_quiet, h.quiet⟩
  have h_current (c : Nat) (h_c : some (env.plug.mqHctx rq) = some c) :
      (env.tagSet c).commits = true := by
    cases h_c
    exact h_commits
  by_cases h_accepted : outcome (s.plug.now env.plug) = .accepted
  · obtain ⟨h_received, h_sq⟩ := @issue_accept _ env s rq false h_accepted
    obtain ⟨h_wf, h_unannounced⟩ :=
      (h.wf (env.driverData (env.plug.mqHctx rq))).queue (env.iodCmd rq)
    refine ⟨⟨fun q => ?_, h_past, fun q => ?_⟩, h_current, rfl, fun c h_c => ?_, fun q h_ne =>
      h_others q (h_ne _ rfl)⟩
    · by_cases h_eq : env.driverData (env.plug.mqHctx rq) = q
      · subst h_eq
        rw [h_sq, Function.update_self]
        exact h_wf
      · rw [(issue_other h_eq).2]
        exact h.wf q
    · rw [h_received, List.mem_append, List.mem_singleton, h.received q,
        List.exists_mem_cons_iff, or_comm, and_iff_right h_accepted, eq_comm]
    · cases h_c
      rw [h_sq, Function.update_self, h_unannounced, owed_cons_self, h.current, if_pos h_accepted]
  · obtain ⟨h_received, h_sq⟩ := @issue_skip _ env s rq false h_accepted
    refine ⟨⟨fun q => ?_, h_past, fun q => ?_⟩, h_current, rfl, fun c h_c => ?_, fun q h_ne =>
      h_others q (h_ne _ rfl)⟩
    · rw [h_sq]
      exact h.wf q
    · rw [h_received, h.received q, List.exists_mem_cons_iff,
        or_iff_right fun h_and => h_accepted h_and.1]
    · cases h_c
      rw [h_sq, h.current, owed_cons_self, if_neg h_accepted, Nat.add_zero,
        Nat.mod_eq_of_lt (owed_lt (h.wf 0).two_le)]

/-- Of the queues that received a command, only the current one can owe something. -/
theorem Owes.announced (h : Owes env sq past hctx s) {q : Nat} (h_q : q ∈ s.received)
    (h_ne : env.driverData hctx ≠ q) : Announced (s.sq q) := by
  obtain ⟨i, h_i, -, h_queue⟩ := (h.received q).mp h_q
  rw [announced_iff (h.wf q), h.others q h_ne]
  exact settled_of_mem h_i h_queue

theorem Owes.covered_iff (h : Owes env sq past hctx s) :
    Covered s ↔ (copied past hctx ≠ 0 → owed env sq past hctx = 0) := by
  have h_current : Announced (s.sq (env.driverData hctx)) ↔ owed env sq past hctx = 0 := by
    rw [announced_iff (h.wf _), h.current]
  constructor
  · intro h_covered h_copied
    obtain ⟨i, h_i, h_accepted⟩ := List.countP_pos_iff.mp (Nat.pos_of_ne_zero h_copied)
    have h_hctx : i.1 = hctx :=
      beq_iff_eq.mp (List.mem_takeWhile_imp (p := fun i : Nat × Outcome => i.1 == hctx) h_i)
    apply h_current.mp
    apply h_covered
    rw [h.received]
    exact ⟨i, List.takeWhile_subset _ h_i, beq_iff_eq.mp h_accepted, by rw [h_hctx]⟩
  · intro h_owed q h_q
    by_cases h_eq : env.driverData hctx = q
    · subst h_eq
      rw [h_current]
      by_cases h_copied : copied past hctx = 0
      · -- its commands are older than the last commit for it
        obtain ⟨i, h_i, h_accepted, h_queue⟩ := (h.received _).mp h_q
        have h_old : i ∈ past.dropWhile (·.1 == hctx) := by
          rw [← List.takeWhile_append_dropWhile (p := (·.1 == hctx)) (l := past)] at h_i
          rcases List.mem_append.mp h_i with h_new | h_old
          · have h_none := List.countP_eq_zero.mp h_copied i h_new
            exact absurd (beq_iff_eq.mpr h_accepted) h_none
          · exact h_old
        rw [owed, settled_of_mem h_old h_queue, h_copied]
        exact Nat.zero_mod _
      · exact h_owed h_copied
    · exact h.announced h_q h_eq

/-- The last request of the list. -/
theorem Owes.issue_last (h : Owes env sq past (env.plug.mqHctx rq) s)
    (h_quiet : (outcome (s.plug.now env.plug)).quiet = true) :
    Covered (blkMqRequestIssueDirectly env s rq true).2 ↔
      ¬ StrandedBy env sq
        ((env.plug.mqHctx rq, outcome (s.plug.now env.plug)) :: past) := by
  cases h_outcome : outcome (s.plug.now env.plug) with
  | accepted =>
      obtain ⟨-, h_sq⟩ := @issue_accept _ env s rq true h_outcome
      refine iff_of_true (fun q h_q => ?_) (fun h_stranded => h_stranded)
      by_cases h_eq : env.driverData (env.plug.mqHctx rq) = q
      · subst h_eq
        rw [h_sq, Function.update_self]
        exact queueSq_true _ _
      · obtain ⟨h_received, h_same⟩ := @issue_other _ env s rq true q h_eq
        rw [h_same]
        exact h.announced (h_received h_q) h_eq
  | staged =>
      obtain ⟨h_received, h_sq⟩ :=
        @issue_skip _ env s rq true (by rw [h_outcome]; exact Outcome.noConfusion)
      have h_same : Covered (blkMqRequestIssueDirectly env s rq true).2 ↔ Covered s := by
        rw [Covered, h_received, h_sq, Covered]
      rw [h_same, h.covered_iff, StrandedBy, and_iff_right h.quiet, not_and, not_not]
  | busy | failed =>
      rw [h_outcome] at h_quiet
      cases h_quiet

/-! ### The loop -/

variable {runQueue : List Request → Bool} {list : List Request}

theorem enterHctx_errors (l : Loop qDepth) (hctx : Nat) :
    (enterHctx env l hctx).errors = l.errors := by
  rw [enterHctx]
  split
  · rfl
  · dsimp only
    rw [blkMqCommitRqs.eq_def]
    split <;> rfl

theorem enterHctx_now (l : Loop qDepth) (hctx : Nat) :
    (enterHctx env l hctx).s.plug.now env.plug = l.s.plug.now env.plug := by
  rw [enterHctx_plug]

theorem issueLoop_ok (h_quiet : (outcome (l.s.plug.now env.plug)).quiet = true) :
    let l' := enterHctx env l (env.plug.mqHctx rq)
    issueLoop env (enterHctx env) runQueue (rq :: list) l =
      issueLoop env (enterHctx env) runQueue list { l' with
        queued := l'.queued + 1
        s := (blkMqRequestIssueDirectly env l'.s rq list.isEmpty).2 } := by
  have h_ret := (@issue_ret _ env (enterHctx env l (env.plug.mqHctx rq)).s rq list.isEmpty).mpr
    (by rw [enterHctx_now]; exact h_quiet)
  rw [issueLoop]
  dsimp only
  rw [h_ret]

theorem issueLoop_errors_le (list : List Request) (l : Loop qDepth) :
    l.errors ≤ (issueLoop env (enterHctx env) runQueue list l).2.errors := by
  induction list generalizing l with
  | nil => exact Nat.le_refl _
  | cons rq list ih =>
      rw [issueLoop, ← @enterHctx_errors _ env l (env.plug.mqHctx rq)]
      dsimp only
      split
      · refine Nat.le_trans ?_ (ih _)
        exact Nat.le_refl _
      · exact Nat.le_succ _
      · exact Nat.le_succ _
      · refine Nat.le_trans ?_ (ih _)
        exact Nat.le_succ _
      · refine Nat.le_trans ?_ (ih _)
        exact Nat.le_succ _

/-- Only an error leaves something of the list. -/
theorem issueLoop_left (list : List Request) (l : Loop qDepth)
    (h_errors : (issueLoop env (enterHctx env) runQueue list l).2.errors = 0) :
    ¬ (issueLoop env (enterHctx env) runQueue list l).1 ≠ [] := by
  rw [not_not]
  induction list generalizing l with
  | nil => rfl
  | cons rq list ih =>
      rw [issueLoop] at h_errors ⊢
      dsimp only at h_errors ⊢
      split at h_errors
      · exact ih _ h_errors
      · cases h_errors
      · cases h_errors
      · exact ih _ h_errors
      · exact ih _ h_errors

/-- A request that does not count as issued is an error. -/
theorem issueLoop_error (h_quiet : (outcome (l.s.plug.now env.plug)).quiet ≠ true) :
    (issueLoop env (enterHctx env) runQueue (rq :: list) l).2.errors ≠ 0 := by
  have h_ret := mt (@issue_ret _ env (enterHctx env l (env.plug.mqHctx rq)).s rq list.isEmpty).mp
    (by rw [enterHctx_now]; exact h_quiet)
  have h_le (l : Loop qDepth) := @issueLoop_errors_le _ env runQueue list l
  rw [issueLoop]
  dsimp only
  split
  case h_1 h_ok => exact absurd h_ok h_ret
  case h_2 | h_3 => exact Nat.succ_ne_zero _
  case h_4 | h_5 =>
    refine Nat.ne_of_gt (Nat.lt_of_lt_of_le ?_ (h_le _))
    exact Nat.succ_pos _

theorem issueLoop_errors_iff (list : List Request) (l : Loop qDepth) :
    (issueLoop env (enterHctx env) runQueue list l).2.errors = 0 ↔
      l.errors = 0 ∧ ∀ i ∈ issues env l.s.plug.turn list, i.2.quiet = true := by
  induction list generalizing l with
  | nil => simp [issueLoop, issues]
  | cons rq list ih =>
      rw [issues_cons, List.forall_mem_cons]
      by_cases h_quiet : (outcome (l.s.plug.now env.plug)).quiet = true
      · rw [issueLoop_ok h_quiet, ih]
        dsimp only
        rw [issue_turn, enterHctx_plug, enterHctx_errors]
        exact and_congr_right fun _ => (and_iff_right h_quiet).symm
      · exact iff_of_false (issueLoop_error h_quiet) fun h_and => h_quiet h_and.2.1

/-- A loop without errors. -/
theorem issueLoop_covered_iff (list : List Request) (h_list : list ≠ [])
    (h_commits : ∀ rq ∈ list, (env.tagSet (env.plug.mqHctx rq)).commits = true)
    (h : Ready env sq past l)
    (h_errors : (issueLoop env (enterHctx env) runQueue list l).2.errors = 0) :
    Covered (issueLoop env (enterHctx env) runQueue list l).2.s ↔
      ¬ StrandedBy env sq ((issues env l.s.plug.turn list).reverse ++ past) := by
  induction list generalizing l past with
  | nil => exact absurd rfl h_list
  | cons rq list ih =>
      obtain ⟨h_rq, h_commits⟩ := List.forall_mem_cons.mp h_commits
      have h_quiet : (outcome (l.s.plug.now env.plug)).quiet = true :=
        not_not.mp fun h_ne => issueLoop_error h_ne h_errors
      have h_owes := h.enter (env.plug.mqHctx rq)
      rw [issueLoop_ok h_quiet] at h_errors ⊢
      rw [issues_cons, List.reverse_cons, List.append_assoc, List.singleton_append]
      have h_hctx := @enterHctx_hctx _ env l (env.plug.mqHctx rq)
      have h_now := @enterHctx_now _ env l (env.plug.mqHctx rq)
      have h_plug := @enterHctx_plug _ env l (env.plug.mqHctx rq)
      generalize enterHctx env l (env.plug.mqHctx rq) = l' at h_owes h_errors h_hctx h_now h_plug ⊢
      cases list with
      | nil =>
          have h_last := h_owes.issue_last (by rw [h_now]; exact h_quiet)
          rw [h_now] at h_last
          exact h_last
      | cons next list =>
          have h_ready := @Owes.issue _ env l'.s rq sq past (l'.queued + 1) l'.errors h_owes h_rq
            (by rw [h_now]; exact h_quiet)
          rw [← h_hctx, h_now] at h_ready
          have h_rest := ih (List.cons_ne_nil _ _) h_commits h_ready h_errors
          rw [issue_turn, h_plug] at h_rest
          exact h_rest

end Quiet

/-! ## The two functions -/

variable {list : List Request}

/-- In a list of one hctx there is no other hctx to leave. -/
theorem issueLoop_oneHctx {runQueue : List Request → Bool} (list : List Request)
    (h_list : ∀ rq ∈ list, env.plug.mqHctx rq = hctx) (h_hctx : l.hctx = some hctx) :
    issueLoop env (fun l _ => l) runQueue list l =
        issueLoop env (enterHctx env) runQueue list l ∧
      (issueLoop env (enterHctx env) runQueue list l).2.hctx = some hctx := by
  induction list generalizing l with
  | nil => exact ⟨rfl, h_hctx⟩
  | cons rq list ih =>
      obtain ⟨h_rq, h_rest⟩ := List.forall_mem_cons.mp h_list
      have h_same : enterHctx env l (env.plug.mqHctx rq) = l := by
        rw [h_rq, enterHctx, if_pos h_hctx]
      rw [issueLoop, issueLoop, h_same]
      dsimp only
      split
      · exact ih h_rest h_hctx
      · exact ⟨rfl, h_hctx⟩
      · exact ⟨rfl, h_hctx⟩
      · exact ih h_rest h_hctx
      · exact ih h_rest h_hctx

/-- A loop that starts on the first request's hctx. -/
theorem issueLoop_start {runQueue : List Request → Bool} (h_list : list ≠ [])
    (h_hctx : ∀ rq ∈ list, env.plug.mqHctx rq = hctx) (s : State qDepth) :
    issueLoop env (enterHctx env) runQueue list ⟨none, 0, 0, s⟩ =
      issueLoop env (enterHctx env) runQueue list ⟨some hctx, 0, 0, s⟩ := by
  cases list with
  | nil => exact absurd rfl h_list
  | cons rq list =>
      have h_rq := h_hctx rq (List.mem_cons_self ..)
      have h_enter : enterHctx env ⟨none, 0, 0, s⟩ (env.plug.mqHctx rq) =
          enterHctx env ⟨some hctx, 0, 0, s⟩ (env.plug.mqHctx rq) := by
        rw [h_rq, enterHctx, enterHctx, if_neg nofun, if_pos rfl]
        rfl
      rw [issueLoop, issueLoop, h_enter]

theorem at_start (h_received : s.received = []) : At env ⟨none, 0, 0, s⟩ where
  commits := nofun
  others q h_q := by
    rw [h_received] at h_q
    cases h_q
  fresh _ q h_q := by
    rw [h_received] at h_q
    cases h_q

/-- A loop without errors has covered its commands unless they are stranded; they are not in a
loop with errors. -/
theorem issueLoop_run (runQueue : List Request → Bool) (h_list : list ≠ [])
    (h_commits : ∀ rq ∈ list, (env.tagSet (env.plug.mqHctx rq)).commits = true)
    (h_sq : s.Wf) (h_received : s.received = []) :
    let l := (issueLoop env (enterHctx env) runQueue list ⟨none, 0, 0, s⟩).2
    (l.errors = 0 → (Covered l.s ↔ ¬ Stranded env list s)) ∧
      (l.errors ≠ 0 → ¬ Stranded env list s) := by
  refine ⟨fun h_errors => ?_, fun h_errors h_stranded => h_errors ?_⟩
  · have h_iff := issueLoop_covered_iff list h_list h_commits (ready_start h_sq h_received) h_errors
    rwa [List.append_nil] at h_iff
  · rw [issueLoop_errors_iff]
    exact ⟨rfl, fun i h_i => h_stranded.quiet i (List.mem_reverse.mpr h_i)⟩

theorem covered_of_received (h_received : s.received = []) : Covered s := by
  intro q h_q
  rw [h_received] at h_q
  cases h_q

theorem plugIssueDirect_covered_iff (list : List Request)
    (h_commits : ∀ rq ∈ list, (env.tagSet (env.plug.mqHctx rq)).commits = true) (h_sq : s.Wf)
    (h_received : s.received = []) :
    Covered (blkMqPlugIssueDirect env list s).2 ↔ ¬ Stranded env list s := by
  by_cases h_list : list = []
  · subst h_list
    exact iff_of_true (covered_of_received h_received) fun h_stranded => h_stranded
  · obtain ⟨h_quiet, h_error⟩ :=
      @issueLoop_run _ env s list (fun _ => true) h_list h_commits h_sq h_received
    have h_at := (@at_start _ env s h_received).issueLoop (fun _ => true) list h_commits
    dsimp only [blkMqPlugIssueDirect]
    split
    case isTrue h_errors => exact iff_of_true h_at.commit (h_error h_errors)
    case isFalse h_errors => exact h_quiet (not_not.mp h_errors)

theorem tryIssueListDirectly_covered_iff (list : List Request)
    (h_commits : ∀ rq ∈ list, (env.tagSet (env.plug.mqHctx rq)).commits = true)
    (h_hctx : ∀ rq ∈ list, env.plug.mqHctx rq = hctx) (h_sq : s.Wf)
    (h_received : s.received = []) :
    Covered (blkMqTryIssueListDirectly env hctx list s).2 ↔ ¬ Stranded env list s := by
  by_cases h_list : list = []
  · subst h_list
    have h_idle : (blkMqTryIssueListDirectly env hctx [] s).2 = s := by
      dsimp only [blkMqTryIssueListDirectly, issueLoop]
      exact if_neg fun h_and => h_and.2 rfl
    rw [h_idle]
    exact iff_of_true (covered_of_received h_received) fun h_stranded => h_stranded
  · obtain ⟨h_quiet, h_error⟩ := @issueLoop_run _ env s list List.isEmpty h_list h_commits h_sq
      h_received
    have h_at := (@at_start _ env s h_received).issueLoop List.isEmpty list h_commits
    obtain ⟨h_loop, h_current⟩ :=
      @issueLoop_oneHctx _ env hctx ⟨some hctx, 0, 0, s⟩ List.isEmpty list h_hctx rfl
    have h_left := @issueLoop_left _ env List.isEmpty list ⟨none, 0, 0, s⟩
    rw [← issueLoop_start h_list h_hctx s] at h_loop h_current
    rw [blkMqTryIssueListDirectly, h_loop]
    generalize issueLoop env (enterHctx env) List.isEmpty list ⟨none, 0, 0, s⟩ = r at *
    dsimp only
    by_cases h_errors : r.2.errors = 0
    · rw [if_neg fun h_and => h_and.1.elim (h_left h_errors) (· h_errors)]
      exact h_quiet h_errors
    · refine iff_of_true ?_ (h_error h_errors)
      split
      case isTrue => exact h_at.commit_covered h_current
      case isFalse h_queued =>
        exact h_at.fresh (not_not.mp fun h_ne => h_queued ⟨.inr h_errors, h_ne⟩)

/-! ## A queue without `commit_rqs` -/

/-- `bd.last` of the commands that the loop of `blk_mq_dispatch_rq_list` submits. -/
def dispatchFlags (ans : Nat → Answer) (nextTag : Nat → Bool) : Nat → List Request → List Bool
  | _, [] => []
  | turn, _ :: list =>
      match (ans turn).prep with
      | .noTag | .noBudget => []
      | .ok =>
          match (ans turn).status with
          | .ok => (list.isEmpty || !nextTag turn) :: dispatchFlags ans nextTag (turn + 1) list
          | .resource | .devResource => []
          | .zoneResource | .error => dispatchFlags ans nextTag (turn + 1) list

/-- Those of `blk_mq_do_dispatch_ctx`. -/
def ctxFlags (ans : Nat → Answer) : Nat → List Request → List Bool
  | _, [] => []
  | turn, rq :: list =>
      dispatchFlags (fun k => ans (turn + k)) (fun _ => true) 0 [rq] ++
        if dispatched (dispatchLoop (fun k => ans (turn + k)) 0 [rq] .start) then
          ctxFlags ans (turn + 1) list
        else []

section Flags

variable (env : Env)

/-- Those of the queue run at a turn that finds `dispatch` on `hctx->dispatch`. -/
def runFlags (turn : Nat) (dispatch : List Request) : List Bool :=
  let t := env.plug.turns turn
  if t.blocked = false ∧ t.runsHere = true then
    dispatchFlags t.round (env.nextTag turn) 0 dispatch ++
      if dispatched (dispatchLoop t.round 0 dispatch .start) then
        ctxFlags t.round dispatch.length (env.fromCtxs turn)
      else []
  else []

/-- `hctx->dispatch` with a request that is staged. -/
def withStaged (dispatch : List Request) (rq : Request) : List Request :=
  if env.plug.rqfFlushSeq rq || env.plug.passthrough rq then
    if env.plug.rqfFlushSeq rq then rq :: dispatch else dispatch ++ [rq]
  else dispatch

/-- Those of a batch from the given turn on: a request is `last` if the list ends with it, and a
busy answer may be followed by a queue run. -/
def batchFlags (runQueue : List Request → Bool) :
    Nat → List Request → List Request → List Bool
  | _, _, [] => []
  | turn, dispatch, rq :: list =>
      match outcome (env.plug.turns turn) with
      | .accepted => list.isEmpty :: batchFlags runQueue (turn + 1) dispatch list
      | .staged => batchFlags runQueue (turn + 1) (withStaged env dispatch rq) list
      | .failed => batchFlags runQueue (turn + 1) dispatch list
      | .busy => if runQueue list then runFlags env (turn + 1) (dispatch ++ [rq]) else []

end Flags

/-- How many commands the doorbell is behind: it is written for the last command of a batch, and
when it is `qDepth - 1` commands behind. -/
def behind (qDepth n : Nat) (flags : List Bool) : Nat :=
  flags.foldl (fun n last => if last then 0 else (n + 1) % (qDepth - 1)) n

/-- The condition on which the last commands of a batch are left without a doorbell where nothing
can be committed. -/
def Lagging (env : Env) (runQueue : List Request → Bool) (hctx : Nat) (list : List Request)
    (s : State qDepth) : Prop :=
  let flags := batchFlags env runQueue s.plug.turn (s.plug.hctxs hctx).dispatch list
  flags ≠ [] ∧ behind qDepth (unannounced (s.sq (env.driverData hctx))) flags ≠ 0

section NoCommit

variable {ans : Nat → Answer} {nextTag : Nat → Bool}

theorem behind_append (qDepth n : Nat) (flags flags' : List Bool) :
    behind qDepth n (flags ++ flags') = behind qDepth (behind qDepth n flags) flags' :=
  List.foldl_append

theorem queueSq_behind {sq : NvmeSq qDepth} (h : SqWf sq) (cmd : Overflow.Request) (last : Bool) :
    unannounced (nvmeQueueSq sq cmd last) = behind qDepth (unannounced sq) [last] := by
  cases last with
  | false => exact (h.queue cmd).2
  | true => exact (announced_iff (h.queue_last cmd)).mp (queueSq_true sq cmd)

theorem dispatchSq_behind (list : List Request) (turn : Nat) {sq : NvmeSq qDepth} (h : SqWf sq) :
    unannounced (dispatchSq env ans nextTag turn list sq) =
      behind qDepth (unannounced sq) (dispatchFlags ans nextTag turn list) := by
  induction list generalizing turn sq with
  | nil => rfl
  | cons rq list ih =>
      rw [dispatchSq, dispatchFlags]
      cases (ans turn).prep with
      | noTag | noBudget => rfl
      | ok =>
          dsimp only
          cases (ans turn).status with
          | resource | devResource => rfl
          | zoneResource | error => exact ih (turn + 1) h
          | ok =>
              dsimp only
              rw [ih (turn + 1) (h.queue_any _ _), queueSq_behind h, ← behind_append,
                List.singleton_append]

/-- There are as many flags as commands. -/
theorem dispatchLoop_flags (nextTag : Nat → Bool) (list : List Request) (turn : Nat)
    (p : Progress) :
    (dispatchLoop ans turn list p).accepted.length =
      p.accepted.length + (dispatchFlags ans nextTag turn list).length := by
  induction list generalizing turn p with
  | nil => rfl
  | cons rq list ih =>
      rw [dispatchLoop, dispatchFlags]
      cases (ans turn).prep with
      | noTag | noBudget => rfl
      | ok =>
          dsimp only
          cases (ans turn).status with
          | resource | devResource => rfl
          | zoneResource | error => exact ih (turn + 1) _
          | ok =>
              dsimp only
              rw [ih, List.length_append, List.length_singleton, List.length_cons]
              omega

/-- Commands with the given flags have been copied to the queue `q`. -/
structure Copies (q : Nat) (s s' : State qDepth) (flags : List Bool) : Prop where
  received : s'.received = s.received ++ flags.map fun _ => q
  sq : SqWf (s.sq q) → SqWf (s'.sq q) ∧
    unannounced (s'.sq q) = behind qDepth (unannounced (s.sq q)) flags

variable {q : Nat} {flags flags' : List Bool}

theorem Copies.refl (q : Nat) (s : State qDepth) (plug : Plug.State) :
    Copies q s { s with plug := plug } [] where
  received := (List.append_nil _).symm
  sq h := ⟨h, rfl⟩

theorem Copies.trans {s' s'' : State qDepth} (h : Copies q s s' flags)
    (h' : Copies q s' s'' flags') : Copies q s s'' (flags ++ flags') where
  received := by rw [h'.received, h.received, List.append_assoc, List.map_append]
  sq h_wf := by
    obtain ⟨h_wf', h_behind⟩ := h.sq h_wf
    obtain ⟨h_wf'', h_behind'⟩ := h'.sq h_wf'
    rw [h_behind', h_behind, behind_append]
    exact ⟨h_wf'', rfl⟩

/-- Only the part of the queue matters for the next commands. -/
theorem Copies.of_plug {s' : State qDepth} (plug : Plug.State)
    (h : Copies q { s with plug := plug } s' flags) : Copies q s s' flags :=
  (Copies.refl q s plug).trans h

/-- Without commands behind its doorbell, every queue is covered. -/
theorem Copies.covered_iff {s' : State qDepth} (h : Copies q s s' flags)
    (h_received : s.received = []) (h_wf : SqWf (s.sq q)) :
    Covered s' ↔ ¬(flags ≠ [] ∧ behind qDepth (unannounced (s.sq q)) flags ≠ 0) := by
  obtain ⟨h_wf', h_behind⟩ := h.sq h_wf
  have h_all : s'.received = flags.map fun _ => q := by
    rw [h.received, h_received, List.nil_append]
  have h_announced := announced_iff h_wf'
  rw [h_behind] at h_announced
  rw [not_and, not_not, Covered, h_all]
  constructor
  · intro h_covered h_some
    obtain ⟨last, h_last⟩ := List.exists_mem_of_ne_nil flags h_some
    exact h_announced.mp (h_covered q (List.mem_map.mpr ⟨last, h_last, rfl⟩))
  · intro h_zero q' h_q'
    obtain ⟨last, h_last, rfl⟩ := List.mem_map.mp h_q'
    exact h_announced.mpr (h_zero (List.ne_nil_of_mem h_last))

/-! ### A queue run -/

theorem dispatchList_copies (h_none : (env.tagSet hctx).commits = false) (list : List Request)
    (s : State qDepth) :
    Copies (env.driverData hctx) s (s.dispatchList env hctx ans nextTag list).2
      (dispatchFlags ans nextTag 0 list) where
  received := by
    have h_length := @dispatchLoop_flags ans nextTag list 0 .start
    rw [show Progress.start.accepted.length = 0 from rfl, Nat.zero_add] at h_length
    show s.received ++ _ = s.received ++ _
    rw [List.map_const', List.map_const', h_length]
  sq h_wf := by
    have h_sq : (s.dispatchList env hctx ans nextTag list).2.sq (env.driverData hctx) =
        dispatchSq env ans nextTag 0 list (s.sq (env.driverData hctx)) := by
      refine (Function.update_self ..).trans ?_
      rw [dispatchRqList, h_none]
      exact if_neg fun h_and => Bool.false_ne_true h_and.2
    rw [h_sq]
    exact ⟨h_wf.dispatch list 0, dispatchSq_behind list 0 h_wf⟩

theorem doDispatchCtx_copies (h_none : (env.tagSet hctx).commits = false) (turn : Nat)
    (list : List Request) (s : State qDepth) :
    Copies (env.driverData hctx) s (s.doDispatchCtx env ans hctx turn list)
      (ctxFlags ans turn list) := by
  induction list generalizing turn s with
  | nil => exact .refl _ s s.plug
  | cons rq list ih =>
      have h_list := @dispatchList_copies _ env hctx (fun k => ans (turn + k)) (fun _ => true)
        h_none [rq] s
      have h_progress : (s.dispatchList env hctx (fun k => ans (turn + k)) (fun _ => true) [rq]).1 =
        dispatchLoop (fun k => ans (turn + k)) 0 [rq] .start := rfl
      rw [State.doDispatchCtx, ctxFlags]
      rw [h_progress]
      split
      · exact h_list.trans (ih (turn + 1) _)
      · rw [List.append_nil]
        exact h_list

theorem dispatchPlain_copies (h_none : (env.tagSet hctx).commits = false)
    (fromCtxs : List Request) (s : State qDepth) :
    Copies (env.driverData hctx) s (s.dispatchPlain env hctx ans nextTag fromCtxs)
      (dispatchFlags ans nextTag 0 (s.plug.hctxs hctx).dispatch ++
        if dispatched (dispatchLoop ans 0 (s.plug.hctxs hctx).dispatch .start) then
          ctxFlags ans (s.plug.hctxs hctx).dispatch.length fromCtxs
        else []) := by
  rw [State.dispatchPlain]
  generalize s.plug.setHctx hctx { s.plug.hctxs hctx with dispatch := [] } = plug
  have h_list := @dispatchList_copies _ env hctx ans nextTag h_none
    (s.plug.hctxs hctx).dispatch { s with plug := plug }
  have h_progress : (State.dispatchList env { s with plug := plug } hctx ans nextTag
    (s.plug.hctxs hctx).dispatch).1 =
      dispatchLoop ans 0 (s.plug.hctxs hctx).dispatch .start := rfl
  rw [h_progress]
  split
  · exact h_list.of_plug.trans (doDispatchCtx_copies h_none _ _ _)
  · rw [List.append_nil]
    exact h_list.of_plug

theorem not_blex_of_commits (h_none : (env.tagSet hctx).commits = false) :
    env.tagSet hctx ≠ .blex := by
  intro h_blex
  rw [h_blex] at h_none
  cases h_none

theorem runHwQueue_copies (h_none : (env.tagSet hctx).commits = false) (s : State qDepth)
    (h_some : (s.plug.hctxs hctx).dispatch ≠ []) :
    Copies (env.driverData hctx) s (blkMqRunHwQueue env s hctx)
      (runFlags env s.plug.turn (s.plug.hctxs hctx).dispatch) := by
  have h_pending : blkMqHctxHasPending env { s with plug := s.plug.tick } hctx
      (env.fromCtxs s.plug.turn) = true := by
    rw [blkMqHctxHasPending, if_neg (not_blex_of_commits h_none), Bool.or_eq_true]
    refine .inl ?_
    rw [Bool.not_eq_true', List.isEmpty_eq_false_iff]
    exact h_some
  have h_now : s.plug.now env.plug = env.plug.turns s.plug.turn := rfl
  rw [blkMqRunHwQueue, runFlags]
  simp only [h_pending, h_now, true_and, if_neg (not_blex_of_commits h_none)]
  by_cases h_run : (env.plug.turns s.plug.turn).blocked = false ∧
    (env.plug.turns s.plug.turn).runsHere = true
  · rw [if_pos h_run, if_pos h_run]
    exact (dispatchPlain_copies h_none _ { s with plug := s.plug.tick }).of_plug
  · rw [if_neg h_run, if_neg h_run]
    exact .refl _ s s.plug.tick

/-! ### A batch -/

theorem addDispatch_dispatch (s : Plug.State) (hctx : Nat) (rq : Request) (atHead : Bool) :
    ((addDispatch s hctx rq atHead).hctxs hctx).dispatch =
      if atHead then rq :: (s.hctxs hctx).dispatch else (s.hctxs hctx).dispatch ++ [rq] := by
  rw [addDispatch, Plug.setHctx_hctxs_self]

/-- The answers that go with an outcome. -/
def Outcome.answers : Outcome → List BlkStatus
  | .accepted | .staged => [.ok]
  | .busy => [.resource, .devResource]
  | .failed => [.zoneResource, .error]

theorem issuePlain_answer (s : Plug.State) (rq : Request) :
    (issuePlain env s rq).1 ∈ (outcome (s.now env.plug)).answers := by
  rw [issuePlain, outcome]
  split
  case isTrue => exact List.mem_singleton_self _
  case isFalse =>
    cases (s.now env.plug).answer.prep with
    | noBudget | noTag => exact List.mem_cons_self ..
    | ok =>
        dsimp only
        cases (s.now env.plug).answer.status with
        | ok | resource | devResource | zoneResource | error =>
            simp [Plug.issueDirectly, Outcome.answers]

/-- Where a request is after it has been issued. -/
theorem issuePlain_dispatch (h_hctx : env.plug.mqHctx rq = hctx) (s : Plug.State) :
    ((issuePlain env s rq).2.hctxs hctx).dispatch =
      if outcome (s.now env.plug) = .staged then withStaged env (s.hctxs hctx).dispatch rq
      else (s.hctxs hctx).dispatch := by
  rw [issuePlain, outcome]
  split
  case isTrue =>
    rw [if_pos rfl, withStaged, insertPlain, h_hctx]
    split
    · rw [addDispatch_dispatch]
      rfl
    · rfl
  case isFalse =>
    cases (s.now env.plug).answer.prep with
    | noBudget | noTag => exact (if_neg nofun).symm
    | ok =>
        dsimp only
        cases (s.now env.plug).answer.status with
        | ok | resource | devResource | zoneResource | error => exact (if_neg nofun).symm

theorem issue_dispatch (h_none : (env.tagSet hctx).commits = false)
    (h_hctx : env.plug.mqHctx rq = hctx) (s : State qDepth) (last : Bool) :
    ((blkMqRequestIssueDirectly env s rq last).2.plug.hctxs hctx).dispatch =
      if outcome (s.plug.now env.plug) = .staged then
        withStaged env (s.plug.hctxs hctx).dispatch rq
      else (s.plug.hctxs hctx).dispatch := by
  have h_plug := (@issue_fst_plug _ env s rq last).2
  rw [h_hctx, if_neg (not_blex_of_commits h_none)] at h_plug
  rw [h_plug]
  exact issuePlain_dispatch h_hctx s.plug

theorem issue_copies (h_hctx : env.plug.mqHctx rq = hctx) (s : State qDepth) (last : Bool) :
    Copies (env.driverData hctx) s (blkMqRequestIssueDirectly env s rq last).2
      (if outcome (s.plug.now env.plug) = .accepted then [last] else []) := by
  subst h_hctx
  split
  case isTrue h_accepted =>
    obtain ⟨h_received, h_sq⟩ := @issue_accept _ env s rq last h_accepted
    refine ⟨h_received, fun h_wf => ?_⟩
    rw [h_sq, Function.update_self]
    exact ⟨h_wf.queue_any _ last, queueSq_behind h_wf _ last⟩
  case isFalse h_skip =>
    obtain ⟨h_received, h_sq⟩ := @issue_skip _ env s rq last h_skip
    refine ⟨by rw [h_received, List.map_nil, List.append_nil], fun h_wf => ?_⟩
    rw [h_sq]
    exact ⟨h_wf, rfl⟩

theorem bypassInsert_copies (h_none : (env.tagSet hctx).commits = false)
    (h_hctx : env.plug.mqHctx rq = hctx) (s : State qDepth) (runQueue : Bool) :
    Copies (env.driverData hctx) s (blkMqRequestBypassInsert env s rq runQueue)
      (if runQueue then runFlags env s.plug.turn ((s.plug.hctxs hctx).dispatch ++ [rq])
       else []) := by
  have h_dispatch := addDispatch_dispatch s.plug hctx rq false
  rw [if_neg Bool.false_ne_true] at h_dispatch
  rw [blkMqRequestBypassInsert, h_hctx]
  simp only [if_neg (not_blex_of_commits h_none)]
  split
  · have h_run := runHwQueue_copies h_none { s with plug := addDispatch s.plug hctx rq false }
    rw [h_dispatch] at h_run
    exact (h_run (List.append_ne_nil_of_right_ne_nil _ (List.cons_ne_nil _ _))).of_plug
  · exact .refl _ s _

/-- The commands of a batch of one hctx. -/
theorem issueLoop_copies (h_none : (env.tagSet hctx).commits = false)
    (runQueue : List Request → Bool) (list : List Request)
    (h_hctx : ∀ rq ∈ list, env.plug.mqHctx rq = hctx) (l : Loop qDepth) :
    Copies (env.driverData hctx) l.s (issueLoop env (fun l _ => l) runQueue list l).2.s
      (batchFlags env runQueue l.s.plug.turn (l.s.plug.hctxs hctx).dispatch list) := by
  induction list generalizing l with
  | nil => exact .refl _ l.s l.s.plug
  | cons rq list ih =>
      obtain ⟨h_rq, h_list⟩ := List.forall_mem_cons.mp h_hctx
      have h_issue := issue_copies h_rq l.s list.isEmpty
      have h_dispatch := issue_dispatch h_none h_rq l.s list.isEmpty
      have h_turn := @issue_turn _ env l.s rq list.isEmpty
      have h_ret := @issue_ret _ env l.s rq list.isEmpty
      have h_answer : (blkMqRequestIssueDirectly env l.s rq list.isEmpty).1 ∈
          (outcome (l.s.plug.now env.plug)).answers := by
        rw [(issue_fst_plug l.s rq list.isEmpty).1, h_rq, if_neg (not_blex_of_commits h_none)]
        exact issuePlain_answer l.s.plug rq
      have h_now : env.plug.turns l.s.plug.turn = l.s.plug.now env.plug := rfl
      rw [issueLoop, batchFlags, h_now]
      dsimp only
      generalize blkMqRequestIssueDirectly env l.s rq list.isEmpty = r at *
      obtain ⟨ret, s⟩ := r
      dsimp only at h_issue h_dispatch h_turn h_answer ⊢
      cases h_outcome : outcome (l.s.plug.now env.plug) with
      | accepted =>
          rw [h_outcome] at h_answer h_issue h_dispatch
          cases List.mem_singleton.mp h_answer
          have h_rest := ih h_list { l with queued := l.queued + 1, s := s }
          rw [if_neg nofun] at h_dispatch
          dsimp only at h_rest
          rw [h_turn, h_dispatch] at h_rest
          exact h_issue.trans h_rest
      | staged =>
          rw [h_outcome] at h_answer h_issue h_dispatch
          cases List.mem_singleton.mp h_answer
          have h_rest := ih h_list { l with queued := l.queued + 1, s := s }
          rw [if_pos rfl] at h_dispatch
          dsimp only at h_rest
          rw [h_turn, h_dispatch] at h_rest
          exact h_issue.trans h_rest
      | busy =>
          rw [h_outcome] at h_answer h_issue h_dispatch
          rw [if_neg nofun] at h_dispatch
          have h_insert := bypassInsert_copies h_none h_rq s (runQueue list)
          rw [h_turn, h_dispatch] at h_insert
          rcases List.mem_pair.mp h_answer with rfl | rfl
          · exact h_issue.trans h_insert
          · exact h_issue.trans h_insert
      | failed =>
          rw [h_outcome] at h_answer h_issue h_dispatch
          rw [if_neg nofun] at h_dispatch
          have h_rest := ih h_list { l with
            errors := l.errors + 1
            s := { s with plug := s.plug.blkMqEndRequest rq } }
          have h_ended : ((s.plug.blkMqEndRequest rq).hctxs hctx).dispatch =
            (s.plug.hctxs hctx).dispatch := rfl
          have h_turn' : (s.plug.blkMqEndRequest rq).turn = s.plug.turn := rfl
          dsimp only at h_rest
          rw [h_turn', h_turn, h_ended, h_dispatch] at h_rest
          rcases List.mem_pair.mp h_answer with rfl | rfl
          · exact h_issue.trans h_rest.of_plug
          · exact h_issue.trans h_rest.of_plug

/-- Nothing is committed. -/
theorem commitRqs_none (h_none : (env.tagSet hctx).commits = false) (s : State qDepth) :
    s.commitRqs env hctx = s := by
  rw [State.commitRqs, h_none]
  exact if_neg Bool.false_ne_true

theorem plugIssueDirect_copies (h_none : (env.tagSet hctx).commits = false) (list : List Request)
    (h_hctx : ∀ rq ∈ list, env.plug.mqHctx rq = hctx) (s : State qDepth) :
    Copies (env.driverData hctx) s (blkMqPlugIssueDirect env list s).2
      (batchFlags env (fun _ => true) s.plug.turn (s.plug.hctxs hctx).dispatch list) := by
  by_cases h_list : list = []
  · subst h_list
    exact .refl _ s s.plug
  · have h_loop := issueLoop_copies h_none (fun _ => true) list h_hctx ⟨some hctx, 0, 0, s⟩
    obtain ⟨h_one, h_current⟩ := @issueLoop_oneHctx _ env hctx ⟨some hctx, 0, 0, s⟩
      (fun _ => true) list h_hctx rfl
    rw [h_one] at h_loop
    rw [blkMqPlugIssueDirect, issueLoop_start h_list h_hctx s]
    dsimp only
    split
    · rw [blkMqCommitRqs.eq_def, h_current]
      dsimp only
      rw [commitRqs_none h_none]
      exact h_loop
    · exact h_loop

theorem tryIssueListDirectly_copies (h_none : (env.tagSet hctx).commits = false)
    (list : List Request) (h_hctx : ∀ rq ∈ list, env.plug.mqHctx rq = hctx) (s : State qDepth) :
    Copies (env.driverData hctx) s (blkMqTryIssueListDirectly env hctx list s).2
      (batchFlags env List.isEmpty s.plug.turn (s.plug.hctxs hctx).dispatch list) := by
  have h_loop := issueLoop_copies h_none List.isEmpty list h_hctx ⟨some hctx, 0, 0, s⟩
  rw [blkMqTryIssueListDirectly]
  dsimp only
  rw [commitRqs_none h_none, ite_self]
  exact h_loop

end NoCommit

/-- When the functions return, all commands that they submitted have their doorbell written,
unless the last request was staged behind commands of its hctx that are waiting for theirs.  On the
admin queue, where nothing can be committed, it is the last command submitted that decides. -/
theorem doorbells_cover_iff (env : Env) (list : List Request) (s : State qDepth)
    (h_sq : s.Wf) (h_received : s.received = []) :
    ((∀ rq ∈ list, (env.tagSet (env.plug.mqHctx rq)).commits = true) →
        (Covered (blkMqPlugIssueDirect env list s).2 ↔ ¬ Stranded env list s) ∧
          ∀ hctx, (∀ rq ∈ list, env.plug.mqHctx rq = hctx) →
            (Covered (blkMqTryIssueListDirectly env hctx list s).2 ↔ ¬ Stranded env list s)) ∧
      ∀ hctx, (env.tagSet hctx).commits = false → (∀ rq ∈ list, env.plug.mqHctx rq = hctx) →
        (Covered (blkMqPlugIssueDirect env list s).2 ↔
            ¬ Lagging env (fun _ => true) hctx list s) ∧
          (Covered (blkMqTryIssueListDirectly env hctx list s).2 ↔
            ¬ Lagging env List.isEmpty hctx list s) := by
  refine ⟨fun h_commits => ⟨?_, fun hctx h_hctx => ?_⟩, fun hctx h_none h_hctx => ⟨?_, ?_⟩⟩
  · exact plugIssueDirect_covered_iff list h_commits h_sq h_received
  · exact tryIssueListDirectly_covered_iff list h_commits h_hctx h_sq h_received
  · exact (plugIssueDirect_copies h_none list h_hctx s).covered_iff h_received (h_sq _)
  · exact (tryIssueListDirectly_copies h_none list h_hctx s).covered_iff h_received (h_sq _)

/-- One hctx; the driver accepts a request, and then meets `second`. -/
def oneHctx (tagSet : TagSetKind) (second : Plug.Turn) : Env where
  plug := { Plug.busy with
    turns := fun
      | 0 => ⟨false, false, ⟨.ok, .ok⟩, true, fun _ => ⟨.ok, .ok⟩⟩
      | _ => second }
  tagSet _ := tagSet
  driverData hctx := match tagSet with
    | .admin => hctx
    | _ => hctx + 1
  iodCmd rq := ⟨0, 1, rq.id⟩
  nextTag _ _ := true
  fromCtxs _ := []

/-- Nothing was submitted yet, to queues of eight slots. -/
def fresh : State 8 := ⟨Plug.idle, fun _ => ⟨.empty, 0⟩, []⟩

def busySecond : Plug.Turn := ⟨false, false, ⟨.ok, .resource⟩, true, fun _ => ⟨.ok, .resource⟩⟩

def okSecond : Plug.Turn := ⟨false, false, ⟨.ok, .ok⟩, true, fun _ => ⟨.ok, .ok⟩⟩

def failingSecond : Plug.Turn := ⟨false, false, ⟨.ok, .error⟩, true, fun _ => ⟨.ok, .ok⟩⟩

def quiescedSecond : Plug.Turn := ⟨true, false, ⟨.ok, .ok⟩, true, fun _ => ⟨.ok, .ok⟩⟩

/-- The driver is busy when it gets the second request; on the admin queue it accepts it. -/
theorem doorbells_cover_iff_busy :
    Covered (blkMqPlugIssueDirect (oneHctx .blex busySecond) [⟨1, 0⟩, ⟨2, 0⟩] fresh).2 ∧
      Covered (blkMqTryIssueListDirectly (oneHctx .blex busySecond) 0
        [⟨1, 0⟩, ⟨2, 0⟩] fresh).2 ∧
      Covered (blkMqPlugIssueDirect (oneHctx .admin okSecond) [⟨1, 0⟩, ⟨2, 0⟩] fresh).2 := by
  have h_wf : fresh.Wf := fun _ => sqWf_empty (by decide)
  obtain ⟨h_plug, h_list⟩ := (doorbells_cover_iff (oneHctx .blex busySecond)
    [⟨1, 0⟩, ⟨2, 0⟩] fresh h_wf rfl).1 fun _ _ => rfl
  obtain ⟨h_admin, -⟩ := (doorbells_cover_iff (oneHctx .admin okSecond)
    [⟨1, 0⟩, ⟨2, 0⟩] fresh h_wf rfl).2 0 rfl fun _ _ => rfl
  have h_not : ¬ Stranded (oneHctx .blex busySecond) [⟨1, 0⟩, ⟨2, 0⟩] fresh :=
    fun h_stranded => h_stranded
  refine ⟨h_plug.mpr h_not, (h_list 0 fun _ _ => rfl).mpr h_not, h_admin.mpr ?_⟩
  exact fun h_lagging => h_lagging.2 rfl

/-- The queue is quiesced when the second request is issued: the first one has no doorbell.  On
the admin queue it has none if the second one fails. -/
theorem doorbells_missing :
    ¬ Covered (blkMqPlugIssueDirect (oneHctx .blex quiescedSecond) [⟨1, 0⟩, ⟨2, 0⟩] fresh).2 ∧
      ¬ Covered (blkMqTryIssueListDirectly (oneHctx .blex quiescedSecond) 0
        [⟨1, 0⟩, ⟨2, 0⟩] fresh).2 ∧
      ¬ Covered (blkMqPlugIssueDirect (oneHctx .admin failingSecond)
        [⟨1, 0⟩, ⟨2, 0⟩] fresh).2 := by
  refine ⟨fun h_covered => ?_, fun h_covered => ?_, fun h_covered => ?_⟩
  · cases h_covered 1 (by decide)
  · cases h_covered 1 (by decide)
  · cases h_covered 0 (by decide)

end Daredevil.Nvme.Doorbell
