/-
  Daredevil.Nvme.SingleQueue

  A device whose setup leaves one I/O queue.  `nvme_pci_alloc_tag_set` then builds none
  of the blex structures.  The block layer asks `blk_blex_nvme_enabled` before it
  follows `blex_info`; in the driver the code that follows it is compiled in or out,
  and where it is compiled in it is not asked whether it applies.

  `singleQueue_derefs_iff`: a step on the I/O queue follows one of the NULL pointers
  exactly when it initialises the hctx or looks at a completion entry.  Submissions,
  and calls of `nvme_poll_cq` that find nothing, do not.
-/
import Daredevil.Nvme.Completion
import Daredevil.Nvme.Overflow

namespace Daredevil.Nvme.SingleQueue

open Completion (TagSet nvmeCqePending)
open Overflow (NvmeSq Request nvmeQueueSq nvmeSubmitSq nvmeCommitSq)
open Sched (NqRegulator)

/-! ## Source functions -/

/-- `dev->tagset` of a device that was just allocated. -/
def TagSet.zero : TagSet := ⟨none, none, false⟩

/-- The blex part of `nvme_pci_alloc_tag_set`; `alloc` is the regulator, `none` when an
    allocation fails. -/
def nvmePciAllocTagSet (alloc : Option NqRegulator) (onlineQueues : Nat) (info : BlkBlexDevInfo)
    (set : TagSet) : Option TagSet :=
  let nrHwQueues := onlineQueues - 1
  if 1 < nrHwQueues then alloc.map fun reg => ⟨some info, some reg, true⟩ else some set

/-- `blk_blex_nvme_enabled` -/
def blkBlexNvmeEnabled (nrHwQueues : Nat) (set : TagSet) : Bool :=
  decide (1 < nrHwQueues) && set.blexInfo.isSome

/-- What `nvme_init_hctx` writes. -/
structure Hctx where
  /-- the queue that `driver_data` points to -/
  driverData : Nat
  nqDepth : Nat
  warned : Bool

/-- `nvme_init_hctx`, where `set->tags[i]` is `tags i`. -/
def nvmeInitHctx (set : TagSet) (tags : Nat → Nat) (hctxTags hctxIdx qDepth : Nat) :
    Except Completion.Fault Hctx :=
  -- `WARN_ON` evaluates its condition in every case
  match set.blexInfo with
  | none => .error .blexInfo
  | some info =>
      .ok ⟨hctxIdx + 1, qDepth - 1, tags (blkBlexGetTagIdx hctxIdx info) != hctxTags⟩

/-- The guard of the block layer tells where the pointers may be followed. -/
theorem blkBlexNvmeEnabled_eq {alloc : Option NqRegulator} {onlineQueues : Nat}
    {info : BlkBlexDevInfo} {set : TagSet}
    (h_alloc : nvmePciAllocTagSet alloc onlineQueues info TagSet.zero = some set) :
    blkBlexNvmeEnabled (onlineQueues - 1) set = set.blexInfo.isSome := by
  rw [nvmePciAllocTagSet] at h_alloc
  split at h_alloc
  case isTrue h_many =>
    rw [blkBlexNvmeEnabled, decide_eq_true h_many, Bool.true_and]
  case isFalse h_one =>
    cases h_alloc
    rw [blkBlexNvmeEnabled, decide_eq_false h_one, Bool.false_and]
    rfl

/-! ## Runs -/

structure State (qDepth : Nat) where
  cq : Completion.State
  sq : NvmeSq qDepth
  hctx : Option Hctx

inductive Event where
  /-- the block layer initialises hctx 0 -/
  | initHctx (tags : Nat → Nat) (hctxTags : Nat)
  /-- `nvme_queue_rq`; `accepted` when the queue is enabled and the command is prepared -/
  | queueRq (req : Request) (accepted last : Bool)
  /-- `nvme_queue_rqs`, for the requests that are prepared -/
  | queueRqs (reqs : List Request)
  | commitRqs
  /-- an event of the completion path -/
  | cq (e : Completion.Event)

variable {qDepth : Nat}

/-- The I/O queue has the id 1. -/
def step (s : State qDepth) (e : Event) : Option (State qDepth) :=
  if s.cq.fault.isSome then none
  else
    match e with
    | .initHctx tags hctxTags =>
        match nvmeInitHctx s.cq.set tags hctxTags 0 qDepth with
        | .ok hctx => some { s with hctx := some hctx }
        | .error f => some { s with cq := { s.cq with fault := some f } }
    | .queueRq req accepted last =>
        some (if accepted then { s with sq := nvmeQueueSq s.sq req last } else s)
    | .queueRqs reqs => some { s with sq := nvmeSubmitSq s.sq reqs }
    | .commitRqs => some { s with sq := nvmeCommitSq s.sq }
    | .cq e => (Completion.step 1 qDepth s.cq e).map fun cq => { s with cq := cq }

/-- A device with one I/O queue besides the admin queue, as its setup leaves it. -/
structure Init (s : State qDepth) : Prop where
  cq : Completion.Init s.cq
  alloc : ∃ alloc info, nvmePciAllocTagSet alloc 2 info TagSet.zero = some s.cq.set
  hctx : s.hctx = none

/-- The step neither initialises the hctx nor looks at a completion entry. -/
def Avoids (s : State qDepth) : Event → Prop
  | .initHctx _ _ => False
  | .cq (.turn _) => nvmeCqePending s.cq.nvmeq = false
  | _ => True

/-! ## What a run keeps -/

structure Inv (s : State qDepth) : Prop where
  set : s.cq.set = TagSet.zero
  fault : s.cq.fault = none
  /-- a call of `nvme_poll_cq` in progress has found nothing -/
  found : ∀ p, s.cq.poll = some p → p.found = 0

variable {s s' : State qDepth}

theorem Init.inv (h : Init s) : Inv s where
  set := by
    obtain ⟨alloc, info, h_set⟩ := h.alloc
    exact (Option.some.inj h_set).symm
  fault := h.cq.fault
  found p h_p := by
    rw [h.cq.poll] at h_p
    cases h_p

theorem Inv.noFault (h : Inv s) : ¬ s.cq.fault.isSome = true := by
  rw [h.fault]
  exact Bool.false_ne_true

/-- A turn that sees no entry returns, and has nothing to account for. -/
theorem Inv.turn_none (h : Inv s) {p : Completion.Poll} (h_p : s.cq.poll = some p)
    (env : Completion.Env) (h_none : nvmeCqePending s.cq.nvmeq = false) :
    Completion.pollTurn 1 qDepth env p s.cq = { s.cq with poll := none } := by
  have h_found := h.found p h_p
  rw [Completion.pollTurn, h_none, if_neg Bool.false_ne_true, Completion.pollReturn]
  dsimp only
  cases p.caller with
  | irq =>
      dsimp only
      rw [if_pos h_found]
  | poll => rfl
  | pollIrqdisable => rfl

/-- A turn that sees an entry looks its request up in the tag set. -/
theorem Inv.turn_some (h : Inv s) {p : Completion.Poll} (env : Completion.Env)
    (h_some : nvmeCqePending s.cq.nvmeq = true) :
    (Completion.pollTurn 1 qDepth env p s.cq).fault = some .blexInfo := by
  have h_aen : ¬ env.isAenReq 1 (s.cq.nvmeq.cqes s.cq.nvmeq.cqHead).commandId = true :=
    fun h_aen => Nat.one_ne_zero (env.aen_admin _ _ h_aen)
  have h_handle : Completion.nvmeHandleCqe env 1 (s.cq.nvmeq.cqes s.cq.nvmeq.cqHead)
      ⟨s.cq.set, p.iob, []⟩ = .error .blexInfo := by
    rw [Completion.nvmeHandleCqe, if_neg h_aen, h.set]
    rfl
  rw [Completion.pollTurn, if_pos h_some]
  dsimp only
  rw [h_handle]

theorem Inv.step_avoids (h : Inv s) {e : Event} (h_ok : Avoids s e)
    (h_step : step s e = some s') : Inv s' := by
  rw [step.eq_def, if_neg h.noFault] at h_step
  cases e with
  | initHctx tags hctxTags => exact h_ok.elim
  | queueRq req accepted last =>
      cases accepted <;> cases h_step <;> exact ⟨h.set, h.fault, h.found⟩
  | queueRqs reqs =>
      cases h_step
      exact ⟨h.set, h.fault, h.found⟩
  | commitRqs =>
      cases h_step
      exact ⟨h.set, h.fault, h.found⟩
  | cq e =>
      obtain ⟨cq, h_cq, rfl⟩ := Option.map_eq_some_iff.mp h_step
      cases (Completion.step_steps h_cq).2 with
      | post => exact ⟨h.set, h.fault, h.found⟩
      | start _ h_found => exact ⟨h.set, h.fault, fun p h_p => Option.some.inj h_p ▸ h_found⟩
      | idle => exact h
      | turn h_p =>
          rw [h.turn_none h_p _ h_ok]
          exact ⟨h.set, h.fault, fun p h_none => nomatch h_none⟩
      | regulator h_some =>
          -- there is no regulator to update
          rw [h.set] at h_some
          cases h_some

theorem Inv.step_faults (h : Inv s) {e : Event} (h_not : ¬ Avoids s e)
    (h_step : step s e = some s') : s'.cq.fault = some .blexInfo := by
  rw [step.eq_def, if_neg h.noFault] at h_step
  cases e with
  | initHctx tags hctxTags =>
      dsimp only at h_step
      rw [nvmeInitHctx, h.set] at h_step
      cases h_step
      rfl
  | queueRq req accepted last => exact absurd trivial h_not
  | queueRqs reqs => exact absurd trivial h_not
  | commitRqs => exact absurd trivial h_not
  | cq e =>
      obtain ⟨cq, h_cq, rfl⟩ := Option.map_eq_some_iff.mp h_step
      cases e with
      | turn env =>
          have h_some : nvmeCqePending s.cq.nvmeq = true := Bool.not_eq_false _ ▸ h_not
          cases (Completion.step_steps h_cq).2 with
          | start h_ne => exact absurd rfl (h_ne env)
          | turn h_p => exact h.turn_some env h_some
      | _ => exact absurd trivial h_not

/-- Whatever was done before, as long as no pointer was followed: a step follows one exactly
    when it initialises the hctx or looks at a completion entry. -/
theorem singleQueue_derefs_iff (h : Lts.Reach step Avoids Init s) :
    s.cq.fault = none ∧
      ∀ e s', step s e = some s' → (s'.cq.fault = none ↔ Avoids s e) := by
  have h_inv : Inv s := by
    refine h.invariant (fun s h_init => h_init.inv) ?_
    exact fun s e s' h_s h_ok h_step => h_s.step_avoids h_ok h_step
  refine ⟨h_inv.fault, fun e s' h_step => ⟨?_, fun h_ok => (h_inv.step_avoids h_ok h_step).fault⟩⟩
  intro h_none
  by_contra h_not
  rw [h_inv.step_faults h_not h_step] at h_none
  cases h_none

def oneQueue : State 2 := ⟨Completion.idleQueue TagSet.zero, ⟨.empty, 0⟩, none⟩

theorem oneQueue_init : Init oneQueue :=
  ⟨Completion.idleQueue_init _, ⟨none, ⟨1, 1⟩, rfl⟩, rfl⟩

/-- A submission and an interrupt for nothing. -/
theorem singleQueue_derefs_iff_oneQueue :
    ∃ s, Lts.run step oneQueue [.queueRq ⟨0, 1, 0⟩ true true, .cq .irq] = some s ∧
      s.cq.fault = none ∧ ∀ e s', step s e = some s' → (s'.cq.fault = none ↔ Avoids s e) := by
  have h_init : Lts.Reach step Avoids Init oneQueue := .init oneQueue_init
  have h_submit : Avoids oneQueue (.queueRq ⟨0, 1, 0⟩ true true) := trivial
  have h_irq (s : State 2) : Avoids s (.cq .irq) := trivial
  exact ⟨_, rfl, singleQueue_derefs_iff ((h_init.step h_submit rfl).step (h_irq _) rfl)⟩

/-- The first hctx follows `blex_info` of a device that has none. -/
theorem singleQueue_initHctx :
    nvmePciAllocTagSet none 2 ⟨1, 1⟩ TagSet.zero = some oneQueue.cq.set ∧
      (step oneQueue (.initHctx (fun _ => 0) 0)).map (·.cq.fault) = some (some .blexInfo) :=
  ⟨rfl, rfl⟩

end Daredevil.Nvme.SingleQueue
