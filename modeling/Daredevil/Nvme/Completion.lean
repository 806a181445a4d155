/-
  Daredevil.Nvme.Completion

  The completion path of one queue: the ring of completion entries with its phase
  bits, `nvme_poll_cq` and its callers `nvme_irq`, `nvme_poll` and
  `nvme_poll_irqdisable`, and the handler of one entry, in which the Daredevil path
  `nvme_blex_handle_cqe` stands in front of the stock one.

  A call of `nvme_poll_cq` is taken apart into its turns, so that the controller may
  post between any two of them.  The pointers that only the blex setup fills are
  followed where the source follows them, and a NULL pointer is a fault.

    * `PhaseRing`            — head and phase of driver and controller as one ring;
    * `nvmeHandleCqe_single` — one entry has one effect;
    * `completions_once`     — every run consumes the entries in order, each once,
                               and completes each valid one in exactly one way.
-/
import Daredevil.Lib.Lts
import Daredevil.Lib.PhaseRing
import Daredevil.Sched.Init

namespace Daredevil.Nvme.Completion

open Sched (NqRegulator ExposedNq EnqNcq RegWf blkBlexLPrioMask)

/-! ## State -/

/-- `struct nvme_completion`; bit 0 of `status` is the phase. -/
structure NvmeCompletion where
  result : Nat
  commandId : Nat
  status : Nat
  deriving DecidableEq, Repr

/-- What the completion path reads of a request. -/
structure Request where
  id : Nat
  /-- `RQF_ELV` -/
  elv : Bool
  /-- there is an `end_io` handler -/
  endIo : Bool
  passthrough : Bool
  deriving DecidableEq, Repr

/-- The functions that `iob->complete` may be set to. -/
inductive BatchFn where
  | nvmePciCompleteBatch
  /-- that of another driver whose completions are in the same batch -/
  | other
  deriving DecidableEq, Repr

structure IoCompBatch where
  reqList : List Request
  complete : Option BatchFn
  deriving DecidableEq, Repr

/-- The pointers of `dev->tagset` that are NULL without blex. -/
structure TagSet where
  blexInfo : Option BlkBlexDevInfo
  nqReg : Option NqRegulator
  /-- `enqs`, when it is set, is the array of `nq_reg` -/
  enqs : Bool

/-- What a fault was raised by. -/
inductive Fault where
  | blexInfo
  | nqReg
  | enqs
  /-- past the end of the array -/
  | enqsBounds
  | encq
  deriving DecidableEq, Repr

/-- The tags that `nvme_queue_tagset` selects. -/
inductive Tags where
  | admin
  | io (idx : Nat)
  deriving DecidableEq, Repr

/-- The code that is not part of the repository. -/
structure Env where
  /-- `nvme_is_aen_req`, for a queue id and a command id -/
  isAenReq : Nat → Nat → Bool
  /-- asynchronous events complete on the admin queue -/
  aen_admin : ∀ qid commandId, isAenReq qid commandId = true → qid = 0
  /-- `nvme_find_rq`; `none` for a command id that is not valid -/
  findRq : Tags → Nat → Option Request
  /-- `nvme_try_complete_req`: whether the request is completed on another CPU, and the
      status that it leaves in `nvme_req(req)` -/
  tryCompleteReq : Request → NvmeCompletion → Bool × Nat
  /-- `daredevil_compl_dispatch_on` -/
  complDispatchOn : Bool

/-- How a request is completed. -/
inductive Path where
  | remote
  | batch
  | direct
  deriving DecidableEq, Repr

/-- What handling an entry does. -/
inductive Effect where
  /-- `nvme_complete_async_event` -/
  | asyncEvent
  /-- the warning about an invalid id -/
  | invalidId
  | complete (path : Path) (req : Request)
  deriving DecidableEq, Repr

/-- What the handler of an entry changes. -/
structure Handler where
  set : TagSet
  iob : Option IoCompBatch
  effects : List Effect

/-! ## The handler of one entry -/

namespace Handler

def effect (h : Handler) (e : Effect) : Handler := { h with effects := h.effects ++ [e] }

/-- `nvme_pci_complete_rq` -/
def nvmePciCompleteRq (h : Handler) (req : Request) : Handler := h.effect (.complete .direct req)

end Handler

/-- `blk_mq_add_to_batch`: the batch with the request, or `none` where it returns false. -/
def blkMqAddToBatch (req : Request) (iob : Option IoCompBatch) (ioerror : Nat)
    (complete : BatchFn) : Option IoCompBatch :=
  match iob with
  | none => none
  | some iob =>
      if req.elv || ioerror != 0 || req.endIo && !req.passthrough then none
      else
        match iob.complete with
        | none => some { reqList := req :: iob.reqList, complete := some complete }
        | some old =>
            if old ≠ complete then none else some { iob with reqList := req :: iob.reqList }

/-- `blk_mq_add_to_batch`, and `nvme_pci_complete_rq` where that fails. -/
def completeLocally (req : Request) (status : Nat) (h : Handler) : Handler :=
  match blkMqAddToBatch req h.iob status .nvmePciCompleteBatch with
  | some iob => { h with iob := some iob }.effect (.complete .batch req)
  | none => h.nvmePciCompleteRq req

/-- The three attempts of the stock driver, in order. -/
def completeStock (env : Env) (cqe : NvmeCompletion) (req : Request) (h : Handler) : Handler :=
  let (remote, status) := env.tryCompleteReq req cqe
  if remote then h.effect (.complete .remote req) else completeLocally req status h

/-- Follow `set->enqs` or `nq_reg->enqs`, which are one array. -/
def enqEntry (reg : NqRegulator) (qid : Nat) : Except Fault ExposedNq :=
  match reg.enq? qid with
  | some enq => .ok enq
  | none => .error .enqsBounds

/-- `blk_blex_get_enq`, followed. -/
def blkBlexGetEnq (qid : Nat) (set : TagSet) : Except Fault (NqRegulator × ExposedNq) :=
  match set.enqs, set.nqReg with
  | true, some reg => do
      let enq ← enqEntry reg qid
      .ok (reg, enq)
  | _, _ => .error .enqs

/-- Change the statistics of the eNCQ of queue `qid`. -/
def TagSet.setEncq (set : TagSet) (reg : NqRegulator) (qid : Nat) (enq : ExposedNq)
    (encq : EnqNcq) : TagSet :=
  { set with nqReg := some (reg.setEnq qid { enq with encq := some encq }) }

/-- `nr_in_flight_rqs--` and `nr_complete_rqs++`, on an `unsigned int` each -/
def countComplete (encq : EnqNcq) : EnqNcq :=
  { encq with
    nrInFlightRqs := Word32.wrap (encq.nrInFlightRqs + (Word32.bound - 1))
    nrCompleteRqs := Word32.wrap (encq.nrCompleteRqs + 1) }

/-- `nvme_blex_handle_cqe` -/
def nvmeBlexHandleCqe (env : Env) (qid : Nat) (cqe : NvmeCompletion) (req : Request)
    (h : Handler) : Except Fault (Int × Handler) :=
  -- the admin queue is left to the stock path
  if qid = 0 then .ok (-1, h)
  else do
    let (reg, ncqInfo) ← blkBlexGetEnq qid h.set
    match ncqInfo.encq with
    | none => .error .encq
    | some encq =>
        let h := { h with set := h.set.setEncq reg qid ncqInfo (countComplete encq) }
        if env.complDispatchOn then
          let (remote, status) := env.tryCompleteReq req cqe
          if remote then .ok (0, h.effect (.complete .remote req))
          -- requests of latency-critical queues do not wait for a batch
          else if ncqInfo.prio &&& blkBlexLPrioMask ≠ 0 then .ok (0, h.nvmePciCompleteRq req)
          else .ok (0, completeLocally req status h)
        else .ok (0, completeStock env cqe req h)

/-- `nvme_queue_tagset` -/
def nvmeQueueTagset (qid : Nat) (set : TagSet) : Except Fault Tags :=
  if qid = 0 then .ok .admin
  else
    match set.blexInfo with
    | none => .error .blexInfo
    | some info => .ok (.io (blkBlexGetTagIdx (qid - 1) info))

/-- `nvme_handle_cqe` -/
def nvmeHandleCqe (env : Env) (qid : Nat) (cqe : NvmeCompletion) (h : Handler) :
    Except Fault Handler :=
  if env.isAenReq qid cqe.commandId then .ok (h.effect .asyncEvent)
  else do
    let tags ← nvmeQueueTagset qid h.set
    match env.findRq tags cqe.commandId with
    | none => .ok (h.effect .invalidId)
    | some req =>
        if qid = 0 then .ok (completeStock env cqe req h)
        else do
          let (ret, h) ← nvmeBlexHandleCqe env qid cqe req h
          -- a negative result falls through
          if ret = 0 then .ok h else .ok (completeStock env cqe req h)

/-! ## The completion ring -/

/-- The completion side of `struct nvme_queue`. -/
structure NvmeCq where
  cqes : Nat → NvmeCompletion
  cqHead : Nat
  cqPhase : Bool

/-- `nvme_cqe_pending` -/
def nvmeCqePending (nvmeq : NvmeCq) : Bool :=
  (nvmeq.cqes nvmeq.cqHead).status % 2 == nvmeq.cqPhase.toNat

/-- `nvme_update_cq_head`; a `q_depth` of at most `2 ^ 16` keeps `cq_head` a `u16`. -/
def nvmeUpdateCqHead (qDepth : Nat) (nvmeq : NvmeCq) : NvmeCq :=
  let tmp := nvmeq.cqHead + 1
  if tmp = qDepth then { nvmeq with cqHead := 0, cqPhase := !nvmeq.cqPhase }
  else { nvmeq with cqHead := tmp }

/-! ## Runs -/

/-- Who called `nvme_poll_cq`. -/
inductive Caller where
  | irq
  /-- `nvme_poll` -/
  | poll
  /-- `nvme_poll_irqdisable` and `nvme_reap_pending_cqes` -/
  | pollIrqdisable
  deriving DecidableEq, Repr

/-- A call of `nvme_poll_cq` in progress. -/
structure Poll where
  caller : Caller
  iob : Option IoCompBatch
  found : Nat

/-- A consumed entry: what `nvme_find_rq` found for it, and what was done. -/
structure Handled where
  cqe : NvmeCompletion
  req : Option Request
  effects : List Effect

structure State where
  nvmeq : NvmeCq
  /-- the slot and the phase the controller writes next -/
  cqTail : Nat
  ctrlPhase : Bool
  set : TagSet
  poll : Option Poll
  /-- the requests that `nvme_irq` completed as a batch -/
  batched : List Request
  fault : Option Fault
  /-- all entries that were posted -/
  posted : List NvmeCompletion
  /-- all entries that were consumed -/
  handled : List Handled

inductive Event where
  /-- the controller posts an entry -/
  | post (cqe : NvmeCompletion)
  | irq
  | nvmePoll (iob : Option IoCompBatch)
  | nvmePollIrqdisable
  /-- the test of the loop of `nvme_poll_cq`, and its body or the return to the caller -/
  | turn (env : Env)
  /-- the rest of the driver updates the regulator -/
  | regulator (reg : NqRegulator)

section Source

variable (qid qDepth : Nat)

/-- What `nvme_find_rq` finds for an entry; `none` for an asynchronous event. -/
def requestOf (env : Env) (set : TagSet) (cqe : NvmeCompletion) : Option Request :=
  if env.isAenReq qid cqe.commandId then none
  else
    match nvmeQueueTagset qid set with
    | .ok tags => env.findRq tags cqe.commandId
    | .error _ => none

/-- The rest of `nvme_irq` after an entry was found. -/
def nvmeIrqFound (iob : Option IoCompBatch) (s : State) : State :=
  let batched := s.batched ++ (iob.map (·.reqList)).getD []
  if qid = 0 then { s with batched := batched }
  else
    match s.set.nqReg with
    | none => { s with fault := some .nqReg }
    | some reg =>
        match reg.enq? qid with
        | none => { s with fault := some .enqsBounds }
        | some ncq =>
            match ncq.encq with
            | none => { s with fault := some .encq }
            | some encq =>
                { s with
                  set := s.set.setEncq reg qid ncq
                    { encq with nrIrqs := Word32.wrap (encq.nrIrqs + 1) }
                  batched := batched }

/-- `nvme_poll_cq` returns to its caller. -/
def pollReturn (p : Poll) (s : State) : State :=
  let s := { s with poll := none }
  match p.caller with
  | .irq => if p.found = 0 then s else nvmeIrqFound qid p.iob s
  | .poll | .pollIrqdisable => s

/-- One turn of the loop of `nvme_poll_cq`. -/
def pollTurn (env : Env) (p : Poll) (s : State) : State :=
  if nvmeCqePending s.nvmeq then
    let cqe := s.nvmeq.cqes s.nvmeq.cqHead
    match nvmeHandleCqe env qid cqe ⟨s.set, p.iob, []⟩ with
    | .error f => { s with fault := some f }
    | .ok h =>
        { s with
          nvmeq := nvmeUpdateCqHead qDepth s.nvmeq
          set := h.set
          poll := some { p with iob := h.iob, found := p.found + 1 }
          handled := s.handled ++ [⟨cqe, requestOf qid env s.set cqe, h.effects⟩] }
  else pollReturn qid p s

end Source

/-- The controller writes an entry and advances its index. -/
def State.post (s : State) (qDepth : Nat) (cqe : NvmeCompletion) : State :=
  { s with
    nvmeq := { s.nvmeq with cqes := Function.update s.nvmeq.cqes s.cqTail cqe }
    cqTail := RingBuffer.next qDepth s.cqTail
    ctrlPhase := PhaseRing.nextPhase qDepth s.cqTail s.ctrlPhase
    posted := s.posted ++ [cqe] }

/-- The queue has an eNCQ. -/
def hasEncq (reg : NqRegulator) (qid : Nat) : Bool := ((reg.enq? qid).bind (·.encq)).isSome

def step (qid qDepth : Nat) (s : State) (e : Event) : Option State :=
  if s.fault.isSome then none
  else
    match e with
    | .post cqe =>
        if cqe.status % 2 = s.ctrlPhase.toNat ∧
            s.posted.length + 1 - s.handled.length ≤ qDepth - 1 then
          some (s.post qDepth cqe)
        else none
    -- an interrupt is masked, or the queue locked, while a call is in progress
    | .irq => if s.poll.isSome then none else some { s with poll := some ⟨.irq, some ⟨[], none⟩, 0⟩ }
    | .nvmePoll iob =>
        if s.poll.isSome then none
        else if nvmeCqePending s.nvmeq then some { s with poll := some ⟨.poll, iob, 0⟩ }
        else some s
    | .nvmePollIrqdisable =>
        if s.poll.isSome then none else some { s with poll := some ⟨.pollIrqdisable, none, 0⟩ }
    | .turn env => s.poll.map fun p => pollTurn qid qDepth env p s
    | .regulator reg =>
        if s.set.nqReg.isSome ∧ hasEncq reg qid then
          some { s with set := { s.set with nqReg := some reg } }
        else none

/-- `nvme_init_queue`: a ring of zeroed entries, and both sides in the first round. -/
structure Init (s : State) : Prop where
  cqes : ∀ i, (s.nvmeq.cqes i).status % 2 = 0
  cqHead : s.nvmeq.cqHead = 0
  cqPhase : s.nvmeq.cqPhase = true
  cqTail : s.cqTail = 0
  ctrlPhase : s.ctrlPhase = true
  poll : s.poll = none
  fault : s.fault = none
  posted : s.posted = []
  handled : s.handled = []

/-- The tag set has the blex structures, and queue `qid` is an NCQ. -/
structure Backed (qid : Nat) (set : TagSet) : Prop where
  blexInfo : set.blexInfo.isSome = true
  enqs : set.enqs = true
  nqReg : ∃ reg, set.nqReg = some reg ∧ hasEncq reg qid = true

/-! ## One entry -/

section Handle

variable {env : Env} {qid : Nat} {cqe : NvmeCompletion} {req : Request} {h h' : Handler}
  {set : TagSet} {reg : NqRegulator}

theorem hasEncq_some (h_has : hasEncq reg qid = true) :
    ∃ enq encq, reg.enq? qid = some enq ∧ enq.encq = some encq := by
  obtain ⟨encq, h_encq⟩ := Option.isSome_iff_exists.mp h_has
  obtain ⟨enq, h_enq, h_eq⟩ := Option.bind_eq_some_iff.mp h_encq
  exact ⟨enq, encq, h_enq, h_eq⟩

theorem hasEncq_setEnq {enq : ExposedNq} {encq : EnqNcq} (h_has : hasEncq reg qid = true) :
    hasEncq (reg.setEnq qid { enq with encq := some encq }) qid = true := by
  obtain ⟨old, -, h_old, -⟩ := hasEncq_some h_has
  rw [NqRegulator.enq?] at h_old
  split at h_old
  case isTrue h_range =>
    rw [hasEncq, NqRegulator.enq?, NqRegulator.setEnq, if_pos h_range, Option.bind_some]
    dsimp only
    rw [Function.update_self]
    rfl
  case isFalse => cases h_old

/-- The regulator of a device with blex gives every NCQ its eNCQ. -/
theorem RegWf.hasEncq {L : QueueLayout} (h_wf : RegWf L reg) (h_pos : 1 ≤ qid)
    (h_le : qid ≤ L.maxNqid) (h_cq : blkBlexHasCq qid L.toBlkBlexDevInfo = true) :
    hasEncq reg qid = true := by
  rw [Completion.hasEncq, h_wf.enq?_eq h_pos h_le, Option.bind_some, (h_wf.enq qid h_pos h_le).hasCq]
  exact h_cq

/-- The tag set of a device that qualifies for blex, with the regulator as it is published. -/
theorem backed_of_regulatorInit {L : QueueLayout} {params : Sched.Env} {qDepths : Nat → Nat}
    (h_groups : 2 ≤ L.nrCqs) (h_pos : 1 ≤ qid) (h_le : qid ≤ L.maxNqid)
    (h_cq : blkBlexHasCq qid L.toBlkBlexDevInfo = true)
    (h_init : Sched.regulatorInit params L.toBlkBlexDevInfo qDepths = some reg) :
    Backed qid ⟨some L.toBlkBlexDevInfo, some reg, true⟩ where
  blexInfo := rfl
  enqs := rfl
  nqReg := ⟨reg, rfl, RegWf.hasEncq (Sched.regulatorInit_wf h_groups h_init).1 h_pos h_le h_cq⟩

/-- Statistics do not unset anything. -/
theorem Backed.setEncq (h_set : Backed qid set) (h_reg : hasEncq reg qid = true)
    (enq : ExposedNq) (encq : EnqNcq) : Backed qid (set.setEncq reg qid enq encq) where
  blexInfo := h_set.blexInfo
  enqs := h_set.enqs
  nqReg := ⟨_, rfl, hasEncq_setEnq h_reg⟩

/-- `h'` is `h` after one completion of `req`. -/
def CompletesOnce (req : Request) (h h' : Handler) : Prop :=
  h'.set = h.set ∧ ∃ path, h'.effects = h.effects ++ [.complete path req]

theorem CompletesOnce.backed (h_once : CompletesOnce req h h') (h_set : Backed qid h.set) :
    Backed qid h'.set ∧ ∃ path, h'.effects = h.effects ++ [.complete path req] :=
  ⟨h_once.1 ▸ h_set, h_once.2⟩

theorem completeLocally_once (status : Nat) : CompletesOnce req h (completeLocally req status h) := by
  unfold completeLocally
  split
  · exact ⟨rfl, .batch, rfl⟩
  · exact ⟨rfl, .direct, rfl⟩

theorem completeStock_once : CompletesOnce req h (completeStock env cqe req h) := by
  unfold completeStock
  dsimp only
  split
  · exact ⟨rfl, .remote, rfl⟩
  · exact completeLocally_once _

theorem blkBlexGetEnq_backed (h_set : Backed qid set) :
    ∃ reg enq encq, blkBlexGetEnq qid set = .ok (reg, enq) ∧ enq.encq = some encq ∧
      hasEncq reg qid = true := by
  obtain ⟨reg, h_reg, h_has⟩ := h_set.nqReg
  obtain ⟨enq, encq, h_enq, h_encq⟩ := hasEncq_some h_has
  refine ⟨reg, enq, encq, ?_, h_encq, h_has⟩
  rw [blkBlexGetEnq, h_set.enqs, h_reg]
  dsimp only
  rw [enqEntry, h_enq]
  rfl

/-- On an NCQ the Daredevil handler counts the completion and completes the request, in one of
    its ways. -/
theorem nvmeBlexHandleCqe_spec (env : Env) (cqe : NvmeCompletion) (req : Request)
    (h_qid : qid ≠ 0) {enq : ExposedNq} {encq : EnqNcq}
    (h_get : blkBlexGetEnq qid h.set = .ok (reg, enq)) (h_encq : enq.encq = some encq) :
    ∃ h', nvmeBlexHandleCqe env qid cqe req h = .ok (0, h') ∧
      CompletesOnce req { h with set := h.set.setEncq reg qid enq (countComplete encq) } h' := by
  rw [nvmeBlexHandleCqe, if_neg h_qid, h_get]
  simp only [bind, Except.bind, h_encq]
  split
  · split
    · exact ⟨_, rfl, rfl, .remote, rfl⟩
    · split
      · exact ⟨_, rfl, rfl, .direct, rfl⟩
      · exact ⟨_, rfl, completeLocally_once _⟩
  · exact ⟨_, rfl, completeStock_once⟩

/-- A consumed entry had one effect, the completion of its request if it has one. -/
def Single (e : Handled) : Prop :=
  match e.req with
  | none => e.effects = [.invalidId]
  | some req => ∃ path, e.effects = [.complete path req]

theorem nvmeHandleCqe_single (env : Env) (cqe : NvmeCompletion) (h_qid : qid ≠ 0)
    (h_set : Backed qid set) (iob : Option IoCompBatch) :
    ∃ h', nvmeHandleCqe env qid cqe ⟨set, iob, []⟩ = .ok h' ∧ Backed qid h'.set ∧
      Single ⟨cqe, requestOf qid env set cqe, h'.effects⟩ := by
  have h_aen : ¬ env.isAenReq qid cqe.commandId = true := fun h => h_qid (env.aen_admin _ _ h)
  obtain ⟨info, h_info⟩ := Option.isSome_iff_exists.mp h_set.blexInfo
  have h_tags : nvmeQueueTagset qid set = .ok (.io (blkBlexGetTagIdx (qid - 1) info)) := by
    rw [nvmeQueueTagset, if_neg h_qid, h_info]
  rw [nvmeHandleCqe, requestOf, if_neg h_aen, if_neg h_aen, h_tags]
  simp only [bind, Except.bind]
  cases h_find : env.findRq (.io (blkBlexGetTagIdx (qid - 1) info)) cqe.commandId with
  | none => exact ⟨_, rfl, h_set, rfl⟩
  | some req =>
      obtain ⟨reg, enq, encq, h_get, h_encq, h_has⟩ := blkBlexGetEnq_backed h_set
      obtain ⟨h', h_blex, h_once⟩ :=
        nvmeBlexHandleCqe_spec (h := ⟨set, iob, []⟩) env cqe req h_qid h_get h_encq
      dsimp only
      rw [if_neg h_qid, h_blex]
      exact ⟨h', rfl, h_once.backed (h_set.setEncq h_has enq _)⟩

end Handle

/-! ## The ring -/

section Run

variable {qid qDepth : Nat} {s s' : State} {p : Poll}

def phaseBit (cqe : NvmeCompletion) : Bool := cqe.status % 2 == 1

/-- The indices of driver and controller together. -/
def State.ring (s : State) : PhaseRing NvmeCompletion :=
  ⟨s.nvmeq.cqes, s.nvmeq.cqHead, s.nvmeq.cqPhase, s.cqTail, s.ctrlPhase⟩

theorem mod_two_eq_toNat {n : Nat} {b : Bool} : n % 2 = b.toNat ↔ (n % 2 == 1) = b := by
  rcases Nat.mod_two_eq_zero_or_one n with h | h <;> rw [h] <;> cases b <;> decide

theorem nvmeCqePending_eq : nvmeCqePending s.nvmeq = s.ring.isNew phaseBit := by
  rw [Bool.eq_iff_iff, nvmeCqePending, PhaseRing.isNew, beq_iff_eq, beq_iff_eq]
  exact mod_two_eq_toNat

/-- `nvme_update_cq_head` is the consumer's step. -/
theorem nvmeUpdateCqHead_eq :
    nvmeUpdateCqHead qDepth s.nvmeq =
      { s.nvmeq with
        cqHead := RingBuffer.next qDepth s.nvmeq.cqHead
        cqPhase := PhaseRing.nextPhase qDepth s.nvmeq.cqHead s.nvmeq.cqPhase } := by
  rw [nvmeUpdateCqHead, RingBuffer.next, PhaseRing.nextPhase]
  dsimp only
  split
  · rfl
  · rfl

/-! ## What a run keeps -/

structure Inv (qid qDepth : Nat) (s : State) : Prop where
  ring : s.ring.Carries phaseBit qDepth s.posted s.handled.length
  inOrder : s.handled.map (·.cqe) = s.posted.take s.handled.length
  set : Backed qid s.set
  fault : s.fault = none
  single : ∀ e ∈ s.handled, Single e

theorem Init.inv (h : Init s) (h_depth : 2 ≤ qDepth) (h_set : Backed qid s.set) :
    Inv qid qDepth s where
  ring := by
    rw [h.posted, h.handled, State.ring, h.cqHead, h.cqPhase, h.cqTail, h.ctrlPhase]
    refine PhaseRing.Carries.init (by omega) fun i => ?_
    rw [phaseBit, h.cqes i]
    rfl
  inOrder := by
    rw [h.posted, h.handled]
    rfl
  set := h_set
  fault := h.fault
  single e h_e := by
    rw [h.handled] at h_e
    cases h_e

/-- What the return of `nvme_poll_cq` leaves alone. -/
structure Returned (s s' : State) : Prop where
  nvmeq : s'.nvmeq = s.nvmeq
  cqTail : s'.cqTail = s.cqTail
  ctrlPhase : s'.ctrlPhase = s.ctrlPhase
  posted : s'.posted = s.posted
  handled : s'.handled = s.handled

theorem Inv.returned (h : Inv qid qDepth s) (h_ret : Returned s s') (h_set : Backed qid s'.set)
    (h_fault : s'.fault = none) : Inv qid qDepth s' where
  ring := by
    rw [State.ring, h_ret.nvmeq, h_ret.cqTail, h_ret.ctrlPhase, h_ret.posted, h_ret.handled]
    exact h.ring
  inOrder := by
    rw [h_ret.handled, h_ret.posted]
    exact h.inOrder
  set := h_set
  fault := h_fault
  single := by
    rw [h_ret.handled]
    exact h.single

theorem nvmeIrqFound_spec (h_set : Backed qid s.set) (iob : Option IoCompBatch) :
    Returned s (nvmeIrqFound qid iob s) ∧ Backed qid (nvmeIrqFound qid iob s).set ∧
      (nvmeIrqFound qid iob s).fault = s.fault ∧ (nvmeIrqFound qid iob s).poll = s.poll := by
  obtain ⟨reg, h_reg, h_has⟩ := h_set.nqReg
  obtain ⟨enq, encq, h_enq, h_encq⟩ := hasEncq_some h_has
  unfold nvmeIrqFound
  split
  · exact ⟨⟨rfl, rfl, rfl, rfl, rfl⟩, h_set, rfl, rfl⟩
  · rw [h_reg]
    dsimp only
    rw [h_enq]
    dsimp only
    rw [h_encq]
    exact ⟨⟨rfl, rfl, rfl, rfl, rfl⟩, h_set.setEncq h_has enq _, rfl, rfl⟩

theorem pollReturn_spec (h_set : Backed qid s.set) :
    Returned s (pollReturn qid p s) ∧ Backed qid (pollReturn qid p s).set ∧
      (pollReturn qid p s).fault = s.fault ∧ (pollReturn qid p s).poll = none := by
  have h_same : Returned s { s with poll := none } := ⟨rfl, rfl, rfl, rfl, rfl⟩
  unfold pollReturn
  cases p.caller with
  | irq =>
      dsimp only
      split
      · exact ⟨h_same, h_set, rfl, rfl⟩
      · obtain ⟨h_ret, h_set', h_fault, h_poll⟩ :=
          nvmeIrqFound_spec (s := { s with poll := none }) h_set p.iob
        exact ⟨⟨h_ret.1, h_ret.2, h_ret.3, h_ret.4, h_ret.5⟩, h_set', h_fault, h_poll⟩
  | poll => exact ⟨h_same, h_set, rfl, rfl⟩
  | pollIrqdisable => exact ⟨h_same, h_set, rfl, rfl⟩

/-- While an entry is ahead, a turn consumes exactly the next one. -/
theorem Inv.pollTurn_ahead (h : Inv qid qDepth s) (h_qid : qid ≠ 0) (env : Env)
    (h_ahead : s.handled.length < s.posted.length) :
    Inv qid qDepth (pollTurn qid qDepth env p s) ∧
      (pollTurn qid qDepth env p s).poll.isSome = true ∧
      (pollTurn qid qDepth env p s).posted = s.posted ∧
      (pollTurn qid qDepth env p s).handled.length = s.handled.length + 1 := by
  have h_pending : nvmeCqePending s.nvmeq = true := by
    rw [nvmeCqePending_eq]
    exact h.ring.isNew_iff.mpr h_ahead
  obtain ⟨h', h_handle, h_set, h_single⟩ :=
    nvmeHandleCqe_single env (s.nvmeq.cqes s.nvmeq.cqHead) h_qid h.set p.iob
  have h_front := h.ring.front h_ahead
  rw [pollTurn, if_pos h_pending]
  dsimp only
  rw [h_handle]
  dsimp only
  refine ⟨⟨?_, ?_, h_set, h.fault, ?_⟩, rfl, rfl, List.length_append⟩
  · rw [nvmeUpdateCqHead_eq, List.length_append, List.length_singleton]
    exact h.ring.advance h_ahead
  · rw [List.map_append, List.length_append, List.length_singleton, List.take_add_one, ← h_front,
      h.inOrder]
    rfl
  · intro e h_e
    rw [List.mem_append, List.mem_singleton] at h_e
    rcases h_e with h_old | rfl
    · exact h.single e h_old
    · exact h_single

/-- With nothing ahead the call returns. -/
theorem Inv.pollTurn_done (h : Inv qid qDepth s) (env : Env)
    (h_done : ¬ s.handled.length < s.posted.length) :
    Inv qid qDepth (pollTurn qid qDepth env p s) ∧
      (pollTurn qid qDepth env p s).poll = none ∧
      (pollTurn qid qDepth env p s).posted = s.posted ∧
      (pollTurn qid qDepth env p s).handled = s.handled := by
  have h_pending : ¬ nvmeCqePending s.nvmeq = true := by
    rw [nvmeCqePending_eq, h.ring.isNew_iff]
    exact h_done
  rw [pollTurn, if_neg h_pending]
  obtain ⟨h_ret, h_set, h_fault, h_poll⟩ := pollReturn_spec (p := p) h.set
  exact ⟨h.returned h_ret h_set (h_fault.trans h.fault), h_poll, h_ret.posted, h_ret.handled⟩

theorem Inv.pollTurn (h : Inv qid qDepth s) (h_qid : qid ≠ 0) (env : Env) :
    Inv qid qDepth (pollTurn qid qDepth env p s) := by
  by_cases h_ahead : s.handled.length < s.posted.length
  · exact (h.pollTurn_ahead h_qid env h_ahead).1
  · exact (h.pollTurn_done env h_ahead).1

/-- What an event does. -/
inductive Steps (qid qDepth : Nat) (s : State) : Event → State → Prop
  | post {cqe : NvmeCompletion} :
      cqe.status % 2 = s.ctrlPhase.toNat →
      s.posted.length + 1 - s.handled.length ≤ qDepth - 1 →
      Steps qid qDepth s (.post cqe) (s.post qDepth cqe)
  | start {e : Event} {p : Poll} :
      (∀ env, e ≠ .turn env) → p.found = 0 → Steps qid qDepth s e { s with poll := some p }
  /-- `nvme_poll` finds nothing -/
  | idle {iob : Option IoCompBatch} : Steps qid qDepth s (.nvmePoll iob) s
  | turn {env : Env} {p : Poll} :
      s.poll = some p → Steps qid qDepth s (.turn env) (pollTurn qid qDepth env p s)
  | regulator {reg : NqRegulator} :
      s.set.nqReg.isSome = true → hasEncq reg qid = true →
      Steps qid qDepth s (.regulator reg) { s with set := { s.set with nqReg := some reg } }

theorem step_steps {e : Event} (h_step : step qid qDepth s e = some s') :
    s.fault = none ∧ Steps qid qDepth s e s' := by
  rw [step.eq_def] at h_step
  split at h_step
  case isTrue => cases h_step
  case isFalse h_fault =>
    refine ⟨Option.not_isSome_iff_eq_none.mp h_fault, ?_⟩
    cases e with
    | post cqe =>
        obtain ⟨h_ok, h_eq⟩ := Option.ite_none_right_eq_some.mp h_step
        cases h_eq
        exact .post h_ok.1 h_ok.2
    | irq =>
        obtain ⟨-, h_eq⟩ := Option.ite_none_left_eq_some.mp h_step
        cases h_eq
        exact .start (fun _ h => nomatch h) rfl
    | nvmePoll iob =>
        obtain ⟨-, h_eq⟩ := Option.ite_none_left_eq_some.mp h_step
        split at h_eq
        case isTrue =>
          cases h_eq
          exact .start (fun _ h => nomatch h) rfl
        case isFalse =>
          cases h_eq
          exact .idle
    | nvmePollIrqdisable =>
        obtain ⟨-, h_eq⟩ := Option.ite_none_left_eq_some.mp h_step
        cases h_eq
        exact .start (fun _ h => nomatch h) rfl
    | turn env =>
        obtain ⟨p, h_p, rfl⟩ := Option.map_eq_some_iff.mp h_step
        exact .turn h_p
    | regulator reg =>
        obtain ⟨h_ok, h_eq⟩ := Option.ite_none_right_eq_some.mp h_step
        cases h_eq
        exact .regulator h_ok.1 h_ok.2

theorem step_turn (h_fault : s.fault = none) (h_p : s.poll = some p) (env : Env) :
    step qid qDepth s (.turn env) = some (pollTurn qid qDepth env p s) := by
  rw [step.eq_def, if_neg (Option.not_isSome_iff_eq_none.mpr h_fault)]
  dsimp only
  rw [h_p]
  rfl

theorem Inv.post (h : Inv qid qDepth s) (h_depth : 2 ≤ qDepth) {cqe : NvmeCompletion}
    (h_phase : cqe.status % 2 = s.ctrlPhase.toNat)
    (h_room : s.posted.length + 1 - s.handled.length ≤ qDepth - 1) :
    Inv qid qDepth (s.post qDepth cqe) where
  ring := h.ring.post (by omega) (mod_two_eq_toNat.mp h_phase)
  inOrder := by
    show _ = (s.posted ++ [cqe]).take s.handled.length
    rw [List.take_append_of_le_length h.ring.consumed_le]
    exact h.inOrder
  set := h.set
  fault := h.fault
  single := h.single

theorem Inv.step (h : Inv qid qDepth s) (h_qid : qid ≠ 0) (h_depth : 2 ≤ qDepth) {e : Event}
    (h_step : step qid qDepth s e = some s') : Inv qid qDepth s' := by
  cases (step_steps h_step).2 with
  | post h_phase h_room => exact h.post h_depth h_phase h_room
  | start => exact ⟨h.ring, h.inOrder, h.set, h.fault, h.single⟩
  | idle => exact h
  | turn => exact h.pollTurn h_qid _
  | regulator _ h_has =>
      exact ⟨h.ring, h.inOrder, ⟨h.set.blexInfo, h.set.enqs, _, rfl, h_has⟩, h.fault, h.single⟩

/-! ## Every run -/

/-- The turns that are left to a call in progress consume what is there, and then it returns. -/
theorem Inv.finish (h : Inv qid qDepth s) (h_qid : qid ≠ 0) {ahead : Nat}
    (h_ahead : s.posted.length = s.handled.length + ahead) (h_poll : s.poll.isSome = true)
    {envs : List Env} (h_envs : envs.length = ahead + 1) :
    ∃ s', Lts.run (Completion.step qid qDepth) s (envs.map .turn) = some s' ∧
      Inv qid qDepth s' ∧ s'.poll = none ∧ s'.posted = s.posted ∧
      s'.handled.length = s.posted.length := by
  induction ahead generalizing s envs with
  | zero =>
      obtain ⟨p, h_p⟩ := Option.isSome_iff_exists.mp h_poll
      obtain ⟨env, rfl⟩ := List.length_eq_one_iff.mp h_envs
      obtain ⟨h_inv, h_none, h_posted, h_handled⟩ :=
        h.pollTurn_done (p := p) env (by omega)
      refine ⟨_, ?_, h_inv, h_none, h_posted, ?_⟩
      · rw [List.map_singleton, Lts.run_cons_of_step (step_turn h.fault h_p env), Lts.run_nil]
      · rw [h_handled, h_ahead, Nat.add_zero]
  | succ ahead ih =>
      obtain ⟨p, h_p⟩ := Option.isSome_iff_exists.mp h_poll
      obtain ⟨env, rest, rfl⟩ := List.exists_cons_of_length_eq_add_one h_envs
      obtain ⟨h_inv, h_some, h_posted, h_handled⟩ :=
        h.pollTurn_ahead (p := p) h_qid env (by omega)
      obtain ⟨s', h_run, h_inv', h_none, h_same, h_all⟩ :=
        ih h_inv (by rw [h_posted, h_handled, h_ahead]; omega) h_some (Nat.succ.inj h_envs)
      refine ⟨s', ?_, h_inv', h_none, h_same.trans h_posted, h_all.trans (by rw [h_posted])⟩
      rw [List.map_cons, Lts.run_cons_of_step (step_turn h.fault h_p env)]
      exact h_run

/-- Every entry is consumed once, and completes its request once. -/
structure Once (qid qDepth : Nat) (s : State) : Prop where
  fault : s.fault = none
  /-- the entries consumed are the first ones posted, in the order of posting -/
  inOrder : s.handled.map (·.cqe) = s.posted.take s.handled.length
  /-- the driver sees an entry exactly when one is left -/
  pending : nvmeCqePending s.nvmeq = true ↔ s.handled.length < s.posted.length
  single : ∀ e ∈ s.handled, Single e
  /-- a call of `nvme_poll_cq` in progress consumes all that are left and returns -/
  finishes : s.poll.isSome = true → ∀ envs : List Env,
    envs.length = s.posted.length - s.handled.length + 1 →
      ∃ s', Lts.run (step qid qDepth) s (envs.map .turn) = some s' ∧ s'.poll = none ∧
        s'.fault = none ∧ s'.handled.map (·.cqe) = s.posted

theorem Inv.once (h : Inv qid qDepth s) (h_qid : qid ≠ 0) : Once qid qDepth s where
  fault := h.fault
  inOrder := h.inOrder
  pending := by
    rw [nvmeCqePending_eq]
    exact h.ring.isNew_iff
  single := h.single
  finishes h_poll envs h_envs := by
    have h_le := h.ring.consumed_le
    obtain ⟨s', h_run, h_inv, h_none, h_posted, h_all⟩ :=
      h.finish h_qid (Nat.add_sub_of_le h_le).symm h_poll h_envs
    refine ⟨s', h_run, h_none, h_inv.fault, ?_⟩
    rw [h_inv.inOrder, h_posted, h_all, List.take_length]

end Run

/-- On the ring of an NCQ, whatever the controller posts, whoever polls and whenever, and for
    every environment, all entries are consumed in order, once each, and each completes its
    request in exactly one way. -/
theorem completions_once {qid qDepth : Nat} (h_qid : 1 ≤ qid) (h_depth : 2 ≤ qDepth) {s : State}
    (h : Lts.Reach (step qid qDepth) Lts.anyStep (fun s => Init s ∧ Backed qid s.set) s) :
    Once qid qDepth s := by
  have h_io : qid ≠ 0 := by omega
  have h_inv : Inv qid qDepth s := by
    refine h.invariant (fun s h_init => h_init.1.inv h_depth h_init.2) ?_
    exact fun s e s' h_s _ h_step => h_s.step h_io h_depth h_step
  exact h_inv.once h_io

def twoNqs : QueueLayout := ⟨⟨2, 2⟩, by decide, by decide⟩

def twoNqsSet (reg : NqRegulator) : TagSet := ⟨some twoNqs.toBlkBlexDevInfo, some reg, true⟩

/-- A queue before its first completion. -/
def idleQueue (set : TagSet) : State where
  nvmeq := ⟨fun _ => ⟨0, 0, 0⟩, 0, true⟩
  cqTail := 0
  ctrlPhase := true
  set := set
  poll := none
  batched := []
  fault := none
  posted := []
  handled := []

theorem idleQueue_init (set : TagSet) : Init (idleQueue set) :=
  ⟨fun _ => rfl, rfl, rfl, rfl, rfl, rfl, rfl, rfl, rfl⟩

/-- Every command id is that of a request, and no request completes remotely. -/
def localEnv : Env where
  isAenReq _ _ := false
  aen_admin _ _ h := nomatch h
  findRq _ commandId := some ⟨commandId, false, false, false⟩
  tryCompleteReq _ cqe := (false, cqe.status / 2)
  complDispatchOn := true

/-- Two entries, the second of which is posted while the interrupt handler runs and goes over
    the end of the ring. -/
theorem completions_once_twoSlots :
    ∃ reg s, Sched.regulatorInit (.default 2) twoNqs.toBlkBlexDevInfo (fun _ => 2) = some reg ∧
      Lts.run (step 1 2) (idleQueue (twoNqsSet reg))
        [.post ⟨0, 7, 1⟩, .irq, .turn localEnv, .post ⟨0, 8, 1⟩, .turn localEnv, .turn localEnv,
          .post ⟨0, 9, 0⟩, .nvmePollIrqdisable] = some s ∧
      Once 1 2 s := by
  have h_some : ((Sched.regulatorInit (.default 2) twoNqs.toBlkBlexDevInfo fun _ => 2).bind
      fun reg => Lts.run (step 1 2) (idleQueue (twoNqsSet reg))
        [.post ⟨0, 7, 1⟩, .irq, .turn localEnv, .post ⟨0, 8, 1⟩, .turn localEnv, .turn localEnv,
          .post ⟨0, 9, 0⟩, .nvmePollIrqdisable]).isSome := by
    decide +kernel
  obtain ⟨s, h_s⟩ := Option.isSome_iff_exists.mp h_some
  obtain ⟨reg, h_init, h_run⟩ := Option.bind_eq_some_iff.mp h_s
  have h_backed : Backed 1 (idleQueue (twoNqsSet reg)).set :=
    backed_of_regulatorInit (by decide) (by decide) (by decide) (by decide) h_init
  exact ⟨reg, s, h_init, h_run, completions_once (by decide) (by decide)
    (Lts.reach_iff_run.mpr ⟨_, _, ⟨idleQueue_init _, h_backed⟩, h_run⟩)⟩

end Daredevil.Nvme.Completion
