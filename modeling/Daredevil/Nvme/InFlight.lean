/-
  Daredevil.Nvme.InFlight

  The statistic `nr_in_flight_rqs` of an NCQ.  The completion handler counts it down
  and a priority array clears it when the NCQ leaves the top; no submission counts it
  up.  So it is zero up to the first completion, which takes it below zero.

    * `NoneInFlight.arraySteps` — the priority arrays keep a zero;
    * `complete_underflows`     — a completion of a zeroed NCQ wraps its counter;
    * `inFlight_underflows_iff` — what this means for the runs of a device.
-/
import Daredevil.Nvme.Completion
import Daredevil.Nvme.Overflow
import Daredevil.Sched.Recommend

namespace Daredevil.Nvme.InFlight

open Completion (TagSet nvmeBlexHandleCqe countComplete)
open Overflow (NvmeSq Request assocCq nvmeQueueSq nvmeSubmitSq)
open Sched

/-! ## Runs -/

structure State (qDepth : Nat) where
  reg : NqRegulator
  sq : Nat → NvmeSq qDepth
  /-- the commands that were submitted and are not completed -/
  inFlight : List Request

inductive Event where
  /-- `nvme_queue_rq` -/
  | queueRq (req : Request) (last : Bool)
  /-- `nvme_submit_cmds` for queue `nqid` -/
  | submitCmds (nqid : Nat) (rqlist : List Request)
  /-- `nvme_blex_handle_cqe` for a command, on the NCQ of its queue -/
  | complete (env : Completion.Env) (cqe : Completion.NvmeCompletion) (req : Request)
      (rq : Completion.Request) (iob : Option Completion.IoCompBatch)
  | updateGroup (prio : Nat) (mru forceMerit : Int)
  | updateNcq (cqid : Nat) (mru forceMerit : Int)
  | recommend (prio : Nat) (roundRobin : Bool) (ncqMru nsqMru : Int)

variable {qDepth : Nat}

/-- The tag set of a device with blex. -/
def State.set (s : State qDepth) : TagSet := ⟨some s.reg.blexInfo, some s.reg, true⟩

/-- An operation of the scheduler. -/
def State.nq (s : State qDepth) (params : Env) (op : NqOp) : Option (State qDepth) :=
  (nqStep params s.reg op).map fun reg => { s with reg := reg }

def step (L : QueueLayout) (params : Env) (s : State qDepth) : Event → Option (State qDepth)
  | .queueRq req last =>
      if 1 ≤ req.nqid ∧ req.nqid ≤ L.maxNqid then
        some { s with
          sq := Function.update s.sq req.nqid (nvmeQueueSq (s.sq req.nqid) req last)
          inFlight := s.inFlight ++ [req] }
      else none
  | .submitCmds nqid rqlist =>
      if (1 ≤ nqid ∧ nqid ≤ L.maxNqid) ∧ ∀ req ∈ rqlist, req.nqid = nqid then
        some { s with
          sq := Function.update s.sq nqid (nvmeSubmitSq (s.sq nqid) rqlist)
          inFlight := s.inFlight ++ rqlist }
      else none
  | .complete env cqe req rq iob =>
      if req ∈ s.inFlight then
        match nvmeBlexHandleCqe env (assocCq L req.nqid) cqe rq ⟨s.set, iob, []⟩ with
        | .error _ => none
        | .ok (_, h) =>
            h.set.nqReg.map fun reg => { s with reg := reg, inFlight := s.inFlight.erase req }
      else none
  | .updateGroup prio mru forceMerit => s.nq params (.updateGroup prio mru forceMerit)
  | .updateNcq cqid mru forceMerit => s.nq params (.updateNcq cqid mru forceMerit)
  | .recommend prio roundRobin ncqMru nsqMru =>
      s.nq params (.recommend prio roundRobin ncqMru nsqMru)

/-- The regulator as it is published, and nothing submitted. -/
structure Init (L : QueueLayout) (params : Env) (s : State qDepth) : Prop where
  reg : ∃ qDepths, regulatorInit params L.toBlkBlexDevInfo qDepths = some s.reg
  inFlight : s.inFlight = []

/-- `nr_in_flight_rqs` of an NCQ; `none` for a queue that is not one. -/
def counter (reg : NqRegulator) (cqid : Nat) : Option Nat :=
  ((reg.enq? cqid).bind (·.encq)).map (·.nrInFlightRqs)

/-- The commands in flight on the queues of an NCQ. -/
def outstanding (L : QueueLayout) (s : State qDepth) (cqid : Nat) : Nat :=
  s.inFlight.countP fun req => assocCq L req.nqid = cqid

/-- Every NCQ counts what is in flight on its queues. -/
def Truthful (L : QueueLayout) (s : State qDepth) : Prop :=
  ∀ cqid n, counter s.reg cqid = some n → n = outstanding L s cqid

/-- From `s` to `s'` some counter went below zero. -/
def Underflows (s s' : State qDepth) : Prop :=
  ∃ cqid, counter s.reg cqid = some 0 ∧ counter s'.reg cqid = some (Word32.bound - 1)

/-- The event completes a command. -/
def Completes : Event → Prop
  | .complete .. => True
  | _ => False

/-! ## The counters stay at zero -/

/-- An eNQ of a device whose eNQs are set up as far as `n`: an NCQ has its eNCQ, and a counter
    is zero. -/
structure EnqZero (info : BlkBlexDevInfo) (n nqid : Nat) (enq : ExposedNq) : Prop where
  ncq : nqid ≤ n → 1 ≤ nqid → blkBlexHasCq nqid info = true → enq.encq.isSome = true
  zero : ∀ encq, enq.encq = some encq → encq.nrInFlightRqs = 0

structure Zeroed (info : BlkBlexDevInfo) (n : Nat) (reg : NqRegulator) : Prop where
  info_eq : reg.blexInfo = info
  enq : ∀ nqid, EnqZero info n nqid (reg.enqs nqid)

section Zero

variable {info : BlkBlexDevInfo} {n nqid : Nat} {params : Env} {reg reg' : NqRegulator}
  {enq : ExposedNq}

theorem EnqZero.mapEncq (h : EnqZero info n nqid enq) {f : EnqNcq → EnqNcq}
    (h_f : ∀ encq, encq.nrInFlightRqs = 0 → (f encq).nrInFlightRqs = 0) :
    EnqZero info n nqid { enq with encq := enq.encq.map f } where
  ncq h_le h_pos h_cq := Option.isSome_map.trans (h.ncq h_le h_pos h_cq)
  zero encq h_encq := by
    obtain ⟨old, h_old, rfl⟩ := Option.map_eq_some_iff.mp h_encq
    exact h_f old (h.zero old h_old)

theorem Zeroed.setEnq {m : Nat} (h_info : reg.blexInfo = info)
    (h_other : ∀ i, i ≠ nqid → EnqZero info m i (reg.enqs i)) (h_enq : EnqZero info m nqid enq) :
    Zeroed info m (reg.setEnq nqid enq) where
  info_eq := h_info
  enq := NqRegulator.setEnq_forall h_enq h_other

theorem Zeroed.replace (h : Zeroed info n reg) (h_enq : EnqZero info n nqid enq) :
    Zeroed info n (reg.setEnq nqid enq) :=
  .setEnq h.info_eq (fun i _ => h.enq i) h_enq

/-- An update keeps a counter or clears it. -/
theorem Zeroed.arraySteps : ArraySteps fun reg reg' => Zeroed info n reg → Zeroed info n reg' where
  refl _ := id
  trans h h' := h' ∘ h
  clearOldTop reg nqid type merit h := by
    cases type with
    | ncq => exact h.replace ((h.enq nqid).mapEncq fun _ _ => rfl)
    | nsq => exact h.replace ⟨(h.enq nqid).ncq, (h.enq nqid).zero⟩
  setGroup _ _ _ h := ⟨h.info_eq, h.enq⟩
  setNcqArr _ cqid _ h := h.replace ((h.enq cqid).mapEncq fun _ h_zero => h_zero)

theorem encqInit_zero {cqid : Nat} {encq : EnqNcq}
    (h_init : encqInit params info cqid = some encq) : encq.nrInFlightRqs = 0 := by
  rw [encqInit] at h_init
  split at h_init
  case isTrue =>
    obtain ⟨arr, -, h_eq⟩ := Option.bind_eq_some_iff.mp h_init
    cases h_eq
    rfl
  case isFalse =>
    cases h_init
    rfl

theorem enqEncq_zero (h : EnqZero info n (n + 1) enq) {encq : Option EnqNcq}
    (h_encq : enqEncq params info enq (n + 1)
      (blkBlexGetCqid (n + 1) info.maxNqid info.nrCqs) = some encq) :
    EnqZero info (n + 1) (n + 1) { enq with encq := encq } := by
  rw [enqEncq] at h_encq
  split at h_encq
  case isTrue =>
    obtain ⟨new, h_new, rfl⟩ := Option.map_eq_some_iff.mp h_encq
    refine ⟨fun _ _ _ => rfl, fun encq h_eq => ?_⟩
    cases h_eq
    exact encqInit_zero h_new
  case isFalse h_ne =>
    cases h_encq
    exact ⟨fun _ _ h_cq => absurd (beq_iff_eq.mp h_cq) h_ne, h.zero⟩

theorem Zeroed.enqInit (h : Zeroed info n reg)
    (h_init : blkBlexEnqInit params reg (n + 1) = some reg') : Zeroed info (n + 1) reg' := by
  obtain ⟨cqInfo, group, encq, -, -, h_encq, rfl⟩ := enqInit_cases h_init
  rw [h.info_eq] at h_encq
  have h_new := enqEncq_zero (h.enq (n + 1)) h_encq
  refine .setEnq h.info_eq (fun i h_ne => ?_) ⟨h_new.ncq, h_new.zero⟩
  exact ⟨fun h_le => (h.enq i).ncq (by omega), (h.enq i).zero⟩

theorem zeroed_initInv (params : Env) (info : BlkBlexDevInfo) : InitInv params (Zeroed info) where
  attach _ _ nqid h := h.replace ⟨(h.enq nqid).ncq, (h.enq nqid).zero⟩
  setGroup := Zeroed.arraySteps.setGroup
  enqInit _ _ _ h h_init := h.enqInit h_init

theorem regulatorInit_zeroed {qDepths : Nat → Nat}
    (h_init : regulatorInit params info qDepths = some reg) : Zeroed info info.maxNqid reg := by
  obtain ⟨reg₀, h_alloc, rfl⟩ := Option.map_eq_some_iff.mp h_init
  have h_zero : Zeroed info 0 (regulatorZero info) :=
    ⟨rfl, fun nqid => ⟨fun _ _ => by omega, fun _ h_encq => by cases h_encq⟩⟩
  have h_done := (zeroed_initInv params info).allocAndInit h_zero h_alloc
  exact ⟨h_done.info_eq, fun nqid => ⟨(h_done.enq nqid).ncq, (h_done.enq nqid).zero⟩⟩

theorem Zeroed.counter_eq (h : Zeroed info n reg) {cqid k : Nat}
    (h_k : counter reg cqid = some k) : k = 0 := by
  obtain ⟨encq, h_encq, rfl⟩ := Option.map_eq_some_iff.mp h_k
  obtain ⟨enq, h_enq, h_eq⟩ := Option.bind_eq_some_iff.mp h_encq
  rw [enq?_eq_enqs h_enq] at h_eq
  exact (h.enq cqid).zero encq h_eq

end Zero

/-! ## What a run without completions keeps -/

section Run

variable {L : QueueLayout} {params : Env} {s s' : State qDepth}

structure Inv (L : QueueLayout) (s : State qDepth) : Prop where
  zeroed : Zeroed L.toBlkBlexDevInfo L.maxNqid s.reg
  range : ∀ req ∈ s.inFlight, 1 ≤ req.nqid ∧ req.nqid ≤ L.maxNqid

theorem Init.inv (h : Init L params s) : Inv L s where
  zeroed := by
    obtain ⟨qDepths, h_init⟩ := h.reg
    exact regulatorInit_zeroed h_init
  range req h_req := by
    rw [h.inFlight] at h_req
    cases h_req

theorem Inv.nq (h : Inv L s) (op : NqOp)
    (h_op : ∀ nqid stats mask, op ≠ .statistics nqid stats mask)
    (h_step : s.nq params op = some s') : Inv L s' := by
  obtain ⟨reg, h_reg, rfl⟩ := Option.map_eq_some_iff.mp h_step
  refine ⟨Zeroed.arraySteps.nqStep (fun _ _ _ h_eq => absurd h_eq (h_op _ _ _)) h_reg h.zeroed, ?_⟩
  exact h.range

/-- Commands for queues of the device are submitted. -/
theorem Inv.submit (h : Inv L s) (sq : Nat → NvmeSq qDepth) {reqs : List Request}
    (h_reqs : ∀ r ∈ reqs, 1 ≤ r.nqid ∧ r.nqid ≤ L.maxNqid) :
    Inv L { s with sq := sq, inFlight := s.inFlight ++ reqs } where
  zeroed := h.zeroed
  range r h_r := by
    rcases List.mem_append.mp h_r with h_old | h_new
    · exact h.range r h_old
    · exact h_reqs r h_new

theorem Inv.step (h : Inv L s) {e : Event} (h_ok : ¬ Completes e)
    (h_step : step L params s e = some s') : Inv L s' := by
  cases e with
  | queueRq req last =>
      obtain ⟨h_range, h_eq⟩ := Option.ite_none_right_eq_some.mp h_step
      cases h_eq
      apply h.submit
      intro r h_r
      rw [List.mem_singleton.mp h_r]
      exact h_range
  | submitCmds nqid rqlist =>
      obtain ⟨h_range, h_eq⟩ := Option.ite_none_right_eq_some.mp h_step
      cases h_eq
      apply h.submit
      intro r h_r
      rw [h_range.2 r h_r]
      exact h_range.1
  | complete env cqe req rq iob => exact absurd trivial h_ok
  | updateGroup prio mru forceMerit =>
      exact h.nq (.updateGroup prio mru forceMerit) (fun _ _ _ h_eq => nomatch h_eq) h_step
  | updateNcq cqid mru forceMerit =>
      exact h.nq (.updateNcq cqid mru forceMerit) (fun _ _ _ h_eq => nomatch h_eq) h_step
  | recommend prio roundRobin ncqMru nsqMru =>
      exact h.nq (.recommend prio roundRobin ncqMru nsqMru) (fun _ _ _ h_eq => nomatch h_eq) h_step

/-- The NCQ of a command in flight. -/
theorem Inv.assocCq (h : Inv L s) {req : Request} (h_req : req ∈ s.inFlight) :
    ∃ enq encq, s.reg.enq? (assocCq L req.nqid) = some enq ∧ enq.encq = some encq ∧
      encq.nrInFlightRqs = 0 ∧ assocCq L req.nqid ≠ 0 := by
  obtain ⟨h_pos, h_le⟩ := h.range req h_req
  obtain ⟨k, hk, h_cqid, -⟩ := L.getCqid_spec h_pos h_le
  have h_self := L.kthCqid_mem_attached hk
  obtain ⟨h_cqPos, h_cqLe⟩ := L.mem_range_of_attached hk h_self
  have h_cq : blkBlexHasCq (L.kthCqid k) L.toBlkBlexDevInfo = true := by
    rw [blkBlexHasCq, L.getCqid_of_mem_attached hk h_self, beq_self_eq_true]
  have h_enq := h.zeroed.enq (L.kthCqid k)
  obtain ⟨encq, h_encq⟩ := Option.isSome_iff_exists.mp (h_enq.ncq h_cqLe h_cqPos h_cq)
  rw [Overflow.assocCq, h_cqid]
  refine ⟨_, encq, ?_, h_encq, h_enq.zero encq h_encq, by omega⟩
  rw [NqRegulator.enq?, h.zeroed.info_eq, if_pos ⟨h_cqPos, h_cqLe⟩]

theorem counter_eq {reg : NqRegulator} {cqid : Nat} {enq : ExposedNq} {encq : EnqNcq}
    (h_enq : reg.enq? cqid = some enq) (h_encq : enq.encq = some encq) :
    counter reg cqid = some encq.nrInFlightRqs := by
  rw [counter, h_enq, Option.bind_some, h_encq, Option.map_some]

theorem counter_setEnq {reg : NqRegulator} {cqid : Nat} {enq : ExposedNq} (encq : EnqNcq)
    (h_enq : reg.enq? cqid = some enq) :
    counter (reg.setEnq cqid { enq with encq := some encq }) cqid = some encq.nrInFlightRqs := by
  have h_new : (reg.setEnq cqid { enq with encq := some encq }).enq? cqid =
      some { enq with encq := some encq } := by
    rw [NqRegulator.enq?] at h_enq
    split at h_enq
    case isTrue h_range =>
      rw [NqRegulator.enq?, NqRegulator.enqs_setEnq_self]
      exact if_pos h_range
    case isFalse => cases h_enq
  exact counter_eq h_new rfl

/-- A completion takes the zero of its NCQ below zero. -/
theorem Inv.complete_underflows (h : Inv L s) {e : Event} (h_e : Completes e)
    (h_step : InFlight.step L params s e = some s') : Underflows s s' := by
  cases e with
  | complete env cqe req rq iob =>
      obtain ⟨h_req, h_eq⟩ := Option.ite_none_right_eq_some.mp h_step
      obtain ⟨enq, encq, h_enq, h_encq, h_zero, h_cq⟩ := h.assocCq h_req
      have h_get : Completion.blkBlexGetEnq (Overflow.assocCq L req.nqid) s.set =
          .ok (s.reg, enq) := by
        rw [Completion.blkBlexGetEnq, State.set]
        dsimp only
        rw [Completion.enqEntry, h_enq]
        rfl
      obtain ⟨h', h_handle, h_set, -⟩ :=
        Completion.nvmeBlexHandleCqe_spec (h := ⟨s.set, iob, []⟩) env cqe rq h_cq h_get h_encq
      rw [h_handle] at h_eq
      dsimp only at h_eq
      rw [h_set] at h_eq
      cases h_eq
      refine ⟨Overflow.assocCq L req.nqid, ?_, ?_⟩
      · rw [counter_eq h_enq h_encq, h_zero]
      · refine (counter_setEnq (countComplete encq) h_enq).trans ?_
        rw [countComplete, h_zero]
        rfl
  | queueRq req last => exact h_e.elim
  | submitCmds nqid rqlist => exact h_e.elim
  | updateGroup prio mru forceMerit => exact h_e.elim
  | updateNcq cqid mru forceMerit => exact h_e.elim
  | recommend prio roundRobin ncqMru nsqMru => exact h_e.elim

/-- Zero is the number of commands in flight when there are none. -/
theorem Inv.truthful_iff (h : Inv L s) : Truthful L s ↔ s.inFlight = [] := by
  constructor
  · intro h_true
    by_contra h_ne
    obtain ⟨req, rest, h_cons⟩ := List.exists_cons_of_ne_nil h_ne
    have h_req : req ∈ s.inFlight := by
      rw [h_cons]
      exact List.mem_cons_self
    obtain ⟨enq, encq, h_enq, h_encq, h_zero, -⟩ := h.assocCq h_req
    have h_count := h_true _ _ (counter_eq h_enq h_encq)
    have h_some : 0 < outstanding L s (Overflow.assocCq L req.nqid) :=
      List.countP_pos_iff.mpr ⟨req, h_req, decide_eq_true rfl⟩
    omega
  · intro h_nil cqid n h_n
    rw [h.zeroed.counter_eq h_n, outstanding, h_nil, List.countP_nil]

/-- In every run without completions all counters are zero, which is what is in flight only while
    nothing was submitted; and a step from there takes a counter below zero exactly when it
    completes a command. -/
theorem inFlight_underflows_iff
    (h : Lts.Reach (step L params) (fun _ e => ¬ Completes e) (Init L params) s) :
    (∀ cqid n, counter s.reg cqid = some n → n = 0) ∧
      (Truthful L s ↔ s.inFlight = []) ∧
      ∀ e s', step L params s e = some s' → (¬ Underflows s s' ↔ ¬ Completes e) := by
  have h_inv : Inv L s := by
    refine h.invariant (fun s h_init => h_init.inv) ?_
    exact fun s e s' h_s h_ok h_step => h_s.step h_ok h_step
  refine ⟨fun cqid n h_n => h_inv.zeroed.counter_eq h_n, h_inv.truthful_iff, ?_⟩
  intro e s' h_step
  refine ⟨fun h_not h_e => h_not (h_inv.complete_underflows h_e h_step), ?_⟩
  rintro h_e ⟨cqid, -, h_wrap⟩
  have h_zero := (h_inv.step h_e h_step).zeroed.counter_eq h_wrap
  cases h_zero

end Run

/-- A device before its first submission. -/
def fresh (reg : NqRegulator) : State 64 := ⟨reg, fun _ => ⟨.empty, 0⟩, []⟩

/-- Two commands on both queues, and an update of the first group. -/
theorem inFlight_underflows_iff_twoNqs :
    ∃ reg s, regulatorInit (.default 2) Completion.twoNqs.toBlkBlexDevInfo (fun _ => 64) = some reg ∧
      Lts.run (step Completion.twoNqs (.default 2)) (fresh reg)
        [.queueRq ⟨0, 1, 0⟩ true, .submitCmds 2 [⟨0, 2, 0⟩], .updateGroup 0 4 0] = some s ∧
      (∀ cqid n, counter s.reg cqid = some n → n = 0) ∧
        (Truthful Completion.twoNqs s ↔ s.inFlight = []) ∧
        ∀ e s', step Completion.twoNqs (.default 2) s e = some s' →
          (¬ Underflows s s' ↔ ¬ Completes e) := by
  have h_some : ((regulatorInit (.default 2) Completion.twoNqs.toBlkBlexDevInfo fun _ => 64).bind
      fun reg => Lts.run (step Completion.twoNqs (.default 2)) (fresh reg)
        [.queueRq ⟨0, 1, 0⟩ true, .submitCmds 2 [⟨0, 2, 0⟩], .updateGroup 0 4 0]).isSome := by
    decide +kernel
  obtain ⟨s, h_s⟩ := Option.isSome_iff_exists.mp h_some
  obtain ⟨reg, h_init, h_run⟩ := Option.bind_eq_some_iff.mp h_s
  have h_start : Init Completion.twoNqs (.default 2) (fresh reg) := ⟨⟨_, h_init⟩, rfl⟩
  refine ⟨reg, s, h_init, h_run, inFlight_underflows_iff ((Lts.Reach.init h_start).run ?_ h_run)⟩
  intro e h_e _ h_complete
  rw [List.mem_cons, List.mem_cons, List.mem_singleton] at h_e
  rcases h_e with rfl | rfl | rfl <;> exact h_complete

/-- One command, submitted and completed: nothing is in flight, and the counter is `2 ^ 32 - 1`. -/
theorem inFlight_wraps :
    ((regulatorInit (.default 2) Completion.twoNqs.toBlkBlexDevInfo fun _ => 64).bind fun reg =>
      (Lts.run (step Completion.twoNqs (.default 2)) (fresh reg)
        [.queueRq ⟨0, 1, 0⟩ true,
          .complete Completion.localEnv ⟨0, 0, 1⟩ ⟨0, 1, 0⟩ ⟨0, false, false, false⟩ none]).map
        fun s => (counter s.reg 1, outstanding Completion.twoNqs s 1)) =
      some (some 4294967295, 0) := by
  decide +kernel

end Daredevil.Nvme.InFlight
