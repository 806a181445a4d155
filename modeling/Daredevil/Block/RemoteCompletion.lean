/-
  Daredevil.Block.RemoteCompletion

  Completing a request on another CPU than the one that the interrupt has come to
  (`block/blk-mq.c`).  Each CPU has a list of requests to complete, `blk_cpu_done`.  Whoever finds
  the list empty when it adds a request to it sees to it that the softirq of that CPU is raised, by
  an IPI or, on its own CPU, directly; the others rely on the first one.  The softirq takes the
  whole list.  The list of a CPU that has gone offline is emptied once more.

  Interrupts, IPIs, softirqs and CPUs that come and go are interleaved in any way.  An interrupt
  thread can be preempted between its look at `cpu_online_mask` and the IPI, so that the CPU may
  have gone by then; nothing is preempted on a CPU that is going offline itself.

    * `blkMqCompleteRequestRemote` — where a request is completed;
    * `Ordered`                    — what has been added is completed once, and in that order;
    * `Awaited`, `Loses`           — a list that is not empty will be taken, and when it will not;
    * `completed_once`             — all of it, for every step from every reachable state.
-/
import Daredevil.Lib.Lts
import Mathlib.Logic.Function.Basic

namespace Daredevil.RemoteCompletion

/-! ## Where to complete -/

section Route

variable {ι : Type} [DecidableEq ι]

/-- What the functions ask about the machine and the queue. -/
structure Config (ι : Type) where
  /-- `IS_ENABLED(CONFIG_SMP)` -/
  smp : Bool
  forceIrqthreads : Bool
  /-- `QUEUE_FLAG_SAME_COMP`, `QUEUE_FLAG_SAME_FORCE` -/
  sameComp : Bool
  sameForce : Bool
  nrHwQueues : Nat
  cpusShareCache : ι → ι → Bool

structure Request (ι : Type) where
  id : Nat
  /-- `mq_ctx->cpu` -/
  ctxCpu : ι
  /-- `mq_hctx->nr_ctx` -/
  nrCtx : Nat
  /-- `REQ_POLLED` -/
  polled : Bool
  deriving DecidableEq, Repr

inductive Route where
  /-- by the caller -/
  | here
  | ipi
  | softirq
  deriving DecidableEq, Repr

/-- `blk_mq_complete_need_ipi`, on CPU `cpu` -/
def blkMqCompleteNeedIpi (env : Config ι) (online : ι → Bool) (cpu : ι) (rq : Request ι) : Bool :=
  if !env.smp || !env.sameComp then false
  else if env.forceIrqthreads then false
  else if cpu = rq.ctxCpu || (!env.sameForce && env.cpusShareCache cpu rq.ctxCpu) then false
  else online rq.ctxCpu

/-- `blk_mq_complete_request_remote` -/
def blkMqCompleteRequestRemote (env : Config ι) (online : ι → Bool) (cpu : ι) (rq : Request ι) :
    Route :=
  if rq.nrCtx = 1 || rq.polled then .here
  else if blkMqCompleteNeedIpi env online cpu rq then .ipi
  else if env.nrHwQueues = 1 then .softirq
  else .here

end Route

/-! ## State -/

/-- Where the softirq of a CPU stands, or `blk_softirq_cpu_dead` for it. -/
inductive Worker where
  | idle
  /-- in `blk_complete_reqs`, before `llist_del_all` -/
  | toTake
  /-- with these requests to complete -/
  | has (rqs : List Nat)
  deriving DecidableEq, Repr

structure Cpu where
  online : Bool
  /-- `blk_cpu_done`, the request that was added last first -/
  blkCpuDone : List Nat
  /-- the IPIs that are on their way -/
  ipi : Nat
  /-- `BLOCK_SOFTIRQ` is pending -/
  softirq : Bool
  worker : Worker
  /-- requests for which `blk_mq_complete_need_ipi` has chosen this CPU -/
  chosen : List Nat
  /-- those that have found the list empty, and are to send an IPI -/
  senders : Nat
  /-- and those that are to raise the softirq, on this CPU -/
  raisers : Nat
  /-- all the requests that have been added to the list, and all that have been completed from it -/
  added : List Nat
  completed : List Nat
  deriving DecidableEq, Repr

structure State (ι : Type) where
  cpu : ι → Cpu
  /-- the requests that have been completed by the caller -/
  here : List Nat

inductive Event (ι : Type) where
  /-- `blk_mq_complete_request`, on CPU `c` -/
  | finish (c : ι) (rq : Request ι)
  /-- `llist_add` in `blk_mq_complete_send_ipi` -/
  | add (c : ι) (id : Nat)
  /-- `smp_call_function_single_async` -/
  | sendIpi (c : ι)
  | raiseSoftirq (c : ι)
  /-- `__blk_mq_complete_request_remote`, on CPU `c` -/
  | ipi (c : ι)
  /-- `blk_done_softirq` begins -/
  | softirq (c : ι)
  /-- `llist_del_all` -/
  | take (c : ι)
  /-- the driver completes a request, or `blk_complete_reqs` returns -/
  | complete (c : ι)
  /-- the CPU goes offline, and `blk_softirq_cpu_dead` begins -/
  | offline (c : ι)
  | online (c : ι)
  deriving DecidableEq, Repr

/-! ## Steps -/

namespace Cpu

/-- `llist_add` -/
def llistAdd (x : Cpu) (id : Nat) : Cpu :=
  { x with blkCpuDone := id :: x.blkCpuDone, added := x.added ++ [id] }

/-- One if `llist_add` says that the list was empty. -/
def first (x : Cpu) : Nat := if x.blkCpuDone = [] then 1 else 0

/-- `blk_mq_complete_send_ipi`, up to the IPI -/
def blkMqCompleteSendIpi (x : Cpu) (id : Nat) : Cpu :=
  { x.llistAdd id with chosen := x.chosen.erase id, senders := x.senders + x.first }

/-- `blk_mq_raise_softirq`, up to the softirq -/
def blkMqRaiseSoftirq (x : Cpu) (id : Nat) : Cpu :=
  { x.llistAdd id with raisers := x.raisers + x.first }

/-- An IPI is not sent to a CPU that is offline. -/
def sendIpi (x : Cpu) : Cpu :=
  { x with senders := x.senders - 1, ipi := if x.online then x.ipi + 1 else x.ipi }

/-- `blk_complete_reqs` goes on. -/
def complete (x : Cpu) : Option Cpu :=
  match x.worker with
  | .has [] => some { x with worker := .idle }
  | .has (id :: ids) => some { x with worker := .has ids, completed := x.completed ++ [id] }
  | _ => none

/-- What comes from outside is over: IPIs have come or have been dropped, and the softirq is left
to `blk_softirq_cpu_dead`. -/
def goOffline (x : Cpu) : Cpu :=
  { x with online := false, ipi := 0, softirq := false, worker := .toTake }

end Cpu

section Steps

variable {ι : Type} [DecidableEq ι]

def State.setCpu (s : State ι) (c : ι) (x : Cpu) : State ι :=
  { s with cpu := Function.update s.cpu c x }

def step (env : Config ι) (s : State ι) : Event ι → Option (State ι)
  | .finish c rq =>
      if (s.cpu c).online then
        match blkMqCompleteRequestRemote env (fun c => (s.cpu c).online) c rq with
        | .here => some { s with here := rq.id :: s.here }
        | .ipi =>
            let x := s.cpu rq.ctxCpu
            some (s.setCpu rq.ctxCpu { x with chosen := rq.id :: x.chosen })
        | .softirq => some (s.setCpu c ((s.cpu c).blkMqRaiseSoftirq rq.id))
      else none
  | .add c id =>
      if id ∈ (s.cpu c).chosen then some (s.setCpu c ((s.cpu c).blkMqCompleteSendIpi id))
      else none
  | .sendIpi c => if 0 < (s.cpu c).senders then some (s.setCpu c (s.cpu c).sendIpi) else none
  | .raiseSoftirq c =>
      if 0 < (s.cpu c).raisers then
        let x := s.cpu c
        some (s.setCpu c { x with raisers := x.raisers - 1, softirq := true })
      else none
  | .ipi c =>
      if 0 < (s.cpu c).ipi then
        let x := s.cpu c
        some (s.setCpu c { x with ipi := x.ipi - 1, softirq := true })
      else none
  | .softirq c =>
      if (s.cpu c).softirq ∧ (s.cpu c).worker = .idle then
        let x := s.cpu c
        some (s.setCpu c { x with softirq := false, worker := .toTake })
      else none
  | .take c =>
      if (s.cpu c).worker = .toTake then
        let x := s.cpu c
        some (s.setCpu c { x with worker := .has x.blkCpuDone.reverse, blkCpuDone := [] })
      else none
  | .complete c => (s.cpu c).complete.map (s.setCpu c)
  | .offline c =>
      if (s.cpu c).online ∧ (s.cpu c).worker = .idle ∧ (s.cpu c).raisers = 0 then
        some (s.setCpu c (s.cpu c).goOffline)
      else none
  | .online c =>
      if !(s.cpu c).online ∧ (s.cpu c).worker = .idle then
        let x := s.cpu c
        some (s.setCpu c { x with online := true })
      else none

end Steps

/-- Nothing has been completed. -/
def Init {ι : Type} (s : State ι) : Prop :=
  ∀ c, (s.cpu c).blkCpuDone = [] ∧ (s.cpu c).worker = .idle ∧ (s.cpu c).added = [] ∧
    (s.cpu c).completed = []

/-! ## One CPU -/

def Worker.hands : Worker → List Nat
  | .has rqs => rqs
  | _ => []

/-- What has been added is completed, in that order, or still there. -/
def Ordered (x : Cpu) : Prop :=
  x.added = x.completed ++ x.worker.hands ++ x.blkCpuDone.reverse

/-- Somebody will take the list. -/
def Coming (x : Cpu) : Prop :=
  0 < x.ipi ∨ x.softirq = true ∨ x.worker = .toTake ∨ 0 < x.senders ∨ 0 < x.raisers

def Awaited (x : Cpu) : Prop := x.blkCpuDone ≠ [] → Coming x

/-- The CPU has gone, and its list been emptied, when the only IPI that the requests on the list
rely on is to be sent. -/
structure Stranded (x : Cpu) : Prop where
  online : x.online = false
  list : x.blkCpuDone ≠ []
  senders : x.senders = 1
  ipi : x.ipi = 0
  softirq : x.softirq = false
  worker : x.worker ≠ .toTake
  raisers : x.raisers = 0

def Loses {ι : Type} (s : State ι) (e : Event ι) (c : ι) : Prop :=
  e = .sendIpi c ∧ Stranded (s.cpu c)

namespace Cpu

variable {x x' : Cpu} {id : Nat}

theorem ordered_llistAdd (h : Ordered x) : Ordered (x.llistAdd id) := by
  unfold Ordered at h ⊢
  simp only [llistAdd]
  rw [h, List.reverse_cons, List.append_assoc _ _ [id]]

theorem ordered_complete (h : Ordered x) (h_step : x.complete = some x') : Ordered x' := by
  unfold complete at h_step
  split at h_step
  · rename_i h_worker
    cases h_step
    unfold Ordered at h ⊢
    rw [h, h_worker]
    rfl
  · rename_i id ids h_worker
    cases h_step
    unfold Ordered at h ⊢
    rw [h, h_worker]
    simp [Worker.hands]
  · cases h_step

theorem awaited_complete (h : Awaited x) (h_step : x.complete = some x') : Awaited x' := by
  unfold complete at h_step
  split at h_step
  · rename_i h_worker
    cases h_step
    intro h_list
    have h_coming := h h_list
    simpa [Coming, h_worker] using h_coming
  · rename_i id ids h_worker
    cases h_step
    intro h_list
    have h_coming := h h_list
    simpa [Coming, h_worker] using h_coming
  · cases h_step

/-- The first one on the list will see to it, and the others find somebody who does. -/
theorem coming_or_first (h : Awaited x) : Coming x ∨ x.first = 1 := by
  by_cases h_empty : x.blkCpuDone = []
  · right
    rw [first, if_pos h_empty]
  · left
    exact h h_empty

theorem awaited_sendIpi_first (h : Awaited x) : Awaited (x.blkMqCompleteSendIpi id) := by
  intro _
  have h_senders : (x.blkMqCompleteSendIpi id).senders = x.senders + x.first := rfl
  unfold Coming
  rw [h_senders]
  rcases coming_or_first h with (h_ipi | h_softirq | h_worker | h_some | h_raisers) | h_first
  · exact Or.inl h_ipi
  · exact Or.inr (Or.inl h_softirq)
  · exact Or.inr (Or.inr (Or.inl h_worker))
  · exact Or.inr (Or.inr (Or.inr (Or.inl (by omega))))
  · exact Or.inr (Or.inr (Or.inr (Or.inr h_raisers)))
  · exact Or.inr (Or.inr (Or.inr (Or.inl (by omega))))

theorem awaited_raiseSoftirq_first (h : Awaited x) : Awaited (x.blkMqRaiseSoftirq id) := by
  intro _
  have h_raisers : (x.blkMqRaiseSoftirq id).raisers = x.raisers + x.first := rfl
  unfold Coming
  rw [h_raisers]
  rcases coming_or_first h with (h_ipi | h_softirq | h_worker | h_senders | h_some) | h_first
  · exact Or.inl h_ipi
  · exact Or.inr (Or.inl h_softirq)
  · exact Or.inr (Or.inr (Or.inl h_worker))
  · exact Or.inr (Or.inr (Or.inr (Or.inl h_senders)))
  · exact Or.inr (Or.inr (Or.inr (Or.inr (by omega))))
  · exact Or.inr (Or.inr (Or.inr (Or.inr (by omega))))

/-- An IPI makes up for its sender, if it is sent. -/
theorem awaited_sendIpi (h_some : 0 < x.senders) :
    Awaited x.sendIpi ↔ ¬Stranded x := by
  constructor
  · intro h_after h_stranded
    have h_coming := h_after h_stranded.list
    have h_senders := h_stranded.senders
    have h_raisers := h_stranded.raisers
    have h_ipi := h_stranded.ipi
    have h_off := h_stranded.online
    simp only [Coming, sendIpi, h_off, h_ipi, h_stranded.softirq, h_stranded.worker, h_senders,
      h_raisers] at h_coming
    simp at h_coming
  · intro h_not h_list
    by_cases h_online : x.online = true
    · left
      simp only [sendIpi, h_online, if_true]
      omega
    · by_contra h_none
      rw [Bool.not_eq_true] at h_online
      simp only [Coming, sendIpi, h_online, Bool.false_eq_true, if_false, not_or, Nat.not_lt,
        Nat.le_zero, Bool.not_eq_true] at h_none
      obtain ⟨h_ipi, h_softirq, h_worker, h_senders, h_raisers⟩ := h_none
      exact h_not ⟨h_online, h_list, by omega, h_ipi, h_softirq, h_worker, h_raisers⟩

end Cpu

/-! ## All CPUs -/

section System

variable {ι : Type} [DecidableEq ι] {env : Config ι} {s s' : State ι} {e : Event ι} {c d : ι}
  {x : Cpu}

/-- What a step makes of the CPU it is about, and that it leaves the others alone. -/
theorem setCpu_of (P : Cpu → Prop) (h_c : d = c → P x) (h_other : P (s.cpu d)) :
    P ((s.setCpu c x).cpu d) := by
  by_cases h_dc : d = c
  · rw [h_dc]
    simpa [State.setCpu] using h_c h_dc
  · simpa [State.setCpu, Function.update_of_ne h_dc] using h_other

theorem ordered_step (h : ∀ c, Ordered (s.cpu c)) (h_step : step env s e = some s') (d : ι) :
    Ordered (s'.cpu d) := by
  cases e with
  | finish c rq =>
      obtain ⟨_, h_eq⟩ := Option.ite_none_right_eq_some.mp h_step
      split at h_eq
      · cases h_eq
        exact h d
      · cases h_eq
        exact setCpu_of Ordered (fun _ => h rq.ctxCpu) (h d)
      · cases h_eq
        exact setCpu_of Ordered (fun _ => Cpu.ordered_llistAdd (h c)) (h d)
  | add c id =>
      obtain ⟨_, h_eq⟩ := Option.ite_none_right_eq_some.mp h_step
      cases h_eq
      exact setCpu_of Ordered (fun _ => Cpu.ordered_llistAdd (h c)) (h d)
  | sendIpi c | raiseSoftirq c | ipi c | online c =>
      obtain ⟨_, h_eq⟩ := Option.ite_none_right_eq_some.mp h_step
      cases h_eq
      exact setCpu_of Ordered (fun _ => h c) (h d)
  | softirq c =>
      obtain ⟨⟨_, h_idle⟩, h_eq⟩ := Option.ite_none_right_eq_some.mp h_step
      cases h_eq
      refine setCpu_of Ordered (fun _ => ?_) (h d)
      have h_c := h c
      unfold Ordered at h_c ⊢
      rw [h_c, h_idle]
      rfl
  | take c =>
      obtain ⟨h_take, h_eq⟩ := Option.ite_none_right_eq_some.mp h_step
      cases h_eq
      refine setCpu_of Ordered (fun _ => ?_) (h d)
      have h_c := h c
      unfold Ordered at h_c ⊢
      rw [h_c, h_take]
      simp [Worker.hands]
  | complete c =>
      obtain ⟨x, h_x, h_eq⟩ := Option.map_eq_some_iff.mp h_step
      cases h_eq
      exact setCpu_of Ordered (fun _ => Cpu.ordered_complete (h c) h_x) (h d)
  | offline c =>
      obtain ⟨⟨_, h_idle, _⟩, h_eq⟩ := Option.ite_none_right_eq_some.mp h_step
      cases h_eq
      refine setCpu_of Ordered (fun _ => ?_) (h d)
      have h_c := h c
      unfold Ordered at h_c ⊢
      simp only [Cpu.goOffline]
      rw [h_c, h_idle]
      rfl

theorem awaited_step (h : ∀ c, Awaited (s.cpu c)) (h_step : step env s e = some s') (d : ι) :
    Awaited (s'.cpu d) ↔ ¬Loses s e d := by
  cases e with
  | sendIpi c =>
      obtain ⟨h_some, h_eq⟩ := Option.ite_none_right_eq_some.mp h_step
      cases h_eq
      by_cases h_dc : d = c
      · have h_iff := Cpu.awaited_sendIpi h_some
        rw [h_dc]
        simpa [State.setCpu, Loses] using h_iff
      · have h_cd : ¬c = d := fun h_eq => h_dc h_eq.symm
        have h_d := h d
        simpa [State.setCpu, Function.update_of_ne h_dc, Loses, h_cd] using h_d
  | finish c rq =>
      obtain ⟨_, h_eq⟩ := Option.ite_none_right_eq_some.mp h_step
      refine iff_of_true ?_ (fun h_loses => by cases h_loses.1)
      split at h_eq
      · cases h_eq
        exact h d
      · cases h_eq
        exact setCpu_of Awaited (fun _ => h rq.ctxCpu) (h d)
      · cases h_eq
        exact setCpu_of Awaited (fun _ => Cpu.awaited_raiseSoftirq_first (h c)) (h d)
  | add c id =>
      obtain ⟨_, h_eq⟩ := Option.ite_none_right_eq_some.mp h_step
      cases h_eq
      refine iff_of_true ?_ (fun h_loses => by cases h_loses.1)
      exact setCpu_of Awaited (fun _ => Cpu.awaited_sendIpi_first (h c)) (h d)
  | raiseSoftirq c | ipi c =>
      obtain ⟨_, h_eq⟩ := Option.ite_none_right_eq_some.mp h_step
      cases h_eq
      refine iff_of_true ?_ (fun h_loses => by cases h_loses.1)
      exact setCpu_of Awaited (fun _ _ => Or.inr (Or.inl rfl)) (h d)
  | softirq c =>
      obtain ⟨_, h_eq⟩ := Option.ite_none_right_eq_some.mp h_step
      cases h_eq
      refine iff_of_true ?_ (fun h_loses => by cases h_loses.1)
      exact setCpu_of Awaited (fun _ _ => Or.inr (Or.inr (Or.inl rfl))) (h d)
  | take c =>
      obtain ⟨_, h_eq⟩ := Option.ite_none_right_eq_some.mp h_step
      cases h_eq
      refine iff_of_true ?_ (fun h_loses => by cases h_loses.1)
      exact setCpu_of Awaited (fun _ h_ne => absurd rfl h_ne) (h d)
  | complete c =>
      obtain ⟨x, h_x, h_eq⟩ := Option.map_eq_some_iff.mp h_step
      cases h_eq
      refine iff_of_true ?_ (fun h_loses => by cases h_loses.1)
      exact setCpu_of Awaited (fun _ => Cpu.awaited_complete (h c) h_x) (h d)
  | offline c =>
      obtain ⟨_, h_eq⟩ := Option.ite_none_right_eq_some.mp h_step
      cases h_eq
      refine iff_of_true ?_ (fun h_loses => by cases h_loses.1)
      exact setCpu_of Awaited (fun _ _ => Or.inr (Or.inr (Or.inl rfl))) (h d)
  | online c =>
      obtain ⟨_, h_eq⟩ := Option.ite_none_right_eq_some.mp h_step
      cases h_eq
      refine iff_of_true ?_ (fun h_loses => by cases h_loses.1)
      exact setCpu_of Awaited (fun _ => h c) (h d)

theorem ordered_reach (h_reach : Lts.Reach (step env) Lts.anyStep Init s) (c : ι) :
    Ordered (s.cpu c) := by
  refine h_reach.invariant (I := fun s => ∀ c, Ordered (s.cpu c)) ?_ ?_ c
  · intro s h_init c
    obtain ⟨h_list, h_worker, h_added, h_completed⟩ := h_init c
    rw [Ordered, h_list, h_worker, h_added, h_completed]
    rfl
  · intro s e s' h_inv _ h_step
    exact ordered_step h_inv h_step

theorem awaited_reach (h_reach : Lts.Reach (step env) (fun s e => ∀ c, ¬Loses s e c) Init s)
    (c : ι) : Awaited (s.cpu c) := by
  refine h_reach.invariant (I := fun s => ∀ c, Awaited (s.cpu c)) ?_ ?_ c
  · intro s h_init c h_list
    exact absurd (h_init c).1 h_list
  · intro s e s' h_inv h_ok h_step c
    exact (awaited_step h_inv h_step c).mpr (h_ok c)

/-- In every run each CPU completes what has been added to its list, once and in that order.  As
long as no request is lost, a list that is not empty will be taken; and a request is lost exactly
when the CPU has gone offline between the look at the mask and the IPI. -/
theorem completed_once (h_reach : Lts.Reach (step env) Lts.anyStep Init s) :
    (∀ c, Ordered (s.cpu c)) ∧
      (Lts.Reach (step env) (fun s e => ∀ c, ¬Loses s e c) Init s →
        (∀ c, Awaited (s.cpu c)) ∧
          ∀ e s', step env s e = some s' → ∀ c, (Awaited (s'.cpu c) ↔ ¬Loses s e c)) := by
  refine ⟨ordered_reach h_reach, fun h_kept => ⟨awaited_reach h_kept, fun e s' h_step c => ?_⟩⟩
  exact awaited_step (awaited_reach h_kept) h_step c

/-! An interrupt thread on the CPU `false` has chosen the CPU `true`, which goes offline before
the request is on its list. -/

def twoCpus : Config Bool := ⟨true, false, true, true, 2, fun _ _ => false⟩

def idleState : State Bool := ⟨fun _ => ⟨true, [], 0, false, .idle, [], 0, 0, [], []⟩, []⟩

def goneEvents : List (Event Bool) :=
  [.finish false ⟨7, true, 2, false⟩, .offline true, .take true, .complete true, .add true 7]

def goneState : State Bool := (Lts.run (step twoCpus) idleState goneEvents).getD idleState

theorem goneState_reach :
    Lts.Reach (step twoCpus) (fun s e => ∀ c, ¬Loses s e c) Init goneState := by
  have h_init : Init idleState := fun _ => ⟨rfl, rfl, rfl, rfl⟩
  have h_some : (Lts.run (step twoCpus) idleState goneEvents).isSome = true := by
    decide +kernel
  have h_ok : ∀ e ∈ goneEvents, ∀ (s : State Bool) c, ¬Loses s e c := by
    intro e h_e s c h_loses
    rw [h_loses.1] at h_e
    simp [goneEvents] at h_e
  obtain ⟨s', h_run⟩ := Option.isSome_iff_exists.mp h_some
  have h_eq : goneState = s' := by
    rw [goneState, h_run, Option.getD_some]
  exact h_eq ▸ (Lts.Reach.init h_init).run h_ok h_run

theorem completed_once_gone :
    Ordered (goneState.cpu true) ∧ Awaited (goneState.cpu true) ∧
      ∃ s', step twoCpus goneState (.sendIpi true) = some s' ∧ ¬Awaited (s'.cpu true) := by
  have h_any : Lts.Reach (step twoCpus) Lts.anyStep Init goneState :=
    goneState_reach.mono fun _ _ _ => trivial
  obtain ⟨h_ordered, h_kept⟩ := completed_once h_any
  obtain ⟨h_awaited, h_next⟩ := h_kept goneState_reach
  have h_loses : Loses goneState (.sendIpi true) true :=
    ⟨rfl, by decide +kernel, by decide +kernel, by decide +kernel, by decide +kernel,
      by decide +kernel, by decide +kernel, by decide +kernel⟩
  have h_some : (step twoCpus goneState (.sendIpi true)).isSome = true := by
    decide +kernel
  obtain ⟨s', h_step⟩ := Option.isSome_iff_exists.mp h_some
  have h_iff := h_next _ s' h_step true
  exact ⟨h_ordered true, h_awaited true, s', h_step, fun h_after => h_iff.mp h_after h_loses⟩

end System

end Daredevil.RemoteCompletion
