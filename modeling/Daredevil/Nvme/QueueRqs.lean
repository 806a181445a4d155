/-
  Daredevil.Nvme.QueueRqs

  `nvme_queue_rqs` (`drivers/nvme/host/pci.c`) on the links of the requests.  The loop
  prepares one request after the other; what cannot be prepared is moved to a list of its
  own while the loop is at it, and where the next request is of another hctx, the list is
  cut, and its first part goes to the submission queue.

  `Nvme.Overflow` has the same function on lists; here the lists are built from `rq_next`.

    * `endTurn_returns`  — the end of a turn, which submits or goes on;
    * `loop_returns`     — the loop;
    * `queueRqs_returns` — each maximal run of requests of one hctx is submitted with one
                           doorbell, and `*rqlist` holds the others.
-/
import Daredevil.Lib.LinkedList
import Daredevil.Lib.Returns
import Daredevil.Nvme.Overflow
import Mathlib.Data.List.SplitBy

namespace Daredevil.Nvme.QueueRqs

open LinkedList

variable {Rq : Type*} [DecidableEq Rq]

/-! ## The source functions -/

/-- The requests of the plug, and how the turn of each goes. -/
structure Env (Rq : Type*) where
  mqHctx : Rq → Nat
  tag : Rq → Nat
  /-- `hctx->driver_data` -/
  driverData : Nat → Nat
  /-- `hctx->tags` -/
  tags : Nat → Nat
  /-- `NVMEQ_ENABLED` of the request's queue -/
  enabled : Rq → Bool
  /-- `nvme_check_ready` -/
  ready : Rq → Bool
  /-- `nvme_prep_rq` returns `BLK_STS_OK` -/
  prepRq : Rq → Bool

/-- What happens to a submission queue. -/
inductive SqEvent (Rq : Type*) where
  /-- `nvme_sq_copy_cmd` -/
  | copyCmd (nvmeq : Nat) (req : Rq)
  /-- `nvme_write_sq_db(nvmeq, true)` -/
  | writeSqDb (nvmeq : Nat)
  deriving DecidableEq

structure Mem (Rq : Type*) where
  rqNext : Rq → Option Rq
  /-- `*rqlist` -/
  rqlist : Option Rq
  requeueList : Option Rq
  prev : Option Rq
  /-- `tags->rqs` -/
  rqs : Nat → Nat → Option Rq
  log : List (SqEvent Rq)

variable (env : Env Rq)

/-- `nvme_prep_rq_batch` -/
def nvmePrepRqBatch (req : Rq) (m : Mem Rq) : Bool × Mem Rq :=
  if !env.enabled req then (false, m)
  else if !env.ready req then (false, m)
  else
    let tags := env.tags (env.mqHctx req)
    (env.prepRq req, { m with
      rqs := Function.update m.rqs tags (Function.update (m.rqs tags) (env.tag req) (some req)) })

/-- `rq_list_add` to the requeue list -/
def rqListAdd (req : Rq) (m : Mem Rq) : Mem Rq :=
  { m with rqNext := Function.update m.rqNext req m.requeueList, requeueList := some req }

/-- `rq_list_move` from `*rqlist` to the requeue list -/
def rqListMove (req : Rq) (prev : Option Rq) (m : Mem Rq) : Mem Rq :=
  match prev with
  | some prev => rqListAdd req { m with rqNext := Function.update m.rqNext prev (m.rqNext req) }
  | none => rqListAdd req { m with rqlist := m.rqNext req }

/-- The loop of `nvme_submit_cmds`. -/
def submitLoop (nvmeq : Nat) : Nat → Mem Rq → Option (Mem Rq)
  | 0, m => if m.rqlist.isNone then some m else none
  | fuel + 1, m =>
      match m.rqlist with
      | none => some m
      | some req =>
          -- `rq_list_pop`
          submitLoop nvmeq fuel { m with
            rqlist := m.rqNext req
            log := m.log ++ [.copyCmd nvmeq req] }

/-- `nvme_submit_cmds` -/
def nvmeSubmitCmds (nvmeq fuel : Nat) (m : Mem Rq) : Option (Mem Rq) :=
  (submitLoop nvmeq fuel m).map fun m => { m with log := m.log ++ [.writeSqDb nvmeq] }

/-- The end of a turn, when `req` is the last request of the list so far. -/
def endTurn (nvmeq fuel : Nat) (req : Rq) (next : Option Rq) (m : Mem Rq) : Option (Mem Rq) :=
  if next.all fun next => env.mqHctx req ≠ env.mqHctx next then
    (nvmeSubmitCmds nvmeq fuel { m with rqNext := Function.update m.rqNext req none }).map
      fun m => { m with rqlist := next, prev := none }
  else some { m with prev := some req }

/-- A turn of the loop of `nvme_queue_rqs`. -/
def turn (fuel : Nat) (req : Rq) (next : Option Rq) (m : Mem Rq) : Option (Mem Rq) :=
  let nvmeq := env.driverData (env.mqHctx req)
  let p := nvmePrepRqBatch env req m
  if p.1 then endTurn env nvmeq fuel req next p.2
  else
    let m := rqListMove req p.2.prev p.2
    match m.prev with
    | none => some m
    | some req => endTurn env nvmeq fuel req next m

/-- `rq_list_for_each_safe` -/
def queueRqsLoop (fuel : Nat) : Nat → Option Rq → Option Rq → Mem Rq → Option (Mem Rq)
  | _, none, _, m => some m
  | 0, some _, _, _ => none
  | turns + 1, some req, next, m =>
      (turn env fuel req next m).bind fun m => queueRqsLoop fuel turns next (next.bind m.rqNext) m

/-- `nvme_queue_rqs`; `none` is the NULL dereference for an empty list, or that a loop takes more
than `fuel` turns. -/
def nvmeQueueRqs (fuel : Nat) (m : Mem Rq) : Option (Mem Rq) :=
  m.rqlist.bind fun req =>
  (queueRqsLoop env fuel fuel (some req) (m.rqNext req)
    { m with prev := none, requeueList := none }).map fun m => { m with rqlist := m.requeueList }

/-! ## What is submitted -/

/-- `nvme_prep_rq_batch` succeeds. -/
def prepOk (req : Rq) : Bool := env.enabled req && env.ready req && env.prepRq req

/-- The submission queue of a request's hctx. -/
def ownSq (req : Rq) : Nat := env.driverData (env.mqHctx req)

def sameHctx (req req' : Rq) : Bool := env.mqHctx req == env.mqHctx req'

/-- The prepared requests, each on its own queue, and one doorbell behind them. -/
def submitted (reqs : List Rq) : List (SqEvent Rq) :=
  reqs.map (fun req => .copyCmd (ownSq env req) req) ++
    (reqs.head?.map fun req => .writeSqDb (ownSq env req)).toList

/-- The submission of a run of requests of one hctx. -/
def submission (run : List Rq) : List (SqEvent Rq) := submitted env (run.filter (prepOk env))

/-- The submissions of the maximal runs of requests of one hctx. -/
def submissions (reqs : List Rq) : List (SqEvent Rq) :=
  (reqs.splitBy (sameHctx env)).flatMap (submission env)

variable {env} {m : Mem Rq} {run rest failed : List Rq} {req : Rq}

omit [DecidableEq Rq] in
/-- A run ends where the next request is of another hctx. -/
theorem submissions_append (h_ne : run ≠ [])
    (h_run : ∀ req ∈ run, ∀ req' ∈ run, env.mqHctx req = env.mqHctx req')
    (h_next : ∀ next ∈ rest.head?, ∀ req ∈ run, env.mqHctx req ≠ env.mqHctx next) :
    submissions env (run ++ rest) = submission env run ++ submissions env rest := by
  have h_chain : run.IsChain fun req req' => sameHctx env req req' = true := by
    apply List.Pairwise.isChain
    apply List.pairwise_of_forall_mem_list
    intro req h_req req' h_req'
    exact beq_iff_eq.mpr (h_run req h_req req' h_req')
  have h_split : (run ++ rest).splitBy (sameHctx env) =
      run.splitBy (sameHctx env) ++ rest.splitBy (sameHctx env) := by
    apply List.splitBy_append
    intro req h_req next h_next'
    exact beq_eq_false_iff_ne.mpr
      (h_next next h_next' req (List.mem_of_mem_getLast? h_req))
  rw [submissions, h_split, List.splitBy_of_isChain h_ne h_chain, List.flatMap_append]
  simp [submissions]

/-! ## One turn -/

/-- The prepared requests of a run are what `*rqlist` holds before `rest`, and the failed ones
are on the requeue list. -/
structure Held (env : Env Rq) (run rest failed : List Rq) (m : Mem Rq) : Prop where
  batch : Seg m.rqNext m.rqlist (run.filter (prepOk env)) rest.head?
  tail : IsList m.rqNext rest.head? rest
  requeue : IsList m.rqNext m.requeueList failed
  nodup : (run.filter (prepOk env) ++ (rest ++ failed)).Nodup

/-- Before the turn of the first request of `rest`, when the turns of `run` have been in its run
of requests of one hctx. -/
structure Turn (env : Env Rq) (run rest failed : List Rq) (m : Mem Rq) : Prop
    extends Held env run rest failed m where
  prev : m.prev = (run.filter (prepOk env)).getLast?
  sameHctx : ∀ req ∈ run, ∀ next ∈ rest.head?, env.mqHctx req = env.mqHctx next
  ended : rest = [] → run = []

/-- After a turn, the run goes on or a new one starts; what is not in the log yet will be. -/
def TurnDone (env : Env Rq) (run rest failed : List Rq) (log : List (SqEvent Rq)) (m : Mem Rq) :
    Prop :=
  ∃ run', Turn env run' rest failed m ∧ run'.length ≤ run.length ∧
    m.log ++ submissions env (run' ++ rest) = log ++ submissions env (run ++ rest)

omit [DecidableEq Rq] in
theorem submitLoop_eq (nvmeq : Nat) {batch : List Rq} {fuel : Nat} (h_fuel : batch.length ≤ fuel)
    (h : IsList m.rqNext m.rqlist batch) :
    submitLoop nvmeq fuel m = some { m with
      rqlist := none
      log := m.log ++ batch.map (.copyCmd nvmeq) } := by
  induction batch generalizing fuel m with
  | nil =>
      have h_none : m.rqlist = none := h
      have h_same : m = { m with rqlist := none, log := m.log ++ [] } := by
        rw [List.append_nil, ← h_none]
      rw [List.map_nil, ← h_same]
      cases fuel with
      | zero => rw [submitLoop, h_none, Option.isNone_none, if_pos rfl]
      | succ fuel => rw [submitLoop, h_none]
  | cons req batch ih =>
      cases fuel with
      | zero => exact absurd h_fuel (Nat.not_succ_le_zero _)
      | succ fuel =>
          rw [submitLoop, h.1]
          have h_rest := ih (m := { m with
            rqlist := m.rqNext req
            log := m.log ++ [.copyCmd nvmeq req] }) (Nat.le_of_succ_le_succ h_fuel) h.2
          refine h_rest.trans ?_
          rw [List.map_cons, List.append_assoc, List.singleton_append]

omit [DecidableEq Rq] in
theorem submitted_eq {nvmeq : Nat} {reqs : List Rq} (h_ne : reqs ≠ [])
    (h_own : ∀ req ∈ reqs, ownSq env req = nvmeq) :
    submitted env reqs = reqs.map (.copyCmd nvmeq) ++ [.writeSqDb nvmeq] := by
  obtain ⟨req, reqs, rfl⟩ := List.exists_cons_of_ne_nil h_ne
  have h_map : (req :: reqs).map (fun req => SqEvent.copyCmd (ownSq env req) req) =
      (req :: reqs).map (.copyCmd nvmeq) := by
    apply List.map_congr_left
    intro rq h_rq
    rw [h_own rq h_rq]
  rw [submitted, h_map, List.head?_cons, Option.map_some, h_own req List.mem_cons_self]
  rfl

/-- The requests of a run are all of one hctx. -/
def OneHctx (env : Env Rq) (run : List Rq) : Prop :=
  ∀ req ∈ run, ∀ req' ∈ run, env.mqHctx req = env.mqHctx req'

omit [DecidableEq Rq] in
theorem oneHctx_nil (env : Env Rq) : OneHctx env [] := fun _ h_req => absurd h_req List.not_mem_nil

omit [DecidableEq Rq] in
/-- The next request is of the run's hctx, or of another one. -/
theorem nextHctx_cases (rest : List Rq) (h_run : OneHctx env run) (h_req : req ∈ run) :
    (∀ next ∈ rest.head?, ∀ req ∈ run, env.mqHctx req ≠ env.mqHctx next) ∨
      (rest ≠ [] ∧ ∀ next ∈ rest.head?, ∀ req ∈ run, env.mqHctx req = env.mqHctx next) := by
  cases rest with
  | nil => exact .inl fun next h_next => by cases h_next
  | cons next rest =>
      by_cases h_eq : env.mqHctx req = env.mqHctx next
      · refine .inr ⟨List.cons_ne_nil _ _, ?_⟩
        intro next' h_next req' h_req'
        cases h_next
        rw [h_run req' h_req' req h_req, h_eq]
      · refine .inl ?_
        intro next' h_next req' h_req'
        cases h_next
        rw [h_run req' h_req' req h_req]
        exact h_eq

omit [DecidableEq Rq] in
/-- Nothing of the run is prepared so far. -/
theorem skip_done (h : Held env run rest failed m) (h_run : OneHctx env run) (h_req : req ∈ run)
    (h_none : run.filter (prepOk env) = []) (h_prev : m.prev = none) :
    TurnDone env run rest failed m.log m := by
  have h_batch := h.batch
  have h_nodup := h.nodup
  rw [h_none] at h_batch h_nodup
  rcases nextHctx_cases rest h_run h_req with h_next | ⟨h_rest, h_next⟩
  · refine ⟨[], ⟨⟨h_batch, h.tail, h.requeue, h_nodup⟩, h_prev, ?_, fun _ => rfl⟩, Nat.zero_le _, ?_⟩
    · intro req h_mem
      cases h_mem
    · rw [submissions_append (List.ne_nil_of_mem h_req) h_run h_next, submission, h_none]
      rfl
  · refine ⟨run, ⟨h, ?_, fun req h_mem next h_head => h_next next h_head req h_mem,
      fun h_nil => absurd h_nil h_rest⟩, Nat.le_refl _, rfl⟩
    rw [h_prev, h_none]
    rfl

theorem endTurn_returns (h : Held env run rest failed m) (h_run : OneHctx env run)
    (h_last : (run.filter (prepOk env)).getLast? = some req) {fuel : Nat}
    (h_fuel : (run.filter (prepOk env)).length ≤ fuel) :
    Returns (endTurn env (ownSq env req) fuel req rest.head? m)
      (TurnDone env run rest failed m.log) := by
  have h_mem : req ∈ run := (List.mem_filter.mp (List.mem_of_getLast? h_last)).1
  obtain ⟨before, h_batch⟩ := List.getLast?_eq_some_iff.mp h_last
  rw [endTurn]
  rcases nextHctx_cases rest h_run h_mem with h_next | ⟨h_rest, h_next⟩
  · -- the list is cut behind `req`
    rw [if_pos (by
      rw [Option.all_eq_true]
      intro next h_head
      exact decide_eq_true (h_next next h_head req h_mem))]
    have h_nodup := h.nodup
    rw [h_batch, List.append_assoc, List.singleton_append, List.nodup_middle, List.nodup_cons,
      List.mem_append, List.mem_append, not_or, not_or] at h_nodup
    obtain ⟨⟨h_before, h_notRest, h_notFailed⟩, h_nodup⟩ := h_nodup
    have h_cut := h.batch
    rw [h_batch] at h_cut
    have h_list : IsList (Function.update m.rqNext req none) m.rqlist
        (run.filter (prepOk env)) := by
      rw [h_batch]
      exact h_cut.update_last h_before none
    have h_submit := submitLoop_eq (m := { m with
      rqNext := Function.update m.rqNext req none }) (ownSq env req) h_fuel h_list
    rw [nvmeSubmitCmds, h_submit]
    refine .some ⟨[], ⟨⟨rfl, h.tail.update_of_not_mem h_notRest none,
      h.requeue.update_of_not_mem h_notFailed none, ?_⟩, rfl, ?_, fun _ => rfl⟩, Nat.zero_le _, ?_⟩
    · exact (List.nodup_append.mp h_nodup).2.1
    · intro req h_req
      cases h_req
    · have h_own : ∀ req' ∈ run.filter (prepOk env), ownSq env req' = ownSq env req := by
        intro req' h_req'
        rw [ownSq, ownSq, h_run req' (List.mem_filter.mp h_req').1 req h_mem]
      have h_ne : run.filter (prepOk env) ≠ [] := by
        rw [h_batch]
        simp
      rw [submissions_append (List.ne_nil_of_mem h_mem) h_run h_next, submission,
        submitted_eq h_ne h_own]
      simp only [List.append_assoc, List.nil_append]
  · obtain ⟨next, tail, rfl⟩ := List.exists_cons_of_ne_nil h_rest
    rw [if_neg (by simpa using h_next next rfl req h_mem)]
    refine .some ⟨run, ⟨⟨h.batch, h.tail, h.requeue, h.nodup⟩, h_last.symm, ?_,
      fun h_nil => absurd h_nil h_rest⟩, Nat.le_refl _, rfl⟩
    exact fun req h_req next h_head => h_next next h_head req h_req

omit [DecidableEq Rq] in
/-- Preparing a request changes no list. -/
theorem nvmePrepRqBatch_eq (env : Env Rq) (req : Rq) (m : Mem Rq) :
    ∃ rqs, nvmePrepRqBatch env req m = (prepOk env req, { m with rqs := rqs }) := by
  unfold nvmePrepRqBatch prepOk
  cases env.enabled req with
  | false => exact ⟨m.rqs, rfl⟩
  | true =>
      cases env.ready req with
      | false => exact ⟨m.rqs, rfl⟩
      | true => exact ⟨_, rfl⟩

omit [DecidableEq Rq] in
theorem Turn.nodup_parts (h : Turn env run (req :: rest) failed m) :
    req ∉ run.filter (prepOk env) ∧ req ∉ rest ∧ req ∉ failed ∧
      (run.filter (prepOk env) ++ (rest ++ failed)).Nodup := by
  have h_nodup := h.nodup
  rw [List.cons_append, List.nodup_middle, List.nodup_cons, List.mem_append, List.mem_append,
    not_or, not_or] at h_nodup
  exact ⟨h_nodup.1.1, h_nodup.1.2.1, h_nodup.1.2.2, h_nodup.2⟩

omit [DecidableEq Rq] in
/-- A request that was prepared is the last one of the batch. -/
theorem Turn.held_prepared (h : Turn env run (req :: rest) failed m) (h_ok : prepOk env req = true) :
    Held env (run ++ [req]) rest failed m := by
  have h_filter : (run ++ [req]).filter (prepOk env) = run.filter (prepOk env) ++ [req] := by
    rw [List.filter_append, List.filter_cons_of_pos h_ok, List.filter_nil]
  have h_next : m.rqNext req = rest.head? := IsList.start_eq h.tail.2
  have h_tail : IsList m.rqNext rest.head? rest := h_next ▸ h.tail.2
  refine ⟨?_, h_tail, h.requeue, ?_⟩
  · rw [h_filter]
    exact seg_append.mpr ⟨some req, h.batch, rfl, h_next⟩
  · rw [h_filter, List.append_assoc, List.singleton_append]
    exact h.nodup

/-- Putting a request that is on no list on the requeue list. -/
theorem rqListAdd_held (h_batch : Seg m.rqNext m.rqlist (run.filter (prepOk env)) rest.head?)
    (h_tail : IsList m.rqNext rest.head? rest) (h_requeue : IsList m.rqNext m.requeueList failed)
    (h_notBatch : req ∉ run.filter (prepOk env)) (h_notRest : req ∉ rest)
    (h_notFailed : req ∉ failed) (h_nodup : (run.filter (prepOk env) ++ (rest ++ failed)).Nodup)
    (h_fail : prepOk env req = false) :
    Held env (run ++ [req]) rest (req :: failed) (rqListAdd req m) := by
  have h_filter : (run ++ [req]).filter (prepOk env) = run.filter (prepOk env) := by
    rw [List.filter_append, List.filter_cons_of_neg (by simp [h_fail]), List.filter_nil,
      List.append_nil]
  refine ⟨?_, h_tail.update_of_not_mem h_notRest _, ⟨rfl, ?_⟩, ?_⟩
  · rw [h_filter]
    exact h_batch.update_of_not_mem h_notBatch _
  · show Seg (Function.update m.rqNext req m.requeueList)
      (Function.update m.rqNext req m.requeueList req) failed none
    rw [Function.update_self]
    exact h_requeue.update_of_not_mem h_notFailed _
  · rw [h_filter, ← List.append_assoc, List.nodup_middle, List.nodup_cons, List.append_assoc]
    refine ⟨?_, h_nodup⟩
    simp only [List.mem_append, not_or]
    exact ⟨h_notBatch, h_notRest, h_notFailed⟩

/-- A request that was not prepared is moved to the requeue list. -/
theorem Turn.held_failed (h : Turn env run (req :: rest) failed m) (h_fail : prepOk env req = false) :
    Held env (run ++ [req]) rest (req :: failed) (rqListMove req m.prev m) := by
  obtain ⟨h_notBatch, h_notRest, h_notFailed, h_nodup⟩ := h.nodup_parts
  have h_next : m.rqNext req = rest.head? := IsList.start_eq h.tail.2
  have h_tail : IsList m.rqNext rest.head? rest := h_next ▸ h.tail.2
  have h_prev := h.prev
  unfold rqListMove
  split
  case h_1 prev h_some =>
    -- `prev` is the last request of the batch
    rw [h_some] at h_prev
    obtain ⟨before, h_batch⟩ := List.getLast?_eq_some_iff.mp h_prev.symm
    have h_parts := h_nodup
    rw [h_batch, List.append_assoc, List.singleton_append, List.nodup_middle, List.nodup_cons,
      List.mem_append, List.mem_append, not_or, not_or] at h_parts
    obtain ⟨⟨h_before, h_prevRest, h_prevFailed⟩, -⟩ := h_parts
    have h_seg := h.batch
    rw [h_batch] at h_seg
    refine rqListAdd_held ?_ (h_tail.update_of_not_mem h_prevRest _)
      (h.requeue.update_of_not_mem h_prevFailed _) h_notBatch h_notRest h_notFailed h_nodup h_fail
    rw [h_batch, h_next]
    exact h_seg.update_last h_before _
  case h_2 h_none =>
    rw [h_none] at h_prev
    have h_batch := List.getLast?_eq_none_iff.mp h_prev.symm
    refine rqListAdd_held ?_ h_tail h.requeue h_notBatch h_notRest h_notFailed h_nodup h_fail
    rw [h_batch]
    exact h_next

theorem turn_returns (h : Turn env run (req :: rest) failed m) {fuel : Nat}
    (h_fuel : run.length + 1 ≤ fuel) :
    Returns (turn env fuel req rest.head? m) (TurnDone env (run ++ [req]) rest
      (if prepOk env req then failed else req :: failed) m.log) := by
  have h_mem : req ∈ run ++ [req] := List.mem_append_right _ (List.mem_singleton_self req)
  have h_run : OneHctx env (run ++ [req]) := by
    have h_same (req' : Rq) (h_req' : req' ∈ run ++ [req]) : env.mqHctx req' = env.mqHctx req := by
      rcases List.mem_append.mp h_req' with h_old | h_new
      · exact h.sameHctx req' h_old req rfl
      · rw [List.mem_singleton.mp h_new]
    intro req₁ h₁ req₂ h₂
    rw [h_same req₁ h₁, h_same req₂ h₂]
  have h_length : ((run ++ [req]).filter (prepOk env)).length ≤ fuel := by
    apply Nat.le_trans (List.length_filter_le _ _)
    rw [List.length_append, List.length_singleton]
    exact h_fuel
  obtain ⟨rqs, h_prep⟩ := nvmePrepRqBatch_eq env req m
  have h_turn : Turn env run (req :: rest) failed { m with rqs := rqs } :=
    ⟨⟨h.batch, h.tail, h.requeue, h.nodup⟩, h.prev, h.sameHctx, h.ended⟩
  unfold turn
  dsimp only
  rw [h_prep]
  cases h_ok : prepOk env req with
  | true =>
      rw [if_pos rfl, if_pos rfl]
      refine endTurn_returns (h_turn.held_prepared h_ok) h_run ?_ h_length
      rw [List.filter_append, List.filter_cons_of_pos h_ok, List.filter_nil]
      exact List.getLast?_concat ..
  | false =>
      rw [if_neg Bool.false_ne_true, if_neg Bool.false_ne_true]
      have h_held := h_turn.held_failed h_ok
      have h_filter : (run ++ [req]).filter (prepOk env) = run.filter (prepOk env) := by
        rw [List.filter_append, List.filter_cons_of_neg (by simp [h_ok]), List.filter_nil,
          List.append_nil]
      have h_frame : (rqListMove req m.prev { m with rqs := rqs }).prev = m.prev ∧
          (rqListMove req m.prev { m with rqs := rqs }).log = m.log := by
        unfold rqListMove
        split <;> exact ⟨rfl, rfl⟩
      show Returns (match (rqListMove req m.prev { m with rqs := rqs }).prev with
        | none => some (rqListMove req m.prev { m with rqs := rqs })
        | some req' => endTurn env (ownSq env req) fuel req' rest.head?
            (rqListMove req m.prev { m with rqs := rqs })) _
      generalize rqListMove req m.prev { m with rqs := rqs } = m' at h_held h_frame ⊢
      rw [← h_frame.2]
      have h_prev := h.prev
      rw [← h_frame.1] at h_prev
      split
      case h_1 h_none =>
        rw [h_none] at h_prev
        apply Returns.some
        exact skip_done h_held h_run h_mem (h_filter.trans (List.getLast?_eq_none_iff.mp h_prev.symm))
          h_none
      case h_2 prev h_some =>
        rw [h_some] at h_prev
        have h_last : ((run ++ [req]).filter (prepOk env)).getLast? = some prev := by
          rw [h_filter, h_prev]
        have h_prevMem : prev ∈ run ++ [req] :=
          (List.mem_filter.mp (List.mem_of_getLast? h_last)).1
        have h_own : ownSq env req = ownSq env prev := by
          rw [ownSq, ownSq, h_run req h_mem prev h_prevMem]
        rw [h_own]
        exact endTurn_returns h_held h_run h_last h_length

/-! ## The loop -/

theorem loop_returns (h : Turn env run rest failed m) {fuel turns : Nat}
    (h_turns : rest.length ≤ turns) (h_fuel : run.length + rest.length ≤ fuel) :
    Returns (queueRqsLoop env fuel turns rest.head? (rest.head?.bind m.rqNext) m) fun m' =>
      m'.log = m.log ++ submissions env (run ++ rest) ∧
        IsList m'.rqNext m'.requeueList
          ((rest.filter fun req => !prepOk env req).reverse ++ failed) := by
  induction rest generalizing run failed m turns with
  | nil =>
      rw [h.ended rfl, List.head?_nil, queueRqsLoop.eq_def]
      refine .some ⟨?_, h.requeue⟩
      rw [List.append_nil]
      exact (List.append_nil _).symm
  | cons req rest ih =>
      cases turns with
      | zero => exact absurd h_turns (Nat.not_succ_le_zero _)
      | succ turns =>
          have h_next : m.rqNext req = rest.head? := IsList.start_eq h.tail.2
          rw [List.length_cons] at h_turns h_fuel
          rw [List.head?_cons, Option.bind_some, h_next, queueRqsLoop]
          apply (turn_returns h (by omega)).bind
          rintro m' ⟨run', h_turn, h_length, h_log⟩
          rw [List.length_append, List.length_singleton] at h_length
          apply (ih h_turn (by omega) (by omega)).mono
          rintro m'' ⟨h_log', h_list⟩
          constructor
          · rw [h_log', h_log, List.append_assoc, List.singleton_append]
          · cases h_ok : prepOk env req with
            | true =>
                rw [h_ok, if_pos rfl] at h_list
                rw [List.filter_cons_of_neg (by simp [h_ok])]
                exact h_list
            | false =>
                rw [h_ok, if_neg Bool.false_ne_true] at h_list
                rw [List.filter_cons_of_pos (by simp [h_ok]), List.reverse_cons, List.append_assoc]
                exact h_list

/-! ## The function -/

/-- The requests copied to a submission queue. -/
def copied (log : List (SqEvent Rq)) : List (Nat × Rq) :=
  log.filterMap fun
    | .copyCmd nvmeq req => some (nvmeq, req)
    | .writeSqDb _ => none

omit [DecidableEq Rq] in
theorem copied_submitted (reqs : List Rq) :
    copied (submitted env reqs) = reqs.map fun req => (ownSq env req, req) := by
  have h_db : copied (reqs.head?.map fun req => SqEvent.writeSqDb (ownSq env req)).toList =
      ([] : List (Nat × Rq)) := by
    cases reqs.head? with
    | none => rfl
    | some req => rfl
  rw [submitted, copied, List.filterMap_append]
  rw [copied] at h_db
  rw [h_db, List.append_nil, List.filterMap_map]
  show reqs.filterMap (fun req => some (ownSq env req, req)) = _
  exact congrFun (List.filterMap_eq_map (f := fun req => (ownSq env req, req))) reqs

omit [DecidableEq Rq] in
/-- Every prepared request is copied once, in the order of the list. -/
theorem copied_submissions (reqs : List Rq) :
    copied (submissions env reqs) = (reqs.filter (prepOk env)).map fun req => (ownSq env req, req) := by
  have h_runs (runs : List (List Rq)) :
      copied (runs.flatMap (submission env)) =
        (runs.flatten.filter (prepOk env)).map fun req => (ownSq env req, req) := by
    induction runs with
    | nil => rfl
    | cons run runs ih =>
        rw [List.flatMap_cons, copied, List.filterMap_append, List.flatten_cons, List.filter_append,
          List.map_append]
        exact congrArg₂ _ (copied_submitted _) ih
  rw [submissions, h_runs, List.flatten_splitBy]

/-- For every list of requests and every outcome of their preparation: the maximal runs of
requests of one hctx are submitted one after the other, the prepared requests of each to its own
queue with one doorbell at the end; so every prepared request is submitted once; and
`*rqlist` is the list of the others. -/
theorem queueRqs_returns (env : Env Rq) {m : Mem Rq} {reqs : List Rq} (h_ne : reqs ≠ [])
    (h : IsList m.rqNext m.rqlist reqs) {fuel : Nat} (h_fuel : reqs.length ≤ fuel) :
    Returns (nvmeQueueRqs env fuel m) fun m' =>
      m'.log = m.log ++ (reqs.splitBy (sameHctx env)).flatMap (submission env) ∧
      copied m'.log = copied m.log ++
        (reqs.filter (prepOk env)).map (fun req => (ownSq env req, req)) ∧
      IsList m'.rqNext m'.rqlist (reqs.filter fun req => !prepOk env req).reverse := by
  obtain ⟨req, rest, rfl⟩ := List.exists_cons_of_ne_nil h_ne
  have h_turn : Turn env [] (req :: rest) []
      { m with rqlist := some req, prev := none, requeueList := none } := by
    refine ⟨⟨rfl, ⟨rfl, h.2⟩, rfl, ?_⟩, rfl, ?_, fun h_nil => by cases h_nil⟩
    · rw [List.append_nil]
      exact h.nodup
    · intro req h_req
      cases h_req
  rw [nvmeQueueRqs, h.1, Option.bind_some]
  apply (loop_returns h_turn h_fuel (by simpa using h_fuel)).map
  rintro m' ⟨h_log, h_list⟩
  rw [List.append_nil] at h_list
  refine ⟨h_log, ?_, h_list⟩
  show copied m'.log = _
  rw [h_log, copied, List.filterMap_append]
  exact congrArg _ (copied_submissions (req :: rest))

/-- Five requests, of which 3 is of another hctx; 0 and 2 cannot be prepared. -/
def fiveRqs : Env Nat where
  mqHctx req := if req = 3 then 1 else 0
  tag req := req
  driverData hctx := hctx + 1
  tags _ := 0
  enabled _ := true
  ready _ := true
  prepRq req := req != 0 && req != 2

def fiveRqs.mem : Mem Nat where
  rqNext req := if req < 4 then some (req + 1) else none
  rqlist := some 0
  requeueList := none
  prev := none
  rqs _ _ := none
  log := []

/-- The first run loses its first and its last request. -/
theorem fiveRqs_returns :
    Returns (nvmeQueueRqs fiveRqs 5 fiveRqs.mem) fun m' =>
      m'.log = [.copyCmd 1 1, .writeSqDb 1, .copyCmd 2 3, .writeSqDb 2, .copyCmd 1 4, .writeSqDb 1] ∧
        IsList m'.rqNext m'.rqlist [2, 0] := by
  have h_list : IsList fiveRqs.mem.rqNext fiveRqs.mem.rqlist [0, 1, 2, 3, 4] :=
    ⟨rfl, rfl, rfl, rfl, rfl, rfl⟩
  apply (queueRqs_returns fiveRqs (List.cons_ne_nil 0 _) h_list (Nat.le_refl 5)).mono
  rintro m' ⟨h_log, -, h_failed⟩
  exact ⟨h_log.trans (by decide), h_failed⟩

/-! ## The function on lists -/

/-- A submission as an event of `Nvme.Overflow`. -/
def overflowEvent : SqEvent Overflow.Request → Overflow.Event
  | .copyCmd _ req => .copyCmd req
  | .writeSqDb nvmeq => .writeSqDb nvmeq true

/-- The hctxs are those that `Nvme.Overflow` tells apart. -/
structure OverflowEnv (env : Env Overflow.Request) : Prop where
  hctx_iff : ∀ req req', env.mqHctx req = env.mqHctx req' ↔
    (req.ns, req.nqid) = (req'.ns, req'.nqid)
  ownSq : ∀ req, ownSq env req = req.nqid

theorem overflow_submitCmds {env : Env Overflow.Request} (h_env : OverflowEnv env)
    {run : List Overflow.Request} {req : Overflow.Request} (h_run : OneHctx env run)
    (h_req : req ∈ run) (h_ne : run.filter (prepOk env) ≠ []) :
    Overflow.nvmeSubmitCmds req.nqid (run.filter (prepOk env)) =
      (submission env run).map overflowEvent := by
  have h_own : ∀ req' ∈ run.filter (prepOk env), ownSq env req' = req.nqid := by
    intro req' h_req'
    rw [← h_env.ownSq req, QueueRqs.ownSq, QueueRqs.ownSq,
      h_run req' (List.mem_filter.mp h_req').1 req h_req]
  rw [submission, submitted_eq h_ne h_own, List.map_append, List.map_map]
  rfl

/-- What the loop on lists submits is what the loop on links does. -/
theorem overflow_queueRqsLoop {env : Env Overflow.Request} (h_env : OverflowEnv env)
    {run rest : List Overflow.Request} (h_run : OneHctx env run)
    (h_next : ∀ req ∈ run, ∀ next ∈ rest.head?, env.mqHctx req = env.mqHctx next)
    (h_ended : rest = [] → run = []) :
    Overflow.queueRqsLoop (rest.map fun req => (req, prepOk env req)) (run.filter (prepOk env)) =
      (submissions env (run ++ rest)).map overflowEvent := by
  induction rest generalizing run with
  | nil =>
      rw [h_ended rfl]
      rfl
  | cons req rest ih =>
      have h_mem : req ∈ run ++ [req] := List.mem_append_right _ (List.mem_singleton_self req)
      have h_run' : OneHctx env (run ++ [req]) := by
        have h_same (req' : Overflow.Request) (h_req' : req' ∈ run ++ [req]) :
            env.mqHctx req' = env.mqHctx req := by
          rcases List.mem_append.mp h_req' with h_old | h_new
          · exact h_next req' h_old req rfl
          · rw [List.mem_singleton.mp h_new]
        intro req₁ h₁ req₂ h₂
        rw [h_same req₁ h₁, h_same req₂ h₂]
      have h_batch : (if prepOk env req then run.filter (prepOk env) ++ [req]
          else run.filter (prepOk env)) = (run ++ [req]).filter (prepOk env) := by
        rw [List.filter_append]
        cases h_ok : prepOk env req with
        | true => simp [h_ok]
        | false => simp [h_ok]
      have h_split : run ++ req :: rest = (run ++ [req]) ++ rest := by simp
      rw [List.map_cons, Overflow.queueRqsLoop.eq_def]
      dsimp only
      rw [h_batch, h_split]
      rcases nextHctx_cases rest h_run' h_mem with h_other | ⟨h_rest, h_same⟩
      · have h_first := ih (oneHctx_nil env) (fun _ h_nil => absurd h_nil List.not_mem_nil)
          fun _ => rfl
        rw [submissions_append (List.ne_nil_of_mem h_mem) h_run' h_other, List.map_append]
        split
        case isTrue h_none =>
          rw [submission, h_none]
          exact h_first
        case isFalse h_some =>
          rw [← overflow_submitCmds h_env h_run' h_mem h_some]
          cases rest with
          | nil => exact (List.append_nil _).symm
          | cons next rest =>
              have h_ne : (req.ns, req.nqid) ≠ (next.ns, next.nqid) := fun h_eq =>
                h_other next rfl req h_mem ((h_env.hctx_iff req next).mpr h_eq)
              rw [List.map_cons]
              dsimp only
              rw [if_pos h_ne]
              exact congrArg _ h_first
      · have h_more := ih h_run' (fun req' h_req' next h_head => h_same next h_head req' h_req')
          fun h_nil => absurd h_nil h_rest
        rw [← h_more]
        split
        case isTrue h_none => rw [h_none]
        case isFalse =>
          obtain ⟨next, tail, rfl⟩ := List.exists_cons_of_ne_nil h_rest
          have h_eq := (h_env.hctx_iff req next).mp (h_same next rfl req h_mem)
          rw [List.map_cons]
          dsimp only
          rw [if_neg (not_not.mpr h_eq)]

/-- The submissions of `nvme_queue_rqs` on links are the events of the one on lists. -/
theorem overflow_nvmeQueueRqs {env : Env Overflow.Request} (h_env : OverflowEnv env)
    (reqs : List Overflow.Request) :
    Overflow.nvmeQueueRqs (reqs.map fun req => (req, prepOk env req)) =
      (submissions env reqs).map overflowEvent :=
  overflow_queueRqsLoop h_env (oneHctx_nil env) (fun _ h_nil => absurd h_nil List.not_mem_nil)
    fun _ => rfl

end Daredevil.Nvme.QueueRqs
