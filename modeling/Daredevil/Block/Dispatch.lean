/-
  Daredevil.Block.Dispatch

  A dispatch round of a hardware context: `__blk_mq_sched_dispatch_requests`
  (`block/blk-mq-sched.c`) gathers `hctx->dispatch` and the vNQ lists of the CPUs in
  `run_cpumask`, and `blk_mq_dispatch_rq_list` (`block/blk-mq.c`) hands them to the
  driver one by one until it does not accept one.  What is left goes to
  `hctx->dispatch`.

  There is no elevator, and the software queues are empty.  `dispatchRound` says what
  becomes of the requests; `gather_scan` ties the gathering to the scan of
  `Block.Vnq` with no other call under way.
-/
import Daredevil.Block.Vnq
import Mathlib.Data.List.Nodup
import Mathlib.Data.List.Range
import Mathlib.Logic.Relation

namespace Daredevil.Dispatch

open Vnq (Request Hctx)

/-! ## Answers of the driver -/

/-- `blk_status_t` -/
inductive BlkStatus where
  | ok
  | resource
  | devResource
  | zoneResource
  /-- any other error -/
  | error
  deriving DecidableEq, Repr

/-- `enum prep_dispatch` -/
inductive PrepDispatch where
  | ok
  | noTag
  | noBudget
  deriving DecidableEq, Repr

/-- What one turn meets: `blk_mq_prep_dispatch_rq`, and `queue_rq` if it is called. -/
structure Answer where
  prep : PrepDispatch
  status : BlkStatus

/-! ## The source functions -/

/-- The lists of `blk_mq_dispatch_rq_list`, and what the driver has done so far. -/
structure Progress where
  list : List Request
  zoneList : List Request
  accepted : List Request
  /-- requests that were ended with an error -/
  ended : List Request
  /-- what `queue_rq` has returned -/
  results : List BlkStatus

/-- The loop of `blk_mq_dispatch_rq_list`; `turn` counts the answers. -/
def dispatchLoop (ans : Nat → Answer) (turn : Nat) : List Request → Progress → Progress
  | [], p => { p with list := [] }
  | rq :: list, p =>
      match (ans turn).prep with
      | .noTag | .noBudget => { p with list := rq :: list }
      | .ok =>
          let p := { p with results := p.results ++ [(ans turn).status] }
          match (ans turn).status with
          | .ok => dispatchLoop ans (turn + 1) list { p with accepted := p.accepted ++ [rq] }
          -- `blk_mq_handle_dev_resource` puts the request back at the head
          | .resource | .devResource => { p with list := rq :: list }
          -- `blk_mq_handle_zone_resource`
          | .zoneResource => dispatchLoop ans (turn + 1) list { p with zoneList := rq :: p.zoneList }
          | .error => dispatchLoop ans (turn + 1) list { p with ended := p.ended ++ [rq] }

/-- Nothing has been handed to the driver. -/
def Progress.start : Progress := ⟨[], [], [], [], []⟩

/-- `blk_mq_dispatch_rq_list`, without its result: what is left goes to `hctx->dispatch`. -/
def blkMqDispatchRqList (ans : Nat → Answer) (h : Hctx) (list : List Request) : Hctx × Progress :=
  let p := dispatchLoop ans 0 list .start
  ({ h with dispatch := h.dispatch ++ (p.list ++ p.zoneList) }, p)

/-- The turn of `for_each_cpu` for one CPU. -/
def gatherVnq (r : Hctx × List Request) (cpu : Nat) : Hctx × List Request :=
  let (h, rqList) := r
  if h.runCpumask cpu = true ∧ h.dispatchList cpu ≠ [] then
    (h.takeVnq cpu, rqList ++ h.dispatchList cpu)
  else (h, rqList)

/-- The requests that `__blk_mq_sched_dispatch_requests` takes off their lists. -/
def gather (nrCpuIds : Nat) (h : Hctx) : Hctx × List Request :=
  (List.range nrCpuIds).foldl gatherVnq ({ h with dispatch := [] }, h.dispatch)

/-- `__blk_mq_sched_dispatch_requests`, the blex branch.  With no elevator and empty software
queues the functions that it calls afterwards find nothing. -/
def blkMqSchedDispatchRequests (ans : Nat → Answer) (nrCpuIds : Nat) (h : Hctx) :
    Hctx × Progress :=
  let (h, rqList) := gather nrCpuIds h
  blkMqDispatchRqList ans h rqList

/-! ## The loop -/

variable {ans : Nat → Answer} {turn nrCpuIds : Nat} {list : List Request} {p : Progress} {h : Hctx}

/-- The requests that the loop has not lost. -/
def Progress.all (p : Progress) : List Request := p.accepted ++ p.ended ++ (p.list ++ p.zoneList)

/-- Each turn takes a request from the list and puts it in one place. -/
theorem dispatchLoop_perm (list : List Request) (turn : Nat) (p : Progress) :
    (dispatchLoop ans turn list p).all.Perm { p with list := list }.all := by
  induction list generalizing turn p with
  | nil => rfl
  | cons rq list ih =>
      rw [dispatchLoop]
      cases (ans turn).prep with
      | noTag => rfl
      | noBudget => rfl
      | ok =>
          dsimp only
          cases (ans turn).status with
          | resource => rfl
          | devResource => rfl
          | ok =>
              refine (ih _ _).trans ?_
              simp only [Progress.all, List.append_assoc, List.cons_append, List.nil_append]
              exact (List.perm_middle.symm).append_left p.accepted
          | error =>
              refine (ih _ _).trans ?_
              simp only [Progress.all, List.append_assoc, List.cons_append, List.nil_append]
              rfl
          | zoneResource =>
              refine (ih _ _).trans ?_
              simp only [Progress.all, List.cons_append]
              exact List.perm_middle.append_left _

/-- What `queue_rq` has returned before is kept. -/
theorem dispatchLoop_results (list : List Request) (turn : Nat) (p : Progress) :
    p.results <+: (dispatchLoop ans turn list p).results := by
  induction list generalizing turn p with
  | nil => exact List.prefix_refl _
  | cons rq list ih =>
      rw [dispatchLoop]
      cases (ans turn).prep with
      | noTag => exact List.prefix_refl _
      | noBudget => exact List.prefix_refl _
      | ok =>
          dsimp only
          cases (ans turn).status with
          | resource => exact List.prefix_append _ _
          | devResource => exact List.prefix_append _ _
          | ok | error | zoneResource =>
              dsimp only
              refine List.IsPrefix.trans ?_ (ih (turn + 1) _)
              exact List.prefix_append _ _

/-- Without zone resources the order of the list is kept. -/
theorem dispatchLoop_sublist (list : List Request) (turn : Nat) (p : Progress)
    (h_zone : BlkStatus.zoneResource ∉ (dispatchLoop ans turn list p).results) :
    (dispatchLoop ans turn list p).zoneList = p.zoneList ∧
      ((dispatchLoop ans turn list p).accepted ++ (dispatchLoop ans turn list p).list).Sublist
        (p.accepted ++ list) := by
  induction list generalizing turn p with
  | nil => exact ⟨rfl, List.Sublist.refl _⟩
  | cons rq list ih =>
      rw [dispatchLoop] at h_zone ⊢
      cases h_prep : (ans turn).prep with
      | noTag => exact ⟨rfl, List.Sublist.refl _⟩
      | noBudget => exact ⟨rfl, List.Sublist.refl _⟩
      | ok =>
          simp only [h_prep] at h_zone ⊢
          cases h_status : (ans turn).status with
          | resource => exact ⟨rfl, List.Sublist.refl _⟩
          | devResource => exact ⟨rfl, List.Sublist.refl _⟩
          | ok =>
              simp only [h_status] at h_zone ⊢
              obtain ⟨h_list, h_sub⟩ := ih _ _ h_zone
              refine ⟨h_list, h_sub.trans ?_⟩
              rw [List.append_assoc]
              exact List.Sublist.refl _
          | error =>
              simp only [h_status] at h_zone ⊢
              obtain ⟨h_list, h_sub⟩ := ih _ _ h_zone
              exact ⟨h_list, h_sub.trans ((List.sublist_cons_self rq list).append_left _)⟩
          | zoneResource =>
              simp only [h_status] at h_zone
              refine absurd ((dispatchLoop_results list _ _).subset ?_) h_zone
              exact List.mem_append_right _ (List.mem_singleton_self _)

/-- How far the loop gets: up to the first turn without a tag or a budget, or at which the driver
has no room. -/
def handed (ans : Nat → Answer) (turn : Nat) : List Request → List (Request × BlkStatus)
  | [] => []
  | rq :: list =>
      match (ans turn).prep with
      | .noTag | .noBudget => []
      | .ok =>
          (rq, (ans turn).status) ::
            match (ans turn).status with
            | .resource | .devResource => []
            | .ok | .zoneResource | .error => handed ans (turn + 1) list

/-- The requests that the driver has answered with `status`. -/
def answered (status : BlkStatus) (rqs : List (Request × BlkStatus)) : List Request :=
  (rqs.filter fun r => r.2 = status).map Prod.fst

/-- Where a request goes is what the driver has said to it: one that it has taken is accepted, and
one that it has failed is ended. -/
theorem dispatchLoop_answers (list : List Request) (turn : Nat) (p : Progress) :
    let r := dispatchLoop ans turn list p
    r.results = p.results ++ (handed ans turn list).map Prod.snd ∧
      r.accepted = p.accepted ++ answered .ok (handed ans turn list) ∧
      r.ended = p.ended ++ answered .error (handed ans turn list) := by
  induction list generalizing turn p with
  | nil => simp [dispatchLoop, handed, answered]
  | cons rq list ih =>
      rw [dispatchLoop, handed]
      cases (ans turn).prep with
      | noTag | noBudget => simp [answered]
      | ok =>
          dsimp only
          cases (ans turn).status with
          | resource | devResource => simp [answered]
          | ok | error | zoneResource =>
              dsimp only
              obtain ⟨h_results, h_accepted, h_ended⟩ := ih (turn + 1) _
              refine ⟨h_results.trans ?_, h_accepted.trans ?_, h_ended.trans ?_⟩ <;>
                simp [answered]

/-! ## The gathering -/

/-- The CPUs whose bit is set. -/
def maskCpus (nrCpuIds : Nat) (h : Hctx) : List Nat := (List.range nrCpuIds).filter (h.runCpumask ·)

/-- The requests that a round takes, in order. -/
def taken (nrCpuIds : Nat) (h : Hctx) : List Request :=
  h.dispatch ++ (maskCpus nrCpuIds h).flatMap h.dispatchList

theorem maskCpus_succ (k : Nat) (h : Hctx) :
    maskCpus (k + 1) h = maskCpus k h ++ if h.runCpumask k = true then [k] else [] := by
  rw [maskCpus, List.range_succ, List.filter_append, List.filter_cons, List.filter_nil, maskCpus]

theorem gatherVnqs_succ (r : Hctx × List Request) (k : Nat) :
    (List.range (k + 1)).foldl gatherVnq r = gatherVnq ((List.range k).foldl gatherVnq r) k := by
  rw [List.range_succ, List.foldl_append]
  rfl

/-- The first `k` turns of the gathering. -/
theorem gather_turns (h : Hctx) (k : Nat) :
    let r := gather k h
    r.2 = taken k h ∧ r.1.dispatch = [] ∧
      (∀ cpu, r.1.dispatchList cpu =
        if cpu < k ∧ h.runCpumask cpu = true then [] else h.dispatchList cpu) ∧
      ∀ cpu, k ≤ cpu → r.1.runCpumask cpu = h.runCpumask cpu := by
  induction k with
  | zero =>
      refine ⟨(List.append_nil _).symm, rfl, fun cpu => ?_, fun _ _ => rfl⟩
      rw [if_neg (fun h_and => Nat.not_lt_zero cpu h_and.1)]
      rfl
  | succ k ih =>
      obtain ⟨h_rqs, h_dispatch, h_lists, h_mask⟩ := ih
      have h_turn : gather (k + 1) h = gatherVnq (gather k h) k := gatherVnqs_succ _ k
      have h_taken : taken (k + 1) h =
          taken k h ++ if h.runCpumask k = true then h.dispatchList k else [] := by
        rw [taken, maskCpus_succ, List.flatMap_append, ← List.append_assoc, taken]
        split <;> simp
      -- the list of CPU `k` is as it was before the round
      have h_list : (gather k h).1.dispatchList k = h.dispatchList k := by
        rw [h_lists, if_neg (fun h_and => Nat.lt_irrefl k h_and.1)]
      -- the lists of the other CPUs
      have h_other (cpu : Nat) (h_ne : cpu ≠ k) : (gather k h).1.dispatchList cpu =
          if cpu < k + 1 ∧ h.runCpumask cpu = true then [] else h.dispatchList cpu := by
        rw [h_lists]
        congr 1
        rw [eq_iff_iff, Nat.lt_succ_iff_lt_or_eq, or_iff_left h_ne]
      rw [h_turn, gatherVnq, h_list, h_mask k (Nat.le_refl k), h_taken]
      dsimp only
      split
      case isTrue h_take =>
        refine ⟨?_, h_dispatch, fun cpu => ?_, fun cpu h_le => ?_⟩
        · rw [h_rqs, if_pos h_take.1]
        · rw [Hctx.takeVnq_dispatchList]
          by_cases h_eq : cpu = k
          · rw [h_eq, Function.update_self, if_pos ⟨Nat.lt_succ_self k, h_take.1⟩]
          · rw [Function.update_of_ne h_eq]
            exact h_other cpu h_eq
        · rw [Hctx.takeVnq_runCpumask, Function.update_of_ne (by omega)]
          exact h_mask cpu (by omega)
      case isFalse h_keep =>
        have h_empty (h_bit : h.runCpumask k = true) : h.dispatchList k = [] := by
          by_contra h_ne
          exact h_keep ⟨h_bit, h_ne⟩
        refine ⟨?_, h_dispatch, fun cpu => ?_, fun cpu h_le => h_mask cpu (by omega)⟩
        · rw [h_rqs]
          split
          case isTrue h_bit => rw [h_empty h_bit, List.append_nil]
          case isFalse => rw [List.append_nil]
        · by_cases h_eq : cpu = k
          · rw [h_eq, h_list]
            split
            case isTrue h_and => exact h_empty h_and.2
            case isFalse => rfl
          · exact h_other cpu h_eq

/-! ### The scan of a dispatcher -/

/-- A step of the scan of `Block.Vnq`, with no other call under way. -/
def ScanStep (nrCpuIds : Nat) (r r' : Hctx × Vnq.Dispatcher) : Prop :=
  Vnq.dispatcherStep nrCpuIds r.1 r.2 = some r'

/-- The scan's steps for one CPU. -/
theorem scan_cpu {cpu : Nat} (h_cpu : cpu < nrCpuIds) (r : Hctx × List Request) :
    Relation.ReflTransGen (ScanStep nrCpuIds) (r.1, ⟨.nextCpu cpu, r.2⟩)
      ((gatherVnq r cpu).1, ⟨.nextCpu (cpu + 1), (gatherVnq r cpu).2⟩) := by
  obtain ⟨h, rqList⟩ := r
  cases h_bit : h.runCpumask cpu with
  | false =>
      refine .single ?_
      simp [ScanStep, Vnq.dispatcherStep, gatherVnq, h_cpu, h_bit]
  | true =>
      have h_peek : ScanStep nrCpuIds (h, ⟨.nextCpu cpu, rqList⟩) (h, ⟨.peekVnq cpu, rqList⟩) := by
        simp [ScanStep, Vnq.dispatcherStep, h_cpu, h_bit]
      by_cases h_list : h.dispatchList cpu = []
      · refine .head h_peek (.single ?_)
        simp [ScanStep, Vnq.dispatcherStep, gatherVnq, h_bit, h_list]
      · have h_lock : ScanStep nrCpuIds (h, ⟨.peekVnq cpu, rqList⟩) (h, ⟨.lockVnq cpu, rqList⟩) := by
          simp [ScanStep, Vnq.dispatcherStep, h_list]
        refine .head h_peek (.head h_lock (.single ?_))
        simp [ScanStep, Vnq.dispatcherStep, gatherVnq, h_bit, h_list]

theorem scan_cpus (r : Hctx × List Request) {k : Nat} (h_k : k ≤ nrCpuIds) :
    Relation.ReflTransGen (ScanStep nrCpuIds) (r.1, ⟨.nextCpu 0, r.2⟩)
      (((List.range k).foldl gatherVnq r).1, ⟨.nextCpu k, ((List.range k).foldl gatherVnq r).2⟩) := by
  induction k with
  | zero => exact .refl
  | succ k ih =>
      rw [gatherVnqs_succ]
      exact (ih (by omega)).trans (scan_cpu h_k _)

/-- With no bit set there is nothing to gather. -/
theorem gatherVnqs_unmarked (r : Hctx × List Request) {k : Nat}
    (h_none : ∀ cpu < k, r.1.runCpumask cpu = false) : (List.range k).foldl gatherVnq r = r := by
  induction k with
  | zero => rfl
  | succ k ih =>
      rw [gatherVnqs_succ, ih (fun cpu h_cpu => h_none cpu (by omega)), gatherVnq]
      exact if_neg fun h_and => by cases (h_none k (by omega)).symm.trans h_and.1

/-- A scan that runs alone gathers what a round takes. -/
theorem gather_scan (nrCpuIds : Nat) (h : Hctx) :
    Relation.ReflTransGen (ScanStep nrCpuIds) (h, ⟨.peekDispatch, []⟩)
      ((gather nrCpuIds h).1, ⟨.scanned, (gather nrCpuIds h).2⟩) := by
  have h_splice : Relation.ReflTransGen (ScanStep nrCpuIds) (h, ⟨.peekDispatch, []⟩)
      ({ h with dispatch := [] }, ⟨.testMask, h.dispatch⟩) := by
    cases h_dispatch : h.dispatch with
    | nil =>
        have h_same : { h with dispatch := [] } = h := by rw [← h_dispatch]
        rw [h_same]
        refine .single ?_
        simp [ScanStep, Vnq.dispatcherStep, h_dispatch]
    | cons rq rqs =>
        have h_peek : ScanStep nrCpuIds (h, ⟨.peekDispatch, []⟩) (h, ⟨.spliceDispatch, []⟩) := by
          simp [ScanStep, Vnq.dispatcherStep, h_dispatch]
        refine .head h_peek (.single ?_)
        simp [ScanStep, Vnq.dispatcherStep, h_dispatch]
  refine h_splice.trans ?_
  by_cases h_any : (List.range nrCpuIds).any h.runCpumask = true
  · have h_test : ScanStep nrCpuIds ({ h with dispatch := [] }, ⟨.testMask, h.dispatch⟩)
        ({ h with dispatch := [] }, ⟨.nextCpu 0, h.dispatch⟩) := by
      simp only [ScanStep, Vnq.dispatcherStep, h_any, if_true]
    refine .head h_test ((scan_cpus ({ h with dispatch := [] }, h.dispatch) le_rfl).tail ?_)
    simp [ScanStep, Vnq.dispatcherStep, gather]
  · have h_none : ∀ cpu < nrCpuIds, h.runCpumask cpu = false := by
      simpa using h_any
    rw [gather, gatherVnqs_unmarked _ h_none]
    refine .single ?_
    simp only [ScanStep, Vnq.dispatcherStep, h_any]
    rfl

/-! ## The round -/

/-- A sublist of lists in a row consists of sublists of them. -/
theorem exists_flatMap_of_sublist {ι α : Type*} [DecidableEq ι] {f : ι → List α} {is : List ι}
    (h_nodup : is.Nodup) {l : List α} (h_sub : l.Sublist (is.flatMap f)) :
    ∃ g : ι → List α, l = is.flatMap g ∧ ∀ i, (g i).Sublist (f i) := by
  induction is generalizing l with
  | nil => exact ⟨f, List.sublist_nil.mp h_sub, fun i => List.Sublist.refl _⟩
  | cons i is ih =>
      obtain ⟨h_notMem, h_nodup⟩ := List.nodup_cons.mp h_nodup
      rw [List.flatMap_cons] at h_sub
      obtain ⟨l₁, l₂, rfl, h₁, h₂⟩ := List.sublist_append_iff.mp h_sub
      obtain ⟨g, rfl, h_g⟩ := ih h_nodup h₂
      refine ⟨Function.update g i l₁, ?_, fun j => ?_⟩
      · rw [List.flatMap_cons, Function.update_self]
        congr 1
        apply List.flatMap_congr
        intro j h_j
        have h_ne : j ≠ i := fun h_eq => h_notMem (h_eq ▸ h_j)
        rw [Function.update_of_ne h_ne]
      · by_cases h_eq : j = i
        · rw [h_eq, Function.update_self]
          exact h₁
        · rw [Function.update_of_ne h_eq]
          exact h_g j

theorem maskCpus_nodup (nrCpuIds : Nat) (h : Hctx) : (maskCpus nrCpuIds h).Nodup :=
  List.Nodup.filter _ List.nodup_range

/-- Each request that a round takes ends in one place. -/
theorem round_perm (ans : Nat → Answer) (nrCpuIds : Nat) (h : Hctx) :
    let r := blkMqSchedDispatchRequests ans nrCpuIds h
    (r.2.accepted ++ r.2.ended ++ r.1.dispatch).Perm (taken nrCpuIds h) := by
  obtain ⟨h_rqs, h_dispatch, -, -⟩ := gather_turns h nrCpuIds
  have h_perm := @dispatchLoop_perm ans (taken nrCpuIds h) 0 .start
  simp only [blkMqSchedDispatchRequests, blkMqDispatchRqList, h_rqs, h_dispatch, List.nil_append]
  simpa only [Progress.all, Progress.start, List.nil_append, List.append_nil] using h_perm

/-- What a round has handed to the driver, and where that has gone. -/
theorem round_answers (ans : Nat → Answer) (nrCpuIds : Nat) (h : Hctx) :
    let r := blkMqSchedDispatchRequests ans nrCpuIds h
    r.2.accepted = answered .ok (handed ans 0 (taken nrCpuIds h)) ∧
      r.2.ended = answered .error (handed ans 0 (taken nrCpuIds h)) := by
  obtain ⟨h_rqs, -, -, -⟩ := gather_turns h nrCpuIds
  obtain ⟨-, h_accepted, h_ended⟩ := @dispatchLoop_answers ans (taken nrCpuIds h) 0 .start
  simp only [blkMqSchedDispatchRequests, blkMqDispatchRqList, h_rqs]
  exact ⟨h_accepted, h_ended⟩

/-- A round empties the lists of the CPUs in the mask and no others. -/
theorem round_dispatchList (ans : Nat → Answer) (nrCpuIds : Nat) (h : Hctx) (cpu : Nat) :
    (blkMqSchedDispatchRequests ans nrCpuIds h).1.dispatchList cpu =
      if cpu < nrCpuIds ∧ h.runCpumask cpu = true then [] else h.dispatchList cpu := by
  obtain ⟨-, -, h_lists, -⟩ := gather_turns h nrCpuIds
  exact h_lists cpu

/-- A round conserves the requests that it takes, leaves the others where they were, and without
zone resources keeps their order.  Accepted are those that the driver has taken, and ended those
that it has failed. -/
theorem dispatchRound (ans : Nat → Answer) (nrCpuIds : Nat) (h : Hctx) :
    let r := blkMqSchedDispatchRequests ans nrCpuIds h
    (r.2.accepted ++ r.2.ended ++ r.1.dispatch).Perm (taken nrCpuIds h) ∧
      (∀ cpu, r.1.dispatchList cpu =
        if cpu < nrCpuIds ∧ h.runCpumask cpu = true then [] else h.dispatchList cpu) ∧
      (.zoneResource ∉ r.2.results → ∃ (fromDispatch : List Request) (fromVnq : Nat → List Request),
        r.2.accepted ++ r.1.dispatch = fromDispatch ++ (maskCpus nrCpuIds h).flatMap fromVnq ∧
        fromDispatch.Sublist h.dispatch ∧ ∀ cpu, (fromVnq cpu).Sublist (h.dispatchList cpu)) ∧
      r.2.accepted = answered .ok (handed ans 0 (taken nrCpuIds h)) ∧
      r.2.ended = answered .error (handed ans 0 (taken nrCpuIds h)) := by
  refine ⟨round_perm ans nrCpuIds h, round_dispatchList ans nrCpuIds h, fun h_zone => ?_,
    round_answers ans nrCpuIds h⟩
  obtain ⟨h_rqs, h_dispatch, -, -⟩ := gather_turns h nrCpuIds
  have h_order := @dispatchLoop_sublist ans (taken nrCpuIds h) 0 .start
  simp only [blkMqSchedDispatchRequests, blkMqDispatchRqList, h_rqs, h_dispatch,
    List.nil_append] at h_zone ⊢
  obtain ⟨h_empty, h_sub⟩ := h_order h_zone
  rw [h_empty]
  simp only [Progress.start, List.nil_append, List.append_nil] at h_sub ⊢
  rw [taken] at h_sub
  obtain ⟨l₁, l₂, h_eq, h₁, h₂⟩ := List.sublist_append_iff.mp h_sub
  obtain ⟨g, rfl, h_g⟩ := exists_flatMap_of_sublist (maskCpus_nodup nrCpuIds h) h₂
  exact ⟨l₁, g, h_eq, h₁, h_g⟩

end Daredevil.Dispatch
