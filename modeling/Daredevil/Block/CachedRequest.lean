/-
  Daredevil.Block.CachedRequest

  The cached request of a plug against a newly allocated one: both should come from
  the group that the scheduler means for the task and the bio.

  `blk_mq_get_cached_request` compares the cached request with the bio alone.  It
  refuses a request of the L group to a bio that is neither of the RT class nor
  high-priority, which is the scheduler's rule, but a request of the T group only to a
  bio that is both.

    * `cachedFits_L`, `cachedFits_T` — the two comparisons;
    * `cachedRequest_agrees_iff`     — when the request is of the group that is meant.
-/
import Daredevil.Block.Submit

namespace Daredevil.Submit

open Sched (RegReach TaskIoc HighPrio expectedPrio blkBlexIoprioSimpleMap blkBlexIsHighPrio
  blkBlexLPrioMask blkBlexLPrio blkBlexTPrio blkBlexHctxToNqid prio_cases)
open Vnq (Request)
open Alloc (Queue Bio)

variable {q : Queue} {sub : Submission} {rq : Request} {bio : Bio} {L : QueueLayout}

/-- The bio is of the RT class. -/
def IsRt (q : Queue) (bio : Bio) : Prop :=
  q.env.ioprioPrioClass bio.biIoprio = q.env.ioprioClassRt

instance (q : Queue) (bio : Bio) : Decidable (IsRt q bio) := inferInstanceAs (Decidable (_ = _))

/-- The flags of the bio are high-priority. -/
def IsHigh (q : Queue) (bio : Bio) : Prop := blkBlexIsHighPrio q.env bio.biOpf = true

instance (q : Queue) (bio : Bio) : Decidable (IsHigh q bio) := inferInstanceAs (Decidable (_ = _))

theorem ioprioSimpleMap_mask :
    blkBlexIoprioSimpleMap q.env bio.biIoprio &&& blkBlexLPrioMask ≠ 0 ↔ IsRt q bio := by
  unfold blkBlexIoprioSimpleMap IsRt
  split
  case isTrue h => exact iff_of_true (by decide) h
  case isFalse h => exact iff_of_false (by decide) h

/-- A request of the L group fits a bio that would be promoted. -/
theorem cachedFits_L : cachedFits q bio blkBlexLPrio = true ↔ IsRt q bio ∨ IsHigh q bio := by
  have h_mask : blkBlexLPrio &&& blkBlexLPrioMask ≠ 0 := by decide
  rw [cachedFits, if_pos h_mask, Bool.or_eq_true, decide_eq_true_iff, ioprioSimpleMap_mask, IsHigh]

/-- A request of the T group fits unless the bio is promoted on both counts. -/
theorem cachedFits_T : cachedFits q bio blkBlexTPrio = true ↔ ¬ (IsRt q bio ∧ IsHigh q bio) := by
  have h_mask : ¬ blkBlexTPrio &&& blkBlexLPrioMask ≠ 0 := by decide
  rw [cachedFits, if_neg h_mask, Bool.not_eq_true', ← Bool.not_eq_true, Bool.and_eq_true,
    decide_eq_true_iff, ioprioSimpleMap_mask, IsHigh]

/-- The eNQs of a regulator in use are of one of the two groups. -/
theorem rqPrio_cases (h_reg : RegReach q.env L q.reg) (h_groups : 2 ≤ L.nrCqs) {prio : Nat}
    (h : rqPrio q sub rq = some prio) : prio = blkBlexTPrio ∨ prio = blkBlexLPrio := by
  obtain ⟨enq, h_enq, rfl⟩ := Option.map_eq_some_iff.mp h
  obtain ⟨-, -, -, h_enqWf⟩ := (h_reg.wf h_groups).enq?_some h_enq
  rw [h_enqWf.prio_eq]
  exact prio_cases (L.prioOf_lt _)

/-- The cached request that `blk_mq_get_cached_request` returns. -/
theorem getCachedRequest_eq_request_iff :
    blkMqGetCachedRequest q sub = .request rq ↔
      ∃ plug prio, sub.plug = some plug ∧ sub.cachedRq = some rq ∧ sub.mergesCached = false ∧
        rqPrio q sub rq = some prio ∧ cachedFits q sub.bioSet prio = true := by
  unfold blkMqGetCachedRequest
  split
  case h_1 plug rq₀ h_plug h_cached =>
    constructor
    · intro h
      split at h
      · cases h
      case isFalse h_merges =>
        split at h
        · cases h
        case h_2 prio h_prio =>
          split at h
          case isTrue h_fits =>
            cases h
            exact ⟨plug, prio, h_plug, h_cached, Bool.not_eq_true _ ▸ h_merges, h_prio, h_fits⟩
          case isFalse => cases h
    · rintro ⟨_, prio, -, h_rq, h_merges, h_prio, h_fits⟩
      obtain rfl := Option.some.inj (h_cached.symm.trans h_rq)
      rw [h_merges, if_neg Bool.false_ne_true, h_prio]
      exact if_pos h_fits
  case h_2 h_none =>
    refine iff_of_false (fun h => nomatch h) ?_
    rintro ⟨plug, prio, h_plug, h_cached, -⟩
    exact h_none plug rq h_plug h_cached

/-- The plug has a request of the T group for a bio that an L task submits or that is promoted
on one of the two counts. -/
def MixesGroups (q : Queue) (sub : Submission) (ioc : TaskIoc) : Prop :=
  ∃ plug rq, sub.plug = some plug ∧ sub.cachedRq = some rq ∧ sub.mergesCached = false ∧
    rqPrio q sub rq = some blkBlexTPrio ∧ ¬ (IsRt q sub.bioSet ∧ IsHigh q sub.bioSet) ∧
      (ioc.blexIoprio = blkBlexLPrio ∨ IsRt q sub.bioSet ∨ IsHigh q sub.bioSet)

theorem expectedPrio_eq_T_iff {ioc : TaskIoc} :
    expectedPrio q.env ioc bio.biIoprio bio.biOpf = blkBlexTPrio ↔
      ¬ (ioc.blexIoprio = blkBlexLPrio ∨ IsRt q bio ∨ IsHigh q bio) := by
  unfold expectedPrio
  split
  case isTrue h => exact iff_of_false (by decide) (not_not.mpr h)
  case isFalse h => exact iff_of_true rfl h

/-- A cached request that is returned is of the group that the scheduler means for the task and
the bio, unless the plug's request mixes the groups. -/
theorem cachedRequest_agrees_iff (q : Queue) (sub : Submission) (ioc : TaskIoc)
    (h_groups : 2 ≤ L.nrCqs) (h_reg : RegReach q.env L q.reg) :
    (∀ rq, blkMqGetCachedRequest q sub = .request rq →
      rqPrio q sub rq =
        some (expectedPrio q.env ioc sub.bioSet.biIoprio sub.bioSet.biOpf)) ↔
      ¬ MixesGroups q sub ioc := by
  constructor
  · rintro h_agrees ⟨plug, rq, h_plug, h_cached, h_merges, h_prio, h_notBoth, h_promoted⟩
    have h_returned : blkMqGetCachedRequest q sub = .request rq :=
      getCachedRequest_eq_request_iff.mpr
        ⟨plug, blkBlexTPrio, h_plug, h_cached, h_merges, h_prio, cachedFits_T.mpr h_notBoth⟩
    have h_expected := h_agrees rq h_returned
    rw [h_prio, Option.some.injEq] at h_expected
    exact expectedPrio_eq_T_iff.mp h_expected.symm h_promoted
  · intro h_notMixed rq h_returned
    obtain ⟨plug, prio, h_plug, h_cached, h_merges, h_prio, h_fits⟩ :=
      getCachedRequest_eq_request_iff.mp h_returned
    rw [h_prio]
    rcases rqPrio_cases h_reg h_groups h_prio with rfl | rfl
    · have h_plain : ¬ (ioc.blexIoprio = blkBlexLPrio ∨ IsRt q sub.bioSet ∨
          IsHigh q sub.bioSet) := fun h_promoted =>
        h_notMixed ⟨plug, rq, h_plug, h_cached, h_merges, h_prio, cachedFits_T.mp h_fits,
          h_promoted⟩
      rw [expectedPrio_eq_T_iff.mpr h_plain]
    · -- a bio that an L request fits is promoted for any task
      have h_high : HighPrio q.env sub.bioSet.biIoprio sub.bioSet.biOpf := cachedFits_L.mp h_fits
      rw [expectedPrio, if_pos (Or.inr h_high)]

/-! ## A plug with a cached request -/

/-- A bio with a plug that has cached the request for a tag of `hctx`. -/
def cachedBio (biOpf hctx : Nat) : Submission :=
  { firstBio biOpf with plug := some ⟨[], 0, false, false⟩, cachedRq := some ⟨hctx, 1⟩ }

/-- A plain bio of a T task takes a request of the T group. -/
theorem cachedRequest_agrees_iff_plain :
    2 ≤ Sched.fourNqs.nrCqs ∧
      RegReach Alloc.fourQueue.env Sched.fourNqs Alloc.fourQueue.reg ∧
      ((∀ rq, blkMqGetCachedRequest Alloc.fourQueue (cachedBio 0 0) = .request rq →
        rqPrio Alloc.fourQueue (cachedBio 0 0) rq =
          some (expectedPrio Alloc.fourQueue.env Sched.tTask 0 0)) ↔
        ¬ MixesGroups Alloc.fourQueue (cachedBio 0 0) Sched.tTask) :=
  ⟨by decide, Sched.fourNqsReg_reach,
    cachedRequest_agrees_iff Alloc.fourQueue (cachedBio 0 0) Sched.tTask (by decide)
      Sched.fourNqsReg_reach⟩

/-- A synchronous bio takes the cached request of queue `1`, which is in the T group; a new
request for it would be meant for the L group. -/
theorem cachedRequest_disagrees :
    RegReach Alloc.fourQueue.env Sched.fourNqs Alloc.fourQueue.reg ∧
      Sched.tTask.blexIoprio = blkBlexTPrio ∧
      blkMqGetCachedRequest Alloc.fourQueue (cachedBio 2048 0) = .request ⟨0, 1⟩ ∧
      rqPrio Alloc.fourQueue (cachedBio 2048 0) ⟨0, 1⟩ = some blkBlexTPrio ∧
      expectedPrio Alloc.fourQueue.env Sched.tTask (cachedBio 2048 0).bioSet.biIoprio
        (cachedBio 2048 0).bioSet.biOpf = blkBlexLPrio ∧
      blkBlexTPrio ≠ blkBlexLPrio :=
  ⟨Sched.fourNqsReg_reach, rfl, rfl, rfl, rfl, by decide⟩

end Daredevil.Submit
