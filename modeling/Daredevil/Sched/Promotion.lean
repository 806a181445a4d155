/-
  Daredevil.Sched.Promotion

  The two users of `blk_blex_sched_get_non_default_nqid`.

  It returns a queue id from 1 on.  `blk_blex_sched_req_alloc` looks the id up in the
  table of hctxs, where queue `nqid` has the number `nqid - 1`; the last resort of
  `blk_blex_sched_no_tag` goes through `blk_blex_nqid_to_hctx`, which subtracts the one.

  What a group starts with stays the same while its arrays are updated (`SameStarts`),
  so both users compute the same id, and then never get the same hctx
  (`promotionTargets_disagree`).
-/
import Daredevil.Sched.RoundRobin
import Daredevil.Sched.Separation

namespace Daredevil

namespace Sched

variable {reg reg' : NqRegulator} {env : Env} {c : Caller} {ioc : TaskIoc}

/-! ## What the id is computed from -/

/-- The layout and the starts of the groups are the same. -/
structure SameStarts (reg reg' : NqRegulator) : Prop where
  blexInfo : reg'.blexInfo = reg.blexInfo
  ncqStart : ∀ prio, (reg'.nqGroups prio).ncqStart = (reg.nqGroups prio).ncqStart

theorem SameStarts.trans {reg'' : NqRegulator} (h : SameStarts reg reg')
    (h' : SameStarts reg' reg'') : SameStarts reg reg'' where
  blexInfo := h'.blexInfo.trans h.blexInfo
  ncqStart prio := (h'.ncqStart prio).trans (h.ncqStart prio)

theorem SameStarts.setEnq (reg : NqRegulator) (nqid : Nat) (enq : ExposedNq) :
    SameStarts reg (reg.setEnq nqid enq) := ⟨rfl, fun _ => rfl⟩

theorem SameStarts.setGroup {prio : Nat} {group : NqGroup}
    (h : group.ncqStart = (reg.nqGroups prio).ncqStart) :
    SameStarts reg (reg.setGroup prio group) where
  blexInfo := rfl
  ncqStart p := by
    by_cases h_eq : p = prio
    · rw [h_eq, NqRegulator.nqGroups_setGroup_self, h]
    · rw [NqRegulator.nqGroups_setGroup_ne reg group h_eq]

theorem updatePriorityArray_sameStarts {arr arr' : NqPriorityArray} {mru forceMerit : Int}
    {type : NqType}
    (h_upd : blkBlexUpdatePriorityArray env reg arr mru forceMerit type = some (reg', arr')) :
    SameStarts reg reg' where
  blexInfo := info_arraySteps.updatePriorityArray h_upd
  ncqStart prio := by rw [updatePriorityArray_groups h_upd]

theorem updateGroupArr_sameStarts {prio : Nat} {mru forceMerit : Int}
    (h_upd : updateGroupArr env reg prio mru forceMerit = some reg') : SameStarts reg reg' := by
  simp only [updateGroupArr, Option.bind_eq_bind, Option.bind_eq_some_iff, Option.some.injEq]
    at h_upd
  obtain ⟨group, h_group, ⟨reg₁, arr⟩, h_arr, rfl⟩ := h_upd
  obtain ⟨-, rfl⟩ := group?_some h_group
  have h₁ := updatePriorityArray_sameStarts h_arr
  exact h₁.trans (.setGroup (h₁.ncqStart prio).symm)

theorem updateNcqArr_sameStarts {cqid : Nat} {mru forceMerit : Int}
    (h_upd : updateNcqArr env reg cqid mru forceMerit = some reg') : SameStarts reg reg' := by
  simp only [updateNcqArr, Option.bind_eq_bind, Option.bind_eq_some_iff, Option.some.injEq]
    at h_upd
  obtain ⟨ncq, -, encq, -, ⟨reg₁, arr⟩, h_arr, rfl⟩ := h_upd
  exact (updatePriorityArray_sameStarts h_arr).trans (.setEnq _ _ _)

theorem recommendNsq_sameStarts {prio nqid : Nat} {roundRobin : Bool} {ncqMru nsqMru : Int}
    (h_rec : blkBlexRecommendNsq env reg prio roundRobin ncqMru nsqMru = some (reg', nqid)) :
    SameStarts reg reg' := by
  obtain ⟨-, reg₁, -, -, h_upd, -, -, ⟨-, rfl, -⟩ | ⟨-, -, h_upd₂⟩⟩ := recommendNsq_cases h_rec
  · exact updateGroupArr_sameStarts h_upd
  · exact (updateGroupArr_sameStarts h_upd).trans (updateNcqArr_sameStarts h_upd₂)

theorem rrNextNq_sameStarts {prio : Nat} {type : NqType} {hctx : Option Nat}
    (h_rr : blkBlexSchedRrNextNq reg prio type = some (reg', hctx)) : SameStarts reg reg' := by
  obtain ⟨⟨reg₁, nqid⟩, h_next, h_eq⟩ := Option.map_eq_some_iff.mp h_rr
  cases h_eq
  obtain ⟨-, ⟨offset, rfl⟩ | ⟨offset, cqid, -, rfl⟩⟩ := rrNextNsqid_cases h_next
  · exact .setGroup rfl
  · refine .trans (.setGroup ?_) (.setEnq _ _ _)
    rfl

theorem noTagFirst_sameStarts {oldEnq : ExposedNq} {hctx : Option Nat}
    (h_first : noTagFirst env reg oldEnq = some (reg', hctx)) : SameStarts reg reg' := by
  unfold noTagFirst at h_first
  split at h_first
  · exact rrNextNq_sameStarts h_first
  · simp only [Option.bind_eq_bind, Option.bind_eq_some_iff] at h_first
    obtain ⟨group, -, reg₁, h_upd, ⟨reg₂, nqid⟩, h_rec, enq, -, h_eq⟩ := h_first
    cases h_eq
    exact (updateGroupArr_sameStarts h_upd).trans (recommendNsq_sameStarts h_rec)

/-- The id depends on the starts and the CPU only. -/
theorem getNonDefaultNqid_congr (h : SameStarts reg reg') {ioc' : TaskIoc}
    (h_cpu : ioc'.lastWorkingCpu = ioc.lastWorkingCpu) :
    blkBlexSchedGetNonDefaultNqid env reg' ioc' = blkBlexSchedGetNonDefaultNqid env reg ioc := by
  have h_group (r : NqRegulator) : r.group? blkBlexLPrio = some (r.nqGroups blkBlexLPrio) :=
    if_pos (by decide)
  simp only [blkBlexSchedGetNonDefaultNqid, h_group, Option.bind_eq_bind, Option.bind_some,
    h.blexInfo, h.ncqStart, h_cpu]

/-! ## The id -/

/-- The L group starts within the queues. -/
structure LStartInRange (reg : NqRegulator) : Prop where
  pos : 1 ≤ (reg.nqGroups blkBlexLPrio).ncqStart
  le : (reg.nqGroups blkBlexLPrio).ncqStart ≤ reg.blexInfo.maxNqid

theorem RegWf.lStartInRange {L : QueueLayout} (h : RegWf L reg) (h_groups : 2 ≤ L.nrCqs) :
    LStartInRange reg := by
  have h_start := (h.group blkBlexLPrio (by decide)).ncqStart_eq
  have h_idx : L.groupIdx blkBlexLPrio = L.nrCqs / blkBlexPrioLevel := Nat.one_mul _
  rw [h_idx] at h_start
  constructor
  · rw [h_start]
    exact Nat.le_of_lt (L.one_lt_lStart h_groups)
  · rw [h_start, h.info]
    exact L.lStart_le h_groups

/-- The id is that of a queue. -/
theorem getNonDefaultNqid_range (h : LStartInRange reg)
    (h_cpu : ioc.lastWorkingCpu < env.nrCpuIds) :
    ∃ nqid : Nat, blkBlexSchedGetNonDefaultNqid env reg ioc = some (nqid : Int) ∧
      1 ≤ nqid ∧ nqid ≤ reg.blexInfo.maxNqid := by
  have h_group : reg.group? blkBlexLPrio = some (reg.nqGroups blkBlexLPrio) :=
    if_pos (by decide)
  have h_pos := h.pos
  have h_le := h.le
  have h_half : (env.nrCpuIds : Int).tdiv 2 = ((env.nrCpuIds / 2 : Nat) : Int) := rfl
  simp only [blkBlexSchedGetNonDefaultNqid, h_group, Option.bind_eq_bind, Option.bind_some, h_half]
  generalize h_nr : (reg.blexInfo.maxNqid : Int) - (reg.nqGroups blkBlexLPrio).ncqStart + 1 = nr
  -- a remainder of the number of L queues is below it
  have of_mod {a : Int} (h_a : 0 ≤ a) :
      ∃ nqid : Nat, some (a.tmod nr + 1) = some (nqid : Int) ∧ 1 ≤ nqid ∧
        nqid ≤ reg.blexInfo.maxNqid := by
    have h_low := Int.tmod_nonneg nr h_a
    have h_high := Int.tmod_lt_of_pos a (show 0 < nr by omega)
    exact ⟨(a.tmod nr + 1).toNat, congrArg some (by omega), by omega, by omega⟩
  rw [if_neg (by omega)]
  split
  case isTrue => exact of_mod (by omega)
  case isFalse => exact of_mod (by omega)

/-! ## The hctxs -/

/-- The occupation that the two attempts of `blk_blex_sched_no_tag` find. -/
def attemptsFull (env : Env) (c : Caller) (reg : NqRegulator) (oldHctx : Nat) : Option Bool := do
  let oldEnq ← reg.enq? (blkBlexHctxToNqid oldHctx)
  let (reg, first) ← noTagFirst env reg oldEnq
  let first ← first
  let (_, second) ← blkBlexSchedRrNextNq reg oldEnq.prio .ncq
  let second ← second
  some (c.full first && c.full second)

/-- With both full the request goes to the hctx of the computed queue. -/
theorem noTag_bothFull {oldHctx : Nat} (h_current : c.isCurrent = true)
    (h_full : attemptsFull env c reg oldHctx = some true) {nqid : Int}
    (h_nqid : blkBlexSchedGetNonDefaultNqid env reg ioc = some nqid) :
    ∃ reg' ioc', blkBlexSchedNoTag env c reg ioc oldHctx =
      some (reg', ioc', blkBlexNqidToHctx reg.blexInfo nqid) := by
  simp only [attemptsFull, Option.bind_eq_bind, Option.bind_eq_some_iff, Option.some.injEq,
    Bool.and_eq_true] at h_full
  obtain ⟨oldEnq, h_old, ⟨reg₁, hctx₁⟩, h_first, first, rfl, ⟨reg₂, hctx₂⟩, h_second, second, rfl,
    h_fullFirst, h_fullSecond⟩ := h_full
  -- the attempts do not touch what the id is computed from
  have h_same := (noTagFirst_sameStarts h_first).trans (rrNextNq_sameStarts h_second)
  simp only [blkBlexSchedNoTag, h_current, Bool.not_true, Bool.false_eq_true, if_false, h_old,
    h_first, h_second, h_fullFirst, h_fullSecond, Option.bind_eq_bind, Option.bind_some]
  have h_cpu : (if ioc.hctx = some oldHctx then { ioc with needUpdate := true }
      else ioc).lastWorkingCpu = ioc.lastWorkingCpu := by
    split <;> rfl
  rw [getNonDefaultNqid_congr h_same h_cpu, h_nqid, Option.bind_some, h_same.blexInfo]
  exact ⟨_, _, rfl⟩

/-- Of queue `nqid` one user gets the hctx, and the other that of the next queue or none. -/
theorem promotionTargets_apart (h : LStartInRange reg)
    (h_cpu : ioc.lastWorkingCpu < env.nrCpuIds) (h_prio : ioc.blexIoprio = blkBlexTPrio)
    {bioIoprio cmdFlags : Nat} (h_promoted : useDefault env ioc bioIoprio cmdFlags = false)
    {oldHctx : Nat} (h_current : c.isCurrent = true)
    (h_full : attemptsFull env c reg oldHctx = some true) :
    ∃ (nqid : Nat) (reqHctx : Option Nat) (reg' : NqRegulator) (ioc' : TaskIoc),
      blkBlexSchedGetNonDefaultNqid env reg ioc = some (nqid : Int) ∧
      blkBlexSchedReqAlloc env reg ioc bioIoprio cmdFlags = some reqHctx ∧
      blkBlexSchedNoTag env c reg ioc oldHctx = some (reg', ioc', some (nqid - 1)) ∧
      reqHctx ≠ some (nqid - 1) := by
  obtain ⟨nqid, h_nqid, h_pos, h_le⟩ := getNonDefaultNqid_range h h_cpu
  obtain ⟨reg', ioc', h_noTag⟩ := noTag_bothFull h_current h_full h_nqid
  have h_notOutlier : ¬ ioc.blexIoprio = blkBlexOutlierPrio := by
    rw [h_prio]
    decide
  have h_req : blkBlexSchedReqAlloc env reg ioc bioIoprio cmdFlags =
      some (xaLoadHctx reg.blexInfo (nqid : Int)) := by
    rw [blkBlexSchedReqAlloc, h_promoted, if_neg Bool.false_ne_true, if_neg h_notOutlier, h_nqid]
    rfl
  rw [nqidToHctx_eq h_pos h_le] at h_noTag
  refine ⟨nqid, _, reg', ioc', h_nqid, h_req, h_noTag, ?_⟩
  -- the request loads the hctx at the id itself, not at the index before it
  rw [xaLoadHctx]
  split
  case isTrue =>
    rw [Int.toNat_natCast, ne_eq, Option.some.injEq]
    omega
  case isFalse => exact Option.some_ne_none _ ∘ Eq.symm

/-- Both users get the hctx of the computed queue, and that is one of the L group. -/
def PromotionTargetsAgree (env : Env) (c : Caller) (reg : NqRegulator) (ioc : TaskIoc)
    (bioIoprio cmdFlags oldHctx : Nat) : Prop :=
  ∃ (nqid hctx : Nat) (reg' : NqRegulator) (ioc' : TaskIoc),
    blkBlexSchedGetNonDefaultNqid env reg ioc = some (nqid : Int) ∧
    blkBlexSchedReqAlloc env reg ioc bioIoprio cmdFlags = some (some hctx) ∧
    blkBlexSchedNoTag env c reg ioc oldHctx = some (reg', ioc', some hctx) ∧
    blkBlexHctxToNqid hctx = nqid ∧
    (reg.nqGroups blkBlexLPrio).ncqStart ≤ nqid ∧ nqid ≤ reg.blexInfo.maxNqid

/-- They never do. -/
theorem promotionTargets_disagree (h : LStartInRange reg)
    (h_cpu : ioc.lastWorkingCpu < env.nrCpuIds) (h_prio : ioc.blexIoprio = blkBlexTPrio)
    {bioIoprio cmdFlags : Nat} (h_promoted : useDefault env ioc bioIoprio cmdFlags = false)
    {oldHctx : Nat} (h_current : c.isCurrent = true)
    (h_full : attemptsFull env c reg oldHctx = some true) :
    ¬ PromotionTargetsAgree env c reg ioc bioIoprio cmdFlags oldHctx := by
  rintro ⟨nqid, hctx, reg', ioc', -, h_req, h_noTag, -⟩
  obtain ⟨nqid₁, reqHctx, reg₁, ioc₁, -, h_req₁, h_noTag₁, h_ne⟩ :=
    promotionTargets_apart h h_cpu h_prio h_promoted h_current h_full
  rw [h_req, Option.some.injEq] at h_req₁
  rw [h_noTag, Option.some.injEq, Prod.mk.injEq, Prod.mk.injEq] at h_noTag₁
  exact h_ne (h_req₁.symm.trans h_noTag₁.2.2)

/-! ## Five queues -/

/-- The task runs, and no queue has a free tag. -/
def exhaustedCaller : Caller := ⟨0, 0, true, fun _ => true⟩

/-- A T task on CPU 0, using queue 1. -/
def tTaskIoc : TaskIoc := ⟨0, 0, 0, some 0, none, false, blkBlexTPrio⟩

theorem promotionTargets_disagree_five :
    ∃ reg, regulatorInit (.default 4) fiveNqs.toBlkBlexDevInfo (fun _ => 64) = some reg ∧
      ¬ PromotionTargetsAgree (.default 4) exhaustedCaller reg tTaskIoc 8192 0 0 := by
  have h_any : (regulatorInit (.default 4) fiveNqs.toBlkBlexDevInfo fun _ => 64).any (fun reg =>
      decide (attemptsFull (.default 4) exhaustedCaller reg 0 = some true)) = true := by
    decide +kernel
  obtain ⟨reg, h_init, h_full⟩ := (Option.any_eq_true _ _).mp h_any
  have h_start := (regulatorInit_wf (by decide) h_init).1.lStartInRange (by decide)
  exact ⟨reg, h_init, promotionTargets_disagree h_start (by decide) rfl (by decide) rfl
    (of_decide_eq_true h_full)⟩

/-- The computed queue is 1, which is a T queue: a promoted request gets the hctx of queue 2, and
one without a tag that of queue 1. -/
theorem promotionTargets_five :
    ∃ reg, regulatorInit (.default 4) fiveNqs.toBlkBlexDevInfo (fun _ => 64) = some reg ∧
      attemptsFull (.default 4) exhaustedCaller reg 0 = some true ∧
      useDefault (.default 4) tTaskIoc 8192 0 = false ∧
      blkBlexSchedGetNonDefaultNqid (.default 4) reg tTaskIoc = some 1 ∧
      blkBlexSchedReqAlloc (.default 4) reg tTaskIoc 8192 0 = some (some 1) ∧
      (blkBlexSchedNoTag (.default 4) exhaustedCaller reg tTaskIoc 0).map (fun r => r.2.2) =
        some (some 0) ∧
      (reg.nqGroups blkBlexLPrio).ncqStart = 3 := by
  have h_any : (regulatorInit (.default 4) fiveNqs.toBlkBlexDevInfo fun _ => 64).any (fun reg =>
      decide (attemptsFull (.default 4) exhaustedCaller reg 0 = some true ∧
        useDefault (.default 4) tTaskIoc 8192 0 = false ∧
        blkBlexSchedGetNonDefaultNqid (.default 4) reg tTaskIoc = some 1 ∧
        blkBlexSchedReqAlloc (.default 4) reg tTaskIoc 8192 0 = some (some 1) ∧
        (blkBlexSchedNoTag (.default 4) exhaustedCaller reg tTaskIoc 0).map (fun r => r.2.2) =
          some (some 0) ∧
        (reg.nqGroups blkBlexLPrio).ncqStart = 3)) = true := by
    decide +kernel
  obtain ⟨reg, h_init, h_facts⟩ := (Option.any_eq_true _ _).mp h_any
  exact ⟨reg, h_init, of_decide_eq_true h_facts⟩

end Sched

end Daredevil
