/-
  Daredevil.Block.DefaultHctx

  The default hctxs that `blk_blex_map_swqueue` gives each CPU, one for each priority.
  `blk_mq_get_tag` falls back to them after it has waited for a tag.

  The index `ncq_start + (ncq_start - 1 + i) % nr_attach_nsqs` is that of a queue id
  looked up in the table of hctxs, which has queue `nqid` at `nqid - 1`.  So the
  fallbacks are the queues from the second of the group to the one behind its last:
  for the L group there is none.

    * `mapBlexHctxs_eq`      — what the loop over the CPUs writes;
    * `defaultHctx_valid_iff`  — when the fallback of a CPU is a queue of the group;
    * `defaultHctxs_valid_iff` — when all are; no two CPUs of a group's length share one.
-/
import Daredevil.Nvme.Vectors
import Daredevil.Sched.RoundRobin
import Mathlib.Data.Nat.ModEq

namespace Daredevil

namespace Sched

variable {L : QueueLayout} {reg : NqRegulator} {prio cpu : Nat}

/-! ## The loop -/

/-- `ctx->blex_hctxs[prio]`, by CPU and priority; `none` is NULL. -/
abbrev BlexHctxs := Nat → Nat → Option Nat

/-- The round of `blk_blex_map_swqueue` for a CPU and a priority. -/
def mapBlexHctx (reg : NqRegulator) (cpu : Nat) (ctxs : BlexHctxs) (prio : Nat) :
    Option BlexHctxs := do
  let nqGroup ← reg.group? prio
  let hctxIdx ← blexHctxIdx nqGroup cpu
  some (Function.update ctxs cpu
    (Function.update (ctxs cpu) prio (xaLoadHctx reg.blexInfo hctxIdx)))

/-- The default hctxs of the possible CPUs. -/
def mapBlexHctxs (reg : NqRegulator) (cpus : List Nat) (ctxs : BlexHctxs) : Option BlexHctxs :=
  cpus.foldlM (fun ctxs cpu => (List.range blkBlexPrioLevel).foldlM (mapBlexHctx reg cpu) ctxs) ctxs

/-- What the round looks up. -/
def defaultHctx (reg : NqRegulator) (cpu prio : Nat) : Option Nat :=
  (blexHctxIdx (reg.nqGroups prio) cpu).bind fun hctxIdx => xaLoadHctx reg.blexInfo hctxIdx

/-- The groups have queues, so no round divides by zero. -/
def GroupsNonempty (reg : NqRegulator) : Prop :=
  ∀ prio < blkBlexPrioLevel, 0 < (reg.nqGroups prio).nrAttachNsqs

theorem mapBlexHctx_eq (h : GroupsNonempty reg) (h_prio : prio < blkBlexPrioLevel)
    (ctxs : BlexHctxs) :
    mapBlexHctx reg cpu ctxs prio = some (Function.update ctxs cpu
      (Function.update (ctxs cpu) prio (defaultHctx reg cpu prio))) := by
  have h_group : reg.group? prio = some (reg.nqGroups prio) := if_pos h_prio
  have h_pos := Nat.ne_of_gt (h prio h_prio)
  simp only [mapBlexHctx, defaultHctx, h_group, blexHctxIdx, if_neg h_pos, Option.bind_eq_bind,
    Option.bind_some]

/-- A CPU gets both of its fallbacks. -/
theorem mapCpu_eq (h : GroupsNonempty reg) (ctxs : BlexHctxs) :
    (List.range blkBlexPrioLevel).foldlM (mapBlexHctx reg cpu) ctxs =
      some fun i prio =>
        if i = cpu ∧ prio < blkBlexPrioLevel then defaultHctx reg cpu prio else ctxs i prio := by
  have h_range : List.range blkBlexPrioLevel = [blkBlexTPrio, blkBlexLPrio] := rfl
  rw [h_range, List.foldlM_cons, mapBlexHctx_eq h (by decide)]
  simp only [Option.bind_eq_bind, Option.bind_some, List.foldlM_cons, List.foldlM_nil,
    mapBlexHctx_eq h (show blkBlexLPrio < blkBlexPrioLevel by decide), Function.update_self,
    Function.update_idem, Option.pure_def, Option.some.injEq]
  funext i prio
  -- the second round leaves what the first has written
  by_cases h_cpu : i = cpu
  · subst h_cpu
    rw [Function.update_self]
    by_cases h_prio : prio < blkBlexPrioLevel
    · rw [if_pos ⟨rfl, h_prio⟩]
      rcases prio_cases h_prio with rfl | rfl
      · rw [Function.update_of_ne (by decide), Function.update_self]
      · rw [Function.update_self]
    · have h_T : prio ≠ blkBlexTPrio := fun h_eq => h_prio (h_eq ▸ by decide)
      have h_L : prio ≠ blkBlexLPrio := fun h_eq => h_prio (h_eq ▸ by decide)
      rw [if_neg fun h_and => h_prio h_and.2, Function.update_of_ne h_L, Function.update_of_ne h_T]
  · rw [Function.update_of_ne h_cpu, if_neg fun h_and => h_cpu h_and.1]

theorem mapBlexHctxs_eq (h : GroupsNonempty reg) (cpus : List Nat) (ctxs : BlexHctxs) :
    mapBlexHctxs reg cpus ctxs = some fun cpu prio =>
      if cpu ∈ cpus ∧ prio < blkBlexPrioLevel then defaultHctx reg cpu prio else ctxs cpu prio := by
  induction cpus generalizing ctxs with
  | nil =>
      simp only [List.not_mem_nil, false_and, if_false]
      rfl
  | cons first cpus ih =>
      rw [mapBlexHctxs, List.foldlM_cons, mapCpu_eq h, Option.bind_eq_bind, Option.bind_some]
      refine (ih _).trans (congrArg some ?_)
      funext cpu prio
      -- a CPU of the rest is written again, with the same hctx
      by_cases h_prio : prio < blkBlexPrioLevel
      · by_cases h_cpu : cpu = first
        · subst h_cpu
          simp only [h_prio, and_true, if_true, List.mem_cons_self, ite_self]
        · simp only [h_prio, and_true, List.mem_cons, h_cpu, false_or, if_false]
      · simp only [h_prio, and_false, if_false]

/-! ## One fallback -/

theorem RegWf.groupsNonempty (h : RegWf L reg) (h_groups : 2 ≤ L.nrCqs) : GroupsNonempty reg :=
  fun _ h_prio => (h.group_range h_groups h_prio).2.1

/-- The CPU's fallback for the priority is the hctx of a queue of the group. -/
def DefaultHctxValid (reg : NqRegulator) (prio : Nat) (hctx : Option Nat) : Prop :=
  ∃ queueNum enq, hctx = some queueNum ∧
    reg.enq? (blkBlexHctxToNqid queueNum) = some enq ∧ enq.group = some prio

/-- The next number is a multiple exactly after the last remainder. -/
theorem succ_mod_eq_zero_iff {x n : Nat} (h : 0 < n) : (x + 1) % n = 0 ↔ x % n = n - 1 := by
  have h_lt := Nat.mod_lt x h
  rw [← Nat.mod_add_mod]
  by_cases h_last : x % n + 1 = n
  · rw [h_last, Nat.mod_self]
    omega
  · rw [Nat.mod_eq_of_lt (by omega)]
    omega

theorem defaultHctx_valid_iff (h : RegWf L reg) (h_groups : 2 ≤ L.nrCqs)
    (h_prio : prio < blkBlexPrioLevel) (cpu : Nat) :
    DefaultHctxValid reg prio (defaultHctx reg cpu prio) ↔
      ((reg.nqGroups prio).ncqStart + cpu) % (reg.nqGroups prio).nrAttachNsqs ≠ 0 := by
  obtain ⟨h_start, h_nr, h_end⟩ := h.group_range h_groups h_prio
  have h_mem {nqid : Nat} : nqid ∈ (reg.nqGroups prio).nsqRange ↔ _ :=
    (h.group prio h_prio).mem_nsqRange h_groups h_prio
  have h_rem := Nat.mod_lt ((reg.nqGroups prio).ncqStart - 1 + cpu) h_nr
  have h_last := @succ_mod_eq_zero_iff ((reg.nqGroups prio).ncqStart - 1 + cpu) _ h_nr
  rw [show (reg.nqGroups prio).ncqStart - 1 + cpu + 1 = (reg.nqGroups prio).ncqStart + cpu by
    omega] at h_last
  rw [ne_eq, h_last, defaultHctx, blexHctxIdx, if_neg (Nat.ne_of_gt h_nr), Option.bind_some,
    xaLoadHctx, h.info, DefaultHctxValid]
  constructor
  · rintro ⟨queueNum, enq, h_load, h_enq, h_group⟩ h_eq
    split at h_load
    case isFalse => cases h_load
    case isTrue h_in =>
      -- the queue behind the last one of the group
      rw [Int.toNat_natCast, Option.some.injEq] at h_load
      obtain ⟨h_pos, h_le, rfl, h_enqWf⟩ := h.enq?_some h_enq
      rw [h_enqWf.group_eq, Option.some.injEq] at h_group
      have h_range := h_mem.mpr ⟨Set.mem_Icc.mpr ⟨h_pos, h_le⟩, h_group⟩
      rw [NqGroup.nsqRange, Set.mem_Ico, blkBlexHctxToNqid] at h_range
      omega
  · -- any other remainder gives a queue of the group
    intro h_ne
    have h_in : (reg.nqGroups prio).ncqStart +
        ((reg.nqGroups prio).ncqStart - 1 + cpu) % (reg.nqGroups prio).nrAttachNsqs + 1 ∈
          (reg.nqGroups prio).nsqRange := by
      rw [NqGroup.nsqRange, Set.mem_Ico]
      omega
    obtain ⟨h_range, h_group⟩ := h_mem.mp h_in
    obtain ⟨h_pos, h_le⟩ := Set.mem_Icc.mp h_range
    refine ⟨_, _, ?_, h.enq?_eq h_pos h_le, (h.enq _ h_pos h_le).group_eq.trans (congrArg some h_group)⟩
    rw [if_pos (by omega), Int.toNat_natCast]

/-! ## All fallbacks -/

theorem xaLoadHctx_inj {info : BlkBlexDevInfo} {a b : Nat} (h_a : a ≤ info.maxNqid)
    (h_b : b ≤ info.maxNqid) (h_eq : xaLoadHctx info a = xaLoadHctx info b) : a = b := by
  rw [xaLoadHctx, xaLoadHctx] at h_eq
  -- `max_nqid` is the only index without an hctx
  by_cases h_in : a < info.maxNqid
  · rw [if_pos (by omega)] at h_eq
    by_cases h_in' : b < info.maxNqid
    · rw [if_pos (by omega), Option.some.injEq] at h_eq
      omega
    · rw [if_neg (by omega)] at h_eq
      cases h_eq
  · by_cases h_in' : b < info.maxNqid
    · rw [if_neg (by omega), if_pos (by omega)] at h_eq
      cases h_eq
    · omega

/-- CPUs that are less than a group's length apart have different fallbacks. -/
theorem defaultHctx_inj (h : RegWf L reg) (h_groups : 2 ≤ L.nrCqs)
    (h_prio : prio < blkBlexPrioLevel) {first i j : Nat}
    (h_i : i < (reg.nqGroups prio).nrAttachNsqs) (h_j : j < (reg.nqGroups prio).nrAttachNsqs)
    (h_eq : defaultHctx reg (first + i) prio = defaultHctx reg (first + j) prio) : i = j := by
  obtain ⟨h_start, h_nr, h_end⟩ := h.group_range h_groups h_prio
  have h_max : reg.blexInfo.maxNqid = L.maxNqid := by rw [h.info]
  have h_rem (x : Nat) := Nat.mod_lt x h_nr
  have h_rem_i := h_rem ((reg.nqGroups prio).ncqStart - 1 + (first + i))
  have h_rem_j := h_rem ((reg.nqGroups prio).ncqStart - 1 + (first + j))
  simp only [defaultHctx, blexHctxIdx, if_neg (Nat.ne_of_gt h_nr), Option.bind_some] at h_eq
  have h_idx := Nat.add_left_cancel (xaLoadHctx_inj (by omega) (by omega) h_eq)
  -- the offsets have the same remainder, and both are below the divisor
  rw [← Nat.add_assoc, ← Nat.add_assoc] at h_idx
  have h_mod := Nat.ModEq.add_left_cancel' _ h_idx
  rwa [Nat.ModEq, Nat.mod_eq_of_lt h_i, Nat.mod_eq_of_lt h_j] at h_mod

/-- Every possible CPU has a fallback for each priority, and those of as many consecutive CPUs as
a group has queues are all different. -/
structure DefaultHctxsValid (reg : NqRegulator) (cpus : List Nat) (ctxs : BlexHctxs) : Prop where
  valid : ∀ cpu ∈ cpus, ∀ prio < blkBlexPrioLevel, DefaultHctxValid reg prio (ctxs cpu prio)
  distinct : ∀ prio < blkBlexPrioLevel, ∀ first,
    (∀ i < (reg.nqGroups prio).nrAttachNsqs, first + i ∈ cpus) →
    ∀ i < (reg.nqGroups prio).nrAttachNsqs, ∀ j < (reg.nqGroups prio).nrAttachNsqs,
      ctxs (first + i) prio = ctxs (first + j) prio → i = j

/-- They are valid exactly if no possible CPU hits the end of a group. -/
theorem defaultHctxs_valid_iff (h : RegWf L reg) (h_groups : 2 ≤ L.nrCqs) (cpus : List Nat)
    (ctxs : BlexHctxs) :
    ∃ ctxs', mapBlexHctxs reg cpus ctxs = some ctxs' ∧
      (DefaultHctxsValid reg cpus ctxs' ↔ ∀ cpu ∈ cpus, ∀ prio < blkBlexPrioLevel,
        ((reg.nqGroups prio).ncqStart + cpu) % (reg.nqGroups prio).nrAttachNsqs ≠ 0) := by
  refine ⟨_, mapBlexHctxs_eq (h.groupsNonempty h_groups) cpus ctxs, ?_⟩
  constructor
  · intro h_valid cpu h_cpu prio h_prio
    have h_one := h_valid.valid cpu h_cpu prio h_prio
    rw [if_pos ⟨h_cpu, h_prio⟩] at h_one
    exact (defaultHctx_valid_iff h h_groups h_prio cpu).mp h_one
  · intro h_ne
    constructor
    · intro cpu h_cpu prio h_prio
      rw [if_pos ⟨h_cpu, h_prio⟩]
      exact (defaultHctx_valid_iff h h_groups h_prio cpu).mpr (h_ne cpu h_cpu prio h_prio)
    · intro prio h_prio first h_cpus i h_i j h_j h_eq
      rw [if_pos ⟨h_cpus i h_i, h_prio⟩, if_pos ⟨h_cpus j h_j, h_prio⟩] at h_eq
      exact defaultHctx_inj h h_groups h_prio h_i h_j h_eq

theorem defaultHctxs_valid_iff_five :
    ∃ reg, regulatorInit (.default 4) fiveNqs.toBlkBlexDevInfo (fun _ => 64) = some reg ∧
      ∃ ctxs', mapBlexHctxs reg [0, 1, 2, 3] (fun _ _ => none) = some ctxs' ∧
        (DefaultHctxsValid reg [0, 1, 2, 3] ctxs' ↔
          ∀ cpu ∈ [0, 1, 2, 3], ∀ prio < blkBlexPrioLevel,
            ((reg.nqGroups prio).ncqStart + cpu) % (reg.nqGroups prio).nrAttachNsqs ≠ 0) := by
  obtain ⟨reg, h_init, -⟩ := fiveNqs_initialised
  exact ⟨reg, h_init,
    defaultHctxs_valid_iff (regulatorInit_wf (by decide) h_init).1 (by decide) _ _⟩

/-- With the T queues 1 and 2 and the L queues 3 to 5, CPU 1 gets queue 3 for the T priority and
CPU 0 gets none for the L priority. -/
theorem defaultHctxs_five :
    ∃ reg, regulatorInit (.default 4) fiveNqs.toBlkBlexDevInfo (fun _ => 64) = some reg ∧
      ∃ ctxs', mapBlexHctxs reg [0, 1, 2, 3] (fun _ _ => none) = some ctxs' ∧
        ctxs' 1 blkBlexTPrio = some 2 ∧ (reg.enqs 3).group = some blkBlexLPrio ∧
        ctxs' 0 blkBlexLPrio = none ∧ ¬ DefaultHctxsValid reg [0, 1, 2, 3] ctxs' := by
  have h_any : (regulatorInit (.default 4) fiveNqs.toBlkBlexDevInfo fun _ => 64).any (fun reg =>
      (mapBlexHctxs reg [0, 1, 2, 3] fun _ _ => none).any fun ctxs' =>
        decide (ctxs' 1 blkBlexTPrio = some 2 ∧ (reg.enqs 3).group = some blkBlexLPrio ∧
          ctxs' 0 blkBlexLPrio = none)) = true := by
    decide +kernel
  obtain ⟨reg, h_init, h_any⟩ := (Option.any_eq_true _ _).mp h_any
  obtain ⟨ctxs', h_map, h_facts⟩ := (Option.any_eq_true _ _).mp h_any
  obtain ⟨h_T, h_group, h_L⟩ := of_decide_eq_true h_facts
  refine ⟨reg, h_init, ctxs', h_map, h_T, h_group, h_L, fun h_valid => ?_⟩
  obtain ⟨queueNum, enq, h_hctx, -⟩ := h_valid.valid 0 (by decide) blkBlexLPrio (by decide)
  rw [h_L] at h_hctx
  cases h_hctx

end Sched

end Daredevil
