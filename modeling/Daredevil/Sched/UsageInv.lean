/-
  Daredevil.Sched.UsageInv

  Calls of `blk_blex_set_maps` and `blk_blex_clear_maps` one after the other: in any
  order, on any CPUs and eNQs, and with clears of entries that are not there.

  The purpose of the maps is to count references of a CPU to a queue, so the abstract
  state is the multiset of these (`held`).  `run_inv` follows it along a run that
  starts with the initial regulator, and `Represents` says what the CPU masks, the
  counts and `nr_in_use` then have in common.

    * `regulatorInit_fresh` — the initial regulator, for any counts of queues;
    * `run_inv`             — a run follows the multiset;
    * `usageMaps_bounded`   — the words of the source are wide enough;
    * `usageMaps_represent` — the invariant, and that a clear undoes a set.
-/
import Daredevil.Lib.Lts
import Daredevil.Lib.Returns
import Daredevil.Sched.UsageMap
import Mathlib.Order.Interval.Finset.Nat

namespace Daredevil

namespace Sched.UsageInv

/-! ## Calls -/

/-- A pointer to an eNQ of the device. -/
abbrev EnqPtr (info : BlkBlexDevInfo) := { nqid : Nat // 1 ≤ nqid ∧ nqid ≤ info.maxNqid }

inductive Call (info : BlkBlexDevInfo) where
  | setMaps (cpu : Nat) (enq : EnqPtr info)
  | clearMaps (cpu : Nat) (enq : EnqPtr info)

variable {info : BlkBlexDevInfo}

def step (reg : NqRegulator) : Call info → Option NqRegulator
  | .setMaps cpu enq => blkBlexSetMaps reg cpu enq
  | .clearMaps cpu enq => blkBlexClearMaps reg cpu enq

/-- The references of CPUs to queues after a call. -/
def held (refs : Multiset (Nat × Nat)) : Call info → Multiset (Nat × Nat)
  | .setMaps cpu enq => (cpu, enq.val) ::ₘ refs
  | .clearMaps cpu enq => refs.erase (cpu, enq.val)

/-- The CPU masks, the maps of the CPUs and their numbers of entries say the same. -/
structure Represents (reg : NqRegulator) : Prop where
  mask : ∀ cpu nqid,
    cpu ∈ (reg.enqs nqid).ensq.claimedCoreCpumask ↔
      ((reg.nsqMaps cpu).xaNsqMap nqid).isSome = true
  stored_pos : ∀ cpu nqid v, (reg.nsqMaps cpu).xaNsqMap nqid = some v → 1 ≤ v
  nrInUse_eq : ∀ cpu, ∃ entries : Finset Nat,
    (∀ nqid, nqid ∈ entries ↔ ((reg.nsqMaps cpu).xaNsqMap nqid).isSome = true) ∧
      (reg.nsqMaps cpu).nrInUse = entries.card
  nrInUse_nonneg : ∀ cpu, 0 ≤ (reg.nsqMaps cpu).nrInUse

/-! ## The initial regulator -/

/-- The eNQs `1 .. n` have their ids, and no CPU claims a queue. -/
structure Fresh (info : BlkBlexDevInfo) (n : Nat) (reg : NqRegulator) : Prop where
  info_eq : reg.blexInfo = info
  nqid_eq : ∀ nqid, 1 ≤ nqid → nqid ≤ n → (reg.enqs nqid).nqid = nqid
  maps : MapsEmpty reg

variable {env : Env} {n : Nat} {reg reg' : NqRegulator}

theorem MapsEmpty.setEnq (h : MapsEmpty reg) {nqid : Nat} {enq : ExposedNq}
    (h_enq : enq.ensq.claimedCoreCpumask = ∅) : MapsEmpty (reg.setEnq nqid enq) where
  maps := h.maps
  mask := NqRegulator.setEnq_forall (P := fun _ enq => enq.ensq.claimedCoreCpumask = ∅) h_enq
    fun n _ => h.mask n

theorem Fresh.enqInit (h : Fresh info n reg)
    (h_init : blkBlexEnqInit env reg (n + 1) = some reg') : Fresh info (n + 1) reg' := by
  obtain ⟨cqInfo, group, encq, -, -, -, rfl⟩ := enqInit_cases h_init
  refine ⟨h.info_eq, ?_, MapsEmpty.setEnq h.maps rfl⟩
  intro nqid h_pos h_le
  by_cases h_eq : nqid = n + 1
  · rw [h_eq, NqRegulator.enqs_setEnq_self]
  · rw [NqRegulator.enqs_setEnq_ne _ _ h_eq]
    exact h.nqid_eq nqid h_pos (by omega)

theorem fresh_initInv (env : Env) (info : BlkBlexDevInfo) : InitInv env (Fresh info) where
  attach reg _ nqid h :=
    ⟨h.info_eq, fun _ h_pos h_le => by omega, MapsEmpty.setEnq h.maps (h.maps.mask nqid)⟩
  setGroup _ _ _ h := ⟨h.info_eq, h.nqid_eq, h.maps.maps, h.maps.mask⟩
  enqInit _ _ _ h h_init := h.enqInit h_init

theorem regulatorInit_fresh {qDepth : Nat → Nat}
    (h_init : regulatorInit env info qDepth = some reg) : Fresh info info.maxNqid reg := by
  obtain ⟨reg₀, h_alloc, rfl⟩ := Option.map_eq_some_iff.mp h_init
  have h_zero : Fresh info 0 (regulatorZero info) :=
    ⟨rfl, fun _ h_pos h_le => by omega, rfl, fun _ => rfl⟩
  have h := (fresh_initInv env info).allocAndInit h_zero h_alloc
  exact ⟨h.info_eq, h.nqid_eq, h.maps.maps, h.maps.mask⟩

/-! ## One call -/

/-- The regulator holds the references `refs`, and `nr_in_use` counts the entries. -/
structure Inv (info : BlkBlexDevInfo) (refs : Multiset (Nat × Nat)) (reg : NqRegulator) :
    Prop where
  info_eq : reg.blexInfo = info
  nqid_eq : ∀ enq : EnqPtr info, (reg.enqs enq).nqid = enq
  maps : MapsInv reg refs
  range : ∀ p ∈ refs, 1 ≤ p.2 ∧ p.2 ≤ info.maxNqid
  inUse : ∀ cpu, (reg.nsqMaps cpu).InUse

variable {refs : Multiset (Nat × Nat)}

theorem Fresh.inv (h : Fresh info info.maxNqid reg) : Inv info 0 reg where
  info_eq := h.info_eq
  nqid_eq enq := h.nqid_eq enq enq.2.1 enq.2.2
  maps := h.maps.mapsInv
  range p h_p := absurd h_p (Multiset.notMem_zero p)
  inUse cpu := by
    rw [h.maps.maps]
    exact NsqMap.inUse_empty

theorem Inv.enq?_eq (h : Inv info refs reg) (enq : EnqPtr info) :
    reg.enq? enq = some (reg.enqs enq) := by
  rw [NqRegulator.enq?, h.info_eq, if_pos enq.2]

/-- A mask and a map change; the ids stay. -/
theorem nqid_setCpumask (reg : NqRegulator) (enq : Nat) (mask : Finset Nat) (n : Nat) :
    ((reg.setCpumask enq mask).enqs n).nqid = (reg.enqs n).nqid := by
  by_cases h_eq : n = enq
  · rw [h_eq, NqRegulator.setCpumask, NqRegulator.enqs_setEnq_self]
  · rw [NqRegulator.setCpumask, NqRegulator.enqs_setEnq_ne _ _ h_eq]

theorem Inv.setMaps (h : Inv info refs reg) (cpu : Nat) (enq : EnqPtr info) :
    blkBlexSetMaps reg cpu enq = some (reg.claim cpu enq enq) ∧
      Inv info ((cpu, enq.val) ::ₘ refs) (reg.claim cpu enq enq) := by
  constructor
  · rw [setMaps_eq, h.enq?_eq, Option.map_some, h.nqid_eq]
  · refine ⟨h.info_eq, fun p => (nqid_setCpumask reg enq _ p).trans (h.nqid_eq p),
      h.maps.claim cpu enq, Multiset.forall_mem_cons.mpr ⟨enq.2, h.range⟩, ?_⟩
    rw [nsqMaps_claim]
    exact (Function.forall_update_iff _ fun _ nmap => NsqMap.InUse nmap).mpr
      ⟨(h.inUse cpu).take enq, fun c _ => h.inUse c⟩

theorem Inv.clearMaps (h : Inv info refs reg) (cpu : Nat) (enq : EnqPtr info) :
    blkBlexClearMaps reg cpu enq = some (reg.release cpu enq enq) ∧
      Inv info (refs.erase (cpu, enq.val)) (reg.release cpu enq enq) := by
  constructor
  · rw [clearMaps_eq, h.enq?_eq, Option.map_some, h.nqid_eq]
  · refine ⟨h.info_eq, fun p => (nqid_setCpumask reg enq _ p).trans (h.nqid_eq p),
      h.maps.release cpu enq, fun p h_p => h.range p (Multiset.mem_of_mem_erase h_p), ?_⟩
    rw [nsqMaps_release]
    exact (Function.forall_update_iff _ fun _ nmap => NsqMap.InUse nmap).mpr
      ⟨(h.inUse cpu).drop enq, fun c _ => h.inUse c⟩

theorem Inv.step (h : Inv info refs reg) (call : Call info) :
    Returns (step reg call) (Inv info (held refs call)) := by
  cases call with
  | setMaps cpu enq => exact ⟨_, h.setMaps cpu enq⟩
  | clearMaps cpu enq => exact ⟨_, h.clearMaps cpu enq⟩

/-! ## Runs -/

theorem run_inv (h : Inv info refs reg) (calls : List (Call info)) :
    Returns (Lts.run step reg calls) (Inv info (calls.foldl held refs)) := by
  induction calls generalizing reg refs with
  | nil => exact .some h
  | cons call calls ih =>
      rw [Lts.run_cons, List.foldl_cons]
      exact (h.step call).bind fun _ h_next => ih h_next

theorem Inv.represents (h : Inv info refs reg) : Represents reg where
  mask cpu nqid := by
    show cpu ∈ reg.cpumask nqid ↔ (reg.usage (cpu, nqid)).isSome = true
    rw [h.maps.mask, Option.isSome_iff_ne_none, Ne, h.maps.counts.eq_none_iff, not_not]
  stored_pos cpu nqid v h_v := by
    have h_ne := h.maps.counts.ne_zero (cpu, nqid)
    rw [NqRegulator.usage, h_v] at h_ne
    exact Nat.one_le_iff_ne_zero.mpr fun h_zero => h_ne (congrArg some h_zero)
  nrInUse_eq := h.inUse
  nrInUse_nonneg cpu := by
    obtain ⟨entries, -, h_card⟩ := h.inUse cpu
    omega

theorem card_held_le (calls : List (Call info)) (refs : Multiset (Nat × Nat)) :
    (calls.foldl held refs).card ≤ refs.card + calls.length := by
  induction calls generalizing refs with
  | nil => exact Nat.le_refl _
  | cons call calls ih =>
      have h_one : (held refs call).card ≤ refs.card + 1 := by
        cases call with
        | setMaps cpu enq => exact Nat.le_of_eq (Multiset.card_cons _ _)
        | clearMaps cpu enq => exact Nat.le_succ_of_le Multiset.card_erase_le
      have h_rest := ih (held refs call)
      rw [List.foldl_cons, List.length_cons]
      omega

theorem Inv.nrInUse_le (h : Inv info refs reg) (cpu : Nat) :
    (reg.nsqMaps cpu).nrInUse ≤ info.maxNqid := by
  obtain ⟨entries, h_keys, h_card⟩ := h.inUse cpu
  have h_sub : entries ⊆ Finset.Icc 1 info.maxNqid := by
    intro nqid h_mem
    have h_some : (reg.usage (cpu, nqid)).isSome = true := (h_keys nqid).mp h_mem
    rw [Option.isSome_iff_ne_none, Ne, h.maps.counts.eq_none_iff, not_not] at h_some
    exact Finset.mem_Icc.mpr (h.range _ h_some)
  have h_le := Finset.card_le_card h_sub
  rw [Nat.card_Icc, Nat.add_sub_cancel] at h_le
  omega

/-- The numbers stay small: `nr_in_use` is at most the number of queues, and a count at most the
number of calls so far. -/
theorem usageMaps_bounded {qDepth : Nat → Nat} {reg₀ : NqRegulator}
    (h_init : regulatorInit env info qDepth = some reg₀) (calls : List (Call info)) :
    Returns (Lts.run step reg₀ calls) fun reg =>
      ∀ cpu, (reg.nsqMaps cpu).nrInUse ≤ info.maxNqid ∧
        ∀ nqid, RefCount.stored (reg.nsqMaps cpu).xaNsqMap nqid ≤ calls.length := by
  refine (run_inv (regulatorInit_fresh h_init).inv calls).mono fun reg h cpu => ?_
  refine ⟨h.nrInUse_le cpu, fun nqid => ?_⟩
  have h_card := card_held_le calls 0
  rw [Multiset.card_zero, Nat.zero_add] at h_card
  calc RefCount.stored reg.usage (cpu, nqid)
      = (calls.foldl held 0).count (cpu, nqid) := h.maps.counts.stored_eq _
    _ ≤ (calls.foldl held 0).card := Multiset.count_le_card _ _
    _ ≤ calls.length := h_card

/-- From the initial regulator no call faults, the representations agree after every run, and a
clear right after a set of the same pair restores the state. -/
theorem usageMaps_represent {qDepth : Nat → Nat} {reg₀ : NqRegulator}
    (h_init : regulatorInit env info qDepth = some reg₀) (calls : List (Call info)) :
    Returns (Lts.run step reg₀ calls) fun reg =>
      Represents reg ∧ ∀ cpu (enq : EnqPtr info),
        (blkBlexSetMaps reg cpu enq).bind (fun reg' => blkBlexClearMaps reg' cpu enq) =
          some reg := by
  refine (run_inv (regulatorInit_fresh h_init).inv calls).mono fun reg h => ⟨h.represents, ?_⟩
  intro cpu enq
  obtain ⟨h_set, h_claimed⟩ := h.setMaps cpu enq
  rw [h_set, Option.bind_some, (h_claimed.clearMaps cpu enq).1, h.maps.release_claim]

/-- A clear of an absent entry, a count above one, and two CPUs on one queue. -/
def fourCalls : List (Call ⟨4, 4⟩) :=
  [.clearMaps 1 ⟨2, by decide⟩, .setMaps 1 ⟨2, by decide⟩, .setMaps 1 ⟨2, by decide⟩,
    .setMaps 0 ⟨2, by decide⟩, .clearMaps 1 ⟨2, by decide⟩, .setMaps 1 ⟨4, by decide⟩]

theorem usageMaps_represent_four :
    ∃ reg₀, regulatorInit (.default 4) ⟨4, 4⟩ (fun _ => 64) = some reg₀ ∧
      Returns (Lts.run step reg₀ fourCalls) fun reg =>
        Represents reg ∧ ∀ cpu (enq : EnqPtr ⟨4, 4⟩),
          (blkBlexSetMaps reg cpu enq).bind (fun reg' => blkBlexClearMaps reg' cpu enq) =
            some reg := by
  have h_some : (regulatorInit (.default 4) ⟨4, 4⟩ fun _ => 64).isSome = true := by decide
  obtain ⟨reg₀, h_init⟩ := Option.isSome_iff_exists.mp h_some
  exact ⟨reg₀, h_init, usageMaps_represent h_init fourCalls⟩

end Sched.UsageInv

end Daredevil
