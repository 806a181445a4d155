/-
  Daredevil.Sched.UsageMap

  Which CPUs use which queues: the per-CPU `nsq_maps`, which count the tasks of a
  CPU on each NSQ, and the CPU mask of each eNSQ.  `blk_blex_set_maps` adds a task
  to both and `blk_blex_clear_maps` removes one.

  The counts are reference counts (`Lib.RefCount`) of pairs (CPU, queue).
  `setMaps_eq` and `clearMaps_eq` give each call as one update of the regulator,
  `claim` and `release`.  `MapsInv reg refs` says that the regulator holds the
  references `refs`: the maps count them and the masks show which pairs occur.
-/
import Daredevil.Lib.RefCount
import Daredevil.Sched.Init

namespace Daredevil

namespace Sched

/-! ## The source functions -/

/-- Store the map of a CPU. -/
def NqRegulator.setNsqMap (reg : NqRegulator) (cpu : Nat) (nmap : NsqMap) : NqRegulator :=
  { reg with nsqMaps := Function.update reg.nsqMaps cpu nmap }

/-- Store the CPU mask of an eNQ. -/
def NqRegulator.setCpumask (reg : NqRegulator) (nqid : Nat) (mask : Finset Nat) : NqRegulator :=
  reg.setEnq nqid
    { reg.enqs nqid with ensq := { (reg.enqs nqid).ensq with claimedCoreCpumask := mask } }

/-- `blk_blex_clear_maps` on the eNQ that `enq` points to -/
def blkBlexClearMaps (reg : NqRegulator) (cpu enq : Nat) : Option NqRegulator := do
  let e ← reg.enq? enq
  let nmap := reg.nsqMaps cpu
  let mask := e.ensq.claimedCoreCpumask.erase cpu
  match nmap.xaNsqMap e.nqid with
  -- nothing was stored: only the mask is cleared
  | none => some (reg.setCpumask enq mask)
  | some v =>
      -- with other tasks of the CPU still on the queue, the mask keeps its bit
      if 1 < v then
        some (reg.setNsqMap cpu
          { nmap with xaNsqMap := Function.update nmap.xaNsqMap e.nqid (some (v - 1)) })
      else
        some ((reg.setCpumask enq mask).setNsqMap cpu
          { nrInUse := nmap.nrInUse - 1
            xaNsqMap := Function.update nmap.xaNsqMap e.nqid none })

/-- `blk_blex_set_maps` on the eNQ that `enq` points to -/
def blkBlexSetMaps (reg : NqRegulator) (cpu enq : Nat) : Option NqRegulator := do
  let e ← reg.enq? enq
  let nmap := reg.nsqMaps cpu
  let reg := reg.setCpumask enq (insert cpu e.ensq.claimedCoreCpumask)
  match nmap.xaNsqMap e.nqid with
  -- the CPU uses the queue for the first time
  | none =>
      some (reg.setNsqMap cpu
        { nrInUse := nmap.nrInUse + 1
          xaNsqMap := Function.update nmap.xaNsqMap e.nqid (some 1) })
  | some v =>
      some (reg.setNsqMap cpu
        { nmap with xaNsqMap := Function.update nmap.xaNsqMap e.nqid (some (v + 1)) })

/-! ## The maps as one table -/

/-- The counts of all CPUs, by CPU and queue. -/
def NqRegulator.usage (reg : NqRegulator) : Nat × Nat → Option Nat :=
  fun p => (reg.nsqMaps p.1).xaNsqMap p.2

/-- The CPU mask of a queue. -/
def NqRegulator.cpumask (reg : NqRegulator) (nqid : Nat) : Finset Nat :=
  (reg.enqs nqid).ensq.claimedCoreCpumask

theorem cpumask_setCpumask (reg : NqRegulator) (nqid : Nat) (mask : Finset Nat) :
    (reg.setCpumask nqid mask).cpumask = Function.update reg.cpumask nqid mask := by
  funext n
  by_cases h_eq : n = nqid
  · subst h_eq
    simp only [NqRegulator.cpumask, NqRegulator.setCpumask, NqRegulator.setEnq,
      Function.update_self]
  · simp only [NqRegulator.cpumask, NqRegulator.setCpumask, NqRegulator.setEnq,
      Function.update_of_ne h_eq]

theorem usage_setNsqMap (reg : NqRegulator) (cpu nqid : Nat) (nrInUse : Int) (v : Option Nat) :
    (reg.setNsqMap cpu
      ⟨nrInUse, Function.update (reg.nsqMaps cpu).xaNsqMap nqid v⟩).usage =
      Function.update reg.usage (cpu, nqid) v := by
  funext ⟨c, n⟩
  by_cases h_cpu : c = cpu
  · subst h_cpu
    by_cases h_nqid : n = nqid
    · subst h_nqid
      simp only [NqRegulator.usage, NqRegulator.setNsqMap, Function.update_self]
    · have h_ne : (c, n) ≠ (c, nqid) := fun h => h_nqid (congrArg Prod.snd h)
      simp only [NqRegulator.usage, NqRegulator.setNsqMap, Function.update_self,
        Function.update_of_ne h_nqid, Function.update_of_ne h_ne]
  · have h_ne : (c, n) ≠ (cpu, nqid) := fun h => h_cpu (congrArg Prod.fst h)
    simp only [NqRegulator.usage, NqRegulator.setNsqMap, Function.update_of_ne h_cpu,
      Function.update_of_ne h_ne]

theorem setNsqMap_self (reg : NqRegulator) (cpu : Nat) :
    reg.setNsqMap cpu (reg.nsqMaps cpu) = reg := by
  rw [NqRegulator.setNsqMap, Function.update_eq_self]

theorem setCpumask_self (reg : NqRegulator) (nqid : Nat) :
    reg.setCpumask nqid (reg.cpumask nqid) = reg := by
  rw [NqRegulator.setCpumask, NqRegulator.cpumask, NqRegulator.setEnq, Function.update_eq_self]

theorem setNsqMap_setNsqMap (reg : NqRegulator) (cpu : Nat) (nmap nmap' : NsqMap) :
    (reg.setNsqMap cpu nmap).setNsqMap cpu nmap' = reg.setNsqMap cpu nmap' := by
  simp only [NqRegulator.setNsqMap, Function.update_idem]

theorem setCpumask_setCpumask (reg : NqRegulator) (nqid : Nat) (mask mask' : Finset Nat) :
    (reg.setCpumask nqid mask).setCpumask nqid mask' = reg.setCpumask nqid mask' := by
  simp only [NqRegulator.setCpumask, NqRegulator.setEnq, Function.update_self,
    Function.update_idem]

/-! ## One task more, one task less -/

/-- A map with one more task on a queue. -/
def NsqMap.take (nmap : NsqMap) (nqid : Nat) : NsqMap where
  nrInUse := if (nmap.xaNsqMap nqid).isSome then nmap.nrInUse else nmap.nrInUse + 1
  xaNsqMap := RefCount.incr nmap.xaNsqMap nqid

/-- A map with one task less on a queue. -/
def NsqMap.drop (nmap : NsqMap) (nqid : Nat) : NsqMap where
  nrInUse :=
    if (nmap.xaNsqMap nqid).isSome ∧ ¬ 1 < RefCount.stored nmap.xaNsqMap nqid then
      nmap.nrInUse - 1
    else nmap.nrInUse
  xaNsqMap := RefCount.decr nmap.xaNsqMap nqid

section NsqMap

variable {nmap : NsqMap} {nqid v : Nat}

theorem NsqMap.take_none (h : nmap.xaNsqMap nqid = none) :
    nmap.take nqid =
      { nrInUse := nmap.nrInUse + 1
        xaNsqMap := Function.update nmap.xaNsqMap nqid (some 1) } := by
  simp only [NsqMap.take, RefCount.incr, h, Option.isSome_none, Bool.false_eq_true, if_false]

theorem NsqMap.take_some (h : nmap.xaNsqMap nqid = some v) :
    nmap.take nqid =
      { nmap with xaNsqMap := Function.update nmap.xaNsqMap nqid (some (v + 1)) } := by
  simp only [NsqMap.take, RefCount.incr, h, Option.isSome_some, if_true]

theorem NsqMap.drop_none (h : nmap.xaNsqMap nqid = none) : nmap.drop nqid = nmap := by
  simp only [NsqMap.drop, RefCount.decr, h, Option.isSome_none, Bool.false_eq_true, false_and,
    if_false]

theorem NsqMap.drop_some (h : nmap.xaNsqMap nqid = some v) :
    nmap.drop nqid =
      if 1 < v then
        { nmap with xaNsqMap := Function.update nmap.xaNsqMap nqid (some (v - 1)) }
      else
        { nrInUse := nmap.nrInUse - 1, xaNsqMap := Function.update nmap.xaNsqMap nqid none } := by
  simp only [NsqMap.drop, RefCount.decr, RefCount.stored, h, Option.isSome_some,
    Option.getD_some, true_and]
  by_cases h_many : 1 < v
  · simp only [if_pos h_many, if_neg (not_not.mpr h_many)]
  · simp only [if_neg h_many, if_pos h_many]

/-- A drop undoes a take, unless it finds an entry that stores nothing. -/
theorem NsqMap.drop_take (h : nmap.xaNsqMap nqid ≠ some 0) : (nmap.take nqid).drop nqid = nmap := by
  have h_map : RefCount.decr (nmap.take nqid).xaNsqMap nqid = nmap.xaNsqMap :=
    RefCount.decr_incr h
  have h_nr : ((nmap.take nqid).drop nqid).nrInUse = nmap.nrInUse := by
    rcases Option.eq_none_or_eq_some (nmap.xaNsqMap nqid) with h_none | ⟨v, h_some⟩
    · rw [take_none h_none, drop_some (Function.update_self _ _ _), if_neg (Nat.lt_irrefl 1)]
      exact Int.add_sub_cancel _ 1
    · have h_pos : v ≠ 0 := fun h_zero => h (by rw [h_some, h_zero])
      have h_many : 1 < v + 1 := by omega
      rw [take_some h_some, drop_some (Function.update_self _ _ _), if_pos h_many]
  show NsqMap.mk ((nmap.take nqid).drop nqid).nrInUse (RefCount.decr _ nqid) = nmap
  rw [h_nr, h_map]

/-- `nr_in_use` is the number of entries. -/
def NsqMap.InUse (nmap : NsqMap) : Prop :=
  ∃ entries : Finset Nat, RefCount.Keys nmap.xaNsqMap entries ∧ nmap.nrInUse = entries.card

theorem NsqMap.inUse_empty : NsqMap.InUse ⟨0, fun _ => none⟩ := ⟨∅, RefCount.keys_empty, rfl⟩

theorem NsqMap.InUse.take (h : nmap.InUse) (nqid : Nat) : (nmap.take nqid).InUse := by
  obtain ⟨entries, h_keys, h_card⟩ := h
  refine ⟨insert nqid entries, h_keys.incr nqid, ?_⟩
  dsimp only [NsqMap.take]
  split
  case isTrue h_some =>
    rw [Finset.insert_eq_of_mem ((h_keys nqid).mpr h_some), h_card]
  case isFalse h_none =>
    rw [Finset.card_insert_of_notMem (fun h_mem => h_none ((h_keys nqid).mp h_mem)), h_card]
    omega

theorem NsqMap.InUse.drop (h : nmap.InUse) (nqid : Nat) : (nmap.drop nqid).InUse := by
  obtain ⟨entries, h_keys, h_card⟩ := h
  refine ⟨_, h_keys.decr nqid, ?_⟩
  dsimp only [NsqMap.drop]
  by_cases h_many : 1 < RefCount.stored nmap.xaNsqMap nqid
  · rw [if_neg (fun h_and => h_and.2 h_many), if_pos h_many, h_card]
  · rw [if_neg h_many]
    by_cases h_some : (nmap.xaNsqMap nqid).isSome = true
    · -- the entry that goes has been counted
      have h_erase := Finset.card_erase_add_one ((h_keys nqid).mpr h_some)
      rw [if_pos ⟨h_some, h_many⟩]
      omega
    · have h_notMem : nqid ∉ entries := fun h_mem => h_some ((h_keys nqid).mp h_mem)
      rw [if_neg (fun h_and => h_some h_and.1), Finset.erase_eq_of_notMem h_notMem, h_card]

end NsqMap

/-- A regulator in which one more task of `cpu` uses the eNQ `enq`, counted under `nqid`. -/
def NqRegulator.claim (reg : NqRegulator) (cpu enq nqid : Nat) : NqRegulator :=
  (reg.setCpumask enq (insert cpu (reg.cpumask enq))).setNsqMap cpu ((reg.nsqMaps cpu).take nqid)

/-- A regulator in which one task of `cpu` less uses the eNQ; the bit goes with the last one. -/
def NqRegulator.release (reg : NqRegulator) (cpu enq nqid : Nat) : NqRegulator :=
  (reg.setCpumask enq
    (if 1 < RefCount.stored (reg.nsqMaps cpu).xaNsqMap nqid then reg.cpumask enq
    else (reg.cpumask enq).erase cpu)).setNsqMap cpu ((reg.nsqMaps cpu).drop nqid)

theorem mask_of_enq? {reg : NqRegulator} {enq : Nat} {e : ExposedNq} (h : reg.enq? enq = some e) :
    e.ensq.claimedCoreCpumask = reg.cpumask enq := by
  rw [enq?_eq_enqs h, NqRegulator.cpumask]

theorem setMaps_eq (reg : NqRegulator) (cpu enq : Nat) :
    blkBlexSetMaps reg cpu enq = (reg.enq? enq).map fun e => reg.claim cpu enq e.nqid := by
  unfold blkBlexSetMaps
  cases h_e : reg.enq? enq with
  | none => rfl
  | some e =>
      simp only [Option.bind_eq_bind, Option.bind_some, Option.map_some, mask_of_enq? h_e,
        NqRegulator.claim]
      rcases Option.eq_none_or_eq_some ((reg.nsqMaps cpu).xaNsqMap e.nqid) with h_v | ⟨v, h_v⟩
      · simp only [h_v, NsqMap.take_none h_v]
      · simp only [h_v, NsqMap.take_some h_v]

theorem clearMaps_eq (reg : NqRegulator) (cpu enq : Nat) :
    blkBlexClearMaps reg cpu enq = (reg.enq? enq).map fun e => reg.release cpu enq e.nqid := by
  unfold blkBlexClearMaps
  cases h_e : reg.enq? enq with
  | none => rfl
  | some e =>
      simp only [Option.bind_eq_bind, Option.bind_some, Option.map_some, mask_of_enq? h_e,
        NqRegulator.release]
      rcases Option.eq_none_or_eq_some ((reg.nsqMaps cpu).xaNsqMap e.nqid) with h_v | ⟨v, h_v⟩
      · simp only [h_v, NsqMap.drop_none h_v, RefCount.stored_of_none h_v,
          if_neg (Nat.not_lt_zero 1)]
        exact congrArg some (setNsqMap_self (reg.setCpumask enq _) cpu).symm
      · simp only [h_v, NsqMap.drop_some h_v, RefCount.stored_of_some h_v]
        by_cases h_many : 1 < v
        · simp only [if_pos h_many, setCpumask_self]
        · simp only [if_neg h_many]

theorem usage_claim (reg : NqRegulator) (cpu enq nqid : Nat) :
    (reg.claim cpu enq nqid).usage = RefCount.incr reg.usage (cpu, nqid) := by
  rw [NqRegulator.claim, NsqMap.take, RefCount.incr_eq_update, RefCount.incr_eq_update]
  exact usage_setNsqMap _ cpu nqid _ _

theorem cpumask_claim (reg : NqRegulator) (cpu enq nqid : Nat) :
    (reg.claim cpu enq nqid).cpumask =
      Function.update reg.cpumask enq (insert cpu (reg.cpumask enq)) := cpumask_setCpumask _ _ _

theorem usage_release (reg : NqRegulator) (cpu enq nqid : Nat) :
    (reg.release cpu enq nqid).usage = RefCount.decr reg.usage (cpu, nqid) := by
  rw [NqRegulator.release, NsqMap.drop, RefCount.decr_eq_update, RefCount.decr_eq_update]
  exact usage_setNsqMap _ cpu nqid _ _

theorem cpumask_release (reg : NqRegulator) (cpu enq nqid : Nat) :
    (reg.release cpu enq nqid).cpumask =
      if 1 < RefCount.stored reg.usage (cpu, nqid) then reg.cpumask
      else Function.update reg.cpumask enq ((reg.cpumask enq).erase cpu) := by
  refine (cpumask_setCpumask _ _ _).trans ?_
  have h_stored : RefCount.stored reg.usage (cpu, nqid) =
      RefCount.stored (reg.nsqMaps cpu).xaNsqMap nqid := rfl
  rw [h_stored]
  split
  · exact Function.update_eq_self _ _
  · rfl

theorem nsqMaps_claim (reg : NqRegulator) (cpu enq nqid : Nat) :
    (reg.claim cpu enq nqid).nsqMaps =
      Function.update reg.nsqMaps cpu ((reg.nsqMaps cpu).take nqid) := rfl

theorem nsqMaps_release (reg : NqRegulator) (cpu enq nqid : Nat) :
    (reg.release cpu enq nqid).nsqMaps =
      Function.update reg.nsqMaps cpu ((reg.nsqMaps cpu).drop nqid) := rfl

/-- A claim changes one mask and one map only. -/
theorem restore_claim (reg : NqRegulator) (cpu enq nqid : Nat) :
    ((reg.claim cpu enq nqid).setCpumask enq (reg.cpumask enq)).setNsqMap cpu (reg.nsqMaps cpu) =
      reg := by
  show (((reg.setCpumask enq _).setCpumask enq _).setNsqMap cpu _).setNsqMap cpu _ = reg
  rw [setCpumask_setCpumask, setCpumask_self, setNsqMap_setNsqMap, setNsqMap_self]

variable {L : QueueLayout} {reg reg' : NqRegulator}

theorem RegWf.setCpumask (h : RegWf L reg) {nqid : Nat} (h_pos : 1 ≤ nqid)
    (h_le : nqid ≤ L.maxNqid) (mask : Finset Nat) : RegWf L (reg.setCpumask nqid mask) :=
  have h_enq := h.enq nqid h_pos h_le
  h.setEnq (h_enq.setEnsq h_enq.sqid_eq)

theorem RegWf.setNsqMap (h : RegWf L reg) (cpu : Nat) (nmap : NsqMap) :
    RegWf L (reg.setNsqMap cpu nmap) := ⟨h.info, h.enq, h.group⟩

/-- A set takes a reference and sets the bit. -/
theorem setMaps_spec (h : RegWf L reg) {cpu nqid : Nat}
    (h_set : blkBlexSetMaps reg cpu nqid = some reg') :
    RegWf L reg' ∧ reg' = reg.claim cpu nqid nqid := by
  rw [setMaps_eq, Option.map_eq_some_iff] at h_set
  obtain ⟨e, h_e, rfl⟩ := h_set
  obtain ⟨h_pos, h_le, -, h_enq⟩ := h.enq?_some h_e
  rw [h_enq.nqid_eq]
  exact ⟨(h.setCpumask h_pos h_le _).setNsqMap _ _, rfl⟩

/-- A clear drops a reference; the bit goes with the last one. -/
theorem clearMaps_spec (h : RegWf L reg) {cpu nqid : Nat}
    (h_clear : blkBlexClearMaps reg cpu nqid = some reg') :
    RegWf L reg' ∧ reg' = reg.release cpu nqid nqid := by
  rw [clearMaps_eq, Option.map_eq_some_iff] at h_clear
  obtain ⟨e, h_e, rfl⟩ := h_clear
  obtain ⟨h_pos, h_le, -, h_enq⟩ := h.enq?_some h_e
  rw [h_enq.nqid_eq]
  exact ⟨(h.setCpumask h_pos h_le _).setNsqMap _ _, rfl⟩

/-! ## The references a regulator holds -/

/-- The maps count the references `refs`, and the masks show which occur. -/
structure MapsInv (reg : NqRegulator) (refs : Multiset (Nat × Nat)) : Prop where
  counts : RefCount.Counts reg.usage refs
  mask : ∀ cpu nqid, cpu ∈ reg.cpumask nqid ↔ (cpu, nqid) ∈ refs

variable {refs : Multiset (Nat × Nat)}

theorem MapsEmpty.mapsInv (h : MapsEmpty reg) : MapsInv reg 0 where
  counts := by
    have h_usage : reg.usage = fun _ => none := by
      funext p
      rw [NqRegulator.usage, h.maps]
    rw [h_usage]
    exact RefCount.counts_empty
  mask cpu nqid := by
    rw [NqRegulator.cpumask, h.mask]
    exact iff_of_false (Finset.notMem_empty cpu) (Multiset.notMem_zero _)

theorem MapsInv.of_sameMaps (h : MapsInv reg refs) (h_same : SameMaps reg reg') :
    MapsInv reg' refs where
  counts := by
    have h_usage : reg'.usage = reg.usage := by
      funext p
      rw [NqRegulator.usage, h_same.nsqMaps, NqRegulator.usage]
    rw [h_usage]
    exact h.counts
  mask cpu nqid := by
    rw [NqRegulator.cpumask, h_same.mask]
    exact h.mask cpu nqid

theorem MapsInv.claim (h : MapsInv reg refs) (cpu nqid : Nat) :
    MapsInv (reg.claim cpu nqid nqid) ((cpu, nqid) ::ₘ refs) where
  counts := usage_claim reg cpu nqid nqid ▸ h.counts.incr (cpu, nqid)
  mask c n := by
    rw [cpumask_claim, Multiset.mem_cons, Prod.mk.injEq, ← h.mask]
    by_cases h_eq : n = nqid
    · subst h_eq
      rw [Function.update_self, Finset.mem_insert, and_iff_left rfl]
    · rw [Function.update_of_ne h_eq, or_iff_right (fun h_and => h_eq h_and.2)]

theorem MapsInv.release (h : MapsInv reg refs) (cpu nqid : Nat) :
    MapsInv (reg.release cpu nqid nqid) (refs.erase (cpu, nqid)) where
  counts := usage_release reg cpu nqid nqid ▸ h.counts.decr (cpu, nqid)
  mask c n := by
    rw [cpumask_release, h.counts.stored_eq]
    by_cases h_eq : (c, n) = (cpu, nqid)
    · -- the bit of the pair itself stays as long as a second reference does
      cases h_eq
      rw [← Multiset.count_pos (s := refs.erase _), Multiset.count_erase_self]
      split
      case isTrue h_many =>
        rw [h.mask, ← Multiset.count_pos]
        omega
      case isFalse h_last =>
        rw [Function.update_self]
        exact iff_of_false (Finset.notMem_erase cpu _) (by omega)
    · rw [Multiset.mem_erase_of_ne h_eq, ← h.mask]
      split
      case isTrue => rfl
      case isFalse =>
        by_cases h_nqid : n = nqid
        · subst h_nqid
          rw [Function.update_self, Finset.mem_erase]
          exact and_iff_right fun h_cpu => h_eq (by rw [h_cpu])
        · rw [Function.update_of_ne h_nqid]

/-- A release undoes a claim. -/
theorem MapsInv.release_claim (h : MapsInv reg refs) (cpu nqid : Nat) :
    (reg.claim cpu nqid nqid).release cpu nqid nqid = reg := by
  have h_map : (reg.claim cpu nqid nqid).nsqMaps cpu = (reg.nsqMaps cpu).take nqid :=
    Function.update_self cpu _ _
  have h_stored : RefCount.stored ((reg.nsqMaps cpu).take nqid).xaNsqMap nqid =
      refs.count (cpu, nqid) + 1 := by
    rw [← h.counts.stored_eq]
    exact RefCount.stored_incr_same _ nqid
  have h_mask : (if 1 < refs.count (cpu, nqid) + 1 then
      (reg.claim cpu nqid nqid).cpumask nqid
      else ((reg.claim cpu nqid nqid).cpumask nqid).erase cpu) = reg.cpumask nqid := by
    rw [cpumask_claim, Function.update_self]
    by_cases h_mem : cpu ∈ reg.cpumask nqid
    · have h_pos := Multiset.count_pos.mpr ((h.mask cpu nqid).mp h_mem)
      rw [if_pos (by omega), Finset.insert_eq_of_mem h_mem]
    · have h_zero := Multiset.count_eq_zero.mpr (fun h_refs => h_mem ((h.mask cpu nqid).mpr h_refs))
      rw [if_neg (by omega), Finset.erase_insert h_mem]
  rw [NqRegulator.release, h_map, h_stored, h_mask,
    NsqMap.drop_take (h.counts.ne_zero (cpu, nqid)), restore_claim]

theorem MapsInv.setMaps (h : MapsInv reg refs) (h_wf : RegWf L reg) {cpu nqid : Nat}
    (h_set : blkBlexSetMaps reg cpu nqid = some reg') :
    RegWf L reg' ∧ MapsInv reg' ((cpu, nqid) ::ₘ refs) := by
  obtain ⟨h_wf', rfl⟩ := setMaps_spec h_wf h_set
  exact ⟨h_wf', h.claim cpu nqid⟩

theorem MapsInv.clearMaps (h : MapsInv reg refs) (h_wf : RegWf L reg) {cpu nqid : Nat}
    (h_clear : blkBlexClearMaps reg cpu nqid = some reg') :
    RegWf L reg' ∧ MapsInv reg' (refs.erase (cpu, nqid)) := by
  obtain ⟨h_wf', rfl⟩ := clearMaps_spec h_wf h_clear
  exact ⟨h_wf', h.release cpu nqid⟩

end Sched

end Daredevil
