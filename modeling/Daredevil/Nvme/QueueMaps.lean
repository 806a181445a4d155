/-
  Daredevil.Nvme.QueueMaps

  The CPU maps of the tag set, and the table of hctxs that they index.

  `nvme_calc_irq_sets` divides the interrupt vectors between default and read queues.
  `nvme_pci_map_queues` then gives the default map all `nr_cqs` of them and not only its
  share, so that the read map, and the poll map after it, start behind `nr_cqs`.  The
  table ends at `max_qid`.

    * `mapQueuesLoop_inside_iff` — the maps together reach as far as they have queues;
    * `mapsInside_iff`           — when no CPU is sent past the table.
-/
import Daredevil.Nvme.IrqVectors

namespace Daredevil.Nvme

/-! ## Maps and the hctxs behind them -/

/-- `HCTX_TYPE_READ` -/
def hctxTypeRead : Nat := 1

/-- `nvme_calc_irq_sets`: the default and the read queues for `nrirqs` vectors. -/
def nvmeCalcIrqSets (nrWriteQueues nrirqs : Nat) : Nat × Nat :=
  let nrReadQueues :=
    if nrirqs = 0 then 0
    else if nrirqs = 1 ∨ nrWriteQueues = 0 then 0
    else if nrirqs ≤ nrWriteQueues then 1
    else nrirqs - nrWriteQueues
  ((if nrirqs = 0 then 1 else nrirqs) - nrReadQueues, nrReadQueues)

/-- `io_queues` when the tag set is built.  The first vector is the admin queue's;
`nvme_setup_io_queues` has overwritten the share of the default type. -/
def NvmeDev.ioQueues (dev : NvmeDev) : Nat → Nat := fun type =>
  if type = hctxTypeDefault then dev.onlineQueues - 1
  else if type = hctxTypeRead then (nvmeCalcIrqSets dev.nrWriteQueues (dev.numVecs - 1)).2
  else if type = hctxTypePoll then dev.ioQueuesPoll
  else 0

/-- `nr_maps` of `nvme_pci_alloc_tag_set` -/
def tagSetNrMaps (dev : NvmeDev) : Nat :=
  if dev.ioQueues hctxTypePoll ≠ 0 then 3 else if dev.ioQueues hctxTypeRead ≠ 0 then 2 else 1

/-- The maps of the tag set; `none` for `BUG_ON`. -/
def tagSetMaps (dev : NvmeDev) : Option (List QueueMap) :=
  nvmePciMapQueues dev dev.ioQueues (tagSetNrMaps dev)

/-- The entry of `mq_map` for a CPU that is given the queue `assign cpu` of the map.  A map
without queues keeps the zeros of `blk_mq_clear_mq_map`. -/
def QueueMap.mqMap (map : QueueMap) (assign : Nat → Nat) (cpu : Nat) : Nat :=
  match map.queueOffset with
  | none => 0
  | some queueOffset => queueOffset + assign cpu

/-- `blk_mq_map_queue_type` over a table of `nrHwQueues` hctxs; `none` for NULL. -/
def blkMqMapQueueType (nrHwQueues : Nat) (map : QueueMap) (assign : Nat → Nat) (cpu : Nat) :
    Option Nat :=
  if map.mqMap assign cpu < nrHwQueues then some (map.mqMap assign cpu) else none

/-- `blk_mq_pci_map_queues` and `blk_mq_map_queues` give each CPU a queue of the map. -/
def Assigned (maps : List QueueMap) (assign : Nat → Nat → Nat) : Prop :=
  ∀ type map, maps[type]? = some map → map.nrQueues ≠ 0 →
    ∀ cpu, assign type cpu < map.nrQueues

/-- Every map of the tag set sends every CPU to an hctx, whichever queues of the map the CPUs
are given. -/
def MapsInside (dev : NvmeDev) (nrCpuIds : Nat) : Prop :=
  ∃ maps, tagSetMaps dev = some maps ∧
    ∀ assign, Assigned maps assign →
      ∀ type map, maps[type]? = some map → ∀ cpu < nrCpuIds,
        map.mqMap (assign type) cpu < dev.maxQid ∧
          blkMqMapQueueType dev.maxQid map (assign type) cpu ≠ none

/-! ## How far the maps reach -/

/-- The queues of all maps. -/
def totalQueues (maps : List QueueMap) : Nat := (maps.map QueueMap.nrQueues).sum

variable {dev : NvmeDev} {ioQueues : Nat → Nat} {n i qoff offset : Nat} {maps : List QueueMap}

/-- What one round of `nvme_pci_map_queues` puts before the maps of the later rounds. -/
theorem mapQueuesLoop_succ (h : mapQueuesLoop dev ioQueues (n + 1) i qoff offset = some maps) :
    ∃ rest nrQueues irqOffset,
      nrQueues = (if i = hctxTypeDefault then dev.nrCqs else ioQueues i) ∧
      ((nrQueues = 0 ∧ maps = ⟨0, none, none⟩ :: rest ∧
          mapQueuesLoop dev ioQueues n (i + 1) qoff offset = some rest) ∨
        (nrQueues ≠ 0 ∧ maps = ⟨nrQueues, some qoff, irqOffset⟩ :: rest ∧
          mapQueuesLoop dev ioQueues n (i + 1) (qoff + nrQueues) (offset + nrQueues) =
            some rest)) := by
  rw [mapQueuesLoop] at h
  generalize h_nr : (if i = hctxTypeDefault then dev.nrCqs else ioQueues i) = nrQueues at h
  dsimp only at h
  by_cases h_zero : nrQueues = 0
  · rw [if_pos h_zero] at h
    split at h
    · cases h
    obtain ⟨rest, h_rest, rfl⟩ := Option.map_eq_some_iff.mp h
    exact ⟨rest, nrQueues, none, rfl, .inl ⟨h_zero, rfl, h_rest⟩⟩
  · rw [if_neg h_zero] at h
    obtain ⟨rest, h_rest, rfl⟩ := Option.map_eq_some_iff.mp h
    exact ⟨rest, nrQueues, _, rfl, .inr ⟨h_zero, rfl, h_rest⟩⟩

/-- The maps follow one another, so they stay below a bound exactly if all their queues fit. -/
theorem mapQueuesLoop_inside_iff (bound : Nat)
    (h : mapQueuesLoop dev ioQueues n i qoff offset = some maps) :
    (qoff ≤ bound ∧ ∀ map ∈ maps, ∀ off, map.queueOffset = some off → off + map.nrQueues ≤ bound) ↔
      qoff + totalQueues maps ≤ bound := by
  induction n generalizing i qoff offset maps with
  | zero =>
      cases h
      exact ⟨fun h_le => h_le.1, fun h_le => ⟨h_le, fun map h_map => by cases h_map⟩⟩
  | succ n ih =>
      obtain ⟨rest, nrQueues, irqOffset, -, ⟨-, rfl, h_rest⟩ | ⟨-, rfl, h_rest⟩⟩ :=
        mapQueuesLoop_succ h
      · have h_total : totalQueues (⟨0, none, none⟩ :: rest) = totalQueues rest := Nat.zero_add _
        rw [h_total, ← ih h_rest, List.forall_mem_cons]
        constructor
        · rintro ⟨h_le, -, h_all⟩
          exact ⟨h_le, h_all⟩
        · rintro ⟨h_le, h_all⟩
          refine ⟨h_le, ?_, h_all⟩
          intro off h_off
          cases h_off
      · -- the next map starts where this one ends
        have h_total : totalQueues (⟨nrQueues, some qoff, irqOffset⟩ :: rest) =
            nrQueues + totalQueues rest := rfl
        rw [h_total, ← Nat.add_assoc, ← ih h_rest, List.forall_mem_cons]
        constructor
        · rintro ⟨-, h_first, h_all⟩
          exact ⟨h_first qoff rfl, h_all⟩
        · rintro ⟨h_le, h_all⟩
          refine ⟨by omega, ?_, h_all⟩
          intro off h_off
          cases h_off
          exact h_le

/-- Exactly the maps with queues have an offset. -/
theorem mapQueuesLoop_offset (h : mapQueuesLoop dev ioQueues n i qoff offset = some maps) :
    ∀ map ∈ maps, map.queueOffset = none ↔ map.nrQueues = 0 := by
  induction n generalizing i qoff offset maps with
  | zero =>
      cases h
      exact fun map h_map => by cases h_map
  | succ n ih =>
      obtain ⟨rest, nrQueues, irqOffset, -, ⟨-, rfl, h_rest⟩ | ⟨h_pos, rfl, h_rest⟩⟩ :=
        mapQueuesLoop_succ h
      · exact List.forall_mem_cons.mpr ⟨iff_of_true rfl rfl, ih h_rest⟩
      · exact List.forall_mem_cons.mpr ⟨iff_of_false (by simp) h_pos, ih h_rest⟩

theorem mapQueuesLoop_total (h : mapQueuesLoop dev ioQueues n i qoff offset = some maps) :
    totalQueues maps = ((List.range' i n).map fun type =>
      if type = hctxTypeDefault then dev.nrCqs else ioQueues type).sum := by
  induction n generalizing i qoff offset maps with
  | zero =>
      cases h
      rfl
  | succ n ih =>
      rw [List.range'_succ, List.map_cons, List.sum_cons]
      obtain ⟨rest, nrQueues, irqOffset, h_nr, ⟨h_zero, rfl, h_rest⟩ | ⟨-, rfl, h_rest⟩⟩ :=
        mapQueuesLoop_succ h
      · rw [← ih h_rest, ← h_nr, h_zero]
        rfl
      · rw [← ih h_rest, ← h_nr]
        rfl

/-! ## When the maps stay inside the table -/

theorem nvmeCalcIrqSets_read (nrWriteQueues nrirqs : Nat) :
    (nvmeCalcIrqSets nrWriteQueues nrirqs).2 =
      if nrirqs ≤ 1 ∨ nrWriteQueues = 0 then 0 else max 1 (nrirqs - nrWriteQueues) := by
  simp only [nvmeCalcIrqSets]
  split
  case isTrue h_zero => rw [if_pos (.inl (by omega))]
  case isFalse h_pos =>
    split
    case isTrue h_none => rw [if_pos (h_none.imp_left Nat.le_of_eq)]
    case isFalse h_both =>
      have h_shared : ¬ (nrirqs ≤ 1 ∨ nrWriteQueues = 0) := by omega
      rw [if_neg h_shared]
      split <;> omega

/-- The default and the read queues share the vectors. -/
theorem nvmeCalcIrqSets_sum (nrWriteQueues nrirqs : Nat) :
    (nvmeCalcIrqSets nrWriteQueues nrirqs).1 + (nvmeCalcIrqSets nrWriteQueues nrirqs).2 =
      max nrirqs 1 := by
  simp only [nvmeCalcIrqSets]
  split
  case isTrue h_zero => rw [h_zero]; rfl
  case isFalse => split <;> [skip; split] <;> omega

/-- The tag set uses a map for every type that has queues. -/
theorem tagSetMaps_total (h : tagSetMaps dev = some maps) :
    totalQueues maps =
      dev.nrCqs + (nvmeCalcIrqSets dev.nrWriteQueues (dev.numVecs - 1)).2 + dev.ioQueuesPoll := by
  have h_poll : dev.ioQueues hctxTypePoll = dev.ioQueuesPoll := rfl
  have h_read : dev.ioQueues hctxTypeRead =
    (nvmeCalcIrqSets dev.nrWriteQueues (dev.numVecs - 1)).2 := rfl
  -- a type that has no map has no queues
  have h_sum : totalQueues maps =
      dev.nrCqs + dev.ioQueues hctxTypeRead + dev.ioQueues hctxTypePoll := by
    rw [mapQueuesLoop_total h, tagSetNrMaps]
    split
    case isTrue => exact (Nat.add_assoc _ _ _).symm
    case isFalse h_noPoll =>
      rw [not_not.mp h_noPoll, Nat.add_zero]
      split
      case isTrue => rfl
      case isFalse h_noRead =>
        rw [not_not.mp h_noRead]
        rfl
  rw [h_sum, h_poll, h_read]

theorem tagSetMaps_isSome (h_cqs : 1 ≤ dev.nrCqs) : ∃ maps, tagSetMaps dev = some maps := by
  have h_nrMaps : ∃ n, tagSetNrMaps dev = n + 1 := by
    rw [tagSetNrMaps]
    split
    · exact ⟨2, rfl⟩
    split
    · exact ⟨1, rfl⟩
    · exact ⟨0, rfl⟩
  obtain ⟨n, h_n⟩ := h_nrMaps
  obtain ⟨rest, h_rest⟩ := mapQueuesLoop_isSome dev dev.ioQueues n (Nat.succ_ne_zero 0)
    (0 + dev.nrCqs) (queueIrqOffset dev + dev.nrCqs)
  rw [tagSetMaps, nvmePciMapQueues, h_n, mapQueuesLoop]
  simp only [hctxTypeDefault, if_true, if_neg (Nat.ne_of_gt h_cqs), h_rest]
  exact ⟨_, rfl⟩

/-- The assignment that gives every CPU the last queue of each map. -/
theorem assigned_last (maps : List QueueMap) :
    Assigned maps fun type _ => (maps[type]?.map QueueMap.nrQueues).getD 0 - 1 := by
  intro type map h_map h_pos _
  show (maps[type]?.map QueueMap.nrQueues).getD 0 - 1 < map.nrQueues
  rw [h_map]
  exact Nat.sub_one_lt h_pos

/-- No CPU is sent past the table exactly if it has room for the completion queues and, once
more, for those that are read queues. -/
theorem mapsInside_iff (dev : NvmeDev) {nrCpuIds : Nat} (h_cpus : 1 ≤ nrCpuIds)
    (h_cqs : dev.nrCqs = max (dev.numVecs - 1) 1) (h_le : dev.nrCqs ≤ dev.maxQid) :
    MapsInside dev nrCpuIds ↔
      dev.nrCqs +
          (if dev.nrCqs ≤ 1 ∨ dev.nrWriteQueues = 0 then 0
          else max 1 (dev.nrCqs - dev.nrWriteQueues)) +
        dev.ioQueuesPoll ≤ dev.maxQid := by
  have h_read : (nvmeCalcIrqSets dev.nrWriteQueues (dev.numVecs - 1)).2 =
      if dev.nrCqs ≤ 1 ∨ dev.nrWriteQueues = 0 then 0
      else max 1 (dev.nrCqs - dev.nrWriteQueues) := by
    rw [nvmeCalcIrqSets_read]
    split <;> split <;> omega
  have h_pos : 1 ≤ dev.nrCqs := by omega
  obtain ⟨maps, h_maps⟩ := tagSetMaps_isSome h_pos
  rw [← h_read, ← tagSetMaps_total h_maps]
  have h_inside := mapQueuesLoop_inside_iff dev.maxQid h_maps
  have h_offset := mapQueuesLoop_offset h_maps
  rw [Nat.zero_add] at h_inside
  rw [← h_inside]
  constructor
  · rintro ⟨maps', h_maps', h⟩
    obtain rfl : maps = maps' := Option.some.inj (h_maps.symm.trans h_maps')
    refine ⟨Nat.zero_le _, ?_⟩
    intro map h_mem off h_off
    obtain ⟨type, h_type⟩ := List.mem_iff_getElem?.mp h_mem
    have h_pos : map.nrQueues ≠ 0 := fun h_zero => by
      rw [(h_offset map h_mem).mpr h_zero] at h_off
      cases h_off
    -- the CPU with the last queue of the map
    obtain ⟨h_lt, -⟩ := h _ (assigned_last maps) type map h_type 0 h_cpus
    rw [QueueMap.mqMap, h_off, h_type] at h_lt
    have h_lt : off + (map.nrQueues - 1) < dev.maxQid := h_lt
    omega
  · rintro ⟨-, h⟩
    refine ⟨maps, h_maps, ?_⟩
    intro assign h_assign type map h_type cpu _
    have h_mem := List.mem_of_getElem? h_type
    have h_lt : map.mqMap (assign type) cpu < dev.maxQid := by
      rw [QueueMap.mqMap]
      split
      case h_1 => omega
      case h_2 off h_off =>
        have h_pos : map.nrQueues ≠ 0 := fun h_zero => by
          rw [(h_offset map h_mem).mpr h_zero] at h_off
          cases h_off
        have h_queue := h_assign type map h_type h_pos cpu
        have h_end := h map h_mem off h_off
        omega
    refine ⟨h_lt, ?_⟩
    rw [blkMqMapQueueType, if_pos h_lt]
    exact Option.some_ne_none _

/-- Four completion queues, of which `write_queues=1` leaves three to reads. -/
def readWriteDev (maxQid : Nat) : NvmeDev :=
  { NvmeDev.probed (maxQid + 1) with
    onlineQueues := maxQid + 1
    maxQid := maxQid
    nrCqs := 4
    numVecs := 5
    nrWriteQueues := 1 }

/-- Seven queues have room for both maps. -/
theorem readMap_inTable :
    tagSetMaps (readWriteDev 7) = some [⟨4, some 0, some 1⟩, ⟨3, some 4, some 5⟩] ∧
      MapsInside (readWriteDev 7) 4 :=
  ⟨rfl, (mapsInside_iff (readWriteDev 7) (by decide) (by decide) (by decide)).mpr (by decide)⟩

/-- With as many queues as completion queues the read map starts where the table ends. -/
theorem readMap_pastTable :
    tagSetMaps (readWriteDev 4) = some [⟨4, some 0, some 1⟩, ⟨3, some 4, some 5⟩] ∧
      (∀ cpu, blkMqMapQueueType (readWriteDev 4).maxQid ⟨3, some 4, some 5⟩ (· % 3) cpu = none) ∧
      ¬ MapsInside (readWriteDev 4) 4 := by
  have h_maps : tagSetMaps (readWriteDev 4) = some [⟨4, some 0, some 1⟩, ⟨3, some 4, some 5⟩] := rfl
  refine ⟨h_maps, ?_, ?_⟩
  · intro cpu
    exact if_neg (Nat.not_lt.mpr (Nat.le_add_right 4 (cpu % 3)))
  · rintro ⟨maps, h_eq, h⟩
    obtain rfl := Option.some.inj (h_maps.symm.trans h_eq)
    obtain ⟨h_lt, -⟩ := h _ (assigned_last _) 1 _ rfl 0 (by decide)
    exact absurd h_lt (by decide)

end Daredevil.Nvme
