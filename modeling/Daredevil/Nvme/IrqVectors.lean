/-
  Daredevil.Nvme.IrqVectors

  The interrupt vectors of the completion queues.

  Vector 0 is the admin queue's, and `nvme_pci_map_queues` starts the default map behind
  it: the CPUs of queue `k` are those of vector `queue_irq_offset + k`.
  `nvme_blex_create_queue` numbers the vectors by the index of the NCQ alone, which
  starts from 0.  (`nvme_create_queue` takes the queue id, which starts from 1.)

    * `createQueueVector_kthCqid` — the vector that the `k`-th NCQ gets;
    * `ncqVectors_shifted`        — it never is the one that its CPUs come from.
-/
import Daredevil.Nvme.CqFirst

namespace Daredevil.Nvme

/-! ## The CPU maps -/

/-- `HCTX_TYPE_DEFAULT` -/
def hctxTypeDefault : Nat := 0

/-- `HCTX_TYPE_POLL` -/
def hctxTypePoll : Nat := 2

/-- `queue_irq_offset` -/
def queueIrqOffset (dev : NvmeDev) : Nat := if 1 < dev.numVecs then 1 else 0

/-- A map of `nvme_pci_map_queues`. -/
structure QueueMap where
  nrQueues : Nat
  /-- `none` where it is not written -/
  queueOffset : Option Nat
  /-- The offset that `blk_mq_pci_map_queues` is called with: it reads the CPUs of queue `k` from
  vector `offset + k`.  `none` where the vectors are not read. -/
  irqOffset : Option Nat
  deriving DecidableEq, Repr

/-- The loop of `nvme_pci_map_queues` over `n` maps from `i` on; `none` for `BUG_ON`. -/
def mapQueuesLoop (dev : NvmeDev) (ioQueues : Nat → Nat) :
    Nat → Nat → Nat → Nat → Option (List QueueMap)
  | 0, _, _, _ => some []
  | n + 1, i, qoff, offset =>
      let nrQueues := if i = hctxTypeDefault then dev.nrCqs else ioQueues i
      if nrQueues = 0 then
        if i = hctxTypeDefault then none
        else (mapQueuesLoop dev ioQueues n (i + 1) qoff offset).map (⟨0, none, none⟩ :: ·)
      else
        let irqOffset := if i ≠ hctxTypePoll ∧ offset ≠ 0 then some offset else none
        (mapQueuesLoop dev ioQueues n (i + 1) (qoff + nrQueues) (offset + nrQueues)).map
          (⟨nrQueues, some qoff, irqOffset⟩ :: ·)

/-- `nvme_pci_map_queues` -/
def nvmePciMapQueues (dev : NvmeDev) (ioQueues : Nat → Nat) (nrMaps : Nat) :
    Option (List QueueMap) :=
  mapQueuesLoop dev ioQueues nrMaps 0 0 (queueIrqOffset dev)

/-- The vector that the CPUs of the default map's queue `k` come from. -/
def defaultMapVector (dev : NvmeDev) (ioQueues : Nat → Nat) (nrMaps k : Nat) : Option Nat :=
  ((nvmePciMapQueues dev ioQueues nrMaps).bind (·[hctxTypeDefault]?)).bind fun map =>
    map.irqOffset.map (· + k)

/-- Only the default map can be without queues. -/
theorem mapQueuesLoop_isSome (dev : NvmeDev) (ioQueues : Nat → Nat) (n : Nat) {i : Nat}
    (h_i : i ≠ hctxTypeDefault) (qoff offset : Nat) :
    ∃ maps, mapQueuesLoop dev ioQueues n i qoff offset = some maps := by
  induction n generalizing i qoff offset with
  | zero => exact ⟨[], rfl⟩
  | succ n ih =>
      have h_next : i + 1 ≠ hctxTypeDefault := Nat.succ_ne_zero i
      rw [mapQueuesLoop]
      simp only [if_neg h_i]
      split
      case isTrue =>
        obtain ⟨maps, h_maps⟩ := ih h_next qoff offset
        rw [h_maps]
        exact ⟨_, rfl⟩
      case isFalse =>
        obtain ⟨maps, h_maps⟩ := ih h_next (qoff + ioQueues i) (offset + ioQueues i)
        rw [h_maps]
        exact ⟨_, rfl⟩

/-- With a vector for the admin queue the default map starts behind it. -/
theorem defaultMapVector_eq {dev : NvmeDev} (h_cqs : 1 ≤ dev.nrCqs) (h_vecs : 1 < dev.numVecs)
    (ioQueues : Nat → Nat) {nrMaps : Nat} (h_maps : 1 ≤ nrMaps) (k : Nat) :
    defaultMapVector dev ioQueues nrMaps k = some (queueIrqOffset dev + k) := by
  obtain ⟨n, rfl⟩ := Nat.exists_eq_succ_of_ne_zero (Nat.ne_of_gt h_maps)
  have h_offset : queueIrqOffset dev = 1 := if_pos h_vecs
  obtain ⟨maps, h_rest⟩ := mapQueuesLoop_isSome dev ioQueues n (Nat.succ_ne_zero 0)
    (0 + dev.nrCqs) (1 + dev.nrCqs)
  -- the first round is that of the default map
  rw [defaultMapVector, nvmePciMapQueues, mapQueuesLoop, h_offset]
  simp only [hctxTypeDefault, if_true, if_neg (Nat.ne_of_gt h_cqs), h_rest]
  rfl

/-! ## The vectors of the completion queues -/

/-- Each NCQ has the vector of its CPUs, and no two have the same. -/
structure NcqVectorsOwn (dev : NvmeDev) : Prop where
  distinct : ∀ j < dev.nrCqs, ∀ k < dev.nrCqs,
    createQueueVector dev (blkBlexGetKthCqid j dev.maxQid dev.nrCqs) =
      createQueueVector dev (blkBlexGetKthCqid k dev.maxQid dev.nrCqs) → j = k
  range : ∀ k < dev.nrCqs,
    1 ≤ createQueueVector dev (blkBlexGetKthCqid k dev.maxQid dev.nrCqs) ∧
      createQueueVector dev (blkBlexGetKthCqid k dev.maxQid dev.nrCqs) ≤ dev.numVecs - 1
  mapped : ∀ k < dev.nrCqs,
    createQueueVector dev (blkBlexGetKthCqid k dev.maxQid dev.nrCqs) = queueIrqOffset dev + k

/-- The `k`-th NCQ gets vector `k`. -/
theorem createQueueVector_kthCqid {dev : NvmeDev} (h_cqs : 1 ≤ dev.nrCqs)
    (h_le : dev.nrCqs ≤ dev.maxQid) (h_vecs : dev.numVecs ≠ 1) {k : Nat} (h_k : k < dev.nrCqs) :
    createQueueVector dev (blkBlexGetKthCqid k dev.maxQid dev.nrCqs) = u16 k := by
  -- an NCQ is attached to itself, so it has a CQ
  let L : QueueLayout := ⟨dev.info, h_cqs, h_le⟩
  have h_self : blkBlexGetKthCqid k dev.maxQid dev.nrCqs =
      blkBlexGetCqid (blkBlexGetKthCqid k dev.maxQid dev.nrCqs) dev.maxQid dev.nrCqs :=
    (L.getCqid_of_mem_attached h_k (L.kthCqid_mem_attached h_k)).symm
  have h_pos : 1 ≤ blkBlexGetKthCqid k dev.maxQid dev.nrCqs :=
    (L.mem_range_of_attached h_k (L.kthCqid_mem_attached h_k)).1
  have h_cq : blexNvmeqHasCq dev (blkBlexGetKthCqid k dev.maxQid dev.nrCqs) = true := by
    rw [blexNvmeqHasCq_eq h_pos]
    exact beq_iff_eq.mpr h_self
  have h_index : blkBlexCqidToIndex (blkBlexGetKthCqid k dev.maxQid dev.nrCqs) dev.maxQid
      dev.nrCqs = k := L.onePartition.toIndex k h_k
  rw [createQueueVector, if_pos h_cq, if_neg h_vecs, h_index]

/-- The vectors are all one too low, the first being the admin queue's. -/
theorem ncqVectors_shifted {dev : NvmeDev} (h_cqs : 1 ≤ dev.nrCqs) (h_le : dev.nrCqs ≤ dev.maxQid)
    (h_vecs : dev.numVecs = dev.nrCqs + 1) :
    (∀ ioQueues : Nat → Nat, ∀ nrMaps ≥ 1, ∀ k < dev.nrCqs,
      defaultMapVector dev ioQueues nrMaps k = some (queueIrqOffset dev + k) ∧
        createQueueVector dev (blkBlexGetKthCqid k dev.maxQid dev.nrCqs) ≠
          queueIrqOffset dev + k) ∧
    createQueueVector dev (blkBlexGetKthCqid 0 dev.maxQid dev.nrCqs) = 0 ∧
    ¬ NcqVectorsOwn dev := by
  have h_vector {k : Nat} (h_k : k < dev.nrCqs) :=
    createQueueVector_kthCqid h_cqs h_le (by omega) h_k
  have h_offset : queueIrqOffset dev = 1 := if_pos (by omega)
  have h_zero : createQueueVector dev (blkBlexGetKthCqid 0 dev.maxQid dev.nrCqs) = 0 :=
    h_vector h_cqs
  refine ⟨fun ioQueues nrMaps h_maps k h_k => ⟨?_, ?_⟩, h_zero, fun h_own => ?_⟩
  · exact defaultMapVector_eq h_cqs (by omega) ioQueues h_maps k
  · -- from 65536 on the conversion only takes the vector further away
    have h_mod : u16 k ≤ k := Nat.mod_le k 65536
    rw [h_vector h_k, h_offset]
    omega
  · have h_first := (h_own.range 0 h_cqs).1
    rw [h_zero] at h_first
    exact absurd h_first (by decide)

theorem ncqVectors_shifted_four :
    (∀ ioQueues : Nat → Nat, ∀ nrMaps ≥ 1, ∀ k < 3,
      defaultMapVector fourVectors.dev ioQueues nrMaps k =
          some (queueIrqOffset fourVectors.dev + k) ∧
        createQueueVector fourVectors.dev (blkBlexGetKthCqid k 4 3) ≠
          queueIrqOffset fourVectors.dev + k) ∧
    createQueueVector fourVectors.dev (blkBlexGetKthCqid 0 4 3) = 0 ∧
    ¬ NcqVectorsOwn fourVectors.dev :=
  @ncqVectors_shifted fourVectors.dev (by decide) (by decide) (by decide)

/-- Three NCQs of a device with four vectors get the vectors 0, 1 and 2, and their CPUs come
from 1, 2 and 3. -/
theorem fourVectors_vectors :
    Lts.Reach (step ⟨4, false, false⟩) Lts.anyStep Probed fourVectors ∧
      fourVectors.dev.nrCqs = 3 ∧ fourVectors.dev.maxQid = 4 ∧ fourVectors.dev.numVecs = 4 ∧
      [1, 3, 4].map (createQueueVector fourVectors.dev) = [0, 1, 2] ∧
      (List.range 3).map (defaultMapVector fourVectors.dev (fun _ => 0) 2) =
        [some 1, some 2, some 3] ∧
      ¬ NcqVectorsOwn fourVectors.dev := by
  refine ⟨fourVectors_reach, by decide, by decide, by decide, by decide, by decide, fun h_own => ?_⟩
  have h_first := (h_own.range 0 (by decide)).1
  exact absurd h_first (by decide)

end Daredevil.Nvme
