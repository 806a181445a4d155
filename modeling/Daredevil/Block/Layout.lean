/-
  Daredevil.Block.Layout

  The queue layout of `include/linux/blk-blex.h`: which of the queues
  `1 .. max_nqid` own a completion queue (the NCQs) and to which NCQ each
  submission queue is attached.  The source computes this with six functions,
  each with its own divisions.

  The layout is an even split of `max_nqid` queues into `nr_cqs` blocks
  (`Lib.EvenSplit`), shifted by one because queue ids start at 1; each source
  function is identified with the corresponding notion of the split:

    * `blkBlexGetKthCqid_eq`   — the first queue of block `k`;
    * `blkBlexGetCqid_eq`      — the first queue of the block of `qid`;
    * `blkBlexCqidToIndex_start` — the number of the block that starts at `cqid`;
    * `blkBlexGetCqNrNsqs_start` — the size of that block.

  `QueueLayout.onePartition` assembles them, and `QueueLayout.noOverflow` runs the
  same functions on checked 32-bit arithmetic.
-/
import Daredevil.Lib.EvenSplit
import Daredevil.Lib.Word32

namespace Daredevil

open EvenSplit (start size block)

/-! ## The source functions -/

/-- `blk_blex_min_no_extra_sq_cqid`: the least NCQ id without an extra NSQ. -/
def blkBlexMinNoExtraSqCqid (maxNqid nrCqs : Nat) : Nat :=
  let nrAveNsqs := maxNqid / nrCqs
  let nrHasExtraNsq := maxNqid % nrCqs
  nrHasExtraNsq * (nrAveNsqs + 1) + 1

/-- `blk_blex_cqid_to_kth_sqid`: the `k`-th NSQ attached to an NCQ. -/
def blkBlexCqidToKthSqid (cqid k maxNqid nrCqs : Nat) : Nat :=
  let nrAttachedNsqs :=
    if cqid ≥ blkBlexMinNoExtraSqCqid maxNqid nrCqs then maxNqid / nrCqs else maxNqid / nrCqs + 1
  cqid + k % nrAttachedNsqs

/-- `blk_blex_get_cq_nr_nsqs`: the number of NSQs attached to an NCQ. -/
def blkBlexGetCqNrNsqs (cqid maxNqid nrCqs : Nat) : Nat :=
  if cqid < blkBlexMinNoExtraSqCqid maxNqid nrCqs then maxNqid / nrCqs + 1 else maxNqid / nrCqs

/-- `blk_blex_get_kth_cqid`: the id of the `k`-th NCQ. -/
def blkBlexGetKthCqid (k maxNqid nrCqs : Nat) : Nat :=
  let k := k % nrCqs
  let nrAveNsqs := maxNqid / nrCqs
  let nrHasExtraNsq := maxNqid % nrCqs
  if k < nrHasExtraNsq then k * (nrAveNsqs + 1) + 1 else nrHasExtraNsq + k * nrAveNsqs + 1

/-- `blk_blex_cqid_to_index`: the `k` for which `cqid` is the `k`-th NCQ. -/
def blkBlexCqidToIndex (cqid maxNqid nrCqs : Nat) : Nat :=
  let minCqidWithoutExtraNsq := blkBlexMinNoExtraSqCqid maxNqid nrCqs
  let nrAveNsqs := maxNqid / nrCqs
  if cqid ≤ minCqidWithoutExtraNsq then
    cqid / (nrAveNsqs + 1)
  else
    (cqid - minCqidWithoutExtraNsq) / nrAveNsqs + minCqidWithoutExtraNsq / (nrAveNsqs + 1)

/-- `blk_blex_get_cqid`: the NCQ that queue `qid` completes on. -/
def blkBlexGetCqid (qid maxNqid nrCqs : Nat) : Nat :=
  let nrAveNsqs := maxNqid / nrCqs
  let minCqidWithoutExtraNsq := blkBlexMinNoExtraSqCqid maxNqid nrCqs
  if qid < minCqidWithoutExtraNsq then
    (qid - 1) / (nrAveNsqs + 1) * (nrAveNsqs + 1) + 1
  else
    minCqidWithoutExtraNsq + (qid - minCqidWithoutExtraNsq) / nrAveNsqs * nrAveNsqs

/-- The part of `struct blk_blex_dev_info` the layout is computed from. -/
structure BlkBlexDevInfo where
  maxNqid : Nat
  nrCqs : Nat
  deriving DecidableEq, Repr

/-- `blk_blex_get_tag_idx`: the entry of `set->tags` that hctx `hctxIdx` uses. -/
def blkBlexGetTagIdx (hctxIdx : Nat) (info : BlkBlexDevInfo) : Nat :=
  blkBlexCqidToIndex (blkBlexGetCqid (hctxIdx + 1) info.maxNqid info.nrCqs)
    info.maxNqid info.nrCqs

/-- `blk_blex_has_cq`: queue `nqid` is an NCQ. -/
def blkBlexHasCq (nqid : Nat) (info : BlkBlexDevInfo) : Bool :=
  nqid == blkBlexGetCqid nqid info.maxNqid info.nrCqs

/-- A layout the driver can be in: at least one NCQ, and no more NCQs than queues. -/
structure QueueLayout extends BlkBlexDevInfo where
  nrCqs_pos : 1 ≤ nrCqs
  nrCqs_le : nrCqs ≤ maxNqid

/-! ## The source functions on the even split -/

section Split

variable {maxNqid nrCqs : Nat}

theorem blkBlexMinNoExtraSqCqid_eq :
    blkBlexMinNoExtraSqCqid maxNqid nrCqs = start maxNqid nrCqs (maxNqid % nrCqs) + 1 := by
  rw [EvenSplit.start_of_le_mod (Nat.le_refl _)]
  rfl

theorem blkBlexGetKthCqid_eq (k : Nat) :
    blkBlexGetKthCqid k maxNqid nrCqs = start maxNqid nrCqs (k % nrCqs) + 1 := by
  simp only [blkBlexGetKthCqid]
  split
  case isTrue h => rw [EvenSplit.start_of_le_mod (Nat.le_of_lt h)]
  case isFalse h =>
    rw [EvenSplit.start_of_mod_le (Nat.le_of_not_lt h)]
    omega

theorem blkBlexGetCqid_eq {qid : Nat} (h_qid : 1 ≤ qid) :
    blkBlexGetCqid qid maxNqid nrCqs =
      start maxNqid nrCqs (block maxNqid nrCqs (qid - 1)) + 1 := by
  have hmin : blkBlexMinNoExtraSqCqid maxNqid nrCqs =
      maxNqid % nrCqs * (maxNqid / nrCqs + 1) + 1 := rfl
  simp only [blkBlexGetCqid, block]
  by_cases h : qid < blkBlexMinNoExtraSqCqid maxNqid nrCqs
  · rw [if_pos h, if_pos (by omega)]
    have hk : (qid - 1) / (maxNqid / nrCqs + 1) < maxNqid % nrCqs :=
      Nat.div_lt_of_lt_mul (by rw [Nat.mul_comm]; omega)
    rw [EvenSplit.start_of_le_mod (Nat.le_of_lt hk)]
  · rw [if_neg h, if_neg (by omega), EvenSplit.start_of_mod_le (Nat.le_add_right _ _), hmin,
      show qid - 1 - maxNqid % nrCqs * (maxNqid / nrCqs + 1) =
        qid - (maxNqid % nrCqs * (maxNqid / nrCqs + 1) + 1) by omega]
    ring

theorem blkBlexGetCqid_pos {qid : Nat} (h_qid : 1 ≤ qid) :
    1 ≤ blkBlexGetCqid qid maxNqid nrCqs := by
  rw [blkBlexGetCqid_eq h_qid]
  exact Nat.le_add_left _ _

variable (h_pos : 1 ≤ nrCqs) (h_le : nrCqs ≤ maxNqid)
include h_pos h_le

/-- The boundary test of the source separates the longer blocks from the shorter. -/
theorem start_lt_min_iff (k : Nat) :
    start maxNqid nrCqs k + 1 < blkBlexMinNoExtraSqCqid maxNqid nrCqs ↔ k < maxNqid % nrCqs := by
  rw [blkBlexMinNoExtraSqCqid_eq, Nat.add_lt_add_iff_right]
  exact (EvenSplit.start_strictMono h_pos h_le).lt_iff_lt

theorem blkBlexGetCqNrNsqs_start (k : Nat) :
    blkBlexGetCqNrNsqs (start maxNqid nrCqs k + 1) maxNqid nrCqs = size maxNqid nrCqs k := by
  simp only [blkBlexGetCqNrNsqs, start_lt_min_iff h_pos h_le, size]

theorem blkBlexCqidToKthSqid_start (k j : Nat) :
    blkBlexCqidToKthSqid (start maxNqid nrCqs k + 1) j maxNqid nrCqs =
      start maxNqid nrCqs k + 1 + j % size maxNqid nrCqs k := by
  simp only [blkBlexCqidToKthSqid, ge_iff_le, ← Nat.not_lt, start_lt_min_iff h_pos h_le, size,
    ite_not]

theorem blkBlexCqidToIndex_start (k : Nat) :
    blkBlexCqidToIndex (start maxNqid nrCqs k + 1) maxNqid nrCqs = k := by
  have ha := EvenSplit.div_pos_of_le h_pos h_le
  have hquot (m : Nat) : (m * (maxNqid / nrCqs + 1) + 1) / (maxNqid / nrCqs + 1) = m := by
    rw [Nat.add_comm, Nat.add_mul_div_right _ _ (Nat.succ_pos _), Nat.div_eq_of_lt (by omega),
      Nat.zero_add]
  have hbound : start maxNqid nrCqs k + 1 ≤ blkBlexMinNoExtraSqCqid maxNqid nrCqs ↔
      k ≤ maxNqid % nrCqs := by
    rw [blkBlexMinNoExtraSqCqid_eq, Nat.add_le_add_iff_right]
    exact (EvenSplit.start_strictMono h_pos h_le).le_iff_le
  simp only [blkBlexCqidToIndex, hbound]
  split
  case isTrue h => rw [EvenSplit.start_of_le_mod h, hquot]
  case isFalse h =>
    -- a shorter block: `cqid` is `(k - r) * a` past the boundary
    have hsub : start maxNqid nrCqs k + 1 - blkBlexMinNoExtraSqCqid maxNqid nrCqs =
        (k - maxNqid % nrCqs) * (maxNqid / nrCqs) := by
      rw [EvenSplit.start_of_mod_le (by omega), blkBlexMinNoExtraSqCqid, Nat.sub_mul,
        Nat.mul_succ]
      omega
    rw [hsub, Nat.mul_div_cancel _ ha, blkBlexMinNoExtraSqCqid, hquot]
    omega

/-- The tag index of a hctx is the number of its queue's block. -/
theorem cqidToIndex_getCqid {qid : Nat} (h_qid : 1 ≤ qid) :
    blkBlexCqidToIndex (blkBlexGetCqid qid maxNqid nrCqs) maxNqid nrCqs =
      block maxNqid nrCqs (qid - 1) := by
  rw [blkBlexGetCqid_eq h_qid, blkBlexCqidToIndex_start h_pos h_le]

theorem blkBlexGetCqid_le {qid : Nat} (h_qid : 1 ≤ qid) :
    blkBlexGetCqid qid maxNqid nrCqs ≤ qid := by
  have h := (EvenSplit.block_spec h_pos h_le (qid - 1)).1
  rw [blkBlexGetCqid_eq h_qid]
  omega

theorem blkBlexGetCqid_idem {qid : Nat} (h_qid : 1 ≤ qid) :
    blkBlexGetCqid (blkBlexGetCqid qid maxNqid nrCqs) maxNqid nrCqs =
      blkBlexGetCqid qid maxNqid nrCqs := by
  rw [blkBlexGetCqid_eq (blkBlexGetCqid_pos h_qid), blkBlexGetCqid_eq h_qid,
    Nat.add_sub_cancel, EvenSplit.block_start h_pos h_le]

end Split

/-- A queue's own entry of the tag array is its CQ's entry. -/
theorem blkBlexGetTagIdx_getCqid {info : BlkBlexDevInfo} (h_pos : 1 ≤ info.nrCqs)
    (h_le : info.nrCqs ≤ info.maxNqid) {qid : Nat} (h_qid : 1 ≤ qid) :
    blkBlexGetTagIdx (blkBlexGetCqid qid info.maxNqid info.nrCqs - 1) info =
      blkBlexGetTagIdx (qid - 1) info := by
  have h_cqid : 1 ≤ blkBlexGetCqid qid info.maxNqid info.nrCqs := blkBlexGetCqid_pos h_qid
  rw [blkBlexGetTagIdx, blkBlexGetTagIdx, Nat.sub_add_cancel h_cqid, Nat.sub_add_cancel h_qid,
    blkBlexGetCqid_idem h_pos h_le h_qid]

/-! ## The layout is one partition -/

namespace QueueLayout

variable (L : QueueLayout)

/-- The id of the `k`-th NCQ of the layout. -/
def kthCqid (k : Nat) : Nat := blkBlexGetKthCqid k L.maxNqid L.nrCqs

/-- The queues attached to NCQ `cqid`, as the source counts them. -/
def attached (cqid : Nat) : Set Nat :=
  Set.Ico cqid (cqid + blkBlexGetCqNrNsqs cqid L.maxNqid L.nrCqs)

theorem kthCqid_eq {k : Nat} (hk : k < L.nrCqs) :
    L.kthCqid k = start L.maxNqid L.nrCqs k + 1 := by
  rw [kthCqid, blkBlexGetKthCqid_eq, Nat.mod_eq_of_lt hk]

theorem nrNsqs_kthCqid {k : Nat} (hk : k < L.nrCqs) :
    blkBlexGetCqNrNsqs (L.kthCqid k) L.maxNqid L.nrCqs = size L.maxNqid L.nrCqs k := by
  rw [L.kthCqid_eq hk, blkBlexGetCqNrNsqs_start L.nrCqs_pos L.nrCqs_le]

theorem mem_attached_kthCqid {k : Nat} (hk : k < L.nrCqs) (qid : Nat) :
    qid ∈ L.attached (L.kthCqid k) ↔
      1 ≤ qid ∧ qid - 1 ∈ EvenSplit.items L.maxNqid L.nrCqs k := by
  rw [attached, L.nrNsqs_kthCqid hk, L.kthCqid_eq hk]
  simp only [EvenSplit.items, Set.mem_Ico]
  omega

/-- The five layout functions describe one partition of `1 .. maxNqid`. -/
structure OnePartition : Prop where
  first : L.kthCqid 0 = 1
  strictMono : ∀ i j, i < j → j < L.nrCqs → L.kthCqid i < L.kthCqid j
  nonempty : ∀ k < L.nrCqs, 0 < blkBlexGetCqNrNsqs (L.kthCqid k) L.maxNqid L.nrCqs
  disjoint : ∀ i < L.nrCqs, ∀ j < L.nrCqs, i ≠ j →
    Disjoint (L.attached (L.kthCqid i)) (L.attached (L.kthCqid j))
  tile : (⋃ k ∈ Set.Iio L.nrCqs, L.attached (L.kthCqid k)) = Set.Icc 1 L.maxNqid
  even : ∀ i < L.nrCqs, ∀ j < L.nrCqs,
    blkBlexGetCqNrNsqs (L.kthCqid i) L.maxNqid L.nrCqs ≤
      blkBlexGetCqNrNsqs (L.kthCqid j) L.maxNqid L.nrCqs + 1
  getCqid : ∀ k < L.nrCqs, ∀ qid ∈ L.attached (L.kthCqid k),
    blkBlexGetCqid qid L.maxNqid L.nrCqs = L.kthCqid k
  getCqid_idem : ∀ qid ∈ Set.Icc 1 L.maxNqid,
    blkBlexGetCqid (blkBlexGetCqid qid L.maxNqid L.nrCqs) L.maxNqid L.nrCqs =
      blkBlexGetCqid qid L.maxNqid L.nrCqs
  getCqid_le : ∀ qid ∈ Set.Icc 1 L.maxNqid, blkBlexGetCqid qid L.maxNqid L.nrCqs ≤ qid
  toIndex : ∀ k < L.nrCqs, blkBlexCqidToIndex (L.kthCqid k) L.maxNqid L.nrCqs = k
  kthSqid : ∀ k < L.nrCqs,
    Set.range (fun j => blkBlexCqidToKthSqid (L.kthCqid k) j L.maxNqid L.nrCqs) =
      L.attached (L.kthCqid k)

theorem attached_disjoint {i j : Nat} (hi : i < L.nrCqs) (hj : j < L.nrCqs) (hij : i ≠ j) :
    Disjoint (L.attached (L.kthCqid i)) (L.attached (L.kthCqid j)) := by
  have h_items := EvenSplit.items_disjoint L.nrCqs_pos L.nrCqs_le hij
  rw [Set.disjoint_left] at h_items ⊢
  intro qid hqi hqj
  rw [L.mem_attached_kthCqid hi] at hqi
  rw [L.mem_attached_kthCqid hj] at hqj
  exact h_items hqi.2 hqj.2

theorem iUnion_attached :
    (⋃ k ∈ Set.Iio L.nrCqs, L.attached (L.kthCqid k)) = Set.Icc 1 L.maxNqid := by
  have h_items := EvenSplit.iUnion_items L.nrCqs_pos L.nrCqs_le
  ext qid
  have h_qid : qid - 1 ∈ (⋃ k ∈ Set.Iio L.nrCqs, EvenSplit.items L.maxNqid L.nrCqs k) ↔
      qid - 1 < L.maxNqid := by
    rw [h_items]
    rfl
  have h_max : 1 ≤ L.maxNqid := Nat.le_trans L.nrCqs_pos L.nrCqs_le
  simp only [Set.mem_iUnion, Set.mem_Iio, exists_prop, Set.mem_Icc] at h_qid ⊢
  constructor
  · rintro ⟨k, hk, hq⟩
    rw [L.mem_attached_kthCqid hk] at hq
    have := h_qid.mp ⟨k, hk, hq.2⟩
    omega
  · rintro ⟨h1, h2⟩
    obtain ⟨k, hk, hq⟩ := h_qid.mpr (by omega)
    exact ⟨k, hk, (L.mem_attached_kthCqid hk qid).mpr ⟨h1, hq⟩⟩

theorem getCqid_of_mem_attached {k qid : Nat} (hk : k < L.nrCqs)
    (hq : qid ∈ L.attached (L.kthCqid k)) :
    blkBlexGetCqid qid L.maxNqid L.nrCqs = L.kthCqid k := by
  rw [L.mem_attached_kthCqid hk] at hq
  rw [blkBlexGetCqid_eq hq.1, L.kthCqid_eq hk,
    EvenSplit.block_eq_of_mem L.nrCqs_pos L.nrCqs_le hq.2.1 hq.2.2]

theorem range_kthSqid {k : Nat} (hk : k < L.nrCqs) :
    Set.range (fun j => blkBlexCqidToKthSqid (L.kthCqid k) j L.maxNqid L.nrCqs) =
      L.attached (L.kthCqid k) := by
  have hsize := EvenSplit.size_pos L.nrCqs_pos L.nrCqs_le k
  ext qid
  rw [attached, L.nrNsqs_kthCqid hk, L.kthCqid_eq hk]
  simp only [blkBlexCqidToKthSqid_start L.nrCqs_pos L.nrCqs_le, Set.mem_range, Set.mem_Ico]
  constructor
  · rintro ⟨j, rfl⟩
    have := Nat.mod_lt j hsize
    omega
  · rintro ⟨h1, h2⟩
    refine ⟨qid - (start L.maxNqid L.nrCqs k + 1), ?_⟩
    rw [Nat.mod_eq_of_lt (by omega)]
    omega

theorem onePartition : L.OnePartition where
  first := by rw [L.kthCqid_eq L.nrCqs_pos, EvenSplit.start_zero]
  strictMono i j hij hj := by
    rw [L.kthCqid_eq (Nat.lt_trans hij hj), L.kthCqid_eq hj]
    exact Nat.succ_lt_succ (EvenSplit.start_strictMono L.nrCqs_pos L.nrCqs_le hij)
  nonempty k hk := by
    rw [L.nrNsqs_kthCqid hk]
    exact EvenSplit.size_pos L.nrCqs_pos L.nrCqs_le k
  disjoint i hi j hj hij := L.attached_disjoint hi hj hij
  tile := L.iUnion_attached
  even i hi j hj := by
    rw [L.nrNsqs_kthCqid hi, L.nrNsqs_kthCqid hj]
    exact EvenSplit.size_le_size_succ i j
  getCqid k hk qid hq := L.getCqid_of_mem_attached hk hq
  getCqid_idem qid hq := blkBlexGetCqid_idem L.nrCqs_pos L.nrCqs_le hq.1
  getCqid_le qid hq := blkBlexGetCqid_le L.nrCqs_pos L.nrCqs_le hq.1
  toIndex k hk := by
    rw [L.kthCqid_eq hk, blkBlexCqidToIndex_start L.nrCqs_pos L.nrCqs_le]
  kthSqid k hk := L.range_kthSqid hk

end QueueLayout

/-! ## The same functions on 32-bit words -/

/-- `blk_blex_min_no_extra_sq_cqid` on checked 32-bit arithmetic. -/
def minNoExtraSqCqid32 (maxNqid nrCqs : Nat) : Option Nat := do
  let nrAveNsqs ← Word32.div maxNqid nrCqs
  let nrHasExtraNsq ← Word32.mod maxNqid nrCqs
  let long ← Word32.add nrAveNsqs 1
  let longs ← Word32.mul nrHasExtraNsq long
  Word32.add longs 1

/-- `blk_blex_cqid_to_kth_sqid` on checked 32-bit arithmetic. -/
def cqidToKthSqid32 (cqid k maxNqid nrCqs : Nat) : Option Nat := do
  let minCqid ← minNoExtraSqCqid32 maxNqid nrCqs
  let nrAveNsqs ← Word32.div maxNqid nrCqs
  let nrAttachedNsqs ← if cqid ≥ minCqid then some nrAveNsqs else Word32.add nrAveNsqs 1
  let k ← Word32.mod k nrAttachedNsqs
  Word32.add cqid k

/-- `blk_blex_get_cq_nr_nsqs` on checked 32-bit arithmetic. -/
def getCqNrNsqs32 (cqid maxNqid nrCqs : Nat) : Option Nat := do
  let minCqid ← minNoExtraSqCqid32 maxNqid nrCqs
  let nrAveNsqs ← Word32.div maxNqid nrCqs
  if cqid < minCqid then Word32.add nrAveNsqs 1 else some nrAveNsqs

/-- `blk_blex_get_kth_cqid` on checked 32-bit arithmetic. -/
def getKthCqid32 (k maxNqid nrCqs : Nat) : Option Nat := do
  let k ← Word32.mod k nrCqs
  let nrAveNsqs ← Word32.div maxNqid nrCqs
  let nrHasExtraNsq ← Word32.mod maxNqid nrCqs
  if k < nrHasExtraNsq then
    let long ← Word32.add nrAveNsqs 1
    let longs ← Word32.mul k long
    Word32.add longs 1
  else
    let shorts ← Word32.mul k nrAveNsqs
    let sum ← Word32.add nrHasExtraNsq shorts
    Word32.add sum 1

/-- `blk_blex_cqid_to_index` on checked 32-bit arithmetic. -/
def cqidToIndex32 (cqid maxNqid nrCqs : Nat) : Option Nat := do
  let minCqid ← minNoExtraSqCqid32 maxNqid nrCqs
  let nrAveNsqs ← Word32.div maxNqid nrCqs
  let long ← Word32.add nrAveNsqs 1
  if cqid ≤ minCqid then
    Word32.div cqid long
  else
    let past ← Word32.sub cqid minCqid
    let shorts ← Word32.div past nrAveNsqs
    let longs ← Word32.div minCqid long
    Word32.add shorts longs

/-- `blk_blex_get_cqid` on checked 32-bit arithmetic. -/
def getCqid32 (qid maxNqid nrCqs : Nat) : Option Nat := do
  let nrAveNsqs ← Word32.div maxNqid nrCqs
  let minCqid ← minNoExtraSqCqid32 maxNqid nrCqs
  if qid < minCqid then
    let long ← Word32.add nrAveNsqs 1
    let before ← Word32.sub qid 1
    let longs ← Word32.div before long
    let first ← Word32.mul longs long
    Word32.add first 1
  else
    let past ← Word32.sub qid minCqid
    let shorts ← Word32.div past nrAveNsqs
    let first ← Word32.mul shorts nrAveNsqs
    Word32.add minCqid first

section NoOverflow

variable {maxNqid nrCqs : Nat} (h_pos : 1 ≤ nrCqs) (h_le : nrCqs ≤ maxNqid)
  (h_max : maxNqid ≤ 65535)
include h_pos h_le h_max

omit h_pos h_le in
theorem aveNsqs_le : maxNqid / nrCqs ≤ 65535 :=
  Nat.le_trans (Nat.div_le_self _ _) h_max

omit h_max in
theorem start_le {k : Nat} (hk : k ≤ nrCqs) : start maxNqid nrCqs k ≤ maxNqid := by
  have h := (EvenSplit.start_strictMono h_pos h_le).monotone hk
  rwa [EvenSplit.start_parts h_pos] at h

omit h_max in
theorem longs_le {k : Nat} (hk : k ≤ maxNqid % nrCqs) :
    k * (maxNqid / nrCqs + 1) ≤ maxNqid := by
  have hr : maxNqid % nrCqs < nrCqs := Nat.mod_lt _ h_pos
  rw [← EvenSplit.start_of_le_mod hk]
  exact start_le h_pos h_le (by omega)

theorem minNoExtraSqCqid32_eq :
    minNoExtraSqCqid32 maxNqid nrCqs = some (blkBlexMinNoExtraSqCqid maxNqid nrCqs) := by
  have h_ave : maxNqid / nrCqs ≤ 65535 := aveNsqs_le h_max
  have h_longs := longs_le h_pos h_le (Nat.le_refl _)
  simp only [minNoExtraSqCqid32, Word32.div_eq_some h_pos, Word32.mod_eq_some h_pos,
    Option.bind_eq_bind, Option.bind_some,
    Word32.add_eq_some (Word32.lt_bound (show maxNqid / nrCqs + 1 ≤ _ by omega)),
    Word32.mul_eq_some (Word32.lt_bound (Nat.le_trans h_longs (by omega)))]
  exact Word32.add_eq_some (Word32.lt_bound (by omega))

omit h_max in
theorem minNoExtraSqCqid_le : blkBlexMinNoExtraSqCqid maxNqid nrCqs ≤ maxNqid + 1 :=
  Nat.succ_le_succ (longs_le h_pos h_le (Nat.le_refl _))

theorem getCqNrNsqs32_eq (cqid : Nat) :
    getCqNrNsqs32 cqid maxNqid nrCqs = some (blkBlexGetCqNrNsqs cqid maxNqid nrCqs) := by
  have h_ave : maxNqid / nrCqs ≤ 65535 := aveNsqs_le h_max
  simp only [getCqNrNsqs32, minNoExtraSqCqid32_eq h_pos h_le h_max, Word32.div_eq_some h_pos,
    Option.bind_eq_bind, Option.bind_some, blkBlexGetCqNrNsqs,
    Word32.add_eq_some (Word32.lt_bound (show maxNqid / nrCqs + 1 ≤ _ by omega))]
  split <;> rfl

theorem cqidToKthSqid32_eq {cqid : Nat} (h_cqid : cqid ≤ 65535) (k : Nat) :
    cqidToKthSqid32 cqid k maxNqid nrCqs = some (blkBlexCqidToKthSqid cqid k maxNqid nrCqs) := by
  have h_ave : maxNqid / nrCqs ≤ 65535 := aveNsqs_le h_max
  have h_avePos := EvenSplit.div_pos_of_le h_pos h_le
  have h_sum {n : Nat} (hn : 0 < n) (hn' : n ≤ 65536) :
      Word32.add cqid (k % n) = some (cqid + k % n) :=
    Word32.add_eq_some (Word32.lt_bound (by have := Nat.mod_lt k hn; omega))
  simp only [cqidToKthSqid32, minNoExtraSqCqid32_eq h_pos h_le h_max, Word32.div_eq_some h_pos,
    Option.bind_eq_bind, Option.bind_some, blkBlexCqidToKthSqid,
    Word32.add_eq_some (Word32.lt_bound (show maxNqid / nrCqs + 1 ≤ _ by omega))]
  split
  · simp only [Option.bind_some, Word32.mod_eq_some h_avePos]
    exact h_sum h_avePos (by omega)
  · simp only [Option.bind_some, Word32.mod_eq_some (Nat.succ_pos (maxNqid / nrCqs))]
    exact h_sum (Nat.succ_pos _) (by omega)

theorem getKthCqid32_eq (k : Nat) :
    getKthCqid32 k maxNqid nrCqs = some (blkBlexGetKthCqid k maxNqid nrCqs) := by
  have h_ave : maxNqid / nrCqs ≤ 65535 := aveNsqs_le h_max
  have hk : k % nrCqs < nrCqs := Nat.mod_lt k h_pos
  simp only [getKthCqid32, Word32.div_eq_some h_pos, Word32.mod_eq_some h_pos,
    Option.bind_eq_bind, Option.bind_some, blkBlexGetKthCqid]
  split
  case isTrue h =>
    have h_longs := longs_le h_pos h_le (Nat.le_of_lt h)
    simp only [Word32.add_eq_some (Word32.lt_bound (show maxNqid / nrCqs + 1 ≤ _ by omega)),
      Word32.mul_eq_some (Word32.lt_bound (Nat.le_trans h_longs (by omega))), Option.bind_some]
    exact Word32.add_eq_some (Word32.lt_bound (by omega))
  case isFalse h =>
    have h_start := start_le h_pos h_le (Nat.le_of_lt hk)
    rw [EvenSplit.start_of_mod_le (Nat.le_of_not_lt h)] at h_start
    have h_shorts := Word32.mul_eq_some (Word32.lt_bound
      (show k % nrCqs * (maxNqid / nrCqs) ≤ 4294967295 by omega))
    have h_sum := Word32.add_eq_some (Word32.lt_bound
      (show maxNqid % nrCqs + k % nrCqs * (maxNqid / nrCqs) ≤ 4294967295 by omega))
    simp only [h_shorts, h_sum, Option.bind_some]
    exact Word32.add_eq_some (Word32.lt_bound (by omega))

theorem cqidToIndex32_eq {cqid : Nat} (h_cqid : cqid ≤ 65535) :
    cqidToIndex32 cqid maxNqid nrCqs = some (blkBlexCqidToIndex cqid maxNqid nrCqs) := by
  have h_ave : maxNqid / nrCqs ≤ 65535 := aveNsqs_le h_max
  have h_avePos := EvenSplit.div_pos_of_le h_pos h_le
  have h_long : 0 < maxNqid / nrCqs + 1 := Nat.succ_pos _
  simp only [cqidToIndex32, minNoExtraSqCqid32_eq h_pos h_le h_max, Word32.div_eq_some h_pos,
    Option.bind_eq_bind, Option.bind_some, blkBlexCqidToIndex,
    Word32.add_eq_some (Word32.lt_bound (show maxNqid / nrCqs + 1 ≤ _ by omega)),
    Word32.div_eq_some h_long, Word32.div_eq_some h_avePos]
  split
  case isTrue h => rfl
  case isFalse h =>
    have h_min := minNoExtraSqCqid_le h_pos h_le
    have h1 := Nat.div_le_self (cqid - blkBlexMinNoExtraSqCqid maxNqid nrCqs) (maxNqid / nrCqs)
    have h2 := Nat.div_le_self (blkBlexMinNoExtraSqCqid maxNqid nrCqs) (maxNqid / nrCqs + 1)
    simp only [Word32.sub_eq_some (Nat.le_of_not_le h), Option.bind_some]
    exact Word32.add_eq_some (Word32.lt_bound (by omega))

theorem getCqid32_eq {qid : Nat} (h_qid : 1 ≤ qid) (h_qidMax : qid ≤ 65535) :
    getCqid32 qid maxNqid nrCqs = some (blkBlexGetCqid qid maxNqid nrCqs) := by
  have h_ave : maxNqid / nrCqs ≤ 65535 := aveNsqs_le h_max
  have h_avePos := EvenSplit.div_pos_of_le h_pos h_le
  have h_min := minNoExtraSqCqid_le h_pos h_le
  simp only [getCqid32, minNoExtraSqCqid32_eq h_pos h_le h_max, Word32.div_eq_some h_pos,
    Option.bind_eq_bind, Option.bind_some, blkBlexGetCqid]
  split
  case isTrue h =>
    have h_first := Nat.div_mul_le_self (qid - 1) (maxNqid / nrCqs + 1)
    simp only [Word32.add_eq_some (Word32.lt_bound (show maxNqid / nrCqs + 1 ≤ _ by omega)),
      Word32.sub_eq_some h_qid, Word32.div_eq_some (Nat.succ_pos (maxNqid / nrCqs)),
      Word32.mul_eq_some (Word32.lt_bound (Nat.le_trans h_first (by omega))), Option.bind_some]
    exact Word32.add_eq_some (Word32.lt_bound (by omega))
  case isFalse h =>
    have h_first := Nat.div_mul_le_self (qid - blkBlexMinNoExtraSqCqid maxNqid nrCqs)
      (maxNqid / nrCqs)
    simp only [Word32.sub_eq_some (Nat.le_of_not_lt h), Word32.div_eq_some h_avePos,
      Word32.mul_eq_some (Word32.lt_bound (Nat.le_trans h_first (by omega))), Option.bind_some]
    exact Word32.add_eq_some (Word32.lt_bound (by omega))

end NoOverflow

/-- No intermediate value of the layout functions leaves 32 bits. -/
structure QueueLayout.NoOverflow (L : QueueLayout) : Prop where
  minNoExtra : minNoExtraSqCqid32 L.maxNqid L.nrCqs =
    some (blkBlexMinNoExtraSqCqid L.maxNqid L.nrCqs)
  kthCqid : ∀ k, getKthCqid32 k L.maxNqid L.nrCqs = some (blkBlexGetKthCqid k L.maxNqid L.nrCqs)
  nrNsqs : ∀ cqid, getCqNrNsqs32 cqid L.maxNqid L.nrCqs =
    some (blkBlexGetCqNrNsqs cqid L.maxNqid L.nrCqs)
  getCqid : ∀ qid ∈ Set.Icc 1 L.maxNqid, getCqid32 qid L.maxNqid L.nrCqs =
    some (blkBlexGetCqid qid L.maxNqid L.nrCqs)
  toIndex : ∀ cqid ∈ Set.Icc 1 L.maxNqid, cqidToIndex32 cqid L.maxNqid L.nrCqs =
    some (blkBlexCqidToIndex cqid L.maxNqid L.nrCqs)
  kthSqid : ∀ cqid ∈ Set.Icc 1 L.maxNqid, ∀ j, cqidToKthSqid32 cqid j L.maxNqid L.nrCqs =
    some (blkBlexCqidToKthSqid cqid j L.maxNqid L.nrCqs)

theorem QueueLayout.noOverflow (L : QueueLayout) (h_max : L.maxNqid ≤ 65535) :
    L.NoOverflow where
  minNoExtra := minNoExtraSqCqid32_eq L.nrCqs_pos L.nrCqs_le h_max
  kthCqid := getKthCqid32_eq L.nrCqs_pos L.nrCqs_le h_max
  nrNsqs := getCqNrNsqs32_eq L.nrCqs_pos L.nrCqs_le h_max
  getCqid _ hq := getCqid32_eq L.nrCqs_pos L.nrCqs_le h_max hq.1 (Nat.le_trans hq.2 h_max)
  toIndex _ hc := cqidToIndex32_eq L.nrCqs_pos L.nrCqs_le h_max (Nat.le_trans hc.2 h_max)
  kthSqid _ hc := cqidToKthSqid32_eq L.nrCqs_pos L.nrCqs_le h_max (Nat.le_trans hc.2 h_max)

/-- The layout functions agree on one partition of the queues, within 32 bits. -/
theorem queueLayout_partition (L : QueueLayout) (h_max : L.maxNqid ≤ 65535) :
    L.OnePartition ∧ L.NoOverflow :=
  ⟨L.onePartition, L.noOverflow h_max⟩

/-- Seven queues on three completion queues: `1..3`, `4..5`, `6..7`. -/
theorem queueLayout_partition_seven_three :
    let L : QueueLayout := ⟨⟨7, 3⟩, by decide, by decide⟩
    7 ≤ 65535 ∧ L.OnePartition ∧ L.NoOverflow :=
  ⟨by decide, queueLayout_partition ⟨⟨7, 3⟩, by decide, by decide⟩ (by decide)⟩

end Daredevil
