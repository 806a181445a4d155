/-
  Daredevil.Sched.GroupRange

  Round-robin and random selection, and the range of the group they select from.

  A remainder of an `int` takes the sign of the dividend.  So a random number below
  zero, or a counter that has gone past 2^31, gives a negative offset, and the start
  of the group plus the offset lies before the group.  The index of an NCQ is
  `unsigned`: a negative offset from index 0 wraps around, and `blk_blex_get_kth_cqid`
  then reduces it by `nr_cqs`.

    * `rrNextNsqid_inGroup_iff`  — the round robin, for both types;
    * `randomNqid_inGroup_iff`   — the random selection;
    * `nqSelection_inGroup_iff`  — both.
-/
import Daredevil.Sched.RoundRobin

namespace Daredevil

namespace Sched

/-- `blk_blex_sched_random_nqid`; `i` is the random number. -/
def blkBlexSchedRandomNqid (reg : NqRegulator) (prio : Nat) (type : NqType) (i : Int) :
    Option (NqRegulator × Int) := do
  let nqGroup ← reg.group? prio
  if nqGroup.nrAttachNsqs = 1 ∨ nqGroup.nrAttachNsqs = 2 then
    blkBlexSchedRrNextNsqid reg prio .nsq
  else
    match type with
    | .nsq =>
        if nqGroup.nrAttachNsqs = 0 then none
        else some (reg, Word32.signed (i.tmod nqGroup.nrAttachNsqs + nqGroup.ncqStart))
    | .ncq =>
        if nqGroup.nrNcqs = 0 then none
        else
          let ncqStartIndex :=
            blkBlexCqidToIndex nqGroup.ncqStart reg.blexInfo.maxNqid reg.blexInfo.nrCqs
          -- the index is converted to `unsigned int`
          let k := ((i.tmod nqGroup.nrNcqs + ncqStartIndex) % Word32.bound).toNat
          some (reg, blkBlexGetKthCqid k reg.blexInfo.maxNqid reg.blexInfo.nrCqs)

/-! ## What is selected -/

/-- `nqid` is a queue of the group. -/
def InGroup (reg : NqRegulator) (prio : Nat) (nqid : Int) : Prop :=
  ((reg.nqGroups prio).ncqStart : Int) ≤ nqid ∧
    nqid < (reg.nqGroups prio).ncqStart + (reg.nqGroups prio).nrAttachNsqs

/-- The round robin returns a queue of the group. -/
def RrInGroup (reg : NqRegulator) (prio : Nat) (type : NqType) : Prop :=
  ∃ reg' nqid, blkBlexSchedRrNextNsqid reg prio type = some (reg', nqid) ∧ InGroup reg prio nqid

/-- The random selection returns a queue of the group, and an NCQ where one is asked for. -/
def RandomInGroup (reg : NqRegulator) (prio : Nat) (type : NqType) (i : Int) : Prop :=
  ∃ reg' nqid, blkBlexSchedRandomNqid reg prio type i = some (reg', nqid) ∧
    InGroup reg prio nqid ∧ (type = .ncq → blkBlexHasCq nqid.toNat reg.blexInfo)

/-! ## When it is in the group -/

/-- The remainder of `x` by `n` is not negative. -/
def OffsetFits (n : Nat) (x : Int) : Prop := 0 ≤ x ∨ (n : Int) ∣ x

/-- The counter of the NSQs, as an `int`, gives an offset into the group. -/
def RrFits (reg : NqRegulator) (prio : Nat) (type : NqType) : Prop :=
  type = .nsq →
    OffsetFits (reg.nqGroups prio).nrAttachNsqs (Word32.signed (reg.nqGroups prio).rrNsqOffset)

/-- A negative offset from index 0 comes back into the first half after it wraps at 2^32. -/
def WrapsBack (n nrCqs : Nat) (i : Int) : Prop :=
  i.natAbs % n ≤ Word32.bound % nrCqs ∧ Word32.bound % nrCqs < i.natAbs % n + n

/-- The random number gives an offset into the group; a group of one or two queues uses the
counter instead, and returns its second queue where an NCQ is asked for. -/
def RandomFits (reg : NqRegulator) (prio : Nat) (type : NqType) (i : Int) : Prop :=
  if (reg.nqGroups prio).nrAttachNsqs = 1 ∨ (reg.nqGroups prio).nrAttachNsqs = 2 then
    RrFits reg prio .nsq ∧ (type = .ncq →
      (reg.nqGroups prio).nrNcqs = (reg.nqGroups prio).nrAttachNsqs ∨
        2 ∣ (reg.nqGroups prio).rrNsqOffset)
  else
    match type with
    | .nsq => OffsetFits (reg.nqGroups prio).nrAttachNsqs i
    | .ncq => OffsetFits (reg.nqGroups prio).nrNcqs i ∨
        prio = blkBlexTPrio ∧ WrapsBack (reg.nqGroups prio).nrNcqs reg.blexInfo.nrCqs i

variable {L : QueueLayout} {reg : NqRegulator} {prio : Nat}

/-! ## Remainders of `int` -/

theorem tmod_nonneg_iff {n : Nat} (i : Int) : 0 ≤ i.tmod n ↔ OffsetFits n i := by
  rw [OffsetFits, Int.dvd_iff_tmod_eq_zero]
  constructor
  · intro h_nonneg
    by_contra h_neg
    rw [not_or] at h_neg
    -- the remainder of `-i` is positive, and has the other sign
    have h_flip := Int.tmod_nonneg (n : Int) (show 0 ≤ -i by omega)
    rw [Int.neg_tmod] at h_flip
    omega
  · rintro (h_nonneg | h_zero)
    · exact Int.tmod_nonneg _ h_nonneg
    · omega

theorem tmod_gt {n : Nat} (h : 0 < n) (i : Int) : -(n : Int) < i.tmod n := by
  have h_flip := Int.tmod_lt_of_pos (-i) (show (0 : Int) < n by omega)
  rw [Int.neg_tmod] at h_flip
  omega

/-- The remainder of a negative number. -/
theorem tmod_of_neg {n : Nat} {i : Int} (h : i < 0) : i.tmod n = -((i.natAbs % n : Nat) : Int) := by
  obtain ⟨m, rfl⟩ := Int.eq_negSucc_of_lt_zero h
  rfl

/-- Storing a counter as an `int` keeps its parity. -/
theorem two_dvd_signed (n : Nat) : (2 : Int) ∣ Word32.signed n ↔ 2 ∣ n := by
  rw [Word32.signed, Word32.bound, Int.bmod]
  split <;> omega

/-! ## The indices of a group -/

/-- Both ends of a group, from the even split of the queues. -/
theorem RegWf.group_ends (h : RegWf L reg) (h_groups : 2 ≤ L.nrCqs)
    (h_prio : prio < blkBlexPrioLevel) :
    (reg.nqGroups prio).ncqStart = EvenSplit.start L.maxNqid L.nrCqs (L.groupIdx prio) + 1 ∧
      (reg.nqGroups prio).ncqStart + (reg.nqGroups prio).nrAttachNsqs =
        EvenSplit.start L.maxNqid L.nrCqs (L.groupIdx prio + L.groupNr prio) + 1 := by
  have h_group := h.group prio h_prio
  have h_sum := L.groupNsqs_sum h_groups h_prio
  rw [h_group.ncqStart_eq, L.kthCqid_eq (L.groupIdx_lt h_groups h_prio), h_group.nrAttachNsqs_eq]
  omega

/-- An NCQ is in the group if its index is. -/
theorem RegWf.inGroup_kthCqid_iff (h : RegWf L reg) (h_groups : 2 ≤ L.nrCqs)
    (h_prio : prio < blkBlexPrioLevel) {k : Nat} (hk : k < L.nrCqs) :
    InGroup reg prio (L.kthCqid k) ↔
      L.groupIdx prio ≤ k ∧ k < L.groupIdx prio + L.groupNr prio := by
  obtain ⟨h_start, h_end⟩ := h.group_ends h_groups h_prio
  -- the starts of the split grow with the index, so both bounds are bounds of the index
  have h_mono := EvenSplit.start_strictMono L.nrCqs_pos L.nrCqs_le
  have h_low := h_mono.le_iff_le (a := L.groupIdx prio) (b := k)
  have h_high := h_mono.lt_iff_lt (a := k) (b := L.groupIdx prio + L.groupNr prio)
  rw [InGroup, L.kthCqid_eq hk]
  omega

theorem hasCq_kthCqid {k : Nat} (hk : k < L.nrCqs) :
    blkBlexHasCq (L.kthCqid k) L.toBlkBlexDevInfo :=
  (L.mem_ncqs_iff (L.mem_range_of_attached hk (L.kthCqid_mem_attached hk))).mp ⟨k, hk, rfl⟩

/-- Of a group of two queues the second is an NCQ exactly if the group has two NCQs. -/
theorem RegWf.second_hasCq_iff (h : RegWf L reg) (h_groups : 2 ≤ L.nrCqs)
    (h_prio : prio < blkBlexPrioLevel) (h_two : (reg.nqGroups prio).nrAttachNsqs = 2) :
    blkBlexHasCq ((reg.nqGroups prio).ncqStart + 1) L.toBlkBlexDevInfo ↔
      (reg.nqGroups prio).nrNcqs = 2 := by
  obtain ⟨h_start, h_end⟩ := h.group_ends h_groups h_prio
  obtain ⟨h_pos, -, h_le⟩ := h.group_range h_groups h_prio
  have h_mono := EvenSplit.start_strictMono L.nrCqs_pos L.nrCqs_le
  have h_first := h_mono (show L.groupIdx prio < L.groupIdx prio + 1 by omega)
  have h_second := h_mono (show L.groupIdx prio + 1 < L.groupIdx prio + 2 by omega)
  rw [← L.mem_ncqs_iff ⟨by omega, by omega⟩, (h.group prio h_prio).nrNcqs_eq]
  constructor
  · rintro ⟨k, hk, h_eq⟩
    rw [L.kthCqid_eq hk] at h_eq
    -- `k` lies after the first NCQ and before the end, and no third NCQ fits in between
    have h_low := h_mono.lt_iff_lt (a := L.groupIdx prio) (b := k)
    have h_high := h_mono.lt_iff_lt (a := k) (b := L.groupIdx prio + L.groupNr prio)
    have h_third := h_mono.lt_iff_lt (a := L.groupIdx prio + 2)
      (b := L.groupIdx prio + L.groupNr prio)
    omega
  · intro h_nr
    have hk := L.groupIdx_add_lt h_groups h_prio (show 1 < L.groupNr prio by omega)
    refine ⟨L.groupIdx prio + 1, hk, ?_⟩
    rw [h_nr] at h_end
    rw [L.kthCqid_eq hk]
    omega

theorem RegWf.nrNcqs_eq_one (h : RegWf L reg) (h_groups : 2 ≤ L.nrCqs)
    (h_prio : prio < blkBlexPrioLevel) (h_one : (reg.nqGroups prio).nrAttachNsqs = 1) :
    (reg.nqGroups prio).nrNcqs = 1 := by
  obtain ⟨h_start, h_end⟩ := h.group_ends h_groups h_prio
  have h_mono := EvenSplit.start_strictMono L.nrCqs_pos L.nrCqs_le
  have h_first := h_mono (show L.groupIdx prio < L.groupIdx prio + 1 by omega)
  have h_second := h_mono.lt_iff_lt (a := L.groupIdx prio + 1)
    (b := L.groupIdx prio + L.groupNr prio)
  have h_pos := L.groupNr_pos h_groups prio
  rw [(h.group prio h_prio).nrNcqs_eq]
  omega

/-! ## Round robin -/

theorem inGroup_add_tmod_iff (h_nr : 0 < (reg.nqGroups prio).nrAttachNsqs) (i : Int) :
    InGroup reg prio
        ((reg.nqGroups prio).ncqStart + i.tmod (reg.nqGroups prio).nrAttachNsqs) ↔
      OffsetFits (reg.nqGroups prio).nrAttachNsqs i := by
  have h_lt := Int.tmod_lt_of_pos i (Int.natCast_pos.mpr h_nr)
  rw [← tmod_nonneg_iff, InGroup]
  omega

theorem rrNextNsqid_nsq (h_prio : prio < blkBlexPrioLevel)
    (h_nr : 0 < (reg.nqGroups prio).nrAttachNsqs) :
    ∃ reg', blkBlexSchedRrNextNsqid reg prio .nsq = some (reg', (reg.nqGroups prio).ncqStart +
      (Word32.signed (reg.nqGroups prio).rrNsqOffset).tmod (reg.nqGroups prio).nrAttachNsqs) := by
  have h_read : reg.group? prio = some (reg.nqGroups prio) := if_pos h_prio
  simp only [blkBlexSchedRrNextNsqid, h_read, Option.bind_eq_bind, Option.bind_some,
    if_neg (Nat.ne_of_gt h_nr)]
  exact ⟨_, rfl⟩

/-- The round robin over the NCQs returns an NSQ of an NCQ of the group, whatever both counters
are: its remainders are `unsigned`. -/
theorem RegWf.rrNextNsqid_ncq (h : RegWf L reg) (h_groups : 2 ≤ L.nrCqs)
    (h_prio : prio < blkBlexPrioLevel) :
    ∃ reg' cqid, ∃ nqid : Nat, cqid ∈ L.groupNcqs prio ∧ nqid ∈ L.attached cqid ∧
      blkBlexSchedRrNextNsqid reg prio .ncq = some (reg', (nqid : Int)) := by
  have h_group := h.group prio h_prio
  have h_read : reg.group? prio = some (reg.nqGroups prio) := if_pos h_prio
  have h_offset := Nat.mod_lt (reg.nqGroups prio).rrNcqOffset (L.groupNr_pos h_groups prio)
  have hk := L.groupIdx_add_lt h_groups h_prio h_offset
  -- the first counter selects the NCQ
  have h_sel : blkBlexGetKthCqid (blkBlexCqidToIndex (reg.nqGroups prio).ncqStart
      reg.blexInfo.maxNqid reg.blexInfo.nrCqs +
        (reg.nqGroups prio).rrNcqOffset % (reg.nqGroups prio).nrNcqs)
      reg.blexInfo.maxNqid reg.blexInfo.nrCqs =
        L.kthCqid (L.groupIdx prio + (reg.nqGroups prio).rrNcqOffset % L.groupNr prio) := by
    rw [h.info, h_group.ncqStart_eq, L.cqidToIndex_groupIdx h_groups h_prio, h_group.nrNcqs_eq]
    rfl
  generalize h_cqid : L.kthCqid (L.groupIdx prio +
    (reg.nqGroups prio).rrNcqOffset % L.groupNr prio) = cqid at h_sel
  have h_mem : cqid ∈ L.groupNcqs prio :=
    h_cqid ▸ List.mem_map.mpr ⟨_, List.mem_range.mpr h_offset, rfl⟩
  have h_cq : blkBlexHasCq cqid L.toBlkBlexDevInfo := h_cqid ▸ hasCq_kthCqid hk
  have h_range : cqid ∈ Set.Icc 1 L.maxNqid :=
    h_cqid ▸ L.mem_range_of_attached hk (L.kthCqid_mem_attached hk)
  have h_pos : 0 < blkBlexGetCqNrNsqs cqid L.maxNqid L.nrCqs :=
    h_cqid ▸ L.onePartition.nonempty _ hk
  have h_enqWf := h.enq cqid h_range.1 h_range.2
  obtain ⟨encq, h_encq⟩ := Option.isSome_iff_exists.mp (h_enqWf.hasCq.trans h_cq)
  have h_nsqs := (h_enqWf.encq encq h_encq).nrAttachedNsqs_eq
  have h_nr : (reg.nqGroups prio).nrNcqs ≠ 0 := by
    rw [h_group.nrNcqs_eq]
    exact Nat.ne_of_gt (L.groupNr_pos h_groups prio)
  -- and the one of the NCQ selects among its NSQs
  have h_rr : ∃ reg', blkBlexSchedRrNextNsqid reg prio .ncq =
      some (reg', ((cqid + encq.rrNsqOffset % encq.nrAttachedNsqs : Nat) : Int)) := by
    simp only [blkBlexSchedRrNextNsqid, h_read, h_sel, Option.bind_eq_bind, Option.bind_some,
      if_neg h_nr, h.enq?_eq h_range.1 h_range.2, h_encq]
    rw [if_neg (by omega)]
    exact ⟨_, rfl⟩
  obtain ⟨reg', h_rr⟩ := h_rr
  refine ⟨reg', cqid, _, h_mem, ?_, h_rr⟩
  have h_lt := Nat.mod_lt encq.rrNsqOffset h_pos
  rw [h_nsqs, QueueLayout.attached, Set.mem_Ico]
  omega

theorem RegWf.inGroup_iff (h : RegWf L reg) (h_groups : 2 ≤ L.nrCqs)
    (h_prio : prio < blkBlexPrioLevel) (nqid : Nat) :
    InGroup reg prio nqid ↔ nqid ∈ Set.Icc 1 L.maxNqid ∧ L.prioOf nqid = prio := by
  rw [← (h.group prio h_prio).mem_nsqRange h_groups h_prio, NqGroup.nsqRange, Set.mem_Ico, InGroup]
  omega

theorem rrNextNsqid_inGroup_iff (h : RegWf L reg) (h_groups : 2 ≤ L.nrCqs)
    (h_prio : prio < blkBlexPrioLevel) (type : NqType) :
    RrInGroup reg prio type ↔ RrFits reg prio type := by
  cases type with
  | ncq =>
      obtain ⟨reg', cqid, nqid, h_mem, h_attached, h_rr⟩ := h.rrNextNsqid_ncq h_groups h_prio
      obtain ⟨k, hk, rfl, h_prioOf⟩ := L.groupNcqs_spec h_groups h_prio h_mem
      have h_in : InGroup reg prio nqid := (h.inGroup_iff h_groups h_prio nqid).mpr
        ⟨L.mem_range_of_attached hk h_attached, h_prioOf nqid h_attached⟩
      refine iff_of_true ⟨reg', nqid, h_rr, h_in⟩ ?_
      intro h_type
      cases h_type
  | nsq =>
      have h_nr := (h.group_range h_groups h_prio).2.1
      obtain ⟨reg', h_rr⟩ := rrNextNsqid_nsq h_prio h_nr
      have h_iff := inGroup_add_tmod_iff h_nr (Word32.signed (reg.nqGroups prio).rrNsqOffset)
      constructor
      · rintro ⟨reg₁, nqid, h_eq, h_in⟩ -
        rw [h_rr] at h_eq
        cases h_eq
        exact h_iff.mp h_in
      · intro h_fits
        exact ⟨reg', _, h_rr, h_iff.mpr (h_fits rfl)⟩

/-! ## Random selection -/

/-- The random selection returns `nqid`. -/
theorem randomInGroup_of_eq {type : NqType} {i : Int} {reg' : NqRegulator} {nqid : Int}
    (h : blkBlexSchedRandomNqid reg prio type i = some (reg', nqid)) :
    RandomInGroup reg prio type i ↔
      InGroup reg prio nqid ∧ (type = .ncq → blkBlexHasCq nqid.toNat reg.blexInfo) := by
  constructor
  · rintro ⟨reg₁, nqid₁, h_eq, h_in⟩
    rw [h] at h_eq
    cases h_eq
    exact h_in
  · intro h_in
    exact ⟨reg', nqid, h, h_in⟩

/-- Groups of one or two queues: the round robin, whatever is asked for. -/
theorem randomNqid_small_iff (h : RegWf L reg) (h_groups : 2 ≤ L.nrCqs)
    (h_prio : prio < blkBlexPrioLevel) (type : NqType) (i : Int)
    (h_small : (reg.nqGroups prio).nrAttachNsqs = 1 ∨ (reg.nqGroups prio).nrAttachNsqs = 2) :
    RandomInGroup reg prio type i ↔ RandomFits reg prio type i := by
  have h_read : reg.group? prio = some (reg.nqGroups prio) := if_pos h_prio
  obtain ⟨h_start, h_nr, -⟩ := h.group_range h_groups h_prio
  obtain ⟨reg', h_rr⟩ := rrNextNsqid_nsq h_prio h_nr
  have h_random : blkBlexSchedRandomNqid reg prio type i =
      blkBlexSchedRrNextNsqid reg prio .nsq := by
    rw [blkBlexSchedRandomNqid, h_read, Option.bind_eq_bind, Option.bind_some, if_pos h_small]
  unfold RandomFits
  rw [randomInGroup_of_eq (h_random.trans h_rr), inGroup_add_tmod_iff h_nr, if_pos h_small, RrFits,
    forall_prop_of_true rfl]
  refine and_congr_right fun h_fits => imp_congr_right fun _ => ?_
  have h_first := hasCq_kthCqid (L.groupIdx_lt h_groups h_prio)
  rw [← (h.group prio h_prio).ncqStart_eq] at h_first
  rw [h.info]
  rcases h_small with h_one | h_two
  · -- the only queue is the first
    rw [h_one, Nat.cast_one, Int.tmod_one, Int.add_zero, Int.toNat_natCast]
    exact iff_of_true h_first (Or.inl (h.nrNcqs_eq_one h_groups h_prio h_one))
  · -- of two queues an odd counter selects the second, which need not be an NCQ
    have h_second := h.second_hasCq_iff h_groups h_prio h_two
    have h_even := two_dvd_signed (reg.nqGroups prio).rrNsqOffset
    rw [h_two] at h_fits ⊢
    rw [Int.dvd_iff_tmod_eq_zero] at h_even
    have h_rem := Int.tmod_lt_of_pos (Word32.signed (reg.nqGroups prio).rrNsqOffset)
      (show (0 : Int) < 2 by decide)
    have h_nonneg := (tmod_nonneg_iff _).mpr h_fits
    rw [← h_even]
    by_cases h_zero : (Word32.signed (reg.nqGroups prio).rrNsqOffset).tmod 2 = 0
    · rw [Nat.cast_ofNat, h_zero, Int.add_zero, Int.toNat_natCast]
      exact iff_of_true h_first (Or.inr rfl)
    · have h_one : (Word32.signed (reg.nqGroups prio).rrNsqOffset).tmod 2 = 1 := by
        rw [Nat.cast_ofNat] at h_nonneg
        omega
      rw [Nat.cast_ofNat, h_one, show ((reg.nqGroups prio).ncqStart : Int) + 1 =
        ((reg.nqGroups prio).ncqStart + 1 : Nat) from rfl, Int.toNat_natCast, h_second]
      exact (or_iff_left (by decide)).symm

/-- Going back from `B` by less than half a round. -/
theorem sub_mod_lt_iff {B C n r : Nat} (h_r : r < n) (h_n : 2 * n ≤ C) (h_B : C ≤ B) :
    (B - r) % C < n ↔ r ≤ B % C ∧ B % C < r + n := by
  have h_div := Nat.div_add_mod B C
  have h_lt := Nat.mod_lt B (show 0 < C by omega)
  have h_rounds : 0 < B / C := Nat.div_pos h_B (by omega)
  by_cases h_le : r ≤ B % C
  · have h_eq : B - r = C * (B / C) + (B % C - r) := by omega
    rw [h_eq, Nat.mul_add_mod, Nat.mod_eq_of_lt (by omega)]
    omega
  · -- it ends in the second half of the round before
    obtain ⟨q, h_q⟩ := Nat.exists_eq_succ_of_ne_zero (Nat.ne_of_gt h_rounds)
    rw [h_q, Nat.mul_succ] at h_div
    have h_eq : B - r = C * q + (C + B % C - r) := by omega
    rw [h_eq, Nat.mul_add_mod, Nat.mod_eq_of_lt (by omega)]
    omega

/-- The index that a random number gives, where it is in the group's range of indices. -/
theorem randomIdx_iff (h_groups : 2 ≤ L.nrCqs) (h_bound : L.nrCqs < 2147483648)
    (h_prio : prio < blkBlexPrioLevel) (i : Int) {k : Nat}
    (h_k : k = ((i.tmod (L.groupNr prio) + L.groupIdx prio) % Word32.bound).toNat) :
    (L.groupIdx prio ≤ k % L.nrCqs ∧ k % L.nrCqs < L.groupIdx prio + L.groupNr prio) ↔
      OffsetFits (L.groupNr prio) i ∨
        prio = blkBlexTPrio ∧ WrapsBack (L.groupNr prio) L.nrCqs i := by
  have h_nr := L.groupNr_pos h_groups prio
  have h_lt := Int.tmod_lt_of_pos i (Int.natCast_pos.mpr h_nr)
  have h_end := L.groupIdx_add_lt h_groups h_prio (Nat.sub_one_lt_of_lt h_nr)
  have h_word : Word32.bound = 4294967296 := rfl
  rw [h_word] at h_k
  rcases Int.lt_or_le (i.tmod (L.groupNr prio)) 0 with h_neg | h_nonneg
  · have h_not : ¬ OffsetFits (L.groupNr prio) i := by
      rw [← tmod_nonneg_iff]
      omega
    have h_i : i < 0 := by
      by_contra h_i
      exact h_not (Or.inl (by omega))
    have h_r := Nat.mod_lt i.natAbs h_nr
    rw [tmod_of_neg h_i] at h_k h_neg
    rw [or_iff_right h_not]
    rcases prio_cases h_prio with rfl | rfl
    · -- from index 0 the negative offset wraps around
      have h_idx : L.groupIdx blkBlexTPrio = 0 := Nat.zero_mul _
      have h_half : L.groupNr blkBlexTPrio = L.nrCqs / 2 := if_neg (by decide)
      rw [h_idx] at h_k ⊢
      have h_wrap : k = Word32.bound - i.natAbs % L.groupNr blkBlexTPrio := by omega
      rw [h_wrap, Nat.zero_add, and_iff_right (Nat.zero_le _),
        sub_mod_lt_iff h_r (by omega) (by omega), WrapsBack, and_iff_right rfl]
    · -- the L group starts in the middle: the offset leads to an NCQ of the T group
      have h_idx : L.groupIdx blkBlexLPrio = L.nrCqs / 2 := Nat.one_mul _
      have h_half : L.groupNr blkBlexLPrio = L.nrCqs - L.nrCqs / 2 := by
        rw [QueueLayout.groupNr, if_pos (by decide), h_idx]
      have h_sub : k = L.groupIdx blkBlexLPrio - i.natAbs % L.groupNr blkBlexLPrio := by omega
      rw [h_sub, Nat.mod_eq_of_lt (by omega)]
      refine iff_of_false ?_ fun h_and => absurd h_and.1 (by decide)
      omega
  · -- an offset into the group wraps neither at 2^32 nor at `nr_cqs`
    have h_k' : k = (i.tmod (L.groupNr prio)).toNat + L.groupIdx prio := by omega
    rw [h_k', Nat.mod_eq_of_lt (by omega)]
    exact iff_of_true (by omega) (Or.inl ((tmod_nonneg_iff i).mp h_nonneg))

theorem randomNqid_inGroup_iff (h : RegWf L reg) (h_groups : 2 ≤ L.nrCqs)
    (h_max : L.maxNqid < 2147483648) (h_prio : prio < blkBlexPrioLevel) (type : NqType) (i : Int) :
    RandomInGroup reg prio type i ↔ RandomFits reg prio type i := by
  by_cases h_small : (reg.nqGroups prio).nrAttachNsqs = 1 ∨ (reg.nqGroups prio).nrAttachNsqs = 2
  · exact randomNqid_small_iff h h_groups h_prio type i h_small
  have h_read : reg.group? prio = some (reg.nqGroups prio) := if_pos h_prio
  have h_group := h.group prio h_prio
  obtain ⟨h_start, h_nr, h_end⟩ := h.group_range h_groups h_prio
  unfold RandomFits
  rw [if_neg h_small]
  cases type with
  | nsq =>
      have h_random : blkBlexSchedRandomNqid reg prio .nsq i = some (reg,
          (reg.nqGroups prio).ncqStart + i.tmod (reg.nqGroups prio).nrAttachNsqs) := by
        have h_lt := Int.tmod_lt_of_pos i (Int.natCast_pos.mpr h_nr)
        have h_gt := tmod_gt h_nr i
        -- the sum fits, whatever the sign of the remainder
        have h_int := Word32.signed_of_int (Word32.int_eq_some_iff.mpr
          ⟨show -2147483648 ≤ i.tmod (reg.nqGroups prio).nrAttachNsqs +
            (reg.nqGroups prio).ncqStart by omega, by omega, Int.add_comm _ _⟩)
        simp only [blkBlexSchedRandomNqid, h_read, Option.bind_eq_bind, Option.bind_some,
          if_neg h_small, if_neg (Nat.ne_of_gt h_nr), h_int]
      rw [randomInGroup_of_eq h_random, inGroup_add_tmod_iff h_nr]
      refine and_iff_left fun h_type => ?_
      cases h_type
  | ncq =>
      have h_nrNcqs : L.groupNr prio ≠ 0 := Nat.ne_of_gt (L.groupNr_pos h_groups prio)
      generalize h_k : ((i.tmod (L.groupNr prio) + L.groupIdx prio) % Word32.bound).toNat = k
      have h_random : blkBlexSchedRandomNqid reg prio .ncq i =
          some (reg, (L.kthCqid (k % L.nrCqs) : Int)) := by
        simp only [blkBlexSchedRandomNqid, h_read, Option.bind_eq_bind, Option.bind_some,
          if_neg h_small, if_neg h_nrNcqs, L.kthCqid_mod, h.info, h_group.ncqStart_eq,
          L.cqidToIndex_groupIdx h_groups h_prio, h_group.nrNcqs_eq, h_k]
        rfl
      have hk := Nat.mod_lt k L.nrCqs_pos
      have h_le := L.nrCqs_le
      rw [randomInGroup_of_eq h_random, h.inGroup_kthCqid_iff h_groups h_prio hk,
        randomIdx_iff h_groups (by omega) h_prio i h_k.symm, h_group.nrNcqs_eq, h.info,
        Int.toNat_natCast]
      exact and_iff_left fun _ => hasCq_kthCqid hk

/-- Both selections stay in the group exactly if the number they start from gives an offset into
it.  The ids are of type `int`. -/
theorem nqSelection_inGroup_iff (h : RegWf L reg) (h_groups : 2 ≤ L.nrCqs)
    (h_max : L.maxNqid < 2147483648) (h_prio : prio < blkBlexPrioLevel) (type : NqType) (i : Int) :
    (RrInGroup reg prio type ↔ RrFits reg prio type) ∧
      (RandomInGroup reg prio type i ↔ RandomFits reg prio type i) :=
  ⟨rrNextNsqid_inGroup_iff h h_groups h_prio type,
    randomNqid_inGroup_iff h h_groups h_max h_prio type i⟩

/-- The regulator with the NSQ counter of a group set. -/
def NqRegulator.setRrNsqOffset (reg : NqRegulator) (prio rrNsqOffset : Nat) : NqRegulator :=
  reg.setGroup prio { reg.nqGroups prio with rrNsqOffset }

/-- The L group of five queues, after 2^31 allocations and with a negative random number. -/
theorem nqSelection_inGroup_iff_five :
    ∃ reg, regulatorInit (.default 4) fiveNqs.toBlkBlexDevInfo (fun _ => 64) = some reg ∧
      let reg := reg.setRrNsqOffset blkBlexLPrio 2147483648
      (RrInGroup reg blkBlexLPrio .nsq ↔ RrFits reg blkBlexLPrio .nsq) ∧
        (RandomInGroup reg blkBlexLPrio .nsq (-1) ↔ RandomFits reg blkBlexLPrio .nsq (-1)) := by
  obtain ⟨reg, h_init, -⟩ := fiveNqs_initialised
  have h := (regulatorInit_wf (by decide) h_init).1
  have h_group := h.group blkBlexLPrio (by decide)
  have h_set : RegWf fiveNqs (reg.setRrNsqOffset blkBlexLPrio 2147483648) :=
    h.setGroup ⟨h_group.1, h_group.2, h_group.3, h_group.4, h_group.5⟩
  exact ⟨reg, h_init, nqSelection_inGroup_iff h_set (by decide) (by decide) (by decide) .nsq (-1)⟩

theorem not_inGroup_of_below {sel : Option (NqRegulator × Int)} {n nqid : Int}
    {reg' : NqRegulator} (h_sel : sel.map Prod.snd = some n)
    (h_below : n < (reg.nqGroups prio).ncqStart) (h_eq : sel = some (reg', nqid)) :
    ¬ InGroup reg prio nqid := by
  rw [h_eq, Option.map_some, Option.some.injEq] at h_sel
  rw [InGroup]
  omega

/-- The L group has the queues 3 to 5: both selections return a queue of the T group. -/
theorem nqSelection_leavesGroup :
    ∃ reg, regulatorInit (.default 4) fiveNqs.toBlkBlexDevInfo (fun _ => 64) = some reg ∧
      let reg := reg.setRrNsqOffset blkBlexLPrio 2147483648
      (reg.nqGroups blkBlexLPrio).ncqStart = 3 ∧
        (blkBlexSchedRrNextNsqid reg blkBlexLPrio .nsq).map Prod.snd = some 1 ∧
        (blkBlexSchedRandomNqid reg blkBlexLPrio .nsq (-1)).map Prod.snd = some 2 ∧
        (blkBlexSchedRandomNqid reg blkBlexLPrio .ncq (-1)).map Prod.snd = some 2 ∧
        ¬ RrInGroup reg blkBlexLPrio .nsq ∧ ¬ RandomInGroup reg blkBlexLPrio .nsq (-1) ∧
        ¬ RandomInGroup reg blkBlexLPrio .ncq (-1) := by
  have h_any : (regulatorInit (.default 4) fiveNqs.toBlkBlexDevInfo fun _ => 64).any (fun reg =>
      let reg := reg.setRrNsqOffset blkBlexLPrio 2147483648
      decide ((reg.nqGroups blkBlexLPrio).ncqStart = 3 ∧
        (blkBlexSchedRrNextNsqid reg blkBlexLPrio .nsq).map Prod.snd = some 1 ∧
        (blkBlexSchedRandomNqid reg blkBlexLPrio .nsq (-1)).map Prod.snd = some 2 ∧
        (blkBlexSchedRandomNqid reg blkBlexLPrio .ncq (-1)).map Prod.snd = some 2)) = true := by
    decide +kernel
  obtain ⟨reg, h_init, h_facts⟩ := (Option.any_eq_true _ _).mp h_any
  obtain ⟨h_start, h_rr, h_nsq, h_ncq⟩ := of_decide_eq_true h_facts
  refine ⟨reg, h_init, h_start, h_rr, h_nsq, h_ncq, ?_, ?_, ?_⟩
  · rintro ⟨reg', nqid, h_eq, h_in⟩
    exact not_inGroup_of_below h_rr (by omega) h_eq h_in
  · rintro ⟨reg', nqid, h_eq, h_in, -⟩
    exact not_inGroup_of_below h_nsq (by omega) h_eq h_in
  · rintro ⟨reg', nqid, h_eq, h_in, -⟩
    exact not_inGroup_of_below h_ncq (by omega) h_eq h_in

end Sched

end Daredevil
