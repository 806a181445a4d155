/-
  Daredevil.Sched.RoundRobin

  `blk_blex_recommend_nsq` in its round-robin mode, which places new tasks, on a
  regulator that has recorded nothing yet.

  The mode sinks the top NCQ of the group under an infinite merit and then stores
  its own merit, zero like all others.  Between equal merits the heap goes to the
  left child, so that only the NCQs on the left edge of the heap come up in turn.

    * `Idle`                    — nothing is recorded: every merit is zero;
    * `Idle.recommend`          — one call keeps this and rotates the left edge;
    * `roundRobin_scatters_iff` — calls as many as the group has NCQs reach all of
                                  them exactly when there are at most two.
-/
import Daredevil.Sched.Recommend

namespace Daredevil

namespace Sched

variable {L : QueueLayout} {reg reg' : NqRegulator} {env : Env}

/-- The recommendations of `n` calls in a row, round robin. -/
def recommendMany (env : Env) (prio : Nat) : Nat → NqRegulator → Option (NqRegulator × List Nat)
  | 0, reg => some (reg, [])
  | n + 1, reg => do
      let (reg, nqid) ← blkBlexRecommendNsq env reg prio true 0 0
      let (reg, nqids) ← recommendMany env prio n reg
      some (reg, nqid :: nqids)

/-! ## Idle regulators -/

/-- No statistics, and a merit of zero. -/
structure IdleEncq (encq : EnqNcq) : Prop where
  merit : encq.ncqSchedMerit = 0
  inFlight : encq.nrInFlightRqs = 0
  complete : encq.nrCompleteRqs = 0

structure IdleEnq (enq : ExposedNq) : Prop where
  merit : enq.ensq.nsqSchedMerit = 0
  submit : enq.ensq.nrSubmitRqs = 0
  encq : ∀ encq, enq.encq = some encq → IdleEncq encq

/-- A regulator of the layout `L` that has recorded nothing. -/
structure Idle (env : Env) (L : QueueLayout) (reg : NqRegulator) : Prop where
  wf : RegWf L reg
  enq : ∀ nqid, IdleEnq (reg.enqs nqid)
  /-- the arrays of the groups are about to age out -/
  mru : ∀ prio < blkBlexPrioLevel, (reg.nqGroups prio).prioArr.mru = env.prioArrMru

/-- A computed merit is zero. -/
theorem IdleEnq.calcSchedMerit {enq : ExposedNq} (h : IdleEnq enq) {type : NqType} {merit : Int}
    (h_merit : blkBlexCalcSchedMerit env type enq = some merit) : merit = 0 := by
  have h_share : meritShare env 0 = 0 := by
    rw [meritShare, Int.zero_mul]
    exact Int.zero_tdiv _
  cases type with
  | nsq =>
      simp only [blkBlexCalcSchedMerit, Option.bind_eq_bind, Option.bind_some, nsqMeritTmp,
        h.merit, h.submit, if_true, h_share] at h_merit
      split at h_merit
      · cases h_merit
      · exact (Option.some.inj h_merit).symm
  | ncq =>
      simp only [blkBlexCalcSchedMerit, Option.bind_eq_bind, Option.bind_eq_some_iff] at h_merit
      obtain ⟨⟨meritLast, meritTmp⟩, ⟨encq, h_encq, h_last⟩, h_merit⟩ := h_merit
      have h_idle := h.encq encq h_encq
      split at h_last
      · cases h_last
      · cases h_last
        have h_tmp : ncqMeritTmp encq enq.qdepth = 0 := by
          rw [ncqMeritTmp, h_idle.inFlight, h_idle.complete, Nat.zero_mul]
          show Word32.signed ((0 / enq.qdepth + 0 : Nat) : Int) = 0
          rw [Nat.zero_div]
          rfl
        rw [h_tmp, h_idle.merit, h_share] at h_merit
        split at h_merit
        · cases h_merit
        · exact (Option.some.inj h_merit).symm

theorem IdleEnq.clearOldTop {enq : ExposedNq} (h : IdleEnq enq) (type : NqType) :
    IdleEnq (clearOldTop type 0 enq) := by
  cases type with
  | ncq =>
      refine ⟨h.merit, h.submit, ?_⟩
      intro encq h_encq
      obtain ⟨encq₀, -, rfl⟩ := Option.map_eq_some_iff.mp h_encq
      exact ⟨rfl, rfl, rfl⟩
  | nsq => exact ⟨rfl, rfl, h.encq⟩

theorem updatePriorityArray_groups {arr arr' : NqPriorityArray} {mru forceMerit : Int}
    {type : NqType}
    (h_upd : blkBlexUpdatePriorityArray env reg arr mru forceMerit type = some (reg', arr')) :
    reg'.nqGroups = reg.nqGroups := by
  obtain ⟨-, rfl, -⟩ | ⟨-, _, _, _, _, -, -, -, -, ⟨-, rfl, -⟩ | ⟨-, rfl, -⟩⟩ :=
    updatePriorityArray_cases h_upd
  · rfl
  · rfl
  · rfl

/-- An update of any array keeps every queue idle. -/
theorem updatePriorityArray_idle (h : ∀ nqid, IdleEnq (reg.enqs nqid)) {arr arr' : NqPriorityArray}
    {mru forceMerit : Int} {type : NqType}
    (h_upd : blkBlexUpdatePriorityArray env reg arr mru forceMerit type = some (reg', arr')) :
    ∀ nqid, IdleEnq (reg'.enqs nqid) := by
  rcases updatePriorityArray_cases h_upd with
    ⟨-, rfl, -⟩ | ⟨-, old, merit, -, -, h_old, h_merit, -, -, ⟨-, rfl, -⟩ | ⟨-, rfl, -⟩⟩
  · exact h
  · have h_idle : IdleEnq old := by
      rw [enq?_eq_enqs h_old]
      exact h _
    rw [h_idle.calcSchedMerit h_merit]
    exact NqRegulator.setEnq_forall (P := fun _ => IdleEnq) (h_idle.clearOldTop type)
      fun nqid _ => h nqid
  · exact h

/-! ## One call -/

/-- The array of a group ages out at once and its left edge rotates. -/
theorem updatePriorityArray_rotates (h : ∀ nqid, IdleEnq (reg.enqs nqid))
    {arr arr' : NqPriorityArray} (h_mru : arr.mru = env.prioArrMru) (h_count : 0 < arr.nqCount)
    {type : NqType}
    (h_upd : blkBlexUpdatePriorityArray env reg arr env.prioArrMru blexSchedMeritInf type =
      some (reg', arr')) :
    arr'.mru = env.prioArrMru ∧ BinaryHeap.Rotates arr.nqCount 0 arr.binHeap arr'.binHeap := by
  have h_aged : ¬ 0 < Word32.signed (arr.mru - env.prioArrMru) := by
    rw [h_mru, Int.sub_self]
    decide
  rcases updatePriorityArray_cases h_upd with
    ⟨h_young, -⟩ | ⟨-, old, merit, heap, top, -, -, h_heap, -, h_new⟩
  · exact absurd h_young h_aged
  have h_const : ∀ nqid ∈ arr.binHeap, ∀ m, reg.meritOf env type nqid = some m → m = 0 := by
    intro nqid _ m h_m
    obtain ⟨enq, h_enq, h_m⟩ := Option.bind_eq_some_iff.mp h_m
    have h_idle : IdleEnq enq := by
      rw [enq?_eq_enqs h_enq]
      exact h nqid
    exact h_idle.calcSchedMerit h_m
  rw [if_pos rfl] at h_heap
  have h_rot := BinaryHeap.siftDown_rotates (Int.lt_irrefl 0) (by decide) h_const
    (Nat.le_of_eq (Nat.zero_add _).symm) h_count h_heap
  rcases h_new with ⟨-, -, rfl⟩ | ⟨-, -, rfl⟩
  · exact ⟨rfl, h_rot⟩
  · exact ⟨rfl, h_rot⟩

theorem updateNcqArr_idle (h : ∀ nqid, IdleEnq (reg.enqs nqid)) {cqid : Nat}
    {mru forceMerit : Int} (h_upd : updateNcqArr env reg cqid mru forceMerit = some reg') :
    (∀ nqid, IdleEnq (reg'.enqs nqid)) ∧ reg'.nqGroups = reg.nqGroups := by
  simp only [updateNcqArr, Option.bind_eq_bind, Option.bind_eq_some_iff, Option.some.injEq]
    at h_upd
  obtain ⟨ncq, -, encq, -, ⟨reg₁, arr⟩, h_arr, rfl⟩ := h_upd
  have h₁ := updatePriorityArray_idle h h_arr
  have h_same : reg₁.nqGroups = reg.nqGroups := updatePriorityArray_groups h_arr
  refine ⟨?_, h_same⟩
  refine NqRegulator.setEnq_forall (P := fun _ => IdleEnq)
    ⟨(h₁ cqid).merit, (h₁ cqid).submit, ?_⟩ fun nqid _ => h₁ nqid
  intro encq' h_encq'
  obtain ⟨encq₁, h_encq₁, rfl⟩ := Option.map_eq_some_iff.mp h_encq'
  have h_idle := (h₁ cqid).encq encq₁ h_encq₁
  exact ⟨h_idle.merit, h_idle.inFlight, h_idle.complete⟩

/-- The NCQs of a group, in the order of its heap. -/
def NqRegulator.ncqHeap (reg : NqRegulator) (prio : Nat) : List Nat :=
  (reg.nqGroups prio).prioArr.binHeap

theorem updateGroupArr_idle (h : Idle env L reg) {prio : Nat} (h_prio : prio < blkBlexPrioLevel)
    (h_upd : updateGroupArr env reg prio env.prioArrMru blexSchedMeritInf = some reg') :
    Idle env L reg' ∧
      BinaryHeap.Rotates (L.groupNr prio) 0 (reg.ncqHeap prio) (reg'.ncqHeap prio) := by
  have h_wf := (updateGroupArr_spec h.wf h_upd).1
  simp only [updateGroupArr, Option.bind_eq_bind, Option.bind_eq_some_iff, Option.some.injEq]
    at h_upd
  obtain ⟨group, h_group, ⟨reg₁, arr⟩, h_arr, rfl⟩ := h_upd
  obtain ⟨-, rfl⟩ := group?_some h_group
  have h_over := (h.wf.group prio h_prio).prioArr
  have h_count : (reg.nqGroups prio).prioArr.nqCount = L.groupNr prio := by
    rw [h_over.count, QueueLayout.groupNcqs, List.length_map, List.length_range]
  have h_pos : 0 < (reg.nqGroups prio).prioArr.nqCount := by
    rw [h_over.count]
    exact List.length_pos_of_mem h_over.topNq_mem
  obtain ⟨h_mru, h_rot⟩ := updatePriorityArray_rotates h.enq (h.mru prio h_prio) h_pos h_arr
  have h_groups₁ := updatePriorityArray_groups h_arr
  have h_idle : ∀ nqid, IdleEnq (reg₁.enqs nqid) := updatePriorityArray_idle h.enq h_arr
  refine ⟨⟨h_wf, h_idle, ?_⟩, ?_⟩
  · intro p h_p
    by_cases h_eq : p = prio
    · rw [h_eq, NqRegulator.nqGroups_setGroup_self]
      exact h_mru
    · rw [NqRegulator.nqGroups_setGroup_ne _ _ h_eq, h_groups₁]
      exact h.mru p h_p
  · rw [← h_count, NqRegulator.ncqHeap, NqRegulator.ncqHeap, NqRegulator.nqGroups_setGroup_self]
    exact h_rot

/-! ## The regulator after initialisation -/

theorem encqInit_idle {info : BlkBlexDevInfo} {cqid : Nat} {encq : EnqNcq}
    (h : encqInit env info cqid = some encq) : IdleEncq encq := by
  simp only [encqInit, Option.bind_eq_bind] at h
  split at h
  case isTrue =>
    obtain ⟨arr, -, h_eq⟩ := Option.bind_eq_some_iff.mp h
    cases h_eq
    exact ⟨rfl, rfl, rfl⟩
  case isFalse =>
    cases h
    exact ⟨rfl, rfl, rfl⟩

theorem prioArrInit_mru {maxHeapSz initNqCount : Nat} {nth : Nat → Nat} {arr : NqPriorityArray}
    (h : prioArrInit env maxHeapSz initNqCount nth = some arr) : arr.mru = env.prioArrMru := by
  unfold prioArrInit at h
  split at h
  case isTrue => cases h
  case isFalse =>
    cases h
    rfl

theorem nqGroupInit_mru {prio : Nat} (h_init : blkBlexNqGroupInit env reg prio = some reg') :
    (reg'.nqGroups prio).prioArr.mru = env.prioArrMru := by
  simp only [blkBlexNqGroupInit, Option.bind_eq_bind, Option.bind_eq_some_iff,
    Option.some.injEq] at h_init
  obtain ⟨arr, h_arr, rfl⟩ := h_init
  rw [NqRegulator.nqGroups_setGroup_self]
  exact prioArrInit_mru h_arr

theorem enqInit_idle (h : ∀ nqid, IdleEnq (reg.enqs nqid)) {n : Nat}
    (h_init : blkBlexEnqInit env reg n = some reg') : ∀ nqid, IdleEnq (reg'.enqs nqid) := by
  obtain ⟨cqInfo, group, encq, -, -, h_encq, rfl⟩ := enqInit_cases h_init
  refine NqRegulator.setEnq_forall (P := fun _ => IdleEnq) ⟨(h n).merit, rfl, ?_⟩
    fun nqid _ => h nqid
  intro e h_e
  obtain rfl : encq = some e := h_e
  rw [enqEncq] at h_encq
  split at h_encq
  case isTrue =>
    obtain ⟨e', h_e', h_some⟩ := Option.map_eq_some_iff.mp h_encq
    cases h_some
    exact encqInit_idle h_e'
  case isFalse => exact (h n).encq e (Option.some.inj h_encq)

theorem idle_initInv (env : Env) : InitInv env fun _ reg => ∀ nqid, IdleEnq (reg.enqs nqid) where
  attach _ _ nqid h :=
    NqRegulator.setEnq_forall (P := fun _ => IdleEnq)
      ⟨(h nqid).merit, (h nqid).submit, (h nqid).encq⟩ fun n _ => h n
  setGroup _ _ _ h := h
  enqInit _ _ _ h h_init := enqInit_idle h h_init

/-- A new regulator is idle. -/
theorem regulatorInit_idle (h_groups : 2 ≤ L.nrCqs) {qDepth : Nat → Nat}
    (h : regulatorInit env L.toBlkBlexDevInfo qDepth = some reg) : Idle env L reg := by
  have h_wf := (regulatorInit_wf h_groups h).1
  obtain ⟨reg₀, h_init, rfl⟩ := Option.map_eq_some_iff.mp h
  have h_zero : ∀ nqid, IdleEnq ((regulatorZero L.toBlkBlexDevInfo).enqs nqid) :=
    fun _ => ⟨rfl, rfl, fun _ h_none => by cases h_none⟩
  have h₀ := (idle_initInv env).allocAndInit h_zero h_init
  obtain ⟨reg₁, reg₂, h_T, h_L, h_loop⟩ := nqRegulatorInit_cases h_init
  have h_same := (enqInitLoop_groups h_loop).1
  refine ⟨h_wf, fun nqid => ⟨(h₀ nqid).merit, (h₀ nqid).submit, (h₀ nqid).encq⟩, ?_⟩
  intro prio h_prio
  show (reg₀.nqGroups prio).prioArr.mru = env.prioArrMru
  rw [h_same]
  rcases prio_cases h_prio with rfl | rfl
  · rw [(nqGroupInit_groups h_L).2.2 blkBlexTPrio (by decide)]
    exact nqGroupInit_mru h_T
  · exact nqGroupInit_mru h_L

/-- A recommended queue is attached to the first NCQ of the heap. -/
theorem recommendNsq_first (h : RegWf L reg) (h_groups : 2 ≤ L.nrCqs) {prio nqid : Nat}
    (h_prio : prio < blkBlexPrioLevel) {roundRobin : Bool} {ncqMru nsqMru : Int}
    (h_rec : blkBlexRecommendNsq env reg prio roundRobin ncqMru nsqMru = some (reg', nqid)) :
    (reg.ncqHeap prio)[0]? = some (blkBlexGetCqid nqid L.maxNqid L.nrCqs) := by
  obtain ⟨enq, ncq, h_enq, h_ncq, -, h_cqid⟩ := (recommendNsq_top h h_groups h_rec).enq
  obtain ⟨-, -, -, h_enqWf⟩ := h.enq?_some h_enq
  obtain ⟨k, hk, h_top, -⟩ := h.topNcq h_groups h_prio
  obtain ⟨-, -, -, h_ncqWf⟩ := h.enq?_some h_ncq
  have h_self := L.getCqid_of_mem_attached hk (L.kthCqid_mem_attached hk)
  rw [h_ncqWf.cqid_eq, h_enqWf.cqid_eq, h_top, h_self] at h_cqid
  rw [h_cqid, NqRegulator.ncqHeap, ← List.head?_eq_getElem?, (h.group prio h_prio).prioArr.top,
    h_top]

/-- A call on an idle regulator recommends a queue of the first NCQ and rotates the heap. -/
theorem Idle.recommend (h : Idle env L reg) (h_groups : 2 ≤ L.nrCqs) {prio nqid : Nat}
    (h_prio : prio < blkBlexPrioLevel)
    (h_rec : blkBlexRecommendNsq env reg prio true 0 0 = some (reg', nqid)) :
    Idle env L reg' ∧
      (reg.ncqHeap prio)[0]? = some (blkBlexGetCqid nqid L.maxNqid L.nrCqs) ∧
      BinaryHeap.Rotates (L.groupNr prio) 0 (reg.ncqHeap prio) (reg'.ncqHeap prio) := by
  have h_wf := (recommendNsq_spec h.wf h_groups h_rec).1
  have h_first := recommendNsq_first h.wf h_groups h_prio h_rec
  obtain ⟨-, reg₁, _, _, h_upd, -, -, h_cases⟩ := recommendNsq_cases h_rec
  obtain ⟨h₁, h_rot⟩ := updateGroupArr_idle h h_prio h_upd
  rcases h_cases with ⟨-, rfl, -⟩ | ⟨-, -, h_upd₂⟩
  · exact ⟨h₁, h_first, h_rot⟩
  · obtain ⟨h_idle, h_same⟩ := updateNcqArr_idle h₁.enq h_upd₂
    refine ⟨⟨h_wf, h_idle, ?_⟩, h_first, ?_⟩
    · rw [h_same]
      exact h₁.mru
    · rw [NqRegulator.ncqHeap, NqRegulator.ncqHeap, h_same]
      exact h_rot

/-! ## Calls in a row -/

theorem recommendMany_length {prio n : Nat} {nqids : List Nat}
    (h : recommendMany env prio n reg = some (reg', nqids)) : nqids.length = n := by
  induction n generalizing reg nqids with
  | zero =>
      cases h
      rfl
  | succ n ih =>
      simp only [recommendMany, Option.bind_eq_bind, Option.bind_eq_some_iff] at h
      obtain ⟨⟨reg₁, nqid⟩, -, ⟨reg₂, rest⟩, h_rest, h_eq⟩ := h
      cases h_eq
      rw [List.length_cons, ih h_rest]

/-- The heaps between the calls: each is the rotation of the one before, and each call
recommends a queue of the first NCQ. -/
theorem recommendMany_heaps (h : Idle env L reg) (h_groups : 2 ≤ L.nrCqs) {prio : Nat}
    (h_prio : prio < blkBlexPrioLevel) {n : Nat} {nqids : List Nat}
    (h_many : recommendMany env prio n reg = some (reg', nqids)) :
    ∃ heaps : Nat → List Nat, heaps 0 = reg.ncqHeap prio ∧
      (∀ j < n, BinaryHeap.Rotates (L.groupNr prio) 0 (heaps j) (heaps (j + 1))) ∧
      ∀ j < n, (nqids.map fun nqid => blkBlexGetCqid nqid L.maxNqid L.nrCqs)[j]? =
        (heaps j)[0]? := by
  induction n generalizing reg nqids with
  | zero => exact ⟨fun _ => reg.ncqHeap prio, rfl, fun j h_j => by omega, fun j h_j => by omega⟩
  | succ n ih =>
      simp only [recommendMany, Option.bind_eq_bind, Option.bind_eq_some_iff] at h_many
      obtain ⟨⟨reg₁, nqid⟩, h_rec, ⟨reg₂, rest⟩, h_rest, h_eq⟩ := h_many
      cases h_eq
      obtain ⟨h₁, h_first, h_rot⟩ := h.recommend h_groups h_prio h_rec
      obtain ⟨heaps, h_start, h_rots, h_tops⟩ := ih h₁ h_rest
      refine ⟨fun j => Nat.casesOn j (reg.ncqHeap prio) heaps, rfl, ?_, ?_⟩
      · intro j h_j
        cases j with
        | zero =>
            show BinaryHeap.Rotates _ 0 (reg.ncqHeap prio) (heaps 0)
            rw [h_start]
            exact h_rot
        | succ j => exact h_rots j (Nat.lt_of_succ_lt_succ h_j)
      · intro j h_j
        cases j with
        | zero => exact h_first.symm
        | succ j => exact h_tops j (Nat.lt_of_succ_lt_succ h_j)

theorem recommendMany_isSome (h : RegWf L reg) (h_groups : 2 ≤ L.nrCqs)
    (h_div : Divides env L reg) {prio : Nat} (h_prio : prio < blkBlexPrioLevel) (n : Nat) :
    ∃ r, recommendMany env prio n reg = some r := by
  induction n generalizing reg with
  | zero => exact ⟨_, rfl⟩
  | succ n ih =>
      obtain ⟨⟨reg₁, nqid⟩, h_rec⟩ := recommendNsq_isSome h h_groups h_div h_prio true 0 0
      obtain ⟨r, h_rest⟩ := ih (recommendNsq_spec h h_groups h_rec).1
        (h_div.of_sameDepths (SameDepths.arraySteps.recommendNsq h_rec))
      simp only [recommendMany, h_rec, h_rest, Option.bind_eq_bind, Option.bind_some]
      exact ⟨_, rfl⟩

/-- The NCQs of the calls are different exactly when there are at most two. -/
theorem Idle.nodup_iff (h : Idle env L reg) (h_groups : 2 ≤ L.nrCqs) {prio : Nat}
    (h_prio : prio < blkBlexPrioLevel) {nqids : List Nat}
    (h_many : recommendMany env prio (L.groupNr prio) reg = some (reg', nqids)) :
    (nqids.map fun nqid => blkBlexGetCqid nqid L.maxNqid L.nrCqs).Nodup ↔
      L.groupNr prio ≤ 2 := by
  obtain ⟨heaps, h_start, h_rots, h_tops⟩ := recommendMany_heaps h h_groups h_prio h_many
  have h_len : (nqids.map fun nqid => blkBlexGetCqid nqid L.maxNqid L.nrCqs).length =
      L.groupNr prio := by rw [List.length_map, recommendMany_length h_many]
  constructor
  · intro h_nodup
    by_contra h_large
    -- the first NCQ comes up again before all have come up
    obtain ⟨e, h_e, h_last, h_end⟩ :=
      BinaryHeap.exists_edge (show 3 ≤ L.groupNr prio by omega)
    have h_again := BinaryHeap.rotates_returns (fun j h_j => h_rots j (by omega)) h_last h_end
    rw [← h_tops 0 (by omega), ← h_tops (e + 1) h_e] at h_again
    have h_same := (List.getElem?_inj (by omega) h_nodup).mp h_again
    omega
  · intro h_small
    have h_pos := L.groupNr_pos h_groups prio
    rcases Nat.lt_or_ge (L.groupNr prio) 2 with h_one | h_two
    · exact List.nodup_iff_getElem?_ne_getElem?.mpr fun i j h_i h_j => by omega
    · -- the second call takes the left child of the root, another NCQ
      have h_heap : (heaps 0).Nodup := by
        rw [h_start]
        exact (h.wf.group prio h_prio).prioArr.perm.nodup_iff.mpr (L.groupNcqs_nodup h_groups h_prio)
      have h_heapLen : (heaps 0).length = L.groupNr prio := by
        rw [h_start, NqRegulator.ncqHeap, (h.wf.group prio h_prio).prioArr.perm.length_eq,
          QueueLayout.groupNcqs, List.length_map, List.length_range]
      have h_second : (heaps 1)[0]? = (heaps 0)[1]? :=
        (h_rots 0 (by omega) 0 h_pos).trans (if_pos h_two)
      refine List.nodup_iff_getElem?_ne_getElem?.mpr fun i j h_ij h_j => ?_
      have h_i : i = 0 := by omega
      have h_j1 : j = 1 := by omega
      rw [h_i, h_j1, h_tops 0 (by omega), h_tops 1 (by omega), h_second]
      intro h_eq
      have := (List.getElem?_inj (by omega) h_heap).mp h_eq
      omega

theorem recommendMany_range (h : RegWf L reg) (h_groups : 2 ≤ L.nrCqs) {prio n : Nat}
    {nqids : List Nat} (h_many : recommendMany env prio n reg = some (reg', nqids)) :
    ∀ nqid ∈ nqids, 1 ≤ nqid ∧ nqid ≤ L.maxNqid := by
  induction n generalizing reg nqids with
  | zero =>
      cases h_many
      intro nqid h_mem
      cases h_mem
  | succ n ih =>
      simp only [recommendMany, Option.bind_eq_bind, Option.bind_eq_some_iff] at h_many
      obtain ⟨⟨reg₁, nqid⟩, h_rec, ⟨reg₂, rest⟩, h_rest, h_eq⟩ := h_many
      cases h_eq
      obtain ⟨h₁, -, h_pos, h_le, -⟩ := recommendNsq_spec h h_groups h_rec
      intro n h_mem
      cases h_mem with
      | head => exact ⟨h_pos, h_le⟩
      | tail _ h_mem => exact ih h₁ h_rest n h_mem

/-- The NCQs that the queues `nqids` are attached to. -/
def NqRegulator.ncqsOf (reg : NqRegulator) (nqids : List Nat) : List Nat :=
  nqids.map fun nqid => (reg.enqs nqid).cqid

/-- As many calls as the group has NCQs reach different NCQs, for a group of at most two. -/
theorem roundRobin_scatters_iff {qDepth : Nat → Nat} {reg₀ : NqRegulator}
    (h_init : regulatorInit env L.toBlkBlexDevInfo qDepth = some reg₀) {prio : Nat}
    (h_prio : prio < blkBlexPrioLevel) :
    (∀ reg nqids, recommendMany env prio (L.groupNr prio) reg₀ = some (reg, nqids) →
      ((reg₀.ncqsOf nqids).Nodup ↔ L.groupNr prio ≤ 2)) ∧
    -- the calls fail only where they divide by zero
    (2 ≤ L.nrCqs → Divides env L reg₀ →
      ∃ r, recommendMany env prio (L.groupNr prio) reg₀ = some r) := by
  constructor
  · intro reg nqids h_many
    rcases Nat.lt_or_ge L.nrCqs 2 with h_one | h_groups
    · -- a single NCQ, or none
      have h_nr : L.groupNr prio ≤ 1 := by
        have h_div := Nat.div_le_self L.nrCqs blkBlexPrioLevel
        unfold QueueLayout.groupNr
        split <;> omega
      have h_len := recommendMany_length h_many
      have h_short : (reg₀.ncqsOf nqids).Nodup := by
        apply List.nodup_iff_getElem?_ne_getElem?.mpr
        intro i j h_ij h_j
        rw [NqRegulator.ncqsOf, List.length_map] at h_j
        omega
      exact ⟨fun _ => by omega, fun _ => h_short⟩
    · have h_idle := regulatorInit_idle h_groups h_init
      have h_cqids : reg₀.ncqsOf nqids =
          nqids.map fun nqid => blkBlexGetCqid nqid L.maxNqid L.nrCqs := by
        apply List.map_congr_left
        intro nqid h_mem
        obtain ⟨h_pos, h_le⟩ := recommendMany_range h_idle.wf h_groups h_many nqid h_mem
        exact (h_idle.wf.enq nqid h_pos h_le).cqid_eq
      rw [h_cqids]
      exact h_idle.nodup_iff h_groups h_prio h_many
  · intro h_groups h_div
    exact recommendMany_isSome (regulatorInit_wf h_groups h_init).1 h_groups h_div h_prio _

/-- Five queues, each with its own NCQ: two in the T group and three in the L group. -/
def fiveNqs : QueueLayout := ⟨⟨5, 5⟩, by decide, by decide⟩

theorem fiveNqs_initialised :
    ∃ reg₀, regulatorInit (.default 4) fiveNqs.toBlkBlexDevInfo (fun _ => 64) = some reg₀ ∧
      (recommendMany (.default 4) blkBlexLPrio 3 reg₀).map Prod.snd = some [3, 4, 3] := by
  have h_some : (regulatorInit (.default 4) fiveNqs.toBlkBlexDevInfo fun _ => 64).bind
      (fun reg₀ => (recommendMany (.default 4) blkBlexLPrio 3 reg₀).map Prod.snd) =
        some [3, 4, 3] := by
    decide +kernel
  exact Option.bind_eq_some_iff.mp h_some

/-- The T group of five queues. -/
theorem roundRobin_scatters_iff_five :
    ∃ reg₀, regulatorInit (.default 4) fiveNqs.toBlkBlexDevInfo (fun _ => 64) = some reg₀ ∧
      blkBlexTPrio < blkBlexPrioLevel ∧
      (∀ reg nqids, recommendMany (.default 4) blkBlexTPrio 2 reg₀ = some (reg, nqids) →
        ((reg₀.ncqsOf nqids).Nodup ↔ 2 ≤ 2)) ∧
      (2 ≤ fiveNqs.nrCqs → Divides (.default 4) fiveNqs reg₀ →
        ∃ r, recommendMany (.default 4) blkBlexTPrio 2 reg₀ = some r) := by
  obtain ⟨reg₀, h_init, -⟩ := fiveNqs_initialised
  exact ⟨reg₀, h_init, by decide, roundRobin_scatters_iff h_init (by decide)⟩

/-- Three calls on the L group: the third comes back to the first NCQ, and NCQ `5` is
not reached. -/
theorem roundRobin_repeats :
    ∃ reg₀ reg nqids,
      regulatorInit (.default 4) fiveNqs.toBlkBlexDevInfo (fun _ => 64) = some reg₀ ∧
      0 < (Env.default 4).prioArrMru ∧ fiveNqs.groupNr blkBlexLPrio = 3 ∧
      recommendMany (.default 4) blkBlexLPrio 3 reg₀ = some (reg, nqids) ∧
      ¬ (reg₀.ncqsOf nqids).Nodup := by
  obtain ⟨reg₀, h_init, h_many⟩ := fiveNqs_initialised
  obtain ⟨⟨reg, nqids⟩, h_many, rfl⟩ := Option.map_eq_some_iff.mp h_many
  refine ⟨reg₀, reg, [3, 4, 3], h_init, by decide, by decide, h_many, ?_⟩
  intro h_nodup
  have h_ne := List.nodup_iff_getElem?_ne_getElem?.mp h_nodup 0 2 (by decide) (by decide : 2 < 3)
  exact h_ne rfl

end Sched

end Daredevil
