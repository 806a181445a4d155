/-
  Daredevil.Nvme.Reset

  The two copies of the queue layout across resets.  The driver computes with
  `dev->max_qid` and `dev->nr_cqs`, which every reset chooses again; the block layer
  computes with `blex_info`, which is copied from them, with one `enqs` entry for each
  queue, when the tag set is allocated, and never again:
  `nvme_pci_update_nr_queues` changes the number of hardware queues only.

  A reset ends with a device as `Nvme.Setup` leaves it (`SetupOutcome`).
  `resets_agree` says which resets keep the two sides together.
-/
import Daredevil.Nvme.Setup

namespace Daredevil.Nvme.Reset

/-! ## The block layer's copy -/

/-- The part of `struct blk_blex_exposed_nq` fixed by the layout. -/
structure ExposedNq where
  nqid : Nat
  cqid : Nat
  deriving DecidableEq, Repr

/-- `blk_blex_enq_init` -/
def blkBlexEnqInit (info : BlkBlexDevInfo) (nqid : Nat) : ExposedNq :=
  ⟨nqid, blkBlexGetCqid nqid info.maxNqid info.nrCqs⟩

/-- The `enqs` array of `blk_blex_nq_regulator_alloc_and_init`. -/
def regulatorEnqs (info : BlkBlexDevInfo) : List ExposedNq :=
  (List.range' 1 info.maxNqid).map (blkBlexEnqInit info)

/-- The part of `dev->tagset` that depends on the layout. -/
structure BlexTagSet where
  nrHwQueues : Nat
  blexInfo : BlkBlexDevInfo
  enqs : List ExposedNq

/-- `nvme_pci_alloc_tag_set`, for more than one I/O queue; `none` when an allocation fails. -/
def nvmePciAllocTagSet (alloc : Bool) (dev : NvmeDev) : Option BlexTagSet :=
  if alloc then
    -- `nvme_blex_init_blex_dev_info`
    some { nrHwQueues := dev.onlineQueues - 1, blexInfo := dev.info, enqs := regulatorEnqs dev.info }
  else none

/-- `nvme_pci_update_nr_queues`; when `blk_mq_update_nr_hw_queues` fails the old number stays. -/
def nvmePciUpdateNrQueues (update : Bool) (dev : NvmeDev) (set : BlexTagSet) : BlexTagSet :=
  if update then { set with nrHwQueues := dev.onlineQueues - 1 } else set

/-- The entry of `set->tags` that `nvme_queue_tagset` looks completions on queue `qid` up in. -/
def nvmeQueueTagset (set : BlexTagSet) (qid : Nat) : Nat := blkBlexGetTagIdx (qid - 1) set.blexInfo

/-! ## Resets -/

/-- A device that `nvme_setup_io_queues` has set up, with at least two completion queues. -/
structure SetupOutcome where
  dev : NvmeDev
  two_le_nrCqs : 2 ≤ dev.nrCqs
  settled : Settled dev
  assoc : AssocInv dev

/-- Every setup that returns 0 with I/O queues online, on two or more completion queues. -/
def SetupOutcome.ofSetup {plat : Platform} {s : Nvme.State}
    (h : Lts.Reach (Nvme.step plat) Lts.anyStep Probed s) (h_phase : s.phase = .returned 0)
    (h_online : 2 ≤ s.dev.onlineQueues) (h_cqs : 2 ≤ s.dev.nrCqs) : SetupOutcome where
  dev := s.dev
  two_le_nrCqs := h_cqs
  settled := ((reach_inv h).returned h_phase).settled h_online
  assoc := (reach_inv h).dev.assoc

/-- The device of the last reset and the tag set, if it is allocated. -/
structure State where
  dev : NvmeDev
  set : Option BlexTagSet

inductive Event where
  /-- `ok`: allocating or updating the tag set succeeds -/
  | reset (outcome : SetupOutcome) (ok : Bool)

/-- The rest of `nvme_reset_work` when `nvme_setup_io_queues` ended with `outcome`. -/
def step (s : State) : Event → Option State
  | .reset outcome ok =>
      some
        { dev := outcome.dev
          set := match s.set with
            | none => nvmePciAllocTagSet ok outcome.dev
            | some set => some (nvmePciUpdateNrQueues ok outcome.dev set) }

/-- No reset has run. -/
def Unprobed (s : State) : Prop := s.set = none

/-! ## Agreement -/

/-- For every online I/O queue, requests allocate from the tag set that completions on its CQ are
    looked up in, and the queue's `enqs` entry names that CQ. -/
def Agrees (s : State) : Prop :=
  ∀ set, s.set = some set → ∀ qid, 1 ≤ qid → qid < s.dev.onlineQueues →
    blkBlexGetTagIdx (qid - 1) set.blexInfo = nvmeQueueTagset set (s.dev.sqCqid qid) ∧
      ∃ enq, set.enqs[qid - 1]? = some enq ∧ enq.cqid = s.dev.sqCqid qid

/-- The second layout has no more queues than the first, on the same CQs. -/
def SameCqs (old new : BlkBlexDevInfo) : Prop :=
  new.maxNqid ≤ old.maxNqid ∧ ∀ qid, 1 ≤ qid → qid ≤ new.maxNqid →
    blkBlexGetCqid qid new.maxNqid new.nrCqs = blkBlexGetCqid qid old.maxNqid old.nrCqs

/-- The reset leaves the queues on the CQs that the tag set was allocated for. -/
def LayoutKept (s : State) : Event → Prop
  | .reset outcome _ => ∀ set, s.set = some set → SameCqs set.blexInfo outcome.dev.info

/-- The tag set comes from a layout with at least one completion queue. -/
structure SetInv (set : BlexTagSet) : Prop where
  nrCqs_pos : 1 ≤ set.blexInfo.nrCqs
  nrCqs_le : set.blexInfo.nrCqs ≤ set.blexInfo.maxNqid
  enqs : set.enqs = regulatorEnqs set.blexInfo

theorem regulatorEnqs_getElem {info : BlkBlexDevInfo} {qid : Nat} (h_qid : 1 ≤ qid) :
    (regulatorEnqs info)[qid - 1]? =
      if qid ≤ info.maxNqid then some (blkBlexEnqInit info qid) else none := by
  rw [regulatorEnqs, List.getElem?_map]
  split
  case isTrue h_le =>
    rw [List.getElem?_range' (by omega), Option.map_some]
    rw [Nat.one_mul, Nat.add_sub_cancel' h_qid]
  case isFalse h_gt =>
    rw [List.getElem?_eq_none (by rw [List.length_range']; omega), Option.map_none]

/-- The `enqs` entries alone already pin the layout. -/
theorem agrees_iff_sameCqs {set : BlexTagSet} (h_set : SetInv set) (outcome : SetupOutcome) :
    Agrees ⟨outcome.dev, some set⟩ ↔ SameCqs set.blexInfo outcome.dev.info := by
  have h_online := outcome.settled.online
  have h_assoc := outcome.assoc
  constructor
  · intro h_agrees
    -- every online queue has an entry, and the entry names the CQ that its SQ is attached to
    have h_cqid : ∀ qid, 1 ≤ qid → qid ≤ outcome.dev.maxQid → qid ≤ set.blexInfo.maxNqid ∧
        blkBlexGetCqid qid set.blexInfo.maxNqid set.blexInfo.nrCqs = outcome.dev.sqCqid qid := by
      intro qid h_qid h_le
      obtain ⟨-, enq, h_enq, h_eq⟩ :=
        h_agrees set rfl qid h_qid (by show qid < outcome.dev.onlineQueues; omega)
      rw [h_set.enqs, regulatorEnqs_getElem h_qid] at h_enq
      split at h_enq
      case isFalse => cases h_enq
      case isTrue h_max =>
        cases h_enq
        exact ⟨h_max, h_eq⟩
    have h_pos : 1 ≤ outcome.dev.maxQid :=
      Nat.le_trans outcome.settled.nrCqs_pos outcome.settled.nrCqs_le
    refine ⟨(h_cqid outcome.dev.maxQid h_pos (Nat.le_refl _)).1, ?_⟩
    intro qid h_qid h_le
    rw [(h_cqid qid h_qid h_le).2]
    have h_le : qid ≤ outcome.dev.maxQid := h_le
    exact (h_assoc qid h_qid (by omega)).symm
  · rintro ⟨h_max, h_cqid⟩ set' h_eq qid h_qid h_lt
    cases h_eq
    have h_lt : qid < outcome.dev.onlineQueues := h_lt
    have h_max : outcome.dev.maxQid ≤ set.blexInfo.maxNqid := h_max
    have h_cqid : outcome.dev.sqCqid qid =
        blkBlexGetCqid qid set.blexInfo.maxNqid set.blexInfo.nrCqs := by
      rw [h_assoc qid h_qid h_lt]
      exact h_cqid qid h_qid (by show qid ≤ outcome.dev.maxQid; omega)
    refine ⟨?_, blkBlexEnqInit set.blexInfo qid, ?_, h_cqid.symm⟩
    · -- a queue and its CQ have one tag index in any layout
      rw [nvmeQueueTagset]
      show _ = blkBlexGetTagIdx (outcome.dev.sqCqid qid - 1) set.blexInfo
      rw [h_cqid, blkBlexGetTagIdx_getCqid h_set.nrCqs_pos h_set.nrCqs_le h_qid]
    · rw [h_set.enqs, regulatorEnqs_getElem h_qid, if_pos (by omega)]

theorem SameCqs.refl (info : BlkBlexDevInfo) : SameCqs info info :=
  ⟨Nat.le_refl _, fun _ _ _ => rfl⟩

theorem nvmePciUpdateNrQueues_setInv {set : BlexTagSet} (h : SetInv set) (ok : Bool)
    (dev : NvmeDev) : SetInv (nvmePciUpdateNrQueues ok dev set) := by
  rw [nvmePciUpdateNrQueues]
  split
  · exact ⟨h.nrCqs_pos, h.nrCqs_le, h.enqs⟩
  · exact h

theorem nvmePciUpdateNrQueues_blexInfo (set : BlexTagSet) (ok : Bool) (dev : NvmeDev) :
    (nvmePciUpdateNrQueues ok dev set).blexInfo = set.blexInfo := by
  rw [nvmePciUpdateNrQueues]
  split <;> rfl

theorem nvmePciAllocTagSet_setInv {outcome : SetupOutcome} {ok : Bool} {set : BlexTagSet}
    (h : nvmePciAllocTagSet ok outcome.dev = some set) :
    SetInv set ∧ set.blexInfo = outcome.dev.info := by
  rw [nvmePciAllocTagSet] at h
  split at h
  case isFalse => cases h
  case isTrue =>
    cases h
    exact ⟨⟨outcome.settled.nrCqs_pos, outcome.settled.nrCqs_le, rfl⟩, rfl⟩

theorem step_setInv {s s' : State} {e : Event} (h : ∀ set, s.set = some set → SetInv set)
    (h_step : step s e = some s') : ∀ set, s'.set = some set → SetInv set := by
  cases e with
  | reset outcome ok =>
      rw [step, Option.some.injEq] at h_step
      subst h_step
      intro set h_set
      cases h_old : s.set with
      | none =>
          simp only [h_old] at h_set
          exact (nvmePciAllocTagSet_setInv h_set).1
      | some old =>
          simp only [h_old, Option.some.injEq] at h_set
          rw [← h_set]
          exact nvmePciUpdateNrQueues_setInv (h old h_old) ok outcome.dev

theorem reach_setInv {ok : State → Event → Prop} {s : State} (h : Lts.Reach step ok Unprobed s) :
    ∀ set, s.set = some set → SetInv set := by
  refine h.invariant (?_) fun _ _ _ h_inv _ h_step =>
    step_setInv h_inv h_step
  intro s h_init set h_set
  rw [h_init] at h_set
  cases h_set

/-- One reset: the sides agree after it exactly if it kept the CQs of the tag set. -/
theorem step_agrees_iff {s s' : State} {e : Event} (h : ∀ set, s.set = some set → SetInv set)
    (h_step : step s e = some s') : Agrees s' ↔ LayoutKept s e := by
  cases e with
  | reset outcome ok =>
      rw [step, Option.some.injEq] at h_step
      subst h_step
      cases h_old : s.set with
      | none =>
          -- the first tag set is allocated for the layout of this reset
          refine iff_of_true (?_) ?_
          · intro set h_set
            simp only at h_set
            obtain ⟨h_inv, h_info⟩ := nvmePciAllocTagSet_setInv h_set
            refine (agrees_iff_sameCqs h_inv outcome).mpr ?_ set rfl
            rw [h_info]
            exact .refl _
          · intro set h_set
            rw [h_old] at h_set
            cases h_set
      | some old =>
          have h_inv := nvmePciUpdateNrQueues_setInv (h old h_old) ok outcome.dev
          simp only
          rw [agrees_iff_sameCqs h_inv, nvmePciUpdateNrQueues_blexInfo]
          constructor
          · intro h_same set h_set
            rw [h_old] at h_set
            cases h_set
            exact h_same
          · intro h_kept
            exact h_kept old h_old

/-- In every run whose resets all keep the CQs of the tag set, the driver and the block layer
    agree in every state reached; and a reset of any run that does not keep them ends the
    agreement. -/
theorem resets_agree (s : State) :
    (Lts.Reach step LayoutKept Unprobed s → Agrees s) ∧
      (Lts.Reach step Lts.anyStep Unprobed s → ∀ e s', step s e = some s' →
        (Agrees s' ↔ LayoutKept s e)) := by
  constructor
  · intro h
    cases h with
    | init h_init =>
        intro set h_set
        rw [h_init] at h_set
        cases h_set
    | step h_reach h_kept h_step =>
        exact (step_agrees_iff (reach_setInv h_reach) h_step).mpr h_kept
  · intro h e s' h_step
    exact step_agrees_iff (reach_setInv h) h_step

/-! ### Concrete resets -/

/-- Four CPUs, and a controller without quirks. -/
def fourCpus : Platform := ⟨4, false, false⟩

/-- The first setup of four queues with `vecs` vectors. -/
def fourQueuesVecs (vecs : Int) : Nvme.State :=
  setupAttempt fourCpus (attemptVecs vecs fun _ => queueOk) 4
    (nvmeResetWork (resetGranting 4) (.probed 5)).dev

/-- A second reset that grants `vecs` vectors. -/
def againVecs (s : Nvme.State) (vecs : Int) : Nvme.State :=
  setupAttempt fourCpus (attemptVecs vecs fun _ => queueOk) 4
    (nvmeResetWork (resetGranting 4) (nvmeResetWorkFinish true s.dev)).dev

theorem fourQueuesVecs_reach (vecs : Int) :
    Lts.Reach (Nvme.step fourCpus) Lts.anyStep Probed (fourQueuesVecs vecs) :=
  ((Lts.Reach.init ⟨5, rfl⟩).step (e := .reset (resetGranting 4)) trivial rfl).step
    (e := .attempt (attemptVecs vecs fun _ => queueOk)) trivial rfl

theorem againVecs_reach (vecs : Int) :
    Lts.Reach (Nvme.step fourCpus) Lts.anyStep Probed (againVecs (fourQueuesVecs 5) vecs) := by
  have h_finish : Lts.Reach (Nvme.step fourCpus) Lts.anyStep Probed
      ⟨nvmeResetWorkFinish true (fourQueuesVecs 5).dev, .idle⟩ :=
    (fourQueuesVecs_reach 5).step (e := .finish true) trivial rfl
  exact (h_finish.step (e := .reset (resetGranting 4)) trivial rfl).step
    (e := .attempt (attemptVecs vecs fun _ => queueOk)) trivial rfl

/-- Four queues on four completion queues. -/
def onFourCqs : SetupOutcome :=
  .ofSetup (fourQueuesVecs_reach 5) (by decide) (by decide) (by decide)

/-- The same device after a reset that granted two vectors less: two completion queues. -/
def onTwoCqs : SetupOutcome :=
  .ofSetup (againVecs_reach 3) (by decide) (by decide) (by decide)

/-- The state after the first reset and one with `outcome`. -/
def afterReset (outcome : SetupOutcome) : State :=
  ⟨outcome.dev, (nvmePciAllocTagSet true onFourCqs.dev).map (nvmePciUpdateNrQueues true outcome.dev)⟩

theorem resets_agree_onFourCqs : Agrees (afterReset onFourCqs) := by
  have h_init : Lts.Reach step LayoutKept Unprobed ⟨onFourCqs.dev, none⟩ := .init rfl
  have h_first : Lts.Reach step LayoutKept Unprobed
      ⟨onFourCqs.dev, nvmePciAllocTagSet true onFourCqs.dev⟩ :=
    h_init.step (e := .reset onFourCqs true) (fun _ h_set => by cases h_set) rfl
  refine (resets_agree (afterReset onFourCqs)).1
    (h_first.step (e := .reset onFourCqs true) (?_) rfl)
  intro set h_set
  cases h_set
  exact .refl _

/-- After the reset with fewer vectors queue 2 completes on queue 1, but its requests still
    allocate from the tag set, and its `enqs` entry still names the CQ, of queue 2. -/
theorem resets_disagree_onTwoCqs :
    ∃ s, Lts.Reach step Lts.anyStep Unprobed s ∧ s.dev.sqCqid 2 = 1 ∧
      (s.set.map fun set => (blkBlexGetTagIdx 1 set.blexInfo, nvmeQueueTagset set 1,
        set.enqs[1]?)) = some (1, 0, some ⟨2, 2⟩) ∧ ¬ Agrees s := by
  have h_init : Lts.Reach step Lts.anyStep Unprobed ⟨onFourCqs.dev, none⟩ := .init rfl
  have h_first : Lts.Reach step Lts.anyStep Unprobed
      ⟨onFourCqs.dev, nvmePciAllocTagSet true onFourCqs.dev⟩ :=
    h_init.step (e := .reset onFourCqs true) trivial rfl
  refine ⟨afterReset onTwoCqs, h_first.step (e := .reset onTwoCqs true) trivial rfl, by decide,
    by decide, ?_⟩
  intro h
  have h_tags := (h _ rfl 2 (by decide) (by decide)).1
  revert h_tags
  decide

end Daredevil.Nvme.Reset
