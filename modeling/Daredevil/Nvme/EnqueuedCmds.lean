/-
  Daredevil.Nvme.EnqueuedCmds

  `blex_nvme_nr_enqueued_cmds` (`drivers/nvme/host/pci.c`): how many commands have been
  copied into a submission queue since its doorbell was last written.  It computes the
  number from the tail and the last doorbell, two 16-bit indices that wrap at `q_depth`.

  When the tail has wrapped and the doorbell has not, it adds `sqes`, the shift of the
  size of an entry, where the number of entries `q_depth` belongs.

    * `nextIndex_toNat`       — the indices advance as in a ring;
    * `SameIndices`           — the queues of `Nvme.Overflow` do not see their width;
    * `Inv.ahead_eq`          — the two indices determine the number;
    * `nrEnqueuedCmds_eq`     — what the function makes of them;
    * `nrEnqueuedCmds_eq_iff` — it is right just when the commands do not reach past the
                                end of the ring.
-/
import Daredevil.Lib.Lts
import Daredevil.Nvme.Overflow

namespace Daredevil.Nvme.EnqueuedCmds

/-! ## Source functions -/

/-- The fields of `struct nvme_queue` on the submission side. -/
structure NvmeQueue where
  qDepth : UInt32
  sqTail : UInt16
  lastSqTail : UInt16
  sqes : UInt8
  /-- the register at `q_db` -/
  qDb : UInt32
  /-- the shadow doorbell at `dbbuf_sq_db`; `none` for NULL -/
  dbbufSqDb : Option UInt32
  deriving DecidableEq, Repr

/-- `blex_nvme_nr_enqueued_cmds` -/
def blexNvmeNrEnqueuedCmds (nvmeq : NvmeQueue) : Int :=
  let absDis : Int := ((nvmeq.sqTail.toNat : Int) - nvmeq.lastSqTail.toNat).natAbs
  if nvmeq.lastSqTail ≤ nvmeq.sqTail then absDis else nvmeq.sqes.toNat - absDis

/-- `nvme_dbbuf_need_event` -/
def nvmeDbbufNeedEvent (eventIdx newIdx old : UInt16) : Bool :=
  newIdx - eventIdx - 1 < newIdx - old

/-- `nvme_dbbuf_update_and_check_event`: the shadow doorbell, and if the register is to be written;
    `dbbufEi` is what the controller has left at `dbbuf_ei`. -/
def nvmeDbbufUpdateAndCheckEvent (value : UInt16) (dbbufDb : Option UInt32) (dbbufEi : UInt32) :
    Option UInt32 × Bool :=
  match dbbufDb with
  | none => (none, true)
  | some old =>
      (some value.toUInt32, nvmeDbbufNeedEvent dbbufEi.toUInt16 value old.toUInt16)

/-- The index after `i`, as both `nvme_sq_copy_cmd` and `nvme_write_sq_db` compute it. -/
def nextIndex (qDepth : UInt32) (i : UInt16) : UInt16 :=
  if (i + 1).toUInt32 = qDepth then 0 else i + 1

/-- `nvme_write_sq_db` returns early. -/
def deferred (nvmeq : NvmeQueue) (writeSq : Bool) : Bool :=
  !writeSq && nextIndex nvmeq.qDepth nvmeq.sqTail != nvmeq.lastSqTail

/-- `nvme_write_sq_db` -/
def nvmeWriteSqDb (nvmeq : NvmeQueue) (writeSq : Bool) (dbbufEi : UInt32) : NvmeQueue :=
  if deferred nvmeq writeSq then nvmeq
  else
    let (dbbufSqDb, event) :=
      nvmeDbbufUpdateAndCheckEvent nvmeq.sqTail nvmeq.dbbufSqDb dbbufEi
    { nvmeq with
      dbbufSqDb := dbbufSqDb
      qDb := if event then nvmeq.sqTail.toUInt32 else nvmeq.qDb
      lastSqTail := nvmeq.sqTail }

/-- `nvme_sq_copy_cmd`, without the copy. -/
def nvmeSqCopyCmd (nvmeq : NvmeQueue) : NvmeQueue :=
  { nvmeq with sqTail := nextIndex nvmeq.qDepth nvmeq.sqTail }

/-- `nvme_init_queue`, which may give the queue a shadow doorbell. -/
def nvmeInitQueue (nvmeq : NvmeQueue) (dbbufSqDb : Option UInt32) : NvmeQueue :=
  { nvmeq with sqTail := 0, lastSqTail := 0, dbbufSqDb := dbbufSqDb }

/-- Where the controller looks for the tail: the shadow doorbell, if there is one. -/
def doorbell (nvmeq : NvmeQueue) : UInt32 := nvmeq.dbbufSqDb.getD nvmeq.qDb

/-- A call that does not return early writes the tail to the doorbell. -/
theorem doorbell_nvmeWriteSqDb {nvmeq : NvmeQueue} {writeSq : Bool} (dbbufEi : UInt32)
    (h : deferred nvmeq writeSq = false) :
    doorbell (nvmeWriteSqDb nvmeq writeSq dbbufEi) = nvmeq.sqTail.toUInt32 := by
  rw [nvmeWriteSqDb, h, if_neg Bool.false_ne_true]
  unfold doorbell nvmeDbbufUpdateAndCheckEvent
  cases nvmeq.dbbufSqDb with
  | none => rfl
  | some old => rfl

/-! ## Runs -/

structure State where
  nvmeq : NvmeQueue
  /-- the commands copied since the last actual doorbell write -/
  unrung : Nat

inductive Event where
  | copyCmd
  | writeSqDb (writeSq : Bool) (dbbufEi : UInt32)

def step (s : State) : Event → Option State
  | .copyCmd => some ⟨nvmeSqCopyCmd s.nvmeq, s.unrung + 1⟩
  | .writeSqDb writeSq dbbufEi =>
      some ⟨nvmeWriteSqDb s.nvmeq writeSq dbbufEi, if deferred s.nvmeq writeSq then s.unrung else 0⟩

/-- Fewer than `q_depth` commands between two doorbell writes. -/
def Room (s : State) : Event → Prop
  | .copyCmd => s.unrung + 1 < s.nvmeq.qDepth.toNat
  | .writeSqDb _ _ => True

instance : ∀ s e, Decidable (Room s e)
  | s, .copyCmd => inferInstanceAs (Decidable (s.unrung + 1 < s.nvmeq.qDepth.toNat))
  | _, .writeSqDb _ _ => inferInstanceAs (Decidable True)

/-- A queue that has just been initialised. -/
structure Init (s : State) : Prop where
  depth : 2 ≤ s.nvmeq.qDepth.toNat
  nvmeq : ∃ nvmeq dbbufSqDb, s.nvmeq = nvmeInitQueue nvmeq dbbufSqDb
  unrung : s.unrung = 0

/-! ## The ring of the two indices -/

/-- The number of values that an index takes: it wraps at `q_depth`, or by its width. -/
def ringSize (nvmeq : NvmeQueue) : Nat := min nvmeq.qDepth.toNat 65536

theorem nextIndex_toNat {qDepth : UInt32} {i : UInt16} (h : i.toNat < min qDepth.toNat 65536) :
    (nextIndex qDepth i).toNat = RingBuffer.next (min qDepth.toNat 65536) i.toNat := by
  have h_succ : (i + 1).toNat = (i.toNat + 1) % 65536 := UInt16.toNat_add i 1
  have h_eq : (i + 1).toUInt32 = qDepth ↔ (i.toNat + 1) % 65536 = qDepth.toNat := by
    rw [← UInt32.toNat_inj, UInt16.toNat_toUInt32, h_succ]
  unfold nextIndex RingBuffer.next
  by_cases h_wrap : (i.toNat + 1) % 65536 = qDepth.toNat
  · rw [if_pos (h_eq.mpr h_wrap), if_pos (by omega)]
    rfl
  · rw [if_neg (fun h_next => h_wrap (h_eq.mp h_next)), h_succ]
    split <;> omega

/-- The tail is `unrung` places behind the last doorbell. -/
structure Inv (s : State) : Prop where
  depth : 2 ≤ s.nvmeq.qDepth.toNat
  last_lt : s.nvmeq.lastSqTail.toNat < ringSize s.nvmeq
  tail_eq : s.nvmeq.sqTail.toNat =
    (s.nvmeq.lastSqTail.toNat + s.unrung) % ringSize s.nvmeq
  unrung_lt : s.unrung < s.nvmeq.qDepth.toNat

variable {s s' : State}

theorem ringSize_pos (h : 2 ≤ s.nvmeq.qDepth.toNat) : 0 < ringSize s.nvmeq := by
  unfold ringSize
  omega

theorem Init.inv (h : Init s) : Inv s := by
  obtain ⟨nvmeq, dbbufSqDb, h_eq⟩ := h.nvmeq
  have h_last : s.nvmeq.lastSqTail.toNat = 0 := by
    rw [h_eq]
    rfl
  have h_tail : s.nvmeq.sqTail.toNat = 0 := by
    rw [h_eq]
    rfl
  have h_pos := ringSize_pos h.depth
  refine ⟨h.depth, by omega, ?_, ?_⟩
  · rw [h_tail, h_last, h.unrung, Nat.zero_mod]
  · rw [h.unrung]
    exact Nat.lt_of_lt_of_le Nat.two_pos h.depth

theorem Inv.tail_lt (h : Inv s) : s.nvmeq.sqTail.toNat < ringSize s.nvmeq := by
  rw [h.tail_eq]
  exact Nat.mod_lt _ (ringSize_pos h.depth)

theorem Inv.copyCmd (h : Inv s) (h_room : s.unrung + 1 < s.nvmeq.qDepth.toNat) :
    Inv ⟨nvmeSqCopyCmd s.nvmeq, s.unrung + 1⟩ where
  depth := h.depth
  last_lt := h.last_lt
  tail_eq := by
    have h_next : (nextIndex s.nvmeq.qDepth s.nvmeq.sqTail).toNat =
        RingBuffer.next (ringSize s.nvmeq) s.nvmeq.sqTail.toNat := nextIndex_toNat h.tail_lt
    rw [h.tail_eq, RingBuffer.next_mod (ringSize_pos h.depth)] at h_next
    exact h_next
  unrung_lt := h_room

/-- An actual doorbell write starts the count again. -/
theorem Inv.ring (h : Inv s) {nvmeq : NvmeQueue} (h_depth : nvmeq.qDepth = s.nvmeq.qDepth)
    (h_tail : nvmeq.sqTail = s.nvmeq.sqTail) (h_last : nvmeq.lastSqTail = s.nvmeq.sqTail) :
    Inv ⟨nvmeq, 0⟩ := by
  have h_size : ringSize nvmeq = ringSize s.nvmeq := by
    unfold ringSize
    rw [h_depth]
  have h_lt := h.tail_lt
  refine ⟨?_, ?_, ?_, ?_⟩
  · rw [h_depth]
    exact h.depth
  · rw [h_last, h_size]
    exact h_lt
  · rw [h_tail, h_last, h_size, Nat.add_zero, Nat.mod_eq_of_lt h_lt]
  · rw [h_depth]
    exact Nat.lt_of_lt_of_le Nat.two_pos h.depth

theorem Inv.step (h : Inv s) {e : Event} (h_room : Room s e) (h_step : step s e = some s') :
    Inv s' := by
  cases e with
  | copyCmd =>
      cases h_step
      exact h.copyCmd h_room
  | writeSqDb writeSq dbbufEi =>
      cases h_step
      unfold nvmeWriteSqDb
      by_cases h_deferred : deferred s.nvmeq writeSq = true
      · rw [if_pos h_deferred, if_pos h_deferred]
        exact h
      · rw [if_neg h_deferred, if_neg h_deferred]
        exact h.ring rfl rfl rfl

theorem reach_inv (h : Lts.Reach step Room Init s) : Inv s :=
  h.invariant (fun _ => Init.inv) fun _ _ _ h_inv h_room h_step => h_inv.step h_room h_step

/-! ## The queue of `Nvme.Overflow` -/

section Overflow

variable {qDepth : Nat} {nvmeq : NvmeQueue} {sq : Overflow.NvmeSq qDepth}

/-- The indices of a queue without their width. -/
structure SameIndices (nvmeq : NvmeQueue) (sq : Overflow.NvmeSq qDepth) : Prop where
  depth : nvmeq.qDepth.toNat = qDepth
  tail : nvmeq.sqTail.toNat = sq.ring.tail
  last : nvmeq.lastSqTail.toNat = sq.lastSqTail

theorem SameIndices.nextIndex (h : SameIndices nvmeq sq) (h_depth : qDepth ≤ 65536)
    (h_tail : sq.ring.tail < qDepth) :
    (nextIndex nvmeq.qDepth nvmeq.sqTail).toNat = RingBuffer.next qDepth sq.ring.tail := by
  have h_size : min nvmeq.qDepth.toNat 65536 = qDepth := by
    rw [h.depth, Nat.min_eq_left h_depth]
  have h_lt : nvmeq.sqTail.toNat < min nvmeq.qDepth.toNat 65536 := by
    rw [h_size, h.tail]
    exact h_tail
  rw [nextIndex_toNat h_lt, h_size, h.tail]

theorem SameIndices.copyCmd (h : SameIndices nvmeq sq) (h_depth : qDepth ≤ 65536)
    (h_tail : sq.ring.tail < qDepth) (cmd : Overflow.Request) :
    SameIndices (nvmeSqCopyCmd nvmeq) (Overflow.nvmeSqCopyCmd sq cmd) :=
  ⟨h.depth, h.nextIndex h_depth h_tail, h.last⟩

theorem SameIndices.writeSqDb (h : SameIndices nvmeq sq) (h_depth : qDepth ≤ 65536)
    (h_tail : sq.ring.tail < qDepth) (writeSq : Bool) (dbbufEi : UInt32) :
    SameIndices (nvmeWriteSqDb nvmeq writeSq dbbufEi) (Overflow.nvmeWriteSqDb sq writeSq) := by
  have h_next : EnqueuedCmds.nextIndex nvmeq.qDepth nvmeq.sqTail = nvmeq.lastSqTail ↔
      RingBuffer.next qDepth sq.ring.tail = sq.lastSqTail := by
    rw [← UInt16.toNat_inj, h.nextIndex h_depth h_tail, h.last]
  have h_deferred : (!writeSq && RingBuffer.next qDepth sq.ring.tail != sq.lastSqTail) =
      deferred nvmeq writeSq := by
    rw [deferred, Bool.eq_iff_iff]
    simp only [Bool.and_eq_true, bne_iff_ne, ne_eq, h_next]
  unfold nvmeWriteSqDb Overflow.nvmeWriteSqDb
  dsimp only
  rw [h_deferred]
  split
  · exact h
  · exact ⟨h.depth, h.tail, h.tail⟩

end Overflow

/-! ## The number of commands -/

/-- The two indices determine the number of commands, as long as it is smaller than the ring. -/
theorem Inv.ahead_eq (h : Inv s) (h_lt : s.unrung < ringSize s.nvmeq) :
    RingBuffer.ahead (ringSize s.nvmeq) s.nvmeq.lastSqTail.toNat s.nvmeq.sqTail.toNat =
      s.unrung := by
  rw [h.tail_eq]
  exact RingBuffer.ahead_add_mod h.last_lt h_lt

/-- The function is off by the difference between `sqes` and the size of the ring when the tail
has wrapped. -/
theorem nrEnqueuedCmds_eq {nvmeq : NvmeQueue} {cap : Nat} (h_last : nvmeq.lastSqTail.toNat < cap) :
    blexNvmeNrEnqueuedCmds nvmeq =
      RingBuffer.ahead cap nvmeq.lastSqTail.toNat nvmeq.sqTail.toNat +
        if nvmeq.lastSqTail.toNat ≤ nvmeq.sqTail.toNat then 0
        else (nvmeq.sqes.toNat : Int) - cap := by
  dsimp only [blexNvmeNrEnqueuedCmds]
  by_cases h_le : nvmeq.lastSqTail.toNat ≤ nvmeq.sqTail.toNat
  · rw [if_pos (UInt16.le_iff_toNat_le.mpr h_le), if_pos h_le, RingBuffer.ahead, if_pos h_le]
    omega
  · rw [if_neg (fun h => h_le (UInt16.le_iff_toNat_le.mp h)), if_neg h_le, RingBuffer.ahead,
      if_neg h_le]
    omega

/-- The function returns no more than an index can hold. -/
theorem nrEnqueuedCmds_lt (nvmeq : NvmeQueue) : blexNvmeNrEnqueuedCmds nvmeq < 65536 := by
  have h_tail := nvmeq.sqTail.toNat_lt
  have h_last := nvmeq.lastSqTail.toNat_lt
  have h_sqes := nvmeq.sqes.toNat_lt
  dsimp only [blexNvmeNrEnqueuedCmds]
  split <;> omega

/-- In every state of every run with room, the function counts the commands that wait for the
doorbell exactly if these do not reach past the end of the ring, or `sqes` happens to be
`q_depth`. -/
theorem nrEnqueuedCmds_eq_iff (h : Lts.Reach step Room Init s) :
    blexNvmeNrEnqueuedCmds s.nvmeq = s.unrung ↔
      s.nvmeq.lastSqTail.toNat + s.unrung < min s.nvmeq.qDepth.toNat 65536 ∨
        s.nvmeq.sqes.toNat = s.nvmeq.qDepth.toNat := by
  have h_inv := reach_inv h
  have h_sqes : s.nvmeq.sqes.toNat < 256 := s.nvmeq.sqes.toNat_lt
  have h_room := h_inv.unrung_lt
  by_cases h_lt : s.unrung < ringSize s.nvmeq
  · have h_value := nrEnqueuedCmds_eq h_inv.last_lt
    rw [h_inv.ahead_eq h_lt] at h_value
    have h_wrap := RingBuffer.le_add_mod_iff h_inv.last_lt h_lt
    rw [← h_inv.tail_eq] at h_wrap
    have h_size : ringSize s.nvmeq = min s.nvmeq.qDepth.toNat 65536 := rfl
    rw [h_value]
    split
    case isTrue h_le =>
      have h_straight := h_wrap.mp h_le
      omega
    case isFalse h_gt =>
      have h_past := fun h_lt => h_gt (h_wrap.mpr h_lt)
      omega
  · -- a queue too deep for its indices, with more commands than they can count
    have h_value := nrEnqueuedCmds_lt s.nvmeq
    unfold ringSize at h_lt
    omega

/-! ## A ring of four -/

/-- A queue with `io_queue_depth` 4 and the usual entries of 64 bytes. -/
def fourDeep : NvmeQueue := ⟨4, 0, 0, 6, 0, none⟩

/-- One command waits in the third slot. -/
def oneWaits : List Event :=
  [.copyCmd, .writeSqDb false 0, .copyCmd, .writeSqDb true 0, .copyCmd, .writeSqDb false 0]

theorem fourDeep_reach (es : List Event) {s : State}
    (h_run : Lts.run (Lts.guarded step Room) ⟨fourDeep, 0⟩ es = some s) :
    Lts.Reach step Room Init s :=
  (Lts.Reach.init ⟨by decide, ⟨fourDeep, none, rfl⟩, rfl⟩).run_guarded h_run

theorem nrEnqueuedCmds_eq_iff_four :
    ∃ s, Lts.Reach step Room Init s ∧
      (blexNvmeNrEnqueuedCmds s.nvmeq = s.unrung ↔
        s.nvmeq.lastSqTail.toNat + s.unrung < min s.nvmeq.qDepth.toNat 65536 ∨
          s.nvmeq.sqes.toNat = s.nvmeq.qDepth.toNat) :=
  have h_reach := fourDeep_reach oneWaits rfl
  ⟨_, h_reach, nrEnqueuedCmds_eq_iff h_reach⟩

/-- With a second one in the last slot the tail is back at the start, and the function returns
`6 - 2`. -/
theorem twoWait_miscounted :
    ∃ s, Lts.Reach step Room Init s ∧ s.nvmeq.qDepth = 4 ∧ s.nvmeq.sqes = 6 ∧ s.unrung = 2 ∧
      blexNvmeNrEnqueuedCmds s.nvmeq = 4 :=
  ⟨_, fourDeep_reach (oneWaits ++ [.copyCmd, .writeSqDb false 0]) rfl, by decide⟩

end Daredevil.Nvme.EnqueuedCmds
