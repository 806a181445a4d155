/-
  Daredevil.Nvme.ShadowDoorbell

  Shadow doorbells (`nvme_dbbuf_update_and_check_event`, `drivers/nvme/host/pci.c`).  The driver
  leaves the index of a queue in memory, and writes the register only if the index has passed
  the one that the controller has left next to it.  The controller leaves that event index when
  it has nothing to do, looks at the shadow doorbell once more, and goes to sleep.

  Neither side waits for the other, and the indices are 16-bit numbers that wrap at `q_depth`.
  The steps of both sides are taken in any order: the driver stores the shadow doorbell, reads
  the event index and writes the register in three steps, as the barriers of the function have
  it.  The same function serves the tail of a submission queue and the head of a completion
  queue.

    * `needEvent_of_passed`  — the comparison of `nvme_dbbuf_need_event`, within one round;
    * `Inv`                  — the indices as numbers that do not wrap, and what a sleeping
                               controller may rely on;
    * `Inv.step`             — every step keeps it;
    * `nvmeWriteSqDb_steps`  — `nvme_write_sq_db` is the three steps without a pause;
    * `sleeper_notified`     — no doorbell is lost.
-/
import Daredevil.Lib.Lts
import Daredevil.Nvme.EnqueuedCmds

namespace Daredevil.Nvme.ShadowDoorbell

open EnqueuedCmds (nextIndex nextIndex_toNat nvmeDbbufNeedEvent nvmeWriteSqDb deferred)

/-! ## The two sides -/

/-- Where the driver stands in `nvme_dbbuf_update_and_check_event`. -/
inductive Pc where
  | idle
  /-- the shadow doorbell is stored; `old` is what it was -/
  | stored (old : UInt16)
  /-- the register is to be written -/
  | ringing
  deriving DecidableEq, Repr

/-- What the controller is doing.  It wants to be told when more than `k` entries are
unfetched. -/
inductive Ctrl where
  | awake
  /-- the event index is stored -/
  | armed (k : Nat)
  | asleep (k : Nat)
  deriving DecidableEq, Repr

structure State where
  qDepth : UInt32
  /-- `sq_tail` or `cq_head` -/
  value : UInt16
  /-- the shadow doorbell -/
  dbbufDb : UInt32
  dbbufEi : UInt32
  pc : Pc
  /-- the register has been written, and the controller has not seen it -/
  pending : Bool
  /-- the index up to which the controller has fetched -/
  head : UInt16
  ctrl : Ctrl
  deriving DecidableEq, Repr

/-- The number of values of an index. -/
def State.size (s : State) : Nat := min s.qDepth.toNat 65536

inductive Event where
  /-- `nvme_sq_copy_cmd` or `nvme_update_cq_head` -/
  | advance
  /-- `*dbbuf_db = cpu_to_le32(value)` -/
  | store
  /-- `event_idx = le32_to_cpu(*dbbuf_ei)`, and the comparison -/
  | check
  /-- `writel` -/
  | writel
  /-- the controller fetches an entry -/
  | fetch
  | arm (k : Nat)
  | recheck
  | wake
  deriving DecidableEq, Repr

/-- The entries that the controller sees and has not fetched. -/
def State.unfetched (s : State) : Nat := RingBuffer.ahead s.size s.head.toNat s.dbbufDb.toNat

def step (s : State) : Event → Option State
  | .advance =>
      if s.pc = .idle then some { s with value := nextIndex s.qDepth s.value } else none
  | .store =>
      if s.pc = .idle then
        some { s with pc := .stored s.dbbufDb.toUInt16, dbbufDb := s.value.toUInt32 }
      else none
  | .check =>
      match s.pc with
      | .stored old =>
          let event := nvmeDbbufNeedEvent s.dbbufEi.toUInt16 s.value old
          some { s with pc := if event then .ringing else .idle }
      | _ => none
  | .writel =>
      if s.pc = .ringing then some { s with pc := .idle, pending := true } else none
  | .fetch =>
      if s.ctrl = .awake ∧ s.unfetched ≠ 0 then
        some { s with head := nextIndex s.qDepth s.head }
      else none
  | .arm k =>
      if s.ctrl = .awake then
        some { s with ctrl := .armed k, dbbufEi := UInt32.ofNat ((s.head.toNat + k) % s.size) }
      else none
  | .recheck =>
      match s.ctrl with
      | .armed k => some { s with ctrl := if s.unfetched ≤ k then .asleep k else .awake }
      | _ => none
  | .wake => if s.pending then some { s with pending := false, ctrl := .awake } else none

/-- The index of the driver does not catch up with that of the controller. -/
def Room (s : State) : Event → Prop
  | .advance => RingBuffer.ahead s.size s.head.toNat s.value.toNat + 1 < s.size
  | _ => True

instance : ∀ s e, Decidable (Room s e)
  | s, .advance =>
      inferInstanceAs (Decidable (RingBuffer.ahead s.size s.head.toNat s.value.toNat + 1 < s.size))
  | _, .store => inferInstanceAs (Decidable True)
  | _, .check => inferInstanceAs (Decidable True)
  | _, .writel => inferInstanceAs (Decidable True)
  | _, .fetch => inferInstanceAs (Decidable True)
  | _, .arm _ => inferInstanceAs (Decidable True)
  | _, .recheck => inferInstanceAs (Decidable True)
  | _, .wake => inferInstanceAs (Decidable True)

/-- A queue that has just been initialised, and its doorbell memory cleared. -/
structure Init (s : State) : Prop where
  depth : 2 ≤ s.qDepth.toNat
  value : s.value = 0
  dbbufDb : s.dbbufDb = 0
  dbbufEi : s.dbbufEi = 0
  pc : s.pc = .idle
  pending : s.pending = false
  head : s.head = 0
  ctrl : s.ctrl = .awake ∨ s.ctrl = .asleep 0

/-! ## The comparison -/

/-- An event index that the shadow doorbell passes, by less than a round. -/
theorem needEvent_of_passed {n o e t : Nat} (h_n : n ≤ 65536) (h_oe : o ≤ e) (h_et : e < t)
    (h_to : t < o + n) {old ei new : UInt16} (h_old : old.toNat = o % n)
    (h_ei : ei.toNat = e % n) (h_new : new.toNat = t % n) :
    nvmeDbbufNeedEvent ei new old = true := by
  have h_mod : ∀ j, j < n →
      (o + j) % n = if o % n + j < n then o % n + j else o % n + j - n := by
    intro j h_j
    have h_lt : o % n < n := Nat.mod_lt _ (by omega)
    rw [← Nat.mod_add_mod]
    split
    · rename_i h_in
      exact Nat.mod_eq_of_lt h_in
    · rename_i h_wrap
      exact RingBuffer.add_mod_of_le h_lt h_j (Nat.le_of_not_lt h_wrap)
  have h_e := h_mod (e - o) (by omega)
  have h_t := h_mod (t - o) (by omega)
  rw [Nat.add_sub_cancel' h_oe, ← h_ei, ← h_old] at h_e
  rw [Nat.add_sub_cancel' (by omega), ← h_new, ← h_old] at h_t
  have h_lt : old.toNat < n := by
    rw [h_old]
    exact Nat.mod_lt _ (by omega)
  have h_one : (1 : UInt16).toNat = 1 := rfl
  unfold nvmeDbbufNeedEvent
  rw [decide_eq_true_eq, UInt16.lt_iff_toNat_lt, UInt16.toNat_sub, UInt16.toNat_sub,
    UInt16.toNat_sub, h_one]
  split at h_e <;> split at h_t <;> omega

/-! ## The invariant -/

/-- The controller is told, or will be: `c`, `t` and `h` are how often the index of the driver,
the shadow doorbell and the index of the controller have moved. -/
def Told (s : State) (t h k : Nat) : Prop :=
  t ≤ h + k ∨ s.pending = true ∨ s.pc = .ringing ∨
    ∃ old o, s.pc = .stored old ∧ old.toNat = o % s.size ∧ t < o + s.size ∧ o ≤ h + k

/-- The indices, counted without wrapping. -/
structure Counts (s : State) (c t h : Nat) : Prop where
  size : 2 ≤ s.size
  value : s.value.toNat = c % s.size
  dbbufDb : s.dbbufDb.toNat = t % s.size
  head : s.head.toNat = h % s.size
  head_le : h ≤ t
  db_le : t ≤ c
  lt_head : c < h + s.size
  /-- while the function runs, the shadow doorbell is the index of the driver -/
  busy : s.pc ≠ .idle → t = c
  ei : ∀ k, s.ctrl = .armed k ∨ s.ctrl = .asleep k → s.dbbufEi.toNat = (h + k) % s.size
  told : ∀ k, s.ctrl = .asleep k → Told s t h k

def Inv (s : State) : Prop := ∃ c t h, Counts s c t h

variable {s s' : State} {c t h : Nat}

theorem size_le (s : State) : s.size ≤ 65536 := Nat.min_le_right _ _

theorem mod_toNat (s : State) (hs : 2 ≤ s.size) (i : Nat) :
    (UInt32.ofNat (i % s.size)).toNat = i % s.size := by
  have h_lt : i % s.size < s.size := Nat.mod_lt _ (by omega)
  have h_le := size_le s
  rw [UInt32.toNat_ofNat']
  omega

theorem nextIndex_mod {i : UInt16} (hs : 2 ≤ s.size) (h_i : i.toNat = c % s.size) :
    (nextIndex s.qDepth i).toNat = (c + 1) % s.size := by
  have h_lt : i.toNat < s.size := by
    rw [h_i]
    exact Nat.mod_lt _ (by omega)
  have h_next : (nextIndex s.qDepth i).toNat = RingBuffer.next s.size i.toNat :=
    nextIndex_toNat h_lt
  rw [h_next, h_i, RingBuffer.next_mod (by omega)]

/-- Numbers less than a round apart. -/
theorem ahead_mod {n a b : Nat} (h_n : 2 ≤ n) (h_le : a ≤ b) (h_lt : b < a + n) :
    RingBuffer.ahead n (a % n) (b % n) = b - a := by
  obtain ⟨j, rfl⟩ := Nat.exists_eq_add_of_le h_le
  rw [← Nat.mod_add_mod, Nat.add_sub_cancel_left]
  exact RingBuffer.ahead_add_mod (Nat.mod_lt _ (by omega)) (by omega)

theorem Counts.unfetched_eq (hc : Counts s c t h) : s.unfetched = t - h := by
  have h_db := hc.db_le
  have h_lt := hc.lt_head
  rw [State.unfetched, hc.head, hc.dbbufDb]
  exact ahead_mod hc.size hc.head_le (by omega)

theorem Init.inv (hi : Init s) : Inv s := by
  have h_zero : (0 : UInt16).toNat = 0 := rfl
  have h_zero' : (0 : UInt32).toNat = 0 := rfl
  have h_depth := hi.depth
  have h_size : 2 ≤ s.size := by
    unfold State.size
    omega
  refine ⟨0, 0, 0, h_size, ?_, ?_, ?_, Nat.le_refl _, Nat.le_refl _, by omega, fun _ => rfl,
    ?_, ?_⟩
  · rw [hi.value, Nat.zero_mod, h_zero]
  · rw [hi.dbbufDb, Nat.zero_mod, h_zero']
  · rw [hi.head, Nat.zero_mod, h_zero]
  · intro k h_k
    rcases hi.ctrl with h_ctrl | h_ctrl
    · rw [h_ctrl] at h_k
      simp at h_k
    · rw [h_ctrl] at h_k
      have h_zero_k : 0 = k := by simpa using h_k
      rw [hi.dbbufEi, ← h_zero_k, Nat.add_zero, Nat.zero_mod, h_zero']
  · intro k _
    exact Or.inl (Nat.zero_le _)

/-! ## The steps -/

theorem toUInt16_toNat {x : UInt32} {n : Nat} (h_n : n ≤ 65536) (h_pos : 0 < n)
    (h_x : x.toNat = c % n) : x.toUInt16.toNat = c % n := by
  have h_lt : c % n < n := Nat.mod_lt _ h_pos
  rw [UInt32.toNat_toUInt16, h_x]
  exact Nat.mod_eq_of_lt (by omega)

theorem Counts.advance (hc : Counts s c t h) (h_pc : s.pc = .idle)
    (h_room : Room s .advance) :
    Counts { s with value := nextIndex s.qDepth s.value } (c + 1) t h := by
  have h_ahead : RingBuffer.ahead s.size s.head.toNat s.value.toNat = c - h := by
    rw [hc.head, hc.value]
    exact ahead_mod hc.size (Nat.le_trans hc.head_le hc.db_le) hc.lt_head
  have h_next : c - h + 1 < s.size := h_ahead ▸ h_room
  have h_le := Nat.le_trans hc.head_le hc.db_le
  have h_lt : c + 1 < h + s.size := by omega
  exact ⟨hc.size, nextIndex_mod hc.size hc.value, hc.dbbufDb, hc.head, hc.head_le,
    Nat.le_succ_of_le hc.db_le, h_lt, fun h_busy => absurd h_pc h_busy, hc.ei, hc.told⟩

/-- The shadow doorbell is stored: a sleeping controller that it passes has still to be told. -/
theorem Counts.store (hc : Counts s c t h) (h_pc : s.pc = .idle) :
    Counts { s with pc := .stored s.dbbufDb.toUInt16, dbbufDb := s.value.toUInt32 } c c h where
  size := hc.size
  value := hc.value
  dbbufDb := by
    rw [UInt16.toNat_toUInt32]
    exact hc.value
  head := hc.head
  head_le := Nat.le_trans hc.head_le hc.db_le
  db_le := Nat.le_refl c
  lt_head := hc.lt_head
  busy := fun _ => rfl
  ei := hc.ei
  told := by
    intro k h_k
    have h_pos : 0 < s.size := Nat.lt_of_lt_of_le Nat.two_pos hc.size
    have h_lt := hc.lt_head
    have h_head := hc.head_le
    rcases hc.told k h_k with h_le | h_pending | h_ring | ⟨old, o, h_stored, -⟩
    · refine Or.inr (Or.inr (Or.inr ⟨s.dbbufDb.toUInt16, t, rfl, ?_, ?_, h_le⟩))
      · exact toUInt16_toNat (size_le s) h_pos hc.dbbufDb
      · show c < t + s.size
        omega
    · exact Or.inr (Or.inl h_pending)
    · rw [h_pc] at h_ring
      cases h_ring
    · rw [h_pc] at h_stored
      cases h_stored

/-- The event index is read: it is passed, or the controller need not be told. -/
theorem Counts.check (hc : Counts s c t h) {old : UInt16} (h_pc : s.pc = .stored old) :
    Counts { s with pc :=
      if nvmeDbbufNeedEvent s.dbbufEi.toUInt16 s.value old then .ringing else .idle } c t h where
  size := hc.size
  value := hc.value
  dbbufDb := hc.dbbufDb
  head := hc.head
  head_le := hc.head_le
  db_le := hc.db_le
  lt_head := hc.lt_head
  busy := fun _ => hc.busy (by rw [h_pc]; simp)
  ei := hc.ei
  told := by
    intro k h_k
    have h_pos : 0 < s.size := Nat.lt_of_lt_of_le Nat.two_pos hc.size
    rcases hc.told k h_k with h_le | h_pending | h_ring | ⟨old', o, h_stored, h_old, h_lt, h_o⟩
    · exact Or.inl h_le
    · exact Or.inr (Or.inl h_pending)
    · rw [h_pc] at h_ring
      cases h_ring
    · rw [h_pc] at h_stored
      cases h_stored
      rcases Nat.lt_or_ge (h + k) t with h_passed | h_le
      · have h_busy := hc.busy (by rw [h_pc]; simp)
        have h_ei := toUInt16_toNat (size_le s) h_pos (hc.ei k (Or.inr h_k))
        have h_value := hc.value
        rw [← h_busy] at h_value
        have h_event := needEvent_of_passed (size_le s) h_o h_passed h_lt h_old h_ei h_value
        refine Or.inr (Or.inr (Or.inl ?_))
        show (if nvmeDbbufNeedEvent s.dbbufEi.toUInt16 s.value old then Pc.ringing else .idle) = _
        rw [if_pos h_event]
      · exact Or.inl h_le

theorem Counts.writel (hc : Counts s c t h) :
    Counts { s with pc := .idle, pending := true } c t h where
  size := hc.size
  value := hc.value
  dbbufDb := hc.dbbufDb
  head := hc.head
  head_le := hc.head_le
  db_le := hc.db_le
  lt_head := hc.lt_head
  busy := fun h_busy => absurd rfl h_busy
  ei := hc.ei
  told := fun _ _ => Or.inr (Or.inl rfl)

theorem Counts.fetch (hc : Counts s c t h) (h_ctrl : s.ctrl = .awake)
    (h_more : s.unfetched ≠ 0) :
    Counts { s with head := nextIndex s.qDepth s.head } c t (h + 1) := by
  have h_unfetched := hc.unfetched_eq
  have h_lt := hc.lt_head
  have h_awake : ∀ k, ¬ (s.ctrl = .armed k ∨ s.ctrl = .asleep k) := by simp [h_ctrl]
  have h_lt' : c < h + 1 + s.size := by omega
  exact ⟨hc.size, hc.value, hc.dbbufDb, nextIndex_mod hc.size hc.head, by omega, hc.db_le, h_lt',
    hc.busy, fun k h_k => absurd h_k (h_awake k), fun k h_k => absurd (Or.inr h_k) (h_awake k)⟩

theorem Counts.arm (hc : Counts s c t h) (k : Nat) :
    Counts { s with
      ctrl := .armed k
      dbbufEi := UInt32.ofNat ((s.head.toNat + k) % s.size) } c t h where
  size := hc.size
  value := hc.value
  dbbufDb := hc.dbbufDb
  head := hc.head
  head_le := hc.head_le
  db_le := hc.db_le
  lt_head := hc.lt_head
  busy := hc.busy
  ei := by
    rintro j (h_j | h_j)
    · cases h_j
      show (UInt32.ofNat ((s.head.toNat + k) % s.size)).toNat = (h + k) % s.size
      rw [mod_toNat s hc.size, hc.head, Nat.mod_add_mod]
    · cases h_j
  told := by
    intro j h_j
    cases h_j

/-- The controller looks at the shadow doorbell again before it goes to sleep. -/
theorem Counts.recheck (hc : Counts s c t h) {k : Nat} (h_ctrl : s.ctrl = .armed k) :
    Counts { s with ctrl := if s.unfetched ≤ k then .asleep k else .awake } c t h := by
  have h_unfetched := hc.unfetched_eq
  have h_new : ∀ j, (if s.unfetched ≤ k then Ctrl.asleep k else .awake) = .armed j ∨
      (if s.unfetched ≤ k then Ctrl.asleep k else .awake) = .asleep j →
      j = k ∧ s.unfetched ≤ k := by
    intro j
    split
    · rename_i h_le
      rintro (h_j | h_j)
      · cases h_j
      · cases h_j
        exact ⟨rfl, h_le⟩
    · simp
  refine ⟨hc.size, hc.value, hc.dbbufDb, hc.head, hc.head_le, hc.db_le, hc.lt_head, hc.busy,
    ?_, ?_⟩
  · intro j h_j
    obtain ⟨rfl, -⟩ := h_new j h_j
    exact hc.ei j (Or.inl h_ctrl)
  · intro j h_j
    obtain ⟨rfl, h_le⟩ := h_new j (Or.inr h_j)
    exact Or.inl (by omega)

theorem Counts.wake (hc : Counts s c t h) :
    Counts { s with pending := false, ctrl := .awake } c t h where
  size := hc.size
  value := hc.value
  dbbufDb := hc.dbbufDb
  head := hc.head
  head_le := hc.head_le
  db_le := hc.db_le
  lt_head := hc.lt_head
  busy := hc.busy
  ei := by
    rintro k (h_k | h_k)
    · cases h_k
    · cases h_k
  told := by
    intro k h_k
    cases h_k

theorem Inv.step (hi : Inv s) {e : Event} (h_room : Room s e) (h_step : step s e = some s') :
    Inv s' := by
  obtain ⟨c, t, h, hc⟩ := hi
  cases e with
  | advance =>
      simp only [ShadowDoorbell.step] at h_step
      split at h_step
      · rename_i h_pc
        cases h_step
        exact ⟨c + 1, t, h, hc.advance h_pc h_room⟩
      · cases h_step
  | store =>
      simp only [ShadowDoorbell.step] at h_step
      split at h_step
      · rename_i h_pc
        cases h_step
        exact ⟨c, c, h, hc.store h_pc⟩
      · cases h_step
  | check =>
      simp only [ShadowDoorbell.step] at h_step
      split at h_step
      · rename_i old h_pc
        cases h_step
        exact ⟨c, t, h, hc.check h_pc⟩
      · cases h_step
  | writel =>
      simp only [ShadowDoorbell.step] at h_step
      split at h_step
      · cases h_step
        exact ⟨c, t, h, hc.writel⟩
      · cases h_step
  | fetch =>
      simp only [ShadowDoorbell.step] at h_step
      split at h_step
      · rename_i h_fetch
        cases h_step
        exact ⟨c, t, h + 1, hc.fetch h_fetch.1 h_fetch.2⟩
      · cases h_step
  | arm k =>
      simp only [ShadowDoorbell.step] at h_step
      split at h_step
      · cases h_step
        exact ⟨c, t, h, hc.arm k⟩
      · cases h_step
  | recheck =>
      simp only [ShadowDoorbell.step] at h_step
      split at h_step
      · rename_i k h_ctrl
        cases h_step
        exact ⟨c, t, h, hc.recheck h_ctrl⟩
      · cases h_step
  | wake =>
      simp only [ShadowDoorbell.step] at h_step
      split at h_step
      · cases h_step
        exact ⟨c, t, h, hc.wake⟩
      · cases h_step

/-! ## The functions -/

/-- What a call of `nvme_write_sq_db` that does not return early does to a queue with a shadow
doorbell, as the steps of the driver without a pause. -/
theorem nvmeWriteSqDb_steps (s : State) (nvmeq : EnqueuedCmds.NvmeQueue) (writeSq : Bool)
    (h_pc : s.pc = .idle) (h_db : nvmeq.dbbufSqDb = some s.dbbufDb)
    (h_value : nvmeq.sqTail = s.value) (h_call : deferred nvmeq writeSq = false) :
    let event := nvmeDbbufNeedEvent s.dbbufEi.toUInt16 s.value s.dbbufDb.toUInt16
    ∃ s', Lts.run step s (if event then [.store, .check, .writel] else [.store, .check]) =
        some s' ∧
      s'.pc = .idle ∧ s'.pending = (s.pending || event) ∧
      (nvmeWriteSqDb nvmeq writeSq s.dbbufEi).dbbufSqDb = some s'.dbbufDb ∧
      (nvmeWriteSqDb nvmeq writeSq s.dbbufEi).qDb =
        if event then nvmeq.sqTail.toUInt32 else nvmeq.qDb := by
  intro event
  have h_event : event = nvmeDbbufNeedEvent s.dbbufEi.toUInt16 s.value s.dbbufDb.toUInt16 := rfl
  have h_written : nvmeWriteSqDb nvmeq writeSq s.dbbufEi = { nvmeq with
      dbbufSqDb := some s.value.toUInt32
      qDb := if event then nvmeq.sqTail.toUInt32 else nvmeq.qDb
      lastSqTail := nvmeq.sqTail } := by
    rw [nvmeWriteSqDb, h_call, if_neg Bool.false_ne_true, h_db, h_value]
    rfl
  rw [h_written]
  cases h_eq : event with
  | true =>
      refine ⟨{ s with dbbufDb := s.value.toUInt32, pc := .idle, pending := true }, ?_, rfl, ?_,
        rfl, rfl⟩
      · rw [h_eq] at h_event
        simp [Lts.run, step, h_pc, ← h_event]
      · simp
  | false =>
      refine ⟨{ s with dbbufDb := s.value.toUInt32, pc := .idle }, ?_, rfl, ?_, rfl, rfl⟩
      · rw [h_eq] at h_event
        simp [Lts.run, step, h_pc, ← h_event]
      · simp

/-- In every interleaving of the driver and the controller: a controller that sleeps is being
told, or has been, or there is no more to fetch than it is ready to leave unfetched. -/
theorem sleeper_notified {s : State} (h : Lts.Reach step Room Init s) {k : Nat}
    (h_asleep : s.ctrl = .asleep k) (h_pc : s.pc = .idle) (h_pending : s.pending = false) :
    s.unfetched ≤ k := by
  have h_inv : Inv s := h.invariant (fun _ hi => hi.inv) fun _ _ _ hi h_room h_step =>
    hi.step h_room h_step
  obtain ⟨c, t, n, hc⟩ := h_inv
  have h_unfetched := hc.unfetched_eq
  rcases hc.told k h_asleep with h_le | h_true | h_ring | ⟨_, _, h_stored, -⟩
  · omega
  · rw [h_pending] at h_true
    cases h_true
  · rw [h_pc] at h_ring
    cases h_ring
  · rw [h_pc] at h_stored
    cases h_stored

/-- A queue of two entries, the controller asleep. -/
def twoEntries : State := ⟨2, 0, 0, 0, .idle, false, 0, .asleep 0⟩

/-- An entry is announced and fetched twice, the second time around the end of the ring. -/
def twoRounds : List Event :=
  [.advance, .store, .check, .writel, .wake, .fetch, .arm 0, .recheck,
    .advance, .store, .check, .writel, .wake, .fetch, .arm 0, .recheck]

theorem sleeper_notified_twoRounds :
    Lts.run (Lts.guarded step Room) twoEntries twoRounds =
        some ⟨2, 0, 0, 0, .idle, false, 0, .asleep 0⟩ ∧
      State.unfetched ⟨2, 0, 0, 0, .idle, false, 0, .asleep 0⟩ ≤ 0 := by
  have h_run : Lts.run (Lts.guarded step Room) twoEntries twoRounds =
      some ⟨2, 0, 0, 0, .idle, false, 0, .asleep 0⟩ := by decide +kernel
  have h_init : Init twoEntries := ⟨by decide, rfl, rfl, rfl, rfl, rfl, rfl, Or.inr rfl⟩
  exact ⟨h_run, sleeper_notified ((Lts.Reach.init h_init).run_guarded h_run) rfl rfl rfl⟩

end Daredevil.Nvme.ShadowDoorbell
