/-
  Daredevil.Nvme.QueueArray

  The memory of the queues.  `dev->queues` has room for `nr_allocated_queues` entries, of
  which the first `queue_count` are in use: `nvme_blex_alloc_queue` does nothing for them.
  `nvme_blex_extraq_update_queues` replaces the array by a larger one, zeroed, and copies
  one entry.

  The update does not look into the entries, so `extraqUpdateTable` takes them as they are:
  the contents of `struct nvme_queue` (`QueueMem`) here, `NvmeQueue` in the model of the
  setup, where it is `nvmeBlexExtraqUpdateQueues`.

    * `allocQueueMem_wf`             — entries in use have an owner;
    * `extraqUpdateTable_setup`      — the same function on the device of `Nvme.Dev`;
    * `extraqUpdateTable_keeps_iff`  — which entries survive.
-/
import Daredevil.Nvme.Dev

namespace Daredevil.Nvme

/-! ## The array -/

/-- The queues of a device, and what points to them. -/
structure QueueTable (α : Type) where
  /-- `dev->queues`, as long as the memory behind it -/
  queues : List α
  nrAllocatedQueues : Nat
  queueCount : Nat
  /-- which of the arrays allocated so far `dev->queues` is -/
  arrayNo : Nat
  /-- the array that `driver_data` of the admin hctx points into, at entry 0 -/
  adminArray : Nat
  deriving DecidableEq, Repr

/-- `nvme_blex_extraq_update_queues`; `zero` is zeroed memory. -/
def extraqUpdateTable {α : Type} (zero : α) (arrayAlloc : Bool) (t : QueueTable α)
    (nrIoQueues : Nat) : Int × QueueTable α :=
  if nrIoQueues ≤ t.nrAllocatedQueues - 1 then (0, t)
  else if !arrayAlloc then (enomem, t)
  else
    let newQueues := List.replicate (nrIoQueues + 1) zero
    (0, { t with
      nrAllocatedQueues := nrIoQueues + 1
      -- the length of the `memcpy` is that of one entry
      queues := newQueues.set 0 (t.queues.headD zero)
      arrayNo := t.arrayNo + 1
      adminArray := t.arrayNo + 1 })

/-- `struct nvme_queue`, as far as allocating a queue writes it. -/
structure QueueMem where
  /-- `dev` is set -/
  hasDev : Bool
  sqCmds : Option Nat
  cqes : Option Nat
  qDepth : Nat
  sqes : Nat
  cqHead : Nat
  cqPhase : Nat
  qid : Nat
  deriving DecidableEq, Repr

def QueueMem.zero : QueueMem := ⟨false, none, none, 0, 0, 0, 0, 0⟩

/-- What `nvme_blex_alloc_queue` is called with and gets from `dma_alloc_coherent`. -/
structure QueueMemEnv where
  hasCq : Bool
  depth : Nat
  sqes : Nat
  cqes : Option Nat
  sqCmds : Option Nat

/-- `nvme_blex_alloc_queue` -/
def allocQueueMem (env : QueueMemEnv) (t : QueueTable QueueMem) (qid : Nat) :
    Int × QueueTable QueueMem :=
  let nvmeq := t.queues.getD qid .zero
  if t.queueCount > qid then (0, t)
  else
    let nvmeq := { nvmeq with sqes := env.sqes, qDepth := env.depth }
    let nvmeq := if env.hasCq then { nvmeq with cqes := env.cqes } else nvmeq
    if env.hasCq && env.cqes.isNone then (enomem, { t with queues := t.queues.set qid nvmeq })
    else
      let nvmeq := { nvmeq with sqCmds := env.sqCmds }
      if env.sqCmds.isNone then (enomem, { t with queues := t.queues.set qid nvmeq })
      else
        let nvmeq := { nvmeq with hasDev := true, cqHead := 0, cqPhase := 1, qid := qid }
        (0, { t with queues := t.queues.set qid nvmeq, queueCount := t.queueCount + 1 })

/-! ## Entries in use -/

/-- The array is as long as the driver takes it to be, and has more than zeros in every entry in
use. -/
structure TableWf {α : Type} (zero : α) (t : QueueTable α) : Prop where
  length : t.queues.length = t.nrAllocatedQueues
  count : t.queueCount ≤ t.nrAllocatedQueues
  pos : 1 ≤ t.nrAllocatedQueues
  used : ∀ qid < t.queueCount, t.queues[qid]? ≠ some zero

/-- The array as `nvme_probe` allocates it. -/
theorem tableWf_probed {α : Type} (zero : α) {nrQueues : Nat} (h_pos : 1 ≤ nrQueues) :
    TableWf zero ⟨List.replicate nrQueues zero, nrQueues, 0, 0, 0⟩ :=
  ⟨List.length_replicate, Nat.zero_le _, h_pos, fun qid h_qid => absurd h_qid (Nat.not_lt_zero qid)⟩

/-- Writing an entry that is not in use. -/
theorem TableWf.set_unused {α : Type} {zero : α} {t : QueueTable α} (h : TableWf zero t) {qid : Nat}
    (h_qid : t.queueCount ≤ qid) (q : α) :
    TableWf zero { t with queues := t.queues.set qid q } where
  length := by
    rw [List.length_set]
    exact h.length
  count := h.count
  pos := h.pos
  used i h_i := by
    have h_i : i < t.queueCount := h_i
    rw [List.getElem?_set_ne (by omega)]
    exact h.used i h_i

/-- Allocating the next queue, if the array has room for it, leaves every entry in use with an
owner. -/
theorem allocQueueMem_wf {env : QueueMemEnv} {t : QueueTable QueueMem} {qid : Nat}
    (h : TableWf .zero t) (h_qid : qid = t.queueCount) (h_room : qid < t.nrAllocatedQueues) :
    TableWf .zero (allocQueueMem env t qid).2 := by
  have h_unused : t.queueCount ≤ qid := Nat.le_of_eq h_qid.symm
  simp only [allocQueueMem]
  rw [if_neg (by omega)]
  split
  · exact h.set_unused h_unused _
  split
  · exact h.set_unused h_unused _
  · refine ⟨?_, ?_, h.pos, ?_⟩
    · show (t.queues.set qid _).length = t.nrAllocatedQueues
      rw [List.length_set]
      exact h.length
    · show t.queueCount + 1 ≤ t.nrAllocatedQueues
      omega
    · intro i h_i
      have h_i : i < t.queueCount + 1 := h_i
      show (t.queues.set qid _)[i]? ≠ some .zero
      by_cases h_eq : i = qid
      · have h_lt : qid < t.queues.length := by
          rw [h.length]
          exact h_room
        rw [h_eq, List.getElem?_set_self h_lt]
        -- the new entry has its owner
        intro h_zero
        have h_dev := congrArg QueueMem.hasDev (Option.some.inj h_zero)
        cases h_dev
      · rw [List.getElem?_set_ne (Ne.symm h_eq)]
        exact h.used i (by omega)

/-! ## The update -/

variable {α : Type} {zero : α}

/-- The device of `Nvme.Dev` with these queues; there is nothing past the array. -/
def QueueTable.toDev (t : QueueTable NvmeQueue) (dev : NvmeDev) : NvmeDev :=
  { dev with
    queues := fun qid => t.queues.getD qid .zero
    nrAllocatedQueues := t.nrAllocatedQueues
    queueCount := t.queueCount }

/-- The update of the setup's model is the update of the array. -/
theorem extraqUpdateTable_setup (arrayAlloc : Bool) (t : QueueTable NvmeQueue) (dev : NvmeDev)
    (nrIoQueues : Nat) :
    nvmeBlexExtraqUpdateQueues arrayAlloc (t.toDev dev) nrIoQueues =
      if (extraqUpdateTable .zero arrayAlloc t nrIoQueues).1 = 0 then
        some ((extraqUpdateTable .zero arrayAlloc t nrIoQueues).2.toDev dev)
      else none := by
  have h_alloc : (t.toDev dev).nrAllocatedQueues = t.nrAllocatedQueues := rfl
  rw [nvmeBlexExtraqUpdateQueues, extraqUpdateTable, h_alloc]
  split
  case isTrue => rfl
  case isFalse =>
    cases arrayAlloc with
    | false => rfl
    | true =>
        have h_queues : (fun qid => if qid = 0 then (t.toDev dev).queues 0 else NvmeQueue.zero) =
            fun qid => ((List.replicate (nrIoQueues + 1) NvmeQueue.zero).set 0
              (t.queues.headD .zero)).getD qid .zero := by
          funext qid
          cases qid with
          | zero => cases h : t.queues <;> simp [QueueTable.toDev, h]
          | succ qid =>
              simp only [List.replicate_succ, List.set_cons_zero, List.getD_cons_succ,
                if_neg (Nat.succ_ne_zero qid)]
              rw [List.getD_eq_getElem?_getD, List.getElem?_replicate]
              split <;> rfl
        simp only [Bool.not_true, Bool.false_eq_true, if_false, if_true, h_queues]
        rfl

/-- With a result of 0 the array has room for the queues, and those in use are what they were;
with an error nothing has changed. -/
def KeepsQueues (t : QueueTable α) (nrIoQueues : Nat) (r : Int × QueueTable α) : Prop :=
  (r.1 = 0 → nrIoQueues < r.2.queues.length ∧
    ∀ qid < t.queueCount, r.2.queues[qid]? = t.queues[qid]?) ∧
  (r.1 ≠ 0 → r.2 = t)

/-- A larger array keeps the admin queue alone. -/
theorem extraqUpdateTable_keeps_iff {t : QueueTable α} (h : TableWf zero t) (arrayAlloc : Bool)
    (nrIoQueues : Nat) :
    KeepsQueues t nrIoQueues (extraqUpdateTable zero arrayAlloc t nrIoQueues) ↔
      nrIoQueues ≤ t.nrAllocatedQueues - 1 ∨ arrayAlloc = false ∨ t.queueCount ≤ 1 := by
  have h_pos := h.pos
  rw [extraqUpdateTable]
  split
  case isTrue h_fits =>
    refine iff_of_true ⟨fun _ => ⟨?_, fun _ _ => rfl⟩, fun _ => rfl⟩ (.inl h_fits)
    rw [h.length]
    omega
  case isFalse h_more =>
    cases arrayAlloc with
    | false =>
        refine iff_of_true ⟨fun h_ret => ?_, fun _ => rfl⟩ (.inr (.inl rfl))
        exact absurd h_ret (show enomem ≠ 0 by decide)
    | true =>
        have h_ne : t.queues ≠ [] := by
          intro h_nil
          have h_length := h.length
          rw [h_nil] at h_length
          exact absurd h_length (by simpa using Nat.ne_of_lt h_pos)
        obtain ⟨q, qs, h_queues⟩ := List.exists_cons_of_ne_nil h_ne
        have h_new : (List.replicate (nrIoQueues + 1) zero).set 0 (t.queues.headD zero) =
            q :: List.replicate nrIoQueues zero := by
          rw [h_queues]
          rfl
        simp only [Bool.not_true, Bool.false_eq_true, if_false, h_new]
        constructor
        · rintro ⟨h_kept, -⟩
          obtain ⟨h_length, h_same⟩ := h_kept rfl
          rcases Nat.lt_or_ge 1 t.queueCount with h_count | h_count
          · -- entry 1 is zeroed, and was in use
            have h_one := h_same 1 h_count
            have h_lt : 0 < nrIoQueues := by omega
            rw [List.getElem?_cons_succ, List.getElem?_replicate, if_pos h_lt] at h_one
            exact absurd h_one.symm (h.used 1 h_count)
          · exact .inr (.inr h_count)
        · rintro (h_fits | h_alloc | h_count)
          · exact absurd h_fits h_more
          · cases h_alloc
          · refine ⟨fun _ => ⟨?_, ?_⟩, fun h_ret => absurd rfl h_ret⟩
            · rw [List.length_cons, List.length_replicate]
              exact Nat.lt_succ_self _
            · intro qid h_qid
              have h_zero : qid = 0 := by omega
              rw [h_zero, h_queues]
              rfl

/-- Three entries, of which the first `queueCount` are in use. -/
def threeEntries (queueCount : Nat) : QueueTable QueueMem :=
  ⟨(List.range 3).map fun qid =>
      if qid < queueCount then ⟨true, some (2 * qid), some (2 * qid + 1), 1024, 6, 0, 1, qid⟩
      else .zero,
    3, queueCount, 0, 0⟩

/-- The first probe: the admin queue survives. -/
theorem threeEntries_probe :
    TableWf .zero (threeEntries 1) ∧
      KeepsQueues (threeEntries 1) 4 (extraqUpdateTable .zero true (threeEntries 1) 4) := by
  have h_wf : TableWf .zero (threeEntries 1) := by
    refine ⟨by decide, by decide, by decide, ?_⟩
    intro qid h_qid
    have h_zero : qid = 0 := Nat.lt_one_iff.mp h_qid
    rw [h_zero]
    decide
  exact ⟨h_wf, (extraqUpdateTable_keeps_iff h_wf true 4).mpr (.inr (.inr (by decide)))⟩

/-- A reset that is granted two queues more: the I/O queues are zeroed. -/
theorem threeEntries_reset :
    (threeEntries 3).queues[1]? = some ⟨true, some 2, some 3, 1024, 6, 0, 1, 1⟩ ∧
      (extraqUpdateTable .zero true (threeEntries 3) 4).1 = 0 ∧
      (extraqUpdateTable .zero true (threeEntries 3) 4).2.queues[1]? = some .zero ∧
      ¬ KeepsQueues (threeEntries 3) 4 (extraqUpdateTable .zero true (threeEntries 3) 4) := by
  refine ⟨by decide, by decide, by decide, ?_⟩
  rintro ⟨h_kept, -⟩
  exact absurd ((h_kept (by decide)).2 1 (by decide)) (by decide)

end Daredevil.Nvme
