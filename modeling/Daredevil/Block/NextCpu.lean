/-
  Daredevil.Block.NextCpu

  The CPU that a hardware queue is run on: `blk_mq_hctx_next_cpu` and
  `blk_blex_hctx_select_next_cpu` (`block/blk-mq.c`).

  CPU ids are C ints.  Searches in a CPU mask give a value from `nr_cpu_ids` on when they
  find nothing, so such a value must not be looked up in `cpu_online_mask`: `cpu_online` of
  it reads past the mask.  The stock selection falls back to a CPU of `hctx->cpumask`; with
  blex queues the search is in `run_cpumask`, and there is no fallback.

    * `selectBlex_valid_iff`  — when the selection gives a CPU id;
    * `nextCpu_valid_iff`     — when a queue run gets a valid CPU.
-/
import Daredevil.Lib.FindBit

namespace Daredevil.NextCpu

/-! ## The source functions -/

/-- The CPUs of the machine. -/
structure Cpus where
  nrCpuIds : Nat
  /-- the bits that searches look at -/
  nrCpumaskBits : Nat
  cpuOnlineMask : Nat → Bool
  /-- what is read past the mask -/
  pastMask : Int → Bool
  bits_le : nrCpuIds ≤ nrCpumaskBits
  online_lt : ∀ cpu, cpuOnlineMask cpu = true → cpu < nrCpuIds

/-- The fields of a `blk_mq_hw_ctx` that choose the CPU. -/
structure Hctx where
  cpumask : Nat → Bool
  runCpumask : Nat → Bool
  defaultCpu : Nat
  nextCpu : Int
  nextCpuBatch : Int32

/-- What `blk_mq_hctx_next_cpu` returns. -/
inductive WorkCpu where
  /-- `WORK_CPU_UNBOUND` -/
  | unbound
  | cpu (cpu : Int)
  deriving DecidableEq, Repr

/-- `BLK_MQ_CPU_WORK_BATCH` -/
def blkMqCpuWorkBatch : Int32 := 8

namespace Cpus

variable (cpus : Cpus)

/-- A CPU id. -/
def Valid (cpu : Int) : Prop := 0 ≤ cpu ∧ cpu < cpus.nrCpuIds

instance (cpu : Int) : Decidable (cpus.Valid cpu) := inferInstanceAs (Decidable (_ ∧ _))

/-- `cpu_online` -/
def cpuOnline (cpu : Int) : Bool :=
  if cpus.Valid cpu then cpus.cpuOnlineMask cpu.toNat else cpus.pastMask cpu

/-- `cpumask_next_and` with `cpu_online_mask` -/
def cpumaskNextAnd (n : Int) (mask : Nat → Bool) : Nat :=
  -- a negative position is a large unsigned one
  let start := if n + 1 < 0 then cpus.nrCpumaskBits else (n + 1).toNat
  FindBit.findNextBit cpus.nrCpumaskBits (fun cpu => mask cpu && cpus.cpuOnlineMask cpu) start

/-- `cpumask_first_and` with `cpu_online_mask` -/
def cpumaskFirstAnd (mask : Nat → Bool) : Nat :=
  FindBit.findNextBit cpus.nrCpumaskBits (fun cpu => mask cpu && cpus.cpuOnlineMask cpu) 0

/-- `blk_mq_first_mapped_cpu` -/
def blkMqFirstMappedCpu (h : Hctx) : Nat :=
  let cpu := cpus.cpumaskFirstAnd h.cpumask
  if cpu ≥ cpus.nrCpuIds then FindBit.findNextBit cpus.nrCpumaskBits h.cpumask 0 else cpu

/-- `blk_blex_hctx_select_next_cpu` without blex queues -/
def selectMapped (h : Hctx) : Nat :=
  let nextCpu := cpus.cpumaskNextAnd h.nextCpu h.cpumask
  if nextCpu ≥ cpus.nrCpuIds then cpus.blkMqFirstMappedCpu h else nextCpu

/-- `blk_blex_hctx_select_next_cpu` with blex queues -/
def selectBlex (h : Hctx) : Nat :=
  if FindBit.empty cpus.nrCpumaskBits h.runCpumask then h.defaultCpu
  else
    let nextCpu := cpus.cpumaskNextAnd h.nextCpu h.runCpumask
    if nextCpu ≥ cpus.nrCpuIds then cpus.cpumaskFirstAnd h.runCpumask else nextCpu

/-- `blk_blex_hctx_select_next_cpu`; `blexNvmeEnabled` is that of the tag set. -/
def blkBlexHctxSelectNextCpu (blexNvmeEnabled : Bool) (h : Hctx) : Nat :=
  if !blexNvmeEnabled then cpus.selectMapped h else cpus.selectBlex h

/-- What a call returns, leaves in the hctx, and has asked `cpu_online` about. -/
structure Outcome where
  ret : WorkCpu
  hctx : Hctx
  consulted : List Int

/-- `blk_mq_hctx_next_cpu` from the test of `cpu_online` on; `retries` is 0 once `tried` is set. -/
def tryCpu (blexNvmeEnabled : Bool) : Nat → Int → Hctx → Outcome
  | retries, nextCpu, h =>
      if cpus.cpuOnline nextCpu then
        ⟨.cpu nextCpu, { h with nextCpu := nextCpu }, [nextCpu]⟩
      else
        match retries with
        | 0 => ⟨.unbound, { h with nextCpu := nextCpu, nextCpuBatch := 1 }, [nextCpu]⟩
        | retries + 1 =>
            -- `goto select_cpu`
            let selected := cpus.blkBlexHctxSelectNextCpu blexNvmeEnabled h
            let rest := tryCpu blexNvmeEnabled retries selected
              { h with nextCpuBatch := blkMqCpuWorkBatch }
            { rest with consulted := nextCpu :: rest.consulted }

/-- `blk_mq_hctx_next_cpu` -/
def blkMqHctxNextCpu (blexNvmeEnabled : Bool) (nrHwQueues : Nat) (h : Hctx) : Outcome :=
  if nrHwQueues = 1 then ⟨.unbound, h, []⟩
  else
    let h := { h with nextCpuBatch := h.nextCpuBatch - 1 }
    if h.nextCpuBatch ≤ 0 then
      let selected := cpus.blkBlexHctxSelectNextCpu blexNvmeEnabled h
      cpus.tryCpu blexNvmeEnabled 1 selected { h with nextCpuBatch := blkMqCpuWorkBatch }
    else cpus.tryCpu blexNvmeEnabled 1 h.nextCpu h

/-! ## The selection -/

/-- A queue run can select a CPU: one that has requests staged and is online, or the default
CPU if no CPU has. -/
def Selectable (h : Hctx) : Prop :=
  ((∀ cpu < cpus.nrCpumaskBits, h.runCpumask cpu = false) ∧ h.defaultCpu < cpus.nrCpuIds) ∨
    ∃ cpu, h.runCpumask cpu = true ∧ cpus.cpuOnlineMask cpu = true

variable {cpus} {h : Hctx}

theorem valid_natCast {cpu : Nat} : cpus.Valid cpu ↔ cpu < cpus.nrCpuIds := by
  simp only [Valid]
  omega

/-- The search starts over once, and finds a CPU exactly if there is one. -/
theorem search_lt_iff (mask : Nat → Bool) (n : Int) :
    (if cpus.cpumaskNextAnd n mask ≥ cpus.nrCpuIds then cpus.cpumaskFirstAnd mask
      else cpus.cpumaskNextAnd n mask) < cpus.nrCpuIds ↔
      ∃ cpu, mask cpu = true ∧ cpus.cpuOnlineMask cpu = true := by
  have h_mask (cpu : Nat) (h_cpu : (mask cpu && cpus.cpuOnlineMask cpu) = true) :
      cpu < cpus.nrCpuIds := by
    rw [Bool.and_eq_true] at h_cpu
    exact cpus.online_lt cpu h_cpu.2
  simp only [cpumaskNextAnd, cpumaskFirstAnd, ge_iff_le]
  rw [FindBit.findNextBit_wrap h_mask cpus.bits_le]
  simp only [Bool.and_eq_true]

/-- With requests staged only by CPUs that went offline, nothing is selected. -/
theorem selectBlex_valid_iff : cpus.Valid (cpus.selectBlex h) ↔ cpus.Selectable h := by
  rw [valid_natCast, selectBlex, Selectable]
  split
  case isTrue h_empty =>
    have h_none := FindBit.empty_iff.mp h_empty
    constructor
    · exact fun h_default => .inl ⟨h_none, h_default⟩
    · rintro (⟨-, h_default⟩ | ⟨cpu, h_run, h_online⟩)
      · exact h_default
      · have h_lt := Nat.lt_of_lt_of_le (cpus.online_lt cpu h_online) cpus.bits_le
        rw [h_none cpu h_lt] at h_run
        cases h_run
  case isFalse h_some =>
    rw [search_lt_iff]
    constructor
    · exact .inr
    · rintro (⟨h_none, -⟩ | h_common)
      · exact absurd (FindBit.empty_iff.mpr h_none) h_some
      · exact h_common

/-! ## A call -/

/-- The call returns no CPU or an online one, looks up CPU ids only, and stores one. -/
structure OutcomeValid (cpus : Cpus) (o : Outcome) : Prop where
  ret : o.ret = .unbound ∨ ∃ cpu : Nat, o.ret = .cpu cpu ∧ cpus.cpuOnlineMask cpu = true
  consulted : ∀ cpu ∈ o.consulted, cpus.Valid cpu
  stored : cpus.Valid o.hctx.nextCpu

theorem cpuOnline_of_valid {cpu : Int} (h_valid : cpus.Valid cpu) :
    ∃ n : Nat, cpu = n ∧ cpus.cpuOnline cpu = cpus.cpuOnlineMask n := by
  refine ⟨cpu.toNat, ?_, if_pos h_valid⟩
  have h_pos := h_valid.1
  omega

/-- The last look at `cpu_online_mask`. -/
theorem tryCpu_zero (blexNvmeEnabled : Bool) (nextCpu : Int) :
    cpus.OutcomeValid (cpus.tryCpu blexNvmeEnabled 0 nextCpu h) ↔ cpus.Valid nextCpu := by
  rw [tryCpu]
  constructor
  · intro h_outcome
    split at h_outcome <;> exact h_outcome.stored
  · intro h_valid
    split
    case isTrue h_on =>
      obtain ⟨n, rfl, h_eq⟩ := cpuOnline_of_valid h_valid
      rw [h_eq] at h_on
      exact ⟨.inr ⟨n, rfl, h_on⟩, by simpa using h_valid, h_valid⟩
    case isFalse => exact ⟨.inl rfl, by simpa using h_valid, h_valid⟩

/-- The first look, with blex queues. -/
theorem tryCpu_one (nextCpu : Int) :
    cpus.OutcomeValid (cpus.tryCpu true 1 nextCpu h) ↔
      cpus.Valid nextCpu ∧ (cpus.cpuOnline nextCpu = true ∨ cpus.Selectable h) := by
  rw [tryCpu]
  split
  case isTrue h_on =>
    constructor
    · exact fun h_outcome => ⟨h_outcome.stored, .inl h_on⟩
    · rintro ⟨h_valid, -⟩
      obtain ⟨n, rfl, h_eq⟩ := cpuOnline_of_valid h_valid
      rw [h_eq] at h_on
      exact ⟨.inr ⟨n, rfl, h_on⟩, by simpa using h_valid, h_valid⟩
  case isFalse h_off =>
    -- the selection does not look at the batch
    have h_zero : cpus.OutcomeValid (cpus.tryCpu true 0 (cpus.selectBlex h : Nat)
        { h with nextCpuBatch := blkMqCpuWorkBatch }) ↔ cpus.Selectable h := by
      rw [tryCpu_zero, selectBlex_valid_iff]
    constructor
    · intro h_outcome
      refine ⟨h_outcome.consulted nextCpu List.mem_cons_self, .inr (h_zero.mp ⟨h_outcome.ret, ?_,
        h_outcome.stored⟩)⟩
      exact fun cpu h_cpu => h_outcome.consulted cpu (List.mem_cons_of_mem _ h_cpu)
    · rintro ⟨h_valid, h_on | h_select⟩
      · exact absurd h_on h_off
      · have h_rest := h_zero.mpr h_select
        refine ⟨h_rest.ret, ?_, h_rest.stored⟩
        intro cpu h_cpu
        rcases List.mem_cons.mp h_cpu with rfl | h_mem
        · exact h_valid
        · exact h_rest.consulted cpu h_mem

/-- The batch of `next_cpu` is used up by this call. -/
def BatchDone (h : Hctx) : Prop := h.nextCpuBatch - 1 ≤ 0

instance (h : Hctx) : Decidable (BatchDone h) := inferInstanceAs (Decidable (_ ≤ _))

/-- The CPU of a queue run is valid exactly if the batch goes on with an online CPU, or a CPU
can be selected; and, as long as the batch is not used up, `next_cpu` has to be a CPU id. -/
theorem nextCpu_valid_iff (cpus : Cpus) (h : Hctx) {nrHwQueues : Nat} (h_hw : 1 < nrHwQueues) :
    cpus.OutcomeValid (cpus.blkMqHctxNextCpu true nrHwQueues h) ↔
      (¬ BatchDone h → cpus.Valid h.nextCpu) ∧
        ((¬ BatchDone h ∧ cpus.cpuOnline h.nextCpu = true) ∨ cpus.Selectable h) := by
  rw [blkMqHctxNextCpu, if_neg (Nat.ne_of_gt h_hw)]
  dsimp only
  split
  case isTrue h_done =>
    -- the selection is looked up twice if it is not online
    have h_done : BatchDone h := h_done
    have h_one : cpus.OutcomeValid (cpus.tryCpu true 1 (cpus.selectBlex h : Nat)
        { h with nextCpuBatch := blkMqCpuWorkBatch }) ↔ cpus.Selectable h := by
      rw [tryCpu_one, selectBlex_valid_iff]
      exact ⟨And.left, fun h_select => ⟨h_select, .inr h_select⟩⟩
    refine Iff.trans h_one ?_
    simp [h_done]
  case isFalse h_more =>
    have h_more : ¬ BatchDone h := h_more
    rw [tryCpu_one]
    simp only [h_more, not_false_eq_true, true_implies, true_and]
    rfl

/-- Two CPUs, of which CPU 1 went offline. -/
def oneOffline : Cpus where
  nrCpuIds := 2
  nrCpumaskBits := 2
  cpuOnlineMask cpu := cpu == 0
  pastMask _ := false
  bits_le := Nat.le_refl 2
  online_lt cpu h_cpu := by
    have h_zero : cpu = 0 := beq_iff_eq.mp h_cpu
    rw [h_zero]
    exact Nat.zero_lt_two

/-- CPU 1 has staged a request. -/
def stagedOffline : Hctx where
  cpumask _ := true
  runCpumask cpu := cpu == 1
  defaultCpu := 0
  nextCpu := 0
  nextCpuBatch := 1

/-- CPU 0 has staged one too. -/
theorem stagedOnline_valid :
    oneOffline.OutcomeValid
      (oneOffline.blkMqHctxNextCpu true 2 { stagedOffline with runCpumask := fun _ => true }) :=
  (nextCpu_valid_iff oneOffline _ (by decide)).mpr
    ⟨fun h_more => absurd (by decide) h_more, .inr (.inr ⟨0, rfl, rfl⟩)⟩

/-- `cpu_online(2)` is asked on a machine with two CPU ids, and 2 is stored. -/
theorem stagedOffline_pastMask :
    (oneOffline.blkMqHctxNextCpu true 2 stagedOffline).consulted = [2, 2] ∧
      (oneOffline.blkMqHctxNextCpu true 2 stagedOffline).hctx.nextCpu = 2 ∧
      ¬ oneOffline.OutcomeValid (oneOffline.blkMqHctxNextCpu true 2 stagedOffline) := by
  refine ⟨by decide, by decide, ?_⟩
  intro h
  exact absurd h.stored (by decide)

end Cpus

end Daredevil.NextCpu
