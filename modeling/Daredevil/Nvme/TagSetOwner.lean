/-
  Daredevil.Nvme.TagSetOwner

  Who owns `set->blex_info` and `set->nq_reg`: `nvme_pci_alloc_tag_set` with the
  failure of each of its steps, and `nvme_free_tagset`, which a reset without I/O
  queues and `nvme_pci_free_ctrl` both call.

  The functions free and read objects of a heap and note what they do to an object
  that was freed; none of them clears the pointers.  `ownership_iff` says after which
  steps nothing was noted: every teardown of a device with blex is among the others.
-/
import Daredevil.Block.Layout
import Daredevil.Lib.Lts
import Daredevil.Lib.ObjHeap

namespace Daredevil.Nvme.TagSetOwner

/-! ## State -/

inductive Violation where
  | doubleFree
  | useAfterFree
  /-- left in the tag set of a device that has none -/
  | dangling
  deriving DecidableEq, Repr

structure State where
  infos : ObjHeap BlkBlexDevInfo
  /-- the regulators, each with its `blex_info` -/
  regs : ObjHeap Nat
  nrHwQueues : Nat
  /-- `set->blex_info` -/
  blexInfo : Option Nat
  /-- `set->nq_reg` -/
  nqReg : Option Nat
  /-- `set->tags` is not NULL -/
  tags : Bool
  /-- `ctrl.tagset` is not NULL -/
  ctrlTagset : Bool
  violations : List Violation

/-- The return of `blk_mq_alloc_tag_set`. -/
inductive TagSetRet where
  | ok
  /-- the arguments are refused -/
  | einval
  | enomem
  deriving DecidableEq, Repr

/-- What the steps of an attempt return. -/
structure AllocEnv where
  blexInfo : Bool
  nqReg : Bool
  /-- `blk_blex_nq_regulator_alloc_and_init` returns 0 -/
  regulatorInit : Bool
  tagSet : TagSetRet
  /-- `is_kdump_kernel` -/
  kdump : Bool

/-! ## Source functions -/

namespace State

def report (s : State) (bad : Bool) (v : Violation) : State :=
  if bad then { s with violations := s.violations ++ [v] } else s

/-- `kfree` of a `struct blk_blex_dev_info` -/
def kfreeInfo (s : State) : State :=
  match s.blexInfo with
  | none => s
  | some a => if s.infos.live a then { s with infos := s.infos.free a } else s.report true .doubleFree

/-- `kfree` of a `struct blk_blex_nq_regulator` -/
def kfreeReg (s : State) : State :=
  match s.nqReg with
  | none => s
  | some r => if s.regs.live r then { s with regs := s.regs.free r } else s.report true .doubleFree

end State

/-- `blk_blex_nvme_enabled`, which looks at the pointer only where there are several queues. -/
def blkBlexNvmeEnabled (s : State) : Bool × State :=
  (decide (1 < s.nrHwQueues) && s.blexInfo.isSome,
    s.report (decide (1 < s.nrHwQueues) && s.infos.dangles s.blexInfo) .useAfterFree)

/-- `blk_blex_nq_regulator_free`: its loop asks `nq_reg->blex_info` for the number of queues. -/
def blkBlexNqRegulatorFree (s : State) : State :=
  match s.nqReg with
  | none => s
  | some r =>
      match s.regs.cell r with
      | none => s.report true .useAfterFree
      | some info =>
          { s.report (!s.infos.live info) .useAfterFree with regs := s.regs.free r }

/-- `blk_mq_alloc_tag_set` -/
def blkMqAllocTagSet (env : AllocEnv) (s : State) : Bool × State :=
  let ok := decide (env.tagSet = .ok)
  if env.tagSet = .einval then (false, s)
  else
    -- a crash kernel has memory for one queue only
    let s := { s with nrHwQueues := if env.kdump then 1 else s.nrHwQueues }
    let (enabled, s) := blkBlexNvmeEnabled s
    -- the number of tag sets is that of the CQs
    let s := s.report (enabled && s.infos.dangles s.blexInfo) .useAfterFree
    (ok, { s with tags := ok })

/-- The end of `nvme_pci_alloc_tag_set`. -/
def allocTags (env : AllocEnv) (s : State) : State :=
  let (ok, s) := blkMqAllocTagSet env s
  if ok then { s with ctrlTagset := true } else blkBlexNqRegulatorFree s.kfreeInfo

/-- `nvme_pci_alloc_tag_set`; `nvme_blex_init_blex_dev_info` cannot fail. -/
def nvmePciAllocTagSet (env : AllocEnv) (info : BlkBlexDevInfo) (onlineQueues : Nat) (s : State) :
    State :=
  let s := { s with nrHwQueues := onlineQueues - 1 }
  if 1 < s.nrHwQueues then
    if !env.blexInfo then { s with blexInfo := none }
    else
      let infoAddr := s.infos.next
      let s := { s with infos := s.infos.alloc info, blexInfo := some infoAddr }
      if !env.nqReg then State.kfreeInfo { s with nqReg := none }
      else
        -- the regulator takes over `blex_info` before its initialisation can fail
        let s := { s with regs := s.regs.alloc infoAddr, nqReg := some s.regs.next }
        if !env.regulatorInit then s.kfreeInfo.kfreeReg else allocTags env s
  else allocTags env s

/-- `blk_mq_free_tag_set` -/
def blkMqFreeTagSet (s : State) : State :=
  let (enabled, s) := blkBlexNvmeEnabled { s with tags := false }
  if enabled then blkBlexNqRegulatorFree s else s

/-- `nvme_free_tagset` -/
def nvmeFreeTagset (s : State) : State :=
  let s := s.kfreeInfo
  let s := if s.tags then blkMqFreeTagSet s else s
  { s with ctrlTagset := false }

/-! ## Runs -/

inductive Event where
  /-- `nvme_reset_work` with I/O queues online, for a device without a tag set -/
  | allocTagSet (env : AllocEnv) (info : BlkBlexDevInfo) (onlineQueues : Nat)
  /-- `nvme_reset_work` without I/O queues, or `nvme_pci_free_ctrl` -/
  | freeTagset

/-- What an attempt leaves in the tag set when it does not publish it. -/
def checkReturn (s : State) : State :=
  s.report (!s.ctrlTagset && (s.infos.dangles s.blexInfo || s.regs.dangles s.nqReg)) .dangling

def step (s : State) : Event → Option State
  | .allocTagSet env info onlineQueues =>
      if s.ctrlTagset ∨ onlineQueues < 2 then none
      else
        some (checkReturn (nvmePciAllocTagSet env info onlineQueues s))
  | .freeTagset => some (nvmeFreeTagset s)

/-- A device before its first reset. -/
structure Init (s : State) : Prop where
  blexInfo : s.blexInfo = none
  nqReg : s.nqReg = none
  ctrlTagset : s.ctrlTagset = false
  violations : s.violations = []

/-- An attempt for several queues fails at its first allocation or not at all, one for a single
    queue does not fail over blex structures of an earlier attempt, and a teardown finds no
    `blex_info`, or a live one that the block layer does not ask for. -/
def Safe (s : State) : Event → Prop
  | .allocTagSet env _ onlineQueues =>
      if 1 < onlineQueues - 1 then
        env.blexInfo = false ∨ env.nqReg = true ∧ env.regulatorInit = true ∧ env.tagSet = .ok
      else env.tagSet = .ok ∨ s.blexInfo = none ∧ s.nqReg = none
  | .freeTagset => ∀ a, s.blexInfo = some a → s.infos.live a = true ∧ s.nrHwQueues ≤ 1

/-! ## What the functions note -/

section Notes

variable {s s' : State} {a r : Nat}

theorem report_clean {bad : Bool} {v : Violation} :
    (s.report bad v).violations = [] ↔ s.violations = [] ∧ bad = false := by
  cases bad with
  | false => exact (and_iff_left rfl).symm
  | true =>
      show s.violations ++ [v] = [] ↔ _
      rw [List.append_eq_nil_iff]
      refine ⟨fun h => ?_, fun h => ?_⟩
      · cases h.2
      · cases h.2

theorem report_false (v : Violation) : s.report false v = s := rfl

theorem kfreeInfo_live (h_ptr : s.blexInfo = some a) (h_live : s.infos.live a = true) :
    s.kfreeInfo = { s with infos := s.infos.free a } := by
  rw [State.kfreeInfo, h_ptr]
  dsimp only
  rw [if_pos h_live]

theorem kfreeReg_live (h_ptr : s.nqReg = some r) (h_live : s.regs.live r = true) :
    s.kfreeReg = { s with regs := s.regs.free r } := by
  rw [State.kfreeReg, h_ptr]
  dsimp only
  rw [if_pos h_live]

theorem kfreeInfo_null (h_ptr : s.blexInfo = none) : s.kfreeInfo = s := by
  rw [State.kfreeInfo, h_ptr]

theorem kfreeInfo_clean (h : s.kfreeInfo.violations = []) :
    s.violations = [] ∧ s.infos.dangles s.blexInfo = false := by
  rw [State.kfreeInfo] at h
  split at h
  case h_1 h_ptr => exact ⟨h, by rw [h_ptr, ObjHeap.dangles_none]⟩
  case h_2 a h_ptr =>
    split at h
    case isTrue h_live =>
      refine ⟨h, ?_⟩
      rw [h_ptr, ObjHeap.dangles_some, h_live]
      rfl
    case isFalse => cases (report_clean.mp h).2

/-- A regulator that was not freed is freed, after its `blex_info` was read. -/
theorem regulatorFree_clean (h : (blkBlexNqRegulatorFree s).violations = []) :
    s.violations = [] ∧ ∀ r i, s.nqReg = some r → s.regs.cell r = some i →
      s.infos.live i = true := by
  rw [blkBlexNqRegulatorFree] at h
  split at h
  case h_1 h_ptr =>
    refine ⟨h, fun r i h_r => ?_⟩
    rw [h_ptr] at h_r
    cases h_r
  case h_2 r h_ptr =>
    split at h
    case h_1 => cases (report_clean.mp h).2
    case h_2 info h_cell =>
      obtain ⟨h_clean, h_live⟩ := report_clean.mp h
      refine ⟨h_clean, fun r' i h_r h_i => ?_⟩
      rw [h_ptr] at h_r
      cases h_r
      rw [h_cell] at h_i
      cases h_i
      rwa [Bool.not_eq_false'] at h_live

theorem blkMqFreeTagSet_clean (h : (blkMqFreeTagSet s).violations = []) :
    s.violations = [] ∧ (1 < s.nrHwQueues → s.infos.dangles s.blexInfo = false) := by
  have h_enabled : (blkBlexNvmeEnabled { s with tags := false }).2.violations = [] := by
    rw [blkMqFreeTagSet] at h
    dsimp only at h
    split at h
    · exact (regulatorFree_clean h).1
    · exact h
  obtain ⟨h_clean, h_ptr⟩ := report_clean.mp h_enabled
  refine ⟨h_clean, fun h_many => ?_⟩
  rw [decide_eq_true h_many, Bool.true_and] at h_ptr
  exact h_ptr

/-- `blk_blex_nvme_enabled` notes nothing where the pointer does not dangle. -/
theorem enabled_quiet (h_ptr : 1 < s.nrHwQueues → s.infos.dangles s.blexInfo = false) :
    blkBlexNvmeEnabled s = (decide (1 < s.nrHwQueues) && s.blexInfo.isSome, s) ∧
      ((decide (1 < s.nrHwQueues) && s.blexInfo.isSome) && s.infos.dangles s.blexInfo) = false := by
  rw [blkBlexNvmeEnabled]
  by_cases h_many : 1 < s.nrHwQueues
  · rw [h_ptr h_many, Bool.and_false, Bool.and_false]
    exact ⟨rfl, rfl⟩
  · rw [decide_eq_false h_many, Bool.false_and, Bool.false_and]
    exact ⟨rfl, rfl⟩

theorem blkMqAllocTagSet_quiet (env : AllocEnv)
    (h_ptr : 1 < s.nrHwQueues → s.infos.dangles s.blexInfo = false) :
    ∃ nr tags, blkMqAllocTagSet env s =
        (decide (env.tagSet = .ok), { s with nrHwQueues := nr, tags := tags }) ∧
      (env.tagSet = .ok → tags = true) := by
  rw [blkMqAllocTagSet]
  split
  case isTrue h_ret =>
    rw [h_ret]
    exact ⟨s.nrHwQueues, s.tags, rfl, fun h => nomatch h⟩
  case isFalse h_ret =>
    obtain ⟨h_eq, h_false⟩ :=
      enabled_quiet (s := { s with nrHwQueues := if env.kdump then 1 else s.nrHwQueues }) (by
        dsimp only
        split
        · exact fun h_one => absurd h_one (Nat.lt_irrefl 1)
        · exact h_ptr)
    dsimp only at h_false ⊢
    rw [h_eq]
    dsimp only
    rw [h_false, report_false]
    exact ⟨_, _, rfl, fun h => decide_eq_true h⟩

end Notes

/-! ## What safe steps keep -/

structure Inv (s : State) : Prop where
  violations : s.violations = []
  /-- a live `blex_info` is that of a tag set in use -/
  published : ∀ a, s.blexInfo = some a → s.infos.live a = true →
    s.ctrlTagset = true ∧ s.tags = true
  /-- the regulator is not freed, and its `blex_info` is that of the tag set or was freed -/
  reg : ∀ r, s.nqReg = some r →
    ∃ i, s.regs.cell r = some i ∧ (s.blexInfo = some i ∨ s.infos.live i = false)

section Steps

variable {s s' : State} {env : AllocEnv} {info : BlkBlexDevInfo} {onlineQueues : Nat}

theorem Init.inv (h : Init s) : Inv s where
  violations := h.violations
  published a h_a := by
    rw [h.blexInfo] at h_a
    cases h_a
  reg r h_r := by
    rw [h.nqReg] at h_r
    cases h_r

theorem Inv.not_dangles_reg (h : Inv s) : s.regs.dangles s.nqReg = false := by
  cases h_ptr : s.nqReg with
  | none => rfl
  | some r =>
      obtain ⟨i, h_i, -⟩ := h.reg r h_ptr
      rw [ObjHeap.dangles_some, ObjHeap.live, h_i]
      rfl

/-! ### Teardown -/

theorem nvmeFreeTagset_null (h_ptr : s.blexInfo = none) :
    nvmeFreeTagset s = { s with tags := false, ctrlTagset := false } := by
  rw [nvmeFreeTagset, kfreeInfo_null h_ptr]
  by_cases h_tags : s.tags = true
  · rw [if_pos h_tags, blkMqFreeTagSet, blkBlexNvmeEnabled]
    dsimp only
    rw [h_ptr, ObjHeap.dangles_none, Option.isSome_none, Bool.and_false, report_false,
      if_neg Bool.false_ne_true]
  · rw [if_neg h_tags]
    rw [Bool.not_eq_true] at h_tags
    rw [← h_tags]

/-- Where the block layer sees a single queue, only `blex_info` is freed. -/
theorem nvmeFreeTagset_single {a : Nat} (h_ptr : s.blexInfo = some a)
    (h_live : s.infos.live a = true) (h_one : s.nrHwQueues ≤ 1) :
    nvmeFreeTagset s =
      { s with infos := s.infos.free a, tags := false, ctrlTagset := false } := by
  rw [nvmeFreeTagset, kfreeInfo_live h_ptr h_live]
  by_cases h_tags : s.tags = true
  · dsimp only
    rw [if_pos h_tags, blkMqFreeTagSet, blkBlexNvmeEnabled]
    dsimp only
    rw [decide_eq_false (Nat.not_lt.mpr h_one), Bool.false_and, Bool.false_and, report_false,
      if_neg Bool.false_ne_true]
  · dsimp only
    rw [if_neg h_tags]
    rw [Bool.not_eq_true] at h_tags
    rw [← h_tags]

theorem Inv.free_safe (h : Inv s) (h_safe : Safe s .freeTagset) : Inv (nvmeFreeTagset s) := by
  cases h_ptr : s.blexInfo with
  | none =>
      rw [nvmeFreeTagset_null h_ptr]
      exact ⟨h.violations, (fun a h_a => nomatch h_ptr.symm.trans h_a), h.reg⟩
  | some a =>
      obtain ⟨h_live, h_one⟩ := h_safe a h_ptr
      rw [nvmeFreeTagset_single h_ptr h_live h_one]
      refine ⟨h.violations, fun b h_b h_bLive => ?_, fun r h_r => ?_⟩
      · cases h_ptr.symm.trans h_b
        rw [ObjHeap.live_free_self] at h_bLive
        cases h_bLive
      · obtain ⟨i, h_i, h_info⟩ := h.reg r h_r
        refine ⟨i, h_i, .inr ?_⟩
        rcases h_info with h_same | h_freed
        · cases h_ptr.symm.trans h_same
          exact ObjHeap.live_free_self
        · exact ObjHeap.live_free_of_not_live h_freed

theorem Inv.free_clean (h : Inv s) (h_clean : (nvmeFreeTagset s).violations = []) :
    Safe s .freeTagset := by
  intro a h_ptr
  have h_free : s.kfreeInfo.violations = [] ∧
      (s.kfreeInfo.tags = true → 1 < s.kfreeInfo.nrHwQueues →
        s.kfreeInfo.infos.dangles s.kfreeInfo.blexInfo = false) := by
    rw [nvmeFreeTagset] at h_clean
    dsimp only at h_clean
    split at h_clean
    case isTrue =>
      obtain ⟨h_kfree, h_enabled⟩ := blkMqFreeTagSet_clean h_clean
      exact ⟨h_kfree, fun _ => h_enabled⟩
    case isFalse h_tags => exact ⟨h_clean, fun h_true => absurd h_true h_tags⟩
  have h_live : s.infos.live a = true := by
    have h_ok := (kfreeInfo_clean h_free.1).2
    rwa [h_ptr, ObjHeap.dangles_some, Bool.not_eq_false'] at h_ok
  refine ⟨h_live, Nat.not_lt.mp fun h_many => ?_⟩
  have h_read := h_free.2
  rw [kfreeInfo_live h_ptr h_live] at h_read
  have h_ok := h_read (h.published a h_ptr h_live).2 h_many
  dsimp only at h_ok
  rw [h_ptr, ObjHeap.dangles_some, ObjHeap.live_free_self] at h_ok
  cases h_ok

/-! ### Allocation -/

theorem checkReturn_clean : (checkReturn s).violations = [] ↔
    s.violations = [] ∧ (s.ctrlTagset = false →
      s.infos.dangles s.blexInfo = false ∧ s.regs.dangles s.nqReg = false) := by
  rw [checkReturn, report_clean]
  cases s.ctrlTagset with
  | true => exact and_congr_right fun _ => iff_of_true rfl (fun h => nomatch h)
  | false =>
      rw [Bool.not_false, Bool.true_and, Bool.or_eq_false_iff]
      exact and_congr_right fun _ => ⟨fun h _ => h, fun h => h rfl⟩

theorem checkReturn_of_clean (h : (checkReturn s).violations = []) : checkReturn s = s := by
  rw [checkReturn, report_clean] at h
  rw [checkReturn, h.2, report_false]

theorem allocTags_ok (h_ptr : 1 < s.nrHwQueues → s.infos.dangles s.blexInfo = false)
    (h_ret : env.tagSet = .ok) :
    ∃ nr, allocTags env s = { s with nrHwQueues := nr, tags := true, ctrlTagset := true } := by
  obtain ⟨nr, tags, h_eq, h_tags⟩ := blkMqAllocTagSet_quiet env h_ptr
  rw [allocTags, h_eq, decide_eq_true h_ret, h_tags h_ret]
  exact ⟨nr, rfl⟩

theorem allocTags_fails (h_ptr : 1 < s.nrHwQueues → s.infos.dangles s.blexInfo = false)
    (h_ret : env.tagSet ≠ .ok) :
    ∃ nr tags, allocTags env s =
      blkBlexNqRegulatorFree (State.kfreeInfo { s with nrHwQueues := nr, tags := tags }) := by
  obtain ⟨nr, tags, h_eq, -⟩ := blkMqAllocTagSet_quiet env h_ptr
  rw [allocTags, h_eq, decide_eq_false h_ret]
  exact ⟨nr, tags, rfl⟩

/-- Without blex structures there is nothing to clean up. -/
theorem allocTags_fails_null (h_ret : env.tagSet ≠ .ok) (h_info : s.blexInfo = none)
    (h_reg : s.nqReg = none) :
    ∃ nr tags, allocTags env s = { s with nrHwQueues := nr, tags := tags } := by
  have h_ptr : s.infos.dangles s.blexInfo = false := by
    rw [h_info, ObjHeap.dangles_none]
  obtain ⟨nr, tags, h_eq⟩ := allocTags_fails (fun _ => h_ptr) h_ret
  refine ⟨nr, tags, ?_⟩
  rw [h_eq, kfreeInfo_null (s := { s with nrHwQueues := nr, tags := tags }) h_info,
    blkBlexNqRegulatorFree]
  dsimp only
  rw [h_reg]

/-- After the tag set failed, the regulator reads the `blex_info` that was just freed. -/
theorem allocTags_fails_clean (h_ptr : 1 < s.nrHwQueues → s.infos.dangles s.blexInfo = false)
    (h_ret : env.tagSet ≠ .ok) (h_clean : (allocTags env s).violations = [])
    (h_reg : ∀ r, s.nqReg = some r →
      ∃ i, s.regs.cell r = some i ∧ (s.blexInfo = some i ∨ s.infos.live i = false)) :
    s.nqReg = none ∧ s.infos.dangles s.blexInfo = false := by
  obtain ⟨nr, tags, h_eq⟩ := allocTags_fails h_ptr h_ret
  rw [h_eq] at h_clean
  obtain ⟨h_kfree, h_info⟩ := regulatorFree_clean h_clean
  have h_ok := (kfreeInfo_clean h_kfree).2
  refine ⟨?_, h_ok⟩
  by_contra h_some
  obtain ⟨r, h_r⟩ := Option.ne_none_iff_exists'.mp h_some
  obtain ⟨i, h_i, h_old⟩ := h_reg r h_r
  cases h_blex : s.blexInfo with
  | none =>
      rw [kfreeInfo_null (s := { s with nrHwQueues := nr, tags := tags }) h_blex] at h_info
      rcases h_old with h_same | h_freed
      · cases h_blex.symm.trans h_same
      · cases h_freed.symm.trans (h_info r i h_r h_i)
  | some a =>
      have h_live : s.infos.live a = true := by
        rw [show ({ s with nrHwQueues := nr, tags := tags } : State).blexInfo = some a from h_blex,
          ObjHeap.dangles_some, Bool.not_eq_false'] at h_ok
        exact h_ok
      rw [kfreeInfo_live (s := { s with nrHwQueues := nr, tags := tags }) h_blex h_live] at h_info
      have h_read : (s.infos.free a).live i = true := h_info r i h_r h_i
      rcases h_old with h_same | h_freed
      · cases h_blex.symm.trans h_same
        rw [ObjHeap.live_free_self] at h_read
        cases h_read
      · rw [ObjHeap.live_free_of_not_live h_freed] at h_read
        cases h_read

/-- The tag set after `blex_info` was allocated. -/
def withInfo (s : State) (info : BlkBlexDevInfo) (onlineQueues : Nat) : State :=
  { s with
    nrHwQueues := onlineQueues - 1
    infos := s.infos.alloc info
    blexInfo := some s.infos.next }

/-- And after the regulator was. -/
def withReg (s : State) (info : BlkBlexDevInfo) (onlineQueues : Nat) : State :=
  { withInfo s info onlineQueues with
    regs := s.regs.alloc s.infos.next
    nqReg := some s.regs.next }

variable (s info onlineQueues) in
theorem withReg_live : (withReg s info onlineQueues).infos.live s.infos.next = true :=
  ObjHeap.live_alloc_next

theorem withReg_not_dangles :
    (withReg s info onlineQueues).infos.dangles (withReg s info onlineQueues).blexInfo = false := by
  rw [show (withReg s info onlineQueues).blexInfo = some s.infos.next from rfl,
    ObjHeap.dangles_some, withReg_live s info onlineQueues]
  rfl

variable (s info onlineQueues) in
theorem withReg_cell : (withReg s info onlineQueues).regs.cell s.regs.next = some s.infos.next :=
  ObjHeap.cell_alloc_next

theorem alloc_noInfo (h_many : 1 < onlineQueues - 1) (h_info : env.blexInfo = false) :
    nvmePciAllocTagSet env info onlineQueues s =
      { s with nrHwQueues := onlineQueues - 1, blexInfo := none } := by
  rw [nvmePciAllocTagSet]
  dsimp only
  rw [if_pos h_many, h_info, Bool.not_false, if_pos rfl]

theorem alloc_noReg (h_many : 1 < onlineQueues - 1) (h_info : env.blexInfo = true)
    (h_reg : env.nqReg = false) :
    nvmePciAllocTagSet env info onlineQueues s =
      State.kfreeInfo { withInfo s info onlineQueues with nqReg := none } := by
  rw [nvmePciAllocTagSet]
  dsimp only
  rw [if_pos h_many, h_info, h_reg, Bool.not_true, if_neg Bool.false_ne_true, Bool.not_false,
    if_pos rfl]
  rfl

theorem alloc_noInit (h_many : 1 < onlineQueues - 1) (h_info : env.blexInfo = true)
    (h_reg : env.nqReg = true) (h_init : env.regulatorInit = false) :
    nvmePciAllocTagSet env info onlineQueues s =
      (withReg s info onlineQueues).kfreeInfo.kfreeReg := by
  rw [nvmePciAllocTagSet]
  dsimp only
  rw [if_pos h_many, h_info, h_reg, h_init, Bool.not_true, if_neg Bool.false_ne_true,
    if_neg Bool.false_ne_true, Bool.not_false, if_pos rfl]
  rfl

/-- Past the regulator the attempt stands and falls with the tag set. -/
theorem alloc_eq_allocTags (h_many : 1 < onlineQueues - 1) (h_info : env.blexInfo = true)
    (h_reg : env.nqReg = true) (h_init : env.regulatorInit = true) :
    nvmePciAllocTagSet env info onlineQueues s =
      allocTags env (withReg s info onlineQueues) := by
  rw [nvmePciAllocTagSet]
  dsimp only
  rw [if_pos h_many, h_info, h_reg, h_init, Bool.not_true, if_neg Bool.false_ne_true,
    if_neg Bool.false_ne_true, if_neg Bool.false_ne_true]
  rfl

theorem alloc_single (h_one : ¬ 1 < onlineQueues - 1) :
    nvmePciAllocTagSet env info onlineQueues s =
      allocTags env { s with nrHwQueues := onlineQueues - 1 } := by
  rw [nvmePciAllocTagSet]
  exact if_neg h_one

/-- An attempt that fails between its first allocation and the tag set leaves a freed
    `blex_info` behind. -/
theorem alloc_fails_between (h_many : 1 < onlineQueues - 1) (h_unpub : s.ctrlTagset = false)
    (h_info : env.blexInfo = true) (h_fail : ¬ (env.nqReg = true ∧ env.regulatorInit = true)) :
    (checkReturn (nvmePciAllocTagSet env info onlineQueues s)).violations ≠ [] := by
  have h_freed : ∃ t, nvmePciAllocTagSet env info onlineQueues s = t ∧ t.ctrlTagset = false ∧
      t.blexInfo = some s.infos.next ∧ t.infos.live s.infos.next = false := by
    by_cases h_reg : env.nqReg = true
    · have h_init : env.regulatorInit = false :=
        Bool.eq_false_iff.mpr fun h_init => h_fail ⟨h_reg, h_init⟩
      refine ⟨_, alloc_noInit h_many h_info h_reg h_init, ?_⟩
      rw [kfreeInfo_live rfl (withReg_live s info onlineQueues), kfreeReg_live rfl ObjHeap.live_alloc_next]
      exact ⟨h_unpub, rfl, ObjHeap.live_free_self⟩
    · rw [Bool.not_eq_true] at h_reg
      refine ⟨_, alloc_noReg h_many h_info h_reg, ?_⟩
      rw [kfreeInfo_live rfl ObjHeap.live_alloc_next]
      exact ⟨h_unpub, rfl, ObjHeap.live_free_self⟩
  obtain ⟨t, h_eq, h_none, h_ptr, h_live⟩ := h_freed
  rw [h_eq]
  intro h_clean
  have h_ok := ((checkReturn_clean.mp h_clean).2 h_none).1
  rw [h_ptr, ObjHeap.dangles_some, h_live] at h_ok
  cases h_ok

theorem Inv.alloc_clean (h : Inv s) (h_unpub : s.ctrlTagset = false)
    (h_clean : (checkReturn (nvmePciAllocTagSet env info onlineQueues s)).violations = []) :
    Safe s (.allocTagSet env info onlineQueues) := by
  have h_alloc := (checkReturn_clean.mp h_clean).1
  rw [Safe]
  split
  case isTrue h_many =>
    by_cases h_info : env.blexInfo = true
    · have h_steps : env.nqReg = true ∧ env.regulatorInit = true := by
        by_contra h_fail
        exact alloc_fails_between h_many h_unpub h_info h_fail h_clean
      refine .inr ⟨h_steps.1, h_steps.2, ?_⟩
      by_contra h_ret
      rw [alloc_eq_allocTags h_many h_info h_steps.1 h_steps.2] at h_alloc
      have h_none := (allocTags_fails_clean (fun _ => withReg_not_dangles) h_ret h_alloc
        fun r h_r => by
          cases h_r
          exact ⟨s.infos.next, withReg_cell s info onlineQueues, .inl rfl⟩).1
      cases h_none
    · exact .inl (Bool.not_eq_true _ ▸ h_info)
  case isFalse h_one =>
    by_cases h_ret : env.tagSet = .ok
    · exact .inl h_ret
    · rw [alloc_single h_one] at h_alloc
      obtain ⟨h_reg, h_ptr⟩ := allocTags_fails_clean (fun h_many => absurd h_many h_one) h_ret
        h_alloc h.reg
      refine .inr ⟨?_, h_reg⟩
      -- a live `blex_info` would belong to a published tag set
      cases h_blex : s.blexInfo with
      | none => rfl
      | some a =>
          rw [show ({ s with nrHwQueues := onlineQueues - 1 } : State).blexInfo = some a from h_blex,
            ObjHeap.dangles_some, Bool.not_eq_false'] at h_ptr
          cases h_unpub.symm.trans (h.published a h_blex h_ptr).1

theorem checkReturn_published (h : s.ctrlTagset = true) : checkReturn s = s := by
  rw [checkReturn, h, Bool.not_true, Bool.false_and, report_false]

theorem Inv.alloc_safe (h : Inv s) (h_unpub : s.ctrlTagset = false)
    (h_safe : Safe s (.allocTagSet env info onlineQueues)) :
    Inv (checkReturn (nvmePciAllocTagSet env info onlineQueues s)) := by
  rw [Safe] at h_safe
  split at h_safe
  case isTrue h_many =>
    by_cases h_info : env.blexInfo = true
    · obtain ⟨h_reg, h_init, h_ret⟩ := h_safe.resolve_left (ne_false_of_eq_true h_info)
      obtain ⟨nr, h_eq⟩ := allocTags_ok (s := withReg s info onlineQueues)
        (fun _ => withReg_not_dangles) h_ret
      rw [alloc_eq_allocTags h_many h_info h_reg h_init, h_eq, checkReturn_published rfl]
      refine ⟨h.violations, fun _ _ _ => ⟨rfl, rfl⟩, fun r h_r => ?_⟩
      cases h_r
      exact ⟨s.infos.next, withReg_cell s info onlineQueues, .inl rfl⟩
    · -- the pointer becomes NULL, and the object it may have designated was freed
      have h_inv : Inv { s with nrHwQueues := onlineQueues - 1, blexInfo := none } := by
        refine ⟨h.violations, (fun a h_a => nomatch h_a), fun r h_r => ?_⟩
        obtain ⟨i, h_i, h_old⟩ := h.reg r h_r
        refine ⟨i, h_i, .inr (Bool.eq_false_iff.mpr fun h_live => ?_)⟩
        rcases h_old with h_ptr | h_freed
        · cases h_unpub.symm.trans (h.published i h_ptr h_live).1
        · cases h_freed.symm.trans h_live
      have h_clean := checkReturn_of_clean (checkReturn_clean.mpr
        ⟨h_inv.violations, fun _ => ⟨rfl, h_inv.not_dangles_reg⟩⟩)
      rw [alloc_noInfo h_many (Bool.eq_false_iff.mpr h_info), h_clean]
      exact h_inv
  case isFalse h_one =>
    rw [alloc_single h_one]
    by_cases h_ret : env.tagSet = .ok
    · obtain ⟨nr, h_eq⟩ := allocTags_ok (s := { s with nrHwQueues := onlineQueues - 1 })
        (fun h_many => absurd h_many h_one) h_ret
      rw [h_eq, checkReturn_published rfl]
      exact ⟨h.violations, fun _ _ _ => ⟨rfl, rfl⟩, h.reg⟩
    · obtain ⟨h_info, h_reg⟩ := h_safe.resolve_left h_ret
      obtain ⟨nr, tags, h_eq⟩ :=
        allocTags_fails_null (s := { s with nrHwQueues := onlineQueues - 1 }) h_ret h_info h_reg
      have h_inv : Inv { s with nrHwQueues := nr, tags := tags } :=
        ⟨h.violations, (fun a h_a => nomatch h_info.symm.trans h_a), h.reg⟩
      have h_ptr : s.infos.dangles s.blexInfo = false := by
        rw [h_info, ObjHeap.dangles_none]
      have h_clean := checkReturn_of_clean (checkReturn_clean.mpr
        ⟨h_inv.violations, fun _ => ⟨h_ptr, h_inv.not_dangles_reg⟩⟩)
      rw [h_eq, h_clean]
      exact h_inv

/-! ### Every run -/

theorem Inv.step_iff (h : Inv s) {e : Event} (h_step : step s e = some s') :
    (Safe s e → Inv s') ∧ (s'.violations = [] → Safe s e) := by
  cases e with
  | allocTagSet env info onlineQueues =>
      obtain ⟨h_guard, h_eq⟩ := Option.ite_none_left_eq_some.mp h_step
      have h_unpub : s.ctrlTagset = false := Bool.not_eq_true _ ▸ fun h_pub => h_guard (.inl h_pub)
      cases h_eq
      exact ⟨h.alloc_safe h_unpub, h.alloc_clean h_unpub⟩
  | freeTagset =>
      cases h_step
      exact ⟨h.free_safe, h.free_clean⟩

/-- As long as all steps are safe, no object is freed twice, read after it was freed or left
    behind in an unpublished tag set; and each step that is not safe does one of these. -/
theorem ownership_iff (h : Lts.Reach step Safe Init s) :
    s.violations = [] ∧
      ∀ e s', step s e = some s' → (s'.violations = [] ↔ Safe s e) := by
  have h_inv : Inv s := by
    refine h.invariant (fun s h_init => h_init.inv) ?_
    exact fun s e s' h_s h_safe h_step => (h_s.step_iff h_step).1 h_safe
  refine ⟨h_inv.violations, fun e s' h_step => ⟨(h_inv.step_iff h_step).2, ?_⟩⟩
  exact fun h_safe => ((h_inv.step_iff h_step).1 h_safe).violations

end Steps

def unallocated : State := ⟨.empty, .empty, 0, none, none, false, false, []⟩

theorem unallocated_init : Init unallocated := ⟨rfl, rfl, rfl, rfl⟩

/-- Every step of an attempt succeeds. -/
def allOk : AllocEnv := ⟨true, true, true, .ok, false⟩

/-- A first attempt has no memory for `blex_info`, a second one succeeds. -/
theorem ownership_iff_secondAttempt :
    ∃ s, Lts.run step unallocated
        [.allocTagSet { allOk with blexInfo := false } ⟨4, 2⟩ 5, .allocTagSet allOk ⟨4, 2⟩ 5] =
          some s ∧
      s.violations = [] ∧ ∀ e s', step s e = some s' → (s'.violations = [] ↔ Safe s e) := by
  have h_init : Lts.Reach step Safe Init unallocated := .init unallocated_init
  have h_first : Safe unallocated (.allocTagSet { allOk with blexInfo := false } ⟨4, 2⟩ 5) :=
    .inl rfl
  have h_second (s : State) : Safe s (.allocTagSet allOk ⟨4, 2⟩ 5) := .inr ⟨rfl, rfl, rfl⟩
  exact ⟨_, rfl, ownership_iff ((h_init.step h_first rfl).step (h_second _) rfl)⟩

/-- The teardown of a device with blex asks the freed `blex_info` whether there are regulator
    entries to free and how many; a second teardown frees it again. -/
theorem ownership_teardown :
    (Lts.run step unallocated [.allocTagSet allOk ⟨4, 2⟩ 5, .freeTagset, .freeTagset]).map
        (·.violations) = some [.useAfterFree, .useAfterFree, .doubleFree] := by
  rfl

end Daredevil.Nvme.TagSetOwner
