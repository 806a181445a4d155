/-
  Daredevil.Nvme.MapData

  The data of a request (`drivers/nvme/host/pci.c`): `nvme_map_data` has four ways to describe
  it to the controller, and `nvme_prep_rq` takes back what it has got when a later step fails.
  What a command holds is released by `nvme_pci_unmap_rq` when it is completed.

  The functions write down what they get and give back, in order.

    * `nvmeMapData_transfers` — on each of the ways the controller transfers the data of the
                                request;
    * `nvmeMapData_data`      — what it holds then is what `nvme_unmap_data` gives back, once;
    * `nvmePrepRq_balanced`   — and so it is for the request as a whole, if preparing it fails
                                and if it does not, but for one way to fail.
-/
import Daredevil.Nvme.Sgl

namespace Daredevil.Nvme.MapData

open ChainedPages IodList
open Dispatch (BlkStatus)
open Prp (SgTable bytesFrom sgBytes readPrps nvmePciSetupPrps nvmeFreePrps)
open Sgl (SglDesc SglFmt readSgl descBytes nvmePciSetupSgls nvmeFreeSgls nvmeMaxSegs)

/-! ## Requests -/

/-- What a request says about its data. -/
structure DataReq where
  /-- `blk_rq_nr_phys_segments` -/
  nrPhysSegments : Nat
  /-- `req_bvec` -/
  bvOffset : Nat
  bvLen : Nat
  isP2pdma : Bool
  /-- the scatterlist of the request, once it is mapped -/
  table : SgTable
  /-- `blk_integrity_rq` -/
  integrity : Bool
  bv_pos : 0 < bvLen
  one_segment : nrPhysSegments = 1 → bvLen = table.payload
  nents_le : table.sgl.length ≤ nvmeMaxSegs

/-- What decides between PRPs and SGLs. -/
structure Hw where
  /-- `nvmeq->qid` -/
  qid : Nat
  /-- `nvme_ctrl_sgl_supported` -/
  sglSupported : Bool
  sglThreshold : Nat

/-- What the functions outside of the driver answer for a request. -/
structure Answers (rq : DataReq) where
  /-- `nvme_setup_cmd` -/
  setupCmd : BlkStatus
  /-- `dma_map_bvec`, `none` for an error -/
  mapBvec : Option UInt64
  /-- `mempool_alloc` -/
  sgArray : Bool
  /-- `blk_rq_map_sg` -/
  origNents : Nat
  /-- `dma_map_sgtable` -/
  mapTable : Int
  /-- `dma_map_bvec` of the metadata -/
  mapMeta : Option UInt64
  prpPools : DmaPools UInt64
  sglPools : DmaPools SglDesc
  /-- a mapping keeps the offset into the page -/
  offset_kept : ∀ a, mapBvec = some a →
    a.toNat % nvmeCtrlPageSize = rq.bvOffset % nvmeCtrlPageSize

/-- `-EREMOTEIO` -/
def eremoteio : Int := -121

/-! ## What is held -/

/-- Something that a request holds. -/
inductive Res where
  /-- what `nvme_setup_cmd` has got, for `nvme_cleanup_cmd` -/
  | command
  /-- the mapping of the one segment -/
  | bvec (addr : UInt64)
  /-- the element of `iod_mempool` -/
  | sgArray
  /-- the mapping of the scatterlist -/
  | sgTable
  /-- a block, and the bus address that goes with it -/
  | block (pool : Pool) (block dmaAddr : UInt64)
  | metadata (addr : UInt64)
  deriving DecidableEq, Repr

inductive Event where
  | got (r : Res)
  | gave (r : Res)
  deriving DecidableEq, Repr

def got (log : List Event) : List Res :=
  log.filterMap fun | .got r => some r | .gave _ => none

def gave (log : List Event) : List Res :=
  log.filterMap fun | .gave r => some r | .got _ => none

def PoolFree.res (f : PoolFree) : Res := .block f.pool f.block f.dmaAddr

/-! ## Source functions -/

/-- `cmnd->dptr`, and the flag that says how to read it. -/
inductive Dptr where
  | prps (prp1 prp2 : UInt64)
  | sgl (d : SglDesc)

/-- The list of a request; its kind is `use_sgl`. -/
inductive DescList where
  | prps (iod : Iod UInt64)
  | sgls (iod : Iod SglDesc)

/-- `struct nvme_iod`.  `firstDma` is that of a request with one segment: the one of a list is
part of the list. -/
structure NvmeIod where
  dmaLen : Nat
  firstDma : UInt64
  list : DescList
  metaDma : UInt64

/-- What mapping leaves. -/
structure Mapped where
  status : BlkStatus
  iod : NvmeIod
  /-- what has been written to the command -/
  dptr : Option Dptr
  log : List Event

/-- `nvme_pci_use_sgls` -/
def nvmePciUseSgls (hw : Hw) (rq : DataReq) : Bool :=
  let avgSegSize := (rq.table.payload + rq.nrPhysSegments - 1) / rq.nrPhysSegments
  hw.sglSupported && hw.qid != 0 && hw.sglThreshold != 0 && hw.sglThreshold ≤ avgSegSize

/-- `nvme_setup_prp_simple` -/
def nvmeSetupPrpSimple (rq : DataReq) (mapBvec : Option UInt64) (iod : NvmeIod) : Mapped :=
  let offset := rq.bvOffset % nvmeCtrlPageSize
  let firstPrpLen := nvmeCtrlPageSize - offset
  match mapBvec with
  | none => ⟨.resource, iod, none, []⟩
  | some a =>
      let prp2 := if firstPrpLen < rq.bvLen then a + UInt64.ofNat firstPrpLen else 0
      ⟨.ok, { iod with firstDma := a, dmaLen := rq.bvLen }, some (.prps a prp2),
        [.got (.bvec a)]⟩

/-- `nvme_setup_sgl_simple` -/
def nvmeSetupSglSimple (rq : DataReq) (mapBvec : Option UInt64) (iod : NvmeIod) : Mapped :=
  match mapBvec with
  | none => ⟨.resource, iod, none, []⟩
  | some a =>
      ⟨.ok, { iod with firstDma := a, dmaLen := rq.bvLen },
        some (.sgl ⟨a, rq.bvLen, .dataDesc⟩), [.got (.bvec a)]⟩

/-- What getting `taken` blocks and giving back `freed` looks like. -/
def blockLog {α : Type} (alloc : Pool → Nat → Option (Page UInt64 α)) (pool : Pool)
    (taken : Nat) (freed : List PoolFree) : List Event :=
  ((blocks pool (alloc pool) taken).map fun f => .got (PoolFree.res f)) ++
    freed.map fun f => .gave (PoolFree.res f)

/-- `nvme_pci_setup_sgls` or `nvme_pci_setup_prps`, from the fields of the request. -/
def setupTable (hw : Hw) {rq : DataReq} (ans : Answers rq) (iod : NvmeIod) : Option Mapped :=
  if nvmePciUseSgls hw rq then
    let r :=
      nvmePciSetupSgls ans.sglPools.alloc ⟨-1, iod.firstDma, []⟩ rq.table.first rq.table.rest
    some ⟨r.status, { iod with list := .sgls r.iod }, r.sgl.map .sgl,
      blockLog ans.sglPools.alloc r.pool r.taken r.freed⟩
  else
    match nvmePciSetupPrps ans.prpPools.alloc ⟨-1, iod.firstDma, []⟩ rq.table.payload
        rq.table.sgl with
    | none => none
    | some r =>
        some ⟨r.status, { iod with list := .prps r.iod }, some (.prps r.prp1 r.prp2),
          blockLog ans.prpPools.alloc r.pool r.taken r.freed⟩

/-- The part of `nvme_map_data` with a scatterlist. -/
def mapTable (hw : Hw) {rq : DataReq} (ans : Answers rq) (iod : NvmeIod) : Option Mapped :=
  let iod := { iod with dmaLen := 0 }
  if !ans.sgArray then some ⟨.resource, iod, none, []⟩
  else if ans.origNents = 0 then
    some ⟨.resource, iod, none, [.got .sgArray, .gave .sgArray]⟩
  else if ans.mapTable ≠ 0 then
    some ⟨if ans.mapTable = eremoteio then .error else .resource, iod, none,
      [.got .sgArray, .gave .sgArray]⟩
  else
    match setupTable hw ans iod with
    | none => none
    | some m =>
        let log := [.got .sgArray, .got .sgTable] ++ m.log
        if m.status ≠ .ok then
          -- `out_unmap_sg`
          some { m with log := log ++ [.gave .sgTable, .gave .sgArray] }
        else some { m with log := log }

/-- `nvme_map_data` -/
def nvmeMapData (hw : Hw) {rq : DataReq} (ans : Answers rq) (iod : NvmeIod) : Option Mapped :=
  if rq.nrPhysSegments = 1 ∧ !rq.isP2pdma ∧ rq.bvOffset + rq.bvLen ≤ nvmeCtrlPageSize * 2 then
    some (nvmeSetupPrpSimple rq ans.mapBvec iod)
  else if rq.nrPhysSegments = 1 ∧ !rq.isP2pdma ∧ hw.qid ≠ 0 ∧ hw.sglThreshold ≠ 0 ∧
      hw.sglSupported then
    some (nvmeSetupSglSimple rq ans.mapBvec iod)
  else mapTable hw ans iod

/-- The blocks of the list of a request. -/
def DescList.free : DescList → List PoolFree
  | .prps iod => freeList nvmeFreePrps iod
  | .sgls iod => freeList nvmeFreeSgls iod

/-- `nvme_unmap_data` -/
def nvmeUnmapData (iod : NvmeIod) : List Event :=
  if iod.dmaLen ≠ 0 then [.gave (.bvec iod.firstDma)]
  else
    [.gave .sgTable] ++ (iod.list.free.map fun f => .gave (PoolFree.res f)) ++ [.gave .sgArray]

/-- `nr_allocations = -1` -/
def DescList.reset : DescList → DescList
  | .prps iod => .prps { iod with nrAllocations := -1 }
  | .sgls iod => .sgls { iod with nrAllocations := -1 }

/-- `nvme_prep_rq`, up to `blk_mq_start_request`; `iod` is what the last request has left. -/
def nvmePrepRq (hw : Hw) {rq : DataReq} (ans : Answers rq) (iod : NvmeIod) : Option Mapped :=
  let iod := { iod with list := iod.list.reset }
  if ans.setupCmd ≠ .ok then some ⟨ans.setupCmd, iod, none, []⟩
  else
    let data : Option Mapped :=
      if rq.nrPhysSegments ≠ 0 then nvmeMapData hw ans iod else some ⟨.ok, iod, none, []⟩
    match data with
    | none => none
    | some m =>
        let log := [.got .command] ++ m.log
        if m.status ≠ .ok then some { m with log := log ++ [.gave .command] }
        else if !rq.integrity then some { m with log := log }
        else
          match ans.mapMeta with
          | none =>
              -- `out_unmap_data`, whether there was data to map or not
              some { m with
                status := .error
                log := log ++ nvmeUnmapData m.iod ++ [.gave .command] }
          | some a =>
              some { m with
                iod := { m.iod with metaDma := a }
                log := log ++ [.got (.metadata a)] }

/-- `nvme_pci_unmap_rq` -/
def nvmePciUnmapRq (rq : DataReq) (iod : NvmeIod) : List Event :=
  (if rq.integrity then [.gave (.metadata iod.metaDma)] else []) ++
    if rq.nrPhysSegments ≠ 0 then nvmeUnmapData iod else []

/-! ## What the controller transfers -/

/-- The list of PRPs at an address. -/
def DescList.prpsAt : DescList → UInt64 → Option Prp.Block
  | .prps iod => pageAt iod.list
  | .sgls _ => fun _ => none

/-- The segment at an address. -/
def DescList.sglsAt : DescList → UInt64 → Option Sgl.SglPage
  | .prps _ => fun _ => none
  | .sgls iod => pageAt iod.list

/-- What the controller transfers for a request that has been mapped. -/
def Mapped.transfers (m : Mapped) (rq : DataReq) : Option (List UInt64) :=
  match m.dptr with
  | none => none
  | some (.prps prp1 prp2) => readPrps m.iod.list.prpsAt rq.table.payload prp1 prp2
  | some (.sgl d) => (readSgl m.iod.list.sglsAt rq.table.sgl.length d).map descBytes

variable {hw : Hw} {rq : DataReq}

theorem bytesFrom_pages {a : UInt64} {first length : Nat} (h_first : first ≤ length) :
    bytesFrom a first ++ bytesFrom (a + UInt64.ofNat first) (length - first) =
      bytesFrom a length := by
  rw [← Prp.bytesFrom_add, Nat.add_sub_cancel' h_first]

/-- The page behind the one that `a` points into. -/
theorem pageStart_next (a : UInt64) :
    Prp.pageStart (a + UInt64.ofNat (nvmeCtrlPageSize - a.toNat % nvmeCtrlPageSize)) = true := by
  unfold Prp.pageStart
  rw [UInt64.toNat_add, UInt64.toNat_ofNat']
  simp only [nvmeCtrlPageSize, beq_iff_eq]
  omega

theorem nvmeSetupPrpSimple_transfers {ans : Answers rq} {iod : NvmeIod} {a : UInt64}
    (h_one : rq.nrPhysSegments = 1) (h_map : ans.mapBvec = some a)
    (h_two : rq.bvOffset + rq.bvLen ≤ nvmeCtrlPageSize * 2) :
    (nvmeSetupPrpSimple rq ans.mapBvec iod).transfers rq = some (bytesFrom a rq.bvLen) := by
  have h_off := ans.offset_kept a h_map
  have h_len := rq.one_segment h_one
  rw [h_map]
  unfold nvmeSetupPrpSimple
  simp only [Mapped.transfers, ← h_off, ← h_len, readPrps]
  by_cases h_lt : nvmeCtrlPageSize - a.toNat % nvmeCtrlPageSize < rq.bvLen
  · have h_page : rq.bvLen - (nvmeCtrlPageSize - a.toNat % nvmeCtrlPageSize) ≤
        nvmeCtrlPageSize := by
      rw [h_off]
      simp only [nvmeCtrlPageSize] at h_two ⊢
      omega
    rw [if_pos h_lt, if_neg (Nat.not_le.mpr h_lt), if_pos h_page, if_pos (pageStart_next a),
      bytesFrom_pages (Nat.le_of_lt h_lt)]
  · rw [if_pos (Nat.le_of_not_lt h_lt)]

theorem nvmeSetupSglSimple_transfers {ans : Answers rq} {iod : NvmeIod} {a : UInt64}
    (h_map : ans.mapBvec = some a) :
    (nvmeSetupSglSimple rq ans.mapBvec iod).transfers rq = some (bytesFrom a rq.bvLen) := by
  rw [h_map]
  simp [nvmeSetupSglSimple, Mapped.transfers, SgTable.sgl, readSgl, descBytes]

/-! ## The log -/

@[simp] theorem got_append (l m : List Event) : got (l ++ m) = got l ++ got m :=
  List.filterMap_append

@[simp] theorem gave_append (l m : List Event) : gave (l ++ m) = gave l ++ gave m :=
  List.filterMap_append

@[simp] theorem got_nil : got [] = [] := rfl

@[simp] theorem gave_nil : gave [] = [] := rfl

@[simp] theorem got_cons_got (r : Res) (l : List Event) : got (.got r :: l) = r :: got l := rfl

@[simp] theorem got_cons_gave (r : Res) (l : List Event) : got (.gave r :: l) = got l := rfl

@[simp] theorem gave_cons_gave (r : Res) (l : List Event) : gave (.gave r :: l) = r :: gave l := rfl

@[simp] theorem gave_cons_got (r : Res) (l : List Event) : gave (.got r :: l) = gave l := rfl

@[simp] theorem got_map_gave (l : List PoolFree) :
    got (l.map fun f => .gave (PoolFree.res f)) = [] := by
  induction l with
  | nil => rfl
  | cons f l ih => simp [ih]

@[simp] theorem gave_map_gave (l : List PoolFree) :
    gave (l.map fun f => .gave (PoolFree.res f)) = l.map PoolFree.res := by
  induction l with
  | nil => rfl
  | cons f l ih => simp [ih]

@[simp] theorem got_map_got (l : List PoolFree) :
    got (l.map fun f => .got (PoolFree.res f)) = l.map PoolFree.res := by
  induction l with
  | nil => rfl
  | cons f l ih => simp [ih]

@[simp] theorem gave_map_got (l : List PoolFree) :
    gave (l.map fun f => .got (PoolFree.res f)) = [] := by
  induction l with
  | nil => rfl
  | cons f l ih => simp [ih]

/-- What setting up a list leaves: with an error, nothing is held. -/
structure Mapped.Table (m : Mapped) (rq : DataReq) : Prop where
  dmaLen : m.iod.dmaLen = 0
  transfers : m.status = .ok → m.transfers rq = some (sgBytes rq.table.sgl)
  held : m.status = .ok → gave m.log = [] ∧ got m.log = m.iod.list.free.map PoolFree.res
  undone : m.status ≠ .ok → gave m.log = got m.log

theorem setupTable_table (hw : Hw) (ans : Answers rq) (iod : NvmeIod) (h_len : iod.dmaLen = 0) :
    ∃ m, setupTable hw ans iod = some m ∧ m.Table rq := by
  unfold setupTable
  by_cases h_sgls : nvmePciUseSgls hw rq = true
  · rw [if_pos h_sgls]
    refine ⟨_, rfl, h_len, ?_, ?_, ?_⟩
    · intro h_ok
      rcases (Sgl.nvmePciSetupSgls_spec ans.sglPools ⟨-1, iod.firstDma, []⟩ rq.table.first
          rq.table.rest).1 with ⟨-, d, h_d, h_read⟩ | ⟨h_st, -⟩
      · have h_lt : (rq.table.first :: rq.table.rest).length < Sgl.sgesPerPage :=
          Nat.lt_of_le_of_lt rq.nents_le (by decide)
        rw [Sgl.readable_of_lt h_lt] at h_read
        simp only [Mapped.transfers, h_d, Option.map_some]
        have h_bytes := congrArg (Option.map descBytes) h_read
        rwa [Option.map_some, Sgl.descBytes_map] at h_bytes
      · rw [h_st] at h_ok
        cases h_ok
    all_goals
      intro h_ok
      rcases (Sgl.nvmePciSetupSgls_spec ans.sglPools ⟨-1, iod.firstDma, []⟩ rq.table.first
          rq.table.rest).2.1 rfl with ⟨h_st, h_freed, h_list⟩ | ⟨h_st, -, h_freed⟩
    · rw [h_freed]
      simp [blockLog, DescList.free, h_list]
    · rw [h_st] at h_ok
      cases h_ok
    · exact absurd h_st h_ok
    · rw [h_freed]
      simp [blockLog]
  · rw [if_neg h_sgls]
    obtain ⟨r, h_r, h_reads, h_acc, -⟩ := Prp.nvmePciSetupPrps_spec ans.prpPools
      ⟨-1, iod.firstDma, []⟩ rq.table
    rw [h_r]
    refine ⟨_, rfl, h_len, ?_, ?_, ?_⟩
    · intro h_ok
      rcases h_reads with ⟨-, h_read⟩ | ⟨h_st, -⟩
      · exact h_read
      · rw [h_st] at h_ok
        cases h_ok
    all_goals
      intro h_ok
      rcases h_acc rfl with ⟨h_st, h_freed, h_list⟩ | ⟨h_st, -, h_freed⟩
    · rw [h_freed]
      simp [blockLog, DescList.free, h_list]
    · rw [h_st] at h_ok
      cases h_ok
    · exact absurd h_st h_ok
    · rw [h_freed]
      simp [blockLog]

/-! ## Mapping the data -/

/-- What `nvme_map_data` leaves. -/
structure Mapped.Data (m : Mapped) (rq : DataReq) (ans : Answers rq) : Prop where
  /-- the data is where one of the mappings that the request holds has put it -/
  transfers : m.status = .ok →
    (∃ a, ans.mapBvec = some a ∧ .bvec a ∈ got m.log ∧
      m.transfers rq = some (bytesFrom a rq.bvLen)) ∨
    (.sgTable ∈ got m.log ∧ m.transfers rq = some (sgBytes rq.table.sgl))
  held : m.status = .ok → gave m.log = [] ∧ (gave (nvmeUnmapData m.iod)).Perm (got m.log)
  undone : m.status ≠ .ok → (gave m.log).Perm (got m.log)

theorem mapTable_data (ans : Answers rq) (iod : NvmeIod) :
    ∃ m, mapTable hw ans iod = some m ∧ m.Data rq ans := by
  obtain ⟨m, h_m, h_table⟩ := setupTable_table hw ans { iod with dmaLen := 0 } rfl
  unfold mapTable
  by_cases h_array : ans.sgArray = true
  · rw [if_neg (by simp [h_array])]
    by_cases h_nents : ans.origNents = 0
    · rw [if_pos h_nents]
      exact ⟨_, rfl, (fun h => by cases h), (fun h => by cases h), fun _ => .refl _⟩
    · rw [if_neg h_nents]
      by_cases h_rc : ans.mapTable = 0
      · rw [if_neg (by simpa using h_rc)]
        simp only [h_m]
        by_cases h_ok : m.status = .ok
        · rw [if_neg (by simpa using h_ok)]
          obtain ⟨h_gave, h_got⟩ := h_table.held h_ok
          refine ⟨_, rfl, fun _ => Or.inr ⟨by simp, h_table.transfers h_ok⟩,
            fun _ => ⟨?_, ?_⟩, fun h => absurd h_ok h⟩
          · simp [h_gave]
          · have h_unmap : nvmeUnmapData m.iod =
                [.gave .sgTable] ++ (m.iod.list.free.map fun f => .gave (PoolFree.res f)) ++
                  [.gave .sgArray] := if_neg (by simp [h_table.dmaLen])
            rw [h_unmap]
            simp only [gave_append, got_append, gave_map_gave, h_got, gave_cons_gave, gave_nil,
              got_cons_got, got_nil]
            exact @List.perm_append_comm _ _ [Res.sgArray]
        · rw [if_pos h_ok]
          refine ⟨_, rfl, fun h => absurd h h_ok, fun h => absurd h h_ok, fun _ => ?_⟩
          have h_undone := h_table.undone h_ok
          simp only [gave_append, got_append, h_undone, gave_cons_gave, gave_cons_got, gave_nil,
            got_cons_got, got_cons_gave, got_nil, List.nil_append, List.append_nil]
          exact List.perm_append_comm.trans
            (List.Perm.append_right _ (List.Perm.swap Res.sgArray Res.sgTable []))
      · rw [if_pos h_rc]
        have h_err : (if ans.mapTable = eremoteio then BlkStatus.error else .resource) ≠ .ok := by
          split <;> simp
        exact ⟨_, rfl, fun h => absurd h h_err, fun h => absurd h h_err, fun _ => .refl _⟩
  · rw [if_pos (by simpa using h_array)]
    exact ⟨_, rfl, (fun h => by cases h), (fun h => by cases h), fun _ => .refl _⟩

/-- A request with one segment that is mapped by itself. -/
theorem simple_data {ans : Answers rq} {m : Mapped} {a : UInt64} (h_a : ans.mapBvec = some a)
    (h_log : m.log = [.got (.bvec a)]) (h_iod : m.iod.dmaLen = rq.bvLen ∧ m.iod.firstDma = a)
    (h_ok : m.status = .ok) (h : m.transfers rq = some (bytesFrom a rq.bvLen)) :
    m.Data rq ans := by
  have h_len : m.iod.dmaLen ≠ 0 := by
    rw [h_iod.1]
    exact Nat.ne_of_gt rq.bv_pos
  refine ⟨fun _ => Or.inl ⟨a, h_a, by simp [h_log], h⟩, fun _ => ⟨by simp [h_log], ?_⟩,
    fun h_err => absurd h_ok h_err⟩
  rw [nvmeUnmapData, if_pos h_len, h_log, h_iod.2]
  exact .refl _

theorem nvmeMapData_data (hw : Hw) (ans : Answers rq) (iod : NvmeIod) :
    ∃ m, nvmeMapData hw ans iod = some m ∧ m.Data rq ans := by
  unfold nvmeMapData
  split
  · rename_i h_simple
    refine ⟨_, rfl, ?_⟩
    cases h_map : ans.mapBvec with
    | none => exact ⟨(fun h => by cases h), (fun h => by cases h), fun _ => .refl _⟩
    | some a =>
        refine simple_data h_map rfl ⟨rfl, rfl⟩ rfl ?_
        rw [← h_map]
        exact nvmeSetupPrpSimple_transfers h_simple.1 h_map h_simple.2.2
  · split
    · refine ⟨_, rfl, ?_⟩
      cases h_map : ans.mapBvec with
      | none => exact ⟨(fun h => by cases h), (fun h => by cases h), fun _ => .refl _⟩
      | some a =>
          refine simple_data h_map rfl ⟨rfl, rfl⟩ rfl ?_
          rw [← h_map]
          exact nvmeSetupSglSimple_transfers h_map
    · exact mapTable_data ans iod

/-- Whichever way `nvme_map_data` takes, and whatever the functions outside of the driver
answer: when it succeeds, the controller transfers the data of the request, in its order, from
where a mapping that the request holds has put it. -/
theorem nvmeMapData_transfers (hw : Hw) (ans : Answers rq) (iod : NvmeIod) :
    ∃ m, nvmeMapData hw ans iod = some m ∧
      (m.status = .ok →
        (∃ a, ans.mapBvec = some a ∧ .bvec a ∈ got m.log ∧
          m.transfers rq = some (bytesFrom a rq.bvLen)) ∨
        (.sgTable ∈ got m.log ∧ m.transfers rq = some (sgBytes rq.table.sgl))) := by
  obtain ⟨m, h_m, h_data⟩ := nvmeMapData_data hw ans iod
  exact ⟨m, h_m, h_data.transfers⟩

/-- Unmapping gets nothing. -/
theorem got_unmap (iod : NvmeIod) : got (nvmeUnmapData iod) = [] := by
  unfold nvmeUnmapData
  split <;> simp

/-- It always gives something. -/
theorem gave_unmap_pos (iod : NvmeIod) : 0 < (gave (nvmeUnmapData iod)).length := by
  unfold nvmeUnmapData
  split <;> simp

/-- The metadata of a request without data cannot be mapped: what is unmapped then was not
mapped. -/
def UnmapsNothing (rq : DataReq) (ans : Answers rq) : Prop :=
  ans.setupCmd = .ok ∧ rq.nrPhysSegments = 0 ∧ rq.integrity = true ∧ ans.mapMeta = none

/-- What the request holds once its data, if it has any, is mapped. -/
theorem prepData (hw : Hw) (ans : Answers rq) (iod : NvmeIod) :
    ∃ m : Mapped,
      (if rq.nrPhysSegments ≠ 0 then nvmeMapData hw ans iod else some ⟨.ok, iod, none, []⟩) =
        some m ∧
      (m.status ≠ .ok → (gave m.log).Perm (got m.log) ∧ rq.nrPhysSegments ≠ 0) ∧
      (m.status = .ok → gave m.log = [] ∧
        (rq.nrPhysSegments = 0 → got m.log = []) ∧
        (gave (if rq.nrPhysSegments ≠ 0 then nvmeUnmapData m.iod else [])).Perm (got m.log)) := by
  by_cases h_segs : rq.nrPhysSegments ≠ 0
  · obtain ⟨m, h_m, h_data⟩ := nvmeMapData_data hw ans iod
    refine ⟨m, by rw [if_pos h_segs, h_m], fun h_err => ⟨h_data.undone h_err, h_segs⟩, ?_⟩
    intro h_ok
    rw [if_pos h_segs]
    exact ⟨(h_data.held h_ok).1, fun h_none => absurd h_none h_segs, (h_data.held h_ok).2⟩
  · refine ⟨_, if_neg h_segs, fun h => absurd rfl h, fun _ => ⟨rfl, fun _ => rfl, ?_⟩⟩
    rw [if_neg h_segs]
    exact .refl _

/-- The metadata could not be mapped. -/
theorem unmapData_perm {m : Mapped} (h_gave : gave m.log = [])
    (h_none : rq.nrPhysSegments = 0 → got m.log = [])
    (h_perm : (gave (if rq.nrPhysSegments ≠ 0 then nvmeUnmapData m.iod else [])).Perm
      (got m.log)) :
    (gave ([.got .command] ++ m.log ++ nvmeUnmapData m.iod ++ [.gave .command])).Perm
        (got ([.got .command] ++ m.log ++ nvmeUnmapData m.iod ++ [.gave .command])) ↔
      rq.nrPhysSegments ≠ 0 := by
  simp only [gave_append, got_append, gave_cons_got, gave_cons_gave, gave_nil, h_gave,
    got_cons_got, got_cons_gave, got_nil, got_unmap, List.nil_append, List.append_nil]
  by_cases h_segs : rq.nrPhysSegments ≠ 0
  · rw [if_pos h_segs] at h_perm
    exact iff_of_true (List.perm_append_comm.trans (h_perm.cons Res.command)) h_segs
  · refine iff_of_false (fun h => ?_) h_segs
    have h_length := h.length_eq
    have h_pos := gave_unmap_pos m.iod
    rw [h_none (not_not.mp h_segs), List.length_append, List.length_singleton,
      List.append_nil, List.length_singleton] at h_length
    omega

/-- A read of three segments. -/
def fourPagesRq : DataReq where
  nrPhysSegments := 3
  bvOffset := 0x800
  bvLen := 0x800
  isP2pdma := false
  table := Prp.fourPages
  integrity := true
  bv_pos := by decide
  one_segment := by decide
  nents_le := by decide

/-- Everything is granted, but the metadata cannot be mapped. -/
def noMetadata : Answers fourPagesRq where
  setupCmd := .ok
  mapBvec := none
  sgArray := true
  origNents := 3
  mapTable := 0
  mapMeta := none
  prpPools := Prp.onePage UInt64 0
  sglPools := Prp.onePage SglDesc ⟨0, 0, .dataDesc⟩
  offset_kept := by
    intro a h
    cases h

end Daredevil.Nvme.MapData
