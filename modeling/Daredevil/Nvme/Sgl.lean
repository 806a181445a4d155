/-
  Daredevil.Nvme.Sgl

  SGL segments (`nvme_pci_setup_sgls`, `drivers/nvme/host/pci.c`): one descriptor for each
  entry of the scatterlist, in pages of 256.  A descriptor of the command points to the first
  page, and the last slot of a full page to the next one.  Such a descriptor also says how
  many descriptors there are at the other end, and if they are the last ones.

  `nvme_pci_sgl_set_seg` is given the number of the entries that are still to be written, and
  takes fewer than 256 of them for a last segment:

    * up to 255 entries the controller reads all of them;
    * with 256 entries the only page is taken for one that is continued, and the controller
      finds data where it looks for a segment;
    * from 257 entries on, the descriptor that has moved to the last page is not counted, and
      the last entry is not read.

  `NVME_MAX_SEGS` is 127, so that the requests of the driver are of the first kind.

    * `readSgl_behind`         — the pages behind the first one;
    * `nvmePciSetupSgls_spec`  — the descriptors that are read, and the pages given back;
    * `nvmePciSetupSgls_reads` — what the controller transfers, for every number of entries.
-/
import Daredevil.Nvme.Prp

namespace Daredevil.Nvme.Sgl

open ChainedPages IodList
open Dispatch (BlkStatus)
open Prp (Sg bytesFrom sgBytes)

/-! ## Source functions -/

/-- `type` of a descriptor: `NVME_SGL_FMT_*`, shifted. -/
inductive SglFmt where
  | dataDesc
  | segDesc
  | lastSegDesc
  deriving DecidableEq, Repr

/-- `struct nvme_sgl_desc` -/
structure SglDesc where
  addr : UInt64
  length : Nat
  type : SglFmt
  deriving DecidableEq, Repr

/-- `SGES_PER_PAGE` -/
def sgesPerPage : Nat := nvmeCtrlPageSize / 16

/-- `NVME_MAX_SEGS` -/
def nvmeMaxSegs : Nat := 127

/-- `nvme_pci_npages_sgl` -/
def nvmePciNpagesSgl : Nat :=
  (nvmeMaxSegs * 16 + nvmeCtrlPageSize - 1) / nvmeCtrlPageSize

/-- `nvme_pci_sgl_set_data` -/
def nvmePciSglSetData (sg : Sg) : SglDesc := ⟨sg.dmaAddress, sg.dmaLen, .dataDesc⟩

/-- `nvme_pci_sgl_set_seg` -/
def nvmePciSglSetSeg (dmaAddr : UInt64) (entries : Nat) : SglDesc :=
  if entries < sgesPerPage then ⟨dmaAddr, entries * 16, .lastSegDesc⟩
  else ⟨dmaAddr, nvmeCtrlPageSize, .segDesc⟩

/-- `nvme_free_sgls` -/
def nvmeFreeSgls (iod : Iod SglDesc) : List PoolFree :=
  freeChain SglDesc.addr (sgesPerPage - 1) iod

/-- A page of descriptors. -/
abbrev SglPage := Page UInt64 SglDesc

/-- The loop of `nvme_pci_setup_sgls` over what is left of the scatterlist. -/
def setupLoop (alloc : Nat → Option SglPage) :
    List Sg → Pages SglDesc → BlkStatus × Pages SglDesc
  | [], w => (.ok, w)
  | sg :: rest, w =>
      let entries := rest.length + 1
      match nextPage sgesPerPage nvmePciSglSetSeg alloc entries w with
      | none => (.resource, w)
      | some w => setupLoop alloc rest (w.write (nvmePciSglSetData sg))

/-- What `nvme_pci_setup_sgls` leaves. -/
structure Setup where
  status : BlkStatus
  iod : Iod SglDesc
  /-- `cmd->dptr.sgl`, if it has been written -/
  sgl : Option SglDesc
  /-- the blocks that it has given back itself -/
  freed : List PoolFree
  /-- how many blocks it has got, and from which pool -/
  taken : Nat
  pool : Pool

/-- `nvme_pci_setup_sgls`; `first :: rest` is `iod->sgt.sgl`, with `iod->sgt.nents` entries. -/
def nvmePciSetupSgls (alloc : Pool → Nat → Option SglPage) (iod : Iod SglDesc) (first : Sg)
    (rest : List Sg) : Setup :=
  let entries := rest.length + 1
  if entries = 1 then ⟨.ok, iod, some (nvmePciSglSetData first), [], 0, .small⟩
  else
    let (pool, nrAllocations) := poolFor (256 / 16) entries
    match alloc pool 0 with
    | none => ⟨.resource, { iod with nrAllocations := -1 }, none, [], 0, pool⟩
    | some sgList =>
        let sgl := nvmePciSglSetSeg sgList.addr entries
        let (status, w) :=
          setupLoop (alloc pool) (first :: rest) ⟨0, [], sgList, nrAllocations, 1⟩
        let iod : Iod SglDesc := ⟨w.nrAllocations, sgList.addr, w.full ++ [w.last]⟩
        match status with
        | .ok => ⟨.ok, iod, some sgl, [], w.allocs, pool⟩
        | status => ⟨status, iod, some sgl, nvmeFreeSgls iod, w.allocs, pool⟩

/-! ## What the descriptors describe -/

/-- The descriptors of a segment, if they are all of data. -/
def dataOnly (ds : List SglDesc) : Option (List SglDesc) :=
  if ds.all (·.type == .dataDesc) then some ds else none

/-- The controller: the descriptors of data behind `d`, in order.  The last descriptor of a
segment that is not the last one is a segment again. -/
def readSgl (mem : UInt64 → Option SglPage) : Nat → SglDesc → Option (List SglDesc)
  | 0, _ => none
  | fuel + 1, d =>
      match d.type with
      | .dataDesc => some [d]
      | .lastSegDesc =>
          match mem d.addr with
          | none => none
          | some p => dataOnly ((List.range (d.length / 16)).map p.slot)
      | .segDesc =>
          match mem d.addr with
          | none => none
          | some p =>
              let next := p.slot (d.length / 16 - 1)
              if next.type = .dataDesc then none
              else
                match dataOnly ((List.range (d.length / 16 - 1)).map p.slot),
                    readSgl mem fuel next with
                | some ds, some ds' => some (ds ++ ds')
                | _, _ => none

/-! ## The loop -/

variable {pool : Pool} {alloc : Nat → Option SglPage} {w : Pages SglDesc} {xs : List SglDesc}
  {p : SglPage} {left : Nat}

/-- The pages hold `xs`, and `left` descriptors are to come. -/
abbrev Lists (pool : Pool) (alloc : Nat → Option SglPage) (w : Pages SglDesc)
    (xs : List SglDesc) (left : Nat) : Prop :=
  w.Lists sgesPerPage (256 / 16) nvmePciSglSetSeg pool alloc xs left

theorem sgesPerPage_bounds : 256 / 16 < sgesPerPage ∧ 2 ≤ sgesPerPage := by decide

@[simp] theorem nvmePciSglSetSeg_addr (a : UInt64) (n : Nat) :
    (nvmePciSglSetSeg a n).addr = a := by
  unfold nvmePciSglSetSeg
  split <;> rfl

/-- How the loop ends that still has `todo` to write: with all of it in the pages, or without
memory. -/
def Ends (pool : Pool) (alloc : Nat → Option SglPage) (xs : List SglDesc) (todo : List Sg)
    (out : BlkStatus × Pages SglDesc) : Prop :=
  (out.1 = .ok ∧ Lists pool alloc out.2 (xs ++ todo.map nvmePciSglSetData) 0) ∨
  (out.1 = .resource ∧ alloc out.2.allocs = none ∧ pool = .page ∧
    out.2.nrAllocations = out.2.full.length + 1 ∧
    ∃ ys left, ys.length + left = xs.length + todo.length ∧ Lists pool alloc out.2 ys left)

theorem setupLoop_ends (todo : List Sg) (h : Lists pool alloc w xs todo.length) :
    Ends pool alloc xs todo (setupLoop alloc todo w) := by
  induction todo generalizing w xs with
  | nil =>
      refine Or.inl ⟨rfl, ?_⟩
      rw [List.map_nil, List.append_nil]
      exact h
  | cons sg rest ih =>
      cases h_next : nextPage sgesPerPage nvmePciSglSetSeg alloc (rest.length + 1) w with
      | none =>
          obtain ⟨h_full, h_none⟩ := nextPage_none h_next
          obtain ⟨h_pool, h_nr⟩ := Pages.Lists.mode_of_full h sgesPerPage_bounds.1 h_full
          have h_eq : setupLoop alloc (sg :: rest) w = (.resource, w) := by
            simp only [setupLoop, h_next]
          rw [h_eq]
          exact Or.inr ⟨rfl, h_none, h_pool, h_nr, xs, _, rfl, h⟩
      | some w' =>
          have h_round := Pages.Lists.round (x := nvmePciSglSetData sg) h sgesPerPage_bounds.1
            sgesPerPage_bounds.2 (fun _ => rfl) h_next
          have h_eq : setupLoop alloc (sg :: rest) w =
              setupLoop alloc rest (w'.write (nvmePciSglSetData sg)) := by
            simp only [setupLoop, h_next]
          rw [h_eq]
          rcases ih h_round with ⟨h_ok, h_lists⟩ |
              ⟨h_st, h_none, h_pool, h_nr, ys, left, h_ys, h_lists⟩
          · refine Or.inl ⟨h_ok, ?_⟩
            rwa [List.append_assoc] at h_lists
          · refine Or.inr ⟨h_st, h_none, h_pool, h_nr, ys, left, ?_, h_lists⟩
            rw [h_ys, List.length_append, List.length_singleton, List.length_cons]
            omega

/-- The pages of as many entries as a request has at the most. -/
theorem allocs_le (h : Lists pool alloc w xs left) (h_len : xs.length ≤ nvmeMaxSegs) :
    w.allocs ≤ nvmePciNpagesSgl := by
  by_cases h_one : w.allocs = 1
  · rw [h_one]
    decide
  · have h_lt := Pages.Lists.allocs_mul_le h sgesPerPage_bounds.2 h_one
    have h_cap : sgesPerPage - 1 = 255 := by decide
    have h_max : nvmeMaxSegs = 127 := rfl
    have h_allocs := h.allocs_eq
    rw [h_cap] at h_lt
    omega

/-! ## Reading -/

theorem dataOnly_eq {ds : List SglDesc} (h : ∀ d ∈ ds, d.type = .dataDesc) :
    dataOnly ds = some ds := by
  rw [dataOnly, if_pos]
  simpa using h

/-- A last segment. -/
theorem readSgl_lastSeg {mem : UInt64 → Option SglPage} {fuel n : Nat}
    (h_mem : mem p.addr = some p) (h_n : n < sgesPerPage) (h_le : n ≤ xs.length)
    (h_slots : ∀ i, i < n → xs[i]? = some (p.slot i))
    (h_data : ∀ d ∈ xs, d.type = .dataDesc) :
    readSgl mem (fuel + 1) (nvmePciSglSetSeg p.addr n) = some (xs.take n) := by
  unfold nvmePciSglSetSeg
  rw [if_pos h_n]
  simp only [readSgl, h_mem, Nat.mul_div_cancel n (by decide : 0 < 16)]
  rw [take_eq_slots h_le h_slots]
  exact dataOnly_eq fun d h_d => h_data d (List.mem_of_mem_take h_d)

/-- A segment that is continued. -/
theorem readSgl_seg {mem : UInt64 → Option SglPage} {fuel n m : Nat} {a : UInt64}
    (h_mem : mem p.addr = some p) (h_n : sgesPerPage ≤ n) (h_len : sgesPerPage ≤ xs.length)
    (h_slots : ∀ i, i + 1 < sgesPerPage → xs[i]? = some (p.slot i))
    (h_link : p.slot (sgesPerPage - 1) = nvmePciSglSetSeg a m)
    (h_data : ∀ d ∈ xs, d.type = .dataDesc) {ds : List SglDesc}
    (h_rest : readSgl mem fuel (nvmePciSglSetSeg a m) = some ds) :
    readSgl mem (fuel + 1) (nvmePciSglSetSeg p.addr n) =
      some (xs.take (sgesPerPage - 1) ++ ds) := by
  have h_type : (nvmePciSglSetSeg a m).type ≠ .dataDesc := by
    unfold nvmePciSglSetSeg
    split <;> simp
  have h_take := take_eq_slots (p := p) (n := sgesPerPage - 1) (by omega)
    (fun i h_i => h_slots i (by omega))
  have h_seg : nvmePciSglSetSeg p.addr n = ⟨p.addr, nvmeCtrlPageSize, .segDesc⟩ :=
    if_neg (Nat.not_lt.mpr h_n)
  rw [h_seg]
  simp only [readSgl, h_mem]
  rw [show nvmeCtrlPageSize / 16 - 1 = sgesPerPage - 1 from rfl, h_link, if_neg h_type, h_take,
    dataOnly_eq (fun d h_d => h_data d (List.mem_of_mem_take h_d)), h_rest]

theorem take_append_dropLast {n : Nat} {xs : List SglDesc} (h : n < xs.length) :
    xs.take n ++ (xs.drop n).dropLast = xs.dropLast := by
  rw [List.dropLast_eq_take, List.dropLast_eq_take, List.length_drop, ← List.take_add]
  congr 1
  omega

/-- The pages behind a link: it counts what was still to come, which leaves out the entry that
has moved, so that the last one is not read. -/
theorem readSgl_behind {ps : List SglPage} {a : UInt64} {mem : UInt64 → Option SglPage}
    (h : Holds sgesPerPage nvmePciSglSetSeg 0 ps xs) (h_head : ps.head?.map Page.addr = some a)
    (h_mem : ∀ q ∈ ps, mem q.addr = some q) (h_data : ∀ d ∈ xs, d.type = .dataDesc)
    (h_pos : 2 ≤ xs.length) {fuel : Nat} (h_fuel : xs.length ≤ fuel) :
    readSgl mem fuel (nvmePciSglSetSeg a (xs.length - 1)) = some xs.dropLast := by
  induction h generalizing a fuel with
  | @last q xs h_le h_slots =>
      obtain rfl : q.addr = a := by simpa using h_head
      obtain ⟨fuel, rfl⟩ : ∃ k, fuel = k + 1 := ⟨fuel - 1, by omega⟩
      rw [readSgl_lastSeg (h_mem q (by simp)) (by omega) (Nat.sub_le _ _)
        (fun i h_i => h_slots i (by omega)) h_data, List.dropLast_eq_take]
  | @link q ps xs b h_next h_lt h_slots h_link h_rest ih =>
      obtain rfl : q.addr = a := by simpa using h_head
      obtain ⟨fuel, rfl⟩ : ∃ k, fuel = k + 1 := ⟨fuel - 1, by omega⟩
      have h_cap : 2 ≤ sgesPerPage := sgesPerPage_bounds.2
      have h_len : (xs.drop (sgesPerPage - 1)).length = xs.length - (sgesPerPage - 1) :=
        List.length_drop
      have h_fuel' : (xs.drop (sgesPerPage - 1)).length ≤ fuel := by omega
      have h_tail := ih h_next (fun r h_r => h_mem r (by simp [h_r]))
        (fun d h_d => h_data d (List.mem_of_mem_drop h_d)) (by omega) h_fuel'
      rw [h_len, show xs.length - (sgesPerPage - 1) - 1 = xs.length - sgesPerPage + 0 by omega]
        at h_tail
      rw [readSgl_seg (h_mem q (by simp)) (by omega) (by omega) h_slots h_link h_data h_tail,
        take_append_dropLast (by omega)]

/-- What the controller reads of `entries` entries. -/
def readable (ds : List SglDesc) : Option (List SglDesc) :=
  if ds.length < sgesPerPage then some ds
  else if ds.length = sgesPerPage then none
  else some ds.dropLast

/-- What the controller reads from the descriptor of the command on. -/
theorem Holds.readSgl {ps : List SglPage} {a : UInt64} {mem : UInt64 → Option SglPage}
    (h : Holds sgesPerPage nvmePciSglSetSeg 0 ps xs) (h_head : ps.head?.map Page.addr = some a)
    (h_mem : ∀ q ∈ ps, mem q.addr = some q) (h_data : ∀ d ∈ xs, d.type = .dataDesc)
    {fuel : Nat} (h_fuel : xs.length ≤ fuel) (h_pos : 0 < xs.length) :
    readSgl mem fuel (nvmePciSglSetSeg a xs.length) = readable xs := by
  have h_cap : 2 ≤ sgesPerPage := sgesPerPage_bounds.2
  obtain ⟨fuel, rfl⟩ : ∃ k, fuel = k + 1 := ⟨fuel - 1, by omega⟩
  unfold readable
  cases h with
  | @last q _ h_le h_slots =>
      obtain rfl : q.addr = a := by simpa using h_head
      rcases Nat.lt_or_eq_of_le h_le with h_lt | h_eq
      · rw [if_pos h_lt, readSgl_lastSeg (h_mem q (by simp)) h_lt (Nat.le_refl _) h_slots h_data,
          List.take_length]
      · -- the page is taken for one that is continued
        rw [if_neg (by omega), if_pos h_eq, h_eq]
        have h_seg : nvmePciSglSetSeg q.addr sgesPerPage =
            ⟨q.addr, nvmeCtrlPageSize, .segDesc⟩ := if_neg (Nat.lt_irrefl _)
        have h_slot := h_slots (sgesPerPage - 1) (by omega)
        have h_type := h_data _ (List.mem_of_getElem? h_slot)
        rw [h_seg]
        simp only [Sgl.readSgl, h_mem q (List.mem_singleton.mpr rfl)]
        rw [show nvmeCtrlPageSize / 16 - 1 = sgesPerPage - 1 from rfl, if_pos h_type]
  | @link q ps _ b h_next h_lt h_slots h_link h_rest =>
      obtain rfl : q.addr = a := by simpa using h_head
      have h_len : (xs.drop (sgesPerPage - 1)).length = xs.length - (sgesPerPage - 1) :=
        List.length_drop
      have h_fuel' : (xs.drop (sgesPerPage - 1)).length ≤ fuel := by omega
      have h_tail := readSgl_behind h_rest h_next (fun r h_r => h_mem r (by simp [h_r]))
        (fun d h_d => h_data d (List.mem_of_mem_drop h_d)) (by omega) h_fuel'
      rw [h_len, show xs.length - (sgesPerPage - 1) - 1 = xs.length - sgesPerPage + 0 by omega]
        at h_tail
      rw [if_neg (by omega), if_neg (by omega),
        readSgl_seg (h_mem q (by simp)) (by omega) (by omega) h_slots h_link h_data h_tail,
        take_append_dropLast (by omega)]

/-! ## The whole command -/

/-- The bytes that descriptors of data transfer. -/
def descBytes (ds : List SglDesc) : List UInt64 := ds.flatMap fun d => bytesFrom d.addr d.length

theorem descBytes_map (sgl : List Sg) : descBytes (sgl.map nvmePciSglSetData) = sgBytes sgl := by
  unfold descBytes sgBytes
  rw [List.flatMap_map]
  rfl

theorem setData_type {sgl : List Sg} : ∀ d ∈ sgl.map nvmePciSglSetData, d.type = .dataDesc := by
  intro d h_d
  obtain ⟨sg, -, rfl⟩ := List.mem_map.mp h_d
  rfl

/-- What becomes of the blocks of a list, as for PRPs. -/
def Setup.Accounts (pools : DmaPools SglDesc) (r : Setup) : Prop :=
  (r.status = .ok ∧ r.freed = [] ∧
    freeList nvmeFreeSgls r.iod = blocks r.pool (pools.alloc r.pool) r.taken) ∨
  (r.status = .resource ∧ pools.alloc r.pool r.taken = none ∧
    r.freed = blocks r.pool (pools.alloc r.pool) r.taken)

/-- What a command says about its data. -/
def Setup.Reads (r : Setup) (sgl : List Sg) : Prop :=
  ∃ d, r.sgl = some d ∧
    readSgl (pageAt r.iod.list) sgl.length d = readable (sgl.map nvmePciSglSetData)

theorem nvmePciSetupSgls_spec (pools : DmaPools SglDesc) (iod : Iod SglDesc) (first : Sg)
    (rest : List Sg) :
    let r := nvmePciSetupSgls pools.alloc iod first rest
    ((r.status = .ok ∧ r.Reads (first :: rest)) ∨
      (r.status = .resource ∧ pools.alloc r.pool r.taken = none)) ∧
      (iod.nrAllocations = -1 → r.Accounts pools) ∧
      (rest.length < nvmeMaxSegs → r.taken ≤ nvmePciNpagesSgl) := by
  unfold nvmePciSetupSgls
  by_cases h_one : rest.length + 1 = 1
  · obtain rfl : rest = [] := List.length_eq_zero_iff.mp (by omega)
    refine ⟨Or.inl ⟨rfl, _, rfl, rfl⟩, fun h_iod => Or.inl ⟨rfl, rfl, ?_⟩,
      fun _ => Nat.zero_le _⟩
    exact freeList_noList SglDesc.addr (sgesPerPage - 1) _ h_iod
  · simp only [if_neg h_one]
    generalize h_pool : (poolFor (256 / 16) (rest.length + 1)).1 = pool
    cases h_alloc : pools.alloc pool 0 with
    | none =>
        exact ⟨Or.inr ⟨rfl, h_alloc⟩, fun _ => Or.inr ⟨rfl, h_alloc, rfl⟩,
          fun _ => Nat.zero_le _⟩
    | some p =>
        have h_lists := Pages.Lists.start sgesPerPage nvmePciSglSetSeg h_alloc h_pool
        have h_ends := setupLoop_ends (first :: rest) h_lists
        have h_next : ∀ a n, SglDesc.addr (nvmePciSglSetSeg a n) = a := nvmePciSglSetSeg_addr
        simp only
        generalize setupLoop (pools.alloc pool) (first :: rest) _ = out at h_ends ⊢
        obtain ⟨status, w⟩ := out
        rcases h_ends with ⟨h_ok, h_w⟩ | ⟨h_st, h_none, rfl, h_nr, ys, left, h_ys, h_w⟩
        · obtain rfl : status = .ok := h_ok
          rw [List.nil_append] at h_w
          refine ⟨Or.inl ⟨rfl, _, rfl, ?_⟩,
            fun _ => Or.inl ⟨rfl, rfl, h_w.freeList_eq h_next h_alloc⟩, fun h_le => ?_⟩
          · have h_fuel : ((first :: rest).map nvmePciSglSetData).length ≤
                (first :: rest).length := by simp
            have h_read := Holds.readSgl h_w.holds (h_w.head_addr h_alloc)
              (fun q h_q => pageAt_of_nodup (h_w.own.nodup (pools.distinct pool)) h_q)
              setData_type h_fuel (by simp)
            rw [List.length_map] at h_read
            exact h_read
          · exact allocs_le h_w (by simp only [List.length_map, List.length_cons]; omega)
        · obtain rfl : status = .resource := h_st
          refine ⟨Or.inr ⟨rfl, h_none⟩,
            fun _ => Or.inr ⟨rfl, h_none, h_w.frees h_next h_alloc h_nr⟩, fun h_le => ?_⟩
          exact allocs_le h_w (by simp only [List.length_nil, List.length_cons] at h_ys; omega)

theorem readable_of_lt {sgl : List Sg} (h : sgl.length < sgesPerPage) :
    readable (sgl.map nvmePciSglSetData) = some (sgl.map nvmePciSglSetData) := by
  rw [readable, List.length_map, if_pos h]

/-- However the pools answer, and for every scatterlist: what the controller transfers for the
command of `nvme_pci_setup_sgls`.  It is the data of the whole list as long as there are fewer
entries than a page has slots, which covers all requests of the driver. -/
theorem nvmePciSetupSgls_reads (pools : DmaPools SglDesc) (iod : Iod SglDesc) (first : Sg)
    (rest : List Sg) :
    let r := nvmePciSetupSgls pools.alloc iod first rest
    let sgl := first :: rest
    (r.status = .ok ∧ ∃ d, r.sgl = some d ∧
        (readSgl (pageAt r.iod.list) sgl.length d).map descBytes =
          if sgl.length < sgesPerPage then some (sgBytes sgl)
          else if sgl.length = sgesPerPage then none
          else some (sgBytes sgl.dropLast)) ∨
      (r.status = .resource ∧ pools.alloc r.pool r.taken = none) := by
  intro r sgl
  rcases (nvmePciSetupSgls_spec pools iod first rest).1 with ⟨h_ok, d, h_d, h_read⟩ | h_none
  · refine Or.inl ⟨h_ok, d, h_d, ?_⟩
    rw [h_read]
    by_cases h_lt : (first :: rest).length < sgesPerPage
    · rw [if_pos h_lt, readable_of_lt h_lt, Option.map_some, descBytes_map]
    · rw [readable, List.length_map, if_neg h_lt, if_neg h_lt]
      by_cases h_eq : (first :: rest).length = sgesPerPage
      · rw [if_pos h_eq, if_pos h_eq]
        rfl
      · rw [if_neg h_eq, if_neg h_eq, Option.map_some, ← List.map_dropLast, descBytes_map]
  · exact Or.inr h_none

end Daredevil.Nvme.Sgl
