/-
  Daredevil.Nvme.Prp

  PRP lists (`drivers/nvme/host/pci.c`): how `nvme_pci_setup_prps` describes the pages of a
  request to the controller.  The first PRP of a command points into a page, the second one
  to a page or to a list of pages, which may be continued in other pages.

  What the entries are worth is said by `readPrps`, which goes through them as a controller
  does, and by the bytes of the scatterlist.

    * `Aligned`                    — the form of a scatterlist behind its first entry;
    * `setupLoop_ends`             — what the loop makes of it, whatever the pool answers;
    * `nvmePciSetupPrps_spec`      — the pages of the list are given back, each with its own
                                     address;
    * `nvmePciSetupPrps_reads`     — the controller reads the bytes of the scatterlist.
-/
import Daredevil.Block.Dispatch
import Daredevil.Nvme.IodList

namespace Daredevil.Nvme.Prp

open ChainedPages IodList
open Dispatch (BlkStatus)

/-! ## Source functions -/

/-- `NVME_MAX_KB_SZ` -/
def nvmeMaxKbSz : Nat := 4096

/-- `nvme_pci_npages_prp` -/
def nvmePciNpagesPrp : Nat :=
  let maxBytes := nvmeMaxKbSz * 1024 + nvmeCtrlPageSize
  let nprps := (maxBytes + nvmeCtrlPageSize - 1) / nvmeCtrlPageSize
  (8 * nprps + (nvmeCtrlPageSize - 8) - 1) / (nvmeCtrlPageSize - 8)

/-- A block of a DMA pool: its bus address, and its 64-bit words. -/
abbrev Block := Page UInt64 UInt64

/-- The slots of a page of the list. -/
def prpsPerPage : Nat := nvmeCtrlPageSize / 8

/-- A link is the address of the page. -/
def prpLink (a : UInt64) (_ : Nat) : UInt64 := a

/-- An entry of the mapped scatterlist. -/
structure Sg where
  dmaAddress : UInt64
  dmaLen : Nat
  deriving DecidableEq, Repr

/-- `nvme_free_prps` -/
def nvmeFreePrps (iod : Iod UInt64) : List PoolFree := freeChain id (prpsPerPage - 1) iod

/-- The local variables of `nvme_pci_setup_prps`. -/
structure Walk where
  /-- `sg` and what comes behind it -/
  sg : List Sg
  dmaAddr : UInt64
  dmaLen : Int
  length : Int
  pages : Pages UInt64

/-- One entry is written, and a page of data is behind it. -/
def writePrp (w : Walk) (pages : Pages UInt64) : Walk :=
  { w with
    pages := pages.write w.dmaAddr
    dmaLen := w.dmaLen - nvmeCtrlPageSize
    dmaAddr := w.dmaAddr + UInt64.ofNat nvmeCtrlPageSize
    length := w.length - nvmeCtrlPageSize }

/-- The loop of `nvme_pci_setup_prps`; `none` when it follows `sg_next` past the last entry.
Every round takes a page from `length`, which bounds the rounds. -/
def setupLoop (alloc : Nat → Option Block) : Nat → Walk → Option (BlkStatus × Walk)
  | 0, _ => none
  | fuel + 1, w =>
      match nextPage prpsPerPage prpLink alloc 0 w.pages with
      | none => some (.resource, w)
      | some pages =>
          let w := writePrp w pages
          if w.length ≤ 0 then some (.ok, w)
          else if 0 < w.dmaLen then setupLoop alloc fuel w
          -- `bad_sgl`
          else if w.dmaLen < 0 then some (.error, w)
          else
            match w.sg with
            | _ :: sg :: rest =>
                setupLoop alloc fuel
                  { w with sg := sg :: rest, dmaAddr := sg.dmaAddress, dmaLen := sg.dmaLen }
            | _ => none

/-- What `nvme_pci_setup_prps` leaves. -/
structure Setup where
  status : BlkStatus
  iod : Iod UInt64
  prp1 : UInt64
  prp2 : UInt64
  /-- the blocks that it has given back itself -/
  freed : List PoolFree
  /-- how many blocks it has got, and from which pool -/
  taken : Nat
  pool : Pool

/-- The label `done`. -/
def done (first : Sg) (iod : Iod UInt64) (taken : Nat) (pool : Pool) : Setup :=
  ⟨.ok, iod, first.dmaAddress, iod.firstDma, [], taken, pool⟩

/-- The part of `nvme_pci_setup_prps` that builds a list; `first` is `iod->sgt.sgl`. -/
def setupList (alloc : Pool → Nat → Option Block) (iod : Iod UInt64) (first : Sg)
    (sg : List Sg) (dmaAddr : UInt64) (dmaLen length : Int) : Option Setup :=
  let nprps := (length.toNat + nvmeCtrlPageSize - 1) / nvmeCtrlPageSize
  let (pool, nrAllocations) := poolFor (256 / 8) nprps
  match alloc pool 0 with
  | none => some ⟨.resource, { iod with nrAllocations := -1 }, 0, 0, [], 0, pool⟩
  | some prpList =>
      match setupLoop (alloc pool) nprps
          ⟨sg, dmaAddr, dmaLen, length, 0, [], prpList, nrAllocations, 1⟩ with
      | none => none
      | some (status, w) =>
          let iod : Iod UInt64 :=
            ⟨w.pages.nrAllocations, prpList.addr, w.pages.full ++ [w.pages.last]⟩
          match status with
          | .ok => some (done first iod w.pages.allocs pool)
          | .resource => some ⟨.resource, iod, 0, 0, nvmeFreePrps iod, w.pages.allocs, pool⟩
          | status => some ⟨status, iod, 0, 0, [], w.pages.allocs, pool⟩

/-- Where `nvme_pci_setup_prps` stands behind the first page, of which `room` bytes are
addressed: `sg`, `dma_addr` and `dma_len`; `none` when `sg_next` has nothing. -/
def behindFirst (first : Sg) (rest : List Sg) (room : Nat) : Option (List Sg × UInt64 × Int) :=
  let dmaLen : Int := first.dmaLen - room
  if dmaLen ≠ 0 then some (first :: rest, first.dmaAddress + UInt64.ofNat room, dmaLen)
  else
    match rest with
    | [] => none
    | sg :: rest => some (sg :: rest, sg.dmaAddress, sg.dmaLen)

/-- `nvme_pci_setup_prps`; `alloc` is what `dma_pool_alloc` answers to the calls for the
request, one after the other, and `length` is the payload. -/
def nvmePciSetupPrps (alloc : Pool → Nat → Option Block) (iod : Iod UInt64) (length : Nat) :
    List Sg → Option Setup
  | [] => none
  | first :: rest =>
      let offset := (first.dmaAddress &&& UInt64.ofNat (nvmeCtrlPageSize - 1)).toNat
      let room : Nat := nvmeCtrlPageSize - offset
      let length : Int := length - room
      if length ≤ 0 then some (done first { iod with firstDma := 0 } 0 .small)
      else
        match behindFirst first rest room with
        | none => none
        | some (sg, dmaAddr, dmaLen) =>
            if length ≤ nvmeCtrlPageSize then
              some (done first { iod with firstDma := dmaAddr } 0 .small)
            else setupList alloc iod first sg dmaAddr dmaLen length

/-! ## What a list describes -/

/-- The `n` bus addresses from `a` on. -/
def bytesFrom (a : UInt64) (n : Nat) : List UInt64 :=
  (List.range n).map fun k => a + UInt64.ofNat k

/-- The addresses that a scatterlist covers, in order. -/
def sgBytes (sgl : List Sg) : List UInt64 :=
  sgl.flatMap fun sg => bytesFrom sg.dmaAddress sg.dmaLen

def sgLength : List Sg → Nat
  | [] => 0
  | sg :: rest => sg.dmaLen + sgLength rest

/-- The addresses of whole pages. -/
def pageBytes (prps : List UInt64) : List UInt64 :=
  prps.flatMap fun prp => bytesFrom prp nvmeCtrlPageSize

/-- `prp` has no offset into its page. -/
def pageStart (prp : UInt64) : Bool := prp.toNat % nvmeCtrlPageSize == 0

/-- The slots of a list at `a`: it ends where the page of memory does. -/
def room (a : UInt64) : Nat := (nvmeCtrlPageSize - a.toNat % nvmeCtrlPageSize) / 8

/-- How many PRPs `n` bytes take from the start of a page on. -/
def nprps (n : Nat) : Nat := (n + nvmeCtrlPageSize - 1) / nvmeCtrlPageSize

/-- The controller: the addresses that a command with these PRPs transfers, in order. -/
def readPrps (mem : UInt64 → Option Block) (length : Nat) (prp1 prp2 : UInt64) :
    Option (List UInt64) :=
  let first := nvmeCtrlPageSize - prp1.toNat % nvmeCtrlPageSize
  if length ≤ first then some (bytesFrom prp1 length)
  else if length - first ≤ nvmeCtrlPageSize then
    if pageStart prp2 then some (bytesFrom prp1 first ++ bytesFrom prp2 (length - first))
    else none
  else
    match readList room mem id (nprps (length - first)) (nprps (length - first)) prp2 with
    | none => none
    | some prps =>
        if prps.all pageStart then
          some (bytesFrom prp1 first ++ (pageBytes prps).take (length - first))
        else none

/-- A mapped scatterlist behind its first entry: only the last entry may end within a page. -/
def Aligned : List Sg → Prop
  | [] => True
  | sg :: rest =>
      sg.dmaAddress.toNat % nvmeCtrlPageSize = 0 ∧ 0 < sg.dmaLen ∧
        (rest ≠ [] → sg.dmaLen % nvmeCtrlPageSize = 0) ∧ Aligned rest

/-- A mapped scatterlist of a queue whose segments meet at page boundaries.  It may be of any
length; the queue limits leave none with more than `NVME_MAX_KB_SZ`, so that `length`, an `int`, and
`nr_allocations`, an `s8` of at most `nvme_pci_npages_prp`, do not overflow. -/
structure SgTable where
  first : Sg
  rest : List Sg
  first_pos : 0 < first.dmaLen
  first_end : rest ≠ [] → (first.dmaAddress.toNat + first.dmaLen) % nvmeCtrlPageSize = 0
  rest_aligned : Aligned rest

namespace SgTable

def sgl (t : SgTable) : List Sg := t.first :: t.rest

def payload (t : SgTable) : Nat := sgLength t.sgl

end SgTable

/-! ## Addresses -/

@[simp] theorem bytesFrom_length (a : UInt64) (n : Nat) : (bytesFrom a n).length = n := by
  simp [bytesFrom]

theorem bytesFrom_add (a : UInt64) (m n : Nat) :
    bytesFrom a (m + n) = bytesFrom a m ++ bytesFrom (a + UInt64.ofNat m) n := by
  unfold bytesFrom
  rw [List.range_add, List.map_append, List.map_map]
  congr 1
  apply List.map_congr_left
  intro k _
  show a + UInt64.ofNat (m + k) = a + UInt64.ofNat m + UInt64.ofNat k
  rw [UInt64.ofNat_add, UInt64.add_assoc]

theorem bytesFrom_take (a : UInt64) {m n : Nat} (h : m ≤ n) :
    (bytesFrom a n).take m = bytesFrom a m := by
  obtain ⟨k, rfl⟩ := Nat.exists_eq_add_of_le h
  rw [bytesFrom_add, List.take_left' (bytesFrom_length a m)]

theorem sgBytes_cons (sg : Sg) (rest : List Sg) :
    sgBytes (sg :: rest) = bytesFrom sg.dmaAddress sg.dmaLen ++ sgBytes rest := rfl

@[simp] theorem sgLength_cons (sg : Sg) (rest : List Sg) :
    sgLength (sg :: rest) = sg.dmaLen + sgLength rest := rfl

theorem pageBytes_cons (prp : UInt64) (prps : List UInt64) :
    pageBytes (prp :: prps) = bytesFrom prp nvmeCtrlPageSize ++ pageBytes prps := rfl

@[simp] theorem sgLength_nil : sgLength [] = 0 := rfl

theorem Aligned.length_pos {sgl : List Sg} (h : Aligned sgl) (h_ne : sgl ≠ []) :
    0 < sgLength sgl := by
  cases sgl with
  | nil => exact absurd rfl h_ne
  | cons sg rest =>
      have := h.2.1
      simp only [sgLength_cons]
      omega

/-- The start of the page behind `a`. -/
theorem toNat_add_page {a : UInt64} (h : a.toNat % nvmeCtrlPageSize = 0) :
    (a + UInt64.ofNat nvmeCtrlPageSize).toNat % nvmeCtrlPageSize = 0 := by
  rw [UInt64.toNat_add]
  have : (UInt64.ofNat nvmeCtrlPageSize).toNat = 4096 := rfl
  simp only [nvmeCtrlPageSize] at h this ⊢
  omega

theorem toNat_offset (a : UInt64) :
    (a &&& UInt64.ofNat (nvmeCtrlPageSize - 1)).toNat = a.toNat % nvmeCtrlPageSize := by
  rw [UInt64.toNat_and]
  exact Nat.and_two_pow_sub_one_eq_mod a.toNat 12

/-! ## One round -/

theorem nprps_le {n : Nat} (h_pos : 0 < n) (h : n ≤ nvmeCtrlPageSize) : nprps n = 1 := by
  simp only [nprps, nvmeCtrlPageSize] at h ⊢
  omega

theorem nprps_sub {n : Nat} (h : nvmeCtrlPageSize < n) :
    nprps n = nprps (n - nvmeCtrlPageSize) + 1 := by
  simp only [nprps, nvmeCtrlPageSize] at h ⊢
  omega

theorem le_nprps_mul (n : Nat) : n ≤ nprps n * nvmeCtrlPageSize := by
  simp only [nprps, nvmeCtrlPageSize]
  omega

theorem Aligned.last {cur : Sg} {rest : List Sg} (h : Aligned (cur :: rest))
    (h_le : sgLength (cur :: rest) ≤ nvmeCtrlPageSize) : rest = [] := by
  by_contra h_ne
  have h_rest := h.2.2.2.length_pos h_ne
  have h_pos := h.2.1
  have h_len := h.2.2.1 h_ne
  rw [sgLength_cons] at h_le
  simp only [nvmeCtrlPageSize] at h_len h_le
  omega

/-- Unless it is the last entry, at least a page is left of the one at hand. -/
theorem Aligned.page_le {cur : Sg} {rest : List Sg} (h : Aligned (cur :: rest))
    (h_gt : nvmeCtrlPageSize < sgLength (cur :: rest)) : nvmeCtrlPageSize ≤ cur.dmaLen := by
  rw [sgLength_cons] at h_gt
  by_cases h_ne : rest = []
  · rw [h_ne, sgLength_nil] at h_gt
    omega
  · have h_len := h.2.2.1 h_ne
    have h_pos := h.2.1
    simp only [nvmeCtrlPageSize] at h_len h_gt ⊢
    omega

/-- An entry behind its first page. -/
def Sg.tail (sg : Sg) : Sg :=
  ⟨sg.dmaAddress + UInt64.ofNat nvmeCtrlPageSize, sg.dmaLen - nvmeCtrlPageSize⟩

theorem Aligned.tail {cur : Sg} {rest : List Sg} (h : Aligned (cur :: rest))
    (h_gt : nvmeCtrlPageSize < cur.dmaLen) : Aligned (cur.tail :: rest) := by
  refine ⟨toNat_add_page h.1, Nat.sub_pos_of_lt h_gt, fun h_ne => ?_, h.2.2.2⟩
  have h_len := h.2.2.1 h_ne
  show (cur.dmaLen - nvmeCtrlPageSize) % nvmeCtrlPageSize = 0
  simp only [nvmeCtrlPageSize] at h_len h_gt ⊢
  omega

theorem sgBytes_page {cur : Sg} (rest : List Sg) (h : nvmeCtrlPageSize ≤ cur.dmaLen) :
    sgBytes (cur :: rest) =
      bytesFrom cur.dmaAddress nvmeCtrlPageSize ++ sgBytes (cur.tail :: rest) := by
  obtain ⟨k, h_k⟩ := Nat.exists_eq_add_of_le h
  rw [sgBytes_cons, sgBytes_cons, Sg.tail, h_k, bytesFrom_add, Nat.add_sub_cancel_left,
    List.append_assoc]

theorem sgBytes_tail_nil {cur : Sg} {rest : List Sg} (h : cur.dmaLen = nvmeCtrlPageSize) :
    sgBytes (cur.tail :: rest) = sgBytes rest := by
  rw [sgBytes_cons, Sg.tail, h, Nat.sub_self]
  rfl

/-! ## The loop -/

/-- The walk stands in front of the entry `cur`, and `rest` comes behind it. -/
structure Walk.At (w : Walk) (cur : Sg) (rest : List Sg) : Prop where
  sg : ∃ s, w.sg = s :: rest
  addr : w.dmaAddr = cur.dmaAddress
  len : w.dmaLen = cur.dmaLen
  length : w.length = sgLength (cur :: rest)

/-- The list holds `xs`, and `left` more are to come. -/
abbrev Lists (pool : Pool) (alloc : Nat → Option Block) (w : Walk) (xs : List UInt64)
    (left : Nat) : Prop :=
  w.pages.Lists prpsPerPage (256 / 8) prpLink pool alloc xs left

variable {pool : Pool} {alloc : Nat → Option Block} {w : Walk} {pages : Pages UInt64}
  {xs : List UInt64} {cur : Sg} {rest : List Sg} {left : Nat}

theorem writePrp_sg (w : Walk) : (writePrp w pages).sg = w.sg := by simp only [writePrp]

theorem writePrp_pages (w : Walk) : (writePrp w pages).pages = pages.write w.dmaAddr := by
  simp only [writePrp]

theorem prpsPerPage_bounds : 256 / 8 < prpsPerPage ∧ 2 ≤ prpsPerPage := by decide

/-- What one round does to the list. -/
theorem Lists.round (h : Lists pool alloc w xs (left + 1))
    (h_next : nextPage prpsPerPage prpLink alloc 0 w.pages = some pages) :
    Lists pool alloc (writePrp w pages) (xs ++ [w.dmaAddr]) left := by
  unfold Lists
  rw [writePrp_pages]
  exact Pages.Lists.round h prpsPerPage_bounds.1 prpsPerPage_bounds.2 (fun _ => rfl) h_next

/-- How the loop ends that still has `todo` to write: with a list of it, or without memory. -/
def Ends (pool : Pool) (alloc : Nat → Option Block) (xs : List UInt64)
    (todo : List Sg) (out : BlkStatus × Walk) : Prop :=
  (out.1 = .ok ∧ ∃ prps, prps.length = nprps (sgLength todo) ∧ prps.all pageStart = true ∧
      (pageBytes prps).take (sgLength todo) = sgBytes todo ∧
      Lists pool alloc out.2 (xs ++ prps) 0) ∨
  (out.1 = .resource ∧ alloc out.2.pages.allocs = none ∧ pool = .page ∧
      out.2.pages.nrAllocations = out.2.pages.full.length + 1 ∧
      ∃ ys left, ys.length + left = xs.length + nprps (sgLength todo) ∧
        Lists pool alloc out.2 ys left)

/-- The entry of a whole page comes before what follows. -/
theorem Ends.cons {a : UInt64} {todo todo' : List Sg} {out : BlkStatus × Walk}
    (h : Ends pool alloc (xs ++ [a]) todo' out) (h_a : a.toNat % nvmeCtrlPageSize = 0)
    (h_gt : nvmeCtrlPageSize < sgLength todo)
    (h_len : sgLength todo' = sgLength todo - nvmeCtrlPageSize)
    (h_bytes : sgBytes todo = bytesFrom a nvmeCtrlPageSize ++ sgBytes todo') :
    Ends pool alloc xs todo out := by
  have h_nprps := nprps_sub h_gt
  rw [← h_len] at h_nprps
  rcases h with ⟨h_ok, prps, h_n, h_all, h_take, h_lists⟩ |
      ⟨h_st, h_none, h_pool, h_nr, ys, left, h_ys, h_lists⟩
  · refine Or.inl ⟨h_ok, a :: prps, ?_, ?_, ?_, ?_⟩
    · rw [List.length_cons, h_n, h_nprps]
    · simp [pageStart, h_a, h_all]
    · have h_sum : sgLength todo =
          (bytesFrom a nvmeCtrlPageSize).length + sgLength todo' := by
        rw [bytesFrom_length]
        omega
      rw [pageBytes_cons, h_sum, List.take_length_add_append, h_take, h_bytes]
    · rwa [List.append_assoc] at h_lists
  · refine Or.inr ⟨h_st, h_none, h_pool, h_nr, ys, left, ?_, h_lists⟩
    rw [h_ys, List.length_append, List.length_singleton, h_nprps]
    omega

/-- From any point of the scatterlist on, the loop writes what is left of it, or the pool is
exhausted; it never comes to `bad_sgl`, and never past the end. -/
theorem setupLoop_ends (fuel : Nat) (h_at : w.At cur rest) (h_al : Aligned (cur :: rest))
    (h_fuel : sgLength (cur :: rest) ≤ fuel * nvmeCtrlPageSize)
    (h_lists : Lists pool alloc w xs (nprps (sgLength (cur :: rest)))) :
    ∃ out, setupLoop alloc fuel w = some out ∧ Ends pool alloc xs (cur :: rest) out := by
  induction fuel generalizing w cur rest xs with
  | zero =>
      have h_pos := h_al.length_pos (by simp)
      omega
  | succ fuel ih =>
      have h_pos := h_al.length_pos (by simp)
      cases h_next : nextPage prpsPerPage prpLink alloc 0 w.pages with
      | none =>
          obtain ⟨h_full, h_none⟩ := nextPage_none h_next
          obtain ⟨h_pool, h_nr⟩ := Pages.Lists.mode_of_full h_lists prpsPerPage_bounds.1 h_full
          exact ⟨(.resource, w), by simp only [setupLoop, h_next],
            Or.inr ⟨rfl, h_none, h_pool, h_nr, xs, _, rfl, h_lists⟩⟩
      | some pages =>
          obtain ⟨s, h_s⟩ := h_at.sg
          have h_cur : w.dmaAddr = cur.dmaAddress := h_at.addr
          have h_left : (writePrp w pages).length =
              sgLength (cur :: rest) - nvmeCtrlPageSize := by
            simp only [writePrp, h_at.length]
          have h_dma : (writePrp w pages).dmaLen = cur.dmaLen - nvmeCtrlPageSize := by
            simp only [writePrp, h_at.len]
          simp only [setupLoop, h_next]
          by_cases h_le : sgLength (cur :: rest) ≤ nvmeCtrlPageSize
          · -- the last page
            obtain rfl : rest = [] := h_al.last h_le
            rw [if_pos (by omega)]
            rw [nprps_le h_pos h_le] at h_lists
            refine ⟨_, rfl, Or.inl ⟨rfl, [cur.dmaAddress], ?_, ?_, ?_, ?_⟩⟩
            · rw [nprps_le h_pos h_le, List.length_singleton]
            · simp [pageStart, h_al.1]
            · simp only [sgLength_cons, sgLength_nil, Nat.add_zero] at h_le ⊢
              simp only [pageBytes, sgBytes, List.flatMap_cons, List.flatMap_nil,
                List.append_nil]
              exact bytesFrom_take _ h_le
            · rw [← h_cur]
              exact Lists.round h_lists h_next
          · have h_gt : nvmeCtrlPageSize < sgLength (cur :: rest) := Nat.lt_of_not_le h_le
            have h_page := h_al.page_le h_gt
            rw [nprps_sub h_gt] at h_lists
            have h_round := Lists.round h_lists h_next
            rw [h_cur] at h_round
            rw [if_neg (by omega)]
            rw [Nat.succ_mul] at h_fuel
            by_cases h_more : nvmeCtrlPageSize < cur.dmaLen
            · -- more of the entry at hand
              rw [if_pos (by omega)]
              have h_sum : sgLength (cur.tail :: rest) =
                  sgLength (cur :: rest) - nvmeCtrlPageSize := by
                simp only [sgLength_cons, Sg.tail]
                omega
              have h_at' : (writePrp w pages).At cur.tail rest := by
                refine ⟨⟨s, (writePrp_sg w).trans h_s⟩, ?_, ?_, ?_⟩
                · simp only [writePrp, Sg.tail, h_cur]
                · simp only [h_dma, Sg.tail]
                  omega
                · rw [h_left, h_sum]
                  omega
              rw [← h_sum] at h_round
              obtain ⟨out, h_out, h_ends⟩ := ih h_at' (h_al.tail h_more) (by omega) h_round
              exact ⟨out, h_out, h_ends.cons h_al.1 h_gt h_sum (sgBytes_page rest h_page)⟩
            · -- the entry ends here, and there is another one
              have h_eq : cur.dmaLen = nvmeCtrlPageSize := by omega
              rw [if_neg (by omega), if_neg (by omega)]
              have h_sum : sgLength rest = sgLength (cur :: rest) - nvmeCtrlPageSize := by
                rw [sgLength_cons]
                omega
              cases rest with
              | nil =>
                  rw [sgLength_cons, sgLength_nil] at h_gt
                  omega
              | cons sg rest =>
                  have h_sg' : (writePrp w pages).sg = s :: sg :: rest := (writePrp_sg w).trans h_s
                  simp only [h_sg']
                  have h_at' : Walk.At { writePrp w pages with
                      sg := sg :: rest, dmaAddr := sg.dmaAddress, dmaLen := sg.dmaLen }
                      sg rest := by
                    refine ⟨⟨sg, rfl⟩, rfl, rfl, ?_⟩
                    show (writePrp w pages).length = _
                    rw [h_left, h_sum]
                    omega
                  rw [← h_sum] at h_round
                  obtain ⟨out, h_out, h_ends⟩ := ih h_at' h_al.2.2.2 (by omega) h_round
                  have h_bytes := sgBytes_page (sg :: rest) h_page
                  rw [sgBytes_tail_nil h_eq] at h_bytes
                  exact ⟨out, h_out, h_ends.cons h_al.1 h_gt h_sum h_bytes⟩

/-- What the controller reads from the list. -/
theorem Lists.read {pools : DmaPools UInt64} (h : Lists pool (pools.alloc pool) w xs 0)
    {p : Block} (h_p : pools.alloc pool 0 = some p) (h_pos : 0 < xs.length) :
    readList room (pageAt (w.pages.full ++ [w.pages.last])) id xs.length xs.length p.addr =
      some xs := by
  have h_head := Pages.Lists.head_addr h h_p
  have h_find : ∀ q ∈ w.pages.full ++ [w.pages.last],
      pageAt (w.pages.full ++ [w.pages.last]) q.addr = some q :=
    fun q h_q => pageAt_of_nodup (h.own.nodup (pools.distinct pool)) h_q
  rcases h.mode with ⟨rfl, -⟩ | ⟨rfl, -, h_nil, h_le⟩
  · refine h.holds.read prpsPerPage_bounds.2 h_head h_find ?_ (fun _ _ => rfl) (Nat.le_refl _)
      h_pos
    intro q h_q
    obtain ⟨k, b, h_b, h_addr⟩ := h.own.mem h_q
    have h_al := pools.page_aligned k b h_b
    rw [h_addr] at h_al
    unfold room
    rw [h_al]
    rfl
  · -- one block, and all entries are in it
    have h_holds := h.holds
    rw [h_nil] at h_head h_find h_holds ⊢
    obtain h_addr : w.pages.last.addr = p.addr := by simpa using h_head
    have h_al := pools.small_aligned 0 p h_p
    have h_room : xs.length ≤ room p.addr := by
      unfold room
      simp only [nvmeCtrlPageSize]
      omega
    obtain ⟨n, h_n⟩ := Nat.exists_eq_succ_of_ne_zero (Nat.ne_of_gt h_pos)
    have h_page := h_find w.pages.last (by simp)
    rw [h_addr] at h_page
    cases h_holds with
    | link h_next _ _ _ _ => simp at h_next
    | last _ h_slots =>
        have h_read := readList_of_le id n h_page h_room
        rw [take_eq_slots (Nat.le_refl _) h_slots, List.take_length] at h_read
        rwa [h_n] at h_read ⊢

/-! ## The whole list -/

/-- What a list says about the data behind the first PRP. -/
def Setup.Lists (r : Setup) (first : Sg) (todo : List Sg) : Prop :=
  r.prp1 = first.dmaAddress ∧
    ∃ prps, prps.all pageStart = true ∧
      (pageBytes prps).take (sgLength todo) = sgBytes todo ∧
      readList room (pageAt r.iod.list) id (nprps (sgLength todo)) (nprps (sgLength todo))
        r.prp2 = some prps

/-- What becomes of the blocks of a list: the caller gives back those of a list that is
complete, and none are left of another one. -/
def Setup.Accounts (pools : DmaPools UInt64) (r : Setup) : Prop :=
  (r.status = .ok ∧ r.freed = [] ∧
    freeList nvmeFreePrps r.iod = blocks r.pool (pools.alloc r.pool) r.taken) ∨
  (r.status = .resource ∧ pools.alloc r.pool r.taken = none ∧
    r.freed = blocks r.pool (pools.alloc r.pool) r.taken)

theorem Lists.allocs_le (h : Lists pool alloc w xs left)
    (h_len : xs.length + left ≤ nvmeMaxKbSz * 1024 / nvmeCtrlPageSize) :
    w.pages.allocs ≤ nvmePciNpagesPrp := by
  have h_max : nvmeMaxKbSz * 1024 / nvmeCtrlPageSize = 1024 := by decide
  have h_npages : nvmePciNpagesPrp = 3 := by decide
  have h_cap : prpsPerPage - 1 = 511 := by decide
  by_cases h_one : w.pages.allocs = 1
  · rw [h_one]
    decide
  · have h_lt := Pages.Lists.allocs_mul_le h prpsPerPage_bounds.2 h_one
    rw [h_cap] at h_lt
    omega

theorem setupList_spec (pools : DmaPools UInt64) (iod : Iod UInt64) (first s : Sg)
    (h_al : Aligned (cur :: rest)) (h_gt : nvmeCtrlPageSize < sgLength (cur :: rest)) :
    ∃ r, setupList pools.alloc iod first (s :: rest) cur.dmaAddress cur.dmaLen
        (sgLength (cur :: rest)) = some r ∧
      (r.status = .ok → r.Lists first (cur :: rest)) ∧ r.Accounts pools ∧
      (sgLength (cur :: rest) ≤ nvmeMaxKbSz * 1024 → r.taken ≤ nvmePciNpagesPrp) := by
  have h_nprps : ((sgLength (cur :: rest) : Int).toNat + nvmeCtrlPageSize - 1) /
      nvmeCtrlPageSize = nprps (sgLength (cur :: rest)) := by
    rw [Int.toNat_natCast]
    rfl
  unfold setupList
  simp only [h_nprps]
  generalize h_pool : (poolFor (256 / 8) (nprps (sgLength (cur :: rest)))).1 = pool
  cases h_alloc : pools.alloc pool 0 with
  | none =>
      exact ⟨_, rfl, (fun h => by cases h), Or.inr ⟨rfl, h_alloc, rfl⟩,
        fun _ => Nat.zero_le _⟩
  | some p =>
      have h_lists := Pages.Lists.start prpsPerPage prpLink h_alloc h_pool
      have h_at : Walk.At ⟨s :: rest, cur.dmaAddress, cur.dmaLen, sgLength (cur :: rest),
          0, [], p, (poolFor (256 / 8) (nprps (sgLength (cur :: rest)))).2, 1⟩ cur rest :=
        ⟨⟨s, rfl⟩, rfl, rfl, rfl⟩
      obtain ⟨⟨status, w⟩, h_out, h_ends⟩ := setupLoop_ends
        (nprps (sgLength (cur :: rest))) h_at h_al (le_nprps_mul _) h_lists
      have h_max : sgLength (cur :: rest) ≤ nvmeMaxKbSz * 1024 →
          nprps (sgLength (cur :: rest)) ≤ nvmeMaxKbSz * 1024 / nvmeCtrlPageSize := by
        simp only [nprps, nvmeMaxKbSz, nvmeCtrlPageSize]
        omega
      simp only [h_out]
      rcases h_ends with ⟨h_ok, prps, h_len, h_all, h_take, h_w⟩ |
          ⟨h_st, h_none, rfl, h_nr, ys, left, h_ys, h_w⟩
      · obtain rfl : status = .ok := h_ok
        rw [List.nil_append] at h_w
        refine ⟨_, rfl, fun _ => ⟨rfl, prps, h_all, h_take, ?_⟩,
          Or.inl ⟨rfl, rfl, h_w.freeList_eq (fun _ _ => rfl) h_alloc⟩, fun h_le => ?_⟩
        · rw [← h_len]
          refine Lists.read h_w h_alloc ?_
          rw [h_len, nprps_sub h_gt]
          omega
        · exact Lists.allocs_le h_w (by rw [h_len]; exact h_max h_le)
      · obtain rfl : status = .resource := h_st
        refine ⟨_, rfl, (fun h => by cases h),
          Or.inr ⟨rfl, h_none, h_w.frees (fun _ _ => rfl) h_alloc h_nr⟩, fun h_le => ?_⟩
        refine Lists.allocs_le h_w (h_ys.trans_le ?_)
        rw [List.length_nil, Nat.zero_add]
        exact h_max h_le

namespace SgTable

/-- The bytes of the page that the first entry starts in, from there on. -/
def firstPage (t : SgTable) : Nat :=
  nvmeCtrlPageSize - t.first.dmaAddress.toNat % nvmeCtrlPageSize

variable (t : SgTable)

/-- Where there is another entry, the first one goes at least to the end of its page. -/
theorem firstPage_le (h : t.rest ≠ []) : t.firstPage ≤ t.first.dmaLen := by
  have h_end := t.first_end h
  have h_pos := t.first_pos
  simp only [firstPage, nvmeCtrlPageSize] at h_end ⊢
  omega

theorem rest_eq_nil (h : t.payload ≤ t.firstPage) : t.rest = [] := by
  by_contra h_ne
  have h_le := t.firstPage_le h_ne
  have h_rest := t.rest_aligned.length_pos h_ne
  simp only [payload, sgl, sgLength_cons] at h
  omega

/-- The data behind the first page. -/
theorem exists_behindFirst (h : t.firstPage < t.payload) :
    ∃ s cur rest,
      behindFirst t.first t.rest t.firstPage =
          some (s :: rest, cur.dmaAddress, (cur.dmaLen : Int)) ∧
        Aligned (cur :: rest) ∧ sgLength (cur :: rest) = t.payload - t.firstPage ∧
        sgBytes t.sgl = bytesFrom t.first.dmaAddress t.firstPage ++ sgBytes (cur :: rest) := by
  have h_sum : t.payload = t.first.dmaLen + sgLength t.rest := by
    simp only [payload, sgl, sgLength_cons]
  rcases Nat.lt_or_ge t.firstPage t.first.dmaLen with h_more | h_le
  · refine ⟨t.first, ⟨t.first.dmaAddress + UInt64.ofNat t.firstPage,
      t.first.dmaLen - t.firstPage⟩, t.rest, ?_, ⟨?_, ?_, ?_, t.rest_aligned⟩, ?_, ?_⟩
    · unfold behindFirst
      have h_cast : (t.first.dmaLen : Int) - t.firstPage =
          ((t.first.dmaLen - t.firstPage : Nat) : Int) := by omega
      simp only [h_cast]
      rw [if_pos (by omega)]
    · show (t.first.dmaAddress + UInt64.ofNat t.firstPage).toNat % nvmeCtrlPageSize = 0
      rw [UInt64.toNat_add, UInt64.toNat_ofNat']
      simp only [firstPage, nvmeCtrlPageSize]
      omega
    · exact Nat.sub_pos_of_lt h_more
    · intro h_ne
      have h_end := t.first_end h_ne
      simp only [firstPage, nvmeCtrlPageSize] at h_end h_more ⊢
      omega
    · rw [sgLength_cons]
      show t.first.dmaLen - t.firstPage + sgLength t.rest = _
      omega
    · have h_split : t.first.dmaLen = t.firstPage + (t.first.dmaLen - t.firstPage) := by omega
      rw [sgl, sgBytes_cons, sgBytes_cons, ← List.append_assoc, ← bytesFrom_add, ← h_split]
  · have h_ne : t.rest ≠ [] := by
      intro h_nil
      rw [h_nil, sgLength_nil] at h_sum
      omega
    have h_eq : t.first.dmaLen = t.firstPage := Nat.le_antisymm h_le (t.firstPage_le h_ne)
    have h_al := t.rest_aligned
    cases h_rest : t.rest with
    | nil => exact absurd h_rest h_ne
    | cons sg rest =>
        rw [h_rest] at h_al h_sum
        refine ⟨sg, sg, rest, ?_, h_al, by omega, ?_⟩
        · unfold behindFirst
          rw [if_neg (by omega)]
        · rw [sgl, h_rest, sgBytes_cons, h_eq]

end SgTable

theorem nvmePciSetupPrps_eq (alloc : Pool → Nat → Option Block) (iod : Iod UInt64)
    (t : SgTable) :
    nvmePciSetupPrps alloc iod t.payload t.sgl =
      if t.payload ≤ t.firstPage then some (done t.first { iod with firstDma := 0 } 0 .small)
      else
        match behindFirst t.first t.rest t.firstPage with
        | none => none
        | some (sg, dmaAddr, dmaLen) =>
            if t.payload - t.firstPage ≤ nvmeCtrlPageSize then
              some (done t.first { iod with firstDma := dmaAddr } 0 .small)
            else
              setupList alloc iod t.first sg dmaAddr dmaLen (t.payload - t.firstPage : Nat) := by
  simp only [nvmePciSetupPrps, SgTable.sgl, toNat_offset]
  rw [show nvmeCtrlPageSize - t.first.dmaAddress.toNat % nvmeCtrlPageSize = t.firstPage from rfl]
  by_cases h_le : t.payload ≤ t.firstPage
  · rw [if_pos h_le, if_pos (by omega)]
  · have h_cast : (t.payload : Int) - t.firstPage = ((t.payload - t.firstPage : Nat) : Int) := by
      omega
    rw [if_neg h_le, if_neg (by omega), h_cast]
    simp only [Int.ofNat_le]

/-- `readPrps`, with the first page of a scatterlist. -/
theorem readPrps_eq (t : SgTable) (mem : UInt64 → Option Block) (length : Nat)
    (prp2 : UInt64) :
    readPrps mem length t.first.dmaAddress prp2 =
      if length ≤ t.firstPage then some (bytesFrom t.first.dmaAddress length)
      else if length - t.firstPage ≤ nvmeCtrlPageSize then
        if pageStart prp2 then
          some (bytesFrom t.first.dmaAddress t.firstPage ++
            bytesFrom prp2 (length - t.firstPage))
        else none
      else
        match readList room mem id (nprps (length - t.firstPage))
            (nprps (length - t.firstPage)) prp2 with
        | none => none
        | some prps =>
            if prps.all pageStart then
              some (bytesFrom t.first.dmaAddress t.firstPage ++
                (pageBytes prps).take (length - t.firstPage))
            else none := rfl

/-- What a command with the PRPs of `nvme_pci_setup_prps` transfers, and what becomes of the
blocks. -/
theorem nvmePciSetupPrps_spec (pools : DmaPools UInt64) (iod : Iod UInt64) (t : SgTable) :
    ∃ r, nvmePciSetupPrps pools.alloc iod t.payload t.sgl = some r ∧
      ((r.status = .ok ∧
          readPrps (pageAt r.iod.list) t.payload r.prp1 r.prp2 = some (sgBytes t.sgl)) ∨
        (r.status = .resource ∧ pools.alloc r.pool r.taken = none)) ∧
      (iod.nrAllocations = -1 → r.Accounts pools) ∧
      (t.payload ≤ nvmeMaxKbSz * 1024 → r.taken ≤ nvmePciNpagesPrp) := by
  have h_free : iod.nrAllocations = -1 → ∀ a,
      freeList nvmeFreePrps { iod with firstDma := a } = [] := by
    intro h_iod a
    exact freeList_noList id (prpsPerPage - 1) _ h_iod
  rw [nvmePciSetupPrps_eq]
  by_cases h_le : t.payload ≤ t.firstPage
  · -- one PRP
    rw [if_pos h_le]
    refine ⟨_, rfl, Or.inl ⟨rfl, ?_⟩, fun h_iod => Or.inl ⟨rfl, rfl, h_free h_iod 0⟩,
      fun _ => Nat.zero_le _⟩
    have h_nil := t.rest_eq_nil h_le
    show readPrps _ _ t.first.dmaAddress _ = _
    rw [readPrps_eq, if_pos h_le]
    simp [SgTable.payload, SgTable.sgl, h_nil, sgBytes]
  · obtain ⟨s, cur, rest, h_behind, h_al, h_len, h_bytes⟩ :=
      t.exists_behindFirst (Nat.lt_of_not_le h_le)
    rw [if_neg h_le, h_behind]
    dsimp only
    by_cases h_two : t.payload - t.firstPage ≤ nvmeCtrlPageSize
    · -- two PRPs
      rw [if_pos h_two]
      refine ⟨_, rfl, Or.inl ⟨rfl, ?_⟩, fun h_iod => Or.inl ⟨rfl, rfl, h_free h_iod _⟩,
        fun _ => Nat.zero_le _⟩
      obtain rfl : rest = [] := h_al.last (h_len ▸ h_two)
      have h_start : pageStart cur.dmaAddress = true := by simp [pageStart, h_al.1]
      show readPrps _ _ t.first.dmaAddress cur.dmaAddress = _
      rw [readPrps_eq, if_neg h_le, if_pos h_two, if_pos h_start, h_bytes, ← h_len]
      simp [sgBytes]
    · -- a list
      rw [if_neg h_two, ← h_len]
      obtain ⟨r, h_r, h_lists, h_acc, h_taken⟩ := setupList_spec pools iod t.first s h_al
        (by rw [h_len]; exact Nat.lt_of_not_le h_two)
      refine ⟨r, h_r, ?_, fun _ => h_acc, fun h_max => h_taken (by omega)⟩
      rcases h_acc with ⟨h_ok, -, -⟩ | ⟨h_st, h_none, -⟩
      · obtain ⟨h_prp1, prps, h_all, h_take, h_read⟩ := h_lists h_ok
        refine Or.inl ⟨h_ok, ?_⟩
        rw [h_prp1, readPrps_eq, if_neg h_le, if_neg h_two, ← h_len, h_read]
        simp only [h_all, if_true, h_take, h_bytes]
      · exact Or.inr ⟨h_st, h_none⟩

/-- However the pools answer: a command with the PRPs of `nvme_pci_setup_prps` makes the
controller transfer the bytes of the scatterlist, in their order, and nothing else.  Without a
command, a pool is exhausted.  The pages of the list have room in the array of the request. -/
theorem nvmePciSetupPrps_reads (pools : DmaPools UInt64) (iod : Iod UInt64) (t : SgTable) :
    ∃ r, nvmePciSetupPrps pools.alloc iod t.payload t.sgl = some r ∧
      ((r.status = .ok ∧
          readPrps (pageAt r.iod.list) t.payload r.prp1 r.prp2 = some (sgBytes t.sgl)) ∨
        (r.status = .resource ∧ pools.alloc r.pool r.taken = none)) ∧
      (t.payload ≤ nvmeMaxKbSz * 1024 → r.taken ≤ nvmePciNpagesPrp) := by
  obtain ⟨r, h_r, h_reads, -, h_taken⟩ := nvmePciSetupPrps_spec pools iod t
  exact ⟨r, h_r, h_reads, h_taken⟩

/-- A device that has one block in each pool. -/
def onePage (α : Type) (zero : α) : DmaPools α where
  alloc
    | _, 0 => some ⟨0x10000, fun _ => zero⟩
    | _, _ + 1 => none
  distinct _ j k p q h_j h_k _ := by
    cases j with
    | zero => cases k with
      | zero => rfl
      | succ k => cases h_k
    | succ j => cases h_j
  page_aligned k p h := by
    cases k with
    | zero =>
        cases h
        exact (by decide : (0x10000 : UInt64).toNat % nvmeCtrlPageSize = 0)
    | succ k => cases h
  small_aligned k p h := by
    cases k with
    | zero =>
        cases h
        exact (by decide : (0x10000 : UInt64).toNat % 256 = 0)
    | succ k => cases h

/-- Half a page, two pages, and the beginning of another one. -/
def fourPages : SgTable where
  first := ⟨0x2800, 0x800⟩
  rest := [⟨0x5000, 0x2000⟩, ⟨0x9000, 0x100⟩]
  first_pos := by decide
  first_end := by decide
  rest_aligned := by
    refine ⟨rfl, by decide, fun _ => rfl, rfl, by decide, fun h => absurd rfl h, trivial⟩

/-- The four pages, with a list of three PRPs. -/
theorem fourPages_reads :
    ∃ r, nvmePciSetupPrps (onePage UInt64 0).alloc ⟨-1, 0, []⟩ fourPages.payload
          fourPages.sgl = some r ∧
      ((r.status = .ok ∧ readPrps (pageAt r.iod.list) fourPages.payload r.prp1 r.prp2 =
          some (sgBytes fourPages.sgl)) ∨
        (r.status = .resource ∧ (onePage UInt64 0).alloc r.pool r.taken = none)) ∧
      (fourPages.payload ≤ nvmeMaxKbSz * 1024 → r.taken ≤ nvmePciNpagesPrp) :=
  nvmePciSetupPrps_reads (onePage UInt64 0) ⟨-1, 0, []⟩ fourPages

end Daredevil.Nvme.Prp
