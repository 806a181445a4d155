/-
  Daredevil.Nvme.IodList

  The pages of a descriptor list (`drivers/nvme/host/pci.c`).  `nvme_pci_setup_prps` and
  `nvme_pci_setup_sgls` write their lists in the same way: into a block of the small pool if
  that is enough, else into pages of the other one; when a page is full, its last entry moves
  to a new page, and a link to that page takes its place.  They differ in the entries, the
  number of them to a page, and the link.

  `nvme_free_prps` and `nvme_free_sgls` follow the links to find out the bus addresses of the
  pages, which the driver does not keep.

    * `Pages.Lists`             — the pages hold these entries, and so many are to come;
    * `Pages.Lists.round`       — another entry;
    * `Pages.Lists.frees`       — following the links gives back every page;
    * `Pages.Lists.freeList_eq` — and so does completing the request.
-/
import Daredevil.Lib.ChainedPages

namespace Daredevil.Nvme.IodList

open ChainedPages

/-! ## Source functions -/

/-- `NVME_CTRL_PAGE_SIZE` -/
def nvmeCtrlPageSize : Nat := 4096

/-- `prp_small_pool` and `prp_page_pool` -/
inductive Pool where
  | small
  | page
  deriving DecidableEq, Repr

/-- The pools of a device, as a request meets them: `alloc` is what `dma_pool_alloc` answers to
its calls, one after the other.  A block is given to nobody else, and it is aligned to its
size. -/
structure DmaPools (α : Type) where
  alloc : Pool → Nat → Option (Page UInt64 α)
  distinct : ∀ pool j k p q, alloc pool j = some p → alloc pool k = some q →
    p.addr = q.addr → j = k
  page_aligned : ∀ k p, alloc .page k = some p → p.addr.toNat % nvmeCtrlPageSize = 0
  small_aligned : ∀ k p, alloc .small k = some p → p.addr.toNat % 256 = 0

/-- `struct nvme_iod`, as far as the list goes; `list` is `nvme_pci_iod_list`. -/
structure Iod (α : Type) where
  nrAllocations : Int
  firstDma : UInt64
  list : List (Page UInt64 α)

/-- A call of `dma_pool_free`: the block is named by its own bus address, `dmaAddr` is the
argument. -/
structure PoolFree where
  pool : Pool
  block : UInt64
  dmaAddr : UInt64
  deriving DecidableEq, Repr

/-- The loop of `nvme_free_prps` and of `nvme_free_sgls`; `next` reads the address in the slot
`last` of a page. -/
def freeChain {α : Type} (next : α → UInt64) (last : Nat) (iod : Iod α) : List PoolFree :=
  (walk next last iod.firstDma (iod.list.take iod.nrAllocations.toNat)).map fun pa =>
    ⟨.page, pa.1.addr, pa.2⟩

/-- The part of `nvme_unmap_data` about the list; `free` is one of the two loops. -/
def freeList {α : Type} (free : Iod α → List PoolFree) (iod : Iod α) : List PoolFree :=
  if iod.nrAllocations = 0 then
    match iod.list with
    | [] => []
    | p :: _ => [⟨.small, p.addr, iod.firstDma⟩]
  else free iod

/-- The local variables about the pages.  `last` is the page at hand, `full` are those before
it. -/
structure Pages (α : Type) where
  /-- the next slot of the page at hand -/
  i : Nat
  full : List (Page UInt64 α)
  last : Page UInt64 α
  nrAllocations : Int
  /-- how often `dma_pool_alloc` has been called -/
  allocs : Nat

/-- What the loops do about a full page, with `entries` still to be written; `none` when
`dma_pool_alloc` fails. -/
def nextPage {α : Type} (cap : Nat) (link : UInt64 → Nat → α)
    (alloc : Nat → Option (Page UInt64 α)) (entries : Nat) (w : Pages α) : Option (Pages α) :=
  if w.i = cap then
    match alloc w.allocs with
    | none => none
    | some page =>
        let old := w.last.set (w.i - 1) (link page.addr entries)
        some {
          -- `list[iod->nr_allocations++] = prp_list`
          full := (w.full ++ [old]).take w.nrAllocations.toNat
          nrAllocations := w.nrAllocations + 1
          last := page.set 0 (w.last.slot (w.i - 1))
          i := 1
          allocs := w.allocs + 1 }
  else some w

/-- `prp_list[i++] = x` -/
def Pages.write {α : Type} (w : Pages α) (x : α) : Pages α :=
  { w with last := w.last.set w.i x, i := w.i + 1 }

/-- The pool that `entries` entries go to, and `nr_allocations`; a block of the small pool has
room for `small`. -/
def poolFor (small entries : Nat) : Pool × Int :=
  if entries ≤ small then (.small, 0) else (.page, 1)

/-! ## What the pages hold -/

variable {α : Type} {cap small entries left : Nat} {link : UInt64 → Nat → α} {pool : Pool}
  {alloc : Nat → Option (Page UInt64 α)} {w w' : Pages α} {xs : List α} {x : α}
  {p : Page UInt64 α}

/-- The blocks that `alloc` has given to the first `n` calls, each with its own address. -/
def blocks (pool : Pool) (alloc : Nat → Option (Page UInt64 α)) (n : Nat) : List PoolFree :=
  (given alloc n).map fun a => ⟨pool, a, a⟩

/-- The pages hold `xs`, and `left` entries are to come. -/
structure Pages.Lists (cap small : Nat) (link : UInt64 → Nat → α) (pool : Pool)
    (alloc : Nat → Option (Page UInt64 α)) (w : Pages α) (xs : List α) (left : Nat) :
    Prop where
  holds : Holds cap link left (w.full ++ [w.last]) xs
  pos : xs.length = (cap - 1) * w.full.length + w.i
  i_le : w.i ≤ cap
  own : Own alloc w.allocs (w.full ++ [w.last])
  /-- a block of the small pool does not get full -/
  mode : (pool = .page ∧ w.nrAllocations = w.full.length + 1) ∨
    (pool = .small ∧ w.nrAllocations = 0 ∧ w.full = [] ∧ xs.length + left ≤ small)

namespace Pages.Lists

theorem allocs_eq (h : w.Lists cap small link pool alloc xs left) :
    w.allocs = w.full.length + 1 := by
  simpa using h.own.length.symm

theorem start (cap : Nat) (link : UInt64 → Nat → α) (h_p : alloc 0 = some p)
    (h_pool : (poolFor small left).1 = pool) :
    Pages.Lists cap small link pool alloc ⟨0, [], p, (poolFor small left).2, 1⟩ [] left := by
  refine ⟨Holds.last (Nat.zero_le _) (fun i h_i => absurd h_i (Nat.not_lt_zero i)), rfl,
    Nat.zero_le _, ?_, ?_⟩
  · simp [Own, h_p]
  · unfold poolFor at h_pool ⊢
    by_cases h_small : left ≤ small
    · rw [if_pos h_small] at h_pool ⊢
      exact Or.inr ⟨h_pool.symm, rfl, rfl, by simpa using h_small⟩
    · rw [if_neg h_small] at h_pool ⊢
      exact Or.inl ⟨h_pool.symm, rfl⟩

theorem mode_of_full (h : w.Lists cap small link pool alloc xs left) (h_cap : small < cap)
    (h_full : w.i = cap) : pool = .page ∧ w.nrAllocations = w.full.length + 1 := by
  rcases h.mode with h_mode | ⟨-, -, h_nil, h_le⟩
  · exact h_mode
  · have h_pos := h.pos
    rw [h_nil] at h_pos
    simp only [List.length_nil] at h_pos
    omega

end Pages.Lists

theorem nextPage_none (h : nextPage cap link alloc entries w = none) :
    w.i = cap ∧ alloc w.allocs = none := by
  unfold nextPage at h
  split at h
  · rename_i h_full
    split at h
    · rename_i h_alloc
      exact ⟨h_full, h_alloc⟩
    · cases h
  · cases h

namespace Pages.Lists

/-- What one round of a loop does to the pages. -/
theorem round (h : w.Lists cap small link pool alloc xs (left + 1)) (h_cap : small < cap)
    (h_two : 2 ≤ cap) (h_link : ∀ a, link a entries = link a (left + 1))
    (h_next : nextPage cap link alloc entries w = some w') :
    (w'.write x).Lists cap small link pool alloc (xs ++ [x]) left := by
  have h_allocs := h.allocs_eq
  have h_pos := h.pos
  have h_len : (xs ++ [x]).length = xs.length + 1 := by simp
  unfold nextPage at h_next
  by_cases h_full : w.i = cap
  · obtain ⟨h_pool, h_mode⟩ := h.mode_of_full h_cap h_full
    rw [if_pos h_full] at h_next
    cases h_alloc : alloc w.allocs with
    | none => simp [h_alloc] at h_next
    | some fresh =>
        simp only [h_alloc] at h_next
        have h_take : (w.full ++ [w.last.set (w.i - 1) (link fresh.addr entries)]).take
            w.nrAllocations.toNat =
            w.full ++ [w.last.set (w.i - 1) (link fresh.addr entries)] := by
          apply List.take_of_length_le
          simp [h_mode]
        rw [h_take] at h_next
        cases h_next
        refine ⟨?_, ?_, ?_, ?_, Or.inl ⟨h_pool, ?_⟩⟩
        · have h_more := Holds.chain_push fresh x h.holds (h_full ▸ h_pos) h_two
          simp only [write, h_full, h_link]
          exact h_more
        · simp only [write, List.length_append, List.length_singleton]
          rw [h_pos, h_full, Nat.mul_succ]
          omega
        · exact h_two
        · refine (h.own.append h_alloc).congr ?_
          simp [write]
        · simp only [write, h_mode, List.length_append, List.length_singleton]
          omega
  · rw [if_neg h_full] at h_next
    cases h_next
    have h_lt : w.i < cap := Nat.lt_of_le_of_ne h.i_le h_full
    refine ⟨h.holds.push h_pos h_lt, ?_, h_lt, ?_, ?_⟩
    · simp only [write, h_len]
      omega
    · refine h.own.congr ?_
      simp [write]
    · rcases h.mode with h_mode | ⟨h_pool, h_zero, h_nil, h_le⟩
      · exact Or.inl h_mode
      · refine Or.inr ⟨h_pool, h_zero, h_nil, ?_⟩
        rw [h_len]
        omega

/-! ## Giving the pages back -/

theorem head_addr (h : w.Lists cap small link pool alloc xs left) (h_p : alloc 0 = some p) :
    (w.full ++ [w.last]).head?.map Page.addr = some p.addr :=
  h.own.head h_p (by rw [h.allocs_eq]; omega)

theorem frees {next : α → UInt64} (h : w.Lists cap small link pool alloc xs left)
    (h_next : ∀ a n, next (link a n) = a) (h_p : alloc 0 = some p)
    (h_nr : w.nrAllocations = w.full.length + 1) :
    freeChain next (cap - 1) ⟨w.nrAllocations, p.addr, w.full ++ [w.last]⟩ =
      blocks .page alloc w.allocs := by
  have h_walk := h.holds.walk_eq (h.head_addr h_p) h_next
  have h_take : (w.full ++ [w.last]).take w.nrAllocations.toNat = w.full ++ [w.last] := by
    apply List.take_of_length_le
    simp [h_nr]
  unfold freeChain blocks
  simp only [h_take]
  rw [h_walk, h.own.given_eq, List.map_map, List.map_map]
  rfl

theorem freeList_eq {next : α → UInt64} (h : w.Lists cap small link pool alloc xs left)
    (h_next : ∀ a n, next (link a n) = a) (h_p : alloc 0 = some p) :
    freeList (freeChain next (cap - 1)) ⟨w.nrAllocations, p.addr, w.full ++ [w.last]⟩ =
      blocks pool alloc w.allocs := by
  rcases h.mode with ⟨rfl, h_nr⟩ | ⟨rfl, h_nr, h_nil, -⟩
  · rw [freeList, if_neg (by simp only [h_nr]; omega), h.frees h_next h_p h_nr]
  · have h_head := h.head_addr h_p
    have h_given := h.own.given_eq
    rw [h_nil] at h_head h_given ⊢
    obtain h_addr : w.last.addr = p.addr := by simpa using h_head
    rw [freeList, if_pos h_nr, blocks, h_given]
    simp [h_addr]

/-- The number of the pages, from that of the entries. -/
theorem allocs_mul_le (h : w.Lists cap small link pool alloc xs left) (h_two : 2 ≤ cap)
    (h_more : w.allocs ≠ 1) : (cap - 1) * (w.allocs - 1) + 1 < xs.length := by
  have h_allocs := h.allocs_eq
  have h_ne : w.full ≠ [] := by
    intro h_nil
    rw [h_nil] at h_allocs
    exact h_more h_allocs
  have h_lt := (h.holds.length_bounds h_two).2.2 h_ne
  rw [h_allocs]
  exact h_lt

end Pages.Lists

/-- A request without a list has nothing to give back. -/
theorem freeList_noList (next : α → UInt64) (last : Nat) (iod : Iod α)
    (h : iod.nrAllocations = -1) : freeList (freeChain next last) iod = [] := by
  simp [freeList, freeChain, h, walk]

end Daredevil.Nvme.IodList
