/-
  Daredevil.Block.RequestPool

  The memory of the requests of a tag set (`block/blk-mq.c`).  `blk_mq_alloc_rqs` takes pages in
  groups, as large as what is left to do makes sense of and as the page allocator has them, and
  cuts each group into requests.  `blk_mq_free_rqs` gives all of them back.  The requests of a
  scheduler are found by way of the table of the driver tags, which outlives them, and are taken
  out of that before; a pool of driver tags (a blex tag set has no others) goes with its table.

    * `Carved`           — the requests are pieces of the groups, one beside the other;
    * `loop_carved`      — every turn of the loop keeps that, and gets on;
    * `requests_of_pool` — what a pool is when it is there, when it could not be made, and after
                           it has been freed.
-/
import Mathlib.Data.List.Basic

namespace Daredevil.RequestPool

/-! ## Pages -/

/-- A group of pages, `page_address(page)` and `page->private`. -/
structure Page where
  addr : Nat
  order : Nat
  deriving DecidableEq, Repr

section Pages

variable (pageSize : Nat)

def orderToSize (order : Nat) : Nat := pageSize <<< order

/-- The first byte behind the group. -/
def Page.limit (pg : Page) : Nat := pg.addr + orderToSize pageSize pg.order

def Page.Apart (pg pg' : Page) : Prop :=
  pg.limit pageSize ≤ pg'.addr ∨ pg'.limit pageSize ≤ pg.addr

/-- `alloc_pages_node` may fail, and gives no memory that is in use. -/
structure PageAllocator where
  alloc : List Page → Nat → Option Nat
  fresh : ∀ used order addr, alloc used order = some addr →
    ∀ pg ∈ used, pg.Apart pageSize ⟨addr, order⟩

end Pages

/-- What a pool is made of. -/
structure Config where
  pageSize : Nat
  /-- `sizeof(struct request) + set->cmd_size`, rounded up to cache lines -/
  rqSize : Nat
  rqSize_pos : 0 < rqSize
  allocator : PageAllocator pageSize
  /-- the driver's `init_request` succeeds, for the request with this tag -/
  initRequest : Nat → Bool
  /-- the driver has an `exit_request` -/
  exitRequest : Bool

/-- The driver tags of the hardware context when a pool is freed: `blk_mq_clear_rq_mapping` has
nothing to do when there are none yet, or when the pool is theirs. -/
inductive DrvTags where
  | none
  | own
  | other
  deriving DecidableEq, Repr

/-- `struct blk_mq_tags`, and what the driver has been asked to do with the requests. -/
structure Tags where
  /-- `static_rqs`, by tag, up to the first one that is `NULL` -/
  staticRqs : List Nat
  pageList : List Page
  /-- the requests for which `exit_request` has been called, and the pages that have been freed -/
  exited : List Nat
  freed : List Page
  deriving DecidableEq, Repr

/-! ## Allocation -/

section Alloc

variable (cfg : Config)

/-- The order is lowered as long as half of the group would do. -/
def lowerOrder (left : Nat) : Nat → Nat
  | 0 => 0
  | order + 1 => if left < orderToSize cfg.pageSize order then lowerOrder left order else order + 1

/-- The loop around `alloc_pages_node`. -/
def allocPages (used : List Page) : Nat → Option Page
  | 0 => (cfg.allocator.alloc used 0).map (⟨·, 0⟩)
  | order + 1 =>
      match cfg.allocator.alloc used (order + 1) with
      | some addr => some ⟨addr, order + 1⟩
      | none =>
          if orderToSize cfg.pageSize order < cfg.rqSize then none else allocPages used order

/-- The loop over the requests of a group; whether it has come to its end. -/
def carve : Nat → Nat → Tags → Tags × Bool
  | 0, _, tags => (tags, true)
  | toDo + 1, p, tags =>
      if cfg.initRequest tags.staticRqs.length then
        carve toDo (p + cfg.rqSize) { tags with staticRqs := tags.staticRqs ++ [p] }
      else (tags, false)

def maxOrder : Nat := 4

/-- The loop of `blk_mq_alloc_rqs`; whether there are as many requests as there should be. -/
def loop (depth : Nat) : Nat → Nat → Tags → Option (Tags × Bool)
  | 0, _, _ => none
  | fuel + 1, left, tags =>
      if depth ≤ tags.staticRqs.length then some (tags, true)
      else
        match allocPages cfg tags.pageList (lowerOrder cfg left maxOrder) with
        | none => some (tags, false)
        | some page =>
            let entriesPerPage := orderToSize cfg.pageSize page.order / cfg.rqSize
            let toDo := min entriesPerPage (depth - tags.staticRqs.length)
            let r := carve cfg toDo page.addr { tags with pageList := tags.pageList ++ [page] }
            if r.2 then loop depth fuel (left - toDo * cfg.rqSize) r.1 else some (r.1, false)

end Alloc

/-! ## Freeing -/

section Free

variable (pageSize : Nat)

/-- The entry is taken out if the request is in the group. -/
def clearEntry (page : Page) (entry : Option Nat) : Option Nat :=
  entry.filter fun rq => !(page.addr ≤ rq && rq < page.limit pageSize)

/-- `blk_mq_clear_rq_mapping`, with `drv_tags->rqs` -/
def blkMqClearRqMapping (drvTags : DrvTags) (pages : List Page) (rqs : List (Option Nat)) :
    List (Option Nat) :=
  match drvTags with
  | .none | .own => rqs
  | .other => pages.foldl (fun rqs page => rqs.map (clearEntry pageSize page)) rqs

/-- `blk_mq_free_rqs` -/
def blkMqFreeRqs (exitRequest : Bool) (drvTags : DrvTags) (tags : Tags) (rqs : List (Option Nat)) :
    Tags × List (Option Nat) :=
  if tags.pageList.isEmpty then (tags, rqs)
  else
    ({ staticRqs := if exitRequest then [] else tags.staticRqs
       pageList := []
       exited := if exitRequest then tags.exited ++ tags.staticRqs else tags.exited
       freed := tags.freed ++ tags.pageList },
      blkMqClearRqMapping pageSize drvTags tags.pageList rqs)

end Free

/-- `blk_mq_alloc_rqs`, with the table `rqs` of the driver tags; `none` if the loop does not end
within `depth + 1` turns. -/
def blkMqAllocRqs (cfg : Config) (drvTags : DrvTags) (depth : Nat) (rqs : List (Option Nat)) :
    Option (Tags × List (Option Nat) × Bool) :=
  (loop cfg depth (depth + 1) (cfg.rqSize * depth) ⟨[], [], [], []⟩).map fun r =>
    if r.2 then (r.1, rqs, true)
    else
      let free := blkMqFreeRqs cfg.pageSize cfg.exitRequest drvTags r.1 rqs
      (free.1, free.2, false)

/-! ## The pages that are used -/

section Orders

variable {cfg : Config} {used : List Page} {page : Page}

/-- A group of the order that is asked for has room for a request. -/
theorem lowerOrder_fits {left : Nat} (h_left : cfg.rqSize ≤ left) {order : Nat}
    (h_order : cfg.rqSize ≤ orderToSize cfg.pageSize order) :
    cfg.rqSize ≤ orderToSize cfg.pageSize (lowerOrder cfg left order) := by
  induction order with
  | zero => exact h_order
  | succ order ih =>
      rw [lowerOrder]
      split
      · rename_i h_lower
        exact ih (by omega)
      · exact h_order

/-- So has the group that the allocator gives, which nobody else has. -/
theorem allocPages_spec {order : Nat} (h_order : cfg.rqSize ≤ orderToSize cfg.pageSize order)
    (h_page : allocPages cfg used order = some page) :
    cfg.rqSize ≤ orderToSize cfg.pageSize page.order ∧
      ∀ pg ∈ used, pg.Apart cfg.pageSize page := by
  induction order with
  | zero =>
      obtain ⟨addr, h_addr, h_eq⟩ := Option.map_eq_some_iff.mp h_page
      cases h_eq
      exact ⟨h_order, cfg.allocator.fresh used 0 addr h_addr⟩
  | succ order ih =>
      rw [allocPages] at h_page
      split at h_page
      · rename_i addr h_addr
        cases h_page
        exact ⟨h_order, cfg.allocator.fresh used (order + 1) addr h_addr⟩
      · split at h_page
        · cases h_page
        · rename_i h_fits
          exact ih (by omega) h_page

end Orders

/-! ## The requests of a pool -/

section Pool

variable {cfg : Config} {tags : Tags} {page : Page} {p toDo depth : Nat}

/-- Two requests that have no byte in common. -/
def Beside (rqSize rq rq' : Nat) : Prop := rq + rqSize ≤ rq' ∨ rq' + rqSize ≤ rq

/-- The requests are pieces of the groups. -/
structure Carved (cfg : Config) (tags : Tags) : Prop where
  apart : tags.pageList.Pairwise (Page.Apart cfg.pageSize)
  inPage : ∀ rq ∈ tags.staticRqs, ∃ pg ∈ tags.pageList,
    pg.addr ≤ rq ∧ rq + cfg.rqSize ≤ pg.limit cfg.pageSize
  beside : tags.staticRqs.Pairwise (Beside cfg.rqSize)

/-- No request has a byte from `p` to the end of the group. -/
def Vacant (cfg : Config) (tags : Tags) (p limit : Nat) : Prop :=
  ∀ rq ∈ tags.staticRqs, rq + cfg.rqSize ≤ p ∨ limit ≤ rq

theorem Carved.addPage (h : Carved cfg tags)
    (h_fresh : ∀ pg ∈ tags.pageList, pg.Apart cfg.pageSize page) :
    Carved cfg { tags with pageList := tags.pageList ++ [page] } ∧
      Vacant cfg tags page.addr (page.limit cfg.pageSize) := by
  refine ⟨⟨?_, ?_, h.beside⟩, ?_⟩
  · refine List.pairwise_append.mpr ⟨h.apart, List.pairwise_singleton _ _, ?_⟩
    intro pg h_pg pg' h_pg'
    rw [List.mem_singleton.mp h_pg']
    exact h_fresh pg h_pg
  · intro rq h_rq
    obtain ⟨pg, h_pg, h_in⟩ := h.inPage rq h_rq
    exact ⟨pg, List.mem_append_left _ h_pg, h_in⟩
  · intro rq h_rq
    obtain ⟨pg, h_pg, h_lo, h_hi⟩ := h.inPage rq h_rq
    rcases h_fresh pg h_pg with h_before | h_behind
    · exact Or.inl (by omega)
    · exact Or.inr (by omega)

theorem Carved.addRq (h : Carved cfg tags) (h_page : page ∈ tags.pageList)
    (h_lo : page.addr ≤ p) (h_hi : p + cfg.rqSize ≤ page.limit cfg.pageSize)
    (h_vacant : Vacant cfg tags p (page.limit cfg.pageSize)) :
    Carved cfg { tags with staticRqs := tags.staticRqs ++ [p] } ∧
      Vacant cfg { tags with staticRqs := tags.staticRqs ++ [p] } (p + cfg.rqSize)
        (page.limit cfg.pageSize) := by
  refine ⟨⟨h.apart, ?_, ?_⟩, ?_⟩
  · intro rq h_rq
    rcases List.mem_append.mp h_rq with h_old | h_new
    · exact h.inPage rq h_old
    · rw [List.mem_singleton.mp h_new]
      exact ⟨page, h_page, h_lo, h_hi⟩
  · refine List.pairwise_append.mpr ⟨h.beside, List.pairwise_singleton _ _, ?_⟩
    intro rq h_rq rq' h_rq'
    rw [List.mem_singleton.mp h_rq']
    rcases h_vacant rq h_rq with h_before | h_behind
    · exact Or.inl h_before
    · exact Or.inr (by omega)
  · intro rq h_rq
    rcases List.mem_append.mp h_rq with h_old | h_new
    · rcases h_vacant rq h_old with h_before | h_behind
      · exact Or.inl (by omega)
      · exact Or.inr h_behind
    · rw [List.mem_singleton.mp h_new]
      exact Or.inl (Nat.le_refl _)

/-- What the loop over the requests of a group leaves. -/
structure CarvedFrom (cfg : Config) (tags : Tags) (toDo : Nat) (r : Tags × Bool) : Prop where
  carved : Carved cfg r.1
  length : r.2 = true → r.1.staticRqs.length = tags.staticRqs.length + toDo
  exited : r.1.exited = tags.exited
  freed : r.1.freed = tags.freed

theorem carve_carved (h : Carved cfg tags) (h_page : page ∈ tags.pageList)
    (h_lo : page.addr ≤ p) (h_hi : p + toDo * cfg.rqSize ≤ page.limit cfg.pageSize)
    (h_vacant : Vacant cfg tags p (page.limit cfg.pageSize)) :
    CarvedFrom cfg tags toDo (carve cfg toDo p tags) := by
  induction toDo generalizing p tags with
  | zero => exact ⟨h, fun _ => rfl, rfl, rfl⟩
  | succ toDo ih =>
      rw [Nat.add_mul, Nat.one_mul] at h_hi
      rw [carve]
      split
      · obtain ⟨h_next, h_rest⟩ := h.addRq h_page h_lo (by omega) h_vacant
        have h_more := ih h_next h_page (by omega) (by omega) h_rest
        refine ⟨h_more.carved, fun h_ok => ?_, h_more.exited, h_more.freed⟩
        rw [h_more.length h_ok, List.length_append, List.length_singleton]
        omega
      · exact ⟨h, (fun h_ok => by cases h_ok), rfl, rfl⟩

/-- The loop ends, since every group has room for a request. -/
theorem loop_carved (h_fit : cfg.rqSize ≤ orderToSize cfg.pageSize maxOrder) {fuel left : Nat}
    (h : Carved cfg tags) (h_fuel : depth < fuel + tags.staticRqs.length)
    (h_len : tags.staticRqs.length ≤ depth)
    (h_left : left = (depth - tags.staticRqs.length) * cfg.rqSize) :
    ∃ r, loop cfg depth fuel left tags = some r ∧ Carved cfg r.1 ∧
      (r.2 = true → r.1.staticRqs.length = depth) ∧ r.1.exited = tags.exited ∧
      r.1.freed = tags.freed := by
  induction fuel generalizing left tags with
  | zero => omega
  | succ fuel ih =>
      rw [loop]
      split
      · rename_i h_done
        exact ⟨_, rfl, h, fun _ => by simp only; omega, rfl, rfl⟩
      · rename_i h_todo
        have h_pos := cfg.rqSize_pos
        have h_one : cfg.rqSize ≤ left := by
          rw [h_left]
          exact Nat.le_mul_of_pos_left cfg.rqSize (by omega)
        have h_order := lowerOrder_fits h_one h_fit
        split
        · exact ⟨_, rfl, h, (fun h_ok => by cases h_ok), rfl, rfl⟩
        · -- the group has room for at least one request, so that the loop gets on
          rename_i page h_page
          obtain ⟨h_room, h_fresh⟩ := allocPages_spec h_order h_page
          obtain ⟨h_carved, h_vacant⟩ := h.addPage h_fresh
          have h_entries : 0 < orderToSize cfg.pageSize page.order / cfg.rqSize :=
            Nat.div_pos h_room h_pos
          have h_cut : orderToSize cfg.pageSize page.order / cfg.rqSize * cfg.rqSize ≤
              orderToSize cfg.pageSize page.order := Nat.div_mul_le_self _ _
          generalize h_toDo : min (orderToSize cfg.pageSize page.order / cfg.rqSize)
            (depth - tags.staticRqs.length) = toDo
          have h_fits : toDo * cfg.rqSize ≤ orderToSize cfg.pageSize page.order :=
            Nat.le_trans (Nat.mul_le_mul_right cfg.rqSize (by omega)) h_cut
          have h_from : CarvedFrom cfg { tags with pageList := tags.pageList ++ [page] } toDo
              (carve cfg toDo page.addr { tags with pageList := tags.pageList ++ [page] }) := by
            refine carve_carved h_carved ?_ (Nat.le_refl page.addr) ?_ h_vacant
            · exact List.mem_append_right _ (List.mem_singleton_self page)
            · rw [Page.limit]
              omega
          have h_rest : left - toDo * cfg.rqSize =
              (depth - (tags.staticRqs.length + toDo)) * cfg.rqSize := by
            rw [h_left, Nat.sub_add_eq, Nat.sub_mul (depth - _) toDo]
          simp only [h_toDo]
          split
          · rename_i h_ok
            have h_length := h_from.length h_ok
            simp only at h_length
            obtain ⟨r, h_loop, h_r⟩ := ih h_from.carved (by omega) (by omega) (h_length ▸ h_rest)
            rw [h_from.exited, h_from.freed] at h_r
            exact ⟨r, h_loop, h_r⟩
          · exact ⟨_, rfl, h_from.carved, (fun h_true => by cases h_true), h_from.exited,
              h_from.freed⟩

end Pool

/-! ## The life of a pool -/

section Life

variable {cfg : Config} {tags : Tags}

theorem mem_clearRqMapping {pageSize : Nat} {pages : List Page} {rqs : List (Option Nat)}
    {i rq : Nat} :
    (blkMqClearRqMapping pageSize .other pages rqs)[i]? = some (some rq) ↔
      rqs[i]? = some (some rq) ∧ ∀ pg ∈ pages, ¬(pg.addr ≤ rq ∧ rq < pg.limit pageSize) := by
  induction pages generalizing rqs with
  | nil => simp [blkMqClearRqMapping]
  | cons page pages ih =>
      have h_step : blkMqClearRqMapping pageSize .other (page :: pages) rqs =
          blkMqClearRqMapping pageSize .other pages (rqs.map (clearEntry pageSize page)) := rfl
      rw [h_step, ih, List.forall_mem_cons, ← and_assoc]
      refine and_congr_left fun _ => ?_
      rw [List.getElem?_map]
      cases h_entry : rqs[i]? with
      | none => simp
      | some entry =>
          cases entry with
          | none => simp [clearEntry]
          | some rq' =>
              simp only [Option.map_some, Option.some.injEq, clearEntry,
                Option.filter_eq_some_iff]
              constructor
              · rintro ⟨rfl, h_out⟩
                refine ⟨rfl, fun h_in => ?_⟩
                simp [h_in] at h_out
              · rintro ⟨rfl, h_out⟩
                refine ⟨rfl, ?_⟩
                simp only [Bool.not_eq_true', Bool.and_eq_false_iff, decide_eq_false_iff_not]
                omega

/-- The pool has been given back: every request to the driver, if it wants to know, and every group
to the allocator.  A table of other tags has lost the requests of the pool, and has what it had
for those of others; no other table is touched. -/
structure GivenBack (cfg : Config) (drvTags : DrvTags) (tags : Tags) (rqs : List (Option Nat))
    (r : Tags × List (Option Nat)) : Prop where
  staticRqs : r.1.staticRqs = if cfg.exitRequest then [] else tags.staticRqs
  pageList : r.1.pageList = []
  exited : r.1.exited = tags.exited ++ if cfg.exitRequest then tags.staticRqs else []
  freed : r.1.freed = tags.freed ++ tags.pageList
  unmapped : drvTags = .other → ∀ rq ∈ tags.staticRqs, some rq ∉ r.2
  others : ∀ (i rq : Nat), (∀ pg ∈ tags.pageList, ¬(pg.addr ≤ rq ∧ rq < pg.limit cfg.pageSize)) →
    (r.2[i]? = some (some rq) ↔ rqs[i]? = some (some rq))
  kept : drvTags ≠ .other → r.2 = rqs

/-- A pool of driver tags keeps its table as it is. -/
theorem blkMqClearRqMapping_kept {pageSize : Nat} {drvTags : DrvTags} (h_kept : drvTags ≠ .other)
    (pages : List Page) (rqs : List (Option Nat)) :
    blkMqClearRqMapping pageSize drvTags pages rqs = rqs := by
  cases drvTags with
  | none | own => rfl
  | other => exact absurd rfl h_kept

theorem blkMqFreeRqs_givenBack (h : Carved cfg tags) (drvTags : DrvTags) (rqs : List (Option Nat)) :
    GivenBack cfg drvTags tags rqs
      (blkMqFreeRqs cfg.pageSize cfg.exitRequest drvTags tags rqs) := by
  unfold blkMqFreeRqs
  split
  · rename_i h_empty
    have h_none : tags.pageList = [] := by simpa using h_empty
    have h_rqs : tags.staticRqs = [] := by
      refine List.eq_nil_iff_forall_not_mem.mpr fun rq h_rq => ?_
      obtain ⟨pg, h_pg, _⟩ := h.inPage rq h_rq
      rw [h_none] at h_pg
      cases h_pg
    refine ⟨by simp [h_rqs], h_none, by simp [h_rqs], by simp [h_none], ?_, fun _ _ _ => Iff.rfl,
      fun _ => rfl⟩
    intro _ rq h_rq
    rw [h_rqs] at h_rq
    cases h_rq
  · refine ⟨rfl, rfl, ?_, rfl, ?_, ?_, fun h_kept => blkMqClearRqMapping_kept h_kept _ rqs⟩
    · cases cfg.exitRequest <;> simp
    · rintro rfl rq h_rq h_mem
      obtain ⟨pg, h_pg, h_lo, h_hi⟩ := h.inPage rq h_rq
      obtain ⟨i, h_i⟩ := List.mem_iff_getElem?.mp h_mem
      have h_pos := cfg.rqSize_pos
      exact (mem_clearRqMapping.mp h_i).2 pg h_pg ⟨h_lo, by omega⟩
    · intro i rq h_out
      cases drvTags with
      | none | own => exact Iff.rfl
      | other =>
          rw [mem_clearRqMapping]
          exact and_iff_left h_out

/-- If a request fits into the largest group, `blk_mq_alloc_rqs` comes to its end.  A pool that it
has made has all its requests, each in pages of the pool and none with a byte of another one; one
that it could not make is given back, and so is one that is freed later. -/
theorem requests_of_pool (h_fit : cfg.rqSize ≤ orderToSize cfg.pageSize maxOrder)
    (drvTags : DrvTags) (depth : Nat) (rqs : List (Option Nat)) :
    ∃ tags ok, loop cfg depth (depth + 1) (cfg.rqSize * depth) ⟨[], [], [], []⟩ = some (tags, ok) ∧
      Carved cfg tags ∧ tags.exited = [] ∧ tags.freed = [] ∧
      (ok = true → tags.staticRqs.length = depth ∧
        blkMqAllocRqs cfg drvTags depth rqs = some (tags, rqs, true)) ∧
      (ok = false → ∃ r, blkMqAllocRqs cfg drvTags depth rqs = some (r.1, r.2, false) ∧
        GivenBack cfg drvTags tags rqs r) ∧
      ∀ drvTags' rqs', GivenBack cfg drvTags' tags rqs'
        (blkMqFreeRqs cfg.pageSize cfg.exitRequest drvTags' tags rqs') := by
  have h_none : Carved cfg ⟨[], [], [], []⟩ := ⟨List.Pairwise.nil, by simp, List.Pairwise.nil⟩
  have h_fuel : depth < depth + 1 + 0 := Nat.lt_succ_self depth
  obtain ⟨⟨tags, ok⟩, h_loop, h_carved, h_length, h_exited, h_freed⟩ :=
    loop_carved h_fit h_none h_fuel (Nat.zero_le depth) (Nat.mul_comm cfg.rqSize depth)
  refine ⟨tags, ok, h_loop, h_carved, h_exited, h_freed, fun h_ok => ?_, fun h_ok => ?_,
    blkMqFreeRqs_givenBack h_carved⟩
  · refine ⟨h_length h_ok, ?_⟩
    rw [blkMqAllocRqs, h_loop, h_ok]
    rfl
  · refine ⟨blkMqFreeRqs cfg.pageSize cfg.exitRequest drvTags tags rqs, ?_,
      blkMqFreeRqs_givenBack h_carved drvTags rqs⟩
    rw [blkMqAllocRqs, h_loop, h_ok]
    rfl

/-! Five requests of 3000 bytes.  The allocator has single pages only, one behind the other, and
the table of the driver tags has an entry for a request of another pool. -/

def behind (used : List Page) : Nat := used.foldr (fun pg addr => max (pg.limit 4096) addr) 4096

theorem limit_le_behind {used : List Page} {pg : Page} (h_pg : pg ∈ used) :
    pg.limit 4096 ≤ behind used := by
  induction used with
  | nil => cases h_pg
  | cons pg' used ih =>
      show pg.limit 4096 ≤ max (pg'.limit 4096) (behind used)
      rcases List.mem_cons.mp h_pg with rfl | h_rest
      · exact Nat.le_max_left _ _
      · exact Nat.le_trans (ih h_rest) (Nat.le_max_right _ _)

def singlePages : PageAllocator 4096 where
  alloc used order := if order = 0 then some (behind used) else none
  fresh used order addr h := by
    obtain ⟨_, h_addr⟩ := Option.ite_none_right_eq_some.mp h
    cases h_addr
    exact fun pg h_pg => Or.inl (limit_le_behind h_pg)

def fiveRequests : Config where
  pageSize := 4096
  rqSize := 3000
  rqSize_pos := by decide
  allocator := singlePages
  initRequest := fun tag => tag != 3
  exitRequest := true

theorem requests_of_pool_five :
    (blkMqAllocRqs fiveRequests .other 5 [some 4096, none, some 1000]).map (·.2) =
        some ([none, none, some 1000], false) ∧
      ∃ tags r, loop fiveRequests 5 6 15000 ⟨[], [], [], []⟩ = some (tags, false) ∧
        blkMqAllocRqs fiveRequests .other 5 [some 4096, none, some 1000] = some (r.1, r.2, false) ∧
        GivenBack fiveRequests .other tags [some 4096, none, some 1000] r := by
  refine ⟨by decide, ?_⟩
  have h_fit : fiveRequests.rqSize ≤ orderToSize fiveRequests.pageSize maxOrder := by decide
  obtain ⟨tags, ok, h_loop, -, -, -, -, h_fail, -⟩ :=
    requests_of_pool h_fit .other 5 [some 4096, none, some 1000]
  have h_stop : (loop fiveRequests 5 6 15000 ⟨[], [], [], []⟩).map (·.2) = some false := by decide
  have h_ok : ok = false := by
    rw [show fiveRequests.rqSize * 5 = 15000 from rfl] at h_loop
    rw [h_loop] at h_stop
    exact Option.some.inj h_stop
  subst h_ok
  obtain ⟨r, h_alloc, h_given⟩ := h_fail rfl
  exact ⟨tags, r, h_loop, h_alloc, h_given⟩

end Life

end Daredevil.RequestPool
