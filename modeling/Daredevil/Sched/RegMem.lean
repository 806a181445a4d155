/-
  Daredevil.Sched.RegMem

  The memory of a regulator.  `blk_blex_nq_regulator_alloc_and_init` allocates the maps,
  the eNQs, a heap for each group, a cpumask for each eNQ, and an eNCQ and at most one heap
  for each NCQ; `blk_blex_nq_regulator_free` frees them.  `Sched.Init` is the same function
  with what it writes into the memory, if it gets all of it.

  An eNQ that cannot be set up frees what it has allocated itself; the caller frees the
  eNQs before it, then the groups.  Following a pointer to memory that was freed, and
  freeing it again, are faults (`none`).  `blk_blex_nq_regulator_free` follows
  `nq_reg->blex_info`, which its callers have freed (`Nvme.TagSetOwner` has their runs).

    * `enqInit_returns`         — the step: one eNQ;
    * `enqsInit_returns`        — the loop over the eNQs, with its unwinding;
    * `Built.free_iff`          — when the regulator can be freed;
    * `regulator_allOrNothing`  — all of it, at any failing allocation.
-/
import Daredevil.Lib.Owned
import Daredevil.Sched.Init

namespace Daredevil.Sched

/-! ## The source functions -/

inductive RegObj where
  | blexInfo (info : BlkBlexDevInfo)
  | nqReg
  | name
  | nsqMaps
  | enqs
  /-- `bin_heap` of a group -/
  | groupHeap (prio : Nat)
  | claimedCoreCpumask (nqid : Nat)
  | encq (nqid : Nat)
  /-- `bin_heap` of an eNCQ -/
  | nsqHeap (nqid : Nat)
  deriving DecidableEq, Repr

/-- The heap, and the pointers of the regulator into it; `none` is NULL. -/
structure RegMem where
  heap : ObjHeap RegObj
  /-- the allocations that were tried -/
  calls : Nat
  blexInfo : Option Nat
  nsqMaps : Option Nat
  enqs : Option Nat
  groupHeap : Nat → Option Nat
  claimedCoreCpumask : Nat → Option Nat
  encq : Nat → Option Nat
  nsqHeap : Nat → Option Nat

def enomem : Int := -12

theorem enomem_neg : enomem < 0 := by decide

theorem enomem_ne : enomem ≠ 0 := by decide

namespace RegMem

/-- A regulator that the driver has just allocated: zeroed. -/
def zeroed (heap : ObjHeap RegObj) : RegMem :=
  ⟨heap, 0, none, none, none, fun _ => none, fun _ => none, fun _ => none, fun _ => none⟩

/-- An allocation; `fails` says which of them fail, by their position. -/
def alloc (fails : Nat → Bool) (obj : RegObj) (m : RegMem) : Option Nat × RegMem :=
  if fails m.calls then (none, { m with calls := m.calls + 1 })
  else (some m.heap.next, { m with heap := m.heap.alloc obj, calls := m.calls + 1 })

/-- `kfree`, or `free_cpumask_var` -/
def kfree (p : Option Nat) (m : RegMem) : Option RegMem :=
  (m.heap.kfreePtr p).map fun heap => { m with heap := heap }

/-- Follow a pointer. -/
def follow (p : Option Nat) (m : RegMem) : Option Unit :=
  if p.any m.heap.live then some () else none

/-- Read what `nq_reg->blex_info` points to. -/
def readInfo (m : RegMem) : Option BlkBlexDevInfo :=
  m.blexInfo.bind fun a =>
  match m.heap.cell a with
  | some (.blexInfo info) => some info
  | _ => none

/-- `blk_blex_nq_prio_arr_init` of a group -/
def blkBlexNqPrioArrInitNcq (fails : Nat → Bool) (prio : Nat) (m : RegMem) : Int × RegMem :=
  let r := m.alloc fails (.groupHeap prio)
  let m := { r.2 with groupHeap := Function.update r.2.groupHeap prio r.1 }
  if r.1.isNone then (enomem, m) else (0, m)

/-- `blk_blex_nq_prio_arr_init` of an eNCQ -/
def blkBlexNqPrioArrInitNsq (fails : Nat → Bool) (nqid : Nat) (m : RegMem) : Int × RegMem :=
  let r := m.alloc fails (.nsqHeap nqid)
  let m := { r.2 with nsqHeap := Function.update r.2.nsqHeap nqid r.1 }
  if r.1.isNone then (enomem, m) else (0, m)

/-- `blk_blex_nq_group_init`, which attaches the group's eNQs to it first. -/
def blkBlexNqGroupInit (fails : Nat → Bool) (prio : Nat) (m : RegMem) : Option (Int × RegMem) :=
  (m.follow m.enqs).map fun _ => m.blkBlexNqPrioArrInitNcq fails prio

/-- `blk_blex_enq_init` where the eNQ has an NCQ, and its error labels from
`prio_arr_init_err` on. -/
def blkBlexEnqInitEncq (fails : Nat → Bool) (info : BlkBlexDevInfo) (nqid : Nat) (m : RegMem) :
    Option (Int × RegMem) :=
  let e := m.alloc fails (.encq nqid)
  if e.1.isNone then
    -- `encq_alloc_err`
    (e.2.kfree (e.2.claimedCoreCpumask nqid)).map fun m => (enomem, m)
  else
    -- `kzalloc_node`: the eNCQ has no heap yet
    let m := { e.2 with
      encq := Function.update e.2.encq nqid e.1
      nsqHeap := Function.update e.2.nsqHeap nqid none }
    if blkBlexGetCqNrNsqs nqid info.maxNqid info.nrCqs ≤ 1 then some (0, m)
    else
      let r := m.blkBlexNqPrioArrInitNsq fails nqid
      if r.1 ≠ 0 then
        -- `enq->encq` keeps its value
        (r.2.kfree (r.2.encq nqid)).bind fun m =>
        (m.kfree (m.claimedCoreCpumask nqid)).map fun m => (enomem, m)
      else some (0, r.2)

/-- `blk_blex_enq_init` -/
def blkBlexEnqInit (fails : Nat → Bool) (info : BlkBlexDevInfo) (nqid : Nat) (m : RegMem) :
    Option (Int × RegMem) :=
  (m.follow m.enqs).bind fun _ =>
  let c := m.alloc fails (.claimedCoreCpumask nqid)
  let m := { c.2 with claimedCoreCpumask := Function.update c.2.claimedCoreCpumask nqid c.1 }
  if c.1.isNone then some (enomem, m)
  else if nqid ≠ blkBlexGetCqid nqid info.maxNqid info.nrCqs then some (0, m)
  else m.blkBlexEnqInitEncq fails info nqid

/-- What both `blk_blex_nq_regulator_alloc_and_init` and `blk_blex_nq_regulator_free` do to free
an eNQ's memory. -/
def freeEnq (nqid : Nat) (m : RegMem) : Option RegMem :=
  (m.follow m.enqs).bind fun _ =>
  (m.kfree (m.claimedCoreCpumask nqid)).bind fun m =>
  if (m.encq nqid).isSome then
    (m.follow (m.encq nqid)).bind fun _ =>
    (m.kfree (m.nsqHeap nqid)).bind fun m => m.kfree (m.encq nqid)
  else some m

/-- The eNQs `1 .. n`. -/
def freeEnqs : Nat → RegMem → Option RegMem
  | 0, m => some m
  | n + 1, m => (freeEnqs n m).bind fun m => m.freeEnq (n + 1)

/-- The heaps of the first `n` groups. -/
def freeGroupHeaps : Nat → RegMem → Option RegMem
  | 0, m => some m
  | n + 1, m => (freeGroupHeaps n m).bind fun m => m.kfree (m.groupHeap n)

/-- The first `n` groups. -/
def groupsInit (fails : Nat → Bool) : Nat → RegMem → Option (Int × RegMem)
  | 0, m => some (0, m)
  | n + 1, m =>
      (groupsInit fails n m).bind fun r =>
      if r.1 ≠ 0 then some r else r.2.blkBlexNqGroupInit fails n

/-- The eNQs `1 .. n`; if one cannot be set up, those before it are freed. -/
def enqsInit (fails : Nat → Bool) (info : BlkBlexDevInfo) : Nat → RegMem → Option (Int × RegMem)
  | 0, m => some (0, m)
  | n + 1, m =>
      (enqsInit fails info n m).bind fun r =>
      if r.1 ≠ 0 then some r
      else
        (r.2.blkBlexEnqInit fails info (n + 1)).bind fun e =>
        if e.1 ≠ 0 then (e.2.freeEnqs n).map fun m => (e.1, m) else some e

/-- From the label `group_init_err` on. -/
def groupInitErr (m : RegMem) : Option (Int × RegMem) :=
  (m.freeGroupHeaps blkBlexPrioLevel).bind fun m =>
  (m.kfree m.enqs).bind fun m =>
  (m.kfree m.nsqMaps).map fun m => (enomem, m)

/-- `blk_blex_nq_regulator_alloc_and_init` from the loop over the groups on. -/
def initGroupsAndEnqs (fails : Nat → Bool) (info : BlkBlexDevInfo) (m : RegMem) :
    Option (Int × RegMem) :=
  (m.groupsInit fails blkBlexPrioLevel).bind fun g =>
  if g.1 ≠ 0 then g.2.groupInitErr
  else
    (g.2.enqsInit fails info info.maxNqid).bind fun r =>
    if r.1 ≠ 0 then r.2.groupInitErr else some (0, r.2)

/-- From the allocation of the eNQs on. -/
def allocEnqsAndInit (fails : Nat → Bool) (info : BlkBlexDevInfo) (m : RegMem) :
    Option (Int × RegMem) :=
  let e := m.alloc fails .enqs
  -- `kcalloc_node`: all pointers in the array are NULL
  let m := { e.2 with
    enqs := e.1
    claimedCoreCpumask := fun _ => none
    encq := fun _ => none
    nsqHeap := fun _ => none }
  if e.1.isNone then (m.kfree m.nsqMaps).map fun m => (enomem, m)
  else m.initGroupsAndEnqs fails info

/-- From the allocation of the maps on. -/
def allocMapsAndInit (fails : Nat → Bool) (info : BlkBlexDevInfo) (m : RegMem) :
    Option (Int × RegMem) :=
  let r := m.alloc fails .nsqMaps
  let m := { r.2 with nsqMaps := r.1 }
  if r.1.isNone then some (enomem, m) else m.allocEnqsAndInit fails info

/-- `blk_blex_nq_regulator_alloc_and_init`; `valid`: `tag_set` and `driver_data` are set. -/
def blkBlexNqRegulatorAllocAndInit (fails : Nat → Bool) (valid : Bool) (setBlexInfo : Option Nat)
    (m : RegMem) : Option (Int × RegMem) :=
  if !valid then some (-1, m)
  else
    let m := { m with blexInfo := setBlexInfo }
    -- nothing below frees it or writes to it, so that it is read once for all
    m.readInfo.bind fun info => m.allocMapsAndInit fails info

/-- `blk_blex_nq_regulator_free` -/
def blkBlexNqRegulatorFree (name nqReg : Option Nat) (m : RegMem) : Option RegMem :=
  if nqReg.isNone then some m
  else
    (m.kfree name).bind fun m =>
    (m.kfree m.nsqMaps).bind fun m =>
    -- the bound of the loop
    m.readInfo.bind fun info =>
    (m.freeEnqs info.maxNqid).bind fun m =>
    (m.kfree m.enqs).bind fun m =>
    (m.freeGroupHeaps blkBlexPrioLevel).bind fun m =>
    m.kfree nqReg

/-- What `nvme_pci_alloc_tag_set` does with a regulator if there is no tag set for it; the order
is that of `nvme_free_tagset` as well. -/
def freeInfoAndRegulator (name nqReg : Option Nat) (m : RegMem) : Option RegMem :=
  (m.kfree m.blexInfo).bind fun m => m.blkBlexNqRegulatorFree name nqReg

/-! ## The objects of a regulator -/

variable {base : ObjHeap RegObj} {own rest : List Nat} {m m' : RegMem} {fails : Nat → Bool}
  {info : BlkBlexDevInfo}

/-- The objects of one eNQ. -/
def enqObjs (m : RegMem) (nqid : Nat) : List Nat :=
  (m.claimedCoreCpumask nqid).toList ++ ((m.nsqHeap nqid).toList ++ (m.encq nqid).toList)

/-- Those of the eNQs `1 .. n`. -/
def enqsObjs (m : RegMem) : Nat → List Nat
  | 0 => []
  | n + 1 => m.enqObjs (n + 1) ++ enqsObjs m n

/-- The heaps of the first `n` groups. -/
def groupObjs (m : RegMem) : Nat → List Nat
  | 0 => []
  | n + 1 => (m.groupHeap n).toList ++ groupObjs m n

/-- Only the heap differs. -/
def SamePtrs (m m' : RegMem) : Prop := m' = { m with heap := m'.heap }

theorem SamePtrs.refl (m : RegMem) : SamePtrs m m := rfl

theorem SamePtrs.trans {m'' : RegMem} (h : SamePtrs m m') (h' : SamePtrs m' m'') :
    SamePtrs m m'' := by
  rw [SamePtrs] at h h' ⊢
  rw [h', h]

theorem enqsObjs_congr {n : Nat} (h : ∀ i, 1 ≤ i → i ≤ n → m'.enqObjs i = m.enqObjs i) :
    m'.enqsObjs n = m.enqsObjs n := by
  induction n with
  | zero => rfl
  | succ n ih =>
      rw [enqsObjs, enqsObjs, h (n + 1) (Nat.le_add_left 1 n) (Nat.le_refl _),
        ih fun i h_pos h_le => h i h_pos (Nat.le_succ_of_le h_le)]

theorem groupObjs_congr {n : Nat} (h : ∀ prio < n, m'.groupHeap prio = m.groupHeap prio) :
    m'.groupObjs n = m.groupObjs n := by
  induction n with
  | zero => rfl
  | succ n ih =>
      rw [groupObjs, groupObjs, h n (Nat.lt_succ_self n),
        ih fun prio h_prio => h prio (Nat.lt_succ_of_lt h_prio)]

/-! ## Freeing -/

theorem alloc_cases (fails : Nat → Bool) (obj : RegObj) (m : RegMem) :
    (fails m.calls = true ∧ m.alloc fails obj = (none, { m with calls := m.calls + 1 })) ∨
    (fails m.calls = false ∧ m.alloc fails obj =
      (some m.heap.next, { m with heap := m.heap.alloc obj, calls := m.calls + 1 })) := by
  rw [alloc]
  cases fails m.calls with
  | true => exact .inl ⟨rfl, rfl⟩
  | false => exact .inr ⟨rfl, rfl⟩

theorem prioArrInitNsq_cases (fails : Nat → Bool) (nqid : Nat) (m : RegMem) :
    (fails m.calls = true ∧ m.blkBlexNqPrioArrInitNsq fails nqid = (enomem, { m with
      calls := m.calls + 1
      nsqHeap := Function.update m.nsqHeap nqid none })) ∨
    (fails m.calls = false ∧ m.blkBlexNqPrioArrInitNsq fails nqid = (0, { m with
      heap := m.heap.alloc (.nsqHeap nqid)
      calls := m.calls + 1
      nsqHeap := Function.update m.nsqHeap nqid (some m.heap.next) })) := by
  rw [blkBlexNqPrioArrInitNsq]
  rcases alloc_cases fails (.nsqHeap nqid) m with ⟨h_fails, h_alloc⟩ | ⟨h_ok, h_alloc⟩
  · rw [h_alloc]
    exact .inl ⟨h_fails, rfl⟩
  · rw [h_alloc]
    exact .inr ⟨h_ok, rfl⟩

theorem prioArrInitNcq_cases (fails : Nat → Bool) (prio : Nat) (m : RegMem) :
    (fails m.calls = true ∧ m.blkBlexNqPrioArrInitNcq fails prio = (enomem, { m with
      calls := m.calls + 1
      groupHeap := Function.update m.groupHeap prio none })) ∨
    (fails m.calls = false ∧ m.blkBlexNqPrioArrInitNcq fails prio = (0, { m with
      heap := m.heap.alloc (.groupHeap prio)
      calls := m.calls + 1
      groupHeap := Function.update m.groupHeap prio (some m.heap.next) })) := by
  rw [blkBlexNqPrioArrInitNcq]
  rcases alloc_cases fails (.groupHeap prio) m with ⟨h_fails, h_alloc⟩ | ⟨h_ok, h_alloc⟩
  · rw [h_alloc]
    exact .inl ⟨h_fails, rfl⟩
  · rw [h_alloc]
    exact .inr ⟨h_ok, rfl⟩

theorem kfree_returns {p : Option Nat} (h : ObjHeap.Owns base (p.toList ++ own) m.heap) :
    Returns (m.kfree p) fun m' => SamePtrs m m' ∧ ObjHeap.Owns base own m'.heap := by
  apply h.kfreePtr.map
  intro heap h_heap
  exact ⟨rfl, h_heap⟩

/-- Freeing goes on: the pointer is still where it was when freeing began. -/
theorem SamePtrs.kfree {m' : RegMem} (h_same : SamePtrs m m') (f : RegMem → Option Nat)
    (h_f : f m' = f m) (h : ObjHeap.Owns base ((f m).toList ++ own) m'.heap) :
    Returns (m'.kfree (f m')) fun m'' => SamePtrs m m'' ∧ ObjHeap.Owns base own m''.heap := by
  rw [← h_f] at h
  apply (kfree_returns h).mono
  rintro m'' ⟨h_next, h_owns⟩
  exact ⟨h_same.trans h_next, h_owns⟩

/-- An object that is owned can be followed to. -/
theorem follow_eq {p : Option Nat} (h : ObjHeap.Owns base own m.heap) (h_some : p.isSome = true)
    (h_mem : ∀ a ∈ p, a ∈ own) : m.follow p = some () := by
  obtain ⟨a, rfl⟩ := Option.isSome_iff_exists.mp h_some
  exact if_pos (h.live a (h_mem a rfl))

/-- Freeing an eNQ, whose eNCQ has a heap only if there is an eNCQ. -/
theorem freeEnq_returns {nqid : Nat} (h : ObjHeap.Owns base (m.enqObjs nqid ++ rest) m.heap)
    (h_some : m.enqs.isSome = true) (h_enqs : ∀ a ∈ m.enqs, a ∈ rest)
    (h_heap : m.encq nqid = none → m.nsqHeap nqid = none) :
    Returns (m.freeEnq nqid) fun m' => SamePtrs m m' ∧ ObjHeap.Owns base rest m'.heap := by
  have h_follow : m.follow m.enqs = some () :=
    follow_eq h h_some fun a h_a => List.mem_append_right _ (h_enqs a h_a)
  rw [freeEnq, h_follow, Option.bind_some]
  rw [enqObjs, List.append_assoc] at h
  apply (kfree_returns h).bind
  intro m₁ h₁
  obtain ⟨h_same₁, h_owns₁⟩ := h₁
  have h_encq₁ : m₁.encq nqid = m.encq nqid := by rw [h_same₁]
  split
  case isFalse h_none =>
    rw [h_encq₁, Bool.not_eq_true, Option.isSome_eq_false_iff, Option.isNone_iff_eq_none] at h_none
    rw [h_none, h_heap h_none] at h_owns₁
    exact .some ⟨h_same₁, h_owns₁⟩
  case isTrue h_encq =>
    have h_follow₁ : m₁.follow (m₁.encq nqid) = some () := by
      apply follow_eq h_owns₁ h_encq
      intro a h_a
      rw [h_encq₁] at h_a
      exact List.mem_append_left _ (List.mem_append_right _ (Option.mem_toList.mpr h_a))
    rw [h_follow₁, Option.bind_some]
    -- the heap of the eNCQ, then the eNCQ
    rw [List.append_assoc] at h_owns₁
    apply (h_same₁.kfree (·.nsqHeap nqid) (by rw [h_same₁]) h_owns₁).bind
    rintro m₂ ⟨h_same₂, h_owns₂⟩
    exact h_same₂.kfree (·.encq nqid) (by rw [h_same₂]) h_owns₂

theorem freeEnqs_returns {n : Nat} (h : ObjHeap.Owns base (m.enqsObjs n ++ rest) m.heap)
    (h_some : m.enqs.isSome = true) (h_enqs : ∀ a ∈ m.enqs, a ∈ rest)
    (h_heap : ∀ i, 1 ≤ i → i ≤ n → m.encq i = none → m.nsqHeap i = none) :
    Returns (m.freeEnqs n) fun m' => SamePtrs m m' ∧ ObjHeap.Owns base rest m'.heap := by
  induction n generalizing rest with
  | zero => exact .some ⟨.refl m, h⟩
  | succ n ih =>
      -- the eNQs before the last one go first
      have h_perm : (m.enqsObjs (n + 1) ++ rest).Perm
          (m.enqsObjs n ++ (m.enqObjs (n + 1) ++ rest)) := by
        rw [enqsObjs, List.append_assoc, ← List.append_assoc (m.enqsObjs n)]
        rw [← List.append_assoc (m.enqObjs (n + 1))]
        exact List.perm_append_comm.append_right rest
      rw [freeEnqs]
      apply (ih (h.perm h_perm) (fun a h_a => List.mem_append_right _ (h_enqs a h_a))
        fun i h_pos h_le => h_heap i h_pos (Nat.le_succ_of_le h_le)).bind
      intro m₁ h₁
      obtain ⟨h_same, h_owns⟩ := h₁
      have h_objs : m₁.enqObjs (n + 1) = m.enqObjs (n + 1) := by
        rw [h_same]
        rfl
      rw [← h_objs] at h_owns
      have h_enqs₁ : m₁.enqs = m.enqs := by rw [h_same]
      have h_none₁ : m₁.encq (n + 1) = none → m₁.nsqHeap (n + 1) = none := by
        rw [h_same]
        exact h_heap (n + 1) (Nat.le_add_left 1 n) (Nat.le_refl _)
      apply (freeEnq_returns h_owns (by rw [h_enqs₁]; exact h_some)
        (by rw [h_enqs₁]; exact h_enqs) h_none₁).mono
      intro m₂ h₂
      exact ⟨h_same.trans h₂.1, h₂.2⟩

theorem freeGroupHeaps_returns {n : Nat} (h : ObjHeap.Owns base (m.groupObjs n ++ rest) m.heap) :
    Returns (m.freeGroupHeaps n) fun m' => SamePtrs m m' ∧ ObjHeap.Owns base rest m'.heap := by
  induction n generalizing rest with
  | zero => exact .some ⟨.refl m, h⟩
  | succ n ih =>
      have h_perm : (m.groupObjs (n + 1) ++ rest).Perm
          (m.groupObjs n ++ ((m.groupHeap n).toList ++ rest)) := by
        rw [groupObjs, List.append_assoc, ← List.append_assoc (m.groupObjs n)]
        rw [← List.append_assoc (m.groupHeap n).toList]
        exact List.perm_append_comm.append_right rest
      rw [freeGroupHeaps]
      apply (ih (h.perm h_perm)).bind
      rintro m₁ ⟨h_same, h_owns⟩
      exact h_same.kfree (·.groupHeap n) (by rw [h_same]) h_owns

/-! ## Construction -/

/-- The objects of a regulator with `p` groups and the eNQs `1 .. n`. -/
def objs (m : RegMem) (p n : Nat) : List Nat :=
  m.enqsObjs n ++ (m.groupObjs p ++ (m.enqs.toList ++ m.nsqMaps.toList))

/-- A regulator that can be freed from `group_init_err` on: nothing else is allocated. -/
structure Held (base : ObjHeap RegObj) (p n : Nat) (m : RegMem) : Prop where
  owns : ObjHeap.Owns base (m.objs p n) m.heap
  enqs : m.enqs.isSome = true
  nsqHeap : ∀ i, 1 ≤ i → i ≤ n → m.encq i = none → m.nsqHeap i = none
  groupHeap : ∀ prio, p ≤ prio → m.groupHeap prio = none

/-- All allocations have succeeded so far, and the eNQs `1 .. n` are set up. -/
structure Constructed (fails : Nat → Bool) (info : BlkBlexDevInfo) (ptr : Option Nat)
    (base : ObjHeap RegObj) (p n : Nat) (m : RegMem) : Prop extends Held base p n m where
  blexInfo : m.blexInfo = ptr
  noFailure : ∀ k < m.calls, fails k = false
  encq_iff : ∀ i, 1 ≤ i → i ≤ n →
    ((m.encq i).isSome = true ↔ i = blkBlexGetCqid i info.maxNqid info.nrCqs)
  later : ∀ i, n < i → m.encq i = none ∧ m.nsqHeap i = none

/-- One of the allocations failed. -/
def Failed (fails : Nat → Bool) (m : RegMem) : Prop := ∃ k < m.calls, fails k = true

/-- The regulators differ in their eNQs past `n` only, and in the heap. -/
structure SameBelow (n : Nat) (m m' : RegMem) : Prop where
  blexInfo : m'.blexInfo = m.blexInfo
  nsqMaps : m'.nsqMaps = m.nsqMaps
  enqs : m'.enqs = m.enqs
  groupHeap : m'.groupHeap = m.groupHeap
  mask : ∀ i, i ≠ n + 1 → m'.claimedCoreCpumask i = m.claimedCoreCpumask i
  encq : ∀ i, i ≠ n + 1 → m'.encq i = m.encq i
  nsqHeap : ∀ i, i ≠ n + 1 → m'.nsqHeap i = m.nsqHeap i

variable {p n : Nat} {ptr : Option Nat}

theorem SameBelow.trans (h : SameBelow n m m') {m'' : RegMem} (h' : SameBelow n m' m'') :
    SameBelow n m m'' where
  blexInfo := h'.blexInfo.trans h.blexInfo
  nsqMaps := h'.nsqMaps.trans h.nsqMaps
  enqs := h'.enqs.trans h.enqs
  groupHeap := h'.groupHeap.trans h.groupHeap
  mask i h_i := (h'.mask i h_i).trans (h.mask i h_i)
  encq i h_i := (h'.encq i h_i).trans (h.encq i h_i)
  nsqHeap i h_i := (h'.nsqHeap i h_i).trans (h.nsqHeap i h_i)

/-- The array of the eNQs is there. -/
theorem Held.follow_enqs (h : Held base p n m) : m.follow m.enqs = some () := by
  apply follow_eq h.owns h.enqs
  intro a h_a
  exact List.mem_append_right _ (List.mem_append_right _
    (List.mem_append_left _ (Option.mem_toList.mpr h_a)))

theorem SameBelow.enqObjs (h : SameBelow n m m') {i : Nat} (h_i : i ≤ n) :
    m'.enqObjs i = m.enqObjs i := by
  have h_ne : i ≠ n + 1 := by omega
  rw [RegMem.enqObjs, RegMem.enqObjs, h.mask i h_ne, h.encq i h_ne, h.nsqHeap i h_ne]

theorem SameBelow.objs (h : SameBelow n m m') (p : Nat) : m'.objs p n = m.objs p n := by
  have h_enqs := enqsObjs_congr fun i _ h_le => h.enqObjs h_le
  have h_groups : m'.groupObjs p = m.groupObjs p :=
    groupObjs_congr fun prio _ => by rw [h.groupHeap]
  rw [RegMem.objs, RegMem.objs, h_enqs, h_groups, h.enqs, h.nsqMaps]

theorem SameBelow.objs_succ (h : SameBelow n m m') (p : Nat) :
    m'.objs p (n + 1) = m'.enqObjs (n + 1) ++ m.objs p n := by
  rw [← h.objs p, RegMem.objs, RegMem.objs, enqsObjs, List.append_assoc]

/-- An eNQ that was not set up, and has freed what it allocated. -/
theorem Held.of_sameBelow (h : Held base p n m) (h_same : SameBelow n m m')
    (h_owns : ObjHeap.Owns base (m.objs p n) m'.heap) : Held base p n m' where
  owns := by
    rw [h_same.objs]
    exact h_owns
  enqs := by
    rw [h_same.enqs]
    exact h.enqs
  nsqHeap i h_pos h_le := by
    have h_ne : i ≠ n + 1 := by omega
    rw [h_same.encq i h_ne, h_same.nsqHeap i h_ne]
    exact h.nsqHeap i h_pos h_le
  groupHeap prio h_prio := by
    rw [h_same.groupHeap]
    exact h.groupHeap prio h_prio

/-- An eNQ that was set up. -/
theorem Constructed.of_sameBelow (h : Constructed fails info ptr base p n m)
    (h_same : SameBelow n m m')
    (h_owns : ObjHeap.Owns base (m'.enqObjs (n + 1) ++ m.objs p n) m'.heap)
    (h_noFailure : ∀ k < m'.calls, fails k = false)
    (h_nsq : m'.encq (n + 1) = none → m'.nsqHeap (n + 1) = none)
    (h_encq : (m'.encq (n + 1)).isSome = true ↔
      n + 1 = blkBlexGetCqid (n + 1) info.maxNqid info.nrCqs) :
    Constructed fails info ptr base p (n + 1) m' where
  owns := by
    rw [h_same.objs_succ]
    exact h_owns
  enqs := by
    rw [h_same.enqs]
    exact h.enqs
  nsqHeap i h_pos h_le := by
    by_cases h_eq : i = n + 1
    · rw [h_eq]
      exact h_nsq
    · rw [h_same.encq i h_eq, h_same.nsqHeap i h_eq]
      exact h.nsqHeap i h_pos (by omega)
  groupHeap prio h_prio := by
    rw [h_same.groupHeap]
    exact h.groupHeap prio h_prio
  blexInfo := h_same.blexInfo.trans h.blexInfo
  noFailure := h_noFailure
  encq_iff i h_pos h_le := by
    by_cases h_eq : i = n + 1
    · rw [h_eq]
      exact h_encq
    · rw [h_same.encq i h_eq]
      exact h.encq_iff i h_pos (by omega)
  later i h_i := by
    have h_ne : i ≠ n + 1 := by omega
    rw [h_same.encq i h_ne, h_same.nsqHeap i h_ne]
    exact h.later i (by omega)

theorem noFailure_succ {calls : Nat} (h : ∀ k < calls, fails k = false)
    (h_ok : fails calls = false) : ∀ k < calls + 1, fails k = false := by
  intro k h_k
  rcases Nat.lt_succ_iff_lt_or_eq.mp h_k with h_lt | rfl
  · exact h k h_lt
  · exact h_ok

/-- An eNQ whose cpumask has been allocated; `m` is the regulator before it. -/
structure Entered (fails : Nat → Bool) (base : ObjHeap RegObj) (p n : Nat) (m m' : RegMem) :
    Prop where
  same : SameBelow n m m'
  owns : ObjHeap.Owns base ((m'.claimedCoreCpumask (n + 1)).toList ++ m.objs p n) m'.heap
  noFailure : ∀ k < m'.calls, fails k = false
  encq : m'.encq (n + 1) = none
  nsqHeap : m'.nsqHeap (n + 1) = none

/-- What an eNQ's initialisation leaves behind. -/
def EnqInitDone (fails : Nat → Bool) (info : BlkBlexDevInfo) (ptr : Option Nat)
    (base : ObjHeap RegObj) (p n : Nat) (r : Int × RegMem) : Prop :=
  (r.1 = 0 ∧ Constructed fails info ptr base p (n + 1) r.2) ∨
    (r.1 = enomem ∧ Held base p n r.2 ∧ Failed fails r.2)

theorem SameBelow.of_samePtrs (h : SameBelow n m m') {m'' : RegMem} (h_same : SamePtrs m' m'') :
    SameBelow n m m'' := by
  rw [SamePtrs] at h_same
  rw [h_same]
  exact h.trans ⟨rfl, rfl, rfl, rfl, fun _ _ => rfl, fun _ _ => rfl, fun _ _ => rfl⟩

/-- The error path frees the cpumask. -/
theorem freeMask_returns (h : Constructed fails info ptr base p n m) (h_same : SameBelow n m m')
    (h_owns : ObjHeap.Owns base ((m'.claimedCoreCpumask (n + 1)).toList ++ m.objs p n) m'.heap)
    (h_failed : Failed fails m') :
    Returns ((m'.kfree (m'.claimedCoreCpumask (n + 1))).map fun m => (enomem, m))
      (EnqInitDone fails info ptr base p n) := by
  apply (kfree_returns h_owns).map
  intro m'' h''
  have h_calls : m''.calls = m'.calls := by rw [h''.1]
  refine .inr ⟨rfl, h.toHeld.of_sameBelow (h_same.of_samePtrs h''.1) h''.2, ?_⟩
  rw [Failed, h_calls]
  exact h_failed

/-- The order in which an eNQ's objects are allocated. -/
theorem enqObjs_perm (nsqHeap encq mask rest : List Nat) :
    (nsqHeap ++ (encq ++ (mask ++ rest))).Perm ((mask ++ (nsqHeap ++ encq)) ++ rest) := by
  rw [← List.append_assoc, ← List.append_assoc]
  exact List.perm_append_comm.append_right rest

/-- The eNCQ of the eNQ, if the heap behind it could be allocated or is not needed. -/
theorem enqInitDone_encq (h_same : SameBelow n m m') (h : Constructed fails info ptr base p n m)
    (h_noFailure : ∀ k < m'.calls, fails k = false)
    (h_owns : ObjHeap.Owns base (m'.enqObjs (n + 1) ++ m.objs p n) m'.heap)
    (h_some : (m'.encq (n + 1)).isSome = true)
    (h_ncq : n + 1 = blkBlexGetCqid (n + 1) info.maxNqid info.nrCqs) :
    EnqInitDone fails info ptr base p n (0, m') := by
  refine .inl ⟨rfl, h.of_sameBelow h_same h_owns h_noFailure ?_ (iff_of_true h_some h_ncq)⟩
  intro h_none
  rw [h_none] at h_some
  cases h_some

/-- The heap of an eNCQ: `m'` is the regulator with the eNCQ. -/
theorem nsqHeapInit_returns (h : Constructed fails info ptr base p n m) (h_same : SameBelow n m m')
    (h_owns : ObjHeap.Owns base
      ((m'.encq (n + 1)).toList ++ ((m'.claimedCoreCpumask (n + 1)).toList ++ m.objs p n)) m'.heap)
    (h_noFailure : ∀ k < m'.calls, fails k = false) (h_some : (m'.encq (n + 1)).isSome = true)
    (h_ncq : n + 1 = blkBlexGetCqid (n + 1) info.maxNqid info.nrCqs) :
    Returns
      (let r := m'.blkBlexNqPrioArrInitNsq fails (n + 1)
       if r.1 ≠ 0 then
         (r.2.kfree (r.2.encq (n + 1))).bind fun m =>
         (m.kfree (m.claimedCoreCpumask (n + 1))).map fun m => (enomem, m)
       else some (0, r.2))
      (EnqInitDone fails info ptr base p n) := by
  have h_nsq (q : Option Nat) : ∀ i, i ≠ n + 1 →
      Function.update m'.nsqHeap (n + 1) q i = m'.nsqHeap i :=
    fun i h_i => Function.update_of_ne h_i ..
  rcases prioArrInitNsq_cases fails (n + 1) m' with ⟨h_fails, h_init⟩ | ⟨h_ok, h_init⟩
  · rw [h_init]
    generalize h_m₁ : ({ m' with
      calls := m'.calls + 1
      nsqHeap := Function.update m'.nsqHeap (n + 1) none } : RegMem) = m₁
    have h_same₁ : SameBelow n m m₁ := by
      rw [← h_m₁]
      exact h_same.trans ⟨rfl, rfl, rfl, rfl, fun _ _ => rfl, fun _ _ => rfl, h_nsq none⟩
    have h_owns₁ : ObjHeap.Owns base ((m₁.encq (n + 1)).toList ++
        ((m₁.claimedCoreCpumask (n + 1)).toList ++ m.objs p n)) m₁.heap := by
      rw [← h_m₁]
      exact h_owns
    have h_failed : Failed fails m₁ := by
      rw [← h_m₁]
      exact ⟨m'.calls, Nat.lt_succ_self _, h_fails⟩
    show Returns ((m₁.kfree (m₁.encq (n + 1))).bind fun m =>
      (m.kfree (m.claimedCoreCpumask (n + 1))).map fun m => (enomem, m)) _
    apply (kfree_returns h_owns₁).bind
    intro m₂ h₂
    have h_mask : m₂.claimedCoreCpumask = m₁.claimedCoreCpumask := by rw [h₂.1]
    have h_calls : m₂.calls = m₁.calls := by rw [h₂.1]
    apply freeMask_returns h (h_same₁.of_samePtrs h₂.1)
    · rw [h_mask]
      exact h₂.2
    · rw [Failed, h_calls]
      exact h_failed
  · rw [h_init]
    generalize h_m₁ : ({ m' with
      heap := m'.heap.alloc (.nsqHeap (n + 1))
      calls := m'.calls + 1
      nsqHeap := Function.update m'.nsqHeap (n + 1) (some m'.heap.next) } : RegMem) = m₁
    have h_same₁ : SameBelow n m m₁ := by
      rw [← h_m₁]
      exact h_same.trans ⟨rfl, rfl, rfl, rfl, fun _ _ => rfl, fun _ _ => rfl, h_nsq _⟩
    have h_noFailure₁ : ∀ k < m₁.calls, fails k = false := by
      rw [← h_m₁]
      exact noFailure_succ h_noFailure h_ok
    have h_owns₁ : ObjHeap.Owns base (m₁.enqObjs (n + 1) ++ m.objs p n) m₁.heap := by
      rw [← h_m₁]
      apply (h_owns.alloc (.nsqHeap (n + 1))).perm
      dsimp only [RegMem.enqObjs]
      rw [Function.update_self]
      exact enqObjs_perm (_ :: []) ..
    have h_some₁ : (m₁.encq (n + 1)).isSome = true := by
      rw [← h_m₁]
      exact h_some
    apply Returns.some
    exact enqInitDone_encq h_same₁ h h_noFailure₁ h_owns₁ h_some₁ h_ncq

theorem enqInitEncq_returns (h : Constructed fails info ptr base p n m)
    (h_ent : Entered fails base p n m m')
    (h_ncq : n + 1 = blkBlexGetCqid (n + 1) info.maxNqid info.nrCqs) :
    Returns (m'.blkBlexEnqInitEncq fails info (n + 1)) (EnqInitDone fails info ptr base p n) := by
  have h_same := h_ent.same
  rw [blkBlexEnqInitEncq]
  rcases alloc_cases fails (.encq (n + 1)) m' with ⟨h_fails, h_alloc⟩ | ⟨h_ok, h_alloc⟩
  · rw [h_alloc]
    have h_same' : SameBelow n m { m' with calls := m'.calls + 1 } :=
      h_same.trans ⟨rfl, rfl, rfl, rfl, fun _ _ => rfl, fun _ _ => rfl, fun _ _ => rfl⟩
    exact freeMask_returns h h_same' h_ent.owns ⟨m'.calls, Nat.lt_succ_self _, h_fails⟩
  · rw [h_alloc]
    generalize h_m₁ : ({ m' with
      heap := m'.heap.alloc (.encq (n + 1))
      calls := m'.calls + 1
      encq := Function.update m'.encq (n + 1) (some m'.heap.next)
      nsqHeap := Function.update m'.nsqHeap (n + 1) none } : RegMem) = m₁
    have h_same₁ : SameBelow n m m₁ := by
      rw [← h_m₁]
      exact h_same.trans ⟨rfl, rfl, rfl, rfl, fun _ _ => rfl,
        fun i h_i => Function.update_of_ne h_i .., fun i h_i => Function.update_of_ne h_i ..⟩
    have h_encq₁ : m₁.encq (n + 1) = some m'.heap.next := by
      rw [← h_m₁]
      exact Function.update_self ..
    have h_some₁ : (m₁.encq (n + 1)).isSome = true := by
      rw [h_encq₁]
      rfl
    have h_owns₁ : ObjHeap.Owns base ((m₁.encq (n + 1)).toList ++
        ((m₁.claimedCoreCpumask (n + 1)).toList ++ m.objs p n)) m₁.heap := by
      rw [h_encq₁, ← h_m₁]
      exact h_ent.owns.alloc (.encq (n + 1))
    have h_noFailure₁ : ∀ k < m₁.calls, fails k = false := by
      rw [← h_m₁]
      exact noFailure_succ h_ent.noFailure h_ok
    show Returns (if blkBlexGetCqNrNsqs (n + 1) info.maxNqid info.nrCqs ≤ 1 then some (0, m₁)
      else _) _
    split
    case isTrue h_one =>
      apply Returns.some
      apply enqInitDone_encq h_same₁ h h_noFailure₁ ?_ h_some₁ h_ncq
      apply h_owns₁.perm
      have h_nsq : m₁.nsqHeap (n + 1) = none := by
        rw [← h_m₁]
        exact Function.update_self ..
      rw [RegMem.enqObjs, h_nsq]
      exact enqObjs_perm [] ..
    case isFalse h_many =>
      exact nsqHeapInit_returns h h_same₁ h_owns₁ h_noFailure₁ h_some₁ h_ncq

/-- One eNQ: it is set up, or it frees what it has allocated. -/
theorem enqInit_returns (h : Constructed fails info ptr base p n m) :
    Returns (m.blkBlexEnqInit fails info (n + 1)) (EnqInitDone fails info ptr base p n) := by
  have h_later := h.later (n + 1) (Nat.lt_succ_self n)
  have h_mask (q : Option Nat) : ∀ i, i ≠ n + 1 →
      Function.update m.claimedCoreCpumask (n + 1) q i = m.claimedCoreCpumask i :=
    fun i h_i => Function.update_of_ne h_i ..
  rw [blkBlexEnqInit, h.follow_enqs, Option.bind_some]
  rcases alloc_cases fails (.claimedCoreCpumask (n + 1)) m with ⟨h_fails, h_alloc⟩ | ⟨h_ok, h_alloc⟩
  · rw [h_alloc]
    apply Returns.some
    refine .inr ⟨rfl, h.toHeld.of_sameBelow ?_ h.owns, m.calls, Nat.lt_succ_self _, h_fails⟩
    exact ⟨rfl, rfl, rfl, rfl, h_mask none, fun _ _ => rfl, fun _ _ => rfl⟩
  · rw [h_alloc]
    have h_ent : Entered fails base p n m { m with
        heap := m.heap.alloc (.claimedCoreCpumask (n + 1))
        calls := m.calls + 1
        claimedCoreCpumask :=
          Function.update m.claimedCoreCpumask (n + 1) (some m.heap.next) } := by
      refine ⟨⟨rfl, rfl, rfl, rfl, h_mask _, fun _ _ => rfl, fun _ _ => rfl⟩, ?_, ?_, h_later.1,
        h_later.2⟩
      · dsimp only
        rw [Function.update_self]
        exact h.owns.alloc (.claimedCoreCpumask (n + 1))
      · exact noFailure_succ h.noFailure h_ok
    dsimp only [Option.isNone_some]
    rw [if_neg Bool.false_ne_true]
    split
    case isTrue h_not =>
      apply Returns.some
      refine .inl ⟨rfl, h.of_sameBelow h_ent.same ?_ h_ent.noFailure (fun _ => h_ent.nsqHeap) ?_⟩
      · rw [RegMem.enqObjs, h_ent.encq, h_ent.nsqHeap]
        have h_owns := h_ent.owns
        rw [← List.append_nil (Option.toList _)] at h_owns
        exact h_owns
      · rw [h_ent.encq]
        exact iff_of_false Bool.false_ne_true h_not
    case isFalse h_ncq =>
      exact enqInitEncq_returns h h_ent (not_not.mp h_ncq)

/-! ## The loops -/

/-- The groups that were not set up have no heap. -/
theorem groupObjs_of_none (h_none : ∀ prio, p ≤ prio → m.groupHeap prio = none) (h_le : p ≤ n) :
    m.groupObjs n = m.groupObjs p := by
  induction n, h_le using Nat.le_induction with
  | base => rfl
  | succ n h_le ih =>
      rw [groupObjs, h_none n h_le, Option.toList_none, List.nil_append, ih]

theorem objs_congr (h_groups : ∀ prio < p, m'.groupHeap prio = m.groupHeap prio)
    (h_enqs : m'.enqs = m.enqs) (h_maps : m'.nsqMaps = m.nsqMaps) :
    m'.objs p 0 = m.objs p 0 := by
  rw [objs, objs, groupObjs_congr h_groups, h_enqs, h_maps, enqsObjs, enqsObjs]

theorem objs_succ_group : m.objs (p + 1) 0 = (m.groupHeap p).toList ++ m.objs p 0 := by
  rw [objs, objs, groupObjs, enqsObjs, List.nil_append, List.nil_append, List.append_assoc]

/-- After its eNQs were freed. -/
theorem Held.of_samePtrs (h : Held base p n m) (h_same : SamePtrs m m')
    (h_owns : ObjHeap.Owns base (m.objs p 0) m'.heap) : Held base p 0 m' where
  owns := by
    have h_groups : m'.groupHeap = m.groupHeap := by rw [h_same]
    have h_enqs : m'.enqs = m.enqs := by rw [h_same]
    have h_maps : m'.nsqMaps = m.nsqMaps := by rw [h_same]
    rw [objs_congr (fun prio _ => congrFun h_groups prio) h_enqs h_maps]
    exact h_owns
  enqs := by
    rw [h_same]
    exact h.enqs
  nsqHeap i h_pos h_le := by omega
  groupHeap := by
    rw [h_same]
    exact h.groupHeap

theorem groupInit_returns (h : Constructed fails info ptr base p 0 m) :
    Returns (m.blkBlexNqGroupInit fails p) fun r =>
      (r.1 = 0 ∧ Constructed fails info ptr base (p + 1) 0 r.2) ∨
        (r.1 = enomem ∧ Held base p 0 r.2 ∧ Failed fails r.2) := by
  have h_groups (q : Option Nat) : ∀ prio < p,
      Function.update m.groupHeap p q prio = m.groupHeap prio :=
    fun prio h_prio => Function.update_of_ne (Nat.ne_of_lt h_prio) ..
  rw [blkBlexNqGroupInit, h.follow_enqs, Option.map_some]
  apply Returns.some
  rcases prioArrInitNcq_cases fails p m with ⟨h_fails, h_init⟩ | ⟨h_ok, h_init⟩
  · rw [h_init]
    generalize h_m₁ : ({ m with
      calls := m.calls + 1
      groupHeap := Function.update m.groupHeap p none } : RegMem) = m₁
    have h_objs₁ : m₁.objs p 0 = m.objs p 0 := by
      rw [← h_m₁]
      exact objs_congr (h_groups none) rfl rfl
    refine .inr ⟨rfl, ?_, ?_⟩
    · show Held base p 0 m₁
      refine ⟨?_, ?_, ?_, ?_⟩
      · rw [h_objs₁, ← h_m₁]
        exact h.owns
      · rw [← h_m₁]
        exact h.enqs
      · intro i h_pos h_le
        omega
      · intro prio h_prio
        rw [← h_m₁]
        by_cases h_eq : prio = p
        · rw [h_eq]
          exact Function.update_self ..
        · exact (Function.update_of_ne h_eq ..).trans (h.groupHeap prio h_prio)
    · show Failed fails m₁
      rw [← h_m₁]
      exact ⟨m.calls, Nat.lt_succ_self _, h_fails⟩
  · rw [h_init]
    generalize h_m₁ : ({ m with
      heap := m.heap.alloc (.groupHeap p)
      calls := m.calls + 1
      groupHeap := Function.update m.groupHeap p (some m.heap.next) } : RegMem) = m₁
    have h_objs₁ : m₁.objs p 0 = m.objs p 0 := by
      rw [← h_m₁]
      exact objs_congr (h_groups _) rfl rfl
    have h_heap₁ : m₁.groupHeap p = some m.heap.next := by
      rw [← h_m₁]
      exact Function.update_self ..
    refine .inl ⟨rfl, ?_⟩
    show Constructed fails info ptr base (p + 1) 0 m₁
    refine ⟨⟨?_, ?_, ?_, ?_⟩, ?_, ?_, ?_, ?_⟩
    · rw [objs_succ_group, h_heap₁, h_objs₁, ← h_m₁]
      exact h.owns.alloc (.groupHeap p)
    · rw [← h_m₁]
      exact h.enqs
    · intro i h_pos h_le
      omega
    · intro prio h_prio
      have h_ne : prio ≠ p := by omega
      rw [← h_m₁]
      exact (Function.update_of_ne h_ne ..).trans (h.groupHeap prio (by omega))
    · rw [← h_m₁]
      exact h.blexInfo
    · rw [← h_m₁]
      exact noFailure_succ h.noFailure h_ok
    · intro i h_pos h_le
      omega
    · rw [← h_m₁]
      exact h.later

/-- The first groups, up to one that fails. -/
theorem groupsInit_returns (h : Constructed fails info ptr base 0 0 m) (n : Nat) :
    Returns (m.groupsInit fails n) fun r =>
      (r.1 = 0 ∧ Constructed fails info ptr base n 0 r.2) ∨
        (r.1 = enomem ∧ (∃ p ≤ n, Held base p 0 r.2) ∧ Failed fails r.2) := by
  induction n with
  | zero => exact .some (.inl ⟨rfl, h⟩)
  | succ n ih =>
      rw [groupsInit]
      apply ih.bind
      rintro ⟨ret, m₁⟩ (⟨rfl, h_con⟩ | ⟨rfl, ⟨p, h_p, h_held⟩, h_failed⟩)
      · rw [if_neg (not_not.mpr rfl)]
        apply (groupInit_returns h_con).mono
        rintro r (h_done | ⟨h_ret, h_held, h_failed⟩)
        · exact .inl h_done
        · exact .inr ⟨h_ret, ⟨n, Nat.le_succ n, h_held⟩, h_failed⟩
      · rw [if_pos enomem_ne]
        exact .some (.inr ⟨rfl, ⟨p, Nat.le_succ_of_le h_p, h_held⟩, h_failed⟩)

/-- The eNQs `1 .. n`: if one fails, none of them is left. -/
theorem enqsInit_returns (h : Constructed fails info ptr base p 0 m) (n : Nat) :
    Returns (m.enqsInit fails info n) fun r =>
      (r.1 = 0 ∧ Constructed fails info ptr base p n r.2) ∨
        (r.1 = enomem ∧ Held base p 0 r.2 ∧ Failed fails r.2) := by
  induction n with
  | zero => exact .some (.inl ⟨rfl, h⟩)
  | succ n ih =>
      rw [enqsInit]
      apply ih.bind
      rintro ⟨ret, m₁⟩ (⟨rfl, h_con⟩ | ⟨rfl, h_rest⟩)
      · rw [if_neg (not_not.mpr rfl)]
        apply (enqInit_returns h_con).bind
        rintro ⟨ret, m₂⟩ (⟨rfl, h_con'⟩ | ⟨rfl, h_held, h_failed⟩)
        · rw [if_neg (not_not.mpr rfl)]
          exact .some (.inl ⟨rfl, h_con'⟩)
        · -- the eNQs before it are freed here
          rw [if_pos enomem_ne]
          apply (freeEnqs_returns h_held.owns h_held.enqs
            (fun a h_a => List.mem_append_right _
              (List.mem_append_left _ (Option.mem_toList.mpr h_a))) h_held.nsqHeap).map
          rintro m₃ ⟨h_same, h_owns⟩
          have h_calls : m₃.calls = m₂.calls := by rw [h_same]
          refine .inr ⟨rfl, h_held.of_samePtrs h_same h_owns, ?_⟩
          rw [Failed, h_calls]
          exact h_failed
      · rw [if_pos enomem_ne]
        exact .some (.inr ⟨rfl, h_rest⟩)

/-! ## The whole regulator -/

/-- `group_init_err` frees what is left. -/
theorem groupInitErr_returns (h : Held base p 0 m) (h_p : p ≤ blkBlexPrioLevel)
    (h_failed : Failed fails m) :
    Returns m.groupInitErr fun r =>
      r.1 = enomem ∧ ObjHeap.Owns base [] r.2.heap ∧ Failed fails r.2 := by
  have h_owns := h.owns
  rw [objs, enqsObjs, List.nil_append, ← groupObjs_of_none h.groupHeap h_p] at h_owns
  rw [groupInitErr]
  apply (freeGroupHeaps_returns h_owns).bind
  rintro m₁ ⟨h_same₁, h_owns₁⟩
  apply (h_same₁.kfree RegMem.enqs (by rw [h_same₁]) h_owns₁).bind
  rintro m₂ ⟨h_same₂, h_owns₂⟩
  rw [← List.append_nil (Option.toList _)] at h_owns₂
  apply (h_same₂.kfree RegMem.nsqMaps (by rw [h_same₂]) h_owns₂).map
  rintro m₃ ⟨h_same₃, h_owns₃⟩
  have h_calls₃ : m₃.calls = m.calls := by rw [h_same₃]
  refine ⟨rfl, h_owns₃, ?_⟩
  rw [Failed, h_calls₃]
  exact h_failed

/-- What `blk_blex_nq_regulator_alloc_and_init` leaves behind, with valid arguments. -/
def AllocDone (fails : Nat → Bool) (info : BlkBlexDevInfo) (ptr : Option Nat)
    (base : ObjHeap RegObj) (r : Int × RegMem) : Prop :=
  (r.1 = 0 ∧ Constructed fails info ptr base blkBlexPrioLevel info.maxNqid r.2) ∨
    (r.1 = enomem ∧ ObjHeap.Owns base [] r.2.heap ∧ Failed fails r.2)

/-- The arrays have been allocated, and are zeroed. -/
theorem constructed_zero (h : ObjHeap.Owns base (m.enqs.toList ++ m.nsqMaps.toList) m.heap)
    (h_some : m.enqs.isSome = true) (h_groups : ∀ prio, m.groupHeap prio = none)
    (h_encq : ∀ i, m.encq i = none) (h_nsq : ∀ i, m.nsqHeap i = none)
    (h_ptr : m.blexInfo = ptr) (h_noFailure : ∀ k < m.calls, fails k = false) :
    Constructed fails info ptr base 0 0 m where
  owns := h
  enqs := h_some
  nsqHeap i _ _ _ := h_nsq i
  groupHeap prio _ := h_groups prio
  blexInfo := h_ptr
  noFailure := h_noFailure
  encq_iff i h_pos h_le := by omega
  later i _ := ⟨h_encq i, h_nsq i⟩

theorem initGroupsAndEnqs_returns (h : Constructed fails info ptr base 0 0 m) :
    Returns (m.initGroupsAndEnqs fails info) (AllocDone fails info ptr base) := by
  rw [initGroupsAndEnqs]
  apply (groupsInit_returns h blkBlexPrioLevel).bind
  rintro ⟨ret, m₁⟩ (⟨rfl, h_con⟩ | ⟨rfl, ⟨p, h_p, h_held⟩, h_failed⟩)
  · rw [if_neg (not_not.mpr rfl)]
    apply (enqsInit_returns h_con info.maxNqid).bind
    rintro ⟨ret, m₂⟩ (⟨rfl, h_done⟩ | ⟨rfl, h_held, h_failed⟩)
    · rw [if_neg (not_not.mpr rfl)]
      exact .some (.inl ⟨rfl, h_done⟩)
    · rw [if_pos enomem_ne]
      exact (groupInitErr_returns h_held (Nat.le_refl _) h_failed).mono fun _ h_r => .inr h_r
  · rw [if_pos enomem_ne]
    exact (groupInitErr_returns h_held h_p h_failed).mono fun _ h_r => .inr h_r

theorem allocEnqsAndInit_returns (h_owns : ObjHeap.Owns base m.nsqMaps.toList m.heap)
    (h_groups : ∀ prio, m.groupHeap prio = none) (h_ptr : m.blexInfo = ptr)
    (h_noFailure : ∀ k < m.calls, fails k = false) :
    Returns (m.allocEnqsAndInit fails info) (AllocDone fails info ptr base) := by
  rw [allocEnqsAndInit]
  rcases alloc_cases fails .enqs m with ⟨h_fails, h_alloc⟩ | ⟨h_ok, h_alloc⟩
  · rw [h_alloc]
    generalize h_m₁ : ({ m with
      calls := m.calls + 1
      enqs := none
      claimedCoreCpumask := fun _ => none
      encq := fun _ => none
      nsqHeap := fun _ => none } : RegMem) = m₁
    show Returns ((m₁.kfree m₁.nsqMaps).map fun m => (enomem, m)) _
    have h_owns₁ : ObjHeap.Owns base (m₁.nsqMaps.toList ++ []) m₁.heap := by
      rw [← h_m₁, List.append_nil]
      exact h_owns
    apply (kfree_returns h_owns₁).map
    rintro m₂ ⟨h_same, h_owns₂⟩
    have h_calls : m₂.calls = m.calls + 1 := by rw [h_same, ← h_m₁]
    refine .inr ⟨rfl, h_owns₂, m.calls, ?_, h_fails⟩
    rw [h_calls]
    exact Nat.lt_succ_self _
  · rw [h_alloc]
    exact initGroupsAndEnqs_returns (constructed_zero (h_owns.alloc .enqs) rfl h_groups
      (fun _ => rfl) (fun _ => rfl) h_ptr (noFailure_succ h_noFailure h_ok))

theorem allocMapsAndInit_returns (h_owns : ObjHeap.Owns base [] m.heap)
    (h_groups : ∀ prio, m.groupHeap prio = none) (h_ptr : m.blexInfo = ptr)
    (h_noFailure : ∀ k < m.calls, fails k = false) :
    Returns (m.allocMapsAndInit fails info) (AllocDone fails info ptr base) := by
  rw [allocMapsAndInit]
  rcases alloc_cases fails .nsqMaps m with ⟨h_fails, h_alloc⟩ | ⟨h_ok, h_alloc⟩
  · rw [h_alloc]
    exact .some (.inr ⟨rfl, h_owns, m.calls, Nat.lt_succ_self _, h_fails⟩)
  · rw [h_alloc]
    exact allocEnqsAndInit_returns (h_owns.alloc .nsqMaps) h_groups h_ptr
      (noFailure_succ h_noFailure h_ok)

theorem allocAndInit_returns (fails : Nat → Bool) {infoAddr : Nat} (h_base : base.Bounded)
    (h_info : base.cell infoAddr = some (.blexInfo info)) :
    Returns (blkBlexNqRegulatorAllocAndInit fails true (some infoAddr) (zeroed base))
      (AllocDone fails info (some infoAddr) base) := by
  have h_zero : ∀ k < 0, fails k = false := fun k h_k => absurd h_k (Nat.not_lt_zero k)
  have h_read : ({ zeroed base with blexInfo := some infoAddr } : RegMem).readInfo = some info := by
    show (match base.cell infoAddr with | some (.blexInfo info) => some info | _ => none) = _
    rw [h_info]
  rw [blkBlexNqRegulatorAllocAndInit, if_neg (by decide)]
  dsimp only
  rw [h_read, Option.bind_some]
  exact allocMapsAndInit_returns (ObjHeap.Owns.init h_base) (fun _ => rfl) rfl h_zero

/-- The order in which a regulator is freed. -/
theorem free_perm (enqsObjs groupObjs enqs nsqMaps name nqReg : List Nat) :
    ((enqsObjs ++ (groupObjs ++ (enqs ++ nsqMaps))) ++ (name ++ nqReg)).Perm
      (name ++ (nsqMaps ++ (enqsObjs ++ (enqs ++ (groupObjs ++ nqReg))))) := by
  apply List.perm_iff_count.mpr
  intro a
  simp only [List.count_append]
  omega

/-- A regulator that was built and is still there: `rest` is what the heap has besides it, in
which the memory of its `blex_info` is what it was or has been freed. -/
structure Built (info : BlkBlexDevInfo) (infoAddr : Nat) (name : Option Nat) (nqReg : Nat)
    (rest : ObjHeap RegObj) (m : RegMem) : Prop where
  owns : ObjHeap.Owns rest
    (m.objs blkBlexPrioLevel info.maxNqid ++ (name.toList ++ [nqReg])) m.heap
  enqs : m.enqs.isSome = true
  nsqHeap : ∀ i, 1 ≤ i → i ≤ info.maxNqid → m.encq i = none → m.nsqHeap i = none
  blexInfo : m.blexInfo = some infoAddr
  apart : infoAddr ∉ m.objs blkBlexPrioLevel info.maxNqid ++ (name.toList ++ [nqReg])
  kept : ∀ obj ∈ rest.cell infoAddr, obj = .blexInfo info

section Free

variable {infoAddr nqReg : Nat} {name : Option Nat} {rest : ObjHeap RegObj}

/-- The name and the maps have been freed when the number of queues is read. -/
theorem Built.readInfo (h : Built info infoAddr name nqReg rest m) {own : List Nat}
    (h_same : SamePtrs m m') (h_owns : ObjHeap.Owns rest own m'.heap) (h_own : infoAddr ∉ own) :
    m'.readInfo = if rest.live infoAddr then some info else none := by
  have h_ptr : m'.blexInfo = some infoAddr := by
    rw [h_same]
    exact h.blexInfo
  rw [RegMem.readInfo, h_ptr, Option.bind_some, h_owns.frame infoAddr h_own, ObjHeap.live]
  cases h_cell : rest.cell infoAddr with
  | none => rfl
  | some obj =>
      rw [h.kept obj h_cell]
      rfl

/-- The regulator without its name and its maps, `m₂`, of which all the rest is freed. -/
theorem freeRest_returns {m₂ : RegMem} (h : Built info infoAddr name nqReg rest m)
    (h_same₂ : SamePtrs m m₂)
    (h_owns₂ : ObjHeap.Owns rest (m.enqsObjs info.maxNqid ++ (m.enqs.toList ++
      (m.groupObjs blkBlexPrioLevel ++ [nqReg]))) m₂.heap) :
    Returns
      ((m₂.freeEnqs info.maxNqid).bind fun m =>
        (m.kfree m.enqs).bind fun m =>
        (m.freeGroupHeaps blkBlexPrioLevel).bind fun m =>
        m.kfree (some nqReg))
      fun m' => m'.heap.cell = rest.cell := by
  have h_enqs₂ : m₂.enqs = m.enqs := by rw [h_same₂]
  have h_objs₂ : m₂.enqsObjs info.maxNqid = m.enqsObjs info.maxNqid :=
    enqsObjs_congr fun _ _ _ => by rw [h_same₂]; rfl
  rw [← h_objs₂, ← h_enqs₂] at h_owns₂
  apply (freeEnqs_returns h_owns₂ (by rw [h_enqs₂]; exact h.enqs)
    (fun a h_a => List.mem_append_left _ (Option.mem_toList.mpr h_a))
    (by rw [h_same₂]; exact h.nsqHeap)).bind
  rintro m₃ ⟨h_same₃, h_owns₃⟩
  apply (h_same₃.kfree RegMem.enqs (by rw [h_same₃]) h_owns₃).bind
  rintro m₄ ⟨h_same₄, h_owns₄⟩
  have h_heap₄ : m₄.groupHeap = m.groupHeap := by rw [h_same₄, h_same₂]
  have h_groups₄ : m₄.groupObjs blkBlexPrioLevel = m.groupObjs blkBlexPrioLevel :=
    groupObjs_congr fun prio _ => congrFun h_heap₄ prio
  rw [← h_groups₄] at h_owns₄
  apply (freeGroupHeaps_returns h_owns₄).bind
  rintro m₅ ⟨_, h_owns₅⟩
  exact (kfree_returns h_owns₅).mono fun _ h_m => h_m.2.cell_eq

theorem objs_heap (heap : ObjHeap RegObj) (p n : Nat) :
    RegMem.objs { m with heap := heap } p n = m.objs p n := by
  have h_enqs : RegMem.enqsObjs { m with heap := heap } n = m.enqsObjs n :=
    enqsObjs_congr fun _ _ _ => rfl
  have h_groups : RegMem.groupObjs { m with heap := heap } p = m.groupObjs p :=
    groupObjs_congr fun _ _ => rfl
  rw [objs, objs, h_enqs, h_groups]

/-- Everything is freed once, unless the number of queues is read from freed memory. -/
theorem Built.free_iff (h : Built info infoAddr name nqReg rest m) :
    Returns (m.blkBlexNqRegulatorFree name (some nqReg)) (fun m' => m'.heap.cell = rest.cell) ↔
      rest.live infoAddr = true := by
  have h_perm := free_perm (m.enqsObjs info.maxNqid) (m.groupObjs blkBlexPrioLevel)
    m.enqs.toList m.nsqMaps.toList name.toList [nqReg]
  obtain ⟨m₁, h_name, h_same₁, h_owns₁⟩ := kfree_returns (h.owns.perm h_perm)
  obtain ⟨m₂, h_maps, h_same₂, h_owns₂⟩ :=
    h_same₁.kfree RegMem.nsqMaps (by rw [h_same₁]) h_owns₁
  have h_read : m₂.readInfo = if rest.live infoAddr then some info else none := by
    refine h.readInfo h_same₂ h_owns₂ fun h_mem => h.apart (h_perm.mem_iff.mpr ?_)
    exact List.mem_append_right _ (List.mem_append_right _ h_mem)
  have h_some : ¬ (some nqReg).isNone = true := Bool.false_ne_true
  rw [blkBlexNqRegulatorFree, if_neg h_some, h_name, Option.bind_some, h_maps, Option.bind_some,
    h_read]
  by_cases h_live : rest.live infoAddr = true
  · rw [if_pos h_live, Option.bind_some]
    exact iff_of_true (freeRest_returns h h_same₂ h_owns₂) h_live
  · rw [if_neg h_live, Option.bind_none]
    exact iff_of_false nofun h_live

end Free

/-- Construction is all or nothing: it succeeds exactly if its arguments are valid and no
allocation fails, else every object that it has allocated is freed, and nothing else.  A regulator
that was built may be freed at any later time; all of it, with what the driver had allocated, is
freed once if and only if its `blex_info` has not been freed before. -/
theorem regulator_allOrNothing (fails : Nat → Bool) (valid : Bool) (info : BlkBlexDevInfo)
    {base₀ base : ObjHeap RegObj} {name : Option Nat} {nqReg infoAddr : Nat}
    (h_base : ObjHeap.Owns base₀ (name.toList ++ [nqReg]) base)
    (h_info : base₀.cell infoAddr = some (.blexInfo info)) :
    Returns (blkBlexNqRegulatorAllocAndInit fails valid (some infoAddr) (zeroed base)) fun r =>
      (r.1 = 0 ↔ valid = true ∧ ∀ k < r.2.calls, fails k = false) ∧
      (r.1 ≠ 0 → r.1 < 0 ∧ r.2.heap.cell = base.cell) ∧
      (r.1 = 0 → ∀ heap rest,
        ObjHeap.Owns rest
          (r.2.objs blkBlexPrioLevel info.maxNqid ++ (name.toList ++ [nqReg])) heap →
        (∀ obj ∈ rest.cell infoAddr, obj = .blexInfo info) →
        (Returns (blkBlexNqRegulatorFree name (some nqReg) { r.2 with heap := heap })
            (fun m => m.heap.cell = rest.cell) ↔ rest.live infoAddr = true)) := by
  have h_apart : infoAddr ∉ name.toList ++ [nqReg] := by
    intro h_mem
    rw [h_base.fresh infoAddr h_mem] at h_info
    cases h_info
  have h_cell : base.cell infoAddr = some (.blexInfo info) := by
    rw [h_base.frame infoAddr h_apart]
    exact h_info
  cases valid with
  | false =>
      have h_neg : (-1 : Int) < 0 := by decide
      have h_ne : (-1 : Int) ≠ 0 := by decide
      refine .some ⟨iff_of_false h_ne fun h => Bool.false_ne_true h.1, ?_, ?_⟩
      · exact fun _ => ⟨h_neg, rfl⟩
      · exact fun h_ret => absurd h_ret h_ne
  | true =>
      apply (allocAndInit_returns fails h_base.bounded h_cell).mono
      rintro ⟨ret, m⟩ (⟨rfl, h_con⟩ | ⟨rfl, h_owns, k, h_k, h_fails⟩)
      · refine ⟨iff_of_true rfl ⟨rfl, h_con.noFailure⟩, fun h_ne => absurd rfl h_ne, ?_⟩
        intro _ heap rest h_owns h_kept
        have h_not :
            infoAddr ∉ m.objs blkBlexPrioLevel info.maxNqid ++ (name.toList ++ [nqReg]) := by
          intro h_mem
          rw [(h_con.owns.trans h_base).fresh infoAddr h_mem] at h_info
          cases h_info
        have h_built : Built info infoAddr name nqReg rest { m with heap := heap } := by
          refine ⟨?_, h_con.enqs, h_con.nsqHeap, h_con.blexInfo, ?_, h_kept⟩
          · rw [objs_heap]
            exact h_owns
          · rw [objs_heap]
            exact h_not
        exact h_built.free_iff
      · refine ⟨iff_of_false enomem_ne ?_, fun _ => ⟨enomem_neg, h_owns.cell_eq⟩, ?_⟩
        · intro h
          rw [h.2 k h_k] at h_fails
          cases h_fails
        · exact fun h_ret => absurd h_ret enomem_ne

/-- A heap that holds the `blex_info` of five queues with two NCQs. -/
def newInfo : ObjHeap RegObj := ObjHeap.empty.alloc (.blexInfo ⟨5, 2⟩)

/-- A new `nq_reg` and its name in addition. -/
def newReg : ObjHeap RegObj := (newInfo.alloc .nqReg).alloc .name

theorem newReg_owned : ObjHeap.Owns newInfo ((some 2).toList ++ [1]) newReg := by
  have h_bounded : newInfo.Bounded := by
    intro a h_a
    have h_ne : a ≠ 0 := Nat.ne_of_gt h_a
    exact Function.update_of_ne h_ne ..
  exact ((ObjHeap.Owns.init h_bounded).alloc .nqReg).alloc .name

/-- The last allocation, the second eNCQ's heap, fails; or none does, and the regulator is freed
before its `blex_info`. -/
theorem regulator_allOrNothing_fiveQueues :
    (blkBlexNqRegulatorAllocAndInit (fun k => k = 12) true (some 0) (zeroed newReg)).map
      (fun r => (r.1, r.2.calls)) = some (enomem, 13) ∧
    Returns (blkBlexNqRegulatorAllocAndInit (fun k => k = 12) true (some 0) (zeroed newReg))
      (fun r => r.1 ≠ 0 → r.1 < 0 ∧ r.2.heap.cell = newReg.cell) ∧
    Returns (blkBlexNqRegulatorAllocAndInit (fun _ => false) true (some 0) (zeroed newReg))
      fun r => Returns (r.2.blkBlexNqRegulatorFree (some 2) (some 1)) fun m =>
        m.heap.cell = newInfo.cell := by
  have h_info : newInfo.cell 0 = some (.blexInfo ⟨5, 2⟩) := rfl
  refine ⟨by decide, ?_, ?_⟩
  · exact (regulator_allOrNothing _ true ⟨5, 2⟩ newReg_owned h_info).mono fun _ h => h.2.1
  · obtain ⟨r, h_eq, h_ret, -, h_free⟩ :=
      regulator_allOrNothing (fun _ => false) true ⟨5, 2⟩ newReg_owned h_info
    refine ⟨r, h_eq, ?_⟩
    have h_zero : r.1 = 0 := h_ret.mpr ⟨rfl, fun _ _ => rfl⟩
    have h_info' : newReg.cell 0 = some (.blexInfo ⟨5, 2⟩) := rfl
    rcases (allocAndInit_returns (fun _ => false) newReg_owned.bounded h_info').of_eq_some h_eq with
      ⟨-, h_con⟩ | ⟨h_err, -⟩
    · refine (h_free h_zero r.2.heap newInfo (h_con.owns.trans newReg_owned) ?_).mpr rfl
      rintro obj ⟨⟩
      rfl
    · rw [h_err] at h_zero
      exact absurd h_zero enomem_ne

/-- A regulator is built, and there is no tag set for it: its `blex_info` is freed first. -/
theorem regulatorFree_useAfterFree :
    (blkBlexNqRegulatorAllocAndInit (fun _ => false) true (some 0) (zeroed newReg)).map (·.1) =
        some 0 ∧
      ((blkBlexNqRegulatorAllocAndInit (fun _ => false) true (some 0) (zeroed newReg)).bind
        fun r => r.2.freeInfoAndRegulator (some 2) (some 1)).isNone = true :=
  ⟨by decide, by decide⟩

/-- The eNCQs that are allocated are those that the initialised regulator has. -/
theorem encq_isSome_eq {L : QueueLayout} (h_groups : 2 ≤ L.nrCqs) {env : Env} {reg : NqRegulator}
    (h_reg : Sched.blkBlexNqRegulatorAllocAndInit env L.toBlkBlexDevInfo = some reg)
    (h_base : base.Bounded) {infoAddr : Nat}
    (h_info : base.cell infoAddr = some (.blexInfo L.toBlkBlexDevInfo)) {r : Int × RegMem}
    (h_mem : blkBlexNqRegulatorAllocAndInit fails true (some infoAddr) (zeroed base) = some r)
    (h_ok : r.1 = 0) {nqid : Nat} (h_pos : 1 ≤ nqid) (h_le : nqid ≤ L.maxNqid) :
    (r.2.encq nqid).isSome = (reg.enqs nqid).encq.isSome := by
  rw [((allocAndInit_grouped h_groups h_reg).done nqid h_pos h_le).hasCq, blkBlexHasCq]
  rcases (allocAndInit_returns fails h_base h_info).of_eq_some h_mem with
    ⟨-, h_con⟩ | ⟨h_err, -⟩
  · rw [Bool.eq_iff_iff, beq_iff_eq]
    exact h_con.encq_iff nqid h_pos h_le
  · rw [h_err] at h_ok
    exact absurd h_ok enomem_ne

end RegMem

end Daredevil.Sched
