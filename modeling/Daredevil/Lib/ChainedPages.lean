/-
  Daredevil.Lib.ChainedPages

  A list of entries written into pages of `cap` slots each.  When the page at hand is full
  and another entry comes, its last entry moves to slot 0 of a fresh page, and a link to
  that page takes its place.

  `Holds cap link rest pages xs` says that the pages hold `xs` with `rest` entries still to
  come.  A link is made from the address of the page and from the number of the entries
  that were to come when it was written.

    * `Holds.push`        — another entry in the page at hand;
    * `Holds.chain_push`  — another entry, the page at hand being full;
    * `Holds.read`        — a reader that counts the entries reads `xs`;
    * `Holds.walk_eq`     — following the links gives the address of every page;
    * `Own.nodup`         — the pages are different ones.
-/
import Mathlib.Data.List.Basic
import Mathlib.Data.List.Nodup
import Mathlib.Logic.Function.Basic

namespace ChainedPages

variable {A α : Type*}

/-- A page: where it is on the bus, and what its slots contain. -/
structure Page (A α : Type*) where
  addr : A
  slot : Nat → α

namespace Page

def set (p : Page A α) (i : Nat) (x : α) : Page A α :=
  { p with slot := Function.update p.slot i x }

@[simp] theorem set_addr (p : Page A α) (i : Nat) (x : α) : (p.set i x).addr = p.addr := rfl

@[simp] theorem set_slot_self (p : Page A α) (i : Nat) (x : α) : (p.set i x).slot i = x := by
  simp [set]

theorem set_slot_of_ne (p : Page A α) {i j : Nat} (x : α) (h : j ≠ i) :
    (p.set i x).slot j = p.slot j := by
  simp [set, h]

end Page

/-- `pages` hold the entries `xs`, and `rest` more are to come. -/
inductive Holds (cap : Nat) (link : A → Nat → α) (rest : Nat) :
    List (Page A α) → List α → Prop
  | last {p : Page A α} {xs : List α} :
      xs.length ≤ cap → (∀ i, i < xs.length → xs[i]? = some (p.slot i)) →
      Holds cap link rest [p] xs
  | link {p : Page A α} {ps : List (Page A α)} {xs : List α} {a : A} :
      ps.head?.map Page.addr = some a → cap < xs.length →
      (∀ i, i + 1 < cap → xs[i]? = some (p.slot i)) →
      p.slot (cap - 1) = link a (xs.length - cap + rest) →
      Holds cap link rest ps (xs.drop (cap - 1)) → Holds cap link rest (p :: ps) xs

variable {cap : Nat} {link : A → Nat → α} {rest : Nat} {xs : List α}
  {full : List (Page A α)} {cur p : Page A α}

/-- What a page with another one behind it contains. -/
theorem Holds.of_cons {ps : List (Page A α)} (h : Holds cap link rest (p :: ps) xs)
    (h_ne : ps ≠ []) :
    ∃ a, ps.head?.map Page.addr = some a ∧ cap < xs.length ∧
      (∀ i, i + 1 < cap → xs[i]? = some (p.slot i)) ∧
      p.slot (cap - 1) = link a (xs.length - cap + rest) ∧
      Holds cap link rest ps (xs.drop (cap - 1)) := by
  cases h with
  | last _ _ => exact absurd rfl h_ne
  | link h_head h_lt h_slots h_link h_rest => exact ⟨_, h_head, h_lt, h_slots, h_link, h_rest⟩

theorem head_append_set (full : List (Page A α)) (cur : Page A α) (i : Nat) (x : α) :
    ((full ++ [cur.set i x]).head?).map Page.addr = ((full ++ [cur]).head?).map Page.addr := by
  cases full with
  | nil => rfl
  | cons q qs => rfl

/-- The entries of a page list: those of the full pages, one less than `cap` each, and the
ones in the page at hand. -/
theorem Holds.length_bounds (h : Holds cap link rest (full ++ [cur]) xs) (h_cap : 2 ≤ cap) :
    (cap - 1) * full.length ≤ xs.length ∧ xs.length ≤ (cap - 1) * full.length + cap ∧
      (full ≠ [] → (cap - 1) * full.length + 1 < xs.length) := by
  induction full generalizing xs with
  | nil =>
      cases h with
      | last h_le _ => simpa using h_le
      | link h_head _ _ _ _ => simp at h_head
  | cons q qs ih =>
      obtain ⟨a, h_head, h_lt, h_slots, h_link, h_rest⟩ := h.of_cons (by simp)
      obtain ⟨h_lo, h_hi, -⟩ := ih h_rest
      rw [List.length_drop] at h_lo h_hi
      have h_mul : (cap - 1) * (q :: qs).length = (cap - 1) * qs.length + (cap - 1) := by
        rw [List.length_cons, Nat.mul_succ]
      have h_strict : qs ≠ [] → (cap - 1) * qs.length + 1 < xs.length - (cap - 1) := by
        intro h_ne
        have h_more := (ih h_rest).2.2 h_ne
        rwa [List.length_drop] at h_more
      refine ⟨by omega, by omega, fun _ => ?_⟩
      rcases List.eq_nil_or_concat qs with rfl | ⟨_, _, h_qs⟩
      · simp only [List.length_cons, List.length_nil] at h_mul ⊢
        omega
      · have := h_strict (by rw [h_qs]; simp)
        omega

/-- One more entry in the page at hand, at the slot where the writer stands. -/
theorem Holds.push {i : Nat} {x : α} (h : Holds cap link (rest + 1) (full ++ [cur]) xs)
    (h_i : xs.length = (cap - 1) * full.length + i) (h_room : i < cap) :
    Holds cap link rest (full ++ [cur.set i x]) (xs ++ [x]) := by
  induction full generalizing xs with
  | nil =>
      cases h with
      | link h_head _ _ _ _ => simp at h_head
      | last h_le h_slots =>
          have h_len : xs.length = i := by simpa using h_i
          refine Holds.last (by simp; omega) ?_
          intro j h_j
          rcases Nat.lt_or_ge j xs.length with h_lt | h_ge
          · rw [List.getElem?_append_left h_lt, h_slots j h_lt,
              cur.set_slot_of_ne x (by omega)]
          · have h_eq : j = i := by
              rw [List.length_append, List.length_singleton] at h_j
              omega
            subst h_eq
            rw [List.getElem?_append_right h_ge, cur.set_slot_self, h_len, Nat.sub_self]
            rfl
  | cons q qs ih =>
      obtain ⟨a, h_head, h_lt, h_slots, h_link, h_rest⟩ := h.of_cons (by simp)
      have h_mul : (cap - 1) * (q :: qs).length = (cap - 1) * qs.length + (cap - 1) := by
        rw [List.length_cons, Nat.mul_succ]
      refine Holds.link ((head_append_set qs cur i x).trans h_head) ?_ ?_ ?_ ?_
      · rw [List.length_append]
        omega
      · intro j h_j
        rw [List.getElem?_append_left (by omega)]
        exact h_slots j h_j
      · rw [h_link]
        congr 1
        rw [List.length_append, List.length_singleton]
        omega
      · rw [List.drop_append_of_le_length (by omega)]
        exact ih h_rest (by rw [List.length_drop]; omega)

/-- One more entry when the page at hand is full: its last entry moves on. -/
theorem Holds.chain_push (fresh : Page A α) (x : α)
    (h : Holds cap link (rest + 1) (full ++ [cur]) xs)
    (h_i : xs.length = (cap - 1) * full.length + cap) (h_cap : 2 ≤ cap) :
    Holds cap link rest
      (full ++ [cur.set (cap - 1) (link fresh.addr (rest + 1))] ++
        [(fresh.set 0 (cur.slot (cap - 1))).set 1 x]) (xs ++ [x]) := by
  induction full generalizing xs with
  | nil =>
      cases h with
      | link h_head _ _ _ _ => simp at h_head
      | last h_le h_slots =>
          have h_len : xs.length = cap := by simpa using h_i
          refine Holds.link (a := fresh.addr) rfl (by simp; omega) ?_ ?_ ?_
          · intro j h_j
            rw [List.getElem?_append_left (by omega), h_slots j (by omega),
              cur.set_slot_of_ne _ (by omega)]
          · rw [cur.set_slot_self]
            congr 1
            rw [List.length_append, List.length_singleton]
            omega
          · refine Holds.last (by simp; omega) ?_
            intro j h_j
            rw [List.length_drop, List.length_append, List.length_singleton] at h_j
            rw [List.getElem?_drop]
            -- two entries are behind the slots of the full page
            obtain rfl | rfl : j = 0 ∨ j = 1 := by omega
            · rw [List.getElem?_append_left (by omega), h_slots _ (by omega),
                Page.set_slot_of_ne _ _ (by omega), Page.set_slot_self]
              rfl
            · rw [List.getElem?_append_right (by omega), Page.set_slot_self,
                show cap - 1 + 1 - xs.length = 0 by omega]
              rfl
  | cons q qs ih =>
      obtain ⟨a, h_head, h_lt, h_slots, h_link, h_rest⟩ := h.of_cons (by simp)
      have h_mul : (cap - 1) * (q :: qs).length = (cap - 1) * qs.length + (cap - 1) := by
        rw [List.length_cons, Nat.mul_succ]
      refine Holds.link (a := a) ?_ ?_ ?_ (h_link.trans ?_) ?_
      · rw [← h_head]
        cases qs with
        | nil => rfl
        | cons r rs => rfl
      · rw [List.length_append]
        omega
      · intro j h_j
        rw [List.getElem?_append_left (by omega)]
        exact h_slots j h_j
      · congr 1
        rw [List.length_append, List.length_singleton]
        omega
      · rw [List.drop_append_of_le_length (by omega)]
        exact ih h_rest (by rw [List.length_drop]; omega)

/-! ## Reading -/

section Read

variable (room : A → Nat) (lookup : A → Option (Page A α)) (unlink : α → A)

/-- A reader that knows how many entries there are: as long as they do not fit into the page
at hand, the last slot of the page is a link. -/
def readList : Nat → Nat → A → Option (List α)
  | 0, _, _ => none
  | fuel + 1, n, a =>
      match lookup a with
      | none => none
      | some p =>
          if n ≤ room a then some ((List.range n).map p.slot)
          else
            match readList fuel (n - (room a - 1)) (unlink (p.slot (room a - 1))) with
            | none => none
            | some xs => some ((List.range (room a - 1)).map p.slot ++ xs)

/-- A walk over the pages that takes the address of each from the slot `last` of the one
before. -/
def walk (last : Nat) : A → List (Page A α) → List (Page A α × A)
  | _, [] => []
  | a, p :: ps => (p, a) :: walk last (unlink (p.slot last)) ps

variable {room lookup unlink}

theorem take_eq_slots {n : Nat} (h_len : n ≤ xs.length)
    (h_slots : ∀ i, i < n → xs[i]? = some (p.slot i)) :
    (List.range n).map p.slot = xs.take n := by
  apply List.ext_getElem?
  intro i
  rcases Nat.lt_or_ge i n with h_lt | h_ge
  · rw [List.getElem?_take_of_lt h_lt, h_slots i h_lt, List.getElem?_map,
      List.getElem?_range h_lt]
    rfl
  · rw [List.getElem?_eq_none (by simpa using h_ge),
      List.getElem?_eq_none (by rw [List.length_take]; omega)]

/-- Entries that fit into the page at hand. -/
theorem readList_of_le (unlink : α → A) (fuel : Nat) {n : Nat} {a : A}
    (h_page : lookup a = some p) (h_n : n ≤ room a) :
    readList room lookup unlink (fuel + 1) n a = some ((List.range n).map p.slot) := by
  simp only [readList, h_page, h_n, if_true]

theorem Holds.read {ps : List (Page A α)} {fuel : Nat} {a : A}
    (h : Holds cap link rest ps xs) (h_cap : 2 ≤ cap)
    (h_head : ps.head?.map Page.addr = some a)
    (h_lookup : ∀ q ∈ ps, lookup q.addr = some q) (h_room : ∀ q ∈ ps, room q.addr = cap)
    (h_unlink : ∀ b n, unlink (link b n) = b) (h_fuel : xs.length ≤ fuel)
    (h_pos : 0 < xs.length) :
    readList room lookup unlink fuel xs.length a = some xs := by
  induction h generalizing fuel a with
  | @last p xs h_le h_slots =>
      obtain rfl : p.addr = a := by simpa using h_head
      obtain ⟨fuel, rfl⟩ : ∃ k, fuel = k + 1 := ⟨fuel - 1, by omega⟩
      rw [readList_of_le unlink fuel (h_lookup p (by simp))
          (by rw [h_room p (by simp)]; exact h_le),
        take_eq_slots (Nat.le_refl _) h_slots, List.take_length]
  | @link p ps xs b h_next h_lt h_slots h_link h_rest ih =>
      obtain rfl : p.addr = a := by simpa using h_head
      obtain ⟨fuel, rfl⟩ : ∃ k, fuel = k + 1 := ⟨fuel - 1, by omega⟩
      have h_len : (xs.drop (cap - 1)).length = xs.length - (cap - 1) := List.length_drop
      have h_fuel' : (xs.drop (cap - 1)).length ≤ fuel := by omega
      have h_tail := ih h_next (fun q h_q => h_lookup q (by simp [h_q]))
        (fun q h_q => h_room q (by simp [h_q])) h_fuel' (by omega)
      rw [h_len] at h_tail
      have h_p : room p.addr = cap := h_room p (by simp)
      have h_front := take_eq_slots (n := cap - 1) (p := p) (by omega)
        (fun i h_i => h_slots i (by omega))
      unfold readList
      rw [h_lookup p (by simp), h_p]
      simp only [if_neg (Nat.not_le.mpr h_lt), h_link, h_unlink, h_tail, h_front,
        List.take_append_drop]

theorem Holds.walk_eq {ps : List (Page A α)} {a : A} (h : Holds cap link rest ps xs)
    (h_head : ps.head?.map Page.addr = some a) (h_unlink : ∀ b n, unlink (link b n) = b) :
    walk unlink (cap - 1) a ps = ps.map fun p => (p, p.addr) := by
  induction h generalizing a with
  | @last p xs h_le h_slots =>
      obtain rfl : p.addr = a := by simpa using h_head
      rfl
  | @link p ps xs b h_next h_lt h_slots h_link h_rest ih =>
      obtain rfl : p.addr = a := by simpa using h_head
      simp only [walk, List.map_cons, h_link, h_unlink, ih h_next]

end Read

/-! ## Where the pages come from -/

section Own

variable {alloc : Nat → Option (Page A α)} {n : Nat} {list : List (Page A α)}

/-- The pages of the list are the first `n` that `alloc` has given, in order; what they contain
may have changed. -/
def Own (alloc : Nat → Option (Page A α)) (n : Nat) (list : List (Page A α)) : Prop :=
  list.map (fun p => some p.addr) = (List.range n).map fun k => (alloc k).map Page.addr

/-- The addresses of the first `n` pages that `alloc` has given. -/
def given (alloc : Nat → Option (Page A α)) (n : Nat) : List A :=
  (List.range n).filterMap fun k => (alloc k).map Page.addr

theorem Own.length (h : Own alloc n list) : list.length = n := by
  simpa using congrArg List.length h

theorem Own.congr {list' : List (Page A α)} (h : Own alloc n list)
    (h_addr : list'.map Page.addr = list.map Page.addr) : Own alloc n list' := by
  have h_some := congrArg (List.map some) h_addr
  rw [List.map_map, List.map_map] at h_some
  exact h_some.trans h

theorem Own.append (h : Own alloc n list) (h_p : alloc n = some p) :
    Own alloc (n + 1) (list ++ [p]) := by
  unfold Own
  rw [List.map_append, List.range_succ, List.map_append, h, List.map_singleton,
    List.map_singleton, h_p]
  rfl

theorem Own.mem (h : Own alloc n list) (h_p : p ∈ list) :
    ∃ k q, alloc k = some q ∧ q.addr = p.addr := by
  have h_mem := List.mem_map_of_mem (f := fun p => some p.addr) h_p
  rw [h] at h_mem
  obtain ⟨k, -, h_k⟩ := List.mem_map.mp h_mem
  obtain ⟨q, h_q, h_addr⟩ := Option.map_eq_some_iff.mp h_k
  exact ⟨k, q, h_q, h_addr⟩

theorem Own.head (h : Own alloc n list) (h_p : alloc 0 = some p) (h_n : 0 < n) :
    list.head?.map Page.addr = some p.addr := by
  obtain ⟨n, rfl⟩ := Nat.exists_eq_succ_of_ne_zero (Nat.ne_of_gt h_n)
  unfold Own at h
  rw [List.range_succ_eq_map, List.map_cons, h_p] at h
  cases list with
  | nil => cases h
  | cons q qs => exact (List.cons.inj h).1

theorem Own.given_eq (h : Own alloc n list) : given alloc n = list.map Page.addr := by
  have h_id := congrArg (List.filterMap id) h
  rw [List.filterMap_map, List.filterMap_map] at h_id
  unfold given
  rw [← List.filterMap_eq_map]
  exact h_id.symm

/-- The pages have different addresses if `alloc` never gives one twice. -/
theorem Own.nodup (h : Own alloc n list)
    (h_alloc : ∀ j k p q, alloc j = some p → alloc k = some q → p.addr = q.addr → j = k) :
    (list.map Page.addr).Nodup := by
  have h_own : ((List.range n).map fun k => (alloc k).map Page.addr).Nodup := by
    refine List.Nodup.map_on ?_ List.nodup_range
    intro j h_j k _ h_eq
    have h_mem := List.mem_map_of_mem (f := fun k => (alloc k).map Page.addr) h_j
    rw [← h] at h_mem
    obtain ⟨a, -, h_a⟩ := List.mem_map.mp h_mem
    obtain ⟨p, h_p, h_pa⟩ := Option.map_eq_some_iff.mp h_a.symm
    obtain ⟨q, h_q, h_qa⟩ := Option.map_eq_some_iff.mp (h_eq.symm.trans h_a.symm)
    exact h_alloc j k p q h_p h_q (h_pa.trans h_qa.symm)
  rw [← h] at h_own
  apply List.Nodup.of_map some
  rwa [List.map_map]

/-- The page at an address. -/
def pageAt [BEq A] (list : List (Page A α)) (a : A) : Option (Page A α) :=
  list.find? (·.addr == a)

theorem pageAt_of_nodup [BEq A] [LawfulBEq A] (h : (list.map Page.addr).Nodup) (h_p : p ∈ list) :
    pageAt list p.addr = some p := by
  induction list with
  | nil => cases h_p
  | cons q qs ih =>
      rw [List.map_cons, List.nodup_cons] at h
      unfold pageAt
      rcases List.mem_cons.mp h_p with rfl | h_mem
      · simp
      · have h_ne : q.addr ≠ p.addr := by
          intro h_eq
          exact h.1 (h_eq ▸ List.mem_map_of_mem h_mem)
        rw [List.find?_cons_of_neg (by simpa using h_ne)]
        exact ih h.2 h_mem

end Own

end ChainedPages
