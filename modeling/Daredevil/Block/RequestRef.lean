/-
  Daredevil.Block.RequestRef

  Who may use a request (`block/blk-mq.c`, `block/blk-mq-tag.c`).  A request belongs to its tag
  and is used again when the tag is.  The submitter holds a reference from
  `blk_mq_rq_ctx_init` to `blk_mq_free_request`.  Those that go through the busy tags, such as
  the timeout work, may come upon the request at any time: they take a reference unless there
  is none left (`blk_mq_find_and_get_req`), and drop it again (`blk_mq_put_rq_ref`).  Whoever
  drops the last one gives the tag back.

  The steps of the submitters of all tags and of any number of walkers come in any order.  This
  is a queue without a scheduler, whose requests keep their tag; requests of the flush machinery
  have references of their own.

    * `Inv`             — where the references of a tag are;
    * `Inv.step`        — every step keeps it;
    * `held_allocation` — a walker holds the request as it found it, until it lets go; a tag is
                          given back once for each time it was taken, and nobody holds a
                          request whose tag can be taken.
-/
import Daredevil.Lib.Lts
import Mathlib.Data.List.Count
import Mathlib.Logic.Function.Basic

namespace Daredevil.RequestRef

/-! ## State -/

/-- `enum mq_rq_state` -/
inductive RqState where
  | idle
  | inFlight
  | complete
  deriving DecidableEq, Repr

/-- Where the submitter of a request stands. -/
inductive Owner where
  /-- there is none: the tag is free, or the reference has been dropped -/
  | gone
  /-- the tag is taken, the request not initialised -/
  | tagged
  | live
  /-- in `blk_mq_free_request`, in front of `req_ref_put_and_test` -/
  | freeing
  deriving DecidableEq, Repr

/-- A tag, and the request that belongs to it. -/
structure Slot where
  /-- the bit of the tag -/
  busy : Bool
  /-- `tags->rqs[tag]` is set -/
  mapped : Bool
  ref : Nat
  state : RqState
  /-- `RQF_TIMED_OUT` -/
  timedOut : Bool
  owner : Owner
  /-- the last reference has been dropped, and the tag not been put -/
  releasing : Bool
  /-- how often the request has been initialised, and its tag put -/
  inits : Nat
  puts : Nat
  deriving DecidableEq, Repr

/-- A reference of a walker: the tag, and which of its requests it was. -/
structure Hold where
  tag : Nat
  init : Nat
  /-- `blk_mq_req_expired` was true -/
  expired : Bool
  deriving DecidableEq, Repr

structure State where
  slot : Nat → Slot
  holds : List Hold
  /-- the calls of `blk_mq_rq_timed_out`: whose request it was that had expired, and whose it
  was then -/
  timeouts : List (Nat × Nat)

inductive Event where
  /-- the bit is set -/
  | getTag (t : Nat)
  /-- `blk_mq_rq_ctx_init` -/
  | init (t : Nat)
  /-- `hctx->tags->rqs[rq->tag] = rq` -/
  | mapRq (t : Nat)
  /-- `blk_mq_start_request` -/
  | start (t : Nat)
  /-- `blk_mq_complete_request` -/
  | complete (t : Nat)
  /-- `WRITE_ONCE(rq->state, MQ_RQ_IDLE)` in `blk_mq_free_request` -/
  | free (t : Nat)
  /-- `req_ref_put_and_test` there -/
  | put (t : Nat)
  /-- `blk_mq_put_tag` in `__blk_mq_free_request` -/
  | putTag (t : Nat)
  /-- `blk_mq_find_and_get_req` -/
  | find (t : Nat)
  /-- `blk_mq_req_expired`, for a deadline that has passed -/
  | check (h : Hold)
  /-- `blk_mq_rq_timed_out` -/
  | timeout (h : Hold)
  /-- `blk_add_timer` -/
  | resetTimer (h : Hold)
  /-- `blk_mq_put_rq_ref` -/
  | letGo (h : Hold)
  deriving DecidableEq, Repr

/-! ## Steps -/

def State.setSlot (s : State) (t : Nat) (x : Slot) : State :=
  { s with slot := Function.update s.slot t x }

/-- `req_ref_put_and_test` -/
def Slot.refPut (x : Slot) : Slot :=
  { x with ref := x.ref - 1, releasing := x.ref == 1 }

def step (s : State) : Event → Option State
  | .getTag t =>
      if (s.slot t).busy then none
      else some (s.setSlot t { s.slot t with busy := true, owner := .tagged })
  | .init t =>
      if (s.slot t).owner = .tagged then
        some (s.setSlot t { s.slot t with
          ref := 1, timedOut := false, owner := .live, inits := (s.slot t).inits + 1 })
      else none
  | .mapRq t =>
      if (s.slot t).owner = .live then some (s.setSlot t { s.slot t with mapped := true })
      else none
  | .start t =>
      if (s.slot t).owner = .live ∧ (s.slot t).mapped then
        some (s.setSlot t { s.slot t with state := .inFlight, timedOut := false })
      else none
  | .complete t =>
      if (s.slot t).owner = .live then some (s.setSlot t { s.slot t with state := .complete })
      else none
  | .free t =>
      if (s.slot t).owner = .live then
        some (s.setSlot t { s.slot t with state := .idle, owner := .freeing })
      else none
  | .put t =>
      if (s.slot t).owner = .freeing then
        some (s.setSlot t { (s.slot t).refPut with owner := .gone })
      else none
  | .putTag t =>
      if (s.slot t).releasing then
        some (s.setSlot t { s.slot t with
          busy := false, releasing := false, puts := (s.slot t).puts + 1 })
      else none
  | .find t =>
      if (s.slot t).mapped ∧ (s.slot t).ref ≠ 0 then
        some { s.setSlot t { s.slot t with ref := (s.slot t).ref + 1 } with
          holds := ⟨t, (s.slot t).inits, false⟩ :: s.holds }
      else none
  | .check h =>
      if h ∈ s.holds ∧ (s.slot h.tag).state = .inFlight ∧ !(s.slot h.tag).timedOut then
        some { s with holds := { h with expired := true } :: s.holds.erase h }
      else none
  | .timeout h =>
      if h ∈ s.holds ∧ h.expired then
        some { s.setSlot h.tag { s.slot h.tag with timedOut := true } with
          holds := { h with expired := false } :: s.holds.erase h
          timeouts := (h.init, (s.slot h.tag).inits) :: s.timeouts }
      else none
  | .resetTimer h =>
      if h ∈ s.holds then some (s.setSlot h.tag { s.slot h.tag with timedOut := false })
      else none
  | .letGo h =>
      if h ∈ s.holds then
        some { s.setSlot h.tag (s.slot h.tag).refPut with holds := s.holds.erase h }
      else none

/-- No tag is taken. -/
structure Init (s : State) : Prop where
  slot : ∀ t, (s.slot t).busy = false ∧ (s.slot t).ref = 0 ∧ (s.slot t).owner = .gone ∧
    (s.slot t).releasing = false ∧ (s.slot t).inits = (s.slot t).puts
  holds : s.holds = []
  timeouts : s.timeouts = []

/-! ## The references of a tag -/

/-- How many walkers hold the request of `t`. -/
def walkers (holds : List Hold) (t : Nat) : Nat := holds.countP fun h => h.tag = t

/-- The reference of the submitter. -/
def Owner.refs : Owner → Nat
  | .gone => 0
  | .tagged => 0
  | .live => 1
  | .freeing => 1

/-- A tag of which `n` references are with walkers. -/
structure Slot.Ok (x : Slot) (n : Nat) : Prop where
  ref : x.ref = x.owner.refs + n
  /-- a tag is taken as long as somebody is to put it -/
  busy : x.busy = true ↔ x.owner ≠ .gone ∨ 0 < n ∨ x.releasing = true
  releasing : x.releasing = true → x.ref = 0 ∧ x.owner = .gone
  tagged : x.owner = .tagged → n = 0
  /-- every request that was initialised has had its tag put, but the one that is there -/
  puts : x.inits = x.puts + if x.busy = true ∧ x.owner ≠ .tagged then 1 else 0

structure Inv (s : State) : Prop where
  slot : ∀ t, (s.slot t).Ok (walkers s.holds t)
  /-- a request is not initialised anew while a walker holds it -/
  holds : ∀ h ∈ s.holds, h.init = (s.slot h.tag).inits
  timeouts : ∀ p ∈ s.timeouts, p.1 = p.2

variable {s s' : State} {t : Nat} {x : Slot} {n : Nat}

theorem walkers_cons (h : Hold) (holds : List Hold) (t : Nat) :
    walkers (h :: holds) t = walkers holds t + if h.tag = t then 1 else 0 := by
  simp [walkers, List.countP_cons]

theorem walkers_erase {h : Hold} {holds : List Hold} (h_mem : h ∈ holds) (t : Nat) :
    walkers (holds.erase h) t = walkers holds t - if h.tag = t then 1 else 0 := by
  simp only [walkers, List.countP_erase, h_mem, true_and, decide_eq_true_eq]

theorem walkers_pos {h : Hold} {holds : List Hold} (h_mem : h ∈ holds) :
    0 < walkers holds h.tag :=
  List.countP_pos_iff.mpr ⟨h, h_mem, by simp⟩

/-- A walker that goes on with its reference. -/
theorem walkers_swap {h : Hold} {holds : List Hold} (h_mem : h ∈ holds) (b : Bool) (t : Nat) :
    walkers ({ h with expired := b } :: holds.erase h) t = walkers holds t := by
  rw [walkers_cons, walkers_erase h_mem]
  by_cases h_t : h.tag = t
  · have h_pos := walkers_pos h_mem
    rw [h_t] at h_pos
    simp only [h_t, if_true]
    omega
  · simp only [if_neg h_t]
    omega

/-! ## What a step does to a tag -/

namespace Slot.Ok

theorem getTag (h : x.Ok n) (h_free : x.busy = false) :
    { x with busy := true, owner := .tagged }.Ok n := by
  have h_not := mt h.busy.mpr (by simp [h_free])
  obtain ⟨h_gone, h_n, h_rel⟩ : x.owner = .gone ∧ n = 0 ∧ x.releasing = false := by
    simpa using h_not
  have h_ref := h.ref
  have h_puts := h.puts
  refine ⟨?_, ?_, ?_, (fun _ => h_n), ?_⟩
  · simpa [Owner.refs, h_gone] using h_ref
  · simp
  · simp [h_rel]
  · simpa [h_free] using h_puts

/-- The count is set, and nobody else has had a part in it. -/
theorem init (h : x.Ok n) (h_tagged : x.owner = .tagged) :
    { x with ref := 1, timedOut := false, owner := .live, inits := x.inits + 1 }.Ok n := by
  have h_n := h.tagged h_tagged
  have h_busy : x.busy = true := h.busy.mpr (Or.inl (by simp [h_tagged]))
  have h_rel : x.releasing = false := by
    by_contra h_ne
    have h_gone := (h.releasing (by simpa using h_ne)).2
    rw [h_tagged] at h_gone
    cases h_gone
  have h_puts := h.puts
  refine ⟨?_, ?_, ?_, ?_, ?_⟩
  · simp [Owner.refs, h_n]
  · simp [h_busy]
  · simp [h_rel]
  · simp
  · simpa [h_busy, h_tagged] using h_puts

/-- A step that leaves the references and the tag as they are. -/
theorem congr {y : Slot} (h : x.Ok n) (h_ref : y.ref = x.ref) (h_busy : y.busy = x.busy)
    (h_rel : y.releasing = x.releasing) (h_inits : y.inits = x.inits) (h_puts : y.puts = x.puts)
    (h_refs : y.owner.refs = x.owner.refs) (h_gone : y.owner = .gone ↔ x.owner = .gone)
    (h_tagged : y.owner = .tagged ↔ x.owner = .tagged) : y.Ok n where
  ref := by rw [h_ref, h_refs, h.ref]
  busy := by rw [h_busy, h.busy, h_rel, Ne, Ne, h_gone]
  releasing := by
    rw [h_rel, h_ref, h_gone]
    exact h.releasing
  tagged := fun h_t => h.tagged (h_tagged.mp h_t)
  puts := by
    rw [h_inits, h_puts, h_busy, h.puts]
    simp only [Ne, h_tagged]

/-- The reference of the submitter is dropped. -/
theorem put (h : x.Ok n) (h_freeing : x.owner = .freeing) :
    { x.refPut with owner := .gone }.Ok n := by
  have h_busy : x.busy = true := h.busy.mpr (Or.inl (by simp [h_freeing]))
  have h_ref := h.ref
  have h_puts := h.puts
  simp only [h_freeing, Owner.refs] at h_ref
  refine ⟨?_, ?_, ?_, (fun h_t => by cases h_t), ?_⟩
  · simp only [Slot.refPut, Owner.refs]
    omega
  · simp only [Slot.refPut, h_busy, beq_iff_eq, h_ref]
    simp
    omega
  · simp only [Slot.refPut, beq_iff_eq, and_true]
    omega
  · simpa [Slot.refPut, h_busy, h_freeing] using h_puts

theorem putTag (h : x.Ok n) (h_rel : x.releasing = true) :
    { x with busy := false, releasing := false, puts := x.puts + 1 }.Ok n := by
  obtain ⟨h_zero, h_gone⟩ := h.releasing h_rel
  have h_busy : x.busy = true := h.busy.mpr (Or.inr (Or.inr h_rel))
  have h_ref := h.ref
  have h_puts := h.puts
  simp only [h_gone, Owner.refs] at h_ref
  refine ⟨?_, ?_, ?_, ?_, ?_⟩
  · simp only [h_gone, Owner.refs]
    omega
  · simp [h_gone]
    omega
  · simp
  · simp [h_gone]
  · simpa [h_busy, h_gone] using h_puts

/-- A walker takes a reference, which is not the first one. -/
theorem find (h : x.Ok n) (h_ref : x.ref ≠ 0) : { x with ref := x.ref + 1 }.Ok (n + 1) := by
  have h_count := h.ref
  have h_rel : x.releasing = false := by
    by_contra h_ne
    exact h_ref (h.releasing (by simpa using h_ne)).1
  have h_owner : x.owner ≠ .gone ∨ 0 < n := by
    by_contra h_none
    obtain ⟨h_gone, h_zero⟩ := not_or.mp h_none
    rw [not_not.mp h_gone] at h_count
    simp only [Owner.refs] at h_count
    omega
  have h_busy : x.busy = true := h.busy.mpr (h_owner.imp_right Or.inl)
  refine ⟨?_, ?_, ?_, ?_, h.puts⟩
  · show x.ref + 1 = x.owner.refs + (n + 1)
    omega
  · simp [h_busy]
  · simp [h_rel]
  · intro h_tagged
    rw [h.tagged h_tagged] at h_count
    rw [show x.owner = .tagged from h_tagged] at h_count
    exact absurd h_count h_ref

/-- A walker drops its reference. -/
theorem letGo (h : x.Ok (n + 1)) : x.refPut.Ok n := by
  have h_busy : x.busy = true := h.busy.mpr (Or.inr (Or.inl (Nat.succ_pos n)))
  have h_ref := h.ref
  have h_tagged : x.owner ≠ .tagged := fun h_t => absurd (h.tagged h_t) (Nat.succ_ne_zero n)
  have h_puts := h.puts
  refine ⟨?_, ?_, ?_, (fun h_t => absurd h_t h_tagged), ?_⟩
  · simp only [Slot.refPut]
    omega
  · simp only [Slot.refPut, h_busy, beq_iff_eq, true_iff]
    by_cases h_gone : x.owner = .gone
    · rw [h_gone] at h_ref
      simp only [Owner.refs] at h_ref
      omega
    · exact Or.inl h_gone
  · simp only [Slot.refPut, beq_iff_eq]
    intro h_one
    refine ⟨by omega, ?_⟩
    cases h_owner : x.owner with
    | gone => rfl
    | tagged => exact absurd h_owner h_tagged
    | live =>
        rw [h_owner] at h_ref
        simp only [Owner.refs] at h_ref
        omega
    | freeing =>
        rw [h_owner] at h_ref
        simp only [Owner.refs] at h_ref
        omega
  · show x.inits = x.puts + if x.busy = true ∧ x.owner ≠ .tagged then 1 else 0
    exact h_puts

end Slot.Ok

/-! ## The invariant -/

theorem Init.inv (h : Init s) : Inv s where
  slot := by
    intro t
    obtain ⟨h_busy, h_ref, h_gone, h_rel, h_inits⟩ := h.slot t
    have h_none : walkers s.holds t = 0 := by simp [walkers, h.holds]
    rw [h_none]
    refine ⟨?_, ?_, ?_, fun _ => rfl, ?_⟩
    · simp [h_ref, h_gone, Owner.refs]
    · simp [h_busy, h_gone, h_rel]
    · simp [h_rel]
    · simpa [h_busy] using h_inits
  holds := by simp [h.holds]
  timeouts := by simp [h.timeouts]

namespace Inv

/-- A step is about one tag: the request behind it, and the walkers that hold that. -/
theorem update {holds : List Hold} {timeouts : List (Nat × Nat)} (h : Inv s)
    (h_others : ∀ u ≠ t, walkers holds u = walkers s.holds u) (h_x : x.Ok (walkers holds t))
    (h_holds : ∀ h ∈ holds, h.init = (Function.update s.slot t x h.tag).inits)
    (h_timeouts : ∀ p ∈ timeouts, p.1 = p.2) :
    Inv ⟨Function.update s.slot t x, holds, timeouts⟩ where
  slot := by
    intro u
    by_cases h_u : u = t
    · simp only [h_u, Function.update_self]
      exact h_x
    · simp only [Function.update_of_ne h_u, h_others u h_u]
      exact h.slot u
  holds := h_holds
  timeouts := h_timeouts

/-- As long as the request is not initialised, it is the one the walkers found. -/
theorem holds_update (h : Inv s) (h_inits : x.inits = (s.slot t).inits) :
    ∀ h ∈ s.holds, h.init = (Function.update s.slot t x h.tag).inits := by
  intro g h_g
  have h_eq := h.holds g h_g
  by_cases h_t : g.tag = t
  · rw [h_t, Function.update_self, h_inits, ← h_t]
    exact h_eq
  · rw [Function.update_of_ne h_t]
    exact h_eq

/-- A step of the submitter that is not the initialisation. -/
theorem setSlot (h : Inv s) (h_x : x.Ok (walkers s.holds t))
    (h_inits : x.inits = (s.slot t).inits) : Inv (s.setSlot t x) :=
  h.update (fun _ _ => rfl) h_x (h.holds_update h_inits) h.timeouts

theorem init (h : Inv s) (h_tagged : (s.slot t).owner = .tagged) :
    Inv (s.setSlot t { s.slot t with
      ref := 1, timedOut := false, owner := .live, inits := (s.slot t).inits + 1 }) := by
  refine h.update (fun _ _ => rfl) ((h.slot t).init h_tagged) ?_ h.timeouts
  intro g h_g
  -- a request that is initialised is in nobody's hands
  have h_ne : g.tag ≠ t := by
    rintro rfl
    exact absurd ((h.slot g.tag).tagged h_tagged) (Nat.ne_of_gt (walkers_pos h_g))
  rw [Function.update_of_ne h_ne]
  exact h.holds g h_g

theorem find (h : Inv s) (h_ref : (s.slot t).ref ≠ 0) :
    Inv { s.setSlot t { s.slot t with ref := (s.slot t).ref + 1 } with
      holds := ⟨t, (s.slot t).inits, false⟩ :: s.holds } := by
  refine h.update ?_ ?_ ?_ h.timeouts
  · intro u h_u
    rw [walkers_cons, if_neg (fun h_t => h_u h_t.symm), Nat.add_zero]
  · rw [walkers_cons, if_pos rfl]
    exact (h.slot t).find h_ref
  · intro g h_g
    cases List.mem_cons.mp h_g with
    | inl h_eq => rw [h_eq, Function.update_self]
    | inr h_old =>
        exact h.holds_update (x := { s.slot t with ref := (s.slot t).ref + 1 }) rfl g h_old

/-- What a walker does between taking its reference and dropping it. -/
theorem swap {g : Hold} {timeouts : List (Nat × Nat)} (h : Inv s) (h_g : g ∈ s.holds) (b : Bool)
    (h_x : x.Ok (walkers s.holds g.tag)) (h_inits : x.inits = (s.slot g.tag).inits)
    (h_timeouts : ∀ p ∈ timeouts, p.1 = p.2) :
    Inv ⟨Function.update s.slot g.tag x, { g with expired := b } :: s.holds.erase g,
      timeouts⟩ := by
  refine h.update (fun u _ => walkers_swap h_g b u) ?_ ?_ h_timeouts
  · rw [walkers_swap h_g]
    exact h_x
  · intro k h_k
    cases List.mem_cons.mp h_k with
    | inl h_eq =>
        have h_init := h.holds_update h_inits g h_g
        rw [h_eq]
        exact h_init
    | inr h_old => exact h.holds_update h_inits k (List.mem_of_mem_erase h_old)

theorem letGo {g : Hold} (h : Inv s) (h_g : g ∈ s.holds) :
    Inv { s.setSlot g.tag (s.slot g.tag).refPut with holds := s.holds.erase g } := by
  refine h.update ?_ ?_ ?_ h.timeouts
  · intro u h_u
    rw [walkers_erase h_g, if_neg (fun h_t => h_u h_t.symm), Nat.sub_zero]
  · have h_pos := walkers_pos h_g
    have h_one : walkers (s.holds.erase g) g.tag + 1 = walkers s.holds g.tag := by
      rw [walkers_erase h_g, if_pos rfl]
      omega
    refine Slot.Ok.letGo ?_
    rw [h_one]
    exact h.slot g.tag
  · intro k h_k
    exact h.holds_update (x := (s.slot g.tag).refPut) rfl k (List.mem_of_mem_erase h_k)

/-- Every step keeps the references as they have to be. -/
theorem step {e : Event} (h : Inv s) (h_step : RequestRef.step s e = some s') : Inv s' := by
  cases e with
  | getTag t =>
      simp only [RequestRef.step] at h_step
      split at h_step
      · cases h_step
      · rename_i h_free
        cases h_step
        exact h.setSlot ((h.slot t).getTag (by simpa using h_free)) rfl
  | init t =>
      simp only [RequestRef.step] at h_step
      split at h_step
      · rename_i h_tagged
        cases h_step
        exact h.init h_tagged
      · cases h_step
  | mapRq t =>
      simp only [RequestRef.step] at h_step
      split at h_step
      · cases h_step
        exact h.setSlot ((h.slot t).congr rfl rfl rfl rfl rfl rfl Iff.rfl Iff.rfl) rfl
      · cases h_step
  | start t =>
      simp only [RequestRef.step] at h_step
      split at h_step
      · cases h_step
        exact h.setSlot ((h.slot t).congr rfl rfl rfl rfl rfl rfl Iff.rfl Iff.rfl) rfl
      · cases h_step
  | complete t =>
      simp only [RequestRef.step] at h_step
      split at h_step
      · cases h_step
        exact h.setSlot ((h.slot t).congr rfl rfl rfl rfl rfl rfl Iff.rfl Iff.rfl) rfl
      · cases h_step
  | free t =>
      simp only [RequestRef.step] at h_step
      split at h_step
      · rename_i h_live
        cases h_step
        refine h.setSlot ((h.slot t).congr rfl rfl rfl rfl rfl ?_ ?_ ?_) rfl
        · rw [h_live]
          rfl
        · simp [h_live]
        · simp [h_live]
      · cases h_step
  | put t =>
      simp only [RequestRef.step] at h_step
      split at h_step
      · rename_i h_freeing
        cases h_step
        exact h.setSlot ((h.slot t).put h_freeing) rfl
      · cases h_step
  | putTag t =>
      simp only [RequestRef.step] at h_step
      split at h_step
      · rename_i h_rel
        cases h_step
        exact h.setSlot ((h.slot t).putTag h_rel) rfl
      · cases h_step
  | find t =>
      simp only [RequestRef.step] at h_step
      split at h_step
      · rename_i h_found
        cases h_step
        exact h.find h_found.2
      · cases h_step
  | check g =>
      simp only [RequestRef.step] at h_step
      split at h_step
      · rename_i h_expired
        cases h_step
        have h_same := h.swap h_expired.1 true (h.slot g.tag) rfl h.timeouts
        rwa [Function.update_eq_self] at h_same
      · cases h_step
  | timeout g =>
      simp only [RequestRef.step] at h_step
      split at h_step
      · rename_i h_expired
        cases h_step
        refine h.swap h_expired.1 false
          ((h.slot g.tag).congr rfl rfl rfl rfl rfl rfl Iff.rfl Iff.rfl) rfl ?_
        intro p h_p
        cases List.mem_cons.mp h_p with
        | inl h_eq =>
            rw [h_eq]
            exact h.holds g h_expired.1
        | inr h_old => exact h.timeouts p h_old
      · cases h_step
  | resetTimer g =>
      simp only [RequestRef.step] at h_step
      split at h_step
      · cases h_step
        exact h.setSlot ((h.slot g.tag).congr rfl rfl rfl rfl rfl rfl Iff.rfl Iff.rfl) rfl
      · cases h_step
  | letGo g =>
      simp only [RequestRef.step] at h_step
      split at h_step
      · rename_i h_g
        cases h_step
        exact h.letGo h_g
      · cases h_step

end Inv

/-! ## Runs -/

/-- In every interleaving of submitters and walkers: what a walker holds is the request it found,
with its tag taken; the timeout handler gets the request that had expired; and a tag is taken
exactly as long as somebody is to give it back, which is done once for each request. -/
theorem held_allocation (h : Lts.Reach step Lts.anyStep Init s) :
    (∀ g ∈ s.holds, g.init = (s.slot g.tag).inits ∧ (s.slot g.tag).busy = true ∧
      (s.slot g.tag).owner ≠ .tagged) ∧
    (∀ p ∈ s.timeouts, p.1 = p.2) ∧
    ∀ t, ((s.slot t).busy = true ↔ (s.slot t).owner ≠ .gone ∨ (∃ g ∈ s.holds, g.tag = t) ∨
        (s.slot t).releasing = true) ∧
      ((s.slot t).ref = 0 ↔ (s.slot t).owner.refs = 0 ∧ ∀ g ∈ s.holds, g.tag ≠ t) ∧
      (s.slot t).inits = (s.slot t).puts +
        if (s.slot t).busy = true ∧ (s.slot t).owner ≠ .tagged then 1 else 0 := by
  have h_inv : Inv s := h.invariant (fun _ hi => hi.inv) fun _ _ _ hi _ h_step => hi.step h_step
  have h_walkers : ∀ t, 0 < walkers s.holds t ↔ ∃ g ∈ s.holds, g.tag = t := by
    intro t
    simp [walkers, List.countP_pos_iff]
  refine ⟨?_, h_inv.timeouts, ?_⟩
  · intro g h_g
    have h_pos := walkers_pos h_g
    have h_ok := h_inv.slot g.tag
    refine ⟨h_inv.holds g h_g, h_ok.busy.mpr (Or.inr (Or.inl h_pos)), ?_⟩
    intro h_tagged
    exact absurd (h_ok.tagged h_tagged) (Nat.ne_of_gt h_pos)
  · intro t
    have h_ok := h_inv.slot t
    refine ⟨?_, ?_, h_ok.puts⟩
    · rw [← h_walkers t]
      exact h_ok.busy
    · have h_none : walkers s.holds t = 0 ↔ ∀ g ∈ s.holds, g.tag ≠ t := by
        rw [← not_iff_not, ← Ne, ← Nat.pos_iff_ne_zero, h_walkers t]
        simp
      rw [h_ok.ref, Nat.add_eq_zero_iff, h_none]

/-- No tag is taken. -/
def allFree : State := ⟨fun _ => ⟨false, false, 0, .idle, false, .gone, false, 0, 0⟩, [], []⟩

/-- A request expires, and is completed and freed under the hands of the timeout work, which
then drops the last reference. -/
def lateTimeout : List Event :=
  [.getTag 3, .init 3, .mapRq 3, .start 3, .find 3, .check ⟨3, 1, false⟩, .complete 3, .free 3,
    .put 3, .timeout ⟨3, 1, true⟩, .letGo ⟨3, 1, false⟩, .putTag 3, .getTag 3, .init 3]

def timedOut : State := (Lts.run step allFree lateTimeout).getD allFree

theorem held_allocation_lateTimeout :
    (Lts.run step allFree lateTimeout).isSome = true ∧ timedOut.timeouts = [(1, 1)] ∧
      (timedOut.slot 3).inits = (timedOut.slot 3).puts + 1 := by
  have h_some : (Lts.run step allFree lateTimeout).isSome = true := by decide +kernel
  have h_run : Lts.run step allFree lateTimeout = some timedOut := by
    obtain ⟨s', h_eq⟩ := Option.isSome_iff_exists.mp h_some
    rw [timedOut, h_eq, Option.getD_some]
  have h_init : Init allFree := ⟨fun _ => ⟨rfl, rfl, rfl, rfl, rfl⟩, rfl, rfl⟩
  have h_slot := (held_allocation ((Lts.Reach.init h_init).run (fun _ _ _ => trivial) h_run)).2.2 3
  refine ⟨h_some, by decide +kernel, ?_⟩
  rw [h_slot.2.2, if_pos (by decide +kernel)]

end Daredevil.RequestRef
