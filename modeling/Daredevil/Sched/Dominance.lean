/-
  Daredevil.Sched.Dominance

  What the outlier priority says about the bios of a T task.

  `blk_blex_decide_dominance` means to compare the rounded quotient of its candidates
  with ten.  The division binds tighter than the sum, so it compares the first
  candidate: `candidate0 + (candidate1 / 2) / candidate1` is `candidate0`.  A task is
  an outlier after ten synchronous bios, however many asynchronous ones there were,
  as long as these are fewer than ten.

    * `profileBioTrace`              — the profile, with its stores to `blex_ioprio`;
    * `profileBio_dominant_iff`      — one bio: when every outlier it makes is dominant;
    * `outlierStores_dominant_iff`   — a run, from the first bio of the task on.
-/
import Daredevil.Sched.Outlier

namespace Daredevil

namespace Sched

namespace Outlier

/-! ## Stores -/

/-- A store to `blex_ioprio`, with the counts that the value was mapped from. -/
structure Assignment where
  blexIoprio : Nat
  nrSyncReqs : Nat
  nrAsyncReqs : Nat
  deriving DecidableEq, Repr

/-- Synchronous bios exceed asynchronous ones by a magnitude. -/
def Assignment.Dominant (x : Assignment) : Prop :=
  x.nrAsyncReqs = 0 ∨ 10 ≤ (x.nrSyncReqs + x.nrAsyncReqs / 2) / x.nrAsyncReqs

instance (x : Assignment) : Decidable x.Dominant := inferInstanceAs (Decidable (_ ∨ _))

/-- `profileBio`, with its stores. -/
def profileBioTrace (env : Env) (call : ProfileCall) (prio : Nat) (reg : NqRegulator)
    (ioc : TaskIoc) : Option ((NqRegulator × TaskIoc) × List Assignment) := do
  let (profileUpdate, ioc) := blkBlexUpdateTaskIocStats env call.biOpf ioc
  let (reg, ioc) ← followCpu call.cpu reg ioc
  let pending := ioc.needUpdate
  let (reg, ioc) ← applyNeedUpdate env call prio reg ioc
  let first := if pending then [⟨ioc.blexIoprio, ioc.nrSyncReqs, ioc.nrAsyncReqs⟩] else []
  let (reg, last) ← applyProfileUpdate env call prio profileUpdate reg ioc
  -- the counts are reset right before the second store
  let second :=
    if profileUpdate then [⟨last.blexIoprio, ioc.nrSyncReqs, ioc.nrAsyncReqs⟩] else []
  some ((reg, last), first ++ second)

/-- `blk_blex_tenant_ioc_profile`, with its stores; a new context is none of them. -/
def tenantIocProfileTrace (env : Env) (call : ProfileCall) (prio : Nat) (reg : NqRegulator)
    (found : Option TaskIoc) : Option ((NqRegulator × Option TaskIoc) × List Assignment) := do
  let (reg, ioc) ← findOrInit env call prio reg found
  match ioc with
  | none => some ((reg, none), [])
  | some ioc => (profileBioTrace env call prio reg ioc).map fun r => ((r.1.1, some r.1.2), r.2)

/-- The stores of an event. -/
def stores (env : Env) (prio : Nat) (s : State) : Event → List Assignment
  | .profile call =>
      match tenantIocProfileTrace env call prio s.reg s.entry with
      | some (_, stored) => stored
      | none => []
  | _ => []

/-- The stores of a run. -/
def runStores (env : Env) (prio : Nat) : State → List Event → List Assignment
  | _, [] => []
  | s, e :: es =>
      stores env prio s e ++
        match step env prio s e with
        | some s' => runStores env prio s' es
        | none => []

/-! ## When they are dominant -/

/-- Bios of both kinds: at most ten synchronous for one to nine asynchronous, except for ten to
one.  Counts from 2^31 on are negative as `int`. -/
def Mixed (sync async : Nat) : Prop :=
  0 < sync ∧ (2147483648 ≤ async ∨
    0 < async ∧ async < 10 ∧ sync ≤ 10 ∧ ¬ (sync = 10 ∧ async = 1))

/-- A bio that does not make an outlier of a task with mixed bios. -/
structure Clear (env : Env) (biOpf : Nat) (ioc : TaskIoc) : Prop where
  /-- a pending update finds no mixed counts -/
  pending : ioc.needUpdate = true →
    ¬ Mixed (blkBlexUpdateTaskIocStats env biOpf ioc).2.nrSyncReqs
      (blkBlexUpdateTaskIocStats env biOpf ioc).2.nrAsyncReqs
  /-- it is not the tenth synchronous bio after two to nine asynchronous ones -/
  tenth : env.ioProfileOn = true → blkBlexIsSyncReq env biOpf = true → ioc.nrSyncReqs = 9 →
    ¬ (2 ≤ ioc.nrAsyncReqs ∧ (ioc.nrAsyncReqs < 10 ∨ 2147483648 ≤ ioc.nrAsyncReqs))

/-- The bio of an event is clear; the first bio of a task is. -/
def ClearStep (env : Env) (s : State) : Event → Prop
  | .profile call => ∀ ioc, s.entry = some ioc → Clear env call.biOpf ioc
  | _ => True

/-- Every bio of the run is clear. -/
def ClearRun (env : Env) (prio : Nat) : State → List Event → Prop
  | _, [] => True
  | s, e :: es =>
      ClearStep env s e ∧ ∀ s', step env prio s e = some s' → ClearRun env prio s' es

variable {env : Env} {call : ProfileCall} {prio : Nat} {reg reg' : NqRegulator}
  {ioc ioc' : TaskIoc} {stored : List Assignment}

/-! ## The stores do not change the run -/

theorem profileBioTrace_result (env : Env) (call : ProfileCall) (prio : Nat) (reg : NqRegulator)
    (ioc : TaskIoc) :
    (profileBioTrace env call prio reg ioc).map Prod.fst = profileBio env call prio reg ioc := by
  simp only [profileBioTrace, profileBio, Option.bind_eq_bind]
  cases followCpu call.cpu reg (blkBlexUpdateTaskIocStats env call.biOpf ioc).2 with
  | none => rfl
  | some followed =>
      simp only [Option.bind_some]
      cases applyNeedUpdate env call prio followed.1 followed.2 with
      | none => rfl
      | some updated =>
          simp only [Option.bind_some]
          cases applyProfileUpdate env call prio
              (blkBlexUpdateTaskIocStats env call.biOpf ioc).1 updated.1 updated.2 with
          | none => rfl
          | some last => rfl

theorem tenantIocProfileTrace_result (env : Env) (call : ProfileCall) (prio : Nat)
    (reg : NqRegulator) (found : Option TaskIoc) :
    (tenantIocProfileTrace env call prio reg found).map Prod.fst =
      blkBlexTenantIocProfile env call prio reg found := by
  simp only [tenantIocProfileTrace, blkBlexTenantIocProfile, Option.bind_eq_bind]
  cases findOrInit env call prio reg found with
  | none => rfl
  | some r =>
      obtain ⟨reg₁, ioc⟩ := r
      cases ioc with
      | none => rfl
      | some ioc =>
          simp only [Option.bind_some]
          rw [← profileBioTrace_result]
          cases profileBioTrace env call prio reg₁ ioc with
          | none => rfl
          | some r => rfl

/-! ## What is stored -/

/-- A pending update stores the mapped priority and leaves the counts. -/
theorem applyNeedUpdate_stores (h : applyNeedUpdate env call prio reg ioc = some (reg', ioc')) :
    ioc'.nrSyncReqs = ioc.nrSyncReqs ∧ ioc'.nrAsyncReqs = ioc.nrAsyncReqs ∧
      (ioc.needUpdate = true → ioc'.blexIoprio = blkBlexMapTaskIocIoprio env ioc prio) := by
  rcases applyNeedUpdate_cases h with ⟨h_idle, -, rfl⟩ | ⟨-, ioc₁, newHctx, h_sched, rfl⟩
  · refine ⟨rfl, rfl, fun h_pending => ?_⟩
    rw [h_idle] at h_pending
    cases h_pending
  · obtain ⟨cpu, rfl⟩ := taskUpdate_kept h_sched
    refine ⟨rfl, rfl, fun _ => ?_⟩
    dsimp only

/-- A new dominance stores the mapped priority and resets the counts. -/
theorem applyProfileUpdate_stores {profileUpdate : Bool}
    (h : applyProfileUpdate env call prio profileUpdate reg ioc = some (reg', ioc')) :
    if profileUpdate = true then
      ioc'.blexIoprio = blkBlexMapTaskIocIoprio env ioc prio ∧ ioc'.nrSyncReqs = 0 ∧
        ioc'.nrAsyncReqs = 0
    else ioc' = ioc := by
  rcases applyProfileUpdate_cases h with ⟨rfl, -, rfl⟩ | ⟨rfl, ioc₁, -, rfl⟩
  · rw [if_neg Bool.false_ne_true]
  · rw [if_pos rfl]
    refine ⟨?_, rfl, rfl⟩
    dsimp only

/-- The store of a bio, if it makes one. -/
def assignment (env : Env) (biOpf prio : Nat) (ioc : TaskIoc) : Assignment where
  blexIoprio := blkBlexMapTaskIocIoprio env (blkBlexUpdateTaskIocStats env biOpf ioc).2 prio
  nrSyncReqs := (blkBlexUpdateTaskIocStats env biOpf ioc).2.nrSyncReqs
  nrAsyncReqs := (blkBlexUpdateTaskIocStats env biOpf ioc).2.nrAsyncReqs

/-- A bio stores the priority once for a pending update and once for a new dominance, both times
from the counts with this bio, and a new dominance leaves no counts. -/
theorem profileBioTrace_spec
    (h : profileBioTrace env call prio reg ioc = some ((reg', ioc'), stored)) :
    stored = (if ioc.needUpdate then [assignment env call.biOpf prio ioc] else []) ++
        (if (blkBlexUpdateTaskIocStats env call.biOpf ioc).1 then
          [assignment env call.biOpf prio ioc] else []) ∧
      if (blkBlexUpdateTaskIocStats env call.biOpf ioc).1 = true then
        ioc'.nrSyncReqs = 0 ∧ ioc'.nrAsyncReqs = 0
      else
        ioc'.nrSyncReqs = (blkBlexUpdateTaskIocStats env call.biOpf ioc).2.nrSyncReqs ∧
          ioc'.nrAsyncReqs = (blkBlexUpdateTaskIocStats env call.biOpf ioc).2.nrAsyncReqs := by
  simp only [profileBioTrace, Option.bind_eq_bind, Option.bind_eq_some_iff] at h
  obtain ⟨⟨reg₁, ioc₁⟩, h_follow, ⟨reg₂, ioc₂⟩, h_need, ⟨reg₃, ioc₃⟩, h_apply, h_eq⟩ := h
  cases h_eq
  have h_kept := (updateStats_kept env call.biOpf ioc).1
  unfold assignment
  generalize blkBlexUpdateTaskIocStats env call.biOpf ioc = t at *
  obtain ⟨changed, counted⟩ := t
  obtain ⟨cpu, hctx, rfl⟩ := followCpu_moved h_follow
  obtain ⟨h_sync, h_async, h_prio⟩ := applyNeedUpdate_stores h_need
  have h_stores := applyProfileUpdate_stores h_apply
  -- the CPU and the hctx do not enter the mapped priority
  have h_map : blkBlexMapTaskIocIoprio env { counted with lastWorkingCpu := cpu, hctx := hctx } prio =
      blkBlexMapTaskIocIoprio env counted prio := mapTaskIocIoprio_congr rfl rfl prio
  rw [h_map] at h_prio
  rw [mapTaskIocIoprio_congr h_sync h_async, h_map] at h_stores
  dsimp only at h_kept h_sync h_async h_prio h_stores ⊢
  rw [h_kept] at h_prio ⊢
  rw [h_sync, h_async]
  -- the first store is made only for a pending update
  have h_first : (if ioc.needUpdate = true then [Assignment.mk ioc₂.blexIoprio counted.nrSyncReqs
      counted.nrAsyncReqs] else []) = if ioc.needUpdate = true then [Assignment.mk
        (blkBlexMapTaskIocIoprio env counted prio) counted.nrSyncReqs counted.nrAsyncReqs] else [] := by
    split
    case isTrue h_pending => rw [h_prio h_pending]
    case isFalse => rfl
  rw [h_first]
  cases changed with
  | true =>
      obtain ⟨h_last, h_reset⟩ := h_stores
      rw [h_last]
      exact ⟨rfl, h_reset⟩
  | false =>
      obtain rfl : ioc₃ = ioc₂ := h_stores
      refine ⟨?_, h_sync, h_async⟩
      rw [if_neg Bool.false_ne_true, if_neg Bool.false_ne_true]

/-! ## The counts -/

/-- The quotient that is added to the first candidate is zero. -/
theorem decideDominance_one (candidate0 candidate1 : Int) :
    blkBlexDecideDominance candidate0 candidate1 1 =
      if candidate1 ≠ 0 ∧ 10 ≤ candidate0 then 1 else 0 := by
  rw [blkBlexDecideDominance, if_neg (by decide), tdiv_two_tdiv_self, Int.add_zero]
  by_cases h_none : candidate1 = 0
  · rw [if_pos h_none, if_neg fun h => h.1 h_none]
  · by_cases h_ten : 10 ≤ candidate0
    · rw [if_neg h_none, if_pos h_ten, if_pos ⟨h_none, h_ten⟩]
    · rw [if_neg h_none, if_neg h_ten, if_neg fun h => h_ten h.2]

/-- Ten synchronous bios, and one asynchronous at least. -/
def Decided (sync async : Nat) : Prop := async ≠ 0 ∧ 10 ≤ sync ∧ sync < 2147483648

instance (sync async : Nat) : Decidable (Decided sync async) := inferInstanceAs (Decidable (_ ∧ _))

/-- The counts of a task between two bios. -/
structure Counting (ioc : TaskIoc) : Prop where
  sync_lt : ioc.nrSyncReqs < Word32.bound
  async_lt : ioc.nrAsyncReqs < Word32.bound
  /-- a new dominance has reset them -/
  undecided : ¬ Decided ioc.nrSyncReqs ioc.nrAsyncReqs

theorem syncDominance_eq (h_sync : ioc.nrSyncReqs < Word32.bound)
    (h_async : ioc.nrAsyncReqs < Word32.bound) :
    syncDominance ioc = if Decided ioc.nrSyncReqs ioc.nrAsyncReqs then 1 else 0 := by
  have h_word : Word32.bound = 4294967296 := rfl
  rw [syncDominance, decideDominance_one, Word32.signed_natCast h_sync,
    Word32.signed_natCast h_async]
  apply if_congr _ rfl rfl
  rw [Decided]
  split <;> split <;> omega

theorem asyncDominates_iff (h_sync : ioc.nrSyncReqs < Word32.bound)
    (h_async : ioc.nrAsyncReqs < Word32.bound) :
    PrioIndex.AsyncDominates ioc ↔ ioc.nrAsyncReqs ≠ 0 ∧
      (ioc.nrSyncReqs = 0 ∨ 10 ≤ ioc.nrAsyncReqs ∧ ioc.nrAsyncReqs < 2147483648) := by
  have h_word : Word32.bound = 4294967296 := rfl
  rw [PrioIndex.AsyncDominates, Word32.signed_natCast h_sync, Word32.signed_natCast h_async]
  -- each count may be negative as `int`
  split <;> split <;> omega

theorem Assignment.dominant_iff (x : Assignment) :
    x.Dominant ↔ x.nrAsyncReqs = 0 ∨ 10 * x.nrAsyncReqs ≤ x.nrSyncReqs + x.nrAsyncReqs / 2 := by
  rw [Assignment.Dominant]
  rcases Nat.eq_zero_or_pos x.nrAsyncReqs with h_zero | h_pos
  · exact iff_of_true (.inl h_zero) (.inl h_zero)
  · rw [Nat.le_div_iff_mul_le h_pos]

/-- The counts after a bio. -/
theorem Counting.counted (h : Counting ioc) (env : Env) (biOpf : Nat) :
    (blkBlexUpdateTaskIocStats env biOpf ioc).2.nrSyncReqs < Word32.bound ∧
      (blkBlexUpdateTaskIocStats env biOpf ioc).2.nrAsyncReqs < Word32.bound ∧
      ((blkBlexUpdateTaskIocStats env biOpf ioc).1 = true ↔
        Decided (blkBlexUpdateTaskIocStats env biOpf ioc).2.nrSyncReqs
          (blkBlexUpdateTaskIocStats env biOpf ioc).2.nrAsyncReqs) := by
  -- the result changes exactly if the counts come to be decided, as they were not before
  have h_before : syncDominance ioc = 0 := by
    rw [syncDominance_eq h.sync_lt h.async_lt, if_neg h.undecided]
  unfold blkBlexUpdateTaskIocStats
  split
  case isFalse => exact ⟨h.sync_lt, h.async_lt, iff_of_false Bool.false_ne_true h.undecided⟩
  case isTrue =>
    have h_sync : (countBio env biOpf ioc).nrSyncReqs < Word32.bound := by
      unfold countBio
      split
      · exact Word32.wrap_lt _
      · exact h.sync_lt
    have h_async : (countBio env biOpf ioc).nrAsyncReqs < Word32.bound := by
      unfold countBio
      split
      · exact h.async_lt
      · exact Word32.wrap_lt _
    refine ⟨h_sync, h_async, ?_⟩
    rw [h_before, syncDominance_eq h_sync h_async, bne_iff_ne]
    split
    case isTrue h_decided => exact iff_of_true (by decide) h_decided
    case isFalse h_not => exact iff_of_false (by decide) h_not

theorem countBio_cases (env : Env) (biOpf : Nat) (ioc : TaskIoc) :
    (blkBlexIsSyncReq env biOpf = true ∧
        (countBio env biOpf ioc).nrSyncReqs = (ioc.nrSyncReqs + 1) % 4294967296 ∧
        (countBio env biOpf ioc).nrAsyncReqs = ioc.nrAsyncReqs) ∨
      (blkBlexIsSyncReq env biOpf = false ∧
        (countBio env biOpf ioc).nrSyncReqs = ioc.nrSyncReqs ∧
        (countBio env biOpf ioc).nrAsyncReqs = (ioc.nrAsyncReqs + 1) % 4294967296) := by
  unfold countBio
  split
  case isTrue h_sync => exact .inl ⟨h_sync, rfl, rfl⟩
  case isFalse h_async => exact .inr ⟨Bool.eq_false_of_not_eq_true h_async, rfl, rfl⟩

/-- Undecided counts are those of few synchronous bios, or of no asynchronous ones, and a bio adds
one. -/
theorem Counting.near (h : Counting ioc) (env : Env) (biOpf : Nat) :
    (blkBlexUpdateTaskIocStats env biOpf ioc).2.nrAsyncReqs ≤ 1 ∨
      (blkBlexUpdateTaskIocStats env biOpf ioc).2.nrSyncReqs ≤ 10 ∨
      2147483648 ≤ (blkBlexUpdateTaskIocStats env biOpf ioc).2.nrSyncReqs := by
  have h_undecided := h.undecided
  rw [Decided] at h_undecided
  have h_lt : ioc.nrSyncReqs < 4294967296 := h.sync_lt
  -- one of the counts grows by one, or wraps
  have h_cases := countBio_cases env biOpf ioc
  unfold blkBlexUpdateTaskIocStats
  split
  case isTrue =>
    dsimp only
    omega
  case isFalse =>
    dsimp only
    omega

/-- The priority that is mapped from the counts after a bio is dominant unless these are mixed. -/
theorem Counting.assignment_iff (h : Counting ioc)
    (h_class : env.ioprioPrioClass prio ≠ env.ioprioClassRt) (biOpf : Nat) :
    ((assignment env biOpf prio ioc).blexIoprio = blkBlexOutlierPrio →
      (assignment env biOpf prio ioc).Dominant) ↔
      ¬ Mixed (blkBlexUpdateTaskIocStats env biOpf ioc).2.nrSyncReqs
        (blkBlexUpdateTaskIocStats env biOpf ioc).2.nrAsyncReqs := by
  obtain ⟨h_sync, h_async, -⟩ := h.counted env biOpf
  have h_near := h.near env biOpf
  have h_word : Word32.bound = 4294967296 := rfl
  rw [Assignment.dominant_iff]
  simp only [assignment, mapTaskIocIoprio_outlier_iff, asyncDominates_iff h_sync h_async, Mixed]
  rw [and_iff_right h_class]
  omega

/-- A new dominance with mixed counts comes with the tenth synchronous bio. -/
theorem Counting.tenth_iff (h : Counting ioc) (env : Env) (biOpf : Nat) :
    ((blkBlexUpdateTaskIocStats env biOpf ioc).1 = true →
      ¬ Mixed (blkBlexUpdateTaskIocStats env biOpf ioc).2.nrSyncReqs
        (blkBlexUpdateTaskIocStats env biOpf ioc).2.nrAsyncReqs) ↔
      (env.ioProfileOn = true → blkBlexIsSyncReq env biOpf = true → ioc.nrSyncReqs = 9 →
        ¬ (2 ≤ ioc.nrAsyncReqs ∧ (ioc.nrAsyncReqs < 10 ∨ 2147483648 ≤ ioc.nrAsyncReqs))) := by
  rw [(h.counted env biOpf).2.2]
  have h_undecided := h.undecided
  rw [Decided] at h_undecided ⊢
  have h_lt : ioc.nrSyncReqs < 4294967296 := h.sync_lt
  have h_cases := countBio_cases env biOpf ioc
  unfold blkBlexUpdateTaskIocStats Mixed
  split
  case isFalse h_off =>
    exact iff_of_true (fun h_decided => absurd h_decided h_undecided) fun h_on => absurd h_on h_off
  case isTrue h_on =>
    dsimp only
    rcases h_cases with ⟨h_sync, h_cases⟩ | ⟨h_async, h_cases⟩
    · -- nine synchronous bios before this one, or the counts were decided already
      simp only [h_on, h_sync, forall_const]
      omega
    · -- the first asynchronous bio after ten synchronous ones
      simp only [h_on, h_async, Bool.false_eq_true, false_imp_iff, implies_true, iff_true]
      omega

/-- One bio: the outliers that it makes are dominant exactly if it is clear. -/
theorem profileBio_dominant_iff (h : Counting ioc)
    (h_class : env.ioprioPrioClass prio ≠ env.ioprioClassRt)
    (h_bio : profileBioTrace env call prio reg ioc = some ((reg', ioc'), stored)) :
    (∀ x ∈ stored, x.blexIoprio = blkBlexOutlierPrio → x.Dominant) ↔
      Clear env call.biOpf ioc := by
  have h_assignment := h.assignment_iff h_class call.biOpf
  have h_tenth := h.tenth_iff env call.biOpf
  rw [(profileBioTrace_spec h_bio).1, List.forall_mem_append]
  -- the first store answers to `pending`, and the second to `tenth`
  constructor
  · rintro ⟨h_first, h_second⟩
    refine ⟨fun h_pending => ?_, h_tenth.mp fun h_changed => ?_⟩
    · rw [if_pos h_pending, List.forall_mem_singleton] at h_first
      exact h_assignment.mp h_first
    · rw [if_pos h_changed, List.forall_mem_singleton] at h_second
      exact h_assignment.mp h_second
  · intro h_clear
    constructor
    · split
      case isTrue h_pending =>
        exact List.forall_mem_singleton.mpr (h_assignment.mpr (h_clear.pending h_pending))
      case isFalse => exact List.forall_mem_nil _
    · split
      case isTrue h_changed =>
        exact List.forall_mem_singleton.mpr
          (h_assignment.mpr (h_tenth.mpr h_clear.tenth h_changed))
      case isFalse => exact List.forall_mem_nil _

theorem profileBio_counting (h : Counting ioc)
    (h_bio : profileBioTrace env call prio reg ioc = some ((reg', ioc'), stored)) :
    Counting ioc' := by
  obtain ⟨h_sync, h_async, h_changed⟩ := h.counted env call.biOpf
  have h_counts := (profileBioTrace_spec h_bio).2
  split at h_counts
  case isTrue =>
    -- a new dominance starts again from zero
    obtain ⟨h_s, h_a⟩ := h_counts
    refine ⟨?_, ?_, ?_⟩
    · rw [h_s]
      decide
    · rw [h_a]
      decide
    · rw [h_a]
      exact fun h_decided => h_decided.1 rfl
  case isFalse h_same =>
    obtain ⟨h_s, h_a⟩ := h_counts
    rw [h_changed] at h_same
    exact ⟨h_s ▸ h_sync, h_a ▸ h_async, by rwa [h_s, h_a]⟩

/-! ## One event -/

theorem Counting.moved (h : Counting ioc) (h_moved : Moved ioc ioc') : Counting ioc' := by
  obtain ⟨cpu, hctx, rfl⟩ := h_moved
  exact ⟨h.sync_lt, h.async_lt, h.undecided⟩

theorem newTaskIoc_counting : Counting (newTaskIoc env prio) where
  sync_lt := (by decide : 0 < Word32.bound)
  async_lt := (by decide : 0 < Word32.bound)
  undecided h_decided := h_decided.1 rfl

theorem clear_moved (h_moved : Moved ioc ioc') (biOpf : Nat) :
    Clear env biOpf ioc' ↔ Clear env biOpf ioc := by
  obtain ⟨-, _, _, h_eq⟩ := updateStats_moved h_moved env biOpf
  obtain ⟨cpu, hctx, rfl⟩ := h_moved
  constructor
  · rintro ⟨h_pending, h_tenth⟩
    rw [h_eq] at h_pending
    exact ⟨h_pending, h_tenth⟩
  · rintro ⟨h_pending, h_tenth⟩
    refine ⟨?_, h_tenth⟩
    rw [h_eq]
    exact h_pending

/-- Nothing is pending for a new context, and its first bio is not the tenth. -/
theorem newTaskIoc_clear (biOpf : Nat) : Clear env biOpf (newTaskIoc env prio) where
  pending h_pending := by cases h_pending
  tenth _ _ h_nine := by cases h_nine

/-- Every context has counts as they are between two bios. -/
def Inv (s : State) : Prop := ∀ ioc, s.entry = some ioc → Counting ioc

/-- The context that the profile works on: that of the task, which is moved at most, or a new
one. -/
theorem findOrInit_clear_iff {entry : Option TaskIoc} (h : ∀ old, entry = some old → Counting old)
    (h_find : findOrInit env call prio reg entry = some (reg', some ioc)) :
    Counting ioc ∧ (Clear env call.biOpf ioc ↔
      ∀ old, entry = some old → Clear env call.biOpf old) := by
  cases entry with
  | none =>
      have h_moved := findOrInit_none_moved h_find ioc rfl
      refine ⟨newTaskIoc_counting.moved h_moved, iff_of_true ?_ ?_⟩
      · exact (clear_moved h_moved _).mpr (newTaskIoc_clear _)
      · intro old h_none
        cases h_none
  | some old =>
      have h_moved : Moved old ioc := by
        rcases findOrInit_some_moved h_find ioc rfl with rfl | h_moved
        · exact ⟨_, _, rfl⟩
        · exact h_moved
      refine ⟨(h old rfl).moved h_moved, ?_⟩
      rw [clear_moved h_moved]
      exact ⟨fun h_clear _ h_some => Option.some.inj h_some ▸ h_clear, fun h_all => h_all old rfl⟩

/-- A task keeps its context. -/
theorem findOrInit_some_ne {old : TaskIoc} {found : Option TaskIoc}
    (h_find : findOrInit env call prio reg (some old) = some (reg', found)) : found ≠ none := by
  rcases findOrInit_some_cases h_find with ⟨-, -, rfl⟩ | ⟨-, ioc₁, hctx, -, rfl⟩
  · exact Option.some_ne_none _
  · exact Option.some_ne_none _

/-- One event keeps the counts in order, and its outliers are dominant exactly if it is clear. -/
theorem step_spec {s s' : State} {e : Event} (h : Inv s)
    (h_class : env.ioprioPrioClass prio ≠ env.ioprioClassRt)
    (h_step : step env prio s e = some s') :
    Inv s' ∧ ((∀ x ∈ stores env prio s e, x.blexIoprio = blkBlexOutlierPrio → x.Dominant) ↔
      ClearStep env s e) := by
  cases e with
  | needUpdate =>
      cases h_step
      refine ⟨?_, iff_of_true (List.forall_mem_nil _) trivial⟩
      intro ioc h_ioc
      obtain ⟨old, h_old, rfl⟩ := Option.map_eq_some_iff.mp h_ioc
      exact ⟨(h old h_old).sync_lt, (h old h_old).async_lt, (h old h_old).undecided⟩
  | others reg =>
      cases h_step
      exact ⟨h, iff_of_true (List.forall_mem_nil _) trivial⟩
  | profile call =>
      simp only [step, Option.bind_eq_bind, ← tenantIocProfileTrace_result,
        Option.bind_eq_some_iff, Option.map_eq_some_iff] at h_step
      obtain ⟨-, ⟨⟨⟨reg', entry⟩, stored⟩, h_trace, rfl⟩, h_eq⟩ := h_step
      cases h_eq
      simp only [stores, h_trace, ClearStep]
      simp only [tenantIocProfileTrace, Option.bind_eq_bind, Option.bind_eq_some_iff] at h_trace
      obtain ⟨⟨reg₁, found⟩, h_find, h_trace⟩ := h_trace
      cases found with
      | none =>
          -- no context could be created
          cases h_trace
          have h_entry : s.entry = none := by
            cases h_old : s.entry with
            | none => rfl
            | some old =>
                rw [h_old] at h_find
                exact absurd rfl (findOrInit_some_ne h_find)
          refine ⟨?_, iff_of_true (List.forall_mem_nil _) ?_⟩
          · intro ioc h_none
            cases h_none
          · intro ioc h_some
            rw [h_entry] at h_some
            cases h_some
      | some ioc =>
          obtain ⟨h_counting, h_clear⟩ := findOrInit_clear_iff h h_find
          obtain ⟨⟨⟨reg₂, ioc₂⟩, stored₂⟩, h_bio, h_eq⟩ := Option.map_eq_some_iff.mp h_trace
          cases h_eq
          refine ⟨?_, (profileBio_dominant_iff h_counting h_class h_bio).trans h_clear⟩
          rintro ioc' ⟨⟩
          exact profileBio_counting h_counting h_bio

/-! ## Runs -/

theorem run_stores_iff {s s' : State} {es : List Event} (h : Inv s)
    (h_class : env.ioprioPrioClass prio ≠ env.ioprioClassRt)
    (h_run : Lts.run (step env prio) s es = some s') :
    (∀ x ∈ runStores env prio s es, x.blexIoprio = blkBlexOutlierPrio → x.Dominant) ↔
      ClearRun env prio s es := by
  induction es generalizing s with
  | nil => exact iff_of_true (List.forall_mem_nil _) trivial
  | cons e es ih =>
      rw [Lts.run_cons, Option.bind_eq_some_iff] at h_run
      obtain ⟨t, h_step, h_rest⟩ := h_run
      obtain ⟨h_inv, h_first⟩ := step_spec h h_class h_step
      have h_later := ih h_inv h_rest
      simp only [runStores, ClearRun, h_step, List.forall_mem_append, h_first, h_later,
        Option.some.injEq, forall_eq']

/-- In a run of a T task from its first bio on, every outlier priority that is stored is that of
dominating synchronous bios exactly if every bio of the run is clear. -/
theorem outlierStores_dominant_iff {s₀ s : State} {es : List Event} (h_init : Init s₀)
    (h_class : env.ioprioPrioClass prio ≠ env.ioprioClassRt)
    (h_run : Lts.run (step env prio) s₀ es = some s) :
    (∀ x ∈ runStores env prio s₀ es, x.blexIoprio = blkBlexOutlierPrio → x.Dominant) ↔
      ClearRun env prio s₀ es := by
  apply run_stores_iff _ h_class h_run
  intro ioc h_some
  rw [h_init] at h_some
  cases h_some

/-- One asynchronous bio and ten synchronous ones. -/
theorem outlierStores_dominant_iff_turning :
    (∀ x ∈ runStores (.default 4) 0 ⟨fourNqsReg, none⟩ turningBios,
      x.blexIoprio = blkBlexOutlierPrio → x.Dominant) ↔
      ClearRun (.default 4) 0 ⟨fourNqsReg, none⟩ turningBios := by
  have h_some : (Lts.run (step (.default 4) 0) ⟨fourNqsReg, none⟩ turningBios).isSome := by
    decide +kernel
  obtain ⟨s, h_run⟩ := Option.isSome_iff_exists.mp h_some
  exact outlierStores_dominant_iff rfl (by decide) h_run

/-- Two asynchronous bios and ten synchronous ones. -/
def mixedBios : List Event := .profile (bioOn 0 0) :: turningBios

/-- The task becomes an outlier with ten synchronous and two asynchronous bios. -/
theorem outlierStores_notDominant :
    (∃ s, Lts.run (step (.default 4) 0) ⟨fourNqsReg, none⟩ mixedBios = some s) ∧
      (Env.default 4).ioprioPrioClass 0 ≠ (Env.default 4).ioprioClassRt ∧
      ∃ x ∈ runStores (.default 4) 0 ⟨fourNqsReg, none⟩ mixedBios,
        x = ⟨blkBlexOutlierPrio, 10, 2⟩ ∧ ¬ x.Dominant := by
  have h_some : (Lts.run (step (.default 4) 0) ⟨fourNqsReg, none⟩ mixedBios).isSome := by
    decide +kernel
  have h_stores : runStores (.default 4) 0 ⟨fourNqsReg, none⟩ mixedBios =
      [⟨blkBlexOutlierPrio, 10, 2⟩] := by decide +kernel
  refine ⟨Option.isSome_iff_exists.mp h_some, by decide, ⟨blkBlexOutlierPrio, 10, 2⟩, ?_, rfl,
    by decide⟩
  rw [h_stores]
  exact List.mem_singleton_self _

end Outlier

end Sched

end Daredevil
