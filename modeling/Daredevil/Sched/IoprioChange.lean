/-
  Daredevil.Sched.IoprioChange

  The handshake between `set_task_ioprio` and `blk_blex_tenant_ioc_profile`: a change
  of the ioprio is stored in the io_context, and the contexts in its `blk_blex_iocs` are
  then marked with `need_update`; the next profile of a context clears the mark, reads
  the ioprio and gives the context its new priority.  Every access is a step of its own.

  A context that is added to `blk_blex_iocs` after the walk of a call, with the ioprio
  from before it, keeps the old priority: `change_seen` says when that cannot happen.
-/
import Daredevil.Lib.Lts
import Daredevil.Lib.SparseArray
import Daredevil.Sched.Profile

namespace Daredevil

namespace Sched.IoprioChange

/-! ## State -/

/-- Where a `set_task_ioprio` is. -/
inductive SetCall where
  | idle
  /-- it has found no io_context, and allocates one -/
  | alloc (ioprio : Nat)
  /-- in the walk, looking for an entry at or after queue id `qId` -/
  | walk (qId : Nat)
  /-- in the walk, which has come to the entry of `qId` -/
  | flag (qId : Nat)
  deriving DecidableEq, Repr

/-- Where `blk_blex_tenant_ioc_profile` is; `update` is `profile_update`. -/
inductive Profile where
  | idle
  /-- there is no context yet -/
  | init (qId : Nat) (call : ProfileCall)
  /-- the new context, with the ioprio `prio`, is about to be stored -/
  | insert (qId : Nat) (call : ProfileCall) (prio : Nat) (hctx : Option Nat)
  | count (qId : Nat) (call : ProfileCall)
  | test (qId : Nat) (update : Bool)
  | clear (qId : Nat) (update : Bool)
  | read (qId : Nat) (update : Bool)
  | write (qId : Nat) (update : Bool) (newIoprio : Nat)
  | updateRead (qId : Nat)
  | updateWrite (qId newIoprio : Nat)

structure State where
  /-- `task->io_context->ioprio`; `none` without an io_context -/
  ioprio : Option Nat
  blkBlexIocs : SparseArray TaskIoc
  sets : Nat → SetCall
  profile : Profile

inductive Event where
  /-- `set_task_ioprio` up to the end of its first critical section -/
  | set (call ioprio : Nat)
  /-- `ok`: an io_context can be allocated -/
  | setStep (call : Nat) (ok : Bool)
  /-- the task enters `blk_blex_tenant_ioc_profile`; `hctx` is what the scheduler gives -/
  | profile (qId : Nat) (call : ProfileCall) (hctx : Option Nat)
  | profileStep (hctx : Option Nat)

/-! ## The source functions -/

def State.setCall (s : State) (call : Nat) (c : SetCall) : State :=
  { s with sets := Function.update s.sets call c }

/-- `ioprio` is an `int`, the field an `unsigned short`. -/
def storedIoprio (ioprio : Nat) : Nat := ioprio % 2 ^ 16

/-- The first critical section of `set_task_ioprio`. -/
def setTaskIoprio (s : State) (call ioprio : Nat) : State :=
  match s.ioprio with
  | none => s.setCall call (.alloc ioprio)
  | some old =>
      { s.setCall call (if old ≠ ioprio then .walk 0 else .idle) with
        ioprio := some (storedIoprio ioprio) }

/-- The second one, of a call that has allocated an io_context.  It never walks. -/
def setAllocated (s : State) (call ioprio : Nat) : State :=
  match s.ioprio with
  | none =>
      { s.setCall call .idle with ioprio := some (storedIoprio ioprio), blkBlexIocs := .empty }
  | some _ => { s.setCall call .idle with ioprio := some (storedIoprio ioprio) }

def setStep (s : State) (call : Nat) (ok : Bool) : Option State :=
  match s.sets call with
  | .idle => none
  | .alloc ioprio => some (if ok then setAllocated s call ioprio else s.setCall call .idle)
  | .walk qId =>
      match s.blkBlexIocs.findFrom qId with
      | none => some (s.setCall call .idle)
      | some next => some (s.setCall call (.flag next))
  | .flag qId =>
      some { s.setCall call (.walk (qId + 1)) with
        blkBlexIocs := s.blkBlexIocs.modify qId fun ioc => { ioc with needUpdate := true } }

/-- `blk_blex_tenant_ioc_profile` up to the lookup -/
def profileLookup (s : State) (qId : Nat) (call : ProfileCall) (hctx : Option Nat) : State :=
  match s.blkBlexIocs.load qId with
  | none => { s with profile := .init qId call }
  | some _ =>
      { s with
        blkBlexIocs := s.blkBlexIocs.modify qId fun ioc =>
          if ioc.hctx = none then { ioc with hctx := hctx, lastWorkingCpu := call.cpu } else ioc
        profile := .count qId call }

/-- The test of `profile_update`. -/
def testUpdate (qId : Nat) (update : Bool) : Profile :=
  if update then .updateRead qId else .idle

/-- What is counted of a bio, and the CPU. -/
def countOn (env : Env) (call : ProfileCall) (ioc : TaskIoc) : TaskIoc :=
  { (blkBlexUpdateTaskIocStats env call.biOpf ioc).2 with lastWorkingCpu := call.cpu }

/-- The writes of the branch for `profile_update`; `outlier` is what the scheduler gives. -/
def writeUpdate (newIoprio : Nat) (outlier : Option Nat) (ioc : TaskIoc) : TaskIoc :=
  { ioc with
    nrSyncReqs := 0
    nrAsyncReqs := 0
    blexIoprio := newIoprio
    outlierHctx :=
      if newIoprio = blkBlexOutlierPrio then
        if ioc.outlierHctx = none then outlier else ioc.outlierHctx
      else if ioc.blexIoprio = blkBlexOutlierPrio then none
      else ioc.outlierHctx }

/-- `blk_blex_tenant_ioc_profile` after the lookup -/
def profileStep (env : Env) (s : State) (hctx : Option Nat) : Option State :=
  match s.profile with
  | .idle => none
  | .init qId call =>
      s.ioprio.map fun prio =>
        -- `blk_blex_alloc_and_init_task_ioc` can fail
        if call.iocAlloc ∧ hctx.isSome then { s with profile := .insert qId call prio hctx }
        else { s with profile := .idle }
  | .insert qId call prio hctx =>
      if call.xaInsert ∧ s.blkBlexIocs.load qId = none then
        some { s with
          blkBlexIocs := s.blkBlexIocs.insert qId { newTaskIoc env prio with hctx := hctx }
          profile := .count qId call }
      else some { s with profile := .idle }
  | .count qId call =>
      (s.blkBlexIocs.load qId).map fun ioc =>
        { s with
          blkBlexIocs := s.blkBlexIocs.modify qId (countOn env call)
          profile := .test qId (blkBlexUpdateTaskIocStats env call.biOpf ioc).1 }
  | .test qId update =>
      (s.blkBlexIocs.load qId).map fun ioc =>
        { s with profile := if ioc.needUpdate then .clear qId update else testUpdate qId update }
  | .clear qId update =>
      some { s with
        blkBlexIocs := s.blkBlexIocs.modify qId fun ioc => { ioc with needUpdate := false }
        profile := .read qId update }
  | .read qId update => do
      let prio ← s.ioprio
      let ioc ← s.blkBlexIocs.load qId
      some { s with profile := .write qId update (blkBlexMapTaskIocIoprio env ioc prio) }
  | .write qId update newIoprio =>
      -- the number of the new hctx is printed
      hctx.map fun hctx =>
        { s with
          blkBlexIocs := s.blkBlexIocs.modify qId fun ioc =>
            { ioc with blexIoprio := newIoprio, hctx := some hctx }
          profile := testUpdate qId update }
  | .updateRead qId => do
      let prio ← s.ioprio
      let ioc ← s.blkBlexIocs.load qId
      some { s with profile := .updateWrite qId (blkBlexMapTaskIocIoprio env ioc prio) }
  | .updateWrite qId newIoprio =>
      some { s with
        blkBlexIocs := s.blkBlexIocs.modify qId (writeUpdate newIoprio hctx)
        profile := .idle }

def step (env : Env) (s : State) : Event → Option State
  | .set call ioprio => if s.sets call = .idle then some (setTaskIoprio s call ioprio) else none
  | .setStep call ok => setStep s call ok
  | .profile qId call hctx =>
      match s.profile with
      -- the submission of a bio has made an io_context
      | .idle => if s.ioprio.isSome then some (profileLookup s qId call hctx) else none
      | _ => none
  | .profileStep hctx => profileStep env s hctx

/-- A task without an io_context. -/
def Init (s : State) : Prop :=
  s.ioprio = none ∧ (∀ call, s.sets call = .idle) ∧ s.profile = .idle

/-! ## What the task sees of a change -/

/-- L for the class RT, else T or the outlier priority. -/
def MapsTo (env : Env) (blexIoprio prio : Nat) : Prop :=
  if env.ioprioPrioClass prio = env.ioprioClassRt then blexIoprio = blkBlexLPrio
  else blexIoprio = blkBlexTPrio ∨ blexIoprio = blkBlexOutlierPrio

/-- The queue id that a call's walk comes to next, or looks for from. -/
def SetCall.next : SetCall → Option Nat
  | .walk qId | .flag qId => some qId
  | .idle | .alloc _ => none

/-- A walk has yet to come to the queue id. -/
def WalkAhead (s : State) (qId : Nat) : Prop :=
  ∃ call next, (s.sets call).next = some next ∧ next ≤ qId

/-- The profile in progress has yet to read the ioprio for a new priority of the context. -/
def Rereads : Profile → Nat → Prop
  | .clear q _, qId | .read q _, qId | .updateRead q, qId => q = qId
  | .test q update, qId | .write q update _, qId => q = qId ∧ update = true
  | _, _ => False

/-- A change of the ioprio before this point will be seen. -/
def WillSee (s : State) (qId : Nat) (ioc : TaskIoc) : Prop :=
  ioc.needUpdate = true ∨ WalkAhead s qId ∨ Rereads s.profile qId

/-- No context is stored with an ioprio that has changed behind the walk, and no call that has
allocated an io_context changes the ioprio of another one with contexts that will not see it. -/
def Seen (env : Env) (s : State) : Event → Prop
  | .profileStep _ => ∀ qId call prio hctx ioprio, s.profile = .insert qId call prio hctx →
      call.xaInsert = true → s.ioprio = some ioprio →
      blkBlexIoprioSimpleMap env prio = blkBlexIoprioSimpleMap env ioprio ∨ WalkAhead s qId
  | .setStep call ok => ∀ new ioprio, s.sets call = .alloc new → ok = true →
      s.ioprio = some ioprio →
      blkBlexIoprioSimpleMap env (storedIoprio new) = blkBlexIoprioSimpleMap env ioprio ∨
        ∀ qId ioc, s.blkBlexIocs.load qId = some ioc → WillSee s qId ioc
  | _ => True

/-! ## The invariant -/

/-- The priority of the context, or the one it is about to be given. -/
def priorityOf (p : Profile) (qId : Nat) (ioc : TaskIoc) : Nat :=
  match p with
  | .write q _ newIoprio | .updateWrite q newIoprio => if q = qId then newIoprio else ioc.blexIoprio
  | _ => ioc.blexIoprio

def Covered (env : Env) (s : State) (ioprio qId : Nat) (ioc : TaskIoc) : Prop :=
  WillSee s qId ioc ∨ MapsTo env (priorityOf s.profile qId ioc) ioprio

def Inv (env : Env) (s : State) : Prop :=
  ∀ ioprio, s.ioprio = some ioprio → ioprio < 2 ^ 16 ∧
    ∀ qId ioc, s.blkBlexIocs.load qId = some ioc → Covered env s ioprio qId ioc

variable {env : Env} {s s' : State} {prio prio' blexIoprio qId call : Nat} {ioc : TaskIoc}

theorem mapsTo_simpleMap (env : Env) (prio : Nat) :
    MapsTo env (blkBlexIoprioSimpleMap env prio) prio := by
  unfold MapsTo blkBlexIoprioSimpleMap
  split
  · rfl
  · exact .inl rfl

theorem mapsTo_mapTaskIocIoprio (env : Env) (ioc : TaskIoc) (prio : Nat) :
    MapsTo env (blkBlexMapTaskIocIoprio env ioc prio) prio := by
  have h_simple := mapsTo_simpleMap env prio
  unfold blkBlexMapTaskIocIoprio
  dsimp only
  split
  case isTrue h_outlier =>
    unfold MapsTo at h_simple ⊢
    split
    case isTrue h_rt =>
      rw [if_pos h_rt, h_outlier.2] at h_simple
      cases h_simple
    case isFalse => exact .inr rfl
  case isFalse => exact h_simple

/-- Only the class of the ioprio counts. -/
theorem MapsTo.congr (h : MapsTo env blexIoprio prio)
    (h_same : blkBlexIoprioSimpleMap env prio = blkBlexIoprioSimpleMap env prio') :
    MapsTo env blexIoprio prio' := by
  unfold MapsTo blkBlexIoprioSimpleMap at *
  split at h <;> split
  · exact h
  case isTrue.isFalse h_rt h_rt' =>
    rw [if_pos h_rt, if_neg h_rt'] at h_same
    cases h_same
  case isFalse.isTrue h_rt h_rt' =>
    rw [if_neg h_rt, if_pos h_rt'] at h_same
    cases h_same
  · exact h

/-! ### Steps of the calls -/

theorem setCall_next {c : SetCall} {other : Nat} (h_ne : other ≠ call) :
    (s.setCall call c).sets other = s.sets other := Function.update_of_ne h_ne _ _

/-- A step of a call whose walk has not passed the queue id. -/
theorem WalkAhead.setCall (h : WalkAhead s qId) {c : SetCall}
    (h_call : ∀ next, (s.sets call).next = some next → next ≤ qId →
      ∃ next', c.next = some next' ∧ next' ≤ qId) : WalkAhead (s.setCall call c) qId := by
  obtain ⟨other, next, h_next, h_le⟩ := h
  by_cases h_eq : other = call
  · subst h_eq
    obtain ⟨next', h_next', h_le'⟩ := h_call next h_next h_le
    have h_self : (s.setCall other c).sets other = c := Function.update_self ..
    refine ⟨other, next', ?_, h_le'⟩
    rwa [h_self]
  · refine ⟨other, next, ?_, h_le⟩
    rwa [setCall_next h_eq]

theorem WillSee.setCall (h : WillSee s qId ioc) {c : SetCall}
    (h_call : ∀ next, (s.sets call).next = some next → next ≤ qId →
      ∃ next', c.next = some next' ∧ next' ≤ qId) : WillSee (s.setCall call c) qId ioc := by
  rcases h with h_flag | h_walk | h_rereads
  · exact .inl h_flag
  · exact .inr (.inl (h_walk.setCall h_call))
  · exact .inr (.inr h_rereads)

theorem Covered.setCall (h : Covered env s prio qId ioc) {c : SetCall}
    (h_call : ∀ next, (s.sets call).next = some next → next ≤ qId →
      ∃ next', c.next = some next' ∧ next' ≤ qId) :
    Covered env (s.setCall call c) prio qId ioc := by
  rcases h with h_see | h_maps
  · exact .inl (h_see.setCall h_call)
  · exact .inr h_maps

/-- A call that does not walk takes no walk away. -/
theorem noWalk {c : SetCall} (h_next : (s.sets call).next = none) (next : Nat)
    (h : (s.sets call).next = some next) :
    next ≤ qId → ∃ next', c.next = some next' ∧ next' ≤ qId := by
  rw [h_next] at h
  cases h

theorem storedIoprio_lt (ioprio : Nat) : storedIoprio ioprio < 2 ^ 16 :=
  Nat.mod_lt ioprio (by decide)

theorem Inv.setTaskIoprio (h : Inv env s) (h_idle : s.sets call = .idle) (ioprio : Nat) :
    Inv env (IoprioChange.setTaskIoprio s call ioprio) := by
  unfold IoprioChange.setTaskIoprio
  cases h_old : s.ioprio with
  | none =>
      intro prio h_prio
      cases h_old.symm.trans h_prio
  | some old =>
      obtain ⟨h_lt, h_covered⟩ := h old h_old
      intro prio h_prio
      cases h_prio
      refine ⟨storedIoprio_lt ioprio, fun qId ioc h_load => ?_⟩
      by_cases h_eq : old = ioprio
      · -- nothing has changed
        have h_same : storedIoprio ioprio = old := by
          rw [← h_eq]
          exact Nat.mod_eq_of_lt h_lt
        rw [h_same]
        exact (h_covered qId ioc h_load).setCall (noWalk (by rw [h_idle]; rfl))
      · refine .inl (.inr (.inl ⟨call, 0, ?_, Nat.zero_le qId⟩))
        dsimp only [State.setCall]
        rw [Function.update_self, if_pos h_eq]
        rfl

theorem Inv.setAllocated (h : Inv env s) {new : Nat} (h_call : s.sets call = .alloc new)
    (h_seen : ∀ ioprio, s.ioprio = some ioprio →
      blkBlexIoprioSimpleMap env (storedIoprio new) = blkBlexIoprioSimpleMap env ioprio ∨
        ∀ qId ioc, s.blkBlexIocs.load qId = some ioc → WillSee s qId ioc) :
    Inv env (IoprioChange.setAllocated s call new) := by
  unfold IoprioChange.setAllocated
  cases h_old : s.ioprio with
  | none =>
      intro prio h_prio
      cases h_prio
      refine ⟨storedIoprio_lt new, fun qId ioc h_load => ?_⟩
      cases h_load
  | some old =>
      intro prio h_prio
      cases h_prio
      refine ⟨storedIoprio_lt new, fun qId ioc h_load => ?_⟩
      have h_next : (s.sets call).next = none := by
        rw [h_call]
        rfl
      rcases h_seen old h_old with h_same | h_see
      · rcases (h old h_old).2 qId ioc h_load with h_see | h_maps
        · exact .inl (h_see.setCall (noWalk h_next))
        · exact .inr (h_maps.congr h_same.symm)
      · exact .inl ((h_see qId ioc h_load).setCall (noWalk h_next))

/-- The walk looks for an entry, and passes over none. -/
theorem Inv.walk (h : Inv env s) {c : SetCall}
    (h_call : ∀ next, (s.sets call).next = some next → ∀ qId ioc,
      s.blkBlexIocs.load qId = some ioc → next ≤ qId → ∃ next', c.next = some next' ∧ next' ≤ qId) :
    Inv env (s.setCall call c) := by
  intro prio h_prio
  obtain ⟨h_lt, h_covered⟩ := h prio h_prio
  refine ⟨h_lt, fun qId ioc h_load => ?_⟩
  exact (h_covered qId ioc h_load).setCall fun next h_next h_le =>
    h_call next h_next qId ioc h_load h_le

/-- The walk marks the entry that it has come to. -/
theorem Inv.flag (h : Inv env s) {n : Nat} (h_call : s.sets call = .flag n) :
    Inv env { s.setCall call (.walk (n + 1)) with
      blkBlexIocs := s.blkBlexIocs.modify n fun ioc => { ioc with needUpdate := true } } := by
  intro prio h_prio
  obtain ⟨h_lt, h_covered⟩ := h prio h_prio
  refine ⟨h_lt, fun qId ioc h_load => ?_⟩
  by_cases h_eq : qId = n
  · rw [h_eq] at h_load
    rw [SparseArray.load_modify_self, Option.map_eq_some_iff] at h_load
    obtain ⟨old, -, rfl⟩ := h_load
    exact .inl (.inl rfl)
  · rw [SparseArray.load_modify_of_ne h_eq] at h_load
    refine (h_covered qId ioc h_load).setCall fun next h_next h_le => ⟨n + 1, rfl, ?_⟩
    rw [h_call] at h_next
    cases h_next
    omega

theorem Inv.setStep (h : Inv env s) {ok : Bool} (h_seen : Seen env s (.setStep call ok))
    (h_step : IoprioChange.setStep s call ok = some s') : Inv env s' := by
  unfold IoprioChange.setStep at h_step
  split at h_step
  case h_1 => cases h_step
  case h_2 new h_call =>
    cases h_step
    split
    case isTrue h_ok => exact h.setAllocated h_call fun ioprio => h_seen new ioprio h_call h_ok
    case isFalse =>
      apply h.walk
      intro next h_next
      rw [h_call] at h_next
      cases h_next
  case h_3 first h_call =>
    split at h_step
    case h_1 h_find =>
      cases h_step
      apply h.walk
      intro next h_next qId ioc h_load h_le
      rw [h_call] at h_next
      cases h_next
      rw [SparseArray.findFrom_none h_find h_le] at h_load
      cases h_load
    case h_2 found h_find =>
      cases h_step
      apply h.walk
      intro next h_next qId ioc h_load h_le
      rw [h_call] at h_next
      cases h_next
      refine ⟨found, rfl, ?_⟩
      by_contra h_lt
      rw [(SparseArray.findFrom_some h_find).2.2 qId h_le (by omega)] at h_load
      cases h_load
  case h_4 n h_call =>
    cases h_step
    exact h.flag h_call

/-! ### Steps of the profile -/

/-- The profile is of this queue id, if it is in progress. -/
def Profile.At (p : Profile) (qId : Nat) : Prop :=
  match p with
  | .idle => True
  | .init q _ | .insert q _ _ _ | .count q _ | .test q _ | .clear q _ | .read q _ | .write q _ _
  | .updateRead q | .updateWrite q _ => q = qId

/-- It does not matter to the other contexts. -/
theorem Profile.At.other {p : Profile} (h : p.At qId) {q : Nat} (h_ne : q ≠ qId) (ioc : TaskIoc) :
    ¬ Rereads p q ∧ priorityOf p q ioc = ioc.blexIoprio := by
  cases p <;> simp only [Profile.At] at h <;> simp [Rereads, priorityOf, h, h_ne.symm]

theorem testUpdate_at (qId : Nat) (update : Bool) : (testUpdate qId update).At qId := by
  cases update
  · trivial
  · rfl

/-- Steps of the profile that only concern the context of the queue id. -/
theorem Inv.move (h : Inv env s) {iocs : SparseArray TaskIoc} {next : Profile}
    (h_at : s.profile.At qId) (h_next : next.At qId)
    (h_other : ∀ q, q ≠ qId → iocs.load q = s.blkBlexIocs.load q)
    (h_covered : ∀ prio ioc, s.ioprio = some prio → iocs.load qId = some ioc →
      Covered env { s with blkBlexIocs := iocs, profile := next } prio qId ioc) :
    Inv env { s with blkBlexIocs := iocs, profile := next } := by
  intro prio h_prio
  obtain ⟨h_lt, h_old⟩ := h prio h_prio
  refine ⟨h_lt, fun q ioc h_load => ?_⟩
  by_cases h_eq : q = qId
  · rw [h_eq] at h_load ⊢
    exact h_covered prio ioc h_prio h_load
  · obtain ⟨h_rereads, h_priority⟩ := h_at.other h_eq ioc
    obtain ⟨h_rereads', h_priority'⟩ := h_next.other h_eq ioc
    have h_load : s.blkBlexIocs.load q = some ioc := (h_other q h_eq).symm.trans h_load
    rcases h_old q ioc h_load with (h_flag | h_walk | h_now) | h_maps
    · exact .inl (.inl h_flag)
    · exact .inl (.inr (.inl h_walk))
    · exact absurd h_now h_rereads
    · refine .inr ?_
      rw [h_priority] at h_maps
      rwa [h_priority']

/-- What covered a context before a step of its profile covers it afterwards. -/
theorem Covered.move (h : Covered env s prio qId ioc) {iocs : SparseArray TaskIoc}
    {next : Profile} {ioc' : TaskIoc}
    (h_flag : ioc.needUpdate = true → ioc'.needUpdate = true)
    (h_rereads : Rereads s.profile qId → Rereads next qId)
    (h_priority : priorityOf next qId ioc' = priorityOf s.profile qId ioc) :
    Covered env { s with blkBlexIocs := iocs, profile := next } prio qId ioc' := by
  rcases h with (h_need | h_walk | h_now) | h_maps
  · exact .inl (.inl (h_flag h_need))
  · exact .inl (.inr (.inl h_walk))
  · exact .inl (.inr (.inr (h_rereads h_now)))
  · refine .inr ?_
    rwa [h_priority]

/-- A step that leaves the contexts as they are, with the priorities they have. -/
theorem Inv.goTo (h : Inv env s) {next : Profile} (h_at : s.profile.At qId) (h_next : next.At qId)
    (h_rereads : Rereads s.profile qId → Rereads next qId)
    (h_priority : ∀ ioc, priorityOf next qId ioc = priorityOf s.profile qId ioc) :
    Inv env { s with profile := next } := by
  apply h.move h_at h_next (fun _ _ => rfl)
  intro prio ioc h_prio h_load
  exact ((h prio h_prio).2 qId ioc h_load).move id h_rereads (h_priority ioc)

/-- A step that changes the context. -/
theorem Inv.modify (h : Inv env s) {next : Profile} {f : TaskIoc → TaskIoc}
    (h_at : s.profile.At qId) (h_next : next.At qId)
    (h_covered : ∀ prio ioc, Covered env s prio qId ioc →
      Covered env { s with blkBlexIocs := s.blkBlexIocs.modify qId f, profile := next } prio qId
        (f ioc)) :
    Inv env { s with blkBlexIocs := s.blkBlexIocs.modify qId f, profile := next } := by
  apply h.move h_at h_next (fun _ h_ne => SparseArray.load_modify_of_ne h_ne)
  intro prio ioc h_prio h_load
  rw [SparseArray.load_modify_self, Option.map_eq_some_iff] at h_load
  obtain ⟨old, h_old, rfl⟩ := h_load
  exact h_covered prio old ((h prio h_prio).2 qId old h_old)

theorem countOn_kept (env : Env) (call : ProfileCall) (ioc : TaskIoc) :
    (countOn env call ioc).needUpdate = ioc.needUpdate ∧
      (countOn env call ioc).blexIoprio = ioc.blexIoprio := by
  unfold countOn blkBlexUpdateTaskIocStats countBio
  split
  · split <;> exact ⟨rfl, rfl⟩
  · exact ⟨rfl, rfl⟩

theorem Inv.profileLookup (h : Inv env s) (h_idle : s.profile = .idle) (call : ProfileCall)
    (hctx : Option Nat) : Inv env (IoprioChange.profileLookup s qId call hctx) := by
  have h_at : s.profile.At qId := by
    rw [h_idle]
    trivial
  unfold IoprioChange.profileLookup
  split
  case h_1 =>
    refine h.goTo h_at rfl ?_ ?_
    · rw [h_idle]
      exact id
    · rw [h_idle]
      exact fun _ => rfl
  case h_2 =>
    refine h.modify h_at rfl fun prio ioc h_covered => h_covered.move ?_ ?_ ?_
    · split <;> exact id
    · rw [h_idle]
      exact id
    · rw [h_idle]
      dsimp only [priorityOf]
      split <;> rfl

theorem rereads_testUpdate {update : Bool} (h_update : update = true) :
    Rereads (testUpdate qId update) qId := by
  rw [h_update]
  rfl

/-- Nothing is about to be written after `test`. -/
theorem priorityOf_testUpdate (qId : Nat) (update : Bool) (ioc : TaskIoc) :
    priorityOf (testUpdate qId update) qId ioc = ioc.blexIoprio := by
  cases update <;> rfl

theorem Inv.profileStep (h : Inv env s) {hctx : Option Nat}
    (h_seen : Seen env s (.profileStep hctx))
    (h_step : IoprioChange.profileStep env s hctx = some s') : Inv env s' := by
  unfold IoprioChange.profileStep at h_step
  cases h_at : s.profile with
  | idle =>
      rw [h_at] at h_step
      cases h_step
  | init qId call =>
      have h_here : s.profile.At qId := by rw [h_at]; rfl
      simp only [h_at, Option.map_eq_some_iff] at h_step
      obtain ⟨prio, -, rfl⟩ := h_step
      split
      · refine h.goTo h_here rfl ?_ ?_ <;> rw [h_at]
        · exact id
        · exact fun _ => rfl
      · refine h.goTo h_here trivial ?_ ?_ <;> rw [h_at]
        · exact id
        · exact fun _ => rfl
  | insert qId call prio hctx' =>
      have h_here : s.profile.At qId := by rw [h_at]; rfl
      simp only [h_at] at h_step
      split at h_step
      case isTrue h_ok =>
        cases h_step
        refine h.move h_here rfl (fun _ h_ne => SparseArray.load_insert_of_ne h_ne) ?_
        intro ioprio ioc h_ioprio h_load
        rw [SparseArray.load_insert_self] at h_load
        cases h_load
        -- the ioprio is still the one that was read, or a walk is to come
        rcases h_seen qId call prio hctx' ioprio h_at h_ok.1 h_ioprio with h_same | h_walk
        · exact .inr ((mapsTo_simpleMap env prio).congr h_same)
        · exact .inl (.inr (.inl h_walk))
      case isFalse =>
        cases h_step
        refine h.goTo h_here trivial ?_ ?_ <;> rw [h_at]
        · exact id
        · exact fun _ => rfl
  | count qId call =>
      have h_here : s.profile.At qId := by rw [h_at]; rfl
      simp only [h_at, Option.map_eq_some_iff] at h_step
      obtain ⟨ioc, -, rfl⟩ := h_step
      refine h.modify h_here rfl fun prio ioc h_covered => h_covered.move ?_ ?_ ?_
      · rw [(countOn_kept env call ioc).1]
        exact id
      · rw [h_at]
        exact False.elim
      · rw [h_at]
        exact (countOn_kept env call ioc).2
  | test qId update =>
      have h_here : s.profile.At qId := by rw [h_at]; rfl
      simp only [h_at, Option.map_eq_some_iff] at h_step
      obtain ⟨ioc, h_load, rfl⟩ := h_step
      split
      case isTrue =>
        refine h.move h_here rfl (fun _ _ => rfl) fun _ _ _ _ => .inl (.inr (.inr rfl))
      case isFalse =>
        refine h.goTo h_here (testUpdate_at qId update) ?_ ?_ <;> rw [h_at]
        · exact fun h_rereads => rereads_testUpdate h_rereads.2
        · exact priorityOf_testUpdate qId update
  | clear qId update =>
      have h_here : s.profile.At qId := by rw [h_at]; rfl
      simp only [h_at] at h_step
      cases h_step
      exact h.modify h_here rfl fun _ _ _ => .inl (.inr (.inr rfl))
  | read qId update =>
      have h_here : s.profile.At qId := by rw [h_at]; rfl
      simp only [h_at, Option.bind_eq_bind, Option.bind_eq_some_iff] at h_step
      obtain ⟨prio, h_prio, ioc, -, h_eq⟩ := h_step
      cases h_eq
      refine h.move h_here rfl (fun _ _ => rfl) fun prio' ioc' h_prio' _ => .inr ?_
      cases h_prio.symm.trans h_prio'
      rw [priorityOf, if_pos rfl]
      exact mapsTo_mapTaskIocIoprio env ioc prio
  | write qId update newIoprio =>
      have h_here : s.profile.At qId := by rw [h_at]; rfl
      simp only [h_at, Option.map_eq_some_iff] at h_step
      obtain ⟨hctx', -, rfl⟩ := h_step
      refine h.modify h_here (testUpdate_at qId update) fun prio ioc h_covered =>
        h_covered.move id ?_ ?_ <;> rw [h_at]
      · exact fun h_rereads => rereads_testUpdate h_rereads.2
      · exact (priorityOf_testUpdate qId update _).trans (if_pos rfl).symm
  | updateRead qId =>
      have h_here : s.profile.At qId := by rw [h_at]; rfl
      simp only [h_at, Option.bind_eq_bind, Option.bind_eq_some_iff] at h_step
      obtain ⟨prio, h_prio, ioc, -, h_eq⟩ := h_step
      cases h_eq
      refine h.move h_here rfl (fun _ _ => rfl) fun prio' ioc' h_prio' _ => .inr ?_
      cases h_prio.symm.trans h_prio'
      rw [priorityOf, if_pos rfl]
      exact mapsTo_mapTaskIocIoprio env ioc prio
  | updateWrite qId newIoprio =>
      have h_here : s.profile.At qId := by rw [h_at]; rfl
      simp only [h_at] at h_step
      cases h_step
      refine h.modify h_here trivial fun prio ioc h_covered => h_covered.move id ?_ ?_ <;> rw [h_at]
      · exact False.elim
      · exact (if_pos rfl).symm

/-- A step that lets every change be seen keeps the invariant. -/
theorem Inv.next {e : Event} (h : Inv env s) (h_seen : Seen env s e)
    (h_step : step env s e = some s') : Inv env s' := by
  cases e with
  | set call ioprio =>
      obtain ⟨h_idle, h_eq⟩ := Option.ite_none_right_eq_some.mp h_step
      cases h_eq
      exact h.setTaskIoprio h_idle ioprio
  | setStep call ok => exact h.setStep h_seen h_step
  | profile qId call hctx =>
      cases h_idle : s.profile with
      | idle =>
          simp only [step, h_idle] at h_step
          obtain ⟨-, h_eq⟩ := Option.ite_none_right_eq_some.mp h_step
          cases h_eq
          exact h.profileLookup h_idle call hctx
      | _ =>
          simp only [step, h_idle] at h_step
          cases h_step
  | profileStep hctx => exact h.profileStep h_seen h_step

/-! ## One more profile, alone -/

/-- The mark of the context is not set. -/
def Unmarked (iocs : SparseArray TaskIoc) (qId : Nat) : Prop :=
  ∀ ioc, iocs.load qId = some ioc → ioc.needUpdate = false

/-- How far a profile of the queue id is that nothing disturbs. -/
def Progress (s : State) (qId : Nat) : Prop :=
  match s.profile with
  | .idle => Unmarked s.blkBlexIocs qId
  | .init q _ => q = qId ∧ s.blkBlexIocs.load qId = none
  | .insert q _ prio _ => q = qId ∧ s.blkBlexIocs.load qId = none ∧ s.ioprio = some prio
  | .count q _ | .test q _ | .clear q _ => q = qId
  | .read q _ | .write q _ _ | .updateRead q | .updateWrite q _ => q = qId ∧ Unmarked s.blkBlexIocs qId

theorem profileStep_frame {hctx : Option Nat} (h_step : profileStep env s hctx = some s') :
    s'.sets = s.sets ∧ s'.ioprio = s.ioprio := by
  unfold profileStep at h_step
  split at h_step
  case h_1 => cases h_step
  case h_2 =>
    obtain ⟨prio, -, rfl⟩ := Option.map_eq_some_iff.mp h_step
    split <;> exact ⟨rfl, rfl⟩
  case h_3 =>
    split at h_step <;> cases h_step <;> exact ⟨rfl, rfl⟩
  case h_6 =>
    cases h_step
    exact ⟨rfl, rfl⟩
  case h_10 =>
    cases h_step
    exact ⟨rfl, rfl⟩
  case h_7 | h_9 =>
    simp only [Option.bind_eq_bind, Option.bind_eq_some_iff] at h_step
    obtain ⟨prio, -, ioc, -, h_eq⟩ := h_step
    cases h_eq
    exact ⟨rfl, rfl⟩
  all_goals
    obtain ⟨ioc, -, rfl⟩ := Option.map_eq_some_iff.mp h_step
    exact ⟨rfl, rfl⟩

/-- A change that keeps the mark. -/
theorem Unmarked.modify {iocs : SparseArray TaskIoc} (h : Unmarked iocs qId)
    {f : TaskIoc → TaskIoc} (h_f : ∀ ioc, (f ioc).needUpdate = ioc.needUpdate) :
    Unmarked (iocs.modify qId f) qId := by
  intro ioc h_load
  rw [SparseArray.load_modify_self, Option.map_eq_some_iff] at h_load
  obtain ⟨old, h_old, rfl⟩ := h_load
  rw [h_f]
  exact h old h_old

theorem progress_testUpdate {iocs : SparseArray TaskIoc} {update : Bool}
    (h : Unmarked iocs qId) :
    Progress { s with blkBlexIocs := iocs, profile := testUpdate qId update } qId := by
  cases update with
  | false => exact h
  | true => exact ⟨rfl, h⟩

theorem Progress.step (h : Progress s qId) {hctx : Option Nat}
    (h_step : profileStep env s hctx = some s') : Progress s' qId := by
  unfold profileStep at h_step
  unfold Progress at h
  cases h_at : s.profile with
  | idle =>
      rw [h_at] at h_step
      cases h_step
  | init q call =>
      simp only [h_at] at h h_step
      obtain ⟨rfl, h_none⟩ := h
      obtain ⟨prio, h_prio, rfl⟩ := Option.map_eq_some_iff.mp h_step
      split
      · exact ⟨rfl, h_none, h_prio⟩
      · intro ioc h_load
        cases h_none.symm.trans h_load
  | insert q call prio hctx' =>
      simp only [h_at] at h h_step
      obtain ⟨rfl, h_none, -⟩ := h
      split at h_step
      · cases h_step
        rfl
      · cases h_step
        intro ioc h_load
        cases h_none.symm.trans h_load
  | count q call =>
      simp only [h_at] at h h_step
      obtain ⟨ioc, -, rfl⟩ := Option.map_eq_some_iff.mp h_step
      exact h
  | test q update =>
      simp only [h_at] at h h_step
      subst h
      obtain ⟨ioc, h_load, rfl⟩ := Option.map_eq_some_iff.mp h_step
      split
      case isTrue => rfl
      case isFalse h_flag =>
        refine progress_testUpdate (fun ioc' h_load' => ?_)
        cases h_load.symm.trans h_load'
        exact Bool.eq_false_of_not_eq_true h_flag
  | clear q update =>
      simp only [h_at] at h h_step
      subst h
      cases h_step
      refine ⟨rfl, fun ioc h_load => ?_⟩
      rw [SparseArray.load_modify_self, Option.map_eq_some_iff] at h_load
      obtain ⟨old, -, rfl⟩ := h_load
      rfl
  | read q update =>
      simp only [h_at, Option.bind_eq_bind, Option.bind_eq_some_iff] at h h_step
      obtain ⟨rfl, h_unmarked⟩ := h
      obtain ⟨prio, -, ioc, -, h_eq⟩ := h_step
      cases h_eq
      exact ⟨rfl, h_unmarked⟩
  | write q update newIoprio =>
      simp only [h_at] at h h_step
      obtain ⟨rfl, h_unmarked⟩ := h
      obtain ⟨hctx', -, rfl⟩ := Option.map_eq_some_iff.mp h_step
      apply progress_testUpdate
      apply h_unmarked.modify
      exact fun _ => rfl
  | updateRead q =>
      simp only [h_at, Option.bind_eq_bind, Option.bind_eq_some_iff] at h h_step
      obtain ⟨rfl, h_unmarked⟩ := h
      obtain ⟨prio, -, ioc, -, h_eq⟩ := h_step
      cases h_eq
      exact ⟨rfl, h_unmarked⟩
  | updateWrite q newIoprio =>
      simp only [h_at] at h h_step
      obtain ⟨rfl, h_unmarked⟩ := h
      cases h_step
      apply h_unmarked.modify
      exact fun _ => rfl

/-- What holds while the task profiles a bio with no `set_task_ioprio` in progress. -/
structure Alone (env : Env) (qId : Nat) (s : State) : Prop where
  inv : Inv env s
  sets : ∀ call, s.sets call = .idle
  ioprio : s.ioprio.isSome
  progress : Progress s qId

theorem Alone.step (h : Alone env qId s) {hctx : Option Nat}
    (h_step : profileStep env s hctx = some s') : Alone env qId s' := by
  obtain ⟨h_frame, h_prio⟩ := profileStep_frame h_step
  refine ⟨h.inv.profileStep ?_ h_step, h_frame ▸ h.sets, h_prio ▸ h.ioprio, h.progress.step h_step⟩
  -- the ioprio is still the one that was read
  intro q call prio hctx' ioprio h_at _ h_ioprio
  have h_progress := h.progress
  simp only [Progress, h_at] at h_progress
  cases h_progress.2.2.symm.trans h_ioprio
  exact .inl rfl

theorem Alone.run {hctxs : List (Option Nat)} (h : Alone env qId s)
    (h_run : Lts.run (IoprioChange.step env) s (hctxs.map .profileStep) = some s') :
    Alone env qId s' := by
  induction hctxs generalizing s with
  | nil =>
      cases h_run
      exact h
  | cons hctx hctxs ih =>
      rw [List.map_cons, Lts.run_cons, Option.bind_eq_some_iff] at h_run
      obtain ⟨t, h_step, h_rest⟩ := h_run
      exact ih (h.step h_step) h_rest

theorem Inv.alone (h : Inv env s) (h_sets : ∀ call, s.sets call = .idle)
    {profileCall : ProfileCall} {hctx : Option Nat}
    (h_step : step env s (.profile qId profileCall hctx) = some s') : Alone env qId s' := by
  have h_inv : Inv env s' := h.next (e := Event.profile qId profileCall hctx) trivial h_step
  cases h_idle : s.profile with
  | idle =>
      simp only [step, h_idle] at h_step
      obtain ⟨h_some, h_eq⟩ := Option.ite_none_right_eq_some.mp h_step
      cases h_eq
      unfold IoprioChange.profileLookup at *
      split at h_inv
      case h_1 h_none => exact ⟨h_inv, h_sets, h_some, rfl, h_none⟩
      case h_2 => exact ⟨h_inv, h_sets, h_some, rfl⟩
  | _ =>
      simp only [step, h_idle] at h_step
      cases h_step

/-- After a run that lets every change be seen, a profile that runs alone once all the calls have
returned leaves its context with the priority for the present ioprio. -/
theorem change_seen (h : Lts.Reach (step env) (Seen env) Init s)
    (h_sets : ∀ call, s.sets call = .idle) {profileCall : ProfileCall} {hctx : Option Nat}
    {hctxs : List (Option Nat)}
    (h_run : Lts.run (step env) s (.profile qId profileCall hctx :: hctxs.map .profileStep) =
      some s')
    (h_done : s'.profile = .idle) (h_load : s'.blkBlexIocs.load qId = some ioc) :
    ∃ ioprio, s'.ioprio = some ioprio ∧ MapsTo env ioc.blexIoprio ioprio := by
  have h_inv : Inv env s := by
    refine h.invariant ?_ (fun _ _ _ h_inv h_seen h_step => h_inv.next h_seen h_step)
    intro s h_init prio h_prio
    cases h_init.1.symm.trans h_prio
  rw [Lts.run_cons, Option.bind_eq_some_iff] at h_run
  obtain ⟨t, h_first, h_rest⟩ := h_run
  have h_end := (h_inv.alone h_sets h_first).run h_rest
  obtain ⟨ioprio, h_prio⟩ := Option.isSome_iff_exists.mp h_end.ioprio
  refine ⟨ioprio, h_prio, ?_⟩
  have h_unmarked := h_end.progress
  rw [Progress, h_done] at h_unmarked
  -- nothing is left that would make a later profile see a change
  rcases (h_end.inv ioprio h_prio).2 qId ioc h_load with (h_flag | h_walk | h_now) | h_maps
  · cases (h_unmarked ioc h_load).symm.trans h_flag
  · obtain ⟨call, next, h_next, -⟩ := h_walk
    rw [h_end.sets] at h_next
    cases h_next
  · rw [h_done] at h_now
    cases h_now
  · rwa [h_done] at h_maps

/-- A call is idle until it starts. -/
theorem idle_update {sets : Nat → SetCall} {n : Nat} {c : SetCall} (h_ne : call ≠ n)
    (h_idle : sets call = .idle) : Function.update sets n c call = .idle := by
  rwa [Function.update_of_ne h_ne]

/-- Two calls that have returned, and no other one. -/
theorem idle_of_two {sets : Nat → SetCall} (h_zero : sets 0 = .idle) (h_one : sets 1 = .idle)
    (h_others : ∀ call, call ≠ 0 → call ≠ 1 → sets call = .idle) (call : Nat) :
    sets call = .idle := by
  by_cases h_call : call = 0
  · rw [h_call]
    exact h_zero
  by_cases h_call' : call = 1
  · rw [h_call']
    exact h_one
  exact h_others call h_call h_call'

def noIoContext : State := ⟨none, .empty, fun _ => .idle, .idle⟩

/-- A task of class BE does I/O on queue 3, and is then given class RT. -/
theorem change_seen_toRt : ∃ (s' : State) (ioc : TaskIoc), s'.blkBlexIocs.load 3 = some ioc ∧
    s'.ioprio = some 8192 ∧ ∃ ioprio, s'.ioprio = some ioprio ∧
      MapsTo (.default 4) ioc.blexIoprio ioprio := by
  have h_init : Lts.Reach (step (.default 4)) (Seen (.default 4)) Init noIoContext :=
    .init ⟨rfl, fun _ => rfl, rfl⟩
  have h_be := (h_init.step (e := Event.set 0 16388) trivial rfl).step (e := Event.setStep 0 true)
    (by rintro new ioprio - - h_none; cases h_none) rfl
  have h_insert := ((h_be.step (e := Event.profile 3 ⟨0, 0, true, true⟩ none) trivial rfl).step
    (e := Event.profileStep (some 1)) (by rintro _ _ _ _ _ h_at; cases h_at) rfl).step
    (e := Event.profileStep none)
    (by rintro _ _ _ _ _ h_at - h_ioprio; cases h_at; cases h_ioprio; exact .inl rfl) rfl
  have h_done := (h_insert.step (e := Event.profileStep none)
    (by rintro _ _ _ _ _ h_at; cases h_at) rfl).step (e := Event.profileStep none)
    (by rintro _ _ _ _ _ h_at; cases h_at) rfl
  have h_rt := (((h_done.step (e := Event.set 1 8192) trivial rfl).step
    (e := Event.setStep 1 true) (by rintro new ioprio h_call; cases h_call) rfl).step
    (e := Event.setStep 1 true) (by rintro new ioprio h_call; cases h_call) rfl).step
    (e := Event.setStep 1 true) (by rintro new ioprio h_call; cases h_call) rfl
  have h_lone := fun h_sets => @change_seen (.default 4) _ _ 3 _ h_rt h_sets ⟨0, 0, true, true⟩ none
    [none, none, none, none, some 2] rfl rfl rfl
  refine ⟨_, _, rfl, rfl, h_lone (idle_of_two rfl rfl fun call h_zero h_one => ?_)⟩
  have h_first {c c' : SetCall} : Function.update (Function.update noIoContext.sets 0 c) 0 c' call =
      .idle := idle_update h_zero (idle_update h_zero rfl)
  exact idle_update h_one (idle_update h_one (idle_update h_one (idle_update h_one h_first)))

/-- The run `es` loses a change: all the calls have returned, and after one more profile the
context has a priority that is not for the present ioprio. -/
def Loses (env : Env) (es : List Event) : Prop :=
  ∃ (s s' : State) (qId : Nat) (profileCall : ProfileCall) (hctx : Option Nat)
    (hctxs : List (Option Nat)) (ioc : TaskIoc) (ioprio : Nat),
    Lts.run (step env) noIoContext es = some s ∧ (∀ call, s.sets call = .idle) ∧
    Lts.run (step env) s (.profile qId profileCall hctx :: hctxs.map .profileStep) = some s' ∧
    s'.profile = .idle ∧ s'.blkBlexIocs.load qId = some ioc ∧ s'.ioprio = some ioprio ∧
    ¬ MapsTo env ioc.blexIoprio ioprio

/-- The first bio of a task of class BE; the task is given class RT between the read of its ioprio
and the insertion of its context. -/
def changeBeforeInsert : List Event :=
  [.set 0 16388, .setStep 0 true, .profile 3 ⟨0, 0, true, true⟩ none, .profileStep (some 1),
    .set 1 8192, .setStep 1 true, .profileStep none, .profileStep none, .profileStep none]

/-- Two calls find no io_context; the second one returns after the first bio of the task. -/
def changeByAllocator : List Event :=
  [.set 0 16388, .set 1 8192, .setStep 0 true, .profile 3 ⟨0, 0, true, true⟩ none,
    .profileStep (some 1), .profileStep none, .profileStep none, .profileStep none,
    .setStep 1 true]

theorem changes_lost :
    Loses (.default 4) changeBeforeInsert ∧ Loses (.default 4) changeByAllocator := by
  constructor
  · refine ⟨_, _, 3, ⟨0, 0, true, true⟩, none, [none, none], _, _, rfl, idle_of_two rfl rfl ?_, rfl,
      rfl, rfl, rfl, ?_⟩
    · intro call h_zero h_one
      exact idle_update h_one (idle_update h_one (idle_update h_zero (idle_update h_zero rfl)))
    · rw [MapsTo, if_pos (by decide)]
      decide
  · refine ⟨_, _, 3, ⟨0, 0, true, true⟩, none, [none, none], _, _, rfl, idle_of_two rfl rfl ?_, rfl,
      rfl, rfl, rfl, ?_⟩
    · intro call h_zero h_one
      exact idle_update h_one (idle_update h_zero (idle_update h_one (idle_update h_zero rfl)))
    · rw [MapsTo, if_pos (by decide)]
      decide

end Sched.IoprioChange

end Daredevil
