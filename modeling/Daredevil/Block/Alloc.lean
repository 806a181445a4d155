/-
  Daredevil.Block.Alloc

  Allocation of a request (`block/blk-mq.c`): `__blk_mq_alloc_requests`, its three
  callers, and the part of `blk_mq_submit_bio` that gives the task an io_context and
  has the bio profiled.

  Each attempt looks up the task's context for the queue and lets the scheduler
  choose a hctx; an attempt that gets no tag is followed by another one.  What an
  attempt meets (tags, and what the tasks that share the io_context have made of the
  entry) is given.  A null dereference is a fault that names the pointer.

  `alloc_contexts` says when that happens: always for a caller that has no bio, and
  for a bio when the task has no io_context or an attempt finds no entry.
-/
import Daredevil.Sched.Accounting

namespace Daredevil.Alloc

open Sched

/-! ## The queue, the task and the attempts -/

/-- A request queue, with what the code around it provides. -/
structure Queue where
  env : Sched.Env
  reg : NqRegulator
  /-- the numbers in `q->hctx_table`; `blk_mq_exit_hctx` takes a hctx out -/
  hctxTable : Nat → Bool
  /-- `REQ_NOWAIT` -/
  reqNowait : Nat
  /-- `IOPRIO_DEFAULT` -/
  ioprioDefault : Nat

/-- `struct io_context`; a task has one or `none`. -/
structure IoContext where
  ioprio : Nat
  /-- the entry of `blk_blex_iocs` for the queue -/
  entry : Option TaskIoc

structure Bio where
  biIoprio : Nat
  biOpf : Nat

/-- `struct blk_mq_alloc_data`, as the callers fill it in. -/
structure AllocData where
  /-- `bi_ioprio` of `data->bio`; `none` is NULL -/
  bio : Option Nat
  cmdFlags : Nat
  /-- `BLK_MQ_REQ_NOWAIT` of `data->flags` -/
  flagsNowait : Bool

/-- The callers of `__blk_mq_alloc_requests`. -/
inductive Caller where
  | getNewRequests (bio : Bio)
  | allocRequest (opf : Nat) (flagsNowait : Bool)
  | rqCacheFill (opf : Nat) (flagsNowait : Bool)

/-- The `data` of `blk_mq_get_new_requests`, `blk_mq_alloc_request` and `blk_mq_rq_cache_fill`. -/
def Caller.data : Caller → AllocData
  | .getNewRequests bio => ⟨some bio.biIoprio, bio.biOpf, false⟩
  | .allocRequest opf flagsNowait => ⟨none, opf, flagsNowait⟩
  | .rqCacheFill opf flagsNowait => ⟨none, opf, flagsNowait⟩

/-- What `blk_mq_get_tag` comes to. -/
inductive GetTag where
  /-- a tag of `data->hctx`, or of the hctx that it was moved to while waiting -/
  | tag (moved : Option Nat)
  | noTag
  | fault

/-- What an attempt meets. -/
structure Attempt where
  /-- what the tasks that share the io_context have made of the entry -/
  others : Option TaskIoc → Option TaskIoc
  /-- `blk_mq_map_queue` -/
  mapQueue : Option Nat
  /-- more than one tag is wanted, and `blk_mq_get_tags` has some -/
  batch : Bool
  getTag : GetTag

inductive Pointer where
  /-- `current->io_context` -/
  | ioContext
  /-- the entry of `blk_blex_iocs` -/
  | taskIoc
  /-- `data->bio` -/
  | bio
  deriving DecidableEq, Repr

inductive Result where
  | null (p : Pointer)
  | fault
  /-- `BLK_MQ_NO_TAG`: try again -/
  | retry
  /-- `NULL` is returned -/
  | failed
  /-- a request of a hctx -/
  | request (hctx : Nat)
  deriving DecidableEq, Repr

/-! ## The source functions -/

/-- `blk_blex_sched_req_alloc`, with the hctxs that are in the table. -/
def schedReqAlloc (q : Queue) (ioc : TaskIoc) (bioIoprio cmdFlags : Nat) :
    Option (Option Nat) :=
  if useDefault q.env ioc bioIoprio cmdFlags then
    some ioc.hctx
  else if ioc.blexIoprio = blkBlexOutlierPrio then
    some ioc.outlierHctx
  else do
    let nqid ← blkBlexSchedGetNonDefaultNqid q.env q.reg ioc
    some ((xaLoadHctx q.reg.blexInfo nqid).filter q.hctxTable)

/-- The request for a tag of `hctx`: its priority is read from the eNQ. -/
def rqCtxInit (q : Queue) (hctx : Nat) : Result :=
  match q.reg.enq? (blkBlexHctxToNqid hctx) with
  | none => .fault
  | some _ => .request hctx

/-- `data->flags & BLK_MQ_REQ_NOWAIT` -/
def AllocData.nowait (data : AllocData) (q : Queue) : Bool :=
  data.flagsNowait || data.cmdFlags &&& q.reqNowait != 0

/-- An attempt of `__blk_mq_alloc_requests` from the choice of the hctx on. -/
def takeTag (q : Queue) (data : AllocData) (a : Attempt) (hctx : Nat) : Result :=
  if a.batch then rqCtxInit q hctx
  else
    match a.getTag with
    | .tag moved => rqCtxInit q (moved.getD hctx)
    | .noTag => if data.nowait q then .failed else .retry
    | .fault => .fault

/-- An attempt once `ioc` has been looked up. -/
def withIoc (q : Queue) (data : AllocData) (a : Attempt) (ioc : Option TaskIoc) : Result :=
  if q.env.blexOptLevel ≠ 0 then
    -- `blk_blex_sched_hctx` reads the entry first, and `blk_blex_sched_req_alloc` the bio
    match ioc, data.bio with
    | none, _ => .null .taskIoc
    | some _, none => .null .bio
    | some ioc, some bioIoprio =>
        match schedReqAlloc q ioc bioIoprio data.cmdFlags with
        | none => .fault
        | some none => .failed
        | some (some hctx) => takeTag q data a hctx
  else
    match a.mapQueue, ioc with
    | some hctx, _ => takeTag q data a hctx
    -- the message about the missing hctx prints the priority of the entry
    | none, none => .null .taskIoc
    | none, some _ => .failed

/-- An attempt of `__blk_mq_alloc_requests`; `current` is `current->io_context`. -/
def attempt (q : Queue) (data : AllocData) (current : Option IoContext) (a : Attempt) : Result :=
  match current with
  | none => .null .ioContext
  | some ioc => withIoc q data a (a.others ioc.entry)

/-- `__blk_mq_alloc_requests`; it is still trying when the attempts are used up. -/
def blkMqAllocRequests (q : Queue) (data : AllocData) (current : Option IoContext) :
    List Attempt → Result
  | [] => .retry
  | a :: as =>
      match attempt q data current a with
      | .retry => blkMqAllocRequests q data current as
      | r => r

/-- What `blk_mq_submit_bio` does before it looks for a request: `set_task_ioprio` if there is
no io_context, which may or may not leave one, and the profile. -/
def prepareTask (q : Queue) (call : ProfileCall) (setTaskIoprio : Bool)
    (current : Option IoContext) : Option (Queue × Option IoContext) :=
  let current :=
    if current.isNone && setTaskIoprio then some ⟨q.ioprioDefault, none⟩ else current
  match current with
  | none => some (q, none)
  | some ioc =>
      (blkBlexTenantIocProfile q.env call ioc.ioprio q.reg ioc.entry).map fun r =>
        ({ q with reg := r.1 }, some { ioc with entry := r.2 })

/-! ## Attempts -/

variable {q : Queue} {data : AllocData} {current : Option IoContext} {as : List Attempt}
  {a : Attempt}

/-- With every hctx in the table the choice is that of `Sched.Route`. -/
theorem schedReqAlloc_full (h_full : ∀ i, q.hctxTable i = true) (ioc : TaskIoc)
    (bioIoprio cmdFlags : Nat) :
    schedReqAlloc q ioc bioIoprio cmdFlags =
      blkBlexSchedReqAlloc q.env q.reg ioc bioIoprio cmdFlags := by
  have h_filter (hctx : Option Nat) : hctx.filter q.hctxTable = hctx := by
    cases hctx with
    | none => rfl
    | some i => rw [Option.filter_some, if_pos (h_full i)]
  simp only [schedReqAlloc, blkBlexSchedReqAlloc, h_filter]

/-- The first attempt that is not followed by another one decides. -/
theorem allocRequests_eq_iff {r : Result} (h_r : r ≠ .retry) :
    blkMqAllocRequests q data current as = r ↔ ∃ pre a post, as = pre ++ a :: post ∧
      (∀ b ∈ pre, attempt q data current b = .retry) ∧ attempt q data current a = r := by
  induction as with
  | nil =>
      constructor
      · intro h_eq
        exact absurd h_eq.symm h_r
      · rintro ⟨pre, a, post, h_eq, -⟩
        exact absurd h_eq.symm (by simp)
  | cons a as ih =>
      rw [blkMqAllocRequests]
      split
      case h_1 h_retry =>
        rw [ih]
        constructor
        · rintro ⟨pre, b, post, rfl, h_pre, h_b⟩
          exact ⟨a :: pre, b, post, rfl, List.forall_mem_cons.mpr ⟨h_retry, h_pre⟩, h_b⟩
        · rintro ⟨pre, b, post, h_eq, h_pre, h_b⟩
          cases pre with
          | nil =>
              cases h_eq
              exact absurd (h_b.symm.trans h_retry) h_r
          | cons _ pre =>
              cases h_eq
              exact ⟨pre, b, post, rfl, (List.forall_mem_cons.mp h_pre).2, h_b⟩
      case h_2 h_notRetry =>
        constructor
        · intro h_a
          exact ⟨[], a, as, rfl, List.forall_mem_nil _, h_a⟩
        · rintro ⟨pre, b, post, h_eq, h_pre, h_b⟩
          cases pre with
          | nil =>
              cases h_eq
              exact h_b
          | cons _ pre =>
              cases h_eq
              exact absurd (h_pre _ (List.mem_cons_self ..)) h_notRetry

/-- The scheduler, or the map without it, gives the attempt a hctx. -/
def FindsHctx (q : Queue) (data : AllocData) (ioc : IoContext) (a : Attempt) (hctx : Nat) : Prop :=
  if q.env.blexOptLevel ≠ 0 then
    ∃ entry bioIoprio, a.others ioc.entry = some entry ∧ data.bio = some bioIoprio ∧
      schedReqAlloc q entry bioIoprio data.cmdFlags = some (some hctx)
  else a.mapQueue = some hctx

/-- The attempt has a hctx and gets no tag, and the caller can wait. -/
def Retries (q : Queue) (data : AllocData) (current : Option IoContext) (a : Attempt) : Prop :=
  (∃ ioc hctx, current = some ioc ∧ FindsHctx q data ioc a hctx) ∧ a.batch = false ∧
    a.getTag = .noTag ∧ data.nowait q = false

theorem rqCtxInit_cases (q : Queue) (hctx : Nat) :
    rqCtxInit q hctx = .fault ∨ rqCtxInit q hctx = .request hctx := by
  rw [rqCtxInit]
  split
  · exact .inl rfl
  · exact .inr rfl

/-- No tag: the attempt is over or is followed by another one.  Otherwise there is a request, or
a fault. -/
theorem takeTag_cases (q : Queue) (data : AllocData) (a : Attempt) (hctx : Nat) :
    (a.batch = false ∧ a.getTag = .noTag ∧
      takeTag q data a hctx = if data.nowait q then .failed else .retry) ∨
    (¬ (a.batch = false ∧ a.getTag = .noTag) ∧
      (takeTag q data a hctx = .fault ∨ ∃ h, takeTag q data a hctx = .request h)) := by
  rw [takeTag]
  split
  case isTrue h_batch =>
    refine .inr ⟨(fun h_and => nomatch h_batch.symm.trans h_and.1), ?_⟩
    exact (rqCtxInit_cases q hctx).imp_right fun h => ⟨_, h⟩
  case isFalse h_batch =>
    split
    case h_1 h_tag =>
      refine .inr ⟨(fun h_and => nomatch h_tag.symm.trans h_and.2), ?_⟩
      exact (rqCtxInit_cases q _).imp_right fun h => ⟨_, h⟩
    case h_2 h_tag => exact .inl ⟨Bool.eq_false_of_not_eq_true h_batch, h_tag, rfl⟩
    case h_3 h_tag => exact .inr ⟨(fun h_and => nomatch h_tag.symm.trans h_and.2), .inl rfl⟩

theorem takeTag_retry_iff (hctx : Nat) :
    takeTag q data a hctx = .retry ↔ a.batch = false ∧ a.getTag = .noTag ∧ data.nowait q = false := by
  rcases takeTag_cases q data a hctx with ⟨h_batch, h_tag, h_eq⟩ | ⟨h_not, h_eq | ⟨_, h_eq⟩⟩
  · rw [h_eq, h_batch, h_tag]
    cases data.nowait q <;> simp
  · rw [h_eq]
    exact iff_of_false nofun (fun h_and => h_not ⟨h_and.1, h_and.2.1⟩)
  · rw [h_eq]
    exact iff_of_false nofun (fun h_and => h_not ⟨h_and.1, h_and.2.1⟩)

/-- With a hctx it is left to the tags what becomes of the attempt. -/
theorem withIoc_of_findsHctx {ioc : IoContext} {hctx : Nat} (h : FindsHctx q data ioc a hctx) :
    withIoc q data a (a.others ioc.entry) = takeTag q data a hctx := by
  rw [FindsHctx] at h
  rw [withIoc.eq_def]
  split at h
  case isTrue h_opt =>
    obtain ⟨entry, bioIoprio, h_entry, h_bio, h_sched⟩ := h
    rw [if_pos h_opt, h_entry, h_bio]
    simp only [h_sched]
  case isFalse h_opt => rw [if_neg h_opt, h]

theorem findsHctx_of_retry {ioc : IoContext}
    (h : withIoc q data a (a.others ioc.entry) = .retry) : ∃ hctx, FindsHctx q data ioc a hctx := by
  rw [withIoc.eq_def] at h
  simp only [FindsHctx]
  split at h
  case isTrue h_opt =>
    simp only [if_pos h_opt]
    split at h
    · cases h
    · cases h
    case h_3 entry bioIoprio h_entry h_bio =>
      split at h
      · cases h
      · cases h
      case h_3 hctx h_sched => exact ⟨hctx, entry, bioIoprio, h_entry, h_bio, h_sched⟩
  case isFalse h_opt =>
    simp only [if_neg h_opt]
    split at h
    case h_1 hctx h_map => exact ⟨hctx, h_map⟩
    · cases h
    · cases h

theorem attempt_retry_iff : attempt q data current a = .retry ↔ Retries q data current a := by
  cases current with
  | none =>
      refine iff_of_false nofun ?_
      rintro ⟨⟨ioc, _, h_ioc, -⟩, -⟩
      cases h_ioc
  | some ioc =>
      constructor
      · intro h_retry
        obtain ⟨hctx, h_finds⟩ := findsHctx_of_retry h_retry
        rw [attempt, withIoc_of_findsHctx h_finds, takeTag_retry_iff] at h_retry
        exact ⟨⟨ioc, hctx, rfl, h_finds⟩, h_retry⟩
      · rintro ⟨⟨_, hctx, h_ioc, h_finds⟩, h_tag⟩
        cases h_ioc
        rw [attempt, withIoc_of_findsHctx h_finds, takeTag_retry_iff]
        exact h_tag

/-! ### Attempts without a hctx -/

/-- The hctx is NULL: that of the task, for a request that is not promoted, or what the table has
under the queue id of a promoted one. -/
def NoHctx (q : Queue) (data : AllocData) (entry : TaskIoc) (a : Attempt) : Prop :=
  if q.env.blexOptLevel ≠ 0 then
    ∃ bioIoprio, data.bio = some bioIoprio ∧
      if useDefault q.env entry bioIoprio data.cmdFlags = true then entry.hctx = none
      else ∃ nqid, blkBlexSchedGetNonDefaultNqid q.env q.reg entry = some nqid ∧
        (xaLoadHctx q.reg.blexInfo nqid).filter q.hctxTable = none
  else a.mapQueue = none

/-- The attempt has an entry and no hctx. -/
def LacksHctx (q : Queue) (data : AllocData) (current : Option IoContext) (a : Attempt) : Prop :=
  ∃ ioc entry, current = some ioc ∧ a.others ioc.entry = some entry ∧ NoHctx q data entry a

/-- The bit of L is set in the outlier priority: no request of an outlier is promoted, and the
outlier hctx is never used. -/
theorem useDefault_of_outlier {env : Sched.Env} {ioc : TaskIoc} (bioIoprio cmdFlags : Nat)
    (h : ioc.blexIoprio = blkBlexOutlierPrio) : useDefault env ioc bioIoprio cmdFlags = true := by
  rw [useDefault, h]
  rfl

theorem schedReqAlloc_none_iff (ioc : TaskIoc) (bioIoprio cmdFlags : Nat) :
    schedReqAlloc q ioc bioIoprio cmdFlags = some none ↔
      if useDefault q.env ioc bioIoprio cmdFlags = true then ioc.hctx = none
      else ∃ nqid, blkBlexSchedGetNonDefaultNqid q.env q.reg ioc = some nqid ∧
        (xaLoadHctx q.reg.blexInfo nqid).filter q.hctxTable = none := by
  rw [schedReqAlloc]
  split
  · exact Option.some_inj
  case isFalse h_promoted =>
    have h_prio : ¬ ioc.blexIoprio = blkBlexOutlierPrio :=
      fun h => h_promoted (useDefault_of_outlier bioIoprio cmdFlags h)
    rw [if_neg h_prio]
    simp only [Option.bind_eq_bind, Option.bind_eq_some_iff, Option.some.injEq]

/-- A caller that can wait is not refused for want of a tag. -/
theorem takeTag_ne_failed (h_wait : data.nowait q = false) (hctx : Nat) :
    takeTag q data a hctx ≠ .failed := by
  rcases takeTag_cases q data a hctx with ⟨-, -, h_eq⟩ | ⟨-, h_eq | ⟨_, h_eq⟩⟩
  · rw [h_eq, h_wait]
    exact nofun
  · rw [h_eq]
    exact nofun
  · rw [h_eq]
    exact nofun

theorem attempt_failed_iff (h_wait : data.nowait q = false) :
    attempt q data current a = .failed ↔ LacksHctx q data current a := by
  cases current with
  | none =>
      refine iff_of_false nofun ?_
      rintro ⟨_, _, h_ioc, -⟩
      cases h_ioc
  | some ioc =>
      have h_lacks : LacksHctx q data (some ioc) a ↔
          ∃ entry, a.others ioc.entry = some entry ∧ NoHctx q data entry a := by
        constructor
        · rintro ⟨_, entry, h_ioc, h_entry⟩
          cases h_ioc
          exact ⟨entry, h_entry⟩
        · rintro ⟨entry, h_entry⟩
          exact ⟨ioc, entry, rfl, h_entry⟩
      rw [h_lacks, attempt, withIoc.eq_def]
      simp only [NoHctx]
      cases a.others ioc.entry with
      | none =>
          refine iff_of_false ?_ (fun ⟨_, h_entry, _⟩ => nomatch h_entry)
          split
          · exact nofun
          · split
            · exact takeTag_ne_failed h_wait _
            · exact nofun
            case h_3 h_entry => exact nomatch h_entry
      | some entry =>
          simp only [Option.some.injEq, exists_eq_left']
          split
          · cases data.bio with
            | none => exact iff_of_false nofun (fun ⟨_, h_bio, _⟩ => nomatch h_bio)
            | some bioIoprio =>
                simp only [Option.some.injEq, exists_eq_left', ← schedReqAlloc_none_iff]
                split
                case h_1 h_sched => exact iff_of_false nofun (by rw [h_sched]; exact nofun)
                case h_2 h_sched => exact iff_of_true rfl h_sched
                case h_3 h_sched =>
                  exact iff_of_false (takeTag_ne_failed h_wait _) (by rw [h_sched]; exact nofun)
          · split
            case h_1 h_map =>
              exact iff_of_false (takeTag_ne_failed h_wait _) (by rw [h_map]; exact nofun)
            case h_2 h_entry => exact nomatch h_entry
            case h_3 h_map _ => exact iff_of_true rfl h_map

/-! ### Attempts that are reached -/

/-- An attempt that is reached has `P`. -/
def Reached (q : Queue) (data : AllocData) (current : Option IoContext) (as : List Attempt)
    (P : Attempt → Prop) : Prop :=
  ∃ pre a post, as = pre ++ a :: post ∧ (∀ b ∈ pre, Retries q data current b) ∧ P a

theorem allocRequests_iff {r : Result} (h_r : r ≠ .retry) :
    blkMqAllocRequests q data current as = r ↔
      Reached q data current as fun a => attempt q data current a = r := by
  simp only [allocRequests_eq_iff h_r, attempt_retry_iff, Reached]

/-- A caller that can wait gets NULL for want of a hctx only. -/
theorem allocRequests_failed_iff (h_wait : data.nowait q = false) :
    blkMqAllocRequests q data current as = .failed ↔
      Reached q data current as (LacksHctx q data current) := by
  have h_ne : Result.failed ≠ .retry := nofun
  simp only [allocRequests_iff h_ne, attempt_failed_iff h_wait]

/-! ## Null dereferences -/

/-- The allocation dereferences a null pointer. -/
def NullDeref (r : Result) : Prop := ∃ p, r = .null p

theorem takeTag_ne_null (hctx : Nat) (p : Pointer) : takeTag q data a hctx ≠ .null p := by
  rcases takeTag_cases q data a hctx with ⟨-, -, h_eq⟩ | ⟨-, h_eq | ⟨_, h_eq⟩⟩
  · rw [h_eq]
    cases data.nowait q <;> exact nofun
  · rw [h_eq]
    exact nofun
  · rw [h_eq]
    exact nofun

/-- With the scheduler, the attempt needs an io_context, an entry and a bio. -/
theorem attempt_null_iff (h_opt : q.env.blexOptLevel ≠ 0) :
    NullDeref (attempt q data current a) ↔
      data.bio = none ∨ current = none ∨ ∃ ioc, current = some ioc ∧ a.others ioc.entry = none := by
  cases current with
  | none =>
      refine iff_of_true ⟨.ioContext, rfl⟩ (.inr (.inl rfl))
  | some ioc =>
      rw [attempt, withIoc.eq_def, if_pos h_opt]
      cases h_entry : a.others ioc.entry with
      | none => exact iff_of_true ⟨.taskIoc, rfl⟩ (.inr (.inr ⟨ioc, rfl, h_entry⟩))
      | some entry =>
          cases h_bio : data.bio with
          | none => exact iff_of_true ⟨.bio, rfl⟩ (.inl rfl)
          | some bioIoprio =>
              refine iff_of_false ?_ ?_
              · rintro ⟨p, h_null⟩
                dsimp only at h_null
                split at h_null
                · cases h_null
                · cases h_null
                · exact takeTag_ne_null _ p h_null
              · rintro (h | h | ⟨_, h_ioc, h⟩)
                · cases h
                · cases h
                · cases h_ioc
                  exact nomatch h_entry.symm.trans h

/-- An attempt of these that needs nothing of the entry is the first one. -/
theorem reached_or_iff {P : Attempt → Prop} {c : Prop} :
    (Reached q data current (a :: as) fun b => c ∨ P b) ↔ c ∨ Reached q data current (a :: as) P := by
  constructor
  · rintro ⟨pre, b, post, h_eq, h_pre, h_c | h_P⟩
    · exact .inl h_c
    · exact .inr ⟨pre, b, post, h_eq, h_pre, h_P⟩
  · rintro (h_c | ⟨pre, b, post, h_eq, h_pre, h_P⟩)
    · exact ⟨[], a, as, rfl, List.forall_mem_nil _, .inl h_c⟩
    · exact ⟨pre, b, post, h_eq, h_pre, .inr h_P⟩

theorem allocRequests_null_iff (h_opt : q.env.blexOptLevel ≠ 0) :
    NullDeref (blkMqAllocRequests q data current (a :: as)) ↔
      data.bio = none ∨ current = none ∨ Reached q data current (a :: as) fun b =>
        ∃ ioc, current = some ioc ∧ b.others ioc.entry = none := by
  have h_reached : NullDeref (blkMqAllocRequests q data current (a :: as)) ↔
      Reached q data current (a :: as) fun b => NullDeref (attempt q data current b) := by
    have h_ne (p : Pointer) : Result.null p ≠ .retry := nofun
    constructor
    · rintro ⟨p, h_null⟩
      obtain ⟨pre, b, post, h_eq, h_pre, h_b⟩ := (allocRequests_iff (h_ne p)).mp h_null
      exact ⟨pre, b, post, h_eq, h_pre, p, h_b⟩
    · rintro ⟨pre, b, post, h_eq, h_pre, p, h_b⟩
      exact ⟨p, (allocRequests_iff (h_ne p)).mpr ⟨pre, b, post, h_eq, h_pre, h_b⟩⟩
  simp only [h_reached, attempt_null_iff h_opt, reached_or_iff]

theorem Caller.bio_eq_none_iff (caller : Caller) :
    caller.data.bio = none ↔ ∀ bio, caller ≠ .getNewRequests bio := by
  cases caller with
  | getNewRequests bio => exact iff_of_false nofun (fun h => h bio rfl)
  | allocRequest opf flagsNowait => exact iff_of_true rfl nofun
  | rqCacheFill opf flagsNowait => exact iff_of_true rfl nofun

/-! ### The context that a submission leaves -/

variable {env : Sched.Env} {call : ProfileCall} {prio : Nat} {reg reg' : NqRegulator}
  {found entry : Option TaskIoc}

/-- A new entry is allocated, given a hctx and stored. -/
def StoresEntry (env : Sched.Env) (call : ProfileCall) (prio : Nat) (reg : NqRegulator) : Prop :=
  call.iocAlloc = true ∧ call.xaInsert = true ∧
    ∃ r, blkBlexSchedTaskInit env call.caller reg (newTaskIoc env prio) = some r ∧ r.2.2.isSome

theorem allocAndInit_isSome_iff
    (h : blkBlexAllocAndInitTaskIoc env call prio reg = some (reg', entry)) :
    entry.isSome ↔ call.iocAlloc = true ∧
      ∃ r, blkBlexSchedTaskInit env call.caller reg (newTaskIoc env prio) = some r ∧
        r.2.2.isSome := by
  rcases allocAndInit_cases h with ⟨h_not, -, rfl⟩ | ⟨h_alloc, ioc, hctx, h_init, rfl⟩
  · refine iff_of_false Bool.false_ne_true fun h_and => ?_
    rw [h_not] at h_and
    cases h_and.1
  · rw [Option.isSome_map, and_iff_right h_alloc, h_init]
    constructor
    · exact fun h_some => ⟨_, rfl, h_some⟩
    · rintro ⟨r, ⟨⟩, h_some⟩
      exact h_some

theorem findOrInit_isSome_iff (h : findOrInit env call prio reg found = some (reg', entry)) :
    entry.isSome ↔ found.isSome ∨ StoresEntry env call prio reg := by
  cases found with
  | none =>
      obtain ⟨new, h_new, rfl⟩ := findOrInit_none_cases h
      have h_iff := allocAndInit_isSome_iff h_new
      cases h_insert : call.xaInsert with
      | true => simp [StoresEntry, h_insert, h_iff]
      | false => simp [StoresEntry, h_insert]
  | some ioc =>
      rcases findOrInit_some_cases h with ⟨-, -, rfl⟩ | ⟨-, ioc₁, hctx, -, rfl⟩
      · exact iff_of_true rfl (.inl rfl)
      · exact iff_of_true rfl (.inl rfl)

theorem profile_isSome_iff
    (h : blkBlexTenantIocProfile env call prio reg found = some (reg', entry)) :
    entry.isSome ↔ found.isSome ∨ StoresEntry env call prio reg := by
  simp only [blkBlexTenantIocProfile, Option.bind_eq_bind, Option.bind_eq_some_iff] at h
  obtain ⟨⟨reg₁, ioc⟩, h_find, h⟩ := h
  rw [← findOrInit_isSome_iff h_find]
  cases ioc with
  | none =>
      cases h
      rfl
  | some ioc =>
      obtain ⟨r, -, h_eq⟩ := Option.map_eq_some_iff.mp h
      cases h_eq
      rfl

/-- The task has an io_context with an entry for the queue. -/
def HasContext (current : Option IoContext) : Prop :=
  ∃ ioc, current = some ioc ∧ ioc.entry.isSome

/-- A submission finds an entry, or makes one, in the io_context that the task has or gets. -/
def GetsContext (q : Queue) (call : ProfileCall) (setTaskIoprio : Bool) :
    Option IoContext → Prop
  | some ioc => ioc.entry.isSome ∨ StoresEntry q.env call ioc.ioprio q.reg
  | none => setTaskIoprio = true ∧ StoresEntry q.env call q.ioprioDefault q.reg

theorem prepareTask_hasContext_iff {q' : Queue} {current' : Option IoContext}
    {setTaskIoprio : Bool}
    (h : prepareTask q call setTaskIoprio current = some (q', current')) :
    q'.env = q.env ∧ (HasContext current' ↔ GetsContext q call setTaskIoprio current) := by
  -- the profile in an io_context
  have h_profile (ioc : IoContext)
      (h : (blkBlexTenantIocProfile q.env call ioc.ioprio q.reg ioc.entry).map (fun r =>
        ({ q with reg := r.1 }, some { ioc with entry := r.2 })) = some (q', current')) :
      q'.env = q.env ∧
        (HasContext current' ↔ ioc.entry.isSome ∨ StoresEntry q.env call ioc.ioprio q.reg) := by
    obtain ⟨⟨reg, entry⟩, h_prof, h_eq⟩ := Option.map_eq_some_iff.mp h
    cases h_eq
    refine ⟨rfl, ?_⟩
    rw [← profile_isSome_iff h_prof]
    constructor
    · rintro ⟨_, h_ioc, h_some⟩
      cases h_ioc
      exact h_some
    · exact fun h_some => ⟨_, rfl, h_some⟩
  rw [prepareTask.eq_def] at h
  cases current with
  | some ioc => exact h_profile ioc h
  | none =>
      cases setTaskIoprio with
      | true =>
          obtain ⟨h_env, h_iff⟩ := h_profile ⟨q.ioprioDefault, none⟩ h
          refine ⟨h_env, h_iff.trans ?_⟩
          simp [GetsContext]
      | false =>
          cases h
          refine ⟨rfl, iff_of_false ?_ (fun h_and => by cases h_and.1)⟩
          rintro ⟨_, h_ioc, -⟩
          cases h_ioc

/-- Without others, a bio's allocation needs what its submission has left. -/
theorem allocRequests_null_iff_hasContext (h_opt : q.env.blexOptLevel ≠ 0)
    (h_bio : data.bio ≠ none) (h_others : ∀ b ∈ a :: as, ∀ entry, b.others entry = entry) :
    NullDeref (blkMqAllocRequests q data current (a :: as)) ↔ ¬ HasContext current := by
  rw [allocRequests_null_iff h_opt, or_iff_right h_bio]
  cases current with
  | none =>
      refine iff_of_true (.inl rfl) ?_
      rintro ⟨_, h_ioc, -⟩
      cases h_ioc
  | some ioc =>
      constructor
      · rintro (h | ⟨pre, b, post, h_eq, -, _, h_ioc, h_none⟩)
        · cases h
        · cases h_ioc
          rw [h_others b (by rw [h_eq]; simp)] at h_none
          rintro ⟨_, h_ioc, h_some⟩
          cases h_ioc
          rw [h_none] at h_some
          cases h_some
      · intro h_not
        refine .inr ⟨[], a, as, rfl, List.forall_mem_nil _, ioc, rfl, ?_⟩
        rw [h_others a (List.mem_cons_self ..)]
        by_contra h_some
        exact h_not ⟨ioc, rfl, Option.isSome_iff_ne_none.mpr h_some⟩

/-! ## The allocation and its callers -/

/-- With the scheduler, an allocation dereferences a null pointer exactly when its caller has no
bio, the task no io_context, or an attempt finds no entry.  If nobody else changes the entry, a
bio's allocation does so exactly when its submission neither finds an entry nor makes one. -/
theorem alloc_contexts (q : Queue) (h_opt : q.env.blexOptLevel ≠ 0) :
    (∀ (caller : Caller) (current : Option IoContext) (a : Attempt) (as : List Attempt),
      NullDeref (blkMqAllocRequests q caller.data current (a :: as)) ↔
        (∀ bio, caller ≠ .getNewRequests bio) ∨ current = none ∨
          Reached q caller.data current (a :: as) fun b =>
            ∃ ioc, current = some ioc ∧ b.others ioc.entry = none) ∧
    ∀ (bio : Bio) (call : ProfileCall) (setTaskIoprio : Bool) (current : Option IoContext)
      (q' : Queue) (current' : Option IoContext) (a : Attempt) (as : List Attempt),
      prepareTask q call setTaskIoprio current = some (q', current') →
      (∀ b ∈ a :: as, ∀ entry, b.others entry = entry) →
      (NullDeref (blkMqAllocRequests q' (Caller.getNewRequests bio).data current' (a :: as)) ↔
        ¬ GetsContext q call setTaskIoprio current) := by
  constructor
  · intro caller current a as
    rw [allocRequests_null_iff h_opt, caller.bio_eq_none_iff]
  · intro bio call setTaskIoprio current q' current' a as h_prepare h_others
    obtain ⟨h_env, h_iff⟩ := prepareTask_hasContext_iff h_prepare
    have h_bio : (Caller.getNewRequests bio).data.bio ≠ none := Option.some_ne_none _
    rw [allocRequests_null_iff_hasContext (h_env ▸ h_opt) h_bio h_others, h_iff]

/-- Four queues with all hctxs in the table; `REQ_NOWAIT` and `IOPRIO_DEFAULT` as in the kernel's
headers. -/
def fourQueue : Queue := ⟨.default 4, fourNqsReg, fun _ => true, 2097152, 0⟩

/-- An attempt that nobody disturbs and that gets a tag. -/
def undisturbed : Attempt := ⟨id, some 0, false, .tag none⟩

/-- The first bio of a task without an io_context, with memory for everything. -/
theorem alloc_contexts_firstBio :
    ∃ q' current', prepareTask fourQueue (bioOn 1 0) true none = some (q', current') ∧
      ¬ NullDeref (blkMqAllocRequests q' (Caller.getNewRequests ⟨0, 0⟩).data current'
        [undisturbed]) := by
  have h_prepare : (prepareTask fourQueue (bioOn 1 0) true none).isSome := by decide +kernel
  have h_init : (blkBlexSchedTaskInit fourQueue.env (bioOn 1 0).caller fourQueue.reg
      (newTaskIoc fourQueue.env 0)).map (fun r => r.2.2.isSome) = some true := by decide +kernel
  obtain ⟨⟨q', current'⟩, h_eq⟩ := Option.isSome_iff_exists.mp h_prepare
  obtain ⟨r, h_r, h_some⟩ := Option.map_eq_some_iff.mp h_init
  have h_iff := (alloc_contexts fourQueue (by decide)).2 ⟨0, 0⟩ (bioOn 1 0) true none q' current'
    undisturbed [] h_eq (by simp [undisturbed])
  refine ⟨q', current', h_eq, fun h_null => h_iff.mp h_null ?_⟩
  exact ⟨rfl, rfl, rfl, r, h_r, h_some⟩

/-- A passthrough request of a task that has a context; a bio for whose task no io_context could
be set up; and one for whose task no entry could be allocated. -/
theorem missingContexts_dereferenced :
    fourQueue.env.blexOptLevel = 2 ∧
      blkMqAllocRequests fourQueue (Caller.allocRequest 34 false).data (some ⟨0, some tTask⟩)
        [undisturbed] = .null .bio ∧
      (prepareTask fourQueue (bioOn 1 0) false none).map (fun r =>
        blkMqAllocRequests r.1 (Caller.getNewRequests ⟨0, 0⟩).data r.2 [undisturbed]) =
          some (.null .ioContext) ∧
      (prepareTask fourQueue ⟨1, 0, false, true⟩ true none).map (fun r =>
        blkMqAllocRequests r.1 (Caller.getNewRequests ⟨0, 0⟩).data r.2 [undisturbed]) =
          some (.null .taskIoc) :=
  ⟨rfl, rfl, rfl, rfl⟩

end Daredevil.Alloc
