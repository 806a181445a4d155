/-
  Daredevil.Block.Timeout

  The timeout work of a queue (`blk_mq_timeout_work`, `block/blk-mq.c`).  It goes through the
  busy requests of the queue to see whether one has expired, and if so waits for the submitters
  that are under way and goes through them again, to hand the expired ones to the driver.  The
  requests change all the while: what counts is what a pass finds when it comes to a request.
  The deadlines are in `jiffies`, which wrap.

    * `offset_lt_iff`             — `time_after` between deadlines that have not passed;
    * `blkMqQueueTagBusyIter_eq`  — the iteration, with any callback, as passes over lists of
                                    requests, each of which the callback may break off;
    * `Earliest.snoc`             — the deadline kept so far is the earliest of those that count,
                                    which are not all of them when one is zero;
    * `checkPass_none`, `handlePass` — what is left of the first and of the second time;
    * `blkMqTimeoutWork_blex`     — on a queue of a blex tag set: who is handed over, and what
                                    the timer is set to.
-/
import Daredevil.Block.RequestRef
import Daredevil.Block.TagIter
import Mathlib.Data.List.DropRight

namespace Daredevil.Timeout

open TagIter
open RequestRef (RqState)

/-! ## Time -/

/-- `(long)(a - b) >= 0` -/
def timeAfterEq (a b : UInt64) : Bool := decide ((a - b).toNat < 2 ^ 63)

/-- `(long)(b - a) < 0` -/
def timeAfter (a b : UInt64) : Bool := !decide ((b - a).toNat < 2 ^ 63)

/-! ## The source functions -/

/-- What the timeout work reads of a request. -/
structure Timing where
  state : RqState
  /-- `RQF_TIMED_OUT` -/
  timedOut : Bool
  deadline : UInt64
  deriving DecidableEq, Repr

/-- `struct blk_expired_data` -/
structure BlkExpiredData where
  hasTimedoutRq : Bool
  /-- zero for none -/
  next : UInt64
  timeoutStart : UInt64
  deriving DecidableEq, Repr

/-- `blk_mq_req_expired` -/
def blkMqReqExpired (rq : Timing) (expired : BlkExpiredData) : Bool × BlkExpiredData :=
  if rq.state ≠ .inFlight then (false, expired)
  else if rq.timedOut then (false, expired)
  else if timeAfterEq expired.timeoutStart rq.deadline then (true, expired)
  else if expired.next = 0 then (false, { expired with next := rq.deadline })
  else if timeAfter expired.next rq.deadline then (false, { expired with next := rq.deadline })
  else (false, expired)

/-- `enum blk_eh_timer_return` -/
inductive BlkEhTimerReturn where
  | done
  | resetTimer
  deriving DecidableEq, Repr

/-- What is done to a request that has timed out. -/
inductive Action (ρ : Type) where
  /-- `q->mq_ops->timeout(req)` -/
  | timeout (rq : ρ)
  /-- `blk_add_timer(req)` -/
  | addTimer (rq : ρ)
  deriving DecidableEq, Repr

/-- What the timeout work leaves. -/
structure Outcome (ρ : Type) where
  actions : List (Action ρ)
  /-- `mod_timer(&q->timeout, expired.next)` -/
  timer : Option UInt64
  /-- `blk_mq_tag_idle(hctx)` -/
  idled : List HctxId
  deriving DecidableEq, Repr

section Source

variable {ρ β : Type}

/-- `blk_mq_rq_timed_out` -/
def blkMqRqTimedOut (timeout : Option (ρ → BlkEhTimerReturn)) (req : ρ) : List (Action ρ) :=
  match timeout with
  | none => [.addTimer req]
  | some handler =>
      match handler req with
      | .done => [.timeout req]
      | .resetTimer => [.timeout req, .addTimer req]

/-- `blk_mq_check_expired` -/
def blkMqCheckExpired (seen : ρ → Timing) (rq : ρ) (expired : BlkExpiredData) :
    Bool × BlkExpiredData :=
  let r := blkMqReqExpired (seen rq) expired
  if r.1 then (false, { r.2 with hasTimedoutRq := true }) else (true, r.2)

/-- `blk_mq_handle_expired` -/
def blkMqHandleExpired (timeout : Option (ρ → BlkEhTimerReturn)) (seen : ρ → Timing) (rq : ρ)
    (priv : BlkExpiredData × List (Action ρ)) : Bool × BlkExpiredData × List (Action ρ) :=
  let r := blkMqReqExpired (seen rq) priv.1
  (true, r.2, if r.1 then priv.2 ++ blkMqRqTimedOut timeout rq else priv.2)

/-- `blk_mq_hw_queue_mapped` -/
def blkMqHwQueueMapped (hctx : BlkMqHwCtx) : Bool := hctx.nrCtx ≠ 0 && hctx.tags.isSome

/-- `blk_mq_timeout_work`.  `check` and `handle` are what the two passes find in the requests
when they come to them, whoever else is at work on these. -/
def blkMqTimeoutWork (set : BlkMqTagSet ρ) (reqs : ρ → Request) (q : RequestQueue)
    (timeout : Option (ρ → BlkEhTimerReturn)) (jiffies : UInt64) (check handle : ρ → Timing) :
    Outcome ρ :=
  if q.qUsageCounter = 0 then ⟨[], none, []⟩
  else
    let expired := blkMqQueueTagBusyIter set reqs q (blkMqCheckExpired check) ⟨false, 0, jiffies⟩
    let r :=
      if expired.hasTimedoutRq then
        blkMqQueueTagBusyIter set reqs q (blkMqHandleExpired timeout handle)
          ({ expired with next := 0 }, [])
      else (expired, [])
    if r.1.next ≠ 0 then ⟨r.2, some r.1.next, []⟩
    else ⟨r.2, none, (q.hctxTable.filter blkMqHwQueueMapped).map fun hctx => hctx.id⟩

end Source

/-! ## Deadlines -/

/-- The request has expired at `now`, and nobody has been told. -/
def Expired (now : UInt64) (rq : Timing) : Prop :=
  rq.state = .inFlight ∧ rq.timedOut = false ∧ timeAfterEq now rq.deadline = true

/-- The request is in flight with its deadline before it. -/
def Pending (now : UInt64) (rq : Timing) : Prop :=
  rq.state = .inFlight ∧ rq.timedOut = false ∧ timeAfterEq now rq.deadline = false

instance (now : UInt64) (rq : Timing) : Decidable (Expired now rq) :=
  inferInstanceAs (Decidable (_ ∧ _ ∧ _))

instance (now : UInt64) (rq : Timing) : Decidable (Pending now rq) :=
  inferInstanceAs (Decidable (_ ∧ _ ∧ _))

/-- How far in the future a time is. -/
def offset (now d : UInt64) : Nat := (d - now).toNat

variable {now d e : UInt64} {rq : Timing} {expired : BlkExpiredData}

theorem toNat_sub_eq (a b : UInt64) :
    (a - b).toNat = if b.toNat ≤ a.toNat then a.toNat - b.toNat
      else 2 ^ 64 + a.toNat - b.toNat := by
  have h_a := a.toNat_lt
  have h_b := b.toNat_lt
  rw [UInt64.toNat_sub]
  split <;> omega

/-- A deadline that has not passed is less than half a round away. -/
theorem offset_of_not_passed (h : timeAfterEq now d = false) :
    0 < offset now d ∧ offset now d ≤ 2 ^ 63 := by
  have h_far : ¬ (now - d).toNat < 2 ^ 63 := by simpa [timeAfterEq] using h
  have h_now := now.toNat_lt
  have h_d := d.toNat_lt
  rw [toNat_sub_eq] at h_far
  unfold offset
  rw [toNat_sub_eq]
  split at h_far <;> split <;> omega

/-- `time_after` tells which of two such deadlines is the earlier. -/
theorem offset_lt_iff (h_d : timeAfterEq now d = false) (h_e : timeAfterEq now e = false) :
    timeAfter d e = true ↔ offset now e < offset now d := by
  have h_range_d := offset_of_not_passed h_d
  have h_range_e := offset_of_not_passed h_e
  have h_between : (e - d).toNat = if offset now d ≤ offset now e
      then offset now e - offset now d else 2 ^ 64 + offset now e - offset now d := by
    have h_sub : e - d = (e - now) - (d - now) := by grind
    rw [h_sub, toNat_sub_eq]
    rfl
  have h_after : timeAfter d e = true ↔ ¬ (e - d).toNat < 2 ^ 63 := by simp [timeAfter]
  rw [h_after, h_between]
  split <;> omega

/-! ## One request -/

theorem blkMqReqExpired_fst (rq : Timing) (expired : BlkExpiredData) :
    (blkMqReqExpired rq expired).1 = decide (Expired expired.timeoutStart rq) := by
  unfold blkMqReqExpired Expired
  split
  · rename_i h_state
    simp [h_state]
  · split
    · rename_i h_out
      simp [h_out]
    · rename_i h_state h_out
      have h_state' := not_not.mp h_state
      split
      · rename_i h_passed
        simp [h_state', h_out, h_passed]
      · rename_i h_passed
        split
        · simp [h_passed]
        · split <;> simp [h_passed]

/-- Only the earliest deadline is kept of a request that has not expired. -/
theorem blkMqReqExpired_snd (rq : Timing) (expired : BlkExpiredData) :
    (blkMqReqExpired rq expired).2 = { expired with
      next := if Pending expired.timeoutStart rq ∧
          (expired.next = 0 ∨ timeAfter expired.next rq.deadline = true)
        then rq.deadline else expired.next } := by
  unfold blkMqReqExpired Pending
  split
  · rename_i h_state
    simp [h_state]
  · split
    · rename_i h_out
      simp [h_out]
    · rename_i h_state h_out
      have h_state' := not_not.mp h_state
      split
      · rename_i h_passed
        simp [h_passed]
      · rename_i h_passed
        split
        · rename_i h_none
          simp [h_state', h_out, h_passed, h_none]
        · rename_i h_some
          split
          · rename_i h_after
            simp [h_state', h_out, h_passed, h_after]
          · rename_i h_after
            simp [h_some, h_after]

/-- The request is not pending, and leaves no trace. -/
theorem blkMqReqExpired_idle (h : ¬ Pending expired.timeoutStart rq) :
    (blkMqReqExpired rq expired).2 = expired := by
  rw [blkMqReqExpired_snd, if_neg fun h_and => h h_and.1]

/-! ## The earliest deadline -/

/-- The deadlines found after the last one that is zero. -/
def afterZero (l : List UInt64) : List UInt64 := l.rtakeWhile fun d => d ≠ 0

/-- The deadlines by which the timer is set, out of those that a pass finds.  Zero stands for
none: when it is the earliest, a deadline of zero wipes out those found so far. -/
def counted (now : UInt64) (l : List UInt64) : List UInt64 :=
  if 0 ∈ l ∧ l.all fun d => offset now 0 ≤ offset now d then afterZero l else l

theorem afterZero_snoc (l : List UInt64) (d : UInt64) :
    afterZero (l ++ [d]) = if d = 0 then [] else afterZero l ++ [d] := by
  unfold afterZero
  rw [List.rtakeWhile_concat]
  by_cases h_d : d = 0
  · simp [h_d]
  · simp [h_d]

theorem mem_of_mem_counted {l : List UInt64} (h : d ∈ counted now l) : d ∈ l := by
  unfold counted at h
  split at h
  · exact (List.rtakeWhile_suffix _ l).subset h
  · exact h

theorem counted_early {l : List UInt64} (h_e : e ∈ l) (h_lt : offset now e < offset now 0) :
    counted now l = l :=
  if_neg fun h_and =>
    absurd h_lt (Nat.not_lt.mpr (decide_eq_true_eq.mp (List.all_eq_true.mp h_and.2 e h_e)))

theorem counted_late {l : List UInt64} (h : ∀ e ∈ l, offset now 0 ≤ offset now e) :
    counted now l = afterZero l := by
  unfold counted
  split
  case isTrue => rfl
  case isFalse h_not =>
    refine (List.rtakeWhile_eq_self_iff.mpr fun d h_d => decide_eq_true ?_).symm
    rintro rfl
    exact h_not ⟨h_d, List.all_eq_true.mpr fun e h_e => decide_eq_true (h e h_e)⟩

theorem offset_inj (h : offset now d = offset now e) : d = e := by
  have h_sub : d - now = e - now := UInt64.toNat_inj.mp h
  grind

/-- `next` is the earliest of the deadlines that count, and zero if there is none. -/
structure Earliest (now : UInt64) (l : List UInt64) (next : UInt64) : Prop where
  armed : next ≠ 0 → next ∈ counted now l
  first : ∀ d ∈ counted now l, next ≠ 0 ∧ offset now next ≤ offset now d

theorem Earliest.nil (now : UInt64) : Earliest now [] 0 where
  armed := fun h => absurd rfl h
  first := fun _ h_d => absurd (mem_of_mem_counted h_d) List.not_mem_nil

/-- What `blk_mq_req_expired` makes of one more deadline that has not passed. -/
def later (next d : UInt64) : UInt64 := if next = 0 ∨ timeAfter next d = true then d else next

/-- The list to which one more deadline is added counts as it is. -/
theorem Earliest.snoc_keep {l : List UInt64} {next : UInt64} (h : Earliest now l next)
    (h_l : ∀ e ∈ l, timeAfterEq now e = false) (h_d : timeAfterEq now d = false)
    (h_zero : d = 0 → next ≠ 0 ∧ offset now next < offset now d)
    (h_counted : counted now (l ++ [d]) = counted now l ++ [d]) :
    Earliest now (l ++ [d]) (later next d) := by
  have h_next (h_ne : next ≠ 0) : timeAfter next d = true ↔ offset now d < offset now next :=
    offset_lt_iff (h_l next (mem_of_mem_counted (h.armed h_ne))) h_d
  unfold later
  split
  case isTrue h_new =>
    have h_ne : d ≠ 0 := by
      intro h_eq
      obtain ⟨h_some, h_before⟩ := h_zero h_eq
      have h_after := (h_next h_some).mp (h_new.resolve_left h_some)
      omega
    refine ⟨fun _ => h_counted ▸ List.mem_append_right _ List.mem_cons_self, ?_⟩
    intro e h_e
    refine ⟨h_ne, ?_⟩
    rw [h_counted] at h_e
    cases List.mem_append.mp h_e with
    | inr h_eq => rw [List.mem_singleton.mp h_eq]
    | inl h_old =>
        obtain ⟨h_some, h_first⟩ := h.first e h_old
        have h_after := (h_next h_some).mp (h_new.resolve_left h_some)
        omega
  case isFalse h_keep =>
    obtain ⟨h_some, h_after⟩ := not_or.mp h_keep
    refine ⟨fun _ => h_counted ▸ List.mem_append_left _ (h.armed h_some), ?_⟩
    intro e h_e
    refine ⟨h_some, ?_⟩
    rw [h_counted] at h_e
    cases List.mem_append.mp h_e with
    | inl h_old => exact (h.first e h_old).2
    | inr h_eq =>
        rw [List.mem_singleton.mp h_eq]
        exact Nat.not_lt.mp (mt (h_next h_some).mpr h_after)

/-- The first deadline before zero is the earliest of all. -/
theorem Earliest.snoc_before {l : List UInt64} {next : UInt64} (h : Earliest now l next)
    (h_l : ∀ e ∈ l, timeAfterEq now e = false) (h_d : timeAfterEq now d = false)
    (h_late : ∀ e ∈ l, offset now 0 ≤ offset now e) (h_before : offset now d < offset now 0) :
    Earliest now (l ++ [d]) (later next d) := by
  have h_mem : d ∈ l ++ [d] := List.mem_append_right l List.mem_cons_self
  have h_counted := counted_early h_mem h_before
  have h_later : later next d = d := by
    refine if_pos (or_iff_not_imp_left.mpr fun h_ne => ?_)
    have h_found := mem_of_mem_counted (h.armed h_ne)
    exact (offset_lt_iff (h_l next h_found) h_d).mpr
      (Nat.lt_of_lt_of_le h_before (h_late next h_found))
  rw [h_later]
  refine ⟨fun _ => h_counted.symm ▸ h_mem, ?_⟩
  intro e h_e
  refine ⟨fun h_eq => absurd h_before (h_eq ▸ Nat.lt_irrefl _), ?_⟩
  cases List.mem_append.mp (mem_of_mem_counted h_e) with
  | inl h_old => exact Nat.le_of_lt (Nat.lt_of_lt_of_le h_before (h_late e h_old))
  | inr h_eq => rw [List.mem_singleton.mp h_eq]

/-- A deadline of zero before all that have been found wipes them out. -/
theorem Earliest.snoc_zero {l : List UInt64} {next : UInt64} (h : Earliest now l next)
    (h_l : ∀ e ∈ l, timeAfterEq now e = false) (h_zero : timeAfterEq now 0 = false)
    (h_late : ∀ e ∈ l, offset now 0 ≤ offset now e)
    (h_counted : counted now (l ++ [0]) = []) :
    Earliest now (l ++ [0]) (later next 0) := by
  have h_later : later next 0 = 0 := by
    refine if_pos (or_iff_not_imp_left.mpr fun h_ne => ?_)
    have h_found := mem_of_mem_counted (h.armed h_ne)
    refine (offset_lt_iff (h_l next h_found) h_zero).mpr ?_
    exact Nat.lt_of_le_of_ne (h_late next h_found) fun h_eq => h_ne (offset_inj h_eq).symm
  rw [h_later]
  refine ⟨fun h_ne => absurd rfl h_ne, ?_⟩
  rw [h_counted]
  simp

/-- One more deadline. -/
theorem Earliest.snoc {l : List UInt64} {next : UInt64} (h : Earliest now l next)
    (h_l : ∀ e ∈ l, timeAfterEq now e = false) (h_d : timeAfterEq now d = false) :
    Earliest now (l ++ [d]) (later next d) := by
  by_cases h_early : ∃ e ∈ l, offset now e < offset now 0
  · -- an earlier one has been found, which a deadline of zero does not replace
    obtain ⟨e, h_e, h_lt⟩ := h_early
    have h_old := counted_early h_e h_lt
    obtain ⟨h_some, h_first⟩ := h.first e (by rwa [h_old])
    refine h.snoc_keep h_l h_d ?_ ?_
    · rintro rfl
      exact ⟨h_some, Nat.lt_of_le_of_lt h_first h_lt⟩
    · rw [h_old, counted_early (List.mem_append_left _ h_e) h_lt]
  · have h_late : ∀ e ∈ l, offset now 0 ≤ offset now e := fun e h_e =>
      Nat.not_lt.mp fun h_lt => h_early ⟨e, h_e, h_lt⟩
    by_cases h_before : offset now d < offset now 0
    · exact h.snoc_before h_l h_d h_late h_before
    · have h_all : ∀ e ∈ l ++ [d], offset now 0 ≤ offset now e := by
        intro e h_e
        cases List.mem_append.mp h_e with
        | inl h_old => exact h_late e h_old
        | inr h_eq => exact List.mem_singleton.mp h_eq ▸ Nat.not_lt.mp h_before
      have h_counted := counted_late h_all
      rw [afterZero_snoc] at h_counted
      by_cases h_zero : d = 0
      · -- what has been found is forgotten
        rw [if_pos h_zero] at h_counted
        subst h_zero
        exact h.snoc_zero h_l h_d h_late h_counted
      · refine h.snoc_keep h_l h_d (fun h_eq => absurd h_eq h_zero) ?_
        rw [h_counted, if_neg h_zero, counted_late h_late]

/-! ## Passes -/

section Passes

variable {ρ β : Type}

/-- A loop over requests that the callback may break off. -/
def untilFalse (fn : ρ → β → Bool × β) : List ρ → β → β
  | [], priv => priv
  | rq :: rqs, priv =>
      let r := fn rq priv
      if r.1 then untilFalse fn rqs r.2 else r.2

/-- The bitmaps of a hardware context, each as the requests that are found in it. -/
def hctxPasses (set : BlkMqTagSet ρ) (reqs : ρ → Request) (q : Nat) (hctx : BlkMqHwCtx) :
    List (List ρ) :=
  match hctx.tags with
  | none => []
  | some idx =>
      if hctx.nrCtx = 0 then []
      else if nsqOnly set hctx then []
      else
        [btVisits reqs (set.tags idx) hctx.id q true,
          btVisits reqs (set.tags idx) hctx.id q false]

theorem hctxPasses_flatten (set : BlkMqTagSet ρ) (reqs : ρ → Request) (q : Nat)
    (hctx : BlkMqHwCtx) : (hctxPasses set reqs q hctx).flatten = hctxVisits set reqs q hctx := by
  unfold hctxPasses hctxVisits
  cases hctx.tags with
  | none => rfl
  | some idx =>
      simp only
      split
      · rfl
      · split
        · rfl
        · simp

variable {set : BlkMqTagSet ρ} {reqs : ρ → Request} {tags : BlkMqTags ρ} {hctx : HctxId} {q : Nat}

theorem forEachSet_eq (fn : ρ → β → Bool × β) (reserved : Bool) (bits : List Nat) (priv : β) :
    forEachSet (btIter reqs tags (some hctx) q reserved fn) bits priv =
      untilFalse fn (bits.filterMap (btSelect reqs tags hctx q reserved)) priv := by
  induction bits generalizing priv with
  | nil => rfl
  | cons bitnr bits ih =>
      rw [forEachSet, List.filterMap_cons, btIter, btSelect]
      cases blkMqFindAndGetReq reqs tags (if reserved then bitnr else bitnr + tags.nrReservedTags)
      with
      | none => exact ih priv
      | some rq =>
          by_cases h_rq : (reqs rq).q = q ∧ (reqs rq).mqHctx = hctx
          · have h_rq' : (reqs rq).q = q ∧
                (some hctx = none ∨ some hctx = some (reqs rq).mqHctx) :=
              ⟨h_rq.1, Or.inr (by rw [h_rq.2])⟩
            have h_sel : decide ((reqs rq).q = q ∧ (reqs rq).mqHctx = hctx) = true :=
              decide_eq_true h_rq
            simp only [if_pos h_rq', Option.filter_some, h_sel, if_true, untilFalse, ih]
          · have h_rq' : ¬ ((reqs rq).q = q ∧
                (some hctx = none ∨ some hctx = some (reqs rq).mqHctx)) := by
              rintro ⟨h_q, h_none | h_some⟩
              · cases h_none
              · exact h_rq ⟨h_q, (Option.some.inj h_some).symm⟩
            have h_sel : decide ((reqs rq).q = q ∧ (reqs rq).mqHctx = hctx) = false :=
              decide_eq_false h_rq
            simp only [if_neg h_rq', Option.filter_some, h_sel, if_true, Bool.false_eq_true,
              if_false, ih]

theorem tagsForEach_eq (fn : ρ → β → Bool × β) (priv : β) :
    tagsForEach reqs tags (some hctx) q fn priv =
      untilFalse fn (btVisits reqs tags hctx q false)
        (untilFalse fn (btVisits reqs tags hctx q true) priv) := by
  unfold tagsForEach btForEach
  split
  · rename_i h_zero
    have h_nil : btVisits reqs tags hctx q true = [] := by simp [btVisits, setBits, h_zero]
    rw [h_nil]
    exact forEachSet_eq fn false _ priv
  · simp only [forEachSet_eq]
    rfl

theorem hctxForEach_eq (fn : ρ → β → Bool × β) (priv : β) (hctx : BlkMqHwCtx) :
    hctxForEach set reqs q fn priv hctx =
      (hctxPasses set reqs q hctx).foldl (fun priv rqs => untilFalse fn rqs priv) priv := by
  unfold hctxForEach hctxPasses
  cases hctx.tags with
  | none => rfl
  | some idx =>
      simp only
      split
      · rfl
      · split
        · rfl
        · exact tagsForEach_eq fn priv

/-- `blk_mq_queue_tag_busy_iter`: a callback that returns false ends one bitmap, and the
iteration goes on with the next. -/
theorem blkMqQueueTagBusyIter_eq (fn : ρ → β → Bool × β) (priv : β) {q : RequestQueue}
    (h_usage : q.qUsageCounter ≠ 0) (h_shared : set.sharedTags = none) :
    blkMqQueueTagBusyIter set reqs q fn priv =
      (q.hctxTable.flatMap (hctxPasses set reqs q.id)).foldl
        (fun priv rqs => untilFalse fn rqs priv) priv := by
  rw [blkMqQueueTagBusyIter, if_neg h_usage, h_shared, List.foldl_flatMap]
  simp only [← hctxForEach_eq]

end Passes

/-! ## The two passes -/

section Fold

variable {ρ : Type} {check handle : ρ → Timing} {timeout : Option (ρ → BlkEhTimerReturn)}

/-- What is left of the requests in `rqs` when none has expired. -/
def noteAll (seen : ρ → Timing) (rqs : List ρ) (expired : BlkExpiredData) : BlkExpiredData :=
  rqs.foldl (fun expired rq => (blkMqReqExpired (seen rq) expired).2) expired

theorem noteAll_timeoutStart (seen : ρ → Timing) (rqs : List ρ) (expired : BlkExpiredData) :
    (noteAll seen rqs expired).timeoutStart = expired.timeoutStart := by
  induction rqs generalizing expired with
  | nil => rfl
  | cons rq rqs ih =>
      show (noteAll seen rqs (blkMqReqExpired (seen rq) expired).2).timeoutStart = _
      rw [ih, blkMqReqExpired_snd]

theorem noteAll_hasTimedoutRq (seen : ρ → Timing) (rqs : List ρ) (expired : BlkExpiredData) :
    (noteAll seen rqs expired).hasTimedoutRq = expired.hasTimedoutRq := by
  induction rqs generalizing expired with
  | nil => rfl
  | cons rq rqs ih =>
      show (noteAll seen rqs (blkMqReqExpired (seen rq) expired).2).hasTimedoutRq = _
      rw [ih, blkMqReqExpired_snd]

theorem noteAll_append (seen : ρ → Timing) (rqs rqs' : List ρ) (expired : BlkExpiredData) :
    noteAll seen (rqs ++ rqs') expired = noteAll seen rqs' (noteAll seen rqs expired) :=
  List.foldl_append

/-- The deadlines of the requests in `rqs` that are pending, in the order in which they are
found. -/
def deadlines (now : UInt64) (seen : ρ → Timing) (rqs : List ρ) : List UInt64 :=
  (rqs.filter fun rq => Pending now (seen rq)).map fun rq => (seen rq).deadline

theorem noteAll_earliest {seen : ρ → Timing} {rqs : List ρ} {l : List UInt64}
    (h : Earliest now l expired.next) (h_l : ∀ e ∈ l, timeAfterEq now e = false)
    (h_start : expired.timeoutStart = now) :
    Earliest now (l ++ deadlines now seen rqs) (noteAll seen rqs expired).next := by
  induction rqs generalizing expired l with
  | nil =>
      rw [deadlines, List.filter_nil, List.map_nil, List.append_nil]
      exact h
  | cons rq rqs ih =>
      show Earliest now _ (noteAll seen rqs (blkMqReqExpired (seen rq) expired).2).next
      by_cases h_pending : Pending now (seen rq)
      · have h_list : deadlines now seen (rq :: rqs) =
            (seen rq).deadline :: deadlines now seen rqs := by
          simp [deadlines, h_pending]
        have h_next : (blkMqReqExpired (seen rq) expired).2.next =
            later expired.next (seen rq).deadline := by
          rw [blkMqReqExpired_snd, h_start]
          simp [later, h_pending]
        have h_start' : (blkMqReqExpired (seen rq) expired).2.timeoutStart = now := by
          rw [blkMqReqExpired_snd]
          exact h_start
        have h_found := h.snoc h_l h_pending.2.2
        rw [← h_next] at h_found
        have h_rest := ih h_found
          (by simpa [or_imp, forall_and] using ⟨h_l, h_pending.2.2⟩) h_start'
        rw [h_list]
        rwa [List.append_assoc] at h_rest
      · have h_list : deadlines now seen (rq :: rqs) = deadlines now seen rqs := by
          simp [deadlines, h_pending]
        rw [h_list, blkMqReqExpired_idle (h_start ▸ h_pending)]
        exact ih h h_l h_start

/-- One bitmap of the first pass, in which nothing has expired. -/
theorem untilFalse_check_none {rqs : List ρ} (h_start : expired.timeoutStart = now)
    (h_none : ∀ rq ∈ rqs, ¬ Expired now (check rq)) :
    untilFalse (blkMqCheckExpired check) rqs expired = noteAll check rqs expired := by
  induction rqs generalizing expired with
  | nil => rfl
  | cons rq rqs ih =>
      have h_fst : (blkMqReqExpired (check rq) expired).1 = false := by
        rw [blkMqReqExpired_fst, h_start]
        simpa using h_none rq (by simp)
      have h_start' : (blkMqReqExpired (check rq) expired).2.timeoutStart = now := by
        rw [blkMqReqExpired_snd]
        exact h_start
      have h_check : blkMqCheckExpired check rq expired =
          (true, (blkMqReqExpired (check rq) expired).2) := by
        simp [blkMqCheckExpired, h_fst]
      rw [untilFalse, h_check]
      exact ih h_start' fun r h_r => h_none r (List.mem_cons_of_mem rq h_r)

/-- One bitmap of the first pass: it is broken off at the first request that has expired. -/
theorem untilFalse_check {rqs : List ρ} (h_start : expired.timeoutStart = now) :
    (untilFalse (blkMqCheckExpired check) rqs expired).timeoutStart = now ∧
    ((untilFalse (blkMqCheckExpired check) rqs expired).hasTimedoutRq = true ↔
      expired.hasTimedoutRq = true ∨ ∃ rq ∈ rqs, Expired now (check rq)) := by
  induction rqs generalizing expired with
  | nil => simp [untilFalse, h_start]
  | cons rq rqs ih =>
      have h_fst := blkMqReqExpired_fst (check rq) expired
      have h_snd := blkMqReqExpired_snd (check rq) expired
      rw [h_start] at h_fst
      by_cases h_expired : Expired now (check rq)
      · rw [decide_eq_true h_expired] at h_fst
        have h_check : untilFalse (blkMqCheckExpired check) (rq :: rqs) expired =
            { (blkMqReqExpired (check rq) expired).2 with hasTimedoutRq := true } := by
          simp [untilFalse, blkMqCheckExpired, h_fst]
        rw [h_check, h_snd]
        refine ⟨h_start, ?_⟩
        simp [h_expired]
      · rw [decide_eq_false h_expired] at h_fst
        have h_check : untilFalse (blkMqCheckExpired check) (rq :: rqs) expired =
            untilFalse (blkMqCheckExpired check) rqs (blkMqReqExpired (check rq) expired).2 := by
          simp [untilFalse, blkMqCheckExpired, h_fst]
        have h_start' : (blkMqReqExpired (check rq) expired).2.timeoutStart = now := by
          rw [h_snd]
          exact h_start
        rw [h_check]
        refine ⟨(ih h_start').1, ?_⟩
        rw [(ih h_start').2, h_snd]
        simp [h_expired]

/-- The first pass, over all bitmaps: whether anything has expired. -/
theorem checkPass_hasTimedoutRq {passes : List (List ρ)} (h_start : expired.timeoutStart = now) :
    (passes.foldl (fun e rqs => untilFalse (blkMqCheckExpired check) rqs e)
        expired).hasTimedoutRq = true ↔
      expired.hasTimedoutRq = true ∨ ∃ rq ∈ passes.flatten, Expired now (check rq) := by
  induction passes generalizing expired with
  | nil => simp
  | cons rqs passes ih =>
      obtain ⟨h_start', h_has⟩ := @untilFalse_check now expired ρ check rqs h_start
      rw [List.foldl_cons, ih h_start', h_has, or_assoc]
      simp only [List.flatten_cons, List.mem_append, or_and_right, exists_or]

theorem checkPass_timeoutStart {passes : List (List ρ)} (h_start : expired.timeoutStart = now) :
    (passes.foldl (fun e rqs => untilFalse (blkMqCheckExpired check) rqs e)
      expired).timeoutStart = now := by
  induction passes generalizing expired with
  | nil => exact h_start
  | cons rqs passes ih => exact ih (untilFalse_check h_start).1

/-- Nothing has expired, and every request has been looked at. -/
theorem checkPass_none {passes : List (List ρ)} (h_start : expired.timeoutStart = now)
    (h_none : ∀ rq ∈ passes.flatten, ¬ Expired now (check rq)) :
    passes.foldl (fun e rqs => untilFalse (blkMqCheckExpired check) rqs e) expired =
      noteAll check passes.flatten expired := by
  induction passes generalizing expired with
  | nil => rfl
  | cons rqs passes ih =>
      have h_rqs : ∀ rq ∈ rqs, ¬ Expired now (check rq) := fun rq h_rq =>
        h_none rq (by simp [h_rq])
      have h_start' : (noteAll check rqs expired).timeoutStart = now := by
        rw [noteAll_timeoutStart]
        exact h_start
      rw [List.foldl_cons, untilFalse_check_none h_start h_rqs, List.flatten_cons, noteAll_append]
      refine ih h_start' fun rq h_rq => h_none rq ?_
      rw [List.flatten_cons]
      exact List.mem_append_right rqs h_rq

/-- The requests in `rqs` that are handed over. -/
def expiredOf (now : UInt64) (seen : ρ → Timing) (rqs : List ρ) : List ρ :=
  rqs.filter fun rq => Expired now (seen rq)

/-- One bitmap of the second pass, which nothing breaks off. -/
theorem untilFalse_handle {rqs : List ρ} {actions : List (Action ρ)}
    (h_start : expired.timeoutStart = now) :
    untilFalse (blkMqHandleExpired timeout handle) rqs (expired, actions) =
      (noteAll handle rqs expired,
        actions ++ (expiredOf now handle rqs).flatMap (blkMqRqTimedOut timeout)) := by
  induction rqs generalizing expired actions with
  | nil => simp [untilFalse, noteAll, expiredOf]
  | cons rq rqs ih =>
      have h_fst := blkMqReqExpired_fst (handle rq) expired
      have h_start' : (blkMqReqExpired (handle rq) expired).2.timeoutStart = now := by
        rw [blkMqReqExpired_snd]
        exact h_start
      rw [h_start] at h_fst
      show untilFalse (blkMqHandleExpired timeout handle) rqs
        ((blkMqReqExpired (handle rq) expired).2, if _ then _ else actions) = _
      rw [ih h_start', h_fst]
      by_cases h_expired : Expired now (handle rq)
      · simp [noteAll, expiredOf, h_expired]
      · simp [noteAll, expiredOf, h_expired]

theorem handlePass {passes : List (List ρ)} {actions : List (Action ρ)}
    (h_start : expired.timeoutStart = now) :
    passes.foldl (fun e rqs => untilFalse (blkMqHandleExpired timeout handle) rqs e)
        (expired, actions) =
      (noteAll handle passes.flatten expired,
        actions ++ (expiredOf now handle passes.flatten).flatMap (blkMqRqTimedOut timeout)) := by
  induction passes generalizing expired actions with
  | nil => simp [noteAll, expiredOf]
  | cons rqs passes ih =>
      have h_start' : (noteAll handle rqs expired).timeoutStart = now := by
        rw [noteAll_timeoutStart]
        exact h_start
      rw [List.foldl_cons, untilFalse_handle h_start, ih h_start', List.flatten_cons,
        noteAll_append]
      simp [expiredOf]

end Fold

/-! ## A queue of a blex tag set -/

section Blex

variable {ρ : Type} {L : QueueLayout} (B : BlexQueue ρ L)

/-- The requests that the timeout work comes to: those that hold a tag, through an NCQ. -/
def Seen (rq : ρ) : Prop :=
  HoldsTag B.reqs B.q.id rq ∧
    blkBlexHasCq ((B.reqs rq).mqHctx.queueNum + 1) L.toBlkBlexDevInfo = true

/-- The bitmaps of all hardware contexts of the queue. -/
def passes : List (List ρ) := B.q.hctxTable.flatMap (hctxPasses B.set B.reqs B.q.id)

theorem passes_flatten :
    (passes B).flatten = B.q.hctxTable.flatMap (hctxVisits B.set B.reqs B.q.id) := by
  unfold passes
  induction B.q.hctxTable with
  | nil => rfl
  | cons hctx hctxs ih =>
      simp only [List.flatMap_cons, List.flatten_append, ih, hctxPasses_flatten]

variable {B}

theorem passes_flatten_eq (h_usage : B.q.qUsageCounter ≠ 0) :
    (passes B).flatten = busyIterCalls B.set B.reqs B.q (fun _ _ => (true, ())) () := by
  have h_calls := @busyIterCalls_eq ρ Unit B.set B.reqs (fun _ _ => (true, ())) (fun _ _ => rfl)
    B.q h_usage B.sharedTags_eq ()
  rw [h_calls, passes_flatten]

theorem mem_passes (h_usage : B.q.qUsageCounter ≠ 0) {rq : ρ} :
    rq ∈ (passes B).flatten ↔ Seen B rq := by
  rw [passes_flatten_eq h_usage]
  exact B.mem_busyIterCalls (fun _ _ => rfl) () rq

/-- The timer goes off with the earliest of the deadlines `l` that count, and is left alone if
there is none. -/
structure TimerSet (now : UInt64) (l : List UInt64) (timer : Option UInt64) : Prop where
  armed : ∀ d, timer = some d → d ∈ counted now l
  first : ∀ d ∈ counted now l, ∃ e, timer = some e ∧ offset now e ≤ offset now d

theorem Earliest.timerSet {l : List UInt64} {next : UInt64} (h : Earliest now l next) :
    TimerSet now l (if next ≠ 0 then some next else none) where
  armed := by
    intro d h_d
    obtain ⟨h_next, h_eq⟩ := Option.ite_none_right_eq_some.mp h_d
    cases h_eq
    exact h.armed h_next
  first := by
    intro d h_d
    obtain ⟨h_next, h_first⟩ := h.first d h_d
    exact ⟨next, if_pos h_next, h_first⟩

/-- The requests that a pass comes to, in order, when nothing breaks it off. -/
def found (B : BlexQueue ρ L) : List ρ :=
  busyIterCalls B.set B.reqs B.q (fun _ _ => (true, ())) ()

theorem mem_found {rq : ρ} : rq ∈ found B ↔ Seen B rq :=
  B.mem_busyIterCalls (fun _ _ => rfl) () rq

theorem found_nodup : (found B).Nodup := B.busyIterCalls_nodup (fun _ _ => rfl) ()

/-- The timeout work, whatever the two passes find: nothing is handed over unless the first finds
a request that has expired; then all that have expired when the second comes to them are, in the
order in which it does; and the timer is set for the rest. -/
theorem blkMqTimeoutWork_blex (B : BlexQueue ρ L) (timeout : Option (ρ → BlkEhTimerReturn))
    (jiffies : UInt64) (check handle : ρ → Timing) :
    let out := blkMqTimeoutWork B.set B.reqs B.q timeout jiffies check handle
    (found B).Nodup ∧ (∀ rq, rq ∈ found B ↔ Seen B rq) ∧
    ((∀ rq, Seen B rq → ¬ Expired jiffies (check rq)) →
      out.actions = [] ∧ TimerSet jiffies (deadlines jiffies check (found B)) out.timer) ∧
    ((∃ rq, Seen B rq ∧ Expired jiffies (check rq)) →
      out.actions = (expiredOf jiffies handle (found B)).flatMap (blkMqRqTimedOut timeout) ∧
        TimerSet jiffies (deadlines jiffies handle (found B)) out.timer) := by
  intro out
  refine ⟨found_nodup, fun rq => mem_found, ?_⟩
  by_cases h_usage : B.q.qUsageCounter = 0
  · have h_unseen : ∀ rq, ¬ Seen B rq := fun rq h => B.usage rq h.1 h_usage
    have h_found : found B = [] := List.eq_nil_iff_forall_not_mem.mpr fun rq h_rq =>
      h_unseen rq (mem_found.mp h_rq)
    have h_out : out = ⟨[], none, []⟩ := if_pos h_usage
    rw [h_out, h_found]
    refine ⟨fun _ => ⟨rfl, (Earliest.nil jiffies).timerSet⟩, ?_⟩
    rintro ⟨rq, h_rq, -⟩
    exact absurd h_rq (h_unseen rq)
  · have h_iter : ∀ {β : Type} (fn : ρ → β → Bool × β) (priv : β),
        blkMqQueueTagBusyIter B.set B.reqs B.q fn priv =
          (passes B).foldl (fun priv rqs => untilFalse fn rqs priv) priv := fun fn priv =>
      blkMqQueueTagBusyIter_eq fn priv h_usage B.sharedTags_eq
    have h_out : out = blkMqTimeoutWork B.set B.reqs B.q timeout jiffies check handle := rfl
    simp only [blkMqTimeoutWork, if_neg h_usage, h_iter] at h_out
    have h_has := @checkPass_hasTimedoutRq jiffies ⟨false, 0, jiffies⟩ ρ check (passes B) rfl
    have h_earliest (seen : ρ → Timing) {expired : BlkExpiredData}
        (h_start : expired.timeoutStart = jiffies) (h_next : expired.next = 0) :
        Earliest jiffies (deadlines jiffies seen (found B))
          (noteAll seen (passes B).flatten expired).next := by
      rw [passes_flatten_eq h_usage]
      have h_nil : Earliest jiffies [] expired.next := h_next ▸ Earliest.nil jiffies
      exact noteAll_earliest h_nil (fun _ h => absurd h List.not_mem_nil) h_start
    refine ⟨?_, ?_⟩
    · intro h_none
      have h_none' : ∀ rq ∈ (passes B).flatten, ¬ Expired jiffies (check rq) := fun rq h_rq =>
        h_none rq ((mem_passes h_usage).mp h_rq)
      have h_first := @h_earliest check ⟨false, 0, jiffies⟩ rfl rfl
      have h_flag := noteAll_hasTimedoutRq check (passes B).flatten ⟨false, 0, jiffies⟩
      rw [@checkPass_none jiffies ⟨false, 0, jiffies⟩ _ _ _ rfl h_none'] at h_out
      simp only [h_flag, Bool.false_eq_true, if_false] at h_out
      have h_timer := h_first.timerSet
      rw [h_out]
      split
      · rename_i h_next
        rw [if_pos h_next] at h_timer
        exact ⟨rfl, h_timer⟩
      · rename_i h_next
        rw [if_neg h_next] at h_timer
        exact ⟨rfl, h_timer⟩
    · rintro ⟨rq, h_rq, h_expired⟩
      have h_late := h_has.mpr (Or.inr ⟨rq, (mem_passes h_usage).mpr h_rq, h_expired⟩)
      have h_start : ((passes B).foldl (fun e rqs => untilFalse (blkMqCheckExpired check) rqs e)
          ⟨false, 0, jiffies⟩).timeoutStart = jiffies := checkPass_timeoutStart rfl
      simp only [if_pos h_late] at h_out
      generalize (passes B).foldl (fun e rqs => untilFalse (blkMqCheckExpired check) rqs e)
        ⟨false, 0, jiffies⟩ = left at h_start h_out
      have h_again : ({ left with next := 0 } : BlkExpiredData).timeoutStart = jiffies := h_start
      have h_timer := (h_earliest handle h_again rfl).timerSet
      rw [handlePass h_again, List.nil_append, passes_flatten_eq h_usage] at h_out
      rw [passes_flatten_eq h_usage] at h_timer
      rw [h_out]
      split
      · rename_i h_next
        rw [if_pos h_next] at h_timer
        exact ⟨rfl, h_timer⟩
      · rename_i h_next
        rw [if_neg h_next] at h_timer
        exact ⟨rfl, h_timer⟩

/-- A request whose deadline is zero, shortly before `jiffies` wrap: the timer is left alone. -/
example :
    let B := BlexQueue.oneRequest 0 (by decide)
    blkMqTimeoutWork B.set B.reqs B.q none 18446744073709551606 (fun _ => ⟨.inFlight, false, 0⟩)
      (fun _ => ⟨.inFlight, false, 0⟩) = ⟨[], none, [⟨5, 0⟩, ⟨5, 1⟩]⟩ := by
  decide

end Blex

end Daredevil.Timeout
