/-
  Daredevil.Sched.MapRace

  Concurrent `blk_blex_set_maps` and `blk_blex_clear_maps` on one CPU and eNQ: any
  number of calls, each access of the xarray, the counter and the CPU mask a step of
  its own.  There is no lock, so a call can write after the value that it loaded, or
  the bit that it set, has changed: `counts_exact` says for which runs the maps are
  right at the end.

  A call that nobody disturbs does what `Sched.UsageMap` says of it (`setMaps_alone`,
  `clearMaps_alone`).
-/
import Daredevil.Lib.Lts
import Daredevil.Sched.UsageMap
import Mathlib.Algebra.BigOperators.Group.Multiset.Basic

namespace Daredevil

namespace Sched.MapRace

/-! ## Calls and their steps -/

/-- What the calls share. -/
structure Maps where
  /-- the entry of the eNQ in the CPU's `xa_nsq_map` -/
  stored : Option Nat
  nrInUse : Int
  /-- the CPU's bit in `claimed_core_cpumask` -/
  claimed : Bool
  deriving DecidableEq

/-- The next access of a call; `v` is what it has loaded. -/
inductive Call where
  | setMask
  | setLoad
  | setInc
  | setFirst
  | setMore (v : Nat)
  | clearLoad
  | clearUnused
  | clearOne (v : Nat)
  | clearMask (v : Nat)
  | clearDec (v : Nat)
  | clearErase (v : Nat)
  deriving DecidableEq

/-- One access, and the next one of the call. -/
def callStep (m : Maps) : Call → Maps × Option Call
  -- `blk_blex_set_maps`
  | .setMask => ({ m with claimed := true }, some .setLoad)
  | .setLoad =>
      match m.stored with
      | none => (m, some .setInc)
      | some v => (m, some (.setMore v))
  | .setInc => ({ m with nrInUse := m.nrInUse + 1 }, some .setFirst)
  | .setFirst => ({ m with stored := some 1 }, none)
  | .setMore v => ({ m with stored := some (v + 1) }, none)
  -- `blk_blex_clear_maps`
  | .clearLoad =>
      match m.stored with
      | none => (m, some .clearUnused)
      | some v => (m, some (if 1 < v then .clearOne v else .clearMask v))
  | .clearUnused => ({ m with claimed := false }, none)
  | .clearOne v => ({ m with stored := some (v - 1) }, none)
  | .clearMask v => ({ m with claimed := false }, some (.clearDec v))
  | .clearDec v => ({ m with nrInUse := m.nrInUse - 1 }, some (.clearErase v))
  | .clearErase _ => ({ m with stored := none }, none)

def Call.isClear : Call → Bool
  | .clearLoad | .clearUnused | .clearOne _ | .clearMask _ | .clearDec _ | .clearErase _ => true
  | .setMask | .setLoad | .setInc | .setFirst | .setMore _ => false

structure State where
  maps : Maps
  /-- the calls in progress -/
  calls : Multiset Call
  /-- `blk_blex_set_maps` calls that have finished -/
  sets : Nat
  /-- `blk_blex_clear_maps` calls that have started -/
  clears : Nat

inductive Event where
  | set
  | clear
  | step (call : Call)

def goOn (next : Option Call) (others : Multiset Call) : Multiset Call :=
  match next with
  | none => others
  | some call => call ::ₘ others

def step (s : State) : Event → Option State
  | .set => some { s with calls := .setMask ::ₘ s.calls }
  | .clear =>
      -- never more clears started than sets finished
      if s.clears < s.sets then
        some { s with calls := .clearLoad ::ₘ s.calls, clears := s.clears + 1 }
      else none
  | .step call =>
      if call ∈ s.calls then
        let r := callStep s.maps call
        some { s with
          maps := r.1
          calls := goOn r.2 (s.calls.erase call)
          sets := if r.2 = none ∧ call.isClear = false then s.sets + 1 else s.sets }
      else none

/-- The eNQ is not in use on the CPU, which uses `base` others. -/
def Init (base : Int) (s : State) : Prop := s = ⟨⟨none, base, false⟩, 0, 0, 0⟩

/-! ## A call alone -/

/-- The maps after the call has finished, if no other call is in progress. -/
def alone (m : Maps) (call : Call) : Nat → Maps
  | 0 => m
  | n + 1 =>
      match callStep m call with
      | (m', none) => m'
      | (m', some next) => alone m' next n

/-- What the calls on a CPU and an eNQ see of the regulator. -/
def mapsOf (reg : NqRegulator) (cpu nqid : Nat) : Maps where
  stored := reg.usage (cpu, nqid)
  nrInUse := (reg.nsqMaps cpu).nrInUse
  claimed := cpu ∈ reg.cpumask nqid

variable {L : QueueLayout} {reg reg' : NqRegulator} {cpu nqid : Nat}

/-- What an update of a map changes for the calls. -/
theorem mapsOf_setNsqMap (reg : NqRegulator) (nmap : NsqMap) :
    mapsOf (reg.setNsqMap cpu nmap) cpu nqid =
      ⟨nmap.xaNsqMap nqid, nmap.nrInUse, cpu ∈ reg.cpumask nqid⟩ := by
  have h_map : (reg.setNsqMap cpu nmap).nsqMaps cpu = nmap := by
    show Function.update reg.nsqMaps cpu nmap cpu = nmap
    rw [Function.update_self]
  rw [mapsOf, NqRegulator.usage, h_map]
  rfl

theorem cpumask_setCpumask_self (reg : NqRegulator) (mask : Finset Nat) :
    (reg.setCpumask nqid mask).cpumask nqid = mask := by
  rw [cpumask_setCpumask, Function.update_self]

theorem setMaps_alone (h : RegWf L reg) (h_set : blkBlexSetMaps reg cpu nqid = some reg') :
    mapsOf reg' cpu nqid = alone (mapsOf reg cpu nqid) .setMask 4 := by
  obtain ⟨-, rfl⟩ := setMaps_spec h h_set
  rw [NqRegulator.claim, mapsOf_setNsqMap, cpumask_setCpumask_self,
    decide_eq_true (Finset.mem_insert_self cpu _)]
  rcases Option.eq_none_or_eq_some ((reg.nsqMaps cpu).xaNsqMap nqid) with h_v | ⟨v, h_v⟩
  · have h_stored : (mapsOf reg cpu nqid).stored = none := h_v
    simp only [alone, callStep, h_stored, NsqMap.take_none h_v, Function.update_self]
    rfl
  · have h_stored : (mapsOf reg cpu nqid).stored = some v := h_v
    simp only [alone, callStep, h_stored, NsqMap.take_some h_v, Function.update_self]
    rfl

theorem clearMaps_alone (h : RegWf L reg) (h_clear : blkBlexClearMaps reg cpu nqid = some reg') :
    mapsOf reg' cpu nqid = alone (mapsOf reg cpu nqid) .clearLoad 4 := by
  obtain ⟨-, rfl⟩ := clearMaps_spec h h_clear
  rw [NqRegulator.release, mapsOf_setNsqMap, cpumask_setCpumask_self]
  rcases Option.eq_none_or_eq_some ((reg.nsqMaps cpu).xaNsqMap nqid) with h_v | ⟨v, h_v⟩
  · have h_stored : (mapsOf reg cpu nqid).stored = none := h_v
    simp only [alone, callStep, h_stored, RefCount.stored_of_none h_v, NsqMap.drop_none h_v,
      if_neg (Nat.not_lt_zero 1), decide_eq_false (Finset.notMem_erase cpu _), h_v]
    rfl
  · have h_stored : (mapsOf reg cpu nqid).stored = some v := h_v
    rw [RefCount.stored_of_some h_v, NsqMap.drop_some h_v]
    by_cases h_many : 1 < v
    · simp only [alone, callStep, h_stored, if_pos h_many, Function.update_self]
      rfl
    · simp only [alone, callStep, h_stored, if_neg h_many, Function.update_self,
        decide_eq_false (Finset.notMem_erase cpu _)]
      rfl

/-! ## Runs in which nothing is lost -/

/-- Between setting the bit and storing the count. -/
def Call.setting : Call → Bool
  | .setLoad | .setInc | .setFirst | .setMore _ => true
  | _ => false

/-- Between clearing the bit and erasing the count. -/
def Call.clearing : Call → Bool
  | .clearDec _ | .clearErase _ => true
  | _ => false

/-- A call writes the count only if it is the one that it loaded, a clear clears the bit only with
no set between its bit and its count, and does not erase the count of a bit that was set again. -/
def Fresh (s : State) : Event → Prop
  | .step .setFirst => s.maps.stored = none
  | .step (.setMore v) | .step (.clearOne v) => s.maps.stored = some v
  | .step (.clearMask _) => ∀ call ∈ s.calls, call.setting = false
  | .step (.clearErase v) => s.maps.stored = some v ∧
      (s.maps.claimed = true → ∃ call ∈ s.calls, call.setting = true)
  | _ => True

/-! ## The invariant -/

/-- What a call has loaded fits the way that it took. -/
def Call.Ok : Call → Prop
  | .clearUnused => False
  | .clearOne v => 1 < v
  | .clearMask v | .clearDec v | .clearErase v => v = 1
  | _ => True

/-- What a call has done to `nr_in_use` that does not show in the count yet. -/
def Call.ahead : Call → Int
  | .setFirst => 1
  | .clearErase _ => -1
  | _ => 0

/-- Is the eNQ in use? -/
def Maps.used (m : Maps) : Int := if m.stored = none then 0 else 1

/-- The clears in progress. -/
def pending (calls : Multiset Call) : Nat := (calls.map fun call => call.isClear.toNat).sum

def ahead (calls : Multiset Call) : Int := (calls.map Call.ahead).sum

@[simp] theorem pending_cons (call : Call) (calls : Multiset Call) :
    pending (call ::ₘ calls) = call.isClear.toNat + pending calls := by
  rw [pending, Multiset.map_cons, Multiset.sum_cons, pending]

@[simp] theorem ahead_cons (call : Call) (calls : Multiset Call) :
    ahead (call ::ₘ calls) = call.ahead + ahead calls := by
  rw [ahead, Multiset.map_cons, Multiset.sum_cons, ahead]

structure Inv (base : Int) (m : Maps) (calls : Multiset Call) (sets clears : Nat) : Prop where
  pos : m.stored ≠ some 0
  ok : ∀ call ∈ calls, call.Ok
  paired : clears ≤ sets
  /-- a clear counts until it has finished -/
  count : m.stored.getD 0 + clears = sets + pending calls
  inUse : m.nrInUse = base + m.used + ahead calls
  setting : ∀ call ∈ calls, call.setting = true → m.claimed = true
  claimed : (∀ call ∈ calls, call.setting = false ∧ call.clearing = false) →
    (m.claimed = true ↔ m.stored ≠ none)

variable {base : Int} {m : Maps} {others : Multiset Call} {sets clears : Nat} {s s' : State}

/-- With a set or a clear between its bit and its count, nothing is said of the bit. -/
theorem not_quiet {call : Call} (h_busy : call.setting = true ∨ call.clearing = true)
    {P : Prop} (h : ∀ c ∈ call ::ₘ others, c.setting = false ∧ c.clearing = false) : P := by
  obtain ⟨h_setting, h_clearing⟩ := h call (Multiset.mem_cons_self call others)
  rw [h_setting, h_clearing] at h_busy
  rcases h_busy with h | h <;> cases h

/-- An access after which the call goes on and the count is as before. -/
theorem Inv.proceed {call next : Call} {m' : Maps} (h : Inv base m (call ::ₘ others) sets clears)
    (h_stored : m'.stored = m.stored) (h_kind : next.isClear = call.isClear) (h_next : next.Ok)
    (h_nr : m'.nrInUse - next.ahead = m.nrInUse - call.ahead)
    (h_setting : ∀ c ∈ next ::ₘ others, c.setting = true → m'.claimed = true)
    (h_claimed : (∀ c ∈ next ::ₘ others, c.setting = false ∧ c.clearing = false) →
      (m'.claimed = true ↔ m.stored ≠ none)) :
    Inv base m' (next ::ₘ others) sets clears := by
  have h_inUse := h.inUse
  have h_used : m'.used = m.used := by rw [Maps.used, Maps.used, h_stored]
  refine ⟨h_stored ▸ h.pos, ?_, h.paired, ?_, ?_, h_setting, h_stored ▸ h_claimed⟩
  · exact Multiset.forall_mem_cons.mpr ⟨h_next, (Multiset.forall_mem_cons.mp h.ok).2⟩
  · rw [h_stored, pending_cons, h_kind, ← pending_cons]
    exact h.count
  · rw [ahead_cons] at h_inUse ⊢
    omega

/-- The last access of a call, which changes the count. -/
theorem Inv.finish {call : Call} {m' : Maps} {sets' : Nat}
    (h : Inv base m (call ::ₘ others) sets clears) (h_pos : m'.stored ≠ some 0)
    (h_sets : sets ≤ sets')
    (h_count : m'.stored.getD 0 + sets + call.isClear.toNat = m.stored.getD 0 + sets')
    (h_nr : m'.nrInUse - m'.used = m.nrInUse - m.used - call.ahead)
    (h_setting : ∀ c ∈ others, c.setting = true → m'.claimed = true)
    (h_claimed : (∀ c ∈ others, c.setting = false ∧ c.clearing = false) →
      (m'.claimed = true ↔ m'.stored ≠ none)) :
    Inv base m' others sets' clears := by
  have h_old := h.count
  have h_inUse := h.inUse
  rw [pending_cons] at h_old
  rw [ahead_cons] at h_inUse
  refine ⟨h_pos, (Multiset.forall_mem_cons.mp h.ok).2, h.paired.trans h_sets, ?_, ?_, h_setting,
    h_claimed⟩ <;> omega

theorem used_of_some {v : Nat} (h : m.stored = some v) : m.used = 1 := by
  rw [Maps.used, h]
  rfl

theorem used_of_none (h : m.stored = none) : m.used = 0 := by
  rw [Maps.used, h]
  rfl

/-- One access of a set. -/
theorem Inv.setStep {call : Call} (h_set : call.isClear = false)
    (h : Inv base m (call ::ₘ others) sets clears)
    (h_fresh : Fresh ⟨m, call ::ₘ others, sets, clears⟩ (.step call)) :
    Inv base (callStep m call).1 (goOn (callStep m call).2 others)
      (if (callStep m call).2 = none then sets + 1 else sets) clears := by
  -- a set has set the bit before anything else
  obtain ⟨h_bit, h_setting⟩ := Multiset.forall_mem_cons.mp h.setting
  cases call with
  | setMask =>
      exact h.proceed rfl rfl trivial rfl (fun _ _ _ => rfl) (not_quiet (.inl rfl))
  | setLoad =>
      cases h_v : m.stored with
      | none =>
          simp only [callStep, h_v]
          exact h.proceed rfl rfl trivial rfl (fun _ _ _ => h_bit rfl) (not_quiet (.inl rfl))
      | some v =>
          simp only [callStep, h_v]
          exact h.proceed rfl rfl trivial rfl (fun _ _ _ => h_bit rfl) (not_quiet (.inl rfl))
  | setInc =>
      refine h.proceed rfl rfl trivial ?_ (fun _ _ _ => h_bit rfl)
        (not_quiet (.inl rfl))
      change m.nrInUse + 1 - 1 = m.nrInUse - 0
      omega
  | setFirst =>
      have h_none : m.stored = none := h_fresh
      refine h.finish (fun h => by cases h) (Nat.le_succ sets) ?_ ?_ h_setting
        fun _ => iff_of_true (h_bit rfl) (fun h => by cases h)
      · rw [h_none]
        change 1 + sets + 0 = 0 + (sets + 1)
        omega
      · rw [used_of_none h_none]
        change m.nrInUse - 1 = m.nrInUse - 0 - 1
        omega
  | setMore v =>
      have h_some : m.stored = some v := h_fresh
      refine h.finish (fun h => by cases h) (Nat.le_succ sets) ?_ ?_ h_setting
        fun _ => iff_of_true (h_bit rfl) (fun h => by cases h)
      · rw [h_some]
        change v + 1 + sets + 0 = v + (sets + 1)
        omega
      · rw [used_of_some h_some]
        change m.nrInUse - 1 = m.nrInUse - 1 - 0
        omega
  | _ => cases h_set

/-- One access of a clear. -/
theorem Inv.clearStep {call : Call} (h_clear : call.isClear = true)
    (h : Inv base m (call ::ₘ others) sets clears)
    (h_fresh : Fresh ⟨m, call ::ₘ others, sets, clears⟩ (.step call)) :
    Inv base (callStep m call).1 (goOn (callStep m call).2 others) sets clears := by
  obtain ⟨h_ok, -⟩ := Multiset.forall_mem_cons.mp h.ok
  obtain ⟨-, h_setting⟩ := Multiset.forall_mem_cons.mp h.setting
  -- without sets and clears under way, the bit is as it was before the call
  have h_quiet (h_call : call.setting = false ∧ call.clearing = false)
      (h_others : ∀ c ∈ others, c.setting = false ∧ c.clearing = false) :
      m.claimed = true ↔ m.stored ≠ none :=
    h.claimed (Multiset.forall_mem_cons.mpr ⟨h_call, h_others⟩)
  cases call with
  | clearLoad =>
      have h_calm {next : Call} (h_all : ∀ c ∈ next ::ₘ others,
          c.setting = false ∧ c.clearing = false) : m.claimed = true ↔ m.stored ≠ none :=
        h_quiet ⟨rfl, rfl⟩ (Multiset.forall_mem_cons.mp h_all).2
      have h_count := h.count
      rw [pending_cons] at h_count
      cases h_v : m.stored with
      | none =>
          -- a set has finished for this clear
          rw [h_v] at h_count
          have h_paired := h.paired
          change 0 + clears = sets + (1 + pending others) at h_count
          omega
      | some v =>
          simp only [callStep, h_v]
          split
          case isTrue h_many =>
            exact h.proceed rfl rfl h_many rfl
              (Multiset.forall_mem_cons.mpr ⟨(fun h => by cases h), h_setting⟩) h_calm
          case isFalse h_few =>
            have h_one : v = 1 := by
              have h_pos : v ≠ 0 := fun h_zero => h.pos (h_zero ▸ h_v)
              omega
            exact h.proceed rfl rfl h_one rfl
              (Multiset.forall_mem_cons.mpr ⟨(fun h => by cases h), h_setting⟩) h_calm
  | clearUnused => cases h_ok
  | clearOne v =>
      have h_some : m.stored = some v := h_fresh
      have h_many : 1 < v := h_ok
      refine h.finish ?_ (Nat.le_refl sets) ?_ ?_ h_setting fun h_others => ?_
      · change some (v - 1) ≠ some 0
        rw [ne_eq, Option.some.injEq]
        omega
      · rw [h_some]
        change v - 1 + sets + 1 = v + sets
        omega
      · rw [used_of_some h_some]
        change m.nrInUse - 1 = m.nrInUse - 1 - 0
        omega
      · exact (h_quiet ⟨rfl, rfl⟩ h_others).trans
          (iff_of_true (by rw [h_some]; exact Option.some_ne_none v) (Option.some_ne_none _))
  | clearMask v =>
      refine h.proceed rfl rfl h_ok rfl ?_ (not_quiet (.inr rfl))
      refine Multiset.forall_mem_cons.mpr ⟨(fun h => by cases h), fun c h_c h_set => ?_⟩
      cases (h_fresh c (Multiset.mem_cons_of_mem h_c)).symm.trans h_set
  | clearDec v =>
      refine h.proceed rfl rfl h_ok ?_ ?_ (not_quiet (.inr rfl))
      · change m.nrInUse - 1 - -1 = m.nrInUse - 0
        omega
      · exact Multiset.forall_mem_cons.mpr ⟨(fun h => by cases h), h_setting⟩
  | clearErase v =>
      obtain ⟨h_some, h_again⟩ := h_fresh
      have h_some : m.stored = some v := h_some
      have h_one : v = 1 := h_ok
      refine h.finish (fun h => by cases h) (Nat.le_refl sets) ?_ ?_ h_setting fun h_others => ?_
      · rw [h_some]
        change 0 + sets + 1 = v + sets
        omega
      · rw [used_of_some h_some]
        change m.nrInUse - 0 = m.nrInUse - 1 - -1
        omega
      · -- a bit that is set again is the bit of a set in progress
        refine iff_of_false (fun h_bit => ?_) (fun h_ne => h_ne rfl)
        obtain ⟨c, h_c, h_set⟩ := h_again h_bit
        rcases Multiset.mem_cons.mp h_c with rfl | h_c
        · cases h_set
        · cases (h_others c h_c).1.symm.trans h_set
  | _ => cases h_clear

/-- A call starts. -/
theorem Inv.start {call : Call} (h : Inv base m others sets clears) (h_ok : call.Ok)
    (h_ahead : call.ahead = 0) (h_quiet : call.setting = false ∧ call.clearing = false)
    (h_paired : clears + call.isClear.toNat ≤ sets) :
    Inv base m (call ::ₘ others) sets (clears + call.isClear.toNat) := by
  have h_count := h.count
  refine ⟨h.pos, Multiset.forall_mem_cons.mpr ⟨h_ok, h.ok⟩, h_paired, ?_, ?_, ?_, ?_⟩
  · rw [pending_cons]
    omega
  · rw [ahead_cons, h_ahead, Int.zero_add]
    exact h.inUse
  · refine Multiset.forall_mem_cons.mpr ⟨fun h_set => ?_, h.setting⟩
    cases h_quiet.1.symm.trans h_set
  · exact fun h_all => h.claimed (Multiset.forall_mem_cons.mp h_all).2

theorem Inv.next {e : Event} (h : Inv base s.maps s.calls s.sets s.clears) (h_fresh : Fresh s e)
    (h_step : step s e = some s') : Inv base s'.maps s'.calls s'.sets s'.clears := by
  cases e with
  | set =>
      cases h_step
      exact h.start trivial rfl ⟨rfl, rfl⟩ h.paired
  | clear =>
      obtain ⟨h_lt, h_eq⟩ := Option.ite_none_right_eq_some.mp h_step
      cases h_eq
      exact h.start trivial rfl ⟨rfl, rfl⟩ h_lt
  | step call =>
      obtain ⟨h_mem, h_eq⟩ := Option.ite_none_right_eq_some.mp h_step
      cases h_eq
      obtain ⟨m, calls, sets, clears⟩ := s
      obtain ⟨others, rfl⟩ := Multiset.exists_cons_of_mem h_mem
      dsimp only
      rw [Multiset.erase_cons_head]
      cases h_kind : call.isClear with
      | false =>
          simp only [and_true]
          exact h.setStep h_kind h_fresh
      | true =>
          rw [if_neg (fun h_and => by cases h_and.2)]
          exact h.clearStep h_kind h_fresh

/-- In a run in which no call acts on a count or a bit that has changed, the maps are right when
all the calls have finished. -/
theorem counts_exact (h : Lts.Reach step Fresh (Init base) s) (h_done : s.calls = 0) :
    s.maps.stored.getD 0 + s.clears = s.sets ∧
      s.maps.nrInUse = base + (if s.maps.stored.getD 0 = 0 then 0 else 1) ∧
      (s.maps.claimed = true ↔ s.maps.stored.getD 0 ≠ 0) := by
  have h_inv : Inv base s.maps s.calls s.sets s.clears := by
    refine h.invariant (I := fun s => Inv base s.maps s.calls s.sets s.clears) ?_
      (fun _ _ _ h_inv h_fresh h_step => h_inv.next h_fresh h_step)
    rintro s rfl
    have h_none (c : Call) : c ∉ (0 : Multiset Call) := Multiset.notMem_zero c
    exact ⟨(fun h => by cases h), fun c h_c => absurd h_c (h_none c), Nat.le_refl 0, rfl,
      (by change base = base + 0 + 0; omega), fun c h_c => absurd h_c (h_none c),
      fun _ => iff_of_false (fun h => by cases h) (fun h => h rfl)⟩
  obtain ⟨h_pos, -, -, h_count, h_inUse, -, h_claimed⟩ := h_inv
  rw [h_done] at h_count h_inUse h_claimed
  have h_zero : s.maps.stored.getD 0 = 0 ↔ s.maps.stored = none := by
    cases h_v : s.maps.stored with
    | none => exact iff_of_true rfl rfl
    | some v =>
        refine iff_of_false (fun h => ?_) (Option.some_ne_none v)
        exact h_pos (by rw [h_v, ← h]; rfl)
  refine ⟨h_count, ?_, ?_⟩
  · simp only [h_zero]
    exact h_inUse.trans (Int.add_zero _)
  · rw [ne_eq, h_zero]
    exact h_claimed fun c h_c => absurd h_c (Multiset.notMem_zero c)

def unused : State := ⟨⟨none, 0, false⟩, 0, 0, 0⟩

/-- Two sets and a clear, each after the call before it has stored its count. -/
theorem counts_exact_inTurn : ∃ s, Lts.run step unused
      [.set, .step .setMask, .step .setLoad, .set, .step .setInc, .step .setFirst, .step .setMask,
        .clear, .step .setLoad, .step (.setMore 1), .step .clearLoad, .step (.clearOne 2)] =
        some s ∧ s.sets = 2 ∧ s.clears = 1 ∧
    (s.maps.stored.getD 0 + s.clears = s.sets ∧
      s.maps.nrInUse = 0 + (if s.maps.stored.getD 0 = 0 then 0 else 1) ∧
      (s.maps.claimed = true ↔ s.maps.stored.getD 0 ≠ 0)) := by
  have h_init : Lts.Reach step Fresh (Init 0) unused := .init rfl
  have h_first := (((((h_init.step (e := Event.set) trivial rfl).step
    (e := Event.step .setMask) trivial rfl).step (e := Event.step .setLoad) trivial rfl).step
    (e := Event.set) trivial rfl).step (e := Event.step .setInc) trivial rfl).step
    (e := Event.step .setFirst) rfl rfl
  have h_second := (((h_first.step (e := Event.step .setMask) trivial rfl).step
    (e := Event.clear) trivial rfl).step (e := Event.step .setLoad) trivial rfl).step
    (e := Event.step (.setMore 1)) rfl rfl
  have h_clear := (h_second.step (e := Event.step .clearLoad) trivial rfl).step
    (e := Event.step (.clearOne 2)) rfl rfl
  exact ⟨_, rfl, rfl, rfl, counts_exact h_clear rfl⟩

/-- Two sets that both find no count; a set whose bit a clear takes away. -/
theorem updates_lost :
    (∃ s, Lts.run step unused
        [.set, .set, .step .setMask, .step .setMask, .step .setLoad, .step .setLoad,
          .step .setInc, .step .setInc, .step .setFirst, .step .setFirst] = some s ∧
      s.calls = 0 ∧ s.sets = 2 ∧ s.clears = 0 ∧ s.maps = ⟨some 1, 2, true⟩) ∧
    ∃ s, Lts.run step unused
        [.set, .step .setMask, .step .setLoad, .step .setInc, .step .setFirst,
          .clear, .step .clearLoad, .set, .step .setMask, .step (.clearMask 1),
          .step (.clearDec 1), .step (.clearErase 1), .step .setLoad, .step .setInc,
          .step .setFirst] = some s ∧
      s.calls = 0 ∧ s.sets = 2 ∧ s.clears = 1 ∧ s.maps = ⟨some 1, 1, false⟩ :=
  ⟨⟨_, rfl, rfl, rfl, rfl, rfl⟩, _, rfl, rfl, rfl, rfl, rfl⟩

end Sched.MapRace

end Daredevil
