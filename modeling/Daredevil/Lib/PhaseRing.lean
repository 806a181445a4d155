/-
  Daredevil.Lib.PhaseRing

  A ring of `cap` slots between a producer and a consumer that do not share their
  indices.  Every entry has a phase bit.  The producer writes the phase of its
  current round, which flips whenever its index wraps; the consumer knows the phase
  of its own round, and takes the slot at its index for new exactly when the phases
  agree.

  `Carries r posted c` says that the ring has carried the entries `posted`, of which
  the consumer has passed the first `c`, and that it was never overrun: at most
  `cap - 1` entries are ahead of the consumer.

    * `Carries.isNew_iff` — the slot is new exactly when an entry is ahead;
    * `Carries.front`     — and then it holds the first of them;
    * `Carries.post`, `Carries.advance` — both sides keep this.
-/
import Mathlib.Logic.Function.Basic
import Daredevil.Lib.RingBuffer

structure PhaseRing (α : Type*) where
  slots : Nat → α
  head : Nat
  headPhase : Bool
  tail : Nat
  tailPhase : Bool

namespace PhaseRing

open RingBuffer (next next_mod)

variable {α : Type*} (phase : α → Bool) (cap : Nat)

/-- The phase that goes with the index after `i`. -/
def nextPhase (i : Nat) (phase : Bool) : Bool := if i + 1 = cap then !phase else phase

/-- Slots in their initial state, and both sides in the first round. -/
def init (slots : Nat → α) : PhaseRing α := ⟨slots, 0, true, 0, true⟩

/-- The consumer's test. -/
def isNew (r : PhaseRing α) : Bool := phase (r.slots r.head) == r.headPhase

/-- The producer writes `x`, which has the phase of its round. -/
def post (r : PhaseRing α) (x : α) : PhaseRing α :=
  { r with
    slots := Function.update r.slots r.tail x
    tail := next cap r.tail
    tailPhase := nextPhase cap r.tail r.tailPhase }

/-- The consumer goes on to the next slot. -/
def advance (r : PhaseRing α) : PhaseRing α :=
  { r with head := next cap r.head, headPhase := nextPhase cap r.head r.headPhase }

/-- The phase of the `k`-th entry: it changes from round to round. -/
def roundPhase (k : Nat) : Bool := k / cap % 2 == 0

variable {phase cap}

theorem nextPhase_round (h_cap : 0 < cap) (k : Nat) :
    nextPhase cap (k % cap) (roundPhase cap k) = roundPhase cap (k + 1) := by
  have h_lt := Nat.mod_lt k h_cap
  have h_split := Nat.div_add_mod k cap
  unfold nextPhase roundPhase
  split
  case isTrue h_eq =>
    -- the last slot of a round
    have h_next : (k + 1) / cap = k / cap + 1 := by
      apply Nat.div_eq_of_lt_le
      · rw [Nat.add_mul, Nat.one_mul, Nat.mul_comm]
        omega
      · rw [Nat.add_mul, Nat.add_mul, Nat.one_mul, Nat.mul_comm]
        omega
    rw [h_next, Nat.add_mod]
    rcases Nat.mod_two_eq_zero_or_one (k / cap) with h_even | h_odd
    · rw [h_even]
      rfl
    · rw [h_odd]
      rfl
  case isFalse h_ne =>
    have h_same : (k + 1) / cap = k / cap := by
      apply Nat.div_eq_of_lt_le
      · rw [Nat.mul_comm]
        omega
      · rw [Nat.add_mul, Nat.one_mul, Nat.mul_comm]
        omega
    rw [h_same]

/-- One round later the phase is the other one. -/
theorem roundPhase_add (h_cap : 0 < cap) (k : Nat) :
    roundPhase cap (k + cap) = !roundPhase cap k := by
  unfold roundPhase
  rw [Nat.add_div_right k h_cap, Nat.add_mod]
  rcases Nat.mod_two_eq_zero_or_one (k / cap) with h_even | h_odd
  · rw [h_even]
    rfl
  · rw [h_odd]
    rfl

/-- Indices less than a round apart have different slots. -/
theorem mod_ne_mod {k l : Nat} (h_lt : k < l) (h_near : l < k + cap) : k % cap ≠ l % cap := by
  intro h_eq
  have h_k := Nat.div_add_mod k cap
  have h_l := Nat.div_add_mod l cap
  have h_round : k / cap < l / cap := by
    by_contra h_ge
    have h_mono := Nat.div_le_div_right (c := cap) (Nat.le_of_lt h_lt)
    have h_same : k / cap = l / cap := by omega
    rw [h_same] at h_k
    omega
  have h_gap := Nat.mul_le_mul_left cap (Nat.succ_le_of_lt h_round)
  rw [Nat.succ_eq_add_one, Nat.mul_add, Nat.mul_one] at h_gap
  omega

variable (phase cap)

/-- The ring has carried `posted`, and the consumer is at the entry `c`. -/
structure Carries (r : PhaseRing α) (posted : List α) (c : Nat) : Prop where
  consumed_le : c ≤ posted.length
  room : posted.length < c + cap
  head : r.head = c % cap
  headPhase : r.headPhase = roundPhase cap c
  tail : r.tail = posted.length % cap
  tailPhase : r.tailPhase = roundPhase cap posted.length
  phases : ∀ k x, posted[k]? = some x → phase x = roundPhase cap k
  /-- the entries of the last round are still in their slots -/
  recent : ∀ k, k < posted.length → posted.length ≤ k + cap →
    some (r.slots (k % cap)) = posted[k]?
  /-- slots of the first round that were not written yet are not new -/
  untouched : ∀ i, posted.length ≤ i → i < cap → phase (r.slots i) = false

variable {phase cap} {r : PhaseRing α} {posted : List α} {c : Nat}

theorem Carries.init {slots : Nat → α} (h_cap : 0 < cap) (h_slots : ∀ i, phase (slots i) = false) :
    Carries phase cap (PhaseRing.init slots) [] 0 where
  consumed_le := Nat.le_refl 0
  room := by
    rw [List.length_nil]
    omega
  head := (Nat.zero_mod cap).symm
  headPhase := by
    rw [roundPhase, Nat.zero_div]
    rfl
  tail := (Nat.zero_mod cap).symm
  tailPhase := by
    rw [roundPhase, List.length_nil, Nat.zero_div]
    rfl
  phases k x h_x := by cases h_x
  recent k h_k := absurd h_k (Nat.not_lt_zero k)
  untouched i _ _ := h_slots i

/-- The consumer reads the first entry ahead of it. -/
theorem Carries.front (h : Carries phase cap r posted c) (h_ahead : c < posted.length) :
    some (r.slots r.head) = posted[c]? := by
  have h_room := h.room
  rw [h.head]
  exact h.recent c h_ahead (by omega)

/-- The phase test tells whether an entry is ahead. -/
theorem Carries.isNew_iff (h : Carries phase cap r posted c) :
    r.isNew phase = true ↔ c < posted.length := by
  have h_room := h.room
  have h_le := h.consumed_le
  rw [isNew, beq_iff_eq, h.headPhase]
  constructor
  · intro h_phase
    by_contra h_none
    have h_all : c = posted.length := by omega
    rcases Nat.lt_or_ge c cap with h_first | h_later
    · -- in the first round the slot was never written
      have h_zero := h.untouched c (by omega) h_first
      rw [h.head, Nat.mod_eq_of_lt h_first, h_zero, roundPhase, Nat.div_eq_of_lt h_first] at h_phase
      cases h_phase
    · -- later it has the entry of the round before
      obtain ⟨k, rfl⟩ := Nat.exists_eq_add_of_le' h_later
      have h_old := h.recent k (by omega) (by omega)
      have h_x := h.phases k _ h_old.symm
      rw [h.head, Nat.add_mod_right, h_x, roundPhase_add (by omega)] at h_phase
      cases h_round : roundPhase cap k <;> rw [h_round] at h_phase <;> cases h_phase
  · intro h_ahead
    exact h.phases c _ (h.front h_ahead).symm

theorem Carries.post (h : Carries phase cap r posted c) (h_room : posted.length + 1 < c + cap)
    {x : α} (h_x : phase x = r.tailPhase) : Carries phase cap (r.post cap x) (posted ++ [x]) c := by
  have h_cap : 0 < cap := by
    have h_le := h.consumed_le
    omega
  have h_len : (posted ++ [x]).length = posted.length + 1 := by
    rw [List.length_append, List.length_singleton]
  refine ⟨?_, ?_, h.head, h.headPhase, ?_, ?_, ?_, ?_, ?_⟩
  · rw [h_len]
    exact Nat.le_succ_of_le h.consumed_le
  · rw [h_len]
    exact h_room
  · rw [h_len]
    show next cap r.tail = _
    rw [h.tail, next_mod h_cap]
  · rw [h_len]
    show nextPhase cap r.tail r.tailPhase = _
    rw [h.tail, h.tailPhase, nextPhase_round h_cap]
  · intro k y h_y
    rcases Nat.lt_or_ge k posted.length with h_old | h_new
    · rw [List.getElem?_append_left h_old] at h_y
      exact h.phases k y h_y
    · have h_k : k = posted.length := by
        have h_lt := (List.getElem?_eq_some_iff.mp h_y).1
        omega
      rw [h_k, List.getElem?_concat_length, Option.some.injEq] at h_y
      rw [← h_y, h_k, h_x, h.tailPhase]
  · intro k h_k h_near
    rw [h_len] at h_k h_near
    show some (Function.update r.slots r.tail x (k % cap)) = _
    rcases Nat.lt_or_ge k posted.length with h_old | h_new
    · have h_ne : k % cap ≠ r.tail := by
        rw [h.tail]
        exact mod_ne_mod h_old (by omega)
      rw [Function.update_of_ne h_ne, List.getElem?_append_left h_old]
      exact h.recent k h_old (by omega)
    · have h_last : k = posted.length := by omega
      rw [h_last, ← h.tail, Function.update_self, List.getElem?_concat_length]
  · intro i h_i h_lt
    rw [h_len] at h_i
    have h_ne : i ≠ r.tail := by
      rw [h.tail, Nat.mod_eq_of_lt (by omega)]
      omega
    show phase (Function.update r.slots r.tail x i) = false
    rw [Function.update_of_ne h_ne]
    exact h.untouched i (by omega) h_lt

theorem Carries.advance (h : Carries phase cap r posted c) (h_ahead : c < posted.length) :
    Carries phase cap (r.advance cap) posted (c + 1) := by
  have h_cap : 0 < cap := by
    have h_room := h.room
    omega
  refine ⟨h_ahead, ?_, ?_, ?_, h.tail, h.tailPhase, h.phases, h.recent, h.untouched⟩
  · have h_room := h.room
    omega
  · show next cap r.head = _
    rw [h.head, next_mod h_cap]
  · show nextPhase cap r.head r.headPhase = _
    rw [h.head, h.headPhase, nextPhase_round h_cap]

end PhaseRing
