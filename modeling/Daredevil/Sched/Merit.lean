/-
  Daredevil.Sched.Merit

  The scheduling merit in machine arithmetic.

  `blk_blex_calc_sched_merit` mixes the merit stored last with a sample from the
  statistics of the queue, `alpha_numer / alpha_denom` of it being the sample's:

    merit_last - merit_last * numer / denom + merit_tmp * numer / denom

  The statistics are unsigned and 32 bits wide, and the rest is computed in `int`.
  `blkBlexCalcSchedMerit` wraps as the machine does.  Here the same computation is
  written with operations that stop instead (`calcSchedMeritChecked`), and
  `calcSchedMerit_wellBehaved_iff` says for which statistics it does not stop: then
  the merit is between the last one and the sample.
-/
import Daredevil.Sched.Regulator
import Mathlib.Algebra.Order.Ring.Int

namespace Daredevil

namespace Sched

variable {env : Env} {type : NqType} {enq : ExposedNq} {merit : Int}

/-! ## The average -/

/-- The moving average of the merit stored last and a sample. -/
def meritAverage (env : Env) (meritLast meritTmp : Int) : Int :=
  Word32.signed (Word32.signed (meritLast - meritShare env meritLast) + meritShare env meritTmp)

theorem calcSchedMerit_ncq_iff :
    blkBlexCalcSchedMerit env .ncq enq = some merit ↔
      env.meritAlphaDenom ≠ 0 ∧ enq.qdepth ≠ 0 ∧ ∃ encq, enq.encq = some encq ∧
        meritAverage env encq.ncqSchedMerit (ncqMeritTmp encq enq.qdepth) = merit := by
  cases h_encq : enq.encq with
  | none =>
      simp only [blkBlexCalcSchedMerit, h_encq, Option.bind_eq_bind, Option.bind_none]
      constructor
      · intro h
        cases h
      · rintro ⟨-, -, encq, h, -⟩
        cases h
  | some encq =>
      simp only [blkBlexCalcSchedMerit, h_encq, Option.bind_eq_bind, Option.bind_some]
      -- the sample is divided by the depth, and the shares by the denominator
      by_cases h_depth : enq.qdepth = 0
      · simp [h_depth]
      · by_cases h_alpha : env.meritAlphaDenom = 0
        · simp [h_alpha, h_depth]
        · simp [h_alpha, h_depth, meritAverage]

theorem calcSchedMerit_nsq_iff :
    blkBlexCalcSchedMerit env .nsq enq = some merit ↔
      env.meritAlphaDenom ≠ 0 ∧
        meritAverage env enq.ensq.nsqSchedMerit (nsqMeritTmp enq.ensq) = merit := by
  simp only [blkBlexCalcSchedMerit, Option.bind_eq_bind, Option.bind_some]
  by_cases h_alpha : env.meritAlphaDenom = 0
  · simp [h_alpha]
  · simp [h_alpha, meritAverage]

theorem calcSchedMerit_signed
    (h : blkBlexCalcSchedMerit env type enq = some merit) : Word32.signed merit = merit := by
  cases type with
  | ncq =>
      obtain ⟨-, -, encq, -, rfl⟩ := calcSchedMerit_ncq_iff.mp h
      exact Int.bmod_bmod
  | nsq =>
      obtain ⟨-, rfl⟩ := calcSchedMerit_nsq_iff.mp h
      exact Int.bmod_bmod

/-! ## Cleared statistics -/

/-- The next merit of a queue with the merit `merit` and cleared statistics. -/
def decayedMerit (env : Env) (merit : Int) : Int := Word32.signed (merit - meritShare env merit)

theorem meritShare_zero (env : Env) : meritShare env 0 = 0 := by
  rw [meritShare, Int.zero_mul]
  exact Int.zero_tdiv _

/-- Without a sample only the stored merit counts. -/
theorem meritAverage_zero (env : Env) (merit : Int) :
    meritAverage env merit 0 = decayedMerit env merit := by
  rw [meritAverage, meritShare_zero, Int.add_zero]
  exact Int.bmod_bmod

theorem ncqMeritTmp_cleared {encq : EnqNcq} (h_inFlight : encq.nrInFlightRqs = 0)
    (h_complete : encq.nrCompleteRqs = 0) (qdepth : Nat) : ncqMeritTmp encq qdepth = 0 := by
  rw [ncqMeritTmp, h_inFlight, h_complete, Nat.zero_mul, Word32.wrap, Nat.zero_mod]
  simp only [Nat.cast_zero, Int.zero_ediv, Int.add_zero]
  decide

theorem calcSchedMerit_clearOldTop {m : Int}
    (h : blkBlexCalcSchedMerit env type enq = some m) :
    blkBlexCalcSchedMerit env type (clearOldTop type merit enq) =
      some (decayedMerit env merit) := by
  rw [← meritAverage_zero]
  cases type with
  | ncq =>
      obtain ⟨h_alpha, h_depth, encq, h_encq, -⟩ := calcSchedMerit_ncq_iff.mp h
      have h_clear : (clearOldTop .ncq merit enq).encq =
          some { encq with ncqSchedMerit := merit, nrInFlightRqs := 0, nrCompleteRqs := 0,
                           nrIrqs := 0 } := by
        rw [clearOldTop, h_encq]
        rfl
      refine calcSchedMerit_ncq_iff.mpr ⟨h_alpha, h_depth, _, h_clear, ?_⟩
      rw [ncqMeritTmp_cleared rfl rfl]
  | nsq =>
      -- the claimed cores stay, but without submitted requests the sample is zero
      obtain ⟨h_alpha, -⟩ := calcSchedMerit_nsq_iff.mp h
      exact calcSchedMerit_nsq_iff.mpr ⟨h_alpha, rfl⟩

/-! ## The share -/

section Share

variable {a b n d : Int} (h_numer : 0 < n) (h_denom : n ≤ d)
include h_numer h_denom

theorem share_mono (h : a ≤ b) : a * n / d ≤ b * n / d :=
  Int.ediv_le_ediv (by omega) (Int.mul_le_mul_of_nonneg_right h (by omega))

/-- What is left after the share grows with the value, too. -/
theorem share_sub_le (h : a ≤ b) : b * n / d - a * n / d ≤ b - a := by
  have h_mul : (b - a) * n ≤ (b - a) * d := Int.mul_le_mul_of_nonneg_left h_denom (by omega)
  have h_sub : b * n ≤ a * n + (b - a) * d := by
    rw [Int.sub_mul] at h_mul
    omega
  -- `b - a` leaves the quotient as a whole
  have h_div : b * n / d ≤ (a * n + (b - a) * d) / d := Int.ediv_le_ediv (by omega) h_sub
  rw [Int.add_mul_ediv_right _ _ (by omega)] at h_div
  omega

theorem share_bounds (h : 0 ≤ a) : 0 ≤ a * n / d ∧ a * n / d ≤ a := by
  have h_low := share_mono h_numer h_denom h
  have h_high := share_sub_le h_numer h_denom h
  rw [Int.zero_mul, Int.zero_ediv] at h_low h_high
  omega

/-- The two truncations do not take the average out of the interval. -/
theorem average_between :
    min a b ≤ a - a * n / d + b * n / d ∧ a - a * n / d + b * n / d ≤ max a b := by
  rcases Int.le_total a b with h | h
  · have h_mono := share_mono h_numer h_denom h
    have h_sub := share_sub_le h_numer h_denom h
    omega
  · have h_mono := share_mono h_numer h_denom h
    have h_sub := share_sub_le h_numer h_denom h
    omega

end Share

/-! ## Arithmetic that stops -/

/-- `merit_last` -/
def meritLast (type : NqType) (enq : ExposedNq) : Option Int :=
  match type with
  | .ncq => enq.encq.map EnqNcq.ncqSchedMerit
  | .nsq => some enq.ensq.nsqSchedMerit

def ncqMeritTmpChecked (encq : EnqNcq) (qdepth : Nat) : Option Int := do
  let product ← Word32.mul encq.nrInFlightRqs encq.nrIrqs
  let quotient ← Word32.div product qdepth
  let sum ← Word32.add quotient encq.nrCompleteRqs
  Word32.int sum

def nsqMeritTmpChecked (ensq : EnqNsq) : Option Int := do
  let nrClaimedCores ← Word32.add ensq.claimedCoreCpumask.card 1
  if ensq.nrSubmitRqs = 0 then
    some 0
  else do
    let product ← Word32.mul ensq.nrInLockNs nrClaimedCores
    let quotient ← Word32.div product ensq.nrSubmitRqs
    Word32.int quotient

/-- `merit_tmp` -/
def meritTmpChecked (type : NqType) (enq : ExposedNq) : Option Int :=
  match type with
  | .ncq => enq.encq.bind (ncqMeritTmpChecked · enq.qdepth)
  | .nsq => nsqMeritTmpChecked enq.ensq

def meritShareChecked (env : Env) (x : Int) : Option Int := do
  let product ← Word32.int (x * env.meritAlphaNumer)
  Word32.intDiv product env.meritAlphaDenom

/-- `blk_blex_calc_sched_merit`, where no value wraps. -/
def calcSchedMeritChecked (env : Env) (type : NqType) (enq : ExposedNq) : Option Int := do
  let last ← meritLast type enq
  let tmp ← meritTmpChecked type enq
  let lastShare ← meritShareChecked env last
  let kept ← Word32.int (last - lastShare)
  let tmpShare ← meritShareChecked env tmp
  Word32.int (kept + tmpShare)

/-! ## The exact sample -/

/-- The sample, computed without bounds. -/
def exactSample (type : NqType) (enq : ExposedNq) : Nat :=
  match type with
  | .ncq =>
      match enq.encq with
      | some encq => encq.nrInFlightRqs * encq.nrIrqs / enq.qdepth + encq.nrCompleteRqs
      | none => 0
  | .nsq => enq.ensq.nrInLockNs * (enq.ensq.claimedCoreCpumask.card + 1) / enq.ensq.nrSubmitRqs

/-- The products of the statistics fit 32 bits, and an NCQ has a depth. -/
def ProductsFit (type : NqType) (enq : ExposedNq) : Prop :=
  match type with
  | .ncq => enq.qdepth ≠ 0 ∧
      ∀ encq, enq.encq = some encq → encq.nrInFlightRqs * encq.nrIrqs < Word32.bound
  | .nsq => enq.ensq.claimedCoreCpumask.card + 1 < Word32.bound ∧ (enq.ensq.nrSubmitRqs ≠ 0 →
      enq.ensq.nrInLockNs * (enq.ensq.claimedCoreCpumask.card + 1) < Word32.bound)

theorem ncqMeritTmpChecked_iff {encq : EnqNcq} {qdepth : Nat} {t : Int} :
    ncqMeritTmpChecked encq qdepth = some t ↔
      (qdepth ≠ 0 ∧ encq.nrInFlightRqs * encq.nrIrqs < Word32.bound) ∧
        encq.nrInFlightRqs * encq.nrIrqs / qdepth + encq.nrCompleteRqs < 2147483648 ∧
        ((encq.nrInFlightRqs * encq.nrIrqs / qdepth + encq.nrCompleteRqs : Nat) : Int) = t := by
  simp only [ncqMeritTmpChecked, Option.bind_eq_bind, Option.bind_eq_some_iff,
    Word32.mul_eq_some_iff, Word32.div_eq_some_iff, Word32.add_eq_some_iff, Word32.int_natCast_iff]
  constructor
  · rintro ⟨product, ⟨h_product, rfl⟩, quotient, ⟨h_depth, rfl⟩, sum, ⟨-, rfl⟩, h_sum, rfl⟩
    exact ⟨⟨Nat.ne_of_gt h_depth, h_product⟩, h_sum, rfl⟩
  · rintro ⟨⟨h_depth, h_product⟩, h_sum, rfl⟩
    refine ⟨_, ⟨h_product, rfl⟩, _, ⟨Nat.pos_of_ne_zero h_depth, rfl⟩, _, ⟨?_, rfl⟩, h_sum, rfl⟩
    -- what fits an `int` fits the addition before it
    exact Word32.lt_bound (by omega)

theorem nsqMeritTmpChecked_iff {ensq : EnqNsq} {t : Int} :
    nsqMeritTmpChecked ensq = some t ↔
      (ensq.claimedCoreCpumask.card + 1 < Word32.bound ∧ (ensq.nrSubmitRqs ≠ 0 →
        ensq.nrInLockNs * (ensq.claimedCoreCpumask.card + 1) < Word32.bound)) ∧
      ensq.nrInLockNs * (ensq.claimedCoreCpumask.card + 1) / ensq.nrSubmitRqs < 2147483648 ∧
      ((ensq.nrInLockNs * (ensq.claimedCoreCpumask.card + 1) / ensq.nrSubmitRqs : Nat) : Int) =
        t := by
  simp only [nsqMeritTmpChecked, Option.bind_eq_bind, Option.bind_eq_some_iff,
    Word32.add_eq_some_iff]
  by_cases h_idle : ensq.nrSubmitRqs = 0
  · -- no request was submitted: the sample is zero
    rw [h_idle, Nat.div_zero]
    simp only [if_true, Option.some.injEq, ne_eq, not_true, false_implies, and_true]
    constructor
    · rintro ⟨cores, ⟨h_cores, -⟩, rfl⟩
      exact ⟨h_cores, by decide, rfl⟩
    · rintro ⟨h_cores, -, rfl⟩
      exact ⟨_, ⟨h_cores, rfl⟩, rfl⟩
  · simp only [if_neg h_idle, Option.bind_eq_some_iff, Word32.mul_eq_some_iff,
      Word32.div_eq_some_iff, Word32.int_natCast_iff]
    constructor
    · rintro ⟨cores, ⟨h_cores, rfl⟩, product, ⟨h_product, rfl⟩, quotient, ⟨-, rfl⟩, h_lt, rfl⟩
      exact ⟨⟨h_cores, fun _ => h_product⟩, h_lt, rfl⟩
    · rintro ⟨⟨h_cores, h_product⟩, h_lt, rfl⟩
      exact ⟨_, ⟨h_cores, rfl⟩, _, ⟨h_product h_idle, rfl⟩, _,
        ⟨Nat.pos_of_ne_zero h_idle, rfl⟩, h_lt, rfl⟩

/-- The sample is computed without wrapping exactly if the products fit, and the sample does. -/
theorem meritTmpChecked_iff {last t : Int} (h_last : meritLast type enq = some last) :
    meritTmpChecked type enq = some t ↔
      ProductsFit type enq ∧ exactSample type enq < 2147483648 ∧ (exactSample type enq : Int) = t := by
  cases type with
  | ncq =>
      obtain ⟨encq, h_encq, -⟩ := Option.map_eq_some_iff.mp h_last
      have h_fits : ProductsFit .ncq enq ↔
          enq.qdepth ≠ 0 ∧ encq.nrInFlightRqs * encq.nrIrqs < Word32.bound := by
        simp only [ProductsFit, h_encq, Option.some.injEq, forall_eq']
      rw [h_fits, meritTmpChecked, h_encq, exactSample, h_encq]
      exact ncqMeritTmpChecked_iff
  | nsq => exact nsqMeritTmpChecked_iff

/-- The share of a value that is not negative. -/
theorem meritShareChecked_iff (h_numer : 0 < env.meritAlphaNumer)
    (h_denom : env.meritAlphaNumer ≤ env.meritAlphaDenom) {x y : Int} (h_nonneg : 0 ≤ x) :
    meritShareChecked env x = some y ↔ x * env.meritAlphaNumer < 2147483648 ∧
      x * env.meritAlphaNumer / env.meritAlphaDenom = y := by
  have h_mul : 0 ≤ x * env.meritAlphaNumer := Int.mul_nonneg h_nonneg (by omega)
  simp only [meritShareChecked, Option.bind_eq_bind, Option.bind_eq_some_iff]
  constructor
  · rintro ⟨product, h_product, h_div⟩
    obtain ⟨-, h_lt, rfl⟩ := Word32.int_eq_some_iff.mp h_product
    obtain ⟨-, rfl⟩ := Word32.intDiv_eq_some h_div
    exact ⟨h_lt, (Int.tdiv_eq_ediv_of_nonneg h_mul).symm⟩
  · rintro ⟨h_lt, rfl⟩
    refine ⟨_, Word32.int_eq_some h_mul h_lt, ?_⟩
    -- the quotient is not above the product, which fits
    have h_le : x * env.meritAlphaNumer / env.meritAlphaDenom ≤ x * env.meritAlphaNumer :=
      Int.ediv_le_self _ h_mul
    have h_low : 0 ≤ x * env.meritAlphaNumer / env.meritAlphaDenom :=
      Int.ediv_nonneg h_mul (by omega)
    rw [Word32.intDiv, if_neg (by omega), Int.tdiv_eq_ediv_of_nonneg h_mul]
    exact Word32.int_eq_some h_low (by omega)

/-! ## What stops agrees with what wraps -/

theorem meritShare_of_checked {x y : Int} (h : meritShareChecked env x = some y) :
    env.meritAlphaDenom ≠ 0 ∧ meritShare env x = y := by
  obtain ⟨product, h_product, h_div⟩ := Option.bind_eq_some_iff.mp h
  obtain ⟨h_denom, rfl⟩ := Word32.intDiv_eq_some h_div
  rw [meritShare, Word32.signed_of_int h_product]
  exact ⟨h_denom, rfl⟩

theorem signed_of_small {n : Nat} (h : n < 2147483648) : Word32.signed n = n :=
  Word32.signed_of_int (Word32.int_eq_some (by omega) (by omega))

theorem ncqMeritTmp_of_checked {encq : EnqNcq} {qdepth : Nat} {t : Int}
    (h : ncqMeritTmpChecked encq qdepth = some t) : qdepth ≠ 0 ∧ ncqMeritTmp encq qdepth = t := by
  obtain ⟨⟨h_depth, h_product⟩, h_sum, rfl⟩ := ncqMeritTmpChecked_iff.mp h
  rw [ncqMeritTmp, Word32.wrap_of_lt h_product]
  exact ⟨h_depth, signed_of_small h_sum⟩

theorem nsqMeritTmp_of_checked {ensq : EnqNsq} {t : Int} (h : nsqMeritTmpChecked ensq = some t) :
    nsqMeritTmp ensq = t := by
  obtain ⟨⟨-, h_product⟩, h_lt, rfl⟩ := nsqMeritTmpChecked_iff.mp h
  rw [nsqMeritTmp]
  split
  case isTrue h_idle =>
    rw [h_idle, Nat.div_zero]
    rfl
  case isFalse h_busy =>
    rw [Word32.wrap_of_lt (h_product h_busy)]
    exact signed_of_small h_lt

/-- A computation that does not stop returns what the machine computes. -/
theorem calcSchedMerit_of_checked (h : calcSchedMeritChecked env type enq = some merit) :
    blkBlexCalcSchedMerit env type enq = some merit := by
  simp only [calcSchedMeritChecked, Option.bind_eq_bind, Option.bind_eq_some_iff] at h
  obtain ⟨last, h_last, tmp, h_tmp, lastShare, h_lastShare, kept, h_kept, tmpShare, h_tmpShare,
    h_sum⟩ := h
  obtain ⟨h_denom, rfl⟩ := meritShare_of_checked h_lastShare
  obtain ⟨-, rfl⟩ := meritShare_of_checked h_tmpShare
  -- a step that does not stop is the identity where the machine wraps
  have h_average : meritAverage env last tmp = merit := by
    rw [meritAverage, Word32.signed_of_int h_kept, Word32.signed_of_int h_sum]
  cases type with
  | ncq =>
      obtain ⟨encq, h_encq, rfl⟩ := Option.map_eq_some_iff.mp h_last
      rw [meritTmpChecked, h_encq] at h_tmp
      obtain ⟨h_depth, rfl⟩ := ncqMeritTmp_of_checked h_tmp
      exact calcSchedMerit_ncq_iff.mpr ⟨h_denom, h_depth, encq, h_encq, h_average⟩
  | nsq =>
      cases h_last
      rw [← nsqMeritTmp_of_checked h_tmp] at h_average
      exact calcSchedMerit_nsq_iff.mpr ⟨h_denom, h_average⟩

/-- The decay of a merit whose product with the numerator fits. -/
theorem decayedMerit_eq (h_numer : 0 < env.meritAlphaNumer)
    (h_denom : env.meritAlphaNumer ≤ env.meritAlphaDenom) (h_nonneg : 0 ≤ merit)
    (h_fits : merit * env.meritAlphaNumer < 2147483648) :
    decayedMerit env merit = merit - merit * env.meritAlphaNumer / env.meritAlphaDenom := by
  -- the numerator is one at least, so the merit fits if its product does
  have h_le : merit ≤ merit * env.meritAlphaNumer := le_mul_of_one_le_right h_nonneg (by omega)
  have h_share := (meritShareChecked_iff h_numer h_denom h_nonneg).mpr ⟨h_fits, rfl⟩
  have h_bounds := share_bounds h_numer h_denom h_nonneg
  rw [decayedMerit, (meritShare_of_checked h_share).2]
  exact Word32.signed_of_int (Word32.int_eq_some (by omega) (by omega))

/-! ## The average is between -/

/-- What a computation that does not stop returns. -/
theorem calcSchedMeritChecked_iff (h_numer : 0 < env.meritAlphaNumer)
    (h_denom : env.meritAlphaNumer ≤ env.meritAlphaDenom) {last : Int}
    (h_last : meritLast type enq = some last) (h_nonneg : 0 ≤ last) :
    calcSchedMeritChecked env type enq = some merit ↔
      (ProductsFit type enq ∧ last * env.meritAlphaNumer < 2147483648 ∧
        exactSample type enq * env.meritAlphaNumer < 2147483648) ∧
      last - last * env.meritAlphaNumer / env.meritAlphaDenom +
        exactSample type enq * env.meritAlphaNumer / env.meritAlphaDenom = merit := by
  have h_sample : (0 : Int) ≤ exactSample type enq := Int.natCast_nonneg _
  have h_fits {x : Int} (h : 0 ≤ x) : x ≤ x * env.meritAlphaNumer :=
    le_mul_of_one_le_right h (by omega)
  have h_lastFits := h_fits h_nonneg
  have h_sampleFits := h_fits h_sample
  simp only [calcSchedMeritChecked, h_last, Option.bind_eq_bind, Option.bind_some,
    Option.bind_eq_some_iff, meritTmpChecked_iff h_last]
  constructor
  · rintro ⟨tmp, ⟨h_products, -, rfl⟩, lastShare, h_lastShare, kept, h_kept, tmpShare, h_tmpShare,
      h_sum⟩
    obtain ⟨h_lastMul, rfl⟩ := (meritShareChecked_iff h_numer h_denom h_nonneg).mp h_lastShare
    obtain ⟨h_tmpMul, rfl⟩ := (meritShareChecked_iff h_numer h_denom h_sample).mp h_tmpShare
    obtain ⟨-, -, rfl⟩ := Word32.int_eq_some_iff.mp h_kept
    obtain ⟨-, -, rfl⟩ := Word32.int_eq_some_iff.mp h_sum
    exact ⟨⟨h_products, h_lastMul, h_tmpMul⟩, rfl⟩
  · rintro ⟨⟨h_products, h_lastMul, h_tmpMul⟩, rfl⟩
    have h_kept := share_bounds h_numer h_denom h_nonneg
    have h_between := average_between h_numer h_denom (a := last) (b := exactSample type enq)
    refine ⟨_, ⟨h_products, by omega, rfl⟩, _,
      (meritShareChecked_iff h_numer h_denom h_nonneg).mpr ⟨h_lastMul, rfl⟩, _,
      Word32.int_eq_some ?_ ?_, _,
      (meritShareChecked_iff h_numer h_denom h_sample).mpr ⟨h_tmpMul, rfl⟩,
      Word32.int_eq_some ?_ ?_⟩
    -- both sums are between zero and the greater of the last merit and the sample
    · omega
    · omega
    · omega
    · omega

/-- The merit is computed without wrapping, and is between the last one and the sample, exactly
if the products of the statistics and those with the numerator fit. -/
theorem calcSchedMerit_wellBehaved_iff (h_numer : 0 < env.meritAlphaNumer)
    (h_denom : env.meritAlphaNumer ≤ env.meritAlphaDenom) {last : Int}
    (h_last : meritLast type enq = some last) (h_nonneg : 0 ≤ last) :
    (∃ merit, calcSchedMeritChecked env type enq = some merit ∧
      blkBlexCalcSchedMerit env type enq = some merit ∧
      min last (exactSample type enq) ≤ merit ∧ merit ≤ max last (exactSample type enq)) ↔
    ProductsFit type enq ∧ last * env.meritAlphaNumer < 2147483648 ∧
      exactSample type enq * env.meritAlphaNumer < 2147483648 := by
  have h_iff {merit : Int} := @calcSchedMeritChecked_iff _ _ _ merit h_numer h_denom _ h_last h_nonneg
  constructor
  · rintro ⟨merit, h_checked, -⟩
    exact (h_iff.mp h_checked).1
  · intro h_fits
    have h_checked := h_iff.mpr ⟨h_fits, rfl⟩
    exact ⟨_, h_checked, calcSchedMerit_of_checked h_checked,
      average_between h_numer h_denom⟩

/-- An NCQ with the merit of two completions, each with an interrupt of its own, and then as many
as make the product of the counters wrap; the requests in flight are only ever counted down. -/
def busyNcq : ExposedNq where
  group := none
  prio := blkBlexTPrio
  qdepth := 1024
  nqid := 1
  cqid := 1
  ensq :=
    { sqid := 1, nsqSchedMerit := 0, nrInLockNs := 0, nrSubmitRqs := 0, claimedCoreCpumask := {0} }
  encq := some
    { cqid := 1, nrAttachedNsqs := 1, rrNsqOffset := 0, ncqSchedMerit := 3355444,
      nrInFlightRqs := 4294901760, nrCompleteRqs := 65536, nrIrqs := 65536,
      prioArr := ⟨0, [], 0, 0⟩ }

theorem calcSchedMerit_wellBehaved_iff_busy :
    (∃ merit, calcSchedMeritChecked (.default 4) .ncq busyNcq = some merit ∧
      blkBlexCalcSchedMerit (.default 4) .ncq busyNcq = some merit ∧
      min 3355444 (exactSample .ncq busyNcq) ≤ merit ∧
      merit ≤ max 3355444 (exactSample .ncq busyNcq)) ↔
    ProductsFit .ncq busyNcq ∧ 3355444 * (4 : Int) < 2147483648 ∧
      exactSample .ncq busyNcq * (4 : Int) < 2147483648 :=
  @calcSchedMerit_wellBehaved_iff (.default 4) .ncq busyNcq (by decide) (by decide) 3355444
    rfl (by decide)

/-- `in_flight_rqs * irqs` wraps to zero: the merit falls below both the last one and the
sample. -/
theorem calcSchedMerit_wraps :
    calcSchedMeritChecked (.default 4) .ncq busyNcq = none ∧
      blkBlexCalcSchedMerit (.default 4) .ncq busyNcq = some 723517 ∧
      meritLast .ncq busyNcq = some 3355444 ∧
      exactSample .ncq busyNcq = 274873778176 ∧ ¬ min 3355444 274873778176 ≤ (723517 : Int) := by
  decide

end Sched

end Daredevil
