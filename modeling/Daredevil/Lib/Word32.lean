/-
  Daredevil.Lib.Word32

  Unsigned 32-bit arithmetic that stops instead of wrapping: each operation
  returns `none` where the machine result would differ from the result in `Nat`
  (an overflow, an underflow, a division by zero).  A computation written with
  these operations returns `some n` exactly when no intermediate value wrapped,
  and then `n` is the value of the same computation over `Nat`.  For code that
  relies on wrapping there are `wrap` and `signed`.

  `int` and `intDiv` do the same for the type `int`.
-/
import Mathlib.Data.Nat.Basic

namespace Word32

/-- One more than the largest 32-bit value. -/
def bound : Nat := 4294967296

def add (a b : Nat) : Option Nat := if a + b < bound then some (a + b) else none

def sub (a b : Nat) : Option Nat := if b ≤ a then some (a - b) else none

def mul (a b : Nat) : Option Nat := if a * b < bound then some (a * b) else none

def div (a b : Nat) : Option Nat := if 0 < b then some (a / b) else none

def mod (a b : Nat) : Option Nat := if 0 < b then some (a % b) else none

theorem lt_bound {n : Nat} (h : n ≤ 4294967295) : n < bound := Nat.lt_succ_of_le h

variable {a b : Nat}

theorem add_eq_some (h : a + b < bound) : add a b = some (a + b) := if_pos h

theorem sub_eq_some (h : b ≤ a) : sub a b = some (a - b) := if_pos h

theorem mul_eq_some (h : a * b < bound) : mul a b = some (a * b) := if_pos h

theorem div_eq_some (h : 0 < b) : div a b = some (a / b) := if_pos h

theorem mod_eq_some (h : 0 < b) : mod a b = some (a % b) := if_pos h

/-! ## Arithmetic that wraps -/

/-- The `unsigned int` that `n` is stored as. -/
def wrap (n : Nat) : Nat := n % bound

/-- The `int` that `x` is stored as. -/
def signed (x : Int) : Int := x.bmod bound

/-! ## Signed arithmetic that stops -/

/-- `x`, if it is a value of `int`. -/
def int (x : Int) : Option Int := if -2147483648 ≤ x ∧ x < 2147483648 then some x else none

/-- The quotient of two values of `int`. -/
def intDiv (a b : Int) : Option Int := if b = 0 then none else int (a.tdiv b)

variable {x y : Int}

theorem int_eq_some_iff : int x = some y ↔ -2147483648 ≤ x ∧ x < 2147483648 ∧ x = y := by
  rw [int]
  split
  case isTrue h =>
    constructor
    · intro h_eq
      exact ⟨h.1, h.2, Option.some.inj h_eq⟩
    · rintro ⟨-, -, rfl⟩
      rfl
  case isFalse h =>
    constructor
    · intro h_eq
      cases h_eq
    · rintro ⟨h_low, h_high, -⟩
      exact absurd ⟨h_low, h_high⟩ h

theorem int_eq_some (h_low : 0 ≤ x) (h_high : x < 2147483648) : int x = some x :=
  int_eq_some_iff.mpr ⟨by omega, h_high, rfl⟩

theorem int_natCast_iff {n : Nat} : int n = some y ↔ n < 2147483648 ∧ (n : Int) = y := by
  rw [int_eq_some_iff]
  constructor
  · rintro ⟨-, h_high, rfl⟩
    exact ⟨Int.ofNat_lt.mp h_high, rfl⟩
  · rintro ⟨h_high, rfl⟩
    exact ⟨by omega, Int.ofNat_lt.mpr h_high, rfl⟩

/-- What fits is stored as it is. -/
theorem signed_of_int (h : int x = some y) : signed x = y := by
  obtain ⟨h_low, h_high, rfl⟩ := int_eq_some_iff.mp h
  exact Int.bmod_eq_of_le (by simp only [bound]; omega) (by simp only [bound]; omega)

/-- The sign bit counts negative. -/
theorem signed_natCast {n : Nat} (h : n < bound) :
    signed n = if n < 2147483648 then (n : Int) else n - 4294967296 := by
  have h_word : bound = 4294967296 := rfl
  rw [h_word] at h
  rw [signed, h_word, Int.bmod]
  split <;> split <;> omega

theorem wrap_lt (n : Nat) : wrap n < bound := Nat.mod_lt n (by decide)

theorem intDiv_eq_some {a b : Int} (h : intDiv a b = some y) : b ≠ 0 ∧ a.tdiv b = y := by
  rw [intDiv] at h
  split at h
  case isTrue => cases h
  case isFalse h_b => exact ⟨h_b, (int_eq_some_iff.mp h).2.2⟩

theorem mul_eq_some_iff {c : Nat} : mul a b = some c ↔ a * b < bound ∧ a * b = c := by
  rw [mul]
  split
  case isTrue h => simp [h]
  case isFalse h => simp [h]

theorem add_eq_some_iff {c : Nat} : add a b = some c ↔ a + b < bound ∧ a + b = c := by
  rw [add]
  split
  case isTrue h => simp [h]
  case isFalse h => simp [h]

theorem div_eq_some_iff {c : Nat} : div a b = some c ↔ 0 < b ∧ a / b = c := by
  rw [div]
  split
  case isTrue h => simp [h]
  case isFalse h => simp [h]

theorem wrap_of_lt {n : Nat} (h : n < bound) : wrap n = n := Nat.mod_eq_of_lt h

end Word32
