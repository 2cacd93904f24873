import ControlPlane.Lib.Floating

/-!
# Arithmetics

A program computes a sum, a product or a quotient exactly only on paper: a
float operation rounds its result to a double, a decimal operation rounds its
to the context's digits, and `Decimal(str(x))` is the decimal a double is
printed as. An `Arithmetic` is these three maps with the laws a caller relies
on, first of all that they keep the order; a statement about every
`Arithmetic` is one about the machine (`machine`) and about exact rationals
(`exact`) at once.
-/

namespace ControlPlane.Lib

/-- What becomes of the exact result of a float operation, of that of a
decimal one, and of a float on its way to a decimal. -/
structure Arithmetic where
  float : ℚ → ℚ
  decimal : ℚ → ℚ
  decimalOf : ℚ → ℚ
  float_mono : Monotone float
  float_zero : float 0 = 0
  float_close : ∀ q, |float q - q| ≤ |q| / 2 ^ 53 + 2 ^ (-1075 : ℤ)
  decimal_mono : Monotone decimal
  decimal_zero : decimal 0 = 0
  decimal_decimal : ∀ q, decimal (decimal q) = decimal q
  decimalOf_mono : Monotone decimalOf
  decimalOf_zero : decimalOf 0 = 0
  decimalOf_one : decimalOf 1 = 1

namespace Arithmetic

variable (arith : Arithmetic)

/-- Rounding to a double keeps the sign. -/
theorem float_nonneg {q : ℚ} (h : 0 ≤ q) : 0 ≤ arith.float q := by
  have := arith.float_mono h
  rwa [arith.float_zero] at this

/-- So does rounding to a decimal. -/
theorem decimal_nonneg {q : ℚ} (h : 0 ≤ q) : 0 ≤ arith.decimal q := by
  have := arith.decimal_mono h
  rwa [arith.decimal_zero] at this

/-- And reading a double's shortest text as a decimal. -/
theorem decimalOf_nonneg {q : ℚ} (h : 0 ≤ q) : 0 ≤ arith.decimalOf q := by
  have := arith.decimalOf_mono h
  rwa [arith.decimalOf_zero] at this

/-- It keeps what is at most one. -/
theorem decimalOf_le_one {q : ℚ} (h : q ≤ 1) : arith.decimalOf q ≤ 1 := by
  have := arith.decimalOf_mono h
  rwa [arith.decimalOf_one] at this

/-- A result that is a decimal of the context already stays above what is
added to it. -/
theorem le_decimal_add {a b : ℚ} (ha : arith.decimal a = a) (hb : 0 ≤ b) :
    a ≤ arith.decimal (a + b) := by
  have := arith.decimal_mono (le_add_of_nonneg_right hb : a ≤ a + b)
  rwa [ha] at this

/-- Paper and pencil. -/
def exact : Arithmetic where
  float := id
  decimal := id
  decimalOf := id
  float_mono := monotone_id
  float_zero := rfl
  float_close := by
    intro q
    rw [id, sub_self, abs_zero]
    positivity
  decimal_mono := monotone_id
  decimal_zero := rfl
  decimal_decimal := fun _ => rfl
  decimalOf_mono := monotone_id
  decimalOf_zero := rfl
  decimalOf_one := rfl

/-- A double is as close as its 53 digits allow. -/
theorem binary64_close (q : ℚ) : |binary64.round q - q| ≤ |q| / 2 ^ 53 + 2 ^ (-1075 : ℤ) := by
  have herror := binary64.abs_round_sub_le q
  have hdigits : (2 : ℚ) * ((2 : ℕ) : ℚ) ^ ((53 : ℤ) - 1) = 2 ^ 53 := by norm_num
  have hleast : ((2 : ℕ) : ℚ) ^ (-1074 : ℤ) / 2 = 2 ^ (-1075 : ℤ) := by
    have hexp : (-1075 : ℤ) = -1074 - 1 := by norm_num
    rw [hexp, zpow_sub_one₀ two_ne_zero, Nat.cast_ofNat, div_eq_mul_inv]
  calc |binary64.round q - q|
      ≤ |q| / (2 * ((2 : ℕ) : ℚ) ^ ((53 : ℤ) - 1)) + ((2 : ℕ) : ℚ) ^ (-1074 : ℤ) / 2 := herror
    _ = |q| / 2 ^ 53 + 2 ^ (-1075 : ℤ) := by rw [hdigits, hleast]

/-- Doubles, and the default decimal context. -/
def machine : Arithmetic where
  float := binary64.round
  decimal := decimal28.round
  decimalOf := shortest
  float_mono := binary64.round_mono
  float_zero := binary64.round_zero
  float_close := binary64_close
  decimal_mono := decimal28.round_mono
  decimal_zero := decimal28.round_zero
  decimal_decimal := decimal28.round_round
  decimalOf_mono := shortest_mono
  decimalOf_zero := by decide +kernel
  decimalOf_one := by decide +kernel

end Arithmetic

end ControlPlane.Lib
