import Mathlib

/-!
# Rounding rationals to a decimal grid

A rounding is a monotone map `ℚ → ℤ` that fixes the integers; everything a
caller needs (monotonicity after scaling, grid points are fixed, a value
between two grid points stays between them) follows from those two facts,
so the concrete tie rules only have to be shown to be roundings. Three are
given: ties to even, ties away from zero and truncation.

`Rounding.digits n` rounds to `n` decimals by scaling with `10 ^ n`.
-/

namespace ControlPlane.Lib

/-- A monotone map to the integers that leaves integers where they are. -/
structure Rounding where
  toInt : ℚ → ℤ
  mono : Monotone toInt
  fix : ∀ z : ℤ, toInt z = z

namespace Rounding

variable (R : Rounding)

/-- A value above an integer rounds to at least that integer. -/
theorem le_toInt {z : ℤ} {q : ℚ} (h : (z : ℚ) ≤ q) : z ≤ R.toInt q := by
  have := R.mono h
  rwa [R.fix] at this

/-- Rounding to `n` decimals. -/
def digits (n : ℕ) (q : ℚ) : ℚ :=
  (R.toInt (q * 10 ^ n) : ℚ) / 10 ^ n

/-- Rounding to a number of digits is monotone. -/
theorem digits_mono (n : ℕ) : Monotone (R.digits n) := by
  intro a b hab
  have hscaled : a * 10 ^ n ≤ b * 10 ^ n :=
    mul_le_mul_of_nonneg_right hab (by positivity)
  have hint : (R.toInt (a * 10 ^ n) : ℚ) ≤ R.toInt (b * 10 ^ n) := by
    exact_mod_cast R.mono hscaled
  exact div_le_div_of_nonneg_right hint (by positivity)

/-- Points of the grid are fixed. -/
theorem digits_grid (n : ℕ) (z : ℤ) : R.digits n (z / 10 ^ n) = z / 10 ^ n := by
  have hz : (z : ℚ) / 10 ^ n * 10 ^ n = z := div_mul_cancel₀ _ (by positivity)
  rw [digits, hz, R.fix]

/-- A rounded value is on the grid. -/
theorem digits_digits (n : ℕ) (q : ℚ) : R.digits n (R.digits n q) = R.digits n q :=
  R.digits_grid n (R.toInt (q * 10 ^ n))

/-- Integers lie on every grid. -/
theorem digits_int (n : ℕ) (z : ℤ) : R.digits n z = z := by
  have hz : (z : ℚ) * 10 ^ n = ((z * 10 ^ n : ℤ) : ℚ) := by push_cast; ring
  have hpos : (10 : ℚ) ^ n ≠ 0 := by positivity
  rw [digits, hz, R.fix]
  push_cast
  exact mul_div_cancel_right₀ _ hpos

/-- Zero has no digits to lose. -/
theorem digits_zero (n : ℕ) : R.digits n 0 = 0 := by
  simpa using R.digits_int n 0

/-- Nor has one. -/
theorem digits_one (n : ℕ) : R.digits n 1 = 1 := by
  simpa using R.digits_int n 1

/-- It keeps the sign. -/
theorem digits_nonneg (n : ℕ) {q : ℚ} (h : 0 ≤ q) : 0 ≤ R.digits n q := by
  have := R.digits_mono n h
  rwa [digits_zero] at this

/-- It keeps what is at most one. -/
theorem digits_le_one (n : ℕ) {q : ℚ} (h : q ≤ 1) : R.digits n q ≤ 1 := by
  have := R.digits_mono n h
  rwa [digits_one] at this

end Rounding

/-! ## Three tie rules -/

/-- Nearest integer, ties to the even neighbour. -/
def halfEvenInt (q : ℚ) : ℤ :=
  if q - ⌊q⌋ < 1 / 2 then ⌊q⌋
  else if 1 / 2 < q - ⌊q⌋ then ⌊q⌋ + 1
  else if ⌊q⌋ % 2 = 0 then ⌊q⌋
  else ⌊q⌋ + 1

/-- Half-even rounding is no less than the floor. -/
theorem floor_le_halfEvenInt (q : ℚ) : ⌊q⌋ ≤ halfEvenInt q := by
  unfold halfEvenInt
  split_ifs <;> omega

/-- It is at most one more. -/
theorem halfEvenInt_le (q : ℚ) : halfEvenInt q ≤ ⌊q⌋ + 1 := by
  unfold halfEvenInt
  split_ifs <;> omega

/-- It is monotone. -/
theorem halfEvenInt_mono : Monotone halfEvenInt := by
  intro a b hab
  rcases lt_or_eq_of_le (Int.floor_le_floor hab) with hlt | heq
  · -- different unit intervals: compare through the floor of the larger
    calc halfEvenInt a ≤ ⌊a⌋ + 1 := halfEvenInt_le a
      _ ≤ ⌊b⌋ := hlt
      _ ≤ halfEvenInt b := floor_le_halfEvenInt b
  · -- one unit interval: only the fractional parts decide
    have hfrac : a - ⌊a⌋ ≤ b - ⌊b⌋ := by rw [heq]; linarith
    unfold halfEvenInt
    rw [← heq] at hfrac ⊢
    split_ifs <;> first | omega | (exfalso; linarith)

/-- It leaves the integers alone. -/
theorem halfEvenInt_intCast (z : ℤ) : halfEvenInt z = z := by
  unfold halfEvenInt
  rw [Int.floor_intCast, sub_self, if_pos (by norm_num)]

/-- Half a unit at most. -/
theorem abs_halfEvenInt_sub_le (q : ℚ) : |(halfEvenInt q : ℚ) - q| ≤ 1 / 2 := by
  have hlow := Int.floor_le q
  have hhigh := Int.lt_floor_add_one q
  rw [abs_le]
  unfold halfEvenInt
  split_ifs <;> push_cast <;> constructor <;> linarith

/-- Ties to even: Python's `round`. -/
def halfEven : Rounding where
  toInt := halfEvenInt
  mono := halfEvenInt_mono
  fix := halfEvenInt_intCast

/-- Nearest integer, ties away from zero. -/
def halfUpInt (q : ℚ) : ℤ :=
  if 0 ≤ q then ⌊q + 1 / 2⌋ else -⌊-q + 1 / 2⌋

/-- Half-up rounding is monotone. -/
theorem halfUpInt_mono : Monotone halfUpInt := by
  intro a b hab
  unfold halfUpInt
  split_ifs with ha hb hb
  · exact Int.floor_le_floor (by linarith)
  · exact absurd (ha.trans hab) hb
  · have h1 : 0 ≤ ⌊-a + 1 / 2⌋ := Int.floor_nonneg.mpr (by linarith)
    have h2 : 0 ≤ ⌊b + 1 / 2⌋ := Int.floor_nonneg.mpr (by linarith)
    omega
  · exact neg_le_neg (Int.floor_le_floor (by linarith))

/-- Half a unit does not reach the next integer. -/
theorem floor_intCast_add_half (z : ℤ) : ⌊(z : ℚ) + 1 / 2⌋ = z := by
  rw [Int.floor_intCast_add]
  norm_num

/-- It leaves the integers alone. -/
theorem halfUpInt_intCast (z : ℤ) : halfUpInt z = z := by
  unfold halfUpInt
  split_ifs
  · exact floor_intCast_add_half z
  · have := floor_intCast_add_half (-z)
    push_cast at this
    rw [this, neg_neg]

/-- Ties away from zero: `decimal.ROUND_HALF_UP`. -/
def halfUp : Rounding where
  toInt := halfUpInt
  mono := halfUpInt_mono
  fix := halfUpInt_intCast

/-- Towards zero. -/
def truncInt (q : ℚ) : ℤ :=
  if 0 ≤ q then ⌊q⌋ else ⌈q⌉

/-- Truncation is monotone. -/
theorem truncInt_mono : Monotone truncInt := by
  intro a b hab
  unfold truncInt
  split_ifs with ha hb hb
  · exact Int.floor_le_floor hab
  · exact absurd (ha.trans hab) hb
  · have h1 : ⌈a⌉ ≤ 0 := Int.ceil_le.mpr (by push_cast; linarith)
    have h2 : 0 ≤ ⌊b⌋ := Int.floor_nonneg.mpr hb
    omega
  · exact Int.ceil_le_ceil hab

/-- Truncation: Python's `int` on a number. -/
def trunc : Rounding where
  toInt := truncInt
  mono := truncInt_mono
  fix := by
    intro z
    unfold truncInt
    split_ifs
    · exact Int.floor_intCast z
    · exact Int.ceil_intCast z

end ControlPlane.Lib
