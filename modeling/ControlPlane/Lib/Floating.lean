import ControlPlane.Lib.Rounding

/-!
# Floating formats

A format keeps a fixed number of significant digits: a value is rounded to a
multiple of its unit in the last place, ties to even. Two facts carry
everything a caller needs. Rounding is monotone (`round_mono`), although the
unit jumps at each power of the radix: a jump is a multiple of both units, so
values on its two sides round to its two sides. And a rounded value is a fixed
point (`round_round`).

`binary64` and `decimal28` are IEEE doubles and the results of Python's
default decimal context, with no largest exponent: a caller that can reach
the overflow threshold has to look at it. `shortest` is the decimal that
`repr` prints for a double, the first with few enough digits to read back as
the same one (`binary64_shortest`).
-/

namespace ControlPlane.Lib

/-! ## Ties to even, further -/

/-- Ties to even treats the two signs alike. -/
theorem halfEvenInt_neg (q : ℚ) : halfEvenInt (-q) = -halfEvenInt q := by
  by_cases hint : (⌊q⌋ : ℚ) = q
  · rw [← hint, halfEvenInt_intCast, ← Int.cast_neg, halfEvenInt_intCast]
  · -- Off the integers the floor of `-q` is one below the negated floor.
    have hlow : (⌊q⌋ : ℚ) < q := lt_of_le_of_ne (Int.floor_le q) hint
    have hhigh := Int.lt_floor_add_one q
    have hfloor : ⌊-q⌋ = -⌊q⌋ - 1 := by
      rw [Int.floor_eq_iff]
      push_cast
      constructor <;> linarith
    unfold halfEvenInt
    rw [hfloor]
    push_cast
    split_ifs <;> first | omega | (exfalso; linarith)

/-- Zero is even. -/
theorem halfEvenInt_zero : halfEvenInt 0 = 0 := by
  simpa using halfEvenInt_intCast 0

/-! ## Formats -/

/-- Radix, number of significant digits, and the least exponent of a unit in
the last place. -/
structure Format where
  radix : ℕ
  precision : ℕ
  minExponent : ℤ
  one_lt_radix : 1 < radix
  precision_pos : 1 ≤ precision

namespace Format

variable (F : Format)

/-- The exponent of the last place of `q`. -/
def exponent (q : ℚ) : ℤ :=
  max F.minExponent (Int.log F.radix |q| - (F.precision - 1))

/-- The unit in the last place of `q`. -/
def ulp (q : ℚ) : ℚ :=
  (F.radix : ℚ) ^ F.exponent q

/-- The nearest value of the format, ties to the even last digit. -/
def round (q : ℚ) : ℚ :=
  halfEvenInt (q / F.ulp q) * F.ulp q

/-- The radix is positive. -/
theorem radix_pos : (0 : ℚ) < F.radix := by
  exact_mod_cast lt_trans Nat.zero_lt_one F.one_lt_radix

/-- It is at least one. -/
theorem one_le_radix : (1 : ℚ) ≤ F.radix := by
  exact_mod_cast F.one_lt_radix.le

/-- The unit in the last place is positive. -/
theorem ulp_pos (q : ℚ) : 0 < F.ulp q :=
  zpow_pos F.radix_pos _

/-- Zero is exact. -/
@[simp]
theorem round_zero : F.round 0 = 0 := by
  rw [round, zero_div, halfEvenInt_zero, Int.cast_zero, zero_mul]

/-- The two signs are rounded alike. -/
theorem round_neg (q : ℚ) : F.round (-q) = -F.round q := by
  have hulp : F.ulp (-q) = F.ulp q := by
    rw [ulp, ulp, exponent, exponent, abs_neg]
  rw [round, hulp, neg_div, halfEvenInt_neg, Int.cast_neg, neg_mul, round]

/-- A value is below `precision` digits times its unit. -/
theorem lt_zpow (q : ℚ) : |q| < (F.radix : ℚ) ^ (F.exponent q + F.precision) := by
  have hlog := Int.lt_zpow_succ_log_self F.one_lt_radix |q|
  have hexp : Int.log F.radix |q| + 1 ≤ F.exponent q + F.precision := by
    have := le_max_right F.minExponent (Int.log F.radix |q| - (F.precision - 1))
    unfold exponent
    omega
  exact lt_of_lt_of_le hlog (zpow_le_zpow_right₀ F.one_le_radix hexp)

/-- Away from the least exponent, a value has all its digits. -/
theorem zpow_le {q : ℚ} (hq : 0 < q) (hexp : F.minExponent < F.exponent q) :
    (F.radix : ℚ) ^ (F.exponent q + (F.precision - 1)) ≤ q := by
  have hlog := Int.zpow_log_le_self F.one_lt_radix hq
  have hexponent : F.exponent q + (F.precision - 1) = Int.log F.radix q := by
    unfold exponent at hexp ⊢
    rw [abs_of_pos hq] at hexp ⊢
    rw [lt_max_iff] at hexp
    rw [max_eq_right (by omega)]
    ring
  rw [hexponent]
  exact hlog

/-- The unit grows with the value. -/
theorem exponent_le {a b : ℚ} (ha : 0 < a) (hab : a ≤ b) : F.exponent a ≤ F.exponent b := by
  have hlog : Int.log F.radix a ≤ Int.log F.radix b := Int.log_mono_right ha hab
  unfold exponent
  rw [abs_of_pos ha, abs_of_pos (lt_of_lt_of_le ha hab)]
  exact max_le_max_left _ (by omega)

/-- A power of the radix at or above the unit is a multiple of the unit. -/
theorem zpow_div_ulp {q : ℚ} {k : ℤ} (hk : F.exponent q ≤ k) :
    (F.radix : ℚ) ^ k / F.ulp q = ((F.radix ^ (k - F.exponent q).toNat : ℕ) : ℤ) := by
  obtain ⟨n, hn⟩ := Int.eq_ofNat_of_zero_le (sub_nonneg.mpr hk)
  rw [ulp, ← zpow_sub₀ F.radix_pos.ne', hn]
  simp

/-- Rounding stays below a power of the radix at or above the unit. -/
theorem round_le_zpow {q : ℚ} {k : ℤ} (hk : F.exponent q ≤ k) (hq : q ≤ (F.radix : ℚ) ^ k) :
    F.round q ≤ (F.radix : ℚ) ^ k := by
  have hscaled : q / F.ulp q ≤ (F.radix : ℚ) ^ k / F.ulp q :=
    div_le_div_of_nonneg_right hq (F.ulp_pos q).le
  rw [F.zpow_div_ulp hk] at hscaled
  have hint := halfEvenInt_mono hscaled
  rw [halfEvenInt_intCast] at hint
  have hcast : (halfEvenInt (q / F.ulp q) : ℚ) ≤ (F.radix : ℚ) ^ k / F.ulp q := by
    rw [F.zpow_div_ulp hk]
    exact_mod_cast hint
  exact (le_div_iff₀ (F.ulp_pos q)).mp hcast

/-- Rounding stays above a power of the radix at or above the unit. -/
theorem zpow_le_round {q : ℚ} {k : ℤ} (hk : F.exponent q ≤ k) (hq : (F.radix : ℚ) ^ k ≤ q) :
    (F.radix : ℚ) ^ k ≤ F.round q := by
  have hscaled : (F.radix : ℚ) ^ k / F.ulp q ≤ q / F.ulp q :=
    div_le_div_of_nonneg_right hq (F.ulp_pos q).le
  rw [F.zpow_div_ulp hk] at hscaled
  have hint := halfEvenInt_mono hscaled
  rw [halfEvenInt_intCast] at hint
  have hcast : (F.radix : ℚ) ^ k / F.ulp q ≤ halfEvenInt (q / F.ulp q) := by
    rw [F.zpow_div_ulp hk]
    exact_mod_cast hint
  exact (div_le_iff₀ (F.ulp_pos q)).mp hcast

/-- Rounding keeps the sign. -/
theorem round_nonneg {q : ℚ} (hq : 0 ≤ q) : 0 ≤ F.round q := by
  have hint := halfEvenInt_mono (div_nonneg hq (F.ulp_pos q).le)
  rw [halfEvenInt_zero] at hint
  exact mul_nonneg (by exact_mod_cast hint) (F.ulp_pos q).le

/-- Monotone on the positive values: with one unit, since ties to even is;
across a change of unit, since a power of the radix lies between. -/
theorem round_mono_of_pos {a b : ℚ} (ha : 0 < a) (hab : a ≤ b) : F.round a ≤ F.round b := by
  rcases (F.exponent_le ha hab).eq_or_lt with heq | hlt
  · have hulp : F.ulp a = F.ulp b := by rw [ulp, ulp, heq]
    have hint := halfEvenInt_mono (div_le_div_of_nonneg_right hab (F.ulp_pos a).le)
    rw [round, round, ← hulp]
    exact mul_le_mul_of_nonneg_right (by exact_mod_cast hint) (F.ulp_pos a).le
  · have hmin : F.minExponent < F.exponent b :=
      lt_of_le_of_lt (le_max_left _ _) hlt
    have hprecision : (1 : ℤ) ≤ F.precision := by exact_mod_cast F.precision_pos
    have hbetween : F.exponent a + F.precision ≤ F.exponent b + (F.precision - 1) := by omega
    calc F.round a ≤ (F.radix : ℚ) ^ (F.exponent a + F.precision) :=
          F.round_le_zpow (by omega) ((le_abs_self a).trans (F.lt_zpow a).le)
      _ ≤ (F.radix : ℚ) ^ (F.exponent b + (F.precision - 1)) :=
          zpow_le_zpow_right₀ F.one_le_radix hbetween
      _ ≤ F.round b := F.zpow_le_round (by omega) (F.zpow_le (lt_of_lt_of_le ha hab) hmin)

/-- **Rounding is monotone.** -/
theorem round_mono : Monotone F.round := by
  intro a b hab
  rcases lt_trichotomy 0 a with ha | ha | ha
  · exact F.round_mono_of_pos ha hab
  · rw [← ha] at hab ⊢
    rw [round_zero]
    exact F.round_nonneg hab
  · rcases le_or_gt 0 b with hb | hb
    · have hneg : 0 ≤ F.round (-a) := F.round_nonneg (neg_nonneg.mpr ha.le)
      rw [round_neg] at hneg
      linarith [F.round_nonneg hb]
    · have hflip := F.round_mono_of_pos (neg_pos.mpr hb) (neg_le_neg hab)
      rw [round_neg, round_neg] at hflip
      exact neg_le_neg_iff.mp hflip

/-- A multiple of a unit at least its own is a value of the format. -/
theorem round_of_multiple {q : ℚ} (z : ℤ) {k : ℤ} (hq : q = z * (F.radix : ℚ) ^ k)
    (hk : F.exponent q ≤ k) : F.round q = q := by
  have hscaled : q / F.ulp q = ((z * (F.radix ^ (k - F.exponent q).toNat : ℕ) : ℤ) : ℚ) := by
    have hpow := F.zpow_div_ulp hk
    calc q / F.ulp q = z * ((F.radix : ℚ) ^ k / F.ulp q) := by
          rw [← mul_div_assoc, ← hq]
      _ = _ := by
          rw [hpow]
          push_cast
          ring
  rw [round, hscaled, halfEvenInt_intCast, ← hscaled]
  exact div_mul_cancel₀ q (F.ulp_pos q).ne'

/-- **A rounded value is a value of the format.** -/
theorem round_round (q : ℚ) : F.round (F.round q) = F.round q := by
  set r := F.round q with hr
  by_cases hzero : r = 0
  · rw [hzero, round_zero]
  have habs : |r| ≤ (F.radix : ℚ) ^ (F.exponent q + F.precision) := by
    have hupper : F.round |q| ≤ (F.radix : ℚ) ^ (F.exponent q + F.precision) := by
      have hexp : F.exponent |q| = F.exponent q := by rw [exponent, exponent, abs_abs]
      refine F.round_le_zpow ?_ (F.lt_zpow q).le
      rw [hexp]
      omega
    rcases abs_cases q with ⟨hq, hsign⟩ | ⟨hq, hsign⟩
    · rw [hq] at hupper
      rwa [hr, abs_of_nonneg (F.round_nonneg hsign)]
    · rw [hq, round_neg] at hupper
      have hnonpos : F.round q ≤ 0 := by
        have := F.round_mono hsign.le
        rwa [round_zero] at this
      rwa [hr, abs_of_nonpos hnonpos]
  rcases habs.lt_or_eq with hlt | heq
  · -- No more digits than `q`: the unit of `q` will do.
    refine F.round_of_multiple (halfEvenInt (q / F.ulp q)) hr ?_
    have hlog : Int.log F.radix |r| < F.exponent q + F.precision :=
      (Int.lt_zpow_iff_log_lt F.one_lt_radix (abs_pos.mpr hzero)).mp hlt
    have hmin : F.minExponent ≤ F.exponent q := le_max_left _ _
    exact max_le hmin (by omega)
  · -- Rounded up to a power of the radix, which is a multiple of any unit.
    have hlog : Int.log F.radix |r| = F.exponent q + F.precision := by
      rw [heq]
      exact Int.log_zpow F.one_lt_radix _
    have hprecision : (1 : ℤ) ≤ F.precision := by exact_mod_cast F.precision_pos
    have hexp : F.exponent r ≤ F.exponent q + F.precision := by
      have hmin : F.minExponent ≤ F.exponent q := le_max_left _ _
      exact max_le (by omega) (by omega)
    rcases abs_cases r with ⟨hsign, -⟩ | ⟨hsign, -⟩
    · exact F.round_of_multiple 1 (by rw [Int.cast_one, one_mul, ← heq, hsign]) hexp
    · refine F.round_of_multiple (-1) ?_ hexp
      rw [Int.cast_neg, Int.cast_one, neg_one_mul, ← heq, hsign, neg_neg]

/-- A rounded value is at most half a unit off. -/
theorem abs_round_sub_le_ulp (q : ℚ) : |F.round q - q| ≤ F.ulp q / 2 := by
  have hulp := F.ulp_pos q
  have hsplit : F.round q - q = (halfEvenInt (q / F.ulp q) - q / F.ulp q) * F.ulp q := by
    rw [round, sub_mul, div_mul_cancel₀ q hulp.ne']
  have hhalf := mul_le_mul_of_nonneg_right (abs_halfEvenInt_sub_le (q / F.ulp q)) hulp.le
  rw [hsplit, abs_mul, abs_of_pos hulp]
  linarith

/-- **The error of one rounding**: one part in `2 * radix ^ (precision - 1)`
of the value, or half the least unit. -/
theorem abs_round_sub_le (q : ℚ) :
    |F.round q - q| ≤ |q| / (2 * (F.radix : ℚ) ^ ((F.precision : ℤ) - 1))
      + (F.radix : ℚ) ^ F.minExponent / 2 := by
  have hdigits : (0 : ℚ) < (F.radix : ℚ) ^ ((F.precision : ℤ) - 1) := zpow_pos F.radix_pos _
  have hleast : (0 : ℚ) < (F.radix : ℚ) ^ F.minExponent := zpow_pos F.radix_pos _
  by_cases hq : q = 0
  · rw [hq, round_zero, sub_zero, abs_zero, zero_div, zero_add]
    positivity
  refine (F.abs_round_sub_le_ulp q).trans ?_
  rcases (le_max_left F.minExponent (Int.log F.radix |q| - (F.precision - 1))).eq_or_lt with
    hmin | hmin
  · -- The unit is the least one.
    have hulp : F.ulp q = (F.radix : ℚ) ^ F.minExponent := by rw [ulp, exponent, ← hmin]
    have hrest : 0 ≤ |q| / (2 * (F.radix : ℚ) ^ ((F.precision : ℤ) - 1)) := by positivity
    rw [hulp]
    linarith
  · -- The value has all its digits, so the unit is small against it.
    have habs : F.exponent |q| = F.exponent q := by rw [exponent, exponent, abs_abs]
    have hvalue := F.zpow_le (abs_pos.mpr hq) (lt_of_lt_of_eq hmin habs.symm)
    rw [habs, zpow_add₀ F.radix_pos.ne'] at hvalue
    have hunit : F.ulp q / 2 ≤ |q| / (2 * (F.radix : ℚ) ^ ((F.precision : ℤ) - 1)) := by
      rw [div_le_div_iff₀ (by norm_num) (by positivity)]
      show (F.radix : ℚ) ^ F.exponent q * _ ≤ _
      linarith
    linarith

end Format

/-! ## Doubles and decimals -/

/-- IEEE doubles, overflow left out. -/
def binary64 : Format where
  radix := 2
  precision := 53
  minExponent := -1074
  one_lt_radix := by norm_num
  precision_pos := by norm_num

/-- What an operation of Python's default decimal context gives. -/
def decimal28 : Format where
  radix := 10
  precision := 28
  minExponent := -1000026
  one_lt_radix := by norm_num
  precision_pos := by norm_num

/-- A decimal of `n` digits, the nearest to `x` or the one on its other side,
that reads back as the double `x`. -/
def readsBack (x : ℚ) (n : ℕ) : Option ℚ :=
  let unit : ℚ := 10 ^ (Int.log 10 |x| - (n - 1))
  let near := halfEvenInt (x / unit) * unit
  let other := if near ≤ x then near + unit else near - unit
  if binary64.round near = x then some near
  else if binary64.round other = x then some other
  else none

/-- `repr`: the decimal with the fewest digits that reads back. Seventeen
always do. -/
def shortest (q : ℚ) : ℚ :=
  let x := binary64.round q
  ((List.range' 1 17).findSome? (readsBack x)).getD x

/-- What reads back rounds to the double it came from. -/
theorem readsBack_spec {x d : ℚ} {n : ℕ} (h : readsBack x n = some d) : binary64.round d = x := by
  unfold readsBack at h
  dsimp only at h
  split_ifs at h with hnear hother hnear hother <;> simp only [Option.some.injEq] at h
  all_goals
    subst h
    assumption

/-- **What `repr` prints reads back as the double it was printed for.** -/
theorem binary64_shortest (q : ℚ) : binary64.round (shortest q) = binary64.round q := by
  unfold shortest
  dsimp only
  cases hfind : (List.range' 1 17).findSome? (readsBack (binary64.round q)) with
  | none => exact binary64.round_round q
  | some d =>
    obtain ⟨-, n, -, -, hn, -⟩ := List.findSome?_eq_some_iff.mp hfind
    exact readsBack_spec hn

/-- Doubles are printed in their order. -/
theorem shortest_mono : Monotone shortest := by
  intro a b hab
  rcases (binary64.round_mono hab).eq_or_lt with heq | hlt
  · unfold shortest
    rw [heq]
  · by_contra hle
    have hback := binary64.round_mono (not_le.mp hle).le
    rw [binary64_shortest, binary64_shortest] at hback
    exact absurd hlt (not_lt.mpr hback)

example : binary64.round (1 / 10) = 3602879701896397 / 36028797018963968 := by decide +kernel

example : shortest (binary64.round (1 / 10)) = 1 / 10 := by decide +kernel

end ControlPlane.Lib
