import ControlPlane.Smoothing

/-!
# The smoothed 95th percentile

`ttfb_p95_ms` is the larger of `0.6` times the old value and `0.4` times the
new one, where its siblings take the sum of the two shares. It starts at `0.6`
of what was probed, so the first stored value is plausible only if it is zero.
From there on the stored percentile is the largest share that is left of a
probed one (`exists_remaining`), and a bound on the stored median can be
carried back over the probed medians to the start (`foldl_le_iff_le_foldr`):
`p95_plausible_iff` says on which histories the percentile stays plausible.

Everything here is for any arithmetic, the machine's included.
-/

namespace ControlPlane

open Lib

/-! ## The two times -/

/-- Truncation of what is not negative. -/
theorem trunc_of_nonneg {q : ℚ} (h : 0 ≤ q) : trunc.toInt q = ⌊q⌋ :=
  if_pos h

section Times

variable (arith : Arithmetic)

/-- A weighted time. -/
def share (weight : ℚ) (ms : ℤ) : ℚ :=
  arith.float (arith.float ms * arith.float weight)

/-- The median stored next. -/
def nextP50 (stored probed : ℤ) : ℤ :=
  trunc.toInt (arith.float (share arith (7 / 10) stored + share arith (3 / 10) probed))

/-- What is left of a stored percentile at the next result. -/
def shrinkP95 (stored : ℤ) : ℤ :=
  trunc.toInt (share arith (6 / 10) stored)

/-- What a probed percentile brings in. -/
def ownP95 (probed : ℤ) : ℤ :=
  trunc.toInt (share arith (4 / 10) probed)

/-- The median stored after a result. -/
theorem smoothed_p50 (result : ProbeResult) (previous : SmoothedSignal) :
    (smoothSignalIn arith result (some previous.entry)).ttfbP50Ms
      = nextP50 arith previous.ttfbP50Ms result.ttfbP50Ms := rfl

/-- The percentile stored after a result. -/
theorem smoothed_p95 (result : ProbeResult) (previous : SmoothedSignal) :
    (smoothSignalIn arith result (some previous.entry)).ttfbP95Ms
      = max (shrinkP95 arith previous.ttfbP95Ms) (ownP95 arith result.ttfbP95Ms) :=
  trunc.mono.map_max

/-! ## Floats are close enough -/

variable {arith}

variable (arith) in
/-- A crude bound on the error of a float. -/
theorem float_crude {q : ℚ} (h : 0 ≤ q) :
    99 / 100 * q - 1 / 100 ≤ arith.float q ∧ arith.float q ≤ 101 / 100 * q + 1 / 100 := by
  have hclose := abs_le.mp (arith.float_close q)
  rw [abs_of_nonneg h] at hclose
  have hrelative : q / 2 ^ 53 ≤ q / 100 :=
    div_le_div_of_nonneg_left h (by norm_num) (by norm_num)
  have htiny : (2 : ℚ) ^ (-1075 : ℤ) ≤ 1 / 100 := by
    calc (2 : ℚ) ^ (-1075 : ℤ) ≤ 2 ^ (-7 : ℤ) := zpow_le_zpow_right₀ (by norm_num) (by norm_num)
      _ ≤ 1 / 100 := by norm_num
  constructor <;> linarith [hclose.1, hclose.2]

variable (arith) in
/-- A larger time has a larger share. -/
theorem share_mono {weight : ℚ} (hweight : 0 ≤ weight) : Monotone (share arith weight) := by
  intro a b hab
  have hcast : (a : ℚ) ≤ b := by exact_mod_cast hab
  exact arith.float_mono
    (mul_le_mul_of_nonneg_right (arith.float_mono hcast) (arith.float_nonneg hweight))

/-- Zero has none. -/
@[simp]
theorem share_zero (weight : ℚ) : share arith weight 0 = 0 := by
  rw [share, Int.cast_zero, arith.float_zero, zero_mul, arith.float_zero]

variable (arith) in
/-- A share keeps the sign. -/
theorem share_nonneg {weight : ℚ} (hweight : 0 ≤ weight) {ms : ℤ} (hms : 0 ≤ ms) :
    0 ≤ share arith weight ms := by
  have := share_mono arith hweight hms
  rwa [share_zero] at this

/-- Six tenths of a positive time are less than the time. -/
theorem share_lt {weight : ℚ} (hweight : 0 ≤ weight) (hle : weight ≤ 6 / 10) {ms : ℤ}
    (hms : 1 ≤ ms) : share arith weight ms < ms := by
  have hms' : (1 : ℚ) ≤ ms := by exact_mod_cast hms
  have hfloat := float_crude arith (zero_le_one.trans hms')
  have hweighted := float_crude arith hweight
  have hpos := arith.float_nonneg (zero_le_one.trans hms')
  have hwpos := arith.float_nonneg hweight
  have hproduct : arith.float ms * arith.float weight ≤ 102 / 100 * ms * (616 / 1000) :=
    mul_le_mul (by linarith) (by linarith) hwpos (by linarith)
  have hshare := (float_crude arith (mul_nonneg hpos hwpos)).2
  unfold share
  linarith

variable (arith) in
/-- The weighted time stays close to seven tenths. -/
theorem le_share {ms : ℤ} (hms : 1 ≤ ms) : 65 / 100 * (ms : ℚ) ≤ share arith (7 / 10) ms := by
  have hms' : (1 : ℚ) ≤ ms := by exact_mod_cast hms
  have hfloat := float_crude arith (zero_le_one.trans hms')
  have hweighted := float_crude arith (q := 7 / 10) (by norm_num)
  have hproduct : 98 / 100 * ms * (683 / 1000) ≤ arith.float ms * arith.float (7 / 10) :=
    mul_le_mul (by linarith) (by linarith) (by norm_num)
      (arith.float_nonneg (zero_le_one.trans hms'))
  have hshare := (float_crude arith
    (mul_nonneg (arith.float_nonneg (zero_le_one.trans hms'))
      (arith.float_nonneg (by norm_num : (0 : ℚ) ≤ 7 / 10)))).1
  unfold share
  linarith

/-! ## The median -/

variable (arith) in
/-- A larger stored median stays larger. -/
theorem nextP50_mono (probed : ℤ) : Monotone (nextP50 arith · probed) := by
  intro a b hab
  exact trunc.mono (arith.float_mono
    (add_le_add_left (share_mono _ (by norm_num) hab) _))

/-- The next median is not negative. -/
theorem nextP50_nonneg {stored probed : ℤ} (hstored : 0 ≤ stored) (hprobed : 0 ≤ probed) :
    0 ≤ nextP50 arith stored probed := by
  refine trunc.le_toInt ?_
  rw [Int.cast_zero]
  exact arith.float_nonneg
    (add_nonneg (share_nonneg _ (by norm_num) hstored) (share_nonneg _ (by norm_num) hprobed))

/-- Zero with zero stays zero. -/
@[simp]
theorem nextP50_zero : nextP50 arith 0 0 = 0 := by
  simpa [nextP50, arith.float_zero] using trunc.fix 0

variable (arith) in
/-- A median more than twice a bound stays above it. -/
theorem lt_nextP50 {bound stored probed : ℤ} (hbound : 0 ≤ bound)
    (hstored : 2 * bound + 3 ≤ stored) (hprobed : 0 ≤ probed) :
    bound < nextP50 arith stored probed := by
  have hcast : 2 * (bound : ℚ) + 3 ≤ stored := by exact_mod_cast hstored
  have hpos : (0 : ℚ) ≤ bound := by exact_mod_cast hbound
  have hold := le_share arith (show 1 ≤ stored by omega)
  have hnew := share_nonneg arith (by norm_num : (0 : ℚ) ≤ 3 / 10) hprobed
  have hsum := (float_crude arith
    (add_nonneg (by linarith : 0 ≤ share arith (7 / 10) stored) hnew)).1
  refine Int.lt_of_add_one_le (trunc.le_toInt ?_)
  push_cast
  linarith

variable (arith) in
/-- The largest stored median that a probed one takes to at most the bound;
below zero if there is none. -/
def boundBefore (probed bound : ℤ) : ℤ :=
  if nextP50 arith 0 probed ≤ bound then
    (Nat.findGreatest (fun stored => nextP50 arith stored probed ≤ bound)
      (2 * bound + 2).toNat : ℕ)
  else -1

/-- **A bound on the next median is a bound on the stored one.** -/
theorem nextP50_le_iff {stored probed : ℤ} (hstored : 0 ≤ stored) (hprobed : 0 ≤ probed)
    (bound : ℤ) :
    nextP50 arith stored probed ≤ bound ↔ stored ≤ boundBefore arith probed bound := by
  unfold boundBefore
  split
  next hzero =>
    have hbound := (nextP50_nonneg le_rfl hprobed).trans hzero
    obtain ⟨n, rfl⟩ := Int.eq_ofNat_of_zero_le hstored
    constructor
    · intro hle
      have hlimit : n ≤ (2 * bound + 2).toNat := by
        by_contra hlarge
        have := lt_nextP50 arith hbound (show 2 * bound + 3 ≤ (n : ℤ) by omega) hprobed
        omega
      exact_mod_cast Nat.le_findGreatest
        (P := fun stored : ℕ => nextP50 arith stored probed ≤ bound) hlimit hle
    · intro hle
      have hgreatest := Nat.findGreatest_spec
        (P := fun stored : ℕ => nextP50 arith stored probed ≤ bound)
        (Nat.zero_le (2 * bound + 2).toNat) hzero
      exact (nextP50_mono _ probed hle).trans hgreatest
  next hzero =>
    have hmono := nextP50_mono arith probed hstored
    constructor
    · intro hle
      exact absurd (hmono.trans hle) hzero
    · intro hneg
      omega

/-! ## The percentile -/

variable (arith) in
/-- A larger stored percentile leaves more. -/
theorem shrinkP95_mono : Monotone (shrinkP95 arith) := by
  intro a b hab
  exact trunc.mono (share_mono _ (by norm_num) hab)

/-- Zero leaves zero. -/
@[simp]
theorem shrinkP95_zero : shrinkP95 arith 0 = 0 := by
  simpa [shrinkP95] using trunc.fix 0

/-- A probed percentile brings in no less than zero. -/
theorem ownP95_nonneg {probed : ℤ} (h : 0 ≤ probed) : 0 ≤ ownP95 arith probed := by
  refine trunc.le_toInt ?_
  rw [Int.cast_zero]
  exact share_nonneg _ (by norm_num) h

/-- Truncated, a share is smaller than the time. -/
theorem toInt_share_lt {weight : ℚ} (hweight : 0 ≤ weight) (hle : weight ≤ 6 / 10) {ms : ℤ}
    (hms : 1 ≤ ms) : trunc.toInt (share arith weight ms) < ms := by
  rw [trunc_of_nonneg (share_nonneg _ hweight (by omega)), Int.floor_lt]
  exact share_lt hweight hle hms

variable (arith) in
/-- Both shares of a positive percentile are smaller than it. -/
theorem shares_lt {ms : ℤ} (hms : 1 ≤ ms) : max (shrinkP95 arith ms) (ownP95 arith ms) < ms :=
  max_lt (toInt_share_lt (by norm_num) le_rfl hms) (toInt_share_lt (by norm_num) (by norm_num) hms)

/-- Zero brings in nothing. -/
@[simp]
theorem ownP95_zero : ownP95 arith 0 = 0 := by
  simpa [ownP95] using trunc.fix 0

variable (arith) in
/-- Neither share is larger than the percentile. -/
theorem shares_le {ms : ℤ} (hms : 0 ≤ ms) :
    max (shrinkP95 arith ms) (ownP95 arith ms) ≤ ms := by
  rcases hms.eq_or_lt with hzero | hpos
  · rw [← hzero, shrinkP95_zero, ownP95_zero, max_self]
  · exact (shares_lt _ hpos).le

end Times

/-! ## A history of probes -/

section History

variable (arith : Arithmetic)

/-- The signal stored after probing one model this often, the store empty at
first. -/
def storedAfterIn (results : List ProbeResult) : Option SmoothedSignal :=
  results.foldl
    (fun previous result => some (smoothSignalIn arith result (previous.map (·.entry)))) none

/-- On paper it is `storedAfter`. -/
theorem storedAfterIn_exact : storedAfterIn .exact = storedAfter := rfl

/-- The stored percentile is no smaller than the stored median, and between
the smallest and the largest percentile probed. -/
def PlausibleP95 (results : List ProbeResult) : Prop :=
  ∀ signal, storedAfterIn arith results = some signal →
    signal.ttfbP50Ms ≤ signal.ttfbP95Ms
    ∧ InHull (results.map fun result => (result.ttfbP95Ms : ℚ)) signal.ttfbP95Ms

instance decidablePlausibleP95 (results : List ProbeResult) :
    Decidable (PlausibleP95 arith results) :=
  inferInstanceAs (Decidable (∀ signal, signal ∈ storedAfterIn arith results → _))

/-- What is left of a result's percentile after `n` more results. -/
def remains (result : ProbeResult) (n : ℕ) : ℤ :=
  (shrinkP95 arith)^[n] (ownP95 arith result.ttfbP95Ms)

/-- The largest median before the results that they take to at most the
bound. -/
def boundAtFirst (results : List ProbeResult) (bound : ℤ) : ℤ :=
  results.foldr (fun result => boundBefore arith result.ttfbP50Ms) bound

/-- The first percentile probed is zero, and after every later result one of
the percentiles probed since leaves a share that the medians probed since,
from a zero on, do not exceed. -/
def KeepsP95 : List ProbeResult → Prop
  | [] => True
  | first :: later => first.ttfbP95Ms = 0 ∧ ∀ since, since ≠ [] → since <+: later →
      ∃ before result after, since = before ++ result :: after
        ∧ 0 ≤ boundAtFirst arith since (remains arith result after.length)

variable {arith} {first : ProbeResult} {later : List ProbeResult}

variable (arith) in
/-- From a first signal on, the median and the percentile are folds of their
own. -/
theorem storedAfterIn_cons (first : ProbeResult) (later : List ProbeResult) :
    ∃ signal, storedAfterIn arith (first :: later) = some signal
      ∧ signal.ttfbP50Ms = later.foldl (fun stored result => nextP50 arith stored result.ttfbP50Ms)
          (nextP50 arith first.ttfbP50Ms first.ttfbP50Ms)
      ∧ signal.ttfbP95Ms = later.foldl
          (fun stored result => max (shrinkP95 arith stored) (ownP95 arith result.ttfbP95Ms))
          (max (shrinkP95 arith first.ttfbP95Ms) (ownP95 arith first.ttfbP95Ms)) := by
  induction later using List.reverseRecOn with
  | nil => exact ⟨smoothSignalIn arith first none, rfl, rfl, trunc.mono.map_max⟩
  | append_singleton later result ih =>
    obtain ⟨signal, hsignal, hp50, hp95⟩ := ih
    refine ⟨smoothSignalIn arith result (some signal.entry), ?_, ?_, ?_⟩
    · rw [← List.cons_append, storedAfterIn, List.foldl_append]
      change List.foldl _ (storedAfterIn arith (first :: later)) [result] = _
      rw [hsignal]
      rfl
    · rw [smoothed_p50, hp50, List.foldl_append, List.foldl_cons, List.foldl_nil]
    · rw [smoothed_p95, hp95, List.foldl_append, List.foldl_cons, List.foldl_nil]

variable (arith) in
/-- A first result alone is plausible exactly if its percentile is zero. -/
theorem plausible_singleton_iff (hp50 : 0 ≤ first.ttfbP50Ms)
    (hp95 : first.ttfbP50Ms ≤ first.ttfbP95Ms) :
    PlausibleP95 arith [first] ↔ first.ttfbP95Ms = 0 := by
  obtain ⟨signal, hsignal, hmedian, hpercentile⟩ := storedAfterIn_cons arith first []
  rw [List.foldl_nil] at hmedian hpercentile
  constructor
  · intro hordered
    obtain ⟨-, ⟨lo, hlo, hlow⟩, -⟩ := hordered signal hsignal
    obtain rfl : lo = first.ttfbP95Ms := by simpa using hlo
    have hle : first.ttfbP95Ms ≤ signal.ttfbP95Ms := Int.cast_le.mp hlow
    by_contra hne
    have hlt := shares_lt arith (show 1 ≤ first.ttfbP95Ms by omega)
    omega
  · intro hzero other hother
    obtain rfl := Option.some.inj (hsignal.symm.trans hother)
    have hp50 : first.ttfbP50Ms = 0 := by omega
    rw [hp50, nextP50_zero] at hmedian
    rw [hzero, shrinkP95_zero, ownP95_zero, max_self] at hpercentile
    refine ⟨by omega, ?_⟩
    rw [hpercentile, List.map_singleton, hzero]
    exact ⟨⟨_, List.mem_singleton_self _, le_rfl⟩, ⟨_, List.mem_singleton_self _, le_rfl⟩⟩

variable (arith) in
/-- No stored percentile is negative, or larger than every one probed. -/
theorem p95_le_largest {start : ℤ} (hstart : 0 ≤ start)
    (h : ∀ result ∈ later, 0 ≤ result.ttfbP95Ms) :
    let stored := later.foldl
      (fun stored result => max (shrinkP95 arith stored) (ownP95 arith result.ttfbP95Ms)) start
    0 ≤ stored ∧ (stored ≤ start ∨ ∃ result ∈ later, stored ≤ result.ttfbP95Ms) := by
  induction later using List.reverseRecOn with
  | nil => exact ⟨hstart, .inl le_rfl⟩
  | append_singleton later result ih =>
    have hresult := h result (by simp)
    obtain ⟨hpos, hle⟩ := ih fun other hother => h other (List.mem_append_left _ hother)
    simp only [List.foldl_append, List.foldl_cons, List.foldl_nil]
    set stored := later.foldl
      (fun stored result => max (shrinkP95 arith stored) (ownP95 arith result.ttfbP95Ms)) start
    have hshrink := (le_max_left _ _).trans (shares_le arith hpos)
    have hown := (le_max_right _ _).trans (shares_le arith hresult)
    refine ⟨le_max_of_le_right (ownP95_nonneg hresult), ?_⟩
    rcases le_total (shrinkP95 arith stored) (ownP95 arith result.ttfbP95Ms) with hnew | hold
    · rw [max_eq_right hnew]
      exact .inr ⟨result, by simp, hown⟩
    · rw [max_eq_left hold]
      rcases hle with hle | ⟨largest, hlargest, hle⟩
      · exact .inl (hshrink.trans hle)
      · exact .inr ⟨largest, List.mem_append_left _ hlargest, hshrink.trans hle⟩

/-- After a first result of zeros: some share left bounds the median. -/
theorem plausible_cons_iff (hne : later ≠ []) (hzero : first.ttfbP95Ms = 0)
    (h : ∀ result ∈ first :: later, 0 ≤ result.ttfbP50Ms ∧ result.ttfbP50Ms ≤ result.ttfbP95Ms) :
    PlausibleP95 arith (first :: later) ↔ ∃ before result after, later = before ++ result :: after
      ∧ 0 ≤ boundAtFirst arith later (remains arith result after.length) := by
  obtain ⟨signal, hsignal, hmedian, hpercentile⟩ := storedAfterIn_cons arith first later
  have hlater : ∀ result ∈ later, 0 ≤ result.ttfbP50Ms ∧ 0 ≤ result.ttfbP95Ms := by
    intro result hresult
    have := h result (List.mem_cons_of_mem _ hresult)
    omega
  have hp50 : first.ttfbP50Ms = 0 := by
    have := h first List.mem_cons_self
    omega
  rw [hp50, nextP50_zero] at hmedian
  rw [hzero, shrinkP95_zero, ownP95_zero, max_self] at hpercentile
  have hcarry : ∀ bound, signal.ttfbP50Ms ≤ bound ↔ 0 ≤ boundAtFirst arith later bound := by
    intro bound
    rw [hmedian]
    exact foldl_le_iff_le_foldr (P := fun stored => 0 ≤ stored)
      (fun result hresult _ hstored => nextP50_nonneg hstored (hlater result hresult).1)
      (fun result hresult _ hstored bound => nextP50_le_iff hstored (hlater result hresult).1 bound)
      le_rfl bound
  constructor
  · intro hordered
    have hstart : ∀ result ∈ later, shrinkP95 arith 0 ≤ ownP95 arith result.ttfbP95Ms := by
      intro result hresult
      rw [shrinkP95_zero]
      exact ownP95_nonneg (hlater result hresult).2
    obtain ⟨before, result, after, hsplit, hlargest⟩ := exists_remaining hstart hne
    refine ⟨before, result, after, hsplit, (hcarry _).mp ?_⟩
    have horder := (hordered signal hsignal).1
    rw [hpercentile, hlargest] at horder
    exact horder
  · rintro ⟨before, result, after, hsplit, hbound⟩ other hother
    obtain rfl := Option.some.inj (hsignal.symm.trans hother)
    have hremains := remaining_le_foldl (shrinkP95_mono arith)
      (fun result : ProbeResult => ownP95 arith result.ttfbP95Ms) before after result 0
    rw [← hsplit, ← hpercentile] at hremains
    have hlargest := p95_le_largest arith le_rfl fun result hresult =>
      (hlater result hresult).2
    rw [← hpercentile] at hlargest
    refine ⟨((hcarry _).mpr hbound).trans hremains, ⟨0, ?_, by exact_mod_cast hlargest.1⟩, ?_⟩
    · exact List.mem_map.mpr ⟨first, List.mem_cons_self, by rw [hzero, Int.cast_zero]⟩
    · rcases hlargest.2 with hle | ⟨largest, hmem, hle⟩
      · refine ⟨_, List.mem_map_of_mem List.mem_cons_self, ?_⟩
        rw [hzero]
        exact_mod_cast hle
      · exact ⟨_, List.mem_map_of_mem (List.mem_cons_of_mem _ hmem), by exact_mod_cast hle⟩

/-- **When the smoothed percentile is plausible**: at every prefix of a
history exactly if it starts with a zero and the probed percentiles keep up
with the probed medians. -/
theorem p95_plausible_iff (arith : Arithmetic) (results : List ProbeResult)
    (h : ∀ result ∈ results, 0 ≤ result.ttfbP50Ms ∧ result.ttfbP50Ms ≤ result.ttfbP95Ms) :
    (∀ earlier, earlier <+: results → PlausibleP95 arith earlier) ↔ KeepsP95 arith results := by
  cases results with
  | nil =>
    refine iff_of_true (fun earlier hpre signal hsignal => ?_) trivial
    rw [List.prefix_nil.mp hpre] at hsignal
    exact absurd hsignal nofun
  | cons first later =>
    have hfirst := h first List.mem_cons_self
    have halone := plausible_singleton_iff arith hfirst.1 hfirst.2
    have hsince : ∀ since, since <+: later →
        ∀ result ∈ first :: since, 0 ≤ result.ttfbP50Ms ∧ result.ttfbP50Ms ≤ result.ttfbP95Ms :=
      fun since hpre result hresult =>
        h result ((List.prefix_cons_inj first).mpr hpre |>.subset hresult)
    constructor
    · intro hall
      have hzero := halone.mp (hall [first] ((List.prefix_cons_inj first).mpr List.nil_prefix))
      refine ⟨hzero, fun since hne hpre => ?_⟩
      exact (plausible_cons_iff hne hzero (hsince since hpre)).mp
        (hall _ ((List.prefix_cons_inj first).mpr hpre))
    · rintro ⟨hzero, hkeeps⟩ earlier hpre
      rcases List.prefix_cons_iff.mp hpre with rfl | ⟨since, rfl, hshort⟩
      · exact fun signal hsignal => absurd hsignal nofun
      · by_cases hne : since = []
        · subst hne
          exact halone.mpr hzero
        · exact (plausible_cons_iff hne hzero (hsince since hshort)).mpr (hkeeps since hne hshort)

end History

/-! ### Two histories -/

/-- A result with these times. -/
def timed (ttfbP50Ms ttfbP95Ms : ℤ) : ProbeResult :=
  { labResult with ttfbMs := ttfbP50Ms, ttfbP50Ms, ttfbP95Ms }

/-- One probe: a median of 300 ms is stored with a percentile of 207 ms. -/
theorem p95_below_median :
    ¬ ∀ results : List ProbeResult,
      (∀ result ∈ results, 0 ≤ result.ttfbP50Ms ∧ result.ttfbP50Ms ≤ result.ttfbP95Ms) →
      ∀ earlier, earlier <+: results → PlausibleP95 .machine earlier := by
  intro hall
  have hordered := hall [timed 300 345] (by decide +kernel) _ List.prefix_rfl
  obtain ⟨hle, -⟩ := hordered (smoothSignalIn .machine (timed 300 345) none) rfl
  revert hle
  decide +kernel

/-- An empty first line at once, one after 100 ms, then none: each percentile
bounds the medians that follow. -/
def keptUp : List ProbeResult :=
  [timed 0 0, timed 100 115, timed 9999 9999]

/-- The percentile is ordered after each result. -/
theorem keptUp_ordered (earlier : List ProbeResult) (hpre : earlier <+: keptUp) :
    PlausibleP95 .machine earlier := by
  have hall : ∀ earlier ∈ keptUp.inits, PlausibleP95 .machine earlier := by decide +kernel
  exact hall earlier ((List.mem_inits earlier keptUp).mpr hpre)

/-- So the condition holds as well. -/
theorem p95_plausible_iff_keptUp :
    (∀ earlier, earlier <+: keptUp → PlausibleP95 .machine earlier) ∧ KeepsP95 .machine keptUp :=
  have hiff := p95_plausible_iff .machine keptUp (by decide +kernel)
  ⟨keptUp_ordered, hiff.mp keptUp_ordered⟩

end ControlPlane
