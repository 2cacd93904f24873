import ControlPlane.Lib.Smoothing
import ControlPlane.LatencyTracker

/-!
# What smoothing keeps

Three of the four numbers of a stored signal are weighted means on a grid
(`Lib.Smoother`): milliseconds, thousandths, ten-thousandths. They stay
between the smallest and the largest value probed (`smoothing_stays_in_hull`)
and under a constant probe result they settle next to it
(`smoothed_signal_recovers`).

The fourth, `ttfb_p95_ms`, is in `SmoothedPercentile`.
-/

namespace ControlPlane

open Lib

/-! ## What a probe produces -/

/-- The form of a probe result. -/
structure ProbeShaped (result : ProbeResult) : Prop where
  ttfb_nonneg : 0 ≤ result.ttfbP50Ms
  qps_nonneg : 0 ≤ result.throughputHintQps
  qps_grid : OnGrid 3 result.throughputHintQps
  success : result.successRate = 0 ∨ result.successRate = 1

/-- A time to the first line is not negative. -/
theorem measureTtfb_nonneg {chunks : List ℚ} (h : ∀ instant ∈ chunks, 0 ≤ instant) :
    0 ≤ measureTtfb chunks := by
  have hfold : ∀ (chunks : List ℚ) (ttfbMs : ℤ), (∀ instant ∈ chunks, 0 ≤ instant) → 0 ≤ ttfbMs →
      0 ≤ chunks.foldl
        (fun ttfbMs instant => if ttfbMs = 9999 then trunc.toInt (instant * 1000) else ttfbMs)
        ttfbMs := by
    intro chunks
    induction chunks with
    | nil => exact fun _ _ hpos => hpos
    | cons instant chunks ih =>
      intro ttfbMs hchunks hpos
      refine ih _ (fun other hother => hchunks other (List.mem_cons_of_mem _ hother)) ?_
      dsimp only
      split
      next =>
        have hinstant := hchunks instant List.mem_cons_self
        exact trunc.le_toInt (by push_cast; positivity)
      next => exact hpos
  exact hfold chunks 9999 h (by norm_num)

/-- A probe's result has the probe's shape. -/
theorem probeModel_shaped (modelId provider : String) {m : Measurement}
    (h : ∀ instant ∈ m.chunks, 0 ≤ instant) : ProbeShaped (probeModel modelId provider m) where
  ttfb_nonneg := measureTtfb_nonneg h
  qps_nonneg := by
    refine halfEven.digits_nonneg 3 ?_
    have hpos : (0 : ℚ) < max m.elapsed (1 / 1000) := lt_max_of_lt_right (by norm_num)
    positivity
  qps_grid := halfEven.onGrid_digits 3 _
  success := by
    unfold probeModel
    dsimp only
    split
    next => exact .inr rfl
    next => exact .inl rfl

/-! ### Two probes -/

/-- Two lines, after 300 and 400 milliseconds. -/
def labMeasurement : Measurement where
  chunks := [3 / 10, 4 / 10]
  exception := none
  elapsed := 1 / 2
  observedAt := "2026-05-15T08:00:00Z"

/-- The first line after 300 ms. -/
def labResult : ProbeResult :=
  probeModel "lab/demo" "lab" labMeasurement

/-- A probe that timed out. -/
def failedMeasurement : Measurement where
  chunks := []
  exception := some "ReadTimeout"
  elapsed := 30
  observedAt := "2026-05-15T08:01:00Z"

/-- No line at all: the median is the 9999 of none. -/
def failedResult : ProbeResult :=
  probeModel "lab/demo" "lab" failedMeasurement

/-- It has a probe's shape. -/
theorem labResult_shaped : ProbeShaped labResult :=
  probeModel_shaped "lab/demo" "lab" (by decide +kernel)

/-- So has a probe that failed. -/
theorem failedResult_shaped : ProbeShaped failedResult :=
  probeModel_shaped "lab/demo" "lab" (by decide +kernel)

/-! ## The three means -/

/-- The smoothing of the median. -/
def p50Smoother : Smoother where
  rounding := trunc
  digits := 0
  keep := 7 / 10

/-- The smoothing of the throughput. -/
def qpsSmoother : Smoother where
  rounding := halfEven
  digits := 3
  keep := 1 / 2

/-- The smoothing of the rate of successes. -/
def successSmoother : Smoother where
  rounding := halfEven
  digits := 4
  keep := 7 / 10

/-- The number the fields of one kind are smoothed by. -/
structure Smoothed (S : Smoother) where
  raw : ProbeResult → ℚ
  stored : SmoothedSignal → ℚ
  first : ∀ result, stored (smoothSignal result none) = S.step (raw result) (raw result)
  next : ∀ result previous, stored (smoothSignal result (some previous.entry))
    = S.step (stored previous) (raw result)

/-- The source's formula for the median. -/
theorem p50_step (old new : ℚ) :
    (trunc.toInt (old * (7 / 10) + new * (3 / 10)) : ℚ) = p50Smoother.step old new := by
  have hkeep : (1 : ℚ) - 7 / 10 = 3 / 10 := by norm_num
  show _ = trunc.digits 0 (old * (7 / 10) + new * (1 - 7 / 10))
  rw [hkeep, Rounding.digits, pow_zero, mul_one, div_one]

/-- Its formula for the throughput. -/
theorem qps_step (old new : ℚ) :
    halfEven.digits 3 (old * (1 / 2) + new * (1 / 2)) = qpsSmoother.step old new := by
  have hkeep : (1 : ℚ) - 1 / 2 = 1 / 2 := by norm_num
  show _ = halfEven.digits 3 (old * (1 / 2) + new * (1 - 1 / 2))
  rw [hkeep]

/-- Its formula for the rate of successes. -/
theorem success_step (old new : ℚ) :
    round4 (old * (7 / 10) + new * (3 / 10)) = successSmoother.step old new := by
  have hkeep : (1 : ℚ) - 7 / 10 = 3 / 10 := by norm_num
  show _ = halfEven.digits 4 (old * (7 / 10) + new * (1 - 7 / 10))
  rw [hkeep]
  rfl

/-- The median is smoothed so. -/
def smoothedP50 : Smoothed p50Smoother where
  raw result := result.ttfbP50Ms
  stored signal := signal.ttfbP50Ms
  first _ := p50_step _ _
  next _ _ := p50_step _ _

/-- The throughput is smoothed so. -/
def smoothedQps : Smoothed qpsSmoother where
  raw result := result.throughputHintQps
  stored signal := signal.throughputHintQps
  first _ := qps_step _ _
  next _ _ := qps_step _ _

/-- The rate of successes is smoothed so. -/
def smoothedSuccess : Smoothed successSmoother where
  raw result := result.successRate
  stored signal := signal.successRate
  first _ := success_step _ _
  next _ _ := success_step _ _

/-! ## A history of probes -/

/-- The signal stored after probing one model this often, the store empty at
first. -/
def storedAfter (results : List ProbeResult) : Option SmoothedSignal :=
  results.foldl (fun previous result => some (smoothSignal result (previous.map (·.entry)))) none

/-- The last result is smoothed in last. -/
theorem storedAfter_concat (results : List ProbeResult) (result : ProbeResult) :
    storedAfter (results ++ [result])
      = some (smoothSignal result ((storedAfter results).map (·.entry))) := by
  simp [storedAfter, List.foldl_append]

/-- Each of the three is the fold of its smoother over what was probed. -/
theorem Smoothed.storedAfter_eq {S : Smoother} (field : Smoothed S) (results : List ProbeResult) :
    (storedAfter results).map field.stored = S.after (results.map field.raw) := by
  induction results using List.reverseRecOn with
  | nil => rfl
  | append_singleton results result ih =>
    rw [storedAfter_concat, List.map_append, List.map_singleton, Smoother.after_concat, ← ih]
    cases storedAfter results with
    | none => exact congrArg some (field.first result)
    | some previous => exact congrArg some (field.next result previous)

/-- **A stored field lies in the hull of the results.** -/
theorem Smoothed.inHull {S : Smoother} (field : Smoothed S) {results : List ProbeResult}
    (hgrid : ∀ result ∈ results, OnGrid S.digits (field.raw result)) {signal : SmoothedSignal}
    (hsignal : storedAfter results = some signal) :
    InHull (results.map field.raw) (field.stored signal) := by
  refine Smoother.after_inHull (S := S) ?_ ?_
  · intro q hq
    obtain ⟨result, hresult, rfl⟩ := List.mem_map.mp hq
    exact hgrid result hresult
  · rw [← field.storedAfter_eq, hsignal]
    rfl

/-- A rate of successes has four decimals. -/
theorem ProbeShaped.success_grid {result : ProbeResult} (h : ProbeShaped result) :
    OnGrid 4 result.successRate := by
  rcases h.success with hzero | hone
  · rw [hzero]
    exact_mod_cast OnGrid.int 4 0
  · rw [hone]
    exact_mod_cast OnGrid.int 4 1

/-- It is a share. -/
theorem ProbeShaped.success_unit {result : ProbeResult} (h : ProbeShaped result) :
    0 ≤ result.successRate ∧ result.successRate ≤ 1 := by
  rcases h.success with hzero | hone
  · rw [hzero]
    norm_num
  · rw [hone]
    norm_num

/-- **Smoothing stays in the hull of what was measured.** -/
theorem smoothing_stays_in_hull (results : List ProbeResult)
    (hshaped : ∀ result ∈ results, ProbeShaped result) (signal : SmoothedSignal)
    (hsignal : storedAfter results = some signal) :
    InHull (results.map smoothedP50.raw) signal.ttfbP50Ms
    ∧ InHull (results.map smoothedQps.raw) signal.throughputHintQps
    ∧ InHull (results.map smoothedSuccess.raw) signal.successRate
    ∧ (0 ≤ signal.successRate ∧ signal.successRate ≤ 1)
    ∧ ∃ latest, results.getLast? = some latest ∧ signal.lastProbeAt = latest.lastProbeAt
        ∧ signal.degradedReason = latest.degradedReason := by
  have hp50 := smoothedP50.inHull (fun result _ => OnGrid.int 0 result.ttfbP50Ms) hsignal
  have hqps := smoothedQps.inHull (fun result hr => (hshaped result hr).qps_grid) hsignal
  have hsuccess := smoothedSuccess.inHull
    (fun result hr => (hshaped result hr).success_grid) hsignal
  refine ⟨hp50, hqps, hsuccess, ?_, ?_⟩
  · obtain ⟨⟨lo, hlo, hlow⟩, ⟨hi, hhi, hhigh⟩⟩ := hsuccess
    obtain ⟨least, hleast, rfl⟩ := List.mem_map.mp hlo
    obtain ⟨most, hmost, rfl⟩ := List.mem_map.mp hhi
    exact ⟨(hshaped least hleast).success_unit.1.trans hlow,
      hhigh.trans (hshaped most hmost).success_unit.2⟩
  · cases hlast : results using List.reverseRecOn with
    | nil =>
      rw [hlast] at hsignal
      simp [storedAfter] at hsignal
    | append_singleton earlier latest =>
      rw [hlast, storedAfter_concat] at hsignal
      obtain rfl := Option.some.inj hsignal
      exact ⟨latest, by simp, rfl, rfl⟩

/-- A success, then a failure. -/
theorem smoothing_stays_in_hull_lab :
    ∃ signal, storedAfter [labResult, failedResult] = some signal
      ∧ 300 ≤ signal.ttfbP50Ms ∧ signal.ttfbP50Ms ≤ 9999
      ∧ InHull ([labResult, failedResult].map smoothedP50.raw) signal.ttfbP50Ms := by
  have hshaped : ∀ result ∈ [labResult, failedResult], ProbeShaped result := by
    intro result hresult
    rcases List.mem_pair.mp hresult with rfl | rfl
    · exact labResult_shaped
    · exact failedResult_shaped
  exact ⟨_, rfl, by decide +kernel, by decide +kernel,
    (smoothing_stays_in_hull [labResult, failedResult] hshaped _ rfl).1⟩

/-! ## A constant probe result -/

/-- The stored signal after the same result has come in `n` times. -/
def storedWith (result : ProbeResult) (start : SmoothedSignal) (n : ℕ) : SmoothedSignal :=
  (fun signal => smoothSignal result (some signal.entry))^[n] start

/-- A field of the stored signal, step by step. -/
theorem Smoothed.storedWith_eq {S : Smoother} (field : Smoothed S) (result : ProbeResult)
    (start : SmoothedSignal) (n : ℕ) :
    field.stored (storedWith result start n)
      = (S.step · (field.raw result))^[n] (field.stored start) := by
  have hstep : Function.Semiconj field.stored
      (fun signal => smoothSignal result (some signal.entry)) (S.step · (field.raw result)) :=
    fun signal => field.next result signal
  exact hstep.iterate_right n start

/-- Towards the probed value, and constant from some step on. -/
theorem Smoothed.approaches {S : Smoother} (field : Smoothed S) {result : ProbeResult}
    {start : SmoothedSignal} (hresult : OnGrid S.digits (field.raw result))
    (hstart : OnGrid S.digits (field.stored start)) :
    Approaches (field.raw result) (fun n => field.stored (storedWith result start n))
    ∧ ∃ N, S.step (field.stored (storedWith result start N)) (field.raw result)
          = field.stored (storedWith result start N)
        ∧ ∀ m, N ≤ m → field.stored (storedWith result start m)
          = field.stored (storedWith result start N) := by
  simp only [field.storedWith_eq]
  refine ⟨Smoother.approaches hresult hstart, ?_⟩
  obtain ⟨N, hN⟩ := Smoother.settles hresult hstart
  exact ⟨N, hN, fun m hm => iterate_of_fixed hN hm⟩

/-- Truncation stops the median up to three milliseconds below its target,
and never above it. -/
theorem p50_fixed {p x : ℤ} (hx : 0 ≤ x) (h : p50Smoother.step p x = p) : x - 3 ≤ p ∧ p ≤ x := by
  have hfixed : truncInt (p * (7 / 10) + x * (3 / 10)) = p := by
    rw [← p50_step] at h
    exact_mod_cast h
  have hx' : (0 : ℚ) ≤ x := by exact_mod_cast hx
  unfold truncInt at hfixed
  split at hfixed
  next =>
    rw [Int.floor_eq_iff] at hfixed
    obtain ⟨hlow, hhigh⟩ := hfixed
    have h1 : (p : ℚ) ≤ x := by linarith
    have h2 : (x : ℚ) < p + 4 := by linarith
    have h1' : p ≤ x := by exact_mod_cast h1
    have h2' : x < p + 4 := by exact_mod_cast h2
    omega
  next hneg =>
    -- A negative mean is rounded up, so only a value above `x` could stay.
    rw [Int.ceil_eq_iff] at hfixed
    obtain ⟨hlow, hhigh⟩ := hfixed
    exact absurd (by linarith : (0 : ℚ) ≤ p * (7 / 10) + x * (3 / 10)) hneg

/-- A value that rounding to `n` decimals leaves in place has moved by half a
grid step at most. -/
theorem abs_digits_sub_le {n : ℕ} {q : ℚ} {v : ℚ} (h : halfEven.digits n q = v) :
    |v * 10 ^ n - q * 10 ^ n| ≤ 1 / 2 := by
  have hscale : (10 : ℚ) ^ n ≠ 0 := by positivity
  rw [← h, Rounding.digits, div_mul_cancel₀ _ hscale]
  exact abs_halfEvenInt_sub_le _

/-- A mean that stays where it is has its target less than two grid steps
away, so one at most. -/
theorem fixed_near {S : Smoother} (hround : S.rounding = halfEven) (hkeep : S.keep ≤ 7 / 10)
    {old target : ℚ} (hold : OnGrid S.digits old) (htarget : OnGrid S.digits target)
    (h : S.step old target = old) : |old - target| ≤ 1 / 10 ^ S.digits := by
  obtain ⟨z, rfl⟩ := hold
  obtain ⟨w, rfl⟩ := htarget
  have hscale : (0 : ℚ) < 10 ^ S.digits := by positivity
  have hmoved : |(1 - S.keep) * ((z : ℚ) - w)| ≤ 1 / 2 := by
    unfold Smoother.step at h
    rw [hround] at h
    have := abs_digits_sub_le h
    have heq : (z : ℚ) / 10 ^ S.digits * 10 ^ S.digits
        - S.mean (z / 10 ^ S.digits) (w / 10 ^ S.digits) * 10 ^ S.digits
          = (1 - S.keep) * (z - w) := by
      unfold Smoother.mean
      field_simp
      ring
    rwa [heq] at this
  have hnear : |(z : ℚ) - w| < 2 := by
    rw [abs_mul, abs_of_nonneg (by linarith : (0 : ℚ) ≤ 1 - S.keep)] at hmoved
    have habs := abs_nonneg ((z : ℚ) - w)
    nlinarith
  have hstep : |z - w| ≤ 1 := by
    have : |z - w| < 2 := by exact_mod_cast hnear
    omega
  rw [← sub_div, abs_div, abs_of_pos hscale]
  refine div_le_div_of_nonneg_right ?_ hscale.le
  exact_mod_cast hstep

/-- Where a field rests, it is near the result. -/
theorem Smoothed.near {S : Smoother} (field : Smoothed S) (hround : S.rounding = halfEven)
    (hkeep : S.keep ≤ 7 / 10) {result : ProbeResult} {start : SmoothedSignal}
    (hresult : OnGrid S.digits (field.raw result)) (hstart : OnGrid S.digits (field.stored start))
    {n : ℕ} (hfix : S.step (field.stored (storedWith result start n)) (field.raw result)
      = field.stored (storedWith result start n)) :
    |field.stored (storedWith result start n) - field.raw result| ≤ 1 / 10 ^ S.digits := by
  have hgrid : OnGrid S.digits (field.stored (storedWith result start n)) := by
    rw [field.storedWith_eq]
    exact Smoother.onGrid_iterate hstart n
  exact fixed_near hround hkeep hgrid hresult hfix

/-- **Recovery of smoothed signals.** -/
theorem smoothed_signal_recovers (start : SmoothedSignal) (result : ProbeResult)
    (hqps : OnGrid 3 start.throughputHintQps) (hsuccess : OnGrid 4 start.successRate)
    (hresult : ProbeShaped result) :
    Approaches result.ttfbP50Ms (fun n => (storedWith result start n).ttfbP50Ms)
    ∧ Approaches result.throughputHintQps
        (fun n => (storedWith result start n).throughputHintQps)
    ∧ Approaches result.successRate (fun n => (storedWith result start n).successRate)
    ∧ ∃ N, ∀ n, N ≤ n →
        ((storedWith result start n).ttfbP50Ms = (storedWith result start N).ttfbP50Ms
          ∧ (storedWith result start n).throughputHintQps
            = (storedWith result start N).throughputHintQps
          ∧ (storedWith result start n).successRate = (storedWith result start N).successRate)
        ∧ (result.ttfbP50Ms - 3 ≤ (storedWith result start n).ttfbP50Ms
          ∧ (storedWith result start n).ttfbP50Ms ≤ result.ttfbP50Ms)
        ∧ |(storedWith result start n).throughputHintQps - result.throughputHintQps| ≤ 1 / 1000
        ∧ |(storedWith result start n).successRate - result.successRate| ≤ 1 / 10000 := by
  obtain ⟨hp, Np, hpfix, hpconst⟩ := smoothedP50.approaches (OnGrid.int 0 result.ttfbP50Ms)
    (OnGrid.int 0 start.ttfbP50Ms)
  obtain ⟨hq, Nq, hqfix, hqconst⟩ := smoothedQps.approaches hresult.qps_grid hqps
  obtain ⟨hs, Ns, hsfix, hsconst⟩ := smoothedSuccess.approaches hresult.success_grid hsuccess
  refine ⟨hp, hq, hs, max Np (max Nq Ns), ?_⟩
  intro n hn
  have hNp : Np ≤ max Np (max Nq Ns) := le_max_left _ _
  have hNq : Nq ≤ max Np (max Nq Ns) := (le_max_left _ _).trans (le_max_right _ _)
  have hNs : Ns ≤ max Np (max Nq Ns) := (le_max_right _ _).trans (le_max_right _ _)
  have hpn := hpconst n (hNp.trans hn)
  have hqn := hqconst n (hNq.trans hn)
  have hsn := hsconst n (hNs.trans hn)
  rw [← hpn] at hpfix
  rw [← hqn] at hqfix
  rw [← hsn] at hsfix
  refine ⟨⟨?_, ?_, ?_⟩, ?_, ?_, ?_⟩
  · have := hpn.trans (hpconst _ hNp).symm
    exact Int.cast_injective this
  · exact hqn.trans (hqconst _ hNq).symm
  · exact hsn.trans (hsconst _ hNs).symm
  · exact p50_fixed hresult.ttfb_nonneg hpfix
  · have := smoothedQps.near rfl (by norm_num [qpsSmoother]) hresult.qps_grid hqps hqfix
    exact this.trans_eq (by norm_num [qpsSmoother])
  · have := smoothedSuccess.near rfl (by norm_num [successSmoother]) hresult.success_grid
      hsuccess hsfix
    exact this.trans_eq (by norm_num [successSmoother])

/-- After a failure stored the 9999, successes bring the median back. -/
theorem smoothed_signal_recovers_lab :
    ∃ N, ∀ n, N ≤ n →
      297 ≤ (storedWith labResult (smoothSignal failedResult none) n).ttfbP50Ms
      ∧ (storedWith labResult (smoothSignal failedResult none) n).ttfbP50Ms ≤ 300 := by
  obtain ⟨-, -, -, N, hN⟩ := smoothed_signal_recovers (smoothSignal failedResult none) labResult
    (halfEven.onGrid_digits 3 _) (halfEven.onGrid_digits 4 _) labResult_shaped
  have hmedian : labResult.ttfbP50Ms = 300 := by decide +kernel
  refine ⟨N, fun n hn => ?_⟩
  obtain ⟨-, hnear, -⟩ := hN n hn
  omega

end ControlPlane
