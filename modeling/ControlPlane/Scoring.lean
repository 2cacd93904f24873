import ControlPlane.Filtering

/-!
# The score is monotone in what it reads

`confidence_dominates` is the one comparison lemma the relational results
use: a model whose unit cost, throughput, latency, accuracy, staleness,
degradation and success rate are all no worse than another's gets a
confidence no lower. Each of the four scores is monotone by itself
(`benefitScore_mono`, `costScore_anti`), the two penalties depend only on
whether the signal is stale and whether it is degraded, and rounding,
weighting and clamping preserve the order.

The second half is about the cost: it is non-negative before the final
`max`, and a lower positive throughput never makes it cheaper.
-/

namespace ControlPlane

open Lib

/-! ## The pieces of a score -/

/-- Clamping is monotone. -/
theorem clamp_mono : Monotone clamp := by
  intro a b hab
  unfold clamp
  gcongr

/-- So is rounding to four decimals. -/
theorem round4_mono : Monotone round4 :=
  halfEven.digits_mono 4

/-- And rounding to money. -/
theorem roundMoney_mono (arith : Arithmetic) : Monotone (roundMoney arith) :=
  arith.float_mono.comp (halfUp.digits_mono 6)

/-- A fraction `v / (v + k)` grows with `v`. -/
theorem ratio_mono {v w k : ℚ} (hv : 0 ≤ v) (hvw : v ≤ w) (hk : 0 < k) :
    v / (v + k) ≤ w / (w + k) := by
  rw [div_le_div_iff₀ (by linarith) (by linarith)]
  nlinarith

/-- A fraction `k / (v + k)` shrinks with `v`. -/
theorem coratio_anti {v w k : ℚ} (hv : 0 ≤ v) (hvw : v ≤ w) (hk : 0 < k) :
    k / (w + k) ≤ k / (v + k) :=
  div_le_div_of_nonneg_left hk.le (by linarith) (by linarith)

/-- A baseline is never zero. -/
theorem safeBaseline_pos (baseline : ℚ) : 0 < max baseline (1 / 1000000) :=
  lt_of_lt_of_le (by norm_num) (le_max_right _ _)

/-- More is better. -/
theorem benefitScore_mono (baseline : ℚ) : Monotone fun value => benefitScore value baseline := by
  intro v w hvw
  exact clamp_mono (ratio_mono (le_max_right v 0) (max_le_max_right 0 hvw)
    (safeBaseline_pos baseline))

/-- The cost score, without its special case at zero (where the fraction is
one anyway). -/
theorem costScore_eq (value baseline : ℚ) :
    costScore value baseline
      = clamp (max baseline (1 / 1000000) / (max value 0 + max baseline (1 / 1000000))) := by
  unfold costScore
  dsimp only
  split
  next hzero =>
    rw [hzero, zero_add, div_self (safeBaseline_pos baseline).ne']
    norm_num [clamp]
  next => rfl

/-- Less is better. -/
theorem costScore_anti (baseline : ℚ) : Antitone fun value => costScore value baseline := by
  intro v w hvw
  simp only [costScore_eq]
  exact clamp_mono (coratio_anti (le_max_right v 0) (max_le_max_right 0 hvw)
    (safeBaseline_pos baseline))

/-- A signal is stale when its age is unknown or past the freshness window. -/
def Stale (signalFreshnessSeconds : ℕ) : Option ℕ → Prop
  | none => True
  | some age => signalFreshnessSeconds < age

instance (signalFreshnessSeconds : ℕ) :
    (age : Option ℕ) → Decidable (Stale signalFreshnessSeconds age)
  | none => inferInstanceAs (Decidable True)
  | some age => inferInstanceAs (Decidable (signalFreshnessSeconds < age))

/-- The penalty is all or nothing: past the window the age ratio is capped
at one, so a stale signal pays what an unknown age pays. -/
theorem freshnessPenaltyFor_eq (policy : RoutingPolicy) (signalFreshnessSeconds : ℕ)
    (age : Option ℕ) :
    freshnessPenaltyFor policy signalFreshnessSeconds age
      = if Stale signalFreshnessSeconds age then round4 policy.freshnessPenalty else 0 := by
  cases age with
  | none => rfl
  | some age =>
    -- The window is taken as at least one second, in the source too.
    by_cases hstale : signalFreshnessSeconds < age
    · have hwindow : (0 : ℚ) < (max signalFreshnessSeconds 1 : ℕ) := by positivity
      have hratio : 1 ≤ (age : ℚ) / (max signalFreshnessSeconds 1 : ℕ) := by
        rw [one_le_div hwindow]
        exact_mod_cast max_le hstale.le (Nat.one_le_of_lt hstale)
      rw [freshnessPenaltyFor, if_pos hstale, min_eq_left hratio, one_mul,
        if_pos (show Stale _ (some age) from hstale)]
    · rw [freshnessPenaltyFor, if_neg hstale, if_neg (show ¬Stale _ (some age) from hstale)]

/-- A fresher signal is penalised no more. -/
theorem freshnessPenaltyFor_le (policy : RoutingPolicy) (signalFreshnessSeconds : ℕ)
    {a b : Option ℕ} (h : Stale signalFreshnessSeconds a → Stale signalFreshnessSeconds b) :
    freshnessPenaltyFor policy signalFreshnessSeconds a
      ≤ freshnessPenaltyFor policy signalFreshnessSeconds b := by
  have hpen : 0 ≤ round4 policy.freshnessPenalty :=
    halfEven.digits_nonneg 4 policy.freshnessPenalty_ge
  rw [freshnessPenaltyFor_eq, freshnessPenaltyFor_eq]
  split_ifs with ha hb hb
  · exact le_refl _
  · exact absurd (h ha) hb
  · exact hpen
  · exact le_refl _

/-! ## Dominance -/

/-- No weight is negative. -/
theorem normalizeWeights_nonneg (policy : RoutingPolicy) :
    0 ≤ (normalizeWeights policy).tokenCost ∧ 0 ≤ (normalizeWeights policy).qps
    ∧ 0 ≤ (normalizeWeights policy).latency ∧ 0 ≤ (normalizeWeights policy).accuracy := by
  unfold normalizeWeights
  dsimp only
  split_ifs <;> refine ⟨?_, ?_, ?_, ?_⟩ <;> positivity

/-- Nothing the score reads is worse for `(inpA, a)` than for `(inpB, b)`. -/
structure ScoresNoWorse (inpA : ScanInput) (a : CatalogModel) (inpB : ScanInput)
    (b : CatalogModel) : Prop where
  unitCost : unitCost inpA.rt.arith inpA.request (inpA.signal a) a
    ≤ unitCost inpB.rt.arith inpB.request (inpB.signal b) b
  qps : (inpB.signal b).qps b ≤ (inpA.signal a).qps a
  ttfb : expectedTtfbMs inpA.request (inpA.signal a) a
    ≤ expectedTtfbMs inpB.request (inpB.signal b) b
  accuracy : b.accuracy * (inpB.signal b).success ≤ a.accuracy * (inpA.signal a).success
  success : (inpB.signal b).success ≤ (inpA.signal a).success
  stale : Stale inpA.signalFreshnessSeconds (inpA.age a) →
    Stale inpB.signalFreshnessSeconds (inpB.age b)
  degraded : truthy (inpA.signal a).degradedReason = true →
    truthy (inpB.signal b).degradedReason = true

/-- **Dominance carries to the confidence score.** -/
theorem confidence_dominates {inpA inpB : ScanInput} {a b : CatalogModel}
    (hpolicy : inpA.policy = inpB.policy) (hbase : inpA.baseline = inpB.baseline)
    (hfresh : inpA.signalFreshnessSeconds = inpB.signalFreshnessSeconds)
    (h : ScoresNoWorse inpA a inpB b) :
    confidenceScore inpB b ≤ confidenceScore inpA a := by
  obtain ⟨hw1, hw2, hw3, hw4⟩ := normalizeWeights_nonneg inpB.policy
  have hbonus := inpB.policy.fallbackBonus_ge
  -- The four scores, the two penalties and the bonus, one after the other.
  have htok : (scoreBreakdown inpB b).tokenCost ≤ (scoreBreakdown inpA a).tokenCost := by
    simp only [scoreBreakdown, hbase]
    exact round4_mono (costScore_anti _ h.unitCost)
  have hqps : (scoreBreakdown inpB b).qps ≤ (scoreBreakdown inpA a).qps := by
    simp only [scoreBreakdown, hbase]
    exact round4_mono (benefitScore_mono _ h.qps)
  have hlat : (scoreBreakdown inpB b).latency ≤ (scoreBreakdown inpA a).latency := by
    simp only [scoreBreakdown, hbase]
    exact round4_mono (costScore_anti _ (by exact_mod_cast h.ttfb))
  have hacc : (scoreBreakdown inpB b).accuracy ≤ (scoreBreakdown inpA a).accuracy := by
    simp only [scoreBreakdown, hbase]
    exact round4_mono (benefitScore_mono _ h.accuracy)
  have hpen : (scoreBreakdown inpA a).freshnessPenalty
      ≤ (scoreBreakdown inpB b).freshnessPenalty := by
    have hstale := h.stale
    simp only [scoreBreakdown]
    rw [hpolicy, hfresh]
    rw [hfresh] at hstale
    exact freshnessPenaltyFor_le _ _ hstale
  have hdeg : (scoreBreakdown inpA a).degradedPenalty
      ≤ (scoreBreakdown inpB b).degradedPenalty := by
    have hdeg := h.degraded
    simp only [scoreBreakdown, hpolicy]
    refine round4_mono ?_
    split_ifs with h1 h2 h2
    · exact le_refl _
    · exact absurd (hdeg h1) h2
    · exact inpB.policy.degradedPenalty_ge
    · exact le_refl _
  have hbon : (scoreBreakdown inpB b).fallbackBonus ≤ (scoreBreakdown inpA a).fallbackBonus := by
    simp only [scoreBreakdown, hpolicy]
    exact round4_mono (mul_le_mul_of_nonneg_left h.success hbonus)
  unfold confidenceScore
  dsimp only
  rw [hpolicy]
  -- Rounding and clamping are monotone; what is left is linear in the seven parts.
  refine round4_mono (clamp_mono ?_)
  unfold ScoreBreakdown.weighted
  have e1 := mul_le_mul_of_nonneg_right htok hw1
  have e2 := mul_le_mul_of_nonneg_right hqps hw2
  have e3 := mul_le_mul_of_nonneg_right hlat hw3
  have e4 := mul_le_mul_of_nonneg_right hacc hw4
  linarith

/-! ## Cost -/

section Cost

variable (arith : Arithmetic) (request : RoutingDecisionRequest) (model : CatalogModel)

/-- No price is negative. -/
theorem pickTier_nonneg (totalTokens : ℕ) :
    0 ≤ (pickTier model totalTokens).inPrice1k ∧ 0 ≤ (pickTier model totalTokens).outPrice1k := by
  unfold pickTier
  split
  next tier _ => exact ⟨tier.inPrice1k_ge, tier.outPrice1k_ge⟩
  next => exact ⟨model.inPrice1k_ge, model.outPrice1k_ge⟩

/-- Nor is the price of some tokens. -/
theorem priceOf_nonneg (tokens : ℕ) {price : ℚ} (h : 0 ≤ price) :
    0 ≤ priceOf arith tokens price :=
  arith.decimal_nonneg (mul_nonneg (arith.decimal_nonneg (by positivity))
    (arith.decimalOf_nonneg h))

/-- The tokens cost nothing or more. -/
theorem tokenCost_nonneg : 0 ≤ tokenCost arith request model := by
  obtain ⟨hin, hout⟩ := pickTier_nonneg model (totalTokens arith request model)
  exact arith.decimal_nonneg (add_nonneg (priceOf_nonneg arith _ hin)
    (priceOf_nonneg arith _ hout))

/-- The cold start adds to that. -/
theorem withColdStart_nonneg {c : ℚ} (hc : 0 ≤ c) : 0 ≤ withColdStart arith request model c := by
  unfold withColdStart
  split_ifs
  · exact arith.decimal_nonneg (add_nonneg hc
      (arith.decimalOf_nonneg model.coldStartCostUsd_ge))
  · exact hc

/-- A decimal of the context stays one when the cold start is added. -/
theorem decimal_withColdStart {c : ℚ} (hc : arith.decimal c = c) :
    arith.decimal (withColdStart arith request model c) = withColdStart arith request model c := by
  unfold withColdStart
  split_ifs
  · exact arith.decimal_decimal _
  · exact hc

/-- The discount leaves a cost. -/
theorem withLongTextDiscount_nonneg {c : ℚ} (hc : 0 ≤ c) (hdecimal : arith.decimal c = c) :
    0 ≤ withLongTextDiscount arith request model c := by
  unfold withLongTextDiscount
  split_ifs
  · -- The rate is at most one, so the discount takes off no more than there is.
    have hrate := arith.decimalOf_le_one model.longTextDiscountRate_le
    have hproduct : c * arith.decimalOf model.longTextDiscountRate ≤ c :=
      mul_le_of_le_one_right hc hrate
    have hdiscount := arith.decimal_mono hproduct
    rw [hdecimal] at hdiscount
    exact arith.decimal_nonneg (sub_nonneg.mpr hdiscount)
  · exact hc

/-- The discounted cost is a decimal of the context. -/
theorem decimal_withLongTextDiscount {c : ℚ} (hc : arith.decimal c = c) :
    arith.decimal (withLongTextDiscount arith request model c)
      = withLongTextDiscount arith request model c := by
  unfold withLongTextDiscount
  split_ifs
  · exact arith.decimal_decimal _
  · exact hc

/-- The cost before the premium, the part no signal touches. -/
def signalFreeCost : ℚ :=
  withLongTextDiscount arith request model
    (withColdStart arith request model (tokenCost arith request model))

/-- It is the result of a decimal operation. -/
theorem decimal_signalFreeCost :
    arith.decimal (signalFreeCost arith request model) = signalFreeCost arith request model :=
  decimal_withLongTextDiscount arith request model
    (decimal_withColdStart arith request model (arith.decimal_decimal _))

/-- What a request costs without the signals. -/
theorem signalFreeCost_nonneg : 0 ≤ signalFreeCost arith request model :=
  withLongTextDiscount_nonneg arith request model
    (withColdStart_nonneg arith request model (tokenCost_nonneg arith request model))
    (decimal_withColdStart arith request model (arith.decimal_decimal _))

/-- What the premium multiplies the cost by. -/
def premiumRate (signal : Signal) : ℚ :=
  arith.decimalOf (arith.float (arith.float model.concurrencyPremiumRate
    * overage arith request signal model))

/-- The model runs above its burst threshold. -/
def Bursts (signal : Signal) : Prop :=
  0 < throughputHint request ∧ 0 < signal.qps model
    ∧ arith.float model.burstQpsThreshold < loadFactor arith request signal model

/-- Above the threshold the overage, and with it the premium, is not negative. -/
theorem premiumRate_nonneg {signal : Signal} (h : Bursts arith request model signal) :
    0 ≤ premiumRate arith request model signal := by
  have hover : 0 ≤ overage arith request signal model :=
    le_min (arith.float_nonneg (sub_nonneg.mpr h.2.2.le)) zero_le_one
  exact arith.decimalOf_nonneg (arith.float_nonneg
    (mul_nonneg (arith.float_nonneg model.concurrencyPremiumRate_ge) hover))

/-- A higher load does not lower the premium, whoever asks. -/
theorem premiumRate_le {relaxed strict : RoutingDecisionRequest} {a b : Signal}
    (hload : loadFactor arith relaxed a model ≤ loadFactor arith strict b model) :
    premiumRate arith relaxed model a ≤ premiumRate arith strict model b := by
  have hover : overage arith relaxed a model ≤ overage arith strict b model :=
    min_le_min_right 1 (arith.float_mono (sub_le_sub_right hload _))
  exact arith.decimalOf_mono (arith.float_mono (mul_le_mul_of_nonneg_left hover
    (arith.float_nonneg model.concurrencyPremiumRate_ge)))

/-- The premium, once the model bursts. -/
theorem withConcurrencyPremium_of_bursts {signal : Signal}
    (h : Bursts arith request model signal) (c : ℚ) :
    withConcurrencyPremium arith request signal model c
      = arith.decimal (c + arith.decimal (c * premiumRate arith request model signal)) :=
  if_pos h

/-- The premium only ever adds. -/
theorem le_withConcurrencyPremium (signal : Signal) {c : ℚ} (hc : 0 ≤ c)
    (hdecimal : arith.decimal c = c) :
    c ≤ withConcurrencyPremium arith request signal model c := by
  by_cases h : Bursts arith request model signal
  · rw [withConcurrencyPremium_of_bursts arith request model h]
    exact arith.le_decimal_add hdecimal (arith.decimal_nonneg
      (mul_nonneg hc (premiumRate_nonneg arith request model h)))
  · exact (if_neg h).ge

/-- Since every step keeps the sign, the closing `max(ZERO, …)` does nothing. -/
theorem totalCost_eq (signal : Signal) :
    totalCost arith request signal model
      = withConcurrencyPremium arith request signal model (signalFreeCost arith request model) := by
  have hfree := signalFreeCost_nonneg arith request model
  exact max_eq_right (hfree.trans (le_withConcurrencyPremium arith request model signal hfree
    (decimal_signalFreeCost arith request model)))

/-- And with them. -/
theorem totalCost_nonneg (signal : Signal) : 0 ≤ totalCost arith request signal model :=
  le_max_left _ _

/-- **A higher load costs no less.** Where the first bursts so does the
second, at a load no lower; where it does not, the second can only add a
premium to the same cost. -/
theorem totalCost_le {relaxed strict : RoutingDecisionRequest} {a b : Signal}
    (hfree : signalFreeCost arith relaxed model = signalFreeCost arith strict model)
    (hload : Bursts arith relaxed model a →
      (0 < throughputHint strict ∧ 0 < b.qps model)
        ∧ loadFactor arith relaxed a model ≤ loadFactor arith strict b model) :
    totalCost arith relaxed a model ≤ totalCost arith strict b model := by
  have hnonneg := signalFreeCost_nonneg arith strict model
  rw [totalCost_eq, totalCost_eq, hfree]
  by_cases ha : Bursts arith relaxed model a
  · obtain ⟨⟨hhint, hqps⟩, hle⟩ := hload ha
    have hb : Bursts arith strict model b := ⟨hhint, hqps, lt_of_lt_of_le ha.2.2 hle⟩
    rw [withConcurrencyPremium_of_bursts arith relaxed model ha,
      withConcurrencyPremium_of_bursts arith strict model hb]
    have hpremium := mul_le_mul_of_nonneg_left (premiumRate_le arith model hle) hnonneg
    exact arith.decimal_mono (add_le_add_right (arith.decimal_mono hpremium) _)
  · have hnone : withConcurrencyPremium arith relaxed a model (signalFreeCost arith strict model)
        = signalFreeCost arith strict model := if_neg ha
    rw [hnone]
    exact le_withConcurrencyPremium arith strict model b hnonneg
      (decimal_signalFreeCost arith strict model)

/-- A lower throughput that stays positive never makes the model cheaper. -/
theorem totalCost_anti_qps {a b : Signal} (hle : b.qps model ≤ a.qps model)
    (hpos : 0 < throughputHint request → 0 < a.qps model → 0 < b.qps model) :
    totalCost arith request a model ≤ totalCost arith request b model := by
  refine totalCost_le arith model rfl ?_
  intro ha
  have hqps := hpos ha.1 ha.2.1
  -- The load factor grows as the throughput falls.
  exact ⟨⟨ha.1, hqps⟩, arith.float_mono (div_le_div_of_nonneg_left ha.1.le hqps hle)⟩

/-- There is a token at least. -/
theorem totalTokens_pos : (0 : ℚ) < totalTokens arith request model := by
  have : 1 ≤ totalTokens arith request model := Nat.le_max_left _ _
  exact_mod_cast this

/-- The unit cost, without its special case at zero. -/
theorem unitCost_eq (signal : Signal) :
    unitCost arith request signal model
      = arith.decimal (arith.decimal (totalCost arith request signal model * 1000)
          / totalTokens arith request model) := by
  unfold unitCost
  split
  next hzero => rw [hzero, zero_mul, arith.decimal_zero, zero_div, arith.decimal_zero]
  next => rfl

/-- Over the same tokens, a lower cost is a lower unit cost. -/
theorem unitCost_le {relaxed strict : RoutingDecisionRequest} {a b : Signal}
    (htokens : totalTokens arith relaxed model = totalTokens arith strict model)
    (hcost : totalCost arith relaxed a model ≤ totalCost arith strict b model) :
    unitCost arith relaxed a model ≤ unitCost arith strict b model := by
  rw [unitCost_eq, unitCost_eq, htokens]
  have hscaled := arith.decimal_mono
    (mul_le_mul_of_nonneg_right hcost (by norm_num : (0 : ℚ) ≤ 1000))
  exact arith.decimal_mono
    (div_le_div_of_nonneg_right hscaled (totalTokens_pos arith strict model).le)

end Cost

end ControlPlane
