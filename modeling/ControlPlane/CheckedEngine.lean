import ControlPlane.Lib.Checked
import ControlPlane.Ladder

/-!
# The engine with its divisions and records checked

`calculateRoutingDecision` divides as a total function and builds records of
any numbers. The source does neither: a zero divisor raises, and so does a
record with a field outside the bounds its schema declares. This file runs
the engine again with both raising (`checkedRoutingDecision`, every
definition below its namesake in `PricingEngine`) and shows that neither
ever happens: each quotient's divisor is non-zero where it is reached, each
record is in bounds, so the checked engine is the plain one
(`checkedRoutingDecision_eq`) and what it returns is inside the schema
(`returned_within`).

Mirroring notes:
- `Runtime.computeMs` is what two readings of `perf_counter` give;
  `Runtime.Monotonic` says that the clock does not run backwards.
- What raises because a number is too large for its type (a count for a
  float, an expiry for a datetime) is in `Ranges`.
- A `RoutingDecisionResponse` is built of records that were validated when
  they were built; pydantic does not validate them again, and what is left
  is the length of `candidates`.
-/

namespace ControlPlane

open Lib

/-! ## Declared bounds — `app/schemas/routing.py` -/

/-- The bounds of `ScoreBreakdown`. -/
def scoreBreakdownFields : List (BoundedField ScoreBreakdown) :=
  [.unit "token_cost" (·.tokenCost), .unit "qps" (·.qps), .unit "latency" (·.latency),
    .unit "accuracy" (·.accuracy), .unit "freshness_penalty" (·.freshnessPenalty),
    .unit "degraded_penalty" (·.degradedPenalty), .unit "fallback_bonus" (·.fallbackBonus)]

/-- The bounds of `DecisionCandidate`. -/
def decisionCandidateFields : List (BoundedField DecisionCandidate) :=
  [.atLeast 1 "rank" (·.rank), .atLeast 0 "estimated_cost_usd" (·.estimatedCostUsd),
    .atLeast 0 "expected_ttfb_ms" (·.expectedTtfbMs), .unit "confidence_score" (·.confidenceScore),
    .optAtLeast 0 "signal_freshness_seconds" fun c =>
      c.signalFreshnessSeconds.map fun seconds : ℕ => (seconds : ℚ)]

/-- The bounds of `DecisionObservability`. -/
def decisionObservabilityFields : List (BoundedField DecisionObservability) :=
  [.atLeast 0 "decision_compute_ms" (·.decisionComputeMs),
    .atLeast 0 "evaluated_models" (·.evaluatedModels),
    .atLeast 0 "candidate_count" (·.candidateCount),
    .atLeast 0 "filtered_by_budget" (·.filteredByBudget),
    .atLeast 0 "filtered_by_latency" (·.filteredByLatency),
    .atLeast 0 "filtered_by_capacity" (·.filteredByCapacity),
    .atLeast 0 "filtered_by_capability" (·.filteredByCapability),
    .atLeast 0 "filtered_by_provider" (·.filteredByProvider),
    .optAtLeast 0 "signal_freshness_min_seconds" fun o =>
      o.signalFreshnessMinSeconds.map fun seconds : ℕ => (seconds : ℚ),
    .unit "fallback_safety_score" (·.fallbackSafetyScore)]

/-- The bounds of `RoutingDecisionResponse`. -/
def routingDecisionResponseFields : List (BoundedField RoutingDecisionResponse) :=
  [.atLeast 1 "candidates" (·.candidates.length)]

/-! ## The engine, with every division and every record checked -/

/-- `_benefit_score`, with its division. -/
def checkedBenefitScore (value baseline : ℚ) : Checked ServiceError ℚ := do
  let safeValue := max value 0
  let safeBaseline := max baseline (1 / 1000000)
  let ratio ← divide safeValue (safeValue + safeBaseline)
  return clamp ratio

/-- `_cost_score`. -/
def checkedCostScore (value baseline : ℚ) : Checked ServiceError ℚ :=
  let safeValue := max value 0
  let safeBaseline := max baseline (1 / 1000000)
  if safeValue = 0 then .ok 1
  else do
    let ratio ← divide safeBaseline (safeValue + safeBaseline)
    return clamp ratio

/-- `_normalize_weights`, which divides by the weights' sum. -/
def checkedNormalizeWeights (policy : RoutingPolicy) : Checked ServiceError Weights := do
  let w := policy.weights
  let sum := max 0 w.tokenCost + max 0 w.qps + max 0 w.latency + max 0 w.accuracy
  let total := if sum = 0 then 1 else sum
  let tokenCost ← divide (max 0 w.tokenCost) total
  let qps ← divide (max 0 w.qps) total
  let latency ← divide (max 0 w.latency) total
  let accuracy ← divide (max 0 w.accuracy) total
  return { tokenCost, qps, latency, accuracy }

section Cost

variable (arith : Arithmetic) (request : RoutingDecisionRequest) (signal : Signal)
  (model : CatalogModel)

/-- The price of some tokens, at a price for a thousand. -/
def checkedPriceOf (tokens : ℕ) (price : ℚ) : Checked ServiceError ℚ := do
  let thousands ← divide tokens 1000
  return arith.decimal (arith.decimal thousands * arith.decimalOf price)

/-- `_token_cost`. -/
def checkedTokenCost : Checked ServiceError ℚ := do
  let tier := pickTier model (totalTokens arith request model)
  let inputCost ← checkedPriceOf arith (inputTokens arith request model) tier.inPrice1k
  let outputCost ← checkedPriceOf arith (outputTokens request) tier.outPrice1k
  return arith.decimal (inputCost + outputCost)

/-- The load factor is computed only behind `qps > 0`, and twice. -/
def checkedConcurrencyPremium (baseCost : ℚ) : Checked ServiceError ℚ :=
  let qps := signal.qps model
  if 0 < throughputHint request ∧ 0 < qps then do
    let load ← divide (throughputHint request) qps
    if arith.float model.burstQpsThreshold < arith.float load then do
      let loadAgain ← divide (throughputHint request) qps
      let overage :=
        min (arith.float (arith.float loadAgain - arith.float model.burstQpsThreshold)) 1
      return arith.decimal (baseCost + arith.decimal (baseCost * arith.decimalOf
        (arith.float (arith.float model.concurrencyPremiumRate * overage))))
    else return baseCost
  else return baseCost

/-- `_total_cost`. -/
def checkedTotalCost : Checked ServiceError ℚ := do
  let baseCost ← checkedTokenCost arith request model
  let baseCost := withColdStart arith request model baseCost
  let baseCost := withLongTextDiscount arith request model baseCost
  let baseCost ← checkedConcurrencyPremium arith request signal model baseCost
  return max 0 baseCost

/-- The published unit cost. -/
def checkedUnitCost (totalCost : ℚ) : Checked ServiceError ℚ :=
  if totalCost = 0 then .ok 0
  else do
    let quotient ← divide (arith.decimal (totalCost * 1000)) (totalTokens arith request model)
    return arith.decimal quotient

end Cost

/-- `_freshness_penalty`. -/
def checkedFreshnessPenalty (policy : RoutingPolicy) (signalFreshnessSeconds : ℕ) :
    Option ℕ → Checked ServiceError ℚ
  | none => .ok (round4 policy.freshnessPenalty)
  | some age =>
    if signalFreshnessSeconds < age then do
      let ratio ← divide age (max signalFreshnessSeconds 1 : ℕ)
      return round4 (min 1 ratio * policy.freshnessPenalty)
    else .ok 0

/-- `_score_breakdown`, validated. -/
def checkedScoreBreakdown (inp : ScanInput) (model : CatalogModel) (totalCost : ℚ) :
    Checked ServiceError ScoreBreakdown := do
  let signal := inp.signal model
  let unitCost ← checkedUnitCost inp.rt.arith inp.request model totalCost
  let freshnessPenalty ←
    checkedFreshnessPenalty inp.policy inp.signalFreshnessSeconds (inp.age model)
  let tokenCost ← checkedCostScore unitCost inp.baseline.tokenCostUsdPer1k
  let qps ← checkedBenefitScore (signal.qps model) inp.baseline.qps
  let latency ←
    checkedCostScore (expectedTtfbMs inp.request signal model) inp.baseline.latencyMs
  let accuracy ← checkedBenefitScore (model.accuracy * signal.success) inp.baseline.accuracy
  validate "ScoreBreakdown" scoreBreakdownFields
    { tokenCost := round4 tokenCost
      qps := round4 qps
      latency := round4 latency
      accuracy := round4 accuracy
      freshnessPenalty
      degradedPenalty :=
        round4 (if truthy signal.degradedReason then inp.policy.degradedPenalty else 0)
      fallbackBonus := round4 (inp.policy.fallbackBonus * signal.success) }

/-- `_candidate`, validated. -/
def checkedCandidate (inp : ScanInput) (weights : Weights) (rank : ℕ) (model : CatalogModel)
    (totalCost : ℚ) : Checked ServiceError DecisionCandidate := do
  let breakdown ← checkedScoreBreakdown inp model totalCost
  validate "DecisionCandidate" decisionCandidateFields
    { rank
      modelId := model.modelId
      provider := model.provider
      estimatedCostUsd := roundMoney inp.rt.arith totalCost
      expectedTtfbMs := expectedTtfbMs inp.request (inp.signal model) model
      confidenceScore := round4 (clamp (breakdown.weighted weights
        - breakdown.freshnessPenalty - breakdown.degradedPenalty + breakdown.fallbackBonus))
      signalFreshnessSeconds := inp.age model
      degradedReason := (inp.signal model).degradedReason
      scoreBreakdown := breakdown }

/-- `scanModel`, line by line. -/
def checkedScanModel (inp : ScanInput) (weights : Weights) (st : ScanState)
    (model : CatalogModel) : Checked ServiceError ScanState :=
  let request := inp.request
  if outsideAllowlist request model then
    .ok <| { st with filteredByProvider := st.filteredByProvider + 1 }.reject model
      .providerFiltered s!"provider '{model.provider}' not present in allowlist"
  else if insideDenylist request model then
    .ok <| { st with filteredByProvider := st.filteredByProvider + 1 }.reject model
      .providerFiltered s!"provider '{model.provider}' explicitly denied"
  else match matchesCapabilities model request with
  | some capabilityGap =>
    .ok <| { st with filteredByCapability := st.filteredByCapability + 1 }.reject model
      .capabilityFiltered s!"missing or incompatible capability: {capabilityGap}"
  | none =>
    let signal := inp.signal model
    let ageSeconds := inp.age model
    let st := { st with
      freshnessValues := st.freshnessValues ++
        [ageSeconds.getD (inp.signalFreshnessSeconds * 2)] }
    if exceedsCapacity inp.rt.arith request signal model then
      .ok <| { st with filteredByCapacity := st.filteredByCapacity + 1 }.reject model
        .capacityFiltered
        ("throughput_hint_qps=" ++ inp.rt.floatRepr (throughputHint request)
          ++ " exceeds effective capacity "
          ++ inp.rt.floatRepr (halfEven.digits 2 (effectiveCapacity inp.rt.arith signal model)))
    else do
      let cost ← checkedTotalCost inp.rt.arith request signal model
      let ttfbMs := expectedTtfbMs request signal model
      if request.budgetLimitUsd = 0 ∧ 0 < cost then
        .ok <| { st with filteredByBudget := st.filteredByBudget + 1 }.reject model
          .budgetFiltered "request requires a zero-cost route but model is billable"
      else if 0 < request.budgetLimitUsd
          ∧ inp.rt.arith.float request.budgetLimitUsd < inp.rt.arith.float cost then
        .ok <| { st with filteredByBudget := st.filteredByBudget + 1 }.reject model
          .budgetFiltered
          ("estimated cost " ++ inp.rt.floatRepr (halfEven.digits 6 (inp.rt.arith.float cost))
            ++ " exceeds budget_limit_usd=" ++ inp.rt.floatRepr request.budgetLimitUsd)
      else if request.latencySloMs.any fun slo => decide ((slo : ℤ) < ttfbMs) then
        .ok <| { st with filteredByLatency := st.filteredByLatency + 1 }.reject model
          .latencyFiltered
          s!"expected_ttfb_ms={ttfbMs} exceeds latency_slo_ms={request.latencySloMs.getD 0}"
      else do
        let candidate ← checkedCandidate inp weights (st.candidates.length + 1) model cost
        return { st with candidates := st.candidates ++ [candidate] }

/-- `_fallback_safety_score`. -/
def checkedFallbackSafetyScore (candidates : List DecisionCandidate) : Checked ServiceError ℚ :=
  if candidates = [] then .ok 0
  else do
    let mean ← divide (candidates.map (·.confidenceScore)).sum candidates.length
    return round4 (clamp mean)

/-- What the engine does behind its loop. The observability record is built,
and so validated, before the source looks whether anything survived. -/
def checkedDecisionFrom (catalog : CatalogSnapshot) (request : RoutingDecisionRequest)
    (policy : RoutingPolicy) (signalFreshnessSeconds ttlSeconds : ℕ) (rt : Runtime)
    (st : ScanState) : Checked ServiceError RoutingDecisionResponse := do
  let candidates := rankCandidates policy.maxCandidates st.candidates
  let fallbackSafetyScore ← checkedFallbackSafetyScore candidates
  let observability ← validate "DecisionObservability" decisionObservabilityFields
    { decisionComputeMs := rt.computeMs
      evaluatedModels := catalog.models.length
      candidateCount := candidates.length
      filteredByBudget := st.filteredByBudget
      filteredByLatency := st.filteredByLatency
      filteredByCapacity := st.filteredByCapacity
      filteredByCapability := st.filteredByCapability
      filteredByProvider := st.filteredByProvider
      signalFreshnessMinSeconds := st.freshnessValues.min?
      fallbackSafetyScore
      policyTrace := policyTrace catalog policy candidates st.rejections signalFreshnessSeconds }
  match candidates with
  | [] => .error (.raised noSurvivor)
  | top :: _ =>
    validate "RoutingDecisionResponse" routingDecisionResponseFields
      { decisionId := ""
        catalogVersion := catalog.version
        policyId := policy.policyId
        policyVersion := policy.version
        expiresAt := rt.now + ttlSeconds * 1000000
        recommended := top
        candidates
        rejections := st.rejections
        decisionExplanation :=
          "Selected " ++ top.modelId ++ " for policy '" ++ policy.policyId
            ++ "' because it offered the best confidence/cost/latency balance for task_type='"
            ++ request.taskType ++ "' with " ++ toString candidates.length
            ++ " viable candidates after filtering."
        observability }

/-- `calculate_routing_decision`, with its divisions and records checked. -/
def checkedRoutingDecision (request : RoutingDecisionRequest) (catalog : CatalogSnapshot)
    (policy : RoutingPolicy) (signals : SignalMap) (signalFreshnessSeconds ttlSeconds : ℕ)
    (rt : Runtime) : Checked ServiceError RoutingDecisionResponse := do
  let inp := scanInput request catalog policy signals signalFreshnessSeconds rt
  let weights ← checkedNormalizeWeights policy
  let st ← catalog.models.foldlM (checkedScanModel inp weights) {}
  checkedDecisionFrom catalog request policy signalFreshnessSeconds ttlSeconds rt st

/-! ## No divisor is zero -/

/-- The divisor of a score is positive. -/
theorem divisor_pos (value baseline : ℚ) : 0 < max value 0 + max baseline (1 / 1000000) := by
  have hvalue : 0 ≤ max value 0 := le_max_right _ _
  have hbaseline := safeBaseline_pos baseline
  linarith

/-- The division of a benefit score never raises. -/
theorem checkedBenefitScore_eq (value baseline : ℚ) :
    checkedBenefitScore value baseline = .ok (benefitScore value baseline) := by
  unfold checkedBenefitScore
  dsimp only
  rw [divide_eq (divisor_pos value baseline).ne']
  rfl

/-- Nor does that of a cost score. -/
theorem checkedCostScore_eq (value baseline : ℚ) :
    checkedCostScore value baseline = .ok (costScore value baseline) := by
  unfold checkedCostScore costScore
  dsimp only
  split
  next => rfl
  next =>
    rw [divide_eq (divisor_pos value baseline).ne']
    rfl

/-- Nor does the division by the weights' sum. -/
theorem checkedNormalizeWeights_eq (policy : RoutingPolicy) :
    checkedNormalizeWeights policy = .ok (normalizeWeights policy) := by
  have htotal : ∀ sum : ℚ, (if sum = 0 then 1 else sum) ≠ 0 := by
    intro sum
    split
    next => norm_num
    next hsum => exact hsum
  unfold checkedNormalizeWeights normalizeWeights
  simp only [divide_eq (htotal _), ok_bind, pure_eq_ok]

section Cost

variable (arith : Arithmetic) (request : RoutingDecisionRequest) (signal : Signal)
  (model : CatalogModel)

/-- Nor that by a thousand tokens. -/
theorem checkedPriceOf_eq (tokens : ℕ) (price : ℚ) :
    checkedPriceOf arith tokens price = .ok (priceOf arith tokens price) := by
  have hthousand : (1000 : ℚ) ≠ 0 := by norm_num
  unfold checkedPriceOf priceOf
  rw [divide_eq hthousand, ok_bind, pure_eq_ok]

/-- The cost of a request's tokens raises nothing. -/
theorem checkedTokenCost_eq :
    checkedTokenCost arith request model = .ok (tokenCost arith request model) := by
  unfold checkedTokenCost tokenCost
  simp only [checkedPriceOf_eq, ok_bind, pure_eq_ok]

/-- Nor does the premium for bursts. -/
theorem checkedConcurrencyPremium_eq (baseCost : ℚ) :
    checkedConcurrencyPremium arith request signal model baseCost
      = .ok (withConcurrencyPremium arith request signal model baseCost) := by
  unfold checkedConcurrencyPremium withConcurrencyPremium overage loadFactor
  dsimp only
  by_cases hhint : 0 < throughputHint request ∧ 0 < signal.qps model
  · rw [if_pos hhint, divide_eq hhint.2.ne', ok_bind]
    by_cases hburst : arith.float model.burstQpsThreshold
        < arith.float (throughputHint request / signal.qps model)
    · rw [if_pos hburst, if_pos ⟨hhint.1, hhint.2, hburst⟩]
      rfl
    · rw [if_neg hburst, if_neg (fun h => hburst h.2.2)]
      rfl
  · rw [if_neg hhint, if_neg (fun h => hhint ⟨h.1, h.2.1⟩)]
    rfl

/-- The total cost raises nothing. -/
theorem checkedTotalCost_eq :
    checkedTotalCost arith request signal model
      = .ok (totalCost arith request signal model) := by
  unfold checkedTotalCost totalCost
  simp only [checkedTokenCost_eq, checkedConcurrencyPremium_eq, ok_bind, pure_eq_ok]

/-- Nor does the unit cost: there is a token at least. -/
theorem checkedUnitCost_eq :
    checkedUnitCost arith request model (totalCost arith request signal model)
      = .ok (unitCost arith request signal model) := by
  have htokens := (totalTokens_pos arith request model).ne'
  unfold checkedUnitCost unitCost
  split
  next => rfl
  next => rw [divide_eq htokens, ok_bind, pure_eq_ok]

end Cost

/-- Nor does the freshness penalty. -/
theorem checkedFreshnessPenalty_eq (policy : RoutingPolicy) (signalFreshnessSeconds : ℕ)
    (age : Option ℕ) :
    checkedFreshnessPenalty policy signalFreshnessSeconds age
      = .ok (freshnessPenaltyFor policy signalFreshnessSeconds age) := by
  have hwindow : ((max signalFreshnessSeconds 1 : ℕ) : ℚ) ≠ 0 := by
    have : 0 < max signalFreshnessSeconds 1 := by omega
    exact_mod_cast this.ne'
  cases age with
  | none => rfl
  | some age =>
    unfold checkedFreshnessPenalty freshnessPenaltyFor
    dsimp only
    split
    next =>
      rw [divide_eq hwindow]
      rfl
    next => rfl

/-- Nor does the fallback safety score. -/
theorem checkedFallbackSafetyScore_eq (candidates : List DecisionCandidate) :
    checkedFallbackSafetyScore candidates = .ok (fallbackSafetyScore candidates) := by
  unfold checkedFallbackSafetyScore fallbackSafetyScore
  split
  next => rfl
  next hne =>
    have hlength : (candidates.length : ℚ) ≠ 0 := by
      exact_mod_cast (List.length_pos_iff.mpr hne).ne'
    rw [divide_eq hlength]
    rfl

/-! ## Every record is in bounds -/

/-- A clamped value is a share of one. -/
theorem clamp_bounds (value : ℚ) : 0 ≤ clamp value ∧ clamp value ≤ 1 :=
  ⟨le_max_left _ _, max_le zero_le_one (min_le_left _ _)⟩

/-- Rounding to four decimals does not leave the unit interval. -/
theorem round4_bounds {value : ℚ} (h : 0 ≤ value ∧ value ≤ 1) :
    0 ≤ round4 value ∧ round4 value ≤ 1 :=
  ⟨halfEven.digits_nonneg 4 h.1, halfEven.digits_le_one 4 h.2⟩

/-- A benefit score is a share of one. -/
theorem benefitScore_bounds (value baseline : ℚ) :
    0 ≤ benefitScore value baseline ∧ benefitScore value baseline ≤ 1 :=
  clamp_bounds _

/-- A cost score is a share of one. -/
theorem costScore_bounds (value baseline : ℚ) :
    0 ≤ costScore value baseline ∧ costScore value baseline ≤ 1 := by
  rw [costScore_eq]
  exact clamp_bounds _

/-- A freshness penalty is a share of one. -/
theorem freshnessPenaltyFor_bounds (policy : RoutingPolicy) (signalFreshnessSeconds : ℕ)
    (age : Option ℕ) :
    0 ≤ freshnessPenaltyFor policy signalFreshnessSeconds age
      ∧ freshnessPenaltyFor policy signalFreshnessSeconds age ≤ 1 := by
  rw [freshnessPenaltyFor_eq]
  split
  next => exact round4_bounds ⟨policy.freshnessPenalty_ge, policy.freshnessPenalty_le⟩
  next => exact ⟨le_refl _, zero_le_one⟩

/-- A success rate is a share of one. -/
theorem Signal.WellFormed.success_bounds {signal : Signal} (h : signal.WellFormed) :
    0 ≤ signal.success ∧ signal.success ≤ 1 := by
  unfold Signal.success
  cases hs : signal.successRate with
  | none => exact ⟨zero_le_one, le_refl _⟩
  | some rate => exact h.success rate hs

/-- An expected time is not negative. -/
theorem Signal.WellFormed.expectedTtfbMs_nonneg {signal : Signal} (h : signal.WellFormed)
    (request : RoutingDecisionRequest) (model : CatalogModel) :
    0 ≤ expectedTtfbMs request signal model := by
  have hvalue : (0 : ℚ) ≤ signal.ttfbP50Ms.getD model.defaultTtfbMs := by
    cases ht : signal.ttfbP50Ms with
    | none => exact Nat.cast_nonneg _
    | some ttfb => exact h.ttfb ttfb ht
  have hprobe : 0 ≤ signal.ttfbMs model := trunc.le_toInt (by exact_mod_cast hvalue)
  unfold expectedTtfbMs
  split
  · omega
  · exact hprobe

/-- What the two records of a candidate ask of its signal; everything else in
them is in bounds for any. -/
structure Publishable (inp : ScanInput) (model : CatalogModel) : Prop where
  bonus_ge : 0 ≤ round4 (inp.policy.fallbackBonus * (inp.signal model).success)
  bonus_le : round4 (inp.policy.fallbackBonus * (inp.signal model).success) ≤ 1
  ttfb_ge : 0 ≤ expectedTtfbMs inp.request (inp.signal model) model

section Records

variable (inp : ScanInput) (model : CatalogModel)

/-- Of a breakdown's bounds only the fallback bonus could fail. -/
theorem scoreBreakdown_within_iff :
    WithinBounds scoreBreakdownFields (scoreBreakdown inp model)
      ↔ 0 ≤ round4 (inp.policy.fallbackBonus * (inp.signal model).success)
        ∧ round4 (inp.policy.fallbackBonus * (inp.signal model).success) ≤ 1 := by
  have hdegraded : 0 ≤ (if truthy (inp.signal model).degradedReason then
      inp.policy.degradedPenalty else 0) ∧ (if truthy (inp.signal model).degradedReason then
      inp.policy.degradedPenalty else 0) ≤ 1 := by
    split
    next => exact ⟨inp.policy.degradedPenalty_ge, inp.policy.degradedPenalty_le⟩
    next => exact ⟨le_refl _, zero_le_one⟩
  simp only [scoreBreakdownFields, withinBounds_cons, withinBounds_nil, and_true,
    BoundedField.within_unit]
  constructor
  · rintro ⟨-, -, -, -, -, -, hbonus⟩
    exact hbonus
  · intro hbonus
    exact ⟨round4_bounds (costScore_bounds _ _), round4_bounds (benefitScore_bounds _ _),
      round4_bounds (costScore_bounds _ _), round4_bounds (benefitScore_bounds _ _),
      freshnessPenaltyFor_bounds _ _ _, round4_bounds hdegraded, hbonus⟩

/-- Of a candidate's bounds only the expected time could fail. -/
theorem candidateAt_within_iff {rank : ℕ} (hrank : 1 ≤ rank) :
    WithinBounds decisionCandidateFields (candidateAt inp rank model)
      ↔ 0 ≤ expectedTtfbMs inp.request (inp.signal model) model := by
  have hcost := totalCost_nonneg inp.rt.arith inp.request model (inp.signal model)
  simp only [decisionCandidateFields, withinBounds_cons, withinBounds_nil, and_true,
    BoundedField.within_unit, BoundedField.within_atLeast, BoundedField.within_optAtLeast]
  constructor
  · rintro ⟨-, -, httfb, -, -⟩
    exact_mod_cast httfb
  · intro httfb
    refine ⟨by exact_mod_cast hrank, inp.rt.arith.float_nonneg (halfUp.digits_nonneg 6 hcost),
      by exact_mod_cast httfb, round4_bounds (clamp_bounds _), ?_⟩
    intro value hvalue
    obtain ⟨seconds, -, rfl⟩ := Option.map_eq_some_iff.mp hvalue
    show (0 : ℚ) ≤ seconds
    exact Nat.cast_nonneg seconds

/-- A breakdown is built as its schema checks it. -/
theorem checkedScoreBreakdown_eq :
    checkedScoreBreakdown inp model (totalCost inp.rt.arith inp.request (inp.signal model) model)
      = validate "ScoreBreakdown" scoreBreakdownFields (scoreBreakdown inp model) := by
  unfold checkedScoreBreakdown
  simp only [checkedUnitCost_eq, checkedFreshnessPenalty_eq, checkedCostScore_eq,
    checkedBenefitScore_eq, ok_bind]
  rfl

variable {inp model}

/-- A publishable candidate passes its schema. -/
theorem Publishable.checkedCandidate_eq (h : Publishable inp model) {rank : ℕ} (hrank : 1 ≤ rank) :
    checkedCandidate inp (normalizeWeights inp.policy) rank model
        (totalCost inp.rt.arith inp.request (inp.signal model) model)
      = .ok (candidateAt inp rank model) := by
  unfold checkedCandidate
  rw [checkedScoreBreakdown_eq,
    validate_eq ((scoreBreakdown_within_iff inp model).mpr ⟨h.bonus_ge, h.bonus_le⟩), ok_bind]
  exact validate_eq ((candidateAt_within_iff inp model hrank).mpr h.ttfb_ge) _

/-- One of the two records refuses the rest. -/
theorem checkedCandidate_refused (h : ¬Publishable inp model) {rank : ℕ} (hrank : 1 ≤ rank) :
    ∃ schema fields, checkedCandidate inp (normalizeWeights inp.policy) rank model
        (totalCost inp.rt.arith inp.request (inp.signal model) model)
      = .error (.outOfBounds schema fields) := by
  unfold checkedCandidate
  rw [checkedScoreBreakdown_eq]
  by_cases hbonus : WithinBounds scoreBreakdownFields (scoreBreakdown inp model)
  · have httfb : ¬WithinBounds decisionCandidateFields (candidateAt inp rank model) := by
      intro hwithin
      obtain ⟨hge, hle⟩ := (scoreBreakdown_within_iff inp model).mp hbonus
      exact h ⟨hge, hle, (candidateAt_within_iff inp model hrank).mp hwithin⟩
    rw [validate_eq hbonus, ok_bind]
    exact ⟨_, _, validate_eq_error httfb _⟩
  · rw [validate_eq_error hbonus]
    exact ⟨_, _, rfl⟩

end Records

section Scoring

variable {inp : ScanInput} (hsignals : WellFormedSignals inp.signals) (model : CatalogModel)
include hsignals

/-- With well-formed signals every model is publishable. -/
theorem publishable : Publishable inp model := by
  have hsuccess := (ScanInput.signal_wellFormed hsignals model).success_bounds
  -- A bonus of at most one, scaled by a success rate of at most one.
  have hbonus := round4_bounds
    ⟨mul_nonneg inp.policy.fallbackBonus_ge hsuccess.1,
      mul_le_one₀ inp.policy.fallbackBonus_le hsuccess.1 hsuccess.2⟩
  exact ⟨hbonus.1, hbonus.2,
    (ScanInput.signal_wellFormed hsignals model).expectedTtfbMs_nonneg inp.request model⟩

/-- Its breakdown is within the schema. -/
theorem scoreBreakdown_within :
    WithinBounds scoreBreakdownFields (scoreBreakdown inp model) := by
  have h := publishable hsignals model
  exact (scoreBreakdown_within_iff inp model).mpr ⟨h.bonus_ge, h.bonus_le⟩

/-- So is its candidate. -/
theorem candidateAt_within {rank : ℕ} (hrank : 1 ≤ rank) :
    WithinBounds decisionCandidateFields (candidateAt inp rank model) :=
  (candidateAt_within_iff inp model hrank).mpr (publishable hsignals model).ttfb_ge

/-- A turn of the loop raises nothing. -/
theorem checkedScanModel_eq (st : ScanState) :
    checkedScanModel inp (normalizeWeights inp.policy) st model = .ok (scanModel inp st model) := by
  unfold checkedScanModel scanModel
  dsimp only
  split
  · rfl
  split
  · rfl
  cases hgap : matchesCapabilities model inp.request with
  | some capabilityGap => rfl
  | none =>
    dsimp only
    split
    · rfl
    -- The cost is the plain one, so the three cost and latency filters agree.
    rw [checkedTotalCost_eq, ok_bind]
    split
    · rfl
    split
    · rfl
    split
    · rfl
    rw [(publishable hsignals model).checkedCandidate_eq (by omega), ok_bind]
    rfl

end Scoring

/-- The fallback safety score is a share of one. -/
theorem fallbackSafetyScore_bounds (candidates : List DecisionCandidate) :
    0 ≤ fallbackSafetyScore candidates ∧ fallbackSafetyScore candidates ≤ 1 := by
  unfold fallbackSafetyScore
  split
  next => exact ⟨le_refl _, zero_le_one⟩
  next => exact round4_bounds (clamp_bounds _)

/-- The clock the elapsed time is read from does not run backwards. -/
def Runtime.Monotonic (rt : Runtime) : Prop :=
  ∃ started finished : ℚ, started ≤ finished
    ∧ rt.computeMs = halfEven.digits 3 ((finished - started) * 1000)

/-- A clock that stands still does not go back. -/
theorem stillRuntime_monotonic : stillRuntime.Monotonic :=
  ⟨0, 0, le_refl _, by decide +kernel⟩

/-- Time spent computing is not negative. -/
theorem Runtime.Monotonic.computeMs_nonneg {rt : Runtime} (h : rt.Monotonic) :
    0 ≤ rt.computeMs := by
  obtain ⟨started, finished, hle, hms⟩ := h
  rw [hms]
  refine halfEven.digits_nonneg 3 ?_
  have : 0 ≤ finished - started := by linarith
  positivity

/-- The observability block passes its schema. -/
theorem observabilityOf_within {rt : Runtime} (hclock : rt.Monotonic)
    (catalog : CatalogSnapshot) (policy : RoutingPolicy) (signalFreshnessSeconds : ℕ)
    (st : ScanState) (candidates : List DecisionCandidate) :
    WithinBounds decisionObservabilityFields
      (observabilityOf catalog policy signalFreshnessSeconds rt st candidates) := by
  simp only [decisionObservabilityFields, withinBounds_cons, withinBounds_nil, and_true,
    BoundedField.within_unit, BoundedField.within_atLeast, BoundedField.within_optAtLeast]
  refine ⟨hclock.computeMs_nonneg, Nat.cast_nonneg _, Nat.cast_nonneg _, Nat.cast_nonneg _,
    Nat.cast_nonneg _, Nat.cast_nonneg _, Nat.cast_nonneg _, Nat.cast_nonneg _, ?_,
    fallbackSafetyScore_bounds candidates⟩
  intro value hvalue
  obtain ⟨seconds, -, rfl⟩ := Option.map_eq_some_iff.mp hvalue
  show (0 : ℚ) ≤ seconds
  exact Nat.cast_nonneg seconds

/-- Behind the loop nothing is raised but the engine's own error. -/
theorem checkedDecisionFrom_eq {rt : Runtime} (hclock : rt.Monotonic)
    (request : RoutingDecisionRequest) (catalog : CatalogSnapshot) (policy : RoutingPolicy)
    (signals : SignalMap) (signalFreshnessSeconds ttlSeconds : ℕ) :
    checkedDecisionFrom catalog request policy signalFreshnessSeconds ttlSeconds rt
        (scan (scanInput request catalog policy signals signalFreshnessSeconds rt) catalog.models)
      = (calculateRoutingDecision request catalog policy signals signalFreshnessSeconds
          ttlSeconds rt).mapError .raised := by
  unfold checkedDecisionFrom calculateRoutingDecision
  dsimp only
  rw [checkedFallbackSafetyScore_eq, ok_bind]
  -- What the plain engine reports is the record that was just validated.
  have hobs := fun st candidates => validate_eq (ε := ServiceError)
    (observabilityOf_within hclock catalog policy signalFreshnessSeconds st candidates)
    "DecisionObservability"
  unfold observabilityOf at hobs ⊢
  rw [hobs, ok_bind]
  cases hcandidates : rankCandidates policy.maxCandidates
      (scan (scanInput request catalog policy signals signalFreshnessSeconds rt)
        catalog.models).candidates with
  | nil => rfl
  | cons top rest =>
    refine validate_eq ?_ _
    simp only [routingDecisionResponseFields, withinBounds_cons, withinBounds_nil, and_true,
      BoundedField.within_atLeast]
    exact_mod_cast Nat.le_add_left 1 rest.length

/-- The checked engine is the plain one: it raises what that one raises. -/
theorem checkedRoutingDecision_eq (request : RoutingDecisionRequest) (catalog : CatalogSnapshot)
    (policy : RoutingPolicy) (signals : SignalMap) (signalFreshnessSeconds ttlSeconds : ℕ)
    (rt : Runtime) (hsignals : WellFormedSignals signals) (hclock : rt.Monotonic) :
    checkedRoutingDecision request catalog policy signals signalFreshnessSeconds ttlSeconds rt
      = (calculateRoutingDecision request catalog policy signals signalFreshnessSeconds
          ttlSeconds rt).mapError .raised := by
  have hscan : catalog.models.foldlM (checkedScanModel
        (scanInput request catalog policy signals signalFreshnessSeconds rt)
        (normalizeWeights policy)) {}
      = .ok (scan (scanInput request catalog policy signals signalFreshnessSeconds rt)
          catalog.models) :=
    foldlM_eq catalog.models (fun st model _ => checkedScanModel_eq hsignals model st) {}
  unfold checkedRoutingDecision
  dsimp only
  rw [checkedNormalizeWeights_eq, ok_bind, hscan, ok_bind]
  exact checkedDecisionFrom_eq hclock request catalog policy signals signalFreshnessSeconds
    ttlSeconds

/-! ## The result -/

/-- Four normalised weights sum to one: a schema never accepts all zeros. -/
theorem normalizeWeights_sum (policy : RoutingPolicy) :
    (normalizeWeights policy).tokenCost + (normalizeWeights policy).qps
      + (normalizeWeights policy).latency + (normalizeWeights policy).accuracy = 1 := by
  have hpos := policy.weights.total_pos
  have hsum : max 0 policy.weights.tokenCost + max 0 policy.weights.qps
      + max 0 policy.weights.latency + max 0 policy.weights.accuracy ≠ 0 := by
    rw [max_eq_right policy.weights.tokenCost_ge, max_eq_right policy.weights.qps_ge,
      max_eq_right policy.weights.latency_ge, max_eq_right policy.weights.accuracy_ge]
    exact hpos.ne'
  unfold normalizeWeights
  dsimp only
  rw [if_neg hsum, ← add_div, ← add_div, ← add_div, div_self hsum]

/-- A weighted sum with non-negative weights of total one lies between any
bounds of what it sums. -/
theorem weighted_between (b : ScoreBreakdown) (policy : RoutingPolicy) {lo hi : ℚ}
    (htok : lo ≤ b.tokenCost ∧ b.tokenCost ≤ hi) (hqps : lo ≤ b.qps ∧ b.qps ≤ hi)
    (hlat : lo ≤ b.latency ∧ b.latency ≤ hi) (hacc : lo ≤ b.accuracy ∧ b.accuracy ≤ hi) :
    lo ≤ b.weighted (normalizeWeights policy) ∧ b.weighted (normalizeWeights policy) ≤ hi := by
  obtain ⟨hw1, hw2, hw3, hw4⟩ := normalizeWeights_nonneg policy
  have hsum := normalizeWeights_sum policy
  unfold ScoreBreakdown.weighted
  constructor
  · have e1 := mul_le_mul_of_nonneg_right htok.1 hw1
    have e2 := mul_le_mul_of_nonneg_right hqps.1 hw2
    have e3 := mul_le_mul_of_nonneg_right hlat.1 hw3
    have e4 := mul_le_mul_of_nonneg_right hacc.1 hw4
    have hlo : lo * ((normalizeWeights policy).tokenCost + (normalizeWeights policy).qps
        + (normalizeWeights policy).latency + (normalizeWeights policy).accuracy) = lo := by
      rw [hsum, mul_one]
    linarith
  · have e1 := mul_le_mul_of_nonneg_right htok.2 hw1
    have e2 := mul_le_mul_of_nonneg_right hqps.2 hw2
    have e3 := mul_le_mul_of_nonneg_right hlat.2 hw3
    have e4 := mul_le_mul_of_nonneg_right hacc.2 hw4
    have hhi : hi * ((normalizeWeights policy).tokenCost + (normalizeWeights policy).qps
        + (normalizeWeights policy).latency + (normalizeWeights policy).accuracy) = hi := by
      rw [hsum, mul_one]
    linarith

/-- What one catalog entry contributes is inside the schema: its cost, the
records built for it at any place in the ladder, and its weighted sum. -/
structure StaysInSchema (inp : ScanInput) (model : CatalogModel) : Prop where
  cost_nonneg : 0 ≤ totalCost inp.rt.arith inp.request (inp.signal model) model
  beforeMax_nonneg :
    0 ≤ withConcurrencyPremium inp.rt.arith inp.request (inp.signal model) model
      (withLongTextDiscount inp.rt.arith inp.request model
        (withColdStart inp.rt.arith inp.request model (tokenCost inp.rt.arith inp.request model)))
  breakdown : WithinBounds scoreBreakdownFields (scoreBreakdown inp model)
  candidate : ∀ rank, 1 ≤ rank →
    WithinBounds decisionCandidateFields (candidateAt inp rank model)
  weighted_ge :
    min (min (scoreBreakdown inp model).tokenCost (scoreBreakdown inp model).qps)
        (min (scoreBreakdown inp model).latency (scoreBreakdown inp model).accuracy)
      ≤ (scoreBreakdown inp model).weighted (normalizeWeights inp.policy)
  weighted_le :
    (scoreBreakdown inp model).weighted (normalizeWeights inp.policy)
      ≤ max (max (scoreBreakdown inp model).tokenCost (scoreBreakdown inp model).qps)
        (max (scoreBreakdown inp model).latency (scoreBreakdown inp model).accuracy)

/-- Every model's breakdown and candidate stay in their schemas. -/
theorem stays_in_schema {inp : ScanInput} (hsignals : WellFormedSignals inp.signals)
    (model : CatalogModel) : StaysInSchema inp model := by
  have hfree := signalFreeCost_nonneg inp.rt.arith inp.request model
  have hweighted := weighted_between (scoreBreakdown inp model) inp.policy
    ⟨min_le_of_left_le (min_le_left _ _), le_max_of_le_left (le_max_left _ _)⟩
    ⟨min_le_of_left_le (min_le_right _ _), le_max_of_le_left (le_max_right _ _)⟩
    ⟨min_le_of_right_le (min_le_left _ _), le_max_of_le_right (le_max_left _ _)⟩
    ⟨min_le_of_right_le (min_le_right _ _), le_max_of_le_right (le_max_right _ _)⟩
  exact
    { cost_nonneg := totalCost_nonneg inp.rt.arith inp.request model _
      beforeMax_nonneg :=
        hfree.trans (le_withConcurrencyPremium inp.rt.arith inp.request model (inp.signal model)
          hfree (decimal_signalFreeCost inp.rt.arith inp.request model))
      breakdown := scoreBreakdown_within hsignals model
      candidate := fun _ hrank => candidateAt_within hsignals model hrank
      weighted_ge := hweighted.1
      weighted_le := hweighted.2 }

/-- Every record of a decision that is returned is in bounds. -/
theorem returned_within {request : RoutingDecisionRequest} {catalog : CatalogSnapshot}
    {policy : RoutingPolicy} {signals : SignalMap} {signalFreshnessSeconds ttlSeconds : ℕ}
    {rt : Runtime} {response : RoutingDecisionResponse} (hsignals : WellFormedSignals signals)
    (hclock : rt.Monotonic)
    (hok : calculateRoutingDecision request catalog policy signals signalFreshnessSeconds
      ttlSeconds rt = .ok response) :
    (∀ c ∈ response.candidates, WithinBounds decisionCandidateFields c
      ∧ WithinBounds scoreBreakdownFields c.scoreBreakdown)
    ∧ WithinBounds decisionObservabilityFields response.observability := by
  obtain ⟨hcand, -, -, hobs⟩ := calculateRoutingDecision_ok hok
  constructor
  · intro c hc
    rw [hcand] at hc
    obtain ⟨index, hindex, rfl⟩ := mem_ranked.mp hc
    exact ⟨candidateAt_within hsignals _ (Nat.le_add_left 1 _),
      scoreBreakdown_within hsignals _⟩
  · rw [hobs]
    exact observabilityOf_within hclock catalog policy signalFreshnessSeconds _ _

end ControlPlane
