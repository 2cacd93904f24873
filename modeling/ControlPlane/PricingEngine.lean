import ControlPlane.Errors
import ControlPlane.Schemas
import ControlPlane.TokenEstimator

/-!
# The pricing engine — `app/services/pricing_engine.py`

`calculateRoutingDecision` scans the catalog once. Each model either leaves
at one of six `continue`s with a rejection and a counter, or is scored and
appended to the candidates; the survivors are then sorted, cut to
`max_candidates` and ranked. The quantities the loop computes along the way
(tier, cold start, discount, premium, the four scores) are definitions of
their own, so the loop body below reads like the source's.

Mirroring notes:
- The filters and the cost are computed in the arithmetic of the `Runtime`,
  operation by operation: `arith.float` is the double a float operation
  gives, `arith.decimal` what a decimal one gives in the default context and
  `arith.decimalOf` is `Decimal(str(x))`. `Arithmetic.machine` is what the
  interpreter does; a statement for every arithmetic covers exact rationals
  too. A catalog's decimal literal counts as the double nearest to it, so it
  is read through `arith.float`.
- The scores are exact rational functions of what they read: the doubles of
  the source differ from them in the last places, before they are rounded to
  four decimals. `round(x, n)` is ties-to-even at `n` decimals and `quantize`
  with `ROUND_HALF_UP` is ties-away-from-zero.
- No operation of this file raises. Where one of the source's would (a count
  past the largest double, a cost past the context's digits, an expiry past
  the last datetime), `Ranges` has the exception.
- One `Runtime` gives everything the engine reads from outside: the
  arithmetic, the clock, the ISO parser, the text of a float, the elapsed
  time. The clock is read
  once per decision; the source reads it once per signal, a few
  microseconds apart.
- A signal entry is a dictionary with optional keys; an absent entry and an
  empty one are both the signal with no keys (`signals.get(id, {})`).
- `x or 0.0` on `throughput_hint_qps` is `getD 0`: a hint of zero and no
  hint are the same number.
-/

namespace ControlPlane

open Lib

/-! ## What the engine reads from outside -/

/-- What `datetime.fromisoformat` returns, in microseconds: an aware value
as its UTC instant, a naive one as its wall-clock reading. -/
inductive ParsedDatetime
  | aware (utc : ℤ)
  | naive (wall : ℤ)
deriving DecidableEq

/-- `replace(tzinfo=timezone.utc)` on the naive ones. -/
def ParsedDatetime.toUtc : ParsedDatetime → ℤ
  | .aware utc => utc
  | .naive wall => wall

/-- `fromIsoFormat` returns `none` where the parser raises `ValueError`. -/
structure Runtime where
  arith : Arithmetic
  now : ℤ
  fromIsoFormat : String → Option ParsedDatetime
  floatRepr : ℚ → String
  computeMs : ℚ

/-- A stored probe signal, every key optional. -/
structure Signal where
  ttfbP50Ms : Option ℚ := none
  throughputHintQps : Option ℚ := none
  successRate : Option ℚ := none
  lastProbeAt : Option String := none
  degradedReason : Option String := none
deriving DecidableEq

/-- `signals` as the mapping it is: model id to entry. -/
abbrev SignalMap := String → Option Signal

/-- Truthiness of an optional string. -/
def truthy : Option String → Bool
  | none => false
  | some s => s != ""

/-- `raw.replace("Z", "+00:00")`. -/
def replaceZulu (raw : String) : String :=
  String.ofList (raw.toList.flatMap fun c => if c = 'Z' then "+00:00".toList else [c])

/-- `_signal_age_seconds`: whole seconds since the probe, never negative;
`none` when the time is missing, empty or unparsable. -/
def signalAgeSeconds (rt : Runtime) (signal : Signal) : Option ℕ :=
  match signal.lastProbeAt with
  | none => none
  | some raw =>
    if raw = "" then none
    else (rt.fromIsoFormat (replaceZulu raw)).map fun observedAt =>
      (max 0 ((rt.now - observedAt.toUtc).tdiv 1000000)).toNat

/-! ## Scores -/

/-- `_clamp`: into the unit interval. -/
def clamp (value : ℚ) : ℚ :=
  max 0 (min 1 value)

/-- `_benefit_score`: the more the better. -/
def benefitScore (value baseline : ℚ) : ℚ :=
  let safeValue := max value 0
  let safeBaseline := max baseline (1 / 1000000)
  clamp (safeValue / (safeValue + safeBaseline))

/-- `_cost_score`: the less the better. -/
def costScore (value baseline : ℚ) : ℚ :=
  let safeValue := max value 0
  let safeBaseline := max baseline (1 / 1000000)
  if safeValue = 0 then 1 else clamp (safeBaseline / (safeValue + safeBaseline))

/-- `_round_money`: six decimals, half-up, and then a double. -/
def roundMoney (arith : Arithmetic) (value : ℚ) : ℚ :=
  arith.float (halfUp.digits 6 value)

/-- `round(x, 4)`, the engine's precision for every score. -/
def round4 (value : ℚ) : ℚ :=
  halfEven.digits 4 value

/-- The four normalised weights; `… or 1.0` guards an all-zero sum. -/
structure Weights where
  tokenCost : ℚ
  qps : ℚ
  latency : ℚ
  accuracy : ℚ

/-- The four weights, made to add up to one. -/
def normalizeWeights (policy : RoutingPolicy) : Weights :=
  let w := policy.weights
  let sum := max 0 w.tokenCost + max 0 w.qps + max 0 w.latency + max 0 w.accuracy
  -- Negative weights count as zero before the sum is taken.
  let total := if sum = 0 then 1 else sum
  { tokenCost := max 0 w.tokenCost / total
    qps := max 0 w.qps / total
    latency := max 0 w.latency / total
    accuracy := max 0 w.accuracy / total }

/-- What the scores are measured against. -/
structure Baseline where
  tokenCostUsdPer1k : ℚ
  qps : ℚ
  latencyMs : ℚ
  accuracy : ℚ

/-- `{**DEFAULT_BASELINE, **catalog.normalization_baseline}`, at the four
keys the engine reads. -/
def baselineOf (catalog : CatalogSnapshot) : Baseline :=
  let read (key : String) (default : ℚ) := (catalog.normalizationBaseline.lookup key).getD default
  { tokenCostUsdPer1k := read "token_cost_usd_per_1k" (2 / 1000)
    qps := read "qps" 40
    latencyMs := read "latency_ms" 800
    accuracy := read "accuracy" (8 / 10) }

/-! ## Filters on the request and the catalog entry -/

/-- `_matches_capabilities`: the first gap, in the source's order. -/
def matchesCapabilities (model : CatalogModel) (request : RoutingDecisionRequest) :
    Option String :=
  let capabilities := model.capabilities
  let required := request.capabilityRequirements
  if required.vision && !capabilities.vision then some "vision"
  else if required.reasoning && !capabilities.reasoning then some "reasoning"
  else if required.toolCalling && !capabilities.toolCalling then some "tool_calling"
  else if required.jsonMode && !capabilities.jsonMode then some "json_mode"
  else if request.taskType ∉ capabilities.supportedTaskTypes then some "task_type"
  else if model.contextWindowTokens < request.contextWindowTokens then some "context_window"
  else none

/-- `request.provider_allowlist and model.provider not in …`: an absent and
an empty list allow every provider. -/
def outsideAllowlist (request : RoutingDecisionRequest) (model : CatalogModel) : Bool :=
  let allowlist := request.providerAllowlist.getD []
  !allowlist.isEmpty && !allowlist.contains model.provider

/-- `request.provider_denylist and model.provider in …`. -/
def insideDenylist (request : RoutingDecisionRequest) (model : CatalogModel) : Bool :=
  (request.providerDenylist.getD []).contains model.provider

/-! ## Effective signal values -/

/-- The stored time to the first token, or the catalog's. -/
def Signal.ttfbMs (signal : Signal) (model : CatalogModel) : ℤ :=
  trunc.toInt (signal.ttfbP50Ms.getD model.defaultTtfbMs)

/-- The stored throughput, or the catalog's. -/
def Signal.qps (signal : Signal) (model : CatalogModel) : ℚ :=
  signal.throughputHintQps.getD model.throughputHintQps

/-- The stored rate of successes, or one. -/
def Signal.success (signal : Signal) : ℚ :=
  signal.successRate.getD 1

/-! ## Cost -/

section Cost

variable (arith : Arithmetic) (request : RoutingDecisionRequest) (signal : Signal)
  (model : CatalogModel)

/-- The request's hint, or zero. -/
def throughputHint : ℚ :=
  request.throughputHintQps.getD 0

/-- The estimated tokens of the input. -/
def inputTokens : ℕ :=
  estimateTokens arith request.inputChars model.modelId request.language

/-- The tokens expected of the output. -/
def outputTokens : ℕ :=
  max 1 request.expectedOutputTokens

/-- Both together, one at least. -/
def totalTokens : ℕ :=
  max 1 (inputTokens arith request model + outputTokens request)

/-- The two prices of a tier. -/
structure TierPrices where
  inPrice1k : ℚ
  outPrice1k : ℚ
deriving DecidableEq

/-- `_pick_tier`: the first tier that is unbounded or reaches the token
count, else the flat prices. -/
def pickTier (totalTokens : ℕ) : TierPrices :=
  match model.pricingTiers.find? fun tier =>
      tier.uptoTokens.all fun upto => decide (totalTokens ≤ upto) with
  | some tier => ⟨tier.inPrice1k, tier.outPrice1k⟩
  | none => ⟨model.inPrice1k, model.outPrice1k⟩

/-- `(Decimal(tokens) / THOUSAND) * _to_decimal(price)`. -/
def priceOf (tokens : ℕ) (price : ℚ) : ℚ :=
  arith.decimal (arith.decimal ((tokens : ℚ) / 1000) * arith.decimalOf price)

/-- Tokens at the tier's prices. -/
def tokenCost : ℚ :=
  let tier := pickTier model (totalTokens arith request model)
  arith.decimal (priceOf arith (inputTokens arith request model) tier.inPrice1k
    + priceOf arith (outputTokens request) tier.outPrice1k)

/-- A request without a throughput hint pays the cold start. -/
def withColdStart (baseCost : ℚ) : ℚ :=
  if throughputHint request ≤ 0 then
    arith.decimal (baseCost + arith.decimalOf model.coldStartCostUsd)
  else baseCost

/-- The discount of a long text. -/
def withLongTextDiscount (baseCost : ℚ) : ℚ :=
  if model.longTextThresholdTokens ≤ totalTokens arith request model
      ∧ 0 < model.longTextDiscountRate then
    arith.decimal
      (baseCost - arith.decimal (baseCost * arith.decimalOf model.longTextDiscountRate))
  else baseCost

/-- `throughput_hint / qps`. -/
def loadFactor : ℚ :=
  arith.float (throughputHint request / signal.qps model)

/-- The load above the burst threshold, one at most. -/
def overage : ℚ :=
  min (arith.float (loadFactor arith request signal model - arith.float model.burstQpsThreshold)) 1

/-- The burst premium; skipped at zero throughput, where the load factor
has no value. -/
def withConcurrencyPremium (baseCost : ℚ) : ℚ :=
  if 0 < throughputHint request ∧ 0 < signal.qps model
      ∧ arith.float model.burstQpsThreshold < loadFactor arith request signal model then
    arith.decimal (baseCost + arith.decimal (baseCost * arith.decimalOf
      (arith.float (arith.float model.concurrencyPremiumRate
        * overage arith request signal model))))
  else baseCost

/-- The cost before it is published, `total_cost`. -/
def totalCost : ℚ :=
  max 0 (withConcurrencyPremium arith request signal model
    (withLongTextDiscount arith request model
      (withColdStart arith request model (tokenCost arith request model))))

/-- Cost per thousand estimated tokens, what the token-cost score reads. -/
def unitCost : ℚ :=
  if totalCost arith request signal model = 0 then 0
  else arith.decimal (arith.decimal (totalCost arith request signal model * 1000)
    / totalTokens arith request model)

/-- Time to first byte, with the cold start of an unhinted request. -/
def expectedTtfbMs : ℤ :=
  if throughputHint request ≤ 0 then signal.ttfbMs model + model.coldStartMs
  else signal.ttfbMs model

/-- `qps * model.hard_capacity_factor`. -/
def effectiveCapacity : ℚ :=
  arith.float (signal.qps model * arith.float model.hardCapacityFactor)

/-- The capacity filter; like the premium it does not look at zero
throughput. -/
def exceedsCapacity : Prop :=
  0 < throughputHint request ∧ 0 < signal.qps model
    ∧ effectiveCapacity arith signal model < arith.float (throughputHint request)

instance exceedsCapacityDecidable : Decidable (exceedsCapacity arith request signal model) := by
  unfold exceedsCapacity
  infer_instance

end Cost

/-! ## Scoring -/

/-- The penalty for a signal of the given age: full when the age is unknown,
scaled (and capped) once it passes the freshness window. -/
def freshnessPenaltyFor (policy : RoutingPolicy) (signalFreshnessSeconds : ℕ) :
    Option ℕ → ℚ
  | none => round4 policy.freshnessPenalty
  | some age =>
    if signalFreshnessSeconds < age then
      round4 (min 1 ((age : ℚ) / max signalFreshnessSeconds 1) * policy.freshnessPenalty)
    else 0

/-- Everything the loop holds fixed. -/
structure ScanInput where
  request : RoutingDecisionRequest
  policy : RoutingPolicy
  signals : SignalMap
  signalFreshnessSeconds : ℕ
  baseline : Baseline
  rt : Runtime

section Scoring

variable (inp : ScanInput) (model : CatalogModel)

/-- `signals.get(model.model_id, {})`. -/
def ScanInput.signal : Signal :=
  (inp.signals model.modelId).getD {}

/-- The age of a model's signal. -/
def ScanInput.age : Option ℕ :=
  signalAgeSeconds inp.rt (inp.signal model)

/-- The scores and penalties of one model. -/
def scoreBreakdown : ScoreBreakdown :=
  let signal := inp.signal model
  { tokenCost :=
      round4 (costScore (unitCost inp.rt.arith inp.request signal model)
        inp.baseline.tokenCostUsdPer1k)
    qps := round4 (benefitScore (signal.qps model) inp.baseline.qps)
    latency :=
      round4 (costScore (expectedTtfbMs inp.request signal model) inp.baseline.latencyMs)
    accuracy := round4 (benefitScore (model.accuracy * signal.success) inp.baseline.accuracy)
    freshnessPenalty :=
      freshnessPenaltyFor inp.policy inp.signalFreshnessSeconds (inp.age model)
    degradedPenalty :=
      round4 (if truthy signal.degradedReason then inp.policy.degradedPenalty else 0)
    fallbackBonus := round4 (inp.policy.fallbackBonus * signal.success) }

/-- The weighted sum of the four scores. -/
def ScoreBreakdown.weighted (b : ScoreBreakdown) (w : Weights) : ℚ :=
  b.tokenCost * w.tokenCost + b.qps * w.qps + b.latency * w.latency + b.accuracy * w.accuracy

/-- `confidence_score`. -/
def confidenceScore : ℚ :=
  let b := scoreBreakdown inp model
  round4 (clamp (b.weighted (normalizeWeights inp.policy)
    - b.freshnessPenalty - b.degradedPenalty + b.fallbackBonus))

end Scoring

/-! ## The loop -/

/-- What the loop has gathered. -/
structure ScanState where
  candidates : List DecisionCandidate := []
  rejections : List DecisionRejection := []
  filteredByBudget : ℕ := 0
  filteredByLatency : ℕ := 0
  filteredByCapacity : ℕ := 0
  filteredByCapability : ℕ := 0
  filteredByProvider : ℕ := 0
  freshnessValues : List ℕ := []

/-- `rejections.append(DecisionRejection(…))`. -/
def ScanState.reject (st : ScanState) (model : CatalogModel) (reason : RejectionReason)
    (detail : String) : ScanState :=
  { st with
    rejections := st.rejections ++ [⟨model.modelId, model.provider, reason, detail⟩] }

/-- One turn of `for model in catalog.models`. -/
def scanModel (inp : ScanInput) (st : ScanState) (model : CatalogModel) : ScanState :=
  let request := inp.request
  if outsideAllowlist request model then
    { st with filteredByProvider := st.filteredByProvider + 1 }.reject model
      .providerFiltered s!"provider '{model.provider}' not present in allowlist"
  else if insideDenylist request model then
    { st with filteredByProvider := st.filteredByProvider + 1 }.reject model
      .providerFiltered s!"provider '{model.provider}' explicitly denied"
  else match matchesCapabilities model request with
  | some capabilityGap =>
    { st with filteredByCapability := st.filteredByCapability + 1 }.reject model
      .capabilityFiltered s!"missing or incompatible capability: {capabilityGap}"
  | none =>
    -- Past this point the model counts for `signal_freshness_min_seconds`.
    let signal := inp.signal model
    let ageSeconds := inp.age model
    let st := { st with
      freshnessValues := st.freshnessValues ++
        [ageSeconds.getD (inp.signalFreshnessSeconds * 2)] }
    if exceedsCapacity inp.rt.arith request signal model then
      { st with filteredByCapacity := st.filteredByCapacity + 1 }.reject model
        .capacityFiltered
        ("throughput_hint_qps=" ++ inp.rt.floatRepr (throughputHint request)
          ++ " exceeds effective capacity "
          ++ inp.rt.floatRepr (halfEven.digits 2 (effectiveCapacity inp.rt.arith signal model)))
    else
      let cost := totalCost inp.rt.arith request signal model
      let ttfbMs := expectedTtfbMs request signal model
      -- Two branches, two texts: a zero budget asks for a free route.
      if request.budgetLimitUsd = 0 ∧ 0 < cost then
        { st with filteredByBudget := st.filteredByBudget + 1 }.reject model
          .budgetFiltered "request requires a zero-cost route but model is billable"
      else if 0 < request.budgetLimitUsd
          ∧ inp.rt.arith.float request.budgetLimitUsd < inp.rt.arith.float cost then
        { st with filteredByBudget := st.filteredByBudget + 1 }.reject model
          .budgetFiltered
          ("estimated cost " ++ inp.rt.floatRepr (halfEven.digits 6 (inp.rt.arith.float cost))
            ++ " exceeds budget_limit_usd=" ++ inp.rt.floatRepr request.budgetLimitUsd)
      else if request.latencySloMs.any fun slo => decide ((slo : ℤ) < ttfbMs) then
        { st with filteredByLatency := st.filteredByLatency + 1 }.reject model
          .latencyFiltered
          s!"expected_ttfb_ms={ttfbMs} exceeds latency_slo_ms={request.latencySloMs.getD 0}"
      else
        { st with
          candidates := st.candidates ++
            [{ rank := st.candidates.length + 1
               modelId := model.modelId
               provider := model.provider
               estimatedCostUsd := roundMoney inp.rt.arith cost
               expectedTtfbMs := ttfbMs
               confidenceScore := confidenceScore inp model
               signalFreshnessSeconds := ageSeconds
               degradedReason := signal.degradedReason
               scoreBreakdown := scoreBreakdown inp model }] }

/-- The loop over the catalog. -/
def scan (inp : ScanInput) (models : List CatalogModel) : ScanState :=
  models.foldl (scanModel inp) {}

/-! ## Ranking -/

/-- The sort key `(-confidence_score, estimated_cost_usd, expected_ttfb_ms)`
under Python's lexicographic tuple order. -/
def DecisionCandidate.sortKey (c : DecisionCandidate) : ℚ ×ₗ ℚ ×ₗ ℤ :=
  toLex (-c.confidenceScore, toLex (c.estimatedCostUsd, c.expectedTtfbMs))

/-- `candidates.sort(key=…)`; insertion sort is stable, as `list.sort` is. -/
def sortCandidates (candidates : List DecisionCandidate) : List DecisionCandidate :=
  candidates.insertionSort fun a b => a.sortKey ≤ b.sortKey

/-- Sort, cut, and overwrite the provisional ranks with `1..n`. -/
def rankCandidates (maxCandidates : ℕ) (candidates : List DecisionCandidate) :
    List DecisionCandidate :=
  ((sortCandidates candidates).take maxCandidates).mapIdx fun index candidate =>
    { candidate with rank := index + 1 }

/-- Mean confidence of the returned candidates, `0` when there are none. -/
def fallbackSafetyScore (candidates : List DecisionCandidate) : ℚ :=
  if candidates = [] then 0
  else round4 (clamp ((candidates.map (·.confidenceScore)).sum / candidates.length))

/-- `policy_trace`. -/
def policyTrace (catalog : CatalogSnapshot) (policy : RoutingPolicy)
    (candidates : List DecisionCandidate) (rejections : List DecisionRejection)
    (signalFreshnessSeconds : ℕ) : List String :=
  ["catalog=" ++ catalog.version ++ " checksum="
      ++ String.ofList (catalog.checksum.toList.take 12),
    "policy=" ++ policy.policyId ++ "@" ++ policy.version]
  ++ (match candidates with
      | [] => []
      | top :: _ => ["top_candidate=" ++ top.modelId,
          "fallback_depth=" ++ toString (candidates.length - 1)])
  ++ ["rejections=" ++ toString rejections.length,
    "freshness_budget_seconds=" ++ toString signalFreshnessSeconds]

/-- The loop's fixed inputs for one call. -/
def scanInput (request : RoutingDecisionRequest) (catalog : CatalogSnapshot)
    (policy : RoutingPolicy) (signals : SignalMap) (signalFreshnessSeconds : ℕ)
    (rt : Runtime) : ScanInput :=
  { request, policy, signals, signalFreshnessSeconds, baseline := baselineOf catalog, rt }

/-- The figures about the decision itself. -/
def observabilityOf (catalog : CatalogSnapshot) (policy : RoutingPolicy)
    (signalFreshnessSeconds : ℕ) (rt : Runtime) (st : ScanState)
    (candidates : List DecisionCandidate) : DecisionObservability :=
  { decisionComputeMs := rt.computeMs
    evaluatedModels := catalog.models.length
    candidateCount := candidates.length
    filteredByBudget := st.filteredByBudget
    filteredByLatency := st.filteredByLatency
    filteredByCapacity := st.filteredByCapacity
    filteredByCapability := st.filteredByCapability
    filteredByProvider := st.filteredByProvider
    signalFreshnessMinSeconds := st.freshnessValues.min?
    fallbackSafetyScore := fallbackSafetyScore candidates
    policyTrace := policyTrace catalog policy candidates st.rejections signalFreshnessSeconds }

/-- `calculate_routing_decision`. -/
def calculateRoutingDecision (request : RoutingDecisionRequest) (catalog : CatalogSnapshot)
    (policy : RoutingPolicy) (signals : SignalMap) (signalFreshnessSeconds ttlSeconds : ℕ)
    (rt : Runtime) : Except ServiceError RoutingDecisionResponse :=
  let st := scan (scanInput request catalog policy signals signalFreshnessSeconds rt)
    catalog.models
  let candidates := rankCandidates policy.maxCandidates st.candidates
  match candidates with
  | [] => .error (.valueError
      "No models survived policy, budget, latency, and capability filtering.")
  | top :: _ => .ok
      { decisionId := ""
        catalogVersion := catalog.version
        policyId := policy.policyId
        policyVersion := policy.version
        expiresAt := rt.now + ttlSeconds * 1000000
        recommended := top
        candidates
        rejections := st.rejections
        decisionExplanation :=
          "Selected " ++ top.modelId ++ " for policy '" ++ policy.policyId
            ++ "' because it offered the best confidence/cost/latency balance for task_type='"
            ++ request.taskType ++ "' with " ++ toString candidates.length
            ++ " viable candidates after filtering."
        observability :=
          observabilityOf catalog policy signalFreshnessSeconds rt st candidates }

end ControlPlane
