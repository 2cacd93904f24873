import Mathlib

/-!
# The data model — `app/schemas/routing.py`

The pydantic models the routing core reads and returns. A `Field(ge=…, le=…)`
bound is a proof field with the same content, so a value of one of these
types is a value the schema accepts and later proofs read the bound off it.

Mirroring notes:
- `float` fields are rationals, which hold every finite double; what an
  operation on them rounds to is in the code that does it. Integer fields
  bounded below by zero are `ℕ`.
- `Literal[…]` fields are enumerations. `DecisionRejection.reason` is a
  plain `str` in the schema but takes five constants, so it is one too;
  `text` gives the constants.
- Fields no modelled function reads (`modalities`, `metadata`, scopes,
  descriptions) are left out.
-/

namespace ControlPlane

/-! ## Catalog -/

/-- What a request demands of a model. -/
structure CapabilityRequirements where
  vision : Bool := false
  reasoning : Bool := false
  toolCalling : Bool := false
  jsonMode : Bool := false
deriving DecidableEq, Repr

/-- What a model can do. -/
structure ModelCapabilities extends CapabilityRequirements where
  supportedTaskTypes : List String := ["general_chat"]
deriving DecidableEq, Repr

/-- A price for up to so many tokens. -/
structure PricingTier where
  uptoTokens : Option ℕ := none
  inPrice1k : ℚ
  outPrice1k : ℚ
  uptoTokens_ge : ∀ n, uptoTokens = some n → 1 ≤ n := by simp
  inPrice1k_ge : 0 ≤ inPrice1k := by norm_num
  outPrice1k_ge : 0 ≤ outPrice1k := by norm_num

/-- A model of the catalog, with the bounds of its fields. -/
structure CatalogModel where
  provider : String
  modelName : String
  modelId : String
  displayName : String := ""
  inPrice1k : ℚ
  outPrice1k : ℚ
  pricingTiers : List PricingTier := []
  contextWindowTokens : ℕ := 8192
  defaultTtfbMs : ℕ := 900
  throughputHintQps : ℚ := 20
  accuracy : ℚ := 72 / 100
  hardCapacityFactor : ℚ := 115 / 100
  capabilities : ModelCapabilities := {}
  coldStartMs : ℕ := 0
  coldStartCostUsd : ℚ := 0
  longTextDiscountRate : ℚ := 0
  longTextThresholdTokens : ℕ := 16000
  concurrencyPremiumRate : ℚ := 0
  burstQpsThreshold : ℚ := 85 / 100
  probeEndpoint : Option String := none
  inPrice1k_ge : 0 ≤ inPrice1k := by norm_num
  outPrice1k_ge : 0 ≤ outPrice1k := by norm_num
  contextWindowTokens_ge : 1 ≤ contextWindowTokens := by norm_num
  defaultTtfbMs_ge : 1 ≤ defaultTtfbMs := by norm_num
  throughputHintQps_gt : 0 < throughputHintQps := by norm_num
  accuracy_ge : 0 ≤ accuracy := by norm_num
  accuracy_le : accuracy ≤ 1 := by norm_num
  hardCapacityFactor_ge : 1 ≤ hardCapacityFactor := by norm_num
  coldStartCostUsd_ge : 0 ≤ coldStartCostUsd := by norm_num
  longTextDiscountRate_ge : 0 ≤ longTextDiscountRate := by norm_num
  longTextDiscountRate_le : longTextDiscountRate ≤ 1 := by norm_num
  longTextThresholdTokens_ge : 1 ≤ longTextThresholdTokens := by norm_num
  concurrencyPremiumRate_ge : 0 ≤ concurrencyPremiumRate := by norm_num
  burstQpsThreshold_gt : 0 < burstQpsThreshold := by norm_num
  burstQpsThreshold_le : burstQpsThreshold ≤ 3 / 2 := by norm_num

/-- A provider and its models. -/
structure CatalogProvider where
  provider : String
  displayName : String
  baseUrl : String
  envKeyName : Option String := none
  models : List CatalogModel

/-- `normalization_baseline` is a dictionary read by key; keys are unique. -/
structure CatalogSnapshot where
  version : String
  checksum : String
  source : String
  providers : List CatalogProvider := []
  models : List CatalogModel
  normalizationBaseline : List (String × ℚ) := []

/-! ## Policies -/

/-- The weights of the four scores. -/
structure PolicyWeights where
  tokenCost : ℚ := 35 / 100
  qps : ℚ := 15 / 100
  latency : ℚ := 25 / 100
  accuracy : ℚ := 25 / 100
  tokenCost_ge : 0 ≤ tokenCost := by norm_num
  qps_ge : 0 ≤ qps := by norm_num
  latency_ge : 0 ≤ latency := by norm_num
  accuracy_ge : 0 ≤ accuracy := by norm_num
  total_pos : 0 < tokenCost + qps + latency + accuracy := by norm_num

/-- Whether a policy is in use. -/
inductive PolicyStatus
  | active
  | disabled
deriving DecidableEq, Repr

/-- A routing policy, with the bounds of its fields. -/
structure RoutingPolicy where
  policyId : String
  version : String
  status : PolicyStatus := .active
  weights : PolicyWeights
  maxCandidates : ℕ := 4
  freshnessPenalty : ℚ := 12 / 100
  degradedPenalty : ℚ := 18 / 100
  fallbackBonus : ℚ := 5 / 100
  maxCandidates_ge : 1 ≤ maxCandidates := by norm_num
  maxCandidates_le : maxCandidates ≤ 10 := by norm_num
  freshnessPenalty_ge : 0 ≤ freshnessPenalty := by norm_num
  freshnessPenalty_le : freshnessPenalty ≤ 1 := by norm_num
  degradedPenalty_ge : 0 ≤ degradedPenalty := by norm_num
  degradedPenalty_le : degradedPenalty ≤ 1 := by norm_num
  fallbackBonus_ge : 0 ≤ fallbackBonus := by norm_num
  fallbackBonus_le : fallbackBonus ≤ 1 := by norm_num

/-! ## Principals and requests -/

/-- The authenticated caller. The quotas carry no bounds in this schema. -/
structure AgentPrincipal where
  agentId : String
  environment : String
  tenantId : String
  rateLimitRpm : ℤ
  concurrentLimit : ℤ
  dailyBudgetUsd : ℚ
  defaultPolicyId : String
deriving DecidableEq, Repr

/-- `RoutingDecisionRequest`, with the bounds of its fields. -/
structure RoutingDecisionRequest where
  agentId : String
  workflowId : String := ""
  sessionId : String := ""
  requestId : String
  taskType : String
  language : String := "en"
  inputChars : ℕ
  expectedOutputTokens : ℕ
  contextWindowTokens : ℕ
  budgetLimitUsd : ℚ
  latencySloMs : Option ℕ := none
  throughputHintQps : Option ℚ := none
  policyId : Option String := none
  providerAllowlist : Option (List String) := none
  providerDenylist : Option (List String) := none
  capabilityRequirements : CapabilityRequirements := {}
  inputChars_ge : 1 ≤ inputChars := by norm_num
  expectedOutputTokens_ge : 1 ≤ expectedOutputTokens := by norm_num
  contextWindowTokens_ge : 1 ≤ contextWindowTokens := by norm_num
  budgetLimitUsd_ge : 0 ≤ budgetLimitUsd := by norm_num
  latencySloMs_ge : ∀ n, latencySloMs = some n → 1 ≤ n := by simp
  throughputHintQps_ge : ∀ q, throughputHintQps = some q → 0 ≤ q := by simp

/-! ## Decisions -/

/-- The scores and penalties of a candidate. -/
structure ScoreBreakdown where
  tokenCost : ℚ
  qps : ℚ
  latency : ℚ
  accuracy : ℚ
  freshnessPenalty : ℚ
  degradedPenalty : ℚ
  fallbackBonus : ℚ
deriving DecidableEq

/-- A model the request may be routed to. -/
structure DecisionCandidate where
  rank : ℕ
  modelId : String
  provider : String
  estimatedCostUsd : ℚ
  expectedTtfbMs : ℤ
  confidenceScore : ℚ
  signalFreshnessSeconds : Option ℕ
  degradedReason : Option String
  scoreBreakdown : ScoreBreakdown
deriving DecidableEq

/-- Why a model is left out. -/
inductive RejectionReason
  | providerFiltered
  | capabilityFiltered
  | capacityFiltered
  | budgetFiltered
  | latencyFiltered
deriving DecidableEq, Repr

/-- The value a reason has in an answer. -/
def RejectionReason.text : RejectionReason → String
  | .providerFiltered => "provider_filtered"
  | .capabilityFiltered => "capability_filtered"
  | .capacityFiltered => "capacity_filtered"
  | .budgetFiltered => "budget_filtered"
  | .latencyFiltered => "latency_filtered"

/-- A model that is left out. -/
structure DecisionRejection where
  modelId : String
  provider : String
  reason : RejectionReason
  detail : String
deriving DecidableEq

/-- What the answer tells about the decision. -/
structure DecisionObservability where
  decisionComputeMs : ℚ
  evaluatedModels : ℕ
  candidateCount : ℕ
  filteredByBudget : ℕ
  filteredByLatency : ℕ
  filteredByCapacity : ℕ
  filteredByCapability : ℕ
  filteredByProvider : ℕ
  signalFreshnessMinSeconds : Option ℕ
  fallbackSafetyScore : ℚ
  policyTrace : List String
deriving DecidableEq

/-- `expires_at` is in microseconds since the epoch. -/
structure RoutingDecisionResponse where
  decisionId : String
  catalogVersion : String
  policyId : String
  policyVersion : String
  expiresAt : ℤ
  recommended : DecisionCandidate
  candidates : List DecisionCandidate
  rejections : List DecisionRejection
  decisionExplanation : String
  observability : DecisionObservability
deriving DecidableEq

/-! ## Outcomes -/

/-- How an attempt ended. -/
inductive AttemptStatus
  | success
  | timeout
  | rateLimited
  | upstreamError
  | validationError
  | cancelled
deriving DecidableEq, Repr

/-- One attempt of an outcome. -/
structure OutcomeAttempt where
  modelId : String
  provider : String
  rank : ℕ
  status : AttemptStatus
  errorClass : Option String := none
  latencyMs : ℕ
  inputTokens : ℕ
  outputTokens : ℕ
  costUsd : ℚ
deriving DecidableEq

/-- How the request ended. -/
inductive FinalStatus
  | success
  | partially
  | failed
deriving DecidableEq, Repr

/-- Its value. -/
def FinalStatus.text : FinalStatus → String
  | .success => "success"
  | .partially => "partial"
  | .failed => "failed"

/-- `RoutingOutcomeRequest`, with the bounds of its fields. -/
structure RoutingOutcomeRequest where
  decisionId : String
  agentId : String
  requestId : String
  finalStatus : FinalStatus
  attempts : List OutcomeAttempt
  finalModelId : Option String := none
  fallbackDepth : ℕ
  endToEndLatencyMs : ℕ
  finalCostUsd : ℚ
  attempts_ne : attempts ≠ [] := by simp
  finalCostUsd_ge : 0 ≤ finalCostUsd := by norm_num

/-- Whether a report was the first. -/
inductive OutcomeStatus
  | recorded
  | duplicate
deriving DecidableEq, Repr

/-- The answer to a report. -/
structure RoutingOutcomeResponse where
  decisionId : String
  outcomeStatus : OutcomeStatus
  finalStatus : FinalStatus
  attemptsRecorded : ℕ
  fallbackDepth : ℕ
deriving DecidableEq, Repr

end ControlPlane
