import ControlPlane.Errors
import ControlPlane.Schemas
import ControlPlane.PricingEngine

/-!
# The relational store — `app/services/persistence.py`, `app/models/control_plane.py`

The four tables the routing core writes and the store operations on them,
each as the transaction it is: from the tables before to the tables after, or
to the exception that rolls them back.

Mirroring notes:
- A payload column holds the value that was dumped into it;
  `model_validate ∘ model_dump` is the identity.
- `outcome_payload` is a dumped response, so it is truthy once it is set.
- The surrogate `id` and the timestamps are left out. A table is the list of
  its rows in insertion order.
- A value its column does not take makes the flush raise. Where awaits may
  fail that is one of the failures; the columns themselves are in
  `OutcomeStorage`.
-/

namespace ControlPlane

/-! ## Rows -/

/-- The two values the `status` column takes; the default is `"open"`. -/
inductive DecisionStatus
  | opened
  | completed
deriving DecidableEq, Repr

/-- The value a status has in the database. -/
def DecisionStatus.text : DecisionStatus → String
  | .opened => "open"
  | .completed => "completed"

/-- A row of `routing_decisions`. -/
structure RoutingDecisionRecord where
  decisionId : String
  tenantId : String
  agentId : String
  environment : String
  workflowId : String
  sessionId : String
  requestId : String
  catalogVersion : String
  policyId : String
  policyVersion : String
  idempotencyKey : Option String
  outcomeIdempotencyKey : Option String := none
  status : DecisionStatus := .opened
  recommendedModelId : String
  requestPayload : RoutingDecisionRequest
  responsePayload : RoutingDecisionResponse
  outcomePayload : Option RoutingOutcomeResponse := none
  finalStatus : Option FinalStatus := none
  finalModelId : Option String := none
  fallbackDepth : Option ℕ := none

/-- A row of `routing_attempts`. -/
structure RoutingAttemptRecord where
  decisionId : String
  provider : String
  modelId : String
  rank : ℕ
  status : AttemptStatus
  errorClass : Option String
  latencyMs : ℕ
  inputTokens : ℕ
  outputTokens : ℕ
  costUsd : ℚ
deriving DecidableEq

/-- A row of `model_catalog_versions`. -/
structure ModelCatalogVersion where
  version : String
  checksum : String
  source : String
  snapshot : CatalogSnapshot

/-- The tables the service writes. -/
structure Tables where
  decisions : List RoutingDecisionRecord := []
  attempts : List RoutingAttemptRecord := []
  catalogVersions : List ModelCatalogVersion := []
  policies : List RoutingPolicy := []

/-! ## Metadata -/

/-- A version that is already on record keeps its row. -/
def ensureCatalogVersion (catalog : CatalogSnapshot) (tables : Tables) : Tables :=
  if tables.catalogVersions.any (·.version = catalog.version) then tables
  else { tables with
    catalogVersions := tables.catalogVersions ++
      [{ version := catalog.version
         checksum := catalog.checksum
         source := catalog.source
         snapshot := catalog }] }

/-- `session.get` by primary key, then an update or an insert. -/
def ensurePolicy (rows : List RoutingPolicy) (policy : RoutingPolicy) : List RoutingPolicy :=
  if rows.any (·.policyId = policy.policyId) then
    rows.map fun row => if row.policyId = policy.policyId then policy else row
  else rows ++ [policy]

/-- `ensure_policies`. -/
def ensurePolicies (policies : List RoutingPolicy) (tables : Tables) : Tables :=
  { tables with policies := policies.foldl ensurePolicy tables.policies }

/-! ## Decisions -/

namespace Tables

/-- An empty key is no key: `if not idempotency_key: return None`. -/
def getByIdempotency (tables : Tables) (agentId : String) (idempotencyKey : Option String) :
    Option RoutingDecisionResponse :=
  if truthy idempotencyKey then
    (tables.decisions.find? fun record =>
      record.agentId = agentId ∧ record.idempotencyKey = idempotencyKey).map (·.responsePayload)
  else none

/-- `get_decision_context`. -/
def getDecisionContext (tables : Tables) (decisionId : String) : Option RoutingDecisionRecord :=
  tables.decisions.find? (·.decisionId = decisionId)

end Tables

/-- The row `create_decision` adds. -/
def decisionRecord (principal : AgentPrincipal) (request : RoutingDecisionRequest)
    (response : RoutingDecisionResponse) (idempotencyKey : Option String) :
    RoutingDecisionRecord :=
  { decisionId := response.decisionId
    tenantId := principal.tenantId
    agentId := principal.agentId
    environment := principal.environment
    workflowId := request.workflowId
    sessionId := request.sessionId
    requestId := request.requestId
    catalogVersion := response.catalogVersion
    policyId := response.policyId
    policyVersion := response.policyVersion
    idempotencyKey
    recommendedModelId := response.recommended.modelId
    requestPayload := request
    responsePayload := response }

/-- The insertion, under the primary key and under
`uq_routing_decisions_agent_idempotency`. `NULL` keys are distinct; the empty
string is a key like any other here. -/
def createDecision (principal : AgentPrincipal) (request : RoutingDecisionRequest)
    (response : RoutingDecisionResponse) (idempotencyKey : Option String) (tables : Tables) :
    Except ServiceError Tables :=
  -- The primary key binds every row, the constraint keyed rows only.
  if tables.decisions.any (·.decisionId = response.decisionId) then
    .error (.integrityError "routing_decisions_pkey")
  else if idempotencyKey.isSome ∧ tables.decisions.any fun record =>
      record.agentId = principal.agentId ∧ record.idempotencyKey = idempotencyKey then
    .error (.integrityError "uq_routing_decisions_agent_idempotency")
  else .ok { tables with
    decisions := tables.decisions ++
      [decisionRecord principal request response idempotencyKey] }

/-! ## Outcomes -/

/-- The stored answer, marked as a duplicate. -/
def duplicateOutcomePayload (payload : RoutingOutcomeResponse) : RoutingOutcomeResponse :=
  { payload with outcomeStatus := .duplicate }

/-- The row of one attempt. -/
def attemptRecord (decisionId : String) (attempt : OutcomeAttempt) : RoutingAttemptRecord :=
  { decisionId
    provider := attempt.provider
    modelId := attempt.modelId
    rank := attempt.rank
    status := attempt.status
    errorClass := attempt.errorClass
    latencyMs := attempt.latencyMs
    inputTokens := attempt.inputTokens
    outputTokens := attempt.outputTokens
    costUsd := attempt.costUsd }

/-- The response of the call that stores the outcome. -/
def recordedResponse (decisionId : String) (outcome : RoutingOutcomeRequest) :
    RoutingOutcomeResponse :=
  { decisionId
    outcomeStatus := .recorded
    finalStatus := outcome.finalStatus
    attemptsRecorded := outcome.attempts.length
    fallbackDepth := outcome.fallbackDepth }

/-- The columns an accepted outcome sets. -/
def RoutingDecisionRecord.complete (decision : RoutingDecisionRecord)
    (outcome : RoutingOutcomeRequest) (idempotencyKey : Option String) :
    RoutingDecisionRecord :=
  { decision with
    outcomeIdempotencyKey := idempotencyKey
    status := .completed
    finalStatus := some outcome.finalStatus
    finalModelId := outcome.finalModelId
    fallbackDepth := some outcome.fallbackDepth
    outcomePayload := some (recordedResponse decision.decisionId outcome) }

/-- Replace the decision's attempt rows and complete its row. -/
def Tables.storeOutcome (tables : Tables) (decisionId : String)
    (outcome : RoutingOutcomeRequest) (idempotencyKey : Option String) : Tables :=
  { tables with
    decisions := tables.decisions.map fun decision =>
      if decision.decisionId = decisionId then decision.complete outcome idempotencyKey
      else decision
    attempts := tables.attempts.filter (·.decisionId ≠ decisionId)
      ++ outcome.attempts.map (attemptRecord decisionId) }

/-- `SqlAlchemyDecisionStore.record_outcome` as one transaction. The two
branches on the idempotency key return the same payload in the source. -/
def recordOutcome (record : RoutingDecisionRecord) (outcome : RoutingOutcomeRequest)
    (idempotencyKey : Option String) (tables : Tables) :
    Except ServiceError (Tables × RoutingOutcomeResponse) :=
  match tables.getDecisionContext record.decisionId with
  | none => .error (.lookupError record.decisionId)
  | some decision =>
    match decision.outcomePayload with
    | some payload =>
      -- The outcome is there already: nothing is written, with either key.
      if truthy idempotencyKey ∧ decision.outcomeIdempotencyKey = idempotencyKey then
        .ok (tables, duplicateOutcomePayload payload)
      else .ok (tables, duplicateOutcomePayload payload)
    | none => .ok (tables.storeOutcome decision.decisionId outcome idempotencyKey,
        recordedResponse decision.decisionId outcome)

/-! ## What the operations do to the tables -/

/-- A catalog version leaves the decisions alone. -/
@[simp]
theorem ensureCatalogVersion_decisions (catalog : CatalogSnapshot) (tables : Tables) :
    (ensureCatalogVersion catalog tables).decisions = tables.decisions := by
  unfold ensureCatalogVersion
  split <;> rfl

/-- So do the policies. -/
@[simp]
theorem ensurePolicies_decisions (policies : List RoutingPolicy) (tables : Tables) :
    (ensurePolicies policies tables).decisions = tables.decisions := rfl

/-- A context is a row with its id. -/
theorem Tables.getDecisionContext_some {tables : Tables} {decisionId : String}
    {record : RoutingDecisionRecord} (h : tables.getDecisionContext decisionId = some record) :
    record ∈ tables.decisions ∧ record.decisionId = decisionId :=
  ⟨List.mem_of_find?_eq_some h, by simpa using List.find?_some h⟩

/-- A replay answers from a row stored under that agent and non-empty key. -/
theorem Tables.getByIdempotency_some {tables : Tables} {agentId : String}
    {idempotencyKey : Option String} {response : RoutingDecisionResponse}
    (h : tables.getByIdempotency agentId idempotencyKey = some response) :
    truthy idempotencyKey = true ∧ ∃ record ∈ tables.decisions, record.agentId = agentId
      ∧ record.idempotencyKey = idempotencyKey ∧ record.responsePayload = response := by
  unfold getByIdempotency at h
  split at h
  next hkey =>
    obtain ⟨record, hfind, hresp⟩ := Option.map_eq_some_iff.mp h
    have hprop := List.find?_some hfind
    simp only [decide_eq_true_eq] at hprop
    exact ⟨hkey, record, List.mem_of_find?_eq_some hfind, hprop.1, hprop.2, hresp⟩
  next => simp at h

/-- A row with a key is found by the key. -/
theorem Tables.getByIdempotency_isSome {tables : Tables} {record : RoutingDecisionRecord}
    (hmem : record ∈ tables.decisions) (hkey : truthy record.idempotencyKey = true) :
    (tables.getByIdempotency record.agentId record.idempotencyKey).isSome := by
  unfold getByIdempotency
  rw [if_pos hkey, Option.isSome_map, List.find?_isSome]
  exact ⟨record, hmem, by simp⟩

/-- An insertion adds one row; its decision id and its idempotency key were
not there. -/
theorem createDecision_ok {principal : AgentPrincipal} {request : RoutingDecisionRequest}
    {response : RoutingDecisionResponse} {idempotencyKey : Option String}
    {tables tables' : Tables}
    (h : createDecision principal request response idempotencyKey tables = .ok tables') :
    tables' = { tables with
        decisions := tables.decisions ++
          [decisionRecord principal request response idempotencyKey] }
      ∧ (∀ record ∈ tables.decisions, record.decisionId ≠ response.decisionId)
      ∧ (idempotencyKey.isSome → ∀ record ∈ tables.decisions,
          ¬ (record.agentId = principal.agentId ∧ record.idempotencyKey = idempotencyKey)) := by
  unfold createDecision at h
  split at h
  next => simp at h
  next hpk =>
    split at h
    next => simp at h
    next huq =>
      refine ⟨(Except.ok.inj h).symm, ?_, ?_⟩
      · simpa using hpk
      · intro hsome record hmem hboth
        exact huq ⟨hsome, by simpa using ⟨record, hmem, hboth⟩⟩

/-- The three ways `record_outcome` can end. -/
theorem recordOutcome_cases (record : RoutingDecisionRecord) (outcome : RoutingOutcomeRequest)
    (idempotencyKey : Option String) (tables : Tables) :
    (tables.getDecisionContext record.decisionId = none
      ∧ recordOutcome record outcome idempotencyKey tables
        = .error (.lookupError record.decisionId))
    ∨ (∃ decision payload, tables.getDecisionContext record.decisionId = some decision
      ∧ decision.outcomePayload = some payload
      ∧ recordOutcome record outcome idempotencyKey tables
        = .ok (tables, duplicateOutcomePayload payload))
    ∨ (∃ decision, tables.getDecisionContext record.decisionId = some decision
      ∧ decision.outcomePayload = none
      ∧ recordOutcome record outcome idempotencyKey tables
        = .ok (tables.storeOutcome record.decisionId outcome idempotencyKey,
            recordedResponse record.decisionId outcome)) := by
  unfold recordOutcome
  cases hctx : tables.getDecisionContext record.decisionId with
  | none => exact .inl ⟨rfl, rfl⟩
  | some decision =>
    have hid := (Tables.getDecisionContext_some hctx).2
    cases hpay : decision.outcomePayload with
    | some payload =>
      refine .inr (.inl ⟨decision, payload, rfl, hpay, ?_⟩)
      simp [hpay]
    | none =>
      refine .inr (.inr ⟨decision, rfl, hpay, ?_⟩)
      simp [hpay, hid]

/-- A stored outcome is read back. -/
theorem Tables.getDecisionContext_storeOutcome {tables : Tables} {decisionId : String}
    {decision : RoutingDecisionRecord} {outcome : RoutingOutcomeRequest}
    {idempotencyKey : Option String}
    (h : tables.getDecisionContext decisionId = some decision) :
    (tables.storeOutcome decisionId outcome idempotencyKey).getDecisionContext decisionId
      = some (decision.complete outcome idempotencyKey) := by
  -- Completing a row leaves its id, so the search stops at the same row.
  have hsame : ((fun row : RoutingDecisionRecord => decide (row.decisionId = decisionId)) ∘
      fun row => if row.decisionId = decisionId then row.complete outcome idempotencyKey else row)
      = fun row => decide (row.decisionId = decisionId) := by
    funext row
    by_cases hrow : row.decisionId = decisionId <;> simp [hrow, RoutingDecisionRecord.complete]
  have hid := (getDecisionContext_some h).2
  unfold getDecisionContext at h ⊢
  rw [storeOutcome, List.find?_map, hsame, h, Option.map_some, if_pos hid]

/-- Its attempts are the report's. -/
theorem Tables.attempts_storeOutcome {tables : Tables} {decisionId : String}
    {outcome : RoutingOutcomeRequest} {idempotencyKey : Option String} :
    (tables.storeOutcome decisionId outcome idempotencyKey).attempts.filter
        (·.decisionId = decisionId)
      = outcome.attempts.map (attemptRecord decisionId) := by
  unfold storeOutcome
  rw [List.filter_append, List.filter_filter, List.filter_eq_nil_iff.mpr, List.nil_append,
    List.filter_eq_self]
  · simp [attemptRecord]
  · simp

end ControlPlane
