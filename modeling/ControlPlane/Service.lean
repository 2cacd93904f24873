import ControlPlane.Lib.Interleave
import ControlPlane.Metrics
import ControlPlane.Persistence
import ControlPlane.Quota

/-!
# The service — `ControlPlaneService.create_decision`, `record_outcome`

Both calls are coroutines. Here each is the list of its await points: a step
performs the awaited call and runs the code after it up to the next await, so
interleaving the steps of many calls is interleaving the coroutines. What a
step reads from outside (time, the catalog file, the signals, a fresh uuid,
and whether the awaited call fails) is an `Env`; the environments of a run
are arbitrary.

An awaited call can return, raise without effect, or raise after it took
effect (a connection lost while the commit goes through). Which faults a
result allows at which await is a parameter of that result.

Mirroring notes:
- `uuid4().hex` never repeats: a step that would draw an id again is no step.
- The metadata writes are best effort: when the first one fails the second
  is skipped and the call goes on.
- `CatalogRegistry.get_snapshot` is read from the environment; what the file
  holds may change between any two steps.
- `raised` and `returned` keep the decision id the call drew, if it drew one.
- Authentication and scopes come before both calls and are left out.
-/

namespace ControlPlane

open Lib

/-! ## What a step reads from outside -/

/-- How an await ends: it returns, it raises, or it raises past its effect. -/
inductive Fault
  | returns
  | raises
  | raisesAfter
deriving DecidableEq, Repr

/-- The awaited calls. -/
inductive Await
  | getByIdempotency
  | enforceRpm
  | currentDailySpend
  | ensureCatalogVersion
  | ensurePolicies
  | reserveConcurrency
  | getSignals
  | createDecision
  | releaseConcurrency
  | getDecisionContext
  | recordOutcome
  | recordSpend
  | publishOutcome
deriving DecidableEq, Repr

/-- What a step is given from outside. -/
structure Env where
  fault : Fault
  clock : Clock
  catalog : Except ServiceError CatalogSnapshot
  uuid : String
  signals : SignalMap
  runtime : Runtime

/-- The settings the service reads. -/
structure Settings where
  signalFreshnessSeconds : ℕ := 90
  decisionTtlSeconds : ℕ := 300
  defaultPolicyId : String := "balanced"

/-- `ControlPlaneDependencies`, as far as the two calls use it. -/
structure Deps (Q : Type) where
  quotaManager : QuotaManager Q
  policies : List (String × RoutingPolicy)
  settings : Settings := {}

/-- `build_in_memory_runtime`. -/
def buildInMemoryRuntime (policies : List (String × RoutingPolicy)) (settings : Settings) :
    Deps InMemoryQuota :=
  { quotaManager := InMemoryQuota.manager
    policies
    settings }

/-- The event of a recorded outcome. -/
structure OutcomeEvent where
  decisionId : String
  agentId : String
  requestId : String
  finalStatus : FinalStatus
  finalModelId : Option String
  fallbackDepth : ℕ
  finalCostUsd : ℚ
  endToEndLatencyMs : ℕ
deriving DecidableEq

/-- Everything the calls share. `issued` are the uuids drawn so far. -/
structure World (Q : Type) where
  tables : Tables := {}
  quota : Q
  events : List OutcomeEvent := []
  metrics : List MetricUpdate := []
  issued : List String := []

/-- A world nothing has happened in yet. -/
def World.empty {Q : Type} (q : Q) : World Q :=
  { quota := q }

/-! ## Await points -/

/-- A call of `create_decision`. -/
structure CreateCall where
  principal : AgentPrincipal
  request : RoutingDecisionRequest
  idempotencyKey : Option String

/-- The await a creation has come to. -/
inductive CreatePc
  | lookup
  | enforceRpm
  | currentSpend
  | ensureCatalog (catalog : CatalogSnapshot) (policy : RoutingPolicy)
  | ensurePolicies (catalog : CatalogSnapshot) (policy : RoutingPolicy)
  | reserve (catalog : CatalogSnapshot) (policy : RoutingPolicy) (decisionId : String)
  | getSignals (catalog : CatalogSnapshot) (policy : RoutingPolicy) (decisionId : String)
  | storeDecision (response : RoutingDecisionResponse)
  | release (decisionId : String) (err : ServiceError)
  | returned (drawn : Option String) (response : RoutingDecisionResponse)
  | raised (drawn : Option String) (err : ServiceError)

/-- A call of `record_outcome`. -/
structure OutcomeCall where
  principal : AgentPrincipal
  outcome : RoutingOutcomeRequest
  idempotencyKey : Option String

/-- The await a report has come to. -/
inductive OutcomePc
  | enforceRpm
  | getContext
  | storeOutcome (record : RoutingDecisionRecord)
  | release (response : RoutingOutcomeResponse)
  | recordSpend (response : RoutingOutcomeResponse)
  | publish (response : RoutingOutcomeResponse)
  | returned (response : RoutingOutcomeResponse)
  | raised (err : ServiceError)

/-- A call in progress. -/
inductive Task
  | create (call : CreateCall) (pc : CreatePc)
  | outcome (call : OutcomeCall) (pc : OutcomePc)

/-! ## The code between two awaits -/

variable {Q : Type}

/-- What comes of an awaited call that would take `w` to `call.1`. -/
def awaited {α : Type} (fault : Fault) (w : World Q) (call : World Q × Except ServiceError α) :
    World Q × Except ServiceError α :=
  match fault with
  | .returns => call
  | .raises => (w, .error .unavailable)
  | .raisesAfter => (call.1, .error .unavailable)

/-- The world past a call of the quota manager. -/
def World.withQuota (w : World Q) (call : Q × Except ServiceError Unit) :
    World Q × Except ServiceError Unit :=
  ({ w with quota := call.1 }, call.2)

/-- The world with a slot given back. -/
def World.releaseSlot (D : Deps Q) (w : World Q) (p : AgentPrincipal) (decisionId : String) :
    World Q :=
  { w with quota := D.quotaManager.releaseConcurrency p decisionId w.quota }

/-- The world with the spend charged. -/
def World.chargeSpend (D : Deps Q) (clock : Clock) (w : World Q) (call : OutcomeCall) :
    World Q :=
  let amount := call.outcome.finalCostUsd
  { w with quota := D.quotaManager.recordSpend clock call.principal amount w.quota }

/-- `request.policy_id or principal.default_policy_id or settings.DEFAULT_POLICY_ID`. -/
def resolvePolicyId (settings : Settings) (call : CreateCall) : String :=
  if truthy call.request.policyId then call.request.policyId.getD ""
  else if call.principal.defaultPolicyId ≠ "" then call.principal.defaultPolicyId
  else settings.defaultPolicyId

/-- The budget guard, the catalog and the policy. -/
def admission (D : Deps Q) (catalog : Except ServiceError CatalogSnapshot) (call : CreateCall)
    (currentSpend : ℚ) : Except ServiceError (CatalogSnapshot × RoutingPolicy) :=
  if call.principal.dailyBudgetUsd < currentSpend + call.request.budgetLimitUsd then
    .error (.quotaExceeded "daily budget would be exceeded by this decision request.")
  else
    match catalog with
    | .error err => .error err
    | .ok catalog =>
      let policyId := resolvePolicyId D.settings call
      let unknown := .error (.notFound s!"Unknown or inactive policy '{policyId}'.")
      match D.policies.lookup policyId with
      | none => unknown
      | some policy => if policy.status ≠ .active then unknown else .ok (catalog, policy)

/-- `decision_id = uuid4().hex`, then the reservation is next. -/
def drawDecisionId (uuid : String) (w : World Q) (catalog : CatalogSnapshot)
    (policy : RoutingPolicy) : Option (World Q × CreatePc) :=
  if uuid ∈ w.issued then none
  else some ({ w with issued := uuid :: w.issued }, .reserve catalog policy uuid)

/-- `create_decision` of the store. -/
def World.insertDecision (w : World Q) (call : CreateCall) (response : RoutingDecisionResponse) :
    World Q × Except ServiceError Unit :=
  match createDecision call.principal call.request response call.idempotencyKey w.tables with
  | .error err => (w, .error err)
  | .ok tables => ({ w with tables }, .ok ())

/-- `record_outcome` of the store. -/
def World.insertOutcome (w : World Q) (call : OutcomeCall) (record : RoutingDecisionRecord) :
    World Q × Except ServiceError RoutingOutcomeResponse :=
  match recordOutcome record call.outcome call.idempotencyKey w.tables with
  | .error err => (w, .error err)
  | .ok (tables, response) => ({ w with tables }, .ok response)

/-- The three checks on the decision an outcome names. -/
def checkOwnership (call : OutcomeCall) (context : Option RoutingDecisionRecord) :
    Except ServiceError RoutingDecisionRecord :=
  match context with
  | none =>
    let decisionId := call.outcome.decisionId
    .error (.notFound s!"Unknown decision_id '{decisionId}'.")
  | some record =>
    if record.agentId ≠ call.principal.agentId then
      .error (.authorization "decision ownership mismatch.")
    else if record.requestId ≠ call.outcome.requestId then
      .error (.authorization
        "outcome request_id does not match the original decision request.")
    else .ok record

/-- The event a report publishes. -/
def outcomeEvent (call : OutcomeCall) : OutcomeEvent :=
  { decisionId := call.outcome.decisionId
    agentId := call.principal.agentId
    requestId := call.outcome.requestId
    finalStatus := call.outcome.finalStatus
    finalModelId := call.outcome.finalModelId
    fallbackDepth := call.outcome.fallbackDepth
    finalCostUsd := call.outcome.finalCostUsd
    endToEndLatencyMs := call.outcome.endToEndLatencyMs }

/-! ## The two coroutines -/

/-- A `create_decision` call up to its first await. -/
def CreateCall.start (call : CreateCall) : CreatePc :=
  if call.principal.agentId ≠ call.request.agentId then
    .raised none (.authorization "request agent_id does not match authenticated credential.")
  else .lookup

/-- One await of a creation. -/
def advanceCreate (D : Deps Q) (env : Env) (w : World Q) (call : CreateCall) :
    CreatePc → Option (World Q × CreatePc)
  | .lookup =>
    match awaited env.fault w
        (w, .ok (w.tables.getByIdempotency call.principal.agentId call.idempotencyKey)) with
    | (w, .error err) => some (w, .raised none err)
    | (w, .ok (some existing)) => some (w, .returned none existing)
    | (w, .ok none) => some (w, .enforceRpm)
  | .enforceRpm =>
    match awaited env.fault w
        (w.withQuota (D.quotaManager.enforceRpm env.clock call.principal w.quota)) with
    | (w, .error err) => some (w, .raised none err)
    | (w, .ok ()) => some (w, .currentSpend)
  | .currentSpend =>
    match awaited env.fault w
        (w, .ok (D.quotaManager.currentDailySpend env.clock call.principal w.quota)) with
    | (w, .error err) => some (w, .raised none err)
    | (w, .ok currentSpend) =>
      match admission D env.catalog call currentSpend with
      | .error err => some (w, .raised none err)
      | .ok (catalog, policy) => some (w, .ensureCatalog catalog policy)
  | .ensureCatalog catalog policy =>
    match awaited env.fault w
        ({ w with tables := ensureCatalogVersion catalog w.tables }, .ok ()) with
    -- Best effort: the failure is logged, and the second write is skipped.
    | (w, .error _) => drawDecisionId env.uuid w catalog policy
    | (w, .ok ()) => some (w, .ensurePolicies catalog policy)
  | .ensurePolicies catalog policy =>
    match awaited env.fault w
        ({ w with tables := ensurePolicies (D.policies.map (·.2)) w.tables }, .ok ()) with
    | (w, _) => drawDecisionId env.uuid w catalog policy
  | .reserve catalog policy decisionId =>
    match awaited env.fault w
        (w.withQuota (D.quotaManager.reserveConcurrency call.principal decisionId w.quota)) with
    | (w, .error err) => some (w, .raised (some decisionId) err)
    | (w, .ok ()) => some (w, .getSignals catalog policy decisionId)
  | .getSignals catalog policy decisionId =>
    match awaited env.fault w (w, .ok env.signals) with
    | (w, .error err) => some (w, .release decisionId err)
    | (w, .ok signals) =>
      match calculateRoutingDecision call.request catalog policy signals
          D.settings.signalFreshnessSeconds D.settings.decisionTtlSeconds env.runtime with
      | .error err => some (w, .release decisionId err)
      | .ok response => some (w, .storeDecision { response with decisionId })
  | .storeDecision response =>
    match awaited env.fault w (w.insertDecision call response) with
    | (w, .error err) => some (w, .release response.decisionId err)
    | (w, .ok ()) =>
      some ({ w with metrics := w.metrics ++ decisionMetrics call.principal response },
        .returned (some response.decisionId) response)
  | .release decisionId err =>
    match awaited env.fault w (w.releaseSlot D call.principal decisionId, .ok ()) with
    -- An exception inside the handler takes the place of the one being handled.
    | (w, .error err') => some (w, .raised (some decisionId) err')
    | (w, .ok ()) => some (w, .raised (some decisionId) err)
  | .returned _ _ => none
  | .raised _ _ => none

/-- A `record_outcome` call up to its first await. -/
def OutcomeCall.start (call : OutcomeCall) : OutcomePc :=
  if call.principal.agentId ≠ call.outcome.agentId then
    .raised (.authorization "outcome agent_id does not match authenticated credential.")
  else .enforceRpm

/-- One await of a report. -/
def advanceOutcome (D : Deps Q) (env : Env) (w : World Q) (call : OutcomeCall) :
    OutcomePc → Option (World Q × OutcomePc)
  | .enforceRpm =>
    match awaited env.fault w
        (w.withQuota (D.quotaManager.enforceRpm env.clock call.principal w.quota)) with
    | (w, .error err) => some (w, .raised err)
    | (w, .ok ()) => some (w, .getContext)
  | .getContext =>
    match awaited env.fault w
        (w, .ok (w.tables.getDecisionContext call.outcome.decisionId)) with
    | (w, .error err) => some (w, .raised err)
    | (w, .ok context) =>
      match checkOwnership call context with
      | .error err => some (w, .raised err)
      | .ok record => some (w, .storeOutcome record)
  | .storeOutcome record =>
    match awaited env.fault w (w.insertOutcome call record) with
    | (w, .error err) => some (w, .raised err)
    | (w, .ok response) =>
      -- A duplicate goes straight back to the caller: no release, no charge, no event.
      if response.outcomeStatus = .recorded then some (w, .release response)
      else some (w, .returned response)
  | .release response =>
    match awaited env.fault w
        (w.releaseSlot D call.principal call.outcome.decisionId, .ok ()) with
    | (w, .error err) => some (w, .raised err)
    | (w, .ok ()) => some (w, .recordSpend response)
  | .recordSpend response =>
    match awaited env.fault w (w.chargeSpend D env.clock call, .ok ()) with
    | (w, .error err) => some (w, .raised err)
    | (w, .ok ()) => some (w, .publish response)
  | .publish response =>
    match awaited env.fault w ({ w with events := w.events ++ [outcomeEvent call] }, .ok ()) with
    | (w, .error err) => some (w, .raised err)
    | (w, .ok ()) =>
      some ({ w with metrics := w.metrics ++ outcomeMetrics call.principal call.outcome },
        .returned response)
  | .returned _ => none
  | .raised _ => none

/-! ## The system -/

namespace Task

/-- Who makes the call. -/
def principal : Task → AgentPrincipal
  | create call _ => call.principal
  | outcome call _ => call.principal

/-- The call a task is suspended on; `none` when it has returned or raised. -/
def await : Task → Option Await
  | create _ pc =>
    match pc with
    | .lookup => some .getByIdempotency
    | .enforceRpm => some .enforceRpm
    | .currentSpend => some .currentDailySpend
    | .ensureCatalog _ _ => some .ensureCatalogVersion
    | .ensurePolicies _ _ => some .ensurePolicies
    | .reserve _ _ _ => some .reserveConcurrency
    | .getSignals _ _ _ => some .getSignals
    | .storeDecision _ => some .createDecision
    | .release _ _ => some .releaseConcurrency
    | .returned _ _ => none
    | .raised _ _ => none
  | outcome _ pc =>
    match pc with
    | .enforceRpm => some .enforceRpm
    | .getContext => some .getDecisionContext
    | .storeOutcome _ => some .recordOutcome
    | .release _ => some .releaseConcurrency
    | .recordSpend _ => some .recordSpend
    | .publish _ => some .publishOutcome
    | .returned _ => none
    | .raised _ => none

/-- The call awaits nothing any more. -/
def Finished (t : Task) : Prop :=
  t.await = none

instance (t : Task) : Decidable t.Finished :=
  inferInstanceAs (Decidable (t.await = none))

/-- What a `record_outcome` call returned. -/
def outcomeResponse : Task → Option RoutingOutcomeResponse
  | outcome _ (.returned response) => some response
  | _ => none

/-- What a call raised. -/
def failure : Task → Option ServiceError
  | create _ (.raised _ err) => some err
  | outcome _ (.raised err) => some err
  | _ => none

/-- A call that has just been made. -/
inductive Started : Task → Prop
  | create (call : CreateCall) : Started (.create call call.start)
  | outcome (call : OutcomeCall) : Started (.outcome call call.start)

end Task

/-- One await of either. -/
def advance (D : Deps Q) (env : Env) (w : World Q) : Task → Option (World Q × Task)
  | .create call pc => (advanceCreate D env w call pc).map fun r => (r.1, .create call r.2)
  | .outcome call pc => (advanceOutcome D env w call pc).map fun r => (r.1, .outcome call r.2)

/-- The control plane: any number of calls, interleaved at their awaits. -/
def controlPlane (D : Deps Q) : System (World Q) Task Env where
  advance := advance D

/-- What a run may contain: who calls, and which awaited call may fail how. -/
structure Scenario where
  caller : AgentPrincipal → Prop
  fault : Await → Fault → Prop

/-- A call may start, and a step may meet these faults. -/
def Scenario.Permits (sc : Scenario) (c : Conf (World Q) Task) : Act Task Env → Prop
  | .start t => t.Started ∧ sc.caller t.principal
  | .run i env => ∀ t, c.tasks[i]? = some t → ∀ a, t.await = some a → sc.fault a env.fault

/-- Runs of the control plane within a scenario. -/
def RunIn (D : Deps Q) (sc : Scenario) :
    Conf (World Q) Task → List (Act Task Env) → Conf (World Q) Task → Prop :=
  (controlPlane D).Run sc.Permits

end ControlPlane
