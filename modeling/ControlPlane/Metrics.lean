import ControlPlane.Schemas

/-!
# Metric updates — the calls the service makes on `MetricsStore`

The updates one returned call makes, in source order. The world keeps them
as a log; the store's tables are folds of it.
-/

namespace ControlPlane

/-- A call of the metrics store. -/
inductive MetricUpdate
  | incr (name : String) (amount : ℚ) (labels : List (String × String))
  | setGauge (name : String) (value : ℚ) (labels : List (String × String))
  | observe (name : String) (value : ℚ) (labels : List (String × String))
deriving DecidableEq

/-- The updates at the end of `create_decision`. -/
def decisionMetrics (principal : AgentPrincipal) (response : RoutingDecisionResponse) :
    List MetricUpdate :=
  let policy := [("policy_id", response.policyId)]
  [.incr "routing_decisions_total" 1
      [("policy_id", response.policyId), ("agent_id", principal.agentId)],
    .observe "routing_decision_latency_ms" response.observability.decisionComputeMs policy,
    .observe "routing_candidate_count" response.candidates.length policy]
  ++ response.rejections.map (fun rejection =>
    .incr "routing_rejections_total" 1
      [("reason", rejection.reason.text), ("provider", rejection.provider)])
  ++ [.incr "routing_policy_hits_total" 1 policy,
    .setGauge "routing_probe_freshness_seconds"
      ((response.observability.signalFreshnessMinSeconds.getD 0 : ℕ) : ℚ) policy]

/-- The updates at the end of `record_outcome`. -/
def outcomeMetrics (principal : AgentPrincipal) (outcome : RoutingOutcomeRequest) :
    List MetricUpdate :=
  [.incr "routing_outcomes_total" 1
      [("final_status", outcome.finalStatus.text), ("agent_id", principal.agentId)],
    .observe "routing_fallback_depth" outcome.fallbackDepth
      [("final_status", outcome.finalStatus.text)]]

end ControlPlane
