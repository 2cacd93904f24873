import ControlPlane.Comparison
import ControlPlane.Service

/-!
# Traces

A trace makes some calls and then steps them in a given order, every awaited
call returning. It is a run of any scenario that allows calls to return
(`exists_run_of_trace`), so a trace that evaluates to a state is a run to it.

The rest is a small deployment to run traces in: one model, one policy, one
agent, the in-memory quota manager.
-/

namespace ControlPlane

open Lib

/-- The calls are made, and then take their steps. -/
def traceActs (calls : List Task) (schedule : List (ℕ × Env)) : List (Act Task Env) :=
  calls.map .start ++ schedule.map fun p => .run p.1 p.2

/-- A trace that evaluates is a run. -/
theorem exists_run_of_trace {Q : Type} (D : Deps Q) (sc : Scenario) (w : World Q)
    (calls : List Task) (schedule : List (ℕ × Env)) (P : Conf (World Q) Task → Bool)
    (hfault : ∀ a, sc.fault a .returns)
    (hcalls : ∀ t ∈ calls, t.Started ∧ sc.caller t.principal)
    (hreturns : ∀ p ∈ schedule, p.2.fault = .returns)
    (h : ((controlPlane D).exec ⟨w, []⟩ (traceActs calls schedule)).any P = true) :
    ∃ c, RunIn D sc ⟨w, []⟩ (traceActs calls schedule) c ∧ P c = true := by
  obtain ⟨c, hexec, hc⟩ := (Option.any_eq_true _ _).mp h
  refine ⟨c, System.Run.of_exec ?_ hexec, hc⟩
  intro a ha c₁
  rcases List.mem_append.mp ha with ha | ha
  · obtain ⟨t, ht, rfl⟩ := List.mem_map.mp ha
    exact hcalls t ht
  · obtain ⟨p, hp, rfl⟩ := List.mem_map.mp ha
    intro t _ a _
    rw [hreturns p hp]
    exact hfault a

/-- A trace that evaluates with a check on each step is a run under it. -/
theorem exists_run_of_checked {Q : Type} (D : Deps Q) (w : World Q) (calls : List Task)
    (schedule : List (ℕ × Env)) (ok : Conf (World Q) Task → Act Task Env → Prop)
    [∀ c i env, Decidable (ok c (.run i env))] (P : Conf (World Q) Task → Bool)
    (hcalls : ∀ t ∈ calls, ∀ c, ok c (.start t))
    (h : ((controlPlane D).execIf (fun c a => match a with
        | .start _ => true
        | .run i env => decide (ok c (.run i env))) ⟨w, []⟩ (traceActs calls schedule)).any P
      = true) :
    ∃ c, (controlPlane D).Run ok ⟨w, []⟩ (traceActs calls schedule) c ∧ P c = true := by
  obtain ⟨c, hexec, hc⟩ := (Option.any_eq_true _ _).mp h
  refine ⟨c, System.Run.of_execIf (fun a ha c₁ hpass => ?_) hexec, hc⟩
  rcases List.mem_append.mp ha with ha | ha
  · obtain ⟨t, ht, rfl⟩ := List.mem_map.mp ha
    exact hcalls t ht c₁
  · obtain ⟨p, -, rfl⟩ := List.mem_map.mp ha
    exact of_decide_eq_true hpass

/-! ## A small deployment -/

/-- A catalog of one model. -/
def labCatalog : CatalogSnapshot :=
  { version := "test-catalog"
    checksum := "0"
    source := "catalog.json"
    models := [plainModel] }

/-- One policy, quotas in memory. -/
def labDeps : Deps InMemoryQuota :=
  buildInMemoryRuntime [("balanced", balancedPolicy)] {}

/-- An agent with room for five decisions. -/
def labAgent : AgentPrincipal :=
  { agentId := "agent-1"
    environment := "internal"
    tenantId := "internal"
    rateLimitRpm := 50
    concurrentLimit := 5
    dailyBudgetUsd := 50
    defaultPolicyId := "balanced" }

/-- A long request with a given budget. -/
def labRequest (budgetLimitUsd : ℚ) (h : 0 ≤ budgetLimitUsd := by norm_num) :
    RoutingDecisionRequest :=
  { longRequest with budgetLimitUsd, budgetLimitUsd_ge := h }

/-- One attempt at a given cost. -/
def labAttempt (costUsd : ℚ) : OutcomeAttempt :=
  { modelId := "lab/b"
    provider := "lab"
    rank := 1
    status := .success
    latencyMs := 280
    inputTokens := 500
    outputTokens := 200
    costUsd }

/-- An outcome of one attempt. -/
def labOutcome (decisionId : String) (finalCostUsd : ℚ) (h : 0 ≤ finalCostUsd := by norm_num) :
    RoutingOutcomeRequest :=
  { decisionId
    agentId := "agent-1"
    requestId := "req-1"
    finalStatus := .success
    attempts := [labAttempt finalCostUsd]
    fallbackDepth := 0
    endToEndLatencyMs := 280
    finalCostUsd
    finalCostUsd_ge := h }

/-- One step of the deployment; only the uuid a step would draw differs. -/
def labEnv (uuid : String) : Env :=
  { fault := .returns
    clock := { time := 0, today := "2026-04-01" }
    catalog := .ok labCatalog
    uuid
    signals := fun _ => none
    runtime := stillRuntime }

/-- A creation under a key. -/
def keyedCall : CreateCall :=
  { principal := labAgent
    request := labRequest (1 / 20)
    idempotencyKey := some "idem-1" }

/-- A report of a cent. -/
def reportCall : OutcomeCall :=
  { principal := labAgent
    outcome := labOutcome "a" (1 / 100)
    idempotencyKey := none }

/-- The creation, about to begin. -/
def labCreate (call : CreateCall) : Task :=
  .create call call.start

/-- The report, about to begin. -/
def labReport (call : OutcomeCall) : Task :=
  .outcome call call.start

/-- `keyedCall` on its own in an empty deployment, for `n` steps. -/
def keyedAlone (uuid : String) (n : ℕ) : World InMemoryQuota × Task :=
  (controlPlane labDeps).solo (World.empty {}) (.create keyedCall keyedCall.start)
    (List.replicate n (labEnv uuid))

/-- The deployment once `keyedCall` has been answered. -/
def answeredWorld : World InMemoryQuota :=
  (keyedAlone "a" 8).1

end ControlPlane
