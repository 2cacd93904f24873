import ControlPlane.Service

/-!
# What one step does

`CreateStep` and `OutcomeStep` list everything a step of a call can do: the
await it leaves, the world after it, the await it reaches, and what made it
go that way. `advanceCreate_step` and `advanceOutcome_step` say the coroutines
do nothing else, and every invariant is read off these two relations; the
coroutines are not unfolded again.

The second half are the frames: which part of the world a step can touch.
-/

namespace ControlPlane

open Lib

variable {Q : Type} {D : Deps Q} {env : Env} {w w' : World Q}

/-! ## The two relations -/

/-- What one await of a creation does. -/
inductive CreateStep (D : Deps Q) (env : Env) (call : CreateCall) (w : World Q) :
    CreatePc → World Q → CreatePc → Prop
  | lookupRaised : env.fault ≠ .returns →
      CreateStep D env call w .lookup w (.raised none .unavailable)
  | replayed {response} : env.fault = .returns →
      w.tables.getByIdempotency call.principal.agentId call.idempotencyKey = some response →
      CreateStep D env call w .lookup w (.returned none response)
  | missed : env.fault = .returns →
      w.tables.getByIdempotency call.principal.agentId call.idempotencyKey = none →
      CreateStep D env call w .lookup w .enforceRpm
  | rpmRaised {q} : env.fault ≠ .returns →
      q = w.quota ∨ q = (D.quotaManager.enforceRpm env.clock call.principal w.quota).1 →
      CreateStep D env call w .enforceRpm { w with quota := q } (.raised none .unavailable)
  | rpmRefused {q err} : env.fault = .returns →
      D.quotaManager.enforceRpm env.clock call.principal w.quota = (q, .error err) →
      CreateStep D env call w .enforceRpm { w with quota := q } (.raised none err)
  | rpmPassed {q} : env.fault = .returns →
      D.quotaManager.enforceRpm env.clock call.principal w.quota = (q, .ok ()) →
      CreateStep D env call w .enforceRpm { w with quota := q } .currentSpend
  | spendRaised : env.fault ≠ .returns →
      CreateStep D env call w .currentSpend w (.raised none .unavailable)
  | refused {err} : env.fault = .returns →
      admission D env.catalog call
        (D.quotaManager.currentDailySpend env.clock call.principal w.quota) = .error err →
      CreateStep D env call w .currentSpend w (.raised none err)
  | admitted {catalog policy} : env.fault = .returns →
      admission D env.catalog call
        (D.quotaManager.currentDailySpend env.clock call.principal w.quota)
          = .ok (catalog, policy) →
      CreateStep D env call w .currentSpend w (.ensureCatalog catalog policy)
  | catalogKept {catalog policy} : env.fault = .returns →
      CreateStep D env call w (.ensureCatalog catalog policy)
        { w with tables := ensureCatalogVersion catalog w.tables }
        (.ensurePolicies catalog policy)
  | metadataSkipped {catalog policy tables} : env.fault ≠ .returns →
      tables = w.tables ∨ tables = ensureCatalogVersion catalog w.tables →
      env.uuid ∉ w.issued →
      CreateStep D env call w (.ensureCatalog catalog policy)
        { w with tables, issued := env.uuid :: w.issued } (.reserve catalog policy env.uuid)
  | policiesKept {catalog policy tables} :
      tables = w.tables ∨ tables = ensurePolicies (D.policies.map (·.2)) w.tables →
      env.uuid ∉ w.issued →
      CreateStep D env call w (.ensurePolicies catalog policy)
        { w with tables, issued := env.uuid :: w.issued } (.reserve catalog policy env.uuid)
  | reserveRaised {catalog policy decisionId q} : env.fault ≠ .returns →
      q = w.quota ∨
        q = (D.quotaManager.reserveConcurrency call.principal decisionId w.quota).1 →
      CreateStep D env call w (.reserve catalog policy decisionId) { w with quota := q }
        (.raised (some decisionId) .unavailable)
  | reserveRefused {catalog policy decisionId q err} : env.fault = .returns →
      D.quotaManager.reserveConcurrency call.principal decisionId w.quota = (q, .error err) →
      CreateStep D env call w (.reserve catalog policy decisionId) { w with quota := q }
        (.raised (some decisionId) err)
  | reserved {catalog policy decisionId q} : env.fault = .returns →
      D.quotaManager.reserveConcurrency call.principal decisionId w.quota = (q, .ok ()) →
      CreateStep D env call w (.reserve catalog policy decisionId) { w with quota := q }
        (.getSignals catalog policy decisionId)
  | signalsRaised {catalog policy decisionId} : env.fault ≠ .returns →
      CreateStep D env call w (.getSignals catalog policy decisionId) w
        (.release decisionId .unavailable)
  | unroutable {catalog policy decisionId err} : env.fault = .returns →
      calculateRoutingDecision call.request catalog policy env.signals
        D.settings.signalFreshnessSeconds D.settings.decisionTtlSeconds env.runtime
          = .error err →
      CreateStep D env call w (.getSignals catalog policy decisionId) w (.release decisionId err)
  | priced {catalog policy decisionId response} : env.fault = .returns →
      calculateRoutingDecision call.request catalog policy env.signals
        D.settings.signalFreshnessSeconds D.settings.decisionTtlSeconds env.runtime
          = .ok response →
      CreateStep D env call w (.getSignals catalog policy decisionId) w
        (.storeDecision { response with decisionId })
  | storeRaised {response} : env.fault = .raises →
      CreateStep D env call w (.storeDecision response) w
        (.release response.decisionId .unavailable)
  | storeRejected {response err err'} : env.fault ≠ .raises →
      createDecision call.principal call.request response call.idempotencyKey w.tables
        = .error err →
      (env.fault = .returns → err' = err) →
      CreateStep D env call w (.storeDecision response) w (.release response.decisionId err')
  | storeLost {response tables} : env.fault = .raisesAfter →
      createDecision call.principal call.request response call.idempotencyKey w.tables
        = .ok tables →
      CreateStep D env call w (.storeDecision response) { w with tables }
        (.release response.decisionId .unavailable)
  | stored {response tables} : env.fault = .returns →
      createDecision call.principal call.request response call.idempotencyKey w.tables
        = .ok tables →
      CreateStep D env call w (.storeDecision response)
        { w with tables, metrics := w.metrics ++ decisionMetrics call.principal response }
        (.returned (some response.decisionId) response)
  | releaseRaised {decisionId err} {w'} : env.fault ≠ .returns →
      w' = w ∨ w' = w.releaseSlot D call.principal decisionId →
      CreateStep D env call w (.release decisionId err) w'
        (.raised (some decisionId) .unavailable)
  | released {decisionId err} : env.fault = .returns →
      CreateStep D env call w (.release decisionId err)
        (w.releaseSlot D call.principal decisionId) (.raised (some decisionId) err)

/-- What one await of a report does. -/
inductive OutcomeStep (D : Deps Q) (env : Env) (call : OutcomeCall) (w : World Q) :
    OutcomePc → World Q → OutcomePc → Prop
  | rpmRaised {q} : env.fault ≠ .returns →
      q = w.quota ∨ q = (D.quotaManager.enforceRpm env.clock call.principal w.quota).1 →
      OutcomeStep D env call w .enforceRpm { w with quota := q } (.raised .unavailable)
  | rpmRefused {q err} : env.fault = .returns →
      D.quotaManager.enforceRpm env.clock call.principal w.quota = (q, .error err) →
      OutcomeStep D env call w .enforceRpm { w with quota := q } (.raised err)
  | rpmPassed {q} : env.fault = .returns →
      D.quotaManager.enforceRpm env.clock call.principal w.quota = (q, .ok ()) →
      OutcomeStep D env call w .enforceRpm { w with quota := q } .getContext
  | contextRaised : env.fault ≠ .returns →
      OutcomeStep D env call w .getContext w (.raised .unavailable)
  | disowned {err} : env.fault = .returns →
      checkOwnership call (w.tables.getDecisionContext call.outcome.decisionId) = .error err →
      OutcomeStep D env call w .getContext w (.raised err)
  | owned {record} : env.fault = .returns →
      checkOwnership call (w.tables.getDecisionContext call.outcome.decisionId) = .ok record →
      OutcomeStep D env call w .getContext w (.storeOutcome record)
  | storeRaised {record} : env.fault = .raises →
      OutcomeStep D env call w (.storeOutcome record) w (.raised .unavailable)
  | storeRejected {record err err'} : env.fault ≠ .raises →
      recordOutcome record call.outcome call.idempotencyKey w.tables = .error err →
      (env.fault = .returns → err' = err) →
      OutcomeStep D env call w (.storeOutcome record) w (.raised err')
  | storeLost {record tables response} : env.fault = .raisesAfter →
      recordOutcome record call.outcome call.idempotencyKey w.tables = .ok (tables, response) →
      OutcomeStep D env call w (.storeOutcome record) { w with tables } (.raised .unavailable)
  | recorded {record tables response} : env.fault = .returns →
      recordOutcome record call.outcome call.idempotencyKey w.tables = .ok (tables, response) →
      response.outcomeStatus = .recorded →
      OutcomeStep D env call w (.storeOutcome record) { w with tables } (.release response)
  | duplicate {record tables response} : env.fault = .returns →
      recordOutcome record call.outcome call.idempotencyKey w.tables = .ok (tables, response) →
      response.outcomeStatus ≠ .recorded →
      OutcomeStep D env call w (.storeOutcome record) { w with tables } (.returned response)
  | releaseRaised {response} {w'} : env.fault ≠ .returns →
      w' = w ∨ w' = w.releaseSlot D call.principal call.outcome.decisionId →
      OutcomeStep D env call w (.release response) w' (.raised .unavailable)
  | released {response} : env.fault = .returns →
      OutcomeStep D env call w (.release response)
        (w.releaseSlot D call.principal call.outcome.decisionId) (.recordSpend response)
  | spendRaised {response} {w'} : env.fault ≠ .returns →
      w' = w ∨ w' = w.chargeSpend D env.clock call →
      OutcomeStep D env call w (.recordSpend response) w' (.raised .unavailable)
  | spent {response} : env.fault = .returns →
      OutcomeStep D env call w (.recordSpend response) (w.chargeSpend D env.clock call)
        (.publish response)
  | publishRaised {response events} : env.fault ≠ .returns →
      events = w.events ∨ events = w.events ++ [outcomeEvent call] →
      OutcomeStep D env call w (.publish response) { w with events } (.raised .unavailable)
  | published {response} : env.fault = .returns →
      OutcomeStep D env call w (.publish response)
        { w with
          events := w.events ++ [outcomeEvent call]
          metrics := w.metrics ++ outcomeMetrics call.principal call.outcome }
        (.returned response)

/-! ## The coroutines do nothing else -/

/-- A call that fails raises. -/
theorem awaited_of_fails {α : Type} {fault : Fault} {call : World Q × Except ServiceError α}
    (hf : fault ≠ .returns) : (awaited fault w call).2 = .error .unavailable := by
  cases fault with
  | returns => exact absurd rfl hf
  | raises => rfl
  | raisesAfter => rfl

/-- A call that returns answers. -/
theorem awaited_of_returns {α : Type} {fault : Fault} {call : World Q × Except ServiceError α}
    (hf : fault = .returns) : (awaited fault w call).2 = call.2 := by
  subst hf
  rfl

/-- An awaited call that raises: its own error, or a fault before or after
its effect. -/
theorem awaited_error {α : Type} {fault : Fault} {call : World Q × Except ServiceError α}
    {err : ServiceError} (h : awaited fault w call = (w', .error err)) :
    (fault = .returns ∧ call = (w', .error err))
      ∨ (fault ≠ .returns ∧ err = .unavailable
        ∧ ((fault = .raises ∧ w' = w) ∨ (fault = .raisesAfter ∧ w' = call.1))) := by
  cases fault
  · exact .inl ⟨rfl, h⟩
  · obtain ⟨rfl, herr⟩ := Prod.mk.inj h
    exact .inr ⟨by decide, (Except.error.inj herr).symm, .inl ⟨rfl, rfl⟩⟩
  · obtain ⟨rfl, herr⟩ := Prod.mk.inj h
    exact .inr ⟨by decide, (Except.error.inj herr).symm, .inr ⟨rfl, rfl⟩⟩

/-- An awaited call that returns. -/
theorem awaited_ok {α : Type} {fault : Fault} {call : World Q × Except ServiceError α} {a : α}
    (h : awaited fault w call = (w', .ok a)) : fault = .returns ∧ call = (w', .ok a) := by
  cases fault
  · exact ⟨rfl, h⟩
  · simp [awaited] at h
  · simp [awaited] at h

/-- A read that raises leaves the world as it was. -/
theorem awaited_read_error {α : Type} {fault : Fault} {a : α} {err : ServiceError}
    (h : awaited fault w (w, .ok a) = (w', .error err)) :
    fault ≠ .returns ∧ w' = w ∧ err = .unavailable := by
  rcases awaited_error h with ⟨-, hcall⟩ | ⟨hf, rfl, ⟨-, rfl⟩ | ⟨-, rfl⟩⟩
  · simp at hcall
  · exact ⟨hf, rfl, rfl⟩
  · exact ⟨hf, rfl, rfl⟩

/-- A read that answered has changed nothing. -/
theorem awaited_read_ok {α : Type} {fault : Fault} {a b : α}
    (h : awaited fault w (w, .ok a) = (w', .ok b)) : fault = .returns ∧ w' = w ∧ b = a := by
  obtain ⟨hf, hcall⟩ := awaited_ok h
  obtain ⟨rfl, hok⟩ := Prod.mk.inj hcall
  exact ⟨hf, rfl, (Except.ok.inj hok).symm⟩

/-- An effect that raises has been had or not. -/
theorem awaited_effect_error {fault : Fault} {w₁ : World Q} {err : ServiceError}
    (h : awaited fault w (w₁, .ok ()) = (w', .error err)) :
    fault ≠ .returns ∧ (w' = w ∨ w' = w₁) ∧ err = .unavailable := by
  rcases awaited_error h with ⟨-, hcall⟩ | ⟨hf, rfl, ⟨-, rfl⟩ | ⟨-, rfl⟩⟩
  · simp at hcall
  · exact ⟨hf, .inl rfl, rfl⟩
  · exact ⟨hf, .inr rfl, rfl⟩

/-- An effect that answered has been made. -/
theorem awaited_effect_ok {fault : Fault} {w₁ : World Q}
    (h : awaited fault w (w₁, .ok ()) = (w', .ok ())) : fault = .returns ∧ w' = w₁ := by
  obtain ⟨hf, hcall⟩ := awaited_ok h
  exact ⟨hf, (Prod.mk.inj hcall).1.symm⟩

/-- A quota call that raises has refused, or has failed before or after its
effect. -/
theorem awaited_quota_error {fault : Fault} {call : Q × Except ServiceError Unit}
    {err : ServiceError} (h : awaited fault w (w.withQuota call) = (w', .error err)) :
    ∃ q, w' = { w with quota := q }
      ∧ ((fault = .returns ∧ call = (q, .error err))
        ∨ (fault ≠ .returns ∧ (q = w.quota ∨ q = call.1) ∧ err = .unavailable)) := by
  rcases awaited_error h with ⟨hf, hcall⟩ | ⟨hf, rfl, ⟨-, rfl⟩ | ⟨-, rfl⟩⟩
  · obtain ⟨rfl, hres⟩ := Prod.mk.inj hcall
    exact ⟨call.1, rfl, .inl ⟨hf, Prod.ext rfl hres⟩⟩
  · exact ⟨w'.quota, rfl, .inr ⟨hf, .inl rfl, rfl⟩⟩
  · exact ⟨call.1, rfl, .inr ⟨hf, .inr rfl, rfl⟩⟩

/-- A quota that answered has let the call pass. -/
theorem awaited_quota_ok {fault : Fault} {call : Q × Except ServiceError Unit}
    (h : awaited fault w (w.withQuota call) = (w', .ok ())) :
    ∃ q, w' = { w with quota := q } ∧ fault = .returns ∧ call = (q, .ok ()) := by
  obtain ⟨hf, hcall⟩ := awaited_ok h
  obtain ⟨rfl, hres⟩ := Prod.mk.inj hcall
  exact ⟨call.1, rfl, hf, Prod.ext rfl hres⟩

/-- A drawn id is new, and issued from then on. -/
theorem drawDecisionId_some {uuid : String} {catalog : CatalogSnapshot} {policy : RoutingPolicy}
    {pc : CreatePc} (h : drawDecisionId uuid w catalog policy = some (w', pc)) :
    uuid ∉ w.issued ∧ w' = { w with issued := uuid :: w.issued }
      ∧ pc = .reserve catalog policy uuid := by
  unfold drawDecisionId at h
  split at h
  next => simp at h
  next hfresh =>
    obtain ⟨rfl, rfl⟩ := Prod.mk.inj (Option.some.inj h)
    exact ⟨hfresh, rfl, rfl⟩

/-- Every step of a `create_decision` call is a `CreateStep`. -/
theorem advanceCreate_step {call : CreateCall} {pc pc' : CreatePc}
    (h : advanceCreate D env w call pc = some (w', pc')) :
    CreateStep D env call w pc w' pc' := by
  cases pc with
  | lookup =>
    simp only [advanceCreate] at h
    split at h
    next haw =>
      obtain ⟨rfl, rfl⟩ := Prod.mk.inj (Option.some.inj h)
      obtain ⟨hf, rfl, rfl⟩ := awaited_read_error haw
      exact .lookupRaised hf
    next haw =>
      obtain ⟨rfl, rfl⟩ := Prod.mk.inj (Option.some.inj h)
      obtain ⟨hf, rfl, hget⟩ := awaited_read_ok haw
      exact .replayed hf hget.symm
    next haw =>
      obtain ⟨rfl, rfl⟩ := Prod.mk.inj (Option.some.inj h)
      obtain ⟨hf, rfl, hget⟩ := awaited_read_ok haw
      exact .missed hf hget.symm
  | enforceRpm =>
    simp only [advanceCreate] at h
    split at h
    next haw =>
      obtain ⟨rfl, rfl⟩ := Prod.mk.inj (Option.some.inj h)
      obtain ⟨q, rfl, ⟨hf, hrpm⟩ | ⟨hf, hq, rfl⟩⟩ := awaited_quota_error haw
      · exact .rpmRefused hf hrpm
      · exact .rpmRaised hf hq
    next haw =>
      obtain ⟨rfl, rfl⟩ := Prod.mk.inj (Option.some.inj h)
      obtain ⟨q, rfl, hf, hrpm⟩ := awaited_quota_ok haw
      exact .rpmPassed hf hrpm
  | currentSpend =>
    simp only [advanceCreate] at h
    split at h
    next haw =>
      obtain ⟨rfl, rfl⟩ := Prod.mk.inj (Option.some.inj h)
      obtain ⟨hf, rfl, rfl⟩ := awaited_read_error haw
      exact .spendRaised hf
    next haw =>
      obtain ⟨hf, rfl, rfl⟩ := awaited_read_ok haw
      split at h
      next herr =>
        obtain ⟨rfl, rfl⟩ := Prod.mk.inj (Option.some.inj h)
        exact .refused hf herr
      next hok =>
        obtain ⟨rfl, rfl⟩ := Prod.mk.inj (Option.some.inj h)
        exact .admitted hf hok
  | ensureCatalog catalog policy =>
    simp only [advanceCreate] at h
    split at h
    next haw =>
      obtain ⟨hfresh, rfl, rfl⟩ := drawDecisionId_some h
      obtain ⟨hf, rfl | rfl, -⟩ := awaited_effect_error haw
      · exact .metadataSkipped hf (.inl rfl) hfresh
      · exact .metadataSkipped hf (.inr rfl) hfresh
    next haw =>
      obtain ⟨rfl, rfl⟩ := Prod.mk.inj (Option.some.inj h)
      obtain ⟨hf, rfl⟩ := awaited_effect_ok haw
      exact .catalogKept hf
  | ensurePolicies catalog policy =>
    simp only [advanceCreate] at h
    -- Whether this write fails makes no difference to where the call goes.
    obtain ⟨hfresh, rfl, rfl⟩ := drawDecisionId_some h
    cases hf : env.fault <;> simp only [hf, awaited] at hfresh ⊢
    · exact .policiesKept (.inr rfl) hfresh
    · exact .policiesKept (.inl rfl) hfresh
    · exact .policiesKept (.inr rfl) hfresh
  | reserve catalog policy decisionId =>
    simp only [advanceCreate] at h
    split at h
    next haw =>
      obtain ⟨rfl, rfl⟩ := Prod.mk.inj (Option.some.inj h)
      obtain ⟨q, rfl, ⟨hf, hres⟩ | ⟨hf, hq, rfl⟩⟩ := awaited_quota_error haw
      · exact .reserveRefused hf hres
      · exact .reserveRaised hf hq
    next haw =>
      obtain ⟨rfl, rfl⟩ := Prod.mk.inj (Option.some.inj h)
      obtain ⟨q, rfl, hf, hres⟩ := awaited_quota_ok haw
      exact .reserved hf hres
  | getSignals catalog policy decisionId =>
    simp only [advanceCreate] at h
    split at h
    next haw =>
      obtain ⟨rfl, rfl⟩ := Prod.mk.inj (Option.some.inj h)
      obtain ⟨hf, rfl, rfl⟩ := awaited_read_error haw
      exact .signalsRaised hf
    next haw =>
      obtain ⟨hf, rfl, rfl⟩ := awaited_read_ok haw
      split at h
      next herr =>
        obtain ⟨rfl, rfl⟩ := Prod.mk.inj (Option.some.inj h)
        exact .unroutable hf herr
      next hok =>
        obtain ⟨rfl, rfl⟩ := Prod.mk.inj (Option.some.inj h)
        exact .priced hf hok
  | storeDecision response =>
    cases hins : createDecision call.principal call.request response call.idempotencyKey
        w.tables with
    | error err =>
      cases hf : env.fault <;>
        simp only [advanceCreate, World.insertDecision, hins, hf, awaited] at h <;>
        obtain ⟨rfl, rfl⟩ := Prod.mk.inj (Option.some.inj h)
      · exact .storeRejected (by simp [hf]) hins fun _ => rfl
      · exact .storeRaised hf
      · exact .storeRejected (by simp [hf]) hins (by simp [hf])
    | ok tables =>
      cases hf : env.fault <;>
        simp only [advanceCreate, World.insertDecision, hins, hf, awaited] at h <;>
        obtain ⟨rfl, rfl⟩ := Prod.mk.inj (Option.some.inj h)
      · exact .stored hf hins
      · exact .storeRaised hf
      · exact .storeLost hf hins
  | release decisionId err =>
    simp only [advanceCreate] at h
    split at h
    next haw =>
      obtain ⟨rfl, rfl⟩ := Prod.mk.inj (Option.some.inj h)
      obtain ⟨hf, hw, rfl⟩ := awaited_effect_error haw
      exact .releaseRaised hf hw
    next haw =>
      obtain ⟨rfl, rfl⟩ := Prod.mk.inj (Option.some.inj h)
      obtain ⟨hf, rfl⟩ := awaited_effect_ok haw
      exact .released hf
  | returned drawn response => simp [advanceCreate] at h
  | raised drawn err => simp [advanceCreate] at h

/-- Every step of a `record_outcome` call is an `OutcomeStep`. -/
theorem advanceOutcome_step {call : OutcomeCall} {pc pc' : OutcomePc}
    (h : advanceOutcome D env w call pc = some (w', pc')) :
    OutcomeStep D env call w pc w' pc' := by
  cases pc with
  | enforceRpm =>
    simp only [advanceOutcome] at h
    split at h
    next haw =>
      obtain ⟨rfl, rfl⟩ := Prod.mk.inj (Option.some.inj h)
      obtain ⟨q, rfl, ⟨hf, hrpm⟩ | ⟨hf, hq, rfl⟩⟩ := awaited_quota_error haw
      · exact .rpmRefused hf hrpm
      · exact .rpmRaised hf hq
    next haw =>
      obtain ⟨rfl, rfl⟩ := Prod.mk.inj (Option.some.inj h)
      obtain ⟨q, rfl, hf, hrpm⟩ := awaited_quota_ok haw
      exact .rpmPassed hf hrpm
  | getContext =>
    simp only [advanceOutcome] at h
    split at h
    next haw =>
      obtain ⟨rfl, rfl⟩ := Prod.mk.inj (Option.some.inj h)
      obtain ⟨hf, rfl, rfl⟩ := awaited_read_error haw
      exact .contextRaised hf
    next haw =>
      obtain ⟨hf, rfl, rfl⟩ := awaited_read_ok haw
      split at h
      next herr =>
        obtain ⟨rfl, rfl⟩ := Prod.mk.inj (Option.some.inj h)
        exact .disowned hf herr
      next hok =>
        obtain ⟨rfl, rfl⟩ := Prod.mk.inj (Option.some.inj h)
        exact .owned hf hok
  | storeOutcome record =>
    cases hrec : recordOutcome record call.outcome call.idempotencyKey w.tables with
    | error err =>
      cases hf : env.fault <;>
        simp only [advanceOutcome, World.insertOutcome, hrec, hf, awaited] at h <;>
        obtain ⟨rfl, rfl⟩ := Prod.mk.inj (Option.some.inj h)
      · exact .storeRejected (by simp [hf]) hrec fun _ => rfl
      · exact .storeRaised hf
      · exact .storeRejected (by simp [hf]) hrec (by simp [hf])
    | ok result =>
      obtain ⟨tables, response⟩ := result
      cases hf : env.fault <;>
        simp only [advanceOutcome, World.insertOutcome, hrec, hf, awaited] at h
      · split at h
        next hstatus =>
          obtain ⟨rfl, rfl⟩ := Prod.mk.inj (Option.some.inj h)
          exact .recorded hf hrec hstatus
        next hstatus =>
          obtain ⟨rfl, rfl⟩ := Prod.mk.inj (Option.some.inj h)
          exact .duplicate hf hrec hstatus
      · obtain ⟨rfl, rfl⟩ := Prod.mk.inj (Option.some.inj h)
        exact .storeRaised hf
      · obtain ⟨rfl, rfl⟩ := Prod.mk.inj (Option.some.inj h)
        exact .storeLost hf hrec
  | release response =>
    simp only [advanceOutcome] at h
    split at h
    next haw =>
      obtain ⟨rfl, rfl⟩ := Prod.mk.inj (Option.some.inj h)
      obtain ⟨hf, hw, rfl⟩ := awaited_effect_error haw
      exact .releaseRaised hf hw
    next haw =>
      obtain ⟨rfl, rfl⟩ := Prod.mk.inj (Option.some.inj h)
      obtain ⟨hf, rfl⟩ := awaited_effect_ok haw
      exact .released hf
  | recordSpend response =>
    simp only [advanceOutcome] at h
    split at h
    next haw =>
      obtain ⟨rfl, rfl⟩ := Prod.mk.inj (Option.some.inj h)
      obtain ⟨hf, hw, rfl⟩ := awaited_effect_error haw
      exact .spendRaised hf hw
    next haw =>
      obtain ⟨rfl, rfl⟩ := Prod.mk.inj (Option.some.inj h)
      obtain ⟨hf, rfl⟩ := awaited_effect_ok haw
      exact .spent hf
  | publish response =>
    simp only [advanceOutcome] at h
    split at h
    next haw =>
      obtain ⟨rfl, rfl⟩ := Prod.mk.inj (Option.some.inj h)
      obtain ⟨hf, rfl | rfl, rfl⟩ := awaited_effect_error haw
      · exact .publishRaised hf (.inl rfl)
      · exact .publishRaised hf (.inr rfl)
    next haw =>
      obtain ⟨rfl, rfl⟩ := Prod.mk.inj (Option.some.inj h)
      obtain ⟨hf, rfl⟩ := awaited_effect_ok haw
      exact .published hf
  | returned response => simp [advanceOutcome] at h
  | raised err => simp [advanceOutcome] at h

end ControlPlane
