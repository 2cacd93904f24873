import ControlPlane.Ledger
import ControlPlane.Lib.Simulation
import ControlPlane.RedisCreation
import ControlPlane.RedisRefinement

/-!
# The service over Redis follows the service in memory

`build_redis_runtime` and `build_in_memory_runtime` put the same service over
two quota managers. Here are runs of the first in which each quota call is one
step, any number of calls interleaved: each is, action by action, a run of the
second with the same tasks, rows, events and metrics (`redisPlane_lockstep`).

It takes what the manager alone takes: agent ids without a separator, and no
slot set past its deadline when it is asked.

Mirroring notes:
- A quota call executes at one instant, between two other steps. Its commands
  one by one are in `RedisCommands`, and when they make up such a step in
  `RedisTogether`.
- The service's other awaits are those of `advanceCreate` and
  `advanceOutcome`, which do not ask the quota manager of `D`.
- The in-memory service reads its clock when the Redis one's call executes.
-/

namespace ControlPlane

open Lib

variable {Q : Type}

/-- What a step reads from outside, and when its quota call executes. -/
structure RedisEnv where
  env : Env
  now : ℚ

/-- What the calls share, with the quotas in Redis. -/
structure RedisWorld (Q : Type) where
  world : World Q
  redis : Redis

/-! ## The coroutines over Redis -/

/-- What comes of an awaited call on a state that only such calls change. -/
def faulted {S α : Type} (fault : Fault) (s : S) (call : S × Except ServiceError α) :
    S × Except ServiceError α :=
  match fault with
  | .returns => call
  | .raises => (s, .error .unavailable)
  | .raisesAfter => (call.1, .error .unavailable)

section Coroutines

variable (D : RedisDeps Q) (calendar : Calendar) (e : RedisEnv)

/-- An awaited call of the quota manager. -/
def RedisWorld.quotaCall (s : RedisWorld Q) (principal : AgentPrincipal) (op : QuotaOp) :
    RedisWorld Q × Reply :=
  let called := faulted e.env.fault s.redis
    (RedisQuota.serve D.validSettings calendar s.redis ⟨e.now, principal, op⟩)
  ({ s with redis := called.1 }, called.2)

/-- One await of a creation. -/
def advanceCreateOverRedis (s : RedisWorld Q) (call : CreateCall) :
    CreatePc → Option (RedisWorld Q × CreatePc)
  | .enforceRpm =>
    let called := s.quotaCall D calendar e call.principal .enforceRpm
    some (called.1, match called.2 with
      | .error err => .raised none err
      | .ok _ => .currentSpend)
  | .currentSpend =>
    let called := s.quotaCall D calendar e call.principal .currentDailySpend
    some (called.1, match called.2 with
      | .error err => .raised none err
      | .ok currentSpend =>
        match admission D.toDeps e.env.catalog call (currentSpend.getD 0) with
        | .error err => .raised none err
        | .ok (catalog, policy) => .ensureCatalog catalog policy)
  | .reserve catalog policy decisionId =>
    let called := s.quotaCall D calendar e call.principal (.reserveConcurrency decisionId)
    some (called.1, match called.2 with
      | .error err => .raised (some decisionId) err
      | .ok _ => .getSignals catalog policy decisionId)
  | .release decisionId err =>
    let called := s.quotaCall D calendar e call.principal (.releaseConcurrency decisionId)
    some (called.1, match called.2 with
      | .error err' => .raised (some decisionId) err'
      | .ok _ => .raised (some decisionId) err)
  | pc => (advanceCreate D.toDeps e.env s.world call pc).map fun next =>
      ({ s with world := next.1 }, next.2)

/-- One await of a report. -/
def advanceOutcomeOverRedis (s : RedisWorld Q) (call : OutcomeCall) :
    OutcomePc → Option (RedisWorld Q × OutcomePc)
  | .enforceRpm =>
    let called := s.quotaCall D calendar e call.principal .enforceRpm
    some (called.1, match called.2 with
      | .error err => .raised err
      | .ok _ => .getContext)
  | .release response =>
    let called := s.quotaCall D calendar e call.principal
      (.releaseConcurrency call.outcome.decisionId)
    some (called.1, match called.2 with
      | .error err => .raised err
      | .ok _ => .recordSpend response)
  | .recordSpend response =>
    let called := s.quotaCall D calendar e call.principal (.recordSpend call.outcome.finalCostUsd)
    some (called.1, match called.2 with
      | .error err => .raised err
      | .ok _ => .publish response)
  | pc => (advanceOutcome D.toDeps e.env s.world call pc).map fun next =>
      ({ s with world := next.1 }, next.2)

end Coroutines

/-- The control plane with its quotas in Redis. -/
def redisPlane (D : RedisDeps Q) (calendar : Calendar) : System (RedisWorld Q) Task RedisEnv where
  advance e s
    | .create call pc =>
      (advanceCreateOverRedis D calendar e s call pc).map fun r => (r.1, .create call r.2)
    | .outcome call pc =>
      (advanceOutcomeOverRedis D calendar e s call pc).map fun r => (r.1, .outcome call r.2)

/-- Calls that have just been made, of permitted callers, and permitted steps. -/
def PermitsCalls {W E : Type} (permits : W → Task → E → Prop) (caller : AgentPrincipal → Prop)
    (c : Conf W Task) : Act Task E → Prop
  | .start t => t.Started ∧ caller t.principal
  | .run i e => ∀ t, c.tasks[i]? = some t → permits c.world t e

/-- A step over Redis in which no slot set is asked past its deadline. -/
def RedisStepPermitted (fault : Await → Fault → Prop) (s : RedisWorld Q) (t : Task)
    (e : RedisEnv) : Prop :=
  0 ≤ e.now ∧ ∀ a, t.await = some a → fault a e.env.fault
    ∧ (a = .reserveConcurrency ∨ a = .releaseConcurrency → SlotsLive s.redis e.now)

/-- Runs over Redis within a scenario. -/
abbrev RedisRun (D : RedisDeps Q) (calendar : Calendar) (sc : Scenario) :
    Conf (RedisWorld Q) Task → List (Act Task RedisEnv) → Conf (RedisWorld Q) Task → Prop :=
  (redisPlane D calendar).Run (PermitsCalls (RedisStepPermitted sc.fault) sc.caller)

/-! ## The other side -/

/-- The step in memory: its clock is read when the quota call executes. -/
def RedisEnv.inMemory (calendar : Calendar) (e : RedisEnv) : Env :=
  { e.env with clock := calendar.clock e.now }

/-- The service in memory, with the settings and policies of the one over Redis. -/
def RedisDeps.inMemory (D : RedisDeps Q) : Deps InMemoryQuota :=
  buildInMemoryRuntime D.policies D.settings

/-- Everything but the quotas is the same, and the quotas mirror each other. -/
structure Follows (calendar : Calendar) (s : RedisWorld Q) (w : World InMemoryQuota) : Prop where
  tables : w.tables = s.world.tables
  events : w.events = s.world.events
  metrics : w.metrics = s.world.metrics
  issued : w.issued = s.world.issued
  mirrors : Mirrors calendar w.quota s.redis

/-- The same world over other quotas. -/
def World.overQuota {Q' : Type} (w : World Q) (q : Q') : World Q' :=
  { tables := w.tables, quota := q, events := w.events, metrics := w.metrics, issued := w.issued }

section Step

variable {D : RedisDeps Q} {calendar : Calendar} {e : RedisEnv} {s s' : RedisWorld Q}
  {w : World InMemoryQuota} {principal : AgentPrincipal}

/-- The two worlds differ in the quota alone. -/
theorem Follows.eq (h : Follows calendar s w) : w = s.world.overQuota w.quota := by
  obtain ⟨tables, quota, events, metrics, issued⟩ := w
  obtain ⟨rfl, rfl, rfl, rfl, -⟩ := h
  rfl

/-- A quota that mirrors makes a world that follows. -/
theorem Mirrors.follows {q : InMemoryQuota} (h : Mirrors calendar q s.redis) :
    Follows calendar s (s.world.overQuota q) :=
  ⟨rfl, rfl, rfl, rfl, h⟩

/-- A failing call of the manager. -/
theorem awaited_withQuota (fault : Fault) (w : World Q) (call : Q × Except ServiceError Unit) :
    awaited fault w (w.withQuota call)
      = ({ w with quota := (faulted fault w.quota call).1 }, (faulted fault w.quota call).2) := by
  cases fault <;> rfl

/-- What comes of a call on both sides of `Mirrors`. -/
theorem Mirrors.faulted {q q' : InMemoryQuota} {r r' : Redis}
    {reply : Except ServiceError Unit} {reply' : Reply} (h : Mirrors calendar q r)
    (hcall : reply.map (fun _ => none) = reply' ∧ Mirrors calendar q' r') (fault : Fault) :
    (faulted fault q (q', reply)).2.map (fun _ => none) = (faulted fault r (r', reply')).2
      ∧ Mirrors calendar (faulted fault q (q', reply)).1 (faulted fault r (r', reply')).1 := by
  cases fault with
  | returns => exact hcall
  | raises => exact ⟨rfl, h⟩
  | raisesAfter => exact ⟨rfl, hcall.2⟩

/-- An awaited quota call on both sides: one reply, and the worlds stay in step. -/
theorem Follows.quotaCall {op : QuotaOp} (h : Follows calendar s w)
    (call : InMemoryQuota × Except ServiceError Unit)
    (hcall : call.2.map (fun _ => none)
        = (RedisQuota.serve D.validSettings calendar s.redis ⟨e.now, principal, op⟩).2
      ∧ Mirrors calendar call.1
        (RedisQuota.serve D.validSettings calendar s.redis ⟨e.now, principal, op⟩).1) :
    ∃ w' reply, awaited e.env.fault w (w.withQuota call) = (w', reply)
      ∧ (s.quotaCall D calendar e principal op).2 = reply.map (fun _ => none)
      ∧ Follows calendar (s.quotaCall D calendar e principal op).1 w' := by
  obtain ⟨hreply, hmirrors⟩ := h.mirrors.faulted hcall e.env.fault
  exact ⟨_, _, awaited_withQuota _ _ _, hreply.symm,
    ⟨h.tables, h.events, h.metrics, h.issued, hmirrors⟩⟩

/-- `enforce_rpm`, followed. -/
theorem Follows.enforceRpm (h : Follows calendar s w) (hid : ':' ∉ principal.agentId.toList)
    (hnow : 0 ≤ e.now) :
    ∃ w' reply, awaited (e.inMemory calendar).fault w (w.withQuota
        (D.inMemory.quotaManager.enforceRpm (e.inMemory calendar).clock principal w.quota))
          = (w', reply)
      ∧ (s.quotaCall D calendar e principal .enforceRpm).2 = reply.map (fun _ => none)
      ∧ Follows calendar (s.quotaCall D calendar e principal .enforceRpm).1 w' := by
  obtain ⟨hreply, hnext⟩ := h.mirrors.enforceRpm hid hnow
  exact h.quotaCall _ ⟨congrArg _ hreply, hnext⟩

/-- `reserve_concurrency`, followed. -/
theorem Follows.reserve (h : Follows calendar s w) (hid : ':' ∉ principal.agentId.toList)
    (hlive : SlotsLive s.redis e.now) (decisionId : String) :
    ∃ w' reply, awaited (e.inMemory calendar).fault w (w.withQuota
        (D.inMemory.quotaManager.reserveConcurrency principal decisionId w.quota)) = (w', reply)
      ∧ (s.quotaCall D calendar e principal (.reserveConcurrency decisionId)).2
        = reply.map (fun _ => none)
      ∧ Follows calendar (s.quotaCall D calendar e principal (.reserveConcurrency decisionId)).1
        w' := by
  obtain ⟨hreply, hnext⟩ := @Mirrors.reserveConcurrency D.validSettings calendar w.quota s.redis
    e.now principal h.mirrors hid hlive decisionId
  exact h.quotaCall _ ⟨congrArg _ hreply, hnext⟩

/-- `release_concurrency`, followed. -/
theorem Follows.release (h : Follows calendar s w) (hid : ':' ∉ principal.agentId.toList)
    (hlive : SlotsLive s.redis e.now) (decisionId : String) :
    ∃ w' reply, awaited (e.inMemory calendar).fault w
        (w.releaseSlot D.inMemory principal decisionId, .ok ()) = (w', reply)
      ∧ (s.quotaCall D calendar e principal (.releaseConcurrency decisionId)).2
        = reply.map (fun _ => none)
      ∧ Follows calendar (s.quotaCall D calendar e principal (.releaseConcurrency decisionId)).1
        w' :=
  h.quotaCall (InMemoryQuota.releaseConcurrency principal decisionId w.quota, .ok ())
    ⟨rfl, h.mirrors.releaseConcurrency hid hlive decisionId⟩

/-- `record_spend`, followed. -/
theorem Follows.recordSpend (h : Follows calendar s w) {call : OutcomeCall}
    (hid : ':' ∉ call.principal.agentId.toList) :
    ∃ w' reply, awaited (e.inMemory calendar).fault w
        (w.chargeSpend D.inMemory (e.inMemory calendar).clock call, .ok ()) = (w', reply)
      ∧ (s.quotaCall D calendar e call.principal (.recordSpend call.outcome.finalCostUsd)).2
        = reply.map (fun _ => none)
      ∧ Follows calendar
        (s.quotaCall D calendar e call.principal (.recordSpend call.outcome.finalCostUsd)).1 w' :=
  h.quotaCall (InMemoryQuota.recordSpend (calendar.clock e.now) call.principal
    call.outcome.finalCostUsd w.quota, .ok ()) ⟨rfl, h.mirrors.recordSpend hid _⟩

/-- The spend is read, and nothing changes. -/
theorem Follows.currentDailySpend (h : Follows calendar s w)
    (hid : ':' ∉ principal.agentId.toList) :
    ∃ reply, awaited (e.inMemory calendar).fault w (w, .ok
        (D.inMemory.quotaManager.currentDailySpend (e.inMemory calendar).clock principal w.quota))
          = (w, reply)
      ∧ s.quotaCall D calendar e principal .currentDailySpend = (s, reply.map some) := by
  have hspend := @Mirrors.spend calendar w.quota s.redis e.now principal h.mirrors hid
  unfold RedisWorld.quotaCall RedisEnv.inMemory
  cases e.env.fault with
  | returns =>
    refine ⟨_, rfl, ?_⟩
    show _ = (s, Except.ok (some (w.quota.dailyBudget
      (principal.environment, principal.agentId, calendar.isoformat e.now))))
    rw [← hspend]
    rfl
  | raises => exact ⟨_, rfl, rfl⟩
  | raisesAfter => exact ⟨_, rfl, rfl⟩

end Step

/-! ## The service's own awaits -/

section OwnAwaits

variable {Q' : Type} {D : Deps Q} {D' : Deps Q'} {env : Env} {clock : Clock}

/-- An await does not look at the quota. -/
theorem awaited_overQuota {α : Type} (fault : Fault) (w w₁ : World Q) (q : Q')
    (reply : Except ServiceError α) :
    awaited fault (w.overQuota q) (w₁.overQuota q, reply)
      = ((awaited fault w (w₁, reply)).1.overQuota q, (awaited fault w (w₁, reply)).2) := by
  cases fault <;> rfl

/-- An await that is not the quota manager's. -/
def Await.Own (a : Await) : Prop :=
  a ≠ .enforceRpm ∧ a ≠ .currentDailySpend ∧ a ≠ .reserveConcurrency ∧ a ≠ .releaseConcurrency
    ∧ a ≠ .recordSpend

instance (a : Await) : Decidable a.Own :=
  inferInstanceAs (Decidable (_ ∧ _))

/-- The code behind the service's own awaits does not look at the quotas. -/
theorem advanceCreate_overQuota (hpolicies : D'.policies = D.policies)
    (hsettings : D'.settings = D.settings) (w : World Q) (q : Q') (call : CreateCall)
    {pc : CreatePc} (hown : ∀ a, (Task.create call pc).await = some a → a.Own) :
    advanceCreate D' { env with clock } (w.overQuota q) call pc
      = (advanceCreate D env w call pc).map fun next => (next.1.overQuota q, next.2) := by
  have hdraw : ∀ (w : World Q) catalog policy,
      drawDecisionId env.uuid (w.overQuota q) catalog policy
        = (drawDecisionId env.uuid w catalog policy).map fun next =>
          (next.1.overQuota q, next.2) := by
    intro w catalog policy
    unfold drawDecisionId
    by_cases hissued : env.uuid ∈ w.issued
    · rw [if_pos hissued, if_pos (show env.uuid ∈ (w.overQuota q).issued from hissued)]
      rfl
    · rw [if_neg hissued, if_neg (show env.uuid ∉ (w.overQuota q).issued from hissued)]
      rfl
  cases pc with
  | lookup =>
    simp only [advanceCreate]
    rw [show (w.overQuota q).tables = w.tables from rfl, awaited_overQuota]
    rcases awaited env.fault w (w, _) with ⟨w₁, err | (_ | existing)⟩
    · rfl
    · rfl
    · rfl
  | ensureCatalog catalog policy =>
    simp only [advanceCreate]
    have haw : awaited env.fault (w.overQuota q)
        ({ w.overQuota q with tables := ensureCatalogVersion catalog (w.overQuota q).tables },
          .ok ()) = _ :=
      awaited_overQuota env.fault w
        { w with tables := ensureCatalogVersion catalog w.tables } q (.ok ())
    rw [haw]
    rcases awaited env.fault w
      ({ w with tables := ensureCatalogVersion catalog w.tables }, .ok ()) with ⟨w₁, err | _⟩
    · exact hdraw w₁ catalog policy
    · rfl
  | ensurePolicies catalog policy =>
    simp only [advanceCreate]
    have haw : awaited env.fault (w.overQuota q)
        ({ w.overQuota q with
            tables := ensurePolicies (D.policies.map (·.2)) (w.overQuota q).tables }, .ok ()) = _ :=
      awaited_overQuota env.fault w
        { w with tables := ensurePolicies (D.policies.map (·.2)) w.tables } q (.ok ())
    rw [hpolicies, haw]
    exact hdraw _ catalog policy
  | getSignals catalog policy decisionId =>
    simp only [advanceCreate]
    rw [awaited_overQuota, hsettings]
    rcases awaited env.fault w (w, .ok env.signals) with ⟨w₁, err | signals⟩
    · rfl
    · dsimp only
      cases calculateRoutingDecision call.request catalog policy signals
        D.settings.signalFreshnessSeconds D.settings.decisionTtlSeconds env.runtime with
      | error err => rfl
      | ok response => rfl
  | storeDecision response =>
    simp only [advanceCreate]
    have hinsert : (w.overQuota q).insertDecision call response
        = ((w.insertDecision call response).1.overQuota q, (w.insertDecision call response).2) := by
      unfold World.insertDecision
      rw [show (w.overQuota q).tables = w.tables from rfl]
      cases createDecision call.principal call.request response call.idempotencyKey w.tables with
      | error err => rfl
      | ok tables => rfl
    rw [hinsert, awaited_overQuota]
    rcases awaited env.fault w (w.insertDecision call response) with ⟨w₁, err | _⟩
    · rfl
    · rfl
  | returned drawn response => rfl
  | raised drawn err => rfl
  | enforceRpm => exact absurd (hown _ rfl) (by decide)
  | currentSpend => exact absurd (hown _ rfl) (by decide)
  | reserve catalog policy decisionId => exact absurd (hown _ rfl) (by decide)
  | release decisionId err => exact absurd (hown _ rfl) (by decide)

/-- Nor does an await of a report's own. -/
theorem advanceOutcome_overQuota (D : Deps Q) (D' : Deps Q') (w : World Q) (q : Q')
    (call : OutcomeCall) {pc : OutcomePc}
    (hown : ∀ a, (Task.outcome call pc).await = some a → a.Own) :
    advanceOutcome D' { env with clock } (w.overQuota q) call pc
      = (advanceOutcome D env w call pc).map fun next => (next.1.overQuota q, next.2) := by
  cases pc with
  | getContext =>
    simp only [advanceOutcome]
    rw [show (w.overQuota q).tables = w.tables from rfl, awaited_overQuota]
    rcases awaited env.fault w (w, _) with ⟨w₁, err | context⟩
    · rfl
    · dsimp only
      cases checkOwnership call context with
      | error err => rfl
      | ok record => rfl
  | storeOutcome record =>
    simp only [advanceOutcome]
    have hinsert : (w.overQuota q).insertOutcome call record
        = ((w.insertOutcome call record).1.overQuota q, (w.insertOutcome call record).2) := by
      unfold World.insertOutcome
      rw [show (w.overQuota q).tables = w.tables from rfl]
      rcases recordOutcome record call.outcome call.idempotencyKey w.tables with
        err | ⟨tables, response⟩
      · rfl
      · rfl
    rw [hinsert, awaited_overQuota]
    rcases awaited env.fault w (w.insertOutcome call record) with ⟨w₁, err | response⟩
    · rfl
    · dsimp only
      split
      next => rfl
      next => rfl
  | publish response =>
    simp only [advanceOutcome]
    have haw : awaited env.fault (w.overQuota q)
        ({ w.overQuota q with events := (w.overQuota q).events ++ [outcomeEvent call] }, .ok ())
          = _ :=
      awaited_overQuota env.fault w
        { w with events := w.events ++ [outcomeEvent call] } q (.ok ())
    rw [haw]
    rcases awaited env.fault w
      ({ w with events := w.events ++ [outcomeEvent call] }, .ok ()) with ⟨w₁, err | _⟩
    · rfl
    · rfl
  | returned response => rfl
  | raised err => rfl
  | enforceRpm => exact absurd (hown _ rfl) (by decide)
  | release response => exact absurd (hown _ rfl) (by decide)
  | recordSpend response => exact absurd (hown _ rfl) (by decide)

end OwnAwaits

/-! ## A step on both sides -/

section Step

variable {D : RedisDeps Q} {calendar : Calendar} {e : RedisEnv} {s s' : RedisWorld Q}
  {w : World InMemoryQuota}

/-- A step of `create_decision` at an await of the service's own. -/
theorem Follows.createOwn {pc pc' : CreatePc} {call : CreateCall} (h : Follows calendar s w)
    (hown : ∀ a, (Task.create call pc).await = some a → a.Own)
    (hadv : (advanceCreate D.toDeps e.env s.world call pc).map (fun next =>
      ({ s with world := next.1 }, next.2)) = some (s', pc')) :
    ∃ w', advanceCreate D.inMemory (e.inMemory calendar) w call pc = some (w', pc')
      ∧ Follows calendar s' w' := by
  obtain ⟨⟨world, _⟩, hnext, heq⟩ := Option.map_eq_some_iff.mp hadv
  obtain ⟨rfl, rfl⟩ := Prod.mk.inj heq
  have hpolicies : D.inMemory.policies = D.policies := rfl
  have hmemory : advanceCreate D.inMemory (e.inMemory calendar) (s.world.overQuota w.quota) call pc
      = _ := advanceCreate_overQuota hpolicies rfl s.world w.quota call hown
  rw [hnext, ← h.eq] at hmemory
  exact ⟨_, hmemory, Mirrors.follows (s := ⟨world, s.redis⟩) h.mirrors⟩

/-- **A creation's step is followed.** -/
theorem advanceCreateOverRedis_follows {call : CreateCall} {pc pc' : CreatePc}
    (h : Follows calendar s w) (hid : ':' ∉ call.principal.agentId.toList) (hnow : 0 ≤ e.now)
    (hlive : ∀ a, (Task.create call pc).await = some a →
      a = .reserveConcurrency ∨ a = .releaseConcurrency → SlotsLive s.redis e.now)
    (hadv : advanceCreateOverRedis D calendar e s call pc = some (s', pc')) :
    ∃ w', advanceCreate D.inMemory (e.inMemory calendar) w call pc = some (w', pc')
      ∧ Follows calendar s' w' := by
  cases pc with
  | enforceRpm =>
    obtain ⟨w', reply, haw, hreply, hnext⟩ := h.enforceRpm (D := D) hid hnow
    obtain ⟨rfl, rfl⟩ := Prod.mk.inj (Option.some.inj hadv)
    refine ⟨w', ?_, hnext⟩
    simp only [advanceCreate]
    rw [hreply, haw]
    cases reply with
    | error err => rfl
    | ok _ => rfl
  | currentSpend =>
    obtain ⟨reply, haw, hcalled⟩ := h.currentDailySpend (D := D) hid
    simp only [advanceCreateOverRedis] at hadv
    rw [hcalled] at hadv
    obtain ⟨rfl, rfl⟩ := Prod.mk.inj (Option.some.inj hadv)
    refine ⟨w, ?_, h⟩
    simp only [advanceCreate]
    rw [haw]
    cases reply with
    | error err => rfl
    | ok currentSpend =>
      show (match admission D.toDeps e.env.catalog call currentSpend with
        | .error err => _
        | .ok (catalog, policy) => _) = some (w, match admission D.toDeps e.env.catalog call
          currentSpend with
        | .error err => _
        | .ok (catalog, policy) => _)
      rcases admission D.toDeps e.env.catalog call currentSpend with err | ⟨catalog, policy⟩
      · rfl
      · rfl
  | reserve catalog policy decisionId =>
    obtain ⟨w', reply, haw, hreply, hnext⟩ := h.reserve (D := D) hid (hlive _ rfl (.inl rfl))
      decisionId
    obtain ⟨rfl, rfl⟩ := Prod.mk.inj (Option.some.inj hadv)
    refine ⟨w', ?_, hnext⟩
    simp only [advanceCreate]
    rw [hreply, haw]
    cases reply with
    | error err => rfl
    | ok _ => rfl
  | release decisionId err =>
    obtain ⟨w', reply, haw, hreply, hnext⟩ := h.release (D := D) hid (hlive _ rfl (.inr rfl))
      decisionId
    obtain ⟨rfl, rfl⟩ := Prod.mk.inj (Option.some.inj hadv)
    refine ⟨w', ?_, hnext⟩
    simp only [advanceCreate]
    rw [hreply, haw]
    cases reply with
    | error err' => rfl
    | ok _ => rfl
  | lookup => exact h.createOwn (by rintro _ ⟨⟩; decide) hadv
  | ensureCatalog catalog policy => exact h.createOwn (by rintro _ ⟨⟩; decide) hadv
  | ensurePolicies catalog policy => exact h.createOwn (by rintro _ ⟨⟩; decide) hadv
  | getSignals catalog policy decisionId => exact h.createOwn (by rintro _ ⟨⟩; decide) hadv
  | storeDecision response => exact h.createOwn (by rintro _ ⟨⟩; decide) hadv
  | returned drawn response => cases hadv
  | raised drawn err => cases hadv

/-- A step of `record_outcome` at an await of the service's own. -/
theorem Follows.outcomeOwn {pc pc' : OutcomePc} {call : OutcomeCall} (h : Follows calendar s w)
    (hown : ∀ a, (Task.outcome call pc).await = some a → a.Own)
    (hadv : (advanceOutcome D.toDeps e.env s.world call pc).map (fun next =>
      ({ s with world := next.1 }, next.2)) = some (s', pc')) :
    ∃ w', advanceOutcome D.inMemory (e.inMemory calendar) w call pc = some (w', pc')
      ∧ Follows calendar s' w' := by
  obtain ⟨⟨world, _⟩, hnext, heq⟩ := Option.map_eq_some_iff.mp hadv
  obtain ⟨rfl, rfl⟩ := Prod.mk.inj heq
  have hmemory : advanceOutcome D.inMemory (e.inMemory calendar) (s.world.overQuota w.quota) call
      pc = _ := advanceOutcome_overQuota D.toDeps D.inMemory s.world w.quota call hown
  rw [hnext, ← h.eq] at hmemory
  exact ⟨_, hmemory, Mirrors.follows (s := ⟨world, s.redis⟩) h.mirrors⟩

/-- **A report's step is followed.** -/
theorem advanceOutcomeOverRedis_follows {call : OutcomeCall} {pc pc' : OutcomePc}
    (h : Follows calendar s w) (hid : ':' ∉ call.principal.agentId.toList) (hnow : 0 ≤ e.now)
    (hlive : ∀ a, (Task.outcome call pc).await = some a →
      a = .reserveConcurrency ∨ a = .releaseConcurrency → SlotsLive s.redis e.now)
    (hadv : advanceOutcomeOverRedis D calendar e s call pc = some (s', pc')) :
    ∃ w', advanceOutcome D.inMemory (e.inMemory calendar) w call pc = some (w', pc')
      ∧ Follows calendar s' w' := by
  cases pc with
  | enforceRpm =>
    obtain ⟨w', reply, haw, hreply, hnext⟩ := h.enforceRpm (D := D) hid hnow
    obtain ⟨rfl, rfl⟩ := Prod.mk.inj (Option.some.inj hadv)
    refine ⟨w', ?_, hnext⟩
    simp only [advanceOutcome]
    rw [hreply, haw]
    cases reply with
    | error err => rfl
    | ok _ => rfl
  | release response =>
    obtain ⟨w', reply, haw, hreply, hnext⟩ := h.release (D := D) hid (hlive _ rfl (.inr rfl))
      call.outcome.decisionId
    obtain ⟨rfl, rfl⟩ := Prod.mk.inj (Option.some.inj hadv)
    refine ⟨w', ?_, hnext⟩
    simp only [advanceOutcome]
    rw [hreply, haw]
    cases reply with
    | error err => rfl
    | ok _ => rfl
  | recordSpend response =>
    obtain ⟨w', reply, haw, hreply, hnext⟩ := h.recordSpend (D := D) (e := e) hid
    obtain ⟨rfl, rfl⟩ := Prod.mk.inj (Option.some.inj hadv)
    refine ⟨w', ?_, hnext⟩
    simp only [advanceOutcome]
    rw [hreply, haw]
    cases reply with
    | error err => rfl
    | ok _ => rfl
  | getContext => exact h.outcomeOwn (by rintro _ ⟨⟩; decide) hadv
  | storeOutcome record => exact h.outcomeOwn (by rintro _ ⟨⟩; decide) hadv
  | publish response => exact h.outcomeOwn (by rintro _ ⟨⟩; decide) hadv
  | returned response => cases hadv
  | raised err => cases hadv

/-- **One step over Redis is one step in memory.** -/
theorem redisPlane_follows {t t' : Task} (h : Follows calendar s w)
    (hid : ':' ∉ t.principal.agentId.toList) (hnow : 0 ≤ e.now)
    (hlive : ∀ a, t.await = some a →
      a = .reserveConcurrency ∨ a = .releaseConcurrency → SlotsLive s.redis e.now)
    (hadv : (redisPlane D calendar).advance e s t = some (s', t')) :
    t'.principal = t.principal
      ∧ ∃ w', (controlPlane D.inMemory).advance (e.inMemory calendar) w t = some (w', t')
        ∧ Follows calendar s' w' := by
  cases t with
  | create call pc =>
    obtain ⟨⟨_, pc'⟩, hstep, heq⟩ := Option.map_eq_some_iff.mp hadv
    obtain ⟨rfl, rfl⟩ := Prod.mk.inj heq
    obtain ⟨w', hmemory, hnext⟩ := advanceCreateOverRedis_follows h hid hnow hlive hstep
    exact ⟨rfl, w', by simp [controlPlane, advance, hmemory], hnext⟩
  | outcome call pc =>
    obtain ⟨⟨_, pc'⟩, hstep, heq⟩ := Option.map_eq_some_iff.mp hadv
    obtain ⟨rfl, rfl⟩ := Prod.mk.inj heq
    obtain ⟨w', hmemory, hnext⟩ := advanceOutcomeOverRedis_follows h hid hnow hlive hstep
    exact ⟨rfl, w', by simp [controlPlane, advance, hmemory], hnext⟩

end Step

/-! ## Whole runs -/

section Runs

variable {D : RedisDeps Q} {calendar : Calendar} {sc : Scenario}

/-- From worlds in step, the same schedule leads to worlds in step. -/
theorem redisPlane_lockstep {s : RedisWorld Q} {w : World InMemoryQuota} {ts : List Task}
    (hsep : ∀ p, sc.caller p → ':' ∉ p.agentId.toList)
    (hcallers : ∀ t ∈ ts, sc.caller t.principal) (h : Follows calendar s w)
    {acts : List (Act Task RedisEnv)} {c : Conf (RedisWorld Q) Task}
    (hrun : RedisRun D calendar sc ⟨s, ts⟩ acts c) :
    ∃ w', RunIn D.inMemory sc ⟨w, ts⟩ (acts.map (Act.map id (RedisEnv.inMemory calendar)))
        ⟨w', c.tasks⟩
      ∧ Follows calendar c.world w' := by
  have hsides : ∃ w', (controlPlane D.inMemory).Run sc.Permits ⟨w, ts.map id⟩
      (acts.map (Act.map id (RedisEnv.inMemory calendar))) ⟨w', c.tasks.map id⟩
      ∧ Follows calendar c.world w' := by
    refine System.Run.lockstep (P := fun t => sc.caller t.principal) ?_ ?_ hrun hcallers h
    · intro s ts w t hok
      exact ⟨hok.2, hok⟩
    · intro s l t r e s' t' w hok hcaller hfollows hadv
      obtain ⟨hnow, hself⟩ := hok t (getElem?_split_self t)
      obtain ⟨hprincipal, w', hmemory, hnext⟩ := redisPlane_follows hfollows (hsep _ hcaller)
        hnow (fun a ha => (hself a ha).2) hadv
      refine ⟨hprincipal ▸ hcaller, ?_, w', hmemory, hnext⟩
      intro u hu a ha
      rw [List.map_id] at hu
      exact ((hok u hu).2 a ha).1
  simp only [List.map_id] at hsides
  exact hsides

/-! ### Runs shorter than a slot set's lifetime -/

/-- A step sends Redis at most one quota call, at its instant. -/
theorem redisPlane_redis {e : RedisEnv} {s s' : RedisWorld Q} {t t' : Task}
    (hadv : (redisPlane D calendar).advance e s t = some (s', t')) :
    s'.redis = s.redis ∨ ∃ op, s'.redis
      = (RedisQuota.serve D.validSettings calendar s.redis ⟨e.now, t.principal, op⟩).1 := by
  have hcall : ∀ principal op, (s.quotaCall D calendar e principal op).1.redis = s.redis
      ∨ (s.quotaCall D calendar e principal op).1.redis
        = (RedisQuota.serve D.validSettings calendar s.redis ⟨e.now, principal, op⟩).1 := by
    intro principal op
    unfold RedisWorld.quotaCall faulted
    cases e.env.fault with
    | returns => exact .inr rfl
    | raises => exact .inl rfl
    | raisesAfter => exact .inr rfl
  cases t with
  | create call pc =>
    obtain ⟨⟨s₁, pc'⟩, hstep, heq⟩ := Option.map_eq_some_iff.mp hadv
    obtain ⟨rfl, rfl⟩ := Prod.mk.inj heq
    cases pc with
    | enforceRpm =>
      obtain ⟨rfl, -⟩ := Prod.mk.inj (Option.some.inj hstep)
      exact (hcall _ _).imp_right fun h => ⟨_, h⟩
    | currentSpend =>
      obtain ⟨rfl, -⟩ := Prod.mk.inj (Option.some.inj hstep)
      exact (hcall _ _).imp_right fun h => ⟨_, h⟩
    | reserve catalog policy decisionId =>
      obtain ⟨rfl, -⟩ := Prod.mk.inj (Option.some.inj hstep)
      exact (hcall _ _).imp_right fun h => ⟨_, h⟩
    | release decisionId err =>
      obtain ⟨rfl, -⟩ := Prod.mk.inj (Option.some.inj hstep)
      exact (hcall _ _).imp_right fun h => ⟨_, h⟩
    | returned drawn response => cases hstep
    | raised drawn err => cases hstep
    | lookup | ensureCatalog _ _ | ensurePolicies _ _ | getSignals _ _ _ | storeDecision _ =>
      obtain ⟨next, -, heq⟩ := Option.map_eq_some_iff.mp hstep
      obtain ⟨rfl, -⟩ := Prod.mk.inj heq
      exact .inl rfl
  | outcome call pc =>
    obtain ⟨⟨s₁, pc'⟩, hstep, heq⟩ := Option.map_eq_some_iff.mp hadv
    obtain ⟨rfl, rfl⟩ := Prod.mk.inj heq
    cases pc with
    | enforceRpm =>
      obtain ⟨rfl, -⟩ := Prod.mk.inj (Option.some.inj hstep)
      exact (hcall _ _).imp_right fun h => ⟨_, h⟩
    | release response =>
      obtain ⟨rfl, -⟩ := Prod.mk.inj (Option.some.inj hstep)
      exact (hcall _ _).imp_right fun h => ⟨_, h⟩
    | recordSpend response =>
      obtain ⟨rfl, -⟩ := Prod.mk.inj (Option.some.inj hstep)
      exact (hcall _ _).imp_right fun h => ⟨_, h⟩
    | returned response => cases hstep
    | raised err => cases hstep
    | getContext | storeOutcome _ | publish _ =>
      obtain ⟨next, -, heq⟩ := Option.map_eq_some_iff.mp hstep
      obtain ⟨rfl, -⟩ := Prod.mk.inj heq
      exact .inl rfl

/-- A step of a run that ends at `final`, within a lifetime of each of its
steps. -/
def RedisStepUntil (fault : Await → Fault → Prop) (settings : ValidSettings) (final : ℚ)
    (_ : RedisWorld Q) (t : Task) (e : RedisEnv) : Prop :=
  0 ≤ e.now ∧ e.now ≤ final ∧ final < e.now + settings.slotTtl
    ∧ ∀ a, t.await = some a → fault a e.env.fault

/-- No slot set reaches its deadline in such a run. -/
theorem slotsLive_of_until {fault : Await → Fault → Prop} {caller : AgentPrincipal → Prop}
    {final : ℚ} {c c' : Conf (RedisWorld Q) Task} {acts : List (Act Task RedisEnv)}
    (hlive : SlotsLive c.world.redis final)
    (hrun : (redisPlane D calendar).Run
      (PermitsCalls (RedisStepUntil fault D.validSettings final) caller) c acts c') :
    SlotsLive c'.world.redis final := by
  refine System.Run.invariant (I := fun c => SlotsLive c.world.redis final) ?_ ?_ hrun hlive
  · intro s ts t _ h
    exact h
  · intro s l t r e s' t' hok hadv h
    rcases redisPlane_redis hadv with hsame | ⟨op, hserved⟩
    · exact (congrArg (SlotsLive · final) hsame).mpr h
    · exact (congrArg (SlotsLive · final) hserved).mpr
        (h.serve (hok t (getElem?_split_self t)).2.2.1)

/-- While the slots live such a step is permitted. -/
theorem RedisStepUntil.permitted {fault : Await → Fault → Prop} {settings : ValidSettings}
    {final : ℚ} {s : RedisWorld Q} {t : Task} {e : RedisEnv}
    (h : RedisStepUntil fault settings final s t e) (hlive : SlotsLive s.redis final) :
    RedisStepPermitted fault s t e :=
  ⟨h.1, fun a ha => ⟨h.2.2.2 a ha, fun _ key entry hentry => (hlive key entry hentry).mono h.2.1⟩⟩

/-- So the run is one of the permitted ones. -/
theorem redisRun_of_until {final : ℚ} {s : RedisWorld Q} {ts : List Task}
    (hlive : SlotsLive s.redis final) {acts : List (Act Task RedisEnv)}
    {c : Conf (RedisWorld Q) Task}
    (hrun : (redisPlane D calendar).Run
      (PermitsCalls (RedisStepUntil sc.fault D.validSettings final) sc.caller) ⟨s, ts⟩ acts c) :
    RedisRun D calendar sc ⟨s, ts⟩ acts c := by
  refine hrun.strengthen ?_
  intro acts₁ c₁ a c₂ acts₂ hpre hok _ _
  cases a with
  | start t => exact hok
  | run i e => exact fun t ht => (hok t ht).permitted (slotsLive_of_until hlive hpre)

/-! ### The small deployment over Redis -/

/-- A step at the epoch that returns. -/
def instantEnv (uuid : String) : RedisEnv :=
  ⟨labEnv uuid, 0⟩

/-- Nothing in memory and nothing in Redis. -/
def overRedis : RedisWorld InMemoryQuota :=
  ⟨World.empty {}, {}⟩

/-- The calls are made, and then take their steps. -/
def instantActs (calls : List Task) (schedule : List (ℕ × String)) : List (Act Task RedisEnv) :=
  calls.map .start ++ schedule.map fun p => .run p.1 (instantEnv p.2)

/-- Such a step is within any bounds. -/
theorem instant_until {fault : Await → Fault → Prop} (hreturns : ∀ a, fault a .returns)
    (s : RedisWorld InMemoryQuota) (t : Task) (uuid : String) :
    RedisStepUntil fault labRedis.validSettings 0 s t (instantEnv uuid) := by
  have httl : 0 < 0 + labRedis.validSettings.slotTtl := by decide +kernel
  exact ⟨le_rfl, le_rfl, httl, fun a _ => hreturns a⟩

/-- Returning is no fault. -/
theorem ledgerRuns_returns (caller : AgentPrincipal → Prop) (a : Await) :
    (ledgerRuns caller).fault a .returns := by
  cases a <;> simp [ledgerRuns]

/-- A run of instants, checked by running it. -/
theorem exists_run_of_instant (caller : AgentPrincipal → Prop) (calls : List Task)
    (schedule : List (ℕ × String)) (P : Conf (RedisWorld InMemoryQuota) Task → Bool)
    (hcalls : ∀ t ∈ calls, t.Started ∧ caller t.principal)
    (h : ((redisPlane labRedis epochCalendar).exec ⟨overRedis, []⟩
      (instantActs calls schedule)).any P = true) :
    ∃ c, RedisRun labRedis epochCalendar (ledgerRuns caller) ⟨overRedis, []⟩
        (instantActs calls schedule) c
      ∧ P c = true := by
  obtain ⟨c, hexec, hP⟩ := (Option.any_eq_true _ _).mp h
  have hshort : (redisPlane labRedis epochCalendar).Run
      (PermitsCalls (RedisStepUntil (ledgerRuns caller).fault labRedis.validSettings 0) caller)
      ⟨overRedis, []⟩ (instantActs calls schedule) c := by
    refine System.Run.of_exec (fun a ha c₁ => ?_) hexec
    rcases List.mem_append.mp ha with ha | ha
    · obtain ⟨t, ht, rfl⟩ := List.mem_map.mp ha
      exact hcalls t ht
    · obtain ⟨p, -, rfl⟩ := List.mem_map.mp ha
      exact fun t _ => instant_until (ledgerRuns_returns caller) _ _ _
  have hlive : SlotsLive overRedis.redis 0 := by
    intro key entry hentry
    cases hentry
  exact ⟨c, redisRun_of_until hlive hshort, hP⟩

/-- A creation, its report, and a second creation. -/
def overlapping : List Task :=
  [labCreate keyedCall, labReport reportCall, labCreate { keyedCall with idempotencyKey := none }]

/-- The report and the second creation in turns. -/
def overlap : List (ℕ × String) :=
  List.replicate 8 (0, "a") ++ (List.replicate 4 [(1, "b"), (2, "b")]).flatten
    ++ [(1, "b"), (1, "b")] ++ List.replicate 4 (2, "b")

/-- The three calls have just begun. -/
theorem overlapping_started :
    ∀ t ∈ overlapping, t.Started ∧ t.principal = labAgent := by
  simp [overlapping, labCreate, labReport, Task.Started.create, Task.Started.outcome,
    Task.principal, keyedCall, reportCall]

end Runs

end ControlPlane
