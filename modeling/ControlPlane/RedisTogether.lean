import ControlPlane.RedisCommands

/-!
# Quota calls whose commands run together

`RedisService` takes a quota call over Redis as one step. Here is when its
commands are one. If they execute at one instant, with nothing of another task
between them, and a call fails before the first of them or after the last,
then a run of the service command by command is a run of `redisPlane`
(`redisPlane_of_together`), and so, with agent ids free of separators, one of
the service in memory (`service_over_redis`).

A run in which they do not need be none: two reservations whose commands cross
are both refused where one slot is free (`RedisRejection`), and a call that
fails between two of them leaves its id behind (`RedisCreation`).

The proof keeps two stores: the one the call under way found, and the one its
commands have made of it so far (`Sent`). The other side takes its step at
the last command (`Fused.whole`) and waits at any other (`Fused.within`).

Mirroring notes:
- An `INCR` executes in the minute, and an `INCRBYFLOAT` on the day, that the
  call read before it.
-/

namespace ControlPlane

open Lib

variable {Q : Type}

/-! ## Inside a quota call -/

/-- A command of the quota call has been sent, and another is to follow. -/
def CommandTask.inside : CommandTask → Bool
  | create _ (.enforceRpm (.expire _ _)) => true
  | create _ (.reserve _ _ _ .expire) => true
  | create _ (.reserve _ _ _ .scard) => true
  | create _ (.reserve _ _ _ .srem) => true
  | report _ (.enforceRpm (.expire _ _)) => true
  | report _ (.recordSpend _ (.expire _)) => true
  | _ => false

/-- The minute an `INCR` is about to count in. -/
def CommandTask.minute : CommandTask → Option ℤ
  | create _ (.enforceRpm (.incr minute)) => some minute
  | report _ (.enforceRpm (.incr minute)) => some minute
  | _ => none

/-- The day whose spend a command is about to read or to add to. -/
def CommandTask.day (e : RedisEnv) : CommandTask → Option String
  | create _ .currentSpend => some e.env.clock.today
  | report _ (.recordSpend _ (.incrByFloat today)) => some today
  | _ => none

/-- The same step if it does not fail. -/
def RedisEnv.returning (e : RedisEnv) : RedisEnv :=
  { e with env := { e.env with fault := .returns } }

/-- A step of task `i` that is not between two commands of another's quota
call, and its own commands are sent at one instant. -/
structure Together (D : RedisDeps Q) (calendar : Calendar) (fault : Await → Fault → Prop)
    (c : Conf (CreationWorld Q) CommandTask) (i : ℕ) (t : CommandTask) (e : RedisEnv) : Prop where
  others : ∀ j u, c.tasks[j]? = some u → j ≠ i → u.inside = false
  nonneg : 0 ≤ e.now
  instant : t.inside = true → e.now = c.world.server.now
  minute : ∀ minute, t.minute = some minute → minute = minuteKey e.now
  day : ∀ today, t.day e = some today → today = calendar.isoformat e.now
  fault : ∀ a, t.toTask.await = some a → fault a e.env.fault
  raises : e.env.fault = .raises → t.inside = false
  raisesAfter : e.env.fault = .raisesAfter → ∀ next,
    (redisCommands D).advance e.returning c.world t = some next → next.2.inside = false

/-- A call that asks for its slot set finds none past its deadline. -/
def AsksLive (s : CreationWorld Q) (t : CommandTask) (e : RedisEnv) : Prop :=
  t.inside = false → t.toTask.await = some .reserveConcurrency
    ∨ t.toTask.await = some .releaseConcurrency → SlotsLive s.server.redis e.now

/-- Runs in which the commands of each quota call execute together. -/
def RunsTogether (D : RedisDeps Q) (calendar : Calendar) (sc : Scenario)
    (c : Conf (CreationWorld Q) CommandTask) : Act CommandTask RedisEnv → Prop
  | .start t => t.Started ∧ sc.caller t.principal
  | .run i e => ∀ t, c.tasks[i]? = some t →
    Together D calendar sc.fault c i t e ∧ AsksLive c.world t e

/-- What the commands a call has sent so far have made of the store it found. -/
inductive Sent (calendar : Calendar) (settings : ValidSettings) (now : ℚ) (r : Redis) :
    CommandTask → Redis → Prop
  | outside {t : CommandTask} (houtside : t.inside = false) : Sent calendar settings now r t r
  | counted {call : CreateCall} :
      (r.incr now (rpmKey call.principal.quotaKey (minuteKey now))).2 = 1 →
      Sent calendar settings now r (.create call (.enforceRpm (.expire (minuteKey now) 1)))
        (r.incr now (rpmKey call.principal.quotaKey (minuteKey now))).1
  | countedReport {call : OutcomeCall} :
      (r.incr now (rpmKey call.principal.quotaKey (minuteKey now))).2 = 1 →
      Sent calendar settings now r (.report call (.enforceRpm (.expire (minuteKey now) 1)))
        (r.incr now (rpmKey call.principal.quotaKey (minuteKey now))).1
  | added {call : CreateCall} {catalog policy decisionId} : SlotsLive r now →
      Sent calendar settings now r (.create call (.reserve catalog policy decisionId .expire))
        (r.sadd now (concurrencyKey call.principal.quotaKey) decisionId)
  | renewed {call : CreateCall} {catalog policy decisionId} : SlotsLive r now →
      Sent calendar settings now r (.create call (.reserve catalog policy decisionId .scard))
        ((r.sadd now (concurrencyKey call.principal.quotaKey) decisionId).expireSet now
          (concurrencyKey call.principal.quotaKey) settings.slotTtl)
  | full {call : CreateCall} {catalog policy decisionId} : SlotsLive r now →
      call.principal.concurrentLimit
        < ((r.sadd now (concurrencyKey call.principal.quotaKey) decisionId).expireSet now
          (concurrencyKey call.principal.quotaKey) settings.slotTtl).scard now
            (concurrencyKey call.principal.quotaKey) →
      Sent calendar settings now r (.create call (.reserve catalog policy decisionId .srem))
        ((r.sadd now (concurrencyKey call.principal.quotaKey) decisionId).expireSet now
          (concurrencyKey call.principal.quotaKey) settings.slotTtl)
  | spent {call : OutcomeCall} {response : RoutingOutcomeResponse} :
      Sent calendar settings now r
        (.report call (.recordSpend response (.expire (calendar.isoformat now))))
        (r.incrByFloat now (budgetKey call.principal.quotaKey (calendar.isoformat now))
          call.outcome.finalCostUsd)

section Sent

variable {calendar : Calendar} {settings : ValidSettings} {now now' : ℚ} {r redis : Redis}
  {t : CommandTask}

/-- Outside its commands a call has sent nothing. -/
theorem Sent.eq_of_outside (h : Sent calendar settings now r t redis) (ht : t.inside = false) :
    redis = r := by
  cases h with
  | outside => rfl
  | counted | countedReport | added | renewed | full | spent => cases ht

/-- A call between two commands goes on at the instant of the first. -/
theorem Sent.goesOn (h : Sent calendar settings now r t redis)
    (hinstant : t.inside = true → now' = now) : Sent calendar settings now' r t redis := by
  cases ht : t.inside with
  | true =>
    rw [hinstant ht]
    exact h
  | false =>
    obtain rfl := h.eq_of_outside ht
    exact .outside ht

/-- How far a reservation has got. -/
theorem Sent.reserving {call : CreateCall} {catalog : CatalogSnapshot} {policy : RoutingPolicy}
    {decisionId : String} {pc : ReservePc}
    (h : Sent calendar settings now r (.create call (.reserve catalog policy decisionId pc)) redis)
    (ht : (CommandTask.create call (.reserve catalog policy decisionId pc)).inside = true) :
    SlotsLive r now ∧ (pc = .expire
        ∧ redis = r.sadd now (concurrencyKey call.principal.quotaKey) decisionId
      ∨ (pc = .scard ∨ pc = .srem ∧ call.principal.concurrentLimit
          < redis.scard now (concurrencyKey call.principal.quotaKey))
        ∧ redis = (r.sadd now (concurrencyKey call.principal.quotaKey) decisionId).expireSet now
          (concurrencyKey call.principal.quotaKey) settings.slotTtl) := by
  cases h with
  | outside houtside =>
    rw [ht] at houtside
    cases houtside
  | added hlive => exact ⟨hlive, .inl ⟨rfl, rfl⟩⟩
  | renewed hlive => exact ⟨hlive, .inr ⟨.inl rfl, rfl⟩⟩
  | full hlive hover => exact ⟨hlive, .inr ⟨.inr ⟨rfl, hover⟩, rfl⟩⟩

/-- Only the first call of a minute sends a second command. -/
theorem Sent.first {call : CreateCall} {minute count : ℤ}
    (h : Sent calendar settings now r (.create call (.enforceRpm (.expire minute count))) redis) :
    minute = minuteKey now ∧ count = 1
      ∧ (r.incr now (rpmKey call.principal.quotaKey (minuteKey now))).2 = 1
      ∧ redis = (r.incr now (rpmKey call.principal.quotaKey (minuteKey now))).1 := by
  cases h with
  | outside houtside => cases houtside
  | counted hone => exact ⟨rfl, rfl, hone, rfl⟩

/-- What a report's `enforce_rpm` has sent. -/
theorem Sent.firstReport {call : OutcomeCall} {minute count : ℤ}
    (h : Sent calendar settings now r (.report call (.enforceRpm (.expire minute count))) redis) :
    minute = minuteKey now ∧ count = 1
      ∧ (r.incr now (rpmKey call.principal.quotaKey (minuteKey now))).2 = 1
      ∧ redis = (r.incr now (rpmKey call.principal.quotaKey (minuteKey now))).1 := by
  cases h with
  | outside houtside => cases houtside
  | countedReport hone => exact ⟨rfl, rfl, hone, rfl⟩

/-- What a report's charge has sent. -/
theorem Sent.spending {call : OutcomeCall} {response : RoutingOutcomeResponse} {today : String}
    (h : Sent calendar settings now r (.report call (.recordSpend response (.expire today)))
      redis) :
    today = calendar.isoformat now
      ∧ redis = (r.incrByFloat now (budgetKey call.principal.quotaKey (calendar.isoformat now))
        call.outcome.finalCostUsd) := by
  cases h with
  | outside houtside => cases houtside
  | spent => exact ⟨rfl, rfl⟩

end Sent

/-! ## One step -/

/-- What a step is where quota calls are one step each: nothing yet, or a
step that the commands sent so far make up. -/
inductive Fused (D : RedisDeps Q) (calendar : Calendar) (e : RedisEnv) (s s' : CreationWorld Q)
    (r : Redis) (t t' : CommandTask) : Prop
  | within (hworld : s'.world = s.world) (htask : t'.toTask = t.toTask)
      (hsent : Sent calendar D.validSettings e.now r t' s'.server.redis)
  | whole (hadv : (redisPlane D calendar).advance e ⟨s.world, r⟩ t.toTask
        = some (⟨s'.world, s'.server.redis⟩, t'.toTask))
      (houtside : t'.inside = false)
      (hlive : t.toTask.await = some .reserveConcurrency
        ∨ t.toTask.await = some .releaseConcurrency → SlotsLive r e.now)

section Step

variable {D : RedisDeps Q} {calendar : Calendar} {e : RedisEnv} {s s' : CreationWorld Q}
  {r redis : Redis} {reply : Reply}

/-- A creation's await over Redis, by its call of the manager. -/
theorem redisPlane_create {op : QuotaOp} {call : CreateCall} {pc : CreatePc}
    {cont : Reply → CreatePc}
    (hplane : ∀ s₁ : RedisWorld Q, advanceCreateOverRedis D calendar e s₁ call pc
      = some ((s₁.quotaCall D calendar e call.principal op).1,
        cont (s₁.quotaCall D calendar e call.principal op).2)) (s₁ : RedisWorld Q) :
    (redisPlane D calendar).advance e s₁ (.create call pc)
      = some ((s₁.quotaCall D calendar e call.principal op).1,
        .create call (cont (s₁.quotaCall D calendar e call.principal op).2)) := by
  show (advanceCreateOverRedis _ _ _ _ _ _).map _ = _
  rw [hplane]
  rfl

/-- A report's await over Redis. -/
theorem redisPlane_outcome {op : QuotaOp} {call : OutcomeCall} {pc : OutcomePc}
    {cont : Reply → OutcomePc}
    (hplane : ∀ s₁ : RedisWorld Q, advanceOutcomeOverRedis D calendar e s₁ call pc
      = some ((s₁.quotaCall D calendar e call.principal op).1,
        cont (s₁.quotaCall D calendar e call.principal op).2)) (s₁ : RedisWorld Q) :
    (redisPlane D calendar).advance e s₁ (.outcome call pc)
      = some ((s₁.quotaCall D calendar e call.principal op).1,
        .outcome call (cont (s₁.quotaCall D calendar e call.principal op).2)) := by
  show (advanceOutcomeOverRedis _ _ _ _ _ _).map _ = _
  rw [hplane]
  rfl

section Create

variable {call : CreateCall} {pc next : CreationPc} {drawn : Option String} (op : QuotaOp)
  (cont : Reply → CreatePc)
  (hplane : ∀ s₁ : RedisWorld Q, advanceCreateOverRedis D calendar e s₁ call pc.toCreatePc
    = some ((s₁.quotaCall D calendar e call.principal op).1,
      cont (s₁.quotaCall D calendar e call.principal op).2))
  (hraised : cont (.error .unavailable) = .raised drawn .unavailable)
  (hlive : (Task.create call pc.toCreatePc).await = some .reserveConcurrency
    ∨ (Task.create call pc.toCreatePc).await = some .releaseConcurrency → SlotsLive r e.now)

include hplane hraised hlive

/-- A quota call that fails before its first command takes effect. -/
theorem Fused.createRaises (hfault : e.env.fault = .raises) (hredis : s.server.redis = r) :
    Fused D calendar e s (s.command ⟨e.env, e.now, false⟩ drawn (redis, next)).1 r
      (.create call pc)
      (.create call (s.command ⟨e.env, e.now, false⟩ drawn (redis, next)).2) := by
  have hadv := redisPlane_create hplane
  unfold RedisWorld.quotaCall at hadv
  rw [command_of_fails (by simp [hfault]), if_pos hfault]
  refine .whole ?_ rfl hlive
  simp only [hfault, faulted] at hadv
  refine (hadv _).trans ?_
  dsimp only [CommandTask.toTask, CreationPc.toCreatePc]
  rw [hraised, hredis]

/-- A command with another one behind it. -/
theorem Fused.firstCreate (hafter : e.env.fault ≠ .raisesAfter)
    (htask : next.toCreatePc = pc.toCreatePc)
    (hsent : Sent calendar D.validSettings e.now r (.create call next) redis)
    (hfirst : e.env.fault = .raises → s.server.redis = r) :
    Fused D calendar e s (s.command ⟨e.env, e.now, false⟩ drawn (redis, next)).1 r
      (.create call pc)
      (.create call (s.command ⟨e.env, e.now, false⟩ drawn (redis, next)).2) := by
  cases hfault : e.env.fault with
  | returns =>
    rw [command_of_returns hfault]
    exact .within rfl (by simp only [CommandTask.toTask, htask]) hsent
  | raises => exact .createRaises op cont hplane hraised hlive hfault (hfirst hfault)
  | raisesAfter => exact absurd hfault hafter

/-- The last command of a quota call makes it up. -/
theorem Fused.lastCreate
    (hserve : RedisQuota.serve D.validSettings calendar r ⟨e.now, call.principal, op⟩
      = (redis, reply))
    (hnext : next.toCreatePc = cont reply)
    (houtside : (CommandTask.create call next).inside = false)
    (hfirst : e.env.fault = .raises → s.server.redis = r) :
    Fused D calendar e s (s.command ⟨e.env, e.now, false⟩ drawn (redis, next)).1 r
      (.create call pc)
      (.create call (s.command ⟨e.env, e.now, false⟩ drawn (redis, next)).2) := by
  have hadv := redisPlane_create hplane
  unfold RedisWorld.quotaCall at hadv
  cases hfault : e.env.fault with
  | returns =>
    rw [command_of_returns hfault]
    refine .whole ?_ houtside hlive
    simp only [hfault, faulted] at hadv
    refine (hadv _).trans ?_
    dsimp only [CommandTask.toTask]
    rw [hserve, hnext]
  | raises => exact .createRaises op cont hplane hraised hlive hfault (hfirst hfault)
  | raisesAfter =>
    rw [command_of_fails (by simp [hfault]), if_neg (by simp [hfault])]
    refine .whole ?_ rfl hlive
    simp only [hfault, faulted] at hadv
    refine (hadv _).trans ?_
    dsimp only [CommandTask.toTask, CreationPc.toCreatePc]
    rw [hserve, hraised]

end Create

section Report

variable {call : OutcomeCall} {pc next : ReportingPc} (op : QuotaOp)
  (cont : Reply → OutcomePc)
  (hplane : ∀ s₁ : RedisWorld Q, advanceOutcomeOverRedis D calendar e s₁ call pc.toOutcomePc
    = some ((s₁.quotaCall D calendar e call.principal op).1,
      cont (s₁.quotaCall D calendar e call.principal op).2))
  (hraised : cont (.error .unavailable) = .raised .unavailable)
  (hlive : (Task.outcome call pc.toOutcomePc).await = some .reserveConcurrency
    ∨ (Task.outcome call pc.toOutcomePc).await = some .releaseConcurrency → SlotsLive r e.now)

include hplane hraised hlive

/-- A report's command that raised before its effect. -/
theorem Fused.reportRaises (hfault : e.env.fault = .raises) (hredis : s.server.redis = r) :
    Fused D calendar e s (s.reportCommand e (redis, next)).1 r (.report call pc)
      (.report call (s.reportCommand e (redis, next)).2) := by
  have hadv := redisPlane_outcome hplane
  unfold RedisWorld.quotaCall at hadv
  rw [reportCommand_of_fails (by simp [hfault]), if_pos hfault]
  refine .whole ?_ rfl hlive
  simp only [hfault, faulted] at hadv
  refine (hadv _).trans ?_
  dsimp only [CommandTask.toTask, ReportingPc.toOutcomePc]
  rw [hraised, hredis]

/-- One command of several in a report. -/
theorem Fused.firstReport (hafter : e.env.fault ≠ .raisesAfter)
    (htask : next.toOutcomePc = pc.toOutcomePc)
    (hsent : Sent calendar D.validSettings e.now r (.report call next) redis)
    (hfirst : e.env.fault = .raises → s.server.redis = r) :
    Fused D calendar e s (s.reportCommand e (redis, next)).1 r (.report call pc)
      (.report call (s.reportCommand e (redis, next)).2) := by
  cases hfault : e.env.fault with
  | returns =>
    rw [reportCommand_of_returns hfault]
    exact .within rfl (by simp only [CommandTask.toTask, htask]) hsent
  | raises => exact .reportRaises op cont hplane hraised hlive hfault (hfirst hfault)
  | raisesAfter => exact absurd hfault hafter

/-- The last command in a report. -/
theorem Fused.lastReport
    (hserve : RedisQuota.serve D.validSettings calendar r ⟨e.now, call.principal, op⟩
      = (redis, reply))
    (hnext : next.toOutcomePc = cont reply)
    (houtside : (CommandTask.report call next).inside = false)
    (hfirst : e.env.fault = .raises → s.server.redis = r) :
    Fused D calendar e s (s.reportCommand e (redis, next)).1 r (.report call pc)
      (.report call (s.reportCommand e (redis, next)).2) := by
  have hadv := redisPlane_outcome hplane
  unfold RedisWorld.quotaCall at hadv
  cases hfault : e.env.fault with
  | returns =>
    rw [reportCommand_of_returns hfault]
    refine .whole ?_ houtside hlive
    simp only [hfault, faulted] at hadv
    refine (hadv _).trans ?_
    dsimp only [CommandTask.toTask]
    rw [hserve, hnext]
  | raises => exact .reportRaises op cont hplane hraised hlive hfault (hfirst hfault)
  | raisesAfter =>
    rw [reportCommand_of_fails (by simp [hfault]), if_neg (by simp [hfault])]
    refine .whole ?_ rfl hlive
    simp only [hfault, faulted] at hadv
    refine (hadv _).trans ?_
    dsimp only [CommandTask.toTask, ReportingPc.toOutcomePc]
    rw [hserve, hraised]

end Report

/-! ### The service's own awaits -/

/-- An await of the service's own does not ask Redis. -/
theorem advanceCreateOverRedis_own {call : CreateCall} {pc : CreatePc} (s : RedisWorld Q)
    (hown : ∀ a, (Task.create call pc).await = some a → a.Own) :
    advanceCreateOverRedis D calendar e s call pc
      = (advanceCreate D.toDeps e.env s.world call pc).map fun next =>
        ({ s with world := next.1 }, next.2) := by
  cases pc with
  | enforceRpm | currentSpend | reserve _ _ _ | release _ _ =>
    exact absurd (hown _ rfl) (by decide)
  | _ => rfl

/-- Nor does one of a report. -/
theorem advanceOutcomeOverRedis_own {call : OutcomeCall} {pc : OutcomePc} (s : RedisWorld Q)
    (hown : ∀ a, (Task.outcome call pc).await = some a → a.Own) :
    advanceOutcomeOverRedis D calendar e s call pc
      = (advanceOutcome D.toDeps e.env s.world call pc).map fun next =>
        ({ s with world := next.1 }, next.2) := by
  cases pc with
  | enforceRpm | release _ | recordSpend _ => exact absurd (hown _ rfl) (by decide)
  | _ => rfl

/-- An await of a creation's own. -/
theorem fused_createOwn {call : CreateCall} {pc : CreatePc} {pc' : CreationPc}
    (hown : (CommandTask.create call (.service pc)).AtOwn) (hredis : s.server.redis = r)
    (hadv : advanceCreation D call ⟨e.env, e.now, false⟩ s (.service pc) = some (s', pc')) :
    Fused D calendar e s s' r (.create call (.service pc)) (.create call pc') := by
  obtain ⟨⟨world, pc₁⟩, hnext, heq⟩ := Option.map_eq_some_iff.mp hadv
  obtain ⟨rfl, rfl⟩ := Prod.ext_iff.mp heq
  refine .whole ?_ (by cases pc₁ <;> rfl) ?_
  · show (advanceCreateOverRedis _ _ _ _ _ _).map _ = some (_, Task.create call _)
    rw [toCreatePc_ofService]
    refine (congrArg _ (advanceCreateOverRedis_own _ hown)).trans ?_
    rw [hnext, hredis]
    rfl
  · rintro (ha | ha)
    · exact absurd (hown _ ha) (by decide)
    · exact absurd (hown _ ha) (by decide)

/-- An await of a report's own. -/
theorem fused_reportOwn {call : OutcomeCall} {pc : OutcomePc} {pc' : ReportingPc}
    (hown : (CommandTask.report call (.service pc)).AtOwn) (hredis : s.server.redis = r)
    (hadv : advanceReporting D call e s (.service pc) = some (s', pc')) :
    Fused D calendar e s s' r (.report call (.service pc)) (.report call pc') := by
  obtain ⟨⟨world, pc₁⟩, hnext, heq⟩ := Option.map_eq_some_iff.mp hadv
  obtain ⟨rfl, rfl⟩ := Prod.ext_iff.mp heq
  refine .whole ?_ (by cases pc₁ <;> rfl) ?_
  · show (advanceOutcomeOverRedis _ _ _ _ _ _).map _ = some (_, Task.outcome call _)
    rw [toOutcomePc_ofService]
    refine (congrArg _ (advanceOutcomeOverRedis_own _ hown)).trans ?_
    rw [hnext, hredis]
    rfl
  · rintro (ha | ha)
    · exact absurd (hown _ ha) (by decide)
    · exact absurd (hown _ ha) (by decide)

end Step

/-! ### The replies -/

/-- Past `enforce_rpm`. -/
def afterEnforceRpm : Reply → CreatePc
  | .error err => .raised none err
  | .ok _ => .currentSpend

/-- Past `current_daily_spend`, which admits the request or refuses it. -/
def afterCurrentSpend (D : RedisDeps Q) (e : RedisEnv) (call : CreateCall) : Reply → CreatePc
  | .error err => .raised none err
  | .ok currentSpend =>
    match admission D.toDeps e.env.catalog call (currentSpend.getD 0) with
    | .error err => .raised none err
    | .ok (catalog, policy) => .ensureCatalog catalog policy

/-- Past a reservation. -/
def afterReserve (catalog : CatalogSnapshot) (policy : RoutingPolicy) (decisionId : String) :
    Reply → CreatePc
  | .error err => .raised (some decisionId) err
  | .ok _ => .getSignals catalog policy decisionId

/-- Past a release: the error stays the error. -/
def afterRelease (decisionId : String) (err : ServiceError) : Reply → CreatePc
  | .error err' => .raised (some decisionId) err'
  | .ok _ => .raised (some decisionId) err

/-- Past an await of a report. -/
def reportAfter (pc : OutcomePc) : Reply → OutcomePc
  | .error err => .raised err
  | .ok _ => pc

section Commands

variable {D : RedisDeps Q} {calendar : Calendar} {e : RedisEnv} {s s' : CreationWorld Q}
  {r : Redis} {fault : Await → Fault → Prop} {ts : List CommandTask} {i : ℕ}

/-- Between two commands nothing fails past its effect. -/
theorem Together.not_raisesAfter {t : CommandTask} {next : CreationWorld Q × CommandTask}
    (hok : Together D calendar fault ⟨s, ts⟩ i t e) (hle : s.server.now ≤ e.now)
    (hadv : advanceCommand D e.returning s t = some next) (hinside : next.2.inside = true) :
    e.env.fault ≠ .raisesAfter := by
  intro hfault
  have houtside := hok.raisesAfter hfault next ((if_pos hle).trans hadv)
  rw [hinside] at houtside
  cases houtside

/-- The first count of a minute sets its deadline. -/
theorem serve_enforceRpm_one {now : ℚ} {principal : AgentPrincipal}
    (hone : (r.incr now (rpmKey principal.quotaKey (minuteKey now))).2 = 1) :
    RedisQuota.serve D.validSettings calendar r ⟨now, principal, .enforceRpm⟩
      = ((r.incr now (rpmKey principal.quotaKey (minuteKey now))).1.expireCounter now
          (rpmKey principal.quotaKey (minuteKey now)) 60,
        if principal.rateLimitRpm < 1 then .error (.quotaExceeded "agent RPM exceeded")
          else .ok none) := by
  simp only [RedisQuota.serve, RedisQuota.enforceRpm, hone, if_true]
  split
  next => rfl
  next => rfl

/-- The later ones do not. -/
theorem serve_enforceRpm_more {now : ℚ} {principal : AgentPrincipal}
    (hone : (r.incr now (rpmKey principal.quotaKey (minuteKey now))).2 ≠ 1) :
    RedisQuota.serve D.validSettings calendar r ⟨now, principal, .enforceRpm⟩
      = ((r.incr now (rpmKey principal.quotaKey (minuteKey now))).1,
        if principal.rateLimitRpm < (r.incr now (rpmKey principal.quotaKey (minuteKey now))).2 then
          .error (.quotaExceeded "agent RPM exceeded") else .ok none) := by
  simp only [RedisQuota.serve, RedisQuota.enforceRpm, if_neg hone]
  split
  next => rfl
  next => rfl

/-- A reservation within the limit. -/
theorem serve_reserve_within {now : ℚ} {principal : AgentPrincipal} {decisionId : String}
    (h : ¬principal.concurrentLimit
      < ((r.sadd now (concurrencyKey principal.quotaKey) decisionId).expireSet now
        (concurrencyKey principal.quotaKey) D.validSettings.slotTtl).scard now
          (concurrencyKey principal.quotaKey)) :
    RedisQuota.serve D.validSettings calendar r ⟨now, principal, .reserveConcurrency decisionId⟩
      = ((r.sadd now (concurrencyKey principal.quotaKey) decisionId).expireSet now
        (concurrencyKey principal.quotaKey) D.validSettings.slotTtl, .ok none) := by
  simp only [RedisQuota.serve, RedisQuota.reserveConcurrency, if_neg h]
  rfl

/-- A reservation over the limit, and its `SREM`. -/
theorem serve_reserve_full {now : ℚ} {principal : AgentPrincipal} {decisionId : String}
    (h : principal.concurrentLimit
      < ((r.sadd now (concurrencyKey principal.quotaKey) decisionId).expireSet now
        (concurrencyKey principal.quotaKey) D.validSettings.slotTtl).scard now
          (concurrencyKey principal.quotaKey)) :
    RedisQuota.serve D.validSettings calendar r ⟨now, principal, .reserveConcurrency decisionId⟩
      = (((r.sadd now (concurrencyKey principal.quotaKey) decisionId).expireSet now
        (concurrencyKey principal.quotaKey) D.validSettings.slotTtl).srem now
          (concurrencyKey principal.quotaKey) decisionId,
        .error (.quotaExceeded "agent concurrent limit exceeded")) := by
  simp only [RedisQuota.serve, RedisQuota.reserveConcurrency, if_pos h]
  rfl

/-- The commands of `enforce_rpm`. -/
theorem fused_createRpm {call : CreateCall} {task : RpmTask} {pc' : CreationPc}
    (hown : (CommandTask.create call (.enforceRpm task)).AtOwn) (hle : s.server.now ≤ e.now)
    (hok : Together D calendar fault ⟨s, ts⟩ i (.create call (.enforceRpm task)) e)
    (hsent : Sent calendar D.validSettings e.now r (.create call (.enforceRpm task))
      s.server.redis)
    (hadv : advanceCreation D call ⟨e.env, e.now, false⟩ s (.enforceRpm task) = some (s', pc')) :
    Fused D calendar e s s' r (.create call (.enforceRpm task)) (.create call pc') := by
  have hlive : (Task.create call .enforceRpm).await = some .reserveConcurrency
      ∨ (Task.create call .enforceRpm).await = some .releaseConcurrency →
        SlotsLive r e.now := by
    rintro (⟨⟨⟩⟩ | ⟨⟨⟩⟩)
  obtain ⟨⟨redis, task'⟩, hrpm, heq⟩ := Option.map_eq_some_iff.mp hadv
  obtain ⟨rfl, rfl⟩ := Prod.ext_iff.mp heq
  cases task with
  | readClock => cases hown
  | incr minute =>
    obtain rfl := hok.minute _ rfl
    have hredis := hsent.eq_of_outside rfl
    obtain ⟨rfl, rfl⟩ := Prod.mk.inj (Option.some.inj hrpm)
    rw [hredis]
    by_cases hone : (r.incr e.now (rpmKey call.principal.quotaKey (minuteKey e.now))).2 = 1
    · have hfault : e.env.fault ≠ .raisesAfter := by
        refine hok.not_raisesAfter hle rfl ?_
        simp [RedisEnv.returning, CreationWorld.command, hredis, hone, CommandTask.inside]
      simp only [hone, if_true]
      exact .firstCreate .enforceRpm afterEnforceRpm (fun _ => rfl) rfl hlive hfault rfl
        (.counted hone) fun _ => hredis
    · simp only [if_neg hone]
      refine .lastCreate .enforceRpm afterEnforceRpm (fun _ => rfl) rfl hlive
        (serve_enforceRpm_more hone) ?_ ?_ fun _ => hredis
      · unfold rpmAnswer
        split_ifs <;> rfl
      · unfold rpmAnswer
        split_ifs <;> rfl
  | expire minute count =>
    obtain ⟨rfl, rfl, hone, hredis⟩ := hsent.first
    obtain ⟨rfl, rfl⟩ := Prod.mk.inj (Option.some.inj hrpm)
    rw [hredis]
    refine .lastCreate .enforceRpm afterEnforceRpm (fun _ => rfl) rfl hlive
      (serve_enforceRpm_one hone) ?_ ?_ ?_
    · unfold rpmAnswer
      split_ifs <;> rfl
    · unfold rpmAnswer
      split_ifs <;> rfl
    · intro hfault
      exact absurd (hok.raises hfault) (by simp [CommandTask.inside])
  | passed minute | refused minute => cases hrpm

/-- The `GET` of the spend. -/
theorem fused_currentSpend {call : CreateCall} {pc' : CreationPc}
    (hok : Together D calendar fault ⟨s, ts⟩ i (.create call .currentSpend) e)
    (hredis : s.server.redis = r)
    (hadv : advanceCreation D call ⟨e.env, e.now, false⟩ s .currentSpend = some (s', pc')) :
    Fused D calendar e s s' r (.create call .currentSpend) (.create call pc') := by
  have htoday := hok.day _ rfl
  simp only [advanceCreation, htoday] at hadv
  obtain ⟨rfl, rfl⟩ := Prod.ext_iff.mp (Option.some.inj hadv)
  rw [hredis]
  refine .lastCreate .currentDailySpend (afterCurrentSpend D e call) (fun _ => rfl) rfl ?_
    rfl ?_ ?_ fun _ => hredis
  · rintro (⟨⟨⟩⟩ | ⟨⟨⟩⟩)
  · simp only [afterCurrentSpend, Option.getD_some]
    rcases admission D.toDeps e.env.catalog call _ with err | ⟨catalog, policy⟩
    · rfl
    · rfl
  · rcases admission D.toDeps e.env.catalog call _ with err | ⟨catalog, policy⟩
    · rfl
    · rfl

/-- The commands of `reserve_concurrency`. -/
theorem fused_reserve {call : CreateCall} {catalog : CatalogSnapshot} {policy : RoutingPolicy}
    {decisionId : String} {pc : ReservePc} {pc' : CreationPc} (hle : s.server.now ≤ e.now)
    (hok : Together D calendar fault ⟨s, ts⟩ i
      (.create call (.reserve catalog policy decisionId pc)) e)
    (hasks : AsksLive s (.create call (.reserve catalog policy decisionId pc)) e)
    (hsent : Sent calendar D.validSettings e.now r
      (.create call (.reserve catalog policy decisionId pc)) s.server.redis)
    (hadv : advanceCreation D call ⟨e.env, e.now, false⟩ s (.reserve catalog policy decisionId pc)
      = some (s', pc')) :
    Fused D calendar e s s' r (.create call (.reserve catalog policy decisionId pc))
      (.create call pc') := by
  obtain ⟨next, hreserve, heq⟩ := Option.map_eq_some_iff.mp hadv
  obtain ⟨rfl, rfl⟩ := Prod.ext_iff.mp heq
  cases pc with
  | sadd =>
    obtain rfl := Option.some.inj hreserve
    have hredis := hsent.eq_of_outside rfl
    have hlive := hasks rfl (.inl rfl)
    have hfault : e.env.fault ≠ .raisesAfter := by
      refine hok.not_raisesAfter hle rfl ?_
      simp [RedisEnv.returning, CreationWorld.command, CommandTask.inside]
    rw [hredis] at hlive ⊢
    exact .firstCreate (.reserveConcurrency decisionId) (afterReserve catalog policy decisionId)
      (fun _ => rfl) rfl (fun _ => hlive) hfault rfl (.added hlive) fun _ => hredis
  | expire =>
    obtain rfl := Option.some.inj hreserve
    obtain ⟨hlive, ⟨-, hredis⟩ | ⟨⟨⟨⟩⟩ | ⟨⟨⟩, -⟩, -⟩⟩ := hsent.reserving rfl
    have hfault : e.env.fault ≠ .raisesAfter := by
      refine hok.not_raisesAfter hle rfl ?_
      simp [RedisEnv.returning, CreationWorld.command, CommandTask.inside]
    rw [hredis]
    exact .firstCreate (.reserveConcurrency decisionId) (afterReserve catalog policy decisionId)
      (fun _ => rfl) rfl (fun _ => hlive) hfault rfl (.renewed hlive)
      fun hraises => absurd (hok.raises hraises) (by simp [CommandTask.inside])
  | scard =>
    obtain rfl := Option.some.inj hreserve
    obtain ⟨hlive, ⟨⟨⟩, -⟩ | ⟨-, hredis⟩⟩ := hsent.reserving rfl
    have hraises : e.env.fault = .raises → s.server.redis = r :=
      fun hraises => absurd (hok.raises hraises) (by simp [CommandTask.inside])
    by_cases hfull : call.principal.concurrentLimit
        < (s.server.redis.scard e.now (concurrencyKey call.principal.quotaKey) : ℤ)
    · have hfault : e.env.fault ≠ .raisesAfter := by
        refine hok.not_raisesAfter hle rfl ?_
        simp [RedisEnv.returning, CreationWorld.command, hfull, CommandTask.inside]
      simp only [if_pos hfull]
      rw [hredis] at hfull ⊢
      exact .firstCreate (.reserveConcurrency decisionId)
        (afterReserve catalog policy decisionId) (fun _ => rfl) rfl (fun _ => hlive) hfault rfl
        (.full hlive hfull) hraises
    · simp only [if_neg hfull]
      rw [hredis] at hfull ⊢
      exact .lastCreate (.reserveConcurrency decisionId)
        (afterReserve catalog policy decisionId) (fun _ => rfl) rfl (fun _ => hlive)
        (serve_reserve_within hfull) rfl rfl hraises
  | srem =>
    obtain rfl := Option.some.inj hreserve
    obtain ⟨hlive, ⟨⟨⟩, -⟩ | ⟨⟨⟨⟩⟩ | ⟨-, hfull⟩, hredis⟩⟩ := hsent.reserving rfl
    rw [hredis] at hfull ⊢
    exact .lastCreate (.reserveConcurrency decisionId) (afterReserve catalog policy decisionId)
      (fun _ => rfl) rfl (fun _ => hlive) (serve_reserve_full hfull) rfl rfl
      fun hraises => absurd (hok.raises hraises) (by simp [CommandTask.inside])
  | admitted => cases hreserve
  | rejected => cases hreserve

/-- The `SREM` of a release. -/
theorem fused_createRelease {call : CreateCall} {decisionId : String} {err : ServiceError}
    {pc' : CreationPc}
    (hasks : AsksLive s (.create call (.release decisionId err)) e)
    (hredis : s.server.redis = r)
    (hadv : advanceCreation D call ⟨e.env, e.now, false⟩ s (.release decisionId err)
      = some (s', pc')) :
    Fused D calendar e s s' r (.create call (.release decisionId err)) (.create call pc') := by
  obtain ⟨rfl, rfl⟩ := Prod.ext_iff.mp (Option.some.inj hadv)
  have hlive := hasks rfl (.inr rfl)
  rw [hredis] at hlive ⊢
  exact .lastCreate (.releaseConcurrency decisionId) (afterRelease decisionId err) (fun _ => rfl)
    rfl (fun _ => hlive) rfl rfl rfl fun _ => hredis

/-! ### Reports -/

/-- The commands of a report's `enforce_rpm`. -/
theorem fused_reportRpm {call : OutcomeCall} {task : RpmTask} {pc' : ReportingPc}
    (hle : s.server.now ≤ e.now)
    (hok : Together D calendar fault ⟨s, ts⟩ i (.report call (.enforceRpm task)) e)
    (hsent : Sent calendar D.validSettings e.now r (.report call (.enforceRpm task))
      s.server.redis)
    (hadv : advanceReporting D call e s (.enforceRpm task) = some (s', pc')) :
    Fused D calendar e s s' r (.report call (.enforceRpm task)) (.report call pc') := by
  have hlive : (Task.outcome call .enforceRpm).await = some .reserveConcurrency
      ∨ (Task.outcome call .enforceRpm).await = some .releaseConcurrency →
        SlotsLive r e.now := by
    rintro (⟨⟨⟩⟩ | ⟨⟨⟩⟩)
  cases task with
  | readClock =>
    obtain ⟨rfl, rfl⟩ := Prod.ext_iff.mp (Option.some.inj hadv)
    refine .within rfl rfl ?_
    rw [← hsent.eq_of_outside rfl]
    exact .outside rfl
  | incr minute =>
    obtain rfl := hok.minute _ rfl
    have hredis := hsent.eq_of_outside rfl
    simp only [advanceReporting, advanceRpm] at hadv
    obtain ⟨rfl, rfl⟩ := Prod.ext_iff.mp (Option.some.inj hadv)
    rw [hredis]
    by_cases hone : (r.incr e.now (rpmKey call.principal.quotaKey (minuteKey e.now))).2 = 1
    · have hfault : e.env.fault ≠ .raisesAfter := by
        refine hok.not_raisesAfter hle rfl ?_
        simp [RedisEnv.returning, CreationWorld.reportCommand, hredis, hone, CommandTask.inside]
      simp only [hone, if_true]
      exact .firstReport .enforceRpm (reportAfter .getContext) (fun _ => rfl) rfl hlive hfault rfl
        (.countedReport hone) fun _ => hredis
    · simp only [if_neg hone]
      refine .lastReport .enforceRpm (reportAfter .getContext) (fun _ => rfl) rfl hlive
        (serve_enforceRpm_more hone) ?_ ?_ fun _ => hredis
      · unfold rpmAnswer
        split_ifs <;> rfl
      · unfold rpmAnswer
        split_ifs <;> rfl
  | expire minute count =>
    obtain ⟨rfl, rfl, hone, hredis⟩ := hsent.firstReport
    simp only [advanceReporting, advanceRpm] at hadv
    obtain ⟨rfl, rfl⟩ := Prod.ext_iff.mp (Option.some.inj hadv)
    rw [hredis]
    refine .lastReport .enforceRpm (reportAfter .getContext) (fun _ => rfl) rfl hlive
      (serve_enforceRpm_one hone) ?_ ?_ ?_
    · unfold rpmAnswer
      split_ifs <;> rfl
    · unfold rpmAnswer
      split_ifs <;> rfl
    · intro hfault
      exact absurd (hok.raises hfault) (by simp [CommandTask.inside])
  | passed minute | refused minute => cases hadv

/-- The `SREM` of a report. -/
theorem fused_reportRelease {call : OutcomeCall} {response : RoutingOutcomeResponse}
    {pc' : ReportingPc}
    (hasks : AsksLive s (.report call (.release response)) e)
    (hredis : s.server.redis = r)
    (hadv : advanceReporting D call e s (.release response) = some (s', pc')) :
    Fused D calendar e s s' r (.report call (.release response)) (.report call pc') := by
  obtain ⟨rfl, rfl⟩ := Prod.ext_iff.mp (Option.some.inj hadv)
  have hlive := hasks rfl (.inr rfl)
  rw [hredis] at hlive ⊢
  exact .lastReport (.releaseConcurrency call.outcome.decisionId)
    (reportAfter (.recordSpend response)) (fun _ => rfl) rfl (fun _ => hlive) rfl rfl rfl
    fun _ => hredis

/-- The commands of `record_spend`. -/
theorem fused_recordSpend {call : OutcomeCall} {response : RoutingOutcomeResponse} {pc : SpendPc}
    {pc' : ReportingPc} (hle : s.server.now ≤ e.now)
    (hok : Together D calendar fault ⟨s, ts⟩ i (.report call (.recordSpend response pc)) e)
    (hsent : Sent calendar D.validSettings e.now r (.report call (.recordSpend response pc))
      s.server.redis)
    (hadv : advanceReporting D call e s (.recordSpend response pc) = some (s', pc')) :
    Fused D calendar e s s' r (.report call (.recordSpend response pc)) (.report call pc') := by
  have hlive : (Task.outcome call (.recordSpend response)).await = some .reserveConcurrency
      ∨ (Task.outcome call (.recordSpend response)).await = some .releaseConcurrency →
        SlotsLive r e.now := by
    rintro (⟨⟨⟩⟩ | ⟨⟨⟩⟩)
  cases pc with
  | incrByFloat today =>
    obtain rfl := hok.day _ rfl
    have hredis := hsent.eq_of_outside rfl
    obtain ⟨rfl, rfl⟩ := Prod.ext_iff.mp (Option.some.inj hadv)
    have hfault : e.env.fault ≠ .raisesAfter := by
      refine hok.not_raisesAfter hle rfl ?_
      simp [RedisEnv.returning, CreationWorld.reportCommand, CommandTask.inside]
    rw [hredis]
    exact .firstReport (.recordSpend call.outcome.finalCostUsd) (reportAfter (.publish response))
      (fun _ => rfl) rfl hlive hfault rfl .spent fun _ => hredis
  | expire today =>
    obtain ⟨rfl, hredis⟩ := hsent.spending
    obtain ⟨rfl, rfl⟩ := Prod.ext_iff.mp (Option.some.inj hadv)
    rw [hredis]
    exact .lastReport (.recordSpend call.outcome.finalCostUsd) (reportAfter (.publish response))
      (fun _ => rfl) rfl hlive rfl rfl rfl
      fun hraises => absurd (hok.raises hraises) (by simp [CommandTask.inside])

/-- **A step of a quota call whose commands run together is within it, or
makes it up.** -/
theorem together_step {t t' : CommandTask} (hown : t.AtOwn)
    (hok : Together D calendar fault ⟨s, ts⟩ i t e) (hasks : AsksLive s t e)
    (hsent : Sent calendar D.validSettings s.server.now r t s.server.redis)
    (hadv : (redisCommands D).advance e s t = some (s', t')) : Fused D calendar e s s' r t t' := by
  replace hsent := hsent.goesOn hok.instant
  simp only [redisCommands] at hadv
  split at hadv
  next hle =>
    cases t with
    | create call pc =>
      obtain ⟨⟨_, pc'⟩, hstep, heq⟩ := Option.map_eq_some_iff.mp hadv
      obtain ⟨rfl, rfl⟩ := Prod.mk.inj heq
      cases pc with
      | service pc => exact fused_createOwn hown (hsent.eq_of_outside rfl) hstep
      | enforceRpm task => exact fused_createRpm hown hle hok hsent hstep
      | currentSpend => exact fused_currentSpend hok (hsent.eq_of_outside rfl) hstep
      | reserve catalog policy decisionId pc => exact fused_reserve hle hok hasks hsent hstep
      | release decisionId err => exact fused_createRelease hasks (hsent.eq_of_outside rfl) hstep
      | cancelled => cases hstep
    | report call pc =>
      obtain ⟨⟨_, pc'⟩, hstep, heq⟩ := Option.map_eq_some_iff.mp hadv
      obtain ⟨rfl, rfl⟩ := Prod.mk.inj heq
      cases pc with
      | service pc => exact fused_reportOwn hown (hsent.eq_of_outside rfl) hstep
      | enforceRpm task => exact fused_reportRpm hle hok hsent hstep
      | release response => exact fused_reportRelease hasks (hsent.eq_of_outside rfl) hstep
      | recordSpend response pc => exact fused_recordSpend hle hok hsent hstep
  next => cases hadv

/-- A step's instant becomes the last one. -/
theorem redisCommands_now {t t' : CommandTask}
    (hadv : (redisCommands D).advance e s t = some (s', t')) : s'.server.now = e.now := by
  simp only [redisCommands] at hadv
  split at hadv
  next hle =>
    cases t with
    | create call pc =>
      obtain ⟨⟨_, pc'⟩, hstep, heq⟩ := Option.map_eq_some_iff.mp hadv
      obtain ⟨rfl, rfl⟩ := Prod.mk.inj heq
      have hcreation : (creation D call).advance ⟨e.env, e.now, false⟩ s pc = _ :=
        (if_pos hle).trans hstep
      exact (seen_step hcreation).2.1
    | report call pc =>
      obtain ⟨⟨_, pc'⟩, hstep, heq⟩ := Option.map_eq_some_iff.mp hadv
      obtain ⟨rfl, rfl⟩ := Prod.mk.inj heq
      cases pc with
      | service pc =>
        obtain ⟨_, -, heq⟩ := Option.map_eq_some_iff.mp hstep
        rw [← (Prod.mk.inj heq).1]
      | enforceRpm task =>
        cases task with
        | readClock => rw [← (Prod.mk.inj (Option.some.inj hstep)).1]
        | incr _ | expire _ _ =>
          simp only [advanceReporting] at hstep
          obtain ⟨_, -, heq⟩ := Option.map_eq_some_iff.mp hstep
          rw [← (Prod.mk.inj heq).1]
        | passed _ | refused _ => cases hstep
      | release response => rw [← (Prod.mk.inj (Option.some.inj hstep)).1]
      | recordSpend response pc =>
        cases pc with
        | incrByFloat _ | expire _ => rw [← (Prod.mk.inj (Option.some.inj hstep)).1]
  next => cases hadv

end Commands

/-! ## Whole runs -/

/-- The run so far as one of `redisPlane`, to the store `r` that the call
under way found. -/
structure RunsFused (D : RedisDeps Q) (calendar : Calendar) (sc : Scenario) (q : Q) (r : Redis)
    (c : Conf (CreationWorld Q) CommandTask) : Prop where
  run : ∃ acts, RedisRun D calendar sc ⟨⟨World.empty q, {}⟩, []⟩ acts
    ⟨⟨c.world.world, r⟩, c.tasks.map CommandTask.toTask⟩
  sent : ∀ t ∈ c.tasks, t.inside = true →
    Sent calendar D.validSettings c.world.server.now r t c.world.server.redis
  atRest : (∀ t ∈ c.tasks, t.inside = false) → c.world.server.redis = r
  atOwn : ∀ t ∈ c.tasks, t.AtOwn

section Runs

variable {D : RedisDeps Q} {calendar : Calendar} {sc : Scenario} {q : Q} {e : RedisEnv}
  {s s' : CreationWorld Q} {r : Redis} {t t' : CommandTask} {left right ts : List CommandTask}

/-- A call that has just begun is outside its commands. -/
theorem CommandTask.Started.outside (h : t.Started) : t.inside = false := by
  cases h with
  | create call =>
    unfold CreateCall.start
    split <;> rfl
  | report call =>
    unfold OutcomeCall.start
    split <;> rfl

/-- One more call that has just begun. -/
theorem RunsFused.start (h : RunsFused D calendar sc q r ⟨s, ts⟩) (hstarted : t.Started)
    (hcaller : sc.caller t.principal) : RunsFused D calendar sc q r ⟨s, ts ++ [t]⟩ := by
  obtain ⟨⟨acts, hrun⟩, hsent, hrest, hown⟩ := h
  have hstart : (redisPlane D calendar).step ⟨⟨s.world, r⟩, ts.map CommandTask.toTask⟩
      (.start t.toTask) = some ⟨⟨s.world, r⟩, (ts ++ [t]).map CommandTask.toTask⟩ := by
    rw [List.map_append]
    rfl
  have hpermitted : PermitsCalls (RedisStepPermitted sc.fault) sc.caller
      ⟨⟨s.world, r⟩, ts.map CommandTask.toTask⟩ (.start t.toTask) := ⟨hstarted.toTask, hcaller⟩
  refine ⟨⟨_, hrun.snoc hpermitted hstart⟩, ?_, ?_, ?_⟩
  · intro u hu hinside
    rcases List.mem_append.mp hu with hu | hu
    · exact hsent u hu hinside
    · obtain rfl := List.mem_singleton.mp hu
      rw [hstarted.outside] at hinside
      cases hinside
  · exact fun houtside => hrest fun u hu => houtside u (List.mem_append_left _ hu)
  · intro u hu
    rcases List.mem_append.mp hu with hu | hu
    · exact hown u hu
    · rw [List.mem_singleton.mp hu]
      exact hstarted.atOwn.1

/-- The others are not between two commands while `t` steps. -/
theorem Together.others_outside {fault : Await → Fault → Prop}
    (hok : Together D calendar fault ⟨s, left ++ t :: right⟩ left.length t e) :
    ∀ u, u ∈ left ∨ u ∈ right → u.inside = false := by
  rintro u (hu | hu)
  · obtain ⟨j, hj⟩ := List.getElem?_of_mem hu
    have hlt := (List.getElem?_eq_some_iff.mp hj).1
    exact hok.others j u ((List.getElem?_append_left hlt).trans hj) hlt.ne
  · obtain ⟨j, hj⟩ := List.getElem?_of_mem hu
    refine hok.others (left.length + (j + 1)) u ?_ (by omega)
    rw [List.getElem?_append_right (by omega), Nat.add_sub_cancel_left, List.getElem?_cons_succ]
    exact hj

/-- **One command is one await, or none.** -/
theorem RunsFused.run_step
    (hok : Together D calendar sc.fault ⟨s, left ++ t :: right⟩ left.length t e)
    (hasks : AsksLive s t e) (hadv : (redisCommands D).advance e s t = some (s', t'))
    (h : RunsFused D calendar sc q r ⟨s, left ++ t :: right⟩) :
    ∃ r', RunsFused D calendar sc q r' ⟨s', left ++ t' :: right⟩ := by
  obtain ⟨⟨acts, hrun⟩, hsent, hrest, hown⟩ := h
  have hothers := hok.others_outside
  have hself := forall_mem_split.mp hown
  have hsentSelf : Sent calendar D.validSettings s.server.now r t s.server.redis := by
    cases hinside : t.inside with
    | true => exact hsent t (by simp) hinside
    | false =>
      have hredis : s.server.redis = r := hrest (forall_mem_split.mpr ⟨hinside, hothers⟩)
      rw [hredis]
      exact .outside hinside
  obtain ⟨_, hstepped⟩ := redisCommands_step (fun _ => ∅) hself.1 hadv
  have hown' : ∀ u ∈ left ++ t' :: right, u.AtOwn :=
    forall_mem_split.mpr ⟨hstepped.atOwn, hself.2⟩
  cases together_step hself.1 hok hasks hsentSelf hadv with
  | within hworld htask hsent' =>
    refine ⟨r, ⟨acts, ?_⟩, ?_, ?_, hown'⟩
    · rw [hworld]
      simpa only [List.map_append, List.map_cons, htask] using hrun
    · refine forall_mem_split.mpr ⟨fun _ => ?_, fun u hu hinside => ?_⟩
      · rw [redisCommands_now hadv]
        exact hsent'
      · rw [hothers u hu] at hinside
        cases hinside
    · exact fun houtside => hsent'.eq_of_outside (forall_mem_split.mp houtside).1
  | whole hstep houtside hlive =>
    have hpermitted : PermitsCalls (RedisStepPermitted sc.fault) sc.caller
        ⟨⟨s.world, r⟩, (left ++ t :: right).map CommandTask.toTask⟩ (.run left.length e) := by
      intro u hu
      rw [List.getElem?_map, getElem?_split_self] at hu
      obtain rfl := Option.some.inj hu
      refine ⟨hok.nonneg, fun a ha => ⟨hok.fault a ha, ?_⟩⟩
      rintro (rfl | rfl)
      · exact hlive (.inl ha)
      · exact hlive (.inr ha)
    have hrunStep : (redisPlane D calendar).step
        ⟨⟨s.world, r⟩, (left ++ t :: right).map CommandTask.toTask⟩ (.run left.length e)
          = some ⟨⟨s'.world, s'.server.redis⟩, (left ++ t' :: right).map CommandTask.toTask⟩ := by
      refine System.step_run_iff _ |>.mpr ⟨left.map CommandTask.toTask, t.toTask,
        right.map CommandTask.toTask, _, t'.toTask, ?_, List.length_map _, hstep, ?_⟩
      · simp
      · simp
    refine ⟨s'.server.redis, ⟨_, hrun.snoc hpermitted hrunStep⟩, ?_, fun _ => rfl, hown'⟩
    · refine forall_mem_split.mpr ⟨fun hinside => ?_, fun u hu hinside => ?_⟩
      · rw [houtside] at hinside
        cases hinside
      · rw [hothers u hu] at hinside
        cases hinside

/-- **Commands that run together are quota calls that are one step each.** -/
theorem redisPlane_of_together {acts : List (Act CommandTask RedisEnv)}
    {c : Conf (CreationWorld Q) CommandTask}
    (hrun : (redisCommands D).Run (RunsTogether D calendar sc) ⟨⟨World.empty q, {}⟩, []⟩ acts c) :
    ∃ r, RunsFused D calendar sc q r c := by
  refine System.Run.invariant (I := fun c => ∃ r, RunsFused D calendar sc q r c) ?_ ?_ hrun
    ⟨{}, ⟨[], rfl⟩, by simp, fun _ => rfl, by simp⟩
  · intro s ts t hok h
    obtain ⟨r, hfused⟩ := h
    exact ⟨r, hfused.start hok.1 hok.2⟩
  · intro s left t right e s' t' hok hadv h
    obtain ⟨r, hfused⟩ := h
    obtain ⟨htogether, hasks⟩ := hok t (getElem?_split_self t)
    exact hfused.run_step htogether hasks hadv

/-- **The service over Redis follows the service in memory**: when the
commands of each quota call execute together, a run is one in memory to the
same calls, rows, events and metrics, and to quotas that mirror those in
Redis. -/
theorem service_over_redis (hsep : ∀ p, sc.caller p → ':' ∉ p.agentId.toList)
    {acts : List (Act CommandTask RedisEnv)} {c : Conf (CreationWorld Q) CommandTask}
    (hrun : (redisCommands D).Run (RunsTogether D calendar sc) ⟨⟨World.empty q, {}⟩, []⟩ acts c)
    (hrest : ∀ t ∈ c.tasks, t.inside = false) :
    ∃ acts' w', RunIn D.inMemory sc ⟨World.empty {}, []⟩ acts'
        ⟨w', c.tasks.map CommandTask.toTask⟩
      ∧ Follows calendar ⟨c.world.world, c.world.server.redis⟩ w' := by
  obtain ⟨r, ⟨acts', hplane⟩, -, hredis, -⟩ := redisPlane_of_together hrun
  obtain rfl := hredis hrest
  obtain ⟨w', hmemory, hfollows⟩ := redisPlane_lockstep hsep (by simp)
    (Mirrors.follows (s := ⟨World.empty q, {}⟩) (mirrors_empty calendar)) hplane
  exact ⟨_, w', hmemory, hfollows⟩

/-! ### Runs shorter than a slot set's lifetime -/

/-- A command less than a lifetime before `final` leaves no set that ends by
then. -/
theorem redisCommands_slotsLive {final : ℚ} (h : SlotsLive s.server.redis final)
    (hafter : final < e.now + D.validSettings.slotTtl)
    (hadv : (redisCommands D).advance e s t = some (s', t')) :
    SlotsLive s'.server.redis final := by
  have hcreate : ∀ drawn redis next, SlotsLive redis final →
      SlotsLive (s.command ⟨e.env, e.now, false⟩ drawn (redis, next)).1.server.redis final := by
    intro drawn redis next hredis
    unfold CreationWorld.command
    dsimp only
    split
    next => exact h
    next => exact hredis
  have hreport : ∀ redis next, SlotsLive redis final →
      SlotsLive (s.reportCommand e (redis, next)).1.server.redis final := by
    intro redis next hredis
    unfold CreationWorld.reportCommand
    dsimp only
    split
    next => exact h
    next => exact hredis
  have hsets : ∀ {redis : Redis}, redis.sets = s.server.redis.sets → SlotsLive redis final :=
    fun hsame => (congrArg (Expiring.AllLive · final) hsame).mpr h
  simp only [redisCommands] at hadv
  split at hadv
  next =>
    cases t with
    | create call pc =>
      obtain ⟨⟨_, pc'⟩, hstep, heq⟩ := Option.map_eq_some_iff.mp hadv
      obtain ⟨rfl, rfl⟩ := Prod.mk.inj heq
      cases pc with
      | service pc =>
        obtain ⟨_, -, heq⟩ := Option.map_eq_some_iff.mp hstep
        rw [← (Prod.mk.inj heq).1]
        exact h
      | enforceRpm task =>
        obtain ⟨_, hrpm, heq⟩ := Option.map_eq_some_iff.mp hstep
        rw [← (Prod.ext_iff.mp heq).1]
        exact hcreate _ _ _ (hsets (advanceRpm_sets hrpm))
      | currentSpend =>
        rw [← (Prod.ext_iff.mp (Option.some.inj hstep)).1]
        exact hcreate _ _ _ h
      | reserve catalog policy decisionId pc =>
        obtain ⟨next, hreserve, heq⟩ := Option.map_eq_some_iff.mp hstep
        rw [← (Prod.ext_iff.mp heq).1]
        refine hcreate _ _ _ ?_
        cases pc with
        | sadd =>
          obtain rfl := Option.some.inj hreserve
          exact h.sadd
        | expire =>
          obtain rfl := Option.some.inj hreserve
          exact h.expireSet hafter
        | scard =>
          obtain rfl := Option.some.inj hreserve
          exact h
        | srem =>
          obtain rfl := Option.some.inj hreserve
          exact h.srem
        | admitted | rejected => cases hreserve
      | release decisionId err =>
        rw [← (Prod.ext_iff.mp (Option.some.inj hstep)).1]
        exact hcreate _ _ _ h.srem
      | cancelled => cases hstep
    | report call pc =>
      obtain ⟨⟨_, pc'⟩, hstep, heq⟩ := Option.map_eq_some_iff.mp hadv
      obtain ⟨rfl, rfl⟩ := Prod.mk.inj heq
      cases pc with
      | service pc =>
        obtain ⟨_, -, heq⟩ := Option.map_eq_some_iff.mp hstep
        rw [← (Prod.mk.inj heq).1]
        exact h
      | enforceRpm task =>
        cases task with
        | readClock =>
          rw [← (Prod.mk.inj (Option.some.inj hstep)).1]
          exact h
        | incr _ | expire _ _ =>
          simp only [advanceReporting] at hstep
          obtain ⟨_, hrpm, heq⟩ := Option.map_eq_some_iff.mp hstep
          rw [← (Prod.ext_iff.mp heq).1]
          exact hreport _ _ (hsets (advanceRpm_sets hrpm))
        | passed _ | refused _ => cases hstep
      | release response =>
        rw [← (Prod.ext_iff.mp (Option.some.inj hstep)).1]
        exact hreport _ _ h.srem
      | recordSpend response pc =>
        cases pc with
        | incrByFloat _ | expire _ =>
          rw [← (Prod.ext_iff.mp (Option.some.inj hstep)).1]
          exact hreport _ _ (hsets rfl)
  next => cases hadv

/-- The same runs, each step within a lifetime of the end. -/
def RunsTogetherUntil (D : RedisDeps Q) (calendar : Calendar) (sc : Scenario) (final : ℚ)
    (c : Conf (CreationWorld Q) CommandTask) : Act CommandTask RedisEnv → Prop
  | .start t => t.Started ∧ sc.caller t.principal
  | .run i e => ∀ t, c.tasks[i]? = some t → Together D calendar sc.fault c i t e
    ∧ e.now ≤ final ∧ final < e.now + D.validSettings.slotTtl

/-- No slot set is asked past its deadline in a run that short. -/
theorem runsTogether_of_until {final : ℚ} {acts : List (Act CommandTask RedisEnv)}
    {c : Conf (CreationWorld Q) CommandTask}
    (hrun : (redisCommands D).Run (RunsTogetherUntil D calendar sc final)
      ⟨⟨World.empty q, {}⟩, []⟩ acts c) :
    (redisCommands D).Run (RunsTogether D calendar sc) ⟨⟨World.empty q, {}⟩, []⟩ acts c := by
  refine hrun.strengthen ?_
  intro acts₁ c₁ a c₂ acts₂ hpre hok _ _
  have hlive : SlotsLive c₁.world.server.redis final := by
    refine System.Run.invariant (I := fun c => SlotsLive c.world.server.redis final) ?_ ?_ hpre
      (fun _ _ hentry => nomatch hentry)
    · intro s ts t _ h
      exact h
    · intro s left t right e s' t' hstep hadv h
      exact redisCommands_slotsLive h (hstep t (getElem?_split_self t)).2.2 hadv
  cases a with
  | start t => exact hok
  | run i e =>
    intro t ht
    obtain ⟨htogether, hle, -⟩ := hok t ht
    exact ⟨htogether, fun _ _ key entry hentry => (hlive key entry hentry).mono hle⟩

/-! ### A small run -/

/-- A command of the first day, at the epoch. -/
def epochEnv (uuid : String) : RedisEnv :=
  ⟨{ labEnv uuid with clock := epochCalendar.clock 0 }, 0⟩

/-- A decision; then its report and a second decision in turns, but for the
commands of a reservation and of a charge. -/
def turns : List (ℕ × String) :=
  List.replicate 11 (0, "a") ++ (List.replicate 5 [(1, "-"), (2, "b")]).flatten
    ++ List.replicate 3 (2, "b") ++ List.replicate 2 (1, "-") ++ [(2, "b"), (1, "-"), (2, "b")]

/-- A creation, its report, and a second creation. -/
def turnCalls : List CommandTask :=
  [.create keyedCall (.service keyedCall.start), .report reportCall (.ofService reportCall.start),
    .create { keyedCall with idempotencyKey := none }
      (.service { keyedCall with idempotencyKey := none }.start)]

/-- The three calls have just begun. -/
theorem turnCalls_started :
    ∀ t ∈ turnCalls, t.Started ∧ t.principal = labAgent := by
  simp only [turnCalls, List.forall_mem_cons, List.not_mem_nil, false_imp_iff, implies_true,
    and_true]
  exact ⟨⟨.create _, rfl⟩, ⟨.report _, rfl⟩, ⟨.create _, rfl⟩⟩

/-- They are made, and then take their commands. -/
def turnActs : List (Act CommandTask RedisEnv) :=
  turnCalls.map .start ++ turns.map fun p => .run p.1 (epochEnv p.2)

/-- What the trace checks at each of its steps. -/
def runsTogether (c : Conf (CreationWorld InMemoryQuota) CommandTask) :
    Act CommandTask RedisEnv → Bool
  | .start _ => true
  | .run i e => (c.tasks[i]?).all fun t =>
    (List.range c.tasks.length).all (fun j => j == i || (c.tasks[j]?).all fun u => !u.inside)
      && decide (e.now = c.world.server.now) && t.minute.all (· == minuteKey e.now)
      && (t.day e).all (· == epochCalendar.isoformat e.now)

/-- A checked step runs together. -/
theorem together_of_check {c : Conf (CreationWorld InMemoryQuota) CommandTask} {i : ℕ}
    {uuid : String} {t : CommandTask} (ht : c.tasks[i]? = some t)
    (hcheck : runsTogether c (.run i (epochEnv uuid)) = true) {caller : AgentPrincipal → Prop} :
    Together labRedis epochCalendar (ledgerRuns caller).fault c i t (epochEnv uuid) := by
  simp only [runsTogether, ht, Option.all_some, Bool.and_eq_true, decide_eq_true_eq,
    List.all_eq_true, List.mem_range, Bool.or_eq_true, beq_iff_eq] at hcheck
  obtain ⟨⟨⟨hothers, hnow⟩, hminute⟩, hday⟩ := hcheck
  refine ⟨?_, le_rfl, fun _ => hnow, ?_, ?_, fun a _ => ledgerRuns_returns caller a, nofun, nofun⟩
  · intro j u hu hne
    have houtside := (hothers j (List.getElem?_eq_some_iff.mp hu).1).resolve_left hne
    simpa [hu] using houtside
  · intro minute hm
    simpa [hm] using hminute
  · intro today hd
    simpa [hd] using hday

/-- The three calls end, and the second decision is still open. -/
theorem service_over_redis_in_turns :
    ∃ (c : Conf (CreationWorld InMemoryQuota) CommandTask) (acts' : List (Act Task Env))
      (w' : World InMemoryQuota),
      (∀ t ∈ c.tasks, t.toTask.Finished ∧ t.toTask.failure = none)
      ∧ RunIn labRedis.inMemory (ledgerRuns (· = labAgent)) ⟨World.empty {}, []⟩ acts'
        ⟨w', c.tasks.map CommandTask.toTask⟩
      ∧ Follows epochCalendar ⟨c.world.world, c.world.server.redis⟩ w' := by
  have htrace : ((redisCommands labRedis).execIf runsTogether ⟨⟨World.empty {}, {}⟩, []⟩
      turnActs).any (fun c => decide ((∀ t ∈ c.tasks, t.toTask.Finished ∧ t.toTask.failure = none)
        ∧ ∀ t ∈ c.tasks, t.inside = false)) = true := by
    decide +kernel
  obtain ⟨c, hexec, hc⟩ := (Option.any_eq_true _ _).mp htrace
  obtain ⟨hfinished, hrest⟩ := of_decide_eq_true hc
  have hrun : (redisCommands labRedis).Run
      (RunsTogetherUntil labRedis epochCalendar (ledgerRuns (· = labAgent)) 0)
      ⟨⟨World.empty {}, {}⟩, []⟩ turnActs c := by
    refine System.Run.of_execIf ?_ hexec
    intro a ha c₁ hcheck
    rcases List.mem_append.mp ha with ha | ha
    · obtain ⟨t, ht, rfl⟩ := List.mem_map.mp ha
      exact turnCalls_started t ht
    · obtain ⟨p, -, rfl⟩ := List.mem_map.mp ha
      have httl : (0 : ℚ) < 0 + labRedis.validSettings.slotTtl := by decide +kernel
      exact fun t ht => ⟨together_of_check ht hcheck, le_rfl, httl⟩
  obtain ⟨acts', w', hmemory, hfollows⟩ :=
    service_over_redis (by rintro p rfl; decide) (runsTogether_of_until hrun) hrest
  exact ⟨c, acts', w', hfinished, hmemory, hfollows⟩

end Runs

end ControlPlane
