import ControlPlane.Authorship
import ControlPlane.RedisService

/-!
# The rows over Redis

Slot sets that lapse, agent ids with a separator, a clock that jumps: the
quotas over Redis may then answer what those in memory do not, and
`redisPlane_lockstep` says nothing. The rows do not care. Whatever a quota
call answers in a step, a manager of slot sets that is told to answer
so makes the step one of the service (`redisPlane_scripted`). What holds of
the rows for every manager holds over Redis: they are the calls'
(`redis_authored`).
-/

namespace ControlPlane

open Lib

variable {Q : Type}

/-! ## Quotas that answer as they are told -/

/-- The slots of every key. -/
abbrev Slots := String × String → Finset String

/-- What a manager is told to answer. -/
structure Script where
  refusal : Option String
  spend : ℚ

/-- The answer of a call that may be refused. -/
def Script.reply (script : Script) : Except ServiceError Unit :=
  match script.refusal with
  | none => .ok ()
  | some detail => .error (.quotaExceeded detail)

/-- The only refusal is a quota's. -/
theorem Script.reply_error {script : Script} {err : ServiceError}
    (h : script.reply = .error err) : ∃ detail, err = .quotaExceeded detail := by
  unfold reply at h
  split at h
  next => cases h
  next detail _ =>
    obtain rfl := Except.error.inj h
    exact ⟨detail, rfl⟩

/-- Slot sets are kept, and what is answered is in the script. -/
def scripted (script : Script) : QuotaManager Slots where
  enforceRpm _ _ q := (q, script.reply)
  reserveConcurrency p id q :=
    (Function.update q p.quotaKey
      (if script.refusal = none then insert id (q p.quotaKey) else (q p.quotaKey).erase id),
      script.reply)
  releaseConcurrency p id q := Function.update q p.quotaKey ((q p.quotaKey).erase id)
  currentDailySpend _ _ _ := script.spend
  recordSpend _ _ _ q := q
  held q := q
  rpm_refusal h := Script.reply_error (Prod.mk.inj h).2
  rpm_held _ _ _ := rfl
  reserve_held h := by
    obtain ⟨rfl, hreply⟩ := Prod.mk.inj h
    unfold Script.reply at hreply
    split at hreply
    next hnone => rw [if_pos hnone]
    next => cases hreply
  reserve_refusal h := by
    obtain ⟨rfl, hreply⟩ := Prod.mk.inj h
    refine ⟨Script.reply_error hreply, ?_⟩
    unfold Script.reply at hreply
    split at hreply
    next => cases hreply
    next hsome => rw [if_neg (by simp [hsome])]
  release_held _ _ _ := rfl
  spend_held _ _ _ _ := rfl

/-- The same service with such a manager. -/
def RedisDeps.scripted (D : RedisDeps Q) (script : Script) : Deps Slots :=
  { quotaManager := ControlPlane.scripted script
    policies := D.policies
    settings := D.settings }

/-! ## A step -/

section Step

variable {D : RedisDeps Q} {calendar : Calendar} {e : RedisEnv} {s s' : RedisWorld Q}
  {principal : AgentPrincipal} {op : QuotaOp}

/-- An awaited quota call on both sides, once the two answer the same. -/
theorem quotaCall_scripted (q : Slots) (call : Slots × Except ServiceError Unit)
    (hcall : call.2.map (fun _ => none)
      = (RedisQuota.serve D.validSettings calendar s.redis ⟨e.now, principal, op⟩).2) :
    ∃ q' reply, awaited e.env.fault (s.world.overQuota q) ((s.world.overQuota q).withQuota call)
        = (s.world.overQuota q', reply)
      ∧ (s.quotaCall D calendar e principal op).2 = reply.map (fun _ => none) := by
  refine ⟨_, _, awaited_withQuota _ _ _, ?_⟩
  unfold RedisWorld.quotaCall
  cases e.env.fault with
  | returns => exact hcall.symm
  | raises => rfl
  | raisesAfter => rfl

/-- What `enforce_rpm` answers over Redis can be scripted. -/
theorem exists_script_enforceRpm (r : Redis) :
    ∃ script : Script, script.reply.map (fun _ => none)
      = (RedisQuota.serve D.validSettings calendar r ⟨e.now, principal, .enforceRpm⟩).2 := by
  simp only [RedisQuota.serve, RedisQuota.enforceRpm_reply]
  split
  next => exact ⟨⟨some _, 0⟩, rfl⟩
  next => exact ⟨⟨none, 0⟩, rfl⟩

/-- So can `reserve_concurrency`. -/
theorem exists_script_reserve (r : Redis) (decisionId : String) :
    ∃ script : Script, script.reply.map (fun _ => none)
      = (RedisQuota.serve D.validSettings calendar r
          ⟨e.now, principal, .reserveConcurrency decisionId⟩).2 := by
  simp only [RedisQuota.serve, RedisQuota.reserveConcurrency]
  split
  next => exact ⟨⟨some _, 0⟩, rfl⟩
  next => exact ⟨⟨none, 0⟩, rfl⟩

/-- What a step over Redis is to a scripted manager. -/
def Scripted (D : RedisDeps Q) (e : RedisEnv) (s s' : RedisWorld Q) (q : Slots) (t t' : Task) :
    Prop :=
  ∃ script q', (controlPlane (D.scripted script)).advance e.env (s.world.overQuota q) t
    = some (s'.world.overQuota q', t')

/-- An await of the service's own needs no script. -/
theorem scripted_createOwn {call : CreateCall} {pc pc' : CreatePc} (q : Slots)
    (hown : ∀ a, (Task.create call pc).await = some a → a.Own)
    (hadv : (advanceCreate D.toDeps e.env s.world call pc).map (fun next =>
      ({ s with world := next.1 }, next.2)) = some (s', pc')) :
    Scripted D e s s' q (.create call pc) (.create call pc') := by
  obtain ⟨⟨world, _⟩, hnext, heq⟩ := Option.map_eq_some_iff.mp hadv
  obtain ⟨rfl, rfl⟩ := Prod.mk.inj heq
  have hmemory := @advanceCreate_overQuota Q Slots D.toDeps (D.scripted ⟨none, 0⟩) e.env
    e.env.clock rfl rfl s.world q call pc hown
  rw [hnext] at hmemory
  refine ⟨⟨none, 0⟩, q, ?_⟩
  show (advanceCreate _ _ _ _ _).map _ = _
  rw [hmemory]
  rfl

/-- The same of a report. -/
theorem scripted_outcomeOwn {call : OutcomeCall} {pc pc' : OutcomePc} (q : Slots)
    (hown : ∀ a, (Task.outcome call pc).await = some a → a.Own)
    (hadv : (advanceOutcome D.toDeps e.env s.world call pc).map (fun next =>
      ({ s with world := next.1 }, next.2)) = some (s', pc')) :
    Scripted D e s s' q (.outcome call pc) (.outcome call pc') := by
  obtain ⟨⟨world, _⟩, hnext, heq⟩ := Option.map_eq_some_iff.mp hadv
  obtain ⟨rfl, rfl⟩ := Prod.mk.inj heq
  have hmemory := @advanceOutcome_overQuota Q Slots e.env e.env.clock D.toDeps
    (D.scripted ⟨none, 0⟩) s.world q call pc hown
  rw [hnext] at hmemory
  refine ⟨⟨none, 0⟩, q, ?_⟩
  show (advanceOutcome _ _ _ _ _).map _ = _
  rw [hmemory]
  rfl

/-- One step of a creation. -/
theorem scripted_create {call : CreateCall} {pc pc' : CreatePc} (q : Slots)
    (hadv : advanceCreateOverRedis D calendar e s call pc = some (s', pc')) :
    Scripted D e s s' q (.create call pc) (.create call pc') := by
  -- What is left of each case is the continuation, which reads the reply.
  have hstep : ∀ script q', advanceCreate (D.scripted script) e.env (s.world.overQuota q) call pc
      = some (s'.world.overQuota q', pc') → Scripted D e s s' q (.create call pc)
        (.create call pc') := by
    intro script q' h
    refine ⟨script, q', ?_⟩
    show (advanceCreate _ _ _ _ _).map _ = _
    rw [h]
    rfl
  cases pc with
  | enforceRpm =>
    obtain ⟨script, hscript⟩ := @exists_script_enforceRpm Q D calendar e call.principal s.redis
    obtain ⟨q', reply, haw, hreply⟩ := quotaCall_scripted q (q, script.reply) hscript
    obtain ⟨rfl, rfl⟩ := Prod.mk.inj (Option.some.inj hadv)
    refine hstep script q' ?_
    simp only [advanceCreate]
    rw [show (D.scripted script).quotaManager.enforceRpm e.env.clock call.principal
      (s.world.overQuota q).quota = (q, script.reply) from rfl, haw, hreply]
    cases reply with
    | error err => rfl
    | ok _ => rfl
  | currentSpend =>
    obtain ⟨rfl, rfl⟩ := Prod.mk.inj (Option.some.inj hadv)
    generalize hspend : RedisQuota.currentDailySpend e.now (calendar.isoformat e.now)
      call.principal s.redis = spend
    have hcalled : s.quotaCall D calendar e call.principal .currentDailySpend
        = (s, (faulted e.env.fault s.redis (s.redis, .ok (some spend))).2) := by
      unfold RedisWorld.quotaCall RedisQuota.serve
      dsimp only
      rw [hspend]
      cases e.env.fault <;> rfl
    refine hstep ⟨none, spend⟩ q ?_
    simp only [advanceCreate]
    rw [hcalled]
    cases e.env.fault with
    | returns =>
      -- The script answers with the spend that Redis had, so both admit alike.
      have hspent : (D.scripted ⟨none, spend⟩).quotaManager.currentDailySpend e.env.clock
          call.principal (s.world.overQuota q).quota = spend := rfl
      have hdeps : admission (D.scripted ⟨none, spend⟩) e.env.catalog call spend
          = admission D.toDeps e.env.catalog call spend := rfl
      simp only [awaited, faulted, hspent, hdeps, Option.getD_some]
      rcases admission D.toDeps e.env.catalog call spend with err | ⟨catalog, policy⟩
      · rfl
      · rfl
    | raises => rfl
    | raisesAfter => rfl
  | reserve catalog policy decisionId =>
    obtain ⟨script, hscript⟩ := @exists_script_reserve Q D calendar e call.principal s.redis
      decisionId
    obtain ⟨q', reply, haw, hreply⟩ := quotaCall_scripted q
      ((ControlPlane.scripted script).reserveConcurrency call.principal decisionId q) hscript
    obtain ⟨rfl, rfl⟩ := Prod.mk.inj (Option.some.inj hadv)
    refine hstep script q' ?_
    simp only [advanceCreate]
    rw [show (D.scripted script).quotaManager.reserveConcurrency call.principal decisionId
      (s.world.overQuota q).quota = (ControlPlane.scripted script).reserveConcurrency
        call.principal decisionId q from rfl, haw, hreply]
    cases reply with
    | error err => rfl
    | ok _ => rfl
  | release decisionId err =>
    obtain ⟨q', reply, haw, hreply⟩ := @quotaCall_scripted Q D calendar e s call.principal
      (.releaseConcurrency decisionId) q
      ((ControlPlane.scripted ⟨none, 0⟩).releaseConcurrency call.principal decisionId q, .ok ())
      rfl
    obtain ⟨rfl, rfl⟩ := Prod.mk.inj (Option.some.inj hadv)
    refine hstep ⟨none, 0⟩ q' ?_
    simp only [advanceCreate]
    rw [show ((s.world.overQuota q).releaseSlot (D.scripted ⟨none, 0⟩) call.principal decisionId,
        Except.ok ()) = (s.world.overQuota q).withQuota ((ControlPlane.scripted
          ⟨none, 0⟩).releaseConcurrency call.principal decisionId q, .ok ()) from rfl, haw, hreply]
    cases reply with
    | error err' => rfl
    | ok _ => rfl
  | lookup | ensureCatalog _ _ | ensurePolicies _ _ | getSignals _ _ _ | storeDecision _ =>
    exact scripted_createOwn q (by rintro _ ⟨⟩; decide) hadv
  | returned drawn response => cases hadv
  | raised drawn err => cases hadv

/-- One step of a report. -/
theorem scripted_outcome {call : OutcomeCall} {pc pc' : OutcomePc} (q : Slots)
    (hadv : advanceOutcomeOverRedis D calendar e s call pc = some (s', pc')) :
    Scripted D e s s' q (.outcome call pc) (.outcome call pc') := by
  have hstep : ∀ script q', advanceOutcome (D.scripted script) e.env (s.world.overQuota q) call pc
      = some (s'.world.overQuota q', pc') → Scripted D e s s' q (.outcome call pc)
        (.outcome call pc') := by
    intro script q' h
    refine ⟨script, q', ?_⟩
    show (advanceOutcome _ _ _ _ _).map _ = _
    rw [h]
    rfl
  cases pc with
  | enforceRpm =>
    obtain ⟨script, hscript⟩ := @exists_script_enforceRpm Q D calendar e call.principal s.redis
    obtain ⟨q', reply, haw, hreply⟩ := quotaCall_scripted q (q, script.reply) hscript
    obtain ⟨rfl, rfl⟩ := Prod.mk.inj (Option.some.inj hadv)
    refine hstep script q' ?_
    simp only [advanceOutcome]
    rw [show (D.scripted script).quotaManager.enforceRpm e.env.clock call.principal
      (s.world.overQuota q).quota = (q, script.reply) from rfl, haw, hreply]
    cases reply with
    | error err => rfl
    | ok _ => rfl
  | release response =>
    obtain ⟨q', reply, haw, hreply⟩ := @quotaCall_scripted Q D calendar e s call.principal
      (.releaseConcurrency call.outcome.decisionId) q
      ((ControlPlane.scripted ⟨none, 0⟩).releaseConcurrency call.principal
        call.outcome.decisionId q, .ok ()) rfl
    obtain ⟨rfl, rfl⟩ := Prod.mk.inj (Option.some.inj hadv)
    refine hstep ⟨none, 0⟩ q' ?_
    simp only [advanceOutcome]
    rw [show ((s.world.overQuota q).releaseSlot (D.scripted ⟨none, 0⟩) call.principal
        call.outcome.decisionId, Except.ok ()) = (s.world.overQuota q).withQuota
          ((ControlPlane.scripted ⟨none, 0⟩).releaseConcurrency call.principal
            call.outcome.decisionId q, .ok ()) from rfl, haw, hreply]
    cases reply with
    | error err => rfl
    | ok _ => rfl
  | recordSpend response =>
    obtain ⟨q', reply, haw, hreply⟩ := @quotaCall_scripted Q D calendar e s call.principal
      (.recordSpend call.outcome.finalCostUsd) q (q, .ok ()) rfl
    obtain ⟨rfl, rfl⟩ := Prod.mk.inj (Option.some.inj hadv)
    refine hstep ⟨none, 0⟩ q' ?_
    simp only [advanceOutcome]
    rw [show ((s.world.overQuota q).chargeSpend (D.scripted ⟨none, 0⟩) e.env.clock call,
        Except.ok ()) = (s.world.overQuota q).withQuota (q, .ok ()) from rfl, haw, hreply]
    cases reply with
    | error err => rfl
    | ok _ => rfl
  | getContext | storeOutcome _ | publish _ =>
    exact scripted_outcomeOwn q (by rintro _ ⟨⟩; decide) hadv
  | returned response => cases hadv
  | raised err => cases hadv

/-- **A step over Redis is one of the service, under a manager that answers
what Redis did.** -/
theorem redisPlane_scripted {t t' : Task} (q : Slots)
    (hadv : (redisPlane D calendar).advance e s t = some (s', t')) :
    Scripted D e s s' q t t' := by
  cases t with
  | create call pc =>
    obtain ⟨⟨_, pc'⟩, hstep, heq⟩ := Option.map_eq_some_iff.mp hadv
    obtain ⟨rfl, rfl⟩ := Prod.mk.inj heq
    exact scripted_create q hstep
  | outcome call pc =>
    obtain ⟨⟨_, pc'⟩, hstep, heq⟩ := Option.map_eq_some_iff.mp hadv
    obtain ⟨rfl, rfl⟩ := Prod.mk.inj heq
    exact scripted_outcome q hstep

end Step

/-! ## Whole runs -/

/-- Who a manager is matters to the ids through its slot sets alone. -/
theorem Provenance.of_held {Q' : Type} {D D' : Deps Q'} {c : Conf (World Q') Task}
    (h : Provenance D c) (hheld : D'.quotaManager.held = D.quotaManager.held) :
    Provenance D' c := by
  refine ⟨h.toDrawnOnce, h.rows_nodup, h.rows_issued, h.unstored, ?_, ?_, ?_⟩
  · rw [hheld]
    exact h.held_issued
  · rw [hheld]
    exact h.unreserved
  · rw [hheld]
    exact h.held_owner

/-- What holds of the rows over Redis, with slot sets that nobody sees. -/
structure RedisAuthored (D : RedisDeps Q) (caller : AgentPrincipal → Prop) (q : Slots)
    (c : Conf (RedisWorld Q) Task) : Prop where
  authored : Authored ⟨c.world.world.overQuota q, c.tasks⟩
  provenance : Provenance (D.scripted ⟨none, 0⟩) ⟨c.world.world.overQuota q, c.tasks⟩
  context : RowContext ⟨caller, fun _ _ => True⟩ ⟨c.world.world.overQuota q, c.tasks⟩

section Kept

variable {D : RedisDeps Q} {caller : AgentPrincipal → Prop} {q q' : Slots} {s s' : RedisWorld Q}

/-- An empty deployment. -/
theorem RedisAuthored.empty {q₀ : Q} :
    RedisAuthored D caller (fun _ => ∅) ⟨⟨World.empty q₀, {}⟩, []⟩ :=
  ⟨Authored.empty, Provenance.empty fun _ => rfl, RowContext.empty⟩

/-- One more call that has just begun. -/
theorem RedisAuthored.start {ts : List Task} {t : Task} (h : RedisAuthored D caller q ⟨s, ts⟩)
    (hstarted : t.Started) (hcaller : caller t.principal) :
    RedisAuthored D caller q ⟨s, ts ++ [t]⟩ :=
  ⟨h.authored.start hstarted, h.provenance.start hstarted, h.context.start hstarted hcaller⟩

/-- A step under any script. -/
theorem RedisAuthored.run {script : Script} {env : Env} {l r : List Task} {t t' : Task}
    (h : RedisAuthored D caller q ⟨s, l ++ t :: r⟩)
    (hstep : (controlPlane (D.scripted script)).advance env (s.world.overQuota q) t
      = some (s'.world.overQuota q', t')) : RedisAuthored D caller q' ⟨s', l ++ t' :: r⟩ := by
  obtain ⟨hauthored, hprov, hctx⟩ := h
  have hprov' : Provenance (D.scripted script) ⟨s.world.overQuota q, l ++ t :: r⟩ :=
    hprov.of_held rfl
  exact ⟨hauthored.run hstep hprov.rows_nodup hctx,
    (hprov'.run (advance_idStep hstep)).of_held rfl, hctx.run hstep⟩

end Kept

/-- **Every row over Redis was written by calls of the run**, whatever its
quota calls answer and whatever fails. -/
theorem redis_authored {D : RedisDeps Q} {calendar : Calendar} {q₀ : Q}
    {ok : Conf (RedisWorld Q) Task → Act Task RedisEnv → Prop} {caller : AgentPrincipal → Prop}
    (hstart : ∀ c t, ok c (.start t) → t.Started ∧ caller t.principal)
    {acts : List (Act Task RedisEnv)} {c : Conf (RedisWorld Q) Task}
    (hrun : (redisPlane D calendar).Run ok ⟨⟨World.empty q₀, {}⟩, []⟩ acts c) :
    ∃ q, RedisAuthored D caller q c := by
  refine System.Run.invariant (I := fun c => ∃ q, RedisAuthored D caller q c) ?_ ?_ hrun
    ⟨_, RedisAuthored.empty⟩
  · intro s ts t hok h
    obtain ⟨q, hauthored⟩ := h
    obtain ⟨hstarted, hcaller⟩ := hstart _ _ hok
    exact ⟨q, hauthored.start hstarted hcaller⟩
  · intro s l t r e s' t' _ hadv h
    obtain ⟨q, hauthored⟩ := h
    obtain ⟨script, q', hstep⟩ := redisPlane_scripted q hadv
    exact ⟨q', hauthored.run hstep⟩

end ControlPlane
