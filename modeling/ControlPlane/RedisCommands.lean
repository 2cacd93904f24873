import ControlPlane.RedisRows

/-!
# The service over Redis, command by command

Both calls of the service with each await of a quota call the Redis command it
is. Any number of them interleave at any of these points, and a command fails
like any other await: before its effect or after it.

Between two commands of a quota call the service sees nothing. So each step
is no step of the service or one, under a manager that answers what Redis did
(`redisCommands_step`), and what holds of the rows for every manager holds
here (`CommandsAuthored`). What the manager's slot sets are to those in Redis
is in `SlotsMove`: an id is added to both or taken out of both, but in Redis
it is there from its `SADD` on, in the other set from the `SCARD` that admits
it.

Mirroring notes:
- `create_decision` is `advanceCreation`; no task is cancelled here.
- `enforce_rpm` reads its clock before the first await, `record_spend` its
  date; both are read again by nobody.
- Every step executes at an instant, and instants do not go back.
-/

namespace ControlPlane

open Lib

variable {Q : Type}

/-! ## The calls -/

/-- The commands of `record_spend`, sent to the key of one day. -/
inductive SpendPc
  | incrByFloat (today : String)
  | expire (today : String)

/-- The awaits of `record_outcome`: the quota's, command by command, and the rest. -/
inductive ReportingPc
  | service (pc : OutcomePc)
  | enforceRpm (task : RpmTask)
  | release (response : RoutingOutcomeResponse)
  | recordSpend (response : RoutingOutcomeResponse) (pc : SpendPc)

/-- A call of the service, at one of its awaits or commands. -/
inductive CommandTask
  | create (call : CreateCall) (pc : CreationPc)
  | report (call : OutcomeCall) (pc : ReportingPc)

/-- On to the service's next await. -/
def ReportingPc.ofService : OutcomePc → ReportingPc
  | .enforceRpm => .enforceRpm .readClock
  | .release response => .release response
  | pc => .service pc

/-- A Redis command that would take the store to `next.1` and the call to
`next.2`. -/
def CreationWorld.reportCommand (e : RedisEnv) (s : CreationWorld Q) (next : Redis × ReportingPc) :
    CreationWorld Q × ReportingPc :=
  ({ s with
      server := ⟨if e.env.fault = .raises then s.server.redis else next.1, e.now⟩ },
    if e.env.fault = .returns then next.2 else .service (.raised .unavailable))

/-- One command of a report, or one await of the service's own. -/
def advanceReporting (D : RedisDeps Q) (call : OutcomeCall) (e : RedisEnv) (s : CreationWorld Q) :
    ReportingPc → Option (CreationWorld Q × ReportingPc)
  | .service pc =>
    (advanceOutcome D.toDeps e.env s.world call pc).map fun next =>
      (⟨next.1, s.server.redis, e.now⟩, .ofService next.2)
  -- The clock is no await: it is read when the call starts.
  | .enforceRpm .readClock =>
    some ({ s with server := ⟨s.server.redis, e.now⟩ }, .enforceRpm (.incr (minuteKey e.now)))
  | .enforceRpm task =>
    (advanceRpm call.principal e.now s.server.redis task).map fun next =>
      s.reportCommand e (next.1,
        match next.2 with
        | .passed _ => .service .getContext
        | .refused _ => .service (.raised (.quotaExceeded "agent RPM exceeded"))
        | task => .enforceRpm task)
  | .release response =>
    some (s.reportCommand e
      (RedisQuota.releaseConcurrency e.now call.principal call.outcome.decisionId s.server.redis,
        .recordSpend response (.incrByFloat e.env.clock.today)))
  | .recordSpend response (.incrByFloat today) =>
    some (s.reportCommand e
      (s.server.redis.incrByFloat e.now (budgetKey call.principal.quotaKey today)
        call.outcome.finalCostUsd, .recordSpend response (.expire today)))
  | .recordSpend response (.expire today) =>
    some (s.reportCommand e
      (s.server.redis.expireFloat e.now (budgetKey call.principal.quotaKey today) (86400 * 7),
        .service (.publish response)))

/-- A step of either call. -/
def advanceCommand (D : RedisDeps Q) (e : RedisEnv) (s : CreationWorld Q) :
    CommandTask → Option (CreationWorld Q × CommandTask)
  | .create call pc =>
    (advanceCreation D call ⟨e.env, e.now, false⟩ s pc).map fun next =>
      (next.1, .create call next.2)
  | .report call pc =>
    (advanceReporting D call e s pc).map fun next => (next.1, .report call next.2)

/-- The control plane over Redis, with a step for each command. -/
def redisCommands (D : RedisDeps Q) : System (CreationWorld Q) CommandTask RedisEnv where
  advance e s t := if s.server.now ≤ e.now then advanceCommand D e s t else none

/-! ## Where the service stands -/

/-- The service's await around the command. -/
def CreationPc.toCreatePc : CreationPc → CreatePc
  | .service pc => pc
  | .enforceRpm _ => .enforceRpm
  | .currentSpend => .currentSpend
  | .reserve catalog policy decisionId _ => .reserve catalog policy decisionId
  | .release decisionId err => .release decisionId err
  | .cancelled => .raised none .unavailable

/-- The await that a report's command belongs to. -/
def ReportingPc.toOutcomePc : ReportingPc → OutcomePc
  | .service pc => pc
  | .enforceRpm _ => .enforceRpm
  | .release response => .release response
  | .recordSpend response _ => .recordSpend response

/-- The first command belongs to the await it stands for. -/
@[simp]
theorem toCreatePc_ofService (now : ℚ) (pc : CreatePc) :
    (CreationPc.ofService now pc).toCreatePc = pc := by
  cases pc <;> rfl

/-- So does that of a report. -/
@[simp]
theorem toOutcomePc_ofService (pc : OutcomePc) : (ReportingPc.ofService pc).toOutcomePc = pc := by
  cases pc <;> rfl

namespace CommandTask

/-- The call as the service knows it. -/
def toTask : CommandTask → Task
  | create call pc => .create call pc.toCreatePc
  | report call pc => .outcome call pc.toOutcomePc

/-- Who makes the call. -/
def principal (t : CommandTask) : AgentPrincipal :=
  t.toTask.principal

/-- A call that has just been made. -/
inductive Started : CommandTask → Prop
  | create (call : CreateCall) : Started (.create call (.service call.start))
  | report (call : OutcomeCall) : Started (.report call (.ofService call.start))

/-- Away from its commands a call stands at an await of the service's own. -/
def AtOwn : CommandTask → Prop
  | create call (.service pc) => ∀ a, (Task.create call pc).await = some a → a.Own
  | create _ .cancelled => False
  -- `ofService` has read the clock already.
  | create _ (.enforceRpm .readClock) => False
  | report call (.service pc) => ∀ a, (Task.outcome call pc).await = some a → a.Own
  | _ => True

/-- A call that has ended awaits nothing. -/
theorem AtOwn.create_ended {call : CreateCall} {pc : CreatePc}
    (h : (Task.create call pc).await = none) :
    (CommandTask.create call (.service pc)).AtOwn := by
  intro a ha
  rw [h] at ha
  cases ha

/-- The same of a report. -/
theorem AtOwn.report_ended {call : OutcomeCall} {pc : OutcomePc}
    (h : (Task.outcome call pc).await = none) :
    (CommandTask.report call (.service pc)).AtOwn := by
  intro a ha
  rw [h] at ha
  cases ha

/-- The id in the slot set of a reservation that has not been answered. -/
def waiting : CommandTask → Option String
  | create _ (.reserve _ _ decisionId .expire) => some decisionId
  | create _ (.reserve _ _ decisionId .scard) => some decisionId
  | create _ (.reserve _ _ decisionId .srem) => some decisionId
  | _ => none

/-- It has just begun for the service too. -/
theorem Started.toTask {t : CommandTask} (h : Started t) : t.toTask.Started := by
  cases h with
  | create call => exact .create call
  | report call =>
    simp only [CommandTask.toTask, toOutcomePc_ofService]
    exact .outcome call

end CommandTask

/-- Past an await the service goes to one of its own, or to a first command. -/
theorem atOwn_create (call : CreateCall) (now : ℚ) (pc : CreatePc) :
    (CommandTask.create call (.ofService now pc)).AtOwn
      ∧ (CommandTask.create call (.ofService now pc)).waiting = none := by
  cases pc with
  | enforceRpm | currentSpend | reserve _ _ _ | release _ _ => exact ⟨trivial, rfl⟩
  | returned _ _ | raised _ _ => exact ⟨.create_ended rfl, rfl⟩
  | _ =>
    refine ⟨?_, rfl⟩
    rintro _ ⟨⟩
    decide

/-- The same of a report, but for its charge. -/
theorem atOwn_report (call : OutcomeCall) (pc : OutcomePc) (hpc : ∀ r, pc ≠ .recordSpend r) :
    (CommandTask.report call (.ofService pc)).AtOwn := by
  cases pc with
  | enforceRpm | release _ => trivial
  | recordSpend response => exact absurd rfl (hpc response)
  | returned _ | raised _ => exact .report_ended rfl
  | _ =>
    rintro _ ⟨⟩
    decide

/-! ## One step -/

/-- What a step is for the service: nothing, or a step under a manager that
answers as it is told. At an await of the service's own it ends alike. -/
inductive CommandImage (D : RedisDeps Q) (e : RedisEnv) (w w' : World Q) (q q' : Slots)
    (t t' : Task) : Prop
  | nothing (hworld : w' = w) (hq : q' = q) (htask : t' = t)
  | steps (script : Script) (env : Env)
      (hfault : ∀ a, t.await = some a → a.Own → env.fault = e.env.fault)
      (hadv : (controlPlane (D.scripted script)).advance env (w.overQuota q) t
        = some (w'.overQuota q', t'))

/-- What a step does to the slot sets: those in Redis, and the ids admitted
and not released. -/
inductive SlotsMove (e : RedisEnv) (r r' : Redis) (q q' : Slots) (t t' : CommandTask) : Prop
  | aside (hheld : ∀ key, r'.heldAt key = r.heldAt key) (hq : q' = q)
      (hafter : t'.waiting = none ∨ t'.waiting = t.waiting)
  | added {id : String} (hawait : t.toTask.await = some .reserveConcurrency)
      (hheld : ∀ key, r'.heldAt key = if key = concurrencyKey t.principal.quotaKey then
        insert id (r.smembers e.now (concurrencyKey t.principal.quotaKey)) else r.heldAt key)
      (hq : q' = q) (hafter : t'.waiting = none ∨ t'.waiting = some id)
  | admitted {id : String} (hawait : t.toTask.await = some .reserveConcurrency)
      (hbefore : t.waiting = some id)
      (hle : ((r.smembers e.now (concurrencyKey t.principal.quotaKey)).card : ℤ)
        ≤ t.principal.concurrentLimit)
      (hheld : r' = r)
      (hq : q' = Function.update q t.principal.quotaKey (insert id (q t.principal.quotaKey)))
      (hafter : t'.waiting = none)
  | removed {id : String}
      (hawait : t.toTask.await = some .reserveConcurrency
        ∨ t.toTask.await = some .releaseConcurrency)
      (hbefore : t.waiting = some id ∨ id ∈ t.toTask.stage.slots t.principal.quotaKey)
      (hheld : ∀ key, r'.heldAt key = if key = concurrencyKey t.principal.quotaKey then
        (r.smembers e.now (concurrencyKey t.principal.quotaKey)).erase id else r.heldAt key)
      (hq : q' = Function.update q t.principal.quotaKey ((q t.principal.quotaKey).erase id))
      (hafter : t'.waiting = none)

/-- Both, from given slot sets on. -/
structure CommandStepped (D : RedisDeps Q) (e : RedisEnv) (s s' : CreationWorld Q) (q q' : Slots)
    (t t' : CommandTask) : Prop where
  atOwn : t'.AtOwn
  image : CommandImage D e s.world s'.world q q' t.toTask t'.toTask
  slots : SlotsMove e s.server.redis s'.server.redis q q' t t'

section Step

variable {D : RedisDeps Q} {e : RedisEnv} {s s' : CreationWorld Q} {q : Slots}

/-- A command that returns. -/
theorem command_of_returns (h : e.env.fault = .returns) (drawn : Option String)
    (next : Redis × CreationPc) :
    s.command ⟨e.env, e.now, false⟩ drawn next = (⟨s.world, next.1, e.now⟩, next.2) := by
  simp [CreationWorld.command, h]

/-- A command that raises; it may have taken effect. -/
theorem command_of_fails (h : e.env.fault ≠ .returns) (drawn : Option String)
    (next : Redis × CreationPc) :
    s.command ⟨e.env, e.now, false⟩ drawn next
      = (⟨s.world, if e.env.fault = .raises then s.server.redis else next.1, e.now⟩,
        .service (.raised drawn .unavailable)) := by
  simp [CreationWorld.command, h]

/-- A report's command that returns. -/
theorem reportCommand_of_returns (h : e.env.fault = .returns) (next : Redis × ReportingPc) :
    s.reportCommand e next = (⟨s.world, next.1, e.now⟩, next.2) := by
  simp [CreationWorld.reportCommand, h]

/-- A report's command that raises. -/
theorem reportCommand_of_fails (h : e.env.fault ≠ .returns) (next : Redis × ReportingPc) :
    s.reportCommand e next
      = (⟨s.world, if e.env.fault = .raises then s.server.redis else next.1, e.now⟩,
        .service (.raised .unavailable)) := by
  simp [CreationWorld.reportCommand, h]

/-- A command that fails is a quota call that raises at once. -/
theorem CommandImage.createRaises {call : CreateCall} {pc : CreatePc} {w : World Q} {a : Await}
    (ha : (Task.create call pc).await = some a) (hquota : ¬ a.Own) :
    CommandImage D e w w q q (.create call pc)
      (.create call (.raised (Task.create call pc).drawn .unavailable)) := by
  refine .steps ⟨none, 0⟩ { e.env with fault := .raises } ?_ ?_
  · intro a' ha' hown
    exact absurd (Option.some.inj (ha.symm.trans ha') ▸ hown) hquota
  · cases pc with
    | enforceRpm | currentSpend | reserve _ _ _ | release _ _ => rfl
    | returned _ _ | raised _ _ => cases ha
    | _ =>
      obtain rfl := Option.some.inj ha
      exact absurd (by decide) hquota

/-- A report's await may raise with nothing done. -/
theorem CommandImage.reportRaises {call : OutcomeCall} {pc : OutcomePc} {w : World Q} {a : Await}
    (ha : (Task.outcome call pc).await = some a) (hquota : ¬ a.Own) :
    CommandImage D e w w q q (.outcome call pc) (.outcome call (.raised .unavailable)) := by
  refine .steps ⟨none, 0⟩ { e.env with fault := .raises } ?_ ?_
  · intro a' ha' hown
    exact absurd (Option.some.inj (ha.symm.trans ha') ▸ hown) hquota
  · cases pc with
    | enforceRpm | release _ | recordSpend _ => rfl
    | returned _ | raised _ => cases ha
    | _ =>
      obtain rfl := Option.some.inj ha
      exact absurd (by decide) hquota

/-- A command that touches no slot set. -/
theorem CommandStepped.createAside {call : CreateCall} {pc next : CreationPc} {redis : Redis}
    {a : Await} (ha : (Task.create call pc.toCreatePc).await = some a) (hquota : ¬ a.Own)
    (hheld : ∀ key, redis.heldAt key = s.server.redis.heldAt key)
    (himage : CommandImage D e s.world s.world q q (.create call pc.toCreatePc)
      (.create call next.toCreatePc))
    (hatOwn : (CommandTask.create call next).AtOwn)
    (hafter : (CommandTask.create call next).waiting = none
      ∨ (CommandTask.create call next).waiting = (CommandTask.create call pc).waiting) :
    CommandStepped D e s
      (s.command ⟨e.env, e.now, false⟩ (Task.create call pc.toCreatePc).drawn (redis, next)).1 q q
      (.create call pc) (.create call
        (s.command ⟨e.env, e.now, false⟩ (Task.create call pc.toCreatePc).drawn (redis, next)).2)
      := by
  by_cases hreturns : e.env.fault = .returns
  · rw [command_of_returns hreturns]
    exact ⟨hatOwn, himage, .aside hheld rfl hafter⟩
  · rw [command_of_fails hreturns]
    refine ⟨.create_ended rfl, .createRaises ha hquota, .aside ?_ rfl (.inl rfl)⟩
    intro key
    dsimp only
    split
    next => rfl
    next => exact hheld key

/-- A report's command that touches no slot set. -/
theorem CommandStepped.reportAside {call : OutcomeCall} {pc next : ReportingPc} {redis : Redis}
    {a : Await} (ha : (Task.outcome call pc.toOutcomePc).await = some a) (hquota : ¬ a.Own)
    (hsets : redis.sets = s.server.redis.sets)
    (himage : CommandImage D e s.world s.world q q (.outcome call pc.toOutcomePc)
      (.outcome call next.toOutcomePc))
    (hatOwn : (CommandTask.report call next).AtOwn) :
    CommandStepped D e s (s.reportCommand e (redis, next)).1 q q (.report call pc)
      (.report call (s.reportCommand e (redis, next)).2) := by
  by_cases hreturns : e.env.fault = .returns
  · rw [reportCommand_of_returns hreturns]
    exact ⟨hatOwn, himage, .aside (Redis.heldAt_of_sets hsets) rfl (.inl rfl)⟩
  · rw [reportCommand_of_fails hreturns]
    refine ⟨.report_ended rfl, .reportRaises ha hquota, .aside ?_ rfl (.inl rfl)⟩
    intro key
    dsimp only
    split
    next => rfl
    next => exact Redis.heldAt_of_sets hsets key

/-- The commands of `enforce_rpm`. -/
theorem commandStepped_createRpm {call : CreateCall} {task : RpmTask} {pc' : CreationPc}
    (hown : (CommandTask.create call (.enforceRpm task)).AtOwn)
    (hadv : advanceCreation D call ⟨e.env, e.now, false⟩ s (.enforceRpm task) = some (s', pc')) :
    CommandStepped D e s s' q q (.create call (.enforceRpm task)) (.create call pc') := by
  obtain ⟨⟨redis, task'⟩, hrpm, heq⟩ := Option.map_eq_some_iff.mp hadv
  obtain ⟨rfl, rfl⟩ := Prod.ext_iff.mp heq
  have hsets := advanceRpm_sets hrpm
  refine .createAside (a := .enforceRpm) rfl (by decide) (Redis.heldAt_of_sets hsets) ?_ ?_
    (.inl ?_)
  · cases task' with
    | passed minute =>
      exact .steps ⟨none, 0⟩ { e.env with fault := .returns }
        (by rintro _ ⟨⟩ hown; exact absurd hown (by decide)) rfl
    | refused minute =>
      exact .steps ⟨some "agent RPM exceeded", 0⟩
        { e.env with fault := .returns }
        (by rintro _ ⟨⟩ hown; exact absurd hown (by decide)) rfl
    | _ => exact .nothing rfl rfl rfl
  · cases task' with
    | readClock =>
      -- No command of the call reads the clock again.
      cases task with
      | readClock => cases hown
      | incr minute =>
        have hnext := (Prod.mk.inj (Option.some.inj hrpm)).2
        unfold rpmAnswer at hnext
        split_ifs at hnext
      | expire minute count =>
        have hnext := (Prod.mk.inj (Option.some.inj hrpm)).2
        unfold rpmAnswer at hnext
        split_ifs at hnext
      | passed minute | refused minute => cases hrpm
    | refused minute => exact .create_ended rfl
    | _ => trivial
  · cases task' <;> rfl

/-- The spend is read, and a manager that says the same admits alike. -/
theorem commandStepped_currentSpend {call : CreateCall} {pc' : CreationPc}
    (hadv : advanceCreation D call ⟨e.env, e.now, false⟩ s .currentSpend = some (s', pc')) :
    CommandStepped D e s s' q q (.create call .currentSpend) (.create call pc') := by
  simp only [advanceCreation] at hadv
  generalize RedisQuota.currentDailySpend e.now e.env.clock.today call.principal
    s.server.redis = spend at hadv
  obtain ⟨rfl, rfl⟩ := Prod.ext_iff.mp (Option.some.inj hadv)
  refine .createAside (a := .currentDailySpend) rfl (by decide) (fun _ => rfl) ?_ ?_ (.inl ?_)
  · refine .steps ⟨none, spend⟩ { e.env with fault := .returns }
      (by rintro _ ⟨⟩ hown; exact absurd hown (by decide)) ?_
    show (advanceCreate (D.scripted ⟨none, spend⟩) { e.env with fault := .returns }
      (s.world.overQuota q) call .currentSpend).map _ = _
    have hadmission : admission (D.scripted ⟨none, spend⟩) e.env.catalog call
          ((D.scripted ⟨none, spend⟩).quotaManager.currentDailySpend e.env.clock call.principal
            (s.world.overQuota q).quota)
        = admission D.toDeps e.env.catalog call spend :=
      rfl
    simp only [advanceCreate, awaited, hadmission]
    rcases admission D.toDeps e.env.catalog call spend with err | ⟨catalog, policy⟩
    · rfl
    · rfl
  · rcases admission D.toDeps e.env.catalog call spend with err | ⟨catalog, policy⟩
    · exact .create_ended rfl
    · rintro _ ⟨⟩
      decide
  · rcases admission D.toDeps e.env.catalog call spend with err | ⟨catalog, policy⟩
    · rfl
    · rfl

/-- The commands of `reserve_concurrency`. -/
theorem commandStepped_reserve {call : CreateCall} {catalog : CatalogSnapshot}
    {policy : RoutingPolicy} {decisionId : String} {pc : ReservePc} {pc' : CreationPc}
    (hadv : advanceCreation D call ⟨e.env, e.now, false⟩ s (.reserve catalog policy decisionId pc)
      = some (s', pc')) :
    ∃ q', CommandStepped D e s s' q q' (.create call (.reserve catalog policy decisionId pc))
      (.create call pc') := by
  obtain ⟨next, hreserve, heq⟩ := Option.map_eq_some_iff.mp hadv
  obtain ⟨rfl, rfl⟩ := Prod.ext_iff.mp heq
  have hquota : ¬ Await.reserveConcurrency.Own := by decide
  cases pc with
  | sadd =>
    obtain rfl := Option.some.inj hreserve
    refine ⟨q, ?_⟩
    by_cases hreturns : e.env.fault = .returns
    · rw [command_of_returns hreturns]
      exact ⟨trivial, .nothing rfl rfl rfl, .added rfl Redis.heldAt_sadd rfl (.inr rfl)⟩
    · rw [command_of_fails hreturns]
      refine ⟨.create_ended rfl, .createRaises rfl hquota, ?_⟩
      dsimp only
      split
      next => exact .aside (fun _ => rfl) rfl (.inl rfl)
      next => exact .added rfl Redis.heldAt_sadd rfl (.inl rfl)
  | expire =>
    obtain rfl := Option.some.inj hreserve
    exact ⟨q, .createAside rfl hquota (Redis.heldAt_expireSet _) (.nothing rfl rfl rfl) trivial
      (.inr rfl)⟩
  | scard =>
    obtain rfl := Option.some.inj hreserve
    by_cases hfull : call.principal.concurrentLimit
        < (s.server.redis.scard e.now (concurrencyKey call.principal.quotaKey) : ℤ)
    · simp only [if_pos hfull]
      exact ⟨q, .createAside rfl hquota (fun _ => rfl) (.nothing rfl rfl rfl) trivial (.inr rfl)⟩
    · simp only [if_neg hfull]
      by_cases hreturns : e.env.fault = .returns
      · rw [command_of_returns hreturns]
        refine ⟨_, ?_, .steps ⟨none, 0⟩ { e.env with fault := .returns } ?_
          rfl, .admitted rfl rfl (not_lt.mp hfull) rfl rfl rfl⟩
        · rintro _ ⟨⟩
          decide
        · rintro _ ⟨⟩ hown
          exact absurd hown hquota
      · rw [command_of_fails hreturns]
        exact ⟨q, .create_ended rfl, .createRaises rfl hquota,
          .aside (fun _ => by simp) rfl (.inl rfl)⟩
  | srem =>
    obtain rfl := Option.some.inj hreserve
    have hscript : ∀ a, (Task.create call (.reserve catalog policy decisionId)).await = some a →
        a.Own → ∀ fault : Fault, fault = e.env.fault := by
      rintro _ ⟨⟩ hown
      exact absurd hown hquota
    by_cases hreturns : e.env.fault = .returns
    · rw [command_of_returns hreturns]
      exact ⟨_, .create_ended rfl, .steps ⟨some "agent concurrent limit exceeded", 0⟩
        { e.env with fault := .returns } (fun a ha hown => hscript a ha hown _) rfl,
        .removed (.inl rfl) (.inl rfl) Redis.heldAt_srem rfl rfl⟩
    · rw [command_of_fails hreturns]
      dsimp only
      split
      next => exact ⟨q, .create_ended rfl, .createRaises rfl hquota,
        .aside (fun _ => rfl) rfl (.inl rfl)⟩
      next =>
        exact ⟨_, .create_ended rfl, .steps ⟨some "agent concurrent limit exceeded", 0⟩
          { e.env with fault := .raisesAfter } (fun a ha hown => hscript a ha hown _) rfl,
          .removed (.inl rfl) (.inl rfl) Redis.heldAt_srem rfl rfl⟩
  | admitted => cases hreserve
  | rejected => cases hreserve

/-- The `SREM` of a release. -/
theorem commandStepped_createRelease {call : CreateCall} {decisionId : String}
    {err : ServiceError} {pc' : CreationPc}
    (hadv : advanceCreation D call ⟨e.env, e.now, false⟩ s (.release decisionId err)
      = some (s', pc')) :
    ∃ q', CommandStepped D e s s' q q' (.create call (.release decisionId err))
      (.create call pc') := by
  obtain ⟨rfl, rfl⟩ := Prod.ext_iff.mp (Option.some.inj hadv)
  have hquota : ¬ Await.releaseConcurrency.Own := by decide
  have hown : decisionId ∈ (Task.create call (.release decisionId err)).stage.slots
      call.principal.quotaKey := by
    simp [Task.stage, Stage.slots]
  have hscript : ∀ a, (Task.create call (.release decisionId err)).await = some a →
      a.Own → ∀ fault : Fault, fault = e.env.fault := by
    rintro _ ⟨⟩ hown
    exact absurd hown hquota
  by_cases hreturns : e.env.fault = .returns
  · rw [command_of_returns hreturns]
    exact ⟨_, .create_ended rfl, .steps ⟨none, 0⟩ { e.env with fault := .returns }
      (fun a ha hown => hscript a ha hown _) rfl,
      .removed (.inr rfl) (.inr hown) Redis.heldAt_srem rfl rfl⟩
  · rw [command_of_fails hreturns]
    dsimp only
    split
    next => exact ⟨q, .create_ended rfl, .createRaises rfl hquota,
      .aside (fun _ => rfl) rfl (.inl rfl)⟩
    next =>
      exact ⟨_, .create_ended rfl, .steps ⟨none, 0⟩ { e.env with fault := .raisesAfter }
        (fun a ha hown => hscript a ha hown _) rfl,
        .removed (.inr rfl) (.inr hown) Redis.heldAt_srem rfl rfl⟩

/-- The same in a report. -/
theorem commandStepped_reportRelease {call : OutcomeCall} {response : RoutingOutcomeResponse}
    {pc' : ReportingPc} (hadv : advanceReporting D call e s (.release response) = some (s', pc')) :
    ∃ q', CommandStepped D e s s' q q' (.report call (.release response)) (.report call pc') := by
  obtain ⟨rfl, rfl⟩ := Prod.ext_iff.mp (Option.some.inj hadv)
  have hquota : ¬ Await.releaseConcurrency.Own := by decide
  have hown : call.outcome.decisionId ∈ (Task.outcome call (.release response)).stage.slots
      call.principal.quotaKey := by
    simp [Task.stage, Stage.slots]
  have hscript : ∀ a, (Task.outcome call (.release response)).await = some a →
      a.Own → ∀ fault : Fault, fault = e.env.fault := by
    rintro _ ⟨⟩ hown
    exact absurd hown hquota
  by_cases hreturns : e.env.fault = .returns
  · rw [reportCommand_of_returns hreturns]
    exact ⟨_, trivial, .steps ⟨none, 0⟩ { e.env with fault := .returns }
      (fun a ha hown => hscript a ha hown _) rfl,
      .removed (.inr rfl) (.inr hown) Redis.heldAt_srem rfl rfl⟩
  · rw [reportCommand_of_fails hreturns]
    dsimp only
    split
    next => exact ⟨q, .report_ended rfl, .reportRaises rfl hquota,
      .aside (fun _ => rfl) rfl (.inl rfl)⟩
    next =>
      exact ⟨_, .report_ended rfl, .steps ⟨none, 0⟩ { e.env with fault := .raisesAfter }
        (fun a ha hown => hscript a ha hown _) rfl,
        .removed (.inr rfl) (.inr hown) Redis.heldAt_srem rfl rfl⟩

/-- The commands of a report's `enforce_rpm`. -/
theorem commandStepped_reportRpm {call : OutcomeCall} {task : RpmTask} {pc' : ReportingPc}
    (hadv : advanceReporting D call e s (.enforceRpm task) = some (s', pc')) :
    CommandStepped D e s s' q q (.report call (.enforceRpm task)) (.report call pc') := by
  cases task with
  | readClock =>
    obtain ⟨rfl, rfl⟩ := Prod.ext_iff.mp (Option.some.inj hadv)
    exact ⟨trivial, .nothing rfl rfl rfl, .aside (fun _ => rfl) rfl (.inl rfl)⟩
  | passed minute | refused minute => cases hadv
  | incr _ | expire _ _ =>
    simp only [advanceReporting] at hadv
    obtain ⟨⟨redis, task'⟩, hrpm, heq⟩ := Option.map_eq_some_iff.mp hadv
    obtain ⟨rfl, rfl⟩ := Prod.ext_iff.mp heq
    refine .reportAside (a := .enforceRpm) rfl (by decide) (advanceRpm_sets hrpm) ?_ ?_
    · cases task' with
      | passed minute =>
        exact .steps ⟨none, 0⟩ { e.env with fault := .returns }
          (by rintro _ ⟨⟩ hown; exact absurd hown (by decide)) rfl
      | refused minute =>
        exact .steps ⟨some "agent RPM exceeded", 0⟩
          { e.env with fault := .returns }
          (by rintro _ ⟨⟩ hown; exact absurd hown (by decide)) rfl
      | _ => exact .nothing rfl rfl rfl
    · cases task' with
      | passed minute =>
        rintro _ ⟨⟩
        decide
      | refused minute => exact .report_ended rfl
      | _ => trivial

/-- The commands of `record_spend`. -/
theorem commandStepped_recordSpend {call : OutcomeCall} {response : RoutingOutcomeResponse}
    {pc : SpendPc} {pc' : ReportingPc}
    (hadv : advanceReporting D call e s (.recordSpend response pc) = some (s', pc')) :
    CommandStepped D e s s' q q (.report call (.recordSpend response pc)) (.report call pc') := by
  cases pc with
  | incrByFloat today =>
    obtain ⟨rfl, rfl⟩ := Prod.ext_iff.mp (Option.some.inj hadv)
    exact .reportAside (a := .recordSpend) rfl (by decide) rfl (.nothing rfl rfl rfl) trivial
  | expire today =>
    obtain ⟨rfl, rfl⟩ := Prod.ext_iff.mp (Option.some.inj hadv)
    refine .reportAside (a := .recordSpend) rfl (by decide) rfl ?_ ?_
    · exact .steps ⟨none, 0⟩ { e.env with fault := .returns }
        (by rintro _ ⟨⟩ hown; exact absurd hown (by decide)) rfl
    · rintro _ ⟨⟩
      decide

/-- A step at an await of the service's own. -/
theorem commandStepped_createOwn {call : CreateCall} {pc : CreatePc} {pc' : CreationPc}
    (hown : (CommandTask.create call (.service pc)).AtOwn)
    (hadv : advanceCreation D call ⟨e.env, e.now, false⟩ s (.service pc) = some (s', pc')) :
    CommandStepped D e s s' q q (.create call (.service pc)) (.create call pc') := by
  obtain ⟨⟨world, pc₁⟩, hnext, heq⟩ := Option.map_eq_some_iff.mp hadv
  obtain ⟨rfl, rfl⟩ := Prod.ext_iff.mp heq
  have hmemory := @advanceCreate_overQuota Q Slots D.toDeps (D.scripted ⟨none, 0⟩) e.env
    e.env.clock rfl rfl s.world q call pc hown
  rw [hnext] at hmemory
  obtain ⟨hatOwn, hwaiting⟩ := atOwn_create call e.now pc₁
  refine ⟨hatOwn, .steps ⟨none, 0⟩ e.env (fun _ _ _ => rfl) ?_,
    .aside (fun _ => rfl) rfl (.inl hwaiting)⟩
  show (advanceCreate _ _ _ _ _).map _ = some (_, Task.create call _)
  rw [toCreatePc_ofService]
  exact congrArg _ hmemory

/-- A report's own awaits. -/
theorem commandStepped_reportOwn {call : OutcomeCall} {pc : OutcomePc} {pc' : ReportingPc}
    (hown : (CommandTask.report call (.service pc)).AtOwn)
    (hadv : advanceReporting D call e s (.service pc) = some (s', pc')) :
    CommandStepped D e s s' q q (.report call (.service pc)) (.report call pc') := by
  obtain ⟨⟨world, pc₁⟩, hnext, heq⟩ := Option.map_eq_some_iff.mp hadv
  obtain ⟨rfl, rfl⟩ := Prod.ext_iff.mp heq
  have hmemory := @advanceOutcome_overQuota Q Slots e.env e.env.clock D.toDeps
    (D.scripted ⟨none, 0⟩) s.world q call pc hown
  rw [hnext] at hmemory
  refine ⟨atOwn_report call pc₁ ?_, .steps ⟨none, 0⟩ e.env
    (fun _ _ _ => rfl) ?_, .aside (fun _ => rfl) rfl (.inl rfl)⟩
  · -- Only a release goes on to the charge.
    rintro response rfl
    cases advanceOutcome_step hnext with
    | released => exact absurd (hown _ rfl) (by decide)
  · show (advanceOutcome _ _ _ _ _).map _ = some (_, Task.outcome call _)
    rw [toOutcomePc_ofService]
    exact congrArg _ hmemory

/-- **A step over Redis is no step of the service, or one** under a manager
that answers what Redis did. -/
theorem redisCommands_step {t t' : CommandTask} (q : Slots) (hown : t.AtOwn)
    (hadv : (redisCommands D).advance e s t = some (s', t')) :
    ∃ q', CommandStepped D e s s' q q' t t' := by
  simp only [redisCommands] at hadv
  split at hadv
  next =>
    cases t with
    | create call pc =>
      obtain ⟨⟨_, pc'⟩, hstep, heq⟩ := Option.map_eq_some_iff.mp hadv
      obtain ⟨rfl, rfl⟩ := Prod.mk.inj heq
      cases pc with
      | service pc => exact ⟨q, commandStepped_createOwn hown hstep⟩
      | enforceRpm task => exact ⟨q, commandStepped_createRpm hown hstep⟩
      | currentSpend => exact ⟨q, commandStepped_currentSpend hstep⟩
      | reserve catalog policy decisionId pc => exact commandStepped_reserve hstep
      | release decisionId err => exact commandStepped_createRelease hstep
      | cancelled => cases hstep
    | report call pc =>
      obtain ⟨⟨_, pc'⟩, hstep, heq⟩ := Option.map_eq_some_iff.mp hadv
      obtain ⟨rfl, rfl⟩ := Prod.mk.inj heq
      cases pc with
      | service pc => exact ⟨q, commandStepped_reportOwn hown hstep⟩
      | enforceRpm task => exact ⟨q, commandStepped_reportRpm hstep⟩
      | release response => exact commandStepped_reportRelease hstep
      | recordSpend response pc => exact ⟨q, commandStepped_recordSpend hstep⟩
  next => cases hadv

end Step

/-! ## Whole runs -/

/-- The calls as the service knows them. -/
def serviceConf (c : Conf (CreationWorld Q) CommandTask) : Conf (RedisWorld Q) Task :=
  ⟨⟨c.world.world, c.world.server.redis⟩, c.tasks.map CommandTask.toTask⟩

/-- Calls that have just been made, of permitted callers, and permitted steps. -/
def PermitsCommands (permits : CreationWorld Q → CommandTask → RedisEnv → Prop)
    (caller : AgentPrincipal → Prop) (c : Conf (CreationWorld Q) CommandTask) :
    Act CommandTask RedisEnv → Prop
  | .start t => t.Started ∧ caller t.principal
  | .run i e => ∀ t, c.tasks[i]? = some t → permits c.world t e

/-- What holds of the rows, with slot sets that nobody sees. -/
structure CommandsAuthored (D : RedisDeps Q) (caller : AgentPrincipal → Prop) (q : Slots)
    (c : Conf (CreationWorld Q) CommandTask) : Prop extends
    RedisAuthored D caller q (serviceConf c) where
  atOwn : ∀ t ∈ c.tasks, t.AtOwn

section Runs

variable {D : RedisDeps Q} {e : RedisEnv} {s s' : CreationWorld Q} {q q' : Slots}
  {t t' : CommandTask} {l r ts : List CommandTask} {caller : AgentPrincipal → Prop}

/-- A call that has just begun is at none of its commands. -/
theorem CommandTask.Started.atOwn (h : t.Started) : t.AtOwn ∧ t.waiting = none := by
  cases h with
  | create call =>
    refine ⟨?_, rfl⟩
    unfold CreateCall.start
    split
    next => exact nofun
    next =>
      rintro _ ⟨⟩
      decide
  | report call =>
    refine ⟨?_, rfl⟩
    unfold OutcomeCall.start
    split
    next => exact nofun
    next => trivial

/-- One more call that has just begun. -/
theorem CommandsAuthored.start (h : CommandsAuthored D caller q ⟨s, ts⟩) (hstarted : t.Started)
    (hcaller : caller t.principal) : CommandsAuthored D caller q ⟨s, ts ++ [t]⟩ := by
  obtain ⟨hauthored, hown⟩ := h
  have hauthored' := hauthored.start hstarted.toTask hcaller
  refine ⟨?_, ?_⟩
  · simpa only [serviceConf, List.map_append, List.map_cons, List.map_nil] using hauthored'
  · intro u hu
    rcases List.mem_append.mp hu with hu | hu
    · exact hown u hu
    · rw [List.mem_singleton.mp hu]
      exact hstarted.atOwn.1

/-- **One command keeps the rows authored.** -/
theorem CommandsAuthored.run (h : CommandsAuthored D caller q ⟨s, l ++ t :: r⟩)
    (hstep : CommandStepped D e s s' q q' t t') :
    CommandsAuthored D caller q' ⟨s', l ++ t' :: r⟩ := by
  obtain ⟨hauthored, hown⟩ := h
  refine ⟨?_, forall_mem_split.mpr ⟨hstep.atOwn, (forall_mem_split.mp hown).2⟩⟩
  simp only [serviceConf, List.map_append, List.map_cons] at hauthored ⊢
  cases hstep.image with
  | nothing hworld hq htask =>
    rw [htask, hq]
    obtain ⟨hrows, hprov, hctx⟩ := hauthored
    dsimp only at hrows hprov hctx
    rw [← hworld] at hrows hprov hctx
    exact ⟨hrows, hprov, hctx⟩
  | steps _ _ _ hadv => exact hauthored.run hadv

end Runs

end ControlPlane
