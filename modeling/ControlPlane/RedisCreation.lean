import ControlPlane.Provenance
import ControlPlane.RedisRpm
import ControlPlane.Traces

/-!
# `create_decision` over `RedisQuotaManager`, command by command

One `create_decision` call with the quota's awaits as the Redis commands they
are, and every way an await can end: it returns, it raises before or after
its effect, or the task is cancelled there, before or after the effect.
`asyncio.CancelledError` is no `Exception`, so no handler of the call runs
for it, and what `reserve_concurrency` awaits lies before the `try`.

`failed_creation_clean_iff` says exactly which failing calls leave the slot
set as it was: the ones that end with an `SREM` that takes effect, or before
their `SADD` has any. A failed `EXPIRE` or `SCARD`, or a cancellation after
the `SADD`, leaves the id in the set.

Mirroring notes:
- Every step executes at an instant, and instants do not go back.
- The service's other awaits are those of `advanceCreate`, which do not ask
  the quota manager of `D`.
- A cancelled task runs no code after the await, so a metric is not counted
  and no id is drawn.
-/

namespace ControlPlane

open Lib

variable {Q : Type}

/-- `settings` as its fields accept it. -/
structure RedisDeps (Q : Type) extends Deps Q where
  decisionTtlSeconds_ge : 30 ≤ settings.decisionTtlSeconds

/-- The settings, which Pydantic has checked. -/
def RedisDeps.validSettings (D : RedisDeps Q) : ValidSettings :=
  { D.settings with decisionTtlSeconds_ge := D.decisionTtlSeconds_ge }

/-- The service's world, and the server behind it. -/
structure CreationWorld (Q : Type) where
  world : World Q
  server : RedisServer

/-- How an await ends: with `env.fault`, unless the task is cancelled there.
Then the fault says only whether the effect took place. -/
structure CreationEnv where
  env : Env
  now : ℚ
  cancelled : Bool := false

/-- The awaits of a call: the quota's, command by command, and the rest. -/
inductive CreationPc
  | service (pc : CreatePc)
  | enforceRpm (task : RpmTask)
  | currentSpend
  | reserve (catalog : CatalogSnapshot) (policy : RoutingPolicy) (decisionId : String)
      (pc : ReservePc)
  | release (decisionId : String) (err : ServiceError)
  | cancelled

/-- On to the service's next await. -/
def CreationPc.ofService (now : ℚ) : CreatePc → CreationPc
  | .enforceRpm => .enforceRpm (.incr (minuteKey now))
  | .currentSpend => .currentSpend
  | .reserve catalog policy decisionId => .reserve catalog policy decisionId .sadd
  | .release decisionId err => .release decisionId err
  | pc => .service pc

/-- The effect of an await of the service, without the code after it. -/
def World.awaited (D : Deps Q) (w : World Q) (call : CreateCall) : CreatePc → World Q
  | .ensureCatalog catalog _ => { w with tables := ensureCatalogVersion catalog w.tables }
  | .ensurePolicies _ _ =>
    { w with tables := ensurePolicies (D.policies.map (·.2)) w.tables }
  | .storeDecision response => (w.insertDecision call response).1
  | _ => w

/-- A Redis command that would take the store to `next.1` and the call to
`next.2`. -/
def CreationWorld.command (e : CreationEnv) (s : CreationWorld Q) (drawn : Option String)
    (next : Redis × CreationPc) : CreationWorld Q × CreationPc :=
  ({ s with
      server := ⟨if e.env.fault = .raises then s.server.redis else next.1, e.now⟩ },
    if e.cancelled then .cancelled
    else if e.env.fault = .returns then next.2
    else .service (.raised drawn .unavailable))

/-- One command of a creation, or one await of the service's own. -/
def advanceCreation (D : RedisDeps Q) (call : CreateCall) (e : CreationEnv)
    (s : CreationWorld Q) : CreationPc → Option (CreationWorld Q × CreationPc)
  | .service pc =>
    if e.cancelled then
      if (Task.create call pc).Finished then none
      else
        let world := if e.env.fault = .raises then s.world else s.world.awaited D.toDeps call pc
        some (⟨world, s.server.redis, e.now⟩, .cancelled)
    else
      (advanceCreate D.toDeps e.env s.world call pc).map fun next =>
        (⟨next.1, s.server.redis, e.now⟩, .ofService e.now next.2)
  | .enforceRpm task =>
    (advanceRpm call.principal e.now s.server.redis task).map fun next =>
      s.command e none (next.1,
        match next.2 with
        | .passed _ => .currentSpend
        | .refused _ => .service (.raised none (.quotaExceeded "agent RPM exceeded"))
        | task => .enforceRpm task)
  | .currentSpend =>
    let currentSpend := RedisQuota.currentDailySpend e.now e.env.clock.today call.principal
      s.server.redis
    some (s.command e none (s.server.redis,
      match admission D.toDeps e.env.catalog call currentSpend with
      | .error err => .service (.raised none err)
      | .ok (catalog, policy) => .service (.ensureCatalog catalog policy)))
  | .reserve catalog policy decisionId pc =>
    (advanceReserve D.validSettings call.principal e.now decisionId s.server.redis pc).map
      fun next => s.command e (some decisionId) (next.1,
        match next.2 with
        | .admitted => .service (.getSignals catalog policy decisionId)
        | .rejected => .service (.raised (some decisionId)
            (.quotaExceeded "agent concurrent limit exceeded"))
        | pc => .reserve catalog policy decisionId pc)
  | .release decisionId err =>
    some (s.command e (some decisionId)
      (RedisQuota.releaseConcurrency e.now call.principal decisionId s.server.redis,
        .service (.raised (some decisionId) err)))
  | .cancelled => none

/-- The one call, at the instants its environments give. -/
def creation (D : RedisDeps Q) (call : CreateCall) :
    System (CreationWorld Q) CreationPc CreationEnv where
  advance e s pc := if s.server.now ≤ e.now then advanceCreation D call e s pc else none

/-! ## What a step does to the slot set -/

namespace CreationPc

/-- The decision id the call has drawn; a cancelled one is past knowing. -/
def drawn (call : CreateCall) : CreationPc → Option String
  | service pc => (Task.create call pc).drawn
  | reserve _ _ decisionId _ => some decisionId
  | release decisionId _ => some decisionId
  | _ => none

/-- The same from the id's `SADD` on. -/
def holding (call : CreateCall) : CreationPc → Option String
  | reserve _ _ _ .sadd => none
  | pc => pc.drawn call

/-- An id that is held was drawn. -/
theorem drawn_of_holding {call : CreateCall} {pc : CreationPc} {id : String}
    (h : pc.holding call = some id) : pc.drawn call = some id := by
  unfold holding at h
  split at h
  next => cases h
  next => exact h

/-- The call ended without a decision. -/
def abandoned : CreationPc → Bool
  | service (.raised _ _) => true
  | cancelled => true
  | _ => false

/-- The same as a proposition. -/
def Abandoned (pc : CreationPc) : Prop :=
  pc.abandoned = true

instance (pc : CreationPc) : Decidable pc.Abandoned :=
  inferInstanceAs (Decidable (pc.abandoned = true))

end CreationPc

/-- What a command executing at the step's instant sees of the set after it,
given what it saw before. -/
def slotsAfter (e : CreationEnv) (slots : Finset String) : CreationPc → Finset String
  | .reserve _ _ decisionId .sadd =>
    if e.env.fault = .raises then slots else insert decisionId slots
  | .reserve _ _ decisionId .srem =>
    if e.env.fault = .raises then slots else slots.erase decisionId
  | .release decisionId _ =>
    if e.env.fault = .raises then slots else slots.erase decisionId
  | _ => slots

section Step

variable {D : RedisDeps Q} {call : CreateCall} {e : CreationEnv} {s s' : CreationWorld Q}
  {pc pc' : CreationPc}

/-- A Redis command of the call, from the set it finds: the id drawn so far,
the set it leaves if it executes, and where the call goes if it returns. -/
inductive CommandStep (call : CreateCall) (slots : Finset String) :
    CreationPc → Option String → Finset String → CreationPc → Prop
  | counted {task next} : next.drawn call = none →
      CommandStep call slots (.enforceRpm task) none slots next
  | summed {next} : next.drawn call = none → CommandStep call slots .currentSpend none slots next
  | added {catalog policy id} : CommandStep call slots (.reserve catalog policy id .sadd) (some id)
      (insert id slots) (.reserve catalog policy id .expire)
  | expired {catalog policy id} : CommandStep call slots (.reserve catalog policy id .expire)
      (some id) slots (.reserve catalog policy id .scard)
  | overLimit {catalog policy id} : call.principal.concurrentLimit < slots.card →
      CommandStep call slots (.reserve catalog policy id .scard) (some id) slots
        (.reserve catalog policy id .srem)
  | withinLimit {catalog policy id} : (slots.card : ℤ) ≤ call.principal.concurrentLimit →
      CommandStep call slots (.reserve catalog policy id .scard) (some id) slots
        (.service (.getSignals catalog policy id))
  | withdrawn {catalog policy id} : CommandStep call slots (.reserve catalog policy id .srem)
      (some id) (slots.erase id)
      (.service (.raised (some id) (.quotaExceeded "agent concurrent limit exceeded")))
  | released {id err} : CommandStep call slots (.release id err) (some id) (slots.erase id)
      (.service (.raised (some id) err))

/-- A step of the call: cancelled at an await of the service's, past one, or
a command. -/
inductive CreationStep (D : RedisDeps Q) (call : CreateCall) (e : CreationEnv)
    (s : CreationWorld Q) : CreationPc → CreationWorld Q → CreationPc → Prop
  | cancels {pc world} : ¬ (Task.create call pc).Finished → world.issued = s.world.issued →
      CreationStep D call e s (.service pc) ⟨world, s.server.redis, e.now⟩ .cancelled
  | serves {pc world pc'} : advanceCreate D.toDeps e.env s.world call pc = some (world, pc') →
      CreationStep D call e s (.service pc) ⟨world, s.server.redis, e.now⟩ (.ofService e.now pc')
  | commands {pc drawn slots redis next} :
      CommandStep call (seen call.principal e.now s.server) pc drawn slots next →
      seen call.principal e.now ⟨redis, e.now⟩ = slots →
      CreationStep D call e s pc (s.command e drawn (redis, next)).1
        (s.command e drawn (redis, next)).2

/-- An await draws no id by itself. -/
theorem issued_awaited (D : Deps Q) (w : World Q) (call : CreateCall) (pc : CreatePc) :
    (w.awaited D call pc).issued = w.issued := by
  unfold World.awaited
  split
  next => rfl
  next => rfl
  next response =>
    unfold World.insertDecision
    split <;> rfl
  next => rfl

/-- What is seen is in the sets. -/
theorem seen_of_sets {r r' : Redis} (h : r'.sets = r.sets) (now now' : ℚ) :
    seen call.principal e.now ⟨r', now⟩ = seen call.principal e.now ⟨r, now'⟩ := by
  unfold seen Redis.smembers
  rw [h]

/-- The commands of `enforce_rpm` touch no set. -/
theorem advanceRpm_sets {principal : AgentPrincipal} {now : ℚ} {r r' : Redis}
    {task task' : RpmTask} (h : advanceRpm principal now r task = some (r', task')) :
    r'.sets = r.sets := by
  cases task with
  | readClock => exact (Prod.mk.inj (Option.some.inj h)).1 ▸ rfl
  | incr minute => exact (Prod.mk.inj (Option.some.inj h)).1 ▸ rfl
  | expire minute count => exact (Prod.mk.inj (Option.some.inj h)).1 ▸ rfl
  | passed minute => cases h
  | refused minute => cases h

/-- The commands of `reserve_concurrency`. -/
theorem reserveStep_of_advance {catalog : CatalogSnapshot} {policy : RoutingPolicy}
    {decisionId : String} {pc : ReservePc}
    (h : advanceCreation D call e s (.reserve catalog policy decisionId pc) = some (s', pc')) :
    CreationStep D call e s (.reserve catalog policy decisionId pc) s' pc' := by
  obtain ⟨next, hreserve, heq⟩ := Option.map_eq_some_iff.mp h
  obtain ⟨rfl, rfl⟩ := Prod.ext_iff.mp heq
  cases pc with
  | sadd =>
    obtain rfl := Option.some.inj hreserve
    exact .commands .added (Redis.smembers_sadd _ _ _ _)
  | expire =>
    obtain rfl := Option.some.inj hreserve
    exact .commands .expired (Redis.smembers_expireSet _ _ _ D.validSettings.slotTtl_pos)
  | scard =>
    obtain rfl := Option.some.inj hreserve
    by_cases hfull : call.principal.concurrentLimit
        < s.server.redis.scard e.now (concurrencyKey call.principal.quotaKey)
    · simp only [if_pos hfull]
      exact .commands (.overLimit hfull) rfl
    · simp only [if_neg hfull]
      exact .commands (.withinLimit (not_lt.mp hfull)) rfl
  | srem =>
    obtain rfl := Option.some.inj hreserve
    exact .commands .withdrawn (Redis.smembers_srem _ _ _ _)
  | admitted => cases hreserve
  | rejected => cases hreserve

/-- **What a step of the call can do.** -/
theorem creationStep_of_advance (h : (creation D call).advance e s pc = some (s', pc')) :
    s.server.now ≤ e.now ∧ CreationStep D call e s pc s' pc' := by
  simp only [creation] at h
  split at h
  next hle =>
    refine ⟨hle, ?_⟩
    cases pc with
    | service pc =>
      simp only [advanceCreation] at h
      split at h
      next =>
        split at h
        next => cases h
        next hgoing =>
          obtain ⟨rfl, rfl⟩ := Prod.mk.inj (Option.some.inj h)
          refine .cancels hgoing ?_
          split
          next => rfl
          next => exact issued_awaited _ _ _ _
      next =>
        obtain ⟨next, hadv, heq⟩ := Option.map_eq_some_iff.mp h
        obtain ⟨rfl, rfl⟩ := Prod.mk.inj heq
        exact .serves hadv
    | enforceRpm task =>
      obtain ⟨next, hrpm, heq⟩ := Option.map_eq_some_iff.mp h
      obtain ⟨rfl, rfl⟩ := Prod.ext_iff.mp heq
      refine .commands (.counted ?_) (seen_of_sets (advanceRpm_sets hrpm) _ _)
      split <;> rfl
    | currentSpend =>
      obtain ⟨rfl, rfl⟩ := Prod.ext_iff.mp (Option.some.inj h)
      refine .commands (.summed ?_) rfl
      split <;> rfl
    | reserve catalog policy decisionId pc => exact reserveStep_of_advance h
    | release decisionId err =>
      obtain ⟨rfl, rfl⟩ := Prod.ext_iff.mp (Option.some.inj h)
      exact .commands .released (Redis.smembers_srem _ _ _ _)
    | cancelled => cases h
  next => cases h

/-- A command draws no id. -/
theorem CommandStep.drawn_eq {slots after : Finset String} {drawn : Option String}
    (h : CommandStep call slots pc drawn after pc') :
    drawn = pc.drawn call ∧ pc'.drawn call = pc.drawn call := by
  cases h with
  | counted hnone => exact ⟨rfl, hnone⟩
  | summed hnone => exact ⟨rfl, hnone⟩
  | _ => exact ⟨rfl, rfl⟩

/-- A command that raised before its effect leaves the set. -/
theorem CommandStep.slotsAfter_eq {slots after : Finset String} {drawn : Option String}
    (h : CommandStep call slots pc drawn after pc') :
    slotsAfter e slots pc = if e.env.fault = .raises then slots else after := by
  cases h with
  | added => rfl
  | withdrawn => rfl
  | released => rfl
  | _ => exact (ite_self _).symm

/-- **What a step does to the set**, as the next command sees it. -/
theorem seen_step (h : (creation D call).advance e s pc = some (s', pc')) :
    s.server.now ≤ e.now ∧ s'.server.now = e.now
      ∧ seen call.principal e.now s'.server
        = slotsAfter e (seen call.principal e.now s.server) pc := by
  obtain ⟨hle, hstep⟩ := creationStep_of_advance h
  refine ⟨hle, ?_⟩
  cases hstep with
  | cancels => exact ⟨rfl, rfl⟩
  | serves => exact ⟨rfl, rfl⟩
  | @commands _ _ slots redis _ hcommand hslots =>
    refine ⟨rfl, ?_⟩
    rw [hcommand.slotsAfter_eq, ← hslots]
    simp only [CreationWorld.command]
    split <;> rfl

/-- The call goes on with the id it had, or with one that nobody had drawn. -/
theorem drawn_step (h : (creation D call).advance e s pc = some (s', pc')) :
    s.world.issued ⊆ s'.world.issued
      ∧ ∀ id, pc'.drawn call = some id → pc.drawn call = some id ∨ id ∉ s.world.issued := by
  cases (creationStep_of_advance h).2 with
  | cancels hgoing hissued =>
    refine ⟨?_, nofun⟩
    rw [hissued]
    exact List.Subset.refl _
  | @serves pc world pc' hadv =>
    have hdrawn : (CreationPc.ofService e.now pc').drawn call = (Task.create call pc').drawn := by
      cases pc' <;> rfl
    rw [hdrawn]
    rcases (advanceCreate_step hadv).idStep.drawn with
      ⟨hissued, hsame⟩ | ⟨id, hfresh, hissued, -, hnew⟩
    · rw [hsame, hissued]
      exact ⟨List.Subset.refl _, fun id hid => .inl hid⟩
    · rw [hnew, hissued]
      refine ⟨List.subset_cons_self _ _, ?_⟩
      intro id' hid'
      exact .inr (Option.some.inj hid' ▸ hfresh)
  | @commands _ drawn _ redis next hcommand =>
    refine ⟨List.Subset.refl _, ?_⟩
    intro id hid
    obtain ⟨hdrawn, hnext⟩ := hcommand.drawn_eq
    simp only [CreationWorld.command] at hid
    split_ifs at hid
    · cases hid
    · exact .inl (hnext ▸ hid)
    · exact .inl (hdrawn ▸ hid)

/-- Before the id is drawn the call has none. -/
theorem drawn_none_of_reserve {w w' : World Q} {env : Env} {pc : CreatePc}
    {catalog : CatalogSnapshot} {policy : RoutingPolicy} {decisionId : String}
    (h : CreateStep D.toDeps env call w pc w' (.reserve catalog policy decisionId)) :
    (Task.create call pc).drawn = none := by
  cases h <;> rfl

/-- A command the call goes on after has returned. -/
theorem command_going {drawn : Option String} {next : Redis × CreationPc}
    (h : ¬ (s.command e drawn next).2.Abandoned) : (s.command e drawn next).2 = next.2 := by
  unfold CreationWorld.command at h ⊢
  dsimp only at h ⊢
  split_ifs with hcancelled hreturns
  · rw [if_pos hcancelled] at h
    exact absurd rfl h
  · rfl
  · rw [if_neg hcancelled, if_neg hreturns] at h
    exact absurd rfl h

/-- A call that goes on has not ended. -/
theorem not_abandoned_of_step (h : (creation D call).advance e s pc = some (s', pc')) :
    ¬ pc.Abandoned := by
  intro hended
  cases (creationStep_of_advance h).2 with
  | @cancels pc _ hgoing =>
    cases pc with
    | raised drawn err => exact hgoing rfl
    | _ => cases hended
  | @serves pc _ _ hadv =>
    cases pc with
    | raised drawn err => cases hadv
    | _ => cases hended
  | commands hcommand => cases hcommand <;> cases hended

/-- Past an await of the service's, an id seen before is seen still; if it is
the call's own, it stays its own. -/
theorem holding_of_serves {world : World Q} {pc pc' : CreatePc} {slots : Finset String}
    {id : String} (hadv : advanceCreate D.toDeps e.env s.world call pc = some (world, pc'))
    (hid : id ∈ slots) :
    (id ∈ slots ∧ (CreationPc.service pc).holding call ≠ some id)
      ∨ (CreationPc.ofService e.now pc').holding call = some id := by
  by_cases hheld : (Task.create call pc).drawn = some id
  · right
    have hstep := advanceCreate_step hadv
    cases pc' with
    | reserve catalog policy decisionId =>
      rw [drawn_none_of_reserve hstep] at hheld
      cases hheld
    | _ =>
      rcases hstep.idStep.drawn with ⟨-, hsame⟩ | ⟨_, -, -, hnone, -⟩
      · exact hsame.trans hheld
      · rw [hnone] at hheld
        cases hheld
  · exact .inl ⟨hid, hheld⟩

/-- While the call goes on, an id seen after a step was seen before, or it is
the call's own; and its own stays its own. -/
theorem holding_step (h : (creation D call).advance e s pc = some (s', pc'))
    (hgoing : ¬ pc'.Abandoned) {slots : Finset String} {id : String}
    (hid : id ∈ slotsAfter e slots pc) :
    (id ∈ slots ∧ pc.holding call ≠ some id) ∨ pc'.holding call = some id := by
  have hkept : ∀ {decisionId}, id ∈ slots →
      (id ∈ slots ∧ some decisionId ≠ some id) ∨ some decisionId = some id := by
    intro decisionId hmem
    by_cases hown : some decisionId = some id
    · exact .inr hown
    · exact .inl ⟨hmem, hown⟩
  cases (creationStep_of_advance h).2 with
  | cancels => exact absurd rfl hgoing
  | serves hadv => exact holding_of_serves hadv hid
  | commands hcommand =>
    rw [command_going hgoing]
    rw [command_going hgoing] at hgoing
    cases hcommand with
    | counted => exact .inl ⟨hid, nofun⟩
    | summed => exact .inl ⟨hid, nofun⟩
    | added =>
      simp only [slotsAfter] at hid
      split at hid
      next => exact .inl ⟨hid, nofun⟩
      next =>
        rcases Finset.mem_insert.mp hid with rfl | hid
        · exact .inr rfl
        · exact .inl ⟨hid, nofun⟩
    | expired => exact hkept hid
    | overLimit => exact hkept hid
    | withinLimit => exact hkept hid
    | withdrawn => exact absurd rfl hgoing
    | released => exact absurd rfl hgoing

end Step

/-! ## The whole call -/

section Failing

variable (D : RedisDeps Q) (call : CreateCall) (s₀ : CreationWorld Q)

/-- The call as far as these environments take it. -/
def callTo (envs : List CreationEnv) : Option (CreationWorld Q × CreationPc) :=
  (creation D call).follow s₀ (.service call.start) envs

/-- No step found the set past its deadline. -/
def NeverLapsed (envs : List CreationEnv) : Prop :=
  ∀ before e after s pc, envs = before ++ e :: after → callTo D call s₀ before = some (s, pc) →
    Unlapsed call.principal e.now s.server

/-- The set holds what it held at the start: nothing is left over and, as
long as the key has not lapsed, nothing is gone. -/
def LeftAsBefore (envs : List CreationEnv) (s : CreationWorld Q) : Prop :=
  seen call.principal s.server.now s.server ⊆ seen call.principal s₀.server.now s₀.server
    ∧ (NeverLapsed D call s₀ envs →
      seen call.principal s₀.server.now s₀.server ⊆ seen call.principal s.server.now s.server)

/-- The await takes the id out again, or keeps it out, or finds it gone. -/
def Withdraws (e : CreationEnv) (slots : Finset String) : CreationPc → Prop
  | .reserve _ _ _ .sadd => e.env.fault = .raises
  | .reserve _ _ decisionId .srem => e.env.fault ≠ .raises ∨ decisionId ∉ slots
  | .release decisionId _ => e.env.fault ≠ .raises ∨ decisionId ∉ slots
  | pc => ∀ id, pc.drawn call = some id → id ∉ slots

/-- The call's last await, if it came to one, withdraws. -/
def EndsWithdrawn (envs : List CreationEnv) : Prop :=
  ∀ before e s pc, envs = before ++ [e] → callTo D call s₀ before = some (s, pc) →
    Withdraws call e (seen call.principal e.now s.server) pc

/-- The call ended without a decision, and no row came of it. -/
structure Failed (s : CreationWorld Q) (pc : CreationPc) : Prop where
  abandoned : pc.Abandoned
  rows : s.world.tables.decisions = s₀.world.tables.decisions

/-- What the call keeps: its id is new to the set, and until it ends only
that id can be. -/
structure CallInv (envs : List CreationEnv) (s : CreationWorld Q) (pc : CreationPc) : Prop where
  issued : s₀.world.issued ⊆ s.world.issued
  fresh : ∀ id, pc.drawn call = some id → id ∉ seen call.principal s₀.server.now s₀.server
  own : ¬ pc.Abandoned → ∀ id ∈ seen call.principal s.server.now s.server,
    id ∈ seen call.principal s₀.server.now s₀.server ∨ pc.holding call = some id
  kept : NeverLapsed D call s₀ envs → ∀ id ∈ seen call.principal s₀.server.now s₀.server,
    id ∈ seen call.principal s.server.now s.server

end Failing

section Runs

variable {D : RedisDeps Q} {call : CreateCall} {s₀ s s' : CreationWorld Q} {pc pc' : CreationPc}
  {envs : List CreationEnv} {e : CreationEnv}

/-- The ids in the set are uuids somebody drew. -/
def IdsIssued (call : CreateCall) (s₀ : CreationWorld Q) : Prop :=
  ∀ id ∈ held call.principal s₀.server, id ∈ s₀.world.issued

/-- A shorter run has not lapsed either. -/
theorem NeverLapsed.init (h : NeverLapsed D call s₀ (envs ++ [e])) :
    NeverLapsed D call s₀ envs := by
  intro before e' after s pc henvs hto
  exact h before e' (after ++ [e]) s pc (by simp [henvs]) hto

/-- A step moves no other id than the call's. -/
theorem mem_slotsAfter_of_ne {slots : Finset String} {id : String}
    (hne : pc.drawn call ≠ some id) : id ∈ slotsAfter e slots pc ↔ id ∈ slots := by
  have hother : ∀ {decisionId}, some decisionId ≠ some id → id ≠ decisionId :=
    fun hne heq => hne (congrArg some heq.symm)
  unfold slotsAfter
  split
  next =>
    split
    · exact Iff.rfl
    · rw [Finset.mem_insert]
      exact or_iff_right (hother hne)
  next =>
    split
    · exact Iff.rfl
    · rw [Finset.mem_erase]
      exact and_iff_right (hother hne)
  next =>
    split
    · exact Iff.rfl
    · rw [Finset.mem_erase]
      exact and_iff_right (hother hne)
  next => exact Iff.rfl

/-- **One step keeps what is known of the call.** -/
theorem CallInv.step (hids : IdsIssued call s₀) (hto : callTo D call s₀ envs = some (s, pc))
    (h : CallInv D call s₀ envs s pc) (hadv : (creation D call).advance e s pc = some (s', pc'))
    (hgoing : ¬ pc.Abandoned) : CallInv D call s₀ (envs ++ [e]) s' pc' := by
  obtain ⟨hle, hnow, hseen⟩ := seen_step hadv
  obtain ⟨hissued, hdrawn⟩ := drawn_step hadv
  have hearlier : seen call.principal e.now s.server ⊆ seen call.principal s.server.now s.server :=
    Redis.smembers_antitone hle
  refine ⟨List.Subset.trans h.issued hissued, ?_, ?_, ?_⟩
  · intro id hid
    rcases hdrawn id hid with hold | hnew
    · exact h.fresh id hold
    · -- A fresh uuid is not one in the set.
      exact fun hmem => hnew (h.issued (hids id (seen_subset_held hmem)))
  · intro hgoing' id hid
    rw [hnow, hseen] at hid
    rcases holding_step hadv hgoing' hid with ⟨hid, hnot⟩ | hown
    · exact .inl ((h.own hgoing id (hearlier hid)).resolve_right hnot)
    · exact .inr hown
  · intro hnever id hid
    have hlive := hnever envs e [] s pc rfl hto
    rw [hnow, hseen]
    refine (mem_slotsAfter_of_ne fun hown => h.fresh id hown hid).mpr ?_
    rw [seen_eq_held hlive]
    exact seen_subset_held (h.kept hnever.init id hid)

/-- So it is known of every run. -/
theorem callInv_of_run (hids : IdsIssued call s₀) :
    ∀ {s pc}, callTo D call s₀ envs = some (s, pc) → CallInv D call s₀ envs s pc := by
  induction envs using List.reverseRecOn with
  | nil =>
    intro s pc hto
    obtain ⟨rfl, rfl⟩ := Prod.mk.inj (Option.some.inj hto)
    have hnone : (CreationPc.service call.start).drawn call = none := by
      unfold CreateCall.start
      split <;> rfl
    exact ⟨List.Subset.refl _, fun id hid => by simp [hnone] at hid, fun _ id hid => .inl hid,
      fun _ id hid => hid⟩
  | append_singleton envs e ih =>
    intro s pc hto
    unfold callTo at hto
    rw [System.follow_concat] at hto
    obtain ⟨⟨s₁, pc₁⟩, hto₁, hadv⟩ := Option.bind_eq_some_iff.mp hto
    refine (ih hto₁).step hids hto₁ hadv ?_
    exact not_abandoned_of_step hadv

/-- To withdraw is to leave the set without the call's id. -/
theorem withdraws_iff {slots : Finset String}
    (hout : pc.holding call = none → ∀ id, pc.drawn call = some id → id ∉ slots) :
    Withdraws call e slots pc ↔ ∀ id, pc.drawn call = some id → id ∉ slotsAfter e slots pc := by
  have hone : ∀ {decisionId : String} {after : Finset String},
      (∀ id, some decisionId = some id → id ∉ after) ↔ decisionId ∉ after :=
    fun {decisionId} _ => ⟨fun h => h decisionId rfl, fun h id hid => Option.some.inj hid ▸ h⟩
  have herase : ∀ decisionId,
      (e.env.fault ≠ .raises ∨ decisionId ∉ slots)
        ↔ decisionId ∉ if e.env.fault = .raises then slots else slots.erase decisionId := by
    intro decisionId
    by_cases hraises : e.env.fault = .raises
    · simp [hraises]
    · simp [hraises]
  cases pc with
  | reserve catalog policy decisionId pc =>
    cases pc with
    | sadd =>
      have hnew : decisionId ∉ slots := hout rfl decisionId rfl
      refine Iff.trans ?_ hone.symm
      show e.env.fault = .raises
        ↔ decisionId ∉ if e.env.fault = .raises then slots else insert decisionId slots
      by_cases hraises : e.env.fault = .raises
      · simp [hraises, hnew]
      · simp [hraises]
    | srem => exact (herase decisionId).trans hone.symm
    | _ => exact Iff.rfl
  | release decisionId err => exact (herase decisionId).trans hone.symm
  | _ => exact Iff.rfl

end Runs

/-- **When a failed creation leaves the set as it was.** For a call that ended
without a decision and without a row, however its awaits went: exactly if the
last of them took its id out of the set, or kept it out, or found it gone. -/
theorem failed_creation_clean_iff (D : RedisDeps Q) (call : CreateCall) (s₀ s : CreationWorld Q)
    (envs : List CreationEnv) (pc : CreationPc) (hids : IdsIssued call s₀)
    (hto : callTo D call s₀ envs = some (s, pc)) (hfailed : Failed s₀ s pc) :
    LeftAsBefore D call s₀ envs s ↔ EndsWithdrawn D call s₀ envs := by
  have hkept := (callInv_of_run hids hto).kept
  rcases List.eq_nil_or_concat envs with rfl | ⟨before, e, rfl⟩
  · -- The call came to no await.
    obtain ⟨rfl, rfl⟩ := Prod.mk.inj (Option.some.inj hto)
    constructor
    · intro _ before e _ _ hnil
      simp at hnil
    · exact fun _ => ⟨Finset.Subset.refl _, fun _ => Finset.Subset.refl _⟩
  · have hstep := hto
    unfold callTo at hstep
    rw [List.concat_eq_append, System.follow_concat] at hstep
    obtain ⟨⟨s₁, pc₁⟩, hto₁, hadv⟩ := Option.bind_eq_some_iff.mp hstep
    have hinv := callInv_of_run hids hto₁
    have hown := hinv.own (not_abandoned_of_step hadv)
    obtain ⟨hle, hnow, hseen⟩ := seen_step hadv
    have hearlier : ∀ id ∈ seen call.principal e.now s₁.server,
        id ∈ seen call.principal s₀.server.now s₀.server ∨ pc₁.holding call = some id :=
      fun id hid => hown id (Redis.smembers_antitone hle hid)
    have hwithdraws : Withdraws call e (seen call.principal e.now s₁.server) pc₁
        ↔ ∀ id, pc₁.drawn call = some id →
          id ∉ slotsAfter e (seen call.principal e.now s₁.server) pc₁ := by
      refine withdraws_iff ?_
      intro hnone id hid hmem
      rcases hearlier id hmem with hold | hheld
      · exact hinv.fresh id hid hold
      · rw [hnone] at hheld
        cases hheld
    have hends : EndsWithdrawn D call s₀ (before.concat e)
        ↔ Withdraws call e (seen call.principal e.now s₁.server) pc₁ := by
      constructor
      · exact fun h => h before e s₁ pc₁ List.concat_eq_append hto₁
      · intro h before' e' s' pc' heq hto'
        rw [List.concat_eq_append] at heq
        obtain ⟨rfl, he⟩ := List.append_inj' heq rfl
        obtain rfl := List.singleton_inj.mp he
        obtain ⟨rfl, rfl⟩ := Prod.mk.inj (Option.some.inj (hto₁.symm.trans hto'))
        exact h
    rw [hends, hwithdraws]
    unfold LeftAsBefore
    rw [hnow, hseen]
    constructor
    · intro hleft id hid hmem
      exact hinv.fresh id hid (hleft.1 hmem)
    · intro hout
      refine ⟨?_, ?_⟩
      · intro id hid
        have hne : pc₁.drawn call ≠ some id := fun hid' => hout id hid' hid
        rcases hearlier id ((mem_slotsAfter_of_ne hne).mp hid) with hold | hheld
        · exact hold
        · exact absurd (CreationPc.drawn_of_holding hheld) hne
      · intro hnever id hid
        have hmem := hkept hnever id hid
        rw [hnow, hseen] at hmem
        exact hmem

/-! ## One call in the small deployment -/

/-- The small deployment over Redis. -/
def labRedis : RedisDeps InMemoryQuota :=
  { labDeps with decisionTtlSeconds_ge := by decide }

/-- Nothing has been called yet. -/
def untouched : CreationWorld InMemoryQuota :=
  ⟨World.empty {}, {}⟩

/-- A step at one instant, which returns unless told otherwise. -/
def redisEnv (fault : Fault) (cancelled : Bool) : CreationEnv :=
  { env := { labEnv "d1" with fault }, now := 0, cancelled }

/-- `keyedCall` up to its `SADD`, which takes effect. -/
def reserving : List CreationEnv :=
  List.replicate 7 (redisEnv .returns false)

/-- The `EXPIRE` after it raises. -/
def expireRaises : List CreationEnv :=
  reserving ++ [redisEnv .raises false]

/-- The task is cancelled while it reads the signals. -/
def cancelledAtSignals : List CreationEnv :=
  reserving ++ [redisEnv .returns false, redisEnv .returns false, redisEnv .returns true]

/-- The signal read raises, and the handler releases. -/
def signalsRaise : List CreationEnv :=
  reserving ++ [redisEnv .returns false, redisEnv .returns false, redisEnv .raises false]

/-- The signals' failure leaves the set as it was. -/
theorem failed_creation_clean_iff_signalsRaise :
    ∃ s pc, callTo labRedis keyedCall untouched (signalsRaise ++ [redisEnv .returns false])
        = some (s, pc)
      ∧ Failed untouched s pc
      ∧ LeftAsBefore labRedis keyedCall untouched
          (signalsRaise ++ [redisEnv .returns false]) s := by
  have hends : ((callTo labRedis keyedCall untouched
      (signalsRaise ++ [redisEnv .returns false])).any fun r =>
        decide r.2.Abandoned && r.1.world.tables.decisions.isEmpty) = true := by
    decide +kernel
  obtain ⟨⟨s, pc⟩, hto, hfailed⟩ := (Option.any_eq_true _ _).mp hends
  rw [Bool.and_eq_true, decide_eq_true_eq, List.isEmpty_iff] at hfailed
  have hfailed : Failed untouched s pc := ⟨hfailed.1, hfailed.2⟩
  refine ⟨s, pc, hto, hfailed, (failed_creation_clean_iff labRedis keyedCall untouched s _ pc
    (by simp [IdsIssued, held, Redis.heldAt, untouched]) hto hfailed).mpr ?_⟩
  intro before e s₁ pc₁ henvs hto₁
  obtain ⟨rfl, he⟩ := List.append_inj' henvs rfl
  obtain rfl := List.singleton_inj.mp he
  have hreleasing : ((callTo labRedis keyedCall untouched signalsRaise).all fun r =>
      match r.2 with
      | .release _ _ => true
      | _ => false) = true := by
    decide +kernel
  rw [hto₁] at hreleasing
  cases pc₁ with
  | release decisionId err => exact .inl (by decide)
  | _ => cases hreleasing

/-- The call as far as `envs` take it fails and leaves its id in the set. -/
def LeavesSlot (envs : List CreationEnv) : Prop :=
  ∃ s pc, callTo labRedis keyedCall untouched envs = some (s, pc) ∧ Failed untouched s pc
    ∧ ¬ LeftAsBefore labRedis keyedCall untouched envs s

/-- A run that leaves the slot, checked by running it. -/
theorem leavesSlot_of_run {envs : List CreationEnv}
    (h : ((callTo labRedis keyedCall untouched envs).any fun r =>
      (decide r.2.Abandoned && r.1.world.tables.decisions.isEmpty)
        && decide ("d1" ∈ seen labAgent r.1.server.now r.1.server)) = true) : LeavesSlot envs := by
  obtain ⟨⟨s, pc⟩, hto, hend⟩ := (Option.any_eq_true _ _).mp h
  rw [Bool.and_eq_true, Bool.and_eq_true, decide_eq_true_eq, decide_eq_true_eq,
    List.isEmpty_iff] at hend
  obtain ⟨⟨habandoned, hrows⟩, hid⟩ := hend
  refine ⟨s, pc, hto, ⟨habandoned, hrows⟩, ?_⟩
  intro hclean
  have hbefore := hclean.1 hid
  exact absurd hbefore (by decide +kernel)

/-- Two failing calls that leave their id in the set: `EXPIRE` raises after
the `SADD`, before the `try`; or the task is cancelled in the `try`, and the
handler does not run. -/
theorem slot_left_behind : LeavesSlot expireRaises ∧ LeavesSlot cancelledAtSignals := by
  refine ⟨leavesSlot_of_run ?_, leavesSlot_of_run ?_⟩
  · decide +kernel
  · decide +kernel

end ControlPlane
