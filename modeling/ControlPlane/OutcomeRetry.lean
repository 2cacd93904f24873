import ControlPlane.QuotaSteps
import ControlPlane.Traces

/-!
# Retrying an outcome

The store commits, and after the commit come three more effects: the slot is
released, the spend recorded, the event published. An agent that gets an
error retries, and the retry finds the outcome stored and does none of the
three. So what the effects amount to in the end is decided by the first
attempt that gets to the store (`effects_iff_first_admitted`).
-/

namespace ControlPlane

open Lib

variable {policies : List (String × RoutingPolicy)} {settings : Settings}

/-- One attempt: what each of its six awaits meets. The calls after the
commit may fail, before or after their effect; the ones before it do not. -/
structure Attempt where
  rpm : Env
  context : Env
  store : Env
  release : Env
  spend : Env
  publish : Env
  rpm_returns : rpm.fault = .returns
  context_returns : context.fault = .returns
  store_returns : store.fault = .returns

/-- What the six awaits of an attempt meet. -/
def Attempt.envs (a : Attempt) : List Env :=
  [a.rpm, a.context, a.store, a.release, a.spend, a.publish]

/-- The agent reports until a call returns; `none` when it is still trying. -/
def reportUntilReturned (D : Deps InMemoryQuota) (call : OutcomeCall) (w : World InMemoryQuota)
    (attempts : List Attempt) : Option (World InMemoryQuota × RoutingOutcomeResponse) :=
  (controlPlane D).retry Task.outcomeResponse (.outcome call call.start) w
    (attempts.map Attempt.envs)

/-- The three effects of an outcome of `decision`, each exactly once. -/
structure ExactlyOnce (call : OutcomeCall) (decision : RoutingDecisionRecord)
    (w w' : World InMemoryQuota) : Prop where
  slot : call.outcome.decisionId ∉ w'.quota.concurrent (decision.environment, decision.agentId)
  spend : ChargedFor call w w'
  event : w'.events = w.events ++ [outcomeEvent call]

/-- The first attempt the RPM check lets through. -/
def firstAdmitted (p : AgentPrincipal) : InMemoryQuota → List Attempt → Option Attempt
  | _, [] => none
  | q, a :: as =>
    match q.enforceRpm a.rpm.clock p with
    | (_, .ok ()) => some a
    | (q', .error _) => firstAdmitted p q' as

/-- Release and charge return, and the event gets out. -/
def Attempt.EffectsComplete (a : Attempt) : Prop :=
  a.release.fault = .returns ∧ a.spend.fault = .returns ∧ a.publish.fault ≠ .raises

/-! ## Once the outcome is stored -/

/-- The world a retry leaves behind: the one it found, but for RPM. -/
structure Unmoved (w w' : World InMemoryQuota) : Prop where
  tables : w'.tables = w.tables
  concurrent : w'.quota.concurrent = w.quota.concurrent
  dailyBudget : w'.quota.dailyBudget = w.quota.dailyBudget
  events : w'.events = w.events

/-- Nothing has moved at first. -/
theorem Unmoved.refl (w : World InMemoryQuota) : Unmoved w w := ⟨rfl, rfl, rfl, rfl⟩

/-- Nor after two stretches in which nothing moves. -/
theorem Unmoved.trans {w₁ w₂ w₃ : World InMemoryQuota} (h₁ : Unmoved w₁ w₂) (h₂ : Unmoved w₂ w₃) :
    Unmoved w₁ w₃ :=
  ⟨h₂.tables.trans h₁.tables, h₂.concurrent.trans h₁.concurrent,
    h₂.dailyBudget.trans h₁.dailyBudget, h₂.events.trans h₁.events⟩

/-- The decision's row has an outcome. -/
def Closed (decisionId : String) (w : World InMemoryQuota) : Prop :=
  ∀ row, w.tables.getDecisionContext decisionId = some row → row.outcomePayload.isSome

/-- Where a call about a closed decision can be. -/
def OutcomePc.Idle (decisionId : String) : OutcomePc → Prop
  | .storeOutcome record => record.decisionId = decisionId
  | .release _ | .recordSpend _ | .publish _ => False
  | _ => True

/-- A report of a closed decision moves nothing. -/
theorem OutcomeStep.unmoved {env : Env} {call : OutcomeCall} {w w' : World InMemoryQuota}
    {pc pc' : OutcomePc}
    (h : OutcomeStep (buildInMemoryRuntime policies settings) env call w pc w' pc')
    (hclosed : Closed call.outcome.decisionId w) (hpc : pc.Idle call.outcome.decisionId) :
    Unmoved w w' ∧ pc'.Idle call.outcome.decisionId := by
  cases h with
  | rpmRaised _ hq =>
    rcases hq with rfl | rfl
    · exact ⟨.refl w, trivial⟩
    · exact ⟨⟨rfl, rfl, rfl, rfl⟩, trivial⟩
  | rpmRefused _ hq =>
    obtain ⟨rfl, -⟩ := Prod.mk.inj hq
    exact ⟨⟨rfl, rfl, rfl, rfl⟩, trivial⟩
  | rpmPassed _ hq =>
    obtain ⟨rfl, -⟩ := Prod.mk.inj hq
    exact ⟨⟨rfl, rfl, rfl, rfl⟩, trivial⟩
  | owned _ hown =>
    exact ⟨.refl w, (Tables.getDecisionContext_some (checkOwnership_ok hown).1).2⟩
  -- The decision has an outcome, so the store answers `duplicate`.
  | storeLost _ hrec =>
    rcases recordOutcome_rowStep hrec with ⟨rfl, -⟩ | ⟨decision, hctx, hopen, -, -⟩
    · exact ⟨⟨rfl, rfl, rfl, rfl⟩, trivial⟩
    · have hsome := hclosed decision (hpc ▸ hctx)
      simp [hopen] at hsome
  | recorded _ hrec hstatus =>
    rcases recordOutcome_rowStep hrec with ⟨-, hdup⟩ | ⟨decision, hctx, hopen, -, -⟩
    · simp [hstatus] at hdup
    · have hsome := hclosed decision (hpc ▸ hctx)
      simp [hopen] at hsome
  | duplicate _ hrec hstatus =>
    rcases recordOutcome_rowStep hrec with ⟨rfl, -⟩ | ⟨decision, -, -, -, rfl⟩
    · exact ⟨⟨rfl, rfl, rfl, rfl⟩, trivial⟩
    · exact absurd rfl hstatus
  | releaseRaised => exact hpc.elim
  | released => exact hpc.elim
  | spendRaised => exact hpc.elim
  | spent => exact hpc.elim
  | publishRaised => exact hpc.elim
  | published => exact hpc.elim
  | _ => exact ⟨.refl w, trivial⟩

/-- A call about a closed decision, wherever it is. -/
def Harmless (call : OutcomeCall) (w w' : World InMemoryQuota) (t : Task) : Prop :=
  Unmoved w w' ∧ ∃ pc, t = .outcome call pc ∧ pc.Idle call.outcome.decisionId

/-- So a step of a harmless call is harmless. -/
theorem harmless_step {env : Env} {call : OutcomeCall} {w w₁ w₂ : World InMemoryQuota}
    {t t' : Task} (hclosed : Closed call.outcome.decisionId w)
    (hadv : (controlPlane (buildInMemoryRuntime policies settings)).advance env w₁ t
      = some (w₂, t')) (h : Harmless call w w₁ t) : Harmless call w w₂ t' := by
  obtain ⟨hunmoved, pc, rfl, hpc⟩ := h
  rcases advance_cases hadv with ⟨_, _, _, he, -, -⟩ | ⟨_, _, pc', he, rfl, hstep⟩
  · simp at he
  · obtain ⟨rfl, rfl⟩ := Task.outcome.inj he
    have hclosed₁ : Closed call.outcome.decisionId w₁ := by
      intro row hrow
      rw [hunmoved.tables] at hrow
      exact hclosed row hrow
    obtain ⟨hstep', hpc'⟩ := hstep.unmoved hclosed₁ hpc
    exact ⟨hunmoved.trans hstep', pc', rfl, hpc'⟩

/-- **Reporting a stored outcome again does nothing.** -/
theorem report_unmoved {call : OutcomeCall} {w w' : World InMemoryQuota}
    {l : List (List Env)} {response : RoutingOutcomeResponse}
    (hclosed : Closed call.outcome.decisionId w)
    (h : (controlPlane (buildInMemoryRuntime policies settings)).retry Task.outcomeResponse
      (.outcome call call.start) w l = some (w', response)) : Unmoved w w' := by
  -- Attempt after attempt, and within an attempt step after step.
  refine System.retry_invariant (I := Unmoved w) _ ?_ h (.refl w)
  intro w₁ envs hunmoved
  have hstart : call.start.Idle call.outcome.decisionId := by
    unfold OutcomeCall.start
    split <;> exact trivial
  have hinit : Harmless call w w₁ (.outcome call call.start) := ⟨hunmoved, _, rfl, hstart⟩
  exact (System.solo_invariant _
    (fun _ _ _ _ _ hadv hharmless => harmless_step hclosed hadv hharmless) hinit).1

/-! ## The attempt that stores the outcome -/

/-- A call that may not report, wherever it is. -/
def Refused (call : OutcomeCall) (w w' : World InMemoryQuota) (t : Task) : Prop :=
  w'.tables = w.tables ∧ ∃ pc, t = .outcome call pc
    ∧ (pc = .enforceRpm ∨ pc = .getContext ∨ ∃ err, pc = .raised err)

/-- A refused call does not get past the check. -/
theorem refused_step {env : Env} {call : OutcomeCall} {w w₁ w₂ : World InMemoryQuota}
    {t t' : Task} {err : ServiceError}
    (hown : checkOwnership call (w.tables.getDecisionContext call.outcome.decisionId) = .error err)
    (hadv : (controlPlane (buildInMemoryRuntime policies settings)).advance env w₁ t
      = some (w₂, t')) (h : Refused call w w₁ t) : Refused call w w₂ t' := by
  obtain ⟨htables, pc, rfl, hpc⟩ := h
  rcases advance_cases hadv with ⟨_, _, _, he, -, -⟩ | ⟨_, _, pc', he, rfl, hstep⟩
  · simp at he
  · obtain ⟨rfl, rfl⟩ := Task.outcome.inj he
    cases hstep with
    | rpmRaised => exact ⟨htables, _, rfl, .inr (.inr ⟨_, rfl⟩)⟩
    | rpmRefused => exact ⟨htables, _, rfl, .inr (.inr ⟨_, rfl⟩)⟩
    | rpmPassed => exact ⟨htables, _, rfl, .inr (.inl rfl)⟩
    | contextRaised => exact ⟨htables, _, rfl, .inr (.inr ⟨_, rfl⟩)⟩
    | disowned => exact ⟨htables, _, rfl, .inr (.inr ⟨_, rfl⟩)⟩
    | owned _ hok =>
      rw [htables, hown] at hok
      simp at hok
    | _ => simp at hpc

/-- A call that returns was let through by both checks. -/
theorem report_owned {call : OutcomeCall} {w w' : World InMemoryQuota} {l : List (List Env)}
    {response : RoutingOutcomeResponse}
    (h : (controlPlane (buildInMemoryRuntime policies settings)).retry Task.outcomeResponse
      (.outcome call call.start) w l = some (w', response)) :
    call.start = .enforceRpm ∧ ∃ record, checkOwnership call
      (w.tables.getDecisionContext call.outcome.decisionId) = .ok record := by
  constructor
  · unfold OutcomeCall.start at h ⊢
    split at h
    next =>
      obtain ⟨w₁, envs, -, -, hresult⟩ := System.retry_last (I := fun _ => True) _
        (fun _ _ _ => trivial) h trivial
      rw [System.solo_stuck _ (fun _ => rfl)] at hresult
      simp [Task.outcomeResponse] at hresult
    next hagent => rw [if_neg hagent]
  · cases hown : checkOwnership call (w.tables.getDecisionContext call.outcome.decisionId) with
    | ok record => exact ⟨record, rfl⟩
    | error err =>
      have hstart : call.start = .enforceRpm ∨ call.start = .getContext
          ∨ ∃ err, call.start = .raised err := by
        unfold OutcomeCall.start
        split
        · exact .inr (.inr ⟨_, rfl⟩)
        · exact .inl rfl
      have hsolo : ∀ w₁ envs, w₁.tables = w.tables → Refused call w
          ((controlPlane (buildInMemoryRuntime policies settings)).solo w₁
            (.outcome call call.start) envs).1
          ((controlPlane (buildInMemoryRuntime policies settings)).solo w₁
            (.outcome call call.start) envs).2 := by
        intro w₁ envs htables
        exact System.solo_invariant _ (fun _ _ _ _ _ hadv h => refused_step hown hadv h)
          ⟨htables, _, rfl, hstart⟩
      obtain ⟨w₁, envs, htables, -, hresult⟩ := System.retry_last
        (I := fun w₁ => w₁.tables = w.tables) _ (fun w₁ envs ht => (hsolo w₁ envs ht).1) h rfl
      obtain ⟨-, pc, heq, hpc⟩ := hsolo w₁ envs htables
      rw [heq] at hresult
      rcases hpc with rfl | rfl | ⟨err, rfl⟩ <;> simp [Task.outcomeResponse] at hresult

section Effects

variable (policies settings) (call : OutcomeCall) (w : World InMemoryQuota)
  (response : RoutingOutcomeResponse)

/-- The three effects, when none of them fails before it is done. -/
theorem tail_complete {e₁ e₂ e₃ : Env} (h₁ : e₁.fault = .returns) (h₂ : e₂.fault = .returns)
    (h₃ : e₃.fault ≠ .raises) :
    let w' := ((controlPlane (buildInMemoryRuntime policies settings)).solo w
      (.outcome call (.release response)) [e₁, e₂, e₃]).1
    w'.tables = w.tables ∧ w'.events = w.events ++ [outcomeEvent call]
      ∧ w'.quota = (w.quota.releaseConcurrency call.principal call.outcome.decisionId).recordSpend
        e₂.clock call.principal call.outcome.finalCostUsd := by
  cases h : e₃.fault with
  | raises => exact absurd h h₃
  | returns =>
    simp [System.solo, controlPlane, advance, advanceOutcome, awaited, h₁, h₂, h,
      World.releaseSlot, World.chargeSpend, buildInMemoryRuntime, InMemoryQuota.manager]
  | raisesAfter =>
    simp [System.solo, controlPlane, advance, advanceOutcome, awaited, h₁, h₂, h,
      World.releaseSlot, World.chargeSpend, buildInMemoryRuntime, InMemoryQuota.manager]

/-- None of the three fails before it is done, or no event goes out. -/
theorem tail_incomplete {e₁ e₂ e₃ : Env}
    (h : ¬ (e₁.fault = .returns ∧ e₂.fault = .returns ∧ e₃.fault ≠ .raises)) :
    let w' := ((controlPlane (buildInMemoryRuntime policies settings)).solo w
      (.outcome call (.release response)) [e₁, e₂, e₃]).1
    w'.tables = w.tables ∧ w'.events = w.events := by
  cases h₁ : e₁.fault with
  | raises => simp [System.solo, controlPlane, advance, advanceOutcome, awaited, h₁]
  | raisesAfter =>
    simp [System.solo, controlPlane, advance, advanceOutcome, awaited, h₁, World.releaseSlot]
  | returns =>
    cases h₂ : e₂.fault with
    | raises =>
      simp [System.solo, controlPlane, advance, advanceOutcome, awaited, h₁, h₂,
        World.releaseSlot]
    | raisesAfter =>
      simp [System.solo, controlPlane, advance, advanceOutcome, awaited, h₁, h₂,
        World.releaseSlot, World.chargeSpend]
    | returns =>
      have h₃ : e₃.fault = .raises := by
        by_contra hne
        exact h ⟨h₁, h₂, hne⟩
      simp [System.solo, controlPlane, advance, advanceOutcome, awaited, h₁, h₂, h₃,
        World.releaseSlot, World.chargeSpend]

/-- The tables are done by then. -/
theorem tail_tables (e₁ e₂ e₃ : Env) :
    ((controlPlane (buildInMemoryRuntime policies settings)).solo w
      (.outcome call (.release response)) [e₁, e₂, e₃]).1.tables = w.tables := by
  by_cases h : e₁.fault = .returns ∧ e₂.fault = .returns ∧ e₃.fault ≠ .raises
  · exact (tail_complete policies settings call w response h.1 h.2.1 h.2.2).1
  · exact (tail_incomplete policies settings call w response h).1

end Effects

/-- Storing an outcome closes its decision. -/
theorem closed_storeOutcome {w : World InMemoryQuota} {tables : Tables} {decisionId : String}
    {outcome : RoutingOutcomeRequest} {idempotencyKey : Option String}
    (h : w.tables = tables.storeOutcome decisionId outcome idempotencyKey) :
    Closed decisionId w := by
  intro row hrow
  obtain ⟨hmem, hid⟩ := Tables.getDecisionContext_some hrow
  rw [h] at hmem
  obtain ⟨row₀, -, rfl⟩ := List.mem_map.mp hmem
  by_cases h₀ : row₀.decisionId = decisionId
  · rw [if_pos h₀]
    rfl
  · rw [if_neg h₀] at hid
    exact absurd hid h₀

/-- An attempt the RPM check refuses. -/
theorem attempt_refused {call : OutcomeCall} {w : World InMemoryQuota} {a : Attempt}
    {q : InMemoryQuota} {err : ServiceError} (hstart : call.start = .enforceRpm)
    (hrpm : w.quota.enforceRpm a.rpm.clock call.principal = (q, .error err)) :
    (controlPlane (buildInMemoryRuntime policies settings)).solo w (.outcome call call.start)
      a.envs = ({ w with quota := q }, .outcome call (.raised err)) := by
  have hadv : (controlPlane (buildInMemoryRuntime policies settings)).advance a.rpm w
      (.outcome call .enforceRpm) = some ({ w with quota := q }, .outcome call (.raised err)) := by
    simp [controlPlane, advance, advanceOutcome, awaited, a.rpm_returns, buildInMemoryRuntime,
      InMemoryQuota.manager, World.withQuota, hrpm]
  rw [hstart, Attempt.envs, System.solo_cons _ hadv]
  exact System.solo_stuck _ (fun _ => rfl) _

/-- An attempt that gets to the store of an open decision. -/
theorem attempt_stored {call : OutcomeCall} {w : World InMemoryQuota} {a : Attempt}
    {q : InMemoryQuota} {decision : RoutingDecisionRecord} (hstart : call.start = .enforceRpm)
    (hrpm : w.quota.enforceRpm a.rpm.clock call.principal = (q, .ok ()))
    (hown : checkOwnership call (w.tables.getDecisionContext call.outcome.decisionId)
      = .ok decision) (hopen : decision.outcomePayload = none) :
    (controlPlane (buildInMemoryRuntime policies settings)).solo w (.outcome call call.start)
        a.envs
      = (controlPlane (buildInMemoryRuntime policies settings)).solo
        { w with
          quota := q
          tables := w.tables.storeOutcome call.outcome.decisionId call.outcome
            call.idempotencyKey }
        (.outcome call (.release (recordedResponse call.outcome.decisionId call.outcome)))
        [a.release, a.spend, a.publish] := by
  have hctx := (checkOwnership_ok hown).1
  have hid := (Tables.getDecisionContext_some hctx).2
  have hrec : recordOutcome decision call.outcome call.idempotencyKey w.tables
      = .ok (w.tables.storeOutcome call.outcome.decisionId call.outcome call.idempotencyKey,
        recordedResponse call.outcome.decisionId call.outcome) := by
    unfold recordOutcome
    rw [hid, hctx]
    simp [hopen, hid]
  have hadv₁ : (controlPlane (buildInMemoryRuntime policies settings)).advance a.rpm w
      (.outcome call .enforceRpm) = some ({ w with quota := q }, .outcome call .getContext) := by
    simp [controlPlane, advance, advanceOutcome, awaited, a.rpm_returns, buildInMemoryRuntime,
      InMemoryQuota.manager, World.withQuota, hrpm]
  have hadv₂ : (controlPlane (buildInMemoryRuntime policies settings)).advance a.context
      { w with quota := q } (.outcome call .getContext)
        = some ({ w with quota := q }, .outcome call (.storeOutcome decision)) := by
    simp [controlPlane, advance, advanceOutcome, awaited, a.context_returns, hown]
  rw [hstart, Attempt.envs, System.solo_cons _ hadv₁, System.solo_cons _ hadv₂]
  refine System.solo_cons _ ?_
  simp [controlPlane, advance, advanceOutcome, awaited, a.store_returns, World.insertOutcome, hrec,
    recordedResponse]

/-! ## The run of retries -/

/-- The world the first admitted attempt leaves is the world at the end: the
attempts before it are refused, the ones after it are about a closed
decision. -/
theorem report_settled {call : OutcomeCall} {decision : RoutingDecisionRecord}
    {response : RoutingOutcomeResponse} (hstart : call.start = .enforceRpm)
    (hopen : decision.outcomePayload = none) :
    ∀ {attempts : List Attempt} {w w' : World InMemoryQuota},
      checkOwnership call (w.tables.getDecisionContext call.outcome.decisionId) = .ok decision →
      reportUntilReturned (buildInMemoryRuntime policies settings) call w attempts
        = some (w', response) →
      ∃ a w₂, firstAdmitted call.principal w.quota attempts = some a
        ∧ w₂.quota.concurrent = w.quota.concurrent
        ∧ w₂.quota.dailyBudget = w.quota.dailyBudget ∧ w₂.events = w.events
        ∧ Unmoved ((controlPlane (buildInMemoryRuntime policies settings)).solo w₂
            (.outcome call (.release (recordedResponse call.outcome.decisionId call.outcome)))
            [a.release, a.spend, a.publish]).1 w'
  | [], _, _, _, h => by simp [reportUntilReturned, System.retry] at h
  | a :: attempts, w, w', hown, h => by
    simp only [reportUntilReturned, List.map_cons, System.retry] at h
    rcases hrpm : w.quota.enforceRpm a.rpm.clock call.principal with ⟨q, err | ⟨⟩⟩
    · -- The minute is used up: only the RPM counter has moved.
      obtain rfl : (w.quota.enforceRpm a.rpm.clock call.principal).1 = q := by rw [hrpm]
      rw [attempt_refused hstart hrpm] at h
      obtain ⟨b, w₂, hb, hconcurrent, hbudget, hevents, hunmoved⟩ :=
        report_settled (w := { w with quota := (w.quota.enforceRpm a.rpm.clock call.principal).1 })
          hstart hopen hown h
      refine ⟨b, w₂, ?_, hconcurrent, hbudget, hevents, hunmoved⟩
      rw [firstAdmitted, hrpm]
      exact hb
    · obtain rfl : (w.quota.enforceRpm a.rpm.clock call.principal).1 = q := by rw [hrpm]
      rw [attempt_stored hstart hrpm hown hopen] at h
      refine ⟨a, { w with
          quota := (w.quota.enforceRpm a.rpm.clock call.principal).1
          tables := w.tables.storeOutcome call.outcome.decisionId call.outcome
            call.idempotencyKey },
        by rw [firstAdmitted, hrpm], rfl, rfl, rfl, ?_⟩
      split at h
      next =>
        obtain ⟨rfl, -⟩ := Prod.mk.inj (Option.some.inj h)
        exact .refl _
      next =>
        -- The attempt raised with the outcome stored, so the retries change nothing.
        have htables := tail_tables policies settings call { w with
            quota := (w.quota.enforceRpm a.rpm.clock call.principal).1
            tables := w.tables.storeOutcome call.outcome.decisionId call.outcome
              call.idempotencyKey }
          (recordedResponse call.outcome.decisionId call.outcome) a.release a.spend a.publish
        exact report_unmoved (closed_storeOutcome htables) h

/-- **The first attempt past the RPM check decides.** When a call about an
open decision finally returns, its slot is released, its cost charged once
and its event published once exactly if that attempt lost none of its three
effects, and the reporting principal is one the slot is not hidden from. -/
theorem effects_iff_first_admitted (policies : List (String × RoutingPolicy))
    (settings : Settings) (call : OutcomeCall) (attempts : List Attempt)
    (decision : RoutingDecisionRecord) (w w' : World InMemoryQuota)
    (response : RoutingOutcomeResponse)
    (hctx : w.tables.getDecisionContext call.outcome.decisionId = some decision)
    (hopen : decision.outcomePayload = none)
    (h : reportUntilReturned (buildInMemoryRuntime policies settings) call w attempts
      = some (w', response)) :
    ExactlyOnce call decision w w' ↔
      (∃ a, firstAdmitted call.principal w.quota attempts = some a ∧ a.EffectsComplete)
        ∧ (call.principal.environment = decision.environment ∨ call.outcome.decisionId
          ∉ w.quota.concurrent (decision.environment, decision.agentId)) := by
  obtain ⟨hstart, record, hown⟩ := report_owned h
  obtain ⟨hrecord, hagent, -⟩ := checkOwnership_ok hown
  obtain rfl : decision = record := Option.some.inj (hctx.symm.trans hrecord)
  obtain ⟨a, w₂, ha, hconcurrent, hbudget, hevents, hunmoved⟩ := report_settled hstart hopen hown h
  rw [ha]
  by_cases hc : a.EffectsComplete
  · obtain ⟨-, htailEvents, htailQuota⟩ := tail_complete policies settings call w₂
      (recordedResponse call.outcome.decisionId call.outcome) hc.1 hc.2.1 hc.2.2
    have hevent : w'.events = w.events ++ [outcomeEvent call] := by
      rw [hunmoved.events, htailEvents, hevents]
    have hspend : ChargedFor call w w' := by
      refine .of_recordSpend a.spend.clock hbudget ?_
      rw [hunmoved.dailyBudget, htailQuota]
      rfl
    have hslots : w'.quota.concurrent = Function.update w.quota.concurrent
        call.principal.quotaKey
        ((w.quota.concurrent call.principal.quotaKey).erase call.outcome.decisionId) := by
      rw [hunmoved.concurrent, htailQuota, ← hconcurrent]
      rfl
    have hslot : call.outcome.decisionId
          ∉ w'.quota.concurrent (decision.environment, decision.agentId) ↔
        call.principal.environment = decision.environment ∨ call.outcome.decisionId
          ∉ w.quota.concurrent (decision.environment, decision.agentId) := by
      rw [hslots]
      by_cases henv : call.principal.environment = decision.environment
      · -- The release goes to the key the slot is under.
        have hkey : (decision.environment, decision.agentId) = call.principal.quotaKey := by
          rw [AgentPrincipal.quotaKey, henv, hagent]
        simp [hkey, henv]
      · have hkey : (decision.environment, decision.agentId) ≠ call.principal.quotaKey := by
          intro heq
          exact henv (congrArg Prod.fst heq).symm
        rw [Function.update_of_ne hkey]
        simp [henv]
    constructor
    · intro honce
      exact ⟨⟨a, rfl, hc⟩, hslot.mp honce.slot⟩
    · intro hadmitted
      obtain ⟨-, hfree⟩ := hadmitted
      exact ⟨hslot.mpr hfree, hspend, hevent⟩
  · -- The event is published last, so it is missing whichever effect was lost.
    have hnone : w'.events = w.events :=
      hunmoved.events.trans ((tail_incomplete policies settings call w₂ _ hc).2.trans hevents)
    constructor
    · intro honce
      have hevent := honce.event
      rw [hnone] at hevent
      simp at hevent
    · intro hadmitted
      obtain ⟨⟨b, hb, hcomplete⟩, -⟩ := hadmitted
      obtain rfl := Option.some.inj hb
      exact absurd hcomplete hc

/-! ## Two runs of retries -/

/-- An attempt on which nothing fails. -/
def cleanAttempt : Attempt :=
  { rpm := labEnv ""
    context := labEnv ""
    store := labEnv ""
    release := labEnv ""
    spend := labEnv ""
    publish := labEnv ""
    rpm_returns := rfl
    context_returns := rfl
    store_returns := rfl }

/-- Releasing the slot raises. -/
def lossyAttempt : Attempt :=
  { cleanAttempt with release := { labEnv "" with fault := .raises } }

/-- The event gets out and the call raises all the same. -/
def unansweredAttempt : Attempt :=
  { cleanAttempt with publish := { labEnv "" with fault := .raisesAfter } }

/-- The retry gets the answer, as a duplicate, and nothing is missing. -/
theorem effects_iff_first_admitted_unanswered :
    ∃ decision w' response,
      answeredWorld.tables.getDecisionContext "a" = some decision ∧
      reportUntilReturned labDeps reportCall answeredWorld [unansweredAttempt, cleanAttempt]
        = some (w', response) ∧
      response.outcomeStatus = .duplicate ∧
      ExactlyOnce reportCall decision answeredWorld w' := by
  obtain ⟨decision, hctx, hdecision⟩ : ∃ decision,
      answeredWorld.tables.getDecisionContext "a" = some decision
        ∧ (decision.outcomePayload.isNone && decision.environment == "internal") = true :=
    (Option.any_eq_true _ _).mp (by decide +kernel)
  obtain ⟨hopen, henv⟩ := Bool.and_eq_true_iff.mp hdecision
  obtain ⟨⟨w', response⟩, hreport, hduplicate⟩ : ∃ r,
      reportUntilReturned labDeps reportCall answeredWorld [unansweredAttempt, cleanAttempt]
        = some r ∧ decide (r.2.outcomeStatus = .duplicate) = true :=
    (Option.any_eq_true _ _).mp (by decide +kernel)
  have hadmitted : firstAdmitted labAgent answeredWorld.quota [unansweredAttempt, cleanAttempt]
      = some unansweredAttempt := by
    have hok : (answeredWorld.quota.enforceRpm unansweredAttempt.rpm.clock labAgent).2.isOk
        = true := by
      decide +kernel
    rw [firstAdmitted]
    rcases hrpm : answeredWorld.quota.enforceRpm unansweredAttempt.rpm.clock labAgent with
      ⟨q, err | ⟨⟩⟩
    · rw [hrpm] at hok
      simp [Except.isOk, Except.toBool] at hok
    · rfl
  exact ⟨decision, w', response, hctx, hreport, of_decide_eq_true hduplicate,
    (effects_iff_first_admitted [("balanced", balancedPolicy)] {} reportCall
      [unansweredAttempt, cleanAttempt] decision answeredWorld w' response hctx
      (Option.isNone_iff_eq_none.mp hopen) hreport).mpr
      ⟨⟨unansweredAttempt, hadmitted, rfl, rfl, by simp [unansweredAttempt]⟩,
        .inl (eq_of_beq henv).symm⟩⟩

/-- **The retry is a duplicate and makes up for nothing.** Releasing the slot
raises once; the agent retries and gets an answer; the slot is held for good,
nothing is charged, no event goes out. -/
theorem lost_release_never_made_up :
    ∃ decision w' response,
      answeredWorld.tables.getDecisionContext "a" = some decision ∧
      decision.outcomePayload = none ∧
      reportUntilReturned labDeps reportCall answeredWorld [lossyAttempt, cleanAttempt]
        = some (w', response) ∧
      response.outcomeStatus = .duplicate ∧
      "a" ∈ w'.quota.concurrent ("internal", "agent-1") ∧
      w'.quota.dailyBudget ("internal", "agent-1", "2026-04-01") = 0 ∧ w'.events = [] ∧
      ¬ ExactlyOnce reportCall decision answeredWorld w' := by
  obtain ⟨decision, hctx, hdecision⟩ : ∃ decision,
      answeredWorld.tables.getDecisionContext "a" = some decision
        ∧ decision.outcomePayload.isNone = true :=
    (Option.any_eq_true _ _).mp (by decide +kernel)
  obtain ⟨⟨w', response⟩, hreport, hw⟩ : ∃ r,
      reportUntilReturned labDeps reportCall answeredWorld [lossyAttempt, cleanAttempt] = some r
        ∧ decide (r.2.outcomeStatus = .duplicate
          ∧ "a" ∈ r.1.quota.concurrent ("internal", "agent-1")
          ∧ r.1.quota.dailyBudget ("internal", "agent-1", "2026-04-01") = 0
          ∧ r.1.events = []) = true :=
    (Option.any_eq_true _ _).mp (by decide +kernel)
  obtain ⟨hdup, hheld, hspend, hevents⟩ := of_decide_eq_true hw
  refine ⟨decision, w', response, hctx, Option.isNone_iff_eq_none.mp hdecision, hreport, hdup,
    hheld, hspend, hevents, ?_⟩
  intro honce
  have hevent := honce.event
  rw [hevents] at hevent
  simp at hevent

end ControlPlane
