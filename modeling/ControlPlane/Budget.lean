import ControlPlane.QuotaSteps
import ControlPlane.Traces

/-!
# The daily budget

A decision is let in when the spend recorded so far and its own limit fit
the budget; what the decisions before it may still cost is not looked at,
since a decision's cost is recorded when its outcome is. So the budget holds
as long as no decision is let in while the outstanding ones leave no room
for it (`budget_holds_of_room`), and two decisions that each fit alone are
enough to break it (`two_decisions_overspend`).

One principal, one day. Any awaited call may fail, before or after its
effect: a lost outcome leaves less to charge, never more. Limits, costs and
the recorded spend are exact rationals; a sum of floats may be an ulp off.
-/

namespace ControlPlane

open Lib

variable {policies : List (String × RoutingPolicy)} {settings : Settings}
  {env : Env} {w w' : World InMemoryQuota} {t t' : Task}

/-! ## What is outstanding -/

/-- What an open decision may still cost. -/
def RoutingDecisionRecord.openLimit (row : RoutingDecisionRecord) : ℚ :=
  if row.outcomePayload.isNone then row.requestPayload.budgetLimitUsd else 0

/-- What a call has been let in for and has not stored, or has stored and not
charged. -/
def Task.outstanding : Task → ℚ
  | create call pc =>
    match pc with
    | .ensureCatalog _ _ | .ensurePolicies _ _ | .reserve _ _ _ | .getSignals _ _ _
    | .storeDecision _ => call.request.budgetLimitUsd
    | _ => 0
  | outcome call pc =>
    match pc with
    | .release _ | .recordSpend _ => call.outcome.finalCostUsd
    | _ => 0

/-- The limits of the open decisions. -/
def World.openLimits (w : World InMemoryQuota) : ℚ :=
  sumOver (·.openLimit) w.tables.decisions

/-- All that may yet be charged. -/
def outstanding (c : Conf (World InMemoryQuota) Task) : ℚ :=
  c.world.openLimits + sumOver Task.outstanding c.tasks

/-- What a principal has spent on a day. -/
def World.spend (w : World InMemoryQuota) (p : AgentPrincipal) (day : String) : ℚ :=
  w.quota.dailyBudget (p.environment, p.agentId, day)

/-- No open decision takes back budget. -/
theorem RoutingDecisionRecord.openLimit_nonneg (row : RoutingDecisionRecord) :
    0 ≤ row.openLimit := by
  unfold openLimit
  split
  · exact row.requestPayload.budgetLimitUsd_ge
  · exact le_refl 0

/-- No call in flight takes back budget. -/
theorem Task.outstanding_nonneg (t : Task) : 0 ≤ t.outstanding := by
  cases t with
  | create call pc => cases pc <;> first | exact call.request.budgetLimitUsd_ge | exact le_refl 0
  | outcome call pc => cases pc <;> first | exact call.outcome.finalCostUsd_ge | exact le_refl 0

/-! ## Runs of one principal within one day -/

/-- The call at the budget check. -/
def Task.admitting : Task → Option CreateCall
  | create call .currentSpend => some call
  | _ => none

/-- The call about to store an outcome, and the row it has read. -/
def Task.storing : Task → Option (OutcomeCall × RoutingDecisionRecord)
  | outcome call (.storeOutcome record) => some (call, record)
  | _ => none

/-- An outcome costs at most the limit of the decision it closes. -/
def Task.WithinLimit (w : World InMemoryQuota) (t : Task) : Prop :=
  ∀ report ∈ t.storing, ∀ decision ∈ w.tables.getDecisionContext report.2.decisionId,
    decision.outcomePayload.isNone →
      report.1.outcome.finalCostUsd ≤ decision.requestPayload.budgetLimitUsd

instance (w : World InMemoryQuota) (t : Task) : Decidable (t.WithinLimit w) :=
  inferInstanceAs (Decidable (∀ report ∈ t.storing,
    ∀ decision ∈ w.tables.getDecisionContext report.2.decisionId,
      decision.outcomePayload.isNone →
        report.1.outcome.finalCostUsd ≤ decision.requestPayload.budgetLimitUsd))

/-- Runs of one principal within one day, each outcome within its decision's
limit. -/
def OneDay (p : AgentPrincipal) (day : String) (c : Conf (World InMemoryQuota) Task) :
    Act Task Env → Prop
  | .start t => t.Started ∧ t.principal = p
  | .run i env => env.clock.today = day ∧ ∀ t ∈ c.tasks[i]?, t.WithinLimit c.world

instance (p : AgentPrincipal) (day : String) (c : Conf (World InMemoryQuota) Task) (i : ℕ)
    (env : Env) : Decidable (OneDay p day c (.run i env)) :=
  inferInstanceAs (Decidable (env.clock.today = day ∧ ∀ t ∈ c.tasks[i]?, t.WithinLimit c.world))

/-- A call is let in only when its limit fits beside all that is outstanding. -/
def HasRoom (D : Deps InMemoryQuota) (p : AgentPrincipal) (day : String) (env : Env)
    (c : Conf (World InMemoryQuota) Task) (t : Task) : Prop :=
  ∀ call ∈ t.admitting,
    env.fault = .returns → (admission D env.catalog call (c.world.spend p day)).isOk →
      c.world.spend p day + outstanding c + call.request.budgetLimitUsd ≤ p.dailyBudgetUsd

instance (D : Deps InMemoryQuota) (p : AgentPrincipal) (day : String) (env : Env)
    (c : Conf (World InMemoryQuota) Task) (t : Task) : Decidable (HasRoom D p day env c t) :=
  inferInstanceAs (Decidable (∀ call ∈ t.admitting,
    env.fault = .returns → (admission D env.catalog call (c.world.spend p day)).isOk →
      c.world.spend p day + outstanding c + call.request.budgetLimitUsd ≤ p.dailyBudgetUsd))

/-- At each admission there is room for all that is outstanding. -/
def RoomForAll (D : Deps InMemoryQuota) (p : AgentPrincipal) (day : String)
    (c : Conf (World InMemoryQuota) Task) : Act Task Env → Prop
  | .start _ => True
  | .run i env => ∀ t ∈ c.tasks[i]?, HasRoom D p day env c t

instance (D : Deps InMemoryQuota) (p : AgentPrincipal) (day : String)
    (c : Conf (World InMemoryQuota) Task) (i : ℕ) (env : Env) :
    Decidable (RoomForAll D p day c (.run i env)) :=
  inferInstanceAs (Decidable (∀ t ∈ c.tasks[i]?, HasRoom D p day env c t))

/-! ## What one step adds -/

/-- Open limits are read off the rows. -/
theorem openLimits_eq (h : w'.tables.decisions = w.tables.decisions) :
    w'.openLimits = w.openLimits := by
  rw [World.openLimits, World.openLimits, h]

/-- An inserted row is open. -/
theorem openLimits_inserted {call : CreateCall} {response : RoutingDecisionResponse}
    (h : createDecision call.principal call.request response call.idempotencyKey w.tables
      = .ok w'.tables) :
    w'.openLimits = w.openLimits + call.request.budgetLimitUsd := by
  unfold World.openLimits
  rw [(createDecision_ok h).1]
  simp [RoutingDecisionRecord.openLimit, decisionRecord]

/-- A completed row is not. -/
theorem openLimits_completed {record decision : RoutingDecisionRecord} {call : OutcomeCall}
    (hnodup : w.rowIds.Nodup)
    (hctx : w.tables.getDecisionContext record.decisionId = some decision)
    (hopen : decision.outcomePayload = none)
    (h : w'.tables = w.tables.storeOutcome record.decisionId call.outcome call.idempotencyKey) :
    w'.openLimits + decision.requestPayload.budgetLimitUsd = w.openLimits := by
  obtain ⟨hmem, hid⟩ := Tables.getDecisionContext_some hctx
  obtain ⟨l, r, hrows⟩ := List.append_of_mem hmem
  have hrows' : w'.tables.decisions
      = l ++ decision.complete call.outcome call.idempotencyKey :: r := by
    rw [h, ← hid]
    exact decisions_storeOutcome hrows hnodup _ _
  have hlimit : decision.openLimit = decision.requestPayload.budgetLimitUsd := by
    simp [RoutingDecisionRecord.openLimit, hopen]
  have hlimit' : (decision.complete call.outcome call.idempotencyKey).openLimit = 0 := by
    simp [RoutingDecisionRecord.openLimit, RoutingDecisionRecord.complete]
  rw [World.openLimits, World.openLimits, hrows, hrows', sumOver_split, sumOver_split, hlimit,
    hlimit']
  ring

/-- A charge adds the outcome's final cost. -/
theorem spend_chargeSpend {call : OutcomeCall} {clock : Clock} :
    (w.chargeSpend (buildInMemoryRuntime policies settings) clock call).spend call.principal
        clock.today
      = w.spend call.principal clock.today + call.outcome.finalCostUsd := by
  show (w.quota.recordSpend clock call.principal call.outcome.finalCostUsd).dailyBudget _ = _
  simp [InMemoryQuota.recordSpend, World.spend]

/-- A create call adds to what is outstanding where it is let in, and nowhere
else. -/
theorem CreateStep.outstanding_le {D : Deps InMemoryQuota} {call : CreateCall}
    {pc pc' : CreatePc} (h : CreateStep D env call w pc w' pc') :
    (Task.create call pc').outstanding ≤ (Task.create call pc).outstanding
      ∨ (pc = .currentSpend ∧ w' = w ∧ env.fault = .returns
        ∧ (admission D env.catalog call
          (D.quotaManager.currentDailySpend env.clock call.principal w.quota)).isOk) := by
  cases h with
  | admitted hf hok =>
    refine .inr ⟨rfl, rfl, hf, ?_⟩
    rw [hok]
    rfl
  | reserveRaised => exact .inl call.request.budgetLimitUsd_ge
  | reserveRefused => exact .inl call.request.budgetLimitUsd_ge
  | signalsRaised => exact .inl call.request.budgetLimitUsd_ge
  | unroutable => exact .inl call.request.budgetLimitUsd_ge
  | storeRaised => exact .inl call.request.budgetLimitUsd_ge
  | storeRejected => exact .inl call.request.budgetLimitUsd_ge
  | storeLost => exact .inl call.request.budgetLimitUsd_ge
  | stored => exact .inl call.request.budgetLimitUsd_ge
  | _ => exact .inl (le_refl _)

/-- What is recorded, open and owed by the call does not grow by a step of a
create call, unless that lets the call in. -/
theorem CreateStep.spend_le {call : CreateCall} {pc pc' : CreatePc}
    (h : CreateStep (buildInMemoryRuntime policies settings) env call w pc w' pc') (day : String) :
    w'.spend call.principal day + w'.openLimits + (Task.create call pc').outstanding
        ≤ w.spend call.principal day + w.openLimits + (Task.create call pc).outstanding
      ∨ (pc = .currentSpend ∧ w' = w ∧ env.fault = .returns
        ∧ (admission (buildInMemoryRuntime policies settings) env.catalog call
          (w.quota.currentDailySpend env.clock call.principal)).isOk) := by
  -- Only an outcome call charges.
  have hspend : w'.spend call.principal day = w.spend call.principal day := by
    rcases h.quotaStep.dailyBudget with heq | ⟨_, _, _, he, -⟩
    · rw [World.spend, heq, World.spend]
    · simp at he
  rw [hspend]
  have hrows := h.rowStep
  rcases h.outstanding_le with hle | hadmitted
  · refine .inl ?_
    generalize ht : Task.create call pc = t at hrows hle ⊢
    generalize ht' : Task.create call pc' = t' at hrows hle ⊢
    cases hrows with
    | kept heq =>
      rw [openLimits_eq heq]
      linarith
    | @inserted call' response pc₁ hins hpc =>
      -- What the call was let in for is the row's limit now.
      have hstored : (Task.create call' (.storeDecision response)).outstanding
          = call'.request.budgetLimitUsd := rfl
      have hdone : (Task.create call' pc₁).outstanding = 0 := by
        rcases hpc with rfl | rfl <;> rfl
      rw [openLimits_inserted hins, hstored, hdone]
      linarith
    | completed => simp at ht
  · exact .inr hadmitted

/-- A report turns the limit of its decision into a spend of at most as much. -/
theorem OutcomeStep.spend_le {call : OutcomeCall} {pc pc' : OutcomePc}
    (h : OutcomeStep (buildInMemoryRuntime policies settings) env call w pc w' pc')
    (hnodup : w.rowIds.Nodup) (hlimit : (Task.outcome call pc).WithinLimit w) :
    w'.spend call.principal env.clock.today + w'.openLimits + (Task.outcome call pc').outstanding
      ≤ w.spend call.principal env.clock.today + w.openLimits
        + (Task.outcome call pc).outstanding := by
  have hcost := call.outcome.finalCostUsd_ge
  -- An accepted outcome takes its decision's limit off and owes its cost.
  have hstored : ∀ {record decision : RoutingDecisionRecord}, pc = .storeOutcome record →
      w.tables.getDecisionContext record.decisionId = some decision →
      decision.outcomePayload = none →
      let w₁ := { w with
        tables := w.tables.storeOutcome record.decisionId call.outcome call.idempotencyKey }
      w₁.spend call.principal env.clock.today + w₁.openLimits + call.outcome.finalCostUsd
        ≤ w.spend call.principal env.clock.today + w.openLimits := by
    rintro record decision rfl hctx hopen w₁
    -- The reported cost is at most the limit it replaces.
    have hle := hlimit (call, record) rfl decision hctx (by simp [hopen])
    have hopens : w₁.openLimits + decision.requestPayload.budgetLimitUsd = w.openLimits :=
      openLimits_completed hnodup hctx hopen rfl
    have hspend : w₁.spend call.principal env.clock.today
        = w.spend call.principal env.clock.today := rfl
    rw [hspend, ← hopens]
    linarith
  -- A charge moves the cost from what is owed to what is recorded.
  have hcharge : (w.chargeSpend (buildInMemoryRuntime policies settings) env.clock call).spend
        call.principal env.clock.today + w.openLimits + 0
      ≤ w.spend call.principal env.clock.today + w.openLimits + call.outcome.finalCostUsd := by
    rw [spend_chargeSpend]
    linarith
  cases h with
  | storeLost _ hrec =>
    rcases recordOutcome_rowStep hrec with ⟨rfl, -⟩ | ⟨decision, hctx, hopen, rfl, -⟩
    · exact le_refl _
    · have hle := hstored rfl hctx hopen
      simp only [Task.outstanding] at hle ⊢
      linarith
  | recorded _ hrec hstatus =>
    rcases recordOutcome_rowStep hrec with ⟨-, hdup⟩ | ⟨decision, hctx, hopen, rfl, -⟩
    · simp [hstatus] at hdup
    · have hle := hstored rfl hctx hopen
      simp only [Task.outstanding] at hle ⊢
      linarith
  | duplicate _ hrec hstatus =>
    rcases recordOutcome_rowStep hrec with ⟨rfl, -⟩ | ⟨decision, -, -, -, rfl⟩
    · exact le_refl _
    · exact absurd rfl hstatus
  | releaseRaised _ hw =>
    rcases hw with rfl | rfl
    · exact add_le_add le_rfl hcost
    · exact add_le_add le_rfl hcost
  | spendRaised _ hw =>
    rcases hw with rfl | rfl
    · exact add_le_add le_rfl hcost
    · exact hcharge
  | spent => exact hcharge
  | rpmRaised _ hq => rcases hq with rfl | rfl <;> exact le_refl _
  | rpmRefused _ hq =>
    obtain ⟨rfl, -⟩ := Prod.mk.inj hq
    exact le_refl _
  | rpmPassed _ hq =>
    obtain ⟨rfl, -⟩ := Prod.mk.inj hq
    exact le_refl _
  | _ => exact le_refl _

/-! ## Runs -/

/-- What a run keeps: the calls are the principal's, and all it may yet be
charged fits. -/
structure WithinBudget (D : Deps InMemoryQuota) (p : AgentPrincipal) (day : String)
    (c : Conf (World InMemoryQuota) Task) : Prop where
  provenance : Provenance D c
  callers : ∀ t ∈ c.tasks, t.principal = p
  fits : c.world.spend p day + outstanding c ≤ p.dailyBudgetUsd

/-- A call that has just started has nothing outstanding. -/
theorem Task.Started.outstanding_eq (h : t.Started) : t.outstanding = 0 := by
  cases h with
  | create call =>
    unfold CreateCall.start
    split <;> rfl
  | outcome call =>
    unfold OutcomeCall.start
    split <;> rfl

/-- What is outstanding, apart from one call. -/
theorem outstanding_split (l r : List Task) :
    outstanding ⟨w, l ++ t :: r⟩
      = w.openLimits + t.outstanding + sumOver Task.outstanding (l ++ r) := by
  rw [outstanding, sumOver_split, add_assoc]

/-- A start takes nothing of the budget. -/
theorem WithinBudget.start {D : Deps InMemoryQuota} {p : AgentPrincipal} {day : String}
    {ts : List Task} (hstart : t.Started) (hp : t.principal = p)
    (h : WithinBudget D p day ⟨w, ts⟩) : WithinBudget D p day ⟨w, ts ++ [t]⟩ := by
  refine ⟨h.provenance.start hstart,
    forall_mem_split.mpr ⟨hp, fun u hu => h.callers u (by simpa using hu)⟩, ?_⟩
  have hfits := h.fits
  simp only [outstanding_split, hstart.outstanding_eq, List.append_nil, add_zero]
  exact hfits

/-- A step with room keeps within the budget. -/
theorem WithinBudget.run {p : AgentPrincipal} {l r : List Task}
    (hadv : (controlPlane (buildInMemoryRuntime policies settings)).advance env w t
      = some (w', t'))
    (hlimit : t.WithinLimit w)
    (hroom : HasRoom (buildInMemoryRuntime policies settings) p env.clock.today env
      ⟨w, l ++ t :: r⟩ t)
    (h : WithinBudget (buildInMemoryRuntime policies settings) p env.clock.today
      ⟨w, l ++ t :: r⟩) :
    WithinBudget (buildInMemoryRuntime policies settings) p env.clock.today
      ⟨w', l ++ t' :: r⟩ := by
  have hids := advance_idStep hadv
  obtain ⟨hprov, hcallers, hfits⟩ := h
  simp only at hcallers hfits
  rw [forall_mem_split] at hcallers
  refine ⟨hprov.run hids, forall_mem_split.mpr ⟨hids.principal.trans hcallers.1, hcallers.2⟩, ?_⟩
  simp only
  rw [outstanding_split] at hfits ⊢
  rcases advance_cases hadv with ⟨call, pc, pc', rfl, rfl, hstep⟩ | ⟨call, pc, pc', rfl, rfl, hstep⟩
  · obtain rfl : call.principal = p := hcallers.1
    rcases hstep.spend_le env.clock.today with hle | ⟨rfl, rfl, hf, hadmitted⟩
    · linarith
    · -- The call is let in, and there is room for it.
      have hfit := hroom call rfl hf hadmitted
      rw [outstanding_split] at hfit
      have hbefore : (Task.create call .currentSpend).outstanding = 0 := rfl
      have hafter : (Task.create call pc').outstanding ≤ call.request.budgetLimitUsd := by
        cases pc' <;> first | exact le_refl _ | exact call.request.budgetLimitUsd_ge
      simp only at hfit
      linarith
  · obtain rfl : call.principal = p := hcallers.1
    have hle := hstep.spend_le hprov.rows_nodup hlimit
    linarith

/-- **With room for every decision let in, the budget holds**, in every state
of every run, whatever fails, the sums being exact. -/
theorem budget_holds_of_room (policies : List (String × RoutingPolicy)) (settings : Settings)
    (p : AgentPrincipal) (day : String) (acts : List (Act Task Env))
    (c : Conf (World InMemoryQuota) Task) (hbudget : 0 ≤ p.dailyBudgetUsd)
    (hrun : (controlPlane (buildInMemoryRuntime policies settings)).Run
      (fun c a => OneDay p day c a ∧ RoomForAll (buildInMemoryRuntime policies settings) p day c a)
      ⟨World.empty {}, []⟩ acts c) :
    c.world.spend p day ≤ p.dailyBudgetUsd
      ∧ c.world.spend p day + c.world.openLimits ≤ p.dailyBudgetUsd := by
  have hend : WithinBudget (buildInMemoryRuntime policies settings) p day c := by
    refine System.Run.invariant ?_ ?_ hrun ⟨Provenance.empty fun _ => rfl, by simp, ?_⟩
    · exact fun _ _ _ hok => WithinBudget.start hok.1.1 hok.1.2
    · intro w l t r env w' t' hok hadv
      obtain ⟨⟨rfl, hlimit⟩, hroom⟩ := hok
      exact WithinBudget.run hadv (hlimit t (getElem?_split_self t))
        (hroom t (getElem?_split_self t))
    · simpa [World.empty, World.spend, outstanding, World.openLimits] using hbudget
  have hopen : 0 ≤ c.world.openLimits := sumOver_nonneg fun row _ => row.openLimit_nonneg
  have htasks : 0 ≤ sumOver Task.outstanding c.tasks :=
    sumOver_nonneg fun t _ => t.outstanding_nonneg
  have hfits := hend.fits
  rw [outstanding] at hfits
  constructor <;> linarith

/-! ## Two decisions -/

/-- Two decisions with this limit, and the report of each at that cost. -/
def twoDecisions (limit cost : ℚ) (hlimit : 0 ≤ limit := by norm_num)
    (hcost : 0 ≤ cost := by norm_num) : List Task :=
  [labCreate { keyedCall with request := labRequest limit hlimit, idempotencyKey := none },
    labCreate { keyedCall with request := labRequest limit hlimit, idempotencyKey := none },
    labReport { reportCall with outcome := labOutcome "a" cost hcost },
    labReport { reportCall with outcome := labOutcome "b" cost hcost }]

/-- Both are created before the first is reported. -/
def bothOpen : List (ℕ × Env) :=
  List.replicate 8 (0, labEnv "a") ++ List.replicate 8 (1, labEnv "b")
    ++ List.replicate 6 (2, labEnv "c") ++ List.replicate 6 (3, labEnv "d")

/-- Two decisions and their outcomes, forty of the budget spent. -/
theorem budget_holds_of_room_two :
    ∃ acts c, (controlPlane labDeps).Run (fun c a => OneDay labAgent "2026-04-01" c a
        ∧ RoomForAll labDeps labAgent "2026-04-01" c a) ⟨World.empty {}, []⟩ acts c ∧
      (∀ t ∈ c.tasks, t.Finished ∧ t.failure = none) ∧
      c.world.spend labAgent "2026-04-01" = 40 ∧
      c.world.spend labAgent "2026-04-01" ≤ labAgent.dailyBudgetUsd ∧
      c.world.spend labAgent "2026-04-01" + c.world.openLimits ≤ labAgent.dailyBudgetUsd := by
  obtain ⟨c, hrun, hc⟩ := exists_run_of_checked labDeps (World.empty {}) (twoDecisions 25 20)
    bothOpen (fun c a => OneDay labAgent "2026-04-01" c a
      ∧ RoomForAll labDeps labAgent "2026-04-01" c a)
    (fun c => decide ((∀ t ∈ c.tasks, t.Finished ∧ t.failure = none)
      ∧ c.world.spend labAgent "2026-04-01" = 40))
    (by simp [twoDecisions, OneDay, RoomForAll, labCreate, labReport, Task.Started.create,
      Task.Started.outcome, Task.principal, keyedCall, reportCall])
    (by decide +kernel)
  obtain ⟨hdone, hspend⟩ := of_decide_eq_true hc
  exact ⟨_, c, hrun, hdone, hspend, budget_holds_of_room _ _ labAgent _ _ c (by norm_num [labAgent])
    hrun⟩

/-- **Two decisions overspend.** Each limit fits the budget beside the spend
recorded when it is checked; together they do not, and both are charged. -/
theorem two_decisions_overspend :
    ∃ acts c, (controlPlane labDeps).Run (OneDay labAgent "2026-04-01")
        ⟨World.empty {}, []⟩ acts c ∧
      (∀ t ∈ c.tasks, t.Finished ∧ t.failure = none) ∧
      c.world.spend labAgent "2026-04-01" = 60 ∧
      labAgent.dailyBudgetUsd < c.world.spend labAgent "2026-04-01" := by
  obtain ⟨c, hrun, hc⟩ := exists_run_of_checked labDeps (World.empty {}) (twoDecisions 30 30)
    bothOpen (OneDay labAgent "2026-04-01")
    (fun c => decide ((∀ t ∈ c.tasks, t.Finished ∧ t.failure = none)
      ∧ c.world.spend labAgent "2026-04-01" = 60))
    (by simp [twoDecisions, OneDay, labCreate, labReport, Task.Started.create,
      Task.Started.outcome, Task.principal, keyedCall, reportCall])
    (by decide +kernel)
  obtain ⟨hdone, hspend⟩ := of_decide_eq_true hc
  exact ⟨_, c, hrun, hdone, hspend, by rw [hspend]; norm_num [labAgent]⟩

end ControlPlane
