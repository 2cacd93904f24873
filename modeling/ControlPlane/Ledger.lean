import ControlPlane.QuotaSteps
import ControlPlane.Traces

/-!
# The ledger

Rows, slot sets, spend counters and events are four stores with no
transaction over them. What ties them together is where each call stands:
between two effects a call owes the next one, and counting what the calls owe
makes the books balance at every step (`Balance`). A slot is held for an open
row, for a call that has reserved and not yet inserted, or for a call that
has stored an outcome and not yet released; nothing else. When no call is in
flight nothing is owed, and the books agree with each other.

Faults here are those of the signal store and the decision store, before
their effect. The quota manager is the in-memory one.
-/

namespace ControlPlane

open Lib

variable {policies : List (String × RoutingPolicy)} {settings : Settings}
  {env : Env} {w w' : World InMemoryQuota} {t t' : Task}

/-- Who may call is a parameter. Stores may raise without effect; quota calls
and events do not fail. -/
def ledgerRuns (caller : AgentPrincipal → Prop) : Scenario where
  caller
  fault await fault :=
    match await with
    | .enforceRpm | .currentDailySpend | .reserveConcurrency | .releaseConcurrency
    | .recordSpend | .publishOutcome => fault = .returns
    | .getByIdempotency | .getSignals | .createDecision | .getDecisionContext
    | .recordOutcome => fault ≠ .raisesAfter
    | .ensureCatalogVersion | .ensurePolicies => True

/-! ## Where a call stands -/

/-- What a call has done that its later steps must match. -/
inductive Stage
  | idle
  | reserved (key : String × String) (decisionId : String)
  | recorded (call : OutcomeCall)
  | released (call : OutcomeCall)
  | charged (call : OutcomeCall)
  | published (call : OutcomeCall)

/-- The stage a call has reached. -/
def Task.stage : Task → Stage
  | create call pc =>
    match pc with
    | .getSignals _ _ decisionId => .reserved call.principal.quotaKey decisionId
    | .storeDecision response => .reserved call.principal.quotaKey response.decisionId
    | .release decisionId _ => .reserved call.principal.quotaKey decisionId
    | _ => .idle
  | outcome call pc =>
    match pc with
    | .release _ => .recorded call
    | .recordSpend _ => .released call
    | .publish _ => .charged call
    | .returned response =>
      if response.outcomeStatus = .recorded then .published call else .idle
    | _ => .idle

namespace Stage

/-- The slot a call holds outside the rows. -/
def slots (key : String × String) : Stage → Multiset String
  | reserved key' decisionId => if key' = key then {decisionId} else 0
  | recorded call => if call.principal.quotaKey = key then {call.outcome.decisionId} else 0
  | _ => 0

/-- The decision whose outcome the call stored. -/
def accepted : Stage → Multiset String
  | recorded call | released call | charged call | published call => {call.outcome.decisionId}
  | _ => 0

/-- What the call has charged. -/
def spend (key : String × String) : Stage → ℚ
  | charged call | published call =>
    if call.principal.quotaKey = key then call.outcome.finalCostUsd else 0
  | _ => 0

/-- The event a stage has published. -/
def events : Stage → Multiset OutcomeEvent
  | published call => {outcomeEvent call}
  | _ => 0

end Stage

/-! ## The books -/

/-- The key of the quota a row is charged to. -/
def RoutingDecisionRecord.quotaKey (row : RoutingDecisionRecord) : String × String :=
  (row.environment, row.agentId)

/-- The row's id, while it is open and under this key. -/
def RoutingDecisionRecord.openId (key : String × String) (row : RoutingDecisionRecord) :
    Multiset String :=
  if row.outcomePayload.isNone ∧ row.quotaKey = key then {row.decisionId} else 0

/-- The row's id, once it is closed. -/
def RoutingDecisionRecord.closedId (row : RoutingDecisionRecord) : Multiset String :=
  if row.outcomePayload.isSome then {row.decisionId} else 0

/-- The ids of the open decisions of one key. -/
def World.openIds {Q : Type} (w : World Q) (key : String × String) : Multiset String :=
  sumOver (·.openId key) w.tables.decisions

/-- The ids of the closed decisions. -/
def World.closedIds {Q : Type} (w : World Q) : Multiset String :=
  sumOver (·.closedId) w.tables.decisions

namespace InMemoryQuota

/-- Spend under a key, all days together. -/
noncomputable def spendOver (q : InMemoryQuota) (key : String × String) : ℚ :=
  ∑ᶠ day, q.dailyBudget (key.1, key.2, day)

/-- Spend has been recorded on finitely many days. -/
def FiniteDays (q : InMemoryQuota) : Prop :=
  ∀ key : String × String, (Function.support fun day => q.dailyBudget (key.1, key.2, day)).Finite

/-- A charge changes the budget of its own day and key. -/
theorem dailyBudget_recordSpend (clock : Clock) (p : AgentPrincipal) (amount : ℚ)
    (q : InMemoryQuota) (key : String × String) :
    (fun day => (recordSpend clock p amount q).dailyBudget (key.1, key.2, day))
      = (fun day => q.dailyBudget (key.1, key.2, day))
        + Pi.single clock.today (if p.quotaKey = key then amount else 0) := by
  funext day
  simp only [recordSpend, Function.update_apply, Pi.add_apply, Pi.single_apply]
  by_cases hday : day = clock.today
  · subst hday
    by_cases hkey : p.quotaKey = key
    · subst hkey
      simp [AgentPrincipal.quotaKey]
    · have hne : (key.1, key.2, clock.today) ≠ (p.environment, p.agentId, clock.today) := by
        intro heq
        refine hkey (Prod.ext ?_ ?_)
        · exact (Prod.mk.inj heq).1.symm
        · exact (Prod.mk.inj (Prod.mk.inj heq).2).1.symm
      simp [hkey, hne]
  · simp [hday]

/-- A charge touches one day. -/
theorem FiniteDays.recordSpend {q : InMemoryQuota} (h : q.FiniteDays) (clock : Clock)
    (p : AgentPrincipal) (amount : ℚ) : (recordSpend clock p amount q).FiniteDays := by
  intro key
  rw [dailyBudget_recordSpend]
  refine ((h key).union (Set.finite_singleton clock.today)).subset ?_
  refine (Function.support_add _ _).trans (Set.union_subset_union_right _ ?_)
  exact Pi.support_single_subset

/-- A charge adds its amount to its own key. -/
theorem spendOver_recordSpend {q : InMemoryQuota} (h : q.FiniteDays) (clock : Clock)
    (p : AgentPrincipal) (amount : ℚ) (key : String × String) :
    (recordSpend clock p amount q).spendOver key
      = q.spendOver key + if p.quotaKey = key then amount else 0 := by
  unfold spendOver
  rw [dailyBudget_recordSpend]
  -- Two finite sums over the days: the spend so far, and the charge on its one day.
  refine (finsum_add_distrib (h key) ((Set.finite_singleton clock.today).subset
    Pi.support_single_subset)).trans ?_
  congr 1
  rw [finsum_eq_single _ clock.today fun day hne => Pi.single_eq_of_ne hne _, Pi.single_eq_same]

end InMemoryQuota

/-! ## One step balances -/

/-- A step moves between the books and the call, and nothing else. -/
structure Balance (w w' : World InMemoryQuota) (t t' : Task) : Prop where
  slots : ∀ key, (w'.quota.concurrent key).val + (w.openIds key + t.stage.slots key)
    = (w.quota.concurrent key).val + (w'.openIds key + t'.stage.slots key)
  accepted : w'.closedIds + t.stage.accepted = w.closedIds + t'.stage.accepted
  spend : ∀ key, w'.quota.spendOver key + t.stage.spend key
    = w.quota.spendOver key + t'.stage.spend key
  events : (w'.events : Multiset OutcomeEvent) + t.stage.events
    = (w.events : Multiset OutcomeEvent) + t'.stage.events

/-- A step that moves none of the four keeps the balance. -/
theorem Balance.quiet (hrows : w'.tables.decisions = w.tables.decisions)
    (hslots : w'.quota.concurrent = w.quota.concurrent)
    (hspend : w'.quota.dailyBudget = w.quota.dailyBudget) (hevents : w'.events = w.events)
    (hstage : t'.stage = t.stage) : Balance w w' t t' where
  slots key := by rw [hslots, hstage, World.openIds, World.openIds, hrows]
  accepted := by rw [hstage, World.closedIds, World.closedIds, hrows]
  spend key := by rw [hstage, InMemoryQuota.spendOver, InMemoryQuota.spendOver, hspend]
  events := by rw [hevents, hstage]

/-- A slot set before and after its id is taken out. -/
theorem erase_slots {p : AgentPrincipal} {id : String} {q : InMemoryQuota}
    (hid : id ∈ q.concurrent p.quotaKey) (key : String × String) :
    ((InMemoryQuota.releaseConcurrency p id q).concurrent key).val
      + (if p.quotaKey = key then {id} else 0) = (q.concurrent key).val := by
  by_cases hkey : p.quotaKey = key
  · subst hkey
    simp only [InMemoryQuota.releaseConcurrency, InMemoryQuota.setSlots, Function.update_self,
      if_pos, Finset.erase_val]
    rw [add_comm, Multiset.singleton_add, Multiset.cons_erase (Finset.mem_val.mpr hid)]
  · simp [InMemoryQuota.releaseConcurrency, InMemoryQuota.setSlots,
      Function.update_of_ne (Ne.symm hkey), hkey]

/-- A release takes out what the call holds. -/
theorem Balance.released {p : AgentPrincipal} {id : String}
    (hid : id ∈ w.quota.concurrent p.quotaKey)
    (hslots : ∀ key, t.stage.slots key = if p.quotaKey = key then {id} else 0)
    (hslots' : ∀ key, t'.stage.slots key = 0) (haccepted : t'.stage.accepted = t.stage.accepted)
    (hspend : ∀ key, t'.stage.spend key = t.stage.spend key)
    (hevents : t'.stage.events = t.stage.events) :
    Balance w (w.releaseSlot (buildInMemoryRuntime policies settings) p id) t t' where
  slots key := by
    have herase := erase_slots hid key
    rw [hslots, hslots', ← herase]
    simp only [World.openIds, World.releaseSlot, buildInMemoryRuntime, InMemoryQuota.manager]
    abel
  accepted := by rw [haccepted]; rfl
  spend key := by rw [hspend]; rfl
  events := by rw [hevents]; rfl

/-- An insert opens the drawn id. -/
theorem openIds_inserted {Q : Type} {w : World Q} {call : CreateCall}
    {response : RoutingDecisionResponse} {tables : Tables}
    (h : createDecision call.principal call.request response call.idempotencyKey w.tables
      = .ok tables) (key : String × String) :
    World.openIds { w with tables } key
      = w.openIds key + if call.principal.quotaKey = key then {response.decisionId} else 0 := by
  have hnew : (decisionRecord call.principal call.request response call.idempotencyKey).quotaKey
      = call.principal.quotaKey := rfl
  rw [World.openIds, (createDecision_ok h).1, sumOver_append, sumOver_cons, sumOver_nil, add_zero,
    RoutingDecisionRecord.openId, hnew, World.openIds]
  by_cases hkey : call.principal.quotaKey = key <;> simp [hkey, decisionRecord]

/-- It closes none. -/
theorem closedIds_inserted {call : CreateCall} {response : RoutingDecisionResponse}
    {tables : Tables}
    (h : createDecision call.principal call.request response call.idempotencyKey w.tables
      = .ok tables) :
    World.closedIds { w with tables } = w.closedIds := by
  rw [World.closedIds, (createDecision_ok h).1]
  simp [World.closedIds, RoutingDecisionRecord.closedId, decisionRecord]

/-- A creation's step keeps the balance. -/
theorem CreateStep.balance {call : CreateCall} {pc pc' : CreatePc}
    {caller : AgentPrincipal → Prop}
    (h : CreateStep (buildInMemoryRuntime policies settings) env call w pc w' pc')
    (hfault : ∀ a, (Task.create call pc).await = some a → (ledgerRuns caller).fault a env.fault)
    (hfresh : ∀ id, (Task.create call pc).unreserved = some id →
      ∀ key, id ∉ w.quota.concurrent key)
    (hslot : ∀ id ∈ (Task.create call pc).stage.slots call.principal.quotaKey,
      id ∈ w.quota.concurrent call.principal.quotaKey) :
    Balance w w' (.create call pc) (.create call pc') := by
  cases h with
  | rpmRaised hf => exact absurd (hfault _ rfl) hf
  | rpmRefused _ hq =>
    obtain ⟨rfl, -⟩ := Prod.mk.inj hq
    exact .quiet rfl rfl rfl rfl rfl
  | rpmPassed _ hq =>
    obtain ⟨rfl, -⟩ := Prod.mk.inj hq
    exact .quiet rfl rfl rfl rfl rfl
  | catalogKept => exact .quiet (by simp) rfl rfl rfl rfl
  | metadataSkipped _ htables =>
    exact .quiet (by rcases htables with rfl | rfl <;> simp) rfl rfl rfl rfl
  | policiesKept htables =>
    exact .quiet (by rcases htables with rfl | rfl <;> simp) rfl rfl rfl rfl
  | reserveRaised hf => exact absurd (hfault _ rfl) hf
  | @reserveRefused _ _ decisionId q err _ hq =>
    have hnew := hfresh decisionId rfl call.principal.quotaKey
    have hq : InMemoryQuota.reserveConcurrency call.principal decisionId w.quota
      = (q, .error err) := hq
    rcases InMemoryQuota.reserveConcurrency_cases call.principal decisionId w.quota with
      ⟨-, hres⟩ | hres <;> rw [hres] at hq
    · simp at hq
    · obtain ⟨rfl, -⟩ := Prod.mk.inj hq
      refine .quiet rfl ?_ rfl rfl rfl
      simp [InMemoryQuota.setSlots, Finset.erase_eq_of_notMem hnew]
  | @reserved _ _ decisionId q _ hq =>
    have hnew := hfresh decisionId rfl call.principal.quotaKey
    have hq : InMemoryQuota.reserveConcurrency call.principal decisionId w.quota
      = (q, .ok ()) := hq
    rcases InMemoryQuota.reserveConcurrency_cases call.principal decisionId w.quota with
      ⟨-, hres⟩ | hres <;> rw [hres] at hq
    · obtain ⟨rfl, -⟩ := Prod.mk.inj hq
      -- The slot set grows by the id that the call holds from here on.
      refine ⟨fun key => ?_, rfl, fun key => rfl, rfl⟩
      by_cases hkey : call.principal.quotaKey = key
      · subst hkey
        simp only [InMemoryQuota.setSlots, Function.update_self,
          Finset.insert_val_of_notMem hnew, Task.stage, Stage.slots, if_pos, World.openIds]
        rw [← Multiset.singleton_add]
        abel
      · simp [InMemoryQuota.setSlots, Function.update_of_ne (Ne.symm hkey), Task.stage,
          Stage.slots, hkey, World.openIds]
    · simp at hq
  -- A commit that goes through and raises would leave an open row without its slot.
  | storeLost hf => exact absurd hf (hfault _ rfl)
  | stored _ hins =>
    refine ⟨fun key => ?_, ?_, fun key => rfl, rfl⟩
    · have hopen := openIds_inserted hins key
      simp only [World.openIds, Task.stage, Stage.slots] at hopen ⊢
      rw [hopen, add_zero]
    · have hclosed := closedIds_inserted hins
      simp only [World.closedIds, Task.stage, Stage.accepted] at hclosed ⊢
      rw [hclosed]
  | releaseRaised hf => exact absurd (hfault _ rfl) hf
  | @released decisionId err _ =>
    have hmem : decisionId ∈ w.quota.concurrent call.principal.quotaKey :=
      hslot decisionId (by simp [Task.stage, Stage.slots])
    exact .released hmem (fun _ => rfl) (fun _ => rfl) rfl (fun _ => rfl) rfl
  | _ => exact .quiet rfl rfl rfl rfl rfl

/-- A completed row leaves the open ids and joins the closed ones. -/
theorem openIds_completed {Q : Type} {w : World Q} {decision : RoutingDecisionRecord}
    {call : OutcomeCall} {tables : Tables} (hmem : decision ∈ w.tables.decisions)
    (hopen : decision.outcomePayload = none) (hnodup : w.rowIds.Nodup)
    (htables : tables
      = w.tables.storeOutcome decision.decisionId call.outcome call.idempotencyKey) :
    (∀ key, World.openIds { w with tables } key
        + (if decision.quotaKey = key then {decision.decisionId} else 0) = w.openIds key)
      ∧ World.closedIds { w with tables } = w.closedIds + {decision.decisionId} := by
  subst htables
  obtain ⟨l, r, hrows⟩ := List.append_of_mem hmem
  have hcomplete := decisions_storeOutcome hrows hnodup call.outcome call.idempotencyKey
  constructor
  · intro key
    rw [World.openIds, World.openIds, hcomplete, hrows, sumOver_split, sumOver_split]
    simp [RoutingDecisionRecord.openId, RoutingDecisionRecord.complete, hopen, add_comm]
  · rw [World.closedIds, World.closedIds, hcomplete, hrows, sumOver_split, sumOver_split]
    simp [RoutingDecisionRecord.closedId, RoutingDecisionRecord.complete, hopen, add_comm]

/-- The response in hand says `recorded` until the call returns. -/
def OutcomePc.Sound : OutcomePc → Prop
  | .release response | .recordSpend response | .publish response =>
    response.outcomeStatus = .recorded
  | _ => True

/-- A report's step stays sound. -/
theorem OutcomeStep.sound {Q : Type} {D : Deps Q} {w w' : World Q} {call : OutcomeCall}
    {pc pc' : OutcomePc} (h : OutcomeStep D env call w pc w' pc') (hpc : pc.Sound) :
    pc'.Sound := by
  cases h with
  | recorded _ _ hstatus => exact hstatus
  | released => exact hpc
  | spent => exact hpc
  | _ => exact trivial

/-- A report's step keeps the balance. -/
theorem OutcomeStep.balance {call : OutcomeCall} {pc pc' : OutcomePc}
    {caller : AgentPrincipal → Prop}
    (h : OutcomeStep (buildInMemoryRuntime policies settings) env call w pc w' pc')
    (hfault : ∀ a, (Task.outcome call pc).await = some a → (ledgerRuns caller).fault a env.fault)
    (hnodup : w.rowIds.Nodup) (hdays : w.quota.FiniteDays) (hsound : pc.Sound)
    (hrow : ∀ record decision, pc = .storeOutcome record → decision ∈ w.tables.decisions →
      decision.decisionId = record.decisionId →
      decision.quotaKey = call.principal.quotaKey
        ∧ decision.decisionId = call.outcome.decisionId)
    (hslot : ∀ id ∈ (Task.outcome call pc).stage.slots call.principal.quotaKey,
      id ∈ w.quota.concurrent call.principal.quotaKey) :
    Balance w w' (.outcome call pc) (.outcome call pc') := by
  cases h with
  | rpmRaised hf => exact absurd (hfault _ rfl) hf
  | rpmRefused _ hq =>
    obtain ⟨rfl, -⟩ := Prod.mk.inj hq
    exact .quiet rfl rfl rfl rfl rfl
  | rpmPassed _ hq =>
    obtain ⟨rfl, -⟩ := Prod.mk.inj hq
    exact .quiet rfl rfl rfl rfl rfl
  | storeLost hf => exact absurd hf (hfault _ rfl)
  | recorded _ hrec hstatus =>
    rcases recordOutcome_rowStep hrec with ⟨-, hdup⟩ | ⟨decision, hctx, hopen, rfl, -⟩
    · simp [hstatus] at hdup
    · obtain ⟨hmem, hid⟩ := Tables.getDecisionContext_some hctx
      obtain ⟨hkey, hdid⟩ := hrow _ decision rfl hmem hid
      obtain ⟨hopenIds, hclosed⟩ := openIds_completed hmem hopen hnodup
        (by rw [hid] : _ = w.tables.storeOutcome _ call.outcome call.idempotencyKey)
      rw [hdid] at hopenIds hclosed
      refine ⟨fun key => ?_, ?_, fun key => rfl, rfl⟩
      · simp only [Task.stage, Stage.slots]
        rw [← hopenIds key, hkey, add_zero]
      · simp only [Task.stage, Stage.accepted]
        rw [hclosed, add_zero]
  | duplicate _ hrec hstatus =>
    rcases recordOutcome_rowStep hrec with ⟨rfl, -⟩ | ⟨decision, -, -, -, rfl⟩
    · exact .quiet rfl rfl rfl rfl (by simp [Task.stage, hstatus])
    · exact absurd rfl hstatus
  | releaseRaised hf => exact absurd (hfault _ rfl) hf
  | @released response _ =>
    have hmem : call.outcome.decisionId ∈ w.quota.concurrent call.principal.quotaKey :=
      hslot _ (by simp [Task.stage, Stage.slots])
    exact .released hmem (fun _ => rfl) (fun _ => rfl) rfl (fun _ => rfl) rfl
  | spendRaised hf => exact absurd (hfault _ rfl) hf
  | @spent response _ =>
    refine ⟨fun key => rfl, rfl, fun key => ?_, rfl⟩
    have hspend := InMemoryQuota.spendOver_recordSpend hdays env.clock call.principal
      call.outcome.finalCostUsd key
    simp only [Task.stage, Stage.spend, World.chargeSpend, buildInMemoryRuntime,
      InMemoryQuota.manager, add_zero]
    exact hspend
  | publishRaised hf => exact absurd (hfault _ rfl) hf
  | @published response _ =>
    have hstage : (Task.outcome call (.returned response)).stage = .published call := by
      simp [Task.stage, show response.outcomeStatus = .recorded from hsound]
    refine ⟨fun key => by rw [hstage]; rfl, by rw [hstage]; rfl, fun key => by rw [hstage]; rfl, ?_⟩
    rw [hstage]
    simp [Task.stage, Stage.events, ← Multiset.coe_add]
  | _ => exact .quiet rfl rfl rfl rfl rfl

/-! ## Every run balances -/

/-- The books and the calls of a state agree. -/
structure Ledger (caller : AgentPrincipal → Prop) (c : Conf (World InMemoryQuota) Task) :
    Prop where
  slots : ∀ key, (c.world.quota.concurrent key).val
    = c.world.openIds key + sumOver (·.stage.slots key) c.tasks
  accepted : c.world.closedIds = sumOver (·.stage.accepted) c.tasks
  spend : ∀ key, c.world.quota.spendOver key = sumOver (·.stage.spend key) c.tasks
  events : (c.world.events : Multiset OutcomeEvent) = sumOver (·.stage.events) c.tasks
  limit : ∀ p, caller p → 0 ≤ p.concurrentLimit →
    ((c.world.quota.concurrent p.quotaKey).card : ℤ) ≤ p.concurrentLimit
  days : c.world.quota.FiniteDays
  sound : ∀ t ∈ c.tasks, ∀ call pc, t = .outcome call pc → pc.Sound

/-- A call that has just begun owes nothing. -/
theorem Task.Started.stage_eq (h : t.Started) : t.stage = .idle := by
  cases h with
  | create call =>
    unfold CreateCall.start
    split <;> rfl
  | outcome call =>
    unfold OutcomeCall.start
    split <;> rfl

/-- So the ledger holds with one more call. -/
theorem Ledger.start {caller : AgentPrincipal → Prop} {ts : List Task} (hstart : t.Started)
    (h : Ledger caller ⟨w, ts⟩) : Ledger caller ⟨w, ts ++ [t]⟩ := by
  have hidle := hstart.stage_eq
  obtain ⟨hslots, haccepted, hspend, hevents, hlimit, hdays, hsound⟩ := h
  refine ⟨fun key => ?_, ?_, fun key => ?_, ?_, hlimit, hdays, ?_⟩
  · simpa [hidle, Stage.slots] using hslots key
  · simpa [hidle, Stage.accepted] using haccepted
  · simpa [hidle, Stage.spend] using hspend key
  · simpa [hidle, Stage.events] using hevents
  · refine forall_mem_split.mpr ⟨?_, fun u hu => hsound u (by simpa using hu)⟩
    rintro call pc rfl
    generalize ht : Task.outcome call pc = t at hstart
    cases hstart with
    | create => simp at ht
    | outcome call' =>
      obtain ⟨-, rfl⟩ := Task.outcome.inj ht
      unfold OutcomeCall.start
      split <;> exact trivial

/-- What a step balances, the sums over the tasks follow. -/
theorem sumOver_step {M : Type} [AddCancelCommMonoid M] {f : Task → M} {l r : List Task}
    {x x' : M} {a b : M} (hbalance : x' + (a + f t) = x + (b + f t'))
    (h : x = a + sumOver f (l ++ t :: r)) : x' = b + sumOver f (l ++ t' :: r) := by
  rw [sumOver_split] at h ⊢
  rw [h] at hbalance
  refine add_right_cancel (b := a + f t) (hbalance.trans ?_)
  abel

/-- A balanced step of one task moves the sum with the world. -/
theorem sumOver_move {M : Type} [AddCancelCommMonoid M] {f : Task → M} {l r : List Task}
    {x x' : M} (hbalance : x' + f t = x + f t') (h : x = sumOver f (l ++ t :: r)) :
    x' = sumOver f (l ++ t' :: r) := by
  rw [← zero_add (f t), ← zero_add (f t')] at hbalance
  exact (sumOver_step hbalance (h.trans (zero_add _).symm)).trans (zero_add _)

/-- **One step keeps the ledger.** -/
theorem Ledger.run {caller : AgentPrincipal → Prop} {l r : List Task}
    (hadv : (controlPlane (buildInMemoryRuntime policies settings)).advance env w t
      = some (w', t'))
    (hunique : ∀ p p', caller p → caller p' → p.agentId = p'.agentId → p = p')
    (hfault : ∀ a, t.await = some a → (ledgerRuns caller).fault a env.fault)
    (hprov : Provenance (buildInMemoryRuntime policies settings) ⟨w, l ++ t :: r⟩)
    (hctx : RowContext (ledgerRuns caller) ⟨w, l ++ t :: r⟩) (h : Ledger caller ⟨w, l ++ t :: r⟩) :
    Ledger caller ⟨w', l ++ t' :: r⟩ := by
  obtain ⟨hslots, haccepted, hspend, hevents, hlimit, hdays, hsound⟩ := h
  simp only at hslots haccepted hspend hevents hlimit hdays hsound
  rw [forall_mem_split] at hsound
  have hquota := advance_quotaStep hadv
  have hcaller : caller t.principal := hctx.callers t (by simp)
  have hslot : ∀ id ∈ t.stage.slots t.principal.quotaKey,
      id ∈ w.quota.concurrent t.principal.quotaKey := by
    intro id hid
    rw [← Finset.mem_val, hslots, sumOver_split]
    simp [hid]
  have hsteps : Balance w w' t t' ∧ ∀ call pc, t' = .outcome call pc → pc.Sound := by
    rcases advance_cases hadv with
      ⟨call, pc, pc', rfl, rfl, hstep⟩ | ⟨call, pc, pc', rfl, rfl, hstep⟩
    · exact ⟨hstep.balance hfault (hprov.unreserved _ (by simp)) hslot, by simp⟩
    · have hpc := hsound.1 call pc rfl
      refine ⟨hstep.balance hfault hprov.rows_nodup hdays hpc ?_ hslot, ?_⟩
      · rintro record decision rfl hmem hid
        have ht : Task.outcome call (.storeOutcome record)
          ∈ l ++ Task.outcome call (.storeOutcome record) :: r := by simp
        obtain ⟨hrid, hagent, -⟩ := hctx.row_of_checked hprov.rows_nodup ht hmem hid
        obtain ⟨p, hp, hpagent, hpenv, -⟩ := hctx.creators _ (World.origin_mem hmem)
        obtain rfl := hunique p call.principal hp hcaller (hpagent.symm.trans hagent)
        exact ⟨Prod.ext hpenv hpagent, hrid⟩
      · rintro _ _ ⟨⟩
        exact hstep.sound hpc
  obtain ⟨hbalance, hsound'⟩ := hsteps
  refine ⟨fun key => sumOver_step (hbalance.slots key) (hslots key), ?_, fun key => ?_, ?_, ?_, ?_,
    forall_mem_split.mpr ⟨hsound', hsound.2⟩⟩
  · exact sumOver_move hbalance.accepted haccepted
  · exact sumOver_move (hbalance.spend key) (hspend key)
  · exact sumOver_move hbalance.events hevents
  · intro p hp hpos
    -- A set that has not grown was within the limit; one that has, was checked on the way.
    rcases hquota.slots p.quotaKey with hsub | ⟨hkey, hle⟩
    · exact le_trans (by exact_mod_cast Finset.card_le_card hsub) (hlimit p hp hpos)
    · obtain rfl := hunique p t.principal hp hcaller (congrArg Prod.snd hkey)
      exact hle
  · rcases hquota.dailyBudget with heq | ⟨clock, call, response, -, heq⟩
    · intro key
      rw [heq]
      exact hdays key
    · rw [heq]
      exact hdays.recordSpend _ _ _

/-- The empty world agrees with no tasks. -/
theorem Ledger.empty {caller : AgentPrincipal → Prop} :
    Ledger caller ⟨World.empty {}, []⟩ where
  slots key := rfl
  accepted := rfl
  spend key := finsum_zero
  events := rfl
  limit p _ hpos := hpos
  days key := by simp [World.empty, Function.support]
  sound := by simp

/-- **The books balance in every state a run reaches.** -/
theorem RunIn.ledger {caller : AgentPrincipal → Prop} {acts : List (Act Task Env)}
    {c : Conf (World InMemoryQuota) Task}
    (hunique : ∀ p p', caller p → caller p' → p.agentId = p'.agentId → p = p')
    (hrun : RunIn (buildInMemoryRuntime policies settings) (ledgerRuns caller)
      ⟨World.empty {}, []⟩ acts c) :
    Ledger caller c ∧ Provenance (buildInMemoryRuntime policies settings) c
      ∧ RowContext (ledgerRuns caller) c := by
  refine System.Run.invariant (I := fun c => Ledger caller c
    ∧ Provenance (buildInMemoryRuntime policies settings) c ∧ RowContext (ledgerRuns caller) c)
    ?_ ?_ hrun ⟨Ledger.empty, Provenance.empty fun _ => rfl, RowContext.empty⟩
  · intro w ts t hok hinv
    obtain ⟨hledger, hprov, hctx⟩ := hinv
    exact ⟨hledger.start hok.1, hprov.start hok.1, hctx.start hok.1 hok.2⟩
  · intro w l t r env w' t' hok hadv hinv
    obtain ⟨hledger, hprov, hctx⟩ := hinv
    exact ⟨hledger.run hadv hunique (hok t (by simp)) hprov hctx, hprov.run (advance_idStep hadv),
      hctx.run hadv⟩

/-! ## The guarantee -/

/-- The id a call has reserved and not yet inserted or released. -/
def CreatePc.reservation : CreatePc → Option String
  | .getSignals _ _ decisionId => some decisionId
  | .storeDecision response => some response.decisionId
  | .release decisionId _ => some decisionId
  | _ => none

section Guarantee

variable (p : AgentPrincipal) (c : Conf (World InMemoryQuota) Task)

/-- The decisions without an outcome. -/
def openDecisions : Set String :=
  {id | ∃ row ∈ c.world.tables.decisions, row.decisionId = id ∧ row.agentId = p.agentId
    ∧ row.outcomePayload = none}

/-- The ids reserved by creations still under way. -/
def reservedInFlight : Set String :=
  {id | ∃ call pc, .create call pc ∈ c.tasks ∧ call.principal = p ∧ pc.reservation = some id}

/-- The ids whose reports have yet to release them. -/
def awaitingRelease : Set String :=
  {id | ∃ call response, .outcome call (.release response) ∈ c.tasks ∧ call.principal = p
    ∧ call.outcome.decisionId = id}

/-- The calls whose outcome was accepted and that have returned. -/
def recordedCalls (ts : List Task) : List OutcomeCall :=
  ts.filterMap fun
    | .outcome call (.returned response) =>
      if response.outcomeStatus = .recorded then some call else none
    | _ => none

/-- No call is in flight. -/
def Quiescent : Prop :=
  ∀ t ∈ c.tasks, t.Finished

/-- What the ledger promises in a state. -/
structure LedgerAgrees (caller : AgentPrincipal → Prop) : Prop where
  /-- A slot is held for an open decision, a reservation in flight or an
  outcome about to release it. -/
  slots : ∀ p, caller p → (c.world.quota.concurrent p.quotaKey : Set String)
    = openDecisions p c ∪ reservedInFlight p c ∪ awaitingRelease p c
  /-- The limit is kept; the configuration has `ge=1` for it. -/
  limit : ∀ p, caller p → 0 ≤ p.concurrentLimit →
    ((c.world.quota.concurrent p.quotaKey).card : ℤ) ≤ p.concurrentLimit
  /-- Decision ids are unique, so a list of them without repetition names
  each decision once. -/
  ids : c.world.rowIds.Nodup
  quiescentSlots : Quiescent c → ∀ p, caller p →
    (c.world.quota.concurrent p.quotaKey : Set String) = openDecisions p c
  /-- One accepted outcome for each closed decision. -/
  quiescentOutcomes : Quiescent c →
    ((recordedCalls c.tasks).map (·.outcome.decisionId)).Perm
      ((c.world.tables.decisions.filter (·.outcomePayload.isSome)).map (·.decisionId))
  quiescentSpend : Quiescent c → ∀ p, caller p → c.world.quota.spendOver p.quotaKey
    = (((recordedCalls c.tasks).filter (·.principal.agentId = p.agentId)).map
        (·.outcome.finalCostUsd)).sum
  quiescentEvents : Quiescent c →
    c.world.events.Perm ((recordedCalls c.tasks).map outcomeEvent)

end Guarantee

/-- A call that is not in flight has published or owes nothing. -/
theorem Task.Finished.stage_cases (h : t.Finished) :
    (t.stage = .idle ∧ recordedCalls [t] = [])
      ∨ ∃ call, t.stage = .published call ∧ recordedCalls [t] = [call]
        ∧ t.principal = call.principal := by
  cases t with
  | create call pc => cases pc <;> first | exact .inl ⟨rfl, rfl⟩ | simp [Finished, await] at h
  | outcome call pc =>
    cases pc with
    | returned response =>
      by_cases hstatus : response.outcomeStatus = .recorded
      · exact .inr ⟨call, by simp [stage, hstatus], by simp [recordedCalls, hstatus], rfl⟩
      · exact .inl ⟨by simp [stage, hstatus], by simp [recordedCalls, hstatus]⟩
    | raised err => exact .inl ⟨rfl, rfl⟩
    | _ => simp [Finished, await] at h

/-- With no call in flight, a sum over the stages is a sum over the accepted
calls. -/
theorem sumOver_quiescent {M : Type} [AddCommMonoid M] {f : Stage → M} (hidle : f .idle = 0) :
    ∀ {ts : List Task}, (∀ t ∈ ts, t.Finished) →
      sumOver (f ·.stage) ts = ((recordedCalls ts).map fun call => f (.published call)).sum
  | [], _ => rfl
  | t :: ts, h => by
    -- Finished calls are idle or published, so the head adds nothing or one call.
    have ih := sumOver_quiescent hidle fun u hu => h u (List.mem_cons_of_mem _ hu)
    have happend : recordedCalls (t :: ts) = recordedCalls [t] ++ recordedCalls ts :=
      List.filterMap_append (l := [t])
    rw [sumOver_cons, ih, happend]
    rcases (h t (by simp)).stage_cases with ⟨hstage, hnil⟩ | ⟨call, hstage, hone, -⟩
    · rw [hstage, hnil, hidle, zero_add]
      rfl
    · rw [hstage, hone, List.singleton_append, List.map_cons, List.sum_cons]

/-- Membership in a set of one or none. -/
theorem mem_ite_singleton {P : Prop} [Decidable P] {a b : String} :
    a ∈ (if P then {b} else 0 : Multiset String) ↔ P ∧ b = a := by
  split
  next h => simp [h, eq_comm]
  next h => simp [h]

/-- The open ids of a key, read as rows. -/
theorem mem_openIds {key : String × String} {id : String} :
    id ∈ w.openIds key ↔ ∃ row ∈ w.tables.decisions, row.decisionId = id
      ∧ row.quotaKey = key ∧ row.outcomePayload = none := by
  rw [World.openIds, mem_sumOver]
  refine exists_congr fun row => and_congr_right fun _ => ?_
  rw [RoutingDecisionRecord.openId, mem_ite_singleton, Option.isNone_iff_eq_none]
  tauto

/-- The slots a task's stage holds. -/
theorem Task.mem_stage_slots {key : String × String} {id : String} :
    id ∈ t.stage.slots key ↔
      (∃ call pc, t = .create call pc ∧ call.principal.quotaKey = key ∧ pc.reservation = some id)
      ∨ ∃ call response, t = .outcome call (.release response) ∧ call.principal.quotaKey = key
        ∧ call.outcome.decisionId = id := by
  cases t with
  | create call pc =>
    have hpc : id ∈ (create call pc).stage.slots key ↔
        call.principal.quotaKey = key ∧ pc.reservation = some id := by
      cases pc <;> simp [stage, Stage.slots, CreatePc.reservation, mem_ite_singleton]
    rw [hpc]
    constructor
    · exact fun h => .inl ⟨call, pc, rfl, h⟩
    · rintro (⟨_, _, ⟨⟩, h⟩ | ⟨_, _, he, -⟩)
      · exact h
      · simp at he
  | outcome call pc =>
    constructor
    · intro h
      cases pc with
      | release response => exact .inr ⟨call, response, rfl, mem_ite_singleton.mp h⟩
      | returned response =>
        simp only [stage] at h
        split at h <;> simp [Stage.slots] at h
      | _ => simp [stage, Stage.slots] at h
    · rintro (⟨_, _, he, -⟩ | ⟨_, response, ⟨⟩, h⟩)
      · simp at he
      · exact mem_ite_singleton.mpr h

/-- The closed ids are those of the rows with an outcome. -/
theorem closedIds_eq : w.closedIds
    = ↑((w.tables.decisions.filter (·.outcomePayload.isSome)).map (·.decisionId)) := by
  rw [World.closedIds]
  induction w.tables.decisions with
  | nil => rfl
  | cons row rows ih =>
    rw [sumOver_cons, ih, RoutingDecisionRecord.closedId, List.filter_cons]
    split <;> simp

/-- A recorded report has returned. -/
theorem mem_recordedCalls {ts : List Task} {call : OutcomeCall} (h : call ∈ recordedCalls ts) :
    ∃ response, .outcome call (.returned response) ∈ ts := by
  obtain ⟨t, ht, hcall⟩ := List.mem_filterMap.mp h
  split at hcall
  next call' response =>
    split at hcall
    next =>
      obtain rfl := Option.some.inj hcall
      exact ⟨response, ht⟩
    next => simp at hcall
  next => simp at hcall

/-- A sum of singletons is the multiset of the list. -/
theorem sum_map_singletons {α β : Type} (f : α → β) (l : List α) :
    (l.map fun a => ({f a} : Multiset β)).sum = ↑(l.map f) := by
  induction l with
  | nil => rfl
  | cons a l ih =>
    rw [List.map_cons, List.sum_cons, ih, Multiset.singleton_add, List.map_cons]
    rfl

/-- With distinct agent ids, what is charged under a principal's key is what
the agent's calls reported. -/
theorem sum_spend {caller : AgentPrincipal → Prop} {p : AgentPrincipal}
    (hunique : ∀ p p', caller p → caller p' → p.agentId = p'.agentId → p = p') (hp : caller p) :
    ∀ {calls : List OutcomeCall}, (∀ call ∈ calls, caller call.principal) →
      (calls.map fun call => Stage.spend p.quotaKey (.published call)).sum
        = ((calls.filter (·.principal.agentId = p.agentId)).map (·.outcome.finalCostUsd)).sum
  | [], _ => rfl
  | call :: calls, h => by
    have ih := sum_spend hunique hp fun call' h' => h call' (List.mem_cons_of_mem _ h')
    rw [List.map_cons, List.sum_cons, ih, Stage.spend]
    by_cases hagent : call.principal.agentId = p.agentId
    · obtain rfl := hunique _ _ (h call (by simp)) hp hagent
      simp
    · have hkey : call.principal.quotaKey ≠ p.quotaKey := fun he => hagent (congrArg Prod.snd he)
      simp [hagent, hkey]

/-- **Slots, spend and events agree with the decisions, in every run.** -/
theorem ledger_agrees {policies : List (String × RoutingPolicy)} {settings : Settings}
    {caller : AgentPrincipal → Prop} {acts : List (Act Task Env)}
    {c : Conf (World InMemoryQuota) Task}
    (hunique : ∀ p p', caller p → caller p' → p.agentId = p'.agentId → p = p')
    (hrun : RunIn (buildInMemoryRuntime policies settings) (ledgerRuns caller)
      ⟨World.empty {}, []⟩ acts c) : LedgerAgrees c caller := by
  obtain ⟨hledger, hprov, hctx⟩ := hrun.ledger hunique
  have hkeys : ∀ {p p'}, caller p → caller p' → p.quotaKey = p'.quotaKey → p = p' :=
    fun hp hp' heq => hunique _ _ hp hp' (congrArg Prod.snd heq)
  have hslots : ∀ p, caller p → (c.world.quota.concurrent p.quotaKey : Set String)
      = openDecisions p c ∪ reservedInFlight p c ∪ awaitingRelease p c := by
    intro p hp
    ext id
    rw [Finset.mem_coe, ← Finset.mem_val, hledger.slots, Multiset.mem_add, mem_openIds,
      mem_sumOver, Set.union_assoc]
    refine or_congr ?_ ?_
    · refine exists_congr fun row => and_congr_right fun hrow => and_congr_right fun _ => ?_
      -- One principal has the agent id, so agent and key select the same rows.
      refine and_congr_left fun _ => ⟨fun hkey => congrArg Prod.snd hkey, fun hagent => ?_⟩
      obtain ⟨p', hp', hpagent, hpenv, -⟩ := hctx.creators _ (World.origin_mem hrow)
      obtain rfl := hunique p' p hp' hp (hpagent.symm.trans hagent)
      exact Prod.ext hpenv hpagent
    · simp only [Task.mem_stage_slots]
      constructor
      · intro hmem
        obtain ⟨t, ht, hslot⟩ := hmem
        rcases hslot with ⟨call, pc, rfl, hkey, hid⟩ | ⟨call, response, rfl, hkey, hid⟩
        · exact .inl ⟨call, pc, ht, hkeys (hctx.callers _ ht) hp hkey, hid⟩
        · exact .inr ⟨call, response, ht, hkeys (hctx.callers _ ht) hp hkey, hid⟩
      · intro hmem
        rcases hmem with ⟨call, pc, ht, rfl, hid⟩ | ⟨call, response, ht, rfl, hid⟩
        · exact ⟨_, ht, .inl ⟨call, pc, rfl, rfl, hid⟩⟩
        · exact ⟨_, ht, .inr ⟨call, response, rfl, rfl, hid⟩⟩
  refine ⟨hslots, hledger.limit, hprov.rows_nodup, ?_, ?_, ?_, ?_⟩
  · intro hquiet p hp
    have hreserved : reservedInFlight p c = ∅ := by
      refine Set.eq_empty_of_forall_notMem ?_
      intro id hreserved
      obtain ⟨call, pc, ht, -, hid⟩ := hreserved
      have hfin := hquiet _ ht
      cases pc <;> simp_all [Task.Finished, Task.await, CreatePc.reservation]
    have hawaiting : awaitingRelease p c = ∅ := by
      refine Set.eq_empty_of_forall_notMem ?_
      intro id hawaiting
      obtain ⟨call, response, ht, -, -⟩ := hawaiting
      exact absurd (hquiet _ ht) (by simp [Task.Finished, Task.await])
    rw [hslots p hp, hreserved, hawaiting, Set.union_empty, Set.union_empty]
  · intro hquiet
    have haccepted := hledger.accepted
    rw [sumOver_quiescent rfl hquiet, closedIds_eq] at haccepted
    refine (Multiset.coe_eq_coe.mp (haccepted.trans ?_)).symm
    exact sum_map_singletons (fun call : OutcomeCall => call.outcome.decisionId) _
  · intro hquiet p hp
    rw [hledger.spend, sumOver_quiescent rfl hquiet]
    refine sum_spend hunique hp fun call hcall => ?_
    obtain ⟨response, ht⟩ := mem_recordedCalls hcall
    exact hctx.callers _ ht
  · intro hquiet
    have hevents := hledger.events
    rw [sumOver_quiescent rfl hquiet] at hevents
    exact Multiset.coe_eq_coe.mp (hevents.trans (sum_map_singletons outcomeEvent _))

/-- One decision, its outcome, and the outcome again. -/
theorem ledger_agrees_duplicate :
    ∃ c, RunIn labDeps (ledgerRuns (· = labAgent)) ⟨World.empty {}, []⟩
        (traceActs [labCreate keyedCall, labReport reportCall, labReport reportCall]
          (List.replicate 8 (0, labEnv "a") ++ List.replicate 6 (1, labEnv "b")
            ++ List.replicate 3 (2, labEnv "b"))) c ∧
      (∀ t ∈ c.tasks, t.Finished ∧ t.failure = none) ∧ LedgerAgrees c (· = labAgent) := by
  obtain ⟨c, hrun, hc⟩ := exists_run_of_trace labDeps (ledgerRuns (· = labAgent)) (World.empty {})
    [labCreate keyedCall, labReport reportCall, labReport reportCall]
    (List.replicate 8 (0, labEnv "a") ++ List.replicate 6 (1, labEnv "b")
      ++ List.replicate 3 (2, labEnv "b"))
    (fun c => decide (∀ t ∈ c.tasks, t.Finished ∧ t.failure = none))
    (by intro a; cases a <;> simp [ledgerRuns])
    (by simp [labCreate, labReport, Task.Started.create, Task.Started.outcome, ledgerRuns,
      Task.principal, keyedCall, reportCall])
    (by simp [labEnv]) (by decide +kernel)
  exact ⟨c, hrun, of_decide_eq_true hc, ledger_agrees (by simp +contextual) hrun⟩

end ControlPlane
