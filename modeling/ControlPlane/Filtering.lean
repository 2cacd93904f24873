import ControlPlane.PricingEngine

/-!
# Filtering is an exact partition

What the loop of `calculateRoutingDecision` does to a catalog, stated apart
from how it does it. `violates` says, for each rejection reason, when a model
breaks that constraint; `FirstViolated` picks the first broken one in the
filter order and `Survives` means none is broken. `scanModel_cases` is the
one place the loop body is opened: a turn either appends one rejection
naming the first violated constraint and bumps that reason's counter, or
appends one candidate. `scan_accounted` carries that over the whole catalog.

The budget constraint has two branches in the source and here. A zero budget
asks for a cost of exactly zero; a positive one is compared with the cost as
a double, so a cost above the budget passes while both have the same double
(`cost_over_budget_survives`). In exact arithmetic the two together are the
one comparison `budget < cost`.
-/

namespace ControlPlane

/-! ## The five constraints -/

/-- What the filter of that name tests. -/
def violates (inp : ScanInput) (model : CatalogModel) : RejectionReason → Prop
  | .providerFiltered =>
    (∃ allowlist, inp.request.providerAllowlist = some allowlist ∧ allowlist ≠ []
      ∧ model.provider ∉ allowlist)
    ∨ ∃ denylist, inp.request.providerDenylist = some denylist ∧ model.provider ∈ denylist
  | .capabilityFiltered =>
    let required := inp.request.capabilityRequirements
    (required.vision = true ∧ model.capabilities.vision = false)
    ∨ (required.reasoning = true ∧ model.capabilities.reasoning = false)
    ∨ (required.toolCalling = true ∧ model.capabilities.toolCalling = false)
    ∨ (required.jsonMode = true ∧ model.capabilities.jsonMode = false)
    ∨ inp.request.taskType ∉ model.capabilities.supportedTaskTypes
    ∨ model.contextWindowTokens < inp.request.contextWindowTokens
  | .capacityFiltered => exceedsCapacity inp.rt.arith inp.request (inp.signal model) model
  | .budgetFiltered =>
    let budget := inp.request.budgetLimitUsd
    let cost := totalCost inp.rt.arith inp.request (inp.signal model) model
    (budget = 0 ∧ 0 < cost) ∨ (0 < budget ∧ inp.rt.arith.float budget < inp.rt.arith.float cost)
  | .latencyFiltered =>
    ∃ slo, inp.request.latencySloMs = some slo
      ∧ (slo : ℤ) < expectedTtfbMs inp.request (inp.signal model) model

/-- Position of a constraint in the filter order. -/
def RejectionReason.position : RejectionReason → ℕ
  | .providerFiltered => 0
  | .capabilityFiltered => 1
  | .capacityFiltered => 2
  | .budgetFiltered => 3
  | .latencyFiltered => 4

/-- `why` is violated and nothing before it is. -/
def FirstViolated (inp : ScanInput) (model : CatalogModel) (why : RejectionReason) : Prop :=
  violates inp model why ∧ ∀ r, r.position < why.position → ¬violates inp model r

/-- No filter rejects the model. -/
def Survives (inp : ScanInput) (model : CatalogModel) : Prop :=
  ∀ why, ¬violates inp model why

/-- The counter that belongs to a reason. -/
def ScanState.filteredBy (st : ScanState) : RejectionReason → ℕ
  | .providerFiltered => st.filteredByProvider
  | .capabilityFiltered => st.filteredByCapability
  | .capacityFiltered => st.filteredByCapacity
  | .budgetFiltered => st.filteredByBudget
  | .latencyFiltered => st.filteredByLatency

/-! ## The loop's tests decide the constraints -/

/-- The provider filter, as the code tests it. -/
theorem provider_violated_iff (inp : ScanInput) (model : CatalogModel) :
    violates inp model .providerFiltered ↔
      outsideAllowlist inp.request model = true ∨ insideDenylist inp.request model = true := by
  unfold violates outsideAllowlist insideDenylist
  refine or_congr ?_ ?_
  · cases inp.request.providerAllowlist <;> simp
  · cases inp.request.providerDenylist <;> simp

/-- The capability filter, by the gap it finds. -/
theorem capability_violated_iff (inp : ScanInput) (model : CatalogModel) :
    violates inp model .capabilityFiltered ↔
      ∃ gap, matchesCapabilities model inp.request = some gap := by
  unfold violates matchesCapabilities
  simp only [Bool.and_eq_true, Bool.not_eq_true']
  split_ifs <;> simp_all

/-- The latency filter, only with an objective to miss. -/
theorem latency_violated_iff (inp : ScanInput) (model : CatalogModel) :
    violates inp model .latencyFiltered ↔
      (inp.request.latencySloMs.any fun slo =>
        decide ((slo : ℤ) < expectedTtfbMs inp.request (inp.signal model) model)) = true := by
  unfold violates
  cases inp.request.latencySloMs <;> simp

/-! ## One turn of the loop -/

/-- The candidate a surviving model is appended as. -/
def candidateAt (inp : ScanInput) (rank : ℕ) (model : CatalogModel) : DecisionCandidate :=
  { rank
    modelId := model.modelId
    provider := model.provider
    estimatedCostUsd :=
      roundMoney inp.rt.arith (totalCost inp.rt.arith inp.request (inp.signal model) model)
    expectedTtfbMs := expectedTtfbMs inp.request (inp.signal model) model
    confidenceScore := confidenceScore inp model
    signalFreshnessSeconds := inp.age model
    degradedReason := (inp.signal model).degradedReason
    scoreBreakdown := scoreBreakdown inp model }

/-- `st'` is `st` with one rejection of `model` appended and counted. -/
def RejectedTurn (inp : ScanInput) (st st' : ScanState) (model : CatalogModel)
    (rejection : DecisionRejection) : Prop :=
  rejection.modelId = model.modelId ∧ rejection.provider = model.provider
  ∧ FirstViolated inp model rejection.reason
  ∧ st'.rejections = st.rejections ++ [rejection]
  ∧ st'.candidates = st.candidates
  ∧ ∀ why, st'.filteredBy why = st.filteredBy why + if rejection.reason = why then 1 else 0

/-- `st'` is `st` with `model` appended as a candidate. -/
def SurvivedTurn (inp : ScanInput) (st st' : ScanState) (model : CatalogModel) : Prop :=
  Survives inp model
  ∧ st'.rejections = st.rejections
  ∧ st'.candidates = st.candidates ++ [candidateAt inp (st.candidates.length + 1) model]
  ∧ ∀ why, st'.filteredBy why = st.filteredBy why

/-- `st` with one more rejection counted under `why`. -/
def ScanState.count (st : ScanState) : RejectionReason → ScanState
  | .providerFiltered => { st with filteredByProvider := st.filteredByProvider + 1 }
  | .capabilityFiltered => { st with filteredByCapability := st.filteredByCapability + 1 }
  | .capacityFiltered => { st with filteredByCapacity := st.filteredByCapacity + 1 }
  | .budgetFiltered => { st with filteredByBudget := st.filteredByBudget + 1 }
  | .latencyFiltered => { st with filteredByLatency := st.filteredByLatency + 1 }

/-- Counting a rejection adds one to its own counter. -/
theorem filteredBy_count (st : ScanState) (why r : RejectionReason) :
    (st.count why).filteredBy r = st.filteredBy r + if why = r then 1 else 0 := by
  cases why <;> cases r <;> simp [ScanState.count, ScanState.filteredBy]

/-- `st` with the age of the model's signal noted, which happens once the
model is past the capability filter, whatever becomes of it then. -/
def ScanState.noteAge (inp : ScanInput) (st : ScanState) (model : CatalogModel) : ScanState :=
  { st with
    freshnessValues :=
      st.freshnessValues ++ [(inp.age model).getD (inp.signalFreshnessSeconds * 2)] }

/-- The age of a signal is no rejection. -/
theorem filteredBy_noteAge (inp : ScanInput) (st : ScanState) (model : CatalogModel)
    (r : RejectionReason) : (st.noteAge inp model).filteredBy r = st.filteredBy r := by
  cases r <;> rfl

/-- A rejection appended with its counter bumped is a rejected turn. `st'` is
`st`, or `st` with the age of the signal noted. -/
theorem rejectedTurn_intro {inp : ScanInput} {st : ScanState} (st' : ScanState)
    {model : CatalogModel} {why : RejectionReason} {detail : String}
    (hwhy : FirstViolated inp model why) (hcand : st'.candidates = st.candidates)
    (hrej : st'.rejections = st.rejections)
    (hcount : ∀ r, st'.filteredBy r = st.filteredBy r) :
    ∃ rejection, RejectedTurn inp st ((st'.count why).reject model why detail) model rejection := by
  have hcand' : (st'.count why).candidates = st'.candidates := by cases why <;> rfl
  have hrej' : (st'.count why).rejections = st'.rejections := by cases why <;> rfl
  refine ⟨⟨model.modelId, model.provider, why, detail⟩, rfl, rfl, hwhy, ?_, ?_, ?_⟩
  · show (st'.count why).rejections ++ _ = _
    rw [hrej', hrej]
  · show (st'.count why).candidates = _
    rw [hcand', hcand]
  · intro r
    show (st'.count why).filteredBy r = _
    rw [filteredBy_count, hcount]

/-- Each filter has its own place. -/
theorem RejectionReason.position_injective : Function.Injective RejectionReason.position := by
  intro r s heq
  cases r <;> cases s <;> first | rfl | simp [RejectionReason.position] at heq

/-- There are five. -/
theorem RejectionReason.position_lt (why : RejectionReason) : why.position < 5 := by
  cases why <;> simp [RejectionReason.position]

/-- The filters up to position `n` let the model through. -/
def ClearBefore (inp : ScanInput) (model : CatalogModel) (n : ℕ) : Prop :=
  ∀ r : RejectionReason, r.position < n → ¬violates inp model r

/-- Past one more filter. -/
theorem ClearBefore.next {inp : ScanInput} {model : CatalogModel} (why : RejectionReason)
    (h : ClearBefore inp model why.position) (hwhy : ¬violates inp model why) :
    ClearBefore inp model (why.position + 1) := by
  intro r hr
  rcases Nat.lt_succ_iff_lt_or_eq.mp hr with hlt | heq
  · exact h r hlt
  · rwa [RejectionReason.position_injective heq]

/-- **One turn of the loop**: a rejection that names the first violated
constraint, or a survival. -/
theorem scanModel_cases (inp : ScanInput) (st : ScanState) (model : CatalogModel) :
    (∃ rejection, RejectedTurn inp st (scanModel inp st model) model rejection)
    ∨ SurvivedTurn inp st (scanModel inp st model) model := by
  have hprov := provider_violated_iff inp model
  have hcap := capability_violated_iff inp model
  have hlat := latency_violated_iff inp model
  have hclear₀ : ClearBefore inp model 0 := fun r hr => absurd hr (Nat.not_lt_zero _)
  -- One split for each early `continue`; each filter passed clears one more constraint.
  unfold scanModel
  dsimp only
  split
  next hallow =>
    exact .inl (rejectedTurn_intro st ⟨hprov.mpr (.inl hallow), hclear₀⟩ rfl rfl fun _ => rfl)
  next hallow =>
  split
  next hdeny =>
    exact .inl (rejectedTurn_intro st ⟨hprov.mpr (.inr hdeny), hclear₀⟩ rfl rfl fun _ => rfl)
  next hdeny =>
  have hclear₁ : ClearBefore inp model 1 := by
    refine hclear₀.next .providerFiltered ?_
    rw [hprov]
    simp [hallow, hdeny]
  split
  next gap hgap =>
    exact .inl (rejectedTurn_intro st ⟨hcap.mpr ⟨gap, hgap⟩, hclear₁⟩ rfl rfl fun _ => rfl)
  next hgap =>
  have hclear₂ : ClearBefore inp model 2 := by
    refine hclear₁.next .capabilityFiltered ?_
    rw [hcap]
    simp [hgap]
  split
  next hexceeds =>
    have hcapacity : violates inp model .capacityFiltered := hexceeds
    exact .inl (rejectedTurn_intro (st.noteAge inp model) ⟨hcapacity, hclear₂⟩ rfl rfl
      (filteredBy_noteAge inp st model))
  next hexceeds =>
  have hclear₃ : ClearBefore inp model 3 := hclear₂.next .capacityFiltered hexceeds
  split
  next hfree =>
    have hbudget : violates inp model .budgetFiltered := Or.inl hfree
    exact .inl (rejectedTurn_intro (st.noteAge inp model) ⟨hbudget, hclear₃⟩ rfl rfl
      (filteredBy_noteAge inp st model))
  next hfree =>
  split
  next hover =>
    have hbudget : violates inp model .budgetFiltered := Or.inr hover
    exact .inl (rejectedTurn_intro (st.noteAge inp model) ⟨hbudget, hclear₃⟩ rfl rfl
      (filteredBy_noteAge inp st model))
  next hover =>
  have hclear₄ : ClearBefore inp model 4 := by
    refine hclear₃.next .budgetFiltered ?_
    exact fun h => h.elim hfree hover
  split
  next hslow =>
    exact .inl (rejectedTurn_intro (st.noteAge inp model) ⟨hlat.mpr hslow, hclear₄⟩ rfl rfl
      (filteredBy_noteAge inp st model))
  next hslow =>
  have hclear₅ : ClearBefore inp model 5 :=
    hclear₄.next .latencyFiltered fun h => hslow (hlat.mp h)
  exact .inr ⟨fun why => hclear₅ why why.position_lt, rfl, rfl, filteredBy_noteAge inp st model⟩

/-! ## The whole catalog -/

/-- Where a model ends up. -/
inductive Fate
  | rejected (rejection : DecisionRejection)
  | survived (candidate : DecisionCandidate)

/-- The rejections a fate contributes: one or none. -/
def Fate.rejections : Fate → List DecisionRejection
  | .rejected rejection => [rejection]
  | .survived _ => []

/-- The candidates a fate contributes: one or none. -/
def Fate.candidates : Fate → List DecisionCandidate
  | .rejected _ => []
  | .survived candidate => [candidate]

/-- A model is rejected or a candidate, and not both. -/
theorem Fate.length_add (fate : Fate) : fate.rejections.length + fate.candidates.length = 1 := by
  cases fate <;> rfl

/-- `fate` is a fate the constraints allow for `model`. -/
def Accounted (inp : ScanInput) (model : CatalogModel) : Fate → Prop
  | .rejected rejection =>
    rejection.modelId = model.modelId ∧ rejection.provider = model.provider
    ∧ FirstViolated inp model rejection.reason
  | .survived candidate =>
    Survives inp model ∧ ∃ rank, candidate = candidateAt inp rank model

/-- A turn, read as the fate it gives its model. -/
theorem scanModel_fate (inp : ScanInput) (st : ScanState) (model : CatalogModel) :
    ∃ fate, Accounted inp model fate
      ∧ (scanModel inp st model).rejections = st.rejections ++ fate.rejections
      ∧ (scanModel inp st model).candidates = st.candidates ++ fate.candidates
      ∧ ∀ why, (scanModel inp st model).filteredBy why
          = st.filteredBy why + fate.rejections.countP (·.reason = why) := by
  rcases scanModel_cases inp st model with
    ⟨rejection, hid, hprov, hfirst, hrej, hcand, hcount⟩ | ⟨hsurv, hrej, hcand, hcount⟩
  · refine ⟨.rejected rejection, ⟨hid, hprov, hfirst⟩, hrej, ?_, ?_⟩
    · rw [hcand]
      exact (List.append_nil _).symm
    · intro why
      -- The one new rejection counts for its own reason.
      rw [hcount why]
      simp [Fate.rejections, List.countP_cons]
  · refine ⟨.survived _, ⟨hsurv, _, rfl⟩, ?_, hcand, ?_⟩
    · rw [hrej]
      exact (List.append_nil _).symm
    · intro why
      rw [hcount why]
      simp [Fate.rejections]

/-- The fold, from any state of the loop. -/
theorem foldl_accounted (inp : ScanInput) :
    ∀ (models : List CatalogModel) (st : ScanState),
      ∃ fates, List.Forall₂ (Accounted inp) models fates
        ∧ (models.foldl (scanModel inp) st).rejections
            = st.rejections ++ fates.flatMap Fate.rejections
        ∧ (models.foldl (scanModel inp) st).candidates
            = st.candidates ++ fates.flatMap Fate.candidates
        ∧ ∀ why, (models.foldl (scanModel inp) st).filteredBy why
            = st.filteredBy why
              + (fates.flatMap Fate.rejections).countP (·.reason = why) := by
  -- By induction on the catalog, from every state: a turn only appends to what it finds.
  intro models
  induction models with
  | nil =>
    intro st
    exact ⟨[], .nil, by simp, by simp, by simp⟩
  | cons model models ih =>
    intro st
    obtain ⟨fate, hacc, hrej, hcand, hcount⟩ := scanModel_fate inp st model
    obtain ⟨fates, haccs, hrejs, hcands, hcounts⟩ := ih (scanModel inp st model)
    refine ⟨fate :: fates, .cons hacc haccs, ?_, ?_, ?_⟩
    · rw [List.foldl_cons, hrejs, hrej, List.flatMap_cons, List.append_assoc]
    · rw [List.foldl_cons, hcands, hcand, List.flatMap_cons, List.append_assoc]
    · intro why
      rw [List.foldl_cons, hcounts why, hcount why, List.flatMap_cons, List.countP_append,
        Nat.add_assoc]

/-- The counters of a finished scan count the rejections it returns. -/
theorem scan_filteredBy (inp : ScanInput) (models : List CatalogModel) (why : RejectionReason) :
    (scan inp models).filteredBy why
      = (scan inp models).rejections.countP (·.reason = why) := by
  obtain ⟨fates, -, hrej, -, hcount⟩ := foldl_accounted inp models {}
  rw [scan, hcount why, hrej]
  cases why <;> simp [ScanState.filteredBy]

/-- Every reason is one of the five, so the counters add up. -/
theorem sum_countP_reason (rejections : List DecisionRejection) :
    rejections.countP (·.reason = .providerFiltered)
      + rejections.countP (·.reason = .capabilityFiltered)
      + rejections.countP (·.reason = .capacityFiltered)
      + rejections.countP (·.reason = .budgetFiltered)
      + rejections.countP (·.reason = .latencyFiltered) = rejections.length := by
  induction rejections with
  | nil => rfl
  | cons r rest ih =>
    simp only [List.countP_cons, List.length_cons]
    cases hr : r.reason <;> simp <;> omega

/-- Rejections and survivors split the catalog. -/
theorem scan_length (inp : ScanInput) (models : List CatalogModel) :
    models.length = (scan inp models).rejections.length + (scan inp models).candidates.length := by
  obtain ⟨fates, hacc, hrej, hcand, -⟩ := foldl_accounted inp models {}
  -- Each fate is one rejection or one candidate, never both.
  have hsplit : ∀ fs : List Fate, fs.length
      = (fs.flatMap Fate.rejections).length + (fs.flatMap Fate.candidates).length := by
    intro fs
    induction fs with
    | nil => rfl
    | cons f fs ih =>
      have hone := f.length_add
      rw [List.flatMap_cons, List.flatMap_cons, List.length_append, List.length_append,
        List.length_cons]
      omega
  rw [scan, hrej, hcand, hacc.length_eq, hsplit fates]
  rfl

/-- Ranking neither adds nor loses survivors before the cut. -/
theorem rankCandidates_length (maxCandidates : ℕ) (candidates : List DecisionCandidate) :
    (rankCandidates maxCandidates candidates).length = min maxCandidates candidates.length := by
  simp [rankCandidates, sortCandidates]

/-- The ranked list is empty exactly when nothing survived (the schema keeps
`max_candidates` positive). -/
theorem rankCandidates_eq_nil (policy : RoutingPolicy) (candidates : List DecisionCandidate) :
    rankCandidates policy.maxCandidates candidates = [] ↔ candidates = [] := by
  have hmax := policy.maxCandidates_ge
  rw [← List.length_eq_zero_iff, ← List.length_eq_zero_iff, rankCandidates_length]
  omega

/-! ## The fate of one catalog entry -/

/-- `model`, scanned after `before`, was rejected. -/
def RejectedAt (inp : ScanInput) (before : List CatalogModel) (model : CatalogModel) : Prop :=
  ∃ rejection,
    (scan inp (before ++ [model])).rejections = (scan inp before).rejections ++ [rejection]

/-- `model`, scanned after `before`, was appended as `candidate`. -/
def SurvivesAt (inp : ScanInput) (before : List CatalogModel) (model : CatalogModel)
    (candidate : DecisionCandidate) : Prop :=
  (scan inp (before ++ [model])).candidates = (scan inp before).candidates ++ [candidate]

/-- The scan takes models one by one. -/
theorem scan_concat (inp : ScanInput) (before : List CatalogModel) (model : CatalogModel) :
    scan inp (before ++ [model]) = scanModel inp (scan inp before) model := by
  simp [scan, List.foldl_append]

/-- To be rejected is to be tested positive by some filter. -/
theorem rejectedAt_iff (inp : ScanInput) (before : List CatalogModel) (model : CatalogModel) :
    RejectedAt inp before model ↔ ∃ why, violates inp model why := by
  unfold RejectedAt
  rw [scan_concat]
  rcases scanModel_cases inp (scan inp before) model with
    ⟨rejection, -, -, hfirst, hrej, -⟩ | ⟨hsurv, hrej, -⟩
  · exact ⟨fun _ => ⟨_, hfirst.1⟩, fun _ => ⟨rejection, hrej⟩⟩
  · rw [hrej]
    simp only [List.self_eq_append_right, List.cons_ne_self, exists_false, false_iff, not_exists]
    exact hsurv

/-- A survivor is appended with the next rank. -/
theorem survivesAt_iff (inp : ScanInput) (before : List CatalogModel) (model : CatalogModel)
    (candidate : DecisionCandidate) :
    SurvivesAt inp before model candidate ↔ Survives inp model
      ∧ candidate = candidateAt inp ((scan inp before).candidates.length + 1) model := by
  unfold SurvivesAt
  rw [scan_concat]
  rcases scanModel_cases inp (scan inp before) model with
    ⟨rejection, -, -, hfirst, -, hcand, -⟩ | ⟨hsurv, -, hcand, -⟩
  · rw [hcand]
    simp only [List.self_eq_append_right, List.cons_ne_self, false_iff, not_and]
    exact fun h => absurd hfirst.1 (h _)
  · rw [hcand]
    simp only [List.append_cancel_left_eq, List.cons.injEq, and_true]
    exact ⟨fun h => ⟨hsurv, h.symm⟩, fun h => h.2.symm⟩

/-! ## Well-formed signals -/

/-- The ranges the probe pipeline stores. -/
structure Signal.WellFormed (signal : Signal) : Prop where
  ttfb : ∀ q, signal.ttfbP50Ms = some q → 0 ≤ q
  qps : ∀ q, signal.throughputHintQps = some q → 0 ≤ q
  success : ∀ q, signal.successRate = some q → 0 ≤ q ∧ q ≤ 1

/-- Every entry of the map is well-formed. -/
def WellFormedSignals (signals : SignalMap) : Prop :=
  ∀ modelId signal, signals modelId = some signal → signal.WellFormed

/-- No signal at all is well formed. -/
theorem emptySignal_wellFormed : ({} : Signal).WellFormed :=
  ⟨by simp, by simp, by simp⟩

/-- The signal a scan reads for a model is one of the map's, or empty. -/
theorem ScanInput.signal_wellFormed {inp : ScanInput} (h : WellFormedSignals inp.signals)
    (model : CatalogModel) : (inp.signal model).WellFormed := by
  unfold ScanInput.signal
  cases hs : inp.signals model.modelId with
  | none => exact emptySignal_wellFormed
  | some signal => exact h _ _ hs

/-! ## The decision -/

/-- The counters as the response reports them. -/
def DecisionObservability.filteredBy (o : DecisionObservability) : RejectionReason → ℕ
  | .providerFiltered => o.filteredByProvider
  | .capabilityFiltered => o.filteredByCapability
  | .capacityFiltered => o.filteredByCapacity
  | .budgetFiltered => o.filteredByBudget
  | .latencyFiltered => o.filteredByLatency

/-- No two reasons are both the first violated one. -/
theorem firstViolated_unique {inp : ScanInput} {model : CatalogModel} {r s : RejectionReason}
    (hr : FirstViolated inp model r) (hs : FirstViolated inp model s) : r = s := by
  -- Each is violated, so neither comes before the other.
  have hle : s.position ≤ r.position := Nat.le_of_not_lt fun h => hs.2 r h hr.1
  have hge : r.position ≤ s.position := Nat.le_of_not_lt fun h => hr.2 s h hs.1
  exact RejectionReason.position_injective (Nat.le_antisymm hge hle)

/-- A model has one fate: it survives, or exactly one reason is first. -/
theorem fate_exclusive (inp : ScanInput) (model : CatalogModel) :
    (Survives inp model ∧ ∀ why, ¬FirstViolated inp model why)
    ∨ (¬Survives inp model ∧ ∃! why, FirstViolated inp model why) := by
  rcases scanModel_cases inp {} model with ⟨rejection, -, -, hfirst, -⟩ | ⟨hsurv, -⟩
  · exact Or.inr ⟨fun h => h _ hfirst.1,
      rejection.reason, hfirst, fun _ h => firstViolated_unique h hfirst⟩
  · exact Or.inl ⟨hsurv, fun why h => hsurv why h.1⟩

/-- What a call returns, in terms of its finished scan. -/
theorem calculateRoutingDecision_cases (request : RoutingDecisionRequest)
    (catalog : CatalogSnapshot) (policy : RoutingPolicy) (signals : SignalMap)
    (signalFreshnessSeconds ttlSeconds : ℕ) (rt : Runtime) :
    let st := scan (scanInput request catalog policy signals signalFreshnessSeconds rt)
      catalog.models
    match calculateRoutingDecision request catalog policy signals signalFreshnessSeconds
        ttlSeconds rt with
    | .ok response =>
      response.candidates = rankCandidates policy.maxCandidates st.candidates
      ∧ st.candidates ≠ []
      ∧ response.rejections = st.rejections
      ∧ response.observability
          = observabilityOf catalog policy signalFreshnessSeconds rt st response.candidates
    | .error e =>
      e = .valueError "No models survived policy, budget, latency, and capability filtering."
      ∧ st.candidates = [] := by
  dsimp only
  unfold calculateRoutingDecision
  dsimp only
  split
  next response hresp =>
    split at hresp
    next => simp at hresp
    next top rest hranked =>
      simp only [Except.ok.injEq] at hresp
      subst hresp
      -- The cut leaves a candidate only if there was one before it.
      refine ⟨rfl, ?_, rfl, rfl⟩
      rw [ne_eq, ← rankCandidates_eq_nil policy, hranked]
      simp
  next e herr =>
    split at herr
    next hranked =>
      simp only [Except.error.injEq] at herr
      exact ⟨herr.symm, (rankCandidates_eq_nil policy _).mp hranked⟩
    next => simp at herr

/-- **Filtering is an exact, fully accounted partition.** Every catalog model
has one fate; the rejections are those of the fates in catalog order, each
naming the first constraint its model violates, and the survivors are the
models that violate none; every counter is the number of rejections with its
reason. A returned decision reports these numbers, and the only error is the
one raised when nothing survived. -/
theorem filtering_exact_partition (request : RoutingDecisionRequest)
    (catalog : CatalogSnapshot) (policy : RoutingPolicy) (signals : SignalMap)
    (signalFreshnessSeconds ttlSeconds : ℕ) (rt : Runtime) :
    let inp := scanInput request catalog policy signals signalFreshnessSeconds rt
    let st := scan inp catalog.models
    (∀ model, (Survives inp model ∧ ∀ why, ¬FirstViolated inp model why)
      ∨ (¬Survives inp model ∧ ∃! why, FirstViolated inp model why))
    ∧ (∃ fates, List.Forall₂ (Accounted inp) catalog.models fates
      ∧ st.rejections = fates.flatMap Fate.rejections
      ∧ st.candidates = fates.flatMap Fate.candidates)
    ∧ (∀ why, st.filteredBy why = st.rejections.countP (·.reason = why))
    ∧ st.filteredByProvider + st.filteredByCapability + st.filteredByCapacity
        + st.filteredByBudget + st.filteredByLatency = st.rejections.length
    ∧ match calculateRoutingDecision request catalog policy signals signalFreshnessSeconds
          ttlSeconds rt with
      | .ok response =>
        response.rejections = st.rejections
        ∧ (∀ why, response.observability.filteredBy why
            = response.rejections.countP (·.reason = why))
        ∧ response.observability.evaluatedModels
            = response.rejections.length + st.candidates.length
        ∧ response.observability.candidateCount = response.candidates.length
        ∧ response.candidates.length = min policy.maxCandidates st.candidates.length
      | .error e =>
        e = .valueError "No models survived policy, budget, latency, and capability filtering."
        ∧ st.candidates = [] := by
  intro inp st
  have hcount : ∀ why, st.filteredBy why = st.rejections.countP (·.reason = why) :=
    scan_filteredBy inp catalog.models
  refine ⟨fate_exclusive inp, ?_, hcount, ?_, ?_⟩
  · obtain ⟨fates, hacc, hrej, hcand, -⟩ := foldl_accounted inp catalog.models {}
    exact ⟨fates, hacc, hrej, hcand⟩
  · rw [← sum_countP_reason, ← hcount, ← hcount, ← hcount, ← hcount, ← hcount]
    rfl
  · have hcases := calculateRoutingDecision_cases request catalog policy signals
      signalFreshnessSeconds ttlSeconds rt
    split
    next response hresp =>
      rw [hresp] at hcases
      obtain ⟨hranked, -, hrej, hobs⟩ := hcases
      refine ⟨hrej, ?_, ?_, ?_, ?_⟩
      · intro why
        rw [hobs, hrej, ← hcount why]
        cases why <;> rfl
      · rw [hobs, hrej]
        exact scan_length inp catalog.models
      · rw [hobs]
        rfl
      · rw [hranked, rankCandidates_length]
    next e herr =>
      rw [herr] at hcases
      exact hcases

/-! ## A cost above the budget -/

/-- A runtime for fixed inputs: the arithmetic of the machine, nothing
parses, the clock is at zero. -/
def stillRuntime : Runtime :=
  { arith := .machine, now := 0, fromIsoFormat := fun _ => none, floatRepr := fun _ => "",
    computeMs := 0 }

/-- A plain policy for fixed inputs. -/
def balancedPolicy : RoutingPolicy :=
  { policyId := "balanced", version := "2026.04.v1", weights := {} }

/-- A model whose capacity a hint of two requests a second exceeds. -/
def slowModel : CatalogModel :=
  { provider := "lab", modelName := "slow", modelId := "lab/slow", inPrice1k := 1 / 1000,
    outPrice1k := 1 / 1000 }

/-- A long input and a single token of output. -/
def longRequest : RoutingDecisionRequest :=
  { agentId := "agent-1", requestId := "req-1", taskType := "general_chat",
    inputChars := 10000, expectedOutputTokens := 1, contextWindowTokens := 4096,
    budgetLimitUsd := 1 }

/-- A price may be zero. -/
theorem noCost_ge : (0 : ℚ) ≤ 0 :=
  le_refl 0

/-- A cold start of ten cents, and a price that adds next to nothing. -/
def tenthModel : CatalogModel :=
  { slowModel with
    modelName := "tenth", modelId := "lab/tenth", inPrice1k := 1 / 10 ^ 14, outPrice1k := 0,
    coldStartCostUsd := 1 / 10, inPrice1k_ge := by norm_num, outPrice1k_ge := noCost_ge,
    coldStartCostUsd_ge := by norm_num }

/-- The model alone. -/
def tenthCatalog : CatalogSnapshot :=
  { version := "v1", checksum := "c", source := "models_config.json", models := [tenthModel] }

/-- One character, and a budget of the double nearest ten cents. -/
def tenthRequest : RoutingDecisionRequest :=
  { longRequest with
    inputChars := 1, budgetLimitUsd := 3602879701896397 / 36028797018963968,
    inputChars_ge := by norm_num, budgetLimitUsd_ge := by norm_num }

/-- **A survivor's exact cost may lie above the budget**: 0.10000000000000001
dollars become the double nearest 0.1, which the budget is too. -/
theorem cost_over_budget_survives :
    ¬ ∀ (request : RoutingDecisionRequest) (catalog : CatalogSnapshot) (policy : RoutingPolicy)
        (signals : SignalMap) (signalFreshnessSeconds : ℕ) (rt : Runtime)
        (before after : List CatalogModel) (model : CatalogModel) (candidate : DecisionCandidate),
      WellFormedSignals signals → catalog.models = before ++ model :: after →
      SurvivesAt (scanInput request catalog policy signals signalFreshnessSeconds rt)
        before model candidate →
      totalCost rt.arith request ((signals model.modelId).getD {}) model
        ≤ request.budgetLimitUsd := by
  intro hall
  let inp := scanInput tenthRequest tenthCatalog balancedPolicy (fun _ => none) 90 stillRuntime
  have hsurvives : SurvivesAt inp [] tenthModel (candidateAt inp 1 tenthModel) := by
    unfold SurvivesAt
    decide +kernel
  have hwithin := hall tenthRequest tenthCatalog balancedPolicy (fun _ => none) 90 stillRuntime
    [] [] tenthModel _ (fun _ _ h => by simp at h) rfl hsurvives
  revert hwithin
  decide +kernel

end ControlPlane
