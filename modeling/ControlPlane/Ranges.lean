import ControlPlane.CheckedEngine

/-!
# Scoring never leaves its schema

Some numbers of a request or a catalog are bounded below only, and an
operation of the engine raises where one is too large for the type it is put
into: `estimate_tokens` makes a float of the character count and the latency
score one of the time to first byte, `quantize` wants the six decimals of the
cost within the 28 digits of the context, and `expires_at` has to lie in the
years of a `datetime`. `rangedRoutingDecision` is the checked engine with
these four exceptions at their places.

`scoring_stays_in_schema` says what it raises: the exception of the first
model that meets one of the first three, else its own where nothing survives,
else that of the expiry. All it returns is inside the schema.

Mirroring notes:
- The two operations on a scored model stand behind its two records here;
  records of signals in the ranges of the probe pipeline refuse nothing.
- A `Decimal` has no largest exponent and an integer is printed whatever its
  length: both need integers of thousands of digits, which `int` refuses to
  read.
-/

namespace ControlPlane

open Lib

/-! ## Numbers too large for their type -/

/-- What leaves the engine: one of the two exceptions for a number out of
range, or what the checked engine raises. -/
inductive EngineError
  | overflowError
  | invalidOperation
  | checked (err : Raised ServiceError)
deriving DecidableEq

/-- `float(n)` raises: the double nearest to `n` would need a larger exponent. -/
def TooLargeForFloat (arith : Arithmetic) (n : ℤ) : Prop :=
  2 ^ 1024 ≤ arith.float n

instance tooLargeForFloatDecidable (arith : Arithmetic) (n : ℤ) :
    Decidable (TooLargeForFloat arith n) :=
  inferInstanceAs (Decidable (_ ≤ _))

/-- `quantize` raises: six decimals of the cost take more than 28 digits. -/
def TooLargeForContext (cost : ℚ) : Prop :=
  10 ^ 28 ≤ halfUp.toInt (cost * 10 ^ 6)

instance tooLargeForContextDecidable (cost : ℚ) : Decidable (TooLargeForContext cost) :=
  inferInstanceAs (Decidable (_ ≤ _))

/-- `datetime.max` in UTC, in microseconds since the epoch. -/
def lastDatetime : ℤ :=
  253402300799999999

/-- `now + timedelta(seconds=ttl)` raises: it is past the year 9999. -/
def TooLateForDatetime (rt : Runtime) (ttlSeconds : ℕ) : Prop :=
  lastDatetime < rt.now + ttlSeconds * 1000000

instance tooLateForDatetimeDecidable (rt : Runtime) (ttlSeconds : ℕ) :
    Decidable (TooLateForDatetime rt ttlSeconds) :=
  inferInstanceAs (Decidable (_ < _))

/-! ## The engine, with these exceptions -/

/-- The model is past the capacity filter, where its tokens are estimated. -/
def ReachesCost (inp : ScanInput) (model : CatalogModel) : Prop :=
  ¬violates inp model .providerFiltered ∧ ¬violates inp model .capabilityFiltered
    ∧ ¬violates inp model .capacityFiltered

instance reachesCostDecidable (inp : ScanInput) (model : CatalogModel) :
    Decidable (ReachesCost inp model) :=
  inferInstanceAs (Decidable (_ ∧ _ ∧ _))

/-- `checkedScanModel`, with what the sizes of the numbers raise. -/
def rangedScanModel (inp : ScanInput) (weights : Weights) (st : ScanState)
    (model : CatalogModel) : Except EngineError ScanState :=
  if ReachesCost inp model ∧ TooLargeForFloat inp.rt.arith inp.request.inputChars then
    .error .overflowError
  else do
    let next ← (checkedScanModel inp weights st model).mapError .checked
    -- The model has become a candidate: it was scored, and its cost published.
    if st.candidates.length < next.candidates.length then
      if TooLargeForFloat inp.rt.arith
          (expectedTtfbMs inp.request (inp.signal model) model) then
        .error .overflowError
      else if TooLargeForContext
          (totalCost inp.rt.arith inp.request (inp.signal model) model) then
        .error .invalidOperation
      else return next
    else return next

/-- `calculate_routing_decision`. The expiry is computed when a candidate is
known to be there. -/
def rangedRoutingDecision (request : RoutingDecisionRequest) (catalog : CatalogSnapshot)
    (policy : RoutingPolicy) (signals : SignalMap) (signalFreshnessSeconds ttlSeconds : ℕ)
    (rt : Runtime) : Except EngineError RoutingDecisionResponse := do
  let inp := scanInput request catalog policy signals signalFreshnessSeconds rt
  let weights ← (checkedNormalizeWeights policy).mapError .checked
  let st ← catalog.models.foldlM (rangedScanModel inp weights) {}
  let response ← (checkedDecisionFrom catalog request policy signalFreshnessSeconds ttlSeconds rt
    st).mapError .checked
  if TooLateForDatetime rt ttlSeconds then .error .overflowError else return response

/-! ## What a turn raises -/

/-- The exception of a model's turn: of the count, of the time to first byte,
of the cost. -/
inductive RangeRaises (inp : ScanInput) (model : CatalogModel) : EngineError → Prop
  | count (hreaches : ReachesCost inp model)
      (hcount : TooLargeForFloat inp.rt.arith inp.request.inputChars) :
      RangeRaises inp model .overflowError
  | ttfb (hcount : ¬TooLargeForFloat inp.rt.arith inp.request.inputChars)
      (hsurvives : Survives inp model)
      (httfb : TooLargeForFloat inp.rt.arith
        (expectedTtfbMs inp.request (inp.signal model) model)) :
      RangeRaises inp model .overflowError
  | cost (hcount : ¬TooLargeForFloat inp.rt.arith inp.request.inputChars)
      (hsurvives : Survives inp model)
      (httfb : ¬TooLargeForFloat inp.rt.arith
        (expectedTtfbMs inp.request (inp.signal model) model))
      (hcost : TooLargeForContext (totalCost inp.rt.arith inp.request (inp.signal model) model)) :
      RangeRaises inp model .invalidOperation

section Turn

variable {inp : ScanInput} {model : CatalogModel}

/-- A survivor's cost is computed. -/
theorem Survives.reachesCost (h : Survives inp model) : ReachesCost inp model :=
  ⟨h .providerFiltered, h .capabilityFiltered, h .capacityFiltered⟩

/-- One model, one exception. -/
theorem RangeRaises.unique {first second : EngineError} (h : RangeRaises inp model first)
    (h' : RangeRaises inp model second) : first = second := by
  cases h with
  | count hreaches hcount =>
    cases h' with
    | count _ _ => rfl
    | ttfb _ _ _ => rfl
    | cost hnot _ _ _ => exact absurd hcount hnot
  | ttfb hcount _ httfb =>
    cases h' with
    | count _ _ => rfl
    | ttfb _ _ _ => rfl
    | cost _ _ hnot _ => exact absurd httfb hnot
  | cost hcount _ httfb _ =>
    cases h' with
    | count _ hnot => exact absurd hnot hcount
    | ttfb _ _ hnot => exact absurd hnot httfb
    | cost _ _ _ _ => rfl

/-- A turn appends a candidate exactly where the model survives. -/
theorem scanModel_grows_iff (st : ScanState) :
    st.candidates.length < (scanModel inp st model).candidates.length ↔ Survives inp model := by
  rcases scanModel_cases inp st model with
    ⟨rejection, -, -, hfirst, -, hcand, -⟩ | ⟨hsurv, -, hcand, -⟩
  · rw [hcand]
    exact iff_of_false (lt_irrefl _) fun h => h _ hfirst.1
  · rw [hcand]
    exact iff_of_true (by simp) hsurv

/-- **One turn**: it raises as `RangeRaises` says, and otherwise is the plain
one. -/
theorem rangedScanModel_cases (hsignals : WellFormedSignals inp.signals) (st : ScanState) :
    (∃ e, rangedScanModel inp (normalizeWeights inp.policy) st model = .error e
      ∧ RangeRaises inp model e)
    ∨ rangedScanModel inp (normalizeWeights inp.policy) st model = .ok (scanModel inp st model)
      ∧ ∀ e, ¬RangeRaises inp model e := by
  have hgrows := @scanModel_grows_iff inp model st
  unfold rangedScanModel
  rw [checkedScanModel_eq hsignals, mapError_ok, ok_bind]
  by_cases hcount : ReachesCost inp model
      ∧ TooLargeForFloat inp.rt.arith inp.request.inputChars
  · rw [if_pos hcount]
    exact .inl ⟨_, rfl, .count hcount.1 hcount.2⟩
  rw [if_neg hcount]
  by_cases hsurvives : Survives inp model
  · have hfits : ¬TooLargeForFloat inp.rt.arith inp.request.inputChars :=
      fun h => hcount ⟨hsurvives.reachesCost, h⟩
    rw [if_pos (hgrows.mpr hsurvives)]
    split
    next httfb => exact .inl ⟨_, rfl, .ttfb hfits hsurvives httfb⟩
    next httfb =>
    split
    next hcost => exact .inl ⟨_, rfl, .cost hfits hsurvives httfb hcost⟩
    next hcost =>
      refine .inr ⟨rfl, fun e he => ?_⟩
      cases he with
      | count _ h => exact hfits h
      | ttfb _ _ h => exact httfb h
      | cost _ _ _ h => exact hcost h
  · rw [if_neg (fun h => hsurvives (hgrows.mp h))]
    refine .inr ⟨rfl, fun e he => ?_⟩
    cases he with
    | count hreaches h => exact hcount ⟨hreaches, h⟩
    | ttfb _ h _ => exact hsurvives h
    | cost _ h _ _ => exact hsurvives h

/-- A turn raises exactly where the source does. -/
theorem raisesAs_rangedScanModel (hsignals : WellFormedSignals inp.signals) (st : ScanState)
    (model : CatalogModel) (e : EngineError) :
    RaisesAs id (rangedScanModel inp (normalizeWeights inp.policy) st model) e
      ↔ RangeRaises inp model e := by
  rcases rangedScanModel_cases hsignals st with ⟨e', hturn, hraises⟩ | ⟨hturn, hclean⟩
  · rw [hturn, raisesAs_error]
    exact ⟨fun heq => heq ▸ hraises, hraises.unique⟩
  · rw [hturn, raisesAs_ok]
    exact iff_of_false id (hclean e)

end Turn

/-! ## The result -/

/-- What the engine raises, in its order: the exception of the first model
that has one, its own where nothing survives, that of the expiry. -/
def DecisionRaises (inp : ScanInput) (models : List CatalogModel) (ttlSeconds : ℕ)
    (e : EngineError) : Prop :=
  FirstRaises (RangeRaises inp) models e
  ∨ (∀ model ∈ models, ∀ k, ¬RangeRaises inp model k)
    ∧ ((survivors inp models = [] ∧ e = .checked (.raised noSurvivor))
      ∨ (survivors inp models ≠ [] ∧ TooLateForDatetime inp.rt ttlSeconds
        ∧ e = .overflowError))

section Decision

variable {request : RoutingDecisionRequest} {catalog : CatalogSnapshot} {policy : RoutingPolicy}
  {signals : SignalMap} {signalFreshnessSeconds ttlSeconds : ℕ} {rt : Runtime}

/-- With numbers in range the loop is the plain scan. -/
theorem rangedScan_eq {inp : ScanInput} (hsignals : WellFormedSignals inp.signals)
    {models : List CatalogModel} (hclean : ∀ model ∈ models, ∀ e, ¬RangeRaises inp model e) :
    models.foldlM (rangedScanModel inp (normalizeWeights inp.policy)) {}
      = .ok (scan inp models) := by
  refine foldlM_eq models ?_ _
  intro st model hmem
  rcases rangedScanModel_cases hsignals st with ⟨e, -, hraises⟩ | ⟨hturn, -⟩
  · exact absurd hraises (hclean model hmem e)
  · exact hturn

/-- Behind a loop without an exception: the plain decision, unless it expires
too late. -/
theorem rangedRoutingDecision_of_clean (hsignals : WellFormedSignals signals)
    (hclock : rt.Monotonic)
    (hclean : ∀ model ∈ catalog.models, ∀ e, ¬RangeRaises
      (scanInput request catalog policy signals signalFreshnessSeconds rt) model e) :
    rangedRoutingDecision request catalog policy signals signalFreshnessSeconds ttlSeconds rt
      = match calculateRoutingDecision request catalog policy signals signalFreshnessSeconds
          ttlSeconds rt with
        | .error e => .error (.checked (.raised e))
        | .ok response =>
          if TooLateForDatetime rt ttlSeconds then .error .overflowError else .ok response := by
  have hloop := @rangedScan_eq
    (scanInput request catalog policy signals signalFreshnessSeconds rt) hsignals _ hclean
  change catalog.models.foldlM (rangedScanModel _ (normalizeWeights policy)) {} = _ at hloop
  unfold rangedRoutingDecision
  dsimp only
  rw [checkedNormalizeWeights_eq, mapError_ok, ok_bind, hloop, ok_bind,
    checkedDecisionFrom_eq hclock]
  cases calculateRoutingDecision request catalog policy signals signalFreshnessSeconds ttlSeconds
    rt with
  | error e => rfl
  | ok response => rfl

/-- **What the engine raises**, exactly. -/
theorem raisesAs_rangedRoutingDecision (hsignals : WellFormedSignals signals)
    (hclock : rt.Monotonic) (e : EngineError) :
    rangedRoutingDecision request catalog policy signals signalFreshnessSeconds ttlSeconds rt
        = .error e
      ↔ DecisionRaises (scanInput request catalog policy signals signalFreshnessSeconds rt)
          catalog.models ttlSeconds e := by
  set inp := scanInput request catalog policy signals signalFreshnessSeconds rt
  have hloop : ∀ k, RaisesAs id
      (catalog.models.foldlM (rangedScanModel inp (normalizeWeights policy)) {}) k
      ↔ FirstRaises (RangeRaises inp) catalog.models k :=
    fun k => raisesAs_foldlM
      (fun st model k => raisesAs_rangedScanModel hsignals st model k) _ _
  by_cases hclean : ∀ model ∈ catalog.models, ∀ k, ¬RangeRaises inp model k
  · have hfirst : ¬FirstRaises (RangeRaises inp) catalog.models e :=
      (firstRaises_none _ _).mpr hclean e
    rw [rangedRoutingDecision_of_clean hsignals hclock hclean]
    unfold DecisionRaises
    rw [or_iff_right hfirst, and_iff_right hclean]
    obtain ⟨hnone, herror⟩ | ⟨hsome, response, hok⟩ := calculateRoutingDecision_outcome request
      catalog policy signals signalFreshnessSeconds ttlSeconds rt
    · rw [herror]
      constructor
      · intro heq
        exact .inl ⟨hnone, (Except.error.inj heq).symm⟩
      · rintro (⟨-, rfl⟩ | ⟨hsome, -⟩)
        · rfl
        · exact absurd hnone hsome
    · rw [hok]
      dsimp only
      split
      next hlate =>
        constructor
        · intro heq
          exact .inr ⟨hsome, hlate, (Except.error.inj heq).symm⟩
        · rintro (⟨hnone, -⟩ | ⟨-, -, rfl⟩)
          · exact absurd hnone hsome
          · rfl
      next hlate =>
        constructor
        · intro heq
          cases heq
        · rintro (⟨hnone, -⟩ | ⟨-, hlate', -⟩)
          · exact absurd hnone hsome
          · exact absurd hlate' hlate
  · -- Some turn raises, and the first that does ends the loop.
    have hsome : ∃ k, FirstRaises (RangeRaises inp) catalog.models k := by
      by_contra hnone
      exact hclean ((firstRaises_none _ _).mp (not_exists.mp hnone))
    obtain ⟨k, hk⟩ := hsome
    obtain ⟨err, herror, hid⟩ := (hloop k).mpr hk
    obtain rfl : err = k := hid
    have hresult : rangedRoutingDecision request catalog policy signals signalFreshnessSeconds
        ttlSeconds rt = .error err := by
      unfold rangedRoutingDecision
      dsimp only
      rw [checkedNormalizeWeights_eq, mapError_ok, ok_bind, herror]
      rfl
    unfold DecisionRaises
    rw [hresult, or_iff_left (fun h => hclean h.1), ← hloop e, herror, raisesAs_error]
    exact ⟨Except.error.inj, congrArg Except.error⟩

end Decision

/-- **Scoring never leaves its schema.** With every division, every record
and the size of every number checked, the engine raises its own no-survivor
error, or an exception for a number too large for its type exactly where
there is one; what it returns is the plain decision, inside the schema. -/
theorem scoring_stays_in_schema (request : RoutingDecisionRequest) (catalog : CatalogSnapshot)
    (policy : RoutingPolicy) (signals : SignalMap) (signalFreshnessSeconds ttlSeconds : ℕ)
    (rt : Runtime) (hsignals : WellFormedSignals signals) (hclock : rt.Monotonic) :
    let inp := scanInput request catalog policy signals signalFreshnessSeconds rt
    let result := rangedRoutingDecision request catalog policy signals signalFreshnessSeconds
      ttlSeconds rt
    (∀ e, result = .error e ↔ DecisionRaises inp catalog.models ttlSeconds e)
    ∧ (∀ model ∈ catalog.models, StaysInSchema inp model)
    ∧ (∀ response, result = .ok response →
        calculateRoutingDecision request catalog policy signals signalFreshnessSeconds
            ttlSeconds rt = .ok response
        ∧ (∀ c ∈ response.candidates, WithinBounds decisionCandidateFields c
            ∧ WithinBounds scoreBreakdownFields c.scoreBreakdown)
        ∧ WithinBounds decisionObservabilityFields response.observability) := by
  intro inp result
  have hraises := fun e => @raisesAs_rangedRoutingDecision request catalog policy signals
    signalFreshnessSeconds ttlSeconds rt hsignals hclock e
  refine ⟨hraises, fun model _ => stays_in_schema hsignals model, ?_⟩
  intro response hresult
  have hok : calculateRoutingDecision request catalog policy signals signalFreshnessSeconds
      ttlSeconds rt = .ok response := by
    have hclean : ∀ model ∈ catalog.models, ∀ e, ¬RangeRaises inp model e := by
      rw [← firstRaises_none]
      intro e hfirst
      have herror : result = .error e := (hraises e).mpr (.inl hfirst)
      rw [herror] at hresult
      cases hresult
    have heq := @rangedRoutingDecision_of_clean request catalog policy signals
      signalFreshnessSeconds ttlSeconds rt hsignals hclock hclean
    change result = _ at heq
    rw [heq] at hresult
    split at hresult
    · cases hresult
    · split at hresult
      · cases hresult
      · rwa [← Except.ok.inj hresult]
  exact ⟨hok, returned_within hsignals hclock hok⟩

/-! ### Baselines below zero, and a far expiry -/

/-- A catalog that asks for a zero and a negative baseline. -/
def baselessCatalog : CatalogSnapshot :=
  { slowCatalog with normalizationBaseline := [("qps", 0), ("latency_ms", -1)] }

/-- The slow model's numbers are in range. -/
theorem baseless_in_range (e : EngineError) :
    ¬RangeRaises (scanInput hintedRequest baselessCatalog balancedPolicy (slowSignals 0) 90
      stillRuntime) slowModel e := by
  intro hraises
  cases hraises with
  | count _ h => exact absurd h (by decide +kernel)
  | ttfb _ _ h => exact absurd h (by decide +kernel)
  | cost _ _ _ h => exact absurd h (by decide +kernel)

/-- No throughput and no usable baseline: the decision is returned all the
same. -/
theorem scoring_stays_in_schema_baseless :
    (∃ response, rangedRoutingDecision hintedRequest baselessCatalog balancedPolicy
        (slowSignals 0) 90 300 stillRuntime = .ok response
      ∧ WithinBounds decisionObservabilityFields response.observability)
    ∧ StaysInSchema (scanInput hintedRequest baselessCatalog balancedPolicy (slowSignals 0) 90
        stillRuntime) slowModel := by
  obtain ⟨hraises, hmodels, hreturned⟩ := scoring_stays_in_schema hintedRequest baselessCatalog
    balancedPolicy (slowSignals 0) 90 300 stillRuntime (slowSignals_wellFormed (le_refl _))
    stillRuntime_monotonic
  have hsome : (survivors (scanInput hintedRequest baselessCatalog balancedPolicy (slowSignals 0)
      90 stillRuntime) baselessCatalog.models).length ≠ 0 := by decide +kernel
  refine ⟨?_, hmodels slowModel List.mem_cons_self⟩
  cases hresult : rangedRoutingDecision hintedRequest baselessCatalog balancedPolicy
      (slowSignals 0) 90 300 stillRuntime with
  | ok response => exact ⟨response, rfl, (hreturned response hresult).2.2⟩
  | error e =>
    rcases (hraises e).mp hresult with hfirst | ⟨-, ⟨hnone, -⟩ | ⟨-, hlate, -⟩⟩
    · refine absurd hfirst ((firstRaises_none _ _).mpr ?_ e)
      intro model hmem
      rw [List.mem_singleton.mp hmem]
      exact baseless_in_range
    · exact absurd (congrArg List.length hnone) hsome
    · exact absurd hlate (by decide +kernel)

/-- A time to live of three hundred billion seconds is a number the settings
take, and no datetime is that far off. -/
theorem far_expiry_raises :
    ¬ ∀ (request : RoutingDecisionRequest) (catalog : CatalogSnapshot) (policy : RoutingPolicy)
        (signals : SignalMap) (signalFreshnessSeconds ttlSeconds : ℕ) (rt : Runtime),
      WellFormedSignals signals → rt.Monotonic → 5 ≤ signalFreshnessSeconds →
      ∀ e, rangedRoutingDecision request catalog policy signals signalFreshnessSeconds ttlSeconds
          rt = .error e →
        e = .checked (.raised noSurvivor) := by
  intro hall
  have hresult : rangedRoutingDecision hintedRequest baselessCatalog balancedPolicy
      (slowSignals 0) 90 300000000000 stillRuntime = .error .overflowError := by
    refine (raisesAs_rangedRoutingDecision (slowSignals_wellFormed (le_refl _))
      stillRuntime_monotonic _).mpr (.inr ⟨?_, .inr ⟨?_, by decide +kernel, rfl⟩⟩)
    · intro model hmem
      rw [List.mem_singleton.mp hmem]
      exact baseless_in_range
    · rw [← List.length_pos_iff]
      decide +kernel
  have honly := hall _ _ _ _ _ _ _ (slowSignals_wellFormed (le_refl _)) stillRuntime_monotonic
    (by norm_num) _ hresult
  cases honly

end ControlPlane
