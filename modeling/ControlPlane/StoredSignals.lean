import ControlPlane.CatalogDocument
import ControlPlane.CheckedEngine

/-!
# The engine on stored signals

A signal store holds JSON, and `calculate_routing_decision` converts an entry
where it first reads it: after the provider and capability filters, before
the capacity filter. `Signal` is what a good entry converts to. A bad one
raises: an entry that is no dictionary, a probe time that is neither empty
nor a text, a number that `int` or `float` does not take; or, once the model
is a candidate, a record that refuses what was computed from it.

This file runs the checked engine on stored entries (`storedRoutingDecision`)
and says, by class, what it raises (`raisesAs_storedRoutingDecision`). On
entries that convert it is the engine of `PricingEngine`
(`storedRoutingDecision_eq`).

Mirroring notes:
- `int` and `float` of a text, and of `NaN` or an infinity, are parameters
  (`NumberReader`); a `float` is a rational.
- A degraded reason that is no text counts as none until the candidate's
  record refuses it.
- A number too large for its type raises `OverflowError` or decimal's
  `InvalidOperation`, neither of them a `ValueError`; they are in `Ranges`.
-/

namespace ControlPlane

open Lib

/-! ## Classes -/

/-- `isinstance(exc, ValueError)`. -/
def ServiceError.isValueError : ServiceError → Bool
  | .valueError _ => true
  | _ => false

/-- A failed validation is pydantic's `ValidationError`. -/
def engineError (describe : PyError → String) : Raised ServiceError → ServiceError
  | .zeroDivision => .unavailable
  | .outOfBounds schema _ => PyError.toServiceError describe (.validationError schema)
  | .raised err => err

/-- The class of an error is kept. -/
theorem PyError.isValueError_toServiceError (describe : PyError → String) (err : PyError) :
    (err.toServiceError describe).isValueError = err.isValueError := by
  cases err <;> rfl

/-! ## Converting an entry -/

/-- `int` and `float`, where they depend on a text or on a number that is not
finite. -/
structure NumberReader where
  intOfText : String → Option ℤ
  floatOfText : String → Option ℚ
  intOfNonFinite : NonFinite → Except PyError ℤ
  floatOfNonFinite : NonFinite → Except PyError ℚ

/-- `int(value)`. -/
def NumberReader.int (numbers : NumberReader) : Json → Except PyError ℤ
  | .bool b => .ok (if b then 1 else 0)
  | .number q => .ok (trunc.toInt q)
  | .nonFinite x => numbers.intOfNonFinite x
  | .string s =>
    match numbers.intOfText s with
    | some z => .ok z
    | none => .error .valueError
  | .null => .error .typeError
  | .array _ => .error .typeError
  | .object _ => .error .typeError

/-- `float(value)`. -/
def NumberReader.float (numbers : NumberReader) : Json → Except PyError ℚ
  | .bool b => .ok (if b then 1 else 0)
  | .number q => .ok q
  | .nonFinite x => numbers.floatOfNonFinite x
  | .string s =>
    match numbers.floatOfText s with
    | some q => .ok q
    | none => .error .valueError
  | .null => .error .typeError
  | .array _ => .error .typeError
  | .object _ => .error .typeError

/-- What the loop has of an entry once it is converted. -/
structure StoredSignal where
  signal : Signal
  reasonIsText : Bool

/-- The probe time: a truthy value that is no text has no `tzinfo`. -/
def readLastProbeAt : Json → Except PyError (Option String)
  | .string s => .ok (some s)
  | json => if json.truthy then .error .attributeError else .ok none

/-- `convert(signal.get(key, default))`, for a default that is a number. -/
def readNumber {α : Type} (convert : Json → Except PyError α) (entry : JsonDict) (key : String) :
    Except PyError (Option α) :=
  match entry.get? key with
  | some value => (convert value).map some
  | none => .ok none

/-- The reason, and whether it is a text or none. -/
def readDegradedReason : Json → Option String × Bool
  | .null => (none, true)
  | .string s => (some s, true)
  | _ => (none, false)

/-- The conversions, in the order of the loop. -/
def readSignal (numbers : NumberReader) (stored : Json) : Except PyError StoredSignal := do
  let entry ← stored.dict
  let lastProbeAt ← readLastProbeAt (entry.get "last_probe_at" .null)
  let (degradedReason, reasonIsText) := readDegradedReason (entry.get "degraded_reason" .null)
  let ttfbP50Ms ← readNumber numbers.int entry "ttfb_p50_ms"
  let throughputHintQps ← readNumber numbers.float entry "throughput_hint_qps"
  let successRate ← readNumber numbers.float entry "success_rate"
  return { signal :=
             { ttfbP50Ms := ttfbP50Ms.map fun z : ℤ => (z : ℚ)
               throughputHintQps
               successRate
               lastProbeAt
               degradedReason }
           reasonIsText }

/-- A store's entries and how they are read. -/
structure StoredSignals where
  numbers : NumberReader
  describe : PyError → String
  entry : String → Option Json

/-- `signals.get(model.model_id, {})`, converted. -/
def StoredSignals.read (signals : StoredSignals) (model : CatalogModel) :
    Except PyError StoredSignal :=
  readSignal signals.numbers ((signals.entry model.modelId).getD (.object []))

/-! ## The engine -/

/-- Neither the provider filters nor the capability filter drop the model. -/
def ReadsSignal (request : RoutingDecisionRequest) (model : CatalogModel) : Prop :=
  outsideAllowlist request model = false ∧ insideDenylist request model = false
    ∧ matchesCapabilities model request = none

instance (request : RoutingDecisionRequest) (model : CatalogModel) :
    Decidable (ReadsSignal request model) := by
  unfold ReadsSignal
  infer_instance

/-- The loop's inputs with one signal for every model. -/
def ScanInput.withSignal (inp : ScanInput) (signal : Signal) : ScanInput :=
  { inp with signals := fun _ => some signal }

/-- A turn of the loop, which converts the entry on the way. -/
def storedScanModel (signals : StoredSignals) (inp : ScanInput) (weights : Weights)
    (st : ScanState) (model : CatalogModel) : Checked ServiceError ScanState :=
  if ReadsSignal inp.request model then do
    let stored ← (signals.read model).mapError fun err =>
      .raised (err.toServiceError signals.describe)
    let next ← checkedScanModel (inp.withSignal stored.signal) weights st model
    -- The model has become a candidate, with a reason its record does not take.
    if stored.reasonIsText = false ∧ st.candidates.length < next.candidates.length then
      .error (.outOfBounds "DecisionCandidate" ["degraded_reason"])
    else return next
  else checkedScanModel inp weights st model

/-- `calculate_routing_decision` over stored entries. -/
def storedRoutingDecision (request : RoutingDecisionRequest) (catalog : CatalogSnapshot)
    (policy : RoutingPolicy) (signals : StoredSignals) (signalFreshnessSeconds ttlSeconds : ℕ)
    (rt : Runtime) : Checked ServiceError RoutingDecisionResponse := do
  let inp := scanInput request catalog policy (fun _ => none) signalFreshnessSeconds rt
  let weights ← checkedNormalizeWeights policy
  let st ← catalog.models.foldlM (storedScanModel signals inp weights) {}
  checkedDecisionFrom catalog request policy signalFreshnessSeconds ttlSeconds rt st

/-! ## One turn -/

section Turn

variable {inp : ScanInput} {model : CatalogModel}

/-- A model dropped before its signal is read does not survive, whatever the
signal. -/
theorem Survives.readsSignal (h : Survives inp model) : ReadsSignal inp.request model := by
  have hprovider := mt (provider_violated_iff inp model).mpr (h .providerFiltered)
  have hcapability := mt (capability_violated_iff inp model).mpr (h .capabilityFiltered)
  rw [not_or, Bool.not_eq_true, Bool.not_eq_true] at hprovider
  refine ⟨hprovider.1, hprovider.2, ?_⟩
  rw [Option.eq_none_iff_forall_ne_some]
  exact fun gap hgap => hcapability ⟨gap, hgap⟩

/-- A turn appends the survivor's candidate, or nothing. -/
theorem candidates_scanModel (inp : ScanInput) (model : CatalogModel) (st : ScanState) :
    (Survives inp model ∧ (scanModel inp st model).candidates
        = st.candidates ++ [candidateAt inp (st.candidates.length + 1) model])
    ∨ ¬Survives inp model ∧ (scanModel inp st model).candidates = st.candidates := by
  rcases scanModel_cases inp st model with
    ⟨rejection, -, -, hfirst, -, hcandidates, -⟩ | ⟨hsurvives, -, hcandidates, -⟩
  · exact .inr ⟨fun hsurvives => hsurvives _ hfirst.1, hcandidates⟩
  · exact .inl ⟨hsurvives, hcandidates⟩

/-- A checked turn is the plain one, or builds a candidate. -/
theorem checkedScanModel_cases (inp : ScanInput) (model : CatalogModel) (weights : Weights)
    (st : ScanState) :
    (¬Survives inp model ∧ checkedScanModel inp weights st model = .ok (scanModel inp st model))
    ∨ Survives inp model ∧ checkedScanModel inp weights st model
        = checkedCandidate inp weights (st.candidates.length + 1) model
            (totalCost inp.rt.arith inp.request (inp.signal model) model)
          >>= fun candidate =>
            .ok { st.noteAge inp model with candidates := st.candidates ++ [candidate] } := by
  have hsurvives : Survives inp model ↔ (scanModel inp st model).candidates ≠ st.candidates := by
    rcases candidates_scanModel inp model st with ⟨hyes, happ⟩ | ⟨hno, hsame⟩
    · exact iff_of_true hyes (by rw [happ]; simp)
    · exact iff_of_false hno (not_not.mpr hsame)
  rw [hsurvives]
  unfold checkedScanModel scanModel
  dsimp only
  -- The three filters before the cost, the same in both.
  split
  · exact .inl ⟨not_not.mpr rfl, rfl⟩
  split
  · exact .inl ⟨not_not.mpr rfl, rfl⟩
  cases matchesCapabilities model inp.request with
  | some capabilityGap => exact .inl ⟨not_not.mpr rfl, rfl⟩
  | none =>
    dsimp only
    split
    · exact .inl ⟨not_not.mpr rfl, rfl⟩
    rw [checkedTotalCost_eq, ok_bind]
    split
    · exact .inl ⟨not_not.mpr rfl, rfl⟩
    split
    · exact .inl ⟨not_not.mpr rfl, rfl⟩
    split
    · exact .inl ⟨not_not.mpr rfl, rfl⟩
    refine .inr ⟨?_, rfl⟩
    simp

/-- A model that is dropped adds nothing. -/
theorem checkedScanModel_dropped {inp : ScanInput} {model : CatalogModel}
    (hnot : ¬Survives inp model) (weights : Weights) (st : ScanState) :
    ∃ next, checkedScanModel inp weights st model = .ok next
      ∧ next.candidates = st.candidates := by
  obtain ⟨-, hturn⟩ | ⟨hsurvives, -⟩ := checkedScanModel_cases inp model weights st
  · obtain ⟨hsurvives, -⟩ | ⟨-, hsame⟩ := candidates_scanModel inp model st
    · exact absurd hsurvives hnot
    · exact ⟨_, hturn, hsame⟩
  · exact absurd hsurvives hnot

/-- A survivor whose candidate is publishable adds it. -/
theorem checkedScanModel_survivor {inp : ScanInput} {model : CatalogModel}
    (hsurvives : Survives inp model) (hpublishable : Publishable inp model) (st : ScanState) :
    ∃ next, checkedScanModel inp (normalizeWeights inp.policy) st model = .ok next
      ∧ next.candidates
        = st.candidates ++ [candidateAt inp (st.candidates.length + 1) model] := by
  obtain ⟨hnot, -⟩ | ⟨-, hturn⟩ :=
    checkedScanModel_cases inp model (normalizeWeights inp.policy) st
  · exact absurd hsurvives hnot
  · rw [hturn, hpublishable.checkedCandidate_eq (Nat.le_add_left 1 st.candidates.length), ok_bind]
    exact ⟨_, rfl, rfl⟩

end Turn

/-! ## What a turn raises -/

/-- A model the filters drop. Its entry is not read, or converts to a signal
it does not survive with. -/
def FilteredOut (signals : StoredSignals) (inp : ScanInput) (model : CatalogModel) : Prop :=
  ReadsSignal inp.request model →
    ∃ stored, signals.read model = .ok stored ∧ ¬Survives (inp.withSignal stored.signal) model

/-- What a model's turn raises, by whether it is a `ValueError`. -/
inductive SignalRaises (signals : StoredSignals) (inp : ScanInput) (model : CatalogModel) :
    Bool → Prop
  | unreadable {err : PyError} (hreads : ReadsSignal inp.request model)
      (hread : signals.read model = .error err) :
      SignalRaises signals inp model err.isValueError
  | refused {stored : StoredSignal} (hread : signals.read model = .ok stored)
      (hsurvives : Survives (inp.withSignal stored.signal) model)
      (hrefused : stored.reasonIsText = false
        ∨ ¬Publishable (inp.withSignal stored.signal) model) :
      SignalRaises signals inp model true

/-- The class of what leaves the engine. -/
def StoredSignals.raisesValueError (signals : StoredSignals) (err : Raised ServiceError) : Bool :=
  (engineError signals.describe err).isValueError

section Turn

variable {signals : StoredSignals} {inp : ScanInput} {model : CatalogModel}

/-- A model that is filtered out raises nothing. -/
theorem FilteredOut.not_raises (h : FilteredOut signals inp model) (isValueError : Bool) :
    ¬SignalRaises signals inp model isValueError := by
  intro hraises
  cases hraises with
  | unreadable hreads hread =>
    obtain ⟨stored, hok, -⟩ := h hreads
    rw [hread] at hok
    cases hok
  | refused hread hsurvives hrefused =>
    obtain ⟨stored, hok, hnot⟩ := h hsurvives.readsSignal
    rw [hread] at hok
    cases hok
    exact hnot hsurvives

/-- A turn whose entry has been read. -/
theorem storedScanModel_of_read (hreads : ReadsSignal inp.request model) {stored : StoredSignal}
    (hread : signals.read model = .ok stored) (weights : Weights) (st : ScanState) :
    storedScanModel signals inp weights st model
      = checkedScanModel (inp.withSignal stored.signal) weights st model >>= fun next =>
          if stored.reasonIsText = false ∧ st.candidates.length < next.candidates.length then
            .error (.outOfBounds "DecisionCandidate" ["degraded_reason"])
          else .ok next := by
  unfold storedScanModel
  rw [if_pos hreads, hread]
  rfl

/-- A model that is filtered out adds nothing. -/
theorem FilteredOut.storedScanModel (h : FilteredOut signals inp model) (st : ScanState) :
    ∃ next, storedScanModel signals inp (normalizeWeights inp.policy) st model = .ok next
      ∧ next.candidates = st.candidates := by
  by_cases hreads : ReadsSignal inp.request model
  case pos =>
    obtain ⟨stored, hread, hnot⟩ := h hreads
    obtain ⟨next, hturn, hsame⟩ := checkedScanModel_dropped hnot (normalizeWeights inp.policy) st
    refine ⟨next, ?_, hsame⟩
    rw [storedScanModel_of_read hreads hread, hturn, ok_bind, if_neg (by rw [hsame]; simp)]
  case neg =>
    unfold ControlPlane.storedScanModel
    rw [if_neg hreads]
    exact checkedScanModel_dropped (fun hsurvives => hreads hsurvives.readsSignal) _ st

section Survivor

variable {stored : StoredSignal} (hread : signals.read model = .ok stored)
  (hsurvives : Survives (inp.withSignal stored.signal) model)
include hread hsurvives

/-- A candidate that cannot be published is refused. -/
theorem storedScanModel_refused
    (hrefused : stored.reasonIsText = false ∨ ¬Publishable (inp.withSignal stored.signal) model)
    (st : ScanState) :
    ∃ schema fields, storedScanModel signals inp (normalizeWeights inp.policy) st model
      = .error (.outOfBounds schema fields) := by
  have hreads : ReadsSignal inp.request model := hsurvives.readsSignal
  rw [storedScanModel_of_read hreads hread]
  by_cases hpublishable : Publishable (inp.withSignal stored.signal) model
  case pos =>
    have hreason := hrefused.resolve_right (not_not.mpr hpublishable)
    obtain ⟨next, hturn, hcandidates⟩ := checkedScanModel_survivor hsurvives hpublishable st
    change checkedScanModel _ (normalizeWeights inp.policy) _ _ = _ at hturn
    rw [hturn, ok_bind]
    exact ⟨_, _, if_pos ⟨hreason, by rw [hcandidates]; simp⟩⟩
  case neg =>
    obtain ⟨schema, fields, hcandidate⟩ :=
      checkedCandidate_refused hpublishable (Nat.le_add_left 1 st.candidates.length)
    obtain ⟨hnot, -⟩ | ⟨-, hturn⟩ := checkedScanModel_cases
      (inp.withSignal stored.signal) model (normalizeWeights inp.policy) st
    · exact absurd hsurvives hnot
    · refine ⟨schema, fields, ?_⟩
      rw [hturn]
      exact congrArg (fun x => (x >>= _) >>= _) hcandidate

/-- One that can is added. -/
theorem storedScanModel_published (hreason : stored.reasonIsText = true)
    (hpublishable : Publishable (inp.withSignal stored.signal) model) (st : ScanState) :
    ∃ next, storedScanModel signals inp (normalizeWeights inp.policy) st model = .ok next
      ∧ next.candidates ≠ [] := by
  obtain ⟨next, hturn, hcandidates⟩ := checkedScanModel_survivor hsurvives hpublishable st
  change checkedScanModel _ (normalizeWeights inp.policy) _ _ = _ at hturn
  have hreads : ReadsSignal inp.request model := hsurvives.readsSignal
  refine ⟨next, ?_, by rw [hcandidates]; simp⟩
  rw [storedScanModel_of_read hreads hread, hturn, ok_bind, if_neg (by simp [hreason])]

end Survivor

/-- **One turn**: it raises as `SignalRaises` says, and otherwise leaves the
candidates alone exactly where the filters drop the model. -/
theorem storedScanModel_cases (signals : StoredSignals) (inp : ScanInput) (model : CatalogModel)
    (st : ScanState) :
    (∃ err, storedScanModel signals inp (normalizeWeights inp.policy) st model = .error err
      ∧ SignalRaises signals inp model (signals.raisesValueError err))
    ∨ ∃ next, storedScanModel signals inp (normalizeWeights inp.policy) st model = .ok next
      ∧ (∀ isValueError, ¬SignalRaises signals inp model isValueError)
      ∧ (next.candidates = [] ↔ st.candidates = [] ∧ FilteredOut signals inp model) := by
  by_cases hfiltered : FilteredOut signals inp model
  case pos =>
    obtain ⟨next, hturn, hsame⟩ := hfiltered.storedScanModel st
    refine .inr ⟨next, hturn, hfiltered.not_raises, ?_⟩
    rw [hsame]
    exact (and_iff_left hfiltered).symm
  case neg =>
  have hreads : ReadsSignal inp.request model := by
    by_contra hnot
    exact hfiltered fun h => absurd h hnot
  cases hread : signals.read model with
  | error err =>
    refine .inl ⟨.raised (err.toServiceError signals.describe), ?_, ?_⟩
    · unfold storedScanModel
      rw [if_pos hreads, hread]
      rfl
    · unfold StoredSignals.raisesValueError engineError
      rw [PyError.isValueError_toServiceError]
      exact .unreadable hreads hread
  | ok stored =>
    have hsurvives : Survives (inp.withSignal stored.signal) model := by
      by_contra hnot
      exact hfiltered fun _ => ⟨stored, hread, hnot⟩
    by_cases hrefused : stored.reasonIsText = false
        ∨ ¬Publishable (inp.withSignal stored.signal) model
    case pos =>
      obtain ⟨schema, fields, hturn⟩ := storedScanModel_refused hread hsurvives hrefused st
      exact .inl ⟨.outOfBounds schema fields, hturn, .refused hread hsurvives hrefused⟩
    case neg =>
      obtain ⟨hreason, hpublishable⟩ := not_or.mp hrefused
      obtain ⟨next, hturn, hne⟩ := storedScanModel_published hread hsurvives
        (Bool.not_eq_false _ ▸ hreason) (not_not.mp hpublishable) st
      refine .inr ⟨next, hturn, ?_, iff_of_false hne fun h => hfiltered h.2⟩
      intro isValueError hraises
      cases hraises with
      | unreadable _ herror =>
        rw [hread] at herror
        cases herror
      | refused hok _ hrefused' =>
        obtain rfl := Except.ok.inj (hread.symm.trans hok)
        exact hrefused hrefused'

/-- A turn raises of one kind. -/
theorem SignalRaises.unique {first second : Bool} (h : SignalRaises signals inp model first)
    (h' : SignalRaises signals inp model second) : first = second := by
  cases h with
  | unreadable hreads hread =>
    cases h' with
    | unreadable _ hread' =>
      rw [hread] at hread'
      cases hread'
      rfl
    | refused hok _ _ =>
      rw [hread] at hok
      cases hok
  | refused hok _ _ =>
    cases h' with
    | unreadable _ hread =>
      rw [hread] at hok
      cases hok
    | refused _ _ _ => rfl

/-- **What a turn raises, by its entry.** -/
theorem raisesAs_storedScanModel (st : ScanState) (model : CatalogModel) (isValueError : Bool) :
    RaisesAs signals.raisesValueError
        (storedScanModel signals inp (normalizeWeights inp.policy) st model) isValueError
      ↔ SignalRaises signals inp model isValueError := by
  obtain ⟨err, hturn, hraises⟩ | ⟨next, hturn, hclean, -⟩ :=
    storedScanModel_cases signals inp model st
  · rw [hturn, raisesAs_error]
    constructor
    · rintro rfl
      exact hraises
    · exact hraises.unique
  · rw [hturn, raisesAs_ok]
    exact iff_of_false id (hclean isValueError)

end Turn

/-! ## The run -/

/-- Without an exception the loop ends with no candidate exactly where the
filters drop every model. -/
theorem candidates_foldlM {signals : StoredSignals} {inp : ScanInput} {models : List CatalogModel}
    {st final : ScanState}
    (h : models.foldlM (storedScanModel signals inp (normalizeWeights inp.policy)) st
      = .ok final) :
    final.candidates = [] ↔ st.candidates = []
      ∧ ∀ model ∈ models, FilteredOut signals inp model := by
  induction models generalizing st with
  | nil =>
    rw [List.foldlM_nil] at h
    cases h
    simp
  | cons model models ih =>
    rw [List.foldlM_cons] at h
    obtain ⟨next, hturn, hrest⟩ := bind_eq_ok.mp h
    obtain ⟨err, herror, -⟩ | ⟨next', hok, -, hcandidates⟩ :=
      storedScanModel_cases signals inp model st
    · rw [hturn] at herror
      cases herror
    · rw [hturn] at hok
      cases hok
      rw [ih hrest, hcandidates, List.forall_mem_cons, and_assoc]

section Decision

variable {kind : Raised ServiceError → Bool} {rt : Runtime} (hclock : rt.Monotonic)
include hclock

/-- Behind the loop nothing is raised but the engine's own error. -/
theorem checkedDecisionFrom_cases (catalog : CatalogSnapshot) (request : RoutingDecisionRequest)
    (policy : RoutingPolicy) (signalFreshnessSeconds ttlSeconds : ℕ) (st : ScanState) :
    (st.candidates = [] ∧ checkedDecisionFrom catalog request policy signalFreshnessSeconds
        ttlSeconds rt st = .error (.raised noSurvivor))
    ∨ st.candidates ≠ [] ∧ ∃ response, checkedDecisionFrom catalog request policy
        signalFreshnessSeconds ttlSeconds rt st = .ok response := by
  have hobservability := validate_eq (ε := ServiceError) (observabilityOf_within hclock catalog
    policy signalFreshnessSeconds st (rankCandidates policy.maxCandidates st.candidates))
    "DecisionObservability"
  unfold observabilityOf at hobservability
  have hnil := rankCandidates_eq_nil policy st.candidates
  unfold checkedDecisionFrom
  dsimp only
  rw [checkedFallbackSafetyScore_eq, ok_bind, hobservability, ok_bind]
  cases hcandidates : rankCandidates policy.maxCandidates st.candidates with
  | nil => exact .inl ⟨hnil.mp hcandidates, rfl⟩
  | cons top rest =>
    rw [hcandidates] at hnil
    refine .inr ⟨fun hempty => List.cons_ne_nil _ _ (hnil.mpr hempty), _, validate_eq ?_ _⟩
    simp only [routingDecisionResponseFields, withinBounds_cons, withinBounds_nil, and_true,
      BoundedField.within_atLeast]
    exact_mod_cast Nat.le_add_left 1 rest.length

/-- **What the engine raises**: what the first model raises whose turn
raises, or its own error where the filters drop every model. -/
theorem raisesAs_storedRoutingDecision (request : RoutingDecisionRequest)
    (catalog : CatalogSnapshot) (policy : RoutingPolicy) (signals : StoredSignals)
    (signalFreshnessSeconds ttlSeconds : ℕ) (isValueError : Bool) :
    let inp := scanInput request catalog policy (fun _ => none) signalFreshnessSeconds rt
    RaisesAs signals.raisesValueError (storedRoutingDecision request catalog policy signals
        signalFreshnessSeconds ttlSeconds rt) isValueError
      ↔ FirstRaises (SignalRaises signals inp) catalog.models isValueError
        ∨ isValueError = true ∧ ∀ model ∈ catalog.models, FilteredOut signals inp model := by
  intro inp
  have hloop : ∀ isValueError, RaisesAs signals.raisesValueError
      (catalog.models.foldlM (storedScanModel signals inp (normalizeWeights policy)) {})
      isValueError ↔ FirstRaises (SignalRaises signals inp) catalog.models isValueError :=
    fun _ => raisesAs_foldlM raisesAs_storedScanModel catalog.models {}
  have hdecision := checkedDecisionFrom_cases hclock catalog request policy
    signalFreshnessSeconds ttlSeconds
  unfold storedRoutingDecision
  dsimp only
  rw [checkedNormalizeWeights_eq, ok_bind, raisesAs_bind, hloop]
  refine or_congr_right ⟨?_, ?_⟩
  · rintro ⟨st, hst, hraises⟩
    obtain ⟨hnone, herror⟩ | ⟨-, response, hok⟩ := hdecision st
    · rw [herror, raisesAs_error] at hraises
      exact ⟨hraises.symm, ((candidates_foldlM hst).mp hnone).2⟩
    · rw [hok, raisesAs_ok] at hraises
      exact hraises.elim
  · rintro ⟨rfl, hfiltered⟩
    have hclean : ∀ isValueError, ¬RaisesAs signals.raisesValueError
        (catalog.models.foldlM (storedScanModel signals inp (normalizeWeights policy)) {})
        isValueError := by
      simp only [hloop, firstRaises_none]
      exact fun model hmodel => (hfiltered model hmodel).not_raises
    obtain ⟨st, hst⟩ := (returns_iff _ _).mpr hclean
    have hnone := (candidates_foldlM hst).mpr ⟨rfl, hfiltered⟩
    obtain ⟨-, herror⟩ | ⟨hsome, -⟩ := hdecision st
    · exact ⟨st, hst, by rw [herror, raisesAs_error]; rfl⟩
    · exact absurd hnone hsome

end Decision

/-! ## Entries that convert -/

/-- `plain` is what the entries of the catalog's models convert to. -/
def StoredSignals.Convert (signals : StoredSignals) (models : List CatalogModel)
    (plain : SignalMap) : Prop :=
  ∀ model ∈ models, signals.read model
    = .ok { signal := (plain model.modelId).getD {}, reasonIsText := true }

/-- Over an entry that is a plain signal the two loops agree. -/
theorem storedScanModel_eq {signals : StoredSignals} {inp : ScanInput} {model : CatalogModel}
    {plain : SignalMap} (hread : signals.read model
      = .ok { signal := (plain model.modelId).getD {}, reasonIsText := true })
    (weights : Weights) (st : ScanState) :
    storedScanModel signals inp weights st model
      = checkedScanModel { inp with signals := plain } weights st model := by
  by_cases hreads : ReadsSignal inp.request model
  · rw [storedScanModel_of_read hreads hread]
    -- The two inputs agree on what the turn reads, the signal of this model.
    have hsame : checkedScanModel (inp.withSignal ((plain model.modelId).getD {})) weights st model
        = checkedScanModel { inp with signals := plain } weights st model := rfl
    rw [hsame]
    cases checkedScanModel { inp with signals := plain } weights st model with
    | error err => rfl
    | ok next => rfl
  · -- The model is dropped before its signal is read.
    unfold storedScanModel
    rw [if_neg hreads]
    unfold checkedScanModel
    dsimp only
    split
    next => rfl
    next hallow =>
    split
    next => rfl
    next hdeny =>
    cases hgap : matchesCapabilities model inp.request with
    | some gap => rfl
    | none =>
      rw [Bool.not_eq_true] at hallow hdeny
      exact absurd ⟨hallow, hdeny, hgap⟩ hreads

/-- Entries that convert to well-formed signals make it the plain engine. -/
theorem storedRoutingDecision_eq (request : RoutingDecisionRequest) (catalog : CatalogSnapshot)
    (policy : RoutingPolicy) (signals : StoredSignals) (plain : SignalMap)
    (signalFreshnessSeconds ttlSeconds : ℕ) (rt : Runtime)
    (hconvert : signals.Convert catalog.models plain) (hplain : WellFormedSignals plain)
    (hclock : rt.Monotonic) :
    storedRoutingDecision request catalog policy signals signalFreshnessSeconds ttlSeconds rt
      = (calculateRoutingDecision request catalog policy plain signalFreshnessSeconds ttlSeconds
          rt).mapError .raised := by
  rw [← checkedRoutingDecision_eq request catalog policy plain signalFreshnessSeconds ttlSeconds rt
    hplain hclock]
  unfold storedRoutingDecision checkedRoutingDecision
  dsimp only
  rw [checkedNormalizeWeights_eq, ok_bind, ok_bind]
  have hturn : ∀ st, ∀ model ∈ catalog.models,
      checkedScanModel (scanInput request catalog policy plain signalFreshnessSeconds rt)
        (normalizeWeights policy) st model
      = .ok (scanModel (scanInput request catalog policy plain signalFreshnessSeconds rt) st
          model) :=
    fun st model _ => checkedScanModel_eq hplain model st
  rw [foldlM_eq catalog.models hturn {}, foldlM_eq catalog.models
    (fun st model hmodel => (storedScanModel_eq (hconvert model hmodel) _ st).trans
      (hturn st model hmodel)) {}]

end ControlPlane
