import ControlPlane.Service
import ControlPlane.StoredSignals

/-!
# Status 400 — `create_routing_decision`

The handler answers 400 for any `ValueError` that leaves `create_decision`,
and the manual gives the status two readings: a request its schema refuses,
or one for which no model survives filtering. `ValueError` is wide, though.
JSON that does not decode, a record that does not validate, a text that is no
number: each is one, wherever it is raised, and an exception in the handler
that frees the slot takes the place of the one being handled.

`ServerValueError` lists where a call can meet a `ValueError` that has
nothing to do with the request. Without one, a 400 means that the engine ran
and the filters dropped every model (`bad_request_means_unroutable_iff`).

Mirroring notes:
- Every awaited call comes back as it likes (`Post`): it returns or raises an
  exception of any class.
- The two metadata writes are inside a handler of their own that swallows
  what they raise.
- A request that its schema refuses does not get here; it is answered 422.
- A number too large for its type (`Ranges`) raises what is no `ValueError`,
  so it is not answered 400.
- `Service` has the call as a coroutine whose engine is given plain signals
  and whose awaits fail in one way; there it answers what it answers here
  (`createDecision_of_steps`).
-/

namespace ControlPlane

open Lib

variable {Q : Type}

/-! ## The call -/

/-- A decision request behind authentication, and what it meets. -/
structure Post (Q : Type) where
  deps : Deps Q
  source : CatalogSource
  registry : CatalogRegistry
  numbers : NumberReader
  call : CreateCall
  existing : Except ServiceError (Option RoutingDecisionResponse)
  rpm : Except ServiceError Unit
  currentSpend : Except ServiceError ℚ
  content : FileContent
  uuid : String
  reserved : Except ServiceError Unit
  signals : Except ServiceError (String → Option Json)
  rt : Runtime
  stored : Except ServiceError Unit
  released : Except ServiceError Unit

/-- `except Exception: await release(); raise`. -/
def releasing {α : Type} (released : Except ServiceError Unit) :
    Except ServiceError α → Except ServiceError α
  | .ok a => .ok a
  | .error err =>
    match released with
    | .ok () => .error err
    | .error err' => .error err'

namespace Post

variable (p : Post Q)

/-- The store of signals over the entries read. -/
def storedSignals (entry : String → Option Json) : StoredSignals :=
  { numbers := p.numbers
    describe := p.source.describe
    entry }

/-- The quotas, the catalog and the policy. -/
def admitCall : Except ServiceError (CatalogSnapshot × RoutingPolicy) := do
  p.rpm
  let currentSpend ← p.currentSpend
  admission p.deps (p.source.getSnapshot p.content p.registry).2 p.call currentSpend

/-- `calculate_routing_decision`, with its errors as they leave it. -/
def engine (catalog : CatalogSnapshot) (policy : RoutingPolicy) (entry : String → Option Json) :
    Except ServiceError RoutingDecisionResponse :=
  (storedRoutingDecision p.call.request catalog policy (p.storedSignals entry)
    p.deps.settings.signalFreshnessSeconds p.deps.settings.decisionTtlSeconds
    p.rt).mapError (engineError p.source.describe)

/-- The body of the `try`, with the slot taken. -/
def guarded (catalog : CatalogSnapshot) (policy : RoutingPolicy) :
    Except ServiceError RoutingDecisionResponse := do
  let entry ← p.signals
  let response ← p.engine catalog policy entry
  p.stored
  return { response with decisionId := p.uuid }

/-- The answer of one request, every await answering as `p` says. -/
def createDecision : Except ServiceError RoutingDecisionResponse :=
  if p.call.principal.agentId ≠ p.call.request.agentId then
    .error (.authorization "request agent_id does not match authenticated credential.")
  else do
    match ← p.existing with
    | some existing => return existing
    | none =>
      let (catalog, policy) ← p.admitCall
      p.reserved
      releasing p.released (p.guarded catalog policy)

/-- The endpoint: the response, or a status with its detail. -/
def createRoutingDecision : Except (Nat × String) RoutingDecisionResponse :=
  p.createDecision.mapError serviceErrorToHttp

/-- The request is answered with status 400. -/
def AnswersBadRequest : Prop :=
  ∃ detail, p.createRoutingDecision = .error (400, detail)

end Post

/-! ### The call as the service makes it

`Service` has the same call as a coroutine: `answerFrom` is what a call still
has to answer at each of its awaits, and no step that comes back as the
`Post` says changes it. -/

namespace Post

/-- What is still to come of the answer, from where the call stands. -/
def answerFrom (p : Post Q) : CreatePc → Except ServiceError RoutingDecisionResponse
  | .lookup => do
    match ← p.existing with
    | some existing => return existing
    | none =>
      let (catalog, policy) ← p.admitCall
      p.reserved
      releasing p.released (p.guarded catalog policy)
  | .enforceRpm => do
    let (catalog, policy) ← p.admitCall
    p.reserved
    releasing p.released (p.guarded catalog policy)
  | .currentSpend => do
    let currentSpend ← p.currentSpend
    let (catalog, policy) ←
      admission p.deps (p.source.getSnapshot p.content p.registry).2 p.call currentSpend
    p.reserved
    releasing p.released (p.guarded catalog policy)
  | .ensureCatalog catalog policy => do
    p.reserved
    releasing p.released (p.guarded catalog policy)
  | .ensurePolicies catalog policy => do
    p.reserved
    releasing p.released (p.guarded catalog policy)
  | .reserve catalog policy _ => do
    p.reserved
    releasing p.released (p.guarded catalog policy)
  | .getSignals catalog policy _ => releasing p.released (p.guarded catalog policy)
  | .storeDecision response => releasing p.released do
    p.stored
    return response
  | .release _ err => releasing p.released (.error err)
  | .returned _ response => .ok response
  | .raised _ err => .error err

/-- The stored entries are what the engine of the service is given. -/
def SignalsAre (p : Post Q) (catalog : CatalogSnapshot) : Except ServiceError SignalMap → Prop
  | .error err => p.signals = .error err
  | .ok plain => WellFormedSignals plain ∧ ∃ entry, p.signals = .ok entry
      ∧ (p.storedSignals entry).Convert catalog.models plain

/-- The awaited call comes back as `p` says. -/
def Meets (p : Post Q) (env : Env) (w : World Q) : CreatePc → Prop
  | .lookup => p.existing = (awaited env.fault w (w, .ok
      (w.tables.getByIdempotency p.call.principal.agentId p.call.idempotencyKey))).2
  | .enforceRpm => p.rpm = (awaited env.fault w (w.withQuota
      (p.deps.quotaManager.enforceRpm env.clock p.call.principal w.quota))).2
  | .currentSpend => p.currentSpend = (awaited env.fault w (w, .ok
        (p.deps.quotaManager.currentDailySpend env.clock p.call.principal w.quota))).2
      ∧ env.catalog = (p.source.getSnapshot p.content p.registry).2
  | .ensureCatalog _ _ => True
  | .ensurePolicies _ _ => True
  | .reserve _ _ decisionId => p.reserved = (awaited env.fault w (w.withQuota
      (p.deps.quotaManager.reserveConcurrency p.call.principal decisionId w.quota))).2
  | .getSignals catalog _ decisionId => decisionId = p.uuid ∧ env.runtime = p.rt
      ∧ p.SignalsAre catalog (awaited env.fault w (w, .ok env.signals)).2
  | .storeDecision response =>
    p.stored = (awaited env.fault w (w.insertDecision p.call response)).2
  | .release decisionId _ => p.released = (awaited env.fault w
      (w.releaseSlot p.deps p.call.principal decisionId, .ok ())).2
  | .returned _ _ => True
  | .raised _ _ => True

variable {p : Post Q}

/-- With entries that convert the engine is the one of the plain numbers. -/
theorem engine_eq (hclock : p.rt.Monotonic) {catalog : CatalogSnapshot} (policy : RoutingPolicy)
    {entry : String → Option Json} {plain : SignalMap} (hplain : WellFormedSignals plain)
    (hconvert : (p.storedSignals entry).Convert catalog.models plain) :
    p.engine catalog policy entry
      = calculateRoutingDecision p.call.request catalog policy plain
          p.deps.settings.signalFreshnessSeconds p.deps.settings.decisionTtlSeconds p.rt := by
  unfold engine
  rw [storedRoutingDecision_eq p.call.request catalog policy (p.storedSignals entry) plain _ _ p.rt
    hconvert hplain hclock]
  cases calculateRoutingDecision p.call.request catalog policy plain
    p.deps.settings.signalFreshnessSeconds p.deps.settings.decisionTtlSeconds p.rt with
  | error err => rfl
  | ok response => rfl

/-- The insert is the one write whose refusal is an exception of its own. -/
theorem stored_of_release {D : Deps Q} {env : Env} {w w' : World Q} {call : CreateCall}
    {response : RoutingDecisionResponse} {decisionId : String} {err : ServiceError}
    (h : advanceCreate D env w call (.storeDecision response)
      = some (w', .release decisionId err)) :
    (awaited env.fault w (w.insertDecision call response)).2 = .error err := by
  simp only [advanceCreate] at h
  split at h
  next haw =>
    cases h
    rw [haw]
  next => cases h

/-- A step of the service leaves the answer still to come as it was. -/
theorem answerFrom_step (hclock : p.rt.Monotonic) {env : Env} {w w' : World Q} {pc pc' : CreatePc}
    (h : advanceCreate p.deps env w p.call pc = some (w', pc')) (hmeets : p.Meets env w pc) :
    p.answerFrom pc' = p.answerFrom pc := by
  cases advanceCreate_step h with
  | lookupRaised hf =>
    have hexisting : p.existing = .error .unavailable := hmeets.trans (awaited_of_fails hf)
    simp only [answerFrom, hexisting]
    rfl
  | replayed hf hget =>
    have hexisting : p.existing = .ok _ := hmeets.trans (awaited_of_returns hf)
    simp only [answerFrom, hexisting, hget]
    rfl
  | missed hf hget =>
    have hexisting : p.existing = .ok _ := hmeets.trans (awaited_of_returns hf)
    simp only [answerFrom, hexisting, hget]
    rfl
  | rpmRaised hf _ =>
    have hrpm : p.rpm = .error .unavailable := hmeets.trans (awaited_of_fails hf)
    simp only [answerFrom, admitCall, hrpm]
    rfl
  | rpmRefused hf hres =>
    have hrpm : p.rpm = _ := hmeets.trans (awaited_of_returns hf)
    simp only [answerFrom, admitCall, hrpm, World.withQuota, hres]
    rfl
  | rpmPassed hf hres =>
    have hrpm : p.rpm = _ := hmeets.trans (awaited_of_returns hf)
    simp only [answerFrom, admitCall, hrpm, World.withQuota, hres]
    cases p.currentSpend with
    | error err => rfl
    | ok spend => rfl
  | spendRaised hf =>
    have hspend : p.currentSpend = .error .unavailable := hmeets.1.trans (awaited_of_fails hf)
    simp only [answerFrom, hspend]
    rfl
  | refused hf hadmission =>
    have hspend : p.currentSpend = .ok _ := hmeets.1.trans (awaited_of_returns hf)
    rw [hmeets.2] at hadmission
    simp only [answerFrom, hspend]
    show _ = Except.bind (admission _ _ _ _) _
    rw [hadmission]
    rfl
  | admitted hf hadmission =>
    have hspend : p.currentSpend = .ok _ := hmeets.1.trans (awaited_of_returns hf)
    rw [hmeets.2] at hadmission
    simp only [answerFrom, hspend]
    show _ = Except.bind (admission _ _ _ _) _
    rw [hadmission]
    rfl
  | catalogKept _ => rfl
  | metadataSkipped _ _ _ => rfl
  | policiesKept _ _ => rfl
  | reserveRaised hf _ =>
    have hreserved : p.reserved = .error .unavailable := hmeets.trans (awaited_of_fails hf)
    simp only [answerFrom, hreserved]
    rfl
  | reserveRefused hf hres =>
    have hreserved : p.reserved = _ := hmeets.trans (awaited_of_returns hf)
    simp only [answerFrom, hreserved, World.withQuota, hres]
    rfl
  | reserved hf hres =>
    have hreserved : p.reserved = _ := hmeets.trans (awaited_of_returns hf)
    simp only [answerFrom, hreserved, World.withQuota, hres]
    rfl
  | signalsRaised hf =>
    obtain ⟨-, -, hsignals⟩ := hmeets
    rw [awaited_of_fails hf] at hsignals
    have hraises : p.signals = .error .unavailable := hsignals
    simp only [answerFrom, guarded, hraises]
    rfl
  | unroutable hf hraises =>
    obtain ⟨rfl, hrt, hsignals⟩ := hmeets
    rw [awaited_of_returns hf] at hsignals
    obtain ⟨hplain, entry, hentry, hconvert⟩ := hsignals
    rw [hrt, ← engine_eq hclock _ hplain hconvert] at hraises
    simp only [answerFrom, guarded, hentry]
    show _ = releasing p.released (Except.bind (p.engine _ _ entry) _)
    rw [hraises]
    rfl
  | priced hf hok =>
    obtain ⟨rfl, hrt, hsignals⟩ := hmeets
    rw [awaited_of_returns hf] at hsignals
    obtain ⟨hplain, entry, hentry, hconvert⟩ := hsignals
    rw [hrt, ← engine_eq hclock _ hplain hconvert] at hok
    simp only [answerFrom, guarded, hentry]
    show _ = releasing p.released (Except.bind (p.engine _ _ entry) _)
    rw [hok]
    rfl
  | storeRaised hf =>
    have hstored : p.stored = _ := hmeets.trans (stored_of_release h)
    simp only [answerFrom, hstored]
    rfl
  | storeRejected _ _ _ =>
    have hstored : p.stored = _ := hmeets.trans (stored_of_release h)
    simp only [answerFrom, hstored]
    rfl
  | storeLost _ _ =>
    have hstored : p.stored = _ := hmeets.trans (stored_of_release h)
    simp only [answerFrom, hstored]
    rfl
  | stored hf hinsert =>
    have hstored : p.stored = _ := hmeets.trans (awaited_of_returns hf)
    simp only [answerFrom, hstored, World.insertDecision, hinsert]
    rfl
  | releaseRaised hf _ =>
    have hreleased : p.released = .error .unavailable := hmeets.trans (awaited_of_fails hf)
    simp only [answerFrom, hreleased]
    rfl
  | released hf =>
    have hreleased : p.released = .ok () := hmeets.trans (awaited_of_returns hf)
    simp only [answerFrom, hreleased]
    rfl

/-- Steps of the call that come back as `p` says. Other calls may take theirs
in between: the worlds of two steps need not meet. -/
inductive Steps (p : Post Q) : CreatePc → CreatePc → Prop
  | refl (pc : CreatePc) : Steps p pc pc
  | step {env : Env} {w w' : World Q} {pc pc' last : CreatePc}
      (h : advanceCreate p.deps env w p.call pc = some (w', pc')) (hmeets : p.Meets env w pc)
      (rest : Steps p pc' last) : Steps p pc last

/-- So do any number of them. -/
theorem Steps.answerFrom_eq (hclock : p.rt.Monotonic) {pc last : CreatePc}
    (h : p.Steps pc last) : p.answerFrom last = p.answerFrom pc := by
  induction h with
  | refl pc => rfl
  | step hstep hmeets _ ih => exact ih.trans (answerFrom_step hclock hstep hmeets)

/-- At the start all of the answer is still to come. -/
theorem answerFrom_start : p.answerFrom p.call.start = p.createDecision := by
  unfold CreateCall.start createDecision
  split
  next => rfl
  next => rfl

/-- **The service answers as the `Post` does.** -/
theorem createDecision_of_steps (hclock : p.rt.Monotonic) {drawn : Option String} :
    (∀ response, p.Steps p.call.start (.returned drawn response) →
        p.createDecision = .ok response)
      ∧ ∀ err, p.Steps p.call.start (.raised drawn err) → p.createDecision = .error err := by
  rw [← answerFrom_start]
  exact ⟨fun _ h => (h.answerFrom_eq hclock).symm, fun _ h => (h.answerFrom_eq hclock).symm⟩

end Post

/-! ## How far a call gets -/

namespace Post

/-- The quota is next. -/
structure AtQuota (p : Post Q) : Prop where
  owner : p.call.principal.agentId = p.call.request.agentId
  unseen : p.existing = .ok none

/-- The catalog is next. -/
structure AtCatalog (p : Post Q) : Prop extends AtQuota p where
  rpm : p.rpm = .ok ()
  budget : ∃ spend, p.currentSpend = .ok spend
    ∧ ¬p.call.principal.dailyBudgetUsd < spend + p.call.request.budgetLimitUsd

/-- The slot is next. -/
structure AtReserve (p : Post Q) (catalog : CatalogSnapshot) (policy : RoutingPolicy) : Prop
    extends AtCatalog p where
  loaded : (p.source.getSnapshot p.content p.registry).2 = .ok catalog
  known : p.deps.policies.lookup (resolvePolicyId p.deps.settings p.call) = some policy
  active : policy.status = .active

/-- The slot is taken. -/
structure AtSignals (p : Post Q) (catalog : CatalogSnapshot) (policy : RoutingPolicy) : Prop
    extends AtReserve p catalog policy where
  slot : p.reserved = .ok ()

/-- What the engine's loop holds fixed. -/
def scanInput (p : Post Q) (catalog : CatalogSnapshot) (policy : RoutingPolicy) : ScanInput :=
  ControlPlane.scanInput p.call.request catalog policy (fun _ => none)
    p.deps.settings.signalFreshnessSeconds p.rt

/-- The engine ran on a loaded catalog and its filters dropped every model. -/
def Unroutable (p : Post Q) : Prop :=
  ∃ catalog policy entry, p.AtSignals catalog policy ∧ p.signals = .ok entry
    ∧ ∀ model ∈ catalog.models,
        FilteredOut (p.storedSignals entry) (p.scanInput catalog policy) model

end Post

/-! ## `ValueError`s of the server -/

/-- The cache does not hold a file of that checksum. -/
def CatalogRegistry.Misses (registry : CatalogRegistry) (checksum : String) : Prop :=
  registry.snapshot = none ∨ registry.checksum ≠ some checksum

/-- Reading the catalog raises a `ValueError`: the file does not decode, or it
is not in the cache and is no JSON or holds a field that its schema refuses. -/
inductive CatalogSource.RaisesValueError (source : CatalogSource) (registry : CatalogRegistry) :
    FileContent → Prop
  | file {err : PyError} (hclass : err.isValueError = true) :
      RaisesValueError source registry (.error err)
  | json {text : String} {err : PyError}
      (hmiss : registry.Misses (source.sha256 text))
      (hloads : source.loads text = .error err) (hclass : err.isValueError = true) :
      RaisesValueError source registry (.ok text)
  | schema {text : String} {document : Json} {schema : String}
      (hmiss : registry.Misses (source.sha256 text))
      (hloads : source.loads text = .ok document)
      (hparse : parseDocument source.coercions document = .error (.validationError schema)) :
      RaisesValueError source registry (.ok text)

namespace Post

/-- What interrupts a call that holds its slot, by whether it is a
`ValueError`; the engine's own error is not among them. -/
inductive Interrupted (p : Post Q) (catalog : CatalogSnapshot) (policy : RoutingPolicy) :
    Bool → Prop
  | signals {err : ServiceError} (hsignals : p.signals = .error err) :
      Interrupted p catalog policy err.isValueError
  | signal {entry : String → Option Json} {isValueError : Bool} (hsignals : p.signals = .ok entry)
      (hfirst : FirstRaises (SignalRaises (p.storedSignals entry) (p.scanInput catalog policy))
        catalog.models isValueError) :
      Interrupted p catalog policy isValueError
  | store {entry : String → Option Json} {err : ServiceError} (hsignals : p.signals = .ok entry)
      (hclean : ∀ model ∈ catalog.models, ∀ isValueError,
        ¬SignalRaises (p.storedSignals entry) (p.scanInput catalog policy) model isValueError)
      (hsome : ∃ model ∈ catalog.models,
        ¬FilteredOut (p.storedSignals entry) (p.scanInput catalog policy) model)
      (hstored : p.stored = .error err) :
      Interrupted p catalog policy err.isValueError

/-- A `ValueError` that is not about the request. -/
inductive ServerValueError (p : Post Q) : Prop
  | lookup {detail : String} (owner : p.call.principal.agentId = p.call.request.agentId)
      (hraises : p.existing = .error (.valueError detail))
  | rpm {detail : String} (reached : p.AtQuota) (hraises : p.rpm = .error (.valueError detail))
  | currentSpend {detail : String} (reached : p.AtQuota) (hrpm : p.rpm = .ok ())
      (hraises : p.currentSpend = .error (.valueError detail))
  | catalog (reached : p.AtCatalog) (hraises : p.source.RaisesValueError p.registry p.content)
  | reserve {catalog : CatalogSnapshot} {policy : RoutingPolicy} {detail : String}
      (reached : p.AtReserve catalog policy) (hraises : p.reserved = .error (.valueError detail))
  | interrupted {catalog : CatalogSnapshot} {policy : RoutingPolicy}
      (reached : p.AtSignals catalog policy) (hinterrupted : p.Interrupted catalog policy true)
      (hreleased : p.released = .ok ())
  | release {catalog : CatalogSnapshot} {policy : RoutingPolicy} {isValueError : Bool}
      {detail : String} (reached : p.AtSignals catalog policy)
      (hinterrupted : p.Interrupted catalog policy isValueError)
      (hraises : p.released = .error (.valueError detail))

end Post

/-! ## What each part raises -/

/-- Status 400 is for a `ValueError`, and for nothing else. -/
theorem serviceErrorToHttp_eq_400 {err : ServiceError} :
    (∃ detail, serviceErrorToHttp err = (400, detail)) ↔ err.isValueError = true := by
  cases err <;> simp [serviceErrorToHttp, ServiceError.isValueError]

/-- A `ValueError` is what raises as one. -/
theorem raisesAs_valueError {α : Type} {x : Except ServiceError α} :
    RaisesAs ServiceError.isValueError x true ↔ ∃ detail, x = .error (.valueError detail) := by
  constructor
  · rintro ⟨err, rfl, hclass⟩
    cases err with
    | valueError detail => exact ⟨detail, rfl⟩
    | _ => cases hclass
  · rintro ⟨detail, rfl⟩
    exact ⟨_, rfl, rfl⟩

/-- A release that fails hides what was raised before it. -/
theorem raisesAs_releasing {α : Type} (released : Except ServiceError Unit)
    (x : Except ServiceError α) :
    RaisesAs ServiceError.isValueError (releasing released x) true
      ↔ (RaisesAs ServiceError.isValueError x true ∧ released = .ok ())
        ∨ (∃ isValueError, RaisesAs ServiceError.isValueError x isValueError)
          ∧ RaisesAs ServiceError.isValueError released true := by
  cases x with
  | ok a => simp [releasing]
  | error err =>
    cases released with
    | ok _ => simp [releasing]
    | error err' => simp [releasing]

section Catalog

variable {source : CatalogSource} {registry : CatalogRegistry}

/-- A miss reads the text. -/
theorem CatalogRegistry.getSnapshot_of_misses (file : CatalogFile) {text : String}
    (hmiss : registry.Misses (file.sha256 text)) :
    (registry.getSnapshot file text).2 = file.load text := by
  have hreload : (registry.reload file text).2 = file.load text := by
    unfold CatalogRegistry.reload
    cases file.load text with
    | error err => rfl
    | ok snapshot => rfl
  unfold CatalogRegistry.getSnapshot
  split
  next snapshot hsnapshot =>
    rcases hmiss with hnone | hchecksum
    · rw [hnone] at hsnapshot
      cases hsnapshot
    · rw [if_neg hchecksum]
      exact hreload
  next => exact hreload

/-- A hit answers from what was read before. -/
theorem CatalogRegistry.getSnapshot_of_not_misses (file : CatalogFile) {text : String}
    (hhit : ¬registry.Misses (file.sha256 text)) :
    ∃ snapshot, (registry.getSnapshot file text).2 = .ok snapshot := by
  unfold CatalogRegistry.Misses at hhit
  rw [not_or, not_not] at hhit
  obtain ⟨snapshot, hsnapshot⟩ := Option.ne_none_iff_exists'.mp hhit.1
  unfold CatalogRegistry.getSnapshot
  rw [hsnapshot]
  dsimp only
  rw [if_pos hhit.2]
  exact ⟨snapshot, rfl⟩

/-- Parsing raises a `ValueError` where the text is no JSON, or no catalog. -/
theorem raisesAs_parse (source : CatalogSource) (text : String) :
    RaisesAs PyError.isValueError (source.parse text) true
      ↔ (∃ err, source.loads text = .error err ∧ err.isValueError = true)
        ∨ ∃ document schema, source.loads text = .ok document
          ∧ parseDocument source.coercions document = .error (.validationError schema) := by
  unfold CatalogSource.parse
  rw [raisesAs_bind]
  refine or_congr_right ⟨?_, ?_⟩
  · rintro ⟨document, hloads, err, hparse, hclass⟩
    obtain ⟨schema, rfl⟩ := (parseDocument_raises ⟨err, hparse, rfl⟩).eq_validationError hclass
    exact ⟨document, schema, hloads, hparse⟩
  · rintro ⟨document, schema, hloads, hparse⟩
    exact ⟨document, hloads, _, hparse, rfl⟩

/-- So does the snapshot, from content that cannot be used. -/
theorem raisesAs_getSnapshot (content : FileContent) :
    RaisesAs ServiceError.isValueError (source.getSnapshot content registry).2 true
      ↔ source.RaisesValueError registry content := by
  cases content with
  | error err =>
    unfold CatalogSource.getSnapshot
    rw [raisesAs_error, PyError.isValueError_toServiceError]
    constructor
    · exact .file
    · rintro ⟨hclass⟩
      exact hclass
  | ok text =>
    by_cases hmiss : registry.Misses (source.sha256 text)
    · have hload : (source.getSnapshot (.ok text) registry).2 = source.file.load text :=
        CatalogRegistry.getSnapshot_of_misses source.file hmiss
      have hparse := raisesAs_parse source text
      rw [hload]
      unfold CatalogFile.load CatalogSource.file
      simp only [raisesAs_map, raisesAs_mapError, PyError.isValueError_toServiceError]
      refine hparse.trans ⟨?_, ?_⟩
      · rintro (⟨err, hloads, hclass⟩ | ⟨document, schema, hloads, hparse⟩)
        · exact .json hmiss hloads hclass
        · exact .schema hmiss hloads hparse
      · intro h
        cases h with
        | json _ hloads hclass => exact .inl ⟨_, hloads, hclass⟩
        | schema _ hloads hparse => exact .inr ⟨_, _, hloads, hparse⟩
    · obtain ⟨snapshot, hok⟩ := CatalogRegistry.getSnapshot_of_not_misses source.file hmiss
      have hread : (source.getSnapshot (.ok text) registry).2 = .ok snapshot := hok
      rw [hread, raisesAs_ok]
      refine iff_of_false id ?_
      intro h
      cases h with
      | json h => exact hmiss h
      | schema h => exact hmiss h

end Catalog

section Admission

variable {D : Deps Q} {catalog : Except ServiceError CatalogSnapshot} {call : CreateCall}
  {spend : ℚ}

/-- What a call that was admitted has passed. -/
theorem admission_eq_ok {read : CatalogSnapshot} {policy : RoutingPolicy} :
    admission D catalog call spend = .ok (read, policy)
      ↔ ¬call.principal.dailyBudgetUsd < spend + call.request.budgetLimitUsd
        ∧ catalog = .ok read ∧ D.policies.lookup (resolvePolicyId D.settings call) = some policy
        ∧ policy.status = .active := by
  unfold admission
  by_cases hbudget : call.principal.dailyBudgetUsd < spend + call.request.budgetLimitUsd
  · simp [hbudget]
  rw [if_neg hbudget]
  cases catalog with
  | error err => simp
  | ok loaded =>
    dsimp only
    cases D.policies.lookup (resolvePolicyId D.settings call) with
    | none => simp
    | some found =>
      by_cases hactive : found.status = .active
      · simp only [hactive, ne_eq, not_true_eq_false, if_false, Except.ok.injEq, Prod.mk.injEq,
          hbudget, not_false_eq_true, true_and, Option.some.injEq]
        exact ⟨fun ⟨hread, hfound⟩ => ⟨hread, hfound, hfound ▸ hactive⟩,
          fun ⟨hread, hfound, _⟩ => ⟨hread, hfound⟩⟩
      · simp only [ne_eq, hactive, not_false_eq_true, if_true, reduceCtorEq, false_iff, not_and]
        rintro - - hfound
        rw [← Option.some.inj hfound]
        exact hactive

/-- Admission raises a `ValueError` only from the catalog. -/
theorem raisesAs_admission :
    RaisesAs ServiceError.isValueError (admission D catalog call spend) true
      ↔ ¬call.principal.dailyBudgetUsd < spend + call.request.budgetLimitUsd
        ∧ RaisesAs ServiceError.isValueError catalog true := by
  unfold admission
  by_cases hbudget : call.principal.dailyBudgetUsd < spend + call.request.budgetLimitUsd
  · simp [hbudget, ServiceError.isValueError]
  rw [if_neg hbudget]
  cases catalog with
  | error err => simp [hbudget]
  | ok loaded =>
    dsimp only
    cases D.policies.lookup (resolvePolicyId D.settings call) with
    | none => simp [ServiceError.isValueError]
    | some found =>
      by_cases hactive : found.status = .active
      · simp [hactive]
      · simp [hactive, ServiceError.isValueError]

end Admission

namespace Post

variable {p : Post Q}

/-- Up to admission a `ValueError` comes from the quotas or from the catalog. -/
theorem raisesAs_admitCall :
    RaisesAs ServiceError.isValueError p.admitCall true
      ↔ RaisesAs ServiceError.isValueError p.rpm true
        ∨ p.rpm = .ok () ∧ (RaisesAs ServiceError.isValueError p.currentSpend true
          ∨ (∃ spend, p.currentSpend = .ok spend
            ∧ ¬p.call.principal.dailyBudgetUsd < spend + p.call.request.budgetLimitUsd)
            ∧ p.source.RaisesValueError p.registry p.content) := by
  unfold admitCall
  simp only [raisesAs_bind, raisesAs_admission, raisesAs_getSnapshot]
  refine or_congr_right ⟨?_, ?_⟩
  · rintro ⟨⟨⟩, hrpm, hspend | ⟨spend, hspend, hbudget, hcatalog⟩⟩
    · exact ⟨hrpm, .inl hspend⟩
    · exact ⟨hrpm, .inr ⟨⟨spend, hspend, hbudget⟩, hcatalog⟩⟩
  · rintro ⟨hrpm, hspend | ⟨⟨spend, hspend, hbudget⟩, hcatalog⟩⟩
    · exact ⟨(), hrpm, .inl hspend⟩
    · exact ⟨(), hrpm, .inr ⟨spend, hspend, hbudget, hcatalog⟩⟩

/-- Once the quotas have answered, being admitted is reaching the reservation. -/
theorem admitCall_eq_ok {catalog : CatalogSnapshot} {policy : RoutingPolicy} (hquota : p.AtQuota) :
    p.admitCall = .ok (catalog, policy) ↔ p.AtReserve catalog policy := by
  unfold admitCall
  simp only [bind_eq_ok, admission_eq_ok]
  constructor
  · rintro ⟨⟨⟩, hrpm, spend, hspend, hbudget, hloaded, hknown, hactive⟩
    exact ⟨⟨hquota, hrpm, spend, hspend, hbudget⟩, hloaded, hknown, hactive⟩
  · rintro ⟨⟨-, hrpm, spend, hspend, hbudget⟩, hloaded, hknown, hactive⟩
    exact ⟨(), hrpm, spend, hspend, hbudget, hloaded, hknown, hactive⟩

section Clock

variable (hclock : p.rt.Monotonic) (catalog : CatalogSnapshot) (policy : RoutingPolicy)
include hclock

/-- The engine raises at the first entry that does not convert, or for want of a
survivor. -/
theorem raisesAs_engine (entry : String → Option Json) (isValueError : Bool) :
    RaisesAs ServiceError.isValueError (p.engine catalog policy entry) isValueError
      ↔ FirstRaises (SignalRaises (p.storedSignals entry) (p.scanInput catalog policy))
          catalog.models isValueError
        ∨ isValueError = true ∧ ∀ model ∈ catalog.models,
            FilteredOut (p.storedSignals entry) (p.scanInput catalog policy) model :=
  (raisesAs_mapError _ _).trans (raisesAs_storedRoutingDecision hclock _ _ _ _ _ _ _)

/-- It returns when every entry converts and a model survives. -/
theorem engine_returns (entry : String → Option Json) :
    (∃ response, p.engine catalog policy entry = .ok response)
      ↔ (∀ model ∈ catalog.models, ∀ isValueError,
          ¬SignalRaises (p.storedSignals entry) (p.scanInput catalog policy) model isValueError)
        ∧ ∃ model ∈ catalog.models,
            ¬FilteredOut (p.storedSignals entry) (p.scanInput catalog policy) model := by
  rw [returns_iff ServiceError.isValueError, ← firstRaises_none]
  simp only [raisesAs_engine hclock, not_or, not_and]
  constructor
  · intro h
    refine ⟨fun isValueError => (h isValueError).1, ?_⟩
    simpa using (h true).2 rfl
  · rintro ⟨hclean, model, hmodel, hfiltered⟩ isValueError
    exact ⟨hclean isValueError, fun _ h => hfiltered (h model hmodel)⟩

/-- What the guarded part raises: an interruption, or the engine's own error. -/
theorem raisesAs_guarded (isValueError : Bool) :
    RaisesAs ServiceError.isValueError (p.guarded catalog policy) isValueError
      ↔ p.Interrupted catalog policy isValueError
        ∨ isValueError = true ∧ ∃ entry, p.signals = .ok entry
          ∧ ∀ model ∈ catalog.models,
              FilteredOut (p.storedSignals entry) (p.scanInput catalog policy) model := by
  unfold guarded
  rw [raisesAs_bind]
  constructor
  · rintro (⟨err, hsignals, rfl⟩ | ⟨entry, hsignals, h⟩)
    · exact .inl (.signals hsignals)
    rw [raisesAs_bind, raisesAs_engine hclock] at h
    rcases h with (hfirst | ⟨hclass, hfiltered⟩) | ⟨response, hengine, h⟩
    · exact .inl (.signal hsignals hfirst)
    · exact .inr ⟨hclass, entry, hsignals, hfiltered⟩
    · obtain ⟨hclean, hsome⟩ := (engine_returns hclock catalog policy entry).mp ⟨response, hengine⟩
      rw [raisesAs_bind] at h
      rcases h with ⟨err, hstored, rfl⟩ | ⟨⟨⟩, -, h⟩
      · exact .inl (.store hsignals hclean hsome hstored)
      · exact ((raisesAs_ok _).mp h).elim
  · rintro (h | ⟨rfl, entry, hsignals, hfiltered⟩)
    · cases h with
      | signals hsignals => exact .inl ⟨_, hsignals, rfl⟩
      | signal hsignals hfirst =>
        refine .inr ⟨_, hsignals, ?_⟩
        rw [raisesAs_bind, raisesAs_engine hclock]
        exact .inl (.inl hfirst)
      | store hsignals hclean hsome hstored =>
        obtain ⟨response, hengine⟩ := (engine_returns hclock catalog policy _).mpr ⟨hclean, hsome⟩
        refine .inr ⟨_, hsignals, ?_⟩
        rw [raisesAs_bind]
        refine .inr ⟨response, hengine, ?_⟩
        rw [hstored]
        exact ⟨_, rfl, rfl⟩
    · refine .inr ⟨entry, hsignals, ?_⟩
      rw [raisesAs_bind, raisesAs_engine hclock]
      exact .inl (.inr ⟨rfl, hfiltered⟩)

end Clock

/-- Behind the quotas: admission, the reservation, and the decision under it. -/
theorem AtQuota.createDecision_eq (h : p.AtQuota) :
    p.createDecision = p.admitCall >>= fun admitted => p.reserved >>= fun _ =>
      releasing p.released (p.guarded admitted.1 admitted.2) := by
  unfold createDecision
  rw [if_neg (not_not.mpr h.owner), h.unseen]
  rfl

/-- Behind the reservation: the decision, with a release if it raises. -/
theorem AtSignals.createDecision_eq {catalog : CatalogSnapshot} {policy : RoutingPolicy}
    (h : p.AtSignals catalog policy) :
    p.createDecision = releasing p.released (p.guarded catalog policy) := by
  rw [h.toAtQuota.createDecision_eq, (admitCall_eq_ok h.toAtQuota).mpr h.toAtReserve]
  show (p.reserved >>= fun _ => releasing p.released (p.guarded catalog policy)) = _
  rw [h.slot]
  rfl

/-- Status 400 is a `ValueError` of the call. -/
theorem answersBadRequest_iff_raisesAs :
    p.AnswersBadRequest ↔ RaisesAs ServiceError.isValueError p.createDecision true := by
  unfold AnswersBadRequest createRoutingDecision
  cases p.createDecision with
  | ok response => simp [Except.mapError]
  | error err =>
    rw [raisesAs_error, ← serviceErrorToHttp_eq_400]
    simp [Except.mapError]

/-- Once the slot is taken, a `ValueError` is one that interrupts the call or
that freeing the slot raises, or the engine's own. -/
theorem AtSignals.raises {catalog : CatalogSnapshot} {policy : RoutingPolicy}
    (hreached : p.AtSignals catalog policy) (hclock : p.rt.Monotonic)
    (h : RaisesAs ServiceError.isValueError p.createDecision true) :
    p.ServerValueError ∨ p.Unroutable := by
  rw [hreached.createDecision_eq, raisesAs_releasing] at h
  have hcases : ∀ isValueError,
      RaisesAs ServiceError.isValueError (p.guarded catalog policy) isValueError →
      (p.Interrupted catalog policy isValueError → p.ServerValueError) →
      p.ServerValueError ∨ p.Unroutable := by
    intro isValueError hguarded hserver
    rcases (raisesAs_guarded hclock _ _ _).mp hguarded with hinterrupted | ⟨-, entry, hentry, hall⟩
    · exact .inl (hserver hinterrupted)
    · exact .inr ⟨catalog, policy, entry, hreached, hentry, hall⟩
  rcases h with ⟨hguarded, hreleased⟩ | ⟨⟨isValueError, hguarded⟩, hreleased⟩
  · exact hcases true hguarded fun hinterrupted => .interrupted hreached hinterrupted hreleased
  · obtain ⟨detail, hraises⟩ := raisesAs_valueError.mp hreleased
    exact hcases isValueError hguarded fun hinterrupted => .release hreached hinterrupted hraises

/-- Behind the quotas a `ValueError` is the server's, or the request has no
model. -/
theorem AtQuota.raises (hquota : p.AtQuota) (hclock : p.rt.Monotonic)
    (h : RaisesAs ServiceError.isValueError p.createDecision true) :
    p.ServerValueError ∨ p.Unroutable := by
  have hraises := h
  rw [hquota.createDecision_eq, raisesAs_bind] at h
  rcases h with hadmitted | ⟨⟨catalog, policy⟩, hadmitted, h⟩
  · rcases raisesAs_admitCall.mp hadmitted with hrpm | ⟨hrpm, hspend | ⟨hbudget, hcatalog⟩⟩
    · obtain ⟨detail, herror⟩ := raisesAs_valueError.mp hrpm
      exact .inl (.rpm hquota herror)
    · obtain ⟨detail, herror⟩ := raisesAs_valueError.mp hspend
      exact .inl (.currentSpend hquota hrpm herror)
    · exact .inl (.catalog ⟨hquota, hrpm, hbudget⟩ hcatalog)
  · have hreserve := (admitCall_eq_ok hquota).mp hadmitted
    rw [raisesAs_bind] at h
    rcases h with hreserved | ⟨⟨⟩, hslot, -⟩
    · obtain ⟨detail, herror⟩ := raisesAs_valueError.mp hreserved
      exact .inl (.reserve hreserve herror)
    · exact AtSignals.raises ⟨hreserve, hslot⟩ hclock hraises

/-- A call that raises a `ValueError` met one of the server's, or is
unroutable. -/
theorem raises_valueError (hclock : p.rt.Monotonic)
    (h : RaisesAs ServiceError.isValueError p.createDecision true) :
    p.ServerValueError ∨ p.Unroutable := by
  have hraises := h
  unfold createDecision at h
  by_cases howner : p.call.principal.agentId = p.call.request.agentId
  case neg =>
    rw [if_pos howner, raisesAs_error] at h
    cases h
  case pos =>
  rw [if_neg (not_not.mpr howner), raisesAs_bind] at h
  rcases h with hlookup | ⟨existing, hexisting, h⟩
  · obtain ⟨detail, herror⟩ := raisesAs_valueError.mp hlookup
    exact .inl (.lookup howner herror)
  · cases existing with
    | some response => exact ((raisesAs_ok response).mp h).elim
    | none => exact AtQuota.raises ⟨howner, hexisting⟩ hclock hraises

/-- The server's own `ValueError` is answered as any other. -/
theorem ServerValueError.raises (hclock : p.rt.Monotonic) (h : p.ServerValueError) :
    RaisesAs ServiceError.isValueError p.createDecision true := by
  cases h with
  | lookup howner hraises =>
    unfold createDecision
    rw [if_neg (not_not.mpr howner), hraises]
    exact ⟨_, rfl, rfl⟩
  | rpm hquota hraises =>
    rw [hquota.createDecision_eq, raisesAs_bind, raisesAs_admitCall]
    exact .inl (.inl (raisesAs_valueError.mpr ⟨_, hraises⟩))
  | currentSpend hquota hrpm hraises =>
    rw [hquota.createDecision_eq, raisesAs_bind, raisesAs_admitCall]
    exact .inl (.inr ⟨hrpm, .inl (raisesAs_valueError.mpr ⟨_, hraises⟩)⟩)
  | catalog hreached hraises =>
    rw [hreached.createDecision_eq, raisesAs_bind, raisesAs_admitCall]
    exact .inl (.inr ⟨hreached.rpm, .inr ⟨hreached.budget, hraises⟩⟩)
  | reserve hreached hraises =>
    rw [hreached.createDecision_eq, raisesAs_bind]
    refine .inr ⟨_, (admitCall_eq_ok hreached.toAtQuota).mpr hreached, ?_⟩
    rw [hraises]
    exact ⟨_, rfl, rfl⟩
  | interrupted hreached hinterrupted hreleased =>
    rw [hreached.createDecision_eq, raisesAs_releasing]
    exact .inl ⟨(raisesAs_guarded hclock _ _ _).mpr (.inl hinterrupted), hreleased⟩
  | release hreached hinterrupted hraises =>
    rw [hreached.createDecision_eq, raisesAs_releasing]
    exact .inr ⟨⟨_, (raisesAs_guarded hclock _ _ _).mpr (.inl hinterrupted)⟩,
      raisesAs_valueError.mpr ⟨_, hraises⟩⟩

/-- The catalog and the policy of a reservation are determined. -/
theorem AtReserve.unique {catalog catalog' : CatalogSnapshot} {policy policy' : RoutingPolicy}
    (h : p.AtReserve catalog policy) (h' : p.AtReserve catalog' policy') :
    catalog' = catalog ∧ policy' = policy :=
  ⟨Except.ok.inj (h'.loaded.symm.trans h.loaded), Option.some.inj (h'.known.symm.trans h.known)⟩

/-- Where every model is filtered out nothing interrupts the decision. -/
theorem not_interrupted {catalog : CatalogSnapshot} {policy : RoutingPolicy}
    {entry : String → Option Json} (hentry : p.signals = .ok entry)
    (hfiltered : ∀ model ∈ catalog.models,
      FilteredOut (p.storedSignals entry) (p.scanInput catalog policy) model)
    (isValueError : Bool) : ¬p.Interrupted catalog policy isValueError := by
  intro h
  cases h with
  | signals hsignals => cases hentry.symm.trans hsignals
  | signal hsignals hfirst =>
    cases hentry.symm.trans hsignals
    refine (firstRaises_none _ catalog.models).mpr ?_ isValueError hfirst
    exact fun model hmodel => (hfiltered model hmodel).not_raises
  | store hsignals _ hsome _ =>
    cases hentry.symm.trans hsignals
    obtain ⟨model, hmodel, hnot⟩ := hsome
    exact hnot (hfiltered model hmodel)

/-- The two do not happen at once. -/
theorem Unroutable.not_serverValueError (h : p.Unroutable) : ¬p.ServerValueError := by
  obtain ⟨catalog, policy, entry, hreached, hentry, hfiltered⟩ := h
  intro hserver
  cases hserver with
  | lookup _ hraises => cases hreached.unseen.symm.trans hraises
  | rpm _ hraises => cases hreached.rpm.symm.trans hraises
  | currentSpend _ _ hraises =>
    obtain ⟨spend, hspend, -⟩ := hreached.budget
    cases hspend.symm.trans hraises
  | catalog _ hraises =>
    have hread := (raisesAs_getSnapshot p.content).mpr hraises
    rw [hreached.loaded, raisesAs_ok] at hread
    exact hread
  | reserve _ hraises => cases hreached.slot.symm.trans hraises
  | interrupted hother hinterrupted _ =>
    obtain ⟨rfl, rfl⟩ := hreached.toAtReserve.unique hother.toAtReserve
    exact not_interrupted hentry hfiltered true hinterrupted
  | release hother hinterrupted _ =>
    obtain ⟨rfl, rfl⟩ := hreached.toAtReserve.unique hother.toAtReserve
    exact not_interrupted hentry hfiltered _ hinterrupted

/-- An unroutable request is answered 400, unless freeing the slot fails. -/
theorem Unroutable.answersBadRequest (hclock : p.rt.Monotonic) (h : p.Unroutable)
    (hreleased : p.released = .ok ()) : p.AnswersBadRequest := by
  obtain ⟨catalog, policy, entry, hreached, hentry, hfiltered⟩ := h
  rw [answersBadRequest_iff_raisesAs, hreached.createDecision_eq, raisesAs_releasing]
  exact .inl ⟨(raisesAs_guarded hclock _ _ _).mpr (.inr ⟨rfl, entry, hentry, hfiltered⟩), hreleased⟩

end Post

/-- **A 400 means an unroutable request exactly without a `ValueError` of the
server.** -/
theorem bad_request_means_unroutable_iff (p : Post Q) (hclock : p.rt.Monotonic) :
    (p.AnswersBadRequest → p.Unroutable) ↔ ¬p.ServerValueError := by
  rw [Post.answersBadRequest_iff_raisesAs]
  constructor
  · intro hmeans hserver
    exact (hmeans (hserver.raises hclock)).not_serverValueError hserver
  · intro hserver hraises
    exact (Post.raises_valueError hclock hraises).resolve_left hserver

/-! ### Two calls -/

/-- Takes the text of an integer for an `int`, and no text for a `float`. -/
def plainNumbers : NumberReader where
  intOfText := String.toInt?
  floatOfText _ := none
  intOfNonFinite _ := .error .valueError
  floatOfNonFinite _ := .error .valueError

/-- A first call with nothing in its way but the file and the request. -/
def labPost (content : FileContent) (request : RoutingDecisionRequest) : Post InMemoryQuota where
  deps := labDeps
  source := labSource
  registry := {}
  numbers := plainNumbers
  call := { principal := labAgent, request, idempotencyKey := none }
  existing := .ok none
  rpm := .ok ()
  currentSpend := .ok 0
  content
  uuid := "a"
  reserved := .ok ()
  signals := .ok fun _ => none
  rt := stillRuntime
  stored := .ok ()
  released := .ok ()

/-- No provider of the catalog is on the list. -/
def strangerRequest : RoutingDecisionRequest :=
  { longRequest with providerAllowlist := some ["elsewhere"] }

/-- With a budget of at most one the post gets as far as the catalog. -/
theorem labPost_atCatalog (content : FileContent) {request : RoutingDecisionRequest}
    (howner : request.agentId = labAgent.agentId) (hbudget : request.budgetLimitUsd ≤ 1) :
    (labPost content request).AtCatalog := by
  refine ⟨⟨howner.symm, rfl⟩, rfl, 0, rfl, ?_⟩
  show ¬labAgent.dailyBudgetUsd < 0 + request.budgetLimitUsd
  have hdaily : (1 : ℚ) ≤ labAgent.dailyBudgetUsd := by decide +kernel
  linarith

/-- No model survives the stranger's request. -/
theorem stranger_unroutable : (labPost (.ok cheapText) strangerRequest).Unroutable := by
  have hproviders : (labSource.getSnapshot (.ok cheapText) {}).2.toOption.map
      (fun catalog => catalog.models.map (·.provider)) = some ["lab"] := by decide +kernel
  cases hloaded : (labSource.getSnapshot (.ok cheapText) {}).2 with
  | error err =>
    rw [hloaded] at hproviders
    cases hproviders
  | ok catalog =>
    rw [hloaded] at hproviders
    refine ⟨catalog, balancedPolicy, fun _ => none,
      ⟨⟨labPost_atCatalog _ rfl (le_refl _), hloaded, rfl, rfl⟩, rfl⟩, rfl, ?_⟩
    intro model hmodel hreads
    have hlab : model.provider ∈ ["lab"] := by
      rw [← Option.some.inj hproviders]
      exact List.mem_map_of_mem hmodel
    have houtside : outsideAllowlist strangerRequest model = true := by
      unfold outsideAllowlist
      rw [List.mem_singleton.mp hlab]
      decide
    cases houtside.symm.trans hreads.1

/-- The stranger's request is answered 400, and nothing of the server's is at
fault. -/
theorem bad_request_means_unroutable_iff_stranger :
    (labPost (.ok cheapText) strangerRequest).AnswersBadRequest
      ∧ ¬(labPost (.ok cheapText) strangerRequest).ServerValueError := by
  refine ⟨stranger_unroutable.answersBadRequest stillRuntime_monotonic rfl, ?_⟩
  apply (bad_request_means_unroutable_iff (labPost (.ok cheapText) strangerRequest)
    stillRuntime_monotonic).mp
  exact fun _ => stranger_unroutable

/-- An empty catalog file is the caller's fault. -/
theorem empty_catalog_bad_request :
    (labPost (.ok "") longRequest).AnswersBadRequest
      ∧ ¬(labPost (.ok "") longRequest).Unroutable := by
  have hcheap : "" ≠ cheapText := by decide +kernel
  have hdear : "" ≠ dearText := by decide +kernel
  have hloads : labSource.loads "" = .error .jsonDecodeError := by
    unfold labSource
    dsimp only
    rw [if_neg hcheap, if_neg hdear]
  have hserver : (labPost (.ok "") longRequest).ServerValueError :=
    .catalog (labPost_atCatalog _ rfl (le_refl _)) (.json (.inl rfl) hloads rfl)
  exact ⟨Post.answersBadRequest_iff_raisesAs.mpr (hserver.raises stillRuntime_monotonic),
    fun h => h.not_serverValueError hserver⟩

end ControlPlane
