import ControlPlane.CatalogVersions
import ControlPlane.Json
import ControlPlane.Lib.Checked

/-!
# The catalog document — `CatalogRegistry.get_snapshot`

A catalog file is decoded, parsed and walked provider by provider and model
by model; every record is a pydantic model and checks its fields. On the way
it may raise at each of these: the bytes, the JSON, a value that is no
dictionary where one is read, a missing price or address, a field that its
schema refuses.

The walk fills two lists, a provider's own and the catalog's
(`models_eq_flatMap`). Around it, the cache answers as reading the file from
scratch would (`catalog_cache_transparent`).

Mirroring notes:
- `sha256`, `json.loads` and what a pydantic field makes of a JSON value
  (`Coercions`) are parameters. A `float` is a rational.
- A file's content is what `read_text` gives for it, the text or what it
  raises.
- `describe` is `str(exc)`.
-/

namespace ControlPlane

open Lib

/-! ## Fields -/

/-- What a field of a type makes of a value; nothing where it refuses it. -/
structure Coercions where
  str : Json → Option String
  int : Json → Option ℤ
  float : Json → Option ℚ
  bool : Json → Option Bool

namespace Coercions

variable (c : Coercions)

/-- A `float` with a bound. -/
def floatWhere (p : ℚ → Prop) [DecidablePred p] (json : Json) : Option {q : ℚ // p q} :=
  (c.float json).bind fun q => if h : p q then some ⟨q, h⟩ else none

/-- An `int` with `ge`. -/
def intAtLeast (lo : ℕ) (json : Json) : Option {n : ℕ // lo ≤ n} :=
  (c.int json).bind fun z => if h : (lo : ℤ) ≤ z then some ⟨z.toNat, by omega⟩ else none

/-- `Optional[str]`. -/
def optStr : Json → Option (Option String)
  | .null => some none
  | json => (c.str json).map some

/-- `Optional[int]` with `ge`. -/
def optIntAtLeast (lo : ℕ) : Json → Option (Option {n : ℕ // lo ≤ n})
  | .null => some none
  | json => (c.intAtLeast lo json).map some

/-- `List[…]`. -/
def list {α : Type} (read : Json → Option α) : Json → Option (List α)
  | .array items => items.mapM read
  | _ => none

/-- `Dict[str, float]`. -/
def floats : Json → Option (List (String × ℚ))
  | .object fields =>
    (Dict.ofPairs fields).items.mapM fun (key, value) => (c.float value).map fun q => (key, q)
  | _ => none

/-- `PricingTier.model_validate`. -/
def pricingTier : Json → Option PricingTier
  | .object fields => do
    let tier : JsonDict := Dict.ofPairs fields
    let upto ← c.optIntAtLeast 1 (tier.get "upto_tokens" .null)
    let inPrice ← (tier.get? "in_price_1k").bind (c.floatWhere (0 ≤ ·))
    let outPrice ← (tier.get? "out_price_1k").bind (c.floatWhere (0 ≤ ·))
    return { uptoTokens := upto.map (·.1)
             inPrice1k := inPrice.1
             outPrice1k := outPrice.1
             uptoTokens_ge := by
               intro n hn
               obtain ⟨m, -, rfl⟩ := Option.map_eq_some_iff.mp hn
               exact m.2
             inPrice1k_ge := inPrice.2
             outPrice1k_ge := outPrice.2 }
  | _ => none

/-- `ModelCapabilities(…)`. -/
def modelCapabilities (modelName : String) (modelInfo capabilityInfo : JsonDict) :
    Option ModelCapabilities := do
  let vision ← c.bool
    (capabilityInfo.get "vision" (modelInfo.get "supports_vision" (.bool false)))
  let reasoning ← c.bool (capabilityInfo.get "reasoning"
    (if containsSub "reasoner".toList modelName.toList then .bool true
     else modelInfo.get "reasoning" (.bool false)))
  let toolCalling ← c.bool
    (capabilityInfo.get "tool_calling" (modelInfo.get "tool_calling" (.bool false)))
  let jsonMode ← c.bool (capabilityInfo.get "json_mode" (modelInfo.get "json_mode" (.bool false)))
  let supportedTaskTypes ← list c.str (capabilityInfo.get "supported_task_types"
    (modelInfo.get "supported_task_types"
      (modelInfo.get "supported_task_categories" (.array [.string "general_chat"]))))
  return { vision, reasoning, toolCalling, jsonMode, supportedTaskTypes }

/-- `CatalogModel(…)`. -/
def catalogModel (provider modelName : String) (providerInfo modelInfo : JsonDict)
    (inPrice1k outPrice1k : Json) (capabilities : ModelCapabilities) : Option CatalogModel := do
  let displayName ← c.str (modelInfo.get "display_name" (.string modelName))
  let inPrice ← c.floatWhere (0 ≤ ·) inPrice1k
  let outPrice ← c.floatWhere (0 ≤ ·) outPrice1k
  let pricingTiers ← list c.pricingTier (modelInfo.get "pricing_tiers" (.array []))
  let window ← c.intAtLeast 1 (modelInfo.get "context_window_tokens" (.number 8192))
  let ttfb ← c.intAtLeast 1 (modelInfo.get "ttfb_ms" (.number 900))
  let qps ← c.floatWhere (0 < ·) (modelInfo.get "qps" (.number 20))
  let accuracy ← c.floatWhere (fun q => 0 ≤ q ∧ q ≤ 1)
    (modelInfo.get "accuracy" (.number (72 / 100)))
  let hardCapacity ← c.floatWhere (1 ≤ ·)
    (modelInfo.get "hard_capacity_factor" (.number (115 / 100)))
  let coldStart ← c.intAtLeast 0 (modelInfo.get "cold_start_ms" (.number 0))
  let coldStartCost ← c.floatWhere (0 ≤ ·) (modelInfo.get "cold_start_cost_usd" (.number 0))
  let discount ← c.floatWhere (fun q => 0 ≤ q ∧ q ≤ 1)
    (modelInfo.get "long_text_discount_rate" (.number 0))
  let threshold ← c.intAtLeast 1 (modelInfo.get "long_text_threshold_tokens" (.number 16000))
  let premium ← c.floatWhere (0 ≤ ·) (modelInfo.get "concurrency_premium_rate" (.number 0))
  let burst ← c.floatWhere (fun q => 0 < q ∧ q ≤ 3 / 2)
    (modelInfo.get "burst_qps_threshold" (.number (85 / 100)))
  let probeEndpoint ← c.optStr
    (modelInfo.get "probe_endpoint" (providerInfo.get "base_url" .null))
  return { provider
           modelName
           modelId := provider ++ "/" ++ modelName
           displayName
           inPrice1k := inPrice.1
           outPrice1k := outPrice.1
           pricingTiers
           contextWindowTokens := window.1
           defaultTtfbMs := ttfb.1
           throughputHintQps := qps.1
           accuracy := accuracy.1
           hardCapacityFactor := hardCapacity.1
           capabilities
           coldStartMs := coldStart.1
           coldStartCostUsd := coldStartCost.1
           longTextDiscountRate := discount.1
           longTextThresholdTokens := threshold.1
           concurrencyPremiumRate := premium.1
           burstQpsThreshold := burst.1
           probeEndpoint
           inPrice1k_ge := inPrice.2
           outPrice1k_ge := outPrice.2
           contextWindowTokens_ge := window.2
           defaultTtfbMs_ge := ttfb.2
           throughputHintQps_gt := qps.2
           accuracy_ge := accuracy.2.1
           accuracy_le := accuracy.2.2
           hardCapacityFactor_ge := hardCapacity.2
           coldStartCostUsd_ge := coldStartCost.2
           longTextDiscountRate_ge := discount.2.1
           longTextDiscountRate_le := discount.2.2
           longTextThresholdTokens_ge := threshold.2
           concurrencyPremiumRate_ge := premium.2
           burstQpsThreshold_gt := burst.2.1
           burstQpsThreshold_le := burst.2.2 }

end Coercions

/-- Building a record from coerced fields, or the error that names it. -/
def validated {α : Type} (schema : String) : Option α → Except PyError α
  | some value => .ok value
  | none => .error (.validationError schema)

/-! ## The walk -/

section Walk

variable (c : Coercions)

/-- The body of the inner loop. -/
def parseModel (provider : String) (providerInfo : JsonDict) (modelName : String) (value : Json) :
    Except PyError CatalogModel := do
  let modelInfo ← value.dict
  let inPrice1k ← modelInfo.item "in_price_1k"
  let outPrice1k ← modelInfo.item "out_price_1k"
  -- Read before the prices, but it is asked for a key only now.
  let capabilityInfo ← (modelInfo.get "capabilities" (.object [])).dict
  let capabilities ← validated "ModelCapabilities"
    (c.modelCapabilities modelName modelInfo capabilityInfo)
  validated "CatalogModel"
    (c.catalogModel provider modelName providerInfo modelInfo inPrice1k outPrice1k capabilities)

/-- The inner loop, over `provider_models` and `models`. -/
def parseModels (provider : String) (providerInfo : JsonDict) :
    List (String × Json) → List CatalogModel → List CatalogModel →
      Except PyError (List CatalogModel × List CatalogModel)
  | [], providerModels, models => .ok (providerModels, models)
  | (modelName, value) :: rest, providerModels, models => do
    let model ← parseModel c provider providerInfo modelName value
    parseModels provider providerInfo rest (providerModels ++ [model]) (models ++ [model])

/-- The outer loop, over `providers` and `models`. -/
def parseProviders :
    List (String × Json) → List CatalogProvider → List CatalogModel →
      Except PyError (List CatalogProvider × List CatalogModel)
  | [], providers, models => .ok (providers, models)
  | (provider, value) :: rest, providers, models => do
    let providerInfo ← value.dict
    let entries ← (providerInfo.get "models" (.object [])).dict
    let (providerModels, models) ← parseModels c provider providerInfo entries.items [] models
    let baseUrl ← providerInfo.item "base_url"
    let record ← validated "CatalogProvider" do
      let displayName ← c.str (providerInfo.get "display_name" (.string provider))
      let baseUrl ← c.str baseUrl
      let envKeyName ← c.optStr (providerInfo.get "env_key_name" .null)
      return { provider, displayName, baseUrl, envKeyName, models := providerModels }
    parseProviders rest (providers ++ [record]) models

/-- `catalog_version`; a missing one is left to the checksum. -/
def readVersion (raw : JsonDict) : Option (Option String) :=
  match raw.get? "catalog_version" with
  | none => some none
  | some version => (c.str version).map some

/-- What stands behind `json.loads`. -/
def parseDocument (document : Json) : Except PyError CatalogContents := do
  let raw ← document.dict
  let entries ← (raw.get "providers" (.object [])).dict
  let (providers, models) ← parseProviders c entries.items [] []
  let scoringDefaults ← (raw.get "scoring_defaults" (.object [])).dict
  validated "CatalogSnapshot" do
    let catalogVersion ← readVersion c raw
    let normalizationBaseline ←
      c.floats (scoringDefaults.get "normalization_baseline" (.object []))
    return { catalogVersion, providers, models, normalizationBaseline }

end Walk

/-! ### What it fills -/

section Filled

variable {c : Coercions}

/-- The models of one provider are appended in document order. -/
theorem parseModels_append {provider : String} {providerInfo : JsonDict}
    {entries : List (String × Json)} {providerModels models : List CatalogModel}
    {filled : List CatalogModel × List CatalogModel}
    (h : parseModels c provider providerInfo entries providerModels models = .ok filled) :
    ∃ added, filled = (providerModels ++ added, models ++ added)
      ∧ List.Forall₂ (fun entry model => parseModel c provider providerInfo entry.1 entry.2
          = .ok model) entries added := by
  induction entries generalizing providerModels models with
  | nil =>
    cases h
    exact ⟨[], by simp, .nil⟩
  | cons entry entries ih =>
    obtain ⟨modelName, value⟩ := entry
    obtain ⟨model, hmodel, hrest⟩ := bind_eq_ok.mp h
    obtain ⟨added, rfl, hadded⟩ := ih hrest
    refine ⟨model :: added, ?_, .cons hmodel hadded⟩
    rw [List.append_assoc, List.append_assoc]
    rfl

/-- A provider's entry and the record made of it. -/
structure ParsedProvider (c : Coercions) (entry : String × Json) (record : CatalogProvider) :
    Prop where
  provider : record.provider = entry.1
  models : ∃ providerInfo entries, entry.2.dict = .ok providerInfo
    ∧ (providerInfo.get "models" (.object [])).dict = .ok entries
    ∧ List.Forall₂ (fun model record => parseModel c entry.1 providerInfo model.1 model.2
        = .ok record) entries.items record.models

/-- A schema passes what it reads. -/
theorem validated_eq_ok {α : Type} {schema : String} {read : Option α} {value : α} :
    validated schema read = .ok value ↔ read = some value := by
  cases read with
  | none => simp [validated]
  | some found => simp [validated]

/-- So are the providers, each with its models. -/
theorem parseProviders_append {entries : List (String × Json)} {providers : List CatalogProvider}
    {models : List CatalogModel} {filled : List CatalogProvider × List CatalogModel}
    (h : parseProviders c entries providers models = .ok filled) :
    ∃ added, filled = (providers ++ added, models ++ added.flatMap (·.models))
      ∧ List.Forall₂ (ParsedProvider c) entries added := by
  induction entries generalizing providers models with
  | nil =>
    cases h
    exact ⟨[], by simp, .nil⟩
  | cons entry entries ih =>
    obtain ⟨provider, value⟩ := entry
    unfold parseProviders at h
    simp only [bind_eq_ok, validated_eq_ok, Option.bind_eq_bind, Option.bind_eq_some_iff] at h
    obtain ⟨providerInfo, hinfo, modelEntries, hentries, filledModels, hmodels, baseUrl, -, record,
      ⟨displayName, -, address, -, envKeyName, -, hrecord⟩, hrest⟩ := h
    obtain ⟨parsed, rfl, hparsed⟩ := parseModels_append hmodels
    have hprovider : record.provider = provider := by
      cases hrecord
      rfl
    have hown : record.models = parsed := by
      cases hrecord
      rfl
    obtain ⟨added, rfl, hadded⟩ := ih hrest
    refine ⟨record :: added, ?_, .cons ⟨hprovider, ?_⟩ hadded⟩
    · rw [List.append_assoc, List.append_assoc, List.flatMap_cons, hown]
      rfl
    · exact ⟨providerInfo, modelEntries, hinfo, hentries, hown ▸ hparsed⟩

/-- What a document that parses holds. -/
structure ParsedDocument (c : Coercions) (document : Json) (contents : CatalogContents) : Prop where
  models : contents.models = contents.providers.flatMap (·.models)
  providers : ∃ raw entries, document.dict = .ok raw
    ∧ (raw.get "providers" (.object [])).dict = .ok entries
    ∧ List.Forall₂ (ParsedProvider c) entries.items contents.providers

/-- A parsed document is its providers and their models, in order. -/
theorem parsedDocument {document : Json} {contents : CatalogContents}
    (h : parseDocument c document = .ok contents) : ParsedDocument c document contents := by
  unfold parseDocument at h
  simp only [bind_eq_ok, validated_eq_ok, Option.bind_eq_bind, Option.bind_eq_some_iff] at h
  obtain ⟨raw, hraw, entries, hentries, filled, hfilled, scoring, -, version, -, baseline, -,
    hcontents⟩ := h
  obtain ⟨added, rfl, hadded⟩ := parseProviders_append hfilled
  cases hcontents
  exact ⟨rfl, raw, entries, hraw, hentries, hadded⟩

end Filled

/-! ### What it raises -/

/-- A value that is no dictionary, a missing key, a field its schema refuses. -/
inductive PyError.OfWalk : PyError → Prop
  | attributeError : OfWalk .attributeError
  | keyError (key : String) : OfWalk (.keyError key)
  | validationError (schema : String) : OfWalk (.validationError schema)

section Raised

variable {c : Coercions} {err : PyError}

/-- A value that is no mapping stops the walk. -/
theorem dict_raises {json : Json} (h : RaisesAs id json.dict err) : err.OfWalk := by
  cases json with
  | object fields => simp [Json.dict] at h
  | _ =>
    obtain rfl : PyError.attributeError = err := by simpa [Json.dict] using h
    exact .attributeError

/-- So does a missing key. -/
theorem item_raises {payload : JsonDict} {key : String} (h : RaisesAs id (payload.item key) err) :
    err.OfWalk := by
  unfold JsonDict.item at h
  split at h
  next => simp at h
  next =>
    obtain rfl : PyError.keyError key = err := by simpa using h
    exact .keyError key

/-- A schema that does not pass raises its `ValidationError`. -/
theorem validated_raises {α : Type} {schema : String} {read : Option α}
    (h : RaisesAs id (validated schema read) err) : err.OfWalk := by
  cases read with
  | some value => simp [validated] at h
  | none =>
    obtain rfl : PyError.validationError schema = err := by simpa [validated] using h
    exact .validationError schema

/-- One model raises nothing but these. -/
theorem parseModel_raises {provider : String} {providerInfo : JsonDict} {modelName : String}
    {value : Json} (h : RaisesAs id (parseModel c provider providerInfo modelName value) err) :
    err.OfWalk := by
  unfold parseModel at h
  refine h.of_bind dict_raises fun modelInfo h => ?_
  refine h.of_bind item_raises fun inPrice1k h => ?_
  refine h.of_bind item_raises fun outPrice1k h => ?_
  refine h.of_bind dict_raises fun capabilityInfo h => ?_
  exact h.of_bind validated_raises fun capabilities => validated_raises

/-- Nor do the models of a provider. -/
theorem parseModels_raises {provider : String} {providerInfo : JsonDict}
    {entries : List (String × Json)} {providerModels models : List CatalogModel}
    (h : RaisesAs id (parseModels c provider providerInfo entries providerModels models) err) :
    err.OfWalk := by
  induction entries generalizing providerModels models with
  | nil => simp [parseModels] at h
  | cons entry entries ih =>
    unfold parseModels at h
    exact h.of_bind parseModel_raises fun model => ih

/-- Nor do the providers. -/
theorem parseProviders_raises {entries : List (String × Json)} {providers : List CatalogProvider}
    {models : List CatalogModel} (h : RaisesAs id (parseProviders c entries providers models) err) :
    err.OfWalk := by
  induction entries generalizing providers models with
  | nil => simp [parseProviders] at h
  | cons entry entries ih =>
    unfold parseProviders at h
    refine h.of_bind dict_raises fun providerInfo h => ?_
    refine h.of_bind dict_raises fun modelEntries h => ?_
    refine h.of_bind parseModels_raises fun filled h => ?_
    refine h.of_bind item_raises fun baseUrl h => ?_
    exact h.of_bind validated_raises fun record => ih

/-- Nor does the document: these are the only exceptions of the walk. -/
theorem parseDocument_raises {document : Json} (h : RaisesAs id (parseDocument c document) err) :
    err.OfWalk := by
  unfold parseDocument at h
  refine h.of_bind dict_raises fun raw h => ?_
  refine h.of_bind dict_raises fun entries h => ?_
  refine h.of_bind parseProviders_raises fun filled h => ?_
  exact h.of_bind dict_raises fun scoringDefaults => validated_raises

/-- Of what the walk raises, a refused field alone is a `ValueError`. -/
theorem PyError.OfWalk.eq_validationError (h : err.OfWalk) (hclass : err.isValueError = true) :
    ∃ schema, err = .validationError schema := by
  cases h with
  | attributeError => cases hclass
  | keyError key => cases hclass
  | validationError schema => exact ⟨schema, rfl⟩

end Raised

/-! ## The file -/

/-- The error as it leaves the service. -/
def PyError.toServiceError (describe : PyError → String) (err : PyError) : ServiceError :=
  if err.isValueError then .valueError (describe err)
  else
    match err with
    | .keyError key => .lookupError key
    | _ => .unavailable

/-- Where the catalog comes from, with the parts that Python supplies. -/
structure CatalogSource where
  configPath : String
  sha256 : String → String
  loads : String → Except PyError Json
  coercions : Coercions
  describe : PyError → String

/-- What `read_text` gives for the file. -/
abbrev FileContent := Except PyError String

namespace CatalogSource

variable (source : CatalogSource)

/-- The text as JSON, then as a catalog. -/
def parse (rawText : String) : Except PyError CatalogContents := do
  let document ← source.loads rawText
  parseDocument source.coercions document

/-- The file that the registry reads. -/
def file : CatalogFile where
  configPath := source.configPath
  sha256 := source.sha256
  parse rawText := (source.parse rawText).mapError (·.toServiceError source.describe)

/-- `get_snapshot` on a file with that content. -/
def getSnapshot (content : FileContent) (registry : CatalogRegistry) :
    CatalogRegistry × Except ServiceError CatalogSnapshot :=
  match content with
  | .error err => (registry, .error (err.toServiceError source.describe))
  | .ok rawText => registry.getSnapshot source.file rawText

/-- The same with nothing in the cache. -/
def fromScratch (content : FileContent) : Except ServiceError CatalogSnapshot :=
  (source.getSnapshot content {}).2

end CatalogSource

/-! ## The cache -/

/-- A call that raises leaves the cache alone. -/
theorem CatalogRegistry.getSnapshot_error {file : CatalogFile} {rawText : String}
    {registry : CatalogRegistry} {err : ServiceError}
    (h : (registry.getSnapshot file rawText).2 = .error err) :
    (registry.getSnapshot file rawText).1 = registry := by
  have hreload : (registry.reload file rawText).2 = .error err →
      (registry.reload file rawText).1 = registry := by
    intro herror
    unfold CatalogRegistry.reload at herror ⊢
    cases hload : file.load rawText with
    | error err => rfl
    | ok snapshot =>
      rw [hload] at herror
      cases herror
  unfold CatalogRegistry.getSnapshot at h ⊢
  split
  next snapshot hsnapshot =>
    rw [hsnapshot] at h
    dsimp only at h
    split
    next => rfl
    next hchecksum =>
      rw [if_neg hchecksum] at h
      exact hreload h
  next hnone =>
    rw [hnone] at h
    exact hreload h

/-- What a snapshot that was loaded holds. -/
theorem CatalogSource.load_eq_ok {source : CatalogSource} {rawText : String}
    {snapshot : CatalogSnapshot} (h : source.file.load rawText = .ok snapshot) :
    ∃ document contents, source.loads rawText = .ok document
      ∧ parseDocument source.coercions document = .ok contents
      ∧ snapshot.providers = contents.providers ∧ snapshot.models = contents.models := by
  unfold CatalogFile.load CatalogSource.file at h
  dsimp only at h
  cases hparse : source.parse rawText with
  | error err =>
    rw [hparse] at h
    cases h
  | ok contents =>
    rw [hparse] at h
    obtain ⟨document, hdocument, hcontents⟩ := bind_eq_ok.mp hparse
    cases h
    exact ⟨document, contents, hdocument, hcontents, rfl, rfl⟩

/-- The texts among some contents. -/
def textsOf (contents : List FileContent) : List String :=
  contents.filterMap Except.toOption

/-- Content that reads is among the texts. -/
theorem mem_textsOf {contents : List FileContent} {text : String}
    (h : (.ok text : FileContent) ∈ contents) : text ∈ textsOf contents :=
  List.mem_filterMap.mpr ⟨_, h, rfl⟩

/-- A registry of parsed texts still is one after the next read. -/
theorem CatalogRegistry.Holds.getSnapshotOf {source : CatalogSource} {contents : List FileContent}
    {registry : CatalogRegistry} (h : registry.Holds source.file (textsOf contents))
    (hsha : ∀ text ∈ textsOf contents, ∀ text' ∈ textsOf contents,
      source.sha256 text = source.sha256 text' → text = text')
    {content : FileContent} (hcontent : content ∈ contents) :
    (source.getSnapshot content registry).2 = source.fromScratch content
      ∧ (source.getSnapshot content registry).1.Holds source.file (textsOf contents) := by
  cases content with
  | error err => exact ⟨rfl, h⟩
  | ok text =>
    have hempty : ({} : CatalogRegistry).Holds source.file (textsOf contents) := nofun
    obtain ⟨hreply, hnext⟩ := h.getSnapshot hsha (mem_textsOf hcontent)
    exact ⟨hreply.trans (hempty.getSnapshot hsha (mem_textsOf hcontent)).1.symm, hnext⟩

/-- A read that raises changes nothing. -/
theorem CatalogSource.getSnapshot_error {source : CatalogSource} {content : FileContent}
    {registry : CatalogRegistry} {err : ServiceError}
    (h : (source.getSnapshot content registry).2 = .error err) :
    (source.getSnapshot content registry).1 = registry := by
  cases content with
  | error err => rfl
  | ok text => exact CatalogRegistry.getSnapshot_error h

/-- The flat list of models is that of the providers. -/
theorem CatalogSource.models_of_fromScratch {source : CatalogSource} {content : FileContent}
    {snapshot : CatalogSnapshot} (h : source.fromScratch content = .ok snapshot) :
    snapshot.models = snapshot.providers.flatMap (·.models) := by
  cases content with
  | error err => cases h
  | ok text =>
    have hload : source.file.load text = .ok snapshot := by
      have hread := ({} : CatalogRegistry).getSnapshot_cases source.file text
        (P := fun read => source.file.load text = .ok read) nofun fun _ => id
      exact hread.1 snapshot h
    obtain ⟨document, parsed, -, hparsed, hproviders, hmodels⟩ := source.load_eq_ok hload
    rw [hproviders, hmodels]
    exact (parsedDocument hparsed).models

/-- **The catalog cache is transparent.** Whatever the file holds at each
call, well formed or not, as long as no two of its texts share a digest: each
call answers as reading the file from scratch would, one that raises leaves
the cache as it was, and what is returned has for its models the providers'
models, in order. -/
theorem catalog_cache_transparent (source : CatalogSource) (contents : List FileContent)
    (hsha : ∀ text ∈ textsOf contents, ∀ text' ∈ textsOf contents,
      source.sha256 text = source.sha256 text' → text = text') :
    let answers := replies (fun registry content => source.getSnapshot content registry) {} contents
    (answers = contents.map fun content => (content, source.fromScratch content))
      ∧ (∀ registry content err, (source.getSnapshot content registry).2 = .error err →
          (source.getSnapshot content registry).1 = registry)
      ∧ ∀ answer ∈ answers, ∀ snapshot, answer.2 = .ok snapshot →
          snapshot.models = snapshot.providers.flatMap (·.models) := by
  intro answers
  have hanswers : answers = contents.map fun content => (content, source.fromScratch content) := by
    rw [← replies_stateless]
    refine replies_eq (I := fun registry _ calls =>
      registry.Holds source.file (textsOf contents) ∧ calls ⊆ contents) ?_
      ⟨nofun, List.Subset.refl _⟩
    intro registry _ content calls hI
    obtain ⟨hholds, hsub⟩ := hI
    obtain ⟨hreply, hnext⟩ := hholds.getSnapshotOf hsha (hsub List.mem_cons_self)
    exact ⟨hreply, hnext, List.Subset.trans (List.subset_cons_self _ _) hsub⟩
  refine ⟨hanswers, fun _ _ _ => CatalogSource.getSnapshot_error, ?_⟩
  intro answer hanswer snapshot hsnapshot
  rw [hanswers] at hanswer
  obtain ⟨content, -, rfl⟩ := List.mem_map.mp hanswer
  exact CatalogSource.models_of_fromScratch hsnapshot

/-! ### A file that is edited, broken and mended -/

/-- Fields that take a value of their own type only. -/
def strictCoercions : Coercions where
  str
    | .string s => some s
    | _ => none
  int
    | .number q => if q.den = 1 then some q.num else none
    | _ => none
  float
    | .number q => some q
    | _ => none
  bool
    | .bool b => some b
    | _ => none

/-- The document of `catalogText`. -/
def catalogDocument (version : String) (price : ℚ) : Json :=
  .object [("catalog_version", .string version), ("providers", .object [("lab", .object
    [("base_url", .string "lab"), ("models", .object [("b", .object
      [("in_price_1k", .number price), ("out_price_1k", .number 0)])])])])]

/-- The lab's file. A text that is neither catalog is no JSON. -/
def labSource : CatalogSource where
  configPath := "models_config.json"
  sha256 := labFile.sha256
  loads text :=
    if text = cheapText then .ok (catalogDocument "test-catalog" (3 / 1000))
    else if text = dearText then .ok (catalogDocument "test-catalog" (6 / 1000))
    else .error .jsonDecodeError
  coercions := strictCoercions
  describe _ := "Expecting value: line 1 column 1 (char 0)"

/-- The catalog, an empty file, the catalog, a file that does not decode, and
the catalog edited. -/
def editedContents : List FileContent :=
  [.ok cheapText, .ok "", .ok cheapText, .error .unicodeDecodeError, .ok dearText]

/-- Each read answers as a fresh registry would, and an edit is seen. -/
theorem catalog_cache_transparent_edited :
    let answers := replies (fun registry content => labSource.getSnapshot content registry) {}
      editedContents
    answers = (editedContents.map fun content => (content, labSource.fromScratch content))
      ∧ answers.map (fun answer => (answer.2.toOption.map fun snapshot =>
          snapshot.models.map (·.inPrice1k)))
        = [some [3 / 1000], none, some [3 / 1000], none, some [6 / 1000]] := by
  obtain ⟨hanswers, -, -⟩ := catalog_cache_transparent labSource editedContents (by decide +kernel)
  refine ⟨hanswers, ?_⟩
  rw [hanswers]
  decide +kernel

end ControlPlane
