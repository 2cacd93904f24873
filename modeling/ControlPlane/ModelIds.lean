import ControlPlane.CatalogDocument
import ControlPlane.Ladder
import ControlPlane.ProbeRound

/-!
# What a model id names

`get_snapshot` gives a model the id `provider/model_name`. Signals are kept
under it, probe targets carry it, decisions list their candidates and
rejections by it. Both names are free, and a slash is common in a model's:
`a` with a model `b/c` and `a/b` with a model `c` make one id.

`model_ids_faithful_iff`: the ids of a document keep its models apart exactly
when no provider's name goes on, behind a slash, with the beginning of another
one's model. Then a probe history is a model's own, over any number of
rounds (`holds_probeRounds`), and a decision reads no other's.
-/

namespace ControlPlane

open Lib

/-! ## The names in a document -/

/-- `json.get(key, {}).items()`, where there are any. -/
def Json.members (json : Json) (key : String) : List (String × Json) :=
  match json.dict with
  | .error _ => []
  | .ok payload =>
    match (payload.get key (.object [])).dict with
    | .error _ => []
    | .ok entries => entries.items

/-- The providers and their models by name, as the document has them. -/
def documentNames (document : Json) : List (String × String) :=
  (document.members "providers").flatMap fun provider =>
    (provider.2.members "models").map fun model => (provider.1, model.1)

/-- A provider with a model `s/m`, and one named as it is up to a slash and
`s`, with a model `m`. -/
def Overlapping (names : List (String × String)) : Prop :=
  ∃ provider s model, (provider, s ++ "/" ++ model) ∈ names
    ∧ (provider ++ "/" ++ s, model) ∈ names

/-- The members of a key that holds a dictionary. -/
theorem members_eq {json : Json} {key : String} {payload entries : JsonDict}
    (hdict : json.dict = .ok payload)
    (hentries : (payload.get key (.object [])).dict = .ok entries) :
    json.members key = entries.items := by
  unfold Json.members
  rw [hdict]
  dsimp only
  rw [hentries]

/-- No name stands twice. -/
theorem nodup_members (json : Json) (key : String) : ((json.members key).map Prod.fst).Nodup := by
  unfold Json.members
  split
  next => exact List.nodup_nil
  next =>
    split
    next => exact List.nodup_nil
    next entries _ => exact entries.nodup

/-- Nor does a pair of names in a document. -/
theorem nodup_documentNames (document : Json) : (documentNames document).Nodup := by
  unfold documentNames
  rw [List.nodup_flatMap]
  constructor
  · intro provider _
    have hkeys := nodup_members provider.2 "models"
    have hmap : (provider.2.members "models").map (fun model => (provider.1, model.1))
        = ((provider.2.members "models").map Prod.fst).map (Prod.mk provider.1) := by
      rw [List.map_map]
      rfl
    rw [hmap]
    exact hkeys.map (Prod.mk_right_injective _)
  · have hproviders := nodup_members document "providers"
    rw [List.Nodup, List.pairwise_map] at hproviders
    refine hproviders.imp fun hne => ?_
    intro name hname hname'
    obtain ⟨_, -, rfl⟩ := List.mem_map.mp hname
    obtain ⟨_, -, heq⟩ := List.mem_map.mp hname'
    exact hne (Prod.mk.inj heq).1.symm

/-- A model's names are its keys in the document. -/
theorem parseModel_names {c : Coercions} {provider modelName : String} {providerInfo : JsonDict}
    {value : Json} {model : CatalogModel}
    (h : parseModel c provider providerInfo modelName value = .ok model) :
    model.provider = provider ∧ model.modelName = modelName
      ∧ model.modelId = provider ++ "/" ++ modelName := by
  unfold parseModel at h
  simp only [bind_eq_ok, validated_eq_ok] at h
  obtain ⟨modelInfo, -, inPrice, -, outPrice, -, capabilityInfo, -, capabilities, -, hmodel⟩ := h
  unfold Coercions.catalogModel at hmodel
  -- Sixteen fields are read on the way.
  iterate 16 obtain ⟨_, -, hmodel⟩ := Option.bind_eq_some_iff.mp hmodel
  cases hmodel
  exact ⟨rfl, rfl, rfl⟩

/-- A model's provider and its own name. -/
def CatalogModel.names (model : CatalogModel) : String × String :=
  (model.provider, model.modelName)

/-- The names of a parsed provider's models. -/
theorem ParsedProvider.names {c : Coercions} {entry : String × Json} {record : CatalogProvider}
    (h : ParsedProvider c entry record) :
    record.models.map CatalogModel.names
        = ((entry.2.members "models").map fun model => (entry.1, model.1))
      ∧ ∀ model ∈ record.models, model.provider = record.provider
          ∧ model.modelId = model.provider ++ "/" ++ model.modelName := by
  obtain ⟨hprovider, providerInfo, entries, hinfo, hentries, hmodels⟩ := h
  rw [members_eq hinfo hentries, hprovider]
  generalize entries.items = items at hmodels
  generalize record.models = models at hmodels
  induction hmodels with
  | nil => simp
  | cons hmodel _ ih =>
    obtain ⟨hname, hmodelName, hid⟩ := parseModel_names hmodel
    refine ⟨?_, List.forall_mem_cons.mpr ⟨⟨hname, ?_⟩, ih.2⟩⟩
    · rw [List.map_cons, List.map_cons, ih.1, CatalogModel.names, hname, hmodelName]
    · rw [hid, hname, hmodelName]

/-- **The models of a snapshot are the models of its document.** -/
theorem parseDocument_names {c : Coercions} {document : Json} {contents : CatalogContents}
    (h : parseDocument c document = .ok contents) :
    contents.models.map CatalogModel.names = documentNames document
      ∧ ∀ model ∈ contents.models, model.modelId = model.provider ++ "/" ++ model.modelName := by
  obtain ⟨hmodels, raw, entries, hraw, hentries, hproviders⟩ := parsedDocument h
  unfold documentNames
  rw [members_eq hraw hentries, hmodels]
  generalize entries.items = items at hproviders
  generalize contents.providers = providers at hproviders
  induction hproviders with
  | nil => simp
  | cons hprovider _ ih =>
    obtain ⟨hnames, hids⟩ := hprovider.names
    rw [List.flatMap_cons, List.flatMap_cons, List.map_append, hnames, ih.1]
    refine ⟨rfl, ?_⟩
    intro model hmodel
    rcases List.mem_append.mp hmodel with hmodel | hmodel
    · exact (hids model hmodel).2
    · exact ih.2 model hmodel

/-! ## Joined names -/

/-- Two pairs with one joined text split it at different slashes. -/
theorem joined_eq {p n p' n' : String} (h : p ++ "/" ++ n = p' ++ "/" ++ n')
    (hne : (p, n) ≠ (p', n')) :
    (∃ s, p' = p ++ "/" ++ s ∧ n = s ++ "/" ++ n')
      ∨ ∃ s, p = p' ++ "/" ++ s ∧ n' = s ++ "/" ++ n := by
  have hsplit : ∀ {a b c d : String} {cut : List Char}, c.toList = a.toList ++ cut →
      '/' :: b.toList = cut ++ '/' :: d.toList →
      (a = c ∧ b = d) ∨ ∃ s, c = a ++ "/" ++ s ∧ b = s ++ "/" ++ d := by
    intro a b c d cut hpre hrest
    cases cut with
    | nil =>
      refine .inl ⟨?_, ?_⟩
      · exact String.toList_inj.mp (hpre.trans (List.append_nil _)).symm
      · exact String.toList_inj.mp (List.cons.inj hrest).2
    | cons slash s =>
      obtain ⟨rfl, htail⟩ := List.cons.inj hrest
      refine .inr ⟨String.ofList s, ?_, ?_⟩
      · apply String.toList_inj.mp
        simp [hpre]
      · apply String.toList_inj.mp
        rw [htail]
        simp
  have hlist := congrArg String.toList h
  simp only [String.toList_append, List.append_assoc] at hlist
  rcases List.append_eq_append_iff.mp hlist with ⟨cut, hpre, hrest⟩ | ⟨cut, hpre, hrest⟩
  · rcases hsplit hpre hrest with ⟨rfl, rfl⟩ | hsome
    · exact absurd rfl hne
    · exact .inl hsome
  · rcases hsplit hpre hrest with ⟨rfl, rfl⟩ | hsome
    · exact absurd rfl hne
    · exact .inr hsome

/-- No two models of a snapshot share an id. -/
def DistinctIds (models : List CatalogModel) : Prop :=
  ∀ model ∈ models, ∀ other ∈ models, model.names ≠ other.names → model.modelId ≠ other.modelId

/-- Ids are apart where no two names overlap. -/
theorem distinctIds_iff {c : Coercions} {document : Json} {contents : CatalogContents}
    (h : parseDocument c document = .ok contents) :
    DistinctIds contents.models ↔ ¬Overlapping (documentNames document) := by
  obtain ⟨hnames, hids⟩ := parseDocument_names h
  have hmem : ∀ name, name ∈ documentNames document
      ↔ ∃ model ∈ contents.models, model.names = name := by
    intro name
    rw [← hnames, List.mem_map]
  constructor
  · intro hdistinct hoverlap
    obtain ⟨provider, s, modelName, hlong, hshort⟩ := hoverlap
    obtain ⟨model, hmodel, hmodelNames⟩ := (hmem _).mp hlong
    obtain ⟨other, hother, hotherNames⟩ := (hmem _).mp hshort
    obtain ⟨rfl, hmodelName⟩ := Prod.mk.inj hmodelNames
    obtain ⟨hprovider, rfl⟩ := Prod.mk.inj hotherNames
    refine hdistinct model hmodel other hother ?_ ?_
    · intro heq
      have hlength := congrArg (fun names : String × String => names.1.length) heq
      rw [hmodelNames, hotherNames] at hlength
      simp only [String.length_append] at hlength
      have hslash : "/".length = 1 := rfl
      omega
    · rw [hids model hmodel, hids other hother, hmodelName, hprovider]
      simp only [String.append_assoc]
  · intro hapart model hmodel other hother hne heq
    rw [hids model hmodel, hids other hother] at heq
    have hmodelMem := (hmem _).mpr ⟨model, hmodel, rfl⟩
    have hotherMem := (hmem _).mpr ⟨other, hother, rfl⟩
    unfold CatalogModel.names at hne hmodelMem hotherMem
    rcases joined_eq heq hne with ⟨s, hprovider, hname⟩ | ⟨s, hprovider, hname⟩
    · rw [hname] at hmodelMem
      rw [hprovider] at hotherMem
      exact hapart ⟨_, s, _, hmodelMem, hotherMem⟩
    · rw [hname] at hotherMem
      rw [hprovider] at hmodelMem
      exact hapart ⟨_, s, _, hotherMem, hmodelMem⟩

/-! ## Probe targets — `app/workers/probe_worker.py` -/

section Targets

-- `getattr(settings, …, None)`.
variable (setting : String → Option String)

/-- A provider's key, if one is configured. -/
def probeApiKey (provider : CatalogProvider) : Option String :=
  (provider.envKeyName.filter (· ≠ "")).bind fun name => (setting name).filter (· ≠ "")

/-- The target of one model. -/
def probeTarget (provider : CatalogProvider) (apiKey : String) (model : CatalogModel) :
    ProbeTarget where
  provider := provider.provider
  modelId := model.modelId
  target := buildProbePayload
    (if truthy model.probeEndpoint then model.probeEndpoint.getD "" else provider.baseUrl)
    model.modelName apiKey

/-- The targets of the providers that have a key. -/
def buildProbeTargets (snapshot : CatalogSnapshot) : List ProbeTarget :=
  snapshot.providers.flatMap fun provider =>
    match probeApiKey setting provider with
    | none => []
    | some apiKey => provider.models.map (probeTarget provider apiKey)

end Targets

/-! ## Probe histories -/

/-- A round of the probe worker. -/
structure ProbeRoundInput where
  clock : RoundClock
  measure : ProbeTarget → Measurement

/-- When the first round reads, or else `now`. -/
def firstRead (rounds : List ProbeRoundInput) (now : ℤ) : ℤ :=
  (rounds.head?.map (·.clock.readAt)).getD now

/-- Each round, and then a reader at `now`, finds what the round before wrote
while it lives. -/
def TimelyRounds : List ProbeRoundInput → ℤ → Prop
  | [], _ => True
  | round :: rounds, now =>
    (round.clock.writeAt ≤ firstRead rounds now
      ∧ firstRead rounds now < round.clock.writeAt + signalTtlSeconds) ∧ TimelyRounds rounds now

/-- What a target's own results make of what was stored for it. -/
def ownHistory (target : ProbeTarget) (previous : Option SignalEntry)
    (rounds : List ProbeRoundInput) : Option SignalEntry :=
  rounds.foldl (fun previous round =>
    some (smoothSignal (probeModel target.modelId target.provider (round.measure target))
      previous).entry) previous

section Histories

variable {S : Type} {store : SignalStore S}

/-- The store after some rounds. -/
def probeRounds (store : SignalStore S) (targets : List ProbeTarget)
    (rounds : List ProbeRoundInput) (s : S) : S :=
  rounds.foldl (fun s round => (probeLoopOnce store round.clock round.measure targets s).2) s

variable (view : SignalView store) {targets : List ProbeTarget} {now : ℤ}

/-- **A target's history is its own**: over any rounds, what the store holds
for it comes of its own results and of what it held at first. -/
theorem holds_probeRounds (hdistinct : (targets.map (·.modelId)).Nodup) {target : ProbeTarget}
    (htarget : target ∈ targets) {rounds : List ProbeRoundInput} (htimely : TimelyRounds rounds now)
    (s : S) :
    view.holds now (probeRounds store targets rounds s) target.modelId
      = ownHistory target (view.holds (firstRead rounds now) s target.modelId) rounds := by
  induction rounds generalizing s with
  | nil => rfl
  | cons round rounds ih =>
    obtain ⟨⟨hle, hlt⟩, hrest⟩ := htimely
    have hhistory := ih hrest (probeLoopOnce store round.clock round.measure targets s).2
    rw [round_target view hdistinct htarget hle hlt] at hhistory
    exact hhistory

/-- The signals of other models stay. -/
theorem holds_probeRounds_of_notMem {modelId : String} (h : modelId ∉ targets.map (·.modelId))
    (rounds : List ProbeRoundInput) (s : S) :
    view.holds now (probeRounds store targets rounds s) modelId = view.holds now s modelId := by
  induction rounds generalizing s with
  | nil => rfl
  | cons round rounds ih =>
    exact (ih (probeLoopOnce store round.clock round.measure targets s).2).trans
      (round_other view h)

end Histories

/-! ## Faithful ids -/

/-- The signals of a decision, as the store reports them. -/
def routingSignals {S : Type} (store : SignalStore S) (now : ℤ) (snapshot : CatalogSnapshot)
    (s : S) : SignalMap :=
  fun modelId =>
    (store.getSignals now (snapshot.models.map (·.modelId)) s modelId).map SignalEntry.signal

/-- What a model's own probes leave for it, or what there was if its provider
is not probed. -/
def ownSignal {S : Type} {store : SignalStore S} (view : SignalView store)
    (setting : String → Option String) (provider : CatalogProvider) (model : CatalogModel)
    (rounds : List ProbeRoundInput) (s : S) (now : ℤ) : Option SignalEntry :=
  match probeApiKey setting provider with
  | none => view.holds now s model.modelId
  | some apiKey =>
    ownHistory (probeTarget provider apiKey model)
      (view.holds (firstRead rounds now) s model.modelId) rounds

/-- One model of the catalog has that id, and it is of that provider. -/
def NamesOne (snapshot : CatalogSnapshot) (modelId provider : String) : Prop :=
  ∃ model ∈ snapshot.models, model.modelId = modelId ∧ model.provider = provider
    ∧ ∀ other ∈ snapshot.models, other.modelId = modelId → other.names = model.names

/-- **`model_id` is a faithful key** of a catalog. -/
structure FaithfulIds (snapshot : CatalogSnapshot) : Prop where
  distinct : DistinctIds snapshot.models
  /-- After any probing, a decision reads for a model what its own probes
  left. -/
  signals : ∀ {S : Type} {store : SignalStore S} (view : SignalView store)
    (setting : String → Option String) (rounds : List ProbeRoundInput) (s : S) (now : ℤ),
    TimelyRounds rounds now → ∀ provider ∈ snapshot.providers, ∀ model ∈ provider.models,
    ∀ request policy signalFreshnessSeconds rt,
      (scanInput request snapshot policy (routingSignals store now snapshot
          (probeRounds store (buildProbeTargets setting snapshot) rounds s))
        signalFreshnessSeconds rt).signal model
      = ((ownSignal view setting provider model rounds s now).getD {}).signal
  /-- What a decision lists is one model's. -/
  decisions : ∀ request policy signals signalFreshnessSeconds ttlSeconds rt response,
    calculateRoutingDecision request snapshot policy signals signalFreshnessSeconds ttlSeconds rt
      = .ok response →
    (∀ c ∈ response.candidates, NamesOne snapshot c.modelId c.provider)
      ∧ ∀ r ∈ response.rejections, NamesOne snapshot r.modelId r.provider

section Faithful

variable {snapshot : CatalogSnapshot}

/-- Then no id stands twice. -/
theorem nodup_modelIds (hdistinct : DistinctIds snapshot.models)
    (hnames : (snapshot.models.map CatalogModel.names).Nodup) :
    (snapshot.models.map (·.modelId)).Nodup := by
  rw [List.Nodup, List.pairwise_map] at hnames ⊢
  exact hnames.imp_of_mem fun hmodel hother hne => hdistinct _ hmodel _ hother hne

/-- The targets are models of the catalog. -/
theorem targets_sublist (setting : String → Option String) (providers : List CatalogProvider) :
    List.Sublist
      (providers.flatMap fun provider =>
        match probeApiKey setting provider with
        | none => []
        | some apiKey => (provider.models.map (probeTarget provider apiKey)).map (·.modelId))
      (providers.flatMap fun provider => provider.models.map (·.modelId)) := by
  induction providers with
  | nil => exact List.Sublist.slnil
  | cons provider providers ih =>
    rw [List.flatMap_cons, List.flatMap_cons]
    refine List.Sublist.append ?_ ih
    split
    next => exact List.nil_sublist _
    next =>
      rw [List.map_map]
      exact List.Sublist.refl _

/-- Probing keeps to the models there are, each once. -/
theorem nodup_targets (hmodels : snapshot.models = snapshot.providers.flatMap (·.models))
    (hids : (snapshot.models.map (·.modelId)).Nodup) (setting : String → Option String) :
    ((buildProbeTargets setting snapshot).map (·.modelId)).Nodup := by
  have hsub := targets_sublist setting snapshot.providers
  have htargets : (buildProbeTargets setting snapshot).map (·.modelId)
      = snapshot.providers.flatMap fun provider =>
        match probeApiKey setting provider with
        | none => []
        | some apiKey => (provider.models.map (probeTarget provider apiKey)).map (·.modelId) := by
    unfold buildProbeTargets
    rw [List.map_flatMap]
    congr 1
    funext provider
    split <;> rfl
  rw [htargets]
  refine hsub.nodup ?_
  rw [hmodels, List.map_flatMap] at hids
  exact hids

/-- A model whose provider has a key is a target. -/
theorem mem_buildProbeTargets {setting : String → Option String} {provider : CatalogProvider}
    {model : CatalogModel} {apiKey : String} (hprovider : provider ∈ snapshot.providers)
    (hmodel : model ∈ provider.models) (hkey : probeApiKey setting provider = some apiKey) :
    probeTarget provider apiKey model ∈ buildProbeTargets setting snapshot := by
  refine List.mem_flatMap.mpr ⟨provider, hprovider, ?_⟩
  rw [hkey]
  exact List.mem_map_of_mem hmodel

/-- A provider without a key has no target. -/
theorem notMem_buildProbeTargets {setting : String → Option String} {provider : CatalogProvider}
    {model : CatalogModel} (hmodels : snapshot.models = snapshot.providers.flatMap (·.models))
    (hids : (snapshot.models.map (·.modelId)).Nodup) (hprovider : provider ∈ snapshot.providers)
    (hmodel : model ∈ provider.models) (hkey : probeApiKey setting provider = none) :
    model.modelId ∉ (buildProbeTargets setting snapshot).map (·.modelId) := by
  intro hmem
  obtain ⟨target, htarget, hid⟩ := List.mem_map.mp hmem
  obtain ⟨other, hother, htarget⟩ := List.mem_flatMap.mp htarget
  rw [hmodels, List.map_flatMap, List.nodup_flatMap] at hids
  cases hotherKey : probeApiKey setting other with
  | none =>
    rw [hotherKey] at htarget
    exact absurd htarget List.not_mem_nil
  | some apiKey =>
    rw [hotherKey] at htarget
    obtain ⟨otherModel, hotherModel, rfl⟩ := List.mem_map.mp htarget
    have hne : provider ≠ other := by
      intro heq
      rw [heq, hotherKey] at hkey
      cases hkey
    have hsymm : Std.Symm (Function.onFun List.Disjoint fun provider : CatalogProvider =>
        provider.models.map (·.modelId)) := ⟨fun _ _ hdisjoint => hdisjoint.symm⟩
    have hdisjoint := hids.2.forall hprovider hother hne
    exact hdisjoint (List.mem_map_of_mem hmodel)
      (List.mem_map.mpr ⟨otherModel, hotherModel, hid⟩)

/-- A model's signal comes of its own probes. -/
theorem signal_own (hmodels : snapshot.models = snapshot.providers.flatMap (·.models))
    (hids : (snapshot.models.map (·.modelId)).Nodup) {S : Type} {store : SignalStore S}
    (view : SignalView store) (setting : String → Option String) (rounds : List ProbeRoundInput)
    (s : S) (now : ℤ) (htimely : TimelyRounds rounds now) {provider : CatalogProvider}
    (hprovider : provider ∈ snapshot.providers) {model : CatalogModel}
    (hmodel : model ∈ provider.models) :
    view.holds now (probeRounds store (buildProbeTargets setting snapshot) rounds s) model.modelId
      = ownSignal view setting provider model rounds s now := by
  unfold ownSignal
  cases hkey : probeApiKey setting provider with
  | none =>
    exact holds_probeRounds_of_notMem view
      (notMem_buildProbeTargets hmodels hids hprovider hmodel hkey) rounds s
  | some apiKey =>
    exact holds_probeRounds view (nodup_targets hmodels hids setting)
      (mem_buildProbeTargets hprovider hmodel hkey) htimely s

/-- An id that is apart names one model. -/
theorem namesOne_of_mem (hdistinct : DistinctIds snapshot.models) {model : CatalogModel}
    (hmodel : model ∈ snapshot.models) : NamesOne snapshot model.modelId model.provider := by
  refine ⟨model, hmodel, rfl, rfl, ?_⟩
  intro other hother hid
  by_contra hne
  exact hdistinct other hother model hmodel hne hid

/-- A rejection is of a model in the catalog. -/
theorem exists_of_mem_rejections {inp : ScanInput} {models : List CatalogModel}
    {rejection : DecisionRejection} (h : rejection ∈ (scan inp models).rejections) :
    ∃ model ∈ models, rejection.modelId = model.modelId ∧ rejection.provider = model.provider := by
  obtain ⟨fates, haccounted, hall, -, -⟩ := foldl_accounted inp models {}
  rw [scan, hall] at h
  obtain ⟨fate, hfate, hmem⟩ := List.mem_flatMap.mp h
  clear h hall
  induction haccounted with
  | nil => exact absurd hfate List.not_mem_nil
  | cons hmodel _ ih =>
    rcases List.mem_cons.mp hfate with rfl | hfate
    · cases fate with
      | rejected =>
        cases List.mem_singleton.mp hmem
        exact ⟨_, List.mem_cons_self, hmodel.1, hmodel.2.1⟩
      | survived => exact absurd hmem List.not_mem_nil
    · obtain ⟨model, hin, hids⟩ := ih hfate
      exact ⟨model, List.mem_cons_of_mem _ hin, hids⟩

/-- **Ids that are apart are faithful.** -/
theorem faithful_of_distinct (hmodels : snapshot.models = snapshot.providers.flatMap (·.models))
    (hnames : (snapshot.models.map CatalogModel.names).Nodup)
    (hdistinct : DistinctIds snapshot.models) : FaithfulIds snapshot where
  distinct := hdistinct
  signals := by
    intro S store view setting rounds s now htimely provider hprovider model hmodel request policy
      signalFreshnessSeconds rt
    have hmem : model.modelId ∈ snapshot.models.map (·.modelId) := by
      rw [hmodels]
      exact List.mem_map_of_mem (List.mem_flatMap.mpr ⟨provider, hprovider, hmodel⟩)
    have hown := signal_own hmodels (nodup_modelIds hdistinct hnames) view setting rounds s now
      htimely hprovider hmodel
    rw [← hown, ← view.get now _ _ _ hmem]
    unfold ScanInput.signal scanInput routingSignals
    dsimp only
    cases store.getSignals now (snapshot.models.map (·.modelId)) _ model.modelId with
    | none => rfl
    | some entry => rfl
  decisions := by
    intro request policy signals signalFreshnessSeconds ttlSeconds rt response hok
    obtain ⟨hcandidates, -, hrejections, -⟩ := calculateRoutingDecision_ok hok
    constructor
    · intro c hc
      rw [hcandidates] at hc
      obtain ⟨index, hindex, rfl⟩ := mem_ranked.mp hc
      have hsurvivor := List.mem_of_mem_take (List.getElem_mem hindex)
      have hmodel := List.mem_of_mem_filter ((mem_sortBy _).mp hsurvivor)
      exact namesOne_of_mem hdistinct hmodel
    · intro r hr
      rw [hrejections] at hr
      obtain ⟨model, hmodel, hid, hprovider⟩ := exists_of_mem_rejections hr
      rw [hid, hprovider]
      exact namesOne_of_mem hdistinct hmodel

end Faithful

/-- **Ids are faithful exactly where no two names overlap**, for every
document that parses. -/
theorem model_ids_faithful_iff (source : CatalogSource) (rawText : String) (document : Json)
    (snapshot : CatalogSnapshot) (hdocument : source.loads rawText = .ok document)
    (hload : source.file.load rawText = .ok snapshot) :
    FaithfulIds snapshot ↔ ¬Overlapping (documentNames document) := by
  obtain ⟨document', contents, hdocument', hparse, hproviders, hmodels⟩ := source.load_eq_ok hload
  obtain rfl := Except.ok.inj (hdocument.symm.trans hdocument')
  have hflat : snapshot.models = snapshot.providers.flatMap (·.models) := by
    rw [hproviders, hmodels]
    exact (parsedDocument hparse).models
  have hnames : (snapshot.models.map CatalogModel.names).Nodup := by
    rw [hmodels, (parseDocument_names hparse).1]
    exact nodup_documentNames document
  rw [← distinctIds_iff hparse, ← hmodels]
  exact ⟨fun h => h.distinct, faithful_of_distinct hflat hnames⟩

/-! ### Two documents -/

/-- A provider with one free model, written out. -/
def freeProviderText (provider model : String) : String :=
  "\"" ++ provider ++ "\": \x7b\"base_url\": \"https://example.invalid\", \"models\": \x7b\""
    ++ model ++ "\": \x7b\"in_price_1k\": 0, \"out_price_1k\": 0\x7d\x7d\x7d"

/-- The same as a document. -/
def freeProvider (provider model : String) : String × Json :=
  (provider, .object [("base_url", .string "https://example.invalid"), ("models", .object
    [(model, .object [("in_price_1k", .number 0), ("out_price_1k", .number 0)])])])

/-- A catalog of two providers, written out. -/
def providersText (first second : String) : String :=
  "\x7b\"providers\": \x7b" ++ first ++ ", " ++ second ++ "\x7d\x7d"

/-- Two providers with a model `c` each. -/
def apartText : String :=
  providersText (freeProviderText "a" "c") (freeProviderText "b" "c")

/-- The first text, parsed. -/
def apartDocument : Json :=
  .object [("providers", .object [freeProvider "a" "c", freeProvider "b" "c"])]

/-- A slash in a provider's name, and one in a model's. -/
def slashedText : String :=
  providersText (freeProviderText "a/b" "c") (freeProviderText "a" "b/c")

/-- The second text, parsed. -/
def slashedDocument : Json :=
  .object [("providers", .object [freeProvider "a/b" "c", freeProvider "a" "b/c"])]

/-- A file whose parser knows the two texts. -/
def providersSource : CatalogSource :=
  { labSource with
    loads := fun text =>
      if text = apartText then .ok apartDocument
      else if text = slashedText then .ok slashedDocument
      else .error .jsonDecodeError }

/-- What `providersSource` reads, by names and id. -/
def idsOf (text : String) : Option (List ((String × String) × String)) :=
  (providersSource.file.load text).toOption.map fun snapshot =>
    snapshot.models.map fun model => (model.names, model.modelId)

/-- A text's snapshot, with the ids it gives. -/
theorem exists_snapshot {text : String} {ids : List ((String × String) × String)}
    (h : idsOf text = some ids) : ∃ snapshot, providersSource.file.load text = .ok snapshot
      ∧ snapshot.models.map (fun model => (model.names, model.modelId)) = ids := by
  unfold idsOf at h
  cases hload : providersSource.file.load text with
  | error err =>
    rw [hload] at h
    cases h
  | ok snapshot =>
    rw [hload] at h
    exact ⟨snapshot, rfl, Option.some.inj h⟩

/-- The first document's names do not overlap. -/
theorem apart_not_overlapping : ¬Overlapping [("a", "c"), ("b", "c")] := by
  intro h
  obtain ⟨provider, s, model, -, hmem⟩ := h
  have hslash : ∀ name, '/' ∉ name.toList → provider ++ "/" ++ s ≠ name := by
    intro name hname heq
    apply hname
    rw [← heq]
    simp
  simp only [List.mem_cons, Prod.mk.injEq, List.not_mem_nil, or_false] at hmem
  rcases hmem with hmem | hmem
  · exact hslash "a" (by decide) hmem.1
  · exact hslash "b" (by decide) hmem.1

/-- So its ids are faithful. -/
theorem model_ids_faithful_iff_apart :
    ∃ snapshot, providersSource.file.load apartText = .ok snapshot ∧ FaithfulIds snapshot := by
  obtain ⟨snapshot, hload, -⟩ := exists_snapshot
    (show idsOf apartText = some [(("a", "c"), "a/c"), (("b", "c"), "b/c")] by decide +kernel)
  have hdocument : providersSource.loads apartText = .ok apartDocument := by simp [providersSource]
  have hnames : documentNames apartDocument = [("a", "c"), ("b", "c")] := by decide +kernel
  refine ⟨snapshot, hload, ?_⟩
  apply (model_ids_faithful_iff providersSource apartText apartDocument snapshot
    hdocument hload).mpr
  rw [hnames]
  exact apart_not_overlapping

/-- `a/b` with a model `c`, and `a` with a model `b/c`. -/
theorem slashed_names_clash :
    ∃ snapshot, providersSource.file.load slashedText = .ok snapshot ∧ ¬FaithfulIds snapshot := by
  obtain ⟨snapshot, hload, hids⟩ := exists_snapshot
    (show idsOf slashedText = some [(("a/b", "c"), "a/b/c"), (("a", "b/c"), "a/b/c")] by
      decide +kernel)
  refine ⟨snapshot, hload, fun hfaithful => ?_⟩
  obtain ⟨first, hfirst, hfirstIds⟩ := List.mem_map.mp
    (show (("a/b", "c"), "a/b/c") ∈ snapshot.models.map _ by
      rw [hids]
      exact List.mem_cons_self)
  obtain ⟨second, hsecond, hsecondIds⟩ := List.mem_map.mp
    (show (("a", "b/c"), "a/b/c") ∈ snapshot.models.map _ by
      rw [hids]
      exact List.mem_cons_of_mem _ List.mem_cons_self)
  obtain ⟨hfirstNames, hfirstId⟩ := Prod.mk.inj hfirstIds
  obtain ⟨hsecondNames, hsecondId⟩ := Prod.mk.inj hsecondIds
  refine hfaithful.distinct first hfirst second hsecond ?_ (hfirstId.trans hsecondId.symm)
  rw [hfirstNames, hsecondNames]
  decide

end ControlPlane
