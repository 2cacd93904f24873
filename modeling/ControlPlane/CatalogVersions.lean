import ControlPlane.Isolation
import ControlPlane.Lib.Serving

/-!
# The catalog a version stands for — `CatalogRegistry`

`get_snapshot` reads the catalog file at every decision and keeps the last
snapshot under the checksum of the text. The version comes from the text
itself, and `ensure_catalog_version` keeps the row a version has. So a file
edited without a new version is priced from, and recorded nowhere
(`edited_without_new_version`).

`version_identifies_catalog`: as long as no two texts that are read share a
version and differ, the row of a version is the catalog every decision of
that version was priced from.

Mirroring notes:
- `sha256` and the reading of the JSON text into models are parameters: what
  is read depends on the text alone.
- The text is part of a step's environment; the file may be edited between
  any two steps.
- `priced` is a record of the run. No step reads it.
-/

namespace ControlPlane

open Lib

/-! ## Reading the file -/

/-- What the JSON text holds; `catalog_version` may be missing. -/
structure CatalogContents where
  catalogVersion : Option String
  providers : List CatalogProvider := []
  models : List CatalogModel
  normalizationBaseline : List (String × ℚ) := []

/-- The catalog file as the registry reads it. -/
structure CatalogFile where
  configPath : String
  sha256 : String → String
  parse : String → Except ServiceError CatalogContents

/-- The snapshot of a text that is not in the cache. -/
def CatalogFile.load (file : CatalogFile) (rawText : String) :
    Except ServiceError CatalogSnapshot :=
  (file.parse rawText).map fun contents =>
    let checksum := file.sha256 rawText
    { version := contents.catalogVersion.getD (String.ofList (checksum.toList.take 12))
      checksum
      source := file.configPath
      providers := contents.providers
      models := contents.models
      normalizationBaseline := contents.normalizationBaseline }

/-- `_snapshot` and `_checksum`. -/
structure CatalogRegistry where
  snapshot : Option CatalogSnapshot := none
  checksum : Option String := none

/-- `CatalogRegistry.reload`. -/
def CatalogRegistry.reload (file : CatalogFile) (rawText : String) (registry : CatalogRegistry) :
    CatalogRegistry × Except ServiceError CatalogSnapshot :=
  match file.load rawText with
  | .error err => (registry, .error err)
  | .ok snapshot =>
    ({ snapshot := some snapshot, checksum := some (file.sha256 rawText) }, .ok snapshot)

/-- `CatalogRegistry.get_snapshot`. -/
def CatalogRegistry.getSnapshot (file : CatalogFile) (rawText : String)
    (registry : CatalogRegistry) : CatalogRegistry × Except ServiceError CatalogSnapshot :=
  match registry.snapshot with
  | some snapshot =>
    if registry.checksum = some (file.sha256 rawText) then (registry, .ok snapshot)
    else registry.reload file rawText
  | none => registry.reload file rawText

/-- A read gives the snapshot in the cache or that of the text, and leaves in
the cache what was there or that of the text. -/
theorem CatalogRegistry.getSnapshot_cases (file : CatalogFile) (rawText : String)
    (registry : CatalogRegistry) {P : CatalogSnapshot → Prop}
    (hcached : ∀ catalog, registry.snapshot = some catalog → P catalog)
    (hload : ∀ catalog, file.load rawText = .ok catalog → P catalog) :
    (∀ catalog, (registry.getSnapshot file rawText).2 = .ok catalog → P catalog)
      ∧ ∀ catalog, (registry.getSnapshot file rawText).1.snapshot = some catalog → P catalog := by
  have hreload : (∀ catalog, (registry.reload file rawText).2 = .ok catalog → P catalog)
      ∧ ∀ catalog, (registry.reload file rawText).1.snapshot = some catalog → P catalog := by
    unfold reload
    cases hread : file.load rawText with
    | error err => exact ⟨nofun, hcached⟩
    | ok snapshot =>
      refine ⟨?_, ?_⟩
      · intro catalog hcatalog
        exact hload catalog (hread.trans hcatalog)
      · intro catalog hcatalog
        exact hload catalog (Option.some.inj hcatalog ▸ hread)
  unfold getSnapshot
  split
  next snapshot hsnapshot =>
    split
    next =>
      refine ⟨?_, hcached⟩
      intro catalog hcatalog
      exact hcached catalog (Except.ok.inj hcatalog ▸ hsnapshot)
    next => exact hreload
  next => exact hreload

/-- What the cache holds is what some text it has read holds. -/
def CatalogRegistry.Holds (file : CatalogFile) (texts : List String)
    (registry : CatalogRegistry) : Prop :=
  ∀ snapshot, registry.snapshot = some snapshot →
    ∃ text ∈ texts, registry.checksum = some (file.sha256 text) ∧ file.load text = .ok snapshot

/-- As long as no two of the texts share a checksum, a read gives what its
text holds. -/
theorem CatalogRegistry.Holds.getSnapshot {file : CatalogFile} {texts : List String}
    {registry : CatalogRegistry} (h : registry.Holds file texts)
    (hsha : ∀ text ∈ texts, ∀ text' ∈ texts, file.sha256 text = file.sha256 text' → text = text')
    {text : String} (htext : text ∈ texts) :
    (registry.getSnapshot file text).2 = file.load text
      ∧ (registry.getSnapshot file text).1.Holds file texts := by
  have hreload : (registry.reload file text).2 = file.load text
      ∧ (registry.reload file text).1.Holds file texts := by
    unfold CatalogRegistry.reload
    cases hload : file.load text with
    | error err => exact ⟨rfl, h⟩
    | ok snapshot =>
      refine ⟨rfl, ?_⟩
      intro snapshot' hsnapshot'
      obtain rfl := Option.some.inj hsnapshot'
      exact ⟨text, htext, rfl, hload⟩
  unfold CatalogRegistry.getSnapshot
  split
  next snapshot hsnapshot =>
    split
    next hchecksum =>
      obtain ⟨cached, hcached, hsame, hload⟩ := h snapshot hsnapshot
      obtain rfl := hsha text htext cached hcached (Option.some.inj (hchecksum.symm.trans hsame))
      exact ⟨hload.symm, h⟩
    next => exact hreload
  next => exact hreload

/-! ## The control plane over an edited file -/

variable {Q : Type}

/-- The service and the catalog file, which someone edits. -/
structure EditingWorld (Q : Type) where
  world : World Q
  registry : CatalogRegistry := {}
  priced : List (String × CatalogSnapshot) := []

/-- What a step reads, with the text of the file at that instant. -/
structure EditingEnv where
  env : Env
  rawText : String

/-- The step comes to `get_snapshot`: the spend has been read and is within
the budget. -/
def readsCatalog (D : Deps Q) (env : Env) (w : World Q) : Task → Bool
  | .create call .currentSpend =>
    env.fault = .returns ∧ ¬ call.principal.dailyBudgetUsd
      < D.quotaManager.currentDailySpend env.clock call.principal w.quota
        + call.request.budgetLimitUsd
  | _ => false

/-- The decision a step prices, and the catalog it prices it from. -/
def pricing : Task → Task → Option (String × CatalogSnapshot)
  | .create _ (.getSignals catalog _ decisionId), .create _ (.storeDecision _) =>
    some (decisionId, catalog)
  | _, _ => none

/-- The service while its catalog file is edited. -/
def editing (D : Deps Q) (file : CatalogFile) : System (EditingWorld Q) Task EditingEnv where
  advance e s t :=
    let read := s.registry.getSnapshot file e.rawText
    ((controlPlane D).advance { e.env with catalog := read.2 } s.world t).map fun next =>
      (⟨next.1, if readsCatalog D e.env s.world t then read.1 else s.registry,
        s.priced ++ (pricing t next.2).toList⟩, next.2)

/-! ## What a step does to the catalogs -/

/-- The catalog a call has read and not priced from yet. -/
def Task.catalog : Task → Option CatalogSnapshot
  | create _ (.ensureCatalog catalog _) => some catalog
  | create _ (.ensurePolicies catalog _) => some catalog
  | create _ (.reserve catalog _ _) => some catalog
  | create _ (.getSignals catalog _ _) => some catalog
  | _ => none

section Step

variable {D : Deps Q} {env : Env} {w w' : World Q} {t t' : Task}

/-- What was admitted was priced with the catalog that was read. -/
theorem admission_ok {catalog : Except ServiceError CatalogSnapshot} {call : CreateCall}
    {currentSpend : ℚ} {read : CatalogSnapshot} {policy : RoutingPolicy}
    (h : admission D catalog call currentSpend = .ok (read, policy)) :
    ¬ call.principal.dailyBudgetUsd < currentSpend + call.request.budgetLimitUsd
      ∧ catalog = .ok read := by
  unfold admission at h
  split at h
  next => cases h
  next hbudget =>
    refine ⟨hbudget, ?_⟩
    split at h
    next => cases h
    next catalog =>
      dsimp only at h
      split at h
      next => cases h
      next =>
        split at h
        next => cases h
        next => exact congrArg Except.ok (Prod.mk.inj (Except.ok.inj h)).1

/-- A call's catalog is the one it had, or the one it reads now. -/
theorem catalog_of_advance (h : (controlPlane D).advance env w t = some (w', t'))
    {catalog : CatalogSnapshot} (hcatalog : t'.catalog = some catalog) :
    t.catalog = some catalog ∨ (readsCatalog D env w t = true ∧ env.catalog = .ok catalog) := by
  rcases advance_cases h with ⟨call, pc, pc', rfl, rfl, hstep⟩ | ⟨call, pc, pc', rfl, rfl, hstep⟩
  · cases hstep with
    | admitted hf hadmitted =>
      obtain ⟨hbudget, hread⟩ := admission_ok hadmitted
      obtain rfl := Option.some.inj hcatalog
      exact .inr ⟨by simp [readsCatalog, hf, hbudget], hread⟩
    | _ => first | exact .inl hcatalog | cases hcatalog
  · cases hcatalog

/-- The rows of the versions are those there were, or the call's own catalog
has been ensured. -/
theorem catalogVersions_of_advance (h : (controlPlane D).advance env w t = some (w', t')) :
    w'.tables.catalogVersions = w.tables.catalogVersions
      ∨ ∃ catalog, t.catalog = some catalog ∧ w'.tables.catalogVersions
        = (ensureCatalogVersion catalog w.tables).catalogVersions := by
  rcases advance_cases h with ⟨call, pc, pc', rfl, rfl, hstep⟩ | ⟨call, pc, pc', rfl, rfl, hstep⟩
  · cases hstep with
    | catalogKept => exact .inr ⟨_, rfl, rfl⟩
    | metadataSkipped _ htables =>
      rcases htables with rfl | rfl
      · exact .inl rfl
      · exact .inr ⟨_, rfl, rfl⟩
    | policiesKept htables => rcases htables with rfl | rfl <;> exact .inl rfl
    | releaseRaised _ hw => rcases hw with rfl | rfl <;> exact .inl rfl
    | stored _ hins => exact .inl (by rw [(createDecision_ok hins).1])
    | storeLost _ hins => exact .inl (by rw [(createDecision_ok hins).1])
    | _ => exact .inl rfl
  · cases hstep with
    | storeLost _ hrec =>
      rcases recordOutcome_rowStep hrec with ⟨rfl, -⟩ | ⟨_, -, -, rfl, -⟩ <;> exact .inl rfl
    | recorded _ hrec =>
      rcases recordOutcome_rowStep hrec with ⟨rfl, -⟩ | ⟨_, -, -, rfl, -⟩ <;> exact .inl rfl
    | duplicate _ hrec =>
      rcases recordOutcome_rowStep hrec with ⟨rfl, -⟩ | ⟨_, -, -, rfl, -⟩ <;> exact .inl rfl
    | releaseRaised _ hw => rcases hw with rfl | rfl <;> exact .inl rfl
    | spendRaised _ hw => rcases hw with rfl | rfl <;> exact .inl rfl
    | _ => exact .inl rfl

/-- A version row is an old one, or the snapshot's own. -/
theorem mem_ensureCatalogVersion {catalog : CatalogSnapshot} {tables : Tables}
    {row : ModelCatalogVersion} (h : row ∈ (ensureCatalogVersion catalog tables).catalogVersions) :
    row ∈ tables.catalogVersions
      ∨ row.version = catalog.version ∧ row.checksum = catalog.checksum
        ∧ row.snapshot = catalog := by
  unfold ensureCatalogVersion at h
  split at h
  next => exact .inl h
  next =>
    rcases List.mem_append.mp h with hold | hnew
    · exact .inl hold
    · obtain rfl := List.mem_singleton.mp hnew
      exact .inr ⟨rfl, rfl, rfl⟩

/-- A call comes to store by pricing, and what it stores has the version of
the catalog it is priced from. -/
theorem pricing_of_advance (h : (controlPlane D).advance env w t = some (w', t')) :
    (pricing t t' = none ∧ ∀ call response, t' ≠ .create call (.storeDecision response))
      ∨ ∃ call catalog policy decisionId response,
        t = .create call (.getSignals catalog policy decisionId)
        ∧ t' = .create call (.storeDecision response) ∧ pricing t t' = some (decisionId, catalog)
        ∧ response.decisionId = decisionId ∧ response.catalogVersion = catalog.version := by
  rcases advance_cases h with ⟨call, pc, pc', rfl, rfl, hstep⟩ | ⟨call, pc, pc', rfl, rfl, hstep⟩
  · cases hstep with
    | priced _ hpriced =>
      right
      refine ⟨call, _, _, _, _, rfl, rfl, rfl, rfl, ?_⟩
      unfold calculateRoutingDecision at hpriced
      dsimp only at hpriced
      split at hpriced
      next => cases hpriced
      next =>
        obtain rfl := Except.ok.inj hpriced
        rfl
    | _ => exact .inl ⟨rfl, by simp⟩
  · exact .inl ⟨rfl, by simp⟩

/-- The id of a call that has not priced yet. -/
def Task.unpriced : Task → Option String
  | create _ (.reserve _ _ decisionId) => some decisionId
  | create _ (.getSignals _ _ decisionId) => some decisionId
  | _ => none

/-- An id without a price has been drawn. -/
theorem Task.drawn_of_unpriced {id : String} (h : t.unpriced = some id) : t.drawn = some id := by
  unfold unpriced at h
  split at h
  next => exact h
  next => exact h
  next => cases h

/-- A step gives up no unpriced id it did not have, but for a fresh one. -/
theorem unpriced_of_advance (h : (controlPlane D).advance env w t = some (w', t')) {id : String}
    (hid : t'.unpriced = some id) : t.unpriced = some id ∨ id ∉ w.issued := by
  rcases advance_cases h with ⟨call, pc, pc', rfl, rfl, hstep⟩ | ⟨call, pc, pc', rfl, rfl, hstep⟩
  · cases hstep with
    | metadataSkipped _ _ hfresh => exact .inr (Option.some.inj hid ▸ hfresh)
    | policiesKept _ hfresh => exact .inr (Option.some.inj hid ▸ hfresh)
    | reserved => exact .inl hid
    | _ => cases hid
  · cases hid

end Step

/-! ## Each decision is priced once -/

section Runs

variable {D : Deps Q} {file : CatalogFile} {e : EditingEnv} {s s' : EditingWorld Q} {t t' : Task}
  {l r ts : List Task}

/-- A decision is stored under the version of the one catalog it was priced
from. -/
structure PricedOnce (c : Conf (EditingWorld Q) Task) : Prop where
  drawn : DrawnOnce ⟨c.world.world, c.tasks⟩
  nodup : (c.world.priced.map (·.1)).Nodup
  issued : ∀ p ∈ c.world.priced, p.1 ∈ c.world.world.issued
  unpriced : ∀ t ∈ c.tasks, ∀ id, t.unpriced = some id → id ∉ c.world.priced.map (·.1)
  storing : ∀ t ∈ c.tasks, ∀ call response, t = .create call (.storeDecision response) →
    ∃ catalog, (response.decisionId, catalog) ∈ c.world.priced
      ∧ response.catalogVersion = catalog.version
  rows : ∀ o ∈ c.world.world.origins, ∃ catalog, (o.decisionId, catalog) ∈ c.world.priced
    ∧ o.catalogVersion = catalog.version

/-- The control plane's step inside one of the editing control plane. -/
theorem advance_of_editing (h : (editing D file).advance e s t = some (s', t')) :
    ∃ w', (controlPlane D).advance
        { e.env with catalog := (s.registry.getSnapshot file e.rawText).2 } s.world t
          = some (w', t')
      ∧ s' = ⟨w', if readsCatalog D e.env s.world t then (s.registry.getSnapshot file e.rawText).1
          else s.registry, s.priced ++ (pricing t t').toList⟩ := by
  obtain ⟨⟨w', t₁⟩, hadv, heq⟩ := Option.map_eq_some_iff.mp h
  obtain ⟨rfl, rfl⟩ := Prod.mk.inj heq
  exact ⟨w', hadv, rfl⟩

/-- A call that starts prices nothing. -/
theorem PricedOnce.start (hstart : t.Started) (h : PricedOnce ⟨s, ts⟩) :
    PricedOnce ⟨s, ts ++ [t]⟩ := by
  have hdrawn := hstart.drawn_eq
  refine ⟨h.drawn.start hstart, h.nodup, h.issued,
    forall_mem_split.mpr ⟨?_, fun u hu => h.unpriced u (by simpa using hu)⟩,
    forall_mem_split.mpr ⟨?_, fun u hu => h.storing u (by simpa using hu)⟩, h.rows⟩
  · intro id hid
    rw [Task.drawn_of_unpriced hid] at hdrawn
    cases hdrawn
  · intro call response heq
    rw [heq] at hdrawn
    cases hdrawn

/-- A row stored now was priced when its call came to store it. -/
theorem PricedOnce.rows_run {env : Env} {w' : World Q}
    (hadv : (controlPlane D).advance env s.world t = some (w', t'))
    (h : PricedOnce ⟨s, l ++ t :: r⟩) (o : RoutingDecisionRecord) (ho : o ∈ w'.origins) :
    ∃ catalog, (o.decisionId, catalog) ∈ s.priced ++ (pricing t t').toList
      ∧ o.catalogVersion = catalog.version := by
  have hold : o ∈ s.world.origins → ∃ catalog,
      (o.decisionId, catalog) ∈ s.priced ++ (pricing t t').toList
        ∧ o.catalogVersion = catalog.version := by
    intro ho
    obtain ⟨catalog, hmem, hversion⟩ := h.rows o ho
    exact ⟨catalog, List.mem_append_left _ hmem, hversion⟩
  rcases (advance_rowStep hadv).origins with heq | ⟨call, response, pc', rfl, -, -, heq⟩
  · exact hold (heq ▸ ho)
  · rw [heq, List.mem_append, List.mem_singleton] at ho
    rcases ho with ho | rfl
    · exact hold ho
    · obtain ⟨catalog, hmem, hversion⟩ := h.storing _ (by simp) call response rfl
      exact ⟨catalog, List.mem_append_left _ hmem, hversion⟩

/-- An id is priced once, whatever the file holds by then. -/
theorem PricedOnce.run (hedit : (editing D file).advance e s t = some (s', t'))
    (h : PricedOnce ⟨s, l ++ t :: r⟩) : PricedOnce ⟨s', l ++ t' :: r⟩ := by
  obtain ⟨w', hadv, rfl⟩ := advance_of_editing hedit
  have hrows' := h.rows_run hadv
  obtain ⟨hdrawn, hnodup, hissued, hunpriced, hstoring, -⟩ := h
  simp only at hdrawn hnodup hissued hunpriced hstoring
  rw [forall_mem_split] at hunpriced hstoring
  have hids := advance_idStep hadv
  have hsub : ∀ id ∈ s.world.issued, id ∈ w'.issued := hids.issued_subset
  have hissuedOf : ∀ id ∈ s.priced.map (·.1), id ∈ s.world.issued := by
    intro id hid
    obtain ⟨p, hp, rfl⟩ := List.mem_map.mp hid
    exact hissued p hp
  rcases pricing_of_advance hadv with
    ⟨hnone, hnot⟩ | ⟨call, catalog, policy, decisionId, response, rfl, rfl, hsome, rfl, hversion⟩
  · rw [hnone] at hrows' ⊢
    rw [Option.toList_none, List.append_nil] at hrows' ⊢
    refine ⟨hdrawn.run hids, hnodup, fun p hp => hsub _ (hissued p hp),
      forall_mem_split.mpr ⟨?_, hunpriced.2⟩, forall_mem_split.mpr ⟨?_, hstoring.2⟩, hrows'⟩
    · intro id hid
      rcases unpriced_of_advance hadv hid with hold | hfresh
      · exact hunpriced.1 id hold
      · exact fun hmem => hfresh (hissuedOf id hmem)
    · intro call response heq
      exact absurd heq (hnot call response)
  · rw [hsome] at hrows' ⊢
    rw [Option.toList_some] at hrows' ⊢
    have hnew : response.decisionId ∉ s.priced.map (·.1) := hunpriced.1 _ rfl
    refine ⟨hdrawn.run hids, ?_, ?_, forall_mem_split.mpr ⟨nofun, ?_⟩,
      forall_mem_split.mpr ⟨?_, ?_⟩, hrows'⟩
    · rw [List.map_append, List.map_singleton]
      refine List.nodup_append.mpr ⟨hnodup, List.nodup_singleton _, ?_⟩
      intro id hid id' hid' heq
      obtain rfl := List.mem_singleton.mp hid'
      rw [heq] at hid
      exact hnew hid
    · intro p hp
      rcases List.mem_append.mp hp with hp | hp
      · exact hsub _ (hissued p hp)
      · obtain rfl := List.mem_singleton.mp hp
        exact hsub _ (hdrawn.drawn_issued
          (.create call (.getSignals catalog policy response.decisionId)) (by simp) _ rfl)
    · -- Another call's id is another id.
      intro u hu id hid hmem
      rw [List.map_append, List.map_singleton, List.mem_append, List.mem_singleton] at hmem
      rcases hmem with hmem | rfl
      · exact hunpriced.2 u hu id hid hmem
      · exact drawn_ne_of_nodup hdrawn.drawn_nodup rfl hu (Task.drawn_of_unpriced hid)
    · intro call' response' heq
      obtain ⟨rfl, hpc⟩ := Task.create.inj heq
      obtain rfl := CreatePc.storeDecision.inj hpc
      exact ⟨catalog, by simp, hversion⟩
    · intro u hu call' response' heq
      obtain ⟨catalog', hmem, hversion'⟩ := hstoring.2 u hu call' response' heq
      exact ⟨catalog', List.mem_append_left _ hmem, hversion'⟩

/-! ## What a version stands for -/

/-- No two texts that are read share a version and differ: `contents` is what
each version stands for. -/
def NamesContents (D : Deps Q) (file : CatalogFile) (contents : String → CatalogSnapshot)
    (c : Conf (EditingWorld Q) Task) : Act Task EditingEnv → Prop
  | .start t => t.Started
  | .run i e => ∀ t, c.tasks[i]? = some t → readsCatalog D e.env c.world.world t = true →
    ∀ catalog, file.load e.rawText = .ok catalog → contents catalog.version = catalog

/-- Every catalog there is, in a call, in the cache, in a row or behind a
decision, is the one its version stands for. -/
structure Named (contents : String → CatalogSnapshot) (c : Conf (EditingWorld Q) Task) : Prop where
  read : ∀ t ∈ c.tasks, ∀ catalog, t.catalog = some catalog → contents catalog.version = catalog
  cached : ∀ catalog, c.world.registry.snapshot = some catalog → contents catalog.version = catalog
  recorded : ∀ row ∈ c.world.world.tables.catalogVersions,
    contents row.version = row.snapshot ∧ row.checksum = row.snapshot.checksum
  priced : ∀ p ∈ c.world.priced, contents p.2.version = p.2

variable {contents : String → CatalogSnapshot}

/-- A start names no catalog. -/
theorem Named.start (hstart : t.Started) (h : Named contents ⟨s, ts⟩) :
    Named contents ⟨s, ts ++ [t]⟩ := by
  refine ⟨forall_mem_split.mpr ⟨?_, fun u hu => h.read u (by simpa using hu)⟩, h.cached,
    h.recorded, h.priced⟩
  intro catalog hcatalog
  cases hstart with
  | create call =>
    unfold CreateCall.start at hcatalog
    split at hcatalog <;> cases hcatalog
  | outcome call => cases hcatalog

/-- What a step stores it names by the text it read. -/
theorem Named.run (hok : NamesContents D file contents ⟨s, l ++ t :: r⟩ (.run l.length e))
    (hedit : (editing D file).advance e s t = some (s', t'))
    (h : Named contents ⟨s, l ++ t :: r⟩) : Named contents ⟨s', l ++ t' :: r⟩ := by
  obtain ⟨w', hadv, rfl⟩ := advance_of_editing hedit
  obtain ⟨hread, hcached, hrecorded, hpriced⟩ := h
  simp only at hread hcached hrecorded hpriced
  rw [forall_mem_split] at hread
  have hsnapshot : readsCatalog D e.env s.world t = true →
      (∀ catalog, (s.registry.getSnapshot file e.rawText).2 = .ok catalog →
          contents catalog.version = catalog)
        ∧ ∀ catalog, (s.registry.getSnapshot file e.rawText).1.snapshot = some catalog →
          contents catalog.version = catalog := fun hreads =>
    s.registry.getSnapshot_cases file e.rawText hcached
      (hok t (getElem?_split_self t) hreads)
  refine ⟨forall_mem_split.mpr ⟨?_, hread.2⟩, ?_, ?_, ?_⟩
  · intro catalog hcatalog
    rcases catalog_of_advance hadv hcatalog with hold | ⟨hreads, hgot⟩
    · exact hread.1 catalog hold
    · exact (hsnapshot hreads).1 catalog hgot
  · intro catalog hcatalog
    simp only at hcatalog
    split at hcatalog
    next hreads => exact (hsnapshot hreads).2 catalog hcatalog
    next => exact hcached catalog hcatalog
  · intro row hrow
    simp only at hrow
    rcases catalogVersions_of_advance hadv with heq | ⟨catalog, hcatalog, heq⟩
    · exact hrecorded row (heq ▸ hrow)
    · rw [heq] at hrow
      rcases mem_ensureCatalogVersion hrow with hold | ⟨hversion, hchecksum, hsame⟩
      · exact hrecorded row hold
      · -- A new row is of the call's own catalog.
        rw [hversion, hchecksum, hsame]
        exact ⟨hread.1 catalog hcatalog, rfl⟩
  · intro p hp
    rcases List.mem_append.mp hp with hp | hp
    · exact hpriced p hp
    · rcases pricing_of_advance hadv with ⟨hnone, -⟩ | ⟨_, catalog, _, _, _, rfl, -, hsome, -, -⟩
      · rw [hnone] at hp
        cases hp
      · rw [hsome] at hp
        obtain rfl := List.mem_singleton.mp hp
        exact hread.1 catalog rfl

end Runs

/-- A catalog file with one model, written out. -/
def catalogText (version price : String) : String :=
  "\x7b\"catalog_version\": \"" ++ version ++ "\", \"providers\": \x7b\"lab\": "
    ++ "\x7b\"base_url\": \"lab\", \"models\": \x7b\"b\": \x7b\"in_price_1k\": " ++ price
    ++ ", \"out_price_1k\": 0\x7d\x7d\x7d\x7d\x7d"

/-- The small catalog as text. -/
def cheapText : String :=
  catalogText "test-catalog" "0.003"

/-- The price has been edited, the version has not. -/
def dearText : String :=
  catalogText "test-catalog" "0.006"

/-- The version has been edited with it. -/
def renamedText : String :=
  catalogText "test-catalog-2" "0.006"

/-- The file with the digests and the contents of the three texts. -/
def labFile : CatalogFile where
  configPath := "models_config.json"
  sha256 text :=
    if text = cheapText then
      "32587a9fb67797c62fd12f2ebcb916d70cc4e05e02de48cee5c3df6d6b195c12"
    else if text = dearText then
      "26eb70fe5bf4b083d334606a7d67b1c44a57f24b1fd58bc435df05955b8c52f0"
    else
      "64eadedb900b0cacd8e68d4b475367c090ed7f910b8d403982f3d4bc42167eb5"
  parse text :=
    if text = cheapText then .ok { catalogVersion := some "test-catalog", models := [plainModel] }
    else if text = dearText then
      .ok { catalogVersion := some "test-catalog"
            models := [{ plainModel with
              inPrice1k := 6 / 1000, inPrice1k_ge := by norm_num }] }
    else if text = renamedText then
      .ok { catalogVersion := some "test-catalog-2"
            models := [{ plainModel with
              inPrice1k := 6 / 1000, inPrice1k_ge := by norm_num }] }
    else .error (.valueError "Expecting value: line 1 column 1 (char 0)")

end ControlPlane
