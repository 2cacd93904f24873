import ControlPlane.Lib.StableSort
import ControlPlane.Comparison

/-!
# The ladder is the best stable prefix

`calculateRoutingDecision` numbers its candidates as it appends them, sorts
them, cuts the list and numbers them again. Here the result is put apart
from that bookkeeping: `ladder` takes the surviving models, sorts them by
the key their candidate would have and cuts, and only then turns each into
the candidate of its rank. `rankCandidates_scan` is the equation between the
two; the order laws of the engine are read off `ladder`.

What the filter compares and what the caller reads are two figures: the
budget is held by the cost as a double, and the published one is the cost
rounded half-up (`published_cost_within_rounded_budget`).
-/

namespace ControlPlane

open Lib

/-! ## The survivors -/

instance violatesDecidable (inp : ScanInput) (model : CatalogModel) :
    (why : RejectionReason) → Decidable (violates inp model why)
  | .providerFiltered => decidable_of_iff _ (provider_violated_iff inp model).symm
  | .capabilityFiltered =>
    decidable_of_iff ((matchesCapabilities model inp.request).isSome = true)
      (Option.isSome_iff_exists.trans (capability_violated_iff inp model).symm)
  | .capacityFiltered => inferInstanceAs (Decidable (exceedsCapacity _ _ _ _))
  | .budgetFiltered => inferInstanceAs (Decidable (_ ∧ _ ∨ _ ∧ _))
  | .latencyFiltered => decidable_of_iff _ (latency_violated_iff inp model).symm

/-- Every reason a model can be rejected for. -/
def RejectionReason.all : List RejectionReason :=
  [.providerFiltered, .capabilityFiltered, .capacityFiltered, .budgetFiltered, .latencyFiltered]

/-- None is missing. -/
theorem RejectionReason.mem_all (why : RejectionReason) : why ∈ RejectionReason.all := by
  cases why <;> simp [RejectionReason.all]

instance survivesDecidable (inp : ScanInput) : DecidablePred (Survives inp) := fun model =>
  decidable_of_iff (∀ why ∈ RejectionReason.all, ¬violates inp model why)
    ⟨fun h why => h why why.mem_all, fun h why _ => h why⟩

/-- The models that pass every filter, in catalog order. -/
def survivors (inp : ScanInput) (models : List CatalogModel) : List CatalogModel :=
  models.filter fun model => Survives inp model

/-- The survivors of a catalog, half by half. -/
theorem survivors_append (inp : ScanInput) (before after : List CatalogModel) :
    survivors inp (before ++ after) = survivors inp before ++ survivors inp after :=
  List.filter_append before after

/-- A model at the front is a survivor or is dropped. -/
theorem survivors_cons (inp : ScanInput) (model : CatalogModel) (models : List CatalogModel) :
    survivors inp (model :: models)
      = if Survives inp model then model :: survivors inp models else survivors inp models := by
  by_cases hsurv : Survives inp model
  · rw [if_pos hsurv]
    exact List.filter_cons_of_pos (by simpa using hsurv)
  · rw [if_neg hsurv]
    exact List.filter_cons_of_neg (by simpa using hsurv)

/-- The candidates of the given models, ranked in the order of the list. -/
def ranked (inp : ScanInput) (models : List CatalogModel) : List DecisionCandidate :=
  models.mapIdx fun index model => candidateAt inp (index + 1) model

/-- Ranking keeps the number of models. -/
@[simp]
theorem length_ranked (inp : ScanInput) (models : List CatalogModel) :
    (ranked inp models).length = models.length :=
  List.length_mapIdx

/-- A ranked candidate is a model at its position. -/
@[simp]
theorem mem_ranked {inp : ScanInput} {models : List CatalogModel} {c : DecisionCandidate} :
    c ∈ ranked inp models ↔
      ∃ index, ∃ h : index < models.length, candidateAt inp (index + 1) models[index] = c :=
  List.mem_mapIdx

/-- The last model gets the last number. -/
theorem ranked_concat (inp : ScanInput) (models : List CatalogModel) (model : CatalogModel) :
    ranked inp (models ++ [model])
      = ranked inp models ++ [candidateAt inp (models.length + 1) model] :=
  List.mapIdx_concat

/-- The candidates of a finished scan are the survivors, the place of each its
provisional rank. -/
theorem scan_candidates (inp : ScanInput) (models : List CatalogModel) :
    (scan inp models).candidates = ranked inp (survivors inp models) := by
  -- From the back: the last model is scanned last.
  induction models using List.reverseRecOn with
  | nil => rfl
  | append_singleton before model ih =>
    rw [scan_concat, survivors_append, survivors_cons]
    rcases scanModel_cases inp (scan inp before) model with
      ⟨rejection, -, -, hfirst, -, hcand, -⟩ | ⟨hsurv, -, hcand, -⟩
    · have hnot : ¬Survives inp model := fun h => h _ hfirst.1
      rw [hcand, if_neg hnot, ih]
      simp [survivors]
    · rw [hcand, if_pos hsurv, ih, length_ranked]
      exact (ranked_concat inp (survivors inp before) model).symm

/-! ## The ladder -/

/-- The sort key of a model's candidate; its rank is not part of it. -/
def modelKey (inp : ScanInput) (model : CatalogModel) : ℚ ×ₗ ℚ ×ₗ ℤ :=
  (candidateAt inp 0 model).sortKey

/-- The survivors, best first. -/
def sortedSurvivors (inp : ScanInput) (models : List CatalogModel) : List CatalogModel :=
  sortBy (modelKey inp) (survivors inp models)

/-- The survivors, best first, cut and ranked. -/
def ladder (inp : ScanInput) (maxCandidates : ℕ) (models : List CatalogModel) :
    List DecisionCandidate :=
  ranked inp ((sortedSurvivors inp models).take maxCandidates)

/-- The engine's sort of the candidates is the stable sort of the library. -/
theorem sortCandidates_eq (candidates : List DecisionCandidate) :
    sortCandidates candidates = sortBy DecisionCandidate.sortKey candidates := by
  unfold sortCandidates sortBy
  congr

/-- **Ranking a finished scan gives the ladder**: the provisional ranks
neither reach the sort nor survive it. -/
theorem rankCandidates_scan (inp : ScanInput) (maxCandidates : ℕ) (models : List CatalogModel) :
    rankCandidates maxCandidates (scan inp models).candidates
      = ladder inp maxCandidates models := by
  -- A candidate is its model and its place; sort the pairs, then forget the places.
  have hpairs : (scan inp models).candidates
      = (survivors inp models).zipIdx.map fun p => candidateAt inp (p.2 + 1) p.1 := by
    rw [scan_candidates, ranked, List.mapIdx_eq_zipIdx_map]
  have hsorted : sortedSurvivors inp models
      = (sortBy (fun p : CatalogModel × ℕ => modelKey inp p.1)
          (survivors inp models).zipIdx).map Prod.fst := by
    rw [← sortBy_map, List.zipIdx_map_fst]
    rfl
  rw [rankCandidates, sortCandidates_eq, hpairs, sortBy_map, ladder, ranked, hsorted,
    ← List.map_take, ← List.map_take]
  apply List.ext_getElem?
  intro i
  rw [List.getElem?_mapIdx, List.getElem?_mapIdx, List.getElem?_map, List.getElem?_map,
    Option.map_map, Option.map_map]
  rfl

/-- A decision that is returned, in terms of the ladder. -/
theorem calculateRoutingDecision_ok {request : RoutingDecisionRequest}
    {catalog : CatalogSnapshot} {policy : RoutingPolicy} {signals : SignalMap}
    {signalFreshnessSeconds ttlSeconds : ℕ} {rt : Runtime} {response : RoutingDecisionResponse}
    (hok : calculateRoutingDecision request catalog policy signals signalFreshnessSeconds
      ttlSeconds rt = .ok response) :
    let inp := scanInput request catalog policy signals signalFreshnessSeconds rt
    response.candidates = ladder inp policy.maxCandidates catalog.models
    ∧ response.candidates.head? = some response.recommended
    ∧ response.rejections = (scan inp catalog.models).rejections
    ∧ response.observability = observabilityOf catalog policy signalFreshnessSeconds rt
        (scan inp catalog.models) response.candidates := by
  intro inp
  unfold calculateRoutingDecision at hok
  dsimp only at hok
  split at hok
  next => simp at hok
  next top rest htop =>
    rw [Except.ok.injEq] at hok
    subst hok
    refine ⟨?_, ?_, rfl, rfl⟩
    · exact rankCandidates_scan inp policy.maxCandidates catalog.models
    · show List.head? (rankCandidates _ _) = some top
      rw [htop]
      rfl

/-- The error of a call with no survivor. -/
def noSurvivor : ServiceError :=
  .valueError "No models survived policy, budget, latency, and capability filtering."

/-- The ladder is empty only where nobody survived. -/
theorem ladder_eq_nil {inp : ScanInput} {models : List CatalogModel} :
    ladder inp inp.policy.maxCandidates models = [] ↔ survivors inp models = [] := by
  rw [← rankCandidates_scan, rankCandidates_eq_nil, scan_candidates,
    ← List.length_eq_zero_iff, ← List.length_eq_zero_iff, length_ranked]

/-- A call raises exactly when nothing survives, and otherwise returns. -/
theorem calculateRoutingDecision_outcome (request : RoutingDecisionRequest)
    (catalog : CatalogSnapshot) (policy : RoutingPolicy) (signals : SignalMap)
    (signalFreshnessSeconds ttlSeconds : ℕ) (rt : Runtime) :
    let survived := survivors
      (scanInput request catalog policy signals signalFreshnessSeconds rt) catalog.models
    (survived = [] ∧ calculateRoutingDecision request catalog policy signals
        signalFreshnessSeconds ttlSeconds rt = .error noSurvivor)
    ∨ (survived ≠ [] ∧ ∃ response, calculateRoutingDecision request catalog policy signals
        signalFreshnessSeconds ttlSeconds rt = .ok response) := by
  intro survived
  have hnil := @ladder_eq_nil
    (scanInput request catalog policy signals signalFreshnessSeconds rt) catalog.models
  rw [← rankCandidates_scan] at hnil
  unfold calculateRoutingDecision
  dsimp only
  split
  next hranked => exact Or.inl ⟨hnil.mp hranked, rfl⟩
  next top rest hranked =>
    refine Or.inr ⟨?_, _, rfl⟩
    intro hsurv
    have hranked' := hnil.mpr hsurv
    exact absurd (hranked.symm.trans hranked') (by simp)

/-! ## Best and stable -/

/-- Position `p` of the catalog comes before position `q` on the ladder: the
smaller key first, and the catalog's order between equal keys. -/
def RanksBefore (inp : ScanInput) (models : List CatalogModel) (p q : Fin models.length) : Prop :=
  modelKey inp models[p] < modelKey inp models[q]
  ∨ (modelKey inp models[p] = modelKey inp models[q] ∧ p < q)

/-- No position ranks before itself. -/
theorem RanksBefore.irrefl {inp : ScanInput} {models : List CatalogModel}
    {p : Fin models.length} : ¬RanksBefore inp models p p := by
  intro h
  rcases h with hlt | ⟨-, hlt⟩
  · exact lt_irrefl _ hlt
  · exact lt_irrefl _ hlt

/-- `candidates` are the candidates of the catalog positions `positions`, in
that order, and `positions` are the first `maxCandidates` surviving ones. -/
structure BestStablePrefix (inp : ScanInput) (models : List CatalogModel) (maxCandidates : ℕ)
    (candidates : List DecisionCandidate) (positions : List (Fin models.length)) : Prop where
  candidates_eq : candidates
    = positions.mapIdx fun index p => candidateAt inp (index + 1) models[p]
  survive : ∀ p ∈ positions, Survives inp models[p]
  nodup : positions.Nodup
  length : positions.length = min maxCandidates (scan inp models).candidates.length
  ordered : positions.Pairwise (RanksBefore inp models)
  leftOut : ∀ q, Survives inp models[q] → q ∉ positions →
    ∀ p ∈ positions, RanksBefore inp models p q

/-- The surviving positions of a catalog, best first. -/
def sortedPositions (inp : ScanInput) (models : List CatalogModel) : List (Fin models.length) :=
  sortBy (fun p => modelKey inp models[p])
    ((List.finRange models.length).filter fun p => Survives inp models[p])

/-- The sorted positions are those of the survivors. -/
theorem mem_sortedPositions {inp : ScanInput} {models : List CatalogModel}
    {p : Fin models.length} :
    p ∈ sortedPositions inp models ↔ Survives inp models[p] := by
  unfold sortedPositions
  rw [mem_sortBy, List.mem_filter]
  simp [List.mem_finRange]

/-- The positions stand for the models they point at. -/
theorem map_sortedPositions (inp : ScanInput) (models : List CatalogModel) :
    (sortedPositions inp models).map models.get = sortedSurvivors inp models := by
  have hsurvivors : survivors inp models
      = ((List.finRange models.length).filter fun p => Survives inp models[p]).map
          models.get := by
    have hget := List.map_get_finRange models
    calc survivors inp models
        = ((List.finRange models.length).map models.get).filter
            fun model => Survives inp model := by rw [hget]; rfl
      _ = _ := by rw [List.filter_map]; rfl
  rw [sortedSurvivors, hsurvivors, sortBy_map]
  rfl

/-- They stand in the order of the ranking. -/
theorem pairwise_sortedPositions (inp : ScanInput) (models : List CatalogModel) :
    (sortedPositions inp models).Pairwise (RanksBefore inp models) :=
  pairwise_sortBy_stable _ ((List.sortedLT_finRange models.length).pairwise.filter _)

/-- The ladder is a best stable prefix of the survivors. -/
theorem ladder_best (inp : ScanInput) (maxCandidates : ℕ) (models : List CatalogModel) :
    BestStablePrefix inp models maxCandidates (ladder inp maxCandidates models)
      ((sortedPositions inp models).take maxCandidates) := by
  have hordered := pairwise_sortedPositions inp models
  refine ⟨?_, ?_, ?_, ?_, hordered.sublist (List.take_sublist _ _), ?_⟩
  · rw [ladder, ranked, ← map_sortedPositions, ← List.map_take]
    apply List.ext_getElem?
    intro i
    rw [List.getElem?_mapIdx, List.getElem?_mapIdx, List.getElem?_map, Option.map_map]
    rfl
  · intro p hp
    exact mem_sortedPositions.mp (List.mem_of_mem_take hp)
  · refine List.Pairwise.imp ?_ (hordered.sublist (List.take_sublist maxCandidates _))
    intro p q hpq heq
    rw [heq] at hpq
    exact RanksBefore.irrefl hpq
  · have hlength := congrArg List.length (map_sortedPositions inp models)
    rw [List.length_map] at hlength
    rw [List.length_take, hlength, sortedSurvivors, length_sortBy, scan_candidates, length_ranked]
  · intro q hsurv hout p hp
    -- The one left out is behind the cut, and the whole list is in order.
    have hmem : q ∈ (sortedPositions inp models).take maxCandidates
        ++ (sortedPositions inp models).drop maxCandidates := by
      rw [List.take_append_drop]
      exact mem_sortedPositions.mpr hsurv
    have hcut : ((sortedPositions inp models).take maxCandidates
        ++ (sortedPositions inp models).drop maxCandidates).Pairwise
          (RanksBefore inp models) := by
      rw [List.take_append_drop]
      exact hordered
    have hbehind := (List.mem_append.mp hmem).resolve_left hout
    exact (List.pairwise_append.mp hcut).2.2 p hp q hbehind

/-- Ranks are exactly `1..n` in list order. -/
theorem ranked_ranks (inp : ScanInput) (models : List CatalogModel) :
    (ranked inp models).map (·.rank) = List.range' 1 models.length := by
  apply List.ext_getElem
  · simp
  · intro i h₁ h₂
    simp [ranked, candidateAt]
    omega

/-! ## The fallback safety score -/

/-- A confidence is a four-decimal number between zero and one. -/
theorem confidenceScore_grid (inp : ScanInput) (model : CatalogModel) :
    round4 (clamp (confidenceScore inp model)) = confidenceScore inp model := by
  have hnonneg : 0 ≤ confidenceScore inp model :=
    halfEven.digits_nonneg 4 (le_max_left _ _)
  have hle : confidenceScore inp model ≤ 1 :=
    halfEven.digits_le_one 4 (max_le zero_le_one (min_le_left _ _))
  have hclamp : clamp (confidenceScore inp model) = confidenceScore inp model := by
    unfold clamp
    rw [min_eq_right hle, max_eq_right hnonneg]
  rw [hclamp]
  exact halfEven.digits_digits 4 _

/-- A mean lies between the least and the greatest of its values. -/
theorem mean_between {values : List ℚ} (hne : values ≠ []) :
    (∃ v ∈ values, v ≤ values.sum / values.length)
    ∧ ∃ v ∈ values, values.sum / values.length ≤ v := by
  have hlength : (0 : ℚ) < values.length := by
    exact_mod_cast List.length_pos_iff.mpr hne
  have hconst : (values.map fun _ => values.sum / values.length).sum = values.sum := by
    rw [List.map_const', List.sum_replicate, nsmul_eq_mul]
    exact mul_div_cancel₀ _ hlength.ne'
  constructor
  · refine List.exists_le_of_sum_le hne (fun v => v) _ ?_
    rw [hconst, List.map_id']
  · refine List.exists_le_of_sum_le hne _ (fun v => v) ?_
    rw [hconst, List.map_id']

/-- The score is a rounded mean, and the values it averages are on the grid
already. -/
theorem fallbackSafetyScore_between (inp : ScanInput) {models : List CatalogModel}
    (hne : models ≠ []) :
    (∃ c ∈ ranked inp models, c.confidenceScore ≤ fallbackSafetyScore (ranked inp models))
    ∧ ∃ c ∈ ranked inp models, fallbackSafetyScore (ranked inp models) ≤ c.confidenceScore := by
  have hranked : ranked inp models ≠ [] := by
    intro h
    have := congrArg List.length h
    rw [length_ranked] at this
    exact hne (List.length_eq_zero_iff.mp this)
  have hgrid : ∀ c ∈ ranked inp models, round4 (clamp c.confidenceScore) = c.confidenceScore := by
    intro c hc
    obtain ⟨index, hindex, rfl⟩ := mem_ranked.mp hc
    exact confidenceScore_grid inp _
  have hvalues : (ranked inp models).map (·.confidenceScore) ≠ [] := by simpa using hranked
  have hmean := mean_between hvalues
  rw [List.length_map] at hmean
  obtain ⟨⟨lo, hlo, hle⟩, hi, hhi, hge⟩ := hmean
  obtain ⟨cLo, hcLo, rfl⟩ := List.mem_map.mp hlo
  obtain ⟨cHi, hcHi, rfl⟩ := List.mem_map.mp hhi
  unfold fallbackSafetyScore
  rw [if_neg hranked]
  refine ⟨⟨cLo, hcLo, ?_⟩, cHi, hcHi, ?_⟩
  · rw [← hgrid cLo hcLo]
    exact round4_mono (clamp_mono hle)
  · rw [← hgrid cHi hcHi]
    exact round4_mono (clamp_mono hge)

/-- **The ladder is the best stable prefix.** -/
theorem ladder_is_best_stable_prefix (request : RoutingDecisionRequest)
    (catalog : CatalogSnapshot) (policy : RoutingPolicy) (signals : SignalMap)
    (signalFreshnessSeconds ttlSeconds : ℕ) (rt : Runtime) (response : RoutingDecisionResponse)
    (hok : calculateRoutingDecision request catalog policy signals signalFreshnessSeconds
      ttlSeconds rt = .ok response) :
    let inp := scanInput request catalog policy signals signalFreshnessSeconds rt
    (∃ positions, BestStablePrefix inp catalog.models policy.maxCandidates response.candidates
      positions)
    ∧ response.candidates.map (·.rank) = List.range' 1 response.candidates.length
    ∧ response.candidates.head? = some response.recommended
    ∧ response.recommended.rank = 1
    ∧ (∃ c ∈ response.candidates,
        c.confidenceScore ≤ response.observability.fallbackSafetyScore)
    ∧ ∃ c ∈ response.candidates,
        response.observability.fallbackSafetyScore ≤ c.confidenceScore := by
  intro inp
  obtain ⟨hcand, htop, -, hobs⟩ := calculateRoutingDecision_ok hok
  have hranks : response.candidates.map (·.rank) = List.range' 1 response.candidates.length := by
    rw [hcand, ladder, length_ranked]
    exact ranked_ranks _ _
  have hfirst : response.recommended.rank = 1 := by
    have hhead := congrArg List.head? hranks
    rw [List.head?_map, htop, Option.map_some] at hhead
    cases hlen : response.candidates.length with
    | zero => simp [List.length_eq_zero_iff.mp hlen] at htop
    | succ n =>
      rw [hlen, List.range'_succ] at hhead
      simpa using hhead
  have hmodels : (sortedSurvivors inp catalog.models).take policy.maxCandidates ≠ [] := by
    intro hnil
    rw [hcand, ladder, hnil] at htop
    simp [ranked] at htop
  have hfallback : response.observability.fallbackSafetyScore
      = fallbackSafetyScore response.candidates := by rw [hobs]; rfl
  obtain ⟨hlow, hhigh⟩ := fallbackSafetyScore_between inp hmodels
  refine ⟨⟨_, hcand ▸ ladder_best inp policy.maxCandidates catalog.models⟩, hranks, htop, hfirst,
    ?_, ?_⟩
  · rw [hfallback, hcand]
    exact hlow
  · rw [hfallback, hcand]
    exact hhigh

/-- A call on fixed inputs, run: it returns, and `f` of what it returns. -/
theorem exists_returned {β : Type} {result : Except ServiceError RoutingDecisionResponse}
    {f : RoutingDecisionResponse → β} {value : β} (h : result.toOption.map f = some value) :
    ∃ response, result = .ok response ∧ f response = value := by
  cases result with
  | error e => simp [Except.toOption] at h
  | ok response => exact ⟨response, rfl, by simpa [Except.toOption] using h⟩

/-- The two models are both returned, the plain one first. -/
theorem twoModels_returned :
    ∃ response, calculateRoutingDecision longRequest twoModels balancedPolicy noSignals 90 300
        stillRuntime = .ok response
      ∧ response.candidates.map (·.modelId) = ["lab/b", "lab/gpt-a"] :=
  exists_returned (by decide +kernel)

/-- The ladder of two models whose prices differ only by their tokens. -/
theorem ladder_is_best_stable_prefix_two :
    ∃ response, calculateRoutingDecision longRequest twoModels balancedPolicy noSignals 90 300
        stillRuntime = .ok response
      ∧ response.candidates.map (·.modelId) = ["lab/b", "lab/gpt-a"]
      ∧ (∃ positions, BestStablePrefix twoModelsInput twoModels.models 4 response.candidates
          positions)
      ∧ response.recommended.rank = 1 := by
  obtain ⟨response, hok, hids⟩ := twoModels_returned
  have hladder := ladder_is_best_stable_prefix longRequest twoModels balancedPolicy noSignals 90
    300 stillRuntime response hok
  exact ⟨response, hok, hids, hladder.1, hladder.2.2.2.1⟩

/-! ## The published cost -/

/-- Rounding half-up moves a non-negative amount by at most half a
micro-dollar. -/
theorem halfUp_digits_le {amount : ℚ} (h : 0 ≤ amount) :
    halfUp.digits 6 amount ≤ amount + 1 / 2000000 := by
  have hscaled : (0 : ℚ) ≤ amount * 10 ^ 6 := by positivity
  have hfloor := Int.floor_le (amount * 10 ^ 6 + 1 / 2)
  show (halfUpInt (amount * 10 ^ 6) : ℚ) / 10 ^ 6 ≤ _
  unfold halfUpInt
  rw [if_pos hscaled, div_le_iff₀ (by positivity)]
  linarith

/-- Below the middle of two micro-dollars an amount is rounded down. -/
theorem halfUp_digits_le_grid {amount : ℚ} {z : ℤ} (h : 0 ≤ amount)
    (hlt : amount < z / 10 ^ 6 + 1 / 2000000) : halfUp.digits 6 amount ≤ z / 10 ^ 6 := by
  have hscaled : (0 : ℚ) ≤ amount * 10 ^ 6 := by positivity
  have hfloor : ⌊amount * 10 ^ 6 + 1 / 2⌋ < z + 1 := by
    rw [Int.floor_lt]
    push_cast
    linarith
  show (halfUpInt (amount * 10 ^ 6) : ℚ) / 10 ^ 6 ≤ _
  unfold halfUpInt
  rw [if_pos hscaled]
  exact div_le_div_of_nonneg_right (by exact_mod_cast Int.lt_add_one_iff.mp hfloor) (by positivity)

/-- **Doubles tell half a micro-dollar apart**, up to a billion dollars. -/
theorem float_lt_half_micro (arith : Arithmetic) {b : ℚ} (hb : 0 ≤ b) (hle : b ≤ 10 ^ 9) :
    arith.float b < arith.float (b + 1 / 2000000) := by
  have hlow := (abs_le.mp (arith.float_close (b + 1 / 2000000))).1
  have hhigh := (abs_le.mp (arith.float_close b)).2
  rw [abs_of_nonneg (by positivity : 0 ≤ b + 1 / 2000000)] at hlow
  rw [abs_of_nonneg hb] at hhigh
  have hleast : (2 : ℚ) ^ (-1075 : ℤ) ≤ 2 ^ (-40 : ℤ) :=
    zpow_le_zpow_right₀ (by norm_num) (by norm_num)
  -- The least unit is nothing against a micro-dollar; how small it is does not matter.
  generalize (2 : ℚ) ^ (-1075 : ℤ) = least at hlow hhigh hleast
  norm_num at hleast hlow hhigh hle ⊢
  linarith

/-- What the budget filter leaves of a survivor's cost. -/
theorem Survives.float_cost_le {inp : ScanInput} {model : CatalogModel}
    (h : Survives inp model) :
    inp.rt.arith.float (totalCost inp.rt.arith inp.request (inp.signal model) model)
      ≤ inp.rt.arith.float inp.request.budgetLimitUsd := by
  have hbudget : ¬violates inp model .budgetFiltered := h .budgetFiltered
  unfold violates at hbudget
  rw [not_or, not_and, not_and, not_lt, not_lt] at hbudget
  rcases inp.request.budgetLimitUsd_ge.eq_or_lt with hzero | hpos
  · exact inp.rt.arith.float_mono ((hbudget.1 hzero.symm).trans inp.request.budgetLimitUsd_ge)
  · exact hbudget.2 hpos

/-- **The published cost honours the budget as far as it is rounded alike.**
What is within the budget is the cost as a double: the cost itself exceeds
the budget by half a unit in its last place at most, and then is published
rounded half-up to six decimals. A budget given in whole micro-dollars is
honoured by the published cost too. -/
theorem published_cost_within_rounded_budget (request : RoutingDecisionRequest)
    (catalog : CatalogSnapshot) (policy : RoutingPolicy) (signals : SignalMap)
    (signalFreshnessSeconds ttlSeconds : ℕ) (rt : Runtime) (response : RoutingDecisionResponse)
    (hdouble : rt.arith.float request.budgetLimitUsd = request.budgetLimitUsd)
    (hok : calculateRoutingDecision request catalog policy signals signalFreshnessSeconds
      ttlSeconds rt = .ok response) :
    ∀ c ∈ response.candidates, ∃ model ∈ catalog.models, ∃ cost,
      cost = totalCost rt.arith request ((signals model.modelId).getD {}) model
      ∧ c.modelId = model.modelId
      ∧ c.estimatedCostUsd = rt.arith.float (halfUp.digits 6 cost)
      ∧ rt.arith.float cost ≤ request.budgetLimitUsd
      ∧ cost ≤ request.budgetLimitUsd + cost / 2 ^ 53 + 2 ^ (-1075 : ℤ)
      ∧ c.estimatedCostUsd ≤ rt.arith.float (cost + 1 / 2000000)
      ∧ (cost ≤ request.budgetLimitUsd →
          c.estimatedCostUsd ≤ rt.arith.float (halfUp.digits 6 request.budgetLimitUsd))
      ∧ ∀ z : ℤ, z ≤ 10 ^ 15 → request.budgetLimitUsd = rt.arith.float (z / 10 ^ 6) →
          0 ≤ z → c.estimatedCostUsd ≤ request.budgetLimitUsd := by
  intro c hc
  obtain ⟨hcand, -⟩ := calculateRoutingDecision_ok hok
  rw [hcand, ladder] at hc
  obtain ⟨index, hindex, rfl⟩ := mem_ranked.mp hc
  -- A returned candidate is a survivor, and survivors pass the budget filter.
  generalize hmodel : ((sortedSurvivors _ _).take _)[index] = model
  have hsurvivor : model ∈ survivors
      (scanInput request catalog policy signals signalFreshnessSeconds rt) catalog.models := by
    rw [← hmodel]
    exact (mem_sortBy _).mp (List.mem_of_mem_take (List.getElem_mem hindex))
  obtain ⟨hmem, hsurv⟩ := List.mem_filter.mp hsurvivor
  have hfloat := (of_decide_eq_true hsurv).float_cost_le
  have hnonneg := totalCost_nonneg rt.arith request model ((signals model.modelId).getD {})
  refine ⟨model, hmem, _, rfl, rfl, rfl, ?_⟩
  generalize hcost : totalCost rt.arith request ((signals model.modelId).getD {}) model = cost
  replace hfloat : rt.arith.float cost ≤ rt.arith.float request.budgetLimitUsd := hcost ▸ hfloat
  rw [hcost] at hnonneg
  have hpublished : (candidateAt (scanInput request catalog policy signals signalFreshnessSeconds
      rt) (index + 1) model).estimatedCostUsd = rt.arith.float (halfUp.digits 6 cost) := by
    rw [← hcost]
    rfl
  rw [hpublished]
  rw [hdouble] at hfloat
  refine ⟨hfloat, ?_, rt.arith.float_mono (halfUp_digits_le hnonneg), ?_, ?_⟩
  · have hclose := (abs_le.mp (rt.arith.float_close cost)).1
    rw [abs_of_nonneg hnonneg] at hclose
    linarith
  · intro hwithin
    exact rt.arith.float_mono (halfUp.digits_mono 6 hwithin)
  · intro z hz hbudget hpos
    have hgrid : (0 : ℚ) ≤ z / 10 ^ 6 := by positivity
    have hbillion : (z : ℚ) / 10 ^ 6 ≤ 10 ^ 9 := by
      rw [div_le_iff₀ (by positivity)]
      exact_mod_cast hz
    have hbelow : cost < z / 10 ^ 6 + 1 / 2000000 := by
      by_contra hle
      have hmono := rt.arith.float_mono (not_lt.mp hle)
      have happart := float_lt_half_micro rt.arith hgrid hbillion
      rw [hbudget] at hfloat
      exact absurd hfloat (not_le.mpr (lt_of_lt_of_le happart hmono))
    rw [hbudget]
    exact rt.arith.float_mono (halfUp_digits_le_grid hnonneg hbelow)

/-- A model whose only cost is a cold start of one and a half micro-dollars. -/
def pennyModel : CatalogModel :=
  { slowModel with
    modelName := "penny", modelId := "lab/penny", inPrice1k := 0, outPrice1k := 0,
    coldStartCostUsd := 3 / 2000000, inPrice1k_ge := noCost_ge, outPrice1k_ge := noCost_ge,
    coldStartCostUsd_ge := by norm_num }

/-- The penny model alone. -/
def pennyCatalog : CatalogSnapshot :=
  { version := "v1", checksum := "c", source := "models_config.json", models := [pennyModel] }

/-- A request with a given budget. -/
def pennyRequest (budgetLimitUsd : ℚ) (h : 0 ≤ budgetLimitUsd) : RoutingDecisionRequest :=
  { longRequest with budgetLimitUsd, budgetLimitUsd_ge := h }

/-- The double nearest one and a half micro-dollars. -/
def pennyBudget : ℚ :=
  binary64.round (3 / 2000000)

/-- The budget is not negative. -/
theorem pennyBudget_ge : 0 ≤ pennyBudget :=
  binary64.round_nonneg (by norm_num)

/-- The model is returned, at two micro-dollars. -/
theorem penny_returned :
    ∃ response, calculateRoutingDecision (pennyRequest pennyBudget pennyBudget_ge) pennyCatalog
        balancedPolicy noSignals 90 300 stillRuntime = .ok response
      ∧ response.candidates.map (·.estimatedCostUsd) = [binary64.round (2 / 1000000)] :=
  exists_returned (by decide +kernel)

/-- A budget between two micro-dollars lets a cost through that is published
as the next one up. -/
theorem published_cost_over_budget :
    ¬ ∀ (request : RoutingDecisionRequest) (catalog : CatalogSnapshot) (policy : RoutingPolicy)
        (signals : SignalMap) (signalFreshnessSeconds ttlSeconds : ℕ) (rt : Runtime)
        (response : RoutingDecisionResponse),
      calculateRoutingDecision request catalog policy signals signalFreshnessSeconds ttlSeconds rt
        = .ok response →
      ∀ c ∈ response.candidates, c.estimatedCostUsd ≤ request.budgetLimitUsd := by
  intro hall
  obtain ⟨response, hok, hcosts⟩ := penny_returned
  have hmem : binary64.round (2 / 1000000) ∈ response.candidates.map (·.estimatedCostUsd) := by
    rw [hcosts]
    exact List.mem_singleton_self _
  obtain ⟨c, hc, hcost⟩ := List.mem_map.mp hmem
  have hle := hall _ _ _ _ _ _ _ response hok c hc
  rw [hcost] at hle
  revert hle
  decide +kernel

/-- The budget is a double already. -/
theorem pennyBudget_double :
    stillRuntime.arith.float (pennyRequest pennyBudget pennyBudget_ge).budgetLimitUsd
      = (pennyRequest pennyBudget pennyBudget_ge).budgetLimitUsd := by
  decide +kernel

/-- The same call: its one candidate is published at the rounded budget. -/
theorem published_cost_within_rounded_budget_penny :
    ∃ response, calculateRoutingDecision (pennyRequest pennyBudget pennyBudget_ge) pennyCatalog
        balancedPolicy noSignals 90 300 stillRuntime = .ok response
      ∧ response.candidates.length = 1
      ∧ ∀ c ∈ response.candidates, ∃ cost,
          stillRuntime.arith.float cost
              ≤ (pennyRequest pennyBudget pennyBudget_ge).budgetLimitUsd
            ∧ c.estimatedCostUsd ≤ stillRuntime.arith.float (cost + 1 / 2000000) := by
  obtain ⟨response, hok, hcosts⟩ := penny_returned
  have hlength := congrArg List.length hcosts
  rw [List.length_map] at hlength
  refine ⟨response, hok, hlength, ?_⟩
  intro c hc
  obtain ⟨_, -, cost, -, -, -, hfloat, -, hround, -⟩ := published_cost_within_rounded_budget _
    pennyCatalog balancedPolicy noSignals 90 300 stillRuntime response pennyBudget_double hok c hc
  exact ⟨cost, hfloat, hround⟩

end ControlPlane
