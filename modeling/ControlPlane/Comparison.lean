import ControlPlane.Scoring

/-!
# Comparing two signals, and two models

Two order laws of the engine, both read off `confidence_dominates`.

* `worse_signal_never_helps`: degrading one model's health signal can only
  get it rejected, lower its confidence and raise its cost — as long as the
  throughput does not drop *to zero* under a hinted request. The capacity
  filter and the burst premium are both guarded by `qps > 0`, so a model
  reporting zero throughput skips them: `zero_throughput_helps`.
* `pareto_dominance`: a survivor no worse than another in every scored
  dimension ranks no lower. The token-cost score reads the cost per thousand
  estimated tokens and the estimate depends on the model's name, so "no
  worse in cost" has to include the unit cost; with the total cost alone the
  law fails (`cheaper_total_ranks_lower`).
-/

namespace ControlPlane

/-! ## A worse signal -/

/-- `b` is no younger than `a`, an unknown age counting as stale. -/
def AgeNoSmaller (signalFreshnessSeconds : ℕ) : Option ℕ → Option ℕ → Prop
  | _, none => True
  | none, some b => signalFreshnessSeconds < b
  | some a, some b => a ≤ b

/-- An age no smaller is stale where the smaller is. -/
theorem AgeNoSmaller.stale {signalFreshnessSeconds : ℕ} {a b : Option ℕ}
    (h : AgeNoSmaller signalFreshnessSeconds a b) (ha : Stale signalFreshnessSeconds a) :
    Stale signalFreshnessSeconds b := by
  cases b with
  | none => trivial
  | some b =>
    cases a with
    | none => exact h
    | some a => exact lt_of_lt_of_le (show signalFreshnessSeconds < a from ha) h

/-- `b` is no better than `a` as a signal for `model`, in any dimension. -/
structure NoBetter (signalFreshnessSeconds : ℕ) (rt : Runtime) (model : CatalogModel)
    (a b : Signal) : Prop where
  qps : b.qps model ≤ a.qps model
  success : b.success ≤ a.success
  ttfb : a.ttfbP50Ms.getD model.defaultTtfbMs ≤ b.ttfbP50Ms.getD model.defaultTtfbMs
  age : AgeNoSmaller signalFreshnessSeconds (signalAgeSeconds rt a) (signalAgeSeconds rt b)
  degraded : truthy a.degradedReason = true → truthy b.degradedReason = true

/-- A signal no better promises no earlier token. -/
theorem NoBetter.expectedTtfbMs_le {signalFreshnessSeconds : ℕ} {rt : Runtime}
    {model : CatalogModel} {a b : Signal} (h : NoBetter signalFreshnessSeconds rt model a b)
    (request : RoutingDecisionRequest) :
    expectedTtfbMs request a model ≤ expectedTtfbMs request b model := by
  have httfb : a.ttfbMs model ≤ b.ttfbMs model := Lib.trunc.mono h.ttfb
  unfold expectedTtfbMs
  split_ifs <;> omega

/-- A model rejected under a signal is rejected under a worse one that keeps
its throughput positive. -/
theorem violates_of_noBetter {inp₁ inp₂ : ScanInput} {model : CatalogModel}
    (hreq : inp₁.request = inp₂.request) (hrt : inp₁.rt.arith = inp₂.rt.arith)
    (hworse : NoBetter inp₁.signalFreshnessSeconds inp₁.rt model (inp₁.signal model)
      (inp₂.signal model))
    (hpos : 0 < throughputHint inp₁.request → 0 < (inp₁.signal model).qps model →
      0 < (inp₂.signal model).qps model)
    {why : RejectionReason} (h : violates inp₁ model why) : violates inp₂ model why := by
  cases why with
  | providerFiltered =>
    unfold violates at h ⊢
    rwa [← hreq]
  | capabilityFiltered =>
    unfold violates at h ⊢
    rwa [← hreq]
  | capacityFiltered =>
    obtain ⟨hhint, hq, hload⟩ := h
    unfold violates exceedsCapacity
    -- The effective capacity falls with the throughput.
    have hfactor : 0 ≤ inp₁.rt.arith.float model.hardCapacityFactor :=
      inp₁.rt.arith.float_nonneg (zero_le_one.trans model.hardCapacityFactor_ge)
    have hcapacity : effectiveCapacity inp₁.rt.arith (inp₂.signal model) model
        ≤ effectiveCapacity inp₁.rt.arith (inp₁.signal model) model :=
      inp₁.rt.arith.float_mono (mul_le_mul_of_nonneg_right hworse.qps hfactor)
    rw [← hrt, ← hreq]
    exact ⟨hhint, hpos hhint hq, lt_of_le_of_lt hcapacity hload⟩
  | budgetFiltered =>
    have hcost := totalCost_anti_qps inp₁.rt.arith inp₁.request model hworse.qps hpos
    unfold violates at h ⊢
    rw [← hrt, ← hreq]
    rcases h with ⟨hzero, hbillable⟩ | ⟨hlimit, hover⟩
    · exact .inl ⟨hzero, lt_of_lt_of_le hbillable hcost⟩
    · exact .inr ⟨hlimit, lt_of_lt_of_le hover (inp₁.rt.arith.float_mono hcost)⟩
  | latencyFiltered =>
    obtain ⟨slo, hslo, hlt⟩ := h
    exact ⟨slo, hreq ▸ hslo, hreq ▸ lt_of_lt_of_le hlt (hworse.expectedTtfbMs_le _)⟩

/-- Going from the signals of `inp₁` to those of `inp₂` does not help
`model`, scanned after `before`: a rejection stays one, and a survivor gets
no more confident and no cheaper. -/
def NeverHelps (inp₁ inp₂ : ScanInput) (before : List CatalogModel) (model : CatalogModel) :
    Prop :=
  (RejectedAt inp₁ before model → RejectedAt inp₂ before model)
  ∧ ∀ c₁ c₂, SurvivesAt inp₁ before model c₁ → SurvivesAt inp₂ before model c₂ →
      c₂.confidenceScore ≤ c₁.confidenceScore
      ∧ totalCost inp₁.rt.arith inp₁.request (inp₁.signal model) model
          ≤ totalCost inp₂.rt.arith inp₂.request (inp₂.signal model) model

/-- **A worse health signal never helps a model**, unless it reports zero
throughput to a hinted request where the better one did not. Neither the
other models' signals nor the ranges of the values matter. The filters and
the cost may round as floats and decimals do; the scores are exact, and
`floatBenefitScore_not_mono` says why that matters. -/
theorem worse_signal_never_helps (request : RoutingDecisionRequest) (catalog : CatalogSnapshot)
    (policy : RoutingPolicy) (signalFreshnessSeconds : ℕ) (rt : Runtime)
    (first second : SignalMap) (before after : List CatalogModel) (model : CatalogModel)
    (_hmodels : catalog.models = before ++ model :: after)
    (hworse : NoBetter signalFreshnessSeconds rt model
      ((first model.modelId).getD {}) ((second model.modelId).getD {}))
    (hpos : 0 < throughputHint request → 0 < ((first model.modelId).getD {}).qps model →
      0 < ((second model.modelId).getD {}).qps model) :
    NeverHelps (scanInput request catalog policy first signalFreshnessSeconds rt)
      (scanInput request catalog policy second signalFreshnessSeconds rt) before model := by
  set inp₁ := scanInput request catalog policy first signalFreshnessSeconds rt
  set inp₂ := scanInput request catalog policy second signalFreshnessSeconds rt
  -- Tokens, tier, cold start and discount do not depend on the signal.
  have hcost : totalCost rt.arith request (inp₁.signal model) model
      ≤ totalCost rt.arith request (inp₂.signal model) model :=
    totalCost_anti_qps rt.arith request model hworse.qps hpos
  refine ⟨?_, ?_⟩
  · rw [rejectedAt_iff, rejectedAt_iff]
    intro hrejected
    obtain ⟨why, hviolates⟩ := hrejected
    have hrequest : inp₁.request = inp₂.request := rfl
    have hrt : inp₁.rt.arith = inp₂.rt.arith := rfl
    exact ⟨why, violates_of_noBetter hrequest hrt hworse hpos hviolates⟩
  · intro c₁ c₂ h₁ h₂
    rw [survivesAt_iff] at h₁ h₂
    obtain ⟨-, rfl⟩ := h₁
    obtain ⟨-, rfl⟩ := h₂
    refine ⟨?_, hcost⟩
    have hpolicy : inp₁.policy = inp₂.policy := rfl
    refine confidence_dominates hpolicy rfl rfl ?_
    exact
      { unitCost := unitCost_le rt.arith model rfl hcost
        qps := hworse.qps
        ttfb := hworse.expectedTtfbMs_le request
        accuracy := mul_le_mul_of_nonneg_left hworse.success model.accuracy_ge
        success := hworse.success
        stale := hworse.age.stale
        degraded := hworse.degraded }

/-- The slow model alone. -/
def slowCatalog : CatalogSnapshot :=
  { version := "v1", checksum := "c", source := "models_config.json", models := [slowModel] }

/-- A request with a throughput hint of two. -/
def hintedRequest : RoutingDecisionRequest :=
  { longRequest with
    inputChars := 1000, expectedOutputTokens := 100, throughputHintQps := some 2,
    inputChars_ge := by norm_num, expectedOutputTokens_ge := by norm_num,
    throughputHintQps_ge := by simp }

/-- One request a second, and, after a failed probe, none. -/
def slowSignals (qps : ℚ) : SignalMap := fun modelId =>
  if modelId = "lab/slow" then some { throughputHintQps := some qps } else none

/-- The slow signals are well formed. -/
theorem slowSignals_wellFormed {qps : ℚ} (h : 0 ≤ qps) : WellFormedSignals (slowSignals qps) := by
  intro modelId signal hsignal
  unfold slowSignals at hsignal
  split at hsignal
  · rw [Option.some.injEq] at hsignal
    subst hsignal
    exact ⟨by simp, by simpa using h, by simp⟩
  · simp at hsignal

/-- No throughput is no better than a throughput of one. -/
theorem slowSignals_noBetter :
    NoBetter 90 stillRuntime slowModel (((slowSignals 1) slowModel.modelId).getD {})
      (((slowSignals 0) slowModel.modelId).getD {}) :=
  ⟨by decide +kernel, by decide +kernel, by decide +kernel, trivial, by decide +kernel⟩

/-- The law without its guard is false: at one request a second the model is
rejected for capacity, at zero it is not. -/
theorem zero_throughput_helps :
    ¬ ∀ (request : RoutingDecisionRequest) (catalog : CatalogSnapshot) (policy : RoutingPolicy)
        (signalFreshnessSeconds : ℕ) (rt : Runtime) (first second : SignalMap)
        (before after : List CatalogModel) (model : CatalogModel),
      catalog.models = before ++ model :: after →
      WellFormedSignals first → WellFormedSignals second →
      (∀ modelId, modelId ≠ model.modelId → first modelId = second modelId) →
      NoBetter signalFreshnessSeconds rt model
        ((first model.modelId).getD {}) ((second model.modelId).getD {}) →
      NeverHelps (scanInput request catalog policy first signalFreshnessSeconds rt)
        (scanInput request catalog policy second signalFreshnessSeconds rt) before model := by
  intro hall
  have hagree : ∀ modelId, modelId ≠ slowModel.modelId →
      slowSignals 1 modelId = slowSignals 0 modelId := by
    intro modelId hne
    have hne' : modelId ≠ "lab/slow" := hne
    simp [slowSignals, hne']
  have hrejected : RejectedAt
      (scanInput hintedRequest slowCatalog balancedPolicy (slowSignals 1) 90 stillRuntime)
      [] slowModel := by
    rw [rejectedAt_iff]
    exact ⟨.capacityFiltered, by decide +kernel, by decide +kernel, by decide +kernel⟩
  obtain ⟨rejection, hrej⟩ := (hall hintedRequest slowCatalog balancedPolicy 90 stillRuntime
    (slowSignals 1) (slowSignals 0) [] [] slowModel rfl
    (slowSignals_wellFormed (by norm_num)) (slowSignals_wellFormed (by norm_num)) hagree
    slowSignals_noBetter).1 hrejected
  have hnone : (scan (scanInput hintedRequest slowCatalog balancedPolicy (slowSignals 0) 90
      stillRuntime) ([] ++ [slowModel])).rejections = [] := by
    decide +kernel
  rw [hnone] at hrej
  simp [scan] at hrej

/-- `_benefit_score` as the source computes it, rounding the sum and the
quotient. -/
def floatBenefitScore (arith : Lib.Arithmetic) (value baseline : ℚ) : ℚ :=
  let safeValue := max value 0
  let safeBaseline := max baseline (arith.float (1 / 1000000))
  clamp (arith.float (safeValue / arith.float (safeValue + safeBaseline)))

/-- In exact arithmetic the rounding is to four digits alone. -/
theorem floatBenefitScore_exact : floatBenefitScore .exact = benefitScore := rfl

/-- **The order of the scores is one of exact arithmetic.** Of two doubles
next to each other the higher one can score a rounded 0.0861 and the lower
one 0.0862: the quotient of the higher is rounded down, past the middle. -/
theorem floatBenefitScore_not_mono :
    ¬Monotone fun value => round4 (floatBenefitScore .machine value 40) := by
  intro hmono
  have hle : (3.7708595502544178 : ℚ) ≤ 3.770859550254418 := by norm_num
  have hscores := hmono (Lib.binary64.round_mono hle)
  revert hscores
  decide +kernel

/-- The law at work: the same model, its throughput falling from two
requests a second to one. -/
theorem worse_signal_never_helps_slow :
    NeverHelps
      (scanInput hintedRequest slowCatalog balancedPolicy (slowSignals 2) 90 stillRuntime)
      (scanInput hintedRequest slowCatalog balancedPolicy (slowSignals 1) 90 stillRuntime)
      [] slowModel :=
  worse_signal_never_helps hintedRequest slowCatalog balancedPolicy 90 stillRuntime
    (slowSignals 2) (slowSignals 1) [] [] slowModel rfl
    ⟨by decide +kernel, by decide +kernel, by decide +kernel, trivial, by decide +kernel⟩
    (fun _ _ => by decide +kernel)

/-! ## Two models -/

/-- The survivor order is total and transitive, which is all insertion sort
asks of it. -/
instance : Std.Total fun a b : DecisionCandidate => a.sortKey ≤ b.sortKey :=
  ⟨fun a b => le_total a.sortKey b.sortKey⟩

instance : IsTrans DecisionCandidate fun a b => a.sortKey ≤ b.sortKey :=
  ⟨fun _ _ _ => le_trans⟩

/-- A candidate that sorts later has no smaller key. -/
theorem sortKey_le_of_after {candidates l₁ l₂ l₃ : List DecisionCandidate}
    {b a : DecisionCandidate} (h : sortCandidates candidates = l₁ ++ b :: l₂ ++ a :: l₃) :
    b.sortKey ≤ a.sortKey := by
  have hsorted : (l₁ ++ b :: l₂ ++ a :: l₃).Pairwise fun a b => a.sortKey ≤ b.sortKey := by
    rw [← h]
    exact List.pairwise_insertionSort _ _
  exact (List.pairwise_append.mp hsorted).2.2 b (by simp) a (by simp)

/-- Comparing keys, spelled out: confidence, then cost, then latency. -/
theorem sortKey_le_iff (b a : DecisionCandidate) :
    b.sortKey ≤ a.sortKey ↔
      a.confidenceScore < b.confidenceScore
      ∨ (a.confidenceScore = b.confidenceScore
        ∧ (b.estimatedCostUsd < a.estimatedCostUsd
          ∨ (b.estimatedCostUsd = a.estimatedCostUsd ∧ b.expectedTtfbMs ≤ a.expectedTtfbMs))) := by
  simp only [DecisionCandidate.sortKey, Prod.Lex.toLex_le_toLex, neg_lt_neg_iff, neg_inj]
  exact or_congr Iff.rfl (and_congr_left fun _ => eq_comm)

/-- `a` is no worse than `b` in everything a caller would compare. -/
structure ParetoNoWorse (inp : ScanInput) (a b : CatalogModel) : Prop where
  cost : totalCost inp.rt.arith inp.request (inp.signal a) a
    ≤ totalCost inp.rt.arith inp.request (inp.signal b) b
  ttfb : expectedTtfbMs inp.request (inp.signal a) a ≤ expectedTtfbMs inp.request (inp.signal b) b
  qps : (inp.signal b).qps b ≤ (inp.signal a).qps a
  success : (inp.signal b).success ≤ (inp.signal a).success
  accuracy : b.accuracy * (inp.signal b).success ≤ a.accuracy * (inp.signal a).success
  age : AgeNoSmaller inp.signalFreshnessSeconds (inp.age a) (inp.age b)
  degraded : truthy (inp.signal a).degradedReason = true →
    truthy (inp.signal b).degradedReason = true

/-- `a`'s candidate `ca` is at least as confident as `b`'s, and sorts after
it only on a full tie. -/
def RanksNoLower (candidates : List DecisionCandidate) (ca cb : DecisionCandidate) : Prop :=
  cb.confidenceScore ≤ ca.confidenceScore
  ∧ ∀ l₁ l₂ l₃, sortCandidates candidates = l₁ ++ cb :: l₂ ++ ca :: l₃ →
      ca.confidenceScore = cb.confidenceScore ∧ ca.estimatedCostUsd = cb.estimatedCostUsd
      ∧ ca.expectedTtfbMs = cb.expectedTtfbMs

/-- **Ranking respects Pareto dominance**, once the cost per thousand
estimated tokens is one of the compared dimensions. -/
theorem pareto_dominance (request : RoutingDecisionRequest) (catalog : CatalogSnapshot)
    (policy : RoutingPolicy) (signals : SignalMap) (signalFreshnessSeconds : ℕ) (rt : Runtime)
    (beforeA afterA beforeB afterB : List CatalogModel) (a b : CatalogModel)
    (ca cb : DecisionCandidate)
    (_hmodelsA : catalog.models = beforeA ++ a :: afterA)
    (_hmodelsB : catalog.models = beforeB ++ b :: afterB)
    (ha : SurvivesAt (scanInput request catalog policy signals signalFreshnessSeconds rt)
      beforeA a ca)
    (hb : SurvivesAt (scanInput request catalog policy signals signalFreshnessSeconds rt)
      beforeB b cb)
    (hpareto : ParetoNoWorse
      (scanInput request catalog policy signals signalFreshnessSeconds rt) a b)
    (hunit : unitCost rt.arith request ((signals a.modelId).getD {}) a
      ≤ unitCost rt.arith request ((signals b.modelId).getD {}) b) :
    RanksNoLower (scan (scanInput request catalog policy signals signalFreshnessSeconds rt)
      catalog.models).candidates ca cb := by
  set inp := scanInput request catalog policy signals signalFreshnessSeconds rt
  rw [survivesAt_iff] at ha hb
  obtain ⟨-, rfl⟩ := ha
  obtain ⟨-, rfl⟩ := hb
  have hconf : confidenceScore inp b ≤ confidenceScore inp a :=
    confidence_dominates rfl rfl rfl
      ⟨hunit, hpareto.qps, hpareto.ttfb, hpareto.accuracy, hpareto.success,
        hpareto.age.stale, hpareto.degraded⟩
  refine ⟨hconf, ?_⟩
  intro l₁ l₂ l₃ hsorted
  -- The published cost is the rounded one, and rounding keeps the order.
  have hcost : roundMoney rt.arith (totalCost rt.arith request (inp.signal a) a)
      ≤ roundMoney rt.arith (totalCost rt.arith request (inp.signal b) b) :=
    roundMoney_mono rt.arith hpareto.cost
  have httfb := hpareto.ttfb
  -- `b` sorts first, so its key is no larger; dominance says the same of `a`.
  rcases (sortKey_le_iff _ _).mp (sortKey_le_of_after hsorted) with
    hlt | ⟨heq, hlt | ⟨hcosts, hle⟩⟩
  · exact absurd hconf (not_le.mpr hlt)
  · exact absurd hcost (not_le.mpr hlt)
  · exact ⟨heq, hcosts.symm, le_antisymm httfb hle⟩

/-- Two models of equal total cost for ten thousand characters; the name of
the first one promises fewer tokens. -/
def gptModel : CatalogModel :=
  { slowModel with
    modelName := "gpt-a", modelId := "lab/gpt-a", inPrice1k := 4 / 1000, outPrice1k := 0,
    inPrice1k_ge := by norm_num, outPrice1k_ge := noCost_ge }

/-- A model without that promise, and cheaper. -/
def plainModel : CatalogModel :=
  { slowModel with
    modelName := "b", modelId := "lab/b", inPrice1k := 3 / 1000, outPrice1k := 0,
    inPrice1k_ge := by norm_num, outPrice1k_ge := noCost_ge }

/-- The two of them. -/
def twoModels : CatalogSnapshot :=
  { version := "v1", checksum := "c", source := "models_config.json",
    models := [gptModel, plainModel] }

/-- A store without signals. -/
def noSignals : SignalMap := fun _ => none

/-- The scan of the two models. -/
def twoModelsInput : ScanInput :=
  scanInput longRequest twoModels balancedPolicy noSignals 90 stillRuntime

/-- Both survive, the first at rank one. -/
theorem twoModels_survive :
    SurvivesAt twoModelsInput [] gptModel (candidateAt twoModelsInput 1 gptModel)
    ∧ SurvivesAt twoModelsInput [gptModel] plainModel
        (candidateAt twoModelsInput 2 plainModel) := by
  constructor <;> unfold SurvivesAt <;> decide +kernel

/-- The first is no worse in any respect. -/
theorem twoModels_pareto : ParetoNoWorse twoModelsInput gptModel plainModel :=
  ⟨by decide +kernel, by decide +kernel, by decide +kernel, by decide +kernel,
    by decide +kernel, trivial, by decide +kernel⟩

/-- With the total cost alone the law is false: the two models tie on it and
on everything else, and the one charged for fewer tokens scores lower. -/
theorem cheaper_total_ranks_lower :
    ¬ ∀ (request : RoutingDecisionRequest) (catalog : CatalogSnapshot) (policy : RoutingPolicy)
        (signals : SignalMap) (signalFreshnessSeconds : ℕ) (rt : Runtime)
        (beforeA afterA beforeB afterB : List CatalogModel) (a b : CatalogModel)
        (ca cb : DecisionCandidate),
      WellFormedSignals signals →
      catalog.models = beforeA ++ a :: afterA → catalog.models = beforeB ++ b :: afterB →
      SurvivesAt (scanInput request catalog policy signals signalFreshnessSeconds rt)
        beforeA a ca →
      SurvivesAt (scanInput request catalog policy signals signalFreshnessSeconds rt)
        beforeB b cb →
      ParetoNoWorse (scanInput request catalog policy signals signalFreshnessSeconds rt) a b →
      RanksNoLower (scan (scanInput request catalog policy signals signalFreshnessSeconds rt)
        catalog.models).candidates ca cb := by
  intro hall
  have hconf := (hall longRequest twoModels balancedPolicy noSignals 90 stillRuntime
    [] [plainModel] [gptModel] [] gptModel plainModel _ _ (fun _ _ h => by simp [noSignals] at h)
    rfl rfl twoModels_survive.1 twoModels_survive.2 twoModels_pareto).1
  have hlower : (candidateAt twoModelsInput 1 gptModel).confidenceScore
      < (candidateAt twoModelsInput 2 plainModel).confidenceScore := by decide +kernel
  exact absurd hconf (not_le.mpr hlower)

/-- The law at work, from the other model's side: it is as cheap in total and
cheaper per token. -/
theorem pareto_dominance_plain :
    RanksNoLower (scan twoModelsInput twoModels.models).candidates
      (candidateAt twoModelsInput 2 plainModel) (candidateAt twoModelsInput 1 gptModel) :=
  pareto_dominance longRequest twoModels balancedPolicy noSignals 90 stillRuntime
    [gptModel] [] [] [plainModel] plainModel gptModel _ _ rfl rfl
    twoModels_survive.2 twoModels_survive.1
    ⟨by decide +kernel, by decide +kernel, by decide +kernel, by decide +kernel,
      by decide +kernel, trivial, by decide +kernel⟩
    (by decide +kernel)

end ControlPlane
