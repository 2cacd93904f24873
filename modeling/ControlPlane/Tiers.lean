import ControlPlane.Ladder

/-!
# Tiered pricing picks the first bracket listed

`_pick_tier` is a first-match scan: it returns the first tier that is
unbounded or reaches the token count. Nothing sorts or checks the listing,
so which bracket that is is up to whoever wrote the catalog. `Tightest` is
what a reader of a price list would expect instead, and reads the tiers as a
set; the two agree on a listing whose bounds ascend and in which nothing
bounded follows an unbounded tier (`picks_first_listed`), and need not on
another (`wide_tier_first`).
-/

namespace ControlPlane

/-- The prices of a tier. -/
def PricingTier.prices (tier : PricingTier) : TierPrices :=
  ⟨tier.inPrice1k, tier.outPrice1k⟩

/-- The prices without tiers. -/
def CatalogModel.flatPrices (model : CatalogModel) : TierPrices :=
  ⟨model.inPrice1k, model.outPrice1k⟩

/-- The tier takes `totalTokens`: unbounded, or bounded at or above it. -/
def PricingTier.Covers (tier : PricingTier) (totalTokens : ℕ) : Prop :=
  ∀ upto, tier.uptoTokens = some upto → totalTokens ≤ upto

/-- The test of the scan. -/
theorem covers_iff (tier : PricingTier) (totalTokens : ℕ) :
    (tier.uptoTokens.all fun upto => decide (totalTokens ≤ upto)) = true
      ↔ tier.Covers totalTokens := by
  unfold PricingTier.Covers
  cases tier.uptoTokens <;> simp

/-- A bounded tier covers the count and no other bounded one covers it more
tightly. -/
def TightestBounded (tiers : List PricingTier) (totalTokens : ℕ) (tier : PricingTier) : Prop :=
  tier ∈ tiers ∧ ∃ upto, tier.uptoTokens = some upto ∧ totalTokens ≤ upto
    ∧ ∀ other ∈ tiers, ∀ upto', other.uptoTokens = some upto' → totalTokens ≤ upto' →
        upto ≤ upto'

/-- The prices of the tightest bracket: of the smallest bound that covers the
count, else of an unbounded tier, else the flat ones. The order of the
listing plays no part. -/
def Tightest (tiers : List PricingTier) (flat : TierPrices) (totalTokens : ℕ)
    (prices : TierPrices) : Prop :=
  let outgrown := ∀ tier ∈ tiers, ∀ upto, tier.uptoTokens = some upto → upto < totalTokens
  (∃ tier, TightestBounded tiers totalTokens tier ∧ prices = tier.prices)
  ∨ (outgrown ∧ ∃ tier ∈ tiers, tier.uptoTokens = none ∧ prices = tier.prices)
  ∨ (outgrown ∧ (∀ tier ∈ tiers, tier.uptoTokens ≠ none) ∧ prices = flat)

/-- `tier` may stand in front of `later`: its bound is no larger, and only
unbounded tiers follow an unbounded one. -/
def ListedBefore (tier later : PricingTier) : Prop :=
  ∀ upto', later.uptoTokens = some upto' → ∃ upto, tier.uptoTokens = some upto ∧ upto ≤ upto'

/-- Bounds ascend, unbounded tiers come last. -/
def Ascending (model : CatalogModel) : Prop :=
  model.pricingTiers.Pairwise ListedBefore

/-- What the scan picks: the first tier that covers the count, else the flat
prices. -/
def FirstListed (model : CatalogModel) (totalTokens : ℕ) (prices : TierPrices) : Prop :=
  (∃ before tier after, model.pricingTiers = before ++ tier :: after
    ∧ (∀ earlier ∈ before, ¬earlier.Covers totalTokens) ∧ tier.Covers totalTokens
    ∧ prices = tier.prices)
  ∨ ((∀ tier ∈ model.pricingTiers, ¬tier.Covers totalTokens) ∧ prices = model.flatPrices)

/-- The scan picks the first that covers. -/
theorem pickTier_firstListed (model : CatalogModel) (totalTokens : ℕ) :
    FirstListed model totalTokens (pickTier model totalTokens) := by
  unfold pickTier
  split
  next tier hfind =>
    left
    obtain ⟨hcovers, before, after, hlist, hbefore⟩ := List.find?_eq_some_iff_append.mp hfind
    refine ⟨before, tier, after, hlist, ?_, (covers_iff _ _).mp hcovers, rfl⟩
    intro earlier hearlier
    have := hbefore earlier hearlier
    rw [← covers_iff]
    simpa using this
  next hfind =>
    right
    rw [List.find?_eq_none] at hfind
    refine ⟨?_, rfl⟩
    intro tier htier
    rw [← covers_iff]
    exact hfind tier htier

/-- On an ascending listing the first tier that covers the count is the
tightest one. -/
theorem FirstListed.tightest {model : CatalogModel} {totalTokens : ℕ} {prices : TierPrices}
    (h : FirstListed model totalTokens prices) (hascending : Ascending model) :
    Tightest model.pricingTiers model.flatPrices totalTokens prices := by
  rcases h with ⟨before, tier, after, hlist, hbefore, hcovers, hprices⟩ | ⟨hnone, hprices⟩
  · unfold Ascending at hascending
    rw [hlist] at hascending
    have htier : tier ∈ model.pricingTiers := by
      rw [hlist]
      exact List.mem_append_right before List.mem_cons_self
    have hafter : ∀ other ∈ after, ListedBefore tier other :=
      (List.pairwise_cons.mp (List.pairwise_append.mp hascending).2.1).1
    -- A bounded tier that covers the count is the picked one, or comes later.
    have hlater : ∀ other ∈ model.pricingTiers, ∀ upto', other.uptoTokens = some upto' →
        totalTokens ≤ upto' → other = tier ∨ ListedBefore tier other := by
      intro other hother upto' hupto' hle
      rw [hlist] at hother
      rcases List.mem_append.mp hother with hmem | hmem
      · refine absurd ?_ (hbefore other hmem)
        intro upto hupto
        rw [hupto', Option.some.injEq] at hupto
        omega
      · rcases List.mem_cons.mp hmem with heq | hmem
        · exact Or.inl heq
        · exact Or.inr (hafter other hmem)
    cases hupto : tier.uptoTokens with
    | some upto =>
      refine Or.inl ⟨tier, ⟨htier, upto, hupto, hcovers upto hupto, ?_⟩, hprices⟩
      intro other hother upto' hupto' hle
      rcases hlater other hother upto' hupto' hle with heq | hlisted
      · rw [heq, hupto, Option.some.injEq] at hupto'
        omega
      · obtain ⟨bound, hbound, hle'⟩ := hlisted upto' hupto'
        rw [hupto, Option.some.injEq] at hbound
        omega
    | none =>
      refine Or.inr (Or.inl ⟨?_, tier, htier, hupto, hprices⟩)
      -- An unbounded pick has no bounded tier behind it.
      intro other hother upto' hupto'
      by_contra hle
      rcases hlater other hother upto' hupto' (by omega) with heq | hlisted
      · rw [heq, hupto] at hupto'
        simp at hupto'
      · obtain ⟨bound, hbound, -⟩ := hlisted upto' hupto'
        rw [hupto] at hbound
        simp at hbound
  · refine Or.inr (Or.inr ⟨?_, ?_, hprices⟩)
    · intro tier htier upto hupto
      by_contra hle
      refine hnone tier htier ?_
      intro upto' hupto'
      rw [hupto, Option.some.injEq] at hupto'
      omega
    · intro tier htier hupto
      refine hnone tier htier ?_
      intro upto' hupto'
      rw [hupto] at hupto'
      simp at hupto'

/-- With one tier for each bound there is one tightest bracket. -/
theorem Tightest.unique {tiers : List PricingTier} {flat : TierPrices} {totalTokens : ℕ}
    {p q : TierPrices} (hdistinct : (tiers.map (·.uptoTokens)).Nodup)
    (hp : Tightest tiers flat totalTokens p) (hq : Tightest tiers flat totalTokens q) :
    p = q := by
  have hsame : ∀ a ∈ tiers, ∀ b ∈ tiers, a.uptoTokens = b.uptoTokens →
      a.prices = b.prices := by
    intro a ha b hb heq
    rw [List.inj_on_of_nodup_map hdistinct ha hb heq]
  rcases hp with ⟨a, ⟨ha, m, hm, hle, hmin⟩, rfl⟩ | ⟨hout, a, ha, hm, rfl⟩ | ⟨hout, hm, rfl⟩
    <;> rcases hq with ⟨b, ⟨hb, n, hn, hle', hmin'⟩, rfl⟩ | ⟨hout', b, hb, hn, rfl⟩ |
      ⟨hout', hn, rfl⟩
  · have h₁ := hmin b hb n hn hle'
    have h₂ := hmin' a ha m hm hle
    exact hsame a ha b hb (by rw [hm, hn, Nat.le_antisymm h₁ h₂])
  · have := hout' a ha m hm
    omega
  · have := hout' a ha m hm
    omega
  · have := hout b hb n hn
    omega
  · exact hsame a ha b hb (by rw [hm, hn])
  · exact absurd hm (hn a ha)
  · have := hout b hb n hn
    omega
  · exact absurd hn (hm b hb)
  · rfl

/-- The tiers count as a set. -/
theorem Tightest.perm {tiers tiers' : List PricingTier} {flat : TierPrices} {totalTokens : ℕ}
    {prices : TierPrices} (hperm : tiers.Perm tiers')
    (h : Tightest tiers flat totalTokens prices) : Tightest tiers' flat totalTokens prices := by
  unfold Tightest TightestBounded at h ⊢
  simpa only [hperm.mem_iff] using h

/-- The listing reaches the cost through the picked prices only. -/
theorem totalCost_of_pickTier (arith : Lib.Arithmetic) (model : CatalogModel)
    {tiers : List PricingTier} {request : RoutingDecisionRequest}
    (hpick : pickTier { model with pricingTiers := tiers } (totalTokens arith request model)
      = pickTier model (totalTokens arith request model)) (signal : Signal) :
    totalCost arith request signal { model with pricingTiers := tiers }
      = totalCost arith request signal model := by
  have htokens : tokenCost arith request { model with pricingTiers := tiers }
      = tokenCost arith request model := by
    show arith.decimal (priceOf arith _ (pickTier { model with pricingTiers := tiers }
      (totalTokens arith request model)).inPrice1k + priceOf arith _ (pickTier
        { model with pricingTiers := tiers } (totalTokens arith request model)).outPrice1k) = _
    rw [hpick]
    rfl
  show max 0 (withConcurrencyPremium arith request signal model
    (withLongTextDiscount arith request model
      (withColdStart arith request model (tokenCost arith request _)))) = _
  rw [htokens]
  rfl

/-- **Tiered pricing picks the first bracket listed**, which is the tightest
one on an ascending listing; so any listing of tiers with distinct bounds,
ascending or not, charges what the ascending one does wherever it comes to
the tightest bracket too. -/
theorem picks_first_listed (model : CatalogModel) :
    (∀ totalTokens, FirstListed model totalTokens (pickTier model totalTokens))
    ∧ (Ascending model → ∀ totalTokens,
        Tightest model.pricingTiers model.flatPrices totalTokens (pickTier model totalTokens))
    ∧ ∀ tiers, model.pricingTiers.Perm tiers → (model.pricingTiers.map (·.uptoTokens)).Nodup →
        Ascending model → ∀ arith request signal,
          Tightest tiers model.flatPrices (totalTokens arith request model)
            (pickTier { model with pricingTiers := tiers } (totalTokens arith request model)) →
          totalCost arith request signal { model with pricingTiers := tiers }
            = totalCost arith request signal model := by
  refine ⟨pickTier_firstListed model, ?_, ?_⟩
  · intro hascending totalTokens
    exact (pickTier_firstListed model totalTokens).tightest hascending
  · intro tiers hperm hdistinct hascending arith request signal htightest
    refine totalCost_of_pickTier arith model ?_ signal
    exact Tightest.unique hdistinct (htightest.perm hperm.symm)
      ((pickTier_firstListed model _).tightest hascending)

/-! ## A wide tier listed first -/

/-- A thousand tokens, at the higher price. -/
def wideTier : PricingTier :=
  { uptoTokens := some 1000, inPrice1k := 2 / 1000, outPrice1k := 0, outPrice1k_ge := noCost_ge }

/-- A hundred tokens, at the lower price. -/
def narrowTier : PricingTier :=
  { uptoTokens := some 100, inPrice1k := 1 / 1000, outPrice1k := 0,
    inPrice1k_ge := slowModel.inPrice1k_ge, outPrice1k_ge := noCost_ge }

/-- A model with given tiers. -/
def tieredModel (pricingTiers : List PricingTier) : CatalogModel :=
  { plainModel with modelName := "tiered", modelId := "lab/tiered", pricingTiers }

/-- Twenty tokens or so, which both tiers cover. -/
def shortRequest : RoutingDecisionRequest :=
  { longRequest with inputChars := 40, inputChars_ge := by norm_num }

/-- Its bounds ascend. -/
theorem ascending_tieredModel : Ascending (tieredModel [narrowTier, wideTier]) := by
  unfold Ascending
  apply List.pairwise_pair.mpr
  intro upto' hupto'
  exact ⟨100, rfl, by simp [wideTier] at hupto'; omega⟩

/-- Fifty tokens with the wide tier in front: its price, though the narrow
tier covers them too; and the listing shows in the cost. -/
theorem wide_tier_first :
    (¬ ∀ (model : CatalogModel) (totalTokens : ℕ), 1 ≤ totalTokens →
      Tightest model.pricingTiers model.flatPrices totalTokens (pickTier model totalTokens))
    ∧ ¬ ∀ (model : CatalogModel) (tiers : List PricingTier), model.pricingTiers.Perm tiers →
      (model.pricingTiers.map (·.uptoTokens)).Nodup →
      ∀ arith request signal, totalCost arith request signal { model with pricingTiers := tiers }
        = totalCost arith request signal model := by
  have hdistinct : ((tieredModel [wideTier, narrowTier]).pricingTiers.map
      (·.uptoTokens)).Nodup := by decide +kernel
  have hswap : (tieredModel [wideTier, narrowTier]).pricingTiers.Perm [narrowTier, wideTier] :=
    List.Perm.swap _ _ _
  constructor
  · intro hall
    have hnarrow := ((pickTier_firstListed _ 50).tightest ascending_tieredModel).perm hswap.symm
    have hprices := Tightest.unique hdistinct (hall _ 50 (by norm_num)) hnarrow
    revert hprices
    decide +kernel
  · intro hall
    have hcost := hall (tieredModel [wideTier, narrowTier]) [narrowTier, wideTier] hswap
      hdistinct .machine shortRequest {}
    revert hcost
    decide +kernel

/-- Five hundred tokens, which the wide tier alone covers. -/
def mediumRequest : RoutingDecisionRequest :=
  { longRequest with inputChars := 1250, inputChars_ge := by norm_num }

/-- The request has 501 tokens. -/
theorem totalTokens_mediumRequest :
    totalTokens .machine mediumRequest (tieredModel [narrowTier, wideTier]) = 501 := by
  decide +kernel

/-- The wide tier first is no matter for a request that outgrew the narrow
one. -/
theorem picks_first_listed_tiered :
    Tightest [narrowTier, wideTier] (tieredModel []).flatPrices 50
      (pickTier (tieredModel [narrowTier, wideTier]) 50)
    ∧ ∀ signal,
      totalCost .machine mediumRequest signal
          { tieredModel [narrowTier, wideTier] with pricingTiers := [wideTier, narrowTier] }
        = totalCost .machine mediumRequest signal (tieredModel [narrowTier, wideTier]) := by
  have hlaw := picks_first_listed (tieredModel [narrowTier, wideTier])
  refine ⟨hlaw.2.1 ascending_tieredModel 50, fun signal => ?_⟩
  refine hlaw.2.2 [wideTier, narrowTier] (List.Perm.swap _ _ _) (by decide +kernel)
    ascending_tieredModel .machine mediumRequest signal ?_
  rw [totalTokens_mediumRequest]
  refine .inl ⟨wideTier, ⟨List.mem_cons_self, 1000, rfl, by norm_num, ?_⟩, by decide +kernel⟩
  -- The narrow tier does not cover 501 tokens, so the wide one has no rival.
  intro other hother upto hupto hcovers
  rw [List.mem_pair] at hother
  rcases hother with rfl | rfl
  · rw [show wideTier.uptoTokens = some 1000 from rfl, Option.some.injEq] at hupto
    exact hupto.le
  · rw [show narrowTier.uptoTokens = some 100 from rfl, Option.some.injEq] at hupto
    omega

end ControlPlane
