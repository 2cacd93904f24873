import ControlPlane.MetricsStore
import ControlPlane.Lib.Exposition

/-!
# The metrics page — `main.py`, read back

Who scrapes `/metrics` reads the text exposition format, 0.0.4. Label values
are what callers recorded: request paths, agent ids, provider names.
`_format_labels` writes them between quotes and escapes nothing, so a page is
readable exactly as long as no recorded value has a quote, a backslash or a
newline (`page_unambiguous_iff`). The path of a request that no route matches
is recorded too.
-/

namespace ControlPlane

open Lib Lib.Exposition

/-! ## The calls -/

/-- The updates of `trace_and_metrics_middleware`. -/
def httpMetrics (method path : String) (statusCode : ℕ) (durationMs : ℚ) : List MetricUpdate :=
  let labels := [("method", method), ("path", path), ("status_code", toString statusCode)]
  [.observe "http_request_latency_ms" durationMs labels, .incr "http_requests_total" 1 labels]

/-- A call that some part of the program makes. -/
inductive Recorded : MetricUpdate → Prop
  | http (method path : String) (statusCode : ℕ) (durationMs : ℚ) (call : MetricUpdate)
      (h : call ∈ httpMetrics method path statusCode durationMs) : Recorded call
  | decision (principal : AgentPrincipal) (response : RoutingDecisionResponse)
      (call : MetricUpdate) (h : call ∈ decisionMetrics principal response) : Recorded call
  | outcome (principal : AgentPrincipal) (outcome : RoutingOutcomeRequest)
      (call : MetricUpdate) (h : call ∈ outcomeMetrics principal outcome) : Recorded call

namespace MetricUpdate

/-- The metrics a call shows under. -/
def seriesNames (call : MetricUpdate) : List String :=
  if call.kind = .summary then [call.name ++ "_count", call.name ++ "_sum"] else [call.name]

/-- A summary has two series, and the others one. -/
theorem mem_seriesNames (call : MetricUpdate) {name : String} :
    name ∈ call.seriesNames
      ↔ (call.kind ≠ .summary ∧ name = call.name)
        ∨ call.kind = .summary ∧ (name = call.name ++ "_count" ∨ name = call.name ++ "_sum") := by
  unfold seriesNames
  split <;> simp [*]

/-- The name and the labels' keys are identifiers. -/
def WellNamed (call : MetricUpdate) : Prop :=
  ValidName true call.name.toList ∧ ∀ label ∈ call.labels, ValidName false label.1.toList

end MetricUpdate

/-- The program names its metrics and labels by constants. -/
theorem Recorded.wellNamed {call : MetricUpdate} (h : Recorded call) : call.WellNamed := by
  cases h with
  | http method path statusCode durationMs _ h =>
    simp only [httpMetrics, List.mem_cons, List.not_mem_nil, or_false] at h
    rcases h with rfl | rfl <;>
      simp [MetricUpdate.WellNamed, MetricUpdate.name, MetricUpdate.labels, ValidName] <;> decide
  | decision principal response _ h =>
    simp only [decisionMetrics, List.mem_append, List.mem_cons, List.not_mem_nil, or_false,
      List.mem_map] at h
    rcases h with ((rfl | rfl | rfl) | ⟨rejection, -, rfl⟩) | rfl | rfl <;>
      simp [MetricUpdate.WellNamed, MetricUpdate.name, MetricUpdate.labels, ValidName] <;> decide
  | outcome principal outcome _ h =>
    simp only [outcomeMetrics, List.mem_cons, List.not_mem_nil, or_false] at h
    rcases h with rfl | rfl <;>
      simp [MetricUpdate.WellNamed, MetricUpdate.name, MetricUpdate.labels, ValidName] <;> decide

/-! ## The series of a page -/

/-- A series as a page writes it. -/
def seriesText (name : String) (labels : LabelSet) : String :=
  name ++ formatLabels labels

/-- The series of some sections. -/
def sectionSeries {V : Type} (sections : List (String × List (LabelSet × V))) :
    List (String × LabelSet) :=
  sections.flatMap fun block => block.2.map fun item => (block.1, item.1)

/-- The series of a page. -/
def Page.series (page : Page) : List (String × LabelSet) :=
  sectionSeries page.counters ++ sectionSeries page.gauges
    ++ (sectionSeries page.summaries).flatMap fun series =>
      [(series.1 ++ "_count", series.2), (series.1 ++ "_sum", series.2)]

/-- A series stands where a total does. -/
theorem Lists.mem_sectionSeries {V : Type} {sections : List (String × List (LabelSet × V))}
    {total : String → LabelSet → Option V} (h : Lists sections total) (name : String)
    (labels : LabelSet) :
    (name, labels) ∈ sectionSeries sections ↔ (total name labels).isSome := by
  unfold sectionSeries
  rw [Option.isSome_iff_exists, List.mem_flatMap]
  constructor
  · intro hmem
    obtain ⟨block, hblock, hkeys⟩ := hmem
    obtain ⟨item, hitem, heq⟩ := List.mem_map.mp hkeys
    cases heq
    exact ⟨item.2, (h.shown _ _ _).mp ⟨block.2, hblock, hitem⟩⟩
  · intro hsome
    obtain ⟨value, hvalue⟩ := hsome
    obtain ⟨samples, hblock, hitem⟩ := (h.shown _ _ _).mpr hvalue
    exact ⟨(name, samples), hblock, List.mem_map.mpr ⟨(labels, value), hitem, rfl⟩⟩

/-- A counter stands where there was an increment. -/
theorem isSome_counterTotal (amounts : List ℚ) :
    (counterTotal amounts).isSome ↔ amounts ≠ [] := by
  unfold counterTotal
  split <;> simp_all

/-- A summary stands where there was an observation. -/
theorem isSome_summaryTotal (observations : List ℚ) :
    (summaryTotal observations).isSome ↔ observations ≠ [] := by
  unfold summaryTotal
  split <;> simp_all

/-- A series has a value where some call hits it. -/
theorem payloads_ne_nil {kind : MetricKind} {log : List MetricUpdate} {name : String}
    {labels : LabelSet} :
    payloads kind log name labels ≠ [] ↔ ∃ call ∈ log, call.Hits kind name labels := by
  unfold payloads
  rw [Ne, List.filterMap_eq_nil_iff]
  simp [MetricUpdate.payload?]

/-- The page has the series of the calls in the log, and no others. -/
theorem mem_series_after (log : List MetricUpdate) (name : String) (labels : LabelSet) :
    (name, labels) ∈ (MetricsStore.after log).page.series
      ↔ ∃ call ∈ log, name ∈ call.seriesNames ∧ labelsKey call.labels = labels := by
  have hcounters : ∀ name', (name', labels) ∈ sectionSeries (MetricsStore.after log).page.counters
      ↔ ∃ call ∈ log, call.Hits .counter name' labels := by
    intro name'
    have hlists := lists_of_get? (MetricsStore.get?_counters log)
    exact (hlists.mem_sectionSeries name' labels).trans
      ((isSome_counterTotal _).trans payloads_ne_nil)
  have hgauges : ∀ name', (name', labels) ∈ sectionSeries (MetricsStore.after log).page.gauges
      ↔ ∃ call ∈ log, call.Hits .gauge name' labels := by
    intro name'
    have hlists := lists_of_get? (MetricsStore.get?_gauges log)
    exact (hlists.mem_sectionSeries name' labels).trans
      (List.getLast?_isSome.trans payloads_ne_nil)
  have hsummaries : ∀ name',
      (name', labels) ∈ sectionSeries (MetricsStore.after log).page.summaries
      ↔ ∃ call ∈ log, call.Hits .summary name' labels := by
    intro name'
    have hlists := lists_of_get? (MetricsStore.get?_summaries log)
    exact (hlists.mem_sectionSeries name' labels).trans
      ((isSome_summaryTotal _).trans payloads_ne_nil)
  unfold Page.series
  rw [List.mem_append, List.mem_append, hcounters, hgauges, List.mem_flatMap]
  constructor
  · intro h
    rcases h with (h | h) | h
    · obtain ⟨call, hcall, hkind, hname, hkeys⟩ := h
      exact ⟨call, hcall, call.mem_seriesNames.mpr (.inl ⟨by simp [hkind], hname.symm⟩), hkeys⟩
    · obtain ⟨call, hcall, hkind, hname, hkeys⟩ := h
      exact ⟨call, hcall, call.mem_seriesNames.mpr (.inl ⟨by simp [hkind], hname.symm⟩), hkeys⟩
    · obtain ⟨summary, hsummary, hseries⟩ := h
      simp only [List.mem_cons, Prod.ext_iff, List.not_mem_nil, or_false] at hseries
      have hlabels : labels = summary.2 := hseries.elim And.right And.right
      obtain ⟨call, hcall, hkind, hname, hkeys⟩ := (hsummaries summary.1).mp (hlabels ▸ hsummary)
      refine ⟨call, hcall, call.mem_seriesNames.mpr (.inr ⟨hkind, ?_⟩), hkeys⟩
      rw [hname]
      exact hseries.imp And.left And.left
  · intro h
    obtain ⟨call, hcall, hname, hkeys⟩ := h
    cases hkind : call.kind with
    | counter =>
      have heq := (call.mem_seriesNames.mp hname).resolve_right (by simp [hkind])
      exact .inl (.inl ⟨call, hcall, hkind, heq.2.symm, hkeys⟩)
    | gauge =>
      have heq := (call.mem_seriesNames.mp hname).resolve_right (by simp [hkind])
      exact .inl (.inr ⟨call, hcall, hkind, heq.2.symm, hkeys⟩)
    | summary =>
      have heq := (call.mem_seriesNames.mp hname).resolve_left (by simp [hkind])
      refine .inr ⟨(call.name, labels), (hsummaries _).mpr ⟨call, hcall, hkind, rfl, hkeys⟩, ?_⟩
      rcases heq.2 with rfl | rfl
      · exact List.mem_cons_self
      · exact List.mem_cons_of_mem _ List.mem_cons_self

/-! ## Reading them back -/

/-- The labels of a series, as characters. -/
def labelChars (labels : LabelSet) : List Label :=
  labels.map fun label => ((ofLex label).1.toList, (ofLex label).2.toList)

/-- What is written is the format's own text. -/
theorem seriesText_toList (name : String) (labels : LabelSet) :
    (seriesText name labels).toList = formatSeries name.toList (labelChars labels) := by
  have hlabel : ∀ label : String ×ₗ String,
      ((ofLex label).1 ++ "=\"" ++ (ofLex label).2 ++ "\"").toList
        = formatLabel ((ofLex label).1.toList, (ofLex label).2.toList) := by
    intro label
    simp [formatLabel, String.toList_append]
  have hlabels : (ControlPlane.formatLabels labels).toList
      = Exposition.formatLabels (labelChars labels) := by
    unfold ControlPlane.formatLabels Exposition.formatLabels labelChars
    by_cases hnil : labels = []
    · rw [if_pos hnil, hnil]
      rfl
    · rw [if_neg hnil, if_neg fun h => hnil (List.map_eq_nil_iff.mp h)]
      simp only [String.toList_append, String.toList_intercalate, List.map_map, Function.comp_def,
        hlabel]
      simp
  unfold seriesText formatSeries
  rw [String.toList_append, hlabels]

/-- No two label sets have the same characters. -/
theorem labelChars_injective : Function.Injective labelChars := by
  apply List.map_injective_iff.mpr
  intro a b h
  have heq := Prod.ext_iff.mp h
  exact ofLex.injective (Prod.ext (String.toList_inj.mp heq.1) (String.toList_inj.mp heq.2))

/-- **An unambiguous page**: the text of each series is one line, reads back
as its name and its labels, and is no other series' text. -/
structure Unambiguous (page : Page) : Prop where
  readsBack : ∀ series ∈ page.series, readSeries (seriesText series.1 series.2).toList
    = some (series.1.toList, labelChars series.2)
  oneLine : ∀ series ∈ page.series, '\n' ∉ (seriesText series.1 series.2).toList
  distinct : ∀ a ∈ page.series, ∀ b ∈ page.series,
    seriesText a.1 a.2 = seriesText b.1 b.2 → a = b

/-- No quote, no backslash and no newline in what was recorded as labels. -/
def PlainLabels (log : List MetricUpdate) : Prop :=
  ∀ call ∈ log, ∀ label ∈ call.labels, Plain label.2.toList

/-- The labels of a call. -/
theorem mem_labelChars_labelsKey {labels : List (String × String)} {label : Label} :
    label ∈ labelChars (labelsKey labels)
      ↔ ∃ pair ∈ labels, (pair.1.toList, pair.2.toList) = label := by
  unfold labelChars
  rw [labelsKey_eq, List.mem_map]
  simp only [mem_sortBy, List.mem_map]
  constructor
  · intro h
    obtain ⟨_, ⟨pair, hpair, rfl⟩, heq⟩ := h
    exact ⟨pair, hpair, heq⟩
  · intro h
    obtain ⟨pair, hpair, heq⟩ := h
    exact ⟨toLex pair, ⟨pair, hpair, rfl⟩, heq⟩

section WellNamed

variable {log : List MetricUpdate}

/-- The names of a well-named call are valid. -/
theorem valid_of_mem_seriesNames {call : MetricUpdate} (h : call.WellNamed) {name : String}
    (hname : name ∈ call.seriesNames) : ValidName true name.toList := by
  have hsuffix : ∀ {suffix : List Char}, (∀ c ∈ suffix, isNameChar true c = true) →
      ValidName true (call.name.toList ++ suffix) := by
    intro suffix hchars
    obtain ⟨hne, hall, hstart⟩ := h.1
    refine ⟨List.append_ne_nil_of_left_ne_nil hne _, ?_, ?_⟩
    · intro c hc
      exact (List.mem_append.mp hc).elim (hall c) (hchars c)
    · rwa [List.head?_append_of_ne_nil _ hne]
  rcases call.mem_seriesNames.mp hname with ⟨-, rfl⟩ | ⟨-, rfl | rfl⟩
  · exact h.1
  · rw [String.toList_append]
    exact hsuffix (by simp; decide)
  · rw [String.toList_append]
    exact hsuffix (by simp; decide)

/-- So are its labels' names. -/
theorem valid_keys {call : MetricUpdate} (h : call.WellNamed) :
    ∀ label ∈ labelChars (labelsKey call.labels), ValidName false label.1 := by
  intro label hlabel
  obtain ⟨pair, hpair, rfl⟩ := mem_labelChars_labelsKey.mp hlabel
  exact h.2 pair hpair

/-- Plain labels are read back. -/
theorem readsBack_of_plain (hnamed : ∀ call ∈ log, call.WellNamed) (hplain : PlainLabels log) :
    ∀ series ∈ (MetricsStore.after log).page.series,
      readSeries (seriesText series.1 series.2).toList
        = some (series.1.toList, labelChars series.2) := by
  intro series hseries
  obtain ⟨call, hcall, hname, hkeys⟩ := (mem_series_after log _ _).mp hseries
  rw [seriesText_toList, ← hkeys]
  apply readSeries_format (valid_of_mem_seriesNames (hnamed call hcall) hname)
  intro label hlabel
  obtain ⟨pair, hpair, rfl⟩ := mem_labelChars_labelsKey.mp hlabel
  exact ⟨(hnamed call hcall).2 pair hpair, hplain call hcall pair hpair⟩

/-- **Labels that are read back are plain.** -/
theorem plain_of_readsBack (hnamed : ∀ call ∈ log, call.WellNamed)
    (h : ∀ series ∈ (MetricsStore.after log).page.series,
      readSeries (seriesText series.1 series.2).toList
        = some (series.1.toList, labelChars series.2)) : PlainLabels log := by
  intro call hcall pair hpair
  obtain ⟨name, hname⟩ : ∃ name, name ∈ call.seriesNames := by
    unfold MetricUpdate.seriesNames
    split
    · exact ⟨_, List.mem_cons_self⟩
    · exact ⟨_, List.mem_cons_self⟩
  have hread := h (name, labelsKey call.labels)
    ((mem_series_after log _ _).mpr ⟨call, hcall, hname, rfl⟩)
  rw [seriesText_toList] at hread
  have hvalues := plain_of_readSeries (valid_of_mem_seriesNames (hnamed call hcall) hname)
    (valid_keys (hnamed call hcall)) hread
  exact hvalues _ (mem_labelChars_labelsKey.mpr ⟨pair, hpair, rfl⟩)

/-- What reads back has no newline. -/
theorem unambiguous_of_readsBack
    (h : ∀ series ∈ (MetricsStore.after log).page.series,
      readSeries (seriesText series.1 series.2).toList
        = some (series.1.toList, labelChars series.2)) :
    Unambiguous (MetricsStore.after log).page where
  readsBack := h
  oneLine := by
    intro series hseries
    have hcosts := (costs_readSeries (h series hseries)).2
    exact List.count_eq_zero.mp hcosts
  distinct := by
    intro a ha b hb heq
    have hread := h a ha
    rw [heq, h b hb, Option.some.injEq, Prod.mk.injEq] at hread
    exact Prod.ext (String.toList_inj.mp hread.1.symm) (labelChars_injective hread.2.symm)

end WellNamed

/-- **The page is unambiguous iff no recorded label value has a quote, a
backslash or a newline.** -/
theorem page_unambiguous_iff (log : List MetricUpdate) (h : ∀ call ∈ log, Recorded call) :
    Unambiguous (MetricsStore.after log).page ↔ PlainLabels log := by
  have hnamed : ∀ call ∈ log, call.WellNamed := fun call hcall => (h call hcall).wellNamed
  exact ⟨fun hpage => plain_of_readsBack hnamed hpage.readsBack,
    fun hplain => unambiguous_of_readsBack (readsBack_of_plain hnamed hplain)⟩

/-- The page after one request can be read. -/
theorem page_unambiguous_iff_metrics :
    Unambiguous (MetricsStore.after (httpMetrics "GET" "/metrics" 200 3)).page := by
  refine (page_unambiguous_iff (httpMetrics "GET" "/metrics" 200 3)
    fun call hcall => .http _ _ _ _ call hcall).mpr ?_
  have hvalues : ∀ value ∈ ["GET", "/metrics", "200"], Plain value.toList := by
    intro value hvalue
    fin_cases hvalue <;> (simp [Plain]; decide)
  intro call hcall label hlabel
  apply hvalues
  fin_cases hcall <;> fin_cases hlabel <;> simp <;> decide

/-- `GET /%22`, which no route matches: the label's value ends at the path's
own quote. -/
theorem quoted_path_ambiguous :
    (∀ call ∈ httpMetrics "GET" "/\"" 404 3, Recorded call)
      ∧ ¬Unambiguous (MetricsStore.after (httpMetrics "GET" "/\"" 404 3)).page := by
  have hrecorded : ∀ call ∈ httpMetrics "GET" "/\"" 404 3, Recorded call :=
    fun call hcall => .http _ _ _ _ call hcall
  refine ⟨hrecorded, fun hpage => ?_⟩
  have hplain := plain_of_readsBack (fun call hcall => (hrecorded call hcall).wellNamed)
    hpage.readsBack
  have hquote := hplain _ List.mem_cons_self ("path", "/\"") (by simp [MetricUpdate.labels])
  exact absurd (hquote '"' (by simp)).1 (by decide)

end ControlPlane
