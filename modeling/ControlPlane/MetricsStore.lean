import ControlPlane.Errors
import ControlPlane.Metrics
import ControlPlane.Lib.Dict

/-!
# `MetricsStore` — its tables are the log, whatever its order

Three tables, each by name and then by label set, and a page that prints them
sorted. `incr` adds to a counter, `set_gauge` overwrites a gauge, `observe`
adds one to a summary's count and the value to its sum.

A table holds for a series what folding its updates one by one gives
(`get?_after`), so a counter is the sum of its amounts and a summary the
number and the sum of its observations. The page sorts pairs, and a summary's
second component is a dictionary, which `<` does not take: it never gets that
far, as a dictionary has a key once (`renderTable_eq`). What the page shows is
a function of the tables' lookups alone (`Table.sections_eq`).
-/

namespace ControlPlane

open Lib

/-! ## Label sets -/

/-- Pairs in order of the key, then of the value. -/
abbrev LabelSet := List (String ×ₗ String)

/-- `tuple(sorted(labels.items()))`. -/
def labelsKey (labels : List (String × String)) : LabelSet :=
  if labels = [] then [] else sortBy id (labels.map toLex)

/-- The same as a sorted list. -/
theorem labelsKey_eq (labels : List (String × String)) :
    labelsKey labels = sortBy id (labels.map toLex) := by
  unfold labelsKey
  split
  next h =>
    rw [h]
    rfl
  next => rfl

/-- The order in which labels are given does not matter. -/
theorem labelsKey_perm {labels labels' : List (String × String)} (h : labels.Perm labels') :
    labelsKey labels = labelsKey labels' := by
  rw [labelsKey_eq, labelsKey_eq]
  have hperm : (sortBy id (labels.map toLex)).Perm (sortBy id (labels'.map toLex)) :=
    (sortBy_perm id _).trans ((h.map toLex).trans (sortBy_perm id _).symm)
  exact hperm.eq_of_pairwise (fun _ _ _ _ => le_antisymm) (pairwise_sortBy id _)
    (pairwise_sortBy id _)

/-- The labels as they stand in a line. -/
def formatLabels (labels : LabelSet) : String :=
  if labels = [] then ""
  else
    let rendered := String.intercalate "," (labels.map fun label =>
      (ofLex label).1 ++ "=\"" ++ (ofLex label).2 ++ "\"")
    "\x7b" ++ rendered ++ "\x7d"

/-! ## Tables -/

/-- A dictionary of dictionaries. A name enters with its first series. -/
structure Table (V : Type) where
  series : Dict String (Dict LabelSet V)
  nonempty : ∀ name inner, series.get? name = some inner → inner.items ≠ []

namespace Table

variable {V : Type}

/-- A table without series. -/
def empty : Table V :=
  ⟨Dict.empty, fun _ _ h => nomatch h⟩

/-- The value of a series. -/
def get? (table : Table V) (name : String) (labels : LabelSet) : Option V :=
  (table.series.get? name).bind fun inner => inner.get? labels

/-- `table[name][labels] = f(table[name][labels])`. -/
def modify (table : Table V) (default : V) (name : String) (labels : LabelSet) (f : V → V) :
    Table V where
  series := table.series.modify Dict.empty name fun inner => inner.modify default labels f
  nonempty := by
    intro other inner h
    by_cases heq : other = name
    · subst heq
      rw [Dict.get?_modify_self] at h
      have hinner := Option.some.inj h
      rw [← hinner]
      exact Dict.modify_ne_nil _ _ _ _
    · rw [Dict.get?_modify_of_ne _ _ heq] at h
      exact table.nonempty _ _ h

/-- It has none. -/
@[simp]
theorem get?_empty (name : String) (labels : LabelSet) :
    (empty : Table V).get? name labels = none := rfl

/-- A change is a change of one series. -/
theorem get?_modify (table : Table V) (default : V) (name name' : String)
    (labels labels' : LabelSet) (f : V → V) :
    (table.modify default name labels f).get? name' labels'
      = if name = name' ∧ labels = labels' then
          some (f ((table.get? name' labels').getD default))
        else table.get? name' labels' := by
  unfold get? modify
  dsimp only
  by_cases hname : name' = name
  · subst hname
    rw [Dict.get?_modify_self, Option.bind_some]
    have hinner : ((table.series.get? name').getD Dict.empty).get? labels'
        = (table.series.get? name').bind fun inner => inner.get? labels' := by
      cases table.series.get? name' with
      | none => rfl
      | some inner => rfl
    by_cases hlabels : labels' = labels
    · subst hlabels
      rw [Dict.get?_modify_self, if_pos ⟨rfl, rfl⟩, hinner]
    · rw [Dict.get?_modify_of_ne _ _ hlabels, if_neg fun h => hlabels h.2.symm, hinner]
  · rw [Dict.get?_modify_of_ne _ _ hname, if_neg fun h => hname h.1.symm]

/-- The series by name, each in order. -/
def sections (table : Table V) : List (String × List (LabelSet × V)) :=
  (table.series.mapValues Dict.sorted).sorted

/-- Tables that read alike have the same sorted series. -/
theorem get?_series_eq {table table' : Table V}
    (h : ∀ name labels, table.get? name labels = table'.get? name labels) (name : String) :
    ((table.series.mapValues Dict.sorted).get? name)
      = ((table'.series.mapValues Dict.sorted).get? name) := by
  -- A name with a series has one label set at least, and the other table has that too.
  have hsome : ∀ {t t' : Table V}, (∀ labels, t.get? name labels = t'.get? name labels) →
      ∀ inner, t.series.get? name = some inner → ∃ inner', t'.series.get? name = some inner' := by
    intro t t' heq inner hinner
    obtain ⟨item, hitem⟩ := List.exists_mem_of_ne_nil _ (t.nonempty name inner hinner)
    have hget := heq item.1
    have hinnerGet : inner.get? item.1 = some item.2 := Dict.mem_items.mp hitem
    unfold get? at hget
    rw [hinner, Option.bind_some, hinnerGet] at hget
    cases hother : t'.series.get? name with
    | none =>
      rw [hother] at hget
      cases hget
    | some inner' => exact ⟨inner', rfl⟩
  rw [Dict.get?_mapValues, Dict.get?_mapValues]
  cases hleft : table.series.get? name with
  | none =>
    cases hright : table'.series.get? name with
    | none => rfl
    | some inner =>
      obtain ⟨inner', hinner'⟩ := hsome (fun labels => (h name labels).symm) inner hright
      rw [hleft] at hinner'
      cases hinner'
  | some inner =>
    obtain ⟨inner', hinner'⟩ := hsome (h name) inner hleft
    rw [hinner', Option.map_some, Option.map_some, Option.some.injEq]
    apply Dict.sorted_eq
    intro labels
    have hget := h name labels
    unfold get? at hget
    rwa [hleft, hinner', Option.bind_some, Option.bind_some] at hget

/-- A section is a name's sorted series. -/
theorem mem_sections {table : Table V} {name : String} {samples : List (LabelSet × V)} :
    (name, samples) ∈ table.sections
      ↔ ∃ inner, table.series.get? name = some inner ∧ inner.sorted = samples := by
  unfold sections
  rw [Dict.mem_sorted, Dict.get?_mapValues, Option.map_eq_some_iff]

/-- **What a table shows is what its lookups give.** -/
theorem sections_eq {table table' : Table V}
    (h : ∀ name labels, table.get? name labels = table'.get? name labels) :
    table.sections = table'.sections :=
  Dict.sorted_eq (get?_series_eq h)

end Table

/-- `sections` has the series with a total, each once: names in increasing
order, and under each name its label sets in increasing order. -/
structure Lists {V : Type} (sections : List (String × List (LabelSet × V)))
    (total : String → LabelSet → Option V) : Prop where
  names : sections.Pairwise fun a b => a.1 < b.1
  labels : ∀ block ∈ sections, block.2.Pairwise fun a b => a.1 < b.1
  nonempty : ∀ block ∈ sections, block.2 ≠ []
  shown : ∀ name labels value,
    (∃ samples, (name, samples) ∈ sections ∧ (labels, value) ∈ samples)
      ↔ total name labels = some value

/-- A table lists what it holds. -/
theorem Table.lists {V : Type} (table : Table V) : Lists table.sections table.get? where
  names := Dict.pairwise_sorted _
  labels := by
    intro block hblock
    obtain ⟨inner, -, hinner⟩ := mem_sections.mp hblock
    rw [← hinner]
    exact inner.pairwise_sorted
  nonempty := by
    intro block hblock
    obtain ⟨inner, hget, hinner⟩ := mem_sections.mp hblock
    rw [← hinner, ← List.length_pos_iff, Dict.sorted, length_sortBy, List.length_pos_iff]
    exact table.nonempty _ _ hget
  shown := by
    intro name labels value
    unfold Table.get?
    rw [Option.bind_eq_some_iff]
    constructor
    · intro h
      obtain ⟨samples, hsamples, hvalue⟩ := h
      obtain ⟨inner, hget, rfl⟩ := mem_sections.mp hsamples
      exact ⟨inner, hget, Dict.mem_sorted.mp hvalue⟩
    · intro h
      obtain ⟨inner, hget, hvalue⟩ := h
      exact ⟨inner.sorted, mem_sections.mpr ⟨inner, hget, rfl⟩, Dict.mem_sorted.mpr hvalue⟩

/-! ## The store -/

/-- How often, and how much in all. -/
structure Summary where
  count : ℚ
  sum : ℚ
deriving DecidableEq

/-- The three tables. -/
structure MetricsStore where
  counters : Table ℚ
  gauges : Table ℚ
  summaries : Table Summary

namespace MetricsStore

/-- `__init__`: they are empty. -/
def init : MetricsStore :=
  ⟨.empty, .empty, .empty⟩

/-- `incr`. -/
def incr (store : MetricsStore) (name : String) (amount : ℚ)
    (labels : List (String × String)) : MetricsStore :=
  { store with
    counters := store.counters.modify 0 name (labelsKey labels) fun value => value + amount }

/-- `set_gauge`. -/
def setGauge (store : MetricsStore) (name : String) (value : ℚ)
    (labels : List (String × String)) : MetricsStore :=
  { store with gauges := store.gauges.modify value name (labelsKey labels) fun _ => value }

/-- `observe`. -/
def observe (store : MetricsStore) (name : String) (value : ℚ)
    (labels : List (String × String)) : MetricsStore :=
  { store with
    summaries := store.summaries.modify ⟨0, 0⟩ name (labelsKey labels) fun summary =>
      ⟨summary.count + 1, summary.sum + value⟩ }

/-- The store after one call. -/
def update (store : MetricsStore) : MetricUpdate → MetricsStore
  | .incr name amount labels => store.incr name amount labels
  | .setGauge name value labels => store.setGauge name value labels
  | .observe name value labels => store.observe name value labels

/-- The store after `log`, each call atomic under the lock. -/
def after (log : List MetricUpdate) : MetricsStore :=
  log.foldl update init

end MetricsStore

/-! ## What the log says of a series -/

/-- The kinds of series. -/
inductive MetricKind
  | counter
  | gauge
  | summary
deriving DecidableEq

namespace MetricUpdate

/-- The kind of series a call changes. -/
def kind : MetricUpdate → MetricKind
  | .incr .. => .counter
  | .setGauge .. => .gauge
  | .observe .. => .summary

/-- The metric it names. -/
def name : MetricUpdate → String
  | .incr name _ _ | .setGauge name _ _ | .observe name _ _ => name

/-- The value it brings. -/
def value : MetricUpdate → ℚ
  | .incr _ value _ | .setGauge _ value _ | .observe _ value _ => value

/-- The labels it gives. -/
def labels : MetricUpdate → List (String × String)
  | .incr _ _ labels | .setGauge _ _ labels | .observe _ _ labels => labels

/-- A call of one series. -/
def Hits (kind : MetricKind) (name : String) (labels : LabelSet) (call : MetricUpdate) : Prop :=
  call.kind = kind ∧ call.name = name ∧ labelsKey call.labels = labels

instance (kind : MetricKind) (name : String) (labels : LabelSet) :
    DecidablePred (Hits kind name labels) := by
  unfold Hits
  infer_instance

/-- The value it brings to one series. -/
def payload? (kind : MetricKind) (name : String) (labels : LabelSet) (call : MetricUpdate) :
    Option ℚ :=
  if call.Hits kind name labels then some call.value else none

end MetricUpdate

/-- The values a series was called with, in the order of the calls. -/
def payloads (kind : MetricKind) (log : List MetricUpdate) (name : String) (labels : LabelSet) :
    List ℚ :=
  log.filterMap (MetricUpdate.payload? kind name labels)

/-- The sum of the amounts, of a counter that has any. -/
def counterTotal (amounts : List ℚ) : Option ℚ :=
  if amounts = [] then none else some amounts.sum

/-- The number and the sum of the observations. -/
def summaryTotal (observations : List ℚ) : Option Summary :=
  if observations = [] then none else some ⟨observations.length, observations.sum⟩

namespace MetricsStore

/-- If each update folds its payload into a series, so does the log. -/
theorem get?_foldl {V : Type} (table : MetricsStore → Table V) (payload : MetricUpdate → Option ℚ)
    (fold : Option V → ℚ → V) {name : String} {labels : LabelSet}
    (hstep : ∀ store call, (table (update store call)).get? name labels
      = ((payload call).elim ((table store).get? name labels) fun value =>
          some (fold ((table store).get? name labels) value)))
    (log : List MetricUpdate) (store : MetricsStore) :
    (table (log.foldl update store)).get? name labels
      = (log.filterMap payload).foldl (fun old value => some (fold old value))
          ((table store).get? name labels) := by
  induction log generalizing store with
  | nil => rfl
  | cons call log ih =>
    rw [List.foldl_cons, ih, hstep]
    cases hpayload : payload call with
    | none => rw [List.filterMap_cons_none hpayload, Option.elim_none]
    | some value => rw [List.filterMap_cons_some hpayload, Option.elim_some, List.foldl_cons]

/-! ### Folds -/

/-- Increments add up. -/
theorem foldl_sum (amounts : List ℚ) (start : ℚ) :
    amounts.foldl (fun old amount => some (old.getD 0 + amount)) (some start)
      = some (start + amounts.sum) := by
  induction amounts generalizing start with
  | nil => simp
  | cons amount amounts ih =>
    rw [List.foldl_cons, Option.getD_some, ih, List.sum_cons, add_assoc]

/-- Observations are counted and add up. -/
theorem foldl_summary (observations : List ℚ) (start : Summary) :
    observations.foldl (fun old value =>
        some (⟨(old.getD ⟨0, 0⟩).count + 1, (old.getD ⟨0, 0⟩).sum + value⟩ : Summary)) (some start)
      = some ⟨start.count + observations.length, start.sum + observations.sum⟩ := by
  induction observations generalizing start with
  | nil => simp
  | cons value observations ih =>
    rw [List.foldl_cons, ih, List.sum_cons, List.length_cons, Nat.cast_succ]
    simp only [Option.getD_some, Option.some.injEq, Summary.mk.injEq]
    exact ⟨by ring, by ring⟩

/-- Of settings the last one stays. -/
theorem foldl_last (settings : List ℚ) (old : Option ℚ) :
    settings.foldl (fun _ value => some value) old = settings.getLast?.or old := by
  induction settings generalizing old with
  | nil => rfl
  | cons value settings ih =>
    rw [List.foldl_cons, ih, List.getLast?_cons]
    cases settings.getLast? with
    | none => rfl
    | some last => rfl

/-! ### The three tables -/

/-- A call updates the series it hits. -/
theorem get?_modify_payload {V : Type} {kind : MetricKind} (call : MetricUpdate)
    (hkind : call.kind = kind) (table : Table V) (default : V) (f : ℚ → V → V) (name : String)
    (labels : LabelSet) :
    (table.modify default call.name (labelsKey call.labels) (f call.value)).get? name labels
      = (call.payload? kind name labels).elim (table.get? name labels) fun value =>
          some (f value ((table.get? name labels).getD default)) := by
  rw [Table.get?_modify]
  unfold MetricUpdate.payload?
  by_cases hhits : call.Hits kind name labels
  · rw [if_pos hhits, if_pos hhits.2]
    rfl
  · have hother : ¬(call.name = name ∧ labelsKey call.labels = labels) :=
      fun h => hhits ⟨hkind, h⟩
    rw [if_neg hhits, if_neg hother]
    rfl

/-- One call and one counter. -/
theorem counters_update (name : String) (labels : LabelSet) (store : MetricsStore)
    (call : MetricUpdate) :
    (update store call).counters.get? name labels
      = (call.payload? .counter name labels).elim (store.counters.get? name labels) fun value =>
          some ((store.counters.get? name labels).getD 0 + value) := by
  cases call with
  | incr name' value labels' =>
    exact get?_modify_payload (.incr name' value labels') rfl store.counters 0
      (fun value old => old + value) name labels
  | setGauge => rfl
  | observe => rfl

/-- One call and one gauge. -/
theorem gauges_update (name : String) (labels : LabelSet) (store : MetricsStore)
    (call : MetricUpdate) :
    (update store call).gauges.get? name labels
      = (call.payload? .gauge name labels).elim (store.gauges.get? name labels) fun value =>
          some value := by
  cases call with
  | incr => rfl
  | setGauge name' value labels' =>
    exact get?_modify_payload (.setGauge name' value labels') rfl store.gauges value
      (fun value _ => value) name labels
  | observe => rfl

/-- One call and one summary. -/
theorem summaries_update (name : String) (labels : LabelSet) (store : MetricsStore)
    (call : MetricUpdate) :
    (update store call).summaries.get? name labels
      = (call.payload? .summary name labels).elim (store.summaries.get? name labels) fun value =>
          some ⟨((store.summaries.get? name labels).getD ⟨0, 0⟩).count + 1,
            ((store.summaries.get? name labels).getD ⟨0, 0⟩).sum + value⟩ := by
  cases call with
  | incr => rfl
  | setGauge => rfl
  | observe name' value labels' =>
    exact get?_modify_payload (.observe name' value labels') rfl store.summaries ⟨0, 0⟩
      (fun value old => ⟨old.count + 1, old.sum + value⟩) name labels

/-- A counter is the sum of its amounts. -/
theorem get?_counters (log : List MetricUpdate) (name : String) (labels : LabelSet) :
    (after log).counters.get? name labels = counterTotal (payloads .counter log name labels) := by
  unfold after payloads counterTotal
  rw [get?_foldl counters _ (fun old amount => old.getD 0 + amount) (counters_update name labels)]
  cases List.filterMap (MetricUpdate.payload? .counter name labels) log with
  | nil => rfl
  | cons amount rest =>
    rw [if_neg (List.cons_ne_nil _ _), List.foldl_cons, foldl_sum, List.sum_cons]
    show some (0 + amount + rest.sum) = _
    rw [zero_add]

/-- A gauge is the last value set. -/
theorem get?_gauges (log : List MetricUpdate) (name : String) (labels : LabelSet) :
    (after log).gauges.get? name labels = (payloads .gauge log name labels).getLast? := by
  unfold after payloads
  rw [get?_foldl gauges _ (fun _ value => value) (gauges_update name labels), foldl_last]
  exact Option.or_none

/-- A summary is the number and the sum of its observations. -/
theorem get?_summaries (log : List MetricUpdate) (name : String) (labels : LabelSet) :
    (after log).summaries.get? name labels = summaryTotal (payloads .summary log name labels) := by
  unfold after payloads summaryTotal
  rw [get?_foldl summaries _
    (fun old value => ⟨(old.getD ⟨0, 0⟩).count + 1, (old.getD ⟨0, 0⟩).sum + value⟩)
    (summaries_update name labels)]
  cases List.filterMap (MetricUpdate.payload? .summary name labels) log with
  | nil => rfl
  | cons value rest =>
    rw [if_neg (List.cons_ne_nil _ _), List.foldl_cons, foldl_summary, List.sum_cons,
      List.length_cons, Nat.cast_succ]
    show some (⟨0 + 1 + rest.length, 0 + value + rest.sum⟩ : Summary) = _
    rw [zero_add, zero_add, add_comm]

end MetricsStore

/-! ## The page -/

/-- `<` on two dictionaries raises. -/
def dictLt {V : Type} (_ _ : V) : Except PyError Bool :=
  .error .typeError

/-- `<` on two floats. -/
def floatLt (a b : ℚ) : Except PyError Bool :=
  .ok (decide (a < b))

/-- One of the page's three loops. -/
def renderTable {V : Type} (ltValue : V → V → Except PyError Bool)
    (header : String → List String) (sample : String → LabelSet → V → List String)
    (table : Table V) : Except PyError (List String) := do
  let named ← Dict.sortItems dictLt table.series.items
  let blocks ← named.mapM fun (name, series) => do
    let samples ← Dict.sortItems ltValue series.items
    return header name ++ samples.flatMap fun (labels, value) => sample name labels value
  return blocks.flatten

section Rendering

-- The texts of a float, and of a gauge's value as it was given.
variable (floatText givenText : ℚ → String)

/-- The line above a counter. -/
def counterHeader (name : String) : List String :=
  ["# TYPE " ++ name ++ " counter"]

/-- The line of a counter. -/
def counterSample (name : String) (labels : LabelSet) (value : ℚ) : List String :=
  [name ++ formatLabels labels ++ " " ++ floatText value]

/-- The line above a gauge. -/
def gaugeHeader (name : String) : List String :=
  ["# TYPE " ++ name ++ " gauge"]

/-- The line of a gauge. -/
def gaugeSample (name : String) (labels : LabelSet) (value : ℚ) : List String :=
  [name ++ formatLabels labels ++ " " ++ givenText value]

/-- The lines above a summary. -/
def summaryHeader (name : String) : List String :=
  ["# TYPE " ++ name ++ "_count counter", "# TYPE " ++ name ++ "_sum counter"]

/-- The two lines of a summary. -/
def summarySample (name : String) (labels : LabelSet) (value : Summary) : List String :=
  let labelText := formatLabels labels
  [name ++ "_count" ++ labelText ++ " " ++ floatText value.count,
    name ++ "_sum" ++ labelText ++ " " ++ floatText value.sum]

/-- The lines joined, with an end of line after the last. -/
def joinLines (lines : List String) : String :=
  String.intercalate "\n" lines ++ if lines = [] then "" else "\n"

/-- `render_prometheus`. -/
def MetricsStore.renderPrometheus (store : MetricsStore) : Except PyError String := do
  let counters ← renderTable floatLt counterHeader (counterSample floatText) store.counters
  let gauges ← renderTable floatLt gaugeHeader (gaugeSample givenText) store.gauges
  let summaries ← renderTable dictLt summaryHeader (summarySample floatText) store.summaries
  return joinLines (counters ++ gauges ++ summaries)

/-- What a page shows. -/
structure Page where
  counters : List (String × List (LabelSet × ℚ))
  gauges : List (String × List (LabelSet × ℚ))
  summaries : List (String × List (LabelSet × Summary))

/-- The lines of some sections. -/
def sectionLines {V : Type} (header : String → List String)
    (sample : String → LabelSet → V → List String)
    (sections : List (String × List (LabelSet × V))) : List String :=
  sections.flatMap fun block =>
    header block.1 ++ block.2.flatMap fun item => sample block.1 item.1 item.2

/-- The lines of a page. -/
def Page.lines (page : Page) : List String :=
  sectionLines counterHeader (counterSample floatText) page.counters
    ++ sectionLines gaugeHeader (gaugeSample givenText) page.gauges
    ++ sectionLines summaryHeader (summarySample floatText) page.summaries

/-- The page of a store. -/
def MetricsStore.page (store : MetricsStore) : Page :=
  ⟨store.counters.sections, store.gauges.sections, store.summaries.sections⟩

/-- Whatever two values compare to, a table renders. -/
theorem renderTable_eq {V : Type} (ltValue : V → V → Except PyError Bool)
    (header : String → List String) (sample : String → LabelSet → V → List String)
    (table : Table V) :
    renderTable ltValue header sample table
      = .ok (sectionLines header sample table.sections) := by
  unfold renderTable
  rw [Dict.sortItems_eq dictLt table.series.nodup]
  have hblock : ∀ item : String × Dict LabelSet V,
      ((Dict.sortItems ltValue item.2.items).bind fun samples =>
        Except.ok (header item.1 ++ samples.flatMap fun s => sample item.1 s.1 s.2))
      = Except.ok (header item.1 ++ item.2.sorted.flatMap fun s => sample item.1 s.1 s.2) := by
    intro item
    rw [Dict.sortItems_eq ltValue item.2.nodup]
    rfl
  have hblocks := congrArg (List.mapM · (sortBy Prod.fst table.series.items)) (funext hblock)
  show (Except.bind _ fun blocks => Except.ok (List.flatten blocks)) = _
  erw [hblocks, List.mapM_pure]
  unfold sectionLines Table.sections
  rw [Dict.sorted_mapValues, List.flatMap_map, List.flatMap_def]
  rfl

/-- **Rendering never raises**, and prints what the page shows. -/
theorem MetricsStore.renderPrometheus_eq (store : MetricsStore) :
    store.renderPrometheus floatText givenText
      = .ok (joinLines (store.page.lines floatText givenText)) := by
  unfold renderPrometheus
  rw [renderTable_eq, renderTable_eq, renderTable_eq]
  rfl

end Rendering

/-! ## Two logs of the same calls -/

namespace MetricUpdate

/-- The same call, with its labels in another order. -/
def Same (call call' : MetricUpdate) : Prop :=
  call.kind = call'.kind ∧ call.name = call'.name ∧ call.value = call'.value
    ∧ call.labels.Perm call'.labels

/-- Calls with the same labels bring the same values. -/
theorem Same.payload? {call call' : MetricUpdate} (h : call.Same call') (kind : MetricKind)
    (name : String) (labels : LabelSet) :
    call.payload? kind name labels = call'.payload? kind name labels := by
  obtain ⟨hkind, hname, hvalue, hlabels⟩ := h
  have hhits : call.Hits kind name labels ↔ call'.Hits kind name labels := by
    unfold Hits
    rw [hkind, hname, labelsKey_perm hlabels]
  unfold MetricUpdate.payload?
  rw [hvalue]
  simp only [hhits]

end MetricUpdate

/-- The calls of `log` in some order, each with its labels in some order. -/
def SameCalls (log log' : List MetricUpdate) : Prop :=
  ∃ ordered, log.Perm ordered ∧ List.Forall₂ MetricUpdate.Same ordered log'

/-- So do logs of such calls. -/
theorem filterMap_eq_of_same {log log' : List MetricUpdate} {payload : MetricUpdate → Option ℚ}
    (h : List.Forall₂ MetricUpdate.Same log log')
    (hpayload : ∀ {call call' : MetricUpdate}, call.Same call' → payload call = payload call') :
    log.filterMap payload = log'.filterMap payload := by
  induction h with
  | nil => rfl
  | cons hsame _ ih => rw [List.filterMap_cons, List.filterMap_cons, hpayload hsame, ih]

/-- A reordered log brings the same values, reordered. -/
theorem SameCalls.payloads {log log' : List MetricUpdate} (h : SameCalls log log')
    (kind : MetricKind) (name : String) (labels : LabelSet) :
    (payloads kind log name labels).Perm (payloads kind log' name labels) := by
  obtain ⟨ordered, hperm, hsame⟩ := h
  unfold ControlPlane.payloads
  rw [← filterMap_eq_of_same hsame fun hcall => hcall.payload? kind name labels]
  exact hperm.filterMap _

/-- Their sum is the same. -/
theorem counterTotal_perm {amounts amounts' : List ℚ} (h : amounts.Perm amounts') :
    counterTotal amounts = counterTotal amounts' := by
  unfold counterTotal
  rw [h.sum_eq]
  simp only [← List.length_eq_zero_iff, h.length_eq]

/-- And so is the count. -/
theorem summaryTotal_perm {observations observations' : List ℚ}
    (h : observations.Perm observations') :
    summaryTotal observations = summaryTotal observations' := by
  unfold summaryTotal
  rw [h.sum_eq, h.length_eq]
  simp only [← List.length_eq_zero_iff, h.length_eq]

/-- A log without gauges has no gauge. -/
theorem payloads_gauge_eq_nil {log : List MetricUpdate} (h : ∀ call ∈ log, call.kind ≠ .gauge)
    (name : String) (labels : LabelSet) : payloads .gauge log name labels = [] := by
  apply List.filterMap_eq_nil_iff.mpr
  intro call hcall
  exact if_neg fun hhits => h call hcall hhits.1

/-- Where no gauge is set, the order of the calls does not show. -/
theorem page_eq_of_sameCalls {log log' : List MetricUpdate}
    (hadds : ∀ call ∈ log, call.kind ≠ .gauge) (h : SameCalls log log') :
    (MetricsStore.after log).page = (MetricsStore.after log').page := by
  have hcounters : (MetricsStore.after log).counters.sections
      = (MetricsStore.after log').counters.sections := by
    apply Table.sections_eq
    intro name labels
    rw [MetricsStore.get?_counters, MetricsStore.get?_counters,
      counterTotal_perm (h.payloads .counter name labels)]
  have hgauges : (MetricsStore.after log).gauges.sections
      = (MetricsStore.after log').gauges.sections := by
    apply Table.sections_eq
    intro name labels
    have hnone := payloads_gauge_eq_nil hadds name labels
    have hnone' := (hnone ▸ h.payloads .gauge name labels).nil_eq
    rw [MetricsStore.get?_gauges, MetricsStore.get?_gauges, hnone, ← hnone']
  have hsummaries : (MetricsStore.after log).summaries.sections
      = (MetricsStore.after log').summaries.sections := by
    apply Table.sections_eq
    intro name labels
    rw [MetricsStore.get?_summaries, MetricsStore.get?_summaries,
      summaryTotal_perm (h.payloads .summary name labels)]
  unfold MetricsStore.page
  rw [hcounters, hgauges, hsummaries]

/-! ## The page and the log -/

/-- A table that reads as the totals lists them. -/
theorem lists_of_get? {V : Type} {table : Table V} {total : String → LabelSet → Option V}
    (h : ∀ name labels, table.get? name labels = total name labels) :
    Lists table.sections total := by
  have htotal : table.get? = total := by
    funext name labels
    exact h name labels
  rw [← htotal]
  exact table.lists

/-- **The page is the log.** It renders, with each counter at the sum of its
amounts, each gauge at the last value set and each summary at the number and
the sum of its observations, each series once and in an order of its own; and
calls that only add give the same text in any order. -/
theorem page_equals_log (floatText givenText : ℚ → String) (log : List MetricUpdate) :
    (∃ page : Page,
      (MetricsStore.after log).renderPrometheus floatText givenText
          = .ok (joinLines (page.lines floatText givenText))
        ∧ Lists page.counters (fun name labels =>
            counterTotal (payloads .counter log name labels))
        ∧ Lists page.gauges (fun name labels => (payloads .gauge log name labels).getLast?)
        ∧ Lists page.summaries (fun name labels =>
            summaryTotal (payloads .summary log name labels)))
      ∧ ∀ log', (∀ call ∈ log, call.kind ≠ .gauge) → SameCalls log log' →
        (MetricsStore.after log').renderPrometheus floatText givenText
          = (MetricsStore.after log).renderPrometheus floatText givenText := by
  refine ⟨⟨(MetricsStore.after log).page, MetricsStore.renderPrometheus_eq _ _ _,
    lists_of_get? (MetricsStore.get?_counters log), lists_of_get? (MetricsStore.get?_gauges log),
    lists_of_get? (MetricsStore.get?_summaries log)⟩, ?_⟩
  intro log' hadds hsame
  rw [MetricsStore.renderPrometheus_eq, MetricsStore.renderPrometheus_eq,
    page_eq_of_sameCalls hadds hsame]

/-- A decision counted and timed by one caller, a rejection counted by another. -/
def sampleCalls : List MetricUpdate :=
  [.incr "routing_decisions_total" 1 [("policy_id", "balanced"), ("agent_id", "agent")],
    .observe "routing_decision_latency_ms" 42 [("policy_id", "balanced")],
    .incr "routing_rejections_total" 1 [("reason", "budget"), ("provider", "lab")]]

/-- The same calls in another order, their labels too. -/
def sampleCallsReordered : List MetricUpdate :=
  [.incr "routing_rejections_total" 1 [("provider", "lab"), ("reason", "budget")],
    .incr "routing_decisions_total" 1 [("agent_id", "agent"), ("policy_id", "balanced")],
    .observe "routing_decision_latency_ms" 42 [("policy_id", "balanced")]]

/-- They give the same page. -/
theorem page_equals_log_reordered :
    (MetricsStore.after sampleCallsReordered).renderPrometheus toString toString
      = (MetricsStore.after sampleCalls).renderPrometheus toString toString := by
  apply (page_equals_log toString toString sampleCalls).2 sampleCallsReordered
  · intro call hcall
    fin_cases hcall <;> decide
  · have hperm : (sampleCalls.take 2 ++ sampleCalls.drop 2).Perm
        (sampleCalls.drop 2 ++ sampleCalls.take 2) := List.perm_append_comm
    refine ⟨_, hperm, ?_⟩
    exact .cons ⟨rfl, rfl, rfl, .swap _ _ _⟩ (.cons ⟨rfl, rfl, rfl, .swap _ _ _⟩
      (.cons ⟨rfl, rfl, rfl, .refl _⟩ .nil))

end ControlPlane
