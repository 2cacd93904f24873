import ControlPlane.MetricsStore
import ControlPlane.RedisRows

/-!
# The metrics, told from the rows and the events

`create_decision` counts a decision once its row is in, `record_outcome` an
outcome once its event is out, and nothing else counts either. So the page of
a service shows no more than tables and stream have grown by since it started
(`metrics_within_rows`). It may show less: an insert or an event whose
acknowledgement is lost is never counted.

Mirroring notes:
- Tables and stream outlive the process, the metrics do not: the runs start
  with no metrics, on any rows.
- A step commits, is acknowledged and counts at once. Between the commit and
  the counting the page would be further behind, never ahead.
-/

namespace ControlPlane

open Lib

variable {Q : Type}

/-! ## What a row and an event count for -/

/-- The updates for a row; the limits of its principal do not show. -/
def RoutingDecisionRecord.counted (row : RoutingDecisionRecord) : List MetricUpdate :=
  decisionMetrics
    { agentId := row.agentId
      environment := row.environment
      tenantId := row.tenantId
      rateLimitRpm := 0
      concurrentLimit := 0
      dailyBudgetUsd := 0
      defaultPolicyId := "" }
    row.responsePayload

/-- What an event has counted. -/
def OutcomeEvent.counted (event : OutcomeEvent) : List MetricUpdate :=
  [.incr "routing_outcomes_total" 1
      [("final_status", event.finalStatus.text), ("agent_id", event.agentId)],
    .observe "routing_fallback_depth" event.fallbackDepth
      [("final_status", event.finalStatus.text)]]

/-- A decision's row tells what its creation counts. -/
theorem counted_decisionRecord (principal : AgentPrincipal) (request : RoutingDecisionRequest)
    (response : RoutingDecisionResponse) (idempotencyKey : Option String) :
    (decisionRecord principal request response idempotencyKey).counted
      = decisionMetrics principal response := rfl

/-- An outcome's event tells what its report counts. -/
theorem counted_outcomeEvent (call : OutcomeCall) :
    (outcomeEvent call).counted = outcomeMetrics call.principal call.outcome := rfl

/-- The updates for the rows, row by row. -/
def World.rowUpdates (w : World Q) : List (List MetricUpdate) :=
  w.tables.decisions.map (·.counted)

/-- What each event of the stream has counted. -/
def World.eventUpdates (w : World Q) : List (List MetricUpdate) :=
  w.events.map (·.counted)

/-- The log as it can be told from what tables and stream have got since `w₀`. -/
def World.recountSince (w₀ w : World Q) : List MetricUpdate :=
  (w.rowUpdates.drop w₀.rowUpdates.length).flatten
    ++ (w.eventUpdates.drop w₀.eventUpdates.length).flatten

/-- The metrics of outcomes; the others are of decisions. -/
def outcomeNames : List String :=
  ["routing_outcomes_total", "routing_fallback_depth"]

/-- A metric of outcomes. -/
def MetricUpdate.OfOutcome (update : MetricUpdate) : Prop :=
  update.name ∈ outcomeNames

instance : DecidablePred MetricUpdate.OfOutcome :=
  fun _ => inferInstanceAs (Decidable (_ ∈ _))

/-- A decision counts none of them. -/
theorem not_ofOutcome_decisionMetrics {principal : AgentPrincipal}
    {response : RoutingDecisionResponse} {update : MetricUpdate}
    (h : update ∈ decisionMetrics principal response) : ¬update.OfOutcome := by
  simp only [decisionMetrics, List.mem_append, List.mem_cons, List.not_mem_nil, or_false,
    List.mem_map] at h
  rcases h with ((rfl | rfl | rfl) | ⟨rejection, -, rfl⟩) | rfl | rfl <;>
    simp [MetricUpdate.OfOutcome, outcomeNames, MetricUpdate.name]

/-- An outcome counts nothing else. -/
theorem ofOutcome_counted {event : OutcomeEvent} {update : MetricUpdate}
    (h : update ∈ event.counted) : update.OfOutcome := by
  simp only [OutcomeEvent.counted, List.mem_cons, List.not_mem_nil, or_false] at h
  rcases h with rfl | rfl <;> simp [MetricUpdate.OfOutcome, outcomeNames, MetricUpdate.name]

/-! ## One step -/

/-- What a step does to rows, events and metrics; an acknowledgement may get
lost. -/
inductive MeterStep (w w' : World Q) : Prop
  | kept (hrows : w'.rowUpdates = w.rowUpdates) (hevents : w'.events = w.events)
      (hmetrics : w'.metrics = w.metrics)
  | decided (row : RoutingDecisionRecord) (hrows : w'.rowUpdates = w.rowUpdates ++ [row.counted])
      (hevents : w'.events = w.events)
      (hmetrics : w'.metrics = w.metrics ++ row.counted ∨ w'.metrics = w.metrics)
  | published (event : OutcomeEvent) (hrows : w'.rowUpdates = w.rowUpdates)
      (hevents : w'.events = w.events ++ [event])
      (hmetrics : w'.metrics = w.metrics ++ event.counted ∨ w'.metrics = w.metrics)

section Step

variable {D : Deps Q} {env : Env} {w w' : World Q}

/-- A created decision adds its own updates. -/
theorem rowUpdates_createDecision {principal : AgentPrincipal} {request : RoutingDecisionRequest}
    {response : RoutingDecisionResponse} {idempotencyKey : Option String} {tables : Tables}
    (h : createDecision principal request response idempotencyKey w.tables = .ok tables) :
    tables.decisions.map (·.counted)
      = w.rowUpdates ++ [(decisionRecord principal request response idempotencyKey).counted] := by
  rw [(createDecision_ok h).1]
  exact List.map_append

/-- An outcome stored adds none. -/
theorem rowUpdates_storeOutcome (tables : Tables) (decisionId : String)
    (outcome : RoutingOutcomeRequest) (idempotencyKey : Option String) :
    (tables.storeOutcome decisionId outcome idempotencyKey).decisions.map (·.counted)
      = tables.decisions.map (·.counted) := by
  simp only [Tables.storeOutcome, List.map_map]
  refine List.map_congr_left fun row _ => ?_
  by_cases h : row.decisionId = decisionId <;>
    simp [h, RoutingDecisionRecord.complete, RoutingDecisionRecord.counted]

/-- One step of a creation. -/
theorem CreateStep.meterStep {call : CreateCall} {pc pc' : CreatePc}
    (h : CreateStep D env call w pc w' pc') : MeterStep w w' := by
  cases h with
  | stored hf hins => exact .decided _ (rowUpdates_createDecision hins) rfl (.inl rfl)
  | storeLost hf hins => exact .decided _ (rowUpdates_createDecision hins) rfl (.inr rfl)
  | catalogKept => exact .kept (by simp [World.rowUpdates]) rfl rfl
  | metadataSkipped _ htables =>
    exact .kept (by rcases htables with rfl | rfl <;> simp [World.rowUpdates]) rfl rfl
  | policiesKept htables =>
    exact .kept (by rcases htables with rfl | rfl <;> simp [World.rowUpdates]) rfl rfl
  | releaseRaised _ hw => rcases hw with rfl | rfl <;> exact .kept rfl rfl rfl
  | _ => exact .kept rfl rfl rfl

/-- One step of a report. -/
theorem OutcomeStep.meterStep {call : OutcomeCall} {pc pc' : OutcomePc}
    (h : OutcomeStep D env call w pc w' pc') : MeterStep w w' := by
  have hstored : ∀ {record tables response},
      recordOutcome record call.outcome call.idempotencyKey w.tables = .ok (tables, response) →
        tables.decisions.map (·.counted) = w.tables.decisions.map (·.counted) := by
    intro record tables response hrec
    rcases recordOutcome_rowStep hrec with ⟨rfl, -⟩ | ⟨decision, -, -, rfl, -⟩
    · rfl
    · exact rowUpdates_storeOutcome _ _ _ _
  cases h with
  | storeLost hf hrec => exact .kept (hstored hrec) rfl rfl
  | recorded hf hrec hstatus => exact .kept (hstored hrec) rfl rfl
  | duplicate hf hrec hstatus => exact .kept (hstored hrec) rfl rfl
  | releaseRaised _ hw => rcases hw with rfl | rfl <;> exact .kept rfl rfl rfl
  | spendRaised _ hw => rcases hw with rfl | rfl <;> exact .kept rfl rfl rfl
  | publishRaised _ hevents =>
    rcases hevents with rfl | rfl
    · exact .kept rfl rfl rfl
    · exact .published _ rfl rfl (.inr rfl)
  | published => exact .published _ rfl rfl (.inl rfl)
  | _ => exact .kept rfl rfl rfl

/-- One step of either. -/
theorem advance_meterStep {t t' : Task}
    (h : (controlPlane D).advance env w t = some (w', t')) : MeterStep w w' := by
  rcases advance_cases h with ⟨call, pc, pc', rfl, rfl, hstep⟩ | ⟨call, pc, pc', rfl, rfl, hstep⟩
  · exact hstep.meterStep
  · exact hstep.meterStep

end Step

/-! ## Whole runs -/

/-- The two kinds of updates are among those of rows and events since `w₀`,
in the order they came. -/
structure Metered (w₀ w : World Q) : Prop where
  rows : w₀.rowUpdates.length ≤ w.rowUpdates.length
  events : w₀.eventUpdates.length ≤ w.eventUpdates.length
  decisions : (w.metrics.filter (¬·.OfOutcome)).Sublist
    (w.rowUpdates.drop w₀.rowUpdates.length).flatten
  outcomes : (w.metrics.filter (·.OfOutcome)).Sublist
    (w.eventUpdates.drop w₀.eventUpdates.length).flatten

section Kept

variable {w₀ w w' : World Q}

/-- A list added past the first `n` is added at the end. -/
theorem flatten_drop_snoc {α : Type} {n : ℕ} {ls : List (List α)} (added : List α)
    (h : n ≤ ls.length) :
    ((ls ++ [added]).drop n).flatten = (ls.drop n).flatten ++ added := by
  rw [List.drop_append_of_le_length h, List.flatten_append, List.flatten_singleton]

/-- **A step keeps the metrics within rows and events.** -/
theorem MeterStep.metered (h : MeterStep w w') (hm : Metered w₀ w) : Metered w₀ w' := by
  obtain ⟨hrowsLe, heventsLe, hdecisions, houtcomes⟩ := hm
  cases h with
  | kept hrows hevents hmetrics =>
    have heq : w'.eventUpdates = w.eventUpdates := congrArg (List.map OutcomeEvent.counted) hevents
    constructor <;> simp only [hrows, heq, hmetrics] <;> assumption
  | decided row hrows hevents hmetrics =>
    have heq : w'.eventUpdates = w.eventUpdates := congrArg (List.map OutcomeEvent.counted) hevents
    have hnone : row.counted.filter (·.OfOutcome) = [] :=
      List.filter_eq_nil_iff.mpr fun u hu => by simpa using not_ofOutcome_decisionMetrics hu
    have hall : row.counted.filter (¬·.OfOutcome) = row.counted :=
      List.filter_eq_self.mpr fun u hu => by simpa using not_ofOutcome_decisionMetrics hu
    refine ⟨?_, ?_, ?_, ?_⟩
    · rw [hrows, List.length_append]
      exact Nat.le_add_right_of_le hrowsLe
    · rwa [heq]
    · rw [hrows, flatten_drop_snoc _ hrowsLe]
      rcases hmetrics with hmetrics | hmetrics
      · rw [hmetrics, List.filter_append, hall]
        exact hdecisions.append (.refl _)
      · rw [hmetrics]
        exact hdecisions.trans (List.sublist_append_left _ _)
    · rw [heq]
      rcases hmetrics with hmetrics | hmetrics
      · rwa [hmetrics, List.filter_append, hnone, List.append_nil]
      · rwa [hmetrics]
  | published event hrows hevents hmetrics =>
    have heq : w'.eventUpdates = w.eventUpdates ++ [event.counted] := by
      unfold World.eventUpdates
      rw [hevents, List.map_append, List.map_singleton]
    have hall : event.counted.filter (·.OfOutcome) = event.counted :=
      List.filter_eq_self.mpr fun u hu => by simpa using ofOutcome_counted hu
    have hnone : event.counted.filter (¬·.OfOutcome) = [] :=
      List.filter_eq_nil_iff.mpr fun u hu => by simpa using ofOutcome_counted hu
    refine ⟨?_, ?_, ?_, ?_⟩
    · rwa [hrows]
    · rw [heq, List.length_append]
      exact Nat.le_add_right_of_le heventsLe
    · rw [hrows]
      rcases hmetrics with hmetrics | hmetrics
      · rwa [hmetrics, List.filter_append, hnone, List.append_nil]
      · rwa [hmetrics]
    · rw [heq, flatten_drop_snoc _ heventsLe]
      rcases hmetrics with hmetrics | hmetrics
      · rw [hmetrics, List.filter_append, hall]
        exact houtcomes.append (.refl _)
      · rw [hmetrics]
        exact houtcomes.trans (List.sublist_append_left _ _)

/-- A process that has counted nothing yet. -/
theorem Metered.start (h : w₀.metrics = []) : Metered w₀ w₀ := by
  constructor <;> simp [h]

end Kept

section Runs

variable {D : RedisDeps Q} {calendar : Calendar} {w₀ : World Q} {redis : Redis} {ts : List Task}
  {ok : Conf (RedisWorld Q) Task → Act Task RedisEnv → Prop} {acts : List (Act Task RedisEnv)}
  {c : Conf (RedisWorld Q) Task}

/-- The quota manager has no part in it. -/
theorem MeterStep.of_overQuota {w w' : World Q} {q q' : Slots}
    (h : MeterStep (w.overQuota q) (w'.overQuota q')) : MeterStep w w' := by
  cases h with
  | kept hrows hevents hmetrics => exact .kept hrows hevents hmetrics
  | decided row hrows hevents hmetrics => exact .decided row hrows hevents hmetrics
  | published event hrows hevents hmetrics => exact .published event hrows hevents hmetrics

/-- So it is on every run over Redis. -/
theorem redisPlane_metered (h₀ : w₀.metrics = [])
    (hrun : (redisPlane D calendar).Run ok ⟨⟨w₀, redis⟩, ts⟩ acts c) :
    Metered w₀ c.world.world := by
  refine System.Run.invariant (I := fun c => Metered w₀ c.world.world) ?_ ?_ hrun
    (Metered.start h₀)
  · exact fun _ _ _ _ h => h
  intro s l t r e s' t' _ hadv h
  obtain ⟨script, q', hstep⟩ := redisPlane_scripted (fun _ => ∅) hadv
  exact (advance_meterStep hstep).of_overQuota.metered h

/-! ## The page -/

/-- A series looks at the updates of its own metric. -/
theorem payloads_filter {p : MetricUpdate → Prop} [DecidablePred p] (kind : MetricKind)
    {name : String} (labels : LabelSet) {log : List MetricUpdate}
    (h : ∀ update ∈ log, update.name = name → p update) :
    payloads kind (log.filter (p ·)) name labels = payloads kind log name labels := by
  unfold payloads
  rw [List.filterMap_filter]
  refine List.filterMap_congr fun update hupdate => ?_
  unfold MetricUpdate.payload?
  by_cases hhits : update.Hits kind name labels
  · simp [h update hupdate hhits.2.1]
  · simp [hhits]

/-- A series of two logs. -/
theorem payloads_append (kind : MetricKind) (log log' : List MetricUpdate) (name : String)
    (labels : LabelSet) :
    payloads kind (log ++ log') name labels
      = payloads kind log name labels ++ payloads kind log' name labels :=
  List.filterMap_append

/-- A log without the metric has no series of it. -/
theorem payloads_eq_nil {log : List MetricUpdate} {name : String}
    (h : ∀ update ∈ log, update.name ≠ name) (kind : MetricKind) (labels : LabelSet) :
    payloads kind log name labels = [] := by
  refine List.filterMap_eq_nil_iff.mpr fun update hupdate => if_neg fun hhits => ?_
  exact h update hupdate hhits.2.1

/-- The updates of the rows are of decisions. -/
theorem World.not_ofOutcome_rowUpdates {w : World Q} {n : ℕ} {update : MetricUpdate}
    (h : update ∈ (w.rowUpdates.drop n).flatten) : ¬update.OfOutcome := by
  obtain ⟨updates, hupdates, hmem⟩ := List.mem_flatten.mp h
  obtain ⟨row, -, rfl⟩ := List.mem_map.mp (List.mem_of_mem_drop hupdates)
  exact not_ofOutcome_decisionMetrics hmem

/-- Those of the events are of outcomes. -/
theorem World.ofOutcome_eventUpdates {w : World Q} {n : ℕ} {update : MetricUpdate}
    (h : update ∈ (w.eventUpdates.drop n).flatten) : update.OfOutcome := by
  obtain ⟨updates, hupdates, hmem⟩ := List.mem_flatten.mp h
  obtain ⟨event, -, rfl⟩ := List.mem_map.mp (List.mem_of_mem_drop hupdates)
  exact ofOutcome_counted hmem

/-- A series is one of decisions or one of outcomes, in both logs. -/
theorem Metered.payloads {w : World Q} (hm : Metered w₀ w) (kind : MetricKind) (name : String)
    (labels : LabelSet) :
    ∃ l l', l.Sublist l' ∧ payloads kind w.metrics name labels = payloads kind l name labels
      ∧ payloads kind (w₀.recountSince w) name labels = payloads kind l' name labels := by
  unfold World.recountSince
  by_cases hname : name ∈ outcomeNames
  · refine ⟨_, _, hm.outcomes, (payloads_filter kind labels ?_).symm, ?_⟩
    · rintro update - rfl
      exact hname
    · have hnone : ControlPlane.payloads kind (w.rowUpdates.drop w₀.rowUpdates.length).flatten name
          labels = [] := by
        refine payloads_eq_nil ?_ kind labels
        rintro update hupdate rfl
        exact World.not_ofOutcome_rowUpdates hupdate hname
      rw [payloads_append, hnone, List.nil_append]
  · refine ⟨_, _, hm.decisions, (payloads_filter kind labels ?_).symm, ?_⟩
    · rintro update - rfl
      exact hname
    · have hnone : ControlPlane.payloads kind (w.eventUpdates.drop w₀.eventUpdates.length).flatten
          name labels = [] := by
        refine payloads_eq_nil ?_ kind labels
        rintro update hupdate rfl
        exact hname (World.ofOutcome_eventUpdates hupdate)
      rw [payloads_append, hnone, List.append_nil]

/-- No counter and no summary is ahead of what rows and events say. -/
structure WithinRows (w₀ w : World Q) : Prop where
  counters : ∀ name labels value,
    (MetricsStore.after w.metrics).counters.get? name labels = some value →
      ∃ total, (MetricsStore.after (w₀.recountSince w)).counters.get? name labels = some total
        ∧ value ≤ total
  summaries : ∀ name labels summary,
    (MetricsStore.after w.metrics).summaries.get? name labels = some summary →
      ∃ total, (MetricsStore.after (w₀.recountSince w)).summaries.get? name labels = some total
        ∧ summary.count ≤ total.count

/-- Every counter is counted in ones. -/
theorem World.recountSince_value {w₀ w : World Q} {update : MetricUpdate}
    (h : update ∈ w₀.recountSince w) (hkind : update.kind = .counter) : update.value = 1 := by
  rcases List.mem_append.mp h with h | h
  · obtain ⟨updates, hupdates, hmem⟩ := List.mem_flatten.mp h
    obtain ⟨row, -, rfl⟩ := List.mem_map.mp (List.mem_of_mem_drop hupdates)
    simp only [RoutingDecisionRecord.counted, decisionMetrics, List.mem_append, List.mem_cons,
      List.not_mem_nil, or_false, List.mem_map] at hmem
    rcases hmem with ((rfl | rfl | rfl) | ⟨rejection, -, rfl⟩) | rfl | rfl <;>
      first | rfl | cases hkind
  · obtain ⟨updates, hupdates, hmem⟩ := List.mem_flatten.mp h
    obtain ⟨event, -, rfl⟩ := List.mem_map.mp (List.mem_of_mem_drop hupdates)
    simp only [OutcomeEvent.counted, List.mem_cons, List.not_mem_nil, or_false] at hmem
    rcases hmem with rfl | rfl
    · rfl
    · cases hkind

/-- A sublist of the updates adds up to no more. -/
theorem withinRows_of_sublist {w₀ w : World Q}
    (h : ∀ kind name labels, (payloads kind w.metrics name labels).Sublist
      (payloads kind (w₀.recountSince w) name labels)) : WithinRows w₀ w := by
  constructor
  · intro name labels value hvalue
    rw [MetricsStore.get?_counters] at hvalue ⊢
    have hsub := h .counter name labels
    unfold counterTotal at hvalue ⊢
    split at hvalue
    next => cases hvalue
    next hne =>
      obtain rfl := Option.some.inj hvalue
      refine ⟨_, if_neg (fun hnil => hne (List.sublist_nil.mp (hsub.trans (by rw [hnil])))), ?_⟩
      refine hsub.sum_le_sum fun amount hamount => ?_
      obtain ⟨update, hupdate, hpayload⟩ := List.mem_filterMap.mp hamount
      obtain ⟨hhits, heq⟩ := Option.ite_none_right_eq_some.mp hpayload
      obtain rfl := Option.some.inj heq
      rw [World.recountSince_value hupdate hhits.1]
      exact zero_le_one
  · intro name labels summary hsummary
    rw [MetricsStore.get?_summaries] at hsummary ⊢
    have hsub := h .summary name labels
    unfold summaryTotal at hsummary ⊢
    split at hsummary
    next => cases hsummary
    next hne =>
      obtain rfl := Option.some.inj hsummary
      refine ⟨_, if_neg (fun hnil => hne (List.sublist_nil.mp (hsub.trans (by rw [hnil])))), ?_⟩
      exact Nat.cast_le.mpr hsub.length_le

/-! ### The small deployment -/

/-- The calls of the overlap leave two decisions and an event. -/
theorem exists_overlap :
    ∃ c, RedisRun labRedis epochCalendar (ledgerRuns (· = labAgent)) ⟨overRedis, []⟩
        (instantActs overlapping overlap) c
      ∧ c.world.world.tables.decisions.length = 2 ∧ c.world.world.events.length = 1 := by
  obtain ⟨c, hrun, hcounts⟩ := exists_run_of_instant (· = labAgent) overlapping overlap
    (fun c => decide (c.world.world.tables.decisions.length = 2
      ∧ c.world.world.events.length = 1)) overlapping_started (by decide +kernel)
  exact ⟨c, hrun, of_decide_eq_true hcounts⟩

/-! ### What the page promises -/

/-- **The metrics never run ahead**: in any run, whatever fails, no counter
and no number of observations is beyond what rows and events since the start
account for. -/
theorem metrics_within_rows (h₀ : w₀.metrics = [])
    (hrun : (redisPlane D calendar).Run ok ⟨⟨w₀, redis⟩, ts⟩ acts c) :
    WithinRows w₀ c.world.world := by
  refine withinRows_of_sublist fun kind name labels => ?_
  obtain ⟨l, l', hsub, heq, heq'⟩ := (redisPlane_metered h₀ hrun).payloads kind name labels
  rw [heq, heq']
  exact hsub.filterMap _

/-- Two decisions and an outcome. -/
theorem metrics_within_rows_overlap :
    ∃ c : Conf (RedisWorld InMemoryQuota) Task,
      c.world.world.tables.decisions.length = 2 ∧ c.world.world.events.length = 1
      ∧ WithinRows (World.empty {}) c.world.world := by
  obtain ⟨c, hrun, hrows, hevents⟩ := exists_overlap
  exact ⟨c, hrows, hevents, metrics_within_rows rfl hrun⟩

end Runs

end ControlPlane
