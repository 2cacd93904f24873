import ControlPlane.LatencyTracker

/-!
# Readiness and routing on freshness

The same stored timestamp is parsed twice. The engine (`_signal_age_seconds`)
takes a time without a zone as UTC, and subtracts inside its `try`; the store
(`has_fresh_signals`) leaves it as it is and subtracts behind the `try`, where
Python raises for a time without a zone. So readiness raises on a timestamp
the engine reads (`naive_timestamp_raises`), unless an earlier signal has
settled the question (`readiness_agrees_iff`).
-/

namespace ControlPlane

open Lib

/-! ## `ready_health` -/

/-- What the answer says of each part. -/
structure ReadyDetails where
  database : Bool
  redis : Bool
  catalogLoaded : Bool
  freshSignals : Bool

/-- The state of the service. -/
inductive HealthStatus
  | online
  | degraded
deriving DecidableEq, Repr

/-- The answer of `/health/ready`. -/
structure HealthResponse where
  status : HealthStatus
  project : String
  details : ReadyDetails

/-- What the pings of `ready_health` answer. -/
structure ReadyPings where
  quotaManager : Bool
  eventPublisher : Bool
  database : Bool

/-- `catalog` is what `get_snapshot` gives. -/
def readyHealth (project : String) (signalFreshnessSeconds : ℕ) (rt : Runtime)
    (catalog : Except PyError CatalogSnapshot) (pings : ReadyPings) (signals : InMemorySignals) :
    Except PyError HealthResponse := do
  let catalog ← catalog
  let freshSignals ← signals.hasFreshSignals rt signalFreshnessSeconds
  let details : ReadyDetails :=
    { database := pings.database
      redis := pings.quotaManager && pings.eventPublisher
      catalogLoaded := !catalog.models.isEmpty
      freshSignals }
  let ready := details.database && details.redis && details.catalogLoaded && details.freshSignals
  return { status := if ready then .online else .degraded, project, details }

/-! ## What a stored timestamp is -/

section Entries

variable (rt : Runtime) (maxAgeSeconds : ℕ) (entry : SignalEntry)

/-- A time without a zone. -/
def Naive : Prop :=
  ∃ raw wall, entry.lastProbeAt = some raw ∧ rt.fromIsoFormat (replaceZulu raw) = some (.naive wall)

/-- A time with a zone, and not too old. -/
def AwareFresh : Prop :=
  ∃ raw utc, entry.lastProbeAt = some raw ∧ rt.fromIsoFormat (replaceZulu raw) = some (.aware utc)
    ∧ (rt.now - utc).tdiv 1000000 ≤ maxAgeSeconds

/-- The engine knows an age, and it is not too large. -/
def FreshAge : Prop :=
  ∃ age, signalAgeSeconds rt entry.signal = some age ∧ age ≤ maxAgeSeconds

end Entries

variable {rt : Runtime} {maxAgeSeconds : ℕ} {entry : SignalEntry} {entries : List SignalEntry}

/-- Every time without a zone comes after a fresh one with a zone. -/
def NaiveBehindFresh (rt : Runtime) (maxAgeSeconds : ℕ) (entries : List SignalEntry) : Prop :=
  ∀ before entry after, entries = before ++ entry :: after → Naive rt entry →
    ∃ earlier ∈ before, AwareFresh rt maxAgeSeconds earlier

/-- Without entries there is none. -/
theorem naiveBehindFresh_nil : NaiveBehindFresh rt maxAgeSeconds [] := by
  intro before entry after heq
  simp at heq

/-- One entry at a time. -/
theorem naiveBehindFresh_cons : NaiveBehindFresh rt maxAgeSeconds (entry :: entries)
    ↔ ¬Naive rt entry ∧ (AwareFresh rt maxAgeSeconds entry
        ∨ NaiveBehindFresh rt maxAgeSeconds entries) := by
  constructor
  · intro h
    refine ⟨?_, ?_⟩
    · intro hnaive
      obtain ⟨earlier, hmem, -⟩ := h [] entry entries rfl hnaive
      simp at hmem
    · by_cases hfresh : AwareFresh rt maxAgeSeconds entry
      · exact .inl hfresh
      · right
        intro before other after heq hnaive
        obtain ⟨earlier, hmem, hearlier⟩ :=
          h (entry :: before) other after (by rw [heq]; rfl) hnaive
        rcases List.mem_cons.mp hmem with rfl | hmem
        · exact absurd hearlier hfresh
        · exact ⟨earlier, hmem, hearlier⟩
  · intro h before other after heq hnaive
    obtain ⟨hfirst, hrest⟩ := h
    cases before with
    | nil =>
      obtain ⟨rfl, -⟩ := List.cons.inj heq
      exact absurd hnaive hfirst
    | cons head before =>
      obtain ⟨rfl, htail⟩ := List.cons.inj heq
      rcases hrest with hfresh | hrest
      · exact ⟨_, List.mem_cons_self, hfresh⟩
      · obtain ⟨earlier, hmem, hearlier⟩ := hrest before other after htail hnaive
        exact ⟨earlier, List.mem_cons_of_mem _ hmem, hearlier⟩

/-- The engine reads what the store reads, and the times without a zone. -/
theorem freshAge_iff (hempty : rt.fromIsoFormat "" = none) :
    FreshAge rt maxAgeSeconds entry ↔ AwareFresh rt maxAgeSeconds entry
      ∨ ∃ raw wall, entry.lastProbeAt = some raw
          ∧ rt.fromIsoFormat (replaceZulu raw) = some (.naive wall)
          ∧ (rt.now - wall).tdiv 1000000 ≤ maxAgeSeconds := by
  have hsignal : entry.signal.lastProbeAt = entry.lastProbeAt := rfl
  unfold FreshAge AwareFresh signalAgeSeconds
  rw [hsignal]
  cases hprobe : entry.lastProbeAt with
  | none => simp
  | some raw =>
    by_cases hraw : raw = ""
    · subst hraw
      have hzulu : replaceZulu "" = "" := by decide
      simp [hzulu, hempty]
    · cases hparse : rt.fromIsoFormat (replaceZulu raw) with
      | none => simp [hraw, hparse]
      | some observedAt =>
        cases observedAt with
        | aware utc => simp [hraw, hparse, ParsedDatetime.toUtc]
        | naive wall => simp [hraw, hparse, ParsedDatetime.toUtc]

/-! ## The loop -/

/-- What the loop makes of the first signal. -/
theorem hasFresh_cons_cases (rt : Runtime) (maxAgeSeconds : ℕ) (entry : SignalEntry)
    (entries : List SignalEntry) :
    (Naive rt entry ∧ ¬AwareFresh rt maxAgeSeconds entry
        ∧ hasFresh rt maxAgeSeconds (entry :: entries) = .error .typeError)
      ∨ (¬Naive rt entry ∧ AwareFresh rt maxAgeSeconds entry
        ∧ hasFresh rt maxAgeSeconds (entry :: entries) = .ok true)
      ∨ (¬Naive rt entry ∧ ¬AwareFresh rt maxAgeSeconds entry
        ∧ hasFresh rt maxAgeSeconds (entry :: entries) = hasFresh rt maxAgeSeconds entries) := by
  unfold Naive AwareFresh
  rw [hasFresh]
  cases hprobe : entry.lastProbeAt with
  | none => simp
  | some raw =>
    cases hparse : rt.fromIsoFormat (replaceZulu raw) with
    | none => simp [hparse]
    | some observedAt =>
      cases observedAt with
      | naive wall => simp [hparse]
      | aware utc =>
        by_cases hfresh : (rt.now - utc).tdiv 1000000 ≤ maxAgeSeconds
        · simp [hparse, hfresh]
        · simp [hparse, hfresh]

/-- Then the store answers, and rightly. -/
theorem hasFresh_ok (h : NaiveBehindFresh rt maxAgeSeconds entries) :
    ∃ fresh, hasFresh rt maxAgeSeconds entries = .ok fresh
      ∧ (fresh = true ↔ ∃ entry ∈ entries, AwareFresh rt maxAgeSeconds entry) := by
  induction entries with
  | nil => exact ⟨false, rfl, by simp⟩
  | cons entry entries ih =>
    obtain ⟨hnaive, hrest⟩ := naiveBehindFresh_cons.mp h
    rcases hasFresh_cons_cases rt maxAgeSeconds entry entries with
      ⟨hnaive', -, -⟩ | ⟨-, hfresh, hloop⟩ | ⟨-, hstale, hloop⟩
    · exact absurd hnaive' hnaive
    · exact ⟨true, hloop, by simp [hfresh]⟩
    · obtain ⟨fresh, hok, hiff⟩ := ih (hrest.resolve_left hstale)
      exact ⟨fresh, hloop.trans hok, by simp [hiff, hstale]⟩

/-- Otherwise it raises. -/
theorem hasFresh_error (h : ¬NaiveBehindFresh rt maxAgeSeconds entries) :
    hasFresh rt maxAgeSeconds entries = .error .typeError := by
  induction entries with
  | nil => exact absurd naiveBehindFresh_nil h
  | cons entry entries ih =>
    rcases hasFresh_cons_cases rt maxAgeSeconds entry entries with
      ⟨-, -, hloop⟩ | ⟨hnaive, hfresh, -⟩ | ⟨hnaive, hstale, hloop⟩
    · exact hloop
    · exact absurd (naiveBehindFresh_cons.mpr ⟨hnaive, .inl hfresh⟩) h
    · refine hloop.trans (ih ?_)
      intro hrest
      exact h (naiveBehindFresh_cons.mpr ⟨hnaive, .inr hrest⟩)

/-- Where the loop ends, a time without a zone changes nothing: a fresh one
with a zone is there too. -/
theorem exists_awareFresh_iff (hempty : rt.fromIsoFormat "" = none)
    (h : NaiveBehindFresh rt maxAgeSeconds entries) :
    (∃ entry ∈ entries, AwareFresh rt maxAgeSeconds entry)
      ↔ ∃ entry ∈ entries, FreshAge rt maxAgeSeconds entry := by
  constructor
  · intro hfresh
    obtain ⟨entry, hmem, hfresh⟩ := hfresh
    exact ⟨entry, hmem, (freshAge_iff hempty).mpr (.inl hfresh)⟩
  · intro hfresh
    obtain ⟨entry, hmem, hage⟩ := hfresh
    rcases (freshAge_iff hempty).mp hage with haware | ⟨raw, wall, hprobe, hparse, -⟩
    · exact ⟨entry, hmem, haware⟩
    · obtain ⟨before, after, rfl⟩ := List.append_of_mem hmem
      obtain ⟨earlier, hearlier, hfresh⟩ := h before entry after rfl ⟨raw, wall, hprobe, hparse⟩
      exact ⟨earlier, List.mem_append_left _ hearlier, hfresh⟩

/-! ## What the engine charges -/

/-- Under a policy that charges for freshness at all, the engine charges
nothing exactly for a fresh signal: a stale one pays in full. -/
theorem freshnessPenaltyFor_eq_zero_iff {policy : RoutingPolicy}
    (hcharges : round4 policy.freshnessPenalty ≠ 0) {window : ℕ} (age : Option ℕ) :
    freshnessPenaltyFor policy window age = 0
      ↔ ∃ seconds, age = some seconds ∧ seconds ≤ window := by
  cases age with
  | none => simp [freshnessPenaltyFor, hcharges]
  | some seconds =>
    unfold freshnessPenaltyFor
    dsimp only
    by_cases hstale : window < seconds
    · have hratio : (1 : ℚ) ≤ (seconds : ℚ) / (max window 1 : ℕ) := by
        rw [one_le_div (by positivity)]
        exact_mod_cast (by omega : max window 1 ≤ seconds)
      rw [if_pos hstale, min_eq_left hratio, one_mul]
      simp [hcharges, hstale]
    · rw [if_neg hstale]
      simp [not_lt.mp hstale]

/-! ## Readiness and routing agree -/

/-- `has_fresh_signals` ends and says what the engine would. So `ready_health`
answers, as far as the stored signals go, and `fresh_signals` is whether some
stored signal would be charged nothing. -/
structure ReadinessAgrees (rt : Runtime) (maxAgeSeconds : ℕ) (signals : InMemorySignals) :
    Prop where
  ends : ∃ fresh, signals.hasFreshSignals rt maxAgeSeconds = .ok fresh
    ∧ (fresh = true ↔ ∃ entry ∈ signals.values, FreshAge rt maxAgeSeconds entry)
  answers : ∀ project catalog pings, ∃ response,
    readyHealth project maxAgeSeconds rt (.ok catalog) pings signals = .ok response
    ∧ ∀ policy : RoutingPolicy, round4 policy.freshnessPenalty ≠ 0 →
      (response.details.freshSignals = true ↔ ∃ entry ∈ signals.values,
        freshnessPenaltyFor policy maxAgeSeconds (signalAgeSeconds rt entry.signal) = 0)

/-- **Readiness and routing agree on freshness exactly where every time
without a zone is behind a fresh one with a zone.** -/
theorem readiness_agrees_iff (rt : Runtime) (hempty : rt.fromIsoFormat "" = none)
    (maxAgeSeconds : ℕ) (signals : InMemorySignals) :
    ReadinessAgrees rt maxAgeSeconds signals
      ↔ NaiveBehindFresh rt maxAgeSeconds signals.values := by
  constructor
  · intro hagrees
    by_contra hnaive
    obtain ⟨fresh, hok, -⟩ := hagrees.ends
    have herror : signals.hasFreshSignals rt maxAgeSeconds = .error .typeError :=
      hasFresh_error hnaive
    rw [herror] at hok
    simp at hok
  · intro hbehind
    obtain ⟨fresh, hok, hiff⟩ := hasFresh_ok hbehind
    rw [exists_awareFresh_iff hempty hbehind] at hiff
    refine ⟨⟨fresh, hok, hiff⟩, ?_⟩
    intro project catalog pings
    refine ⟨_, by rw [readyHealth, InMemorySignals.hasFreshSignals, hok]; rfl, ?_⟩
    intro policy hcharges
    rw [show _ = fresh from rfl, hiff]
    simp only [freshnessPenaltyFor_eq_zero_iff hcharges]
    exact Iff.rfl

/-! ### One time without a zone -/

/-- A minute past eight, by a parser that knows the time with and without its
zone. -/
def minuteRuntime : Runtime where
  arith := .machine
  now := 60000000
  fromIsoFormat raw :=
    if raw = "2026-05-15T08:00:00+00:00" then some (.aware 0)
    else if raw = "2026-05-15T08:00:00" then some (.naive 0)
    else none
  floatRepr _ := ""
  computeMs := 0

/-- A signal with nothing but its time. -/
def probedAt (raw : String) : SignalEntry where
  lastProbeAt := some raw

/-- Probed a minute ago, as the engine reads it; readiness raises. -/
theorem naive_timestamp_raises :
    ¬ ∀ (rt : Runtime), rt.fromIsoFormat "" = none → ∀ maxAgeSeconds signals,
      ReadinessAgrees rt maxAgeSeconds signals := by
  intro hall
  have hagrees := hall minuteRuntime (by decide) 90
    (Dict.empty.set "lab/demo" (probedAt "2026-05-15T08:00:00"))
  obtain ⟨fresh, hok, -⟩ := hagrees.ends
  have herror : InMemorySignals.hasFreshSignals minuteRuntime 90
      (Dict.empty.set "lab/demo" (probedAt "2026-05-15T08:00:00")) = .error .typeError := by
    rfl
  rw [herror] at hok
  simp at hok

/-- A time with a zone is agreed on. -/
theorem readiness_agrees_iff_zulu :
    ReadinessAgrees minuteRuntime 90
        (Dict.empty.set "lab/demo" (probedAt "2026-05-15T08:00:00Z"))
      ↔ NaiveBehindFresh minuteRuntime 90 [probedAt "2026-05-15T08:00:00Z"] :=
  readiness_agrees_iff minuteRuntime (by decide) 90
    (Dict.empty.set "lab/demo" (probedAt "2026-05-15T08:00:00Z"))

end ControlPlane
