import ControlPlane.Lib.Dict
import ControlPlane.Lib.Expiring
import ControlPlane.PricingEngine

/-!
# Probing and smoothing — `app/services/latency_tracker.py`

A probe round reads the stored signals of its targets, probes them all, and
writes one smoothed signal for each result. Two stores keep the signals: a
dictionary, and Redis under one key a model, as JSON with a time to live.

Mirroring notes:
- A stored signal is a mapping whose keys may be missing (`SignalEntry`);
  where a key is there its value is a number or a text, as
  `smooth_and_store_signal` writes them. Arithmetic is exact, in
  `smoothSignalIn` any. Entries of any other content are in `RawSignals`.
- What a probe meets is a `Measurement`: the instants of the non-empty lines,
  the class of the exception if there was one, the time the probe took. The
  instants are seconds since its start.
- `json.dumps` and `json.loads` on a signal are parameters (`SignalCodec`).
  `loads` gives nothing where it raises `JSONDecodeError`.
- The writes of one round share an instant.
-/

namespace ControlPlane

open Lib

/-! ## Signals -/

/-- A stored signal as its readers see it. -/
structure SignalEntry where
  provider : Option String := none
  modelId : Option String := none
  ttfbP50Ms : Option ℚ := none
  ttfbP95Ms : Option ℚ := none
  throughputHintQps : Option ℚ := none
  successRate : Option ℚ := none
  lastProbeAt : Option String := none
  degradedReason : Option String := none
deriving DecidableEq

/-- The keys the engine reads. -/
def SignalEntry.signal (entry : SignalEntry) : Signal where
  ttfbP50Ms := entry.ttfbP50Ms
  throughputHintQps := entry.throughputHintQps
  successRate := entry.successRate
  lastProbeAt := entry.lastProbeAt
  degradedReason := entry.degradedReason

/-! ## Probes -/

/-- `build_probe_payload`. -/
structure ProbePayload where
  url : String
  headers : List (String × String)
  model : String
  messages : List (String × String)
  maxTokens : ℕ
  stream : Bool

/-- What a probe sends. -/
def buildProbePayload (providerBaseUrl modelName apiKey : String) : ProbePayload where
  url := providerBaseUrl
  headers := [("Authorization", s!"Bearer {apiKey}"), ("Content-Type", "application/json")]
  model := modelName
  messages := [("user", "health probe")]
  maxTokens := 4
  stream := true

/-- A model to be probed. -/
structure ProbeTarget where
  provider : String
  modelId : String
  target : ProbePayload

/-- What a probe meets. -/
structure Measurement where
  chunks : List ℚ
  exception : Option String
  elapsed : ℚ
  observedAt : String

/-- How a probe ended. -/
inductive ProbeStatus
  | success
  | degraded
deriving DecidableEq, Repr

/-- The result of one probe, as the worker reports it. -/
structure ProbeResult where
  provider : String
  modelId : String
  status : ProbeStatus
  ttfbMs : ℤ
  ttfbP50Ms : ℤ
  ttfbP95Ms : ℤ
  throughputHintQps : ℚ
  successRate : ℚ
  lastProbeAt : String
  degradedReason : Option String
deriving DecidableEq

/-- The time to the first line. `9999` stands for none yet, so a line that
takes that long is taken again at the next. -/
def measureTtfb (chunks : List ℚ) : ℤ :=
  chunks.foldl
    (fun ttfbMs instant => if ttfbMs = 9999 then trunc.toInt (instant * 1000) else ttfbMs)
    9999

/-- The result a measurement gives. -/
def probeModel (modelId provider : String) (m : Measurement) : ProbeResult :=
  let ttfbMs := measureTtfb m.chunks
  let status := if m.exception = none then ProbeStatus.success else .degraded
  let totalTime := max m.elapsed (1 / 1000)
  { provider
    modelId
    status
    ttfbMs
    ttfbP50Ms := ttfbMs
    ttfbP95Ms := if ttfbMs < 9999 then trunc.toInt (ttfbMs * (115 / 100)) else 9999
    throughputHintQps := halfEven.digits 3 (m.chunks.length / totalTime)
    successRate := if status = .success then 1 else 0
    lastProbeAt := m.observedAt
    degradedReason := m.exception }

/-! ## Smoothing -/

/-- What `smooth_and_store_signal` stores. -/
structure SmoothedSignal where
  provider : String
  modelId : String
  ttfbP50Ms : ℤ
  ttfbP95Ms : ℤ
  throughputHintQps : ℚ
  successRate : ℚ
  lastProbeAt : String
  degradedReason : Option String
deriving DecidableEq

/-- The entry under which a smoothed signal is stored. -/
def SmoothedSignal.entry (signal : SmoothedSignal) : SignalEntry where
  provider := some signal.provider
  modelId := some signal.modelId
  ttfbP50Ms := some signal.ttfbP50Ms
  ttfbP95Ms := some signal.ttfbP95Ms
  throughputHintQps := some signal.throughputHintQps
  successRate := some signal.successRate
  lastProbeAt := some signal.lastProbeAt
  degradedReason := signal.degradedReason

/-- The signal `smooth_and_store_signal` computes. -/
def smoothSignal (result : ProbeResult) (previous : Option SignalEntry) : SmoothedSignal :=
  let previous := previous.getD {}
  let prevP50 := previous.ttfbP50Ms.getD result.ttfbP50Ms
  let prevP95 := previous.ttfbP95Ms.getD result.ttfbP95Ms
  let prevSuccess := previous.successRate.getD result.successRate
  let prevQps := previous.throughputHintQps.getD result.throughputHintQps
  { provider := result.provider
    modelId := result.modelId
    ttfbP50Ms := trunc.toInt (prevP50 * (7 / 10) + result.ttfbP50Ms * (3 / 10))
    -- The one field that takes the larger of the two shares, not their sum.
    ttfbP95Ms := trunc.toInt (max (prevP95 * (6 / 10)) (result.ttfbP95Ms * (4 / 10)))
    throughputHintQps :=
      halfEven.digits 3 (prevQps * (1 / 2) + result.throughputHintQps * (1 / 2))
    successRate := round4 (prevSuccess * (7 / 10) + result.successRate * (3 / 10))
    lastProbeAt := result.lastProbeAt
    degradedReason := result.degradedReason }

/-- The same under an arithmetic: the numbers are converted to floats, the
weights are the doubles nearest to their decimals, and every operation
rounds. -/
def smoothSignalIn (arith : Arithmetic) (result : ProbeResult) (previous : Option SignalEntry) :
    SmoothedSignal :=
  let previous := previous.getD {}
  let share (weight value : ℚ) := arith.float (arith.float value * arith.float weight)
  let prevP50 := previous.ttfbP50Ms.getD result.ttfbP50Ms
  let prevP95 := previous.ttfbP95Ms.getD result.ttfbP95Ms
  let prevSuccess := previous.successRate.getD result.successRate
  let prevQps := previous.throughputHintQps.getD result.throughputHintQps
  { provider := result.provider
    modelId := result.modelId
    ttfbP50Ms :=
      trunc.toInt (arith.float (share (7 / 10) prevP50 + share (3 / 10) result.ttfbP50Ms))
    ttfbP95Ms := trunc.toInt (max (share (6 / 10) prevP95) (share (4 / 10) result.ttfbP95Ms))
    throughputHintQps := arith.float (halfEven.digits 3
      (arith.float (share (1 / 2) prevQps + share (1 / 2) result.throughputHintQps)))
    successRate := arith.float (halfEven.digits 4
      (arith.float (share (7 / 10) prevSuccess + share (3 / 10) result.successRate)))
    lastProbeAt := result.lastProbeAt
    degradedReason := result.degradedReason }

/-- On paper it is `smoothSignal`. -/
theorem smoothSignalIn_exact : smoothSignalIn .exact = smoothSignal := rfl

/-! ## Stores -/

/-- The operations of a signal store at an instant. `getSignals` gives the
dictionary it returns, by key. -/
structure SignalStore (S : Type) where
  getSignals : ℤ → List String → S → String → Option SignalEntry
  setSignal : ℤ → String → SignalEntry → S → S

/-- `InMemorySignalStore.signals`. -/
abbrev InMemorySignals := Dict String SignalEntry

/-- A model without a signal is reported with an empty mapping. -/
def InMemorySignals.store : SignalStore InMemorySignals where
  getSignals _ modelIds signals modelId :=
    if modelId ∈ modelIds then some ((signals.get? modelId).getD {}) else none
  setSignal _ modelId signal signals := signals.set modelId signal

/-- How a signal becomes the text that Redis keeps. -/
structure SignalCodec where
  dumps : SignalEntry → String
  loads : String → Option SignalEntry

/-- The key of a model's signal. -/
def signalKey (modelId : String) : String :=
  "routing-signal:" ++ modelId

/-- A signal is kept for ten minutes. -/
def signalTtlSeconds : ℤ := 600

/-- The part of the Redis keyspace the signals live in. -/
abbrev RedisSignals := Expiring String String ℤ

/-- `if payload` and `json.loads`. -/
def SignalCodec.decode (codec : SignalCodec) (payload : Option String) : Option SignalEntry :=
  payload.bind fun text => if text = "" then none else codec.loads text

/-- A model without a signal, or with one that does not decode, is not
reported. -/
def RedisSignals.store (codec : SignalCodec) : SignalStore RedisSignals where
  getSignals now modelIds signals modelId :=
    if modelId ∈ modelIds then codec.decode (signals.get now (signalKey modelId)) else none
  setSignal now modelId signal signals :=
    Function.update signals (signalKey modelId)
      (some ⟨codec.dumps signal, some (now + signalTtlSeconds)⟩)

section Round

variable {S : Type} (store : SignalStore S)

/-- The smoothed signal, and the store after it. -/
def smoothAndStoreSignal (now : ℤ) (result : ProbeResult) (previous : Option SignalEntry) (s : S) :
    SmoothedSignal × S :=
  let signal := smoothSignal result previous
  (signal, store.setSignal now result.modelId signal.entry s)

/-- When a round reads the stored signals and when it writes. -/
structure RoundClock where
  readAt : ℤ
  writeAt : ℤ

/-- `probe_loop_once`: everything is read before anything is written. -/
def probeLoopOnce (clock : RoundClock) (measure : ProbeTarget → Measurement)
    (targets : List ProbeTarget) (s : S) : List ProbeResult × S :=
  let existing := store.getSignals clock.readAt (targets.map (·.modelId)) s
  let results := targets.map fun target =>
    probeModel target.modelId target.provider (measure target)
  (results, results.foldl (fun s result =>
    (smoothAndStoreSignal store clock.writeAt result (existing result.modelId) s).2) s)

end Round

/-! ## Freshness -/

/-- The loop of `has_fresh_signals`, over the signals in the store's order. -/
def hasFresh (rt : Runtime) (maxAgeSeconds : ℕ) : List SignalEntry → Except PyError Bool
  | [] => .ok false
  | signal :: rest =>
    match signal.lastProbeAt with
    | none => hasFresh rt maxAgeSeconds rest
    | some raw =>
      match rt.fromIsoFormat (replaceZulu raw) with
      | none => hasFresh rt maxAgeSeconds rest
      -- The subtraction is behind the `try`, and a naive time has no zone.
      | some (.naive _) => .error .typeError
      | some (.aware observedAt) =>
        if (rt.now - observedAt).tdiv 1000000 ≤ maxAgeSeconds then .ok true
        else hasFresh rt maxAgeSeconds rest

/-- Freshness of the signals in memory. -/
def InMemorySignals.hasFreshSignals (rt : Runtime) (maxAgeSeconds : ℕ)
    (signals : InMemorySignals) : Except PyError Bool :=
  hasFresh rt maxAgeSeconds signals.values

/-- `values` is what `MGET` gives for the keys found, or nothing where Redis
raised. -/
def RedisSignals.hasFreshSignals (rt : Runtime) (maxAgeSeconds : ℕ) (codec : SignalCodec) :
    Option (List (Option String)) → Except PyError Bool
  | none => .ok false
  | some values => hasFresh rt maxAgeSeconds (values.filterMap codec.decode)

end ControlPlane
