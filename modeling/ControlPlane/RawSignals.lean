import ControlPlane.Json
import ControlPlane.LatencyTracker
import ControlPlane.Lib.Arithmetic
import ControlPlane.Lib.Checked
import ControlPlane.Lib.Writes

/-!
# Smoothing any stored content — `smooth_and_store_signal`, `probe_loop_once`

A signal store hands on what it holds, and it may hold any JSON. Smoothing
takes four numbers of it with `float` and makes two of the results integers;
`float` raises on what is no number, `int` on what is not finite. Nothing
catches that in a round, so the results behind the one that raises are not
written.

`Convertible` says on which contents smoothing returns, and that it does not
depend on the result (`smoothJson_returns_iff`). On what
`smooth_and_store_signal` wrote itself it is `smoothSignalIn`
(`smoothJson_numbers`).

Mirroring notes:
- `float` of a text is a parameter (`Floats.ofText`), as are `json.dumps` and
  `json.loads` (`JsonCodec`). Values in Redis are texts.
- The numbers of a probe result are far below the largest double.
- The writes of one round share an instant.
-/

namespace ControlPlane

open Lib

/-! ## Floats -/

/-- A `float`; a finite one is a rational. -/
inductive PyFloat
  | finite (q : ℚ)
  | nonFinite (x : NonFinite)
deriving DecidableEq

/-- The arithmetic of floats, and `float` of a text. -/
structure Floats where
  arith : Arithmetic
  ofText : String → Option PyFloat

/-- `float(value)`. An integer may be too large. -/
def Json.float (floats : Floats) : Json → Except PyError PyFloat
  | .bool b => .ok (.finite (if b then 1 else 0))
  | .number q =>
    if 2 ^ 1024 ≤ |floats.arith.float q| then .error .overflowError
    else .ok (.finite (floats.arith.float q))
  | .nonFinite x => .ok (.nonFinite x)
  | .string s =>
    match floats.ofText s with
    | some x => .ok x
    | none => .error .valueError
  | .null => .error .typeError
  | .array _ => .error .typeError
  | .object _ => .error .typeError

namespace PyFloat

/-- `x * share`, for a positive share. -/
def scale (arith : Arithmetic) (share : ℚ) : PyFloat → PyFloat
  | .finite q => .finite (arith.float (q * arith.float share))
  | .nonFinite x => .nonFinite x

/-- `x + own`. -/
def plus (arith : Arithmetic) (own : ℚ) : PyFloat → PyFloat
  | .finite q => .finite (arith.float (q + own))
  | .nonFinite x => .nonFinite x

/-- `max(x, own)`: it is `x` unless `own` is larger, and nothing is larger
than what is no number. -/
def maxWith (own : ℚ) : PyFloat → PyFloat
  | .finite q => .finite (max q own)
  | .nonFinite .negInf => .finite own
  | .nonFinite x => .nonFinite x

/-- `int(x)`. -/
def toInt : PyFloat → Except PyError ℤ
  | .finite q => .ok (trunc.toInt q)
  | .nonFinite .nan => .error .valueError
  | .nonFinite _ => .error .overflowError

/-- `round(x, n)`. -/
def round (arith : Arithmetic) (n : ℕ) : PyFloat → PyFloat
  | .finite q => .finite (arith.float (halfEven.digits n q))
  | .nonFinite x => .nonFinite x

/-- The number as JSON, NaN and infinities too. -/
def json : PyFloat → Json
  | .finite q => .number q
  | .nonFinite x => .nonFinite x

end PyFloat

/-! ## Smoothing -/

/-- `previous or {}`, as something with a `get`. -/
def previousDict : Option Json → Except PyError JsonDict
  | none => .ok Dict.empty
  | some json => if json.truthy then json.dict else .ok Dict.empty

/-- `float(previous.get(key, default))`, the default being a number. -/
def JsonDict.float (floats : Floats) (previous : JsonDict) (key : String) (default : ℚ) :
    Except PyError PyFloat :=
  match previous.get? key with
  | some value => value.float floats
  | none => .ok (.finite (floats.arith.float default))

/-- What is read of the previous signal. -/
structure PreviousSignal where
  p50 : PyFloat
  p95 : PyFloat
  success : PyFloat
  qps : PyFloat

/-- The four numbers, in the order they are read. -/
def readPrevious (floats : Floats) (result : ProbeResult) (previous : Option Json) :
    Except PyError PreviousSignal := do
  let previous ← previousDict previous
  let p50 ← previous.float floats "ttfb_p50_ms" result.ttfbP50Ms
  let p95 ← previous.float floats "ttfb_p95_ms" result.ttfbP95Ms
  let success ← previous.float floats "success_rate" result.successRate
  let qps ← previous.float floats "throughput_hint_qps" result.throughputHintQps
  return { p50, p95, success, qps }

/-- The signal that is stored. -/
structure WrittenSignal where
  provider : String
  modelId : String
  ttfbP50Ms : ℤ
  ttfbP95Ms : ℤ
  throughputHintQps : PyFloat
  successRate : PyFloat
  lastProbeAt : String
  degradedReason : Option String
deriving DecidableEq

/-- An optional text. -/
def Json.ofText : Option String → Json
  | none => .null
  | some text => .string text

/-- The signal as it is dumped. -/
def WrittenSignal.json (signal : WrittenSignal) : Json :=
  .object [("provider", .string signal.provider), ("model_id", .string signal.modelId),
    ("ttfb_p50_ms", .number signal.ttfbP50Ms), ("ttfb_p95_ms", .number signal.ttfbP95Ms),
    ("throughput_hint_qps", signal.throughputHintQps.json),
    ("success_rate", signal.successRate.json), ("last_probe_at", .string signal.lastProbeAt),
    ("degraded_reason", Json.ofText signal.degradedReason)]

/-- `x * share`, for a number of the result. -/
def Floats.share (floats : Floats) (share x : ℚ) : ℚ :=
  floats.arith.float (floats.arith.float x * floats.arith.float share)

/-- The signal `smooth_and_store_signal` computes. -/
def smoothJson (floats : Floats) (result : ProbeResult) (previous : Option Json) :
    Except PyError WrittenSignal := do
  let prev ← readPrevious floats result previous
  let ttfbP50Ms ← ((prev.p50.scale floats.arith (7 / 10)).plus floats.arith
    (floats.share (3 / 10) result.ttfbP50Ms)).toInt
  let ttfbP95Ms ← ((prev.p95.scale floats.arith (6 / 10)).maxWith
    (floats.share (4 / 10) result.ttfbP95Ms)).toInt
  return { provider := result.provider
           modelId := result.modelId
           ttfbP50Ms
           ttfbP95Ms
           throughputHintQps := ((prev.qps.scale floats.arith (1 / 2)).plus floats.arith
             (floats.share (1 / 2) result.throughputHintQps)).round floats.arith 3
           successRate := ((prev.success.scale floats.arith (7 / 10)).plus floats.arith
             (floats.share (3 / 10) result.successRate)).round floats.arith 4
           lastProbeAt := result.lastProbeAt
           degradedReason := result.degradedReason }

/-! ## Contents that convert -/

/-- The four numbers are what `float` takes, where they are there, and the two
that become integers are not out of `int`'s reach. The smoothed p95 is the
larger of two, so minus infinity is lost on the way. -/
structure ConvertibleDict (floats : Floats) (previous : JsonDict) : Prop where
  p50 : ∀ value, previous.get? "ttfb_p50_ms" = some value →
    ∃ x, value.float floats = .ok x ∧ ∃ q, x = .finite q
  p95 : ∀ value, previous.get? "ttfb_p95_ms" = some value →
    ∃ x, value.float floats = .ok x ∧ x ≠ .nonFinite .nan ∧ x ≠ .nonFinite .inf
  success : ∀ value, previous.get? "success_rate" = some value → ∃ x, value.float floats = .ok x
  qps : ∀ value, previous.get? "throughput_hint_qps" = some value →
    ∃ x, value.float floats = .ok x

/-- Nothing, something falsy, or a dictionary whose numbers convert. -/
def Convertible (floats : Floats) (previous : Option Json) : Prop :=
  ∃ dict, previousDict previous = .ok dict ∧ ConvertibleDict floats dict

/-- A sum with a float is an integer where the float is finite. -/
theorem PyFloat.toInt_plus_returns_iff (arith : Arithmetic) (share own : ℚ) (x : PyFloat) :
    (∃ z, ((x.scale arith share).plus arith own).toInt = .ok z) ↔ ∃ q, x = .finite q := by
  cases x with
  | finite q => exact iff_of_true ⟨_, rfl⟩ ⟨q, rfl⟩
  | nonFinite x => cases x <;> simp [scale, plus, toInt]

/-- A maximum swallows minus infinity as well. -/
theorem PyFloat.toInt_maxWith_returns_iff (arith : Arithmetic) (share own : ℚ) (x : PyFloat) :
    (∃ z, ((x.scale arith share).maxWith own).toInt = .ok z)
      ↔ x ≠ .nonFinite .nan ∧ x ≠ .nonFinite .inf := by
  cases x with
  | finite q => exact iff_of_true ⟨_, rfl⟩ (by simp)
  | nonFinite x => cases x <;> simp [scale, maxWith, toInt]

/-- A read with a default, for a property the default has. -/
theorem JsonDict.float_returns_with_iff {floats : Floats} {previous : JsonDict} {key : String}
    {P : PyFloat → Prop} (default : ℚ) (hdefault : P (.finite (floats.arith.float default))) :
    (∃ x, previous.float floats key default = .ok x ∧ P x)
      ↔ ∀ value, previous.get? key = some value → ∃ x, value.float floats = .ok x ∧ P x := by
  unfold JsonDict.float
  cases previous.get? key with
  | none => exact iff_of_true ⟨_, rfl, hdefault⟩ nofun
  | some value => simp

/-- A key's float is read where its value is one, or is missing. -/
theorem JsonDict.float_returns_iff {floats : Floats} {previous : JsonDict} {key : String}
    (default : ℚ) :
    (∃ x, previous.float floats key default = .ok x)
      ↔ ∀ value, previous.get? key = some value → ∃ x, value.float floats = .ok x := by
  simpa using JsonDict.float_returns_with_iff (P := fun _ => True) default trivial

/-- **When smoothing returns**: it depends on the content, not on the result. -/
theorem smoothJson_returns_iff (floats : Floats) (result : ProbeResult) (previous : Option Json) :
    (∃ signal, smoothJson floats result previous = .ok signal) ↔ Convertible floats previous := by
  constructor
  · rintro ⟨signal, h⟩
    obtain ⟨prev, hprev, h⟩ := bind_eq_ok.mp h
    obtain ⟨z50, h50, h⟩ := bind_eq_ok.mp h
    obtain ⟨z95, h95, -⟩ := bind_eq_ok.mp h
    obtain ⟨dict, hdict, hprev⟩ := bind_eq_ok.mp hprev
    obtain ⟨p50, hp50, hprev⟩ := bind_eq_ok.mp hprev
    obtain ⟨p95, hp95, hprev⟩ := bind_eq_ok.mp hprev
    obtain ⟨success, hsuccess, hprev⟩ := bind_eq_ok.mp hprev
    obtain ⟨qps, hqps, hprev⟩ := bind_eq_ok.mp hprev
    obtain rfl := Except.ok.inj hprev
    have hfinite := (PyFloat.toInt_plus_returns_iff _ _ _ p50).mp ⟨z50, h50⟩
    have hreach := (PyFloat.toInt_maxWith_returns_iff _ _ _ p95).mp ⟨z95, h95⟩
    exact ⟨dict, hdict,
      { p50 := (JsonDict.float_returns_with_iff _ ⟨_, rfl⟩).mp ⟨p50, hp50, hfinite⟩
        p95 := (JsonDict.float_returns_with_iff _ (by simp)).mp ⟨p95, hp95, hreach⟩
        success := (JsonDict.float_returns_iff _).mp ⟨success, hsuccess⟩
        qps := (JsonDict.float_returns_iff _).mp ⟨qps, hqps⟩ }⟩
  · rintro ⟨dict, hdict, hconvert⟩
    obtain ⟨p50, hp50, hfinite⟩ :=
      (JsonDict.float_returns_with_iff (result.ttfbP50Ms : ℚ) ⟨_, rfl⟩).mpr hconvert.p50
    obtain ⟨p95, hp95, hreach⟩ :=
      (JsonDict.float_returns_with_iff (result.ttfbP95Ms : ℚ) (by simp)).mpr hconvert.p95
    obtain ⟨success, hsuccess⟩ :=
      (JsonDict.float_returns_iff result.successRate).mpr hconvert.success
    obtain ⟨qps, hqps⟩ :=
      (JsonDict.float_returns_iff result.throughputHintQps).mpr hconvert.qps
    obtain ⟨z50, h50⟩ := (PyFloat.toInt_plus_returns_iff floats.arith (7 / 10)
      (floats.share (3 / 10) result.ttfbP50Ms) p50).mpr hfinite
    obtain ⟨z95, h95⟩ := (PyFloat.toInt_maxWith_returns_iff floats.arith (6 / 10)
      (floats.share (4 / 10) result.ttfbP95Ms) p95).mpr hreach
    have hread : readPrevious floats result previous = .ok { p50, p95, success, qps } := by
      unfold readPrevious
      rw [hdict, ok_bind, hp50, ok_bind, hp95, ok_bind, hsuccess, ok_bind, hqps, ok_bind,
        pure_eq_ok]
    unfold smoothJson
    rw [hread, ok_bind, h50, ok_bind, h95, ok_bind]
    exact ⟨_, rfl⟩

/-- Nothing smooths as an empty dictionary does. -/
theorem smoothJson_getD (floats : Floats) (result : ProbeResult) {previous previous' : Option Json}
    (h : previous.getD (.object []) = previous'.getD (.object [])) :
    smoothJson floats result previous = smoothJson floats result previous' := by
  have hdict : ∀ previous : Option Json,
      previousDict previous = previousDict (some (previous.getD (.object []))) := by
    intro previous
    cases previous with
    | none => rfl
    | some json => rfl
  unfold smoothJson readPrevious
  rw [hdict previous, hdict previous', h]

/-! ## What smoothing wrote itself -/

/-- The content has the numbers of the entry, in the range of a double. -/
structure SignalEntry.Numbers (floats : Floats) (entry : SignalEntry) (dict : JsonDict) :
    Prop where
  p50 : dict.get? "ttfb_p50_ms" = entry.ttfbP50Ms.map .number
  p95 : dict.get? "ttfb_p95_ms" = entry.ttfbP95Ms.map .number
  success : dict.get? "success_rate" = entry.successRate.map .number
  qps : dict.get? "throughput_hint_qps" = entry.throughputHintQps.map .number
  range : ∀ q, some q ∈ [entry.ttfbP50Ms, entry.ttfbP95Ms, entry.successRate,
    entry.throughputHintQps] → |floats.arith.float q| < 2 ^ 1024

/-- What the typed signal is stored as. -/
def SmoothedSignal.written (signal : SmoothedSignal) : WrittenSignal where
  provider := signal.provider
  modelId := signal.modelId
  ttfbP50Ms := signal.ttfbP50Ms
  ttfbP95Ms := signal.ttfbP95Ms
  throughputHintQps := .finite signal.throughputHintQps
  successRate := .finite signal.successRate
  lastProbeAt := signal.lastProbeAt
  degradedReason := signal.degradedReason

section Written

variable {floats : Floats}

/-- A number in range is read as the float it converts to. -/
theorem JsonDict.float_number {dict : JsonDict} {key : String} {number : Option ℚ}
    (hget : dict.get? key = number.map .number)
    (hrange : ∀ q, number = some q → |floats.arith.float q| < 2 ^ 1024) (default : ℚ) :
    dict.float floats key default = .ok (.finite (floats.arith.float (number.getD default))) := by
  unfold JsonDict.float
  rw [hget]
  cases number with
  | none => rfl
  | some q => exact if_neg (not_le.mpr (hrange q rfl))

/-- **On numbers smoothing is `smoothSignalIn`.** -/
theorem smoothJson_numbers (result : ProbeResult) {previous : Option Json} {entry : SignalEntry}
    {dict : JsonDict} (hdict : previousDict previous = .ok dict) (h : entry.Numbers floats dict) :
    smoothJson floats result previous
      = .ok (smoothSignalIn floats.arith result (some entry)).written := by
  have hp50 := JsonDict.float_number h.p50
    (fun q hq => h.range q (by simp [hq])) result.ttfbP50Ms
  have hp95 := JsonDict.float_number h.p95
    (fun q hq => h.range q (by simp [hq])) result.ttfbP95Ms
  have hsuccess := JsonDict.float_number h.success
    (fun q hq => h.range q (by simp [hq])) result.successRate
  have hqps := JsonDict.float_number h.qps
    (fun q hq => h.range q (by simp [hq])) result.throughputHintQps
  unfold smoothJson readPrevious
  rw [hdict, ok_bind, hp50, ok_bind, hp95, ok_bind, hsuccess, ok_bind, hqps, ok_bind]
  rfl

/-- And what it writes has the numbers of the typed entry again. -/
theorem SmoothedSignal.numbers (signal : SmoothedSignal)
    (hrange : ∀ q ∈ [(signal.ttfbP50Ms : ℚ), signal.ttfbP95Ms, signal.successRate,
      signal.throughputHintQps], |floats.arith.float q| < 2 ^ 1024) :
    ∃ dict, previousDict (some signal.written.json) = .ok dict
      ∧ signal.entry.Numbers floats dict := by
  refine ⟨_, rfl, rfl, rfl, rfl, rfl, ?_⟩
  intro q hq
  refine hrange q ?_
  simpa [SmoothedSignal.entry] using hq

end Written

/-! ## Stores -/

/-- A signal store at an instant. `getSignals` gives the dictionary it
returns, by key. -/
structure JsonStore (S : Type) where
  getSignals : ℤ → List String → S → Except PyError (String → Option Json)
  setSignal : ℤ → String → Json → S → S

/-- `InMemorySignalStore`. -/
def InMemoryJson.store : JsonStore JsonDict where
  getSignals _ modelIds signals :=
    .ok fun modelId =>
      if modelId ∈ modelIds then some (signals.get modelId (.object [])) else none
  setSignal _ modelId signal signals := signals.set modelId signal

/-- `json.dumps` and `json.loads`. -/
structure JsonCodec where
  dumps : Json → String
  loads : String → Except PyError Json

/-- A payload: a `JSONDecodeError` is logged and the model skipped, any other
exception of `json.loads` is not caught. -/
def JsonCodec.decode (codec : JsonCodec) : Option String → Except PyError (Option Json)
  | none => .ok none
  | some text =>
    if text = "" then .ok none
    else
      match codec.loads text with
      | .ok json => .ok (some json)
      | .error .jsonDecodeError => .ok none
      | .error err => .error err

/-- The loop of `get_signals` over what `MGET` gives. An id asked for twice
has the same value twice. -/
def RedisJson.report (codec : JsonCodec) (now : ℤ) (s : RedisSignals) :
    List String → Except PyError (String → Option Json)
  | [] => .ok fun _ => none
  | modelId :: modelIds => do
    let signal ← codec.decode (s.get now (signalKey modelId))
    let signals ← report codec now s modelIds
    return Function.update signals modelId signal

/-- `RedisSignalStore`. -/
def RedisJson.store (codec : JsonCodec) : JsonStore RedisSignals where
  getSignals now modelIds s := RedisJson.report codec now s modelIds
  setSignal now modelId signal s :=
    Function.update s (signalKey modelId)
      (some ⟨codec.dumps signal, some (now + signalTtlSeconds)⟩)

/-! ## The round -/

/-- What the probes of a round give: one result for each target, under its
id. -/
structure Probing where
  result : ProbeTarget → ProbeResult
  modelId_result : ∀ target, (result target).modelId = target.modelId

/-- The results of `probe_model`. -/
def Probing.ofMeasurements (measure : ProbeTarget → Measurement) : Probing where
  result target := probeModel target.modelId target.provider (measure target)
  modelId_result _ := rfl

section Round

variable {S : Type} (store : JsonStore S) (floats : Floats) (clock : RoundClock)

/-- What `smooth_and_store_signal` stores, and under which id. -/
def smoothedWrite (existing : String → Option Json) (result : ProbeResult) :
    Except PyError (String × Json) :=
  (smoothJson floats result (existing result.modelId)).map fun signal =>
    (result.modelId, signal.json)

/-- `probe_loop_once`, with what it returns or raises. -/
def probeLoopOnceJson (probing : Probing) (targets : List ProbeTarget) (s : S) :
    Except PyError (List ProbeResult) × S :=
  match store.getSignals clock.readAt (targets.map (·.modelId)) s with
  | .error err => (.error err, s)
  | .ok existing =>
    let results := targets.map probing.result
    match writeUntil (smoothedWrite floats existing) (store.setSignal clock.writeAt) results s with
    | (none, after) => (.ok results, after)
    | (some err, after) => (.error err, after)

end Round

end ControlPlane
