import ControlPlane.Json
import ControlPlane.Lib.Checked
import ControlPlane.Lib.Cursor
import ControlPlane.Lib.Interleave
import ControlPlane.Lib.Rounding

/-!
# The event consumer — `app/workers/event_consumer.py`

`run_event_consumer` reads the two event streams past the offsets it keeps,
and walks through what it is handed: the offset moves to an entry, the entry
is decoded, and a probe event is written to the database. Whatever raises on
the way ends the walk, and after a pause the consumer reads again from where
the offsets stand. The offsets live in the process: a restart begins at
`0-0`.

Any number of consumers and publishers run beside each other; a process
lifetime is a consumer task, and a crash is a task that takes no further
step. The step relation at the end has a rule per await.

Mirroring notes:
- A batch is walked as one list of entries with their stream's name, the
  outcome stream's first, in the order of the `offsets` dictionary.
- `json.loads` and `int` on a text are parameters (`JsonReader`); everything
  here holds for any of them. Payloads are dictionaries read by key.
- The database may raise before the commit or lose the reply after it,
  whatever the row; that is the environment's choice.
- `World.recorded` pairs each row with the id of the entry it was written
  for, and `Consumer.written` lists the ids a lifetime wrote rows for. Both
  are for statements only; no step reads them.
-/

namespace ControlPlane

open Lib

/-! ## Payloads -/

/-- `none`: the text is not JSON, or not an integer literal. -/
structure JsonReader where
  loads : String → Option Json
  parseInt : String → Option ℤ

/-- What the loop's handler catches. `intError` is what `int` raises on a
value it does not take. -/
inductive EventError
  | keyError (key : String)
  | jsonDecodeError
  | attributeError
  | valueError (detail : String)
  | intError

/-- A decoded dictionary. -/
abbrev Payload := List (String × Json)

/-- A payload, if the value is an object. -/
def Json.asDict : Json → Except EventError Payload
  | .object fields => .ok fields
  | _ => .error .attributeError

/-- `payload.get(key, default)`. -/
def Payload.get (payload : Payload) (key : String) (default : Json := .null) : Json :=
  (payload.lookup key).getD default

/-- `payload[key]`. -/
def Payload.item (payload : Payload) (key : String) : Except EventError Json :=
  match payload.lookup key with
  | some value => .ok value
  | none => .error (.keyError key)

/-- `{**payload, key: value}`: a key that is there keeps its place. -/
def Payload.set (payload : Payload) (key : String) (value : Json) : Payload :=
  if payload.any fun field => field.1 == key then
    payload.map fun field => if field.1 = key then (key, value) else field
  else payload ++ [(key, value)]

/-- An assignment is read back. -/
theorem Payload.lookup_set_self (payload : Payload) (key : String) (value : Json) :
    (payload.set key value).lookup key = some value := by
  unfold Payload.set
  split
  next hmem =>
    induction payload with
    | nil => simp at hmem
    | cons field payload ih =>
      rw [List.map_cons]
      by_cases hkey : field.1 = key
      · rw [if_pos hkey]
        simp
      · have hrest : payload.any (fun field => field.1 == key) = true := by
          simpa [hkey] using hmem
        have hhead : (key == field.1) = false := beq_false_of_ne (Ne.symm hkey)
        rw [if_neg hkey, List.lookup_cons, hhead]
        exact ih hrest
  next hmem =>
    have hnone : payload.lookup key = none := by
      rw [List.lookup_eq_none_iff]
      intro field hfield
      simp only [List.any_eq_true, not_exists, not_and, beq_iff_eq] at hmem
      simpa using Ne.symm (hmem field hfield)
    rw [List.lookup_append, hnone]
    simp

/-- It changes no other key. -/
theorem Payload.lookup_set_ne (payload : Payload) {key other : String} (hne : other ≠ key)
    (value : Json) : (payload.set key value).lookup other = payload.lookup other := by
  have hnot : (other == key) = false := beq_false_of_ne hne
  unfold Payload.set
  split
  next hmem =>
    clear hmem
    induction payload with
    | nil => rfl
    | cons field payload ih =>
      rw [List.map_cons]
      by_cases hkey : field.1 = key
      · rw [if_pos hkey, List.lookup_cons, List.lookup_cons, hkey, hnot]
        exact ih
      · rw [if_neg hkey, List.lookup_cons, List.lookup_cons]
        cases hhead : other == field.1 with
        | true => rfl
        | false => exact ih
  next =>
    rw [List.lookup_append, List.lookup_cons, hnot]
    simp

/-- Subscripting finds what `lookup` finds. -/
theorem Payload.item_eq_ok {payload : Payload} {key : String} {value : Json} :
    payload.item key = .ok value ↔ payload.lookup key = some value := by
  unfold Payload.item
  cases payload.lookup key with
  | some found => simp
  | none => simp

/-- `int(value)`. -/
def Json.toInt (json : JsonReader) : Json → Except EventError ℤ
  | .bool b => .ok (if b then 1 else 0)
  | .number q => .ok (trunc.toInt q)
  | .string s =>
    match json.parseInt s with
    | some z => .ok z
    | none => .error .intError
  | _ => .error .intError

/-! ## Probe snapshots — `app/services/persistence.py` -/

/-- `normalize_probe_snapshot_payload`. -/
def normalizeProbeSnapshotPayload (json : JsonReader) (payload : Payload) :
    Except EventError Payload := do
  let status := payload.get "status"
  let status :=
    if status.isNull then
      .string (if (payload.get "degraded_reason").truthy then "degraded" else "success")
    else status
  -- A `ttfb_ms` of null is taken as it is; the fallback is for a missing key.
  let ttfbMs := payload.get "ttfb_ms" (payload.get "ttfb_p50_ms")
  if ttfbMs.isNull then .error (.valueError "probe payload missing ttfb_ms/ttfb_p50_ms")
  else do
    let ttfb ← ttfbMs.toInt json
    return (Payload.set payload "status" status).set "ttfb_ms" (.number ttfb)

/-- A row of `probe_snapshots`, as it is inserted. -/
structure ProbeSnapshotRecord where
  provider : Json
  modelId : Json
  status : Json
  ttfbMs : Json
  throughputHintQps : Json
  successRate : Json
  degradedReason : Json
  signalPayload : Payload

/-- The row of a normalized payload. -/
def probeSnapshotRecord (normalized : Payload) : Except EventError ProbeSnapshotRecord := do
  let provider ← normalized.item "provider"
  let modelId ← normalized.item "model_id"
  let status ← normalized.item "status"
  let ttfbMs ← normalized.item "ttfb_ms"
  let throughputHintQps ← normalized.item "throughput_hint_qps"
  let successRate ← normalized.item "success_rate"
  return { provider, modelId, status, ttfbMs, throughputHintQps, successRate,
           degradedReason := normalized.get "degraded_reason"
           signalPayload := normalized }

/-- What the normalised payload has beside the payload's own keys. -/
theorem normalizeProbeSnapshotPayload_ok {json : JsonReader} {payload normalized : Payload}
    (h : normalizeProbeSnapshotPayload json payload = .ok normalized) :
    ∃ status ttfb,
      normalized = (Payload.set payload "status" status).set "ttfb_ms" (.number ttfb) := by
  unfold normalizeProbeSnapshotPayload at h
  dsimp only at h
  split at h
  next => simp at h
  next =>
    cases httfb : (payload.get "ttfb_ms" (payload.get "ttfb_p50_ms")).toInt json with
    | error err =>
      rw [httfb] at h
      simp [bind, Except.bind] at h
    | ok ttfb =>
      rw [httfb] at h
      exact ⟨_, ttfb, (Except.ok.inj h).symm⟩

/-- The row is built when its six keys are there. -/
theorem probeSnapshotRecord_ok_iff (normalized : Payload) :
    (∃ record, probeSnapshotRecord normalized = .ok record)
      ↔ ∀ key ∈ ["provider", "model_id", "status", "ttfb_ms", "throughput_hint_qps",
          "success_rate"], ∃ value, normalized.lookup key = some value := by
  simp only [probeSnapshotRecord, bind_eq_ok, Payload.item_eq_ok]
  constructor
  · intro hrecord key hkey
    obtain ⟨record, provider, hprovider, modelId, hmodelId, status, hstatus, ttfbMs, httfbMs,
      qps, hqps, success, hsuccess, -⟩ := hrecord
    simp only [List.mem_cons, List.not_mem_nil, or_false] at hkey
    rcases hkey with rfl | rfl | rfl | rfl | rfl | rfl
    · exact ⟨provider, hprovider⟩
    · exact ⟨modelId, hmodelId⟩
    · exact ⟨status, hstatus⟩
    · exact ⟨ttfbMs, httfbMs⟩
    · exact ⟨qps, hqps⟩
    · exact ⟨success, hsuccess⟩
  · intro hkeys
    obtain ⟨provider, hprovider⟩ := hkeys "provider" (by simp)
    obtain ⟨modelId, hmodelId⟩ := hkeys "model_id" (by simp)
    obtain ⟨status, hstatus⟩ := hkeys "status" (by simp)
    obtain ⟨ttfbMs, httfbMs⟩ := hkeys "ttfb_ms" (by simp)
    obtain ⟨qps, hqps⟩ := hkeys "throughput_hint_qps" (by simp)
    obtain ⟨success, hsuccess⟩ := hkeys "success_rate" (by simp)
    exact ⟨_, provider, hprovider, modelId, hmodelId, status, hstatus, ttfbMs, httfbMs,
      qps, hqps, success, hsuccess, rfl⟩

/-! ## Streams -/

/-- The three streams. -/
inductive StreamName
  | outcome
  | probe
deriving DecidableEq

/-- Milliseconds and sequence number. -/
abbrev EntryId := ℕ ×ₗ ℕ

/-- `"0-0"`, which no entry has. -/
def EntryId.zero : EntryId := toLex (0, 0)

/-- An entry's fields, as the client's dictionary of texts. -/
abbrev Fields := List (String × String)

/-- Entries in the order of their ids. -/
abbrev Stream := Log EntryId Fields EntryId.zero

/-- An entry as a reader is handed it. -/
abbrev StreamEntry := EntryId × Fields

/-- `json.loads(fields["payload"])`. -/
def decodePayload (json : JsonReader) (fields : Fields) : Except EventError Json :=
  match fields.lookup "payload" with
  | none => .error (.keyError "payload")
  | some raw =>
    match json.loads raw with
    | none => .error .jsonDecodeError
    | some payload => .ok payload

/-- The streams, and the table of snapshots. -/
structure StreamWorld where
  streams : StreamName → Stream
  recorded : List (EntryId × ProbeSnapshotRecord)

/-- `XADD`, under an id beyond the last. -/
def StreamWorld.xadd (w : StreamWorld) (name : StreamName) (entry : StreamEntry)
    (h : (w.streams name).last < entry.1) : StreamWorld :=
  { w with streams := Function.update w.streams name ((w.streams name).append entry h) }

/-- `XADD` appends to its stream. -/
theorem StreamWorld.streams_xadd_self (w : StreamWorld) {name : StreamName} {entry : StreamEntry}
    (h : (w.streams name).last < entry.1) :
    (w.xadd name entry h).streams name = (w.streams name).append entry h :=
  Function.update_self _ _ _

/-- It leaves the other streams alone. -/
theorem StreamWorld.streams_xadd_ne (w : StreamWorld) {name other : StreamName}
    {entry : StreamEntry} (h : (w.streams name).last < entry.1) (hne : other ≠ name) :
    (w.xadd name entry h).streams other = w.streams other :=
  Function.update_of_ne hne _ _

/-- `XREAD` with `count=50`: of each stream, some of what lies past the
offset, from the front. -/
def StreamWorld.xread (w : StreamWorld) (offsets : StreamName → EntryId)
    (sizes : StreamName → ℕ) : List (StreamName × StreamEntry) :=
  [StreamName.outcome, .probe].flatMap fun name =>
    (((w.streams name).past (offsets name)).take (min (sizes name) 50)).map fun entry =>
      (name, entry)

/-- A committed insert of a snapshot. -/
def StreamWorld.insertSnapshot (w : StreamWorld) (id : EntryId) (record : ProbeSnapshotRecord) :
    StreamWorld :=
  { w with recorded := w.recorded ++ [(id, record)] }

/-! ## The consumer -/

/-- Where the loop waits. -/
inductive ConsumerPc
  | reading
  | recording (entry : StreamEntry) (payload : Json) (rest : List (StreamName × StreamEntry))
  | sleeping

/-- The consumer's local variables and its next await. -/
structure Consumer where
  offsets : StreamName → EntryId := fun _ => EntryId.zero
  pc : ConsumerPc := .reading
  written : List EntryId := []

/-- The two `for` loops, up to the next await. -/
def Consumer.consume (json : JsonReader) (c : Consumer) :
    List (StreamName × StreamEntry) → Consumer
  | [] => { c with pc := .reading }
  | (name, entry) :: rest =>
    let c := { c with offsets := Function.update c.offsets name entry.1 }
    -- From here on the entry is behind the offset, whatever becomes of it.
    match decodePayload json entry.2 with
    | .error _ => { c with pc := .sleeping }
    | .ok payload =>
      match name with
      | .probe => { c with pc := .recording entry payload rest }
      | .outcome =>
        match payload.asDict with
        | .error _ => { c with pc := .sleeping }
        | .ok _ => c.consume json rest

/-- What `record_probe_snapshot` builds before it opens a session, and the row
it adds. -/
def probeRecordOf (json : JsonReader) (payload : Json) : Except EventError ProbeSnapshotRecord := do
  let payload ← payload.asDict
  let normalized ← normalizeProbeSnapshotPayload json payload
  probeSnapshotRecord normalized

/-- How the database answers the insert. -/
inductive DatabaseReply
  | commits
  | raises
  | commitsThenRaises
deriving DecidableEq

/-- What a step reads from outside. -/
inductive StreamEnv
  | added (id : EntryId)
  | read (sizes : StreamName → ℕ)
  | readRaises
  | database (reply : DatabaseReply)
  | woken

/-- The consumer up to its next await. -/
def Consumer.advance (json : JsonReader) (env : StreamEnv) (w : StreamWorld) (c : Consumer) :
    Option (StreamWorld × Consumer) :=
  match c.pc, env with
  | .reading, .read sizes => some (w, c.consume json (w.xread c.offsets sizes))
  | .reading, .readRaises => some (w, { c with pc := .sleeping })
  | .recording entry payload rest, .database reply =>
    match probeRecordOf json payload with
    | .error _ => some (w, { c with pc := .sleeping })
    | .ok record =>
      let c' := { c with written := c.written ++ [entry.1] }
      match reply with
      | .raises => some (w, { c with pc := .sleeping })
      | .commits => some (w.insertSnapshot entry.1 record, c'.consume json rest)
      | .commitsThenRaises => some (w.insertSnapshot entry.1 record, { c' with pc := .sleeping })
  | .sleeping, .woken => some (w, { c with pc := .reading })
  | _, _ => none

/-! ## Publishers and consumers together -/

/-- A publisher of one entry, or the consumer. -/
inductive StreamTask
  | publish (name : StreamName) (fields : Fields)
  | published
  | consumer (c : Consumer)

/-- A publisher about to add its event, or a process at its start. -/
inductive StreamTask.Started : StreamTask → Prop
  | publish (name : StreamName) (fields : Fields) : Started (.publish name fields)
  | consumer : Started (.consumer {})

/-- Publishers and consumers over the streams. -/
def eventSystem (json : JsonReader) : System StreamWorld StreamTask StreamEnv where
  advance env w
    | .publish name fields =>
      match env with
      | .added id =>
        if h : (w.streams name).last < id then some (w.xadd name (id, fields) h, .published)
        else none
      | _ => none
    | .published => none
    | .consumer c => (c.advance json env w).map fun wc => (wc.1, .consumer wc.2)

end ControlPlane
