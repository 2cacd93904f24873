import ControlPlane.ConsumerSteps
import ControlPlane.ModelIds
import ControlPlane.Service
import ControlPlane.Smoothing

/-!
# The probe worker — `app/workers/probe_worker.py`

`run_probe_worker` loops: it reads the catalog, reads the signals of its
targets, probes them all, writes one smoothed signal after the other, and
publishes one event after the other. Whatever raises ends the turn, and after
a pause the next one begins.

Any number of workers, consumers and outcome publishers run beside each other
over one Redis (`probePlane`). A process lifetime is a task; a crash is a task
that takes no further step.

Mirroring notes:
- The catalog file is read at the beginning of a turn and may be another
  one, or unreadable, each time.
- `probe_model` catches what a request raises; what it meets is the
  environment's. `asyncio.gather` is one await.
- `json.dumps` of a result is a parameter (`ProbeCodec.event`).
- `World.probes` lists the probes made and `World.stored` the results whose
  signal was written. Both are for statements only; no step reads them.
-/

namespace ControlPlane

open Lib

/-- A probe and what it met. -/
structure Probe where
  target : ProbeTarget
  measurement : Measurement

/-- The result of a probe. -/
def Probe.result (probe : Probe) : ProbeResult :=
  probeModel probe.target.modelId probe.target.provider probe.measurement

/-- What a round asks for and meets. -/
def makeProbes (measure : ProbeTarget → Measurement) (targets : List ProbeTarget) : List Probe :=
  targets.map fun target => { target, measurement := measure target }

/-- `json.dumps` and `json.loads`, and the settings of the environment. -/
structure ProbeCodec where
  signal : SignalCodec
  event : ProbeResult → String
  json : JsonReader
  setting : String → Option String

/-- The store and the streams, and what has been probed and stored. -/
structure ProbeWorld where
  signals : RedisSignals
  streams : StreamWorld
  probes : List Probe := []
  stored : List ProbeResult := []

/-- Where the loop waits. `storing` and `publishing` are at an element of
their `for` loops; `done` are the results behind it. -/
inductive ProbePc
  | sleeping
  | reading (targets : List ProbeTarget)
  | probing (targets : List ProbeTarget) (existing : String → Option SignalEntry)
  | storing (existing : String → Option SignalEntry) (done : List ProbeResult)
      (result : ProbeResult) (rest : List ProbeResult)
  | publishing (result : ProbeResult) (rest : List ProbeResult)

/-- The loop over `publish_probe`, up to its next await. -/
def ProbePc.publish : List ProbeResult → ProbePc
  | [] => .sleeping
  | result :: rest => .publishing result rest

/-- The loop of `probe_loop_once`, up to its next await. -/
def ProbePc.store (existing : String → Option SignalEntry) (done : List ProbeResult) :
    List ProbeResult → ProbePc
  | [] => .publish done
  | result :: rest => .storing existing done result rest

/-- What a step reads from outside. -/
inductive ProbeEnv
  | woken (catalog : Except ServiceError CatalogSnapshot)
  | read (now : ℤ) (fault : Fault)
  | probed (measure : ProbeTarget → Measurement)
  | set (now : ℤ) (fault : Fault)
  | added (id : EntryId) (fault : Fault)
  | stream (env : StreamEnv)

/-- The fields of an event. -/
def ProbeCodec.fields (codec : ProbeCodec) (result : ProbeResult) : Fields :=
  [("payload", codec.event result)]

/-- `smooth_and_store_signal`. -/
def ProbeWorld.storeSignal (codec : ProbeCodec) (now : ℤ) (result : ProbeResult)
    (previous : Option SignalEntry) (w : ProbeWorld) : ProbeWorld :=
  { w with
    signals := (smoothAndStoreSignal (RedisSignals.store codec.signal) now result previous
      w.signals).2
    stored := w.stored ++ [result] }

/-- One signal is set. -/
theorem ProbeWorld.signals_storeSignal (codec : ProbeCodec) (now : ℤ) (result : ProbeResult)
    (previous : Option SignalEntry) (w : ProbeWorld) :
    (w.storeSignal codec now result previous).signals
      = Function.update w.signals (signalKey result.modelId)
        (some ⟨codec.signal.dumps (smoothSignal result previous).entry,
          some (now + signalTtlSeconds)⟩) := rfl

/-- One step of the loop. -/
def ProbePc.advance (codec : ProbeCodec) (env : ProbeEnv) (w : ProbeWorld) :
    ProbePc → Option (ProbeWorld × ProbePc)
  | .sleeping =>
    match env with
    | .woken (.error _) => some (w, .sleeping)
    | .woken (.ok snapshot) =>
      match buildProbeTargets codec.setting snapshot with
      | [] => some (w, .sleeping)
      | target :: targets => some (w, .reading (target :: targets))
    | _ => none
  | .reading targets =>
    match env with
    | .read now .returns =>
      some (w, .probing targets ((RedisSignals.store codec.signal).getSignals now
        (targets.map (·.modelId)) w.signals))
    | .read _ _ => some (w, .sleeping)
    | _ => none
  | .probing targets existing =>
    match env with
    | .probed measure =>
      let probes := makeProbes measure targets
      some ({ w with probes := w.probes ++ probes },
        .store existing [] (probes.map Probe.result))
    | _ => none
  | .storing existing done result rest =>
    match env with
    | .set now fault =>
      let stored := w.storeSignal codec now result (existing result.modelId)
      match fault with
      | .returns => some (stored, .store existing (done ++ [result]) rest)
      | .raises => some (w, .sleeping)
      | .raisesAfter => some (stored, .sleeping)
    | _ => none
  | .publishing result rest =>
    match env with
    | .added id fault =>
      if fault = .raises then some (w, .sleeping)
      else if h : (w.streams.streams .probe).last < id then
        some ({ w with streams := w.streams.xadd .probe (id, codec.fields result) h },
          if fault = .returns then .publish rest else .sleeping)
      else none
    | _ => none

/-- A worker, or a process at the event streams. -/
inductive ProbeTask
  | worker (pc : ProbePc)
  | stream (task : StreamTask)

/-- A worker, a consumer or an outcome publisher at its start. -/
inductive ProbeTask.Started : ProbeTask → Prop
  | worker : Started (.worker .sleeping)
  | consumer : Started (.stream (.consumer {}))
  | publishOutcome (fields : Fields) : Started (.stream (.publish .outcome fields))

/-- Workers, publishers and consumers side by side. -/
def probePlane (codec : ProbeCodec) : System ProbeWorld ProbeTask ProbeEnv where
  advance env w
    | .worker pc => (pc.advance codec env w).map fun next => (next.1, .worker next.2)
    | .stream task =>
      match env with
      | .stream env =>
        ((eventSystem codec.json).advance env w.streams task).map fun next =>
          ({ w with streams := next.1 }, .stream next.2)
      | _ => none

/-! ## One step -/

section Step

variable {codec : ProbeCodec} {env : ProbeEnv} {w w' : ProbeWorld} {t t' : ProbeTask}

/-- What a step can do. -/
inductive ProbeStep (codec : ProbeCodec) (env : ProbeEnv) (w : ProbeWorld) :
    ProbeTask → ProbeWorld → ProbeTask → Prop
  | slept {pc} : ProbeStep codec env w (.worker pc) w (.worker .sleeping)
  | woke {snapshot} :
      ProbeStep codec env w (.worker .sleeping) w
        (.worker (.reading (buildProbeTargets codec.setting snapshot)))
  | readSignals {targets now} :
      ProbeStep codec env w (.worker (.reading targets)) w
        (.worker (.probing targets ((RedisSignals.store codec.signal).getSignals now
          (targets.map (·.modelId)) w.signals)))
  | probed {targets existing measure} (henv : env = .probed measure) :
      ProbeStep codec env w (.worker (.probing targets existing))
        { w with probes := w.probes ++ makeProbes measure targets }
        (.worker (.store existing [] ((makeProbes measure targets).map Probe.result)))
  | stored {existing done result rest now pc}
      (hpc : pc = .store existing (done ++ [result]) rest ∨ pc = .sleeping) :
      ProbeStep codec env w (.worker (.storing existing done result rest))
        (w.storeSignal codec now result (existing result.modelId)) (.worker pc)
  | published {result rest id pc} (hid : (w.streams.streams .probe).last < id)
      (hpc : pc = .publish rest ∨ pc = .sleeping) :
      ProbeStep codec env w (.worker (.publishing result rest))
        { w with streams := w.streams.xadd .probe (id, codec.fields result) hid } (.worker pc)
  | streamed {streamEnv streams task task'}
      (hadv : (eventSystem codec.json).advance streamEnv w.streams task = some (streams, task')) :
      ProbeStep codec env w (.stream task) { w with streams } (.stream task')

/-- A worker's step is one of the listed ones. -/
theorem ProbePc.advance_step {pc pc' : ProbePc} (h : pc.advance codec env w = some (w', pc')) :
    ProbeStep codec env w (.worker pc) w' (.worker pc') := by
  unfold ProbePc.advance at h
  split at h
  next =>
    split at h
    next =>
      obtain ⟨rfl, rfl⟩ := Prod.mk.inj (Option.some.inj h)
      exact .slept
    next snapshot =>
      split at h
      next =>
        obtain ⟨rfl, rfl⟩ := Prod.mk.inj (Option.some.inj h)
        exact .slept
      next htargets =>
        obtain ⟨rfl, rfl⟩ := Prod.mk.inj (Option.some.inj h)
        exact htargets ▸ @ProbeStep.woke _ _ _ snapshot
    next => cases h
  next =>
    split at h
    next =>
      obtain ⟨rfl, rfl⟩ := Prod.mk.inj (Option.some.inj h)
      exact .readSignals
    next =>
      obtain ⟨rfl, rfl⟩ := Prod.mk.inj (Option.some.inj h)
      exact .slept
    next => cases h
  next =>
    split at h
    next =>
      obtain ⟨rfl, rfl⟩ := Prod.mk.inj (Option.some.inj h)
      exact .probed rfl
    next => cases h
  next =>
    split at h
    next now fault =>
      dsimp only at h
      cases fault with
      | returns =>
        obtain ⟨rfl, rfl⟩ := Prod.mk.inj (Option.some.inj h)
        exact .stored (.inl rfl)
      | raises =>
        obtain ⟨rfl, rfl⟩ := Prod.mk.inj (Option.some.inj h)
        exact .slept
      | raisesAfter =>
        obtain ⟨rfl, rfl⟩ := Prod.mk.inj (Option.some.inj h)
        exact .stored (.inr rfl)
    next => cases h
  next =>
    split at h
    next id fault =>
      split at h
      next =>
        obtain ⟨rfl, rfl⟩ := Prod.mk.inj (Option.some.inj h)
        exact .slept
      next =>
        split at h
        next hid =>
          obtain ⟨rfl, rfl⟩ := Prod.mk.inj (Option.some.inj h)
          refine .published hid ?_
          split
          · exact .inl rfl
          · exact .inr rfl
        next => cases h
    next => cases h

/-- And so is any step. -/
theorem probePlane_step (h : (probePlane codec).advance env w t = some (w', t')) :
    ProbeStep codec env w t w' t' := by
  cases t with
  | worker pc =>
    obtain ⟨⟨w₁, pc'⟩, hadv, heq⟩ := Option.map_eq_some_iff.mp h
    obtain ⟨rfl, rfl⟩ := Prod.mk.inj heq
    exact ProbePc.advance_step hadv
  | stream task =>
    simp only [probePlane] at h
    split at h
    next =>
      obtain ⟨⟨streams, task'⟩, hadv, heq⟩ := Option.map_eq_some_iff.mp h
      obtain ⟨rfl, rfl⟩ := Prod.mk.inj heq
      exact .streamed hadv
    next => cases h

end Step

end ControlPlane
