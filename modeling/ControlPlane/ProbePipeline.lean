import ControlPlane.ProbeDelivery
import ControlPlane.ProbeWorker

/-!
# From probes to signals and rows

What holds of any number of probe workers and consumers over one Redis,
whatever fails and whichever processes are restarted.

A worker writes what it read before it probed, smoothed by its own probe, so
workers that overlap lose each other's updates. A stored signal is then still
the smoothing of some of the probes of its model, in the order they were made
(`History`, `stored_signals_are_histories`), so it is one the engine's results
are about (`probed_signals_wellFormed`). An event follows its signal, and a
row follows its event (`snapshot_rows_from_probes`).
-/

namespace ControlPlane

open Lib

variable {codec : ProbeCodec}

/-! ## Histories -/

/-- The signal is the smoothing of some of the model's probes, in their
order. -/
def History (probes : List Probe) (modelId : String) (signal : SmoothedSignal) : Prop :=
  ∃ history : List Probe, history.Sublist probes
    ∧ (∀ probe ∈ history, probe.target.modelId = modelId)
    ∧ storedAfter (history.map Probe.result) = some signal

/-- Of more probes, the history is still one. -/
theorem History.mono {probes probes' : List Probe} {modelId : String} {signal : SmoothedSignal}
    (hsub : probes.Sublist probes') (h : History probes modelId signal) :
    History probes' modelId signal := by
  obtain ⟨history, hhistory, hrest⟩ := h
  exact ⟨history, hhistory.trans hsub, hrest⟩

/-- What a store may report of the models. -/
def Reports (probes : List Probe) (existing : String → Option SignalEntry) : Prop :=
  ∀ modelId entry, existing modelId = some entry →
    ∃ signal, entry = signal.entry ∧ History probes modelId signal

/-- And so is a report. -/
theorem Reports.mono {probes probes' : List Probe} {existing : String → Option SignalEntry}
    (hsub : probes.Sublist probes') (h : Reports probes existing) : Reports probes' existing := by
  intro modelId entry hentry
  obtain ⟨signal, heq, hhistory⟩ := h modelId entry hentry
  exact ⟨signal, heq, hhistory.mono hsub⟩

/-- A probe smoothed against what was reported before it was made. -/
theorem Reports.next {before probes : List Probe} {existing : String → Option SignalEntry}
    (h : Reports before existing) {probe : Probe} (hsub : (before ++ [probe]).Sublist probes) :
    History probes probe.target.modelId
      (smoothSignal probe.result (existing probe.target.modelId)) := by
  cases hentry : existing probe.target.modelId with
  | none =>
    refine ⟨[probe], (List.sublist_append_right before [probe]).trans hsub, by simp, ?_⟩
    rfl
  | some entry =>
    obtain ⟨signal, rfl, history, hhistory, hids, hsignal⟩ := h _ _ hentry
    refine ⟨history ++ [probe], (hhistory.append_right [probe]).trans hsub, ?_, ?_⟩
    · exact List.forall_mem_append.mpr ⟨hids, by simp⟩
    · rw [List.map_append, List.map_singleton, storedAfter_concat, hsignal]
      rfl

/-! ## What holds of every task -/

/-- The target is a model of a provider whose key is configured. -/
def Configured (setting : String → Option String) (target : ProbeTarget) : Prop :=
  ∃ provider apiKey model, probeApiKey setting provider = some apiKey
    ∧ model ∈ provider.models ∧ target = probeTarget provider apiKey model

/-- A probed target is a configured one. -/
theorem configured_of_mem {setting : String → Option String} {snapshot : CatalogSnapshot}
    {target : ProbeTarget} (h : target ∈ buildProbeTargets setting snapshot) :
    Configured setting target := by
  obtain ⟨provider, -, htarget⟩ := List.mem_flatMap.mp h
  cases hkey : probeApiKey setting provider with
  | none =>
    rw [hkey] at htarget
    cases htarget
  | some apiKey =>
    rw [hkey] at htarget
    obtain ⟨model, hmodel, rfl⟩ := List.mem_map.mp htarget
    exact ⟨provider, apiKey, model, hkey, hmodel, rfl⟩

/-- What a worker knows. The probes of a round come after what it read. -/
def ProbePc.Sound (codec : ProbeCodec) (probes : List Probe) : ProbePc → Prop
  | .sleeping => True
  | .reading targets => ∀ target ∈ targets, Configured codec.setting target
  | .probing targets existing =>
    (∀ target ∈ targets, Configured codec.setting target) ∧ Reports probes existing
  | .storing existing _ result rest => ∃ before, Reports before existing
      ∧ ∀ r ∈ result :: rest, ∃ probe : Probe, probe.result = r
        ∧ (before ++ [probe]).Sublist probes
  | .publishing _ _ => True

/-- What the task knows; an outcome has nothing to do with probes. -/
def ProbeTask.Sound (codec : ProbeCodec) (w : ProbeWorld) : ProbeTask → Prop
  | .worker pc => pc.Sound codec w.probes
  | .stream (.publish name _) => name = .outcome
  | .stream .published => True
  | .stream (.consumer c) => c.Inv codec.json w.streams

/-- Between two rounds nothing is to be known. -/
theorem ProbePc.sound_publish (probes : List Probe) (results : List ProbeResult) :
    (ProbePc.publish results).Sound codec probes := by
  cases results <;> trivial

/-- A worker that has results to store has made their probes. -/
theorem ProbePc.sound_store {before probes : List Probe}
    {existing : String → Option SignalEntry} (hreports : Reports before existing)
    (done : List ProbeResult) {results : List ProbeResult}
    (hresults : ∀ r ∈ results, ∃ probe : Probe, probe.result = r
      ∧ (before ++ [probe]).Sublist probes) :
    (ProbePc.store existing done results).Sound codec probes := by
  cases results with
  | nil => exact ProbePc.sound_publish probes done
  | cons result rest => exact ⟨before, hreports, hresults⟩

/-- What a step leaves to the other tasks. -/
structure ProbeWorld.Extends (w w' : ProbeWorld) : Prop where
  probes : w.probes.Sublist w'.probes
  streams : Grows w.streams w'.streams

/-- What a task knows stays true. -/
theorem ProbeTask.Sound.mono {w w' : ProbeWorld} (hextends : w.Extends w') {t : ProbeTask}
    (h : t.Sound codec w) : t.Sound codec w' := by
  cases t with
  | worker pc =>
    cases pc with
    | sleeping | reading | publishing => exact h
    | probing targets existing => exact ⟨h.1, h.2.mono hextends.probes⟩
    | storing existing done result rest =>
      obtain ⟨before, hreports, hresults⟩ := h
      refine ⟨before, hreports, fun r hr => ?_⟩
      obtain ⟨probe, hprobe, hsub⟩ := hresults r hr
      exact ⟨probe, hprobe, hsub.trans hextends.probes⟩
  | stream task =>
    cases task with
    | publish | published => exact h
    | consumer c => exact Consumer.Inv.grows h hextends.streams

section Step

variable {env : ProbeEnv} {w w' : ProbeWorld} {t t' : ProbeTask} {l r : List ProbeTask}

/-- A step takes nothing away. -/
theorem ProbeStep.extends (h : ProbeStep codec env w t w' t') : w.Extends w' := by
  cases h with
  | slept | woke | readSignals | stored => exact ⟨List.Sublist.refl _, .same⟩
  | probed => exact ⟨List.sublist_append_left _ _, .same⟩
  | published hid => exact ⟨List.Sublist.refl _, .added _ _ hid⟩
  | streamed hadv =>
    refine ⟨List.Sublist.refl _, ?_⟩
    rcases eventSystem_cases hadv with ⟨_, _, _, hid, -, -, rfl⟩ | ⟨_, _, -, -, hstep⟩
    · exact .added _ _ hid
    · exact hstep.grows

/-- The round trip of a signal. -/
def SignalCodec.Faithful (codec : SignalCodec) : Prop :=
  ∀ signal, codec.dumps signal ≠ "" ∧ codec.loads (codec.dumps signal) = some signal

/-- Every text in the store is the history of its model. -/
def StoredHistories (codec : ProbeCodec) (w : ProbeWorld) : Prop :=
  ∀ key e, w.signals key = some e → ∃ modelId signal, key = signalKey modelId
    ∧ e.value = codec.signal.dumps signal.entry ∧ History w.probes modelId signal

/-- What is stored is reported. -/
theorem StoredHistories.reports (h : StoredHistories codec w) (hcodec : codec.signal.Faithful)
    (now : ℤ) (modelIds : List String) :
    Reports w.probes ((RedisSignals.store codec.signal).getSignals now modelIds w.signals) := by
  intro modelId entry hentry
  simp only [RedisSignals.store] at hentry
  split at hentry
  next =>
    unfold SignalCodec.decode at hentry
    obtain ⟨text, htext, hdecode⟩ := Option.bind_eq_some_iff.mp hentry
    obtain ⟨e, hlive, rfl⟩ := Option.map_eq_some_iff.mp htext
    obtain ⟨other, signal, hkey, hvalue, hhistory⟩ := h _ e (Expiring.live_eq_some.mp hlive).1
    obtain rfl := signalKey_inj.mp hkey
    rw [hvalue, if_neg (hcodec _).1, (hcodec _).2] at hdecode
    exact ⟨signal, (Option.some.inj hdecode).symm, hhistory⟩
  next => cases hentry

/-- A step keeps to what the task knows. -/
theorem ProbeStep.sound (h : ProbeStep codec env w t w' t') (hcodec : codec.signal.Faithful)
    (hstored : StoredHistories codec w) (ht : t.Sound codec w) : t'.Sound codec w' := by
  cases h with
  | slept => trivial
  | woke => exact fun target htarget => configured_of_mem htarget
  | readSignals => exact ⟨ht, hstored.reports hcodec _ _⟩
  | probed =>
    refine ProbePc.sound_store ht.2 [] fun r hr => ?_
    obtain ⟨probe, hprobe, rfl⟩ := List.mem_map.mp hr
    refine ⟨probe, rfl, (List.Sublist.refl _).append ?_⟩
    exact List.singleton_sublist.mpr hprobe
  | stored hpc =>
    obtain ⟨before, hreports, hresults⟩ := ht
    rcases hpc with rfl | rfl
    · exact ProbePc.sound_store hreports _ fun r hr => hresults r (List.mem_cons_of_mem _ hr)
    · trivial
  | published hid hpc =>
    rcases hpc with rfl | rfl
    · exact ProbePc.sound_publish _ _
    · trivial
  | streamed hadv =>
    rcases eventSystem_cases hadv with ⟨_, _, _, hid, rfl, rfl, rfl⟩ | ⟨_, _, rfl, rfl, hstep⟩
    · trivial
    · exact hstep.inv ht

/-- **A step stores histories only.** -/
theorem ProbeStep.storedHistories (h : ProbeStep codec env w t w' t') (ht : t.Sound codec w)
    (hstored : StoredHistories codec w) : StoredHistories codec w' := by
  cases h with
  | slept | woke | readSignals | published | streamed => exact hstored
  | probed =>
    intro key e he
    obtain ⟨modelId, signal, hkey, hvalue, hhistory⟩ := hstored key e he
    exact ⟨modelId, signal, hkey, hvalue, hhistory.mono (List.sublist_append_left _ _)⟩
  | @stored existing done result rest now pc hpc =>
    obtain ⟨before, hreports, hresults⟩ := ht
    obtain ⟨probe, rfl, hsub⟩ := hresults result List.mem_cons_self
    intro key e he
    rw [ProbeWorld.signals_storeSignal] at he
    by_cases hkey : key = signalKey probe.result.modelId
    · rw [hkey, Function.update_self] at he
      obtain rfl := Option.some.inj he
      exact ⟨probe.target.modelId, _, hkey, rfl, hreports.next hsub⟩
    · rw [Function.update_of_ne hkey] at he
      exact hstored key e he

/-- A probe of a configured target, its instants behind its start. -/
def Probe.Sound (setting : String → Option String) (probe : Probe) : Prop :=
  Configured setting probe.target ∧ ∀ instant ∈ probe.measurement.chunks, 0 ≤ instant

/-- Processes start at their beginning, and no line arrives before its probe
has started. -/
def PermitsProbes (_ : Conf ProbeWorld ProbeTask) : Act ProbeTask ProbeEnv → Prop
  | .start t => t.Started
  | .run _ (.probed measure) => ∀ target, ∀ instant ∈ (measure target).chunks, 0 ≤ instant
  | .run _ _ => True

/-- A step makes probes of configured targets. -/
theorem ProbeStep.probes_sound (h : ProbeStep codec env w t w' t') (ht : t.Sound codec w)
    (henv : ∀ measure, env = .probed measure →
      ∀ target, ∀ instant ∈ (measure target).chunks, 0 ≤ instant)
    (hprobes : ∀ probe ∈ w.probes, probe.Sound codec.setting) :
    ∀ probe ∈ w'.probes, probe.Sound codec.setting := by
  cases h with
  | slept | woke | readSignals | stored | published | streamed => exact hprobes
  | probed hmeasure =>
    refine List.forall_mem_append.mpr ⟨hprobes, fun probe hprobe => ?_⟩
    obtain ⟨target, htarget, rfl⟩ := List.mem_map.mp hprobe
    exact ⟨ht.1 target htarget, henv _ hmeasure target⟩

/-! ## Rows -/

/-- Every row was decoded from an entry of the probe stream. -/
def RowsDecoded (codec : ProbeCodec) (w : StreamWorld) : Prop :=
  ∀ id record, (id, record) ∈ w.recorded → ∃ fields payload,
    (id, fields) ∈ (w.streams .probe).entries
      ∧ decodePayload codec.json fields = .ok payload
      ∧ probeRecordOf codec.json payload = .ok record

/-- An event adds no row. -/
theorem RowsDecoded.added {w : StreamWorld} (h : RowsDecoded codec w) {name : StreamName}
    {entry : StreamEntry} (hid : (w.streams name).last < entry.1) :
    RowsDecoded codec (w.xadd name entry hid) := by
  intro id record hrow
  obtain ⟨fields, payload, hmem, hdecoded⟩ := h id record hrow
  exact ⟨fields, payload, mem_entries_of_grows (.added name entry hid) hmem, hdecoded⟩

/-- The row of an entry is decoded from it. -/
theorem RowsDecoded.inserted {w : StreamWorld} (h : RowsDecoded codec w) {entry : StreamEntry}
    {payload : Json} {record : ProbeSnapshotRecord}
    (hentry : entry ∈ (w.streams .probe).entries)
    (hpayload : decodePayload codec.json entry.2 = .ok payload)
    (hrecord : probeRecordOf codec.json payload = .ok record) :
    RowsDecoded codec (w.insertSnapshot entry.1 record) := by
  intro id other hrow
  rcases List.mem_append.mp hrow with hold | hnew
  · exact h id other hold
  · obtain ⟨rfl, rfl⟩ := Prod.mk.inj (List.mem_singleton.mp hnew)
    exact ⟨entry.2, payload, hentry, hpayload, hrecord⟩

/-- So a consumer's step keeps the rows decoded. -/
theorem ConsumerStep.rowsDecoded {streamEnv : StreamEnv} {w w' : StreamWorld} {c c' : Consumer}
    (h : ConsumerStep codec.json w c streamEnv w' c') (hc : c.Inv codec.json w)
    (hrows : RowsDecoded codec w) : RowsDecoded codec w' := by
  cases h with
  | read | readRaised | refused | raised | woke => exact hrows
  | committed hpc hrecord | replyLost hpc hrecord =>
    obtain ⟨hentry, -, hpayload, -⟩ := hc.current _ _ _ hpc
    exact hrows.inserted hentry hpayload hrecord

/-- And any step. -/
theorem ProbeStep.rowsDecoded (h : ProbeStep codec env w t w' t') (ht : t.Sound codec w)
    (hrows : RowsDecoded codec w.streams) : RowsDecoded codec w'.streams := by
  cases h with
  | slept | woke | readSignals | probed | stored => exact hrows
  | published hid => exact hrows.added hid
  | streamed hadv =>
    rcases eventSystem_cases hadv with ⟨_, _, _, hid, -, -, rfl⟩ | ⟨_, _, rfl, rfl, hstep⟩
    · exact hrows.added hid
    · exact hstep.rowsDecoded ht hrows

/-! ## Accounts -/

/-- The results a worker has probed and not stored. -/
def ProbeTask.pending : ProbeTask → Multiset ProbeResult
  | .worker (.storing _ _ result rest) => (result :: rest : List ProbeResult)
  | _ => 0

/-- The events of the results a worker has stored and not published. -/
def ProbeTask.owed (codec : ProbeCodec) : ProbeTask → Multiset Fields
  | .worker (.storing _ done _ _) => (done.map codec.fields : List Fields)
  | .worker (.publishing result rest) => ((result :: rest).map codec.fields : List Fields)
  | _ => 0

/-- A round that publishes has nothing left to store. -/
theorem pending_publish (results : List ProbeResult) :
    (ProbeTask.worker (.publish results)).pending = 0 := by
  cases results <;> rfl

/-- A round that stores has its results left. -/
theorem pending_store (existing : String → Option SignalEntry) (done results : List ProbeResult) :
    (ProbeTask.worker (.store existing done results)).pending = results := by
  cases results with
  | nil => exact pending_publish done
  | cons result rest => rfl

/-- It owes the events of its results. -/
theorem owed_publish (results : List ProbeResult) :
    (ProbeTask.worker (.publish results)).owed codec
      = (results.map codec.fields : List Fields) := by
  cases results <;> rfl

/-- It owes the events of those behind it. -/
theorem owed_store (existing : String → Option SignalEntry) (done results : List ProbeResult) :
    (ProbeTask.worker (.store existing done results)).owed codec
      = (done.map codec.fields : List Fields) := by
  cases results with
  | nil => exact owed_publish done
  | cons result rest => rfl

/-- The events of the stream. -/
def ProbeWorld.events (w : ProbeWorld) : Multiset Fields :=
  ((w.streams.streams .probe).entries.map (·.2) : List Fields)

/-- An appended event is one more. -/
theorem ProbeWorld.events_xadd (w : ProbeWorld) {id : EntryId} {fields : Fields}
    (hid : (w.streams.streams .probe).last < id) :
    { w with streams := w.streams.xadd .probe (id, fields) hid }.events = fields ::ₘ w.events := by
  unfold ProbeWorld.events
  rw [StreamWorld.streams_xadd_self, Log.entries_append, List.map_append, List.map_singleton,
    ← Multiset.coe_add, add_comm]
  rfl

/-- Only workers add to the probe stream. -/
theorem events_streamed {task task' : StreamTask} {streamEnv : StreamEnv} {streams : StreamWorld}
    (hadv : (eventSystem codec.json).advance streamEnv w.streams task = some (streams, task'))
    (htask : (ProbeTask.stream task).Sound codec w) :
    { w with streams }.events = w.events := by
  rcases eventSystem_cases hadv with ⟨name, fields, id, hid, rfl, -, rfl⟩ | ⟨_, _, -, -, hstep⟩
  · have hname : StreamName.probe ≠ name := by
      rw [show name = .outcome from htask]
      decide
    unfold ProbeWorld.events
    dsimp only
    rw [StreamWorld.streams_xadd_ne w.streams hid hname]
  · cases hstep <;> rfl

/-- A worker stores what it has probed. -/
theorem ProbeStep.pending_le (h : ProbeStep codec env w t w' t') {n : Multiset ProbeResult}
    (hle : (w.stored : Multiset ProbeResult) + (t.pending + n)
      ≤ (w.probes.map Probe.result : List ProbeResult)) :
    (w'.stored : Multiset ProbeResult) + (t'.pending + n)
      ≤ (w'.probes.map Probe.result : List ProbeResult) := by
  cases h with
  | slept =>
    refine le_trans ?_ hle
    gcongr
    exact Multiset.zero_le _
  | woke | readSignals | streamed => exact hle
  | @probed targets existing measure =>
    rw [pending_store, List.map_append, ← Multiset.coe_add, add_comm _ n, ← add_assoc]
    refine add_le_add ?_ le_rfl
    rw [← zero_add n]
    exact hle
  | @stored existing done result rest now pc hpc =>
    have hpending : (ProbeTask.worker pc).pending ≤ (rest : Multiset ProbeResult) := by
      rcases hpc with rfl | rfl
      · rw [pending_store]
      · exact Multiset.zero_le _
    refine le_trans ?_ hle
    calc ((w.stored ++ [result] : List ProbeResult) : Multiset ProbeResult)
          + ((ProbeTask.worker pc).pending + n)
        ≤ (w.stored ++ [result] : List ProbeResult) + ((rest : Multiset ProbeResult) + n) := by
          gcongr
      _ = (w.stored : Multiset ProbeResult) + ((result :: rest : List ProbeResult) + n) := by
          rw [← Multiset.coe_add, add_assoc]
          exact congrArg _ (add_assoc (([result] : List ProbeResult) : Multiset _) rest n).symm
  | @published result rest id pc hid hpc =>
    have hpending : (ProbeTask.worker pc).pending = 0 := by
      rcases hpc with rfl | rfl
      · exact pending_publish rest
      · rfl
    rw [hpending]
    exact hle

/-- A worker publishes what it has stored. -/
theorem ProbeStep.owed_le (h : ProbeStep codec env w t w' t') (ht : t.Sound codec w)
    {n : Multiset Fields} (hle : w.events + (t.owed codec + n)
      ≤ (w.stored.map codec.fields : List Fields)) :
    w'.events + (t'.owed codec + n) ≤ (w'.stored.map codec.fields : List Fields) := by
  cases h with
  | slept =>
    refine le_trans ?_ hle
    gcongr
    exact Multiset.zero_le _
  | woke | readSignals => exact hle
  | probed =>
    rw [owed_store]
    exact hle
  | @stored existing done result rest now pc hpc =>
    have howed : (ProbeTask.worker pc).owed codec
        ≤ ((done ++ [result]).map codec.fields : List Fields) := by
      rcases hpc with rfl | rfl
      · rw [owed_store]
      · exact Multiset.zero_le _
    calc w.events + ((ProbeTask.worker pc).owed codec + n)
        ≤ w.events + (((done ++ [result]).map codec.fields : List Fields) + n) := by
          gcongr
      _ = w.events + ((done.map codec.fields : List Fields) + n)
            + ([codec.fields result] : List Fields) := by
          rw [List.map_append, List.map_singleton, ← Multiset.coe_add]
          abel
      _ ≤ ((w.stored ++ [result]).map codec.fields : List Fields) := by
          rw [List.map_append, ← Multiset.coe_add]
          exact add_le_add hle le_rfl
  | @published result rest id pc hid hpc =>
    have howed : (ProbeTask.worker pc).owed codec ≤ (rest.map codec.fields : List Fields) := by
      rcases hpc with rfl | rfl
      · rw [owed_publish]
      · exact Multiset.zero_le _
    rw [ProbeWorld.events_xadd, Multiset.cons_add, ← Multiset.add_cons, ← Multiset.cons_add]
    refine le_trans ?_ hle
    gcongr
    exact Multiset.cons_le_cons _ howed
  | streamed hadv =>
    rw [events_streamed hadv ht]
    exact hle

/-! ## Runs -/

/-- What holds between the probes, the signals, the events and the rows. -/
structure ProbeInv (codec : ProbeCodec) (c : Conf ProbeWorld ProbeTask) : Prop where
  tasks : ∀ t ∈ c.tasks, t.Sound codec c.world
  signals : StoredHistories codec c.world
  probes : ∀ probe ∈ c.world.probes, probe.Sound codec.setting
  rows : RowsDecoded codec c.world.streams
  stored_le : (c.world.stored : Multiset ProbeResult) + sumOver ProbeTask.pending c.tasks
    ≤ (c.world.probes.map Probe.result : List ProbeResult)
  published_le : c.world.events + sumOver (ProbeTask.owed codec) c.tasks
    ≤ (c.world.stored.map codec.fields : List Fields)

/-- One more task that has just begun. -/
theorem ProbeInv.start (h : ProbeInv codec ⟨w, l⟩) (ht : t.Started) :
    ProbeInv codec ⟨w, l ++ [t]⟩ := by
  have hnew : t.Sound codec w ∧ t.pending = 0 ∧ t.owed codec = 0 := by
    cases ht with
    | worker => exact ⟨trivial, rfl, rfl⟩
    | consumer => exact ⟨consumer_start_inv w.streams, rfl, rfl⟩
    | publishOutcome fields => exact ⟨rfl, rfl, rfl⟩
  obtain ⟨hsound, hpending, howed⟩ := hnew
  refine ⟨?_, h.signals, h.probes, h.rows, ?_, ?_⟩
  · refine forall_mem_split.mpr ⟨hsound, fun u hu => h.tasks u (by simpa using hu)⟩
  · have hle := h.stored_le
    simpa [hpending] using hle
  · have hle := h.published_le
    simpa [howed] using hle

/-- **One step keeps the invariant.** -/
theorem ProbeInv.run (hcodec : codec.signal.Faithful)
    (henv : ∀ measure, env = .probed measure →
      ∀ target, ∀ instant ∈ (measure target).chunks, 0 ≤ instant)
    (h : ProbeInv codec ⟨w, l ++ t :: r⟩) (hstep : ProbeStep codec env w t w' t') :
    ProbeInv codec ⟨w', l ++ t' :: r⟩ := by
  obtain ⟨htasks, hsignals, hprobes, hrows, hstored, hpublished⟩ := h
  obtain ⟨ht, hothers⟩ := forall_mem_split.mp htasks
  refine ⟨?_, hstep.storedHistories ht hsignals, hstep.probes_sound ht henv hprobes,
    hstep.rowsDecoded ht hrows, ?_, ?_⟩
  · exact forall_mem_split.mpr ⟨hstep.sound hcodec hsignals ht,
      fun u hu => (hothers u hu).mono hstep.extends⟩
  · rw [sumOver_split] at hstored ⊢
    exact hstep.pending_le hstored
  · rw [sumOver_split] at hpublished ⊢
    exact hstep.owed_le ht hpublished

end Step

/-- A run from empty streams. -/
def ProbeRun (codec : ProbeCodec) (acts : List (Act ProbeTask ProbeEnv))
    (c : Conf ProbeWorld ProbeTask) : Prop :=
  (probePlane codec).Run PermitsProbes
    ⟨{ signals := fun _ => none, streams := emptyStreams }, []⟩ acts c

section Runs

variable {acts : List (Act ProbeTask ProbeEnv)} {c : Conf ProbeWorld ProbeTask}

/-- So the invariant holds after any run. -/
theorem ProbeRun.inv (hcodec : codec.signal.Faithful) (hrun : ProbeRun codec acts c) :
    ProbeInv codec c := by
  refine System.Run.invariant (I := ProbeInv codec) ?_ ?_ hrun ?_
  · intro w ts t hok h
    exact h.start hok
  · intro w l t r env w' t' hok hadv h
    refine h.run hcodec (fun measure henv => ?_) (probePlane_step hadv)
    subst henv
    exact hok
  · exact ⟨by simp, fun _ _ h => by simp at h, by simp, fun _ _ h => by simp [emptyStreams] at h,
      by simp, by simp [ProbeWorld.events, emptyStreams, Log.empty]⟩

end Runs

/-! ## Events as texts -/

/-- `"success"` or `"degraded"`. -/
def ProbeStatus.text : ProbeStatus → String
  | .success => "success"
  | .degraded => "degraded"

/-- The reason, or `null`. -/
def reasonJson : Option String → Json
  | none => .null
  | some reason => .string reason

/-- The dictionary `probe_model` returns. -/
def ProbeResult.payload (result : ProbeResult) : Payload :=
  [("provider", .string result.provider), ("model_id", .string result.modelId),
    ("status", .string result.status.text), ("ttfb_ms", .number result.ttfbMs),
    ("ttfb_p50_ms", .number result.ttfbP50Ms), ("ttfb_p95_ms", .number result.ttfbP95Ms),
    ("throughput_hint_qps", .number result.throughputHintQps),
    ("success_rate", .number result.successRate), ("last_probe_at", .string result.lastProbeAt),
    ("degraded_reason", reasonJson result.degradedReason)]

/-- The row of a result. -/
def ProbeResult.row (result : ProbeResult) : ProbeSnapshotRecord where
  provider := .string result.provider
  modelId := .string result.modelId
  status := .string result.status.text
  ttfbMs := .number result.ttfbMs
  throughputHintQps := .number result.throughputHintQps
  successRate := .number result.successRate
  degradedReason := reasonJson result.degradedReason
  signalPayload := result.payload

/-- The payload is in normal form already. -/
theorem probeRecordOf_payload (json : JsonReader) (result : ProbeResult) :
    probeRecordOf json (.object result.payload) = .ok result.row := by
  have hnormal : normalizeProbeSnapshotPayload json result.payload = .ok result.payload := by
    simp [normalizeProbeSnapshotPayload, ProbeResult.payload, Payload.get, List.lookup, Json.isNull,
      Json.toInt, Payload.set, trunc.fix]
  show (normalizeProbeSnapshotPayload json result.payload >>= probeSnapshotRecord) = _
  rw [hnormal]
  rfl

/-- The round trips of both dictionaries. -/
structure ProbeCodec.Faithful (codec : ProbeCodec) : Prop where
  signal : codec.signal.Faithful
  event : ∀ result, codec.json.loads (codec.event result) = some (.object result.payload)

/-! ## Two workers that overlap -/

section Lab

instance countable_char : Countable Char :=
  Function.Injective.countable (f := Char.toNat) fun _ _ h => Char.toNat_inj.mp h

instance countable_string : Countable String :=
  Function.Injective.countable (f := String.toList) fun _ _ h => String.toList_inj.mp h

deriving instance Countable for SignalEntry, ProbeStatus, ProbeResult

/-- There are always further texts. -/
theorem infinite_otherTexts (texts : List String) :
    Infinite {text : String // text ≠ "" ∧ text ∉ texts} := by
  have hinfinite : {text : String | text ≠ "" ∧ text ∉ texts}.Infinite := by
    refine (Set.infinite_univ.sdiff ("" :: texts).finite_toSet).mono ?_
    rintro text ⟨-, hnot⟩
    simpa using hnot
  exact hinfinite.to_subtype

variable {α : Type} [Countable α]

/-- A text for every value, none of them among `texts`. -/
noncomputable def otherText (texts : List String) :
    α → {text : String // text ≠ "" ∧ text ∉ texts} :=
  have := infinite_otherTexts texts
  Infinite.natEmbedding _ ∘ (exists_injective_nat α).choose

/-- Different values have different texts. -/
theorem otherText_injective (texts : List String) :
    Function.Injective (otherText texts : α → _) :=
  have := infinite_otherTexts texts
  (Infinite.natEmbedding _).injective.comp (exists_injective_nat α).choose_spec

variable [DecidableEq α]

/-- The texts of the values a run meets, and some text for any other. -/
noncomputable def textOf (known : List (α × String)) (a : α) : String :=
  match known.find? (·.1 = a) with
  | some entry => entry.2
  | none => otherText (known.map (·.2)) a

open Classical in
/-- The value a text is of. -/
noncomputable def readText (known : List (α × String)) (text : String) : Option α :=
  match known.find? (·.2 = text) with
  | some entry => some entry.1
  | none => if h : ∃ a, textOf known a = text then some h.choose else none

/-- A known value's text is among the known ones. -/
theorem textOf_cases (known : List (α × String)) (a : α) :
    (∃ entry ∈ known, entry.1 = a ∧ textOf known a = entry.2)
      ∨ textOf known a = otherText (known.map (·.2)) a := by
  unfold textOf
  split
  next entry hknown =>
    exact .inl ⟨entry, List.mem_of_find?_eq_some hknown, by simpa using List.find?_some hknown, rfl⟩
  next => exact .inr rfl

/-- So have the known ones. -/
theorem textOf_injective {known : List (α × String)}
    (hknown : ∀ p ∈ known, ∀ p' ∈ known, p.2 = p'.2 → p.1 = p'.1) :
    Function.Injective (textOf known) := by
  have hother : ∀ a : α, ∀ entry ∈ known, entry.2 ≠ otherText (known.map (·.2)) a := by
    intro a entry hentry heq
    exact (otherText (known.map (·.2)) a).2.2 (heq ▸ List.mem_map_of_mem hentry)
  intro a b hab
  rcases textOf_cases known a with ⟨p, hp, rfl, ha⟩ | ha
  · rcases textOf_cases known b with ⟨p', hp', rfl, hb⟩ | hb
    · exact hknown p hp p' hp' (ha.symm.trans (hab.trans hb))
    · exact absurd (ha.symm.trans (hab.trans hb)) (hother b p hp)
  · rcases textOf_cases known b with ⟨p', hp', rfl, hb⟩ | hb
    · exact absurd (hb.symm.trans (hab.symm.trans ha)) (hother a p' hp')
    · exact otherText_injective _ (Subtype.ext (ha.symm.trans (hab.trans hb)))

/-- A text is read back. -/
theorem readText_textOf {known : List (α × String)}
    (hknown : ∀ p ∈ known, ∀ p' ∈ known, p.2 = p'.2 → p.1 = p'.1)
    (hself : ∀ p ∈ known, textOf known p.1 = p.2) (a : α) :
    readText known (textOf known a) = some a := by
  unfold readText
  split
  next entry hfound =>
    have hentry : entry.2 = textOf known a := by simpa using List.find?_some hfound
    have hmem := List.mem_of_find?_eq_some hfound
    exact congrArg some (textOf_injective hknown ((hself entry hmem).trans hentry))
  next =>
    have hex : ∃ b, textOf known b = textOf known a := ⟨a, rfl⟩
    rw [dif_pos hex]
    exact congrArg some (textOf_injective hknown hex.choose_spec)

/-- No text is empty. -/
theorem textOf_ne_empty {known : List (α × String)} (h : ∀ p ∈ known, p.2 ≠ "") (a : α) :
    textOf known a ≠ "" := by
  rcases textOf_cases known a with ⟨entry, hentry, -, ha⟩ | ha
  · rw [ha]
    exact h entry hentry
  · rw [ha]
    exact (otherText (known.map (·.2)) a).2.1

end Lab

/-- A catalog with one model, and a key for its provider. -/
def labProbeSnapshot : CatalogSnapshot where
  version := "v1"
  checksum := "0"
  source := "catalog.json"
  providers := [{ provider := "lab"
                  displayName := "Lab"
                  baseUrl := "https://lab.invalid"
                  envKeyName := some "LAB_KEY"
                  models := [plainModel] }]
  models := [plainModel]

/-- The same measurement half a minute later. -/
def laterMeasurement : Measurement :=
  { labMeasurement with observedAt := "2026-05-15T08:00:30Z" }

/-- The result of the first probe. -/
def firstResult : ProbeResult :=
  probeModel "lab/b" "lab" labMeasurement

/-- The result of the second. -/
def secondResult : ProbeResult :=
  probeModel "lab/b" "lab" laterMeasurement

/-- The two results' dictionaries differ in the time only. -/
def dumped (fields observedAt : String) : String :=
  fields ++ observedAt ++ "\", \"degraded_reason\": null\x7d"

/-- The event of such a result. -/
def eventText : String → String :=
  dumped ("\x7b\"provider\": \"lab\", \"model_id\": \"lab/b\", \"status\": \"success\", "
    ++ "\"ttfb_ms\": 300, \"ttfb_p50_ms\": 300, \"ttfb_p95_ms\": 345, "
    ++ "\"throughput_hint_qps\": 4.0, \"success_rate\": 1.0, \"last_probe_at\": \"")

/-- Its smoothed signal. -/
def signalText : String → String :=
  dumped ("\x7b\"provider\": \"lab\", \"model_id\": \"lab/b\", \"ttfb_p50_ms\": 300, "
    ++ "\"ttfb_p95_ms\": 207, \"throughput_hint_qps\": 4.0, \"success_rate\": 1.0, "
    ++ "\"last_probe_at\": \"")

/-- Different times, different texts. -/
theorem dumped_injective (fields : String) : Function.Injective (dumped fields) := by
  intro a b h
  exact (String.append_right_inj fields).mp ((String.append_left_inj _).mp h)

/-- None is empty. -/
theorem dumped_ne_empty (fields observedAt : String) : dumped fields observedAt ≠ "" := by
  unfold dumped
  rw [Ne, String.append_eq_empty_iff]
  exact fun h => absurd h.2 (by decide)

/-- The two events. -/
def labEvents : List (ProbeResult × String) :=
  [(firstResult, eventText "2026-05-15T08:00:00Z"),
    (secondResult, eventText "2026-05-15T08:00:30Z")]

/-- The two signals. -/
def labSignals : List (SignalEntry × String) :=
  [((smoothSignal firstResult none).entry, signalText "2026-05-15T08:00:00Z"),
    ((smoothSignal secondResult none).entry, signalText "2026-05-15T08:00:30Z")]

/-- A codec that writes these four so. -/
noncomputable def labProbeCodec : ProbeCodec where
  signal := { dumps := textOf labSignals, loads := readText labSignals }
  event := textOf labEvents
  json :=
    { loads := fun text => (readText labEvents text).map fun result => .object result.payload
      parseInt := fun _ => none }
  setting name := if name = "LAB_KEY" then some "key" else none

/-- Two values with different texts read back. -/
theorem readText_pair {α : Type} [Countable α] [DecidableEq α] {a b : α} {s t : String}
    (hab : a ≠ b) (hst : s ≠ t) (c : α) :
    readText [(a, s), (b, t)] (textOf [(a, s), (b, t)] c) = some c := by
  refine readText_textOf ?_ ?_ c
  · simp [hst, hst.symm]
  · simp [textOf, hab]

/-- It is faithful. -/
theorem labProbeCodec_faithful : labProbeCodec.Faithful where
  signal signal := by
    refine ⟨textOf_ne_empty ?_ signal, readText_pair (by decide +kernel) ?_ signal⟩
    · simp [labSignals, signalText, dumped_ne_empty]
    · exact fun h => absurd (dumped_injective _ h) (by decide)
  event result := by
    have hread : readText labEvents (textOf labEvents result) = some result :=
      readText_pair (by decide +kernel) (fun h => absurd (dumped_injective _ h) (by decide)) result
    show (readText labEvents (textOf labEvents result)).map _ = _
    rw [hread]
    rfl

/-- Both workers read before either writes; a consumer writes both rows. -/
def overlappingWorkers : List (Act ProbeTask ProbeEnv) :=
  [.start (.worker .sleeping), .start (.worker .sleeping), .start (.stream (.consumer {})),
    .run 0 (.woken (.ok labProbeSnapshot)), .run 1 (.woken (.ok labProbeSnapshot)),
    .run 0 (.read 0 .returns), .run 1 (.read 0 .returns),
    .run 0 (.probed fun _ => labMeasurement), .run 1 (.probed fun _ => laterMeasurement),
    .run 0 (.set 1 .returns), .run 1 (.set 2 .returns),
    .run 0 (.added (toLex (1, 0)) .returns), .run 1 (.added (toLex (2, 0)) .raisesAfter),
    .run 2 (.stream (.read fun _ => 50)), .run 2 (.stream (.database .commits)),
    .run 2 (.stream (.database .commits))]

/-- Every act of the run is permitted. -/
theorem overlappingWorkers_permitted (c : Conf ProbeWorld ProbeTask) :
    ∀ a ∈ overlappingWorkers, PermitsProbes c a := by
  simp only [overlappingWorkers, List.forall_mem_cons, PermitsProbes, true_and]
  exact ⟨.worker, .worker, .consumer, fun _ => by decide +kernel, fun _ => by decide +kernel,
    by simp⟩

/-- What a decision reads is the second worker's signal, which has replaced
the first one's; there are two rows. -/
theorem overlappingWorkers_run :
    ∃ c, ProbeRun labProbeCodec overlappingWorkers c ∧ c.world.streams.recorded.length = 2
      ∧ (RedisSignals.store labProbeCodec.signal).getSignals 3 ["lab/b"] c.world.signals "lab/b"
        = some (smoothSignal secondResult none).entry := by
  obtain ⟨c, hexec, hP⟩ : ∃ c, (probePlane labProbeCodec).exec
      ⟨{ signals := fun _ => none, streams := emptyStreams }, []⟩ overlappingWorkers = some c
      ∧ decide (c.world.streams.recorded.length = 2
        ∧ (RedisSignals.store labProbeCodec.signal).getSignals 3 ["lab/b"] c.world.signals "lab/b"
          = some (smoothSignal secondResult none).entry) = true :=
    (Option.any_eq_true _ _).mp (by decide +kernel)
  have hrun : ProbeRun labProbeCodec overlappingWorkers c :=
    System.Run.of_exec (fun a ha c₁ => overlappingWorkers_permitted c₁ a ha) hexec
  exact ⟨c, hrun, of_decide_eq_true hP⟩

/-! ## Signals -/

section Results

variable {acts : List (Act ProbeTask ProbeEnv)} {c : Conf ProbeWorld ProbeTask}

/-- **A stored signal is the smoothing of its model's probes**, or of those
that no overlapping worker has written over, in the order they were made. -/
theorem stored_signals_are_histories (hcodec : codec.signal.Faithful)
    (hrun : ProbeRun codec acts c) (now : ℤ) (modelIds : List String) :
    Reports c.world.probes
      ((RedisSignals.store codec.signal).getSignals now modelIds c.world.signals) :=
  (hrun.inv hcodec).signals.reports hcodec now modelIds

/-- The second worker's signal is of its own probe alone. -/
theorem stored_signals_are_histories_overlap :
    ∃ c, ProbeRun labProbeCodec overlappingWorkers c
      ∧ (RedisSignals.store labProbeCodec.signal).getSignals 3 ["lab/b"] c.world.signals "lab/b"
        = some (smoothSignal secondResult none).entry
      ∧ Reports c.world.probes
        ((RedisSignals.store labProbeCodec.signal).getSignals 3 ["lab/b"] c.world.signals) := by
  obtain ⟨c, hrun, -, hread⟩ := overlappingWorkers_run
  exact ⟨c, hrun, hread,
    stored_signals_are_histories labProbeCodec_faithful.signal hrun 3 ["lab/b"]⟩

/-- The numbers of a history are in the ranges its probes are in. -/
theorem History.wellFormed {setting : String → Option String} {probes : List Probe}
    {modelId : String} {signal : SmoothedSignal} (h : History probes modelId signal)
    (hprobes : ∀ probe ∈ probes, probe.Sound setting) : signal.entry.signal.WellFormed := by
  obtain ⟨history, hsub, -, hsignal⟩ := h
  have hshaped : ∀ result ∈ history.map Probe.result, ProbeShaped result := by
    intro result hresult
    obtain ⟨probe, hprobe, rfl⟩ := List.mem_map.mp hresult
    exact probeModel_shaped _ _ (hprobes probe (hsub.subset hprobe)).2
  refine ⟨?_, ?_, ?_⟩
  · rintro q ⟨⟩
    obtain ⟨⟨low, hlow, hle⟩, -⟩ :=
      smoothedP50.inHull (fun result _ => OnGrid.int 0 result.ttfbP50Ms) hsignal
    obtain ⟨result, hresult, rfl⟩ := List.mem_map.mp hlow
    have hnonneg : (0 : ℚ) ≤ result.ttfbP50Ms := by
      exact_mod_cast (hshaped result hresult).ttfb_nonneg
    exact hnonneg.trans hle
  · rintro q ⟨⟩
    obtain ⟨⟨low, hlow, hle⟩, -⟩ :=
      smoothedQps.inHull (fun result hr => (hshaped result hr).qps_grid) hsignal
    obtain ⟨result, hresult, rfl⟩ := List.mem_map.mp hlow
    exact (hshaped result hresult).qps_nonneg.trans hle
  · rintro q ⟨⟩
    obtain ⟨⟨low, hlow, hle⟩, ⟨high, hhigh, hge⟩⟩ :=
      smoothedSuccess.inHull (fun result hr => (hshaped result hr).success_grid) hsignal
    obtain ⟨least, hleast, rfl⟩ := List.mem_map.mp hlow
    obtain ⟨most, hmost, rfl⟩ := List.mem_map.mp hhigh
    exact ⟨(hshaped least hleast).success_unit.1.trans hle,
      hge.trans (hshaped most hmost).success_unit.2⟩

/-- **What the workers store is well formed**: the signals a decision reads at
any time are in the ranges the engine's results ask for. -/
theorem probed_signals_wellFormed (hcodec : codec.signal.Faithful)
    (hrun : ProbeRun codec acts c) (now : ℤ) (snapshot : CatalogSnapshot) :
    WellFormedSignals
      (routingSignals (RedisSignals.store codec.signal) now snapshot c.world.signals) := by
  have hinv := hrun.inv hcodec
  intro modelId signal hsignal
  obtain ⟨entry, hentry, rfl⟩ := Option.map_eq_some_iff.mp hsignal
  obtain ⟨stored, rfl, hhistory⟩ := hinv.signals.reports hcodec _ _ modelId entry hentry
  exact hhistory.wellFormed hinv.probes

/-- It is well-formed. -/
theorem probed_signals_wellFormed_overlap :
    ∃ c, ProbeRun labProbeCodec overlappingWorkers c
      ∧ routingSignals (RedisSignals.store labProbeCodec.signal) 3 labProbeSnapshot
          c.world.signals "lab/b" = some (smoothSignal secondResult none).entry.signal
      ∧ WellFormedSignals (routingSignals (RedisSignals.store labProbeCodec.signal) 3
          labProbeSnapshot c.world.signals) := by
  obtain ⟨c, hrun, -, hread⟩ := overlappingWorkers_run
  exact ⟨c, hrun, congrArg (Option.map SignalEntry.signal) hread,
    probed_signals_wellFormed labProbeCodec_faithful.signal hrun 3 labProbeSnapshot⟩

/-! ## Rows -/

/-- **Every snapshot row is a probe's.** Its target was one of a configured
provider's models, its signal was stored before its event was published; and
there are no more events than signals stored, no more of these than probes. -/
structure RowsFromProbes (codec : ProbeCodec) (w : ProbeWorld) : Prop where
  rows : ∀ id record, (id, record) ∈ w.streams.recorded → ∃ probe ∈ w.probes,
    Configured codec.setting probe.target ∧ probe.result ∈ w.stored ∧ record = probe.result.row
  published : w.events ≤ (w.stored.map codec.fields : List Fields)
  stored : (w.stored : Multiset ProbeResult) ≤ (w.probes.map Probe.result : List ProbeResult)

/-- **Every row is the event of a probe.** -/
theorem snapshot_rows_from_probes (hcodec : codec.Faithful) (hrun : ProbeRun codec acts c) :
    RowsFromProbes codec c.world := by
  have hinv := hrun.inv hcodec.signal
  have hpublished := (Multiset.le_add_right _ _).trans hinv.published_le
  have hstored := (Multiset.le_add_right _ _).trans hinv.stored_le
  refine ⟨fun id record hrow => ?_, hpublished, hstored⟩
  obtain ⟨fields, payload, hmem, hdecoded, hrecord⟩ := hinv.rows id record hrow
  have hevent : fields ∈ c.world.stored.map codec.fields :=
    Multiset.mem_of_le hpublished (List.mem_map.mpr ⟨(id, fields), hmem, rfl⟩)
  obtain ⟨result, hresult, rfl⟩ := List.mem_map.mp hevent
  obtain ⟨probe, hprobe, rfl⟩ := List.mem_map.mp (Multiset.mem_of_le hstored hresult)
  have hloads : decodePayload codec.json (codec.fields probe.result)
      = .ok (.object probe.result.payload) := by
    simp [decodePayload, ProbeCodec.fields, hcodec.event]
  rw [hloads] at hdecoded
  obtain rfl := Except.ok.inj hdecoded
  rw [probeRecordOf_payload] at hrecord
  exact ⟨probe, hprobe, (hinv.probes probe hprobe).1, hresult, (Except.ok.inj hrecord).symm⟩

/-- Two of them, on the run above. -/
theorem snapshot_rows_from_probes_overlap :
    ∃ c, ProbeRun labProbeCodec overlappingWorkers c ∧ c.world.streams.recorded.length = 2
      ∧ RowsFromProbes labProbeCodec c.world := by
  obtain ⟨c, hrun, hrows, -⟩ := overlappingWorkers_run
  exact ⟨c, hrun, hrows, snapshot_rows_from_probes labProbeCodec_faithful hrun⟩

end Results

end ControlPlane
