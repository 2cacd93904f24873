import ControlPlane.ConsumerSteps

/-!
# What becomes of a probe event

The offset of a stream moves to an entry before the entry is decoded and
written. Two consequences, for any number of consumers beside any number of
publishers:

* an entry whose write fails is behind the offset all the same and is lost
  (`transient_failure_loses`). Nothing else loses one: an entry behind the
  offset is in the database unless it was undeliverable or its write failed
  (`no_loss_iff`);
* an entry behind the offset is not looked at again, so a lifetime writes at
  most one row for it, and the rows there are are those the lifetimes wrote
  (`once_per_lifetime`). A second lifetime starts at `0-0` and writes a
  second row (`restart_duplicates`).
-/

namespace ControlPlane

open Lib

variable {json : JsonReader}

/-! ## Lost entries -/

/-- The payload decodes and normalises. -/
def Deliverable (json : JsonReader) (entry : StreamEntry) : Prop :=
  ∃ payload dict normalized, decodePayload json entry.2 = .ok payload
    ∧ payload.asDict = .ok dict ∧ normalizeProbeSnapshotPayload json dict = .ok normalized

/-- The entry's row is in the database. -/
def Persisted (json : JsonReader) (w : StreamWorld) (entry : StreamEntry) : Prop :=
  ∃ payload record, decodePayload json entry.2 = .ok payload
    ∧ probeRecordOf json payload = .ok record ∧ (entry.1, record) ∈ w.recorded

/-- Every deliverable entry at or below the offset is in the database, but
for the one being processed. -/
def NoLoss (json : JsonReader) (w : StreamWorld) (c : Consumer) : Prop :=
  ∀ entry ∈ (w.streams .probe).entries, entry.1 ≤ c.offsets .probe → ¬c.Processing entry →
    Deliverable json entry → Persisted json w entry

/-- The same, with no exception for an entry being processed. -/
def Settled (json : JsonReader) (w : StreamWorld) (c : Consumer) : Prop :=
  ∀ entry ∈ (w.streams .probe).entries, entry.1 ≤ c.offsets .probe →
    Deliverable json entry → Persisted json w entry

/-- It is about the offset. -/
theorem Settled.of_offsets {w : StreamWorld} {c c' : Consumer} (h : Settled json w c)
    (hoffset : c'.offsets .probe = c.offsets .probe) : Settled json w c' := by
  intro entry hmem hle
  rw [hoffset] at hle
  exact h entry hmem hle

/-- What is settled is not lost. -/
theorem Settled.noLoss {w : StreamWorld} {c c' : Consumer} (h : Settled json w c)
    (hoffset : c'.offsets .probe = c.offsets .probe) : NoLoss json w c' :=
  fun entry hmem hle _ => h.of_offsets hoffset entry hmem hle

/-- Where nothing is being processed nothing is excepted. -/
theorem NoLoss.settled {w : StreamWorld} {c : Consumer} (h : NoLoss json w c)
    (hpc : ∀ entry payload rest, c.pc ≠ .recording entry payload rest) : Settled json w c := by
  intro entry hmem hle
  refine h entry hmem hle ?_
  intro hprocessing
  obtain ⟨payload, rest, heq⟩ := hprocessing
  exact hpc entry payload rest heq

/-- The entry at hand accounted for, nothing is excepted. -/
theorem NoLoss.settled_of {w : StreamWorld} {c : Consumer} (h : NoLoss json w c)
    {entry : StreamEntry} {payload : Json} {rest : List (StreamName × StreamEntry)}
    (hpc : c.pc = .recording entry payload rest)
    (hentry : Deliverable json entry → Persisted json w entry) : Settled json w c := by
  intro other hmem hle
  by_cases heq : other = entry
  · rw [heq]
    exact hentry
  · refine h other hmem hle ?_
    intro hprocessing
    obtain ⟨payload', rest', hpc'⟩ := hprocessing
    rw [hpc] at hpc'
    exact heq (ConsumerPc.recording.inj hpc').1.symm

/-- A row stays in the database. -/
theorem Persisted.grows {w w' : StreamWorld} {entry : StreamEntry}
    (h : Persisted json w entry) (hgrows : Grows w w') : Persisted json w' entry := by
  obtain ⟨payload, record, hdecode, hrecord, hmem⟩ := h
  refine ⟨payload, record, hdecode, hrecord, ?_⟩
  cases hgrows with
  | same => exact hmem
  | added => exact hmem
  | recorded => exact List.mem_append_left _ hmem

/-- Entries below an offset were there before. -/
theorem mem_of_grows {w w' : StreamWorld} (hgrows : Grows w w') {c : Consumer}
    (hoffset : c.offsets .probe ≤ (w.streams .probe).last) {entry : StreamEntry}
    (hmem : entry ∈ (w'.streams .probe).entries) (hle : entry.1 ≤ c.offsets .probe) :
    entry ∈ (w.streams .probe).entries := by
  cases hgrows with
  | same => exact hmem
  | recorded => exact hmem
  | added name new hlast =>
    by_cases hname : StreamName.probe = name
    · subst hname
      rw [w.streams_xadd_self, Log.entries_append] at hmem
      rcases List.mem_append.mp hmem with hold | hnew
      · exact hold
      · rw [List.mem_singleton.mp hnew] at hle
        exact absurd hle (Log.not_le_cursor_append hoffset hlast)
    · rw [w.streams_xadd_ne hlast hname] at hmem
      exact hmem

/-- More entries, and nothing more is lost. -/
theorem NoLoss.grows {w w' : StreamWorld} {c : Consumer} (h : NoLoss json w c)
    (hinv : c.Inv json w) (hgrows : Grows w w') : NoLoss json w' c := by
  intro entry hmem hle hprocessing hdeliverable
  have hold := mem_of_grows hgrows (hinv.walk.offset_le .probe) hmem hle
  exact (h entry hold hle hprocessing hdeliverable).grows hgrows

/-- **A walk loses nothing by itself.** It passes outcome events and stops at
a probe event, which is then being processed or not deliverable. -/
theorem consume_noLoss {w : StreamWorld} {c : Consumer}
    {items : List (StreamName × StreamEntry)} (h : Walk w c items)
    (hsettled : Settled json w c) : NoLoss json w (c.consume json items) := by
  induction items generalizing c with
  | nil => exact hsettled.noLoss rfl
  | cons item items ih =>
    obtain ⟨name, entry⟩ := item
    unfold Consumer.consume
    dsimp only
    cases name with
    | outcome =>
      -- The probe offset stays where it is.
      have hmoved : Settled json w
          { c with offsets := Function.update c.offsets .outcome entry.1 } :=
        hsettled.of_offsets (by simp)
      split
      next => exact hmoved.noLoss rfl
      next =>
        dsimp only
        split
        next => exact hmoved.noLoss rfl
        next => exact ih h.next hmoved
    | probe =>
      have hbatch := h.batch .probe
      rw [ofStream_cons_self] at hbatch
      split
      next err hdecode =>
        intro other hmem hle _ hdeliverable
        simp only [Function.update_self] at hle
        rcases (Log.le_next_iff hbatch hmem).mp hle with hold | heq
        · exact hsettled other hmem hold hdeliverable
        · obtain ⟨payload, -, -, hok, -⟩ := hdeliverable
          rw [heq, hdecode] at hok
          simp at hok
      next payload hdecode =>
        intro other hmem hle hprocessing hdeliverable
        simp only [Function.update_self] at hle
        rcases (Log.le_next_iff hbatch hmem).mp hle with hold | heq
        · exact hsettled other hmem hold hdeliverable
        · exact absurd ⟨payload, items, by rw [heq]⟩ hprocessing

/-- A payload that normalises has its row unless it lacks one of the four keys
that nothing stands in for. -/
theorem probeRecordOf_error_iff {payload : Json} {dict normalized : Payload}
    (hdict : payload.asDict = .ok dict)
    (hnormal : normalizeProbeSnapshotPayload json dict = .ok normalized) :
    (∃ err, probeRecordOf json payload = .error err)
      ↔ ∃ key ∈ ["provider", "model_id", "throughput_hint_qps", "success_rate"],
          dict.lookup key = none := by
  have hrow : probeRecordOf json payload = probeSnapshotRecord normalized := by
    unfold probeRecordOf
    rw [hdict]
    show (normalizeProbeSnapshotPayload json dict >>= probeSnapshotRecord) = _
    rw [hnormal]
    rfl
  have hfails : (∃ err, probeSnapshotRecord normalized = .error err)
      ↔ ¬∃ record, probeSnapshotRecord normalized = .ok record := by
    cases probeSnapshotRecord normalized with
    | error err => simp
    | ok record => simp
  obtain ⟨status, ttfb, rfl⟩ := normalizeProbeSnapshotPayload_ok hnormal
  rw [hrow, hfails, probeSnapshotRecord_ok_iff]
  simp only [List.mem_cons, List.not_mem_nil, or_false, forall_eq_or_imp, forall_eq,
    exists_eq_or_imp, exists_eq_left]
  simp (disch := decide) only [Payload.lookup_set_self, Payload.lookup_set_ne]
  simp only [← Option.ne_none_iff_exists', ne_eq, reduceCtorEq, not_false_eq_true, true_and]
  tauto

/-- The write of a deliverable entry that is not in the database fails: the
database raises, or the payload lacks what the row needs. -/
def Loses (json : JsonReader) (w : StreamWorld) (c : Consumer) (env : StreamEnv) : Prop :=
  ∃ entry payload rest reply, c.pc = .recording entry payload rest ∧ env = .database reply
    ∧ Deliverable json entry ∧ ¬Persisted json w entry
    ∧ (reply = .raises ∨ ∃ err, probeRecordOf json payload = .error err)

/-- **A step that loses nothing keeps what was not lost.** -/
theorem ConsumerStep.noLoss {env : StreamEnv} {w w' : StreamWorld} {c c' : Consumer}
    (h : ConsumerStep json w c env w' c') (hinv : c.Inv json w) (hno : NoLoss json w c)
    (hkeeps : ¬Loses json w c env) : NoLoss json w' c' := by
  -- A write that fails is of an entry that needs no row or has one.
  have hfailed : ∀ {entry payload rest} (reply : DatabaseReply),
      c.pc = .recording entry payload rest → env = .database reply →
      (reply = .raises ∨ ∃ err, probeRecordOf json payload = .error err) →
      Deliverable json entry → Persisted json w entry := by
    intro entry payload rest reply hpc henv hfails hdeliverable
    by_contra hlost
    exact hkeeps ⟨entry, payload, rest, reply, hpc, henv, hdeliverable, hlost, hfails⟩
  have hwritten : ∀ {entry payload rest record}, c.pc = .recording entry payload rest →
      probeRecordOf json payload = .ok record →
      Persisted json (w.insertSnapshot entry.1 record) entry := by
    intro entry payload rest record hpc hrecord
    obtain ⟨-, -, hdecode, -⟩ := hinv.current entry payload rest hpc
    exact ⟨payload, record, hdecode, hrecord,
      List.mem_append_right _ (List.mem_singleton_self _)⟩
  cases h with
  | read sizes hpc =>
    have hwalk : Walk w c (w.xread c.offsets sizes) :=
      ⟨hinv.walk.offset_le, fun name => ofStream_xread w c.offsets sizes name,
        hinv.walk.written_le, hinv.walk.nodup⟩
    exact consume_noLoss hwalk (hno.settled (by simp [hpc]))
  | readRaised hpc =>
    exact (hno.settled (by simp [hpc])).noLoss rfl
  | refused reply hpc herr =>
    exact (hno.settled_of hpc (hfailed reply hpc rfl (Or.inr ⟨_, herr⟩))).noLoss rfl
  | raised hpc hrecord =>
    exact (hno.settled_of hpc (hfailed .raises hpc rfl (Or.inl rfl))).noLoss rfl
  | committed hpc hrecord =>
    have hnew := (hno.grows hinv (.recorded _ _)).settled_of hpc fun _ => hwritten hpc hrecord
    exact consume_noLoss ((hinv.wrote hpc).grows (.recorded _ _)) (hnew.of_offsets rfl)
  | replyLost hpc hrecord =>
    have hnew := (hno.grows hinv (.recorded _ _)).settled_of hpc fun _ => hwritten hpc hrecord
    exact hnew.noLoss rfl
  | woke hpc =>
    exact (hno.settled (by simp [hpc])).noLoss rfl

/-- No consumer has lost anything. -/
def NoneLost (json : JsonReader) (c : Conf StreamWorld StreamTask) : Prop :=
  ∀ consumer, .consumer consumer ∈ c.tasks → NoLoss json c.world consumer

/-- The action is a write that loses its entry. -/
def LosesAt (json : JsonReader) (c : Conf StreamWorld StreamTask) :
    Act StreamTask StreamEnv → Prop
  | .start _ => False
  | .run i env =>
    ∃ consumer, c.tasks[i]? = some (.consumer consumer) ∧ Loses json c.world consumer env

/-- A task that has just begun has lost nothing. -/
theorem noneLost_start {w : StreamWorld} {ts : List StreamTask} {t : StreamTask}
    (ht : t.Started) (h : NoneLost json ⟨w, ts⟩) : NoneLost json ⟨w, ts ++ [t]⟩ := by
  intro consumer hmem
  rcases List.mem_append.mp hmem with hold | hnew
  · exact h consumer hold
  · rw [← List.mem_singleton.mp hnew] at ht
    rw [ht.consumer_eq]
    -- A new process is at `0-0`, below every entry.
    intro entry hentry hle
    exact absurd hle (not_le.mpr ((w.streams .probe).origin_lt hentry))

/-- The same of one step of a run. -/
theorem noneLost_step {w w' : StreamWorld} {l r : List StreamTask} {t t' : StreamTask}
    {env : StreamEnv} (hadv : (eventSystem json).advance env w t = some (w', t'))
    (hinv : AllInv json ⟨w, l ++ t :: r⟩)
    (hkeeps : ¬LosesAt json ⟨w, l ++ t :: r⟩ (.run l.length env))
    (h : NoneLost json ⟨w, l ++ t :: r⟩) : NoneLost json ⟨w', l ++ t' :: r⟩ := by
  refine forall_consumers (P := NoLoss json) hadv ?_ ?_ h
  · intro c hmem hgrows hno
    exact hno.grows (hinv c hmem) hgrows
  · intro c c' ht _ hst hno
    subst ht
    refine hst.noLoss (hinv c (by simp)) hno ?_
    intro hloses
    exact hkeeps ⟨c, getElem?_split_self _, hloses⟩

/-- A losing write leaves its entry behind the offset and out of the
database. -/
theorem Loses.advance {w : StreamWorld} {c : Consumer} {env : StreamEnv}
    (hinv : c.Inv json w) (h : Loses json w c env) :
    c.advance json env w = some (w, { c with pc := .sleeping })
      ∧ ¬NoLoss json w { c with pc := .sleeping } := by
  obtain ⟨entry, payload, rest, reply, hpc, rfl, hdeliverable, hlost, hfails⟩ := h
  constructor
  · unfold Consumer.advance
    rw [hpc]
    dsimp only
    cases hrecord : probeRecordOf json payload with
    | error err => rfl
    | ok record =>
      rcases hfails with rfl | ⟨err, herr⟩
      · rfl
      · rw [hrecord] at herr
        simp at herr
  · intro hno
    obtain ⟨hmem, hoffset, -, -⟩ := hinv.current entry payload rest hpc
    refine hlost (hno entry hmem hoffset.ge ?_ hdeliverable)
    intro hprocessing
    obtain ⟨payload', rest', hpc'⟩ := hprocessing
    simp at hpc'

/-- A step that loses something has lost it. -/
theorem not_noneLost_of_losesAt {c : Conf StreamWorld StreamTask}
    {a : Act StreamTask StreamEnv} (hinv : AllInv json c) (h : LosesAt json c a) :
    ∃ c', (eventSystem json).step c a = some c' ∧ ¬NoneLost json c' := by
  cases a with
  | start t => exact absurd h id
  | run i env =>
    obtain ⟨consumer, hget, hloses⟩ := h
    obtain ⟨hadv, hlost⟩ := hloses.advance (hinv consumer (List.mem_of_getElem? hget))
    refine ⟨⟨c.world, c.tasks.set i (.consumer { consumer with pc := .sleeping })⟩, ?_, ?_⟩
    · simp [System.step, hget, eventSystem, hadv]
    · intro hnone
      refine hlost (hnone _ ?_)
      have hi := (List.getElem?_eq_some_iff.mp hget).1
      exact List.mem_iff_getElem.mpr ⟨i, by simpa using hi, by simp⟩

/-- **The consumer loses a probe event exactly where a write fails.** Every
configuration a run goes through keeps every deliverable entry behind an
offset if and only if no step of it is a failing write of a deliverable entry
that has no row. -/
theorem no_loss_iff (json : JsonReader) (w : StreamWorld)
    (acts : List (Act StreamTask StreamEnv)) (c : Conf StreamWorld StreamTask) :
    (eventSystem json).Run (fun c a => Starting c a
        ∧ ∀ c', (eventSystem json).step c a = some c' → NoneLost json c') ⟨w, []⟩ acts c
      ↔ (eventSystem json).Run (fun c a => Starting c a ∧ ¬LosesAt json c a) ⟨w, []⟩ acts c := by
  constructor
  · intro hrun
    refine System.Run.strengthen hrun ?_
    intro acts₁ c₁ a c₂ acts₂ hpre hok _ _
    refine ⟨hok.1, ?_⟩
    intro hloses
    have hinv := run_allInv (fun _ _ h => h.1) hpre (allInv_nil w)
    obtain ⟨c', hstep, hlost⟩ := not_noneLost_of_losesAt hinv hloses
    exact hlost (hok.2 c' hstep)
  · intro hrun
    refine System.Run.strengthen hrun ?_
    intro acts₁ c₁ a c₂ acts₂ hpre hok hstep _
    refine ⟨hok.1, ?_⟩
    intro c' hstep'
    have hlast : (eventSystem json).Run (fun c a => Starting c a ∧ ¬LosesAt json c a) c₁ [a] c' :=
      ⟨hok, c', hstep', rfl⟩
    -- What the run kept so far, its next step keeps.
    have hboth : AllInv json c' ∧ NoneLost json c' := by
      refine System.Run.invariant (I := fun c => AllInv json c ∧ NoneLost json c) ?_ ?_
        (hpre.append hlast) ⟨allInv_nil w, by intro consumer hmem; simp at hmem⟩
      · intro w ts t hstart h
        exact ⟨allInv_start hstart.1 h.1, noneLost_start hstart.1 h.2⟩
      · intro w l t r env w' t' hkeeps hadv h
        exact ⟨allInv_step hadv h.1, noneLost_step hadv h.1 hkeeps.2 h.2⟩
    exact hboth.2

/-! ### One failed write -/

/-- A probe result as its publisher dumps it. -/
def labProbeText : String :=
  "\x7b\"provider\": \"lab\", \"model_id\": \"lab/demo\", \"ttfb_p50_ms\": 321, "
    ++ "\"throughput_hint_qps\": 12.5, \"success_rate\": 1.0, \"degraded_reason\": null\x7d"

/-- The same, parsed. -/
def labProbe : Payload :=
  [("provider", .string "lab"), ("model_id", .string "lab/demo"), ("ttfb_p50_ms", .number 321),
    ("throughput_hint_qps", .number (25 / 2)), ("success_rate", .number 1),
    ("degraded_reason", .null)]

/-- A reader that knows the one text. -/
def labJson : JsonReader where
  loads raw := if raw = labProbeText then some (.object labProbe) else none
  parseInt _ := none

/-- The entry of its event. -/
def labEntry : StreamEntry :=
  (toLex (1, 0), [("payload", labProbeText)])

/-- No events, and no rows. -/
def emptyStreams : StreamWorld where
  streams _ := Log.empty
  recorded := []

/-- The event is published, a consumer reads it and comes to its write. -/
def upToTheWrite : List (Act StreamTask StreamEnv) :=
  [.start (.publish .probe labEntry.2), .run 0 (.added labEntry.1), .start (.consumer {}),
    .run 1 (.read fun _ => 50)]

/-- The entry's payload is the result. -/
theorem lab_decodes : decodePayload labJson labEntry.2 = .ok (.object labProbe) := by
  simp [decodePayload, labJson, labEntry]

/-- The entry can be delivered. -/
theorem lab_deliverable : Deliverable labJson labEntry :=
  ⟨.object labProbe, labProbe, _, lab_decodes, rfl, rfl⟩

/-- The two tasks have just begun. -/
theorem labStarts : (StreamTask.publish .probe labEntry.2).Started
    ∧ (StreamTask.consumer {}).Started :=
  ⟨.publish _ _, .consumer⟩

/-- The offset of a consumer that is processing nothing. -/
def StreamTask.idleAt : StreamTask → Option EntryId
  | .consumer { offsets, pc := .sleeping, written := _ } => some (offsets .probe)
  | .consumer { offsets, pc := .reading, written := _ } => some (offsets .probe)
  | _ => none

/-- It is the offset of a consumer that is not recording. -/
theorem StreamTask.idleAt_eq {t : StreamTask} {id : EntryId} (h : t.idleAt = some id) :
    ∃ c, t = .consumer c ∧ c.offsets .probe = id
      ∧ ∀ entry payload rest, c.pc ≠ .recording entry payload rest := by
  unfold idleAt at h
  split at h
  next offsets written => exact ⟨_, rfl, Option.some.inj h, by simp⟩
  next offsets written => exact ⟨_, rfl, Option.some.inj h, by simp⟩
  next => simp at h

/-- The database is away for one write: the consumer pauses, reads on, and
has lost the event. -/
theorem transient_failure_loses :
    ¬ ∀ acts c, (eventSystem labJson).Run Starting ⟨emptyStreams, []⟩ acts c →
      NoneLost labJson c := by
  intro hall
  obtain ⟨c, hexec, hc⟩ : ∃ c, (eventSystem labJson).exec ⟨emptyStreams, []⟩
      (upToTheWrite ++ [.run 1 (.database .raises), .run 1 .woken, .run 1 (.read fun _ => 50)])
        = some c
      ∧ (c.world.recorded.isEmpty && decide ((c.world.streams .probe).entries = [labEntry])
          && decide (c.tasks[1]?.bind StreamTask.idleAt = some labEntry.1)) = true :=
    (Option.any_eq_true _ _).mp (by decide +kernel)
  simp only [Bool.and_eq_true, decide_eq_true_eq, List.isEmpty_iff] at hc
  obtain ⟨⟨hnone, hentries⟩, hidle⟩ := hc
  obtain ⟨t, hget, hidle⟩ := Option.bind_eq_some_iff.mp hidle
  obtain ⟨consumer, rfl, hoffset, hpc⟩ := StreamTask.idleAt_eq hidle
  have hrun := starting_of_exec (by simp [upToTheWrite, labStarts]) hexec
  have hno := hall _ c hrun consumer (List.mem_of_getElem? hget)
  obtain ⟨payload, record, -, -, hmem⟩ := hno.settled hpc labEntry (by simp [hentries])
    hoffset.ge lab_deliverable
  rw [hnone] at hmem
  simp at hmem

/-! ## Duplicated entries -/

/-- The ids of the entries the rows were written for. -/
def StreamWorld.recordedIds (w : StreamWorld) : Multiset EntryId :=
  w.recorded.map Prod.fst

/-- The ids a task wrote rows for. -/
def StreamTask.written : StreamTask → Multiset EntryId
  | .consumer c => c.written
  | _ => 0

/-- A task that is a consumer. -/
def StreamTask.isConsumer : StreamTask → Bool
  | .consumer _ => true
  | _ => false

/-- Reading writes nothing. -/
theorem consume_written (c : Consumer) (items : List (StreamName × StreamEntry)) :
    (c.consume json items).written = c.written := by
  induction items generalizing c with
  | nil => rfl
  | cons item items ih =>
    obtain ⟨name, entry⟩ := item
    unfold Consumer.consume
    dsimp only
    split
    next => rfl
    next =>
      cases name with
      | probe => rfl
      | outcome =>
        dsimp only
        split
        next => rfl
        next => rw [ih]

/-- A row adds its id. -/
theorem recordedIds_insertSnapshot (w : StreamWorld) (id : EntryId)
    (record : ProbeSnapshotRecord) :
    (w.insertSnapshot id record).recordedIds = w.recordedIds + {id} := by
  simp [StreamWorld.recordedIds, StreamWorld.insertSnapshot, ← Multiset.coe_add,
    ← Multiset.coe_singleton]

/-- A row is written exactly when a consumer notes it. -/
theorem ConsumerStep.accounts {env : StreamEnv} {w w' : StreamWorld} {c c' : Consumer}
    (h : ConsumerStep json w c env w' c') :
    w'.recordedIds + c.written = w.recordedIds + c'.written := by
  cases h with
  | read => rw [consume_written]
  | committed =>
    rw [consume_written, recordedIds_insertSnapshot, ← Multiset.coe_add, Multiset.coe_singleton,
      add_assoc, add_comm ({_} : Multiset EntryId)]
  | replyLost =>
    rw [recordedIds_insertSnapshot, ← Multiset.coe_add, Multiset.coe_singleton,
      add_assoc, add_comm ({_} : Multiset EntryId)]
  | _ => rfl

/-- The rows are those of the start and those the lifetimes wrote. -/
theorem run_accounts {w : StreamWorld} {acts : List (Act StreamTask StreamEnv)}
    {c : Conf StreamWorld StreamTask} (hrun : (eventSystem json).Run Starting ⟨w, []⟩ acts c) :
    c.world.recordedIds = w.recordedIds + sumOver StreamTask.written c.tasks := by
  refine System.Run.invariant (I := fun c =>
    c.world.recordedIds = w.recordedIds + sumOver StreamTask.written c.tasks) ?_ ?_ hrun (by simp)
  · intro w₁ ts t hstart h
    -- A task that starts has written nothing.
    have hnothing : t.written = 0 := by
      cases hstart with
      | publish => rfl
      | consumer => rfl
    rw [sumOver_append, sumOver_cons, sumOver_nil, hnothing]
    simpa using h
  · intro w₁ l t r env w₂ t' _ hadv h
    dsimp only at h ⊢
    rw [sumOver_split] at h ⊢
    rcases eventSystem_cases hadv with ⟨_, _, _, _, rfl, rfl, rfl⟩ | ⟨c, c', rfl, rfl, hst⟩
    · exact h
    · have hstep := hst.accounts
      have hmoved : w₂.recordedIds + c.written
          = w.recordedIds + (↑c'.written + sumOver StreamTask.written (l ++ r)) + c.written := by
        rw [hstep, h]
        show w.recordedIds + (↑c.written + sumOver StreamTask.written (l ++ r)) + ↑c'.written
          = _
        abel
      exact add_right_cancel hmoved

/-- Consumers that write nothing twice write it once each. -/
theorem count_written_le {ts : List StreamTask}
    (h : ∀ c, .consumer c ∈ ts → c.written.Nodup) (id : EntryId) :
    (sumOver StreamTask.written ts).count id ≤ ts.countP StreamTask.isConsumer := by
  induction ts with
  | nil => simp
  | cons t ts ih =>
    have hrest := ih fun c hc => h c (List.mem_cons_of_mem t hc)
    rw [sumOver_cons, Multiset.count_add, List.countP_cons]
    cases t with
    | consumer c =>
      have hnodup : (c.written : Multiset EntryId).Nodup :=
        Multiset.coe_nodup.mpr (h c List.mem_cons_self)
      have hone : (StreamTask.consumer c).written.count id ≤ 1 :=
        Multiset.nodup_iff_count_le_one.mp hnodup id
      simp only [StreamTask.isConsumer, if_true]
      omega
    | _ => simpa [StreamTask.written, StreamTask.isConsumer] using hrest

/-- **A process lifetime writes at most one row for an entry.** The rows are
those there were and those the lifetimes wrote, so an entry has at most one
row for each. -/
theorem once_per_lifetime (json : JsonReader) (w : StreamWorld)
    (acts : List (Act StreamTask StreamEnv)) (c : Conf StreamWorld StreamTask)
    (hrun : (eventSystem json).Run Starting ⟨w, []⟩ acts c) :
    (∀ consumer, .consumer consumer ∈ c.tasks → consumer.written.Nodup)
    ∧ c.world.recordedIds = w.recordedIds + sumOver StreamTask.written c.tasks
    ∧ ∀ id, c.world.recordedIds.count id
        ≤ w.recordedIds.count id + c.tasks.countP StreamTask.isConsumer := by
  have hinv := run_allInv (fun _ _ h => h) hrun (allInv_nil w)
  have hnodup : ∀ consumer, .consumer consumer ∈ c.tasks → consumer.written.Nodup :=
    fun consumer hmem => (hinv consumer hmem).walk.nodup
  have hrows := run_accounts hrun
  refine ⟨hnodup, hrows, ?_⟩
  intro id
  rw [hrows, Multiset.count_add]
  exact Nat.add_le_add_left (count_written_le hnodup id) _

/-! ### One restart -/

/-- The consumer writes the row and crashes; another begins at `0-0`. -/
def acrossARestart : List (Act StreamTask StreamEnv) :=
  upToTheWrite ++ [.run 1 (.database .commits), .start (.consumer {}), .run 2 (.read fun _ => 50),
    .run 2 (.database .commits)]

/-- The restart leaves one entry with two rows. -/
theorem acrossARestart_run : ∃ c, (eventSystem labJson).Run Starting ⟨emptyStreams, []⟩
      acrossARestart c
    ∧ c.world.recorded.map Prod.fst = [labEntry.1, labEntry.1] := by
  obtain ⟨c, hexec, hc⟩ : ∃ c, (eventSystem labJson).exec ⟨emptyStreams, []⟩ acrossARestart
        = some c
      ∧ decide (c.world.recorded.map Prod.fst = [labEntry.1, labEntry.1]) = true :=
    (Option.any_eq_true _ _).mp (by decide +kernel)
  exact ⟨c, starting_of_exec (by simp [acrossARestart, upToTheWrite, labStarts]) hexec,
    of_decide_eq_true hc⟩

/-- The second lifetime writes the row again. -/
theorem restart_duplicates :
    ¬ ∀ acts c, (eventSystem labJson).Run Starting ⟨emptyStreams, []⟩ acts c →
      (c.world.recorded.map Prod.fst).Nodup := by
  intro hall
  obtain ⟨c, hrun, hids⟩ := acrossARestart_run
  have hnodup := hall acrossARestart c hrun
  rw [hids] at hnodup
  simp at hnodup

/-- The run of two lifetimes: two rows, one for each. -/
theorem once_per_lifetime_lab :
    ∃ c, (eventSystem labJson).Run Starting ⟨emptyStreams, []⟩ acrossARestart c
      ∧ c.world.recorded.map Prod.fst = [labEntry.1, labEntry.1]
      ∧ ∀ consumer, .consumer consumer ∈ c.tasks → consumer.written.Nodup := by
  obtain ⟨c, hrun, hids⟩ := acrossARestart_run
  exact ⟨c, hrun, hids,
    (once_per_lifetime labJson emptyStreams acrossARestart c hrun).1⟩

end ControlPlane
