import ControlPlane.EventConsumer

/-!
# Where a consumer stands in its streams

A consumer's steps, one rule each, and the invariant every one of them keeps
(`Consumer.Inv`): what is left of its batch is the beginning of what lies past
its offsets, what it wrote lies at or before them, and the entry it is about
to write is the one its offset points at and is not written yet.

The walk through a batch (`consume_inv`) is an induction on the batch; each
turn moves one offset to the next entry (`Walk.next`).
-/

namespace ControlPlane

open Lib

variable {json : JsonReader}

/-! ## Steps, one rule each -/

/-- What a consumer can do at its next await, and what comes of it. -/
inductive ConsumerStep (json : JsonReader) (w : StreamWorld) (c : Consumer) :
    StreamEnv → StreamWorld → Consumer → Prop
  | read (sizes : StreamName → ℕ) (hpc : c.pc = .reading) :
      ConsumerStep json w c (.read sizes) w (c.consume json (w.xread c.offsets sizes))
  | readRaised (hpc : c.pc = .reading) :
      ConsumerStep json w c .readRaises w { c with pc := .sleeping }
  | refused {entry : StreamEntry} {payload : Json} {rest : List (StreamName × StreamEntry)}
      {err : EventError} (reply : DatabaseReply) (hpc : c.pc = .recording entry payload rest)
      (herr : probeRecordOf json payload = .error err) :
      ConsumerStep json w c (.database reply) w { c with pc := .sleeping }
  | raised {entry : StreamEntry} {payload : Json} {rest : List (StreamName × StreamEntry)}
      {record : ProbeSnapshotRecord} (hpc : c.pc = .recording entry payload rest)
      (hrecord : probeRecordOf json payload = .ok record) :
      ConsumerStep json w c (.database .raises) w { c with pc := .sleeping }
  | committed {entry : StreamEntry} {payload : Json} {rest : List (StreamName × StreamEntry)}
      {record : ProbeSnapshotRecord} (hpc : c.pc = .recording entry payload rest)
      (hrecord : probeRecordOf json payload = .ok record) :
      ConsumerStep json w c (.database .commits) (w.insertSnapshot entry.1 record)
        (Consumer.consume json { c with written := c.written ++ [entry.1] } rest)
  | replyLost {entry : StreamEntry} {payload : Json} {rest : List (StreamName × StreamEntry)}
      {record : ProbeSnapshotRecord} (hpc : c.pc = .recording entry payload rest)
      (hrecord : probeRecordOf json payload = .ok record) :
      ConsumerStep json w c (.database .commitsThenRaises) (w.insertSnapshot entry.1 record)
        { c with written := c.written ++ [entry.1], pc := .sleeping }
  | woke (hpc : c.pc = .sleeping) : ConsumerStep json w c .woken w { c with pc := .reading }

/-- A consumer does nothing else. -/
theorem Consumer.advance_step {env : StreamEnv} {w w' : StreamWorld} {c c' : Consumer}
    (h : c.advance json env w = some (w', c')) : ConsumerStep json w c env w' c' := by
  unfold Consumer.advance at h
  split at h
  next sizes hpc =>
    obtain ⟨rfl, rfl⟩ := Prod.mk.inj (Option.some.inj h)
    exact .read sizes hpc
  next hpc =>
    obtain ⟨rfl, rfl⟩ := Prod.mk.inj (Option.some.inj h)
    exact .readRaised hpc
  next entry payload rest reply hpc =>
    split at h
    next err herr =>
      obtain ⟨rfl, rfl⟩ := Prod.mk.inj (Option.some.inj h)
      exact .refused reply hpc herr
    next record hrecord =>
      cases reply with
      | raises =>
        obtain ⟨rfl, rfl⟩ := Prod.mk.inj (Option.some.inj h)
        exact .raised hpc hrecord
      | commits =>
        obtain ⟨rfl, rfl⟩ := Prod.mk.inj (Option.some.inj h)
        exact .committed hpc hrecord
      | commitsThenRaises =>
        obtain ⟨rfl, rfl⟩ := Prod.mk.inj (Option.some.inj h)
        exact .replyLost hpc hrecord
  next hpc =>
    obtain ⟨rfl, rfl⟩ := Prod.mk.inj (Option.some.inj h)
    exact .woke hpc
  next => simp at h

/-- What a step does to the world. -/
inductive Grows (w : StreamWorld) : StreamWorld → Prop
  | same : Grows w w
  | added (name : StreamName) (entry : StreamEntry) (h : (w.streams name).last < entry.1) :
      Grows w (w.xadd name entry h)
  | recorded (id : EntryId) (record : ProbeSnapshotRecord) :
      Grows w (w.insertSnapshot id record)

/-- No step takes an entry out of a stream. -/
theorem ConsumerStep.grows {env : StreamEnv} {w w' : StreamWorld} {c c' : Consumer}
    (h : ConsumerStep json w c env w' c') : Grows w w' := by
  cases h with
  | committed => exact .recorded _ _
  | replyLost => exact .recorded _ _
  | _ => exact .same

/-- A task's step: a publisher adds its event, or a consumer takes a step. -/
theorem eventSystem_cases {env : StreamEnv} {w w' : StreamWorld} {t t' : StreamTask}
    (h : (eventSystem json).advance env w t = some (w', t')) :
    (∃ name fields id, ∃ hid : (w.streams name).last < id, t = .publish name fields
      ∧ t' = .published ∧ w' = w.xadd name (id, fields) hid)
    ∨ ∃ c c', t = .consumer c ∧ t' = .consumer c' ∧ ConsumerStep json w c env w' c' := by
  cases t with
  | publish name fields =>
    left
    cases env with
    | added id =>
      simp only [eventSystem] at h
      split at h
      next hid =>
        obtain ⟨rfl, rfl⟩ := Prod.mk.inj (Option.some.inj h)
        exact ⟨name, fields, id, hid, rfl, rfl, rfl⟩
      next => simp at h
    | _ => simp [eventSystem] at h
  | published => simp [eventSystem] at h
  | consumer c =>
    right
    obtain ⟨⟨w₁, c₁⟩, hadv, heq⟩ := Option.map_eq_some_iff.mp h
    obtain ⟨rfl, rfl⟩ := Prod.mk.inj heq
    exact ⟨c, c₁, rfl, rfl, Consumer.advance_step hadv⟩

/-! ## Where a consumer stands -/

/-- The entries of one stream, in order. -/
def ofStream (name : StreamName) (items : List (StreamName × StreamEntry)) : List StreamEntry :=
  items.filterMap fun item => if item.1 = name then some item.2 else none

/-- The entries of one stream, the first of them at the head. -/
theorem ofStream_cons_self (name : StreamName) (entry : StreamEntry)
    (items : List (StreamName × StreamEntry)) :
    ofStream name ((name, entry) :: items) = entry :: ofStream name items := by
  simp [ofStream]

/-- Another stream's entry is passed over. -/
theorem ofStream_cons_ne {name other : StreamName} (h : other ≠ name) (entry : StreamEntry)
    (items : List (StreamName × StreamEntry)) :
    ofStream name ((other, entry) :: items) = ofStream name items := by
  simp [ofStream, h]

/-- The streams of a concatenation. -/
theorem ofStream_append (name : StreamName) (l r : List (StreamName × StreamEntry)) :
    ofStream name (l ++ r) = ofStream name l ++ ofStream name r :=
  List.filterMap_append

/-- The entries of one stream, read off that stream or another. -/
theorem ofStream_map (name other : StreamName) (entries : List StreamEntry) :
    ofStream name (entries.map fun entry => (other, entry))
      = if other = name then entries else [] := by
  induction entries with
  | nil => simp [ofStream]
  | cons entry entries ih =>
    rw [List.map_cons]
    by_cases hname : other = name
    · subst hname
      rw [if_pos rfl] at ih ⊢
      rw [ofStream_cons_self, ih]
    · rw [if_neg hname] at ih ⊢
      rw [ofStream_cons_ne hname, ih]

/-- What a read returns of one stream is a prefix of what is past the offset. -/
theorem ofStream_xread (w : StreamWorld) (offsets : StreamName → EntryId)
    (sizes : StreamName → ℕ) (name : StreamName) :
    ofStream name (w.xread offsets sizes) <+: (w.streams name).past (offsets name) := by
  have heq : ofStream name (w.xread offsets sizes)
      = ((w.streams name).past (offsets name)).take (min (sizes name) 50) := by
    unfold StreamWorld.xread
    rw [List.flatMap_cons, List.flatMap_cons, List.flatMap_nil, List.append_nil, ofStream_append,
      ofStream_map, ofStream_map]
    cases name <;> simp
  rw [heq]
  exact List.take_prefix _ _

/-- What is left of the batch. -/
def Consumer.rest (c : Consumer) : List (StreamName × StreamEntry) :=
  match c.pc with
  | .recording _ _ rest => rest
  | _ => []

/-- The entry the consumer is at. -/
def Consumer.Processing (c : Consumer) (entry : StreamEntry) : Prop :=
  ∃ payload rest, c.pc = .recording entry payload rest

/-- A consumer about to walk `items`. -/
structure Walk (w : StreamWorld) (c : Consumer) (items : List (StreamName × StreamEntry)) :
    Prop where
  offset_le : ∀ name, c.offsets name ≤ (w.streams name).last
  batch : ∀ name, ofStream name items <+: (w.streams name).past (c.offsets name)
  written_le : ∀ id ∈ c.written, id ≤ c.offsets .probe
  nodup : c.written.Nodup

/-- Where a consumer stands in its streams. -/
structure Consumer.Inv (json : JsonReader) (w : StreamWorld) (c : Consumer) : Prop where
  walk : Walk w c c.rest
  current : ∀ entry payload rest, c.pc = .recording entry payload rest →
    entry ∈ (w.streams .probe).entries ∧ c.offsets .probe = entry.1
      ∧ decodePayload json entry.2 = .ok payload ∧ entry.1 ∉ c.written

/-- A walk goes on while the streams grow. -/
theorem Walk.grows {w w' : StreamWorld} {c : Consumer} {items : List (StreamName × StreamEntry)}
    (h : Walk w c items) (hgrows : Grows w w') : Walk w' c items := by
  cases hgrows with
  | same => exact h
  | recorded id record => exact ⟨h.offset_le, h.batch, h.written_le, h.nodup⟩
  | added name entry hlast =>
    refine ⟨?_, ?_, h.written_le, h.nodup⟩
    · intro other
      by_cases hname : other = name
      · subst hname
        rw [w.streams_xadd_self]
        exact (h.offset_le other).trans (Log.last_le_append entry hlast)
      · rw [w.streams_xadd_ne hlast hname]
        exact h.offset_le other
    · intro other
      by_cases hname : other = name
      · subst hname
        rw [w.streams_xadd_self]
        exact Log.prefix_append (h.batch other) entry hlast
      · rw [w.streams_xadd_ne hlast hname]
        exact h.batch other

/-- An entry of a stream stays in it. -/
theorem mem_entries_of_grows {w w' : StreamWorld} (hgrows : Grows w w') {name : StreamName}
    {entry : StreamEntry} (h : entry ∈ (w.streams name).entries) :
    entry ∈ (w'.streams name).entries := by
  cases hgrows with
  | same => exact h
  | recorded id record => exact h
  | added other new hlast =>
    by_cases hname : name = other
    · subst hname
      rw [w.streams_xadd_self, Log.entries_append]
      exact List.mem_append_left _ h
    · rw [w.streams_xadd_ne hlast hname]
      exact h

/-- The streams may grow between a consumer's steps. -/
theorem Consumer.Inv.grows {w w' : StreamWorld} {c : Consumer} (h : c.Inv json w)
    (hgrows : Grows w w') : c.Inv json w' := by
  refine ⟨h.walk.grows hgrows, ?_⟩
  intro entry payload rest hpc
  obtain ⟨hmem, hrest⟩ := h.current entry payload rest hpc
  exact ⟨mem_entries_of_grows hgrows hmem, hrest⟩

/-- Moving to the next entry of the batch. -/
theorem Walk.next {w : StreamWorld} {c : Consumer} {name : StreamName} {entry : StreamEntry}
    {items : List (StreamName × StreamEntry)} (h : Walk w c ((name, entry) :: items)) :
    Walk w { c with offsets := Function.update c.offsets name entry.1 } items := by
  have hhead : entry :: ofStream name items <+: (w.streams name).past (c.offsets name) := by
    rw [← ofStream_cons_self]
    exact h.batch name
  refine ⟨?_, ?_, ?_, h.nodup⟩
  · intro other
    by_cases hname : other = name
    · subst hname
      simp only [Function.update_self]
      exact (w.streams other).entry_le_last (Log.mem_of_prefix hhead)
    · simp only [Function.update_of_ne hname]
      exact h.offset_le other
  · intro other
    by_cases hname : other = name
    · subst hname
      simp only [Function.update_self]
      exact Log.prefix_next hhead
    · have hbatch := h.batch other
      rw [ofStream_cons_ne (Ne.symm hname)] at hbatch
      simp only [Function.update_of_ne hname]
      exact hbatch
  · intro id hid
    have hle := h.written_le id hid
    by_cases hname : StreamName.probe = name
    · subst hname
      simp only [Function.update_self]
      exact hle.trans (Log.lt_of_prefix hhead).le
    · simp only [Function.update_of_ne hname]
      exact hle

/-- A walk that is broken off. -/
theorem Walk.stop {w : StreamWorld} {c : Consumer} {items : List (StreamName × StreamEntry)}
    (h : Walk w c items) (pc : ConsumerPc) : Walk w { c with pc } [] :=
  ⟨h.offset_le, fun _ => List.nil_prefix, h.written_le, h.nodup⟩

/-- A walk may stop before any entry that is not being recorded. -/
theorem Walk.inv_stop {w : StreamWorld} {c : Consumer}
    {items : List (StreamName × StreamEntry)} (h : Walk w c items) {pc : ConsumerPc}
    (hpc : ∀ entry payload rest, pc ≠ .recording entry payload rest) :
    Consumer.Inv json w { c with pc } := by
  refine ⟨?_, fun entry payload rest heq => absurd heq (hpc entry payload rest)⟩
  have hrest : Consumer.rest { c with pc } = [] := by
    cases pc with
    | recording entry payload rest => exact absurd rfl (hpc entry payload rest)
    | _ => rfl
  rw [hrest]
  exact h.stop pc

/-- An entry the walk comes to was not written by this lifetime: what it
wrote lies at or before the offset. -/
theorem Walk.not_written {w : StreamWorld} {c : Consumer} {entry : StreamEntry}
    {items : List (StreamName × StreamEntry)} (h : Walk w c ((.probe, entry) :: items)) :
    entry.1 ∉ c.written := by
  intro hid
  have hbatch := h.batch .probe
  rw [ofStream_cons_self] at hbatch
  exact absurd (h.written_le entry.1 hid) (not_le.mpr (Log.lt_of_prefix hbatch))

/-- **Walking keeps the invariant.** Induction on what is left of the batch;
the walk ends at a probe event, at an entry that raises, or at the end. -/
theorem consume_inv {w : StreamWorld} {c : Consumer} {items : List (StreamName × StreamEntry)}
    (h : Walk w c items) : (c.consume json items).Inv json w := by
  induction items generalizing c with
  | nil => exact h.inv_stop (by simp)
  | cons item items ih =>
    obtain ⟨name, entry⟩ := item
    unfold Consumer.consume
    dsimp only
    split
    next => exact h.next.inv_stop (by simp)
    next payload hdecode =>
      cases name with
      | outcome =>
        dsimp only
        split
        next => exact h.next.inv_stop (by simp)
        next => exact ih h.next
      | probe =>
        have hbatch := h.batch .probe
        rw [ofStream_cons_self] at hbatch
        have hnext := h.next
        refine ⟨⟨hnext.offset_le, hnext.batch, hnext.written_le, hnext.nodup⟩, ?_⟩
        intro entry' payload' rest' hpc
        obtain ⟨rfl, rfl, rfl⟩ := ConsumerPc.recording.inj hpc
        exact ⟨Log.mem_of_prefix hbatch, by simp, hdecode, h.not_written⟩

/-- A consumer that starts has read nothing. -/
theorem consumer_start_inv (w : StreamWorld) : Consumer.Inv json w {} := by
  have hwalk : Walk w {} [] := by
    refine ⟨?_, fun _ => List.nil_prefix, by simp, by simp⟩
    intro name
    exact (w.streams name).le_last List.mem_cons_self
  exact hwalk.inv_stop (by simp)

/-- Writing the entry at hand and going on from it. -/
theorem Consumer.Inv.wrote {w : StreamWorld} {c : Consumer} (h : c.Inv json w)
    {entry : StreamEntry} {payload : Json} {rest : List (StreamName × StreamEntry)}
    (hpc : c.pc = .recording entry payload rest) :
    Walk w { c with written := c.written ++ [entry.1] } rest := by
  obtain ⟨-, hoffset, -, hnew⟩ := h.current entry payload rest hpc
  have hrest : c.rest = rest := by simp [Consumer.rest, hpc]
  have hwalk := h.walk
  rw [hrest] at hwalk
  refine ⟨hwalk.offset_le, hwalk.batch, ?_, ?_⟩
  · intro id hid
    rcases List.mem_append.mp hid with hold | hlast
    · exact hwalk.written_le id hold
    · rw [List.mem_singleton.mp hlast]
      exact hoffset.ge
  · refine List.nodup_append.mpr ⟨hwalk.nodup, List.nodup_singleton _, ?_⟩
    intro id hid other hother heq
    rw [List.mem_singleton.mp hother] at heq
    exact hnew (heq ▸ hid)

/-- Each step of the consumer keeps its invariant. -/
theorem ConsumerStep.inv {env : StreamEnv} {w w' : StreamWorld} {c c' : Consumer}
    (h : ConsumerStep json w c env w' c') (hinv : c.Inv json w) : c'.Inv json w' := by
  cases h with
  | read sizes hpc =>
    exact consume_inv ⟨hinv.walk.offset_le, fun name => ofStream_xread w c.offsets sizes name,
      hinv.walk.written_le, hinv.walk.nodup⟩
  | readRaised => exact hinv.walk.inv_stop (by simp)
  | refused => exact hinv.walk.inv_stop (by simp)
  | raised => exact hinv.walk.inv_stop (by simp)
  | committed hpc => exact consume_inv ((hinv.wrote hpc).grows (.recorded _ _))
  | replyLost hpc => exact ((hinv.wrote hpc).grows (.recorded _ _)).inv_stop (by simp)
  | woke => exact hinv.walk.inv_stop (by simp)

/-! ## Runs -/

/-- Tasks start at their beginning; any of them may take the next step. -/
def Starting (_ : Conf StreamWorld StreamTask) : Act StreamTask StreamEnv → Prop
  | .start t => t.Started
  | .run _ _ => True

/-- A schedule that evaluates is a run. -/
theorem starting_of_exec {acts : List (Act StreamTask StreamEnv)}
    {c c' : Conf StreamWorld StreamTask} (hstarts : ∀ t, .start t ∈ acts → t.Started)
    (h : (eventSystem json).exec c acts = some c') :
    (eventSystem json).Run Starting c acts c' := by
  refine System.Run.of_exec ?_ h
  intro a ha c
  cases a with
  | start t => exact hstarts t ha
  | run i env => trivial

/-- A consumer that has just started is the empty one. -/
theorem StreamTask.Started.consumer_eq {c : Consumer} (h : (StreamTask.consumer c).Started) :
    c = {} := by
  cases h with
  | consumer => rfl

/-- Every consumer of a configuration is where it should be. -/
def AllInv (json : JsonReader) (c : Conf StreamWorld StreamTask) : Prop :=
  ∀ consumer, .consumer consumer ∈ c.tasks → consumer.Inv json c.world

/-- What holds of a consumer at its start, is kept by its own steps and is not
undone by the others', holds of all of them. -/
theorem forall_consumers {P : StreamWorld → Consumer → Prop}
    {w w' : StreamWorld} {l r : List StreamTask} {t t' : StreamTask} {env : StreamEnv}
    (hadv : (eventSystem json).advance env w t = some (w', t'))
    (hgrows : ∀ c, .consumer c ∈ l ++ t :: r → Grows w w' → P w c → P w' c)
    (hstep : ∀ c c', t = .consumer c → t' = .consumer c' → ConsumerStep json w c env w' c' →
      P w c → P w' c')
    (h : ∀ c, .consumer c ∈ l ++ t :: r → P w c) :
    ∀ c, .consumer c ∈ l ++ t' :: r → P w' c := by
  have hworld : Grows w w' := by
    rcases eventSystem_cases hadv with ⟨name, fields, id, hid, -, -, rfl⟩ | ⟨c, c', -, -, hst⟩
    · exact .added name (id, fields) hid
    · exact hst.grows
  intro c hc
  have hother : .consumer c ∈ l ∨ .consumer c ∈ r → P w' c := by
    intro hmem
    have hold : .consumer c ∈ l ++ t :: r := by
      rcases hmem with hl | hr
      · exact List.mem_append_left _ hl
      · exact List.mem_append_right _ (List.mem_cons_of_mem _ hr)
    exact hgrows c hold hworld (h c hold)
  rcases List.mem_append.mp hc with hl | hc
  · exact hother (Or.inl hl)
  · rcases List.mem_cons.mp hc with heq | hr
    · rcases eventSystem_cases hadv with ⟨_, _, _, _, -, rfl, -⟩ | ⟨c₁, c₂, rfl, rfl, hst⟩
      · simp at heq
      · obtain rfl := StreamTask.consumer.inj heq
        exact hstep c₁ c rfl rfl hst (h c₁ (by simp))
    · exact hother (Or.inr hr)

/-- Another task does not disturb the consumers. -/
theorem allInv_start {w : StreamWorld} {ts : List StreamTask} {t : StreamTask} (ht : t.Started)
    (h : AllInv json ⟨w, ts⟩) : AllInv json ⟨w, ts ++ [t]⟩ := by
  intro consumer hmem
  rcases List.mem_append.mp hmem with hold | hnew
  · exact h consumer hold
  · rw [← List.mem_singleton.mp hnew] at ht
    rw [ht.consumer_eq]
    exact consumer_start_inv w

/-- Nor does a step of any task. -/
theorem allInv_step {w w' : StreamWorld} {l r : List StreamTask} {t t' : StreamTask}
    {env : StreamEnv} (hadv : (eventSystem json).advance env w t = some (w', t'))
    (h : AllInv json ⟨w, l ++ t :: r⟩) : AllInv json ⟨w', l ++ t' :: r⟩ :=
  forall_consumers (P := fun w c => c.Inv json w) hadv
    (fun _ _ hgrows hc => hc.grows hgrows) (fun _ _ _ _ hst hc => hst.inv hc) h

/-- **Every consumer of a run keeps its place.** -/
theorem run_allInv {ok : Conf StreamWorld StreamTask → Act StreamTask StreamEnv → Prop}
    (hok : ∀ c a, ok c a → Starting c a) {c c' : Conf StreamWorld StreamTask}
    {acts : List (Act StreamTask StreamEnv)} (hrun : (eventSystem json).Run ok c acts c')
    (h : AllInv json c) : AllInv json c' :=
  System.Run.invariant (I := AllInv json)
    (fun _ _ _ hstart hinv => allInv_start (hok _ _ hstart) hinv)
    (fun _ _ _ _ _ _ _ _ hadv hinv => allInv_step hadv hinv) hrun h

/-- There is no consumer yet. -/
theorem allInv_nil (w : StreamWorld) : AllInv json ⟨w, []⟩ := by
  intro consumer hmem
  simp at hmem

end ControlPlane
