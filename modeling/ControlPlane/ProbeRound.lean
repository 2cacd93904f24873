import ControlPlane.RawSignals

/-!
# One probe round

`probe_loop_once` reads all its targets' signals, probes, and then writes
result by result. The stores differ in how they report a model they have
nothing for. A view says what a store holds for a model and how its two
operations act on that (`JsonView`). Over any store that has one, a round
returns exactly where each target's content converts, and then it is what it
would be for each target alone (`probe_round_is_local`).

On entries with numbers only, as rounds themselves write them, nothing raises;
`SignalView` and `round_target` are for those.

A Redis key lives for ten minutes, so what a round wrote is read back within
that time.
-/

namespace ControlPlane

open Lib

/-- No two models share a key. -/
theorem signalKey_inj {a b : String} : signalKey a = signalKey b ↔ a = b :=
  String.append_right_inj _

/-- What a store has just written under a key, and what it left alone. -/
theorem RedisSignals.get_update_self (s : RedisSignals) {written now : ℤ} (modelId text : String)
    (hlt : now < written + signalTtlSeconds) :
    Expiring.get (Function.update s (signalKey modelId)
      (some ⟨text, some (written + signalTtlSeconds)⟩)) now (signalKey modelId) = some text := by
  refine Expiring.get_of_live (Function.update_self _ _ _) ?_
  intro deadline hdeadline
  obtain rfl := Option.some.inj hdeadline
  exact hlt

/-- A signal is read past another model's. -/
theorem RedisSignals.get_update_of_ne (s : RedisSignals) (entry : Option (Entry String ℤ))
    (now : ℤ) {modelId other : String} (hne : other ≠ modelId) :
    Expiring.get (Function.update s (signalKey modelId) entry) now (signalKey other)
      = s.get now (signalKey other) := by
  have hkey : signalKey other ≠ signalKey modelId := fun heq => hne (signalKey_inj.mp heq)
  exact Expiring.get_congr (Function.update_of_ne hkey _ _)

/-! ## Rounds over entries with numbers -/

/-- The signal a store holds for a model at an instant. `getSignals` reports
it, or nothing for the empty one; `setSignal` sets it for one model. -/
structure SignalView {S : Type} (store : SignalStore S) where
  holds : ℤ → S → String → Option SignalEntry
  get : ∀ now modelIds s modelId, modelId ∈ modelIds →
    (store.getSignals now modelIds s modelId).getD {} = (holds now s modelId).getD {}
  set_self : ∀ written now modelId signal s, written ≤ now → now < written + signalTtlSeconds →
    holds now (store.setSignal written modelId signal s) modelId = some signal
  set_of_ne : ∀ written now modelId signal s other, other ≠ modelId →
    holds now (store.setSignal written modelId signal s) other = holds now s other

/-- Signals in memory. -/
def InMemorySignals.view : SignalView InMemorySignals.store where
  holds _ signals modelId := signals.get? modelId
  get now modelIds signals modelId hmem := by
    show (if modelId ∈ modelIds then some ((signals.get? modelId).getD {}) else none).getD {} = _
    rw [if_pos hmem, Option.getD_some]
  set_self written now modelId signal signals _ _ := signals.get?_set_self modelId signal
  set_of_ne written now modelId signal signals other hne := signals.get?_set_of_ne hne signal

/-- Signals in Redis. -/
def RedisSignals.view (codec : SignalCodec)
    (hcodec : ∀ signal, codec.dumps signal ≠ "" ∧ codec.loads (codec.dumps signal) = some signal) :
    SignalView (RedisSignals.store codec) where
  holds now signals modelId := codec.decode (signals.get now (signalKey modelId))
  get now modelIds signals modelId hmem := by
    show (if modelId ∈ modelIds then codec.decode (signals.get now (signalKey modelId))
      else none).getD {} = _
    rw [if_pos hmem]
  set_self written now modelId signal signals _ hlt := by
    have hget := signals.get_update_self modelId (codec.dumps signal) hlt
    show codec.decode (Expiring.get (Function.update signals _ _) now _) = _
    rw [hget]
    unfold SignalCodec.decode
    rw [Option.bind_some, if_neg (hcodec signal).1, (hcodec signal).2]
  set_of_ne written now modelId signal signals other hne :=
    congrArg codec.decode (signals.get_update_of_ne _ now hne)

/-- A missing signal smooths as an empty one does. -/
theorem smoothSignal_getD (result : ProbeResult) {previous previous' : Option SignalEntry}
    (h : previous.getD {} = previous'.getD {}) :
    smoothSignal result previous = smoothSignal result previous' := by
  unfold smoothSignal
  rw [h]

section Round

variable {S : Type} {store : SignalStore S}

/-- What a round stores for a target: its result smoothed against what the
store held for it before. -/
def smoothedAlone (view : SignalView store) (clock : RoundClock)
    (measure : ProbeTarget → Measurement) (s : S) (target : ProbeTarget) : SignalEntry :=
  (smoothSignal (probeModel target.modelId target.provider (measure target))
    (view.holds clock.readAt s target.modelId)).entry

/-- The model a result is of, and the entry the round makes of it. -/
def typedWrite (existing : String → Option SignalEntry) (result : ProbeResult) :
    String × SignalEntry :=
  (result.modelId, (smoothSignal result (existing result.modelId)).entry)

variable (view : SignalView store) {clock : RoundClock} {measure : ProbeTarget → Measurement}
  {targets : List ProbeTarget} {s : S} {now : ℤ}

variable (measure) in
/-- A round's results are of its targets. -/
theorem map_modelId_results :
    (targets.map fun target => probeModel target.modelId target.provider (measure target)).map
      (·.modelId) = targets.map (·.modelId) := by
  rw [List.map_map]
  rfl

/-- A round leaves the other models alone. -/
theorem round_other {modelId : String} (h : modelId ∉ targets.map (·.modelId)) :
    view.holds now (probeLoopOnce store clock measure targets s).2 modelId
      = view.holds now s modelId := by
  rw [← map_modelId_results measure] at h
  have hwrites := lookup_writeUntil_of_notMem (view.set_of_ne clock.writeAt now)
    (fun result => (.ok (typedWrite (store.getSignals clock.readAt (targets.map (·.modelId)) s)
      result) : Except Empty _)) (·.modelId)
    (fun _ _ w hw => by rw [← Except.ok.inj hw]; rfl) h s
  rw [writeUntil_eq_foldl fun _ _ => rfl] at hwrites
  exact hwrites

/-- A target's signal is smoothed from its own result. -/
theorem round_target (hdistinct : (targets.map (·.modelId)).Nodup) {target : ProbeTarget}
    (htarget : target ∈ targets) (hle : clock.writeAt ≤ now)
    (hlt : now < clock.writeAt + signalTtlSeconds) :
    view.holds now (probeLoopOnce store clock measure targets s).2 target.modelId
      = some (smoothedAlone view clock measure s target) := by
  rw [← map_modelId_results measure] at hdistinct
  have hwritten := lookup_writeUntil_of_mem (view.set_of_ne clock.writeAt now)
    (fun result => (.ok (typedWrite (store.getSignals clock.readAt (targets.map (·.modelId)) s)
      result) : Except Empty _)) (·.modelId) some (fun _ _ => ⟨_, rfl⟩)
    (fun _ _ w hw => by rw [← Except.ok.inj hw]; rfl)
    (fun _ _ w _ s => view.set_self clock.writeAt now w.1 w.2 s hle hlt) hdistinct
    (List.mem_map.mpr ⟨target, htarget, rfl⟩) rfl s
  rw [writeUntil_eq_foldl fun _ _ => rfl] at hwritten
  have hread := view.get clock.readAt _ s target.modelId (List.mem_map_of_mem htarget)
  exact hwritten.trans
    (congrArg (fun signal : SmoothedSignal => some signal.entry) (smoothSignal_getD _ hread))

end Round

/-! ## Rounds over any content -/

/-- What reading a model's signal gives at an instant, or raises. `getSignals`
reports it, or nothing for an empty dictionary; `setSignal` sets it for one
model. -/
structure JsonView {S : Type} (store : JsonStore S) where
  held : ℤ → S → String → Except PyError (Option Json)
  get_ok : ∀ now modelIds s signals, store.getSignals now modelIds s = .ok signals →
    ∀ modelId ∈ modelIds, ∃ content, held now s modelId = .ok content
      ∧ (signals modelId).getD (.object []) = content.getD (.object [])
  get_error : ∀ now modelIds s err, store.getSignals now modelIds s = .error err →
    ∃ modelId ∈ modelIds, held now s modelId = .error err
  set_self : ∀ written now modelId (signal : WrittenSignal) s, written ≤ now →
    now < written + signalTtlSeconds →
    held now (store.setSignal written modelId signal.json s) modelId = .ok (some signal.json)
  set_of_ne : ∀ written now modelId signal s other, other ≠ modelId →
    held now (store.setSignal written modelId signal s) other = held now s other

/-- The same for entries as they are. -/
def InMemoryJson.view : JsonView InMemoryJson.store where
  held _ signals modelId := .ok (signals.get? modelId)
  get_ok now modelIds signals reported hget modelId hmem := by
    refine ⟨_, rfl, ?_⟩
    obtain rfl := Except.ok.inj hget
    show (if modelId ∈ modelIds then some (signals.get modelId (.object [])) else none).getD _ = _
    rw [if_pos hmem]
    rfl
  get_error now modelIds s err hget := by cases hget
  set_self written now modelId signal signals _ _ :=
    congrArg Except.ok (signals.get?_set_self modelId signal.json)
  set_of_ne written now modelId signal signals other hne :=
    congrArg Except.ok (signals.get?_set_of_ne hne signal)

section Report

variable {codec : JsonCodec} {now : ℤ} {s : RedisSignals} {modelIds : List String}

/-- A report is of decoded entries. -/
theorem RedisJson.report_ok {signals : String → Option Json}
    (h : RedisJson.report codec now s modelIds = .ok signals) :
    ∀ modelId ∈ modelIds, codec.decode (s.get now (signalKey modelId)) = .ok (signals modelId) := by
  induction modelIds generalizing signals with
  | nil => nofun
  | cons head modelIds ih =>
    obtain ⟨signal, hsignal, h⟩ := bind_eq_ok.mp h
    obtain ⟨rest, hrest, h⟩ := bind_eq_ok.mp h
    obtain rfl := Except.ok.inj h
    intro modelId hmem
    by_cases heq : modelId = head
    · subst heq
      rw [Function.update_self]
      exact hsignal
    · rw [Function.update_of_ne heq]
      exact ih hrest modelId (List.mem_of_ne_of_mem heq hmem)

/-- A report that raises met an entry that does not decode. -/
theorem RedisJson.report_error {err : PyError}
    (h : RedisJson.report codec now s modelIds = .error err) :
    ∃ modelId ∈ modelIds, codec.decode (s.get now (signalKey modelId)) = .error err := by
  induction modelIds with
  | nil => cases h
  | cons head modelIds ih =>
    unfold RedisJson.report at h
    cases hsignal : codec.decode (s.get now (signalKey head)) with
    | error first =>
      rw [hsignal] at h
      obtain rfl : first = err := Except.error.inj h
      exact ⟨head, List.mem_cons_self, hsignal⟩
    | ok signal =>
      rw [hsignal, ok_bind] at h
      cases hrest : RedisJson.report codec now s modelIds with
      | error later =>
        rw [hrest] at h
        obtain rfl : later = err := Except.error.inj h
        obtain ⟨modelId, hmem, herror⟩ := ih hrest
        exact ⟨modelId, List.mem_cons_of_mem head hmem, herror⟩
      | ok signals =>
        rw [hrest] at h
        cases h

end Report

/-- `dumps` and `loads` take a written signal there and back. -/
def RedisJson.view (codec : JsonCodec)
    (hcodec : ∀ signal : WrittenSignal, codec.dumps signal.json ≠ ""
      ∧ codec.loads (codec.dumps signal.json) = .ok signal.json) :
    JsonView (RedisJson.store codec) where
  held now s modelId := codec.decode (s.get now (signalKey modelId))
  get_ok now modelIds s signals hget modelId hmem :=
    ⟨_, RedisJson.report_ok hget modelId hmem, rfl⟩
  get_error now modelIds s err hget := RedisJson.report_error hget
  set_self written now modelId signal s _ hlt := by
    have hget := s.get_update_self modelId (codec.dumps signal.json) hlt
    show codec.decode (Expiring.get (Function.update s _ _) now _) = _
    rw [hget]
    unfold JsonCodec.decode
    dsimp only
    rw [if_neg (hcodec signal).1, (hcodec signal).2]
  set_of_ne written now modelId signal s other hne :=
    congrArg codec.decode (s.get_update_of_ne _ now hne)

section JsonRound

variable {S : Type} {store : JsonStore S} (view : JsonView store) (floats : Floats)
  (clock : RoundClock) (probing : Probing)

/-- What the round stores for a target: its result smoothed against what the
store held for it before. -/
def JsonView.smoothedAlone (s : S) (target : ProbeTarget) : Except PyError WrittenSignal := do
  let content ← view.held clock.readAt s target.modelId
  smoothJson floats (probing.result target) content

/-- What the store holds for a target can be read and converts. -/
def JsonView.Usable (s : S) (target : ProbeTarget) : Prop :=
  ∃ content, view.held clock.readAt s target.modelId = .ok content ∧ Convertible floats content

/-- A target is smoothed where its entry is usable. -/
theorem JsonView.smoothedAlone_returns_iff (s : S) (target : ProbeTarget) :
    (∃ signal, view.smoothedAlone floats clock probing s target = .ok signal)
      ↔ view.Usable floats clock s target := by
  unfold JsonView.smoothedAlone JsonView.Usable
  simp only [bind_eq_ok]
  rw [exists_comm]
  simp only [exists_and_left, smoothJson_returns_iff]

variable {clock} {targets : List ProbeTarget} {s : S}

/-- The content a target's write finds smooths as the one the store held. -/
theorem smoothedWrite_reported {existing : String → Option Json}
    (hget : store.getSignals clock.readAt (targets.map (·.modelId)) s = .ok existing)
    {target : ProbeTarget} (htarget : target ∈ targets) :
    smoothedWrite floats existing (probing.result target)
      = (view.smoothedAlone floats clock probing s target).map fun signal =>
          (target.modelId, signal.json) := by
  obtain ⟨content, hheld, hsame⟩ :=
    view.get_ok _ _ _ _ hget target.modelId (List.mem_map_of_mem htarget)
  unfold smoothedWrite JsonView.smoothedAlone
  rw [probing.modelId_result, hheld, ok_bind, smoothJson_getD floats _ hsame]

/-- Inside a round too. -/
theorem smoothedWrite_returns_iff {existing : String → Option Json}
    (hget : store.getSignals clock.readAt (targets.map (·.modelId)) s = .ok existing)
    {target : ProbeTarget} (htarget : target ∈ targets) :
    (∃ w, smoothedWrite floats existing (probing.result target) = .ok w)
      ↔ view.Usable floats clock s target := by
  rw [← view.smoothedAlone_returns_iff floats clock probing,
    smoothedWrite_reported view floats probing hget htarget]
  cases view.smoothedAlone floats clock probing s target with
  | error err => simp [Except.map]
  | ok signal => simp [Except.map]

/-- **When a round returns**: each target's content can be used. -/
theorem jsonRound_returns_iff (view : JsonView store) (floats : Floats) (clock : RoundClock)
    (probing : Probing) (targets : List ProbeTarget) (s : S) :
    (∃ results, (probeLoopOnceJson store floats clock probing targets s).1 = .ok results)
      ↔ ∀ target ∈ targets, view.Usable floats clock s target := by
  unfold probeLoopOnceJson
  cases hget : store.getSignals clock.readAt (targets.map (·.modelId)) s with
  | error err =>
    obtain ⟨modelId, hmem, herror⟩ := view.get_error _ _ _ _ hget
    obtain ⟨target, htarget, rfl⟩ := List.mem_map.mp hmem
    refine iff_of_false nofun fun h => ?_
    obtain ⟨content, hok, -⟩ := h target htarget
    rw [herror] at hok
    cases hok
  | ok existing =>
    have hends := writeUntil_ends_iff (smoothedWrite floats existing)
      (store.setSignal clock.writeAt) (targets.map probing.result) s
    rw [List.forall_mem_map] at hends
    have husable : (∀ target ∈ targets, ∃ w,
        smoothedWrite floats existing (probing.result target) = .ok w)
        ↔ ∀ target ∈ targets, view.Usable floats clock s target :=
      forall₂_congr fun target htarget => smoothedWrite_returns_iff view floats probing hget htarget
    rw [← husable, ← hends]
    dsimp only
    split
    next after hwrites => simp [hwrites]
    next err after hwrites => simp [hwrites]

/-- Where the store can be read at all, the round is its loop of writes. -/
theorem jsonRound_after {existing : String → Option Json}
    (hget : store.getSignals clock.readAt (targets.map (·.modelId)) s = .ok existing) :
    (probeLoopOnceJson store floats clock probing targets s).2
      = (writeUntil (smoothedWrite floats existing) (store.setSignal clock.writeAt)
          (targets.map probing.result) s).2 := by
  unfold probeLoopOnceJson
  rw [hget]
  dsimp only
  split
  next after hwrites => rw [hwrites]
  next err after hwrites => rw [hwrites]

variable {view} {floats} {probing}

/-- A round's results are of its targets. -/
theorem map_modelId_probing (probing : Probing) (targets : List ProbeTarget) :
    (targets.map probing.result).map (·.modelId) = targets.map (·.modelId) := by
  rw [List.map_map]
  exact List.map_congr_left fun target _ => probing.modelId_result target

/-- What is written is a signal of the result's model. -/
theorem smoothedWrite_modelId {existing : String → Option Json} {result : ProbeResult}
    {w : String × Json} (h : smoothedWrite floats existing result = .ok w) :
    w.1 = result.modelId ∧ ∃ signal : WrittenSignal, w.2 = signal.json := by
  unfold smoothedWrite at h
  cases hsmooth : smoothJson floats result (existing result.modelId) with
  | error err =>
    rw [hsmooth] at h
    cases h
  | ok signal =>
    rw [hsmooth] at h
    rw [← Except.ok.inj h]
    exact ⟨rfl, signal, rfl⟩

/-- A model that is no target is left alone, however the round ends. -/
theorem jsonRound_other (view : JsonView store) (now : ℤ) {modelId : String}
    (h : modelId ∉ targets.map (·.modelId)) :
    view.held now (probeLoopOnceJson store floats clock probing targets s).2 modelId
      = view.held now s modelId := by
  cases hget : store.getSignals clock.readAt (targets.map (·.modelId)) s with
  | error err =>
    unfold probeLoopOnceJson
    rw [hget]
  | ok existing =>
    rw [jsonRound_after floats probing hget]
    rw [← map_modelId_probing probing] at h
    exact lookup_writeUntil_of_notMem (view.set_of_ne clock.writeAt now) _ (·.modelId)
      (fun _ _ w hw => (smoothedWrite_modelId hw).1) h s

/-- A target holds its own smoothed signal, if the round returns. -/
theorem jsonRound_target (hdistinct : (targets.map (·.modelId)).Nodup)
    (husable : ∀ target ∈ targets, view.Usable floats clock s target) {target : ProbeTarget}
    (htarget : target ∈ targets) {now : ℤ} (hle : clock.writeAt ≤ now)
    (hlt : now < clock.writeAt + signalTtlSeconds) :
    ∃ signal, view.smoothedAlone floats clock probing s target = .ok signal
      ∧ view.held now (probeLoopOnceJson store floats clock probing targets s).2 target.modelId
        = .ok (some signal.json) := by
  obtain ⟨signal, hsignal⟩ :=
    (view.smoothedAlone_returns_iff floats clock probing s target).mpr (husable target htarget)
  refine ⟨signal, hsignal, ?_⟩
  cases hget : store.getSignals clock.readAt (targets.map (·.modelId)) s with
  | error err =>
    obtain ⟨results, hreturns⟩ := (jsonRound_returns_iff view floats clock probing targets s).mpr
      husable
    unfold probeLoopOnceJson at hreturns
    rw [hget] at hreturns
    cases hreturns
  | ok existing =>
    have hwrite := smoothedWrite_reported view floats probing hget htarget
    rw [hsignal] at hwrite
    rw [jsonRound_after floats probing hget]
    rw [← map_modelId_probing probing] at hdistinct
    have hheld := lookup_writeUntil_of_mem (view.set_of_ne clock.writeAt now)
      (smoothedWrite floats existing) (·.modelId) (fun json => Except.ok (some json))
      (List.forall_mem_map.mpr fun target htarget =>
        (smoothedWrite_returns_iff view floats probing hget htarget).mpr (husable target htarget))
      (fun _ _ w hw => (smoothedWrite_modelId hw).1)
      (by
        intro result _ w hw s
        obtain ⟨-, signal, hjson⟩ := smoothedWrite_modelId hw
        rw [hjson]
        exact view.set_self clock.writeAt now w.1 signal s hle hlt)
      hdistinct (List.mem_map_of_mem htarget) hwrite s
    rw [probing.modelId_result] at hheld
    exact hheld

end JsonRound

/-- Two readings that `smooth_and_store_signal` does not tell apart: nothing
counts as an empty dictionary. -/
def SameContent (x y : Except PyError (Option Json)) : Prop :=
  ∃ content content', x = .ok content ∧ y = .ok content'
    ∧ content.getD (.object []) = content'.getD (.object [])

/-- **A probe round is order-independent and local**, and returns exactly
where the content of each target can be used. -/
theorem probe_round_is_local {S : Type} {store : JsonStore S} (view : JsonView store)
    (floats : Floats) (clock : RoundClock) (probing : Probing) (targets : List ProbeTarget) (s : S)
    (hdistinct : (targets.map (·.modelId)).Nodup) :
    let round := probeLoopOnceJson store floats clock probing targets s
    ((∃ results, round.1 = .ok results)
      ↔ ∀ target ∈ targets, view.Usable floats clock s target)
    ∧ (∀ now, ∀ modelId ∉ targets.map (·.modelId),
        view.held now round.2 modelId = view.held now s modelId)
    ∧ ((∀ target ∈ targets, view.Usable floats clock s target) →
      ∀ now, clock.writeAt ≤ now → now < clock.writeAt + signalTtlSeconds →
        (∀ target ∈ targets, ∃ signal,
          view.smoothedAlone floats clock probing s target = .ok signal
          ∧ view.held now round.2 target.modelId = .ok (some signal.json))
        ∧ (∀ targets', targets.Perm targets' → ∀ modelId,
          view.held now (probeLoopOnceJson store floats clock probing targets' s).2 modelId
            = view.held now round.2 modelId)
        ∧ ∀ {S' : Type} {store' : JsonStore S'} (view' : JsonView store') (s' : S'),
          (∀ target ∈ targets, SameContent (view'.held clock.readAt s' target.modelId)
            (view.held clock.readAt s target.modelId)) →
          ∀ target ∈ targets,
            view'.held now (probeLoopOnceJson store' floats clock probing targets s').2
                target.modelId
              = view.held now round.2 target.modelId) := by
  intro round
  refine ⟨jsonRound_returns_iff view floats clock probing targets s,
    fun now modelId hother => jsonRound_other view now hother, ?_⟩
  intro husable now hle hlt
  have htarget : ∀ target ∈ targets, ∃ signal,
      view.smoothedAlone floats clock probing s target = .ok signal
      ∧ view.held now round.2 target.modelId = .ok (some signal.json) :=
    fun target htarget => jsonRound_target hdistinct husable htarget hle hlt
  refine ⟨htarget, ?_, ?_⟩
  · intro targets' hperm modelId
    have hids := hperm.map (·.modelId)
    by_cases hmem : modelId ∈ targets.map (·.modelId)
    · obtain ⟨target, hin, rfl⟩ := List.mem_map.mp hmem
      obtain ⟨signal, hsignal, hheld⟩ := htarget target hin
      obtain ⟨signal', hsignal', hheld'⟩ := jsonRound_target (hids.nodup_iff.mp hdistinct)
        (fun other hother => husable other (hperm.mem_iff.mpr hother)) (hperm.mem_iff.mp hin)
        hle hlt
      obtain rfl := Except.ok.inj (hsignal.symm.trans hsignal')
      exact hheld'.trans hheld.symm
    · have hmem' : modelId ∉ targets'.map (·.modelId) := fun hin => hmem (hids.mem_iff.mpr hin)
      exact (jsonRound_other view now hmem').trans (jsonRound_other view now hmem).symm
  · intro S' store' view' s' hsame
    have hsmooth : ∀ target ∈ targets, view'.smoothedAlone floats clock probing s' target
        = view.smoothedAlone floats clock probing s target := by
      intro target hin
      obtain ⟨content, content', hheld, hheld', hcontent⟩ := hsame target hin
      unfold JsonView.smoothedAlone
      rw [hheld, hheld', ok_bind, ok_bind, smoothJson_getD floats _ hcontent]
    have husable' : ∀ target ∈ targets, view'.Usable floats clock s' target := by
      intro target hin
      rw [← view'.smoothedAlone_returns_iff floats clock probing, hsmooth target hin,
        view.smoothedAlone_returns_iff floats clock probing]
      exact husable target hin
    intro target hin
    obtain ⟨signal, hsignal, hheld⟩ := htarget target hin
    obtain ⟨signal', hsignal', hheld'⟩ := jsonRound_target hdistinct husable' hin hle hlt
    rw [hsmooth target hin] at hsignal'
    obtain rfl := Except.ok.inj (hsignal.symm.trans hsignal')
    exact hheld'.trans hheld.symm

/-! ### Two targets -/

/-- Two models of one provider. -/
def twoTargets : List ProbeTarget :=
  ["lab/a", "lab/b"].map fun modelId =>
    { provider := "lab", modelId, target := buildProbePayload "https://example.invalid" "demo" "k" }

/-- The first line after a quarter of a second, whichever target. -/
def quarterSecond : Probing :=
  .ofMeasurements fun _ =>
    { chunks := [1 / 4]
      exception := none
      elapsed := 1 / 2
      observedAt := "2026-05-15T08:00:00Z" }

/-- Doubles, and no text that is a number. -/
def textless : Floats where
  arith := .machine
  ofText _ := none

/-- `lab/a` is there with half a second and with a text for the rate of
successes; `lab/b` is not. -/
def oneStored (successRate : Json) : JsonDict :=
  Dict.empty.set "lab/a" (.object [("ttfb_p50_ms", .number 500), ("success_rate", successRate)])

/-- A number kept under a key of a stored signal. -/
def storedNumber (signals : JsonDict) (modelId key : String) : Option ℚ :=
  match signals.get? modelId with
  | some (.object fields) =>
    match fields.lookup key with
    | some (.number q) => some q
    | _ => none
  | _ => none

/-- What smoothing makes of a target's p50. -/
def roundP50 (signals : JsonDict) (target : ProbeTarget) : Except PyError ℤ :=
  (InMemoryJson.view.smoothedAlone textless ⟨0, 1⟩ quarterSecond signals target).map (·.ttfbP50Ms)

/-- The p50 is that of the smoothed signal. -/
theorem roundP50_eq_ok {signals : JsonDict} {target : ProbeTarget} {z : ℤ}
    (h : roundP50 signals target = .ok z) : ∃ signal : WrittenSignal,
      InMemoryJson.view.smoothedAlone textless ⟨0, 1⟩ quarterSecond signals target = .ok signal
      ∧ signal.ttfbP50Ms = z := by
  unfold roundP50 at h
  cases hsmooth : InMemoryJson.view.smoothedAlone textless ⟨0, 1⟩ quarterSecond signals target with
  | error err =>
    rw [hsmooth] at h
    cases h
  | ok signal =>
    rw [hsmooth] at h
    exact ⟨signal, rfl, Except.ok.inj h⟩

/-- The one stored at 500 ms moves to 425, the new one starts at 250. -/
theorem probe_round_is_local_two :
    ∃ after : JsonDict, storedNumber after "lab/a" "ttfb_p50_ms" = some 425
      ∧ storedNumber after "lab/b" "ttfb_p50_ms" = some 250
      ∧ after.get? "lab/c" = none := by
  let signals := oneStored (.number 1)
  have hp50 : twoTargets.map (roundP50 signals) = [.ok 425, .ok 250] := by decide +kernel
  obtain ⟨ha, hb, -⟩ : roundP50 signals _ = .ok 425 ∧ roundP50 signals _ = .ok 250 ∧ True := by
    simpa [twoTargets] using hp50
  obtain ⟨-, hother, hround⟩ := probe_round_is_local InMemoryJson.view textless ⟨0, 1⟩
    quarterSecond twoTargets signals (by decide)
  have husable : ∀ target ∈ twoTargets,
      InMemoryJson.view.Usable textless ⟨0, 1⟩ signals target := by
    intro target htarget
    rw [← InMemoryJson.view.smoothedAlone_returns_iff textless ⟨0, 1⟩ quarterSecond]
    have hmem := List.mem_map_of_mem (f := roundP50 signals) htarget
    rw [hp50, List.mem_cons, List.mem_singleton] at hmem
    rcases hmem with h | h
    · exact (roundP50_eq_ok h).imp fun _ hsignal => hsignal.1
    · exact (roundP50_eq_ok h).imp fun _ hsignal => hsignal.1
  obtain ⟨htarget, -, -⟩ := hround husable 1 le_rfl (by decide)
  have hstored : ∀ target ∈ twoTargets, ∀ z, roundP50 signals target = .ok z →
      storedNumber (probeLoopOnceJson InMemoryJson.store textless ⟨0, 1⟩ quarterSecond twoTargets
        signals).2 target.modelId "ttfb_p50_ms" = some z := by
    intro target hin z h
    obtain ⟨signal, hsignal, hheld⟩ := htarget target hin
    obtain ⟨signal', hsignal', rfl⟩ := roundP50_eq_ok h
    obtain rfl := Except.ok.inj (hsignal.symm.trans hsignal')
    unfold storedNumber
    rw [show Dict.get? _ target.modelId = _ from Except.ok.inj hheld]
    rfl
  refine ⟨_, hstored _ List.mem_cons_self _ ha,
    hstored _ (List.mem_cons_of_mem _ List.mem_cons_self) _ hb, ?_⟩
  exact Except.ok.inj (hother 1 "lab/c" (by decide))

/-- A text that is no number stops the round at its target, and so the order
of the targets decides what is written. -/
theorem text_stops_round :
    let signals := oneStored (.string "n/a")
    let round := probeLoopOnceJson InMemoryJson.store textless ⟨0, 1⟩ quarterSecond
    (round twoTargets signals).1 = .error .valueError
      ∧ (round twoTargets signals).2.get? "lab/b" = none
      ∧ storedNumber (round twoTargets.reverse signals).2 "lab/b" "ttfb_p50_ms" = some 250 := by
  refine ⟨?_, ?_, ?_⟩
  · decide +kernel
  · decide +kernel
  · decide +kernel

end ControlPlane
