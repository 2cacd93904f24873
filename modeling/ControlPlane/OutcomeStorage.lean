import ControlPlane.Lib.Serving
import ControlPlane.Traces

/-!
# Outcome storage is first-writer-wins

`record_outcome` of the store, called again and again on its own: no slots,
no spend, no events, the transactions one after another. A column takes an
integer in its range and a text of its length; the schema of an outcome
bounds neither from above, so a report of an open decision may raise when the
session is flushed, and is then rolled back. The first report of an open
decision that the columns take sets its row and its attempts; every later
one, under whatever key and with whatever content, is answered from that row
and writes nothing; and a report of one decision never touches the row or the
attempts of another.

Uniqueness of decision ids plays no part: `session.get` returns one row and
the attempts go by the id.

Mirroring notes:
- What a database does with a value of a column is a parameter (`Columns`).
- The values of a `Literal` are shorter than their columns.
-/

namespace ControlPlane

open Lib

/-! ## Columns -/

/-- What a column does with a value: `Integer` takes it or raises, and so does
`String(n)`, which keeps what `cut` leaves of a text. -/
structure Columns where
  takesInteger : ℕ → Bool
  takesText : ℕ → String → Bool
  cut : ℕ → String → String

/-- `integer` and `character varying(n)` of PostgreSQL: four bytes; no NUL,
and nothing but blanks, which are dropped, past the `n`-th character. -/
def Columns.postgres : Columns where
  takesInteger z := decide (z < 2 ^ 31)
  takesText n s := decide (Char.ofNat 0 ∉ s.toList) && (s.toList.drop n).all (· = ' ')
  cut n s := String.ofList (s.toList.take n)

/-! ## Calls on the store -/

/-- The arguments of one `record_outcome`. -/
structure StoreCall where
  record : RoutingDecisionRecord
  outcome : RoutingOutcomeRequest
  idempotencyKey : Option String

/-- The decision a call reports on. -/
def StoreCall.decisionId (call : StoreCall) : String :=
  call.record.decisionId

namespace Columns

variable (columns : Columns)

/-- The integers and the texts of an attempt, by the columns of
`routing_attempts`. -/
def takesAttempt (attempt : OutcomeAttempt) : Bool :=
  [attempt.rank, attempt.latencyMs, attempt.inputTokens, attempt.outputTokens].all
      columns.takesInteger
    && columns.takesText 128 attempt.provider && columns.takesText 256 attempt.modelId
    && attempt.errorClass.all (columns.takesText 128)

/-- The attempt as the columns keep it. -/
def cutAttempt (attempt : OutcomeAttempt) : OutcomeAttempt :=
  { attempt with
    provider := columns.cut 128 attempt.provider
    modelId := columns.cut 256 attempt.modelId
    errorClass := attempt.errorClass.map (columns.cut 128) }

/-- The columns of `routing_attempts` and `routing_decisions` take the
report, so the flush does not raise. -/
def takes (call : StoreCall) : Bool :=
  call.outcome.attempts.all columns.takesAttempt
    && columns.takesInteger call.outcome.fallbackDepth
    && call.outcome.finalModelId.all (columns.takesText 256)
    && call.idempotencyKey.all (columns.takesText 256)

/-- What they keep of its outcome. -/
def cutOutcome (outcome : RoutingOutcomeRequest) : RoutingOutcomeRequest :=
  { outcome with
    attempts := outcome.attempts.map columns.cutAttempt
    finalModelId := outcome.finalModelId.map (columns.cut 256)
    attempts_ne := by simpa using outcome.attempts_ne }

end Columns

/-- One call as a transaction: committed, or rolled back by its exception.
The flush sees what was put into the session; a duplicate puts nothing. -/
def serveOutcome (columns : Columns) (tables : Tables) (call : StoreCall) :
    Tables × Except ServiceError RoutingOutcomeResponse :=
  match recordOutcome call.record call.outcome call.idempotencyKey tables with
  | .error err => (tables, .error err)
  | .ok (_, response) =>
    match response.outcomeStatus with
    | .duplicate => (tables, .ok response)
    | .recorded =>
      if columns.takes call then
        (tables.storeOutcome call.decisionId (columns.cutOutcome call.outcome)
          (call.idempotencyKey.map (columns.cut 256)), .ok response)
      else (tables, .error .unavailable)

/-! ## What is kept -/

/-- What is kept answers as what was sent. -/
theorem Columns.recordedResponse_cut (columns : Columns) (decisionId : String)
    (outcome : RoutingOutcomeRequest) :
    recordedResponse decisionId (columns.cutOutcome outcome)
      = recordedResponse decisionId outcome := by
  simp [recordedResponse, Columns.cutOutcome]

/-- No text of the report is longer than its column. -/
structure StoreCall.Short (call : StoreCall) : Prop where
  attempts : ∀ attempt ∈ call.outcome.attempts, attempt.provider.length ≤ 128
    ∧ attempt.modelId.length ≤ 256 ∧ ∀ text, attempt.errorClass = some text → text.length ≤ 128
  finalModelId : ∀ text, call.outcome.finalModelId = some text → text.length ≤ 256
  idempotencyKey : ∀ text, call.idempotencyKey = some text → text.length ≤ 256

/-- PostgreSQL keeps a text that fits. -/
theorem Columns.postgres_cut {n : ℕ} {s : String} (h : s.length ≤ n) :
    Columns.postgres.cut n s = s := by
  have hlength : s.toList.length ≤ n := by rwa [String.length_toList]
  show String.ofList (s.toList.take n) = s
  rw [List.take_of_length_le hlength, String.ofList_toList]

/-- And one that may be missing. -/
theorem Columns.postgres_map_cut {n : ℕ} {s : Option String}
    (h : ∀ text, s = some text → text.length ≤ n) : s.map (Columns.postgres.cut n) = s := by
  cases s with
  | none => rfl
  | some text => rw [Option.map_some, Columns.postgres_cut (h text rfl)]

/-- A report with short texts is kept as it is. -/
theorem StoreCall.Short.cut {call : StoreCall} (h : call.Short) :
    Columns.postgres.cutOutcome call.outcome = call.outcome
    ∧ call.idempotencyKey.map (Columns.postgres.cut 256) = call.idempotencyKey := by
  have hattempt : ∀ attempt ∈ call.outcome.attempts,
      Columns.postgres.cutAttempt attempt = attempt := by
    intro attempt hmem
    obtain ⟨hprovider, hmodelId, herrorClass⟩ := h.attempts attempt hmem
    unfold Columns.cutAttempt
    rw [Columns.postgres_cut hprovider, Columns.postgres_cut hmodelId,
      Columns.postgres_map_cut herrorClass]
  have hattempts : call.outcome.attempts.map Columns.postgres.cutAttempt
      = call.outcome.attempts := by
    rw [List.map_congr_left hattempt, List.map_id']
  refine ⟨?_, Columns.postgres_map_cut h.idempotencyKey⟩
  unfold Columns.cutOutcome
  simp only [hattempts, Columns.postgres_map_cut h.finalModelId]

/-! ## What a call does -/

/-- The decision rows under an id. -/
def Tables.rowsOf (tables : Tables) (decisionId : String) : List RoutingDecisionRecord :=
  tables.decisions.filter (·.decisionId = decisionId)

/-- The attempt rows under an id. -/
def Tables.attemptsOf (tables : Tables) (decisionId : String) : List RoutingAttemptRecord :=
  tables.attempts.filter (·.decisionId = decisionId)

/-- The context of a decision is its first row. -/
theorem Tables.getDecisionContext_eq (tables : Tables) (decisionId : String) :
    tables.getDecisionContext decisionId = (tables.rowsOf decisionId).head? :=
  List.head?_filter.symm

section Serve

variable (columns : Columns) (tables : Tables) (call : StoreCall)

/-- A call finds no decision, a closed one, or an open one, and then its
values are taken or not. -/
theorem serveOutcome_cases :
    (tables.getDecisionContext call.decisionId = none
      ∧ serveOutcome columns tables call = (tables, .error (.lookupError call.decisionId)))
    ∨ (∃ decision payload, tables.getDecisionContext call.decisionId = some decision
      ∧ decision.outcomePayload = some payload
      ∧ serveOutcome columns tables call = (tables, .ok (duplicateOutcomePayload payload)))
    ∨ ∃ decision, tables.getDecisionContext call.decisionId = some decision
      ∧ decision.outcomePayload = none
      ∧ ((columns.takes call = true
          ∧ serveOutcome columns tables call
            = (tables.storeOutcome call.decisionId (columns.cutOutcome call.outcome)
                (call.idempotencyKey.map (columns.cut 256)),
              .ok (recordedResponse call.decisionId call.outcome)))
        ∨ (columns.takes call = false
          ∧ serveOutcome columns tables call = (tables, .error .unavailable))) := by
  unfold serveOutcome StoreCall.decisionId
  rcases recordOutcome_cases call.record call.outcome call.idempotencyKey tables with
    ⟨hnone, hrec⟩ | ⟨decision, payload, hctx, hpay, hrec⟩ | ⟨decision, hctx, hopen, hrec⟩
  · exact .inl ⟨hnone, by rw [hrec]⟩
  · exact .inr (.inl ⟨decision, payload, hctx, hpay, by rw [hrec]; rfl⟩)
  · refine .inr (.inr ⟨decision, hctx, hopen, ?_⟩)
    rw [hrec]
    cases htakes : columns.takes call with
    | true => exact .inl ⟨rfl, if_pos rfl⟩
    | false => exact .inr ⟨rfl, if_neg (by simp)⟩

/-- A call that raises leaves the store as it was. -/
theorem serveOutcome_raises {err : ServiceError}
    (h : (serveOutcome columns tables call).2 = .error err) :
    (serveOutcome columns tables call).1 = tables := by
  rcases serveOutcome_cases columns tables call with
    ⟨-, hserve⟩ | ⟨decision, payload, -, -, hserve⟩ | ⟨decision, -, -, ⟨-, hserve⟩ | ⟨-, hserve⟩⟩
  · rw [hserve]
  · rw [hserve]
  · rw [hserve] at h
    cases h
  · rw [hserve]

end Serve

/-! ## The frame -/

/-- The rows of other decisions stay. -/
theorem Tables.rowsOf_storeOutcome {tables : Tables} {decisionId other : String}
    (hne : other ≠ decisionId) (outcome : RoutingOutcomeRequest)
    (idempotencyKey : Option String) :
    (tables.storeOutcome decisionId outcome idempotencyKey).rowsOf other
      = tables.rowsOf other := by
  unfold rowsOf storeOutcome
  dsimp only
  induction tables.decisions with
  | nil => rfl
  | cons row rows ih =>
    rw [List.map_cons]
    by_cases hrow : row.decisionId = decisionId
    · -- A completed row keeps its id, which is not the other one.
      have hold : row.decisionId ≠ other := fun h => hne (h.symm.trans hrow)
      have hnew : (row.complete outcome idempotencyKey).decisionId ≠ other := hold
      rw [if_pos hrow, List.filter_cons_of_neg (by simpa using hnew),
        List.filter_cons_of_neg (by simpa using hold), ih]
    · rw [if_neg hrow, List.filter_cons, List.filter_cons, ih]

/-- So do their attempts. -/
theorem Tables.attemptsOf_storeOutcome {tables : Tables} {decisionId other : String}
    (hne : other ≠ decisionId) (outcome : RoutingOutcomeRequest)
    (idempotencyKey : Option String) :
    (tables.storeOutcome decisionId outcome idempotencyKey).attemptsOf other
      = tables.attemptsOf other := by
  have hnew : (outcome.attempts.map (attemptRecord decisionId)).filter
      (fun attempt => attempt.decisionId = other) = [] := by
    rw [List.filter_eq_nil_iff]
    intro attempt hattempt
    obtain ⟨source, -, rfl⟩ := List.mem_map.mp hattempt
    have hid : (attemptRecord decisionId source).decisionId = decisionId := rfl
    simpa [hid] using hne.symm
  have hold : (tables.attempts.filter (·.decisionId ≠ decisionId)).filter
      (fun attempt => attempt.decisionId = other) = tables.attemptsOf other := by
    rw [List.filter_filter]
    apply List.filter_congr
    intro attempt _
    by_cases hattempt : attempt.decisionId = other
    · simp [hattempt, hne]
    · simp [hattempt]
  unfold attemptsOf storeOutcome
  rw [List.filter_append, hnew, List.append_nil]
  exact hold

/-- What a call on one decision leaves of the rest of the store. -/
structure Framed (tables tables' : Tables) (decisionId : String) : Prop where
  rows : ∀ other, other ≠ decisionId → tables'.rowsOf other = tables.rowsOf other
  attempts : ∀ other, other ≠ decisionId → tables'.attemptsOf other = tables.attemptsOf other
  catalogVersions : tables'.catalogVersions = tables.catalogVersions
  policies : tables'.policies = tables.policies

/-- Nothing has changed at first. -/
theorem Framed.refl (tables : Tables) (decisionId : String) : Framed tables tables decisionId :=
  ⟨fun _ _ => rfl, fun _ _ => rfl, rfl, rfl⟩

/-- A call changes rows and attempts of its own decision only. -/
theorem serveOutcome_framed (columns : Columns) (tables : Tables) (call : StoreCall) :
    Framed tables (serveOutcome columns tables call).1 call.decisionId := by
  rcases serveOutcome_cases columns tables call with
    ⟨-, hserve⟩ | ⟨decision, payload, -, -, hserve⟩ | ⟨decision, -, -, ⟨-, hserve⟩ | ⟨-, hserve⟩⟩
  · rw [hserve]
    exact Framed.refl tables _
  · rw [hserve]
    exact Framed.refl tables _
  · rw [hserve]
    exact ⟨fun other hne => Tables.rowsOf_storeOutcome hne _ _,
      fun other hne => Tables.attemptsOf_storeOutcome hne _ _, rfl, rfl⟩
  · rw [hserve]
    exact Framed.refl tables _

/-- A report the columns do not take writes nothing, whatever it finds. -/
theorem serveOutcome_refused {columns : Columns} {call : StoreCall}
    (h : columns.takes call = false) (tables : Tables) :
    (serveOutcome columns tables call).1 = tables := by
  rcases serveOutcome_cases columns tables call with
    ⟨-, hserve⟩ | ⟨decision, payload, -, -, hserve⟩ | ⟨decision, -, -, ⟨htakes, -⟩ | ⟨-, hserve⟩⟩
  · rw [hserve]
  · rw [hserve]
  · rw [h] at htakes
    cases htakes
  · rw [hserve]

/-- The call does not write to a decision: it is about another, or not
taken. -/
def StoreCall.Spares (columns : Columns) (call : StoreCall) (decisionId : String) : Prop :=
  call.decisionId ≠ decisionId ∨ columns.takes call = false

/-- Calls that do not write to a decision leave it as it is. -/
theorem serveAll_spares {columns : Columns} {calls : List StoreCall} {decisionId : String}
    (hspares : ∀ call ∈ calls, call.Spares columns decisionId) (tables : Tables) :
    (serveAll (serveOutcome columns) tables calls).rowsOf decisionId = tables.rowsOf decisionId
    ∧ (serveAll (serveOutcome columns) tables calls).attemptsOf decisionId
        = tables.attemptsOf decisionId := by
  refine serveAll_induction (fun tables' : Tables =>
    tables'.rowsOf decisionId = tables.rowsOf decisionId
    ∧ tables'.attemptsOf decisionId = tables.attemptsOf decisionId) ?_ ?_
  · intro tables' call hcall hsame
    rcases hspares call hcall with hne | hrefused
    · have hframe := serveOutcome_framed columns tables' call
      exact ⟨(hframe.rows _ hne.symm).trans hsame.1, (hframe.attempts _ hne.symm).trans hsame.2⟩
    · rw [serveOutcome_refused hrefused]
      exact hsame
  · exact ⟨rfl, rfl⟩

/-! ## The first outcome -/

/-- The store holds `outcome` for the decision: its row completed by it, and
its attempts the attempt rows. -/
structure HoldsOutcome (tables : Tables) (decision : RoutingDecisionRecord)
    (outcome : RoutingOutcomeRequest) (idempotencyKey : Option String) : Prop where
  row : tables.getDecisionContext decision.decisionId
    = some (decision.complete outcome idempotencyKey)
  attempts : tables.attemptsOf decision.decisionId
    = outcome.attempts.map (attemptRecord decision.decisionId)

section Holds

variable {columns : Columns} {tables : Tables} {decision : RoutingDecisionRecord}
  {outcome : RoutingOutcomeRequest} {idempotencyKey : Option String}

/-- A call on a decision that holds an outcome is answered from it and writes
nothing. -/
theorem HoldsOutcome.answered (h : HoldsOutcome tables decision outcome idempotencyKey)
    {call : StoreCall} (hcall : call.decisionId = decision.decisionId) :
    serveOutcome columns tables call = (tables, .ok (duplicateOutcomePayload
      (recordedResponse decision.decisionId outcome))) := by
  have hrow := h.row
  rw [← hcall] at hrow
  rcases serveOutcome_cases columns tables call with
    ⟨hnone, -⟩ | ⟨found, payload, hctx, hpay, hserve⟩ | ⟨found, hctx, hopen, -⟩
  · rw [hrow] at hnone
    cases hnone
  · rw [hrow, Option.some.injEq] at hctx
    subst hctx
    have hpayload : payload = recordedResponse decision.decisionId outcome := by
      simpa [RoutingDecisionRecord.complete] using hpay.symm
    rw [hserve, hpayload]
  · rw [hrow, Option.some.injEq] at hctx
    subst hctx
    simp [RoutingDecisionRecord.complete] at hopen

/-- No call takes an outcome back. -/
theorem HoldsOutcome.kept (h : HoldsOutcome tables decision outcome idempotencyKey)
    (call : StoreCall) :
    HoldsOutcome (serveOutcome columns tables call).1 decision outcome idempotencyKey := by
  by_cases hcall : call.decisionId = decision.decisionId
  · rw [h.answered hcall]
    exact h
  · have hframe := serveOutcome_framed columns tables call
    have hne : decision.decisionId ≠ call.decisionId := fun heq => hcall heq.symm
    refine ⟨?_, ?_⟩
    · rw [Tables.getDecisionContext_eq, hframe.rows _ hne, ← Tables.getDecisionContext_eq]
      exact h.row
    · rw [hframe.attempts _ hne]
      exact h.attempts

end Holds

/-- The call that finds the decision open stores its outcome, or raises. -/
theorem serveOutcome_open (columns : Columns) {tables : Tables}
    {decision : RoutingDecisionRecord} {call : StoreCall}
    (hstored : tables.getDecisionContext call.decisionId = some decision)
    (hopen : decision.outcomePayload = none) :
    (columns.takes call = false
      → serveOutcome columns tables call = (tables, .error .unavailable))
    ∧ (columns.takes call = true →
      (serveOutcome columns tables call).2 = .ok (recordedResponse decision.decisionId call.outcome)
      ∧ HoldsOutcome (serveOutcome columns tables call).1 decision
          (columns.cutOutcome call.outcome) (call.idempotencyKey.map (columns.cut 256))) := by
  have hid : decision.decisionId = call.decisionId := (Tables.getDecisionContext_some hstored).2
  rcases serveOutcome_cases columns tables call with
    ⟨hnone, -⟩ | ⟨found, payload, hctx, hpay, -⟩ |
      ⟨found, -, -, ⟨htakes, hserve⟩ | ⟨htakes, hserve⟩⟩
  · rw [hstored] at hnone
    cases hnone
  · rw [hstored, Option.some.injEq] at hctx
    rw [← hctx, hopen] at hpay
    cases hpay
  · rw [htakes]
    refine ⟨nofun, fun _ => ?_⟩
    rw [hserve, hid]
    refine ⟨rfl, ?_, ?_⟩
    · rw [hid]
      exact Tables.getDecisionContext_storeOutcome hstored
    · rw [hid]
      exact Tables.attempts_storeOutcome
  · rw [htakes]
    exact ⟨fun _ => hserve, nofun⟩

/-! ## What is stored is never a duplicate -/

/-- Every stored response is one that was recorded. -/
def RecordedOnly (tables : Tables) : Prop :=
  ∀ record ∈ tables.decisions, ∀ payload, record.outcomePayload = some payload →
    payload.outcomeStatus = .recorded

/-- A call keeps attempts to recorded outcomes. -/
theorem RecordedOnly.kept {tables : Tables} (h : RecordedOnly tables) (columns : Columns)
    (call : StoreCall) : RecordedOnly (serveOutcome columns tables call).1 := by
  rcases serveOutcome_cases columns tables call with
    ⟨-, hserve⟩ | ⟨decision, payload, -, -, hserve⟩ | ⟨decision, -, -, ⟨-, hserve⟩ | ⟨-, hserve⟩⟩
  · rwa [hserve]
  · rwa [hserve]
  · rw [hserve]
    intro record hrecord payload hpayload
    obtain ⟨row, hrow, rfl⟩ := List.mem_map.mp hrecord
    split at hpayload
    next =>
      rw [RoutingDecisionRecord.complete, Option.some.injEq] at hpayload
      rw [← hpayload]
      rfl
    next => exact h row hrow payload hpayload
  · rwa [hserve]

/-- A created decision has no outcome yet. -/
theorem RecordedOnly.created {tables tables' : Tables} (h : RecordedOnly tables)
    {principal : AgentPrincipal} {request : RoutingDecisionRequest}
    {response : RoutingDecisionResponse} {idempotencyKey : Option String}
    (hcreate : createDecision principal request response idempotencyKey tables = .ok tables') :
    RecordedOnly tables' := by
  rw [(createDecision_ok hcreate).1]
  intro record hrecord payload hpayload
  rcases List.mem_append.mp hrecord with hold | hnew
  · exact h record hold payload hpayload
  · rw [List.mem_singleton] at hnew
    rw [hnew, decisionRecord] at hpayload
    simp at hpayload

/-- **Outcome storage is first-writer-wins with a frame.** The first writer
is the first whose report the columns take. -/
theorem outcome_first_writer_wins (columns : Columns) (tables : Tables) :
    (∀ (before : List StoreCall) (call : StoreCall) (after : List StoreCall)
        (decision : RoutingDecisionRecord),
      tables.getDecisionContext call.decisionId = some decision →
      decision.outcomePayload = none →
      (∀ earlier ∈ before, earlier.Spares columns call.decisionId) →
      let found := serveAll (serveOutcome columns) tables before
      let served := serveAll (serveOutcome columns) tables (before ++ call :: after)
      let first := recordedResponse decision.decisionId call.outcome
      (columns.takes call = false →
        serveOutcome columns found call = (found, .error .unavailable))
      ∧ (columns.takes call = true →
        (serveOutcome columns found call).2 = .ok first
        ∧ HoldsOutcome served decision (columns.cutOutcome call.outcome)
            (call.idempotencyKey.map (columns.cut 256))
        ∧ (served.attemptsOf decision.decisionId).length = first.attemptsRecorded
        ∧ ∀ later : StoreCall, later.decisionId = decision.decisionId →
            serveOutcome columns served later = (served, .ok (duplicateOutcomePayload first))))
    ∧ (∀ (calls : List StoreCall) (call : StoreCall),
        Framed (serveAll (serveOutcome columns) tables calls)
          (serveOutcome columns (serveAll (serveOutcome columns) tables calls) call).1
          call.decisionId)
    ∧ (RecordedOnly tables →
        ∀ calls, RecordedOnly (serveAll (serveOutcome columns) tables calls))
    ∧ ∀ call : StoreCall, call.Short →
        Columns.postgres.cutOutcome call.outcome = call.outcome
        ∧ call.idempotencyKey.map (Columns.postgres.cut 256) = call.idempotencyKey := by
  refine ⟨?_, fun calls call => serveOutcome_framed columns _ call, ?_, fun call h => h.cut⟩
  · intro before call after decision hstored hopen hspares found served first
    -- Nothing has touched the decision when its first report comes.
    have hsame := (serveAll_spares hspares tables).1
    have hstored' : found.getDecisionContext call.decisionId = some decision := by
      rw [Tables.getDecisionContext_eq, hsame, ← Tables.getDecisionContext_eq]
      exact hstored
    obtain ⟨hrefused, htaken⟩ := serveOutcome_open columns hstored' hopen
    refine ⟨hrefused, fun htakes => ?_⟩
    obtain ⟨hreply, hholds⟩ := htaken htakes
    have hserved : HoldsOutcome served decision (columns.cutOutcome call.outcome)
        (call.idempotencyKey.map (columns.cut 256)) := by
      show HoldsOutcome (serveAll (serveOutcome columns) tables (before ++ call :: after)) _ _ _
      rw [serveAll_append, serveAll_cons]
      exact serveAll_induction (fun tables' => HoldsOutcome tables' decision
        (columns.cutOutcome call.outcome) (call.idempotencyKey.map (columns.cut 256)))
        (fun tables' later _ h => h.kept later) hholds
    refine ⟨hreply, hserved, ?_, ?_⟩
    · rw [hserved.attempts, List.length_map]
      exact List.length_map _
    · intro later hlater
      rw [hserved.answered hlater, columns.recordedResponse_cut]
  · intro h calls
    exact serveAll_induction RecordedOnly (fun tables' call _ h => h.kept columns call) h

/-- A report of the lab's decision without a key. -/
def labStoreCall (record : RoutingDecisionRecord) (outcome : RoutingOutcomeRequest) :
    StoreCall where
  record
  outcome
  idempotencyKey := none

/-- The columns take the report of a cent. -/
theorem labStoreCall_taken (record : RoutingDecisionRecord) :
    Columns.postgres.takes (labStoreCall record (labOutcome "a" (1 / 100))) = true := by
  have hattempt : Columns.postgres.takesAttempt (labAttempt (1 / 100)) = true := by decide +kernel
  have hdepth : Columns.postgres.takesInteger 0 = true := by decide
  unfold Columns.takes labStoreCall labOutcome
  simp only [List.all_cons, List.all_nil, hattempt, hdepth, Option.all_none, Bool.and_true]

/-- Its texts are short. -/
theorem labStoreCall_short (record : RoutingDecisionRecord) :
    (labStoreCall record (labOutcome "a" (1 / 100))).Short where
  attempts := by
    intro attempt hmem
    obtain rfl : attempt = labAttempt (1 / 100) := List.mem_singleton.mp hmem
    exact ⟨by decide, by decide, nofun⟩
  finalModelId := nofun
  idempotencyKey := nofun

/-- The lab's one decision, reported twice at different costs. -/
theorem outcome_first_writer_wins_lab :
    ∃ decision, answeredWorld.tables.getDecisionContext "a" = some decision
      ∧ HoldsOutcome (serveAll (serveOutcome .postgres) answeredWorld.tables
          [labStoreCall decision (labOutcome "a" (1 / 100)),
            labStoreCall decision (labOutcome "a" (1 / 50))])
        decision (labOutcome "a" (1 / 100)) none
      ∧ RecordedOnly (serveAll (serveOutcome .postgres) answeredWorld.tables
          [labStoreCall decision (labOutcome "a" (1 / 100))]) := by
  have hopen : (answeredWorld.tables.getDecisionContext "a").map (·.outcomePayload)
      = some none := by decide +kernel
  have hnone : answeredWorld.tables.decisions.map (·.outcomePayload) = [none] := by
    decide +kernel
  obtain ⟨decision, hstored, hpayload⟩ := Option.map_eq_some_iff.mp hopen
  have hid := (Tables.getDecisionContext_some hstored).2
  have hrecorded : RecordedOnly answeredWorld.tables := by
    intro record hrecord payload hpay
    have hmem : record.outcomePayload ∈ answeredWorld.tables.decisions.map (·.outcomePayload) :=
      List.mem_map_of_mem hrecord
    rw [hnone, List.mem_singleton, hpay] at hmem
    simp at hmem
  have hstored' : answeredWorld.tables.getDecisionContext decision.decisionId
      = some decision := by
    rw [hid]
    exact hstored
  obtain ⟨hfirst, -, hrecords, hshort⟩ := outcome_first_writer_wins .postgres answeredWorld.tables
  have hcut := (hshort _ (labStoreCall_short decision)).1
  have hholds := ((hfirst [] (labStoreCall decision (labOutcome "a" (1 / 100)))
    [labStoreCall decision (labOutcome "a" (1 / 50))] decision hstored' hpayload (by simp)).2
    (labStoreCall_taken decision)).2.1
  rw [hcut] at hholds
  exact ⟨decision, hstored, hholds, hrecords hrecorded _⟩

/-- A rank that `Integer` does not take. -/
def hugeRank : RoutingOutcomeRequest :=
  { reportCall.outcome with
    attempts := [{ labAttempt (1 / 100) with rank := 2 ^ 31 }]
    attempts_ne := nofun }

/-- It was reported first; what is stored is the second report. -/
theorem first_report_lost :
    (answeredWorld.tables.getDecisionContext "a").map (fun decision =>
        let first := labStoreCall decision hugeRank
        let second := labStoreCall decision (labOutcome "a" (1 / 50))
        ((serveOutcome .postgres answeredWorld.tables first).2.isOk,
          (serveAll (serveOutcome .postgres) answeredWorld.tables
            [first, second]).attempts))
      = some (false, [attemptRecord "a" (labAttempt (1 / 50))]) := by
  decide +kernel

end ControlPlane
