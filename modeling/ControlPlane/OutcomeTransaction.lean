import ControlPlane.QuotaSteps
import ControlPlane.Traces

/-!
# `SqlAlchemyDecisionStore.record_outcome`, statement by statement

`recordOutcome` is the store's transaction in one piece. The code reads the
row without a lock and writes later, so here the transaction is its
statements, under READ COMMITTED, and any number of calls about one decision
interleave between them. A call that selects before the first commit finds
the decision open, overwrites the row and charges again; when no call does,
exactly one charges (`charged_once_iff_serial`), and what it commits is what
`recordOutcome` stores (`committed_represents`).

Mirroring notes:
- A transaction's statements are the ones the unit of work flushes, in the
  order SELECT, DELETE, INSERT for each attempt, UPDATE, COMMIT.
- An attempt row has the PostgreSQL version columns: who inserted it and who
  deleted it. A snapshot is the list of transactions committed at its start.
- A DELETE waits for a transaction that has deleted one of its rows and skips
  the rows that are gone by then; an UPDATE waits for the one that has
  written the row.
- An attribute set to the value it had is not part of the UPDATE.
- A call enters at the service's `decision_store.record_outcome` and goes on
  with the service's own awaits after it.
-/

namespace ControlPlane

open Lib

/-! ## The rows of one decision -/

/-- A version of an attempt's row. -/
structure AttemptVersion where
  xmin : ℕ
  xmax : Option ℕ := none
  record : RoutingAttemptRecord
deriving DecidableEq

/-- Inserted before the snapshot, and not deleted before it. -/
def AttemptVersion.visible (snapshot : List ℕ) (version : AttemptVersion) : Bool :=
  version.xmin ∈ snapshot ∧ version.xmax.all (· ∉ snapshot)

/-- `row` is the committed row, `writing` an update that has not committed. -/
structure DecisionRows where
  row : RoutingDecisionRecord
  writing : Option (ℕ × RoutingDecisionRecord) := none
  attempts : List AttemptVersion := []
  committed : List ℕ := []
  nextXid : ℕ := 0

namespace DecisionRows

/-- The attempts a reader sees. -/
def visibleAttempts (db : DecisionRows) : List RoutingAttemptRecord :=
  (db.attempts.filter (·.visible db.committed)).map (·.record)

/-- Some row of the snapshot is being deleted by a transaction in progress. -/
def deleteBlocked (snapshot : List ℕ) (db : DecisionRows) : Bool :=
  db.attempts.any fun version =>
    version.visible snapshot && version.xmax.any (· ∉ db.committed)

/-- `DELETE` of the versions in the snapshot. -/
def deleteAttempts (xid : ℕ) (snapshot : List ℕ) (db : DecisionRows) : DecisionRows :=
  { db with
    attempts := db.attempts.map fun version =>
      if version.visible snapshot ∧ version.xmax = none then { version with xmax := some xid }
      else version }

/-- `INSERT` of one attempt. -/
def insertAttempt (xid : ℕ) (attempt : OutcomeAttempt) (db : DecisionRows) : DecisionRows :=
  { db with
    attempts := db.attempts ++
      [{ xmin := xid, record := attemptRecord db.row.decisionId attempt }] }

/-- The columns the UPDATE names: a `None` over a `None` is no change. -/
def updated (row : RoutingDecisionRecord) (call : OutcomeCall) : RoutingDecisionRecord :=
  { row with
    outcomeIdempotencyKey := call.idempotencyKey.or row.outcomeIdempotencyKey
    status := .completed
    finalStatus := some call.outcome.finalStatus
    finalModelId := call.outcome.finalModelId.or row.finalModelId
    fallbackDepth := some call.outcome.fallbackDepth
    outcomePayload := some (recordedResponse row.decisionId call.outcome) }

/-- `COMMIT`: the update becomes the row. -/
def commit (xid : ℕ) (db : DecisionRows) : DecisionRows :=
  match db.writing with
  | some (writer, row) =>
    if writer = xid then { db with row, writing := none, committed := xid :: db.committed }
    else { db with committed := xid :: db.committed }
  | none => { db with committed := xid :: db.committed }

end DecisionRows

/-! ## The statements -/

/-- The statement a report is at. -/
inductive ReportPc
  | select
  | delete
  | deleting (xid : ℕ) (snapshot : List ℕ)
  | insert (xid : ℕ) (attempt : OutcomeAttempt) (rest : List OutcomeAttempt)
  | update (xid : ℕ)
  | commit (xid : ℕ)
  | service (pc : OutcomePc)

/-- On to the next INSERT, or to the UPDATE when there is none. -/
def ReportPc.inserting (xid : ℕ) : List OutcomeAttempt → ReportPc
  | [] => .update xid
  | attempt :: rest => .insert xid attempt rest

/-- A call that reports an outcome. -/
structure Report where
  call : OutcomeCall
  pc : ReportPc

/-- The decision's rows, and the rest of the world. -/
structure Shared (Q : Type) where
  db : DecisionRows
  world : World Q

/-- One statement of `record_outcome`, or one await past it. -/
def advanceReport {Q : Type} (D : Deps Q) (env : Env) (s : Shared Q) (call : OutcomeCall) :
    ReportPc → Option (Shared Q × ReportPc)
  | .select =>
    match s.db.row.outcomePayload with
    | some payload => some (s, .service (.returned (duplicateOutcomePayload payload)))
    | none => some (s, .delete)
  | .delete =>
    some ({ s with db := { s.db with nextXid := s.db.nextXid + 1 } },
      .deleting s.db.nextXid s.db.committed)
  | .deleting xid snapshot =>
    if s.db.deleteBlocked snapshot then none
    else some ({ s with db := s.db.deleteAttempts xid snapshot },
      .inserting xid call.outcome.attempts)
  | .insert xid attempt rest =>
    some ({ s with db := s.db.insertAttempt xid attempt }, .inserting xid rest)
  | .update xid =>
    match s.db.writing with
    | some _ => none
    | none =>
      some ({ s with db := { s.db with
        writing := some (xid, DecisionRows.updated s.db.row call) } }, .commit xid)
  | .commit xid =>
    some ({ s with db := s.db.commit xid },
      .service (.release (recordedResponse s.db.row.decisionId call.outcome)))
  | .service pc =>
    (advanceOutcome D env s.world call pc).map fun r => ({ s with world := r.1 }, .service r.2)

/-- Any number of calls, interleaved at the statements. -/
def reports {Q : Type} (D : Deps Q) : System (Shared Q) Report Env where
  advance env s t := (advanceReport D env s t.call t.pc).map fun r => (r.1, ⟨t.call, r.2⟩)

variable {Q : Type} {D : Deps Q} {env : Env} {s s' : Shared Q} {t t' : Report}

/-- What a step of a call does. -/
inductive ReportStep (D : Deps Q) (env : Env) (call : OutcomeCall) (s : Shared Q) :
    ReportPc → Shared Q → ReportPc → Prop
  | answered {payload} : s.db.row.outcomePayload = some payload →
      ReportStep D env call s .select s (.service (.returned (duplicateOutcomePayload payload)))
  | opened : s.db.row.outcomePayload = none → ReportStep D env call s .select s .delete
  | begun : ReportStep D env call s .delete
      { s with db := { s.db with nextXid := s.db.nextXid + 1 } }
      (.deleting s.db.nextXid s.db.committed)
  | deleted {xid snapshot} : ReportStep D env call s (.deleting xid snapshot)
      { s with db := s.db.deleteAttempts xid snapshot } (.inserting xid call.outcome.attempts)
  | inserted {xid attempt rest} : ReportStep D env call s (.insert xid attempt rest)
      { s with db := s.db.insertAttempt xid attempt } (.inserting xid rest)
  | updated {xid} : s.db.writing = none → ReportStep D env call s (.update xid)
      { s with db := { s.db with writing := some (xid, DecisionRows.updated s.db.row call) } }
      (.commit xid)
  | committed {xid} : ReportStep D env call s (.commit xid) { s with db := s.db.commit xid }
      (.service (.release (recordedResponse s.db.row.decisionId call.outcome)))
  | served {pc w pc'} : OutcomeStep D env call s.world pc w pc' →
      ReportStep D env call s (.service pc) { s with world := w } (.service pc')

/-- A step keeps its call and is one of the listed ones. -/
theorem advance_reportStep (h : (reports D).advance env s t = some (s', t')) :
    t'.call = t.call ∧ ReportStep D env t.call s t.pc s' t'.pc := by
  obtain ⟨call, pc⟩ := t
  obtain ⟨⟨s₁, pc'⟩, hadv, heq⟩ := Option.map_eq_some_iff.mp h
  obtain ⟨rfl, rfl⟩ := Prod.mk.inj heq
  refine ⟨rfl, ?_⟩
  simp only at hadv ⊢
  cases pc with
  | select =>
    simp only [advanceReport] at hadv
    split at hadv
    next payload hpay =>
      obtain ⟨rfl, rfl⟩ := Prod.mk.inj (Option.some.inj hadv)
      exact .answered hpay
    next hpay =>
      obtain ⟨rfl, rfl⟩ := Prod.mk.inj (Option.some.inj hadv)
      exact .opened hpay
  | delete =>
    obtain ⟨rfl, rfl⟩ := Prod.mk.inj (Option.some.inj hadv)
    exact .begun
  | deleting xid snapshot =>
    simp only [advanceReport] at hadv
    split at hadv
    next => simp at hadv
    next =>
      obtain ⟨rfl, rfl⟩ := Prod.mk.inj (Option.some.inj hadv)
      exact .deleted
  | insert xid attempt rest =>
    obtain ⟨rfl, rfl⟩ := Prod.mk.inj (Option.some.inj hadv)
    exact .inserted
  | update xid =>
    simp only [advanceReport] at hadv
    split at hadv
    next => simp at hadv
    next hfree =>
      obtain ⟨rfl, rfl⟩ := Prod.mk.inj (Option.some.inj hadv)
      exact .updated hfree
  | commit xid =>
    obtain ⟨rfl, rfl⟩ := Prod.mk.inj (Option.some.inj hadv)
    exact .committed
  | service pc =>
    obtain ⟨⟨w, pc₁⟩, hserve, heq⟩ := Option.map_eq_some_iff.mp hadv
    obtain ⟨rfl, rfl⟩ := Prod.mk.inj heq
    exact .served (advanceOutcome_step hserve)

/-! ## Runs -/

/-- Calls about one decision; every awaited call returns. -/
def Reporting (decisionId : String) (_ : Conf (Shared Q) Report) : Act Report Env → Prop
  | .start t => t.pc = .select ∧ t.call.outcome.decisionId = decisionId
  | .run _ env => env.fault = .returns

/-- No call selects between another call's SELECT and its COMMIT. -/
def SerialSelect (c : Conf (Shared Q) Report) : Act Report Env → Prop
  | .start _ => True
  | .run i _ => ∀ t, c.tasks[i]? = some t → t.pc = .select →
      c.world.db.row.outcomePayload.isSome ∨ ∀ u ∈ c.tasks, u.pc = .select

/-- It has returned or raised. -/
def Report.Finished (t : Report) : Prop :=
  match t.pc with
  | .service pc => (Task.outcome t.call pc).Finished
  | _ => False

instance : ∀ t : Report, Decidable t.Finished
  | ⟨call, .service pc⟩ => inferInstanceAs (Decidable (Task.outcome call pc).Finished)
  | ⟨_, .select⟩ => isFalse id
  | ⟨_, .delete⟩ => isFalse id
  | ⟨_, .deleting _ _⟩ => isFalse id
  | ⟨_, .insert _ _ _⟩ => isFalse id
  | ⟨_, .update _⟩ => isFalse id
  | ⟨_, .commit _⟩ => isFalse id

/-- Nothing is in progress on the rows. -/
structure DecisionRows.Settled (db : DecisionRows) : Prop where
  writing : db.writing = none
  inserted : ∀ version ∈ db.attempts, version.xmin ∈ db.committed
  deleted : ∀ version ∈ db.attempts, ∀ xid, version.xmax = some xid → xid ∈ db.committed
  issued : ∀ xid ∈ db.committed, xid < db.nextXid

/-- What it answered. -/
def Report.status (t : Report) : Option OutcomeStatus :=
  match t.pc with
  | .service (.returned response) => some response.outcomeStatus
  | _ => none

/-- It was answered as a duplicate. -/
def Report.Duplicate (t : Report) : Prop :=
  ∃ response, t.pc = .service (.returned response) ∧ response.outcomeStatus = .duplicate

/-- One call recorded the outcome, charged it and published it; the others
did nothing, and the decision's attempts are that call's. -/
def ChargedOnce (s : Shared InMemoryQuota) (c : Conf (Shared InMemoryQuota) Report) : Prop :=
  ∃ (i : ℕ) (call : OutcomeCall) (response : RoutingOutcomeResponse),
    c.tasks[i]? = some ⟨call, .service (.returned response)⟩ ∧
    response = recordedResponse call.outcome.decisionId call.outcome ∧
    (∀ (j : ℕ) (t : Report), j ≠ i → c.tasks[j]? = some t → t.Duplicate) ∧
    ChargedFor call s.world c.world.world ∧
    c.world.world.events = s.world.events ++ [outcomeEvent call] ∧
    c.world.db.visibleAttempts
      = call.outcome.attempts.map (attemptRecord call.outcome.decisionId)

/-! ## Two early SELECTs -/

/-- Past a SELECT that found the decision open. -/
def Report.Recording (t : Report) : Prop :=
  match t.pc with
  | .select => False
  | .service pc => ∃ response : RoutingOutcomeResponse, response.outcomeStatus = .recorded ∧
      (pc = .release response ∨ pc = .recordSpend response ∨ pc = .publish response
        ∨ pc = .returned response)
  | _ => True

/-- Past the `DELETE` a report is recording. -/
theorem recording_inserting (call : OutcomeCall) (xid : ℕ) (attempts : List OutcomeAttempt) :
    (⟨call, .inserting xid attempts⟩ : Report).Recording := by
  cases attempts <;> exact trivial

/-- It goes on recording until it has recorded. -/
theorem ReportStep.recording {call : OutcomeCall} {pc pc' : ReportPc}
    (h : ReportStep D env call s pc s' pc') (hreturns : env.fault = .returns)
    (hrec : (⟨call, pc⟩ : Report).Recording) : (⟨call, pc'⟩ : Report).Recording := by
  cases h with
  | answered => exact hrec.elim
  | opened => exact hrec.elim
  | begun => exact trivial
  | deleted => exact recording_inserting call _ _
  | inserted => exact recording_inserting call _ _
  | updated => exact trivial
  | committed => exact ⟨_, rfl, .inl rfl⟩
  | served hstep =>
    obtain ⟨response, hstatus, hpc⟩ := hrec
    refine ⟨response, hstatus, ?_⟩
    cases hstep with
    | released => exact .inr (.inl (by simpa using hpc))
    | spent => exact .inr (.inr (.inl (by simpa using hpc)))
    | published => exact .inr (.inr (.inr (by simpa using hpc)))
    | releaseRaised hf => exact absurd hreturns hf
    | spendRaised hf => exact absurd hreturns hf
    | publishRaised hf => exact absurd hreturns hf
    | _ => simp at hpc

/-- A call that has selected the decision open records, whatever the others
do. -/
theorem recording_run {decisionId : String} {c c' : Conf (Shared Q) Report}
    {acts : List (Act Report Env)} {n : ℕ} (hrun : (reports D).Run (Reporting decisionId) c acts c')
    (hn : ∃ t, c.tasks[n]? = some t ∧ t.Recording) :
    ∃ t, c'.tasks[n]? = some t ∧ t.Recording := by
  refine System.Run.invariant (I := fun c => ∃ t, c.tasks[n]? = some t ∧ t.Recording) ?_ ?_ hrun hn
  · intro s ts t _ hinv
    obtain ⟨u, hget, hu⟩ := hinv
    obtain ⟨hlt, -⟩ := List.getElem?_eq_some_iff.mp hget
    exact ⟨u, (List.getElem?_append_left hlt).trans hget, hu⟩
  · intro s l t r env s' t' hok hadv hinv
    obtain ⟨u, hget, hu⟩ := hinv
    by_cases hnl : n = l.length
    · subst hnl
      rw [getElem?_split_self] at hget
      obtain rfl := Option.some.inj hget
      obtain ⟨hcall, hstep⟩ := advance_reportStep hadv
      refine ⟨t', getElem?_split_self _, ?_⟩
      obtain ⟨call, pc⟩ := t'
      obtain rfl : call = t.call := hcall
      exact hstep.recording hok hu
    · exact ⟨u, (getElem?_split_ne t t' hnl).trans hget, hu⟩

/-- Where the calls are: at their SELECT, recording, or done with a closed
decision. -/
structure Selected (c : Conf (Shared Q) Report) : Prop where
  writing : ∀ xid row, c.world.db.writing = some (xid, row) → row.outcomePayload.isSome
  tasks : ∀ t ∈ c.tasks, t.pc = .select ∨ t.Recording ∨ c.world.db.row.outcomePayload.isSome

/-- A decision stays closed. -/
theorem ReportStep.closed {call : OutcomeCall} {pc pc' : ReportPc}
    (h : ReportStep D env call s pc s' pc')
    (hwriting : ∀ xid row, s.db.writing = some (xid, row) → row.outcomePayload.isSome) :
    (∀ xid row, s'.db.writing = some (xid, row) → row.outcomePayload.isSome)
      ∧ (s.db.row.outcomePayload.isSome → s'.db.row.outcomePayload.isSome) := by
  cases h with
  | updated =>
    refine ⟨?_, id⟩
    intro xid row hrow
    obtain ⟨rfl, rfl⟩ := Prod.mk.inj (Option.some.inj hrow)
    rfl
  | @committed xid =>
    unfold DecisionRows.commit
    split
    next writer row hw =>
      split
      next => exact ⟨by simp, fun _ => hwriting writer row hw⟩
      next =>
        refine ⟨fun xid row hrow => hwriting xid row ?_, id⟩
        exact hrow
    next hw =>
      refine ⟨fun xid row hrow => hwriting xid row ?_, id⟩
      exact hrow
  | _ => exact ⟨hwriting, id⟩

/-- So what was selected holds over a run. -/
theorem selected_run {decisionId : String} {c c' : Conf (Shared Q) Report}
    {acts : List (Act Report Env)} (hrun : (reports D).Run (Reporting decisionId) c acts c')
    (h : Selected c) : Selected c' := by
  refine System.Run.invariant ?_ ?_ hrun h
  · intro s ts t hok hinv
    obtain ⟨hpc, -⟩ := hok
    obtain ⟨hwriting, htasks⟩ := hinv
    refine ⟨hwriting, fun u hu => ?_⟩
    rcases List.mem_append.mp hu with hu | hu
    · exact htasks u hu
    · rw [List.mem_singleton.mp hu]
      exact .inl hpc
  · intro s l t r env s' t' hok hadv hinv
    obtain ⟨hwriting, htasks⟩ := hinv
    simp only at hwriting htasks
    rw [forall_mem_split] at htasks
    obtain ⟨hcall, hstep⟩ := advance_reportStep hadv
    obtain ⟨hwriting', hclosed⟩ := hstep.closed hwriting
    refine ⟨hwriting', forall_mem_split.mpr ⟨?_, fun u hu =>
      (htasks.2 u hu).imp_right (Or.imp_right hclosed)⟩⟩
    obtain ⟨call, pc⟩ := t'
    obtain rfl : call = t.call := hcall
    rcases htasks.1 with hpc | hrec | hsome
    · rw [hpc] at hstep
      generalize hgoal : pc = pc' at hstep
      cases hstep with
      | answered hpay => exact .inr (.inr (by simp [hpay]))
      | opened =>
        subst hgoal
        exact .inr (.inl trivial)
    · exact .inr (.inl (hstep.recording hok hrec))
    · exact .inr (.inr (hclosed hsome))

/-- When one call recorded, no SELECT came between its SELECT and COMMIT. -/
theorem serial_of_chargedOnce {D : Deps InMemoryQuota} {decisionId : String}
    {s : Shared InMemoryQuota} {c : Conf (Shared InMemoryQuota) Report}
    {acts : List (Act Report Env)} (hsettled : s.db.Settled)
    (hrun : (reports D).Run (Reporting decisionId) ⟨s, []⟩ acts c) (hcharged : ChargedOnce s c) :
    (reports D).Run (fun c a => Reporting decisionId c a ∧ SerialSelect c a) ⟨s, []⟩ acts c := by
  obtain ⟨i, call, response, hi, -, hothers, -⟩ := hcharged
  -- The one that recorded is the only one that can have.
  have honly : ∀ {n : ℕ}, (∃ t, c.tasks[n]? = some t ∧ t.Recording) → n = i := by
    intro n hrecording
    obtain ⟨t, hget, hrec⟩ := hrecording
    by_contra hne
    obtain ⟨answer, hpc, hdup⟩ := hothers n t hne hget
    simp only [Report.Recording, hpc] at hrec
    obtain ⟨answer', hstatus, hanswer⟩ := hrec
    obtain rfl : answer = answer' := by simpa using hanswer
    simp [hdup] at hstatus
  have hstart : Selected ⟨s, []⟩ := ⟨by simp [hsettled.writing], by simp⟩
  refine System.Run.strengthen hrun ?_
  intro acts₁ c₁ a c₂ acts₂ hpre hok hstep hpost
  refine ⟨hok, ?_⟩
  cases a with
  | start t => exact trivial
  | run n env =>
    intro t hget hpc
    by_contra hearly
    rw [not_or] at hearly
    obtain ⟨hopen, hall⟩ := hearly
    obtain ⟨u, hu, hupc⟩ : ∃ u ∈ c₁.tasks, u.pc ≠ .select := by simpa using hall
    obtain ⟨m, hm⟩ := List.mem_iff_getElem?.mp hu
    have hmn : m ≠ n := by
      rintro rfl
      rw [hget] at hm
      exact hupc (Option.some.inj hm ▸ hpc)
    -- The row is still open, so whoever has selected has found it open.
    have hurec : u.Recording :=
      (((selected_run hpre hstart).tasks u hu).resolve_left hupc).resolve_right hopen
    obtain ⟨l, t₁, r, s₂, t', htasks, rfl, hadv, rfl⟩ := (reports D).step_run_iff.mp hstep
    rw [htasks] at hget hm
    rw [getElem?_split_self] at hget
    obtain rfl := Option.some.inj hget
    have htrec : t'.Recording := by
      obtain ⟨hcall, hstep'⟩ := advance_reportStep hadv
      obtain ⟨call', pc'⟩ := t'
      rw [hpc] at hstep'
      generalize hgoal : pc' = pc₁ at hstep'
      cases hstep' with
      | answered hpay => simp [hpay] at hopen
      | opened =>
        obtain rfl : pc' = .delete := hgoal
        exact trivial
    -- Both record: the one past its SELECT, and the one that selects now.
    have hmi := honly (recording_run hpost ⟨u, (getElem?_split_ne t₁ t' hmn).trans hm, hurec⟩)
    have hni := honly (recording_run hpost ⟨t', getElem?_split_self _, htrec⟩)
    exact hmn (hmi.trans hni.symm)

/-! ## One transaction with the rows to itself -/

namespace DecisionRows

variable (db : DecisionRows) (call : OutcomeCall)

/-- The rows with the old attempts deleted and `done` inserted, uncommitted. -/
def filled (done : List OutcomeAttempt) : DecisionRows :=
  { db with
    nextXid := db.nextXid + 1
    attempts := (db.deleteAttempts db.nextXid db.committed).attempts ++ done.map fun attempt =>
      { xmin := db.nextXid, record := attemptRecord db.row.decisionId attempt } }

/-- The rows once the transaction has committed. -/
def completed : DecisionRows :=
  { db.filled call.outcome.attempts with
    row := updated db.row call
    committed := db.nextXid :: db.committed }

/-- The rows before each statement of the transaction. -/
inductive Alone : ReportPc → DecisionRows → Prop
  | delete : Alone .delete db
  | deleting : Alone (.deleting db.nextXid db.committed) { db with nextXid := db.nextXid + 1 }
  | inserting {done rest : List OutcomeAttempt} : done ++ rest = call.outcome.attempts →
      Alone (.inserting db.nextXid rest) (db.filled done)
  | commit : Alone (.commit db.nextXid)
      { db.filled call.outcome.attempts with writing := some (db.nextXid, updated db.row call) }

variable {db call}

/-- The transaction leaves the committed row alone and does not end. -/
theorem Alone.row_eq {pc : ReportPc} {db' : DecisionRows} (h : db.Alone call pc db') :
    db'.row = db.row ∧ pc ≠ .select ∧ ¬ (⟨call, pc⟩ : Report).Finished := by
  cases h with
  | @inserting done rest =>
    cases rest <;> exact ⟨rfl, by simp [ReportPc.inserting], id⟩
  | _ => exact ⟨rfl, by simp, id⟩

/-- One attempt more is filled in. -/
theorem insertAttempt_filled (done : List OutcomeAttempt) (attempt : OutcomeAttempt) :
    (db.filled done).insertAttempt db.nextXid attempt = db.filled (done ++ [attempt]) := by
  simp [insertAttempt, filled]

/-- The commit completes the row. -/
theorem commit_filled (hwriting : db.writing = none) :
    ({ db.filled call.outcome.attempts with
      writing := some (db.nextXid, updated db.row call) } : DecisionRows).commit db.nextXid
        = db.completed call := by
  simp [commit, completed, filled, hwriting]

/-- A deleted version is out of sight, whoever deleted it. -/
theorem not_visible_deleted (hsettled : db.Settled) {version : AttemptVersion}
    (hmem : version ∈ (db.deleteAttempts db.nextXid db.committed).attempts) :
    version.visible (db.nextXid :: db.committed) = false := by
  obtain ⟨old, hold, rfl⟩ := List.mem_map.mp hmem
  cases hxmax : old.xmax with
  | none =>
    have hvisible : old.visible db.committed = true := by
      simp [AttemptVersion.visible, hxmax, hsettled.inserted old hold]
    rw [if_pos ⟨hvisible, rfl⟩]
    simp [AttemptVersion.visible]
  | some xid =>
    rw [if_neg (by simp)]
    simp [AttemptVersion.visible, hxmax, hsettled.deleted old hold xid hxmax]

/-- **The committed attempts are the call's own.** -/
theorem visibleAttempts_completed (hsettled : db.Settled) :
    (db.completed call).visibleAttempts
      = call.outcome.attempts.map (attemptRecord db.row.decisionId) := by
  -- The snapshot saw every committed version, so the delete has marked them all.
  have hold : (db.deleteAttempts db.nextXid db.committed).attempts.filter
      (·.visible (db.nextXid :: db.committed)) = [] := by
    refine List.filter_eq_nil_iff.mpr fun version hmem => ?_
    simp [not_visible_deleted hsettled hmem]
  have hnew : ∀ attempts : List OutcomeAttempt, (attempts.map fun attempt =>
      ({ xmin := db.nextXid, record := attemptRecord db.row.decisionId attempt } :
        AttemptVersion)).filter (·.visible (db.nextXid :: db.committed))
      = attempts.map fun attempt =>
        { xmin := db.nextXid, record := attemptRecord db.row.decisionId attempt } := by
    intro attempts
    refine List.filter_eq_self.mpr fun version hmem => ?_
    obtain ⟨attempt, -, rfl⟩ := List.mem_map.mp hmem
    simp [AttemptVersion.visible]
  unfold visibleAttempts
  simp only [completed, filled, List.filter_append, hold, hnew, List.nil_append, List.map_map]
  rfl

/-- `db` is what `tables` hold about the decision. -/
def Represents (db : DecisionRows) (tables : Tables) : Prop :=
  tables.getDecisionContext db.row.decisionId = some db.row
    ∧ db.visibleAttempts = tables.attempts.filter (·.decisionId = db.row.decisionId)

/-- **The transaction refines `recordOutcome`.** Alone on a decision as it was
created, the statements commit what `recordOutcome` stores. -/
theorem committed_represents (hsettled : db.Settled) {tables : Tables}
    (hrep : db.Represents tables) (hnew : db.row.origin = db.row) :
    ∃ tables', recordOutcome db.row call.outcome call.idempotencyKey tables
        = .ok (tables', recordedResponse db.row.decisionId call.outcome)
      ∧ (db.completed call).Represents tables' := by
  obtain ⟨hctx, -⟩ := hrep
  -- A row that is its own origin has none of the outcome columns set.
  have hopen : db.row.outcomePayload = none := by
    rw [← hnew]
    rfl
  have hrow : updated db.row call = db.row.complete call.outcome call.idempotencyKey := by
    have hkey : db.row.outcomeIdempotencyKey = none := by
      rw [← hnew]
      rfl
    have hmodel : db.row.finalModelId = none := by
      rw [← hnew]
      rfl
    simp [updated, RoutingDecisionRecord.complete, hkey, hmodel]
  refine ⟨tables.storeOutcome db.row.decisionId call.outcome call.idempotencyKey, ?_, ?_, ?_⟩
  · unfold recordOutcome
    simp [hctx, hopen]
  · -- The first row with the id is the one that is completed.
    show (tables.storeOutcome db.row.decisionId call.outcome call.idempotencyKey).getDecisionContext
      db.row.decisionId = some (updated db.row call)
    rw [hrow]
    exact Tables.getDecisionContext_storeOutcome hctx
  · rw [visibleAttempts_completed hsettled]
    show _ = (tables.storeOutcome db.row.decisionId call.outcome
      call.idempotencyKey).attempts.filter (·.decisionId = db.row.decisionId)
    exact Tables.attempts_storeOutcome.symm

end DecisionRows

/-- **A transaction alone completes the decision.** -/
theorem DecisionRows.Alone.step {D : Deps Q} {db : DecisionRows} {call : OutcomeCall}
    {pc pc' : ReportPc} (hwriting : db.writing = none) (h : db.Alone call pc s.db)
    (hstep : ReportStep D env call s pc s' pc') :
    s'.world = s.world ∧ (db.Alone call pc' s'.db
      ∨ (s'.db = db.completed call ∧ pc'
        = .service (.release (recordedResponse db.row.decisionId call.outcome)))) := by
  obtain ⟨rows, w⟩ := s
  simp only at h
  cases h with
  | delete =>
    cases hstep with
    | begun => exact ⟨rfl, .inl .deleting⟩
  | deleting =>
    cases hstep with
    | deleted =>
      refine ⟨rfl, .inl ?_⟩
      have hfilled : ({ db with nextXid := db.nextXid + 1 } : DecisionRows).deleteAttempts
          db.nextXid db.committed = db.filled [] := by
        simp [deleteAttempts, filled]
      rw [hfilled]
      exact .inserting rfl
  | @inserting done rest hattempts =>
    cases rest with
    | nil =>
      cases hstep with
      | updated _ =>
        obtain rfl : done = call.outcome.attempts := by simpa using hattempts
        exact ⟨rfl, .inl .commit⟩
    | cons attempt rest =>
      cases hstep with
      | inserted =>
        refine ⟨rfl, .inl ?_⟩
        rw [insertAttempt_filled]
        exact .inserting (by simpa using hattempts)
  | commit =>
    cases hstep with
    | committed => exact ⟨rfl, .inr ⟨commit_filled hwriting, rfl⟩⟩

/-! ## Serial SELECTs -/

variable {policies : List (String × RoutingPolicy)} {settings : Settings}

/-- A report that has not begun. -/
def Report.Waiting (decisionId : String) (t : Report) : Prop :=
  t.pc = .select ∧ t.call.outcome.decisionId = decisionId

/-- How far the call that recorded has got with its effects on `w`. -/
inductive Settling (w : World InMemoryQuota) (call : OutcomeCall)
    (response : RoutingOutcomeResponse) : ReportPc → World InMemoryQuota → Prop
  | release : Settling w call response (.service (.release response)) w
  | recordSpend {w'} : w'.quota.dailyBudget = w.quota.dailyBudget → w'.events = w.events →
      Settling w call response (.service (.recordSpend response)) w'
  | publish {w'} : ChargedFor call w w' → w'.events = w.events →
      Settling w call response (.service (.publish response)) w'
  | returned {w'} : ChargedFor call w w' → w'.events = w.events ++ [outcomeEvent call] →
      Settling w call response (.service (.returned response)) w'

/-- Past the commit each effect comes in its turn. -/
theorem Settling.step {w : World InMemoryQuota} {call : OutcomeCall}
    {response : RoutingOutcomeResponse} {s s' : Shared InMemoryQuota} {pc pc' : ReportPc}
    (hreturns : env.fault = .returns) (h : Settling w call response pc s.world)
    (hstep : ReportStep (buildInMemoryRuntime policies settings) env call s pc s' pc') :
    s'.db = s.db ∧ Settling w call response pc' s'.world := by
  obtain ⟨rows, w₁⟩ := s
  simp only at h
  cases h with
  | release =>
    cases hstep with
    | served hserve =>
      cases hserve with
      | releaseRaised hf => exact absurd hreturns hf
      | released => exact ⟨rfl, .recordSpend rfl rfl⟩
  | recordSpend hbudget hevents =>
    cases hstep with
    | served hserve =>
      cases hserve with
      | spendRaised hf => exact absurd hreturns hf
      | spent => exact ⟨rfl, .publish (.of_recordSpend env.clock hbudget rfl) hevents⟩
  | publish hcharged hevents =>
    cases hstep with
    | served hserve =>
      cases hserve with
      | publishRaised hf => exact absurd hreturns hf
      | published =>
        refine ⟨rfl, .returned hcharged ?_⟩
        simp only [hevents]
  | returned hcharged hevents =>
    cases hstep with
    | served hserve => cases hserve

/-- A call that has settled has charged and published once. -/
theorem Settling.finished {w w' : World InMemoryQuota} {call : OutcomeCall}
    {response : RoutingOutcomeResponse} {pc : ReportPc} (h : Settling w call response pc w')
    (hfin : (⟨call, pc⟩ : Report).Finished) :
    pc = .service (.returned response) ∧ ChargedFor call w w'
      ∧ w'.events = w.events ++ [outcomeEvent call] := by
  cases h with
  | returned hcharged hevents => exact ⟨rfl, hcharged, hevents⟩
  | _ => simp [Report.Finished, Task.Finished, Task.await] at hfin

/-- A run with serial SELECTs: nobody has selected, one call has the rows to
itself, or it has committed. -/
inductive SerialRun (decisionId : String) (s : Shared InMemoryQuota)
    (c : Conf (Shared InMemoryQuota) Report) : Prop
  | waiting : c.world = s → (∀ t ∈ c.tasks, t.Waiting decisionId) → SerialRun decisionId s c
  | alone {l r : List Report} {t : Report} : c.tasks = l ++ t :: r →
      (∀ u, u ∈ l ∨ u ∈ r → u.Waiting decisionId) → t.call.outcome.decisionId = decisionId →
      s.db.Alone t.call t.pc c.world.db → c.world.world = s.world → SerialRun decisionId s c
  | charged {i : ℕ} {t : Report} : c.tasks[i]? = some t →
      (∀ j u, j ≠ i → c.tasks[j]? = some u → u.Waiting decisionId ∨ u.Duplicate) →
      t.call.outcome.decisionId = decisionId → c.world.db = s.db.completed t.call →
      Settling s.world t.call (recordedResponse decisionId t.call.outcome) t.pc c.world.world →
      SerialRun decisionId s c

/-- One more report may wait. -/
theorem SerialRun.start {decisionId : String} {s s₁ : Shared InMemoryQuota} {ts : List Report}
    (ht : t.Waiting decisionId) (h : SerialRun decisionId s ⟨s₁, ts⟩) :
    SerialRun decisionId s ⟨s₁, ts ++ [t]⟩ := by
  cases h with
  | waiting hworld hwait =>
    refine .waiting hworld fun u hu => ?_
    rcases List.mem_append.mp hu with hu | hu
    · exact hwait u hu
    · rwa [List.mem_singleton.mp hu]
  | @alone l r u htasks hothers hid hdb hworld =>
    simp only at htasks
    refine .alone (l := l) (r := r ++ [t]) (by simp [htasks]) ?_ hid hdb hworld
    intro v hv
    rw [List.mem_append, ← or_assoc, List.mem_singleton] at hv
    rcases hv with hv | rfl
    · exact hothers v hv
    · exact ht
  | @charged i u hi hothers hid hdb heffects =>
    simp only at hi hothers
    obtain ⟨hlt, -⟩ := List.getElem?_eq_some_iff.mp hi
    refine .charged ((List.getElem?_append_left hlt).trans hi) ?_ hid hdb heffects
    intro j v hne hj
    rcases Nat.lt_or_ge j ts.length with hjlt | hjge
    · exact hothers j v hne ((List.getElem?_append_left hjlt).symm.trans hj)
    · simp only [List.getElem?_append_right hjge] at hj
      exact .inl (List.mem_singleton.mp (List.mem_of_getElem? hj) ▸ ht)

/-- **A step keeps the run serial.** -/
theorem SerialRun.run {decisionId : String} {s s₁ s₂ : Shared InMemoryQuota} {l r : List Report}
    (hsettled : s.db.Settled) (hid : s.db.row.decisionId = decisionId)
    (hopen : s.db.row.outcomePayload = none) (hreturns : env.fault = .returns)
    (hserial : t.pc = .select → s₁.db.row.outcomePayload.isSome
      ∨ ∀ u ∈ l ++ t :: r, u.pc = .select)
    (hadv : (reports (buildInMemoryRuntime policies settings)).advance env s₁ t = some (s₂, t'))
    (h : SerialRun decisionId s ⟨s₁, l ++ t :: r⟩) :
    SerialRun decisionId s ⟨s₂, l ++ t' :: r⟩ := by
  obtain ⟨hcall, hstep⟩ := advance_reportStep hadv
  cases h with
  | waiting hworld hwait =>
    obtain rfl : s₁ = s := hworld
    simp only at hwait
    rw [forall_mem_split] at hwait
    obtain ⟨⟨hpc, htid⟩, hothers⟩ := hwait
    have hdelete : s₂ = s₁ ∧ t'.pc = .delete := by
      rw [hpc] at hstep
      generalize t'.pc = pc' at hstep
      cases hstep with
      | answered hpay => simp [hopen] at hpay
      | opened => exact ⟨rfl, rfl⟩
    obtain ⟨rfl, hpc'⟩ := hdelete
    refine .alone rfl hothers (hcall ▸ htid) ?_ rfl
    rw [hpc']
    exact .delete
  | @alone l₀ r₀ u htasks hothers huid hdb hworld =>
    simp only at htasks hdb hworld
    have hget := getElem?_split_self (l := l) (r := r) t
    rw [htasks] at hget
    by_cases hl : l.length = l₀.length
    · -- The transaction goes on.
      obtain ⟨rfl, hcons⟩ := List.append_inj htasks hl
      obtain ⟨rfl, rfl⟩ := List.cons.inj hcons
      obtain ⟨hworld', hdb' | ⟨hdb', hpc'⟩⟩ := hdb.step hsettled.writing hstep
      · exact .alone rfl hothers (hcall ▸ huid) (hcall ▸ hdb') (hworld'.trans hworld)
      · refine .charged (getElem?_split_self t') (fun j v hne hj =>
          .inl (hothers v (mem_of_getElem?_split hj hne))) (hcall ▸ huid) (hcall ▸ hdb') ?_
        simp only
        rw [hpc', hworld', hworld, hid, hcall]
        exact .release
    · -- Another call may not select now.
      obtain ⟨hpc, -⟩ := hothers t (mem_of_getElem?_split hget hl)
      rcases hserial hpc with hsome | hall
      · simp [hdb.row_eq.1, hopen] at hsome
      · exact absurd (hall u (by rw [htasks]; simp)) hdb.row_eq.2.1
  | @charged i u hi hothers huid hdb heffects =>
    simp only at hi hothers hdb heffects
    have hclosed : s₁.db.row.outcomePayload
        = some (recordedResponse s.db.row.decisionId u.call.outcome) := by
      rw [hdb]
      rfl
    by_cases hl : i = l.length
    · -- The call that recorded goes on with its effects.
      subst hl
      rw [getElem?_split_self] at hi
      obtain rfl := Option.some.inj hi
      obtain ⟨hdb', heffects'⟩ := heffects.step hreturns hstep
      refine .charged (getElem?_split_self t') (fun j v hne hj => ?_) (hcall ▸ huid)
        (hcall ▸ hdb'.trans hdb) (hcall ▸ heffects')
      exact hothers j v hne ((getElem?_split_ne t t' hne).symm.trans hj)
    · -- Another call finds the decision closed.
      have hdup : s₂ = s₁ ∧ t'.Duplicate := by
        rcases hothers _ t (Ne.symm hl) (getElem?_split_self t) with ⟨hpc, -⟩ | ⟨response, hpc, -⟩
        · rw [hpc] at hstep
          generalize hpc' : t'.pc = pc' at hstep
          cases hstep with
          | answered => exact ⟨rfl, _, hpc', rfl⟩
          | opened hpay => simp [hclosed] at hpay
        · rw [hpc] at hstep
          generalize t'.pc = pc' at hstep
          cases hstep with
          | served hserve => cases hserve
      obtain ⟨rfl, hdup⟩ := hdup
      refine .charged ((getElem?_split_ne t t' hl).trans hi) ?_ huid hdb heffects
      intro j v hne hj
      by_cases hjl : j = l.length
      · subst hjl
        rw [getElem?_split_self] at hj
        exact .inr (Option.some.inj hj ▸ hdup)
      · exact hothers j v hne ((getElem?_split_ne t t' hjl).symm.trans hj)

/-- **Charged once exactly when the SELECTs are serial.** However many calls
report an open decision, and however their statements interleave. -/
theorem charged_once_iff_serial (policies : List (String × RoutingPolicy)) (settings : Settings)
    (s : Shared InMemoryQuota) (decisionId : String) (acts : List (Act Report Env))
    (c : Conf (Shared InMemoryQuota) Report) (hid : s.db.row.decisionId = decisionId)
    (hopen : s.db.row.outcomePayload = none) (hsettled : s.db.Settled)
    (hrun : (reports (buildInMemoryRuntime policies settings)).Run (Reporting decisionId)
      ⟨s, []⟩ acts c)
    (hdone : ∀ t ∈ c.tasks, t.Finished) (hsome : c.tasks ≠ []) :
    ChargedOnce s c ↔
      (reports (buildInMemoryRuntime policies settings)).Run
        (fun c a => Reporting decisionId c a ∧ SerialSelect c a) ⟨s, []⟩ acts c := by
  refine ⟨serial_of_chargedOnce hsettled hrun, fun hserial => ?_⟩
  have hend : SerialRun decisionId s c := by
    refine System.Run.invariant ?_ ?_ hserial (.waiting rfl (by simp))
    · exact fun _ _ _ hok => SerialRun.start hok.1
    · intro s₁ l t r env s₂ t' hok hadv
      exact SerialRun.run hsettled hid hopen hok.1 (hok.2 t (getElem?_split_self t)) hadv
  cases hend with
  | waiting hworld hwait =>
    obtain ⟨t, ht⟩ := List.exists_mem_of_ne_nil _ hsome
    have hfin := hdone t ht
    simp [Report.Finished, (hwait t ht).1] at hfin
  | @alone l r t htasks hothers huid hdb hworld =>
    exact absurd (hdone t (by rw [htasks]; simp)) hdb.row_eq.2.2
  | @charged i t hi hothers huid hdb heffects =>
    obtain ⟨hpc, hbudget, hevents⟩ := heffects.finished (hdone t (List.mem_of_getElem? hi))
    obtain ⟨call, pc⟩ := t
    simp only at hpc hbudget hevents huid hdb
    subst hpc
    refine ⟨i, call, _, hi, by rw [huid], ?_, hbudget, hevents, ?_⟩
    · intro j u hne hj
      refine (hothers j u hne hj).resolve_left ?_
      intro hduplicate
      obtain ⟨hpc, -⟩ := hduplicate
      have hfin := hdone u (List.mem_of_getElem? hj)
      simp [Report.Finished, hpc] at hfin
    · rw [hdb, DecisionRows.visibleAttempts_completed hsettled, hid, huid]

/-! ## Two calls -/

/-- Two calls report the one decision of the deployment. -/
def twoReports (row : RoutingDecisionRecord) (order : List ℕ) :
    Option (Conf (Shared InMemoryQuota) Report) :=
  (reports labDeps).exec ⟨⟨{ row }, answeredWorld⟩, []⟩
    (List.replicate 2 (.start ⟨reportCall, .select⟩) ++ order.map (.run · (labEnv "")))

/-- The two reports run as listed. -/
theorem twoReports_run {row : RoutingDecisionRecord} {order : List ℕ}
    {c : Conf (Shared InMemoryQuota) Report} (h : twoReports row order = some c) :
    (reports labDeps).Run (Reporting "a") ⟨⟨{ row }, answeredWorld⟩, []⟩
      (List.replicate 2 (.start ⟨reportCall, .select⟩) ++ order.map (.run · (labEnv ""))) c := by
  refine System.Run.of_exec ?_ h
  intro a ha c₁
  rcases List.mem_append.mp ha with ha | ha
  · rw [List.eq_of_mem_replicate ha]
    exact ⟨rfl, rfl⟩
  · obtain ⟨i, -, rfl⟩ := List.mem_map.mp ha
    rfl

/-- A decision's single row is settled. -/
theorem DecisionRows.Settled.ofRow (row : RoutingDecisionRecord) :
    ({ row } : DecisionRows).Settled :=
  ⟨rfl, by simp, by simp, by simp⟩

/-- Call 0 in full, then call 1. -/
theorem charged_once_iff_serial_sequential :
    ∃ row c, answeredWorld.tables.getDecisionContext "a" = some row ∧
      twoReports row (List.replicate 9 0 ++ [1]) = some c ∧
      (ChargedOnce ⟨{ row }, answeredWorld⟩ c ↔
        (reports labDeps).Run (fun c a => Reporting "a" c a ∧ SerialSelect c a)
          ⟨⟨{ row }, answeredWorld⟩, []⟩
          (List.replicate 2 (.start ⟨reportCall, .select⟩)
            ++ (List.replicate 9 0 ++ [1]).map (.run · (labEnv ""))) c) := by
  obtain ⟨row, hctx, hrow⟩ : ∃ row, answeredWorld.tables.getDecisionContext "a" = some row
      ∧ (row.outcomePayload.isNone && (twoReports row (List.replicate 9 0 ++ [1])).any
        fun c => decide ((∀ t ∈ c.tasks, t.Finished) ∧ c.tasks.length = 2)) = true :=
    (Option.any_eq_true _ _).mp (by decide +kernel)
  obtain ⟨hopen, htrace⟩ := Bool.and_eq_true_iff.mp hrow
  obtain ⟨c, hexec, hc⟩ := (Option.any_eq_true _ _).mp htrace
  obtain ⟨hdone, hlen⟩ := of_decide_eq_true hc
  exact ⟨row, c, hctx, hexec, charged_once_iff_serial [("balanced", balancedPolicy)] {} _ "a" _ c
    (Tables.getDecisionContext_some hctx).2 (Option.isNone_iff_eq_none.mp hopen)
    (DecisionRows.Settled.ofRow row) (twoReports_run hexec) hdone
    (List.ne_nil_of_length_pos (by omega))⟩

/-- **Two early SELECTs, two charges.** Both calls find the decision open;
both are answered `recorded`, both charge and publish, and the attempts of
both are kept. -/
theorem early_select_charges_twice :
    ∃ row acts c, answeredWorld.tables.getDecisionContext "a" = some row ∧
      row.outcomePayload = none ∧
      (reports labDeps).Run (Reporting "a") ⟨⟨{ row }, answeredWorld⟩, []⟩ acts c ∧
      (∀ t ∈ c.tasks, t.Finished ∧ ¬ t.Duplicate) ∧ c.tasks.length = 2 ∧
      answeredWorld.quota.dailyBudget ("internal", "agent-1", "2026-04-01") = 0 ∧
      c.world.world.quota.dailyBudget ("internal", "agent-1", "2026-04-01") = 2 / 100 ∧
      c.world.world.events.length = 2 ∧ c.world.db.visibleAttempts.length = 2 ∧
      ¬ ChargedOnce ⟨{ row }, answeredWorld⟩ c := by
  let order : List ℕ := [0, 1, 0, 0, 0, 1, 1, 1, 0, 0, 0, 0, 0, 1, 1, 1, 1, 1]
  obtain ⟨row, hctx, hrow⟩ : ∃ row, answeredWorld.tables.getDecisionContext "a" = some row
      ∧ (row.outcomePayload.isNone && (twoReports row order).any fun c => decide
        ((∀ t ∈ c.tasks, t.Finished ∧ t.status = some .recorded) ∧ c.tasks.length = 2
          ∧ answeredWorld.quota.dailyBudget ("internal", "agent-1", "2026-04-01") = 0
          ∧ c.world.world.quota.dailyBudget ("internal", "agent-1", "2026-04-01") = 2 / 100
          ∧ answeredWorld.events.length = 0
          ∧ c.world.world.events.length = 2 ∧ c.world.db.visibleAttempts.length = 2)) = true :=
    (Option.any_eq_true _ _).mp (by decide +kernel)
  obtain ⟨hopen, htrace⟩ := Bool.and_eq_true_iff.mp hrow
  obtain ⟨c, hexec, hc⟩ := (Option.any_eq_true _ _).mp htrace
  obtain ⟨hdone, hlen, hbefore, hspend, hquiet, hevents, hattempts⟩ := of_decide_eq_true hc
  refine ⟨row, _, c, hctx, Option.isNone_iff_eq_none.mp hopen, twoReports_run hexec, ?_, hlen,
    hbefore, hspend, hevents, hattempts, ?_⟩
  · intro t ht
    refine ⟨(hdone t ht).1, ?_⟩
    intro hduplicate
    obtain ⟨response, hpc, hdup⟩ := hduplicate
    have hstatus := (hdone t ht).2
    simp [Report.status, hpc, hdup] at hstatus
  · intro honce
    obtain ⟨i, call, response, -, -, -, -, hevent, -⟩ := honce
    rw [hevent] at hevents
    simp [List.length_eq_zero_iff.mp hquiet] at hevents

end ControlPlane
