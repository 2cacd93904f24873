import ControlPlane.Lib.FindOrInsert
import ControlPlane.Rows

/-!
# The service, statement by statement

`Service` takes each await as one step. Two of them are transactions of more
than one statement that other calls can come between:
`ensure_catalog_version` looks the version up and inserts it at its commit,
and `create_decision` inserts its row and commits. A second insert under a key
that an open transaction has taken waits for it.

Here these two run statement by statement, the other awaits as before. What
holds of every such run: the transactions on the versions are `transactions`
of the library (`StatementRun.versions_inv`), and no row in flight conflicts
with another or with a stored one (`InFlight`).

Mirroring notes:
- The rows of `model_catalog_versions` are in the index of their unique column
  (`versions`), the ones of the world's tables are not looked at.
- A decision's row is unique by its primary key and by agent and idempotency
  key; an insert that conflicts with a committed row is refused, and one that
  conflicts with a row in flight waits.
- `ensure_policies` stays one step. `record_outcome` by statements is in
  `OutcomeTransaction`; it is not one step.
-/

namespace ControlPlane

open Lib

variable {Q : Type}

/-! ## Rows in flight -/

/-- The two rows cannot both be in the table. -/
def RoutingDecisionRecord.Conflicts (row row' : RoutingDecisionRecord) : Prop :=
  row.decisionId = row'.decisionId
    ∨ row'.idempotencyKey.isSome ∧ row.agentId = row'.agentId
      ∧ row.idempotencyKey = row'.idempotencyKey

instance (row row' : RoutingDecisionRecord) : Decidable (row.Conflicts row') :=
  inferInstanceAs (Decidable (_ ∨ _))

/-- What the calls share. `uncommitted` are the decision rows of open
transactions. -/
structure StatementWorld (Q : Type) where
  world : World Q
  versions : FindWorld String ModelCatalogVersion
  uncommitted : List RoutingDecisionRecord := []

/-- A call, its transaction on `model_catalog_versions` and the row it has
inserted and not committed. -/
structure StatementTask where
  task : Task
  versions : Option (FindTask String ModelCatalogVersion) := none
  row : Option RoutingDecisionRecord := none

/-- What a fault does to a statement. -/
def Fault.sent : Fault → Sent
  | .returns => .succeeds
  | .raises => .fails
  | .raisesAfter => .succeedsUnnoticed

/-- A statement that succeeds returns. -/
theorem Fault.sent_succeeds {fault : Fault} (h : fault.sent = .succeeds) : fault = .returns := by
  cases fault <;> first | rfl | cases h

/-- One that succeeds unnoticed raises past its effect. -/
theorem Fault.sent_succeedsUnnoticed {fault : Fault} (h : fault.sent = .succeedsUnnoticed) :
    fault = .raisesAfter := by
  cases fault <;> first | rfl | cases h

/-- The row of a catalog version. -/
def catalogVersionRow (catalog : CatalogSnapshot) : ModelCatalogVersion :=
  { version := catalog.version
    checksum := catalog.checksum
    source := catalog.source
    snapshot := catalog }

/-- `ensure_catalog_version` before its first statement. -/
def findVersion (catalog : CatalogSnapshot) : FindTask String ModelCatalogVersion :=
  { key := catalog.version
    row := catalogVersionRow catalog
    pc := .select }

/-- The call that a task has come to. -/
def Task.opens : Task → Option (FindTask String ModelCatalogVersion)
  | .create _ (.ensureCatalog catalog _) => some (findVersion catalog)
  | _ => none

/-! ## The two transactions -/

/-- `create_decision` behind `ensure_catalog_version`. -/
def afterEnsure (uuid : String) (w : World Q) (catalog : CatalogSnapshot) (policy : RoutingPolicy) :
    Except ServiceError Unit → Option (World Q × CreatePc)
  | .error _ => drawDecisionId uuid w catalog policy
  | .ok () => some (w, .ensurePolicies catalog policy)

/-- `create_decision` behind the insertion. -/
def afterStore (w : World Q) (call : CreateCall) (response : RoutingDecisionResponse) :
    Except ServiceError Unit → World Q × CreatePc
  | .error err => (w, .release response.decisionId err)
  | .ok () => ({ w with metrics := w.metrics ++ decisionMetrics call.principal response },
      .returned (some response.decisionId) response)

/-- The world with one more decision. -/
def World.addRow (w : World Q) (row : RoutingDecisionRecord) : World Q :=
  { w with tables := { w.tables with decisions := w.tables.decisions ++ [row] } }

namespace StatementWorld

variable (s : StatementWorld Q) (env : Env)

/-- A statement of `ensure_catalog_version`. -/
def ensureStatement (t : StatementTask) (call : CreateCall) (catalog : CatalogSnapshot)
    (policy : RoutingPolicy) (find : FindTask String ModelCatalogVersion) :
    Option (StatementWorld Q × StatementTask) :=
  match transactions.advance env.fault.sent s.versions find with
  | none => none
  | some (versions, find) =>
    let resume (reply : Except ServiceError Unit) :=
      (afterEnsure env.uuid s.world catalog policy reply).map fun next =>
        ({ s with world := next.1, versions },
          { t with task := .create call next.2, versions := some find })
    match find.pc with
    | .returned => resume (.ok ())
    | .raised => resume (.error .unavailable)
    | _ => some ({ s with versions }, { t with versions := some find })

/-- The `INSERT` of a decision. -/
def insertStatement (t : StatementTask) (call : CreateCall) (response : RoutingDecisionResponse) :
    Option (StatementWorld Q × StatementTask) :=
  let row := decisionRecord call.principal call.request response call.idempotencyKey
  let raises (err : ServiceError) :=
    let next := afterStore s.world call response (.error err)
    some ({ s with world := next.1 }, { t with task := .create call next.2 })
  if env.fault ≠ .returns then raises .unavailable
  else
    match createDecision call.principal call.request response call.idempotencyKey
      s.world.tables with
    | .error err => raises err
    | .ok _ =>
      if ∃ other ∈ s.uncommitted, other.Conflicts row then none
      else some ({ s with uncommitted := row :: s.uncommitted }, { t with row := some row })

/-- The `COMMIT` of a decision. -/
def commitStatement (t : StatementTask) (call : CreateCall) (response : RoutingDecisionResponse)
    (row : RoutingDecisionRecord) : StatementWorld Q × StatementTask :=
  let committed := awaited env.fault s.world (s.world.addRow row, .ok ())
  let next := afterStore committed.1 call response committed.2
  ({ s with
      world := next.1
      uncommitted := s.uncommitted.filter (·.decisionId ≠ row.decisionId) },
    { t with task := .create call next.2, row := none })

/-- Past the `COMMIT` a call ends, or gives its slot back. -/
theorem commitStatement_task (t : StatementTask) (call : CreateCall)
    (response : RoutingDecisionResponse) (row : RoutingDecisionRecord) :
    (s.commitStatement env t call response row).2.task
        = .create call (.returned (some response.decisionId) response)
      ∨ ∃ err, (s.commitStatement env t call response row).2.task
        = .create call (.release response.decisionId err) := by
  simp only [commitStatement, afterStore]
  split
  next => exact .inr ⟨_, rfl⟩
  next => exact .inl rfl

end StatementWorld

/-- One statement, or one await of the rest of the service. -/
def advanceStatement (D : Deps Q) (env : Env) (s : StatementWorld Q) (t : StatementTask) :
    Option (StatementWorld Q × StatementTask) :=
  match t.task with
  | .create call (.ensureCatalog catalog policy) =>
    match t.versions with
    | none => none
    | some find => s.ensureStatement env t call catalog policy find
  | .create call (.storeDecision response) =>
    match t.row with
    | none => s.insertStatement env t call response
    | some row => some (s.commitStatement env t call response row)
  | task =>
    (advance D env s.world task).map fun next =>
      ({ s with world := next.1 },
        { t with task := next.2, versions := next.2.opens.or t.versions })

/-- The control plane, statement by statement. -/
def statementPlane (D : Deps Q) : System (StatementWorld Q) StatementTask Env where
  advance := advanceStatement D

/-! ## One step -/

section Step

variable {D : Deps Q} {env : Env} {s s' : StatementWorld Q} {t t' : StatementTask}

/-- What a step can do. -/
inductive StatementStep (D : Deps Q) (env : Env) (s : StatementWorld Q) (t : StatementTask) :
    StatementWorld Q → StatementTask → Prop
  | ensuring {call catalog policy find find' versions}
      (htask : t.task = .create call (.ensureCatalog catalog policy))
      (hfind : t.versions = some find)
      (hadv : transactions.advance env.fault.sent s.versions find = some (versions, find'))
      (hbusy : find'.pc ≠ .returned ∧ find'.pc ≠ .raised) :
      StatementStep D env s t { s with versions } { t with versions := some find' }
  | ensured {call catalog policy find find' versions reply world pc}
      (htask : t.task = .create call (.ensureCatalog catalog policy))
      (hfind : t.versions = some find)
      (hadv : transactions.advance env.fault.sent s.versions find = some (versions, find'))
      (hreply : find'.pc = .returned ∧ reply = .ok ()
        ∨ find'.pc = .raised ∧ reply = .error .unavailable)
      (hafter : afterEnsure env.uuid s.world catalog policy reply = some (world, pc)) :
      StatementStep D env s t { s with world, versions }
        { t with task := .create call pc, versions := some find' }
  | insertRaised {call response err} (htask : t.task = .create call (.storeDecision response))
      (hrow : t.row = none)
      (herr : env.fault ≠ .returns ∧ err = .unavailable
        ∨ env.fault = .returns ∧ createDecision call.principal call.request response
          call.idempotencyKey s.world.tables = .error err) :
      StatementStep D env s t s { t with task := .create call (.release response.decisionId err) }
  | inserted {call response row tables} (htask : t.task = .create call (.storeDecision response))
      (hrow : t.row = none)
      (heq : row = decisionRecord call.principal call.request response call.idempotencyKey)
      (hok : createDecision call.principal call.request response call.idempotencyKey
        s.world.tables = .ok tables)
      (hapart : ∀ other ∈ s.uncommitted, ¬other.Conflicts row) :
      StatementStep D env s t { s with uncommitted := row :: s.uncommitted }
        { t with row := some row }
  | committed {call response row} (htask : t.task = .create call (.storeDecision response))
      (hrow : t.row = some row) :
      StatementStep D env s t (s.commitStatement env t call response row).1
        (s.commitStatement env t call response row).2
  | other {world task} (hensure : t.task.opens = none)
      (hstore : ∀ call response, t.task ≠ .create call (.storeDecision response))
      (hadv : (controlPlane D).advance env s.world t.task = some (world, task)) :
      StatementStep D env s t { s with world }
        { t with task, versions := task.opens.or t.versions }

/-- A statement of `ensure_catalog_version` is one of the listed steps. -/
theorem ensureStatement_step {call : CreateCall} {catalog : CatalogSnapshot}
    {policy : RoutingPolicy} {find : FindTask String ModelCatalogVersion}
    (htask : t.task = .create call (.ensureCatalog catalog policy)) (hfind : t.versions = some find)
    (h : s.ensureStatement env t call catalog policy find = some (s', t')) :
    StatementStep D env s t s' t' := by
  unfold StatementWorld.ensureStatement at h
  split at h
  next => cases h
  next versions find' hadv =>
    dsimp only at h
    split at h
    next hpc =>
      obtain ⟨⟨world, pc⟩, hafter, heq⟩ := Option.map_eq_some_iff.mp h
      obtain ⟨rfl, rfl⟩ := Prod.mk.inj heq
      exact .ensured htask hfind hadv (.inl ⟨hpc, rfl⟩) hafter
    next hpc =>
      obtain ⟨⟨world, pc⟩, hafter, heq⟩ := Option.map_eq_some_iff.mp h
      obtain ⟨rfl, rfl⟩ := Prod.mk.inj heq
      exact .ensured htask hfind hadv (.inr ⟨hpc, rfl⟩) hafter
    next hreturned hraised =>
      obtain ⟨rfl, rfl⟩ := Prod.mk.inj (Option.some.inj h)
      exact .ensuring htask hfind hadv ⟨hreturned, hraised⟩

/-- So is the `INSERT` of a decision. -/
theorem insertStatement_step {call : CreateCall} {response : RoutingDecisionResponse}
    (htask : t.task = .create call (.storeDecision response)) (hrow : t.row = none)
    (h : s.insertStatement env t call response = some (s', t')) :
    StatementStep D env s t s' t' := by
  unfold StatementWorld.insertStatement at h
  dsimp only at h
  split at h
  next hfault =>
    obtain ⟨rfl, rfl⟩ := Prod.mk.inj (Option.some.inj h)
    exact .insertRaised htask hrow (.inl ⟨hfault, rfl⟩)
  next hfault =>
    split at h
    next herr =>
      obtain ⟨rfl, rfl⟩ := Prod.mk.inj (Option.some.inj h)
      exact .insertRaised htask hrow (.inr ⟨not_not.mp hfault, herr⟩)
    next hok =>
      split at h
      next => cases h
      next hapart =>
        obtain ⟨rfl, rfl⟩ := Prod.mk.inj (Option.some.inj h)
        exact .inserted htask hrow rfl hok fun other hother hconflict =>
          hapart ⟨other, hother, hconflict⟩

/-- And so is any step. -/
theorem advanceStatement_step (h : (statementPlane D).advance env s t = some (s', t')) :
    StatementStep D env s t s' t' := by
  simp only [statementPlane, advanceStatement] at h
  split at h
  next htask =>
    split at h
    next => cases h
    next hfind => exact ensureStatement_step htask hfind h
  next htask =>
    split at h
    next hrow => exact insertStatement_step htask hrow h
    next hrow =>
      obtain ⟨rfl, rfl⟩ := Prod.mk.inj (Option.some.inj h)
      exact .committed htask hrow
  next hensure hstore =>
    obtain ⟨⟨world, task⟩, hadv, heq⟩ := Option.map_eq_some_iff.mp h
    obtain ⟨rfl, rfl⟩ := Prod.mk.inj heq
    refine .other ?_ hstore hadv
    unfold Task.opens
    split
    next heq => exact absurd heq (hensure _ _ _)
    next => rfl

end Step

/-! ## The transactions on catalog versions -/

section Versions

variable {D : Deps Q} {sc : Scenario} {env : Env} {s s' : StatementWorld Q} {t t' : StatementTask}

/-- Calls that have just been made, of permitted callers, and permitted
faults of the call that is awaited. -/
def PermitsStatements (sc : Scenario) (c : Conf (StatementWorld Q) StatementTask) :
    Act StatementTask Env → Prop
  | .start t => t.task.Started ∧ sc.caller t.task.principal ∧ t.versions = none ∧ t.row = none
  | .run i env => ∀ t, c.tasks[i]? = some t → ∀ a, t.task.await = some a → sc.fault a env.fault

/-- A `create_decision` call that has not come to `ensure_catalog_version`. -/
def Task.BeforeEnsure : Task → Prop
  | .create _ .lookup | .create _ .enforceRpm | .create _ .currentSpend => True
  | _ => False

/-- Before that await, and at it, a call comes from before it. -/
theorem advance_beforeEnsure {w w' : World Q} {t t' : Task}
    (hadv : (controlPlane D).advance env w t = some (w', t'))
    (h : t'.BeforeEnsure ∨ t'.opens ≠ none) : t.BeforeEnsure := by
  rcases advance_cases hadv with ⟨call, pc, pc', rfl, rfl, hstep⟩ | ⟨_, _, pc', rfl, rfl, -⟩
  · cases hstep <;> simp_all [Task.BeforeEnsure, Task.opens]
  · cases pc' <;> simp [Task.BeforeEnsure, Task.opens] at h

/-- The call is open where it is awaited, and not before. -/
def StatementTask.Unopened (t : StatementTask) : Prop :=
  t.task.BeforeEnsure → t.versions = none

/-- No step opens it before. -/
theorem StatementStep.unopened (h : StatementStep D env s t s' t') (ht : t.Unopened) :
    t'.Unopened := by
  intro hbefore
  cases h with
  | ensuring htask => simp [htask, Task.BeforeEnsure] at hbefore
  | @ensured call catalog policy find find' versions reply world pc htask hfind hadv hreply
      hafter =>
    unfold afterEnsure at hafter
    split at hafter
    next =>
      obtain ⟨-, -, rfl⟩ := drawDecisionId_some hafter
      cases hbefore
    next =>
      obtain ⟨-, rfl⟩ := Prod.mk.inj (Option.some.inj hafter)
      cases hbefore
  | insertRaised => cases hbefore
  | inserted htask => simp [htask, Task.BeforeEnsure] at hbefore
  | @committed call response row htask hrow =>
    rcases s.commitStatement_task env t call response row with htask' | ⟨err, htask'⟩
    · rw [htask'] at hbefore
      cases hbefore
    · rw [htask'] at hbefore
      cases hbefore
  | @other world task hensure hstore hadv =>
    have hopens : task.opens = none := by
      unfold Task.opens
      split
      next => cases hbefore
      next => rfl
    rw [hopens, Option.none_or]
    exact ht (advance_beforeEnsure hadv (.inl hbefore))

/-- A call that has just begun has not come to it. -/
theorem Task.Started.unopened {t : Task} (h : t.Started) : t.opens = none := by
  cases h with
  | create call =>
    unfold CreateCall.start
    split <;> rfl
  | outcome call => rfl

/-- A step, as the transactions on catalog versions see it. -/
theorem StatementStep.projects {w : FindWorld String ModelCatalogVersion}
    (h : StatementStep D env s t s' t') (ht : t.Unopened) (hw : s.versions = w) :
    System.Projects transactions (fun _ a => ∀ find, a = .start find → find.pc = .select)
      (fun s w => s.versions = w) StatementTask.versions t t' s' w := by
  subst hw
  cases h with
  | ensuring htask hfind hadv =>
    exact .steps hfind rfl hadv (by rintro _ _ _ _ ⟨⟩) rfl
  | ensured htask hfind hadv =>
    exact .steps hfind rfl hadv (by rintro _ _ _ _ ⟨⟩) rfl
  | insertRaised | inserted | committed => exact .nothing rfl rfl
  | @other world task hensure hstore hadv =>
    cases hopens : task.opens with
    | none => exact .nothing (by simp) rfl
    | some find =>
      have hnone := ht (advance_beforeEnsure hadv (.inr (by simp [hopens])))
      refine .enters (u := find) hnone rfl ?_ rfl
      rintro _ _ ⟨⟩
      unfold Task.opens at hopens
      split at hopens
      next => exact Option.some.inj hopens ▸ rfl
      next => cases hopens

/-- A run of calls that begins on no rows. -/
def StatementRun (D : Deps Q) (sc : Scenario) (q : Q) (acts : List (Act StatementTask Env))
    (c : Conf (StatementWorld Q) StatementTask) : Prop :=
  (statementPlane D).Run (PermitsStatements sc)
    ⟨{ world := World.empty q, versions := ⟨.ofRows fun _ => none, 0⟩ }, []⟩ acts c

variable {q : Q} {acts : List (Act StatementTask Env)}
  {c : Conf (StatementWorld Q) StatementTask}

/-- So it is over any run. -/
theorem StatementRun.unopened (hrun : StatementRun D sc q acts c) :
    ∀ t ∈ c.tasks, t.Unopened := by
  refine System.Run.invariant (I := fun c => ∀ t ∈ c.tasks, t.Unopened) ?_ ?_ hrun (by simp)
  · intro s ts t hok h u hu
    rcases List.mem_append.mp hu with hu | hu
    · exact h u hu
    · rw [List.mem_singleton.mp hu]
      exact fun _ => hok.2.2.1
  · intro s l t r env s' t' _ hadv h
    obtain ⟨ht, hothers⟩ := forall_mem_split.mp h
    exact forall_mem_split.mpr ⟨(advanceStatement_step hadv).unopened ht, hothers⟩

/-- The transactions of a run are transactions that look up and insert. -/
theorem StatementRun.versions_inv (hrun : StatementRun D sc q acts c) :
    ∃ finds, finds.Perm (c.tasks.filterMap (·.versions)) ∧ FindInv ⟨c.world.versions, finds⟩ := by
  have hunopened : (statementPlane D).Run (fun c a => PermitsStatements sc c a
      ∧ ∀ t ∈ c.tasks, t.Unopened)
      ⟨{ world := World.empty q, versions := ⟨.ofRows fun _ => none, 0⟩ }, []⟩ acts c :=
    System.Run.strengthen hrun fun _ _ _ _ _ hpre hok _ _ => ⟨hok, StatementRun.unopened hpre⟩
  obtain ⟨acts', versions, finds, htransactions, rfl, hperm⟩ := System.Run.project
    (fun c t hok => hok.1.2.2.1)
    (fun s l t r env s' t' w hok hw hadv =>
      (advanceStatement_step hadv).projects (hok.2 t (by simp)) hw)
    hunopened rfl (List.Perm.refl _)
  exact ⟨finds, hperm, transactions_inv (fun c t hok => hok t rfl) htransactions⟩

/-- **Over a run every transaction is sound.** -/
theorem StatementRun.versions_sound (hrun : StatementRun D sc q acts c) :
    ∀ t ∈ c.tasks, ∀ find, t.versions = some find → find.Sound c.world.versions := by
  obtain ⟨finds, hperm, hinv⟩ := hrun.versions_inv
  intro t ht find hfind
  exact hinv.tasks find (hperm.mem_iff.mpr (List.mem_filterMap.mpr ⟨t, ht, hfind⟩))

end Versions

/-! ## Rows in flight -/

section InFlight

variable {D : Deps Q} {sc : Scenario} {env : Env} {s s' : StatementWorld Q} {t t' : StatementTask}
  {l r : List StatementTask}

/-- Rows conflict both ways. -/
theorem RoutingDecisionRecord.Conflicts.symm {row row' : RoutingDecisionRecord}
    (h : row.Conflicts row') : row'.Conflicts row := by
  rcases h with hid | ⟨hkey, hagent, hsame⟩
  · exact .inl hid.symm
  · exact .inr ⟨hsame ▸ hkey, hagent.symm, hsame.symm⟩

instance : Std.Symm fun row row' : RoutingDecisionRecord => ¬row.Conflicts row' where
  symm _ _ hnot hconflict := hnot hconflict.symm

/-- What `create_decision` needs of the rows. -/
theorem createDecision_of_apart {call : CreateCall} {response : RoutingDecisionResponse}
    {w : World Q} (h : ∀ o ∈ w.origins,
      ¬o.Conflicts (decisionRecord call.principal call.request response call.idempotencyKey)) :
    createDecision call.principal call.request response call.idempotencyKey w.tables
      = .ok (w.addRow (decisionRecord call.principal call.request response
          call.idempotencyKey)).tables := by
  unfold createDecision
  rw [if_neg, if_neg]
  · rfl
  · rintro ⟨hkey, hany⟩
    obtain ⟨row, hrow, hagent, hsame⟩ := by simpa using hany
    exact h _ (World.origin_mem hrow) (.inr ⟨hkey, hagent, hsame⟩)
  · intro hany
    obtain ⟨row, hrow, hid⟩ := by simpa using hany
    exact h _ (World.origin_mem hrow) (.inl hid)

/-- An insertion that passes conflicts with no row. -/
theorem apart_of_createDecision {call : CreateCall} {response : RoutingDecisionResponse}
    {w : World Q} {tables : Tables}
    (h : createDecision call.principal call.request response call.idempotencyKey w.tables
      = .ok tables) :
    ∀ o ∈ w.origins,
      ¬o.Conflicts (decisionRecord call.principal call.request response call.idempotencyKey) := by
  obtain ⟨-, hid, hkey⟩ := createDecision_ok h
  intro o ho
  obtain ⟨row, hrow, rfl⟩ := World.mem_origins.mp ho
  rintro (hsame | ⟨hsome, hagent, hsame⟩)
  · exact hid row hrow hsame
  · exact hkey hsome row hrow ⟨hagent, hsame⟩

/-- The added row is one more. -/
@[simp]
theorem World.addRow_origins (w : World Q) (row : RoutingDecisionRecord) :
    (w.addRow row).origins = w.origins ++ [row.origin] := by
  simp [World.addRow, World.origins]

/-- The row a task holds is the one of the call it makes. -/
def StatementTask.Holds (t : StatementTask) : Prop :=
  ∀ row, t.row = some row → ∃ call response, t.task = .create call (.storeDecision response)
    ∧ row = decisionRecord call.principal call.request response call.idempotencyKey

/-- The id of the row a task holds. -/
def StatementTask.rowId (t : StatementTask) : Option String :=
  t.row.map (·.decisionId)

/-- What holds of the rows in flight. No two tasks hold the same row, and no
row in flight conflicts with another or with one that is stored. -/
structure InFlight (c : Conf (StatementWorld Q) StatementTask) : Prop where
  tasks : ∀ t ∈ c.tasks, t.Holds
  ids : (c.tasks.filterMap (·.rowId)).Nodup
  held : ∀ t ∈ c.tasks, ∀ row, t.row = some row → row ∈ c.world.uncommitted
  holders : ∀ row ∈ c.world.uncommitted, ∃ t ∈ c.tasks, t.row = some row
  apart : c.world.uncommitted.Pairwise fun row row' => ¬row.Conflicts row'
  stored : ∀ row ∈ c.world.uncommitted, ∀ o ∈ c.world.world.origins, ¬o.Conflicts row

/-- A step that leaves the rows in flight and the stored rows. -/
theorem InFlight.kept (h : InFlight ⟨s, l ++ t :: r⟩) (hrow : t'.row = t.row) (ht' : t'.Holds)
    (huncommitted : s'.uncommitted = s.uncommitted)
    (horigins : s'.world.origins = s.world.origins) : InFlight ⟨s', l ++ t' :: r⟩ := by
  have hid : t'.rowId = t.rowId := by
    unfold StatementTask.rowId
    rw [hrow]
  refine ⟨?_, ?_, ?_, ?_, ?_, ?_⟩
  · exact forall_mem_split.mpr ⟨ht', (forall_mem_split.mp h.tasks).2⟩
  · have hids := h.ids
    rw [List.filterMap_append, List.filterMap_cons] at hids ⊢
    rwa [hid]
  · obtain ⟨hself, hothers⟩ := forall_mem_split.mp h.held
    refine forall_mem_split.mpr ⟨?_, ?_⟩
    · rw [hrow, huncommitted]
      exact hself
    · rw [huncommitted]
      exact hothers
  · rw [huncommitted]
    intro row hmem
    have hholder := exists_mem_split.mp (h.holders row hmem)
    rw [← hrow] at hholder
    exact exists_mem_split.mpr hholder
  · rw [huncommitted]
    exact h.apart
  · rw [huncommitted, horigins]
    exact h.stored

/-- A row that is inserted is in flight. -/
theorem InFlight.inserted {row : RoutingDecisionRecord} (h : InFlight ⟨s, l ++ t :: r⟩)
    (hnone : t.row = none) (ht' : t'.Holds) (hrow : t'.row = some row)
    (hapart : ∀ other ∈ s.uncommitted, ¬other.Conflicts row)
    (hstored : ∀ o ∈ s.world.origins, ¬o.Conflicts row) :
    InFlight ⟨{ s with uncommitted := row :: s.uncommitted }, l ++ t' :: r⟩ := by
  obtain ⟨-, hothers⟩ := forall_mem_split.mp h.held
  refine ⟨?_, ?_, ?_, ?_, ?_, ?_⟩
  · exact forall_mem_split.mpr ⟨ht', (forall_mem_split.mp h.tasks).2⟩
  · refine nodup_names_step h.ids (.inr fun id hid u hu huid => ?_)
    obtain ⟨other, hother, heq⟩ := Option.map_eq_some_iff.mp huid
    have hid' : row.decisionId = id := by simpa [StatementTask.rowId, hrow] using hid
    exact hapart other (hothers u hu other hother) (.inl (heq.trans hid'.symm))
  · refine forall_mem_split.mpr ⟨?_, fun u hu other hother => ?_⟩
    · intro other hother
      obtain rfl := Option.some.inj (hrow.symm.trans hother)
      exact List.mem_cons_self
    · exact List.mem_cons_of_mem _ (hothers u hu other hother)
  · intro other hother
    rcases List.mem_cons.mp hother with rfl | hother
    · exact ⟨t', by simp, hrow⟩
    · rcases exists_mem_split.mp (h.holders other hother) with ht | hu
      · rw [hnone] at ht
        cases ht
      · exact exists_mem_split.mpr (.inr hu)
  · refine List.pairwise_cons.mpr ⟨fun other hother hconflict => ?_, h.apart⟩
    exact hapart other hother hconflict.symm
  · intro other hother
    rcases List.mem_cons.mp hother with rfl | hother
    · exact hstored
    · exact h.stored other hother

/-- A row that is committed is not any more. -/
theorem InFlight.committed {row : RoutingDecisionRecord} (h : InFlight ⟨s, l ++ t :: r⟩)
    (hrow : t.row = some row) (hnone : t'.row = none)
    (huncommitted : s'.uncommitted = s.uncommitted.filter (·.decisionId ≠ row.decisionId))
    (horigins : s'.world.origins = s.world.origins
      ∨ s'.world.origins = s.world.origins ++ [row.origin]) :
    InFlight ⟨s', l ++ t' :: r⟩ := by
  have hself : t.rowId = some row.decisionId := by
    unfold StatementTask.rowId
    rw [hrow, Option.map_some]
  obtain ⟨hmine, hothers⟩ := forall_mem_split.mp h.held
  refine ⟨?_, ?_, ?_, ?_, ?_, ?_⟩
  · refine forall_mem_split.mpr ⟨fun other hother => ?_, (forall_mem_split.mp h.tasks).2⟩
    rw [hnone] at hother
    cases hother
  · refine nodup_names_step h.ids (.inr fun id hid => ?_)
    simp [StatementTask.rowId, hnone] at hid
  · refine forall_mem_split.mpr ⟨fun other hother => ?_, fun u hu other hother => ?_⟩
    · rw [hnone] at hother
      cases hother
    · rw [huncommitted]
      refine List.mem_filter.mpr ⟨hothers u hu other hother, decide_eq_true fun hid => ?_⟩
      refine ne_of_nodup_names h.ids hself hu ?_
      unfold StatementTask.rowId
      rw [hother, Option.map_some, hid]
  · rw [huncommitted]
    intro other hother
    obtain ⟨hmem, hne⟩ := List.mem_filter.mp hother
    rcases exists_mem_split.mp (h.holders other hmem) with ht | hu
    · obtain rfl := Option.some.inj (hrow.symm.trans ht)
      simp at hne
    · exact exists_mem_split.mpr (.inr hu)
  · rw [huncommitted]
    exact h.apart.sublist List.filter_sublist
  · rw [huncommitted]
    intro other hother
    obtain ⟨hmem, hne⟩ := List.mem_filter.mp hother
    have hkept := h.stored other hmem
    rcases horigins with heq | heq
    · rw [heq]
      exact hkept
    · rw [heq]
      refine List.forall_mem_append.mpr ⟨hkept, fun o ho => ?_⟩
      rw [List.mem_singleton.mp ho]
      -- Both were in flight, and they are not the same row.
      refine h.apart.forall (hmine row hrow) hmem ?_
      rintro rfl
      simp at hne

/-- Only a call at its insertion has a row in flight. -/
theorem StatementTask.Holds.row_none (h : t.Holds)
    (hstore : ∀ call response, t.task ≠ .create call (.storeDecision response)) : t.row = none := by
  cases hrow : t.row with
  | none => rfl
  | some row =>
    obtain ⟨call, response, htask, -⟩ := h row hrow
    exact absurd htask (hstore call response)

/-- Without a row there is nothing to hold. -/
theorem StatementTask.holds_of_none (h : t.row = none) : t.Holds := by
  intro row hrow
  rw [h] at hrow
  cases hrow

/-- What follows `ensure_catalog_version` adds no row. -/
theorem afterEnsure_origins {uuid : String} {w w' : World Q} {catalog : CatalogSnapshot}
    {policy : RoutingPolicy} {reply : Except ServiceError Unit} {pc : CreatePc}
    (h : afterEnsure uuid w catalog policy reply = some (w', pc)) : w'.origins = w.origins := by
  unfold afterEnsure at h
  split at h
  next =>
    obtain ⟨-, rfl, -⟩ := drawDecisionId_some h
    rfl
  next =>
    obtain ⟨rfl, -⟩ := Prod.mk.inj (Option.some.inj h)
    rfl

/-- Nor does what follows the insertion. -/
theorem afterStore_origins (w : World Q) (call : CreateCall) (response : RoutingDecisionResponse)
    (reply : Except ServiceError Unit) :
    (afterStore w call response reply).1.origins = w.origins := by
  unfold afterStore
  split <;> rfl

/-- The commit adds the row, if it takes effect. -/
theorem commitStatement_origins (s : StatementWorld Q) (env : Env) (t : StatementTask)
    (call : CreateCall) (response : RoutingDecisionResponse) (row : RoutingDecisionRecord) :
    (s.commitStatement env t call response row).1.world.origins = s.world.origins
      ∨ (s.commitStatement env t call response row).1.world.origins
        = s.world.origins ++ [row.origin] := by
  simp only [StatementWorld.commitStatement, afterStore_origins]
  cases env.fault with
  | raises => exact .inl rfl
  | returns | raisesAfter => exact .inr (World.addRow_origins _ _)

/-- **One step keeps the rows in flight apart.** -/
theorem InFlight.run (h : InFlight ⟨s, l ++ t :: r⟩) (hstep : StatementStep D env s t s' t') :
    InFlight ⟨s', l ++ t' :: r⟩ := by
  have ht := (forall_mem_split.mp h.tasks).1
  cases hstep with
  | ensuring => exact h.kept rfl ht rfl rfl
  | ensured htask hfind hadv hreply hafter =>
    have hnone : t.row = none := ht.row_none fun call response heq => by simp [heq] at htask
    exact h.kept rfl (StatementTask.holds_of_none hnone) rfl (afterEnsure_origins hafter)
  | insertRaised htask hrow => exact h.kept rfl (StatementTask.holds_of_none hrow) rfl rfl
  | @inserted call response row tables htask hrow heq hok hapart =>
    refine h.inserted hrow ?_ rfl hapart (heq ▸ apart_of_createDecision hok)
    rintro _ ⟨⟩
    exact ⟨call, response, htask, heq⟩
  | committed htask hrow =>
    exact h.committed hrow rfl rfl (commitStatement_origins s env t _ _ _)
  | other hensure hstore hadv =>
    refine h.kept rfl (StatementTask.holds_of_none (ht.row_none hstore)) rfl ?_
    rcases (advance_rowStep hadv).origins with horigins | ⟨call, response, -, heq, -⟩
    · exact horigins
    · exact absurd heq (hstore call response)

/-- One more call has none. -/
theorem InFlight.start (h : InFlight ⟨s, l⟩) (hrow : t.row = none) : InFlight ⟨s, l ++ [t]⟩ := by
  refine ⟨?_, ?_, ?_, ?_, h.apart, h.stored⟩
  · refine forall_mem_split.mpr ⟨StatementTask.holds_of_none hrow, fun u hu => ?_⟩
    exact h.tasks u (by simpa using hu)
  · have hid : t.rowId = none := by
      unfold StatementTask.rowId
      rw [hrow, Option.map_none]
    rw [List.filterMap_append, List.filterMap_cons_none hid, List.filterMap_nil, List.append_nil]
    exact h.ids
  · refine forall_mem_split.mpr ⟨fun row hsome => ?_, fun u hu => h.held u (by simpa using hu)⟩
    rw [hrow] at hsome
    cases hsome
  · intro row hmem
    obtain ⟨u, hu, hholds⟩ := h.holders row hmem
    exact ⟨u, List.mem_append_left _ hu, hholds⟩

/-- So they are apart over any run. -/
theorem StatementRun.inFlight {q : Q} {acts : List (Act StatementTask Env)}
    {c : Conf (StatementWorld Q) StatementTask} (hrun : StatementRun D sc q acts c) :
    InFlight c := by
  refine System.Run.invariant ?_ ?_ hrun
    ⟨by simp, by simp, by simp, by simp, .nil, by simp⟩
  · intro s ts t hok h
    exact h.start hok.2.2.2
  · intro s l t r env s' t' _ hadv h
    exact h.run (advanceStatement_step hadv)

end InFlight

/-! ## The calls that are in a transaction -/

section Awaiting

variable {D : Deps Q} {sc : Scenario} {env : Env} {s s' : StatementWorld Q} {t t' : StatementTask}

/-- A call is awaited as long as its transaction has not come to an end. -/
structure StatementTask.Awaits (t : StatementTask) : Prop where
  opened : ∀ call catalog policy, t.task = .create call (.ensureCatalog catalog policy) →
    ∃ find, t.versions = some find ∧ find.key = catalog.version
      ∧ find.row = catalogVersionRow catalog ∧ ¬find.Finished
  ended : ∀ find, t.versions = some find → ¬find.Finished →
    ∃ call catalog policy, t.task = .create call (.ensureCatalog catalog policy)

/-- Outside `ensure_catalog_version` nothing is awaited. -/
theorem StatementTask.Awaits.of_opens (h : t'.task.opens = none)
    (hended : ∀ find, t'.versions = some find → find.Finished) : t'.Awaits := by
  refine ⟨fun call catalog policy htask => ?_, fun find hfind hbusy => ?_⟩
  · rw [htask] at h
    cases h
  · exact absurd (hended find hfind) hbusy

/-- Its transaction has ended there. -/
theorem StatementTask.Awaits.finished (h : t.Awaits) (hopens : t.task.opens = none) :
    ∀ find, t.versions = some find → find.Finished := by
  intro find hfind
  by_contra hbusy
  obtain ⟨call, catalog, policy, htask⟩ := h.ended find hfind hbusy
  rw [htask] at hopens
  cases hopens

/-- What follows it is outside. -/
theorem afterEnsure_opens {uuid : String} {w w' : World Q} {catalog : CatalogSnapshot}
    {policy : RoutingPolicy} {reply : Except ServiceError Unit} {pc : CreatePc}
    (h : afterEnsure uuid w catalog policy reply = some (w', pc)) (call : CreateCall) :
    (Task.create call pc).opens = none := by
  unfold afterEnsure at h
  split at h
  next =>
    obtain ⟨-, -, rfl⟩ := drawDecisionId_some h
    rfl
  next =>
    obtain ⟨-, rfl⟩ := Prod.mk.inj (Option.some.inj h)
    rfl

/-- A step awaits what it has begun. -/
theorem StatementStep.awaits (h : StatementStep D env s t s' t') (ht : t.Awaits) : t'.Awaits := by
  cases h with
  | @ensuring call catalog policy find find' versions htask hfind hadv hbusy =>
    obtain ⟨find₁, hfind₁, hkey, hrow, -⟩ := ht.opened _ _ _ htask
    obtain rfl := Option.some.inj (hfind.symm.trans hfind₁)
    obtain ⟨hkey', hrow'⟩ := (FindTask.advance_cases hadv).names
    refine ⟨fun call' catalog' policy' htask' => ?_, fun _ _ _ => ⟨_, _, _, htask⟩⟩
    obtain ⟨-, hpc⟩ := Task.create.inj (htask.symm.trans htask')
    obtain ⟨rfl, rfl⟩ := CreatePc.ensureCatalog.inj hpc
    refine ⟨find', rfl, hkey'.trans hkey, hrow'.trans hrow, ?_⟩
    rintro (hreturned | hraised)
    · exact hbusy.1 hreturned
    · exact hbusy.2 hraised
  | ensured htask hfind hadv hreply hafter =>
    refine .of_opens (afterEnsure_opens hafter _) ?_
    rintro _ ⟨⟩
    rcases hreply with ⟨hpc, -⟩ | ⟨hpc, -⟩
    · exact .inl hpc
    · exact .inr hpc
  | insertRaised htask => exact .of_opens rfl (ht.finished (by rw [htask]; rfl))
  | inserted htask =>
    exact .of_opens (by rw [htask]; rfl) (ht.finished (by rw [htask]; rfl))
  | @committed call response row htask =>
    refine .of_opens ?_ (ht.finished (by rw [htask]; rfl))
    rcases s.commitStatement_task env t call response row with htask' | ⟨err, htask'⟩
    · rw [htask']
      rfl
    · rw [htask']
      rfl
  | @other world task hensure hstore hadv =>
    cases hopens : task.opens with
    | none => exact .of_opens hopens (ht.finished hensure)
    | some find =>
      unfold Task.opens at hopens
      split at hopens
      next call catalog policy =>
        obtain rfl := Option.some.inj hopens
        refine ⟨?_, fun _ _ _ => ⟨_, _, _, rfl⟩⟩
        rintro _ _ _ ⟨⟩
        exact ⟨_, rfl, rfl, rfl, by rintro (h | h) <;> cases h⟩
      next => cases hopens

/-- So every call of a run does. -/
theorem StatementRun.awaits {q : Q} {acts : List (Act StatementTask Env)}
    {c : Conf (StatementWorld Q) StatementTask} (hrun : StatementRun D sc q acts c) :
    ∀ t ∈ c.tasks, t.Awaits := by
  refine System.Run.invariant (I := fun c => ∀ t ∈ c.tasks, t.Awaits) ?_ ?_ hrun (by simp)
  · intro s ts t hok h
    refine forall_mem_split.mpr ⟨.of_opens hok.1.unopened ?_, fun u hu => h u (by simpa using hu)⟩
    simp [hok.2.2.1]
  · intro s l t r env s' t' _ hadv h
    obtain ⟨ht, hothers⟩ := forall_mem_split.mp h
    exact forall_mem_split.mpr ⟨(advanceStatement_step hadv).awaits ht, hothers⟩

end Awaiting

end ControlPlane
