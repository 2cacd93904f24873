import ControlPlane.SequentialCreation
import ControlPlane.Statements
import ControlPlane.Traces

/-!
# Statements and awaits

Every run of `statementPlane` is one of `controlPlane`: each of the two
transactions is a single await there, which returns, raises, or raises after
its effect (`statements_refine`). So what holds of the runs of `controlPlane`
holds of these. The waits between open transactions hold nobody up for ever
(`statements_end`).
-/

namespace ControlPlane

open Lib

variable {Q : Type}

/-! ## As single awaits -/

section Frame

variable {D : Deps Q} {env : Env}

/-- The world with other catalog versions. -/
def World.withVersions (w : World Q) (versions : List ModelCatalogVersion) : World Q :=
  { w with tables := { w.tables with catalogVersions := versions } }

/-- An await does not look at the catalog versions. -/
theorem awaited_withVersions {α : Type} (fault : Fault) (w w₁ : World Q)
    (versions : List ModelCatalogVersion) (reply : Except ServiceError α) :
    awaited fault (w.withVersions versions) (w₁.withVersions versions, reply)
      = ((awaited fault w (w₁, reply)).1.withVersions versions,
        (awaited fault w (w₁, reply)).2) := by
  cases fault <;> rfl

/-- Nor does a call of the quota manager. -/
theorem awaited_withVersions_quota (fault : Fault) (w : World Q)
    (versions : List ModelCatalogVersion) (call : Q × Except ServiceError Unit) :
    awaited fault (w.withVersions versions) ((w.withVersions versions).withQuota call)
      = ((awaited fault w (w.withQuota call)).1.withVersions versions,
        (awaited fault w (w.withQuota call)).2) :=
  awaited_withVersions fault w { w with quota := call.1 } versions call.2

/-- Nor does `record_outcome`. -/
theorem insertOutcome_withVersions (w : World Q) (versions : List ModelCatalogVersion)
    (call : OutcomeCall) (record : RoutingDecisionRecord) :
    (w.withVersions versions).insertOutcome call record
      = ((w.insertOutcome call record).1.withVersions versions,
        (w.insertOutcome call record).2) := by
  unfold World.insertOutcome recordOutcome
  rw [show (w.withVersions versions).tables.getDecisionContext record.decisionId
    = w.tables.getDecisionContext record.decisionId from rfl]
  cases w.tables.getDecisionContext record.decisionId with
  | none => rfl
  | some decision =>
    dsimp only
    cases decision.outcomePayload with
    | some payload =>
      simp only [ite_self]
    | none => rfl

/-- Nor does the drawing of an id. -/
theorem drawDecisionId_withVersions (uuid : String) (w : World Q)
    (versions : List ModelCatalogVersion) (catalog : CatalogSnapshot) (policy : RoutingPolicy) :
    drawDecisionId uuid (w.withVersions versions) catalog policy
      = (drawDecisionId uuid w catalog policy).map fun next =>
        (next.1.withVersions versions, next.2) := by
  unfold drawDecisionId
  by_cases hissued : uuid ∈ w.issued
  · rw [if_pos hissued, if_pos (show uuid ∈ (w.withVersions versions).issued from hissued)]
    rfl
  · rw [if_neg hissued, if_neg (show uuid ∉ (w.withVersions versions).issued from hissued)]
    rfl

/-- The other awaits of a creation do not look at the catalog versions. -/
theorem advanceCreate_withVersions (w : World Q) (versions : List ModelCatalogVersion)
    (call : CreateCall) {pc : CreatePc} (hensure : (Task.create call pc).opens = none)
    (hstore : ∀ response, pc ≠ .storeDecision response) :
    advanceCreate D env (w.withVersions versions) call pc
      = (advanceCreate D env w call pc).map fun next => (next.1.withVersions versions, next.2) := by
  cases pc with
  | lookup =>
    simp only [advanceCreate]
    rw [show (w.withVersions versions).tables.getByIdempotency call.principal.agentId
      call.idempotencyKey = w.tables.getByIdempotency call.principal.agentId call.idempotencyKey
      from rfl, awaited_withVersions]
    rcases awaited env.fault w (w, _) with ⟨w₁, err | (_ | existing)⟩ <;> rfl
  | enforceRpm =>
    simp only [advanceCreate]
    rw [show (w.withVersions versions).quota = w.quota from rfl, awaited_withVersions_quota]
    rcases awaited env.fault w (w.withQuota _) with ⟨w₁, err | _⟩ <;> rfl
  | currentSpend =>
    simp only [advanceCreate]
    rw [show (w.withVersions versions).quota = w.quota from rfl, awaited_withVersions]
    rcases awaited env.fault w (w, _) with ⟨w₁, err | currentSpend⟩
    · rfl
    · dsimp only
      cases admission D env.catalog call currentSpend with
      | error err => rfl
      | ok admitted => rfl
  | ensureCatalog catalog policy => cases hensure
  | ensurePolicies catalog policy =>
    simp only [advanceCreate]
    have haw : awaited env.fault (w.withVersions versions)
        ({ w.withVersions versions with
            tables := ensurePolicies (D.policies.map (·.2)) (w.withVersions versions).tables },
          .ok ()) = _ :=
      awaited_withVersions env.fault w
        { w with tables := ensurePolicies (D.policies.map (·.2)) w.tables } versions (.ok ())
    rw [haw]
    exact drawDecisionId_withVersions _ _ _ _ _
  | reserve catalog policy decisionId =>
    simp only [advanceCreate]
    rw [show (w.withVersions versions).quota = w.quota from rfl, awaited_withVersions_quota]
    rcases awaited env.fault w (w.withQuota _) with ⟨w₁, err | _⟩ <;> rfl
  | getSignals catalog policy decisionId =>
    simp only [advanceCreate]
    rw [awaited_withVersions]
    rcases awaited env.fault w (w, .ok env.signals) with ⟨w₁, err | signals⟩
    · rfl
    · dsimp only
      cases calculateRoutingDecision call.request catalog policy signals
        D.settings.signalFreshnessSeconds D.settings.decisionTtlSeconds env.runtime with
      | error err => rfl
      | ok response => rfl
  | storeDecision response => exact absurd rfl (hstore response)
  | release decisionId err =>
    simp only [advanceCreate]
    have haw : awaited env.fault (w.withVersions versions)
        ((w.withVersions versions).releaseSlot D call.principal decisionId, .ok ()) = _ :=
      awaited_withVersions env.fault w (w.releaseSlot D call.principal decisionId) versions (.ok ())
    rw [haw]
    rcases awaited env.fault w (w.releaseSlot D call.principal decisionId, .ok ()) with
      ⟨w₁, err' | _⟩ <;> rfl
  | returned drawn response => rfl
  | raised drawn err => rfl

/-- Nor does any step of a report. -/
theorem advanceOutcome_withVersions (w : World Q) (versions : List ModelCatalogVersion)
    (call : OutcomeCall) (pc : OutcomePc) :
    advanceOutcome D env (w.withVersions versions) call pc
      = (advanceOutcome D env w call pc).map fun next =>
        (next.1.withVersions versions, next.2) := by
  cases pc with
  | enforceRpm =>
    simp only [advanceOutcome]
    rw [show (w.withVersions versions).quota = w.quota from rfl, awaited_withVersions_quota]
    rcases awaited env.fault w (w.withQuota _) with ⟨w₁, err | _⟩ <;> rfl
  | getContext =>
    simp only [advanceOutcome]
    rw [show (w.withVersions versions).tables.getDecisionContext call.outcome.decisionId
      = w.tables.getDecisionContext call.outcome.decisionId from rfl, awaited_withVersions]
    rcases awaited env.fault w (w, _) with ⟨w₁, err | context⟩
    · rfl
    · dsimp only
      cases checkOwnership call context with
      | error err => rfl
      | ok record => rfl
  | storeOutcome record =>
    simp only [advanceOutcome]
    rw [insertOutcome_withVersions, awaited_withVersions]
    rcases awaited env.fault w (w.insertOutcome call record) with ⟨w₁, err | response⟩
    · rfl
    · dsimp only
      split <;> rfl
  | release response =>
    simp only [advanceOutcome]
    have haw : awaited env.fault (w.withVersions versions)
        ((w.withVersions versions).releaseSlot D call.principal call.outcome.decisionId, .ok ())
          = _ :=
      awaited_withVersions env.fault w (w.releaseSlot D call.principal call.outcome.decisionId)
        versions (.ok ())
    rw [haw]
    rcases awaited env.fault w
      (w.releaseSlot D call.principal call.outcome.decisionId, .ok ()) with ⟨w₁, err | _⟩ <;> rfl
  | recordSpend response =>
    simp only [advanceOutcome]
    have haw : awaited env.fault (w.withVersions versions)
        ((w.withVersions versions).chargeSpend D env.clock call, .ok ()) = _ :=
      awaited_withVersions env.fault w (w.chargeSpend D env.clock call) versions (.ok ())
    rw [haw]
    rcases awaited env.fault w (w.chargeSpend D env.clock call, .ok ()) with
      ⟨w₁, err | _⟩ <;> rfl
  | publish response =>
    simp only [advanceOutcome]
    have haw : awaited env.fault (w.withVersions versions)
        ({ w.withVersions versions with
            events := (w.withVersions versions).events ++ [outcomeEvent call] }, .ok ()) = _ :=
      awaited_withVersions env.fault w
        { w with events := w.events ++ [outcomeEvent call] } versions (.ok ())
    rw [haw]
    rcases awaited env.fault w
      ({ w with events := w.events ++ [outcomeEvent call] }, .ok ()) with ⟨w₁, err | _⟩ <;> rfl
  | returned response => rfl
  | raised err => rfl

/-- Nor does the insertion of a decision. -/
theorem insertDecision_withVersions (w : World Q) (versions : List ModelCatalogVersion)
    (call : CreateCall) (response : RoutingDecisionResponse) :
    (w.withVersions versions).insertDecision call response
      = ((w.insertDecision call response).1.withVersions versions,
        (w.insertDecision call response).2) := by
  unfold World.insertDecision createDecision
  rw [show (w.withVersions versions).tables.decisions = w.tables.decisions from rfl]
  split_ifs <;> rfl

/-- Nor does what follows it. -/
theorem afterStore_withVersions (w : World Q) (versions : List ModelCatalogVersion)
    (call : CreateCall) (response : RoutingDecisionResponse) (reply : Except ServiceError Unit) :
    afterStore (w.withVersions versions) call response reply
      = ((afterStore w call response reply).1.withVersions versions,
        (afterStore w call response reply).2) := by
  unfold afterStore
  split <;> rfl

/-- A step looks at them in `ensure_catalog_version` only. -/
theorem advance_withVersions (w : World Q) (versions : List ModelCatalogVersion) {task : Task}
    (hensure : task.opens = none)
    (hstore : ∀ call response, task ≠ .create call (.storeDecision response)) :
    advance D env (w.withVersions versions) task
      = (advance D env w task).map fun next => (next.1.withVersions versions, next.2) := by
  cases task with
  | create call pc =>
    have hpc : ∀ response, pc ≠ .storeDecision response := by
      rintro response rfl
      exact hstore call response rfl
    simp only [advance]
    rw [advanceCreate_withVersions w versions call hensure hpc, Option.map_map, Option.map_map]
    rfl
  | outcome call pc =>
    simp only [advance]
    rw [advanceOutcome_withVersions, Option.map_map, Option.map_map]
    rfl

end Frame

section Refinement

variable {D : Deps Q} {sc : Scenario} {env : Env} {s s' : StatementWorld Q} {w : World Q}
  {t t' : StatementTask}

/-- The world that has what is committed, and nothing else. -/
structure Represents (s : StatementWorld Q) (w : World Q) : Prop where
  world : w = s.world.withVersions w.tables.catalogVersions
  versions : ∀ version, s.versions.index.committed version
    = w.tables.catalogVersions.find? (·.version = version)

/-- Found by version, `ensure_catalog_version` is a find-or-insert. -/
theorem find_ensureCatalogVersion (catalog : CatalogSnapshot) (tables : Tables) (version : String) :
    (ensureCatalogVersion catalog tables).catalogVersions.find? (·.version = version)
      = ensure catalog.version (catalogVersionRow catalog)
        (fun version => tables.catalogVersions.find? (·.version = version)) version := by
  unfold ensureCatalogVersion
  by_cases hany : tables.catalogVersions.any (·.version = catalog.version) = true
  · rw [if_pos hany, ensure_of_found]
    simpa using hany
  · have hmissing : tables.catalogVersions.find? (·.version = catalog.version) = none := by
      simpa using hany
    have hupdate : ensure catalog.version (catalogVersionRow catalog)
        (fun version => tables.catalogVersions.find? (·.version = version)) = _ :=
      ensure_of_missing hmissing
    rw [if_neg hany, hupdate, List.find?_append]
    by_cases hversion : version = catalog.version
    · subst hversion
      rw [hmissing, Function.update_self, Option.none_or]
      simp [catalogVersionRow]
    · rw [Function.update_of_ne hversion]
      simp [Ne.symm hversion]

/-- Its await, by what follows it. -/
theorem advanceCreate_ensureCatalog (env : Env) (w : World Q) (call : CreateCall)
    (catalog : CatalogSnapshot) (policy : RoutingPolicy) :
    advanceCreate D env w call (.ensureCatalog catalog policy)
      = afterEnsure env.uuid
        (awaited env.fault w
          ({ w with tables := ensureCatalogVersion catalog w.tables }, .ok ())).1 catalog policy
        (awaited env.fault w
          ({ w with tables := ensureCatalogVersion catalog w.tables }, .ok ())).2 := by
  simp only [advanceCreate]
  rcases awaited env.fault w
    ({ w with tables := ensureCatalogVersion catalog w.tables }, .ok ()) with ⟨w₁, err | _⟩ <;> rfl

/-- The await of the insertion, by what follows it. -/
theorem advanceCreate_storeDecision (env : Env) (w : World Q) (call : CreateCall)
    (response : RoutingDecisionResponse) :
    advanceCreate D env w call (.storeDecision response)
      = some (afterStore (awaited env.fault w (w.insertDecision call response)).1 call response
        (awaited env.fault w (w.insertDecision call response)).2) := by
  simp only [advanceCreate]
  rcases awaited env.fault w (w.insertDecision call response) with ⟨w₁, err | _⟩ <;> rfl

/-- What follows looks at none of the versions. -/
theorem afterEnsure_withVersions (uuid : String) (w : World Q)
    (versions : List ModelCatalogVersion) (catalog : CatalogSnapshot) (policy : RoutingPolicy)
    (reply : Except ServiceError Unit) :
    afterEnsure uuid (w.withVersions versions) catalog policy reply
      = (afterEnsure uuid w catalog policy reply).map fun next =>
        (next.1.withVersions versions, next.2) := by
  unfold afterEnsure
  split
  · exact drawDecisionId_withVersions _ _ _ _ _
  · rfl

/-- A step is permitted by its fault alone. -/
theorem permits_run {u : Task} (h : ∀ a, u.await = some a → sc.fault a env.fault) :
    ∀ (ts : List Task) (i : ℕ), ts[i]? = some u → sc.Permits ⟨w, ts⟩ (.run i env) := by
  intro ts i hu t ht
  obtain rfl := Option.some.inj (hu.symm.trans ht)
  exact h

/-- The versions past the await. -/
theorem withVersions_ensureCatalogVersion (w : World Q) (catalog : CatalogSnapshot) :
    ({ w with tables := ensureCatalogVersion catalog w.tables } : World Q)
      = w.withVersions (ensureCatalogVersion catalog w.tables).catalogVersions := by
  unfold ensureCatalogVersion
  split <;> rfl

/-- The await of `ensure_catalog_version`, where its transaction has ended. -/
theorem exists_awaited_ensured {fault : Fault} {catalog : CatalogSnapshot}
    {versions : FindWorld String ModelCatalogVersion} (hw : Represents s w)
    (hversions : versions.index.committed = if fault = .raises then s.versions.index.committed
      else ensure catalog.version (catalogVersionRow catalog) s.versions.index.committed) :
    ∃ rows, (awaited fault w ({ w with tables := ensureCatalogVersion catalog w.tables },
        (.ok () : Except ServiceError Unit))).1 = s.world.withVersions rows
      ∧ ∀ version, versions.index.committed version = rows.find? (·.version = version) := by
  have hkept : s.versions.index.committed
      = fun version => w.tables.catalogVersions.find? (·.version = version) :=
    funext hw.versions
  have hwritten : ({ w with tables := ensureCatalogVersion catalog w.tables } : World Q)
      = s.world.withVersions (ensureCatalogVersion catalog w.tables).catalogVersions := by
    rw [withVersions_ensureCatalogVersion]
    nth_rewrite 1 [hw.world]
    rfl
  rw [hkept] at hversions
  cases fault with
  | raises => exact ⟨_, hw.world, congrFun hversions⟩
  | returns | raisesAfter =>
    refine ⟨_, hwritten, fun version => ?_⟩
    rw [hversions, if_neg (by decide), find_ensureCatalogVersion]

/-- The step that ends `ensure_catalog_version` is its await, with the fault
`fault`. -/
theorem refines_ensured {call : CreateCall} {catalog : CatalogSnapshot} {policy : RoutingPolicy}
    {versions : FindWorld String ModelCatalogVersion} {world : World Q} {pc : CreatePc}
    {reply : Except ServiceError Unit} (fault : Fault)
    (hpermits : sc.fault .ensureCatalogVersion fault) (hw : Represents s w)
    (hafter : afterEnsure env.uuid s.world catalog policy reply = some (world, pc))
    (hreply : reply = if fault = .returns then .ok () else .error .unavailable)
    (hversions : versions.index.committed = if fault = .raises then s.versions.index.committed
      else ensure catalog.version (catalogVersionRow catalog) s.versions.index.committed) :
    System.Refines (controlPlane D) sc.Permits Represents
      (.create call (.ensureCatalog catalog policy)) (.create call pc)
      { s with world, versions } w := by
  obtain ⟨rows, hworld, hrows⟩ := exists_awaited_ensured hw hversions
  refine .steps (e := { env with fault }) (v := world.withVersions rows) ?_
    (permits_run ?_) ⟨rfl, hrows⟩
  · have hawaited : (awaited fault w ({ w with tables := ensureCatalogVersion catalog w.tables },
        (.ok () : Except ServiceError Unit))).2 = reply := by
      rw [hreply]
      cases fault <;> rfl
    simp only [controlPlane, advance]
    rw [advanceCreate_ensureCatalog, hworld, hawaited, afterEnsure_withVersions, hafter]
    rfl
  · rintro _ ⟨⟩
    exact hpermits

/-- **A statement is an await of the service, or nothing yet.** -/
theorem StatementStep.refines (h : StatementStep D env s t s' t')
    (hok : ∀ a, t.task.await = some a → sc.fault a env.fault)
    (hensure : sc.fault .ensureCatalogVersion .raises)
    (hcreate : sc.fault .createDecision .raisesAfter → sc.fault .createDecision .raises)
    (hawaits : t.Awaits) (hsound : ∀ find, t.versions = some find → find.Sound s.versions)
    (hholds : t.Holds)
    (hstored : ∀ row, t.row = some row → ∀ o ∈ s.world.origins, ¬o.Conflicts row)
    (hw : Represents s w) :
    System.Refines (controlPlane D) sc.Permits Represents t.task t'.task s' w := by
  cases h with
  | ensuring htask hfind hadv hbusy =>
    refine .nothing rfl ⟨hw.world, fun version => ?_⟩
    have hkept := (FindTask.advance_cases hadv).committed_of_busy (not_or.mpr hbusy)
    rw [← hw.versions, hkept]
  | @ensured call catalog policy find find' versions reply world pc htask hfind hadv hreply
      hafter =>
    rw [htask] at hok ⊢
    obtain ⟨find₁, hfind₁, hkey, hrow, -⟩ := hawaits.opened _ _ _ htask
    obtain rfl := Option.some.inj (hfind.symm.trans hfind₁)
    have hfinished : find'.Finished := hreply.imp And.left And.left
    have hfault := hok _ rfl
    have hraised : find'.pc = .raised → reply = .error .unavailable := by
      intro hpc
      rcases hreply with ⟨hreturned, -⟩ | ⟨-, hreply⟩
      · rw [hpc] at hreturned
        cases hreturned
      · exact hreply
    rcases (FindTask.advance_cases hadv).committed_of_finished (hsound _ hfind) hfinished with
      ⟨hpc, hsent, hversions⟩ | ⟨hpc, hversions⟩ | ⟨hpc, hsent, hversions⟩
    · have hreply' : reply = .ok () := by
        rcases hreply with ⟨-, hreply⟩ | ⟨hraised, -⟩
        · exact hreply
        · rw [hpc] at hraised
          cases hraised
      rw [Fault.sent_succeeds hsent] at hfault
      exact refines_ensured .returns hfault hw hafter hreply' (hkey ▸ hrow ▸ hversions)
    · exact refines_ensured .raises hensure hw hafter (hraised hpc) hversions
    · rw [Fault.sent_succeedsUnnoticed hsent] at hfault
      exact refines_ensured .raisesAfter hfault hw hafter (hraised hpc) (hkey ▸ hrow ▸ hversions)
  | @insertRaised call response err htask hrow herr =>
    rw [htask] at hok ⊢
    have hfault := hok _ rfl
    rcases herr with ⟨hraises, rfl⟩ | ⟨hreturns, herr⟩
    · refine .steps (e := { env with fault := .raises }) ?_ (permits_run ?_) hw
      · simp only [controlPlane, advance]
        rw [advanceCreate_storeDecision]
        rfl
      · rintro _ ⟨⟩
        cases hf : env.fault with
        | returns => exact absurd hf hraises
        | raises => exact hf ▸ hfault
        | raisesAfter => exact hcreate (hf ▸ hfault)
    · refine .steps (e := env) ?_ (permits_run hok) hw
      have hinsert : s.world.insertDecision call response = (s.world, .error err) := by
        unfold World.insertDecision
        rw [herr]
      simp only [controlPlane, advance]
      rw [advanceCreate_storeDecision, hw.world, insertDecision_withVersions, hinsert, hreturns]
      rfl
  | inserted => exact .nothing rfl ⟨hw.world, hw.versions⟩
  | @committed call response row htask hrow =>
    obtain ⟨call₁, response₁, htask₁, rfl⟩ := hholds _ hrow
    obtain ⟨rfl, hpc⟩ := Task.create.inj (htask.symm.trans htask₁)
    obtain rfl := CreatePc.storeDecision.inj hpc
    rw [htask] at hok ⊢
    have hinsert : s.world.insertDecision call response
        = (s.world.addRow (decisionRecord call.principal call.request response
            call.idempotencyKey), .ok ()) := by
      unfold World.insertDecision
      rw [createDecision_of_apart (hstored _ hrow)]
      rfl
    refine .steps (e := env) (v := World.withVersions _ w.tables.catalogVersions) ?_
      (permits_run hok) ⟨rfl, hw.versions⟩
    simp only [controlPlane, advance]
    rw [advanceCreate_storeDecision, hw.world, insertDecision_withVersions, hinsert,
      awaited_withVersions, afterStore_withVersions]
    rfl
  | @other world task hopens hstore hadv =>
    refine .steps (e := env) (v := world.withVersions w.tables.catalogVersions) ?_
      (permits_run hok) ⟨rfl, hw.versions⟩
    simp only [controlPlane] at hadv ⊢
    rw [hw.world, advance_withVersions _ _ hopens hstore, hadv]
    rfl

/-- **The two transactions are single awaits.** Where calls run these
statement by statement, what is stored and what becomes of every call is what
a run of the control plane leads to. -/
theorem statements_refine {q : Q} {acts : List (Act StatementTask Env)}
    {c : Conf (StatementWorld Q) StatementTask}
    (hensure : sc.fault .ensureCatalogVersion .raises)
    (hcreate : sc.fault .createDecision .raisesAfter → sc.fault .createDecision .raises)
    (hrun : StatementRun D sc q acts c) :
    ∃ acts' w, RunIn D sc ⟨World.empty q, []⟩ acts' ⟨w, c.tasks.map (·.task)⟩
      ∧ Represents c.world w := by
  have hinv : (statementPlane D).Run (fun c a => PermitsStatements sc c a
      ∧ (∀ t ∈ c.tasks, t.Awaits) ∧ InFlight c
        ∧ ∀ t ∈ c.tasks, ∀ find, t.versions = some find → find.Sound c.world.versions)
      ⟨{ world := World.empty q, versions := ⟨.ofRows fun _ => none, 0⟩ }, []⟩ acts c :=
    System.Run.strengthen hrun fun _ _ _ _ _ hpre hok _ _ =>
      ⟨hok, StatementRun.awaits hpre, StatementRun.inFlight hpre, StatementRun.versions_sound hpre⟩
  refine System.Run.refines (R := Represents) (f := StatementTask.task) ?_ ?_ hinv ?_
  · intro s ts w t hok
    exact ⟨hok.1.1, hok.1.2.1⟩
  · intro s l t r env s' t' w hok hw hadv
    have hmem : t ∈ l ++ t :: r := by simp
    have hself := hok.1 t (getElem?_split_self t)
    exact (advanceStatement_step hadv).refines hself hensure hcreate (hok.2.1 t hmem)
      (hok.2.2.2 t hmem) (hok.2.2.1.tasks t hmem)
      (fun row hrow => hok.2.2.1.stored row (hok.2.2.1.held t hmem row hrow)) hw
  · exact ⟨rfl, fun _ => rfl⟩

/-! ### Two calls with one key -/

/-- Two calls of one agent with one key, and the order they take their steps
in. -/
def twoCreations (schedule : List ℕ) : List (Act StatementTask Env) :=
  List.replicate 2 (.start { task := labCreate keyedCall })
    ++ schedule.map fun i => .run i (labEnv (if i = 0 then "a" else "b"))

/-- Both look the version up and the first inserts it; the first has its
decision's row in flight when the second comes to insert its own. -/
def rowInFlight : List ℕ :=
  [0, 0, 0, 1, 1, 1, 0, 1, 0, 0, 1, 0, 0, 0, 1, 1, 0]

/-- The first commits, the second is refused. -/
def secondRefused : List ℕ :=
  rowInFlight ++ [0, 1, 1]

/-- A run of two creations, checked by running it. -/
theorem exists_twoCreations (schedule : List ℕ)
    (P : Conf (StatementWorld InMemoryQuota) StatementTask → Bool)
    (h : ((statementPlane labDeps).exec
      ⟨{ world := World.empty {}, versions := ⟨.ofRows fun _ => none, 0⟩ }, []⟩
      (twoCreations schedule)).any P = true) :
    ∃ c, StatementRun labDeps anything {} (twoCreations schedule) c ∧ P c = true := by
  obtain ⟨c, hexec, hP⟩ := (Option.any_eq_true _ _).mp h
  refine ⟨c, System.Run.of_exec (fun a ha c₁ => ?_) hexec, hP⟩
  rcases List.mem_append.mp ha with ha | ha
  · rw [List.eq_of_mem_replicate ha]
    exact ⟨.create keyedCall, trivial, rfl, rfl⟩
  · obtain ⟨i, -, rfl⟩ := List.mem_map.mp ha
    exact fun _ _ _ _ => trivial

/-- The second call is refused by the index, here and in a run of single
awaits. -/
theorem statements_refine_race :
    ∃ c, StatementRun labDeps anything {} (twoCreations secondRefused) c
      ∧ c.tasks.map (·.task.failure)
        = [none, some (.integrityError "uq_routing_decisions_agent_idempotency")]
      ∧ ∃ acts' w, RunIn labDeps anything ⟨World.empty {}, []⟩ acts' ⟨w, c.tasks.map (·.task)⟩
        ∧ Represents c.world w := by
  obtain ⟨c, hrun, hrefused⟩ := exists_twoCreations secondRefused
    (fun c => decide (c.tasks.map (·.task.failure)
      = [none, some (.integrityError "uq_routing_decisions_agent_idempotency")]))
    (by decide +kernel)
  exact ⟨c, hrun, of_decide_eq_true hrefused,
    statements_refine trivial (fun _ => trivial) hrun⟩

end Refinement

/-! ## Coming to an end -/

section Ending

variable {D : Deps Q} {sc : Scenario} {env : Env} {s s' : StatementWorld Q} {w : World Q}
  {t t' : StatementTask}

/-- A fresh id can be drawn. -/
theorem drawDecisionId_ne_none {uuid : String} (hfresh : uuid ∉ w.issued)
    (catalog : CatalogSnapshot) (policy : RoutingPolicy) :
    drawDecisionId uuid w catalog policy ≠ none := by
  unfold drawDecisionId
  rw [if_neg hfresh]
  simp

/-- A call that has not ended can take its next step. -/
theorem advanceCreate_ne_none (hreturns : env.fault = .returns) (hfresh : env.uuid ∉ w.issued)
    (call : CreateCall) {pc : CreatePc} (hbusy : (Task.create call pc).await ≠ none) :
    advanceCreate D env w call pc ≠ none := by
  cases pc with
  | ensureCatalog catalog policy =>
    rw [advanceCreate_ensureCatalog, hreturns]
    simp [awaited, afterEnsure]
  | ensurePolicies catalog policy =>
    simp only [advanceCreate, hreturns, awaited]
    unfold drawDecisionId
    rw [if_neg hfresh]
    simp
  | storeDecision response =>
    rw [advanceCreate_storeDecision]
    simp
  | lookup | enforceRpm | currentSpend | reserve | getSignals =>
    simp only [advanceCreate, hreturns, awaited]
    split <;> simp
  | release =>
    simp only [advanceCreate, hreturns, awaited]
    simp
  | returned | raised => exact absurd rfl hbusy

/-- A report that has not ended can go on. -/
theorem advanceOutcome_ne_none (hreturns : env.fault = .returns) (call : OutcomeCall)
    {pc : OutcomePc} (hbusy : (Task.outcome call pc).await ≠ none) :
    advanceOutcome D env w call pc ≠ none := by
  cases pc with
  | enforceRpm | getContext =>
    simp only [advanceOutcome, hreturns, awaited]
    split <;> simp
  | release | recordSpend | publish =>
    simp only [advanceOutcome, hreturns, awaited]
    simp
  | storeOutcome record =>
    simp only [advanceOutcome, hreturns, awaited]
    split
    · simp
    · split <;> simp
  | returned | raised => exact absurd rfl hbusy

/-- So can any call. -/
theorem advance_ne_none (hreturns : env.fault = .returns) (hfresh : env.uuid ∉ w.issued)
    {task : Task} (hbusy : task.await ≠ none) : advance D env w task ≠ none := by
  cases task with
  | create call pc => simpa [advance] using advanceCreate_ne_none hreturns hfresh call hbusy
  | outcome call pc => simpa [advance] using advanceOutcome_ne_none hreturns call hbusy

/-- A transaction that can take a step lets its call take one. -/
theorem ensureStatement_ne_none (hreturns : env.fault = .returns)
    (hfresh : env.uuid ∉ s.world.issued) {call : CreateCall} {catalog : CatalogSnapshot}
    {policy : RoutingPolicy} {find : FindTask String ModelCatalogVersion}
    (hadv : find.advance .succeeds s.versions ≠ none) :
    s.ensureStatement env t call catalog policy find ≠ none := by
  obtain ⟨⟨versions, find'⟩, hadv⟩ := Option.ne_none_iff_exists'.mp hadv
  unfold StatementWorld.ensureStatement
  rw [hreturns, show transactions.advance Fault.returns.sent s.versions find
    = some (versions, find') from hadv]
  dsimp only
  split
  · simp [afterEnsure]
  · simpa [afterEnsure] using drawDecisionId_ne_none hfresh catalog policy
  · simp

/-- Only a creation opens the transaction. -/
theorem Task.opens_ne_none {task : Task} (h : task.opens ≠ none) :
    ∃ call catalog policy, task = .create call (.ensureCatalog catalog policy) := by
  unfold Task.opens at h
  split at h
  next => exact ⟨_, _, _, rfl⟩
  next => exact absurd rfl h

/-- A find-or-insert that goes on lets its call go on. -/
theorem advance_ensure_ne_none (hreturns : env.fault = .returns)
    (hfresh : env.uuid ∉ s.world.issued) {find : FindTask String ModelCatalogVersion}
    (htask : t.task.opens ≠ none) (hfind : t.versions = some find)
    (hadv : find.advance .succeeds s.versions ≠ none) :
    (statementPlane D).advance env s t ≠ none := by
  obtain ⟨call, catalog, policy, htask⟩ := Task.opens_ne_none htask
  simp only [statementPlane, advanceStatement, htask, hfind]
  exact ensureStatement_ne_none hreturns hfresh hadv

/-- A row in flight can be committed. -/
theorem advance_held_ne_none {row : RoutingDecisionRecord} (hholds : t.Holds)
    (hrow : t.row = some row) : (statementPlane D).advance env s t ≠ none := by
  obtain ⟨call, response, htask, -⟩ := hholds row hrow
  simp [statementPlane, advanceStatement, htask, hrow]

/-- A call outside the transactions goes on as ever. -/
theorem advance_other_ne_none (hensure : t.task.opens = none)
    (hstore : ∀ call response, t.task ≠ .create call (.storeDecision response))
    (hadv : advance D env s.world t.task ≠ none) :
    (statementPlane D).advance env s t ≠ none := by
  simp only [statementPlane, advanceStatement]
  split
  next htask => simp [htask, Task.opens] at hensure
  next htask => exact absurd htask (hstore _ _)
  next => simpa using hadv

/-- An insert goes through or fails, or waits for a row in flight. -/
theorem insertStatement_waits {call : CreateCall} {response : RoutingDecisionResponse}
    (h : s.insertStatement env t call response = none) : s.uncommitted ≠ [] := by
  unfold StatementWorld.insertStatement at h
  dsimp only at h
  split at h
  next => cases h
  next =>
    split at h
    next => cases h
    next =>
      split at h
      next hwaits =>
        obtain ⟨row, hrow, -⟩ := hwaits
        exact List.ne_nil_of_mem hrow
      next => cases h

/-- A call that waits does so for one that has nothing left but the commit. -/
theorem StatementRun.exists_advance {q : Q} {acts : List (Act StatementTask Env)}
    {c : Conf (StatementWorld Q) StatementTask} (hrun : StatementRun D sc q acts c)
    (hreturns : env.fault = .returns) (hfresh : env.uuid ∉ c.world.world.issued)
    (ht : t ∈ c.tasks) (hbusy : t.task.await ≠ none) :
    ∃ u ∈ c.tasks, (statementPlane D).advance env c.world u ≠ none := by
  have hflight := hrun.inFlight
  by_cases hopens : t.task.opens = none
  · by_cases hstore : ∀ call response, t.task ≠ .create call (.storeDecision response)
    · exact ⟨t, ht, advance_other_ne_none hopens hstore (advance_ne_none hreturns hfresh hbusy)⟩
    · push Not at hstore
      obtain ⟨call, response, htask⟩ := hstore
      cases hrow : t.row with
      | some row => exact ⟨t, ht, advance_held_ne_none (hflight.tasks t ht) hrow⟩
      | none =>
        by_cases hwaits : c.world.insertStatement env t call response = none
        · obtain ⟨row, hmem⟩ := List.exists_mem_of_ne_nil _ (insertStatement_waits hwaits)
          obtain ⟨u, hu, hholds⟩ := hflight.holders row hmem
          exact ⟨u, hu, advance_held_ne_none (hflight.tasks u hu) hholds⟩
        · refine ⟨t, ht, ?_⟩
          simpa only [statementPlane, advanceStatement, htask, hrow] using hwaits
  · obtain ⟨call, catalog, policy, htask⟩ := Task.opens_ne_none hopens
    obtain ⟨find, hfind, -, -, hunfinished⟩ := (hrun.awaits t ht).opened _ _ _ htask
    by_cases hstuck : find.advance .succeeds c.world.versions = none
    · obtain ⟨finds, hperm, hinv⟩ := hrun.versions_inv
      obtain ⟨find', hfind', x, hpc⟩ := hinv.exists_ahead hunfinished hstuck
      obtain ⟨u, hu, hu'⟩ := List.mem_filterMap.mp (hperm.mem_iff.mp hfind')
      have hopens' : u.task.opens ≠ none := by
        obtain ⟨call', catalog', policy', htask'⟩ := (hrun.awaits u hu).ended find' hu' (by
          rintro (h | h) <;> rw [hpc] at h <;> cases h)
        rw [htask']
        simp [Task.opens]
      refine ⟨u, hu, advance_ensure_ne_none hreturns hfresh hopens' hu' ?_⟩
      rw [FindTask.advance_commit hpc]
      simp
    · exact ⟨t, ht, advance_ensure_ne_none hreturns hfresh hopens hfind hstuck⟩

/-- The statements and awaits a call has left at most. -/
def StatementTask.left (t : StatementTask) : ℕ :=
  match t.task with
  | .create _ pc =>
    match pc with
    | .lookup => 12
    | .enforceRpm => 11
    | .currentSpend => 10
    | .ensureCatalog _ _ => 6 + (t.versions.map FindTask.left).getD 0
    | .ensurePolicies _ _ => 6
    | .reserve _ _ _ => 5
    | .getSignals _ _ _ => 4
    | .storeDecision _ => if t.row.isNone then 3 else 2
    | .release _ _ => 1
    | .returned _ _ => 0
    | .raised _ _ => 0
  | .outcome _ pc =>
    match pc with
    | .enforceRpm => 6
    | .getContext => 5
    | .storeOutcome _ => 4
    | .release _ => 3
    | .recordSpend _ => 2
    | .publish _ => 1
    | .returned _ => 0
    | .raised _ => 0

/-- Twelve statements are enough. -/
theorem StatementTask.left_le (h : t.task.Started) : t.left ≤ 12 := by
  obtain ⟨task, versions, row⟩ := t
  cases h with
  | create call =>
    unfold CreateCall.start
    split <;> simp [StatementTask.left]
  | outcome call =>
    unfold OutcomeCall.start
    split <;> simp [StatementTask.left]

/-- Each statement brings the end nearer. -/
theorem StatementStep.left_lt (h : StatementStep D env s t s' t') : t'.left < t.left := by
  cases h with
  | ensuring htask hfind hadv =>
    have hlt := (FindTask.advance_cases hadv).left_lt
    simp [StatementTask.left, htask, hfind, hlt]
  | @ensured call catalog policy find find' versions reply world pc htask hfind hadv hreply
      hafter =>
    have hlt := (FindTask.advance_cases hadv).left_lt
    unfold afterEnsure at hafter
    split at hafter
    next =>
      obtain ⟨-, -, rfl⟩ := drawDecisionId_some hafter
      simp [StatementTask.left, htask, hfind]
      omega
    next =>
      obtain ⟨-, rfl⟩ := Prod.mk.inj (Option.some.inj hafter)
      simp [StatementTask.left, htask, hfind]
      omega
  | insertRaised htask hrow => simp [StatementTask.left, htask, hrow]
  | inserted htask hrow => simp [StatementTask.left, htask, hrow]
  | @committed call response row htask hrow =>
    rcases s.commitStatement_task env t call response row with htask' | ⟨err, htask'⟩
    · simp [StatementTask.left, htask, htask', hrow]
    · simp [StatementTask.left, htask, htask', hrow]
  | @other world task hensure hstore hadv =>
    rcases advance_cases hadv with ⟨call, pc, pc', htask, rfl, hstep⟩ |
      ⟨call, pc, pc', htask, rfl, hstep⟩
    · rw [htask] at hensure
      cases hstep with
      | catalogKept | metadataSkipped => cases hensure
      | storeRaised | storeRejected | storeLost | stored => exact absurd htask (hstore _ _)
      | admitted => simp [StatementTask.left, htask, Task.opens, findVersion, FindTask.left]
      | priced =>
        simp only [StatementTask.left, htask]
        split <;> omega
      | _ => simp [StatementTask.left, htask]
    · cases hstep <;> simp [StatementTask.left, htask]

/-- **No call waits for ever.** While one has not ended some call can take a
step, whatever it reads from outside, and none takes more than twelve. -/
theorem statements_end {q : Q} {acts : List (Act StatementTask Env)}
    {c : Conf (StatementWorld Q) StatementTask} (hrun : StatementRun D sc q acts c) :
    ((∃ t ∈ c.tasks, t.task.await ≠ none) → ∀ env : Env, env.fault = .returns →
        env.uuid ∉ c.world.world.issued →
        ∃ i c', (statementPlane D).step c (.run i env) = some c')
      ∧ steps acts ≤ 12 * c.tasks.length := by
  refine ⟨?_, ?_⟩
  · rintro ⟨t, ht, hbusy⟩ env hreturns hfresh
    obtain ⟨u, hu, hadv⟩ := hrun.exists_advance hreturns hfresh ht hbusy
    obtain ⟨⟨s', u'⟩, hadv⟩ := Option.ne_none_iff_exists'.mp hadv
    obtain ⟨l, r, hsplit⟩ := List.append_of_mem hu
    exact ⟨l.length, ⟨s', l ++ u' :: r⟩,
      (statementPlane D).step_run_iff.mpr ⟨l, u, r, s', u', hsplit, rfl, hadv, rfl⟩⟩
  · have hle := System.Run.steps_le (m := StatementTask.left) (b := 12) (fun c t hok => ?_)
      (fun env s t s' t' hadv => (advanceStatement_step hadv).left_lt) hrun
    · simp only [sumOver_nil, List.length_nil] at hle
      omega
    · exact StatementTask.left_le hok.1

/-- The second call waits for the first. -/
theorem statements_end_race :
    ∃ c, StatementRun labDeps anything {} (twoCreations rowInFlight) c
      ∧ (statementPlane labDeps).step c (.run 1 (labEnv "b")) = none
      ∧ (∃ i c', (statementPlane labDeps).step c (.run i (labEnv "c")) = some c')
      ∧ steps (twoCreations rowInFlight) ≤ 12 * c.tasks.length := by
  obtain ⟨c, hrun, hwaits⟩ := exists_twoCreations rowInFlight
    (fun c => ((statementPlane labDeps).step c (.run 1 (labEnv "b"))).isNone
      && decide (∃ t ∈ c.tasks, t.task.await ≠ none)
      && decide ((labEnv "c").uuid ∉ c.world.world.issued)) (by decide +kernel)
  simp only [Bool.and_eq_true, decide_eq_true_eq, Option.isNone_iff_eq_none] at hwaits
  obtain ⟨hnext, hsteps⟩ := statements_end hrun
  exact ⟨c, hrun, hwaits.1.1, hnext hwaits.1.2 (labEnv "c") rfl hwaits.2, hsteps⟩

end Ending

end ControlPlane
