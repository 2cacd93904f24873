import ControlPlane.Authorship
import ControlPlane.Bootstrap
import ControlPlane.MetricsPage
import ControlPlane.RedisRows

/-!
# Requests — `main.py`, `router_endpoints.py`, `dependencies.py`

A request to one of the four authenticated endpoints: the credential store is
asked for the key, `ControlPlaneService.authenticate` checks status and
scopes, the handler makes its one call of the service, and the middleware
counts the answer. Requests of any number of processes interleave at every
await on the way.

Such a run is one of the credential store and one of the service, side by
side (`http_projects`): a request that is refused on the way makes no call.
So what holds of the service's runs holds behind HTTP, and the rows say who
was let in: for each there is a request with the key of an active credential
that has the scope (`http_rows_authorized`).

Mirroring notes:
- The service is any system whose tasks are its calls; `get_control_plane_service`
  builds the one over Redis.
- A body that is no JSON is refused before the dependencies run, one that its
  schema refuses after them (`Body`). A header that is empty counts as none.
- `_authenticate` turns two classes of exception into an answer; any other one
  passes the middleware, which then counts nothing (`failed`).
- The routes without authentication (`/metrics`, the two health checks) touch
  neither the rows nor the credentials and are not here.
- The processes share the database and Redis; the flags and the counted
  requests are a process's own.
-/

namespace ControlPlane

open Lib

variable {W E : Type}

/-! ## Requests -/

/-- A request body: no JSON, not of its schema, or a value of it. -/
inductive Body (α : Type)
  | malformed
  | invalid
  | valid (value : α)

/-- The requests behind a credential. -/
inductive HttpRequest
  | createRoutingDecision (body : Body RoutingDecisionRequest) (idempotencyKey : Option String)
  | recordRoutingOutcome (body : Body RoutingOutcomeRequest) (idempotencyKey : Option String)
  | getCatalog
  | getPolicies

namespace HttpRequest

/-- The scopes of the endpoint's dependency. -/
def requiredScopes : HttpRequest → List String
  | createRoutingDecision _ _ => ["routing:decide"]
  | recordRoutingOutcome _ _ => ["routing:outcome"]
  | getCatalog => ["control:read"]
  | getPolicies => ["control:read"]

/-- Method and path. -/
def route : HttpRequest → String × String
  | createRoutingDecision _ _ => ("POST", "/v1/routing/decisions")
  | recordRoutingOutcome _ _ => ("POST", "/v1/routing/outcomes")
  | getCatalog => ("GET", "/v1/control/catalog")
  | getPolicies => ("GET", "/v1/control/policies")

/-- The body is no JSON. -/
def Malformed : HttpRequest → Prop
  | createRoutingDecision .malformed _ | recordRoutingOutcome .malformed _ => True
  | _ => False

instance : DecidablePred Malformed
  | createRoutingDecision .malformed _ => .isTrue trivial
  | recordRoutingOutcome .malformed _ => .isTrue trivial
  | createRoutingDecision .invalid _ => .isFalse id
  | createRoutingDecision (.valid _) _ => .isFalse id
  | recordRoutingOutcome .invalid _ => .isFalse id
  | recordRoutingOutcome (.valid _) _ => .isFalse id
  | getCatalog => .isFalse id
  | getPolicies => .isFalse id

/-- The service call of the handler. -/
def call (principal : AgentPrincipal) : HttpRequest → Option Task
  | createRoutingDecision (.valid request) idempotencyKey =>
    let call : CreateCall := { principal, request, idempotencyKey }
    some (.create call call.start)
  | recordRoutingOutcome (.valid outcome) idempotencyKey =>
    let call : OutcomeCall := { principal, outcome, idempotencyKey }
    some (.outcome call call.start)
  | _ => none

end HttpRequest

/-- `detail` as far as it is a text. -/
structure HttpAnswer where
  status : ℕ
  detail : Option String := none
deriving DecidableEq

/-- How far a request has got. -/
inductive HttpStage
  | arrived
  | authenticating
  | handling
  | responding (answer : HttpAnswer)
  | responded (answer : HttpAnswer)
  | failed
deriving DecidableEq

/-- A request, the credential store's call for it and the handler's. -/
structure HttpTask where
  process : ℕ
  apiKey : Option String
  request : HttpRequest
  stage : HttpStage := .arrived
  auth : Option AuthTask := none
  handler : Option Task := none

/-- The service's world, the credential store's and the middlewares' metrics. -/
structure HttpWorld (W : Type) where
  service : W
  credentials : CredentialWorld
  /-- What the middleware of each process has recorded. -/
  requests : ℕ → List MetricUpdate

/-- What a step reads from outside; a step is the service's or the store's. -/
structure HttpEnv (E : Type) where
  service : E
  fault : Fault
  catalog : Except ServiceError CatalogSnapshot
  durationMs : ℚ

/-! ## The way of a request -/

/-- `ControlPlaneService.authenticate`, once the store has answered. -/
def authorize (requiredScopes : List String) :
    Option AuthenticatedPrincipal → Except ServiceError AuthenticatedPrincipal
  | none => .error (.authentication "Invalid API key.")
  | some principal =>
    if principal.status ≠ .active then .error (.authorization "Agent credential is blocked.")
    else if ¬requiredScopes ⊆ principal.scopes then
      .error (.authorization "Required scope is missing for this credential.")
    else .ok principal

/-- The two handlers of `_authenticate`. -/
def authenticateError : ServiceError → HttpStage
  | .authentication detail => .responding ⟨401, some detail⟩
  | .authorization detail => .responding ⟨403, some detail⟩
  | _ => .failed

/-- What the handler answers when its call has come to an end. -/
def Task.httpAnswer (t : Task) : HttpAnswer :=
  match t.failure with
  | none => ⟨200, none⟩
  | some err => ⟨(serviceErrorToHttp err).1, some (serviceErrorToHttp err).2⟩

namespace HttpTask

/-- From the request's arrival to the credential store. -/
def arrive (t : HttpTask) : HttpTask :=
  if t.request.Malformed then { t with stage := .responding ⟨422, none⟩ }
  else
    match t.apiKey with
    | none => { t with stage := authenticateError (.authentication "Missing X-API-Key header.") }
    | some key =>
      if key = "" then
        { t with stage := authenticateError (.authentication "Missing X-API-Key header.") }
      else { t with stage := .authenticating, auth := some ⟨⟨t.process, key⟩, .ensure⟩ }

/-- From authentication to the handler's first await, or to its answer. -/
def dispatch (catalog : Except ServiceError CatalogSnapshot) (t : HttpTask)
    (principal : AuthenticatedPrincipal) : HttpTask :=
  match t.request.call principal.toAgentPrincipal with
  | some task => { t with stage := .handling, handler := some task }
  | none =>
    match t.request with
    | .getPolicies => { t with stage := .responding ⟨200, none⟩ }
    | .getCatalog =>
      match catalog with
      | .ok _ => { t with stage := .responding ⟨200, none⟩ }
      | .error _ => { t with stage := .failed }
    | _ => { t with stage := .responding ⟨422, none⟩ }

end HttpTask

variable (S : System W Task E) (stores : ℕ → CredentialStore)

/-- A step of one request. -/
def advanceHttp (e : HttpEnv E) (s : HttpWorld W) (t : HttpTask) :
    Option (HttpWorld W × HttpTask) :=
  match t.stage with
  | .arrived => some (s, t.arrive)
  | .authenticating =>
    match t.auth with
    | none => none
    | some auth =>
      match auth.pc with
      | .raised err => some (s, { t with stage := authenticateError err })
      | .returned principal =>
        match authorize t.request.requiredScopes principal with
        | .error err => some (s, { t with stage := authenticateError err })
        | .ok principal => some (s, t.dispatch e.catalog principal)
      | _ =>
        ((credentialPlane stores).advance e.fault s.credentials auth).map fun next =>
          ({ s with credentials := next.1 }, { t with auth := some next.2 })
  | .handling =>
    match t.handler with
    | none => none
    | some task =>
      if task.Finished then some (s, { t with stage := .responding task.httpAnswer })
      else
        (S.advance e.service s.service task).map fun next =>
          ({ s with service := next.1 }, { t with handler := some next.2 })
  | .responding answer =>
    some ({ s with
      requests := Function.update s.requests t.process (s.requests t.process
        ++ httpMetrics t.request.route.1 t.request.route.2 answer.status e.durationMs) },
      { t with stage := .responded answer })
  | .responded _ => none
  | .failed => none

/-- Requests of any number of processes. -/
def httpPlane : System (HttpWorld W) HttpTask (HttpEnv E) where
  advance := advanceHttp S stores

variable {S : System W Task E} {stores : ℕ → CredentialStore} {e : HttpEnv E} {s s' : HttpWorld W}
  {t t' : HttpTask}

/-! ## One step -/

/-- What a step of a request can do. -/
inductive HttpStep (S : System W Task E) (stores : ℕ → CredentialStore) (e : HttpEnv E)
    (s : HttpWorld W) (t : HttpTask) : HttpWorld W → HttpTask → Prop
  | refused {stage} (hbefore : t.stage = .arrived ∨ t.stage = .authenticating)
      (hafter : stage = .failed ∨ ∃ answer, stage = .responding answer) :
      HttpStep S stores e s t s { t with stage }
  | authenticates {key} (hbefore : t.stage = .arrived) (hkey : t.apiKey = some key) :
      HttpStep S stores e s t s
        { t with stage := .authenticating, auth := some ⟨⟨t.process, key⟩, .ensure⟩ }
  | credentials {auth auth' credentials} (hbefore : t.stage = .authenticating)
      (hauth : t.auth = some auth)
      (hadv : (credentialPlane stores).advance e.fault s.credentials auth
        = some (credentials, auth')) :
      HttpStep S stores e s t { s with credentials } { t with auth := some auth' }
  | dispatched {auth answer principal task} (hbefore : t.stage = .authenticating)
      (hauth : t.auth = some auth) (hanswer : auth.pc = .returned answer)
      (hprincipal : authorize t.request.requiredScopes answer = .ok principal)
      (hcall : t.request.call principal.toAgentPrincipal = some task) :
      HttpStep S stores e s t s { t with stage := .handling, handler := some task }
  | service {task task' service} (hbefore : t.stage = .handling) (hhandler : t.handler = some task)
      (hadv : S.advance e.service s.service task = some (service, task')) :
      HttpStep S stores e s t { s with service } { t with handler := some task' }
  | answered {task} (hbefore : t.stage = .handling) (hhandler : t.handler = some task)
      (hfinished : task.Finished) :
      HttpStep S stores e s t s { t with stage := .responding task.httpAnswer }
  | responded {answer} (hbefore : t.stage = .responding answer) :
      HttpStep S stores e s t
        { s with
          requests := Function.update s.requests t.process (s.requests t.process
            ++ httpMetrics t.request.route.1 t.request.route.2 answer.status e.durationMs) }
        { t with stage := .responded answer }

/-- An error of `authenticate` is answered, or leaves the application. -/
theorem authenticateError_cases (err : ServiceError) :
    authenticateError err = .failed ∨ ∃ answer, authenticateError err = .responding answer := by
  cases err with
  | authentication detail => exact .inr ⟨_, rfl⟩
  | authorization detail => exact .inr ⟨_, rfl⟩
  | _ => exact .inl rfl

/-- What happens on arrival is one of the steps. -/
theorem HttpTask.arrive_step (h : t.stage = .arrived) :
    HttpStep S stores e s t s t.arrive := by
  unfold arrive
  split
  next => exact .refused (.inl h) (.inr ⟨_, rfl⟩)
  next =>
    split
    next => exact .refused (.inl h) (authenticateError_cases _)
    next key hkey =>
      split
      next => exact .refused (.inl h) (authenticateError_cases _)
      next => exact .authenticates h hkey

/-- So is the dispatch to a handler. -/
theorem HttpTask.dispatch_step {auth : AuthTask} {answer : Option AuthenticatedPrincipal}
    {principal : AuthenticatedPrincipal} (h : t.stage = .authenticating)
    (hauth : t.auth = some auth) (hanswer : auth.pc = .returned answer)
    (hprincipal : authorize t.request.requiredScopes answer = .ok principal) :
    HttpStep S stores e s t s (t.dispatch e.catalog principal) := by
  unfold dispatch
  split
  next hcall => exact .dispatched h hauth hanswer hprincipal hcall
  next =>
    split
    next => exact .refused (.inr h) (.inr ⟨_, rfl⟩)
    next =>
      split
      next => exact .refused (.inr h) (.inr ⟨_, rfl⟩)
      next => exact .refused (.inr h) (.inl rfl)
    next => exact .refused (.inr h) (.inr ⟨_, rfl⟩)

/-- A request does nothing that `HttpStep` does not list. -/
theorem advanceHttp_step (h : (httpPlane S stores).advance e s t = some (s', t')) :
    HttpStep S stores e s t s' t' := by
  simp only [httpPlane, advanceHttp] at h
  split at h
  next hstage =>
    obtain ⟨rfl, rfl⟩ := Prod.mk.inj (Option.some.inj h)
    exact HttpTask.arrive_step hstage
  next hstage =>
    split at h
    next => cases h
    next auth hauth =>
      split at h
      next =>
        obtain ⟨rfl, rfl⟩ := Prod.mk.inj (Option.some.inj h)
        exact .refused (.inr hstage) (authenticateError_cases _)
      next hanswer =>
        split at h
        next =>
          obtain ⟨rfl, rfl⟩ := Prod.mk.inj (Option.some.inj h)
          exact .refused (.inr hstage) (authenticateError_cases _)
        next hprincipal =>
          obtain ⟨rfl, rfl⟩ := Prod.mk.inj (Option.some.inj h)
          exact HttpTask.dispatch_step hstage hauth hanswer hprincipal
      next =>
        obtain ⟨⟨credentials, auth'⟩, hadv, heq⟩ := Option.map_eq_some_iff.mp h
        obtain ⟨rfl, rfl⟩ := Prod.mk.inj heq
        exact .credentials hstage hauth hadv
  next hstage =>
    split at h
    next => cases h
    next task hhandler =>
      split at h
      next hfinished =>
        obtain ⟨rfl, rfl⟩ := Prod.mk.inj (Option.some.inj h)
        exact .answered hstage hhandler hfinished
      next =>
        obtain ⟨⟨service, task'⟩, hadv, heq⟩ := Option.map_eq_some_iff.mp h
        obtain ⟨rfl, rfl⟩ := Prod.mk.inj heq
        exact .service hstage hhandler hadv
  next answer hstage =>
    obtain ⟨rfl, rfl⟩ := Prod.mk.inj (Option.some.inj h)
    exact .responded hstage
  next => cases h
  next => cases h

/-- The request was let in by the credential store's answer, and this is the
call its handler made. -/
def HttpTask.LetIn (t : HttpTask) (auth : AuthTask) (task : Task) : Prop :=
  ∃ answer principal task₀, auth.pc = .returned answer
    ∧ authorize t.request.requiredScopes answer = .ok principal
    ∧ t.request.call principal.toAgentPrincipal = some task₀ ∧ task₀.SameCall task

/-- What holds of a request where it stands. -/
structure HttpTask.Sound (t : HttpTask) : Prop where
  unasked : t.stage = .arrived → t.auth = none
  unhandled : t.stage = .arrived ∨ t.stage = .authenticating → t.handler = none
  auth : ∀ auth, t.auth = some auth →
    auth.call.process = t.process ∧ t.apiKey = some auth.call.apiKey
  handler : ∀ task, t.handler = some task → ∃ auth, t.auth = some auth ∧ t.LetIn auth task

/-- A step of a service call is one of the same call. -/
def KeepsCalls (S : System W Task E) : Prop :=
  ∀ e w t w' t', S.advance e w t = some (w', t') → t.SameCall t'

/-- A sound request stays sound. -/
theorem HttpStep.sound (hS : KeepsCalls S) (h : HttpStep S stores e s t s' t')
    (hsound : t.Sound) : t'.Sound := by
  obtain ⟨hunasked, hunhandled, hauth, hhandler⟩ := hsound
  cases h with
  | @refused stage hbefore hafter =>
    refine ⟨fun hstage => ?_, fun hstage => ?_, hauth, hhandler⟩
    · rcases hafter with rfl | ⟨answer, rfl⟩ <;> simp at hstage
    · exact hunhandled hbefore
  | authenticates hbefore hkey =>
    refine ⟨by rintro ⟨⟩, fun _ => hunhandled (.inl hbefore), ?_, fun task htask => ?_⟩
    · rintro _ ⟨⟩
      exact ⟨rfl, hkey⟩
    · rw [hunhandled (.inl hbefore)] at htask
      cases htask
  | credentials hbefore hold hadv =>
    refine ⟨fun hstage => by simp [hbefore] at hstage, fun _ => hunhandled (.inr hbefore), ?_,
      fun task htask => ?_⟩
    · rintro _ ⟨⟩
      rw [(advance_authStep hadv).1]
      exact hauth _ hold
    · rw [hunhandled (.inr hbefore)] at htask
      cases htask
  | dispatched hbefore hold hanswer hprincipal hcall =>
    refine ⟨by rintro ⟨⟩, by rintro (⟨⟨⟩⟩ | ⟨⟨⟩⟩), hauth, ?_⟩
    rintro _ ⟨⟩
    exact ⟨_, hold, _, _, _, hanswer, hprincipal, hcall, rfl, rfl⟩
  | service hbefore hold hadv =>
    refine ⟨fun hstage => by simp [hbefore] at hstage, fun hstage => by simp [hbefore] at hstage,
      hauth, ?_⟩
    rintro _ ⟨⟩
    obtain ⟨auth, hsome, answer, principal, task₀, hanswer, hprincipal, hcall, hsame⟩ :=
      hhandler _ hold
    have hmoved := hS _ _ _ _ _ hadv
    exact ⟨auth, hsome, answer, principal, task₀, hanswer, hprincipal, hcall,
      hmoved.1.trans hsame.1, hmoved.2.trans hsame.2⟩
  | answered hbefore hold =>
    exact ⟨by rintro ⟨⟩, by rintro (⟨⟨⟩⟩ | ⟨⟨⟩⟩), hauth, hhandler⟩
  | responded hbefore =>
    exact ⟨by rintro ⟨⟩, by rintro (⟨⟨⟩⟩ | ⟨⟨⟩⟩), hauth, hhandler⟩

/-! ## Whole runs -/

/-- Requests arrive with nothing done. `permits` is about the steps of the
service; the awaits of the credential store fail as they like. -/
def PermitsHttp (permits : W → Task → E → Prop) (c : Conf (HttpWorld W) HttpTask) :
    Act HttpTask (HttpEnv E) → Prop
  | .start t => t.stage = .arrived ∧ t.auth = none ∧ t.handler = none
  | .run i e => ∀ t, c.tasks[i]? = some t → t.stage = .handling →
      ∀ task, t.handler = some task → permits c.world.service task e.service

/-- A run of processes that start on a table with these credentials. -/
def HttpRun (S : System W Task E) (stores : ℕ → CredentialStore)
    (rows : String → Option AgentCredential) (permits : W → Task → E → Prop) (w₀ : W)
    (acts : List (Act HttpTask (HttpEnv E))) (c : Conf (HttpWorld W) HttpTask) : Prop :=
  (httpPlane S stores).Run (PermitsHttp permits)
    ⟨⟨w₀, ⟨.ofRows rows, fun _ => false, 0⟩, fun _ => []⟩, []⟩ acts c

section Runs

variable {rows : String → Option AgentCredential} {permits : W → Task → E → Prop} {w₀ : W}
  {acts : List (Act HttpTask (HttpEnv E))} {c : Conf (HttpWorld W) HttpTask}

/-- Every request of a run is. -/
theorem HttpRun.sound (hS : KeepsCalls S) (hrun : HttpRun S stores rows permits w₀ acts c) :
    ∀ t ∈ c.tasks, t.Sound := by
  refine System.Run.invariant (I := fun c => ∀ t ∈ c.tasks, t.Sound) ?_ ?_ hrun (by simp)
  · intro s ts t hok h u hu
    rcases List.mem_append.mp hu with hu | hu
    · exact h u hu
    · obtain ⟨-, hauth, hhandler⟩ := hok
      rw [List.mem_singleton.mp hu]
      exact ⟨fun _ => hauth, fun _ => hhandler, by simp [hauth], by simp [hhandler]⟩
  · intro s l t r e s' t' _ hadv h
    obtain ⟨ht, hothers⟩ := forall_mem_split.mp h
    exact forall_mem_split.mpr ⟨(advanceHttp_step hadv).sound hS ht, hothers⟩

/-- The run, with what is known at each of its steps. -/
theorem HttpRun.with_sound (hS : KeepsCalls S) (hrun : HttpRun S stores rows permits w₀ acts c) :
    (httpPlane S stores).Run (fun c a => PermitsHttp permits c a ∧ ∀ t ∈ c.tasks, t.Sound)
      ⟨⟨w₀, ⟨.ofRows rows, fun _ => false, 0⟩, fun _ => []⟩, []⟩ acts c :=
  System.Run.strengthen hrun fun _ _ _ _ _ hpre hok _ _ => ⟨hok, HttpRun.sound hS hpre⟩

/-- A step of a request, as the credential store sees it. -/
theorem HttpStep.credentials_projects {w : CredentialWorld} (hsound : t.Sound)
    (h : HttpStep S stores e s t s' t') (hw : s.credentials = w) :
    System.Projects (credentialPlane stores) AuthStarted (fun s w => HttpWorld.credentials s = w)
      HttpTask.auth t t' s' w := by
  cases h with
  | refused | dispatched | service | answered | responded => exact .nothing rfl hw
  | authenticates hbefore hkey =>
    exact .enters (hsound.unasked hbefore) rfl (fun _ => rfl) hw
  | credentials hbefore hauth hadv =>
    exact .steps hauth rfl (hw ▸ hadv) (fun _ _ _ => trivial) rfl

/-- The requests' calls of the credential store are a run of it. -/
theorem HttpRun.credentials (hS : KeepsCalls S) (hrun : HttpRun S stores rows permits w₀ acts c) :
    ∃ acts' ts, AuthRun stores rows acts' ⟨c.world.credentials, ts⟩
      ∧ ts.Perm (c.tasks.filterMap (·.auth)) := by
  obtain ⟨acts', w', ts, hauth, rfl, hperm⟩ := System.Run.project
    (fun c t hok => hok.1.2.1)
    (fun s l t r e s' t' w hok hw hadv =>
      (advanceHttp_step hadv).credentials_projects (hok.2 t (by simp)) hw)
    (HttpRun.with_sound hS hrun) rfl (List.Perm.refl _)
  exact ⟨acts', ts, hauth, hperm⟩

/-! ### Who is let in -/

/-- A credential that was in the table from the start or is listed. -/
def Known (stores : ℕ → CredentialStore) (rows : String → Option AgentCredential)
    (record : AgentCredential) : Prop :=
  (∃ key, rows key = some record)
    ∨ ∃ process, ∃ bootstrap ∈ (stores process).credentials, record = bootstrap.record

/-- The principal of an active credential. -/
def Authorized (stores : ℕ → CredentialStore) (rows : String → Option AgentCredential)
    (p : AgentPrincipal) : Prop :=
  ∃ record process principal, Known stores rows record
    ∧ (stores process).principal record = .ok principal ∧ principal.status = .active
    ∧ principal.toAgentPrincipal = p

/-- Who passes the dependency has an active credential with the scopes. -/
theorem authorize_ok {requiredScopes : List String} {answer : Option AuthenticatedPrincipal}
    {principal : AuthenticatedPrincipal} (h : authorize requiredScopes answer = .ok principal) :
    answer = some principal ∧ principal.status = .active
      ∧ requiredScopes ⊆ principal.scopes := by
  unfold authorize at h
  split at h
  next => cases h
  next =>
    split at h
    next => cases h
    next hactive =>
      split at h
      next => cases h
      next hscopes =>
        obtain rfl := Except.ok.inj h
        exact ⟨rfl, not_not.mp hactive, not_not.mp hscopes⟩

/-- What the store has answered with is a committed row's. -/
theorem HttpRun.committed (hS : KeepsCalls S)
    (hrun : HttpRun S stores rows permits w₀ acts c) (ht : t ∈ c.tasks)
    {auth : AuthTask} (hauth : t.auth = some auth) {principal : AuthenticatedPrincipal}
    (hanswer : auth.pc = .returned (some principal)) :
    ∃ key record, t.apiKey = some key
      ∧ c.world.credentials.table.committed ((stores t.process).hashApiKey key) = some record
      ∧ (stores t.process).principal record = .ok principal ∧ Known stores rows record := by
  obtain ⟨acts', ts, hauths, hperm⟩ := HttpRun.credentials hS hrun
  have hmem : auth ∈ ts := hperm.mem_iff.mpr (List.mem_filterMap.mpr ⟨t, ht, hauth⟩)
  have h := hauths.bootstrapping
  obtain ⟨hprocess, hkey⟩ := (HttpRun.sound hS hrun t ht).auth auth hauth
  obtain ⟨record, hrecord, hprincipal⟩ := (h.tasks auth hmem).returned _ hanswer
  rw [hprocess] at hrecord hprincipal
  refine ⟨auth.call.apiKey, record, hkey, hrecord, hprincipal, ?_⟩
  rcases h.fresh _ _ hrecord with hold | ⟨u, -, bootstrap, hlisted, rfl⟩
  · exact .inl ⟨_, by simpa using hold⟩
  · exact .inr ⟨u.call.process, bootstrap, List.mem_of_find?_eq_some hlisted, rfl⟩

/-- The handler's call is one that has just been made, by that principal. -/
theorem HttpRequest.call_started {request : HttpRequest} {principal : AgentPrincipal}
    {task : Task} (h : request.call principal = some task) :
    task.Started ∧ task.principal = principal := by
  unfold HttpRequest.call at h
  split at h
  next =>
    obtain rfl := Option.some.inj h
    exact ⟨.create _, rfl⟩
  next =>
    obtain rfl := Option.some.inj h
    exact ⟨.outcome _, rfl⟩
  next => cases h

/-! ### The service's side -/

/-- A step of a request, as the service sees it. -/
theorem HttpStep.service_projects {w : W} {l r : List HttpTask} (hsound : t.Sound)
    (hok : PermitsHttp permits ⟨s, l ++ t :: r⟩ (.run l.length e))
    (hknown : ∀ auth principal, t.auth = some auth → auth.pc = .returned (some principal) →
      ∃ record, (stores t.process).principal record = .ok principal ∧ Known stores rows record)
    (h : HttpStep S stores e s t s' t') (hw : s.service = w) :
    System.Projects S (PermitsCalls permits (Authorized stores rows))
      (fun s w => HttpWorld.service s = w) HttpTask.handler t t' s' w := by
  cases h with
  | refused | authenticates | credentials | answered | responded => exact .nothing rfl hw
  | dispatched hbefore hauth hanswer hprincipal hcall =>
    obtain ⟨rfl, hactive, -⟩ := authorize_ok hprincipal
    obtain ⟨record, hrecord, hrow⟩ := hknown _ _ hauth hanswer
    obtain ⟨hstarted, hcaller⟩ := HttpRequest.call_started hcall
    refine .enters (hsound.unhandled (.inr hbefore)) rfl (fun _ => ⟨hstarted, ?_⟩) hw
    exact ⟨record, _, _, hrow, hrecord, hactive, hcaller.symm⟩
  | service hbefore hhandler hadv =>
    subst hw
    refine .steps hhandler rfl hadv (fun ts i hget u hu => ?_) rfl
    obtain rfl := Option.some.inj (hget.symm.trans hu)
    exact hok t (getElem?_split_self t) hbefore _ hhandler

/-- The requests' service calls are a run of the service. -/
theorem HttpRun.service (hS : KeepsCalls S) (hrun : HttpRun S stores rows permits w₀ acts c) :
    ∃ acts' ts, S.Run (PermitsCalls permits (Authorized stores rows)) ⟨w₀, []⟩ acts'
        ⟨c.world.service, ts⟩
      ∧ ts.Perm (c.tasks.filterMap (·.handler)) := by
  have hknown : (httpPlane S stores).Run (fun c a =>
      (PermitsHttp permits c a ∧ ∀ t ∈ c.tasks, t.Sound)
        ∧ ∀ t ∈ c.tasks, ∀ auth principal, t.auth = some auth →
          auth.pc = .returned (some principal) → ∃ record,
            (stores t.process).principal record = .ok principal ∧ Known stores rows record)
      ⟨⟨w₀, ⟨.ofRows rows, fun _ => false, 0⟩, fun _ => []⟩, []⟩ acts c := by
    refine System.Run.strengthen hrun fun _ _ _ _ _ hpre hok _ _ =>
      ⟨⟨hok, HttpRun.sound hS hpre⟩, ?_⟩
    intro t ht auth principal hauth hanswer
    obtain ⟨-, record, -, -, hrecord, hrow⟩ := HttpRun.committed hS hpre ht hauth hanswer
    exact ⟨record, hrecord, hrow⟩
  obtain ⟨acts', w', ts, hservice, rfl, hperm⟩ := System.Run.project
    (fun c t hok => hok.1.1.2.2)
    (fun s l t r e s' t' w hok hw hadv =>
      (advanceHttp_step hadv).service_projects (hok.1.2 t (by simp)) hok.1.1
        (hok.2 t (by simp)) hw)
    hknown rfl (List.Perm.refl _)
  exact ⟨acts', ts, hservice, hperm⟩

/-! ### Who may write -/

/-- A request with the key of an active credential that has the scopes. -/
structure HttpTask.Entitled (t : HttpTask) (stores : ℕ → CredentialStore)
    (table : UniqueIndex String AgentCredential ℕ) (record : AgentCredential) : Prop where
  key : ∃ key, t.apiKey = some key
    ∧ table.committed ((stores t.process).hashApiKey key) = some record
  active : record.status = "active"
  scopes : t.request.requiredScopes ⊆ record.scopes

/-- Decision and outcome of a row, each by a request that was entitled to it. -/
structure RowAuthorized (stores : ℕ → CredentialStore) (c : Conf (HttpWorld W) HttpTask)
    (row : RoutingDecisionRecord) : Prop where
  created : ∃ t ∈ c.tasks, ∃ record request idempotencyKey,
    t.request = .createRoutingDecision (.valid request) idempotencyKey
      ∧ t.Entitled stores c.world.credentials.table record
      ∧ row.agentId = record.agentId ∧ row.environment = record.environment
      ∧ row.tenantId = record.tenantId ∧ request.agentId = record.agentId
      ∧ row.requestPayload = request ∧ row.idempotencyKey = idempotencyKey
  completed : row.outcomePayload ≠ none → ∃ t ∈ c.tasks, ∃ record outcome idempotencyKey,
    t.request = .recordRoutingOutcome (.valid outcome) idempotencyKey
      ∧ t.Entitled stores c.world.credentials.table record
      ∧ row.agentId = record.agentId ∧ outcome.decisionId = row.decisionId
      ∧ outcome.requestId = row.requestId
      ∧ row = row.origin.complete outcome idempotencyKey

/-- The principal has the fields of its row. -/
theorem principal_ok {store : CredentialStore} {record : AgentCredential}
    {principal : AuthenticatedPrincipal} (h : store.principal record = .ok principal)
    (hactive : principal.status = .active) :
    record.status = "active" ∧ principal.scopes = record.scopes
      ∧ principal.agentId = record.agentId ∧ principal.environment = record.environment
      ∧ principal.tenantId = record.tenantId := by
  unfold CredentialStore.principal CredentialStore.parseStatus at h
  split at h
  next hstatus =>
    obtain rfl := Except.ok.inj h
    exact ⟨hstatus, rfl, rfl, rfl, rfl⟩
  next =>
    split at h
    next =>
      obtain rfl := Except.ok.inj h
      cases hactive
    next => cases h

/-- The request behind a service call was entitled to make it. -/
theorem HttpRun.entitled (hS : KeepsCalls S)
    (hrun : HttpRun S stores rows permits w₀ acts c) {task : Task}
    (htask : task ∈ c.tasks.filterMap (·.handler)) :
    ∃ t ∈ c.tasks, ∃ record, t.Entitled stores c.world.credentials.table record
      ∧ ∃ principal task₀, t.request.call principal = some task₀ ∧ task₀.SameCall task
        ∧ principal.agentId = record.agentId ∧ principal.environment = record.environment
        ∧ principal.tenantId = record.tenantId := by
  obtain ⟨t, ht, hhandler⟩ := List.mem_filterMap.mp htask
  obtain ⟨auth, hauth, answer, principal, task₀, hanswer, hprincipal, hcall, hsame⟩ :=
    (HttpRun.sound hS hrun t ht).handler task hhandler
  obtain ⟨rfl, hactive, hscopes⟩ := authorize_ok hprincipal
  obtain ⟨key, record, hkey, hrecord, hparsed, -⟩ := HttpRun.committed hS hrun ht hauth hanswer
  obtain ⟨hstatus, hrowScopes, hagent, henv, htenant⟩ := principal_ok hparsed hactive
  exact ⟨t, ht, record, ⟨⟨key, hkey, hrecord⟩, hstatus, hrowScopes ▸ hscopes⟩,
    principal.toAgentPrincipal, task₀, hcall, hsame, hagent, henv, htenant⟩

/-- What the service's calls have written, entitled requests have. -/
theorem HttpRun.rowAuthorized (hS : KeepsCalls S)
    (hrun : HttpRun S stores rows permits w₀ acts c) {row : RoutingDecisionRecord}
    {ts : List Task} (hperm : ts.Perm (c.tasks.filterMap (·.handler)))
    (hcreated : row.CreatedBy ts) (hcompleted : row.outcomePayload ≠ none → row.CompletedBy ts) :
    RowAuthorized stores c row := by
  constructor
  · obtain ⟨u, hu, call, response, hcall, hmatch, horigin⟩ := hcreated
    obtain ⟨t, ht, record, hentitled, principal, task₀, hmade, hsame, hagent, henv, htenant⟩ :=
      HttpRun.entitled hS hrun (hperm.mem_iff.mp hu)
    have hcall₀ := hsame.1.symm.trans hcall
    unfold HttpRequest.call at hmade
    split at hmade
    next request idempotencyKey hrequest =>
      obtain rfl := Option.some.inj hmade
      obtain rfl := Option.some.inj hcall₀
      have hfields := fun {α : Type} (f : RoutingDecisionRecord → α) => congrArg f horigin
      exact ⟨t, ht, record, request, idempotencyKey, hrequest, hentitled,
        (hfields (·.agentId)).trans hagent, (hfields (·.environment)).trans henv,
        (hfields (·.tenantId)).trans htenant, hmatch.symm.trans hagent,
        hfields (·.requestPayload), hfields (·.idempotencyKey)⟩
    next =>
      obtain rfl := Option.some.inj hmade
      cases hcall₀
    next => cases hmade
  · intro hdone
    obtain ⟨u, hu, call, hcall, hagent₀, hdecision, hrequest₀, hcomplete⟩ := hcompleted hdone
    obtain ⟨t, ht, record, hentitled, principal, task₀, hmade, hsame, hagent, -, -⟩ :=
      HttpRun.entitled hS hrun (hperm.mem_iff.mp hu)
    have hcall₀ := hsame.2.symm.trans hcall
    unfold HttpRequest.call at hmade
    split at hmade
    next =>
      obtain rfl := Option.some.inj hmade
      cases hcall₀
    next outcome idempotencyKey hrequest =>
      obtain rfl := Option.some.inj hmade
      obtain rfl := Option.some.inj hcall₀
      exact ⟨t, ht, record, outcome, idempotencyKey, hrequest, hentitled,
        hagent₀.symm.trans hagent, hdecision, hrequest₀, hcomplete⟩
    next => cases hmade

end Runs

/-! ## The deployment -/

/-- The service over Redis takes no call for another. -/
theorem redisPlane_keepsCalls {Q : Type} (D : RedisDeps Q) (calendar : Calendar) :
    KeepsCalls (redisPlane D calendar) := by
  intro e s t s' t' hadv
  obtain ⟨script, q', hstep⟩ := redisPlane_scripted (fun _ => ∅) hadv
  exact advance_sameCall hstep

section Deployment

variable {Q : Type} {D : RedisDeps Q} {calendar : Calendar} {q : Q}
  {rows : String → Option AgentCredential}
  {acts : List (Act HttpTask (HttpEnv RedisEnv))} {c : Conf (HttpWorld (RedisWorld Q)) HttpTask}

/-- No slot set is past its deadline within a lifetime of each step. -/
theorem httpRun_of_until {fault : Await → Fault → Prop} {final : ℚ}
    (hrun : HttpRun (redisPlane D calendar) stores rows
      (RedisStepUntil fault D.validSettings final) ⟨World.empty q, {}⟩ acts c) :
    HttpRun (redisPlane D calendar) stores rows (RedisStepPermitted fault)
      ⟨World.empty q, {}⟩ acts c := by
  have hlive : SlotsLive ({} : Redis) final := by
    intro key entry hentry
    cases hentry
  refine System.Run.strengthen hrun ?_
  intro acts₁ c₁ a c₂ acts₂ hpre hok _ _
  obtain ⟨acts', ts, hservice, -⟩ := HttpRun.service (redisPlane_keepsCalls D calendar) hpre
  cases a with
  | start t => exact hok
  | run i e =>
    exact fun t ht hstage task htask =>
      (hok t ht hstage task htask).permitted (slotsLive_of_until hlive hservice)

/-! ### Three requests to two processes -/

/-- A decision, its outcome, and a request without a key. -/
def labRequests : List HttpTask :=
  [{ process := 0
     apiKey := some "key-1"
     request := .createRoutingDecision (.valid keyedCall.request) none },
   { process := 1
     apiKey := some "key-1"
     request := .recordRoutingOutcome (.valid reportCall.outcome) none },
   { process := 0
     apiKey := none
     request := .getCatalog }]

/-- A step of the service or the store that returns, at the epoch. -/
def instantHttp (uuid : String) : HttpEnv RedisEnv :=
  { service := instantEnv uuid
    fault := .returns
    catalog := .ok labCatalog
    durationMs := 0 }

/-- The three requests, then the schedule. -/
def requestActs (schedule : List ℕ) : List (Act HttpTask (HttpEnv RedisEnv)) :=
  labRequests.map .start ++ schedule.map fun i => .run i (instantHttp "a")

/-- The first is answered, then the others, which take turns. -/
def inTurns : List ℕ :=
  List.replicate 19 0 ++ (List.replicate 2 [1, 2]).flatten ++ List.replicate 13 1

/-- Nothing stored and nobody bootstrapped. -/
def overHttp : HttpWorld (RedisWorld InMemoryQuota) :=
  ⟨overRedis, ⟨.ofRows fun _ => none, fun _ => false, 0⟩, fun _ => []⟩

/-- A schedule of requests that computes, runs. -/
theorem exists_http_run {fault : Await → Fault → Prop} (hreturns : ∀ a, fault a .returns)
    (schedule : List ℕ) (P : Conf (HttpWorld (RedisWorld InMemoryQuota)) HttpTask → Bool)
    (h : ((httpPlane (redisPlane labRedis epochCalendar) fun _ => labStore).exec ⟨overHttp, []⟩
      (requestActs schedule)).any P = true) :
    ∃ c, HttpRun (redisPlane labRedis epochCalendar) (fun _ => labStore) (fun _ => none)
        (RedisStepPermitted fault) overRedis (requestActs schedule) c
      ∧ P c = true := by
  obtain ⟨c, hexec, hP⟩ := (Option.any_eq_true _ _).mp h
  have hshort : HttpRun (redisPlane labRedis epochCalendar) (fun _ => labStore) (fun _ => none)
      (RedisStepUntil fault labRedis.validSettings 0) overRedis
      (requestActs schedule) c := by
    refine System.Run.of_exec (fun a ha c₁ => ?_) hexec
    rcases List.mem_append.mp ha with ha | ha
    · obtain ⟨t, ht, rfl⟩ := List.mem_map.mp ha
      have harrived : ∀ t ∈ labRequests, t.stage = .arrived ∧ t.auth = none ∧ t.handler = none := by
        simp [labRequests]
      exact harrived t ht
    · obtain ⟨i, -, rfl⟩ := List.mem_map.mp ha
      exact fun t _ _ task _ => instant_until hreturns _ _ _
  exact ⟨c, httpRun_of_until hshort, hP⟩

/-! ### What runs of requests promise -/

/-- **A run of requests is a run of the credential store and a run of the
service**: side by side, with the calls of the requests that came that far,
and every service call is the principal's of an active credential. -/
theorem http_projects {permits : W → Task → E → Prop} {w₀ : W}
    {acts : List (Act HttpTask (HttpEnv E))} {c : Conf (HttpWorld W) HttpTask}
    (hS : KeepsCalls S) (hrun : HttpRun S stores rows permits w₀ acts c) :
    (∃ acts' ts, AuthRun stores rows acts' ⟨c.world.credentials, ts⟩
        ∧ ts.Perm (c.tasks.filterMap (·.auth)))
      ∧ ∃ acts' ts, S.Run (PermitsCalls permits (Authorized stores rows)) ⟨w₀, []⟩ acts'
          ⟨c.world.service, ts⟩
        ∧ ts.Perm (c.tasks.filterMap (·.handler)) :=
  ⟨HttpRun.credentials hS hrun, HttpRun.service hS hrun⟩

/-- The third request makes no call of either. -/
theorem http_projects_answered :
    ∃ (c : Conf (HttpWorld (RedisWorld InMemoryQuota)) HttpTask) (ts : List AuthTask)
      (ts' : List Task), c.tasks.length = 3 ∧ ts.length = 2 ∧ ts'.length = 2
      ∧ (∃ acts', AuthRun (fun _ => labStore) (fun _ => none) acts' ⟨c.world.credentials, ts⟩)
      ∧ ∃ acts', RedisRun labRedis epochCalendar
        (ledgerRuns (Authorized (fun _ => labStore) fun _ => none)) ⟨overRedis, []⟩ acts'
        ⟨c.world.service, ts'⟩ := by
  obtain ⟨c, hrun, hcounts⟩ := exists_http_run
    (ledgerRuns_returns (Authorized (fun _ => labStore) fun _ => none)) inTurns
    (fun c => decide (c.tasks.length = 3 ∧ (c.tasks.filterMap (·.auth)).length = 2
      ∧ (c.tasks.filterMap (·.handler)).length = 2)) (by decide +kernel)
  obtain ⟨htasks, hauths, hhandlers⟩ := of_decide_eq_true hcounts
  obtain ⟨⟨acts₁, ts, hauth, hperm⟩, acts₂, ts', hservice, hperm'⟩ :=
    http_projects (redisPlane_keepsCalls labRedis epochCalendar) hrun
  exact ⟨c, ts, ts', htasks, hperm.length_eq.trans hauths, hperm'.length_eq.trans hhandlers,
    ⟨acts₁, hauth⟩, acts₂, hservice⟩

/-- **Only entitled requests write**: each decision was made, and each outcome
reported, by a request whose key is that of an active credential of the row's
agent with the scope for it. -/
theorem http_rows_authorized {permits : RedisWorld Q → Task → RedisEnv → Prop}
    (hrun : HttpRun (redisPlane D calendar) stores rows permits ⟨World.empty q, {}⟩ acts c) :
    ∀ row ∈ c.world.service.world.tables.decisions, RowAuthorized stores c row := by
  intro row hrow
  have hS := redisPlane_keepsCalls D calendar
  obtain ⟨acts', ts, hservice, hperm⟩ := HttpRun.service hS hrun
  obtain ⟨q', hauthored, -, -⟩ := redis_authored (fun _ _ hok => hok) hservice
  exact HttpRun.rowAuthorized hS hrun hperm (hauthored.created row hrow)
    (hauthored.completed row hrow)

/-- The reported decision of the small deployment. -/
theorem http_rows_authorized_answered :
    ∃ (c : Conf (HttpWorld (RedisWorld InMemoryQuota)) HttpTask) (row : RoutingDecisionRecord),
      row ∈ c.world.service.world.tables.decisions ∧ row.outcomePayload ≠ none
      ∧ RowAuthorized (fun _ => labStore) c row := by
  obtain ⟨c, hrun, hreported⟩ := exists_http_run (ledgerRuns_returns fun _ => True) inTurns
    (fun c => c.world.service.world.tables.decisions.any (·.outcomePayload.isSome))
    (by decide +kernel)
  obtain ⟨row, hrow, hdone⟩ := List.any_eq_true.mp hreported
  exact ⟨c, row, hrow, by simpa [Option.isSome_iff_ne_none] using hdone,
    http_rows_authorized hrun row hrow⟩

end Deployment

end ControlPlane
