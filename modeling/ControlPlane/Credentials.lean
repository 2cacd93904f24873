import ControlPlane.Lib.Interleave
import ControlPlane.Lib.UniqueIndex
import ControlPlane.Service

/-!
# Credentials — `SqlAlchemyCredentialStore`

A call to `authenticate` first sees to it that the listed credentials are in
the table (`_ensure_bootstrap_credentials`), then looks the key up. The first
part is one transaction per call, as long as the process has not seen one
succeed: for each listed credential a `SELECT` by hash, and an `INSERT` where
nothing was found. Calls of one process run it side by side, and so do
processes that start together.

Mirroring notes:
- The table is an index by `api_key_hash`, its unique column; `id` and the
  two timestamps are left out.
- `session.add` sends nothing. The row goes out before the next statement of
  the session: the next `SELECT` or the commit. So an `INSERT` is a step of
  its own, between the two.
- Reads are those of READ COMMITTED. What the database does with two
  transactions that insert one key is `UniqueIndex.insert`.
- `hexdigest` is SHA-256 of the text's UTF-8, `describe` the text of the
  exception for a status that is neither of the two.
- A statement that raises ends the transaction, and so does a process that
  dies; only with a commit is it open whether it took effect.
- The flag is read when a call starts and set when its commit returns.
-/

namespace ControlPlane

open Lib

/-! ## The configured credentials -/

/-- The `status` literal of a credential. -/
inductive CredentialStatus
  | active
  | blocked
deriving DecidableEq, Repr

/-- The status as the column holds it. -/
def CredentialStatus.text : CredentialStatus → String
  | active => "active"
  | blocked => "blocked"

/-- What a credential may do unless it says otherwise. -/
def defaultScopes : List String :=
  ["routing:decide", "routing:outcome", "control:read"]

/-- `BootstrapAgentCredential`, with the bounds its fields are declared with. -/
structure BootstrapAgentCredential where
  apiKey : String
  agentId : String
  environment : String := "internal"
  tenantId : String := "internal"
  status : CredentialStatus := .active
  scopes : List String := defaultScopes
  rateLimitRpm : ℤ := 120
  concurrentLimit : ℤ := 25
  dailyBudgetUsd : ℚ := 250
  defaultPolicyId : String := "balanced"
  budgetProfileId : Option String := none
  rateLimitRpm_ge : 1 ≤ rateLimitRpm := by norm_num
  concurrentLimit_ge : 1 ≤ concurrentLimit := by norm_num
  dailyBudgetUsd_ge : 0 ≤ dailyBudgetUsd := by norm_num

/-- What `Settings` has for credentials; `AGENT_API_KEYS` in its order. -/
structure CredentialSettings where
  apiKeyPepper : String := ""
  bootstrapAgentCredentials : List BootstrapAgentCredential := []
  agentApiKeys : List (String × String) := []
  defaultEnvironment : String := "internal"
  defaultPolicyId : String := "balanced"

/-- `Settings.bootstrap_agent_credentials`. -/
def CredentialSettings.credentials (settings : CredentialSettings) :
    List BootstrapAgentCredential :=
  settings.bootstrapAgentCredentials ++ settings.agentApiKeys.map fun (apiKey, agentId) =>
    { apiKey
      agentId
      environment := settings.defaultEnvironment
      defaultPolicyId := settings.defaultPolicyId }

/-! ## Rows and principals -/

/-- A row of `agent_credentials`, without its key's hash. -/
structure AgentCredential where
  tenantId : String
  agentId : String
  environment : String
  status : String
  scopes : List String
  rateLimitRpm : ℤ
  concurrentLimit : ℤ
  dailyBudgetUsd : ℚ
  defaultPolicyId : String
  budgetProfileId : Option String
deriving DecidableEq, Repr

/-- The row that a listed credential is inserted as. -/
def BootstrapAgentCredential.record (bootstrap : BootstrapAgentCredential) : AgentCredential :=
  { tenantId := bootstrap.tenantId
    agentId := bootstrap.agentId
    environment := bootstrap.environment
    status := bootstrap.status.text
    scopes := bootstrap.scopes
    rateLimitRpm := bootstrap.rateLimitRpm
    concurrentLimit := bootstrap.concurrentLimit
    dailyBudgetUsd := bootstrap.dailyBudgetUsd
    defaultPolicyId := bootstrap.defaultPolicyId
    budgetProfileId := bootstrap.budgetProfileId }

/-- `AgentPrincipal` with the fields that only authentication looks at. -/
structure AuthenticatedPrincipal extends AgentPrincipal where
  status : CredentialStatus
  scopes : List String
  budgetProfileId : Option String
deriving DecidableEq, Repr

/-- The credential store of a process. -/
structure CredentialStore where
  hexdigest : String → String
  describe : String → String
  settings : CredentialSettings

namespace CredentialStore

variable (store : CredentialStore)

/-- All that is listed, in the order it is inserted. -/
def credentials : List BootstrapAgentCredential :=
  store.settings.credentials

/-- The digest under which a key's row is stored. -/
def hashApiKey (apiKey : String) : String :=
  store.hexdigest (store.settings.apiKeyPepper ++ ":" ++ apiKey)

/-- The status of an `AgentPrincipal`, a `Literal` of two texts. -/
def parseStatus (status : String) : Except ServiceError CredentialStatus :=
  if status = "active" then .ok .active
  else if status = "blocked" then .ok .blocked
  else .error (.valueError (store.describe status))

/-- The principal of a row, if its status is one of the two. -/
def principal (record : AgentCredential) : Except ServiceError AuthenticatedPrincipal :=
  (store.parseStatus record.status).map fun status =>
    { agentId := record.agentId
      environment := record.environment
      tenantId := record.tenantId
      rateLimitRpm := record.rateLimitRpm
      concurrentLimit := record.concurrentLimit
      dailyBudgetUsd := record.dailyBudgetUsd
      defaultPolicyId := record.defaultPolicyId
      status
      scopes := record.scopes
      budgetProfileId := record.budgetProfileId }

/-- The listed credential that comes first under a hash. -/
def listed (hash : String) : Option BootstrapAgentCredential :=
  store.credentials.find? fun bootstrap => store.hashApiKey bootstrap.apiKey = hash

end CredentialStore

/-- A row with one of the two statuses. -/
def AgentCredential.Valid (record : AgentCredential) : Prop :=
  record.status = "active" ∨ record.status = "blocked"

/-- A valid row has a principal. -/
theorem CredentialStore.exists_principal (store : CredentialStore) {record : AgentCredential}
    (h : record.Valid) : ∃ principal, store.principal record = .ok principal := by
  unfold CredentialStore.principal CredentialStore.parseStatus
  rcases h with h | h
  · simp [h, Except.map]
  · simp [h, Except.map]

/-- A listed credential makes a valid row. -/
theorem BootstrapAgentCredential.record_valid (bootstrap : BootstrapAgentCredential) :
    bootstrap.record.Valid := by
  unfold BootstrapAgentCredential.record AgentCredential.Valid
  cases bootstrap.status with
  | active => exact .inl rfl
  | blocked => exact .inr rfl

/-! ## The coroutine -/

/-- The table, and the flag of each process. -/
structure CredentialWorld where
  table : UniqueIndex String AgentCredential ℕ
  bootstrapped : ℕ → Bool
  /-- How many transactions there have been; the next one's name. -/
  opened : ℕ

/-- A call to `authenticate` in a process. -/
structure AuthCall where
  process : ℕ
  apiKey : String

/-- The awaits of `authenticate`, those of the bootstrap first. -/
inductive AuthPc
  | ensure
  | select (x : ℕ) (bootstrap : BootstrapAgentCredential) (rest : List BootstrapAgentCredential)
  | insert (x : ℕ) (bootstrap : BootstrapAgentCredential) (rest : List BootstrapAgentCredential)
  | commit (x : ℕ)
  | lookup
  | returned (principal : Option AuthenticatedPrincipal)
  | raised (err : ServiceError)

/-- The loop at its head, or past its last credential. -/
def AuthPc.loop (x : ℕ) : List BootstrapAgentCredential → AuthPc
  | [] => .commit x
  | bootstrap :: rest => .select x bootstrap rest

/-- A call and where it stands. -/
structure AuthTask where
  call : AuthCall
  pc : AuthPc

namespace CredentialStore

variable (store : CredentialStore) (call : AuthCall) (w : CredentialWorld)

/-- The end of `authenticate`. -/
def answer (record : Option AgentCredential) : AuthPc :=
  match record with
  | none => .returned none
  | some record =>
    match store.principal record with
    | .error err => .raised err
    | .ok principal => .returned (some principal)

/-- What a statement that raises does to its transaction. -/
def abandon (x : ℕ) : Option (CredentialWorld × AuthPc) :=
  some ({ w with table := w.table.rollback x }, .raised .unavailable)

/-- A step of `authenticate`, statement by statement. -/
def advanceAuth (fault : Fault) : AuthPc → Option (CredentialWorld × AuthPc)
  | .ensure =>
    if w.bootstrapped call.process ∨ store.credentials = [] then some (w, .lookup)
    else some ({ w with opened := w.opened + 1 }, .loop w.opened store.credentials)
  | .select x bootstrap rest =>
    if fault = .returns then
      match w.table.visible x (store.hashApiKey bootstrap.apiKey) with
      | some _ => some (w, .loop x rest)
      | none => some (w, .insert x bootstrap rest)
    else abandon w x
  | .insert x bootstrap rest =>
    if fault = .returns then
      match w.table.insert x (store.hashApiKey bootstrap.apiKey) bootstrap.record with
      | .inserted table => some ({ w with table }, .loop x rest)
      | .violates =>
        some ({ w with table := w.table.rollback x }, .raised (.integrityError "api_key_hash"))
      | .waits => none
    else abandon w x
  | .commit x =>
    match fault with
    | .returns =>
      some ({ w with
        table := w.table.commit x
        bootstrapped := Function.update w.bootstrapped call.process true }, .lookup)
    | .raises => abandon w x
    | .raisesAfter => some ({ w with table := w.table.commit x }, .raised .unavailable)
  | .lookup =>
    if fault = .returns then
      some (w, store.answer (w.table.committed (store.hashApiKey call.apiKey)))
    else some (w, .raised .unavailable)
  | .returned _ => none
  | .raised _ => none

end CredentialStore

/-- Any number of calls, in any number of processes with a store each. -/
def credentialPlane (stores : ℕ → CredentialStore) : System CredentialWorld AuthTask Fault where
  advance fault w t :=
    ((stores t.call.process).advanceAuth t.call w fault t.pc).map fun next =>
      (next.1, { t with pc := next.2 })

/-! ## One step -/

/-- The transaction a call has open. -/
def AuthPc.transaction : AuthPc → Option ℕ
  | select x _ _ | insert x _ _ | commit x => some x
  | _ => none

/-- The credentials a call has not seen to. -/
def AuthPc.remaining : AuthPc → List BootstrapAgentCredential
  | select _ bootstrap rest | insert _ bootstrap rest => bootstrap :: rest
  | _ => []

/-- At any of its loop's statements the call is in its transaction. -/
@[simp]
theorem AuthPc.transaction_loop (x : ℕ) (rest : List BootstrapAgentCredential) :
    (AuthPc.loop x rest).transaction = some x := by
  cases rest <;> rfl

/-- At its head all that is left is still to come. -/
@[simp]
theorem AuthPc.remaining_loop (x : ℕ) (rest : List BootstrapAgentCredential) :
    (AuthPc.loop x rest).remaining = rest := by
  cases rest <;> rfl

/-- What a step of a call can do. -/
inductive AuthStep (store : CredentialStore) (call : AuthCall) (w : CredentialWorld) :
    AuthPc → CredentialWorld → AuthPc → Prop
  | skip (h : w.bootstrapped call.process = true ∨ store.credentials = []) :
      AuthStep store call w .ensure w .lookup
  | begin (hflag : w.bootstrapped call.process = false) :
      AuthStep store call w .ensure { w with opened := w.opened + 1 }
        (.loop w.opened store.credentials)
  | found {x bootstrap rest}
      (hseen : w.table.visible x (store.hashApiKey bootstrap.apiKey) ≠ none) :
      AuthStep store call w (.select x bootstrap rest) w (.loop x rest)
  | missing {x bootstrap rest}
      (hseen : w.table.visible x (store.hashApiKey bootstrap.apiKey) = none) :
      AuthStep store call w (.select x bootstrap rest) w (.insert x bootstrap rest)
  | inserted {x bootstrap rest table}
      (hinsert : w.table.insert x (store.hashApiKey bootstrap.apiKey) bootstrap.record
        = .inserted table) :
      AuthStep store call w (.insert x bootstrap rest) { w with table } (.loop x rest)
  | violated {x bootstrap rest}
      (hinsert : w.table.insert x (store.hashApiKey bootstrap.apiKey) bootstrap.record
        = .violates) :
      AuthStep store call w (.insert x bootstrap rest) { w with table := w.table.rollback x }
        (.raised (.integrityError "api_key_hash"))
  | abandoned {pc x} (hpc : pc.transaction = some x) :
      AuthStep store call w pc { w with table := w.table.rollback x } (.raised .unavailable)
  | committed {x} :
      AuthStep store call w (.commit x)
        { w with
          table := w.table.commit x
          bootstrapped := Function.update w.bootstrapped call.process true } .lookup
  | unacknowledged {x} :
      AuthStep store call w (.commit x) { w with table := w.table.commit x }
        (.raised .unavailable)
  | answered :
      AuthStep store call w .lookup w
        (store.answer (w.table.committed (store.hashApiKey call.apiKey)))
  | unanswered : AuthStep store call w .lookup w (.raised .unavailable)

section Step

variable {store : CredentialStore} {call : AuthCall} {fault : Fault} {w w' : CredentialWorld}
  {pc pc' : AuthPc}

/-- The coroutine does nothing that `AuthStep` does not list. -/
theorem advanceAuth_cases (h : store.advanceAuth call w fault pc = some (w', pc')) :
    AuthStep store call w pc w' pc' := by
  cases pc with
  | ensure =>
    simp only [CredentialStore.advanceAuth] at h
    split at h
    next hskip =>
      obtain ⟨rfl, rfl⟩ := Prod.mk.inj (Option.some.inj h)
      exact .skip hskip
    next hskip =>
      obtain ⟨rfl, rfl⟩ := Prod.mk.inj (Option.some.inj h)
      exact .begin (Bool.eq_false_iff.mpr fun hflag => hskip (.inl hflag))
  | select x bootstrap rest =>
    simp only [CredentialStore.advanceAuth] at h
    split at h
    next =>
      split at h
      next hseen =>
        obtain ⟨rfl, rfl⟩ := Prod.mk.inj (Option.some.inj h)
        exact .found (by simp [hseen])
      next hseen =>
        obtain ⟨rfl, rfl⟩ := Prod.mk.inj (Option.some.inj h)
        exact .missing hseen
    next =>
      obtain ⟨rfl, rfl⟩ := Prod.mk.inj (Option.some.inj h)
      exact .abandoned rfl
  | insert x bootstrap rest =>
    simp only [CredentialStore.advanceAuth] at h
    split at h
    next =>
      split at h
      next hinsert =>
        obtain ⟨rfl, rfl⟩ := Prod.mk.inj (Option.some.inj h)
        exact .inserted hinsert
      next hinsert =>
        obtain ⟨rfl, rfl⟩ := Prod.mk.inj (Option.some.inj h)
        exact .violated hinsert
      next => cases h
    next =>
      obtain ⟨rfl, rfl⟩ := Prod.mk.inj (Option.some.inj h)
      exact .abandoned rfl
  | commit x =>
    cases fault with
    | returns =>
      obtain ⟨rfl, rfl⟩ := Prod.mk.inj (Option.some.inj h)
      exact .committed
    | raises =>
      obtain ⟨rfl, rfl⟩ := Prod.mk.inj (Option.some.inj h)
      exact .abandoned rfl
    | raisesAfter =>
      obtain ⟨rfl, rfl⟩ := Prod.mk.inj (Option.some.inj h)
      exact .unacknowledged
  | lookup =>
    simp only [CredentialStore.advanceAuth] at h
    split at h
    next =>
      obtain ⟨rfl, rfl⟩ := Prod.mk.inj (Option.some.inj h)
      exact .answered
    next =>
      obtain ⟨rfl, rfl⟩ := Prod.mk.inj (Option.some.inj h)
      exact .unanswered
  | returned principal => cases h
  | raised err => cases h

/-- What a step leaves alone: committed rows, the flags that are up, and the
rows of every other transaction. -/
structure AuthFrame (w w' : CredentialWorld) (x : Option ℕ) : Prop where
  table : w.table.Extends w'.table
  own : ∀ y, x ≠ some y → w'.table.own y = w.table.own y
  bootstrapped : ∀ p, w.bootstrapped p = true → w'.bootstrapped p = true
  opened : w.opened ≤ w'.opened

/-- What a step leaves as it was. -/
theorem AuthStep.frame (h : AuthStep store call w pc w' pc') :
    AuthFrame w w' pc.transaction := by
  cases h with
  | skip | found | missing | answered | unanswered =>
    exact ⟨.refl _, fun _ _ => rfl, fun _ => id, le_rfl⟩
  | begin => exact ⟨.refl _, fun _ _ => rfl, fun _ => id, Nat.le_succ _⟩
  | inserted hinsert =>
    refine ⟨.of_eq (UniqueIndex.committed_insert hinsert), fun y hy => ?_, fun _ => id, le_rfl⟩
    exact UniqueIndex.own_insert_of_ne hinsert fun heq => hy (congrArg some heq.symm)
  | violated =>
    refine ⟨.of_eq (w.table.committed_rollback _), fun y hy => ?_, fun _ => id, le_rfl⟩
    exact w.table.own_rollback_of_ne fun heq => hy (congrArg some heq.symm)
  | abandoned hpc =>
    refine ⟨.of_eq (w.table.committed_rollback _), fun y hy => ?_, fun _ => id, le_rfl⟩
    exact w.table.own_rollback_of_ne fun heq => hy (hpc.trans (congrArg some heq.symm))
  | committed =>
    refine ⟨w.table.extends_commit _, fun y hy => ?_, fun p hp => ?_, le_rfl⟩
    · exact w.table.own_commit_of_ne fun heq => hy (congrArg some heq.symm)
    · dsimp only
      by_cases hprocess : p = call.process
      · rw [hprocess, Function.update_self]
      · rw [Function.update_of_ne hprocess]
        exact hp
  | unacknowledged =>
    refine ⟨w.table.extends_commit _, fun y hy => ?_, fun _ => id, le_rfl⟩
    exact w.table.own_commit_of_ne fun heq => hy (congrArg some heq.symm)

end Step

end ControlPlane
