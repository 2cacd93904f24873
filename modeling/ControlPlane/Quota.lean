import ControlPlane.Errors
import ControlPlane.Schemas

/-!
# Quotas — `InMemoryQuotaManager`

What the service asks of a quota manager, and the in-memory one. The
interface carries the laws the service's guarantees rest on: a decision id is
held by a principal's slot set from the reservation that admits it until it
is released, an operation touches the slot set of its own principal only, and
what an operation refuses it refuses with `QuotaExceededError`.

Mirroring notes:
- Slots, spend and RPM are keyed by `(environment, agent_id)`, extended by
  the day and the minute.
- A `defaultdict` is a total function; reading a missing key and reading its
  default are the same.
- `time.time()` is whole seconds since the epoch.
-/

namespace ControlPlane

/-- `time.time()` and `date.today().isoformat()` at a step. -/
structure Clock where
  time : ℕ
  today : String
deriving DecidableEq

/-- The minute of the clock. -/
def Clock.minuteKey (clock : Clock) : ℕ :=
  clock.time / 60

/-- The environment and the id, which every quota is kept under. -/
def AgentPrincipal.quotaKey (principal : AgentPrincipal) : String × String :=
  (principal.environment, principal.agentId)

/-- A quota manager over states `Q`; `held` is the slot set of each
`(environment, agent_id)`. -/
structure QuotaManager (Q : Type) where
  enforceRpm : Clock → AgentPrincipal → Q → Q × Except ServiceError Unit
  reserveConcurrency : AgentPrincipal → String → Q → Q × Except ServiceError Unit
  releaseConcurrency : AgentPrincipal → String → Q → Q
  currentDailySpend : Clock → AgentPrincipal → Q → ℚ
  recordSpend : Clock → AgentPrincipal → ℚ → Q → Q
  held : Q → String × String → Finset String
  rpm_refusal : ∀ {clock p q q' err}, enforceRpm clock p q = (q', .error err) →
    ∃ detail, err = .quotaExceeded detail
  rpm_held : ∀ clock p q, held (enforceRpm clock p q).1 = held q
  reserve_held : ∀ {p id q q'}, reserveConcurrency p id q = (q', .ok ()) →
    held q' = Function.update (held q) p.quotaKey (insert id (held q p.quotaKey))
  reserve_refusal : ∀ {p id q q' err}, reserveConcurrency p id q = (q', .error err) →
    (∃ detail, err = .quotaExceeded detail)
      ∧ held q' = Function.update (held q) p.quotaKey ((held q p.quotaKey).erase id)
  release_held : ∀ p id q, held (releaseConcurrency p id q)
    = Function.update (held q) p.quotaKey ((held q p.quotaKey).erase id)
  spend_held : ∀ clock p amount q, held (recordSpend clock p amount q) = held q

namespace QuotaManager

variable {Q : Type} (M : QuotaManager Q) {p : AgentPrincipal} {id id' : String} {q : Q}
  {key : String × String}

/-- A reservation adds at most its own id, and only to its principal's set. -/
theorem mem_held_reserve (h : id' ∈ M.held (M.reserveConcurrency p id q).1 key) :
    id' ∈ M.held q key ∨ (id' = id ∧ key = p.quotaKey) := by
  rcases hres : M.reserveConcurrency p id q with ⟨q', err | ⟨⟩⟩
  · -- A refusal takes the id out again, which cannot add one either.
    rw [hres, (M.reserve_refusal hres).2] at h
    by_cases hkey : key = p.quotaKey
    · subst hkey
      rw [Function.update_self] at h
      exact .inl (Finset.mem_of_mem_erase h)
    · rw [Function.update_of_ne hkey] at h
      exact .inl h
  · rw [hres, M.reserve_held hres] at h
    by_cases hkey : key = p.quotaKey
    · subst hkey
      rw [Function.update_self] at h
      exact (Finset.mem_insert.mp h).elim (fun he => .inr ⟨he, rfl⟩) .inl
    · rw [Function.update_of_ne hkey] at h
      exact .inl h

/-- A release adds no slot. -/
theorem mem_held_release (h : id' ∈ M.held (M.releaseConcurrency p id q) key) :
    id' ∈ M.held q key := by
  rw [M.release_held] at h
  by_cases hkey : key = p.quotaKey
  · subst hkey
    rw [Function.update_self] at h
    exact Finset.mem_of_mem_erase h
  · rwa [Function.update_of_ne hkey] at h

/-- After a refused reservation or a release the id is not in the set. -/
theorem notMem_held_refused {q' : Q} {err : ServiceError}
    (h : M.reserveConcurrency p id q = (q', .error err)) : id ∉ M.held q' p.quotaKey := by
  rw [(M.reserve_refusal h).2, Function.update_self]
  exact Finset.notMem_erase _ _

/-- The released id is gone. -/
theorem notMem_held_released : id ∉ M.held (M.releaseConcurrency p id q) p.quotaKey := by
  rw [M.release_held, Function.update_self]
  exact Finset.notMem_erase _ _

end QuotaManager

/-! ## The in-memory manager -/

/-- The three counters. -/
structure InMemoryQuota where
  rpm : String × String × ℕ → ℕ := fun _ => 0
  concurrent : String × String → Finset String := fun _ => ∅
  dailyBudget : String × String × String → ℚ := fun _ => 0

namespace InMemoryQuota

/-- `enforce_rpm`. -/
def enforceRpm (clock : Clock) (principal : AgentPrincipal) (q : InMemoryQuota) :
    InMemoryQuota × Except ServiceError Unit :=
  let key := (principal.environment, principal.agentId, clock.minuteKey)
  let count := q.rpm key + 1
  ({ q with rpm := Function.update q.rpm key count },
    if principal.rateLimitRpm < count then .error (.quotaExceeded "agent RPM exceeded")
    else .ok ())

/-- The slots of one key, set. -/
def setSlots (q : InMemoryQuota) (key : String × String) (slots : Finset String) :
    InMemoryQuota :=
  { q with concurrent := Function.update q.concurrent key slots }

/-- The id is added first and taken out again when the set has outgrown the
limit. -/
def reserveConcurrency (principal : AgentPrincipal) (decisionId : String) (q : InMemoryQuota) :
    InMemoryQuota × Except ServiceError Unit :=
  let key := principal.quotaKey
  let current := insert decisionId (q.concurrent key)
  -- `discard`, also of an id that was in the set before.
  if principal.concurrentLimit < current.card then
    (q.setSlots key (current.erase decisionId),
      .error (.quotaExceeded "agent concurrent limit exceeded"))
  else (q.setSlots key current, .ok ())

/-- `release_concurrency`. -/
def releaseConcurrency (principal : AgentPrincipal) (decisionId : String) (q : InMemoryQuota) :
    InMemoryQuota :=
  q.setSlots principal.quotaKey ((q.concurrent principal.quotaKey).erase decisionId)

/-- `current_daily_spend`. -/
def currentDailySpend (clock : Clock) (principal : AgentPrincipal) (q : InMemoryQuota) : ℚ :=
  q.dailyBudget (principal.environment, principal.agentId, clock.today)

/-- `record_spend`. -/
def recordSpend (clock : Clock) (principal : AgentPrincipal) (amount : ℚ) (q : InMemoryQuota) :
    InMemoryQuota :=
  let key := (principal.environment, principal.agentId, clock.today)
  { q with dailyBudget := Function.update q.dailyBudget key (q.dailyBudget key + amount) }

/-- The only refusal is that of the minute. -/
theorem enforceRpm_error {clock : Clock} {p : AgentPrincipal} {q q' : InMemoryQuota}
    {err : ServiceError} (h : enforceRpm clock p q = (q', .error err)) :
    err = .quotaExceeded "agent RPM exceeded" := by
  simp only [enforceRpm, Prod.mk.injEq] at h
  obtain ⟨-, h⟩ := h
  split at h
  next => exact (Except.error.inj h).symm
  next => simp at h

/-- What a reservation does: it is admitted and the set stays within the
limit, or it is refused and the id is not in the set. -/
theorem reserveConcurrency_cases (p : AgentPrincipal) (id : String) (q : InMemoryQuota) :
    (((insert id (q.concurrent p.quotaKey)).card : ℤ) ≤ p.concurrentLimit
      ∧ reserveConcurrency p id q
        = (q.setSlots p.quotaKey (insert id (q.concurrent p.quotaKey)), .ok ()))
    ∨ reserveConcurrency p id q
        = (q.setSlots p.quotaKey ((q.concurrent p.quotaKey).erase id),
            .error (.quotaExceeded "agent concurrent limit exceeded")) := by
  unfold reserveConcurrency
  by_cases hfull : p.concurrentLimit < (insert id (q.concurrent p.quotaKey)).card
  · refine .inr ?_
    simp only [if_pos hfull, Finset.erase_insert_eq_erase]
  · exact .inl ⟨by omega, by simp only [if_neg hfull]⟩

/-- The in-memory manager meets the interface. -/
def manager : QuotaManager InMemoryQuota where
  enforceRpm
  reserveConcurrency
  releaseConcurrency
  currentDailySpend
  recordSpend
  held := concurrent
  rpm_refusal h := ⟨_, enforceRpm_error h⟩
  rpm_held _ _ _ := rfl
  reserve_held {p id q q'} h := by
    rcases reserveConcurrency_cases p id q with ⟨-, hres⟩ | hres
    · rw [hres] at h
      rw [← (Prod.mk.inj h).1]
      rfl
    · simp [hres] at h
  reserve_refusal {p id q q' err} h := by
    rcases reserveConcurrency_cases p id q with ⟨-, hres⟩ | hres
    · simp [hres] at h
    · rw [hres] at h
      obtain ⟨rfl, herr⟩ := Prod.mk.inj h
      exact ⟨⟨_, (Except.error.inj herr).symm⟩, rfl⟩
  release_held _ _ _ := rfl
  spend_held _ _ _ _ := rfl

end InMemoryQuota

end ControlPlane
