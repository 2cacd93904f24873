import ControlPlane.Lib.Expiring
import ControlPlane.Service

/-!
# Redis, and the quota manager over it — `RedisQuotaManager`

The commands the manager sends, the keys it sends them to, and its five
calls. A command is atomic and executes at an instant; here a whole call
executes at one, as it does when nothing else runs.

Mirroring notes:
- Instants are rational seconds since the epoch, so a call may execute at any
  point between two clock ticks. The minute key is `int(time.time() // 60)`.
- A key with a deadline is gone from the deadline on.
- Redis has one keyspace. The manager's keys say in their prefix what they
  hold, so no command meets a value of another kind (`keys_apart`) and each
  kind has a map of its own here.
- `SREM` deletes a set that loses its last member, and with it the deadline.
- `INCRBYFLOAT` is exact, and `float(raw or 0.0)` reads a missing key as zero.
- `date.today().isoformat()` comes with the call.
-/

namespace ControlPlane

open Lib

/-- The keys the quota manager uses, by the type of their values. -/
structure Redis where
  counters : Expiring String ℤ ℚ := fun _ => none
  sets : Expiring String (Finset String) ℚ := fun _ => none
  floats : Expiring String ℚ ℚ := fun _ => none

/-! ## Commands -/

namespace Redis

section Commands

variable (now : ℚ) (key : String)

/-- `INCR`: the new count. -/
def incr (r : Redis) : Redis × ℤ :=
  let count := (r.counters.get now key).getD 0 + 1
  ({ r with counters := r.counters.set now key count }, count)

/-- `EXPIRE` on a counter. -/
def expireCounter (seconds : ℚ) (r : Redis) : Redis :=
  { r with counters := r.counters.expire now key (now + seconds) }

/-- `SMEMBERS`: a missing key is the empty set. -/
def smembers (r : Redis) : Finset String :=
  (r.sets.get now key).getD ∅

/-- `SADD`. -/
def sadd (member : String) (r : Redis) : Redis :=
  { r with sets := r.sets.set now key (insert member (r.smembers now key)) }

/-- `EXPIRE` on a set. -/
def expireSet (seconds : ℚ) (r : Redis) : Redis :=
  { r with sets := r.sets.expire now key (now + seconds) }

/-- `SCARD`. -/
def scard (r : Redis) : ℕ :=
  (r.smembers now key).card

/-- `SREM`: a set without members is deleted. -/
def srem (member : String) (r : Redis) : Redis :=
  let rest := (r.smembers now key).erase member
  { r with sets := if rest = ∅ then r.sets.del key else r.sets.set now key rest }

/-- `GET`. -/
def get (r : Redis) : Option ℚ :=
  r.floats.get now key

/-- `INCRBYFLOAT`. -/
def incrByFloat (amount : ℚ) (r : Redis) : Redis :=
  { r with floats := r.floats.set now key ((r.floats.get now key).getD 0 + amount) }

/-- `EXPIRE` on a float. -/
def expireFloat (seconds : ℚ) (r : Redis) : Redis :=
  { r with floats := r.floats.expire now key (now + seconds) }

end Commands

/-- The sets past an `SREM`. -/
theorem srem_sets (now : ℚ) (key member : String) (r : Redis) :
    (r.srem now key member).sets
      = Function.update r.sets key
        (if (r.smembers now key).erase member = ∅ then none
          else some ⟨(r.smembers now key).erase member,
            (r.sets.live now key).bind (·.expireAt)⟩) := by
  unfold srem
  dsimp only
  split
  next => rfl
  next => rfl

/-- The members under a key, lapsed or not. -/
def heldAt (key : String) (r : Redis) : Finset String :=
  (r.sets key).elim ∅ (·.value)

/-- The members of a live set. -/
theorem smembers_of_live {now : ℚ} {key : String} {r : Redis} {e : Entry (Finset String) ℚ}
    (hentry : r.sets key = some e) (hlive : e.Live now) : r.smembers now key = e.value := by
  unfold smembers
  rw [Expiring.get_of_live hentry hlive]
  rfl

/-- A missing set has none. -/
theorem smembers_of_none {now : ℚ} {key : String} {r : Redis} (hentry : r.sets key = none) :
    r.smembers now key = ∅ := by
  unfold smembers
  rw [Expiring.get_of_none hentry]
  rfl

/-- Of live sets they are what is held. -/
theorem smembers_eq_heldAt {now : ℚ} {key : String} {r : Redis}
    (h : ∀ e, r.sets key = some e → e.Live now) : r.smembers now key = r.heldAt key := by
  unfold heldAt
  cases hentry : r.sets key with
  | none => exact smembers_of_none hentry
  | some e => exact smembers_of_live hentry (h e hentry)

/-- A lapse only loses members. -/
theorem smembers_subset_heldAt {now : ℚ} {key : String} {r : Redis} :
    r.smembers now key ⊆ r.heldAt key := by
  unfold smembers Expiring.get
  cases hlive : r.sets.live now key with
  | none => exact Finset.empty_subset _
  | some e =>
    unfold heldAt
    rw [(Expiring.live_eq_some.mp hlive).1]
    exact Finset.Subset.refl _

/-- A member seen is one of a live entry. -/
theorem mem_smembers {now : ℚ} {key member : String} {r : Redis} :
    member ∈ r.smembers now key ↔ ∃ e, r.sets key = some e ∧ e.Live now ∧ member ∈ e.value := by
  unfold smembers Expiring.get
  cases hlive : r.sets.live now key with
  | none =>
    simp only [Option.map_none, Option.getD_none, Finset.notMem_empty, false_iff]
    intro hmem
    obtain ⟨e, hentry, he, -⟩ := hmem
    rw [Expiring.live_eq_some.mpr ⟨hentry, he⟩] at hlive
    cases hlive
  | some e =>
    obtain ⟨hentry, he⟩ := Expiring.live_eq_some.mp hlive
    simp only [Option.map_some, Option.getD_some]
    constructor
    · exact fun hmem => ⟨e, hentry, he, hmem⟩
    · intro hmem
      obtain ⟨e', hentry', -, hmem⟩ := hmem
      rw [hentry] at hentry'
      exact Option.some.inj hentry' ▸ hmem

/-- A later command sees no more than an earlier one. -/
theorem smembers_antitone {now now' : ℚ} {key : String} {r : Redis} (hle : now ≤ now') :
    r.smembers now' key ⊆ r.smembers now key := by
  intro member hmem
  obtain ⟨e, hentry, hlive, hmem⟩ := mem_smembers.mp hmem
  exact mem_smembers.mpr ⟨e, hentry, hlive.mono hle, hmem⟩

section Smembers

variable (now : ℚ) (key member : String) (r : Redis)

/-- `SADD` adds the member. -/
theorem smembers_sadd :
    (r.sadd now key member).smembers now key = insert member (r.smembers now key) := by
  show ((r.sets.set now key _).get now key).getD ∅ = _
  rw [Expiring.get_set_self]
  rfl

/-- `EXPIRE` keeps the members. -/
theorem smembers_expireSet {seconds : ℚ} (h : 0 < seconds) :
    (r.expireSet now key seconds).smembers now key = r.smembers now key := by
  show ((r.sets.expire now key (now + seconds)).get now key).getD ∅ = _
  rw [Expiring.get_expire_self (by linarith)]
  rfl

/-- `SREM` takes the member out. -/
theorem smembers_srem :
    (r.srem now key member).smembers now key = (r.smembers now key).erase member := by
  unfold srem
  dsimp only
  split
  next hempty =>
    rw [hempty]
    exact smembers_of_none Expiring.del_self
  next =>
    show ((r.sets.set now key _).get now key).getD ∅ = _
    rw [Expiring.get_set_self]
    rfl

end Smembers

section HeldAt

variable {now : ℚ} {key member : String} {r : Redis}

/-- What is held is in the sets. -/
theorem heldAt_of_sets {r' : Redis} (h : r'.sets = r.sets) (key : String) :
    r'.heldAt key = r.heldAt key := by
  unfold heldAt
  rw [h]

/-- What is held past a `SADD`. -/
theorem heldAt_sadd (key' : String) :
    (r.sadd now key member).heldAt key'
      = if key' = key then insert member (r.smembers now key) else r.heldAt key' := by
  unfold heldAt sadd
  dsimp only
  split
  next heq =>
    rw [heq, Expiring.set_self]
    rfl
  next hne => rw [Expiring.set_of_ne hne]

/-- `EXPIRE` changes no set. -/
theorem heldAt_expireSet (seconds : ℚ) (key' : String) :
    (r.expireSet now key seconds).heldAt key' = r.heldAt key' := by
  unfold heldAt expireSet
  dsimp only
  by_cases heq : key' = key
  · subst heq
    cases hlive : r.sets.live now key' with
    | none => rw [Expiring.expire_of_dead hlive]
    | some e =>
      rw [Expiring.expire_self hlive, (Expiring.live_eq_some.mp hlive).1]
      rfl
  · rw [Expiring.expire_of_ne heq]

/-- What is held past an `SREM`. -/
theorem heldAt_srem (key' : String) :
    (r.srem now key member).heldAt key'
      = if key' = key then (r.smembers now key).erase member else r.heldAt key' := by
  unfold heldAt
  rw [srem_sets]
  by_cases heq : key' = key
  · subst heq
    rw [if_pos rfl, Function.update_self]
    split
    next hempty => exact hempty.symm
    next => rfl
  · rw [if_neg heq, Function.update_of_ne heq]

end HeldAt

end Redis

/-! ## Keys -/

/-- `int(time.time() // 60)`. -/
def minuteKey (now : ℚ) : ℤ :=
  ⌊now / 60⌋

section Keys

variable (owner : String × String)

/-- What the three kinds of key have in common: environment and agent id,
joined by the separator both may contain. -/
def keyScope : String :=
  owner.1 ++ ":" ++ owner.2

/-- The counter of one minute. -/
def rpmKey (minute : ℤ) : String :=
  "quota:rpm:" ++ keyScope owner ++ ":" ++ toString minute

/-- The set of reserved ids. -/
def concurrencyKey : String :=
  "quota:concurrency:" ++ keyScope owner

/-- The spend of one day. -/
def budgetKey (today : String) : String :=
  "quota:budget:" ++ keyScope owner ++ ":" ++ today

end Keys

/-- Keys of different kinds differ, whoever owns them. -/
theorem keys_apart (a b c : String × String) (minute : ℤ) (today : String) :
    rpmKey a minute ≠ concurrencyKey b ∧ rpmKey a minute ≠ budgetKey c today
      ∧ concurrencyKey b ≠ budgetKey c today := by
  -- They differ in the first letter after `quota:`.
  have hne : ∀ s t : String, s.toList.take 7 ≠ t.toList.take 7 → s ≠ t := by
    intro s t hletter heq
    rw [heq] at hletter
    exact hletter rfl
  unfold rpmKey concurrencyKey budgetKey
  refine ⟨hne _ _ ?_, hne _ _ ?_, hne _ _ ?_⟩ <;>
    simp [String.toList_append]

/-! ## The manager -/

/-- `settings` as its fields accept it: `DECISION_TTL_SECONDS` has `ge=30`. -/
structure ValidSettings extends Settings where
  decisionTtlSeconds_ge : 30 ≤ decisionTtlSeconds := by norm_num

/-- `settings.DECISION_TTL_SECONDS * 6`. -/
def ValidSettings.slotTtl (settings : ValidSettings) : ℚ :=
  settings.decisionTtlSeconds * 6

/-- A slot has time to live. -/
theorem ValidSettings.slotTtl_pos (settings : ValidSettings) : 0 < settings.slotTtl := by
  have h : (30 : ℚ) ≤ settings.decisionTtlSeconds := by
    exact_mod_cast settings.decisionTtlSeconds_ge
  unfold slotTtl
  linarith

namespace RedisQuota

section

variable (settings : ValidSettings) (now : ℚ) (today : String) (principal : AgentPrincipal)

/-- `enforce_rpm`. -/
def enforceRpm (r : Redis) : Redis × Except ServiceError Unit :=
  let key := rpmKey principal.quotaKey (minuteKey now)
  let counted := r.incr now key
  let count := counted.2
  let r := if count = 1 then counted.1.expireCounter now key 60 else counted.1
  (r, if principal.rateLimitRpm < count then .error (.quotaExceeded "agent RPM exceeded")
    else .ok ())

/-- As in memory, an id over the limit is taken out again. -/
def reserveConcurrency (decisionId : String) (r : Redis) : Redis × Except ServiceError Unit :=
  let key := concurrencyKey principal.quotaKey
  let r := r.sadd now key decisionId
  -- The deadline is the whole set's, and every attempt moves it.
  let r := r.expireSet now key settings.slotTtl
  if principal.concurrentLimit < r.scard now key then
    (r.srem now key decisionId, .error (.quotaExceeded "agent concurrent limit exceeded"))
  else (r, .ok ())

/-- `release_concurrency`. -/
def releaseConcurrency (decisionId : String) (r : Redis) : Redis :=
  r.srem now (concurrencyKey principal.quotaKey) decisionId

/-- `current_daily_spend`. -/
def currentDailySpend (r : Redis) : ℚ :=
  (r.get now (budgetKey principal.quotaKey today)).getD 0

/-- `record_spend`. -/
def recordSpend (amount : ℚ) (r : Redis) : Redis :=
  let key := budgetKey principal.quotaKey today
  (r.incrByFloat now key amount).expireFloat now key (86400 * 7)

end

/-! ## What a call does to its key -/

/-- A count of one starts the deadline; any other keeps the one there is. -/
theorem enforceRpm_counters (now : ℚ) (principal : AgentPrincipal) (r : Redis) :
    let key := rpmKey principal.quotaKey (minuteKey now)
    let count := (r.counters.get now key).getD 0 + 1
    (enforceRpm now principal r).1.counters
      = Function.update r.counters key (some ⟨count, if count = 1 then some (now + 60)
          else (r.counters.live now key).bind (·.expireAt)⟩) := by
  intro key count
  unfold enforceRpm
  dsimp only
  split_ifs with hone hone' hone'
  · show (r.counters.set now key count).expire now key (now + 60) = _
    rw [Expiring.expire_of_live Expiring.live_set_self]
    unfold Expiring.set
    rw [Function.update_idem]
  · exact absurd hone hone'
  · exact absurd hone' hone
  · rfl

/-- What it answers. -/
theorem enforceRpm_reply (now : ℚ) (principal : AgentPrincipal) (r : Redis) :
    (enforceRpm now principal r).2
      = if principal.rateLimitRpm
            < (r.counters.get now (rpmKey principal.quotaKey (minuteKey now))).getD 0 + 1 then
          .error (.quotaExceeded "agent RPM exceeded")
        else .ok () := rfl

/-- The sets are not touched. -/
theorem enforceRpm_sets (now : ℚ) (principal : AgentPrincipal) (r : Redis) :
    (enforceRpm now principal r).1.sets = r.sets := by
  unfold enforceRpm
  dsimp only
  split_ifs <;> rfl

/-- Nor are the floats. -/
theorem enforceRpm_floats (now : ℚ) (principal : AgentPrincipal) (r : Redis) :
    (enforceRpm now principal r).1.floats = r.floats := by
  unfold enforceRpm
  dsimp only
  split_ifs <;> rfl

/-- The set with the id in it and a new deadline. -/
def reserved (settings : ValidSettings) (now : ℚ) (owner : String × String)
    (decisionId : String) (r : Redis) : Redis :=
  { r with
    sets := Function.update r.sets (concurrencyKey owner)
      (some ⟨insert decisionId (r.smembers now (concurrencyKey owner)),
        some (now + settings.slotTtl)⟩) }

/-- The set as a reservation leaves it. -/
theorem reserved_self (settings : ValidSettings) (now : ℚ) (owner : String × String)
    (decisionId : String) (r : Redis) :
    (reserved settings now owner decisionId r).sets (concurrencyKey owner)
      = some ⟨insert decisionId (r.smembers now (concurrencyKey owner)),
          some (now + settings.slotTtl)⟩ :=
  Function.update_self _ _ _

/-- These are its first two commands. -/
theorem sadd_expireSet (settings : ValidSettings) (now : ℚ) (owner : String × String)
    (decisionId : String) (r : Redis) :
    (r.sadd now (concurrencyKey owner) decisionId).expireSet now (concurrencyKey owner)
      settings.slotTtl = reserved settings now owner decisionId r := by
  unfold Redis.expireSet Redis.sadd reserved
  dsimp only
  rw [Expiring.expire_of_live Expiring.live_set_self]
  unfold Expiring.set
  rw [Function.update_idem]

/-- The set is live. -/
theorem reserved_live (settings : ValidSettings) (now : ℚ) (owner : String × String)
    (decisionId : String) (r : Redis) :
    (reserved settings now owner decisionId r).sets.live now (concurrencyKey owner)
      = some ⟨insert decisionId (r.smembers now (concurrencyKey owner)),
          some (now + settings.slotTtl)⟩ := by
  refine Expiring.live_eq_some.mpr ⟨reserved_self settings now owner decisionId r, ?_⟩
  intro deadline hdeadline
  -- The deadline is still to come, so the set is seen.
  obtain rfl := Option.some.inj hdeadline
  have hpos := settings.slotTtl_pos
  linarith

/-- The id is in it. -/
theorem smembers_reserved (settings : ValidSettings) (now : ℚ) (owner : String × String)
    (decisionId : String) (r : Redis) :
    (reserved settings now owner decisionId r).smembers now (concurrencyKey owner)
      = insert decisionId (r.smembers now (concurrencyKey owner)) := by
  unfold Redis.smembers Expiring.get
  rw [reserved_live]
  rfl

/-- The set with the id out of it again, but with the new deadline. -/
def refused (settings : ValidSettings) (now : ℚ) (owner : String × String)
    (decisionId : String) (r : Redis) : Redis :=
  let rest := (r.smembers now (concurrencyKey owner)).erase decisionId
  { r with
    sets := Function.update r.sets (concurrencyKey owner)
      (if rest = ∅ then none else some ⟨rest, some (now + settings.slotTtl)⟩) }

/-- The set as a refusal leaves it. -/
theorem refused_self (settings : ValidSettings) (now : ℚ) (owner : String × String)
    (decisionId : String) (r : Redis) :
    let rest := (r.smembers now (concurrencyKey owner)).erase decisionId
    (refused settings now owner decisionId r).sets (concurrencyKey owner)
      = if rest = ∅ then none else some ⟨rest, some (now + settings.slotTtl)⟩ :=
  Function.update_self _ _ _

/-- These are the first two commands and the `SREM`. -/
theorem srem_reserved (settings : ValidSettings) (now : ℚ) (owner : String × String)
    (decisionId : String) (r : Redis) :
    (reserved settings now owner decisionId r).srem now (concurrencyKey owner) decisionId
      = refused settings now owner decisionId r := by
  have hsets := Redis.srem_sets now (concurrencyKey owner) decisionId
    (reserved settings now owner decisionId r)
  rw [smembers_reserved, reserved_live, Finset.erase_insert_eq_erase] at hsets
  have hidem : (reserved settings now owner decisionId r).sets
      = Function.update r.sets (concurrencyKey owner) _ := rfl
  rw [hidem, Function.update_idem] at hsets
  exact congrArg (fun sets => ({ r with sets } : Redis)) hsets

/-- A reservation is admitted with the set within the limit, or refused and
its id taken out again. Either way the deadline has moved. -/
theorem reserveConcurrency_cases (settings : ValidSettings) (now : ℚ)
    (principal : AgentPrincipal) (decisionId : String) (r : Redis) :
    let current := insert decisionId (r.smembers now (concurrencyKey principal.quotaKey))
    ((current.card : ℤ) ≤ principal.concurrentLimit
      ∧ reserveConcurrency settings now principal decisionId r
        = (reserved settings now principal.quotaKey decisionId r, .ok ()))
    ∨ (principal.concurrentLimit < current.card
      ∧ reserveConcurrency settings now principal decisionId r
        = (refused settings now principal.quotaKey decisionId r,
            .error (.quotaExceeded "agent concurrent limit exceeded"))) := by
  intro current
  unfold reserveConcurrency
  dsimp only
  rw [sadd_expireSet, srem_reserved]
  unfold Redis.scard
  rw [smembers_reserved]
  by_cases hfull : principal.concurrentLimit < (current.card : ℤ)
  · exact .inr ⟨hfull, if_pos hfull⟩
  · exact .inl ⟨by omega, if_neg hfull⟩

/-- The spend past a charge. -/
theorem recordSpend_floats (now : ℚ) (today : String) (principal : AgentPrincipal) (amount : ℚ)
    (r : Redis) :
    let key := budgetKey principal.quotaKey today
    (recordSpend now today principal amount r).floats
      = Function.update r.floats key
        (some ⟨(r.floats.get now key).getD 0 + amount, some (now + 86400 * 7)⟩) := by
  intro key
  unfold recordSpend Redis.expireFloat Redis.incrByFloat
  dsimp only
  rw [Expiring.expire_of_live Expiring.live_set_self]
  unfold Expiring.set
  rw [Function.update_idem]

end RedisQuota

/-! ## A caller for the fixed inputs -/

/-- A caller with the given environment and agent id. -/
def callerOf (owner : String × String) : AgentPrincipal :=
  { agentId := owner.2, environment := owner.1, tenantId := "", rateLimitRpm := 60,
    concurrentLimit := 4, dailyBudgetUsd := 1, defaultPolicyId := "balanced" }

/-- The caller has the owner's key. -/
@[simp]
theorem callerOf_quotaKey (owner : String × String) : (callerOf owner).quotaKey = owner := rfl

end ControlPlane
