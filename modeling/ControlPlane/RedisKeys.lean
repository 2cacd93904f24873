import ControlPlane.Lib.Serving
import ControlPlane.Redis

/-!
# Whose keys a call touches

A call of either manager as one value, so that a run is a list of calls. A
call reads and writes three keys at most, those of its principal
(`serve_frame`, `serve_congr`), so whether one principal can be noticed by
another is a question about keys: `no_interference_iff`.

The in-memory manager keys its dictionaries by tuples. Here environment and
agent id are joined by a colon, which both may contain: two owners share
their keys exactly when the joined strings are the same, and then one spends
the other's budget (`colliding_owners`).
-/

namespace ControlPlane

open Lib

/-! ## Keys, compared -/

/-- Cut at the first separator. -/
theorem append_cons_inj {c : Char} :
    ∀ {x y z w : List Char}, c ∉ x → c ∉ y → (x ++ c :: z = y ++ c :: w ↔ x = y ∧ z = w)
  | [], [], z, w, _, _ => by simp
  | [], d :: y, z, w, _, hy => by
    have hne : c ≠ d := fun heq => hy (heq ▸ List.mem_cons_self)
    simp [hne]
  | d :: x, [], z, w, hx, _ => by
    have hne : d ≠ c := fun heq => hx (heq ▸ List.mem_cons_self)
    simp [hne]
  | d :: x, e :: y, z, w, hx, hy => by
    have ih := append_cons_inj (z := z) (w := w) (fun h => hx (List.mem_cons_of_mem _ h))
      (fun h => hy (List.mem_cons_of_mem _ h))
    rw [List.cons_append, List.cons_append, List.cons.injEq, List.cons.injEq, ih, and_assoc]

/-- Cut at the last separator. -/
theorem append_sep_inj {s t x y : String} (hx : ':' ∉ x.toList) (hy : ':' ∉ y.toList) :
    s ++ ":" ++ x = t ++ ":" ++ y ↔ s = t ∧ x = y := by
  constructor
  · intro heq
    have hlist := congrArg (fun string => string.toList.reverse) heq
    simp only [String.toList_append, List.reverse_append] at hlist
    have hcut : x.toList.reverse ++ ':' :: s.toList.reverse
        = y.toList.reverse ++ ':' :: t.toList.reverse := hlist
    rw [append_cons_inj (by simpa using hx) (by simpa using hy)] at hcut
    exact ⟨String.toList_inj.mp (List.reverse_injective hcut.2),
      String.toList_inj.mp (List.reverse_injective hcut.1)⟩
  · intro hparts
    rw [hparts.1, hparts.2]

/-- The digits of a number contain no separator. -/
theorem sep_notMem_toString (n : ℤ) : ':' ∉ (toString n).toList := by
  have hdigits : ∀ m : ℕ, ':' ∉ m.repr.toList := by
    intro m hmem
    rw [Nat.toList_repr] at hmem
    have hdigit := Nat.isDigit_of_mem_toDigits (by norm_num) (by norm_num) hmem
    simp at hdigit
  rw [Int.toString_eq_repr, Int.repr_eq_if]
  split
  next => exact hdigits _
  next =>
    rw [String.toList_append, List.mem_append]
    intro hmem
    rcases hmem with hsign | hdigit
    · simp at hsign
    · exact hdigits _ hdigit

section Keys

variable {a b : String × String}

/-- A minute's counters are shared where the scopes are. -/
theorem rpmKey_inj {minute minute' : ℤ} :
    rpmKey a minute = rpmKey b minute' ↔ keyScope a = keyScope b ∧ minute = minute' := by
  unfold rpmKey
  rw [append_sep_inj (sep_notMem_toString _) (sep_notMem_toString _), String.append_right_inj,
    Int.toString_eq_repr, Int.toString_eq_repr, Int.repr_inj]

/-- So are the slot sets. -/
theorem concurrencyKey_inj : concurrencyKey a = concurrencyKey b ↔ keyScope a = keyScope b := by
  unfold concurrencyKey
  exact String.append_right_inj _

/-- And a day's budgets. -/
theorem budgetKey_inj {today today' : String} (h : ':' ∉ today.toList)
    (h' : ':' ∉ today'.toList) :
    budgetKey a today = budgetKey b today' ↔ keyScope a = keyScope b ∧ today = today' := by
  unfold budgetKey
  rw [append_sep_inj h h', String.append_right_inj]

end Keys

/-! ## Calls -/

/-- `date.today().isoformat()` at each instant: a date contains no separator
and lasts a day, give or take the clock changes. -/
structure Calendar where
  isoformat : ℚ → String
  noSeparator : ∀ now, ':' ∉ (isoformat now).toList
  sameDay : ∀ now now', isoformat now = isoformat now' → now' < now + 86400 * 7

/-- What the service asks of the manager. -/
inductive QuotaOp
  | enforceRpm
  | reserveConcurrency (decisionId : String)
  | releaseConcurrency (decisionId : String)
  | currentDailySpend
  | recordSpend (amount : ℚ)
deriving DecidableEq

/-- A call of a quota manager, and when it executes. -/
structure QuotaCall where
  now : ℚ
  principal : AgentPrincipal
  op : QuotaOp
deriving DecidableEq

/-- What a call gives back: a spend, nothing, or an error. -/
abbrev Reply :=
  Except ServiceError (Option ℚ)

/-- One call, served. -/
def RedisQuota.serve (settings : ValidSettings) (calendar : Calendar) (r : Redis)
    (call : QuotaCall) : Redis × Reply :=
  match call.op with
  | .enforceRpm =>
    let served := enforceRpm call.now call.principal r
    (served.1, served.2.map fun _ => none)
  | .reserveConcurrency decisionId =>
    let served := reserveConcurrency settings call.now call.principal decisionId r
    (served.1, served.2.map fun _ => none)
  | .releaseConcurrency decisionId =>
    (releaseConcurrency call.now call.principal decisionId r, .ok none)
  | .currentDailySpend =>
    (r, .ok (some (currentDailySpend call.now (calendar.isoformat call.now) call.principal r)))
  | .recordSpend amount =>
    (recordSpend call.now (calendar.isoformat call.now) call.principal amount r, .ok none)

/-! ## A call and its keys -/

section Serve

variable (settings : ValidSettings) (calendar : Calendar) (call : QuotaCall)

/-- The two states hold the same under the keys of the call. -/
structure SameAt (r r' : Redis) : Prop where
  counter : r.counters (rpmKey call.principal.quotaKey (minuteKey call.now))
    = r'.counters (rpmKey call.principal.quotaKey (minuteKey call.now))
  set : r.sets (concurrencyKey call.principal.quotaKey)
    = r'.sets (concurrencyKey call.principal.quotaKey)
  float : r.floats (budgetKey call.principal.quotaKey (calendar.isoformat call.now))
    = r'.floats (budgetKey call.principal.quotaKey (calendar.isoformat call.now))

/-- The other keys are left alone. -/
structure SameElsewhere (r r' : Redis) : Prop where
  counters : ∀ key, key ≠ rpmKey call.principal.quotaKey (minuteKey call.now) →
    r'.counters key = r.counters key
  sets : ∀ key, key ≠ concurrencyKey call.principal.quotaKey → r'.sets key = r.sets key
  floats : ∀ key, key ≠ budgetKey call.principal.quotaKey (calendar.isoformat call.now) →
    r'.floats key = r.floats key

/-- **A call writes under its own keys only.** -/
theorem serve_frame (r : Redis) :
    SameElsewhere calendar call r (RedisQuota.serve settings calendar r call).1 := by
  cases hop : call.op with
  | enforceRpm =>
    simp only [RedisQuota.serve, hop]
    refine ⟨?_, ?_, ?_⟩
    · intro key hne
      rw [RedisQuota.enforceRpm_counters]
      exact Function.update_of_ne hne _ _
    · intro key _
      rw [RedisQuota.enforceRpm_sets]
    · intro key _
      rw [RedisQuota.enforceRpm_floats]
  | reserveConcurrency decisionId =>
    simp only [RedisQuota.serve, hop]
    rcases RedisQuota.reserveConcurrency_cases settings call.now call.principal decisionId r with
      ⟨-, hres⟩ | ⟨-, hres⟩ <;> rw [hres]
    · exact ⟨fun _ _ => rfl, fun _ hne => Function.update_of_ne hne _ _, fun _ _ => rfl⟩
    · exact ⟨fun _ _ => rfl, fun _ hne => Function.update_of_ne hne _ _, fun _ _ => rfl⟩
  | releaseConcurrency decisionId =>
    simp only [RedisQuota.serve, hop]
    refine ⟨fun _ _ => rfl, ?_, fun _ _ => rfl⟩
    intro key hne
    unfold RedisQuota.releaseConcurrency
    rw [Redis.srem_sets]
    exact Function.update_of_ne hne _ _
  | currentDailySpend =>
    simp only [RedisQuota.serve, hop]
    exact ⟨fun _ _ => rfl, fun _ _ => rfl, fun _ _ => rfl⟩
  | recordSpend amount =>
    simp only [RedisQuota.serve, hop]
    refine ⟨fun _ _ => rfl, fun _ _ => rfl, ?_⟩
    intro key hne
    rw [RedisQuota.recordSpend_floats]
    exact Function.update_of_ne hne _ _

/-- **A call reads its own keys only**: where two states hold the same under
them, the replies are the same, and so is what is left under them. -/
theorem serve_congr {r r' : Redis} (h : SameAt calendar call r r') :
    (RedisQuota.serve settings calendar r call).2 = (RedisQuota.serve settings calendar r' call).2
      ∧ SameAt calendar call (RedisQuota.serve settings calendar r call).1
        (RedisQuota.serve settings calendar r' call).1 := by
  obtain ⟨hcounter, hset, hfloat⟩ := h
  have hmembers : r.smembers call.now (concurrencyKey call.principal.quotaKey)
      = r'.smembers call.now (concurrencyKey call.principal.quotaKey) := by
    unfold Redis.smembers
    rw [Expiring.get_congr hset]
  cases hop : call.op with
  | enforceRpm =>
    have hcount : r.counters.get call.now _ = r'.counters.get call.now _ :=
      Expiring.get_congr hcounter
    have hlive : r.counters.live call.now _ = r'.counters.live call.now _ :=
      Expiring.live_congr hcounter
    simp only [RedisQuota.serve, hop]
    refine ⟨?_, ?_, ?_, ?_⟩
    · rw [RedisQuota.enforceRpm_reply, RedisQuota.enforceRpm_reply, hcount]
    · rw [RedisQuota.enforceRpm_counters, RedisQuota.enforceRpm_counters, Function.update_self,
        Function.update_self, hcount, hlive]
    · rw [RedisQuota.enforceRpm_sets, RedisQuota.enforceRpm_sets]
      exact hset
    · rw [RedisQuota.enforceRpm_floats, RedisQuota.enforceRpm_floats]
      exact hfloat
  | reserveConcurrency decisionId =>
    have hcases := RedisQuota.reserveConcurrency_cases settings call.now call.principal decisionId
    have hcard := hcases r
    have hcard' := hcases r'
    dsimp only at hcard hcard'
    rw [hmembers] at hcard
    simp only [RedisQuota.serve, hop]
    rcases hcard with ⟨hle, hres⟩ | ⟨hlt, hres⟩
    · obtain ⟨-, hres'⟩ := hcard'.resolve_right fun h => absurd h.1 (not_lt.mpr hle)
      rw [hres, hres']
      refine ⟨rfl, hcounter, ?_, hfloat⟩
      rw [RedisQuota.reserved_self, RedisQuota.reserved_self, hmembers]
    · obtain ⟨-, hres'⟩ := hcard'.resolve_left fun h => absurd hlt (not_lt.mpr h.1)
      rw [hres, hres']
      refine ⟨rfl, hcounter, ?_, hfloat⟩
      rw [RedisQuota.refused_self, RedisQuota.refused_self, hmembers]
  | releaseConcurrency decisionId =>
    simp only [RedisQuota.serve, hop]
    refine ⟨trivial, hcounter, ?_, hfloat⟩
    unfold RedisQuota.releaseConcurrency
    rw [Redis.srem_sets, Redis.srem_sets, Function.update_self, Function.update_self, hmembers,
      Expiring.live_congr hset]
  | currentDailySpend =>
    have hspend : r.floats.get call.now _ = r'.floats.get call.now _ := Expiring.get_congr hfloat
    simp only [RedisQuota.serve, hop, RedisQuota.currentDailySpend, Redis.get, hspend]
    exact ⟨trivial, hcounter, hset, hfloat⟩
  | recordSpend amount =>
    have hspend : r.floats.get call.now _ = r'.floats.get call.now _ := Expiring.get_congr hfloat
    simp only [RedisQuota.serve, hop]
    refine ⟨trivial, hcounter, hset, ?_⟩
    rw [RedisQuota.recordSpend_floats, RedisQuota.recordSpend_floats, Function.update_self,
      Function.update_self, hspend]

end Serve

/-! ## What a call does to a slot set -/

/-- The call tries to reserve `id` under `key`. -/
def QuotaCall.Attempts (call : QuotaCall) (key id : String) : Bool :=
  call.op = .reserveConcurrency id && concurrencyKey call.principal.quotaKey = key

/-- The call releases `id` under `key`. -/
def QuotaCall.Releases (call : QuotaCall) (key id : String) : Bool :=
  call.op = .releaseConcurrency id && concurrencyKey call.principal.quotaKey = key

section Sets

variable {settings : ValidSettings} {calendar : Calendar} {r : Redis} {call : QuotaCall}
  {key id : String}

/-- A call attempts one id. -/
theorem attempts_inj {id' : String} (h : call.Attempts key id = true)
    (h' : call.Attempts key id' = true) : id = id' := by
  unfold QuotaCall.Attempts at h h'
  simp only [Bool.and_eq_true, decide_eq_true_eq] at h h'
  exact QuotaOp.reserveConcurrency.inj (h.1.symm.trans h'.1)

/-- So it attempts no other. -/
theorem attempts_of_ne {id' : String} (h : call.Attempts key id' = true) (hne : id ≠ id') :
    call.Attempts key id = false := by
  by_contra hown
  exact hne (attempts_inj (by simpa using hown) h)

/-- An attempt releases nothing. -/
theorem not_releases_of_attempts {id' : String} (h : call.Attempts key id' = true) :
    call.Releases key id = false := by
  unfold QuotaCall.Attempts at h
  simp only [Bool.and_eq_true, decide_eq_true_eq] at h
  simp [QuotaCall.Releases, h.1]

/-- A release is of one id. -/
theorem releases_of_ne {id' : String} (h : call.Releases key id' = true) (hne : id ≠ id') :
    call.Releases key id = false := by
  by_contra hown
  unfold QuotaCall.Releases at hown h
  simp only [Bool.and_eq_true, decide_eq_true_eq, Bool.not_eq_false] at hown h
  exact hne (QuotaOp.releaseConcurrency.inj (hown.1.symm.trans h.1))

/-- The set of `key` after a call: not touched, tried to reserve from, or
released from. -/
theorem serve_sets_cases (settings : ValidSettings) (calendar : Calendar) (r : Redis)
    (call : QuotaCall) (key : String) :
    let members := r.smembers call.now key
    let sets' := (RedisQuota.serve settings calendar r call).1.sets key
    (sets' = r.sets key ∧ ∀ id, call.Attempts key id = false ∧ call.Releases key id = false)
    ∨ (∃ id, call.Attempts key id = true
      ∧ (sets' = some ⟨insert id members, some (call.now + settings.slotTtl)⟩
        ∨ sets' = if members.erase id = ∅ then none
            else some ⟨members.erase id, some (call.now + settings.slotTtl)⟩))
    ∨ ∃ id, call.Releases key id = true ∧ (∀ id', call.Attempts key id' = false)
      ∧ sets' = if members.erase id = ∅ then none
          else some ⟨members.erase id, (r.sets.live call.now key).bind (·.expireAt)⟩ := by
  intro members sets'
  by_cases hkey : concurrencyKey call.principal.quotaKey = key
  · subst hkey
    cases hop : call.op with
    | reserveConcurrency id =>
      refine .inr (.inl ⟨id, by simp [QuotaCall.Attempts, hop], ?_⟩)
      simp only [sets', RedisQuota.serve, hop]
      rcases RedisQuota.reserveConcurrency_cases settings call.now call.principal id r with
        ⟨-, hres⟩ | ⟨-, hres⟩ <;> rw [hres]
      · exact .inl (RedisQuota.reserved_self settings call.now _ id r)
      · exact .inr (RedisQuota.refused_self settings call.now _ id r)
    | releaseConcurrency id =>
      refine .inr (.inr ⟨id, by simp [QuotaCall.Releases, hop],
        by simp [QuotaCall.Attempts, hop], ?_⟩)
      simp only [sets', RedisQuota.serve, hop]
      unfold RedisQuota.releaseConcurrency
      rw [Redis.srem_sets, Function.update_self]
    | enforceRpm =>
      refine .inl ⟨?_, by simp [QuotaCall.Attempts, QuotaCall.Releases, hop]⟩
      simp only [sets', RedisQuota.serve, hop]
      rw [RedisQuota.enforceRpm_sets]
    | currentDailySpend =>
      refine .inl ⟨?_, by simp [QuotaCall.Attempts, QuotaCall.Releases, hop]⟩
      simp only [sets', RedisQuota.serve, hop]
    | recordSpend amount =>
      refine .inl ⟨?_, by simp [QuotaCall.Attempts, QuotaCall.Releases, hop]⟩
      simp only [sets', RedisQuota.serve, hop]
      rfl
  · refine .inl ⟨(serve_frame settings calendar call r).sets key (Ne.symm hkey), ?_⟩
    intro id
    simp [QuotaCall.Attempts, QuotaCall.Releases, hkey]

end Sets

/-- UTC, spelled out for the first day of the epoch; the others go by number. -/
def epochDay (day : ℤ) : String :=
  if day = 0 then "1970-01-01" else "day " ++ toString day

/-- No two days share a name. -/
theorem epochDay_inj {day day' : ℤ} (h : epochDay day = epochDay day') : day = day' := by
  have hfirst : ∀ n : ℤ, "day " ++ toString n ≠ "1970-01-01" := by
    intro n heq
    have hlist := congrArg (fun string => string.toList.head?) heq
    simp [String.toList_append] at hlist
  unfold epochDay at h
  split at h
  next hzero =>
    split at h
    next hzero' => rw [hzero, hzero']
    next => exact absurd h.symm (hfirst _)
  next =>
    split at h
    next => exact absurd h (hfirst _)
    next =>
      rw [String.append_right_inj, Int.toString_eq_repr, Int.toString_eq_repr] at h
      exact Int.repr_inj.mp h

/-- The days since the epoch. -/
def epochCalendar : Calendar where
  isoformat now := epochDay ⌊now / 86400⌋
  noSeparator now := by
    unfold epochDay
    split
    next => decide
    next =>
      rw [String.toList_append, List.mem_append]
      intro hmem
      rcases hmem with hword | hdigit
      · simp at hword
      · exact sep_notMem_toString _ hdigit
  sameDay now now' h := by
    have hle := Int.floor_le (now / 86400)
    have hlt := Int.lt_floor_add_one (now' / 86400)
    rw [← epochDay_inj h] at hlt
    linarith

/-! ## What one principal notices of another -/

section Interference

variable (settings : ValidSettings) (calendar : Calendar) (owner watched : String × String)

/-- The calls `watched` makes, with their replies. -/
def answersTo (r : Redis) (calls : List QuotaCall) : List (QuotaCall × Reply) :=
  (replies (RedisQuota.serve settings calendar) r calls).filter fun reply =>
    decide (reply.1.principal.quotaKey = watched)

/-- Leaving out everything `owner` does changes no reply to `watched`,
whatever the store holds and whoever else is calling. -/
def NonInterfering : Prop :=
  ∀ (r : Redis) (calls : List QuotaCall),
    answersTo settings calendar watched r calls
      = answersTo settings calendar watched r
          (calls.filter fun call => decide (call.principal.quotaKey ≠ owner))

/-- No key of one is a key of the other, in any time bucket. -/
def KeysApart : Prop :=
  concurrencyKey owner ≠ concurrencyKey watched
  ∧ (∀ minute minute', rpmKey owner minute ≠ rpmKey watched minute')
  ∧ ∀ now now', budgetKey owner (calendar.isoformat now)
      ≠ budgetKey watched (calendar.isoformat now')

/-- The two states hold the same under every key of the scope. -/
def SeesSame (scope : String) (r r' : Redis) : Prop :=
  ∀ call : QuotaCall, keyScope call.principal.quotaKey = scope → SameAt calendar call r r'

variable {settings calendar owner watched}

/-- A call in another scope is not seen. -/
theorem SeesSame.left {scope : String} {r r' : Redis} {call : QuotaCall}
    (h : SeesSame calendar scope r r') (hscope : keyScope call.principal.quotaKey ≠ scope) :
    SeesSame calendar scope (RedisQuota.serve settings calendar r call).1 r' := by
  intro seen hseen
  obtain ⟨hcounters, hsets, hfloats⟩ := serve_frame settings calendar call r
  obtain ⟨hcounter, hset, hfloat⟩ := h seen hseen
  have hapart : keyScope seen.principal.quotaKey ≠ keyScope call.principal.quotaKey := by
    rw [hseen]
    exact hscope.symm
  have hday := calendar.noSeparator
  refine ⟨?_, ?_, ?_⟩
  · rw [hcounters _ fun heq => hapart (rpmKey_inj.mp heq).1, hcounter]
  · rw [hsets _ fun heq => hapart (concurrencyKey_inj.mp heq), hset]
  · rw [hfloats _ fun heq => hapart ((budgetKey_inj (hday _) (hday _)).mp heq).1, hfloat]

/-- Both sides see the same. -/
theorem SeesSame.symm {scope : String} {r r' : Redis} (h : SeesSame calendar scope r r') :
    SeesSame calendar scope r' r := by
  intro seen hseen
  obtain ⟨hcounter, hset, hfloat⟩ := h seen hseen
  exact ⟨hcounter.symm, hset.symm, hfloat.symm⟩

/-- A call made on both sides leaves the same on both. -/
theorem SeesSame.both {scope : String} {r r' : Redis} {call : QuotaCall}
    (h : SeesSame calendar scope r r') :
    SeesSame calendar scope (RedisQuota.serve settings calendar r call).1
      (RedisQuota.serve settings calendar r' call).1 := by
  by_cases hscope : keyScope call.principal.quotaKey = scope
  · intro seen hseen
    have hframe := serve_frame settings calendar call r
    have hframe' := serve_frame settings calendar call r'
    have hown := (serve_congr settings calendar call (h call hscope)).2
    obtain ⟨hcounter, hset, hfloat⟩ := h seen hseen
    -- Under the call's own keys by what it writes, elsewhere by the frame.
    refine ⟨?_, ?_, ?_⟩
    · by_cases heq : rpmKey seen.principal.quotaKey (minuteKey seen.now)
          = rpmKey call.principal.quotaKey (minuteKey call.now)
      · rw [heq]
        exact hown.counter
      · rw [hframe.counters _ heq, hframe'.counters _ heq, hcounter]
    · by_cases heq : concurrencyKey seen.principal.quotaKey
          = concurrencyKey call.principal.quotaKey
      · rw [heq]
        exact hown.set
      · rw [hframe.sets _ heq, hframe'.sets _ heq, hset]
    · by_cases heq : budgetKey seen.principal.quotaKey (calendar.isoformat seen.now)
          = budgetKey call.principal.quotaKey (calendar.isoformat call.now)
      · rw [heq]
        exact hown.float
      · rw [hframe.floats _ heq, hframe'.floats _ heq, hfloat]
  · exact (h.left hscope).symm.left hscope |>.symm

/-- Apart by scope, the owners do not interfere. -/
theorem nonInterfering_of_keyScope_ne (h : keyScope owner ≠ keyScope watched) :
    NonInterfering settings calendar owner watched := by
  intro r calls
  refine replies_filter (fun call : QuotaCall => decide (call.principal.quotaKey ≠ owner))
    (fun call : QuotaCall => decide (call.principal.quotaKey = watched))
    (SeesSame calendar (keyScope watched)) ?_ ?_ ?_ ?_ ?_
  · intro call hwatched
    rw [decide_eq_true_eq] at hwatched ⊢
    rw [hwatched]
    exact fun heq => h (congrArg keyScope heq.symm)
  · intro r r' call hleft hE
    have howner : call.principal.quotaKey = owner := by simpa using hleft
    exact hE.left (howner ▸ h)
  · intro r r' call _ hE
    exact hE.both
  · intro r r' call hwatched hE
    rw [decide_eq_true_eq] at hwatched
    exact (serve_congr settings calendar call (hE call (congrArg keyScope hwatched))).1
  · exact fun _ _ => ⟨rfl, rfl, rfl⟩

/-- One dollar recorded by `owner`, and the spend `watched` then reads. -/
def spendThenRead (owner watched : String × String) : List QuotaCall :=
  [⟨0, callerOf owner, .recordSpend 1⟩, ⟨0, callerOf watched, .currentDailySpend⟩]

/-- Under shared keys the dollar is read back. -/
theorem currentDailySpend_of_keyScope_eq (settings : ValidSettings) (calendar : Calendar)
    (h : keyScope owner = keyScope watched) :
    (RedisQuota.serve settings calendar
        (RedisQuota.serve settings calendar {} ⟨0, callerOf owner, .recordSpend 1⟩).1
        ⟨0, callerOf watched, .currentDailySpend⟩).2 = .ok (some 1) := by
  have hkey : budgetKey (callerOf watched).quotaKey (calendar.isoformat 0)
      = budgetKey (callerOf owner).quotaKey (calendar.isoformat 0) := by
    rw [budgetKey_inj (calendar.noSeparator _) (calendar.noSeparator _)]
    exact ⟨h.symm, rfl⟩
  have hfloats := RedisQuota.recordSpend_floats 0 (calendar.isoformat 0) (callerOf owner) 1 {}
  have hlive : (⟨0 + 1, some (0 + 86400 * 7)⟩ : Entry ℚ ℚ).Live 0 := by
    intro deadline hdeadline
    obtain rfl := Option.some.inj hdeadline
    norm_num
  simp only [RedisQuota.serve, RedisQuota.currentDailySpend, Redis.get]
  rw [hkey, Expiring.get_of_live (by rw [hfloats]; exact Function.update_self _ _ _) hlive]
  norm_num

/-- Owners with one key scope interfere, from an empty store on. -/
theorem interferes_of_keyScope_eq (h : keyScope owner = keyScope watched) :
    ¬NonInterfering settings calendar owner watched := by
  intro hnone
  have hread := currentDailySpend_of_keyScope_eq settings calendar h
  have hmem : (⟨⟨0, callerOf watched, .currentDailySpend⟩, .ok (some 1)⟩ : QuotaCall × Reply)
      ∈ answersTo settings calendar watched {} (spendThenRead owner watched) := by
    refine List.mem_filter.mpr ⟨?_, decide_eq_true rfl⟩
    simp only [spendThenRead, replies, hread]
    exact List.mem_cons_of_mem _ List.mem_cons_self
  rw [hnone {} (spendThenRead owner watched)] at hmem
  -- Without the recording the same read finds nothing.
  have hreplied := (List.mem_filter.mp hmem).1
  by_cases hself : watched = owner
  · simp [spendThenRead, hself, replies] at hreplied
  · have hempty : Redis.get 0 (budgetKey watched (calendar.isoformat 0)) {} = none := rfl
    simp [spendThenRead, hself, replies, RedisQuota.serve, RedisQuota.currentDailySpend,
      hempty] at hreplied

/-- **The exact condition for keys not to collide**: two owners are apart,
and cannot notice each other, exactly when environment and agent id joined by
a colon differ. -/
theorem no_interference_iff (settings : ValidSettings) (calendar : Calendar)
    (owner watched : String × String) :
    (NonInterfering settings calendar owner watched ↔ keyScope owner ≠ keyScope watched)
    ∧ (KeysApart calendar owner watched ↔ keyScope owner ≠ keyScope watched) := by
  refine ⟨⟨?_, nonInterfering_of_keyScope_ne⟩, ?_, ?_⟩
  · intro hnone heq
    exact interferes_of_keyScope_eq heq hnone
  · intro hapart heq
    exact hapart.1 (concurrencyKey_inj.mpr heq)
  · intro hne
    have hday := calendar.noSeparator
    exact ⟨fun heq => hne (concurrencyKey_inj.mp heq), fun _ _ heq => hne (rpmKey_inj.mp heq).1,
      fun _ _ heq => hne ((budgetKey_inj (hday _) (hday _)).mp heq).1⟩

/-- Tuples that differ, keys that do not: an environment that ends where an
agent id begins. -/
theorem colliding_owners :
    ¬ ∀ (settings : ValidSettings) (calendar : Calendar) (owner watched : String × String),
      owner ≠ watched →
        NonInterfering settings calendar owner watched ∧ KeysApart calendar owner watched := by
  intro hall
  have happly := hall {} epochCalendar ("lab", "probe:nightly") ("lab:probe", "nightly")
    (by decide)
  exact interferes_of_keyScope_eq (by decide) happly.1

end Interference

end ControlPlane
