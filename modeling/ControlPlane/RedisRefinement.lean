import ControlPlane.RedisKeys

/-!
# The Redis manager refines the in-memory one

`redis_refines_inMemory`: over any sequence of calls, each executing at the
instant its clock is read, the two managers give the same replies, as long as
agent ids contain no separator and no slot set reaches its deadline.

The simulation relation `Mirrors` says that each of the three Redis maps
represents its dictionary. What makes the deadlines harmless is in there:
a counter outlives every instant of its minute, a day's spend every instant
of its day, so a key that lapses is one nobody will ask for again.
-/

namespace ControlPlane

open Lib

/-- The clock a call executing at `now` reads. -/
def Calendar.clock (calendar : Calendar) (now : ℚ) : Clock :=
  { time := ⌊now⌋₊, today := calendar.isoformat now }

/-- One call, served from memory. -/
def InMemoryQuota.serve (calendar : Calendar) (q : InMemoryQuota) (call : QuotaCall) :
    InMemoryQuota × Reply :=
  match call.op with
  | .enforceRpm =>
    let served := enforceRpm (calendar.clock call.now) call.principal q
    (served.1, served.2.map fun _ => none)
  | .reserveConcurrency decisionId =>
    let served := reserveConcurrency call.principal decisionId q
    (served.1, served.2.map fun _ => none)
  | .releaseConcurrency decisionId =>
    (releaseConcurrency call.principal decisionId q, .ok none)
  | .currentDailySpend =>
    (q, .ok (some (currentDailySpend (calendar.clock call.now) call.principal q)))
  | .recordSpend amount =>
    (recordSpend (calendar.clock call.now) call.principal amount q, .ok none)

/-- Both managers cut time into the same minutes. -/
theorem Calendar.minuteKey_clock (calendar : Calendar) {now : ℚ} (h : 0 ≤ now) :
    ((calendar.clock now).minuteKey : ℤ) = minuteKey now := by
  unfold Clock.minuteKey minuteKey Calendar.clock
  dsimp only
  have hfloor := Nat.floor_div_natCast now 60
  rw [← Int.natCast_floor_eq_floor (by positivity : 0 ≤ now / 60)]
  exact_mod_cast hfloor.symm

/-! ## The relation -/

/-- Without a separator in the agent id the joined key can be taken apart. -/
theorem keyScope_inj {a b : String × String} (ha : ':' ∉ a.2.toList) (hb : ':' ∉ b.2.toList) :
    keyScope a = keyScope b ↔ a = b := by
  unfold keyScope
  rw [append_sep_inj ha hb, Prod.ext_iff]

/-- The key in Redis of a minute's counter. -/
def rpmKeyOf (key : String × String × ℕ) : String :=
  rpmKey (key.1, key.2.1) key.2.2

/-- The key in Redis of a day's budget. -/
def budgetKeyOf (key : String × String × String) : String :=
  budgetKey (key.1, key.2.1) key.2.2

/-- Each map represents its dictionary, and no entry lapses in its bucket. -/
structure Mirrors (calendar : Calendar) (q : InMemoryQuota) (r : Redis) : Prop where
  rpm : Expiring.Represents rpmKeyOf (fun key => ':' ∉ key.2.1.toList) 0
    (fun key deadline => ∀ now, minuteKey now = key.2.2 → now < deadline)
    r.counters fun key => (q.rpm key : ℤ)
  concurrent : Expiring.Represents concurrencyKey (fun owner => ':' ∉ owner.2.toList) ∅
    (fun _ _ => True) r.sets q.concurrent
  dailyBudget : Expiring.Represents budgetKeyOf
    (fun key => ':' ∉ key.2.1.toList ∧ ':' ∉ key.2.2.toList) 0
    (fun key deadline => ∀ now, calendar.isoformat now = key.2.2 → now < deadline)
    r.floats q.dailyBudget

/-- Nothing mirrors nothing. -/
theorem mirrors_empty (calendar : Calendar) : Mirrors calendar {} {} :=
  ⟨Expiring.Represents.empty, Expiring.Represents.empty, Expiring.Represents.empty⟩

/-- Without a colon in the agent's id the counters are apart. -/
theorem rpmKeyOf_inj (i j : String × String × ℕ) (hi : ':' ∉ i.2.1.toList)
    (hj : ':' ∉ j.2.1.toList) (h : rpmKeyOf i = rpmKeyOf j) : i = j := by
  obtain ⟨hscope, hminute⟩ := rpmKey_inj.mp h
  rw [keyScope_inj hi hj, Prod.ext_iff] at hscope
  exact Prod.ext hscope.1 (Prod.ext hscope.2 (by exact_mod_cast hminute))

/-- So are the slot sets. -/
theorem concurrencyKey_injOn (i j : String × String) (hi : ':' ∉ i.2.toList)
    (hj : ':' ∉ j.2.toList) (h : concurrencyKey i = concurrencyKey j) : i = j :=
  (keyScope_inj hi hj).mp (concurrencyKey_inj.mp h)

/-- And the budgets. -/
theorem budgetKeyOf_inj (i j : String × String × String)
    (hi : ':' ∉ i.2.1.toList ∧ ':' ∉ i.2.2.toList)
    (hj : ':' ∉ j.2.1.toList ∧ ':' ∉ j.2.2.toList) (h : budgetKeyOf i = budgetKeyOf j) :
    i = j := by
  obtain ⟨hscope, htoday⟩ := (budgetKey_inj hi.2 hj.2).mp h
  rw [keyScope_inj hi.1 hj.1, Prod.ext_iff] at hscope
  exact Prod.ext hscope.1 (Prod.ext hscope.2 htoday)

/-! ## One call -/

section Call

variable {settings : ValidSettings} {calendar : Calendar} {q : InMemoryQuota} {r : Redis}
  {now : ℚ} {principal : AgentPrincipal}

/-- The in-memory key of this minute's counter. -/
def rpmTuple (calendar : Calendar) (now : ℚ) (principal : AgentPrincipal) :
    String × String × ℕ :=
  (principal.environment, principal.agentId, (calendar.clock now).minuteKey)

/-- The counter of a call's minute. -/
theorem rpmKeyOf_rpmTuple (hnow : 0 ≤ now) :
    rpmKeyOf (rpmTuple calendar now principal) = rpmKey principal.quotaKey (minuteKey now) := by
  unfold rpmKeyOf rpmTuple
  rw [calendar.minuteKey_clock hnow]
  rfl

/-- The counter of this minute is the in-memory one. -/
theorem Mirrors.count (h : Mirrors calendar q r) (hid : ':' ∉ principal.agentId.toList)
    (hnow : 0 ≤ now) :
    (r.counters.get now (rpmKey principal.quotaKey (minuteKey now))).getD 0
      = q.rpm (rpmTuple calendar now principal) := by
  have hheld := h.rpm (rpmTuple calendar now principal) hid
  rw [rpmKeyOf_rpmTuple hnow] at hheld
  refine hheld.get ?_
  intro e _ hlasts deadline hdeadline
  exact hlasts deadline hdeadline now (calendar.minuteKey_clock hnow).symm

/-- A deadline a minute away is past the end of the minute. -/
theorem lt_of_minuteKey_eq {now now' : ℚ} (h : minuteKey now' = minuteKey now) :
    now' < now + 60 := by
  have hle := Int.floor_le (now / 60)
  have hlt := Int.lt_floor_add_one (now' / 60)
  unfold minuteKey at h
  rw [h] at hlt
  linarith

/-- `enforce_rpm` answers alike. -/
theorem Mirrors.enforceRpm (h : Mirrors calendar q r) (hid : ':' ∉ principal.agentId.toList)
    (hnow : 0 ≤ now) :
    (InMemoryQuota.enforceRpm (calendar.clock now) principal q).2
        = (RedisQuota.enforceRpm now principal r).2
      ∧ Mirrors calendar (InMemoryQuota.enforceRpm (calendar.clock now) principal q).1
        (RedisQuota.enforceRpm now principal r).1 := by
  have hcount := h.count hid hnow
  have hminute := calendar.minuteKey_clock hnow
  refine ⟨?_, ?_, ?_, ?_⟩
  · rw [RedisQuota.enforceRpm_reply, hcount]
    unfold InMemoryQuota.enforceRpm
    dsimp only
    push_cast
    rfl
  · -- The new count on both sides, under a deadline past the minute's end.
    have hdict : (fun key => ((InMemoryQuota.enforceRpm (calendar.clock now) principal q).1.rpm key
          : ℤ))
        = Function.update (fun key => (q.rpm key : ℤ)) (rpmTuple calendar now principal)
          (q.rpm (rpmTuple calendar now principal) + 1) := by
      have hcast := Function.comp_update (fun n : ℕ => (n : ℤ)) q.rpm
        (rpmTuple calendar now principal) (q.rpm (rpmTuple calendar now principal) + 1)
      push_cast at hcast
      exact hcast
    rw [RedisQuota.enforceRpm_counters, hcount, hdict, ← rpmKeyOf_rpmTuple hnow]
    refine h.rpm.update rpmKeyOf_inj hid ⟨rfl, ?_⟩
    intro deadline hdeadline now' hsame
    have hsame' : minuteKey now' = minuteKey now := hsame.trans hminute
    dsimp only at hdeadline
    split at hdeadline
    next =>
      obtain rfl := Option.some.inj hdeadline
      exact lt_of_minuteKey_eq hsame'
    next =>
      -- A counter that was there keeps its deadline.
      obtain ⟨e, hlive, hexpire⟩ := Option.bind_eq_some_iff.mp hdeadline
      have hheld := h.rpm (rpmTuple calendar now principal) hid
      rw [(Expiring.live_eq_some.mp hlive).1] at hheld
      exact hheld.2 deadline hexpire now' hsame
  · rw [RedisQuota.enforceRpm_sets]
    exact h.concurrent
  · rw [RedisQuota.enforceRpm_floats]
    exact h.dailyBudget

/-- No entry of a slot set is past its deadline. -/
def SlotsLive (r : Redis) (now : ℚ) : Prop :=
  ∀ key e, r.sets key = some e → e.Live now

/-- The members are the slots held in memory. -/
theorem Mirrors.smembers (h : Mirrors calendar q r) (hid : ':' ∉ principal.agentId.toList)
    (hlive : SlotsLive r now) :
    r.smembers now (concurrencyKey principal.quotaKey) = q.concurrent principal.quotaKey := by
  have hheld := h.concurrent principal.quotaKey hid
  exact hheld.get fun e hentry _ => hlive _ e hentry

/-- `reserve_concurrency` answers alike. -/
theorem Mirrors.reserveConcurrency (h : Mirrors calendar q r)
    (hid : ':' ∉ principal.agentId.toList) (hlive : SlotsLive r now) (decisionId : String) :
    (InMemoryQuota.reserveConcurrency principal decisionId q).2
        = (RedisQuota.reserveConcurrency settings now principal decisionId r).2
      ∧ Mirrors calendar (InMemoryQuota.reserveConcurrency principal decisionId q).1
        (RedisQuota.reserveConcurrency settings now principal decisionId r).1 := by
  have hmembers := h.smembers hid hlive
  have hcases := RedisQuota.reserveConcurrency_cases settings now principal decisionId r
  dsimp only at hcases
  rw [hmembers] at hcases
  unfold InMemoryQuota.reserveConcurrency
  dsimp only
  rcases hcases with ⟨hle, hres⟩ | ⟨hlt, hres⟩
  · rw [hres, if_neg (not_lt.mpr hle)]
    refine ⟨rfl, h.rpm, ?_, h.dailyBudget⟩
    refine h.concurrent.update concurrencyKey_injOn hid ⟨?_, fun _ _ => trivial⟩
    rw [hmembers]
  · rw [hres, if_pos hlt, Finset.erase_insert_eq_erase]
    refine ⟨rfl, h.rpm, ?_, h.dailyBudget⟩
    refine h.concurrent.update concurrencyKey_injOn hid ?_
    rw [hmembers]
    split
    next hempty => exact hempty
    next => exact ⟨rfl, fun _ _ => trivial⟩

/-- `release_concurrency` leaves alike. -/
theorem Mirrors.releaseConcurrency (h : Mirrors calendar q r)
    (hid : ':' ∉ principal.agentId.toList) (hlive : SlotsLive r now) (decisionId : String) :
    Mirrors calendar (InMemoryQuota.releaseConcurrency principal decisionId q)
      (RedisQuota.releaseConcurrency now principal decisionId r) := by
  have hmembers := h.smembers hid hlive
  refine ⟨h.rpm, ?_, h.dailyBudget⟩
  unfold RedisQuota.releaseConcurrency
  rw [Redis.srem_sets, hmembers]
  refine h.concurrent.update concurrencyKey_injOn hid ?_
  split
  next hempty => exact hempty
  next => exact ⟨rfl, fun _ _ => trivial⟩

/-- The day's spend is the in-memory one. -/
theorem Mirrors.spend (h : Mirrors calendar q r) (hid : ':' ∉ principal.agentId.toList) :
    (r.floats.get now (budgetKey principal.quotaKey (calendar.isoformat now))).getD 0
      = q.dailyBudget (principal.environment, principal.agentId, calendar.isoformat now) := by
  have hheld := h.dailyBudget (principal.environment, principal.agentId, calendar.isoformat now)
    ⟨hid, calendar.noSeparator now⟩
  refine hheld.get ?_
  intro e _ hlasts deadline hdeadline
  exact hlasts deadline hdeadline now rfl

/-- `record_spend` leaves alike. -/
theorem Mirrors.recordSpend (h : Mirrors calendar q r) (hid : ':' ∉ principal.agentId.toList)
    (amount : ℚ) :
    Mirrors calendar (InMemoryQuota.recordSpend (calendar.clock now) principal amount q)
      (RedisQuota.recordSpend now (calendar.isoformat now) principal amount r) := by
  have hentry : Expiring.Holds
      (some ⟨q.dailyBudget (principal.environment, principal.agentId, calendar.isoformat now)
        + amount, some (now + 86400 * 7)⟩) 0
      (q.dailyBudget (principal.environment, principal.agentId, calendar.isoformat now) + amount)
      fun deadline =>
        ∀ now', calendar.isoformat now' = calendar.isoformat now → now' < deadline := by
    refine ⟨rfl, ?_⟩
    intro deadline hdeadline now' hsame
    obtain rfl := Option.some.inj hdeadline
    exact calendar.sameDay now now' hsame.symm
  refine ⟨h.rpm, h.concurrent, ?_⟩
  rw [RedisQuota.recordSpend_floats, h.spend hid]
  exact h.dailyBudget.update budgetKeyOf_inj
    (i := (principal.environment, principal.agentId, calendar.isoformat now))
    ⟨hid, calendar.noSeparator now⟩ hentry

/-- **One call**: the same reply, and the managers stay in step. -/
theorem Mirrors.serve (settings : ValidSettings) (h : Mirrors calendar q r) {call : QuotaCall}
    (hid : ':' ∉ call.principal.agentId.toList) (hnow : 0 ≤ call.now)
    (hlive : SlotsLive r call.now) :
    (InMemoryQuota.serve calendar q call).2 = (RedisQuota.serve settings calendar r call).2
      ∧ Mirrors calendar (InMemoryQuota.serve calendar q call).1
        (RedisQuota.serve settings calendar r call).1 := by
  cases hop : call.op with
  | enforceRpm =>
    simp only [InMemoryQuota.serve, RedisQuota.serve, hop]
    obtain ⟨hreply, hnext⟩ := h.enforceRpm hid hnow
    exact ⟨congrArg _ hreply, hnext⟩
  | reserveConcurrency decisionId =>
    simp only [InMemoryQuota.serve, RedisQuota.serve, hop]
    obtain ⟨hreply, hnext⟩ := h.reserveConcurrency hid hlive decisionId
    exact ⟨congrArg _ hreply, hnext⟩
  | releaseConcurrency decisionId =>
    simp only [InMemoryQuota.serve, RedisQuota.serve, hop]
    exact ⟨trivial, h.releaseConcurrency hid hlive decisionId⟩
  | currentDailySpend =>
    simp only [InMemoryQuota.serve, RedisQuota.serve, hop]
    refine ⟨?_, h⟩
    unfold RedisQuota.currentDailySpend Redis.get
    rw [h.spend hid]
    rfl
  | recordSpend amount =>
    simp only [InMemoryQuota.serve, RedisQuota.serve, hop]
    exact ⟨trivial, h.recordSpend hid amount⟩

end Call

/-! ## The whole run -/

/-- At every call, no slot set has reached its deadline. -/
def SlotsOutlive (settings : ValidSettings) (calendar : Calendar) :
    Redis → List QuotaCall → Prop
  | _, [] => True
  | r, call :: calls =>
    SlotsLive r call.now
      ∧ SlotsOutlive settings calendar (RedisQuota.serve settings calendar r call).1 calls

section Lasting

variable {settings : ValidSettings} {calendar : Calendar} {r : Redis} {now final : ℚ}
  {key member : String}

/-- An added member has no deadline of its own. -/
theorem SlotsLive.sadd (h : SlotsLive r final) : SlotsLive (r.sadd now key member) final :=
  Expiring.AllLive.set h

/-- The new deadline is late enough. -/
theorem SlotsLive.expireSet (h : SlotsLive r final) {seconds : ℚ} (hlt : final < now + seconds) :
    SlotsLive (r.expireSet now key seconds) final :=
  Expiring.AllLive.expire h hlt

/-- A member less does not matter. -/
theorem SlotsLive.srem (h : SlotsLive r final) : SlotsLive (r.srem now key member) final := by
  unfold SlotsLive Redis.srem
  dsimp only
  split
  next => exact Expiring.AllLive.del h
  next => exact Expiring.AllLive.set h

/-- Sets that last to `final` still do after a call less than a lifetime
before. -/
theorem SlotsLive.serve (h : SlotsLive r final) {call : QuotaCall}
    (hafter : final < call.now + settings.slotTtl) :
    SlotsLive (RedisQuota.serve settings calendar r call).1 final := by
  unfold RedisQuota.serve
  cases call.op with
  | enforceRpm => exact (congrArg (Expiring.AllLive · final) (RedisQuota.enforceRpm_sets ..)).mpr h
  | reserveConcurrency decisionId =>
    unfold RedisQuota.reserveConcurrency
    dsimp only
    split
    next => exact (h.sadd.expireSet hafter).srem
    next => exact h.sadd.expireSet hafter
  | releaseConcurrency decisionId => exact h.srem
  | currentDailySpend => exact h
  | recordSpend amount => exact h

end Lasting

/-- A run shorter than a slot set's lifetime loses none. -/
theorem slotsOutlive_of_short {settings : ValidSettings} {calendar : Calendar} (final : ℚ) :
    ∀ {calls : List QuotaCall} {r : Redis}, SlotsLive r final →
      (∀ call ∈ calls, call.now ≤ final ∧ final < call.now + settings.slotTtl) →
      SlotsOutlive settings calendar r calls
  | [], _, _, _ => trivial
  | call :: calls, r, h, hshort => by
    obtain ⟨hle, hlt⟩ := hshort call List.mem_cons_self
    refine ⟨fun key e hentry => (h key e hentry).mono hle, ?_⟩
    exact slotsOutlive_of_short final (h.serve hlt) fun c hc => hshort c (List.mem_cons_of_mem _ hc)

/-- **The Redis manager refines the in-memory one**: over any sequence of
calls that finds no slot set past its deadline, the replies are the same. Of
the two owner fields only the agent id has to be free of separators, and the
clock need not be monotone. -/
theorem redis_refines_inMemory (settings : ValidSettings) (calendar : Calendar)
    (calls : List QuotaCall) (hid : ∀ call ∈ calls, ':' ∉ call.principal.agentId.toList)
    (hnow : ∀ call ∈ calls, 0 ≤ call.now) (houtlive : SlotsOutlive settings calendar {} calls) :
    replies (RedisQuota.serve settings calendar) {} calls
      = replies (InMemoryQuota.serve calendar) {} calls := by
  symm
  -- The invariant pairs the two states with what is asked of the calls to come.
  refine replies_eq (I := fun q r calls => Mirrors calendar q r
      ∧ (∀ call ∈ calls, ':' ∉ call.principal.agentId.toList)
      ∧ (∀ call ∈ calls, 0 ≤ call.now) ∧ SlotsOutlive settings calendar r calls) ?_
    ⟨mirrors_empty calendar, hid, hnow, houtlive⟩
  intro q r call calls hI
  obtain ⟨hmirrors, hids, hnows, hlive, hrest⟩ := hI
  obtain ⟨hreply, hnext⟩ := hmirrors.serve settings (hids call List.mem_cons_self)
    (hnows call List.mem_cons_self) hlive
  exact ⟨hreply, hnext, fun c hc => hids c (List.mem_cons_of_mem _ hc),
    fun c hc => hnows c (List.mem_cons_of_mem _ hc), hrest⟩

/-- Two agents of one environment over a minute and a half. -/
def sharedMinute : List QuotaCall :=
  [⟨0, callerOf ("lab", "agent-1"), .enforceRpm⟩,
    ⟨1 / 2, callerOf ("lab", "agent-1"), .reserveConcurrency "d1"⟩,
    ⟨59, callerOf ("lab", "agent-2"), .recordSpend (1 / 100)⟩,
    ⟨61, callerOf ("lab", "agent-1"), .enforceRpm⟩,
    ⟨90, callerOf ("lab", "agent-2"), .currentDailySpend⟩]

/-- Both managers answer the calls alike. -/
theorem redis_refines_inMemory_sharedMinute :
    replies (RedisQuota.serve {} epochCalendar) {} sharedMinute
      = replies (InMemoryQuota.serve epochCalendar) {} sharedMinute := by
  have hwithin : ∀ call ∈ sharedMinute, 0 ≤ call.now ∧ call.now ≤ 90 := by
    decide +kernel
  have hid : ∀ call ∈ sharedMinute, ':' ∉ call.principal.agentId.toList := by
    decide +kernel
  refine redis_refines_inMemory {} epochCalendar sharedMinute hid
    (fun call hcall => (hwithin call hcall).1)
    (slotsOutlive_of_short 90 ?_ ?_)
  · intro key e hentry
    cases hentry
  · intro call hcall
    obtain ⟨hge, hle⟩ := hwithin call hcall
    have httl : (90 : ℚ) < ({} : ValidSettings).slotTtl := by decide +kernel
    exact ⟨hle, by linarith⟩

end ControlPlane
