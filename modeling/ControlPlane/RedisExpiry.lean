import ControlPlane.RedisSlots
import ControlPlane.RedisKeys

/-!
# How long a slot lasts

`EXPIRE` gives a slot set `DECISION_TTL_SECONDS * 6` seconds, meant as the
longest a decision may stay open. But the deadline is the set's, and every
reservation attempt, refused ones too, moves it for all ids in it
(`lastMoved_of_run`). An agent that keeps asking keeps its abandoned slots.

`slots_age_out_iff` says when slots do age out: whenever an attempt finds an
older id in the set, that id is released, or reserved anew, within its own
time, or the run ends by then.

A call executes at one instant here, and instants do not go back.
-/

namespace ControlPlane

open Lib

/-- When `id` was last tried to be reserved under `key`. -/
def reservedAt (key id : String) (calls : List QuotaCall) : Option ℚ :=
  ((calls.filter fun call => call.Attempts key id).getLast?).map (·.now)

section History

variable {pre : List QuotaCall} {call : QuotaCall} {key id : String}

/-- The last attempt is the one that counts. -/
theorem reservedAt_concat_of_attempts (h : call.Attempts key id = true) :
    reservedAt key id (pre ++ [call]) = some call.now := by
  unfold reservedAt
  rw [List.filter_append, List.filter_cons_of_pos (by simpa using h), List.filter_nil,
    List.getLast?_concat]
  rfl

/-- Other calls do not count. -/
theorem reservedAt_concat_of_not (h : call.Attempts key id = false) :
    reservedAt key id (pre ++ [call]) = reservedAt key id pre := by
  unfold reservedAt
  rw [List.filter_append, List.filter_cons_of_neg (by simp [h]), List.filter_nil,
    List.append_nil]

/-- However many they are. -/
theorem reservedAt_append_of_not {calls : List QuotaCall}
    (h : ∀ call ∈ calls, call.Attempts key id = false) :
    reservedAt key id (pre ++ calls) = reservedAt key id pre := by
  have hnone : calls.filter (fun call => call.Attempts key id) = [] := by
    refine List.filter_eq_nil_iff.mpr ?_
    intro call hcall
    simp [h call hcall]
  unfold reservedAt
  rw [List.filter_append, hnone, List.append_nil]

/-- The time is that of an attempt. -/
theorem exists_of_reservedAt {s : ℚ} (h : reservedAt key id pre = some s) :
    ∃ call ∈ pre, call.Attempts key id = true ∧ call.now = s := by
  unfold reservedAt at h
  obtain ⟨call, hlast, hnow⟩ := Option.map_eq_some_iff.mp h
  obtain ⟨hmem, hattempts⟩ := List.mem_filter.mp (List.mem_of_getLast? hlast)
  exact ⟨call, hmem, hattempts, hnow⟩

end History

/-! ## Where a deadline comes from -/

section Run

variable {settings : ValidSettings} {calendar : Calendar} {key id : String}

/-- The store after these calls, from an empty one. -/
def redisAfter (settings : ValidSettings) (calendar : Calendar) (calls : List QuotaCall) : Redis :=
  serveAll (RedisQuota.serve settings calendar) {} calls

/-- The deadline of an id held was set by an attempt, for it or one that
found it in the set, and after which nobody tried for it or released it. -/
def LastMoved (settings : ValidSettings) (calendar : Calendar) (key id : String)
    (calls : List QuotaCall) (deadline : Option ℚ) : Prop :=
  ∃ pre call suf id', calls = pre ++ call :: suf ∧ call.Attempts key id' = true
    ∧ deadline = some (call.now + settings.slotTtl)
    ∧ (id ≠ id' → id ∈ (redisAfter settings calendar pre).smembers call.now key)
    ∧ ∀ later ∈ suf, later.Attempts key id = false ∧ later.Releases key id = false

/-- A call that neither tries for the id nor releases it keeps its deadline's
origin. -/
theorem LastMoved.concat {calls : List QuotaCall} {call : QuotaCall} {deadline : Option ℚ}
    (h : LastMoved settings calendar key id calls deadline)
    (hnot : call.Attempts key id = false ∧ call.Releases key id = false) :
    LastMoved settings calendar key id (calls ++ [call]) deadline := by
  obtain ⟨pre, mover, suf, id', rfl, hattempts, hdeadline, hfound, hlater⟩ := h
  refine ⟨pre, mover, suf ++ [call], id', by simp, hattempts, hdeadline, hfound, ?_⟩
  intro later hmem
  rcases List.mem_append.mp hmem with hmem | hmem
  · exact hlater later hmem
  · obtain rfl := List.mem_singleton.mp hmem
    exact hnot

/-- **Every deadline has such an origin**, whatever calls were made. -/
theorem lastMoved_of_run (calls : List QuotaCall) :
    ∀ e, (redisAfter settings calendar calls).sets key = some e → id ∈ e.value →
      LastMoved settings calendar key id calls e.expireAt := by
  induction calls using List.reverseRecOn with
  | nil =>
    intro e hentry
    cases hentry
  | append_singleton calls call ih =>
    intro e hentry hid
    unfold redisAfter at hentry
    rw [serveAll_concat] at hentry
    rcases serve_sets_cases settings calendar (redisAfter settings calendar calls) call key with
      ⟨hsame, hnot⟩ | ⟨id', hattempts, hset⟩ | ⟨id', hreleases, hattempts, hset⟩
    · exact (ih e (hsame.symm.trans hentry) hid).concat (hnot id)
    · have hboth : e.expireAt = some (call.now + settings.slotTtl)
          ∧ (id ≠ id' → id ∈ (redisAfter settings calendar calls).smembers call.now key) := by
        rcases hset with hset | hset
        · obtain rfl := Option.some.inj (hset.symm.trans hentry)
          exact ⟨rfl, fun hne => (Finset.mem_insert.mp hid).resolve_left hne⟩
        · have hrest := hset.symm.trans hentry
          split at hrest
          next => cases hrest
          next =>
            obtain rfl := Option.some.inj hrest
            exact ⟨rfl, fun _ => Finset.mem_of_mem_erase hid⟩
      exact ⟨calls, call, [], id', rfl, hattempts, hboth.1, hboth.2, by simp⟩
    · have hrest := hset.symm.trans hentry
      split at hrest
      next => cases hrest
      next =>
        -- The others keep the deadline they had.
        obtain rfl := Option.some.inj hrest
        obtain ⟨hne, hmem⟩ := Finset.mem_erase.mp hid
        obtain ⟨old, hold, hlive, hmem⟩ := Redis.mem_smembers.mp hmem
        show LastMoved settings calendar key id (calls ++ [call])
          (((redisAfter settings calendar calls).sets.live call.now key).bind (·.expireAt))
        rw [Expiring.live_eq_some.mpr ⟨hold, hlive⟩]
        exact (ih old hold hmem).concat ⟨hattempts id, releases_of_ne hreleases hne⟩

/-- The id is held, with a deadline no earlier than `lasts`. -/
def HeldUntil (key id : String) (lasts : ℚ) (r : Redis) : Prop :=
  ∃ e, r.sets key = some e ∧ id ∈ e.value
    ∧ ∃ deadline, e.expireAt = some deadline ∧ lasts ≤ deadline

/-- Until then the id is a member. -/
theorem HeldUntil.mem_smembers {lasts now : ℚ} {r : Redis} (h : HeldUntil key id lasts r)
    (hnow : now < lasts) : id ∈ r.smembers now key := by
  obtain ⟨e, hentry, hid, deadline, hdeadline, hle⟩ := h
  refine Redis.mem_smembers.mpr ⟨e, hentry, ?_, hid⟩
  intro d hd
  obtain rfl := Option.some.inj (hdeadline.symm.trans hd)
  exact lt_of_lt_of_le hnow hle

/-- An attempt for another id moves the deadline of what it finds. -/
theorem heldUntil_of_attempt {r : Redis} {call : QuotaCall} {id' : String}
    (hattempts : call.Attempts key id' = true) (hne : id ≠ id')
    (hid : id ∈ r.smembers call.now key) :
    HeldUntil key id (call.now + settings.slotTtl)
      (RedisQuota.serve settings calendar r call).1 := by
  rcases serve_sets_cases settings calendar r call key with
    ⟨-, hnot⟩ | ⟨id'', hattempts', hset⟩ | ⟨id'', -, hnot, -⟩
  · rw [(hnot id').1] at hattempts
    cases hattempts
  · obtain rfl := attempts_inj hattempts hattempts'
    rcases hset with hset | hset
    · exact ⟨_, hset, Finset.mem_insert_of_mem hid, _, rfl, le_refl _⟩
    · have hrest : id ∈ (r.smembers call.now key).erase id' := Finset.mem_erase.mpr ⟨hne, hid⟩
      rw [if_neg (Finset.ne_empty_of_mem hrest)] at hset
      exact ⟨_, hset, hrest, _, rfl, le_refl _⟩
  · rw [hnot id'] at hattempts
    cases hattempts

/-- What is held stays so while nobody tries for it or releases it. -/
theorem HeldUntil.serve {lasts : ℚ} {r : Redis} {call : QuotaCall} (h : HeldUntil key id lasts r)
    (hlater : lasts ≤ call.now + settings.slotTtl) (hnow : call.now < lasts)
    (hnot : call.Attempts key id = false ∧ call.Releases key id = false) :
    HeldUntil key id lasts (RedisQuota.serve settings calendar r call).1 := by
  have hid := h.mem_smembers hnow
  rcases serve_sets_cases settings calendar r call key with
    ⟨hsame, -⟩ | ⟨id', hattempts, -⟩ | ⟨id', hreleases, -, hset⟩
  · obtain ⟨e, hentry, hheld⟩ := h
    exact ⟨e, hsame.trans hentry, hheld⟩
  · have hne : id ≠ id' := by
      intro heq
      rw [heq, hattempts] at hnot
      cases hnot.1
    have hafter : HeldUntil key id (call.now + settings.slotTtl)
        (RedisQuota.serve settings calendar r call).1 := heldUntil_of_attempt hattempts hne hid
    obtain ⟨e, hentry, hheld, deadline, hdeadline, hle⟩ := hafter
    exact ⟨e, hentry, hheld, deadline, hdeadline, hlater.trans hle⟩
  · have hne : id ≠ id' := by
      intro heq
      rw [heq, hreleases] at hnot
      cases hnot.2
    have hrest : id ∈ (r.smembers call.now key).erase id' := Finset.mem_erase.mpr ⟨hne, hid⟩
    rw [if_neg (Finset.ne_empty_of_mem hrest)] at hset
    obtain ⟨e, hentry, -, deadline, hdeadline, hle⟩ := h
    have hlive : e.Live call.now := by
      intro d hd
      obtain rfl := Option.some.inj (hdeadline.symm.trans hd)
      exact lt_of_lt_of_le hnow hle
    rw [Expiring.live_eq_some.mpr ⟨hentry, hlive⟩] at hset
    exact ⟨_, hset, hrest, deadline, hdeadline, hle⟩

/-- **Calls that keep away from the id leave it there.** -/
theorem HeldUntil.serveAll {lasts : ℚ} {r : Redis} {calls : List QuotaCall}
    (h : HeldUntil key id lasts r)
    (hcalls : ∀ call ∈ calls, lasts ≤ call.now + settings.slotTtl ∧ call.now < lasts
      ∧ call.Attempts key id = false ∧ call.Releases key id = false) :
    HeldUntil key id lasts (Lib.serveAll (RedisQuota.serve settings calendar) r calls) := by
  induction calls using List.reverseRecOn with
  | nil => exact h
  | append_singleton calls call ih =>
    rw [serveAll_concat]
    obtain ⟨hlater, hnow, hnot⟩ := hcalls call (by simp)
    exact (ih fun call hmem => hcalls call (List.mem_append_left _ hmem)).serve hlater hnow hnot

end Run

/-! ## Ageing out -/

/-- At every instant of the run up to `final`, whatever is in a slot set was
last tried to be reserved no longer ago than a slot lasts. -/
def AgesOut (settings : ValidSettings) (calendar : Calendar) (calls : List QuotaCall)
    (final : ℚ) : Prop :=
  ∀ pre suf now, calls = pre ++ suf → (∀ call ∈ pre, call.now ≤ now) →
    (∀ call ∈ suf, now ≤ call.now) → now ≤ final →
    ∀ key id s, id ∈ (redisAfter settings calendar pre).smembers now key →
      reservedAt key id pre = some s → now ≤ s + settings.slotTtl

/-- Whenever an attempt finds an id in the set that is older than itself, the
id is released or tried for anew within its own time, from that attempt on,
or the run ends by then. -/
def Timely (settings : ValidSettings) (calendar : Calendar) (calls : List QuotaCall)
    (final : ℚ) : Prop :=
  ∀ pre call suf key id' id s, calls = pre ++ call :: suf → call.Attempts key id' = true →
    id ∈ (redisAfter settings calendar pre).smembers call.now key →
    reservedAt key id pre = some s → s < call.now →
      final ≤ s + settings.slotTtl
      ∨ ∃ later ∈ call :: suf, later.now ≤ s + settings.slotTtl
        ∧ (later.Attempts key id = true ∨ later.Releases key id = true)

section Ages

variable {settings : ValidSettings} {calendar : Calendar} {calls : List QuotaCall} {final : ℚ}

/-- Under the condition every slot ages out. -/
theorem agesOut_of_timely (htimely : Timely settings calendar calls final) :
    AgesOut settings calendar calls final := by
  intro pre suf now hcalls hpre hsuf hfinal key id s hid hreserved
  by_contra hlate
  have hlate : s + settings.slotTtl < now := not_le.mp hlate
  obtain ⟨e, hentry, hlive, hheld⟩ := Redis.mem_smembers.mp hid
  obtain ⟨before, mover, after, id', rfl, hattempts, hdeadline, hfound, hafter⟩ :=
    lastMoved_of_run pre e hentry hheld
  have hlt := hlive _ hdeadline
  have hafter' : ∀ call ∈ after, call.Attempts key id = false :=
    fun call hcall => (hafter call hcall).1
  rw [List.append_cons, reservedAt_append_of_not hafter'] at hreserved
  by_cases heq : id = id'
  · -- Reserved by that very call, so its deadline is its own time.
    rw [heq, reservedAt_concat_of_attempts hattempts] at hreserved
    obtain rfl := Option.some.inj hreserved
    linarith
  · have hnot := attempts_of_ne hattempts heq
    rw [reservedAt_concat_of_not hnot] at hreserved
    rcases htimely before mover (after ++ suf) key id' id s (by simp [hcalls]) hattempts
      (hfound heq) hreserved (by linarith) with hended | ⟨later, hmem, hsoon, hgone⟩
    · linarith
    · -- Whoever took it out did so before now, so after the deadline was set.
      rcases List.mem_cons.mp hmem with rfl | hmem
      · rw [hnot, not_releases_of_attempts hattempts] at hgone
        simp at hgone
      · rcases List.mem_append.mp hmem with hmem | hmem
        · obtain ⟨hnot, hnot'⟩ := hafter later hmem
          rw [hnot, hnot'] at hgone
          simp at hgone
        · have hle := hsuf later hmem
          linarith

/-- Some instant is after `b` and before everything that is. -/
theorem exists_soon_after (b : ℚ) (instants : List ℚ) (h : ∀ x ∈ instants, b < x) :
    ∃ now, b < now ∧ ∀ x ∈ instants, now ≤ x := by
  induction instants with
  | nil => exact ⟨b + 1, by linarith, by simp⟩
  | cons x instants ih =>
    obtain ⟨now, hlt, hle⟩ := ih fun y hy => h y (List.mem_cons_of_mem _ hy)
    refine ⟨min now x, lt_min hlt (h x List.mem_cons_self), ?_⟩
    intro y hy
    rcases List.mem_cons.mp hy with rfl | hy
    · exact min_le_right _ _
    · exact (min_le_left _ _).trans (hle y hy)

/-- The calls of a sorted run up to an instant, and the rest. -/
theorem exists_split_at (calls : List QuotaCall) (b : ℚ)
    (hsorted : calls.Pairwise fun call later => call.now ≤ later.now) :
    ∃ early late, calls = early ++ late ∧ (∀ call ∈ early, call.now ≤ b)
      ∧ ∀ call ∈ late, b < call.now := by
  induction calls with
  | nil => exact ⟨[], [], rfl, by simp, by simp⟩
  | cons call calls ih =>
    obtain ⟨hcall, hrest⟩ := List.pairwise_cons.mp hsorted
    by_cases hle : call.now ≤ b
    · obtain ⟨early, late, rfl, hearly, hlate⟩ := ih hrest
      refine ⟨call :: early, late, rfl, ?_, hlate⟩
      intro c hc
      rcases List.mem_cons.mp hc with rfl | hc
      · exact hle
      · exact hearly c hc
    · refine ⟨[], call :: calls, rfl, by simp, ?_⟩
      intro c hc
      have hlt : b < call.now := not_le.mp hle
      rcases List.mem_cons.mp hc with rfl | hc
      · exact hlt
      · exact lt_of_lt_of_le hlt (hcall c hc)

/-- An id that an attempt of another finds in the set outlives `bound` if the
attempt's refresh does and nobody tries for it or releases it until then:
there is an instant after `bound`, before the next call, at which it is seen. -/
theorem exists_seen_past {pre suf : List QuotaCall} {call : QuotaCall} {key id id' : String}
    {bound : ℚ} (hsorted : (pre ++ call :: suf).Pairwise fun call later => call.now ≤ later.now)
    (hattempts : call.Attempts key id' = true)
    (hid : id ∈ (redisAfter settings calendar pre).smembers call.now key)
    (hsoon : call.now ≤ bound) (hrefreshed : bound < call.now + settings.slotTtl)
    (hending : bound < final)
    (hkept : ∀ later ∈ call :: suf, later.now ≤ bound →
      later.Attempts key id = false ∧ later.Releases key id = false) :
    ∃ early late now, suf = early ++ late ∧ bound < now ∧ now ≤ final
      ∧ (∀ c ∈ pre ++ [call] ++ early, c.now ≤ now) ∧ (∀ c ∈ late, now ≤ c.now)
      ∧ (∀ c ∈ [call] ++ early, c.Attempts key id = false)
      ∧ id ∈ (redisAfter settings calendar (pre ++ [call] ++ early)).smembers now key := by
  obtain ⟨-, hsuf, hbefore⟩ := List.pairwise_append.mp hsorted
  obtain ⟨hcall, hsuf⟩ := List.pairwise_cons.mp hsuf
  have hnot := hkept call List.mem_cons_self hsoon
  have hne : id ≠ id' := by
    intro heq
    rw [heq, hattempts] at hnot
    cases hnot.1
  have hheld : HeldUntil key id (call.now + settings.slotTtl)
      (RedisQuota.serve settings calendar (redisAfter settings calendar pre) call).1 :=
    heldUntil_of_attempt hattempts hne hid
  obtain ⟨early, late, rfl, hearly, hlate⟩ := exists_split_at suf bound hsuf
  have hquiet : ∀ later ∈ early, later.Attempts key id = false ∧ later.Releases key id = false :=
    fun later hmem => hkept later (by simp [hmem]) (hearly later hmem)
  have hlasting : HeldUntil key id (call.now + settings.slotTtl)
      (redisAfter settings calendar (pre ++ [call] ++ early)) := by
    unfold redisAfter
    rw [serveAll_append, serveAll_concat]
    refine hheld.serveAll ?_
    intro later hmem
    have hafter := hcall later (List.mem_append_left _ hmem)
    have hby := hearly later hmem
    exact ⟨by linarith, by linarith, hquiet later hmem⟩
  -- An instant after `bound` by which nothing else has happened.
  obtain ⟨now, hafter, hall⟩ := exists_soon_after bound
    (final :: ((bound + (call.now + settings.slotTtl)) / 2) :: late.map (·.now)) (by
      intro x hx
      simp only [List.mem_cons, List.mem_map] at hx
      rcases hx with rfl | rfl | ⟨later, hmem, rfl⟩
      · exact hending
      · linarith
      · exact hlate later hmem)
  simp only [List.mem_cons, List.mem_map, forall_eq_or_imp, forall_exists_index, and_imp,
    forall_apply_eq_imp_iff₂] at hall
  obtain ⟨hnowFinal, hmid, hnowLate⟩ := hall
  refine ⟨early, late, now, rfl, hafter, hnowFinal, ?_, hnowLate, ?_,
    hlasting.mem_smembers (by linarith)⟩
  · intro c hc
    simp only [List.mem_append, List.mem_singleton] at hc
    rcases hc with (hc | rfl) | hc
    · linarith [hbefore c hc call List.mem_cons_self]
    · linarith
    · linarith [hearly c hc]
  · intro c hc
    rcases List.mem_append.mp hc with hc | hc
    · obtain rfl := List.mem_singleton.mp hc
      exact hnot.1
    · exact (hquiet c hc).1

/-- Without it some slot does not. -/
theorem timely_of_agesOut (hsorted : calls.Pairwise fun call later => call.now ≤ later.now)
    (hfinal : ∀ call ∈ calls, call.now ≤ final) (h : AgesOut settings calendar calls final) :
    Timely settings calendar calls final := by
  intro pre call suf key id' id s hcalls hattempts hid hreserved hold
  subst hcalls
  obtain ⟨-, hsuf, hbefore⟩ := List.pairwise_append.mp hsorted
  by_contra hnever
  rw [not_or] at hnever
  obtain ⟨hending, hnobody⟩ := hnever
  have hkept : ∀ later ∈ call :: suf, later.now ≤ s + settings.slotTtl →
      later.Attempts key id = false ∧ later.Releases key id = false := by
    intro later hmem hsoon
    by_contra hgone
    rw [not_and_or, Bool.not_eq_false, Bool.not_eq_false] at hgone
    exact hnobody ⟨later, hmem, hsoon, hgone⟩
  -- The attempt itself came within the id's time: it saw it.
  have hsoon : call.now ≤ s + settings.slotTtl := by
    refine h pre (call :: suf) call.now rfl (fun c hc => hbefore c hc call List.mem_cons_self)
      ?_ (hfinal call (by simp)) key id s hid hreserved
    intro c hc
    rcases List.mem_cons.mp hc with rfl | hc
    · exact le_refl _
    · exact (List.pairwise_cons.mp hsuf).1 c hc
  -- And keeps it past its time.
  obtain ⟨early, late, now, rfl, hafter, hnowFinal, hpast, hnowLate, hquiet, hseen⟩ :=
    exists_seen_past hsorted hattempts hid hsoon (by linarith) (not_le.mp hending) hkept
  have hsame : reservedAt key id (pre ++ [call] ++ early) = some s := by
    rw [List.append_assoc, reservedAt_append_of_not hquiet]
    exact hreserved
  have hlapsed := h (pre ++ [call] ++ early) late now (by simp) hpast hnowLate hnowFinal key id s
    hseen hsame
  linarith

end Ages

/-- **When slots age out.** Over any run of calls, no slot set ever holds an
id tried for more than six decision lifetimes ago, exactly if every id an
attempt finds in the set is released or tried for anew within that time of
its last attempt, or the run ends by then. -/
theorem slots_age_out_iff (settings : ValidSettings) (calendar : Calendar)
    (calls : List QuotaCall) (final : ℚ)
    (hsorted : calls.Pairwise fun call later => call.now ≤ later.now)
    (hfinal : ∀ call ∈ calls, call.now ≤ final) :
    AgesOut settings calendar calls final ↔ Timely settings calendar calls final :=
  ⟨timely_of_agesOut hsorted hfinal, agesOut_of_timely⟩

/-- The one slot is asked for again while taken, and released in time. -/
def releasedInTime : List QuotaCall :=
  [⟨0, oneSlot, .reserveConcurrency "d1"⟩, ⟨1000, oneSlot, .reserveConcurrency "d2"⟩,
    ⟨1500, oneSlot, .releaseConcurrency "d1"⟩]

/-- So the slot ages out. -/
theorem slots_age_out_iff_releasedInTime : AgesOut {} epochCalendar releasedInTime 5000 := by
  refine (slots_age_out_iff {} epochCalendar releasedInTime 5000 (by decide +kernel)
    (by decide +kernel)).mpr ?_
  intro pre call suf key id' id s hcalls hattempts hid hreserved hold
  unfold releasedInTime at hcalls
  rcases pre with _ | ⟨first, _ | ⟨second, pre⟩⟩
  · cases hreserved
  · -- The second call finds the first one's id.
    simp only [List.cons_append, List.nil_append, List.cons.injEq] at hcalls
    obtain ⟨rfl, rfl, rfl⟩ := hcalls
    obtain ⟨first, hmem, hfirst, rfl⟩ := exists_of_reservedAt hreserved
    obtain rfl := List.mem_singleton.mp hmem
    simp only [QuotaCall.Attempts, Bool.and_eq_true, decide_eq_true_eq,
      QuotaOp.reserveConcurrency.injEq] at hfirst
    refine .inr ⟨_, List.mem_cons_of_mem _ (List.mem_singleton_self _), ?_, .inr ?_⟩
    · decide +kernel
    · simp [QuotaCall.Releases, hfirst]
  · simp only [List.cons_append, List.cons.injEq] at hcalls
    obtain ⟨-, -, hcalls⟩ := hcalls
    rcases pre with _ | ⟨third, pre⟩
    · simp only [List.nil_append, List.cons.injEq] at hcalls
      obtain ⟨rfl, -⟩ := hcalls
      simp [QuotaCall.Attempts] at hattempts
    · simp at hcalls

/-- The first decision is never closed; the second attempt is refused. -/
def keepsAsking : List QuotaCall :=
  [⟨0, oneSlot, .reserveConcurrency "d1"⟩, ⟨1000, oneSlot, .reserveConcurrency "d2"⟩]

/-- The refused attempt keeps the abandoned slot: past its time, at 1801, the
next one is refused for it too. -/
theorem abandoned_slot_kept :
    ¬ AgesOut {} epochCalendar (keepsAsking ++ [⟨1801, oneSlot, .reserveConcurrency "d3"⟩]) 1801
      ∧ (RedisQuota.serve {} epochCalendar (redisAfter {} epochCalendar keepsAsking)
          ⟨1801, oneSlot, .reserveConcurrency "d3"⟩).2
        = .error (.quotaExceeded "agent concurrent limit exceeded") := by
  refine ⟨?_, by decide +kernel⟩
  intro h
  have hlapsed := h keepsAsking _ 1801 rfl (by decide +kernel) (by decide +kernel) (le_refl _)
    (concurrencyKey oneSlot.quotaKey) "d1" 0 (by decide +kernel) (by decide +kernel)
  exact absurd hlapsed (by decide +kernel)

end ControlPlane
