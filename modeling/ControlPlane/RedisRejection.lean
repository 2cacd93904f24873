import ControlPlane.RedisSlots

/-!
# A rejection and its cause

In memory a reservation is refused only when the set is full of others. Over
Redis an id sits in the set from its `SADD` to its `SREM`, and a call is
counted by the others before it has counted them: two calls can refuse each
other a slot that nobody takes (`both_rejected`).

For that, ids of calls that wait for their own answer must fill a slot that
no reservation has. `FairAdd` asks of a `SADD` that they do not: with its id
the set is within the limit, or the limit is taken by reservations that have
returned. As long as every `SADD` is fair, every rejection has its cause, and
one that is not fair can be followed by a rejection without
(`rejected_with_cause`). What carries the first half is that the calls which
wait for their answer find the set within the limit, or have seen it full of
reservations since they added their id (`Justified`); for the second, all of
them go on to their `SCARD` at once.
-/

namespace ControlPlane

open Lib

/-! ## The property -/

/-- Found over the limit: the call raises, or has raised. -/
def ReservePc.Refused (pc : ReservePc) : Prop :=
  pc = .srem ∨ pc = .rejected

/-- Between its first command and its last. -/
def ReservePc.Tentative (pc : ReservePc) : Prop :=
  pc = .expire ∨ pc = .scard ∨ pc = .srem

section Rejection

variable (settings : ValidSettings) (principal : AgentPrincipal)

/-- In a run from `c` to `c'` there was an instant in the course of the call
at which the limit was taken by other reservations that return normally and
were not released yet. -/
def Cause (c : Conf RedisServer SlotTask) (acts : List (Act SlotTask ℚ))
    (c' : Conf RedisServer SlotTask) (id : String) : Prop :=
  ∃ acts₁ acts₂ c₁ pc, ∃ others : Finset String, acts = acts₁ ++ acts₂
    ∧ (slotCommands settings principal).Run WellStarted c acts₁ c₁
    ∧ (slotCommands settings principal).Run WellStarted c₁ acts₂ c'
    ∧ .reserve id pc ∈ c₁.tasks ∧ pc.Tentative
    ∧ principal.concurrentLimit ≤ others.card ∧ id ∉ others
    ∧ ∀ id' ∈ others, (∃ pc', .reserve id' pc' ∈ c₁.tasks ∧ pc'.Inside)
      ∧ .reserve id' .admitted ∈ c'.tasks ∧ .release id' .released ∉ c₁.tasks

/-- Every call that is refused has its cause. -/
def NoSpuriousRejection (c : Conf RedisServer SlotTask) (acts : List (Act SlotTask ℚ))
    (c' : Conf RedisServer SlotTask) : Prop :=
  ∀ id pc, .reserve id pc ∈ c'.tasks → pc.Refused → Cause settings principal c acts c' id

/-! ## Fair additions -/

/-- The ids in the set whose calls have returned normally. -/
def settled (now : ℚ) (c : Conf RedisServer SlotTask) : Finset String :=
  (seen principal now c.world).filter fun id => .reserve id .admitted ∈ c.tasks

/-- A `SADD` that takes the set past the limit finds the limit taken by
reservations that have returned. -/
def FairAdd (c : Conf RedisServer SlotTask) : Act SlotTask ℚ → Prop
  | .start _ => True
  | .run i now =>
    match c.tasks[i]? with
    | some (.reserve id .sadd) =>
      principal.concurrentLimit < ((insert id (seen principal now c.world)).card : ℤ) →
        principal.concurrentLimit ≤ (settled principal now c).card
    | _ => True

instance (c : Conf RedisServer SlotTask) : (a : Act SlotTask ℚ) → Decidable (FairAdd principal c a)
  | .start _ => inferInstanceAs (Decidable True)
  | .run i now => by
    unfold FairAdd
    dsimp only
    split <;> infer_instance

/-! ## What every run with fair additions keeps -/

/-- A call that waits for its answer finds the set within the limit, or has
its cause already; a refused one has it. -/
def Justified (c : Conf RedisServer SlotTask) (acts : List (Act SlotTask ℚ))
    (c' : Conf RedisServer SlotTask) (id : String) : ReservePc → Prop
  | .sadd => True
  | .expire => ((held principal c'.world).card : ℤ) ≤ principal.concurrentLimit
      ∨ Cause settings principal c acts c' id
  | .scard => ((held principal c'.world).card : ℤ) ≤ principal.concurrentLimit
      ∨ Cause settings principal c acts c' id
  | .srem => Cause settings principal c acts c' id
  | .admitted => True
  | .rejected => Cause settings principal c acts c' id

variable {settings principal} {c₀ c c' : Conf RedisServer SlotTask}
  {acts : List (Act SlotTask ℚ)} {a : Act SlotTask ℚ} {id : String}

/-- What returned normally stays so. -/
theorem admitted_step (hstep : (slotCommands settings principal).step c a = some c')
    (h : .reserve id .admitted ∈ c.tasks) : .reserve id .admitted ∈ c'.tasks := by
  cases a with
  | start t =>
    obtain rfl := Option.some.inj hstep
    exact List.mem_append_left _ h
  | run i now =>
    obtain ⟨l, t, r, w, t', htasks, -, hadv, rfl⟩ := (System.step_run_iff _).mp hstep
    rw [htasks] at h
    rcases mem_split.mp h with rfl | hother
    · cases slotStep_of_advance hadv
    · exact mem_split.mpr (.inr hother)

/-- A cause stays one as the run goes on. -/
theorem Cause.step (h : Cause settings principal c₀ acts c id) (hok : WellStarted c a)
    (hstep : (slotCommands settings principal).step c a = some c') :
    Cause settings principal c₀ (acts ++ [a]) c' id := by
  obtain ⟨acts₁, acts₂, c₁, pc, others, rfl, hpre, hpost, hmem, htentative, hlimit, hself,
    hothers⟩ := h
  refine ⟨acts₁, acts₂ ++ [a], c₁, pc, others, List.append_assoc _ _ _, hpre,
    hpost.append ⟨hok, c', hstep, rfl⟩, hmem, htentative, hlimit, hself, ?_⟩
  intro id' hid'
  obtain ⟨hinside, hadmitted, hunreleased⟩ := hothers id' hid'
  exact ⟨hinside, admitted_step hstep hadmitted, hunreleased⟩

/-- The limit taken now, by reservations in the set that have returned, is a
cause for every call in its course. -/
theorem Cause.now (hrun : (slotCommands settings principal).Run WellStarted c₀ acts c)
    (hinv : SlotInv (held principal c.world) c.tasks) {others : Finset String}
    (hothers : ∀ id' ∈ others, id' ∈ held principal c.world ∧ .reserve id' .admitted ∈ c.tasks)
    (hlimit : principal.concurrentLimit ≤ others.card) {pc : ReservePc}
    (hmem : .reserve id pc ∈ c.tasks) (htentative : pc.Tentative) :
    Cause settings principal c₀ acts c id := by
  refine ⟨acts, [], c, pc, others, (List.append_nil acts).symm, hrun, rfl, hmem, htentative,
    hlimit, ?_, ?_⟩
  · intro hid
    obtain rfl := hinv.unique hmem (hothers id hid).2
    rcases htentative with h | h | h <;> cases h
  · intro id' hid'
    obtain ⟨hheld, hadmitted⟩ := hothers id' hid'
    exact ⟨⟨.admitted, hadmitted, trivial⟩, hadmitted, fun hreleased =>
      hinv.gone id' hreleased hheld⟩

/-- A call that does not move stays accounted for while the set does not
grow. -/
theorem Justified.step {pc : ReservePc} (h : Justified settings principal c₀ acts c id pc)
    (hok : WellStarted c a) (hstep : (slotCommands settings principal).step c a = some c')
    (hcard : (held principal c'.world).card ≤ (held principal c.world).card) :
    Justified settings principal c₀ (acts ++ [a]) c' id pc := by
  have hcard' : ((held principal c'.world).card : ℤ) ≤ (held principal c.world).card := by
    exact_mod_cast hcard
  cases pc with
  | sadd => trivial
  | expire => exact h.imp hcard'.trans fun hcause => hcause.step hok hstep
  | scard => exact h.imp hcard'.trans fun hcause => hcause.step hok hstep
  | srem => exact Cause.step h hok hstep
  | admitted => trivial
  | rejected => exact Cause.step h hok hstep

/-- A command of a call keeps every call justified. -/
theorem justified_step {l r : List SlotTask} {t t' : SlotTask} {w w' : RedisServer} {now : ℚ}
    (hrun : (slotCommands settings principal).Run WellStarted c₀ acts ⟨w, l ++ t :: r⟩)
    (hinv : SlotInv (held principal w) (l ++ t :: r))
    (hfair : FairAdd principal ⟨w, l ++ t :: r⟩ (.run l.length now))
    (hadv : (slotCommands settings principal).advance now w t = some (w', t'))
    (hall : ∀ id pc, .reserve id pc ∈ l ++ t :: r →
      Justified settings principal c₀ acts ⟨w, l ++ t :: r⟩ id pc) :
    ∀ id pc, .reserve id pc ∈ l ++ t' :: r → Justified settings principal c₀
      (acts ++ [.run l.length now]) ⟨w', l ++ t' :: r⟩ id pc := by
  have hstep : (slotCommands settings principal).step ⟨w, l ++ t :: r⟩ (.run l.length now)
      = some ⟨w', l ++ t' :: r⟩ :=
    (System.step_run_iff _).mpr ⟨l, t, r, w', t', rfl, rfl, hadv, rfl⟩
  have hone : (slotCommands settings principal).Run WellStarted ⟨w, l ++ t :: r⟩
      [.run l.length now] ⟨w', l ++ t' :: r⟩ := ⟨trivial, _, hstep, rfl⟩
  have hinv' := hinv.step hadv
  have hslots := slotStep_of_advance hadv
  have hother : ∀ id pc, .reserve id pc ∈ l ∨ .reserve id pc ∈ r →
      Justified settings principal c₀ acts ⟨w, l ++ t :: r⟩ id pc :=
    fun id pc hmem => hall id pc (mem_split.mpr (.inr hmem))
  -- Where the set does not grow, only the call that moves is to be looked at.
  have hmoves : (held principal w').card ≤ (held principal w).card →
      (∀ id pc, .reserve id pc = t' → Justified settings principal c₀
        (acts ++ [.run l.length now]) ⟨w', l ++ t' :: r⟩ id pc) →
      ∀ id pc, .reserve id pc ∈ l ++ t' :: r → Justified settings principal c₀
        (acts ++ [.run l.length now]) ⟨w', l ++ t' :: r⟩ id pc := by
    intro hcard hself id pc hmem
    rcases mem_split.mp hmem with hself' | hmem
    · exact hself id pc hself'
    · exact (hother id pc hmem).step trivial hstep hcard
  have hseen : (seen principal now w).card ≤ (held principal w).card :=
    Finset.card_le_card seen_subset_held
  generalize hslots' : held principal w' = slots' at hslots
  cases hslots with
  | @added id =>
    have hfair : principal.concurrentLimit < ((insert id (seen principal now w)).card : ℤ) →
        principal.concurrentLimit
          ≤ (settled principal now ⟨w, l ++ .reserve id .sadd :: r⟩).card := by
      unfold FairAdd at hfair
      simpa only [getElem?_split_self] using hfair
    have hwaits : ∀ id' pc, .reserve id' pc ∈ l ++ .reserve id .expire :: r → pc.Tentative →
        ((held principal w').card : ℤ) ≤ principal.concurrentLimit
        ∨ Cause settings principal c₀ (acts ++ [.run l.length now])
            ⟨w', l ++ .reserve id .expire :: r⟩ id' := by
      intro id' pc hmem htentative
      rw [hslots']
      refine or_iff_not_imp_left.mpr fun hfull => ?_
      refine Cause.now (hrun.append hone) hinv' ?_ (hfair (not_le.mp hfull)) hmem htentative
      intro id'' hid''
      obtain ⟨hin, hadmitted⟩ := Finset.mem_filter.mp hid''
      refine ⟨?_, admitted_step hstep hadmitted⟩
      rw [hslots']
      exact Finset.mem_insert_of_mem hin
    intro id' pc hmem
    have hmem' : pc ≠ .expire → .reserve id' pc ∈ l ∨ .reserve id' pc ∈ r := fun hne =>
      (mem_split.mp hmem).resolve_left fun hself => hne (SlotTask.reserve.inj hself).2
    cases pc with
    | sadd => trivial
    | expire => exact hwaits id' .expire hmem (.inl rfl)
    | scard => exact hwaits id' .scard hmem (.inr (.inl rfl))
    | srem => exact Cause.step (hother id' .srem (hmem' (by simp))) trivial hstep
    | admitted => trivial
    | rejected => exact Cause.step (hother id' .rejected (hmem' (by simp))) trivial hstep
  | @expired id =>
    have hcard : (held principal w').card ≤ (held principal w).card := hslots' ▸ le_rfl
    refine hmoves hcard ?_
    rintro id' pc ⟨⟩
    exact (hall id .expire (mem_split.mpr (.inl rfl))).step trivial hstep hcard
  | @overLimit id hfull =>
    have hcard : (held principal w').card ≤ (held principal w).card := hslots' ▸ le_rfl
    refine hmoves hcard ?_
    rintro id' pc ⟨⟩
    -- The set is over the limit, so the call has its cause already.
    have hcause := (hall id .scard (mem_split.mpr (.inl rfl))).resolve_left (by
      show ¬((held principal w).card : ℤ) ≤ principal.concurrentLimit
      omega)
    exact Cause.step hcause trivial hstep
  | @withinLimit id hle =>
    refine hmoves (hslots' ▸ le_rfl) ?_
    rintro id' pc ⟨⟩
    trivial
  | @withdrawn id =>
    have herase : ((seen principal now w).erase id).card ≤ (held principal w).card :=
      (Finset.card_le_card (Finset.erase_subset id _)).trans hseen
    refine hmoves (hslots' ▸ herase) ?_
    rintro id' pc ⟨⟩
    exact Cause.step (hall id .srem (mem_split.mpr (.inl rfl))) trivial hstep
  | @released id =>
    have herase : ((seen principal now w).erase id).card ≤ (held principal w).card :=
      (Finset.card_le_card (Finset.erase_subset id _)).trans hseen
    refine hmoves (hslots' ▸ herase) ?_
    rintro id' pc ⟨⟩

/-- **Every run with fair additions keeps its calls justified.** -/
theorem justified_of_run {w : RedisServer}
    (hempty : w.redis.sets (concurrencyKey principal.quotaKey) = none)
    (hrun : (slotCommands settings principal).Run
      (fun c a => WellStarted c a ∧ FairAdd principal c a) ⟨w, []⟩ acts c) :
    ∀ id pc, .reserve id pc ∈ c.tasks → Justified settings principal ⟨w, []⟩ acts c id pc := by
  have hnone : (slotCommands settings principal).Run
      (fun c a => WellStarted c a ∧ FairAdd principal c a) ⟨w, []⟩ [] ⟨w, []⟩ := rfl
  have hkept := System.Run.history (I := fun acts c =>
    ∀ id pc, .reserve id pc ∈ c.tasks → Justified settings principal ⟨w, []⟩ acts c id pc)
    ?_ hnone (by simp) hrun
  · exact hkept
  intro acts c a c' hpre hok hstep hall
  have hpre := hpre.mono fun _ _ => And.left
  have hinv := slotInv_of_run hpre (reached_start hempty).inv
  cases a with
  | start t =>
    have hkept : ∀ id pc, .reserve id pc ∈ c.tasks →
        Justified settings principal ⟨w, []⟩ (acts ++ [.start t]) c' id pc := by
      intro id pc hmem
      refine (hall id pc hmem).step hok.1 hstep (le_of_eq ?_)
      rw [← Option.some.inj hstep]
    obtain rfl := Option.some.inj hstep
    intro id pc hmem
    rcases List.mem_append.mp hmem with hmem | hmem
    · exact hkept id pc hmem
    · -- A call starts before its first command.
      obtain rfl := List.mem_singleton.mp hmem
      obtain ⟨rfl, -⟩ := hok.1
      trivial
  | run i now =>
    obtain ⟨w₁, ts⟩ := c
    obtain ⟨l, t, r, w', t', htasks, rfl, hadv, rfl⟩ := (System.step_run_iff _).mp hstep
    obtain rfl : ts = l ++ t :: r := htasks
    exact justified_step hpre hinv hok.2 hadv hall

end Rejection

/-! ## What an unfair addition leads to -/

section Unfair

variable {settings : ValidSettings} {principal : AgentPrincipal} {now : ℚ}
  {c c' : Conf RedisServer SlotTask} {acts : List (Act SlotTask ℚ)} {id : String}

/-- A call that waits for its answer, answered that the set is full. -/
def SlotTask.refuse : SlotTask → SlotTask
  | .reserve id .expire => .reserve id .srem
  | .reserve id .scard => .reserve id .srem
  | task => task

/-- An `EXPIRE` changes nothing that is seen. -/
theorem seen_expire (settings : ValidSettings) (w : RedisServer) :
    seen principal now ⟨w.redis.expireSet now (concurrencyKey principal.quotaKey)
      settings.slotTtl, now⟩ = seen principal now w := by
  unfold seen Redis.smembers Redis.expireSet
  dsimp only
  rw [Expiring.get_expire_self (lt_add_of_pos_right now settings.slotTtl_pos)]

/-- The count of a set over the limit. -/
theorem run_scard (settings : ValidSettings) (id : String) {w : RedisServer}
    (l r : List SlotTask) (hnow : w.now ≤ now)
    (hfull : principal.concurrentLimit < (seen principal now w).card) :
    (slotCommands settings principal).step ⟨w, l ++ .reserve id .scard :: r⟩ (.run l.length now)
      = some ⟨⟨w.redis, now⟩, l ++ .reserve id .srem :: r⟩ := by
  refine (System.step_run_iff _).mpr ⟨l, _, r, _, _, rfl, rfl, ?_, rfl⟩
  have hcount : principal.concurrentLimit
      < (w.redis.scard now (concurrencyKey principal.quotaKey) : ℤ) := hfull
  simp [slotCommands, advanceReserve, hnow, hcount]

/-- A waiting call goes on to be refused while the set is full. -/
theorem run_refuse (settings : ValidSettings) (t : SlotTask) {w : RedisServer}
    (l r : List SlotTask) (hnow : w.now ≤ now)
    (hfull : principal.concurrentLimit < (seen principal now w).card) :
    ∃ acts w', (slotCommands settings principal).Run WellStarted ⟨w, l ++ t :: r⟩ acts
        ⟨w', l ++ t.refuse :: r⟩ ∧ w'.now ≤ now ∧ seen principal now w' = seen principal now w := by
  have hstay : ∃ acts w', (slotCommands settings principal).Run WellStarted ⟨w, l ++ t :: r⟩ acts
      ⟨w', l ++ t :: r⟩ ∧ w'.now ≤ now ∧ seen principal now w' = seen principal now w :=
    ⟨[], w, rfl, hnow, rfl⟩
  cases t with
  | reserve id pc =>
    cases pc with
    | expire =>
      have hstep : (slotCommands settings principal).step ⟨w, l ++ .reserve id .expire :: r⟩
          (.run l.length now) = some ⟨⟨w.redis.expireSet now (concurrencyKey principal.quotaKey)
            settings.slotTtl, now⟩, l ++ .reserve id .scard :: r⟩ := by
        refine (System.step_run_iff _).mpr ⟨l, _, r, _, _, rfl, rfl, ?_, rfl⟩
        simp [slotCommands, advanceReserve, hnow]
      have hseen : seen principal now ⟨w.redis.expireSet now (concurrencyKey principal.quotaKey)
          settings.slotTtl, now⟩ = seen principal now w := seen_expire settings w
      have hscard := run_scard settings id l r (le_refl now) (hseen ▸ hfull)
      exact ⟨[.run l.length now, .run l.length now], _,
        ⟨trivial, _, hstep, trivial, _, hscard, rfl⟩, le_refl now, hseen⟩
    | scard =>
      exact ⟨[.run l.length now], _, ⟨trivial, _, run_scard settings id l r hnow hfull, rfl⟩,
        le_refl now, rfl⟩
    | sadd => exact hstay
    | srem => exact hstay
    | admitted => exact hstay
    | rejected => exact hstay
  | release id pc => exact hstay

/-- All waiting calls are refused, one after the other. -/
theorem run_refuse_all (settings : ValidSettings) (ts : List SlotTask) {w : RedisServer}
    (l : List SlotTask) (hnow : w.now ≤ now)
    (hfull : principal.concurrentLimit < (seen principal now w).card) :
    ∃ acts w', (slotCommands settings principal).Run WellStarted ⟨w, l ++ ts⟩ acts
        ⟨w', l ++ ts.map SlotTask.refuse⟩ := by
  induction ts generalizing w l with
  | nil => exact ⟨[], w, rfl⟩
  | cons t ts ih =>
    obtain ⟨acts₁, w₁, hrun₁, hnow₁, hseen₁⟩ := run_refuse settings t l ts hnow hfull
    obtain ⟨acts₂, w₂, hrun₂⟩ := ih (l ++ [t.refuse]) hnow₁ (hseen₁ ▸ hfull)
    refine ⟨acts₁ ++ acts₂, w₂, hrun₁.append ?_⟩
    simpa using hrun₂

/-- A step only ever takes a reservation past its first command, and never
takes a release back. -/
theorem started_of_run (hrun : (slotCommands settings principal).Run WellStarted c acts c') :
    ((∃ pc, .reserve id pc ∈ c.tasks ∧ pc ≠ .sadd) →
      ∃ pc, .reserve id pc ∈ c'.tasks ∧ pc ≠ .sadd)
    ∧ (.release id .released ∈ c.tasks → .release id .released ∈ c'.tasks) := by
  refine ⟨fun h => ?_, fun h => ?_⟩
  · refine System.Run.invariant
      (I := fun c => ∃ pc, SlotTask.reserve id pc ∈ c.tasks ∧ pc ≠ .sadd) ?_ ?_ hrun h
    · rintro w ts t - ⟨pc, hmem, hpc⟩
      exact ⟨pc, List.mem_append_left _ hmem, hpc⟩
    · rintro w l t r now w' t' - hadv ⟨pc, hmem, hpc⟩
      rcases mem_split.mp hmem with rfl | hmem
      · have hslots := slotStep_of_advance hadv
        generalize held principal w' = slots at hslots
        cases hslots with
        | added => exact absurd rfl hpc
        | expired => exact ⟨_, mem_split.mpr (.inl rfl), nofun⟩
        | overLimit => exact ⟨_, mem_split.mpr (.inl rfl), nofun⟩
        | withinLimit => exact ⟨_, mem_split.mpr (.inl rfl), nofun⟩
        | withdrawn => exact ⟨_, mem_split.mpr (.inl rfl), nofun⟩
      · exact ⟨pc, mem_split.mpr (.inr hmem), hpc⟩
  · refine System.Run.invariant
      (I := fun c => SlotTask.release id .released ∈ c.tasks) ?_ ?_ hrun h
    · intro w ts t _ hmem
      exact List.mem_append_left _ hmem
    · intro w l t r now w' t' _ hadv hmem
      rcases mem_split.mp hmem with rfl | hmem
      · cases slotStep_of_advance hadv
      · exact mem_split.mpr (.inr hmem)

/-- A refused reservation was not admitted. -/
theorem mem_refuse_admitted {ts : List SlotTask}
    (h : .reserve id .admitted ∈ ts.map SlotTask.refuse) :
    .reserve id .admitted ∈ ts := by
  obtain ⟨t, hmem, heq⟩ := List.mem_map.mp h
  cases t with
  | reserve id' pc =>
    cases pc with
    | expire => cases heq
    | scard => cases heq
    | sadd => cases heq
    | srem => cases heq
    | rejected => cases heq
    | admitted =>
      obtain rfl : id' = id := (SlotTask.reserve.inj heq).1
      exact hmem
  | release id' pc => cases heq

/-- **An unfair addition can be followed by a rejection without a cause**: the
calls whose ids are in the set go on, and each finds it full. -/
theorem unfair_add_rejects {w : RedisServer}
    (hempty : w.redis.sets (concurrencyKey principal.quotaKey) = none)
    (hrun : (slotCommands settings principal).Run
      (fun c a => WellStarted c a ∧ BeforeDeadline principal c a) ⟨w, []⟩ acts c)
    {i : ℕ} (hlive : Unlapsed principal now c.world)
    (hstep : (slotCommands settings principal).step c (.run i now) = some c')
    (hunfair : ¬FairAdd principal c (.run i now)) :
    ∃ later c'', (slotCommands settings principal).Run WellStarted c' later c''
      ∧ ¬NoSpuriousRejection settings principal ⟨w, []⟩ (acts ++ .run i now :: later) c'' := by
  have hreached := reached_of_run hrun (reached_start hempty)
  have hpre := hrun.mono fun _ _ => And.left
  obtain ⟨w₁, ts⟩ := c
  obtain ⟨l, t, r, w', t', htasks, rfl, hadv, rfl⟩ := (System.step_run_iff _).mp hstep
  obtain rfl : ts = l ++ t :: r := htasks
  -- The step is a `SADD` that takes the set past the limit.
  obtain ⟨id, rfl, hfull, hfew⟩ : ∃ id, t = .reserve id .sadd
      ∧ principal.concurrentLimit < ((insert id (seen principal now w₁)).card : ℤ)
      ∧ ((settled principal now ⟨w₁, l ++ t :: r⟩).card : ℤ) < principal.concurrentLimit := by
    unfold FairAdd at hunfair
    simp only [getElem?_split_self] at hunfair
    split at hunfair
    next id hsadd =>
      obtain rfl := Option.some.inj hsadd
      simp only [Classical.not_imp, not_le] at hunfair
      exact ⟨id, rfl, hunfair⟩
    next => exact absurd trivial hunfair
  obtain ⟨hnow, rfl, rfl⟩ : w₁.now ≤ now
      ∧ w' = ⟨w₁.redis.sadd now (concurrencyKey principal.quotaKey) id, now⟩
      ∧ t' = .reserve id .expire := by
    unfold slotCommands at hadv
    dsimp only at hadv
    split at hadv
    next hnow =>
      obtain ⟨rfl, rfl⟩ := Prod.mk.inj (Option.some.inj hadv)
      exact ⟨hnow, rfl, rfl⟩
    next => cases hadv
  have hseen : seen principal now
      ⟨w₁.redis.sadd now (concurrencyKey principal.quotaKey) id, now⟩
      = insert id (seen principal now w₁) := by
    unfold seen Redis.smembers Redis.sadd
    rw [Expiring.get_set_self]
    rfl
  obtain ⟨later, w'', hlater⟩ := run_refuse_all settings (l ++ .reserve id .expire :: r) []
    (le_refl now) (hseen ▸ hfull)
  refine ⟨later, _, hlater, fun hcaused => ?_⟩
  have hrefused : .reserve id .srem
      ∈ (l ++ .reserve id .expire :: r).map SlotTask.refuse :=
    List.mem_map.mpr ⟨.reserve id .expire, mem_split.mpr (.inl rfl), rfl⟩
  obtain ⟨acts₁, acts₂, c₁, pc, others, hsplit, hpre₁, -, hmem₁, htentative, hlimit, -, hothers⟩ :=
    hcaused id .srem hrefused (.inl rfl)
  have hdet : ∀ {acts : List (Act SlotTask ℚ)} {c₂ c₃ : Conf RedisServer SlotTask},
      (slotCommands settings principal).Run WellStarted ⟨w, []⟩ acts c₂ →
      (slotCommands settings principal).Run WellStarted ⟨w, []⟩ acts c₃ → c₂ = c₃ :=
    fun h₂ h₃ => Option.some.inj (h₂.exec_eq.symm.trans h₃.exec_eq)
  rcases List.append_eq_append_iff.mp hsplit with ⟨since, rfl, -⟩ | ⟨before, rfl, -⟩
  · -- From the addition on, whoever is admitted in the end was admitted before it.
    obtain ⟨c₂, hpre₂, hsince⟩ := hpre₁.split
    obtain rfl := hdet hpre hpre₂
    have hsub : others ⊆ settled principal now ⟨w₁, l ++ .reserve id .sadd :: r⟩ := by
      intro id' hid'
      obtain ⟨-, hadmitted, hunreleased⟩ := hothers id' hid'
      have hadmitted' : .reserve id' .admitted ∈ l ++ .reserve id .sadd :: r :=
        mem_split.mpr (.inr ((mem_split.mp (mem_refuse_admitted hadmitted)).resolve_left nofun))
      have hunreleased' := fun hreleased => hunreleased ((started_of_run hsince).2 hreleased)
      have hheld := hreached.kept id' .admitted hadmitted' trivial hunreleased'
      rw [← seen_eq_held hlive] at hheld
      exact Finset.mem_filter.mpr ⟨hheld, hadmitted'⟩
    have hcard : (others.card : ℤ)
        ≤ (settled principal now ⟨w₁, l ++ .reserve id .sadd :: r⟩).card := by
      exact_mod_cast Finset.card_le_card hsub
    omega
  · -- Before it the call had not sent a command.
    obtain ⟨c₂, hpre₂, hbefore⟩ := hpre.split
    obtain rfl := hdet hpre₁ hpre₂
    have hstarted : pc ≠ .sadd := by
      rintro rfl
      rcases htentative with h | h | h <;> cases h
    obtain ⟨pc', hmem', hpc'⟩ := (started_of_run hbefore).1 ⟨pc, hmem₁, hstarted⟩
    exact hpc' (hreached.inv.unique hmem' (mem_split.mpr (.inl rfl)))

end Unfair

/-- **A rejection has its cause**, in every run in which each `SADD` that
takes the set past the limit finds the limit taken by reservations that have
returned; the set may lapse on the way. A `SADD` that does not can be followed
by a rejection without one. -/
theorem rejected_with_cause (settings : ValidSettings) (principal : AgentPrincipal)
    (w : RedisServer) (hempty : w.redis.sets (concurrencyKey principal.quotaKey) = none) :
    (∀ (acts : List (Act SlotTask ℚ)) (c : Conf RedisServer SlotTask),
      (slotCommands settings principal).Run
        (fun c a => WellStarted c a ∧ FairAdd principal c a) ⟨w, []⟩ acts c →
      NoSpuriousRejection settings principal ⟨w, []⟩ acts c)
    ∧ ∀ (acts : List (Act SlotTask ℚ)) (c c' : Conf RedisServer SlotTask) (i : ℕ) (now : ℚ),
      (slotCommands settings principal).Run
        (fun c a => WellStarted c a ∧ BeforeDeadline principal c a) ⟨w, []⟩ acts c →
      Unlapsed principal now c.world →
      (slotCommands settings principal).step c (.run i now) = some c' →
      ¬FairAdd principal c (.run i now) →
        ∃ later c'', (slotCommands settings principal).Run WellStarted c' later c''
          ∧ ¬NoSpuriousRejection settings principal ⟨w, []⟩ (acts ++ .run i now :: later) c'' := by
  refine ⟨?_, fun acts c c' i now hrun hlive hstep hunfair =>
    unfair_add_rejects hempty hrun hlive hstep hunfair⟩
  intro acts c hrun id pc hmem hrefused
  have hjustified := justified_of_run hempty hrun id pc hmem
  rcases hrefused with rfl | rfl
  · exact hjustified
  · exact hjustified

/-- A reservation that returned, and then two calls side by side for its
slot. -/
def slotKept : List (Act SlotTask ℚ) :=
  [.start (.reserve "d0" .sadd), .run 0 0, .run 0 0, .run 0 0,
    .start (.reserve "d1" .sadd), .start (.reserve "d2" .sadd), .run 1 1, .run 2 1, .run 1 1,
    .run 2 1, .run 1 1, .run 2 1, .run 1 2, .run 2 2]

/-- Both are refused, each because of the first. -/
theorem rejected_with_cause_slotKept :
    ∃ c : Conf RedisServer SlotTask, SlotTask.reserve "d1" .rejected ∈ c.tasks
      ∧ SlotTask.reserve "d2" .rejected ∈ c.tasks
      ∧ NoSpuriousRejection {} oneSlot ⟨{}, []⟩ slotKept c := by
  have htrace : ((slotCommands {} oneSlot).execIf
      (fun c a => decide (WellStarted c a ∧ FairAdd oneSlot c a)) ⟨{}, []⟩ slotKept).any
      (fun c => decide (SlotTask.reserve "d1" .rejected ∈ c.tasks
        ∧ SlotTask.reserve "d2" .rejected ∈ c.tasks)) = true := by
    decide +kernel
  obtain ⟨c, hrun, htasks⟩ := System.exists_run_of_any htrace
  obtain ⟨hfirst, hsecond⟩ := of_decide_eq_true htasks
  exact ⟨c, hfirst, hsecond, (rejected_with_cause {} oneSlot {} rfl).1 slotKept c hrun⟩

/-- Two calls for one slot, in lockstep. -/
def lockstep : List (Act SlotTask ℚ) :=
  [.start (.reserve "d1" .sadd), .start (.reserve "d2" .sadd), .run 0 0, .run 0 0, .run 1 0,
    .run 1 0, .run 0 0, .run 1 0, .run 0 0, .run 1 0]

/-- Every call has ended. -/
def SlotTask.Ended : SlotTask → Bool
  | .reserve _ pc => pc = .admitted ∨ pc = .rejected
  | .release _ pc => pc = .released

/-- Both are refused, and the slot was free throughout: no reservation
returned normally, then or later. -/
theorem both_rejected :
    ¬ ∀ (settings : ValidSettings) (principal : AgentPrincipal) (acts : List (Act SlotTask ℚ))
        (c : Conf RedisServer SlotTask),
      (slotCommands settings principal).Run
        (fun c a => WellStarted c a ∧ BeforeDeadline principal c a) ⟨{}, []⟩ acts c →
      (∀ t ∈ c.tasks, t.Ended = true) →
        NoSpuriousRejection settings principal ⟨{}, []⟩ acts c := by
  intro hall
  have htrace : ((slotCommands {} oneSlot).execIf
      (fun c a => decide (WellStarted c a ∧ BeforeDeadline oneSlot c a)) ⟨{}, []⟩ lockstep).any
      (fun c => decide (c.tasks = [.reserve "d1" .rejected, .reserve "d2" .rejected])) = true := by
    decide +kernel
  obtain ⟨c, hrun, htasks⟩ := System.exists_run_of_any htrace
  have htasks : c.tasks = [.reserve "d1" .rejected, .reserve "d2" .rejected] :=
    of_decide_eq_true htasks
  obtain ⟨_, _, _, _, others, _, _, _, _, _, hlimit, _, hothers⟩ :=
    hall {} oneSlot lockstep c hrun (by rw [htasks]; decide) "d1" .rejected
      (by rw [htasks]; exact List.mem_cons_self) (.inr rfl)
  have hlimit : (1 : ℤ) ≤ others.card := hlimit
  obtain ⟨id, hid⟩ := Finset.card_pos.mp (by omega : 0 < others.card)
  have hadmitted := (hothers id hid).2.1
  rw [htasks] at hadmitted
  simp at hadmitted

end ControlPlane
