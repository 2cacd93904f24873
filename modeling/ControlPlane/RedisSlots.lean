import ControlPlane.Redis

/-!
# Reservations, command by command

`reserve_concurrency` and `release_concurrency` of one principal as their
Redis commands, any number of them interleaved. Each command is atomic and
executes at an instant of its own; instants do not go back.

`redis_never_over_admits`: as long as the set does not lapse, the calls that
were admitted and not released are all in the set, so the `SCARD` that
admits one more has counted them. `solo_reserve` is the other end: a call
whose commands execute together is `reserveConcurrency`.

Mirroring notes:
- `SADD`, `EXPIRE`, `SCARD` and, over the limit, `SREM` are four awaits.
- A decision id is a fresh uuid, so no two reservations share one, and both
  callers of `release_concurrency` release an id they hold.
-/

namespace ControlPlane

open Lib

/-- The store and the instant of the last command. -/
structure RedisServer where
  redis : Redis := {}
  now : ℚ := 0

/-! ## The commands of a call -/

/-- The next command of a reservation, or how it ended. -/
inductive ReservePc
  | sadd
  | expire
  | scard
  | srem
  | admitted
  | rejected
deriving DecidableEq, Repr

/-- The command of a release, or its end. -/
inductive ReleasePc
  | srem
  | released
deriving DecidableEq, Repr

/-- A reservation or a release. -/
inductive SlotTask
  | reserve (decisionId : String) (pc : ReservePc)
  | release (decisionId : String) (pc : ReleasePc)
deriving DecidableEq, Repr

section Commands

variable (settings : ValidSettings) (principal : AgentPrincipal)

/-- One command of `reserve_concurrency`. -/
def advanceReserve (now : ℚ) (decisionId : String) (r : Redis) :
    ReservePc → Option (Redis × ReservePc)
  | .sadd => some (r.sadd now (concurrencyKey principal.quotaKey) decisionId, .expire)
  | .expire =>
    some (r.expireSet now (concurrencyKey principal.quotaKey) settings.slotTtl, .scard)
  | .scard =>
    some (r, if principal.concurrentLimit < r.scard now (concurrencyKey principal.quotaKey)
      then .srem else .admitted)
  | .srem => some (r.srem now (concurrencyKey principal.quotaKey) decisionId, .rejected)
  | .admitted => none
  | .rejected => none

/-- The command of `release_concurrency`. -/
def advanceRelease (now : ℚ) (decisionId : String) (r : Redis) :
    ReleasePc → Option (Redis × ReleasePc)
  | .srem => some (r.srem now (concurrencyKey principal.quotaKey) decisionId, .released)
  | .released => none

/-- The environment of a step is the instant its command executes at. -/
def slotCommands : System RedisServer SlotTask ℚ where
  advance now w task :=
    if w.now ≤ now then
      match task with
      | .reserve decisionId pc =>
        (advanceReserve settings principal now decisionId w.redis pc).map fun next =>
          (⟨next.1, now⟩, .reserve decisionId next.2)
      | .release decisionId pc =>
        (advanceRelease principal now decisionId w.redis pc).map fun next =>
          (⟨next.1, now⟩, .release decisionId next.2)
    else none

/-- How the call ends, as its last program counter. -/
def ReservePc.ofReply : Except ServiceError Unit → ReservePc
  | .ok _ => .admitted
  | .error _ => .rejected

/-- The commands of one call together are the call. -/
theorem solo_reserve (now : ℚ) (decisionId : String) (r : Redis) :
    (slotCommands settings principal).solo ⟨r, now⟩ (.reserve decisionId .sadd)
        (List.replicate 4 now)
      = (⟨(RedisQuota.reserveConcurrency settings now principal decisionId r).1, now⟩,
        .reserve decisionId (.ofReply
          (RedisQuota.reserveConcurrency settings now principal decisionId r).2)) := by
  unfold RedisQuota.reserveConcurrency
  dsimp only
  by_cases hfull : principal.concurrentLimit
      < (((r.sadd now (concurrencyKey principal.quotaKey) decisionId).expireSet now
        (concurrencyKey principal.quotaKey) settings.slotTtl).scard now
        (concurrencyKey principal.quotaKey) : ℤ)
  · simp [System.solo, slotCommands, advanceReserve, List.replicate, hfull, ReservePc.ofReply]
  · simp [System.solo, slotCommands, advanceReserve, List.replicate, hfull, ReservePc.ofReply]

/-- A release alone, command by command. -/
theorem solo_release (now : ℚ) (decisionId : String) (r : Redis) :
    (slotCommands settings principal).solo ⟨r, now⟩ (.release decisionId .srem) [now]
      = (⟨RedisQuota.releaseConcurrency now principal decisionId r, now⟩,
        .release decisionId .released) := by
  simp [System.solo, slotCommands, advanceRelease, RedisQuota.releaseConcurrency]

end Commands

/-! ## The set -/

section Slots

variable (principal : AgentPrincipal)

/-- The ids under the principal's key, lapsed or not. -/
def held (w : RedisServer) : Finset String :=
  w.redis.heldAt (concurrencyKey principal.quotaKey)

/-- The ids a command executing at `now` sees. -/
def seen (now : ℚ) (w : RedisServer) : Finset String :=
  w.redis.smembers now (concurrencyKey principal.quotaKey)

/-- The key has not reached its deadline. -/
def Unlapsed (now : ℚ) (w : RedisServer) : Prop :=
  ∀ e, w.redis.sets (concurrencyKey principal.quotaKey) = some e → e.Live now

variable {principal} {now : ℚ} {w : RedisServer}

/-- Unlapsed, what is seen is what is held. -/
theorem seen_eq_held (h : Unlapsed principal now w) : seen principal now w = held principal w :=
  Redis.smembers_eq_heldAt h

/-- A lapse only loses ids. -/
theorem seen_subset_held : seen principal now w ⊆ held principal w :=
  Redis.smembers_subset_heldAt

/-- `SADD` adds the id to what is seen. -/
theorem held_sadd (decisionId : String) :
    held principal ⟨w.redis.sadd now (concurrencyKey principal.quotaKey) decisionId, now⟩
      = insert decisionId (seen principal now w) :=
  (Redis.heldAt_sadd _).trans (if_pos rfl)

/-- `EXPIRE` keeps what is held. -/
theorem held_expire (seconds : ℚ) :
    held principal ⟨w.redis.expireSet now (concurrencyKey principal.quotaKey) seconds, now⟩
      = held principal w :=
  Redis.heldAt_expireSet _ _

/-- `SREM` takes the id out. -/
theorem held_srem (decisionId : String) :
    held principal ⟨w.redis.srem now (concurrencyKey principal.quotaKey) decisionId, now⟩
      = (seen principal now w).erase decisionId :=
  (Redis.heldAt_srem _).trans (if_pos rfl)

end Slots

/-! ## One step -/

/-- A command of one call: the task before, the set after, the task after. -/
inductive SlotStep (principal : AgentPrincipal) (now : ℚ) (w : RedisServer) :
    SlotTask → Finset String → SlotTask → Prop
  | added {id : String} : SlotStep principal now w (.reserve id .sadd)
      (insert id (seen principal now w)) (.reserve id .expire)
  | expired {id : String} : SlotStep principal now w (.reserve id .expire)
      (held principal w) (.reserve id .scard)
  | overLimit {id : String} : principal.concurrentLimit < (seen principal now w).card →
      SlotStep principal now w (.reserve id .scard) (held principal w) (.reserve id .srem)
  | withinLimit {id : String} : ((seen principal now w).card : ℤ) ≤ principal.concurrentLimit →
      SlotStep principal now w (.reserve id .scard) (held principal w) (.reserve id .admitted)
  | withdrawn {id : String} : SlotStep principal now w (.reserve id .srem)
      ((seen principal now w).erase id) (.reserve id .rejected)
  | released {id : String} : SlotStep principal now w (.release id .srem)
      ((seen principal now w).erase id) (.release id .released)

/-- A command is one of the listed steps. -/
theorem slotStep_of_advance {settings : ValidSettings} {principal : AgentPrincipal} {now : ℚ}
    {w w' : RedisServer} {t t' : SlotTask}
    (h : (slotCommands settings principal).advance now w t = some (w', t')) :
    SlotStep principal now w t (held principal w') t' := by
  unfold slotCommands at h
  dsimp only at h
  split at h
  next =>
    split at h
    next id pc =>
      obtain ⟨⟨r, pc'⟩, hadv, heq⟩ := Option.map_eq_some_iff.mp h
      obtain ⟨rfl, rfl⟩ := Prod.mk.inj heq
      cases pc with
      | sadd =>
        obtain ⟨rfl, rfl⟩ := Prod.mk.inj (Option.some.inj hadv)
        rw [held_sadd]
        exact .added
      | expire =>
        obtain ⟨rfl, rfl⟩ := Prod.mk.inj (Option.some.inj hadv)
        rw [held_expire]
        exact .expired
      | scard =>
        obtain ⟨rfl, rfl⟩ := Prod.mk.inj (Option.some.inj hadv)
        show SlotStep principal now w _ (held principal w) (.reserve id
          (if principal.concurrentLimit < ((seen principal now w).card : ℤ) then .srem
            else .admitted))
        split
        next hfull => exact .overLimit hfull
        next hfull => exact .withinLimit (by omega)
      | srem =>
        obtain ⟨rfl, rfl⟩ := Prod.mk.inj (Option.some.inj hadv)
        rw [held_srem]
        exact .withdrawn
      | admitted => cases hadv
      | rejected => cases hadv
    next id pc =>
      obtain ⟨⟨r, pc'⟩, hadv, heq⟩ := Option.map_eq_some_iff.mp h
      obtain ⟨rfl, rfl⟩ := Prod.mk.inj heq
      cases pc with
      | srem =>
        obtain ⟨rfl, rfl⟩ := Prod.mk.inj (Option.some.inj hadv)
        rw [held_srem]
        exact .released
      | released => cases hadv
  next => cases h

/-! ## What every run keeps -/

/-- The id of a reservation. -/
def SlotTask.reserving : SlotTask → Option String
  | .reserve id _ => some id
  | .release _ _ => none

/-- Calls start at their first command, an id is reserved once and released
by somebody who holds it. -/
def WellStarted (c : Conf RedisServer SlotTask) : Act SlotTask ℚ → Prop
  | .start (.reserve id pc) => pc = .sadd ∧ ∀ t ∈ c.tasks, t.reserving ≠ some id
  | .start (.release id pc) => pc = .srem ∧ .reserve id .admitted ∈ c.tasks
  | .run _ _ => True

/-- The step finds the set before its deadline. -/
def BeforeDeadline (principal : AgentPrincipal) (c : Conf RedisServer SlotTask) :
    Act SlotTask ℚ → Prop
  | .start _ => True
  | .run _ now => Unlapsed principal now c.world

instance (c : Conf RedisServer SlotTask) : (a : Act SlotTask ℚ) → Decidable (WellStarted c a)
  | .start (.reserve id pc) =>
    inferInstanceAs (Decidable (pc = .sadd ∧ ∀ t ∈ c.tasks, t.reserving ≠ some id))
  | .start (.release id pc) =>
    inferInstanceAs (Decidable (pc = .srem ∧ SlotTask.reserve id .admitted ∈ c.tasks))
  | .run _ _ => inferInstanceAs (Decidable True)

instance (principal : AgentPrincipal) (now : ℚ) (w : RedisServer) :
    Decidable (Unlapsed principal now w) :=
  match h : w.redis.sets (concurrencyKey principal.quotaKey) with
  | none => .isTrue (by simp [Unlapsed, h])
  | some e => decidable_of_iff (e.Live now) (by simp [Unlapsed, h])

instance (principal : AgentPrincipal) (c : Conf RedisServer SlotTask) :
    (a : Act SlotTask ℚ) → Decidable (BeforeDeadline principal c a)
  | .start _ => inferInstanceAs (Decidable True)
  | .run _ now => inferInstanceAs (Decidable (Unlapsed principal now c.world))

/-- Between its `SADD` and its withdrawal, if any. -/
def ReservePc.Inside : ReservePc → Prop
  | .sadd => False
  | .rejected => False
  | _ => True

/-- Where the ids in the set come from. -/
structure SlotInv (slots : Finset String) (tasks : List SlotTask) : Prop where
  once : (tasks.filterMap SlotTask.reserving).Nodup
  inside : ∀ id ∈ slots, ∃ pc, .reserve id pc ∈ tasks ∧ pc.Inside
  holder : ∀ id pc, .release id pc ∈ tasks → .reserve id .admitted ∈ tasks
  gone : ∀ id, .release id .released ∈ tasks → id ∉ slots

/-- No other task reserves the id of the one that moves. -/
theorem reserve_notMem_others {l r : List SlotTask} {t : SlotTask} {id : String}
    (honce : ((l ++ t :: r).filterMap SlotTask.reserving).Nodup) (ht : t.reserving = some id)
    {pc : ReservePc} (hmem : SlotTask.reserve id pc ∈ l ∨ SlotTask.reserve id pc ∈ r) : False := by
  rw [List.filterMap_append, List.filterMap_cons_some ht, List.nodup_append] at honce
  obtain ⟨-, hright, hapart⟩ := honce
  rcases hmem with hmem | hmem
  · have hleft : id ∈ l.filterMap SlotTask.reserving := List.mem_filterMap.mpr ⟨_, hmem, rfl⟩
    exact hapart id hleft id List.mem_cons_self rfl
  · have hmem' : id ∈ r.filterMap SlotTask.reserving := List.mem_filterMap.mpr ⟨_, hmem, rfl⟩
    exact (List.nodup_cons.mp hright).1 hmem'

/-- One task apart from the others. -/
theorem mem_split {l r : List SlotTask} {t u : SlotTask} :
    u ∈ l ++ t :: r ↔ u = t ∨ u ∈ l ∨ u ∈ r := by
  rw [List.mem_append, List.mem_cons]
  tauto

/-- A reservation's step, given what it does to the set: only its own id can
come in, and its own id is in exactly where the new program counter says. -/
theorem SlotInv.reserve {slots slots' : Finset String} {l r : List SlotTask} {id : String}
    {pc pc' : ReservePc} (h : SlotInv slots (l ++ .reserve id pc :: r))
    (hpc : pc ≠ .admitted) (hsub : ∀ id' ∈ slots', id' ≠ id → id' ∈ slots)
    (hown : id ∈ slots' → pc'.Inside) : SlotInv slots' (l ++ .reserve id pc' :: r) := by
  obtain ⟨honce, hinside, hholder, hgone⟩ := h
  have hothers : ∀ {pc''}, SlotTask.reserve id pc'' ∈ l ∨ SlotTask.reserve id pc'' ∈ r → False :=
    fun hmem => reserve_notMem_others honce rfl hmem
  refine ⟨?_, ?_, ?_, ?_⟩
  · simpa [List.filterMap_append, List.filterMap_cons, SlotTask.reserving] using honce
  · intro id' hid'
    by_cases heq : id' = id
    · subst heq
      exact ⟨pc', mem_split.mpr (.inl rfl), hown hid'⟩
    · obtain ⟨pc'', hmem, hin⟩ := hinside id' (hsub id' hid' heq)
      rcases mem_split.mp hmem with hself | hmem
      · exact absurd (SlotTask.reserve.inj hself).1 heq
      · exact ⟨pc'', mem_split.mpr (.inr hmem), hin⟩
  · intro id' pc'' hmem
    have hrelease := (mem_split.mp hmem).resolve_left (by simp)
    rcases mem_split.mp (hholder id' pc'' (mem_split.mpr (.inr hrelease))) with hself | hmem'
    · exact absurd (SlotTask.reserve.inj hself).2.symm hpc
    · exact mem_split.mpr (.inr hmem')
  · intro id' hmem hid'
    have hrelease := (mem_split.mp hmem).resolve_left (by simp)
    have hmem' : SlotTask.release id' .released ∈ l ++ .reserve id pc :: r :=
      mem_split.mpr (.inr hrelease)
    by_cases heq : id' = id
    · -- A released id is admitted, and the one that moves is not.
      subst heq
      rcases mem_split.mp (hholder id' _ hmem') with hself | hadmitted
      · exact hpc (SlotTask.reserve.inj hself).2.symm
      · exact hothers hadmitted
    · exact hgone id' hmem' (hsub id' hid' heq)

/-- A release's step: its own id goes. -/
theorem SlotInv.release {slots slots' : Finset String} {l r : List SlotTask} {id : String}
    (h : SlotInv slots (l ++ .release id .srem :: r)) (hsub : slots' ⊆ slots.erase id) :
    SlotInv slots' (l ++ .release id .released :: r) := by
  obtain ⟨honce, hinside, hholder, hgone⟩ := h
  have hkept : ∀ {id' pc}, SlotTask.reserve id' pc ∈ l ++ .release id .srem :: r →
      SlotTask.reserve id' pc ∈ l ++ .release id .released :: r := by
    intro id' pc hmem
    exact mem_split.mpr (.inr ((mem_split.mp hmem).resolve_left (by simp)))
  refine ⟨?_, ?_, ?_, ?_⟩
  · simpa [List.filterMap_append, List.filterMap_cons, SlotTask.reserving] using honce
  · intro id' hid'
    obtain ⟨pc, hmem, hin⟩ := hinside id' (Finset.mem_of_mem_erase (hsub hid'))
    exact ⟨pc, hkept hmem, hin⟩
  · intro id' pc hmem
    rcases mem_split.mp hmem with hself | hmem
    · obtain ⟨rfl, -⟩ := SlotTask.release.inj hself
      exact hkept (hholder _ _ (mem_split.mpr (.inl rfl)))
    · exact hkept (hholder id' pc (mem_split.mpr (.inr hmem)))
  · intro id' hmem hid'
    rcases mem_split.mp hmem with hself | hmem
    · obtain ⟨rfl, -⟩ := SlotTask.release.inj hself
      exact Finset.notMem_erase _ _ (hsub hid')
    · exact hgone id' (mem_split.mpr (.inr hmem)) (Finset.mem_of_mem_erase (hsub hid'))

section Inv

variable {settings : ValidSettings} {principal : AgentPrincipal} {now : ℚ} {w w' : RedisServer}
  {t t' : SlotTask} {l r ts : List SlotTask}

/-- One more task that has not begun. -/
theorem SlotInv.start (h : SlotInv (held principal w) ts)
    (hstart : WellStarted ⟨w, ts⟩ (.start t)) : SlotInv (held principal w) (ts ++ [t]) := by
  obtain ⟨honce, hinside, hholder, hgone⟩ := h
  have hold : ∀ {u}, u ∈ ts → u ∈ ts ++ [t] := fun hu => List.mem_append_left _ hu
  have hinside' : ∀ id ∈ held principal w, ∃ pc, .reserve id pc ∈ ts ++ [t] ∧ pc.Inside := by
    intro id hid
    obtain ⟨pc, hmem, hin⟩ := hinside id hid
    exact ⟨pc, hold hmem, hin⟩
  cases t with
  | reserve id pc =>
    obtain ⟨rfl, hfresh⟩ := hstart
    refine ⟨?_, hinside', ?_, ?_⟩
    · rw [List.filterMap_append]
      refine List.nodup_append.mpr ⟨honce, List.nodup_singleton id, ?_⟩
      intro a ha b hb hab
      obtain rfl := List.mem_singleton.mp hb
      subst hab
      obtain ⟨u, hu, hreserving⟩ := List.mem_filterMap.mp ha
      exact hfresh u hu hreserving
    · intro id' pc' hmem
      exact hold (hholder id' pc' (by simpa using hmem))
    · intro id' hmem
      exact hgone id' (by simpa using hmem)
  | release id pc =>
    obtain ⟨rfl, hadmitted⟩ := hstart
    refine ⟨?_, hinside', ?_, ?_⟩
    · rw [List.filterMap_append]
      simpa [List.filterMap_cons, SlotTask.reserving] using honce
    · intro id' pc' hmem
      rcases List.mem_append.mp hmem with hmem | hmem
      · exact hold (hholder id' pc' hmem)
      · obtain ⟨rfl, -⟩ := SlotTask.release.inj (List.mem_singleton.mp hmem)
        exact hold hadmitted
    · intro id' hmem
      exact hgone id' (by simpa using hmem)

/-- **One command keeps the invariant.** -/
theorem SlotInv.step (h : SlotInv (held principal w) (l ++ t :: r))
    (hadv : (slotCommands settings principal).advance now w t = some (w', t')) :
    SlotInv (held principal w') (l ++ t' :: r) := by
  have hstep := slotStep_of_advance hadv
  generalize held principal w' = slots' at hstep ⊢
  cases hstep with
  | added =>
    refine h.reserve (by decide) ?_ fun _ => trivial
    intro id' hid' hne
    exact seen_subset_held ((Finset.mem_insert.mp hid').resolve_left hne)
  | expired => exact h.reserve (by decide) (fun _ hid _ => hid) fun _ => trivial
  | overLimit => exact h.reserve (by decide) (fun _ hid _ => hid) fun _ => trivial
  | withinLimit => exact h.reserve (by decide) (fun _ hid _ => hid) fun _ => trivial
  | withdrawn =>
    refine h.reserve (by decide) ?_ fun hid => absurd hid (Finset.notMem_erase _ _)
    intro id' hid' _
    exact seen_subset_held (Finset.mem_of_mem_erase hid')
  | released => exact h.release (Finset.erase_subset_erase _ seen_subset_held)

/-- **Every run keeps the invariant**, whether or not the set lapses. -/
theorem slotInv_of_run {acts : List (Act SlotTask ℚ)} {c c' : Conf RedisServer SlotTask}
    (hrun : (slotCommands settings principal).Run WellStarted c acts c')
    (h : SlotInv (held principal c.world) c.tasks) :
    SlotInv (held principal c'.world) c'.tasks :=
  System.Run.invariant (I := fun c => SlotInv (held principal c.world) c.tasks)
    (fun _ _ _ hstart hI => hI.start hstart) (fun _ _ _ _ _ _ _ _ hadv hI => hI.step hadv) hrun h

end Inv

/-- An id has one reservation, at one program counter. -/
theorem SlotInv.unique {slots : Finset String} {tasks : List SlotTask} (h : SlotInv slots tasks)
    {id : String} {pc pc' : ReservePc} (hpc : .reserve id pc ∈ tasks)
    (hpc' : .reserve id pc' ∈ tasks) : pc = pc' := by
  obtain ⟨l, r, rfl⟩ := List.append_of_mem hpc
  rcases mem_split.mp hpc' with heq | hmem
  · exact (SlotTask.reserve.inj heq).2.symm
  · exact (reserve_notMem_others h.once rfl hmem).elim

/-- A withdrawn id is not in the set. -/
theorem SlotInv.notMem_of_rejected {slots : Finset String} {tasks : List SlotTask}
    (h : SlotInv slots tasks) {id : String} (hmem : .reserve id .rejected ∈ tasks) :
    id ∉ slots := by
  intro hid
  obtain ⟨pc, hpc, hin⟩ := h.inside id hid
  obtain rfl := h.unique hmem hpc
  exact hin

/-! ## Counting -/

/-- The id of a reservation that returned normally. -/
def SlotTask.admittedId : SlotTask → Option String
  | .reserve id .admitted => some id
  | _ => none

/-- The reservations that returned normally and have not been released. -/
def activeIds (tasks : List SlotTask) : List String :=
  (tasks.filterMap SlotTask.admittedId).filter fun id => decide (.release id .released ∉ tasks)

/-- Every reservation inside is in the set until it is released. -/
def Kept (slots : Finset String) (tasks : List SlotTask) : Prop :=
  ∀ id pc, .reserve id pc ∈ tasks → pc.Inside → .release id .released ∉ tasks → id ∈ slots

/-- An active id is admitted and not released. -/
theorem mem_activeIds {tasks : List SlotTask} {id : String} :
    id ∈ activeIds tasks ↔ .reserve id .admitted ∈ tasks ∧ .release id .released ∉ tasks := by
  unfold activeIds
  rw [List.mem_filter, List.mem_filterMap, decide_eq_true_eq]
  refine and_congr_left fun _ => ?_
  constructor
  · intro hmem
    obtain ⟨t, ht, hid⟩ := hmem
    unfold SlotTask.admittedId at hid
    split at hid
    next => exact Option.some.inj hid ▸ ht
    next => cases hid
  · exact fun ht => ⟨_, ht, rfl⟩

/-- No id is active twice. -/
theorem SlotInv.activeIds_nodup {slots : Finset String} {tasks : List SlotTask}
    (h : SlotInv slots tasks) : (activeIds tasks).Nodup := by
  have hadmitted : tasks.filterMap SlotTask.admittedId
      = (tasks.filter fun t => t.admittedId.isSome).filterMap SlotTask.reserving := by
    rw [List.filterMap_filter]
    refine List.filterMap_congr fun t _ => ?_
    cases t with
    | reserve id pc => cases pc <;> rfl
    | release id pc => rfl
  have hsub := (List.filter_sublist (p := fun t : SlotTask => t.admittedId.isSome)
    (l := tasks)).filterMap SlotTask.reserving
  rw [← hadmitted] at hsub
  exact (hsub.nodup h.once).filter _

/-- There are no more active ids than slots. -/
theorem length_activeIds_le {slots : Finset String} {tasks : List SlotTask}
    (h : SlotInv slots tasks) (hkept : Kept slots tasks) :
    (activeIds tasks).length ≤ slots.card := by
  rw [← List.toFinset_card_of_nodup h.activeIds_nodup]
  refine Finset.card_le_card fun id hid => ?_
  obtain ⟨hadmitted, hunreleased⟩ := mem_activeIds.mp (List.mem_toFinset.mp hid)
  exact hkept id .admitted hadmitted trivial hunreleased

/-- Nobody new is active unless somebody is admitted. -/
theorem length_activeIds_mono {tasks tasks' : List SlotTask}
    (hadmitted : tasks'.filterMap SlotTask.admittedId = tasks.filterMap SlotTask.admittedId)
    (hreleased : ∀ id, .release id .released ∈ tasks → .release id .released ∈ tasks') :
    (activeIds tasks').length ≤ (activeIds tasks).length := by
  unfold activeIds
  rw [hadmitted]
  refine (List.monotone_filter_right _ ?_).length_le
  intro id hid
  rw [decide_eq_true_eq] at hid ⊢
  exact fun hmem => hid (hreleased id hmem)

section Bound

variable {settings : ValidSettings} {principal : AgentPrincipal} {now : ℚ} {w w' : RedisServer}
  {t t' : SlotTask} {l r ts : List SlotTask}

/-- A reservation's step keeps the others inside. -/
theorem Kept.reserve {slots slots' : Finset String} {id : String} {pc pc' : ReservePc}
    (hinv : SlotInv slots (l ++ .reserve id pc :: r)) (h : Kept slots (l ++ .reserve id pc :: r))
    (hsub : ∀ id' ∈ slots, id' ≠ id → id' ∈ slots')
    (hown : pc'.Inside → (pc.Inside → id ∈ slots) → id ∈ slots') :
    Kept slots' (l ++ .reserve id pc' :: r) := by
  intro id' pc'' hmem hin hunreleased
  have hunreleased' : ∀ id'', id'' = id' →
      SlotTask.release id'' .released ∉ l ++ .reserve id pc :: r := by
    intro id'' heq hmem'
    subst heq
    exact hunreleased (mem_split.mpr (.inr ((mem_split.mp hmem').resolve_left (by simp))))
  rcases mem_split.mp hmem with hself | hother
  · obtain ⟨rfl, rfl⟩ := SlotTask.reserve.inj hself
    refine hown hin fun hin' => ?_
    exact h id' pc (mem_split.mpr (.inl rfl)) hin' (hunreleased' id' rfl)
  · by_cases heq : id' = id
    · subst heq
      exact (reserve_notMem_others hinv.once rfl hother).elim
    · exact hsub id' (h id' pc'' (mem_split.mpr (.inr hother)) hin (hunreleased' id' rfl)) heq

/-- A command keeps every reservation in the set. -/
theorem Kept.step (hinv : SlotInv (held principal w) (l ++ t :: r))
    (h : Kept (held principal w) (l ++ t :: r)) (hlive : Unlapsed principal now w)
    (hadv : (slotCommands settings principal).advance now w t = some (w', t')) :
    Kept (held principal w') (l ++ t' :: r) := by
  have hstep := slotStep_of_advance hadv
  have hseen := seen_eq_held hlive
  generalize held principal w' = slots' at hstep ⊢
  cases hstep with
  | added =>
    refine h.reserve hinv ?_ ?_
    · intro id' hid' _
      rw [hseen]
      exact Finset.mem_insert_of_mem hid'
    · exact fun _ _ => Finset.mem_insert_self _ _
  | expired => exact h.reserve hinv (fun _ hid _ => hid) (fun _ hown => hown trivial)
  | overLimit =>
    exact h.reserve hinv (fun _ hid _ => hid) (fun _ hown => hown trivial)
  | withinLimit =>
    exact h.reserve hinv (fun _ hid _ => hid) (fun _ hown => hown trivial)
  | withdrawn =>
    refine h.reserve hinv ?_ (fun hin _ => hin.elim)
    intro id' hid' hne
    rw [hseen]
    exact Finset.mem_erase.mpr ⟨hne, hid'⟩
  | @released id =>
    intro id' pc hmem hin hunreleased
    have hmem' := (mem_split.mp hmem).resolve_left (by simp)
    have hne : id' ≠ id := by
      intro heq
      subst heq
      exact hunreleased (mem_split.mpr (.inl rfl))
    rw [hseen]
    refine Finset.mem_erase.mpr ⟨hne, h id' pc (mem_split.mpr (.inr hmem')) hin ?_⟩
    intro hreleased
    exact hunreleased (mem_split.mpr (.inr ((mem_split.mp hreleased).resolve_left (by simp))))

/-- The bound across one step: the call admitted has counted the set. -/
theorem length_activeIds_step (hinv : SlotInv (held principal w) (l ++ t :: r))
    (h : Kept (held principal w) (l ++ t :: r)) (hlive : Unlapsed principal now w)
    (hadv : (slotCommands settings principal).advance now w t = some (w', t'))
    (hbound : ((activeIds (l ++ t :: r)).length : ℤ) ≤ max principal.concurrentLimit 0) :
    ((activeIds (l ++ t' :: r)).length : ℤ) ≤ max principal.concurrentLimit 0 := by
  have hcard := length_activeIds_le (hinv.step hadv) (h.step hinv hlive hadv)
  have hstep := slotStep_of_advance hadv
  have hmono : t'.admittedId = t.admittedId → (∀ id, t = .release id .released → False) →
      ((activeIds (l ++ t' :: r)).length : ℤ) ≤ max principal.concurrentLimit 0 := by
    intro hsame hnot
    refine le_trans ?_ hbound
    exact_mod_cast length_activeIds_mono
      (by simp [List.filterMap_append, List.filterMap_cons, hsame])
      fun id hmem => mem_split.mpr (.inr ((mem_split.mp hmem).resolve_left
        fun heq => hnot id heq.symm))
  generalize held principal w' = slots' at hstep hcard
  cases hstep with
  | withinLimit hle =>
    rw [seen_eq_held hlive] at hle
    refine le_trans ?_ (le_max_left _ _)
    exact le_trans (by exact_mod_cast hcard) hle
  | added => exact hmono rfl (by simp)
  | expired => exact hmono rfl (by simp)
  | overLimit => exact hmono rfl (by simp)
  | withdrawn => exact hmono rfl (by simp)
  | released => exact hmono rfl (by simp)

/-- The reservations of a reachable state: where they come from, that they
are kept, and how many there are. -/
structure Reached (principal : AgentPrincipal) (c : Conf RedisServer SlotTask) : Prop where
  inv : SlotInv (held principal c.world) c.tasks
  kept : Kept (held principal c.world) c.tasks
  bound : ((activeIds c.tasks).length : ℤ) ≤ max principal.concurrentLimit 0

/-- Nothing is held at first. -/
theorem reached_start (hempty : w.redis.sets (concurrencyKey principal.quotaKey) = none) :
    Reached principal ⟨w, []⟩ := by
  have hheld : held principal w = ∅ := by
    unfold held Redis.heldAt
    rw [hempty]
    rfl
  refine ⟨⟨List.nodup_nil, ?_, by simp, by simp⟩, by simp [Kept], by simp [activeIds]⟩
  rw [hheld]
  simp

/-- So it is with every run before the deadline. -/
theorem reached_of_run {acts : List (Act SlotTask ℚ)} {c c' : Conf RedisServer SlotTask}
    (hrun : (slotCommands settings principal).Run
      (fun c a => WellStarted c a ∧ BeforeDeadline principal c a) c acts c')
    (h : Reached principal c) : Reached principal c' := by
  refine System.Run.invariant (I := Reached principal) ?_ ?_ hrun h
  · intro w ts t hok hI
    refine ⟨hI.inv.start hok.1, ?_, ?_⟩
    · intro id pc hmem hin hunreleased
      rcases List.mem_append.mp hmem with hmem | hmem
      · exact hI.kept id pc hmem hin fun hold => hunreleased (List.mem_append_left _ hold)
      · -- A call starts outside.
        obtain rfl := List.mem_singleton.mp hmem
        rw [hok.1.1] at hin
        exact hin.elim
    · refine le_trans ?_ hI.bound
      have hnone : t.admittedId = none := by
        cases t with
        | reserve id pc =>
          rw [hok.1.1]
          rfl
        | release id pc => rfl
      exact_mod_cast length_activeIds_mono (by simp [List.filterMap_append, hnone])
        fun id hmem => List.mem_append_left _ hmem
  · intro w l t r now w' t' hok hadv hI
    exact ⟨hI.inv.step hadv, hI.kept.step hI.inv hok.2 hadv,
      length_activeIds_step hI.inv hI.kept hok.2 hadv hI.bound⟩

end Bound

/-- **The Redis quota never over-admits.** In every state reachable from an
empty set by interleaving the commands of any reservations and releases, with
no lapse on the way, the reservations that returned and were not released are
at most the limit (a negative limit admits nobody), and a rejected id is not
in the set. -/
theorem redis_never_over_admits (settings : ValidSettings) (principal : AgentPrincipal)
    (w : RedisServer) (hempty : w.redis.sets (concurrencyKey principal.quotaKey) = none)
    (acts : List (Act SlotTask ℚ)) (c : Conf RedisServer SlotTask)
    (hrun : (slotCommands settings principal).Run
      (fun c a => WellStarted c a ∧ BeforeDeadline principal c a) ⟨w, []⟩ acts c) :
    ((activeIds c.tasks).length : ℤ) ≤ max principal.concurrentLimit 0
      ∧ ∀ id, .reserve id .rejected ∈ c.tasks → id ∉ held principal c.world := by
  have hreached := reached_of_run hrun (reached_start hempty)
  exact ⟨hreached.bound, fun id hmem => hreached.inv.notMem_of_rejected hmem⟩

/-- An agent with one slot. -/
def oneSlot : AgentPrincipal :=
  { callerOf ("internal", "agent-1") with concurrentLimit := 1 }

/-- One call after the other, and the first released: the second finds the
slot taken. -/
def slotTaken : List (Act SlotTask ℚ) :=
  [.start (.reserve "d1" .sadd), .run 0 0, .run 0 0, .run 0 0,
    .start (.reserve "d2" .sadd), .run 1 1, .run 1 1, .run 1 1, .run 1 2,
    .start (.release "d1" .srem), .run 2 3]

/-- The one slot is taken, and the second id is not in the set. -/
theorem redis_never_over_admits_slotTaken :
    ∃ c : Conf RedisServer SlotTask, SlotTask.reserve "d2" .rejected ∈ c.tasks
      ∧ ((activeIds c.tasks).length : ℤ) ≤ max oneSlot.concurrentLimit 0
      ∧ ∀ id, .reserve id .rejected ∈ c.tasks → id ∉ held oneSlot c.world := by
  have htrace : ((slotCommands {} oneSlot).execIf
      (fun c a => decide (WellStarted c a ∧ BeforeDeadline oneSlot c a)) ⟨{}, []⟩ slotTaken).any
      (fun c => decide (SlotTask.reserve "d2" .rejected ∈ c.tasks)) = true := by
    decide +kernel
  obtain ⟨c, hrun, hrejected⟩ := System.exists_run_of_any htrace
  exact ⟨c, of_decide_eq_true hrejected,
    redis_never_over_admits {} oneSlot {} rfl slotTaken c hrun⟩

end ControlPlane
