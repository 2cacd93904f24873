import ControlPlane.RedisCommands

/-!
# Open decisions within the limit

A failure between two effects leaves slots that nothing gives back: a call
that raises after its `SADD`, a release that is lost
(`failed_creation_clean_iff`, `lost_release_never_made_up`). The slot sets in
Redis are then more than the open decisions and the calls in flight, and the
books of `Ledger` do not balance.

They are never less. Whatever fails, an open decision keeps its slot, unless
the acknowledgement of its own insert is lost, and the call that is admitted
has counted all that were admitted before it. So an agent's open decisions
stay within its limit, however the commands of the calls interleave
(`commands_open_within_limit`).

The proof counts twice. What the rows and the calls in flight need is among
the ids admitted and not released, for any manager of slot sets
(`KeepsSlots`); those are among the members in Redis (`SlotsCover`).
-/

namespace ControlPlane

open Lib

/-! ## What the rows and the calls need -/

section Needs

variable {Q : Type} {D : Deps Q} {env : Env} {w w' : World Q} {t t' : Task}

/-- A step gives up no slot that the rows or a call still need. -/
def KeepsSlots (D : Deps Q) (w w' : World Q) (t t' : Task) : Prop :=
  ∀ key, (D.quotaManager.held w.quota key).val + (w'.openIds key + t'.stage.slots key)
    ≤ (D.quotaManager.held w'.quota key).val + (w.openIds key + t.stage.slots key)

/-- Slots that stay, with rows and tasks that need no more of them. -/
theorem KeepsSlots.of_le
    (hslots : ∀ key, D.quotaManager.held w.quota key ⊆ D.quotaManager.held w'.quota key)
    (hrows : ∀ key, w'.openIds key ≤ w.openIds key)
    (hstage : ∀ key, t'.stage.slots key ≤ t.stage.slots key) : KeepsSlots D w w' t t' :=
  fun key => add_le_add (Finset.val_le_iff.mpr (hslots key)) (add_le_add (hrows key) (hstage key))

/-- One owner's set loses an id. -/
theorem val_update_erase {slots : Slots} {owner : String × String} {id : String}
    (hid : id ∈ slots owner) (key : String × String) :
    (Function.update slots owner ((slots owner).erase id) key).val
      + (if owner = key then {id} else 0) = (slots key).val := by
  by_cases hkey : owner = key
  · subst hkey
    rw [Function.update_self, if_pos rfl, Finset.erase_val, add_comm, Multiset.singleton_add,
      Multiset.cons_erase (Finset.mem_val.mpr hid)]
  · rw [Function.update_of_ne (Ne.symm hkey), if_neg hkey, add_zero]

/-- One owner's set gains an id. -/
theorem val_update_insert {slots : Slots} {owner : String × String} {id : String}
    (hid : id ∉ slots owner) (key : String × String) :
    (Function.update slots owner (insert id (slots owner)) key).val
      = (slots key).val + if owner = key then {id} else 0 := by
  by_cases hkey : owner = key
  · subst hkey
    rw [Function.update_self, if_pos rfl, Finset.insert_val_of_notMem hid, add_comm,
      Multiset.singleton_add]
  · rw [Function.update_of_ne (Ne.symm hkey), if_neg hkey, add_zero]

/-- A release that raises may have taken out what the call holds. -/
theorem KeepsSlots.releaseRaised {p : AgentPrincipal} {id : String}
    (hw : w' = w ∨ w' = w.releaseSlot D p id) (hid : id ∈ D.quotaManager.held w.quota p.quotaKey)
    (hslots : ∀ key, t.stage.slots key = if p.quotaKey = key then {id} else 0)
    (hslots' : ∀ key, t'.stage.slots key = 0) : KeepsSlots D w w' t t' := by
  rcases hw with rfl | rfl
  · exact .of_le (fun _ => Finset.Subset.refl _) (fun _ => le_rfl)
      fun key => (hslots' key).symm ▸ Multiset.zero_le _
  · intro key
    have herase := val_update_erase hid key
    have hheld : D.quotaManager.held (w.releaseSlot D p id).quota = _ :=
      D.quotaManager.release_held p id w.quota
    rw [hslots, hslots', hheld, ← herase]
    have hrows : (w.releaseSlot D p id).openIds key = w.openIds key := rfl
    rw [hrows]
    refine le_of_eq ?_
    abel

/-- A refused reservation takes out what was not in. -/
theorem held_subset_refused {p : AgentPrincipal} {id : String} {q q' : Q} {err : ServiceError}
    (hq : D.quotaManager.reserveConcurrency p id q = (q', .error err))
    (hnew : ∀ key, id ∉ D.quotaManager.held q key) (key : String × String) :
    D.quotaManager.held q key ⊆ D.quotaManager.held q' key := by
  rw [(D.quotaManager.reserve_refusal hq).2]
  by_cases hkey : key = p.quotaKey
  · subst hkey
    rw [Function.update_self, Finset.erase_eq_of_notMem (hnew _)]
  · rw [Function.update_of_ne hkey]

/-- A reservation that raises may have taken a slot, of which nothing is known
after. -/
theorem held_subset_reserveRaised {p : AgentPrincipal} {id : String} {q q' : Q}
    (hq : q' = q ∨ q' = (D.quotaManager.reserveConcurrency p id q).1)
    (hnew : ∀ key, id ∉ D.quotaManager.held q key) (key : String × String) :
    D.quotaManager.held q key ⊆ D.quotaManager.held q' key := by
  rcases hq with rfl | rfl
  · exact Finset.Subset.refl _
  · rcases hres : D.quotaManager.reserveConcurrency p id q with ⟨q', err | ⟨⟩⟩
    · exact held_subset_refused hres hnew key
    · rw [D.quotaManager.reserve_held hres]
      by_cases hkey : key = p.quotaKey
      · subst hkey
        rw [Function.update_self]
        exact Finset.subset_insert _ _
      · rw [Function.update_of_ne hkey]

/-- A creation's step keeps the slots. -/
theorem CreateStep.keepsSlots {call : CreateCall} {pc pc' : CreatePc}
    (h : CreateStep D env call w pc w' pc')
    (hfault : (Task.create call pc).await = some .createDecision → env.fault ≠ .raisesAfter)
    (hfresh : ∀ id, (Task.create call pc).unreserved = some id →
      ∀ key, id ∉ D.quotaManager.held w.quota key)
    (hslot : ∀ id ∈ (Task.create call pc).stage.slots call.principal.quotaKey,
      id ∈ D.quotaManager.held w.quota call.principal.quotaKey) :
    KeepsSlots D w w' (.create call pc) (.create call pc') := by
  have hrpm := D.quotaManager.rpm_held env.clock call.principal w.quota
  have hsame : ∀ {w' : World Q} {pc' : CreatePc},
      D.quotaManager.held w'.quota = D.quotaManager.held w.quota →
      w'.tables.decisions = w.tables.decisions →
      (∀ key, (Task.create call pc').stage.slots key ≤ (Task.create call pc).stage.slots key) →
      KeepsSlots D w w' (.create call pc) (.create call pc') := by
    intro w' pc' hheld hrows hstage
    refine .of_le (fun key => hheld ▸ Finset.Subset.refl _) (fun key => ?_) hstage
    rw [World.openIds, World.openIds, hrows]
  cases h with
  | rpmRaised _ hq =>
    refine hsame ?_ rfl fun _ => le_rfl
    rcases hq with rfl | rfl
    · rfl
    · exact hrpm
  | rpmRefused _ hq | rpmPassed _ hq =>
    rw [hq] at hrpm
    exact hsame hrpm rfl fun _ => le_rfl
  | catalogKept => exact hsame rfl (by simp) fun _ => le_rfl
  | metadataSkipped _ htables =>
    exact hsame rfl (by rcases htables with rfl | rfl <;> simp) fun _ => le_rfl
  | policiesKept htables =>
    exact hsame rfl (by rcases htables with rfl | rfl <;> simp) fun _ => le_rfl
  | reserveRaised _ hq =>
    exact .of_le (held_subset_reserveRaised hq (hfresh _ rfl)) (fun _ => le_rfl) fun _ => le_rfl
  | reserveRefused _ hq =>
    exact .of_le (held_subset_refused hq (hfresh _ rfl)) (fun _ => le_rfl) fun _ => le_rfl
  | @reserved _ _ decisionId q _ hq =>
    intro key
    rw [D.quotaManager.reserve_held hq,
      val_update_insert (hfresh decisionId rfl call.principal.quotaKey) key]
    refine le_of_eq ?_
    simp only [Task.stage, Stage.slots, World.openIds]
    abel
  -- A commit that goes through and raises would leave an open row without its slot.
  | storeLost hf => exact absurd hf (hfault rfl)
  | stored _ hins =>
    intro key
    have hopen := openIds_inserted hins key
    simp only [World.openIds, Task.stage, Stage.slots] at hopen ⊢
    rw [hopen, add_zero]
  | @releaseRaised decisionId err w' _ hw =>
    exact .releaseRaised hw (hslot decisionId (by simp [Task.stage, Stage.slots])) (fun _ => rfl)
      fun _ => rfl
  | @released decisionId err _ =>
    exact .releaseRaised (.inr rfl) (hslot decisionId (by simp [Task.stage, Stage.slots]))
      (fun _ => rfl) fun _ => rfl
  | _ => exact hsame rfl rfl fun _ => le_rfl

/-- Storing an outcome opens no row. -/
theorem openIds_storeOutcome_le {record : RoutingDecisionRecord} {call : OutcomeCall}
    {tables : Tables} {response : RoutingOutcomeResponse}
    (hrec : recordOutcome record call.outcome call.idempotencyKey w.tables
      = .ok (tables, response)) (hnodup : w.rowIds.Nodup) (key : String × String) :
    World.openIds { w with tables } key ≤ w.openIds key := by
  rcases recordOutcome_rowStep hrec with ⟨rfl, -⟩ | ⟨decision, hctx, hopen, rfl, -⟩
  · exact le_rfl
  · obtain ⟨hmem, hid⟩ := Tables.getDecisionContext_some hctx
    rw [← (openIds_completed hmem hopen hnodup (by rw [hid])).1 key]
    exact Multiset.le_add_right _ _

/-- A report's step keeps the slots. -/
theorem OutcomeStep.keepsSlots {call : OutcomeCall} {pc pc' : OutcomePc}
    (h : OutcomeStep D env call w pc w' pc') (hnodup : w.rowIds.Nodup)
    (hrow : ∀ record decision, pc = .storeOutcome record → decision ∈ w.tables.decisions →
      decision.decisionId = record.decisionId →
      decision.quotaKey = call.principal.quotaKey
        ∧ decision.decisionId = call.outcome.decisionId)
    (hslot : ∀ id ∈ (Task.outcome call pc).stage.slots call.principal.quotaKey,
      id ∈ D.quotaManager.held w.quota call.principal.quotaKey) :
    KeepsSlots D w w' (.outcome call pc) (.outcome call pc') := by
  have hrpm := D.quotaManager.rpm_held env.clock call.principal w.quota
  have hsame : ∀ {w' : World Q} {pc' : OutcomePc},
      D.quotaManager.held w'.quota = D.quotaManager.held w.quota →
      (∀ key, w'.openIds key ≤ w.openIds key) →
      (∀ key, (Task.outcome call pc').stage.slots key ≤ (Task.outcome call pc).stage.slots key) →
      KeepsSlots D w w' (.outcome call pc) (.outcome call pc') :=
    fun hheld hrows hstage => .of_le (fun key => hheld ▸ Finset.Subset.refl _) hrows hstage
  cases h with
  | rpmRaised _ hq =>
    refine hsame ?_ (fun _ => le_rfl) fun _ => le_rfl
    rcases hq with rfl | rfl
    · rfl
    · exact hrpm
  | rpmRefused _ hq | rpmPassed _ hq =>
    rw [hq] at hrpm
    exact hsame hrpm (fun _ => le_rfl) fun _ => le_rfl
  | storeLost _ hrec => exact hsame rfl (openIds_storeOutcome_le hrec hnodup) fun _ => le_rfl
  | recorded _ hrec hstatus =>
    rcases recordOutcome_rowStep hrec with ⟨-, hdup⟩ | ⟨decision, hctx, hopen, rfl, -⟩
    · simp [hstatus] at hdup
    · -- The id moves from the open rows to the call.
      obtain ⟨hmem, hid⟩ := Tables.getDecisionContext_some hctx
      obtain ⟨hkey, hdid⟩ := hrow _ decision rfl hmem hid
      obtain ⟨hopenIds, -⟩ := openIds_completed hmem hopen hnodup
        (by rw [hid] : _ = w.tables.storeOutcome _ call.outcome call.idempotencyKey)
      rw [hdid] at hopenIds
      intro key
      simp only [Task.stage, Stage.slots]
      rw [← hopenIds key, hkey, add_zero]
  | duplicate _ hrec hstatus =>
    refine hsame rfl (openIds_storeOutcome_le hrec hnodup) fun key => ?_
    simp [Task.stage, hstatus]
  | @releaseRaised response w' _ hw =>
    exact .releaseRaised hw (hslot _ (by simp [Task.stage, Stage.slots])) (fun _ => rfl)
      fun _ => rfl
  | @released response _ =>
    exact .releaseRaised (.inr rfl) (hslot _ (by simp [Task.stage, Stage.slots])) (fun _ => rfl)
      fun _ => rfl
  | spendRaised _ hw =>
    refine hsame ?_ (fun _ => by rcases hw with rfl | rfl <;> exact le_rfl) fun _ => le_rfl
    rcases hw with rfl | rfl
    · rfl
    · exact D.quotaManager.spend_held _ _ _ _
  | spent => exact hsame (D.quotaManager.spend_held _ _ _ _) (fun _ => le_rfl) fun _ => le_rfl
  | @published response _ =>
    refine hsame rfl (fun _ => le_rfl) fun key => ?_
    by_cases hstatus : response.outcomeStatus = .recorded <;>
      simp [Task.stage, hstatus, Stage.slots]
  | publishRaised | contextRaised | disowned | owned | storeRaised | storeRejected =>
    exact hsame rfl (fun _ => le_rfl) fun _ => le_rfl

end Needs

/-! ## One command -/

section Command

variable {Q : Type} {D : RedisDeps Q} {e : RedisEnv} {s s' : CreationWorld Q} {q q' : Slots}
  {t t' : CommandTask} {l r ts : List CommandTask} {caller : AgentPrincipal → Prop}

/-- Any command and any other await may fail, an insert not after its commit;
the caller's slot set is not asked past its deadline. -/
def InsertsAcknowledged (s : CreationWorld Q) (t : CommandTask) (e : RedisEnv) : Prop :=
  ∀ a, t.toTask.await = some a → (a = .createDecision → e.env.fault ≠ .raisesAfter)
    ∧ (a = .reserveConcurrency ∨ a = .releaseConcurrency → Unlapsed t.principal e.now s.server)

instance insertsAcknowledgedDecidable (s : CreationWorld Q) (t : CommandTask) (e : RedisEnv) :
    Decidable (InsertsAcknowledged s t e) :=
  match hawait : t.toTask.await with
  | none => .isTrue (by simp [InsertsAcknowledged, hawait])
  | some a =>
    decidable_of_iff ((a = .createDecision → e.env.fault ≠ .raisesAfter)
      ∧ (a = .reserveConcurrency ∨ a = .releaseConcurrency → Unlapsed t.principal e.now s.server))
      (by simp [InsertsAcknowledged, hawait])

/-- What the rows and the calls need has been admitted and not released, what
has been is in the sets, and so is what waits for an answer; and no more than
the limit has been admitted. -/
structure SlotsCover (caller : AgentPrincipal → Prop) (q : Slots)
    (c : Conf (CreationWorld Q) CommandTask) : Prop where
  covered : ∀ key, c.world.world.openIds key + sumOver (·.toTask.stage.slots key) c.tasks
    ≤ (q key).val
  kept : ∀ p, caller p →
    q p.quotaKey ⊆ c.world.server.redis.heldAt (concurrencyKey p.quotaKey)
  waiting : ∀ t ∈ c.tasks, ∀ id, t.waiting = some id →
    id ∈ c.world.server.redis.heldAt (concurrencyKey t.principal.quotaKey)
  limit : ∀ p, caller p → ((q p.quotaKey).card : ℤ) ≤ max p.concurrentLimit 0

/-- An id that waits is not reserved yet. -/
theorem CommandTask.unreserved_of_waiting {id : String} (h : t.waiting = some id) :
    t.toTask.unreserved = some id := by
  unfold CommandTask.waiting at h
  split at h
  all_goals first | exact h | cases h

/-- A call that has just begun needs no slot. -/
theorem SlotsCover.start (h : SlotsCover caller q ⟨s, ts⟩) (hstarted : t.Started) :
    SlotsCover caller q ⟨s, ts ++ [t]⟩ := by
  refine ⟨fun key => ?_, h.kept, ?_, h.limit⟩
  · simpa [hstarted.toTask.stage_eq, Stage.slots] using h.covered key
  · intro u hu id hid
    rcases List.mem_append.mp hu with hu | hu
    · exact h.waiting u hu id hid
    · rw [List.mem_singleton.mp hu, hstarted.atOwn.2] at hid
      cases hid

/-- What the call that moves needs has been admitted. -/
theorem SlotsCover.mem_of_stage (h : SlotsCover caller q ⟨s, l ++ t :: r⟩) {id : String}
    {key : String × String} (hid : id ∈ t.toTask.stage.slots key) : id ∈ q key := by
  refine Finset.mem_val.mp (Multiset.mem_of_le (h.covered key) ?_)
  rw [sumOver_split]
  simp [hid]

/-- What the step leaves needed, it leaves admitted. -/
theorem SlotsCover.covered_run (h : SlotsCover caller q ⟨s, l ++ t :: r⟩)
    (hunique : ∀ p p', caller p → caller p' → p.agentId = p'.agentId → p = p')
    (hpermits : InsertsAcknowledged s t e)
    (hauthored : CommandsAuthored D caller q ⟨s, l ++ t :: r⟩)
    (himage : CommandImage D e s.world s'.world q q' t.toTask t'.toTask) (key : String × String) :
    s'.world.openIds key + sumOver (·.toTask.stage.slots key) (l ++ t' :: r) ≤ (q' key).val := by
  have hbefore := h.covered key
  cases himage with
  | nothing hworld hq htask =>
    rw [sumOver_split] at hbefore ⊢
    rw [hworld, hq, htask]
    exact hbefore
  | @steps script env hfault hadv =>
    have hmem : t.toTask ∈ (serviceConf ⟨s, l ++ t :: r⟩).tasks :=
      List.mem_map.mpr ⟨t, by simp, rfl⟩
    have hslot : ∀ id ∈ t.toTask.stage.slots t.toTask.principal.quotaKey,
        id ∈ q t.toTask.principal.quotaKey := fun id hid => h.mem_of_stage hid
    have hkeeps : KeepsSlots (D.scripted script) (s.world.overQuota q) (s'.world.overQuota q')
        t.toTask t'.toTask := by
      have hinsert : t.toTask.await = some .createDecision → env.fault ≠ .raisesAfter := by
        intro hawait
        rw [hfault _ hawait (by decide)]
        exact (hpermits _ hawait).1 rfl
      have hfresh := hauthored.provenance.unreserved _ hmem
      have hcaller := hauthored.context.callers _ hmem
      have hrow : ∀ call record decision, t.toTask = .outcome call (.storeOutcome record) →
          decision ∈ s.world.tables.decisions → decision.decisionId = record.decisionId →
          decision.quotaKey = call.principal.quotaKey
            ∧ decision.decisionId = call.outcome.decisionId := by
        intro call record decision htask hdecision hid
        rw [htask] at hmem hcaller
        obtain ⟨hrid, hagent, -⟩ := hauthored.context.row_of_checked
          hauthored.provenance.rows_nodup hmem hdecision hid
        obtain ⟨p, hp, hpagent, hpenv, -⟩ :=
          hauthored.context.creators _ (World.origin_mem hdecision)
        obtain rfl := hunique p call.principal hp hcaller (hpagent.symm.trans hagent)
        exact ⟨Prod.ext hpenv hpagent, hrid⟩
      generalize t.toTask = u at hadv hinsert hfresh hslot hrow
      generalize t'.toTask = u' at hadv
      rcases advance_cases hadv with
        ⟨call, pc, pc', rfl, rfl, hstep⟩ | ⟨call, pc, pc', rfl, rfl, hstep⟩
      · exact hstep.keepsSlots hinsert hfresh hslot
      · refine hstep.keepsSlots hauthored.provenance.rows_nodup ?_ hslot
        rintro record decision rfl hdecision hid
        exact hrow call record decision rfl hdecision hid
    have hstep : (q key).val + (s'.world.openIds key + t'.toTask.stage.slots key)
        ≤ (q' key).val + (s.world.openIds key + t.toTask.stage.slots key) := hkeeps key
    rw [sumOver_split] at hbefore ⊢
    -- What the step adds to the needs it adds to the set; the rest cancels.
    refine le_of_add_le_add_right (a := s.world.openIds key + t.toTask.stage.slots key) ?_
    calc _ = (s.world.openIds key + (t.toTask.stage.slots key
            + sumOver (·.toTask.stage.slots key) (l ++ r)))
          + (s'.world.openIds key + t'.toTask.stage.slots key) := by abel
      _ ≤ (q key).val + (s'.world.openIds key + t'.toTask.stage.slots key) :=
          add_le_add_left hbefore _
      _ ≤ _ := hstep

/-- A step is taken by its own caller. -/
theorem CommandStepped.principal (h : CommandStepped D e s s' q q' t t') :
    t'.principal = t.principal := by
  cases h.image with
  | nothing _ _ htask => exact congrArg Task.principal htask
  | steps _ _ _ hadv => exact (advance_idStep hadv).principal

/-- Sets that only grow, and nobody is admitted or released. -/
theorem SlotsCover.grows (h : SlotsCover caller q ⟨s, l ++ t :: r⟩)
    (hcovered : ∀ key, s'.world.openIds key + sumOver (·.toTask.stage.slots key) (l ++ t' :: r)
      ≤ (q key).val)
    (hheld : ∀ key, s.server.redis.heldAt key ⊆ s'.server.redis.heldAt key)
    (hwaiting : ∀ id, t'.waiting = some id →
      id ∈ s'.server.redis.heldAt (concurrencyKey t'.principal.quotaKey)) :
    SlotsCover caller q ⟨s', l ++ t' :: r⟩ := by
  refine ⟨hcovered, fun p hp => (h.kept p hp).trans (hheld _), ?_, h.limit⟩
  refine forall_mem_split.mpr ⟨hwaiting, fun u hu id hid => hheld _ ?_⟩
  exact (forall_mem_split.mp h.waiting).2 u hu id hid

/-- Under the callers' keys each has a set of its own. -/
theorem callers_apart (hunique : ∀ p p', caller p → caller p' → p.agentId = p'.agentId → p = p')
    (hsep : ∀ p, caller p → ':' ∉ p.agentId.toList) {p p' : AgentPrincipal} (hp : caller p)
    (hp' : caller p') (hne : p ≠ p') :
    p.quotaKey ≠ p'.quotaKey ∧ concurrencyKey p.quotaKey ≠ concurrencyKey p'.quotaKey := by
  have howner : p.quotaKey ≠ p'.quotaKey :=
    fun heq => hne (hunique p p' hp hp' (congrArg Prod.snd heq))
  exact ⟨howner, fun heq => howner (concurrencyKey_injOn _ _ (hsep p hp) (hsep p' hp') heq)⟩

section Moves

variable (h : SlotsCover caller q ⟨s, l ++ t :: r⟩) (hcaller : caller t.principal)
  (hapart : ∀ p, caller p → p ≠ t.principal → p.quotaKey ≠ t.principal.quotaKey
    ∧ concurrencyKey p.quotaKey ≠ concurrencyKey t.principal.quotaKey)
  (hcovered : ∀ key, s'.world.openIds key + sumOver (·.toTask.stage.slots key) (l ++ t' :: r)
    ≤ (q' key).val)
  (hafter : t'.waiting = none)

include h hcaller hapart hcovered hafter

/-- A call is admitted by a count within its limit. -/
theorem SlotsCover.admits {id : String} (hbefore : t.waiting = some id)
    (hle : ((s.server.redis.heldAt (concurrencyKey t.principal.quotaKey)).card : ℤ)
      ≤ t.principal.concurrentLimit)
    (hredis : s'.server.redis = s.server.redis)
    (hq : q' = Function.update q t.principal.quotaKey (insert id (q t.principal.quotaKey))) :
    SlotsCover caller q' ⟨s', l ++ t' :: r⟩ := by
  obtain ⟨hself, hothers⟩ := forall_mem_split.mp h.waiting
  -- The id and all that were admitted before it are among what was counted.
  have hown : insert id (q t.principal.quotaKey)
      ⊆ s.server.redis.heldAt (concurrencyKey t.principal.quotaKey) :=
    Finset.insert_subset (hself id hbefore) (h.kept _ hcaller)
  refine ⟨hcovered, ?_, ?_, ?_⟩
  · intro p hp
    rw [hredis, hq]
    by_cases heq : p = t.principal
    · rw [heq, Function.update_self]
      exact hown
    · rw [Function.update_of_ne (hapart p hp heq).1]
      exact h.kept p hp
  · refine forall_mem_split.mpr ⟨fun id' hid' => ?_, fun u hu id' hid' => ?_⟩
    · rw [hafter] at hid'
      cases hid'
    · rw [hredis]
      exact hothers u hu id' hid'
  · intro p hp
    rw [hq]
    by_cases heq : p = t.principal
    · rw [heq, Function.update_self]
      refine le_trans ?_ (le_max_left _ _)
      exact le_trans (by exact_mod_cast Finset.card_le_card hown) hle
    · rw [Function.update_of_ne (hapart p hp heq).1]
      exact h.limit p hp

/-- An id is taken out that is not one of those that wait. -/
theorem SlotsCover.removes {id : String}
    (hnew : ∀ u, u ∈ l ∨ u ∈ r → u.waiting ≠ some id)
    (hheld : ∀ key, s'.server.redis.heldAt key
      = if key = concurrencyKey t.principal.quotaKey then
          (s.server.redis.heldAt (concurrencyKey t.principal.quotaKey)).erase id
        else s.server.redis.heldAt key)
    (hq : q' = Function.update q t.principal.quotaKey ((q t.principal.quotaKey).erase id)) :
    SlotsCover caller q' ⟨s', l ++ t' :: r⟩ := by
  have hothers := (forall_mem_split.mp h.waiting).2
  refine ⟨hcovered, ?_, ?_, ?_⟩
  · intro p hp
    rw [hheld, hq]
    by_cases heq : p = t.principal
    · rw [heq, Function.update_self, if_pos rfl]
      exact Finset.erase_subset_erase _ (h.kept _ hcaller)
    · rw [Function.update_of_ne (hapart p hp heq).1, if_neg (hapart p hp heq).2]
      exact h.kept p hp
  · refine forall_mem_split.mpr ⟨fun id' hid' => ?_, fun u hu id' hid' => ?_⟩
    · rw [hafter] at hid'
      cases hid'
    · have hne : id' ≠ id := fun heq => hnew u hu (heq ▸ hid')
      rw [hheld]
      split
      next heq => exact Finset.mem_erase.mpr ⟨hne, heq ▸ hothers u hu id' hid'⟩
      next => exact hothers u hu id' hid'
  · intro p hp
    rw [hq]
    by_cases heq : p = t.principal
    · rw [heq, Function.update_self]
      refine le_trans ?_ (h.limit _ hcaller)
      exact_mod_cast Finset.card_erase_le
    · rw [Function.update_of_ne (hapart p hp heq).1]
      exact h.limit p hp

end Moves

/-- The id a call takes out is its own or admitted, so nobody else waits for it. -/
theorem SlotsCover.ne_waiting (h : SlotsCover caller q ⟨s, l ++ t :: r⟩)
    (hauthored : CommandsAuthored D caller q ⟨s, l ++ t :: r⟩) {id : String}
    (hbefore : t.waiting = some id ∨ id ∈ t.toTask.stage.slots t.principal.quotaKey)
    {u : CommandTask} (hu : u ∈ l ∨ u ∈ r) : u.waiting ≠ some id := by
  intro hid
  have hunreserved := CommandTask.unreserved_of_waiting hid
  rcases hbefore with hwaiting | hstage
  · have hnodup := hauthored.provenance.drawn_nodup
    simp only [serviceConf, List.map_append, List.map_cons] at hnodup
    have hdrawn : ∀ {v : CommandTask}, v.waiting = some id → v.toTask.drawn = some id :=
      fun hv => Task.drawn_of_unstored (Task.unstored_of_unreserved
        (CommandTask.unreserved_of_waiting hv))
    refine drawn_ne_of_nodup hnodup (hdrawn hwaiting) ?_ (hdrawn hid)
    exact hu.imp List.mem_map_of_mem List.mem_map_of_mem
  · have hmem : u.toTask ∈ (serviceConf ⟨s, l ++ t :: r⟩).tasks := by
      refine List.mem_map_of_mem ?_
      rcases hu with hu | hu <;> simp [hu]
    exact hauthored.provenance.unreserved _ hmem id hunreserved _ (h.mem_of_stage hstage)

/-- **A step keeps the cover.** -/
theorem SlotsCover.run (h : SlotsCover caller q ⟨s, l ++ t :: r⟩)
    (hunique : ∀ p p', caller p → caller p' → p.agentId = p'.agentId → p = p')
    (hsep : ∀ p, caller p → ':' ∉ p.agentId.toList) (hpermits : InsertsAcknowledged s t e)
    (hauthored : CommandsAuthored D caller q ⟨s, l ++ t :: r⟩)
    (hstep : CommandStepped D e s s' q q' t t') : SlotsCover caller q' ⟨s', l ++ t' :: r⟩ := by
  have hcovered := h.covered_run hunique hpermits hauthored hstep.image
  have hprincipal := hstep.principal
  have hcaller : caller t.principal :=
    hauthored.context.callers _ (List.mem_map_of_mem (by simp))
  have hapart := fun p hp => callers_apart (p := p) hunique hsep hp hcaller
  have hself := (forall_mem_split.mp h.waiting).1
  have hseen : t.toTask.await = some .reserveConcurrency
      ∨ t.toTask.await = some .releaseConcurrency →
      s.server.redis.smembers e.now (concurrencyKey t.principal.quotaKey)
        = s.server.redis.heldAt (concurrencyKey t.principal.quotaKey) := by
    intro hawait
    refine Redis.smembers_eq_heldAt ?_
    rcases hawait with hawait | hawait
    · exact (hpermits _ hawait).2 (.inl rfl)
    · exact (hpermits _ hawait).2 (.inr rfl)
  cases hstep.slots with
  | aside hheld hq hafter =>
    subst hq
    refine h.grows hcovered (fun key => (hheld key).symm ▸ Finset.Subset.refl _) ?_
    intro id hid
    rw [hheld, hprincipal]
    rcases hafter with hnone | hsame
    · rw [hnone] at hid
      cases hid
    · exact hself id (hsame.symm.trans hid)
  | @added id hawait hheld hq hafter =>
    subst hq
    refine h.grows hcovered ?_ ?_
    · intro key
      rw [hheld]
      split
      next heq =>
        rw [hseen (.inl hawait), heq]
        exact Finset.subset_insert _ _
      next => exact Finset.Subset.refl _
    · intro id' hid'
      rw [hheld, hprincipal, if_pos rfl]
      rcases hafter with hnone | hsome
      · rw [hnone] at hid'
        cases hid'
      · obtain rfl := Option.some.inj (hsome.symm.trans hid')
        exact Finset.mem_insert_self _ _
  | admitted hawait hbefore hle hredis hq hafter =>
    rw [hseen (.inl hawait)] at hle
    exact h.admits hcaller hapart hcovered hafter hbefore hle hredis hq
  | removed hawait hbefore hheld hq hafter =>
    rw [hseen hawait] at hheld
    exact h.removes hcaller hapart hcovered hafter (fun _ => h.ne_waiting hauthored hbefore) hheld
      hq

/-! ## Whole runs -/

/-- Every run over Redis, command by command, keeps the cover. -/
theorem commands_slotsCover {q₀ : Q}
    (hunique : ∀ p p', caller p → caller p' → p.agentId = p'.agentId → p = p')
    (hsep : ∀ p, caller p → ':' ∉ p.agentId.toList) {acts : List (Act CommandTask RedisEnv)}
    {c : Conf (CreationWorld Q) CommandTask}
    (hrun : (redisCommands D).Run (PermitsCommands InsertsAcknowledged caller)
      ⟨⟨World.empty q₀, {}⟩, []⟩ acts c) :
    ∃ q, SlotsCover caller q c ∧ CommandsAuthored D caller q c := by
  refine System.Run.invariant (I := fun c => ∃ q, SlotsCover caller q c
    ∧ CommandsAuthored D caller q c) ?_ ?_ hrun ⟨fun _ => ∅, ?_, RedisAuthored.empty, by simp⟩
  · intro s ts t hok hinv
    obtain ⟨q, hcover, hauthored⟩ := hinv
    exact ⟨q, hcover.start hok.1, hauthored.start hok.1 hok.2⟩
  · intro s l t r e s' t' hok hadv hinv
    obtain ⟨q, hcover, hauthored⟩ := hinv
    obtain ⟨q', hstep⟩ := redisCommands_step q (hauthored.atOwn t (by simp)) hadv
    exact ⟨q', hcover.run hunique hsep (hok t (getElem?_split_self t)) hauthored hstep,
      hauthored.run hstep⟩
  · exact ⟨fun key => le_rfl, fun p _ => Finset.empty_subset _, by simp, fun p _ => by simp⟩

/-- The agent's decisions without an outcome. -/
def Tables.openRows (tables : Tables) (p : AgentPrincipal) : List RoutingDecisionRecord :=
  tables.decisions.filter fun row => row.agentId = p.agentId ∧ row.outcomePayload = none

/-- One principal has the agent id, so agent and key select the same rows. -/
theorem openIds_eq_openRows {w : World Q} {p : AgentPrincipal}
    (hkey : ∀ row ∈ w.tables.decisions, row.quotaKey = p.quotaKey ↔ row.agentId = p.agentId) :
    w.openIds p.quotaKey = ↑((w.tables.openRows p).map (·.decisionId)) := by
  unfold World.openIds Tables.openRows
  generalize w.tables.decisions = rows at hkey ⊢
  induction rows with
  | nil => rfl
  | cons row rows ih =>
    have hrow := hkey row List.mem_cons_self
    rw [sumOver_cons, ih fun r hr => hkey r (List.mem_cons_of_mem _ hr),
      RoutingDecisionRecord.openId, List.filter_cons]
    simp only [hrow, Option.isNone_iff_eq_none, decide_eq_true_eq, and_comm]
    split <;> simp

/-! ### A limit of one -/

/-- `labAgent` with one slot. -/
def labOneSlot : AgentPrincipal :=
  { labAgent with concurrentLimit := 1 }

/-- A command at the epoch. -/
def commandEnv (uuid : String) (fault : Fault) : RedisEnv :=
  ⟨{ labEnv uuid with fault }, 0⟩

/-- A creation by the agent whose limit is one. -/
def oneSlotCall : CreateCall :=
  { keyedCall with principal := labOneSlot, idempotencyKey := none }

/-- Three calls to create; each gets to its reservation, the first is
admitted before the others add their ids, the `EXPIRE` of the third raises,
the first stores its decision and the second withdraws. -/
def crossedReservations : List (Act CommandTask RedisEnv) :=
  List.replicate 3 (.start (.create oneSlotCall (.service oneSlotCall.start)))
    -- The first `INCR` of the minute has an `EXPIRE` behind it.
    ++ List.replicate 6 (.run 0 (commandEnv "a" .returns))
    ++ List.replicate 5 (.run 1 (commandEnv "b" .returns))
    ++ List.replicate 5 (.run 2 (commandEnv "c" .returns))
    ++ List.replicate 3 (.run 0 (commandEnv "a" .returns))
    ++ [.run 1 (commandEnv "b" .returns), .run 2 (commandEnv "c" .returns),
      .run 2 (commandEnv "c" .raises)]
    ++ List.replicate 2 (.run 0 (commandEnv "a" .returns))
    ++ List.replicate 3 (.run 1 (commandEnv "b" .returns))

/-- **An agent's open decisions stay within its limit**, command by command,
whatever fails but the acknowledgement of an insert: with agent ids that are
one principal's each and free of separators, as long as no slot set is asked
past its deadline. -/
theorem commands_open_within_limit {q₀ : Q}
    (hunique : ∀ p p', caller p → caller p' → p.agentId = p'.agentId → p = p')
    (hsep : ∀ p, caller p → ':' ∉ p.agentId.toList) {acts : List (Act CommandTask RedisEnv)}
    {c : Conf (CreationWorld Q) CommandTask}
    (hrun : (redisCommands D).Run (PermitsCommands InsertsAcknowledged caller)
      ⟨⟨World.empty q₀, {}⟩, []⟩ acts c) :
    ∀ p, caller p → ((c.world.world.tables.openRows p).length : ℤ) ≤ max p.concurrentLimit 0 := by
  intro p hp
  obtain ⟨q, hcover, hauthored⟩ := commands_slotsCover hunique hsep hrun
  have hkey : ∀ row ∈ c.world.world.tables.decisions,
      row.quotaKey = p.quotaKey ↔ row.agentId = p.agentId := by
    intro row hrow
    refine ⟨fun hkey => congrArg Prod.snd hkey, fun hagent => ?_⟩
    obtain ⟨p', hp', hpagent, hpenv, -⟩ := hauthored.context.creators _ (World.origin_mem hrow)
    obtain rfl := hunique p' p hp' hp (hpagent.symm.trans hagent)
    exact Prod.ext hpenv hpagent
  -- Each open decision is one of the ids admitted, and these are within the limit.
  have hmembers := (Multiset.le_add_right _ _).trans (hcover.covered p.quotaKey)
  rw [openIds_eq_openRows hkey] at hmembers
  have hcard := Multiset.card_le_card hmembers
  rw [Multiset.coe_card, List.length_map] at hcard
  exact le_trans (Int.ofNat_le.mpr hcard) (hcover.limit p hp)

/-- What the trace checks at each of its steps. -/
def acknowledges (c : Conf (CreationWorld InMemoryQuota) CommandTask) :
    Act CommandTask RedisEnv → Bool
  | .start _ => true
  | .run i e => (c.tasks[i]?).all fun t => decide (InsertsAcknowledged c.world t e)

/-- One decision is stored and open, one reservation withdrawn, one left behind. -/
theorem commands_open_within_limit_crossed :
    ∃ c : Conf (CreationWorld InMemoryQuota) CommandTask,
      (c.world.world.tables.openRows labOneSlot).length = 1
      ∧ (held labOneSlot c.world.server).card = 2
      ∧ ((c.world.world.tables.openRows labOneSlot).length : ℤ)
        ≤ max labOneSlot.concurrentLimit 0 := by
  have htrace : ((redisCommands labRedis).execIf acknowledges ⟨⟨World.empty {}, {}⟩, []⟩
      crossedReservations).any (fun c => decide
        ((c.world.world.tables.openRows labOneSlot).length = 1
          ∧ (held labOneSlot c.world.server).card = 2)) = true := by
    decide +kernel
  obtain ⟨c, hexec, hc⟩ := (Option.any_eq_true _ _).mp htrace
  obtain ⟨hopen, hheld⟩ := of_decide_eq_true hc
  have hrun : (redisCommands labRedis).Run
      (PermitsCommands InsertsAcknowledged (· = labOneSlot)) ⟨⟨World.empty {}, {}⟩, []⟩
      crossedReservations c := by
    refine System.Run.of_execIf ?_ hexec
    intro a ha c₁ hcheck
    cases a with
    | start t =>
      obtain rfl : t = .create oneSlotCall (.service oneSlotCall.start) := by
        simpa [crossedReservations] using ha
      exact ⟨.create oneSlotCall, rfl⟩
    | run i e =>
      intro t ht
      simp only [acknowledges, ht, Option.all_some] at hcheck
      exact of_decide_eq_true hcheck
  exact ⟨c, hopen, hheld, commands_open_within_limit (by rintro _ _ rfl rfl _; rfl)
    (by rintro _ rfl; decide) hrun labOneSlot rfl⟩

end Command

end ControlPlane
