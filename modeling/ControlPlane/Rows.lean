import ControlPlane.Steps

/-!
# The life of a row

A step leaves the decision rows alone, inserts one, or completes an open one
(`RowStep`); nothing deletes a row. What a row was created with, its
`origin`, stays: completing it sets the outcome columns and no other. So the
list of origins only grows, by the record of the call that inserts
(`RowStep.origins`), and what a call has read of a row still holds of it when
the call acts on it (`RowContext`).
-/

namespace ControlPlane

open Lib

variable {Q : Type} {D : Deps Q} {env : Env} {w w' : World Q} {t t' : Task}

/-- The two kinds of step. -/
theorem advance_cases (h : (controlPlane D).advance env w t = some (w', t')) :
    (∃ call pc pc', t = .create call pc ∧ t' = .create call pc'
      ∧ CreateStep D env call w pc w' pc')
    ∨ (∃ call pc pc', t = .outcome call pc ∧ t' = .outcome call pc'
      ∧ OutcomeStep D env call w pc w' pc') := by
  cases t with
  | create call pc =>
    obtain ⟨⟨w₁, pc'⟩, hadv, heq⟩ := Option.map_eq_some_iff.mp h
    obtain ⟨rfl, rfl⟩ := Prod.mk.inj heq
    exact .inl ⟨call, pc, pc', rfl, rfl, advanceCreate_step hadv⟩
  | outcome call pc =>
    obtain ⟨⟨w₁, pc'⟩, hadv, heq⟩ := Option.map_eq_some_iff.mp h
    obtain ⟨rfl, rfl⟩ := Prod.mk.inj heq
    exact .inr ⟨call, pc, pc', rfl, rfl, advanceOutcome_step hadv⟩

/-! ## What a step does to the rows -/

/-- A step leaves the rows alone, inserts one, or completes an open one. -/
inductive RowStep (w : World Q) (w' : World Q) : Task → Task → Prop
  | kept {t t' : Task} : w'.tables.decisions = w.tables.decisions → RowStep w w' t t'
  | inserted {call response pc'} :
      createDecision call.principal call.request response call.idempotencyKey w.tables
        = .ok w'.tables →
      pc' = .returned (some response.decisionId) response
        ∨ pc' = .release response.decisionId .unavailable →
      RowStep w w' (.create call (.storeDecision response)) (.create call pc')
  | completed {call record decision pc'} :
      w.tables.getDecisionContext record.decisionId = some decision →
      decision.outcomePayload = none →
      w'.tables = w.tables.storeOutcome record.decisionId call.outcome call.idempotencyKey →
      pc' = .release (recordedResponse record.decisionId call.outcome)
        ∨ pc' = .raised .unavailable →
      RowStep w w' (.outcome call (.storeOutcome record)) (.outcome call pc')

/-- A creation's step, by its row. -/
theorem CreateStep.rowStep {call : CreateCall} {pc pc' : CreatePc}
    (h : CreateStep D env call w pc w' pc') :
    RowStep w w' (.create call pc) (.create call pc') := by
  cases h with
  | stored hf hins => exact .inserted hins (.inl rfl)
  | storeLost hf hins => exact .inserted hins (.inr rfl)
  | catalogKept => exact .kept (by simp)
  | metadataSkipped _ htables => exact .kept (by rcases htables with rfl | rfl <;> simp)
  | policiesKept htables => exact .kept (by rcases htables with rfl | rfl <;> simp)
  | releaseRaised _ hw => exact .kept (by rcases hw with rfl | rfl <;> rfl)
  | _ => exact .kept rfl

/-- An outcome that is recorded completes an open row, or changes nothing. -/
theorem recordOutcome_rowStep {call : OutcomeCall} {record : RoutingDecisionRecord}
    {tables : Tables} {response : RoutingOutcomeResponse}
    (h : recordOutcome record call.outcome call.idempotencyKey w.tables = .ok (tables, response)) :
    (tables = w.tables ∧ response.outcomeStatus = .duplicate)
    ∨ (∃ decision, w.tables.getDecisionContext record.decisionId = some decision
      ∧ decision.outcomePayload = none
      ∧ tables = w.tables.storeOutcome record.decisionId call.outcome call.idempotencyKey
      ∧ response = recordedResponse record.decisionId call.outcome) := by
  rcases recordOutcome_cases record call.outcome call.idempotencyKey w.tables with
    ⟨-, heq⟩ | ⟨decision, payload, -, -, heq⟩ | ⟨decision, hctx, hopen, heq⟩ <;> rw [heq] at h
  · simp at h
  · obtain ⟨rfl, rfl⟩ := Prod.mk.inj (Except.ok.inj h)
    exact .inl ⟨rfl, rfl⟩
  · obtain ⟨rfl, rfl⟩ := Prod.mk.inj (Except.ok.inj h)
    exact .inr ⟨decision, hctx, hopen, rfl, rfl⟩

/-- A report's step, by its row. -/
theorem OutcomeStep.rowStep {call : OutcomeCall} {pc pc' : OutcomePc}
    (h : OutcomeStep D env call w pc w' pc') :
    RowStep w w' (.outcome call pc) (.outcome call pc') := by
  cases h with
  | storeLost hf hrec =>
    rcases recordOutcome_rowStep hrec with ⟨rfl, -⟩ | ⟨decision, hctx, hopen, rfl, -⟩
    · exact .kept rfl
    · exact .completed hctx hopen rfl (.inr rfl)
  | recorded hf hrec hstatus =>
    rcases recordOutcome_rowStep hrec with ⟨rfl, hdup⟩ | ⟨decision, hctx, hopen, rfl, rfl⟩
    · exact absurd hdup (by simp [hstatus])
    · exact .completed hctx hopen rfl (.inl rfl)
  | duplicate hf hrec hstatus =>
    rcases recordOutcome_rowStep hrec with ⟨rfl, -⟩ | ⟨decision, -, -, -, rfl⟩
    · exact .kept rfl
    · exact absurd rfl hstatus
  | releaseRaised _ hw => exact .kept (by rcases hw with rfl | rfl <;> rfl)
  | spendRaised _ hw => exact .kept (by rcases hw with rfl | rfl <;> rfl)
  | _ => exact .kept rfl

/-- Any step, by its row. -/
theorem advance_rowStep (h : (controlPlane D).advance env w t = some (w', t')) :
    RowStep w w' t t' := by
  rcases advance_cases h with ⟨call, pc, pc', rfl, rfl, hstep⟩ | ⟨call, pc, pc', rfl, rfl, hstep⟩
  · exact hstep.rowStep
  · exact hstep.rowStep

/-! ## Origins -/

/-- The row as it was inserted. -/
def RoutingDecisionRecord.origin (row : RoutingDecisionRecord) : RoutingDecisionRecord :=
  { row with
    outcomeIdempotencyKey := none
    status := .opened
    outcomePayload := none
    finalStatus := none
    finalModelId := none
    fallbackDepth := none }

/-- The rows as they were created. -/
def World.origins (w : World Q) : List RoutingDecisionRecord :=
  w.tables.decisions.map (·.origin)

/-- Each belongs to a row. -/
theorem World.mem_origins {o : RoutingDecisionRecord} :
    o ∈ w.origins ↔ ∃ row ∈ w.tables.decisions, row.origin = o :=
  List.mem_map

/-- And each row to one. -/
theorem World.origin_mem {row : RoutingDecisionRecord} (h : row ∈ w.tables.decisions) :
    row.origin ∈ w.origins :=
  List.mem_map_of_mem h

/-- A stored outcome leaves them alone. -/
theorem origins_storeOutcome (tables : Tables) (decisionId : String)
    (outcome : RoutingOutcomeRequest) (idempotencyKey : Option String) :
    (tables.storeOutcome decisionId outcome idempotencyKey).decisions.map (·.origin)
      = tables.decisions.map (·.origin) := by
  simp only [Tables.storeOutcome, List.map_map]
  refine List.map_congr_left fun row _ => ?_
  by_cases h : row.decisionId = decisionId <;>
    simp [h, RoutingDecisionRecord.complete, RoutingDecisionRecord.origin]

/-- Completing a row where ids are unique: that row and no other. -/
theorem decisions_storeOutcome {tables : Tables} {l r : List RoutingDecisionRecord}
    {decision : RoutingDecisionRecord} (hrows : tables.decisions = l ++ decision :: r)
    (hnodup : (tables.decisions.map (·.decisionId)).Nodup) (outcome : RoutingOutcomeRequest)
    (idempotencyKey : Option String) :
    (tables.storeOutcome decision.decisionId outcome idempotencyKey).decisions
      = l ++ decision.complete outcome idempotencyKey :: r := by
  rw [hrows, List.map_append, List.map_cons, List.nodup_middle, List.nodup_cons,
    ← List.map_append] at hnodup
  -- The update goes by id, and no other row has this one.
  have hothers : ∀ row ∈ l ++ r, row.decisionId ≠ decision.decisionId := fun row hrow heq =>
    hnodup.1 (heq ▸ List.mem_map_of_mem hrow)
  have hsame : ∀ rows : List RoutingDecisionRecord, (∀ row ∈ rows, row ∈ l ++ r) →
      rows.map (fun row => if row.decisionId = decision.decisionId
        then row.complete outcome idempotencyKey else row) = rows := by
    intro rows hsub
    refine (List.map_congr_left fun row hrow => ?_).trans (List.map_id rows)
    rw [if_neg (hothers row (hsub row hrow)), id]
  simp only [Tables.storeOutcome, hrows, List.map_append, List.map_cons, if_pos]
  rw [hsame l (by simp +contextual), hsame r (by simp +contextual)]

/-- The origins after a step: the same, or one more. -/
theorem RowStep.origins (h : RowStep w w' t t') :
    w'.origins = w.origins
      ∨ ∃ call response pc', t = .create call (.storeDecision response)
        ∧ t' = .create call pc'
        ∧ createDecision call.principal call.request response call.idempotencyKey w.tables
          = .ok w'.tables
        ∧ w'.origins = w.origins ++
          [decisionRecord call.principal call.request response call.idempotencyKey] := by
  cases h with
  | kept h => exact .inl (by rw [World.origins, h, World.origins])
  | @inserted call response pc' hins hpc =>
    refine .inr ⟨call, response, pc', rfl, rfl, hins, ?_⟩
    rw [World.origins, (createDecision_ok hins).1]
    simp [World.origins, decisionRecord, RoutingDecisionRecord.origin]
  | completed _ _ htables =>
    exact .inl (by rw [World.origins, htables, origins_storeOutcome, World.origins])

/-- No step loses one. -/
theorem RowStep.origins_subset (h : RowStep w w' t t') : w.origins ⊆ w'.origins := by
  rcases h.origins with heq | ⟨_, _, _, -, -, -, heq⟩
  · rw [heq]
    exact List.Subset.refl _
  · rw [heq]
    exact List.subset_append_left _ _

/-- **No run loses a row or what it was created with.** -/
theorem RunIn.origins_subset {sc : Scenario} {acts : List (Act Task Env)}
    {c c' : Conf (World Q) Task} (hrun : RunIn D sc c acts c') :
    c.world.origins ⊆ c'.world.origins := by
  refine System.Run.invariant (I := fun c₁ => c.world.origins ⊆ c₁.world.origins)
    (fun _ _ _ _ h => h) ?_ hrun (List.Subset.refl _)
  intro w l t r e w' t' _ hadv h
  exact List.Subset.trans h (advance_rowStep hadv).origins_subset

/-! ## What a call knows of its row -/

/-- Rows come from permitted callers, and an outcome call that has checked
its row is about a row that is still there. -/
structure RowContext (sc : Scenario) (c : Conf (World Q) Task) : Prop where
  callers : ∀ t ∈ c.tasks, sc.caller t.principal
  creators : ∀ o ∈ c.world.origins, ∃ p, sc.caller p ∧ o.agentId = p.agentId
    ∧ o.environment = p.environment ∧ o.tenantId = p.tenantId
  checked : ∀ t ∈ c.tasks, ∀ call record, t = .outcome call (.storeOutcome record) →
    record.origin ∈ c.world.origins ∧ record.decisionId = call.outcome.decisionId
      ∧ record.agentId = call.principal.agentId ∧ record.requestId = call.outcome.requestId

/-- A check that passes has found the caller's own row. -/
theorem checkOwnership_ok {call : OutcomeCall} {context : Option RoutingDecisionRecord}
    {record : RoutingDecisionRecord} (h : checkOwnership call context = .ok record) :
    context = some record ∧ record.agentId = call.principal.agentId
      ∧ record.requestId = call.outcome.requestId := by
  unfold checkOwnership at h
  split at h
  next => simp at h
  next record' =>
    split at h
    next => simp at h
    next hagent =>
      split at h
      next => simp at h
      next hreq =>
        obtain rfl := Except.ok.inj h
        exact ⟨rfl, not_not.mp hagent, not_not.mp hreq⟩

/-- A report that is to store an outcome has passed the check. -/
theorem OutcomeStep.checked {call : OutcomeCall} {pc : OutcomePc}
    {record : RoutingDecisionRecord} (h : OutcomeStep D env call w pc w' (.storeOutcome record)) :
    w' = w ∧ w.tables.getDecisionContext call.outcome.decisionId = some record
      ∧ record.agentId = call.principal.agentId ∧ record.requestId = call.outcome.requestId := by
  cases h with
  | owned hf hown => exact ⟨rfl, checkOwnership_ok hown⟩

/-- A step of another task leaves what a report knows. -/
theorem RowContext.run {sc : Scenario} {l r : List Task}
    (hadv : (controlPlane D).advance env w t = some (w', t')) (h : RowContext sc ⟨w, l ++ t :: r⟩) :
    RowContext sc ⟨w', l ++ t' :: r⟩ := by
  obtain ⟨hcallers, hcreators, hchecked⟩ := h
  simp only at hcallers hcreators hchecked
  rw [forall_mem_split] at hcallers hchecked
  have hrow := advance_rowStep hadv
  have hprincipal : t'.principal = t.principal := by
    rcases advance_cases hadv with ⟨_, _, _, rfl, rfl, -⟩ | ⟨_, _, _, rfl, rfl, -⟩ <;> rfl
  refine ⟨forall_mem_split.mpr ⟨hprincipal ▸ hcallers.1, hcallers.2⟩, ?_, ?_⟩
  · rcases hrow.origins with heq | ⟨call, response, pc', rfl, -, -, heq⟩
    · exact fun o ho => hcreators o (heq ▸ ho)
    · intro o ho
      rw [heq, List.mem_append, List.mem_singleton] at ho
      rcases ho with ho | rfl
      · exact hcreators o ho
      · exact ⟨call.principal, hcallers.1, rfl, rfl, rfl⟩
  · -- The call that moves reads its row now; what the others have read is still there.
    refine forall_mem_split.mpr ⟨?_, fun u hu call record he => ?_⟩
    · rintro call record rfl
      rcases advance_cases hadv with ⟨_, _, _, -, he, -⟩ | ⟨call', pc, pc', rfl, he, hstep⟩
      · simp at he
      · obtain ⟨rfl, rfl⟩ := Task.outcome.inj he
        obtain ⟨rfl, hctx, hagent, hreq⟩ := hstep.checked
        obtain ⟨hmem, hid⟩ := Tables.getDecisionContext_some hctx
        exact ⟨World.origin_mem hmem, hid, hagent, hreq⟩
    · obtain ⟨hmem, hrest⟩ := hchecked.2 u hu call record he
      exact ⟨hrow.origins_subset hmem, hrest⟩

/-- One more task that has just begun. -/
theorem RowContext.start {sc : Scenario} {ts : List Task} (hstart : t.Started)
    (hcaller : sc.caller t.principal) (h : RowContext sc ⟨w, ts⟩) :
    RowContext sc ⟨w, ts ++ [t]⟩ := by
  obtain ⟨hcallers, hcreators, hchecked⟩ := h
  refine ⟨forall_mem_split.mpr ⟨hcaller, fun u hu => hcallers u (by simpa using hu)⟩, hcreators,
    forall_mem_split.mpr ⟨?_, fun u hu => hchecked u (by simpa using hu)⟩⟩
  rintro call record rfl
  generalize ht : Task.outcome call (.storeOutcome record) = t at hstart
  cases hstart with
  | create => simp at ht
  | outcome call' =>
    obtain ⟨rfl, hpc⟩ := Task.outcome.inj ht
    unfold OutcomeCall.start at hpc
    split at hpc <;> simp at hpc

/-- So it is known over any run. -/
theorem RunIn.rowContext {sc : Scenario} {c c' : Conf (World Q) Task}
    {acts : List (Act Task Env)} (hrun : RunIn D sc c acts c') (h : RowContext sc c) :
    RowContext sc c' :=
  System.Run.invariant (fun _ _ _ hok => RowContext.start hok.1 hok.2)
    (fun _ _ _ _ _ _ _ _ => RowContext.run) hrun h

/-- An empty world knows of nothing. -/
theorem RowContext.empty {sc : Scenario} {q : Q} :
    RowContext sc ⟨World.empty q, []⟩ where
  callers := by simp
  creators := by simp [World.empty, World.origins]
  checked := by simp

end ControlPlane
