import ControlPlane.Provenance

/-!
# Whose call a row is

What a row says was said by a call of the run: its request, key and principal
are those of a `create_decision` call whose request names the principal's own
agent, its outcome that of a `record_outcome` call by the same agent for this
decision and request (`RunIn.authored`). This is what the layers above
`create_decision` and `record_outcome` need of the rows: who may make the
calls, may write.
-/

namespace ControlPlane

open Lib

variable {Q : Type} {D : Deps Q} {env : Env} {w w' : World Q} {t t' : Task}

namespace Task

/-- The call a task runs, if it creates. -/
def createCall : Task → Option CreateCall
  | create call _ => some call
  | outcome _ _ => none

/-- The call a task runs, if it reports. -/
def outcomeCall : Task → Option OutcomeCall
  | create _ _ => none
  | outcome call _ => some call

/-- Two tasks of one call. -/
def SameCall (t t' : Task) : Prop :=
  t'.createCall = t.createCall ∧ t'.outcomeCall = t.outcomeCall

end Task

/-- A step goes on with the call it began with. -/
theorem advance_sameCall (hadv : (controlPlane D).advance env w t = some (w', t')) :
    t.SameCall t' := by
  rcases advance_cases hadv with ⟨_, _, _, rfl, rfl, -⟩ | ⟨_, _, _, rfl, rfl, -⟩
  · exact ⟨rfl, rfl⟩
  · exact ⟨rfl, rfl⟩

/-! ## Rows and calls -/

/-- A call that is not at its end has a request for its own agent. -/
def Task.Matching (t : Task) : Prop :=
  ∀ call pc, t = .create call pc → (∃ drawn err, pc = .raised drawn err)
    ∨ call.principal.agentId = call.request.agentId

/-- The row was created by one of these calls. -/
def RoutingDecisionRecord.CreatedBy (row : RoutingDecisionRecord) (ts : List Task) : Prop :=
  ∃ u ∈ ts, ∃ call response, u.createCall = some call
    ∧ call.principal.agentId = call.request.agentId
    ∧ row.origin = decisionRecord call.principal call.request response call.idempotencyKey

/-- The row was completed by one of these calls. -/
def RoutingDecisionRecord.CompletedBy (row : RoutingDecisionRecord) (ts : List Task) : Prop :=
  ∃ u ∈ ts, ∃ call, u.outcomeCall = some call ∧ call.principal.agentId = row.agentId
    ∧ call.outcome.decisionId = row.decisionId ∧ call.outcome.requestId = row.requestId
    ∧ row = row.origin.complete call.outcome call.idempotencyKey

/-- Every row was created, and every completed row completed, by a call of the
run. -/
structure Authored (c : Conf (World Q) Task) : Prop where
  matching : ∀ t ∈ c.tasks, t.Matching
  created : ∀ row ∈ c.world.tables.decisions, row.CreatedBy c.tasks
  completed : ∀ row ∈ c.world.tables.decisions, row.outcomePayload ≠ none →
    row.CompletedBy c.tasks

section Kept

variable {row : RoutingDecisionRecord} {ts ts' : List Task}

/-- A row's author stays its author while the tasks go on. -/
theorem RoutingDecisionRecord.CreatedBy.mono (h : row.CreatedBy ts)
    (hts : ∀ u ∈ ts, ∃ u' ∈ ts', u.SameCall u') : row.CreatedBy ts' := by
  obtain ⟨u, hu, call, response, hcall, hrest⟩ := h
  obtain ⟨u', hu', hsame⟩ := hts u hu
  exact ⟨u', hu', call, response, hsame.1.trans hcall, hrest⟩

/-- So does the call that completed it. -/
theorem RoutingDecisionRecord.CompletedBy.mono (h : row.CompletedBy ts)
    (hts : ∀ u ∈ ts, ∃ u' ∈ ts', u.SameCall u') : row.CompletedBy ts' := by
  obtain ⟨u, hu, call, hcall, hrest⟩ := h
  obtain ⟨u', hu', hsame⟩ := hts u hu
  exact ⟨u', hu', call, hsame.2.trans hcall, hrest⟩

end Kept

/-- A creation that goes on is for the principal's own agent. -/
theorem CreateStep.matching {call : CreateCall} {pc pc' : CreatePc}
    (hadv : (controlPlane D).advance env w (.create call pc) = some (w', .create call pc'))
    (h : (Task.create call pc).Matching) : call.principal.agentId = call.request.agentId := by
  rcases h call pc rfl with ⟨drawn, err, rfl⟩ | hagent
  · simp [controlPlane, advance, advanceCreate] at hadv
  · exact hagent

/-- A call that has started has checked the agent, or has raised. -/
theorem Task.Started.matching (h : t.Started) : t.Matching := by
  rintro call pc rfl
  generalize ht : Task.create call pc = t at h
  cases h with
  | create call' =>
    obtain ⟨rfl, rfl⟩ := Task.create.inj ht
    unfold CreateCall.start
    split
    next => exact .inl ⟨_, _, rfl⟩
    next hagent => exact .inr (not_not.mp hagent)
  | outcome => cases ht

/-- A new call writes no row. -/
theorem Authored.start {ts : List Task} (hstart : t.Started) (h : Authored ⟨w, ts⟩) :
    Authored ⟨w, ts ++ [t]⟩ := by
  have hkept : ∀ u ∈ ts, ∃ u' ∈ ts ++ [t], u.SameCall u' :=
    fun u hu => ⟨u, List.mem_append_left _ hu, rfl, rfl⟩
  refine ⟨fun u hu => ?_, fun row hrow => (h.created row hrow).mono hkept,
    fun row hrow hdone => (h.completed row hrow hdone).mono hkept⟩
  rcases List.mem_append.mp hu with hu | hu
  · exact h.matching u hu
  · rw [List.mem_singleton.mp hu]
    exact hstart.matching

/-- A step writes the rows of its own call only. -/
theorem Authored.run {sc : Scenario} {l r : List Task}
    (hadv : (controlPlane D).advance env w t = some (w', t')) (h : Authored ⟨w, l ++ t :: r⟩)
    (hnodup : w.rowIds.Nodup) (hctx : RowContext sc ⟨w, l ++ t :: r⟩) :
    Authored ⟨w', l ++ t' :: r⟩ := by
  obtain ⟨hmatching, hcreated, hcompleted⟩ := h
  have hsame := advance_sameCall hadv
  have hkept : ∀ u ∈ l ++ t :: r, ∃ u' ∈ l ++ t' :: r, u.SameCall u' := by
    intro u hu
    rcases List.mem_append.mp hu with hl | hr
    · exact ⟨u, List.mem_append_left _ hl, rfl, rfl⟩
    · rcases List.mem_cons.mp hr with rfl | hr
      · exact ⟨t', by simp, hsame⟩
      · exact ⟨u, by simp [hr], rfl, rfl⟩
  have hcreated' := fun row hrow => (hcreated row hrow).mono hkept
  have hcompleted' := fun row hrow hdone => (hcompleted row hrow hdone).mono hkept
  have hmoving := hmatching t (by simp)
  refine ⟨?_, ?_, ?_⟩
  · refine forall_mem_split.mpr ⟨?_, fun u hu => hmatching u ?_⟩
    · rintro call pc' rfl
      rcases advance_cases hadv with ⟨call', pc, pc'', rfl, he, -⟩ | ⟨_, _, _, -, he, -⟩
      · obtain ⟨rfl, rfl⟩ := Task.create.inj he
        exact .inr (CreateStep.matching hadv hmoving)
      · cases he
    · rcases hu with hu | hu <;> simp [hu]
  · cases advance_rowStep hadv with
    | kept hrows =>
      intro row hrow
      exact hcreated' row (hrows ▸ hrow)
    | @inserted call response pc' hinsert =>
      intro row hrow
      rw [(createDecision_ok hinsert).1, List.mem_append, List.mem_singleton] at hrow
      rcases hrow with hrow | rfl
      · exact hcreated' row hrow
      · exact ⟨.create call pc', by simp, call, response, rfl,
          CreateStep.matching hadv hmoving, rfl⟩
    | @completed call record decision pc' hdecision hopen htables =>
      intro row hrow
      simp only [htables, Tables.storeOutcome] at hrow
      obtain ⟨row₀, hrow₀, rfl⟩ := List.mem_map.mp hrow
      obtain ⟨u, hu, creator, response, hcreator, hagent, horigin⟩ := hcreated' row₀ hrow₀
      refine ⟨u, hu, creator, response, hcreator, hagent, ?_⟩
      rw [← horigin]
      split <;> rfl
  · cases advance_rowStep hadv with
    | kept hrows =>
      intro row hrow
      exact hcompleted' row (hrows ▸ hrow)
    | @inserted call response pc' hinsert =>
      intro row hrow hdone
      rw [(createDecision_ok hinsert).1, List.mem_append, List.mem_singleton] at hrow
      rcases hrow with hrow | rfl
      · exact hcompleted' row hrow hdone
      · exact absurd rfl hdone
    | @completed call record decision pc' hdecision hopen htables =>
      intro row hrow hdone
      simp only [htables, Tables.storeOutcome] at hrow
      obtain ⟨row₀, hrow₀, rfl⟩ := List.mem_map.mp hrow
      split at hdone
      next hid =>
        -- The row that the call has checked, as it was read or later.
        obtain ⟨hdecisionId, hagent, hrequest⟩ :=
          hctx.row_of_checked hnodup (List.mem_append_right l List.mem_cons_self) hrow₀ hid
        rw [if_pos hid]
        exact ⟨.outcome call pc', by simp, call, rfl, hagent.symm, hdecisionId.symm,
          hrequest.symm, rfl⟩
      next hid =>
        rw [if_neg hid]
        exact hcompleted' row₀ hrow₀ hdone

/-- No rows, no authors. -/
theorem Authored.empty {q : Q} : Authored ⟨World.empty q, []⟩ where
  matching := by simp
  created := by simp [World.empty]
  completed := by simp [World.empty]

/-- **Every row was written by calls of the run**, made for the row's own
agent. -/
theorem RunIn.authored {sc : Scenario} {q : Q} {acts : List (Act Task Env)}
    {c : Conf (World Q) Task} (hq : ∀ key, D.quotaManager.held q key = ∅)
    (hrun : RunIn D sc ⟨World.empty q, []⟩ acts c) : Authored c := by
  have h : Authored c ∧ Provenance D c ∧ RowContext sc c := by
    refine System.Run.invariant (I := fun c => Authored c ∧ Provenance D c ∧ RowContext sc c)
      ?_ ?_ hrun ⟨Authored.empty, Provenance.empty hq, RowContext.empty⟩
    · intro w ts t hok hinv
      obtain ⟨hauthored, hprov, hctx⟩ := hinv
      exact ⟨hauthored.start hok.1, hprov.start hok.1, hctx.start hok.1 hok.2⟩
    · intro w l t r env w' t' _ hadv hinv
      obtain ⟨hauthored, hprov, hctx⟩ := hinv
      exact ⟨hauthored.run hadv hprov.rows_nodup hctx, hprov.run (advance_idStep hadv),
        hctx.run hadv⟩
  exact h.1

end ControlPlane
