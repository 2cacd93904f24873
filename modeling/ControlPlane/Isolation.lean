import ControlPlane.Idempotency
import ControlPlane.QuotaSteps

/-!
# Isolation

Two principals can share an `agent_id` and differ in environment or tenant.
The idempotency lookup, the uniqueness constraint and the ownership check go
by the agent, the quotas by environment and agent. What one principal can
make of the other's is therefore: replay a decision whose key it knows, and
report the outcome of one whose id and request id it knows. It gets no further
than that, whatever fails and however the calls interleave (`isolation`).
-/

namespace ControlPlane

open Lib

variable {Q : Type} {D : Deps Q} {env : Env} {w w' : World Q} {t t' : Task}

/-! ## Who made a row -/

/-- The decision was made under that principal. -/
def RoutingDecisionRecord.OwnedBy (row : RoutingDecisionRecord) (p : AgentPrincipal) : Prop :=
  row.agentId = p.agentId ∧ row.environment = p.environment ∧ row.tenantId = p.tenantId

instance (row : RoutingDecisionRecord) (p : AgentPrincipal) : Decidable (row.OwnedBy p) :=
  inferInstanceAs (Decidable (_ ∧ _ ∧ _))

/-- Each row was made by a call of the run, and its response names it. -/
structure Created (c : Conf (World Q) Task) : Prop where
  creator : ∀ o ∈ c.world.origins, ∃ t ∈ c.tasks, t.drawn = some o.decisionId
    ∧ o.OwnedBy t.principal
  response : ∀ o ∈ c.world.origins, o.responsePayload.decisionId = o.decisionId

/-- A new task owns no row. -/
theorem Created.start {ts : List Task} (h : Created ⟨w, ts⟩) : Created ⟨w, ts ++ [t]⟩ := by
  refine ⟨fun o ho => ?_, h.response⟩
  obtain ⟨u, hu, hrest⟩ := h.creator o ho
  exact ⟨u, List.mem_append_left _ hu, hrest⟩

/-- A call keeps the id it has drawn. -/
theorem IdStep.drawn_of_drawn {id : String} (h : IdStep D w w' t t') (hid : t.drawn = some id) :
    t'.drawn = some id := by
  rcases h.drawn with ⟨-, heq⟩ | ⟨_, -, -, hnone, -⟩
  · rw [heq, hid]
  · simp [hid] at hnone

/-- A step makes rows of its own principal only. -/
theorem Created.run {l r : List Task} (hadv : (controlPlane D).advance env w t = some (w', t'))
    (h : Created ⟨w, l ++ t :: r⟩) : Created ⟨w', l ++ t' :: r⟩ := by
  have hids := advance_idStep hadv
  have hkept : ∀ o ∈ w.origins, ∃ u ∈ l ++ t' :: r, u.drawn = some o.decisionId
      ∧ o.OwnedBy u.principal := by
    intro o ho
    obtain ⟨u, hu, hdrawn, hown⟩ := h.creator o ho
    rcases List.mem_append.mp hu with hu | hu
    · exact ⟨u, by simp [hu], hdrawn, hown⟩
    · rcases List.mem_cons.mp hu with rfl | hu
      · -- The creator has moved on, and it is still the call that drew the id.
        exact ⟨t', by simp, hids.drawn_of_drawn hdrawn, hids.principal ▸ hown⟩
      · exact ⟨u, by simp [hu], hdrawn, hown⟩
  rcases (advance_rowStep hadv).origins with heq | ⟨call, response, pc', rfl, rfl, -, heq⟩
  · exact ⟨fun o ho => hkept o (heq ▸ ho), fun o ho => h.response o (heq ▸ ho)⟩
  · refine ⟨fun o ho => ?_, fun o ho => ?_⟩
    · rw [heq, List.mem_append, List.mem_singleton] at ho
      rcases ho with ho | rfl
      · exact hkept o ho
      · exact ⟨_, List.mem_append_right _ List.mem_cons_self, hids.drawn_of_drawn rfl,
          rfl, rfl, rfl⟩
    · rw [heq, List.mem_append, List.mem_singleton] at ho
      rcases ho with ho | rfl
      · exact h.response o ho
      · rfl

/-- So it is over a whole run. -/
theorem RunIn.created {sc : Scenario} {c c' : Conf (World Q) Task} {acts : List (Act Task Env)}
    (hrun : RunIn D sc c acts c') (h : Created c) : Created c' :=
  System.Run.invariant (fun _ _ _ _ => Created.start)
    (fun _ _ _ _ _ _ _ _ => Created.run) hrun h

/-- Two calls that drew one id are one call. -/
theorem eq_of_drawn {ts : List Task} (hnodup : (ts.filterMap Task.drawn).Nodup) (ht : t ∈ ts)
    {u : Task} (hu : u ∈ ts) {id : String} (htid : t.drawn = some id)
    (huid : u.drawn = some id) : u = t := by
  obtain ⟨l, r, rfl⟩ := List.append_of_mem ht
  rcases List.mem_append.mp hu with hu | hu
  · exact absurd huid (drawn_ne_of_nodup hnodup htid (.inl hu))
  · rcases List.mem_cons.mp hu with rfl | hu
    · rfl
    · exact absurd huid (drawn_ne_of_nodup hnodup htid (.inr hu))

/-! ## What a reporting call has seen and released -/

/-- Past the ownership check. -/
def OutcomePc.Checked : OutcomePc → Prop
  | .storeOutcome _ | .release _ | .recordSpend _ | .publish _ | .returned _ => True
  | _ => False

/-- Past the release of the slot. -/
def OutcomePc.Released : OutcomePc → Prop
  | .recordSpend _ | .publish _ => True
  | .returned response => response.outcomeStatus = .recorded
  | _ => False

/-- The slot is released past the check. -/
theorem OutcomePc.Released.checked {pc : OutcomePc} (h : pc.Released) : pc.Checked := by
  cases pc <;> first | exact trivial | exact h.elim

/-- Only the ownership check takes a report past it. -/
theorem OutcomeStep.checked_of {call : OutcomeCall} {pc pc' : OutcomePc}
    (h : OutcomeStep D env call w pc w' pc') (hpc' : pc'.Checked) :
    pc.Checked ∨ ∃ row ∈ w.tables.decisions, row.decisionId = call.outcome.decisionId
      ∧ row.agentId = call.principal.agentId := by
  cases h with
  | owned _ hown =>
    obtain ⟨hctx, hagent, -⟩ := checkOwnership_ok hown
    obtain ⟨hmem, hid⟩ := Tables.getDecisionContext_some hctx
    exact .inr ⟨_, hmem, hid, hagent⟩
  | recorded => exact .inl trivial
  | duplicate => exact .inl trivial
  | released => exact .inl trivial
  | spent => exact .inl trivial
  | published => exact .inl trivial
  | _ => exact hpc'.elim

/-- Only the release takes a report past it. -/
theorem OutcomeStep.released_of {call : OutcomeCall} {pc pc' : OutcomePc}
    (h : OutcomeStep D env call w pc w' pc') (hpc' : pc'.Released) :
    pc.Released
      ∨ call.outcome.decisionId ∉ D.quotaManager.held w'.quota call.principal.quotaKey := by
  cases h with
  | duplicate _ _ hstatus => exact absurd hpc' hstatus
  | released => exact .inr D.quotaManager.notMem_held_released
  | spent => exact .inl trivial
  | published => exact .inl trivial
  | _ => exact hpc'.elim

/-- A call past the check is about a row of its own agent, and one past the
release has released. -/
structure Reported (D : Deps Q) (c : Conf (World Q) Task) : Prop where
  checked : ∀ t ∈ c.tasks, ∀ call pc, t = .outcome call pc → pc.Checked →
    ∃ o ∈ c.world.origins, o.decisionId = call.outcome.decisionId
      ∧ o.agentId = call.principal.agentId
  released : ∀ t ∈ c.tasks, ∀ call pc, t = .outcome call pc → pc.Released →
    call.outcome.decisionId ∉ D.quotaManager.held c.world.quota call.principal.quotaKey

/-- A report that starts has been checked for nothing. -/
theorem Task.Started.unchecked {call : OutcomeCall} {pc : OutcomePc}
    (h : (Task.outcome call pc).Started) : ¬ pc.Checked := by
  generalize ht : Task.outcome call pc = t at h
  cases h with
  | create => simp at ht
  | outcome call' =>
    obtain ⟨rfl, rfl⟩ := Task.outcome.inj ht
    unfold OutcomeCall.start
    split <;> exact id

/-- So it adds nothing to what the reports have seen. -/
theorem Reported.start {ts : List Task} (hstart : t.Started) (h : Reported D ⟨w, ts⟩) :
    Reported D ⟨w, ts ++ [t]⟩ := by
  refine ⟨forall_mem_split.mpr ⟨?_, fun u hu => h.checked u (by simpa using hu)⟩,
    forall_mem_split.mpr ⟨?_, fun u hu => h.released u (by simpa using hu)⟩⟩
  · rintro call pc rfl hpc
    exact absurd hpc hstart.unchecked
  · rintro call pc rfl hpc
    exact absurd hpc.checked hstart.unchecked

/-- A row's id is among the ids of the rows. -/
theorem World.rowIds_of_origin {o : RoutingDecisionRecord} (h : o ∈ w.origins) :
    o.decisionId ∈ w.rowIds := by
  obtain ⟨row, hrow, rfl⟩ := World.mem_origins.mp h
  exact List.mem_map.mpr ⟨row, hrow, rfl⟩

/-- A step of any task keeps what the reports have seen. -/
theorem Reported.run {l r : List Task} (hprov : Provenance D ⟨w, l ++ t :: r⟩)
    (hadv : (controlPlane D).advance env w t = some (w', t'))
    (h : Reported D ⟨w, l ++ t :: r⟩) : Reported D ⟨w', l ++ t' :: r⟩ := by
  obtain ⟨hchecked, hreleased⟩ := h
  simp only at hchecked hreleased
  rw [forall_mem_split] at hchecked hreleased
  have hids := advance_idStep hadv
  have hsub := (advance_rowStep hadv).origins_subset
  refine ⟨forall_mem_split.mpr ⟨?_, fun u hu call pc he hpc => ?_⟩,
    forall_mem_split.mpr ⟨?_, fun u hu call pc he hpc hmem => ?_⟩⟩
  · rintro call pc' rfl hpc'
    rcases advance_cases hadv with ⟨_, _, _, -, he, -⟩ | ⟨call', pc, _, rfl, he, hstep⟩
    · simp at he
    · obtain ⟨rfl, rfl⟩ := Task.outcome.inj he
      rcases hstep.checked_of hpc' with hpc | ⟨row, hrow, hid, hagent⟩
      · obtain ⟨o, ho, hrest⟩ := hchecked.1 call pc rfl hpc
        exact ⟨o, hsub ho, hrest⟩
      · exact ⟨row.origin, hsub (World.origin_mem hrow), hid, hagent⟩
  · obtain ⟨o, ho, hrest⟩ := hchecked.2 u hu call pc he hpc
    exact ⟨o, hsub ho, hrest⟩
  · rintro call pc' rfl hpc'
    rcases advance_cases hadv with ⟨_, _, _, -, he, -⟩ | ⟨call', pc, _, rfl, he, hstep⟩
    · simp at he
    · obtain ⟨rfl, rfl⟩ := Task.outcome.inj he
      rcases hstep.released_of hpc' with hpc | hgone
      · exact fun hmem => hreleased.1 call pc rfl hpc (hstep.held_subset _ hmem)
      · exact hgone
  · -- The id is a row's by now, so no call is about to reserve it.
    rcases hids.held _ _ hmem with hold | ⟨hres, -⟩
    · exact hreleased.2 u hu call pc he hpc hold
    · obtain ⟨o, ho, hid, -⟩ := hchecked.2 u hu call pc he hpc.checked
      exact hprov.unstored t (by simp) _ (Task.unstored_of_unreserved hres)
        (hid ▸ World.rowIds_of_origin ho)

/-- So it is over a whole run. -/
theorem RunIn.reported {sc : Scenario} {c c' : Conf (World Q) Task} {acts : List (Act Task Env)}
    (hrun : RunIn D sc c acts c') (hprov : Provenance D c) (h : Reported D c) : Reported D c' := by
  refine (System.Run.invariant (I := fun c => Provenance D c ∧ Reported D c) ?_ ?_ hrun
    ⟨hprov, h⟩).2
  · intro w ts t hok hinv
    obtain ⟨hprov, h⟩ := hinv
    exact ⟨hprov.start hok.1, h.start hok.1⟩
  · intro w l t r env w' t' _ hadv hinv
    obtain ⟨hprov, h⟩ := hinv
    exact ⟨hprov.run (advance_idStep hadv), h.run hprov hadv⟩

/-! ## What a step does to a row -/

/-- A row stays, or the call that has checked it completes it. -/
theorem rows_of_step {sc : Scenario} {c : Conf (World Q) Task} {l r : List Task} {i : ℕ}
    {row : RoutingDecisionRecord} (hnodup : c.world.rowIds.Nodup) (hcontext : RowContext sc c)
    (htasks : c.tasks = l ++ t :: r)
    (hadv : (controlPlane D).advance env c.world t = some (w', t'))
    (hi : c.world.tables.decisions[i]? = some row) :
    w'.tables.decisions[i]? = some row
      ∨ ∃ call record, t = .outcome call (.storeOutcome record)
        ∧ row.agentId = call.principal.agentId
        ∧ row.decisionId = call.outcome.decisionId ∧ row.requestId = call.outcome.requestId
        ∧ row.outcomePayload = none
        ∧ w'.tables.decisions[i]? = some (row.complete call.outcome call.idempotencyKey) := by
  have hrow := List.mem_of_getElem? hi
  have hstep := advance_rowStep hadv
  cases hstep with
  | kept heq => exact .inl (heq ▸ hi)
  | inserted hins =>
    obtain ⟨hlt, -⟩ := List.getElem?_eq_some_iff.mp hi
    rw [(createDecision_ok hins).1]
    exact .inl ((List.getElem?_append_left hlt).trans hi)
  | @completed call record decision pc' hctx hopen htables =>
    have hcompleted : w'.tables.decisions[i]? = some (if row.decisionId = record.decisionId
        then row.complete call.outcome call.idempotencyKey else row) := by
      rw [htables, Tables.storeOutcome, List.getElem?_map, hi]
      rfl
    by_cases hsame : row.decisionId = record.decisionId
    · -- The update is by id, and the call has checked the agent and request
      -- of the row with that id.
      obtain ⟨hmem, hdid⟩ := Tables.getDecisionContext_some hctx
      obtain rfl := eq_of_decisionId hnodup hmem hrow (hdid.trans hsame.symm)
      have ht : Task.outcome call (.storeOutcome record) ∈ c.tasks := by simp [htasks]
      obtain ⟨hid, hagent, hrequest⟩ := hcontext.row_of_checked hnodup ht hmem hsame
      rw [if_pos hsame] at hcompleted
      exact .inr ⟨call, record, rfl, hagent, hid, hrequest, hopen, hcompleted⟩
    · rw [if_neg hsame] at hcompleted
      exact .inl hcompleted

/-! ## The guarantee -/

/-- What holds between principals in a state. -/
structure Isolated (c : Conf (World InMemoryQuota) Task) : Prop where
  /-- A decision of another environment or tenant is only ever replayed, to a
  call of the same agent with the key it is stored under. -/
  answers : ∀ call drawn response, .create call (.returned drawn response) ∈ c.tasks →
    ∀ row ∈ c.world.tables.decisions, row.decisionId = response.decisionId →
    row.environment ≠ call.principal.environment ∨ row.tenantId ≠ call.principal.tenantId →
    drawn = none ∧ truthy call.idempotencyKey = true
      ∧ row.idempotencyKey = call.idempotencyKey ∧ row.agentId = call.principal.agentId
  /-- The slot of a decision is under the environment and agent it was made
  for, and under no other key. -/
  slots : ∀ row ∈ c.world.tables.decisions, ∀ key,
    row.decisionId ∈ c.world.quota.concurrent key → key = (row.environment, row.agentId)
  /-- Once a principal of the decision's environment has reported it and got
  past the release, the slot is gone. -/
  released : ∀ call pc, .outcome call pc ∈ c.tasks → pc.Released →
    ∀ row ∈ c.world.tables.decisions, row.decisionId = call.outcome.decisionId →
    row.environment = call.principal.environment →
    ∀ key, row.decisionId ∉ c.world.quota.concurrent key

/-- What one step of `t` leaves of the others' rows and quotas. -/
structure IsolatedStep (w w' : World InMemoryQuota) (t : Task) : Prop where
  /-- A row changes by the report that names it and its request, and only from
  open to completed. -/
  rows : ∀ (i : ℕ) (row : RoutingDecisionRecord), w.tables.decisions[i]? = some row →
    w'.tables.decisions[i]? = some row
    ∨ ∃ call record, t = .outcome call (.storeOutcome record)
      ∧ row.agentId = call.principal.agentId
      ∧ row.decisionId = call.outcome.decisionId ∧ row.requestId = call.outcome.requestId
      ∧ row.outcomePayload = none
      ∧ w'.tables.decisions[i]? = some (row.complete call.outcome call.idempotencyKey)
  /-- The quotas of a principal of another environment are left alone. -/
  quotas : ∀ p : AgentPrincipal, p.environment ≠ t.principal.environment →
    w'.quota.concurrent p.quotaKey = w.quota.concurrent p.quotaKey
      ∧ ∀ day, w'.quota.dailyBudget (p.environment, p.agentId, day)
        = w.quota.dailyBudget (p.environment, p.agentId, day)

/-- **Isolation between principals of one agent**, in every run and at every
step that can follow it. -/
theorem isolation (policies : List (String × RoutingPolicy)) (settings : Settings) (sc : Scenario)
    (acts : List (Act Task Env)) (c : Conf (World InMemoryQuota) Task)
    (hrun : RunIn (buildInMemoryRuntime policies settings) sc ⟨World.empty {}, []⟩ acts c) :
    Isolated c ∧ ∀ l t r env w' t', c.tasks = l ++ t :: r →
      (controlPlane (buildInMemoryRuntime policies settings)).advance env c.world t
        = some (w', t') → IsolatedStep c.world w' t := by
  have hempty : Provenance (buildInMemoryRuntime policies settings) ⟨World.empty {}, []⟩ :=
    Provenance.empty fun _ => rfl
  have hprov := hrun.provenance hempty
  have hans := hrun.answered (by simp)
  have hcreated := hrun.created ⟨by simp [World.origins, World.empty],
    by simp [World.origins, World.empty]⟩
  have hreported := hrun.reported hempty ⟨by simp, by simp⟩
  have hcontext := hrun.rowContext RowContext.empty
  have hslots : ∀ row ∈ c.world.tables.decisions, ∀ key,
      row.decisionId ∈ c.world.quota.concurrent key → key = (row.environment, row.agentId) := by
    intro row hrow key hmem
    -- Only the call that drew the id reserves it, under its own principal's key.
    obtain ⟨t, ht, hdrawn, hagent, henv, -⟩ := hcreated.creator _ (World.origin_mem hrow)
    have hkey := hprov.held_owner t ht _ hdrawn key hmem
    rw [hkey, AgentPrincipal.quotaKey, ← henv, ← hagent]
    rfl
  refine ⟨⟨?_, hslots, ?_⟩, fun l t r env w' t' htasks hadv => ⟨?_, ?_⟩⟩
  · intro call drawn response hmem row hrow hid hforeign
    obtain ⟨⟨o, ho, hagent, hkey, hresp⟩, htruthy, hown⟩ := hans _ hmem call drawn response rfl
    cases drawn with
    | some id =>
      -- The call drew the id of the row, so it made the row.
      obtain rfl : id = response.decisionId := Option.some.inj (hown rfl)
      obtain ⟨u, hu, hdrawn, -, henv, htenant⟩ := hcreated.creator _ (World.origin_mem hrow)
      have huid : u.drawn = some response.decisionId := hid ▸ hdrawn
      obtain rfl := eq_of_drawn hprov.drawn_nodup hmem hu rfl huid
      exact hforeign.elim (absurd henv) (absurd htenant)
    | none =>
      -- The row replayed and the row with that id are one row.
      obtain ⟨row', hrow', rfl⟩ := World.mem_origins.mp ho
      have hid' : row'.decisionId = row.decisionId := by
        rw [hid, ← hresp]
        exact (hcreated.response _ ho).symm
      obtain rfl := eq_of_decisionId hprov.rows_nodup hrow' hrow hid'
      exact ⟨rfl, htruthy rfl, hkey, hagent⟩
  · intro call pc hmem hpc row hrow hid henv key hheld
    obtain ⟨o, ho, hoid, hagent⟩ := hreported.checked _ hmem call pc rfl hpc.checked
    obtain ⟨row', hrow', rfl⟩ := World.mem_origins.mp ho
    obtain rfl := eq_of_decisionId hprov.rows_nodup hrow' hrow (hoid.trans hid.symm)
    have hkey : key = call.principal.quotaKey := by
      rw [hslots row' hrow key hheld, AgentPrincipal.quotaKey, henv]
      exact congrArg _ hagent
    refine hreported.released _ hmem call pc rfl hpc ?_
    rw [← hid, ← hkey]
    exact hheld
  · exact fun i row hi => rows_of_step hprov.rows_nodup hcontext htasks hadv hi
  · intro p hp
    have hkey : p.quotaKey ≠ t.principal.quotaKey := fun heq => hp (congrArg Prod.fst heq)
    obtain ⟨hconcurrent, hbudget, -⟩ := (advance_quotaStep hadv).frame hkey
    exact ⟨hconcurrent, hbudget⟩

/-! ## Two principals of one agent -/

/-- `labAgent` in another environment and tenant. -/
def stagingAgent : AgentPrincipal :=
  { labAgent with environment := "staging", tenantId := "guest" }

/-- `labAgent` in another tenant. -/
def guestAgent : AgentPrincipal :=
  { labAgent with tenantId := "guest" }

/-- `keyedCall`, the same call from staging, staging's report, and a call of
the guest's own. -/
def crossCalls : List Task :=
  [labCreate keyedCall, labCreate { keyedCall with principal := stagingAgent },
    labReport { reportCall with principal := stagingAgent },
    labCreate { keyedCall with principal := guestAgent, idempotencyKey := none }]

/-- The four calls, one after the other. -/
def crossSchedule : List (ℕ × Env) :=
  List.replicate 8 (0, labEnv "a") ++ [(1, labEnv "b")] ++ List.replicate 6 (2, labEnv "c")
    ++ List.replicate 8 (3, labEnv "d")

/-- Runs of one agent id in which nothing fails. -/
def agentOne : Scenario where
  caller p := p.agentId = "agent-1"
  fault _ fault := fault = .returns

/-- If the four calls compute, they run. -/
theorem exists_run_of_crossCalls (P : Conf (World InMemoryQuota) Task → Bool)
    (h : ((controlPlane labDeps).exec ⟨World.empty {}, []⟩
      (traceActs crossCalls crossSchedule)).any P = true) :
    ∃ c, RunIn labDeps agentOne ⟨World.empty {}, []⟩ (traceActs crossCalls crossSchedule) c
      ∧ P c = true :=
  exists_run_of_trace labDeps agentOne (World.empty {}) crossCalls crossSchedule P
    (fun _ => rfl)
    (by simp [crossCalls, labCreate, labReport, Task.Started.create, Task.Started.outcome,
      agentOne, Task.principal, keyedCall, reportCall, labAgent, stagingAgent, guestAgent])
    (by simp [crossSchedule, labEnv]) h

/-- They end, and nothing has crossed over. -/
theorem isolation_crossed :
    ∃ c, RunIn labDeps agentOne ⟨World.empty {}, []⟩ (traceActs crossCalls crossSchedule) c ∧
      (∀ t ∈ c.tasks, t.Finished ∧ t.failure = none) ∧ Isolated c := by
  obtain ⟨c, hrun, hc⟩ := exists_run_of_crossCalls
    (fun c => decide (∀ t ∈ c.tasks, t.Finished ∧ t.failure = none)) (by decide +kernel)
  exact ⟨c, hrun, of_decide_eq_true hc, (isolation _ _ agentOne _ c hrun).1⟩

/-- What a call returned without drawing an id. -/
def Task.replayed : Task → Option RoutingDecisionResponse
  | .create _ (.returned none response) => some response
  | _ => none

/-- **What two principals of one agent do to each other.** Staging is answered
with the internal decision, completes its row, and releases a slot it never
held: the internal one stays taken. The guest's own decision takes a slot of
the same set. -/
theorem agent_id_is_shared :
    ∃ c, RunIn labDeps agentOne ⟨World.empty {}, []⟩ (traceActs crossCalls crossSchedule) c ∧
      c.tasks.map Task.principal = [labAgent, stagingAgent, stagingAgent, guestAgent] ∧
      (∃ response, (c.tasks[1]?).bind Task.replayed = some response ∧
        ∃ row ∈ c.world.tables.decisions, row.decisionId = response.decisionId
          ∧ row.OwnedBy labAgent ∧ row.status = .completed) ∧
      ((c.tasks[2]?).bind Task.outcomeResponse).map (·.outcomeStatus) = some .recorded ∧
      "a" ∈ c.world.quota.concurrent labAgent.quotaKey ∧
      ∃ row ∈ c.world.tables.decisions, row.OwnedBy guestAgent
        ∧ row.decisionId ∈ c.world.quota.concurrent labAgent.quotaKey := by
  obtain ⟨c, hrun, hc⟩ := exists_run_of_crossCalls (fun c => decide
    (c.tasks.map Task.principal = [labAgent, stagingAgent, stagingAgent, guestAgent]
      ∧ ((c.tasks[1]?).bind Task.replayed).map (·.decisionId) = some "a"
      ∧ (∃ row ∈ c.world.tables.decisions, row.decisionId = "a" ∧ row.OwnedBy labAgent
        ∧ row.status = .completed)
      ∧ ((c.tasks[2]?).bind Task.outcomeResponse).map (·.outcomeStatus) = some .recorded
      ∧ "a" ∈ c.world.quota.concurrent labAgent.quotaKey
      ∧ ∃ row ∈ c.world.tables.decisions, row.OwnedBy guestAgent
        ∧ row.decisionId ∈ c.world.quota.concurrent labAgent.quotaKey)) (by decide +kernel)
  obtain ⟨hprincipals, hreplay, ⟨row, hrow, hid, hrest⟩, hrecorded, hheld, hguest⟩ :=
    of_decide_eq_true hc
  obtain ⟨response, hresponse, hrid⟩ := Option.map_eq_some_iff.mp hreplay
  exact ⟨c, hrun, hprincipals, ⟨response, hresponse, row, hrow, hid.trans hrid.symm, hrest⟩,
    hrecorded, hheld, hguest⟩

end ControlPlane
