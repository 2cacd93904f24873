import ControlPlane.Provenance

/-!
# What a step does to the in-memory quotas

One of five things (`QuotaStep`), each under the key of the calling
principal. The frames follow: another key's slot set, spend and RPM counters
are not touched; a slot set grows by an admitted reservation only, and then
within the limit; spend is recorded by an outcome call only.
-/

namespace ControlPlane

open Lib

variable {policies : List (String × RoutingPolicy)} {settings : Settings}
  {env : Env} {w w' : World InMemoryQuota} {t t' : Task} {q q' : InMemoryQuota}

/-- The id a call is about to release. -/
def Task.releasing : Task → Option String
  | create _ (.release decisionId _) => some decisionId
  | outcome call (.release _) => some call.outcome.decisionId
  | _ => none

/-- The quotas after a step of `t`. -/
inductive QuotaStep (t : Task) (q : InMemoryQuota) : InMemoryQuota → Prop
  | same : QuotaStep t q q
  | counted (clock : Clock) : QuotaStep t q (q.enforceRpm clock t.principal).1
  | reserved {decisionId : String} : t.unreserved = some decisionId →
      QuotaStep t q (q.reserveConcurrency t.principal decisionId).1
  | released {decisionId : String} : t.releasing = some decisionId →
      QuotaStep t q (q.releaseConcurrency t.principal decisionId)
  | spent (clock : Clock) {call : OutcomeCall} {response : RoutingOutcomeResponse} :
      t = .outcome call (.recordSpend response) →
      QuotaStep t q (q.recordSpend clock t.principal call.outcome.finalCostUsd)

/-- What a creation does to the quota. -/
theorem CreateStep.quotaStep {call : CreateCall} {pc pc' : CreatePc}
    (h : CreateStep (buildInMemoryRuntime policies settings) env call w pc w' pc') :
    QuotaStep (.create call pc) w.quota w'.quota := by
  cases h with
  | rpmRaised _ hq =>
    rcases hq with rfl | rfl
    · exact .same
    · exact .counted env.clock
  | rpmRefused _ hq =>
    obtain ⟨rfl, -⟩ := Prod.mk.inj hq
    exact .counted env.clock
  | rpmPassed _ hq =>
    obtain ⟨rfl, -⟩ := Prod.mk.inj hq
    exact .counted env.clock
  | reserveRaised _ hq =>
    rcases hq with rfl | rfl
    · exact .same
    · exact .reserved rfl
  | @reserveRefused _ _ decisionId q err _ hq =>
    obtain rfl : (w.quota.reserveConcurrency call.principal decisionId).1 = q :=
      congrArg Prod.fst hq
    exact .reserved rfl
  | @reserved _ _ decisionId q _ hq =>
    obtain rfl : (w.quota.reserveConcurrency call.principal decisionId).1 = q :=
      congrArg Prod.fst hq
    exact .reserved rfl
  | releaseRaised _ hw =>
    rcases hw with rfl | rfl
    · exact .same
    · exact .released rfl
  | released => exact .released rfl
  | _ => exact .same

/-- What a report does to it. -/
theorem OutcomeStep.quotaStep {call : OutcomeCall} {pc pc' : OutcomePc}
    (h : OutcomeStep (buildInMemoryRuntime policies settings) env call w pc w' pc') :
    QuotaStep (.outcome call pc) w.quota w'.quota := by
  cases h with
  | rpmRaised _ hq =>
    rcases hq with rfl | rfl
    · exact .same
    · exact .counted env.clock
  | rpmRefused _ hq =>
    obtain ⟨rfl, -⟩ := Prod.mk.inj hq
    exact .counted env.clock
  | rpmPassed _ hq =>
    obtain ⟨rfl, -⟩ := Prod.mk.inj hq
    exact .counted env.clock
  | releaseRaised _ hw =>
    rcases hw with rfl | rfl
    · exact .same
    · exact .released rfl
  | released => exact .released rfl
  | spendRaised _ hw =>
    rcases hw with rfl | rfl
    · exact .same
    · exact .spent env.clock rfl
  | spent => exact .spent env.clock rfl
  | _ => exact .same

/-- What any step does to it. -/
theorem advance_quotaStep
    (h : (controlPlane (buildInMemoryRuntime policies settings)).advance env w t = some (w', t')) :
    QuotaStep t w.quota w'.quota := by
  rcases advance_cases h with ⟨call, pc, pc', rfl, rfl, hstep⟩ | ⟨call, pc, pc', rfl, rfl, hstep⟩
  · exact hstep.quotaStep
  · exact hstep.quotaStep

/-- Another key's quotas are left alone. -/
theorem QuotaStep.frame (h : QuotaStep t q q') {key : String × String}
    (hkey : key ≠ t.principal.quotaKey) :
    q'.concurrent key = q.concurrent key
      ∧ (∀ day, q'.dailyBudget (key.1, key.2, day) = q.dailyBudget (key.1, key.2, day))
      ∧ ∀ minute, q'.rpm (key.1, key.2, minute) = q.rpm (key.1, key.2, minute) := by
  -- Extended by a day or a minute, two different keys stay different.
  have hne : ∀ {α : Type} (x y : α), (key.1, key.2, x)
      ≠ (t.principal.environment, t.principal.agentId, y) := by
    intro α x y heq
    obtain ⟨henv, hrest⟩ := Prod.mk.inj heq
    exact hkey (Prod.ext henv (Prod.mk.inj hrest).1)
  cases h with
  | same => exact ⟨rfl, fun _ => rfl, fun _ => rfl⟩
  | counted clock => exact ⟨rfl, fun _ => rfl, fun _ => Function.update_of_ne (hne _ _) _ _⟩
  | @reserved id _ =>
    rcases InMemoryQuota.reserveConcurrency_cases t.principal id q with ⟨-, hres⟩ | hres <;>
      rw [hres] <;>
      exact ⟨Function.update_of_ne hkey _ _, fun _ => rfl, fun _ => rfl⟩
  | released => exact ⟨Function.update_of_ne hkey _ _, fun _ => rfl, fun _ => rfl⟩
  | spent clock => exact ⟨rfl, fun _ => Function.update_of_ne (hne _ _) _ _, fun _ => rfl⟩

/-- A slot set that grows does so within the limit of the caller. -/
theorem QuotaStep.slots (h : QuotaStep t q q') (key : String × String) :
    q'.concurrent key ⊆ q.concurrent key
      ∨ (key = t.principal.quotaKey
        ∧ ((q'.concurrent key).card : ℤ) ≤ t.principal.concurrentLimit) := by
  by_cases hkey : key = t.principal.quotaKey
  · subst hkey
    cases h with
    | same => exact .inl (Finset.Subset.refl _)
    | counted clock => exact .inl (Finset.Subset.refl _)
    | @reserved id _ =>
      rcases InMemoryQuota.reserveConcurrency_cases t.principal id q with ⟨hle, hres⟩ | hres <;>
        rw [hres]
      · -- Admitted: the manager has counted the set with the new id in it.
        refine .inr ⟨rfl, ?_⟩
        simpa [InMemoryQuota.setSlots] using hle
      · refine .inl ?_
        simpa [InMemoryQuota.setSlots] using Finset.erase_subset _ _
    | released =>
      refine .inl ?_
      simpa [InMemoryQuota.releaseConcurrency, InMemoryQuota.setSlots]
        using Finset.erase_subset _ _
    | spent clock => exact .inl (Finset.Subset.refl _)
  · rw [(h.frame hkey).1]
    exact .inl (Finset.Subset.refl _)

/-- Spend changes where an outcome call charges. -/
theorem QuotaStep.dailyBudget (h : QuotaStep t q q') :
    q'.dailyBudget = q.dailyBudget
      ∨ ∃ clock call response, t = .outcome call (.recordSpend response)
        ∧ q' = q.recordSpend clock t.principal call.outcome.finalCostUsd := by
  cases h with
  | same => exact .inl rfl
  | counted clock => exact .inl rfl
  | @reserved id _ =>
    rcases InMemoryQuota.reserveConcurrency_cases t.principal id q with ⟨-, hres⟩ | hres <;>
      rw [hres] <;> exact .inl rfl
  | released => exact .inl rfl
  | spent clock ht => exact .inr ⟨clock, _, _, ht, rfl⟩

/-- The one thing charged from `w` to `w'` is the cost `call` reports, once. -/
def ChargedFor (call : OutcomeCall) (w w' : World InMemoryQuota) : Prop :=
  ∃ today, w'.quota.dailyBudget = Function.update w.quota.dailyBudget
    (call.principal.environment, call.principal.agentId, today)
    (w.quota.dailyBudget (call.principal.environment, call.principal.agentId, today)
      + call.outcome.finalCostUsd)

/-- A recorded spend is the charge. -/
theorem ChargedFor.of_recordSpend (clock : Clock) {call : OutcomeCall}
    {w w' : World InMemoryQuota} {q : InMemoryQuota} (hq : q.dailyBudget = w.quota.dailyBudget)
    (h : w'.quota.dailyBudget
      = (q.recordSpend clock call.principal call.outcome.finalCostUsd).dailyBudget) :
    ChargedFor call w w' := by
  refine ⟨clock.today, ?_⟩
  rw [h, ← hq]
  rfl

end ControlPlane
