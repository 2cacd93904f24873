import ControlPlane.Provenance
import ControlPlane.Traces

/-!
# Idempotent creation

The lookup and the insertion of a keyed decision are two awaits with five
more between them, so two calls with one key can both miss the lookup. What
holds all the same, under any interleaving, is that the store keeps one row
per agent and key, that whoever gets an answer gets that row's, that a call
which starts late enough does nothing but read, and that whoever gets an
error holds no slot.

The quota manager is any that meets its interface; its calls may refuse and
may not fail. Every other awaited call may fail, before or after its effect.
-/

namespace ControlPlane

open Lib

variable {Q : Type} {D : Deps Q} {env : Env} {w w' : World Q} {t t' : Task}

/-- The quota manager raises nothing of its own. -/
def sureQuotas : Scenario where
  caller _ := True
  fault await fault :=
    match await with
    | .enforceRpm | .currentDailySpend | .reserveConcurrency | .releaseConcurrency
    | .recordSpend => fault = .returns
    | _ => True

/-! ## One row per key -/

/-- Two rows under one agent and one key. `NULL` is no key. -/
def SameKey (a b : RoutingDecisionRecord) : Prop :=
  a.agentId = b.agentId ∧ a.idempotencyKey = b.idempotencyKey ∧ a.idempotencyKey.isSome

/-- A step inserts no second row under a key. -/
theorem pairwise_keys_of_rowStep (h : RowStep w w' t t')
    (hw : w.origins.Pairwise fun a b => ¬ SameKey a b) :
    w'.origins.Pairwise fun a b => ¬ SameKey a b := by
  rcases h.origins with heq | ⟨call, response, pc', -, -, hins, heq⟩
  · rwa [heq]
  · -- The one row that can break the constraint is the new one, and its insertion checked.
    rw [heq, List.pairwise_append]
    refine ⟨hw, List.pairwise_singleton _ _, ?_⟩
    intro a ha b hb hsame
    obtain ⟨hagent, hkey, hsome⟩ := hsame
    obtain rfl := List.mem_singleton.mp hb
    obtain ⟨row, hrow, rfl⟩ := World.mem_origins.mp ha
    have hrkey : row.idempotencyKey = call.idempotencyKey := hkey
    have hrsome : row.idempotencyKey.isSome := hsome
    exact (createDecision_ok hins).2.2 (hrkey ▸ hrsome) row hrow ⟨hagent, hkey⟩

/-- Keys stay unique over a whole run. -/
theorem RunIn.pairwise_keys {sc : Scenario} {c c' : Conf (World Q) Task}
    {acts : List (Act Task Env)} (hrun : RunIn D sc c acts c')
    (hc : c.world.origins.Pairwise fun a b => ¬ SameKey a b) :
    c'.world.origins.Pairwise fun a b => ¬ SameKey a b :=
  System.Run.invariant (I := fun c => c.world.origins.Pairwise fun a b => ¬ SameKey a b)
    (fun _ _ _ _ h => h)
    (fun _ _ _ _ _ _ _ _ hadv => pairwise_keys_of_rowStep (advance_rowStep hadv)) hrun hc

/-- So a key has one row. -/
theorem eq_of_sameKey (h : w.origins.Pairwise fun a b => ¬ SameKey a b)
    {a b : RoutingDecisionRecord} (ha : a ∈ w.tables.decisions) (hb : b ∈ w.tables.decisions)
    (hab : SameKey a b) : a = b := by
  have hrows : w.tables.decisions.Pairwise fun a b => ¬ SameKey a b :=
    List.pairwise_map.mp h
  have hsymm : Std.Symm fun a b => ¬ SameKey a b :=
    ⟨fun _ _ hnot ⟨hagent, hkey, hsome⟩ => hnot ⟨hagent.symm, hkey.symm, hkey ▸ hsome⟩⟩
  -- Two different rows of one list would be two rows of the constraint.
  by_contra hne
  exact hrows.forall ha hb hne hab

/-! ## Answers -/

/-- What a returned call has behind it: a row under its agent and key with
the response it returned, and, where it drew an id, that id on the response.
Only a keyed call returns without drawing one. -/
def Answered (w : World Q) (t : Task) : Prop :=
  ∀ call drawn response, t = .create call (.returned drawn response) →
    (∃ o ∈ w.origins, o.agentId = call.principal.agentId
      ∧ o.idempotencyKey = call.idempotencyKey ∧ o.responsePayload = response)
    ∧ (drawn = none → truthy call.idempotencyKey = true)
    ∧ (drawn.isSome → drawn = some response.decisionId)

/-- What is returned is what the row holds. -/
theorem CreateStep.answered {call : CreateCall} {pc : CreatePc} {drawn : Option String}
    {response : RoutingDecisionResponse}
    (h : CreateStep D env call w pc w' (.returned drawn response)) :
    Answered w' (.create call (.returned drawn response)) := by
  rintro call drawn response ⟨⟩
  cases h with
  | replayed _ hget =>
    obtain ⟨hkey, row, hrow, hagent, hrkey, hresp⟩ := Tables.getByIdempotency_some hget
    exact ⟨⟨row.origin, World.origin_mem hrow, hagent, hrkey, hresp⟩, fun _ => hkey, by simp⟩
  | stored _ hins =>
    refine ⟨⟨decisionRecord call.principal call.request response call.idempotencyKey, ?_, rfl,
      rfl, rfl⟩, by simp, fun _ => rfl⟩
    refine World.mem_origins.mpr
      ⟨decisionRecord call.principal call.request response call.idempotencyKey, ?_, rfl⟩
    rw [(createDecision_ok hins).1]
    simp

/-- A call that starts has not answered. -/
theorem Task.Started.answered (h : t.Started) : Answered w t := by
  rintro call drawn response rfl
  generalize ht : Task.create call (.returned drawn response) = t at h
  cases h with
  | create call' =>
    obtain ⟨-, hpc⟩ := Task.create.inj ht
    unfold CreateCall.start at hpc
    split at hpc <;> simp at hpc
  | outcome call' => simp at ht

/-- Whatever has been answered is in the rows, in every state of a run. -/
theorem RunIn.answered {sc : Scenario} {c c' : Conf (World Q) Task} {acts : List (Act Task Env)}
    (hrun : RunIn D sc c acts c') (hc : ∀ t ∈ c.tasks, Answered c.world t) :
    ∀ t ∈ c'.tasks, Answered c'.world t := by
  refine System.Run.invariant (I := fun c => ∀ t ∈ c.tasks, Answered c.world t) ?_ ?_ hrun hc
  · intro w ts t hok h
    exact forall_mem_split.mpr ⟨hok.1.answered, fun u hu => h u (by simpa using hu)⟩
  · intro w l t r env w' t' _ hadv h
    rw [forall_mem_split] at h
    refine forall_mem_split.mpr ⟨?_, fun u hu call drawn response he => ?_⟩
    · rintro call drawn response rfl
      rcases advance_cases hadv with ⟨call', pc, pc', -, he, hstep⟩ | ⟨_, _, _, -, he, -⟩
      · obtain ⟨rfl, rfl⟩ := Task.create.inj he
        exact hstep.answered call drawn response rfl
      · simp at he
    · obtain ⟨⟨o, ho, hrest⟩, hkey⟩ := h.2 u hu call drawn response he
      exact ⟨⟨o, (advance_rowStep hadv).origins_subset ho, hrest⟩, hkey⟩

/-! ## Late calls -/

/-- A call that has at most looked its key up. -/
def CreatePc.OnlyRead : CreatePc → Prop
  | .lookup => True
  | .returned none _ => True
  | .raised none _ => True
  | _ => False

/-- A call starts by reading, if at all. -/
theorem CreateCall.start_onlyRead (call : CreateCall) : call.start.OnlyRead := by
  unfold CreateCall.start
  split <;> exact trivial

/-- With the row there, the lookup is the call's only step and it changes
nothing. -/
theorem CreateStep.onlyRead {call : CreateCall} {pc pc' : CreatePc}
    {row : RoutingDecisionRecord} (h : CreateStep D env call w pc w' pc')
    (hrow : row ∈ w.tables.decisions) (hagent : row.agentId = call.principal.agentId)
    (hkey : row.idempotencyKey = call.idempotencyKey)
    (htruthy : truthy call.idempotencyKey = true) (hpc : pc.OnlyRead) :
    w' = w ∧ pc'.OnlyRead := by
  cases h with
  | lookupRaised => exact ⟨rfl, trivial⟩
  | replayed => exact ⟨rfl, trivial⟩
  | missed _ hnone =>
    -- It cannot miss: the row is under its agent and key.
    have hsome := Tables.getByIdempotency_isSome hrow (hkey ▸ htruthy)
    rw [hagent, hkey, hnone] at hsome
    simp at hsome
  | _ => exact absurd hpc (by simp [CreatePc.OnlyRead])

/-- The late call at position `n`, in any run that follows. -/
theorem RunIn.onlyRead {sc : Scenario} {c c' : Conf (World Q) Task} {acts : List (Act Task Env)}
    {n : ℕ} {call : CreateCall} {o : RoutingDecisionRecord} (hrun : RunIn D sc c acts c')
    (hagent : o.agentId = call.principal.agentId)
    (hkey : o.idempotencyKey = call.idempotencyKey)
    (htruthy : truthy call.idempotencyKey = true) (ho : o ∈ c.world.origins)
    (hn : ∃ pc, c.tasks[n]? = some (.create call pc) ∧ pc.OnlyRead) :
    ∃ pc, c'.tasks[n]? = some (.create call pc) ∧ pc.OnlyRead := by
  refine (System.Run.invariant (I := fun c => o ∈ c.world.origins
    ∧ ∃ pc, c.tasks[n]? = some (.create call pc) ∧ pc.OnlyRead) ?_ ?_ hrun ⟨ho, hn⟩).2
  · intro w ts t _ hinv
    obtain ⟨ho, pc, hget, hpc⟩ := hinv
    refine ⟨ho, pc, ?_, hpc⟩
    obtain ⟨hlt, -⟩ := List.getElem?_eq_some_iff.mp hget
    exact (List.getElem?_append_left hlt).trans hget
  · intro w l t r env w' t' _ hadv hinv
    obtain ⟨ho, pc, hget, hpc⟩ := hinv
    refine ⟨(advance_rowStep hadv).origins_subset ho, ?_⟩
    -- Its own step, or a step of another call, which leaves it where it is.
    by_cases hnl : n = l.length
    · subst hnl
      rw [getElem?_split_self] at hget
      rcases advance_cases hadv with ⟨call', pc₁, pc', rfl, rfl, hstep⟩ | ⟨_, _, _, rfl, -, -⟩
      · obtain ⟨rfl, rfl⟩ := Task.create.inj (Option.some.inj hget)
        obtain ⟨row, hrow, rfl⟩ := World.mem_origins.mp ho
        exact ⟨pc', getElem?_split_self _, (hstep.onlyRead hrow hagent hkey htruthy hpc).2⟩
      · simp at hget
    · exact ⟨pc, (getElem?_split_ne t t' hnl).trans hget, hpc⟩

/-! ## Errors -/

/-- The ids of the calls that have raised. -/
def Task.abandoned : Task → Option String
  | .create _ (.raised drawn _) => drawn
  | _ => none

/-- A call that raised with an id had drawn it. -/
theorem Task.drawn_of_abandoned {id : String} (h : t.abandoned = some id) :
    t.drawn = some id := by
  unfold abandoned at h
  split at h
  next => exact h
  next => simp at h

/-- With sure quotas, a call that raises has just given its slot back. -/
theorem CreateStep.abandoned {call : CreateCall} {pc pc' : CreatePc} {id : String}
    (h : CreateStep D env call w pc w' pc')
    (hfault : ∀ a, (Task.create call pc).await = some a → sureQuotas.fault a env.fault)
    (hid : (Task.create call pc').abandoned = some id) :
    id ∉ D.quotaManager.held w'.quota call.principal.quotaKey := by
  cases h with
  | reserveRaised hf => exact absurd (hfault _ rfl) hf
  | reserveRefused _ hres =>
    obtain rfl := Option.some.inj hid
    exact D.quotaManager.notMem_held_refused hres
  | releaseRaised hf => exact absurd (hfault _ rfl) hf
  | released =>
    obtain rfl := Option.some.inj hid
    exact D.quotaManager.notMem_held_released
  | _ => simp [Task.abandoned] at hid

/-- What an abandoned call drew is in no slot set, in every state of a run. -/
theorem RunIn.abandoned {c c' : Conf (World Q) Task} {acts : List (Act Task Env)}
    (hrun : RunIn D sureQuotas c acts c') (hprov : Provenance D c)
    (hc : ∀ t ∈ c.tasks, ∀ id, t.abandoned = some id →
      ∀ key, id ∉ D.quotaManager.held c.world.quota key) :
    ∀ t ∈ c'.tasks, ∀ id, t.abandoned = some id →
      ∀ key, id ∉ D.quotaManager.held c'.world.quota key := by
  refine (System.Run.invariant (I := fun c => Provenance D c ∧ ∀ t ∈ c.tasks, ∀ id,
    t.abandoned = some id → ∀ key, id ∉ D.quotaManager.held c.world.quota key)
    ?_ ?_ hrun ⟨hprov, hc⟩).2
  · intro w ts t hok hinv
    obtain ⟨hprov, h⟩ := hinv
    refine ⟨hprov.start hok.1, forall_mem_split.mpr ⟨?_, fun u hu => h u (by simpa using hu)⟩⟩
    intro id hid
    have hnone := hok.1.drawn_eq
    simp [Task.drawn_of_abandoned hid] at hnone
  · intro w l t r env w' t' hok hadv hinv
    obtain ⟨hprov, h⟩ := hinv
    have hids := advance_idStep hadv
    have hprov' := hprov.run hids
    refine ⟨hprov', ?_⟩
    simp only at h
    rw [forall_mem_split] at h
    refine forall_mem_split.mpr ⟨fun id hid key hmem => ?_, fun u hu id hid key hmem => ?_⟩
    · -- The id can only be held under the caller's own key, and there the release took it out.
      have hkey := hprov'.held_owner t' (by simp) id (Task.drawn_of_abandoned hid) key hmem
      subst hkey
      rcases advance_cases hadv with ⟨call, pc, pc', rfl, rfl, hstep⟩ | ⟨_, _, _, -, rfl, -⟩
      · exact hstep.abandoned (fun a ha => hok _ (by simp) a ha) hid hmem
      · simp [Task.abandoned] at hid
    · rcases hids.held key id hmem with hold | ⟨hres, -⟩
      · exact h.2 u hu id hid key hold
      · exact drawn_ne_of_nodup hprov.drawn_nodup
          (Task.drawn_of_unstored (Task.unstored_of_unreserved hres)) hu
          (Task.drawn_of_abandoned hid)

/-! ## The guarantee -/

/-- What idempotent creation promises in a state. -/
structure IdempotentCreation (D : Deps Q) (c : Conf (World Q) Task) : Prop where
  /-- One row per agent and non-empty key. -/
  oneRow : ∀ a ∈ c.world.tables.decisions, ∀ b ∈ c.world.tables.decisions,
    a.agentId = b.agentId → a.idempotencyKey = b.idempotencyKey →
    truthy a.idempotencyKey = true → a = b
  /-- Every answer to a keyed call is that row's response. -/
  answers : ∀ call drawn response, .create call (.returned drawn response) ∈ c.tasks →
    truthy call.idempotencyKey = true →
    ∃ row ∈ c.world.tables.decisions, row.agentId = call.principal.agentId
      ∧ row.idempotencyKey = call.idempotencyKey ∧ row.responsePayload = response
  /-- A call made once the row is there leaves the world as every step of it
  finds it. -/
  lateCalls : ∀ call, ∀ row ∈ c.world.tables.decisions,
    row.agentId = call.principal.agentId → row.idempotencyKey = call.idempotencyKey →
    truthy call.idempotencyKey = true →
    ∀ acts c₁ env c₂,
      RunIn D sureQuotas ⟨c.world, c.tasks ++ [.create call call.start]⟩ acts c₁ →
      (controlPlane D).step c₁ (.run c.tasks.length env) = some c₂ → c₂.world = c₁.world
  /-- A call that raised holds no slot. -/
  errors : ∀ call drawn err, .create call (.raised drawn err) ∈ c.tasks →
    ∀ id, drawn = some id → ∀ key, id ∉ D.quotaManager.held c.world.quota key
  /-- A call without a key answers with a decision of its own, drawn by no
  other call. -/
  unkeyed : ∀ l call drawn response r,
    c.tasks = l ++ .create call (.returned drawn response) :: r → call.idempotencyKey = none →
    drawn = some response.decisionId ∧ ∀ u, u ∈ l ∨ u ∈ r → u.drawn ≠ drawn

/-- **Creation is idempotent under every interleaving** of any calls, over any
quota manager that starts empty. -/
theorem idempotent_creation (D : Deps Q) {q : Q} (hq : ∀ key, D.quotaManager.held q key = ∅)
    {acts : List (Act Task Env)} {c : Conf (World Q) Task}
    (hrun : RunIn D sureQuotas ⟨World.empty q, []⟩ acts c) : IdempotentCreation D c := by
  have hprov := hrun.provenance (Provenance.empty hq)
  have hans := hrun.answered (by simp)
  have hkeys := hrun.pairwise_keys (by simp [World.origins, World.empty])
  refine ⟨?_, ?_, ?_, ?_, ?_⟩
  · intro a ha b hb hagent hkey htruthy
    refine eq_of_sameKey hkeys ha hb ⟨hagent, hkey, ?_⟩
    cases hk : a.idempotencyKey
    · simp [hk, truthy] at htruthy
    · rfl
  · intro call drawn response hmem _
    obtain ⟨⟨o, ho, hagent, hkey, hresp⟩, -⟩ := hans _ hmem call drawn response rfl
    obtain ⟨row, hrow, rfl⟩ := World.mem_origins.mp ho
    exact ⟨row, hrow, hagent, hkey, hresp⟩
  · intro call row hrow hagent hkey htruthy acts' c₁ env c₂ hrun' hstep
    have hmem : row.origin ∈ c.world.origins := World.origin_mem hrow
    obtain ⟨pc, hget, hpc⟩ := hrun'.onlyRead (n := c.tasks.length) (o := row.origin) hagent hkey
      htruthy hmem ⟨_, by simp, call.start_onlyRead⟩
    obtain ⟨l, t, r, w', t', htasks, hlen, hadv, rfl⟩ := (System.step_run_iff _).mp hstep
    rw [htasks, ← hlen, getElem?_split_self] at hget
    obtain rfl := Option.some.inj hget
    rcases advance_cases hadv with ⟨call', pc₁, pc', he, -, hst⟩ | ⟨_, _, _, he, -, -⟩
    · obtain ⟨rfl, rfl⟩ := Task.create.inj he
      obtain ⟨row', hrow', ho⟩ := World.mem_origins.mp (hrun'.origins_subset hmem)
      have hagent' : row'.agentId = row.agentId := congrArg (·.agentId) ho
      have hkey' : row'.idempotencyKey = row.idempotencyKey := congrArg (·.idempotencyKey) ho
      exact (hst.onlyRead hrow' (hagent'.trans hagent) (hkey'.trans hkey) htruthy hpc).1
    · simp at he
  · intro call drawn err hmem id hid
    exact hrun.abandoned (Provenance.empty hq) (by simp) _ hmem id hid
  · intro l call drawn response r htasks hnone
    obtain ⟨-, hreplay, hown⟩ := hans _ (by rw [htasks]; simp) call drawn response rfl
    have hdrawn : drawn = some response.decisionId := by
      cases hd : drawn with
      | none => simpa [hnone, truthy] using hreplay hd
      | some id =>
        rw [← hd]
        exact hown (by simp [hd])
    refine ⟨hdrawn, fun u hu => ?_⟩
    rw [hdrawn]
    have hnodup := hprov.drawn_nodup
    rw [htasks] at hnodup
    exact drawn_ne_of_nodup hnodup hdrawn hu

/-- A keyed call, and the same call again. -/
theorem idempotent_creation_replay :
    ∃ c, RunIn labDeps sureQuotas ⟨World.empty {}, []⟩
        (traceActs [labCreate keyedCall, labCreate keyedCall]
          (List.replicate 8 (0, labEnv "a") ++ [(1, labEnv "b")])) c ∧
      (∀ t ∈ c.tasks, t.Finished ∧ t.failure = none) ∧ IdempotentCreation labDeps c := by
  obtain ⟨c, hrun, hc⟩ := exists_run_of_trace labDeps sureQuotas (World.empty {})
    [labCreate keyedCall, labCreate keyedCall]
    (List.replicate 8 (0, labEnv "a") ++ [(1, labEnv "b")])
    (fun c => decide (∀ t ∈ c.tasks, t.Finished ∧ t.failure = none))
    (by intro a; cases a <;> trivial)
    (by simp [labCreate, Task.Started.create, sureQuotas]) (by simp [labEnv])
    (by decide +kernel)
  exact ⟨c, hrun, of_decide_eq_true hc, idempotent_creation labDeps (fun _ => rfl) hrun⟩

end ControlPlane
