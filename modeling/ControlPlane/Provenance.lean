import ControlPlane.Rows

/-!
# Where ids come from

A decision id is drawn by one `create_decision` call and by no other; until
that call reserves, no slot set holds the id, until it inserts, no row has
it, and the slot set that comes to hold it is that of the call's own
principal. `IdStep` is what one step does to the ids; `Provenance` is derived
from it and holds in every run, whatever fails and whoever calls.
-/

namespace ControlPlane

open Lib

variable {Q : Type} {D : Deps Q} {env : Env} {w w' : World Q} {t t' : Task}

/-! ## Ids a call has drawn -/

namespace Task

/-- The decision id a call has drawn. -/
def drawn : Task → Option String
  | create _ pc =>
    match pc with
    | .reserve _ _ decisionId => some decisionId
    | .getSignals _ _ decisionId => some decisionId
    | .storeDecision response => some response.decisionId
    | .release decisionId _ => some decisionId
    | .returned drawn _ => drawn
    | .raised drawn _ => drawn
    | _ => none
  | outcome _ _ => none

/-- The id of a call that has not inserted its row yet. -/
def unstored : Task → Option String
  | create _ (.reserve _ _ decisionId) => some decisionId
  | create _ (.getSignals _ _ decisionId) => some decisionId
  | create _ (.storeDecision response) => some response.decisionId
  | _ => none

/-- The id of a call that is about to reserve. -/
def unreserved : Task → Option String
  | create _ (.reserve _ _ decisionId) => some decisionId
  | _ => none

/-- An id to be stored was drawn. -/
theorem drawn_of_unstored {t : Task} {id : String} (h : t.unstored = some id) :
    t.drawn = some id := by
  unfold unstored at h
  split at h <;> simp_all [drawn]

/-- An id to be reserved is to be stored. -/
theorem unstored_of_unreserved {t : Task} {id : String} (h : t.unreserved = some id) :
    t.unstored = some id := by
  unfold unreserved at h
  split at h <;> simp_all [unstored]

/-- A call that has just begun has drawn none. -/
theorem Started.drawn_eq (h : t.Started) : t.drawn = none := by
  cases h with
  | create call =>
    unfold CreateCall.start
    split <;> rfl
  | outcome call => rfl

end Task

/-- The ids of the rows. -/
def World.rowIds (w : World Q) : List String :=
  w.tables.decisions.map (·.decisionId)

/-- Two rows with one id are one row. -/
theorem eq_of_decisionId (hnodup : w.rowIds.Nodup) {a b : RoutingDecisionRecord}
    (ha : a ∈ w.tables.decisions) (hb : b ∈ w.tables.decisions)
    (hab : a.decisionId = b.decisionId) : a = b :=
  List.inj_on_of_nodup_map hnodup ha hb hab

/-- What a reporting call has checked of the record it read holds of the row
by now. -/
theorem RowContext.row_of_checked {sc : Scenario} {c : Conf (World Q) Task}
    (h : RowContext sc c) (hnodup : c.world.rowIds.Nodup) {call : OutcomeCall}
    {record row : RoutingDecisionRecord} (ht : .outcome call (.storeOutcome record) ∈ c.tasks)
    (hrow : row ∈ c.world.tables.decisions) (hid : row.decisionId = record.decisionId) :
    row.decisionId = call.outcome.decisionId ∧ row.agentId = call.principal.agentId
      ∧ row.requestId = call.outcome.requestId := by
  obtain ⟨horigin, hrid, hagent, hrequest⟩ := h.checked _ ht call record rfl
  -- The record is an older state of a row that is still there, and its id says which.
  obtain ⟨row₀, hrow₀, horigin₀⟩ := World.mem_origins.mp horigin
  have hid₀ : row₀.decisionId = record.decisionId := congrArg (·.decisionId) horigin₀
  obtain rfl := eq_of_decisionId hnodup hrow₀ hrow (hid₀.trans hid.symm)
  have hagent₀ : row₀.agentId = record.agentId := congrArg (·.agentId) horigin₀
  have hrequest₀ : row₀.requestId = record.requestId := congrArg (·.requestId) horigin₀
  exact ⟨hid.trans hrid, hagent₀.trans hagent, hrequest₀.trans hrequest⟩

/-! ## What a step does to the ids -/

/-- The ids a step draws, stores and reserves. -/
structure IdStep (D : Deps Q) (w w' : World Q) (t t' : Task) : Prop where
  principal : t'.principal = t.principal
  drawn : (w'.issued = w.issued ∧ t'.drawn = t.drawn)
    ∨ ∃ id ∉ w.issued, w'.issued = id :: w.issued ∧ t.drawn = none ∧ t'.drawn = some id
  unstored : ∀ id, t'.unstored = some id → t.unstored = some id ∨ id ∉ w.issued
  unreserved : ∀ id, t'.unreserved = some id → id ∉ w.issued
  rows : w'.rowIds = w.rowIds
    ∨ ∃ id, t.unstored = some id ∧ t'.unstored = none ∧ w'.rowIds = w.rowIds ++ [id]
  held : ∀ key id, id ∈ D.quotaManager.held w'.quota key → id ∈ D.quotaManager.held w.quota key
    ∨ (t.unreserved = some id ∧ key = t.principal.quotaKey)

/-- A stored outcome leaves the ids alone. -/
theorem rowIds_storeOutcome (tables : Tables) (decisionId : String)
    (outcome : RoutingOutcomeRequest) (idempotencyKey : Option String) :
    (tables.storeOutcome decisionId outcome idempotencyKey).decisions.map (·.decisionId)
      = tables.decisions.map (·.decisionId) := by
  simp only [Tables.storeOutcome, List.map_map]
  refine List.map_congr_left fun row _ => ?_
  by_cases h : row.decisionId = decisionId <;> simp [h, RoutingDecisionRecord.complete]

/-- A row gets in under the id its call drew. -/
theorem RowStep.rowIds (h : RowStep w w' t t') :
    w'.rowIds = w.rowIds
      ∨ ∃ id, t.unstored = some id ∧ t'.unstored = none ∧ w'.rowIds = w.rowIds ++ [id] := by
  cases h with
  | kept h => exact .inl (by rw [World.rowIds, h, World.rowIds])
  | inserted hins hpc =>
    refine .inr ⟨_, rfl, by rcases hpc with rfl | rfl <;> rfl, ?_⟩
    rw [World.rowIds, (createDecision_ok hins).1]
    simp [decisionRecord, World.rowIds]
  | completed _ _ htables =>
    refine .inl ?_
    rw [World.rowIds, htables, rowIds_storeOutcome, World.rowIds]

/-- A step after which the call has nothing left to store or to reserve. -/
theorem IdStep.dropped (hprincipal : t'.principal = t.principal) (hissued : w'.issued = w.issued)
    (hdrawn : t'.drawn = t.drawn) (hunstored : t'.unstored = none)
    (hunreserved : t'.unreserved = none)
    (hrows : w'.rowIds = w.rowIds
      ∨ ∃ id, t.unstored = some id ∧ t'.unstored = none ∧ w'.rowIds = w.rowIds ++ [id])
    (hheld : ∀ key id, id ∈ D.quotaManager.held w'.quota key →
      id ∈ D.quotaManager.held w.quota key
        ∨ (t.unreserved = some id ∧ key = t.principal.quotaKey)) : IdStep D w w' t t' where
  principal := hprincipal
  drawn := .inl ⟨hissued, hdrawn⟩
  unstored id hid := by simp [hunstored] at hid
  unreserved id hid := by simp [hunreserved] at hid
  rows := hrows
  held := hheld

/-- A creation's step. -/
theorem CreateStep.idStep {call : CreateCall} {pc pc' : CreatePc}
    (h : CreateStep D env call w pc w' pc') :
    IdStep D w w' (.create call pc) (.create call pc') := by
  have hrows := h.rowStep.rowIds
  cases h with
  | rpmRaised _ hq =>
    refine .dropped rfl rfl rfl rfl rfl hrows ?_
    intro key id hid
    rcases hq with rfl | rfl
    · exact .inl hid
    · exact .inl (by rwa [D.quotaManager.rpm_held] at hid)
  | rpmRefused _ hq =>
    refine .dropped rfl rfl rfl rfl rfl hrows ?_
    intro key id hid
    have hheld := D.quotaManager.rpm_held env.clock call.principal w.quota
    rw [hq] at hheld
    exact .inl (hheld ▸ hid)
  | rpmPassed _ hq =>
    refine .dropped rfl rfl rfl rfl rfl hrows ?_
    intro key id hid
    have hheld := D.quotaManager.rpm_held env.clock call.principal w.quota
    rw [hq] at hheld
    exact .inl (hheld ▸ hid)
  | metadataSkipped _ _ hfresh =>
    exact ⟨rfl, .inr ⟨_, hfresh, rfl, rfl, rfl⟩,
      by simpa [Task.unstored] using hfresh, by simpa [Task.unreserved] using hfresh,
      hrows, fun _ _ => .inl⟩
  | policiesKept _ hfresh =>
    exact ⟨rfl, .inr ⟨_, hfresh, rfl, rfl, rfl⟩,
      by simpa [Task.unstored] using hfresh, by simpa [Task.unreserved] using hfresh,
      hrows, fun _ _ => .inl⟩
  | reserveRaised _ hq =>
    refine .dropped rfl rfl rfl rfl rfl hrows ?_
    intro key id hid
    rcases hq with rfl | rfl
    · exact .inl hid
    · exact (D.quotaManager.mem_held_reserve hid).imp_right
        fun ⟨he, hkey⟩ => ⟨by rw [he]; rfl, hkey⟩
  | reserveRefused _ hq =>
    refine .dropped rfl rfl rfl rfl rfl hrows ?_
    intro key id hid
    refine (D.quotaManager.mem_held_reserve (by rw [hq]; exact hid)).imp_right ?_
    exact fun ⟨he, hkey⟩ => ⟨by rw [he]; rfl, hkey⟩
  | reserved _ hq =>
    refine ⟨rfl, .inl ⟨rfl, rfl⟩, fun _ h => .inl h, by simp [Task.unreserved], hrows, ?_⟩
    intro key id hid
    refine (D.quotaManager.mem_held_reserve (by rw [hq]; exact hid)).imp_right ?_
    exact fun ⟨he, hkey⟩ => ⟨by rw [he]; rfl, hkey⟩
  | priced =>
    exact ⟨rfl, .inl ⟨rfl, rfl⟩, fun _ h => .inl h, by simp [Task.unreserved], hrows,
      fun _ _ => .inl⟩
  | releaseRaised _ hw =>
    rcases hw with rfl | rfl
    · exact .dropped rfl rfl rfl rfl rfl hrows fun _ _ => .inl
    · exact .dropped rfl rfl rfl rfl rfl hrows fun _ _ hid =>
        .inl (D.quotaManager.mem_held_release hid)
  | released =>
    exact .dropped rfl rfl rfl rfl rfl hrows fun _ _ hid =>
      .inl (D.quotaManager.mem_held_release hid)
  | _ => exact .dropped rfl rfl rfl rfl rfl hrows fun _ _ => .inl

/-- A report holds no more slots than before. -/
theorem OutcomeStep.held_subset {call : OutcomeCall} {pc pc' : OutcomePc}
    (h : OutcomeStep D env call w pc w' pc') (key : String × String) :
    D.quotaManager.held w'.quota key ⊆ D.quotaManager.held w.quota key := by
  intro id hid
  cases h with
  | rpmRaised _ hq =>
    rcases hq with rfl | rfl
    · exact hid
    · rwa [D.quotaManager.rpm_held] at hid
  | rpmRefused _ hq =>
    have hheld := D.quotaManager.rpm_held env.clock call.principal w.quota
    rw [hq] at hheld
    exact hheld ▸ hid
  | rpmPassed _ hq =>
    have hheld := D.quotaManager.rpm_held env.clock call.principal w.quota
    rw [hq] at hheld
    exact hheld ▸ hid
  | releaseRaised _ hw =>
    rcases hw with rfl | rfl
    · exact hid
    · exact D.quotaManager.mem_held_release hid
  | released => exact D.quotaManager.mem_held_release hid
  | spendRaised _ hw =>
    rcases hw with rfl | rfl
    · exact hid
    · simpa only [World.chargeSpend, D.quotaManager.spend_held] using hid
  | spent => simpa only [World.chargeSpend, D.quotaManager.spend_held] using hid
  | _ => exact hid

/-- It draws no id. -/
theorem OutcomeStep.issued_eq {call : OutcomeCall} {pc pc' : OutcomePc}
    (h : OutcomeStep D env call w pc w' pc') : w'.issued = w.issued := by
  cases h with
  | releaseRaised _ hw => rcases hw with rfl | rfl <;> rfl
  | spendRaised _ hw => rcases hw with rfl | rfl <;> rfl
  | _ => rfl

/-- A step of either. -/
theorem advance_idStep (h : (controlPlane D).advance env w t = some (w', t')) :
    IdStep D w w' t t' := by
  rcases advance_cases h with ⟨call, pc, pc', rfl, rfl, hstep⟩ | ⟨call, pc, pc', rfl, rfl, hstep⟩
  · exact hstep.idStep
  · exact .dropped rfl hstep.issued_eq rfl rfl rfl hstep.rowStep.rowIds
      fun key _ hid => .inl (hstep.held_subset key hid)

/-! ## The invariant -/

/-- No two calls draw the same id. -/
structure DrawnOnce (c : Conf (World Q) Task) : Prop where
  drawn_nodup : (c.tasks.filterMap Task.drawn).Nodup
  drawn_issued : ∀ t ∈ c.tasks, ∀ id, t.drawn = some id → id ∈ c.world.issued

/-- Each id has one call it comes from, and gets to the rows and the slot
sets through that call only. -/
structure Provenance (D : Deps Q) (c : Conf (World Q) Task) : Prop extends DrawnOnce c where
  rows_nodup : c.world.rowIds.Nodup
  rows_issued : ∀ id ∈ c.world.rowIds, id ∈ c.world.issued
  unstored : ∀ t ∈ c.tasks, ∀ id, t.unstored = some id → id ∉ c.world.rowIds
  held_issued : ∀ key, ∀ id ∈ D.quotaManager.held c.world.quota key, id ∈ c.world.issued
  unreserved : ∀ t ∈ c.tasks, ∀ id, t.unreserved = some id →
    ∀ key, id ∉ D.quotaManager.held c.world.quota key
  held_owner : ∀ t ∈ c.tasks, ∀ id, t.drawn = some id →
    ∀ key, id ∈ D.quotaManager.held c.world.quota key → key = t.principal.quotaKey

/-- One more task that has drawn nothing. -/
theorem DrawnOnce.start {ts : List Task} (hstart : t.Started) (h : DrawnOnce ⟨w, ts⟩) :
    DrawnOnce ⟨w, ts ++ [t]⟩ := by
  have hdrawn := hstart.drawn_eq
  refine ⟨by simpa [List.filterMap_append, hdrawn] using h.drawn_nodup, ?_⟩
  intro u hu id hid
  rcases List.mem_append.mp hu with hu | hu
  · exact h.drawn_issued u hu id hid
  · simp [List.mem_singleton.mp hu, hdrawn] at hid

/-- The same for the slots and rows. -/
theorem Provenance.start {ts : List Task} (hstart : t.Started) (h : Provenance D ⟨w, ts⟩) :
    Provenance D ⟨w, ts ++ [t]⟩ := by
  have hdrawn := hstart.drawn_eq
  have hunstored : ∀ id, t.unstored ≠ some id := fun id h' => by
    simp [Task.drawn_of_unstored h'] at hdrawn
  have hunreserved : ∀ id, t.unreserved ≠ some id := fun id h' =>
    hunstored id (Task.unstored_of_unreserved h')
  refine ⟨h.toDrawnOnce.start hstart, h.rows_nodup, h.rows_issued, ?_, h.held_issued, ?_, ?_⟩
  · intro u hu id hid
    rcases List.mem_append.mp hu with hu | hu
    · exact h.unstored u hu id hid
    · exact absurd (List.mem_singleton.mp hu ▸ hid) (hunstored id)
  · intro u hu id hid
    rcases List.mem_append.mp hu with hu | hu
    · exact h.unreserved u hu id hid
    · exact absurd (List.mem_singleton.mp hu ▸ hid) (hunreserved id)
  · intro u hu id hid
    rcases List.mem_append.mp hu with hu | hu
    · exact h.held_owner u hu id hid
    · simp [List.mem_singleton.mp hu, hdrawn] at hid

/-- Two calls of one list that have drawn the same id are the same call. -/
theorem drawn_ne_of_nodup {l r : List Task} {u : Task} {id : String}
    (h : ((l ++ t :: r).filterMap Task.drawn).Nodup) (ht : t.drawn = some id)
    (hu : u ∈ l ∨ u ∈ r) : u.drawn ≠ some id := by
  intro hid
  simp only [List.filterMap_append, List.filterMap_cons, ht] at h
  have hnotMem := (List.nodup_middle.mp h).notMem
  rw [← List.filterMap_append] at hnotMem
  exact hnotMem (List.mem_filterMap.mpr ⟨u, List.mem_append.mpr hu, hid⟩)

/-- Drawn ids stay drawn. -/
theorem IdStep.issued_subset (hstep : IdStep D w w' t t') : ∀ id ∈ w.issued, id ∈ w'.issued := by
  intro id hid
  rcases hstep.drawn with ⟨heq, -⟩ | ⟨id', -, heq, -⟩
  · rwa [heq]
  · rw [heq]
    exact List.mem_cons_of_mem _ hid

/-- **No step draws an id again.** -/
theorem DrawnOnce.run {l r : List Task} (hstep : IdStep D w w' t t')
    (h : DrawnOnce ⟨w, l ++ t :: r⟩) : DrawnOnce ⟨w', l ++ t' :: r⟩ := by
  obtain ⟨hnodup, hdrawn⟩ := h
  simp only at hnodup hdrawn
  rw [forall_mem_split] at hdrawn
  refine ⟨?_, forall_mem_split.mpr ⟨fun id hid => ?_, fun u hu id hid =>
      hstep.issued_subset id (hdrawn.2 u hu id hid)⟩⟩
  · -- One call at most draws, and what it draws is new.
    simp only [List.filterMap_append, List.filterMap_cons] at hnodup ⊢
    rcases hstep.drawn with ⟨-, heq⟩ | ⟨id, hfresh, -, hnone, hsome⟩
    · rwa [heq]
    · rw [hsome]
      rw [hnone] at hnodup
      refine List.nodup_middle.mpr (List.nodup_cons.mpr ⟨?_, hnodup⟩)
      rw [← List.filterMap_append]
      intro hmem
      obtain ⟨u, hu, hid⟩ := List.mem_filterMap.mp hmem
      exact hfresh (hdrawn.2 u (List.mem_append.mp hu) id hid)
  · rcases hstep.drawn with ⟨-, heq⟩ | ⟨id', -, heq, -, hsome⟩
    · exact hstep.issued_subset id (hdrawn.1 id (heq ▸ hid))
    · obtain rfl := Option.some.inj (hsome.symm.trans hid)
      simp [heq]

/-- **Every slot and every row stays with the call that drew its id.** -/
theorem Provenance.run {l r : List Task} (hstep : IdStep D w w' t t')
    (h : Provenance D ⟨w, l ++ t :: r⟩) : Provenance D ⟨w', l ++ t' :: r⟩ := by
  obtain ⟨honce, hrnodup, hrows, hunst, hheld, hunres, howner⟩ := h
  have honce' := honce.run hstep
  obtain ⟨hnodup, hdrawn⟩ := honce
  simp only at hnodup hdrawn hrnodup hrows hunst hheld hunres howner
  rw [forall_mem_split] at hdrawn hunst hunres howner
  -- No other call has drawn the id of the one that moves.
  have hother : ∀ u, u ∈ l ∨ u ∈ r → ∀ id, t.drawn = some id → u.drawn ≠ some id :=
    fun u hu id ht => drawn_ne_of_nodup hnodup ht hu
  have hissued := hstep.issued_subset
  have hunstDrawn : ∀ {u : Task} {id}, u.unreserved = some id → u.drawn = some id :=
    fun h' => Task.drawn_of_unstored (Task.unstored_of_unreserved h')
  refine ⟨honce', ?_, ?_, ?_, ?_, ?_, ?_⟩
  · rcases hstep.rows with heq | ⟨id, hid, -, heq⟩
    · rwa [heq]
    · rw [heq, List.nodup_append]
      refine ⟨hrnodup, List.nodup_singleton _, ?_⟩
      rintro a ha b hb rfl
      exact hunst.1 id hid (List.mem_singleton.mp hb ▸ ha)
  · intro id hid
    rcases hstep.rows with heq | ⟨id', hid', -, heq⟩
    · exact hissued id (hrows id (heq ▸ hid))
    · rw [heq, List.mem_append, List.mem_singleton] at hid
      rcases hid with hid | rfl
      · exact hissued id (hrows id hid)
      · exact hissued id (hdrawn.1 id (Task.drawn_of_unstored hid'))
  · refine forall_mem_split.mpr ⟨fun id hid hmem => ?_, fun u hu id hid hmem => ?_⟩
    · rcases hstep.rows with heq | ⟨id', -, hnone, -⟩
      · rw [heq] at hmem
        -- Either the id was unstored before, or it has been drawn this instant.
        rcases hstep.unstored id hid with hold | hfresh
        · exact hunst.1 id hold hmem
        · exact hfresh (hrows id hmem)
      · simp [hid] at hnone
    · rcases hstep.rows with heq | ⟨id', hid', -, heq⟩
      · exact hunst.2 u hu id hid (heq ▸ hmem)
      · rw [heq, List.mem_append, List.mem_singleton] at hmem
        rcases hmem with hmem | rfl
        · exact hunst.2 u hu id hid hmem
        · exact hother u hu id (Task.drawn_of_unstored hid') (Task.drawn_of_unstored hid)
  · intro key id hid
    rcases hstep.held key id hid with hold | ⟨hres, -⟩
    · exact hissued id (hheld key id hold)
    · exact hissued id (hdrawn.1 id (hunstDrawn hres))
  · refine forall_mem_split.mpr ⟨fun id hid key hmem => ?_, fun u hu id hid key hmem => ?_⟩
    · rcases hstep.held key id hmem with hold | ⟨hres, -⟩
      · exact hstep.unreserved id hid (hheld key id hold)
      · exact hstep.unreserved id hid (hdrawn.1 id (hunstDrawn hres))
    · rcases hstep.held key id hmem with hold | ⟨hres, -⟩
      · exact hunres.2 u hu id hid key hold
      · exact hother u hu id (hunstDrawn hres) (hunstDrawn hid)
  · refine forall_mem_split.mpr ⟨fun id hid key hmem => ?_, fun u hu id hid key hmem => ?_⟩
    · rw [hstep.principal]
      rcases hstep.held key id hmem with hold | ⟨-, hkey⟩
      · -- A slot that was held before the id was drawn would hold an id nobody has.
        rcases hstep.drawn with ⟨-, heq⟩ | ⟨id', hfresh, -, -, hsome⟩
        · exact howner.1 id (heq ▸ hid) key hold
        · obtain rfl := Option.some.inj (hsome.symm.trans hid)
          exact absurd (hheld key _ hold) hfresh
      · exact hkey
    · rcases hstep.held key id hmem with hold | ⟨hres, -⟩
      · exact howner.2 u hu id hid key hold
      · exact absurd hid (hother u hu id (hunstDrawn hres))

/-- **No two calls of a run draw one id.** -/
theorem RunIn.drawnOnce {sc : Scenario} {c c' : Conf (World Q) Task} {acts : List (Act Task Env)}
    (hrun : RunIn D sc c acts c') (h : DrawnOnce c) : DrawnOnce c' :=
  System.Run.invariant (fun _ _ _ hok => DrawnOnce.start hok.1)
    (fun _ _ _ _ _ _ _ _ hadv => DrawnOnce.run (advance_idStep hadv)) hrun h

/-- **Ids have one origin, in every run.** -/
theorem RunIn.provenance {sc : Scenario} {c c' : Conf (World Q) Task} {acts : List (Act Task Env)}
    (hrun : RunIn D sc c acts c') (h : Provenance D c) : Provenance D c' :=
  System.Run.invariant (fun _ _ _ hok => Provenance.start hok.1)
    (fun _ _ _ _ _ _ _ _ hadv => Provenance.run (advance_idStep hadv)) hrun h

/-- No tasks, no ids. -/
theorem DrawnOnce.empty : DrawnOnce (⟨w, []⟩ : Conf (World Q) Task) :=
  ⟨List.nodup_nil, by simp⟩

/-- No rows and no slots. -/
theorem Provenance.empty {q : Q} (hq : ∀ key, D.quotaManager.held q key = ∅) :
    Provenance D ⟨World.empty q, []⟩ where
  toDrawnOnce := DrawnOnce.empty
  rows_nodup := List.nodup_nil
  rows_issued := by simp [World.empty, World.rowIds]
  unstored := by simp
  held_issued := by simp [World.empty, hq]
  unreserved := by simp
  held_owner := by simp

end ControlPlane
