import ControlPlane.Idempotency

/-!
# The idempotency race

Calls with one agent and one non-empty key, each of which would be answered
on its own. When two of them look the key up before either has inserted its
row, one of the two ends in an error: the insertion trips the unique
constraint, the handler gives the slot back and re-raises, and the caller
sees a server error where a retry would see the winner's decision. When no
two do, every call gets the response of the single row
(`race_answered_iff`).

The calls are all there from the start, suspended on their lookup; a call
that starts later is one whose first step comes later.
-/

namespace ControlPlane

open Lib

variable {Q : Type} {D : Deps Q} {env : Env} {w w' : World Q} {t t' : Task}
  {agentId : String} {key : Option String}

/-- Every awaited call returns. -/
def faultless : Scenario where
  caller _ := True
  fault _ fault := fault = .returns

/-- No further calls, and steps in environments of one kind. -/
def Race (E : Env → Prop) (_ : Conf (World Q) Task) : Act Task Env → Prop
  | .start _ => False
  | .run _ env => E env

/-- A call under the agent and the key. -/
def CreateCall.Contends (call : CreateCall) (agentId : String) (key : Option String) : Prop :=
  call.principal.agentId = agentId ∧ call.idempotencyKey = key

/-- Suspended on the lookup of the key. -/
def Task.AtLookup (agentId : String) (key : Option String) (t : Task) : Prop :=
  ∃ call : CreateCall, call.Contends agentId key ∧ t = .create call .lookup

/-- No lookup is made between another call's lookup and the insertion. -/
def SerialLookup (agentId : String) (key : Option String) (c : Conf (World Q) Task) :
    Act Task Env → Prop
  | .start _ => True
  | .run i _ => ∀ t, c.tasks[i]? = some t → t.AtLookup agentId key →
      (c.world.tables.getByIdempotency agentId key).isSome
        ∨ ∀ u ∈ c.tasks, u.AtLookup agentId key

/-- The rows of an agent under a key. -/
def rowsUnder (agentId : String) (key : Option String) (w : World Q) :
    List RoutingDecisionRecord :=
  w.tables.decisions.filter fun row => row.agentId = agentId ∧ row.idempotencyKey = key

/-- Every call got the response of the single row under the key. -/
def AllAnswered (agentId : String) (key : Option String) (c : Conf (World Q) Task) : Prop :=
  ∃ row, rowsUnder agentId key c.world = [row] ∧
    ∀ t ∈ c.tasks, ∃ call drawn, t = .create call (.returned drawn row.responsePayload)

/-! ## Two early lookups -/

/-- Past the lookup, and not by a replay. -/
def Task.Missed : Task → Prop
  | .create _ .lookup => False
  | .create _ (.returned none _) => False
  | .create _ _ => True
  | .outcome _ _ => False

/-- A step does not undo a missed lookup. -/
theorem CreateStep.missed_of {call : CreateCall} {pc pc' : CreatePc}
    (h : CreateStep D env call w pc w' pc') (hpc : (Task.create call pc).Missed) :
    (Task.create call pc').Missed := by
  cases h <;> first | exact trivial | exact hpc.elim

/-- A missed lookup is not forgotten. -/
theorem RunIn.missed {sc : Scenario} {c c' : Conf (World Q) Task} {acts : List (Act Task Env)}
    {n : ℕ} (hrun : RunIn D sc c acts c') (hn : ∃ t, c.tasks[n]? = some t ∧ t.Missed) :
    ∃ t, c'.tasks[n]? = some t ∧ t.Missed := by
  refine System.Run.invariant (I := fun c => ∃ t, c.tasks[n]? = some t ∧ t.Missed) ?_ ?_ hrun hn
  · intro w ts t _ hinv
    obtain ⟨u, hget, hu⟩ := hinv
    obtain ⟨hlt, -⟩ := List.getElem?_eq_some_iff.mp hget
    exact ⟨u, (List.getElem?_append_left hlt).trans hget, hu⟩
  · intro w l t r env w' t' _ hadv hinv
    obtain ⟨u, hget, hu⟩ := hinv
    by_cases hnl : n = l.length
    · subst hnl
      rw [getElem?_split_self] at hget
      obtain rfl := Option.some.inj hget
      refine ⟨t', getElem?_split_self _, ?_⟩
      rcases advance_cases hadv with ⟨call, pc, pc', rfl, rfl, hstep⟩ | ⟨_, _, _, rfl, rfl, -⟩
      · exact hstep.missed_of hu
      · exact hu
    · exact ⟨u, (getElem?_split_ne t t' hnl).trans hget, hu⟩

/-- Two calls that both missed do not get one answer. -/
theorem not_answered_of_missed {c : Conf (World Q) Task} {i j : ℕ} {u v : Task}
    (hprov : (c.tasks.filterMap Task.drawn).Nodup) (hans : ∀ t ∈ c.tasks, Answered c.world t)
    (hij : i < j) (hi : c.tasks[i]? = some u) (hj : c.tasks[j]? = some v) (hu : u.Missed)
    (hv : v.Missed) : ¬ AllAnswered agentId key c := by
  intro hanswered
  obtain ⟨row, -, hall⟩ := hanswered
  -- A call that missed answers with the id it drew, and both answers are the one row's.
  have hdrawn : ∀ {t : Task}, t ∈ c.tasks → t.Missed →
      t.drawn = some row.responsePayload.decisionId := by
    intro t ht hmissed
    obtain ⟨call, drawn, rfl⟩ := hall t ht
    obtain ⟨-, -, hown⟩ := hans _ ht call drawn _ rfl
    cases drawn with
    | none => exact hmissed.elim
    | some id => exact hown rfl
  obtain ⟨hlt, rfl⟩ := List.getElem?_eq_some_iff.mp hi
  have hsplit : c.tasks = c.tasks.take i ++ c.tasks[i] :: c.tasks.drop (i + 1) := by
    rw [List.cons_getElem_drop_succ, List.take_append_drop]
  have hvmem : v ∈ c.tasks.drop (i + 1) := by
    refine List.mem_of_getElem? (i := j - (i + 1)) ?_
    rw [List.getElem?_drop]
    convert hj using 2
    omega
  rw [hsplit] at hprov
  exact drawn_ne_of_nodup hprov (hdrawn (List.getElem_mem hlt) hu) (.inr hvmem)
    (hdrawn (List.mem_of_mem_drop hvmem) hv)

/-- With no row under the key, a call that is not at its lookup has missed. -/
theorem missed_of_not_atLookup (hans : Answered w t)
    (hnone : w.tables.getByIdempotency agentId key = none)
    (hcall : ∃ (call : CreateCall) (pc : CreatePc), call.Contends agentId key
      ∧ t = .create call pc) (hnot : ¬ t.AtLookup agentId key) : t.Missed := by
  obtain ⟨call, pc, hcont, rfl⟩ := hcall
  cases pc with
  | lookup => exact (hnot ⟨call, hcont, rfl⟩).elim
  | returned drawn response =>
    cases drawn with
    | none =>
      obtain ⟨⟨o, ho, hagent, hkey, -⟩, htruthy, -⟩ := hans call none response rfl
      obtain ⟨row, hrow, rfl⟩ := World.mem_origins.mp ho
      have hrkey : row.idempotencyKey = call.idempotencyKey := hkey
      have hragent : row.agentId = call.principal.agentId := hagent
      have hsome := Tables.getByIdempotency_isSome hrow (hrkey ▸ htruthy rfl)
      rw [hragent, hrkey, hcont.1, hcont.2, hnone] at hsome
      simp at hsome
    | some id => exact trivial
  | _ => exact trivial

/-! ## Races -/

/-- The calls, all suspended on their lookup. -/
def raceStart (w : World Q) (calls : List CreateCall) : Conf (World Q) Task :=
  ⟨w, calls.map fun call => .create call call.start⟩

section Race

variable {E : Env → Prop} {calls : List CreateCall} {c : Conf (World Q) Task}
  {acts : List (Act Task Env)}

/-- In a race no await fails. -/
theorem race_faultless (hE : ∀ env, E env → env.fault = .returns) {c₁ c₂ : Conf (World Q) Task}
    (hrun : (controlPlane D).Run (Race E) c₁ acts c₂) : RunIn D faultless c₁ acts c₂ := by
  refine System.Run.mono ?_ hrun
  intro c a hok
  cases a with
  | start t => exact hok.elim
  | run i env => exact fun _ _ _ _ => hE env hok

/-- In a race every task is one of the calls. -/
theorem race_calls (hcalls : ∀ call ∈ calls, call.Contends agentId key)
    (hrun : (controlPlane D).Run (Race E) (raceStart w calls) acts c) :
    ∀ t ∈ c.tasks, ∃ (call : CreateCall) (pc : CreatePc), call.Contends agentId key
      ∧ t = .create call pc := by
  refine System.Run.invariant (I := fun c => ∀ t ∈ c.tasks, ∃ (call : CreateCall)
    (pc : CreatePc), call.Contends agentId key ∧ t = .create call pc) ?_ ?_ hrun ?_
  · exact fun _ _ _ hok => hok.elim
  · intro w l t r env w' t' _ hadv h
    rw [forall_mem_split] at h
    refine forall_mem_split.mpr ⟨?_, h.2⟩
    obtain ⟨call, pc, hcont, rfl⟩ := h.1
    rcases advance_cases hadv with ⟨_, _, pc', he, rfl, -⟩ | ⟨_, _, _, he, -, -⟩
    · obtain ⟨rfl, rfl⟩ := Task.create.inj he
      exact ⟨_, pc', hcont, rfl⟩
    · simp at he
  · intro t ht
    obtain ⟨call, hmem, rfl⟩ := List.mem_map.mp ht
    exact ⟨call, call.start, hcalls call hmem, rfl⟩

/-- **When every call is answered, every lookup was serial.** -/
theorem serial_of_answered (hE : ∀ env, E env → env.fault = .returns)
    (hcalls : ∀ call ∈ calls, call.Contends agentId key)
    (hrun : (controlPlane D).Run (Race E) (raceStart w calls) acts c)
    (hall : AllAnswered agentId key c) :
    (controlPlane D).Run (fun c a => Race E c a ∧ SerialLookup agentId key c a)
      (raceStart w calls) acts c := by
  have hstarted : ∀ t ∈ (raceStart w calls).tasks, t.Started := by
    intro t ht
    obtain ⟨call, -, rfl⟩ := List.mem_map.mp ht
    exact .create call
  have honce : DrawnOnce (raceStart w calls) := by
    have hnone : (raceStart w calls).tasks.filterMap Task.drawn = [] :=
      List.filterMap_eq_nil_iff.mpr fun t ht => (hstarted t ht).drawn_eq
    exact ⟨hnone ▸ List.nodup_nil, fun t ht id hid => by simp [(hstarted t ht).drawn_eq] at hid⟩
  have hans₀ : ∀ t ∈ (raceStart w calls).tasks, Answered (raceStart w calls).world t :=
    fun t ht => (hstarted t ht).answered
  have hfinal := race_faultless hE hrun
  refine System.Run.strengthen hrun ?_
  intro acts₁ c₁ a c₂ acts₂ hpre hok hstep hrest
  refine ⟨hok, ?_⟩
  cases a with
  | start t => exact trivial
  | run i env =>
    intro t hget hat
    by_contra hno
    rw [not_or, Option.not_isSome_iff_eq_none] at hno
    -- An early lookup: no row yet, and another call `u` past its own lookup.
    obtain ⟨hnone, hothers⟩ := hno
    obtain ⟨u, hu, hnot⟩ := not_forall₂.mp hothers
    have hprerun := race_faultless hE hpre
    have humissed := missed_of_not_atLookup (hprerun.answered hans₀ u hu) hnone
      (race_calls hcalls hpre u hu) hnot
    obtain ⟨j, hj⟩ := List.mem_iff_getElem?.mp hu
    obtain ⟨l, t₁, r, w', t', htasks, rfl, hadv, rfl⟩ := (System.step_run_iff _).mp hstep
    rw [htasks, getElem?_split_self] at hget
    obtain rfl := Option.some.inj hget
    have hij : j ≠ l.length := by
      rintro rfl
      rw [htasks, getElem?_split_self] at hj
      exact hnot (Option.some.inj hj ▸ hat)
    have htmissed : t'.Missed := by
      obtain ⟨call, hcont, rfl⟩ := hat
      rcases advance_cases hadv with ⟨call', _, pc', he, rfl, hst⟩ | ⟨_, _, _, he, -, -⟩
      · obtain ⟨rfl, rfl⟩ := Task.create.inj he
        cases hst with
        | lookupRaised hf => exact absurd (hE env hok) hf
        | replayed _ hget =>
          rw [hcont.1, hcont.2, hnone] at hget
          simp at hget
        | missed => exact trivial
      · simp at he
    -- Neither forgets that it missed, so both have missed at the end.
    have hrestrun := race_faultless hE hrest
    obtain ⟨ti, hi, himissed⟩ := hrestrun.missed (n := l.length)
      ⟨t', getElem?_split_self _, htmissed⟩
    obtain ⟨tj, hj', hjmissed⟩ := hrestrun.missed (n := j)
      ⟨u, by rw [getElem?_split_ne t₁ t' hij, ← htasks, hj], humissed⟩
    have hnodup := (hfinal.drawnOnce honce).drawn_nodup
    have hansf := hfinal.answered hans₀
    rcases Nat.lt_or_gt_of_ne hij with hlt | hgt
    · exact not_answered_of_missed hnodup hansf hlt hj' hi hjmissed himissed hall
    · exact not_answered_of_missed hnodup hansf hgt hi hj' himissed hjmissed hall

/-! ## Serial lookups -/

/-- On its own, from `w` and in environments of the kind, the call does not
raise. -/
def PassesAlone (D : Deps Q) (E : Env → Prop) (w : World Q) (call : CreateCall) : Prop :=
  ∀ envs, (∀ env ∈ envs, E env) → ∀ drawn err,
    ((controlPlane D).solo w (.create call call.start) envs).2 ≠ .create call (.raised drawn err)

/-- A call that passes alone begins with its lookup. -/
theorem PassesAlone.start_eq {call : CreateCall} (h : PassesAlone D E w call) :
    call.start = .lookup := by
  have hstart := h [] (by simp)
  unfold CreateCall.start at hstart ⊢
  split
  next hne =>
    refine absurd ?_ (hstart none
      (.authorization "request agent_id does not match authenticated credential."))
    simp [System.solo, hne]
  next => rfl

/-- The lookup answers with the first row under the key. -/
theorem getByIdempotency_eq (hkey : truthy key = true) :
    w.tables.getByIdempotency agentId key
      = (rowsUnder agentId key w).head?.map (·.responsePayload) := by
  rw [rowsUnder, List.head?_filter, Tables.getByIdempotency, if_pos hkey]

/-- A lookup that finds nothing has no row to find. -/
theorem rowsUnder_eq_nil (hkey : truthy key = true)
    (hnone : w.tables.getByIdempotency agentId key = none) : rowsUnder agentId key w = [] := by
  rw [getByIdempotency_eq hkey, Option.map_eq_none_iff, List.head?_eq_none_iff] at hnone
  exact hnone

/-- How far a serial race has come: no call has moved; one call has, and it
is where it would be on its own; or the row is there and every call that has
moved has its response. -/
inductive Progress (D : Deps Q) (E : Env → Prop) (calls : List CreateCall) (agentId : String)
    (key : Option String) (w : World Q) (c : Conf (World Q) Task) : Prop
  | waiting : c.world = w → (∀ t ∈ c.tasks, ∃ call ∈ calls, t = .create call .lookup) →
      Progress D E calls agentId key w c
  | alone {l r : List Task} {call : CreateCall} {pc : CreatePc} {envs : List Env} :
      c.tasks = l ++ .create call pc :: r →
      (∀ u, u ∈ l ∨ u ∈ r → ∃ call ∈ calls, u = .create call .lookup) → call ∈ calls →
      (∀ env ∈ envs, E env) →
      (controlPlane D).solo w (.create call call.start) envs = (c.world, .create call pc) →
      pc ≠ .lookup → (∀ drawn response, pc ≠ .returned drawn response) →
      rowsUnder agentId key c.world = [] → Progress D E calls agentId key w c
  | settled {row : RoutingDecisionRecord} : rowsUnder agentId key c.world = [row] →
      (∀ t ∈ c.tasks, (∃ call ∈ calls, t = .create call .lookup) ∨
        ∃ call drawn, t = .create call (.returned drawn row.responsePayload)) →
      Progress D E calls agentId key w c

/-- The step of the one call that is on its way. -/
theorem progress_of_step (hE : ∀ env, E env → env.fault = .returns)
    {l r : List Task} {call : CreateCall} {pc pc' : CreatePc} {envs : List Env} {w₁ w₂ : World Q}
    (hothers : ∀ u, u ∈ l ∨ u ∈ r → ∃ call ∈ calls, u = .create call .lookup)
    (hcall : call ∈ calls) (hcont : call.Contends agentId key)
    (hpass : PassesAlone D E w call) (henvs : ∀ e ∈ envs, E e) (henv : E env)
    (hsolo : (controlPlane D).solo w (.create call call.start) envs = (w₂, .create call pc'))
    (hrows : rowsUnder agentId key w₁ = []) (hkey : truthy key = true)
    (hstep : CreateStep D env call w₁ pc w₂ pc') :
    Progress D E calls agentId key w ⟨w₂, l ++ .create call pc' :: r⟩ := by
  have hreturns := hE env henv
  -- On its own the call gets this far too, and there it does not raise.
  have hnotRaised : ∀ drawn err, pc' ≠ .raised drawn err := by
    rintro drawn err rfl
    exact hpass envs henvs drawn err (by rw [hsolo])
  have hrow := hstep.rowStep
  cases hstep with
  | @stored response tables _ hins =>
    have hone : rowsUnder agentId key { w₁ with tables }
        = [decisionRecord call.principal call.request response call.idempotencyKey] := by
      rw [rowsUnder] at hrows ⊢
      rw [(createDecision_ok hins).1, List.filter_append, hrows]
      simp [decisionRecord, hcont.1, hcont.2]
    exact .settled hone
      (forall_mem_split.mpr ⟨.inr ⟨call, _, rfl⟩, fun u hu => .inl (hothers u hu)⟩)
  | replayed _ hget =>
    rw [hcont.1, hcont.2, getByIdempotency_eq hkey, hrows] at hget
    simp at hget
  | storeRaised hf => simp [hreturns] at hf
  | storeLost hf => simp [hreturns] at hf
  | storeRejected => exact .alone rfl hothers hcall henvs hsolo (by simp) (by simp) hrows
  | rpmRaised hf => exact absurd hreturns hf
  | rpmRefused => exact absurd rfl (hnotRaised _ _)
  | lookupRaised hf => exact absurd hreturns hf
  | spendRaised hf => exact absurd hreturns hf
  | refused => exact absurd rfl (hnotRaised _ _)
  | reserveRaised hf => exact absurd hreturns hf
  | reserveRefused => exact absurd rfl (hnotRaised _ _)
  | releaseRaised hf => exact absurd hreturns hf
  | released => exact absurd rfl (hnotRaised _ _)
  | _ =>
    refine .alone rfl hothers hcall henvs hsolo (by simp) (by simp) ?_
    cases hrow with
    | kept hkept => rwa [rowsUnder, hkept]

/-- What is kept while the lookups are serial. -/
theorem progress_of_serial (hE : ∀ env, E env → env.fault = .returns)
    (hkey : truthy key = true) (hnone : w.tables.getByIdempotency agentId key = none)
    (hcalls : ∀ call ∈ calls, call.Contends agentId key)
    (hpass : ∀ call ∈ calls, PassesAlone D E w call)
    (hrun : (controlPlane D).Run (fun c a => Race E c a ∧ SerialLookup agentId key c a)
      (raceStart w calls) acts c) :
    Progress D E calls agentId key w c := by
  refine System.Run.invariant ?_ ?_ hrun ?_
  · exact fun _ _ _ hok => hok.1.elim
  · intro w₁ l t r env w₂ t' hok hadv h
    obtain ⟨hrace, hserial⟩ := hok
    have henv : E env := hrace
    cases h with
    | waiting hw hwait =>
      obtain rfl : w₁ = w := hw
      simp only at hwait
      rw [forall_mem_split] at hwait
      obtain ⟨call, hcall, rfl⟩ := hwait.1
      rcases advance_cases hadv with ⟨_, _, pc', he, rfl, hstep⟩ | ⟨_, _, _, he, -, -⟩
      · obtain ⟨rfl, rfl⟩ := Task.create.inj he
        have hsolo : (controlPlane D).solo w₁ (.create call call.start) []
            = (w₁, .create call .lookup) := by
          rw [(hpass _ hcall).start_eq]
          rfl
        have henvs : ∀ e ∈ [] ++ [env], E e := fun e he => List.mem_singleton.mp he ▸ henv
        exact progress_of_step hE hwait.2 hcall (hcalls _ hcall) (hpass _ hcall) henvs henv
          ((controlPlane D).solo_snoc hsolo hadv) (rowsUnder_eq_nil hkey hnone) hkey hstep
      · simp at he
    | @alone l₀ r₀ call pc envs htasks hothers hcall henvs hsolo hpc hret hrows =>
      simp only at htasks hsolo hrows
      have hget := getElem?_split_self (l := l) (r := r) t
      rw [htasks] at hget
      by_cases hl : l.length = l₀.length
      · -- The call that is on its way moves on.
        obtain ⟨rfl, hcons⟩ := List.append_inj htasks hl
        obtain ⟨rfl, rfl⟩ := List.cons.inj hcons
        rcases advance_cases hadv with ⟨_, _, pc', he, rfl, hstep⟩ | ⟨_, _, _, he, -, -⟩
        · obtain ⟨rfl, rfl⟩ := Task.create.inj he
          have henvs' : ∀ e ∈ envs ++ [env], E e := fun e he =>
            (List.mem_append.mp he).elim (henvs e) fun h' => List.mem_singleton.mp h' ▸ henv
          exact progress_of_step hE hothers hcall (hcalls _ hcall) (hpass _ hcall) henvs' henv
            ((controlPlane D).solo_snoc hsolo hadv) hrows hkey hstep
        · simp at he
      · -- No other call may look the key up now.
        obtain ⟨call', hcall', rfl⟩ := hothers t (mem_of_getElem?_split hget hl)
        rcases hserial _ (getElem?_split_self _) ⟨call', hcalls _ hcall', rfl⟩ with hsome | hall
        · rw [getByIdempotency_eq hkey, hrows] at hsome
          simp at hsome
        · obtain ⟨call₁, -, he⟩ := hall (.create call pc) (by rw [htasks]; simp)
          exact absurd (Task.create.inj he).2 hpc
    -- The row is there: a lookup replays it, and an answered call has no step.
    | @settled row hrows htasks =>
      simp only at hrows htasks
      rw [forall_mem_split] at htasks
      rcases htasks.1 with ⟨call, hcall, rfl⟩ | ⟨call, drawn, rfl⟩
      · rcases advance_cases hadv with ⟨_, _, pc', he, rfl, hstep⟩ | ⟨_, _, _, he, -, -⟩
        · obtain ⟨rfl, rfl⟩ := Task.create.inj he
          have hresp : w₁.tables.getByIdempotency agentId key = some row.responsePayload := by
            rw [getByIdempotency_eq hkey, hrows]
            rfl
          cases hstep with
          | lookupRaised hf => exact absurd (hE env henv) hf
          | replayed _ hget =>
            rw [(hcalls _ hcall).1, (hcalls _ hcall).2, hresp] at hget
            obtain rfl := Option.some.inj hget
            exact .settled hrows (forall_mem_split.mpr ⟨.inr ⟨_, none, rfl⟩, htasks.2⟩)
          | missed _ hget =>
            rw [(hcalls _ hcall).1, (hcalls _ hcall).2, hresp] at hget
            simp at hget
        · simp at he
      · exact absurd hadv (by simp [controlPlane, advance, advanceCreate])
  · refine .waiting rfl fun t ht => ?_
    obtain ⟨call, hcall, rfl⟩ := List.mem_map.mp ht
    exact ⟨call, hcall, by rw [(hpass call hcall).start_eq]⟩

/-- **Every call is answered exactly when the lookups are serial.** -/
theorem race_answered_iff (hE : ∀ env, E env → env.fault = .returns)
    (hkey : truthy key = true) (hnone : w.tables.getByIdempotency agentId key = none)
    (hne : calls ≠ []) (hcalls : ∀ call ∈ calls, call.Contends agentId key)
    (hpass : ∀ call ∈ calls, PassesAlone D E w call)
    (hrun : (controlPlane D).Run (Race E) (raceStart w calls) acts c)
    (hdone : ∀ t ∈ c.tasks, t.Finished) :
    AllAnswered agentId key c ↔
      (controlPlane D).Run (fun c a => Race E c a ∧ SerialLookup agentId key c a)
        (raceStart w calls) acts c := by
  refine ⟨serial_of_answered hE hcalls hrun, fun hserial => ?_⟩
  have htasks : c.tasks ≠ [] := by
    refine System.Run.invariant (I := fun c => c.tasks ≠ []) ?_ ?_ hrun ?_
    · exact fun _ _ _ hok => hok.elim
    · intro w l t r env w' t' _ _ _
      simp
    · simpa [raceStart] using hne
  cases progress_of_serial hE hkey hnone hcalls hpass hserial with
  | waiting hw hwait =>
    obtain ⟨t, ht⟩ := List.exists_mem_of_ne_nil _ htasks
    obtain ⟨call, -, rfl⟩ := hwait t ht
    exact absurd (hdone _ ht) (by simp [Task.Finished, Task.await])
  | @alone l r call pc envs hsplit hothers hcall henvs hsolo hpc hret hrows =>
    have hfin := hdone (.create call pc) (by rw [hsplit]; simp)
    cases pc with
    | returned drawn response => exact absurd rfl (hret drawn response)
    | raised drawn err =>
      exact absurd (by rw [hsolo]) (hpass call hcall envs henvs drawn err)
    | _ => simp [Task.Finished, Task.await] at hfin
  | @settled row hrows hall =>
    refine ⟨row, hrows, fun t ht => (hall t ht).resolve_left ?_⟩
    intro hcall
    obtain ⟨call, -, rfl⟩ := hcall
    exact absurd (hdone _ ht) (by simp [Task.Finished, Task.await])

end Race

/-! ## The two-call race -/

/-- The keyed call passes on its own. -/
theorem keyedCall_passesAlone :
    PassesAlone labDeps (· = labEnv "a") (World.empty {}) keyedCall := by
  intro envs henvs drawn err hraised
  have hlive : ∀ n < 9, (keyedAlone "a" n).2.failure = none := by decide +kernel
  have hrest : (controlPlane labDeps).advance (labEnv "a") (keyedAlone "a" 8).1
      (keyedAlone "a" 8).2 = none :=
    Option.isNone_iff_eq_none.mp (by decide +kernel)
  have hfail : (keyedAlone "a" envs.length).2.failure = some err := by
    rw [keyedAlone, ← List.eq_replicate_iff.mpr ⟨rfl, henvs⟩, hraised]
    rfl
  rcases Nat.lt_or_ge envs.length 9 with hlt | hge
  · simp [hlive _ hlt] at hfail
  · obtain ⟨k, hk⟩ := Nat.exists_eq_add_of_le (Nat.le_of_succ_le hge)
    have hstay : keyedAlone "a" (8 + k) = keyedAlone "a" 8 :=
      (controlPlane labDeps).solo_replicate_add rfl hrest k
    rw [hk, hstay, hlive 8 (by omega)] at hfail
    simp at hfail

/-- Call 0 in full, then the lookup of call 1. -/
theorem race_answered_iff_serial :
    ∃ acts c, (controlPlane labDeps).Run (Race (· = labEnv "a"))
        (raceStart (World.empty {}) [keyedCall, keyedCall]) acts c ∧
      (AllAnswered "agent-1" (some "idem-1") c ↔
        (controlPlane labDeps).Run
          (fun c a => Race (· = labEnv "a") c a ∧ SerialLookup "agent-1" (some "idem-1") c a)
          (raceStart (World.empty {}) [keyedCall, keyedCall]) acts c) := by
  let acts : List (Act Task Env) := List.replicate 8 (.run 0 (labEnv "a")) ++ [.run 1 (labEnv "a")]
  obtain ⟨c, hexec, hdone⟩ : ∃ c, (controlPlane labDeps).exec
      (raceStart (World.empty {}) [keyedCall, keyedCall]) acts = some c
        ∧ decide (∀ t ∈ c.tasks, t.Finished) = true :=
    (Option.any_eq_true _ _).mp (by decide +kernel)
  have hrun : (controlPlane labDeps).Run (Race (· = labEnv "a"))
      (raceStart (World.empty {}) [keyedCall, keyedCall]) acts c :=
    System.Run.of_exec (by simp [acts, Race]) hexec
  exact ⟨acts, c, hrun, race_answered_iff (by rintro _ rfl; rfl) rfl rfl (by simp)
    (by simp [CreateCall.Contends, keyedCall, labAgent])
    (by simpa using keyedCall_passesAlone) hrun (of_decide_eq_true hdone)⟩

/-- **Two early lookups, one server error.** Each call on its own is answered.
Together, both miss, call 0 inserts, and call 1 trips the constraint. -/
theorem race_loser_fails :
    (∀ uuid ∈ ["a", "b"], (keyedAlone uuid 8).2.Finished
      ∧ (keyedAlone uuid 8).2.failure = none) ∧
    ∃ acts c, (controlPlane labDeps).Run (Race (·.fault = .returns))
        (raceStart (World.empty {}) [keyedCall, keyedCall]) acts c ∧
      (∀ t ∈ c.tasks, t.Finished) ∧ ¬ AllAnswered "agent-1" (some "idem-1") c ∧
      ∃ t ∈ c.tasks, t.failure
          = some (.integrityError "uq_routing_decisions_agent_idempotency")
        ∧ t.failure.map serviceErrorToHttp = some (500, "internal control-plane error") := by
  refine ⟨by decide +kernel, ?_⟩
  let acts : List (Act Task Env) :=
    [.run 0 (labEnv "a"), .run 1 (labEnv "b")] ++ List.replicate 7 (.run 0 (labEnv "a"))
      ++ List.replicate 8 (.run 1 (labEnv "b"))
  obtain ⟨c, hexec, hc⟩ : ∃ c, (controlPlane labDeps).exec
      (raceStart (World.empty {}) [keyedCall, keyedCall]) acts = some c
        ∧ decide ((∀ t ∈ c.tasks, t.Finished) ∧ ∃ t ∈ c.tasks, t.failure
            = some (.integrityError "uq_routing_decisions_agent_idempotency")) = true :=
    (Option.any_eq_true _ _).mp (by decide +kernel)
  obtain ⟨hdone, t, ht, hfail⟩ := of_decide_eq_true hc
  refine ⟨acts, c, System.Run.of_exec (by simp [acts, Race, labEnv]) hexec, hdone, ?_,
    t, ht, hfail, by rw [hfail]; rfl⟩
  intro hanswered
  obtain ⟨row, -, hall⟩ := hanswered
  obtain ⟨call, drawn, rfl⟩ := hall t ht
  simp [Task.failure] at hfail

end ControlPlane
