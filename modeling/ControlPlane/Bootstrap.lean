import ControlPlane.Credentials
import ControlPlane.Lib.Progress

/-!
# Bootstrapping in many processes at once

Any number of calls to `authenticate`, in any number of processes that start
on one table, interleaved statement by statement, any of them failing or
dying. Whatever the interleaving, a row that is in the table stays as it is,
a new one is what some process lists first under that hash, a raised flag
means that every listed credential has a row, and a listed key is not
answered "unknown" (`bootstrap_safe`). Processes that list the same
credentials never wait for each other in a circle, so every call comes to an
end (`authenticate_completes`). A call that lost a race raises; the next one
succeeds (`authenticate_after_race`).
-/

namespace ControlPlane

open Lib

variable {stores : ℕ → CredentialStore} {store : CredentialStore} {w w' : CredentialWorld}

/-! ## What holds of a call -/

/-- The call has answered, or raised. -/
def AuthPc.Finished : AuthPc → Prop
  | returned _ | raised _ => True
  | _ => False

instance : DecidablePred AuthPc.Finished
  | .returned _ | .raised _ => .isTrue trivial
  | .ensure | .select _ _ _ | .insert _ _ _ | .commit _ | .lookup => .isFalse id

/-- The credentials before `remaining` have rows that the transaction sees. -/
def CredentialStore.Seen (store : CredentialStore)
    (table : UniqueIndex String AgentCredential ℕ) (x : ℕ)
    (remaining : List BootstrapAgentCredential) : Prop :=
  ∃ done, store.credentials = done ++ remaining
    ∧ ∀ bootstrap ∈ done, table.visible x (store.hashApiKey bootstrap.apiKey) ≠ none

/-- Every listed credential has a row. -/
def CredentialStore.AllListed (store : CredentialStore)
    (table : UniqueIndex String AgentCredential ℕ) : Prop :=
  ∀ bootstrap ∈ store.credentials, table.committed (store.hashApiKey bootstrap.apiKey) ≠ none

/-- What a call may answer with: the row under its key, and that there is none
only for a key that is not listed. -/
def CredentialStore.Answers (store : CredentialStore)
    (table : UniqueIndex String AgentCredential ℕ) (apiKey : String) :
    Option AuthenticatedPrincipal → Prop
  | none => store.listed (store.hashApiKey apiKey) = none
  | some principal => ∃ record, table.committed (store.hashApiKey apiKey) = some record
      ∧ store.principal record = .ok principal

/-- What holds of a call where it stands. -/
structure AuthTask.Sound (store : CredentialStore) (w : CredentialWorld) (t : AuthTask) :
    Prop where
  transaction : ∀ x, t.pc.transaction = some x →
    x < w.opened ∧ store.Seen w.table x t.pc.remaining
  lookup : t.pc = .lookup → store.AllListed w.table
  returned : ∀ principal, t.pc = .returned principal →
    store.Answers w.table t.call.apiKey principal

/-- A row of an open transaction is one that its call has inserted. -/
def Written (stores : ℕ → CredentialStore) (ts : List AuthTask) (x : ℕ) (key : String)
    (record : AgentCredential) : Prop :=
  ∃ t ∈ ts, t.pc.transaction = some x
    ∧ (∃ bootstrap, (stores t.call.process).listed key = some bootstrap
        ∧ record = bootstrap.record)
    ∧ ∃ done, (stores t.call.process).credentials = done ++ t.pc.remaining
      ∧ ∃ bootstrap ∈ done, (stores t.call.process).hashApiKey bootstrap.apiKey = key

/-- Rows seen by a transaction stay seen. -/
theorem CredentialStore.Seen.frame {x : ℕ} {remaining : List BootstrapAgentCredential}
    {table table' : UniqueIndex String AgentCredential ℕ} (h : store.Seen table x remaining)
    (hextends : table.Extends table') (hown : table'.own x = table.own x) :
    store.Seen table' x remaining := by
  obtain ⟨done, hdone, hseen⟩ := h
  exact ⟨done, hdone, fun b hb => hextends.visible hown (hseen b hb)⟩

/-- One more credential is seen to. -/
theorem CredentialStore.Seen.snoc {x : ℕ} {bootstrap : BootstrapAgentCredential}
    {rest : List BootstrapAgentCredential} {table table' : UniqueIndex String AgentCredential ℕ}
    (h : store.Seen table x (bootstrap :: rest))
    (hkept : ∀ key, table.visible x key ≠ none → table'.visible x key ≠ none)
    (hseen : table'.visible x (store.hashApiKey bootstrap.apiKey) ≠ none) :
    store.Seen table' x rest := by
  obtain ⟨done, hdone, hold⟩ := h
  refine ⟨done ++ [bootstrap], by rw [hdone, List.append_assoc, List.singleton_append], ?_⟩
  intro b hb
  rcases List.mem_append.mp hb with hb | hb
  · exact hkept _ (hold b hb)
  · rw [List.mem_singleton.mp hb]
    exact hseen

/-- Once every listed key has a row, it has one for good. -/
theorem CredentialStore.AllListed.extends {table table' : UniqueIndex String AgentCredential ℕ}
    (h : store.AllListed table) (hextends : table.Extends table') : store.AllListed table' := by
  intro bootstrap hb
  obtain ⟨record, hrecord⟩ := Option.ne_none_iff_exists'.mp (h bootstrap hb)
  rw [hextends _ _ hrecord]
  simp

/-- An answer given from the rows stays right: no row is ever changed. -/
theorem CredentialStore.Answers.extends {table table' : UniqueIndex String AgentCredential ℕ}
    {apiKey : String} {principal : Option AuthenticatedPrincipal}
    (h : store.Answers table apiKey principal) (hextends : table.Extends table') :
    store.Answers table' apiKey principal := by
  cases principal with
  | none => exact h
  | some principal =>
    obtain ⟨record, hrecord, hprincipal⟩ := h
    exact ⟨record, hextends _ _ hrecord, hprincipal⟩

/-- The others' steps leave a call's invariant alone. -/
theorem AuthTask.Sound.frame {t : AuthTask} {x : Option ℕ} (h : t.Sound store w)
    (hframe : AuthFrame w w' x) (hx : ∀ y, t.pc.transaction = some y → x ≠ some y) :
    t.Sound store w' := by
  refine ⟨fun y hy => ?_, fun hpc => (h.lookup hpc).extends hframe.table,
    fun principal hpc => (h.returned principal hpc).extends hframe.table⟩
  obtain ⟨hlt, hseen⟩ := h.transaction y hy
  exact ⟨hlt.trans_le hframe.opened, hseen.frame hframe.table (hframe.own y (hx y hy))⟩

/-- A credential whose hash the ones before it do not have is the first one
listed under it. -/
theorem CredentialStore.listed_eq {done rest : List BootstrapAgentCredential}
    {bootstrap : BootstrapAgentCredential}
    (hlist : store.credentials = done ++ bootstrap :: rest)
    (hfirst : ∀ b ∈ done, store.hashApiKey b.apiKey ≠ store.hashApiKey bootstrap.apiKey) :
    store.listed (store.hashApiKey bootstrap.apiKey) = some bootstrap := by
  unfold CredentialStore.listed
  rw [hlist, List.find?_append, List.find?_eq_none.mpr fun b hb => by simpa using hfirst b hb]
  simp

/-! ## One step -/

section Step

variable {call : AuthCall} {pc pc' : AuthPc} {table₀ : UniqueIndex String AgentCredential ℕ}

/-- The moving call keeps its invariant. -/
theorem AuthStep.sound (h : AuthStep store call w pc w' pc')
    (hsound : AuthTask.Sound store w ⟨call, pc⟩)
    (hflag : w.bootstrapped call.process = true → store.AllListed w.table) :
    AuthTask.Sound store w' ⟨call, pc'⟩ := by
  cases h with
  | skip hskip =>
    refine ⟨by rintro x ⟨⟩, fun _ => ?_, by rintro p ⟨⟩⟩
    rcases hskip with hskip | hskip
    · exact hflag hskip
    · intro bootstrap hb
      simp [hskip] at hb
  | begin =>
    refine ⟨fun x hx => ?_, fun hpc => ?_, fun principal hpc => ?_⟩
    · obtain rfl : w.opened = x := by simpa using hx
      exact ⟨Nat.lt_succ_self _, [], by simp⟩
    · cases hlist : store.credentials <;> simp [hlist, AuthPc.loop] at hpc
    · cases hlist : store.credentials <;> simp [hlist, AuthPc.loop] at hpc
  | @found x bootstrap rest hseen =>
    obtain ⟨hlt, hdone⟩ := hsound.transaction x rfl
    refine ⟨fun y hy => ?_, fun hpc => ?_, fun principal hpc => ?_⟩
    · obtain rfl : x = y := by simpa using hy
      rw [AuthPc.remaining_loop]
      exact ⟨hlt, hdone.snoc (fun _ => id) hseen⟩
    · cases rest <;> simp [AuthPc.loop] at hpc
    · cases rest <;> simp [AuthPc.loop] at hpc
  | @missing x bootstrap rest hseen =>
    exact ⟨hsound.transaction, by rintro ⟨⟩, by rintro p ⟨⟩⟩
  | @inserted x bootstrap rest table hinsert =>
    obtain ⟨hlt, hdone⟩ := hsound.transaction x rfl
    have hvisible := UniqueIndex.visible_insert hinsert
    refine ⟨fun y hy => ?_, fun hpc => ?_, fun principal hpc => ?_⟩
    · obtain rfl : x = y := by simpa using hy
      rw [AuthPc.remaining_loop]
      refine ⟨hlt, hdone.snoc (fun key hkey => ?_) (by simp [hvisible])⟩
      rw [hvisible]
      by_cases hk : key = store.hashApiKey bootstrap.apiKey
      · simp [hk]
      · rw [Function.update_of_ne hk]
        exact hkey
    · cases rest <;> simp [AuthPc.loop] at hpc
    · cases rest <;> simp [AuthPc.loop] at hpc
  | violated | abandoned | unacknowledged | unanswered =>
    exact ⟨by rintro x ⟨⟩, by rintro ⟨⟩, by rintro p ⟨⟩⟩
  | @committed x =>
    obtain ⟨-, done, hdone, hseen⟩ := hsound.transaction x rfl
    refine ⟨by rintro x ⟨⟩, fun _ bootstrap hb => ?_, by rintro p ⟨⟩⟩
    -- Past the last credential, all of them are in sight of the commit.
    rw [hdone, show AuthPc.remaining (.commit x) = [] from rfl, List.append_nil] at hb
    exact UniqueIndex.committed_commit_ne_none w.table (hseen bootstrap hb)
  | answered =>
    have hall := hsound.lookup rfl
    cases hrow : w.table.committed (store.hashApiKey call.apiKey) with
    | none =>
      refine ⟨by rintro x ⟨⟩, by rintro ⟨⟩, ?_⟩
      rintro principal ⟨⟩
      -- A listed key would have a row.
      refine List.find?_eq_none.mpr fun bootstrap hb heq => ?_
      rw [decide_eq_true_eq] at heq
      exact hall bootstrap hb (heq ▸ hrow)
    | some record =>
      unfold CredentialStore.answer
      cases hprincipal : store.principal record with
      | error err =>
        dsimp only
        rw [hprincipal]
        exact ⟨by rintro x ⟨⟩, by rintro ⟨⟩, by rintro p ⟨⟩⟩
      | ok principal =>
        dsimp only
        rw [hprincipal]
        refine ⟨by rintro x ⟨⟩, by rintro ⟨⟩, ?_⟩
        rintro _ ⟨⟩
        exact ⟨record, hrow, hprincipal⟩

/-- A call keeps its transaction, ends it or opens a new one. -/
theorem AuthStep.transaction (h : AuthStep store call w pc w' pc') :
    pc'.transaction = pc.transaction ∨ pc'.transaction = none
      ∨ pc.transaction = none ∧ pc'.transaction = some w.opened ∧ w'.opened = w.opened + 1 := by
  cases h with
  | skip | missing => exact .inl rfl
  | begin => exact .inr (.inr ⟨rfl, by simp, rfl⟩)
  | found | inserted => exact .inl (AuthPc.transaction_loop _ _)
  | violated | abandoned | committed | unacknowledged | unanswered => exact .inr (.inl rfl)
  | answered =>
    refine .inr (.inl ?_)
    unfold CredentialStore.answer
    split
    next => rfl
    next => split <;> rfl

/-- What a call has written after a step: what it had, or the row of the
credential it has come to. -/
theorem AuthStep.own (h : AuthStep store call w pc w' pc') {x : ℕ}
    (hx : pc.transaction = some x) {key : String} {record : AgentCredential}
    (hown : w'.table.own x key = some record) :
    pc'.transaction = some x
      ∧ (w.table.own x key = some record
          ∧ (pc'.remaining = pc.remaining ∨ ∃ bootstrap, pc.remaining = bootstrap :: pc'.remaining)
        ∨ ∃ bootstrap, pc.remaining = bootstrap :: pc'.remaining
          ∧ key = store.hashApiKey bootstrap.apiKey ∧ record = bootstrap.record
          ∧ w.table.visible x key = none) := by
  cases h with
  | skip | begin | answered | unanswered => cases hx
  | @found _ bootstrap rest =>
    cases hx
    exact ⟨by simp, .inl ⟨hown, .inr ⟨bootstrap, by rw [AuthPc.remaining_loop]; rfl⟩⟩⟩
  | missing =>
    cases hx
    exact ⟨rfl, .inl ⟨hown, .inl rfl⟩⟩
  | @inserted _ bootstrap rest table hinsert =>
    cases hx
    refine ⟨by simp, ?_⟩
    rw [UniqueIndex.own_insert_self hinsert] at hown
    by_cases hkey : key = store.hashApiKey bootstrap.apiKey
    · subst hkey
      rw [Function.update_self] at hown
      refine .inr ⟨bootstrap, by rw [AuthPc.remaining_loop]; rfl, rfl,
        (Option.some.inj hown).symm, ?_⟩
      unfold UniqueIndex.visible
      rw [(UniqueIndex.insert_inserted hinsert).1]
      rfl
    · rw [Function.update_of_ne hkey] at hown
      exact .inl ⟨hown, .inr ⟨bootstrap, by rw [AuthPc.remaining_loop]; rfl⟩⟩
  | violated =>
    cases hx
    simp [w.table.own_rollback_self _ key] at hown
  | abandoned hpc =>
    obtain rfl := Option.some.inj (hpc.symm.trans hx)
    simp [w.table.own_rollback_self _ key] at hown
  | committed =>
    cases hx
    simp [w.table.own_commit_self _ key] at hown
  | unacknowledged =>
    cases hx
    simp [w.table.own_commit_self _ key] at hown

/-- A row that a step commits was the call's own. -/
theorem AuthStep.committed_cases (h : AuthStep store call w pc w' pc') {key : String}
    {record : AgentCredential} (hrow : w'.table.committed key = some record) :
    w.table.committed key = some record
      ∨ ∃ x, pc.transaction = some x ∧ w.table.own x key = some record := by
  cases h with
  | skip | begin | found | missing | answered | unanswered => exact .inl hrow
  | inserted hinsert =>
    rw [UniqueIndex.committed_insert hinsert] at hrow
    exact .inl hrow
  | violated =>
    rw [w.table.committed_rollback] at hrow
    exact .inl hrow
  | abandoned =>
    rw [w.table.committed_rollback] at hrow
    exact .inl hrow
  | @committed x =>
    rw [w.table.committed_commit] at hrow
    rcases Option.or_eq_some_iff.mp hrow with hown | ⟨-, hkept⟩
    · exact .inr ⟨x, rfl, hown⟩
    · exact .inl hkept
  | @unacknowledged x =>
    rw [w.table.committed_commit] at hrow
    rcases Option.or_eq_some_iff.mp hrow with hown | ⟨-, hkept⟩
    · exact .inr ⟨x, rfl, hown⟩
    · exact .inl hkept

/-- A flag goes up with a commit. -/
theorem AuthStep.flag (h : AuthStep store call w pc w' pc') {p : ℕ}
    (hup : w'.bootstrapped p = true) :
    w.bootstrapped p = true ∨ p = call.process ∧ pc' = .lookup := by
  cases h with
  | committed =>
    by_cases hp : p = call.process
    · exact .inr ⟨hp, rfl⟩
    · dsimp only at hup
      rw [Function.update_of_ne hp] at hup
      exact .inl hup
  | _ => exact .inl hup

end Step

/-! ## Whole runs -/

/-- What holds in every state, `table₀` being what the processes started on. -/
structure Bootstrapping (stores : ℕ → CredentialStore)
    (table₀ : UniqueIndex String AgentCredential ℕ) (c : Conf CredentialWorld AuthTask) :
    Prop where
  tasks : ∀ t ∈ c.tasks, t.Sound (stores t.call.process) c.world
  distinct : (c.tasks.filterMap (·.pc.transaction)).Nodup
  written : ∀ x key record, c.world.table.own x key = some record →
    Written stores c.tasks x key record
  flags : ∀ p, c.world.bootstrapped p = true → (stores p).AllListed c.world.table
  kept : table₀.Extends c.world.table
  fresh : ∀ key record, c.world.table.committed key = some record →
    table₀.committed key = some record ∨ ∃ t ∈ c.tasks, ∃ bootstrap,
      (stores t.call.process).listed key = some bootstrap ∧ record = bootstrap.record

section Runs

variable {table₀ : UniqueIndex String AgentCredential ℕ}

/-- Before any call nothing is bootstrapped. -/
theorem Bootstrapping.init (rows : String → Option AgentCredential) :
    Bootstrapping stores (.ofRows rows) ⟨⟨.ofRows rows, fun _ => false, 0⟩, []⟩ where
  tasks := by simp
  distinct := by simp
  written := by simp
  flags := by simp
  kept := .refl _
  fresh _ _ h := .inl h

/-- What a call has written is still its own after the others' steps. -/
theorem Written.mono {ts ts' : List AuthTask} {x : ℕ} {key : String} {record : AgentCredential}
    (h : Written stores ts x key record)
    (hkept : ∀ t ∈ ts, t.pc.transaction = some x → t ∈ ts') : Written stores ts' x key record := by
  obtain ⟨t, ht, hx, hrest⟩ := h
  exact ⟨t, hkept t ht hx, hx, hrest⟩

/-- A call that starts has written nothing yet. -/
theorem Bootstrapping.start {ts : List AuthTask} {call : AuthCall}
    (h : Bootstrapping stores table₀ ⟨w, ts⟩) :
    Bootstrapping stores table₀ ⟨w, ts ++ [⟨call, .ensure⟩]⟩ where
  tasks t ht := by
    rcases List.mem_append.mp ht with ht | ht
    · exact h.tasks t ht
    · rw [List.mem_singleton.mp ht]
      exact ⟨by rintro x ⟨⟩, by rintro ⟨⟩, by rintro p ⟨⟩⟩
  distinct := by simpa [List.filterMap_append, AuthPc.transaction] using h.distinct
  written x key record hown :=
    (h.written x key record hown).mono fun t ht _ => List.mem_append_left _ ht
  flags := h.flags
  kept := h.kept
  fresh key record hrow := by
    rcases h.fresh key record hrow with hold | ⟨t, ht, hlisted⟩
    · exact .inl hold
    · exact .inr ⟨t, List.mem_append_left _ ht, hlisted⟩

/-- A transaction is one call's. -/
theorem Bootstrapping.eq_moving {l r : List AuthTask} {t u : AuthTask} {x : ℕ}
    (h : Bootstrapping stores table₀ ⟨w, l ++ t :: r⟩) (ht : t.pc.transaction = some x)
    (hu : u ∈ l ++ t :: r) (hux : u.pc.transaction = some x) : u = t := by
  have hne : ∀ v, v ∈ l ∨ v ∈ r → v.pc.transaction ≠ some x := fun v hv =>
    ne_of_nodup_names (f := fun t : AuthTask => t.pc.transaction) h.distinct ht hv
  rcases List.mem_append.mp hu with hl | hr
  · exact absurd hux (hne u (.inl hl))
  · rcases List.mem_cons.mp hr with rfl | hr
    · rfl
    · exact absurd hux (hne u (.inr hr))

/-- What one step does, `AuthStep` by `AuthStep`. -/
theorem Bootstrapping.run {l r : List AuthTask} {call : AuthCall} {pc pc' : AuthPc}
    (h : Bootstrapping stores table₀ ⟨w, l ++ ⟨call, pc⟩ :: r⟩)
    (hstep : AuthStep (stores call.process) call w pc w' pc') :
    Bootstrapping stores table₀ ⟨w', l ++ ⟨call, pc'⟩ :: r⟩ := by
  have hframe := hstep.frame
  have hmoving := h.tasks ⟨call, pc⟩ (by simp)
  have hothers : ∀ u, u ∈ l ∨ u ∈ r → u ∈ l ++ ⟨call, pc⟩ :: r := by
    rintro u (hu | hu) <;> simp [hu]
  have hmoved : AuthTask.Sound (stores call.process) w' ⟨call, pc'⟩ :=
    hstep.sound hmoving fun hup => h.flags call.process hup
  refine ⟨?_, ?_, ?_, ?_, h.kept.trans hframe.table, ?_⟩
  · refine forall_mem_split.mpr ⟨hmoved, fun u hu => ?_⟩
    refine (h.tasks u (hothers u hu)).frame hframe fun y hy hpc => ?_
    exact ne_of_nodup_names h.distinct hpc hu hy
  · refine nodup_names_step h.distinct ?_
    rcases hstep.transaction with hsame | hnone | ⟨-, hnew, -⟩
    · exact .inl hsame
    · exact .inr fun m hm => by simp [hnone] at hm
    · -- The new name is past every other call's.
      refine .inr fun m hm u hu hum => ?_
      have hlt := ((h.tasks u (hothers u hu)).transaction m hum).1
      obtain rfl := Option.some.inj (hnew.symm.trans hm)
      exact absurd hlt (lt_irrefl _)
  · intro x key record hown
    by_cases hx : pc.transaction = some x
    · obtain ⟨hx', hcases⟩ := hstep.own hx hown
      refine ⟨⟨call, pc'⟩, by simp, hx', ?_⟩
      rcases hcases with ⟨hold, hrest⟩ | ⟨bootstrap, hrest, rfl, rfl, hfree⟩
      · -- A row from before: the credentials seen to are the same or one more.
        obtain ⟨u, hu, hux, hlisted, done, hdone, b, hb, hkey⟩ := h.written x key record hold
        obtain rfl := h.eq_moving hx hu hux
        refine ⟨hlisted, ?_⟩
        rcases hrest with hrest | ⟨bootstrap, hrest⟩
        · exact ⟨done, by rw [hrest]; exact hdone, b, hb, hkey⟩
        · refine ⟨done ++ [bootstrap], ?_, b, List.mem_append_left _ hb, hkey⟩
          rw [List.append_assoc, List.singleton_append, ← hrest]
          exact hdone
      · -- A new row: none of the credentials before it has its hash.
        obtain ⟨-, done, hdone, hseen⟩ := hmoving.transaction x hx
        have hdone' : (stores call.process).credentials = done ++ bootstrap :: pc'.remaining :=
          hdone.trans (by rw [hrest])
        refine ⟨⟨bootstrap, CredentialStore.listed_eq hdone' fun b hb heq => ?_, rfl⟩,
          done ++ [bootstrap], ?_, bootstrap, by simp, rfl⟩
        · exact hseen b hb (heq ▸ hfree)
        · rw [List.append_assoc, List.singleton_append]
          exact hdone'
    · rw [hframe.own x hx] at hown
      obtain ⟨u, hu, hux, hrest⟩ := h.written x key record hown
      refine ⟨u, ?_, hux, hrest⟩
      rcases List.mem_append.mp hu with hl | hr
      · simp [hl]
      · rcases List.mem_cons.mp hr with rfl | hr
        · exact absurd hux hx
        · simp [hr]
  · intro p hup
    rcases hstep.flag hup with hup | ⟨rfl, rfl⟩
    · exact (h.flags p hup).extends hframe.table
    · exact hmoved.lookup rfl
  · intro key record hrow
    have hcall : ∀ u ∈ l ++ ⟨call, pc⟩ :: r, ∀ bootstrap,
        (stores u.call.process).listed key = some bootstrap →
        ∃ t ∈ l ++ ⟨call, pc'⟩ :: r, (stores t.call.process).listed key = some bootstrap := by
      intro u hu bootstrap hlisted
      rcases List.mem_append.mp hu with hl | hr
      · exact ⟨u, by simp [hl], hlisted⟩
      · rcases List.mem_cons.mp hr with rfl | hr
        · exact ⟨⟨call, pc'⟩, by simp, hlisted⟩
        · exact ⟨u, by simp [hr], hlisted⟩
    rcases hstep.committed_cases hrow with hold | ⟨x, -, hown⟩
    · rcases h.fresh key record hold with h₀ | ⟨u, hu, bootstrap, hlisted, rfl⟩
      · exact .inl h₀
      · obtain ⟨t, ht, htl⟩ := hcall u hu bootstrap hlisted
        exact .inr ⟨t, ht, bootstrap, htl, rfl⟩
    · obtain ⟨u, hu, -, ⟨bootstrap, hlisted, rfl⟩, -⟩ := h.written x key record hown
      obtain ⟨t, ht, htl⟩ := hcall u hu bootstrap hlisted
      exact .inr ⟨t, ht, bootstrap, htl, rfl⟩

/-- Calls start at the beginning; anything may fail. -/
def AuthStarted (_ : Conf CredentialWorld AuthTask) : Act AuthTask Fault → Prop
  | .start t => t.pc = .ensure
  | .run _ _ => True

/-- A run of processes that start on a table with these rows. -/
abbrev AuthRun (stores : ℕ → CredentialStore) (rows : String → Option AgentCredential)
    (acts : List (Act AuthTask Fault)) (c : Conf CredentialWorld AuthTask) : Prop :=
  (credentialPlane stores).Run AuthStarted ⟨⟨.ofRows rows, fun _ => false, 0⟩, []⟩ acts c

/-- A step of the system is one of the list, for the same call. -/
theorem advance_authStep {fault : Fault} {t t' : AuthTask}
    (hadv : (credentialPlane stores).advance fault w t = some (w', t')) :
    t'.call = t.call ∧ AuthStep (stores t.call.process) t.call w t.pc w' t'.pc := by
  obtain ⟨⟨_, pc'⟩, hstep, heq⟩ := Option.map_eq_some_iff.mp hadv
  obtain ⟨rfl, rfl⟩ := Prod.mk.inj heq
  exact ⟨rfl, advanceAuth_cases hstep⟩

/-- Every run bootstraps soundly. -/
theorem AuthRun.bootstrapping {rows : String → Option AgentCredential}
    {acts : List (Act AuthTask Fault)} {c : Conf CredentialWorld AuthTask}
    (hrun : AuthRun stores rows acts c) : Bootstrapping stores (.ofRows rows) c := by
  refine System.Run.invariant ?_ ?_ hrun (Bootstrapping.init rows)
  · intro w ts t hok h
    obtain ⟨call, pc⟩ := t
    obtain rfl : pc = .ensure := hok
    exact h.start
  · intro w l t r fault w' t' _ hadv h
    obtain ⟨call, pc⟩ := t
    obtain ⟨call', pc'⟩ := t'
    obtain ⟨rfl, hstep⟩ := advance_authStep hadv
    exact h.run hstep

/-! ### Two processes start together -/

/-- Two keys, each with its agent. -/
def labCredentials : CredentialSettings :=
  { agentApiKeys := [("key-1", "agent-1"), ("key-2", "agent-2")] }

/-- The digests of the two keys; other texts do not occur. -/
def labHexdigest (text : String) : String :=
  if text = ":key-1" then "8eaaed1bfb8d75ef698da27f2a60dc244d3e3157de70916ba24d44ca46c685b6"
  else if text = ":key-2" then "33010f1e83a5c8e08b739fd66a2c89c26a18c50e4bb67194e12627df0f40dca4"
  else text

/-- The store of either process. -/
def labStore : CredentialStore :=
  { hexdigest := labHexdigest
    describe := fun _ => "Input should be 'active' or 'blocked'"
    settings := labCredentials }

/-- A call in each of two processes, and the steps they take. -/
def raceActs (schedule : List ℕ) : List (Act AuthTask Fault) :=
  [.start ⟨⟨0, "key-1"⟩, .ensure⟩, .start ⟨⟨1, "key-1"⟩, .ensure⟩]
    ++ schedule.map fun i => .run i .returns

/-- Both find nothing, the first inserts. -/
def bothInsert : List ℕ :=
  [0, 1, 0, 1, 0]

/-- The first goes on to its answer, the second loses. -/
def secondLoses : List ℕ :=
  bothInsert ++ [0, 0, 0, 1, 0]

/-- A schedule of two racing calls that computes, runs. -/
theorem exists_race (schedule : List ℕ) (P : Conf CredentialWorld AuthTask → Bool)
    (h : ((credentialPlane fun _ => labStore).exec
      ⟨⟨.ofRows fun _ => none, fun _ => false, 0⟩, []⟩ (raceActs schedule)).any P = true) :
    ∃ c, AuthRun (fun _ => labStore) (fun _ => none) (raceActs schedule) c ∧ P c = true := by
  obtain ⟨c, hexec, hP⟩ := (Option.any_eq_true _ _).mp h
  refine ⟨c, System.Run.of_exec (fun a ha c₁ => ?_) hexec, hP⟩
  rcases List.mem_append.mp ha with ha | ha
  · rcases List.mem_cons.mp ha with rfl | ha
    · rfl
    · rw [List.mem_singleton.mp ha]
      rfl
  · obtain ⟨i, -, rfl⟩ := List.mem_map.mp ha
    exact trivial

/-- The exception a call ended with. -/
def AuthPc.error : AuthPc → Option ServiceError
  | raised err => some err
  | _ => none

/-! ## What bootstrapping promises -/

/-- What holds of the table, the flags and the answers, `rows` being what the
processes started on. -/
structure BootstrapSafe (stores : ℕ → CredentialStore) (rows : String → Option AgentCredential)
    (c : Conf CredentialWorld AuthTask) : Prop where
  /-- A row that was there is as it was, its status included. -/
  kept : ∀ key record, rows key = some record → c.world.table.committed key = some record
  /-- A new row is what a process with a call lists first under the hash. -/
  new : ∀ key record, rows key = none → c.world.table.committed key = some record →
    ∃ t ∈ c.tasks, ∃ bootstrap, (stores t.call.process).listed key = some bootstrap
      ∧ record = bootstrap.record
  flags : ∀ p, c.world.bootstrapped p = true → (stores p).AllListed c.world.table
  answers : ∀ t ∈ c.tasks, ∀ principal, t.pc = .returned principal →
    (stores t.call.process).Answers c.world.table t.call.apiKey principal

/-- **Bootstrapping in any number of processes changes no row, adds what is
listed first, and refuses no listed key as unknown.** -/
theorem bootstrap_safe {rows : String → Option AgentCredential}
    {acts : List (Act AuthTask Fault)} {c : Conf CredentialWorld AuthTask}
    (hrun : AuthRun stores rows acts c) : BootstrapSafe stores rows c := by
  have h := hrun.bootstrapping
  refine ⟨fun key record hrow => h.kept key record (by simpa using hrow), ?_, h.flags,
    fun t ht => (h.tasks t ht).returned⟩
  intro key record hrow hnew
  rcases h.fresh key record hnew with hold | hlisted
  · simp [hrow] at hold
  · exact hlisted

/-- The loser's transaction leaves nothing, and the winner's rows stand. -/
theorem bootstrap_safe_race :
    ∃ c, AuthRun (fun _ => labStore) (fun _ => none) (raceActs secondLoses) c
      ∧ c.tasks.map (·.pc.error) = [none, some (.integrityError "api_key_hash")]
      ∧ BootstrapSafe (fun _ => labStore) (fun _ => none) c := by
  obtain ⟨c, hrun, hlost⟩ := exists_race secondLoses
    (fun c => decide (c.tasks.map (·.pc.error)
      = [none, some (.integrityError "api_key_hash")])) (by decide +kernel)
  exact ⟨c, hrun, of_decide_eq_true hlost, bootstrap_safe hrun⟩

/-! ## Every call comes to an end -/

/-- The steps a call has left at most, two for each credential. -/
def CredentialStore.left (store : CredentialStore) : AuthPc → ℕ
  | .ensure => 2 * store.credentials.length + 3
  | .select _ _ rest => 2 * rest.length + 4
  | .insert _ _ rest => 2 * rest.length + 3
  | .commit _ => 2
  | .lookup => 1
  | .returned _ | .raised _ => 0

/-- Each credential left to bootstrap takes two statements. -/
theorem CredentialStore.left_loop (x : ℕ) (rest : List BootstrapAgentCredential) :
    store.left (.loop x rest) = 2 * rest.length + 2 := by
  cases rest <;> rfl

/-- Every step comes closer to the end. -/
theorem AuthStep.left_lt {call : AuthCall} {pc pc' : AuthPc}
    (h : AuthStep store call w pc w' pc') : store.left pc' < store.left pc := by
  cases h with
  | skip => simp [CredentialStore.left]
  | begin =>
    rw [CredentialStore.left_loop]
    exact Nat.lt_succ_self _
  | found =>
    rw [CredentialStore.left_loop]
    simp [CredentialStore.left]
  | missing => simp [CredentialStore.left]
  | inserted =>
    rw [CredentialStore.left_loop]
    exact Nat.lt_succ_self _
  | violated => simp [CredentialStore.left]
  | @abandoned _ x hpc => cases pc <;> simp_all [AuthPc.transaction, CredentialStore.left]
  | committed | unacknowledged | unanswered => simp [CredentialStore.left]
  | answered =>
    unfold CredentialStore.answer
    split
    next => simp [CredentialStore.left]
    next => split <;> simp [CredentialStore.left]

/-- Waiting for the row of another transaction. -/
def AuthTask.Waits (store : CredentialStore) (w : CredentialWorld) (t : AuthTask) : Prop :=
  ∃ x bootstrap rest, t.pc = .insert x bootstrap rest
    ∧ w.table.insert x (store.hashApiKey bootstrap.apiKey) bootstrap.record = .waits

/-- Only a call that has come to an end or waits cannot take a step. -/
theorem exists_advanceAuth (t : AuthTask) (hbusy : ¬t.pc.Finished) (hwaits : ¬t.Waits store w) :
    ∃ w' pc', store.advanceAuth t.call w .returns t.pc = some (w', pc') := by
  obtain ⟨call, pc⟩ := t
  cases pc with
  | ensure =>
    simp only [CredentialStore.advanceAuth]
    split <;> exact ⟨_, _, rfl⟩
  | select x bootstrap rest =>
    simp only [CredentialStore.advanceAuth, if_true]
    split <;> exact ⟨_, _, rfl⟩
  | insert x bootstrap rest =>
    simp only [CredentialStore.advanceAuth, if_true]
    split
    next => exact ⟨_, _, rfl⟩
    next => exact ⟨_, _, rfl⟩
    next hinsert => exact absurd ⟨x, bootstrap, rest, rfl, hinsert⟩ hwaits
  | commit x => exact ⟨_, _, rfl⟩
  | lookup => exact ⟨_, _, rfl⟩
  | returned principal => exact absurd trivial hbusy
  | raised err => exact absurd trivial hbusy

/-- A call in a transaction has not ended. -/
theorem AuthPc.not_finished {pc : AuthPc} {x : ℕ} (h : pc.transaction = some x) :
    ¬pc.Finished := by
  cases pc <;> simp_all [transaction, Finished]

/-- Who waits, waits for a call that has come further down the list. -/
theorem Bootstrapping.waits_ahead {table₀ : UniqueIndex String AgentCredential ℕ}
    {c : Conf CredentialWorld AuthTask} (h : Bootstrapping (fun _ => store) table₀ c)
    {t : AuthTask} (ht : t ∈ c.tasks) (hwaits : t.Waits store c.world) :
    ∃ u ∈ c.tasks, ¬u.pc.Finished ∧ u.pc.remaining.length < t.pc.remaining.length := by
  obtain ⟨x, bootstrap, rest, hpc, hinsert⟩ := hwaits
  obtain ⟨y, hne, hown⟩ := UniqueIndex.insert_waits hinsert
  obtain ⟨record, hrecord⟩ := Option.ne_none_iff_exists'.mp hown
  obtain ⟨u, hu, huy, -, done, hdone, b, hb, hkey⟩ := h.written y _ record hrecord
  refine ⟨u, hu, AuthPc.not_finished huy, ?_⟩
  obtain ⟨-, done', hdone', hseen⟩ := (h.tasks t ht).transaction x (by rw [hpc]; rfl)
  -- Were the holder no further, what it has inserted would be in the waiting call's sight.
  by_contra hle
  have hahead : done <+: done' := by
    refine List.prefix_of_prefix_length_le ⟨_, hdone.symm⟩ ⟨_, hdone'.symm⟩ ?_
    have hlength := congrArg List.length (hdone.symm.trans hdone')
    rw [List.length_append, List.length_append] at hlength
    omega
  refine hseen b (hahead.subset hb) ?_
  rw [hkey]
  exact UniqueIndex.visible_eq_none_of_own hown hne

/-- **Processes that list the same credentials do not deadlock, and every call
comes to an end**: while one has not, one of them can take a step, and a run
has no more than `2 n + 3` steps for a call, `n` credentials being listed. -/
theorem authenticate_completes {rows : String → Option AgentCredential}
    {acts : List (Act AuthTask Fault)} {c : Conf CredentialWorld AuthTask}
    (hrun : AuthRun (fun _ => store) rows acts c) :
    ((∃ t ∈ c.tasks, ¬t.pc.Finished) →
        ∃ i c', (credentialPlane fun _ => store).step c (.run i .returns) = some c')
      ∧ steps acts ≤ (2 * store.credentials.length + 3) * c.tasks.length := by
  have h := hrun.bootstrapping
  constructor
  · intro hbusy
    have hne : c.tasks.filter (fun t => ¬t.pc.Finished) ≠ [] := by
      obtain ⟨t, ht, hfin⟩ := hbusy
      exact List.ne_nil_of_mem (List.mem_filter.mpr ⟨ht, by simpa using hfin⟩)
    obtain ⟨t, ht, hruns⟩ := exists_furthest (P := AuthTask.Waits store c.world) hne
      (fun t => store.credentials.length - t.pc.remaining.length) (by
        intro t ht hwaits
        have htasks := (List.mem_filter.mp ht).1
        obtain ⟨u, hu, hubusy, hlt⟩ := h.waits_ahead htasks hwaits
        refine ⟨u, List.mem_filter.mpr ⟨hu, by simpa using hubusy⟩, ?_⟩
        obtain ⟨x, bootstrap, rest, hpc, -⟩ := hwaits
        obtain ⟨-, done, hdone, -⟩ := (h.tasks t htasks).transaction x (by rw [hpc]; rfl)
        have hlength := congrArg List.length hdone
        rw [List.length_append] at hlength
        omega)
    obtain ⟨htasks, hbusy⟩ := List.mem_filter.mp ht
    obtain ⟨w', pc', hadv⟩ := exists_advanceAuth t (by simpa using hbusy) hruns
    obtain ⟨l, r, hsplit⟩ := List.append_of_mem htasks
    refine ⟨l.length, ⟨w', l ++ ⟨t.call, pc'⟩ :: r⟩, ?_⟩
    refine (System.step_run_iff _).mpr ⟨l, t, r, w', ⟨t.call, pc'⟩, hsplit, rfl, ?_, rfl⟩
    unfold credentialPlane
    dsimp only
    rw [hadv]
    rfl
  · have hle := System.Run.steps_le (m := fun t : AuthTask => store.left t.pc)
      (b := 2 * store.credentials.length + 3) (fun c t hok => by
        rw [show t.pc = .ensure from hok]
        exact le_rfl)
      (fun e w t w' t' hadv => (advance_authStep hadv).2.left_lt) hrun
    simp only [List.length_nil, sumOver_nil, Nat.mul_zero] at hle
    omega

/-- The second waits for the first. -/
theorem authenticate_completes_race :
    ∃ c, AuthRun (fun _ => labStore) (fun _ => none) (raceActs bothInsert) c
      ∧ (∃ i c', (credentialPlane fun _ => labStore).step c (.run i .returns) = some c')
      ∧ steps (raceActs bothInsert) ≤ 7 * c.tasks.length := by
  obtain ⟨c, hrun, hbusy⟩ := exists_race bothInsert
    (fun c => decide (∃ t ∈ c.tasks, ¬t.pc.Finished)) (by decide +kernel)
  obtain ⟨hnext, hsteps⟩ := authenticate_completes hrun
  exact ⟨c, hrun, hnext (of_decide_eq_true hbusy), hsteps⟩

/-! ## After a lost race -/

/-- A credential with the key's hash is listed. -/
def CredentialStore.Lists (store : CredentialStore) (apiKey : String) : Prop :=
  ∃ bootstrap ∈ store.credentials, store.hashApiKey bootstrap.apiKey = store.hashApiKey apiKey

instance CredentialStore.decidableLists (store : CredentialStore) (apiKey : String) :
    Decidable (store.Lists apiKey) :=
  inferInstanceAs (Decidable (∃ bootstrap ∈ store.credentials, _))

/-- A call that runs while no other does, on a table of rows that validate. -/
structure Alone (stores : ℕ → CredentialStore) (rows : String → Option AgentCredential)
    (ts : List AuthTask) (call : AuthCall) (w : CredentialWorld) (pc : AuthPc) : Prop where
  bootstrapping : Bootstrapping stores (.ofRows rows) ⟨w, ts ++ [⟨call, pc⟩]⟩
  unseen : ∀ x bootstrap rest, pc = .insert x bootstrap rest →
    w.table.visible x ((stores call.process).hashApiKey bootstrap.apiKey) = none
  flag : pc = .lookup → w.bootstrapped call.process = true
  succeeds : pc.Finished → w.bootstrapped call.process = true
    ∧ ∃ principal, pc = .returned (some principal)

/-- A call that is alone goes on, and is still alone. -/
theorem Alone.advance {rows : String → Option AgentCredential} {ts : List AuthTask}
    {call : AuthCall} {pc : AuthPc} (h : Alone stores rows ts call w pc)
    (hvalid : ∀ key record, rows key = some record → record.Valid)
    (hquiet : ∀ t ∈ ts, t.pc.Finished)
    (hlisted : (stores call.process).Lists call.apiKey) (hbusy : ¬pc.Finished) :
    ∃ w' pc', (stores call.process).advanceAuth call w .returns pc = some (w', pc')
      ∧ Alone stores rows ts call w' pc' := by
  obtain ⟨bootstrap₀, hb₀, hhash⟩ := hlisted
  have hinv := h.bootstrapping
  have hnext : ∀ w' pc', AuthStep (stores call.process) call w pc w' pc' →
      Bootstrapping stores (.ofRows rows) ⟨w', ts ++ [⟨call, pc'⟩]⟩ :=
    fun w' pc' hstep => hinv.run hstep
  have hloop : ∀ x rest w', Bootstrapping stores (.ofRows rows)
      ⟨w', ts ++ [⟨call, .loop x rest⟩]⟩ → Alone stores rows ts call w' (.loop x rest) := by
    intro x rest w' hinv'
    cases rest <;> exact ⟨hinv', by rintro _ _ _ ⟨⟩, by rintro ⟨⟩, by rintro ⟨⟩⟩
  cases pc with
  | ensure =>
    simp only [CredentialStore.advanceAuth]
    split
    next hskip =>
      refine ⟨_, _, rfl, hnext _ _ (.skip hskip), by rintro _ _ _ ⟨⟩, fun _ => ?_, by rintro ⟨⟩⟩
      rcases hskip with hflag | hempty
      · exact hflag
      · simp [hempty] at hb₀
    next hskip =>
      refine ⟨_, _, rfl, hloop _ _ _ (hnext _ _ (.begin ?_))⟩
      exact Bool.eq_false_iff.mpr fun hflag => hskip (.inl hflag)
  | select x bootstrap rest =>
    simp only [CredentialStore.advanceAuth, if_true]
    split
    next hseen => exact ⟨_, _, rfl, hloop _ _ _ (hnext _ _ (.found (by simp [hseen])))⟩
    next hseen =>
      refine ⟨_, _, rfl, hnext _ _ (.missing hseen), ?_, by rintro ⟨⟩, by rintro ⟨⟩⟩
      rintro _ _ _ ⟨⟩
      exact hseen
  | insert x bootstrap rest =>
    simp only [CredentialStore.advanceAuth, if_true]
    split
    next hinsert => exact ⟨_, _, rfl, hloop _ _ _ (hnext _ _ (.inserted hinsert))⟩
    next hinsert =>
      exact absurd (h.unseen x bootstrap rest rfl) (UniqueIndex.insert_violates hinsert)
    next hinsert =>
      -- Nobody else has a transaction open.
      obtain ⟨y, hne, hown⟩ := UniqueIndex.insert_waits hinsert
      obtain ⟨record, hrecord⟩ := Option.ne_none_iff_exists'.mp hown
      obtain ⟨u, hu, huy, -⟩ := hinv.written y _ record hrecord
      rcases List.mem_append.mp hu with hu | hu
      · exact absurd (hquiet u hu) (AuthPc.not_finished huy)
      · rw [List.mem_singleton.mp hu] at huy
        exact absurd (Option.some.inj huy).symm hne
  | commit x =>
    refine ⟨_, _, rfl, hnext _ _ .committed, by rintro _ _ _ ⟨⟩, fun _ => ?_, by rintro ⟨⟩⟩
    exact Function.update_self ..
  | lookup =>
    have hall : (stores call.process).AllListed w.table :=
      (hinv.tasks ⟨call, .lookup⟩ (by simp)).lookup rfl
    obtain ⟨record, hrecord⟩ := Option.ne_none_iff_exists'.mp (hall bootstrap₀ hb₀)
    rw [hhash] at hrecord
    have hrow : record.Valid := by
      rcases hinv.fresh _ _ hrecord with hold | ⟨-, -, bootstrap, -, rfl⟩
      · exact hvalid _ _ (by simpa using hold)
      · exact bootstrap.record_valid
    obtain ⟨principal, hprincipal⟩ := (stores call.process).exists_principal hrow
    have hanswer : (stores call.process).answer
        (w.table.committed ((stores call.process).hashApiKey call.apiKey))
          = .returned (some principal) := by
      unfold CredentialStore.answer
      rw [hrecord]
      dsimp only
      rw [hprincipal]
    have hstep := hnext w _ .answered
    rw [hanswer] at hstep
    refine ⟨w, .returned (some principal), ?_, hstep, by rintro _ _ _ ⟨⟩, by rintro ⟨⟩,
      fun _ => ⟨h.flag rfl, principal, rfl⟩⟩
    simp only [CredentialStore.advanceAuth, if_true]
    rw [hanswer]
  | returned principal => exact absurd trivial hbusy
  | raised err => exact absurd trivial hbusy

/-- On its own it comes to an answer. -/
theorem Alone.solo {rows : String → Option AgentCredential} {ts : List AuthTask}
    {call : AuthCall} (hvalid : ∀ key record, rows key = some record → record.Valid)
    (hquiet : ∀ t ∈ ts, t.pc.Finished) (hlisted : (stores call.process).Lists call.apiKey) :
    ∀ (n : ℕ) (w : CredentialWorld) (pc : AuthPc), Alone stores rows ts call w pc →
      (stores call.process).left pc ≤ n → ∃ w' principal,
        (credentialPlane stores).solo w ⟨call, pc⟩ (List.replicate n .returns)
          = (w', ⟨call, .returned (some principal)⟩)
        ∧ w'.bootstrapped call.process = true
  | n, w, pc, h, hleft => by
    by_cases hfin : pc.Finished
    · obtain ⟨hflag, principal, rfl⟩ := h.succeeds hfin
      exact ⟨w, principal, System.solo_stuck _ (fun _ => rfl) _, hflag⟩
    · obtain ⟨w', pc', hadv, hnext⟩ := h.advance hvalid hquiet hlisted hfin
      have hlt := (advanceAuth_cases hadv).left_lt
      obtain ⟨n, rfl⟩ : ∃ m, n = m + 1 := ⟨n - 1, by omega⟩
      obtain ⟨w₁, principal, hsolo, hflag⟩ := Alone.solo hvalid hquiet hlisted n w' pc' hnext
        (by omega)
      refine ⟨w₁, principal, ?_, hflag⟩
      have hadv' : (credentialPlane stores).advance .returns w ⟨call, pc⟩
          = some (w', ⟨call, pc'⟩) := by
        unfold credentialPlane
        dsimp only
        rw [hadv]
        rfl
      rw [List.replicate_succ, System.solo_cons _ hadv']
      exact hsolo

/-- **After a lost race the next call succeeds**: once no call is in flight,
whatever has failed before and whatever the processes list, a call with a key
that its process lists, on a table whose rows validated to begin with, returns
a principal if it meets no failure of its own, and its process is
bootstrapped. -/
theorem authenticate_after_race {rows : String → Option AgentCredential}
    {acts : List (Act AuthTask Fault)} {c : Conf CredentialWorld AuthTask} (call : AuthCall)
    (hvalid : ∀ key record, rows key = some record → record.Valid)
    (hrun : AuthRun stores rows acts c) (hquiet : ∀ t ∈ c.tasks, t.pc.Finished)
    (hlisted : (stores call.process).Lists call.apiKey) :
    ∃ w' principal, (credentialPlane stores).solo c.world ⟨call, .ensure⟩
        (List.replicate (2 * (stores call.process).credentials.length + 3) .returns)
          = (w', ⟨call, .returned (some principal)⟩)
      ∧ w'.bootstrapped call.process = true := by
  refine Alone.solo hvalid hquiet hlisted _ _ _ ?_ le_rfl
  exact ⟨hrun.bootstrapping.start, by rintro _ _ _ ⟨⟩, by rintro ⟨⟩, by rintro ⟨⟩⟩

/-- The loser of the race authenticates at its next attempt. -/
theorem authenticate_after_race_loser :
    ∃ c w' principal, AuthRun (fun _ => labStore) (fun _ => none) (raceActs secondLoses) c
      ∧ (credentialPlane fun _ => labStore).solo c.world ⟨⟨1, "key-2"⟩, .ensure⟩
        (List.replicate 7 .returns) = (w', ⟨⟨1, "key-2"⟩, .returned (some principal)⟩) := by
  obtain ⟨c, hrun, hquiet⟩ := exists_race secondLoses
    (fun c => decide (∀ t ∈ c.tasks, t.pc.Finished)) (by decide +kernel)
  obtain ⟨w', principal, hsolo, -⟩ := authenticate_after_race ⟨1, "key-2"⟩
    (by simp) hrun (of_decide_eq_true hquiet) (by decide +kernel)
  exact ⟨c, w', principal, hrun, hsolo⟩

end Runs

end ControlPlane
