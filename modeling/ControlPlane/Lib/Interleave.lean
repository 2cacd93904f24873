import Mathlib

/-!
# Tasks interleaved over one shared world

A system is a function that takes one task from one await point to the next,
changing the shared world on the way; the environment supplies what the step
reads from outside (time, faults, fresh names). A configuration is a world
and the list of tasks started so far, finished ones included, so a task's
position names it for good. Any task may take the next step, which is every
interleaving at await points.

`Run ok c acts c'` is a schedule `acts` that leads from `c` to `c'` with each
action permitted by `ok` in the configuration it is taken in. An invariant is
proved once per way a configuration can grow (`Run.invariant`): a task is
started, or one task of the list moves. The moving task is given by the
split `l ++ t :: r` of the list, the form in which sums, searches and
`filterMap`s over the tasks come apart.
-/

namespace ControlPlane.Lib

variable {W T E : Type}

/-- `none`: the task cannot step (it is finished, blocked, or the environment
offers something impossible). -/
structure System (W T E : Type) where
  advance : E → W → T → Option (W × T)

/-- The world and the tasks in it. -/
structure Conf (W T : Type) where
  world : W
  tasks : List T

/-- A task starts, or one takes its next step. -/
inductive Act (T E : Type)
  | start (t : T)
  | run (i : ℕ) (e : E)

/-- The tasks after a step: the one that moved and the ones that did not. -/
theorem forall_mem_split {l r : List T} {t : T} {P : T → Prop} :
    (∀ u ∈ l ++ t :: r, P u) ↔ P t ∧ ∀ u, u ∈ l ∨ u ∈ r → P u := by
  constructor
  · intro h
    exact ⟨h t (by simp), fun u hu => h u (by rcases hu with hu | hu <;> simp [hu])⟩
  · intro hsplit u hu
    obtain ⟨ht, h⟩ := hsplit
    rcases List.mem_append.mp hu with hu | hu
    · exact h u (.inl hu)
    · rcases List.mem_cons.mp hu with rfl | hu
      · exact ht
      · exact h u (.inr hu)

/-- One task apart from the others. -/
theorem exists_mem_split {l r : List T} {t : T} {P : T → Prop} :
    (∃ u ∈ l ++ t :: r, P u) ↔ P t ∨ ∃ u, (u ∈ l ∨ u ∈ r) ∧ P u := by
  have h := forall_mem_split (l := l) (r := r) (t := t) (P := fun u => ¬P u)
  simpa only [not_forall, not_and_or, not_not, exists_prop] using not_congr h

/-- A step leaves every other position of the list as it was. -/
theorem getElem?_split_ne {l r : List T} {n : ℕ} (t t' : T) (h : n ≠ l.length) :
    (l ++ t' :: r)[n]? = (l ++ t :: r)[n]? := by
  rcases Nat.lt_or_gt_of_ne h with hlt | hgt
  · rw [List.getElem?_append_left hlt, List.getElem?_append_left hlt]
  · rw [List.getElem?_append_right hgt.le, List.getElem?_append_right hgt.le]
    obtain ⟨k, hk⟩ : ∃ k, n - l.length = k + 1 := ⟨n - l.length - 1, by omega⟩
    simp [hk]

/-- Another position holds another task. -/
theorem mem_of_getElem?_split {l r : List T} {n : ℕ} {t u : T}
    (hget : (l ++ t :: r)[n]? = some u) (h : n ≠ l.length) : u ∈ l ∨ u ∈ r := by
  rcases Nat.lt_or_gt_of_ne h with hlt | hgt
  · rw [List.getElem?_append_left hlt] at hget
    exact .inl (List.mem_of_getElem? hget)
  · rw [List.getElem?_append_right hgt.le] at hget
    obtain ⟨k, hk⟩ : ∃ k, n - l.length = k + 1 := ⟨n - l.length - 1, by omega⟩
    rw [hk, List.getElem?_cons_succ] at hget
    exact .inr (List.mem_of_getElem? hget)

/-- The task at its own position. -/
theorem getElem?_split_self {l r : List T} (t : T) : (l ++ t :: r)[l.length]? = some t := by
  simp

/-! ## Sums over the tasks -/

/-- What the tasks hold together. -/
def sumOver {M : Type} [AddCommMonoid M] (f : T → M) (ts : List T) : M :=
  (ts.map f).sum

section SumOver

variable {M : Type} [AddCommMonoid M] (f : T → M)

/-- The sum over no tasks. -/
@[simp]
theorem sumOver_nil : sumOver f [] = 0 := rfl

/-- It splits with the list. -/
@[simp]
theorem sumOver_append (l r : List T) : sumOver f (l ++ r) = sumOver f l + sumOver f r := by
  rw [sumOver, List.map_append, List.sum_append]
  rfl

/-- One task at a time. -/
@[simp]
theorem sumOver_cons (t : T) (ts : List T) : sumOver f (t :: ts) = f t + sumOver f ts := by
  rw [sumOver, List.map_cons, List.sum_cons]
  rfl

/-- The one task's share and the others'. -/
theorem sumOver_split (l : List T) (t : T) (r : List T) :
    sumOver f (l ++ t :: r) = f t + sumOver f (l ++ r) := by
  simp only [sumOver_append, sumOver_cons]
  exact add_left_comm _ _ _

/-- A sum of what is not negative. -/
theorem sumOver_nonneg [PartialOrder M] [IsOrderedAddMonoid M] {f : T → M} {ts : List T}
    (h : ∀ t ∈ ts, 0 ≤ f t) : 0 ≤ sumOver f ts :=
  List.sum_nonneg fun x hx => by
    obtain ⟨t, ht, rfl⟩ := List.mem_map.mp hx
    exact h t ht

/-- The members of a sum of multisets. -/
theorem mem_sumOver {α : Type} {f : T → Multiset α} {ts : List T} {a : α} :
    a ∈ sumOver f ts ↔ ∃ t ∈ ts, a ∈ f t := by
  induction ts with
  | nil => simp
  | cons t ts ih => simp [ih]

end SumOver

/-! ## Names that one task holds -/

section Names

variable {N : Type} {f : T → Option N} {l r : List T} {t t' u : T} {n : N}

/-- Tasks of different names. -/
theorem ne_of_nodup_names (h : ((l ++ t :: r).filterMap f).Nodup) (ht : f t = some n)
    (hu : u ∈ l ∨ u ∈ r) : f u ≠ some n := by
  intro hn
  rw [List.filterMap_append, List.filterMap_cons_some ht] at h
  have hnotMem := (List.nodup_middle.mp h).notMem
  rw [← List.filterMap_append] at hnotMem
  exact hnotMem (List.mem_filterMap.mpr ⟨u, List.mem_append.mpr hu, hn⟩)

/-- A task may keep its name, drop it, or take one that no other task has. -/
theorem nodup_names_step (h : ((l ++ t :: r).filterMap f).Nodup)
    (hstep : f t' = f t ∨ ∀ m, f t' = some m → ∀ u, u ∈ l ∨ u ∈ r → f u ≠ some m) :
    ((l ++ t' :: r).filterMap f).Nodup := by
  have hothers : ((l ++ r).filterMap f).Nodup := by
    refine h.sublist (List.Sublist.filterMap f ?_)
    exact (List.append_sublist_append_left l).mpr (List.sublist_cons_self t r)
  rw [List.filterMap_append, List.filterMap_cons] at h ⊢
  rcases hstep with hsame | hnew
  · rw [hsame]
    exact h
  · cases ht' : f t' with
    | none =>
      dsimp only
      rw [← List.filterMap_append]
      exact hothers
    | some m =>
      dsimp only
      refine List.nodup_middle.mpr (List.nodup_cons.mpr ⟨?_, ?_⟩)
      · rw [← List.filterMap_append]
        intro hmem
        obtain ⟨u, hu, hm⟩ := List.mem_filterMap.mp hmem
        exact hnew m ht' u (List.mem_append.mp hu) hm
      · rw [← List.filterMap_append]
        exact hothers

end Names

namespace System

variable (S : System W T E)

/-- One act of a run. -/
def step (c : Conf W T) : Act T E → Option (Conf W T)
  | .start t => some ⟨c.world, c.tasks ++ [t]⟩
  | .run i e =>
    match c.tasks[i]? with
    | none => none
    | some t => (S.advance e c.world t).map fun wt => ⟨wt.1, c.tasks.set i wt.2⟩

/-- `acts` leads from the first configuration to the second, every action
permitted where it is taken. -/
def Run (ok : Conf W T → Act T E → Prop) : Conf W T → List (Act T E) → Conf W T → Prop
  | c, [], c' => c = c'
  | c, a :: acts, c' => ok c a ∧ ∃ c₁, S.step c a = some c₁ ∧ Run ok c₁ acts c'

/-- `Run` as a computation: `check` passes on each action where it is taken. -/
def execIf (check : Conf W T → Act T E → Bool) : Conf W T → List (Act T E) → Option (Conf W T)
  | c, [] => some c
  | c, a :: acts => if check c a then (S.step c a).bind fun c₁ => execIf check c₁ acts else none

/-- For schedules that are permitted throughout. -/
def exec (c : Conf W T) (acts : List (Act T E)) : Option (Conf W T) :=
  S.execIf (fun _ _ => true) c acts

/-- One task on its own in the world. A step it cannot take is skipped. -/
def solo (w : W) (t : T) (envs : List E) : W × T :=
  envs.foldl (fun wt e => (S.advance e wt.1 wt.2).getD wt) (w, t)

/-- A task run alone, with one more step at the end. -/
theorem solo_snoc {w w₁ w₂ : W} {t t₁ t₂ : T} {envs : List E} {e : E}
    (h : S.solo w t envs = (w₁, t₁)) (hadv : S.advance e w₁ t₁ = some (w₂, t₂)) :
    S.solo w t (envs ++ [e]) = (w₂, t₂) := by
  unfold solo at h ⊢
  rw [List.foldl_append, h]
  simp [hadv]

/-- And with one more at the front. -/
theorem solo_cons {w w₁ : W} {t t₁ : T} {e : E} {envs : List E}
    (hadv : S.advance e w t = some (w₁, t₁)) : S.solo w t (e :: envs) = S.solo w₁ t₁ envs := by
  unfold solo
  rw [List.foldl_cons]
  simp [hadv]

/-- What a task's steps preserve, the task on its own preserves. -/
theorem solo_invariant {I : W → T → Prop}
    (hstep : ∀ e w t w' t', S.advance e w t = some (w', t') → I w t → I w' t') :
    ∀ {envs : List E} {w : W} {t : T}, I w t → I (S.solo w t envs).1 (S.solo w t envs).2
  | [], _, _, h => h
  | e :: envs, w, t, h => by
    cases hadv : S.advance e w t with
    | none =>
      have hskip : S.solo w t (e :: envs) = S.solo w t envs := by
        unfold solo
        rw [List.foldl_cons]
        simp [hadv]
      rw [hskip]
      exact solo_invariant hstep h
    | some next =>
      obtain ⟨w₁, t₁⟩ := next
      rw [S.solo_cons hadv]
      exact solo_invariant hstep (hstep e w t w₁ t₁ hadv h)

/-- A task that has come to rest stays there. -/
theorem solo_replicate_add {w w₁ : W} {t t₁ : T} {e : E} {n : ℕ}
    (h : S.solo w t (List.replicate n e) = (w₁, t₁)) (hrest : S.advance e w₁ t₁ = none) (k : ℕ) :
    S.solo w t (List.replicate (n + k) e) = (w₁, t₁) := by
  induction k with
  | zero => exact h
  | succ k ih =>
    unfold solo at ih ⊢
    rw [← Nat.add_assoc, List.replicate_succ', List.foldl_append, ih]
    simp [hrest]

/-- One task on its own, every step of it taken; `none` where it cannot take
the next one. -/
def follow (w : W) (t : T) (envs : List E) : Option (W × T) :=
  envs.foldlM (fun wt e => S.advance e wt.1 wt.2) (w, t)

/-- Following it, with one more step at the end. -/
theorem follow_concat (w : W) (t : T) (envs : List E) (e : E) :
    S.follow w t (envs ++ [e])
      = (S.follow w t envs).bind fun wt => S.advance e wt.1 wt.2 := by
  unfold follow
  rw [List.foldlM_append]
  simp

/-- A task made anew and run on its own until one comes to a result; `none`
when the attempts run out first. -/
def retry {R : Type} (result : T → Option R) (t : T) : W → List (List E) → Option (W × R)
  | _, [] => none
  | w, envs :: rest =>
    match result (S.solo w t envs).2 with
    | some r => some ((S.solo w t envs).1, r)
    | none => retry result t (S.solo w t envs).1 rest

/-- A task that is stuck stays. -/
theorem solo_stuck {w : W} {t : T} (hstuck : ∀ e, S.advance e w t = none) (envs : List E) :
    S.solo w t envs = (w, t) := by
  induction envs with
  | nil => rfl
  | cons e envs ih =>
    unfold solo at ih ⊢
    rw [List.foldl_cons]
    simpa [hstuck e] using ih

/-- The attempt that came to a result, from a world the others preserve. -/
theorem retry_last {R : Type} {result : T → Option R} {t : T} {I : W → Prop}
    (hattempt : ∀ w envs, I w → I (S.solo w t envs).1) :
    ∀ {l : List (List E)} {w w' : W} {r : R}, S.retry result t w l = some (w', r) → I w →
      ∃ w₁ envs, I w₁ ∧ (S.solo w₁ t envs).1 = w' ∧ result (S.solo w₁ t envs).2 = some r
  | [], _, _, _, h, _ => by simp [retry] at h
  | envs :: rest, w, w', r, h, hI => by
    simp only [retry] at h
    split at h
    next r' hr =>
      obtain ⟨rfl, rfl⟩ := Prod.mk.inj (Option.some.inj h)
      exact ⟨w, envs, hI, rfl, hr⟩
    next => exact retry_last hattempt h (hattempt w envs hI)

/-- What every attempt preserves, the retries preserve. -/
theorem retry_invariant {R : Type} {result : T → Option R} {t : T} {I : W → Prop}
    (hattempt : ∀ w envs, I w → I (S.solo w t envs).1) :
    ∀ {l : List (List E)} {w w' : W} {r : R}, S.retry result t w l = some (w', r) → I w → I w'
  | [], _, _, _, h, _ => by simp [retry] at h
  | envs :: rest, w, w', r, h, hI => by
    simp only [retry] at h
    split at h
    next =>
      obtain ⟨rfl, -⟩ := Prod.mk.inj (Option.some.inj h)
      exact hattempt w envs hI
    next => exact retry_invariant hattempt h (hattempt w envs hI)

/-- A task's step, as a split of the task list. -/
theorem step_run_iff {c c' : Conf W T} {i : ℕ} {e : E} :
    S.step c (.run i e) = some c' ↔
      ∃ l t r w t', c.tasks = l ++ t :: r ∧ l.length = i ∧ S.advance e c.world t = some (w, t')
        ∧ c' = ⟨w, l ++ t' :: r⟩ := by
  constructor
  · intro h
    simp only [step] at h
    split at h
    next => simp at h
    next t hget =>
      obtain ⟨⟨w, t'⟩, hadv, rfl⟩ := Option.map_eq_some_iff.mp h
      obtain ⟨hi, rfl⟩ := List.getElem?_eq_some_iff.mp hget
      refine ⟨c.tasks.take i, c.tasks[i], c.tasks.drop (i + 1), w, t', ?_, ?_, hadv, ?_⟩
      · rw [List.cons_getElem_drop_succ, List.take_append_drop]
      · simp [Nat.min_eq_left hi.le]
      · rw [List.set_eq_take_append_cons_drop, if_pos hi]
  · intro hstep
    obtain ⟨l, t, r, w, t', htasks, rfl, hadv, rfl⟩ := hstep
    simp [step, htasks, hadv]

variable {S}

/-- A run that was executed, with its checks. -/
theorem Run.of_execIf {ok : Conf W T → Act T E → Prop} {check : Conf W T → Act T E → Bool} :
    ∀ {acts : List (Act T E)} {c c' : Conf W T}, (∀ a ∈ acts, ∀ c, check c a = true → ok c a) →
      S.execIf check c acts = some c' → S.Run ok c acts c'
  | [], _, _, _, h => Option.some.inj h
  | a :: acts, c, c', hok, h => by
    simp only [execIf] at h
    split at h
    next hcheck =>
      obtain ⟨c₁, hstep, hrest⟩ := Option.bind_eq_some_iff.mp h
      exact ⟨hok a (by simp) c hcheck, c₁, hstep,
        Run.of_execIf (fun b hb => hok b (List.mem_cons_of_mem _ hb)) hrest⟩
    next => simp at h

/-- The same without checks. -/
theorem Run.of_exec {ok : Conf W T → Act T E → Prop} {acts : List (Act T E)} {c c' : Conf W T}
    (hok : ∀ a ∈ acts, ∀ c, ok c a) (h : S.exec c acts = some c') : S.Run ok c acts c' :=
  Run.of_execIf (fun a ha c _ => hok a ha c) h

/-- A schedule that evaluates, each action checked, is a run. -/
theorem exists_run_of_any {ok : Conf W T → Act T E → Prop} [∀ c a, Decidable (ok c a)]
    {acts : List (Act T E)} {c : Conf W T} {P : Conf W T → Bool}
    (h : (S.execIf (fun c a => decide (ok c a)) c acts).any P = true) :
    ∃ c', S.Run ok c acts c' ∧ P c' = true := by
  obtain ⟨c', hexec, hP⟩ := (Option.any_eq_true _ _).mp h
  exact ⟨c', Run.of_execIf (fun _ _ _ hcheck => of_decide_eq_true hcheck) hexec, hP⟩

/-- Two runs, one after the other. -/
theorem Run.append {ok : Conf W T → Act T E → Prop} :
    ∀ {acts₁ acts₂ : List (Act T E)} {c c₁ c₂ : Conf W T},
      S.Run ok c acts₁ c₁ → S.Run ok c₁ acts₂ c₂ → S.Run ok c (acts₁ ++ acts₂) c₂
  | [], _, _, _, _, h₁, h₂ => by
    rw [List.nil_append]
    exact h₁ ▸ h₂
  | _ :: _, _, _, _, _, ⟨hok, c', hstep, h₁⟩, h₂ => ⟨hok, c', hstep, Run.append h₁ h₂⟩

/-- A run and one more act. -/
theorem Run.snoc {ok : Conf W T → Act T E → Prop} {acts : List (Act T E)} {a : Act T E}
    {c c₁ c₂ : Conf W T} (h : S.Run ok c acts c₁) (hok : ok c₁ a) (hstep : S.step c₁ a = some c₂) :
    S.Run ok c (acts ++ [a]) c₂ :=
  Run.append h ⟨hok, c₂, hstep, rfl⟩

/-- A weaker condition allows the run. -/
theorem Run.mono {ok ok' : Conf W T → Act T E → Prop} (himp : ∀ c a, ok c a → ok' c a) :
    ∀ {acts : List (Act T E)} {c c' : Conf W T}, S.Run ok c acts c' → S.Run ok' c acts c'
  | [], _, _, h => h
  | _ :: _, _, _, ⟨hok, c₁, hstep, h⟩ => ⟨himp _ _ hok, c₁, hstep, Run.mono himp h⟩

/-- Something that comes about in the course of a run does so at a step. -/
theorem Run.exists_step {ok : Conf W T → Act T E → Prop} {Q : Conf W T → Prop} :
    ∀ {acts : List (Act T E)} {c c' : Conf W T}, S.Run ok c acts c' → ¬Q c → Q c' →
      ∃ acts₁ a acts₂ c₁ c₂, acts = acts₁ ++ a :: acts₂ ∧ S.Run ok c acts₁ c₁ ∧ ok c₁ a
        ∧ S.step c₁ a = some c₂ ∧ S.Run ok c₂ acts₂ c' ∧ ¬Q c₁ ∧ Q c₂
  | [], _, _, h, hc, hc' => absurd (h ▸ hc') hc
  | a :: acts, c, c', ⟨hok, c₁, hstep, h⟩, hc, hc' => by
    by_cases hc₁ : Q c₁
    · exact ⟨[], a, acts, c, c₁, rfl, rfl, hok, hstep, h, hc, hc₁⟩
    · obtain ⟨acts₁, b, acts₂, c₂, c₃, rfl, hpre, hrest⟩ := Run.exists_step h hc₁ hc'
      exact ⟨a :: acts₁, b, acts₂, c₂, c₃, rfl, ⟨hok, c₁, hstep, hpre⟩, hrest⟩

/-- A run satisfies what each of its actions can be shown to satisfy from the
runs before and after it. -/
theorem Run.restrict {ok ok' : Conf W T → Act T E → Prop} {c₀ c' : Conf W T}
    (hall : ∀ acts₁ c₁ a c₂ acts₂, S.Run ok c₀ acts₁ c₁ → ok c₁ a → S.step c₁ a = some c₂ →
      S.Run ok c₂ acts₂ c' → ok' c₁ a) :
    ∀ {acts₁ acts : List (Act T E)} {c : Conf W T}, S.Run ok c₀ acts₁ c →
      S.Run ok c acts c' → S.Run ok' c acts c'
  | _, [], _, _, h => h
  | acts₁, a :: acts, c, hpre, ⟨hok, c₁, hstep, h⟩ => by
    have hpre' : S.Run ok c₀ (acts₁ ++ [a]) c₁ := hpre.append ⟨hok, c₁, hstep, rfl⟩
    exact ⟨hall acts₁ c a c₁ acts hpre hok hstep h, c₁, hstep, Run.restrict hall hpre' h⟩

/-- `Run.restrict` for a whole run. -/
theorem Run.strengthen {ok ok' : Conf W T → Act T E → Prop} {c c' : Conf W T}
    {acts : List (Act T E)} (hrun : S.Run ok c acts c')
    (hall : ∀ acts₁ c₁ a c₂ acts₂, S.Run ok c acts₁ c₁ → ok c₁ a → S.step c₁ a = some c₂ →
      S.Run ok c₂ acts₂ c' → ok' c₁ a) : S.Run ok' c acts c' := by
  have hnone : S.Run ok c [] c := rfl
  exact Run.restrict hall hnone hrun

/-- **The invariant rule.** What a start and a task's step preserve, a run
preserves. -/
theorem Run.invariant {ok : Conf W T → Act T E → Prop} {I : Conf W T → Prop}
    (hstart : ∀ w ts t, ok ⟨w, ts⟩ (.start t) → I ⟨w, ts⟩ → I ⟨w, ts ++ [t]⟩)
    (hrun : ∀ w l t r e w' t', ok ⟨w, l ++ t :: r⟩ (.run l.length e) →
      S.advance e w t = some (w', t') → I ⟨w, l ++ t :: r⟩ → I ⟨w', l ++ t' :: r⟩) :
    ∀ {acts : List (Act T E)} {c c' : Conf W T}, S.Run ok c acts c' → I c → I c'
  | [], _, _, h, hI => h ▸ hI
  | .start t :: acts, ⟨w, ts⟩, c', ⟨hok, c₁, hstep, h⟩, hI => by
    have hc₁ : c₁ = ⟨w, ts ++ [t]⟩ := (Option.some.inj hstep).symm
    subst hc₁
    exact Run.invariant hstart hrun h (hstart w ts t hok hI)
  | .run i e :: acts, ⟨w, ts⟩, c', ⟨hok, c₁, hstep, h⟩, hI => by
    obtain ⟨l, t, r, w', t', rfl, rfl, hadv, rfl⟩ := S.step_run_iff.mp hstep
    exact Run.invariant hstart hrun h (hrun w l t r e w' t' hok hadv hI)

/-- The invariant rule for what depends on the run so far. -/
theorem Run.history {ok : Conf W T → Act T E → Prop} {c₀ : Conf W T}
    {I : List (Act T E) → Conf W T → Prop}
    (hstep : ∀ acts c a c', S.Run ok c₀ acts c → ok c a → S.step c a = some c' → I acts c →
      I (acts ++ [a]) c') :
    ∀ {done acts : List (Act T E)} {c c' : Conf W T}, S.Run ok c₀ done c → I done c →
      S.Run ok c acts c' → I (done ++ acts) c'
  | done, [], c, c', _, hI, h => by
    obtain rfl : c = c' := h
    rwa [List.append_nil]
  | done, a :: acts, c, c', hdone, hI, ⟨hok, c₁, hstep', h⟩ => by
    have hdone' : S.Run ok c₀ (done ++ [a]) c₁ := hdone.append ⟨hok, c₁, hstep', rfl⟩
    have hI' := Run.history hstep hdone' (hstep done c a c₁ hdone hok hstep' hI) h
    rwa [List.append_assoc] at hI'

/-- A run comes apart at any of its actions. -/
theorem Run.split {ok : Conf W T → Act T E → Prop} :
    ∀ {acts₁ acts₂ : List (Act T E)} {c c' : Conf W T}, S.Run ok c (acts₁ ++ acts₂) c' →
      ∃ c₁, S.Run ok c acts₁ c₁ ∧ S.Run ok c₁ acts₂ c'
  | [], _, c, _, h => ⟨c, rfl, h⟩
  | _ :: _, _, _, _, ⟨hok, c₁, hstep, h⟩ => by
    obtain ⟨c₂, h₁, h₂⟩ := Run.split h
    exact ⟨c₂, ⟨hok, c₁, hstep, h₁⟩, h₂⟩

/-- A schedule leads to one configuration. -/
theorem Run.exec_eq {ok : Conf W T → Act T E → Prop} :
    ∀ {acts : List (Act T E)} {c c' : Conf W T}, S.Run ok c acts c' → S.exec c acts = some c'
  | [], _, _, h => congrArg some h
  | a :: acts, c, c', ⟨_, c₁, hstep, h⟩ => by
    show (S.step c a).bind (fun c₂ => S.exec c₂ acts) = some c'
    rw [hstep]
    exact Run.exec_eq h

/-! ### One task at a time -/

/-- At most one task is not at rest. -/
def OneBusy (rest : T → Prop) (ts : List T) : Prop :=
  ∀ (i j : ℕ) (t u : T), ts[i]? = some t → ts[j]? = some u → ¬rest t → ¬rest u → i = j

/-- Where one is busy, the others rest. -/
theorem OneBusy.others {rest : T → Prop} {l r : List T} {t u : T}
    (h : OneBusy rest (l ++ t :: r)) (ht : ¬rest t) (hu : u ∈ l ∨ u ∈ r) : rest u := by
  by_contra hbusy
  rcases hu with hu | hu
  · obtain ⟨i, hi, rfl⟩ := List.mem_iff_getElem.mp hu
    have heq := h i l.length _ t (by rw [List.getElem?_append_left hi, List.getElem?_eq_getElem hi])
      (getElem?_split_self t) hbusy ht
    omega
  · obtain ⟨i, hi⟩ := List.mem_iff_getElem?.mp hu
    have heq := h (l.length + 1 + i) l.length u t
      (by rw [List.getElem?_append_right (by omega),
        show l.length + 1 + i - l.length = i + 1 by omega, List.getElem?_cons_succ, hi])
      (getElem?_split_self t) hbusy ht
    omega

end System

end ControlPlane.Lib
