import ControlPlane.Lib.Interleave

/-!
# One system followed by another

Rules that carry a run of one interleaved system over to another, from what a
single step of a task is on the other side.

* `Run.lockstep`: every action has its counterpart, and the tasks are the
  same up to a map. The second run is the first one's image, action by action.
* `Run.refines`: the tasks are the same up to a map, and a step is one of its
  image or nothing there. Steps of a call that is one step on the other side.
* `Run.project`: a task may be on the other side for a part of its life only.
  It enters with a start, and what it does before and after that is nothing
  there. The tasks on the other side are those that entered, in the order
  they did.

In all of them the worlds are kept in step by a relation.
-/

namespace ControlPlane.Lib

variable {W W' T T' E E' : Type}

/-- The action on the other side. -/
def Act.map (f : T → T') (g : E → E') : Act T E → Act T' E'
  | .start t => .start (f t)
  | .run i e => .run i (g e)

namespace System

variable {S : System W T E} {S' : System W' T' E'} {ok : Conf W T → Act T E → Prop}
  {ok' : Conf W' T' → Act T' E' → Prop}

section Lockstep

variable {R : W → W' → Prop} {P : T → Prop} {f : T → T'} {g : E → E'}

/-- **The lockstep rule.** `P` is what every task keeps; a step of a task
from related worlds is matched by a step of its image. -/
theorem Run.lockstep
    (hstart : ∀ w ts w₁ t, ok ⟨w, ts⟩ (.start t) →
      P t ∧ ok' ⟨w₁, ts.map f⟩ (.start (f t)))
    (hstep : ∀ w l t r e w' t' w₁, ok ⟨w, l ++ t :: r⟩ (.run l.length e) → P t → R w w₁ →
      S.advance e w t = some (w', t') →
      P t' ∧ ok' ⟨w₁, (l ++ t :: r).map f⟩ (.run l.length (g e))
        ∧ ∃ w₁', S'.advance (g e) w₁ (f t) = some (w₁', f t') ∧ R w' w₁') :
    ∀ {acts : List (Act T E)} {c c' : Conf W T} {w₁ : W'}, S.Run ok c acts c' →
      (∀ t ∈ c.tasks, P t) → R c.world w₁ →
      ∃ w₁', S'.Run ok' ⟨w₁, c.tasks.map f⟩ (acts.map (Act.map f g)) ⟨w₁', c'.tasks.map f⟩
        ∧ R c'.world w₁'
  | [], c, c', w₁, h, _, hR => by
    obtain rfl := h
    exact ⟨w₁, rfl, hR⟩
  | .start t :: acts, ⟨w, ts⟩, c', w₁, ⟨hok, c₂, hnext, hrest⟩, hP, hR => by
    obtain rfl : (⟨w, ts ++ [t]⟩ : Conf W T) = c₂ := Option.some.inj hnext
    obtain ⟨ht, hok'⟩ := hstart w ts w₁ t hok
    have hP' : ∀ u ∈ ts ++ [t], P u := by
      intro u hu
      rcases List.mem_append.mp hu with hu | hu
      · exact hP u hu
      · rw [List.mem_singleton.mp hu]
        exact ht
    obtain ⟨w₁', hrun, hR'⟩ := Run.lockstep hstart hstep hrest hP' hR
    refine ⟨w₁', ⟨hok', ⟨w₁, ts.map f ++ [f t]⟩, rfl, ?_⟩, hR'⟩
    rw [List.map_append] at hrun
    exact hrun
  | .run i e :: acts, ⟨w, ts⟩, c', w₁, ⟨hok, c₂, hnext, hrest⟩, hP, hR => by
    obtain ⟨l, t, r, w', t', rfl, rfl, hadv, rfl⟩ := S.step_run_iff.mp hnext
    obtain ⟨ht, hothers⟩ := forall_mem_split.mp hP
    obtain ⟨ht', hok', w₂, hadv', hR₂⟩ := hstep w l t r e w' t' w₁ hok ht hR hadv
    obtain ⟨w₁', hrun, hR'⟩ := Run.lockstep hstart hstep hrest
      (forall_mem_split.mpr ⟨ht', hothers⟩) hR₂
    refine ⟨w₁', ⟨hok', ⟨w₂, (l ++ t' :: r).map f⟩, ?_, hrun⟩, hR'⟩
    refine S'.step_run_iff.mpr ⟨l.map f, f t, r.map f, w₂, f t', ?_, ?_, hadv', ?_⟩
    · rw [List.map_append, List.map_cons]
    · rw [List.length_map]
    · rw [List.map_append, List.map_cons]

end Lockstep

section Refines

variable {R : W → W' → Prop} {f : T → T'}

/-- What a step of a task may be for its image. -/
inductive Refines (S' : System W' T' E') (ok' : Conf W' T' → Act T' E' → Prop)
    (R : W → W' → Prop) (u u' : T') (w' : W) (w₁ : W') : Prop
  | nothing (hsame : u' = u) (hR : R w' w₁)
  | steps {e : E'} {v : W'} (hadv : S'.advance e w₁ u = some (v, u'))
      (hok : ∀ (ts : List T') (i : ℕ), ts[i]? = some u → ok' ⟨w₁, ts⟩ (.run i e)) (hR : R w' v)

/-- **The refinement rule.** From related worlds, each step is nothing or one
step on the other side; the tasks correspond one by one. -/
theorem Run.refines
    (hstart : ∀ w ts w₁ t, ok ⟨w, ts⟩ (.start t) → ok' ⟨w₁, ts.map f⟩ (.start (f t)))
    (hstep : ∀ w l t r e w' t' w₁, ok ⟨w, l ++ t :: r⟩ (.run l.length e) → R w w₁ →
      S.advance e w t = some (w', t') → Refines S' ok' R (f t) (f t') w' w₁) :
    ∀ {acts : List (Act T E)} {c c' : Conf W T} {w₁ : W'}, S.Run ok c acts c' → R c.world w₁ →
      ∃ acts₁ w₁', S'.Run ok' ⟨w₁, c.tasks.map f⟩ acts₁ ⟨w₁', c'.tasks.map f⟩ ∧ R c'.world w₁'
  | [], c, c', w₁, h, hR => by
    obtain rfl := h
    exact ⟨[], w₁, rfl, hR⟩
  | .start t :: acts, ⟨w, ts⟩, c', w₁, ⟨hok, c₂, hnext, hrest⟩, hR => by
    obtain rfl : (⟨w, ts ++ [t]⟩ : Conf W T) = c₂ := Option.some.inj hnext
    obtain ⟨acts₁, w₁', hrun, hR'⟩ := Run.refines hstart hstep hrest hR
    refine ⟨.start (f t) :: acts₁, w₁', ⟨hstart w ts w₁ t hok, ⟨w₁, ts.map f ++ [f t]⟩, rfl, ?_⟩,
      hR'⟩
    rw [List.map_append] at hrun
    exact hrun
  | .run i e :: acts, ⟨w, ts⟩, c', w₁, ⟨hok, c₂, hnext, hrest⟩, hR => by
    obtain ⟨l, t, r, w', t', rfl, rfl, hadv, rfl⟩ := S.step_run_iff.mp hnext
    cases hstep w l t r e w' t' w₁ hok hR hadv with
    | nothing hsame hR₂ =>
      obtain ⟨acts₁, w₁', hrun, hR'⟩ := Run.refines hstart hstep hrest hR₂
      refine ⟨acts₁, w₁', ?_, hR'⟩
      rwa [List.map_append, List.map_cons, hsame, ← List.map_cons, ← List.map_append] at hrun
    | @steps e' w₂ hadv' hok' hR₂ =>
      obtain ⟨acts₁, w₁', hrun, hR'⟩ := Run.refines hstart hstep hrest hR₂
      have hself : ((l ++ t :: r).map f)[(l.map f).length]? = some (f t) := by
        rw [List.map_append, List.map_cons]
        exact getElem?_split_self (f t)
      refine ⟨.run (l.map f).length e' :: acts₁, w₁', ⟨hok' _ _ hself, ⟨w₂, (l ++ t' :: r).map f⟩,
        ?_, hrun⟩, hR'⟩
      refine S'.step_run_iff.mpr ⟨l.map f, f t, r.map f, w₂, f t', ?_, rfl, hadv', ?_⟩
      · rw [List.map_append, List.map_cons]
      · rw [List.map_append, List.map_cons]

end Refines

section Project

variable {R : W → W' → Prop} {proj : T → Option T'}

/-- What a step of a task may be on the other side. -/
inductive Projects (S' : System W' T' E') (ok' : Conf W' T' → Act T' E' → Prop)
    (R : W → W' → Prop) (proj : T → Option T') (t t' : T) (w' : W) (w₁ : W') : Prop
  | nothing (hsame : proj t' = proj t) (hR : R w' w₁)
  | enters {u : T'} (hout : proj t = none) (hin : proj t' = some u)
      (hok : ∀ ts, ok' ⟨w₁, ts⟩ (.start u)) (hR : R w' w₁)
  | steps {u u' : T'} {e : E'} {w₁' : W'} (hbefore : proj t = some u) (hafter : proj t' = some u')
      (hadv : S'.advance e w₁ u = some (w₁', u'))
      (hok : ∀ (ts : List T') (i : ℕ), ts[i]? = some u → ok' ⟨w₁, ts⟩ (.run i e)) (hR : R w' w₁')

/-- One step, with the other side's tasks in an order of their own. -/
theorem Projects.exists_run {l r : List T} {t t' : T} {w' : W} {w₁ : W'} {ts₁ : List T'}
    (h : Projects S' ok' R proj t t' w' w₁) (hts : ts₁.Perm ((l ++ t :: r).filterMap proj)) :
    ∃ acts₁ w₁' ts₁', S'.Run ok' ⟨w₁, ts₁⟩ acts₁ ⟨w₁', ts₁'⟩ ∧ R w' w₁'
      ∧ ts₁'.Perm ((l ++ t' :: r).filterMap proj) := by
  rw [List.filterMap_append, List.filterMap_cons] at hts
  rw [List.filterMap_append, List.filterMap_cons]
  cases h with
  | nothing hsame hR =>
    rw [hsame]
    exact ⟨[], w₁, ts₁, rfl, hR, hts⟩
  | @enters u hout hin hok hR =>
    rw [hout] at hts
    rw [hin]
    refine ⟨[.start u], w₁, ts₁ ++ [u], ⟨hok _, _, rfl, rfl⟩, hR, ?_⟩
    refine (List.perm_append_singleton u ts₁).trans ?_
    exact (hts.cons u).trans List.perm_middle.symm
  | @steps u u' e w₁' hbefore hafter hadv hok hR =>
    rw [hbefore] at hts
    rw [hafter]
    have hmem : u ∈ ts₁ := hts.mem_iff.mpr (List.mem_append_right _ List.mem_cons_self)
    obtain ⟨l₁, r₁, rfl⟩ := List.append_of_mem hmem
    -- Without the task that moves the two sides have the same tasks.
    have hothers : (l₁ ++ r₁).Perm (l.filterMap proj ++ r.filterMap proj) :=
      ((List.perm_middle.symm.trans hts).trans List.perm_middle).cons_inv
    refine ⟨[.run l₁.length e], w₁', l₁ ++ u' :: r₁, ⟨hok _ _ (getElem?_split_self u), _, ?_, rfl⟩,
      hR, ?_⟩
    · exact S'.step_run_iff.mpr ⟨l₁, u, r₁, w₁', u', rfl, rfl, hadv, rfl⟩
    · exact (List.perm_middle.trans (hothers.cons u')).trans List.perm_middle.symm

/-- **The projection rule.** A task starts outside, and each step is nothing,
an entry or a step on the other side. -/
theorem Run.project
    (hstart : ∀ c t, ok c (.start t) → proj t = none)
    (hstep : ∀ w l t r e w' t' w₁, ok ⟨w, l ++ t :: r⟩ (.run l.length e) → R w w₁ →
      S.advance e w t = some (w', t') → Projects S' ok' R proj t t' w' w₁) :
    ∀ {acts : List (Act T E)} {c c' : Conf W T} {w₁ : W'} {ts₁ : List T'}, S.Run ok c acts c' →
      R c.world w₁ → ts₁.Perm (c.tasks.filterMap proj) →
      ∃ acts₁ w₁' ts₁', S'.Run ok' ⟨w₁, ts₁⟩ acts₁ ⟨w₁', ts₁'⟩ ∧ R c'.world w₁'
        ∧ ts₁'.Perm (c'.tasks.filterMap proj)
  | [], c, c', w₁, ts₁, h, hR, hts => by
    obtain rfl := h
    exact ⟨[], w₁, ts₁, rfl, hR, hts⟩
  | .start t :: acts, ⟨w, ts⟩, c', w₁, ts₁, ⟨hok, c₂, hnext, hrest⟩, hR, hts => by
    obtain rfl : (⟨w, ts ++ [t]⟩ : Conf W T) = c₂ := Option.some.inj hnext
    refine Run.project hstart hstep hrest hR ?_
    simpa [hstart _ t hok] using hts
  | .run i e :: acts, ⟨w, ts⟩, c', w₁, ts₁, ⟨hok, c₂, hnext, hrest⟩, hR, hts => by
    obtain ⟨l, t, r, w', t', rfl, rfl, hadv, rfl⟩ := S.step_run_iff.mp hnext
    obtain ⟨acts₁, w₂, ts₂, hfirst, hR₂, hts₂⟩ :=
      (hstep w l t r e w' t' w₁ hok hR hadv).exists_run hts
    obtain ⟨acts₂, w₁', ts₁', hlater, hR', hts'⟩ := Run.project hstart hstep hrest hR₂ hts₂
    exact ⟨acts₁ ++ acts₂, w₁', ts₁', hfirst.append hlater, hR', hts'⟩

end Project

end System

end ControlPlane.Lib
