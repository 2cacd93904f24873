import ControlPlane.Lib.Interleave

/-!
# Coming to an end

Two halves of "every task comes to an end". Each step of a task uses up some
of what it has left, so a run takes a bounded number of steps (`steps_le`).
And no set of tasks waits in a circle: where one that waits does so for one
that is further ahead, the one furthest ahead does not wait
(`exists_furthest`).
-/

namespace ControlPlane.Lib

variable {W T E : Type}

/-- How many of the actions are steps. -/
def steps : List (Act T E) → ℕ
  | [] => 0
  | .start _ :: acts => steps acts
  | .run _ _ :: acts => steps acts + 1

/-- A run takes no more steps than its tasks have to start with. -/
theorem System.Run.steps_le {S : System W T E} {ok : Conf W T → Act T E → Prop} {m : T → ℕ}
    {b : ℕ} (hstart : ∀ c t, ok c (.start t) → m t ≤ b)
    (hstep : ∀ e w t w' t', S.advance e w t = some (w', t') → m t' < m t) :
    ∀ {acts : List (Act T E)} {c c' : Conf W T}, S.Run ok c acts c' →
      steps acts + sumOver m c'.tasks + b * c.tasks.length
        ≤ sumOver m c.tasks + b * c'.tasks.length
  | [], c, c', h => by
    obtain rfl := h
    simp [steps]
  | .start t :: acts, ⟨w, ts⟩, c', ⟨hok, c₁, hnext, hrest⟩ => by
    obtain rfl : (⟨w, ts ++ [t]⟩ : Conf W T) = c₁ := Option.some.inj hnext
    have ih := Run.steps_le hstart hstep hrest
    have ht := hstart _ t hok
    simp only [sumOver_append, sumOver_cons, sumOver_nil, List.length_append, List.length_cons,
      List.length_nil, Nat.mul_add] at ih
    simp only [steps]
    omega
  | .run i e :: acts, ⟨w, ts⟩, c', ⟨hok, c₁, hnext, hrest⟩ => by
    obtain ⟨l, t, r, w', t', rfl, rfl, hadv, rfl⟩ := S.step_run_iff.mp hnext
    have ih := Run.steps_le hstart hstep hrest
    have hlt := hstep e w t w' t' hadv
    simp only [sumOver_append, sumOver_cons, List.length_append, List.length_cons] at ih ⊢
    simp only [steps]
    omega

/-- Where a waiting one waits for one that is further ahead, the furthest
ahead does not wait. -/
theorem exists_furthest {α : Type} {l : List α} (hne : l ≠ []) (rank : α → ℕ)
    {P : α → Prop} (hahead : ∀ a ∈ l, P a → ∃ b ∈ l, rank a < rank b) :
    ∃ a ∈ l, ¬P a := by
  obtain ⟨a, ha, hmax⟩ := Set.exists_max_image {a | a ∈ l} rank l.finite_toSet
    (List.exists_mem_of_ne_nil l hne)
  refine ⟨a, ha, fun hwaits => ?_⟩
  obtain ⟨b, hb, hlt⟩ := hahead a ha hwaits
  exact absurd (hmax b hb) (not_le.mpr hlt)

end ControlPlane.Lib
