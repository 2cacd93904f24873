import ControlPlane.Lib.Rounding

/-!
# Smoothing on a decimal grid

A smoothed value moves to a weighted mean of itself and a new sample and is
rounded at every step, so it is not the mean of what was sampled. What it
keeps follows from the rounding being monotone and leaving the grid alone:

* a grid point that bounds the old value and the sample bounds the new value
  (`le_step`, `step_le`), so no rounding error ever leaves the hull of the
  samples;
* under a constant sample the value moves towards it without overshooting
  (`approaches`) and settles (`settles`). Where it settles is a question
  about the one rounding.

A value that keeps the largest of its shrunk self and each sample's share is
the largest share that is left (`remaining_le_foldl`, `exists_remaining`), and
a bound on the outcome of any monotone fold can be carried back over the
samples to its start (`foldl_le_iff_le_foldr`).
-/

namespace ControlPlane.Lib

/-- A multiple of `10 ^ -n`. -/
def OnGrid (n : ℕ) (q : ℚ) : Prop :=
  ∃ z : ℤ, q = z / 10 ^ n

/-- Integers are on every grid. -/
theorem OnGrid.int (n : ℕ) (z : ℤ) : OnGrid n z := by
  refine ⟨z * 10 ^ n, ?_⟩
  have hpos : (10 : ℚ) ^ n ≠ 0 := by positivity
  push_cast
  exact (mul_div_cancel_right₀ _ hpos).symm

/-- What is rounded is on the grid. -/
theorem Rounding.onGrid_digits (R : Rounding) (n : ℕ) (q : ℚ) : OnGrid n (R.digits n q) :=
  ⟨R.toInt (q * 10 ^ n), rfl⟩

/-- What is on the grid is not rounded. -/
theorem Rounding.digits_of_onGrid (R : Rounding) {n : ℕ} {q : ℚ} (h : OnGrid n q) :
    R.digits n q = q := by
  obtain ⟨z, rfl⟩ := h
  exact R.digits_grid n z

/-! ## Settling -/

section Settling

variable {α : Type*} {f : α → α} {a : α}

/-- Every step is the last or comes closer, by a measure that cannot fall for
ever. -/
theorem exists_iterate_fixed {P : α → Prop} {d : α → ℕ} (hP : ∀ a, P a → P (f a))
    (hd : ∀ a, P a → f a = a ∨ d (f a) < d a) (ha : P a) : ∃ N, f (f^[N] a) = f^[N] a := by
  induction hn : d a using Nat.strong_induction_on generalizing a with
  | _ n ih =>
    rcases hd a ha with hfix | hlt
    · exact ⟨0, hfix⟩
    · obtain ⟨N, hN⟩ := ih (d (f a)) (hn ▸ hlt) (hP a ha) rfl
      refine ⟨N + 1, ?_⟩
      rw [Function.iterate_succ_apply]
      exact hN

/-- Past a fixed point nothing changes. -/
theorem iterate_of_fixed {N : ℕ} (h : f (f^[N] a) = f^[N] a) {m : ℕ} (hm : N ≤ m) :
    f^[m] a = f^[N] a := by
  induction m, hm using Nat.le_induction with
  | base => rfl
  | succ m _ ih => rw [Function.iterate_succ_apply', ih, h]

end Settling

/-! ## One step -/

/-- Monotone towards `target`, and never past it. -/
def Approaches (target : ℚ) (u : ℕ → ℚ) : Prop :=
  (∀ n, u n ≤ u (n + 1) ∧ u (n + 1) ≤ target) ∨ ∀ n, u (n + 1) ≤ u n ∧ target ≤ u (n + 1)

/-- `v` lies between the smallest and the largest of `values`. -/
def InHull (values : List ℚ) (v : ℚ) : Prop :=
  (∃ lo ∈ values, lo ≤ v) ∧ ∃ hi ∈ values, v ≤ hi

instance decidableInHull (values : List ℚ) (v : ℚ) : Decidable (InHull values v) :=
  inferInstanceAs (Decidable (_ ∧ _))

/-- The old value's weight, and how the mean is rounded. -/
structure Smoother where
  rounding : Rounding
  digits : ℕ
  keep : ℚ
  keep_nonneg : 0 ≤ keep := by norm_num
  keep_le_one : keep ≤ 1 := by norm_num

namespace Smoother

variable (S : Smoother)

/-- The weighted mean of the old value and the new. -/
def mean (old new : ℚ) : ℚ :=
  old * S.keep + new * (1 - S.keep)

/-- The mean, rounded. -/
def step (old new : ℚ) : ℚ :=
  S.rounding.digits S.digits (S.mean old new)

variable {S} {lo hi old new : ℚ}

/-- A lower bound of both bounds the mean. -/
theorem le_mean (hold : lo ≤ old) (hnew : lo ≤ new) : lo ≤ S.mean old new := by
  have h1 := mul_le_mul_of_nonneg_right hold S.keep_nonneg
  have h2 := mul_le_mul_of_nonneg_right hnew (sub_nonneg.mpr S.keep_le_one)
  unfold mean
  linarith

/-- So does an upper one. -/
theorem mean_le (hold : old ≤ hi) (hnew : new ≤ hi) : S.mean old new ≤ hi := by
  have h1 := mul_le_mul_of_nonneg_right hold S.keep_nonneg
  have h2 := mul_le_mul_of_nonneg_right hnew (sub_nonneg.mpr S.keep_le_one)
  unfold mean
  linarith

/-- A smoothed value is on the grid. -/
theorem onGrid_step : OnGrid S.digits (S.step old new) :=
  S.rounding.onGrid_digits _ _

/-- **A grid point below both stays below.** -/
theorem le_step (hlo : OnGrid S.digits lo) (hold : lo ≤ old) (hnew : lo ≤ new) :
    lo ≤ S.step old new := by
  have := S.rounding.digits_mono S.digits (le_mean (S := S) hold hnew)
  rwa [S.rounding.digits_of_onGrid hlo] at this

/-- **A grid point above both stays above.** -/
theorem step_le (hhi : OnGrid S.digits hi) (hold : old ≤ hi) (hnew : new ≤ hi) :
    S.step old new ≤ hi := by
  have := S.rounding.digits_mono S.digits (mean_le (S := S) hold hnew)
  rwa [S.rounding.digits_of_onGrid hhi] at this

/-- A value smoothed with itself stays. -/
theorem step_self (h : OnGrid S.digits new) : S.step new new = new :=
  le_antisymm (step_le h le_rfl le_rfl) (le_step h le_rfl le_rfl)

/-! ## A history of samples -/

variable (S) in
/-- The value after a history of samples; the first is smoothed with itself. -/
def after (samples : List ℚ) : Option ℚ :=
  samples.foldl (fun value sample => some (S.step (value.getD sample) sample)) none

/-- The last sample is smoothed in last. -/
theorem after_concat (samples : List ℚ) (sample : ℚ) :
    S.after (samples ++ [sample]) = some (S.step ((S.after samples).getD sample) sample) := by
  simp [after, List.foldl_append]

/-- **A smoothed value is in the hull of its samples**, however long the
history: the hull's ends are samples, so they are on the grid. -/
theorem after_inHull {samples : List ℚ} (hgrid : ∀ q ∈ samples, OnGrid S.digits q) {v : ℚ}
    (hv : S.after samples = some v) : InHull samples v := by
  induction samples using List.reverseRecOn generalizing v with
  | nil => simp [after] at hv
  | append_singleton samples sample ih =>
    have hsample : sample ∈ samples ++ [sample] := by simp
    rw [after_concat] at hv
    obtain rfl := Option.some.inj hv
    cases hold : S.after samples with
    | none =>
      -- The first sample is its own hull.
      rw [Option.getD_none, step_self (hgrid sample hsample)]
      exact ⟨⟨sample, hsample, le_rfl⟩, ⟨sample, hsample, le_rfl⟩⟩
    | some old =>
      have hmem : ∀ q ∈ samples, q ∈ samples ++ [sample] :=
        fun q hq => List.mem_append_left _ hq
      obtain ⟨⟨lo, hlo, hlow⟩, ⟨hi, hhi, hhigh⟩⟩ := ih (fun q hq => hgrid q (hmem q hq)) hold
      rw [Option.getD_some]
      constructor
      · rcases le_total lo sample with hle | hle
        · exact ⟨lo, hmem lo hlo, le_step (hgrid lo (hmem lo hlo)) hlow hle⟩
        · exact ⟨sample, hsample, le_step (hgrid sample hsample) (hle.trans hlow) le_rfl⟩
      · rcases le_total sample hi with hle | hle
        · exact ⟨hi, hmem hi hhi, step_le (hgrid hi (hmem hi hhi)) hhigh hle⟩
        · exact ⟨sample, hsample, step_le (hgrid sample hsample) (hhigh.trans hle) le_rfl⟩

/-! ## A constant sample -/

variable {target start : ℚ}

/-- Smoothing stays on the grid. -/
theorem onGrid_iterate (hstart : OnGrid S.digits start) (n : ℕ) :
    OnGrid S.digits ((S.step · target)^[n] start) := by
  cases n with
  | zero => exact hstart
  | succ n =>
    rw [Function.iterate_succ_apply']
    exact onGrid_step

/-- **It approaches a target on the grid.** -/
theorem approaches (htarget : OnGrid S.digits target) (hstart : OnGrid S.digits start) :
    Approaches target fun n => (S.step · target)^[n] start := by
  rcases le_total start target with hle | hge
  · have hbelow : ∀ n, (S.step · target)^[n] start ≤ target := by
      intro n
      induction n with
      | zero => exact hle
      | succ n ih =>
        rw [Function.iterate_succ_apply']
        exact step_le htarget ih le_rfl
    left
    intro n
    refine ⟨?_, hbelow (n + 1)⟩
    show _ ≤ (S.step · target)^[n + 1] start
    rw [Function.iterate_succ_apply']
    exact le_step (onGrid_iterate hstart n) le_rfl (hbelow n)
  · have habove : ∀ n, target ≤ (S.step · target)^[n] start := by
      intro n
      induction n with
      | zero => exact hge
      | succ n ih =>
        rw [Function.iterate_succ_apply']
        exact le_step htarget ih le_rfl
    right
    intro n
    refine ⟨?_, habove (n + 1)⟩
    show (S.step · target)^[n + 1] start ≤ _
    rw [Function.iterate_succ_apply']
    exact step_le (onGrid_iterate hstart n) le_rfl (habove n)

/-- The distance in grid steps falls until the value stays where it is. -/
theorem settles (htarget : OnGrid S.digits target) (hstart : OnGrid S.digits start) :
    ∃ N, S.step ((S.step · target)^[N] start) target = (S.step · target)^[N] start := by
  obtain ⟨t, ht⟩ := htarget
  have htarget : OnGrid S.digits target := ⟨t, ht⟩
  have hscale : (0 : ℚ) < 10 ^ S.digits := by positivity
  -- Grid points compare as their numerators do.
  have hle : ∀ z w : ℤ, (z : ℚ) / 10 ^ S.digits ≤ w / 10 ^ S.digits ↔ z ≤ w := by
    intro z w
    rw [div_le_div_iff_of_pos_right hscale]
    exact_mod_cast Iff.rfl
  have hnum : ∀ z : ℤ, ⌊(z : ℚ) / 10 ^ S.digits * 10 ^ S.digits⌋ = z := by
    intro z
    rw [div_mul_cancel₀ _ hscale.ne', Int.floor_intCast]
  refine exists_iterate_fixed (f := (S.step · target)) (P := OnGrid S.digits)
    (d := fun q => (⌊q * 10 ^ S.digits⌋ - t).natAbs) (fun _ _ => onGrid_step) ?_ hstart
  intro q hq
  obtain ⟨z, hz⟩ := hq
  have hgrid : OnGrid S.digits q := ⟨z, hz⟩
  obtain ⟨w, hw⟩ : OnGrid S.digits (S.step q target) := onGrid_step
  by_cases hsame : w = z
  · left
    show S.step q target = q
    rw [hw, hz, hsame]
  · right
    show (⌊S.step q target * 10 ^ S.digits⌋ - t).natAbs < (⌊q * 10 ^ S.digits⌋ - t).natAbs
    rcases le_total q target with hqt | htq
    · have h1 := le_step (S := S) hgrid le_rfl hqt
      have h2 := step_le (S := S) htarget hqt le_rfl
      rw [hw, hz, hle] at h1
      rw [hw, ht, hle] at h2
      rw [hw, hz, hnum, hnum]
      omega
    · have h1 := step_le (S := S) hgrid le_rfl htq
      have h2 := le_step (S := S) htarget htq le_rfl
      rw [hw, hz, hle] at h1
      rw [hw, ht, hle] at h2
      rw [hw, hz, hnum, hnum]
      omega

end Smoother

/-! ## Bounds carried back -/

/-- Where each step has its largest argument below a bound, so does the fold:
carry the bound back through the samples. -/
theorem foldl_le_iff_le_foldr {α β : Type*} [Preorder α] {step : α → β → α} {back : β → α → α}
    {P : α → Prop} {samples : List β}
    (hP : ∀ sample ∈ samples, ∀ value, P value → P (step value sample))
    (hback : ∀ sample ∈ samples, ∀ value, P value → ∀ bound,
      step value sample ≤ bound ↔ value ≤ back sample bound) {start : α} (hstart : P start)
    (bound : α) : samples.foldl step start ≤ bound ↔ start ≤ samples.foldr back bound := by
  induction samples generalizing start with
  | nil => exact Iff.rfl
  | cons sample samples ih =>
    have hmem : ∀ other ∈ samples, other ∈ sample :: samples :=
      fun _ hother => List.mem_cons_of_mem _ hother
    rw [List.foldl_cons, List.foldr_cons, ih (fun other hother => hP other (hmem other hother))
      (fun other hother => hback other (hmem other hother)) (hP sample List.mem_cons_self _ hstart)]
    exact hback sample List.mem_cons_self _ hstart _

/-! ## The largest share -/

section Shares

variable {α β : Type*} [LinearOrder α] {shrink : α → α} {share : β → α}

/-- What is in the fold stays in it, shrunk. -/
theorem iterate_le_foldl (hshrink : Monotone shrink) (samples : List β) (start : α) :
    shrink^[samples.length] start
      ≤ samples.foldl (fun value sample => max (shrink value) (share sample)) start := by
  induction samples generalizing start with
  | nil => exact le_rfl
  | cons sample samples ih =>
    rw [List.length_cons, Function.iterate_succ_apply, List.foldl_cons]
    exact (hshrink.iterate _ (le_max_left _ _)).trans (ih _)

/-- No share is left larger than the value. -/
theorem remaining_le_foldl (hshrink : Monotone shrink) (share : β → α) (before after : List β)
    (sample : β) (start : α) :
    shrink^[after.length] (share sample) ≤ (before ++ sample :: after).foldl
      (fun value sample => max (shrink value) (share sample)) start := by
  rw [List.foldl_append, List.foldl_cons]
  exact (hshrink.iterate _ (le_max_right _ _)).trans (iterate_le_foldl hshrink after _)

/-- One of them is the value, once the start has vanished. -/
theorem exists_remaining {start : α} {samples : List β}
    (hstart : ∀ sample ∈ samples, shrink start ≤ share sample) (hne : samples ≠ []) :
    ∃ before sample after, samples = before ++ sample :: after
      ∧ samples.foldl (fun value sample => max (shrink value) (share sample)) start
        = shrink^[after.length] (share sample) := by
  induction samples using List.reverseRecOn with
  | nil => exact absurd rfl hne
  | append_singleton samples sample ih =>
    rw [List.foldl_append, List.foldl_cons, List.foldl_nil]
    rcases le_total (shrink (samples.foldl
      (fun value sample => max (shrink value) (share sample)) start)) (share sample) with hle | hle
    · exact ⟨samples, sample, [], rfl, max_eq_right hle⟩
    · by_cases hnil : samples = []
      · subst hnil
        exact ⟨[], sample, [], rfl, max_eq_right (hstart sample (by simp))⟩
      · obtain ⟨before, largest, after, rfl, hvalue⟩ :=
          ih (fun other hother => hstart other (List.mem_append_left _ hother)) hnil
        refine ⟨before, largest, after ++ [sample], by simp, ?_⟩
        rw [max_eq_left hle, hvalue, List.length_append, List.length_singleton,
          Function.iterate_succ_apply']

end Shares

end ControlPlane.Lib
