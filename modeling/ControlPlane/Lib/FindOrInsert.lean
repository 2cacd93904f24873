import ControlPlane.Lib.Progress
import ControlPlane.Lib.Simulation
import ControlPlane.Lib.UniqueIndex

/-!
# Find, or insert

A transaction that looks a key up, inserts a row if it finds none, and
commits; any number of them, statement by statement, over a unique index. Two
that both find nothing race for the insert: the second waits for the first,
and is refused when the first commits.

Seen from outside each call is one step (`ensure`), the one at its commit, or
it fails without effect (`FindStep.committed_of_finished`). A call waits only
for one that has nothing left but its commit, so no two wait for each other
(`FindInv.exists_ahead`), and each has three statements at most
(`FindStep.left_lt`).
-/

namespace ControlPlane.Lib

variable {K R : Type}

/-- What comes of a statement that is sent. -/
inductive Sent
  | succeeds
  | fails
  | succeedsUnnoticed
deriving DecidableEq

/-! ## In one step -/

/-- The rows after one find-or-insert. -/
def ensure [DecidableEq K] (key : K) (row : R) (rows : K → Option R) : K → Option R :=
  if (rows key).isNone then Function.update rows key (some row) else rows

/-- A row that is found is kept. -/
theorem ensure_of_found [DecidableEq K] {key : K} {row : R} {rows : K → Option R}
    (h : rows key ≠ none) : ensure key row rows = rows :=
  if_neg (by simpa [Option.isNone_iff_eq_none] using h)

/-- A missing one is inserted. -/
theorem ensure_of_missing [DecidableEq K] {key : K} {row : R} {rows : K → Option R}
    (h : rows key = none) : ensure key row rows = Function.update rows key (some row) :=
  if_pos (by rw [h, Option.isNone_none])

/-! ## Statement by statement -/

/-- Where a find-or-insert stands. -/
inductive FindPc
  | select
  | insert (x : ℕ)
  | commit (x : ℕ)
  | returned
  | raised
deriving DecidableEq

/-- A find-or-insert of one row. -/
structure FindTask (K R : Type) where
  key : K
  row : R
  pc : FindPc

namespace FindTask

/-- The transaction a call has open. -/
def transaction (t : FindTask K R) : Option ℕ :=
  match t.pc with
  | .insert x | .commit x => some x
  | _ => none

/-- Its transaction while it inserts. -/
theorem transaction_insert {t : FindTask K R} {x : ℕ} (h : t.pc = .insert x) :
    t.transaction = some x := by
  unfold transaction
  rw [h]

/-- And while it commits. -/
theorem transaction_commit {t : FindTask K R} {x : ℕ} (h : t.pc = .commit x) :
    t.transaction = some x := by
  unfold transaction
  rw [h]

end FindTask

/-- It has ended. -/
def FindTask.Finished (t : FindTask K R) : Prop :=
  t.pc = .returned ∨ t.pc = .raised

/-- The index, and how many transactions there have been. -/
structure FindWorld (K R : Type) where
  index : UniqueIndex K R ℕ
  opened : ℕ

variable [DecidableEq K]

/-- One statement of it. -/
def FindTask.advance (sent : Sent) (w : FindWorld K R) (t : FindTask K R) :
    Option (FindWorld K R × FindTask K R) :=
  match t.pc with
  | .select =>
    if sent = .succeeds then
      some ({ w with opened := w.opened + 1 },
        { t with pc := if (w.index.committed t.key).isNone then .insert w.opened
                       else .commit w.opened })
    else some ({ w with opened := w.opened + 1 }, { t with pc := .raised })
  | .insert x =>
    if sent = .succeeds then
      match w.index.insert x t.key t.row with
      | .inserted index => some ({ w with index }, { t with pc := .commit x })
      | .violates => some ({ w with index := w.index.rollback x }, { t with pc := .raised })
      | .waits => none
    else some ({ w with index := w.index.rollback x }, { t with pc := .raised })
  | .commit x =>
    match sent with
    | .succeeds => some ({ w with index := w.index.commit x }, { t with pc := .returned })
    | .fails => some ({ w with index := w.index.rollback x }, { t with pc := .raised })
    | .succeedsUnnoticed => some ({ w with index := w.index.commit x }, { t with pc := .raised })
  | .returned => none
  | .raised => none

/-- Find-or-inserts side by side. -/
def transactions : System (FindWorld K R) (FindTask K R) Sent where
  advance := FindTask.advance

section Step

variable {sent : Sent} {w w' : FindWorld K R} {t t' : FindTask K R}

/-- What a step can do. -/
inductive FindStep (sent : Sent) (w : FindWorld K R) (t : FindTask K R) :
    FindWorld K R → FindTask K R → Prop
  | missing (hpc : t.pc = .select) (hrow : w.index.committed t.key = none) :
      FindStep sent w t { w with opened := w.opened + 1 } { t with pc := .insert w.opened }
  | found (hpc : t.pc = .select) (hrow : w.index.committed t.key ≠ none) :
      FindStep sent w t { w with opened := w.opened + 1 } { t with pc := .commit w.opened }
  | unread (hpc : t.pc = .select) :
      FindStep sent w t { w with opened := w.opened + 1 } { t with pc := .raised }
  | inserted {x index} (hpc : t.pc = .insert x)
      (hinsert : w.index.insert x t.key t.row = .inserted index) :
      FindStep sent w t { w with index } { t with pc := .commit x }
  | abandoned {x} (hx : t.transaction = some x) :
      FindStep sent w t { w with index := w.index.rollback x } { t with pc := .raised }
  | committed {x} (hpc : t.pc = .commit x) (hsent : sent = .succeeds) :
      FindStep sent w t { w with index := w.index.commit x } { t with pc := .returned }
  | unnoticed {x} (hpc : t.pc = .commit x) (hsent : sent = .succeedsUnnoticed) :
      FindStep sent w t { w with index := w.index.commit x } { t with pc := .raised }

/-- What one statement does. -/
theorem FindTask.advance_cases (h : t.advance sent w = some (w', t')) :
    FindStep sent w t w' t' := by
  unfold FindTask.advance at h
  split at h
  next hpc =>
    split at h
    next =>
      obtain ⟨rfl, rfl⟩ := Prod.mk.inj (Option.some.inj h)
      cases hrow : w.index.committed t.key with
      | none => exact .missing hpc hrow
      | some row => exact .found hpc (by simp [hrow])
    next =>
      obtain ⟨rfl, rfl⟩ := Prod.mk.inj (Option.some.inj h)
      exact .unread hpc
  next x hpc =>
    have hx := FindTask.transaction_insert hpc
    split at h
    next =>
      split at h
      next hinsert =>
        obtain ⟨rfl, rfl⟩ := Prod.mk.inj (Option.some.inj h)
        exact .inserted hpc hinsert
      next =>
        obtain ⟨rfl, rfl⟩ := Prod.mk.inj (Option.some.inj h)
        exact .abandoned hx
      next => cases h
    next =>
      obtain ⟨rfl, rfl⟩ := Prod.mk.inj (Option.some.inj h)
      exact .abandoned hx
  next x hpc =>
    have hx := FindTask.transaction_commit hpc
    cases sent with
    | succeeds =>
      obtain ⟨rfl, rfl⟩ := Prod.mk.inj (Option.some.inj h)
      exact .committed hpc rfl
    | fails =>
      obtain ⟨rfl, rfl⟩ := Prod.mk.inj (Option.some.inj h)
      exact .abandoned hx
    | succeedsUnnoticed =>
      obtain ⟨rfl, rfl⟩ := Prod.mk.inj (Option.some.inj h)
      exact .unnoticed hpc rfl
  next => cases h
  next => cases h

/-- The row it is about stays the same. -/
theorem FindStep.names (h : FindStep sent w t w' t') : t'.key = t.key ∧ t'.row = t.row := by
  cases h <;> exact ⟨rfl, rfl⟩

/-- What a step leaves alone. -/
structure FindFrame (w w' : FindWorld K R) (x : Option ℕ) : Prop where
  kept : w.index.Extends w'.index
  own : ∀ y, x ≠ some y → w'.index.own y = w.index.own y
  opened : w.opened ≤ w'.opened

/-- It touches its own transaction only. -/
theorem FindStep.frame (h : FindStep sent w t w' t') : FindFrame w w' t.transaction := by
  cases h with
  | missing | found | unread => exact ⟨.refl _, fun _ _ => rfl, Nat.le_succ _⟩
  | @inserted x index hpc hinsert =>
    refine ⟨.of_eq (UniqueIndex.committed_insert hinsert), fun y hy => ?_, le_rfl⟩
    refine UniqueIndex.own_insert_of_ne hinsert fun heq => hy ?_
    rw [heq, FindTask.transaction_insert hpc]
  | @abandoned x hx =>
    refine ⟨.of_eq (w.index.committed_rollback x), fun y hy => ?_, le_rfl⟩
    exact w.index.own_rollback_of_ne fun heq => hy (by rw [heq, hx])
  | @committed x hpc | @unnoticed x hpc =>
    refine ⟨w.index.extends_commit x, fun y hy => ?_, le_rfl⟩
    refine w.index.own_commit_of_ne fun heq => hy ?_
    rw [heq, FindTask.transaction_commit hpc]

end Step

/-! ## What holds of every call -/

/-- What holds of a call where it stands. Past its insert a transaction owns
its row, or it found one and owns nothing. -/
structure FindTask.Sound (w : FindWorld K R) (t : FindTask K R) : Prop where
  opened : ∀ x, t.transaction = some x → x < w.opened
  insert : ∀ x, t.pc = .insert x → w.index.Idle x
  commit : ∀ x, t.pc = .commit x →
    (w.index.Idle x ∧ w.index.committed t.key ≠ none)
      ∨ w.index.own x = Function.update (fun _ => none) t.key (some t.row)

/-- Transactions are apart, and those that have ended are idle. -/
structure FindInv (c : Conf (FindWorld K R) (FindTask K R)) : Prop where
  names : (c.tasks.filterMap (·.transaction)).Nodup
  tasks : ∀ t ∈ c.tasks, t.Sound c.world
  /-- Whoever has inserted has nothing left but the commit. -/
  writers : ∀ x, ¬c.world.index.Idle x → ∃ t ∈ c.tasks, t.pc = .commit x

section Inv

variable {sent : Sent} {w w' : FindWorld K R} {t t' : FindTask K R} {l r : List (FindTask K R)}

/-- A transaction that comes after the last one owns nothing. -/
theorem FindInv.idle_opened (h : FindInv ⟨w, l⟩) : w.index.Idle w.opened := by
  by_contra hne
  obtain ⟨t, ht, hpc⟩ := h.writers _ hne
  exact lt_irrefl _ ((h.tasks t ht).opened _ (FindTask.transaction_commit hpc))

/-- The others' steps leave a call's invariant alone. -/
theorem FindTask.Sound.frame {x : Option ℕ} (h : t.Sound w) (hframe : FindFrame w w' x)
    (hx : ∀ y, t.transaction = some y → x ≠ some y) : t.Sound w' := by
  refine ⟨fun y hy => (h.opened y hy).trans_le hframe.opened, fun y hy => ?_, fun y hy => ?_⟩
  · exact (h.insert y hy).congr (hframe.own y (hx y (transaction_insert hy)))
  · have hown := hframe.own y (hx y (transaction_commit hy))
    rcases h.commit y hy with ⟨hidle, hfound⟩ | hrow
    · refine .inl ⟨hidle.congr hown, ?_⟩
      obtain ⟨row, hrow⟩ := Option.ne_none_iff_exists'.mp hfound
      rw [hframe.kept _ _ hrow]
      simp
    · exact .inr (hown.trans hrow)

/-- The moving call keeps its invariant. -/
theorem FindStep.sound (h : FindStep sent w t w' t') (hsound : t.Sound w)
    (hidle : w.index.Idle w.opened) : t'.Sound w' := by
  cases h with
  | missing hpc hrow =>
    refine ⟨?_, ?_, by rintro x ⟨⟩⟩
    · rintro x ⟨⟩
      exact Nat.lt_succ_self _
    · rintro x ⟨⟩
      exact hidle
  | found hpc hrow =>
    refine ⟨?_, by rintro x ⟨⟩, ?_⟩
    · rintro x ⟨⟩
      exact Nat.lt_succ_self _
    · rintro x ⟨⟩
      exact .inl ⟨hidle, hrow⟩
  | unread | abandoned | committed | unnoticed =>
    exact ⟨by rintro x ⟨⟩, by rintro x ⟨⟩, by rintro x ⟨⟩⟩
  | @inserted x index hpc hinsert =>
    refine ⟨?_, by rintro y ⟨⟩, ?_⟩
    · rintro y ⟨⟩
      exact hsound.opened x (FindTask.transaction_insert hpc)
    · rintro y ⟨⟩
      right
      rw [UniqueIndex.own_insert_self hinsert, show w.index.own x = fun _ => none from
        funext (hsound.insert x hpc)]

/-- It keeps its transaction, ends it, or opens a new one. -/
theorem FindStep.transaction_cases (h : FindStep sent w t w' t') :
    t'.transaction = t.transaction ∨ t'.transaction = none
      ∨ t'.transaction = some w.opened := by
  cases h with
  | missing | found => exact .inr (.inr rfl)
  | unread | abandoned | committed | unnoticed => exact .inr (.inl rfl)
  | inserted hpc => exact .inl (FindTask.transaction_insert hpc).symm

/-- What a step of its call makes of a transaction's rows. -/
theorem FindStep.writes (h : FindStep sent w t w' t') {x : ℕ} (hidle : ¬w'.index.Idle x) :
    ¬w.index.Idle x ∧ t.transaction ≠ some x ∨ t'.pc = .commit x := by
  cases h with
  | missing hpc | found hpc | unread hpc =>
    refine .inl ⟨hidle, fun hx => ?_⟩
    unfold FindTask.transaction at hx
    rw [hpc] at hx
    cases hx
  | @inserted y index hpc hinsert =>
    by_cases hxy : x = y
    · exact .inr (by rw [hxy])
    · refine .inl ⟨fun hw => hidle (hw.congr ?_), fun hx => hxy ?_⟩
      · exact UniqueIndex.own_insert_of_ne hinsert hxy
      · exact (Option.some.inj ((FindTask.transaction_insert hpc).symm.trans hx)).symm
  | @abandoned y hy =>
    by_cases hxy : x = y
    · exact absurd (w.index.own_rollback_self y) (hxy ▸ hidle)
    · refine .inl ⟨fun hw => hidle (hw.congr (w.index.own_rollback_of_ne hxy)), fun hx => hxy ?_⟩
      exact (Option.some.inj (hy.symm.trans hx)).symm
  | @committed y hpc | @unnoticed y hpc =>
    by_cases hxy : x = y
    · exact absurd (w.index.own_commit_self y) (hxy ▸ hidle)
    · refine .inl ⟨fun hw => hidle (hw.congr (w.index.own_commit_of_ne hxy)), fun hx => hxy ?_⟩
      exact (Option.some.inj ((FindTask.transaction_commit hpc).symm.trans hx)).symm

/-- One more of them has no transaction yet. -/
theorem FindInv.start (h : FindInv ⟨w, l⟩) (hpc : t.pc = .select) : FindInv ⟨w, l ++ [t]⟩ := by
  have hnone : t.transaction = none := by
    unfold FindTask.transaction
    rw [hpc]
  refine ⟨?_, fun u hu => ?_, fun x hx => ?_⟩
  · rw [List.filterMap_append, List.filterMap_cons_none hnone, List.filterMap_nil, List.append_nil]
    exact h.names
  · rcases List.mem_append.mp hu with hu | hu
    · exact h.tasks u hu
    · rw [List.mem_singleton.mp hu]
      exact ⟨by simp [hnone], by simp [hpc], by simp [hpc]⟩
  · obtain ⟨u, hu, hcommit⟩ := h.writers x hx
    exact ⟨u, List.mem_append_left _ hu, hcommit⟩

/-- A statement keeps the invariant. -/
theorem FindInv.run (h : FindInv ⟨w, l ++ t :: r⟩) (hstep : FindStep sent w t w' t') :
    FindInv ⟨w', l ++ t' :: r⟩ := by
  have hothers : ∀ u, u ∈ l ∨ u ∈ r → u ∈ l ++ t :: r := by
    intro u hu
    rcases hu with hu | hu <;> simp [hu]
  refine ⟨?_, ?_, fun x hx => ?_⟩
  · refine nodup_names_step h.names ?_
    rcases hstep.transaction_cases with hsame | hnone | hnew
    · exact .inl hsame
    · exact .inr fun m hm => by simp [hnone] at hm
    · refine .inr fun m hm u hu hum => ?_
      have hlt := (h.tasks u (hothers u hu)).opened m hum
      obtain rfl := Option.some.inj (hnew.symm.trans hm)
      exact absurd hlt (lt_irrefl _)
  · refine forall_mem_split.mpr ⟨hstep.sound (h.tasks t (by simp)) h.idle_opened, fun u hu => ?_⟩
    refine (h.tasks u (hothers u hu)).frame hstep.frame fun y hy hty => ?_
    exact ne_of_nodup_names h.names hty hu hy
  · rcases hstep.writes hx with ⟨hbefore, hother⟩ | hcommit
    · obtain ⟨u, hu, hpc⟩ := h.writers x hbefore
      rcases List.mem_append.mp hu with hl | hr
      · exact ⟨u, List.mem_append_left _ hl, hpc⟩
      · rcases List.mem_cons.mp hr with rfl | hr
        · exact absurd (FindTask.transaction_commit hpc) hother
        · exact ⟨u, by simp [hr], hpc⟩
    · exact ⟨t', by simp, hcommit⟩

/-- It holds before any. -/
theorem FindInv.empty (rows : K → Option R) : FindInv ⟨⟨.ofRows rows, 0⟩, []⟩ where
  names := List.nodup_nil
  tasks := by simp
  writers x hx := absurd (fun key => UniqueIndex.own_ofRows rows x key) hx

/-- **And so of every run.** -/
theorem transactions_inv {ok : Conf (FindWorld K R) (FindTask K R) → Act (FindTask K R) Sent → Prop}
    {rows : K → Option R} {acts : List (Act (FindTask K R) Sent)}
    {c : Conf (FindWorld K R) (FindTask K R)} (hstart : ∀ c t, ok c (.start t) → t.pc = .select)
    (hrun : transactions.Run ok ⟨⟨.ofRows rows, 0⟩, []⟩ acts c) : FindInv c := by
  refine System.Run.invariant ?_ ?_ hrun (FindInv.empty rows)
  · intro w ts t hok h
    exact h.start (hstart _ _ hok)
  · intro w l t r sent w' t' _ hadv h
    exact h.run (FindTask.advance_cases hadv)

end Inv

/-! ## From outside -/

section Outside

variable {sent : Sent} {w w' : FindWorld K R} {t t' : FindTask K R}

/-- What is committed is the transaction's row, or nothing that was not there. -/
theorem FindTask.Sound.committed_commit (h : t.Sound w) {x : ℕ} (hpc : t.pc = .commit x) :
    (w.index.commit x).committed = ensure t.key t.row w.index.committed := by
  rcases h.commit x hpc with ⟨hidle, hfound⟩ | hown
  · rw [ensure_of_found hfound]
    funext key
    rw [UniqueIndex.committed_commit, hidle key, Option.none_or]
  · have hnone : w.index.committed t.key = none := by
      cases hrow : w.index.committed t.key with
      | none => rfl
      | some row =>
        have hno := UniqueIndex.own_eq_none_of_committed (x := x) hrow
        simp [hown] at hno
    rw [ensure_of_missing hnone]
    funext key
    rw [UniqueIndex.committed_commit, hown]
    by_cases hkey : key = t.key
    · subst hkey
      simp
    · rw [Function.update_of_ne hkey, Function.update_of_ne hkey, Option.none_or]

/-- Nothing is committed before the last statement. -/
theorem FindStep.committed_of_busy (h : FindStep sent w t w' t') (hbusy : ¬t'.Finished) :
    w'.index.committed = w.index.committed := by
  cases h with
  | missing | found => rfl
  | inserted hpc hinsert => exact UniqueIndex.committed_insert hinsert
  | unread | abandoned | unnoticed => exact absurd (.inr rfl) hbusy
  | committed => exact absurd (.inl rfl) hbusy

/-- What the last step of a call leaves committed. -/
theorem FindStep.committed_of_finished (h : FindStep sent w t w' t') (hsound : t.Sound w)
    (hfinished : t'.Finished) :
    (t'.pc = .returned ∧ sent = .succeeds
      ∧ w'.index.committed = ensure t.key t.row w.index.committed)
    ∨ (t'.pc = .raised ∧ w'.index.committed = w.index.committed)
    ∨ (t'.pc = .raised ∧ sent = .succeedsUnnoticed
      ∧ w'.index.committed = ensure t.key t.row w.index.committed) := by
  cases h with
  | missing | found | inserted => rcases hfinished with h | h <;> cases h
  | unread => exact .inr (.inl ⟨rfl, rfl⟩)
  | abandoned => exact .inr (.inl ⟨rfl, w.index.committed_rollback _⟩)
  | committed hpc hsent => exact .inl ⟨rfl, hsent, hsound.committed_commit hpc⟩
  | unnoticed hpc hsent => exact .inr (.inr ⟨rfl, hsent, hsound.committed_commit hpc⟩)

/-! ## Coming to an end -/

variable {c : Conf (FindWorld K R) (FindTask K R)}

/-- The statements a call has left at most. -/
def FindTask.left (t : FindTask K R) : ℕ :=
  match t.pc with
  | .select => 3
  | .insert _ => 2
  | .commit _ => 1
  | .returned => 0
  | .raised => 0

/-- Each statement brings the end nearer. -/
theorem FindStep.left_lt (h : FindStep sent w t w' t') : t'.left < t.left := by
  cases h with
  | missing hpc | found hpc | unread hpc | inserted hpc | committed hpc | unnoticed hpc =>
    simp [FindTask.left, hpc]
  | @abandoned x hx =>
    unfold FindTask.transaction at hx
    split at hx
    next hpc => simp [FindTask.left, hpc]
    next hpc => simp [FindTask.left, hpc]
    next => cases hx

/-- A commit that succeeds ends it. -/
theorem FindTask.advance_commit {x : ℕ} (hpc : t.pc = .commit x) :
    t.advance .succeeds w
      = some ({ w with index := w.index.commit x }, { t with pc := .returned }) := by
  unfold FindTask.advance
  rw [hpc]

/-- Only a row that another has inserted keeps a call waiting. -/
theorem FindTask.waits_of_stuck (hbusy : ¬t.Finished) (hstuck : t.advance .succeeds w = none) :
    ∃ x, w.index.insert x t.key t.row = .waits := by
  unfold FindTask.advance at hstuck
  cases hpc : t.pc with
  | select => simp [hpc] at hstuck
  | insert x =>
    refine ⟨x, ?_⟩
    cases hinsert : w.index.insert x t.key t.row with
    | inserted index => simp [hpc, hinsert] at hstuck
    | violates => simp [hpc, hinsert] at hstuck
    | waits => rfl
  | commit x => simp [hpc] at hstuck
  | returned => exact absurd (.inl hpc) hbusy
  | raised => exact absurd (.inr hpc) hbusy

/-- A call that waits does so for one that has nothing left but the commit. -/
theorem FindInv.exists_ahead (h : FindInv c) (hbusy : ¬t.Finished)
    (hstuck : t.advance .succeeds c.world = none) : ∃ u ∈ c.tasks, ∃ x, u.pc = .commit x := by
  obtain ⟨x, hwaits⟩ := FindTask.waits_of_stuck hbusy hstuck
  obtain ⟨y, -, hown⟩ := UniqueIndex.insert_waits hwaits
  obtain ⟨u, hu, hpc⟩ := h.writers y fun hidle => hown (hidle t.key)
  exact ⟨u, hu, y, hpc⟩

end Outside

end ControlPlane.Lib
