import Mathlib

/-!
# A unique index under concurrent transactions

At most one row stands under a key. A row is committed, or it was inserted by
a transaction that is still open (its `writer`); a transaction sees the first
kind and its own rows. An insert under a taken key is refused when the row
there is committed or the transaction's own, and waits when another open
transaction has inserted it: what becomes of the row is not known yet.

The state seen by one transaction comes apart into what is committed and what
is its own (`visible_eq`), and each operation moves rows between the two:
`insert` adds to the writer's own, `commit` makes them the committed ones,
`rollback` drops them. Nobody else's rows change, and what is committed stays
(`Extends`).
-/

namespace ControlPlane.Lib

variable {K R X : Type}

/-- A row, and the transaction that has not yet committed it. -/
structure Slot (R X : Type) where
  row : R
  writer : Option X
deriving DecidableEq

/-- An index in which every key stands at most once. -/
abbrev UniqueIndex (K R X : Type) :=
  K → Option (Slot R X)

/-- How an insert goes. -/
inductive InsertReply (K R X : Type)
  | inserted (index : UniqueIndex K R X)
  | violates
  | waits

namespace UniqueIndex

/-! ## Reading -/

/-- The rows that are committed. -/
def committed (index : UniqueIndex K R X) (key : K) : Option R :=
  (index key).bind fun slot => if slot.writer.isNone then some slot.row else none

/-- Only committed rows, one under each key with a row. -/
def ofRows (rows : K → Option R) : UniqueIndex K R X := fun key =>
  (rows key).map fun row => ⟨row, none⟩

/-- Given rows are committed. -/
@[simp]
theorem committed_ofRows (rows : K → Option R) :
    (ofRows rows : UniqueIndex K R X).committed = rows := by
  funext key
  unfold committed ofRows
  cases rows key <;> rfl

section Writers

variable [DecidableEq X]

/-- The rows a transaction has inserted itself. -/
def own (index : UniqueIndex K R X) (x : X) (key : K) : Option R :=
  (index key).bind fun slot => if slot.writer = some x then some slot.row else none

/-- What a read in the transaction returns. -/
def visible (index : UniqueIndex K R X) (x : X) (key : K) : Option R :=
  (index key).bind fun slot =>
    if slot.writer.isNone ∨ slot.writer = some x then some slot.row else none

/-- It sees these and what is committed. -/
theorem visible_eq (index : UniqueIndex K R X) (x : X) (key : K) :
    index.visible x key = (index.committed key).or (index.own x key) := by
  unfold visible committed own
  rcases index key with _ | ⟨row, _ | y⟩
  · rfl
  · rfl
  · simp

/-- Before any insert it has none. -/
@[simp]
theorem own_ofRows (rows : K → Option R) (x : X) (key : K) :
    (ofRows rows : UniqueIndex K R X).own x key = none := by
  unfold own ofRows
  cases rows key <;> rfl

/-- A transaction that has inserted nothing. -/
def Idle (index : UniqueIndex K R X) (x : X) : Prop :=
  ∀ key, index.own x key = none

/-- Idleness is about its own rows. -/
theorem Idle.congr {index index' : UniqueIndex K R X} {x : X} (h : index.Idle x)
    (hown : index'.own x = index.own x) : index'.Idle x := by
  intro key
  rw [hown]
  exact h key

/-! ## Writing -/

/-- Every row of the transaction becomes a committed one. -/
def commit (index : UniqueIndex K R X) (x : X) : UniqueIndex K R X := fun key =>
  (index key).map fun slot => if slot.writer = some x then ⟨slot.row, none⟩ else slot

/-- A rollback takes its rows out again. -/
def rollback (index : UniqueIndex K R X) (x : X) : UniqueIndex K R X := fun key =>
  (index key).filter fun slot => slot.writer ≠ some x

/-- An insert: a taken key violates the index, or waits for its writer. -/
def insert [DecidableEq K] (index : UniqueIndex K R X) (x : X) (key : K) (row : R) :
    InsertReply K R X :=
  match index key with
  | none => .inserted (Function.update index key (some ⟨row, some x⟩))
  | some ⟨_, none⟩ => .violates
  | some ⟨_, some y⟩ => if y = x then .violates else .waits

section Insert

variable [DecidableEq K] {index index' : UniqueIndex K R X} {x : X} {key : K} {row : R}

/-- An insert that passes found the key free. -/
theorem insert_inserted (h : index.insert x key row = .inserted index') :
    index key = none ∧ index' = Function.update index key (some ⟨row, some x⟩) := by
  unfold insert at h
  split at h
  next hentry =>
    cases h
    exact ⟨hentry, rfl⟩
  next => cases h
  next => split at h <;> cases h

/-- A refused insert has the key in sight. -/
theorem insert_violates (h : index.insert x key row = .violates) :
    index.visible x key ≠ none := by
  unfold insert at h
  unfold visible
  split at h
  next => cases h
  next hentry => simp [hentry]
  next hentry =>
    split at h
    next heq => simp [hentry, heq]
    next => cases h

/-- What is waited for is another transaction's row. -/
theorem insert_waits (h : index.insert x key row = .waits) :
    ∃ y, y ≠ x ∧ index.own y key ≠ none := by
  unfold insert at h
  split at h
  next => cases h
  next => cases h
  next y hentry =>
    split at h
    next => cases h
    next hne => exact ⟨y, hne, by simp [own, hentry]⟩

/-- It commits nothing. -/
theorem committed_insert (h : index.insert x key row = .inserted index') :
    index'.committed = index.committed := by
  obtain ⟨hentry, rfl⟩ := insert_inserted h
  funext k
  unfold committed
  by_cases hk : k = key
  · subst hk
    simp [hentry]
  · rw [Function.update_of_ne hk]

/-- The row is the transaction's own. -/
theorem own_insert_self (h : index.insert x key row = .inserted index') :
    index'.own x = Function.update (index.own x) key (some row) := by
  obtain ⟨-, rfl⟩ := insert_inserted h
  funext k
  unfold own
  by_cases hk : k = key
  · subst hk
    simp
  · rw [Function.update_of_ne hk, Function.update_of_ne hk]

/-- The others keep theirs. -/
theorem own_insert_of_ne {y : X} (h : index.insert x key row = .inserted index') (hy : y ≠ x) :
    index'.own y = index.own y := by
  obtain ⟨hentry, rfl⟩ := insert_inserted h
  funext k
  unfold own
  by_cases hk : k = key
  · subst hk
    simp [hentry, hy.symm]
  · rw [Function.update_of_ne hk]

/-- It sees the row at once. -/
theorem visible_insert (h : index.insert x key row = .inserted index') :
    index'.visible x = Function.update (index.visible x) key (some row) := by
  funext k
  rw [visible_eq, committed_insert h, own_insert_self h]
  by_cases hk : k = key
  · subst hk
    have hcommitted : index.committed k = none := by
      unfold committed
      rw [(insert_inserted h).1]
      rfl
    rw [Function.update_self, Function.update_self, hcommitted, Option.none_or]
  · rw [Function.update_of_ne hk, Function.update_of_ne hk, visible_eq]

end Insert

section Ends

variable (index : UniqueIndex K R X) {x y : X} {key : K}

/-- A commit makes its rows everybody's. -/
theorem committed_commit (x : X) (key : K) :
    (index.commit x).committed key = (index.own x key).or (index.committed key) := by
  unfold commit committed own
  dsimp only
  rcases index key with _ | ⟨row, _ | y⟩
  · rfl
  · rfl
  · by_cases hy : y = x
    · simp [hy]
    · simp [hy]

/-- What the transaction saw is committed with it. -/
theorem committed_commit_ne_none (h : index.visible x key ≠ none) :
    (index.commit x).committed key ≠ none := by
  rw [visible_eq] at h
  rw [committed_commit]
  intro hnone
  obtain ⟨hown, hcommitted⟩ := Option.or_eq_none_iff.mp hnone
  exact h (Option.or_eq_none_iff.mpr ⟨hcommitted, hown⟩)

/-- Past a commit the transaction is idle. -/
theorem own_commit_self (x : X) : (index.commit x).Idle x := by
  intro key
  unfold commit own
  dsimp only
  rcases index key with _ | ⟨row, _ | y⟩
  · rfl
  · rfl
  · by_cases hy : y = x
    · simp [hy]
    · simp [hy]

/-- The others keep their rows. -/
theorem own_commit_of_ne (h : y ≠ x) : (index.commit x).own y = index.own y := by
  funext key
  unfold commit own
  dsimp only
  rcases index key with _ | ⟨row, _ | z⟩
  · rfl
  · rfl
  · by_cases hz : z = x
    · subst hz
      simp [h.symm]
    · simp [hz]

/-- A rollback commits nothing. -/
theorem committed_rollback (x : X) : (index.rollback x).committed = index.committed := by
  funext key
  unfold rollback committed
  dsimp only
  rcases index key with _ | ⟨row, _ | z⟩
  · rfl
  · rfl
  · by_cases hz : z = x
    · simp [hz, Option.filter]
    · simp [hz, Option.filter]

/-- Past it the transaction is idle. -/
theorem own_rollback_self (x : X) : (index.rollback x).Idle x := by
  intro key
  unfold rollback own
  dsimp only
  rcases index key with _ | ⟨row, _ | z⟩
  · rfl
  · rfl
  · by_cases hz : z = x
    · simp [hz, Option.filter]
    · simp [hz, Option.filter]

/-- The others keep their rows. -/
theorem own_rollback_of_ne (h : y ≠ x) : (index.rollback x).own y = index.own y := by
  funext key
  unfold rollback own
  dsimp only
  rcases index key with _ | ⟨row, _ | z⟩
  · rfl
  · rfl
  · by_cases hz : z = x
    · subst hz
      simp [h.symm, Option.filter]
    · simp [hz, Option.filter]

end Ends

end Writers

/-! ## What stays -/

/-- Every committed row is still there, as it was. -/
def Extends (index index' : UniqueIndex K R X) : Prop :=
  ∀ key row, index.committed key = some row → index'.committed key = some row

/-- Nothing committed is lost by doing nothing. -/
theorem Extends.refl (index : UniqueIndex K R X) : index.Extends index :=
  fun _ _ h => h

/-- Nor by two steps that lose nothing. -/
theorem Extends.trans {index₁ index₂ index₃ : UniqueIndex K R X} (h₁ : index₁.Extends index₂)
    (h₂ : index₂.Extends index₃) : index₁.Extends index₃ :=
  fun key row h => h₂ key row (h₁ key row h)

/-- Nor where nothing is committed. -/
theorem Extends.of_eq {index index' : UniqueIndex K R X}
    (h : index'.committed = index.committed) : index.Extends index' := by
  intro key row hrow
  rw [h]
  exact hrow

section Writers

variable [DecidableEq X] {index index' : UniqueIndex K R X} {x : X} {key : K} {row : R}

/-- A key is never both committed and somebody's own. -/
theorem own_eq_none_of_committed (h : index.committed key = some row) :
    index.own x key = none := by
  unfold committed at h
  unfold own
  rcases hentry : index key with _ | ⟨row', _ | y⟩
  · rfl
  · rfl
  · simp [hentry] at h

/-- Another transaction's row is out of sight. -/
theorem visible_eq_none_of_own {y : X} (h : index.own y key ≠ none) (hne : y ≠ x) :
    index.visible x key = none := by
  unfold own at h
  unfold visible
  rcases hentry : index key with _ | ⟨row', _ | z⟩
  · rfl
  · simp [hentry] at h
  · simp only [hentry, Option.bind_some, ne_eq, ite_eq_right_iff, reduceCtorEq, imp_false,
      not_not] at h
    obtain rfl := Option.some.inj h
    simp [hne]

/-- A commit loses nothing. -/
theorem extends_commit (index : UniqueIndex K R X) (x : X) : index.Extends (index.commit x) := by
  intro key row h
  rw [committed_commit, own_eq_none_of_committed h]
  exact h

/-- What a transaction sees it goes on seeing. -/
theorem Extends.visible (h : index.Extends index') (hown : index'.own x = index.own x)
    (hseen : index.visible x key ≠ none) : index'.visible x key ≠ none := by
  rw [visible_eq] at hseen ⊢
  cases hcommitted : index.committed key with
  | none =>
    rw [hcommitted, Option.none_or] at hseen
    rw [hown]
    simp [hseen]
  | some row =>
    rw [h key row hcommitted]
    simp

end Writers

end UniqueIndex

end ControlPlane.Lib
