import Mathlib

/-!
# Computations that can raise

In a total language a quotient by zero has a value and a record takes any
field. A program's do not: the first raises, and so does a record whose
field is outside the bounds its schema declares. `Checked` computations
raise in both places, next to the program's own exceptions, so that "no
error but this one" is a statement about them.

`divide_eq` and `validate_eq` are the two verification conditions; a
computation whose conditions all hold is the total one (`foldlM_eq` carries
that through a loop). Where they may fail, `RaisesAs` says of which class the
exception is.
-/

namespace ControlPlane.Lib

/-- What a checked computation raises; `raised` holds the program's own
exceptions. -/
inductive Raised (ε : Type)
  | zeroDivision
  | outOfBounds (schema : String) (fields : List String)
  | raised (e : ε)
deriving DecidableEq

/-- A computation that may raise. -/
abbrev Checked (ε α : Type) := Except (Raised ε) α

variable {ε α β : Type}

/-- A returned value is passed on. -/
@[simp]
theorem ok_bind (a : α) (f : α → Except ε β) : ((.ok a : Except ε α) >>= f) = f a := rfl

/-- Returning it raises nothing. -/
@[simp]
theorem pure_eq_ok (a : α) : (pure a : Except ε α) = .ok a := rfl

/-- Renaming the errors leaves a value alone. -/
@[simp]
theorem mapError_ok {δ : Type} (g : δ → ε) (a : α) :
    (.ok a : Except δ α).mapError g = .ok a := rfl

/-- What a sequence of two returned. -/
theorem bind_eq_ok {x : Except ε α} {f : α → Except ε β} {b : β} :
    (x >>= f) = .ok b ↔ ∃ a, x = .ok a ∧ f a = .ok b := by
  cases x with
  | error err => simp [bind, Except.bind]
  | ok a => simp [bind, Except.bind]

/-! ## Division -/

/-- A division, which raises for zero. -/
def divide (a b : ℚ) : Checked ε ℚ :=
  if b = 0 then .error .zeroDivision else .ok (a / b)

/-- It does not otherwise. -/
theorem divide_eq {b : ℚ} (h : b ≠ 0) (a : ℚ) : (divide a b : Checked ε ℚ) = .ok (a / b) :=
  if_neg h

/-! ## Records with bounds -/

/-- A field of a schema with its `ge` and `le`; `read` is `none` where an
optional field is absent, and an absent value meets every bound. -/
structure BoundedField (α : Type) where
  name : String
  read : α → Option ℚ
  ge : Option ℚ := none
  le : Option ℚ := none

namespace BoundedField

/-- Whether a field of the value is within its bounds. -/
def within (field : BoundedField α) (x : α) : Bool :=
  (field.read x).all fun value =>
    field.ge.all (fun lo => decide (lo ≤ value)) && field.le.all fun hi => decide (value ≤ hi)

/-- A field in `[0, 1]`. -/
def unit (name : String) (read : α → ℚ) : BoundedField α :=
  { name, read := fun x => some (read x), ge := some 0, le := some 1 }

/-- A field bounded below only. -/
def atLeast (lo : ℚ) (name : String) (read : α → ℚ) : BoundedField α :=
  { name, read := fun x => some (read x), ge := some lo }

/-- An optional field bounded below only. -/
def optAtLeast (lo : ℚ) (name : String) (read : α → Option ℚ) : BoundedField α :=
  { name, read, ge := some lo }

/-- The bounds of a share. -/
@[simp]
theorem within_unit (name : String) (read : α → ℚ) (x : α) :
    (unit name read).within x = true ↔ 0 ≤ read x ∧ read x ≤ 1 := by
  simp [within, unit]

/-- A lower bound alone. -/
@[simp]
theorem within_atLeast (lo : ℚ) (name : String) (read : α → ℚ) (x : α) :
    (atLeast lo name read).within x = true ↔ lo ≤ read x := by
  simp [within, atLeast]

/-- A lower bound on an optional field. -/
@[simp]
theorem within_optAtLeast (lo : ℚ) (name : String) (read : α → Option ℚ) (x : α) :
    (optAtLeast lo name read).within x = true ↔ ∀ value, read x = some value → lo ≤ value := by
  cases h : read x <;> simp [within, optAtLeast, h]

end BoundedField

/-- Every field is inside its bounds. -/
def WithinBounds (fields : List (BoundedField α)) (x : α) : Prop :=
  ∀ field ∈ fields, field.within x = true

/-- No fields, no bounds. -/
@[simp]
theorem withinBounds_nil (x : α) : WithinBounds [] x := by
  simp [WithinBounds]

/-- One field at a time. -/
@[simp]
theorem withinBounds_cons (field : BoundedField α) (fields : List (BoundedField α)) (x : α) :
    WithinBounds (field :: fields) x ↔ field.within x = true ∧ WithinBounds fields x :=
  List.forall_mem_cons

/-- The fields that are not, by name. -/
def violations (fields : List (BoundedField α)) (x : α) : List String :=
  (fields.filter fun field => !field.within x).map (·.name)

/-- A value without violations is within its bounds. -/
theorem violations_eq_nil {fields : List (BoundedField α)} {x : α} :
    violations fields x = [] ↔ WithinBounds fields x := by
  simp [violations, WithinBounds]

/-- Building a record: it raises with every field that is out of bounds. -/
def validate (schema : String) (fields : List (BoundedField α)) (x : α) : Checked ε α :=
  if violations fields x = [] then .ok x else .error (.outOfBounds schema (violations fields x))

/-- Such a value is returned as it is. -/
theorem validate_eq {fields : List (BoundedField α)} {x : α} (h : WithinBounds fields x)
    (schema : String) : (validate schema fields x : Checked ε α) = .ok x :=
  if_pos (violations_eq_nil.mpr h)

/-- Otherwise the violations are raised. -/
theorem validate_eq_error {fields : List (BoundedField α)} {x : α} (h : ¬WithinBounds fields x)
    (schema : String) :
    (validate schema fields x : Checked ε α) = .error (.outOfBounds schema (violations fields x)) :=
  if_neg fun hnil => h (violations_eq_nil.mp hnil)

/-! ## Loops -/

/-- A loop none of whose turns raises is the fold of its turns. -/
theorem foldlM_eq {f : β → α → Except ε β} {g : β → α → β} (items : List α)
    (h : ∀ state, ∀ item ∈ items, f state item = .ok (g state item)) (state : β) :
    items.foldlM f state = .ok (items.foldl g state) := by
  induction items generalizing state with
  | nil => rfl
  | cons item items ih =>
    rw [List.foldlM_cons, h state item List.mem_cons_self, ok_bind, List.foldl_cons]
    exact ih (fun later other hother => h later other (List.mem_cons_of_mem item hother)) _

/-! ## Exceptions by class

A handler looks at the class of what it catches, not at the exception. Each
law below says which class a composed computation raises, given that of its
parts; `raisesAs_foldlM` is the one for loops. -/

variable {γ δ : Type}

/-- `x` raises an exception of class `c`. -/
def RaisesAs (kind : ε → γ) (x : Except ε α) (c : γ) : Prop :=
  ∃ e, x = .error e ∧ kind e = c

section Classes

variable {kind : ε → γ} {c : γ}

/-- A value raises nothing. -/
@[simp]
theorem raisesAs_ok (a : α) : RaisesAs kind (.ok a) c ↔ False := by
  simp [RaisesAs]

/-- An error raises its own kind. -/
@[simp]
theorem raisesAs_error (e : ε) : RaisesAs kind (.error e : Except ε α) c ↔ kind e = c := by
  simp [RaisesAs]

/-- To return is to raise of no kind. -/
theorem returns_iff (kind : ε → γ) (x : Except ε α) :
    (∃ a, x = .ok a) ↔ ∀ c, ¬RaisesAs kind x c := by
  cases x with
  | error e => simp
  | ok a => simp

/-- A sequence raises in its first part or in its second. -/
theorem raisesAs_bind (x : Except ε α) (f : α → Except ε β) :
    RaisesAs kind (x >>= f) c ↔ RaisesAs kind x c ∨ ∃ a, x = .ok a ∧ RaisesAs kind (f a) c := by
  cases x with
  | error e => simp [RaisesAs, bind, Except.bind]
  | ok a => simp [RaisesAs, bind, Except.bind]

/-- A bind raises what one of its two parts does. -/
theorem RaisesAs.of_bind {x : Except ε α} {f : α → Except ε β} {P : Prop}
    (h : RaisesAs kind (x >>= f) c) (hx : RaisesAs kind x c → P)
    (hf : ∀ a, RaisesAs kind (f a) c → P) : P := by
  rcases (raisesAs_bind x f).mp h with hraises | ⟨a, -, hraises⟩
  · exact hx hraises
  · exact hf a hraises

/-- Renamed errors raise under the new kinds. -/
theorem raisesAs_mapError (g : δ → ε) (x : Except δ α) :
    RaisesAs kind (x.mapError g) c ↔ RaisesAs (fun e => kind (g e)) x c := by
  cases x with
  | error e => simp [RaisesAs, Except.mapError]
  | ok a => simp [RaisesAs, Except.mapError]

/-- A change of the value raises what it did. -/
theorem raisesAs_map (f : α → β) (x : Except ε α) :
    RaisesAs kind (x.map f) c ↔ RaisesAs kind x c := by
  cases x with
  | error e => simp [Except.map]
  | ok a => simp [Except.map]

/-- The first item that raises at all raises class `c`. -/
def FirstRaises (raises : α → γ → Prop) (items : List α) (c : γ) : Prop :=
  ∃ before item after, items = before ++ item :: after
    ∧ (∀ earlier ∈ before, ∀ k, ¬raises earlier k) ∧ raises item c

/-- Nothing raises first in an empty list. -/
theorem firstRaises_nil (raises : α → γ → Prop) : ¬FirstRaises raises [] c := by
  rintro ⟨before, item, after, hitems, -⟩
  simp at hitems

/-- The first item raises, or the rest do after it. -/
theorem firstRaises_cons (raises : α → γ → Prop) (item : α) (items : List α) :
    FirstRaises raises (item :: items) c
      ↔ raises item c ∨ (∀ k, ¬raises item k) ∧ FirstRaises raises items c := by
  constructor
  · rintro ⟨before, raiser, after, hitems, hbefore, hraises⟩
    cases before with
    | nil =>
      obtain ⟨rfl, -⟩ := List.cons.inj hitems
      exact .inl hraises
    | cons first before =>
      obtain ⟨rfl, htail⟩ := List.cons.inj hitems
      refine .inr ⟨hbefore item List.mem_cons_self, before, raiser, after, htail, ?_, hraises⟩
      exact fun earlier hmem => hbefore earlier (List.mem_cons_of_mem item hmem)
  · rintro (hraises | ⟨hclean, before, raiser, after, rfl, hbefore, hraises⟩)
    · exact ⟨[], item, items, rfl, nofun, hraises⟩
    · refine ⟨item :: before, raiser, after, rfl, ?_, hraises⟩
      intro earlier hmem
      rcases List.mem_cons.mp hmem with rfl | hmem
      · exact hclean
      · exact hbefore earlier hmem

/-- No item raises first where none raises. -/
theorem firstRaises_none (raises : α → γ → Prop) (items : List α) :
    (∀ k, ¬FirstRaises raises items k) ↔ ∀ item ∈ items, ∀ k, ¬raises item k := by
  induction items with
  | nil => simp [firstRaises_nil]
  | cons item items ih =>
    rw [List.forall_mem_cons, ← ih]
    simp only [firstRaises_cons, not_or, not_and]
    exact ⟨fun h => ⟨fun k => (h k).1, fun k => (h k).2 fun k => (h k).1⟩,
      fun h k => ⟨h.1 k, fun _ => h.2 k⟩⟩

/-- What a turn raises does not depend on the state it finds: the loop then
raises what its first raising turn does. -/
theorem raisesAs_foldlM {f : β → α → Except ε β} {raises : α → γ → Prop}
    (h : ∀ state item k, RaisesAs kind (f state item) k ↔ raises item k) (items : List α)
    (state : β) : RaisesAs kind (items.foldlM f state) c ↔ FirstRaises raises items c := by
  induction items generalizing state with
  | nil =>
    rw [List.foldlM_nil]
    exact iff_of_false (by simp [RaisesAs, pure, Except.pure]) (firstRaises_nil raises)
  | cons item items ih =>
    rw [List.foldlM_cons, raisesAs_bind, firstRaises_cons, h]
    refine or_congr_right ?_
    cases hturn : f state item with
    | error e =>
      have hraises : raises item (kind e) := (h state item _).mp ⟨e, hturn, rfl⟩
      exact iff_of_false (by simp) fun hclean => hclean.1 _ hraises
    | ok next =>
      have hclean : ∀ k, ¬raises item k := by
        intro k hk
        obtain ⟨e, herror, -⟩ := (h state item k).mpr hk
        rw [hturn] at herror
        cases herror
      simp only [Except.ok.injEq, exists_eq_left', ih, hclean, not_false_eq_true, implies_true,
        true_and]

end Classes

end ControlPlane.Lib
