import ControlPlane.Lib.StableSort

/-!
# Dictionaries

A dictionary keeps its items in the order in which their keys were first
set. What a reader by key sees is `get?`; two dictionaries that agree on it
have the same items in some order (`items_perm`).

Sorting the items compares pairs: the keys, and the values where two keys
are equal. A comparison of values may raise. As a dictionary has a key once,
it never comes to that (`sortItems_eq`), and the sorted items depend on
`get?` alone (`sorted_eq`).
-/

namespace ControlPlane.Lib

/-- A dictionary: its items in the order of insertion. -/
structure Dict (K V : Type) where
  items : List (K × V)
  nodup : (items.map Prod.fst).Nodup

namespace Dict

variable {K V W : Type}

/-- The empty dictionary. -/
def empty : Dict K V :=
  ⟨[], List.nodup_nil⟩

/-- The values, in that order. -/
def values (d : Dict K V) : List V :=
  d.items.map Prod.snd

/-- The same keys over changed values. -/
def mapValues (f : V → W) (d : Dict K V) : Dict K W :=
  ⟨d.items.map fun item => (item.1, f item.2), by
    rw [List.map_map]
    exact d.nodup⟩

section Lookup

variable [DecidableEq K]

/-- What stands under a key. -/
def get? (d : Dict K V) (key : K) : Option V :=
  d.items.lookup key

/-- The items with `value` under `key`, in place of the old one or at the
end. -/
def setItems (items : List (K × V)) (key : K) (value : V) : List (K × V) :=
  match items with
  | [] => [(key, value)]
  | item :: rest =>
    if item.1 = key then (key, value) :: rest else item :: setItems rest key value

/-- Setting adds its key at most. -/
theorem mem_keys_setItems {items : List (K × V)} {key k : K} {value : V} :
    k ∈ (setItems items key value).map Prod.fst ↔ k = key ∨ k ∈ items.map Prod.fst := by
  induction items with
  | nil => simp [setItems]
  | cons item rest ih =>
    unfold setItems
    split
    next heq =>
      subst heq
      simp
    next =>
      rw [List.map_cons, List.mem_cons, ih, List.map_cons, List.mem_cons]
      tauto

/-- Setting keeps the keys apart. -/
theorem nodup_setItems {items : List (K × V)} (h : (items.map Prod.fst).Nodup) (key : K)
    (value : V) : ((setItems items key value).map Prod.fst).Nodup := by
  induction items with
  | nil => simp [setItems]
  | cons item rest ih =>
    rw [List.map_cons, List.nodup_cons] at h
    unfold setItems
    split
    next heq =>
      subst heq
      simpa using h
    next hne =>
      rw [List.map_cons, List.nodup_cons, mem_keys_setItems]
      refine ⟨?_, ih h.2⟩
      intro hmem
      rcases hmem with heq | hrest
      · exact hne heq
      · exact h.1 hrest

/-- `d[key] = value`. -/
def set (d : Dict K V) (key : K) (value : V) : Dict K V :=
  ⟨setItems d.items key value, nodup_setItems d.nodup key value⟩

/-- `d[key] = f(d[key])` on a dictionary whose missing values are `default`. -/
def modify (d : Dict K V) (default : V) (key : K) (f : V → V) : Dict K V :=
  d.set key (f ((d.get? key).getD default))

/-- `dict(pairs)`: a repeated key keeps its first place and its last value. -/
def ofPairs (pairs : List (K × V)) : Dict K V :=
  pairs.foldl (fun d pair => d.set pair.1 pair.2) empty

/-- Nothing stands in the empty dictionary. -/
@[simp]
theorem get?_empty (key : K) : (empty : Dict K V).get? key = none := rfl

/-- What was set is read back. -/
@[simp]
theorem get?_set_self (d : Dict K V) (key : K) (value : V) :
    (d.set key value).get? key = some value := by
  unfold get? set
  dsimp only
  induction d.items with
  | nil => simp [setItems]
  | cons item rest ih =>
    unfold setItems
    split
    next => simp
    next hne =>
      rw [List.lookup_cons, beq_false_of_ne (Ne.symm hne)]
      exact ih

/-- The other keys keep their values. -/
theorem get?_set_of_ne (d : Dict K V) {key k : K} (hne : k ≠ key) (value : V) :
    (d.set key value).get? k = d.get? k := by
  unfold get? set
  dsimp only
  induction d.items with
  | nil => simp [setItems, List.lookup_cons, beq_false_of_ne hne]
  | cons item rest ih =>
    unfold setItems
    split
    next heq =>
      subst heq
      rw [List.lookup_cons, List.lookup_cons, beq_false_of_ne hne]
    next =>
      rw [List.lookup_cons, List.lookup_cons, ih]

/-- A change is read back from the value or its default. -/
@[simp]
theorem get?_modify_self (d : Dict K V) (default : V) (key : K) (f : V → V) :
    (d.modify default key f).get? key = some (f ((d.get? key).getD default)) :=
  d.get?_set_self key _

/-- The other keys are left alone. -/
theorem get?_modify_of_ne (d : Dict K V) (default : V) {key k : K} (hne : k ≠ key) (f : V → V) :
    (d.modify default key f).get? k = d.get? k :=
  d.get?_set_of_ne hne _

/-! ## Items -/

/-- The items are the keys with what stands under them. -/
theorem mem_items {d : Dict K V} {key : K} {value : V} :
    (key, value) ∈ d.items ↔ d.get? key = some value := by
  obtain ⟨items, hnodup⟩ := d
  show _ ↔ items.lookup key = some value
  induction items with
  | nil => simp
  | cons item rest ih =>
    obtain ⟨k, v⟩ := item
    rw [List.map_cons, List.nodup_cons] at hnodup
    rw [List.mem_cons, List.lookup_cons, Prod.mk.injEq]
    by_cases heq : key = k
    · subst heq
      have hnot : (key, value) ∉ rest := by
        intro hmem
        exact hnodup.1 (List.mem_map.mpr ⟨_, hmem, rfl⟩)
      simp only [beq_self_eq_true, true_and, Option.some.injEq]
      exact ⟨fun h => (h.resolve_right hnot).symm, fun h => .inl h.symm⟩
    · rw [beq_false_of_ne heq, ← ih hnodup.2]
      simp [heq]

/-- Dictionaries that read alike have the same items, in some order. -/
theorem items_perm {d d' : Dict K V} (h : ∀ key, d.get? key = d'.get? key) :
    d.items.Perm d'.items := by
  rw [List.perm_ext_iff_of_nodup (List.Nodup.of_map _ d.nodup) (List.Nodup.of_map _ d'.nodup)]
  intro item
  obtain ⟨key, value⟩ := item
  rw [mem_items, mem_items, h]

/-- After a setting there is an item. -/
theorem setItems_ne_nil (items : List (K × V)) (key : K) (value : V) :
    setItems items key value ≠ [] := by
  cases items with
  | nil => exact List.cons_ne_nil _ _
  | cons item rest =>
    unfold setItems
    split
    · exact List.cons_ne_nil _ _
    · exact List.cons_ne_nil _ _

/-- And after a change. -/
theorem modify_ne_nil (d : Dict K V) (default : V) (key : K) (f : V → V) :
    (d.modify default key f).items ≠ [] :=
  setItems_ne_nil _ _ _

/-- Changed values are read under the same keys. -/
@[simp]
theorem get?_mapValues (f : V → W) (d : Dict K V) (key : K) :
    (d.mapValues f).get? key = (d.get? key).map f := by
  unfold get? mapValues
  dsimp only
  induction d.items with
  | nil => rfl
  | cons item rest ih =>
    rw [List.map_cons, List.lookup_cons, List.lookup_cons]
    cases key == item.1 with
    | true => rfl
    | false => exact ih

end Lookup

/-! ## Sorting -/

section Sorting

variable {ε : Type} [LinearOrder K]

/-- `sorted(d.items())`, as no two keys are equal. -/
def sorted (d : Dict K V) : List (K × V) :=
  sortBy Prod.fst d.items

/-- Sorting keeps the keys apart. -/
theorem nodup_sorted (d : Dict K V) : (d.sorted.map Prod.fst).Nodup :=
  ((sortBy_perm Prod.fst d.items).map Prod.fst).nodup_iff.mpr d.nodup

/-- It puts them in order. -/
theorem pairwise_sorted (d : Dict K V) : d.sorted.Pairwise fun a b => a.1 < b.1 := by
  have hle := pairwise_sortBy Prod.fst d.items
  have hne := List.pairwise_map.mp (nodup_sorted d)
  exact (hle.and hne).imp fun h => lt_of_le_of_ne h.1 h.2

/-- It commutes with changing the values. -/
theorem sorted_mapValues (f : V → W) (d : Dict K V) :
    (d.mapValues f).sorted = d.sorted.map fun item => (item.1, f item.2) :=
  sortBy_map Prod.fst (fun item : K × V => (item.1, f item.2)) d.items

variable [DecidableEq K]

/-- The sorted items are the items. -/
theorem mem_sorted {d : Dict K V} {key : K} {value : V} :
    (key, value) ∈ d.sorted ↔ d.get? key = some value := by
  unfold sorted
  rw [mem_sortBy, mem_items]

/-- Dictionaries that read alike are sorted alike. -/
theorem sorted_eq {d d' : Dict K V} (h : ∀ key, d.get? key = d'.get? key) :
    d.sorted = d'.sorted :=
  sortBy_perm_eq Prod.fst (items_perm h) d.nodup

/-! ### With a comparison that may raise -/

/-- `<` on pairs. -/
def pairLt (ltValue : V → V → Except ε Bool) (a b : K × V) : Except ε Bool :=
  if a.1 = b.1 then ltValue a.2 b.2 else .ok (decide (a.1 < b.1))

/-- Insertion by a sort that compares the values of equal keys. -/
def insertItem (ltValue : V → V → Except ε Bool) (item : K × V) :
    List (K × V) → Except ε (List (K × V))
  | [] => .ok [item]
  | other :: rest => do
    if ← pairLt ltValue other item then
      let sorted ← insertItem ltValue item rest
      return other :: sorted
    else return item :: other :: rest

/-- `sorted(items)`. -/
def sortItems (ltValue : V → V → Except ε Bool) :
    List (K × V) → Except ε (List (K × V))
  | [] => .ok []
  | item :: rest => do
    let sorted ← sortItems ltValue rest
    insertItem ltValue item sorted

/-- With a new key no values are compared. -/
theorem insertItem_eq (ltValue : V → V → Except ε Bool) {item : K × V} {items : List (K × V)}
    (h : item.1 ∉ items.map Prod.fst) :
    insertItem ltValue item items
      = .ok (items.orderedInsert (fun a b => a.1 ≤ b.1) item) := by
  induction items with
  | nil => rfl
  | cons other rest ih =>
    rw [List.map_cons, List.mem_cons, not_or] at h
    have hlt : pairLt ltValue other item = .ok (decide (other.1 < item.1)) :=
      if_neg (Ne.symm h.1)
    unfold insertItem
    rw [hlt, List.orderedInsert_cons]
    by_cases hle : item.1 ≤ other.1
    · rw [if_pos hle]
      simp [bind, Except.bind, pure, Except.pure, hle]
    · rw [if_neg hle, ih h.2]
      simp [bind, Except.bind, pure, Except.pure, lt_of_not_ge hle]

/-- **No two values are ever compared**, so nothing is raised. -/
theorem sortItems_eq (ltValue : V → V → Except ε Bool) {items : List (K × V)}
    (h : (items.map Prod.fst).Nodup) : sortItems ltValue items = .ok (sortBy Prod.fst items) := by
  induction items with
  | nil => rfl
  | cons item rest ih =>
    rw [List.map_cons, List.nodup_cons] at h
    have hnot : item.1 ∉ (sortBy Prod.fst rest).map Prod.fst := by
      rw [((sortBy_perm Prod.fst rest).map Prod.fst).mem_iff]
      exact h.1
    unfold sortItems
    rw [ih h.2]
    exact insertItem_eq ltValue hnot

end Sorting

end Dict

end ControlPlane.Lib
