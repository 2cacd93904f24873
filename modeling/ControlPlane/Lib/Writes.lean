import Mathlib

/-!
# A loop of writes that may stop

A loop goes through its items, makes of each a key and what to put there, and
writes it; the first item that raises ends it, and what was written before
stays written. `writeUntil` is that loop over any store one can look up a key
in.

What the store holds under a key afterwards is said without the order of the
items: under the key of an item what that item makes, under any other key
what was there (`lookup_writeUntil_of_mem`, `lookup_writeUntil_of_notMem`). It
comes to its end where no item raises (`writeUntil_ends_iff`).
-/

namespace ControlPlane.Lib

variable {R S K V ε : Type}

/-- What is left of the items is not written behind the one that raises. -/
def writeUntil (make : R → Except ε (K × V)) (write : K → V → S → S) :
    List R → S → Option ε × S
  | [], s => (none, s)
  | item :: items, s =>
    match make item with
    | .error err => (some err, s)
    | .ok (key, value) => writeUntil make write items (write key value s)

section Loop

variable (make : R → Except ε (K × V)) (write : K → V → S → S) (items : List R)

/-- The loop comes to its end exactly if no item raises. -/
theorem writeUntil_ends_iff (s : S) :
    (writeUntil make write items s).1 = none ↔ ∀ item ∈ items, ∃ w, make item = .ok w := by
  induction items generalizing s with
  | nil => exact iff_of_true rfl nofun
  | cons item items ih =>
    unfold writeUntil
    rw [List.forall_mem_cons]
    split
    next err herr => simp [herr]
    next key value hok => simp [hok, ih]

variable {make} {write} {items}

/-- Over items none of which raises it is the plain loop. -/
theorem writeUntil_eq_foldl {written : R → K × V}
    (h : ∀ item ∈ items, make item = .ok (written item)) (s : S) :
    writeUntil make write items s
      = (none, items.foldl (fun s item => write (written item).1 (written item).2 s) s) := by
  induction items generalizing s with
  | nil => rfl
  | cons item items ih =>
    unfold writeUntil
    rw [h item List.mem_cons_self]
    exact ih (fun other hother => h other (List.mem_cons_of_mem item hother)) _

end Loop

section Lookup

variable {A : Type} {lookup : S → K → A} {write : K → V → S → S}
  (hother : ∀ key value s other, other ≠ key → lookup (write key value s) other = lookup s other)
include hother

/-- A key no item writes is left alone, wherever the loop stops. -/
theorem lookup_writeUntil_of_notMem (make : R → Except ε (K × V)) (keyOf : R → K) {items : List R}
    (hkey : ∀ item ∈ items, ∀ w, make item = .ok w → w.1 = keyOf item) {key : K}
    (h : key ∉ items.map keyOf) (s : S) :
    lookup (writeUntil make write items s).2 key = lookup s key := by
  induction items generalizing s with
  | nil => rfl
  | cons item items ih =>
    rw [List.map_cons, List.mem_cons, not_or] at h
    unfold writeUntil
    split
    next => rfl
    next k value hok =>
      obtain rfl : k = keyOf item := hkey item List.mem_cons_self _ hok
      have hrest := ih (fun other hmem => hkey other (List.mem_cons_of_mem item hmem)) h.2
        (write (keyOf item) value s)
      exact hrest.trans (hother _ value s key h.1)

/-- A key that one item writes holds what that item makes, if none raises. -/
theorem lookup_writeUntil_of_mem (make : R → Except ε (K × V)) (keyOf : R → K) (present : V → A)
    {items : List R} (hall : ∀ item ∈ items, ∃ w, make item = .ok w)
    (hkey : ∀ item ∈ items, ∀ w, make item = .ok w → w.1 = keyOf item)
    (hself : ∀ item ∈ items, ∀ w, make item = .ok w →
      ∀ s, lookup (write w.1 w.2 s) w.1 = present w.2)
    (hdistinct : (items.map keyOf).Nodup) {item : R} (hmem : item ∈ items) {w : K × V}
    (hw : make item = .ok w) (s : S) :
    lookup (writeUntil make write items s).2 (keyOf item) = present w.2 := by
  induction items generalizing s with
  | nil => exact absurd hmem List.not_mem_nil
  | cons head items ih =>
    rw [List.map_cons, List.nodup_cons] at hdistinct
    obtain ⟨⟨key, value⟩, hhead⟩ := hall head List.mem_cons_self
    have hrest : ∀ {P : R → Prop}, (∀ item ∈ head :: items, P item) → ∀ item ∈ items, P item :=
      fun h other hother => h other (List.mem_cons_of_mem head hother)
    unfold writeUntil
    rw [hhead]
    dsimp only
    rcases List.mem_cons.mp hmem with rfl | hmem
    · -- What comes later is written under other keys.
      obtain rfl := Except.ok.inj (hhead.symm.trans hw)
      have hlater := lookup_writeUntil_of_notMem hother make keyOf (hrest hkey) hdistinct.1
        (write key value s)
      have hfirst := hself item List.mem_cons_self _ hhead s
      obtain rfl : key = keyOf item := hkey item List.mem_cons_self _ hhead
      exact hlater.trans hfirst
    · exact ih (hrest hall) (hrest hkey) (hrest hself) hdistinct.2 hmem _

end Lookup

end ControlPlane.Lib
