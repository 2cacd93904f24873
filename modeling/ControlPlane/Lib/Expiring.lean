import Mathlib

/-!
# A map whose entries expire

Values under keys, each with an optional deadline. An entry is live strictly
before its deadline, and a read at an instant sees live entries only. A write
keeps the deadline of the live entry it replaces and gives a fresh one none;
only `expire` gives a deadline, and only to a live entry.

An entry past its deadline stays in the map until it is written over. Nothing
reads it.

`Represents` compares such a map with a function that forgets nothing: under
an encoding of its arguments, the map holds the function's values, and no
entry lapses while its argument is still asked for.
-/

namespace ControlPlane.Lib

variable {K V T : Type}

/-- A value and when it expires, if it does. -/
structure Entry (V T : Type) where
  value : V
  expireAt : Option T := none

namespace Entry

variable [LinearOrder T]

/-- Not past its deadline. -/
def Live (e : Entry V T) (now : T) : Prop :=
  ∀ deadline, e.expireAt = some deadline → now < deadline

instance decidableLive (e : Entry V T) (now : T) : Decidable (e.Live now) :=
  match h : e.expireAt with
  | none => .isTrue (by simp [Live, h])
  | some deadline => decidable_of_iff (now < deadline) (by simp [Live, h])

/-- What is live later is live now. -/
theorem Live.mono {e : Entry V T} {now now' : T} (h : e.Live now') (hle : now ≤ now') :
    e.Live now :=
  fun deadline hdeadline => lt_of_le_of_lt hle (h deadline hdeadline)

end Entry

/-- A store of such entries. -/
abbrev Expiring (K V T : Type) :=
  K → Option (Entry V T)

namespace Expiring

/-! ## Reading -/

section Read

variable [LinearOrder T] (m : Expiring K V T) (now : T) (key : K)

/-- The entry a command sees. -/
def live : Option (Entry V T) :=
  (m key).filter fun e => decide (e.Live now)

/-- The value a reader finds. -/
def get : Option V :=
  (m.live now key).map (·.value)

variable {m} {m' : Expiring K V T} {now} {key}

/-- A live entry is an entry that has not expired. -/
theorem live_eq_some {e : Entry V T} : m.live now key = some e ↔ m key = some e ∧ e.Live now := by
  unfold live
  rw [Option.filter_eq_some_iff]
  simp

/-- A read depends on the one entry only. -/
theorem live_congr (h : m key = m' key) : m.live now key = m'.live now key := by
  unfold live
  rw [h]

/-- Reading looks at one key. -/
theorem get_congr (h : m key = m' key) : m.get now key = m'.get now key := by
  unfold get
  rw [live_congr h]

/-- A live entry is read. -/
theorem get_of_live {e : Entry V T} (hentry : m key = some e) (hlive : e.Live now) :
    m.get now key = some e.value := by
  unfold get
  rw [live_eq_some.mpr ⟨hentry, hlive⟩]
  rfl

/-- An expired one is not. -/
theorem get_of_dead {e : Entry V T} (hentry : m key = some e) (hdead : ¬e.Live now) :
    m.get now key = none := by
  unfold get live
  rw [hentry, Option.filter_some, if_neg (by simpa using hdead)]
  rfl

/-- Nor is one that is missing. -/
theorem get_of_none (hentry : m key = none) : m.get now key = none := by
  unfold get live
  rw [hentry]
  rfl

end Read

/-! ## Writing -/

section Write

variable [DecidableEq K]

/-- `DEL`. -/
def del (m : Expiring K V T) (key : K) : Expiring K V T :=
  Function.update m key none

/-- The deleted key is gone. -/
theorem del_self {m : Expiring K V T} {key : K} : m.del key key = none :=
  Function.update_self _ _ _

variable [LinearOrder T] (m : Expiring K V T) (now : T) (key : K)

/-- `SET` that keeps the deadline of a live entry. -/
def set (value : V) : Expiring K V T :=
  Function.update m key (some ⟨value, (m.live now key).bind (·.expireAt)⟩)

/-- No effect on a key that is not there. -/
def expire (deadline : T) : Expiring K V T :=
  match m.live now key with
  | none => m
  | some e => Function.update m key (some { e with expireAt := some deadline })

variable {m} {now} {key} {key' : K} {value : V} {deadline : T}

/-- Setting leaves the other keys. -/
theorem set_of_ne (h : key' ≠ key) : m.set now key value key' = m key' :=
  Function.update_of_ne h _ _

/-- It keeps the deadline of its own. -/
theorem set_self :
    m.set now key value key = some ⟨value, (m.live now key).bind (·.expireAt)⟩ :=
  Function.update_self _ _ _

/-- What a write keeps is the deadline of a live entry. -/
theorem live_set_self :
    (m.set now key value).live now key
      = some ⟨value, (m.live now key).bind (·.expireAt)⟩ := by
  refine live_eq_some.mpr ⟨set_self, ?_⟩
  intro deadline hdeadline
  obtain ⟨e, hlive, hexpire⟩ := Option.bind_eq_some_iff.mp hdeadline
  exact (live_eq_some.mp hlive).2 deadline hexpire

/-- What was set is read back. -/
@[simp]
theorem get_set_self : (m.set now key value).get now key = some value := by
  unfold get
  rw [live_set_self]
  rfl

/-- A live entry gets the new deadline. -/
theorem expire_of_live {e : Entry V T} (h : m.live now key = some e) :
    m.expire now key deadline
      = Function.update m key (some { e with expireAt := some deadline }) := by
  unfold expire
  rw [h]

/-- A missing one gets none. -/
theorem expire_of_dead (h : m.live now key = none) : m.expire now key deadline = m := by
  unfold expire
  rw [h]

/-- The other keys keep theirs. -/
theorem expire_of_ne (h : key' ≠ key) : m.expire now key deadline key' = m key' := by
  cases hlive : m.live now key with
  | none => rw [expire_of_dead hlive]
  | some e =>
    rw [expire_of_live hlive]
    exact Function.update_of_ne h _ _

/-- The entry keeps its value. -/
theorem expire_self {e : Entry V T} (h : m.live now key = some e) :
    m.expire now key deadline key = some { e with expireAt := some deadline } := by
  rw [expire_of_live h]
  exact Function.update_self _ _ _

/-- A new deadline still to come hides nothing now. -/
theorem get_expire_self (h : now < deadline) :
    (m.expire now key deadline).get now key = m.get now key := by
  cases hlive : m.live now key with
  | none => rw [expire_of_dead hlive]
  | some e =>
    have hstill : ({ e with expireAt := some deadline } : Entry V T).Live now := by
      intro d hd
      obtain rfl := Option.some.inj hd
      exact h
    rw [get_of_live (expire_self hlive) hstill]
    unfold get
    rw [hlive]
    rfl

/-! ### Maps in which nothing has lapsed -/

/-- No entry is past its deadline. -/
def AllLive (m : Expiring K V T) (now : T) : Prop :=
  ∀ key e, m key = some e → e.Live now

/-- A command that writes one key has that one entry to answer for. -/
theorem AllLive.of_ne {m' : Expiring K V T} (h : m.AllLive now)
    (hself : ∀ e, m' key = some e → e.Live now) (hne : ∀ key', key' ≠ key → m' key' = m key') :
    m'.AllLive now := by
  intro key' e he
  by_cases heq : key' = key
  · subst heq
    exact hself e he
  · exact h key' e ((hne key' heq).symm.trans he)

/-- What a write keeps is the deadline of an entry that was there. -/
theorem AllLive.set {final : T} (h : m.AllLive final) : (m.set now key value).AllLive final := by
  refine h.of_ne ?_ fun _ hne => set_of_ne hne
  intro e he d hd
  obtain rfl := Option.some.inj (set_self.symm.trans he)
  obtain ⟨e, hlive, hexpire⟩ := Option.bind_eq_some_iff.mp hd
  exact h key e (live_eq_some.mp hlive).1 d hexpire

/-- Deleting leaves live what was. -/
theorem AllLive.del (h : m.AllLive now) : (m.del key).AllLive now := by
  refine h.of_ne ?_ fun _ hne => Function.update_of_ne hne _ _
  intro e he
  cases del_self.symm.trans he

/-- A deadline past the end keeps the entries live. -/
theorem AllLive.expire {final : T} (h : m.AllLive final) (hlt : final < deadline) :
    (m.expire now key deadline).AllLive final := by
  cases hlive : m.live now key with
  | none =>
    rw [expire_of_dead hlive]
    exact h
  | some e =>
    refine h.of_ne ?_ fun _ hne => expire_of_ne hne
    intro e' he' d hd
    obtain rfl := Option.some.inj ((expire_self hlive).symm.trans he')
    obtain rfl := Option.some.inj hd
    exact hlt

end Write

/-! ## Standing for a function -/

section Represents

variable {I : Type}

/-- The entry holds `value`, which a missing one does for `zero`, and any
deadline it has satisfies `lasts`. -/
def Holds (entry : Option (Entry V T)) (zero value : V) (lasts : T → Prop) : Prop :=
  match entry with
  | none => value = zero
  | some e => e.value = value ∧ ∀ deadline, e.expireAt = some deadline → lasts deadline

/-- A reader finds the value while its entry lasts. -/
theorem Holds.get [LinearOrder T] {m : Expiring K V T} {key : K} {zero value : V}
    {lasts : T → Prop} (h : Holds (m key) zero value lasts) {now : T}
    (hlive : ∀ e, m key = some e → (∀ d, e.expireAt = some d → lasts d) → e.Live now) :
    (m.get now key).getD zero = value := by
  cases hentry : m key with
  | none =>
    rw [hentry] at h
    rw [get_of_none hentry]
    exact h.symm
  | some e =>
    rw [hentry] at h
    rw [get_of_live hentry (hlive e hentry h.2)]
    exact h.1

/-- Under `encode`, on the arguments in `P`, the map holds the values of `f`. -/
def Represents (encode : I → K) (P : I → Prop) (zero : V) (lasts : I → T → Prop)
    (m : Expiring K V T) (f : I → V) : Prop :=
  ∀ i, P i → Holds (m (encode i)) zero (f i) (lasts i)

variable {encode : I → K} {P : I → Prop} {zero : V} {lasts : I → T → Prop}
  {m : Expiring K V T} {f : I → V}

/-- The empty store represents the zeros. -/
theorem Represents.empty : Represents encode P zero lasts (fun _ => none : Expiring K V T)
    fun _ => zero :=
  fun _ _ => rfl

/-- Writing one argument's value on both sides. -/
theorem Represents.update [DecidableEq K] [DecidableEq I] (h : Represents encode P zero lasts m f)
    (hinj : ∀ i j, P i → P j → encode i = encode j → i = j) {i : I} (hi : P i)
    {entry : Option (Entry V T)} {value : V} (hentry : Holds entry zero value (lasts i)) :
    Represents encode P zero lasts (Function.update m (encode i) entry)
      (Function.update f i value) := by
  intro j hj
  by_cases heq : j = i
  · subst heq
    rw [Function.update_self, Function.update_self]
    exact hentry
  · have hne : encode j ≠ encode i := fun hcode => heq (hinj j i hj hi hcode)
    rw [Function.update_of_ne hne, Function.update_of_ne heq]
    exact h j hj

end Represents

end Expiring

end ControlPlane.Lib
