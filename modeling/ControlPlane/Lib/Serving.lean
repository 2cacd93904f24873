import Mathlib

/-!
# Calls served one after another

A server takes a state and a call to the next state and a reply. Three rules
about whole sequences of calls, each from what one call does:

* `serveAll_induction`: what every call keeps, the sequence keeps;
* `replies_eq`: two servers kept in step by a relation give the same replies;
* `replies_filter`: when the calls left out change nothing the watched calls
  can see, the watched calls get the replies they get without them.
-/

namespace ControlPlane.Lib

variable {S S' C R : Type}

/-- The state once all calls are served. -/
def serveAll (serve : S → C → S × R) (s : S) (calls : List C) : S :=
  calls.foldl (fun s call => (serve s call).1) s

/-- Each call with its reply, in order. -/
def replies (serve : S → C → S × R) : S → List C → List (C × R)
  | _, [] => []
  | s, call :: calls => (call, (serve s call).2) :: replies serve (serve s call).1 calls

/-- No calls change nothing. -/
@[simp]
theorem serveAll_nil (serve : S → C → S × R) (s : S) : serveAll serve s [] = s := rfl

/-- The first call is served first. -/
@[simp]
theorem serveAll_cons (serve : S → C → S × R) (s : S) (call : C) (calls : List C) :
    serveAll serve s (call :: calls) = serveAll serve (serve s call).1 calls := rfl

/-- The last one last. -/
@[simp]
theorem serveAll_concat (serve : S → C → S × R) (s : S) (calls : List C) (call : C) :
    serveAll serve s (calls ++ [call]) = (serve (serveAll serve s calls) call).1 := by
  simp [serveAll]

/-- Calls served in two parts. -/
theorem serveAll_append (serve : S → C → S × R) (s : S) (calls later : List C) :
    serveAll serve s (calls ++ later) = serveAll serve (serveAll serve s calls) later :=
  List.foldl_append

/-- A server without a state answers each call by itself. -/
theorem replies_stateless (answer : C → R) (calls : List C) :
    replies (fun (_ : Unit) call => ((), answer call)) () calls
      = calls.map fun call => (call, answer call) := by
  induction calls with
  | nil => rfl
  | cons call calls ih => rw [replies, ih, List.map_cons]

/-- **The invariant rule.** What every call served keeps holds at the end. -/
theorem serveAll_induction {serve : S → C → S × R} (P : S → Prop) {calls : List C}
    (hcall : ∀ s, ∀ call ∈ calls, P s → P (serve s call).1) {s : S} (h : P s) :
    P (serveAll serve s calls) := by
  induction calls generalizing s with
  | nil => exact h
  | cons call calls ih =>
    exact ih (fun s later hlater => hcall s later (List.mem_cons_of_mem call hlater))
      (hcall s call List.mem_cons_self h)

/-- **The simulation rule.** `I` relates the two states and the calls to
come; where it holds the next call gets one reply from both, and it holds
again after. -/
theorem replies_eq {serve : S → C → S × R} {serve' : S' → C → S' × R}
    {I : S → S' → List C → Prop}
    (hcall : ∀ s s' call calls, I s s' (call :: calls) →
      (serve s call).2 = (serve' s' call).2 ∧ I (serve s call).1 (serve' s' call).1 calls) :
    ∀ {s s' calls}, I s s' calls → replies serve s calls = replies serve' s' calls := by
  intro s s' calls
  induction calls generalizing s s' with
  | nil =>
    intro _
    rfl
  | cons call calls ih =>
    intro hI
    obtain ⟨hreply, hnext⟩ := hcall s s' call calls hI
    rw [replies, replies, hreply, ih hnext]

/-- **The noninterference rule.** `E` is what a watched call can see of two
states: a call left out keeps it, a call kept keeps it on both sides and, if
watched, gets one reply. -/
theorem replies_filter {serve : S → C → S × R} (keep watch : C → Bool) (E : S → S → Prop)
    (hwatched : ∀ call, watch call = true → keep call = true)
    (hleft : ∀ s s' call, keep call = false → E s s' → E (serve s call).1 s')
    (hkept : ∀ s s' call, keep call = true → E s s' → E (serve s call).1 (serve s' call).1)
    (hreply : ∀ s s' call, watch call = true → E s s' → (serve s call).2 = (serve s' call).2) :
    ∀ {s s' calls}, E s s' →
      (replies serve s calls).filter (fun reply => watch reply.1)
        = (replies serve s' (calls.filter keep)).filter (fun reply => watch reply.1) := by
  intro s s' calls
  induction calls generalizing s s' with
  | nil =>
    intro _
    rfl
  | cons call calls ih =>
    intro hE
    cases hk : keep call with
    | false =>
      have hunwatched : watch call = false := by
        by_contra hw
        have := hwatched call (by simpa using hw)
        rw [hk] at this
        cases this
      rw [List.filter_cons_of_neg (by simp [hk]), replies,
        List.filter_cons_of_neg (by simp [hunwatched])]
      exact ih (hleft s s' call hk hE)
    | true =>
      rw [List.filter_cons_of_pos hk, replies, replies]
      have hrest := ih (hkept s s' call hk hE)
      cases hw : watch call with
      | false =>
        rw [List.filter_cons_of_neg (by simp [hw]), List.filter_cons_of_neg (by simp [hw])]
        exact hrest
      | true =>
        rw [List.filter_cons_of_pos (by simp [hw]), List.filter_cons_of_pos (by simp [hw]),
          hrest, hreply s s' call hw hE]

end ControlPlane.Lib
