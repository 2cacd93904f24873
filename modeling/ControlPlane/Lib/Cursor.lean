import Mathlib

/-!
# Reading an append-only log by a cursor

Entries carry keys that increase along the log and lie above an origin; a
reader keeps one key, its cursor, and has yet to read what lies past it. Two
things happen: an entry is appended, and the reader takes the first entry of
what it was handed and moves the cursor there. The rules below say what each
does to "past the cursor" (`prefix_append`, `prefix_next`) and to "at or
below the cursor" (`not_le_cursor_append`, `le_next_iff`): a batch handed out
stays the beginning of what is unread, and moving the cursor covers the entry
taken and no other.
-/

namespace ControlPlane.Lib

/-- A log whose keys increase from `origin` (which no entry carries). -/
structure Log (K A : Type) [LinearOrder K] (origin : K) where
  entries : List (K × A)
  increasing : (origin :: entries.map Prod.fst).Pairwise (· < ·)

namespace Log

variable {K A : Type} [LinearOrder K] {origin : K} (log : Log K A origin)

/-- The log before any entry. -/
def empty : Log K A origin :=
  ⟨[], by simp⟩

/-- The greatest key so far. -/
def last : K :=
  (origin :: log.entries.map Prod.fst).getLast (List.cons_ne_nil _ _)

/-- What a reader at `cursor` has yet to read. -/
def past (cursor : K) : List (K × A) :=
  log.entries.filter fun entry => decide (cursor < entry.1)

/-- Every entry lies past the origin. -/
theorem origin_lt {entry : K × A} (h : entry ∈ log.entries) : origin < entry.1 :=
  (List.pairwise_cons.mp log.increasing).1 _ (List.mem_map_of_mem h)

/-- The entries stand in the order of their keys. -/
theorem pairwise_entries : log.entries.Pairwise fun x y => x.1 < y.1 :=
  List.pairwise_map.mp (List.pairwise_cons.mp log.increasing).2

/-- No key of the log is past the last. -/
theorem le_last {key : K} (h : key ∈ origin :: log.entries.map Prod.fst) : key ≤ log.last := by
  have hsorted := log.increasing
  rw [← List.dropLast_append_getLast (List.cons_ne_nil origin (log.entries.map Prod.fst))]
    at hsorted h
  rcases List.mem_append.mp h with hinit | hlast
  · exact ((List.pairwise_append.mp hsorted).2.2 key hinit _ (List.mem_singleton_self _)).le
  · exact (List.mem_singleton.mp hlast).le

/-- Nor is that of an entry. -/
theorem entry_le_last {entry : K × A} (h : entry ∈ log.entries) : entry.1 ≤ log.last :=
  log.le_last (List.mem_cons_of_mem origin (List.mem_map_of_mem h))

/-- Appending under a key beyond all there are. -/
def append (entry : K × A) (h : log.last < entry.1) : Log K A origin where
  entries := log.entries ++ [entry]
  increasing := by
    rw [List.map_append, ← List.cons_append]
    refine List.pairwise_append.mpr ⟨log.increasing, List.pairwise_singleton _ _, ?_⟩
    intro key hkey key' hkey'
    rw [List.map_singleton, List.mem_singleton] at hkey'
    rw [hkey']
    exact (log.le_last hkey).trans_lt h

/-- An entry is appended at the end. -/
@[simp]
theorem entries_append (entry : K × A) (h : log.last < entry.1) :
    (log.append entry h).entries = log.entries ++ [entry] := rfl

/-- It becomes the last. -/
@[simp]
theorem last_append (entry : K × A) (h : log.last < entry.1) :
    (log.append entry h).last = entry.1 := by
  simp [last]

variable {log}

/-- What lies past a cursor. -/
theorem mem_past {cursor : K} {entry : K × A} :
    entry ∈ log.past cursor ↔ entry ∈ log.entries ∧ cursor < entry.1 := by
  simp [past]

/-- In the order of the log. -/
theorem pairwise_past (cursor : K) : (log.past cursor).Pairwise fun x y => x.1 < y.1 :=
  log.pairwise_entries.filter _

/-- The next entry is past the cursor. -/
theorem lt_of_prefix {cursor : K} {entry : K × A} {rest : List (K × A)}
    (h : entry :: rest <+: log.past cursor) : cursor < entry.1 :=
  (mem_past.mp (h.subset List.mem_cons_self)).2

/-- It is an entry of the log. -/
theorem mem_of_prefix {cursor : K} {entry : K × A} {rest : List (K × A)}
    (h : entry :: rest <+: log.past cursor) : entry ∈ log.entries :=
  (mem_past.mp (h.subset List.mem_cons_self)).1

/-! ### An entry is appended -/

/-- **What was handed out stays the beginning of what is unread.** -/
theorem prefix_append {cursor : K} {batch : List (K × A)} (hbatch : batch <+: log.past cursor)
    (entry : K × A) (h : log.last < entry.1) : batch <+: (log.append entry h).past cursor := by
  refine hbatch.trans ?_
  unfold past
  rw [entries_append, List.filter_append]
  exact List.prefix_append _ _

/-- The last key only grows. -/
theorem last_le_append (entry : K × A) (h : log.last < entry.1) :
    log.last ≤ (log.append entry h).last := by
  rw [last_append]
  exact h.le

/-- A cursor inside the log does not cover what is appended. -/
theorem not_le_cursor_append {cursor : K} (hcursor : cursor ≤ log.last) {entry : K × A}
    (h : log.last < entry.1) : ¬entry.1 ≤ cursor :=
  not_le.mpr (hcursor.trans_lt h)

/-! ### The next entry is taken -/

/-- Past the entry taken is what came after it past the old cursor. -/
theorem past_eq_of_past_cons {cursor : K} {entry : K × A} {rest : List (K × A)}
    (h : log.past cursor = entry :: rest) : log.past entry.1 = rest := by
  have hsorted := log.pairwise_past cursor
  have hlt : cursor < entry.1 :=
    lt_of_prefix (show entry :: rest <+: log.past cursor from h ▸ List.prefix_refl _)
  have hfilter : log.past entry.1
      = (log.past cursor).filter fun later => decide (entry.1 < later.1) := by
    unfold past
    rw [List.filter_filter]
    refine List.filter_congr ?_
    intro later _
    by_cases hlater : entry.1 < later.1
    · simp [hlater, hlt.trans hlater]
    · simp [hlater]
  rw [h] at hsorted
  rw [hfilter, h, List.filter_cons_of_neg (by simp), List.filter_eq_self]
  intro later hlater
  exact decide_eq_true ((List.pairwise_cons.mp hsorted).1 later hlater)

/-- **The rest of a batch is the beginning of what is unread after its first
entry.** -/
theorem prefix_next {cursor : K} {entry : K × A} {rest : List (K × A)}
    (h : entry :: rest <+: log.past cursor) : rest <+: log.past entry.1 := by
  obtain ⟨tail, htail⟩ := h
  rw [past_eq_of_past_cons htail.symm]
  exact List.prefix_append rest tail

/-- **Moving the cursor to the next entry covers that entry and no other.** -/
theorem le_next_iff {cursor : K} {entry : K × A} {rest : List (K × A)}
    (h : entry :: rest <+: log.past cursor) {other : K × A} (hother : other ∈ log.entries) :
    other.1 ≤ entry.1 ↔ other.1 ≤ cursor ∨ other = entry := by
  have hlt := lt_of_prefix h
  constructor
  · intro hle
    by_cases hcursor : other.1 ≤ cursor
    · exact Or.inl hcursor
    · -- Past the old cursor the entry taken comes first.
      obtain ⟨tail, htail⟩ := h
      have hmem : other ∈ log.past cursor := mem_past.mpr ⟨hother, not_le.mp hcursor⟩
      have hsorted := log.pairwise_past cursor
      rw [← htail, List.cons_append] at hmem hsorted
      rcases List.mem_cons.mp hmem with heq | hlater
      · exact Or.inr heq
      · exact absurd hle (not_le.mpr ((List.pairwise_cons.mp hsorted).1 other hlater))
  · intro hcases
    rcases hcases with hle | heq
    · exact hle.trans hlt.le
    · exact heq ▸ le_refl _

end Log

end ControlPlane.Lib
