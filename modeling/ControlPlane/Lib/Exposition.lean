import Mathlib

/-!
# The label part of the text exposition format

A series is written as its name and, where it has labels, a list
`key="value",…` in braces. In a value a backslash, a quote and a newline are
escaped by a backslash; a value that is written raw reads back only if it has
none of the three.

`readSeries` reads a series. Blanks may stand between the tokens and a comma
after the last label. `formatSeries` writes one with its values raw.
`readSeries_format` says that plain values read back, and
`plain_of_readSeries` that no others do: a text that reads as some labels has
two quotes or backslashes for each of theirs, a raw one has one.
-/

namespace ControlPlane.Lib.Exposition

/-- A label: its name and its value. -/
abbrev Label := List Char × List Char

/-! ## Characters -/

/-- A metric's name may have colons, a label's may not. -/
def isNameStart (colon : Bool) (c : Char) : Bool :=
  c.isAlpha || c = '_' || (colon && c = ':')

/-- A character of a name, past its first. -/
def isNameChar (colon : Bool) (c : Char) : Bool :=
  c.isAlphanum || c = '_' || (colon && c = ':')

/-- Blank space inside a line. -/
def isBlank (c : Char) : Bool :=
  c = ' ' || c = '\t'

/-- What an escape is needed for, but for the newline. -/
def isSpecial (c : Char) : Bool :=
  c = '"' || c = '\\'

/-- A name the format allows. -/
def ValidName (colon : Bool) (name : List Char) : Prop :=
  name ≠ [] ∧ (∀ c ∈ name, isNameChar colon c = true)
    ∧ ∀ c ∈ name.head?, isNameStart colon c = true

instance (colon : Bool) (name : List Char) : Decidable (ValidName colon name) := by
  unfold ValidName
  infer_instance

/-- A value with nothing to escape. -/
def Plain (value : List Char) : Prop :=
  ∀ c ∈ value, isSpecial c = false ∧ c ≠ '\n'

instance (value : List Char) : Decidable (Plain value) := by
  unfold Plain
  infer_instance

/-! ## Reading -/

/-- The text past its leading blanks. -/
def skipBlanks (text : List Char) : List Char :=
  text.dropWhile isBlank

/-- The rest of a value up to its closing quote, and what follows. -/
def readValue : List Char → Option (List Char × List Char)
  | '"' :: rest => some ([], rest)
  | '\\' :: '\\' :: rest => (readValue rest).map fun read => ('\\' :: read.1, read.2)
  | '\\' :: '"' :: rest => (readValue rest).map fun read => ('"' :: read.1, read.2)
  | '\\' :: 'n' :: rest => (readValue rest).map fun read => ('\n' :: read.1, read.2)
  | '\\' :: _ => none
  | '\n' :: _ => none
  | c :: rest => (readValue rest).map fun read => (c :: read.1, read.2)
  | [] => none

/-- A token, behind blanks. -/
def expect (c : Char) (text : List Char) : Option (List Char) :=
  match skipBlanks text with
  | [] => none
  | d :: rest => if d = c then some rest else none

/-- Reads a name. -/
def readName (text : List Char) : Option (List Char × List Char) :=
  let text := skipBlanks text
  let name := text.takeWhile (isNameChar false)
  if ValidName false name then some (name, text.dropWhile (isNameChar false)) else none

/-- Reads one label. -/
def readLabel (text : List Char) : Option (Label × List Char) := do
  let (key, rest) ← readName text
  let rest ← expect '=' rest
  let rest ← expect '"' rest
  let (value, rest) ← readValue rest
  return ((key, value), rest)

/-- Labels up to the closing brace, which ends the text. -/
def readLabels : ℕ → List Char → Option (List Label)
  | 0, _ => none
  | fuel + 1, text =>
    if skipBlanks text = ['}'] then some []
    else do
      let (label, rest) ← readLabel text
      match expect ',' rest with
      | some rest => (readLabels fuel rest).map (label :: ·)
      | none => if skipBlanks rest = ['}'] then some [label] else none

/-- Reads a series: a name and its labels. -/
def readSeries (text : List Char) : Option (List Char × List Label) :=
  let name := text.takeWhile (isNameChar true)
  let rest := text.dropWhile (isNameChar true)
  if ValidName true name then
    match rest with
    | [] => some (name, [])
    | '{' :: rest => (readLabels text.length rest).map fun labels => (name, labels)
    | _ => none
  else none

/-! ## Writing, with the values raw -/

/-- Writes one label. -/
def formatLabel (label : Label) : List Char :=
  label.1 ++ '=' :: '"' :: label.2 ++ ['"']

/-- Writes the labels, in braces. -/
def formatLabels (labels : List Label) : List Char :=
  if labels = [] then [] else '{' :: (List.intercalate [','] (labels.map formatLabel) ++ ['}'])

/-- Writes a series. -/
def formatSeries (name : List Char) (labels : List Label) : List Char :=
  name ++ formatLabels labels

/-! ## Plain values read back -/

/-- No character of a name is a blank, a delimiter or one to escape. -/
theorem isNameChar_ne {colon : Bool} {c d : Char} (hc : isNameChar colon c = true)
    (hd : isNameChar colon d = false) : c ≠ d := by
  intro h
  rw [h, hd] at hc
  cases hc

/-- A prefix of characters that hold, up to one that does not. -/
theorem takeWhile_prefix {p : Char → Bool} {name rest : List Char} (hname : ∀ c ∈ name, p c = true)
    (hrest : ∀ c ∈ rest.head?, p c = false) :
    (name ++ rest).takeWhile p = name ∧ (name ++ rest).dropWhile p = rest := by
  rw [List.takeWhile_append_of_pos hname, List.dropWhile_append_of_pos hname]
  cases rest with
  | nil => exact ⟨List.append_nil _, rfl⟩
  | cons c rest =>
    have hc : ¬p c = true := by
      rw [hrest c rfl]
      exact Bool.false_ne_true
    rw [List.takeWhile_cons_of_neg hc, List.dropWhile_cons_of_neg hc]
    exact ⟨List.append_nil _, rfl⟩

/-- A character that is no blank is not skipped. -/
theorem skipBlanks_cons {c : Char} (h : isBlank c = false) (rest : List Char) :
    skipBlanks (c :: rest) = c :: rest := by
  unfold skipBlanks
  rw [List.dropWhile_cons_of_neg]
  rw [h]
  exact Bool.false_ne_true

/-- It is read where it is expected. -/
theorem expect_cons {c : Char} (h : isBlank c = false) (rest : List Char) :
    expect c (c :: rest) = some rest := by
  unfold expect
  rw [skipBlanks_cons h]
  exact if_pos rfl

/-- A name does not begin with a blank. -/
theorem isBlank_of_isNameStart {colon : Bool} {c : Char} (h : isNameStart colon c = true) :
    isBlank c = false := by
  by_contra hblank
  unfold isBlank at hblank
  simp only [Bool.or_eq_false_iff, decide_eq_false_iff_not, not_and_or, not_not] at hblank
  rcases hblank with rfl | rfl
  · cases colon <;> cases h
  · cases colon <;> cases h

/-- A plain value is read back. -/
theorem readValue_plain {value : List Char} (h : Plain value) (rest : List Char) :
    readValue (value ++ '"' :: rest) = some (value, rest) := by
  induction value with
  | nil => rfl
  | cons c value ih =>
    obtain ⟨hspecial, hnewline⟩ := h c List.mem_cons_self
    have hplain : Plain value := fun d hd => h d (List.mem_cons_of_mem _ hd)
    have hquote : c ≠ '"' := by
      intro heq
      rw [heq] at hspecial
      cases hspecial
    have hslash : c ≠ '\\' := by
      intro heq
      rw [heq] at hspecial
      cases hspecial
    rw [List.cons_append, readValue, ih hplain]
    · rfl
    all_goals
      intros
      simp_all

/-- No blanks stand before a name. -/
theorem skipBlanks_name {colon : Bool} {name : List Char} (h : ValidName colon name)
    (rest : List Char) : skipBlanks (name ++ rest) = name ++ rest := by
  obtain ⟨hne, -, hstart⟩ := h
  cases name with
  | nil => exact absurd rfl hne
  | cons c name => exact skipBlanks_cons (isBlank_of_isNameStart (hstart c rfl)) _

/-- A name is read back. -/
theorem readName_append {name rest : List Char} (h : ValidName false name)
    (hrest : ∀ c ∈ rest.head?, isNameChar false c = false) :
    readName (name ++ rest) = some (name, rest) := by
  obtain ⟨htake, hdrop⟩ := takeWhile_prefix h.2.1 hrest
  unfold readName
  rw [skipBlanks_name h]
  dsimp only
  rw [htake, hdrop, if_pos h]

/-- A label that is written raw and reads back. -/
def Readable (label : Label) : Prop :=
  ValidName false label.1 ∧ Plain label.2

/-- A label is read back. -/
theorem readLabel_format {label : Label} (h : Readable label) (rest : List Char) :
    readLabel (formatLabel label ++ rest) = some (label, rest) := by
  have htext : formatLabel label ++ rest
      = label.1 ++ '=' :: '"' :: (label.2 ++ '"' :: rest) := by
    simp [formatLabel]
  have hdelimiter : ∀ c ∈ ('=' :: '"' :: (label.2 ++ '"' :: rest)).head?,
      isNameChar false c = false := by
    intro c hc
    cases Option.some.inj hc
    rfl
  have hname := readName_append h.1 hdelimiter
  unfold readLabel
  rw [htext, hname]
  simp only [Option.bind_eq_bind, Option.bind_some]
  rw [expect_cons rfl, Option.bind_some, expect_cons rfl, Option.bind_some, readValue_plain h.2]
  rfl

/-- Another character is refused. -/
theorem expect_of_ne {c d : Char} (hblank : isBlank d = false) (hne : d ≠ c) (rest : List Char) :
    expect c (d :: rest) = none := by
  unfold expect
  rw [skipBlanks_cons hblank]
  exact if_neg hne

/-- A list of labels is read back. -/
theorem readLabels_format {labels : List Label} (h : ∀ label ∈ labels, Readable label) {fuel : ℕ}
    (hfuel : labels.length < fuel) :
    readLabels fuel (List.intercalate [','] (labels.map formatLabel) ++ ['}']) = some labels := by
  induction labels generalizing fuel with
  | nil =>
    cases fuel with
    | zero => exact absurd hfuel (Nat.lt_irrefl 0)
    | succ fuel => rfl
  | cons label labels ih =>
    cases fuel with
    | zero => exact absurd hfuel (Nat.not_lt_zero _)
    | succ fuel =>
      have hlabel := h label List.mem_cons_self
      -- What the text begins with is a name's first character, so no brace.
      have hopen : ∀ rest, skipBlanks (formatLabel label ++ rest) ≠ ['}'] := by
        intro rest heq
        unfold formatLabel at heq
        rw [List.append_assoc, List.append_assoc, skipBlanks_name hlabel.1] at heq
        have hlength := congrArg List.length heq
        simp only [List.length_append, List.length_cons, List.length_nil] at hlength
        omega
      cases labels with
      | nil =>
        rw [List.map_singleton, List.intercalate_singleton, readLabels, if_neg (hopen _),
          readLabel_format hlabel]
        simp only [Option.bind_eq_bind, Option.bind_some]
        rw [expect_of_ne rfl (by decide)]
        rfl
      | cons next labels =>
        have hrest := ih (fun other hother => h other (List.mem_cons_of_mem _ hother))
          (Nat.lt_of_succ_lt_succ hfuel)
        rw [List.map_cons, List.map_cons, List.intercalate_cons_cons, List.append_assoc,
          List.append_assoc, readLabels, if_neg (hopen _), readLabel_format hlabel]
        rw [List.map_cons] at hrest
        simp only [Option.bind_eq_bind, Option.bind_some, List.cons_append, List.nil_append]
        rw [expect_cons rfl]
        dsimp only
        rw [hrest]
        rfl

/-- There is more text than there are labels. -/
theorem length_lt_intercalate (labels : List Label) :
    labels.length < (List.intercalate [','] (labels.map formatLabel) ++ ['}']).length := by
  induction labels with
  | nil => simp
  | cons label labels ih =>
    cases labels with
    | nil =>
      rw [List.map_singleton, List.intercalate_singleton, List.length_append]
      simp only [formatLabel, List.length_append, List.length_cons, List.length_nil]
      omega
    | cons next labels =>
      rw [List.map_cons, List.map_cons, List.intercalate_cons_cons]
      rw [List.map_cons] at ih
      simp only [List.length_append, List.length_cons, List.length_nil] at ih ⊢
      omega

/-- **Plain values read back.** -/
theorem readSeries_format {name : List Char} {labels : List Label} (hname : ValidName true name)
    (h : ∀ label ∈ labels, Readable label) :
    readSeries (formatSeries name labels) = some (name, labels) := by
  have hlabels : ∀ c ∈ (formatLabels labels).head?, isNameChar true c = false := by
    intro c hc
    unfold formatLabels at hc
    split at hc
    · cases hc
    · cases Option.some.inj hc
      rfl
  obtain ⟨htake, hdrop⟩ := takeWhile_prefix hname.2.1 hlabels
  unfold readSeries formatSeries
  dsimp only
  rw [htake, hdrop, if_pos hname]
  unfold formatLabels
  by_cases hnil : labels = []
  · rw [if_pos hnil, hnil]
  · rw [if_neg hnil]
    have hfuel : labels.length
        < (name ++ '{' :: (List.intercalate [','] (labels.map formatLabel) ++ ['}'])).length := by
      have hlt := length_lt_intercalate labels
      rw [List.length_append, List.length_cons]
      omega
    show (readLabels _ _).map _ = _
    rw [readLabels_format h hfuel]
    rfl

/-! ## No others do -/

/-- How many special characters a text holds. -/
def marks (text : List Char) : ℕ :=
  text.countP isSpecial

/-- How many line ends it holds. -/
def newlines (text : List Char) : ℕ :=
  text.count '\n'

/-- What is read between `text` and `rest` has `n` quotes and backslashes, and
no newline. -/
def Costs (text rest : List Char) (n : ℕ) : Prop :=
  marks text = marks rest + n ∧ newlines text = newlines rest

/-- The quotes and backslashes of an escaped value. -/
def escapedMarks (value : List Char) : ℕ :=
  2 * marks value + newlines value

/-- What is read costs the sum of its parts. -/
theorem Costs.trans {text mid rest : List Char} {n m : ℕ} (h : Costs text mid n)
    (h' : Costs mid rest m) : Costs text rest (n + m) := by
  unfold Costs at h h' ⊢
  omega

/-- The cost of one character. -/
theorem costs_cons {c : Char} (hc : c ≠ '\n') (text : List Char) :
    Costs (c :: text) text (if isSpecial c then 1 else 0) :=
  ⟨List.countP_cons, List.count_cons_of_ne hc⟩

/-- Skipping plain characters costs nothing. -/
theorem costs_dropWhile {p : Char → Bool} (hp : ∀ c, p c = true → isSpecial c = false ∧ c ≠ '\n')
    (text : List Char) : Costs text (text.dropWhile p) 0 := by
  induction text with
  | nil => exact ⟨rfl, rfl⟩
  | cons c text ih =>
    by_cases hc : p c = true
    · rw [List.dropWhile_cons_of_pos hc]
      have hcons := costs_cons (hp c hc).2 text
      rw [(hp c hc).1] at hcons
      exact hcons.trans ih
    · rw [List.dropWhile_cons_of_neg hc]
      exact ⟨rfl, rfl⟩

/-- The characters of a name are plain. -/
theorem plain_of_isNameChar {colon : Bool} (c : Char) (h : isNameChar colon c = true) :
    isSpecial c = false ∧ c ≠ '\n' := by
  have hspecial : isSpecial c = false := by
    unfold isSpecial
    simp only [Bool.or_eq_false_iff, decide_eq_false_iff_not]
    refine ⟨isNameChar_ne h ?_, isNameChar_ne h ?_⟩
    · cases colon <;> rfl
    · cases colon <;> rfl
  refine ⟨hspecial, isNameChar_ne h ?_⟩
  cases colon <;> rfl

/-- So are blanks. -/
theorem plain_of_isBlank (c : Char) (h : isBlank c = true) : isSpecial c = false ∧ c ≠ '\n' := by
  unfold isBlank at h
  simp only [Bool.or_eq_true, decide_eq_true_eq] at h
  rcases h with rfl | rfl
  · exact ⟨rfl, by decide⟩
  · exact ⟨rfl, by decide⟩

/-- Skipping blanks costs nothing. -/
theorem costs_skipBlanks (text : List Char) : Costs text (skipBlanks text) 0 :=
  costs_dropWhile plain_of_isBlank text

/-- The cost of an expected character. -/
theorem costs_expect {c : Char} (hc : c ≠ '\n') {text rest : List Char}
    (h : expect c text = some rest) : Costs text rest (if isSpecial c then 1 else 0) := by
  have hskip := costs_skipBlanks text
  unfold expect at h
  split at h
  next => cases h
  next d tail heq =>
    split at h
    next hd =>
      cases h
      rw [heq, hd] at hskip
      have hcons := hskip.trans (costs_cons hc rest)
      rwa [Nat.zero_add] at hcons
    next => cases h

/-- The cost of a value, character by character. -/
theorem escapedMarks_cons (c : Char) (value : List Char) :
    escapedMarks (c :: value)
      = (if isSpecial c then 2 else 0) + (if c = '\n' then 1 else 0) + escapedMarks value := by
  unfold escapedMarks marks newlines
  rw [List.countP_cons, List.count_cons]
  simp only [beq_iff_eq]
  split <;> split <;> omega

/-- An escape is a backslash and a character that is a mark too, but for the
newline's. -/
theorem costs_escape {c d : Char} (hd : d ≠ '\n')
    (hmarks : ((if isSpecial c then 2 else 0) + if c = '\n' then 1 else 0)
      = 1 + if isSpecial d then 1 else 0)
    {tail rest value : List Char} (h : Costs tail rest (1 + escapedMarks value)) :
    Costs ('\\' :: d :: tail) rest (1 + escapedMarks (c :: value)) := by
  have hslash : Costs ('\\' :: d :: tail) (d :: tail) 1 := costs_cons (by decide) _
  have hcosts := (hslash.trans (costs_cons hd tail)).trans h
  rw [escapedMarks_cons, hmarks, Nat.add_left_comm]
  exact hcosts

/-- A value costs its quote and its characters. -/
theorem costs_readValue {text value rest : List Char} (h : readValue text = some (value, rest)) :
    Costs text rest (1 + escapedMarks value) := by
  fun_induction readValue text generalizing value with
  | case1 tail =>
    cases h
    exact costs_cons (by decide) _
  | case2 tail ih =>
    obtain ⟨read, hread, heq⟩ := Option.map_eq_some_iff.mp h
    cases heq
    exact costs_escape (by decide) rfl (ih hread)
  | case3 tail ih =>
    obtain ⟨read, hread, heq⟩ := Option.map_eq_some_iff.mp h
    cases heq
    exact costs_escape (by decide) rfl (ih hread)
  | case4 tail ih =>
    obtain ⟨read, hread, heq⟩ := Option.map_eq_some_iff.mp h
    cases heq
    exact costs_escape (by decide) rfl (ih hread)
  | case5 => cases h
  | case6 => cases h
  | case7 c tail hquote _ _ _ hslash hnewline ih =>
    obtain ⟨read, hread, heq⟩ := Option.map_eq_some_iff.mp h
    cases heq
    have hspecial : isSpecial c = false := by
      unfold isSpecial
      rw [Bool.or_eq_false_iff, decide_eq_false_iff_not, decide_eq_false_iff_not]
      exact ⟨hquote, hslash⟩
    have hcosts := (costs_cons hnewline tail).trans (ih hread)
    rw [hspecial] at hcosts
    rw [escapedMarks_cons, hspecial, if_neg hnewline,
      show ∀ n, 1 + ((if false = true then 2 else 0) + 0 + n) = 0 + (1 + n) by simp]
    exact hcosts
  | case8 => cases h

/-- The quotes and backslashes of labels whose values are escaped. -/
def escapedLabels (labels : List Label) : ℕ :=
  (labels.map fun label => 2 + escapedMarks label.2).sum

/-- A name costs nothing. -/
theorem costs_readName {text name rest : List Char} (h : readName text = some (name, rest)) :
    Costs text rest 0 := by
  unfold readName at h
  dsimp only at h
  split at h
  next =>
    cases h
    exact (costs_skipBlanks text).trans (costs_dropWhile plain_of_isNameChar _)
  next => cases h

/-- A label costs two quotes and its value. -/
theorem costs_readLabel {text rest : List Char} {label : Label}
    (h : readLabel text = some (label, rest)) : Costs text rest (2 + escapedMarks label.2) := by
  unfold readLabel at h
  simp only [Option.bind_eq_bind, Option.bind_eq_some_iff] at h
  obtain ⟨name, hname, mid, hequals, mid', hquote, value, hvalue, heq⟩ := h
  cases heq
  have hcosts := (((costs_readName hname).trans (costs_expect (by decide) hequals)).trans
    (costs_expect (by decide) hquote)).trans (costs_readValue hvalue)
  rw [show ∀ n, 2 + n = 0 + 0 + 1 + (1 + n) by omega]
  exact hcosts

/-- Nothing is left past the brace. -/
theorem costs_close {text : List Char} (h : skipBlanks text = ['}']) : Costs text [] 0 := by
  have hskip := costs_skipBlanks text
  rw [h] at hskip
  exact hskip.trans (costs_cons (by decide) [])

/-- The labels cost what their values do. -/
theorem costs_readLabels {fuel : ℕ} {text : List Char} {labels : List Label}
    (h : readLabels fuel text = some labels) : Costs text [] (escapedLabels labels) := by
  induction fuel generalizing text labels with
  | zero => cases h
  | succ fuel ih =>
    unfold readLabels at h
    split at h
    next hclose =>
      cases h
      exact costs_close hclose
    next =>
      rw [Option.bind_eq_bind, Option.bind_eq_some_iff] at h
      obtain ⟨⟨label, rest⟩, hlabel, h⟩ := h
      dsimp only at h
      split at h
      next tail hcomma =>
        obtain ⟨labels', hlabels, heq⟩ := Option.map_eq_some_iff.mp h
        cases heq
        have hcosts := ((costs_readLabel hlabel).trans (costs_expect (by decide) hcomma)).trans
          (ih hlabels)
        rwa [show isSpecial ',' = false from rfl] at hcosts
      next =>
        split at h
        next hclose =>
          cases h
          exact (costs_readLabel hlabel).trans (costs_close hclose)
        next => cases h

/-- So does a series. -/
theorem costs_readSeries {text name : List Char} {labels : List Label}
    (h : readSeries text = some (name, labels)) : Costs text [] (escapedLabels labels) := by
  have hname := costs_dropWhile (p := isNameChar true) plain_of_isNameChar text
  unfold readSeries at h
  dsimp only at h
  split at h
  next =>
    split at h
    next hrest =>
      cases h
      rwa [hrest] at hname
    next rest hrest =>
      obtain ⟨labels', hlabels, heq⟩ := Option.map_eq_some_iff.mp h
      cases heq
      rw [hrest] at hname
      have hcosts := (hname.trans (costs_cons (by decide) rest)).trans (costs_readLabels hlabels)
      rw [show escapedLabels labels = 0 + 0 + escapedLabels labels by omega]
      exact hcosts
    next => cases h
  next => cases h

/-! ### The raw text has fewer -/

/-- Special characters add up. -/
theorem marks_append (text text' : List Char) :
    marks (text ++ text') = marks text + marks text' :=
  List.countP_append

/-- A name holds none. -/
theorem marks_name {colon : Bool} {name : List Char} (h : ValidName colon name) :
    marks name = 0 := by
  unfold marks
  rw [List.countP_eq_zero]
  intro c hc
  rw [(plain_of_isNameChar c (h.2.1 c hc)).1]
  exact Bool.false_ne_true

/-- A written label holds two more than its value. -/
theorem marks_formatLabel {label : Label} (h : ValidName false label.1) :
    marks (formatLabel label) = 2 + marks label.2 := by
  have htext : formatLabel label = label.1 ++ (['=', '"'] ++ (label.2 ++ ['"'])) := by
    simp [formatLabel]
  rw [htext, marks_append, marks_append, marks_append, marks_name h,
    show marks ['=', '"'] = 1 from rfl, show marks ['"'] = 1 from rfl]
  omega

/-- And the written labels, one by one. -/
theorem marks_formatLabels {labels : List Label} (h : ∀ label ∈ labels, ValidName false label.1) :
    marks (formatLabels labels) = (labels.map fun label => 2 + marks label.2).sum := by
  have hbody : marks (List.intercalate [','] (labels.map formatLabel))
      = (labels.map fun label => 2 + marks label.2).sum := by
    induction labels with
    | nil => rfl
    | cons label labels ih =>
      have hlabel := marks_formatLabel (h label List.mem_cons_self)
      have hrest := ih fun other hother => h other (List.mem_cons_of_mem _ hother)
      cases labels with
      | nil =>
        rw [List.map_singleton, List.intercalate_singleton, hlabel, List.map_singleton,
          List.sum_singleton]
      | cons next labels =>
        rw [List.map_cons, List.map_cons, List.intercalate_cons_cons, marks_append, marks_append,
          hlabel, ← List.map_cons, hrest, show marks [','] = 0 from rfl, List.map_cons,
          List.map_cons, List.sum_cons]
        rfl
  unfold formatLabels
  split
  next hnil =>
    rw [hnil]
    rfl
  next =>
    rw [← hbody]
    show marks (['{'] ++ (List.intercalate [','] (labels.map formatLabel) ++ ['}'])) = _
    rw [marks_append, marks_append, show marks ['{'] = 0 from rfl, show marks ['}'] = 0 from rfl]
    omega

/-- A text without either is plain. -/
theorem plain_of_marks {value : List Char} (hmarks : marks value = 0)
    (hnewlines : newlines value = 0) : Plain value := by
  intro c hc
  have hspecial := List.countP_eq_zero.mp hmarks c hc
  exact ⟨by simpa using hspecial, fun heq => List.count_eq_zero.mp hnewlines (heq ▸ hc)⟩

/-- **No other values read back** as they were written. -/
theorem plain_of_readSeries {name : List Char} {labels : List Label}
    (hname : ValidName true name) (hlabels : ∀ label ∈ labels, ValidName false label.1)
    (h : readSeries (formatSeries name labels) = some (name, labels)) :
    ∀ label ∈ labels, Plain label.2 := by
  have hcosts := (costs_readSeries h).1
  unfold formatSeries at hcosts
  rw [marks_append, marks_name hname, marks_formatLabels hlabels, show marks [] = 0 from rfl,
    Nat.zero_add, Nat.zero_add] at hcosts
  -- Escaped, each mark counts twice and each newline once more.
  have hsplit : escapedLabels labels = (labels.map fun label => 2 + marks label.2).sum
      + (labels.map fun label => marks label.2 + newlines label.2).sum := by
    unfold escapedLabels escapedMarks
    rw [← List.sum_map_add]
    congr 1
    apply List.map_congr_left
    intro label _
    omega
  have hzero : (labels.map fun label => marks label.2 + newlines label.2).sum = 0 := by omega
  intro label hlabel
  have hterm := List.sum_eq_zero_iff.mp hzero _ (List.mem_map_of_mem hlabel)
  exact plain_of_marks (by omega) (by omega)

end ControlPlane.Lib.Exposition
