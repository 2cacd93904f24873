import ControlPlane.Lib.Arithmetic

/-!
# Token estimation — `app/services/token_estimator.py`

`estimateTokens` turns a character count into a token count by a multiplier
picked from the first keyword that occurs in the lower-cased model id. The
multiplier, and with it the estimate, depends on the model's *name*: two
models asked the same question may be charged for different token counts.

Mirroring notes:
- `str.lower` matters here only for where an ASCII keyword can occur, so
  `lowerChar` follows it on the code points whose lower case has an ASCII
  letter in it: `A`–`Z`, U+0130 (lower case `i` and U+0307) and U+212A
  (lower case `k`). Every other code point is kept.
- `int(char_count * multiplier)` truncates a float product: the count and the
  multiplier are doubles before they are multiplied. `float(char_count)`
  raises for a count past the largest double; `Ranges` has that.
-/

namespace ControlPlane

open Lib

/-- The `{"en": …, "zh": …}` entry of a keyword, as the source writes it. -/
structure Multiplier where
  en : ℚ
  zh : ℚ

/-- `val_dict.get(language)`. -/
def Multiplier.get? (m : Multiplier) (language : String) : Option ℚ :=
  if language = "en" then some m.en
  else if language = "zh" then some m.zh
  else none

/-- `TOKEN_MULTIPLIERS`, in their order. -/
def tokenMultipliers : List (String × Multiplier) :=
  [("gpt", ⟨30 / 100, 60 / 100⟩),
   ("openai", ⟨30 / 100, 60 / 100⟩),
   ("claude", ⟨35 / 100, 65 / 100⟩),
   ("anthropic", ⟨35 / 100, 65 / 100⟩),
   ("gemini", ⟨32 / 100, 55 / 100⟩)]

/-- The multipliers of any other model. -/
def defaultMultiplier : Multiplier := ⟨40 / 100, 70 / 100⟩

/-- `lower` of a character, as far as it can matter to a keyword. -/
def lowerChar (c : Char) : List Char :=
  if 'A' ≤ c ∧ c ≤ 'Z' then [Char.ofNat (c.toNat + 32)]
  else if c.toNat = 0x130 then ['i', Char.ofNat 0x307]
  else if c.toNat = 0x212A then ['k']
  else [c]

/-- `key in text` for Python strings. -/
def containsSub (key text : List Char) : Bool :=
  text.tails.any fun rest => key.isPrefixOf rest

/-- The multiplier of a model name: the first keyword found in it decides,
and a language the keyword's entry lacks falls back to its `en` value. -/
def multiplierFor (modelId language : String) : ℚ :=
  let modelLower := modelId.toList.flatMap lowerChar
  match tokenMultipliers.find? fun kv => containsSub kv.1.toList modelLower with
  | some kv => (kv.2.get? language).getD kv.2.en
  | none => (defaultMultiplier.get? language).getD (40 / 100)

/-- `char_count * multiplier`, a product of two doubles. -/
def estimated (arith : Arithmetic) (charCount : ℕ) (modelId language : String) : ℚ :=
  arith.float (arith.float charCount * arith.float (multiplierFor modelId language))

/-- `estimate_tokens`: never zero for a non-empty prompt. -/
def estimateTokens (arith : Arithmetic) (charCount : ℕ) (modelId language : String) : ℕ :=
  if charCount = 0 then 0
  else max 1 (trunc.toInt (estimated arith charCount modelId language)).toNat

/-- A non-empty prompt is never estimated at zero tokens. -/
theorem estimateTokens_pos (arith : Arithmetic) {charCount : ℕ} (h : 1 ≤ charCount)
    (modelId language : String) : 1 ≤ estimateTokens arith charCount modelId language := by
  unfold estimateTokens
  rw [if_neg (by omega)]
  exact Nat.le_max_left _ _

example : estimateTokens .machine 1000 "lab/My-GPT" "en" = 300 := by decide +kernel

/-- The double nearest 0.35 is below it, and the truncation shows that. -/
example : estimateTokens .machine 180 "lab/claude" "en" = 62
    ∧ estimateTokens .exact 180 "lab/claude" "en" = 63 := by decide +kernel

end ControlPlane
