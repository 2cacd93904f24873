import ControlPlane.Errors
import ControlPlane.Lib.Dict

/-!
# JSON documents

What `json.loads` returns, and the dictionary a reader sees in it. An object
is its members in the order of the text; the dictionary has a repeated key
once, at its first place and with its last value.
-/

namespace ControlPlane

open Lib

/-- A float that is no number, or not a finite one. -/
inductive NonFinite
  | nan
  | inf
  | negInf
deriving DecidableEq

/-- What `json.loads` returns; `nonFinite` is `NaN` or an infinity. -/
inductive Json
  | null
  | bool (b : Bool)
  | number (q : ℚ)
  | nonFinite (x : NonFinite)
  | string (s : String)
  | array (items : List Json)
  | object (fields : List (String × Json))

/-- The value is `None`. -/
def Json.isNull : Json → Bool
  | .null => true
  | _ => false

/-- `bool(value)`. -/
def Json.truthy : Json → Bool
  | .null => false
  | .bool b => b
  | .number q => decide (q ≠ 0)
  | .nonFinite _ => true
  | .string s => decide (s ≠ "")
  | .array items => !items.isEmpty
  | .object fields => !fields.isEmpty

/-- A Python dictionary with text keys. -/
abbrev JsonDict := Dict String Json

/-- The dictionary an object is; nothing else has `get` or `items`. -/
def Json.dict : Json → Except PyError JsonDict
  | .object fields => .ok (Dict.ofPairs fields)
  | _ => .error .attributeError

/-- `payload.get(key, default)`. -/
def JsonDict.get (payload : JsonDict) (key : String) (default : Json) : Json :=
  (payload.get? key).getD default

/-- `payload[key]`. -/
def JsonDict.item (payload : JsonDict) (key : String) : Except PyError Json :=
  match payload.get? key with
  | some value => .ok value
  | none => .error (.keyError key)

end ControlPlane
