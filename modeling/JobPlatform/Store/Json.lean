import Mathlib.Data.Rat.Defs
import JobPlatform.Store.Uuid

/-!
Contract: JSON values as Python holds them, and the operations the source applies to them.

`json.loads` after `json.dumps`, and a `jsonb` column, give back the value that went in, so a
message body and a column are `Json` values here. A float is a rational: the source never writes
one, and asks of one only whether it is zero or one.
-/

namespace JobPlatform.Store

/-- Decoded JSON. An object keeps its fields in order; the first of equal keys counts. -/
inductive Json where
  | null
  | bool (value : Bool)
  | int (value : Int)
  | float (value : Rat)
  | str (value : String)
  | arr (items : List Json)
  | obj (fields : List (String × Json))

namespace Json

/-- The field of an object. -/
def field? (key : String) (fields : List (String × Json)) : Option Json :=
  (fields.find? fun entry => entry.1 = key).map Prod.snd

/-- Python's truth value, as in `if correlation_id:`. -/
def truthy : Json → Bool
  | null => false
  | bool value => value
  | int value => value ≠ 0
  | float value => value ≠ 0
  | str value => value ≠ ""
  | arr items => !items.isEmpty
  | obj fields => !fields.isEmpty

/-- `value == 1` for the integer one: `True` and `1.0` are equal to it. -/
def isOne : Json → Bool
  | bool value => value
  | int value => value = 1
  | float value => value = 1
  | _ => false

/-- `value == text`. -/
def isStr (text : String) : Json → Bool
  | str value => value = text
  | _ => false

/-- `UUID(str(value))`. The text of any value but a string or an integer has a character no UUID
has, or too few digits. -/
def asUuid : Json → Option Uuid
  | str value => Uuid.parse value
  | int value => Uuid.parse (toString value)
  | _ => none

@[simp] theorem asUuid_str (uuid : Uuid) : (str uuid.str).asUuid = some uuid :=
  Uuid.parse_str uuid

end Json

end JobPlatform.Store
