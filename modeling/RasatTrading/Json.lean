import RasatTrading.Text

/-! JSON values as the standard parser gives them, and what the code asks of them. -/

namespace Rasat

/-- A parsed JSON value; the keys of an object are in the order of the document. -/
inductive Json
  | null
  | bool (value : Bool)
  | int (value : ℤ)
  | real (value : ℚ)
  | text (value : String)
  | array (items : List Json)
  | object (fields : List (String × Json))

namespace Json

mutual

/-- `repr` of a parsed value. -/
def repr (text : Text) : Json → String
  | .null => "None"
  | .bool true => "True"
  | .bool false => "False"
  | .int value => toString value
  | .real value => text.float value
  | .text value => text.repr value
  | .array items => "[" ++ reprItems text items ++ "]"
  | .object fields => "\x7b" ++ reprFields text fields ++ "\x7d"

/-- The members of a list, separated as `repr` does. -/
def reprItems (text : Text) : List Json → String
  | [] => ""
  | [item] => repr text item
  | item :: rest => repr text item ++ ", " ++ reprItems text rest

/-- The members of a dictionary, separated as `repr` does. -/
def reprFields (text : Text) : List (String × Json) → String
  | [] => ""
  | [(key, value)] => text.repr key ++ ": " ++ repr text value
  | (key, value) :: rest => text.repr key ++ ": " ++ repr text value ++ ", " ++ reprFields text rest

end

/-- `str` of a parsed value. -/
def str (text : Text) : Json → String
  | .text value => value
  | value => value.repr text

/-- Whether a value counts as true. -/
def truthy : Json → Bool
  | .null => false
  | .bool value => value
  | .int value => value ≠ 0
  | .real value => value ≠ 0
  | .text value => value ≠ ""
  | .array items => ¬items.isEmpty
  | .object fields => ¬fields.isEmpty

/-- Whether a value equals this integer. -/
def isInt (number : ℤ) : Json → Bool
  | .int value => value = number
  | .real value => value = number
  | .bool value => (if value then 1 else 0) = number
  | _ => false

/-- Whether a value is this text. -/
def isText (expected : String) : Json → Bool
  | .text value => value = expected
  | _ => false

/-- `float` of a value: absent when it raises. -/
def toFloat (text : Text) : Json → Option ℚ
  | .bool value => some (if value then 1 else 0)
  | .int value => some value
  | .real value => some value
  | .text value => (text.parseFloat value).bind id
  | _ => none

/-- The value of a key, `None` when it is missing. -/
def get (fields : List (String × Json)) (key : String) : Json := (fields.lookup key).getD .null

end Json

end Rasat
