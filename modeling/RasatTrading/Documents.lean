import RasatTrading.Document.Write
import RasatTrading.Text

/-! Documents as the program shows them, and which of them count as true. -/

namespace Rasat

open Rounding

/-- A string as text; a lone surrogate is shown by the replacement character. -/
def Str.shown : Str → String
  | .text value => value
  | .broken codes => String.ofList (codes.map fun code => if code.isValidChar then Char.ofNat code else '\ufffd')

/-- `repr` of a float. -/
def reprDouble : Double → String
  | .finite negative magnitude => String.ofList (Document.sign negative ++ magnitude.chars)
  | .infinite negative => String.ofList (Document.sign negative) ++ "inf"
  | .nan => "nan"

mutual

/-- `repr` of a document. -/
def reprDocument (text : Text) : Document → String
  | .null => "None"
  | .bool true => "True"
  | .bool false => "False"
  | .int value => toString value
  | .float value => reprDouble value
  | .str value => text.repr (Str.shown value)
  | .array items => "[" ++ reprItems text items ++ "]"
  | .object members => "\x7b" ++ reprMembers text members ++ "\x7d"

def reprItems (text : Text) : List Document → String
  | [] => ""
  | [item] => reprDocument text item
  | item :: rest => reprDocument text item ++ ", " ++ reprItems text rest

def reprMembers (text : Text) : List (Str × Document) → String
  | [] => ""
  | [(key, value)] => text.repr (Str.shown key) ++ ": " ++ reprDocument text value
  | (key, value) :: rest =>
    text.repr (Str.shown key) ++ ": " ++ reprDocument text value ++ ", " ++ reprMembers text rest

end

/-- `str` of a document. -/
def strDocument (text : Text) : Document → String
  | .str value => Str.shown value
  | document => reprDocument text document

/-- The members of an object. -/
abbrev Members := List (Str × Document)

/-- The number that a document is. -/
def numberOf : Document → Option Extended
  | .int value => some (.finite value)
  | .float value => some value.extended
  | _ => none

/-- Whether a document counts as true. -/
def truthyDocument : Document → Bool
  | .null => false
  | .bool value => value
  | .int value => value ≠ 0
  | .float value => value.extended ≠ .finite 0
  | .str value => value ≠ .text ""
  | .array items => ¬items.isEmpty
  | .object members => ¬members.isEmpty

end Rasat
