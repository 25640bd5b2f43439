import Mathlib.Data.List.Sort
import RasatTrading.Rounding.Double

/-! Documents: the values that JSON texts stand for. -/

open Rounding

/-- A string of a document. -/
inductive Str
  | text (value : String)
  /-- Code points with a lone surrogate among them; no encoding can write them. -/
  | broken (codes : List ℕ)
  deriving DecidableEq, Repr

namespace Str

/-- The order in which keys are sorted. -/
def le : Str → Str → Bool
  | .text left, .text right => left ≤ right
  -- Where the others stand decides nothing, since they are never written.
  | .text _, .broken _ => true
  | .broken _, .text _ => false
  | .broken _, .broken _ => true

/-- Whether the string can be encoded. -/
def encodable : Str → Bool
  | .text _ => true
  | .broken _ => false

end Str

/-- A value of a JSON text; the members of an object are in the order of the text. -/
inductive Document
  | null
  | bool (value : Bool)
  | int (value : ℤ)
  | float (value : Double)
  | str (value : Str)
  | array (items : List Document)
  | object (members : List (Str × Document))

namespace Document

/-- A text. -/
abbrev text (value : String) : Document := .str (.text value)

/-- The words for numbers that are infinite, and for what is no number. -/
def infinityWord : List Char := ['I', 'n', 'f', 'i', 'n', 'i', 't', 'y']

def nanWord : List Char := ['N', 'a', 'N']

/-- The words for the truth values. -/
def boolWord (value : Bool) : List Char := if value then ['t', 'r', 'u', 'e'] else ['f', 'a', 'l', 's', 'e']

def nullWord : List Char := ['n', 'u', 'l', 'l']

/-- The documents that are written as words. -/
def words : List (List Char × Document) :=
  [(nullWord, .null), (boolWord true, .bool true), (boolWord false, .bool false), (nanWord, .float .nan),
    (infinityWord, .float (.infinite false)), ('-' :: infinityWord, .float (.infinite true))]

/-- What is looked up is there. -/
theorem mem_of_lookup {α β : Type} [BEq α] [LawfulBEq α] {pairs : List (α × β)} {key : α} {value : β}
    (found : pairs.lookup key = some value) : (key, value) ∈ pairs := by
  obtain ⟨front, back, split, -⟩ := List.lookup_eq_some_iff.mp found
  simp [split]

/-- The value of a key; absent when the document is no object or lacks the key. -/
def get? (key : String) : Document → Option Document
  | .object members => members.lookup (.text key)
  | _ => none

/-- The most digits of a whole number that are written or read. -/
def maxDigits : ℕ := 4300

/-- Whether a whole number has few enough digits. -/
def shortInt (value : ℤ) : Bool := (Nat.toDigits 10 value.natAbs).length ≤ maxDigits

mutual

/-- Whether no whole number in a document is too long to be written. -/
def short : Document → Bool
  | .int value => shortInt value
  | .array items => shortItems items
  | .object members => shortMembers members
  | _ => true

def shortItems : List Document → Bool
  | [] => true
  | item :: rest => item.short && shortItems rest

def shortMembers : List (Str × Document) → Bool
  | [] => true
  | (_, value) :: rest => value.short && shortMembers rest

end

mutual

/-- Whether all strings of a document can be encoded. -/
def encodable : Document → Bool
  | .str value => value.encodable
  | .array items => encodableItems items
  | .object members => encodableMembers members
  | _ => true

def encodableItems : List Document → Bool
  | [] => true
  | item :: rest => item.encodable && encodableItems rest

def encodableMembers : List (Str × Document) → Bool
  | [] => true
  | (key, value) :: rest => key.encodable && value.encodable && encodableMembers rest

end

mutual

/-- Whether no object has a key twice. -/
def distinct : Document → Bool
  | .array items => distinctItems items
  | .object members => decide (members.map Prod.fst).Nodup && distinctMembers members
  | _ => true

def distinctItems : List Document → Bool
  | [] => true
  | item :: rest => item.distinct && distinctItems rest

def distinctMembers : List (Str × Document) → Bool
  | [] => true
  | (_, value) :: rest => value.distinct && distinctMembers rest

end

end Document
