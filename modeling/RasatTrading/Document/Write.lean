import RasatTrading.Document.Value

/-! How documents are written: on one line, with every character as it is unless it must be escaped. -/

namespace Document

open Rounding

/-- The four hexadecimal digits of a small number. -/
def hex4 (code : ℕ) : List Char :=
  [Nat.digitChar (code / 4096 % 16), Nat.digitChar (code / 256 % 16), Nat.digitChar (code / 16 % 16),
    Nat.digitChar (code % 16)]

/-- The characters that have an escape of their own, with its letter. -/
def shortEscapes : List (Char × Char) :=
  [('"', '"'), ('\\', '\\'), ('\x08', 'b'), ('\x0c', 'f'), ('\n', 'n'), ('\r', 'r'), ('\t', 't')]

/-- A character inside a string. -/
def escape (c : Char) : List Char :=
  match shortEscapes.lookup c with
  | some letter => ['\\', letter]
  -- The other control characters are written by their numbers.
  | none => if c.toNat < 32 then '\\' :: 'u' :: hex4 c.toNat else [c]

/-- A string between its quotes; what cannot be encoded is never written. -/
def writeStr : Str → List Char
  | .text value => '"' :: value.toList.flatMap escape ++ ['"']
  | .broken _ => []

/-- The sign of a number. -/
def sign (negative : Bool) : List Char := if negative then ['-'] else []

/-- A whole number. -/
def writeInt (value : ℤ) : List Char := sign (value < 0) ++ Nat.toDigits 10 value.natAbs

/-- A float. -/
def writeFloat : Double → List Char
  | .finite negative magnitude => sign negative ++ magnitude.chars
  | .infinite negative => sign negative ++ infinityWord
  | .nan => nanWord

mutual

/-- The text of a document. -/
def write : Document → List Char
  | .null => nullWord
  | .bool value => boolWord value
  | .int value => writeInt value
  | .float value => writeFloat value
  | .str value => writeStr value
  | .array [] => ['[', ']']
  | .array (first :: rest) => '[' :: (write first ++ writeItems rest)
  | .object [] => ['\x7b', '\x7d']
  | .object ((key, value) :: rest) =>
    '\x7b' :: (writeStr key ++ ':' :: ' ' :: (write value ++ writeMembers rest))

/-- The items behind the first one, and the end of their array. -/
def writeItems : List Document → List Char
  | [] => [']']
  | item :: rest => ',' :: ' ' :: (write item ++ writeItems rest)

/-- The members behind the first one, and the end of their object. -/
def writeMembers : List (Str × Document) → List Char
  | [] => ['\x7d']
  | (key, value) :: rest =>
    ',' :: ' ' :: (writeStr key ++ ':' :: ' ' :: (write value ++ writeMembers rest))

end

end Document
