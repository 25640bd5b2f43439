import RasatTrading.Document.Value

/-! How the text of a document is read. -/

namespace Document

open Rounding

/-- Why a text is not read. -/
inductive Flaw
  | malformed
  /-- A whole number with too many digits. -/
  | tooLong
  /-- The reader stopped before the end of the text; this never happens. -/
  | exhausted
  deriving DecidableEq, Repr

/-- The spaces between the parts of a text. -/
def isGap (c : Char) : Bool := c = ' ' || c = '\t' || c = '\n' || c = '\r'

def skipGap (chars : List Char) : List Char := chars.dropWhile isGap

/-! Strings. -/

/-- The value of a hexadecimal digit. -/
def hexValue (c : Char) : Option ℕ :=
  if c.isDigit then some (c.toNat - '0'.toNat)
  else if 'a' ≤ c ∧ c ≤ 'f' then some (c.toNat - 'a'.toNat + 10)
  else if 'A' ≤ c ∧ c ≤ 'F' then some (c.toNat - 'A'.toNat + 10)
  else none

/-- The number of four hexadecimal digits. -/
def hexCode (a b c d : Char) : Option ℕ := do
  return ((← hexValue a) * 16 + (← hexValue b)) * 256 + ((← hexValue c) * 16 + (← hexValue d))

/-- The letters of the short escapes, with the characters that they stand for. -/
def shortLetters : List (Char × Char) :=
  [('"', '"'), ('\\', '\\'), ('/', '/'), ('b', '\x08'), ('f', '\x0c'), ('n', '\n'), ('r', '\r'), ('t', '\t')]

/-- The code points of a string up to its closing quote. -/
def readCodes : List Char → Option (List ℕ × List Char)
  | [] => none
  | c :: rest =>
    if c = '"' then some ([], rest)
    else if c = '\\' then
      match rest with
      | [] => none
      | letter :: rest =>
        if letter = 'u' then
          match rest with
          | a :: b :: c :: d :: rest => do
            let code ← hexCode a b c d
            let (codes, after) ← readCodes rest
            return (code :: codes, after)
          | _ => none
        else do
          let char ← shortLetters.lookup letter
          let (codes, after) ← readCodes rest
          return (char.toNat :: codes, after)
    else if c.toNat < 32 then none
    else do
      let (codes, after) ← readCodes rest
      return (c.toNat :: codes, after)

def isHigh (code : ℕ) : Bool := 0xD800 ≤ code && code < 0xDC00

def isLow (code : ℕ) : Bool := 0xDC00 ≤ code && code < 0xE000

/-- A high and a low surrogate in a row are one code point. -/
def joinPairs : List ℕ → List ℕ
  | high :: low :: rest =>
    if isHigh high && isLow low then (0x10000 + (high - 0xD800) * 0x400 + (low - 0xDC00)) :: joinPairs rest
    else high :: joinPairs (low :: rest)
  | codes => codes

/-- The string of some code points. -/
def assemble (codes : List ℕ) : Str :=
  if ∀ code ∈ codes, code.isValidChar then .text (String.ofList (codes.map Char.ofNat)) else .broken codes

/-- A string behind its opening quote. -/
def readStr (chars : List Char) : Except Flaw (Str × List Char) :=
  match readCodes chars with
  | some (codes, rest) => .ok (assemble (joinPairs codes), rest)
  | none => .error .malformed

/-! Numbers. -/

/-- The literal of a number. -/
structure Numeral where
  negative : Bool
  /-- The digits before the point. -/
  whole : List Char
  /-- The digits behind the point, if there is one. -/
  fraction : Option (List Char) := none
  /-- The sign and the digits of the exponent, if there is one. -/
  exponent : Option (Bool × List Char) := none

/-- The value of a run of digits. -/
def digitsValue (digits : List Char) : ℕ := Nat.ofDigitChars 10 digits 0

/-- A number with its sign. -/
def signed (negative : Bool) (size : ℕ) : ℤ := if negative then -size else size

/-- The power of ten of the last digit. -/
def Numeral.scale (n : Numeral) : ℤ :=
  (n.exponent.elim 0 fun (negative, digits) => signed negative (digitsValue digits)) -
    (n.fraction.getD []).length

/-- The absolute value that the literal denotes. -/
def Numeral.value (n : Numeral) : ℚ := digitsValue (n.whole ++ n.fraction.getD []) * 10 ^ n.scale

/-- The document of a literal: a whole number unless it has a point or an exponent. -/
def Numeral.document (n : Numeral) : Except Flaw Document :=
  if n.fraction.isSome || n.exponent.isSome then .ok (.float (.ofDecimal n.negative n.value))
  else if n.whole.length ≤ maxDigits then .ok (.int (signed n.negative (digitsValue n.whole)))
  else .error .tooLong

/-- A sign that may be missing. -/
def readSign (chars : List Char) : Bool × List Char :=
  match chars with
  | '-' :: rest => (true, rest)
  | _ => (false, chars)

/-- The longest run of digits. -/
def readDigits (chars : List Char) : List Char × List Char := chars.span Char.isDigit

/-- The digits before the point: a zero stands alone. -/
def readWhole (chars : List Char) : Option (List Char × List Char) :=
  match chars with
  | '0' :: rest => some (['0'], rest)
  | _ => if (readDigits chars).1 = [] then none else some (readDigits chars)

/-- The digits behind the point; a point without digits does not belong to the number. -/
def readFraction (chars : List Char) : Option (List Char) × List Char :=
  match chars with
  | '.' :: rest => if (readDigits rest).1 = [] then (none, chars) else (some (readDigits rest).1, (readDigits rest).2)
  | _ => (none, chars)

/-- The sign of an exponent, which may be written out. -/
def readExponentSign (chars : List Char) : Bool × List Char :=
  match chars with
  | '+' :: rest => (false, rest)
  | _ => readSign chars

/-- The exponent; a letter without digits does not belong to the number. -/
def readExponent (chars : List Char) : Option (Bool × List Char) × List Char :=
  match chars with
  | c :: rest =>
    if c = 'e' ∨ c = 'E' then
      let (negative, behind) := readExponentSign rest
      if (readDigits behind).1 = [] then (none, chars)
      else (some (negative, (readDigits behind).1), (readDigits behind).2)
    else (none, chars)
  | [] => (none, chars)

/-- A number. -/
def readNumber (chars : List Char) : Except Flaw (Document × List Char) :=
  let (negative, unsigned) := readSign chars
  match readWhole unsigned with
  | none => .error .malformed
  | some (whole, rest) => do
    let (fraction, rest) := readFraction rest
    let (exponent, rest) := readExponent rest
    let document ← Numeral.document { negative, whole, fraction, exponent }
    return (document, rest)

/-! Documents. -/

/-- A word. -/
def readWord (chars : List Char) : Option (Document × List Char) :=
  words.findSome? fun (word, document) =>
    if word.isPrefixOf chars then some (document, chars.drop word.length) else none

/-- What follows an item: the end of its list, or a comma before another item. -/
def readSeparator (close : Char) (chars : List Char) : Except Flaw (Bool × List Char) :=
  match skipGap chars with
  | [] => .error .malformed
  | c :: rest =>
    if c = close then .ok (true, rest)
    else if c = ',' then .ok (false, skipGap rest)
    else .error .malformed

/-- The key of a member and the colon behind it. -/
def readKey (chars : List Char) : Except Flaw (Str × List Char) :=
  match chars with
  | '"' :: rest => do
    let (key, rest) ← readStr rest
    match skipGap rest with
    | ':' :: rest => return (key, skipGap rest)
    | _ => .error .malformed
  | _ => .error .malformed

/-- Store a member; a key that is there keeps its place and takes the new value. -/
def store (members : List (Str × Document)) (member : Str × Document) : List (Str × Document) :=
  if member.1 ∈ members.map Prod.fst then
    members.map fun other => if other.1 = member.1 then member else other
  else members ++ [member]

/-- The object of the members of a text. -/
def collect (members : List (Str × Document)) : Document := .object (members.foldl store [])

mutual

/-- A document without the spaces around it. -/
def readValue : ℕ → List Char → Except Flaw (Document × List Char)
  | 0, _ => .error .exhausted
  | _, [] => .error .malformed
  | fuel + 1, c :: rest =>
    if c = '"' then do
      let (value, rest) ← readStr rest
      return (.str value, rest)
    else if c = '[' then
      match skipGap rest with
      | ']' :: rest => .ok (.array [], rest)
      | first => do
        let (items, rest) ← readItems fuel first
        return (.array items, rest)
    else if c = '\x7b' then
      match skipGap rest with
      | '\x7d' :: rest => .ok (.object [], rest)
      | first => do
        let (members, rest) ← readMembers fuel first
        return (collect members, rest)
    else
      match readWord (c :: rest) with
      | some reading => .ok reading
      | none => readNumber (c :: rest)

/-- The items of an array up to its end. -/
def readItems : ℕ → List Char → Except Flaw (List Document × List Char)
  | 0, _ => .error .exhausted
  | fuel + 1, chars => do
    let (item, rest) ← readValue fuel chars
    let (last, rest) ← readSeparator ']' rest
    if last then return ([item], rest)
    else
      let (items, rest) ← readItems fuel rest
      return (item :: items, rest)

/-- The members of an object up to its end. -/
def readMembers : ℕ → List Char → Except Flaw (List (Str × Document) × List Char)
  | 0, _ => .error .exhausted
  | fuel + 1, chars => do
    let (key, rest) ← readKey chars
    let (value, rest) ← readValue fuel rest
    let (last, rest) ← readSeparator '\x7d' rest
    if last then return ([(key, value)], rest)
    else
      let (members, rest) ← readMembers fuel rest
      return ((key, value) :: members, rest)

end

/-- A text with one document and nothing behind it; a byte order mark is not skipped. -/
def read (chars : List Char) : Except Flaw Document :=
  if chars.head? = some '\ufeff' then .error .malformed
  else do
    let (document, rest) ← readValue (2 * chars.length + 1) (skipGap chars)
    if skipGap rest = [] then return document else .error .malformed

end Document
