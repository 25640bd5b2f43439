import Mathlib.Data.List.DropRight
import RasatTrading.Errors

/-! Text as the daemon's language handles it, and arguments before they are validated. -/

namespace Rasat

/-- Renderings of the standard library whose exact text decides nothing in the modelled code. -/
structure Text where
  /-- The text of a float. -/
  float : ℚ → String
  /-- A float with eight decimals. -/
  fixed8 : ℚ → String
  /-- A quoted string. -/
  repr : String → String
  /-- `float(text)`: absent when it raises, otherwise absent inside for NaN and infinities. -/
  parseFloat : String → Option (Option ℚ)
  /-- `str.isalnum` on one character. -/
  isAlnum : Char → Bool
  /-- The hexadecimal SHA-1 digest of a string's UTF-8 encoding. -/
  sha1Hex : String → String

/-- Columns of texts that may be NULL are compared by their values. -/
instance lawfulBEqOptionString : LawfulBEq (Option String) := inferInstance

/-- The characters that `str.strip` removes. -/
def isSpace (c : Char) : Bool :=
  let n := c.toNat
  (9 ≤ n && n ≤ 13) || (28 ≤ n && n ≤ 32) || n == 0x85 || n == 0xA0 || n == 0x1680 ||
    (0x2000 ≤ n && n ≤ 0x200A) || n == 0x2028 || n == 0x2029 || n == 0x202F || n == 0x205F ||
    n == 0x3000

/-- `str.strip`. -/
def strip (s : String) : String :=
  String.ofList ((s.toList.dropWhile isSpace).rdropWhile isSpace)

/-- The characters outside ASCII whose uppercase is plain ASCII, with that uppercase. -/
def asciiUppercases : List (Nat × List Char) :=
  [(0x131, ['I']), (0x17F, ['S']), (0xDF, ['S', 'S']), (0xFB00, ['F', 'F']), (0xFB01, ['F', 'I']),
    (0xFB02, ['F', 'L']), (0xFB03, ['F', 'F', 'I']), (0xFB04, ['F', 'F', 'L']),
    (0xFB05, ['S', 'T']), (0xFB06, ['S', 'T'])]

/-- The uppercase of one character, for the characters whose uppercase is plain ASCII. -/
def upperChar (c : Char) : List Char := (asciiUppercases.lookup c.toNat).getD [c.toUpper]

/-- `str.upper`, exact wherever its result is plain ASCII. -/
def upper (s : String) : String := String.ofList (s.toList.flatMap upperChar)

/-- `str.lower`, exact wherever its result is plain ASCII. -/
def lower (s : String) : String :=
  -- The Kelvin sign is the one letter outside ASCII whose lowercase is a single ASCII letter.
  String.ofList (s.toList.map fun c => if c.toNat = 0x212A then 'k' else c.toLower)

/-- Bytes decode to a text exactly when they are its encoding. -/
theorem decoded_iff {content : ByteArray} {text : String} :
    String.fromUTF8? content = some text ↔ text.toByteArray = content := by
  unfold String.fromUTF8?
  constructor
  · intro decoded
    split at decoded
    · cases decoded
      rfl
    · cases decoded
  · rintro rfl
    rw [dif_pos text.isValidUTF8]
    rfl

/-- Stripping a stripped string changes nothing. -/
theorem strip_strip (s : String) : strip (strip s) = strip s := by
  -- After both ends are trimmed, neither end starts with a space again.
  unfold strip
  rw [String.toList_ofList]
  refine congrArg String.ofList ?_
  generalize trimmed : s.toList.dropWhile isSpace = chars
  have front : (chars.rdropWhile isSpace).dropWhile isSpace = chars.rdropWhile isSpace := by
    cases located : chars.rdropWhile isSpace with
    | nil => rfl
    | cons head tail =>
      have first : chars.head? = some head := by
        have lead := List.rdropWhile_prefix isSpace chars
        rw [located] at lead
        obtain ⟨suffix, same⟩ := lead
        rw [← same]
        rfl
      have solid : isSpace head = false := by
        rw [← trimmed] at first
        have := List.head?_dropWhile_not isSpace s.toList
        rw [first] at this
        simpa using this
      simp [solid]
  rw [front, List.rdropWhile_idempotent]

/-- The code of an uppercase letter lies 32 below that of its lowercase letter. -/
theorem toNat_toUpper (c : Char) :
    c.toUpper.toNat = if 97 ≤ c.toNat ∧ c.toNat ≤ 122 then c.toNat - 32 else c.toNat := by
  have bounds : ('a'.val ≤ c.val ∧ c.val ≤ 'z'.val) ↔ (97 ≤ c.toNat ∧ c.toNat ≤ 122) := by
    simp only [UInt32.le_iff_toNat_le]
    rfl
  unfold Char.toUpper
  by_cases small : 'a'.val ≤ c.val ∧ c.val ≤ 'z'.val
  · rw [dif_pos small, if_pos (bounds.mp small)]
    have low := (bounds.mp small).1
    have high := (bounds.mp small).2
    show (c.val + ('A'.val - 'a'.val)).toNat = _
    have shift : ('A'.val - 'a'.val).toNat = 4294967264 := by decide
    rw [UInt32.toNat_add, shift]
    have same : c.val.toNat = c.toNat := rfl
    omega
  · rw [dif_neg small, if_neg (fun in_range => small (bounds.mpr in_range))]

/-- The characters whose uppercase is looked up, as numbers. -/
theorem lookup_none {n : Nat} (missing : asciiUppercases.lookup n = none) :
    n ≠ 0x131 ∧ n ≠ 0x17F ∧ n ≠ 0xDF ∧ (n < 0xFB00 ∨ 0xFB06 < n) := by
  by_contra listed
  have found : n = 0x131 ∨ n = 0x17F ∨ n = 0xDF ∨ n = 0xFB00 ∨ n = 0xFB01 ∨ n = 0xFB02 ∨ n = 0xFB03 ∨
      n = 0xFB04 ∨ n = 0xFB05 ∨ n = 0xFB06 := by
    omega
  revert missing
  rcases found with rfl | rfl | rfl | rfl | rfl | rfl | rfl | rfl | rfl | rfl <;> decide

/-- The letters of the looked-up uppercases stay as they are. -/
theorem upper_letters : ∀ d ∈ ['I', 'S', 'F', 'L', 'T'], isSpace d = false ∧ upperChar d = [d] := by
  simp only [List.forall_mem_cons]
  exact ⟨⟨rfl, rfl⟩, ⟨rfl, rfl⟩, ⟨rfl, rfl⟩, ⟨rfl, rfl⟩, ⟨rfl, rfl⟩, by simp⟩

/-- A looked-up uppercase is made of letters that stay as they are. -/
theorem lookup_some {n : Nat} {chars : List Char} (found : asciiUppercases.lookup n = some chars) :
    (n = 0x131 ∨ n = 0x17F ∨ n = 0xDF ∨ 0xFB00 ≤ n) ∧ chars ≠ [] ∧
      ∀ d ∈ chars, isSpace d = false ∧ upperChar d = [d] := by
  have numbers : ∀ entry ∈ asciiUppercases,
      entry.1 = 0x131 ∨ entry.1 = 0x17F ∨ entry.1 = 0xDF ∨ 0xFB00 ≤ entry.1 := by
    simp [asciiUppercases]
  have letters : ∀ entry ∈ asciiUppercases,
      entry.2 ≠ [] ∧ ∀ d ∈ entry.2, d ∈ ['I', 'S', 'F', 'L', 'T'] := by
    simp [asciiUppercases]
  obtain ⟨before, after, split, -⟩ := List.lookup_eq_some_iff.mp found
  have listed : (n, chars) ∈ asciiUppercases := split ▸ List.mem_append_right _ List.mem_cons_self
  exact ⟨numbers _ listed, (letters _ listed).1, fun d member =>
    upper_letters d ((letters _ listed).2 d member)⟩

/-- Uppercasing a letter gives no space unless it is one, and uppercase letters stay as they are. -/
theorem upperChar_spec (c : Char) :
    upperChar c ≠ [] ∧ (isSpace c = true → upperChar c = [c]) ∧
      (isSpace c = false → ∀ d ∈ upperChar c, isSpace d = false) ∧
      ∀ d ∈ upperChar c, upperChar d = [d] := by
  cases found : asciiUppercases.lookup c.toNat with
  | some chars =>
    obtain ⟨code, solid, letters⟩ := lookup_some found
    have own : upperChar c = chars := by simp [upperChar, found]
    refine ⟨own ▸ solid, fun space => ?_, fun _ d member => (letters d (own ▸ member)).1,
      fun d member => (letters d (own ▸ member)).2⟩
    -- None of the looked-up characters is a space.
    exfalso
    simp [isSpace] at space
    omega
  | none =>
    have code := lookup_none found
    have own : upperChar c = [c.toUpper] := by simp [upperChar, found]
    have shifted := toNat_toUpper c
    have again : upperChar c.toUpper = [c.toUpper] := by
      have unlisted : asciiUppercases.lookup c.toUpper.toNat = none := by
        by_cases small : 97 ≤ c.toNat ∧ c.toNat ≤ 122
        · -- A plain uppercase letter is below every looked-up code.
          rw [if_pos small] at shifted
          have low : ∀ entry ∈ asciiUppercases, 90 < entry.1 := by decide
          refine List.lookup_eq_none_iff.mpr fun entry member => ?_
          have := low entry member
          simp only [bne_iff_ne]
          omega
        · rw [shifted, if_neg small]
          exact found
      have fixed : c.toUpper.toUpper = c.toUpper := by
        apply Char.ext
        apply UInt32.toNat_inj.mp
        show c.toUpper.toUpper.toNat = c.toUpper.toNat
        rw [toNat_toUpper c.toUpper]
        split <;> [skip; rfl]
        rename_i small
        rw [shifted] at small
        split at small <;> omega
      simp [upperChar, unlisted, fixed]
    rw [own]
    refine ⟨by simp, fun space => ?_, fun solid d member => ?_, fun d member => ?_⟩
    · have same : c.toUpper = c := by
        apply Char.ext
        apply UInt32.toNat_inj.mp
        show c.toUpper.toNat = c.toNat
        rw [shifted]
        simp [isSpace] at space
        split <;> omega
      rw [same]
    · obtain rfl := List.mem_singleton.mp member
      simp only [isSpace, shifted] at solid ⊢
      simp at solid ⊢
      split <;> omega
    · obtain rfl := List.mem_singleton.mp member
      exact again

/-- Dropping leading spaces commutes with a change of characters that makes and removes none. -/
theorem dropWhile_flatMap (change : Char → List Char) (spaces : ∀ c, isSpace c = true → change c = [c])
    (solids : ∀ c, isSpace c = false → change c ≠ [] ∧ ∀ d ∈ change c, isSpace d = false) (chars : List Char) :
    (chars.flatMap change).dropWhile isSpace = (chars.dropWhile isSpace).flatMap change := by
  induction chars with
  | nil => rfl
  | cons c rest ih =>
    cases kind : isSpace c with
    | true => simp [spaces c kind, kind, ih]
    | false =>
      obtain ⟨filled, solid⟩ := solids c kind
      obtain ⟨d, ds, split⟩ := List.exists_cons_of_ne_nil filled
      have first : isSpace d = false := solid d (split ▸ List.mem_cons_self)
      simp [kind, split, first]

/-- Uppercasing and stripping commute. -/
theorem strip_upper (s : String) : strip (upper s) = upper (strip s) := by
  have front : ∀ chars : List Char,
      (chars.flatMap upperChar).dropWhile isSpace = (chars.dropWhile isSpace).flatMap upperChar :=
    dropWhile_flatMap upperChar (fun c => (upperChar_spec c).2.1)
      fun c solid => ⟨(upperChar_spec c).1, (upperChar_spec c).2.2.1 solid⟩
  have back : ∀ chars : List Char,
      (chars.flatMap upperChar).rdropWhile isSpace = (chars.rdropWhile isSpace).flatMap upperChar := by
    intro chars
    -- From the back it is the same change with each uppercase reversed.
    have mirrored := dropWhile_flatMap (fun c => (upperChar c).reverse)
      (fun c space => by simp [(upperChar_spec c).2.1 space])
      (fun c solid => ⟨by simpa using (upperChar_spec c).1, fun d member =>
        (upperChar_spec c).2.2.1 solid d (by simpa using member)⟩) chars.reverse
    simp only [List.rdropWhile]
    rw [List.reverse_flatMap, show List.reverse ∘ upperChar = fun c => (upperChar c).reverse from rfl,
      mirrored, List.flatMap_reverse]
    rfl
  simp only [strip, upper, String.toList_ofList, front, back]

/-- Uppercasing twice is uppercasing once. -/
theorem upper_upper (s : String) : upper (upper s) = upper s := by
  simp only [upper, String.toList_ofList, List.flatMap_assoc]
  refine congrArg String.ofList (List.flatMap_congr fun c _ => ?_)
  conv_rhs => rw [← List.flatMap_singleton' (upperChar c)]
  exact List.flatMap_congr fun d member => (upperChar_spec c).2.2.2 d member

/-- A text that was stripped and put into upper case stays as it is. -/
theorem upper_strip_canonical (s : String) : upper (strip (upper (strip s))) = upper (strip s) := by
  rw [strip_upper, strip_strip, upper_upper]

/-- An argument of a call before it is validated. -/
inductive Arg
  | absent
  | bool (value : Bool)
  | number (value : ℚ)
  /-- NaN or an infinity. -/
  | nonFinite
  /-- An integer too large for a float. -/
  | hugeInt
  | text (value : String)
  /-- A list or a dictionary. -/
  | container
  deriving DecidableEq

/-- Whether the argument is `None`. -/
def Arg.isAbsent : Arg → Bool
  | .absent => true
  | _ => false

/-- `_require_string`: a string that is not blank, stripped. -/
def requireString (value : Arg) (name : String) : Except Exc String :=
  match value with
  | .text s =>
    if strip s = "" then reject .invalidRequest (name ++ " is required (string)")
    else .ok (strip s)
  | _ => reject .invalidRequest (name ++ " is required (string)")

/-- `_require_number`: a finite number. -/
def requireNumber (text : Text) (value : Arg) (name : String) : Except Exc ℚ :=
  match value with
  | .absent | .bool _ => reject .invalidRequest (name ++ " is required (number)")
  | .number n => .ok n
  | .nonFinite => reject .invalidRequest (name ++ " must be a finite number")
  | .hugeInt => .error (.other "int too large to convert to float")
  | .text s =>
    match text.parseFloat s with
    | none => reject .invalidRequest (name ++ " must be a number")
    | some none => reject .invalidRequest (name ++ " must be a finite number")
    | some (some n) => .ok n
  | .container => reject .invalidRequest (name ++ " must be a number")

/-- A number or `None` as an argument. -/
def Arg.ofOption (value : Option ℚ) : Arg := value.elim .absent .number

/-- A number that may be absent. -/
def optionalNumber (text : Text) (value : Arg) (name : String) : Except Exc (Option ℚ) :=
  if value.isAbsent then .ok none else (requireNumber text value name).map some

/-- The last digits of a number in hexadecimal, most significant first. -/
def hexDigits : Nat → Nat → List Char
  | 0, _ => []
  | count + 1, n => hexDigits count (n / 16) ++ [Nat.digitChar (n % 16)]

/-- `uuid4().hex`: 32 hexadecimal digits. -/
def uuidHex (n : Nat) : String := String.ofList (hexDigits 32 n)

end Rasat
