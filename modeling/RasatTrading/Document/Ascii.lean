import RasatTrading.Document.RoundTrip

/-! Documents in plain ASCII: every other character is written by its number, lone surrogates too. -/

namespace Str

/-- The code points of a string. -/
def codes : Str → List ℕ
  | .text value => value.toList.map Char.toNat
  | .broken codes => codes

/-- No high surrogate stands right before a low one. -/
def apart : List ℕ → Bool
  | high :: low :: rest => !(Document.isHigh high && Document.isLow low) && apart (low :: rest)
  | _ => true

/-- Whether a reader of documents can have come upon the string. -/
def readable : Str → Bool
  | .text _ => true
  | .broken codes =>
    apart codes && codes.all (fun code => code < 0x110000) && codes.any fun code => ¬code.isValidChar

end Str

namespace Document

/-- The numbers that a code point is written by: a large one as a high and a low surrogate. -/
def units (code : ℕ) : List ℕ :=
  if code < 0x10000 then [code]
  else [0xD800 + (code - 0x10000) / 0x400, 0xDC00 + (code - 0x10000) % 0x400]

/-- A number of four hexadecimal digits behind its letter. -/
def unitEscape (unit : ℕ) : List Char := '\\' :: 'u' :: hex4 unit

/-- A code point inside a string. -/
def asciiEscape (code : ℕ) : List Char :=
  match shortEscapes.find? fun pair => pair.1.toNat = code with
  | some (_, letter) => ['\\', letter]
  -- What stands between the space and the tilde is written as it is.
  | none => if 32 ≤ code ∧ code < 127 then [Char.ofNat code] else (units code).flatMap unitEscape

/-- A string between its quotes. -/
def asciiStr (s : Str) : List Char := '"' :: s.codes.flatMap asciiEscape ++ ['"']

/-- The text of a document. -/
def asciiWrite (d : Document) : List Char := d.writeWith asciiStr

/-- A number of four digits is read back. -/
theorem readCodes_unit {unit : ℕ} (small : unit < 65536) (rest : List Char) :
    readCodes (unitEscape unit ++ rest) = (readCodes rest).map fun (codes, after) => (unit :: codes, after) := by
  obtain ⟨h₁, h₂, h₃, h₄, digits, read⟩ := hexCode_hex4 unit small
  unfold unitEscape
  rw [digits, List.cons_append, readCodes.eq_def]
  simp only [List.cons_append, List.nil_append, if_false, if_true, Char.reduceEq, read]
  cases readCodes rest <;> rfl

/-- A code point is read back as the numbers that stand for it. -/
theorem readCodes_ascii {code : ℕ} (small : code < 0x110000) (rest : List Char) :
    readCodes (asciiEscape code ++ rest) =
      (readCodes rest).map fun (codes, after) => (units code ++ codes, after) := by
  unfold asciiEscape
  cases found : shortEscapes.find? fun pair => pair.1.toNat = code with
  | some pair =>
    -- One of the seven characters with an escape of their own.
    have pairs : ∀ pair ∈ shortEscapes, pair.2 ≠ 'u' ∧ shortLetters.lookup pair.2 = some pair.1 ∧
        pair.1.toNat < 0x10000 := by decide
    obtain ⟨other, read, low⟩ := pairs pair (List.mem_of_find?_eq_some found)
    have same : pair.1.toNat = code := by simpa using List.find?_some found
    have alone : units code = [pair.1.toNat] := by rw [units, if_pos (same ▸ low), same]
    rw [alone]
    simp only
    rw [List.cons_append, readCodes.eq_def]
    simp only [List.cons_append, List.nil_append, other, read, if_false, if_true, Char.reduceEq]
    cases readCodes rest <;> rfl
  | none =>
    have others := List.find?_eq_none.mp found
    dsimp only
    split
    · rename_i plain
      have valid : (Char.ofNat code).toNat = code := by
        have proper : code.isValidChar := .inl (by omega)
        rw [Char.ofNat, dif_pos proper]
        rfl
      have unquoted : Char.ofNat code ≠ '"' := by
        rintro same
        have quote := others ('"', '"') (by decide)
        rw [← same, valid] at quote
        simp at quote
      have unescaped : Char.ofNat code ≠ '\\' := by
        rintro same
        have slash := others ('\\', '\\') (by decide)
        rw [← same, valid] at slash
        simp at slash
      have printable : ¬(Char.ofNat code).toNat < 32 := by omega
      have alone : units code = [code] := by rw [units, if_pos (by omega)]
      rw [List.singleton_append, readCodes.eq_def, alone]
      simp only [unquoted, unescaped, printable, if_false]
      rw [valid]
      cases readCodes rest <;> rfl
    · unfold units
      split
      · rename_i low
        rw [List.flatMap_singleton, readCodes_unit low]
        rfl
      · -- The two surrogates are read one after the other.
        simp only [List.flatMap_cons, List.flatMap_nil, List.append_nil, List.append_assoc]
        rw [readCodes_unit (by omega), readCodes_unit (by omega)]
        cases readCodes rest <;> rfl

/-- The code points of a string are read up to the closing quote. -/
theorem readCodes_asciied {codes : List ℕ} (small : ∀ code ∈ codes, code < 0x110000) (tail : List Char) :
    readCodes (codes.flatMap asciiEscape ++ '"' :: tail) = some (codes.flatMap units, tail) := by
  induction codes with
  | nil => simp [readCodes.eq_def]
  | cons code rest ih =>
    have others := ih fun other member => small other (List.mem_cons_of_mem _ member)
    rw [List.flatMap_cons, List.append_assoc, readCodes_ascii (small code (by simp)), others]
    rfl

/-- The numbers of a code point begin with it, or with a high surrogate that is followed by a low one. -/
theorem units_head (code : ℕ) (rest : List ℕ) :
    (code < 0x10000 ∧ units code ++ rest = code :: rest) ∨
      (0x10000 ≤ code ∧ units code ++ rest = (0xD800 + (code - 0x10000) / 0x400) ::
        (0xDC00 + (code - 0x10000) % 0x400) :: rest) := by
  unfold units
  split
  · exact .inl ⟨by assumption, rfl⟩
  · exact .inr ⟨by omega, rfl⟩

/-- The numbers of code points that stand apart are joined to the code points again. -/
theorem joinPairs_units {codes : List ℕ} (apart : Str.apart codes = true)
    (small : ∀ code ∈ codes, code < 0x110000) : joinPairs (codes.flatMap units) = codes := by
  induction codes with
  | nil => rfl
  | cons code rest ih =>
    have bounded := small code (by simp)
    have later : joinPairs (rest.flatMap units) = rest := by
      refine ih ?_ fun other member => small other (List.mem_cons_of_mem _ member)
      cases rest with
      | nil => rfl
      | cons low more =>
        simp only [Str.apart, Bool.and_eq_true] at apart
        exact apart.2
    rw [List.flatMap_cons]
    rcases units_head code (rest.flatMap units) with ⟨low, same⟩ | ⟨large, same⟩
    · rw [same]
      cases rest with
      | nil => rfl
      | cons second more =>
        -- The next number is no low surrogate behind this high one.
        have free : ∀ next others, (second :: more).flatMap units = next :: others →
            (isHigh code && isLow next) = false := by
          intro next others begins
          rw [List.flatMap_cons] at begins
          rcases units_head second (more.flatMap units) with ⟨-, head⟩ | ⟨beyond, head⟩
          · rw [head] at begins
            obtain ⟨rfl, -⟩ := List.cons.inj begins
            simp only [Str.apart, Bool.and_eq_true, Bool.not_eq_true'] at apart
            exact apart.1
          · rw [head] at begins
            obtain ⟨rfl, -⟩ := List.cons.inj begins
            have below := small second (by simp)
            have high : isLow (0xD800 + (second - 0x10000) / 0x400) = false := by
              simp only [isLow, Bool.and_eq_false_iff, decide_eq_false_iff_not]
              omega
            rw [high, Bool.and_false]
        cases begins : (second :: more).flatMap units with
        | nil =>
          rw [begins] at later
          cases later
        | cons next others =>
          rw [begins] at later
          rw [joinPairs, free next others begins]
          simp only [Bool.false_eq_true, if_false, later]
    · rw [same, joinPairs]
      have high : isHigh (0xD800 + (code - 0x10000) / 0x400) = true := by
        simp only [isHigh, Bool.and_eq_true, decide_eq_true_eq]
        omega
      have low : isLow (0xDC00 + (code - 0x10000) % 0x400) = true := by
        simp only [isLow, Bool.and_eq_true, decide_eq_true_eq]
        omega
      have whole : 0x10000 + (0xD800 + (code - 0x10000) / 0x400 - 0xD800) * 0x400 +
          (0xDC00 + (code - 0x10000) % 0x400 - 0xDC00) = code := by omega
      rw [high, low, later, whole]
      rfl

/-- Characters stand apart. -/
theorem apart_chars (chars : List Char) : Str.apart (chars.map Char.toNat) = true := by
  induction chars with
  | nil => rfl
  | cons c rest ih =>
    cases rest with
    | nil => rfl
    | cons d more =>
      rw [List.map_cons, List.map_cons, Str.apart, (not_surrogate c).1]
      simpa using ih

/-- A string is read up to its closing quote. -/
theorem quotes_asciiStr : Quotes asciiStr Str.readable := by
  intro s readable tail
  refine ⟨s.codes.flatMap asciiEscape ++ ['"'], rfl, ?_⟩
  unfold readStr
  rw [List.append_assoc, List.singleton_append]
  cases s with
  | text value =>
    have small : ∀ code ∈ value.toList.map Char.toNat, code < 0x110000 := by
      intro code member
      obtain ⟨c, -, rfl⟩ := List.mem_map.mp member
      have valid : c.toNat < 0xD800 ∨ 0xDFFF < c.toNat ∧ c.toNat < 0x110000 := c.valid
      omega
    rw [Str.codes, readCodes_asciied small]
    simp only [joinPairs_units (apart_chars _) small, assemble_chars, String.ofList_toList]
  | broken codes =>
    simp only [Str.readable, Bool.and_eq_true, List.all_eq_true, decide_eq_true_eq, List.any_eq_true] at readable
    obtain ⟨⟨apart, small⟩, lone, member, invalid⟩ := readable
    rw [Str.codes, readCodes_asciied small]
    simp only [joinPairs_units apart small, assemble]
    rw [if_neg fun all => invalid (all lone member)]

/-- A document whose strings a reader can have come upon is read back from its ASCII text. -/
theorem read_asciiWrite {d : Document} (short : d.short = true) (readable : d.fitting Str.readable = true)
    (distinct : d.distinct = true) : read d.asciiWrite = .ok d :=
  read_writeWith quotes_asciiStr short readable distinct

end Document
