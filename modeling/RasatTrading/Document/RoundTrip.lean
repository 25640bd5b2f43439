import RasatTrading.Document.Numbers

/-! Documents that are written are read back as they were, and stand on one line. -/

namespace Document

open Rounding

/-! Strings. -/

/-- A hexadecimal digit is read back. -/
theorem hexValue_digitChar {d : ℕ} (small : d < 16) : hexValue (Nat.digitChar d) = some d := by
  interval_cases d <;> rfl

/-- The number of a control character is read back. -/
theorem hexCode_hex4 (code : ℕ) (small : code < 65536) :
    ∃ a b c d, hex4 code = [a, b, c, d] ∧ hexCode a b c d = some code := by
  refine ⟨_, _, _, _, rfl, ?_⟩
  have a := hexValue_digitChar (d := code / 4096 % 16) (by omega)
  have b := hexValue_digitChar (d := code / 256 % 16) (by omega)
  have c := hexValue_digitChar (d := code / 16 % 16) (by omega)
  have d := hexValue_digitChar (d := code % 16) (by omega)
  -- The four digits put together are the number.
  have same : (code / 4096 % 16 * 16 + code / 256 % 16) * 256 + (code / 16 % 16 * 16 + code % 16) = code := by
    omega
  simp [hexCode, a, b, c, d, same]

/-- A character is read back, whatever follows it. -/
theorem readCodes_escape (c : Char) (rest : List Char) :
    readCodes (escape c ++ rest) = (readCodes rest).map fun (codes, after) => (c.toNat :: codes, after) := by
  unfold escape
  cases found : shortEscapes.lookup c with
  | some letter =>
    -- One of the seven characters with an escape of their own.
    have pairs : ∀ pair ∈ shortEscapes, pair.2 ≠ 'u' ∧ shortLetters.lookup pair.2 = some pair.1 := by decide
    obtain ⟨other, read⟩ := pairs (c, letter) (mem_of_lookup found)
    rw [List.cons_append, readCodes.eq_def]
    simp only [List.cons_append, List.nil_append, other, read, if_false, if_true, Char.reduceEq]
    cases readCodes rest <;> rfl
  | none =>
    have others := List.lookup_eq_none_iff.mp found
    have unquoted : c ≠ '"' := by simpa using others ('"', '"') (by decide)
    have unescaped : c ≠ '\\' := by simpa using others ('\\', '\\') (by decide)
    dsimp only
    split
    · rename_i control
      obtain ⟨h₁, h₂, h₃, h₄, digits, read⟩ := hexCode_hex4 c.toNat (by omega)
      rw [digits, List.cons_append, readCodes.eq_def]
      simp only [List.cons_append, List.nil_append, if_false, if_true, Char.reduceEq, read]
      cases readCodes rest <;> rfl
    · rename_i printable
      rw [List.singleton_append, readCodes.eq_def]
      simp only [unquoted, unescaped, printable, if_false]
      cases readCodes rest <;> rfl

/-- The characters of a string are read up to the closing quote. -/
theorem readCodes_escaped (chars tail : List Char) :
    readCodes (chars.flatMap escape ++ '"' :: tail) = some (chars.map Char.toNat, tail) := by
  induction chars with
  | nil => simp [readCodes.eq_def]
  | cons c rest ih =>
    rw [List.flatMap_cons, List.append_assoc, readCodes_escape, ih]
    rfl

/-- No character is a surrogate. -/
theorem not_surrogate (c : Char) : isHigh c.toNat = false ∧ isLow c.toNat = false := by
  have valid : c.toNat < 0xD800 ∨ 0xDFFF < c.toNat ∧ c.toNat < 0x110000 := c.valid
  simp only [isHigh, isLow, Bool.and_eq_false_iff, decide_eq_false_iff_not]
  omega

/-- Plain characters form no pairs. -/
theorem joinPairs_chars (chars : List Char) : joinPairs (chars.map Char.toNat) = chars.map Char.toNat := by
  induction chars with
  | nil => rfl
  | cons c rest ih =>
    cases rest with
    | nil => rfl
    | cons d more =>
      rw [List.map_cons, List.map_cons, joinPairs, (not_surrogate c).1]
      simpa using ih

/-- The codes of characters are a text. -/
theorem assemble_chars (chars : List Char) : assemble (chars.map Char.toNat) = .text (String.ofList chars) := by
  have valid : ∀ code ∈ chars.map Char.toNat, code.isValidChar := by
    intro code member
    obtain ⟨c, -, rfl⟩ := List.mem_map.mp member
    exact c.valid
  have same : (chars.map Char.toNat).map Char.ofNat = chars := by
    rw [List.map_map]
    exact List.map_id'' (fun c => Char.ofNat_toNat c) chars
  unfold assemble
  rw [if_pos valid, same]

/-- A string is read up to its closing quote. -/
theorem readStr_writeStr {s : Str} (encodable : s.encodable = true) (tail : List Char) :
    ∃ inner, writeStr s = '"' :: inner ∧ readStr (inner ++ tail) = .ok (s, tail) := by
  cases s with
  | broken codes => cases encodable
  | text value =>
    refine ⟨value.toList.flatMap escape ++ ['"'], rfl, ?_⟩
    unfold readStr
    rw [List.append_assoc, List.singleton_append, readCodes_escaped]
    simp only [joinPairs_chars, assemble_chars, String.ofList_toList]

/-! The first character of a document decides how it is read. -/

/-- A character that a document may start with; no space, no closing bracket and no byte order mark is one. -/
def Opens (c : Char) : Prop := isGap c = false ∧ c ≠ ']' ∧ c ≠ '\x7d' ∧ c ≠ '\ufeff'

instance (c : Char) : Decidable (Opens c) := inferInstanceAs (Decidable (_ ∧ _))

variable {n : Numeral}

/-- A number starts with a digit, or with a sign and a digit. -/
theorem Numeral.chars_head (proper : n.Proper) (tail : List Char) : ∃ c more, n.chars ++ tail = c :: more ∧
      (c.isDigit = true ∨ c = '-' ∧ ∃ d rest, more = d :: rest ∧ d.isDigit = true) := by
  obtain ⟨d, rest, same, digit⟩ := proper.whole.head (fractionChars n.fraction ++ exponentChars n.exponent ++ tail)
  have chars : n.chars ++ tail = sign n.negative ++ d :: rest := by
    rw [← same]
    simp [Numeral.chars]
  cases negative : n.negative with
  | true => exact ⟨'-', d :: rest, by simp [chars, negative, sign], .inr ⟨rfl, d, rest, rfl, digit⟩⟩
  | false => exact ⟨d, rest, by simp [chars, negative, sign], .inl digit⟩

/-- What a number starts with. -/
def NumberHead (c : Char) : Prop := c.isDigit = true ∨ c = '-'

variable {c : Char}

/-- A character that is neither a digit nor a sign starts no number. -/
theorem NumberHead.ne (number : NumberHead c) (other : Char) (plain : other.isDigit = false ∧ other ≠ '-') :
    c ≠ other := by
  rintro rfl
  rcases number with digit | sign
  · rw [plain.1] at digit
    cases digit
  · exact plain.2 sign

/-- A number opens a value. -/
theorem NumberHead.opens (number : NumberHead c) : Opens c := by
  refine ⟨?_, number.ne _ (by decide), number.ne _ (by decide), number.ne _ (by decide)⟩
  simp [isGap, number.ne ' ' (by decide), number.ne '\t' (by decide),
    number.ne '\n' (by decide), number.ne '\r' (by decide)]

/-- No number is a word. -/
theorem readWord_number (proper : n.Proper) (tail : List Char) : readWord (n.chars ++ tail) = none := by
  obtain ⟨c, more, same, head⟩ := n.chars_head proper tail
  have start : NumberHead c := head.imp_right And.left
  have other (letter : Char) (plain : letter.isDigit = false ∧ letter ≠ '-') : letter ≠ c :=
    (start.ne _ plain).symm
  have starts (letter : Char) (rest : List Char) (plain : letter.isDigit = false ∧ letter ≠ '-') :
      (letter :: rest).isPrefixOf (c :: more) = false := by
    simp [List.isPrefixOf, other letter plain]
  -- Only the word with a sign comes close to a number.
  have signed : ('-' :: infinityWord).isPrefixOf (c :: more) = false := by
    rcases head with digit | ⟨rfl, d, rest, rfl, digit⟩
    · have differs : '-' ≠ c := by
        rintro rfl
        cases digit
      simp [List.isPrefixOf, differs]
    · have differs : 'I' ≠ d := by
        rintro rfl
        cases digit
      simp [List.isPrefixOf, infinityWord, differs]
  rw [same]
  unfold readWord words
  simp only [List.findSome?_cons, List.findSome?_nil, nullWord, boolWord, nanWord, if_true, if_false,
    starts 'n' _ (by decide), starts 't' _ (by decide), starts 'f' _ (by decide), starts 'N' _ (by decide),
    Bool.false_eq_true, signed]
  simp only [infinityWord, starts 'I' _ (by decide), Bool.false_eq_true, if_false]

/-- A number is read as a document. -/
theorem readValue_number (proper : n.Proper) {document : Document} (denotes : n.document = .ok document)
    {tail : List Char} (ends : Ends tail) (fuel : ℕ) :
    readValue (fuel + 1) (n.chars ++ tail) = .ok (document, tail) := by
  have word := readWord_number proper tail
  have number := readNumber_chars proper ends
  obtain ⟨c, more, same, head⟩ := n.chars_head proper tail
  rw [same] at word number ⊢
  have start : NumberHead c := head.imp_right And.left
  rw [readValue]
  simp only [start.ne '"' (by decide), start.ne '[' (by decide),
    start.ne '\x7b' (by decide), if_false, word, number, denotes]
  rfl

/-- A word is read as its document. -/
theorem readValue_word (word : List Char) {document : Document} (listed : (word, document) ∈ words)
    (tail : List Char) (fuel : ℕ) : readValue (fuel + 1) (word ++ tail) = .ok (document, tail) := by
  simp only [words, List.mem_cons, List.not_mem_nil, or_false, Prod.mk.injEq] at listed
  rcases listed with ⟨rfl, rfl⟩ | ⟨rfl, rfl⟩ | ⟨rfl, rfl⟩ | ⟨rfl, rfl⟩ | ⟨rfl, rfl⟩ | ⟨rfl, rfl⟩ <;> rfl

/-! A document can be written with any way to write strings that the reader understands. -/

/-- A way to write strings is understood for the strings that fit: they stand between quotes and are
read up to the closing one. -/
def Quotes (quote : Str → List Char) (fits : Str → Bool) : Prop :=
  ∀ s, fits s = true → ∀ tail, ∃ inner, quote s = '"' :: inner ∧ readStr (inner ++ tail) = .ok (s, tail)

/-- Strings that can be encoded are quoted. -/
theorem quotes_writeStr : Quotes writeStr Str.encodable := fun _ encodable tail =>
  readStr_writeStr encodable tail

section

variable (quote : Str → List Char) (fits : Str → Bool)

mutual

/-- The text of a document under a way to write strings. -/
def writeWith : Document → List Char
  | .null => nullWord
  | .bool value => boolWord value
  | .int value => writeInt value
  | .float value => writeFloat value
  | .str value => quote value
  | .array [] => ['[', ']']
  | .array (first :: rest) => '[' :: (writeWith first ++ writeItemsWith rest)
  | .object [] => ['\x7b', '\x7d']
  | .object ((key, value) :: rest) =>
    '\x7b' :: (quote key ++ ':' :: ' ' :: (writeWith value ++ writeMembersWith rest))

/-- The items behind the first one, and the end of their array. -/
def writeItemsWith : List Document → List Char
  | [] => [']']
  | item :: rest => ',' :: ' ' :: (writeWith item ++ writeItemsWith rest)

/-- The members behind the first one, and the end of their object. -/
def writeMembersWith : List (Str × Document) → List Char
  | [] => ['\x7d']
  | (key, value) :: rest =>
    ',' :: ' ' :: (quote key ++ ':' :: ' ' :: (writeWith value ++ writeMembersWith rest))

end

mutual

/-- Whether all strings of a document fit. -/
def fitting : Document → Bool
  | .str value => fits value
  | .array items => fittingItems items
  | .object members => fittingMembers members
  | _ => true

def fittingItems : List Document → Bool
  | [] => true
  | item :: rest => item.fitting && fittingItems rest

def fittingMembers : List (Str × Document) → Bool
  | [] => true
  | (key, value) :: rest => fits key && value.fitting && fittingMembers rest

end

/-- The items of an array up to its end. -/
def itemsText : List Document → List Char
  | [] => []
  | first :: rest => first.writeWith quote ++ writeItemsWith quote rest

/-- The members of an object up to its end. -/
def membersText : List (Str × Document) → List Char
  | [] => []
  | (key, value) :: rest => quote key ++ ':' :: ' ' :: (value.writeWith quote ++ writeMembersWith quote rest)

end

mutual

/-- The plain text is the one under the plain way to write strings. -/
theorem write_eq : (d : Document) → d.write = d.writeWith writeStr
  | .null | .bool _ | .int _ | .float _ | .str _ | .array [] | .object [] => by simp [write, writeWith]
  | .array (first :: rest) => by simp [write, writeWith, write_eq first, writeItems_eq rest]
  | .object ((key, value) :: rest) => by simp [write, writeWith, write_eq value, writeMembers_eq rest]

theorem writeItems_eq : (items : List Document) → writeItems items = writeItemsWith writeStr items
  | [] => by simp [writeItems, writeItemsWith]
  | item :: rest => by simp [writeItems, writeItemsWith, write_eq item, writeItems_eq rest]

theorem writeMembers_eq : (members : List (Str × Document)) →
    writeMembers members = writeMembersWith writeStr members
  | [] => by simp [writeMembers, writeMembersWith]
  | (key, value) :: rest => by simp [writeMembers, writeMembersWith, write_eq value, writeMembers_eq rest]

end

mutual

/-- A document can be encoded when its strings fit the plain way to write them. -/
theorem encodable_eq : (d : Document) → d.encodable = d.fitting Str.encodable
  | .null | .bool _ | .int _ | .float _ | .str _ => by simp [encodable, fitting]
  | .array items => by simp [encodable, fitting, encodableItems_eq items]
  | .object members => by simp [encodable, fitting, encodableMembers_eq members]

theorem encodableItems_eq : (items : List Document) → encodableItems items = fittingItems Str.encodable items
  | [] => by simp [encodableItems, fittingItems]
  | item :: rest => by simp [encodableItems, fittingItems, encodable_eq item, encodableItems_eq rest]

theorem encodableMembers_eq : (members : List (Str × Document)) →
    encodableMembers members = fittingMembers Str.encodable members
  | [] => by simp [encodableMembers, fittingMembers]
  | (key, value) :: rest => by
    simp [encodableMembers, fittingMembers, encodable_eq value, encodableMembers_eq rest]

end

variable {d : Document}

section

variable {quote : Str → List Char} {fits : Str → Bool}

/-- A string is read as a document. -/
theorem readValue_str (quotes : Quotes quote fits) {s : Str} (encodable : fits s = true) (tail : List Char) (fuel : ℕ) :
    readValue (fuel + 1) (quote s ++ tail) = .ok (.str s, tail) := by
  obtain ⟨inner, quoted, read⟩ := quotes s encodable tail
  rw [quoted, List.cons_append, readValue]
  simp only [if_true, read]
  rfl

/-- What follows an item is a separator. -/
theorem ends_items (quote : Str → List Char) (rest : List Document) (tail : List Char) : Ends (writeItemsWith quote rest ++ tail) := by
  intro c first
  cases rest with
  | nil => exact .inr (.inl (Option.some.inj first).symm)
  | cons item rest =>
    rw [writeItemsWith] at first
    exact .inl (Option.some.inj first).symm

/-- Members are followed by an end. -/
theorem ends_members (quote : Str → List Char) (rest : List (Str × Document)) (tail : List Char) : Ends (writeMembersWith quote rest ++ tail) := by
  intro c first
  cases rest with
  | nil => exact .inr (.inr (Option.some.inj first).symm)
  | cons member rest =>
    rw [writeMembersWith] at first
    exact .inl (Option.some.inj first).symm

/-- No space is skipped before a document. -/
theorem skipGap_opens {c : Char} (opens : Opens c) (rest : List Char) : skipGap (c :: rest) = c :: rest := by
  simp [skipGap, opens.1]

/-- So does a quotation mark. -/
theorem opens_quote : Opens '"' := by decide

/-- A document does not start with a space or a closing bracket. -/
theorem writeWith_opens (quotes : Quotes quote fits) (encodable : d.fitting fits = true) :
    ∃ c rest, d.writeWith quote = c :: rest ∧ Opens c := by
  -- The reader tells the kinds of values apart by this character.
  cases d with
  | null => exact ⟨'n', _, rfl, by decide⟩
  | bool value =>
    cases value with
    | true => exact ⟨'t', _, rfl, by decide⟩
    | false => exact ⟨'f', _, rfl, by decide⟩
  | int value =>
    obtain ⟨c, more, same, head⟩ := (intNumeral value).chars_head (intNumeral_proper value) []
    rw [List.append_nil, intNumeral_chars] at same
    exact ⟨c, more, same, NumberHead.opens (head.imp_right And.left)⟩
  | float value =>
    cases value with
    | nan => exact ⟨'N', _, rfl, by decide⟩
    | infinite negative =>
      cases negative with
      | true => exact ⟨'-', _, rfl, by decide⟩
      | false => exact ⟨'I', _, rfl, by decide⟩
    | finite negative magnitude =>
      obtain ⟨c, more, same, head⟩ :=
        (floatNumeral negative magnitude).chars_head (floatNumeral_proper negative magnitude) []
      rw [List.append_nil, floatNumeral_chars] at same
      exact ⟨c, more, same, NumberHead.opens (head.imp_right And.left)⟩
  | str value =>
    obtain ⟨inner, quoted, -⟩ := quotes value encodable []
    exact ⟨'"', inner, quoted, opens_quote⟩
  | array items =>
    cases items with
    | nil => exact ⟨'[', _, rfl, by decide⟩
    | cons first rest => exact ⟨'[', _, by rw [writeWith], by decide⟩
  | object members =>
    cases members with
    | nil => exact ⟨'\x7b', _, rfl, by decide⟩
    | cons first rest => exact ⟨'\x7b', _, by rw [writeWith], by decide⟩

/-- Members with distinct keys are the members of their object. -/
theorem collect_distinct {members : List (Str × Document)} (distinct : (members.map Prod.fst).Nodup) :
    collect members = .object members := by
  -- Each member is new among those before it.
  have general : ∀ (later earlier : List (Str × Document)), ((earlier ++ later).map Prod.fst).Nodup →
      later.foldl store earlier = earlier ++ later := by
    intro later
    induction later with
    | nil => simp
    | cons member rest ih =>
      intro earlier nodup
      have fresh : member.1 ∉ earlier.map Prod.fst := by
        rw [List.map_append, List.nodup_append] at nodup
        intro listed
        exact nodup.2.2 _ listed _ (by simp) rfl
      rw [List.foldl_cons, store, if_neg fresh, ih (earlier ++ [member]) (by simpa using nodup)]
      simp
  unfold collect
  rw [general members [] (by simpa using distinct), List.nil_append]

/-- An array whose items are read is read. -/
theorem readValue_array {fuel : ℕ} {chars tail : List Char} {items : List Document}
    (opens : ∃ c rest, chars = c :: rest ∧ Opens c) (read : readItems fuel chars = .ok (items, tail)) :
    readValue (fuel + 1) ('[' :: chars) = .ok (.array items, tail) := by
  obtain ⟨c, rest, rfl, start⟩ := opens
  rw [readValue]
  simp only [Char.reduceEq, if_false, if_true, skipGap_opens start]
  split
  · -- The first item is no closing bracket.
    rename_i closed
    exact absurd (List.cons.inj closed).1 start.2.1
  · rw [read]
    rfl

/-- An object whose members are read is read. -/
theorem readValue_object {fuel : ℕ} {chars tail : List Char} {members : List (Str × Document)}
    (opens : ∃ c rest, chars = c :: rest ∧ Opens c) (read : readMembers fuel chars = .ok (members, tail)) :
    readValue (fuel + 1) ('\x7b' :: chars) = .ok (collect members, tail) := by
  obtain ⟨c, rest, rfl, start⟩ := opens
  rw [readValue]
  simp only [Char.reduceEq, if_false, if_true, skipGap_opens start]
  split
  · -- The first member is no closing bracket.
    rename_i closed
    exact absurd (List.cons.inj closed).1 start.2.2.1
  · rw [read]
    rfl

/-- Behind the last item an array ends. -/
theorem readSeparator_close (close : Char) (plain : isGap close = false) (tail : List Char) :
    readSeparator close (close :: tail) = .ok (true, tail) := by
  simp [readSeparator, skipGap, plain]

/-- Behind any other item comes a comma, and the space behind it is skipped. -/
theorem readSeparator_comma (close : Char) (other : ',' ≠ close) {rest : List Char}
    (opens : ∃ c more, rest = c :: more ∧ Opens c) :
    readSeparator close (',' :: ' ' :: rest) = .ok (false, rest) := by
  obtain ⟨c, more, rfl, start⟩ := opens
  have plain : isGap ',' = false := rfl
  have space : isGap ' ' = true := rfl
  simp [readSeparator, skipGap, plain, space, other, start.1]

/-- A key is read with the colon and the space behind it. -/
theorem readKey_quoted (quotes : Quotes quote fits) {key : Str} (encodable : fits key = true) {rest : List Char}
    (opens : ∃ c more, rest = c :: more ∧ Opens c) :
    readKey (quote key ++ ':' :: ' ' :: rest) = .ok (key, rest) := by
  obtain ⟨inner, quoted, read⟩ := quotes key encodable (':' :: ' ' :: rest)
  obtain ⟨c, more, rfl, start⟩ := opens
  have colon : isGap ':' = false := rfl
  have space : isGap ' ' = true := rfl
  rw [quoted, List.cons_append]
  unfold readKey
  simp only [read, bind, Except.bind, skipGap, List.dropWhile_cons, colon, space, start.1, if_true,
    Bool.false_eq_true, if_false]
  rfl

/-- A text that begins with a document begins with its first character. -/
theorem opens_append (quotes : Quotes quote fits) (encodable : d.fitting fits = true) (rest : List Char) :
    ∃ c more, d.writeWith quote ++ rest = c :: more ∧ Opens c := by
  obtain ⟨c, more, same, start⟩ := writeWith_opens quotes encodable
  exact ⟨c, more ++ rest, by rw [same]; rfl, start⟩

mutual

/-- A document is read up to its end. -/
theorem readValue_written (quotes : Quotes quote fits) : (d : Document) → d.short = true → d.fitting fits = true → d.distinct = true →
    (fuel : ℕ) → 2 * (d.writeWith quote).length ≤ fuel → {tail : List Char} → Ends tail →
    readValue fuel (d.writeWith quote ++ tail) = .ok (d, tail)
  | d, short, encodable, distinct, 0, enough, tail, ends => by
    -- No document is written as nothing.
    obtain ⟨c, rest, same, -⟩ := writeWith_opens quotes encodable
    rw [same, List.length_cons] at enough
    omega
  | .null, _, _, _, fuel + 1, _, tail, _ =>
    readValue_word nullWord (by simp [words]) tail fuel
  | .bool true, _, _, _, fuel + 1, _, tail, _ =>
    readValue_word (boolWord true) (by simp [words]) tail fuel
  | .bool false, _, _, _, fuel + 1, _, tail, _ =>
    readValue_word (boolWord false) (by simp [words]) tail fuel
  | .int value, short, _, _, fuel + 1, _, tail, ends => by
    have read := readValue_number (intNumeral_proper value) (intNumeral_document short) ends fuel
    rwa [intNumeral_chars] at read
  | .float .nan, _, _, _, fuel + 1, _, tail, _ =>
    readValue_word nanWord (by simp [words]) tail fuel
  | .float (.infinite true), _, _, _, fuel + 1, _, tail, _ =>
    readValue_word ('-' :: infinityWord) (by simp [words]) tail fuel
  | .float (.infinite false), _, _, _, fuel + 1, _, tail, _ =>
    readValue_word infinityWord (by simp [words]) tail fuel
  | .float (.finite negative magnitude), _, _, _, fuel + 1, _, tail, ends => by
    have read := readValue_number (floatNumeral_proper negative magnitude)
      (floatNumeral_document negative magnitude) ends fuel
    rwa [floatNumeral_chars] at read
  | .str value, _, encodable, _, fuel + 1, _, tail, _ => readValue_str quotes encodable tail fuel
  | .array [], _, _, _, fuel + 1, _, tail, _ => rfl
  | .array (first :: rest), short, encodable, distinct, fuel + 1, enough, tail, _ => by
    have head : first.fitting fits = true := by
      simp only [Document.fitting, fittingItems, Bool.and_eq_true] at encodable
      exact encodable.1
    simp only [writeWith, List.length_cons] at enough
    have read := readItems_written quotes (first :: rest) (by simp) short encodable distinct fuel
      (by simp only [itemsText]; omega) tail
    rw [writeWith, List.cons_append]
    refine readValue_array ?_ read
    rw [List.append_assoc]
    exact opens_append quotes head _
  | .object [], _, _, _, fuel + 1, _, tail, _ => rfl
  | .object ((key, value) :: rest), short, encodable, distinct, fuel + 1, enough, tail, _ => by
    simp only [Document.distinct, Bool.and_eq_true, decide_eq_true_eq] at distinct
    have named : fits key = true := by
      simp only [Document.fitting, fittingMembers, Bool.and_eq_true] at encodable
      exact encodable.1.1
    simp only [writeWith, List.length_cons] at enough
    have read := readMembers_written quotes ((key, value) :: rest) (by simp) short encodable distinct.2 fuel
      (by simp only [membersText]; omega) tail
    rw [writeWith, List.cons_append, ← collect_distinct distinct.1]
    refine readValue_object ?_ read
    obtain ⟨inner, quoted, -⟩ := quotes key named []
    exact ⟨'"', _, by rw [quoted]; rfl, opens_quote⟩

/-- The items of an array are read up to its end. -/
theorem readItems_written (quotes : Quotes quote fits) : (items : List Document) → items ≠ [] → shortItems items = true →
    fittingItems fits items = true → distinctItems items = true → (fuel : ℕ) →
    2 * (itemsText quote items).length + 1 ≤ fuel → (tail : List Char) →
    readItems fuel (itemsText quote items ++ tail) = .ok (items, tail)
  | [], filled, _, _, _, _, _, _ => absurd rfl filled
  | first :: rest, _, short, encodable, distinct, fuel, enough, tail => by
    simp only [shortItems, fittingItems, distinctItems, Bool.and_eq_true] at short encodable distinct
    simp only [itemsText, List.length_append] at enough
    obtain ⟨fuel, rfl⟩ : ∃ smaller, fuel = smaller + 1 := ⟨fuel - 1, by omega⟩
    have read := readValue_written quotes first short.1 encodable.1 distinct.1 fuel (by omega)
      (ends_items quote rest tail)
    rw [itemsText, List.append_assoc, readItems]
    simp only [read, bind, Except.bind]
    cases rest with
    | nil =>
      simp only [writeItemsWith, List.cons_append, List.nil_append, readSeparator_close ']' rfl]
      rfl
    | cons second more =>
      have others := readItems_written quotes (second :: more) (by simp) short.2 encodable.2 distinct.2 fuel
        (by simp only [writeItemsWith, List.length_cons] at enough; simp only [itemsText]; omega) tail
      simp only [fittingItems, Bool.and_eq_true] at encodable
      have opens := opens_append quotes encodable.2.1 (writeItemsWith quote more ++ tail)
      simp only [writeItemsWith, List.cons_append, List.append_assoc, readSeparator_comma ']' (by decide) opens,
        Bool.false_eq_true, if_false]
      rw [itemsText, List.append_assoc] at others
      rw [others]
      rfl

/-- The members of an object are read up to its end. -/
theorem readMembers_written (quotes : Quotes quote fits) : (members : List (Str × Document)) → members ≠ [] → shortMembers members = true →
    fittingMembers fits members = true → distinctMembers members = true → (fuel : ℕ) →
    2 * (membersText quote members).length + 1 ≤ fuel → (tail : List Char) →
    readMembers fuel (membersText quote members ++ tail) = .ok (members, tail)
  | [], filled, _, _, _, _, _, _ => absurd rfl filled
  | (key, value) :: rest, _, short, encodable, distinct, fuel, enough, tail => by
    simp only [shortMembers, fittingMembers, distinctMembers, Bool.and_eq_true] at short encodable distinct
    simp only [membersText, List.length_append, List.length_cons] at enough
    obtain ⟨fuel, rfl⟩ : ∃ smaller, fuel = smaller + 1 := ⟨fuel - 1, by omega⟩
    have read := readValue_written quotes value short.1 encodable.1.2 distinct.1 fuel (by omega)
      (ends_members quote rest tail)
    have named := readKey_quoted quotes encodable.1.1 (opens_append quotes encodable.1.2 (writeMembersWith quote rest ++ tail))
    rw [membersText, List.append_assoc, List.cons_append, List.cons_append, List.append_assoc, readMembers]
    simp only [named, read, bind, Except.bind]
    cases rest with
    | nil =>
      simp only [writeMembersWith, List.cons_append, List.nil_append, readSeparator_close '\x7d' rfl]
      rfl
    | cons second more =>
      obtain ⟨secondKey, secondValue⟩ := second
      have others := readMembers_written quotes ((secondKey, secondValue) :: more) (by simp) short.2 encodable.2 distinct.2
        fuel
        (by simp only [writeMembersWith, List.length_cons] at enough; simp only [membersText]; omega) tail
      simp only [fittingMembers, Bool.and_eq_true] at encodable
      have opens : ∃ c more', membersText quote ((secondKey, secondValue) :: more) ++ tail = c :: more' ∧ Opens c := by
        obtain ⟨inner, quoted, -⟩ := quotes secondKey encodable.2.1.1 []
        exact ⟨'"', _, by rw [membersText, quoted]; rfl, opens_quote⟩
      simp only [membersText, List.append_assoc, List.cons_append] at opens others
      simp only [writeMembersWith, List.cons_append, List.append_assoc,
        readSeparator_comma '\x7d' (by decide) opens, Bool.false_eq_true, if_false]
      rw [others]
      rfl

end

end

/-- A document whose strings fit is read back from its text. -/
theorem read_writeWith {quote : Str → List Char} {fits : Str → Bool} (quotes : Quotes quote fits)
    (short : d.short = true) (fitting : d.fitting fits = true)
    (distinct : d.distinct = true) : read (d.writeWith quote) = .ok d := by
  obtain ⟨c, rest, same, opens⟩ := writeWith_opens quotes fitting
  have ends : Ends [] := by
    intro c first
    cases first
  have whole := readValue_written quotes d short fitting distinct (2 * (d.writeWith quote).length + 1)
    (by omega) ends
  have gap : skipGap (d.writeWith quote) = d.writeWith quote := by rw [same, skipGap_opens opens]
  unfold read
  rw [gap, if_neg (by rw [same]; simpa using opens.2.2.2)]
  rw [List.append_nil] at whole
  rw [whole]
  rfl

/-- A document that can be written is read back from its text. -/
theorem read_write (short : d.short = true) (encodable : d.encodable = true)
    (distinct : d.distinct = true) : read (write d) = .ok d := by
  rw [write_eq]
  exact read_writeWith quotes_writeStr short (encodable_eq d ▸ encodable) distinct

/-! A document stands on one line. -/

/-- A character that is no control character. -/
def Printable (c : Char) : Prop := 32 ≤ c.toNat

instance (c : Char) : Decidable (Printable c) := inferInstanceAs (Decidable (_ ≤ _))

/-- Digits are printable, -/
theorem printable_digit (digit : c.isDigit = true) : Printable c := by
  have low : 48 ≤ c.toNat := by
    simp only [Char.isDigit, Bool.and_eq_true, decide_eq_true_eq] at digit
    exact digit.1
  exact Nat.le_trans (by decide) low

/-- hexadecimal ones too, -/
theorem printable_digitChar {d : ℕ} (small : d < 16) : Printable (Nat.digitChar d) := by
  interval_cases d <;> decide

/-- Whatever a string has in it, nothing that is written of it is a control character. -/
theorem printable_escape {d : Char} (member : d ∈ escape c) : Printable d := by
  unfold escape at member
  cases found : shortEscapes.lookup c with
  | some letter =>
    have letters : ∀ pair ∈ shortEscapes, Printable pair.2 := by decide
    rw [found] at member
    simp only [List.mem_cons, List.not_mem_nil, or_false] at member
    rcases member with rfl | rfl
    · decide
    · exact letters (c, d) (mem_of_lookup found)
  | none =>
    rw [found] at member
    dsimp only at member
    split at member
    · simp only [hex4, List.mem_cons, List.not_mem_nil, or_false] at member
      rcases member with rfl | rfl | rfl | rfl | rfl | rfl
      · decide
      · decide
      all_goals exact printable_digitChar (by omega)
    · rename_i printable
      obtain rfl := List.mem_singleton.mp member
      unfold Printable
      omega

/-- and all that is written of a string, -/
theorem printable_writeStr {s : Str} (member : c ∈ writeStr s) : Printable c := by
  cases s with
  | broken codes => cases member
  | text value =>
    simp only [writeStr, List.mem_append, List.mem_cons, List.mem_flatMap, List.not_mem_nil, or_false] at member
    rcases member with (rfl | ⟨original, -, inside⟩) | rfl
    · decide
    · exact printable_escape inside
    · decide

/-- of a sign, -/
theorem printable_sign {negative : Bool} (member : c ∈ sign negative) : Printable c := by
  cases negative with
  | true =>
    obtain rfl := List.mem_singleton.mp member
    decide
  | false => cases member

/-- A number is written with digits, signs, a point and a letter. -/
theorem Numeral.printable (proper : n.Proper) (member : c ∈ n.chars) : Printable c := by
  simp only [Numeral.chars, List.mem_append] at member
  rcases member with inSign | inWhole | inFraction | inExponent
  · exact printable_sign inSign
  · exact printable_digit (proper.whole.1.2 c inWhole)
  · cases fraction : n.fraction with
    | none =>
      rw [fraction] at inFraction
      cases inFraction
    | some digits =>
      rw [fraction] at inFraction
      rcases List.mem_cons.mp inFraction with rfl | inside
      · decide
      · exact printable_digit ((proper.fraction digits fraction).2 c inside)
  · cases exponent : n.exponent with
    | none =>
      rw [exponent] at inExponent
      cases inExponent
    | some part =>
      obtain ⟨negative, digits⟩ := part
      rw [exponent] at inExponent
      simp only [exponentChars, List.mem_cons] at inExponent
      rcases inExponent with rfl | rfl | inside
      · decide
      · cases negative <;> decide
      · exact printable_digit ((proper.exponent (negative, digits) exponent).2 c inside)

/-- of a word, -/
theorem printable_words :
    ∀ c ∈ nullWord ++ boolWord true ++ boolWord false ++ nanWord ++ infinityWord, Printable c := by
  have all : (nullWord ++ boolWord true ++ boolWord false ++ nanWord ++ infinityWord).all
      (fun c => decide (Printable c)) = true := by decide
  intro c member
  exact of_decide_eq_true (List.all_eq_true.mp all c member)

/-- and of a float. -/
theorem printable_writeFloat {value : Double} (member : c ∈ writeFloat value) : Printable c := by
  cases value with
  | nan => exact printable_words c (by simp [show c ∈ nanWord from member])
  | infinite negative =>
    rcases List.mem_append.mp member with inSign | inWord
    · exact printable_sign inSign
    · exact printable_words c (by simp [inWord])
  | finite negative magnitude =>
    rw [← floatNumeral_chars] at member
    exact Numeral.printable (floatNumeral_proper negative magnitude) member

mutual

/-- No text of a document has a control character in it. -/
theorem printable_write : (d : Document) → c ∈ write d → Printable c
  | .null, member => printable_words c (by simp [show c ∈ nullWord from member])
  | .bool true, member => printable_words c (by simp [show c ∈ boolWord true from member])
  | .bool false, member => printable_words c (by simp [show c ∈ boolWord false from member])
  | .int value, member => by
    rw [write, ← intNumeral_chars] at member
    exact Numeral.printable (intNumeral_proper value) member
  | .float value, member => printable_writeFloat member
  | .str value, member => printable_writeStr member
  | .array [], member => by
    simp only [write, List.mem_cons, List.not_mem_nil, or_false] at member
    rcases member with rfl | rfl <;> decide
  | .array (first :: rest), member => by
    simp only [write, List.mem_cons, List.mem_append] at member
    rcases member with rfl | inFirst | inRest
    · decide
    · exact printable_write first inFirst
    · exact printable_writeItems rest inRest
  | .object [], member => by
    simp only [write, List.mem_cons, List.not_mem_nil, or_false] at member
    rcases member with rfl | rfl <;> decide
  | .object ((key, value) :: rest), member => by
    simp only [write, List.mem_cons, List.mem_append] at member
    rcases member with rfl | inKey | rfl | rfl | inValue | inRest
    · decide
    · exact printable_writeStr inKey
    · decide
    · decide
    · exact printable_write value inValue
    · exact printable_writeMembers rest inRest

theorem printable_writeItems : (items : List Document) → c ∈ writeItems items → Printable c
  | [], member => by
    simp only [writeItems, List.mem_cons, List.not_mem_nil, or_false] at member
    obtain rfl := member
    decide
  | item :: rest, member => by
    simp only [writeItems, List.mem_cons, List.mem_append] at member
    rcases member with rfl | rfl | inItem | inRest
    · decide
    · decide
    · exact printable_write item inItem
    · exact printable_writeItems rest inRest

theorem printable_writeMembers : (members : List (Str × Document)) → c ∈ writeMembers members → Printable c
  | [], member => by
    simp only [writeMembers, List.mem_cons, List.not_mem_nil, or_false] at member
    obtain rfl := member
    decide
  | (key, value) :: rest, member => by
    simp only [writeMembers, List.mem_cons, List.mem_append] at member
    rcases member with rfl | rfl | inKey | rfl | rfl | inValue | inRest
    · decide
    · decide
    · exact printable_writeStr inKey
    · decide
    · decide
    · exact printable_write value inValue
    · exact printable_writeMembers rest inRest

end

/-- The members behind the first one end with the closing brace of their object. -/
theorem writeMembers_closed : (members : List (Str × Document)) → ∃ inner, writeMembers members = inner ++ ['\x7d']
  | [] => ⟨[], rfl⟩
  | (key, value) :: rest => by
    obtain ⟨inner, closed⟩ := writeMembers_closed rest
    exact ⟨',' :: ' ' :: (writeStr key ++ ':' :: ' ' :: (write value ++ inner)), by simp [writeMembers, closed]⟩

/-- An object stands between its braces. -/
theorem write_object (members : List (Str × Document)) :
    ∃ inner, write (.object members) = '\x7b' :: inner ++ ['\x7d'] := by
  cases members with
  | nil => exact ⟨[], rfl⟩
  | cons first rest =>
    obtain ⟨inner, closed⟩ := writeMembers_closed rest
    exact ⟨writeStr first.1 ++ ':' :: ' ' :: (write first.2 ++ inner), by simp [write, closed]⟩

end Document
