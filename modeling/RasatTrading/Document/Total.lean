import RasatTrading.Document.Read

/-! Reading a text always comes to an end: its fuel is never used up. -/

namespace Document

/-- A step of the reader that leaves fewer characters than it found, or finds a flaw of the text. -/
def Advances {α : Type} (bound : ℕ) : Except Flaw (α × List Char) → Prop
  | .ok (_, rest) => rest.length < bound
  | .error flaw => flaw ≠ .exhausted

variable {α β : Type} {inner bound : ℕ}

/-- Steps advance when the first one does, and each one that follows it. -/
theorem Advances.bind {first : Except Flaw (α × List Char)} {next : α × List Char → Except Flaw (β × List Char)}
    (start : Advances inner first) (go : ∀ value rest, rest.length < inner → Advances bound (next (value, rest))) :
    Advances bound (first >>= next) := by
  cases first with
  | error flaw => exact start
  | ok reading =>
    obtain ⟨value, rest⟩ := reading
    exact go value rest start

theorem length_skipGap (chars : List Char) : (skipGap chars).length ≤ chars.length :=
  (List.dropWhile_suffix isGap).length_le

/-- A string ends behind its closing quote. -/
theorem readCodes_shorter {chars : List Char} {codes : List ℕ} {rest : List Char}
    (read : readCodes chars = some (codes, rest)) : rest.length < chars.length := by
  -- Each branch reads on behind the characters that it names.
  fun_induction readCodes chars generalizing codes rest with
  | case1 | case3 | case5 | case7 => cases read
  | case2 => cases read; simp
  | case4 a b c d behind _ ih =>
    simp only [Option.bind_eq_bind, Option.bind_eq_some_iff] at read
    obtain ⟨_, -, ⟨found, after⟩, same, given⟩ := read
    have shorter := ih same
    cases given
    simp only [List.length_cons]
    omega
  | case6 letter behind _ _ ih =>
    simp only [Option.bind_eq_bind, Option.bind_eq_some_iff] at read
    obtain ⟨_, -, ⟨found, after⟩, same, given⟩ := read
    have shorter := ih same
    cases given
    simp only [List.length_cons]
    omega
  | case8 c behind _ _ _ ih =>
    simp only [Option.bind_eq_bind, Option.bind_eq_some_iff] at read
    obtain ⟨⟨found, after⟩, same, given⟩ := read
    have shorter := ih same
    cases given
    exact Nat.lt_succ_of_lt shorter

theorem readStr_advances (chars : List Char) : Advances chars.length (readStr chars) := by
  unfold readStr
  split
  · rename_i read
    exact readCodes_shorter read
  · exact nofun

theorem length_readDigits (chars : List Char) :
    (readDigits chars).1.length + (readDigits chars).2.length = chars.length := by
  unfold readDigits
  rw [List.span_eq_takeWhile_dropWhile, ← List.length_append, List.takeWhile_append_dropWhile]

theorem length_readSign (chars : List Char) : (readSign chars).2.length ≤ chars.length := by
  unfold readSign
  split <;> simp

/-- A number has at least one digit. -/
theorem readWhole_shorter {chars whole rest : List Char} (read : readWhole chars = some (whole, rest)) :
    rest.length < chars.length := by
  unfold readWhole at read
  split at read
  · cases read
    simp
  · split at read
    · cases read
    · rename_i filled
      have total := length_readDigits chars
      have present := List.length_pos_iff.mpr filled
      obtain ⟨-, rfl⟩ : (readDigits chars).1 = whole ∧ (readDigits chars).2 = rest := by
        simpa [Prod.ext_iff] using read
      omega

theorem length_readFraction (chars : List Char) : (readFraction chars).2.length ≤ chars.length := by
  unfold readFraction
  split
  · rename_i rest
    have total := length_readDigits rest
    split
    · simp
    · simp
      omega
  · simp

theorem length_readExponentSign (chars : List Char) : (readExponentSign chars).2.length ≤ chars.length := by
  unfold readExponentSign
  split
  · simp
  · exact length_readSign chars

theorem length_readExponent (chars : List Char) : (readExponent chars).2.length ≤ chars.length := by
  unfold readExponent
  split
  · rename_i c rest
    have sign := length_readExponentSign rest
    have total := length_readDigits (readExponentSign rest).2
    dsimp only
    split
    · split
      · exact Nat.le_refl _
      · show (readDigits (readExponentSign rest).2).2.length ≤ _
        rw [List.length_cons]
        omega
    · exact Nat.le_refl _
  · exact Nat.le_refl _

theorem readNumber_advances (chars : List Char) : Advances chars.length (readNumber chars) := by
  have sign := length_readSign chars
  unfold readNumber
  dsimp only
  split
  · exact nofun
  · rename_i whole rest read
    have shorter := readWhole_shorter read
    have fraction := length_readFraction rest
    have exponent := length_readExponent (readFraction rest).2
    -- Only a whole number can be too long.
    unfold Numeral.document
    split
    · show (readExponent (readFraction rest).2).2.length < _
      omega
    split
    · show (readExponent (readFraction rest).2).2.length < _
      omega
    · exact nofun

/-- A word is not empty. -/
theorem readWord_shorter {chars rest : List Char} {document : Document}
    (read : readWord chars = some (document, rest)) : rest.length < chars.length := by
  obtain ⟨word, listed, matched⟩ := List.exists_of_findSome?_eq_some read
  have filled : ∀ word ∈ words, 0 < word.1.length := by
    simp [words, nullWord, boolWord, nanWord, infinityWord]
  have long := filled word listed
  dsimp only at matched
  split at matched
  · rename_i starts
    have within := (List.isPrefixOf_iff_prefix.mp starts).length_le
    cases matched
    rw [List.length_drop]
    omega
  · cases matched

theorem readSeparator_advances (close : Char) (chars : List Char) :
    Advances chars.length (readSeparator close chars) := by
  have skipped := length_skipGap chars
  unfold readSeparator
  split
  · exact nofun
  · rename_i c rest same
    rw [same, List.length_cons] at skipped
    have behind := length_skipGap rest
    split
    · show rest.length < _
      omega
    split
    · show (skipGap rest).length < _
      omega
    · exact nofun

theorem readKey_advances (chars : List Char) : Advances chars.length (readKey chars) := by
  unfold readKey
  split
  · rename_i rest
    refine Advances.bind (readStr_advances rest) fun key behind shorter => ?_
    dsimp only
    split
    · rename_i after same
      have skipped := length_skipGap behind
      have last := length_skipGap after
      rw [same, List.length_cons] at skipped
      show (skipGap after).length < _
      rw [List.length_cons]
      omega
    · exact nofun
  · exact nofun

/-- With fuel for two steps a character, every part of the reader advances. -/
theorem reader_advances (fuel : ℕ) :
    (∀ chars, 2 * chars.length + 1 ≤ fuel → Advances chars.length (readValue fuel chars)) ∧
      (∀ chars, 2 * chars.length + 2 ≤ fuel → Advances chars.length (readItems fuel chars)) ∧
      (∀ chars, 2 * chars.length + 2 ≤ fuel → Advances chars.length (readMembers fuel chars)) := by
  induction fuel with
  | zero => exact ⟨fun _ enough => by omega, fun _ enough => by omega, fun _ enough => by omega⟩
  | succ fuel ih =>
    -- The three readers call each other, so the induction is on the fuel that they share.
    obtain ⟨values, items, members⟩ := ih
    refine ⟨?_, ?_, ?_⟩
    · intro chars enough
      cases chars with
      | nil => exact nofun
      | cons c rest =>
        -- The first character decides which reader goes on, and is consumed by it.
        have skipped := length_skipGap rest
        rw [List.length_cons] at enough
        rw [readValue, List.length_cons]
        split
        · refine Advances.bind (readStr_advances rest) fun value behind shorter => ?_
          exact Nat.lt_succ_of_lt shorter
        split
        · split
          · rename_i same
            rw [same, List.length_cons] at skipped
            exact Nat.lt_succ_of_lt skipped
          · refine Advances.bind (items _ (by omega)) fun value behind shorter => ?_
            exact Nat.lt_succ_of_lt (Nat.lt_of_lt_of_le shorter skipped)
        split
        · split
          · rename_i same
            rw [same, List.length_cons] at skipped
            exact Nat.lt_succ_of_lt skipped
          · refine Advances.bind (members _ (by omega)) fun value behind shorter => ?_
            exact Nat.lt_succ_of_lt (Nat.lt_of_lt_of_le shorter skipped)
        split
        · rename_i word
          exact readWord_shorter word
        · exact readNumber_advances _
    · intro chars enough
      rw [readItems]
      refine Advances.bind (values chars (by omega)) fun item rest shorter => ?_
      refine Advances.bind (readSeparator_advances _ rest) fun last behind less => ?_
      dsimp only
      split
      · exact less.trans shorter
      · refine Advances.bind (items behind (by omega)) fun others after fewer => ?_
        exact fewer.trans (less.trans shorter)
    · intro chars enough
      rw [readMembers]
      refine Advances.bind (readKey_advances chars) fun key rest shorter => ?_
      refine Advances.bind (values rest (by omega)) fun value behind less => ?_
      refine Advances.bind (readSeparator_advances _ behind) fun last after fewer => ?_
      dsimp only
      split
      · exact fewer.trans (less.trans shorter)
      · refine Advances.bind (members after (by omega)) fun others final least => ?_
        exact least.trans (fewer.trans (less.trans shorter))

/-- Reading a text never runs out of fuel. -/
theorem read_total (chars : List Char) : read chars ≠ .error .exhausted := by
  have skipped := length_skipGap chars
  have advances := (reader_advances (2 * chars.length + 1)).1 (skipGap chars) (by omega)
  unfold read
  split
  · exact nofun
  · cases result : readValue (2 * chars.length + 1) (skipGap chars) with
    | error flaw =>
      rw [result] at advances
      intro same
      exact advances (Except.error.inj same)
    | ok reading =>
      obtain ⟨document, rest⟩ := reading
      show (if skipGap rest = [] then Except.ok document else .error Flaw.malformed) ≠ _
      split <;> exact nofun

end Document
