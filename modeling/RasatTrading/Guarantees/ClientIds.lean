import RasatTrading.Orders.Record

/-! The client order ids of the order service: their form, and that keys do not share them. -/

namespace Rasat

/-- A character of the exchange's client order ids. -/
def isIdChar (c : Char) : Bool := c.isAlphanum || c ∈ ['.', '_', '-']

/-- `^[A-Za-z0-9._-]{1,36}$`. -/
def WellFormedId (id : String) : Prop :=
  1 ≤ id.toList.length ∧ id.toList.length ≤ 36 ∧ ∀ c ∈ id.toList, isIdChar c

/-- What the standard library documents of `str.isalnum` and of a SHA-1 digest in hexadecimal. -/
structure Documented (text : Text) : Prop where
  /-- Among ASCII characters the letters and the digits are alphanumeric. -/
  alnum : ∀ c : Char, c.toNat < 128 → text.isAlnum c = c.isAlphanum
  /-- A digest has forty hexadecimal digits. -/
  length : ∀ key, (text.sha1Hex key).toList.length = 40
  digits : ∀ key, ∀ c ∈ (text.sha1Hex key).toList, c.isAlphanum

/-- The characters of a key that the sanitizer keeps. -/
def keptChars (text : Text) (key : String) : List Char :=
  key.toList.filter fun c => text.isAlnum c || c ∈ ['.', '_', '-']

/-- The readable part of an id. -/
def idStem (text : Text) (key : String) : List Char :=
  if keptChars text key = [] then "idem".toList else (keptChars text key).take 24

/-- The part of the digest that an id shows. -/
def idDigest (text : Text) (key : String) : List Char := (text.sha1Hex key).toList.take 11

variable {text : Text} {key other : String}

/-- An id is its readable part, a hyphen and the digest. -/
theorem toClientOrderId_toList (text : Text) (key : String) :
    (toClientOrderId text key).toList = idStem text key ++ '-' :: idDigest text key := by
  -- The three parts are put together as strings, and read as characters.
  simp only [toClientOrderId, idStem, idDigest, keptChars, String.toList_append, String.toList_ofList]
  simp

/-- Every id shows eleven digits of the digest. -/
theorem idDigest_length (documented : Documented text) (key : String) : (idDigest text key).length = 11 := by
  rw [idDigest, List.length_take, documented.length]
  rfl

/-- The readable part has one to twenty-four characters. -/
theorem idStem_length (text : Text) (key : String) :
    1 ≤ (idStem text key).length ∧ (idStem text key).length ≤ 24 := by
  unfold idStem
  split
  · decide
  · rename_i filled
    have some_ := List.length_pos_iff.mpr filled
    rw [List.length_take]
    omega

/-- Outside ASCII no character belongs to an id. -/
theorem ascii_of_isIdChar {c : Char} (allowed : isIdChar c) : c.toNat < 128 := by
  -- Every range that is allowed ends within ASCII.
  unfold isIdChar Char.isAlphanum Char.isAlpha Char.isUpper Char.isLower Char.isDigit at allowed
  simp only [Bool.or_eq_true, Bool.and_eq_true, decide_eq_true_eq, List.mem_cons, List.not_mem_nil,
    or_false, UInt32.le_iff_toNat_le] at allowed
  have value : c.toNat = c.val.toNat := rfl
  rcases allowed with ((⟨-, above⟩ | ⟨-, above⟩) | ⟨-, above⟩) | rfl | rfl | rfl
  all_goals first | decide | (rw [value]; refine lt_of_le_of_lt above ?_; decide)

/-- Among ASCII characters the sanitizer keeps the ones of the exchange. -/
theorem kept_iff (documented : Documented text) {c : Char} (ascii : c.toNat < 128) :
    (text.isAlnum c || decide (c ∈ ['.', '_', '-'])) = isIdChar c := by
  rw [documented.alnum c ascii]
  rfl

/-- The readable part is well formed exactly when the characters that it takes from the key are ASCII. -/
theorem idStem_chars_iff (documented : Documented text) (key : String) :
    (∀ c ∈ idStem text key, isIdChar c) ↔ ∀ c ∈ (keptChars text key).take 24, c.toNat < 128 := by
  unfold idStem
  split
  · -- Without a character that is kept the readable part is a fixed word.
    rename_i none
    rw [none]
    simp only [List.take_nil, List.not_mem_nil, false_implies, implies_true, iff_true]
    exact List.all_eq_true.mp (by decide +kernel)
  · constructor
    · exact fun allowed c member => ascii_of_isIdChar (allowed c member)
    · intro ascii c member
      have kept := (List.mem_filter.mp (List.mem_of_mem_take member)).2
      rw [← kept_iff documented (ascii c member)]
      exact kept

/-- An id is well formed exactly when the characters that it takes from the key are ASCII. -/
theorem wellFormedId_iff (documented : Documented text) (key : String) :
    WellFormedId (toClientOrderId text key) ↔ ∀ c ∈ (keptChars text key).take 24, c.toNat < 128 := by
  rw [← idStem_chars_iff documented]
  unfold WellFormedId
  rw [toClientOrderId_toList]
  -- At most twenty-four characters, a hyphen and eleven digits make thirty-six.
  have stem := idStem_length text key
  have digest := idDigest_length documented key
  constructor
  · rintro ⟨-, -, allowed⟩ c member
    exact allowed c (List.mem_append_left _ member)
  · intro allowed
    refine ⟨?_, ?_, ?_⟩
    · rw [List.length_append]
      omega
    · rw [List.length_append, List.length_cons]
      omega
    · intro c member
      rcases List.mem_append.mp member with inStem | behind
      · exact allowed c inStem
      · rcases List.mem_cons.mp behind with rfl | inDigest
        · rfl
        · -- Hexadecimal digits are letters or digits of ASCII.
          have digit := documented.digits key c (List.mem_of_mem_take inDigest)
          unfold isIdChar
          rw [digit]
          rfl

/-- Equal ids show equal digests. -/
theorem idDigest_of_id (documented : Documented text)
    (same : toClientOrderId text key = toClientOrderId text other) :
    idDigest text key = idDigest text other := by
  have chars := congrArg String.toList same
  rw [toClientOrderId_toList, toClientOrderId_toList] at chars
  -- Both digests are the last eleven characters.
  have tails := (List.append_inj' chars (by simp [idDigest_length documented])).2
  exact (List.cons.inj tails).2

/-- Two keys whose digests collide only when they are the same have well-formed and distinct ids exactly
when the first twenty-four characters kept of each are ASCII. -/
theorem client_order_ids_iff (documented : Documented text)
    (collisionFree : idDigest text key = idDigest text other → key = other) :
    (WellFormedId (toClientOrderId text key) ∧ WellFormedId (toClientOrderId text other) ∧
        (key ≠ other → toClientOrderId text key ≠ toClientOrderId text other)) ↔
      (∀ c ∈ (keptChars text key).take 24, c.toNat < 128) ∧
        ∀ c ∈ (keptChars text other).take 24, c.toNat < 128 := by
  rw [wellFormedId_iff documented, wellFormedId_iff documented]
  constructor
  · exact fun both => ⟨both.1, both.2.1⟩
  · -- Distinct keys differ in the digest, and equal ids would show equal digests.
    intro ascii
    refine ⟨ascii.1, ascii.2, fun differ same => differ ?_⟩
    exact collisionFree (idDigest_of_id documented same)

/-- The digests of two keys, and the letters of a third. -/
def keyText : Text where
  float := fun value => toString value.num
  fixed8 := fun value => toString value.num
  repr := id
  parseFloat := fun _ => none
  isAlnum := fun c => c.isAlphanum || c = 'é'
  sha1Hex := fun key =>
    if key = "btc-1" then "170cc93eeb3d676cb3529ad5ca980bd9964bb722"
    else if key = "btc-2" then "af8e65838e2cf0d28397435d732d23d9788aad7c"
    else "f0756def836f165f2ea47edf08f2539f3c427d86"

theorem keyText_documented : Documented keyText where
  alnum := by
    intro c ascii
    have other : c ≠ 'é' := by
      rintro rfl
      revert ascii
      decide
    simp [keyText, other]
  length := by
    intro key
    simp only [keyText]
    split_ifs <;> rfl
  digits := by
    intro key
    simp only [keyText]
    split_ifs <;> exact List.all_eq_true.mp (by decide +kernel)

/-- Two plain keys. -/
theorem plain_keys_iff :
    (WellFormedId (toClientOrderId keyText "btc-1") ∧ WellFormedId (toClientOrderId keyText "btc-2") ∧
        ("btc-1" ≠ "btc-2" → toClientOrderId keyText "btc-1" ≠ toClientOrderId keyText "btc-2")) ↔
      (∀ c ∈ (keptChars keyText "btc-1").take 24, c.toNat < 128) ∧
        ∀ c ∈ (keptChars keyText "btc-2").take 24, c.toNat < 128 :=
  client_order_ids_iff keyText_documented fun same => absurd same (by decide)

/-- A key with a letter outside ASCII has an id that the exchange does not accept. -/
theorem accented_key_malformed : ¬WellFormedId (toClientOrderId keyText "élan") := by
  -- The letter is alphanumeric in Unicode, so the sanitizer keeps it.
  rw [wellFormedId_iff keyText_documented]
  intro ascii
  have accented : 'é' ∈ (keptChars keyText "élan").take 24 := by decide +kernel
  exact absurd (ascii 'é' accented) (by decide)

end Rasat
