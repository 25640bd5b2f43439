import RasatTrading.Document.Canonical
import RasatTrading.Document.Numbers

/-! What was read can be written again: no key stands twice, and no whole number is too long. -/

namespace Document

/-- No whole number is too long, and no object has a key twice. -/
structure Proper (document : Document) : Prop where
  short : document.short = true
  distinct : document.distinct = true

theorem proper_array {items : List Document} : Proper (.array items) ↔ ∀ item ∈ items, Proper item := by
  induction items with
  | nil => exact iff_of_true ⟨rfl, rfl⟩ (List.forall_mem_nil _)
  | cons item rest ih =>
    rw [List.forall_mem_cons, ← ih]
    constructor
    · rintro ⟨short, distinct⟩
      obtain ⟨first, others⟩ := Bool.and_eq_true_iff.mp short
      obtain ⟨apart, differ⟩ := Bool.and_eq_true_iff.mp distinct
      exact ⟨⟨first, apart⟩, others, differ⟩
    · rintro ⟨⟨first, apart⟩, others, differ⟩
      exact ⟨Bool.and_eq_true_iff.mpr ⟨first, others⟩, Bool.and_eq_true_iff.mpr ⟨apart, differ⟩⟩

variable {members : List (Str × Document)}

/-- An object is short when its members are. -/
theorem shortMembers_iff : shortMembers members = true ↔ ∀ member ∈ members, member.2.short = true := by
  induction members with
  | nil => exact iff_of_true rfl (List.forall_mem_nil _)
  | cons first rest ih => rw [shortMembers, Bool.and_eq_true, ih, List.forall_mem_cons]

/-- The keys in members are distinct when those in each are. -/
theorem distinctMembers_iff :
    distinctMembers members = true ↔ ∀ member ∈ members, member.2.distinct = true := by
  induction members with
  | nil => exact iff_of_true rfl (List.forall_mem_nil _)
  | cons first rest ih => rw [distinctMembers, Bool.and_eq_true, ih, List.forall_mem_cons]

theorem proper_object :
    Proper (.object members) ↔ (members.map Prod.fst).Nodup ∧ ∀ member ∈ members, Proper member.2 := by
  constructor
  · rintro ⟨short, distinct⟩
    rw [Document.distinct, Bool.and_eq_true, distinctMembers_iff] at distinct
    rw [Document.short, shortMembers_iff] at short
    exact ⟨of_decide_eq_true distinct.1, fun member listed => ⟨short member listed, distinct.2 member listed⟩⟩
  · rintro ⟨apart, proper⟩
    refine ⟨shortMembers_iff.mpr fun member listed => (proper member listed).short, ?_⟩
    rw [Document.distinct, Bool.and_eq_true, distinctMembers_iff]
    exact ⟨decide_eq_true apart, fun member listed => (proper member listed).distinct⟩

/-! Storing members. -/

/-- A stored member leaves the keys as they are, or adds its own behind them. -/
theorem store_keys (members : List (Str × Document)) (member : Str × Document) :
    (store members member).map Prod.fst =
      if member.1 ∈ members.map Prod.fst then members.map Prod.fst else members.map Prod.fst ++ [member.1] := by
  unfold store
  split
  · rw [List.map_map]
    refine List.map_congr_left fun other _ => ?_
    rw [Function.comp_apply]
    split
    · rename_i same
      exact same.symm
    · rfl
  · rw [List.map_append, List.map_singleton]

/-- So no key is there twice. -/
theorem store_nodup {member : Str × Document} (apart : (members.map Prod.fst).Nodup) :
    ((store members member).map Prod.fst).Nodup := by
  rw [store_keys]
  split
  · exact apart
  · rename_i fresh
    rw [List.nodup_append]
    refine ⟨apart, List.nodup_singleton _, ?_⟩
    rintro key old other new rfl
    rw [List.mem_singleton] at new
    exact fresh (new ▸ old)

/-- The members are the stored one and some of the others. -/
theorem forall_store {holds : Str × Document → Prop} {member : Str × Document} (own : holds member)
    (others : ∀ other ∈ members, holds other) : ∀ other ∈ store members member, holds other := by
  intro other listed
  unfold store at listed
  split at listed
  · obtain ⟨old, there, rfl⟩ := List.mem_map.mp listed
    split
    · exact own
    · exact others old there
  · rcases List.mem_append.mp listed with old | new
    · exact others other old
    · exact List.mem_singleton.mp new ▸ own

/-- The object of some proper members is proper, however often a key stands among them. -/
theorem proper_collect (proper : ∀ member ∈ members, Proper member.2) : Proper (collect members) := by
  -- The members stored so far are proper and have different keys.
  have stored : ∀ start : List (Str × Document), Proper (.object start) →
      Proper (.object (members.foldl store start)) := by
    induction members with
    | nil => exact fun _ holds => holds
    | cons first rest ih =>
      rw [List.forall_mem_cons] at proper
      intro start holds
      obtain ⟨apart, values⟩ := proper_object.mp holds
      exact ih proper.2 _ (proper_object.mpr ⟨store_nodup apart, forall_store proper.1 values⟩)
  exact stored [] ⟨rfl, rfl⟩

/-! Reading. -/

/-- A step of the reader that answers nothing but good values. -/
def Gives {α : Type} (good : α → Prop) : Except Flaw (α × List Char) → Prop
  | .ok (value, _) => good value
  | .error _ => True

variable {α β : Type} {good : α → Prop} {better : β → Prop}

theorem Gives.bind {first : Except Flaw (α × List Char)} {next : α × List Char → Except Flaw (β × List Char)}
    (start : Gives good first) (go : ∀ value rest, good value → Gives better (next (value, rest))) :
    Gives better (first >>= next) := by
  cases first with
  | error flaw => trivial
  | ok reading => exact go _ _ start

/-- Where nothing is asked of a value, every step will do. -/
theorem gives_any (first : Except Flaw (α × List Char)) : Gives (fun _ => True) first := by
  cases first <;> trivial

/-- Digits denote less than the power of ten of their number. -/
theorem digitsValue_lt {digits : List Char} (run : ∀ c ∈ digits, c.isDigit = true) :
    digitsValue digits < 10 ^ digits.length := by
  unfold digitsValue
  induction digits with
  | nil => exact Nat.one_pos
  | cons c rest ih =>
    rw [List.forall_mem_cons] at run
    have later := ih run.2
    have small : c.toNat - '0'.toNat < 10 := by
      have digit := run.1
      simp only [Char.isDigit, Bool.and_eq_true, decide_eq_true_eq] at digit
      have below : c.toNat ≤ 57 := digit.2
      show c.toNat - 48 < 10
      omega
    rw [Nat.ofDigitChars_cons, Nat.ofDigitChars_eq_ofDigitChars_zero, List.length_cons, pow_succ, Nat.mul_zero,
      Nat.zero_add]
    calc 10 ^ rest.length * (c.toNat - '0'.toNat) + Nat.ofDigitChars 10 rest 0
      _ < 10 ^ rest.length * (c.toNat - '0'.toNat) + 10 ^ rest.length := Nat.add_lt_add_left later _
      _ = 10 ^ rest.length * (c.toNat - '0'.toNat + 1) := (Nat.mul_succ _ _).symm
      _ ≤ 10 ^ rest.length * 10 := Nat.mul_le_mul_left _ small

/-- What stands before the point is a run of digits. -/
theorem readWhole_digits {chars whole rest : List Char} (read : readWhole chars = some (whole, rest)) :
    ∀ c ∈ whole, c.isDigit = true := by
  unfold readWhole at read
  split at read
  · cases read
    intro c listed
    rw [List.mem_singleton.mp listed]
    rfl
  · split at read
    · cases read
    · have front : chars.takeWhile Char.isDigit = whole := by
        have same : (readDigits chars).1 = whole := congrArg Prod.fst (Option.some.inj read)
        rw [← same, readDigits, List.span_eq_takeWhile_dropWhile]
      intro c listed
      rw [← front] at listed
      exact List.mem_takeWhile_imp listed

/-- A whole number that is too long is a flaw. -/
theorem readNumber_gives (chars : List Char) : Gives Proper (readNumber chars) := by
  unfold readNumber
  dsimp only
  split
  · trivial
  · rename_i whole rest read
    unfold Numeral.document
    split
    · exact ⟨rfl, rfl⟩
    · split
      · rename_i few
        refine ⟨shortInt_iff.mpr ?_, rfl⟩
        have size : (signed (readSign chars).1 (digitsValue whole)).natAbs = digitsValue whole := by
          unfold signed
          split <;> simp
        rw [size]
        exact (digitsValue_lt (readWhole_digits read)).trans_le (Nat.pow_le_pow_right (by decide) few)
      · trivial

/-- Words stand for proper values. -/
theorem readWord_proper {chars rest : List Char} {document : Document}
    (read : readWord chars = some (document, rest)) : Proper document := by
  obtain ⟨word, listed, matched⟩ := List.exists_of_findSome?_eq_some read
  have proper : ∀ word ∈ words, Proper word.2 := by
    simp only [words, List.forall_mem_cons]
    exact ⟨⟨rfl, rfl⟩, ⟨rfl, rfl⟩, ⟨rfl, rfl⟩, ⟨rfl, rfl⟩, ⟨rfl, rfl⟩, ⟨rfl, rfl⟩, List.forall_mem_nil _⟩
  have own := proper word listed
  dsimp only at matched
  split at matched
  · cases matched
    exact own
  · cases matched

/-- Every part of the reader gives proper values. -/
theorem reader_gives (fuel : ℕ) :
    (∀ chars, Gives Proper (readValue fuel chars)) ∧
      (∀ chars, Gives (fun items => ∀ item ∈ items, Proper item) (readItems fuel chars)) ∧
      ∀ chars, Gives (fun members => ∀ member ∈ members, Proper member.2) (readMembers fuel chars) := by
  induction fuel with
  | zero => exact ⟨fun _ => trivial, fun _ => trivial, fun _ => trivial⟩
  | succ fuel ih =>
    -- The three readers call each other, so the induction is on the fuel that they share.
    obtain ⟨values, items, members⟩ := ih
    refine ⟨?_, ?_, ?_⟩
    · intro chars
      cases chars with
      | nil => trivial
      | cons c rest =>
        rw [readValue]
        split
        · exact (gives_any (readStr rest)).bind fun _ _ _ => ⟨rfl, rfl⟩
        split
        · split
          · exact ⟨rfl, rfl⟩
          · exact (items _).bind fun _ _ proper => proper_array.mpr proper
        split
        · split
          · exact ⟨rfl, rfl⟩
          · exact (members _).bind fun _ _ proper => proper_collect proper
        split
        · rename_i word
          exact readWord_proper word
        · exact readNumber_gives _
    · intro chars
      rw [readItems]
      refine (values chars).bind fun item rest first => ?_
      refine (gives_any (readSeparator ']' rest)).bind fun last behind _ => ?_
      dsimp only
      split
      · exact List.forall_mem_singleton.mpr first
      · exact (items behind).bind fun others after proper => List.forall_mem_cons.mpr ⟨first, proper⟩
    · intro chars
      rw [readMembers]
      refine (gives_any (readKey chars)).bind fun key rest _ => ?_
      refine (values rest).bind fun value behind first => ?_
      refine (gives_any (readSeparator '\x7d' behind)).bind fun last after _ => ?_
      dsimp only
      split
      · exact List.forall_mem_singleton.mpr first
      · exact (members after).bind fun others final proper => List.forall_mem_cons.mpr ⟨first, proper⟩

/-- A document that was read is proper. -/
theorem read_proper {chars : List Char} {document : Document} (read : Document.read chars = .ok document) :
    Proper document := by
  have gives := (reader_gives (2 * chars.length + 1)).1 (skipGap chars)
  unfold Document.read at read
  split at read
  · cases read
  · cases result : readValue (2 * chars.length + 1) (skipGap chars) with
    | error flaw =>
      rw [result] at read
      cases read
    | ok reading =>
      obtain ⟨value, rest⟩ := reading
      rw [result] at read gives
      have same : (if skipGap rest = [] then Except.ok value else Except.error Flaw.malformed) = .ok document := read
      split at same
      · cases same
        exact gives
      · cases same

/-! As values of the program. -/

theorem rawMembers_keys (members : List (Str × Document)) :
    (rawMembers members).map Prod.fst = (members.map Prod.fst).map Key.str := by
  induction members with
  | nil => rfl
  | cons first rest ih =>
    obtain ⟨key, value⟩ := first
    rw [rawMembers, List.map_cons, ih, List.map_cons, List.map_cons]

theorem encodableMembers_iff : encodableMembers members = true ↔
    ∀ member ∈ members, member.1.encodable = true ∧ member.2.encodable = true := by
  induction members with
  | nil => exact iff_of_true rfl (List.forall_mem_nil _)
  | cons first rest ih =>
    obtain ⟨key, value⟩ := first
    rw [encodableMembers, Bool.and_eq_true, Bool.and_eq_true, ih, List.forall_mem_cons]

mutual

/-- The texts of a document are those of its value. -/
theorem raw_encodable : (document : Document) → document.raw.encodable = document.encodable
  | .null | .bool _ | .int _ | .float _ | .str _ => rfl
  | .array items => rawItems_encodable items
  | .object members => by
    show (((rawMembers members).map Prod.fst).all Key.encodable && Raw.everyMember _ _ _) = encodableMembers members
    rw [rawMembers_keys, List.all_map, List.all_map]
    exact rawMembers_encodable members

theorem rawItems_encodable : (items : List Document) →
    Raw.everyItem Raw.encodablePart (fun keys => keys.all Key.encodable) (rawItems items) = encodableItems items
  | [] => rfl
  | item :: rest => by
    rw [rawItems, Raw.everyItem, encodableItems, rawItems_encodable rest]
    exact congrArg (· && encodableItems rest) (raw_encodable item)

theorem rawMembers_encodable : (members : List (Str × Document)) →
    ((members.all fun member => member.1.encodable) &&
      Raw.everyMember Raw.encodablePart (fun keys => keys.all Key.encodable) (rawMembers members)) =
        encodableMembers members
  | [] => rfl
  | (key, value) :: rest => by
    have first : Raw.everywhere Raw.encodablePart (fun keys => keys.all Key.encodable) value.raw = value.encodable :=
      raw_encodable value
    rw [rawMembers, Raw.everyMember, encodableMembers, List.all_cons, ← rawMembers_encodable rest, first]
    ac_rfl

end

mutual

/-- A proper document whose texts can be encoded is a JSON value again. -/
theorem raw_isJson : (document : Document) → document.short = true → document.distinct = true →
    document.encodable = true → document.raw.isJson = true
  | .null, _, _, _ | .bool _, _, _, _ | .float _, _, _, _ => rfl
  | .int _, short, _, _ => short
  | .str _, _, _, encodable => encodable
  | .array items, short, distinct, encodable => rawItems_isJson items short distinct encodable
  | .object members, short, distinct, encodable => by
    rw [Document.distinct, Bool.and_eq_true] at distinct
    have texts : ((rawMembers members).map Prod.fst).all Key.isText = true := by
      rw [rawMembers_keys, List.map_map, List.all_map, List.all_eq_true]
      intro member listed
      exact (encodableMembers_iff.mp encodable member listed).1
    have apart : ((rawMembers members).map Prod.fst).Nodup := by
      rw [rawMembers_keys]
      exact (of_decide_eq_true distinct.1).map fun left right same => Key.str.inj same
    rw [raw, Raw.isJson, Raw.everywhere, texts, decide_eq_true apart]
    exact rawMembers_isJson members short distinct.2 encodable

theorem rawItems_isJson : (items : List Document) → shortItems items = true → distinctItems items = true →
    encodableItems items = true →
      Raw.everyItem Raw.jsonPart (fun keys => keys.all Key.isText && decide keys.Nodup) (rawItems items) = true
  | [], _, _, _ => rfl
  | item :: rest, short, distinct, encodable => by
    rw [shortItems, Bool.and_eq_true] at short
    rw [distinctItems, Bool.and_eq_true] at distinct
    rw [encodableItems, Bool.and_eq_true] at encodable
    rw [rawItems, Raw.everyItem, Bool.and_eq_true]
    exact ⟨raw_isJson item short.1 distinct.1 encodable.1, rawItems_isJson rest short.2 distinct.2 encodable.2⟩

theorem rawMembers_isJson : (members : List (Str × Document)) → shortMembers members = true →
    distinctMembers members = true → encodableMembers members = true →
      Raw.everyMember Raw.jsonPart (fun keys => keys.all Key.isText && decide keys.Nodup) (rawMembers members) = true
  | [], _, _, _ => rfl
  | (key, value) :: rest, short, distinct, encodable => by
    rw [shortMembers, Bool.and_eq_true] at short
    rw [distinctMembers, Bool.and_eq_true] at distinct
    rw [encodableMembers, Bool.and_eq_true, Bool.and_eq_true] at encodable
    rw [rawMembers, Raw.everyMember, Bool.and_eq_true]
    exact ⟨raw_isJson value short.1 distinct.1 encodable.1.2, rawMembers_isJson rest short.2 distinct.2 encodable.2⟩

end

end Document
