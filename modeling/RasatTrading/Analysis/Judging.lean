import RasatTrading.Analysis.Validator

/-! Which documents the validation of filters accepts, which it refuses, and on which it stumbles. -/

namespace Rasat

variable {α β : Type} {text : Text}

/-- The refusal of a request. -/
def RequestRefused (raised : Exc) : Prop := ∃ message, raised = .rasat ⟨.invalidRequest, message⟩

/-- A check passes what is sound, raises some other exception on what stumbles, and refuses the rest. -/
structure Judges (sound stumbles : Prop) (result : Except Exc α) : Prop where
  accepted : (∃ value, result = .ok value) ↔ sound
  raised : (∃ message, result = .error (.other message)) ↔ stumbles
  refused : ∀ raised, result = .error raised → (∃ message, raised = .other message) ∨ RequestRefused raised

namespace Judges

variable {sound stumbles soundNext stumblesNext : Prop}

/-- A judgement in other words. -/
theorem of_iff {result : Except Exc α} (judged : Judges sound stumbles result) (same : sound ↔ soundNext)
    (alike : stumbles ↔ stumblesNext) : Judges soundNext stumblesNext result :=
  ⟨judged.accepted.trans same, judged.raised.trans alike, judged.refused⟩

/-- A value is sound. -/
theorem ok (value : α) : Judges True False (.ok value : Except Exc α) := by
  constructor <;> simp

/-- A rejection neither finds it sound nor stumbles. -/
theorem reject (message : String) : Judges False False (Rasat.reject .invalidRequest message : Except Exc α) := by
  constructor <;> simp [Rasat.reject, RequestRefused]

/-- A check finds sound what it lets pass. -/
theorem rejectIf (condition : Prop) [Decidable condition] (message : String) :
    Judges (¬condition) False (Rasat.rejectIf condition .invalidRequest message) := by
  unfold Rasat.rejectIf
  by_cases met : condition
  · rw [if_pos met]
    exact (reject message).of_iff (by simp [met]) Iff.rfl
  · rw [if_neg met]
    exact (ok ()).of_iff (by simp [met]) Iff.rfl

/-- The second of two checks is only made when the first one passes. -/
theorem bind {first : Except Exc α} {next : α → Except Exc β} (judged : Judges sound stumbles first)
    (later : ∀ value, first = .ok value → Judges soundNext stumblesNext (next value)) :
    Judges (sound ∧ soundNext) (stumbles ∨ sound ∧ stumblesNext) (first >>= next) := by
  cases outcome : first with
  | error raised =>
    -- What the first check raises, the sequence raises, and the second one is not reached.
    rw [outcome] at judged
    have unsound : ¬sound := fun sound => by
      obtain ⟨value, passed⟩ := judged.accepted.mpr sound
      cases passed
    constructor
    · simp [Bind.bind, Except.bind, unsound]
    · rw [or_iff_left fun both => unsound both.1]
      simpa [Bind.bind, Except.bind] using judged.raised
    · simpa [Bind.bind, Except.bind] using judged.refused
  | ok value =>
    have passed := later value outcome
    rw [outcome] at judged
    have sound := judged.accepted.mp ⟨value, rfl⟩
    have smooth : ¬stumbles := fun stumbles => by
      obtain ⟨message, raised⟩ := judged.raised.mpr stumbles
      cases raised
    constructor
    · rw [and_iff_right sound]
      exact passed.accepted
    · rw [or_iff_right smooth, and_iff_right sound]
      exact passed.raised
    · exact passed.refused

/-- A check in front of one that never stumbles. -/
theorem andThen {first : Except Exc α} {next : α → Except Exc β} (judged : Judges sound stumbles first)
    (later : ∀ value, first = .ok value → Judges soundNext False (next value)) :
    Judges (sound ∧ soundNext) stumbles (first >>= next) :=
  (judged.bind later).of_iff Iff.rfl (by simp)

/-- A check that is only made under a condition, in front of one that never stumbles. -/
theorem when {condition : Prop} [Decidable condition] {check : Except Exc α} {next : Except Exc β}
    (judged : Judges sound stumbles check) (later : Judges soundNext False next) :
    Judges ((condition → sound) ∧ soundNext) (condition ∧ stumbles)
      (if condition then check >>= fun _ => next else next) := by
  by_cases met : condition
  · rw [if_pos met]
    exact (judged.andThen fun _ _ => later).of_iff (by simp [met]) (by simp [met])
  · rw [if_neg met]
    exact later.of_iff (by simp [met]) (by simp [met])

/-- One check for each item of a list. -/
theorem forM {items : List α} {check : α → Except Exc Unit} {each : α → Prop}
    (judged : ∀ item, Judges (each item) False (check item)) :
    Judges (∀ item ∈ items, each item) False (items.forM check) := by
  induction items with
  | nil => exact (ok ()).of_iff (by simp) Iff.rfl
  | cons item rest ih =>
    have both : Judges _ _ (check item >>= fun _ => rest.forM check) := (judged item).andThen fun _ _ => ih
    exact both.of_iff (by simp) Iff.rfl

/-- A list has a first item that fails behind others that hold, when its head fails or there is one behind the head. -/
theorem split_cons_iff {ι : Type} {first : ι} {rest : List ι} {each fails : ι → Prop} :
    (∃ before item after, first :: rest = before ++ item :: after ∧ (∀ other ∈ before, each other) ∧ fails item) ↔
      fails first ∨ each first ∧
        ∃ before item after, rest = before ++ item :: after ∧ (∀ other ∈ before, each other) ∧ fails item := by
  constructor
  · intro stumbled
    obtain ⟨before, item, after, split, earlier, there⟩ := stumbled
    cases before with
    | nil =>
      obtain ⟨rfl, rfl⟩ := List.cons.inj split
      exact .inl there
    | cons head before =>
      obtain ⟨rfl, rfl⟩ := List.cons.inj split
      have ⟨sound, earlier⟩ := List.forall_mem_cons.mp earlier
      exact .inr ⟨sound, before, item, after, rfl, earlier, there⟩
  · intro stumbled
    rcases stumbled with here | ⟨sound, before, item, after, rfl, earlier, there⟩
    · exact ⟨[], first, rest, rfl, by simp, here⟩
    · exact ⟨first :: before, item, after, rfl, by simpa using ⟨sound, earlier⟩, there⟩

/-- The items of a list one after the other: it stumbles on the first item that does, if all before it are sound. -/
theorem mapM {items : List α} {check : α → Except Exc β} {each fails : α → Prop}
    (judged : ∀ item ∈ items, Judges (each item) (fails item) (check item)) :
    Judges (∀ item ∈ items, each item)
      (∃ before item after, items = before ++ item :: after ∧ (∀ other ∈ before, each other) ∧ fails item)
      (items.mapM check) := by
  induction items with
  | nil =>
    rw [List.mapM_nil]
    exact (ok []).of_iff (by simp) (by simp)
  | cons first rest ih =>
    rw [List.mapM_cons]
    have later := ih fun item member => judged item (List.mem_cons_of_mem _ member)
    have both := (judged first List.mem_cons_self).bind fun value _ =>
      later.andThen fun values _ => ok (value :: values)
    exact both.of_iff (by simp) split_cons_iff.symm

end Judges

/-! The checks of a leaf. -/

/-- All keys of an object are among the known ones. -/
def Known (known : List String) (members : Members) : Prop := ∀ entry ∈ members, entry.1 ∈ known.map Str.text

/-- A value without a hash. -/
def Unhashable : Document → Prop
  | .array _ | .object _ => True
  | _ => False

/-- The event that a leaf asks for. -/
def eventOf (members : Members) : Document := (member? members "event").getD .null

/-- The keys and the numbers of a leaf. -/
structure LeafChecked (kind : String) (known : List String) (members : Members) : Prop where
  known : Known ("type" :: known) members
  windows : ∀ entry ∈ intKeys kind, ∀ value ∈ member? members entry.1, isPositiveInt value = true
  numbers : ∀ key ∈ ["min", "max"], ∀ value ∈ member? members key, numberOf value ≠ none
  ordered : crossed members = false

/-- A leaf that the validation lets pass. -/
structure SoundLeaf (kind : String) (members : Members) : Prop where
  checked : ∃ known, filterKeys.lookup kind = some known ∧ LeafChecked kind known members
  event : kind = "structure_event" → named? eventTypes (eventOf members) ≠ none
  position : kind = "above_below_vwap" → (member? members "position").bind (named? positions) ≠ none
  distance : kind = "near_order_block" → isDistance members = true

/-- Only what cannot be hashed is stumbled over. -/
theorem hashed_judges (document : Document) :
    Judges (¬Unhashable document) (Unhashable document) (hashed document) := by
  cases document <;> constructor <;> simp [hashed, Unhashable]

/-- The keys are known, -/
theorem checkKeys_judges (known : List String) (members : Members) (message : String → String) :
    Judges (Known known members) False (checkKeys known members message) := by
  unfold checkKeys
  split
  · rename_i none
    have all : Known known members := by simpa [Known] using none
    exact (Judges.ok ()).of_iff (by simp [all]) Iff.rfl
  · rename_i key value found
    have unknown : ¬Known known members := fun all => by
      have bad := List.find?_some found
      simp [all _ (List.mem_of_find?_eq_some found)] at bad
    exact (Judges.reject _).of_iff (by simp [unknown]) Iff.rfl

/-- a whole number is positive, -/
theorem checkInt_judges (ftype : String) (members : Members) (key : String) :
    Judges (∀ value ∈ member? members key, isPositiveInt value = true) False (checkInt text ftype members key) := by
  unfold checkInt
  split
  · rename_i missing
    exact (Judges.ok ()).of_iff (by simp [missing]) Iff.rfl
  · rename_i value found
    exact (Judges.rejectIf _ _).of_iff (by simp [found]) Iff.rfl

/-- and a number is one, where they are given. -/
theorem checkNumber_judges (ftype : String) (members : Members) (key : String) :
    Judges (∀ value ∈ member? members key, numberOf value ≠ none) False (checkNumber ftype members key) := by
  unfold checkNumber
  split
  · rename_i missing
    exact (Judges.ok ()).of_iff (by simp [missing]) Iff.rfl
  · rename_i value found
    exact (Judges.rejectIf _ _).of_iff (by simp [found]) Iff.rfl

/-- The checks of a leaf as a whole. -/
theorem checkLeaf_judges (kind : String) (known : List String) (members : Members) :
    Judges (LeafChecked kind known members) False (checkLeaf text kind known members) := by
  have checks : Judges _ _ (checkLeaf text kind known members) :=
    (checkKeys_judges _ _ _).andThen fun _ _ => (Judges.forM fun _ => checkInt_judges _ _ _).andThen
      fun _ _ => (Judges.forM fun _ => checkNumber_judges _ _ _).andThen fun _ _ => Judges.rejectIf _ _
  apply checks.of_iff _ Iff.rfl
  constructor
  · intro all
    exact ⟨all.1, all.2.1, all.2.2.1, by simpa using all.2.2.2⟩
  · intro checked
    exact ⟨checked.known, checked.windows, checked.numbers, by simp [checked.ordered]⟩

/-- An event has a known name; one that cannot be hashed is stumbled over. -/
theorem checkEvent_judges (members : Members) :
    Judges (named? eventTypes (eventOf members) ≠ none) (Unhashable (eventOf members)) (checkEvent text members) := by
  apply ((hashed_judges (eventOf members)).andThen fun _ _ => Judges.rejectIf _ _).of_iff _ Iff.rfl
  -- What has a name is a text, and a text has a hash.
  constructor
  · exact And.right
  · intro named
    refine ⟨fun unhashable => ?_, named⟩
    cases event : eventOf members <;> simp_all [Unhashable, named?]

variable {kind : String}

/-- An inner node is no leaf. -/
theorem lookup_inner (inner : kind ∈ innerTypes) : filterKeys.lookup kind = none := by
  simp only [innerTypes, List.mem_cons, List.not_mem_nil, or_false] at inner
  rcases inner with rfl | rfl <;> decide

/-- A leaf stumbles on a type or an event without a hash. -/
theorem validateLeaf_judges (members : Members) (ftype : Document) :
    Judges (∃ kind, ftype = .text kind ∧ SoundLeaf kind members)
      (Unhashable ftype ∨ ftype = .text "structure_event" ∧
        (∃ known, filterKeys.lookup "structure_event" = some known ∧ LeafChecked "structure_event" known members) ∧
          Unhashable (eventOf members))
      (validateLeaf text members ftype) := by
  unfold validateLeaf
  split
  · rename_i kind
    split
    · rename_i known found
      dsimp only
      -- Checks of the fields, of the event, the position and the distance, in the order of the source.
      apply ((hashed_judges (.text kind)).bind fun _ _ => (checkLeaf_judges kind known members).bind fun _ _ =>
        (checkEvent_judges members).when ((Judges.rejectIf _ _).andThen fun _ _ =>
          (Judges.rejectIf _ _).andThen fun _ _ => Judges.ok (defaults kind members))).of_iff
      · constructor
        · intro all
          obtain ⟨-, checked, event, position, distance, -⟩ := all
          exact ⟨kind, rfl, ⟨known, found, checked⟩, event, by tauto, by simpa using distance⟩
        · intro accepted
          obtain ⟨same, alike, sound⟩ := accepted
          cases alike
          obtain ⟨others, table, checked⟩ := sound.checked
          obtain rfl := Option.some.inj (found.symm.trans table)
          have position := sound.position
          have distance := sound.distance
          exact ⟨by simp [Unhashable], checked, sound.event, by tauto, by simpa using distance, trivial⟩
      · constructor
        · intro stumbled
          rcases stumbled with never | ⟨-, checked⟩
          · exact .inl never
          · rcases checked with impossible | ⟨checked, rfl, unhashable⟩
            · exact impossible.elim
            · exact .inr ⟨rfl, ⟨known, found, checked⟩, unhashable⟩
        · intro stumbled
          rcases stumbled with never | ⟨same, ⟨others, table, checked⟩, unhashable⟩
          · exact .inl never
          · cases same
            obtain rfl := Option.some.inj (found.symm.trans table)
            exact .inr ⟨by simp [Unhashable], .inr ⟨checked, rfl, unhashable⟩⟩
    · rename_i missing
      -- An unknown type is refused.
      apply ((hashed_judges (.text kind)).andThen fun _ _ => Judges.reject _).of_iff
      · simp only [and_false, false_iff]
        intro accepted
        obtain ⟨same, alike, sound⟩ := accepted
        cases alike
        obtain ⟨others, table, -⟩ := sound.checked
        rw [missing] at table
        cases table
      · rw [or_iff_left]
        intro stumbled
        obtain ⟨same, ⟨others, table, -⟩, -⟩ := stumbled
        cases same
        rw [missing] at table
        cases table
  · rename_i other
    -- A type that is no text is looked up in a dictionary, which needs its hash.
    apply ((hashed_judges ftype).andThen fun _ _ => Judges.reject _).of_iff
    · simp only [and_false, false_iff]
      intro accepted
      obtain ⟨kind, rfl, -⟩ := accepted
      exact other kind rfl
    · rw [or_iff_left]
      intro stumbled
      exact other _ stumbled.1

/-! The nodes of a filter. -/

/-- A document that the validation accepts as a node. -/
inductive Sound : Document → Prop
  | leaf {members : Members} {kind : String} (type : member? members "type" = some (.text kind))
    (leaf : SoundLeaf kind members) : Sound (.object members)
  | inner {members : Members} {kind : String} {items : List Document}
    (type : member? members "type" = some (.text kind)) (inner : kind ∈ innerTypes)
    (known : Known ["type", "filters"] members) (filters : member? members "filters" = some (.array items))
    (nonempty : items ≠ []) (children : ∀ item ∈ items, Sound item) : Sound (.object members)

/-- A document that is no filter, and on which the validation looks up a value without a hash. -/
inductive Stumbles : Document → Prop
  | type {members : Members} {ftype : Document} (type : member? members "type" = some ftype)
    (unhashable : Unhashable ftype) : Stumbles (.object members)
  /-- The event is looked up only in a leaf whose keys and numbers are as they should be. -/
  | event {members : Members} {known : List String} (type : member? members "type" = some (.text "structure_event"))
    (listed : filterKeys.lookup "structure_event" = some known) (checked : LeafChecked "structure_event" known members)
    (unhashable : Unhashable (eventOf members)) : Stumbles (.object members)
  /-- A child is reached only behind sound ones. -/
  | inner {members : Members} {kind : String} {before after : List Document} {item : Document}
    (type : member? members "type" = some (.text kind)) (inner : kind ∈ innerTypes)
    (known : Known ["type", "filters"] members)
    (filters : member? members "filters" = some (.array (before ++ item :: after)))
    (earlier : ∀ other ∈ before, Sound other) (child : Stumbles item) : Stumbles (.object members)

/-- The first document in a list that is not sound is one on which the validation stumbles. -/
def StumblesAmong (items : List Document) : Prop :=
  ∃ before item after, items = before ++ item :: after ∧ (∀ other ∈ before, Sound other) ∧ Stumbles item

/-- The nodes of a list are validated one after the other. -/
theorem validateNodes_eq (items : List Document) : validateNodes text items = items.mapM (validateNode text) := by
  induction items with
  | nil => rw [validateNodes, List.mapM_nil]; rfl
  | cons item rest ih => rw [validateNodes, List.mapM_cons, ih]

/-- The children of a node are the documents under `filters`, if there are any. -/
theorem validateChildren_eq (members : Members) :
    validateChildren text members = (member? members "filters").bind (validateList text) := by
  induction members with
  | nil => rw [validateChildren]; rfl
  | cons entry rest ih =>
    obtain ⟨key, value⟩ := entry
    rw [validateChildren]
    by_cases same : key = .text "filters"
    · simp [same, member?]
    · rw [if_neg same, ih, member?, member?, List.lookup_cons, beq_false_of_ne (Ne.symm same)]

variable {members : Members} {ftype : Document}

/-- An object is an inner node or a leaf by its type. -/
theorem validateNode_object (text : Text) (type : member? members "type" = some ftype) :
    (∃ kind ∈ innerTypes, ftype = .text kind ∧ validateNode text (.object members) =
      validateInner kind members ((member? members "filters").bind (validateList text))) ∨
    ((∀ kind ∈ innerTypes, ftype ≠ .text kind) ∧
      validateNode text (.object members) = validateLeaf text members ftype) := by
  rw [validateNode, type]
  split
  · contradiction
  · rename_i kind same
    cases same
    by_cases inner : kind ∈ innerTypes
    · rw [if_pos inner, validateChildren_eq]
      exact .inl ⟨kind, inner, rfl, rfl⟩
    · rw [if_neg inner]
      refine .inr ⟨fun other listed alike => ?_, rfl⟩
      cases alike
      exact inner listed
  · rename_i other ftype differs same
    cases same
    exact .inr ⟨fun kind _ alike => differs kind (by rw [alike]), rfl⟩

variable {motive : Document → Prop}

mutual

/-- What holds of an object when it holds of the documents in its list of filters holds of every document. -/
theorem node_induction (value : ∀ document, (∀ members, document ≠ .object members) → motive document)
    (object : ∀ members, (∀ items, member? members "filters" = some (.array items) → ∀ item ∈ items, motive item) →
      motive (.object members)) : ∀ document, motive document
  | .object members => object members (filters_induction value object members)
  | .null | .bool _ | .int _ | .float _ | .str _ | .array _ => value _ (by simp)

theorem filters_induction (value : ∀ document, (∀ members, document ≠ .object members) → motive document)
    (object : ∀ members, (∀ items, member? members "filters" = some (.array items) → ∀ item ∈ items, motive item) →
      motive (.object members)) :
    (members : List (Str × Document)) → ∀ items, member? members "filters" = some (.array items) →
      ∀ item ∈ items, motive item
  | [], items, found => by cases found
  | (key, .array listed) :: rest, items, found => by
    rw [member?, List.lookup_cons] at found
    split at found
    · obtain rfl : listed = items := by simpa using found
      exact items_induction value object listed
    · exact filters_induction value object rest items found
  | (key, .null) :: rest, items, found | (key, .bool _) :: rest, items, found | (key, .int _) :: rest, items, found
  | (key, .float _) :: rest, items, found | (key, .str _) :: rest, items, found
  | (key, .object _) :: rest, items, found => by
    rw [member?, List.lookup_cons] at found
    split at found
    · simp at found
    · exact filters_induction value object rest items found

theorem items_induction (value : ∀ document, (∀ members, document ≠ .object members) → motive document)
    (object : ∀ members, (∀ items, member? members "filters" = some (.array items) → ∀ item ∈ items, motive item) →
      motive (.object members)) : (items : List Document) → ∀ item ∈ items, motive item
  | [] => by simp
  | first :: rest =>
    List.forall_mem_cons.mpr ⟨node_induction value object first, items_induction value object rest⟩

end

/-- An inner node has children, and all of them are sound. -/
theorem sound_inner (type : member? members "type" = some (.text kind)) (inner : kind ∈ innerTypes) :
    Sound (.object members) ↔ Known ["type", "filters"] members ∧
      ∃ items, member? members "filters" = some (.array items) ∧ items ≠ [] ∧ ∀ item ∈ items, Sound item := by
  constructor
  · intro sound
    cases sound with
    | leaf same leaf =>
      obtain ⟨known, listed, -⟩ := leaf.checked
      rw [type] at same
      cases same
      rw [lookup_inner inner] at listed
      cases listed
    | inner same _ known filters nonempty children => exact ⟨known, _, filters, nonempty, children⟩
  · intro all
    obtain ⟨known, items, filters, nonempty, children⟩ := all
    exact .inner type inner known filters nonempty children

/-- A leaf is sound as its kind says. -/
theorem sound_leaf (type : member? members "type" = some ftype)
    (leaf : ∀ kind ∈ innerTypes, ftype ≠ .text kind) :
    Sound (.object members) ↔ ∃ kind, ftype = .text kind ∧ SoundLeaf kind members := by
  constructor
  · intro sound
    cases sound with
    | leaf same leaf => exact ⟨_, Option.some.inj (type.symm.trans same), leaf⟩
    | inner same inner => exact absurd (Option.some.inj (type.symm.trans same)) (leaf _ inner)
  · intro sound
    obtain ⟨kind, rfl, sound⟩ := sound
    exact .leaf type sound

/-- Inside a combination the items are stumbled over, -/
theorem stumbles_inner (type : member? members "type" = some (.text kind)) (inner : kind ∈ innerTypes) :
    Stumbles (.object members) ↔ Known ["type", "filters"] members ∧
      ∃ items, member? members "filters" = some (.array items) ∧ StumblesAmong items := by
  constructor
  · intro stumbled
    cases stumbled with
    | type same unhashable =>
      rw [type] at same
      cases same
      exact unhashable.elim
    | event same listed =>
      rw [type] at same
      cases same
      rw [lookup_inner inner] at listed
      cases listed
    | inner same _ known filters earlier child => exact ⟨known, _, filters, _, _, _, rfl, earlier, child⟩
  · intro all
    obtain ⟨known, items, filters, before, item, after, rfl, earlier, child⟩ := all
    exact .inner type inner known filters earlier child

/-- and in a leaf the type or the event. -/
theorem stumbles_leaf (type : member? members "type" = some ftype)
    (leaf : ∀ kind ∈ innerTypes, ftype ≠ .text kind) :
    Stumbles (.object members) ↔ Unhashable ftype ∨ ftype = .text "structure_event" ∧
      (∃ known, filterKeys.lookup "structure_event" = some known ∧ LeafChecked "structure_event" known members) ∧
        Unhashable (eventOf members) := by
  constructor
  · intro stumbled
    cases stumbled with
    | type same unhashable =>
      obtain rfl := Option.some.inj (type.symm.trans same)
      exact .inl unhashable
    | event same listed checked unhashable =>
      exact .inr ⟨Option.some.inj (type.symm.trans same), ⟨_, listed, checked⟩, unhashable⟩
    | inner same inner => exact absurd (Option.some.inj (type.symm.trans same)) (leaf _ inner)
  · intro stumbled
    rcases stumbled with unhashable | ⟨rfl, ⟨known, listed, checked⟩, unhashable⟩
    · exact .type type unhashable
    · exact .event type listed checked unhashable

/-- Without a type there is nothing to look up. -/
theorem untyped_judges {document : Document}
    (untyped : ∀ members, document = .object members → member? members "type" = none) :
    Judges (Sound document) (Stumbles document) (validateNode text document) := by
  have unsound : ¬Sound document := fun sound => by
    cases sound with
    | leaf type | inner type =>
      rw [untyped _ rfl] at type
      cases type
  have smooth : ¬Stumbles document := fun stumbled => by
    cases stumbled with
    | type type | event type | inner type =>
      rw [untyped _ rfl] at type
      cases type
  have refused : ∃ message, validateNode text document = reject .invalidRequest message := by
    cases document with
    | object members =>
      rw [validateNode, untyped members rfl]
      exact ⟨_, rfl⟩
    | _ =>
      rw [validateNode]
      · exact ⟨_, rfl⟩
      · simp
  obtain ⟨message, refused⟩ := refused
  rw [refused]
  exact (Judges.reject message).of_iff (by simp [unsound]) (by simp [smooth])

/-- The children of an inner node are validated when they are a list that is not empty. -/
theorem children_cases (text : Text) (members : Members) :
    ((∀ items, member? members "filters" = some (.array items) → items = []) ∧
      (member? members "filters").bind (validateList text) = none) ∨
    ∃ items, member? members "filters" = some (.array items) ∧ items ≠ [] ∧
      (member? members "filters").bind (validateList text) = some (items.mapM (validateNode text)) := by
  cases found : member? members "filters" with
  | none => exact .inl (by simp)
  | some value =>
    cases value with
    | array items =>
      cases items with
      | nil => exact .inl ⟨by simp, rfl⟩
      | cons first rest => exact .inr ⟨_, rfl, by simp, by rw [← validateNodes_eq]; rfl⟩
    | _ => exact .inl ⟨by simp, rfl⟩

/-- An inner node is judged by its keys and then by its children. -/
theorem validateInner_judges
    (judged : ∀ items, member? members "filters" = some (.array items) → ∀ item ∈ items,
      Judges (Sound item) (Stumbles item) (validateNode text item)) :
    Judges
      (Known ["type", "filters"] members ∧
        ∃ items, member? members "filters" = some (.array items) ∧ items ≠ [] ∧ ∀ item ∈ items, Sound item)
      (Known ["type", "filters"] members ∧
        ∃ items, member? members "filters" = some (.array items) ∧ StumblesAmong items)
      (validateInner kind members ((member? members "filters").bind (validateList text))) := by
  unfold validateInner
  rcases children_cases text members with ⟨nothing, absent⟩ | ⟨items, found, nonempty, present⟩
  · rw [absent]
    apply ((checkKeys_judges _ members _).andThen fun _ _ => Judges.reject _).of_iff
    · simp only [and_false, false_iff]
      intro sound
      obtain ⟨-, items, found, nonempty, -⟩ := sound
      exact nonempty (nothing items found)
    · simp only [false_iff]
      intro stumbled
      obtain ⟨-, items, found, before, item, after, rfl, -⟩ := stumbled
      simpa using nothing _ found
  · rw [present]
    apply ((checkKeys_judges _ members _).bind fun _ _ => (Judges.mapM (judged items found)).andThen
      fun _ _ => Judges.ok _).of_iff
    · simp [found, nonempty]
    · simp [found, StumblesAmong]

/-- The validation of a node accepts the sound documents and stumbles on no others than those that stumble. -/
theorem validateNode_judges (text : Text) (document : Document) :
    Judges (Sound document) (Stumbles document) (validateNode text document) := by
  induction document using node_induction with
  | value document other => exact untyped_judges fun members same => absurd same (other members)
  | object members ih =>
    cases type : member? members "type" with
    | none =>
      apply untyped_judges
      intro others same
      cases same
      exact type
    | some ftype =>
      rcases validateNode_object text type with ⟨kind, inner, rfl, node⟩ | ⟨leaf, node⟩
      · rw [node]
        exact (validateInner_judges ih).of_iff (sound_inner type inner).symm (stumbles_inner type inner).symm
      · rw [node]
        exact (validateLeaf_judges members ftype).of_iff (sound_leaf type leaf).symm (stumbles_leaf type leaf).symm

/-- The documents that are validated as nodes under the root. -/
def itemsOf : Document → List Document
  | .array items => items
  | filters => if truthyDocument filters then [filters] else []

/-- Whether the way of combining is known. -/
abbrev CombineKnown (combine : Option String) : Prop :=
  upper (if combine.getD "" = "" then "AND" else combine.getD "") ∈ ["AND", "OR"]

/-- The filters are validated one by one. -/
theorem validateFilters_judges (text : Text) (filters : Document) (combine : Option String) :
    Judges (CombineKnown combine ∧ itemsOf filters ≠ [] ∧ ∀ item ∈ itemsOf filters, Sound item)
      (CombineKnown combine ∧ StumblesAmong (itemsOf filters)) (validateFilters text filters combine) := by
  have validated : Judges (∀ item ∈ itemsOf filters, Sound item) (StumblesAmong (itemsOf filters))
      (validateNodes text (itemsOf filters)) := by
    rw [validateNodes_eq]
    exact Judges.mapM fun item _ => validateNode_judges text item
  apply ((Judges.rejectIf _ _).bind fun _ _ => (Judges.rejectIf _ _).bind fun _ _ =>
    validated.andThen fun _ _ => Judges.ok _).of_iff
  · simp [CombineKnown]
    tauto
  · have nonempty : StumblesAmong (itemsOf filters) → itemsOf filters ≠ [] := fun stumbled none => by
      obtain ⟨before, item, after, same, -⟩ := stumbled
      rw [none] at same
      simp at same
    rw [false_or, false_or]
    show _ ∧ itemsOf filters ≠ [] ∧ StumblesAmong (itemsOf filters) ↔ _
    rw [and_iff_right_of_imp nonempty]
    simp [CombineKnown]
    tauto

end Rasat
