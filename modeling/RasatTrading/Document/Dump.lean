import RasatTrading.Document.Write

/-! Values of the running program, and the documents that they are dumped as with sorted keys. -/

namespace Document

open Rounding

/-- A key of a dictionary. -/
inductive Key
  | str (value : Str)
  | int (value : ℤ)
  | float (value : Double)
  | bool (value : Bool)
  | none
  deriving DecidableEq

/-- A value before it is dumped; the members of a dictionary are in the order in which they were put in. -/
inductive Raw
  | none
  | bool (value : Bool)
  | int (value : ℤ)
  | float (value : Double)
  | str (value : Str)
  | list (items : List Raw)
  | tuple (items : List Raw)
  | dict (members : List (Key × Raw))
  /-- An object of any other type, known by its text. -/
  | other (shown : Str)

/-- Induction over the values in lists, tuples and dictionaries. -/
@[induction_eliminator]
theorem Raw.parts_induction {motive : Raw → Prop} (none : motive .none) (bool : ∀ value, motive (.bool value))
    (int : ∀ value, motive (.int value)) (float : ∀ value, motive (.float value)) (str : ∀ value, motive (.str value))
    (list : ∀ items, (∀ item ∈ items, motive item) → motive (.list items))
    (tuple : ∀ items, (∀ item ∈ items, motive item) → motive (.tuple items))
    (dict : ∀ members, (∀ member ∈ members, motive member.2) → motive (.dict members))
    (other : ∀ shown, motive (.other shown)) (value : Raw) : motive value :=
  @Raw.rec motive (fun items => ∀ item ∈ items, motive item) (fun members => ∀ member ∈ members, motive member.2)
    (fun member => motive member.2) none bool int float str list tuple dict other (List.forall_mem_nil _)
    (fun _ _ first rest => List.forall_mem_cons.mpr ⟨first, rest⟩) (List.forall_mem_nil _)
    (fun _ _ first rest => List.forall_mem_cons.mpr ⟨first, rest⟩) (fun _ _ holds => holds) value

/-- Why a value is not dumped. -/
inductive DumpFlaw
  /-- Keys that do not compare. -/
  | mixedKeys
  /-- A type that has no documents. -/
  | foreign
  /-- A whole number with too many digits. -/
  | tooLong
  /-- A lone surrogate. -/
  | unencodable
  deriving DecidableEq, Repr

namespace Key

/-- The number that a key compares as; a truth value is one of 0 and 1. -/
def number? : Key → Option Extended
  | .int value => some (.finite value)
  | .float value => some value.extended
  | .bool value => some (.finite (if value then 1 else 0))
  | .str _ | .none => Option.none

/-- Whether two keys compare. -/
def comparable : Key → Key → Bool
  | .str _, .str _ | .none, .none => true
  | left, right => left.number?.isSome && right.number?.isSome

/-- Whether a key may stand before another. -/
def le : Key → Key → Bool
  | .str left, .str right => left.le right
  | left, right =>
    match left.number?, right.number? with
    | some left, some right => !right.lt left
    | _, _ => true

/-- The text of a key. -/
def text : Key → Except DumpFlaw Str
  | .str value => .ok value
  | .int value => if shortInt value then .ok (.text (String.ofList (writeInt value))) else .error .tooLong
  | .float value => .ok (.text (String.ofList (writeFloat value)))
  | .bool value => .ok (.text (String.ofList (boolWord value)))
  | .none => .ok (.text (String.ofList nullWord))

/-- Whether the text of a key can be encoded. -/
def encodable : Key → Bool
  | .str value => value.encodable
  | _ => true

/-- Whether the text of a key is short enough. -/
def named : Key → Bool
  | .int value => shortInt value
  | _ => true

end Key

/-- Members in the order of their keys. -/
def keyOrder (left right : Key × Document) : Prop := left.1.le right.1 = true

instance : DecidableRel keyOrder := fun left right => inferInstanceAs (Decidable (left.1.le right.1 = true))

/-- A member under the text of its key. -/
def nameMember (member : Key × Document) : Except DumpFlaw (Str × Document) := do
  return (← member.1.text, member.2)

/-- Whether some keys can be put in order. -/
def Sortable (keys : List Key) : Prop := ∀ left ∈ keys, ∀ right ∈ keys, left.comparable right = true

instance (keys : List Key) : Decidable (Sortable keys) :=
  inferInstanceAs (Decidable (∀ left ∈ keys, ∀ right ∈ keys, left.comparable right = true))

/-- The object of some members, in the order of their keys. -/
def sortMembers (members : List (Key × Document)) : Except DumpFlaw Document :=
  if Sortable (members.map Prod.fst) then do
    return .object (← (members.insertionSort keyOrder).mapM nameMember)
  else .error .mixedKeys

mutual

/-- The document of a value; an object of another type is dumped as its text, when that is asked for. -/
def dump (asText : Bool) : Raw → Except DumpFlaw Document
  | .none => .ok .null
  | .bool value => .ok (.bool value)
  | .int value => if shortInt value then .ok (.int value) else .error .tooLong
  | .float value => .ok (.float value)
  | .str value => .ok (.str value)
  | .list items | .tuple items => do return .array (← dumpItems asText items)
  | .dict members => do sortMembers (← dumpMembers asText members)
  | .other shown => if asText then .ok (.str shown) else .error .foreign

def dumpItems (asText : Bool) : List Raw → Except DumpFlaw (List Document)
  | [] => .ok []
  | item :: rest => do return (← dump asText item) :: (← dumpItems asText rest)

def dumpMembers (asText : Bool) : List (Key × Raw) → Except DumpFlaw (List (Key × Document))
  | [] => .ok []
  | (key, value) :: rest => do return (key, ← dump asText value) :: (← dumpMembers asText rest)

end

mutual

/-- A document as a value of the program. -/
def raw : Document → Raw
  | .null => .none
  | .bool value => .bool value
  | .int value => .int value
  | .float value => .float value
  | .str value => .str value
  | .array items => .list (rawItems items)
  | .object members => .dict (rawMembers members)

def rawItems : List Document → List Raw
  | [] => []
  | item :: rest => item.raw :: rawItems rest

def rawMembers : List (Str × Document) → List (Key × Raw)
  | [] => []
  | (key, value) :: rest => (.str key, value.raw) :: rawMembers rest

end

/-- The text of a document that can be encoded. -/
def encoded (document : Document) : Except DumpFlaw String :=
  if document.encodable then .ok (String.ofList document.write) else .error .unencodable

namespace Raw

mutual

/-- Whether something holds of all parts of a value, and of the keys of each dictionary. -/
def everywhere (plain : Raw → Bool) (keys : List Key → Bool) : Raw → Bool
  | .list items | .tuple items => everyItem plain keys items
  | .dict members => keys (members.map Prod.fst) && everyMember plain keys members
  | value => plain value

def everyItem (plain : Raw → Bool) (keys : List Key → Bool) : List Raw → Bool
  | [] => true
  | item :: rest => item.everywhere plain keys && everyItem plain keys rest

def everyMember (plain : Raw → Bool) (keys : List Key → Bool) : List (Key × Raw) → Bool
  | [] => true
  | (_, value) :: rest => value.everywhere plain keys && everyMember plain keys rest

end

section Everywhere

variable {plain : Raw → Bool} {keys : List Key → Bool}

/-- All parts of a list. -/
theorem everyItem_iff {items : List Raw} :
    everyItem plain keys items = true ↔ ∀ item ∈ items, item.everywhere plain keys = true := by
  induction items with
  | nil => exact iff_of_true rfl (List.forall_mem_nil _)
  | cons first rest ih => rw [everyItem, Bool.and_eq_true, ih, List.forall_mem_cons]

/-- All parts of a dictionary. -/
theorem everyMember_iff {members : List (Key × Raw)} :
    everyMember plain keys members = true ↔ ∀ member ∈ members, member.2.everywhere plain keys = true := by
  induction members with
  | nil => exact iff_of_true rfl (List.forall_mem_nil _)
  | cons first rest ih => rw [everyMember, Bool.and_eq_true, ih, List.forall_mem_cons]

/-- A dictionary with its keys. -/
theorem everywhere_dict {members : List (Key × Raw)} : (dict members).everywhere plain keys = true ↔
    keys (members.map Prod.fst) = true ∧ ∀ member ∈ members, member.2.everywhere plain keys = true := by
  rw [everywhere, Bool.and_eq_true, everyMember_iff]

end Everywhere

/-- Whether a value without parts has a document. -/
def dumpablePart (asText : Bool) : Raw → Bool
  | .int value => shortInt value
  | .other _ => asText
  | _ => true

/-- Whether a value has a document with sorted keys. -/
abbrev dumpable (asText : Bool) : Raw → Bool :=
  everywhere (dumpablePart asText) fun keys => decide (Sortable keys) && keys.all Key.named

/-- Whether a value has a document at all, with objects of other types as their texts. -/
abbrev serializable : Raw → Bool := everywhere (dumpablePart true) fun keys => keys.all Key.named

/-- Whether a value without parts can be encoded. -/
def encodablePart : Raw → Bool
  | .str value | .other value => value.encodable
  | _ => true

/-- Whether the texts in a value can be encoded. -/
abbrev encodable : Raw → Bool := everywhere encodablePart fun keys => keys.all Key.encodable

end Raw

/-! Which values have a document, and which documents can be encoded. -/

/-- A result is returned exactly when it is good, and something holds of it. -/
def Decides {ε α : Type} (result : Except ε α) (good : Bool) (post : α → Prop) : Prop :=
  match result with
  | .ok value => good = true ∧ post value
  | .error _ => good = false

section Decides

variable {ε α β : Type} {result : Except ε α} {good better : Bool} {post : α → Prop}

theorem Decides.ok {value : α} (holds : post value) : Decides (.ok value : Except ε α) true post := ⟨rfl, holds⟩

theorem Decides.error (raised : ε) : Decides (.error raised : Except ε α) false post := rfl

/-- A sequence is good when its parts are. -/
theorem Decides.bind {next : α → Except ε β} {after : β → Prop} (first : Decides result good post)
    (rest : ∀ value, post value → Decides (next value) better after) :
    Decides (result >>= next) (good && better) after := by
  cases result with
  | error raised =>
    obtain rfl : good = false := first
    exact .error raised
  | ok value =>
    obtain ⟨rfl, holds⟩ := first
    exact rest value holds

/-- A part whose value is known is always good. -/
theorem Decides.known {next : α → Except ε β} {after : β → Prop} {value : α} (same : result = .ok value)
    (rest : Decides (next value) better after) : Decides (result >>= next) better after := by
  rw [same]
  exact rest

theorem Decides.imp {weaker : α → Prop} (decides : Decides result good post)
    (imp : ∀ value, post value → weaker value) :
    Decides result good weaker := by
  cases result with
  | error raised => exact decides
  | ok value => exact ⟨decides.1, imp value decides.2⟩

theorem Decides.returned (decides : Decides result good post) (yes : good = true) :
    ∃ value, result = .ok value ∧ post value := by
  cases result with
  | error raised => exact absurd (yes.symm.trans decides) (by decide)
  | ok value => exact ⟨value, rfl, decides.2⟩

theorem Decides.raised (decides : Decides result good post) (no : good = false) : ∃ raised, result = .error raised := by
  cases result with
  | error raised => exact ⟨raised, rfl⟩
  | ok value => exact absurd (no.symm.trans decides.1) (by decide)

/-- An exception may be named otherwise. -/
theorem Decides.mapError {δ : Type} (decides : Decides result good post) (name : ε → δ) :
    Decides (result.mapError name) good post := by
  cases result with
  | error raised => exact decides
  | ok value => exact decides

theorem Decides.of_ok {value : α} (decides : Decides result good post) (returned : result = .ok value) :
    good = true ∧ post value := by
  rw [returned] at decides
  exact decides

end Decides

theorem Key.text_decides (key : Key) : Decides key.text key.named fun name => name.encodable = key.encodable := by
  cases key with
  | int value =>
    show Decides (if shortInt value then _ else _) (shortInt value) _
    cases shortInt value with
    | true => exact .ok rfl
    | false => exact .error _
  | str | float | bool | none => exact .ok rfl

/-- What a list of members has in common with the object of them. -/
def Collected (members : List (Key × Document)) (encodable short : Bool) : Prop :=
  ((members.all fun member => member.1.encodable) && members.all fun member => member.2.encodable) = encodable ∧
    (members.all fun member => member.2.short) = short

/-- Members are named when the texts of all keys are short enough. -/
theorem mapM_nameMember (members : List (Key × Document)) :
    Decides (members.mapM nameMember) (members.all fun member => member.1.named) fun named =>
      Collected members (encodableMembers named) (shortMembers named) := by
  induction members with
  | nil => exact .ok ⟨rfl, rfl⟩
  | cons first rest ih =>
    rw [List.mapM_cons, nameMember, bind_assoc, List.all_cons]
    apply first.1.text_decides.bind
    intro name encodable
    rw [pure_bind, ← Bool.and_true (List.all _ _)]
    apply ih.bind
    intro named collected
    obtain ⟨others, short⟩ := collected
    refine .ok ⟨?_, ?_⟩
    · rw [encodableMembers, ← others, encodable, List.all_cons, List.all_cons]
      ac_rfl
    · rw [shortMembers, ← short, List.all_cons]

/-- Members have an object when their keys can be put in order and named. -/
theorem sortMembers_decides (members : List (Key × Document)) :
    Decides (sortMembers members) (decide (Sortable (members.map Prod.fst)) && members.all fun member => member.1.named)
      fun document => Collected members document.encodable document.short := by
  unfold sortMembers
  by_cases sortable : Sortable (members.map Prod.fst)
  · rw [if_pos sortable, decide_eq_true sortable, Bool.true_and]
    -- The order of the members has no part in what holds of all of them.
    have order := List.perm_insertionSort keyOrder members
    have named := mapM_nameMember (members.insertionSort keyOrder)
    unfold Collected at named
    simp only [order.all_eq] at named
    rw [← Bool.and_true (List.all _ _)]
    exact named.bind fun _ collected => .ok collected
  · rw [if_neg sortable, decide_eq_false sortable]
    exact .error _

/-- What holds of all first parts of some pairs is told by the list of them. -/
theorem all_keys {α : Type} {members : List (Key × α)} {keys : List Key} (same : members.map Prod.fst = keys)
    (holds : Key → Bool) : (members.all fun member => holds member.1) = keys.all holds := by
  rw [← same, List.all_map]
  rfl

mutual

/-- A value has a document exactly when it is dumpable, and its texts are those of the value. -/
theorem dump_decides (asText : Bool) : (value : Raw) →
    Decides (dump asText value) (value.dumpable asText) fun document =>
      document.encodable = value.encodable ∧ document.short = true
  | .none | .bool _ | .float _ | .str _ => .ok ⟨rfl, rfl⟩
  | .int value => by
    show Decides (if shortInt value then _ else _) (shortInt value) _
    cases short : shortInt value with
    | true => exact .ok ⟨rfl, short⟩
    | false => exact .error _
  | .list items => by
    rw [Raw.dumpable, Raw.everywhere, ← Bool.and_true (Raw.everyItem _ _ _)]
    exact (dumpItems_decides asText items).bind fun _ collected => .ok collected
  | .tuple items => by
    rw [Raw.dumpable, Raw.everywhere, ← Bool.and_true (Raw.everyItem _ _ _)]
    exact (dumpItems_decides asText items).bind fun _ collected => .ok collected
  | .dict members => by
    rw [Raw.dumpable, Raw.everywhere, Bool.and_comm]
    apply (dumpMembers_decides asText members).bind
    intro dumped collected
    obtain ⟨keys, encodable, short⟩ := collected
    have sorted := sortMembers_decides dumped
    unfold Collected at sorted
    rw [all_keys keys Key.named, all_keys keys Key.encodable, keys, encodable, short] at sorted
    exact sorted.imp fun document collected => ⟨collected.1.symm, collected.2.symm⟩
  | .other shown => by
    cases asText with
    | true => exact .ok ⟨rfl, rfl⟩
    | false => exact .error _

theorem dumpItems_decides (asText : Bool) : (items : List Raw) →
    Decides (dumpItems asText items) (Raw.everyItem (Raw.dumpablePart asText)
        (fun keys => decide (Sortable keys) && keys.all Key.named) items) fun documents =>
      encodableItems documents = Raw.everyItem Raw.encodablePart (fun keys => keys.all Key.encodable) items ∧
        shortItems documents = true
  | [] => .ok ⟨rfl, rfl⟩
  | item :: rest => by
    rw [dumpItems, Raw.everyItem, ← Bool.and_true (Raw.everyItem _ _ _)]
    apply (dump_decides asText item).bind
    intro first one
    apply (dumpItems_decides asText rest).bind
    intro others all
    refine .ok ⟨?_, ?_⟩
    · rw [encodableItems, Raw.everyItem, one.1, all.1]
    · rw [shortItems, one.2, all.2, Bool.and_self]

theorem dumpMembers_decides (asText : Bool) : (members : List (Key × Raw)) →
    Decides (dumpMembers asText members) (Raw.everyMember (Raw.dumpablePart asText)
        (fun keys => decide (Sortable keys) && keys.all Key.named) members) fun dumped =>
      dumped.map Prod.fst = members.map Prod.fst ∧
        (dumped.all fun member => member.2.encodable) =
            Raw.everyMember Raw.encodablePart (fun keys => keys.all Key.encodable) members ∧
          (dumped.all fun member => member.2.short) = true
  | [] => .ok ⟨rfl, rfl, rfl⟩
  | (key, value) :: rest => by
    rw [dumpMembers, Raw.everyMember, ← Bool.and_true (Raw.everyMember _ _ _)]
    apply (dump_decides asText value).bind
    intro first one
    apply (dumpMembers_decides asText rest).bind
    intro others all
    obtain ⟨keys, encodable, short⟩ := all
    refine .ok ⟨?_, ?_, ?_⟩
    · rw [List.map_cons, List.map_cons, keys]
    · rw [List.all_cons, Raw.everyMember, one.1, encodable]
    · rw [List.all_cons, one.2, short, Bool.and_self]

end

theorem encoded_decides (document : Document) : Decides document.encoded document.encodable fun _ => True := by
  unfold encoded
  cases document.encodable with
  | true => exact .ok trivial
  | false => exact .error _

end Document
