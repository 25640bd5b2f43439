import RasatTrading.Document.Dump

/-! The documents that values with string keys are dumped as, which are dumped again as they are. -/

namespace Document

/-- The order of the members that are dumped. -/
def strOrder (left right : Str × Document) : Prop := left.1.le right.1 = true

instance : DecidableRel strOrder := fun left right => inferInstanceAs (Decidable (left.1.le right.1 = true))

instance : Std.Total strOrder where
  total left right := by
    unfold strOrder
    cases left.1 <;> cases right.1 <;> simp [Str.le]
    exact String.le_total _ _

instance : IsTrans (Str × Document) strOrder where
  trans first second third := by
    unfold strOrder
    cases first.1 <;> cases second.1 <;> cases third.1 <;> simp [Str.le]
    exact String.le_trans

/-- A member before it is named. -/
def unnamed (member : Str × Document) : Key × Document := (.str member.1, member.2)

/-- Whether a key is a string that can be encoded. -/
def Key.isText : Key → Bool
  | .str value => value.encodable
  | _ => false

/-- The string of a key. -/
def Key.str? : Key → Str
  | .str value => value
  | _ => .text ""

/-- Whether a value without parts is one of JSON. -/
def Raw.jsonPart : Raw → Bool
  | .int value => shortInt value
  | .str value => value.encodable
  | .other _ => false
  | _ => true

/-- Whether a value is one of JSON: all its keys are strings, none of them twice in one dictionary. -/
abbrev Raw.isJson : Raw → Bool := Raw.everywhere Raw.jsonPart fun keys => keys.all Key.isText && decide keys.Nodup

mutual

/-- The document of a JSON value: tuples are arrays, and members are in the order of their keys. -/
def json : Raw → Document
  | .none | .other _ => .null
  | .bool value => .bool value
  | .int value => .int value
  | .float value => .float value
  | .str value => .str value
  | .list items | .tuple items => .array (jsonItems items)
  | .dict members => .object ((jsonMembers members).insertionSort strOrder)

def jsonItems : List Raw → List Document
  | [] => []
  | item :: rest => json item :: jsonItems rest

def jsonMembers : List (Key × Raw) → List (Str × Document)
  | [] => []
  | (key, value) :: rest => (key.str?, json value) :: jsonMembers rest

end

mutual

/-- Whether the members of all objects are in the order of their keys, and no key is there twice. -/
def Canonical : Document → Prop
  | .int value => shortInt value = true
  | .array items => CanonicalItems items
  | .object members => members.Pairwise strOrder ∧ (members.map Prod.fst).Nodup ∧ CanonicalMembers members
  | _ => True

def CanonicalItems : List Document → Prop
  | [] => True
  | item :: rest => item.Canonical ∧ CanonicalItems rest

def CanonicalMembers : List (Str × Document) → Prop
  | [] => True
  | (_, value) :: rest => value.Canonical ∧ CanonicalMembers rest

end

/-! Dumping. -/

theorem mapM_unnamed (members : List (Str × Document)) : (members.map unnamed).mapM nameMember = .ok members := by
  induction members with
  | nil => rfl
  | cons first rest ih =>
    rw [List.map_cons, List.mapM_cons, ih]
    rfl

/-- Members under strings have an object. -/
theorem sortMembers_unnamed (members : List (Str × Document)) :
    sortMembers (members.map unnamed) = .ok (.object (members.insertionSort strOrder)) := by
  have sortable : Sortable ((members.map unnamed).map Prod.fst) := by
    intro left one right other
    simp only [List.map_map, List.mem_map, Function.comp_apply] at one other
    obtain ⟨member, -, rfl⟩ := one
    obtain ⟨another, -, rfl⟩ := other
    rfl
  have order : (members.map unnamed).insertionSort keyOrder = (members.insertionSort strOrder).map unnamed :=
    (List.map_insertionSort strOrder keyOrder unnamed members fun _ _ _ _ => Iff.rfl).symm
  unfold sortMembers
  rw [if_pos sortable, order, mapM_unnamed]
  rfl

mutual

/-- A JSON value is dumped as its document. -/
theorem dump_json (asText : Bool) : (value : Raw) → value.isJson = true → dump asText value = .ok (json value)
  | .none, _ | .bool _, _ | .float _, _ | .str _, _ => rfl
  | .int value, known => if_pos known
  | .list items, known | .tuple items, known => by
    rw [dump, dumpItems_json asText items known]
    rfl
  | .dict members, known => by
    rw [Raw.isJson, Raw.everywhere, Bool.and_eq_true, Bool.and_eq_true] at known
    have strings : ∀ key ∈ members.map Prod.fst, key.isText = true := List.all_eq_true.mp known.1.1
    rw [dump, dumpMembers_json asText members strings known.2]
    exact sortMembers_unnamed _

theorem dumpItems_json (asText : Bool) : (items : List Raw) →
    Raw.everyItem Raw.jsonPart (fun keys => keys.all Key.isText && decide keys.Nodup) items = true →
      dumpItems asText items = .ok (jsonItems items)
  | [], _ => rfl
  | item :: rest, known => by
    rw [Raw.everyItem, Bool.and_eq_true] at known
    rw [dumpItems, dump_json asText item known.1, dumpItems_json asText rest known.2]
    rfl

theorem dumpMembers_json (asText : Bool) : (members : List (Key × Raw)) →
    (∀ key ∈ members.map Prod.fst, key.isText = true) →
    Raw.everyMember Raw.jsonPart (fun keys => keys.all Key.isText && decide keys.Nodup) members = true →
      dumpMembers asText members = .ok ((jsonMembers members).map unnamed)
  | [], _, _ => rfl
  | (key, value) :: rest, strings, known => by
    rw [Raw.everyMember, Bool.and_eq_true] at known
    rw [List.map_cons, List.forall_mem_cons] at strings
    have named : Key.str key.str? = key := by
      cases key with
      | str => rfl
      | _ => cases strings.1
    rw [dumpMembers, dump_json asText value known.1, dumpMembers_json asText rest strings.2 known.2, jsonMembers,
      List.map_cons, unnamed, named]
    rfl

end

mutual

/-- What was dumped in order is dumped again as it is. -/
theorem dump_raw (asText : Bool) : (document : Document) → document.Canonical → dump asText document.raw = .ok document
  | .null, _ | .bool _, _ | .float _, _ | .str _, _ => rfl
  | .int value, short => if_pos short
  | .array items, canonical => by
    rw [raw, dump, dumpItems_raw asText items canonical]
    rfl
  | .object members, canonical => by
    obtain ⟨ordered, -, values⟩ := canonical
    rw [raw, dump, dumpMembers_raw asText members values]
    show sortMembers (members.map unnamed) = .ok (.object members)
    rw [sortMembers_unnamed, ordered.insertionSort_eq]

theorem dumpItems_raw (asText : Bool) : (items : List Document) → CanonicalItems items →
    dumpItems asText (rawItems items) = .ok items
  | [], _ => rfl
  | item :: rest, canonical => by
    rw [rawItems, dumpItems, dump_raw asText item canonical.1, dumpItems_raw asText rest canonical.2]
    rfl

theorem dumpMembers_raw (asText : Bool) : (members : List (Str × Document)) → CanonicalMembers members →
    dumpMembers asText (rawMembers members) = .ok (members.map unnamed)
  | [], _ => rfl
  | (key, value) :: rest, canonical => by
    rw [rawMembers, dumpMembers, dump_raw asText value canonical.1, dumpMembers_raw asText rest canonical.2]
    rfl

end

/-! What the documents are like. -/

theorem canonicalMembers_iff (members : List (Str × Document)) :
    CanonicalMembers members ↔ ∀ member ∈ members, member.2.Canonical := by
  induction members with
  | nil => exact iff_of_true trivial (List.forall_mem_nil _)
  | cons first rest ih => rw [CanonicalMembers, ih, List.forall_mem_cons]

/-- A list is canonical when its items are. -/
theorem canonicalItems_iff (items : List Document) : CanonicalItems items ↔ ∀ item ∈ items, item.Canonical := by
  induction items with
  | nil => exact iff_of_true trivial (List.forall_mem_nil _)
  | cons first rest ih => rw [CanonicalItems, ih, List.forall_mem_cons]

/-- The documents of some items. -/
theorem jsonItems_map (items : List Raw) : jsonItems items = items.map json := by
  induction items with
  | nil => rfl
  | cons first rest ih => rw [jsonItems, ih, List.map_cons]

/-- The documents of some members. -/
theorem jsonMembers_map (members : List (Key × Raw)) :
    jsonMembers members = members.map fun member => (member.1.str?, json member.2) := by
  induction members with
  | nil => rfl
  | cons first rest ih => rw [jsonMembers, ih, List.map_cons]

/-- The keys of the document are those of the dictionary. -/
theorem jsonMembers_keys {members : List (Key × Raw)} (strings : ∀ key ∈ members.map Prod.fst, key.isText = true) :
    (jsonMembers members).map (fun member => Key.str member.1) = members.map Prod.fst := by
  rw [jsonMembers_map, List.map_map]
  refine List.map_congr_left fun member there => ?_
  have text := strings member.1 (List.mem_map_of_mem there)
  cases same : member.1 with
  | str => simp [same, Key.str?]
  | _ =>
    rw [same] at text
    cases text

/-- The document of a JSON value is canonical. -/
theorem json_canonical (value : Raw) (known : value.isJson = true) : (json value).Canonical := by
  induction value with
  | int value => exact known
  | list items ih | tuple items ih =>
    rw [json, Canonical, jsonItems_map, canonicalItems_iff, List.forall_mem_map]
    exact fun item there => ih item there (Raw.everyItem_iff.mp known item there)
  | dict members ih =>
    obtain ⟨named, parts⟩ := Raw.everywhere_dict.mp known
    rw [Bool.and_eq_true] at named
    have keys := jsonMembers_keys (List.all_eq_true.mp named.1)
    have order := List.perm_insertionSort strOrder (jsonMembers members)
    refine ⟨List.pairwise_insertionSort _ _, ?_, ?_⟩
    · rw [(order.map Prod.fst).nodup_iff]
      -- As keys they are the ones of the dictionary.
      apply List.Nodup.of_map Key.str
      rw [List.map_map]
      rw [← keys] at named
      exact of_decide_eq_true named.2
    · rw [canonicalMembers_iff]
      intro member listed
      obtain ⟨part, there, rfl⟩ := List.mem_map.mp (jsonMembers_map members ▸ order.mem_iff.mp listed)
      exact ih part there (parts part there)
  | _ => trivial

mutual

/-- Canonical documents have no key twice. -/
theorem canonical_distinct : (document : Document) → document.Canonical → document.distinct = true
  | .null, _ | .bool _, _ | .int _, _ | .float _, _ | .str _, _ => rfl
  | .array items, canonical => canonicalItems_distinct items canonical
  | .object members, canonical => by
    rw [distinct, decide_eq_true canonical.2.1, canonicalMembers_distinct members canonical.2.2]
    rfl

theorem canonicalItems_distinct : (items : List Document) → CanonicalItems items → distinctItems items = true
  | [], _ => rfl
  | item :: rest, canonical => by
    rw [distinctItems, canonical_distinct item canonical.1, canonicalItems_distinct rest canonical.2]
    rfl

theorem canonicalMembers_distinct : (members : List (Str × Document)) → CanonicalMembers members →
    distinctMembers members = true
  | [], _ => rfl
  | (key, value) :: rest, canonical => by
    rw [distinctMembers, canonical_distinct value canonical.1, canonicalMembers_distinct rest canonical.2]
    rfl

end

/-- A weaker property of all parts. -/
theorem Raw.everywhere_imp {plain weaker : Raw → Bool} {keys names : List Key → Bool}
    (parts : ∀ value, plain value = true → weaker value = true)
    (lists : ∀ given, keys given = true → names given = true) (value : Raw)
    (holds : value.everywhere plain keys = true) : value.everywhere weaker names = true := by
  induction value with
  | list items ih | tuple items ih =>
    exact everyItem_iff.mpr fun item there => ih item there (everyItem_iff.mp holds item there)
  | dict members ih =>
    rw [everywhere_dict] at holds ⊢
    exact ⟨lists _ holds.1, fun member there => ih member there (holds.2 member there)⟩
  | _ => exact parts _ holds

/-- The texts of a JSON value can be encoded. -/
theorem Raw.isJson_encodable {value : Raw} (known : value.isJson = true) : value.encodable = true := by
  refine Raw.everywhere_imp (fun part holds => ?_) (fun keys holds => ?_) value known
  · cases part <;> first | rfl | exact holds | cases holds
  · rw [Bool.and_eq_true, List.all_eq_true] at holds
    rw [List.all_eq_true]
    intro key listed
    have text := holds.1 key listed
    cases key with
    | str => exact text
    | _ => cases text

/-- What is written of a JSON value, and what can be read back of it. -/
theorem json_written {value : Raw} (known : value.isJson = true) :
    (json value).encodable = true ∧ (json value).short = true ∧ (json value).distinct = true := by
  have dumped := (dump_decides true value).of_ok (dump_json true value known)
  exact ⟨dumped.2.1.trans (Raw.isJson_encodable known), dumped.2.2,
    canonical_distinct _ (json_canonical value known)⟩

end Document
