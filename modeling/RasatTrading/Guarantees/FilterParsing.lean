import RasatTrading.Analysis.Judging

/-! The filter parser: what it raises, what it returns, and that what it returns can be evaluated. -/

namespace Rasat

open Rounding

variable {text : Text}

/-- The keys of thresholds. -/
def limitKeys : List String := ["min", "max", "max_distance_pct"]

/-- All thresholds under the keys of a leaf are finite numbers. -/
def LimitsFinite (members : Members) : Prop :=
  ∀ key ∈ limitKeys, ∀ value ∈ member? members key, ∃ number : ℚ, numberOf value = some (.finite number)

/-- A node of an AST as it is promised: a known type, only allowed keys, windows that are positive integers, and
finite thresholds that are not crossed. -/
inductive WellFormed : Document → Prop
  | leaf {members : Members} {kind : String} {keys : List String} (type : member? members "type" = some (.text kind))
    (listed : filterKeys.lookup kind = some keys) (known : Known ("type" :: keys) members)
    (windows : ∀ entry ∈ intKeys kind, ∃ bars : ℕ+, member? members entry.1 = some (.int bars))
    (finite : LimitsFinite members) (ordered : crossed members = false) : WellFormed (.object members)
  | inner {members : Members} {kind : String} {items : List Document}
    (type : member? members "type" = some (.text kind)) (inner : kind ∈ innerTypes)
    (known : Known ["type", "filters"] members) (filters : member? members "filters" = some (.array items))
    (nonempty : items ≠ []) (children : ∀ item ∈ items, WellFormed item) : WellFormed (.object members)

/-- All thresholds in the leaves under a document are finite numbers. -/
inductive FiniteLimits : Document → Prop
  | leaf {members : Members} {kind : String} (type : member? members "type" = some (.text kind))
    (leaf : kind ∉ innerTypes) (finite : LimitsFinite members) : FiniteLimits (.object members)
  | inner {members : Members} {kind : String} {items : List Document}
    (type : member? members "type" = some (.text kind)) (inner : kind ∈ innerTypes)
    (filters : member? members "filters" = some (.array items))
    (children : ∀ item ∈ items, FiniteLimits item) : FiniteLimits (.object members)

/-! The defaults of a leaf. -/

/-- A default is found under its key where none was given. -/
theorem member?_setDefault (members : Members) (entry : String × ℕ+) (key : String) :
    member? (setDefault members entry) key =
      (member? members key).or (if key = entry.1 then some (.int entry.2) else none) := by
  unfold setDefault
  by_cases same : key = entry.1
  · subst same
    cases found : member? members entry.1 with
    | some value => simp [found]
    | none =>
      simp only [Option.isSome_none, Bool.false_eq_true, if_false]
      rw [member?, List.lookup_append, ← member?, found]
      simp
  · rw [if_neg same, Option.or_none]
    split
    · rfl
    · have differs : (Str.text key == Str.text entry.1) = false := by simpa using same
      rw [member?, List.lookup_append, ← member?, List.lookup_cons, differs]
      simp

/-- A default stands for a key that is missing. -/
theorem member?_defaults (entries : List (String × ℕ+)) (members : Members) (key : String) :
    member? (entries.foldl setDefault members) key =
      (member? members key).or ((entries.lookup key).map fun bars => .int bars) := by
  induction entries generalizing members with
  | nil => simp
  | cons entry rest ih =>
    rw [List.foldl_cons, ih, member?_setDefault, Option.or_assoc, List.lookup_cons]
    by_cases same : key = entry.1
    · simp [same]
    · simp [same, beq_false_of_ne same]

variable {members : Members} {kind : String} {ast : Document} {asts : List Document} {ctx : Context}

/-- A member is a given one or the default. -/
theorem mem_setDefault {entry : String × ℕ+} {member : Str × Document}
    (listed : member ∈ setDefault members entry) : member ∈ members ∨ member.1 = .text entry.1 := by
  unfold setDefault at listed
  split at listed
  · exact .inl listed
  · rcases List.mem_append.mp listed with old | added
    · exact .inl old
    · exact .inr (by rw [List.mem_singleton.mp added])

/-- The defaults add no key that is not allowed. -/
theorem known_defaults {keys : List String} {entries : List (String × ℕ+)}
    (allowed : ∀ entry ∈ entries, entry.1 ∈ keys) (known : Known keys members) :
    Known keys (entries.foldl setDefault members) := by
  induction entries generalizing members with
  | nil => exact known
  | cons entry rest ih =>
    have ⟨first, others⟩ := List.forall_mem_cons.mp allowed
    apply ih others
    intro member listed
    rcases mem_setDefault listed with old | added
    · exact known member old
    · rw [added]
      exact List.mem_map_of_mem first

/-- Integer keys are allowed keys of their type, and none is the key of a threshold or a name. -/
theorem intKeys_table : ∀ row ∈ filterKeys, ∀ entry ∈ intKeys row.1,
    entry.1 ∈ row.2 ∧ entry.1 ∉ "type" :: "event" :: "position" :: limitKeys := by
  decide

/-! What the validation returns. -/

variable {key : String}

/-- A leaf keeps all but its defaults. -/
theorem kept_by_defaults {keys : List String} (listed : filterKeys.lookup kind = some keys)
    (other : key ∈ "type" :: "event" :: "position" :: limitKeys) :
    member? ((intKeys kind).foldl setDefault members) key = member? members key := by
  have absent : (intKeys kind).lookup key = none := by
    rw [List.lookup_eq_none_iff]
    intro entry member
    have apart := (intKeys_table _ (Document.mem_of_lookup listed) entry member).2
    rw [bne_iff_ne]
    intro same
    rw [same] at other
    exact apart other
  rw [member?_defaults, absent]
  simp

/-- A leaf that is accepted is sound, and comes back with its defaults. -/
theorem validateLeaf_ok {ftype : Document} (valid : validateLeaf text members ftype = .ok ast) :
    ∃ kind, ftype = .text kind ∧ SoundLeaf kind members ∧ ast = defaults kind members := by
  obtain ⟨kind, rfl, sound⟩ := (validateLeaf_judges members ftype).accepted.mp ⟨ast, valid⟩
  refine ⟨kind, rfl, sound, ?_⟩
  obtain ⟨known, listed, -⟩ := sound.checked
  unfold validateLeaf at valid
  simp only [listed, bind_ok] at valid
  obtain ⟨-, -, -, -, valid⟩ := valid
  split at valid
  · simp only [bind_ok] at valid
    obtain ⟨-, -, -, -, -, -, same⟩ := valid
    exact (Except.ok.inj same).symm
  · simp only [bind_ok] at valid
    obtain ⟨-, -, -, -, same⟩ := valid
    exact (Except.ok.inj same).symm

/-- A list whose every item passes has as many results, one for each. -/
theorem mapM_ok {α β : Type} {check : α → Except Exc β} {items : List α} {results : List β}
    (valid : items.mapM check = .ok results) :
    List.Forall₂ (fun item result => check item = .ok result) items results := by
  induction items generalizing results with
  | nil =>
    rw [List.mapM_nil] at valid
    cases valid
    exact .nil
  | cons item rest ih =>
    rw [List.mapM_cons] at valid
    simp only [bind_ok] at valid
    obtain ⟨first, passed, others, valid, same⟩ := valid
    cases same
    exact .cons passed (ih valid)

/-- An inner node of an AST. -/
def innerNode (kind : String) (asts : List Document) : Document :=
  .object [(.text "type", .text kind), (.text "filters", .array asts)]

/-- An inner node that is accepted has a list of accepted children. -/
theorem validateInner_ok
    (valid : validateInner kind members ((member? members "filters").bind (validateList text)) = .ok ast) :
    ∃ items asts, member? members "filters" = some (.array items) ∧ items ≠ [] ∧
      List.Forall₂ (fun item ast => validateNode text item = .ok ast) items asts ∧ ast = innerNode kind asts := by
  unfold validateInner at valid
  rcases children_cases text members with ⟨-, absent⟩ | ⟨items, found, nonempty, present⟩
  · rw [absent] at valid
    simp [bind_ok, reject] at valid
  · rw [present] at valid
    simp only [bind_ok] at valid
    obtain ⟨-, -, asts, valid, same⟩ := valid
    exact ⟨items, asts, found, nonempty, mapM_ok valid, (Except.ok.inj same).symm⟩

/-- What holds of a validated leaf, and of an inner node when it holds of its validated children, holds of every
validated document. -/
theorem validated_induction {motive : Document → Document → Prop}
    (leaf : ∀ {members : Members} {kind : String}, member? members "type" = some (.text kind) →
      SoundLeaf kind members → motive (.object members) (defaults kind members))
    (inner : ∀ {members : Members} {kind : String} {items asts : List Document},
      member? members "type" = some (.text kind) → kind ∈ innerTypes →
      member? members "filters" = some (.array items) → items ≠ [] → List.Forall₂ motive items asts →
      motive (.object members) (innerNode kind asts))
    (document : Document) : ∀ ast, validateNode text document = .ok ast → motive document ast := by
  induction document using node_induction with
  | value document other =>
    intro ast valid
    -- Nothing but an object is sound.
    cases (validateNode_judges text document).accepted.mp ⟨ast, valid⟩ with
    | leaf | inner => exact absurd rfl (other _)
  | object members ih =>
    intro ast valid
    cases type : member? members "type" with
    | none =>
      rw [validateNode, type] at valid
      cases valid
    | some ftype =>
      rcases validateNode_object text type with ⟨kind, among, rfl, node⟩ | ⟨-, node⟩
      · rw [node] at valid
        obtain ⟨items, asts, found, nonempty, each, rfl⟩ := validateInner_ok valid
        have both := (List.forall₂_and_left items asts).mpr ⟨ih items found, each⟩
        exact inner type among found nonempty (both.imp fun item ast both => both.1 ast both.2)
      · rw [node] at valid
        obtain ⟨kind, rfl, sound, rfl⟩ := validateLeaf_ok valid
        exact leaf type sound

/-! The promised form. -/

section Leaf

variable {kind : String} {keys : List String} {members : Members}

/-- The members of a leaf of an AST. -/
def filled (kind : String) (members : Members) : Members := (intKeys kind).foldl setDefault members

section Listed

variable (listed : filterKeys.lookup kind = some keys)
include listed

/-- The defaults leave the type alone -/
theorem filled_type : member? (filled kind members) "type" = member? members "type" :=
  kept_by_defaults listed (by simp)

/-- and the thresholds, -/
theorem filled_limit (limit : key ∈ limitKeys) : member? (filled kind members) key = member? members key :=
  kept_by_defaults listed (by simp [limit])

/-- whether these are finite -/
theorem filled_finite : LimitsFinite (filled kind members) ↔ LimitsFinite members :=
  forall₂_congr fun _ limit => by rw [filled_limit listed limit]

/-- and whether they cross. -/
theorem filled_crossed : crossed (filled kind members) = crossed members := by
  unfold crossed threshold?
  rw [filled_limit listed (by decide), filled_limit listed (by decide)]

end Listed

/-- Every window of a validated leaf is a positive integer, given or by default. -/
theorem filled_window (sound : SoundLeaf kind members) {entry : String × ℕ+} (window : entry ∈ intKeys kind) :
    ∃ bars : ℕ+, member? (filled kind members) entry.1 = some (.int bars) := by
  obtain ⟨keys, listed, checked⟩ := sound.checked
  rw [filled, member?_defaults]
  cases found : member? members entry.1 with
  -- A window that is not given has its default.
  | none =>
    cases default : (intKeys kind).lookup entry.1 with
    | none =>
      rw [List.lookup_eq_none_iff] at default
      simpa using default entry window
    | some bars => exact ⟨bars, rfl⟩
  | some value =>
    have positive := checked.windows entry window value found
    unfold isPositiveInt at positive
    split at positive
    · rename_i bars
      have large : 1 ≤ bars := by simpa using positive
      exact ⟨⟨bars.toNat, by omega⟩, by simp; omega⟩
    · cases positive

/-- A validated leaf is well-formed when its thresholds are finite. -/
theorem leaf_wellFormed (type : member? members "type" = some (.text kind)) (sound : SoundLeaf kind members) :
    WellFormed (defaults kind members) ↔ FiniteLimits (.object members) := by
  obtain ⟨keys, listed, checked⟩ := sound.checked
  have leaf : kind ∉ innerTypes := fun inner => by
    rw [lookup_inner inner] at listed
    cases listed
  constructor
  · -- Its type is no inner type, so it is well-formed as a leaf.
    intro formed
    cases formed with
    | leaf _ _ _ _ finite => exact .leaf type leaf ((filled_finite listed).mp finite)
    | inner same inner =>
      have same := (filled_type listed).symm.trans same
      rw [type] at same
      cases same
      exact absurd inner leaf
  · intro finite
    cases finite with
    | leaf _ _ finite =>
      have allowed : ∀ entry ∈ intKeys kind, entry.1 ∈ "type" :: keys := fun entry window =>
        List.mem_cons_of_mem _ (intKeys_table _ (Document.mem_of_lookup listed) entry window).1
      exact .leaf ((filled_type listed).trans type) listed (known_defaults allowed checked.known)
        (fun entry window => filled_window sound window) ((filled_finite listed).mpr finite)
        ((filled_crossed listed).trans checked.ordered)
    | inner same inner =>
      rw [type] at same
      cases same
      exact absurd inner leaf

end Leaf

/-- An inner node is well-formed when its children are. -/
theorem innerNode_wellFormed (inner : kind ∈ innerTypes) (nonempty : asts ≠ []) :
    WellFormed (innerNode kind asts) ↔ ∀ ast ∈ asts, WellFormed ast := by
  constructor
  · intro formed
    cases formed with
    | leaf same listed =>
      cases same
      rw [lookup_inner inner] at listed
      cases listed
    | inner _ _ _ filters _ children =>
      cases filters
      exact children
  · intro children
    exact .inner rfl inner (by simp [Known]) rfl nonempty children

/-- Lists whose items correspond have the corresponding properties throughout. -/
theorem all_iff {α β : Type} {left : α → Prop} {right : β → Prop} {items : List α} {others : List β}
    (each : List.Forall₂ (fun item other => right other ↔ left item) items others) :
    (∀ other ∈ others, right other) ↔ ∀ item ∈ items, left item := by
  induction each with
  | nil => simp
  | cons same _ ih => simp [same, ih]

/-- A validated document has the promised form when its thresholds are finite. -/
theorem validated_wellFormed {document : Document} (valid : validateNode text document = .ok ast) :
    WellFormed ast ↔ FiniteLimits document := by
  apply validated_induction (motive := fun document ast => WellFormed ast ↔ FiniteLimits document) _ _
    document ast valid
  · exact leaf_wellFormed
  · intro members kind items asts type inner found nonempty each
    have filled : asts ≠ [] := fun none => by
      subst none
      exact nonempty (List.forall₂_nil_right_iff.mp each)
    rw [innerNode_wellFormed inner filled, all_iff each]
    constructor
    · exact .inner type inner found
    · intro finite
      cases finite with
      | leaf same leaf =>
        rw [type] at same
        cases same
        exact absurd inner leaf
      | inner _ _ same children =>
        rw [found] at same
        cases same
        exact children

/-! The evaluation. -/

section Sound

variable (sound : SoundLeaf kind members)
include sound

/-- A window of a validated leaf can be read. -/
theorem windowOf_filled (entry : String × ℕ+)
    (window : entry ∈ intKeys kind) : ∃ bars, windowOf (filled kind members) entry.1 = .ok bars := by
  obtain ⟨bars, found⟩ := filled_window sound window
  refine ⟨bars, ?_⟩
  rw [windowOf, found]
  exact dif_pos bars.pos

/-- A finite threshold is read as it is given. -/
theorem thresholdOf_filled
    (limit : key ∈ ["min", "max"]) : thresholdOf (filled kind members) key = .ok (threshold? members key) := by
  obtain ⟨keys, listed, checked⟩ := sound.checked
  have among : key ∈ limitKeys := (by decide : ["min", "max"] ⊆ limitKeys) limit
  rw [thresholdOf, filled_limit listed among, threshold?]
  cases found : member? members key with
  | none => rfl
  | some value =>
    -- What is given is a number.
    have number := checked.numbers key limit value found
    cases value <;> simp_all [numberOf]

/-- The thresholds of a validated leaf make bounds. -/
theorem boundsOf_filled : ∃ bounds, boundsOf (filled kind members) = .ok bounds := by
  obtain ⟨keys, listed, checked⟩ := sound.checked
  have ordered : ∀ least ∈ threshold? members "min", ∀ most ∈ threshold? members "max", most.lt least = false := by
    intro least low most high
    have apart := checked.ordered
    unfold crossed at apart
    rw [Option.mem_def.mp low, Option.mem_def.mp high] at apart
    exact apart
  rw [boundsOf, thresholdOf_filled sound (by simp), thresholdOf_filled sound (by simp)]
  exact ⟨⟨_, _, ordered⟩, dif_pos ordered⟩

/-- A name of a validated leaf is one of its table. -/
theorem nameOf_filled {α : Type} {names : List (String × α)} (named : key ∈ ["event", "position"])
    (known : (member? members key).bind (named? names) ≠ none) :
    ∃ found, nameOf names (filled kind members) key = .ok found := by
  obtain ⟨keys, listed, -⟩ := sound.checked
  have same : member? (filled kind members) key = member? members key :=
    kept_by_defaults listed (by simp only [List.mem_cons, List.not_mem_nil] at named ⊢; tauto)
  rw [nameOf, same]
  cases given : member? members key with
  -- The name is required, and known.
  | none => simp [given] at known
  | some value =>
    cases name : named? names value with
    | none => simp [given, name] at known
    | some found => exact ⟨found, by simp [name]⟩

/-- The distance of a validated leaf is the given one. -/
theorem distanceOf_filled
    (distance : isDistance members = true) : ∃ limit, distanceOf (filled kind members) = .ok limit := by
  obtain ⟨keys, listed, -⟩ := sound.checked
  have same : threshold? (filled kind members) "max_distance_pct" = threshold? members "max_distance_pct" := by
    rw [threshold?, filled_limit listed (by decide), ← threshold?]
  rw [distanceOf, same]
  unfold isDistance at distance
  cases given : threshold? members "max_distance_pct" with
  | none => simp [given] at distance
  | some limit =>
    have nonneg : limit.lt (.finite 0) = false := by simpa [given] using distance
    exact ⟨⟨limit, nonneg⟩, dif_pos nonneg⟩

/-- Every validated leaf is a test that can be read. -/
theorem readLeaf_filled : ∃ test, readLeaf kind (filled kind members) = .ok test := by
  obtain ⟨keys, listed, -⟩ := sound.checked
  have row := Document.mem_of_lookup listed
  have bounds := boundsOf_filled sound
  -- One case for each type of leaf, with the fields that its evaluation reads.
  simp only [filterKeys, List.mem_cons, List.not_mem_nil, or_false, Prod.mk.injEq] at row
  rcases row with ⟨rfl, -⟩ | ⟨rfl, -⟩ | ⟨rfl, -⟩ | ⟨rfl, -⟩ | ⟨rfl, -⟩ | ⟨rfl, -⟩ | ⟨rfl, -⟩ | ⟨rfl, -⟩
  · obtain ⟨recent, readRecent⟩ := windowOf_filled sound ("recent_bars", 24) (by decide)
    obtain ⟨baseline, readBaseline⟩ := windowOf_filled sound ("baseline_bars", 24) (by decide)
    obtain ⟨bounds, readBounds⟩ := bounds
    exact ⟨.volumeChange recent baseline bounds, by rw [readLeaf, readRecent, readBaseline, readBounds]; rfl⟩
  · obtain ⟨window, readWindow⟩ := windowOf_filled sound ("window_bars", 24) (by decide)
    obtain ⟨bounds, readBounds⟩ := bounds
    exact ⟨.priceChange window bounds, by rw [readLeaf, readWindow, readBounds]; rfl⟩
  · obtain ⟨since, readSince⟩ := windowOf_filled sound ("since_bars", 50) (by decide)
    have named := sound.event rfl
    have known : (member? members "event").bind (named? eventTypes) ≠ none := by
      unfold eventOf at named
      cases given : member? members "event" with
      | none => simp [given, named?] at named
      | some value => simpa [given] using named
    obtain ⟨event, readEvent⟩ := nameOf_filled sound (by simp) known
    exact ⟨.structureEvent event since, by rw [readLeaf, readEvent, readSince]; rfl⟩
  · obtain ⟨since, readSince⟩ := windowOf_filled sound ("since_bars", 50) (by decide)
    exact ⟨.liquiditySweepOccurred since, by rw [readLeaf, readSince]; rfl⟩
  · obtain ⟨limit, readLimit⟩ := distanceOf_filled sound (sound.distance rfl)
    exact ⟨.nearOrderBlock limit, by rw [readLeaf, readLimit]; rfl⟩
  · obtain ⟨bounds, readBounds⟩ := bounds
    exact ⟨.fundingRate bounds, by rw [readLeaf, readBounds]; rfl⟩
  · obtain ⟨window, readWindow⟩ := windowOf_filled sound ("window", 1) (by decide)
    obtain ⟨bounds, readBounds⟩ := bounds
    exact ⟨.oiChange window bounds, by rw [readLeaf, readWindow, readBounds]; rfl⟩
  · obtain ⟨position, readPosition⟩ := nameOf_filled sound (by simp) (sound.position rfl)
    exact ⟨.aboveBelowVwap position, by rw [readLeaf, readPosition]; rfl⟩

end Sound

/-- The document and the filter have the same value in every context. -/
def SameValue (ast : Document) (node : FilterNode) : Prop := ∀ ctx, evalDocument ctx ast = evalNode ctx node

variable {nodes : List FilterNode}

/-- Over values, `and` gives what the typed nodes give, -/
theorem evalItems_all
    (each : List.Forall₂ SameValue asts nodes) : evalItems ctx true asts = evalAll ctx nodes := by
  induction each with
  | nil => rw [evalItems, evalAll]
  | cons same _ ih => rw [evalItems, evalAll, same ctx, ih]; rfl

/-- and so does `or`. -/
theorem evalItems_any
    (each : List.Forall₂ SameValue asts nodes) : evalItems ctx false asts = evalAny ctx nodes := by
  induction each with
  | nil => rw [evalItems, evalAny]
  | cons same _ ih =>
    rw [evalItems, evalAny, same ctx, ih]
    refine congrArg _ (funext fun value => ?_)
    cases value <;> rfl

/-- An inner node of an AST has the value of the filter over its children. -/
theorem innerNode_value {node : FilterNode} (inner : kind ∈ innerTypes)
    (each : List.Forall₂ SameValue (ast :: asts) (node :: nodes)) :
    ∃ above, SameValue (innerNode kind (ast :: asts)) above := by
  simp only [innerTypes, List.mem_cons, List.not_mem_nil, or_false] at inner
  rcases inner with rfl | rfl
  · refine ⟨.and node nodes, fun ctx => ?_⟩
    show evalItems ctx true (ast :: asts) = _
    rw [evalItems_all each, evalAll, evalNode]
  · refine ⟨.or node nodes, fun ctx => ?_⟩
    show evalItems ctx false (ast :: asts) = _
    rw [evalItems_any each, evalAny, evalNode]

/-- A leaf of an AST is evaluated as its typed test. -/
theorem leaf_value (type : member? members "type" = some (.text kind))
    (sound : SoundLeaf kind members) : ∃ node, SameValue (defaults kind members) node := by
  obtain ⟨keys, listed, -⟩ := sound.checked
  obtain ⟨test, read⟩ := readLeaf_filled sound
  have leaf : kind ≠ "and" ∧ kind ≠ "or" := by
    constructor <;> (rintro rfl; cases listed)
  refine ⟨.leaf test, fun ctx => ?_⟩
  show evalDocument ctx (.object (filled kind members)) = _
  rw [evalDocument, filled_type listed, type]
  simp only [if_neg leaf.1, if_neg leaf.2, read, evalNode]
  rfl

/-- Documents that are values correspond to typed nodes. -/
theorem values_of {items : List Document}
    (each : List.Forall₂ (fun _ ast => ∃ node, SameValue ast node) items asts) :
    ∃ nodes, List.Forall₂ SameValue asts nodes := by
  induction each with
  | nil => exact ⟨[], .nil⟩
  | cons first _ ih =>
    obtain ⟨node, same⟩ := first
    obtain ⟨nodes, each⟩ := ih
    exact ⟨node :: nodes, .cons same each⟩

/-- Nodes with values under an inner node give it one. -/
theorem children_value {items : List Document} (inner : kind ∈ innerTypes) (nonempty : items ≠ [])
    (each : List.Forall₂ (fun _ ast => ∃ node, SameValue ast node) items asts) :
    ∃ node, SameValue (innerNode kind asts) node := by
  obtain ⟨nodes, values⟩ := values_of each
  cases values with
  | nil => exact absurd (List.forall₂_nil_right_iff.mp each) nonempty
  | cons first rest => exact innerNode_value inner (.cons first rest)

/-- A validated document is evaluated as a filter is. -/
theorem validated_value {document : Document} (valid : validateNode text document = .ok ast) :
    ∃ node, SameValue ast node := by
  apply validated_induction (motive := fun _ ast => ∃ node, SameValue ast node) _ _ document ast valid
  · exact leaf_value
  · exact fun type inner found nonempty each => children_value inner nonempty each

variable {filters : Document}

/-- The validation returns a root over the validated nodes. -/
theorem validateFilters_ok {combine : Option String} (valid : validateFilters text filters combine = .ok ast) :
    ∃ kind ∈ innerTypes, ∃ asts, itemsOf filters ≠ [] ∧
      List.Forall₂ (fun item ast => validateNode text item = .ok ast) (itemsOf filters) asts ∧
        ast = innerNode kind asts := by
  have ⟨known, nonempty, _⟩ := (validateFilters_judges text filters combine).accepted.mp ⟨ast, valid⟩
  unfold validateFilters at valid
  simp only [bind_ok] at valid
  obtain ⟨-, -, -, -, asts, each, same⟩ := valid
  rw [validateNodes_eq] at each
  refine ⟨_, ?_, asts, nonempty, mapM_ok each, (Except.ok.inj same).symm⟩
  simp only [CombineKnown, List.mem_cons, List.not_mem_nil, or_false] at known
  rcases known with known | known <;> rw [known] <;> decide

/-! Contexts as the callers build them. -/

/-- A context with candles and with the close of the last of them. -/
structure Context.Built (ctx : Context) : Prop where
  candles : ctx.candles ≠ []
  close : ctx.close = ctx.candles.getLast?.map Candle.close

/-- The only exception of an evaluation is the division by a price of zero. -/
def Smooth {α : Type} (ctx : Context) (result : Except Exc α) : Prop :=
  ∀ raised, result = .error raised → raised = zeroDivisionError ∧ ctx.close = some 0

/-- A value is smooth. -/
theorem Smooth.ok {α : Type} (value : α) : Smooth ctx (.ok value : Except Exc α) := by
  intro raised same
  cases same

/-- A sequence is smooth when both of its parts are. -/
theorem Smooth.bind {α β : Type} {first : Except Exc α} {next : α → Except Exc β}
    (smooth : Smooth ctx first) (later : ∀ value, Smooth ctx (next value)) : Smooth ctx (first >>= next) := by
  intro raised same
  cases outcome : first with
  | error other =>
    rw [outcome] at same smooth
    obtain rfl : other = raised := by cases same; rfl
    exact smooth other rfl
  | ok value =>
    rw [outcome] at same
    exact later value raised same

/-- So is the cutoff over a context that was built, -/
theorem cutoff_smooth (built : ctx.Built) (since : ℕ+) : Smooth ctx (cutoff ctx.candles since) := by
  have some : 0 < ctx.candles.length := List.length_pos_of_ne_nil built.candles
  have within : ctx.candles.length - since < ctx.candles.length := Nat.sub_lt some since.pos
  unfold cutoff
  rw [List.getElem?_eq_getElem within]
  exact .ok _

/-- every test -/
theorem test_smooth (built : ctx.Built) (test : FilterTest) : Smooth ctx (test.eval ctx) := by
  obtain ⟨close, known⟩ : ∃ close, ctx.close = some close := by
    rw [built.close, List.getLast?_eq_some_getLast built.candles]
    exact ⟨_, rfl⟩
  cases test with
  | volumeChange | priceChange | fundingRate | oiChange => exact .ok _
  | structureEvent event since =>
    show Smooth ctx (evalStructureEvent event since ctx)
    unfold evalStructureEvent
    split
    · exact .ok _
    · exact (cutoff_smooth built since).bind fun _ => .ok _
  | liquiditySweepOccurred since =>
    show Smooth ctx (evalLiquiditySweep since ctx)
    unfold evalLiquiditySweep
    split
    · exact .ok _
    · exact (cutoff_smooth built since).bind fun _ => .ok _
  | nearOrderBlock limit =>
    show Smooth ctx (evalNearOrderBlock limit ctx)
    simp only [evalNearOrderBlock, known]
    split
    · exact .ok _
    · split
      · -- Only the distance in percent divides by the close.
        rename_i zero
        intro raised same
        cases same
        exact ⟨rfl, zero ▸ known⟩
      · exact .ok _
  | aboveBelowVwap position =>
    show Smooth ctx (evalAboveBelowVwap position ctx)
    unfold evalAboveBelowVwap
    rw [known]
    cases ctx.vwap <;> cases position <;> exact .ok _

mutual

/-- and every node. -/
theorem evalNode_smooth (built : ctx.Built) : (node : FilterNode) → Smooth ctx (evalNode ctx node)
  | .leaf test => by
    rw [evalNode]
    exact test_smooth built test
  | .and first rest => by
    rw [evalNode]
    refine (evalNode_smooth built first).bind fun value => ?_
    split
    · exact evalAll_smooth built rest
    · exact .ok _
  | .or first rest => by
    rw [evalNode]
    refine (evalNode_smooth built first).bind fun value => ?_
    split
    · exact .ok _
    · exact evalAny_smooth built rest

/-- All nodes of a list are evaluated smoothly under `and`, -/
theorem evalAll_smooth (built : ctx.Built) : (nodes : List FilterNode) → Smooth ctx (evalAll ctx nodes)
  | [] => by
    rw [evalAll]
    exact .ok _
  | node :: rest => by
    rw [evalAll]
    refine (evalNode_smooth built node).bind fun value => ?_
    split
    · exact evalAll_smooth built rest
    · exact .ok _

/-- and under `or`. -/
theorem evalAny_smooth (built : ctx.Built) : (nodes : List FilterNode) → Smooth ctx (evalAny ctx nodes)
  | [] => by
    rw [evalAny]
    exact .ok _
  | node :: rest => by
    rw [evalAny]
    refine (evalNode_smooth built node).bind fun value => ?_
    split
    · exact .ok _
    · exact evalAny_smooth built rest

end

/-! The parser as a whole. -/

/-- Nothing is raised but the refusal of the request, and what is returned has the promised form and can be
evaluated. -/
structure ParsedExactly (text : Text) (filters : Document) (combine : Option String) : Prop where
  refused : ∀ raised, validateFilters text filters combine = .error raised → RequestRefused raised
  formed : ∀ ast, validateFilters text filters combine = .ok ast → WellFormed ast
  evaluable : ∀ ast, validateFilters text filters combine = .ok ast → ∀ ctx : Context, ctx.Built →
    Smooth ctx (evalDocument ctx ast)

/-- The root of a validated request is well-formed when its thresholds are finite. -/
theorem root_wellFormed {combine : Option String} (valid : validateFilters text filters combine = .ok ast) :
    WellFormed ast ↔ ∀ item ∈ itemsOf filters, FiniteLimits item := by
  obtain ⟨kind, inner, asts, nonempty, each, rfl⟩ := validateFilters_ok valid
  have filled : asts ≠ [] := fun none => by
    subst none
    exact nonempty (List.forall₂_nil_right_iff.mp each)
  rw [innerNode_wellFormed inner filled]
  exact all_iff (each.imp fun item ast valid => validated_wellFormed valid)

/-- The parser is total and exact unless it looks up a value without a hash, or accepts a threshold that is not
finite. -/
theorem parsed_exactly_iff (text : Text) (filters : Document) (combine : Option String) :
    ParsedExactly text filters combine ↔ (CombineKnown combine →
      ¬StumblesAmong (itemsOf filters) ∧
        ((∀ item ∈ itemsOf filters, Sound item) → ∀ item ∈ itemsOf filters, FiniteLimits item)) := by
  have judged := validateFilters_judges text filters combine
  constructor
  · intro exact known
    constructor
    · intro stumbled
      obtain ⟨message, raised⟩ := judged.raised.mpr ⟨known, stumbled⟩
      obtain ⟨other, same⟩ := exact.refused _ raised
      cases same
    · intro sound item listed
      have nonempty : itemsOf filters ≠ [] := List.ne_nil_of_mem listed
      obtain ⟨ast, valid⟩ := judged.accepted.mpr ⟨known, nonempty, sound⟩
      exact (root_wellFormed valid).mp (exact.formed ast valid) item listed
  · intro condition
    constructor
    · intro raised failed
      rcases judged.refused raised failed with ⟨message, rfl⟩ | refused
      · obtain ⟨known, stumbled⟩ := judged.raised.mp ⟨message, failed⟩
        exact absurd stumbled (condition known).1
      · exact refused
    · intro ast valid
      obtain ⟨known, -, sound⟩ := judged.accepted.mp ⟨ast, valid⟩
      exact (root_wellFormed valid).mpr ((condition known).2 sound)
    · intro ast valid ctx built
      obtain ⟨kind, inner, asts, nonempty, each, rfl⟩ := validateFilters_ok valid
      obtain ⟨node, same⟩ := children_value inner nonempty (each.imp fun item ast valid => validated_value valid)
      rw [same ctx]
      exact evalNode_smooth built node

/-- A filter whose type is a list. -/
def listType : Document := .object [(.text "type", .array [])]

/-- A structure event that is a list. -/
def listEvent : Document := .object [(.text "type", .text "structure_event"), (.text "event", .array [])]

/-- A filter whose threshold compares with nothing. -/
def nanThreshold : Document := .object [(.text "type", .text "price_change"), (.text "min", .float .nan)]

/-- A document that stumbles is not refused. -/
theorem stumbles_misparsed (alone : itemsOf filters = [filters]) (stumbles : Stumbles filters) :
    ¬ParsedExactly text filters none := by
  intro exact
  have among : StumblesAmong (itemsOf filters) := ⟨[], filters, [], alone, by simp, stumbles⟩
  obtain ⟨message, raised⟩ := (validateFilters_judges text filters none).raised.mpr ⟨by decide, among⟩
  obtain ⟨other, same⟩ := exact.refused _ raised
  cases same

/-- A threshold that is no number passes the validation. -/
theorem nanThreshold_sound : Sound nanThreshold := by
  apply Sound.leaf (rfl : member? _ "type" = some (.text "price_change"))
  refine ⟨⟨["window_bars", "min", "max"], rfl, by simp [Known], ?_, ?_, rfl⟩, by simp, by simp, by simp⟩
  · intro entry window value found
    obtain rfl := List.mem_singleton.mp window
    cases found
  · intro key limit value found
    simp only [List.mem_cons, List.not_mem_nil, or_false] at limit
    rcases limit with rfl | rfl <;> cases found
    simp [numberOf]

/-- An event that is a list makes the validation stumble. -/
theorem listEvent_stumbles : Stumbles listEvent := by
  refine .event rfl rfl ⟨by simp [Known], ?_, ?_, rfl⟩ trivial
  · intro entry window value found
    obtain rfl := List.mem_singleton.mp window
    cases found
  · intro key limit value found
    simp only [List.mem_cons, List.not_mem_nil, or_false] at limit
    rcases limit with rfl | rfl <;> cases found

/-- A list as the type or as the event of a filter raises a `TypeError`, and a threshold that is no number is
accepted. -/
theorem filters_misparsed :
    (∀ text, ¬ParsedExactly text listType none) ∧ (∀ text, ¬ParsedExactly text listEvent none) ∧
      ∀ text, ¬ParsedExactly text nanThreshold none := by
  refine ⟨fun text => ?_, fun text => ?_, fun text exact => ?_⟩
  · exact stumbles_misparsed rfl (.type rfl trivial)
  · exact stumbles_misparsed rfl listEvent_stumbles
  · have sound : ∀ item ∈ itemsOf nanThreshold, Sound item := by
      intro item listed
      rw [List.mem_singleton.mp listed]
      exact nanThreshold_sound
    obtain ⟨ast, valid⟩ := (validateFilters_judges text nanThreshold none).accepted.mpr
      ⟨by decide, by decide, sound⟩
    have finite := (root_wellFormed valid).mp (exact.formed ast valid) nanThreshold List.mem_cons_self
    cases finite with
    | leaf _ _ finite =>
      obtain ⟨number, same⟩ := finite "min" (by decide) (.float .nan) rfl
      cases same
    | inner type inner =>
      cases type
      revert inner
      decide

end Rasat
