import RasatTrading.Orders.CloseAll

/-! The kill switch's targets: one for every client order id that is open here or at the exchange. -/

namespace Rasat

variable {α : Type} {key : α → String}

/-- The keys of a dictionary, in order. -/
def keysOf (entries : List (String × α)) : List String := entries.map fun entry => entry.1

/-- Inserting an entry keeps the old keys and adds a new one at the end. -/
theorem insertEntry_keys (name : String) (value : α) (entries : List (String × α)) :
    keysOf (insertEntry name value entries) =
      if name ∈ keysOf entries then keysOf entries else keysOf entries ++ [name] := by
  -- The worker stops at the first entry with that key.
  induction entries with
  | nil => simp [insertEntry, keysOf]
  | cons entry rest ih =>
    by_cases same : entry.1 = name
    · simp [insertEntry, keysOf, same]
    · have other : ¬name = entry.1 := fun equal => same equal.symm
      simp only [insertEntry, if_neg same]
      simp only [keysOf, List.map_cons, List.mem_cons, other, false_or] at ih ⊢
      rw [ih]
      split <;> rename_i listed <;> simp [listed]

/-- An entry after an insertion is the new one or an old one. -/
theorem mem_insertEntry {name : String} {value : α} {entries : List (String × α)}
    {entry : String × α} (member : entry ∈ insertEntry name value entries) :
    entry = (name, value) ∨ entry ∈ entries := by
  induction entries with
  | nil => exact .inl (by simpa [insertEntry] using member)
  | cons first rest ih =>
    by_cases same : first.1 = name
    · simp only [insertEntry, if_pos same, List.mem_cons] at member
      rcases member with new | old
      · exact .inl new
      · exact .inr (List.mem_cons_of_mem _ old)
    · simp only [insertEntry, if_neg same, List.mem_cons] at member
      rcases member with head | tail
      · exact .inr (by simp [head])
      · rcases ih tail with new | old
        · exact .inl new
        · exact .inr (List.mem_cons_of_mem _ old)

/-- What a dictionary of items is, whatever dictionary it starts from. -/
structure DictOf (key : α → String) (items : List α) (before after : List (String × α)) : Prop where
  distinct : (keysOf before).Nodup → (keysOf after).Nodup
  entries : ∀ entry ∈ after, entry ∈ before ∨ entry.2 ∈ items ∧ key entry.2 = entry.1
  keys : ∀ name, name ∈ keysOf after ↔ name ∈ keysOf before ∨ ∃ item ∈ items, key item = name

/-- Folding the items into a dictionary, one insertion after the other. -/
theorem foldl_insertEntry (items : List α) (before : List (String × α)) :
    DictOf key items before
      (items.foldl (fun entries item => insertEntry (key item) item entries) before) := by
  induction items generalizing before with
  | nil => exact ⟨id, fun entry member => .inl member, by simp⟩
  | cons item rest ih =>
    obtain ⟨distinct, entries, keys⟩ := ih (insertEntry (key item) item before)
    refine ⟨fun nodup => distinct ?_, fun entry member => ?_, fun name => ?_⟩
    · -- A repeated key is not added again.
      rw [insertEntry_keys]
      split
      · exact nodup
      · rename_i absent
        exact List.nodup_append.mpr ⟨nodup, by simp, by simp; exact fun k old same => absent (same ▸ old)⟩
    · rcases entries entry member with old | ⟨inside, named⟩
      · rcases mem_insertEntry old with rfl | older
        · exact .inr ⟨by simp, rfl⟩
        · exact .inl older
      · exact .inr ⟨by simp [inside], named⟩
    · rw [List.foldl_cons, keys, insertEntry_keys]
      by_cases known : key item ∈ keysOf before
      · rw [if_pos known]
        constructor
        · rintro (old | ⟨other, inside, named⟩)
          · exact .inl old
          · exact .inr ⟨other, by simp [inside], named⟩
        · rintro (old | ⟨other, inside, named⟩)
          · exact .inl old
          · rcases List.mem_cons.mp inside with rfl | later
            · exact .inl (named ▸ known)
            · exact .inr ⟨other, later, named⟩
      · rw [if_neg known]
        simp only [List.mem_append, List.mem_cons, List.not_mem_nil, or_false, exists_eq_or_imp]
        constructor
        · rintro ((old | new) | later)
          · exact .inl old
          · exact .inr (.inl new.symm)
          · exact .inr (.inr later)
        · rintro (old | new | later)
          · exact .inl (.inl old)
          · exact .inl (.inr new.symm)
          · exact .inr later

theorem dictBy_dict (key : α → String) (items : List α) : DictOf key items [] (dictBy key items) :=
  foldl_insertEntry items []

theorem dictBy_distinct (items : List α) : (keysOf (dictBy key items)).Nodup :=
  (dictBy_dict key items).distinct (by simp [keysOf])

/-- An entry of a dictionary is one of its items, under that item's key. -/
theorem mem_dictBy {items : List α} {entry : String × α} (member : entry ∈ dictBy key items) :
    entry.2 ∈ items ∧ key entry.2 = entry.1 := by
  rcases (dictBy_dict key items).entries entry member with impossible | facts
  · cases impossible
  · exact facts

/-- What an insertion into a dictionary leaves under each name. -/
theorem mem_insertEntry_iff {name other : String} {value item : α} {entries : List (String × α)}
    (distinct : (keysOf entries).Nodup) :
    (other, item) ∈ insertEntry name value entries ↔
      other = name ∧ item = value ∨ other ≠ name ∧ (other, item) ∈ entries := by
  induction entries with
  | nil => simp [insertEntry]
  | cons entry rest ih =>
    obtain ⟨first, held⟩ := entry
    obtain ⟨absent, distinct⟩ := List.nodup_cons.mp distinct
    by_cases same : first = name
    · -- The value of the name is replaced, and no other entry has that name.
      subst same
      have others : (other, item) ∈ rest → other ≠ first := by
        rintro listed rfl
        exact absent (List.mem_map_of_mem (f := fun entry => entry.1) listed)
      simp only [insertEntry, if_true, List.mem_cons, Prod.mk.injEq]
      constructor
      · rintro (new | old)
        · exact .inl new
        · exact .inr ⟨others old, .inr old⟩
      · rintro (new | ⟨apart, ⟨same, -⟩ | old⟩)
        · exact .inl new
        · exact absurd same apart
        · exact .inr old
    · simp only [insertEntry, if_neg same, List.mem_cons, Prod.mk.injEq, ih distinct]
      constructor
      · rintro (⟨rfl, rfl⟩ | new | ⟨apart, old⟩)
        · exact .inr ⟨same, .inl ⟨rfl, rfl⟩⟩
        · exact .inl new
        · exact .inr ⟨apart, .inr old⟩
      · rintro (new | ⟨apart, own | old⟩)
        · exact .inr (.inl new)
        · exact .inl own
        · exact .inr (.inr ⟨apart, old⟩)

/-- A dictionary has under a name the last item with that key. -/
theorem mem_dictBy_iff {items : List α} {name : String} {item : α} :
    (name, item) ∈ dictBy key items ↔ (items.filter fun item => key item = name).getLast? = some item := by
  induction items using List.reverseRecOn generalizing item with
  | nil => simp [dictBy]
  | append_singleton items last ih =>
    have folded : dictBy key (items ++ [last]) = insertEntry (key last) last (dictBy key items) := by
      simp only [dictBy, List.foldl_append, List.foldl_cons, List.foldl_nil]
    rw [folded, mem_insertEntry_iff (dictBy_distinct items), ih, List.filter_append]
    by_cases own : key last = name
    · simp [own, eq_comm]
    · simp [own, Ne.symm own]

variable {active : List Order} {exchange : List ExchangeOrder}

/-- No client order id is a target twice. -/
theorem cancelTargets_distinct : ((cancelTargets active exchange).map Target.clientOrderId).Nodup := by
  -- The two parts are dictionaries, and the second one leaves out the keys of the first.
  unfold cancelTargets
  dsimp only
  rw [List.map_append, List.map_map, List.map_map]
  refine List.nodup_append.mpr ⟨dictBy_distinct active, ?_, ?_⟩
  · exact (List.Sublist.map _ List.filter_sublist).nodup (dictBy_distinct _)
  · intro id local_ other foreign same
    obtain ⟨row, stored, rfl⟩ := List.mem_map.mp local_
    obtain ⟨entry, open_, rfl⟩ := List.mem_map.mp foreign
    have absent := (List.mem_filter.mp open_).2
    simp only [List.all_eq_true, decide_eq_true_eq] at absent
    exact absent row stored same

/-- A target with a local row is that row, under its own id and symbol. -/
theorem cancelTargets_row {target : Target} {row : Order}
    (member : target ∈ cancelTargets active exchange) (local_ : target.order = some row) :
    row ∈ active ∧ row.clientOrderId = target.clientOrderId ∧ row.symbol = target.symbol := by
  rcases List.mem_append.mp member with stored | foreign
  · obtain ⟨entry, inside, rfl⟩ := List.mem_map.mp stored
    cases local_
    obtain ⟨listed, named⟩ := mem_dictBy inside
    exact ⟨listed, named, rfl⟩
  · obtain ⟨entry, inside, rfl⟩ := List.mem_map.mp foreign
    cases local_

/-- The symbol of the order that a client order id stands for: the last one stored here under it, else the last
one that the exchange lists. -/
def standsFor (active : List Order) (exchange : List ExchangeOrder) (id : String) : Option String :=
  ((active.filter fun row => row.clientOrderId = id).getLast?.map fun row => row.symbol).or
    ((exchange.filter fun order => order.namedId = some id).getLast?.map fun order => order.symbol)

/-- The exchange's orders under an id, as the dictionary finds them. -/
theorem filter_named (exchange : List ExchangeOrder) (id : String) :
    ((exchange.filterMap fun order => order.namedId.map fun id => (id, order)).filter fun entry => entry.1 = id) =
      (exchange.filter fun order => order.namedId = some id).map fun order => (id, order) := by
  induction exchange with
  | nil => rfl
  | cons order rest ih =>
    cases named : order.namedId with
    | none => simp [named, ih]
    | some own =>
      by_cases same : own = id
      · simp [named, same, ih]
      · simp [named, same, ih]

/-- A client order id stands for the symbol of its target. -/
theorem standsFor_iff {id symbol : String} :
    standsFor active exchange id = some symbol ↔
      ∃ target ∈ cancelTargets active exchange, target.clientOrderId = id ∧ target.symbol = symbol := by
  have local_ (row : Order) : (id, row) ∈ dictBy (fun row : Order => row.clientOrderId) active ↔
      (active.filter fun row => row.clientOrderId = id).getLast? = some row := mem_dictBy_iff
  have foreign (order : ExchangeOrder) : (id, (id, order)) ∈ dictBy (fun entry : String × ExchangeOrder => entry.1)
      (exchange.filterMap fun order => order.namedId.map fun id => (id, order)) ↔
        (exchange.filter fun order => order.namedId = some id).getLast? = some order := by
    rw [mem_dictBy_iff, filter_named, List.getLast?_map]
    simp
  unfold standsFor
  constructor
  · intro stands
    cases stored : (active.filter fun row => row.clientOrderId = id).getLast? with
    | some row =>
      rw [stored] at stands
      cases stands
      exact ⟨⟨id, row.symbol, some row⟩,
        List.mem_append_left _ (List.mem_map.mpr ⟨(id, row), (local_ row).mpr stored, rfl⟩), rfl, rfl⟩
    | none =>
      rw [stored, Option.map_none, Option.none_or] at stands
      obtain ⟨order, listed, rfl⟩ := Option.map_eq_some_iff.mp stands
      -- No row has the id, so the exchange's entry stays.
      have kept : ((dictBy (fun row : Order => row.clientOrderId) active).all fun row => row.1 ≠ id) = true := by
        refine List.all_eq_true.mpr fun row inside => decide_eq_true fun same => ?_
        subst same
        rw [(local_ row.2).mp inside] at stored
        cases stored
      exact ⟨⟨id, order.symbol, none⟩, List.mem_append_right _ (List.mem_map.mpr
        ⟨(id, (id, order)), List.mem_filter.mpr ⟨(foreign order).mpr listed, kept⟩, rfl⟩), rfl, rfl⟩
  · rintro ⟨target, member, rfl, rfl⟩
    rcases List.mem_append.mp member with stored | listed
    · obtain ⟨⟨own, row⟩, inside, rfl⟩ := List.mem_map.mp stored
      rw [(local_ row).mp inside]
      rfl
    · obtain ⟨⟨own, named, order⟩, inside, rfl⟩ := List.mem_map.mp listed
      obtain ⟨inside, absent⟩ := List.mem_filter.mp inside
      obtain rfl : named = own := (mem_dictBy inside).2
      rw [(foreign order).mp inside]
      cases stored : (active.filter fun row => row.clientOrderId = named).getLast? with
      | none => rfl
      | some row => exact absurd rfl (of_decide_eq_true (List.all_eq_true.mp absent _ ((local_ row).mpr stored)))

end Rasat
