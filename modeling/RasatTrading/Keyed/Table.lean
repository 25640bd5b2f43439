import Mathlib.Data.List.Nodup
import Mathlib.Algebra.BigOperators.Group.List.Basic
import Mathlib.Algebra.Order.BigOperators.Group.List
import Mathlib.Data.List.Induction

/-! Tables of rows under unique keys, with insertion that replaces the row of a known key. -/

namespace Keyed

variable {κ ρ : Type*} [DecidableEq κ] {key : ρ → κ}

/-- Put a row in the place of the row with its key, or behind the others. -/
def upsertRow (key : ρ → κ) (row : ρ) : List ρ → List ρ
  | [] => [row]
  | old :: rest => if key old = key row then row :: rest else old :: upsertRow key row rest

/-- A row of the changed list is the new one or an old one. -/
theorem mem_of_mem_upsertRow {row found : ρ} {rows : List ρ}
    (member : found ∈ upsertRow key row rows) : found = row ∨ found ∈ rows := by
  -- The walk stops at the first row under the same key.
  induction rows with
  | nil => simpa [upsertRow] using member
  | cons old rest ih =>
    unfold upsertRow at member
    split at member
    · rcases List.mem_cons.mp member with same | inRest
      · exact .inl same
      · exact .inr (by simp [inRest])
    · rcases List.mem_cons.mp member with same | inRest
      · exact .inr (by simp [same])
      · exact (ih inRest).imp_right fun older => by simp [older]

variable {row : ρ}

/-- A row with a new key comes last. -/
theorem upsertRow_fresh {rows : List ρ} (fresh : ∀ old ∈ rows, key old ≠ key row) :
    upsertRow key row rows = rows ++ [row] := by
  induction rows with
  | nil => rfl
  | cons old rest ih =>
    have first := fresh old List.mem_cons_self
    have later := ih fun other member => fresh other (List.mem_cons_of_mem _ member)
    rw [upsertRow, if_neg first, later, List.cons_append]

/-- Insertion keeps the keys unique. -/
theorem upsertRow_unique (row : ρ) {rows : List ρ} (unique : (rows.map key).Nodup) :
    ((upsertRow key row rows).map key).Nodup := by
  induction rows with
  | nil => simp [upsertRow]
  | cons old rest ih =>
    simp only [List.map_cons, List.nodup_cons] at unique
    unfold upsertRow
    split
    · -- The new row takes over the key of the row that it replaces.
      rename_i same
      simp only [List.map_cons, List.nodup_cons, ← same]
      exact unique
    · rename_i differs
      simp only [List.map_cons, List.nodup_cons]
      refine ⟨?_, ih unique.2⟩
      intro taken
      obtain ⟨found, member, shared⟩ := List.mem_map.mp taken
      rcases mem_of_mem_upsertRow member with rfl | older
      · exact differs shared.symm
      · exact unique.1 (List.mem_map.mpr ⟨found, older, shared⟩)

/-- Looking a key up after an insertion. -/
theorem find?_upsertRow (row : ρ) (wanted : κ) (rows : List ρ) :
    (upsertRow key row rows).find? (fun found => decide (key found = wanted)) =
      if key row = wanted then some row
      else rows.find? (fun found => decide (key found = wanted)) := by
  induction rows with
  | nil =>
    by_cases same : key row = wanted
    · simp [upsertRow, same]
    · simp [upsertRow, same]
  | cons old rest ih =>
    unfold upsertRow
    split
    · -- The replaced row answered to the same key as the new one.
      rename_i replaced
      by_cases same : key row = wanted
      · simp [same]
      · simp [same, replaced]
    · rename_i kept
      by_cases first : key old = wanted
      · have other : key row ≠ wanted := fun same => kept (first.trans same.symm)
        simp [first, other]
      · rw [List.find?_cons, ih]
        simp [first]

/-- Rows that are told apart by a key. -/
structure Table (key : ρ → κ) where
  rows : List ρ
  unique : (rows.map key).Nodup

namespace Table

/-- A table without rows. -/
def empty : Table key := ⟨[], List.nodup_nil⟩

/-- The row under a key. -/
def find (table : Table key) (wanted : κ) : Option ρ :=
  table.rows.find? fun row => decide (key row = wanted)

/-- Store a row, replacing the one under its key. -/
def upsert (table : Table key) (row : ρ) : Table key :=
  ⟨upsertRow key row table.rows, upsertRow_unique row table.unique⟩

/-- Store rows one after another. -/
def upsertAll (table : Table key) (rows : List ρ) : Table key := rows.foldl upsert table

/-- Delete the rows that are not to be kept. -/
def keep (table : Table key) (kept : ρ → Bool) : Table key :=
  ⟨table.rows.filter kept, table.unique.sublist (List.filter_sublist.map key)⟩

/-- Change columns that are not in the key. -/
def change (table : Table key) (update : ρ → ρ) (same : ∀ row, key (update row) = key row) :
    Table key :=
  ⟨table.rows.map update, by
    rw [List.map_map, show key ∘ update = key from funext same]
    exact table.unique⟩

/-- Rows in two portions are stored one portion after the other. -/
theorem upsertAll_append (table : Table key) (first second : List ρ) :
    table.upsertAll (first ++ second) = (table.upsertAll first).upsertAll second :=
  List.foldl_append

/-- A key is answered by the new row if it is that row's key. -/
@[simp] theorem find_upsert (table : Table key) (row : ρ) (wanted : κ) :
    (table.upsert row).find wanted = if key row = wanted then some row else table.find wanted :=
  find?_upsertRow row wanted table.rows

/-- A found row has the key that was looked up. -/
theorem key_of_find {table : Table key} {wanted : κ}
    (found : table.find wanted = some row) : key row = wanted := by
  simpa using List.find?_some found

/-- The rows of a table are those that their keys find. -/
theorem mem_rows_iff {table : Table key} : row ∈ table.rows ↔ table.find (key row) = some row := by
  constructor
  · -- Another row found under the same key would repeat the key.
    intro member
    cases found : table.find (key row) with
    | none =>
      have missing := List.find?_eq_none.mp found row member
      simp at missing
    | some other =>
      have otherMember : other ∈ table.rows := List.mem_of_find?_eq_some found
      have same := List.inj_on_of_nodup_map table.unique otherMember member (key_of_find found)
      rw [same]
  · exact List.mem_of_find?_eq_some

/-- A key is answered by the last stored row that carries it, otherwise as before. -/
theorem find_upsertAll (table : Table key) (rows : List ρ) (wanted : κ) :
    (table.upsertAll rows).find wanted =
      (rows.reverse.find? fun row => decide (key row = wanted)).or (table.find wanted) := by
  -- The induction takes the rows in the order in which they are stored.
  induction rows generalizing table with
  | nil => simp [upsertAll]
  | cons row rest ih =>
    have later := ih (table.upsert row)
    unfold upsertAll at later ⊢
    rw [List.foldl_cons, later, find_upsert, List.reverse_cons, List.find?_append]
    by_cases same : key row = wanted
    · simp [same]
    · simp [same]

/-- A row of the table was there before, or is one of those that were stored. -/
theorem mem_of_mem_upsertAll {table : Table key} {rows : List ρ}
    (member : row ∈ (table.upsertAll rows).rows) : row ∈ table.rows ∨ row ∈ rows := by
  rw [mem_rows_iff, find_upsertAll] at member
  rcases Option.or_eq_some_iff.mp member with stored | ⟨-, before⟩
  · exact .inr (List.mem_reverse.mp (List.mem_of_find?_eq_some stored))
  · exact .inl (mem_rows_iff.mpr before)

/-- Storing rows loses no key. -/
theorem key_kept_upsertAll {table : Table key} (member : row ∈ table.rows) (rows : List ρ) :
    ∃ kept ∈ (table.upsertAll rows).rows, key kept = key row := by
  have found : ((table.upsertAll rows).find (key row)).isSome := by
    rw [find_upsertAll, mem_rows_iff.mp member]
    simp
  obtain ⟨kept, same⟩ := Option.isSome_iff_exists.mp found
  exact ⟨kept, List.mem_of_find?_eq_some same, key_of_find same⟩

/-- A row is stored in the end when it is the last one under its key. -/
theorem mem_upsertAll_empty {rows : List ρ} : row ∈ ((empty : Table key).upsertAll rows).rows ↔
      rows.reverse.find? (fun other => decide (key other = key row)) = some row := by
  have nothing : (empty : Table key).find (key row) = none := rfl
  rw [mem_rows_iff, find_upsertAll, nothing, Option.or_none]

/-- Rows that are changed without a change of their keys may be changed before or after storing. -/
theorem upsertAll_map {σ : Type*} {other : σ → κ} (change : ρ → σ) (same : ∀ row, other (change row) = key row)
    (rows : List ρ) :
    ((empty : Table key).upsertAll rows).rows.map change =
      ((empty : Table other).upsertAll (rows.map change)).rows := by
  have step : ∀ (row : ρ) (stored : List ρ), (upsertRow key row stored).map change =
      upsertRow other (change row) (stored.map change) := by
    intro row stored
    induction stored with
    | nil => rfl
    | cons old rest ih =>
      simp only [upsertRow, List.map_cons, same]
      split
      · rfl
      · rw [List.map_cons, ih]
  -- Both tables take in the rows one by one and stay alike.
  have alike : ∀ (table : Table key) (image : Table other), table.rows.map change = image.rows →
      (table.upsertAll rows).rows.map change = (image.upsertAll (rows.map change)).rows := by
    induction rows with
    | nil => exact fun _ _ start => start
    | cons row rest ih =>
      intro table image start
      refine ih (table.upsert row) (image.upsert (change row)) ?_
      show (upsertRow key row table.rows).map change = upsertRow other (change row) image.rows
      rw [step, start]
  exact alike empty empty rfl

end Table

end Keyed

/-! Amounts under keys that are added up or replaced: what the sum of all amounts is afterwards. -/

namespace Keyed

/-- Amounts under keys, in the order in which the keys first came. -/
abbrev Tally (κ M : Type*) [DecidableEq κ] := Table (Prod.fst : κ × M → κ)

namespace Tally

variable {κ M : Type*} [DecidableEq κ] [AddCommMonoid M]

/-- The amount under a key, zero when there is none. -/
def amount (tally : Tally κ M) (key : κ) : M := (tally.find key).elim 0 Prod.snd

/-- Add to the amount under a key. -/
def add (tally : Tally κ M) (key : κ) (more : M) : Tally κ M :=
  tally.upsert (key, tally.amount key + more)

/-- The sum of all amounts. -/
def total (tally : Tally κ M) : M := (tally.rows.map Prod.snd).sum

/-- Add up entries by their keys. -/
def addAll (tally : Tally κ M) (entries : List (κ × M)) : Tally κ M :=
  entries.foldl (fun tally entry => tally.add entry.1 entry.2) tally

@[simp] theorem total_empty : Tally.total (Table.empty : Tally κ M) = 0 := rfl

/-- A row whose amount grows makes the sum grow by as much. -/
theorem sum_upsertRow (key : κ) (more : M) (rows : List (κ × M)) :
    ((upsertRow Prod.fst
      (key, (rows.find? fun row => decide (row.1 = key)).elim 0 Prod.snd + more) rows).map
        Prod.snd).sum = (rows.map Prod.snd).sum + more := by
  induction rows with
  | nil => simp [upsertRow]
  | cons row rest ih =>
    by_cases same : row.1 = key
    · -- The row of the key is the one that is replaced.
      simp [upsertRow, same, add_right_comm]
    · simp [upsertRow, same, ih, add_assoc]

/-- Whatever is added under a key is added to the sum. -/
@[simp] theorem total_add (tally : Tally κ M) (key : κ) (more : M) :
    (tally.add key more).total = tally.total + more :=
  sum_upsertRow key more tally.rows

/-- The amounts of all entries are added to the sum. -/
theorem total_addAll (tally : Tally κ M) (entries : List (κ × M)) :
    (tally.addAll entries).total = tally.total + (entries.map Prod.snd).sum := by
  induction entries generalizing tally with
  | nil => simp [addAll]
  | cons entry rest ih =>
    have later := ih (tally.add entry.1 entry.2)
    unfold addAll at later ⊢
    rw [List.foldl_cons, later, total_add, List.map_cons, List.sum_cons, add_assoc]

end Tally

namespace Table

variable {κ ρ M : Type*} [DecidableEq κ] {key : ρ → κ}

/-- The sum of the weights of all rows. -/
def weightOf [AddCommMonoid M] (weight : ρ → M) (table : Table key) : M := (table.rows.map weight).sum

/-- What is stored adds its weight, and what it replaces takes its weight away. -/
theorem weight_upsertRow [AddCommMonoid M] (weight : ρ → M) (row : ρ) (rows : List ρ) :
    ((upsertRow key row rows).map weight).sum + (rows.find? fun old => decide (key old = key row)).elim 0 weight =
      (rows.map weight).sum + weight row := by
  induction rows with
  | nil => simp [upsertRow]
  | cons old rest ih =>
    -- The row replaces this one, or is stored somewhere behind it.
    by_cases same : key old = key row
    · simp [upsertRow, same, add_comm, add_left_comm]
    · rw [upsertRow, if_neg same, List.find?_cons_of_neg (by simpa using same)]
      simp only [List.map_cons, List.sum_cons, add_assoc]
      rw [ih]

theorem weightOf_upsert [AddCommMonoid M] (weight : ρ → M) (table : Table key) (row : ρ) :
    (table.upsert row).weightOf weight + (table.find (key row)).elim 0 weight = table.weightOf weight + weight row :=
  weight_upsertRow weight row table.rows

section Counted

variable [AddCommMonoid M] {weight : ρ → M} {counted : κ → Bool} {table : Table key}

/-- What is stored under a key that does not count weighs nothing. -/
theorem weight_found_uncounted (uncounted : ∀ row, counted (key row) = false → weight row = 0) {wanted : κ}
    (unwanted : counted wanted = false) : (table.find wanted).elim 0 weight = 0 := by
  cases found : table.find wanted with
  | none => rfl
  | some old =>
    apply uncounted
    rw [key_of_find found, unwanted]

omit [DecidableEq κ] in
/-- Rows that do not count weigh nothing together. -/
theorem weightOf_clear (clear : ∀ row ∈ table.rows, counted (key row) = false)
    (uncounted : ∀ row, counted (key row) = false → weight row = 0) : table.weightOf weight = 0 := by
  unfold weightOf
  apply List.sum_eq_zero
  intro amount listed
  obtain ⟨row, inside, rfl⟩ := List.mem_map.mp listed
  exact uncounted row (clear row inside)

end Counted

section Overwritten

variable [AddCommGroup M] [LinearOrder M] [IsOrderedAddMonoid M] {weight : ρ → M} {counted : κ → Bool}
  {table : Table key} {rows : List ρ}

/-- What a key finds among stored rows that count is one of them. -/
theorem mem_of_find_upsertAll (clear : ∀ row ∈ table.rows, counted (key row) = false) {row old : ρ}
    (counts : counted (key row) = true) (found : (table.upsertAll rows).find (key row) = some old) :
    old ∈ rows ∧ key old = key row := by
  have same := key_of_find found
  rw [find_upsertAll] at found
  -- The row has come, or it was there before; those from before do not count.
  rcases Option.or_eq_some_iff.mp found with stored | ⟨-, prior⟩
  · exact ⟨List.mem_reverse.mp (List.mem_of_find?_eq_some stored), same⟩
  · have listed := clear old (List.mem_of_find?_eq_some prior)
    rw [same, counts] at listed
    cases listed

/-- A key that finds nothing has not come. -/
theorem key_notMem_of_find_upsertAll {wanted : κ} (absent : (table.upsertAll rows).find wanted = none) :
    wanted ∉ rows.map key := by
  intro listed
  obtain ⟨old, inside, same⟩ := List.mem_map.mp listed
  rw [find_upsertAll] at absent
  have differs := List.find?_eq_none.mp (Option.or_eq_none_iff.mp absent).1 old (List.mem_reverse.mpr inside)
  exact differs (decide_eq_true same)

/-- Once a row that weighs something is replaced, the stored rows weigh less than all that came. -/
theorem weightOf_upsert_lt {total : M} {row old : ρ} (most : table.weightOf weight ≤ total)
    (found : table.find (key row) = some old) (positive : 0 < weight old) :
    (table.upsert row).weightOf weight < total + weight row := by
  -- The replaced row takes its weight away, and that is positive.
  have stored := weightOf_upsert weight table row
  rw [found, Option.elim_some] at stored
  calc (table.upsert row).weightOf weight
      < (table.upsert row).weightOf weight + weight old := lt_add_of_pos_right _ positive
    _ = table.weightOf weight + weight row := stored
    _ ≤ total + weight row := by simpa using most

/-- Stored rows weigh at most as much as all rows that came, and as much only when no two of them that count have one
key. -/
theorem weightOf_upsertAll (clear : ∀ row ∈ table.rows, counted (key row) = false)
    (uncounted : ∀ row, counted (key row) = false → weight row = 0)
    (positive : ∀ row ∈ rows, counted (key row) = true → 0 < weight row) :
    (table.upsertAll rows).weightOf weight ≤ (rows.map weight).sum ∧
      ((table.upsertAll rows).weightOf weight = (rows.map weight).sum ↔
        ((rows.map key).filter counted).Nodup) := by
  -- The rows are stored from the front, so the induction adds the last one.
  induction rows using List.reverseRecOn with
  | nil =>
    have empty : table.weightOf weight = 0 := weightOf_clear clear uncounted
    refine ⟨le_of_eq empty, ?_⟩
    simp only [List.map_nil, List.filter_nil, List.nodup_nil, iff_true]
    exact empty
  | append_singleton rows row ih =>
    obtain ⟨most, exact_iff⟩ := ih fun other listed => positive other (List.mem_append_left _ listed)
    have stored := weightOf_upsert weight (table.upsertAll rows) row
    have came : ((rows ++ [row]).map weight).sum = (rows.map weight).sum + weight row := by simp
    have last : (table.upsertAll rows).upsertAll [row] = (table.upsertAll rows).upsert row := rfl
    rw [came, upsertAll_append, last]
    cases counts : counted (key row) with
    | false =>
      -- Neither the row nor what it replaces has a weight.
      rw [weight_found_uncounted uncounted counts, add_zero, uncounted row counts, add_zero] at stored
      rw [stored, uncounted row counts, add_zero, List.map_append, List.filter_append, List.map_singleton,
        List.filter_cons_of_neg (by rw [counts]; exact Bool.false_ne_true), List.filter_nil, List.append_nil]
      exact ⟨most, exact_iff⟩
    | true =>
      have split_keys : ((rows ++ [row]).map key).filter counted = (rows.map key).filter counted ++ [key row] := by
        rw [List.map_append, List.filter_append, List.map_singleton, List.filter_cons_of_pos counts, List.filter_nil]
      rw [split_keys, List.nodup_append]
      cases found : (table.upsertAll rows).find (key row) with
      | none =>
        rw [found, Option.elim_none, add_zero] at stored
        rw [stored]
        -- Nothing is replaced, so both sums grow by the same weight.
        refine ⟨by simpa using most, ?_⟩
        rw [add_left_inj, exact_iff]
        have fresh : ∀ wanted ∈ (rows.map key).filter counted, ∀ other ∈ [key row], wanted ≠ other := by
          intro wanted listed other last same
          rw [List.mem_singleton] at last
          rw [same, last] at listed
          exact key_notMem_of_find_upsertAll found (List.mem_filter.mp listed).1
        constructor
        · exact fun distinct => ⟨distinct, List.nodup_singleton _, fresh⟩
        · exact fun distinct => distinct.1
      | some old =>
        obtain ⟨inside, same⟩ := mem_of_find_upsertAll clear counts found
        have lost : 0 < weight old := by
          apply positive old (List.mem_append_left _ inside)
          rw [same, counts]
        -- The key has come before, so the keys repeat and some weight is lost for good.
        have less := weightOf_upsert_lt most found lost
        refine ⟨le_of_lt less, ?_⟩
        constructor
        · exact fun equal => absurd equal (ne_of_lt less)
        · intro distinct
          have listed : key row ∈ (rows.map key).filter counted :=
            List.mem_filter.mpr ⟨List.mem_map.mpr ⟨old, inside, same⟩, counts⟩
          exact absurd rfl (distinct.2.2 (key row) listed (key row) (List.mem_singleton_self _))

end Overwritten

end Table

end Keyed
