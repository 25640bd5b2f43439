import Mathlib.Data.List.Nodup
import RasatTrading.Analysis.Store

/-! What a call of `_store_payload` does to the rows of an immutable table. -/

namespace Rasat.PayloadTable

open Validity

variable {π : Type} {table after : PayloadTable π} {call : StoreCall π} {pair : Pair}

/-- The rows of a pair are the rows of the table with that pair. -/
@[simp] theorem mem_ofPair {row : PayloadRow π} :
    row ∈ table.ofPair pair ↔ row ∈ table.rows ∧ row.pair = pair := by
  simp [ofPair]

/-- The newest revision of a bar has the highest number. -/
theorem sameBar_some {bar : ℤ} {row : PayloadRow π} (found : table.sameBar pair bar = some row) :
    row ∈ table.rows ∧ row.pair = pair ∧ row.effectiveFrom = bar ∧
      ∀ other ∈ table.rows, other.pair = pair → other.effectiveFrom = bar → other.id ≤ row.id := by
  have member := List.argmax_mem found
  simp only [List.mem_filter, mem_ofPair, decide_eq_true_eq] at member
  refine ⟨member.1.1, member.1.2, member.2, ?_⟩
  intro other stored pair' bar'
  exact List.le_of_mem_argmax (by simp [stored, pair', bar']) found

/-- A bar without a revision has no row. -/
theorem sameBar_none {bar : ℤ} (missing : table.sameBar pair bar = none) :
    ∀ row ∈ table.rows, row.pair = pair → row.effectiveFrom ≠ bar := by
  intro row stored pair' bar'
  have empty := List.argmax_eq_none.mp missing
  have listed : row ∈ (table.ofPair pair).filter fun row => decide (row.effectiveFrom = bar) := by
    simp [stored, pair', bar']
  rw [empty] at listed
  cases listed

/-- The open row that is found is open. -/
theorem openRow_some {row : PayloadRow π} (found : table.openRow pair = some row) :
    row ∈ table.rows ∧ row.pair = pair ∧ row.effectiveTo = none := by
  have member := List.argmax_mem found
  simp only [List.mem_filter, mem_ofPair, decide_eq_true_eq] at member
  exact ⟨member.1.1, member.1.2, member.2⟩

/-- A pair without an open row has closed rows only. -/
theorem openRow_none (missing : table.openRow pair = none) :
    ∀ row ∈ table.rows, row.pair = pair → row.effectiveTo ≠ none := by
  intro row stored pair' opened
  have empty := List.argmax_eq_none.mp missing
  have listed : row ∈ (table.ofPair pair).filter fun row => decide (row.effectiveTo = none) := by
    simp [stored, pair', opened]
  rw [empty] at listed
  cases listed

/-- The next bar is the first one after a time. -/
theorem nextBar_some {time next : ℤ} (found : table.nextBar pair time = some next) :
    time < next ∧ (∃ row ∈ table.rows, row.pair = pair ∧ row.effectiveFrom = next) ∧
      ∀ row ∈ table.rows, row.pair = pair → time < row.effectiveFrom → next ≤ row.effectiveFrom := by
  obtain ⟨row, first, rfl⟩ := Option.map_eq_some_iff.mp found
  have member := List.argmin_mem first
  simp only [List.mem_filter, mem_ofPair, decide_eq_true_eq] at member
  refine ⟨member.2, ⟨row, member.1.1, member.1.2, rfl⟩, ?_⟩
  intro other stored pair' later
  exact List.le_of_mem_argmin (by simp [stored, pair', later]) first

/-- Without a next bar no bar comes after the time. -/
theorem nextBar_none {time : ℤ} (missing : table.nextBar pair time = none) :
    ∀ row ∈ table.rows, row.pair = pair → row.effectiveFrom ≤ time := by
  intro row stored pair'
  by_contra later
  have empty := List.argmin_eq_none.mp (Option.map_eq_none_iff.mp missing)
  have listed : row ∈ (table.ofPair pair).filter fun row => decide (time < row.effectiveFrom) := by
    simp [stored, pair', not_le.mp later]
  rw [empty] at listed
  cases listed

variable {last : ℤ}

/-- The rows after a row was closed. -/
theorem mem_close {id : ℕ} {row : PayloadRow π} : row ∈ (table.close id last).rows ↔ ∃ old ∈ table.rows,
      row = if old.id = id then { old with effectiveTo := some last } else old := by
  simp [close, eq_comm]

/-- The rows after an insertion. -/
theorem mem_insert {effectiveTo : Option ℤ} {row : PayloadRow π} :
    row ∈ (table.insert call effectiveTo).rows ↔
      row ∈ table.rows ∨ row = newRow call (table.sequence + 1) effectiveTo := by
  simp [insert]

/-- The ways in which a call changes a table. -/
inductive Change (table : PayloadTable π) (call : StoreCall π) : PayloadTable π → Prop
  /-- The newest revision of the bar says the same already. -/
  | same (row : PayloadRow π) (stored : row ∈ table.rows) (pair : row.pair = call.pair)
      (bar : row.effectiveFrom = call.effectiveFrom) : Change table call table
  /-- The pair had no open row. -/
  | first (closed : ∀ row ∈ table.rows, row.pair = call.pair → row.effectiveTo ≠ none) :
      Change table call (table.insert call none)
  /-- The open row is the newest revision of the bar, and the new row takes its place. -/
  | revise (row : PayloadRow π) (stored : row ∈ table.rows) (pair : row.pair = call.pair)
      (opened : row.effectiveTo = none) (bar : row.effectiveFrom = call.effectiveFrom) :
      Change table call ((table.close row.id call.effectiveFrom).insert call none)
  /-- A closed row is the newest revision of the bar, and the new row gets its end. -/
  | copy (row : PayloadRow π) (stored : row ∈ table.rows) (pair : row.pair = call.pair)
      (bar : row.effectiveFrom = call.effectiveFrom) (last : ℤ) (ends : row.effectiveTo = some last)
      (newest : ∀ other ∈ table.rows, other.pair = call.pair →
        other.effectiveFrom = call.effectiveFrom → other.id ≤ row.id) :
      Change table call (table.insert call (some last))
  /-- The bar is later than the one of the open row. -/
  | advance (row : PayloadRow π) (stored : row ∈ table.rows) (pair : row.pair = call.pair)
      (opened : row.effectiveTo = none) (later : row.effectiveFrom < call.effectiveFrom)
      (unstored : ∀ row ∈ table.rows, row.pair = call.pair →
        row.effectiveFrom ≠ call.effectiveFrom) :
      Change table call ((table.close row.id (call.effectiveFrom - 1)).insert call none)
  /-- The bar is earlier than the one of the open row, and `next` is the bar that follows it. -/
  | backfill (row : PayloadRow π) (stored : row ∈ table.rows) (pair : row.pair = call.pair)
      (opened : row.effectiveTo = none) (earlier : call.effectiveFrom < row.effectiveFrom)
      (unstored : ∀ row ∈ table.rows, row.pair = call.pair →
        row.effectiveFrom ≠ call.effectiveFrom)
      (next : ℤ) (after : call.effectiveFrom < next)
      (stands : ∃ row ∈ table.rows, row.pair = call.pair ∧ row.effectiveFrom = next)
      (follows : ∀ row ∈ table.rows, row.pair = call.pair →
        call.effectiveFrom < row.effectiveFrom → next ≤ row.effectiveFrom) :
      Change table call (table.insert call (some (next - 1)))

/-- Every call makes one of these changes. -/
theorem storePayload_change [DecidableEq π] (table : PayloadTable π) (call : StoreCall π) :
    Change table call (table.storePayload call) := by
  unfold storePayload
  cases found : table.sameBar call.pair call.effectiveFrom with
  | some row =>
    obtain ⟨stored, pair, bar, newest⟩ := sameBar_some found
    simp only
    split_ifs with repeated
    · exact .same row stored pair bar
    · cases ends : row.effectiveTo with
      | none => exact .revise row stored pair ends bar
      | some last => exact .copy row stored pair bar last ends newest
  | none =>
    have unstored := sameBar_none found
    cases current : table.openRow call.pair with
    | none => exact .first (openRow_none current)
    | some row =>
      obtain ⟨stored, pair, opened⟩ := openRow_some current
      simp only
      split_ifs with later
      · exact .advance row stored pair opened later unstored
      · -- The bar of the open row is itself a bar after the one that is stored.
        have earlier : call.effectiveFrom < row.effectiveFrom :=
          lt_of_le_of_ne (not_lt.mp later) (unstored row stored pair).symm
        cases behind : table.nextBar call.pair call.effectiveFrom with
        | none => exact absurd earlier (not_lt.mpr (nextBar_none behind row stored pair))
        | some next =>
          obtain ⟨after, stands, follows⟩ := nextBar_some behind
          exact .backfill row stored pair opened earlier unstored next after stands follows

/-- A call adds at most one row, with its payload and the next number. -/
theorem Change.row (changed : Change table call after) {row : PayloadRow π} (member : row ∈ after.rows) :
    (∃ old ∈ table.rows, old.id = row.id ∧ old.payload = row.payload) ∨
      row.id = after.sequence ∧ row.payload = call.payload ∧ after.sequence = table.sequence + 1 := by
  have inserted (table : PayloadTable π) (effectiveTo : Option ℤ) (member : row ∈ (table.insert call effectiveTo).rows) :
      row ∈ table.rows ∨ row.id = table.sequence + 1 ∧ row.payload = call.payload := by
    rcases mem_insert.mp member with old | rfl
    · exact .inl old
    · exact .inr ⟨rfl, rfl⟩
  have closed (id : ℕ) (last : ℤ) (old : row ∈ (table.close id last).rows) :
      ∃ old ∈ table.rows, old.id = row.id ∧ old.payload = row.payload := by
    obtain ⟨before, stored, rfl⟩ := mem_close.mp old
    exact ⟨before, stored, by split <;> rfl, by split <;> rfl⟩
  cases changed with
  | same => exact .inl ⟨row, member, rfl, rfl⟩
  | first | copy | backfill =>
    rcases inserted _ _ member with old | ⟨number, payload⟩
    · exact .inl ⟨row, old, rfl, rfl⟩
    · exact .inr ⟨number, payload, rfl⟩
  | revise | advance =>
    rcases inserted _ _ member with old | ⟨number, payload⟩
    · exact .inl (closed _ _ old)
    · exact .inr ⟨number, payload, rfl⟩

/-- The numbers do not go back. -/
theorem Change.sequence (changed : Change table call after) : table.sequence ≤ after.sequence := by
  cases changed with
  | same => exact le_rfl
  | _ => exact Nat.le_succ _

/-- What a table keeps between calls. -/
structure Orderly (table : PayloadTable π) : Prop where
  numbered : ∀ row ∈ table.rows, row.id ≤ table.sequence
  distinct : (table.rows.map PayloadRow.id).Nodup
  proper : ∀ row ∈ table.rows, row.period.Proper
  /-- The bar of the open row is the latest one, and there the open row is the newest revision. -/
  leads : ∀ current ∈ table.rows, current.effectiveTo = none → ∀ row ∈ table.rows,
    row.pair = current.pair → row.effectiveFrom ≤ current.effectiveFrom ∧
      (row.effectiveFrom = current.effectiveFrom → row.id ≤ current.id)
  opened : ∀ row ∈ table.rows, ∃ current ∈ table.rows, current.pair = row.pair ∧
    current.effectiveTo = none

namespace Orderly

section Kept

variable (orderly : table.Orderly)
include orderly

/-- A number belongs to one row. -/
theorem same_of_id {row other : PayloadRow π} (stored : row ∈ table.rows)
    (member : other ∈ table.rows) (number : row.id = other.id) : row = other :=
  List.inj_on_of_nodup_map orderly.distinct stored member number

/-- There is one open row at most. -/
theorem single {row other : PayloadRow π} (stored : row ∈ table.rows)
    (member : other ∈ table.rows) (pair : row.pair = other.pair) (opened : row.effectiveTo = none)
    (open' : other.effectiveTo = none) : row = other := by
  -- Each leads the other one, so they share the bar and the number.
  have first := orderly.leads row stored opened other member pair.symm
  have second := orderly.leads other member open' row stored pair
  have bar : row.effectiveFrom = other.effectiveFrom := le_antisymm second.1 first.1
  exact orderly.same_of_id stored member (le_antisymm (second.2 bar) (first.2 bar.symm))

omit orderly in
/-- The table of the migration is orderly. -/
theorem empty : (PayloadTable.empty : PayloadTable π).Orderly where
  numbered := by simp [PayloadTable.empty]
  distinct := by simp [PayloadTable.empty]
  proper := by simp [PayloadTable.empty]
  leads := by simp [PayloadTable.empty]
  opened := by simp [PayloadTable.empty]

/-- Numbers stay up to the last one, whatever is inserted. -/
theorem numbered_insert (effectiveTo : Option ℤ) :
    ∀ row ∈ (table.insert call effectiveTo).rows, row.id ≤ (table.insert call effectiveTo).sequence := by
  intro row member
  rcases mem_insert.mp member with old | rfl
  · exact (orderly.numbered row old).trans (Nat.le_succ _)
  · exact le_rfl

/-- Numbers stay distinct, whatever is inserted. -/
theorem distinct_insert (effectiveTo : Option ℤ) :
    ((table.insert call effectiveTo).rows.map PayloadRow.id).Nodup := by
  simp only [insert, List.map_append, List.map_cons, List.map_nil]
  refine List.nodup_append.mpr ⟨orderly.distinct, List.nodup_singleton _, ?_⟩
  intro number old new listed
  obtain ⟨row, stored, rfl⟩ := List.mem_map.mp old
  obtain rfl : new = table.sequence + 1 := by simpa [newRow] using listed
  have bound := orderly.numbered row stored
  omega

omit orderly in
/-- Closing a row keeps all numbers. -/
theorem map_id_close (table : PayloadTable π) (id : ℕ) (last : ℤ) :
    (table.close id last).rows.map PayloadRow.id = table.rows.map PayloadRow.id := by
  simp only [close, List.map_map]
  refine List.map_congr_left fun row _ => ?_
  simp only [Function.comp_apply]
  split <;> rfl

/-- A row that is closed no earlier than it begins leaves the other rows as they are. -/
theorem insert_closed (proper : call.effectiveFrom ≤ last)
    (current : PayloadRow π) (stored : current ∈ table.rows) (pair : current.pair = call.pair)
    (opened : current.effectiveTo = none) (earlier : call.effectiveFrom < current.effectiveFrom) :
    (table.insert call (some last)).Orderly where
  numbered := orderly.numbered_insert _
  distinct := orderly.distinct_insert _
  proper := by
    intro row member
    rcases mem_insert.mp member with old | rfl
    · exact orderly.proper row old
    · intro given same
      obtain rfl : given = last := (Option.some.inj same).symm
      exact proper
  leads := by
    intro leader member leading row listed shared
    rcases mem_insert.mp member with old | rfl
    · rcases mem_insert.mp listed with older | rfl
      · exact orderly.leads leader old leading row older shared
      · -- The open row of the pair is the one that the bar lies before.
        obtain rfl := orderly.single stored old (pair.trans shared) opened leading
        exact ⟨earlier.le, fun bar => absurd bar earlier.ne⟩
    · cases leading
  opened := by
    intro row member
    rcases mem_insert.mp member with old | rfl
    · obtain ⟨leader, listed, shared, leading⟩ := orderly.opened row old
      exact ⟨leader, mem_insert.mpr (.inl listed), shared, leading⟩
    · exact ⟨current, mem_insert.mpr (.inl stored), pair, opened⟩

/-- A pair without an open row has no row at all. -/
theorem none_of_closed (closed : ∀ row ∈ table.rows, row.pair = pair → row.effectiveTo ≠ none) :
    ∀ row ∈ table.rows, row.pair ≠ pair := by
  intro row stored shared
  obtain ⟨current, member, same, opened⟩ := orderly.opened row stored
  exact closed current member (same.trans shared) opened

/-- The first row of a pair is its open row. -/
theorem insert_first (new : ∀ row ∈ table.rows, row.pair ≠ call.pair) :
    (table.insert call none).Orderly where
  numbered := orderly.numbered_insert _
  distinct := orderly.distinct_insert _
  proper := by
    intro row member
    rcases mem_insert.mp member with old | rfl
    · exact orderly.proper row old
    · intro given same
      cases same
  leads := by
    intro leader member leading row listed shared
    rcases mem_insert.mp member with old | rfl
    · rcases mem_insert.mp listed with older | rfl
      · exact orderly.leads leader old leading row older shared
      · exact absurd shared.symm (new leader old)
    · rcases mem_insert.mp listed with older | rfl
      · exact absurd shared (new row older)
      · exact ⟨le_rfl, fun _ => le_rfl⟩
  opened := by
    intro row member
    rcases mem_insert.mp member with old | rfl
    · obtain ⟨leader, listed, shared, leading⟩ := orderly.opened row old
      exact ⟨leader, mem_insert.mpr (.inl listed), shared, leading⟩
    · exact ⟨_, mem_insert.mpr (.inr rfl), rfl, rfl⟩

/-- The open row ends no earlier than it begins, and the new row of a bar no earlier than its bar
takes over. -/
theorem succeed {current : PayloadRow π} (stored : current ∈ table.rows) (pair : current.pair = call.pair)
    (opened : current.effectiveTo = none) (later : current.effectiveFrom ≤ call.effectiveFrom)
    (proper : current.effectiveFrom ≤ last) :
    ((table.close current.id last).insert call none).Orderly where
  numbered := by
    intro row member
    rcases mem_insert.mp member with old | rfl
    · obtain ⟨before, listed, rfl⟩ := mem_close.mp old
      have bound := orderly.numbered before listed
      split <;> exact bound.trans (Nat.le_succ _)
    · exact le_rfl
  distinct := by
    have kept := map_id_close table current.id last
    have counted : ((table.insert call none).rows.map PayloadRow.id).Nodup :=
      orderly.distinct_insert none
    simp only [insert, List.map_append] at counted ⊢
    rw [kept]
    exact counted
  proper := by
    intro row member
    rcases mem_insert.mp member with old | rfl
    · obtain ⟨before, listed, rfl⟩ := mem_close.mp old
      split
      · rename_i number
        obtain rfl := orderly.same_of_id listed stored number
        intro given same
        obtain rfl : given = last := (Option.some.inj same).symm
        exact proper
      · exact orderly.proper before listed
    · intro given same
      cases same
  leads := by
    intro leader member leading row listed shared
    rcases mem_insert.mp member with old | rfl
    · obtain ⟨before, present, rfl⟩ := mem_close.mp old
      split at leading
      · cases leading
      · -- Another open row belongs to another pair.
        rename_i other
        have apart : before.pair ≠ call.pair := fun same =>
          other (congrArg PayloadRow.id (orderly.single present stored (same.trans pair.symm)
            leading opened))
        rw [if_neg other] at shared ⊢
        rcases mem_insert.mp listed with older | rfl
        · obtain ⟨first, held, rfl⟩ := mem_close.mp older
          split at shared
          · rename_i number
            obtain rfl := orderly.same_of_id held stored number
            exact absurd (shared.symm.trans pair) apart
          · rename_i unchanged
            rw [if_neg unchanged]
            exact orderly.leads before present leading first held shared
        · exact absurd shared.symm apart
    · rcases mem_insert.mp listed with older | rfl
      · obtain ⟨before, present, rfl⟩ := mem_close.mp older
        have same : before.pair = call.pair := by
          revert shared
          split <;> exact id
        have led := orderly.leads current stored opened before present (same.trans pair.symm)
        have bound := orderly.numbered before present
        have number : before.id ≤ (newRow call (table.sequence + 1) none).id :=
          bound.trans (Nat.le_succ _)
        split <;> exact ⟨led.1.trans later, fun _ => number⟩
      · exact ⟨le_rfl, fun _ => le_rfl⟩
  opened := by
    intro row member
    have taken : newRow call (table.sequence + 1) none ∈
        ((table.close current.id last).insert call none).rows := mem_insert.mpr (.inr rfl)
    rcases mem_insert.mp member with old | rfl
    · obtain ⟨before, present, rfl⟩ := mem_close.mp old
      by_cases same : before.pair = call.pair
      · refine ⟨_, taken, ?_, rfl⟩
        split <;> exact same.symm
      · obtain ⟨leader, listed, shared, leading⟩ := orderly.opened before present
        have other : leader.id ≠ current.id := fun number =>
          same (shared.symm.trans ((congrArg PayloadRow.pair
            (orderly.same_of_id listed stored number)).trans pair))
        refine ⟨leader, mem_insert.mpr (.inl (mem_close.mpr ⟨leader, listed, ?_⟩)), ?_, leading⟩
        · rw [if_neg other]
        · split <;> exact shared
    · exact ⟨_, taken, rfl, rfl⟩

/-- A bar whose newest revision is closed lies before the bar of the open row. -/
theorem copied {row : PayloadRow π} (stored : row ∈ table.rows) (pair : row.pair = call.pair)
    (bar : row.effectiveFrom = call.effectiveFrom) (ends : row.effectiveTo = some last)
    (newest : ∀ other ∈ table.rows, other.pair = call.pair →
      other.effectiveFrom = call.effectiveFrom → other.id ≤ row.id) :
    ∃ current ∈ table.rows, current.pair = row.pair ∧ current.effectiveTo = none ∧
      call.effectiveFrom < current.effectiveFrom := by
  obtain ⟨current, member, shared, opened⟩ := orderly.opened row stored
  obtain ⟨reached, revision⟩ := orderly.leads current member opened row stored shared.symm
  refine ⟨current, member, shared, opened, bar ▸ lt_of_le_of_ne reached fun same => ?_⟩
  -- The newest revision of the latest bar would be the open row itself.
  have older := newest current member (shared.trans pair) (same.symm.trans bar)
  obtain rfl := orderly.same_of_id stored member (le_antisymm (revision same) older)
  rw [opened] at ends
  cases ends

/-- Every change keeps a table orderly. -/
theorem change (changed : Change table call after) : after.Orderly := by
  cases changed with
  | same => exact orderly
  | first closed => exact orderly.insert_first (orderly.none_of_closed closed)
  | revise row stored pair opened bar =>
    exact orderly.succeed stored pair opened bar.le bar.le
  | advance row stored pair opened later unstored =>
    exact orderly.succeed stored pair opened later.le (Int.le_sub_one_of_lt later)
  | backfill row stored pair opened earlier unstored next following =>
    exact orderly.insert_closed (Int.le_sub_one_of_lt following) row stored pair opened earlier
  | copy row stored pair bar last ends newest =>
    have proper : row.effectiveFrom ≤ last := orderly.proper row stored last ends
    obtain ⟨current, member, shared, opened, earlier⟩ := orderly.copied stored pair bar ends newest
    exact orderly.insert_closed (bar ▸ proper) current member (shared.trans pair) opened earlier

end Kept

variable [DecidableEq π]

/-- A sequence of calls keeps a table orderly. -/
theorem storeAll (orderly : table.Orderly) (calls : List (StoreCall π)) : (table.storeAll calls).Orderly := by
  induction calls generalizing table with
  | nil => exact orderly
  | cons call rest ih => exact ih (orderly.change (storePayload_change table call))

end Orderly

/-- What becomes of a row: nothing, or its end is set once. -/
def Outlives (row kept : PayloadRow π) : Prop :=
  kept = row ∨ row.effectiveTo = none ∧ ∃ last, kept = { row with effectiveTo := some last }

/-- A closed row stays as it is. -/
theorem Outlives.closed {row kept : PayloadRow π} (outlives : Outlives row kept)
    (ends : row.effectiveTo = some last) : kept = row := by
  rcases outlives with rfl | ⟨opened, -⟩
  · rfl
  · rw [opened] at ends
    cases ends

/-- A row outlives a change and then another one. -/
theorem Outlives.trans {row kept final : PayloadRow π} (first : Outlives row kept)
    (second : Outlives kept final) : Outlives row final := by
  rcases first with rfl | ⟨opened, last, rfl⟩
  · exact second
  · exact .inr ⟨opened, last, second.closed rfl⟩

/-- Closing the open row and inserting leaves every row where it was. -/
theorem outlives_succeed (orderly : table.Orderly) {current : PayloadRow π}
    (stored : current ∈ table.rows) (opened : current.effectiveTo = none) {row : PayloadRow π}
    (member : row ∈ table.rows) :
    ∃ kept ∈ ((table.close current.id last).insert call none).rows, Outlives row kept := by
  by_cases number : row.id = current.id
  · obtain rfl := orderly.same_of_id member stored number
    refine ⟨_, mem_insert.mpr (.inl (mem_close.mpr ⟨row, member, rfl⟩)), .inr ⟨opened, last, ?_⟩⟩
    rw [if_pos rfl]
  · refine ⟨row, mem_insert.mpr (.inl (mem_close.mpr ⟨row, member, ?_⟩)), .inl rfl⟩
    rw [if_neg number]

/-- No change loses a row. -/
theorem Change.outlives (changed : Change table call after) (orderly : table.Orderly)
    {row : PayloadRow π} (member : row ∈ table.rows) : ∃ kept ∈ after.rows, Outlives row kept := by
  cases changed with
  | same => exact ⟨row, member, .inl rfl⟩
  | first => exact ⟨row, mem_insert.mpr (.inl member), .inl rfl⟩
  | copy => exact ⟨row, mem_insert.mpr (.inl member), .inl rfl⟩
  | backfill => exact ⟨row, mem_insert.mpr (.inl member), .inl rfl⟩
  | revise current stored _ opened => exact outlives_succeed orderly stored opened member
  | advance current stored _ opened => exact outlives_succeed orderly stored opened member

/-- No sequence of calls loses a row. -/
theorem storeAll_outlives [DecidableEq π] (orderly : table.Orderly) (calls : List (StoreCall π))
    {row : PayloadRow π} (member : row ∈ table.rows) :
    ∃ kept ∈ (table.storeAll calls).rows, Outlives row kept := by
  induction calls generalizing table row with
  | nil => exact ⟨row, member, .inl rfl⟩
  | cons call rest ih =>
    have changed := storePayload_change table call
    obtain ⟨middle, between, first⟩ := changed.outlives orderly member
    obtain ⟨kept, behind, second⟩ := ih (orderly.change changed) between
    exact ⟨kept, behind, first.trans second⟩

end Rasat.PayloadTable
