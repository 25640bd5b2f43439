import Mathlib.Data.List.TakeWhile
import RasatTrading.Analysis.StoreLaws

/-! The history that the immutable tables keep: one open row, no row lost, and when the validity
intervals of different bars stay apart. -/

namespace Rasat.PayloadTable

open Validity

variable {π : Type} {table after : PayloadTable π} {call : StoreCall π} {pair : Pair}

variable {current : PayloadRow π}

/-- Among the rows of a pair exactly one is open. -/
theorem Orderly.filter_open (orderly : table.Orderly)
    (stored : current ∈ table.ofPair pair) (opened : current.effectiveTo = none) :
    (table.ofPair pair).filter (fun row => row.effectiveTo = none) = [current] := by
  have same : ∀ row ∈ (table.ofPair pair).filter (fun row => row.effectiveTo = none),
      row = current := by
    intro row member
    simp only [List.mem_filter, mem_ofPair, decide_eq_true_eq] at member
    exact orderly.single member.1.1 (mem_ofPair.mp stored).1
      (member.1.2.trans (mem_ofPair.mp stored).2.symm) member.2 opened
  have distinct : ((table.ofPair pair).filter (fun row => row.effectiveTo = none)).Nodup :=
    (List.Nodup.of_map _ orderly.distinct).filter _ |>.filter _
  have listed : current ∈ (table.ofPair pair).filter (fun row => row.effectiveTo = none) :=
    List.mem_filter.mpr ⟨stored, decide_eq_true opened⟩
  -- A list without repetition that holds one value only has one element.
  have repeated := List.eq_replicate_of_mem same
  rw [repeated] at distinct listed ⊢
  have once := List.nodup_replicate.mp distinct
  have some' := List.length_pos_of_mem listed
  rw [List.length_replicate] at some'
  rw [Nat.le_antisymm once some']
  rfl

/-- The validity intervals of rows of different bars never meet. -/
def Disjoint (table : PayloadTable π) (pair : Pair) : Prop :=
  ∀ row ∈ table.ofPair pair, ∀ other ∈ table.ofPair pair,
    row.effectiveFrom ≠ other.effectiveFrom → row.period.Apart other.period

/-- The call brings a new bar for which the pair has earlier and later ones. -/
def Interposed (table : PayloadTable π) (call : StoreCall π) : Prop :=
  (∃ row ∈ table.ofPair call.pair, row.effectiveFrom < call.effectiveFrom) ∧
    (∃ row ∈ table.ofPair call.pair, call.effectiveFrom < row.effectiveFrom) ∧
    ∀ row ∈ table.ofPair call.pair, row.effectiveFrom ≠ call.effectiveFrom

/-- From the first bar of a pair on, every time lies in the interval of some row. -/
def Covered (table : PayloadTable π) : Prop :=
  ∀ row ∈ table.rows, ∀ time, row.effectiveFrom ≤ time →
    ∃ other ∈ table.rows, other.pair = row.pair ∧ other.period.Covers time

/-- A row that a change adds covers its own bar, or is open. -/
theorem Covered.insert (covered : table.Covered) {effectiveTo : Option ℤ}
    (serves : ∀ time, call.effectiveFrom ≤ time →
      (newRow call (table.sequence + 1) effectiveTo).period.Covers time ∨
        ∃ other ∈ table.rows, other.pair = call.pair ∧ other.period.Covers time) :
    (table.insert call effectiveTo).Covered := by
  intro row member time begun
  rcases mem_insert.mp member with old | rfl
  · obtain ⟨other, stored, shared, covers⟩ := covered row old time begun
    exact ⟨other, mem_insert.mpr (.inl stored), shared, covers⟩
  · rcases serves time begun with covers | ⟨other, stored, shared, covers⟩
    · exact ⟨_, mem_insert.mpr (.inr rfl), rfl, covers⟩
    · exact ⟨other, mem_insert.mpr (.inl stored), shared, covers⟩

variable {last : ℤ}

/-- Where the open row ends, the new row has begun. -/
theorem Covered.succeed (covered : table.Covered) (orderly : table.Orderly) (stored : current ∈ table.rows)
    (shared : current.pair = call.pair) (opened : current.effectiveTo = none)
    (reaches : call.effectiveFrom ≤ last + 1) :
    ((table.close current.id last).insert call none).Covered := by
  have taken : newRow call (table.sequence + 1) none ∈
      ((table.close current.id last).insert call none).rows := mem_insert.mpr (.inr rfl)
  have begins : ∀ row ∈ ((table.close current.id last).insert call none).rows,
      row = newRow call (table.sequence + 1) none ∨
        ∃ before ∈ table.rows, before.pair = row.pair ∧
          before.effectiveFrom = row.effectiveFrom := by
    intro row member
    rcases mem_insert.mp member with old | rfl
    · obtain ⟨before, present, rfl⟩ := mem_close.mp old
      refine .inr ⟨before, present, ?_⟩
      split <;> exact ⟨rfl, rfl⟩
    · exact .inl rfl
  intro row member time begun
  rcases begins row member with rfl | ⟨before, present, alike, bar⟩
  · exact ⟨_, taken, rfl, Period.covers_open.mpr begun⟩
  · obtain ⟨other, held, same, covers⟩ := covered before present time (bar ▸ begun)
    by_cases number : other.id = current.id
    · -- The closed row still serves the times up to its end, and the new row the later ones.
      obtain rfl := orderly.same_of_id held stored number
      by_cases within : time ≤ last
      · refine ⟨_, mem_insert.mpr (.inl (mem_close.mpr ⟨other, held, rfl⟩)), ?_⟩
        rw [if_pos rfl]
        refine ⟨same.trans alike, covers.1, ?_⟩
        intro given ends
        obtain rfl : given = last := (Option.some.inj ends).symm
        exact within
      · refine ⟨_, taken, shared.symm.trans (same.trans alike), Period.covers_open.mpr ?_⟩
        exact reaches.trans (Int.add_one_le_of_lt (not_le.mp within))
    · refine ⟨other, mem_insert.mpr (.inl (mem_close.mpr ⟨other, held, ?_⟩)), same.trans alike,
        covers⟩
      rw [if_neg number]

/-- No change uncovers a time. -/
theorem Change.covered (changed : Change table call after) (orderly : table.Orderly)
    (covered : table.Covered) : after.Covered := by
  cases changed with
  | same => exact covered
  | first closed =>
    exact covered.insert fun time begun => .inl (Period.covers_open.mpr begun)
  | revise row stored shared opened bar =>
    exact covered.succeed orderly stored shared opened (Int.le_add_one le_rfl)
  | advance row stored shared opened later unstored =>
    exact covered.succeed orderly stored shared opened (by omega)
  | copy row stored shared bar last ends newest =>
    refine covered.insert fun time begun => .inr ?_
    obtain ⟨other, member, same, covers⟩ := covered row stored time (bar ▸ begun)
    exact ⟨other, member, same.trans shared, covers⟩
  | backfill row stored shared opened earlier unstored next following stands follows =>
    refine covered.insert fun time begun => ?_
    by_cases within : time ≤ next - 1
    · refine .inl ⟨begun, fun given same => ?_⟩
      obtain rfl : given = next - 1 := (Option.some.inj same).symm
      exact within
    · -- From the next bar on, the rows that were there serve.
      obtain ⟨beyond, member, alike, bar⟩ := stands
      obtain ⟨other, held, same, covers⟩ := covered beyond member time (by omega)
      exact .inr ⟨other, held, same.trans alike, covers⟩

/-- Beside the open row, the revisions of its bar are points in time. -/
def Pointed (table : PayloadTable π) : Prop :=
  ∀ current ∈ table.rows, current.effectiveTo = none → ∀ row ∈ table.rows,
    row.pair = current.pair → row.effectiveFrom = current.effectiveFrom →
      ∀ last ∈ row.effectiveTo, last = row.effectiveFrom

/-- A closed row of an earlier bar does not bear on the bar of the open row. -/
theorem Pointed.insert_closed (pointed : table.Pointed) (orderly : table.Orderly)
    (stored : current ∈ table.rows) (shared : current.pair = call.pair)
    (opened : current.effectiveTo = none) (earlier : call.effectiveFrom < current.effectiveFrom) :
    (table.insert call (some last)).Pointed := by
  intro leader member leading row listed alike bar
  rcases mem_insert.mp member with old | rfl
  · rcases mem_insert.mp listed with older | rfl
    · exact pointed leader old leading row older alike bar
    · obtain rfl := orderly.single stored old (shared.trans alike) opened leading
      exact absurd bar earlier.ne
  · cases leading

/-- A new open row meets only the row it replaces, which ends at their bar if they share it. -/
theorem Pointed.succeed (pointed : table.Pointed) (orderly : table.Orderly) (stored : current ∈ table.rows)
    (shared : current.pair = call.pair) (opened : current.effectiveTo = none)
    (bars : current.effectiveFrom = call.effectiveFrom ∧ last = call.effectiveFrom ∨
      ∀ row ∈ table.rows, row.pair = call.pair → row.effectiveFrom ≠ call.effectiveFrom) :
    ((table.close current.id last).insert call none).Pointed := by
  intro leader member leading row listed alike bar
  rcases mem_insert.mp listed with old | rfl
  · obtain ⟨before, present, rfl⟩ := mem_close.mp old
    rcases mem_insert.mp member with older | rfl
    · obtain ⟨first, held, rfl⟩ := mem_close.mp older
      split at leading
      · cases leading
      · -- An open row that is left belongs to another pair, whose rows are unchanged.
        rename_i other
        rw [if_neg other] at alike bar
        have distinct : before.id ≠ current.id := by
          intro number
          obtain rfl := orderly.same_of_id present stored number
          rw [if_pos rfl] at alike
          exact other (congrArg PayloadRow.id (orderly.single held stored alike.symm leading opened))
        rw [if_neg distinct] at alike bar ⊢
        exact pointed first held leading before present alike bar
    · have same : before.pair = call.pair := by
        revert alike
        split <;> exact id
      have begins : before.effectiveFrom = call.effectiveFrom := by
        revert bar
        split <;> exact id
      rcases bars with ⟨currentBar, lastBar⟩ | unstored
      · split
        · intro given ends
          obtain rfl : given = last := (Option.some.inj ends).symm
          exact lastBar.trans begins.symm
        · exact pointed current stored opened before present (same.trans shared.symm)
            (begins.trans currentBar.symm)
      · exact absurd begins (unstored before present same)
  · intro given ends
    cases ends

/-- No change moves the end of a revision of the latest bar. -/
theorem Change.pointed (changed : Change table call after) (orderly : table.Orderly)
    (pointed : table.Pointed) : after.Pointed := by
  cases changed with
  | same => exact pointed
  | first closed =>
    have new := orderly.none_of_closed closed
    intro leader member leading row listed alike bar
    rcases mem_insert.mp listed with old | rfl
    · rcases mem_insert.mp member with older | rfl
      · exact pointed leader older leading row old alike bar
      · exact absurd alike (new row old)
    · intro given ends
      cases ends
  | revise row stored shared opened bar =>
    exact pointed.succeed orderly stored shared opened (.inl ⟨bar, rfl⟩)
  | advance row stored shared opened later unstored =>
    exact pointed.succeed orderly stored shared opened (.inr unstored)
  | copy row stored shared bar last ends newest =>
    obtain ⟨current, member, same, opened, earlier⟩ := orderly.copied stored shared bar ends newest
    exact pointed.insert_closed orderly member (same.trans shared) opened earlier
  | backfill row stored shared opened earlier unstored next following stands follows =>
    exact pointed.insert_closed orderly stored shared opened earlier

/-- A new row that is apart from the rows of other bars keeps the intervals disjoint. -/
theorem Disjoint.insert (disjoint : table.Disjoint call.pair) {effectiveTo : Option ℤ}
    (apart : ∀ row ∈ table.ofPair call.pair, row.effectiveFrom ≠ call.effectiveFrom →
      row.period.Apart (newRow call (table.sequence + 1) effectiveTo).period) :
    (table.insert call effectiveTo).Disjoint call.pair := by
  intro row member other listed bars
  obtain ⟨held, shared⟩ := mem_ofPair.mp member
  obtain ⟨present, alike⟩ := mem_ofPair.mp listed
  rcases mem_insert.mp held with old | rfl
  · rcases mem_insert.mp present with older | rfl
    · exact disjoint row (mem_ofPair.mpr ⟨old, shared⟩) other (mem_ofPair.mpr ⟨older, alike⟩) bars
    · exact apart row (mem_ofPair.mpr ⟨old, shared⟩) bars
  · rcases mem_insert.mp present with older | rfl
    · exact (apart other (mem_ofPair.mpr ⟨older, alike⟩) bars.symm).symm
    · exact absurd rfl bars

/-- A closed row is part of what the open row was. -/
theorem mem_close_part {row : PayloadRow π} (orderly : table.Orderly)
    (stored : current ∈ table.rows) (opened : current.effectiveTo = none)
    (member : row ∈ (table.close current.id last).ofPair pair) :
    ∃ old ∈ table.ofPair pair, old.effectiveFrom = row.effectiveFrom ∧
      (∀ time, row.period.Covers time → old.period.Covers time) ∧
      (row = old ∨ old = current ∧ row.effectiveTo = some last) := by
  obtain ⟨held, shared⟩ := mem_ofPair.mp member
  obtain ⟨old, present, rfl⟩ := mem_close.mp held
  by_cases number : old.id = current.id
  · obtain rfl := orderly.same_of_id present stored number
    rw [if_pos rfl] at shared ⊢
    refine ⟨old, mem_ofPair.mpr ⟨present, shared⟩, rfl, ?_, .inr ⟨rfl, rfl⟩⟩
    rintro time ⟨begun, -⟩
    refine ⟨begun, fun given ends => ?_⟩
    change old.effectiveTo = some given at ends
    rw [opened] at ends
    cases ends
  · rw [if_neg number] at shared ⊢
    exact ⟨old, mem_ofPair.mpr ⟨present, shared⟩, rfl, fun _ covers => covers, .inl rfl⟩

/-- Setting an end keeps the intervals disjoint. -/
theorem Disjoint.close (disjoint : table.Disjoint pair) (orderly : table.Orderly)
    (stored : current ∈ table.rows)
    (opened : current.effectiveTo = none) : (table.close current.id last).Disjoint pair := by
  intro row member other listed bars
  obtain ⟨old, present, bar, part, -⟩ := mem_close_part orderly stored opened member
  obtain ⟨older, held, bar', part', -⟩ := mem_close_part orderly stored opened listed
  have apart := disjoint old present older held (by rw [bar, bar']; exact bars)
  exact ((apart.shrink part).symm.shrink part').symm

/-- A bar that is not interposed keeps the intervals of its pair disjoint. -/
theorem Change.disjoint (changed : Change table call after) (orderly : table.Orderly)
    (pointed : table.Pointed) (disjoint : table.Disjoint call.pair)
    (outside : ¬Interposed table call) : after.Disjoint call.pair := by
  cases changed with
  | same => exact disjoint
  | first closed =>
    refine disjoint.insert fun row member _ => ?_
    obtain ⟨stored, shared⟩ := mem_ofPair.mp member
    exact absurd shared (orderly.none_of_closed closed row stored)
  | revise current stored shared opened bar =>
    refine (disjoint.close orderly stored opened).insert fun row member bars => ?_
    obtain ⟨old, present, begins, part, -⟩ := mem_close_part orderly stored opened member
    have listed := mem_ofPair.mp present
    have led := orderly.leads current stored opened old listed.1 (listed.2.trans shared.symm)
    have apart := disjoint old present current (mem_ofPair.mpr ⟨stored, shared⟩)
      (by rw [begins, bar]; exact bars)
    -- The row is apart from the open one, which covers all that the new row covers.
    refine (apart.shrink part).symm.shrink ?_ |>.symm
    rintro time ⟨begun, -⟩
    refine ⟨bar.trans_le begun, fun given ends => ?_⟩
    change current.effectiveTo = some given at ends
    rw [opened] at ends
    cases ends
  | advance current stored shared opened later unstored =>
    refine (disjoint.close orderly stored opened).insert fun row member bars => ?_
    obtain ⟨old, present, begins, part, which⟩ := mem_close_part orderly stored opened member
    rcases which with rfl | ⟨rfl, ends⟩
    · obtain ⟨listed, alike⟩ := mem_ofPair.mp present
      have led := orderly.leads current stored opened row listed (alike.trans shared.symm)
      by_cases same : row.effectiveFrom = current.effectiveFrom
      · -- A revision of the bar of the open row is a point, or the open row itself.
        cases ends : row.effectiveTo with
        | none =>
          obtain rfl := orderly.single listed stored (alike.trans shared.symm) ends opened
          obtain ⟨-, again⟩ := mem_ofPair.mp member
          obtain ⟨before, held, closed⟩ := mem_close.mp (mem_ofPair.mp member).1
          by_cases number : before.id = row.id
          · rw [if_pos number] at closed
            rw [closed] at ends
            cases ends
          · rw [if_neg number] at closed
            exact absurd (congrArg PayloadRow.id closed.symm) number
        | some last =>
          have point := pointed current stored opened row listed (alike.trans shared.symm) same last
            ends
          have before : last < call.effectiveFrom := by omega
          exact Period.apart_of_ends (show row.period.last = some last from ends) before
      · have apart := disjoint row present current (mem_ofPair.mpr ⟨stored, shared⟩) same
        have period : current.period = ⟨current.effectiveFrom, none⟩ := by
          rw [← opened]
          rfl
        rw [period] at apart
        obtain ⟨last, ends, before⟩ :=
          Period.ends_of_apart_open (lt_of_le_of_ne led.1 same) apart
        exact Period.apart_of_ends ends (before.trans later)
    · have before : call.effectiveFrom - 1 < call.effectiveFrom := by omega
      exact Period.apart_of_ends (show row.period.last = some (call.effectiveFrom - 1) from ends) before
  | copy row stored shared bar last ends newest =>
    refine disjoint.insert fun other member bars => ?_
    have period : (newRow call (table.sequence + 1) (some last)).period = row.period := by
      simp [newRow, PayloadRow.period, bar, ends]
    rw [period]
    exact disjoint other member row (mem_ofPair.mpr ⟨stored, shared⟩) (bar ▸ bars)
  | backfill current stored shared opened earlier unstored next following stands follows =>
    refine disjoint.insert fun row member bars => ?_
    obtain ⟨present, alike⟩ := mem_ofPair.mp member
    have later : call.effectiveFrom < row.effectiveFrom := by
      refine lt_of_le_of_ne (not_lt.mp fun before => ?_) bars.symm
      exact outside ⟨⟨row, member, before⟩, ⟨current, mem_ofPair.mpr ⟨stored, shared⟩, earlier⟩,
        fun other listed => unstored other (mem_ofPair.mp listed).1 (mem_ofPair.mp listed).2⟩
    have reach := follows row present alike later
    have ends : (newRow call (table.sequence + 1) (some (next - 1))).period.last = some (next - 1) := rfl
    have before : next - 1 < row.period.first := by
      change next - 1 < row.effectiveFrom
      omega
    exact (Period.apart_of_ends ends before).symm

/-- A call for one pair does nothing to the rows of another one. -/
theorem Change.ofPair_other (changed : Change table call after) (orderly : table.Orderly)
    (other : call.pair ≠ pair) : after.ofPair pair = table.ofPair pair := by
  have inserted : ∀ (table : PayloadTable π) (effectiveTo : Option ℤ),
      (table.insert call effectiveTo).ofPair pair = table.ofPair pair := by
    intro table effectiveTo
    simp [insert, ofPair, newRow, other]
  have closed : ∀ (current : PayloadRow π) (last : ℤ), current ∈ table.rows →
      current.pair = call.pair → (table.close current.id last).ofPair pair = table.ofPair pair := by
    intro current last stored shared
    have unchanged : ∀ row ∈ table.rows, row.pair = pair → row.id ≠ current.id := by
      intro row member alike number
      obtain rfl := orderly.same_of_id member stored number
      exact other (shared.symm.trans alike)
    simp only [close, ofPair, List.filter_map]
    have kept : (table.rows.filter ((fun row => decide (row.pair = pair)) ∘ fun row =>
        if row.id = current.id then { row with effectiveTo := some last } else row)) =
        table.rows.filter fun row => decide (row.pair = pair) := by
      refine List.filter_congr fun row _ => ?_
      simp only [Function.comp_apply]
      split <;> rfl
    rw [kept]
    refine (List.map_congr_left fun row member => ?_).trans (List.map_id _)
    obtain ⟨member, alike⟩ := List.mem_filter.mp member
    rw [if_neg (unchanged row member (of_decide_eq_true alike))]
    rfl
  -- Each change is an insertion, with or without closing the open row, both of the pair of the call.
  cases changed with
  | same => rfl
  | first => exact inserted table none
  | copy _ _ _ _ last => exact inserted table (some last)
  | backfill _ _ _ _ _ _ next => exact inserted table (some (next - 1))
  | revise current stored shared =>
    exact (inserted _ none).trans (closed current call.effectiveFrom stored shared)
  | advance current stored shared =>
    exact (inserted _ none).trans (closed current (call.effectiveFrom - 1) stored shared)

/-- An interposed bar leaves two closed rows of different bars that meet. -/
theorem Change.meets (changed : Change table call after) (orderly : table.Orderly)
    (covered : table.Covered) (interposed : Interposed table call) :
    ∃ row ∈ after.ofPair call.pair, ∃ other ∈ after.ofPair call.pair,
      row.effectiveTo ≠ none ∧ other.effectiveTo ≠ none ∧
        row.effectiveFrom ≠ other.effectiveFrom ∧ ¬row.period.Apart other.period := by
  obtain ⟨⟨before, early, earlier⟩, ⟨behind, late, later⟩, unstored⟩ := interposed
  obtain ⟨held, shared⟩ := mem_ofPair.mp early
  obtain ⟨present, alike⟩ := mem_ofPair.mp late
  cases changed with
  | same row stored pair bar => exact absurd bar (unstored row (mem_ofPair.mpr ⟨stored, pair⟩))
  | first closed => exact absurd shared (orderly.none_of_closed closed before held)
  | revise row stored pair opened bar =>
    exact absurd bar (unstored row (mem_ofPair.mpr ⟨stored, pair⟩))
  | copy row stored pair bar => exact absurd bar (unstored row (mem_ofPair.mpr ⟨stored, pair⟩))
  | advance row stored pair opened further =>
    have led := (orderly.leads row stored opened behind present (alike.trans pair.symm)).1
    exact absurd (led.trans_lt further) (not_lt.mpr later.le)
  | backfill current stored pair opened _ _ next after stands follows =>
    -- The row that covers the new bar is closed, since a later bar is stored.
    obtain ⟨other, listed, same, covers⟩ := covered before held call.effectiveFrom earlier.le
    have inPair : other ∈ table.ofPair call.pair := mem_ofPair.mpr ⟨listed, same.trans shared⟩
    have closed : other.effectiveTo ≠ none := fun lasting =>
      absurd ((orderly.leads other listed lasting behind present
        (alike.trans (same.trans shared).symm)).1) (not_le.mpr (covers.1.trans_lt later))
    refine ⟨other, mem_ofPair.mpr ⟨mem_insert.mpr (.inl listed), same.trans shared⟩, _,
      mem_ofPair.mpr ⟨mem_insert.mpr (.inr rfl), rfl⟩, closed, Option.some_ne_none _,
      unstored other inPair, fun apart => apart call.effectiveFrom ⟨covers, le_rfl, ?_⟩⟩
    intro given ends
    obtain rfl : given = next - 1 := (Option.some.inj ends).symm
    change call.effectiveFrom ≤ next - 1
    omega

/-- Everything that a table keeps between calls. -/
structure Consistent (table : PayloadTable π) : Prop where
  orderly : table.Orderly
  covered : table.Covered
  pointed : table.Pointed

/-- The table of the migration is consistent. -/
theorem Consistent.empty : (PayloadTable.empty : PayloadTable π).Consistent where
  orderly := Orderly.empty
  covered := fun _ member => absurd member List.not_mem_nil
  pointed := fun _ member => absurd member List.not_mem_nil

/-- Every change keeps a table consistent. -/
theorem Consistent.change (consistent : table.Consistent) (changed : Change table call after) :
    after.Consistent where
  orderly := consistent.orderly.change changed
  covered := changed.covered consistent.orderly consistent.covered
  pointed := changed.pointed consistent.orderly consistent.pointed

variable [DecidableEq π]

/-- Whatever is stored in whatever order, every pair with a row has one open row, of its latest bar
and there of the newest revision; closed rows do not end before they begin; and no row is lost or
changed except that its end is set once. -/
theorem immutable_history (calls : List (StoreCall π)) :
    (∀ pair, (empty.storeAll calls).ofPair pair ≠ [] →
      ∃ current,
        ((empty.storeAll calls).ofPair pair).filter (fun row => row.effectiveTo = none) = [current] ∧
        ∀ row ∈ (empty.storeAll calls).ofPair pair, row.effectiveFrom ≤ current.effectiveFrom ∧
          (row.effectiveFrom = current.effectiveFrom → row.id ≤ current.id)) ∧
    (∀ row ∈ (empty.storeAll calls).rows, ∀ last ∈ row.effectiveTo, row.effectiveFrom ≤ last) ∧
    ∀ earlier later, calls = earlier ++ later → ∀ row ∈ (empty.storeAll earlier).rows,
      ∃ kept ∈ (empty.storeAll calls).rows, kept = row ∨
        row.effectiveTo = none ∧ ∃ last, kept = { row with effectiveTo := some last } := by
  have orderly : (empty.storeAll calls).Orderly := Orderly.empty.storeAll calls
  refine ⟨?_, orderly.proper, ?_⟩
  · intro pair nonempty
    obtain ⟨row, member⟩ := List.exists_mem_of_ne_nil _ nonempty
    obtain ⟨stored, shared⟩ := mem_ofPair.mp member
    obtain ⟨current, listed, same, opened⟩ := orderly.opened row stored
    have inPair : current ∈ (empty.storeAll calls).ofPair pair :=
      mem_ofPair.mpr ⟨listed, same.trans shared⟩
    refine ⟨current, orderly.filter_open inPair opened, ?_⟩
    intro other held
    obtain ⟨present, alike⟩ := mem_ofPair.mp held
    exact orderly.leads current listed opened other present
      (alike.trans (same.trans shared).symm)
  · rintro earlier later rfl row stored
    have before : (empty.storeAll earlier : PayloadTable π).Orderly := Orderly.empty.storeAll earlier
    have split : (empty : PayloadTable π).storeAll (earlier ++ later) =
        (empty.storeAll earlier).storeAll later := List.foldl_append
    rw [split]
    exact storeAll_outlives before later stored

/-- Two closed rows that meet meet for ever. -/
theorem not_disjoint_storeAll (consistent : table.Consistent) (calls : List (StoreCall π))
    {row other : PayloadRow π} (stored : row ∈ table.ofPair pair) (listed : other ∈ table.ofPair pair)
    (ends : row.effectiveTo ≠ none) (closed : other.effectiveTo ≠ none)
    (bars : row.effectiveFrom ≠ other.effectiveFrom) (meets : ¬row.period.Apart other.period) :
    ¬(table.storeAll calls).Disjoint pair := by
  have lasting : ∀ row ∈ table.ofPair pair, row.effectiveTo ≠ none →
      row ∈ (table.storeAll calls).ofPair pair := by
    intro row member ends
    obtain ⟨last, ends⟩ := Option.ne_none_iff_exists'.mp ends
    obtain ⟨stored, shared⟩ := mem_ofPair.mp member
    obtain ⟨kept, held, outlives⟩ := storeAll_outlives consistent.orderly calls stored
    obtain rfl := outlives.closed ends
    exact mem_ofPair.mpr ⟨held, shared⟩
  exact fun disjoint => meets (disjoint row (lasting row stored ends) other
    (lasting other listed closed) bars)

/-- From a consistent table with disjoint intervals they stay disjoint exactly when no call for the
pair is interposed. -/
theorem disjoint_storeAll_iff (consistent : table.Consistent) (disjoint : table.Disjoint pair)
    (calls : List (StoreCall π)) :
    (table.storeAll calls).Disjoint pair ↔
      ∀ earlier call later, calls = earlier ++ call :: later → call.pair = pair →
        ¬Interposed (table.storeAll earlier) call := by
  -- The induction takes the calls in their order; the first one decides about the next table.
  induction calls generalizing table with
  | nil => exact ⟨fun _ earlier call later split => by simp at split, fun _ => disjoint⟩
  | cons call rest ih =>
    have changed := storePayload_change table call
    have next := consistent.change changed
    by_cases outside : call.pair = pair → ¬Interposed table call
    · have kept : (table.storePayload call).Disjoint pair := by
        by_cases same : call.pair = pair
        · subst same
          exact changed.disjoint consistent.orderly consistent.pointed disjoint (outside rfl)
        · have unchanged := changed.ofPair_other consistent.orderly same
          unfold Disjoint
          rw [unchanged]
          exact disjoint
      refine (ih next kept).trans ⟨?_, ?_⟩
      · rintro later earlier other behind split shared
        cases earlier with
        | nil =>
          obtain ⟨rfl, -⟩ := List.cons.inj split
          exact outside shared
        | cons first between =>
          obtain rfl := (List.cons.inj split).1
          exact later between other behind (List.cons.inj split).2 shared
      · rintro all earlier other behind rfl shared
        exact all (call :: earlier) other behind rfl shared
    · obtain ⟨rfl, interposed⟩ : call.pair = pair ∧ Interposed table call := by
        simpa using outside
      obtain ⟨row, stored, other, listed, ends, closed, bars, meets⟩ :=
        changed.meets consistent.orderly consistent.covered interposed
      refine ⟨fun final => absurd final ?_, fun all => absurd interposed (all [] call rest rfl rfl)⟩
      exact not_disjoint_storeAll next rest stored listed ends closed bars meets

/-- The intervals of different bars of a pair are disjoint exactly when no call brought a new bar
between two bars that were stored already. -/
theorem history_disjoint_iff (calls : List (StoreCall π)) (pair : Pair) :
    (empty.storeAll calls).Disjoint pair ↔
      ∀ earlier call later, calls = earlier ++ call :: later → call.pair = pair →
        ¬Interposed (empty.storeAll earlier) call :=
  disjoint_storeAll_iff Consistent.empty (fun _ member => absurd member List.not_mem_nil) calls

/-- The bar of an hour ago arrives after the one of now and the one of two hours ago. -/
def lateBar : List (StoreCall String) :=
  [100, 300, 200].map fun bar => ⟨⟨"BTCUSDT", "1h"⟩, "swing-v1", bar, "{}", 0⟩

/-- The bar of 100 stays valid up to 299, where the late bar of 200 is valid, too. -/
theorem late_bar_overlaps :
    ¬∀ (calls : List (StoreCall String)) (pair : Pair), (empty.storeAll calls).Disjoint pair := by
  intro always
  have first : (⟨1, ⟨"BTCUSDT", "1h"⟩, "swing-v1", 100, some 299, "{}", 0⟩ : PayloadRow String) ∈
      (empty.storeAll lateBar).ofPair ⟨"BTCUSDT", "1h"⟩ := by decide
  have late : (⟨3, ⟨"BTCUSDT", "1h"⟩, "swing-v1", 200, some 299, "{}", 0⟩ : PayloadRow String) ∈
      (empty.storeAll lateBar).ofPair ⟨"BTCUSDT", "1h"⟩ := by decide
  exact always lateBar _ _ first _ late (by decide) 200 (by
    simp only [PayloadRow.period, Period.covers_closed]
    decide)

end Rasat.PayloadTable
