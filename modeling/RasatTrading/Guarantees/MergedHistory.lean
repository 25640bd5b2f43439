import RasatTrading.Analysis.Merge
import RasatTrading.Analysis.StoreLaws
import RasatTrading.Analysis.StructureLaws
import RasatTrading.Guarantees.ZoneStatus

/-! The merged history of zones: when it has every zone of the series once, in its newest state. -/

namespace Rasat

variable {π ζ : Type} {list : ZoneList π ζ} {rows : List (PayloadRow π)} {entry : StoredZone π ζ}

namespace ZoneList

/-- The zone of the price series that a stored zone stands for. -/
def zoneOf (list : ZoneList π ζ) (window : ℕ → List Candle) (entry : StoredZone π ζ) : List ℤ × Band :=
  list.identity (window entry.1.id) entry.2

/-- One of two states of a zone is not newer: its bar is earlier, or it is an earlier revision. -/
def NotNewer (entry newest : StoredZone π ζ) : Prop :=
  entry.1.effectiveFrom < newest.1.effectiveFrom ∨
    entry.1.effectiveFrom = newest.1.effectiveFrom ∧ entry.1.id ≤ newest.1.id

/-- The newest of the states of a zone that the rows hold. -/
structure Newest (list : ZoneList π ζ) (window : ℕ → List Candle) (rows : List (PayloadRow π))
    (newest entry : StoredZone π ζ) : Prop where
  stored : newest ∈ list.held rows
  zone : list.zoneOf window newest = list.zoneOf window entry
  latest : ∀ other ∈ list.held rows, list.zoneOf window other = list.zoneOf window entry →
    NotNewer other newest

/-- Every zone that was ever stored has one entry in the merged list, its newest state. -/
def Complete (list : ZoneList π ζ) (window : ℕ → List Candle) (stored read : List (PayloadRow π)) :
    Prop :=
  ∀ entry ∈ list.held stored, ∃ newest, list.Newest window stored newest entry ∧
    (list.merged read).filter
      (fun other => list.zoneOf window other = list.zoneOf window entry) = [newest]

/-- The stored zone is the last one that is read under its id. -/
def LastRead (list : ZoneList π ζ) (read : List (PayloadRow π)) (entry : StoredZone π ζ) : Prop :=
  ∃ before after, list.held read = before ++ entry :: after ∧
    ∀ other ∈ after, list.zoneId other.2 ≠ list.zoneId entry.2

/-- Of the states of each zone exactly the newest is the last one that is read under its id. -/
def OnlyNewestLast (list : ZoneList π ζ) (window : ℕ → List Candle)
    (stored read : List (PayloadRow π)) : Prop :=
  ∀ entry ∈ list.held stored, ∃ newest, list.Newest window stored newest entry ∧
    ∀ other ∈ list.held stored, list.zoneOf window other = list.zoneOf window entry →
      (list.LastRead read other ↔ other = newest)

/-- What is shown is the merged list without the rows it came from. -/
theorem mergedZones_eq : list.mergedZones rows = (list.merged rows).map Prod.snd := by
  unfold mergedZones merged
  rw [Keyed.Table.upsertAll_map Prod.snd fun _ => rfl]
  congr 1
  simp [held, List.map_flatMap, Function.comp_def]

/-- The merged list holds the stored zones that are read last under their ids. -/
theorem mem_merged : entry ∈ list.merged rows ↔ list.LastRead rows entry := by
  unfold merged LastRead
  rw [Keyed.Table.mem_upsertAll_empty, List.find?_eq_some_iff_append]
  simp only [decide_true, true_and]
  constructor
  · rintro ⟨after, before, split, free⟩
    refine ⟨before.reverse, after.reverse, ?_, fun other member => ?_⟩
    · rw [← List.reverse_reverse (list.held rows), split]
      simp
    · simpa using free other (List.mem_reverse.mp member)
  · rintro ⟨before, after, split, free⟩
    refine ⟨after.reverse, before.reverse, by simp [split], fun other member => ?_⟩
    simpa using free other (List.mem_reverse.mp member)

theorem nodup_merged : (list.merged rows).Nodup :=
  List.Nodup.of_map _ (Keyed.Table.empty.upsertAll (list.held rows) :
    Keyed.Table fun entry : StoredZone π ζ => list.zoneId entry.2).unique

theorem LastRead.mem (last : list.LastRead rows entry) : entry ∈ list.held rows := by
  obtain ⟨before, after, split, -⟩ := last
  exact split ▸ List.mem_append_right _ List.mem_cons_self

theorem mem_held {entry : StoredZone π ζ} :
    entry ∈ list.held rows ↔ entry.1 ∈ rows ∧ entry.2 ∈ list.zones entry.1.payload := by
  obtain ⟨row, zone⟩ := entry
  simp [held]

variable {stored read : List (PayloadRow π)} {window : ℕ → List Candle}

theorem mem_held_perm (same : read.Perm stored) : entry ∈ list.held read ↔ entry ∈ list.held stored := by
  rw [mem_held, mem_held, same.mem_iff]

/-- A list without repetition whose selected elements are one value selects just that. -/
theorem filter_eq_singleton {α : Type} {elements : List α} (distinct : elements.Nodup)
    {selects : α → Bool} {value : α} :
    elements.filter selects = [value] ↔ ∀ other, other ∈ elements ∧ selects other ↔ other = value := by
  constructor
  · intro only other
    rw [← List.mem_filter, only, List.mem_singleton]
  · intro only
    refine List.perm_singleton.mp ?_
    refine (List.perm_ext_iff_of_nodup (distinct.filter _) (List.nodup_singleton _)).mpr fun other => ?_
    rw [List.mem_filter, List.mem_singleton]
    exact only other

/-- The merged list is complete exactly when only the newest states are read last. -/
theorem complete_iff (same : read.Perm stored) :
    list.Complete window stored read ↔ list.OnlyNewestLast window stored read := by
  refine forall_congr' fun entry => imp_congr_right fun _ => exists_congr fun newest =>
    and_congr_right fun known => ?_
  rw [filter_eq_singleton nodup_merged]
  constructor
  · intro only other _ shared
    rw [← mem_merged, ← only other]
    simp [shared]
  · intro only other
    rw [mem_merged, decide_eq_true_eq]
    constructor
    · rintro ⟨last, shared⟩
      exact (only other ((mem_held_perm same).mp last.mem) shared).mp last
    · rintro rfl
      exact ⟨(only other known.stored known.zone).mpr rfl, known.zone⟩

/-! Which zones are shown, by the places that their ids are made of. -/

variable {κ : Type}

/-- The stored zone is the n-th that is read. -/
def ReadAt (list : ZoneList π ζ) (read : List (PayloadRow π)) (n : ℕ) (entry : StoredZone π ζ) : Prop :=
  (list.held read)[n]? = some entry

/-- Why a zone is shown once, in its newest state, which is the n-th that is read; `place` is what the ids are made
of. -/
structure Kept (list : ZoneList π ζ) (place : ζ → κ) (window : ℕ → List Candle) (read : List (PayloadRow π))
    (n : ℕ) (newest : StoredZone π ζ) : Prop where
  /-- No other zone of the series takes its place in a window that is read later. -/
  spared : ∀ m other, n < m → list.ReadAt read m other → place other.2 = place newest.2 →
    list.zoneOf window other = list.zoneOf window newest
  /-- No revision of its bar that has it in the same place is read later. -/
  last : ∀ m other, n < m → list.ReadAt read m other → place other.2 = place newest.2 →
    list.zoneOf window other = list.zoneOf window newest → other.1.effectiveFrom ≠ newest.1.effectiveFrom
  /-- Wherever else it stood in a window, a zone that is read later stands there. -/
  replaced : ∀ m other, list.ReadAt read m other → list.zoneOf window other = list.zoneOf window newest →
    place other.2 ≠ place newest.2 → ∃ k later, m < k ∧ list.ReadAt read k later ∧ place later.2 = place other.2

/-- Every zone that was ever stored is kept in its newest state. -/
def AllKept (list : ZoneList π ζ) (place : ζ → κ) (window : ℕ → List Candle) (stored read : List (PayloadRow π)) :
    Prop :=
  ∀ entry ∈ list.held stored, ∃ n newest, list.ReadAt read n newest ∧ list.Newest window stored newest entry ∧
    list.Kept place window read n newest

/-- The ids of the stored zones are equal exactly where their places are. -/
def NamedBy (list : ZoneList π ζ) (place : ζ → κ) (stored : List (PayloadRow π)) : Prop :=
  ∀ entry ∈ list.held stored, ∀ other ∈ list.held stored,
    list.zoneId entry.2 = list.zoneId other.2 ↔ place entry.2 = place other.2

theorem ReadAt.mem {n : ℕ} (at_n : list.ReadAt rows n entry) : entry ∈ list.held rows :=
  List.mem_of_getElem? at_n

/-- The zone that is read last under its id, with its number. -/
theorem lastRead_iff : list.LastRead rows entry ↔ ∃ n, list.ReadAt rows n entry ∧
    ∀ m other, n < m → list.ReadAt rows m other → list.zoneId other.2 ≠ list.zoneId entry.2 := by
  constructor
  · rintro ⟨before, after, split, free⟩
    refine ⟨before.length, by simp [ReadAt, split], fun m other later at_m => free other ?_⟩
    obtain ⟨k, rfl⟩ := Nat.exists_eq_add_of_lt later
    rw [ReadAt, split, List.getElem?_append_right (by omega)] at at_m
    rw [show before.length + k + 1 - before.length = k + 1 by omega, List.getElem?_cons_succ] at at_m
    exact List.mem_of_getElem? at_m
  · rintro ⟨n, at_n, free⟩
    obtain ⟨inside, same⟩ := List.getElem?_eq_some_iff.mp at_n
    refine ⟨(list.held rows).take n, (list.held rows).drop (n + 1), ?_, fun other member => ?_⟩
    · rw [← same, List.cons_getElem_drop_succ, List.take_append_drop]
    · obtain ⟨k, at_k⟩ := List.mem_iff_getElem?.mp member
      rw [List.getElem?_drop] at at_k
      exact free (n + 1 + k) other (by omega) at_k

/-- Zones are read in the order of their bars, as the rows are. -/
theorem readAt_ordered (ordered : rows.Pairwise fun row later => row.effectiveFrom ≤ later.effectiveFrom) {n m : ℕ}
    {later : StoredZone π ζ} (behind : n < m) (at_n : list.ReadAt rows n entry) (at_m : list.ReadAt rows m later) :
    entry.1.effectiveFrom ≤ later.1.effectiveFrom := by
  have aged : (list.held rows).Pairwise fun one other => one.1.effectiveFrom ≤ other.1.effectiveFrom := by
    refine List.pairwise_flatMap.mpr ⟨fun row _ => ?_, ordered.imp fun {row later} aged => ?_⟩
    · exact List.pairwise_map.mpr (List.pairwise_of_forall fun _ _ => le_rfl)
    · rintro ⟨_, _⟩ first ⟨_, _⟩ second
      obtain ⟨_, -, ⟨⟩⟩ := List.mem_map.mp first
      obtain ⟨_, -, ⟨⟩⟩ := List.mem_map.mp second
      exact aged
  obtain ⟨inside, rfl⟩ := List.getElem?_eq_some_iff.mp at_n
  obtain ⟨inside', rfl⟩ := List.getElem?_eq_some_iff.mp at_m
  exact List.pairwise_iff_getElem.mp aged n m inside inside' behind

/-- A zone that is kept is read last under its id. -/
theorem Kept.lastRead {place : ζ → κ} {n : ℕ} {newest : StoredZone π ζ} (same : read.Perm stored)
    (ordered : read.Pairwise fun row later => row.effectiveFrom ≤ later.effectiveFrom)
    (named : list.NamedBy place stored) (at_n : list.ReadAt read n newest)
    (known : list.Newest window stored newest entry) (kept : list.Kept place window read n newest) :
    ∀ m other, n < m → list.ReadAt read m other → list.zoneId other.2 ≠ list.zoneId newest.2 := by
  intro m other later at_m id
  have listed := (mem_held_perm same).mp at_m.mem
  have placed := (named other listed newest known.stored).mp id
  have zone := kept.spared m other later at_m placed
  -- A later state of the zone belongs to the same bar, and so to a revision of it that is read too late.
  have bar : other.1.effectiveFrom = newest.1.effectiveFrom := by
    have reached := readAt_ordered ordered later at_n at_m
    rcases known.latest other listed (zone.trans known.zone) with earlier | ⟨equal, -⟩
    · omega
    · exact equal
  exact kept.last m other later at_m placed zone bar

/-- Only the newest states are read last exactly when every zone is kept. -/
theorem onlyNewestLast_iff {place : ζ → κ} (same : read.Perm stored)
    (ordered : read.Pairwise fun row later => row.effectiveFrom ≤ later.effectiveFrom)
    (named : list.NamedBy place stored) :
    list.OnlyNewestLast window stored read ↔ list.AllKept place window stored read := by
  constructor
  · intro only entry member
    obtain ⟨newest, known, lasts⟩ := only entry member
    obtain ⟨n, at_n, free⟩ := lastRead_iff.mp ((lasts newest known.stored known.zone).mpr rfl)
    have alone (m : ℕ) (other : StoredZone π ζ) (later : n < m) (at_m : list.ReadAt read m other) :
        place other.2 ≠ place newest.2 := fun placed =>
      free m other later at_m
        ((named other ((mem_held_perm same).mp at_m.mem) newest known.stored).mpr placed)
    refine ⟨n, newest, at_n, known, fun m other later at_m placed => absurd placed (alone m other later at_m),
      fun m other later at_m placed => absurd placed (alone m other later at_m), ?_⟩
    intro m other at_m zone apart
    have listed := (mem_held_perm same).mp at_m.mem
    -- Were nothing read later in that place, this older state would be shown too.
    by_contra none_later
    have shown : list.LastRead read other := by
      refine lastRead_iff.mpr ⟨m, at_m, fun k later behind at_k id => none_later ⟨k, later, behind, at_k, ?_⟩⟩
      exact (named later ((mem_held_perm same).mp at_k.mem) other listed).mp id
    rw [(lasts other listed (zone.trans known.zone)).mp shown] at apart
    exact apart rfl
  · intro all entry member
    obtain ⟨n, newest, at_n, known, kept⟩ := all entry member
    have free := kept.lastRead same ordered named at_n known
    refine ⟨newest, known, fun other listed shared => ⟨fun last => ?_, ?_⟩⟩
    · obtain ⟨m, at_m, after⟩ := lastRead_iff.mp last
      by_cases placed : place other.2 = place newest.2
      · -- Both are read last in one place, and so at one time.
        have id := (named other listed newest known.stored).mpr placed
        rcases lt_trichotomy m n with earlier | rfl | later
        · exact absurd id.symm (after n newest earlier at_n)
        · exact Option.some.inj (at_m.symm.trans at_n)
        · exact absurd id (free m other later at_m)
      · obtain ⟨k, later, behind, at_k, taken⟩ :=
          kept.replaced m other at_m (shared.trans known.zone.symm) placed
        have id := (named later ((mem_held_perm same).mp at_k.mem) other listed).mpr taken
        exact absurd id (after k later behind at_k)
    · rintro rfl
      exact lastRead_iff.mpr ⟨n, at_n, free⟩

/-- Rows that are read in the order of their bars and insertions. -/
def InOrder (read : List (PayloadRow π)) : Prop :=
  read.Pairwise fun row later => row.effectiveFrom < later.effectiveFrom ∨
    row.effectiveFrom = later.effectiveFrom ∧ row.id ≤ later.id

/-- The ids tell the zones of the series apart and keep each of them together. -/
def Faithful (list : ZoneList π ζ) (window : ℕ → List Candle) (stored : List (PayloadRow π)) : Prop :=
  ∀ entry ∈ list.held stored, ∀ other ∈ list.held stored,
    list.zoneId entry.2 = list.zoneId other.2 ↔ list.zoneOf window entry = list.zoneOf window other

/-- With faithful ids and rows that are read in order, the newest states are read last. -/
theorem onlyNewestLast_of_faithful
    (same : read.Perm stored) (faithful : list.Faithful window stored) (inOrder : InOrder read) :
    list.OnlyNewestLast window stored read := by
  have aged : (list.held read).Pairwise NotNewer := by
    refine List.pairwise_flatMap.mpr ⟨fun row _ => ?_, inOrder.imp fun {row later} aged => ?_⟩
    · exact List.pairwise_map.mpr (List.pairwise_of_forall fun _ _ => .inr ⟨rfl, le_rfl⟩)
    · rintro ⟨_, _⟩ first ⟨_, _⟩ second
      obtain ⟨_, -, ⟨⟩⟩ := List.mem_map.mp first
      obtain ⟨_, -, ⟨⟩⟩ := List.mem_map.mp second
      exact aged
  intro entry member
  -- The state of the zone that is read last is the newest, and it is the last under its id.
  have present := (mem_held_perm same).mpr member
  obtain ⟨newest, found⟩ : ∃ newest, (list.held read).reverse.find?
      (fun other => list.zoneOf window other = list.zoneOf window entry) = some newest := by
    refine Option.isSome_iff_exists.mp (List.find?_isSome.mpr ⟨entry, ?_, by simp⟩)
    exact List.mem_reverse.mpr present
  obtain ⟨zone, after, before, split, free⟩ := List.find?_eq_some_iff_append.mp found
  rw [decide_eq_true_eq] at zone
  have forward : list.held read = before.reverse ++ newest :: after.reverse := by
    rw [← List.reverse_reverse (list.held read), split]
    simp
  have stored' : newest ∈ list.held stored :=
    (mem_held_perm same).mp (forward ▸ List.mem_append_right _ List.mem_cons_self)
  have later (other : StoredZone π ζ) (listed : other ∈ after.reverse) :
      list.zoneOf window other ≠ list.zoneOf window entry := by
    simpa using free other (List.mem_reverse.mp listed)
  have older (other : StoredZone π ζ) (listed : other ∈ list.held stored)
      (shared : list.zoneOf window other = list.zoneOf window entry) :
      other ∈ before.reverse ∨ other = newest := by
    have there := (mem_held_perm same).mpr listed
    rw [forward] at there
    rcases List.mem_append.mp there with early | rest
    · exact .inl early
    · rcases List.mem_cons.mp rest with now | behind
      · exact .inr now
      · exact absurd shared (later other behind)
  have lasts : list.LastRead read newest := by
    refine ⟨before.reverse, after.reverse, forward, fun other listed named => later other listed ?_⟩
    have there : other ∈ list.held stored := (mem_held_perm same).mp
      (forward ▸ List.mem_append_right _ (List.mem_cons_of_mem _ listed))
    exact ((faithful other there newest stored').mp named).trans zone
  refine ⟨newest, ⟨stored', zone, fun other listed shared => ?_⟩, fun other listed shared => ⟨?_, ?_⟩⟩
  · rcases older other listed shared with early | rfl
    · rw [forward] at aged
      exact (List.pairwise_append.mp aged).2.2 other early newest List.mem_cons_self
    · exact .inr ⟨rfl, le_rfl⟩
  · intro last
    have alike : list.zoneId other.2 = list.zoneId newest.2 :=
      (faithful other listed newest stored').mpr (shared.trans zone.symm)
    -- Two zones that are both the last under one id are the same one.
    have merged := mem_merged.mpr last
    have merged' := mem_merged.mpr lasts
    exact List.inj_on_of_nodup_map (Keyed.Table.empty.upsertAll (list.held read) :
      Keyed.Table fun entry : StoredZone π ζ => list.zoneId entry.2).unique merged merged' alike
  · rintro rfl
    exact lasts

end ZoneList

open ZoneList

/-! What the rows of a history were computed from. -/

section Computed

variable [DecidableEq π] {call : Analysis → StoreCall π} {history : List Analysis}

/-- Every row holds what an analysis of the history computed, from the window that is noted of it. -/
def Traced.Computed (call : Analysis → StoreCall π) (history : List Analysis) (traced : Traced π) : Prop :=
  ∀ row ∈ traced.table.rows, ∃ analysis ∈ history,
    row.payload = (call analysis).payload ∧ traced.window row.id = analysis.window

/-- The rows of a history are computed by it. -/
theorem tracedHistory_computed (call : Analysis → StoreCall π) (history : List Analysis) :
    (tracedHistory call history).table.Orderly ∧ (tracedHistory call history).Computed call history := by
  induction history using List.reverseRecOn with
  | nil => exact ⟨.empty, fun row member => absurd member List.not_mem_nil⟩
  | append_singleton history analysis ih =>
    obtain ⟨orderly, computed⟩ := ih
    have step : tracedHistory call (history ++ [analysis]) =
        (tracedHistory call history).store call analysis := List.foldl_concat ..
    have changed := PayloadTable.storePayload_change (tracedHistory call history).table (call analysis)
    rw [step]
    refine ⟨orderly.change changed, fun row member => ?_⟩
    rcases changed.row member with ⟨old, stored, number, payload⟩ | ⟨number, payload, grown⟩
    · obtain ⟨earlier, listed, same, window⟩ := computed old stored
      refine ⟨earlier, List.mem_append_left _ listed, payload.symm.trans same, ?_⟩
      have bound := orderly.numbered old stored
      unfold Traced.store
      dsimp only
      split
      · rw [← number, window]
      · -- Only the window of a number that is new is noted.
        rename_i other
        have grown := changed.sequence
        rw [Function.update_of_ne (by omega), ← number, window]
    · refine ⟨analysis, List.mem_append_right _ (List.mem_singleton_self _), payload, ?_⟩
      have other : (PayloadTable.storePayload (tracedHistory call history).table (call analysis)).sequence ≠
          (tracedHistory call history).table.sequence := by omega
      unfold Traced.store
      dsimp only
      rw [if_neg other, number, Function.update_self]

end Computed

/-! What the ids are made of. -/

/-- The places in its window that an order block is named by: those of its event and its candle. -/
def OrderBlock.places (block : OrderBlock) : ℕ × ℕ := (block.eventIndex, block.candleIndex)

/-- The digits of a number, up to a sign behind them. -/
theorem digits_takeWhile (n : ℕ) (rest : List Char) :
    ((toString n).toList ++ ':' :: rest).takeWhile Char.isDigit = (toString n).toList := by
  have digits : ∀ c ∈ (toString n).toList, c.isDigit = true := by
    intro c member
    have listed : c ∈ Nat.toDigits 10 n := by simpa using member
    exact Nat.isDigit_of_mem_toDigits (by decide) (by decide) listed
  rw [List.takeWhile_append_of_pos digits, List.takeWhile_cons_of_neg (by decide), List.append_nil]

/-- A number can be read back from its digits. -/
theorem digits_inj {n m : ℕ} (same : (toString n).toList = (toString m).toList) : n = m := by
  have read (n : ℕ) : Nat.ofDigitChars 10 (toString n).toList 0 = n := by
    rw [show (toString n).toList = Nat.toDigits 10 n by simp]
    exact Nat.ofDigitChars_ten_toDigits
  rw [← read n, same, read m]

/-- Two numbers can be read back from an id that joins them. -/
theorem joined_inj {front : String} {i j k l : ℕ} :
    front ++ toString i ++ ":" ++ toString j = front ++ toString k ++ ":" ++ toString l ↔ i = k ∧ j = l := by
  constructor
  · intro same
    have lists := congrArg String.toList same
    simp only [String.toList_append, List.append_assoc, List.append_cancel_left_eq] at lists
    have digits := congrArg (List.takeWhile Char.isDigit) lists
    change List.takeWhile _ ((toString i).toList ++ ':' :: _) =
      List.takeWhile _ ((toString k).toList ++ ':' :: _) at digits
    rw [digits_takeWhile, digits_takeWhile] at digits
    rw [digits, List.append_cancel_left_eq] at lists
    have ends := List.append_cancel_left lists
    exact ⟨digits_inj digits, digits_inj ends⟩
  · rintro ⟨rfl, rfl⟩
    rfl

/-- Bars do not change the id of a block. -/
theorem mark_zoneId (block : OrderBlock) (candle : Candle) : (block.mark candle).zoneId = block.zoneId := by
  unfold OrderBlock.mark
  cases block.direction <;> dsimp only <;> split <;> (try split) <;> rfl

theorem markOrderBlock_zoneId (block : OrderBlock) (candles : List Candle) :
    (markOrderBlock block candles).zoneId = block.zoneId := by
  unfold markOrderBlock
  generalize candles.drop _ = bars
  -- The block changes from bar to bar, its id with none of them.
  induction bars generalizing block with
  | nil => rfl
  | cons bar rest ih =>
    rw [List.foldl_cons, ih]
    split
    · rfl
    · exact mark_zoneId block bar

variable {candles : List Candle}

/-- The block of an event is named by its places, and those are in the window. -/
theorem orderBlockOf_named {event : StructureEvent} {block : OrderBlock}
    (found : orderBlockOf candles event = some block) :
    block.zoneId = "ob:" ++ toString block.eventIndex ++ ":" ++ toString block.candleIndex := by
  unfold orderBlockOf at found
  obtain ⟨⟨index, candle⟩, -, rfl⟩ := Option.map_eq_some_iff.mp found
  rw [markOrderBlock_zoneId, SamePlace.eventIndex (markOrderBlock_status ?_ ?_ candles).2,
    SamePlace.candleIndex (markOrderBlock_status ?_ ?_ candles).2] <;> rfl

/-- A gap is named by the place where it was formed. -/
theorem fvgAt_named {minGapPct : ℚ} {i : ℕ} {gap : FairValueGap}
    (found : fvgAt candles minGapPct i = some gap) :
    gap.zoneId = "fvg:" ++ toString i ++ ":" ++ toString (i + 2) ∧ gap.formedAt = i + 2 ∧ i + 2 < candles.length := by
  unfold fvgAt at found
  obtain ⟨first, -, found⟩ := Option.bind_eq_some_iff.mp found
  obtain ⟨third, at_third, found⟩ := Option.bind_eq_some_iff.mp found
  obtain ⟨⟨band, direction⟩, -, found⟩ := Option.bind_eq_some_iff.mp found
  have inside := (List.getElem?_eq_some_iff.mp at_third).1
  dsimp only at found
  split at found
  · cases found
  · cases found
    exact ⟨rfl, rfl, inside⟩

variable {history : List Analysis} {pair : Pair}

/-- A stored block is the block of an event of the window that its row was computed from. -/
theorem block_computed {entry : StoredZone OrderBlocks OrderBlock}
    (member : entry ∈ orderBlockList.held ((tracedHistory Analysis.blocksCall history).table.ofPair pair)) :
    ∃ event ∈ (detectStructure ((tracedHistory Analysis.blocksCall history).window entry.1.id)).events,
      orderBlockOf ((tracedHistory Analysis.blocksCall history).window entry.1.id) event = some entry.2 := by
  obtain ⟨stored, listed⟩ := mem_held.mp member
  obtain ⟨analysis, -, payload, window⟩ :=
    (tracedHistory_computed Analysis.blocksCall history).2 entry.1 (PayloadTable.mem_ofPair.mp stored).1
  rw [payload] at listed
  rw [window]
  exact List.mem_filterMap.mp ((Greedy.keep_sublist _).subset listed)

/-- A stored gap is one of the window that its row was computed from. -/
theorem gap_computed {entry : StoredZone OrderBlocks FairValueGap}
    (member : entry ∈ fvgList.held ((tracedHistory Analysis.blocksCall history).table.ofPair pair)) :
    ∃ i, fvgAt ((tracedHistory Analysis.blocksCall history).window entry.1.id) fvgMinGapPct i = some entry.2 := by
  obtain ⟨stored, listed⟩ := mem_held.mp member
  obtain ⟨analysis, -, payload, window⟩ :=
    (tracedHistory_computed Analysis.blocksCall history).2 entry.1 (PayloadTable.mem_ofPair.mp stored).1
  rw [payload] at listed
  rw [window]
  obtain ⟨i, -, found⟩ := List.mem_filterMap.mp listed
  exact ⟨i, found⟩

/-- The stored order blocks are named by their places. -/
theorem blocks_named :
    orderBlockList.NamedBy OrderBlock.places ((tracedHistory Analysis.blocksCall history).table.ofPair pair) := by
  intro entry member other listed
  obtain ⟨event, -, found⟩ := block_computed member
  obtain ⟨event', -, found'⟩ := block_computed listed
  change entry.2.zoneId = other.2.zoneId ↔ _
  rw [orderBlockOf_named found, orderBlockOf_named found', joined_inj, OrderBlock.places, OrderBlock.places,
    Prod.mk.injEq]

/-- The stored gaps are named by their places. -/
theorem gaps_named :
    fvgList.NamedBy FairValueGap.formedAt ((tracedHistory Analysis.blocksCall history).table.ofPair pair) := by
  intro entry member other listed
  obtain ⟨i, found⟩ := gap_computed member
  obtain ⟨j, found'⟩ := gap_computed listed
  obtain ⟨id, formed, -⟩ := fvgAt_named found
  obtain ⟨id', formed', -⟩ := fvgAt_named found'
  change entry.2.zoneId = other.2.zoneId ↔ _
  rw [id, id', joined_inj, formed, formed']
  omega

/-! What a slide of the window does to the places. -/

/-- The windows are parts of one series of candles, and begin where `start` says. -/
structure Slides (series : List Candle) (window : ℕ → List Candle) (start : ℕ → ℕ) : Prop where
  ordered : series.Pairwise fun candle later => candle.openTime < later.openTime
  part : ∀ id, window id <+: series.drop (start id)

variable {series : List Candle} {start : ℕ → ℕ}

/-- A candle stands in the same place of two windows exactly when they begin together. -/
theorem Slides.place_iff {window : ℕ → List Candle}
    (slides : Slides series window start) {id id' i k : ℕ} {candle candle' : Candle}
    (at_i : (window id)[i]? = some candle) (at_k : (window id')[k]? = some candle')
    (same : candle.openTime = candle'.openTime) : i = k ↔ start id = start id' := by
  have within {id i : ℕ} {candle : Candle} (at_i : (window id)[i]? = some candle) :
      series[start id + i]? = some candle := by
    obtain ⟨rest, split⟩ := slides.part id
    have inside := (List.getElem?_eq_some_iff.mp at_i).1
    rw [← List.getElem?_drop, ← split, List.getElem?_append_left inside, at_i]
  obtain ⟨inside, rfl⟩ := List.getElem?_eq_some_iff.mp (within at_i)
  obtain ⟨inside', rfl⟩ := List.getElem?_eq_some_iff.mp (within at_k)
  -- The series has no opening time twice.
  have one : start id + i = start id' + k := by
    rcases lt_trichotomy (start id + i) (start id' + k) with before | equal | behind
    · exact absurd same (List.pairwise_iff_getElem.mp slides.ordered _ _ inside inside' before).ne
    · exact equal
    · exact absurd same.symm (List.pairwise_iff_getElem.mp slides.ordered _ _ inside' inside behind).ne
  omega

/-- Two states of one gap stand in the same place, and so under one id, exactly when their windows begin together. -/
theorem gap_place_iff (slides : Slides series (tracedHistory Analysis.blocksCall history).window start)
    {entry other : StoredZone OrderBlocks FairValueGap}
    (member : entry ∈ fvgList.held ((tracedHistory Analysis.blocksCall history).table.ofPair pair))
    (listed : other ∈ fvgList.held ((tracedHistory Analysis.blocksCall history).table.ofPair pair))
    (zone : fvgList.zoneOf (tracedHistory Analysis.blocksCall history).window entry =
      fvgList.zoneOf (tracedHistory Analysis.blocksCall history).window other) :
    entry.2.formedAt = other.2.formedAt ↔ start entry.1.id = start other.1.id := by
  obtain ⟨i, found⟩ := gap_computed member
  obtain ⟨j, found'⟩ := gap_computed listed
  obtain ⟨-, formed, inside⟩ := fvgAt_named found
  obtain ⟨-, formed', inside'⟩ := fvgAt_named found'
  have begun := Nat.lt_of_add_right_lt inside
  have begun' := Nat.lt_of_add_right_lt inside'
  have times := (Prod.ext_iff.mp zone).1
  simp only [zoneOf, fvgList, timesAt, formed, formed', Nat.add_sub_cancel, List.filterMap_cons,
    List.filterMap_nil, List.getElem?_eq_getElem inside, List.getElem?_eq_getElem inside',
    List.getElem?_eq_getElem begun, List.getElem?_eq_getElem begun',
    Option.map_some, List.cons.injEq, and_true] at times
  rw [formed, formed']
  exact slides.place_iff (List.getElem?_eq_getElem inside) (List.getElem?_eq_getElem inside') times.2

/-- The candle of an event is in the window. -/
theorem event_inside {event : StructureEvent}
    (listed : event ∈ (detectStructure candles).events) : event.index < candles.length := by
  have follows := follows_walked candles swingLookback candles.length (Nat.le_refl _)
  have walks : (detectStructure candles).events = (walked candles swingLookback candles.length).events := by
    unfold walked
    rw [List.take_length]
    rfl
  rw [walks, follows.events] at listed
  exact listed.1

/-- So do two states of one order block. -/
theorem block_place_iff (slides : Slides series (tracedHistory Analysis.blocksCall history).window start)
    {entry other : StoredZone OrderBlocks OrderBlock}
    (member : entry ∈ orderBlockList.held ((tracedHistory Analysis.blocksCall history).table.ofPair pair))
    (listed : other ∈ orderBlockList.held ((tracedHistory Analysis.blocksCall history).table.ofPair pair))
    (zone : orderBlockList.zoneOf (tracedHistory Analysis.blocksCall history).window entry =
      orderBlockList.zoneOf (tracedHistory Analysis.blocksCall history).window other) :
    entry.2.places = other.2.places ↔ start entry.1.id = start other.1.id := by
  obtain ⟨event, reported, found⟩ := block_computed member
  obtain ⟨event', reported', found'⟩ := block_computed listed
  obtain ⟨-, eventIndex, candle, at_candle, -⟩ := orderBlockOf_status found
  obtain ⟨-, eventIndex', candle', at_candle', -⟩ := orderBlockOf_status found'
  have inside := event_inside reported
  have inside' := event_inside reported'
  rw [← eventIndex] at inside
  rw [← eventIndex'] at inside'
  have times := (Prod.ext_iff.mp zone).1
  simp only [zoneOf, orderBlockList, timesAt, List.filterMap_cons, List.filterMap_nil, at_candle, at_candle',
    List.getElem?_eq_getElem inside, List.getElem?_eq_getElem inside', Option.map_some, List.cons.injEq,
    and_true] at times
  have events := slides.place_iff (List.getElem?_eq_getElem inside) (List.getElem?_eq_getElem inside') times.1
  have candles := slides.place_iff at_candle at_candle' times.2
  rw [OrderBlock.places, OrderBlock.places, Prod.mk.injEq, events, candles, and_self]

/-- The zones of equal levels are named by their ids, which are made of their kind and range. -/
theorem zones_named {rows : List (PayloadRow LiquidityZones)} :
    liquidityList.NamedBy LiquidityZone.zoneId rows := fun _ _ _ _ => Iff.rfl

/-- For every history of analyses and every order in which `_read_history` may return its rows: a
merged list shows every zone of the series once and in its newest state exactly when every zone is
kept. A gap is named by its place in its window, an order block by those of its event and its candle,
and a zone of equal levels by its kind and the digits of its range. -/
theorem merged_history_complete_iff (general8 : ℚ → String) (history : List Analysis) (pair : Pair)
    {zones : List (PayloadRow LiquidityZones)} {blocks gaps : List (PayloadRow OrderBlocks)}
    (readZones : HistoryRead (tracedHistory (Analysis.liquidityCall general8) history).table pair zones)
    (readBlocks : HistoryRead (tracedHistory Analysis.blocksCall history).table pair blocks)
    (readGaps : HistoryRead (tracedHistory Analysis.blocksCall history).table pair gaps) :
    let liquidity := tracedHistory (Analysis.liquidityCall general8) history
    let obfvg := tracedHistory Analysis.blocksCall history
    (liquidityList.mergedZones zones = (liquidityList.merged zones).map Prod.snd ∧
        (liquidityList.Complete liquidity.window (liquidity.table.ofPair pair) zones ↔
          liquidityList.AllKept LiquidityZone.zoneId liquidity.window (liquidity.table.ofPair pair) zones)) ∧
      (orderBlockList.mergedZones blocks = (orderBlockList.merged blocks).map Prod.snd ∧
        (orderBlockList.Complete obfvg.window (obfvg.table.ofPair pair) blocks ↔
          orderBlockList.AllKept OrderBlock.places obfvg.window (obfvg.table.ofPair pair) blocks)) ∧
      (fvgList.mergedZones gaps = (fvgList.merged gaps).map Prod.snd ∧
        (fvgList.Complete obfvg.window (obfvg.table.ofPair pair) gaps ↔
          fvgList.AllKept FairValueGap.formedAt obfvg.window (obfvg.table.ofPair pair) gaps)) :=
  ⟨⟨mergedZones_eq, (complete_iff readZones.complete).trans
      (onlyNewestLast_iff readZones.complete readZones.ordered zones_named)⟩,
    ⟨mergedZones_eq, (complete_iff readBlocks.complete).trans
      (onlyNewestLast_iff readBlocks.complete readBlocks.ordered blocks_named)⟩,
    mergedZones_eq, (complete_iff readGaps.complete).trans
      (onlyNewestLast_iff readGaps.complete readGaps.ordered gaps_named)⟩

/-- A quiet bar of an hour at a price. -/
def quietBar (hour : ℕ) (price : ℚ) : Candle where
  openTime := hour * 3600
  «open» := price
  high := price + 1
  low := price - 1
  close := price
  volume := 1
  quoteVolume := price
  trades := 1

/-- The price jumps in the fourth of seven hours. -/
def jump : List Candle :=
  [quietBar 0 9, quietBar 1 9, quietBar 2 9, { quietBar 3 9 with high := 14, close := 13 },
    quietBar 4 13, quietBar 5 13, quietBar 6 13]

/-- Two analyses of six bars, one an hour after the other. -/
def slidJump : List Analysis :=
  [{ pair := ⟨"BTCUSDT", "1h"⟩, window := jump.take 6, futures := {}, now := 0, enough := by decide },
    { pair := ⟨"BTCUSDT", "1h"⟩, window := jump.drop 1, futures := {}, now := 0, enough := by decide }]

/-- Whole prices in eight digits. -/
def wholePrice (price : ℚ) : String := toString price.num

/-- Two analyses that begin with the same bar, an hour after the other. -/
def grownJump : List Analysis :=
  [{ pair := ⟨"BTCUSDT", "1h"⟩, window := jump.take 6, futures := {}, now := 0, enough := by decide },
    { pair := ⟨"BTCUSDT", "1h"⟩, window := jump, futures := {}, now := 0, enough := by decide }]

/-- The rows of a history, in the order of their insertion. -/
theorem inserted_read {π : Type} {table : PayloadTable π} {pair : Pair}
    (ordered : (table.ofPair pair).Pairwise fun row later => row.effectiveFrom ≤ later.effectiveFrom) :
    HistoryRead table pair (table.ofPair pair) :=
  ⟨.refl _, ordered⟩

/-- The gap of the jump keeps its place while the window grows, and is shown once, in its newer state. -/
theorem grown_gap_complete :
    let obfvg := tracedHistory Analysis.blocksCall grownJump
    let rows := obfvg.table.ofPair ⟨"BTCUSDT", "1h"⟩
    fvgList.AllKept FairValueGap.formedAt obfvg.window rows rows ∧ fvgList.Complete obfvg.window rows rows ∧
      (fvgList.held rows).length = 2 ∧ (fvgList.merged rows).length = 1 := by
  intro obfvg rows
  have read : HistoryRead obfvg.table ⟨"BTCUSDT", "1h"⟩ rows := inserted_read (by decide +kernel)
  have faithful : fvgList.Faithful obfvg.window rows := by
    unfold ZoneList.Faithful
    decide +kernel
  have inOrder : InOrder rows := by
    unfold InOrder
    decide +kernel
  have kept := (onlyNewestLast_iff read.complete read.ordered gaps_named).mp
    (onlyNewestLast_of_faithful read.complete faithful inOrder)
  have iffs := merged_history_complete_iff wholePrice grownJump ⟨"BTCUSDT", "1h"⟩
    (inserted_read (by decide +kernel)) read read
  exact ⟨kept, iffs.2.2.2.mpr kept, by decide +kernel, by decide +kernel⟩

/-- The gap of the jump has one place in each window, and so two entries in the merged list. -/
theorem slid_gap_listed_twice : ∃ read, HistoryRead (tracedHistory Analysis.blocksCall slidJump).table
      ⟨"BTCUSDT", "1h"⟩ read ∧
    ¬fvgList.Complete (tracedHistory Analysis.blocksCall slidJump).window
      ((tracedHistory Analysis.blocksCall slidJump).table.ofPair ⟨"BTCUSDT", "1h"⟩) read := by
  refine ⟨_, inserted_read (by decide +kernel), fun complete => ?_⟩
  have stored : ((fvgList.held ((tracedHistory Analysis.blocksCall slidJump).table.ofPair
      ⟨"BTCUSDT", "1h"⟩)).any fun entry =>
        ((fvgList.merged ((tracedHistory Analysis.blocksCall slidJump).table.ofPair
          ⟨"BTCUSDT", "1h"⟩)).filter fun other =>
            fvgList.zoneOf (tracedHistory Analysis.blocksCall slidJump).window other =
              fvgList.zoneOf (tracedHistory Analysis.blocksCall slidJump).window entry).length ≠ 1) := by
    decide +kernel
  obtain ⟨entry, member, several⟩ := List.any_eq_true.mp stored
  obtain ⟨newest, -, only⟩ := complete entry member
  rw [only] at several
  simp at several

end Rasat
