import RasatTrading.Analysis.Blocks
import RasatTrading.Keyed.Greedy

/-! What the status of order blocks and gaps says about the bars behind them, and what deduplication leaves of it. -/

namespace Rasat

/-! What bars do to a zone. -/

/-- A close beyond the far edge of a block. -/
def OrderBlock.BrokenBy (block : OrderBlock) (candle : Candle) : Prop :=
  match block.direction with
  | .bullish => candle.close < block.range.low
  | .bearish => block.range.high < candle.close

/-- A bar that comes back to a block. -/
def OrderBlock.TouchedBy (block : OrderBlock) (candle : Candle) : Prop :=
  match block.direction with
  | .bullish => candle.low ≤ block.range.high
  | .bearish => block.range.low ≤ candle.high

/-- A bar that reaches the near edge of a gap. -/
def FairValueGap.ReachedBy (gap : FairValueGap) (candle : Candle) : Prop :=
  match gap.direction with
  | .bullish => candle.low ≤ gap.range.high
  | .bearish => gap.range.low ≤ candle.high

/-- Some bar after a place. -/
def AfterBar (candles : List Candle) (place : ℕ) (holds : Candle → Prop) : Prop :=
  ∃ j candle, place < j ∧ candles[j]? = some candle ∧ holds candle

variable {candles : List Candle}

theorem afterBar_iff {place : ℕ} {holds : Candle → Prop} :
    AfterBar candles place holds ↔ ∃ candle ∈ candles.drop (place + 1), holds candle := by
  constructor
  · rintro ⟨j, candle, after, at_j, held⟩
    refine ⟨candle, List.mem_iff_getElem?.mpr ⟨j - (place + 1), ?_⟩, held⟩
    -- The scan begins with the bar behind the place.
    have shift : place + 1 + (j - (place + 1)) = j := by omega
    rw [List.getElem?_drop, shift, at_j]
  · rintro ⟨candle, listed, held⟩
    obtain ⟨k, at_k⟩ := List.mem_iff_getElem?.mp listed
    rw [List.getElem?_drop] at at_k
    exact ⟨place + 1 + k, candle, by omega, at_k, held⟩

/-! The scan of an order block. -/

/-- One turn of the scan. -/
def markUnbroken (zone : OrderBlock) (candle : Candle) : OrderBlock :=
  if zone.zoneType = .breaker then zone else zone.mark candle

/-- The status of a block before some bars, which none of them has broken yet. -/
def OrderBlock.Open (zone : OrderBlock) : Prop :=
  zone.zoneType = .orderBlock ∧ zone.mitigated = false ∨ zone.zoneType = .mitigationBlock ∧ zone.mitigated = true

/-- The parts of a block that no bar changes. -/
structure SamePlace (one other : OrderBlock) : Prop where
  direction : one.direction = other.direction
  range : one.range = other.range
  eventIndex : one.eventIndex = other.eventIndex
  candleIndex : one.candleIndex = other.candleIndex

variable {zone : OrderBlock}

/-- What one bar does to a block that is not broken. -/
theorem mark_cases (open_ : zone.Open) (candle : Candle) :
    (zone.BrokenBy candle ∧ zone.mark candle = { zone with zoneType := .breaker, mitigated := true }) ∨
      (¬zone.BrokenBy candle ∧ (zone.mark candle).Open ∧ SamePlace (zone.mark candle) zone ∧
        ((zone.mark candle).mitigated = true ↔ zone.mitigated = true ∨ zone.TouchedBy candle)) := by
  obtain ⟨zoneId, zoneType, direction, range, eventIndex, candleIndex, formedAt, mitigated⟩ := zone
  unfold OrderBlock.mark OrderBlock.BrokenBy OrderBlock.TouchedBy
  -- The two directions mirror each other: the close leaves through one edge, the wick comes in through the other.
  cases direction with
  | bullish =>
    dsimp only
    by_cases broken : candle.close < range.low
    · exact .inl ⟨broken, if_pos broken⟩
    · rw [if_neg broken]
      right
      -- The test for a touch is only made on a block that is not mitigated yet.
      by_cases touched : ¬mitigated = true ∧ candle.low ≤ range.high
      · rw [if_pos touched]
        exact ⟨broken, .inr ⟨rfl, rfl⟩, ⟨rfl, rfl, rfl, rfl⟩, fun _ => .inr touched.2, fun _ => rfl⟩
      · rw [if_neg touched]
        refine ⟨broken, open_, ⟨rfl, rfl, rfl, rfl⟩, .inl, ?_⟩
        rintro (already | low)
        · exact already
        · by_contra fresh
          exact touched ⟨fresh, low⟩
  | bearish =>
    dsimp only
    by_cases broken : candle.close > range.high
    · exact .inl ⟨broken, if_pos broken⟩
    · rw [if_neg broken]
      right
      by_cases touched : ¬mitigated = true ∧ candle.high ≥ range.low
      · rw [if_pos touched]
        exact ⟨broken, .inr ⟨rfl, rfl⟩, ⟨rfl, rfl, rfl, rfl⟩, fun _ => .inr touched.2, fun _ => rfl⟩
      · rw [if_neg touched]
        refine ⟨broken, open_, ⟨rfl, rfl, rfl, rfl⟩, .inl, ?_⟩
        rintro (already | high)
        · exact already
        · by_contra fresh
          exact touched ⟨fresh, high⟩

/-- Bars see the same edges of blocks in the same place. -/
theorem SamePlace.bars {one other : OrderBlock} (same : SamePlace one other) (candle : Candle) :
    (one.BrokenBy candle ↔ other.BrokenBy candle) ∧ (one.TouchedBy candle ↔ other.TouchedBy candle) := by
  unfold OrderBlock.BrokenBy OrderBlock.TouchedBy
  rw [same.direction, same.range]
  exact ⟨Iff.rfl, Iff.rfl⟩

/-- A broken block stays as it is. -/
theorem scan_broken (broken : zone.zoneType = .breaker) (bars : List Candle) :
    bars.foldl markUnbroken zone = zone := by
  induction bars with
  | nil => rfl
  | cons candle rest ih =>
    rw [List.foldl_cons, markUnbroken, if_pos broken]
    exact ih

/-- What a scan says about the scanned bars. -/
structure Scanned (zone after : OrderBlock) (bars : List Candle) : Prop where
  place : SamePlace after zone
  breaker : after.zoneType = .breaker ↔ ∃ candle ∈ bars, zone.BrokenBy candle
  orderBlock : after.zoneType = .orderBlock ↔
    zone.mitigated = false ∧ (∀ candle ∈ bars, ¬zone.BrokenBy candle) ∧ ∀ candle ∈ bars, ¬zone.TouchedBy candle
  mitigated : after.mitigated = true ↔ after.zoneType ≠ .orderBlock

theorem scan_spec (open_ : zone.Open) (bars : List Candle) :
    Scanned zone (bars.foldl markUnbroken zone) bars := by
  -- Each bar marks the block that the bars before it have left.
  induction bars generalizing zone with
  | nil =>
    rcases open_ with ⟨typed, fresh⟩ | ⟨typed, used⟩
    · refine ⟨⟨rfl, rfl, rfl, rfl⟩, ?_, ?_, ?_⟩ <;> simp [typed, fresh]
    · refine ⟨⟨rfl, rfl, rfl, rfl⟩, ?_, ?_, ?_⟩ <;> simp [typed, used]
  | cons candle rest ih =>
    have unbroken : zone.zoneType ≠ .breaker := by
      rcases open_ with ⟨typed, -⟩ | ⟨typed, -⟩ <;> rw [typed] <;> decide
    rw [List.foldl_cons, markUnbroken, if_neg unbroken]
    rcases mark_cases open_ candle with ⟨broken, marked⟩ | ⟨whole, stillOpen, place, used⟩
    · -- The bar breaks the block, and nothing after it counts.
      rw [marked, scan_broken rfl]
      refine ⟨⟨rfl, rfl, rfl, rfl⟩, ?_, ?_, ?_⟩
      · exact ⟨fun _ => ⟨candle, List.mem_cons_self, broken⟩, fun _ => rfl⟩
      · constructor
        · intro typed
          cases typed
        · rintro ⟨-, none_breaks, -⟩
          exact absurd broken (none_breaks candle List.mem_cons_self)
      · exact ⟨fun _ typed => (by cases typed), fun _ => rfl⟩
    · -- The bar leaves it open and in its place, so the bars after it see the same edges.
      have scanned := ih stillOpen
      have edges := place.bars
      refine ⟨⟨scanned.place.direction.trans place.direction, scanned.place.range.trans place.range,
        scanned.place.eventIndex.trans place.eventIndex, scanned.place.candleIndex.trans place.candleIndex⟩, ?_, ?_,
        scanned.mitigated⟩
      · rw [scanned.breaker, List.exists_mem_cons_iff, or_iff_right whole]
        simp only [edges]
      · rw [scanned.orderBlock, List.forall_mem_cons, List.forall_mem_cons]
        simp only [edges]
        have fresh : (zone.mark candle).mitigated = false ↔ zone.mitigated = false ∧ ¬zone.TouchedBy candle := by
          rw [← Bool.not_eq_true, used, not_or, Bool.not_eq_true]
        rw [fresh]
        tauto

/-- The status of a block says what the bars after its event do. -/
structure StatusOf (candles : List Candle) (block : OrderBlock) : Prop where
  breaker : block.zoneType = .breaker ↔ AfterBar candles block.eventIndex block.BrokenBy
  mitigationBlock : block.zoneType = .mitigationBlock ↔
    ¬AfterBar candles block.eventIndex block.BrokenBy ∧ AfterBar candles block.eventIndex block.TouchedBy
  orderBlock : block.zoneType = .orderBlock ↔
    ¬AfterBar candles block.eventIndex block.BrokenBy ∧ ¬AfterBar candles block.eventIndex block.TouchedBy
  mitigated : block.mitigated = true ↔ block.zoneType ≠ .orderBlock

/-- A block that is marked has its status. -/
theorem markOrderBlock_status (typed : zone.zoneType = .orderBlock) (fresh : zone.mitigated = false)
    (candles : List Candle) :
    StatusOf candles (markOrderBlock zone candles) ∧ SamePlace (markOrderBlock zone candles) zone := by
  have scanned : Scanned zone (markOrderBlock zone candles) (candles.drop (zone.eventIndex + 1)) :=
    scan_spec (.inl ⟨typed, fresh⟩) _
  obtain ⟨place, breaker, orderBlock, mitigated⟩ := scanned
  -- Marking changes neither the range nor the direction, so the same bars break or touch the block.
  have edges := place.bars
  have breaks : AfterBar candles (markOrderBlock zone candles).eventIndex (markOrderBlock zone candles).BrokenBy ↔
      ∃ candle ∈ candles.drop (zone.eventIndex + 1), zone.BrokenBy candle := by
    rw [afterBar_iff, place.eventIndex]
    simp only [edges]
  have touches : AfterBar candles (markOrderBlock zone candles).eventIndex (markOrderBlock zone candles).TouchedBy ↔
      ∃ candle ∈ candles.drop (zone.eventIndex + 1), zone.TouchedBy candle := by
    rw [afterBar_iff, place.eventIndex]
    simp only [edges]
  have plain : (markOrderBlock zone candles).zoneType = .orderBlock ↔
      ¬(∃ candle ∈ candles.drop (zone.eventIndex + 1), zone.BrokenBy candle) ∧
        ¬∃ candle ∈ candles.drop (zone.eventIndex + 1), zone.TouchedBy candle := by
    rw [orderBlock]
    push Not
    exact ⟨And.right, fun held => ⟨fresh, held⟩⟩
  refine ⟨⟨by rw [breaks, breaker], ?_, by rw [breaks, touches, plain], mitigated⟩, place⟩
  rw [breaks, touches, ← breaker]
  -- A block that is neither broken nor untouched is a mitigation block.
  cases status : (markOrderBlock zone candles).zoneType with
  | orderBlock =>
    have untouched := (plain.mp status).2
    exact ⟨fun impossible => (by cases impossible), fun held => absurd held.2 untouched⟩
  | mitigationBlock =>
    have touched : ∃ candle ∈ candles.drop (zone.eventIndex + 1), zone.TouchedBy candle := by
      by_contra untouched
      have unbroken : ¬∃ candle ∈ candles.drop (zone.eventIndex + 1), zone.BrokenBy candle := by
        rw [← breaker, status]
        decide
      rw [plain.mpr ⟨unbroken, untouched⟩] at status
      cases status
    exact ⟨fun _ => ⟨by decide, touched⟩, fun _ => rfl⟩
  | breaker => exact ⟨fun impossible => (by cases impossible), fun held => absurd rfl held.1⟩

/-- The last opposite candle is one of the candles. -/
theorem lastOppositeCandle_at {wantRed : Bool} {upto index : ℕ} {candle : Candle}
    (last : lastOppositeCandle candles wantRed upto = some (index, candle)) : candles[index]? = some candle := by
  -- The search goes back from the bar of the event.
  induction upto with
  | zero => cases last
  | succ i ih =>
    rw [lastOppositeCandle] at last
    cases at_i : candles[i]? with
    | none =>
      rw [at_i] at last
      exact ih last
    | some here =>
      rw [at_i] at last
      dsimp only at last
      by_cases opposite : decide (here.close < here.open) = wantRed
      · rw [if_pos opposite] at last
        cases last
        exact at_i
      · rw [if_neg opposite] at last
        exact ih last

/-- The block of an event is marked by the bars after it. -/
theorem orderBlockOf_status {event : StructureEvent} {block : OrderBlock}
    (found : orderBlockOf candles event = some block) :
    StatusOf candles block ∧ block.eventIndex = event.index ∧
      ∃ candle, candles[block.candleIndex]? = some candle ∧ block.range = ⟨candle.low, candle.high⟩ := by
  unfold orderBlockOf at found
  -- The block has the range of the last candle against the direction of the event.
  obtain ⟨⟨index, candle⟩, last, rfl⟩ := Option.map_eq_some_iff.mp found
  have place := lastOppositeCandle_at last
  dsimp only
  generalize unmarked : OrderBlock.mk _ .orderBlock _ ⟨candle.low, candle.high⟩ event.index index index false = zone
  have typed : zone.zoneType = .orderBlock ∧ zone.mitigated = false ∧ zone.eventIndex = event.index ∧
      zone.candleIndex = index ∧ zone.range = ⟨candle.low, candle.high⟩ := by
    rw [← unmarked]
    exact ⟨rfl, rfl, rfl, rfl, rfl⟩
  obtain ⟨plain, fresh, eventIndex, candleIndex, range⟩ := typed
  obtain ⟨status, same⟩ := markOrderBlock_status plain fresh candles
  refine ⟨status, same.eventIndex.trans eventIndex, candle, ?_, same.range.trans range⟩
  rw [same.candleIndex, candleIndex]
  exact place

/-- The blocks of all events, before deduplication. -/
def allOrderBlocks (candles : List Candle) (marketStructure : MarketStructure) : List OrderBlock :=
  marketStructure.events.filterMap (orderBlockOf candles)

theorem dedupOrderBlocks_keep (blocks : List OrderBlock) (tolerancePct : ℚ) :
    dedupOrderBlocks blocks tolerancePct = Greedy.keep (fun block other => block.near other tolerancePct) blocks := rfl

/-- The status of every block, and of every gap, says exactly what the bars after it do. -/
theorem zone_status_exact (candles : List Candle) (marketStructure : MarketStructure) (algoVersion : String)
    (minGapPct dedupTolerancePct : ℚ) :
    (∀ block ∈ (computeOrderBlocks candles marketStructure algoVersion minGapPct dedupTolerancePct).orderBlocks,
      StatusOf candles block) ∧
      ∀ gap ∈ (computeOrderBlocks candles marketStructure algoVersion minGapPct dedupTolerancePct).fvgs,
        (∃ i first third, candles[i]? = some first ∧ candles[i + 2]? = some third ∧
          gapOf first third = some (gap.range, gap.direction) ∧ gap.formedAt = i + 2) ∧
          (gap.mitigated = true ↔ AfterBar candles gap.formedAt gap.ReachedBy) := by
  constructor
  · intro block listed
    -- Deduplication leaves some of the blocks, each as it was marked.
    have given := (Greedy.keep_sublist _).subset listed
    obtain ⟨event, -, found⟩ := List.mem_filterMap.mp given
    exact (orderBlockOf_status found).1
  · intro gap listed
    obtain ⟨i, -, found⟩ := List.mem_filterMap.mp listed
    unfold fvgAt at found
    obtain ⟨first, at_first, found⟩ := Option.bind_eq_some_iff.mp found
    obtain ⟨third, at_third, found⟩ := Option.bind_eq_some_iff.mp found
    obtain ⟨⟨band, direction⟩, gapped, found⟩ := Option.bind_eq_some_iff.mp found
    dsimp only at found
    split at found
    · cases found
    · cases found
      refine ⟨⟨i, first, third, at_first, at_third, gapped, rfl⟩, ?_⟩
      rw [afterBar_iff]
      unfold markFvg FairValueGap.ReachedBy
      -- The flag is `any` over the bars behind the third candle.
      cases direction <;> simp

/-! Deduplication. -/

/-- How far from a block another one is still the same. -/
def OrderBlock.tolerance (block : OrderBlock) (tolerancePct : ℚ) : ℚ :=
  (block.range.low + block.range.high) / 2 * tolerancePct / 100

/-- Two ranges that meet, or miss each other by the tolerance at most. -/
def OrderBlock.Meets (block other : OrderBlock) (tolerancePct : ℚ) : Prop :=
  other.direction = block.direction ∧ other.range.low ≤ block.range.high + block.tolerance tolerancePct ∧
    block.range.low ≤ other.range.high + block.tolerance tolerancePct

/-- Two ranges with the same edges, up to the tolerance. -/
def OrderBlock.EqualsWithin (block other : OrderBlock) (tolerancePct : ℚ) : Prop :=
  other.direction = block.direction ∧ |block.range.low - other.range.low| ≤ block.tolerance tolerancePct ∧
    |block.range.high - other.range.high| ≤ block.tolerance tolerancePct

instance (block other : OrderBlock) (tolerancePct : ℚ) : Decidable (block.EqualsWithin other tolerancePct) :=
  inferInstanceAs (Decidable (_ ∧ _ ∧ _))

variable {block other : OrderBlock}

theorem near_iff {tolerancePct : ℚ} :
    block.near other tolerancePct = true ↔ block.Meets other tolerancePct := by
  unfold OrderBlock.near OrderBlock.Meets OrderBlock.tolerance
  rw [decide_eq_true_iff, not_or, not_lt, not_lt]

/-- Ranges with the same edges meet. -/
theorem EqualsWithin.meets {tolerancePct : ℚ}
    (equal : block.EqualsWithin other tolerancePct) (block_range : block.range.low ≤ block.range.high)
    (other_range : other.range.low ≤ other.range.high) : block.Meets other tolerancePct := by
  obtain ⟨direction, lows, highs⟩ := equal
  have low := abs_le.mp lows
  have high := abs_le.mp highs
  -- Each low is at most its own high, which lies within the tolerance of the other high.
  exact ⟨direction, by linarith, by linarith⟩

/-- A block of an earlier event in the same place has seen all that a later one has. -/
theorem StatusOf.covers (one : StatusOf candles block)
    (two : StatusOf candles other) (direction : other.direction = block.direction) (range : other.range = block.range)
    (earlier : other.eventIndex ≤ block.eventIndex) :
    (block.zoneType = .breaker → other.zoneType = .breaker) ∧ (block.mitigated = true → other.mitigated = true) := by
  -- The two blocks have the same edges, and the other one has seen more bars.
  have edges (candle : Candle) :
      (block.BrokenBy candle → other.BrokenBy candle) ∧ (block.TouchedBy candle → other.TouchedBy candle) := by
    unfold OrderBlock.BrokenBy OrderBlock.TouchedBy
    rw [direction, range]
    exact ⟨id, id⟩
  have breaks : AfterBar candles block.eventIndex block.BrokenBy →
      AfterBar candles other.eventIndex other.BrokenBy := by
    rintro ⟨j, candle, after, at_j, broken⟩
    exact ⟨j, candle, by omega, at_j, (edges candle).1 broken⟩
  have touches : AfterBar candles block.eventIndex block.TouchedBy →
      AfterBar candles other.eventIndex other.TouchedBy := by
    rintro ⟨j, candle, after, at_j, touched⟩
    exact ⟨j, candle, by omega, at_j, (edges candle).2 touched⟩
  constructor
  · intro broken
    exact two.breaker.mpr (breaks (one.breaker.mp broken))
  · rw [one.mitigated, two.mitigated, Ne, Ne, one.orderBlock, two.orderBlock]
    tauto

/-- What deduplication leaves: a block that is removed meets a kept one of its direction from before it, which has seen
at least as much when it lies in the same place; and no two kept blocks of a direction meet. -/
theorem dedup_meets (candles : List Candle) (marketStructure : MarketStructure) (algoVersion : String)
    (minGapPct dedupTolerancePct : ℚ) :
    let kept := (computeOrderBlocks candles marketStructure algoVersion minGapPct dedupTolerancePct).orderBlocks
    kept.Sublist (allOrderBlocks candles marketStructure) ∧
      (∀ front block back, allOrderBlocks candles marketStructure = front ++ block :: back → block ∉ kept →
        ∃ other ∈ kept, other ∈ front ∧ block.Meets other dedupTolerancePct ∧
          (other.range = block.range → other.eventIndex ≤ block.eventIndex →
            (block.zoneType = .breaker → other.zoneType = .breaker) ∧
              (block.mitigated = true → other.mitigated = true))) ∧
      kept.Pairwise (fun one other => ¬other.Meets one dedupTolerancePct) ∧
      ((∀ candle ∈ candles, candle.low ≤ candle.high) →
        kept.Pairwise fun one other => ¬other.EqualsWithin one dedupTolerancePct) := by
  intro kept
  have same : kept = Greedy.keep (fun block other => block.near other dedupTolerancePct)
      (allOrderBlocks candles marketStructure) := dedupOrderBlocks_keep _ _
  have sublist : kept.Sublist (allOrderBlocks candles marketStructure) := Greedy.keep_sublist _
  have status (block : OrderBlock) (listed : block ∈ allOrderBlocks candles marketStructure) :
      StatusOf candles block ∧ ∃ candle ∈ candles, block.range = ⟨candle.low, candle.high⟩ := by
    obtain ⟨event, -, found⟩ := List.mem_filterMap.mp listed
    obtain ⟨known, -, candle, at_index, range⟩ := orderBlockOf_status found
    exact ⟨known, candle, List.mem_of_getElem? at_index, range⟩
  -- A kept block is near to none that was kept before it.
  have apart : kept.Pairwise fun one other => ¬other.Meets one dedupTolerancePct := by
    apply (Greedy.keep_pairwise (allOrderBlocks candles marketStructure)).imp
    intro one other far
    rw [← near_iff, far]
    decide
  refine ⟨sublist, ?_, apart, ?_⟩
  · intro front block back shape removed
    rw [same, shape] at removed
    -- The block was removed since one that is kept of those before it is near.
    rcases Greedy.keep_covers front block back with listed | ⟨other, before, near⟩
    · exact absurd listed removed
    · have in_kept : other ∈ kept := by
        rw [same, shape]
        exact (Greedy.keep_front front (block :: back)).subset before
      have in_front : other ∈ front := (Greedy.keep_sublist front).subset before
      have meets := near_iff.mp near
      refine ⟨other, in_kept, in_front, meets, ?_⟩
      intro range earlier
      exact (status block (by rw [shape]; simp)).1.covers (status other (sublist.subset in_kept)).1
        meets.1 range earlier
  · intro sane
    have ordered (block : OrderBlock) (listed : block ∈ kept) : block.range.low ≤ block.range.high := by
      obtain ⟨-, candle, given, range⟩ := status block (sublist.subset listed)
      rw [range]
      exact sane candle given
    apply apart.imp_of_mem
    intro one other one_kept other_kept far equal
    exact far (EqualsWithin.meets equal (ordered other other_kept) (ordered one one_kept))

/-- A bar with its prices. -/
def pricedBar (place : ℤ) (opened high low close : ℚ) : Candle := ⟨3600 * place, opened, high, low, close, 1, 1, 1⟩

/-- Two breaks upwards, each behind a falling candle of its own. -/
def twoBreaks : List Candle :=
  [pricedBar 0 110 122 107 118, pricedBar 1 114 117 112 117, pricedBar 2 111 112 102 103, pricedBar 3 105 106 100 105,
    pricedBar 4 103 117 101 116, pricedBar 5 107 114 105 110, pricedBar 6 101 116 96 114, pricedBar 7 100 122 95 118,
    pricedBar 8 110 111 101 102, pricedBar 9 105 122 105 117, pricedBar 10 110 118 106 114,
    pricedBar 11 118 119 115 119]

/-- The second block has not been touched, and is hidden by the first one, which has been and lies elsewhere. -/
theorem twoBreaks_hidden :
    (allOrderBlocks twoBreaks (detectStructure twoBreaks)).map (fun block => (block.range, block.mitigated)) =
        [(⟨102, 112⟩, true), (⟨101, 111⟩, false)] ∧
      (computeOrderBlocks twoBreaks (detectStructure twoBreaks)).orderBlocks.map
        (fun block => (block.range, block.mitigated)) = [(⟨102, 112⟩, true)] ∧
      ∃ block ∈ allOrderBlocks twoBreaks (detectStructure twoBreaks), block.mitigated = false ∧
        ∀ other ∈ (computeOrderBlocks twoBreaks (detectStructure twoBreaks)).orderBlocks,
          ¬block.EqualsWithin other obDedupTolerancePct ∧ other.mitigated ≠ block.mitigated := by
  refine ⟨?_, ?_, ?_⟩ <;> decide +kernel

end Rasat
