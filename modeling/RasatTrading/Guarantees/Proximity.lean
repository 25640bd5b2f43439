import RasatTrading.Analysis.Filters

/-! When coming closer to an order block keeps the filter for it true. -/

namespace Rasat

open Ascending Rounding

/-- The lower and the upper end of a block. -/
def OrderBlock.floor (block : OrderBlock) : ℚ := min block.range.low block.range.high

def OrderBlock.ceiling (block : OrderBlock) : ℚ := max block.range.low block.range.high

/-- The prices at both ends of a block. -/
def OrderBlock.edges (block : OrderBlock) : List ℚ := [block.range.low, block.range.high]

/-- Whether the filter matches through this block. -/
def OrderBlock.matchesAt (block : OrderBlock) (limit : Extended) (close : ℚ) : Prop :=
  block.mitigated = false ∧ (block.distancePct close).le limit = true

/-- Whether a price lies in a block, or between another price and the block. -/
def OrderBlock.closer (block : OrderBlock) (far near : ℚ) : Prop :=
  block.floor ≤ near ∧ near ≤ block.ceiling ∨
    -- Both prices lie on the same side of the block.
    far ≤ near ∧ near ≤ block.floor ∨ block.ceiling ≤ near ∧ near ≤ far

/-- The filter over a list of blocks at a close. -/
def nearOrderBlock (ctx : Context) (limit : Extended) (close : ℚ) : Except Exc Bool :=
  evalNearOrderBlock limit { ctx with close := some close }

/-- The blocks that are not mitigated. -/
def Context.activeBlocks (ctx : Context) : List OrderBlock := ctx.orderBlocks.filter fun block => ¬block.mitigated

/-- The prices at the ends of the blocks that are not mitigated. -/
def Context.blockEdges (ctx : Context) : List ℚ := ctx.activeBlocks.flatMap OrderBlock.edges

variable {block : OrderBlock}

theorem mem_activeBlocks {ctx : Context} :
    block ∈ ctx.activeBlocks ↔ block ∈ ctx.orderBlocks ∧ block.mitigated = false := by
  simp [Context.activeBlocks]

/-- At a positive close the filter is true exactly when some block matches. -/
theorem nearOrderBlock_iff {ctx : Context} {limit : Extended} {close : ℚ} (positive : 0 < close) :
    nearOrderBlock ctx limit close = .ok true ↔ ∃ block ∈ ctx.orderBlocks, block.matchesAt limit close := by
  have evaluated : nearOrderBlock ctx limit close = .ok (ctx.activeBlocks.any fun block =>
      (block.distancePct close).le limit) := by
    unfold nearOrderBlock evalNearOrderBlock Context.activeBlocks
    dsimp only
    split
    · -- Without an active block the filter does not look at the close.
      rename_i lacking
      rw [lacking, List.any_nil]
    · rw [if_neg positive.ne']
  rw [evaluated, Except.ok.injEq, List.any_eq_true]
  simp only [mem_activeBlocks, OrderBlock.matchesAt, and_assoc]

/-! Distances in percent. -/

/-- A gap in percent of a price. -/
def percentOf (gap : Extended) (close : ℚ) : Extended := (gap.div (.finite close)).mul (.finite 100)

/-- How far a price is from an edge, in percent of the price. -/
def awayPct (edge close : ℚ) : Extended := percentOf (.round |close - edge|) close

section Percent

variable {gap more : Extended} {close later edge near far : ℚ} {limit : Extended}

/-- A larger gap is more percent of a price. -/
theorem percentOf_mono (known : gap.Amount) (order : gap.le more = true) (positive : 0 < close) :
    (percentOf gap close).le (percentOf more close) = true :=
  Extended.mul_mono (Extended.amount_div known positive) (Extended.div_mono known order positive) (by norm_num)

/-- A gap is fewer percent of a higher price. -/
theorem percentOf_anti (known : gap.Amount) (positive : 0 < close) (order : close ≤ later) :
    (percentOf gap later).le (percentOf gap close) = true := by
  have positive' := positive.trans_le order
  refine Extended.mul_mono (Extended.amount_div known positive') ?_ (by norm_num)
  cases gap with
  | nan => exact known.elim
  | infinite negative =>
    obtain rfl : negative = false := known
    simp [Extended.div, Extended.le, positive.le]
  | finite value =>
    exact Extended.round_mono (div_nonneg known positive'.le) (div_le_div_of_nonneg_left known positive order)

/-- A gap that is exact counts by its ratio to the price. -/
theorem percentOf_ratio {less more : ℚ} (nonneg : 0 ≤ less) (positive : 0 < close)
    (order : less / close ≤ more / later) :
    (percentOf (.finite less) close).le (percentOf (.finite more) later) = true := by
  have ratio : 0 ≤ less / close := div_nonneg nonneg positive.le
  exact Extended.mul_mono (Extended.amount_round ratio) (Extended.round_mono ratio order) (by norm_num)

/-- Going towards an edge from below comes nearer in percent. -/
theorem awayPct_below (positive : 0 < far) (onward : far ≤ near) (short : near ≤ edge) :
    (awayPct edge near).le (awayPct edge far) = true := by
  have shorter : |near - edge| ≤ |far - edge| := by
    rw [abs_of_nonpos (by linarith), abs_of_nonpos (by linarith)]
    linarith
  have smaller := percentOf_mono (Extended.amount_round (abs_nonneg _))
    (Extended.round_mono (abs_nonneg _) shorter) (positive.trans_le onward)
  exact Extended.le_trans smaller (percentOf_anti (Extended.amount_round (abs_nonneg _)) positive onward)

/-- Up to twice an edge the distance from it is a float, so that nothing is lost. -/
theorem awayPct_exact (isDouble : IsDouble close) (edgeFloat : IsDouble edge) (positive : 0 < edge)
    (above : edge ≤ close) (within : close ≤ 2 * edge) :
    awayPct edge close = percentOf (.finite (close - edge)) close := by
  obtain ⟨fits, below⟩ := (isDouble_iff (positive.le.trans above)).mp isDouble
  obtain ⟨edgeFits, -⟩ := (isDouble_iff positive.le).mp edgeFloat
  have nonneg : 0 ≤ close - edge := sub_nonneg.mpr above
  have exact_ : IsDouble (close - edge) :=
    (isDouble_iff nonneg).mpr ⟨Magnitude.sub_fits fits edgeFits above within, by linarith⟩
  rw [awayPct, abs_of_nonneg nonneg, exact_]

/-- Going towards an edge from above comes nearer in percent, up to twice the edge. -/
theorem awayPct_above (farFloat : IsDouble far) (nearFloat : IsDouble near) (edgeFloat : IsDouble edge)
    (positive : 0 < edge) (short : edge ≤ near) (onward : near ≤ far) (within : far ≤ 2 * edge) :
    (awayPct edge near).le (awayPct edge far) = true := by
  have nearPositive := positive.trans_le short
  have farPositive := nearPositive.trans_le onward
  rw [awayPct_exact nearFloat edgeFloat positive short (onward.trans within),
    awayPct_exact farFloat edgeFloat positive (short.trans onward) within]
  refine percentOf_ratio (sub_nonneg.mpr short) nearPositive ?_
  rw [div_le_div_iff₀ nearPositive farPositive]
  -- The distance shrinks faster than the price does.
  have shrunk : edge * near ≤ edge * far := mul_le_mul_of_nonneg_left onward positive.le
  linarith

/-- Beyond twice an edge a price is fifty percent away from it. -/
theorem fifty_le_awayPct (isDouble : IsDouble close) (edgeFloat : IsDouble edge) (positive : 0 < edge)
    (beyond : 2 * edge ≤ close) : (Extended.finite 50).le (awayPct edge close) = true := by
  have closePositive : 0 < close := by linarith
  obtain ⟨fits, below⟩ := (isDouble_iff closePositive.le).mp isDouble
  have half : (Extended.finite (close / 2)).le (.round |close - edge|) = true := by
    rw [abs_of_nonneg (by linarith)]
    rcases Magnitude.half_fits fits with halved | ⟨count, small, counted⟩
    · -- Half of the price is a float, and no more than the distance.
      have exact_ : IsDouble (close / 2) := (isDouble_iff (by linarith)).mpr ⟨halved, by linarith⟩
      rw [← exact_]
      exact Extended.round_mono (by linarith) (by linarith)
    · -- With the least exponent the distance itself is a float.
      obtain ⟨edgeCount, edgeCounted⟩ := Magnitude.fits_count ((isDouble_iff positive.le).mp edgeFloat).1
      have unit : (0 : ℚ) < 2 ^ (-1074 : ℤ) := zpow_pos (by norm_num) _
      have apart : close - edge = ((count - edgeCount : ℤ) : ℚ) * 2 ^ (-1074 : ℤ) := by
        rw [counted, edgeCounted, Int.cast_sub, sub_mul]
      have more : (0 : ℚ) < ((count - edgeCount : ℤ) : ℚ) := pos_of_mul_pos_left (by linarith) unit.le
      have some_ : (0 : ℚ) < edgeCount := pos_of_mul_pos_left (edgeCounted ▸ positive) unit.le
      have more' : 0 < count - edgeCount := by exact_mod_cast more
      have some' : 0 < edgeCount := by exact_mod_cast some_
      have bits : |count - edgeCount| < 2 ^ 53 := by
        rw [abs_lt] at small ⊢
        constructor <;> linarith
      have exact_ : IsDouble (close - edge) :=
        (isDouble_iff (by linarith)).mpr ⟨⟨_, _, bits, le_refl _, apart⟩, by linarith⟩
      rw [exact_]
      exact decide_eq_true (by linarith)
  have nonneg : (0 : ℚ) ≤ close / 2 := by linarith
  have atLeast : (percentOf (.finite (close / 2)) close).le (awayPct edge close) = true :=
    percentOf_mono nonneg half closePositive
  have fifty : percentOf (.finite (close / 2)) close = .finite 50 := by
    have ratio : close / 2 / close = 1 / 2 := by field_simp
    have halfFloat : IsDouble (1 / 2) := by decide +kernel
    have product : (Extended.finite (1 / 2)).mul (.finite 100) = .finite 50 := by decide +kernel
    rw [percentOf, Extended.div, ratio, halfFloat, product]
  rwa [fifty] at atLeast

/-- Above an edge no price is more than a hundred percent away from it. -/
theorem awayPct_le_hundred (isDouble : IsDouble close) (positive : 0 < edge) (above : edge ≤ close) :
    (awayPct edge close).le (.finite 100) = true := by
  have closePositive : 0 < close := positive.trans_le above
  have short : (Extended.round |close - edge|).le (.finite close) = true := by
    rw [← isDouble]
    refine Extended.round_mono (abs_nonneg _) ?_
    rw [abs_of_nonneg (by linarith)]
    linarith
  have hundred : percentOf (.finite close) close = .finite 100 := by
    have one : IsDouble 1 := by decide +kernel
    have product : (Extended.finite 1).mul (.finite 100) = .finite 100 := by decide +kernel
    rw [percentOf, Extended.div, div_self closePositive.ne', one, product]
  rw [← hundred]
  exact percentOf_mono (Extended.amount_round (abs_nonneg _)) short closePositive

/-- Beyond twice an edge rounding lets no price be within a limit while one nearer to the edge is not. -/
def EvenCap (limit : Extended) (edge : ℚ) : Prop :=
  ∀ far near, IsDouble far → IsDouble near → 2 * edge ≤ near → near ≤ far → (awayPct edge far).le limit = true →
    (awayPct edge near).le limit = true

/-- A limit that is between the distances of prices far above an edge, where rounding tells. -/
def Uneven (limit : Extended) : Prop := (Extended.finite 50).le limit = true ∧ limit.lt (.finite 100) = true

/-- Any other limit is above all of these distances, or below them. -/
theorem evenCap_of_not_uneven (nonneg : (Extended.finite 0).le limit = true) (level : ¬Uneven limit)
    (edgeFloat : IsDouble edge) (positive : 0 < edge) : EvenCap limit edge := by
  intro far near farFloat nearFloat beyond onward within
  -- What is within the limit that far away tells that the limit is at least fifty, so that it is a hundred.
  have fifty := Extended.le_trans (fifty_le_awayPct farFloat edgeFloat positive (beyond.trans onward)) within
  have hundred : (Extended.finite 100).le limit = true := by
    cases limit with
    | nan => cases nonneg
    | infinite negative => simpa [Extended.le] using nonneg
    | finite value =>
      by_contra less
      refine level ⟨fifty, ?_⟩
      simpa [Extended.le, Extended.lt] using less
  exact Extended.le_trans (awayPct_le_hundred nearFloat positive (by linarith)) hundred

/-- Going towards an edge from above stays within a limit. -/
theorem EvenCap.towards (even : EvenCap limit edge) (farFloat : IsDouble far) (nearFloat : IsDouble near)
    (edgeFloat : IsDouble edge) (positive : 0 < edge) (short : edge ≤ near) (onward : near ≤ far)
    (within : (awayPct edge far).le limit = true) : (awayPct edge near).le limit = true := by
  rcases le_total far (2 * edge) with close | distant
  · exact Extended.le_trans (awayPct_above farFloat nearFloat edgeFloat positive short onward close) within
  rcases le_total (2 * edge) near with beyond | inside
  · exact even far near farFloat nearFloat beyond onward within
  · -- Twice the edge is a float, where the exact distances begin.
    obtain ⟨⟨significand, exponent, small, least, same⟩, -⟩ := (isDouble_iff positive.le).mp edgeFloat
    have below := ((isDouble_iff (by linarith)).mp farFloat).2
    have doubled : IsDouble (2 * edge) := by
      refine (isDouble_iff (by linarith)).mpr ⟨⟨significand, exponent + 1, small, by omega, ?_⟩, by linarith⟩
      rw [same, zpow_add₀ (by norm_num)]
      ring
    have reached := even far (2 * edge) farFloat doubled (le_refl _) distant within
    exact Extended.le_trans (awayPct_above doubled nearFloat edgeFloat positive short inside (le_refl _)) reached

/-- A block is within a limit of a positive price exactly when one of its edges is. -/
theorem distancePct_le_iff (positive : 0 < close) :
    (block.distancePct close).le limit = true ↔ ∃ edge ∈ block.edges, (awayPct edge close).le limit = true := by
  have lowAmount := Extended.amount_round (abs_nonneg (close - block.range.low))
  have highAmount := Extended.amount_round (abs_nonneg (close - block.range.high))
  unfold OrderBlock.distancePct OrderBlock.edges
  dsimp only
  rw [Extended.abs_sub, Extended.abs_sub, Extended.least]
  simp only [List.mem_cons, List.not_mem_nil, or_false, exists_eq_or_imp, exists_eq_left]
  split
  · rename_i less
    have smaller := percentOf_mono highAmount (Extended.le_of_lt less) positive
    exact ⟨.inr, fun either => either.elim (Extended.le_trans smaller) id⟩
  · rename_i less
    have smaller := percentOf_mono lowAmount (Extended.le_of_not_lt lowAmount highAmount less) positive
    exact ⟨.inl, fun either => either.elim id (Extended.le_trans smaller)⟩

end Percent

/-- The filter keeps matching as the close comes closer to a block through which it matches, and it matches at every
close inside a block that is not mitigated. -/
def ProximityMonotone (ctx : Context) (limit : Extended) : Prop :=
  (∀ block ∈ ctx.orderBlocks, ∀ far near, IsDouble far → IsDouble near → 0 < far → 0 < near → block.closer far near →
    block.matchesAt limit far → nearOrderBlock ctx limit near = .ok true) ∧
  ∀ block ∈ ctx.activeBlocks, ∀ close, IsDouble close → 0 < close → block.floor ≤ close → close ≤ block.ceiling →
    nearOrderBlock ctx limit close = .ok true

/-- The floats next to the middle of a gap are within a limit of its ends. -/
structure NarrowGap (limit : Extended) (low high : ℚ) : Prop where
  lower : ∀ close, GreatestFloat ((low + high) / 2) close → (awayPct low close).le limit = true
  upper : ∀ close, LeastFloat ((low + high) / 2) close → (awayPct high close).le limit = true

/-- Any two neighbouring edges inside a block that is not mitigated lie close together. -/
def NarrowBlocks (ctx : Context) (limit : Extended) : Prop :=
  ∀ block ∈ ctx.activeBlocks, ∀ low high, Adjacent ctx.blockEdges low high → block.floor ≤ low →
    high ≤ block.ceiling → NarrowGap limit low high

section

variable {ctx : Context} {limit : Extended}

/-- The filter is true exactly when the close is within the limit of an edge of an active block. -/
theorem nearOrderBlock_edges {close : ℚ} (positive : 0 < close) :
    nearOrderBlock ctx limit close = .ok true ↔ ∃ edge ∈ ctx.blockEdges, (awayPct edge close).le limit = true := by
  rw [nearOrderBlock_iff positive]
  simp only [OrderBlock.matchesAt, distancePct_le_iff positive, Context.blockEdges, List.mem_flatMap, mem_activeBlocks]
  constructor
  · rintro ⟨block, listed, active, edge, member, near⟩
    exact ⟨edge, ⟨block, ⟨listed, active⟩, member⟩, near⟩
  · rintro ⟨edge, ⟨block, ⟨listed, active⟩, member⟩, near⟩
    exact ⟨block, listed, active, edge, member, near⟩

/-- The lower end of a block is one of its edges. -/
theorem floor_mem (block : OrderBlock) : block.floor ∈ block.edges := by
  rcases min_choice block.range.low block.range.high with low | high <;>
    simp [OrderBlock.floor, OrderBlock.edges, *]

/-- So is the upper one. -/
theorem ceiling_mem (block : OrderBlock) : block.ceiling ∈ block.edges := by
  rcases max_choice block.range.low block.range.high with low | high <;>
    simp [OrderBlock.ceiling, OrderBlock.edges, *]

/-- The edges of a block lie between its ends. -/
theorem edge_bounds {edge : ℚ} (member : edge ∈ block.edges) : block.floor ≤ edge ∧ edge ≤ block.ceiling := by
  simp only [OrderBlock.edges, List.mem_cons, List.not_mem_nil, or_false] at member
  rcases member with rfl | rfl <;> simp [OrderBlock.floor, OrderBlock.ceiling]

/-- Coming closer to a block from outside keeps it matching. -/
theorem OrderBlock.matchesAt.approach {far near : ℚ} (farFloat : IsDouble far)
    (nearFloat : IsDouble near) (floats : ∀ edge ∈ block.edges, IsDouble edge) (priced : ∀ edge ∈ block.edges, 0 < edge)
    (even : ∀ edge ∈ block.edges, EvenCap limit edge) (farPositive : 0 < far) (nearPositive : 0 < near)
    (outside : far ≤ near ∧ near ≤ block.floor ∨ block.ceiling ≤ near ∧ near ≤ far)
    (found : block.matchesAt limit far) : block.matchesAt limit near := by
  -- The edge that was near before is still near.
  obtain ⟨active, within⟩ := found
  obtain ⟨edge, member, close⟩ := (distancePct_le_iff farPositive).mp within
  obtain ⟨low, high⟩ := edge_bounds member
  refine ⟨active, (distancePct_le_iff nearPositive).mpr ⟨edge, member, ?_⟩⟩
  rcases outside with ⟨onward, short⟩ | ⟨short, onward⟩
  · exact Extended.le_trans (awayPct_below farPositive onward (short.trans low)) close
  · exact (even edge member).towards farFloat nearFloat (floats edge member) (priced edge member)
      (high.trans short) onward close

/-- In the lower half of a gap no edge is nearer than the lower end, in the upper half none nearer than the upper
one. -/
theorem nearest_edge {points : List ℚ} {low high close edge : ℚ} (gap : Adjacent points low high)
    (lowPositive : 0 < low) (above : low ≤ close) (below : close ≤ high) (listed : edge ∈ points) :
    (close ≤ (low + high) / 2 → (awayPct low close).le (awayPct edge close) = true) ∧
      ((low + high) / 2 ≤ close → (awayPct high close).le (awayPct edge close) = true) := by
  have positive : 0 < close := lowPositive.trans_le above
  have nearer {end_ : ℚ} (shorter : |close - end_| ≤ |close - edge|) :
      (awayPct end_ close).le (awayPct edge close) = true :=
    percentOf_mono (Extended.amount_round (abs_nonneg _)) (Extended.round_mono (abs_nonneg _) shorter) positive
  constructor
  · intro lower
    refine nearer ?_
    rw [abs_of_nonneg (by linarith)]
    rcases gap.empty edge listed with under | capped
    · rw [abs_of_nonneg (by linarith)]
      linarith
    · rw [abs_of_nonpos (by linarith)]
      linarith
  · intro upper
    refine nearer ?_
    rw [abs_of_nonpos (by linarith)]
    rcases gap.empty edge listed with under | capped
    · rw [abs_of_nonneg (by linarith)]
      linarith
    · rw [abs_of_nonpos (by linarith)]
      linarith

/-- In a narrow gap every close is within the limit of one of its ends. -/
theorem NarrowGap.near {low high close : ℚ} (narrow : NarrowGap limit low high) (lowFloat : IsDouble low)
    (closeFloat : IsDouble close) (even : EvenCap limit low) (positive : 0 < low)
    (above : low < close) (below : close < high) :
    (awayPct low close).le limit = true ∨ (awayPct high close).le limit = true := by
  rcases le_total close ((low + high) / 2) with lower | upper
  · -- Up to the middle the distance from the lower end grows.
    obtain ⟨middle, greatest, -⟩ := exists_greatestFloat (positive.le.trans above.le) closeFloat lower
    exact .inl (even.towards greatest.isDouble closeFloat lowFloat positive above.le
      (greatest.greatest close closeFloat lower) (narrow.lower middle greatest))
  · -- From the middle on the distance from the upper end shrinks.
    obtain ⟨middle, least, short⟩ := exists_leastFloat (by linarith) closeFloat upper
    have middlePositive : 0 < middle := by linarith [least.within]
    exact .inr (Extended.le_trans (awayPct_below middlePositive short below.le) (narrow.upper middle least))

/-- Where the filter matches everywhere inside active blocks, the gaps between their edges are narrow. -/
theorem narrowBlocks_of_inside (priced : ∀ edge ∈ ctx.blockEdges, 0 < edge)
    (floats : ∀ edge ∈ ctx.blockEdges, IsDouble edge)
    (inside : ∀ block ∈ ctx.activeBlocks, ∀ close, IsDouble close → 0 < close → block.floor ≤ close →
      close ≤ block.ceiling → nearOrderBlock ctx limit close = .ok true) : NarrowBlocks ctx limit := by
  intro block active low high gap above below
  have lowPositive := priced low gap.low_mem
  have apart := gap.apart
  -- At a float next to the middle the edge that is within the limit is no nearer than the end of the gap.
  have matched {close : ℚ} (isDouble : IsDouble close) (under : low ≤ close) (capped : close ≤ high) :
      ∃ edge ∈ ctx.blockEdges, (awayPct edge close).le limit = true :=
    (nearOrderBlock_edges (lowPositive.trans_le under)).mp
      (inside block active close isDouble (lowPositive.trans_le under) (above.trans under) (capped.trans below))
  constructor
  · intro close middle
    have under := middle.greatest low (floats low gap.low_mem) (by linarith)
    have capped : close ≤ high := by linarith [middle.within]
    obtain ⟨edge, listed, near⟩ := matched middle.isDouble under capped
    exact Extended.le_trans ((nearest_edge gap lowPositive under capped listed).1 middle.within) near
  · intro close middle
    have capped := middle.least high (floats high gap.high_mem) (by linarith)
    have under : low ≤ close := by linarith [middle.within]
    obtain ⟨edge, listed, near⟩ := matched middle.isDouble under capped
    exact Extended.le_trans ((nearest_edge gap lowPositive under capped listed).2 middle.within) near

/-- Narrow gaps keep the filter true everywhere inside active blocks. -/
theorem inside_of_narrowBlocks (nonneg : (Extended.finite 0).le limit = true)
    (priced : ∀ edge ∈ ctx.blockEdges, 0 < edge) (floats : ∀ edge ∈ ctx.blockEdges, IsDouble edge)
    (even : ∀ edge ∈ ctx.blockEdges, EvenCap limit edge) (narrow : NarrowBlocks ctx limit)
    (active : block ∈ ctx.activeBlocks) {close : ℚ} (isDouble : IsDouble close) (positive : 0 < close)
    (above : block.floor ≤ close) (below : close ≤ block.ceiling) : nearOrderBlock ctx limit close = .ok true := by
  rw [nearOrderBlock_edges positive]
  -- Both ends of the block are among the edges.
  have floor : block.floor ∈ ctx.blockEdges := List.mem_flatMap.mpr ⟨block, active, floor_mem block⟩
  have ceiling : block.ceiling ∈ ctx.blockEdges := List.mem_flatMap.mpr ⟨block, active, ceiling_mem block⟩
  rcases mem_or_adjacent floor ceiling above below with listed | ⟨low, high, gap, under, beyond, inside, within⟩
  · -- At an edge the distance is zero.
    refine ⟨close, listed, ?_⟩
    have zero : awayPct close close = .finite 0 := by
      have none_ : IsDouble 0 := by decide +kernel
      have product : (Extended.finite 0).mul (.finite 100) = .finite 0 := by decide +kernel
      rw [awayPct, sub_self, abs_zero, none_, percentOf, Extended.div, zero_div, none_, product]
    rw [zero]
    exact nonneg
  · have lowPositive := priced low gap.low_mem
    rcases (narrow block active low high gap inside within).near (floats low gap.low_mem) isDouble
      (even low gap.low_mem) lowPositive under beyond with near | near
    · exact ⟨low, gap.low_mem, near⟩
    · exact ⟨high, gap.high_mem, near⟩

/-- For positive prices and a limit that is not negative: if coming closer to a block keeps the filter true, and it is
true inside every active block, then the floats next to the middle of any two neighbouring edges inside an active block
are within the limit. Conversely that is enough, except that far above an edge, at limits from fifty to a hundred
percent, rounding has to be even. -/
theorem proximity_monotone_iff (nonneg : (Extended.finite 0).le limit = true)
    (priced : ∀ edge ∈ ctx.blockEdges, 0 < edge) (floats : ∀ edge ∈ ctx.blockEdges, IsDouble edge) :
    (ProximityMonotone ctx limit → NarrowBlocks ctx limit) ∧
      ((Uneven limit → ∀ edge ∈ ctx.blockEdges, EvenCap limit edge) →
        (ProximityMonotone ctx limit ↔ NarrowBlocks ctx limit)) := by
  have necessary (monotone : ProximityMonotone ctx limit) : NarrowBlocks ctx limit :=
    narrowBlocks_of_inside priced floats monotone.2
  refine ⟨necessary, fun uneven => ⟨necessary, fun narrow => ?_⟩⟩
  have even (edge : ℚ) (listed : edge ∈ ctx.blockEdges) : EvenCap limit edge := by
    by_cases rough : Uneven limit
    · exact uneven rough edge listed
    · exact evenCap_of_not_uneven nonneg rough (floats edge listed) (priced edge listed)
  refine ⟨?_, fun block active close isDouble positive above below =>
    inside_of_narrowBlocks nonneg priced floats even narrow active isDouble positive above below⟩
  intro block listed far near farFloat nearFloat farPositive nearPositive closer found
  have active := mem_activeBlocks.mpr ⟨listed, found.1⟩
  have among (edge : ℚ) (member : edge ∈ block.edges) : edge ∈ ctx.blockEdges :=
    List.mem_flatMap.mpr ⟨block, active, member⟩
  rcases closer with ⟨beyond, under⟩ | outside
  · exact inside_of_narrowBlocks nonneg priced floats even narrow active nearFloat nearPositive beyond under
  · exact (nearOrderBlock_iff nearPositive).mpr ⟨block, listed, found.approach farFloat nearFloat
      (fun edge member => floats edge (among edge member)) (fun edge member => priced edge (among edge member))
      (fun edge member => even edge (among edge member)) farPositive nearPositive outside⟩

end

/-- A wide block that nothing has entered yet. -/
def wideBlock : OrderBlock where
  zoneId := "ob:5:4"
  direction := .bullish
  range := ⟨90, 110⟩
  eventIndex := 5
  candleIndex := 4
  formedAt := 4

/-- A symbol with only this block. -/
def wideBlockContext : Context where
  candles := []
  close := none
  asOf := 0
  orderBlocks := [wideBlock]

/-- The condition is met by a limit of ten percent. -/
theorem wide_block_within : ProximityMonotone wideBlockContext (.finite 10) := by
  refine ((proximity_monotone_iff (by decide) (by decide) (by decide +kernel)).2 ?_).mpr ?_
  · rintro ⟨fifty, -⟩
    cases fifty
  intro block active low high gap above below
  -- The only gap is the block itself.
  have edges : wideBlockContext.blockEdges = [90, 110] := rfl
  have lowListed : low = 90 ∨ low = 110 := by simpa [edges] using gap.low_mem
  have highListed : high = 90 ∨ high = 110 := by simpa [edges] using gap.high_mem
  have apart := gap.apart
  obtain ⟨rfl, rfl⟩ : low = 90 ∧ high = 110 := by
    rcases lowListed with rfl | rfl <;> rcases highListed with rfl | rfl <;> revert apart <;> norm_num
  -- Its middle is a float.
  have hundred : IsDouble 100 := by decide +kernel
  have middle : ((90 : ℚ) + 110) / 2 = 100 := by norm_num
  constructor
  · intro close greatest
    rw [middle] at greatest
    obtain rfl : close = 100 := le_antisymm greatest.within (greatest.greatest 100 hundred (le_refl _))
    decide +kernel
  · intro close least
    rw [middle] at least
    obtain rfl : close = 100 := le_antisymm (least.least 100 hundred (le_refl _)) least.within
    decide +kernel

/-- In the middle of the block a limit of one percent is not kept, though it is kept at the edge. -/
theorem wide_block_missed : ¬ProximityMonotone wideBlockContext (.finite 1) := by
  intro monotone
  have missed : nearOrderBlock wideBlockContext (.finite 1) 100 = .ok false := by decide +kernel
  have found := monotone.2 wideBlock (by decide) 100 (by decide +kernel) (by norm_num) (by decide) (by decide)
  rw [missed] at found
  cases found

end Rasat
