import Mathlib.Algebra.Order.BigOperators.Group.List
import Mathlib.Data.List.Pairwise
import RasatTrading.Analysis.Liquidity
import RasatTrading.Keyed.Greedy

/-! Which swings lie in one liquidity zone. -/

namespace Rasat

open Rounding

/-- The swings of a kind, in the order of their prices. -/
def swingsByPrice (swings : List Swing) (kind : SwingKind) : List Swing :=
  (swings.filter fun swing => swing.kind = kind).insertionSort fun a b => a.price ≤ b.price

/-- The clusters of the swings of a kind, those with one swing too. -/
def allClusters (swings : List Swing) (kind : SwingKind) (tolerancePct : ℚ) : List (List Swing) :=
  Greedy.clusters (closeTo tolerancePct) (swingsByPrice swings kind)

theorem placeSwing_place (tolerancePct : ℚ) (swing : Swing) (clusters : List (List Swing)) :
    placeSwing tolerancePct swing clusters = Greedy.place (closeTo tolerancePct) swing clusters := by
  induction clusters with
  | nil => rfl
  | cons cluster rest ih =>
    -- Both try the clusters from the first one on.
    rw [placeSwing, Greedy.place, ih]

/-- The zones are made of the clusters of two or more. -/
theorem clusterSwings_all (swings : List Swing) (kind : SwingKind) (tolerancePct : ℚ) :
    clusterSwings swings kind tolerancePct =
      (allClusters swings kind tolerancePct).filter fun cluster => 2 ≤ cluster.length := by
  unfold clusterSwings allClusters Greedy.clusters swingsByPrice
  simp only [placeSwing_place]

/-! What rounding does to a mean. -/

section Mean

variable {tolerancePct : ℚ} {swing : Swing} {cluster : List Swing}

/-- A tolerance is wide enough for the rounding of a mean of so many prices. -/
structure Tolerant (tolerancePct : ℚ) (count : ℕ) : Prop where
  few : count ≤ 2 ^ 50
  wide : count / 2 ^ 43 ≤ tolerancePct

/-- With one more price the mean moves towards it, or both are as close as rounding makes them. -/
theorem mean_moves {total next price count : ℚ} (some_ : 1 ≤ count) (positive : 0 < price)
    (bounded : total ≤ count * price * (1 + count / 2 ^ 53))
    (bounded' : next ≤ (count + 1) * price * (1 + (count + 1) / 2 ^ 53))
    (error : |total + price - next| ≤ (total + price) / 2 ^ 53) :
    total / count ≤ next / (count + 1) ∧ next / (count + 1) ≤ price ∨
      |price - next / (count + 1)| ≤ (count + 2) / 2 ^ 53 * price := by
  have many : 0 < count := by linarith
  have more : 0 < count + 1 := by linarith
  obtain ⟨low, high⟩ := abs_le.mp error
  -- Both means are named, so that the sums are multiples of them.
  obtain ⟨mean, rfl⟩ : ∃ mean, total = mean * count := ⟨total / count, (div_mul_cancel₀ _ many.ne').symm⟩
  obtain ⟨moved, rfl⟩ : ∃ moved, next = moved * (count + 1) := ⟨next / (count + 1), (div_mul_cancel₀ _ more.ne').symm⟩
  rw [mul_div_cancel_right₀ _ many.ne', mul_div_cancel_right₀ _ more.ne']
  have above : moved ≤ price * (1 + (count + 1) / 2 ^ 53) := by
    refine le_of_mul_le_mul_right ?_ more
    linarith
  by_cases exceeds : price < moved
  · refine .inr ?_
    rw [abs_of_neg (by linarith)]
    have wider : (count + 1) / 2 ^ 53 * price ≤ (count + 2) / 2 ^ 53 * price :=
      mul_le_mul_of_nonneg_right (by linarith) positive.le
    linarith
  by_cases forward : mean ≤ moved
  · exact .inl ⟨forward, not_lt.mp exceeds⟩
  refine .inr ?_
  rw [abs_of_nonneg (by linarith)]
  have under : mean ≤ price * (1 + count / 2 ^ 53) := by
    refine le_of_mul_le_mul_right ?_ many
    linarith
  -- The mean can only fall by what the last addition has rounded.
  have fell : mean * count + price - moved * (count + 1) ≤ (mean * count + price) / 2 ^ 53 := by linarith
  have smaller : mean * count + price ≤ (count + 1) * price * (1 + count / 2 ^ 53) := by nlinarith
  rcases le_total mean price with below | beyond
  · have total_le : mean * count + price ≤ (count + 1) * price := by nlinarith
    nlinarith
  · nlinarith

/-- A tolerance that is wide enough takes in what rounding does to a mean. -/
theorem rounding_within {price mid slack : ℚ} (isDouble : IsDouble price) (positive : 0 < price)
    (fits : Fits 53 (-1074) mid) (nonneg : 0 ≤ slack) (little : slack ≤ 1 / 4)
    (near : |price - mid| ≤ 2 * slack * price) (wide : 2 ^ 9 * slack ≤ tolerancePct) (tolerant : 0 < tolerancePct) :
    ((Extended.finite price).sub (.finite mid)).abs.le
      (((Extended.finite mid).mul (.finite tolerancePct)).div (.finite 100)) = true := by
  have halved : price / 2 ≤ mid := by
    obtain ⟨-, high⟩ := abs_le.mp near
    nlinarith
  have midPositive : 0 < mid := by linarith
  have product : 0 < mid * tolerancePct := mul_pos midPositive tolerant
  rw [Extended.abs_sub, show (Extended.finite mid).mul (.finite tolerancePct) = .round (mid * tolerancePct) from rfl,
    Extended.round_of_nonneg product.le]
  split
  · refine Extended.round_mono (abs_nonneg _) ?_
    rw [le_div_iff₀ (by norm_num)]
    have roundedNonneg := Magnitude.rounded_nonneg product.le
    by_cases same : price = mid
    · rw [same, sub_self, abs_zero, zero_mul]
      exact roundedNonneg
    · -- The two are at least the least place apart, which bounds the rounding of the product.
      have apart := Magnitude.place_le_sub ((isDouble_iff positive.le).mp isDouble).1 fits same
      have large : 2 ^ 8 * (slack * price) ≤ mid * tolerancePct := by
        calc 2 ^ 8 * (slack * price) = price / 2 * (2 ^ 9 * slack) := by ring
          _ ≤ mid * tolerancePct := mul_le_mul halved wide (by positivity) midPositive.le
      have place := Magnitude.power_exponentAt_le product
      obtain ⟨-, error⟩ := abs_le.mp (Magnitude.rounded_error (mid * tolerancePct))
      rcases le_max_iff.mp place with relative | absolute
      · linarith
      · linarith
  · exact Extended.le_infinite (Extended.amount_round (abs_nonneg _))

/-- The mean of a sum that does not overflow. -/
theorem clusterMid_eq {total : ℚ} (sum : Extended.sum ((cluster.map Swing.price).map .finite) = .finite total) (nonneg : 0 ≤ total)
    (isDouble : IsDouble total) (filled : cluster ≠ []) (lengthFloat : IsDouble cluster.length) :
    clusterMid cluster = .finite (Magnitude.rounded (total / cluster.length)) := by
  have one : (1 : ℚ) ≤ cluster.length := by exact_mod_cast List.length_pos_iff.mpr filled
  obtain ⟨fits, below⟩ := (isDouble_iff nonneg).mp isDouble
  have quotient : 0 ≤ total / cluster.length := div_nonneg nonneg (by linarith)
  have small : Magnitude.rounded (total / cluster.length) ≤ total :=
    calc Magnitude.rounded (total / cluster.length) ≤ Magnitude.rounded total :=
          Magnitude.rounded_mono quotient (div_le_self nonneg one)
      _ = total := Magnitude.rounded_of_fits nonneg fits
  rw [clusterMid, sum, lengthFloat, Extended.div, Extended.round_of_nonneg quotient, if_pos (small.trans_lt below)]

/-- A mean that overflows is close to everything. -/
theorem closeTo_overflown (tolerant : 0 < tolerancePct) (lengthFloat : IsDouble cluster.length)
    (infinite : Extended.sum ((cluster.map Swing.price).map .finite) = .infinite false) :
    closeTo tolerancePct swing cluster = true := by
  have sign : decide ((cluster.length : ℚ) < 0) = false := decide_eq_false (not_lt.mpr (Nat.cast_nonneg _))
  unfold closeTo clusterMid
  rw [infinite, lengthFloat]
  simp only [Extended.div, Extended.sub, Extended.mul, Extended.abs, sign, tolerant.ne', if_false,
    decide_eq_false (not_lt.mpr tolerant.le), Bool.xor_self]
  rfl

/-- A mean that moves towards a price without passing it has the less distance and the more tolerance. -/
theorem closer_within {price mid moved : ℚ} (nonneg : 0 ≤ mid) (forward : mid ≤ moved) (short : moved ≤ price)
    (tolerant : 0 < tolerancePct) (close : ((Extended.finite price).sub (.finite mid)).abs.le
      (((Extended.finite mid).mul (.finite tolerancePct)).div (.finite 100)) = true) :
    ((Extended.finite price).sub (.finite moved)).abs.le
      (((Extended.finite moved).mul (.finite tolerancePct)).div (.finite 100)) = true := by
  rw [Extended.abs_sub] at close ⊢
  have smaller : |price - moved| ≤ |price - mid| := by
    rw [abs_of_nonneg (by linarith), abs_of_nonneg (by linarith)]
    linarith
  have more : ((Extended.finite mid).mul (.finite tolerancePct)).le ((Extended.finite moved).mul (.finite tolerancePct)) =
      true := Extended.mul_mono (show (Extended.finite mid).Amount from nonneg) (decide_eq_true forward) tolerant
  have wider := Extended.div_mono (Extended.amount_round (mul_nonneg nonneg tolerant.le)) more
    (show (0 : ℚ) < 100 by norm_num)
  exact Extended.le_trans (Extended.round_mono (abs_nonneg _) smaller) (Extended.le_trans close wider)

/-- What a swing is close to stays close to it when it is put there. -/
theorem closeTo_append {count : ℕ} (tolerant : Tolerant tolerancePct count) (filled : cluster ≠ [])
    (shorter : cluster.length < count) (isDouble : IsDouble swing.price) (positive : 0 < swing.price)
    (below : ∀ other ∈ cluster, IsDouble other.price ∧ 0 < other.price ∧ other.price ≤ swing.price)
    (close : closeTo tolerancePct swing cluster = true) : closeTo tolerancePct swing (cluster ++ [swing]) = true := by
  have size : 0 < cluster.length := List.length_pos_iff.mpr filled
  have few := tolerant.few
  have lengthFloat : IsDouble cluster.length := isDouble_natCast (by omega)
  have lengthFloat' : IsDouble (cluster.length + 1 : ℕ) := isDouble_natCast (by omega)
  have someTolerance : 0 < tolerancePct := by
    refine lt_of_lt_of_le ?_ tolerant.wide
    have counted : (0 : ℚ) < count := by exact_mod_cast (by omega : 0 < count)
    positivity
  have one_le : (1 : ℚ) ≤ cluster.length := by exact_mod_cast size
  have added : Extended.sum (((cluster ++ [swing]).map Swing.price).map .finite) =
      (Extended.sum ((cluster.map Swing.price).map .finite)).add (.finite swing.price) := by
    simp [Extended.sum, List.foldl_append]
  have bounds := @sum_floats (cluster.map Swing.price) swing.price (by simpa using by omega) (by simpa using below)
  have bounds' := @sum_floats ((cluster ++ [swing]).map Swing.price) swing.price (by simpa using by omega) (by
      intro price listed
      rw [List.map_append, List.mem_append, List.mem_map] at listed
      rcases listed with ⟨other, inside, rfl⟩ | listed
      · exact below other inside
      · rw [List.map_singleton, List.mem_singleton] at listed
        rw [listed]
        exact ⟨isDouble, positive, le_refl _⟩)
  rcases bounds' with infinite | ⟨next, nextSum, nextNonneg, nextFloat, nextBound⟩
  · exact closeTo_overflown someTolerance (by simpa using lengthFloat') infinite
  rcases bounds with infinite | ⟨total, totalSum, totalNonneg, totalFloat, totalBound⟩
  · rw [added, infinite] at nextSum
    cases nextSum
  rw [List.length_map] at totalBound
  rw [List.length_map, List.length_append, List.length_singleton] at nextBound
  have error : |total + swing.price - next| ≤ (total + swing.price) / 2 ^ 53 := by
    have rounded : Extended.round (total + swing.price) = .finite next := by
      rw [← nextSum, added, totalSum]
      rfl
    have sumNonneg : 0 ≤ total + swing.price := add_nonneg totalNonneg positive.le
    rw [Extended.round_of_nonneg sumNonneg] at rounded
    split at rounded
    · have same : Magnitude.rounded (total + swing.price) = next := by simpa using rounded
      rw [← same]
      exact Magnitude.rounded_add_error ((isDouble_iff totalNonneg).mp totalFloat).1 ((isDouble_iff positive.le).mp isDouble).1
        totalNonneg positive.le
    · cases rounded
  have mid := clusterMid_eq totalSum totalNonneg totalFloat filled lengthFloat
  have mid' : clusterMid (cluster ++ [swing]) = .finite (Magnitude.rounded (next / (cluster.length + 1))) := by
    have lengthAppend : (((cluster ++ [swing]).length : ℕ) : ℚ) = cluster.length + 1 := by simp
    rw [← lengthAppend]
    refine clusterMid_eq nextSum nextNonneg nextFloat (by simp) ?_
    rwa [List.length_append, List.length_singleton]
  push_cast at nextBound
  have quotient : 0 ≤ total / cluster.length := div_nonneg totalNonneg (by linarith)
  unfold closeTo at close ⊢
  rw [mid] at close
  rw [mid']
  dsimp only at close ⊢
  rcases mean_moves one_le positive totalBound nextBound error with ⟨forward, short⟩ | near
  · have most : Magnitude.rounded (next / (cluster.length + 1)) ≤ swing.price :=
      calc Magnitude.rounded (next / (cluster.length + 1)) ≤ Magnitude.rounded swing.price :=
            Magnitude.rounded_mono (quotient.trans forward) short
        _ = swing.price := Magnitude.rounded_of_fits positive.le ((isDouble_iff positive.le).mp isDouble).1
    exact closer_within (Magnitude.rounded_nonneg quotient) (Magnitude.rounded_mono quotient forward) most someTolerance
      close
  · -- Where rounding decides, the tolerance is wide enough for it.
    have lengths : (cluster.length : ℚ) + 1 ≤ count := by exact_mod_cast shorter
    have counts : (count : ℚ) ≤ 2 ^ 50 := by exact_mod_cast few
    have wide := tolerant.wide
    have slackPositive : (0 : ℚ) < (cluster.length + 2) / 2 ^ 53 := by positivity
    have nextPositive : 0 < next / (cluster.length + 1) := by
      obtain ⟨-, high⟩ := abs_le.mp near
      have part : (cluster.length + 2) / 2 ^ 53 * swing.price ≤ 1 / 4 * swing.price :=
        mul_le_mul_of_nonneg_right (by linarith) positive.le
      linarith
    have close' := Magnitude.rounded_near ((isDouble_iff positive.le).mp isDouble).1 positive nextPositive
      (by linarith) (by linarith) near
    exact rounding_within isDouble positive (Magnitude.rounded_fits nextPositive.le) slackPositive.le (by linarith) close'
      (by linarith) someTolerance

/-- A swing is close to itself. -/
theorem closeTo_alone (tolerant : 0 ≤ tolerancePct) (isDouble : IsDouble swing.price) (positive : 0 < swing.price) :
    closeTo tolerancePct swing [swing] = true := by
  have sum : Extended.sum (([swing].map Swing.price).map .finite) = .finite swing.price := by
    rw [← isDouble]
    simp [Extended.sum, Extended.add]
  have mid : clusterMid [swing] = .finite swing.price := by
    have one : IsDouble ([swing].length : ℕ) := isDouble_natCast (by simp)
    rw [clusterMid_eq sum positive.le isDouble (by simp) one, List.length_singleton, Nat.cast_one, div_one,
      Magnitude.rounded_of_fits positive.le ((isDouble_iff positive.le).mp isDouble).1]
  have distance : ((Extended.finite swing.price).sub (.finite swing.price)).abs = .finite 0 := by
    rw [Extended.abs_sub, sub_self, abs_zero]
    decide +kernel
  have amount := Extended.amount_div (Extended.amount_round (mul_nonneg positive.le tolerant))
    (show (0 : ℚ) < 100 by norm_num)
  unfold closeTo
  rw [mid]
  dsimp only
  rw [distance]
  exact Extended.zero_le amount

end Mean

section Zones

variable {swings : List Swing} {kind : SwingKind} {tolerancePct : ℚ}

theorem swingsByPrice_perm (swings : List Swing) (kind : SwingKind) :
    (swingsByPrice swings kind).Perm (swings.filter fun swing => swing.kind = kind) := List.perm_insertionSort _ _

instance : Std.Total fun a b : Swing => a.price ≤ b.price where
  total a b := le_total a.price b.price

instance : IsTrans Swing fun a b => a.price ≤ b.price where
  trans _ _ _ := le_trans

theorem swingsByPrice_sorted (swings : List Swing) (kind : SwingKind) :
    (swingsByPrice swings kind).Pairwise fun one other => one.price ≤ other.price := List.pairwise_insertionSort _ _

/-- No price of one cluster is a price of the other. -/
def PricesApart (one other : List Swing) : Prop := ∀ left ∈ one, ∀ right ∈ other, left.price ≠ right.price

instance : Std.Symm PricesApart where
  symm _ _ apart left in_left right in_right := (apart right in_right left in_left).symm

/-- Swings with one price lie in one cluster. -/
theorem equal_together (tolerant : Tolerant tolerancePct (swingsByPrice swings kind).length)
    (priced : ∀ swing ∈ swings, IsDouble swing.price ∧ 0 < swing.price) :
    (allClusters swings kind tolerancePct).Pairwise PricesApart := by
  have given (swing : Swing) (listed : swing ∈ swingsByPrice swings kind) : IsDouble swing.price ∧ 0 < swing.price :=
    priced swing (List.mem_filter.mp ((swingsByPrice_perm swings kind).subset listed)).1
  rcases List.eq_nil_or_concat (swingsByPrice swings kind) with none_found | ⟨front, last, shape⟩
  · unfold allClusters
    rw [none_found]
    exact .nil
  · have sorted := swingsByPrice_sorted swings kind
    -- The swings come in the order of their prices, as the clusters need it.
    have greatest : ∀ swing ∈ swingsByPrice swings kind, swing.price ≤ last.price := by
      rw [shape, List.concat_eq_append] at sorted ⊢
      rw [List.pairwise_append] at sorted
      intro swing listed
      rw [List.mem_append, List.mem_singleton] at listed
      rcases listed with before | rfl
      · exact sorted.2.2 swing before last (List.mem_singleton_self _)
      · exact le_refl _
    apply (Greedy.clusters_homes sorted _ _ _ greatest).apart
    · -- What fits once goes on to fit, since no price before it is higher.
      intro swing listed cluster filled shorter inside close
      obtain ⟨isDouble, positive⟩ := given swing listed
      refine closeTo_append tolerant filled shorter isDouble positive (fun other among => ?_) close
      obtain ⟨otherFloat, otherPositive⟩ := given other (inside other among).1
      exact ⟨otherFloat, otherPositive, (inside other among).2⟩
    · intro swing listed
      obtain ⟨isDouble, positive⟩ := given swing listed
      have some_ : (0 : ℚ) ≤ (swingsByPrice swings kind).length / 2 ^ 43 := by positivity
      exact closeTo_alone (some_.trans tolerant.wide) isDouble positive
    · intro one other cluster same
      unfold closeTo
      rw [same]

/-- Two swings with one price are in one zone. -/
theorem equal_in_zone (tolerant : Tolerant tolerancePct (swingsByPrice swings kind).length)
    (priced : ∀ swing ∈ swings, IsDouble swing.price ∧ 0 < swing.price) {one other : Swing}
    (one_listed : one ∈ swings.filter fun swing => swing.kind = kind)
    (other_listed : other ∈ swings.filter fun swing => swing.kind = kind) (distinct : one ≠ other)
    (same : one.price = other.price) :
    ∃ cluster ∈ allClusters swings kind tolerancePct, 2 ≤ cluster.length ∧ one ∈ cluster ∧ other ∈ cluster := by
  have all : (allClusters swings kind tolerancePct).flatten.Perm (swings.filter fun swing => swing.kind = kind) :=
    (Greedy.clusters_perm _).trans (swingsByPrice_perm swings kind)
  obtain ⟨cluster, listed, inside⟩ := List.mem_flatten.mp (all.symm.subset one_listed)
  obtain ⟨cluster', listed', inside'⟩ := List.mem_flatten.mp (all.symm.subset other_listed)
  -- Each of the two is in some cluster; one price is not in two of them.
  have together : cluster = cluster' := by
    by_contra apart
    have separate := (equal_together tolerant priced).forall listed listed' apart
    exact separate one inside other inside' same
  subst together
  refine ⟨cluster, listed, ?_, inside, inside'⟩
  -- With two different swings in it the cluster is a zone.
  by_contra short
  have single : cluster.length ≤ 1 := by omega
  obtain ⟨one_at, first⟩ := List.mem_iff_get.mp inside
  obtain ⟨other_at, second⟩ := List.mem_iff_get.mp inside'
  have place : one_at = other_at := by
    have left := one_at.isLt
    have right := other_at.isLt
    exact Fin.ext (by omega)
  exact distinct (by rw [← first, ← second, place])

/-- Every swing of a kind is in one cluster, the zones are the clusters of two or more, a swing of a cluster is close to
the mean of those before it in the order of prices, as floats compute it, and equal swings are in one zone when the
tolerance is wide enough for the rounding of a mean. -/
theorem liquidity_clusters (general8 : ℚ → String) (candles : List Candle) (marketStructure : MarketStructure)
    (futures : FuturesContext) (algoVersion : String) (tolerancePct : ℚ)
    (priced : ∀ swing ∈ marketStructure.swings, IsDouble swing.price ∧ 0 < swing.price) :
    (∀ kind, (allClusters marketStructure.swings kind tolerancePct).flatten.Perm
        (marketStructure.swings.filter fun swing => swing.kind = kind)) ∧
      (computeLiquidityZones general8 candles marketStructure futures algoVersion tolerancePct).zones =
        [SwingKind.high, SwingKind.low].flatMap (fun kind =>
          ((allClusters marketStructure.swings kind tolerancePct).filter fun cluster => 2 ≤ cluster.length).map
            fun cluster => markStatus (makeZone general8 cluster kind) candles) ∧
      (∀ kind, ∀ cluster ∈ allClusters marketStructure.swings kind tolerancePct, ∀ front swing back,
        cluster = front ++ swing :: back → front ≠ [] → (∀ other ∈ front, other.price ≤ swing.price) ∧
          closeTo tolerancePct swing front = true) ∧
      ∀ kind, Tolerant tolerancePct (swingsByPrice marketStructure.swings kind).length →
        ∀ one ∈ marketStructure.swings.filter (fun swing => swing.kind = kind),
          ∀ other ∈ marketStructure.swings.filter (fun swing => swing.kind = kind), one ≠ other →
            one.price = other.price → ∃ cluster ∈ allClusters marketStructure.swings kind tolerancePct,
              2 ≤ cluster.length ∧ one ∈ cluster ∧ other ∈ cluster := by
  refine ⟨?_, ?_, ?_, ?_⟩
  · intro kind
    exact (Greedy.clusters_perm _).trans (swingsByPrice_perm _ kind)
  · show zonesOfKind general8 candles marketStructure.swings tolerancePct .high ++
      zonesOfKind general8 candles marketStructure.swings tolerancePct .low = _
    unfold zonesOfKind
    rw [clusterSwings_all, clusterSwings_all, List.flatMap_cons, List.flatMap_singleton]
  · intro kind cluster listed front swing back shape later
    have sorted := (swingsByPrice_sorted marketStructure.swings kind).sublist (Greedy.clusters_sublist _ cluster listed)
    rw [shape, List.pairwise_append] at sorted
    -- The swing was compared with the swings before it when it was put there.
    have fit := (Greedy.clusters_grown _ cluster listed).fitted shape later
    exact ⟨fun other inside => sorted.2.2 other inside swing List.mem_cons_self, fit⟩
  · intro kind tolerant one one_listed other other_listed distinct same
    exact equal_in_zone tolerant priced one_listed other_listed distinct same

end Zones

/-- Highs at some prices. -/
def highsAt (prices : List ℚ) : List Swing :=
  prices.zipIdx.map fun (price, index) => ⟨index, 3600 * index, .high, price, none⟩

/-- A structure that has them. -/
def structureOf (prices : List ℚ) : MarketStructure := ⟨swingAlgoVersion, none, highsAt prices, []⟩

/-- At the tolerance of the source two equal highs are in one zone, apart from a higher one. -/
theorem equalHighs_clusters :
    ((computeLiquidityZones (fun _ => "") [] (structureOf [100, 100, 120]) {} liquidityAlgoVersion
        equalLevelTolerancePct).zones.map fun zone => (zone.range, zone.swingCount)) = [(⟨100, 100⟩, 2)] ∧
      ∃ cluster ∈ allClusters (highsAt [100, 100, 120]) .high equalLevelTolerancePct,
        2 ≤ cluster.length ∧ (⟨0, 0, .high, 100, none⟩ : Swing) ∈ cluster ∧ ⟨1, 3600, .high, 100, none⟩ ∈ cluster := by
  obtain ⟨-, -, -, together⟩ := liquidity_clusters (fun _ => "") [] (structureOf [100, 100, 120]) {}
    liquidityAlgoVersion equalLevelTolerancePct (by decide +kernel)
  refine ⟨by decide +kernel, together .high ⟨by decide +kernel, by decide +kernel⟩ _ ?_ _ ?_ (by decide) rfl⟩ <;>
    decide +kernel

/-- The float that 0.1 is read as. -/
def tenth : ℚ := Magnitude.rounded (1 / 10)

/-- A mean that moves takes in a price that is farther from the first one than the tolerance; a negative tolerance
keeps equal prices apart, and with none at all the rounded mean of three equal prices keeps a fourth one apart. -/
theorem moving_mean_spreads :
    ((computeLiquidityZones (fun _ => "") [] (structureOf [100, 104, 107]) {} liquidityAlgoVersion 5).zones.map
        fun zone => (zone.range, zone.swingCount)) = [(⟨100, 107⟩, 3)] ∧
      (((clusterMid (highsAt [100, 104, 107])).mul (.finite 5)).div (.finite 100)).lt (.finite (107 - 100)) = true ∧
      (computeLiquidityZones (fun _ => "") [] (structureOf [100, 100]) {} liquidityAlgoVersion (-1)).zones = [] ∧
      ((computeLiquidityZones (fun _ => "") [] (structureOf [tenth, tenth, tenth, tenth]) {} liquidityAlgoVersion
        0).zones.map LiquidityZone.swingCount) = [3] := by
  refine ⟨?_, ?_, ?_, ?_⟩ <;> decide +kernel

end Rasat
