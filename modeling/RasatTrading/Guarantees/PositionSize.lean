import RasatTrading.Rounding.Nearest
import RasatTrading.Sizing

/-! What position sizing keeps to, and when it refuses although some quantity would do. -/

namespace Rasat

open Rounding

/-- The arguments of position sizing, apart from the symbol. -/
structure SizingInput where
  accountBalance : ℚ
  riskPct : ℚ
  entry : ℚ
  stopLoss : ℚ
  feeRate : ℚ
  side : String
  filters : SymbolFilters

/-- The tolerance of `round_down_to_step`, in steps. -/
def stepTolerance : ℚ := 1 / 1000000000

namespace SizingInput

variable (input : SizingInput)

/-- `calculate_position_size` with these arguments. -/
def size (text : Text) (symbol : String) : Except Exc Sized :=
  calculatePositionSize text symbol input.accountBalance input.riskPct input.entry input.stopLoss
    input.filters input.side input.feeRate

/-- The checks of the arguments, before any filter is looked at. -/
structure Checked : Prop where
  directed : checkStopDirection input.side input.entry input.stopLoss = .ok ()
  risk : 0 < input.riskPct ∧ input.riskPct ≤ 1
  balance : 0 < input.accountBalance
  prices : 0 < input.entry ∧ 0 < input.stopLoss
  fee : 0 ≤ input.feeRate

/-- The entry lies within the price filter. -/
def Priced : Prop :=
  input.filters.minPrice ≤ input.entry ∧ ∀ limit ∈ input.filters.maxPrice, input.entry ≤ limit

/-- What the quantity of a position has to keep to. -/
structure Feasible (quantity : ℚ) : Prop where
  positive : 0 < quantity
  multiple : 0 < input.filters.stepSize → Multiple input.filters.stepSize quantity
  enough : input.filters.minQty ≤ quantity
  limited : ∀ limit ∈ input.filters.maxQty, quantity ≤ limit
  worth : input.filters.minNotional ≤ quantity * input.entry
  affordable : quantity * input.entry * (1 + input.feeRate) ≤ input.accountBalance
  bounded : quantity * |input.entry - input.stopLoss| ≤ input.accountBalance * input.riskPct

/-- The quantity that risks what may be risked. -/
def rawQty : ℚ := input.accountBalance * input.riskPct / |input.entry - input.stopLoss|

/-- The quantity that the balance pays for. -/
def balanceCapQty : ℚ := input.accountBalance / (input.entry * (1 + input.feeRate))

/-- The lower one of both. -/
def cappedQty : ℚ := min input.rawQty input.balanceCapQty

/-- The one quantity that is tried. -/
def candidate : ℚ := roundDownToStep input.cappedQty input.filters.stepSize

/-- The quantity under both caps and the maximum. -/
def ceiling : ℚ := input.filters.maxQty.elim input.cappedQty fun limit => min limit input.cappedQty

/-- The highest quantity of whole steps under both caps and the maximum. -/
def largest : ℚ :=
  if input.filters.stepSize ≤ 0 then input.ceiling else floorTo 0 input.filters.stepSize input.ceiling

/-- The quantity lies in the range of the lot filter and is worth enough. -/
structure Tradable (quantity : ℚ) : Prop where
  positive : 0 < quantity
  enough : input.filters.minQty ≤ quantity
  worth : input.filters.minNotional ≤ quantity * input.entry

variable {input} {text : Text} {symbol : String} {quantity : ℚ} {sized : Sized}

/-- A stop on the right side of the entry differs from it. -/
theorem Checked.riskPerUnit_pos (checked : input.Checked) : 0 < |input.entry - input.stopLoss| := by
  have directed := checked.directed
  unfold checkStopDirection at directed
  rw [abs_pos, sub_ne_zero]
  -- A long position has its stop below the entry, a short one above.
  split_ifs at directed with long short
  · exact (not_le.mp (rejectIf_ok.mp directed)).ne'
  · exact (not_le.mp (rejectIf_ok.mp directed)).ne
  · cases directed

/-- A unit costs something. -/
theorem Checked.unitCost_pos (checked : input.Checked) : 0 < input.entry * (1 + input.feeRate) := by
  have entry := checked.prices.1
  have fee := checked.fee
  positivity

/-- The risk is bounded exactly up to the raw quantity. -/
theorem Checked.bounded_iff (checked : input.Checked) :
    quantity * |input.entry - input.stopLoss| ≤ input.accountBalance * input.riskPct ↔
      quantity ≤ input.rawQty :=
  (le_div_iff₀ checked.riskPerUnit_pos).symm

/-- The balance pays exactly up to its cap. -/
theorem Checked.affordable_iff (checked : input.Checked) :
    quantity * input.entry * (1 + input.feeRate) ≤ input.accountBalance ↔
      quantity ≤ input.balanceCapQty := by
  rw [mul_assoc]
  exact (le_div_iff₀ checked.unitCost_pos).symm

/-- A feasible quantity lies under the ceiling. -/
theorem Checked.feasible_iff (checked : input.Checked) :
    input.Feasible quantity ↔ input.Tradable quantity ∧
      (0 < input.filters.stepSize → Multiple input.filters.stepSize quantity) ∧
        quantity ≤ input.ceiling := by
  -- The maximum and both caps are one upper bound.
  have under : quantity ≤ input.ceiling ↔ (∀ limit ∈ input.filters.maxQty, quantity ≤ limit) ∧
      quantity ≤ input.rawQty ∧ quantity ≤ input.balanceCapQty := by
    unfold ceiling cappedQty
    cases input.filters.maxQty with
    | none => simp
    | some limit => simp
  rw [under, ← checked.bounded_iff, ← checked.affordable_iff]
  constructor
  · rintro ⟨positive, multiple, enough, limited, worth, affordable, bounded⟩
    exact ⟨⟨positive, enough, worth⟩, multiple, limited, bounded, affordable⟩
  · rintro ⟨⟨positive, enough, worth⟩, multiple, limited, bounded, affordable⟩
    exact ⟨positive, multiple, enough, limited, worth, affordable, bounded⟩

/-- Sizing accepts the candidate that is tradable, within the maximum and paid for. -/
structure Accepted (input : SizingInput) : Prop where
  tradable : input.Tradable input.candidate
  limited : ∀ limit ∈ input.filters.maxQty, input.candidate ≤ limit
  affordable : input.candidate ≤ input.balanceCapQty

/-- Without a positive step the candidate is the capped quantity, otherwise it is rounded. -/
theorem candidate_eq : input.candidate =
    if input.filters.stepSize ≤ 0 then input.cappedQty
    else floorTo stepTolerance input.filters.stepSize input.cappedQty := rfl

/-- The candidate is a multiple of a positive step. -/
theorem candidate_multiple (positive : 0 < input.filters.stepSize) :
    Multiple input.filters.stepSize input.candidate := by
  rw [candidate_eq, if_neg (not_le.mpr positive)]
  exact floorTo_multiple _ _ _

/-- A feasible quantity does not exceed the candidate. -/
theorem Feasible.le_candidate (checked : input.Checked) (feasible : input.Feasible quantity) :
    quantity ≤ input.candidate := by
  -- Neither the risk nor the balance leaves room for more than the capped quantity.
  have capped : quantity ≤ input.cappedQty :=
    le_min (checked.bounded_iff.mp feasible.bounded) (checked.affordable_iff.mp feasible.affordable)
  rw [candidate_eq]
  split
  · exact capped
  · rename_i step
    have positive := not_le.mp step
    -- Rounding down passes over no multiple of the step.
    exact (feasible.multiple positive).le_floorTo positive (by norm_num [stepTolerance]) capped

/-- The capped quantity is exceeded exactly where the tolerance tells. -/
theorem candidate_le_capped_iff : input.candidate ≤ input.cappedQty ↔
    input.filters.stepSize ≤ 0 ∨
      Int.fract (input.cappedQty / input.filters.stepSize) < 1 - stepTolerance := by
  rw [candidate_eq]
  by_cases step : input.filters.stepSize ≤ 0
  · simp [step]
  · -- The tolerance lifts a quotient that lies just below a whole number.
    rw [if_neg step, floorTo_le_iff (not_le.mp step) (by norm_num [stepTolerance])]
    simp [step]

/-- The highest quantity of whole steps under the ceiling is a multiple that does not exceed it. -/
theorem largest_spec : input.largest ≤ input.ceiling ∧
    (0 < input.filters.stepSize → Multiple input.filters.stepSize input.largest) ∧
    ∀ quantity, (0 < input.filters.stepSize → Multiple input.filters.stepSize quantity) →
      quantity ≤ input.ceiling → quantity ≤ input.largest := by
  unfold largest
  split
  · rename_i none
    exact ⟨le_rfl, fun positive => absurd none (not_le.mpr positive), fun _ _ below => below⟩
  · rename_i step
    have positive := not_le.mp step
    refine ⟨floorTo_zero_le positive, fun _ => floorTo_multiple _ _ _, ?_⟩
    intro quantity multiple below
    exact (multiple positive).le_floorTo positive le_rfl below

/-- Some quantity is feasible exactly when the highest one under the ceiling is tradable. -/
theorem Checked.exists_feasible_iff (checked : input.Checked) :
    (∃ quantity, input.Feasible quantity) ↔ input.Tradable input.largest := by
  obtain ⟨under, multiple, highest⟩ := input.largest_spec
  constructor
  · rintro ⟨quantity, feasible⟩
    obtain ⟨tradable, whole, below⟩ := checked.feasible_iff.mp feasible
    have reached := highest quantity whole below
    -- More of the same asset is worth more.
    have entry := checked.prices.1
    have worth := mul_le_mul_of_nonneg_right reached entry.le
    exact ⟨tradable.positive.trans_le reached, tradable.enough.trans reached,
      tradable.worth.trans worth⟩
  · -- The highest quantity meets everything else that is asked of it.
    intro tradable
    exact ⟨input.largest, checked.feasible_iff.mpr ⟨tradable, multiple, under⟩⟩

/-- What sizing returns for the candidate. -/
def sizedAs (input : SizingInput) : Sized where
  riskAmount := input.accountBalance * input.riskPct
  riskPerUnit := |input.entry - input.stopLoss|
  quantity := input.candidate
  notional := input.candidate * input.entry
  estimatedFee := input.candidate * input.entry * input.feeRate
  totalRequired := input.candidate * input.entry + input.candidate * input.entry * input.feeRate

/-- The checks of the candidate, in the order of the source. -/
def judge (input : SizingInput) (text : Text) (symbol : String) : Except Exc Sized := do
  rejectIf (input.candidate ≤ 0 ∨ input.candidate < input.filters.minQty) .filterViolation
    ("quantity is below LOT_SIZE minQty: " ++ text.float input.candidate ++ " < "
      ++ text.float input.filters.minQty ++ " (" ++ symbol ++ ")")
  rejectIf (exceeds input.candidate input.filters.maxQty) .filterViolation
    ("quantity exceeds LOT_SIZE maxQty: " ++ text.float input.candidate ++ " > "
      ++ text.bound input.filters.maxQty ++ " (" ++ symbol ++ ")")
  rejectIf (input.candidate * input.entry < input.filters.minNotional) .filterViolation
    ("notional is below MIN_NOTIONAL: " ++ text.float (input.candidate * input.entry) ++ " < "
      ++ text.float input.filters.minNotional ++ " (" ++ symbol ++ ")")
  checkSufficientBalance text input.accountBalance
    (input.candidate * input.entry + input.candidate * input.entry * input.feeRate) symbol
  return input.sizedAs

/-- Nothing exceeds an absent maximum. -/
theorem exceeds_iff {value : ℚ} {bound : Option ℚ} :
    exceeds value bound = false ↔ ∀ limit ∈ bound, value ≤ limit := by
  cases bound with
  | none => simp [exceeds]
  | some limit => simp [exceeds]

/-- With a symbol, checked arguments and an entry in its range, the candidate decides. -/
theorem size_eq (named : symbol ≠ "") (checked : input.Checked) (priced : input.Priced) :
    input.size text symbol = input.judge text symbol := by
  obtain ⟨directed, risk, balance, prices, fee⟩ := checked
  have risky : ¬(input.riskPct ≤ 0 ∨ input.riskPct > 1) := by
    rintro (low | high)
    · exact absurd risk.1 (not_lt.mpr low)
    · exact absurd risk.2 (not_le.mpr high)
  have cheap : ¬(input.entry ≤ 0 ∨ input.stopLoss ≤ 0) := by
    rintro (low | low)
    · exact absurd prices.1 (not_lt.mpr low)
    · exact absurd prices.2 (not_lt.mpr low)
  have inside : ¬(input.entry < input.filters.minPrice ∨ exceeds input.entry input.filters.maxPrice) := by
    rintro (low | high)
    · exact absurd priced.1 (not_le.mpr low)
    · rw [exceeds_iff.mpr priced.2] at high
      cases high
  -- None of the checks before the candidate raises.
  unfold size calculatePositionSize
  simp only [rejectIf, if_neg named, directed, if_neg risky, if_neg (not_le.mpr balance), if_neg cheap,
    if_neg (not_lt.mpr fee), if_neg inside]
  rfl

/-- The arguments of a sizing that succeeds passed the checks. -/
theorem size_ok (passed : input.size text symbol = .ok sized) : symbol ≠ "" ∧ input.Checked ∧ input.Priced := by
  unfold size calculatePositionSize at passed
  -- Each check in the order of the source leaves one fact.
  simp only [bind_ok, rejectIf_ok, not_or, not_le, not_lt] at passed
  obtain ⟨_, named, _, directed, _, risk, _, balance, _, prices, _, fee, _, priced, _⟩ := passed
  exact ⟨named, ⟨directed, risk, balance, prices, fee⟩, priced.1,
    exceeds_iff.mp (Bool.not_eq_true _ ▸ priced.2)⟩

/-- The total of an order is its cost with the fee. -/
theorem Checked.paid_iff (checked : input.Checked) :
    ¬(quantity * input.entry + quantity * input.entry * input.feeRate > input.accountBalance) ↔
      quantity ≤ input.balanceCapQty := by
  -- Cost and fee together are the quantity times the cost of a unit.
  rw [← checked.affordable_iff, not_lt]
  constructor <;> intro below <;> linarith

/-- Sizing returns the candidate exactly when it is accepted. -/
theorem judge_ok (checked : input.Checked) :
    input.judge text symbol = .ok sized ↔ input.Accepted ∧ sized = input.sizedAs := by
  unfold judge checkSufficientBalance
  simp only [bind_ok, rejectIf_ok, checked.paid_iff]
  constructor
  · rintro ⟨_, amount, _, within, _, worth, _, paid, same⟩
    rw [not_or, not_le, not_lt] at amount
    exact ⟨⟨⟨amount.1, amount.2, not_lt.mp worth⟩, exceeds_iff.mp (Bool.not_eq_true _ ▸ within), paid⟩,
      (Except.ok.inj same).symm⟩
  · rintro ⟨⟨⟨positive, enough, worth⟩, limited, paid⟩, rfl⟩
    refine ⟨(), ?_, (), ?_, (), not_lt.mpr worth, (), paid, rfl⟩
    · rintro (low | low)
      · exact absurd positive (not_lt.mpr low)
      · exact absurd enough (not_le.mpr low)
    · rw [exceeds_iff.mpr limited]
      exact Bool.false_ne_true

end SizingInput

/-- A refusal for the filters or for the balance. -/
def SizeRefused (outcome : Except Exc Sized) : Prop :=
  ∃ error, outcome = .error (.rasat error) ∧
    (error.code = .filterViolation ∨ error.code = .insufficientBalance)

namespace SizingInput

variable {input : SizingInput} {text : Text} {symbol : String} {quantity : ℚ} {sized : Sized}

/-- One more check with such a code refuses, or leaves what follows. -/
theorem refused_or_rest {condition : Prop} [Decidable condition] {code : ErrorCode} {message : String}
    {rest : Except Exc Sized} (coded : code = .filterViolation ∨ code = .insufficientBalance)
    (cases : SizeRefused rest ∨ ∃ sized, rest = .ok sized) :
    SizeRefused (rejectIf condition code message >>= fun _ => rest) ∨
      ∃ sized, (rejectIf condition code message >>= fun _ => rest) = .ok sized := by
  by_cases met : condition
  · rw [rejectIf, if_pos met]
    exact .inl ⟨_, rfl, coded⟩
  · rw [rejectIf, if_neg met]
    exact cases

/-- The candidate is refused for the filters or for the balance, or accepted. -/
theorem judge_cases (input : SizingInput) (text : Text) (symbol : String) :
    SizeRefused (input.judge text symbol) ∨ ∃ sized, input.judge text symbol = .ok sized :=
  refused_or_rest (.inl rfl) (refused_or_rest (.inl rfl) (refused_or_rest (.inl rfl)
    (refused_or_rest (.inr rfl) (.inr ⟨_, rfl⟩))))

/-- The candidate is refused exactly when it is not accepted. -/
theorem Checked.refused_iff (checked : input.Checked) :
    SizeRefused (input.judge text symbol) ↔ ¬input.Accepted := by
  constructor
  · rintro ⟨error, raised, -⟩ accepted
    have returned : input.judge text symbol = .ok input.sizedAs :=
      (judge_ok checked).mpr ⟨accepted, rfl⟩
    rw [raised] at returned
    cases returned
  · intro unaccepted
    rcases judge_cases input text symbol with refused | ⟨sized, returned⟩
    · exact refused
    · exact absurd ((judge_ok checked).mp returned).1 unaccepted

/-- The quantity of a sizing that succeeds keeps to the filters, the balance and the risk exactly when
the capped quantity does not lie within the tolerance below a whole number of steps. -/
theorem sized_feasible_iff (passed : input.size text symbol = .ok sized) :
    input.Feasible sized.quantity ↔ input.filters.stepSize ≤ 0 ∨
      Int.fract (input.cappedQty / input.filters.stepSize) < 1 - 1 / 1000000000 := by
  -- A success returns the candidate, so everything is about the candidate.
  obtain ⟨named, checked, priced⟩ := size_ok passed
  rw [size_eq named checked priced] at passed
  obtain ⟨⟨tradable, limited, paid⟩, rfl⟩ := (judge_ok checked).mp passed
  have within := input.candidate_le_capped_iff
  rw [show stepTolerance = 1 / 1000000000 from rfl] at within
  rw [← within]
  show input.Feasible input.candidate ↔ _
  constructor
  · intro feasible
    exact le_min (checked.bounded_iff.mp feasible.bounded) paid
  · -- Below the raw quantity the risk is bounded, and the other checks were made by the sizer.
    intro capped
    exact {
      positive := tradable.positive
      multiple := candidate_multiple
      enough := tradable.enough
      limited := limited
      worth := tradable.worth
      affordable := checked.affordable_iff.mpr paid
      bounded := checked.bounded_iff.mpr (capped.trans (min_le_left _ _)) }

/-- Renderings that decide nothing in a sizing. -/
def bareText : Text where
  float := fun value => toString value.num
  fixed8 := fun value => toString value.num
  repr := id
  parseFloat := fun _ => none
  isAlnum := Char.isAlphanum
  sha1Hex := id

/-- Filters of whole units, with a maximum. -/
def wholeUnits (maxQty : ℚ) : SymbolFilters where
  symbol := "BTCUSDT"
  baseAsset := "BTC"
  stepSize := 1
  minQty := 1
  maxQty := some maxQty
  minNotional := 10
  tickSize := 0
  minPrice := 0
  maxPrice := none

/-- A long position from 100 with a stop at 99. -/
def longFrom (riskPct maxQty : ℚ) : SizingInput where
  accountBalance := 10000
  riskPct := riskPct
  entry := 100
  stopLoss := 99
  feeRate := 1 / 1000
  side := "BUY"
  filters := wholeUnits maxQty

/-- The quantity of a sizing that succeeds. -/
theorem sized_of_quantity {outcome : Except Exc Sized}
    (quantity_ : outcome.toOption.map Sized.quantity = some quantity) :
    ∃ sized, outcome = .ok sized ∧ sized.quantity = quantity := by
  cases outcome with
  | error raised => cases quantity_
  | ok sized => exact ⟨sized, rfl, Option.some.inj quantity_⟩

/-- A risk of ten and a half units gives ten units. -/
theorem ten_units_feasible : ∃ sized, (longFrom (105 / 100000) 50).size bareText "BTCUSDT" = .ok sized ∧
    ((longFrom (105 / 100000) 50).Feasible sized.quantity ↔
      (longFrom (105 / 100000) 50).filters.stepSize ≤ 0 ∨
        Int.fract ((longFrom (105 / 100000) 50).cappedQty / (longFrom (105 / 100000) 50).filters.stepSize)
          < 1 - 1 / 1000000000) := by
  have quantity : ((longFrom (105 / 100000) 50).size bareText "BTCUSDT").toOption.map Sized.quantity =
      some 10 := by
    decide +kernel
  obtain ⟨sized, passed, -⟩ := sized_of_quantity quantity
  exact ⟨sized, passed, sized_feasible_iff passed⟩

/-- A risk of just under ten units is rounded up to ten. -/
theorem sized_beyond_risk : ∃ sized,
    (longFrom (99999999999 / 100000000000000) 50).size bareText "BTCUSDT" = .ok sized ∧
      ¬(longFrom (99999999999 / 100000000000000) 50).Feasible sized.quantity := by
  have quantity : ((longFrom (99999999999 / 100000000000000) 50).size bareText "BTCUSDT").toOption.map
      Sized.quantity = some 10 := by
    decide +kernel
  obtain ⟨sized, passed, ten⟩ := sized_of_quantity quantity
  refine ⟨sized, passed, fun feasible => ?_⟩
  have bounded := feasible.bounded
  rw [ten] at bounded
  -- Ten units risk more than the slightly lower quantity before the rounding.
  norm_num [longFrom] at bounded

/-- Checked arguments with an entry in its range: a refusal means that no quantity is feasible exactly
when the candidate exceeds neither the maximum nor the balance, or the highest quantity of whole steps
under the maximum and both caps is not tradable. -/
theorem refusal_complete_iff (named : symbol ≠ "") (checked : input.Checked) (priced : input.Priced) :
    (SizeRefused (input.size text symbol) → ¬∃ quantity, input.Feasible quantity) ↔
      ((∀ limit ∈ input.filters.maxQty, input.candidate ≤ limit) ∧
          input.candidate ≤ input.balanceCapQty) ∨ ¬input.Tradable input.largest := by
  rw [size_eq named checked priced, checked.refused_iff, ← checked.exists_feasible_iff]
  constructor
  · -- An accepted candidate exceeds nothing, and a refused one leaves nothing feasible.
    intro complete
    by_cases accepted : input.Accepted
    · exact .inl ⟨accepted.limited, accepted.affordable⟩
    · exact .inr (complete accepted)
  · rintro (⟨limited, paid⟩ | infeasible) unaccepted
    · rintro ⟨quantity, feasible⟩
      -- The candidate is no less than a feasible quantity, so it is tradable, too.
      have reached := feasible.le_candidate checked
      have worth := mul_le_mul_of_nonneg_right reached checked.prices.1.le
      exact unaccepted ⟨⟨feasible.positive.trans_le reached, feasible.enough.trans reached,
        feasible.worth.trans worth⟩, limited, paid⟩
    · exact infeasible

/-- Sizing within the maximum. -/
theorem ten_units_complete :
    (SizeRefused ((longFrom (105 / 100000) 50).size bareText "BTCUSDT") →
        ¬∃ quantity, (longFrom (105 / 100000) 50).Feasible quantity) ↔
      ((∀ limit ∈ (longFrom (105 / 100000) 50).filters.maxQty,
            (longFrom (105 / 100000) 50).candidate ≤ limit) ∧
          (longFrom (105 / 100000) 50).candidate ≤ (longFrom (105 / 100000) 50).balanceCapQty) ∨
        ¬(longFrom (105 / 100000) 50).Tradable (longFrom (105 / 100000) 50).largest :=
  refusal_complete_iff (by decide)
    ⟨rfl, by norm_num [longFrom], by norm_num [longFrom], by norm_num [longFrom], by norm_num [longFrom]⟩
    ⟨by norm_num [longFrom, wholeUnits], by simp [longFrom, wholeUnits]⟩

/-- Ninety-nine units exceed a maximum of fifty, and are refused although fifty would do. -/
theorem refused_above_maximum : SizeRefused ((longFrom (1 / 100) 50).size bareText "BTCUSDT") ∧
    (longFrom (1 / 100) 50).Feasible 50 := by
  have checked : (longFrom (1 / 100) 50).Checked := ⟨rfl, by norm_num [longFrom], by norm_num [longFrom],
    by norm_num [longFrom], by norm_num [longFrom]⟩
  have priced : (longFrom (1 / 100) 50).Priced :=
    ⟨by norm_num [longFrom, wholeUnits], by simp [longFrom, wholeUnits]⟩
  refine ⟨?_, ?_⟩
  · rw [size_eq (by decide) checked priced, checked.refused_iff]
    intro accepted
    have above : ¬(longFrom (1 / 100) 50).candidate ≤ 50 := by decide +kernel
    exact above (accepted.limited 50 rfl)
  constructor
  · norm_num
  · exact fun _ => ⟨50, by norm_num [longFrom, wholeUnits]⟩
  all_goals norm_num [longFrom, wholeUnits, abs_of_pos]

end SizingInput

end Rasat
