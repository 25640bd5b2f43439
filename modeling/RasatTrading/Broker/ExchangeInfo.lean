import RasatTrading.Json
import RasatTrading.Sizing

/-! The filters of a symbol as the exchange publishes them. -/

namespace Rasat

/-- The items of a list of objects: absent when one of them is no object. -/
def objectsOf : List Json → Option (List (List (String × Json)))
  | [] => some []
  | .object fields :: rest => (objectsOf rest).map fun others => fields :: others
  | _ :: _ => none

/-- The filters of an entry: none when the field is missing, absent when it is no list of objects. -/
def publishedFilters (entry : List (String × Json)) : Option (List (List (String × Json))) :=
  match entry.lookup "filters" with
  | none => some []
  | some (.array items) => objectsOf items
  | some _ => none

/-- The fields of a filter; of two filters of a type the later one counts. -/
def filterFields (filters : List (List (String × Json))) (name : String) : List (String × Json) :=
  (filters.reverse.find? fun fields => (Json.get fields "filterType").isText name).getD []

/-- The value of a field of a filter, unless it is missing, null or empty. -/
def publishedField (filters : List (List (String × Json))) (name key : String) : Option Json :=
  match Json.get (filterFields filters name) key with
  | .null => none
  | .text "" => none
  | raw => some raw

/-- A number of a filter, or the default; absent when the field cannot be read as a finite number. -/
def filterNumber (text : Text) (filters : List (List (String × Json))) (name key : String)
    (default : Option ℚ) : Option (Option ℚ) :=
  match publishedField filters name key with
  | none => some default
  | some raw => (raw.toFloat text).map some

/-- The least notional under its current name, or else under its old one. -/
def minNotionalOf (text : Text) (filters : List (List (String × Json))) : Option ℚ := do
  let current ← filterNumber text filters "NOTIONAL" "minNotional" (some 0)
  -- Zero counts as not published.
  if current.getD 0 = 0 then
    let old ← filterNumber text filters "MIN_NOTIONAL" "minNotional" (some 0)
    return old.getD 0
  else return current.getD 0

/-- `from_exchange_info`: absent when it raises. -/
def SymbolFilters.fromExchangeInfo (text : Text) (entry : List (String × Json)) :
    Option SymbolFilters := do
  let filters ← publishedFilters entry
  let stepSize ← filterNumber text filters "LOT_SIZE" "stepSize" (some 0)
  let minQty ← filterNumber text filters "LOT_SIZE" "minQty" (some 0)
  let maxQty ← filterNumber text filters "LOT_SIZE" "maxQty" none
  let minNotional ← minNotionalOf text filters
  let tickSize ← filterNumber text filters "PRICE_FILTER" "tickSize" (some 0)
  let minPrice ← filterNumber text filters "PRICE_FILTER" "minPrice" (some 0)
  let maxPrice ← filterNumber text filters "PRICE_FILTER" "maxPrice" none
  return {
    symbol := ((entry.lookup "symbol").getD (.text "")).str text
    baseAsset := ((entry.lookup "baseAsset").getD (.text "")).str text
    stepSize := stepSize.getD 0
    minQty := minQty.getD 0
    maxQty := maxQty
    minNotional := minNotional
    tickSize := tickSize.getD 0
    minPrice := minPrice.getD 0
    maxPrice := maxPrice }

/-- A maximum is infinite exactly when its field is not published. -/
theorem filterNumber_none {text : Text} {filters : List (List (String × Json))} {name key : String}
    {number : Option ℚ} (read : filterNumber text filters name key none = some number) :
    number = none ↔ publishedField filters name key = none := by
  unfold filterNumber at read
  -- A published field is a number, or the parser raises.
  cases published : publishedField filters name key with
  | none =>
    rw [published] at read
    simp [(Option.some.inj read).symm]
  | some raw =>
    rw [published] at read
    obtain ⟨value, -, rfl⟩ := Option.map_eq_some_iff.mp read
    simp

/-- The maxima of the parsed filters are the published ones. -/
theorem fromExchangeInfo_maxima {text : Text} {entry : List (String × Json)} {parsed : SymbolFilters}
    (read : SymbolFilters.fromExchangeInfo text entry = some parsed) :
    ∃ filters, publishedFilters entry = some filters ∧
      (parsed.maxQty = none ↔ publishedField filters "LOT_SIZE" "maxQty" = none) ∧
      (parsed.maxPrice = none ↔ publishedField filters "PRICE_FILTER" "maxPrice" = none) := by
  unfold SymbolFilters.fromExchangeInfo at read
  simp only [Option.bind_eq_bind, Option.bind_eq_some_iff] at read
  obtain ⟨filters, listed, _, -, _, -, maxQty, quantity, _, -, _, -, _, -, maxPrice, price, same⟩ := read
  cases same
  exact ⟨filters, listed, filterNumber_none quantity, filterNumber_none price⟩

end Rasat
