import RasatTrading.Analysis.Filters
import RasatTrading.Documents

/-! Filters as they come in: documents, their validation, and the evaluation of what was accepted. -/

namespace Rasat

open Rounding

/-- Whether a document is a positive integer. -/
def isPositiveInt : Document → Bool
  | .int value => 1 ≤ value
  | _ => false

/-! The allowlist. -/

/-- `FILTER_KEYS`. -/
def filterKeys : List (String × List String) :=
  [("volume_change", ["recent_bars", "baseline_bars", "min", "max"]),
    ("price_change", ["window_bars", "min", "max"]),
    ("structure_event", ["event", "since_bars"]),
    ("liquidity_sweep_occurred", ["since_bars"]),
    ("near_order_block", ["max_distance_pct"]),
    ("funding_rate", ["min", "max"]),
    ("oi_change", ["min", "max", "window"]),
    ("above_below_vwap", ["position"])]

/-- `EVENT_TYPES`. -/
def eventTypes : List (String × EventType) :=
  [("bos_bullish", .bosBullish), ("bos_bearish", .bosBearish), ("choch_bullish", .chochBullish),
    ("choch_bearish", .chochBearish)]

/-- The sides of the volume-weighted price by their names. -/
def positions : List (String × Position) := [("above", .above), ("below", .below)]

/-- `INT_KEYS_BY_FILTER`, with the defaults of `_defaults`. -/
def intKeysByFilter : List (String × List (String × ℕ+)) :=
  [("volume_change", [("recent_bars", 24), ("baseline_bars", 24)]),
    ("price_change", [("window_bars", 24)]),
    ("structure_event", [("since_bars", 50)]),
    ("liquidity_sweep_occurred", [("since_bars", 50)]),
    ("oi_change", [("window", 1)])]

/-- The integer keys of a type of filter. -/
def intKeys (ftype : String) : List (String × ℕ+) := (intKeysByFilter.lookup ftype).getD []

/-- `node.get(key)`. -/
def member? (members : Members) (key : String) : Option Document := members.lookup (.text key)

/-- The name behind a document in a table of names. -/
def named? {α : Type} (names : List (String × α)) : Document → Option α
  | .str (.text name) => names.lookup name
  | _ => none

/-- Membership in a set or a dictionary asks for the hash of the value. -/
def hashed : Document → Except Exc Unit
  | .array _ => .error (.other "unhashable type: 'list'")
  | .object _ => .error (.other "unhashable type: 'dict'")
  | _ => .ok ()

/-- `setdefault`. -/
def setDefault (members : Members) (entry : String × ℕ+) : Members :=
  if (member? members entry.1).isSome then members else members ++ [(.text entry.1, .int entry.2)]

/-- `_defaults`. -/
def defaults (ftype : String) (members : Members) : Document := .object ((intKeys ftype).foldl setDefault members)

/-- The keys of a node must be known; the first one that is not is named. -/
def checkKeys (known : List String) (members : Members) (message : String → String) : Except Exc Unit :=
  match members.find? fun entry => entry.1 ∉ known.map Str.text with
  | none => .ok ()
  | some (key, _) => reject .invalidRequest (message (Str.shown key))

/-- An integer key must be positive where it is present. -/
def checkInt (text : Text) (ftype : String) (members : Members) (key : String) : Except Exc Unit :=
  match member? members key with
  | none => .ok ()
  | some value => rejectIf (isPositiveInt value = false) .invalidRequest
      (ftype ++ "." ++ key ++ " must be a positive integer (given: " ++ reprDocument text value ++ ")")

/-- A threshold must be a number where it is present. -/
def checkNumber (ftype : String) (members : Members) (key : String) : Except Exc Unit :=
  match member? members key with
  | none => .ok ()
  | some value => rejectIf (numberOf value = none) .invalidRequest (ftype ++ "." ++ key ++ " must be a number")

/-- The number under a key. -/
def threshold? (members : Members) (key : String) : Option Extended := (member? members key).bind numberOf

/-- Whether the lower threshold exceeds the upper one. -/
def crossed (members : Members) : Bool :=
  match threshold? members "min", threshold? members "max" with
  | some low, some high => high.lt low
  | _, _ => false

/-- Whether a distance is a number that is not negative. -/
def isDistance (members : Members) : Bool :=
  match threshold? members "max_distance_pct" with
  | some limit => !limit.lt (.finite 0)
  | none => false

/-- The checks on the keys and numbers of a leaf. -/
def checkLeaf (text : Text) (ftype : String) (known : List String) (members : Members) : Except Exc Unit := do
  checkKeys ("type" :: known) members fun key => "unknown key in filter '" ++ ftype ++ "': " ++ key
  (intKeys ftype).forM fun entry => checkInt text ftype members entry.1
  ["min", "max"].forM (checkNumber ftype members)
  rejectIf (crossed members = true) .invalidRequest (ftype ++ ": min cannot exceed max")

/-- The check of an event, which is looked up in a set. -/
def checkEvent (text : Text) (members : Members) : Except Exc Unit := do
  let event := (member? members "event").getD .null
  hashed event
  rejectIf (named? eventTypes event = none) .invalidRequest
    ("unknown structure event: " ++ strDocument text event)

/-- A leaf of `_validate_node`. -/
def validateLeaf (text : Text) (members : Members) (ftype : Document) : Except Exc Document := do
  hashed ftype
  match ftype with
  | .str (.text kind) =>
    match filterKeys.lookup kind with
    | some known =>
      checkLeaf text kind known members
      if kind = "structure_event" then checkEvent text members
      rejectIf (kind = "above_below_vwap" ∧ ((member? members "position").bind (named? positions)) = none)
        .invalidRequest "above_below_vwap.position must be above|below"
      rejectIf (kind = "near_order_block" ∧ isDistance members = false) .invalidRequest
        "near_order_block.max_distance_pct must be a number >= 0"
      return defaults kind members
    | none => reject .invalidRequest ("unknown filter type: " ++ kind)
  | _ => reject .invalidRequest ("unknown filter type: " ++ strDocument text ftype)

/-- The types of inner nodes. -/
def innerTypes : List String := ["and", "or"]

/-- An inner node whose children have been validated, if they are a list. -/
def validateInner (ftype : String) (members : Members) (children : Option (Except Exc (List Document))) :
    Except Exc Document := do
  checkKeys ["type", "filters"] members fun key => "unknown key in " ++ ftype ++ " node: " ++ key
  match children with
  | none => reject .invalidRequest (ftype ++ " node requires at least one child filter")
  | some validated =>
    let filters ← validated
    return .object [(.text "type", .text ftype), (.text "filters", .array filters)]

mutual

/-- `_validate_node`. -/
def validateNode (text : Text) : Document → Except Exc Document
  | .object members =>
    match member? members "type" with
    | none => reject .invalidRequest "filter must be an object with a 'type' field"
    | some (.str (.text ftype)) =>
      if ftype ∈ innerTypes then validateInner ftype members (validateChildren text members)
      else validateLeaf text members (.text ftype)
    | some ftype => validateLeaf text members ftype
  | _ => reject .invalidRequest "filter must be an object with a 'type' field"

/-- The validated children of a node; absent unless they are a list that is not empty. -/
def validateChildren (text : Text) : List (Str × Document) → Option (Except Exc (List Document))
  | [] => none
  | (key, value) :: rest =>
    if key = .text "filters" then validateList text value else validateChildren text rest

def validateList (text : Text) : Document → Option (Except Exc (List Document))
  | .array (first :: rest) => some (validateNodes text (first :: rest))
  | _ => none

/-- Some nodes, up to the first that raises. -/
def validateNodes (text : Text) : List Document → Except Exc (List Document)
  | [] => .ok []
  | node :: rest => do
    let first ← validateNode text node
    let others ← validateNodes text rest
    return first :: others

end

/-- `validate_filters`. -/
def validateFilters (text : Text) (filters : Document) (combine : Option String) : Except Exc Document := do
  let combine := upper (if combine.getD "" = "" then "AND" else combine.getD "")
  rejectIf (combine ≠ "AND" ∧ combine ≠ "OR") .invalidRequest ("combine can only be AND|OR: " ++ combine)
  let items := match filters with
    | .array items => items
    | filters => if truthyDocument filters then [filters] else []
  rejectIf (items = []) .invalidRequest "at least one filter is required"
  let validated ← validateNodes text items
  return .object [(.text "type", .text (lower combine)), (.text "filters", .array validated)]

/-! The evaluation of a validated filter, which is a dictionary. -/

/-- `node[key]` without such a key. -/
def keyError (key : String) : Exc := .other ("'" ++ key ++ "'")

/-- A value of a type that an evaluation cannot use. -/
def operandError (key : String) : Exc := .other ("unsupported value under '" ++ key ++ "'")

/-- The window under a key; one that is not positive counts as an error here. -/
def windowOf (members : Members) (key : String) : Except Exc ℕ+ :=
  match member? members key with
  | none => .error (keyError key)
  | some (.int value) => if positive : 0 < value.toNat then .ok ⟨value.toNat, positive⟩ else .error (operandError key)
  | some _ => .error (operandError key)

/-- The threshold under a key, `None` when it is missing or null. -/
def thresholdOf (members : Members) (key : String) : Except Exc (Option Extended) :=
  match (member? members key).getD .null with
  | .null => .ok none
  | value =>
    match numberOf value with
    | some number => .ok (some number)
    | none => .error (operandError key)

/-- The thresholds of a leaf; crossed ones count as an error here. -/
def boundsOf (members : Members) : Except Exc Bounds := do
  let low ← thresholdOf members "min"
  let high ← thresholdOf members "max"
  if ordered : ∀ least ∈ low, ∀ most ∈ high, most.lt least = false then return ⟨low, high, ordered⟩
  else .error (operandError "min")

/-- The value behind a name under a key. -/
def nameOf {α : Type} (names : List (String × α)) (members : Members) (key : String) : Except Exc α :=
  match member? members key with
  | none => .error (keyError key)
  | some value =>
    match named? names value with
    | some found => .ok found
    | none => .error (operandError key)

/-- The distance of a leaf; a negative one counts as an error here. -/
def distanceOf (members : Members) : Except Exc Distance :=
  match threshold? members "max_distance_pct" with
  | none => .error (operandError "max_distance_pct")
  | some limit =>
    if nonneg : limit.lt (.finite 0) = false then .ok ⟨limit, nonneg⟩ else .error (operandError "max_distance_pct")

/-- What `FILTER_FNS` reads of a leaf. -/
def readLeaf (ftype : String) (members : Members) : Except Exc FilterTest :=
  match ftype with
  | "volume_change" => do
    return .volumeChange (← windowOf members "recent_bars") (← windowOf members "baseline_bars") (← boundsOf members)
  | "price_change" => do return .priceChange (← windowOf members "window_bars") (← boundsOf members)
  | "structure_event" => do
    return .structureEvent (← nameOf eventTypes members "event") (← windowOf members "since_bars")
  | "liquidity_sweep_occurred" => do return .liquiditySweepOccurred (← windowOf members "since_bars")
  | "near_order_block" => do return .nearOrderBlock (← distanceOf members)
  | "funding_rate" => do return .fundingRate (← boundsOf members)
  | "oi_change" => do return .oiChange (← windowOf members "window") (← boundsOf members)
  | "above_below_vwap" => do return .aboveBelowVwap (← nameOf positions members "position")
  | _ => .error (keyError ftype)

mutual

/-- `_eval_node` on the dictionaries of an AST. -/
def evalDocument (ctx : Context) : Document → Except Exc Bool
  | .object members =>
    match member? members "type" with
    | some (.str (.text ftype)) =>
      if ftype = "and" then evalUnder ctx true members
      else if ftype = "or" then evalUnder ctx false members
      else do (← readLeaf ftype members).eval ctx
    | some _ => .error (operandError "type")
    | none => .error (keyError "type")
  | _ => .error (operandError "type")

/-- The children of an inner node: all of them for `and`, any of them for `or`. -/
def evalUnder (ctx : Context) (conjunction : Bool) : List (Str × Document) → Except Exc Bool
  | [] => .error (keyError "filters")
  | (key, value) :: rest =>
    if key = .text "filters" then evalList ctx conjunction value else evalUnder ctx conjunction rest

def evalList (ctx : Context) (conjunction : Bool) : Document → Except Exc Bool
  | .array items => evalItems ctx conjunction items
  | _ => .error (operandError "filters")

/-- Some nodes, up to the first that decides. -/
def evalItems (ctx : Context) (conjunction : Bool) : List Document → Except Exc Bool
  | [] => .ok conjunction
  | item :: rest => do
    if (← evalDocument ctx item) = conjunction then evalItems ctx conjunction rest else return !conjunction

end

end Rasat
