import RasatTrading.Documents

/-! The validators of numbers: `numeric`, the schema subset, and the preflight of an execution. -/

namespace Rasat.Numeric

open Rounding

/-- What `float` raises. -/
inductive FloatError
  | type | value | overflow
  deriving DecidableEq, Repr

/-- An `OverflowError` is neither a `TypeError` nor a `ValueError`. -/
def overflowError : Exc := .other "int too large to convert to float"

/-- `float` of an integer. -/
def floatOfInt (number : ℤ) : Except FloatError Double := (Double.ofInt number).elim (.error .overflow) .ok

/-- `float`, with the way in which it reads a text. -/
def float (parse : String → Option Double) : Document → Except FloatError Double
  | .null | .array _ | .object _ => .error .type
  | .bool value => floatOfInt (if value then 1 else 0)
  | .int value => floatOfInt value
  | .float value => .ok value
  | .str (.text value) => (parse value).elim (.error .value) .ok
  | .str (.broken _) => .error .value

/-- `require_finite`. -/
def requireFinite (parse : String → Option Double) (value : Document) (name : String) : Except Exc Double :=
  match value with
  | .null | .bool _ => reject .invalidRequest (name ++ " is required (number)")
  | value =>
    match float parse value with
    -- Only a `TypeError` and a `ValueError` are caught.
    | .error .overflow => .error overflowError
    | .error _ => reject .invalidRequest (name ++ " must be a number")
    | .ok num =>
      if num.extended.isFinite then .ok num
      else reject .invalidRequest (name ++ " must be a finite number")

/-- `_require_number` of the order service, which says the same. -/
def requireNumber (parse : String → Option Double) (value : Document) (name : String) : Except Exc Double :=
  requireFinite parse value name

/-- `float` of what is an `int` or a `float` and no boolean; nothing for any other value. -/
def number? : Document → Option (Except FloatError Double)
  | .int value => some (floatOfInt value)
  | .float value => some (.ok value)
  | _ => none

/-! `schema_lite`. -/

/-- The bounds of a number. -/
structure Bounds where
  minimum : Option ℤ := none
  maximum : Option ℤ := none
  exclusiveMinimum : Option ℤ := none
  exclusiveMaximum : Option ℤ := none

/-- A schema by its type; an `enum` is looked at before the type. -/
inductive Schema
  | any
  | oneOf (names : List String) (schema : Schema)
  | object (properties : List (String × Schema)) (closed : Bool) (required : List String)
  | array (items : Schema)
  | string (minLength maxLength : Option ℕ)
  | number (bounds : Bounds)
  | integer (bounds : Bounds)
  | boolean

/-- `TRANSPORT_FIELDS`. -/
def transportFields : List String := ["request_id", "idempotency_key"]

/-- `_error`, when a condition is met. -/
def refuse (condition : Bool) (path message : String) : Except Exc Unit :=
  rejectIf (condition = true) .invalidRequest (path ++ ": " ++ message)

/-- A keyword of a schema, where it is present. -/
def keyword {α : Type} (value : Option α) (check : α → Except Exc Unit) : Except Exc Unit :=
  match value with
  | none => .ok ()
  | some bound => check bound

/-- The bounds of a number, in the order in which they are looked at. -/
def checkBounds (bounds : Bounds) (num : Extended) (path : String) : Except Exc Unit := do
  keyword bounds.minimum fun bound => refuse (num.lt (.finite bound)) path ("must be at least " ++ toString bound)
  keyword bounds.maximum fun bound =>
    refuse (Extended.lt (.finite bound) num) path ("must be at most " ++ toString bound)
  keyword bounds.exclusiveMinimum fun bound =>
    refuse (num.le (.finite bound)) path ("must be greater than " ++ toString bound)
  keyword bounds.exclusiveMaximum fun bound =>
    refuse (Extended.le (.finite bound) num) path ("must be less than " ++ toString bound)

/-- Whether a document is an `int`. -/
def isInt : Document → Bool
  | .int _ => true
  | _ => false

/-- `_check_number`. -/
def checkNumber (bounds : Bounds) (integer : Bool) (value : Document) (path : String) : Except Exc Unit :=
  match number? value with
  | none => refuse true path "must be a number"
  | some (.error _) => .error overflowError
  | some (.ok num) => do
    refuse (!num.extended.isFinite) path "must be a finite number"
    refuse (integer && !isInt value) path "must be an integer"
    checkBounds bounds num.extended path

/-- `len` of a string. -/
def length : Str → ℕ
  | .text value => value.length
  | .broken codes => codes.length

/-- The length of a string. -/
def checkString (minLength maxLength : Option ℕ) (value : Str) (path : String) : Except Exc Unit := do
  keyword minLength fun bound =>
    refuse (length value < bound) path ("must be at least " ++ toString bound ++ " characters")
  keyword maxLength fun bound =>
    refuse (bound < length value) path ("must be at most " ++ toString bound ++ " characters")

/-- Whether a document is one of some texts. -/
def isOneOf (names : List String) : Document → Bool
  | .str (.text value) => value ∈ names
  | _ => false

/-- The keys that a closed object does not know. -/
def extraKeys (properties : List (String × Schema)) (members : List (Str × Document)) : List Str :=
  (members.map Prod.fst).filter fun key =>
    key ∉ properties.map (fun entry => Str.text entry.1) ∧ key ∉ transportFields.map Str.text

/-- A list of strings as it is shown. -/
def shownList (text : Text) (keys : List Str) : String := reprDocument text (.array (keys.map Document.str))

mutual

/-- `_validate`. -/
def validate (text : Text) : Schema → Document → String → Except Exc Unit
  | .any, _, _ => .ok ()
  | .oneOf names schema, value, path => do
    refuse (!isOneOf names value) path ("must be one of the valid values: " ++ shownList text (names.map Str.text))
    validate text schema value path
  | .object properties closed required, .object members, path => do
    let extra := extraKeys properties members
    refuse (closed && !extra.isEmpty) path
      ("unknown field(s): " ++ shownList text (extra.insertionSort fun left right => left.le right = true))
    validateProperties text properties members path
    required.forM fun key =>
      refuse (members.lookup (.text key)).isNone path ("missing required field: " ++ key)
  | .object _ _ _, _, path => refuse true path "must be an object"
  | .array items, .array values, path =>
    values.zipIdx.forM fun entry => validate text items entry.1 (path ++ "[" ++ toString entry.2 ++ "]")
  | .array _, _, path => refuse true path "must be an array"
  | .string minLength maxLength, .str value, path => checkString minLength maxLength value path
  | .string _ _, _, path => refuse true path "must be a string"
  | .number bounds, value, path => checkNumber bounds false value path
  | .integer bounds, value, path => checkNumber bounds true value path
  | .boolean, .bool _, _ => .ok ()
  | .boolean, _, path => refuse true path "must be a boolean"

/-- The properties that are present, in the order of the schema. -/
def validateProperties (text : Text) :
    List (String × Schema) → List (Str × Document) → String → Except Exc Unit
  | [], _, _ => .ok ()
  | (key, schema) :: rest, members, path => do
    keyword (members.lookup (.text key)) fun value => validate text schema value (path ++ "." ++ key)
    validateProperties text rest members path

end

/-- `validate_params`. -/
def validateParams (text : Text) (params : Document) (schema : Schema) : Except Exc Unit :=
  validate text schema params "params"

/-! `_validate_execution_inputs`. -/

/-- A price of an execution, where it is given. -/
def checkPrice (name : String) (value : Document) : Except Exc Unit :=
  match value with
  | .null => .ok ()
  | value =>
    match number? value with
    | none => reject .invalidRequest ("order_spec." ++ name ++ " must be a number")
    | some (.error _) => .error overflowError
    | some (.ok num) => rejectIf (¬num.extended.isFinite ∨ num.extended.le (.finite 0)) .invalidRequest
        ("order_spec." ++ name ++ " must be positive and finite")

/-- The share of the balance that an execution risks. -/
def checkRisk (value : Document) : Except Exc Unit :=
  match value with
  | .null | .bool _ => reject .invalidRequest "order_spec.risk_pct is required (for post-approval sizing)"
  | value =>
    match number? value with
    | none => reject .invalidRequest "order_spec.risk_pct must be a number"
    | some (.error _) => .error overflowError
    | some (.ok num) =>
      rejectIf (¬num.extended.isFinite ∨ ¬((Extended.finite 0).lt num.extended ∧ num.extended.le (.finite 1)))
        .invalidRequest "order_spec.risk_pct must be finite and in the (0,1] range"

/-- `_validate_execution_inputs`; the type of the order is a text or absent. -/
def validateExecutionInputs (riskPct entry stopLoss : Document) (orderType : Option String) : Except Exc Unit := do
  checkRisk riskPct
  checkPrice "entry" entry
  checkPrice "stop_loss" stopLoss
  let kind := orderType.getD ""
  rejectIf (lower (if kind = "" then "market" else kind) = "limit" ∧ entry matches .null) .invalidRequest
    "order_spec.entry is required for a limit order"

end Rasat.Numeric
