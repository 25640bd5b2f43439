import RasatTrading.Analysis.Judging
import RasatTrading.Guarantees.PositionSize
import RasatTrading.Numeric

/-! The validators of numbers accept what is finite and refuse the rest, but for integers that no float can hold. -/

namespace Rasat

namespace Judges

variable {α : Type} {sound stumbles : Prop}

/-- A check raises nothing but refusals when it does not stumble. -/
theorem refusals_iff {result : Except Exc α} (judged : Judges sound stumbles result) :
    (∀ raised, result = .error raised → RequestRefused raised) ↔ ¬stumbles := by
  constructor
  · intro refusals stumbled
    obtain ⟨message, raised⟩ := judged.raised.mpr stumbled
    obtain ⟨refusal, same⟩ := refusals _ raised
    cases same
  · intro smooth raised came
    refine (judged.refused raised came).resolve_left fun ⟨message, same⟩ => smooth (judged.raised.mp ⟨message, ?_⟩)
    rw [came, same]

/-- A check with an index for each item of a list. -/
theorem forM_zipIdx {items : List α} {check : α → ℕ → Except Exc Unit} {each fails : α → Prop}
    (judged : ∀ item index, Judges (each item) (fails item) (check item index)) (start : ℕ) :
    Judges (∀ item ∈ items, each item)
      (∃ before item after, items = before ++ item :: after ∧ (∀ other ∈ before, each other) ∧ fails item)
      ((items.zipIdx start).forM fun entry => check entry.1 entry.2) := by
  induction items generalizing start with
  | nil => exact (ok ()).of_iff (by simp) (by simp)
  | cons first rest ih =>
    -- The rest is only looked at behind a first item that passes.
    have both : Judges _ _ (check first start >>= fun _ =>
        (rest.zipIdx (start + 1)).forM fun entry => check entry.1 entry.2) :=
      (judged first start).bind fun _ _ => ih (start + 1)
    exact both.of_iff (by simp) split_cons_iff.symm

end Judges

namespace Numeric

open Rounding

/-! ### Numbers -/

/-- An integer that is halfway beyond the largest float, or further. -/
def tooLarge : Document → Bool
  | .int value => 2 ^ 1024 - 2 ^ 970 ≤ |value|
  | _ => false

/-- A number of a document is finite and has an exact value as a float. -/
def FiniteValue (value : Document) (exact : ℚ) : Prop :=
  ∃ num, number? value = some (.ok num) ∧ num.extended = .finite exact

/-- An integer is turned into a finite float, or it is too large. -/
theorem floatOfInt_cases (value : ℤ) :
    (∃ num exact, floatOfInt value = .ok num ∧ num.extended = .finite exact ∧ tooLarge (.int value) = false) ∨
      floatOfInt value = .error .overflow ∧ tooLarge (.int value) = true := by
  cases found : Double.ofInt value with
  | none =>
    have large := (Double.ofInt_none_iff value).mp found
    exact .inr ⟨by rw [floatOfInt, found]; rfl, decide_eq_true large⟩
  | some num =>
    -- An integer beyond the bound has no float.
    have small : ¬ 2 ^ 1024 - 2 ^ 970 ≤ |value| := fun large => by
      rw [(Double.ofInt_none_iff value).mpr large] at found
      cases found
    refine .inl ⟨num, ?_⟩
    -- A float that is made of an integer is finite, by the shape of the result.
    obtain ⟨magnitude, -, rfl⟩ := Option.map_eq_some_iff.mp found
    exact ⟨_, by rw [floatOfInt, found]; rfl, rfl, decide_eq_false small⟩

/-- A value is no number, a number with a float, or an integer that is too large. -/
theorem number?_cases (value : Document) :
    (number? value = none ∧ tooLarge value = false) ∨
      (∃ num, number? value = some (.ok num) ∧ tooLarge value = false) ∨
        number? value = some (.error .overflow) ∧ tooLarge value = true := by
  cases value with
  | int value =>
    rcases floatOfInt_cases value with ⟨num, exact, made, -, small⟩ | ⟨raised, large⟩
    · exact .inr (.inl ⟨num, congrArg some made, small⟩)
    · exact .inr (.inr ⟨congrArg some raised, large⟩)
  | float value => exact .inr (.inl ⟨value, rfl, rfl⟩)
  | null | bool _ | str _ | array _ | object _ => exact .inl ⟨rfl, rfl⟩

/-- `math.isfinite` tells whether a float has an exact value. -/
theorem isFinite_iff {num : Double} : num.extended.isFinite = true ↔ ∃ exact, num.extended = .finite exact := by
  cases num <;> simp [Double.extended, Extended.isFinite]

/-- A finite value is the one of the float that was made. -/
theorem finiteValue_iff {value : Document} {num : Double} {exact : ℚ} (made : number? value = some (.ok num)) :
    FiniteValue value exact ↔ num.extended = .finite exact := by
  simp [FiniteValue, made]

/-! ### The schema validator -/

/-- A number within its bounds. -/
structure Bounds.Admits (bounds : Bounds) (exact : ℚ) : Prop where
  minimum : ∀ bound ∈ bounds.minimum, (bound : ℚ) ≤ exact
  maximum : ∀ bound ∈ bounds.maximum, exact ≤ bound
  exclusiveMinimum : ∀ bound ∈ bounds.exclusiveMinimum, (bound : ℚ) < exact
  exclusiveMaximum : ∀ bound ∈ bounds.exclusiveMaximum, exact < bound

/-- A string with a length within its bounds. -/
def Fits (minLength maxLength : Option ℕ) (value : Str) : Prop :=
  (∀ bound ∈ minLength, bound ≤ length value) ∧ ∀ bound ∈ maxLength, length value ≤ bound

mutual

/-- The values that a schema describes; where it asks for a number, there is a finite float. -/
def Conforms : Schema → Document → Prop
  | .any, _ => True
  | .oneOf names schema, value => isOneOf names value = true ∧ Conforms schema value
  | .object properties closed required, .object members =>
    (closed = true → extraKeys properties members = []) ∧ ConformsEach properties members ∧
      ∀ key ∈ required, (members.lookup (.text key)).isSome = true
  | .array items, .array values => ∀ value ∈ values, Conforms items value
  | .string minLength maxLength, .str value => Fits minLength maxLength value
  | .number bounds, value => ∃ exact, FiniteValue value exact ∧ bounds.Admits exact
  | .integer bounds, value => isInt value = true ∧ ∃ exact, FiniteValue value exact ∧ bounds.Admits exact
  | .boolean, .bool _ => True
  | _, _ => False

/-- The properties that are present conform. -/
def ConformsEach : List (String × Schema) → List (Str × Document) → Prop
  | [], _ => True
  | (key, schema) :: rest, members =>
    (∀ value ∈ members.lookup (.text key), Conforms schema value) ∧ ConformsEach rest members

end

mutual

/-- An integer that is too large stands where the schema asks for a number, and everything that is looked at before it
conforms. -/
def Overflows : Schema → Document → Prop
  | .oneOf names schema, value => isOneOf names value = true ∧ Overflows schema value
  | .object properties closed _, .object members =>
    (closed = true → extraKeys properties members = []) ∧ OverflowsSome properties members
  | .array items, .array values => ∃ before value after, values = before ++ value :: after ∧
      (∀ other ∈ before, Conforms items other) ∧ Overflows items value
  | .number _, value => tooLarge value = true
  | .integer _, value => tooLarge value = true
  | _, _ => False

/-- A property overflows, and those that are present before it conform. -/
def OverflowsSome : List (String × Schema) → List (Str × Document) → Prop
  | [], _ => False
  | (key, schema) :: rest, members =>
    (∃ value ∈ members.lookup (.text key), Overflows schema value) ∨
      (∀ value ∈ members.lookup (.text key), Conforms schema value) ∧ OverflowsSome rest members

end

/-- A condition that is refused never stumbles. -/
theorem refuse_judges (condition : Bool) (path message : String) :
    Judges (condition = false) False (refuse condition path message) :=
  (Judges.rejectIf _ _).of_iff (by simp) Iff.rfl

/-- A keyword is looked at where it is present. -/
theorem keyword_judges {α : Type} (value : Option α) (check : α → Except Exc Unit) {each fails : α → Prop}
    (judged : ∀ bound, Judges (each bound) (fails bound) (check bound)) :
    Judges (∀ bound ∈ value, each bound) (∃ bound ∈ value, fails bound) (keyword value check) := by
  cases value with
  | none => exact (Judges.ok ()).of_iff (by simp) (by simp)
  | some bound => exact (judged bound).of_iff (by simp) (by simp)

/-- A bound is looked at where it is present, and it never stumbles. -/
theorem bound_judges {α : Type} (value : Option α) (each : α → Prop) (condition : α → Bool) (path : String)
    (message : α → String) (same : ∀ bound, condition bound = false ↔ each bound) :
    Judges (∀ bound ∈ value, each bound) False
      (keyword value fun bound => refuse (condition bound) path (message bound)) :=
  (keyword_judges value _ fun bound => (refuse_judges _ _ _).of_iff (same bound) Iff.rfl).of_iff Iff.rfl (by simp)

/-- The bounds of a finite number are looked at without stumbling. -/
theorem checkBounds_judges (bounds : Bounds) (exact : ℚ) (path : String) :
    Judges (bounds.Admits exact) False (checkBounds bounds (.finite exact) path) := by
  have minimum := bound_judges bounds.minimum (fun bound : ℤ => (bound : ℚ) ≤ exact)
    (fun bound => (Extended.finite exact).lt (.finite bound)) path
    (fun bound => "must be at least " ++ toString bound) (by simp [Extended.lt])
  have maximum := bound_judges bounds.maximum (fun bound : ℤ => exact ≤ bound)
    (fun bound => Extended.lt (.finite bound) (.finite exact)) path
    (fun bound => "must be at most " ++ toString bound) (by simp [Extended.lt])
  have above := bound_judges bounds.exclusiveMinimum (fun bound : ℤ => (bound : ℚ) < exact)
    (fun bound => (Extended.finite exact).le (.finite bound)) path
    (fun bound => "must be greater than " ++ toString bound) (by simp [Extended.le])
  have below := bound_judges bounds.exclusiveMaximum (fun bound : ℤ => exact < bound)
    (fun bound => Extended.le (.finite bound) (.finite exact)) path
    (fun bound => "must be less than " ++ toString bound) (by simp [Extended.le])
  -- The bounds are looked at one after the other, and none of them stumbles.
  refine (minimum.andThen fun _ _ => maximum.andThen fun _ _ => above.andThen fun _ _ => below).of_iff ?_ Iff.rfl
  constructor
  · rintro ⟨least, most, beyond, under⟩
    exact ⟨least, most, beyond, under⟩
  · exact fun admits => ⟨admits.minimum, admits.maximum, admits.exclusiveMinimum, admits.exclusiveMaximum⟩

/-- A check that raises an overflow error stumbles. -/
theorem overflow_judges {sound : Prop} (unsound : ¬sound) :
    Judges sound True (.error overflowError : Except Exc Unit) :=
  ⟨by simp [unsound], by simp [overflowError],
    fun exc came => .inl ⟨"int too large to convert to float", (Except.error.inj came).symm⟩⟩

/-- A number is judged by its float. -/
theorem checkNumber_judges (bounds : Bounds) (integer : Bool) (value : Document) (path : String) :
    Judges ((integer = true → isInt value = true) ∧ ∃ exact, FiniteValue value exact ∧ bounds.Admits exact)
      (tooLarge value = true) (checkNumber bounds integer value path) := by
  unfold checkNumber
  rcases number?_cases value with ⟨none, small⟩ | ⟨num, made, small⟩ | ⟨raised, large⟩
  · rw [none]
    exact (refuse_judges _ _ _).of_iff (by simp [FiniteValue, none]) (by simp [small])
  · rw [made]
    dsimp only
    by_cases finite : num.extended.isFinite = true
    · obtain ⟨exact, valued⟩ := isFinite_iff.mp finite
      rw [valued]
      refine ((refuse_judges _ _ _).andThen fun _ _ => (refuse_judges _ _ _).andThen fun _ _ =>
        checkBounds_judges bounds exact path).of_iff ?_ (by simp [small])
      simp only [finiteValue_iff made, valued, Extended.finite.injEq, exists_eq_left']
      cases integer <;> simp [Extended.isFinite]
    · -- NaN and the infinities are refused before anything is compared.
      have unvalued : ¬ ∃ exact, FiniteValue value exact ∧ bounds.Admits exact := fun ⟨exact, valued, _⟩ =>
        finite (isFinite_iff.mpr ⟨exact, (finiteValue_iff made).mp valued⟩)
      have refused : refuse (!num.extended.isFinite) path "must be a finite number" =
          Rasat.reject .invalidRequest (path ++ ": " ++ "must be a finite number") := by
        simp [refuse, rejectIf, finite]
      rw [refused]
      exact (Judges.reject (α := Unit) _).of_iff (by simp [unvalued]) (by simp [small])
  · rw [raised]
    dsimp only
    exact (overflow_judges (by simp [FiniteValue, raised])).of_iff Iff.rfl (by simp [large])

/-- The length of a string is looked at without stumbling. -/
theorem checkString_judges (minLength maxLength : Option ℕ) (value : Str) (path : String) :
    Judges (Fits minLength maxLength value) False (checkString minLength maxLength value path) := by
  -- The shortest length is looked at before the longest.
  have long := bound_judges minLength (fun bound : ℕ => bound ≤ length value)
    (fun bound => decide (length value < bound)) path
    (fun bound => "must be at least " ++ toString bound ++ " characters") (by simp)
  have short := bound_judges maxLength (fun bound : ℕ => length value ≤ bound)
    (fun bound => decide (bound < length value)) path
    (fun bound => "must be at most " ++ toString bound ++ " characters") (by simp)
  exact long.andThen fun _ _ => short

/-- A refusal without a condition. -/
theorem refuse_true (path message : String) : Judges False False (refuse true path message) :=
  (refuse_judges true path message).of_iff (by simp) Iff.rfl

mutual

/-- The schema validator accepts what conforms, and stumbles on the integers that are too large. -/
theorem validate_judges (text : Text) : ∀ (schema : Schema) (value : Document) (path : String),
    Judges (Conforms schema value) (Overflows schema value) (validate text schema value path)
  | .any, value, path => (Judges.ok ()).of_iff (by simp [Conforms]) (by simp [Overflows])
  | .oneOf names schema, value, path => by
    refine ((refuse_judges _ _ _).bind fun _ _ => validate_judges text schema value path).of_iff ?_ ?_
    · simp [Conforms]
    · simp [Overflows]
  | .object properties closed required, value, path => by
    cases value with
    | object members =>
      have needed : Judges (∀ key ∈ required, (members.lookup (.text key)).isSome = true) False
          (required.forM fun key =>
            refuse (members.lookup (.text key)).isNone path ("missing required field: " ++ key)) :=
        Judges.forM fun key => (refuse_judges _ _ _).of_iff (by simp) Iff.rfl
      refine ((refuse_judges _ _ _).bind fun _ _ => (validateProperties_judges text properties members path).bind
        fun _ _ => needed).of_iff ?_ ?_
      · cases closed <;> simp [Conforms]
      · cases closed <;> simp [Overflows]
    | null | bool _ | int _ | float _ | str _ | array _ =>
      exact (refuse_true _ _).of_iff (by simp [Conforms]) (by simp [Overflows])
  | .array items, value, path => by
    cases value with
    | array values =>
      have each : Judges (∀ value ∈ values, Conforms items value) _ ((values.zipIdx 0).forM fun entry =>
          validate text items entry.1 (path ++ "[" ++ toString entry.2 ++ "]")) :=
        Judges.forM_zipIdx (fun value index =>
          validate_judges text items value (path ++ "[" ++ toString index ++ "]")) 0
      exact each.of_iff (by simp [Conforms]) (by simp [Overflows])
    | null | bool _ | int _ | float _ | str _ | object _ =>
      exact (refuse_true _ _).of_iff (by simp [Conforms]) (by simp [Overflows])
  | .string minLength maxLength, value, path => by
    cases value with
    | str value =>
      exact (checkString_judges minLength maxLength value path).of_iff (by simp [Conforms]) (by simp [Overflows])
    | null | bool _ | int _ | float _ | array _ | object _ =>
      exact (refuse_true _ _).of_iff (by simp [Conforms]) (by simp [Overflows])
  | .number bounds, value, path =>
    (checkNumber_judges bounds false value path).of_iff (by simp [Conforms]) (by simp [Overflows])
  | .integer bounds, value, path =>
    (checkNumber_judges bounds true value path).of_iff (by simp [Conforms]) (by simp [Overflows])
  | .boolean, value, path => by
    cases value with
    | bool value => exact (Judges.ok ()).of_iff (by simp [Conforms]) (by simp [Overflows])
    | null | int _ | float _ | str _ | array _ | object _ =>
      exact (refuse_true _ _).of_iff (by simp [Conforms]) (by simp [Overflows])

/-- The properties are judged in the order of the schema, each where it is present. -/
theorem validateProperties_judges (text : Text) :
    ∀ (properties : List (String × Schema)) (members : List (Str × Document)) (path : String),
      Judges (ConformsEach properties members) (OverflowsSome properties members)
        (validateProperties text properties members path)
  | [], members, path => (Judges.ok ()).of_iff (by simp [ConformsEach]) (by simp [OverflowsSome])
  | (key, schema) :: rest, members, path => by
    have first := keyword_judges (members.lookup (.text key))
      (fun value => validate text schema value (path ++ "." ++ key))
      fun value => validate_judges text schema value (path ++ "." ++ key)
    refine (first.bind fun _ _ => validateProperties_judges text rest members path).of_iff ?_ ?_
    · simp [ConformsEach]
    · simp [OverflowsSome]

end

/-! ### The other validators -/

/-- Whether a float is finite. -/
def IsFinite (num : Double) : Prop := ∃ exact, num.extended = .finite exact

/-- A validator accepts, with what is to be found then, or refuses the request; it raises nothing else. -/
structure Total {α : Type} (sound : α → Prop) (result : Except Exc α) : Prop where
  accepts : ∀ value, result = .ok value → sound value
  refuses : ∀ raised, result = .error raised → RequestRefused raised

/-- A check that never returns a value of its own is total when it does not stumble. -/
theorem total_iff {sound stumbles : Prop} {result : Except Exc Unit} (judged : Judges sound stumbles result) :
    Total (fun _ => sound) result ↔ ¬stumbles :=
  ⟨fun total => judged.refusals_iff.mp total.refuses,
    fun smooth => ⟨fun value passed => judged.accepted.mp ⟨value, passed⟩, judged.refusals_iff.mpr smooth⟩⟩

/-- A check has only one value to return. -/
theorem ok_unit_iff {result : Except Exc Unit} : (∃ value, result = .ok value) ↔ result = .ok () :=
  ⟨fun ⟨_, passed⟩ => passed, fun passed => ⟨(), passed⟩⟩

/-- A refusal is total. -/
theorem total_reject {α : Type} (sound : α → Prop) (message : String) :
    Total sound (Rasat.reject .invalidRequest message) := by
  refine ⟨fun value passed => ?_, fun raised came => ⟨message, (Except.error.inj came).symm⟩⟩
  cases passed

/-- Returning a float is total when it is finite, and the validators check that it is. -/
theorem total_finite (num : Double) (message : String) :
    Total IsFinite (if num.extended.isFinite then .ok num else Rasat.reject .invalidRequest message) := by
  by_cases finite : num.extended.isFinite = true
  · rw [if_pos finite]
    refine ⟨fun value passed => ?_, fun raised came => by cases came⟩
    cases passed
    exact isFinite_iff.mp finite
  · rw [if_neg finite]
    exact total_reject _ _

/-- `require_finite` is total but for the integers that are too large. -/
theorem requireFinite_total_iff (parse : String → Option Double) (value : Document) (name : String) :
    Total IsFinite (requireFinite parse value name) ↔ tooLarge value = false := by
  cases value with
  | null | bool _ => exact iff_of_true (total_reject _ _) rfl
  | array _ | object _ => exact iff_of_true (total_reject _ _) rfl
  | float num => exact iff_of_true (total_finite num _) rfl
  | str content =>
    refine iff_of_true ?_ rfl
    cases content with
    | broken codes => exact total_reject _ _
    | text content =>
      simp only [requireFinite, float]
      cases parse content with
      | none => exact total_reject _ _
      | some num => exact total_finite num _
  -- Of all values only an integer can overflow.
  | int number =>
    simp only [requireFinite, float]
    rcases floatOfInt_cases number with ⟨num, exact, made, -, small⟩ | ⟨raised, large⟩
    · rw [made]
      exact iff_of_true (total_finite num _) small
    · rw [raised, large]
      refine iff_of_false (fun total => ?_) (by simp)
      obtain ⟨message, same⟩ := total.refuses overflowError rfl
      cases same

/-- A share of the balance. -/
def RiskFits (risk : Document) : Prop := ∃ exact, FiniteValue risk exact ∧ 0 < exact ∧ exact ≤ 1

/-- A price, or none. -/
def PriceFits (price : Document) : Prop := price = .null ∨ ∃ exact, FiniteValue price exact ∧ 0 < exact

/-- The share of the balance is judged by its float. -/
theorem checkRisk_judges (risk : Document) : Judges (RiskFits risk) (tooLarge risk = true) (checkRisk risk) := by
  -- A value that is no number is refused, with one message or the other.
  have valueless (none : number? risk = none) (small : tooLarge risk = false) (message : String) :
      Judges (RiskFits risk) (tooLarge risk = true) (Rasat.reject .invalidRequest message : Except Exc Unit) :=
    (Judges.reject message).of_iff (by simp [RiskFits, FiniteValue, none]) (by simp [small])
  rcases number?_cases risk with ⟨none, small⟩ | ⟨num, made, small⟩ | ⟨raised, large⟩
  · cases risk with
    | null | bool _ | str _ | array _ | object _ => exact valueless none small _
    | int _ | float _ => cases none
  · have checked : checkRisk risk = rejectIf
        (¬num.extended.isFinite ∨ ¬((Extended.finite 0).lt num.extended ∧ num.extended.le (.finite 1)))
          .invalidRequest "order_spec.risk_pct must be finite and in the (0,1] range" := by
      cases risk with
      | int _ | float _ => simp only [checkRisk, made]
      | null | bool _ | str _ | array _ | object _ => cases made
    rw [checked]
    -- The one condition of the source covers NaN, the infinities and the range.
    refine (Judges.rejectIf _ _).of_iff ?_ (by simp [small])
    simp only [RiskFits, finiteValue_iff made]
    cases num.extended <;> simp [Extended.isFinite, Extended.lt, Extended.le]
  · have checked : checkRisk risk = .error overflowError := by
      cases risk with
      | int _ | float _ => simp only [checkRisk, raised]
      | null | bool _ | str _ | array _ | object _ => cases raised
    rw [checked]
    exact (overflow_judges (by simp [RiskFits, FiniteValue, raised])).of_iff Iff.rfl (by simp [large])

/-- A price is judged by its float where it is given. -/
theorem checkPrice_judges (name : String) (price : Document) :
    Judges (PriceFits price) (tooLarge price = true) (checkPrice name price) := by
  by_cases absent : price = .null
  · -- A price that is left out passes.
    subst absent
    exact (Judges.ok ()).of_iff (by simp [PriceFits]) (by simp [tooLarge])
  rcases number?_cases price with ⟨none, small⟩ | ⟨num, made, small⟩ | ⟨raised, large⟩
  · have refused : checkPrice name price =
        Rasat.reject .invalidRequest ("order_spec." ++ name ++ " must be a number") := by
      cases price with
      | bool _ | str _ | array _ | object _ => rfl
      | null => exact absurd rfl absent
      | int _ | float _ => cases none
    rw [refused]
    exact (Judges.reject _).of_iff (by simp [PriceFits, FiniteValue, absent, none]) (by simp [small])
  · have checked : checkPrice name price = rejectIf (¬num.extended.isFinite ∨ num.extended.le (.finite 0))
        .invalidRequest ("order_spec." ++ name ++ " must be positive and finite") := by
      cases price with
      | int _ | float _ => simp only [checkPrice, made]
      | null | bool _ | str _ | array _ | object _ => cases made
    rw [checked]
    -- Its one condition covers NaN, the infinities and what is not positive.
    refine (Judges.rejectIf _ _).of_iff ?_ (by simp [small])
    simp only [PriceFits, absent, false_or, finiteValue_iff made]
    cases num.extended <;> simp [Extended.isFinite, Extended.le]
  · have overflowed : checkPrice name price = .error overflowError := by
      cases price with
      | int _ | float _ => simp only [checkPrice, raised]
      | null | bool _ | str _ | array _ | object _ => cases raised
    rw [overflowed]
    exact (overflow_judges (by simp [PriceFits, FiniteValue, absent, raised])).of_iff Iff.rfl (by simp [large])

/-- The inputs of an execution that are accepted. -/
structure ExecutionConforms (riskPct entry stopLoss : Document) (orderType : Option String) : Prop where
  share : RiskFits riskPct
  price : PriceFits entry
  stop : PriceFits stopLoss
  given : lower (if orderType.getD "" = "" then "market" else orderType.getD "") = "limit" → entry ≠ .null

/-- An integer that is too large is looked at, since what is looked at before it is accepted. -/
def ExecutionOverflows (riskPct entry stopLoss : Document) : Prop :=
  tooLarge riskPct = true ∨ RiskFits riskPct ∧
    (tooLarge entry = true ∨ PriceFits entry ∧ tooLarge stopLoss = true)

/-- The preflight of an execution looks at the share, the two prices and the kind of the order, in this order. -/
theorem validateExecutionInputs_judges (riskPct entry stopLoss : Document) (orderType : Option String) :
    Judges (ExecutionConforms riskPct entry stopLoss orderType) (ExecutionOverflows riskPct entry stopLoss)
      (validateExecutionInputs riskPct entry stopLoss orderType) := by
  refine ((checkRisk_judges riskPct).bind fun _ _ => (checkPrice_judges "entry" entry).bind fun _ _ =>
    (checkPrice_judges "stop_loss" stopLoss).andThen fun _ _ => Judges.rejectIf _ _).of_iff ?_ Iff.rfl
  -- The last check of the source asks for `entry is None`, which only `null` is.
  constructor
  · rintro ⟨risk, priced, stop, given⟩
    refine ⟨risk, priced, stop, fun limit absent => given ⟨limit, ?_⟩⟩
    subst absent
    rfl
  · rintro ⟨risk, priced, stop, given⟩
    refine ⟨risk, priced, stop, fun ⟨limit, absent⟩ => given limit ?_⟩
    cases entry with
    | null => rfl
    | bool _ | int _ | float _ | str _ | array _ | object _ => cases absent

/-! ### The arguments of the order service -/

/-- The number that a finite double is. -/
def exactOf (num : Double) : ℚ := if let .finite exact := num.extended then exact else 0

/-- A double as an argument. -/
def argOfDouble (num : Double) : Arg := if num.extended.isFinite then .number (exactOf num) else .nonFinite

/-- A document as an argument of the order service. -/
def argOf : Document → Arg
  | .null => .absent
  | .bool value => .bool value
  | .int value => (Double.ofInt value).elim .hugeInt argOfDouble
  | .float value => argOfDouble value
  | .str (.text value) => .text value
  | .str (.broken _) | .array _ | .object _ => .container

/-- The order service reads the same number from it, or raises the same. -/
theorem requireNumber_argOf (text : Text) (parse : String → Option Double) (value : Document) (name : String)
    (reads : ∀ s, text.parseFloat s =
      (parse s).map fun num => if num.extended.isFinite then some (exactOf num) else none) :
    Rasat.requireNumber text (argOf value) name = (requireNumber parse value name).map exactOf := by
  have double (num : Double) : Rasat.requireNumber text (argOfDouble num) name =
      (if num.extended.isFinite then .ok num
        else reject .invalidRequest (name ++ " must be a finite number") : Except Exc Double).map exactOf := by
    unfold argOfDouble
    split <;> rfl
  cases value with
  | null | bool | array | object => rfl
  | float num => exact double num
  | int number =>
    simp only [argOf, requireNumber, requireFinite, float, floatOfInt]
    cases Double.ofInt number with
    | none => rfl
    | some num => exact double num
  | str content =>
    cases content with
    | broken codes => rfl
    | text written =>
      simp only [argOf, Rasat.requireNumber, requireNumber, requireFinite, float, reads]
      cases parse written with
      | none => rfl
      | some num => cases finite : num.extended.isFinite <;> simp [finite, reject, Except.map]

/-! ### All of them -/

/-- The validators agree on which numbers are finite; the preflight of an execution asks for positive ones. -/
structure Agree (text : Text) (parse : String → Option Double) (value : Document) (name : String) : Prop where
  finite : (∃ num, requireFinite parse value name = .ok num) ↔ ∃ exact, FiniteValue value exact
  number : (∃ num, requireNumber parse value name = .ok num) ↔ ∃ exact, FiniteValue value exact
  schema : validateParams text value (.number {}) = .ok () ↔ ∃ exact, FiniteValue value exact
  execution : ∀ risk, RiskFits risk →
    (validateExecutionInputs risk value .null none = .ok () ↔ ∃ exact, FiniteValue value exact ∧ 0 < exact)

/-- A number is accepted by `require_finite` exactly when it is finite. -/
theorem requireFinite_ok_iff (parse : String → Option Double) (value : Document) (name : String)
    (numeric : (number? value).isSome = true) :
    (∃ num, requireFinite parse value name = .ok num) ↔ ∃ exact, FiniteValue value exact := by
  rcases number?_cases value with ⟨none, -⟩ | ⟨num, made, -⟩ | ⟨raised, -⟩
  · rw [none] at numeric
    cases numeric
  · have checked : requireFinite parse value name = if num.extended.isFinite then .ok num
        else Rasat.reject .invalidRequest (name ++ " must be a finite number") := by
      cases value with
      | float content =>
        obtain rfl : content = num := Except.ok.inj (Option.some.inj made)
        rfl
      | int number =>
        have held : floatOfInt number = .ok num := Option.some.inj made
        simp only [requireFinite, float, held]
      | null | bool _ | str _ | array _ | object _ => cases made
    rw [checked]
    simp only [finiteValue_iff made]
    rw [← isFinite_iff]
    by_cases finite : num.extended.isFinite = true <;> simp [finite, Rasat.reject]
  · have overflowed : requireFinite parse value name = .error overflowError := by
      cases value with
      | int number =>
        have held : floatOfInt number = .error .overflow := Option.some.inj raised
        simp only [requireFinite, float, held]
      | float _ => cases raised
      | null | bool _ | str _ | array _ | object _ => cases raised
    rw [overflowed]
    simp [FiniteValue, raised]

/-- The validators always agree on the numbers of a document. -/
theorem agree (text : Text) (parse : String → Option Double) (value : Document) (name : String)
    (numeric : (number? value).isSome = true) : Agree text parse value name := by
  refine ⟨requireFinite_ok_iff parse value name numeric, requireFinite_ok_iff parse value name numeric, ?_, ?_⟩
  · have judged := (validate_judges text (.number {}) value "params").accepted
    rw [ok_unit_iff] at judged
    rw [validateParams, judged]
    -- A schema without bounds asks for a finite number only.
    simp only [Conforms]
    refine exists_congr fun exact => and_iff_left ⟨?_, ?_, ?_, ?_⟩ <;> simp
  · intro risk fits
    have judged := (validateExecutionInputs_judges risk value .null none).accepted
    rw [ok_unit_iff] at judged
    rw [judged]
    have given : value ≠ .null := fun absent => by
      rw [absent] at numeric
      cases numeric
    constructor
    · intro conforms
      exact conforms.price.resolve_left given
    · intro priced
      exact ⟨fits, .inr priced, .inl rfl, fun _ => given⟩

/-- For all documents, schemas and texts: the four validators accept what is finite or refuse the request, and agree on
the numbers that are finite, exactly when none of them comes to an integer that no float can hold. -/
theorem numeric_validation_total_iff (text : Text) (parse : String → Option Double) (schema : Schema)
    (params value : Document) (name : String) (riskPct entry stopLoss : Document) (orderType : Option String) :
    (Total (fun _ => Conforms schema params) (validateParams text params schema) ∧
      Total IsFinite (requireFinite parse value name) ∧ Total IsFinite (requireNumber parse value name) ∧
      Total (fun _ => ExecutionConforms riskPct entry stopLoss orderType)
        (validateExecutionInputs riskPct entry stopLoss orderType) ∧
      ((number? value).isSome = true → Agree text parse value name)) ↔
    ¬Overflows schema params ∧ tooLarge value = false ∧ ¬ExecutionOverflows riskPct entry stopLoss := by
  have described := total_iff (validate_judges text schema params "params")
  have execution := total_iff (validateExecutionInputs_judges riskPct entry stopLoss orderType)
  -- Each validator is total exactly when it does not come to such an integer.
  rw [validateParams, described, execution, requireNumber, requireFinite_total_iff]
  constructor
  · rintro ⟨smooth, small, -, within, -⟩
    exact ⟨smooth, small, within⟩
  · rintro ⟨smooth, small, within⟩
    exact ⟨smooth, small, small, within, agree text parse value name⟩

/-- A quantity that is written as a one and four hundred zeros. -/
def hugeQuantity : ℤ := 10 ^ 400

/-- No float is near enough to it. -/
theorem floatOfInt_hugeQuantity : floatOfInt hugeQuantity = .error .overflow := by
  -- The power of ten is compared with the bound by evaluation.
  have large : (2 : ℤ) ^ 1024 - 2 ^ 970 ≤ |hugeQuantity| := by
    decide +kernel
  rw [floatOfInt, (Double.ofInt_none_iff hugeQuantity).mpr large]
  rfl

/-- With it as a quantity, a price or a share, all four validators raise an `OverflowError`. -/
theorem hugeQuantity_overflows :
    validateParams SizingInput.bareText (.object [(.text "quantity", .int hugeQuantity)])
        (.object [("quantity", .number { exclusiveMinimum := some 0 })] true ["quantity"]) = .error overflowError ∧
      requireFinite (fun _ => none) (.int hugeQuantity) "entry" = .error overflowError ∧
      requireNumber (fun _ => none) (.int hugeQuantity) "quantity" = .error overflowError ∧
      validateExecutionInputs (.int hugeQuantity) .null .null none = .error overflowError := by
  have raised : number? (.int hugeQuantity) = some (.error .overflow) := congrArg some floatOfInt_hugeQuantity
  refine ⟨?_, ?_, ?_, ?_⟩
  · have member : [(Str.text "quantity", Document.int hugeQuantity)].lookup (.text "quantity") =
        some (.int hugeQuantity) := rfl
    simp [validateParams, validate, validateProperties, extraKeys, refuse, rejectIf, keyword, checkNumber, raised,
      member]
    rfl
  · simp only [requireFinite, float, floatOfInt_hugeQuantity]
  · simp only [requireNumber, requireFinite, float, floatOfInt_hugeQuantity]
  · simp only [validateExecutionInputs, checkRisk, raised]
    rfl

end Numeric

end Rasat
