import RasatTrading.Coop.Prog

/-! A program logic for cooperative programs: what a task knows limits what it may ask. -/

namespace Coop

variable {Q : Type} {R : Q → Type} {ε α β σ Ghost : Type}

/-- What a task may ask given what it knows, and what an answer teaches it. -/
structure Discipline (Q : Type) (R : Q → Type) (ε Ghost : Type) where
  /-- The requests that this knowledge permits. -/
  rule : Ghost → Q → Prop
  /-- The knowledge that a task may have after an answer. -/
  learn : Ghost → (request : Q) → Except ε (R request) → Ghost → Prop

/-- Every request is permitted when it is asked, and every outcome meets the postcondition. -/
def Safe (D : Discipline Q R ε Ghost) :
    Prog Q R ε α → Ghost → (Except ε α → Ghost → Prop) → Prop
  | .done value, ghost, post => post (.ok value) ghost
  | .fail error, ghost, post => post (.error error) ghost
  | .ask request next, ghost, post =>
    D.rule ghost request ∧
      ∀ answer learned, D.learn ghost request answer learned → Safe D (next answer) learned post

attribute [grind =] Safe

/-- A postcondition given separately for returned values and for raised errors. -/
def Outcome (value : α → Ghost → Prop) (error : ε → Ghost → Prop) :
    Except ε α → Ghost → Prop
  | .ok result, ghost => value result ghost
  | .error raised, ghost => error raised ghost

@[simp] theorem Outcome_ok {value : α → Ghost → Prop} {error : ε → Ghost → Prop} {result : α}
    {ghost : Ghost} : Outcome value error (.ok result) ghost ↔ value result ghost := Iff.rfl

@[simp] theorem Outcome_error {value : α → Ghost → Prop} {error : ε → Ghost → Prop} {raised : ε}
    {ghost : Ghost} : Outcome value error (.error raised) ghost ↔ error raised ghost := Iff.rfl

variable {D : Discipline Q R ε Ghost}

namespace Safe

variable {ghost : Ghost} {post : Except ε α → Ghost → Prop} {program : Prog Q R ε α}
  {middle : Except ε α → Ghost → Prop}

@[simp] theorem done_iff {value : α} :
    Safe D (.done value) ghost post ↔ post (.ok value) ghost := Iff.rfl

@[simp] theorem fail_iff {error : ε} :
    Safe D (.fail error) ghost post ↔ post (.error error) ghost := Iff.rfl

theorem ask_iff {request : Q} {next : Except ε (R request) → Prog Q R ε α}
    :
    Safe D (.ask request next) ghost post ↔ D.rule ghost request ∧
      ∀ answer learned, D.learn ghost request answer learned →
        Safe D (next answer) learned post := Iff.rfl

/-- A returned value needs its postcondition. -/
theorem done {value : α} (holds : post (.ok value) ghost) : Safe D (.done value) ghost post := holds

/-- A raised error needs its postcondition. -/
theorem fail {error : ε} (holds : post (.error error) ghost) : Safe D (.fail error) ghost post := holds

@[simp] theorem ofExcept_iff {outcome : Except ε α}
    :
    Safe D (Prog.ofExcept outcome) ghost post ↔ post outcome ghost := by
  cases outcome <;> rfl

/-- A weaker postcondition holds as well. -/
theorem mono {weaker : Except ε α → Ghost → Prop}
    (safe : Safe D program ghost post) (implies : ∀ outcome g, post outcome g → weaker outcome g) :
    Safe D program ghost weaker := by
  -- The program is followed answer by answer down to its outcomes.
  induction program generalizing ghost with
  | done value => exact implies _ _ safe
  | fail error => exact implies _ _ safe
  | ask request next ih =>
    exact ⟨safe.1, fun answer g learned => ih answer (safe.2 answer g learned)⟩

variable {next : α → Prog Q R ε β}

/-- Sequencing asks the first program to establish what the second one needs. -/
theorem bind_iff {post : Except ε β → Ghost → Prop} : Safe D (program.bind next) ghost post ↔
      Safe D program ghost
        (Outcome (fun value g => Safe D (next value) g post) fun error g => post (.error error) g) := by
  induction program generalizing ghost with
  | done value => rfl
  | fail error => rfl
  | ask request resume ih =>
    constructor
    · exact fun safe => ⟨safe.1, fun answer g learned => (ih answer).mp (safe.2 answer g learned)⟩
    · exact fun safe => ⟨safe.1, fun answer g learned => (ih answer).mpr (safe.2 answer g learned)⟩

/-- Sequencing from a specification of the first program. -/
theorem bind {post : Except ε β → Ghost → Prop} (first : Safe D program ghost middle)
    (value : ∀ result g, middle (.ok result) g → Safe D (next result) g post)
    (error : ∀ raised g, middle (.error raised) g → post (.error raised) g) :
    Safe D (program.bind next) ghost post := by
  rw [bind_iff]
  refine first.mono fun outcome g holds => ?_
  cases outcome with
  | ok result => exact value result g holds
  | error raised => exact error raised g holds

/-- A synchronous computation in a sequence asks nothing. -/
theorem ofExcept_then {outcome : Except ε α} {post : Except ε β → Ghost → Prop}
    (value : ∀ result, outcome = .ok result → Safe D (next result) ghost post)
    (error : ∀ raised, outcome = .error raised → post (.error raised) ghost) :
    Safe D ((Prog.ofExcept outcome).bind next) ghost post := by
  rw [bind_iff, ofExcept_iff]
  cases outcome with
  | ok result => exact value result rfl
  | error raised => exact error raised rfl

/-- Capturing the outcome turns a raised error into a returned one. -/
theorem attempt_iff {post : Except ε (Except ε α) → Ghost → Prop} :
    Safe D program.attempt ghost post ↔ Safe D program ghost fun outcome g => post (.ok outcome) g := by
  induction program generalizing ghost with
  | done value => rfl
  | fail error => rfl
  | ask request resume ih =>
    constructor
    · exact fun safe => ⟨safe.1, fun answer g learned => (ih answer).mp (safe.2 answer g learned)⟩
    · exact fun safe => ⟨safe.1, fun answer g learned => (ih answer).mpr (safe.2 answer g learned)⟩

/-- A captured outcome is passed on, whatever it is. -/
theorem attempt_bind {next : Except ε α → Prog Q R ε β} {post : Except ε β → Ghost → Prop}
    (first : Safe D program ghost middle)
    (rest : ∀ outcome g, middle outcome g → Safe D (next outcome) g post) :
    Safe D (program.attempt.bind next) ghost post := by
  rw [bind_iff, attempt_iff]
  exact first.mono rest

/-- A handled program needs its handler to be safe after every error it can raise. -/
theorem rescue {handler : ε → Prog Q R ε α} (first : Safe D program ghost middle)
    (value : ∀ result g, middle (.ok result) g → post (.ok result) g)
    (error : ∀ raised g, middle (.error raised) g → Safe D (handler raised) g post) :
    Safe D (program.rescue handler) ghost post := by
  refine attempt_bind first fun outcome g holds => ?_
  cases outcome with
  | ok result => exact value result g holds
  | error raised => exact error raised g holds

/-- A cleanup runs from every outcome, and its own error replaces that outcome. -/
theorem ensuring {cleanup : Prog Q R ε Unit} (first : Safe D program ghost middle)
    (clean : ∀ outcome g, middle outcome g →
      Safe D cleanup g (Outcome (fun _ g' => post outcome g') fun raised g' => post (.error raised) g')) :
    Safe D (program.ensuring cleanup) ghost post := by
  refine attempt_bind first fun outcome g holds => ?_
  rw [bind_iff]
  refine (clean outcome g holds).mono fun result g' kept => ?_
  cases result with
  | ok _ => exact ofExcept_iff.mpr kept
  | error raised => exact kept

/-- One request needs its permission and the postcondition after every answer. -/
theorem call_iff {request : Q} {post : Except ε (R request) → Ghost → Prop} :
    Safe D (Prog.call request) ghost post ↔
      D.rule ghost request ∧
        ∀ answer learned, D.learn ghost request answer learned → post answer learned := by
  simp [Prog.call, Safe]

/-- A loop keeps its invariant over the items still to come. -/
theorem foldlM {items : List α} {body : σ → α → Prog Q R ε σ} {start : σ}
    (invariant : List α → σ → Ghost → Prop) (error : ε → Ghost → Prop) (initial : invariant items start ghost)
    (each : ∀ item rest state g, invariant (item :: rest) state g →
      Safe D (body state item) g (Outcome (invariant rest) error)) :
    Safe D (items.foldlM body start) ghost (Outcome (invariant []) error) := by
  -- The induction follows the items, and the invariant carries the state across each body.
  induction items generalizing start ghost with
  | nil => exact initial
  | cons item rest ih =>
    rw [List.foldlM_cons, Prog.bind_eq, bind_iff]
    refine (each item rest start ghost initial).mono fun outcome g holds => ?_
    cases outcome with
    | ok state => exact ih holds
    | error raised => exact holds

end Safe

-- From here on the rules alone take programs apart; unfolding would run them.
attribute [irreducible] Safe

end Coop
