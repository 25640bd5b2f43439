import RasatTrading.Coop.Logic

/-! Programs whose own state survives their errors, as the attributes of an object do. -/

namespace Coop

variable {Q : Type} {R : Q → Type} {ε α β σ Ghost : Type}

/-- A program that goes from state to state and comes to an outcome and a last state. -/
def Keeping (Q : Type) (R : Q → Type) (ε σ α : Type) : Type := σ → Prog Q R ε (Except ε α × σ)

variable {program : Keeping Q R ε σ α}

namespace Keeping

instance : Monad (Keeping Q R ε σ) where
  pure value := fun state => .done (.ok value, state)
  bind first next := fun state => (first state).bind fun
    | (.ok value, after) => next value after
    | (.error error, after) => .done (.error error, after)

/-- Ask one request. -/
def ask (request : Q) : Keeping Q R ε σ (R request) := fun state =>
  (Prog.call request).attempt.bind fun answer => .done (answer, state)

/-- Raise an error. -/
def raise (error : ε) : Keeping Q R ε σ α := fun state => .done (.error error, state)

/-- Read the state. -/
def get : Keeping Q R ε σ σ := fun state => .done (.ok state, state)

/-- Change the state. -/
def modify (change : σ → σ) : Keeping Q R ε σ Unit := fun state => .done (.ok (), change state)

/-- Handle an error in the state in which it was raised. -/
def rescue (program : Keeping Q R ε σ α) (handler : ε → Keeping Q R ε σ α) : Keeping Q R ε σ α := fun state =>
  (program state).bind fun
    | (.ok value, after) => .done (.ok value, after)
    | (.error error, after) => handler error after

/-- What remains of an outcome after a cleanup: an error of the cleanup replaces it. -/
def remains (outcome : Except ε α) : Except ε Unit → Except ε α
  | .ok _ => outcome
  | .error error => .error error

/-- Run a cleanup on every outcome. -/
def lastly (program : Keeping Q R ε σ α) (cleanup : Keeping Q R ε σ Unit) : Keeping Q R ε σ α := fun state =>
  (program state).bind fun (outcome, after) => (cleanup after).bind fun (ended, last) =>
    .done (remains outcome ended, last)

/-- From a state and some knowledge, every request is permitted and every outcome meets the postcondition. -/
def Sure (D : Discipline Q R ε Ghost) (program : Keeping Q R ε σ α) (state : σ) (ghost : Ghost)
    (post : Except ε α → σ → Ghost → Prop) : Prop :=
  Safe D (program state) ghost (Outcome (fun result g => post result.1 result.2 g) fun _ _ => False)

variable {D : Discipline Q R ε Ghost} {state : σ} {ghost : Ghost}

variable {post middle : Except ε α → σ → Ghost → Prop}

/-- What is sure of some outcomes is sure of more. -/
theorem Sure.mono {weaker : Except ε α → σ → Ghost → Prop} (sure : Sure D program state ghost post)
    (implies : ∀ outcome after g, post outcome after g → weaker outcome after g) :
    Sure D program state ghost weaker := by
  refine Safe.mono sure fun outcome g holds => ?_
  cases outcome with
  | ok result => exact implies result.1 result.2 g holds
  | error raised => exact holds

theorem sure_pure {value : α} (holds : post (.ok value) state ghost) :
    Sure D (pure value) state ghost post := Safe.done_iff.mpr holds

theorem sure_raise {error : ε} (holds : post (.error error) state ghost) :
    Sure D (raise error) state ghost post := Safe.done_iff.mpr holds

theorem sure_modify {change : σ → σ} {post : Except ε Unit → σ → Ghost → Prop}
    (holds : post (.ok ()) (change state) ghost) : Sure D (modify change) state ghost post :=
  Safe.done_iff.mpr holds

/-- A sequence is sure of what its second part is sure of, after every value and error of the first one. -/
theorem Sure.bind {first : Keeping Q R ε σ α} {next : α → Keeping Q R ε σ β}
    {post : Except ε β → σ → Ghost → Prop} (sure : Sure D first state ghost middle)
    (value : ∀ result after g, middle (.ok result) after g → Sure D (next result) after g post)
    (error : ∀ raised after g, middle (.error raised) after g → post (.error raised) after g) :
    Sure D (first >>= next) state ghost post := by
  refine Safe.bind sure (fun result g holds => ?_) fun raised g holds => holds.elim
  obtain ⟨outcome, after⟩ := result
  cases outcome with
  | ok found => exact value found after g holds
  | error raised => exact Safe.done_iff.mpr (error raised after g holds)

/-- What comes after a reading of the state. -/
theorem sure_get_then {next : σ → Keeping Q R ε σ β} {post : Except ε β → σ → Ghost → Prop}
    (sure : Sure D (next state) state ghost post) : Sure D (get >>= next) state ghost post := sure

/-- What comes after a change of the state. -/
theorem sure_modify_then {change : σ → σ} {next : Unit → Keeping Q R ε σ β} {post : Except ε β → σ → Ghost → Prop}
    (sure : Sure D (next ()) (change state) ghost post) : Sure D (modify change >>= next) state ghost post := sure

/-- One request. -/
theorem sure_ask {request : Q} {post : Except ε (R request) → σ → Ghost → Prop} (permitted : D.rule ghost request)
    (answers : ∀ answer learned, D.learn ghost request answer learned → post answer state learned) :
    Sure D (ask request) state ghost post := by
  refine Safe.attempt_bind (Safe.call_iff.mpr ⟨permitted, fun answer learned heard => ?_⟩)
    fun outcome g holds => Safe.done_iff.mpr holds
  exact answers answer learned heard

/-- A handled program. -/
theorem Sure.rescue {handler : ε → Keeping Q R ε σ α} (sure : Sure D program state ghost middle)
    (value : ∀ result after g, middle (.ok result) after g → post (.ok result) after g)
    (error : ∀ raised after g, middle (.error raised) after g → Sure D (handler raised) after g post) :
    Sure D (program.rescue handler) state ghost post := by
  refine Safe.bind sure (fun result g holds => ?_) fun raised g holds => holds.elim
  obtain ⟨outcome, after⟩ := result
  cases outcome with
  | ok found => exact Safe.done_iff.mpr (value found after g holds)
  | error raised => exact error raised after g holds

/-- A program with its cleanup. -/
theorem Sure.lastly {cleanup : Keeping Q R ε σ Unit} (sure : Sure D program state ghost middle)
    (clean : ∀ outcome after g, middle outcome after g →
      Sure D cleanup after g fun ended last g' => post (remains outcome ended) last g') :
    Sure D (program.lastly cleanup) state ghost post := by
  refine Safe.bind sure (fun result g holds => ?_) fun raised g holds => holds.elim
  exact Safe.bind (clean result.1 result.2 g holds) (fun ended g' known => Safe.done_iff.mpr known)
    fun raised g' known => known.elim

end Keeping

/-- A rule for what may be asked after what was heard; every answer is kept. -/
def logging (rule : Hist Q R ε → Q → Prop) : Discipline Q R ε (Hist Q R ε) where
  rule := rule
  learn := fun log request answer learned => learned = ⟨request, answer⟩ :: log

namespace Keeping

variable {rule : Hist Q R ε → Q → Prop} {log : Hist Q R ε}

/-- One request with its answer. -/
theorem sure_logged {request : Q} {post : Except ε (R request) → σ → Hist Q R ε → Prop} (permitted : rule log request)
    (answers : ∀ answer, post answer state (⟨request, answer⟩ :: log)) :
    Sure (logging rule) (ask request) state log post := by
  refine sure_ask permitted fun answer learned heard => ?_
  obtain rfl := heard
  exact answers answer

/-- Whatever it has asked at any point, it was permitted to ask. -/
theorem Sure.asked {post : Except ε α → σ → Hist Q R ε → Prop}
    (sure : Sure (logging rule) program state log post) {middle : Prog Q R ε (Except ε α × σ)} {seen : Hist Q R ε}
    (reached : Reaches (program state) log middle seen) :
    Safe (logging rule) middle seen (Outcome (fun result g => post result.1 result.2 g) fun _ _ => False) ∧
      ∀ newer event older, seen = newer ++ event :: (older ++ log) → rule (older ++ log) event.request := by
  induction reached with
  | here =>
    refine ⟨sure, fun newer event older split => ?_⟩
    have longer := congrArg List.length split
    simp only [List.length_append, List.length_cons] at longer
    omega
  | @answer request next heard _ reply ih =>
    obtain ⟨safe, before⟩ := ih
    obtain ⟨permitted, onward⟩ := Safe.ask_iff.mp safe
    refine ⟨onward reply _ rfl, fun newer event older split => ?_⟩
    cases newer with
    | nil =>
      -- The newest event was permitted when it was asked.
      obtain ⟨rfl, rfl⟩ := List.cons.inj split
      exact permitted
    | cons first newer => exact before newer event older (List.cons.inj split).2

/-- What is sure of a program is so at its end. -/
theorem Sure.ended {post : Except ε α → σ → Hist Q R ε → Prop}
    (sure : Sure (logging rule) program state log post) {outcome : Except ε α} {last : σ} {seen : Hist Q R ε}
    (reached : Reaches (program state) log (.done (outcome, last)) seen) : post outcome last seen :=
  Safe.done_iff.mp (sure.asked reached).1

end Keeping

end Coop
