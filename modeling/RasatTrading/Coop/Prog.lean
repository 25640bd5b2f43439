import Mathlib.Logic.Basic

/-! Cooperative programs ask their environment one request at a time and resume with its answer. -/

namespace Coop

/-- A sequential program over typed requests, each of which may be answered with an error. -/
inductive Prog (Q : Type) (R : Q → Type) (ε α : Type) : Type
  | done (value : α)
  | fail (error : ε)
  | ask (request : Q) (next : Except ε (R request) → Prog Q R ε α)

variable {Q : Type} {R : Q → Type} {ε α β γ : Type}

namespace Prog

/-- Return a value or raise the error it stands for. -/
def ofExcept : Except ε α → Prog Q R ε α
  | .ok value => .done value
  | .error error => .fail error

/-- Ask one request and raise the error of a failed answer. -/
def call (request : Q) : Prog Q R ε (R request) := .ask request ofExcept

/-- Run the first program and continue with its value. -/
def bind : Prog Q R ε α → (α → Prog Q R ε β) → Prog Q R ε β
  | .done value, next => next value
  | .fail error, _ => .fail error
  | .ask request resume, next => .ask request fun answer => (resume answer).bind next

/-- Run a program and hand over its outcome, raised errors included. -/
def attempt : Prog Q R ε α → Prog Q R ε (Except ε α)
  | .done value => .done (.ok value)
  | .fail error => .done (.error error)
  | .ask request resume => .ask request fun answer => (resume answer).attempt

attribute [grind =] bind attempt

instance : Monad (Prog Q R ε) where
  pure := .done
  bind := .bind

/-- Run a program and handle the error it raises. -/
def rescue (program : Prog Q R ε α) (handler : ε → Prog Q R ε α) : Prog Q R ε α :=
  program.attempt.bind fun
    | .ok value => .done value
    | .error error => handler error

/-- Run a program and then its cleanup, on every outcome. -/
def ensuring (program : Prog Q R ε α) (cleanup : Prog Q R ε Unit) : Prog Q R ε α :=
  program.attempt.bind fun outcome => cleanup.bind fun _ => ofExcept outcome

@[simp] theorem pure_eq (value : α) : (pure value : Prog Q R ε α) = .done value := rfl

@[simp] theorem bind_eq (program : Prog Q R ε α) (next : α → Prog Q R ε β) :
    program >>= next = program.bind next := rfl

@[simp] theorem done_bind (value : α) (next : α → Prog Q R ε β) :
    (Prog.done value : Prog Q R ε α).bind next = next value := rfl

@[simp] theorem fail_bind (error : ε) (next : α → Prog Q R ε β) :
    (Prog.fail error : Prog Q R ε α).bind next = .fail error := rfl

/-- Sequencing is associative. -/
theorem bind_assoc (program : Prog Q R ε α) (f : α → Prog Q R ε β) (g : β → Prog Q R ε γ) :
    (program.bind f).bind g = program.bind fun value => (f value).bind g := by
  induction program with
  | done value => rfl
  | fail error => rfl
  | ask request next ih => simp only [bind]; congr; funext answer; exact ih answer

end Prog

/-- One request together with the answer it got. -/
structure Event (Q : Type) (R : Q → Type) (ε : Type) where
  request : Q
  answer : Except ε (R request)

/-- The events a program has seen, newest first. -/
abbrev Hist (Q : Type) (R : Q → Type) (ε : Type) := List (Event Q R ε)

/-- The second program and history are reached from the first under some answers. -/
inductive Reaches (program : Prog Q R ε α) (hist : Hist Q R ε) :
    Prog Q R ε α → Hist Q R ε → Prop
  | here : Reaches program hist program hist
  | answer {request : Q} {next : Except ε (R request) → Prog Q R ε α} {seen : Hist Q R ε}
      (reached : Reaches program hist (.ask request next) seen)
      (reply : Except ε (R request)) :
      Reaches program hist (next reply) (⟨request, reply⟩ :: seen)

/-- Some answers let the program come to ask a request of the given kind. -/
def CanAsk (program : Prog Q R ε α) (kind : Q → Prop) : Prop :=
  ∃ request next seen, kind request ∧ Reaches program [] (.ask request next) seen

end Coop
