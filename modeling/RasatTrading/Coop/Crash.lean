import RasatTrading.Coop.Footprint

/-! Programs before a server without choices, run to their end or cut off after some requests. -/

namespace Coop

variable {Q : Type} {R : Q → Type} {ε α β σ : Type}

/-- A server answers every request from its own state alone. -/
abbrev Server (Q : Type) (R : Q → Type) (ε σ : Type) :=
  (request : Q) → σ → Except ε (R request) × σ

/-- The outcome of a program that is served to its end, and the state it leaves behind. -/
def exec (serve : Server Q R ε σ) : Prog Q R ε α → σ → Except ε α × σ
  | .done value, state => (.ok value, state)
  | .fail error, state => (.error error, state)
  | .ask request next, state =>
    exec serve (next (serve request state).1) (serve request state).2

/-- All requests of a program that is served to its end, oldest first. -/
def requests (serve : Server Q R ε σ) : Prog Q R ε α → σ → List Q
  | .done _, _ => []
  | .fail _, _ => []
  | .ask request next, state =>
    request :: requests serve (next (serve request state).1) (serve request state).2

attribute [grind =] exec requests

/-- A program cut off after some requests: the requests that were served, and the state. -/
inductive Cut (serve : Server Q R ε σ) : Prog Q R ε α → σ → List Q → σ → Prop
  /-- The program stops before its next request. -/
  | here {program : Prog Q R ε α} {state : σ} : Cut serve program state [] state
  /-- One more request is served before the program stops. -/
  | served {request : Q} {next : Except ε (R request) → Prog Q R ε α} {state last : σ}
      {seen : List Q}
      (rest : Cut serve (next (serve request state).1) (serve request state).2 seen last) :
      Cut serve (.ask request next) state (request :: seen) last

/-- The program cut off after the given number of requests, or run to its end if it has fewer. -/
def cutAt (serve : Server Q R ε σ) : Nat → Prog Q R ε α → σ → List Q × σ
  | 0, _, state => ([], state)
  | _ + 1, .done _, state => ([], state)
  | _ + 1, .fail _, state => ([], state)
  | count + 1, .ask request next, state =>
    let rest := cutAt serve count (next (serve request state).1) (serve request state).2
    (request :: rest.1, rest.2)

attribute [grind =] cutAt

variable {serve : Server Q R ε σ}

variable {state : σ} {program : Prog Q R ε α} {next : α → Prog Q R ε β} {value : α}

@[simp] theorem exec_done : exec serve (.done value : Prog Q R ε α) state = (.ok value, state) := rfl

variable {error : ε}

@[simp] theorem exec_fail : exec serve (.fail error : Prog Q R ε α) state = (.error error, state) := rfl

variable {request : Q}

@[simp] theorem exec_call : exec serve (Prog.call request) state = serve request state := by
  -- The answer is returned or raised as it is.
  simp only [Prog.call, exec]
  rcases answered : serve request state with ⟨answer, after⟩
  cases answer <;> rfl

/-- A sequence goes on with the value and in the state that its first part leaves. -/
theorem exec_bind :
    exec serve (program.bind next) state =
      match exec serve program state with
      | (.ok value, after) => exec serve (next value) after
      | (.error error, after) => (.error error, after) := by
  -- The first program is followed answer by answer.
  induction program generalizing state with
  | done value => rfl
  | fail error => rfl
  | ask request resume ih => simp only [Prog.bind, exec, ih]

variable {after : σ}

/-- A sequence whose first part returns goes on with its value. -/
theorem exec_bind_ok (returned : exec serve program state = (.ok value, after)) :
    exec serve (program.bind next) state = exec serve (next value) after := by
  rw [exec_bind, returned]

/-- A sequence whose first part raises ends there. -/
theorem exec_bind_error (raised : exec serve program state = (.error error, after)) :
    exec serve (program.bind next) state = (.error error, after) := by
  rw [exec_bind, raised]

/-- A sequence that returns came through its first part, and its last part left the state. -/
theorem exec_bind_eq_ok {last : σ} {result : β}
    (returned : exec serve (program.bind next) state = (.ok result, last)) :
    ∃ value after, exec serve program state = (.ok value, after) ∧
      exec serve (next value) after = (.ok result, last) := by
  rcases first : exec serve program state with ⟨outcome, after⟩
  cases outcome with
  | ok value =>
    rw [exec_bind_ok first] at returned
    exact ⟨value, after, rfl, returned⟩
  | error raised =>
    rw [exec_bind_error first] at returned
    cases returned

/-- A sequence that returns came through its first part. -/
theorem of_exec_bind {result : β} (returned : (exec serve (program.bind next) state).1 = .ok result) :
    ∃ value after, exec serve program state = (.ok value, after) ∧
      (exec serve (next value) after).1 = .ok result := by
  obtain ⟨value, after, first, rest⟩ := exec_bind_eq_ok (Prod.ext returned rfl)
  exact ⟨value, after, first, congrArg Prod.fst rest⟩

/-- A captured outcome is returned. -/
@[simp] theorem exec_attempt :
    exec serve program.attempt state =
      (.ok (exec serve program state).1, (exec serve program state).2) := by
  induction program generalizing state with
  | done value => rfl
  | fail error => rfl
  | ask request resume ih => simp only [Prog.attempt, exec, ih]

/-- Cutting a program off after a number of requests cuts it off. -/
theorem cut_cutAt (count : Nat) (program : Prog Q R ε α) (state : σ) :
    Cut serve program state (cutAt serve count program state).1
      (cutAt serve count program state).2 := by
  -- The count goes down with the requests; a program may end before it is used up.
  induction count generalizing program state with
  | zero => exact .here
  | succ count ih =>
    cases program with
    | done value => exact .here
    | fail error => exact .here
    | ask request next => exact .served (ih _ _)

/-- A program that a server runs to its end comes there along some answers. -/
theorem exec_reaches {outcome : Except ε α} {hist : Hist Q R ε} (ran : (exec serve program state).1 = outcome) :
    ∃ seen, Reaches program hist (Prog.ofExcept outcome) seen := by
  induction program generalizing hist state with
  | done value =>
    subst ran
    exact ⟨hist, .here⟩
  | fail error =>
    subst ran
    exact ⟨hist, .here⟩
  | ask request next ih =>
    -- The answer of the server comes first.
    have later : ∃ seen, Reaches (next (serve request state).1)
        (⟨request, (serve request state).1⟩ :: hist) (Prog.ofExcept outcome) seen := ih _ ran
    obtain ⟨seen, rest⟩ := later
    exact ⟨seen, .head _ rest⟩

namespace Cut

variable {state last : σ} {seen : List Q}

/-- A program may be cut off only at its end. -/
theorem whole (program : Prog Q R ε α) (state : σ) :
    Cut serve program state (requests serve program state) (exec serve program state).2 := by
  induction program generalizing state with
  | done value => exact .here
  | fail error => exact .here
  | ask request next ih => exact .served (ih _ _)

/-- A returned value serves nothing more. -/
theorem of_done (cut : Cut serve (.done value : Prog Q R ε α) state seen last) : seen = [] ∧ last = state := by
  cases cut
  exact ⟨rfl, rfl⟩

/-- A raised error serves nothing more. -/
theorem of_fail (cut : Cut serve (.fail error : Prog Q R ε α) state seen last) : seen = [] ∧ last = state := by
  cases cut
  exact ⟨rfl, rfl⟩

/-- One request is served or it is not. -/
theorem of_call (cut : Cut serve (Prog.call request) state seen last) :
    (seen = [] ∧ last = state) ∨ (seen = [request] ∧ last = (serve request state).2) := by
  cases cut with
  | here => exact .inl ⟨rfl, rfl⟩
  | served rest =>
    -- After the answer the program returns or raises at once.
    refine .inr ?_
    cases answered : (serve request state).1 with
    | ok value =>
      rw [answered] at rest
      obtain ⟨rfl, rfl⟩ := of_done rest
      exact ⟨rfl, rfl⟩
    | error error =>
      rw [answered] at rest
      obtain ⟨rfl, rfl⟩ := of_fail rest
      exact ⟨rfl, rfl⟩

/-- A cut of a sequence lies in its first part, or behind it in the second. -/
theorem of_bind {program : Prog Q R ε α} {next : α → Prog Q R ε β}
    (cut : Cut serve (program.bind next) state seen last) :
    Cut serve program state seen last ∨
      ∃ value middle rest, exec serve program state = (.ok value, middle) ∧
        seen = requests serve program state ++ rest ∧ Cut serve (next value) middle rest last := by
  induction program generalizing state seen with
  | done value => exact .inr ⟨value, state, seen, rfl, rfl, cut⟩
  | fail error =>
    obtain ⟨rfl, rfl⟩ := of_fail cut
    exact .inl .here
  | ask request resume ih =>
    cases cut with
    | here => exact .inl .here
    | served rest =>
      rcases ih _ rest with inFirst | ⟨value, middle, more, returned, split, inSecond⟩
      · exact .inl (.served inFirst)
      · refine .inr ⟨value, middle, more, returned, ?_, inSecond⟩
        simp [requests, split]

/-- Capturing an outcome moves no cut. -/
theorem of_attempt {program : Prog Q R ε α} (cut : Cut serve program.attempt state seen last) :
    Cut serve program state seen last := by
  induction program generalizing state seen with
  | done value =>
    obtain ⟨rfl, rfl⟩ := of_done cut
    exact .here
  | fail error =>
    obtain ⟨rfl, rfl⟩ := of_done cut
    exact .here
  | ask request resume ih =>
    cases cut with
    | here => exact .here
    | served rest => exact .served (ih _ rest)

end Cut

@[simp] theorem requests_call :
    requests serve (Prog.call request : Prog Q R ε (R request)) state = [request] := by
  simp only [Prog.call, requests]
  cases (serve request state).1 <;> rfl

/-- The requests of a sequence are those of its parts. -/
theorem requests_bind_ok (returned : exec serve program state = (.ok value, after)) :
    requests serve (program.bind next) state =
      requests serve program state ++ requests serve (next value) after := by
  induction program generalizing state with
  | done result =>
    obtain ⟨rfl, rfl⟩ : result = value ∧ state = after := by simpa using returned
    rfl
  | fail error => simp at returned
  | ask request resume ih =>
    simp only [Prog.bind, requests, List.cons_append]
    rw [ih _ returned]

/-- A sequence whose first part raises asks nothing more. -/
theorem requests_bind_error (raised : exec serve program state = (.error error, after)) :
    requests serve (program.bind next) state = requests serve program state := by
  induction program generalizing state with
  | done result => simp at raised
  | fail error => rfl
  | ask request resume ih =>
    simp only [Prog.bind, requests]
    rw [ih _ raised]

@[simp] theorem requests_attempt : requests serve program.attempt state = requests serve program state := by
  induction program generalizing state with
  | done value => rfl
  | fail error => rfl
  | ask request resume ih => simp only [Prog.attempt, requests, ih]

variable {kind : Q → Prop}

/-- A program that only asks what leaves the state alone leaves it alone. -/
theorem exec_only (only : program.Only kind)
    (keeps : ∀ request state, kind request → (serve request state).2 = state) :
    (exec serve program state).2 = state := by
  induction program generalizing state with
  | done value => rfl
  | fail error => rfl
  | ask request next ih =>
    -- The first request leaves the state alone, so the rest starts where the program did.
    simp only [exec]
    rw [ih _ (only.2 _), keeps request state only.1]

/-- A program comes to the same in any state, when its requests are answered and leave the state alone. -/
theorem exec_apart {other : σ} (only : program.Only kind)
    (keeps : ∀ request state, kind request → (serve request state).2 = state)
    (same : ∀ request state other, kind request → (serve request state).1 = (serve request other).1) :
    (exec serve program state).1 = (exec serve program other).1 := by
  induction program generalizing state other with
  | done value => rfl
  | fail error => rfl
  | ask request next ih =>
    simp only [exec]
    rw [keeps request state only.1, keeps request other only.1, same request state other only.1]
    exact ih _ (only.2 _)

/-- A served program asks nothing beyond its footprint. -/
theorem requests_only (only : program.Only kind) : ∀ request ∈ requests serve program state, kind request := by
  induction program generalizing state with
  | done value => exact fun _ member => absurd member List.not_mem_nil
  | fail error => exact fun _ member => absurd member List.not_mem_nil
  | ask request next ih =>
    intro other member
    rcases List.mem_cons.mp member with rfl | later
    · exact only.1
    · exact ih _ (only.2 _) other later

/-- A program logic for one server: what a task knows is the state that it is served from. -/
def servedBy (serve : Server Q R ε σ) : Discipline Q R ε σ where
  rule := fun _ _ => True
  learn := fun state request answer after => serve request state = (answer, after)

/-- A program meets a postcondition exactly when it does where the server leaves it. -/
theorem servedBy_iff {post : Except ε α → σ → Prop} :
    Safe (servedBy serve) program state post ↔
      post (exec serve program state).1 (exec serve program state).2 := by
  induction program generalizing state with
  | done value => exact Safe.done_iff
  | fail error => exact Safe.fail_iff
  | ask request next ih =>
    rw [Safe.ask_iff]
    constructor
    · exact fun safe => ih _ |>.mp (safe.2 _ _ rfl)
    · rintro holds
      refine ⟨trivial, fun answer after served => (ih answer).mpr ?_⟩
      -- The server has only one answer.
      have same : serve request state = (answer, after) := served
      simp only [exec, same] at holds
      exact holds

/-- One request in a sequence. -/
theorem servedBy_then {next : R request → Prog Q R ε β} {post : Except ε β → σ → Prop}
    (value : ∀ result after, serve request state = (.ok result, after) →
      Safe (servedBy serve) (next result) after post)
    (error : ∀ raised after, serve request state = (.error raised, after) → post (.error raised) after) :
    Safe (servedBy serve) ((Prog.call request).bind next) state post := by
  rw [Safe.bind_iff, Safe.call_iff]
  refine ⟨trivial, fun answer after served => ?_⟩
  cases answer with
  | ok result => exact value result after served
  | error raised => exact error raised after served

end Coop
