import RasatTrading.Coop.Crash

/-! When a program that is served to its end returns, and what then holds. -/

namespace Coop

variable {Q : Type} {R : Q → Type} {ε α β ι σ : Type} {serve : Server Q R ε σ} {state after : σ}

/-- A program that is served to its end returns. -/
def Returns (serve : Server Q R ε σ) (program : Prog Q R ε α) (state : σ) : Prop :=
  ∃ value, (exec serve program state).1 = .ok value

attribute [grind =] Returns

/-- If a program returns, something holds of its value and of the state that it leaves. -/
def After (serve : Server Q R ε σ) (program : Prog Q R ε α) (post : α → σ → Prop) (state : σ) : Prop :=
  ∀ value last, exec serve program state = (.ok value, last) → post value last

theorem returns_done (value : α) : Returns serve (.done value) state := ⟨value, rfl⟩

theorem not_returns_fail (raised : ε) : ¬Returns serve (.fail raised : Prog Q R ε α) state := by
  intro returned
  obtain ⟨value, same⟩ := returned
  cases same

variable {program : Prog Q R ε α}

theorem Returns.value (returned : Returns serve program state) :
    ∃ value last, exec serve program state = (.ok value, last) := by
  obtain ⟨value, same⟩ := returned
  exact ⟨value, _, Prod.ext same rfl⟩

variable {value : α}

theorem returns_of (ran : exec serve program state = (.ok value, after)) :
    Returns serve program state := ⟨value, congrArg Prod.fst ran⟩

/-- Whether a program returns can be computed. -/
theorem returns_iff_isSome :
    Returns serve program state ↔ (exec serve program state).1.toOption.isSome = true := by
  rw [Returns]
  cases (exec serve program state).1 with
  | ok value => exact iff_of_true ⟨value, rfl⟩ rfl
  | error raised =>
    apply iff_of_false
    · intro returned
      obtain ⟨value, same⟩ := returned
      cases same
    · exact Bool.false_ne_true

theorem after_done {post : α → σ → Prop} : After serve (.done value) post state ↔ post value state := by
  constructor
  · exact fun holds => holds value state rfl
  · intro holds value last same
    cases same
    exact holds

variable {next : α → Prog Q R ε β}

/-- A sequence whose first part returns does so when its rest does. -/
theorem returns_then (first : exec serve program state = (.ok value, after)) :
    Returns serve (program.bind next) state ↔ Returns serve (next value) after := by
  rw [Returns, exec_bind_ok first]
  rfl

theorem after_then {post : β → σ → Prop} (first : exec serve program state = (.ok value, after)) :
    After serve (program.bind next) post state ↔ After serve (next value) post after := by
  rw [After, exec_bind_ok first]
  rfl

theorem after_of {post : α → σ → Prop}
    (ran : exec serve program state = (.ok value, after)) : After serve program post state ↔ post value after := by
  constructor
  · exact fun holds => holds value after ran
  · intro holds value last same
    rw [ran] at same
    cases same
    exact holds

/-- A sequence returns when its first part does and its rest after that. -/
theorem returns_bind : Returns serve (program.bind next) state ↔
      Returns serve program state ∧ After serve program (fun value => Returns serve (next value)) state := by
  constructor
  · intro returned
    obtain ⟨result, returned⟩ := returned
    obtain ⟨value, middle, first, rest⟩ := of_exec_bind returned
    exact ⟨returns_of first, (after_of first).mpr ⟨result, rest⟩⟩
  · intro both
    obtain ⟨value, middle, first⟩ := both.1.value
    exact (returns_then first).mpr (both.2 value middle first)

/-- Something holds at every turn of a loop, in the state that the turns before it left. -/
def InTurns (serve : Server Q R ε σ) (turn : ι → Prog Q R ε α) (holds : ι → σ → Prop) : List ι → σ → Prop
  | [], _ => True
  | item :: rest, state => holds item state ∧ InTurns serve turn holds rest (exec serve (turn item) state).2

theorem inTurns_congr {turn : ι → Prog Q R ε α} {known first second : ι → σ → Prop} {items : List ι} {state : σ}
    (each : ∀ item state, known item state → (first item state ↔ second item state))
    (turns : InTurns serve turn known items state) :
    InTurns serve turn first items state ↔ InTurns serve turn second items state := by
  induction items generalizing state with
  | nil => exact Iff.rfl
  | cons item rest ih => exact and_congr (each item state turns.1) (ih turns.2)

/-- A loop that gathers what its turns return comes to its end exactly when all of them do. -/
theorem returns_foldlM {turn : ι → Prog Q R ε α} {gather : β → α → β} {items : List ι} {start : β} {state : σ} :
    Returns serve (items.foldlM (fun found item => (turn item).bind fun value => .done (gather found value)) start)
        state ↔
      InTurns serve turn (fun item => Returns serve (turn item)) items state := by
  -- The turns are followed one by one; what was gathered has no part in it.
  induction items generalizing start state with
  | nil => exact iff_of_true (returns_done start) trivial
  | cons item rest ih =>
    rw [List.foldlM_cons, Prog.bind_eq, Prog.bind_assoc]
    by_cases returned : Returns serve (turn item) state
    · obtain ⟨value, last, ran⟩ := returned.value
      rw [returns_then ran, Prog.done_bind, ih]
      show _ ↔ _ ∧ InTurns serve turn _ rest (exec serve (turn item) state).2
      rw [ran]
      exact (and_iff_right returned).symm
    · exact iff_of_false (fun both => returned (returns_bind.mp both).1) fun both => returned both.1

end Coop
