import Mathlib.Data.List.Basic

/-! Lists of statements that are executed one by one, and executed again after a part of them. -/

namespace Redo

variable {Stmt σ ε : Type*}

/-- Execute statements in order; the first one that fails ends the list. -/
def executeAll (execute : Stmt → σ → Except ε σ) : List Stmt → σ → Except ε σ
  | [], state => .ok state
  | statement :: rest, state => execute statement state >>= executeAll execute rest

variable {execute : Stmt → σ → Except ε σ}

@[simp] theorem executeAll_nil {state : σ} : executeAll execute [] state = .ok state := rfl

variable {state after : σ} {statement : Stmt} {rest : List Stmt}

/-- A list goes on after a statement that succeeds. -/
theorem executeAll_cons_ok (succeeds : execute statement state = .ok after) :
    executeAll execute (statement :: rest) state = executeAll execute rest after := by
  simp [executeAll, succeeds, bind, Except.bind]

/-- A list ends at a statement that fails. -/
theorem executeAll_cons_error {state : σ} {error : ε} (fails : execute statement state = .error error) :
    executeAll execute (statement :: rest) state = .error error := by
  simp [executeAll, fails, bind, Except.bind]

/-- A list that succeeds has a first statement that succeeds. -/
theorem executeAll_cons_eq_ok : executeAll execute (statement :: rest) state = .ok after ↔
      ∃ middle, execute statement state = .ok middle ∧
        executeAll execute rest middle = .ok after := by
  cases executed : execute statement state with
  | ok middle => simp [executeAll_cons_ok executed]
  | error error => simp [executeAll_cons_error executed]

/-- Two lists behind each other. -/
theorem executeAll_append {first second : List Stmt} {state : σ} :
    executeAll execute (first ++ second) state =
      executeAll execute first state >>= executeAll execute second := by
  induction first generalizing state with
  | nil => rfl
  | cons statement rest ih =>
    cases executed : execute statement state with
    | ok middle => simp only [List.cons_append, executeAll_cons_ok executed, ih]
    | error error =>
      simp only [List.cons_append, executeAll_cons_error executed]
      rfl

/-- A list that succeeds succeeds up to every point. -/
theorem executeAll_append_eq_ok {first second : List Stmt} :
    executeAll execute (first ++ second) state = .ok after ↔
      ∃ middle, executeAll execute first state = .ok middle ∧
        executeAll execute second middle = .ok after := by
  rw [executeAll_append]
  cases executeAll execute first state with
  | ok middle => simp [bind, Except.bind]
  | error error => simp [bind, Except.bind]

/-- What a statement achieves lasts; a repeatable statement then does nothing, any other fails. -/
structure Lasting (execute : Stmt → σ → Except ε σ) (repeatable : Stmt → Bool)
    (Made : Stmt → σ → Prop) : Prop where
  made : ∀ {statement state after}, execute statement state = .ok after → Made statement after
  lasts : ∀ {statement other state after}, Made statement state →
    execute other state = .ok after → Made statement after
  again : ∀ {statement state}, repeatable statement → Made statement state →
    execute statement state = .ok state
  clash : ∀ {statement state}, repeatable statement = false → Made statement state →
    ∃ error, execute statement state = .error error

namespace Lasting

variable {repeatable : Stmt → Bool} {Made : Stmt → σ → Prop} {list : List Stmt}

section Law

variable (law : Lasting execute repeatable Made)
include law

/-- What was achieved lasts through a whole list. -/
theorem lasts_all (made : Made statement state)
    (executed : executeAll execute list state = .ok after) : Made statement after := by
  induction list generalizing state with
  | nil =>
    obtain rfl : state = after := by simpa using executed
    exact made
  | cons other rest ih =>
    obtain ⟨middle, first, others⟩ := executeAll_cons_eq_ok.mp executed
    exact ih (law.lasts made first) others

/-- Every statement of an executed list has achieved what it is for. -/
theorem made_all (executed : executeAll execute list state = .ok after) :
    ∀ statement ∈ list, Made statement after := by
  induction list generalizing state with
  | nil => simp
  | cons first rest ih =>
    obtain ⟨middle, once, others⟩ := executeAll_cons_eq_ok.mp executed
    intro statement member
    rcases List.mem_cons.mp member with rfl | inRest
    · exact law.lasts_all (law.made once) others
    · exact ih others statement inRest

/-- Statements that are all repeatable do nothing once they are made. -/
theorem again_all {state : σ}
    (made : ∀ statement ∈ list, Made statement state) (calm : ∀ statement ∈ list, repeatable statement) :
    executeAll execute list state = .ok state := by
  induction list with
  | nil => rfl
  | cons first rest ih =>
    have once : execute first state = .ok state :=
      law.again (calm first List.mem_cons_self) (made first List.mem_cons_self)
    rw [executeAll_cons_ok once]
    exact ih (fun statement member => made statement (List.mem_cons_of_mem _ member))
      fun statement member => calm statement (List.mem_cons_of_mem _ member)

/-- Among made statements, one that is not repeatable makes the whole list fail. -/
theorem clash_all {state : σ} (made : ∀ statement ∈ list, Made statement state)
    (someOnce : ∃ statement ∈ list, repeatable statement = false) (rest : List Stmt) :
    ∃ error, executeAll execute (list ++ rest) state = .error error := by
  induction list with
  | nil => simp at someOnce
  | cons first others ih =>
    have here := made first List.mem_cons_self
    cases kind : repeatable first with
    | false =>
      obtain ⟨error, fails⟩ := law.clash kind here
      exact ⟨error, executeAll_cons_error fails⟩
    | true =>
      -- The first one does nothing, so the clash lies behind it.
      rw [List.cons_append, executeAll_cons_ok (law.again kind here)]
      refine ih (fun statement member => made statement (List.mem_cons_of_mem _ member)) ?_
      obtain ⟨statement, member, once⟩ := someOnce
      rcases List.mem_cons.mp member with rfl | behind
      · rw [kind] at once
        contradiction
      · exact ⟨statement, behind, once⟩

/-- After a part of a list, the whole list can be executed if and only if that part is repeatable,
and then it comes to what the list comes to. -/
theorem redo_iff {first rest : List Stmt}
    {start state after : σ} (executed : executeAll execute first start = .ok state)
    (whole : executeAll execute (first ++ rest) start = .ok after) :
    (executeAll execute (first ++ rest) state = .ok after ↔
        ∀ statement ∈ first, repeatable statement) ∧
      ((∃ error, executeAll execute (first ++ rest) state = .error error) ↔
        ∃ statement ∈ first, repeatable statement = false) := by
  have made := law.made_all executed
  by_cases calm : ∀ statement ∈ first, repeatable statement
  · -- The part does nothing the second time and the rest goes on as before.
    have again : executeAll execute (first ++ rest) state = .ok after := by
      obtain ⟨middle, once, others⟩ := executeAll_append_eq_ok.mp whole
      obtain rfl : middle = state := by simpa [executed] using once.symm
      exact executeAll_append_eq_ok.mpr ⟨middle, law.again_all made calm, others⟩
    refine ⟨⟨fun _ => calm, fun _ => again⟩, ⟨?_, ?_⟩⟩
    · rintro ⟨error, fails⟩
      rw [again] at fails
      contradiction
    · rintro ⟨statement, member, once⟩
      rw [calm statement member] at once
      contradiction
  · have some_once : ∃ statement ∈ first, repeatable statement = false := by
      simpa using calm
    obtain ⟨error, fails⟩ := law.clash_all made some_once rest
    refine ⟨⟨?_, fun all => absurd all calm⟩, ⟨fun _ => some_once, fun _ => ⟨error, fails⟩⟩⟩
    intro succeeds
    rw [fails] at succeeds
    contradiction

end Law

end Lasting

end Redo
