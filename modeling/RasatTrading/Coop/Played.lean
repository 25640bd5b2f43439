import RasatTrading.Coop.Crash
import RasatTrading.Coop.Recorded

/-! What a served program has heard, and programs before two servers that answer alike. -/

namespace Coop

variable {Q : Type} {R : Q → Type} {ε α β σ τ Call : Type}

/-- The events of a program that is served to its end, newest first. -/
def events (serve : Server Q R ε σ) : Prog Q R ε α → σ → Hist Q R ε
  | .done _, _ => []
  | .fail _, _ => []
  | .ask request next, state =>
    events serve (next (serve request state).1) (serve request state).2 ++
      [⟨request, (serve request state).1⟩]

attribute [grind =] events

/-- The steps of a program that is served to its end, newest first: each request with the state that it meets. -/
def visits (serve : Server Q R ε σ) : Prog Q R ε α → σ → List (Q × σ)
  | .done _, _ => []
  | .fail _, _ => []
  | .ask request next, state =>
    visits serve (next (serve request state).1) (serve request state).2 ++ [(request, state)]

/-- What is heard at a step. -/
def heardAt (serve : Server Q R ε σ) (step : Q × σ) : Event Q R ε := ⟨step.1, (serve step.1 step.2).1⟩

variable {serve : Server Q R ε σ} {program : Prog Q R ε α}

/-- The events of a program are what is heard at its steps. -/
theorem events_visits {state : σ} :
    events serve program state = (visits serve program state).map (heardAt serve) := by
  induction program generalizing state with
  | done value => rfl
  | fail error => rfl
  | ask request next ih =>
    simp only [events, visits, List.map_append, List.map_cons, List.map_nil, ih]
    rfl

/-- What the logic says of a program is so when the program is served to its end. -/
theorem Safe.served {rule : Record Q R ε Call → Q → Prop}
    {record : Record Q R ε Call} {post : Except ε α → Record Q R ε Call → Prop}
    (safe : Safe (recording rule) program record post) (serve : Server Q R ε σ) (state : σ) :
    post (exec serve program state).1
      { record with hist := events serve program state ++ record.hist } := by
  -- The served answers are one way through the program.
  induction program generalizing record state with
  | done value => exact Safe.done_iff.mp safe
  | fail error => exact Safe.fail_iff.mp safe
  | ask request next ih =>
    have rest := ih (serve request state).1 ((Safe.ask_iff.mp safe).2 _ _ rfl)
      (serve request state).2
    simpa only [exec, events, Record.after, List.append_assoc, List.singleton_append] using rest

/-- Every step of a served program was allowed by the rule, after what was heard until then. -/
theorem Safe.served_asks {rule : Record Q R ε Call → Q → Prop}
    {record : Record Q R ε Call} {post : Except ε α → Record Q R ε Call → Prop}
    (safe : Safe (recording rule) program record post) {state : σ}
    {newer older : List (Q × σ)} {step : Q × σ} (split : visits serve program state = newer ++ step :: older) :
    rule { record with hist := older.map (heardAt serve) ++ record.hist } step.1 := by
  induction program generalizing record state newer older with
  | done value => simp [visits] at split
  | fail error => simp [visits] at split
  | ask request next ih =>
    obtain ⟨allowed, rest⟩ := Safe.ask_iff.mp safe
    rcases List.eq_nil_or_concat older with rfl | ⟨before, first, rfl⟩
    · -- The oldest step is the first one, which the rule allowed from the record itself.
      obtain ⟨-, same⟩ := List.append_inj' split rfl
      obtain rfl := List.head_eq_of_cons_eq same
      exact allowed
    · rw [visits, List.concat_eq_append, ← List.cons_append, ← List.append_assoc] at split
      obtain ⟨earlier, same⟩ := List.append_inj' split rfl
      obtain rfl := List.head_eq_of_cons_eq same
      have later := ih _ (rest _ _ rfl) earlier
      rw [List.concat_eq_append, List.map_append, List.append_assoc]
      exact later

/-- Two servers that answer the requests of a kind alike and stay in a relation. -/
structure Agree (first : Server Q R ε σ) (second : Server Q R ε τ) (kind : Q → Prop)
    (related : σ → τ → Prop) : Prop where
  answers : ∀ request s t, kind request → related s t → (first request s).1 = (second request t).1
  stays : ∀ request s t, kind request → related s t → related (first request s).2 (second request t).2

/-- A program of that kind comes to the same before both. -/
theorem Agree.exec {first : Server Q R ε σ} {second : Server Q R ε τ} {kind : Q → Prop}
    {related : σ → τ → Prop} (agree : Agree first second kind related)
    (only : program.Only kind) {s : σ} {t : τ} (start : related s t) :
    (Coop.exec first program s).1 = (Coop.exec second program t).1 ∧
      related (Coop.exec first program s).2 (Coop.exec second program t).2 := by
  -- The answers are the same, so that both servers meet the same rest of the program.
  induction program generalizing s t with
  | done value => exact ⟨rfl, start⟩
  | fail error => exact ⟨rfl, start⟩
  | ask request next ih =>
    have same := agree.answers request s t only.1 start
    have after := agree.stays request s t only.1 start
    simp only [Coop.exec]
    rw [← same]
    exact ih _ (only.2 _) after

/-- A single request is the only event of its program. -/
@[simp] theorem events_call {request : Q} {state : σ} :
    events serve (Prog.call request : Prog Q R ε (R request)) state = [⟨request, (serve request state).1⟩] := by
  simp only [Prog.call, events]
  cases (serve request state).1 <;> rfl

/-- A sequence whose first part returns has heard what both of its parts have. -/
theorem events_bind_ok {next : α → Prog Q R ε β} {state after : σ}
    {value : α} (returned : exec serve program state = (.ok value, after)) :
    events serve (program.bind next) state = events serve (next value) after ++ events serve program state := by
  induction program generalizing state with
  | done result =>
    obtain ⟨rfl, rfl⟩ : result = value ∧ state = after := by simpa using returned
    simp [events]
  | fail error => simp at returned
  | ask request resume ih => simp only [Prog.bind, events, ih _ returned, List.append_assoc]

/-- A sequence whose first part raises has heard what that part has. -/
theorem events_bind_error {next : α → Prog Q R ε β}
    {state after : σ} {error : ε} (raised : exec serve program state = (.error error, after)) :
    events serve (program.bind next) state = events serve program state := by
  induction program generalizing state with
  | done result => simp at raised
  | fail error => rfl
  | ask request resume ih => simp only [Prog.bind, events, ih _ raised]

/-- Two programs that one server takes to the same end along the same events. What always holds holds there of the
state and the whole history; where they return, the postcondition does, too. -/
structure Alike (serve : Server Q R ε σ) (always : σ → Hist Q R ε → Prop) (first second : Prog Q R ε α) (state : σ)
    (hist : Hist Q R ε) (post : α → σ → Hist Q R ε → Prop) : Prop where
  ends : exec serve first state = exec serve second state
  hears : events serve first state = events serve second state
  always : always (exec serve first state).2 (events serve first state ++ hist)
  returns : ∀ value, (exec serve first state).1 = .ok value →
    post value (exec serve first state).2 (events serve first state ++ hist)

namespace Alike

variable {serve : Server Q R ε σ} {always : σ → Hist Q R ε → Prop} {state : σ} {hist : Hist Q R ε}
  {first second : Prog Q R ε α} {post : α → σ → Hist Q R ε → Prop}

/-- A value is returned at once, in the state that is met. -/
theorem done {value : α} (holds : always state hist) (meets : post value state hist) :
    Alike serve always (.done value) (.done value) state hist post := by
  refine ⟨rfl, rfl, holds, fun other same => ?_⟩
  obtain rfl : value = other := by simpa [exec] using same
  exact meets

/-- An error is raised at once, and nothing is returned. -/
theorem fail {error : ε} (holds : always state hist) :
    Alike serve always (.fail error) (.fail error) state hist post :=
  ⟨rfl, rfl, holds, fun value same => by simp [exec] at same⟩

/-- One request. -/
theorem call {request : Q} {post : R request → σ → Hist Q R ε → Prop}
    (holds : always (serve request state).2 (⟨request, (serve request state).1⟩ :: hist))
    (meets : ∀ value, (serve request state).1 = .ok value →
      post value (serve request state).2 (⟨request, .ok value⟩ :: hist)) :
    Alike serve always (Prog.call request) (Prog.call request) state hist post := by
  refine ⟨rfl, rfl, by simpa using holds, fun value returned => ?_⟩
  rw [exec_call] at returned
  simpa [returned] using meets value returned

/-- Two sequences. -/
theorem bind {next other : α → Prog Q R ε β} {last : β → σ → Hist Q R ε → Prop}
    (alike : Alike serve always first second state hist post)
    (rest : ∀ value later seen, always later seen → post value later seen →
      Alike serve always (next value) (other value) later seen last) :
    Alike serve always (first.bind next) (second.bind other) state hist last := by
  obtain ⟨ends, hears, holds, returns⟩ := alike
  rcases ran : exec serve first state with ⟨outcome, after⟩
  rw [ran] at ends holds returns
  cases outcome with
  | ok value =>
    -- Both go on with the same value from the same state.
    obtain ⟨ends', hears', holds', returns'⟩ := rest value after _ holds (returns value rfl)
    refine ⟨?_, ?_, ?_, fun result came => ?_⟩
    · rw [exec_bind_ok ran, exec_bind_ok ends.symm, ends']
    · rw [events_bind_ok ran, events_bind_ok ends.symm, hears, hears']
    · rw [exec_bind_ok ran, events_bind_ok ran, List.append_assoc]
      exact holds'
    · rw [exec_bind_ok ran] at came ⊢
      rw [events_bind_ok ran, List.append_assoc]
      exact returns' result came
  | error error =>
    -- Neither of them goes on.
    refine ⟨?_, ?_, ?_, fun result came => ?_⟩
    · rw [exec_bind_error ran, exec_bind_error ends.symm]
    · rw [events_bind_error ran, events_bind_error ends.symm, hears]
    · rw [exec_bind_error ran, events_bind_error ran]
      exact holds
    · rw [exec_bind_error ran] at came
      cases came

/-- Two loops over the same items keep what their bodies keep. -/
theorem foldlM {ι : Type} {items : List ι} {body other : β → ι → Prog Q R ε β} {start : β}
    (keeps : σ → Hist Q R ε → Prop) (holds : always state hist) (initial : keeps state hist)
    (each : ∀ item ∈ items, ∀ value later seen, always later seen → keeps later seen →
      Alike serve always (body value item) (other value item) later seen fun _ => keeps) :
    Alike serve always (items.foldlM body start) (items.foldlM other start) state hist fun _ => keeps := by
  induction items generalizing start state hist with
  | nil => exact .done holds initial
  | cons item rest ih =>
    simp only [List.foldlM_cons, Prog.bind_eq]
    refine (each item List.mem_cons_self start state hist holds initial).bind fun value later seen holds kept => ?_
    exact ih holds kept fun item member => each item (List.mem_cons_of_mem _ member)

/-- A program keeps what its requests keep. -/
theorem of_only {kind : Q → Prop} {program : Prog Q R ε α} {keeps : σ → Hist Q R ε → Prop} (only : program.Only kind)
    (holds : always state hist) (initial : keeps state hist)
    (each : ∀ request later seen, kind request → always later seen → keeps later seen →
      always (serve request later).2 (⟨request, (serve request later).1⟩ :: seen) ∧
        keeps (serve request later).2 (⟨request, (serve request later).1⟩ :: seen)) :
    Alike serve always program program state hist fun _ => keeps := by
  induction program generalizing state hist with
  | done value => exact .done holds initial
  | fail error => exact .fail holds
  | ask request next ih =>
    obtain ⟨holds', initial'⟩ := each request state hist only.1 holds initial
    obtain ⟨-, -, last, returns⟩ := ih _ (only.2 _) holds' initial'
    refine ⟨rfl, rfl, ?_, fun value came => ?_⟩
    · simpa only [exec, events, List.append_assoc, List.singleton_append] using last
    · simpa only [exec, events, List.append_assoc, List.singleton_append] using returns value came

end Alike

end Coop
