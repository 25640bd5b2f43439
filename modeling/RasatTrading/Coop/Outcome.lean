import RasatTrading.Coop.Footprint

/-! Programs run against given answers: what they ask and what they come to. -/

namespace Coop

namespace Prog

variable {Q : Type} {R : Q → Type} {ε α β : Type}

/-- The requests of a program, oldest first with their answers, and its outcome. -/
def replay (respond : (request : Q) → Except ε (R request)) :
    Prog Q R ε α → List (Event Q R ε) × Except ε α
  | .done value => ([], .ok value)
  | .fail error => ([], .error error)
  | .ask request next =>
    let rest := replay respond (next (respond request))
    (⟨request, respond request⟩ :: rest.1, rest.2)

attribute [grind =] replay

variable {respond : (request : Q) → Except ε (R request)}

@[simp] theorem replay_done {value : α} :
    replay respond (.done value : Prog Q R ε α) = ([], .ok value) := rfl

@[simp] theorem replay_fail {error : ε} :
    replay respond (.fail error : Prog Q R ε α) = ([], .error error) := rfl

@[simp] theorem replay_call {request : Q} :
    replay respond (call request) = ([⟨request, respond request⟩], respond request) := by
  simp only [call, replay]
  cases respond request <;> rfl

variable {program : Prog Q R ε α}

/-- A sequence goes on with the value of its first part. -/
theorem replay_bind {next : α → Prog Q R ε β} :
    replay respond (program.bind next) =
      match (replay respond program).2 with
      | .ok value => ((replay respond program).1 ++ (replay respond (next value)).1,
          (replay respond (next value)).2)
      | .error error => ((replay respond program).1, .error error) := by
  induction program with
  | done value => simp
  | fail error => rfl
  | ask request resume ih =>
    simp only [Prog.bind, replay, ih (respond request)]
    cases (replay respond (resume (respond request))).2 <;> rfl

/-- A captured outcome is returned. -/
@[simp] theorem replay_attempt :
    replay respond program.attempt = ((replay respond program).1, .ok (replay respond program).2) := by
  induction program with
  | done value => rfl
  | fail error => rfl
  | ask request resume ih => simp only [Prog.attempt, replay, ih (respond request)]

/-- What a program comes to under given answers. -/
def outcome (respond : (request : Q) → Except ε (R request)) (program : Prog Q R ε α) :
    Except ε α :=
  (replay respond program).2

attribute [grind =] outcome

@[simp] theorem outcome_done {value : α} :
    outcome respond (.done value : Prog Q R ε α) = .ok value := rfl

@[simp] theorem outcome_fail {error : ε} :
    outcome respond (.fail error : Prog Q R ε α) = .error error := rfl

@[simp] theorem outcome_call {request : Q} : outcome respond (call request) = respond request := by
  rw [outcome, replay_call]

/-- A sequence comes to what its second part makes of the value of the first. -/
@[simp] theorem outcome_bind {next : α → Prog Q R ε β} :
    outcome respond (program.bind next) =
      (outcome respond program).bind fun value => outcome respond (next value) := by
  simp only [outcome, replay_bind]
  cases (replay respond program).2 <;> rfl

/-- A captured outcome is returned. -/
@[simp] theorem outcome_attempt : outcome respond program.attempt = .ok (outcome respond program) := by
  rw [outcome, replay_attempt]
  rfl

/-- A loop comes to the loop of what its turns come to. -/
theorem outcome_foldlM {σ : Type} {body : σ → α → Prog Q R ε σ} {state : σ} {items : List α} :
    outcome respond (items.foldlM body state) =
      items.foldlM (fun state item => outcome respond (body state item)) state := by
  induction items generalizing state with
  | nil => rfl
  | cons item rest ih =>
    rw [List.foldlM_cons, bind_eq, outcome_bind, List.foldlM_cons]
    cases outcome respond (body state item) with
    | error raised => rfl
    | ok after => exact ih

end Prog

end Coop

/-! The events of a loop, turn by turn. -/

namespace Coop

variable {Q : Type} {R : Q → Type} {ε α κ : Type}

/-- The events of a loop over some items, newest first: those of its turns, one for each item. -/
inductive Turns (turn : α → Hist Q R ε → Prop) : List α → Hist Q R ε → Prop
  | nil : Turns turn [] []
  | cons {item : α} {items : List α} {part events : Hist Q R ε} (own : turn item part)
      (rest : Turns turn items events) : Turns turn (item :: items) (events ++ part)

namespace Turns

variable {turn : α → Hist Q R ε → Prop} {items : List α} {events : Hist Q R ε}

/-- Every event is one of some turn. -/
theorem event (turns : Turns turn items events) {event : Event Q R ε} (member : event ∈ events) :
    ∃ item ∈ items, ∃ part, turn item part ∧ event ∈ part := by
  induction turns with
  | nil => cases member
  | cons own rest ih =>
    rcases List.mem_append.mp member with later | now
    · obtain ⟨item, listed, found⟩ := ih later
      exact ⟨item, List.mem_cons_of_mem _ listed, found⟩
    · exact ⟨_, List.mem_cons_self, _, own, now⟩

/-- Every item had its turn. -/
theorem part (turns : Turns turn items events) {item : α} (member : item ∈ items) :
    ∃ newer part older, events = newer ++ (part ++ older) ∧ turn item part := by
  induction turns with
  | nil => cases member
  | @cons first items now later own rest ih =>
    rcases List.mem_cons.mp member with rfl | listed
    · exact ⟨later, now, [], by rw [List.append_nil], own⟩
    · obtain ⟨newer, part, older, rfl, turned⟩ := ih listed
      exact ⟨newer, part, older ++ now, by simp only [List.append_assoc], turned⟩

/-- The turn of an item, among the events of items that have other keys. -/
theorem own (key : α → κ) (distinct : (items.map key).Nodup) (turns : Turns turn items events) {item : α}
    (member : item ∈ items) :
    ∃ newer part older, events = newer ++ (part ++ older) ∧ turn item part ∧
      ∀ event ∈ newer ++ older, ∃ other ∈ items, key other ≠ key item ∧ ∃ part, turn other part ∧ event ∈ part := by
  induction turns with
  | nil => cases member
  | @cons first items now later own rest ih =>
    rw [List.map_cons, List.nodup_cons] at distinct
    rcases List.mem_cons.mp member with rfl | listed
    · refine ⟨later, now, [], by rw [List.append_nil], own, fun event heard => ?_⟩
      rw [List.append_nil] at heard
      obtain ⟨other, behind, found⟩ := rest.event heard
      exact ⟨other, List.mem_cons_of_mem _ behind, fun same => distinct.1 (same ▸ List.mem_map_of_mem behind), found⟩
    · obtain ⟨newer, part, older, rfl, turned, apart⟩ := ih distinct.2 listed
      refine ⟨newer, part, older ++ now, by simp only [List.append_assoc], turned, fun event heard => ?_⟩
      rw [← List.append_assoc] at heard
      rcases List.mem_append.mp heard with inside | now'
      · obtain ⟨other, behind, found⟩ := apart event inside
        exact ⟨other, List.mem_cons_of_mem _ behind, found⟩
      · -- The first item has a key of its own.
        exact ⟨first, List.mem_cons_self, fun same => distinct.1 (same ▸ List.mem_map_of_mem listed), now, own, now'⟩

end Turns

end Coop

/-! What the events of a finished program say about its parts, under any answers. -/

namespace Coop

namespace Reaches

variable {Q : Type} {R : Q → Type} {ε α β σ : Type}
variable {hist seen : Hist Q R ε}

/-- What a program does does not depend on what came before it. -/
theorem fresh {program last : Prog Q R ε α} (reached : Reaches program hist last seen) :
    ∃ events, seen = events ++ hist ∧ Reaches program [] last events := by
  induction reached with
  | here => exact ⟨[], rfl, .here⟩
  | @answer request next middle _ reply ih =>
    obtain ⟨events, rfl, own⟩ := ih
    exact ⟨⟨request, reply⟩ :: events, rfl, .answer own reply⟩

/-- A failed program stays where it is. -/
theorem of_fail {error : ε} {last : Prog Q R ε α} (reached : Reaches (.fail error) hist last seen) :
    last = .fail error ∧ seen = hist := by
  induction reached with
  | here => exact ⟨rfl, rfl⟩
  | answer _ _ ih => cases ih.1

/-- A failed program returns nothing. -/
theorem fail_done {error : ε} {value : α} {goal : Prop}
    (reached : Reaches (.fail error) hist (.done value) seen) : goal := nomatch (of_fail reached).1

/-- A finished sequence finished its first part and then the rest. -/
theorem of_bind {program : Prog Q R ε α} {next : α → Prog Q R ε β} {value : β}
    (reached : Reaches (program.bind next) hist (.done value) seen) :
    ∃ first middle, Reaches program hist (.done first) middle ∧
      Reaches (next first) middle (.done value) seen := by
  induction program generalizing hist with
  | done first => exact ⟨first, hist, .here, reached⟩
  | fail error => exact fail_done reached
  | ask request resume ih =>
    rcases of_ask reached with ⟨impossible, -⟩ | ⟨reply, rest⟩
    · cases impossible
    · obtain ⟨first, middle, before, after⟩ := ih reply rest
      exact ⟨first, middle, .head reply before, after⟩

/-- A finished attempt came to the outcome that it returns. -/
theorem of_attempt {program : Prog Q R ε α} {outcome : Except ε α}
    (reached : Reaches program.attempt hist (.done outcome) seen) :
    Reaches program hist (Prog.ofExcept outcome) seen := by
  induction program generalizing hist with
  | done value =>
    obtain ⟨same, rfl⟩ := of_done reached
    cases same
    exact .here
  | fail error =>
    obtain ⟨same, rfl⟩ := of_done reached
    cases same
    exact .here
  | ask request resume ih =>
    rcases of_ask reached with ⟨impossible, -⟩ | ⟨reply, rest⟩
    · cases impossible
    · exact .head reply (ih reply rest)

/-- A finished request was answered with its value. -/
theorem of_call {request : Q} {value : R request}
    (reached : Reaches (Prog.call request) hist (.done value) seen) :
    seen = ⟨request, .ok value⟩ :: hist := by
  rcases of_ask reached with ⟨impossible, -⟩ | ⟨reply, rest⟩
  · cases impossible
  · cases reply with
    | ok found =>
      obtain ⟨same, rfl⟩ := of_done rest
      cases same
      rfl
    | error raised => exact fail_done rest

/-- A finished attempt of a request was answered with its outcome. -/
theorem of_attempt_call {request : Q} {outcome : Except ε (R request)}
    (reached : Reaches (Prog.call request : Prog Q R ε (R request)).attempt hist (.done outcome) seen) :
    seen = ⟨request, outcome⟩ :: hist := by
  rcases of_ask reached with ⟨impossible, -⟩ | ⟨reply, rest⟩
  · cases impossible
  · cases reply <;> (obtain ⟨same, rfl⟩ := of_done rest; cases same; rfl)

/-- A finished synchronous part had that value. -/
theorem of_ofExcept {outcome : Except ε α} {value : α}
    (reached : Reaches (Prog.ofExcept outcome) hist (.done value) seen) :
    outcome = .ok value ∧ seen = hist := by
  cases outcome with
  | ok found =>
    obtain ⟨same, rfl⟩ := of_done reached
    cases same
    exact ⟨rfl, rfl⟩
  | error raised => exact fail_done reached

variable {state final : σ}

/-- When a finished loop ends well, it was well before, and each of its items left a fact that the later
ones keep. -/
theorem of_foldlM {body : σ → α → Prog Q R ε σ} (good : σ → Prop) (fact : α → σ → Hist Q R ε → Prop)
    (turn : ∀ state item after before later, Reaches (body state item) before (.done after) later →
      good after → good state ∧ fact item after later ∧
        ∀ other, fact other state before → fact other after later)
    {items : List α} (reached : Reaches (items.foldlM body state) hist (.done final) seen) (fine : good final) :
    good state ∧ (∀ item ∈ items, fact item final seen) ∧
      ∀ other, fact other state hist → fact other final seen := by
  induction items generalizing state hist with
  | nil =>
    obtain ⟨same, rfl⟩ := of_done reached
    cases same
    exact ⟨fine, by simp, fun _ known => known⟩
  | cons item rest ih =>
    rw [List.foldlM_cons] at reached
    obtain ⟨after, middle, first, later⟩ := of_bind reached
    obtain ⟨well, facts, kept⟩ := ih later
    obtain ⟨start, own, carried⟩ := turn state item after hist middle first well
    refine ⟨start, ?_, fun other known => kept other (carried other known)⟩
    intro other member
    rcases List.mem_cons.mp member with rfl | listed
    · exact kept other own
    · exact facts other listed

/-- When a finished loop ends well, its events are those of its turns, each of which began well. -/
theorem of_foldlM_turns {body : σ → α → Prog Q R ε σ} (good : σ → Prop) (turn : α → Hist Q R ε → Prop)
    (each : ∀ state item after events, Reaches (body state item) [] (.done after) events →
      good after → good state ∧ turn item events)
    {items : List α} (reached : Reaches (items.foldlM body state) hist (.done final) seen) (fine : good final) :
    good state ∧ ∃ events, seen = events ++ hist ∧ Turns turn items events := by
  induction items generalizing state hist with
  | nil =>
    obtain ⟨same, rfl⟩ := of_done reached
    cases same
    exact ⟨fine, [], rfl, .nil⟩
  | cons item rest ih =>
    rw [List.foldlM_cons] at reached
    obtain ⟨after, middle, first, later⟩ := of_bind reached
    obtain ⟨well, events, rfl, turns⟩ := ih later
    obtain ⟨part, rfl, own⟩ := first.fresh
    obtain ⟨start, turned⟩ := each state item after part own well
    exact ⟨start, events ++ part, (List.append_assoc ..).symm, .cons turned turns⟩

/-- What a finished loop gathered came from its start or from one of its turns. -/
theorem of_foldlM_mem {item γ : Type} {body : σ → item → Prog Q R ε σ} (gathered : σ → γ → Prop)
    (origin : γ → Hist Q R ε → Prop)
    (grows : ∀ element older newer, older <:+ newer → origin element older → origin element newer)
    (turn : ∀ state next after before later, Reaches (body state next) before (.done after) later →
      ∀ element, gathered after element → gathered state element ∨ origin element later)
    {items : List item} (reached : Reaches (items.foldlM body state) hist (.done final) seen) (element : γ)
    (found : gathered final element) : gathered state element ∨ origin element seen := by
  induction items generalizing state hist with
  | nil =>
    obtain ⟨same, rfl⟩ := of_done reached
    cases same
    exact .inl found
  | cons next rest ih =>
    rw [List.foldlM_cons] at reached
    obtain ⟨after, middle, first, later⟩ := of_bind reached
    rcases ih later with before | heard
    · exact (turn state next after hist middle first element before).imp id
        (grows element middle seen later.suffix)
    · exact .inr heard

end Reaches

/-- A program that is safe from what it heard stays so along every history that it can learn. -/
theorem Safe.along {Q : Type} {R : Q → Type} {ε α : Type} {D : Discipline Q R ε (Hist Q R ε)}
    {program last : Prog Q R ε α} {hist seen : Hist Q R ε} {post : Except ε α → Hist Q R ε → Prop}
    (safe : Safe D program hist post) (reached : Reaches program hist last seen)
    (learns : ∀ newer event older, seen = newer ++ event :: older →
      D.learn older event.request event.answer (event :: older)) : Safe D last seen post := by
  induction reached with
  | here => exact safe
  | @answer request next middle before reply ih =>
    have earlier := ih fun newer event older split => learns (_ :: newer) event older (by rw [split]; rfl)
    exact (Safe.ask_iff.mp earlier).2 reply _ (learns [] ⟨request, reply⟩ middle rfl)

namespace Prog

variable {Q : Type} {R : Q → Type} {ε α : Type}

/-- A replay reaches its outcome. -/
theorem replay_reaches (respond : (request : Q) → Except ε (R request)) (program : Prog Q R ε α)
    (hist : Hist Q R ε) :
    Reaches program hist (ofExcept (program.replay respond).2)
      ((program.replay respond).1.reverse ++ hist) := by
  induction program generalizing hist with
  | done value => exact .here
  | fail error => exact .here
  | ask request next ih =>
    have rest := ih (respond request) (⟨request, respond request⟩ :: hist)
    simp only [replay, List.reverse_cons, List.append_assoc, List.singleton_append]
    exact .head _ rest

/-- Every request of a replay got the given answer. -/
theorem replay_answers {respond : (request : Q) → Except ε (R request)} {program : Prog Q R ε α}
    {event : Event Q R ε} (member : event ∈ (program.replay respond).1) :
    event = ⟨event.request, respond event.request⟩ := by
  induction program with
  | done value => cases member
  | fail error => cases member
  | ask request next ih =>
    rcases List.mem_cons.mp member with rfl | later
    · rfl
    · exact ih (respond request) later

end Prog

end Coop
