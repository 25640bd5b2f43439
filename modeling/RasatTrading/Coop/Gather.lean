import Mathlib.Data.List.Basic
import RasatTrading.Coop.Footprint

/-! Programs that run side by side behind a semaphore, until all of them have come to their end. -/

namespace Coop

variable {ι Q : Type} {R : Q → Type} {ε α Ghost : Type}

/-- One of the programs that are gathered. -/
structure Member (ι Q : Type) (R : Q → Type) (ε α : Type) where
  key : ι
  /-- It has passed the semaphore. -/
  entered : Bool
  /-- What it has still to do. -/
  rest : Prog Q R ε α
  /-- What it has asked so far, newest first. -/
  hist : Hist Q R ε

namespace Member

/-- A program before it comes to the semaphore. -/
def spawn (program : ι → Prog Q R ε α) (key : ι) : Member ι Q R ε α := ⟨key, false, program key, []⟩

/-- What a program came to, once it is behind the semaphore and at its end. -/
def outcome (member : Member ι Q R ε α) : Option (Except ε α) :=
  if member.entered then
    match member.rest with
    | .done value => some (.ok value)
    | .fail error => some (.error error)
    -- It still waits for an answer.
    | .ask _ _ => none
  else none

/-- It takes up a place of the semaphore. -/
def inside (member : Member ι Q R ε α) : Bool := member.entered && member.outcome.isNone

/-- A program after it passed the semaphore. -/
def enter (member : Member ι Q R ε α) : Member ι Q R ε α := { member with entered := true }

/-- A program after its request got an answer. -/
def answered (member : Member ι Q R ε α) (request : Q) (next : Except ε (R request) → Prog Q R ε α)
    (answer : Except ε (R request)) : Member ι Q R ε α :=
  { member with rest := next answer, hist := ⟨request, answer⟩ :: member.hist }

attribute [grind =] answered

/-- What a member is at comes from its program by what it has asked. -/
def OnTrack (program : ι → Prog Q R ε α) (member : Member ι Q R ε α) : Prop :=
  Reaches (program member.key) [] member.rest member.hist

/-- The member has some knowledge, from which it keeps to the discipline up to its end. -/
def Knows (D : Discipline Q R ε Ghost) (known : Ghost → Prop) (post : Except ε α → Ghost → Prop)
    (member : Member ι Q R ε α) : Prop :=
  ∃ ghost, known ghost ∧ Safe D member.rest ghost post

variable {program : ι → Prog Q R ε α} {member : Member ι Q R ε α} {request : Q}
  {next : Except ε (R request) → Prog Q R ε α} {answer : Except ε (R request)}

@[simp] theorem key_spawn (key : ι) : (spawn program key).key = key := rfl

@[simp] theorem key_enter : member.enter.key = member.key := rfl

@[simp] theorem key_answered : (member.answered request next answer).key = member.key := rfl

/-- A program that came to its end returned or raised that outcome. -/
theorem rest_of_outcome {found : Except ε α} (ended : member.outcome = some found) :
    member.rest = Prog.ofExcept found := by
  unfold outcome at ended
  split at ended
  -- Only a program at its end has an outcome.
  · split at ended
    · rename_i value rest
      cases ended
      exact rest
    · rename_i error rest
      cases ended
      exact rest
    · cases ended
  · cases ended

theorem OnTrack.spawn (key : ι) : (Member.spawn program key).OnTrack program := .here

theorem OnTrack.enter (on_track : member.OnTrack program) : member.enter.OnTrack program := on_track

/-- An answer keeps a member on its track. -/
theorem OnTrack.answered (on_track : member.OnTrack program) (running : member.rest = .ask request next)
    (answer : Except ε (R request)) : (member.answered request next answer).OnTrack program := by
  unfold OnTrack at on_track
  rw [running] at on_track
  exact .answer on_track answer

variable {D : Discipline Q R ε Ghost} {known later : Ghost → Prop} {post : Except ε α → Ghost → Prop}

/-- Knowledge that stays true lets a member go on as before. -/
theorem Knows.mono (knows : member.Knows D known post) (implies : ∀ ghost, known ghost → later ghost) :
    member.Knows D later post := by
  obtain ⟨ghost, holds, safe⟩ := knows
  exact ⟨ghost, implies ghost holds, safe⟩

theorem Knows.enter (knows : member.Knows D known post) : member.enter.Knows D known post := knows

/-- An answer that teaches something true lets the member go on. -/
theorem Knows.answered (knows : member.Knows D known post) (running : member.rest = .ask request next)
    (teaches : ∀ ghost, known ghost → ∃ learned, D.learn ghost request answer learned ∧ later learned) :
    (member.answered request next answer).Knows D later post := by
  obtain ⟨ghost, holds, safe⟩ := knows
  rw [running] at safe
  obtain ⟨learned, taught, true_later⟩ := teaches ghost holds
  exact ⟨learned, true_later, (Safe.ask_iff.mp safe).2 answer learned taught⟩

/-- At its end a member knows what its program promises. -/
theorem Knows.outcome (knows : member.Knows D known post) {found : Except ε α}
    (ended : member.outcome = some found) : ∃ ghost, known ghost ∧ post found ghost := by
  obtain ⟨ghost, holds, safe⟩ := knows
  rw [rest_of_outcome ended] at safe
  exact ⟨ghost, holds, Safe.ofExcept_iff.mp safe⟩

end Member

/-- The programs of a gather. -/
abbrev Gather (ι Q : Type) (R : Q → Type) (ε α : Type) := List (Member ι Q R ε α)

namespace Gather

/-- The programs for some keys, before any of them runs. -/
def start (program : ι → Prog Q R ε α) (keys : List ι) : Gather ι Q R ε α := keys.map (Member.spawn program)

attribute [grind =] start

/-- Let one program pass the semaphore, which has so many places. -/
def enter (places : Nat) (members : Gather ι Q R ε α) (index : Nat) : Option (Gather ι Q R ε α) :=
  match members[index]? with
  | some member =>
    -- A place is free once the program that had it has come to its end.
    if member.entered = false ∧ members.countP Member.inside < places then some (members.set index member.enter)
    else none
  | none => none

/-- Serve the request of one program that is behind the semaphore. -/
def resume {σ : Type} (serve : (request : Q) → Option (Except ε (R request) × σ)) (members : Gather ι Q R ε α)
    (index : Nat) : Option (Gather ι Q R ε α × σ) :=
  match members[index]? with
  | some member =>
    if member.entered then
      match member.rest with
      | .ask request next =>
        (serve request).map fun (answer, after) => (members.set index (member.answered request next answer), after)
      | _ => none
    else none
  | none => none

/-- What the programs came to, once all of them are at their ends. -/
def outcomes (members : Gather ι Q R ε α) : Option (List (Except ε α)) := members.mapM Member.outcome

variable {members after : Gather ι Q R ε α} {places index : Nat} {program : ι → Prog Q R ε α}

theorem mem_start {keys : List ι} {member : Member ι Q R ε α} (listed : member ∈ start program keys) :
    ∃ key ∈ keys, member = Member.spawn program key := by
  obtain ⟨key, given, rfl⟩ := List.mem_map.mp listed
  exact ⟨key, given, rfl⟩

@[simp] theorem keys_start (keys : List ι) : (start program keys).map Member.key = keys := by
  unfold start
  rw [List.map_map]
  exact List.map_id keys

/-- A member that is replaced by one of the same key leaves the keys as they are. -/
theorem keys_set {member replaced : Member ι Q R ε α} (found : members[index]? = some member)
    (same : replaced.key = member.key) : (members.set index replaced).map Member.key = members.map Member.key := by
  rw [List.map_set, same]
  apply List.ext_getElem?
  intro other
  rw [List.getElem?_set]
  -- The place that is set shows the key that it had; the others were not touched.
  split
  · rename_i here
    subst here
    rw [List.getElem?_map, found, Option.map_some, if_pos]
    rw [List.length_map]
    exact (List.getElem?_eq_some_iff.mp found).1
  · rfl

/-- One program passes the semaphore, the others stay as they are. -/
theorem enter_cases (entered : enter places members index = some after) :
    ∃ member, members[index]? = some member ∧ member.entered = false ∧
      after.map Member.key = members.map Member.key ∧
      ∀ other ∈ after, other ∈ members ∨ other = member.enter := by
  unfold enter at entered
  split at entered
  · rename_i member found
    split at entered
    · rename_i waits
      cases entered
      refine ⟨member, found, waits.1, keys_set found rfl, ?_⟩
      intro other listed
      exact List.mem_or_eq_of_mem_set listed
    · cases entered
  · cases entered

/-- One program gets its answer, the others stay as they are. -/
theorem resume_cases {σ : Type} {serve : (request : Q) → Option (Except ε (R request) × σ)} {state : σ}
    (resumed : resume serve members index = some (after, state)) :
    ∃ member, members[index]? = some member ∧ ∃ request next answer, member.entered = true ∧
      member.rest = .ask request next ∧ serve request = some (answer, state) ∧
      after.map Member.key = members.map Member.key ∧
      ∀ other ∈ after, other ∈ members ∨ other = member.answered request next answer := by
  unfold resume at resumed
  split at resumed
  · rename_i member found
    split at resumed
    · rename_i inside
      split at resumed
      · rename_i request next running
        obtain ⟨⟨answer, served⟩, performed, same⟩ := Option.map_eq_some_iff.mp resumed
        cases same
        refine ⟨member, found, request, next, answer, inside, running, performed, keys_set found rfl, ?_⟩
        intro other listed
        exact List.mem_or_eq_of_mem_set listed
      · cases resumed
    · cases resumed
  · cases resumed

variable {results : List (Except ε α)}

/-- The outcomes are those of the members, in their order. -/
theorem outcomes_eq_some (ended : outcomes members = some results) :
    members.map Member.outcome = results.map some := by
  unfold outcomes at ended
  induction members generalizing results with
  | nil =>
    rw [List.mapM_nil] at ended
    cases ended
    rfl
  | cons member rest ih =>
    -- The first member and all others have an outcome, or there is none at all.
    rw [List.mapM_cons] at ended
    obtain ⟨result, own, ended⟩ := Option.bind_eq_some_iff.mp ended
    obtain ⟨others, later, ended⟩ := Option.bind_eq_some_iff.mp ended
    cases ended
    rw [List.map_cons, List.map_cons, own, ih later]

theorem outcome_mem (ended : outcomes members = some results)
    {member : Member ι Q R ε α} (listed : member ∈ members) :
    ∃ result ∈ results, member.outcome = some result := by
  have own : member.outcome ∈ results.map some := by
    rw [← outcomes_eq_some ended]
    exact List.mem_map_of_mem listed
  obtain ⟨result, among, same⟩ := List.mem_map.mp own
  exact ⟨result, among, same.symm⟩

theorem mem_of_outcome (ended : outcomes members = some results) {result : Except ε α}
    (listed : result ∈ results) : ∃ member ∈ members, member.outcome = some result := by
  have own : some result ∈ members.map Member.outcome := by
    rw [outcomes_eq_some ended]
    exact List.mem_map_of_mem listed
  exact List.mem_map.mp own

theorem length_outcomes (ended : outcomes members = some results) : results.length = members.length := by
  have same := congrArg List.length (outcomes_eq_some ended)
  rw [List.length_map, List.length_map] at same
  exact same.symm

end Gather

section Count

variable {β : Type} {first second : β → Bool}

/-- Two kinds that exclude each other do not make up more than the list. -/
theorem countP_add_le_length (apart : ∀ element, first element = true → second element = false) (list : List β) :
    list.countP first + list.countP second ≤ list.length := by
  induction list with
  | nil => simp
  | cons element rest ih =>
    have excluded := apart element
    rw [List.countP_cons, List.countP_cons, List.length_cons]
    grind

/-- They make up the list by their counts exactly when each of its elements is of one of them. -/
theorem countP_add_eq_length_iff (apart : ∀ element, first element = true → second element = false) {list : List β} :
    list.countP first + list.countP second = list.length ↔
      ∀ element ∈ list, first element = true ∨ second element = true := by
  induction list with
  | nil => simp
  | cons element rest ih =>
    have most := countP_add_le_length apart rest
    have excluded := apart element
    rw [List.countP_cons, List.countP_cons, List.length_cons, List.forall_mem_cons, ← ih]
    grind

end Count

end Coop
