import RasatTrading.Coop.Simulation

/-! Tasks that know their call and everything they heard, and rules for what they ask next. -/

namespace Coop

variable {Q : Type} {R : Q → Type} {ε α World Choice Call Out : Type}

/-- The call of a task and its events, newest first. -/
structure Record (Q : Type) (R : Q → Type) (ε Call : Type) where
  call : Option Call
  hist : Hist Q R ε

/-- The record after one more answer. -/
def Record.after (record : Record Q R ε Call) (request : Q) (answer : Except ε (R request)) :
    Record Q R ε Call := { record with hist := ⟨request, answer⟩ :: record.hist }

/-- The record that a task has in a state. -/
def Sys.record (s : Sys Q R ε World Call Out) (task : Nat) : Record Q R ε Call :=
  ⟨s.calls task, s.hist task⟩

/-- A rule for what may be asked after a record; every answer is recorded. -/
def recording (rule : Record Q R ε Call → Q → Prop) : Discipline Q R ε (Record Q R ε Call) where
  rule := rule
  learn := fun record request answer learned => learned = record.after request answer

/-- Every task asks by the rule from its true record, and rests as required. -/
def recorded (rule : Record Q R ε Call → Q → Prop) (rest : Record Q R ε Call → Prop) :
    Simulation Q R ε World Call Out (Record Q R ε Call) where
  discipline := recording rule
  inv := fun _ => True
  rep := fun s task record => record = s.record task
  rest := rest

attribute [grind =] recorded

variable {rule : Record Q R ε Call → Q → Prop} {rest : Record Q R ε Call → Prop}

variable {program : Prog Q R ε α} {record : Record Q R ε Call} {post : Except ε α → Record Q R ε Call → Prop}
  {m : Machine Q R ε World Choice Call Out}

/-- A program whose footprint the rule always allows is safe from any record. -/
theorem only_recording {kind : Q → Prop}
    (allows : ∀ record request, kind request → rule record request) (only : program.Only kind) :
    Safe (recording rule) program record fun _ _ => True := by
  refine (Safe.of_only kind (fun _ => True) ?_ ?_ only trivial).mono fun _ _ _ => trivial
  · exact fun record request _ asked => allows record request asked
  · exact fun _ _ _ _ _ _ _ => trivial

/-- One request under a rule: it is recorded with its answer. -/
theorem recording_call {request : Q} {post : Except ε (R request) → Record Q R ε Call → Prop} :
    Safe (recording rule) (Prog.call request) record post ↔
      rule record request ∧ ∀ answer, post answer (record.after request answer) := by
  rw [Safe.call_iff]
  refine and_congr_right fun _ => ⟨fun all answer => all answer _ rfl, ?_⟩
  rintro all answer learned rfl
  exact all answer

/-- One request in a sequence. -/
theorem recording_then {β : Type} {request : Q} {next : R request → Prog Q R ε β}
    {post : Except ε β → Record Q R ε Call → Prop} (allowed : rule record request)
    (value : ∀ result, Safe (recording rule) (next result) (record.after request (.ok result)) post)
    (error : ∀ raised, post (.error raised) (record.after request (.error raised))) :
    Safe (recording rule) ((Prog.call request).bind next) record post := by
  rw [Safe.bind_iff, recording_call]
  refine ⟨allowed, fun answer => ?_⟩
  cases answer with
  | ok result => exact value result
  | error raised => exact error raised

/-- Whatever a program does, its record only grows. -/
theorem recording_grows (safe : Safe (recording rule) program record post) :
    Safe (recording rule) program record fun outcome g => post outcome g ∧ record.hist <:+ g.hist := by
  refine (Safe.traced Record.hist ?_ safe).mono fun outcome g facts => ⟨facts.1, facts.2.suffix⟩
  rintro record request answer learned rfl
  rfl

/-- A part of a kind that the rule always allows, in a sequence. -/
theorem recording_part {β : Type} {kind : Q → Prop} {next : α → Prog Q R ε β}
    (allows : ∀ record request, kind request → rule record request) (only : program.Only kind)
    (rest : ∀ value g, record.hist <:+ g.hist → Safe (recording rule) (next value) g fun _ _ => True) :
    Safe (recording rule) (program.bind next) record fun _ _ => True := by
  have safe : Safe (recording rule) program record fun _ _ => True := only_recording allows only
  exact Safe.bind (recording_grows safe) (fun value g facts => rest value g facts.2) fun _ _ _ => trivial

/-- Whatever a program does, its record stays that of its call. -/
theorem recording_keeps (safe : Safe (recording rule) program record post) :
    Safe (recording rule) program record fun outcome g => post outcome g ∧ g.call = record.call := by
  induction program generalizing record with
  | done value => exact Safe.done_iff.mpr ⟨Safe.done_iff.mp safe, rfl⟩
  | fail error => exact Safe.fail_iff.mpr ⟨Safe.fail_iff.mp safe, rfl⟩
  | ask request next ih =>
    obtain ⟨allowed, rest⟩ := Safe.ask_iff.mp safe
    refine Safe.ask_iff.mpr ⟨allowed, fun answer g learned => ?_⟩
    obtain rfl := learned
    exact ih answer (rest answer _ rfl)

/-- A safe program stays safe along any answers, from the record of what it heard. -/
theorem recording_along {last : Prog Q R ε α} {call : Option Call} {hist seen : Hist Q R ε}
    (safe : Safe (recording rule) program ⟨call, hist⟩ post)
    (reached : Reaches program hist last seen) : Safe (recording rule) last ⟨call, seen⟩ post := by
  induction reached with
  | here => exact safe
  | answer _ reply ih => exact (Safe.ask_iff.mp ih).2 reply _ rfl

/-- When every program keeps to the rule from a fresh record, so does every task of every run. -/
theorem recorded_sound
    (boot : Safe (recording rule) m.boot ⟨none, []⟩ fun _ record => rest record)
    (calls : ∀ call, Safe (recording rule) (m.program call) ⟨some call, []⟩
      fun _ record => rest record)
    (allowed : Sys Q R ε World Call Out → Move Choice Call → Prop) :
    (recorded rule rest).Sound m allowed where
  resume := by
    rintro s task choice request next answer world record _ _ _ rfl _ _
    refine ⟨trivial, ⟨_, rfl, ?_⟩, ?_⟩
    · simp [recorded, Record.after, Sys.record, Sys.answered, Sys.hist, histOf, Entry.eventOf]
    · rintro other program record differ _ rfl _
      simp only [recorded, Sys.record]
      rw [Sys.hist_answered_other differ]
      rfl
  «open» := by
    intro s call value represented _ _
    have unused := represented.orderly.unused s.fresh (Nat.le_refl _)
    refine ⟨trivial, ⟨⟨some call, []⟩, ?_, calls call⟩, ?_⟩
    · simp only [recorded, Sys.record, Machine.hist_opened]
      rw [unused.2.2]
      simp [Machine.opened]
    · rintro other program record differ _ rfl _
      simp [recorded, Sys.record, Machine.opened, Function.update_of_ne differ, Sys.hist]
      rfl
  crash := by
    intro s represented _
    have unused := represented.orderly.unused s.fresh (Nat.le_refl _)
    refine ⟨trivial, ⟨none, []⟩, ?_, boot⟩
    simp only [recorded, Sys.record, Machine.hist_crashed]
    rw [unused.2.2, show (m.crashed s).calls s.fresh = _ from unused.2.1]

/-- A freshly started system is represented. -/
theorem recorded_started {world : World}
    (boot : Safe (recording rule) m.boot ⟨none, []⟩ fun _ record => rest record) :
    (recorded rule rest).Represented (m.start world) where
  orderly := Machine.start_orderly world
  inv := trivial
  task := by
    intro task program running
    by_cases first : task = 0
    · subst first
      have same : m.boot = program := by simpa [Machine.start] using running
      exact ⟨⟨none, []⟩, rfl, same ▸ boot⟩
    · simp [Machine.start, first] at running

/-- A waiting task's request is allowed after its record. -/
theorem recorded_asks {s : Sys Q R ε World Call Out} {task : Nat} {request : Q}
    {next : Except ε (R request) → Prog Q R ε Out} (represented : (recorded rule rest).Represented s)
    (running : s.tasks task = some (.ask request next)) : rule (s.record task) request := by
  obtain ⟨record, rfl, keeps⟩ := represented.task task _ running
  exact (Safe.ask_iff.mp keeps).1

/-- A finished task's record is one to rest at. -/
theorem recorded_rests {s : Sys Q R ε World Call Out} {task : Nat} {outcome : Except ε Out}
    (represented : (recorded rule rest).Represented s)
    (finished : s.tasks task = some (Prog.ofExcept outcome)) : rest (s.record task) := by
  obtain ⟨record, rfl, keeps⟩ := represented.task task _ finished
  exact Safe.ofExcept_iff.mp keeps

/-- Everything that a task ever asked was allowed by the rule after what it had heard until then. -/
theorem recorded_history {allowed : Sys Q R ε World Call Out → Move Choice Call → Prop}
    (sound : (recorded rule rest).Sound m allowed) {s after : Sys Q R ε World Call Out}
    (initial : (recorded rule rest).Represented s) (silent : ∀ task, s.hist task = [])
    (steps : m.Steps allowed s after) :
    ∀ task newer event older, after.hist task = newer ++ event :: older →
      rule ⟨after.calls task, older⟩ event.request := by
  refine sound.invariant (fun s => ∀ task newer event older,
    s.hist task = newer ++ event :: older → rule ⟨s.calls task, older⟩ event.request)
    (fun s move after represented _ stepped before => ?_) initial (fun task newer event older split => ?_)
    steps
  · intro task newer event older split
    have unused := represented.orderly.unused s.fresh (Nat.le_refl _)
    obtain ⟨call, value, rfl, -, rfl⟩ |
      ⟨owner, choice, request, next, answer, world, rfl, running, performed, rfl⟩ | ⟨rfl, rfl⟩ :=
      Machine.step_cases stepped
    · rw [Machine.hist_opened] at split
      by_cases new : task = s.fresh
      · rw [new, unused.2.2] at split
        simp at split
      · simpa [Machine.opened, Function.update_of_ne new] using before task newer event older split
    · by_cases own : task = owner
      · subst own
        rw [Sys.hist_answered_self] at split
        cases newer with
        | nil =>
          -- The newest event was allowed when it was asked.
          obtain ⟨rfl, rfl⟩ := List.cons.inj split
          exact recorded_asks represented running
        | cons first newer => exact before task newer event older (List.cons.inj split).2
      · rw [Sys.hist_answered_other own] at split
        exact before task newer event older split
    · exact before task newer event older split
  · rw [silent] at split
    simp at split

end Coop
