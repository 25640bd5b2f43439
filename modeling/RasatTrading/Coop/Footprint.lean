import RasatTrading.Coop.Logic

/-! Which requests a program can make at all, and what that says about its histories. -/

namespace Coop

variable {Q : Type} {R : Q → Type} {ε α β σ Ghost : Type} {request : Q}

namespace Prog

/-- Every request that the program can make, under any answers, is of the given kind. -/
def Only (kind : Q → Prop) : Prog Q R ε α → Prop
  | .done _ => True
  | .fail _ => True
  | .ask request next => kind request ∧ ∀ answer, (next answer).Only kind

attribute [grind =] Only

variable {kind : Q → Prop}

@[simp] theorem only_done {value : α} : (Prog.done value : Prog Q R ε α).Only kind := trivial

@[simp] theorem only_fail {error : ε} : (Prog.fail error : Prog Q R ε α).Only kind := trivial

@[simp] theorem only_ofExcept {outcome : Except ε α} : (ofExcept outcome : Prog Q R ε α).Only kind := by
  cases outcome <;> trivial

@[simp] theorem only_call : (call request : Prog Q R ε (R request)).Only kind ↔ kind request := by
  simp [call, Only]

/-- A program asks within every kind that allows everything. -/
theorem only_of_forall (all : ∀ request, kind request) (program : Prog Q R ε α) : program.Only kind := by
  induction program with
  | done value => trivial
  | fail error => trivial
  | ask request next ih => exact ⟨all request, ih⟩

variable {program : Prog Q R ε α}

/-- What is of one kind is of any wider kind. -/
theorem Only.mono {wider : Q → Prop} (only : program.Only kind)
    (widens : ∀ request, kind request → wider request) : program.Only wider := by
  induction program with
  | done value => trivial
  | fail error => trivial
  | ask request next ih => exact ⟨widens request only.1, fun answer => ih answer (only.2 answer)⟩

/-- A sequence asks what its parts ask. -/
theorem only_bind {next : α → Prog Q R ε β}
    (first : program.Only kind) (rest : ∀ value, (next value).Only kind) :
    (program.bind next).Only kind := by
  induction program with
  | done value => exact rest value
  | fail error => trivial
  | ask request resume ih => exact ⟨first.1, fun answer => ih answer (first.2 answer)⟩

/-- One request in a sequence. -/
theorem only_asks {next : R request → Prog Q R ε β} (asks : kind request)
    (rest : ∀ answer, (next answer).Only kind) : ((call request).bind next).Only kind :=
  only_bind (only_call.mpr asks) rest

/-- Capturing the outcome asks nothing more. -/
theorem only_attempt (only : program.Only kind) : program.attempt.Only kind := by
  induction program with
  | done value => trivial
  | fail error => trivial
  | ask request resume ih => exact ⟨only.1, fun answer => ih answer (only.2 answer)⟩

/-- A handled program asks what it and its handler ask. -/
theorem only_rescue {handler : ε → Prog Q R ε α}
    (only : program.Only kind) (handled : ∀ error, (handler error).Only kind) :
    (program.rescue handler).Only kind := by
  refine only_bind (only_attempt only) fun outcome => ?_
  cases outcome with
  | ok value => trivial
  | error raised => exact handled raised

/-- A loop asks what its body asks. -/
theorem only_foldlM {body : σ → α → Prog Q R ε σ} (only : ∀ state item, (body state item).Only kind)
    (items : List α) (state : σ) : (items.foldlM body state).Only kind := by
  induction items generalizing state with
  | nil => trivial
  | cons item rest ih =>
    rw [List.foldlM_cons]
    exact only_bind (only state item) ih

end Prog

variable {D : Discipline Q R ε Ghost}

/-- Whatever the footprint of a program permits and preserves holds of every outcome. -/
theorem Safe.of_only (kind : Q → Prop) (holds : Ghost → Prop)
    (permitted : ∀ ghost request, holds ghost → kind request → D.rule ghost request)
    (kept : ∀ ghost request answer learned, holds ghost → kind request →
      D.learn ghost request answer learned → holds learned)
    {program : Prog Q R ε α} (only : program.Only kind) {ghost : Ghost} (start : holds ghost) :
    Safe D program ghost fun _ g => holds g := by
  induction program generalizing ghost with
  | done value => exact done_iff.mpr start
  | fail error => exact fail_iff.mpr start
  | ask request next ih =>
    refine ask_iff.mpr ⟨permitted ghost request start only.1, fun answer g learned => ?_⟩
    exact ih answer (only.2 answer) (kept ghost request answer g start only.1 learned)

/-- Two postconditions can be established one at a time. -/
theorem Safe.and {program : Prog Q R ε α} {ghost : Ghost}
    {left right : Except ε α → Ghost → Prop} (first : Safe D program ghost left)
    (second : Safe D program ghost right) :
    Safe D program ghost fun outcome g => left outcome g ∧ right outcome g := by
  induction program generalizing ghost with
  | done value => exact done_iff.mpr ⟨done_iff.mp first, done_iff.mp second⟩
  | fail error => exact fail_iff.mpr ⟨fail_iff.mp first, fail_iff.mp second⟩
  | ask request next ih =>
    obtain ⟨permitted, left⟩ := ask_iff.mp first
    obtain ⟨-, right⟩ := ask_iff.mp second
    refine ask_iff.mpr ⟨permitted, fun answer g learned => ?_⟩
    exact ih answer (left answer g learned) (right answer g learned)

namespace Reaches

variable {program middle last : Prog Q R ε α} {hist seen final : Hist Q R ε}

/-- Progress can be split at any point. -/
theorem trans (first : Reaches program hist middle seen) (second : Reaches middle seen last final) :
    Reaches program hist last final := by
  induction second with
  | here => exact first
  | answer _ reply ih => exact .answer ih reply

/-- One answer at the front. -/
theorem head {next : Except ε (R request) → Prog Q R ε α}
    (reply : Except ε (R request)) (rest : Reaches (next reply) (⟨request, reply⟩ :: hist) last final) :
    Reaches (.ask request next) hist last final :=
  trans (.answer .here reply) rest

/-- A finished program makes no progress. -/
theorem of_done {value : α} (reached : Reaches (.done value) hist last final) :
    last = .done value ∧ final = hist := by
  induction reached with
  | here => exact ⟨rfl, rfl⟩
  | answer _ _ ih => cases ih.1

/-- A waiting program is still there or got an answer first. -/
theorem of_ask {next : Except ε (R request) → Prog Q R ε α}
    (reached : Reaches (.ask request next) hist last final) :
    (last = .ask request next ∧ final = hist) ∨
      ∃ reply, Reaches (next reply) (⟨request, reply⟩ :: hist) last final := by
  induction reached with
  | here => exact .inl ⟨rfl, rfl⟩
  | answer _ reply ih =>
    rcases ih with ⟨same, rfl⟩ | ⟨first, rest⟩
    · cases same
      exact .inr ⟨reply, .here⟩
    · exact .inr ⟨first, .answer rest reply⟩

/-- Progress only adds events, and each of them is of a kind that the program can ask. -/
theorem only {kind : Q → Prop} (reached : Reaches program hist last final) (asks : program.Only kind) :
    ∃ events, final = events ++ hist ∧ (∀ event ∈ events, kind event.request) ∧ last.Only kind := by
  induction reached with
  | here => exact ⟨[], rfl, by simp, asks⟩
  | @answer request next seen _ reply ih =>
    obtain ⟨events, rfl, kinds, rest⟩ := ih
    refine ⟨⟨request, reply⟩ :: events, rfl, ?_, rest.2 reply⟩
    intro event member
    rcases List.mem_cons.mp member with rfl | older
    · exact rest.1
    · exact kinds event older

/-- Progress only adds events. -/
theorem suffix (reached : Reaches program hist last final) : hist <:+ final := by
  induction reached with
  | here => exact List.suffix_refl _
  | answer _ _ ih => exact ih.trans (List.suffix_cons _ _)

/-- Along one history a program returns at most one value, after the same events. -/
theorem deterministic {value other : α} {whole : Hist Q R ε} {left right : Hist Q R ε}
    (first : Reaches program hist (.done value) left) (inFirst : left <:+ whole)
    (second : Reaches program hist (.done other) right) (inSecond : right <:+ whole) :
    value = other ∧ left = right := by
  induction program generalizing hist with
  | done result =>
    obtain ⟨same, rfl⟩ := of_done first
    obtain ⟨same', rfl⟩ := of_done second
    cases same
    cases same'
    exact ⟨rfl, rfl⟩
  | fail error =>
    -- A failed program never becomes a finished one.
    exfalso
    have stuck : ∀ {p : Prog Q R ε α} {h : Hist Q R ε}, Reaches (.fail error) hist p h →
        p = .fail error := by
      intro p h reached
      induction reached with
      | here => rfl
      | answer _ _ ih => cases ih
    cases stuck first
  | ask request next ih =>
    rcases of_ask first with ⟨same, -⟩ | ⟨reply, rest⟩
    · cases same
    rcases of_ask second with ⟨same, -⟩ | ⟨reply', rest'⟩
    · cases same
    -- Both continuations extend the old history by one event of the same whole history.
    have suffix := rest.suffix.trans inFirst
    have suffix' := rest'.suffix.trans inSecond
    have equal := (List.suffix_of_suffix_length_le suffix suffix' (by simp)).eq_of_length (by simp)
    simp only [List.cons.injEq, Event.mk.injEq, heq_eq_eq, true_and, and_true] at equal
    subst equal
    exact ih reply rest rest'

end Reaches

/-- A safe program's outcomes are reached along the history that its knowledge records. -/
theorem Safe.traced (histOf : Ghost → Hist Q R ε)
    (records : ∀ ghost request answer learned, D.learn ghost request answer learned →
      histOf learned = ⟨request, answer⟩ :: histOf ghost)
    {program : Prog Q R ε α} {ghost : Ghost} {post : Except ε α → Ghost → Prop}
    (safe : Safe D program ghost post) :
    Safe D program ghost fun outcome g =>
      post outcome g ∧ Reaches program (histOf ghost) (Prog.ofExcept outcome) (histOf g) := by
  induction program generalizing ghost with
  | done value => exact done_iff.mpr ⟨done_iff.mp safe, .here⟩
  | fail error => exact fail_iff.mpr ⟨fail_iff.mp safe, .here⟩
  | ask request next ih =>
    obtain ⟨permitted, rest⟩ := ask_iff.mp safe
    refine ask_iff.mpr ⟨permitted, fun answer g learned => ?_⟩
    refine (ih answer (rest answer g learned)).mono fun outcome g' reached => ?_
    refine ⟨reached.1, .head answer ?_⟩
    rw [← records ghost request answer g learned]
    exact reached.2

end Coop
