import RasatTrading.Custody.Discipline

/-! Steps of a task inside and outside an account's lock, and what each of them keeps. -/

namespace Rasat

open Coop

variable {text : Text}

/-- Requests that leave custody, doubts and the newest policy read as they are. -/
def Quiet : Req → Prop
  | .market _ | .clock | .uuid | .credentials _ => True
  | .broker (.getBalance _) | .broker (.getAllOpenOrders _) => True
  | .read (.policy _) => False
  | .read _ => True
  | _ => False

/-- The knowledge after some quiet requests. -/
structure Kept (known learned : Knowledge) : Prop where
  call : learned.call = known.call
  view : learned.view = known.view
  suspect : learned.suspect ↔ known.suspect
  hist : ∃ events, learned.hist = events ++ known.hist ∧ ∀ event ∈ events, Quiet event.request

theorem Kept.refl (known : Knowledge) : Kept known known :=
  ⟨rfl, rfl, Iff.rfl, [], rfl, by simp⟩

theorem Kept.trans {a b c : Knowledge} (first : Kept a b) (second : Kept b c) : Kept a c := by
  obtain ⟨call, view, suspect, events, grown, quiet⟩ := first
  obtain ⟨call', view', suspect', events', grown', quiet'⟩ := second
  refine ⟨call'.trans call, view'.trans view, suspect'.trans suspect, events' ++ events, ?_, ?_⟩
  · rw [grown', grown, List.append_assoc]
  · intro event member
    rcases List.mem_append.mp member with newer | older
    · exact quiet' event newer
    · exact quiet event older

variable {known : Knowledge}

theorem Kept.suffix {learned : Knowledge} (kept : Kept known learned) : known.hist <:+ learned.hist := by
  obtain ⟨events, grown, -⟩ := kept.hist
  exact ⟨events, grown.symm⟩

variable {request : Req} {answer : Except Exc request.Ans}

/-- A quiet request is permitted and keeps what the task knows. -/
theorem Learns.kept {learned : Knowledge}
    (learns : Learns known request answer learned) (quiet : Quiet request) :
    Kept known learned := by
  refine ⟨learns.call, ?_, ?_, [⟨request, answer⟩], learns.hist, by simpa using quiet⟩
  · -- No quiet request is one of those that change what is held.
    have step := learns.view
    cases request with
    | read query =>
      cases answer with
      | error raised => exact step
      | ok found => exact step.1
    | lock _ => exact False.elim quiet
    | unlock _ => exact False.elim quiet
    | write _ => exact False.elim quiet
    | _ => exact step
  · rw [learns.suspect]
    refine or_iff_left ?_
    intro doubt
    cases request with
    | broker call => cases call <;> first | exact quiet | exact doubt
    | _ => exact doubt

/-- A program that only makes quiet requests keeps what the task knows. -/
theorem quiet_safe {α : Type} {program : Task α} (only : program.Only Quiet) :
    Safe (custody text) program known fun outcome learned =>
      Kept known learned ∧ Reaches program known.hist (Prog.ofExcept outcome) learned.hist := by
  refine Safe.traced Knowledge.hist (fun _ _ _ _ (learns : Learns _ _ _ _) => learns.hist) ?_
  refine Safe.of_only Quiet (Kept known) ?_ ?_ only (Kept.refl known)
  · intro ghost request _ quiet
    cases request with
    | lock _ => exact False.elim quiet
    | unlock _ => exact False.elim quiet
    | write _ => exact False.elim quiet
    | orderService _ => exact False.elim quiet
    | broker call =>
      cases call <;> first | exact False.elim quiet | exact ⟨(fun _ other => nomatch other), trivial⟩
    | _ => trivial
  · intro ghost request answer learned kept quiet learns
    exact kept.trans (Learns.kept learns quiet)

/-- A synchronous computation asks nothing. -/
theorem sync_safe {α : Type} {result : Except Exc α} :
    Safe (custody text) (sync result) known fun outcome learned =>
      learned = known ∧ outcome = result :=
  Safe.ofExcept_iff.mpr ⟨rfl, rfl⟩

/-- The rows that the scope selects are in the task's custody. -/
def Held (scope : Option String) (known : Knowledge) (rows : List Order) : Prop :=
  known.view = some ⟨scope, rows⟩ ∧ View.Valid ⟨scope, rows⟩

/-- The task keeps custody and serves the same call with a longer history. -/
structure Session (scope : Option String) (known learned : Knowledge) : Prop where
  call : learned.call = known.call
  held : ∃ rows, Held scope learned rows
  hist : known.hist <:+ learned.hist

section

variable {scope : Option String} {known learned : Knowledge} {rows : List Order}

theorem Session.trans {a b c : Knowledge} (first : Session scope a b) (second : Session scope b c) :
    Session scope a c :=
  ⟨second.call.trans first.call, second.held, first.hist.trans second.hist⟩

theorem Session.refl (held : Held scope known rows) : Session scope known known :=
  ⟨rfl, ⟨rows, held⟩, List.suffix_refl _⟩

theorem Kept.session (kept : Kept known learned) (held : Held scope known rows) :
    Session scope known learned :=
  ⟨kept.call, ⟨rows, kept.view.trans held.1, held.2⟩, kept.suffix⟩

theorem Kept.held (kept : Kept known learned) (held : Held scope known rows) :
    Held scope learned rows :=
  ⟨kept.view.trans held.1, held.2⟩

end

/-- What a task saw stays in its history. -/
theorem SawReal.mono {hist longer : History} {accountId : String} (saw : SawReal hist accountId)
    (suffix : hist <:+ longer) : SawReal longer accountId := by
  obtain ⟨event, member, rest⟩ := saw
  exact ⟨event, suffix.subset member, rest⟩

/-- Requests without custody need no permission and leave custody as it is. -/
def Neutral : Req → Prop
  | .lock _ | .unlock _ | .write (.insertOrder _ _ _) | .write (.updateOrder _ _ _)
  | .write (.consumeOverride _ _ _ _ _) | .orderService _ => False
  | .broker call => call.mutates = none
  | .write (.setRiskPolicy _ patch _ _) => parseSymbols patch.symbols = patch.symbols
  | _ => True

/-- A neutral request is permitted, and the view stays. -/
theorem Learns.neutral {learned : Knowledge} (learns : Learns known request answer learned)
    (neutral : Neutral request) : learned.view = known.view := by
  have step := learns.view
  cases request with
  | read query =>
    cases answer with
    | error raised => exact step
    | ok found => exact step.1
  | lock _ => exact False.elim neutral
  | unlock _ => exact False.elim neutral
  | write tx => cases tx <;> first | exact False.elim neutral | exact step
  | _ => exact step

/-- A neutral request is permitted whatever the task knows. -/
theorem Neutral.permits (neutral : Neutral request) (known : Knowledge) : Permits text known request := by
  cases request with
  | lock _ => exact False.elim neutral
  | unlock _ => exact False.elim neutral
  | orderService _ => exact False.elim neutral
  | write tx => cases tx <;> first | exact False.elim neutral | trivial
  | broker call =>
    -- Only calls that change something at the broker ask for more.
    have quiet : call.mutates = none := neutral
    refine ⟨fun accountId changes => ?_, ?_⟩
    · rw [quiet] at changes
      cases changes
    · cases call <;> first | exact False.elim neutral | trivial
  | _ => trivial

/-- One neutral request: any answer, the same custody. -/
theorem neutral_call {post : Except Exc request.Ans → Knowledge → Prop} (neutral : Neutral request)
    (after : ∀ answer learned, Learns known request answer learned →
      learned.view = known.view → post answer learned) :
    Safe (custody text) (Prog.call request) known post :=
  Safe.call_iff.mpr ⟨neutral.permits known, fun answer learned learns =>
    after answer learned learns (learns.neutral neutral)⟩

/-- After a neutral request the session goes on. -/
theorem Learns.session {scope : Option String} {learned : Knowledge} {rows : List Order}
    (learns : Learns known request answer learned) (neutral : Neutral request)
    (held : Held scope known rows) : Session scope known learned :=
  ⟨learns.call, ⟨rows, (learns.neutral neutral).trans held.1, held.2⟩,
    by rw [learns.hist]; exact List.suffix_cons _ _⟩

end Rasat
