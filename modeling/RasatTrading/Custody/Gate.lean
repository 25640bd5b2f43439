import RasatTrading.Custody.Recording
import RasatTrading.Footprints

/-! The checks before an order: what they read, and that no draft gets past the caps unjudged. -/

namespace Rasat

open Coop Prog

variable {svc : Service} {accountId : String} {known origin : Knowledge} {rows : List Order}

/-- The knowledge after requests that touch neither custody nor doubts. -/
structure Steady (known learned : Knowledge) : Prop where
  call : learned.call = known.call
  view : learned.view = known.view
  suspect : learned.suspect ↔ known.suspect
  suffix : known.hist <:+ learned.hist

theorem Steady.refl (known : Knowledge) : Steady known known :=
  ⟨rfl, rfl, Iff.rfl, List.suffix_refl _⟩

theorem Steady.trans {a b c : Knowledge} (first : Steady a b) (second : Steady b c) : Steady a c :=
  ⟨second.call.trans first.call, second.view.trans first.view, second.suspect.trans first.suspect,
    first.suffix.trans second.suffix⟩

variable {learned : Knowledge}

theorem Kept.steady {known : Knowledge} (kept : Kept known learned) :
    Steady known learned :=
  ⟨kept.call, kept.view, kept.suspect, kept.suffix⟩

theorem Steady.held {scope : Option String} (steady : Steady known learned)
    (held : Held scope known rows) : Held scope learned rows :=
  ⟨steady.view.trans held.1, held.2⟩

theorem Steady.session {scope : Option String} (steady : Steady known learned)
    (held : Held scope known rows) : Session scope known learned :=
  ⟨steady.call, ⟨rows, steady.held held⟩, steady.suffix⟩

/-- A quiet program in a sequence: it keeps everything and its errors end the session's work. -/
theorem quiet_then {α β : Type} {program : Task α} {next : α → Task β} (only : program.Only Quiet)
    (held : Held accountId origin rows) (steady : Steady origin known)
    (rest : ∀ value learned, Steady origin learned → Kept known learned →
      Safe (custody svc.text) (next value) learned fun _ g => Session accountId origin g) :
    Safe (custody svc.text) (program.bind next) known fun _ g => Session accountId origin g := by
  refine Safe.bind (quiet_safe only) ?_ ?_
  · intro value learned facts
    exact rest value learned (steady.trans facts.1.steady) facts.1
  · intro raised learned facts
    exact (steady.trans facts.1.steady).session held

/-- A synchronous check in a sequence. -/
theorem sync_then {α β : Type} {result : Except Exc α} {next : α → Task β}
    (held : Held accountId origin rows) (steady : Steady origin known)
    (rest : ∀ value, result = .ok value →
      Safe (custody svc.text) (next value) known fun _ g => Session accountId origin g) :
    Safe (custody svc.text) ((sync result).bind next) known fun _ g => Session accountId origin g := by
  refine Safe.bind sync_safe ?_ ?_
  · rintro value learned ⟨rfl, same⟩
    exact rest value same.symm
  · rintro raised learned ⟨rfl, -⟩
    exact steady.session held

theorem quiet_of_asking {α : Type} {program : Task α} (only : program.Only Asking) : program.Only Quiet := by
  refine only.mono fun request asking => ?_
  cases request with
  | read query => cases query <;> trivial
  | market call => trivial
  | broker call => cases call <;> trivial
  | credentials accountId => trivial
  | _ => exact absurd asking id

theorem currentExposure_only (quote : String) : (currentExposure accountId quote).Only Quiet :=
  quiet_of_asking (currentExposure_asks accountId quote)

theorem equityFromBalances_only (balances : Balances) (quote : String) :
    (equityFromBalances balances quote).Only Quiet :=
  quiet_of_asking (equityFromBalances_asks balances quote)

theorem requireSymbol_only (symbol : String) : (requireSymbol symbol).Only Quiet :=
  quiet_of_asking (requireSymbol_asks symbol)

theorem requireFilters_only (symbol : String) : (requireFilters symbol).Only Quiet := by
  refine only_asks trivial fun filters => ?_
  cases filters <;> exact trivial

theorem isReal_only (account : Account) : (isReal account).Only Quiet :=
  quiet_of_asking isReal_asks

variable {account : Account}

/-- An account passes for a real one exactly when its snapshot says `real`. -/
theorem isReal_safe : Safe (custody svc.text) (isReal account) known fun outcome learned =>
      Kept known learned ∧
        ∀ real, outcome = .ok real → account.tradingLock = if real then .real else .paper := by
  refine ((quiet_safe (isReal_only account)).and ?_).mono fun outcome learned both =>
    ⟨both.1.1, both.2⟩
  unfold isReal
  cases locked : account.tradingLock with
  | paper =>
    refine .done fun real same => ?_
    cases same
    rfl
  | real =>
    have quiet : Quiet (.credentials account.accountId) := trivial
    refine Safe.bind (quiet_safe (only_call.mpr quiet)) (fun _ _ _ => .done fun real same => ?_)
      fun _ _ _ _ impossible => nomatch impossible
    cases same
    rfl

/-- Quiet events do not change the newest policy read. -/
theorem lastPolicyRead_quiet {events rest : History} (quiet : ∀ event ∈ events, Quiet event.request) :
    lastPolicyRead (events ++ rest) = lastPolicyRead rest := by
  induction events with
  | nil => rfl
  | cons event older ih =>
    have tail := ih fun other member => quiet other (by simp [member])
    have head : Quiet event.request := quiet event (by simp)
    obtain ⟨request, answer⟩ := event
    rw [← tail]
    -- A policy read is the only event that would stop the search, and it is not quiet.
    cases request with
    | read query => cases query <;> first | exact False.elim head | rfl
    | _ => rfl

theorem Kept.lastPolicyRead (kept : Kept known learned) :
    lastPolicyRead learned.hist = lastPolicyRead known.hist := by
  obtain ⟨events, grown, quiet⟩ := kept.hist
  rw [grown]
  exact lastPolicyRead_quiet quiet

/-- A judgement outlasts quiet requests. -/
theorem Kept.judged {text : Text} {draft : OrderDraft}
    (kept : Kept known learned) (judged : Judged text known.hist draft) :
    Judged text learned.hist draft := by
  obtain ⟨policy, seen, exposure, newest, ⟨until_, reached, inside⟩, verdict⟩ := judged
  refine ⟨policy, seen, exposure, kept.lastPolicyRead.trans newest,
    ⟨until_, reached, inside.trans kept.suffix⟩, ?_⟩
  rcases verdict with passed | ⟨now, audit, override, member⟩
  · exact .inl passed
  · exact .inr ⟨now, audit, override, kept.suffix.subset member⟩

/-- A read touches neither custody nor doubts. -/
theorem Learns.readSteady {query : Query} {answer : Except Exc query.Ans}
    (learns : Learns known (.read query) answer learned) : Steady known learned :=
  ⟨learns.call, learns.neutral trivial, learns.suspect.trans (or_iff_left fun doubt => doubt),
    by rw [learns.hist]; exact List.suffix_cons _ _⟩

/-- `get_policy` leaves the policy that it returns as the newest one read. -/
theorem getPolicy_safe (stripped : strip accountId = accountId) :
    Safe (custody svc.text) (getPolicy accountId) known
      (Outcome (fun policy learned => Steady known learned ∧
          lastPolicyRead learned.hist = some (policy, learned.hist))
        fun _ learned => Steady known learned) := by
  unfold getPolicy
  rw [stripped]
  split
  · exact .fail (Steady.refl known)
  unfold dbRead
  refine Safe.bind_iff.mpr (neutral_call trivial fun answer learned learns _ => ?_)
  cases answer with
  | error raised => exact learns.readSteady
  | ok found =>
    cases found with
    | none => exact .fail learns.readSteady
    | some policy => exact .done ⟨learns.readSteady, by rw [learns.hist]; rfl⟩

/-- `_enforce_caps_or_override` returns only when the caps hold or an override was applied. -/
theorem enforceCapsOrOverride_safe {policy : RiskPolicy} {seen : History}
    {exposure : ℚ} {draft : OrderDraft} (named : account.accountId = draft.accountId)
    (stripped : strip draft.accountId = draft.accountId)
    (newest : lastPolicyRead known.hist = some (policy, seen))
    (exposed : Exposed known.hist seen draft.accountId exposure) :
    Safe (custody svc.text)
      (enforceCapsOrOverride svc account policy draft.symbol draft.notional
        (exposure + draft.notional) draft.idempotencyKey) known
      (Outcome (fun _ learned => Steady known learned ∧ Judged svc.text learned.hist draft)
        fun _ learned => Steady known learned) := by
  unfold enforceCapsOrOverride
  split
  · rename_i passed
    exact .done ⟨Steady.refl known, policy, seen, exposure, newest, exposed, .inl passed⟩
  split
  swap
  · exact .fail (Steady.refl known)
  -- Some cap is exceeded, so an override has to be applied.
  unfold consumeOverride
  rw [named, stripped]
  split
  · exact .fail (Steady.refl known)
  split
  · exact .fail (Steady.refl known)
  refine Safe.bind_iff.mpr (Safe.bind_iff.mpr ?_)
  refine neutral_call trivial fun ticked read learns _ => ?_
  have kept : Kept known read := learns.kept trivial
  have newestEvent := learns.hist
  cases ticked with
  | error raised => exact kept.steady
  | ok now =>
    unfold dbWrite
    refine Safe.call_iff.mpr ⟨⟨policy, seen, known.hist, kept.lastPolicyRead.trans newest, rfl,
      newestEvent⟩, fun answer learned learns => ?_⟩
    have steady : Steady known learned :=
      kept.steady.trans ⟨learns.call, learns.view,
        learns.suspect.trans (or_iff_left fun doubt => doubt),
        by rw [learns.hist]; exact List.suffix_cons _ _⟩
    cases answer with
    | error raised => exact steady
    | ok applied =>
      cases applied with
      | none => exact .fail steady
      | some override =>
        -- The write is the newest event and leaves the policy read where it was.
        refine .done ⟨steady, policy, seen, exposure, ?_, ?_, .inr ⟨now, svc.audit, override, ?_⟩⟩
        · rw [learns.hist]
          exact kept.lastPolicyRead.trans newest
        · obtain ⟨until_, reached, inside⟩ := exposed
          exact ⟨until_, reached, inside.trans steady.suffix⟩
        · rw [learns.hist]
          exact List.mem_cons_self

/-- The policy, the exposure and the caps of a draft, one after the other. -/
theorem gate_then {β : Type} (draft : OrderDraft) {next : Task β}
    (named : account.accountId = draft.accountId) (stripped : strip draft.accountId = draft.accountId)
    (held : Held accountId origin rows) (steady : Steady origin known)
    (rest : ∀ learned, Steady origin learned → Judged svc.text learned.hist draft →
      Safe (custody svc.text) next learned fun _ g => Session accountId origin g) :
    Safe (custody svc.text)
      ((getPolicy draft.accountId).bind fun policy =>
        (currentExposure draft.accountId quoteAsset).bind fun exposure =>
          (enforceCapsOrOverride svc account policy draft.symbol draft.notional
            (exposure + draft.notional) draft.idempotencyKey).bind fun _ => next)
      known fun _ g => Session accountId origin g := by
  refine Safe.bind (getPolicy_safe stripped) ?_ ?_
  · intro policy read facts
    have steady := steady.trans facts.1
    refine Safe.bind (quiet_safe (currentExposure_only quoteAsset)) ?_ ?_
    · intro exposure looked facts'
      have newest := facts'.1.lastPolicyRead.trans facts.2
      have exposed : Exposed looked.hist read.hist draft.accountId exposure :=
        ⟨looked.hist, facts'.2, List.suffix_refl _⟩
      have steady := steady.trans facts'.1.steady
      refine Safe.bind (enforceCapsOrOverride_safe named stripped newest exposed) ?_ ?_
      · intro _ judged facts''
        exact rest judged (steady.trans facts''.1) facts''.2
      · intro raised judged facts''
        exact (steady.trans facts'').session held
    · intro raised looked facts'
      exact (steady.trans facts'.1.steady).session held
  · intro raised read facts
    exact (steady.trans facts).session held

end Rasat
