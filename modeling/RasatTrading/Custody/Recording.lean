import RasatTrading.Custody.Session

/-! Recording orders keeps custody: insertions, submissions, reconciliations and retries. -/

namespace Rasat

open Coop

variable {svc : Service} {scope : Option String} {accountId : String} {known : Knowledge}
  {rows : List Order}

variable {audit : Option AuditEntry} {row : Order}

/-- An update of an open row in custody is permitted and changes just that row. -/
theorem update_safe {change : OrderUpdate}
    (held : Held scope known rows) (member : row ∈ rows) (isOpen : row.status.isOpen)
    (cancel : change.status = .canceled → Cancelable known row) :
    Safe (custody svc.text) (dbWrite (.updateOrder row.orderId change audit)) known
      fun outcome learned => Session scope known learned ∧ (learned.suspect ↔ known.suspect) ∧
        ∀ done, outcome = .ok done →
          Held scope learned (updateRows row.orderId change rows) := by
  unfold dbWrite
  rw [Safe.call_iff]
  refine ⟨⟨_, row, held.1, member, rfl, isOpen, cancel⟩, fun answer learned learns => ?_⟩
  have valid := learns.valid
  have step := learns.view
  rw [held.1] at step
  have longer : known.hist <:+ learned.hist := by rw [learns.hist]; exact List.suffix_cons _ _
  have doubts := learns.suspect.trans (or_iff_left fun doubt => doubt)
  cases answer with
  | error raised =>
    -- A failed transaction leaves the rows as they were.
    have same : learned.view = some ⟨scope, rows⟩ := step
    exact ⟨⟨learns.call, ⟨rows, same, held.2⟩, longer⟩, doubts, fun _ impossible => nomatch impossible⟩
  | ok done =>
    have updated : learned.view = some ⟨scope, updateRows row.orderId change rows⟩ := step
    have now : Held scope learned (updateRows row.orderId change rows) :=
      ⟨updated, valid _ updated⟩
    exact ⟨⟨learns.call, ⟨_, now⟩, longer⟩, doubts, fun _ _ => now⟩

/-- Asking the broker for an order's state keeps custody and leaves a report of that order. -/
theorem queryState_safe (order : Order) (held : Held scope known rows) :
    Safe (custody svc.text) (queryState accountId order) known fun outcome learned =>
      Held scope learned rows ∧ Session scope known learned ∧
        ∃ event, learned.hist = event :: known.hist ∧ isQuery event ∧
          brokerReport accountId order.clientOrderId event = some outcome := by
  unfold queryState broker
  split
  · refine neutral_call rfl fun answer learned learns view => ?_
    refine ⟨⟨view.trans held.1, held.2⟩, learns.session rfl held, _, learns.hist, rfl, ?_⟩
    simp [brokerReport]
  · refine neutral_call rfl fun answer learned learns view => ?_
    refine ⟨⟨view.trans held.1, held.2⟩, learns.session rfl held, _, learns.hist, rfl, ?_⟩
    simp [brokerReport]

/-- A lookup whose canonical errors count as no answer. -/
theorem orNone_safe {text : Text} {α : Type} {lookup : Task (Option α)}
    {post : Except Exc (Option α) → Knowledge → Prop} (safe : Safe (custody text) lookup known post) :
    Safe (custody text) (orNone lookup) known
      (Outcome (fun found learned => post (.ok found) learned ∨
          (found = none ∧ ∃ error, post (.error (.rasat error)) learned))
        fun raised learned => post (.error raised) learned) := by
  refine Safe.rescue safe (fun found learned holds => .inl holds) fun raised learned holds => ?_
  cases raised with
  | rasat error => exact .done (.inr ⟨rfl, error, holds⟩)
  | timeout => exact .fail holds
  | integrity _ => exact .fail holds
  | other _ => exact .fail holds

/-- A report that an order is CANCELED lets its row become CANCELED. -/
theorem cancelable_of_report {event : Event Req Req.Ans Exc} {rest : History}
    {result : OrderResult} (newest : known.hist = event :: rest)
    (report : brokerReport row.accountId row.clientOrderId event = some (.ok (some result)))
    (canceled : result.toUpdate.status = .canceled) : Cancelable known row :=
  .reported event rest newest (.inl ⟨result, report, canceled⟩)

variable {account : Account}

/-- `_reconcile_after_timeout` keeps custody of the account. -/
theorem reconcileAfterTimeout_safe {order : Order} {symbol actor : String}
    (held : Held accountId known rows) (named : account.accountId = accountId)
    (member : order ∈ rows) (owner : order.accountId = accountId) (isOpen : order.status.isOpen) :
    Safe (custody svc.text) (reconcileAfterTimeout svc account order symbol actor) known
      fun _ learned => Session accountId known learned := by
  unfold reconcileAfterTimeout
  rw [named]
  refine Safe.bind (orNone_safe (queryState_safe order held)) ?_ ?_
  · intro found learned answered
    -- Whatever the lookup came to, the row is still open and in custody.
    have held' : Held accountId learned rows := by
      rcases answered with ⟨now, -, -⟩ | ⟨-, error, now, -, -⟩ <;> exact now
    have so_far : Session accountId known learned := by
      rcases answered with ⟨-, now, -⟩ | ⟨-, error, -, now, -⟩ <;> exact now
    cases found with
    | none =>
      refine Safe.bind (update_safe held' member isOpen ?_) ?_ ?_
      · intro impossible; cases impossible
      · intro _ last written; exact .done (so_far.trans written.1)
      · intro _ last written; exact so_far.trans written.1
    | some result =>
      refine Safe.bind (update_safe held' member isOpen ?_) ?_ ?_
      · intro canceled
        rcases answered with ⟨-, -, event, newest, -, report⟩ | ⟨impossible, -⟩
        · exact cancelable_of_report newest (owner ▸ report) canceled
        · cases impossible
      · intro _ last written; exact .done (so_far.trans written.1)
      · intro _ last written; exact so_far.trans written.1
  · intro raised learned answered
    exact answered.2.1

/-- `_handle_existing` keeps custody of the account. -/
theorem handleExisting_safe {existing : Order}
    (held : Held accountId known rows) (named : account.accountId = accountId)
    (member : existing ∈ rows) (owner : existing.accountId = accountId) :
    Safe (custody svc.text) (handleExisting svc account existing) known
      fun _ learned => Session accountId known learned := by
  unfold handleExisting
  split
  · exact .done (Session.refl held)
  split
  · exact .done (Session.refl held)
  -- The stored order is open and the account is real, so the broker is asked.
  rename_i settled _
  have isOpen : existing.status.isOpen = true := by simpa using settled
  rw [named]
  refine Safe.bind (orNone_safe (queryState_safe existing held)) ?_ ?_
  · intro found learned answered
    cases found with
    | none =>
      rcases answered with ⟨-, now, -⟩ | ⟨-, error, -, now, -⟩ <;> exact .done now
    | some result =>
      rcases answered with ⟨held', so_far, event, newest, -, report⟩ | ⟨impossible, -⟩
      · refine Safe.bind (update_safe held' member isOpen ?_) ?_ ?_
        · intro canceled
          exact cancelable_of_report newest (owner ▸ report) canceled
        · intro _ last written; exact .done (so_far.trans written.1)
        · intro _ last written; exact so_far.trans written.1
      · cases impossible
  · intro raised learned answered
    exact answered.2.1

variable {draft : OrderDraft}

/-- An insertion under the account's lock is permitted once the draft is judged. -/
theorem insert_safe {simulated : Bool} (held : Held accountId known rows) (owner : draft.accountId = accountId)
    (judged : (∃ call, known.call = some call ∧ call.isClose) ∨ Judged svc.text known.hist draft) :
    Safe (custody svc.text) (dbWrite (.insertOrder draft simulated audit)) known
      fun outcome learned => Session accountId known learned ∧
        ∀ row, outcome = .ok row →
          row = newOrder draft simulated row.orderId row.createdAt ∧
            Held accountId learned (rows ++ [row]) ∧ (learned.suspect ↔ known.suspect) ∧
            learned.hist = ⟨.write (.insertOrder draft simulated audit), .ok row⟩ :: known.hist := by
  unfold dbWrite
  rw [Safe.call_iff]
  refine ⟨⟨⟨rows, by rw [owner]; exact held.1⟩, judged⟩, fun answer learned learns => ?_⟩
  have valid := learns.valid
  have step := learns.view
  have grown := learns.hist
  rw [held.1] at step
  have longer : known.hist <:+ learned.hist := by rw [learns.hist]; exact List.suffix_cons _ _
  cases answer with
  | error raised =>
    have same : learned.view = some ⟨some accountId, rows⟩ := step
    exact ⟨⟨learns.call, ⟨rows, same, held.2⟩, longer⟩, fun _ impossible => nomatch impossible⟩
  | ok row =>
    obtain ⟨shape, -, after⟩ := step
    have inserted : learned.view = some ⟨some accountId, rows ++ [row]⟩ := after
    have now : Held accountId learned (rows ++ [row]) := ⟨inserted, valid _ inserted⟩
    refine ⟨⟨learns.call, ⟨_, now⟩, longer⟩, fun other same => ?_⟩
    cases same
    exact ⟨shape, now, learns.suspect.trans (or_iff_left fun doubt => doubt), grown⟩

/-- What follows a failed submission keeps custody of the account. -/
theorem submissionFailed_safe {order : Order}
    {symbol actor timeoutText action : String} {raised : Exc} (held : Held accountId known rows)
    (named : account.accountId = accountId) (member : order ∈ rows)
    (owner : order.accountId = accountId) (isOpen : order.status.isOpen) :
    Safe (custody svc.text) (submissionFailed svc account order symbol actor timeoutText action raised)
      known fun _ learned => Session accountId known learned := by
  unfold submissionFailed
  split
  · exact .fail (Session.refl held)
  rename_i error _
  split
  · exact reconcileAfterTimeout_safe held named member owner isOpen
  · -- A refused order becomes REJECTED or UNKNOWN, never CANCELED.
    refine Safe.bind (update_safe held member isOpen ?_) ?_ ?_
    · intro impossible
      simp only [failedUpdate] at impossible
      split at impossible <;> cases impossible
    · intro _ last written; exact .done (written.1)
    · intro _ last written; exact written.1

/-- A row that was just inserted for the broker is open. -/
theorem newOrder_isOpen {orderId : String} {now : Int} :
    (newOrder draft false orderId now).status.isOpen = true := rfl

/-- Submitting the order whose row was just committed keeps custody and leaves its report. -/
theorem submit_safe {call : BrokerCall} (order : Order) (ask : call.Ans = OrderResult)
    (held : Held accountId known rows) (permitted : Permits svc.text known (.broker call))
    (report : ∀ answer : Except Exc call.Ans,
      brokerReport order.accountId order.clientOrderId ⟨.broker call, answer⟩ =
        some ((ask ▸ answer : Except Exc OrderResult).map some)) :
    Safe (custody svc.text) (broker call) known fun outcome learned =>
      Held accountId learned rows ∧ Session accountId known learned ∧
        ∃ event, learned.hist = event :: known.hist ∧
          brokerReport order.accountId order.clientOrderId event =
            some ((ask ▸ outcome : Except Exc OrderResult).map some) := by
  unfold broker
  rw [Safe.call_iff]
  refine ⟨permitted, fun answer learned learns => ?_⟩
  -- No broker call changes what is held.
  have same : learned.view = known.view := learns.view
  have now : Held accountId learned rows := ⟨same.trans held.1, held.2⟩
  exact ⟨now, ⟨learns.call, ⟨rows, now⟩, by rw [learns.hist]; exact List.suffix_cons _ _⟩,
    _, learns.hist, report answer⟩

/-- After an insertion for the broker, the task is armed for exactly that row. -/
theorem armed_of_insert {before : Knowledge}
    (newest : known.hist = ⟨.write (.insertOrder draft false audit), .ok row⟩ :: before.hist)
    (serving : known.call = before.call) (owner : draft.accountId = accountId)
    (keyed : ∀ key, before.call.bind Call.key = some key → draft.idempotencyKey = key) :
    Armed known accountId row :=
  ⟨draft, audit, before.hist, newest, owner, by rw [serving]; exact keyed⟩

/-- What `_place_and_record` needs: custody, a judged draft, and for the broker a real account. -/
structure Placeable (text : Text) (p : Placement) (known : Knowledge) (rows : List Order) : Prop where
  held : Held p.account.accountId known rows
  judged : (∃ call, known.call = some call ∧ call.isClose) ∨ Judged text known.hist (p.draft text)
  saw : p.isReal → SawReal known.hist p.account.accountId
  keyed : ∀ key, known.call.bind Call.key = some key → p.idempotencyKey = key
  accounted : (∃ call, known.call = some call ∧ call.isClose) →
    ∀ other ∈ rows, isOpenClose p.account.accountId p.symbol other →
      known.suspect ∨ Excused known.hist other

/-- An excuse stays in the history. -/
theorem Excused.mono {hist longer : History} (excused : Excused hist row)
    (suffix : hist <:+ longer) : Excused longer row := by
  obtain ⟨event, member, rest⟩ := excused
  exact ⟨event, suffix.subset member, rest⟩

/-- `_place_and_record` keeps custody of the account. -/
theorem placeAndRecord_safe {p : Placement} (ready : Placeable svc.text p known rows) :
    Safe (custody svc.text) (placeAndRecord svc p) known
      fun _ learned => Session p.account.accountId known learned := by
  unfold placeAndRecord
  refine Safe.bind sync_safe ?_ ?_
  · rintro _ same ⟨rfl, -⟩
    split
    · -- A paper order is only recorded.
      refine Safe.bind (insert_safe ready.held rfl ready.judged) ?_ ?_
      · intro row last inserted; exact .done (inserted.1)
      · intro raised last inserted; exact inserted.1
    rename_i real
    have real : p.isReal = true := by simpa using real
    refine Safe.bind (insert_safe ready.held rfl ready.judged) ?_ ?_
    · intro row stored inserted
      obtain ⟨so_far, facts⟩ := inserted
      obtain ⟨shape, held, doubts, newest⟩ := facts row rfl
      have owner : row.accountId = p.account.accountId := by rw [shape]; rfl
      have isOpen : row.status.isOpen = true := by rw [shape]; exact newOrder_isOpen
      have member : row ∈ rows ++ [row] := by simp
      -- The committed row permits its own submission.
      have permitted : Permits svc.text stored (.broker (.placeOrder (p.order svc.text))) := by
        refine ⟨?_, row, ?_, ?_⟩
        · intro target same
          cases same
          exact (ready.saw real).mono so_far.hist
        · exact armed_of_insert newest so_far.call rfl ready.keyed
        · rintro closing view other there listed candidate differ
          rw [held.1] at there
          cases there
          rw [so_far.call] at closing
          rcases List.mem_append.mp listed with old | new
          · rcases ready.accounted closing other old candidate with doubt | excuse
            · exact .inl (doubts.mpr doubt)
            · exact .inr (excuse.mono so_far.hist)
          · exact absurd (by rw [List.mem_singleton.mp new]) differ
      refine Safe.attempt_bind (submit_safe row rfl held permitted ?_) ?_
      · intro answer
        rw [shape]
        simp [brokerReport, Placement.order, newOrder, Placement.draft]
      · intro outcome sent answered
        obtain ⟨held', session, event, newest', report⟩ := answered
        have so_far := so_far.trans session
        cases outcome with
        | error raised =>
          exact (submissionFailed_safe held' rfl member owner isOpen).mono
            fun _ last step => so_far.trans step
        | ok result =>
          refine Safe.bind (update_safe held' member isOpen ?_) ?_ ?_
          · exact fun canceled => cancelable_of_report newest' report canceled
          · intro _ last written; exact .done (so_far.trans written.1)
          · intro _ last written; exact so_far.trans written.1
    · intro raised last inserted
      exact inserted.1
  · rintro raised same ⟨rfl, -⟩
    exact Session.refl ready.held

end Rasat
