import RasatTrading.Guarantees.DoubleSale
import RasatTrading.Sent.Stops

/-! The client order ids of emergency sales: whose they are, and under which a logged sale is looked up. -/

namespace Rasat

open Coop Prog Document

variable {svc : StopService} {lib : LogLibrary} {accountId symbol cid : String}

/-- What a run of the emergency stop may ask after what it heard: a sale has the id of its run, a lookup asks
for the last logged sale, and a sale is logged as it was submitted. -/
def cidRule (svc : StopService) (record : StopRecord) (request : StopReq) : Prop :=
  match request with
  | .sell accountId symbol _ cid => ∃ nonce, cid = stopCid accountId nonce symbol ∧
      (⟨.nonce, .ok nonce⟩ : Event StopReq StopReq.Ans Exc) ∈ record.hist
  | .query accountId symbol cid => ∃ rows, AsksFor svc rows accountId symbol cid ∧
      (⟨.entries, .ok rows⟩ : Event StopReq StopReq.Ans Exc) ∈ record.hist
  | .append action details =>
      (action = cancelLogAction ∧ ∃ accountId symbol key count, details = cancelDetails accountId symbol key count) ∨
      action = sellLogAction ∧ ∃ accountId nonce item result,
        details = sellDetails svc accountId nonce (stopCid accountId nonce item.symbol) item result ∧
          (⟨.sell accountId item.symbol item.quantity (stopCid accountId nonce item.symbol), .ok result⟩ :
            Event StopReq StopReq.Ans Exc) ∈ record.hist
  | _ => True

/-- The requests that neither sell nor look up a sale, and log no sale. -/
def StopReq.Saleless : StopReq → Prop
  | .sell _ _ _ _ | .query _ _ _ => False
  | .append action details => action = cancelLogAction ∧ ∃ accountId symbol key count,
      details = cancelDetails accountId symbol key count
  | _ => True

variable {record : StopRecord} {trace : StopTrace} {entry : Entry StopReq StopReq.Ans Exc StopCall}

theorem StopReq.Saleless.rule {request : StopReq} (saleless : request.Saleless) :
    cidRule svc record request := by
  cases request with
  | sell => exact absurd saleless id
  | query => exact absurd saleless id
  | append action details => exact .inl saleless
  | _ => trivial

theorem saleless_of_preparing {α : Type} {program : StopTask α} (only : program.Only StopReq.isPreparing) :
    program.Only StopReq.Saleless := by
  refine only.mono fun request preparing => ?_
  cases request with
  | sell => exact absurd preparing id
  | query => exact absurd preparing id
  | append action details => exact preparing
  | _ => trivial

/-- A part without sales in a sequence. -/
theorem saleless_then {α β : Type} {program : StopTask α} {next : α → StopTask β}
    (only : program.Only StopReq.Saleless)
    (rest : ∀ value g, record.hist <:+ g.hist →
      Safe (recording (cidRule svc)) (next value) g fun _ _ => True) :
    Safe (recording (cidRule svc)) (program.bind next) record fun _ _ => True :=
  recording_part (fun _ _ saleless => saleless.rule) only rest

/-- A new sale has the id of its run and is logged as it was submitted. -/
theorem sellNew_ids {runNonce : String} {item : PlanItem}
    (drawn : (⟨.nonce, .ok runNonce⟩ : Event StopReq StopReq.Ans Exc) ∈ record.hist) :
    Safe (recording (cidRule svc)) (sellNew svc accountId runNonce item) record fun _ _ => True := by
  have sale : Safe (recording (cidRule svc)) (sellAndLog svc accountId runNonce item) record
      fun _ _ => True := by
    unfold sellAndLog
    -- The id is built from the nonce that this run has drawn, and the same id goes into the log.
    simp only [stopAsk, bind_eq, pure_eq]
    refine recording_then ⟨runNonce, rfl, drawn⟩ (fun result => ?_) fun _ => trivial
    refine recording_then (.inr ⟨rfl, accountId, runNonce, item, result, rfl, List.mem_cons_self⟩)
      (fun _ => .done trivial) fun _ => trivial
  unfold sellNew
  refine Safe.attempt_bind sale fun outcome g _ => ?_
  split
  · exact .done trivial
  · exact .done trivial
  · exact .fail trivial

/-- Each turn of the sales looks up the last logged sale and submits its own. -/
theorem sellPlanned_ids {dryRun : Bool} {runNonce : String} {sold : List StopSale} {item : PlanItem}
    (drawn : (⟨.nonce, .ok runNonce⟩ : Event StopReq StopReq.Ans Exc) ∈ record.hist) :
    Safe (recording (cidRule svc)) (sellPlanned svc accountId dryRun runNonce sold item) record
      fun _ _ => True := by
  -- However the lookup ends, a new sale still knows the nonce of its run.
  have anew : ∀ g : StopRecord, record.hist <:+ g.hist →
      Safe (recording (cidRule svc)) ((sellNew svc accountId runNonce item).bind fun sale =>
        .done (sold ++ [sale])) g fun _ _ => True := fun g suffix =>
    Safe.bind (sellNew_ids (suffix.subset drawn)) (fun _ _ _ => .done trivial) fun _ _ _ => trivial
  unfold sellPlanned
  split
  · exact .done trivial
  simp only [stopAsk, bind_eq, pure_eq]
  refine recording_then trivial (fun rows => ?_) fun _ => trivial
  have first : record.hist <:+ (record.after .entries (.ok rows)).hist := List.suffix_cons _ _
  refine Safe.ofExcept_then (fun prior looked => ?_) fun _ _ => trivial
  split
  · rename_i details
    by_cases pending : isPendingText (memberOf "status" details)
    · rw [if_pos pending]
      refine Safe.ofExcept_then (fun cid named => ?_) fun _ _ => trivial
      -- The id that is asked for is that of the row just read.
      have query : Safe (recording (cidRule svc)) (queryPrior accountId item.symbol cid)
          (record.after .entries (.ok rows)) fun _ _ => True := by
        have asked : Safe (recording (cidRule svc)) (stopAsk (.query accountId item.symbol cid))
            (record.after .entries (.ok rows)) fun _ _ => True :=
          recording_call.mpr
            ⟨⟨rows, ⟨details, looked, pending, named⟩, List.mem_cons_self⟩, fun _ => trivial⟩
        unfold queryPrior
        simp only [bind_eq, pure_eq]
        refine Safe.attempt_bind asked fun outcome g _ => ?_
        split
        · exact .done trivial
        · exact .done trivial
        · exact .fail trivial
      refine Safe.bind (recording_grows query) (fun found g facts => ?_) fun _ _ _ => trivial
      have suffix := first.trans facts.2
      cases found with
      | none => exact anew g suffix
      | some found =>
        dsimp only
        split
        · exact .done trivial
        · exact anew g suffix
    · rw [if_neg pending]
      exact anew _ first
  · exact anew _ first

/-- The stop of one account sells under the ids of its run. -/
theorem stopAccount_ids {yes dryRun : Bool} :
    Safe (recording (cidRule svc)) (stopAccount svc accountId yes dryRun) record fun _ _ => True := by
  unfold stopAccount
  -- Orders, cancellations, balances, the plan and its confirmation come before any sale.
  refine saleless_then (only_call.mpr trivial) fun orders _ _ => ?_
  refine saleless_then (saleless_of_preparing (only_foldlM (cancelSymbol_prepares dryRun) _ _)) fun cancels _ _ => ?_
  refine saleless_then (only_call.mpr trivial) fun balances _ _ => ?_
  refine saleless_then (saleless_of_preparing (only_foldlM planAsset_prepares _ _)) fun planned _ _ => ?_
  unfold sellPlan
  refine saleless_then (saleless_of_preparing (confirmPlan_prepares yes dryRun _)) fun ended g _ => ?_
  cases ended with
  | some result => exact .done trivial
  | none =>
    simp only [stopAsk, bind_eq, pure_eq]
    refine recording_then trivial (fun runNonce => ?_) fun _ => trivial
    -- Every sale of the plan comes after the nonce was drawn.
    refine Safe.bind (Safe.foldlM
      (fun _ _ last => (g.after .nonce (.ok runNonce)).hist <:+ last.hist) (fun _ _ => True)
      (List.suffix_refl _) ?_) (fun _ _ _ => .done trivial) fun _ _ _ => trivial
    intro item rest sold last suffix
    have turn : Safe (recording (cidRule svc)) (sellPlanned svc accountId dryRun runNonce sold item) last
        fun _ _ => True := sellPlanned_ids (suffix.subset List.mem_cons_self)
    refine (recording_grows turn).mono fun outcome later facts => ?_
    cases outcome with
    | error raised => trivial
    | ok after => exact suffix.trans facts.2

/-- A run of the emergency stop keeps to the rule of ids. -/
theorem emergencyStop_ids {wanted : List String} {yes dryRun : Bool} :
    Safe (recording (cidRule svc)) (emergencyStop svc wanted yes dryRun) record fun _ _ => True :=
  emergencyStop_keeps (fun _ => trivial) (fun _ _ => trivial) fun _ _ => stopAccount_ids

/-! What the log remembers of the sales. -/

/-- A SELL was submitted under this id. -/
def Submitted (trace : StopTrace) (accountId symbol cid : String) : Prop :=
  ∃ task quantity answer, Entry.answered task ⟨.sell accountId symbol quantity cid, answer⟩ ∈ trace

/-- A SELL was submitted under this id, answered and logged with these details. -/
def LoggedAs (svc : StopService) (trace : StopTrace) (accountId symbol cid : String)
    (details : List (Str × Document)) : Prop :=
  ∃ task nonce item result, item.symbol = symbol ∧
    details = saleMembers svc accountId nonce cid item result ∧
    Entry.answered task ⟨.sell accountId symbol item.quantity cid, .ok result⟩ ∈ trace ∧
    Entry.answered task ⟨.append sellLogAction (sellDetails svc accountId nonce cid item result), .ok ()⟩ ∈ trace

/-- What the outside is documented to do in a run: a nonce has eight characters, account ids and symbols have
no colon, and every row is written whole. -/
structure Tidy (trace : StopTrace) : Prop where
  nonces : ∀ task nonce, Entry.answered task ⟨.nonce, .ok nonce⟩ ∈ trace → nonce.toList.length = 8
  sales : ∀ accountId symbol cid, Submitted trace accountId symbol cid → Plain accountId ∧ Plain symbol
  lookups : ∀ task accountId symbol cid answer,
    Entry.answered task ⟨.query accountId symbol cid, answer⟩ ∈ trace → Plain accountId ∧ Plain symbol
  written : ∀ task action details raised,
    Entry.answered task ⟨.append action details, .error raised⟩ ∉ trace

theorem Submitted.older (submitted : Submitted trace accountId symbol cid) :
    Submitted (entry :: trace) accountId symbol cid := by
  obtain ⟨task, quantity, answer, member⟩ := submitted
  exact ⟨task, quantity, answer, List.mem_cons_of_mem _ member⟩

theorem LoggedAs.older {details : List (Str × Document)}
    (logged : LoggedAs svc trace accountId symbol cid details) :
    LoggedAs svc (entry :: trace) accountId symbol cid details := by
  obtain ⟨task, nonce, item, result, named, same, sold, written⟩ := logged
  exact ⟨task, nonce, item, result, named, same, List.mem_cons_of_mem _ sold,
    List.mem_cons_of_mem _ written⟩

/-- A run that is tidy so far was tidy before. -/
theorem Tidy.before
    (tidy : Tidy (entry :: trace)) : Tidy trace where
  nonces := fun task nonce member => tidy.nonces task nonce (List.mem_cons_of_mem _ member)
  sales := fun _ _ _ submitted => tidy.sales _ _ _ submitted.older
  lookups := fun _ _ _ _ _ member => tidy.lookups _ _ _ _ _ (List.mem_cons_of_mem _ member)
  written := fun _ _ _ _ member => tidy.written _ _ _ _ (List.mem_cons_of_mem _ member)

/-- A row of the log that some run wrote: that of a cancellation, or that of a submitted sale. -/
def WrittenRow (svc : StopService) (trace : StopTrace) (row : Document) : Prop :=
  Lookable row ∧ ((∀ front, saleUnder svc.text front row = none) ∨
    ∃ seq prevHash actor hash now account nonce cid item result, Plain account ∧ Plain item.symbol ∧ cid ≠ "" ∧
      row = loggedRow seq prevHash actor sellLogAction (sellDetails svc account nonce cid item result) hash now ∧
      LoggedAs svc trace account item.symbol cid (saleMembers svc account nonce cid item result))

theorem WrittenRow.older {row : Document}
    (written : WrittenRow svc trace row) : WrittenRow svc (entry :: trace) row := by
  obtain ⟨lookable, other | sale⟩ := written
  · exact ⟨lookable, .inl other⟩
  · obtain ⟨seq, prevHash, actor, hash, now, account, nonce, cid, item, result, plain, plainSymbol, filled, same,
      logged⟩ := sale
    exact ⟨lookable, .inr ⟨seq, prevHash, actor, hash, now, account, nonce, cid, item, result, plain, plainSymbol,
      filled, same, logged.older⟩⟩

/-- The last sale that is found among written rows is a submitted one of the account and symbol. -/
theorem latest_written {rows : List Document} {details : List (Str × Document)}
    (plain : Plain accountId) (plainSymbol : Plain symbol) (written : ∀ row ∈ rows, WrittenRow svc trace row)
    (looked : latestSellDetails svc.text accountId symbol rows = .ok (some (.object details))) :
    ∃ cid, cid ≠ "" ∧ LoggedAs svc trace accountId symbol cid details := by
  rw [latestSellDetails_returns fun row listed => (written row listed).1] at looked
  obtain ⟨found, last, same⟩ := Option.map_eq_some_iff.mp (Except.ok.inj looked)
  cases same
  -- The row that was found is one of the rows.
  obtain ⟨row, listed, own⟩ := List.mem_filterMap.mp (List.mem_of_getLast? last)
  obtain ⟨-, other | sale⟩ := written row listed
  · rw [other] at own
    cases own
  · obtain ⟨seq, prevHash, actor, hash, now, account, nonce, cid, item, result, clear, clearSold, filled, rfl,
      logged⟩ := sale
    rw [saleUnder_sale plain plainSymbol clear clearSold] at own
    split at own
    · rename_i both
      obtain ⟨rfl, rfl⟩ := both
      cases own
      exact ⟨cid, filled, logged⟩
    · cases own

/-- What holds of the log as long as a run is tidy. -/
structure LogKept (svc : StopService) (s : StopState) : Prop where
  log : ∃ rows, LogHolds s.world rows ∧ ∀ row ∈ rows, WrittenRow svc s.trace row
  reads : ∀ task rows, Entry.answered task ⟨.entries, .ok rows⟩ ∈ s.trace → ∀ row ∈ rows, WrittenRow svc s.trace row

variable {s after : StopState}

/-- Every run keeps to the rule of the ids. -/
theorem ids_sound : (recorded (cidRule svc) fun _ => True).Sound (stopMachine svc lib) fun _ _ => True :=
  recorded_sound (.done trivial) (fun _ => emergencyStop_ids) _

theorem started_ids {log : ByteArray} :
    (recorded (cidRule svc) fun _ => True).Represented ((stopMachine svc lib).start log) :=
  recorded_started (.done trivial)

variable {task : ℕ}

/-- A row that a run logs under the rule is a written one. -/
theorem loggedRow_written {action : String} {details : List (Key × Raw)}
    (rule : cidRule svc record (.append action details))
    (known : ∀ event ∈ record.hist, Entry.answered task event ∈ trace)
    (names : ∀ accountId symbol cid, Submitted trace accountId symbol cid → Plain accountId ∧ Plain symbol)
    {seq prevHash : Document} {actor hash : String} {now : ℤ} :
    WrittenRow svc (.answered task ⟨.append action details, .ok ()⟩ :: trace)
      (loggedRow seq prevHash actor action details hash now) := by
  refine ⟨loggedRow_lookable, ?_⟩
  rcases rule with ⟨rfl, -⟩ | ⟨rfl, account, nonce, item, result, rfl, heard⟩
  · exact .inl fun front => saleUnder_other (by decide)
  · -- A row of a sale repeats what was submitted and answered before.
    have submitted := known _ heard
    obtain ⟨plain, plainSymbol⟩ := names account item.symbol _ ⟨task, item.quantity, _, submitted⟩
    exact .inr ⟨seq, prevHash, actor, hash, now, account, nonce, _, item, result, plain, plainSymbol,
      stopCid_filled _ _ _, rfl, task, nonce, item, result, rfl, rfl, List.mem_cons_of_mem _ submitted,
      List.mem_cons_self⟩

/-- What a run logs under the rule can be stored. -/
theorem cidRule_storable {action : String} {details : List (Key × Raw)}
    (rule : cidRule svc record (.append action details)) : Storable details := by
  rcases rule with ⟨-, account, symbol, key, count, rfl⟩ | ⟨-, account, nonce, item, result, rfl, -⟩
  · exact cancelDetails_storable _ _ _ _
  · exact sellDetails_storable _ _ _ _ _

/-- One move of a tidy run keeps the log true. -/
theorem logKept_step {move : Move StopChoice StopCall}
    (represented : (recorded (cidRule svc) fun _ => True).Represented s)
    (stepped : (stopMachine svc lib).step s move = some after)
    (known : Tidy s.trace → LogKept svc s) (tidy : Tidy after.trace) : LogKept svc after := by
  -- Whatever else happens, what was written stays written.
  have frame {entry : Entry StopReq StopReq.Ans Exc StopCall} {later : StopState}
      (grown : later.trace = entry :: s.trace) (same : later.world = s.world) (before : LogKept svc s)
      (news : ∀ task rows, entry = .answered task ⟨.entries, .ok rows⟩ →
        ∀ row ∈ rows, WrittenRow svc s.trace row) : LogKept svc later := by
    obtain ⟨rows, holds, written⟩ := before.log
    refine ⟨⟨rows, same ▸ holds, fun row member => grown ▸ (written row member).older⟩, ?_⟩
    intro task rows member row listed
    rw [grown] at member ⊢
    rcases List.mem_cons.mp member with new | old
    · exact (news task rows new.symm row listed).older
    · exact (before.reads task rows old row listed).older
  obtain ⟨call, value, rfl, -, rfl⟩ |
    ⟨task, choice, request, next, answer, world, rfl, running, performed, rfl⟩ | ⟨rfl, rfl⟩ :=
    Machine.step_cases stepped
  · refine frame rfl rfl (known tidy.before) fun _ _ impossible => ?_
    cases impossible
  · -- A request was served: the log is read, a row is appended, or neither.
    have before := known (Tidy.before tidy)
    have served : stopPerform lib s.world task request choice = some (answer, world) := performed
    have rule := recorded_asks represented running
    obtain ⟨rows, holds, written⟩ := before.log
    by_cases reads : request = .entries
    · subst reads
      simp only [stopPerform, holds.entries] at served
      cases served
      -- A reader gets the rows of the log, all of which were written.
      refine frame rfl rfl before fun owner other same => ?_
      cases same
      exact written
    by_cases writes : ∃ action details, request = .append action details
    · obtain ⟨action, details, rfl⟩ := writes
      -- An append that fails, or is cut off, is not tidy.
      have whole : answer = .ok () := by
        cases answer with
        | ok done => rfl
        | error raised => exact absurd List.mem_cons_self (tidy.written task action details raised)
      subst whole
      have appended : append lib s.world "emergency_stop" action details choice.now = .ok world := by
        simp only [stopPerform] at served
        split at served
        · cases served
        · rename_i grown result
          split at served <;> cases served
          exact result
      obtain ⟨seq, prevHash, hash, recovered⟩ := holds.written (cidRule_storable rule) appended
      refine ⟨⟨_, recovered, fun row member => ?_⟩, fun owner other member => ?_⟩
      · rcases List.mem_append.mp member with old | new
        · exact (written row old).older
        · obtain rfl := List.mem_singleton.mp new
          exact loggedRow_written rule (fun event heard => mem_trace_of_hist heard)
            fun _ _ _ submitted => tidy.sales _ _ _ submitted.older
      · rcases List.mem_cons.mp member with impossible | old
        · cases impossible
        · exact fun row listed => (before.reads owner other old row listed).older
    · obtain ⟨-, same⟩ := stopPerform_other served reads fun action details same =>
        writes ⟨action, details, same⟩
      refine frame rfl same before fun owner other impossible => ?_
      injection impossible with _ event
      cases event
      exact absurd rfl reads
  · refine frame rfl rfl (known tidy.before) fun _ _ impossible => ?_
    cases impossible

/-- The runs of the emergency stop since its log was empty. -/
abbrev StopReached (svc : StopService) (lib : LogLibrary) (s : StopState) : Prop :=
  (stopMachine svc lib).Steps (fun _ _ => True) ((stopMachine svc lib).start .empty) s

/-- Along every tidy run the log stays true. -/
theorem StopReached.logKept (reached : StopReached svc lib s) (tidy : Tidy s.trace) : LogKept svc s := by
  refine ids_sound.invariant (fun s => Tidy s.trace → LogKept svc s) ?_ started_ids ?_ reached tidy
  · -- Each move keeps it, and the empty log begins with it.
    intro s move after represented _ stepped known tidy
    exact logKept_step represented stepped known tidy
  · intro _
    exact ⟨⟨[], holds_empty, List.forall_mem_nil _⟩, fun _ _ member => absurd member List.not_mem_nil⟩

/-- What was asked was allowed after what its run had heard by then. -/
theorem StopReached.asked (reached : StopReached svc lib s)
    {event : Event StopReq StopReq.Ans Exc} (member : Entry.answered task event ∈ s.trace) :
    ∃ record : StopRecord, cidRule svc record event.request ∧
      ∀ other ∈ record.hist, Entry.answered task other ∈ s.trace := by
  -- The record of a request is what its task had heard before the answer.
  obtain ⟨newer, older, split⟩ := List.append_of_mem (mem_hist_of_trace member)
  refine ⟨_, recorded_history ids_sound started_ids (fun _ => rfl) reached task newer event older split, ?_⟩
  intro other heard
  refine mem_trace_of_hist ?_
  rw [split]
  exact List.mem_append_right _ (List.mem_cons_of_mem _ heard)

/-- A submitted sale has an id of a run. -/
theorem StopReached.submitted (reached : StopReached svc lib s)
    (submitted : Submitted s.trace accountId symbol cid) :
    ∃ task nonce, cid = stopCid accountId nonce symbol ∧
      Entry.answered task ⟨.nonce, .ok nonce⟩ ∈ s.trace := by
  obtain ⟨task, quantity, answer, member⟩ := submitted
  obtain ⟨record, ⟨nonce, same, heard⟩, known⟩ := reached.asked member
  exact ⟨task, nonce, same, known _ heard⟩

/-- A lookup asks for the last sale in rows that its run read. -/
theorem StopReached.lookedUp (reached : StopReached svc lib s) {answer : Except Exc _}
    (member : Entry.answered task ⟨.query accountId symbol cid, answer⟩ ∈ s.trace) :
    ∃ rows, AsksFor svc rows accountId symbol cid ∧
      Entry.answered task ⟨.entries, .ok rows⟩ ∈ s.trace := by
  obtain ⟨record, ⟨rows, asks, heard⟩, known⟩ := reached.asked member
  exact ⟨rows, asks, known _ heard⟩

/-- The characters of an id. -/
theorem stopCid_toList (accountId nonce symbol : String) :
    (stopCid accountId nonce symbol).toList =
      'e' :: '-' :: (accountId.toList.take 6 ++ '-' :: (nonce.toList ++ '-' :: symbol.toList.take 8)) := by
  simp [stopCid, firstChars]

/-- An id has at most twenty-six characters. -/
theorem stopCid_length {nonce : String} (eight : nonce.toList.length = 8) :
    (stopCid accountId nonce symbol).toList.length ≤ 26 := by
  -- Two, six, one, eight, one and eight characters.
  rw [stopCid_toList]
  simp only [List.length_cons, List.length_append, List.length_take, eight]
  omega

/-- Ids of one account agree exactly in the nonce and the first eight characters of the symbol. -/
theorem stopCid_eq_iff {first second other : String} (eight : first.toList.length = 8)
    (eightToo : second.toList.length = 8) :
    stopCid accountId first symbol = stopCid accountId second other ↔
      first = second ∧ firstChars 8 symbol = firstChars 8 other := by
  constructor
  · intro same
    have chars := congrArg String.toList same
    rw [stopCid_toList, stopCid_toList] at chars
    -- The account's part is the same, and both nonces are of one length.
    have behind := List.append_cancel_left (List.cons.inj (List.cons.inj chars).2).2
    obtain ⟨nonces, symbols⟩ := List.append_inj (List.cons.inj behind).2 (eight.trans eightToo.symm)
    refine ⟨String.toList_inj.mp nonces, ?_⟩
    unfold firstChars
    rw [(List.cons.inj symbols).2]
  · rintro ⟨rfl, same⟩
    unfold stopCid
    rw [same]

/-- The ids of the sales: those of one account's symbols differ, none is too long, and a lookup asks for the
last logged sale of its account and symbol under the id that it was submitted with. -/
structure IdsKept (svc : StopService) (trace : StopTrace) : Prop where
  distinct : ∀ accountId symbol other cid, Submitted trace accountId symbol cid →
    Submitted trace accountId other cid → symbol = other
  short : ∀ accountId symbol cid, Submitted trace accountId symbol cid → cid.toList.length ≤ 36
  recovered : ∀ task accountId symbol cid answer,
    Entry.answered task ⟨.query accountId symbol cid, answer⟩ ∈ trace →
      ∃ rows details, Entry.answered task ⟨.entries, .ok rows⟩ ∈ trace ∧
        latestSellDetails svc.text accountId symbol rows = .ok (some (.object details)) ∧
          LoggedAs svc trace accountId symbol cid details

/-- Of one account, no two symbols that are sold under one nonce share their first eight characters. -/
def SymbolsApart (trace : StopTrace) : Prop :=
  ∀ accountId nonce symbol other, Submitted trace accountId symbol (stopCid accountId nonce symbol) →
    Submitted trace accountId other (stopCid accountId nonce other) →
      firstChars 8 symbol = firstChars 8 other → symbol = other

/-- What a lookup asks for was logged under the id that it was submitted with. -/
theorem StopReached.recovered (reached : StopReached svc lib s) (tidy : Tidy s.trace) {answer : Except Exc _}
    (member : Entry.answered task ⟨.query accountId symbol cid, answer⟩ ∈ s.trace) :
    ∃ rows details, Entry.answered task ⟨.entries, .ok rows⟩ ∈ s.trace ∧
      latestSellDetails svc.text accountId symbol rows = .ok (some (.object details)) ∧
        LoggedAs svc s.trace accountId symbol cid details := by
  obtain ⟨rows, ⟨details, looked, -, named⟩, read⟩ := reached.lookedUp member
  obtain ⟨plain, plainSymbol⟩ := tidy.lookups task accountId symbol _ answer member
  obtain ⟨own, filled, logged⟩ := latest_written plain plainSymbol ((reached.logKept tidy).reads task rows read) looked
  refine ⟨rows, details, read, looked, ?_⟩
  -- The id of the row is the one that it was written with.
  have same : priorCid svc accountId symbol details = .ok own := by
    obtain ⟨_, _, _, _, -, rfl, -⟩ := logged
    exact saleMembers_cid filled
  obtain rfl : cid = own := Except.ok.inj (named.symm.trans same)
  exact logged

/-- In every state of every tidy sequence of emergency stops, however they interleave or crash, the ids of
the sales are kept exactly when the symbols sold under one nonce differ in their first eight characters. -/
theorem emergency_ids_iff (reached : StopReached svc lib s)
    (tidy : Tidy s.trace) : IdsKept svc s.trace ↔ SymbolsApart s.trace := by
  constructor
  · intro kept accountId nonce symbol other first second same
    -- Equal beginnings give equal ids.
    have equal : stopCid accountId nonce other = stopCid accountId nonce symbol := by
      unfold stopCid
      rw [same]
    rw [equal] at second
    exact kept.distinct accountId symbol other _ first second
  · intro apart
    refine ⟨?_, ?_, fun _ _ _ _ _ member => reached.recovered tidy member⟩
    · -- One id, two sales: their nonces and the beginnings of their symbols are the same.
      intro accountId symbol other cid first second
      obtain ⟨task, nonce, rfl, drawn⟩ := reached.submitted first
      obtain ⟨task', nonce', same, drawn'⟩ := reached.submitted second
      obtain ⟨rfl, begun⟩ := (stopCid_eq_iff (tidy.nonces task nonce drawn)
        (tidy.nonces task' nonce' drawn')).mp same
      rw [same] at second
      exact apart accountId nonce symbol other first second begun
    · intro accountId symbol cid submitted
      obtain ⟨task, nonce, rfl, drawn⟩ := reached.submitted submitted
      have length : (stopCid accountId nonce symbol).toList.length ≤ 26 :=
        stopCid_length (tidy.nonces task nonce drawn)
      omega

/-- A check that an entry is tidy. -/
def tidyEntry : Entry StopReq StopReq.Ans Exc StopCall → Bool
  | .answered _ ⟨.nonce, .ok nonce⟩ => nonce.toList.length = 8
  | .answered _ ⟨.sell accountId symbol _ _, _⟩ => ':' ∉ accountId.toList ∧ ':' ∉ symbol.toList
  | .answered _ ⟨.query accountId symbol _, _⟩ => ':' ∉ accountId.toList ∧ ':' ∉ symbol.toList
  | .answered _ ⟨.append _ _, .error _⟩ => false
  | _ => true

theorem tidy_of_check (checked : trace.all tidyEntry) : Tidy trace where
  nonces := by
    intro task nonce member
    exact of_decide_eq_true (List.all_eq_true.mp checked _ member)
  sales := by
    rintro accountId symbol cid ⟨task, quantity, answer, member⟩
    have plain : ':' ∉ accountId.toList ∧ ':' ∉ symbol.toList :=
      of_decide_eq_true (List.all_eq_true.mp checked _ member)
    exact plain
  lookups := by
    intro task accountId symbol cid answer member
    have plain : ':' ∉ accountId.toList ∧ ':' ∉ symbol.toList :=
      of_decide_eq_true (List.all_eq_true.mp checked _ member)
    exact plain
  written := by
    intro task action details raised member
    cases List.all_eq_true.mp checked _ member

/-- The account and the symbol of every sale that was submitted. -/
def soldOf (trace : StopTrace) : List (String × String) :=
  trace.filterMap fun
    | .answered _ ⟨.sell accountId symbol _ _, _⟩ => some (accountId, symbol)
    | _ => none

theorem Submitted.soldOf (submitted : Submitted trace accountId symbol cid) :
    (accountId, symbol) ∈ soldOf trace := by
  obtain ⟨task, quantity, answer, member⟩ := submitted
  exact List.mem_filterMap.mpr ⟨_, member, rfl⟩

/-- A check that the symbols sold for one account differ in their first eight characters. -/
def apartCheck (trace : StopTrace) : Bool :=
  ∀ first ∈ soldOf trace, ∀ second ∈ soldOf trace,
    first.1 = second.1 → firstChars 8 first.2 = firstChars 8 second.2 → first.2 = second.2

theorem apartCheck_spec (checked : apartCheck trace) : SymbolsApart trace :=
  fun _ _ _ _ first second same => of_decide_eq_true checked _ first.soldOf _ second.soldOf rfl same

/-- An account with two coins; the sale of the first one is refused. -/
def pairAnswers (first second : String) : (request : StopReq) → Except Exc request.Ans
  | .balances _ => .ok [(first, 1), (second, 1)]
  | .sell _ symbol _ _ =>
    if symbol = first ++ "USDT" then .error (.rasat ⟨.orderRejected, "refused"⟩)
    else .ok { status := .new }
  | request => coinAnswers (.ok { status := .new }) request

/-- A run of the emergency stop over both coins, up to the answer to the second sale. -/
def pairRun (first second : String) : List (Move StopChoice StopCall) :=
  .open { accountIds := [], yes := true, dryRun := false } ::
    List.replicate 13 (.resume 1 { answer := pairAnswers first second })

/-- The rule applied to a run that sells two coins whose symbols begin differently. -/
theorem two_sales_ids : ∃ s : StopState,
    (stopMachine plainStop bareLibrary).run ((stopMachine plainStop bareLibrary).start .empty) (pairRun "BTC" "ETH") =
      some s ∧
    StopReached plainStop bareLibrary s ∧ Tidy s.trace ∧ soldOf s.trace = [("main", "ETHUSDT"), ("main", "BTCUSDT")] ∧
    SymbolsApart s.trace ∧ IdsKept plainStop s.trace := by
  have passes : ((stopMachine plainStop bareLibrary).run ((stopMachine plainStop bareLibrary).start .empty)
      (pairRun "BTC" "ETH")).any fun s => s.trace.all tidyEntry ∧ apartCheck s.trace ∧
        soldOf s.trace = [("main", "ETHUSDT"), ("main", "BTCUSDT")] := by decide +kernel
  obtain ⟨s, ran, checked⟩ := (Option.any_eq_true _ _).mp passes
  obtain ⟨tidy, apart, sold⟩ := of_decide_eq_true checked
  have reached : StopReached plainStop bareLibrary s := Machine.run_steps ran
  exact ⟨s, ran, reached, tidy_of_check tidy, sold, apartCheck_spec apart,
    (emergency_ids_iff reached (tidy_of_check tidy)).mpr (apartCheck_spec apart)⟩

/-- The youngest event is the sale of another symbol under the id of an earlier sale. -/
def idShared : StopTrace → Bool
  | .answered _ ⟨.sell accountId symbol _ cid, _⟩ :: older => older.any fun
    | .answered _ ⟨.sell account other _ id, _⟩ => account = accountId ∧ id = cid ∧ other ≠ symbol
    | _ => false
  | _ => false

theorem idShared_spec (shared : idShared trace) : ¬IdsKept svc trace := by
  intro kept
  -- Both sales are in the trace, under one id and for two symbols.
  unfold idShared at shared
  split at shared
  · rename_i task accountId symbol quantity cid answer older
    obtain ⟨entry, member, same⟩ := List.any_eq_true.mp shared
    split at same
    · obtain ⟨rfl, rfl, differ⟩ := of_decide_eq_true same
      exact differ (kept.distinct _ _ _ _ ⟨_, _, _, List.mem_cons_of_mem _ member⟩
        ⟨_, _, _, List.mem_cons_self⟩)
    · cases same
  · cases shared

/-- Two sales of one run are submitted under the same id. -/
theorem twin_sales_share_id :
    ¬∀ (svc : StopService) (lib : LogLibrary) (s : StopState), StopReached svc lib s →
      Tidy s.trace → IdsKept svc s.trace := by
  intro claimed
  have passes : ((stopMachine plainStop bareLibrary).run ((stopMachine plainStop bareLibrary).start .empty)
      (pairRun "1MBABYDOGE" "1MBABYDOT")).any fun s =>
        idShared s.trace ∧ s.trace.all tidyEntry := by decide +kernel
  obtain ⟨s, ran, checked⟩ := (Option.any_eq_true _ _).mp passes
  obtain ⟨shared, tidy⟩ := of_decide_eq_true checked
  exact idShared_spec shared (claimed plainStop bareLibrary s (Machine.run_steps ran) (tidy_of_check tidy))

end Rasat
