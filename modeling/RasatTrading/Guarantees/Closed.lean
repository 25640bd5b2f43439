import RasatTrading.Guarantees.CloseTurns
import RasatTrading.Guarantees.Runs

/-! What a report of the kill switch that says closed stands for: orders ended, balances sold. -/

namespace Rasat

open Coop Reaches

seal Prog.Only

variable {svc : Service} {account : Account} {actor : String}

/-- A SELL of the balance, rounded down to the lot step, was submitted in this run and filled. -/
def BalanceSold (run : History) (accountId symbol : String) (amount : ℚ) : Prop :=
  ∃ filters order, (⟨.market (.filters symbol), .ok (some filters)⟩ : Event Req Req.Ans Exc) ∈ run ∧
    order.accountId = accountId ∧ order.symbol = symbol ∧ order.side = .sell ∧
      order.quantity = roundDownToStep amount filters.stepSize ∧ SubmittedFilled run order

/-- What `closed` is documented to say of a run: every order that was open here or at the exchange has ended
or was cancelled with its symbol, and every held balance was sold and filled. -/
structure ClosedSoundly (account : Account) (run : History) : Prop where
  active : ∀ rows, (⟨.read (.activeOrders account.accountId), .ok rows⟩ : Event Req Req.Ans Exc) ∈ run →
    ∀ row ∈ rows, OrderEnded run account.accountId row.symbol row.clientOrderId ∨
      BulkCancelled run account.accountId row.symbol
  listed : ∀ orders, (⟨.broker (.getAllOpenOrders account.accountId), .ok orders⟩ :
      Event Req Req.Ans Exc) ∈ run →
    ∀ order ∈ orders,
      (∃ id, order.namedId = some id ∧ OrderEnded run account.accountId order.symbol id) ∨
        BulkCancelled run account.accountId order.symbol
  sold : ∀ balances, (⟨.broker (.getBalance account.accountId), .ok balances⟩ :
      Event Req Req.Ans Exc) ∈ run →
    ∀ entry ∈ balances, entry.1 ≠ quoteAsset → 0 < entry.2 →
      BalanceSold run account.accountId (entry.1 ++ quoteAsset) entry.2

/-! What a run can miss. -/

/-- What the run heard since it read the balances. -/
def sinceBalances (account : Account) (run : History) : History :=
  run.takeWhile fun event => event.request ≠ .broker (.getBalance account.accountId)

/-- What the run heard before, while it cancelled orders. -/
def beforeBalances (account : Account) (run : History) : History :=
  run.dropWhile fun event => event.request ≠ .broker (.getBalance account.accountId)

/-- The orders that are open here or at the exchange, each by its symbol and its client order id. -/
def openIds (rows : List Order) (orders : List ExchangeOrder) : List (String × Option String) :=
  rows.map (fun row => (row.symbol, some row.clientOrderId)) ++
    orders.map fun order => (order.symbol, order.namedId)

/-- The lookup of the order after a cancellation that found nothing raised a canonical error; while orders are
cancelled there is no other lookup of it. -/
def LookupLost (account : Account) (run : History) (symbol id : String) : Prop :=
  LookupRaised (beforeBalances account run) account.accountId symbol id

/-- Another lookup than that of its own cancellation tells that the order has ended: one of the sales, which asks
for the earlier close order of a symbol or for a sale that timed out, or that of another symbol's list with the same
client order id. -/
def AnsweredElsewhere (account : Account) (run : History) (rows : List Order) (orders : List ExchangeOrder)
    (symbol id : String) : Prop :=
  ∃ found, isEnded found ∧ (LookedUpAs (sinceBalances account run) account.accountId symbol id (.ok found) ∨
    standsFor rows orders id ≠ some symbol ∧
      (⟨.broker (.queryOco account.accountId id), .ok found⟩ : Event Req Req.Ans Exc) ∈ beforeBalances account run)

/-- An open order is not missed: it has a symbol, and an order of that symbol without a client order id has all of
the symbol cancelled; or its client order id stands for it and its lookup is not lost; or it is answered elsewhere.
Without a client order id of its own the symbol is enough. -/
def NotMissed (account : Account) (run : History) (rows : List Order) (orders : List ExchangeOrder)
    (symbol : String) : Option String → Prop
  | none => symbol ≠ ""
  | some id =>
    (symbol ≠ "" ∧ ∃ order ∈ orders, order.namedId = none ∧ order.symbol = symbol) ∨
      (symbol ≠ "" ∧ standsFor rows orders id = some symbol ∧ ¬LookupLost account run symbol id) ∨
        AnsweredElsewhere account run rows orders symbol id

/-- The market does not know the symbol. -/
def SymbolUnknown (run : History) (symbol : String) : Prop :=
  (⟨.market (.symbolValid symbol), .ok false⟩ : Event Req Req.Ans Exc) ∈ run

/-- An earlier close order of the symbol was found FILLED by the lookup right after it was read. -/
def EarlierFilled (run : History) (accountId symbol : String) : Prop :=
  ∃ row found newer older, run = newer ++
    (⟨.broker (.queryOrder accountId symbol row.clientOrderId), .ok (some found)⟩ ::
      ⟨.read (.openClose accountId symbol), .ok (some row)⟩ :: older) ∧ found.status = .filled

/-- Nothing in the run is missed: every open order is accounted for, and every held asset has a known symbol and no
earlier close order that was found FILLED. -/
structure NothingMissed (account : Account) (run : History) : Prop where
  orders : ∀ rows orders,
    (⟨.read (.activeOrders account.accountId), .ok rows⟩ : Event Req Req.Ans Exc) ∈ run →
    (⟨.broker (.getAllOpenOrders account.accountId), .ok orders⟩ : Event Req Req.Ans Exc) ∈ run →
    ∀ one ∈ openIds rows orders, NotMissed account run rows orders one.1 one.2
  assets : ∀ balances, (⟨.broker (.getBalance account.accountId), .ok balances⟩ :
      Event Req Req.Ans Exc) ∈ run →
    ∀ entry ∈ balances, entry.1 ≠ quoteAsset → 0 < entry.2 →
      ¬SymbolUnknown run (entry.1 ++ quoteAsset) ∧
        ¬EarlierFilled run account.accountId (entry.1 ++ quoteAsset)

/-- The balances are a dictionary: every asset is in them once. -/
def EachOnce (account : Account) (run : History) : Prop :=
  ∀ balances, (⟨.broker (.getBalance account.accountId), .ok balances⟩ : Event Req Req.Ans Exc) ∈ run →
    (balances.map Prod.fst).Nodup

/-! The phases of a run. -/

/-- The phases of a run that reports its account as closed, newest first: the sales, the readings between, the
cancellations, and the bulk cancellations. -/
structure Phases (account : Account) (run : History) (rows : List Order) (orders : List ExchangeOrder)
    (balances : Balances) (id : String) (sell cancel bulk lock : History) : Prop where
  whole : run = sell ++ (⟨.broker (.getBalance account.accountId), .ok balances⟩ :: ⟨.uuid, .ok id⟩ ::
    (cancel ++ (bulk ++ (⟨.broker (.getAllOpenOrders account.accountId), .ok orders⟩ ::
      ⟨.read (.activeOrders account.accountId), .ok rows⟩ :: lock))))
  sells : Turns (SellTurn account) balances sell
  cancels : Turns (CancelTurn account) (cancelTargets rows orders) cancel
  bulks : Turns (BulkTurn account) orders bulk
  locks : ∀ event ∈ lock, ∃ accountId, event.request = .credentials accountId

/-- The requests of the sales. -/
def SellPart : Req → Prop
  | .market _ | .read (.openClose _ _) | .write _ => True
  | .broker (.placeOrder _) | .broker (.queryOrder _ _ _) | .broker (.queryOco _ _) => True
  | _ => False

/-- A sale is part of the sales. -/
theorem SellsOne.sellPart {symbol : String} {request : Req} (sells : SellsOne symbol request) : SellPart request := by
  cases request with
  | broker call => cases call <;> trivial
  | write tx => trivial
  | _ => exact sells.elim

variable {events : History}

/-- Everything that a turn of the sales asks is part of them. -/
theorem SellTurn.asks {entry : String × ℚ} (turn : SellTurn account entry events) :
    ∀ event ∈ events, SellPart event.request := by
  intro event member
  cases turn with
  | nothing => cases member
  | unknown =>
    rw [List.mem_singleton.mp member]
    trivial
  | earlier price filters row found writes filled quiet =>
    simp only [quoted, List.mem_append, List.mem_cons, List.not_mem_nil, or_false] at member
    rcases member with written | rfl | rfl | rfl | rfl | rfl
    · obtain ⟨tx, same⟩ := quiet event written
      rw [same]
      trivial
    all_goals trivial
  | sold price filters earlier sale order sells =>
    simp only [quoted, List.mem_append, List.mem_cons, List.not_mem_nil, or_false] at member
    rcases member with sale | rfl | rfl | rfl | rfl
    · exact (sells event sale).sellPart
    all_goals trivial

/-- An account that is reported as closed went through the phases. -/
theorem closeOne_phases {result : CloseResult} {run : History}
    (reached : Reaches (closeOne svc account actor) [] (.done result) run) (closed : result.closed) :
    result.accountId = account.accountId ∧
      ∃ rows orders balances id sell cancel bulk lock,
        Phases account run rows orders balances id sell cancel bulk lock := by
  simp only [closeOne, Prog.bind_eq, Prog.pure_eq] at reached
  obtain ⟨real, began, locked, rest⟩ := of_bind reached
  obtain ⟨rows, read, active, rest⟩ := of_bind rest
  cases real with
  | false =>
    -- A paper account is never reported as closed.
    obtain ⟨_, _, -, rest⟩ := of_bind rest
    obtain ⟨_, _, -, rest⟩ := of_bind rest
    obtain ⟨_, _, -, rest⟩ := of_bind rest
    obtain ⟨same, -⟩ := of_done rest
    cases same
    cases closed
  | true =>
    obtain ⟨orders, listed, asked, rest⟩ := of_bind rest
    obtain ⟨bulk, cleared, bulking, rest⟩ := of_bind rest
    obtain ⟨state, cancelled, cancelling, rest⟩ := of_bind rest
    rw [if_neg (not_not_intro rfl)] at rest
    obtain ⟨id, named, drawn, rest⟩ := of_bind rest
    obtain ⟨balances, held, weighed, rest⟩ := of_bind rest
    obtain ⟨sold, done, selling, last⟩ := of_bind rest
    obtain ⟨same, rfl⟩ := of_done last
    cases same
    simp only [Bool.and_eq_true, List.isEmpty_iff] at closed
    obtain ⟨quiet, filled⟩ := closed
    -- Going back through the loops, no step had left an error or an unfilled sale behind.
    obtain ⟨clean, cancelEvents, cancels, cancelTurns⟩ := of_foldlM_turns (fun state : CancelState => state.errors = [])
      (CancelTurn account) (fun _ _ _ _ turn fine => cancelTarget_turn turn fine) cancelling quiet
    obtain ⟨-, bulkEvents, bulked, bulkTurns⟩ := of_foldlM_turns (fun state : CancelState => state.errors = [])
      (BulkTurn account) (fun _ _ _ _ turn fine => cancelUnnamed_turn turn fine) bulking clean
    obtain ⟨-, sellEvents, sells, sellTurns⟩ := of_foldlM_turns (fun sold : List Sale => sold.all Sale.isFilled)
      (SellTurn account) (fun _ _ _ _ turn fine => sellAsset_turn turn fine) selling filled
    obtain ⟨lockEvents, begun, lockKinds, -⟩ := locked.only isReal_credentials
    refine ⟨rfl, rows, orders, balances, id, sellEvents, cancelEvents, bulkEvents, lockEvents, ?_, sellTurns,
      cancelTurns, bulkTurns, lockKinds⟩
    rw [sells, of_call weighed, of_call drawn, cancels, bulked, of_call asked, of_call active, begun, List.append_nil]

/-! What the phases tell of a run. -/

/-- What stands up to the first element that fails a test, and from there on. -/
theorem split_while {α : Type} {p : α → Bool} {front back : List α} {x : α} (passes : ∀ y ∈ front, p y = true)
    (fails : p x = false) :
    (front ++ x :: back).takeWhile p = front ∧ (front ++ x :: back).dropWhile p = x :: back := by
  constructor
  · rw [List.takeWhile_append_of_pos passes, List.takeWhile_cons_of_neg (by simp [fails]), List.append_nil]
  · rw [List.dropWhile_append_of_pos passes, List.dropWhile_cons_of_neg (by simp [fails])]

/-- A list splits in one way only at an element of a kind that is nowhere else. -/
theorem split_unique {α : Type} {kind : α → Prop} {a b c d : List α} {x y : α} (left : ∀ z ∈ c, ¬kind z)
    (right : ∀ z ∈ d, ¬kind z) (own : kind x) (same : a ++ x :: b = c ++ y :: d) : a = c ∧ x = y ∧ b = d := by
  -- One of the two fronts begins the other; what is left over would hold such an element.
  rcases List.append_eq_append_iff.mp same with ⟨more, rfl, behind⟩ | ⟨more, rfl, behind⟩
  · cases more with
    | nil =>
      obtain ⟨rfl, rfl⟩ := List.cons.inj behind
      exact ⟨(List.append_nil a).symm, rfl, rfl⟩
    | cons first more =>
      obtain ⟨rfl, -⟩ := List.cons.inj behind
      exact absurd own (left _ (List.mem_append_right _ List.mem_cons_self))
  · cases more with
    | nil =>
      obtain ⟨rfl, rfl⟩ := List.cons.inj behind
      exact ⟨List.append_nil c, rfl, rfl⟩
    | cons first more =>
      obtain ⟨-, rfl⟩ := List.cons.inj behind
      exact absurd own (right _ (List.mem_append_right _ List.mem_cons_self))

variable {target : Target}

section Facts

variable {run : History} {rows : List Order} {orders : List ExchangeOrder} {balances : Balances} {nonce : String}
  {sell cancel bulk lock : History} {symbol id : String}

/-- The requests of the cancellations. -/
def CancelPart : Req → Prop
  | .broker (.cancelOrder _ _ _) | .broker (.cancelOco _ _ _) | .broker (.cancelAllOpenOrders _ _) => True
  | .broker (.queryOrder _ _ _) | .broker (.queryOco _ _) => True
  | .write _ => True
  | _ => False

/-- The request looks an order up. -/
def IsLookup : Req → Prop
  | .broker (.queryOrder _ _ _) | .broker (.queryOco _ _) => True
  | _ => False

/-- The request cancels one order. -/
def IsCancel : Req → Prop
  | .broker (.cancelOrder _ _ _) | .broker (.cancelOco _ _ _) => True
  | _ => False

/-- The cancellation of a target is part of them. -/
theorem CancelsOne.cancelPart {accountId : String} {request : Req}
    (cancels : CancelsOne accountId target request) : CancelPart request := by
  cases request with
  | broker call => cases call <;> trivial
  | write tx => trivial
  | _ => exact cancels.elim

variable {answer : Except Exc (Option OrderResult)}

/-- What is looked up at all is looked up by the sales or before the balances are read. -/
theorem lookedUp_split (heard : LookedUpAs run account.accountId symbol id answer) :
    LookedUpAs (sinceBalances account run) account.accountId symbol id answer ∨
      LookedUpAs (beforeBalances account run) account.accountId symbol id answer := by
  have both (event : Event Req Req.Ans Exc) (member : event ∈ run) :
      event ∈ sinceBalances account run ∨ event ∈ beforeBalances account run := by
    rw [← List.mem_append, sinceBalances, beforeBalances, List.takeWhile_append_dropWhile]
    exact member
  rcases heard with alone | list
  · exact (both _ alone).imp .inl .inl
  · exact (both _ list).imp .inr .inr

namespace Phases

variable (phases : Phases account run rows orders balances nonce sell cancel bulk lock)
include phases

/-- What was asked in the sales. -/
theorem sell_asks {event : Event Req Req.Ans Exc} (member : event ∈ sell) : SellPart event.request := by
  obtain ⟨entry, -, part, turn, inside⟩ := phases.sells.event member
  exact turn.asks event inside

/-- What was asked in the cancellations is asked for a target that has a symbol. -/
theorem cancel_asks {event : Event Req Req.Ans Exc} (member : event ∈ cancel) :
    ∃ target ∈ cancelTargets rows orders, target.symbol ≠ "" ∧
      CancelsOne account.accountId target event.request := by
  obtain ⟨target, listed, part, turn, inside⟩ := phases.cancels.event member
  exact ⟨target, listed, turn.asks event inside⟩

/-- What was asked in the bulk cancellations is asked for an order without a client order id. -/
theorem bulk_asks {event : Event Req Req.Ans Exc} (member : event ∈ bulk) :
    ∃ order ∈ orders, (order.namedId = none ∧ order.symbol ≠ "") ∧
      (event.request = .broker (.cancelAllOpenOrders account.accountId order.symbol) ∨
        ∃ tx, event.request = .write tx) := by
  obtain ⟨order, listed, part, turn, inside⟩ := phases.bulks.event member
  exact ⟨order, listed, turn.asks event inside⟩

/-- Every event stands in one of the phases, or is one of the readings between them. -/
theorem event {event : Event Req Req.Ans Exc} (member : event ∈ run) :
    event ∈ sell ∨ event = ⟨.broker (.getBalance account.accountId), .ok balances⟩ ∨ event = ⟨.uuid, .ok nonce⟩ ∨
      event ∈ cancel ∨ event ∈ bulk ∨ event = ⟨.broker (.getAllOpenOrders account.accountId), .ok orders⟩ ∨
        event = ⟨.read (.activeOrders account.accountId), .ok rows⟩ ∨ event ∈ lock := by
  simpa only [phases.whole, List.mem_append, List.mem_cons] using member

theorem cancel_subset : cancel ⊆ run := by
  rw [phases.whole]
  intro event member
  simp [member]

theorem bulk_subset : bulk ⊆ run := by
  rw [phases.whole]
  intro event member
  simp [member]

/-- The balances are read after the cancellations and before the sales. -/
theorem split : sinceBalances account run = sell ∧
    beforeBalances account run = ⟨.broker (.getBalance account.accountId), .ok balances⟩ :: ⟨.uuid, .ok nonce⟩ ::
      (cancel ++ (bulk ++ (⟨.broker (.getAllOpenOrders account.accountId), .ok orders⟩ ::
        ⟨.read (.activeOrders account.accountId), .ok rows⟩ :: lock))) := by
  -- No sale reads the balances, so the first reading from behind is that of the phases.
  have both := @split_while _ (fun event : Event Req Req.Ans Exc =>
    event.request ≠ .broker (.getBalance account.accountId)) sell (⟨.uuid, .ok nonce⟩ :: (cancel ++ (bulk ++
      (⟨.broker (.getAllOpenOrders account.accountId), .ok orders⟩ ::
        ⟨.read (.activeOrders account.accountId), .ok rows⟩ :: lock))))
    ⟨.broker (.getBalance account.accountId), .ok balances⟩ ?_ (by simp)
  · rw [sinceBalances, beforeBalances, phases.whole]
    exact both
  · intro event member
    refine decide_eq_true fun same => ?_
    have part := phases.sell_asks member
    rw [same] at part
    exact part

/-- What none of the phases asks is one of the readings between them. -/
theorem reading {event : Event Req Req.Ans Exc} (member : event ∈ run) (sells : ¬SellPart event.request)
    (cancels : ¬CancelPart event.request) (locks : ∀ accountId, event.request ≠ .credentials accountId) :
    event = ⟨.broker (.getBalance account.accountId), .ok balances⟩ ∨ event = ⟨.uuid, .ok nonce⟩ ∨
      event = ⟨.broker (.getAllOpenOrders account.accountId), .ok orders⟩ ∨
        event = ⟨.read (.activeOrders account.accountId), .ok rows⟩ := by
  rcases phases.event member with sale | same | same | turn | turn | same | same | begun
  · exact absurd (phases.sell_asks sale) sells
  · exact .inl same
  · exact .inr (.inl same)
  · obtain ⟨target, -, -, own⟩ := phases.cancel_asks turn
    exact absurd own.cancelPart cancels
  · obtain ⟨order, -, -, own | ⟨tx, own⟩⟩ := phases.bulk_asks turn
    all_goals
      rw [own] at cancels
      exact absurd trivial cancels
  · exact .inr (.inr (.inl same))
  · exact .inr (.inr (.inr same))
  · obtain ⟨accountId, own⟩ := phases.locks event begun
    exact absurd own (locks accountId)

/-- The open orders are read once here. -/
theorem rows_read {other : List Order}
    (member : (⟨.read (.activeOrders account.accountId), .ok other⟩ : Event Req Req.Ans Exc) ∈ run) : other = rows := by
  rcases phases.reading member id id (fun _ same => nomatch same) with same | same | same | same <;> cases same
  rfl

/-- And once at the exchange. -/
theorem orders_read {other : List ExchangeOrder}
    (member : (⟨.broker (.getAllOpenOrders account.accountId), .ok other⟩ : Event Req Req.Ans Exc) ∈ run) :
    other = orders := by
  rcases phases.reading member id id (fun _ same => nomatch same) with same | same | same | same <;> cases same
  rfl

/-- The balances are read once. -/
theorem balances_read {other : Balances}
    (member : (⟨.broker (.getBalance account.accountId), .ok other⟩ : Event Req Req.Ans Exc) ∈ run) :
    other = balances := by
  rcases phases.reading member id id (fun _ same => nomatch same) with same | same | same | same <;> cases same
  rfl

/-- What is looked up before the balances are read is looked up by the cancellations. -/
theorem lookup_before {event : Event Req Req.Ans Exc} (member : event ∈ beforeBalances account run)
    (query : IsLookup event.request) : event ∈ cancel := by
  rw [phases.split.2] at member
  simp only [List.mem_append, List.mem_cons] at member
  -- Of all that is asked before, only the turns of the targets look anything up.
  rcases member with rfl | rfl | turn | turn | rfl | rfl | begun
  · exact query.elim
  · exact query.elim
  · exact turn
  · obtain ⟨order, -, -, own | ⟨tx, own⟩⟩ := phases.bulk_asks turn
    all_goals
      rw [own] at query
      exact query.elim
  · exact query.elim
  · exact query.elim
  · obtain ⟨accountId, own⟩ := phases.locks event begun
    rw [own] at query
    exact query.elim

/-- An order that is looked up before the balances are read is a target, whose id stands for its symbol unless it is
looked up as a list. -/
theorem lookedUp_target (heard : LookedUpAs (beforeBalances account run) account.accountId symbol id answer) :
    LookedUpAs cancel account.accountId symbol id answer ∧ ∃ target ∈ cancelTargets rows orders,
      target.clientOrderId = id ∧ target.symbol ≠ "" ∧ (target.symbol = symbol ∨
        (⟨.broker (.queryOco account.accountId id), answer⟩ : Event Req Req.Ans Exc) ∈ beforeBalances account run) := by
  rcases heard with alone | list
  · have turn := phases.lookup_before alone trivial
    obtain ⟨target, listed, filled, -, rfl, rfl⟩ := phases.cancel_asks turn
    exact ⟨.inl turn, target, listed, rfl, filled, .inl rfl⟩
  · have turn := phases.lookup_before list trivial
    obtain ⟨target, listed, filled, -, rfl⟩ := phases.cancel_asks turn
    exact ⟨.inr turn, target, listed, rfl, filled, .inr list⟩

/-- Whoever is cancelled is a target. -/
theorem cancelled_target (heard : CancelledAs run account.accountId symbol id answer) :
    CancelledAs cancel account.accountId symbol id answer ∧
      ∃ target ∈ cancelTargets rows orders, target.clientOrderId = id ∧ target.symbol ≠ "" ∧ target.symbol = symbol := by
  have only {event : Event Req Req.Ans Exc} (member : event ∈ run) (cancels : IsCancel event.request) :
      event ∈ cancel := by
    -- Neither a sale nor a bulk cancellation cancels a single order.
    rcases phases.event member with sale | rfl | rfl | turn | turn | rfl | rfl | begun
    · have part := phases.sell_asks sale
      revert part cancels
      generalize event.request = request
      intro cancels part
      cases request with
      | broker call => cases call <;> first | exact cancels.elim | exact part.elim
      | _ => exact cancels.elim
    · exact cancels.elim
    · exact cancels.elim
    · exact turn
    · obtain ⟨order, -, -, own | ⟨tx, own⟩⟩ := phases.bulk_asks turn
      all_goals
        rw [own] at cancels
        exact cancels.elim
    · exact cancels.elim
    · exact cancels.elim
    · obtain ⟨accountId, own⟩ := phases.locks event begun
      rw [own] at cancels
      exact cancels.elim
  rcases heard with alone | list
  · have turn := only alone trivial
    obtain ⟨target, listed, filled, -, rfl, rfl⟩ := phases.cancel_asks turn
    exact ⟨.inl turn, target, listed, rfl, filled, rfl⟩
  · have turn := only list trivial
    obtain ⟨target, listed, filled, -, rfl, rfl⟩ := phases.cancel_asks turn
    exact ⟨.inr turn, target, listed, rfl, filled, rfl⟩

/-- What the cancellations hear of a target is what its own turn heard. -/
theorem target_outcome (member : target ∈ cancelTargets rows orders) (filled : target.symbol ≠ "") :
    TurnOutcome account target cancel := by
  obtain ⟨newer, part, older, same, turn, others⟩ := phases.cancels.own Target.clientOrderId
    cancelTargets_distinct member
  have grown : part ⊆ cancel := by
    rw [same]
    intro event inside
    simp [inside]
  -- No other turn asks for its id.
  have own {event : Event Req Req.Ans Exc} (heard : event ∈ cancel)
      (asks : ∀ other, CancelsOne account.accountId other event.request → other.clientOrderId = target.clientOrderId) :
      event ∈ part := by
    rw [same] at heard
    rcases List.mem_append.mp heard with inside | inside
    · obtain ⟨other, -, apart, p, turned, there⟩ := others event (List.mem_append_left _ inside)
      exact absurd (asks other (turned.asks event there).2) apart
    · rcases List.mem_append.mp inside with inside | inside
      · exact inside
      · obtain ⟨other, -, apart, p, turned, there⟩ := others event (List.mem_append_right _ inside)
        exact absurd (asks other (turned.asks event there).2) apart
  have looked {answer : Except Exc (Option OrderResult)}
      (heard : LookedUpAs cancel account.accountId target.symbol target.clientOrderId answer) :
      LookedUpAs part account.accountId target.symbol target.clientOrderId answer :=
    heard.imp (fun inside => own inside fun _ asks => asks.2.2.symm) fun inside => own inside fun _ asks => asks.2.symm
  have cancelled {answer : Except Exc (Option OrderResult)}
      (heard : CancelledAs cancel account.accountId target.symbol target.clientOrderId answer) :
      CancelledAs part account.accountId target.symbol target.clientOrderId answer :=
    heard.imp (fun inside => own inside fun _ asks => asks.2.2.symm) fun inside => own inside fun _ asks => asks.2.2.symm
  -- What its turn heard, the whole phase heard, and the other way round.
  rcases turn.outcome with nameless | ⟨ended, kept⟩ | ⟨⟨error, raised⟩, open_⟩
  · exact absurd nameless filled
  · exact .inl ⟨ended.mono grown, fun ⟨error, raised⟩ => kept ⟨error, looked raised⟩⟩
  · refine .inr ⟨⟨error, raised.mono grown⟩, fun ended => open_ ?_⟩
    rcases ended with ⟨found, gone, known⟩ | ⟨result, terminal, known⟩
    · exact .inl ⟨found, gone, looked known⟩
    · exact .inr ⟨result, terminal, cancelled known⟩

/-- A symbol is cancelled exactly when an order of it is listed without a client order id. -/
theorem bulk_iff : BulkCancelled run account.accountId symbol ↔
    symbol ≠ "" ∧ ∃ order ∈ orders, order.namedId = none ∧ order.symbol = symbol := by
  constructor
  · rintro ⟨count, member⟩
    rcases phases.event member with sale | same | same | turn | turn | same | same | begun
    · exact (phases.sell_asks sale).elim
    · cases same
    · cases same
    · obtain ⟨target, -, -, own⟩ := phases.cancel_asks turn
      exact own.elim
    · obtain ⟨order, listed, ⟨unnamed, filled⟩, own | ⟨tx, own⟩⟩ := phases.bulk_asks turn
      · cases own
        exact ⟨filled, order, listed, unnamed, rfl⟩
      · cases own
    · cases same
    · cases same
    · obtain ⟨_, own⟩ := phases.locks _ begun
      cases own
  · rintro ⟨filled, order, listed, unnamed, rfl⟩
    obtain ⟨newer, part, older, same, turn⟩ := phases.bulks.part listed
    rcases turn.outcome with named | nameless | ⟨count, cancelled⟩
    · exact absurd unnamed named
    · exact absurd nameless filled
    · refine ⟨count, phases.bulk_subset ?_⟩
      rw [same]
      simp [cancelled]

end Phases

end Facts

section Orders

/-- Every order that is open here is listed by its symbol and id. -/
theorem row_mem_openIds {rows : List Order} {orders : List ExchangeOrder} {row : Order} (member : row ∈ rows) :
    (row.symbol, some row.clientOrderId) ∈ openIds rows orders :=
  List.mem_append_left _ (List.mem_map_of_mem member)

variable {order : ExchangeOrder}

/-- So is every order that is open at the exchange. -/
theorem order_mem_openIds {rows : List Order} {orders : List ExchangeOrder}
    (member : order ∈ orders) : (order.symbol, order.namedId) ∈ openIds rows orders :=
  List.mem_append_right _ (List.mem_map_of_mem member)

variable {run : History} {rows : List Order} {orders : List ExchangeOrder} {balances : Balances} {nonce : String}
  {sell cancel bulk lock : History} {symbol id : String}

variable (phases : Phases account run rows orders balances nonce sell cancel bulk lock)

include phases

/-- An order that its own cancellation heard of has not lost its lookup. -/
theorem Phases.kept (member : target ∈ cancelTargets rows orders) (filled : target.symbol ≠ "")
    (ended : OrderEnded cancel account.accountId target.symbol target.clientOrderId) :
    ¬LookupLost account run target.symbol target.clientOrderId := by
  rintro ⟨error, raised⟩
  have lost := (phases.lookedUp_target raised).1
  rcases phases.target_outcome member filled with ⟨-, kept⟩ | ⟨-, open_⟩
  · exact kept ⟨error, lost⟩
  · exact open_ ended

/-- An open order with a client order id has ended, or was cancelled with its symbol, exactly when it is not missed. -/
theorem Phases.named_iff :
    (OrderEnded run account.accountId symbol id ∨ BulkCancelled run account.accountId symbol) ↔
      NotMissed account run rows orders symbol (some id) := by
  constructor
  · rintro ((⟨found, gone, heard⟩ | ⟨result, terminal, heard⟩) | cancelled)
    · rcases lookedUp_split heard with since | before
      · exact .inr (.inr ⟨found, gone, .inl since⟩)
      · obtain ⟨turn, target, listed, rfl, filled, own⟩ := phases.lookedUp_target before
        by_cases stands : standsFor rows orders target.clientOrderId = some symbol
        · -- The id stands for this order, so the turn is its own.
          obtain ⟨other, member, named, rfl⟩ := standsFor_iff.mp stands
          obtain rfl := List.inj_on_of_nodup_map cancelTargets_distinct member listed named
          exact .inr (.inl ⟨filled, stands, phases.kept listed filled (.inl ⟨found, gone, turn⟩)⟩)
        · refine .inr (.inr ⟨found, gone, .inr ⟨stands, own.resolve_left fun same => stands ?_⟩⟩)
          exact standsFor_iff.mpr ⟨target, listed, rfl, same⟩
    · obtain ⟨turn, target, listed, rfl, filled, rfl⟩ := phases.cancelled_target heard
      exact .inr (.inl ⟨filled, standsFor_iff.mpr ⟨target, listed, rfl, rfl⟩,
        phases.kept listed filled (.inr ⟨result, terminal, turn⟩)⟩)
    · exact .inl (phases.bulk_iff.mp cancelled)
  · rintro (unnamed | ⟨filled, stands, kept⟩ | ⟨found, gone, since | ⟨-, list⟩⟩)
    · exact .inr (phases.bulk_iff.mpr unnamed)
    · obtain ⟨target, listed, rfl, rfl⟩ := standsFor_iff.mp stands
      rcases phases.target_outcome listed filled with ⟨ended, -⟩ | ⟨⟨error, raised⟩, -⟩
      · exact .inl (ended.mono phases.cancel_subset)
      · refine absurd ⟨error, raised.mono ?_⟩ kept
        rw [phases.split.2]
        intro event member
        simp [member]
    · exact .inl (.inl ⟨found, gone, since.mono (List.takeWhile_subset _)⟩)
    · exact .inl (.inl ⟨found, gone, .inr (List.dropWhile_subset _ list)⟩)

/-- An order without a client order id is cancelled with its symbol exactly when it has one. -/
theorem Phases.unnamed_iff (listed : order ∈ orders) (unnamed : order.namedId = none) :
    BulkCancelled run account.accountId order.symbol ↔ NotMissed account run rows orders order.symbol none :=
  phases.bulk_iff.trans ⟨fun found => found.1, fun filled => ⟨filled, order, listed, unnamed, rfl⟩⟩

/-- Of an order that is listed, the same holds. -/
theorem Phases.listed_iff (listed : order ∈ orders) :
    ((∃ id, order.namedId = some id ∧ OrderEnded run account.accountId order.symbol id) ∨
      BulkCancelled run account.accountId order.symbol) ↔
        NotMissed account run rows orders order.symbol order.namedId := by
  cases named : order.namedId with
  | none =>
    rw [← phases.unnamed_iff listed named]
    exact or_iff_right fun ⟨_, impossible, _⟩ => nomatch impossible
  | some id =>
    rw [← phases.named_iff]
    refine or_congr ⟨?_, fun ended => ⟨id, rfl, ended⟩⟩ Iff.rfl
    rintro ⟨_, ⟨⟩, ended⟩
    exact ended

end Orders

section Assets

variable {run : History} {rows : List Order} {orders : List ExchangeOrder} {balances : Balances} {nonce : String}
  {sell cancel bulk lock : History} {entry : String × ℚ}

/-- The request is about an asset of its own: whether its symbol is known, its earlier close order, or its sale. -/
def AboutAsset (symbol : String) : Req → Prop
  | .market (.symbolValid other) | .read (.openClose _ other) => other = symbol
  | .broker (.placeOrder order) => order.symbol = symbol
  | _ => False

/-- A turn is about no other asset than its own. -/
theorem SellTurn.about (turn : SellTurn account entry events) {event : Event Req Req.Ans Exc}
    (member : event ∈ events) {symbol : String} (about : AboutAsset symbol event.request) :
    entry.1 ++ quoteAsset = symbol := by
  cases turn with
  | nothing => cases member
  | unknown =>
    rw [List.mem_singleton.mp member] at about
    exact about
  | earlier price filters row found writes filled quiet =>
    simp only [quoted, List.mem_append, List.mem_cons, List.not_mem_nil, or_false] at member
    rcases member with written | rfl | rfl | rfl | rfl | rfl
    · obtain ⟨tx, same⟩ := quiet event written
      rw [same] at about
      exact about.elim
    · exact about.elim
    · exact about
    · exact about.elim
    · exact about.elim
    · exact about
  | sold price filters earlier sale order sells =>
    simp only [quoted, List.mem_append, List.mem_cons, List.not_mem_nil, or_false] at member
    rcases member with sold | rfl | rfl | rfl | rfl
    · have own := sells event sold
      revert own about
      generalize event.request = request
      intro about own
      cases request with
      | broker call =>
        cases call with
        | placeOrder order => exact own.symm.trans about
        | _ => exact about.elim
      | market call => exact own.elim
      | read query => exact own.elim
      | _ => exact about.elim
    · exact about
    · exact about.elim
    · exact about.elim
    · exact about

/-- What a turn of the sales leaves of its asset, in the run around it. -/
theorem SellTurn.settled (turn : SellTurn account entry events) (apart : entry.1 ≠ quoteAsset)
    (positive : 0 < entry.2) (before after : History) (same : run = before ++ (events ++ after)) :
    SymbolUnknown run (entry.1 ++ quoteAsset) ∨ EarlierFilled run account.accountId (entry.1 ++ quoteAsset) ∨
      BalanceSold run account.accountId (entry.1 ++ quoteAsset) entry.2 := by
  have grown : events ⊆ run := by
    rw [same]
    intro event member
    simp [member]
  cases turn with
  | nothing none =>
    rcases none with quote | empty
    · exact absurd quote apart
    · exact absurd positive (not_lt.mpr empty)
  | unknown => exact .inl (grown List.mem_cons_self)
  | earlier price filters row found writes filled quiet =>
    refine .inr (.inl ⟨row, found, before ++ writes, quoted (entry.1 ++ quoteAsset) price filters ++ after, ?_, filled⟩)
    rw [same]
    simp
  | sold price filters earlier sale order sells anew whose what side quantity filled =>
    refine .inr (.inr ⟨filters, order, grown ?_, whose, what, side, quantity, filled.mono ?_⟩)
    · simp [quoted]
    · exact fun event member => grown (List.mem_append_left _ member)

variable (phases : Phases account run rows orders balances nonce sell cancel bulk lock)

include phases

/-- Nothing before the sales is about an asset. -/
theorem Phases.before_about {event : Event Req Req.Ans Exc} (member : event ∈ beforeBalances account run) (symbol : String) :
    ¬AboutAsset symbol event.request := by
  intro about
  rw [phases.split.2] at member
  simp only [List.mem_append, List.mem_cons] at member
  rcases member with rfl | rfl | turn | turn | rfl | rfl | begun
  · exact about
  · exact about
  · obtain ⟨target, -, -, own⟩ := phases.cancel_asks turn
    revert own about
    generalize event.request = request
    intro about own
    cases request with
    | broker call => cases call <;> first | exact about | exact own
    | market call => exact own
    | read query => exact own
    | _ => exact about
  · obtain ⟨order, -, -, own | ⟨tx, own⟩⟩ := phases.bulk_asks turn
    all_goals
      rw [own] at about
      exact about
  · exact about
  · exact about
  · obtain ⟨accountId, own⟩ := phases.locks event begun
    rw [own] at about
    exact about

/-- In a run of distinct assets, everything about an asset stands in its own turn. -/
theorem Phases.turn_of (distinct : (balances.map Prod.fst).Nodup) (member : entry ∈ balances) :
    ∃ newer part older, run = newer ++ (part ++ older) ∧ SellTurn account entry part ∧
      ∀ event ∈ newer ++ older, ¬AboutAsset (entry.1 ++ quoteAsset) event.request := by
  obtain ⟨newer, part, older, same, turn, others⟩ := phases.sells.own Prod.fst distinct member
  refine ⟨newer, part, older ++ beforeBalances account run, ?_, turn, fun event heard about => ?_⟩
  · have whole : sinceBalances account run ++ beforeBalances account run = run := List.takeWhile_append_dropWhile
    rw [phases.split.1, same] at whole
    rw [← List.append_assoc part, ← List.append_assoc, whole]
  · rw [← List.append_assoc] at heard
    rcases List.mem_append.mp heard with inside | before
    · obtain ⟨other, -, apart, p, turned, there⟩ := others event inside
      have named := turned.about there about
      exact apart (String.append_left_inj quoteAsset |>.mp named)
    · exact phases.before_about before _ about

/-- Of distinct assets, a balance was sold exactly when its symbol is known and no earlier close order was found
FILLED. -/
theorem Phases.sold_iff (distinct : (balances.map Prod.fst).Nodup) (member : entry ∈ balances) (apart : entry.1 ≠ quoteAsset)
    (positive : 0 < entry.2) :
    BalanceSold run account.accountId (entry.1 ++ quoteAsset) entry.2 ↔
      ¬SymbolUnknown run (entry.1 ++ quoteAsset) ∧
        ¬EarlierFilled run account.accountId (entry.1 ++ quoteAsset) := by
  obtain ⟨newer, part, older, whole, turn, others⟩ := phases.turn_of distinct member
  have settled := turn.settled apart positive newer older whole
  refine ⟨fun sold => ?_, fun ⟨known, unsold⟩ => (settled.resolve_left known).resolve_left unsold⟩
  have own {event : Event Req Req.Ans Exc} (heard : event ∈ run) (about : AboutAsset (entry.1 ++ quoteAsset) event.request) :
      event ∈ part := by
    rw [whole] at heard
    rcases List.mem_append.mp heard with inside | inside
    · exact absurd about (others event (List.mem_append_left _ inside))
    · exact (List.mem_append.mp inside).resolve_right fun inside =>
        others event (List.mem_append_right _ inside) about
  obtain ⟨_, order, -, -, named, -, -, _, placed, -⟩ := sold
  have placed := own placed named
  -- Only a turn that sells places an order.
  cases turn with
  | nothing => cases placed
  | unknown => cases List.mem_singleton.mp placed
  | earlier price filters row found writes filled quiet =>
    simp only [quoted, List.mem_append, List.mem_cons, List.not_mem_nil, or_false] at placed
    rcases placed with written | same | same | same | same | same
    · obtain ⟨tx, same⟩ := quiet _ written
      cases same
    all_goals cases same
  | sold price filters earlier sale order sells anew =>
    constructor
    · intro unknown
      have heard := own unknown rfl
      simp only [quoted, List.mem_append, List.mem_cons, List.not_mem_nil, or_false] at heard
      rcases heard with sale | same | same | same | same
      · exact (sells _ sale).elim
      all_goals cases same
    · rintro ⟨row, found, front, back, split, filled⟩
      -- The earlier close order is read once, so what stands right behind that is the lookup of the turn.
      have again : (front ++ [⟨.broker (.queryOrder account.accountId (entry.1 ++ quoteAsset) row.clientOrderId),
          .ok (some found)⟩]) ++ (⟨.read (.openClose account.accountId (entry.1 ++ quoteAsset)), .ok (some row)⟩ :: back) =
          (newer ++ sale) ++ (⟨.read (.openClose account.accountId (entry.1 ++ quoteAsset)), .ok earlier⟩ ::
            (quoted (entry.1 ++ quoteAsset) price filters ++ older)) := by
        rw [List.append_assoc, List.singleton_append, ← split, whole]
        simp
      have reads : ∀ event ∈ newer ++ older, event.request ≠ .read (.openClose account.accountId (entry.1 ++ quoteAsset)) := by
        intro event inside same
        refine others event inside ?_
        rw [same]
        exact rfl
      have left : ∀ event ∈ newer ++ sale, event.request ≠ .read (.openClose account.accountId (entry.1 ++ quoteAsset)) := by
        intro event heard same
        rcases List.mem_append.mp heard with inside | inside
        · exact reads event (List.mem_append_left _ inside) same
        · have asks := sells event inside
          rw [same] at asks
          exact asks
      have right : ∀ event ∈ quoted (entry.1 ++ quoteAsset) price filters ++ older,
          event.request ≠ .read (.openClose account.accountId (entry.1 ++ quoteAsset)) := by
        intro event heard same
        rcases List.mem_append.mp heard with inside | inside
        · simp only [quoted, List.mem_cons, List.not_mem_nil, or_false] at inside
          rcases inside with rfl | rfl | rfl <;> cases same
        · exact reads event (List.mem_append_right _ inside) same
      obtain ⟨before, read, -⟩ := split_unique left right rfl again
      cases read
      obtain ⟨first, answer, rfl, unfilled⟩ := anew row rfl
      rw [← List.append_assoc] at before
      obtain ⟨-, last⟩ := List.append_inj' before rfl
      cases List.singleton_inj.mp last
      exact unfilled found rfl filled

end Assets

section Reporting

variable {result : CloseResult} {run : History}

/-- An account that is reported as closed is soundly closed when nothing was missed. -/
theorem closeOne_sound (reached : Reaches (closeOne svc account actor) [] (.done result) run)
    (closed : result.closed) (nothing : NothingMissed account run) : ClosedSoundly account run := by
  obtain ⟨-, rows, orders, balances, nonce, sell, cancel, bulk, lock, phases⟩ := closeOne_phases reached closed
  have rowsAsked : (⟨.read (.activeOrders account.accountId), .ok rows⟩ : Event Req Req.Ans Exc) ∈ run := by
    rw [phases.whole]
    simp
  have ordersAsked : (⟨.broker (.getAllOpenOrders account.accountId), .ok orders⟩ : Event Req Req.Ans Exc) ∈ run := by
    rw [phases.whole]
    simp
  have accounted := nothing.orders rows orders rowsAsked ordersAsked
  refine ⟨fun other read row member => ?_, fun other read order member => ?_, fun other read entry member apart positive => ?_⟩
  · obtain rfl := phases.rows_read read
    exact phases.named_iff.mpr (accounted _ (row_mem_openIds member))
  · obtain rfl := phases.orders_read read
    exact (phases.listed_iff member).mpr (accounted _ (order_mem_openIds member))
  · obtain rfl := phases.balances_read read
    obtain ⟨known, unsold⟩ := nothing.assets other read entry member apart positive
    obtain ⟨newer, part, older, same, turn⟩ := phases.sells.part member
    have whole : sinceBalances account run ++ beforeBalances account run = run := List.takeWhile_append_dropWhile
    rw [phases.split.1, same, List.append_assoc, List.append_assoc] at whole
    exact ((turn.settled apart positive newer _ whole.symm).resolve_left known).resolve_left unsold

/-- An account that is soundly closed missed nothing, when its balances are a dictionary. -/
theorem closeOne_missed (reached : Reaches (closeOne svc account actor) [] (.done result) run)
    (closed : result.closed) (once : EachOnce account run) (sound : ClosedSoundly account run) :
    NothingMissed account run := by
  obtain ⟨-, rows, orders, balances, nonce, sell, cancel, bulk, lock, phases⟩ := closeOne_phases reached closed
  refine ⟨fun others listed readRows readOrders one member => ?_, fun other read entry member apart positive => ?_⟩
  · obtain rfl := phases.rows_read readRows
    obtain rfl := phases.orders_read readOrders
    rcases List.mem_append.mp member with stored | foreign
    · obtain ⟨row, inside, rfl⟩ := List.mem_map.mp stored
      exact phases.named_iff.mp (sound.active others readRows row inside)
    · obtain ⟨order, inside, rfl⟩ := List.mem_map.mp foreign
      exact (phases.listed_iff inside).mp (sound.listed listed readOrders order inside)
  · obtain rfl := phases.balances_read read
    exact (phases.sold_iff (once other read) member apart positive).mp (sound.sold other read entry member apart positive)

/-- The result of an account stands for a run of `_close_one`, unless that run raised. -/
theorem closeFor_closed {before later : History}
    (reached : Reaches (closeFor svc actor account) before (.done result) later) (closed : result.closed) :
    ∃ run newer older, later = newer ++ run ++ older ∧
      Reaches (closeOne svc account actor) [] (.done result) run := by
  simp only [closeFor, withLock, Prog.ensuring, Prog.rescue] at reached
  obtain ⟨_, taken, lock, rest⟩ := of_bind reached
  obtain ⟨outcome, worked, attempted, rest⟩ := of_bind rest
  obtain ⟨_, freed, unlock, last⟩ := of_bind rest
  obtain ⟨rfl, same⟩ := of_ofExcept last
  obtain ⟨answer, done, tried, handled⟩ := of_bind (of_attempt attempted)
  cases answer with
  | error raised =>
    -- An account whose run raised is not reported as closed.
    obtain ⟨same, -⟩ := of_done handled
    cases same
    cases raised <;> cases closed
  | ok value =>
    obtain ⟨found, rfl⟩ := of_done handled
    cases found
    obtain ⟨run, grown, own⟩ := (of_attempt tried).fresh
    obtain ⟨newer, rfl⟩ := unlock.suffix
    exact ⟨run, newer, taken, by rw [same, grown, List.append_assoc], own⟩

/-- For every account of every run of the kill switch that is reported as closed: its orders have ended and its
balances are sold exactly when nothing in the run was missed. -/
theorem closed_sound_iff {argument : Arg} {results : List CloseResult} {seen : History}
    (reached : Reaches (closeAllPositions svc argument actor) [] (.done results) seen)
    (member : result ∈ results) (closed : result.closed) :
    ∃ account run newer older, account.accountId = result.accountId ∧ seen = newer ++ run ++ older ∧
      Reaches (closeOne svc account (actorOr actor)) [] (.done result) run ∧
        (NothingMissed account run → ClosedSoundly account run) ∧
          (EachOnce account run → ClosedSoundly account run → NothingMissed account run) := by
  simp only [closeAllPositions, sync, Prog.bind_eq, Prog.pure_eq] at reached
  obtain ⟨named, _, -, rest⟩ := of_bind reached
  obtain ⟨accounts, _, -, rest⟩ := of_bind rest
  have origin := of_foldlM_mem (fun (results : List CloseResult) result => result ∈ results ∧ result.closed)
    (fun result hist => ∃ account run newer older, account.accountId = result.accountId ∧
      hist = newer ++ run ++ older ∧ Reaches (closeOne svc account (actorOr actor)) [] (.done result) run)
    ?_ ?_ rest result ⟨member, closed⟩
  · rcases origin with ⟨impossible, -⟩ | ⟨account, run, newer, older, named, split, own⟩
    · cases impossible
    · exact ⟨account, run, newer, older, named, split, own, closeOne_sound own closed, closeOne_missed own closed⟩
  · -- A longer history still has the run in it.
    rintro element older longer ⟨extra, rfl⟩ ⟨account, run, newer, behind, named, rfl, own⟩
    exact ⟨account, run, extra ++ newer, behind, named, by simp, own⟩
  · rintro state account after before later turn element ⟨listed, closed⟩
    obtain ⟨result, _, closing, last⟩ := of_bind turn
    obtain ⟨same, rfl⟩ := of_done last
    cases same
    rcases List.mem_append.mp listed with old | new
    · exact .inl ⟨old, closed⟩
    · obtain rfl := List.mem_singleton.mp new
      obtain ⟨run, newer, older, split, own⟩ := closeFor_closed closing closed
      exact .inr ⟨account, run, newer, older, (closeOne_phases own closed).1.symm, split, own⟩

/-- The account of the kill switch. -/
def heldAccount : Account where
  accountId := "main"
  tradingLock := .real
  credentialsConfigured := true

/-- A limit order of that account that is still open. -/
def heldOrder : Order where
  accountId := "main"
  idempotencyKey := "k1"
  symbol := "BTCUSDT"
  side := .buy
  orderType := .limit
  quantity := 1
  price := some 9
  clientOrderId := "c1"
  notional := 9
  referencePrice := 10
  equitySnapshot := 100
  orderId := "o0"
  createdAt := 0
  status := .exchange .new

/-- The exchange lists it, and an order without a client order id. -/
def heldOrders : List ExchangeOrder := [⟨"BTCUSDT", some "5", some "c1"⟩, ⟨"ETHUSDT", some "6", none⟩]

/-- The account has these open orders and holds five units of an asset; every order is cancelled when that is asked,
and a sale is filled at once. -/
def heldAnswers (rows : List Order) (orders : List ExchangeOrder) (asset : String) (valid : Bool) :
    (request : Req) → Except Exc request.Ans
  | .lock _ => .ok ()
  | .unlock _ => .ok ()
  | .credentials _ => .ok ()
  | .uuid => .ok "000000000000"
  | .read (.account _) => .ok (some heldAccount)
  | .read (.activeOrders _) => .ok rows
  | .read (.openClose _ _) => .ok none
  | .write (.insertOrder draft simulated _) => .ok (newOrder draft simulated "o1" 0)
  | .write (.updateOrder _ _ _) => .ok ()
  | .write (.appendAudit _) => .ok ()
  | .broker (.getAllOpenOrders _) => .ok orders
  | .broker (.cancelOrder _ _ _) => .ok (some { status := .canceled })
  | .broker (.cancelAllOpenOrders _ _) => .ok 1
  | .broker (.getBalance _) => .ok [("USDT", 100), (asset, 5)]
  | .broker (.placeOrder order) =>
    .ok { status := .filled, exchangeOrderId := some "7", executedQty := order.quantity, avgPrice := 10 }
  | .market (.symbolValid _) => .ok valid
  | .market (.price _) => .ok (some 10)
  | .market (.filters _) => .ok (some wholeCoins)
  | _ => .error (.other "not asked")

/-- The kill switch over that account, with everything that it asked. -/
def heldRun (rows : List Order) (orders : List ExchangeOrder) (asset : String) (valid : Bool) :
    List (Event Req Req.Ans Exc) × Except Exc (List CloseResult) :=
  (closeAllPositions demo (.text "main") "mcp-agent").replay (heldAnswers rows orders asset valid)

/-- A run that reports one account as closed. -/
theorem heldRun_closed (rows : List Order) (orders : List ExchangeOrder) (asset : String) (valid : Bool)
    (reports : (heldRun rows orders asset valid).2.toOption.any fun results => results.any CloseResult.closed) :
    ∃ results result, Reaches (closeAllPositions demo (.text "main") "mcp-agent") [] (.done results)
        (heldRun rows orders asset valid).1.reverse ∧ result ∈ results ∧ result.closed := by
  have reached := Prog.replay_reaches (heldAnswers rows orders asset valid)
    (closeAllPositions demo (.text "main") "mcp-agent") []
  rw [List.append_nil] at reached
  change Reaches _ [] (Prog.ofExcept (heldRun rows orders asset valid).2)
    (heldRun rows orders asset valid).1.reverse at reached
  obtain ⟨results, returned, passes⟩ := (Option.any_eq_true _ _).mp reports
  obtain ⟨result, member, closed⟩ := List.any_eq_true.mp passes
  cases outcome : (heldRun rows orders asset valid).2 with
  | error raised =>
    rw [outcome] at returned
    cases returned
  | ok value =>
    rw [outcome] at returned reached
    cases returned
    exact ⟨results, result, reached, member, closed⟩

/-- Every event of a run in which everything is answered like this. -/
def HeldEvents (rows : List Order) (orders : List ExchangeOrder) (asset : String) (valid : Bool) (run : History) : Prop :=
  ∀ event ∈ run, event = ⟨event.request, heldAnswers rows orders asset valid event.request⟩

/-- Where everything is answered like this, a request has its one answer. -/
theorem HeldEvents.answer {rows : List Order} {orders : List ExchangeOrder} {asset : String} {valid : Bool}
    (held : HeldEvents rows orders asset valid run) {request : Req} {answer : Except Exc request.Ans}
    (member : (⟨request, answer⟩ : Event Req Req.Ans Exc) ∈ run) :
    answer = heldAnswers rows orders asset valid request := by
  have same := held _ member
  simpa using same

/-- A run over two coins of which nothing is missed. -/
theorem held_misses_nothing (held : HeldEvents [heldOrder] heldOrders "BTC" true run) : NothingMissed account run := by
  constructor
  · intro rows orders readRows readOrders one member
    obtain rfl : rows = [heldOrder] := Except.ok.inj (held.answer readRows)
    obtain rfl : orders = heldOrders := Except.ok.inj (held.answer readOrders)
    have named : NotMissed account run [heldOrder] heldOrders "BTCUSDT" (some "c1") := by
      refine .inr (.inl ⟨by decide, by decide, ?_⟩)
      rintro ⟨error, alone | list⟩
      · cases held.answer (List.dropWhile_subset _ alone)
      · cases held.answer (List.dropWhile_subset _ list)
    have unnamed : NotMissed account run [heldOrder] heldOrders "ETHUSDT" none := by
      show "ETHUSDT" ≠ ""
      decide
    have three : openIds [heldOrder] heldOrders =
        [("BTCUSDT", some "c1"), ("BTCUSDT", some "c1"), ("ETHUSDT", none)] := by decide
    rw [three] at member
    simp only [List.mem_cons, List.not_mem_nil, or_false] at member
    rcases member with rfl | rfl | rfl
    · exact named
    · exact named
    · exact unnamed
  · intro balances read entry member apart positive
    refine ⟨fun unknown => ?_, fun earlier => ?_⟩
    · cases held.answer unknown
    · obtain ⟨row, found, newer, older, split, filled⟩ := earlier
      have asked : (⟨.read (.openClose account.accountId (entry.1 ++ quoteAsset)), .ok (some row)⟩ :
          Event Req Req.Ans Exc) ∈ run := by
        rw [split]
        simp
      cases held.answer asked

/-- The rule applied to an account with two open orders and five coins: nothing is missed, and it is soundly closed. -/
theorem coins_closed : ∃ results result seen account run newer older,
    Reaches (closeAllPositions demo (.text "main") "mcp-agent") [] (.done results) seen ∧
      result ∈ results ∧ result.closed ∧ account.accountId = result.accountId ∧ seen = newer ++ run ++ older ∧
        Reaches (closeOne demo account (actorOr "mcp-agent")) [] (.done result) run ∧
          NothingMissed account run ∧ ClosedSoundly account run := by
  obtain ⟨results, result, reached, member, closed⟩ := heldRun_closed [heldOrder] heldOrders "BTC" true (by decide +kernel)
  obtain ⟨account, run, newer, older, named, split, own, sound, -⟩ := closed_sound_iff reached member closed
  have held : HeldEvents [heldOrder] heldOrders "BTC" true run := by
    intro event inside
    refine @Prog.replay_answers _ _ _ _ _ (closeAllPositions demo (.text "main") "mcp-agent") _ (List.mem_reverse.mp ?_)
    change event ∈ (heldRun [heldOrder] heldOrders "BTC" true).1.reverse
    rw [split]
    simp [inside]
  exact ⟨results, result, _, account, run, newer, older, reached, member, closed, named, split, own,
    held_misses_nothing held, sound (held_misses_nothing held)⟩

/-- The request is no order. -/
def placesNothing (event : Event Req Req.Ans Exc) : Bool :=
  match event.request with
  | .broker (.placeOrder _) => false
  | _ => true

/-- Five units without a market of their own stay, and the account is reported as closed. -/
theorem unlisted_asset_kept : ∃ results result seen,
    Reaches (closeAllPositions demo (.text "main") "mcp-agent") [] (.done results) seen ∧
      result ∈ results ∧ result.closed ∧ ¬ClosedSoundly heldAccount seen := by
  obtain ⟨results, result, reached, member, closed⟩ := heldRun_closed [] [] "OLD" false (by decide +kernel)
  refine ⟨results, result, _, reached, member, closed, fun sound => ?_⟩
  have quiet : (heldRun [] [] "OLD" false).1.reverse.all placesNothing := by decide +kernel
  have asked : (⟨.broker (.getBalance "main"), .ok [("USDT", 100), ("OLD", 5)]⟩ : Event Req Req.Ans Exc) ∈
      (heldRun [] [] "OLD" false).1.reverse := by
    have weighed : (heldRun [] [] "OLD" false).1.any fun event =>
        event.request = .broker (.getBalance "main") := by decide +kernel
    obtain ⟨event, heard, same⟩ := List.any_eq_true.mp weighed
    have answered := Prog.replay_answers heard
    rw [of_decide_eq_true same] at answered
    rw [answered] at heard
    exact List.mem_reverse.mpr heard
  -- No order was placed at all.
  obtain ⟨_, order, -, -, -, -, -, _, placed, -⟩ :=
    sound.sold _ asked ("OLD", 5) (by simp) (by decide) (by decide +kernel)
  cases List.all_eq_true.mp quiet _ placed

end Reporting

end Rasat
