import Mathlib.Data.Finset.Max
import RasatTrading.Data.Liquidations
import RasatTrading.Guarantees.Vwap

/-! Which liquidations the stored records account for. -/

namespace Rasat

open Ascending Keyed Rounding

variable (text : Text) (parseInt : String → Option ℤ)

/-- A well-formed liquidation order, as the exchange writes it, and the event that it tells: what is liquidated is a
positive float. -/
inductive ForceOrder : Json → LiquidationEvent → Prop
  | order {item order : List (String × Json)} {event : LiquidationEvent} {stamp : ℤ} {price qty : Json}
    (holds : Json.get item "o" = .object order) (stamped : Json.get item "E" = .int stamp) (later : stamp ≠ 0)
    (time : toEpochSeconds stamp = event.eventTime) (symbol : order.lookup "s" = some (.text event.symbol))
    (side : order.lookup "S" = some (.text event.side)) (priced : order.lookup "p" = some price)
    (price_read : price.toFloat text = some event.price) (counted : order.lookup "q" = some qty)
    (qty_read : qty.toFloat text = some event.qty) (price_pos : 0 < event.price) (qty_pos : 0 < event.qty)
    (worth : 0 < event.notional) :
    ForceOrder (.object item) event

/-- A well-formed message and its events. -/
inductive Carries : Json → List LiquidationEvent → Prop
  | one {item : List (String × Json)} {event : LiquidationEvent} (plain : item.lookup "data" = none)
    (order : ForceOrder text (.object item) event) : Carries (.object item) [event]
  | list {items : List Json} {events : List LiquidationEvent} (orders : List.Forall₂ (ForceOrder text) items events) :
    Carries (.array items) events
  | wrapped {fields item : List (String × Json)} {event : LiquidationEvent}
    (data : fields.lookup "data" = some (.object item)) (order : ForceOrder text (.object item) event) :
    Carries (.object fields) [event]
  | wrappedList {fields : List (String × Json)} {items : List Json} {events : List LiquidationEvent}
    (data : fields.lookup "data" = some (.array items)) (orders : List.Forall₂ (ForceOrder text) items events) :
    Carries (.object fields) events

/-- A well-formed message with its events, and how it is handled. -/
structure ForceMessage where
  data : Json
  events : List LiquidationEvent
  carries : Carries text data events
  storedAt : ℚ := 0
  doneAt : ℚ := 0
  failed : Bool := false

def ForceMessage.delivery {text : Text} (message : ForceMessage text) : Delivery :=
  ⟨some message.data, message.storedAt, message.doneAt, message.failed⟩

/-- The events of a symbol that some messages bring. -/
def received {text : Text} (messages : List (ForceMessage text)) (symbol : String) : List LiquidationEvent :=
  (messages.flatMap ForceMessage.events).filter fun event => event.symbol = symbol

variable {events : List LiquidationEvent} {event : LiquidationEvent}

section Parse

variable {text parseInt}

theorem parseForceOrder_eq {item : Json} (order : ForceOrder text item event) :
    parseForceOrder text parseInt item = some event := by
  obtain @⟨item, order, event, stamp, price, qty, holds, stamped, later, time, symbol, side, priced, price_read,
    counted, qty_read, -, -, -⟩ := order
  have stamp_true : (Json.int stamp).truthy = true := decide_eq_true later
  -- `E` is there and it is not zero, so `T` is not asked.
  have chosen : eventStamp item order = .int stamp := by
    unfold eventStamp
    rw [stamped, if_pos stamp_true]
  -- No conversion raises.
  have read : readForceOrder text parseInt item order = some event := by
    unfold readForceOrder
    simp only [chosen, Json.toInt, symbol, side, priced, counted, price_read, qty_read, Option.bind_eq_bind,
      Option.bind_some, Option.getD_some, Json.str, Option.pure_def, time]
  unfold parseForceOrder
  simp only [holds, read]

theorem parse_items {items : List Json} (orders : List.Forall₂ (ForceOrder text) items events) :
    items.filterMap (parseForceOrder text parseInt) = events := by
  induction orders with
  | nil => rfl
  | cons order _ ih => rw [List.filterMap_cons_some (parseForceOrder_eq order), ih]

/-- No event of a well-formed message is skipped. -/
theorem parseForceOrderArr_eq {data : Json} (carries : Carries text data events) :
    parseForceOrderArr text parseInt (some data) = events := by
  suffices items : List.Forall₂ (ForceOrder text) (forceOrderItems data) events from parse_items items
  cases carries with
  | one plain order =>
    unfold forceOrderItems
    simp only [plain, Option.getD_none]
    exact .cons order .nil
  | list orders => exact orders
  | wrapped data order =>
    unfold forceOrderItems
    simp only [data, Option.getD_some]
    exact .cons order .nil
  | wrappedList data orders =>
    unfold forceOrderItems
    simp only [data, Option.getD_some]
    exact orders

end Parse

/-! What is written, and what the table has of it. -/

section Written

variable {text parseInt} {messages : List (ForceMessage text)} {symbol : String}

/-- The events that reach the table, each with the time at which it is stored. -/
def stamped (messages : List (ForceMessage text)) : List (LiquidationEvent × ℤ) :=
  messages.flatMap fun message =>
    if message.failed then [] else message.events.map fun event => (event, truncated message.storedAt)

/-- Those of a symbol. -/
def stampedOf (messages : List (ForceMessage text)) (symbol : String) : List (LiquidationEvent × ℤ) :=
  (stamped messages).filter fun pair => pair.1.symbol = symbol

/-- The events of a symbol that reach the table. -/
def kept (messages : List (ForceMessage text)) (symbol : String) : List LiquidationEvent :=
  (stampedOf messages symbol).map Prod.fst

/-- The record of an event that is stored at a time. -/
def recordOf (pair : LiquidationEvent × ℤ) : FuturesRecord := pair.1.record pair.2

theorem handleAll_futures (client : LiquidationClient) :
    (client.handleAll text parseInt (messages.map ForceMessage.delivery)).futures =
      client.futures.upsertAll ((stamped messages).map recordOf) := by
  induction messages generalizing client with
  | nil => rfl
  | cons message rest ih =>
    -- The messages are handled one after another, each on the table that those before it left.
    have later := ih (client.handleRaw text parseInt message.delivery)
    have parsed : parseForceOrderArr text parseInt message.delivery.raw = message.events :=
      parseForceOrderArr_eq message.carries
    have first : (client.handleRaw text parseInt message.delivery).futures = client.futures.upsertAll
        ((if message.failed then [] else
          message.events.map fun event => (event, truncated message.storedAt)).map recordOf) := by
      unfold LiquidationClient.handleRaw
      rw [parsed]
      cases failed : message.failed with
      | true => simp [ForceMessage.delivery, failed, Table.upsertAll]
      | false =>
        -- A message without events writes nothing, which is the same as writing an empty list.
        by_cases none_told : message.events = []
        · simp [none_told, Table.upsertAll]
        · simp only [ForceMessage.delivery, none_told, failed, Bool.false_eq_true, or_self, if_false, List.map_map]
          rfl
    show ((client.handleRaw text parseInt message.delivery).handleAll text parseInt
      (rest.map ForceMessage.delivery)).futures = _
    rw [later, first, ← Table.upsertAll_append, ← List.map_append]
    rfl

/-- Of what is received, all that no failed write takes with it is kept. -/
theorem kept_received (messages : List (ForceMessage text)) (symbol : String) :
    (kept messages symbol).Sublist (received messages symbol) ∧
      (kept messages symbol = received messages symbol ↔
        ∀ message ∈ messages, message.failed = true → ∀ event ∈ message.events, event.symbol ≠ symbol) := by
  -- What is kept of the first message is all of it or nothing.
  induction messages with
  | nil => exact ⟨.slnil, iff_of_true rfl (List.forall_mem_nil _)⟩
  | cons message rest ih =>
    obtain ⟨part, exact_iff⟩ := ih
    have came : received (message :: rest) symbol =
        (message.events.filter fun event => event.symbol = symbol) ++ received rest symbol := by
      unfold received
      rw [List.flatMap_cons, List.filter_append]
    rw [came, List.forall_mem_cons, ← exact_iff]
    cases failed : message.failed with
    | true =>
      have same : kept (message :: rest) symbol = kept rest symbol := by
        simp [kept, stampedOf, stamped, failed]
      rw [same]
      refine ⟨part.trans (List.sublist_append_right _ _), ?_⟩
      constructor
      · intro equal
        -- The rest cannot have made up for what the first message lost.
        have lengths := congrArg List.length equal
        have most := part.length_le
        rw [List.length_append] at lengths
        have none_lost : message.events.filter (fun event => event.symbol = symbol) = [] := by
          rw [← List.length_eq_zero_iff]
          omega
        rw [none_lost, List.nil_append] at equal
        refine ⟨?_, equal⟩
        intro _ event told
        simpa using List.filter_eq_nil_iff.mp none_lost event told
      · intro fine
        have none_lost : message.events.filter (fun event => event.symbol = symbol) = [] := by
          rw [List.filter_eq_nil_iff]
          intro event told
          simpa using fine.1 rfl event told
        rw [none_lost, List.nil_append]
        exact fine.2
    | false =>
      have same : kept (message :: rest) symbol =
          (message.events.filter fun event => event.symbol = symbol) ++ kept rest symbol := by
        unfold kept stampedOf stamped
        rw [List.flatMap_cons, failed, if_neg Bool.false_ne_true, List.filter_append, List.map_append, List.filter_map,
          List.map_map]
        congr 1
        exact List.map_id _
      rw [same]
      refine ⟨(List.Sublist.refl _).append part, ?_⟩
      rw [List.append_cancel_left_eq]
      exact ⟨fun equal => ⟨fun wrong => absurd wrong Bool.false_ne_true, equal⟩, fun fine => fine.2⟩

end Written

/-! The records of a symbol. -/

/-- Whether a key is that of a liquidation of a symbol. -/
def isLiquidation (symbol : String) (key : String × String × ℤ) : Bool := key.1 = symbol ∧ key.2.1 = "liquidation"

/-- The value of a record. -/
def recordValue (record : FuturesRecord) : ℚ := record.value.getD 0

/-- An amount of each liquidation of a symbol, and nothing of the other records. -/
def weigh {M : Type} [Zero M] (symbol : String) (amount : FuturesRecord → M) (record : FuturesRecord) : M :=
  if isLiquidation symbol record.key then amount record else 0

section Weighed

variable {text} {messages : List (ForceMessage text)} {symbol : String} {M : Type} [AddCommGroup M]
  {amount : FuturesRecord → M}

theorem sum_weigh (records : List FuturesRecord) :
    (records.map (weigh symbol amount)).sum =
      ((records.filter fun record => isLiquidation symbol record.key).map amount).sum := by
  -- A record that does not count adds zero, and the filter leaves it out.
  induction records with
  | nil => rfl
  | cons record rest ih =>
    cases counts : isLiquidation symbol record.key with
    | true => simp [weigh, counts, ih]
    | false => simp [weigh, counts, ih]

/-- The liquidations of a table weigh what its history of them does. -/
theorem weightOf_history (futures : FuturesTable) :
    futures.weightOf (weigh symbol amount) = ((futures.history symbol "liquidation").map amount).sum := by
  unfold Table.weightOf FuturesTable.history
  rw [sum_weigh]
  apply List.Perm.sum_eq
  apply List.Perm.map
  exact (List.perm_insertionSort _ _).symm

/-- The written records of a symbol are those of its events. -/
theorem filter_records : ((stamped messages).map recordOf).filter (fun record => isLiquidation symbol record.key) =
    (stampedOf messages symbol).map recordOf := by
  unfold stampedOf
  rw [List.filter_map]
  congr 1
  apply List.filter_congr
  intro pair _
  simp [isLiquidation, recordOf, LiquidationEvent.record, FuturesRecord.key]

/-- No key of a symbol is written twice exactly when no two kept events are of one second. -/
theorem nodup_keys_iff :
    ((((stamped messages).map recordOf).map FuturesRecord.key).filter (isLiquidation symbol)).Nodup ↔
      ((kept messages symbol).map LiquidationEvent.eventTime).Nodup := by
  have keys : (((stamped messages).map recordOf).map FuturesRecord.key).filter (isLiquidation symbol) =
      ((kept messages symbol).map LiquidationEvent.eventTime).map fun time => (symbol, "liquidation", time) := by
    rw [List.filter_map]
    show (((stamped messages).map recordOf).filter fun record => isLiquidation symbol record.key).map _ = _
    rw [filter_records]
    unfold kept
    rw [List.map_map, List.map_map, List.map_map]
    apply List.map_congr_left
    intro pair listed
    have named := of_decide_eq_true (List.mem_filter.mp listed).2
    simp [recordOf, LiquidationEvent.record, FuturesRecord.key, named]
  rw [keys]
  -- Of one symbol, only the second tells two keys apart.
  apply List.nodup_map_iff
  intro one other same
  exact (Prod.mk.inj (Prod.mk.inj same).2).2

/-- What is received is worth something. -/
theorem notional_pos {data : Json} (carries : Carries text data events) :
    ∀ event ∈ events, 0 < event.notional := by
  have one {item : Json} {event : LiquidationEvent} (order : ForceOrder text item event) :
      0 < event.notional := by
    cases order with
    | order _ _ _ _ _ _ _ _ _ _ _ _ worth => exact worth
  have many {items : List Json} {events : List LiquidationEvent}
      (orders : List.Forall₂ (ForceOrder text) items events) :
      ∀ event ∈ events, 0 < event.notional := by
    induction orders with
    | nil => exact List.forall_mem_nil _
    | cons order _ ih => exact List.forall_mem_cons.mpr ⟨one order, ih⟩
  cases carries with
  | one _ order => exact List.forall_mem_singleton.mpr (one order)
  | list orders => exact many orders
  | wrapped _ order => exact List.forall_mem_singleton.mpr (one order)
  | wrappedList _ orders => exact many orders

theorem received_pos : ∀ event ∈ received messages symbol, 0 < event.notional := by
  intro event listed
  obtain ⟨message, -, told⟩ := List.mem_flatMap.mp (List.mem_filter.mp listed).1
  exact notional_pos message.carries event told

theorem kept_pos : ∀ event ∈ kept messages symbol, 0 < event.notional := by
  intro event listed
  exact received_pos event ((kept_received messages symbol).1.subset listed)

end Weighed

/-! The table after the messages. -/

section After

variable {text parseInt} {client : LiquidationClient} {messages : List (ForceMessage text)} {symbol : String}

/-- No liquidation of a symbol is stored yet. -/
def NoneStored (futures : FuturesTable) (symbol : String) : Prop :=
  ∀ record ∈ futures.rows, isLiquidation symbol record.key = false

/-- The stored liquidations of a symbol after some messages. -/
def storedAfter (text : Text) (parseInt : String → Option ℤ) (client : LiquidationClient)
    (messages : List (ForceMessage text)) : FuturesTable :=
  (client.handleAll text parseInt (messages.map ForceMessage.delivery)).futures

theorem mem_history_iff {futures : FuturesTable} {record : FuturesRecord} :
    record ∈ futures.history symbol "liquidation" ↔
      record ∈ futures.rows ∧ isLiquidation symbol record.key = true := by
  unfold FuturesTable.history
  rw [List.mem_insertionSort, List.mem_filter]
  rfl

/-- A stored liquidation is the record of a kept event. -/
theorem stored_is_kept (clear : NoneStored client.futures symbol) {record : FuturesRecord}
    (listed : record ∈ (storedAfter text parseInt client messages).history symbol "liquidation") :
    ∃ pair ∈ stampedOf messages symbol, recordOf pair = record := by
  obtain ⟨stored, counts⟩ := mem_history_iff.mp listed
  unfold storedAfter at stored
  rw [handleAll_futures, Table.mem_rows_iff] at stored
  -- No liquidation of the symbol was there before, so this one has been written.
  have written := (Table.mem_of_find_upsertAll clear counts stored).1
  have among : record ∈ ((stamped messages).map recordOf).filter fun record => isLiquidation symbol record.key :=
    List.mem_filter.mpr ⟨written, counts⟩
  rw [filter_records] at among
  exact List.mem_map.mp among

variable (parseInt client) in
/-- For every kept event there is a stored liquidation of its second. -/
theorem kept_is_stored (listed : event ∈ kept messages symbol) :
    ∃ record ∈ (storedAfter text parseInt client messages).history symbol "liquidation",
      record.eventTime = event.eventTime := by
  obtain ⟨pair, inside, rfl⟩ := List.mem_map.mp listed
  obtain ⟨came, named⟩ := List.mem_filter.mp inside
  have written : recordOf pair ∈ (stamped messages).map recordOf := List.mem_map_of_mem came
  cases found : (storedAfter text parseInt client messages).find (recordOf pair).key with
  | none =>
    unfold storedAfter at found
    rw [handleAll_futures, Table.find_upsertAll] at found
    have none_found := (Option.or_eq_none_iff.mp found).1
    have differs := List.find?_eq_none.mp none_found (recordOf pair) (List.mem_reverse.mpr written)
    exact absurd (decide_eq_true rfl) differs
  | some record =>
    have same := Table.key_of_find found
    refine ⟨record, mem_history_iff.mpr ⟨List.mem_of_find?_eq_some found, ?_⟩, (Prod.mk.inj (Prod.mk.inj same).2).2⟩
    rw [same]
    simpa [isLiquidation, recordOf, LiquidationEvent.record, FuturesRecord.key] using named

theorem history_positive (clear : NoneStored client.futures symbol) :
    ∀ record ∈ (storedAfter text parseInt client messages).history symbol "liquidation", 0 < recordValue record := by
  intro record listed
  obtain ⟨pair, inside, rfl⟩ := stored_is_kept clear listed
  exact kept_pos pair.1 (List.mem_map_of_mem inside)

/-- Amounts of the stored liquidations are at most those of the written records, and as much only when no two kept
events are of one second. -/
theorem stored_amounts {M : Type} [AddCommGroup M] [LinearOrder M] [IsOrderedAddMonoid M] {amount : FuturesRecord → M}
    (clear : NoneStored client.futures symbol)
    (positive : ∀ pair ∈ stampedOf messages symbol, 0 < amount (recordOf pair)) :
    (((storedAfter text parseInt client messages).history symbol "liquidation").map amount).sum ≤
        (((stampedOf messages symbol).map recordOf).map amount).sum ∧
      ((((storedAfter text parseInt client messages).history symbol "liquidation").map amount).sum =
          (((stampedOf messages symbol).map recordOf).map amount).sum ↔
        ((kept messages symbol).map LiquidationEvent.eventTime).Nodup) := by
  have uncounted : ∀ record : FuturesRecord, isLiquidation symbol record.key = false →
      weigh symbol amount record = 0 := by
    intro record other
    simp [weigh, other]
  have counted : ∀ record ∈ (stamped messages).map recordOf, isLiquidation symbol record.key = true →
      0 < weigh symbol amount record := by
    intro record listed counts
    have among : record ∈ ((stamped messages).map recordOf).filter fun record => isLiquidation symbol record.key :=
      List.mem_filter.mpr ⟨listed, counts⟩
    rw [filter_records] at among
    obtain ⟨pair, inside, rfl⟩ := List.mem_map.mp among
    rw [weigh, if_pos counts]
    exact positive pair inside
  have table : storedAfter text parseInt client messages = client.futures.upsertAll ((stamped messages).map recordOf) :=
    handleAll_futures client
  -- What is written twice under one key weighs once.
  have told := Table.weightOf_upsertAll clear uncounted counted
  rw [sum_weigh, filter_records, nodup_keys_iff, ← table, weightOf_history] at told
  exact told

variable (parseInt messages) in
theorem stored_values (clear : NoneStored client.futures symbol) :
    (((storedAfter text parseInt client messages).history symbol "liquidation").map recordValue).sum ≤
        ((kept messages symbol).map LiquidationEvent.notional).sum ∧
      ((((storedAfter text parseInt client messages).history symbol "liquidation").map recordValue).sum =
          ((kept messages symbol).map LiquidationEvent.notional).sum ↔
        ((kept messages symbol).map LiquidationEvent.eventTime).Nodup) := by
  have same : ((stampedOf messages symbol).map recordOf).map recordValue =
      (kept messages symbol).map LiquidationEvent.notional := by
    unfold kept
    rw [List.map_map, List.map_map]
    rfl
  rw [← same]
  apply stored_amounts clear
  intro pair inside
  exact kept_pos pair.1 (List.mem_map_of_mem inside)

variable (parseInt) in
/-- When no two kept events are of one second, there are as many stored liquidations. -/
theorem stored_length (clear : NoneStored client.futures symbol)
    (distinct : ((kept messages symbol).map LiquidationEvent.eventTime).Nodup) :
    ((storedAfter text parseInt client messages).history symbol "liquidation").length =
      (kept messages symbol).length := by
  have counted : (((storedAfter text parseInt client messages).history symbol "liquidation").map fun _ => (1 : ℤ)).sum =
      (((stampedOf messages symbol).map recordOf).map fun _ => (1 : ℤ)).sum :=
    (stored_amounts clear fun _ _ => one_pos).2.mpr distinct
  simp only [List.map_const', List.sum_replicate, nsmul_one, List.length_map, Nat.cast_inj] at counted
  unfold kept
  rw [List.length_map]
  exact counted

/-- The records that are read have the values of all received events exactly when no event is lost to a failed write, no
two are of one second, and all of them are read. -/
theorem series_total_iff (clear : NoneStored client.futures symbol) (limit : ℕ) :
    (((storedAfter text parseInt client messages).series symbol "liquidation" limit).map recordValue).sum =
        ((received messages symbol).map LiquidationEvent.notional).sum ↔
      (∀ message ∈ messages, message.failed = true → ∀ event ∈ message.events, event.symbol ≠ symbol) ∧
        ((received messages symbol).map LiquidationEvent.eventTime).Nodup ∧
        (received messages symbol).length ≤ limit := by
  obtain ⟨part, whole⟩ := kept_received messages symbol
  have all_pos : ∀ amount ∈ (received messages symbol).map LiquidationEvent.notional, 0 < amount := by
    intro amount listed
    obtain ⟨event, inside, rfl⟩ := List.mem_map.mp listed
    exact received_pos event inside
  have stored_pos :
      ∀ amount ∈ ((storedAfter text parseInt client messages).history symbol "liquidation").map recordValue,
      0 < amount := by
    intro amount listed
    obtain ⟨record, inside, rfl⟩ := List.mem_map.mp listed
    exact history_positive clear record inside
  have reading : ((storedAfter text parseInt client messages).series symbol "liquidation" limit).map recordValue =
      lastOf limit (((storedAfter text parseInt client messages).history symbol "liquidation").map recordValue) := by
    show (lastOf limit ((storedAfter text parseInt client messages).history symbol "liquidation")).map recordValue = _
    unfold lastOf
    rw [List.map_drop, List.length_map]
  -- Reading, storing and writing can each only lose a positive amount.
  obtain ⟨read_le, read_iff⟩ := sum_sublist_positive (lastOf_suffix limit _).sublist stored_pos
  obtain ⟨stored_le, stored_iff⟩ := stored_values parseInt messages clear
  obtain ⟨kept_le, kept_iff⟩ := sum_sublist_positive (part.map LiquidationEvent.notional) all_pos
  rw [lastOf_eq_self_iff, List.length_map] at read_iff
  rw [reading]
  constructor
  · intro total
    -- The totals at both ends are the same, so none of the three has lost anything.
    have kept_all := part.eq_of_length (by
      have same := congrArg List.length (kept_iff.mp (by linarith))
      simpa using same)
    have distinct := stored_iff.mp (by linarith)
    have length := stored_length parseInt clear distinct
    have fits := read_iff.mp (by linarith)
    rw [kept_all] at distinct length
    refine ⟨whole.mp kept_all, distinct, ?_⟩
    omega
  · intro fine
    obtain ⟨stored, distinct, fits⟩ := fine
    have kept_all := whole.mpr stored
    rw [← kept_all] at distinct fits ⊢
    have length := stored_length parseInt clear distinct
    rw [read_iff.mpr (by omega), stored_iff.mpr distinct]

/-- The newest liquidation of a symbol. -/
theorem context_liquidation (futures : FuturesTable) :
    (futures.context symbol).liquidation = (futures.history symbol "liquidation").getLast? := by
  show (lastOf 1 (futures.history symbol "liquidation")).getLast? = _
  rcases List.eq_nil_or_concat (futures.history symbol "liquidation") with none_stored | ⟨front, last, shape⟩
  · rw [none_stored]
    rfl
  · rw [shape]
    simp [lastOf]

end After

/-! The points of the liquidations. -/

/-- The tenths of a point that a value is rounded to. -/
def tenthsOf (value : ℚ) : ℤ := halfEven (Magnitude.rounded (10 * Magnitude.rounded (min value 5 / 5)) * 10)

/-- The points that the score gives for a value. -/
def pointsFor (value : ℚ) : Extended := ((Extended.finite 10).mul (normLiquidation value)).roundTo 1

/-- A number of one or less is rounded to one of one or less. -/
theorem round_small {number most : ℚ} (nonneg : 0 ≤ number) (within : number ≤ most) (isDouble : IsDouble most) :
    Extended.round number = .finite (Magnitude.rounded number) ∧ Magnitude.rounded number ≤ most := by
  obtain ⟨fits, below⟩ := (isDouble_iff (nonneg.trans within)).mp isDouble
  have less := Magnitude.rounded_mono nonneg within
  rw [Magnitude.rounded_of_fits (nonneg.trans within) fits] at less
  exact ⟨by rw [Extended.round_of_nonneg nonneg, if_pos (less.trans_lt below)], less⟩

variable {value : ℚ}

/-- The points are counted in tenths. -/
theorem pointsFor_eq (nonneg : 0 ≤ value) : pointsFor value = .round (tenthsOf value / 10) := by
  have capped : ((Extended.finite value).greatest (.finite 0)).least (.finite 5) = .finite (min value 5) := by
    have more : (Extended.finite value).greatest (.finite 0) = .finite value := by
      simp [Extended.greatest, Extended.lt, nonneg]
    rw [more]
    rcases le_or_gt value 5 with less | beyondFive
    · simp [Extended.least, Extended.lt, less]
    · simp [Extended.least, Extended.lt, beyondFive, beyondFive.le]
  have low : 0 ≤ min value 5 / 5 := div_nonneg (le_min nonneg (by norm_num)) (by norm_num)
  have high : min value 5 / 5 ≤ 1 := (div_le_one (by norm_num)).mpr (min_le_right _ _)
  obtain ⟨quotient, part⟩ := round_small low high (by decide +kernel)
  have partNonneg := Magnitude.rounded_nonneg low
  obtain ⟨product, -⟩ := @round_small (10 * Magnitude.rounded (min value 5 / 5)) 10 (by linarith) (by linarith)
    (by decide +kernel)
  rw [pointsFor, normLiquidation, capped,
    show (Extended.finite (min value 5)).div (.finite 5) = .round (min value 5 / 5) from rfl, quotient,
    show (Extended.finite 10).mul (.finite (Magnitude.rounded (min value 5 / 5))) =
      .round (10 * Magnitude.rounded (min value 5 / 5)) from rfl, product, Extended.roundTo, tenthsOf, pow_one]

/-- A higher value has no fewer tenths. -/
theorem tenthsOf_mono {less more : ℚ} (nonneg : 0 ≤ less) (order : less ≤ more) : tenthsOf less ≤ tenthsOf more := by
  have low : 0 ≤ min less 5 / 5 := div_nonneg (le_min nonneg (by norm_num)) (by norm_num)
  have capped : min less 5 / 5 ≤ min more 5 / 5 :=
    div_le_div_of_nonneg_right (min_le_min_right 5 order) (by norm_num)
  have parts := Magnitude.rounded_mono low capped
  have partNonneg := Magnitude.rounded_nonneg low
  have products := @Magnitude.rounded_mono (10 * Magnitude.rounded (min less 5 / 5))
    (10 * Magnitude.rounded (min more 5 / 5)) (by linarith) (by linarith)
  exact halfEven_mono (by linarith)

/-- All tenths lie between zero and a hundred. -/
theorem tenthsOf_bounds (nonneg : 0 ≤ value) : 0 ≤ tenthsOf value ∧ tenthsOf value ≤ 100 := by
  have least : tenthsOf 0 = 0 := by decide +kernel
  have most : tenthsOf 5 = 100 := by decide +kernel
  refine ⟨least ▸ tenthsOf_mono (le_refl _) nonneg, ?_⟩
  rcases le_total value 5 with within | beyondFive
  · exact most ▸ tenthsOf_mono nonneg within
  · have same : tenthsOf value = tenthsOf 5 := by
      unfold tenthsOf
      rw [min_eq_right beyondFive, min_self]
    rw [same, most]

/-- Different tenths are different floats. -/
theorem round_tenths_inj {left right : ℤ} (nonneg : 0 ≤ left) (most : left ≤ 100) (nonneg' : 0 ≤ right)
    (most' : right ≤ 100) (same : Extended.round (left / 10) = Extended.round (right / 10)) : left = right := by
  -- The rounding errors are far smaller than a tenth.
  have rounded (count : ℤ) (low : 0 ≤ count) (high : count ≤ 100) :
      Extended.round (count / 10) = .finite (Magnitude.rounded (count / 10)) ∧
        |(count : ℚ) / 10 - Magnitude.rounded (count / 10)| ≤ 1 / 100 := by
    have low' : (0 : ℚ) ≤ count := by exact_mod_cast low
    have high' : (count : ℚ) ≤ 100 := by exact_mod_cast high
    refine ⟨(@round_small (count / 10) 10 (by linarith) (by linarith) (by decide +kernel)).1, ?_⟩
    rcases low.eq_or_lt with rfl | positive
    · simp [Magnitude.rounded_zero]
    · have positive' : (0 : ℚ) < count := by exact_mod_cast positive
      have place := @Magnitude.power_exponentAt_le (count / 10) (by linarith)
      have error := Magnitude.rounded_error ((count : ℚ) / 10)
      have tiny : (2 : ℚ) ^ (-1074 : ℤ) ≤ 2 ^ (-10 : ℤ) := zpow_le_zpow_right₀ (by norm_num) (by norm_num)
      have small : (2 : ℚ) ^ (-10 : ℤ) = 1 / 1024 := by norm_num
      have most : (2 : ℚ) ^ Magnitude.exponentAt (count / 10) ≤ 1 / 1024 := by
        rcases le_max_iff.mp place with relative | absolute
        · linarith
        · exact absolute.trans (tiny.trans_eq small)
      exact error.trans (by linarith only [most])
  obtain ⟨first, near⟩ := rounded left nonneg most
  obtain ⟨second, near'⟩ := rounded right nonneg' most'
  rw [first, second, Extended.finite.injEq] at same
  rw [same, abs_le] at near
  rw [abs_le] at near'
  have below : (left : ℚ) < right + 1 := by linarith
  have above : (right : ℚ) < left + 1 := by linarith
  have below' : left < right + 1 := by exact_mod_cast below
  have above' : right < left + 1 := by exact_mod_cast above
  omega

/-- The least notional that earns the points of so many liquidations, of which the score counts five. -/
def leastNotional : ℕ → ℚ
  | 0 => 0
  | 1 => Magnitude.rounded 0.975
  | 2 => Magnitude.rounded 1.975
  | 3 => Magnitude.rounded 2.9750000000000005
  | 4 => Magnitude.rounded 3.975
  | _ => Magnitude.rounded 4.9750000000000005

/-- The greatest one, if there is one. -/
def greatestNotional : ℕ → Option ℚ
  | 0 => some 0
  | 1 => some (Magnitude.rounded 1.025)
  | 2 => some (Magnitude.rounded 2.025)
  | 3 => some (Magnitude.rounded 3.025)
  | 4 => some (Magnitude.rounded 4.0249999999999995)
  | _ => none

/-- Whether a notional earns the points of so many liquidations. -/
def EarnsAs (count : ℕ) (notional : ℚ) : Prop :=
  leastNotional count ≤ notional ∧ ∀ most ∈ greatestNotional count, notional ≤ most

instance (count : ℕ) (notional : ℚ) : Decidable (EarnsAs count notional) := inferInstanceAs (Decidable (_ ∧ _))

/-- Two neighbouring floats tell from where on a value has so many tenths. -/
theorem le_tenthsOf_iff {tenths count exponent : ℤ} (isDouble : IsDouble value) (nonneg : 0 ≤ value)
    (full : 2 ^ 52 ≤ count) (less : tenthsOf (count * 2 ^ exponent) < tenths)
    (reached : tenths ≤ tenthsOf (((count + 1 : ℤ) : ℚ) * 2 ^ exponent)) :
    tenths ≤ tenthsOf value ↔ ((count + 1 : ℤ) : ℚ) * 2 ^ exponent ≤ value := by
  constructor
  · intro enough
    by_contra short
    have below := Magnitude.fits_le_of_lt ((isDouble_iff nonneg).mp isDouble).1 full (not_le.mp short)
    have fewer := tenthsOf_mono nonneg below
    omega
  · intro enough
    have positive : (0 : ℚ) ≤ ((count + 1 : ℤ) : ℚ) * 2 ^ exponent := by
      have counted : 0 ≤ count + 1 := by linarith
      exact mul_nonneg (by exact_mod_cast counted) (zpow_pos (by norm_num) _).le
    exact reached.trans (tenthsOf_mono positive enough)

/-- Where both bounds have neighbours with other points, a value has the points of a count exactly between them. -/
theorem earnsAs_iff {count : ℕ} (isDouble : IsDouble value) (nonneg : 0 ≤ value)
    (tenths low place high place' : ℤ) (own : tenthsOf count = tenths)
    (least : leastNotional count = ((low + 1 : ℤ) : ℚ) * 2 ^ place)
    (most : greatestNotional count = some ((high : ℚ) * 2 ^ place')) (full : 2 ^ 52 ≤ low) (full' : 2 ^ 52 ≤ high)
    (less : tenthsOf (low * 2 ^ place) < tenths) (reached : tenths ≤ tenthsOf (((low + 1 : ℤ) : ℚ) * 2 ^ place))
    (within : tenthsOf (high * 2 ^ place') < tenths + 1)
    (beyond : tenths + 1 ≤ tenthsOf (((high + 1 : ℤ) : ℚ) * 2 ^ place')) :
    tenthsOf value = tenthsOf count ↔ EarnsAs count value := by
  have lower := le_tenthsOf_iff isDouble nonneg full less reached
  have upper := le_tenthsOf_iff isDouble nonneg full' within beyond
  have unit : (0 : ℚ) < 2 ^ place' := zpow_pos (by norm_num) _
  have next : value < ((high + 1 : ℤ) : ℚ) * 2 ^ place' ↔ value ≤ high * 2 ^ place' := by
    refine ⟨Magnitude.fits_le_of_lt ((isDouble_iff nonneg).mp isDouble).1 full', fun short => short.trans_lt ?_⟩
    refine mul_lt_mul_of_pos_right ?_ unit
    exact_mod_cast Int.lt_succ high
  rw [EarnsAs, least, most, own]
  simp only [Option.mem_some_iff, forall_eq']
  rw [← next, ← lower, ← not_le, ← upper]
  omega

/-- A notional has the points of so many liquidations exactly between the bounds. -/
theorem pointsFor_eq_iff {count : ℕ} (some_ : 1 ≤ count) (isDouble : IsDouble value) (nonneg : 0 ≤ value) :
    pointsFor value = pointsFor count ↔ EarnsAs count value := by
  have tenths : pointsFor value = pointsFor count ↔ tenthsOf value = tenthsOf count := by
    obtain ⟨low, high⟩ := tenthsOf_bounds nonneg
    obtain ⟨low', high'⟩ := @tenthsOf_bounds count (Nat.cast_nonneg _)
    rw [pointsFor_eq nonneg, pointsFor_eq (Nat.cast_nonneg _)]
    refine ⟨round_tenths_inj low high low' high', fun same => by rw [same]⟩
  rw [tenths]
  -- Each bound is a float whose neighbour has other points.
  match count, some_ with
  | 1, _ =>
    exact earnsAs_iff isDouble nonneg 20 8782019273372466 (-53) 4616189618054758 (-52) (by decide +kernel)
      (by decide +kernel) (by decide +kernel) (by norm_num) (by norm_num) (by decide +kernel) (by decide +kernel)
      (by decide +kernel) (by decide +kernel)
  | 2, _ =>
    exact earnsAs_iff isDouble nonneg 40 8894609264056729 (-52) 4559894622712627 (-51) (by decide +kernel)
      (by decide +kernel) (by decide +kernel) (by norm_num) (by norm_num) (by decide +kernel) (by decide +kernel)
      (by decide +kernel) (by decide +kernel)
  | 3, _ =>
    exact earnsAs_iff isDouble nonneg 60 6699104445713613 (-51) 6811694436397875 (-51) (by decide +kernel)
      (by decide +kernel) (by decide +kernel) (by norm_num) (by norm_num) (by decide +kernel) (by decide +kernel)
      (by decide +kernel) (by decide +kernel)
  | 4, _ =>
    exact earnsAs_iff isDouble nonneg 80 8950904259398860 (-51) 4531747125041561 (-50) (by decide +kernel)
      (by decide +kernel) (by decide +kernel) (by norm_num) (by norm_num) (by decide +kernel) (by decide +kernel)
      (by decide +kernel) (by decide +kernel)
  | more + 5, _ =>
    -- From five on there are no more points to earn.
    have own : tenthsOf ((more + 5 : ℕ) : ℚ) = 100 := by
      have five : tenthsOf 5 = 100 := by decide +kernel
      have capped : min ((more + 5 : ℕ) : ℚ) 5 = min 5 5 := by
        rw [min_self]
        exact min_eq_right (by push_cast; linarith [(Nat.cast_nonneg more : (0 : ℚ) ≤ more)])
      rw [← five]
      unfold tenthsOf
      rw [capped]
    have least : leastNotional (more + 5) = ((5601352036542054 + 1 : ℤ) : ℚ) * 2 ^ (-50 : ℤ) := by
      show Magnitude.rounded 4.9750000000000005 = _
      decide +kernel
    have lower : (100 : ℤ) ≤ tenthsOf value ↔ ((5601352036542054 + 1 : ℤ) : ℚ) * 2 ^ (-50 : ℤ) ≤ value :=
      le_tenthsOf_iff isDouble nonneg (by norm_num) (by decide +kernel) (by decide +kernel)
    have high := (tenthsOf_bounds nonneg).2
    have none_ : greatestNotional (more + 5) = none := rfl
    rw [own, EarnsAs, least, none_, ← lower]
    simp only [Option.not_mem_none, false_imp_iff, implies_true, and_true]
    omega

section Points

variable {text} {parseInt} {client : LiquidationClient} {messages : List (ForceMessage text)} {symbol : String}

/-- The points of the liquidations in the score. -/
def liquidationPoints (zones : List LiquidityZone) (futures : FuturesTable) (symbol : String) : Extended :=
  (liquidityScore zones (futures.context symbol)).liquidation.points

/-- An event that is not older than any other one. -/
def NewestEvent (event : LiquidationEvent) (events : List LiquidationEvent) : Prop :=
  event ∈ events ∧ ∀ other ∈ events, other.eventTime ≤ event.eventTime

theorem history_ordered (futures : FuturesTable) (symbol type : String) :
    (futures.history symbol type).Pairwise fun one other => one.eventTime ≤ other.eventTime := by
  have total : Std.Total fun one other : FuturesRecord => one.eventTime ≤ other.eventTime :=
    ⟨fun one other => le_total one.eventTime other.eventTime⟩
  have transitive : IsTrans FuturesRecord fun one other => one.eventTime ≤ other.eventTime := ⟨fun _ _ _ => le_trans⟩
  exact List.pairwise_insertionSort _ _

variable (parseInt) in
/-- With all events in different seconds, the newest record is that of the newest event. -/
theorem newest_record (clear : NoneStored client.futures symbol)
    (distinct : ((kept messages symbol).map LiquidationEvent.eventTime).Nodup)
    (newest : NewestEvent event (kept messages symbol)) :
    ∃ fetchedAt, ((storedAfter text parseInt client messages).context symbol).liquidation =
      some (event.record fetchedAt) := by
  obtain ⟨among, greatest⟩ := newest
  obtain ⟨found, found_listed, found_time⟩ := kept_is_stored parseInt client among
  rw [context_liquidation]
  cases last : ((storedAfter text parseInt client messages).history symbol "liquidation").getLast? with
  | none =>
    rw [List.getLast?_eq_none_iff] at last
    rw [last] at found_listed
    cases found_listed
  | some record =>
    obtain ⟨pair, inside, rfl⟩ := stored_is_kept clear (List.mem_of_getLast? last)
    have pair_kept : pair.1 ∈ kept messages symbol := List.mem_map_of_mem inside
    have below := greatest pair.1 pair_kept
    -- The history ascends by the times of the events.
    have above : found.eventTime ≤ pair.1.eventTime :=
      key_le_last (history_ordered (storedAfter text parseInt client messages) symbol "liquidation") last
        found found_listed
    have same : pair.1 = event :=
      List.inj_on_of_nodup_map distinct pair_kept among (by omega)
    exact ⟨pair.2, by rw [← same]; rfl⟩

/-- The points are those for the number of the events exactly when the newest one is worth what earns them. -/
theorem points_iff (clear : NoneStored client.futures symbol)
    (distinct : ((kept messages symbol).map LiquidationEvent.eventTime).Nodup) (zones : List LiquidityZone) :
    liquidationPoints zones (storedAfter text parseInt client messages) symbol =
        pointsFor (kept messages symbol).length ↔
      ∀ event, NewestEvent event (kept messages symbol) →
        EarnsAs (kept messages symbol).length event.notional := by
  have points (event : LiquidationEvent) (newest : NewestEvent event (kept messages symbol)) :
      liquidationPoints zones (storedAfter text parseInt client messages) symbol =
        pointsFor event.notional := by
    obtain ⟨fetchedAt, latest⟩ := newest_record parseInt clear distinct newest
    unfold liquidationPoints liquidityScore
    dsimp only
    rw [latest]
    rfl
  have earned (event : LiquidationEvent) (newest : NewestEvent event (kept messages symbol)) :
      pointsFor event.notional = pointsFor (kept messages symbol).length ↔
        EarnsAs (kept messages symbol).length event.notional := by
    have worth := kept_pos event newest.1
    exact pointsFor_eq_iff (List.length_pos_of_mem newest.1) (isDouble_value worth) worth.le
  constructor
  · intro same event newest
    rw [points event newest] at same
    exact (earned event newest).mp same
  · intro near
    -- Without an event both sides are zero; otherwise there is a newest one.
    by_cases none_kept : kept messages symbol = []
    · have none_stored : (storedAfter text parseInt client messages).history symbol "liquidation" = [] := by
        rw [← List.length_eq_zero_iff, stored_length parseInt clear distinct, none_kept]
        rfl
      have nothing : liquidationPoints zones (storedAfter text parseInt client messages) symbol = .finite 0 := by
        unfold liquidationPoints liquidityScore
        dsimp only
        rw [context_liquidation, none_stored]
        rfl
      rw [nothing, none_kept]
      decide +kernel
    · obtain ⟨event, among, greatest⟩ := (kept messages symbol).toFinset.exists_max_image LiquidationEvent.eventTime
        (List.toFinset_nonempty_iff _ |>.mpr none_kept)
      have newest : NewestEvent event (kept messages symbol) :=
        ⟨List.mem_toFinset.mp among, fun other listed => greatest other (List.mem_toFinset.mpr listed)⟩
      rw [points event newest]
      exact (earned event newest).mpr (near event newest)

end Points

/-- After some well-formed messages, the liquidations that are read of a symbol have the values of all events that were
received, and the liquidations count for the number of the events, exactly when no event is lost to a failed write, no
two are of one second, all of them are read, and the newest one is worth what earns the points of their number. -/
theorem liquidations_counted_iff (text : Text) (parseInt : String → Option ℤ) (client : LiquidationClient)
    (messages : List (ForceMessage text)) (symbol : String) (limit : ℕ) (zones : List LiquidityZone)
    (clear : NoneStored client.futures symbol) :
    (((storedAfter text parseInt client messages).series symbol "liquidation" limit).map recordValue).sum =
          ((received messages symbol).map LiquidationEvent.notional).sum ∧
        liquidationPoints zones (storedAfter text parseInt client messages) symbol =
          pointsFor (received messages symbol).length ↔
      (∀ message ∈ messages, message.failed = true → ∀ event ∈ message.events, event.symbol ≠ symbol) ∧
        ((received messages symbol).map LiquidationEvent.eventTime).Nodup ∧
        (received messages symbol).length ≤ limit ∧
        ∀ event, NewestEvent event (received messages symbol) →
          EarnsAs (received messages symbol).length event.notional := by
  rw [series_total_iff clear limit]
  constructor
  · rintro ⟨⟨stored, distinct, read⟩, points⟩
    have all := (kept_received messages symbol).2.mpr stored
    rw [← all] at distinct points
    have near := (points_iff clear distinct zones).mp points
    rw [all] at near distinct
    exact ⟨stored, distinct, read, near⟩
  · rintro ⟨stored, distinct, read, near⟩
    refine ⟨⟨stored, distinct, read⟩, ?_⟩
    have all := (kept_received messages symbol).2.mpr stored
    rw [← all] at distinct near ⊢
    exact (points_iff clear distinct zones).mpr near

/-- The number texts of the orders below. -/
def orderText : Text where
  float value := toString value.num ++ ".0"
  fixed8 value := toString value.num ++ ".00000000"
  repr s := "'" ++ s ++ "'"
  parseFloat value :=
    if value = "0.5" then some (some (1 / 2))
    else if value = "2.0" then some (some 2)
    else if value = "90000.0" then some (some 90000)
    else none
  isAlnum := Char.isAlphanum
  sha1Hex _ := "13fbd79c3d390e5d6585a21e11ff5ec1970cff0c"

/-- An order as the exchange writes it. -/
def orderJson (symbol price qty : String) (stamp : ℤ) : Json :=
  .object [("e", .text "forceOrder"), ("E", .int stamp), ("o", .object [("s", .text symbol), ("S", .text "SELL"),
    ("o", .text "LIMIT"), ("q", .text qty), ("p", .text price), ("T", .int stamp)])]

/-- A message with one such order. -/
def orderMessage (priceText : String) (price : ℚ) (stamp : ℤ) (later : stamp ≠ 0)
    (read : orderText.parseFloat priceText = some (some price)) (positive : 0 < price)
    (worth : 0 < (Extended.round (price * (1 / 2))).value) : ForceMessage orderText where
  data := orderJson "BTCUSDT" priceText "0.5" stamp
  events := [⟨"BTCUSDT", "SELL", price, 1 / 2, toEpochSeconds stamp⟩]
  carries := by
    apply Carries.one
    · rfl
    · apply ForceOrder.order rfl rfl later rfl rfl rfl rfl
      · show (orderText.parseFloat priceText).bind id = some price
        rw [read]
        rfl
      · rfl
      · show (orderText.parseFloat "0.5").bind id = some (1 / 2)
        decide +kernel
      · exact positive
      · show (0 : ℚ) < 1 / 2
        norm_num
      · exact worth

/-- A liquidation of 45000 at some time. -/
def largeMessage (stamp : ℤ) (later : stamp ≠ 0) : ForceMessage orderText :=
  orderMessage "90000.0" 90000 stamp later (by decide +kernel) (by norm_num) (by decide +kernel)

/-- A liquidation of one. -/
def smallMessage : ForceMessage orderText :=
  orderMessage "2.0" 2 1700000000000 (by decide) (by decide +kernel) (by norm_num) (by decide +kernel)

/-- One small liquidation is counted as it is. -/
theorem small_counted :
    (((storedAfter orderText (fun _ => none) {} [smallMessage]).series "BTCUSDT" "liquidation" 20).map
        recordValue).sum =
          ((received [smallMessage] "BTCUSDT").map LiquidationEvent.notional).sum ∧
        liquidationPoints [] (storedAfter orderText (fun _ => none) {} [smallMessage]) "BTCUSDT" =
          pointsFor (received [smallMessage] "BTCUSDT").length := by
  apply (liquidations_counted_iff orderText (fun _ => none) {} [smallMessage] "BTCUSDT" 20 []
    (List.forall_mem_nil _)).mpr
  have one : received [smallMessage] "BTCUSDT" = [⟨"BTCUSDT", "SELL", 2, 1 / 2, 1700000000⟩] := by decide +kernel
  rw [one]
  refine ⟨?_, by decide, by decide, ?_⟩
  · intro message listed failed
    rw [List.mem_singleton] at listed
    rw [listed] at failed
    cases failed
  · intro event newest
    have same := List.mem_singleton.mp newest.1
    rw [same]
    decide +kernel

/-- Of two liquidations in one second one is lost, and one liquidation of 45000 counts like five. -/
theorem same_second_lost :
    (((storedAfter orderText (fun _ => none) {}
        [largeMessage 1700000000100 (by decide), largeMessage 1700000000900 (by decide)]).series
          "BTCUSDT" "liquidation" 20).map recordValue).sum = 45000 ∧
      ((received [largeMessage 1700000000100 (by decide), largeMessage 1700000000900 (by decide)] "BTCUSDT").map
        LiquidationEvent.notional).sum = 90000 ∧
      liquidationPoints []
          (storedAfter orderText (fun _ => none) {} [largeMessage 1700000000100 (by decide)]) "BTCUSDT" =
        .finite 10 ∧
      pointsFor (received [largeMessage 1700000000100 (by decide)] "BTCUSDT").length = .finite 2 := by
  refine ⟨?_, ?_, ?_, ?_⟩ <;> decide +kernel

end Rasat
