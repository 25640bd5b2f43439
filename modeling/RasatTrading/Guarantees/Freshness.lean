import RasatTrading.Data.Ticker

/-! What a fresh ticker stands for: the health of the stream and the latest update of its symbol. -/

namespace Rasat

variable {staleAfter now : ℚ} {history : List TickerEvent} {symbol : String}

/-- The updates that an event brings. -/
def TickerEvent.brings : TickerEvent → List TickerUpdate
  | .updates batch _ => batch
  | .connected | .stale _ => []

/-- The event is a loss of the connection or a stall. -/
def TickerEvent.IsStale : TickerEvent → Prop
  | .stale _ => True
  | .updates _ _ | .connected => False

/-- The event marks the stream as connected. -/
def TickerEvent.Connects : TickerEvent → Prop
  | .updates batch _ => batch ≠ []
  | .connected => True
  | .stale _ => False

/-- The latest update that the history holds for a symbol. -/
def LatestUpdate (history : List TickerEvent) (symbol : String) (update : TickerUpdate) : Prop :=
  ∃ before after, history.flatMap TickerEvent.brings = before ++ update :: after ∧
    update.symbol = symbol ∧ ∀ later ∈ after, later.symbol ≠ symbol

/-- The last message that brought any updates arrived at this time. -/
def LastMessage (history : List TickerEvent) (at_ : ℚ) : Prop :=
  ∃ before batch after, history = before ++ .updates batch at_ :: after ∧ batch ≠ [] ∧
    ∀ later ∈ after, later.brings = []

/-- The stream was marked as connected after its last loss. -/
def Standing (history : List TickerEvent) : Prop :=
  ∃ before event after, history = before ++ event :: after ∧ event.Connects ∧
    ∀ later ∈ after, ¬later.IsStale

/-- The cache holds every update of the history, the last one under each symbol. -/
theorem cacheAfter_data (staleAfter : ℚ) (history : List TickerEvent) :
    (cacheAfter staleAfter history).data =
      Keyed.Table.empty.upsertAll (history.flatMap TickerEvent.brings) := by
  -- The induction adds the newest event at the end.
  induction history using List.reverseRecOn with
  | nil => rfl
  | append_singleton earlier event ih =>
    rw [cacheAfter_snoc, List.flatMap_append, Keyed.Table.upsertAll, List.foldl_append]
    unfold Keyed.Table.upsertAll at ih
    rw [← ih]
    cases event with
    | updates batch at_ =>
      by_cases none : batch = []
      · simp [TickerCache.after, TickerCache.applyUpdates, none, TickerEvent.brings,
          Keyed.Table.upsertAll]
      · simp [TickerCache.after, TickerCache.applyUpdates, none, TickerEvent.brings,
          Keyed.Table.upsertAll, TickerCache.markConnected]
    | connected => rfl
    | stale reason => rfl

/-- No event changes the configured limit. -/
theorem cacheAfter_staleAfter (staleAfter : ℚ) (history : List TickerEvent) :
    (cacheAfter staleAfter history).staleAfter = staleAfter := by
  induction history using List.reverseRecOn with
  | nil => rfl
  | append_singleton earlier event ih =>
    rw [cacheAfter_snoc]
    cases event with
    | updates batch at_ =>
      by_cases none : batch = []
      · simpa [TickerCache.after, TickerCache.applyUpdates, none] using ih
      · simpa [TickerCache.after, TickerCache.applyUpdates, none,
          TickerCache.markConnected] using ih
    | connected => exact ih
    | stale reason => exact ih

/-- A symbol in the cache shows its latest update. -/
theorem latestUpdate_of_find {update : TickerUpdate}
    (found : (cacheAfter staleAfter history).data.find symbol = some update) :
    LatestUpdate history symbol update := by
  rw [cacheAfter_data, Keyed.Table.find_upsertAll] at found
  -- An empty table knows no symbol, so the update is among those of the history.
  have listed : (history.flatMap TickerEvent.brings).reverse.find?
      (fun row => decide (row.symbol = symbol)) = some update := by
    cases located : (history.flatMap TickerEvent.brings).reverse.find?
        (fun row => decide (row.symbol = symbol)) with
    | none => simp [located, Keyed.Table.find, Keyed.Table.empty] at found
    | some other => simpa [located] using found
  obtain ⟨named, later, earlier, shape, others⟩ := List.find?_eq_some_iff_append.mp listed
  refine ⟨earlier.reverse, later.reverse, ?_, by simpa using named, ?_⟩
  · have turned := congrArg List.reverse shape
    simpa using turned
  · intro other member
    simpa using others other (List.mem_reverse.mp member)

/-- The time of the last message is the one that the cache remembers. -/
theorem lastMessage_or_silent (staleAfter : ℚ) (history : List TickerEvent) :
    LastMessage history (cacheAfter staleAfter history).lastMessageAt ∨
      history.flatMap TickerEvent.brings = [] := by
  induction history using List.reverseRecOn with
  | nil => exact .inr rfl
  | append_singleton earlier event ih =>
    rw [cacheAfter_snoc]
    -- An event without updates keeps the remembered time and the message that set it.
    have quiet : event.brings = [] →
        ((cacheAfter staleAfter earlier).after event).lastMessageAt =
          (cacheAfter staleAfter earlier).lastMessageAt →
        LastMessage (earlier ++ [event])
            ((cacheAfter staleAfter earlier).after event).lastMessageAt ∨
          (earlier ++ [event]).flatMap TickerEvent.brings = [] := by
      intro silent same
      rw [same]
      rcases ih with ⟨before, batch, after, shape, filled, rest⟩ | none
      · refine .inl ⟨before, batch, after ++ [event], ?_, filled, ?_⟩
        · have joined := congrArg (fun events => events ++ [event]) shape
          simpa only [List.append_assoc, List.cons_append] using joined
        · intro later member
          rcases List.mem_append.mp member with old | new
          · exact rest later old
          · rw [List.mem_singleton.mp new]
            exact silent
      · exact .inr (by simp [List.flatMap_append, none, silent])
    cases event with
    | updates batch at_ =>
      by_cases none : batch = []
      · subst none
        exact quiet rfl rfl
      · refine .inl ⟨earlier, batch, [], ?_, none, by simp⟩
        simp [TickerCache.after, TickerCache.applyUpdates, none, TickerCache.markConnected]
    | connected => exact quiet rfl rfl
    | stale reason => exact quiet rfl rfl

/-- A connected status was set after the last loss. -/
theorem standing_of_connected
    (connected : (cacheAfter staleAfter history).status = .connected) : Standing history := by
  induction history using List.reverseRecOn with
  | nil => cases connected
  | append_singleton earlier event ih =>
    rw [cacheAfter_snoc] at connected
    -- An event that leaves the status alone is no loss either.
    have kept : ¬event.IsStale → (cacheAfter staleAfter earlier).status = .connected →
        Standing (earlier ++ [event]) := by
      intro harmless before
      obtain ⟨first, marking, rest, shape, connects, calm⟩ := ih before
      refine ⟨first, marking, rest ++ [event], ?_, connects, ?_⟩
      · rw [shape, List.append_assoc, List.cons_append]
      · intro later member
        rcases List.mem_append.mp member with old | new
        · exact calm later old
        · rw [List.mem_singleton.mp new]
          exact harmless
    cases event with
    | updates batch at_ =>
      by_cases none : batch = []
      · subst none
        exact kept id connected
      · exact ⟨earlier, .updates batch at_, [], rfl, none, by simp⟩
    | connected => exact ⟨earlier, .connected, [], rfl, trivial, by simp⟩
    | stale reason => cases connected

/--
A fresh ticker shows the latest update of its symbol, over a stream that stands and is recent.

The recent message may be about other symbols: the stream brings only tickers that changed.
-/
theorem fresh_ticker_sound {view : TickerView}
    (seen : (cacheAfter staleAfter history).get symbol now = some view) (fresh : view.freshness = .fresh) :
    LatestUpdate history symbol view.update ∧
      (∃ at_, LastMessage history at_ ∧ now - at_ ≤ staleAfter) ∧ Standing history := by
  obtain ⟨found, -, connected, recent⟩ := TickerCache.get_fresh.mp ⟨seen, fresh⟩
  have latest := latestUpdate_of_find found
  refine ⟨latest, ?_, standing_of_connected connected⟩
  -- The cache knows the symbol, so some message has brought updates.
  rcases lastMessage_or_silent staleAfter history with message | silent
  · refine ⟨_, message, ?_⟩
    rwa [cacheAfter_staleAfter] at recent
  · obtain ⟨before, after, shape, -, -⟩ := latest
    rw [silent] at shape
    simp at shape

/-- An update of one symbol at one price. -/
def quote (symbol : String) (price eventTime : ℚ) : TickerUpdate :=
  ⟨symbol, price, price, price, price, 0, 0, 0, eventTime⟩

/-- Both symbols are updated at the start, and only one of them twenty-five seconds later. -/
def quietSymbolHistory : List TickerEvent :=
  [.connected, .updates [quote "BTCUSDT" 100 1000, quote "ETHUSDT" 10 1000] 1000,
    .updates [quote "ETHUSDT" 11 1025] 1025]

/-- The ticker of the other symbol stands for its one update. -/
theorem quiet_symbol_sound :
    LatestUpdate quietSymbolHistory "BTCUSDT" (quote "BTCUSDT" 100 1000) ∧
      (∃ at_, LastMessage quietSymbolHistory at_ ∧ 1050 - at_ ≤ 30) ∧ Standing quietSymbolHistory :=
  have seen : (cacheAfter 30 quietSymbolHistory).get "BTCUSDT" 1050 =
      some ⟨quote "BTCUSDT" 100 1000, .fresh⟩ := by decide +kernel
  fresh_ticker_sound seen rfl

/-- That ticker is still fresh fifty seconds after the only update of its symbol. -/
theorem quiet_symbol_fresh :
    (cacheAfter 30 quietSymbolHistory).price "BTCUSDT" 1050 = some 100 ∧
      ¬∃ before batch at_ after, quietSymbolHistory = before ++ .updates batch at_ :: after ∧
        (∃ update ∈ batch, update.symbol = "BTCUSDT") ∧ 1050 - at_ ≤ 30 := by
  refine ⟨by decide +kernel, ?_⟩
  rintro ⟨before, batch, at_, after, shape, listed, recent⟩
  -- The only message about the symbol is the first one.
  have member : TickerEvent.updates batch at_ ∈ quietSymbolHistory := by simp [shape]
  simp only [quietSymbolHistory, List.mem_cons, reduceCtorEq, TickerEvent.updates.injEq,
    List.not_mem_nil, or_false, false_or] at member
  rcases member with ⟨rfl, rfl⟩ | ⟨rfl, rfl⟩
  · exact absurd recent (by decide +kernel)
  · exact absurd listed (by decide +kernel)

end Rasat
