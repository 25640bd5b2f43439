import Mathlib.Data.Rat.Defs
import RasatTrading.Json
import RasatTrading.Keyed.Table

/-! The ticker cache of the market-wide stream, and the price that orders are sized with. -/

namespace Rasat

/-- The freshness that a market answer carries. -/
inductive Freshness
  | fresh | stale
  deriving DecidableEq, Repr

/-- One item of the ticker stream. -/
structure TickerUpdate where
  symbol : String
  last : ℚ
  open24h : ℚ
  high24h : ℚ
  low24h : ℚ
  volume : ℚ
  quoteVolume : ℚ
  priceChangePct : ℚ
  eventTime : ℚ
  deriving DecidableEq, Repr

/-- One item of a message; absent when a key is missing or a conversion raises. -/
def parseTickerItem (text : Text) : Json → Option TickerUpdate
  | .object fields => do
    let close ← (← fields.lookup "c").toFloat text
    let open24h ← (← fields.lookup "o").toFloat text
    -- The stream of all tickers has no price change, so it is computed from the prices.
    let priceChangePct ← match Json.get fields "P" with
      | .null => some (if open24h = 0 then 0 else (close - open24h) / open24h * 100)
      | pct => pct.toFloat text
    let symbol := (← fields.lookup "s").str text
    let high24h ← (← fields.lookup "h").toFloat text
    let low24h ← (← fields.lookup "l").toFloat text
    let volume ← (← fields.lookup "v").toFloat text
    let quoteVolume ← (← fields.lookup "q").toFloat text
    let eventMs ← ((fields.lookup "E").getD (.int 0)).toFloat text
    pure ⟨symbol, close, open24h, high24h, low24h, volume, quoteVolume, priceChangePct,
      eventMs / 1000⟩
  | _ => none

/-- The updates of a message, plain or wrapped by the combined stream; absent when it is no JSON. -/
def parseMiniTickerArr (text : Text) : Option Json → List TickerUpdate
  | some (.array items) => items.filterMap (parseTickerItem text)
  | some (.object fields) =>
    match (fields.lookup "data").getD (.array []) with
    | .array items => items.filterMap (parseTickerItem text)
    | _ => []
  | _ => []

/-- Whether the stream is connected, and if not, why. -/
inductive StreamStatus
  | disconnected (reason : Option String)
  | connected
  deriving DecidableEq, Repr

/-- The latest update of each symbol, with the health of the whole stream. -/
structure TickerCache where
  staleAfter : ℚ := 30
  data : Keyed.Table TickerUpdate.symbol := .empty
  lastMessageAt : ℚ := 0
  status : StreamStatus := .disconnected none

/-- What a read of the cache returns. -/
structure TickerView where
  update : TickerUpdate
  freshness : Freshness
  deriving DecidableEq, Repr

namespace TickerCache

/-- The connection stands, even before a message arrives. -/
def markConnected (cache : TickerCache) : TickerCache := { cache with status := .connected }

/-- The connection was lost or stalled. -/
def markStale (cache : TickerCache) (reason : String) : TickerCache :=
  { cache with status := .disconnected (some reason) }

/-- Take over the updates of one message. -/
def applyUpdates (cache : TickerCache) (updates : List TickerUpdate) (now : ℚ) : TickerCache :=
  let filled := { cache with data := cache.data.upsertAll updates }
  -- A message without updates leaves the health of the stream alone.
  if updates = [] then filled else { filled with lastMessageAt := now }.markConnected

/-- Whether the stream is connected and its last message is recent. -/
def isFresh (cache : TickerCache) (now : ℚ) : Bool :=
  cache.status = .connected ∧ now - cache.lastMessageAt ≤ cache.staleAfter

def freshnessFor (cache : TickerCache) (symbol : String) (now : ℚ) : Freshness :=
  if (cache.data.find symbol).isSome ∧ cache.isFresh now then .fresh else .stale

def get (cache : TickerCache) (symbol : String) (now : ℚ) : Option TickerView :=
  (cache.data.find symbol).map fun update => ⟨update, cache.freshnessFor symbol now⟩

/-- The price that orders are sized with: none unless the ticker is fresh. -/
def price (cache : TickerCache) (symbol : String) (now : ℚ) : Option ℚ :=
  match cache.get symbol now with
  | none => none
  | some view => if view.freshness = .fresh then some view.update.last else none

/-- A fresh view needs a connected stream with a recent message. -/
theorem get_fresh {cache : TickerCache} {symbol : String} {now : ℚ} {view : TickerView} :
    cache.get symbol now = some view ∧ view.freshness = .fresh ↔
      cache.data.find symbol = some view.update ∧ view.freshness = .fresh ∧
        cache.status = .connected ∧ now - cache.lastMessageAt ≤ cache.staleAfter := by
  obtain ⟨update, freshness⟩ := view
  unfold get
  cases found : cache.data.find symbol with
  | none => simp
  | some stored =>
    by_cases fresh : cache.isFresh now
    · -- The stream is healthy, so the view is fresh.
      have healthy := fresh
      simp only [isFresh, decide_eq_true_eq] at healthy
      simp only [freshnessFor, found, Option.isSome_some, fresh, and_self, if_true,
        Option.map_some, Option.some.injEq, TickerView.mk.injEq, healthy, and_true]
      constructor
      · rintro ⟨⟨rfl, rfl⟩, same⟩
        exact ⟨rfl, same⟩
      · rintro ⟨rfl, rfl⟩
        exact ⟨⟨rfl, rfl⟩, rfl⟩
    · have broken := fresh
      simp only [isFresh, decide_eq_true_eq] at broken
      simp only [freshnessFor, found, fresh, and_false, Bool.false_eq_true, if_false,
        Option.map_some, Option.some.injEq, TickerView.mk.injEq, broken]
      -- The view says stale, against what is asked of it.
      constructor
      · intro seen
        obtain ⟨⟨-, rfl⟩, same⟩ := seen
        cases same
      · exact False.elim

end TickerCache

/-- What can happen to the cache, with the host's time of a message. -/
inductive TickerEvent
  | updates (batch : List TickerUpdate) (at_ : ℚ)
  | connected
  | stale (reason : String)
  deriving DecidableEq, Repr

/-- The cache after one event. -/
def TickerCache.after (cache : TickerCache) : TickerEvent → TickerCache
  | .updates batch at_ => cache.applyUpdates batch at_
  | .connected => cache.markConnected
  | .stale reason => cache.markStale reason

/-- A new cache after a history of events, oldest first. -/
def cacheAfter (staleAfter : ℚ) (history : List TickerEvent) : TickerCache :=
  history.foldl TickerCache.after { staleAfter := staleAfter }

@[simp] theorem cacheAfter_snoc (staleAfter : ℚ) (history : List TickerEvent) (event : TickerEvent) :
    cacheAfter staleAfter (history ++ [event]) = (cacheAfter staleAfter history).after event := by
  simp [cacheAfter]

end Rasat
