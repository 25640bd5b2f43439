import Mathlib.Data.List.MinMax
import Mathlib.Data.Prod.Lex
import RasatTrading.Validity.Periods

/-! The immutable tables of the price-action analyses: what one `_store_payload` writes. -/

namespace Rasat

open Validity

variable {π : Type}

/-- The pair of a symbol and a timeframe, both as their columns hold them. -/
structure Pair where
  symbol : String
  timeframe : String
  deriving DecidableEq, Repr

/-- One row of `market_structure`, `liquidity_zones` or `order_blocks`; the payload is what
`json.dumps` made of it. -/
structure PayloadRow (π : Type) where
  id : ℕ
  pair : Pair
  algoVersion : String
  effectiveFrom : ℤ
  effectiveTo : Option ℤ
  payload : π
  createdAt : ℤ
  deriving DecidableEq, Repr

/-- The validity interval that a row stores. -/
def PayloadRow.period (row : PayloadRow π) : Period ℤ := ⟨row.effectiveFrom, row.effectiveTo⟩

/-- A table with the highest number that AUTOINCREMENT has given out. -/
structure PayloadTable (π : Type) where
  rows : List (PayloadRow π)
  sequence : ℕ

/-- The arguments of one `_store_payload` and the clock reading of its transaction. -/
structure StoreCall (π : Type) where
  pair : Pair
  algoVersion : String
  effectiveFrom : ℤ
  payload : π
  now : ℤ

namespace PayloadTable

/-- The table as the first migration creates it. -/
def empty : PayloadTable π := ⟨[], 0⟩

/-- The rows of a pair. -/
def ofPair (table : PayloadTable π) (pair : Pair) : List (PayloadRow π) :=
  table.rows.filter fun row => row.pair = pair

/-- The newest revision of a bar. -/
def sameBar (table : PayloadTable π) (pair : Pair) (effectiveFrom : ℤ) : Option (PayloadRow π) :=
  ((table.ofPair pair).filter fun row => row.effectiveFrom = effectiveFrom).argmax PayloadRow.id

/-- The open row of a pair, the latest one if there were several. -/
def openRow (table : PayloadTable π) (pair : Pair) : Option (PayloadRow π) :=
  @List.argmax (PayloadRow π) (ℤ ×ₗ ℕ) (Prod.Lex.instLinearOrder ℤ ℕ).toPreorder _
    (fun row => toLex (row.effectiveFrom, row.id))
    ((table.ofPair pair).filter fun row => row.effectiveTo = none)

/-- The first bar of a pair after a time. -/
def nextBar (table : PayloadTable π) (pair : Pair) (time : ℤ) : Option ℤ :=
  (@List.argmin (PayloadRow π) ℤ Int.instLinearOrder.toPreorder _ PayloadRow.effectiveFrom
    ((table.ofPair pair).filter fun row => time < row.effectiveFrom)).map PayloadRow.effectiveFrom

/-- Set the end of the row with a number. -/
def close (table : PayloadTable π) (id : ℕ) (effectiveTo : ℤ) : PayloadTable π where
  rows := table.rows.map fun row =>
    if row.id = id then { row with effectiveTo := some effectiveTo } else row
  sequence := table.sequence

/-- The row that a call inserts under a number. -/
def newRow (call : StoreCall π) (id : ℕ) (effectiveTo : Option ℤ) : PayloadRow π where
  id := id
  pair := call.pair
  algoVersion := call.algoVersion
  effectiveFrom := call.effectiveFrom
  effectiveTo := effectiveTo
  payload := call.payload
  createdAt := call.now

/-- Insert the row of a call. -/
def insert (table : PayloadTable π) (call : StoreCall π) (effectiveTo : Option ℤ) :
    PayloadTable π where
  rows := table.rows ++ [newRow call (table.sequence + 1) effectiveTo]
  sequence := table.sequence + 1

variable [DecidableEq π]

/-- `_store_payload`. -/
def storePayload (table : PayloadTable π) (call : StoreCall π) : PayloadTable π :=
  match table.sameBar call.pair call.effectiveFrom with
  | some row =>
    -- The same version and payload again is no new revision.
    if row.algoVersion = call.algoVersion ∧ row.payload = call.payload then table
    else
      match row.effectiveTo with
      | none => (table.close row.id call.effectiveFrom).insert call none
      | some effectiveTo => table.insert call (some effectiveTo)
  | none =>
    match table.openRow call.pair with
    | none => table.insert call none
    | some row =>
      if call.effectiveFrom > row.effectiveFrom then
        (table.close row.id (call.effectiveFrom - 1)).insert call none
      else
        -- A backfilled bar ends before the next one and leaves the open row alone.
        match table.nextBar call.pair call.effectiveFrom with
        | some next => table.insert call (some (next - 1))
        | none => table.insert call (some (row.effectiveFrom - 1))

/-- A sequence of calls. -/
def storeAll (table : PayloadTable π) (calls : List (StoreCall π)) : PayloadTable π :=
  calls.foldl storePayload table

end PayloadTable

end Rasat
