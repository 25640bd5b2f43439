import Mathlib.Algebra.Order.Round
import Mathlib.Data.Rat.Floor
import Mathlib.Tactic.Linarith
import RasatTrading.Errors

/-! Epoch seconds, and the clock that follows the exchange's server time. -/

namespace Rasat

/-- Values from here on are milliseconds. -/
def msThreshold : ℤ := 100000000000

/-- A time of the exchange in seconds; a value that is in seconds already stays as it is. -/
def toEpochSeconds (ts : ℤ) : ℤ := if msThreshold ≤ ts then ts / 1000 else ts

/-- `int` of a number: the part before the decimal point. -/
def truncated (value : ℚ) : ℤ := if 0 ≤ value then ⌊value⌋ else ⌈value⌉

/-- The clock with the offset between the server's time and the host's. -/
structure BinanceClock where
  maxOffsetAge : ℚ := 300
  maxOffset : ℚ := 3600
  offset : Option ℚ := none
  syncedAt : ℚ := 0
  deriving DecidableEq, Repr

namespace BinanceClock

/--
Take over an answer of the time endpoint, with the host's times at both readings.

The server time is absent when the request raised or when its field is missing.
-/
def sync (clock : BinanceClock) (serverTime : Option ℤ) (now after : ℚ) : Bool × BinanceClock :=
  match serverTime with
  | none => (false, clock)
  | some serverMs =>
    if serverMs = 0 then (false, clock)
    else
      let offset := (toEpochSeconds serverMs : ℚ) - now
      -- A host clock that is far off makes the clock unavailable.
      if clock.maxOffset < |offset| then (false, { clock with offset := none })
      else (true, { clock with offset := some offset, syncedAt := after })

/-- The server's time, from two readings of the host clock: one checks the age of the offset. -/
def serverNow (clock : BinanceClock) (checked now : ℚ) : Option ℚ :=
  match clock.offset with
  | none => none
  | some offset =>
    if clock.maxOffsetAge < checked - clock.syncedAt then none else some (now + offset)

/-- A clock gives a time exactly with an offset that is not too old. -/
theorem serverNow_eq_some {clock : BinanceClock} {checked now reading : ℚ} :
    clock.serverNow checked now = some reading ↔
      ∃ offset, clock.offset = some offset ∧ checked - clock.syncedAt ≤ clock.maxOffsetAge ∧
        reading = now + offset := by
  unfold serverNow
  cases held : clock.offset with
  | none => simp
  | some offset =>
    by_cases old : clock.maxOffsetAge < checked - clock.syncedAt
    · simp only [if_pos old, reduceCtorEq, Option.some.injEq, exists_eq_left', not_le.mpr old,
        false_and]
    · simp only [if_neg old, Option.some.injEq, exists_eq_left', not_lt.mp old, true_and, eq_comm]

end BinanceClock

end Rasat
