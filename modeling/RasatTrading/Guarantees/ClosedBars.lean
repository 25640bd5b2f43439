import RasatTrading.Data.Candles

/-! Which answers of the exchange leave only closed bars in the candles table. -/

namespace Rasat

/-- The bar had closed when the exchange produced its answer. -/
def ClosedBy (answered : ℚ) (period : ℤ) (row : Candle) : Prop :=
  (row.openTime + period : ℚ) ≤ answered

/-- A boundary between periods lies after the row's close and is passed by the reading. -/
def BoundaryPassed (period : ℤ) (row : Candle) (reading : ℚ) : Prop :=
  ∃ count : ℤ, row.openTime + period ≤ count * period ∧ (count * period : ℚ) ≤ reading

/--
An answer leaves only bars that were closed when it was produced, exactly when no row that was
still forming then has seen a boundary pass by the clock's reading at the time of storing.
-/
theorem only_closed_bars_iff (text : Text) (parseInt : String → Option ℤ) (raw : List (List Json))
    (series : Series) (clock : BinanceClock) (answered checked now : ℚ) :
    (∀ row ∈ storeRows series (parseKlines text parseInt raw) (clock.serverNow checked now),
        ClosedBy answered series.timeframe.seconds row.candle) ↔
      ∀ reading, clock.serverNow checked now = some reading →
        ∀ row ∈ parseKlines text parseInt raw, ¬ClosedBy answered series.timeframe.seconds row →
          ¬BoundaryPassed series.timeframe.seconds row reading := by
  have positive := series.timeframe.seconds_pos
  constructor
  · -- A forming row past a boundary would be written.
    intro closed reading read row member forming passed
    have written : ⟨series, row, truncated reading⟩ ∈
        storeRows series (parseKlines text parseInt raw) (clock.serverNow checked now) :=
      mem_storeRows.mpr
        ⟨reading, read, rfl, rfl, member, (le_latestClosed_iff positive).mpr passed⟩
    exact forming (closed _ written)
  · intro safe row written
    obtain ⟨reading, read, -, -, member, cut⟩ := mem_storeRows.mp written
    by_contra forming
    exact safe reading read row.candle member forming ((le_latestClosed_iff positive).mp cut)

/-- Number texts as the sample answer uses them. -/
def sampleText : Text where
  float := fun _ => ""
  fixed8 := fun _ => ""
  repr := id
  parseFloat := fun value => if value = "100" then some (some 100) else none
  isAlnum := fun _ => true
  sha1Hex := id

/-- A bar of fifteen minutes that closes at 1700001000, as the exchange sends it. -/
def formingKline : List Json :=
  [.int 1700000100000, .text "100", .text "100", .text "100", .text "100", .text "100",
    .int 1700000999999, .text "100", .int 3, .text "100", .text "100", .text "0"]

/-- The fifteen-minute series of one spot market. -/
def btc15m : Series := ⟨"BTCUSDT", .m15, .spot⟩

/-- A clock in step with the server. -/
def steadyClock : BinanceClock := { offset := some 0, syncedAt := 1700000990 }

/-- An answer from just before the close that is stored just after it leaves a partial bar. -/
theorem late_store_keeps_partial_bar :
    ∃ row ∈ storeRows btc15m (parseKlines sampleText (fun _ => none) [formingKline])
        (steadyClock.serverNow 1700001001 1700001001),
      ¬ClosedBy 1700000999 btc15m.timeframe.seconds row.candle := by
  refine ⟨⟨btc15m, ⟨1700000100, 100, 100, 100, 100, 100, 100, 3⟩, 1700001001⟩, ?_, ?_⟩
  · decide +kernel
  · norm_num [ClosedBy, btc15m, Timeframe.seconds]

end Rasat
