import RasatTrading.Guarantees.ClosedBars

/-! How far the clock's reading is from the server's time, and which bars it lets through. -/

namespace Rasat

/-- An answer of the time endpoint, told in the server's true time: it is produced, read after some delay, and taken
over a little later. -/
structure TimeAnswer where
  produced : ℚ
  delay : ℚ
  doneAt : ℚ
  delay_nonneg : 0 ≤ delay
  read_done : produced + delay ≤ doneAt
  /-- Its milliseconds are told from seconds, as those of all times since 1973 are. -/
  recent : msThreshold ≤ ⌊produced * 1000⌋

namespace TimeAnswer

/-- `serverTime`. -/
def serverMs (answer : TimeAnswer) : ℤ := ⌊answer.produced * 1000⌋

/-- The time at which the host takes the offset. -/
def readAt (answer : TimeAnswer) : ℚ := answer.produced + answer.delay

/-- The answer in seconds is the whole seconds of the time at which it was produced. -/
theorem serverMs_seconds (answer : TimeAnswer) : toEpochSeconds answer.serverMs = ⌊answer.produced⌋ := by
  have recent : msThreshold ≤ answer.serverMs := answer.recent
  unfold toEpochSeconds
  rw [if_pos recent]
  -- To round down to milliseconds first makes no difference.
  have seconds := Int.mul_cast_floor_div_cancel_of_pos (n := 1000) (by norm_num) answer.produced
  exact_mod_cast seconds

theorem serverMs_ne_zero (answer : TimeAnswer) : answer.serverMs ≠ 0 := by
  have recent : msThreshold ≤ answer.serverMs := answer.recent
  unfold msThreshold at recent
  omega

end TimeAnswer

/-- What the host's clock shows at each time of the server. -/
abbrev HostClock := ℚ → ℚ

/-- The host's clock runs at the true rate from one time to another. -/
def RunsTrue (host : HostClock) (start stop : ℚ) : Prop :=
  ∀ first second, start ≤ first → first ≤ second → second ≤ stop → host second - host first = second - first

/-- The offset that an answer tells. -/
def TimeAnswer.offset (answer : TimeAnswer) (host : HostClock) : ℚ := (⌊answer.produced⌋ : ℚ) - host answer.readAt

/-- The clock after some calls of `sync`, with the answer of the last one that succeeded. -/
inductive ClockRun (host : HostClock) (settings : BinanceClock) : BinanceClock → Option TimeAnswer → Prop
  | start : ClockRun host settings { settings with offset := none } none
  /-- The request raises, or it has no time. -/
  | lost {clock : BinanceClock} {last : Option TimeAnswer} (run : ClockRun host settings clock last) (now after : ℚ) :
    ClockRun host settings (clock.sync none now after).2 last
  | answered {clock : BinanceClock} {last : Option TimeAnswer} (run : ClockRun host settings clock last)
    (answer : TimeAnswer) :
    ClockRun host settings (clock.sync (some answer.serverMs) (host answer.readAt) (host answer.doneAt)).2
      (if (clock.sync (some answer.serverMs) (host answer.readAt) (host answer.doneAt)).1 then some answer else last)

section Run

variable {host : HostClock} {settings clock : BinanceClock} {last : Option TimeAnswer}

/-- What a call of `sync` does with an answer. -/
theorem sync_answer (clock : BinanceClock) (answer : TimeAnswer) (host : HostClock) :
    (clock.maxOffset < |answer.offset host| ∧
        clock.sync (some answer.serverMs) (host answer.readAt) (host answer.doneAt) =
          (false, { clock with offset := none })) ∨
      (|answer.offset host| ≤ clock.maxOffset ∧
        clock.sync (some answer.serverMs) (host answer.readAt) (host answer.doneAt) =
          (true, { clock with offset := some (answer.offset host), syncedAt := host answer.doneAt })) := by
  -- The milliseconds of an answer are never zero, so only the distance can reject it.
  have taken : clock.sync (some answer.serverMs) (host answer.readAt) (host answer.doneAt) =
      if clock.maxOffset < |answer.offset host| then (false, { clock with offset := none })
      else (true, { clock with offset := some (answer.offset host), syncedAt := host answer.doneAt }) := by
    unfold BinanceClock.sync TimeAnswer.offset
    simp only [if_neg answer.serverMs_ne_zero, answer.serverMs_seconds]
  by_cases far : clock.maxOffset < |answer.offset host|
  · exact .inl ⟨far, by rw [taken, if_pos far]⟩
  · exact .inr ⟨not_lt.mp far, by rw [taken, if_neg far]⟩

/-- An offset is that of the last answer that was taken over, and it is bounded. -/
structure OffsetTold (host : HostClock) (settings clock : BinanceClock) (last : Option TimeAnswer) : Prop where
  age : clock.maxOffsetAge = settings.maxOffsetAge
  bound : clock.maxOffset = settings.maxOffset
  told : ∀ offset, clock.offset = some offset → ∃ answer, last = some answer ∧ offset = answer.offset host ∧
    |offset| ≤ settings.maxOffset ∧ clock.syncedAt = host answer.doneAt

theorem ClockRun.offsetTold (run : ClockRun host settings clock last) : OffsetTold host settings clock last := by
  induction run with
  | start => exact ⟨rfl, rfl, fun offset none_yet => nomatch none_yet⟩
  -- A lost answer leaves the offset that was there.
  | lost run now after ih => exact ih
  | @answered clock last run answer ih =>
    -- An offset that is too far drops the old one, too; a near one takes its place.
    rcases sync_answer clock answer host with ⟨-, taken⟩ | ⟨near, taken⟩
    · rw [taken]
      exact ⟨ih.age, ih.bound, fun offset dropped => nomatch dropped⟩
    · rw [taken]
      refine ⟨ih.age, ih.bound, ?_⟩
      intro offset held
      cases held
      rw [ih.bound] at near
      exact ⟨answer, rfl, rfl, near, rfl⟩

/-- A reading that is at most the true time lets only bars through that have closed. -/
theorem closedOnly_closed {rows : List Candle} {tf : Timeframe} {reading t : ℚ} (behind : reading ≤ t) :
    ∀ row ∈ closedOnly rows tf reading, (row.openTime : ℚ) + tf.seconds ≤ t := by
  intro row listed
  have cut := of_decide_eq_true (List.mem_filter.mp listed).2
  obtain ⟨count, after, before⟩ := (le_latestClosed_iff tf.seconds_pos).mp cut
  have closes : ((row.openTime + tf.seconds : ℤ) : ℚ) ≤ ((count * tf.seconds : ℤ) : ℚ) := by exact_mod_cast after
  push_cast at closes
  linarith

/-- After any calls of `sync`, with a host's clock that has run at the true rate since the last one that succeeded: a
reading is that of an offset within the bound which is not older than allowed, it is at most the true time and less than
the delay and one second behind it, and no bar that it lets through or has stored is still forming. -/
theorem clock_reading_bounds (run : ClockRun host settings clock last) {checked t reading : ℚ} (order : checked ≤ t)
    (steady : ∀ answer, last = some answer → answer.doneAt ≤ checked ∧ RunsTrue host answer.readAt t)
    (read : clock.serverNow (host checked) (host t) = some reading) :
    ∃ answer, last = some answer ∧ |answer.offset host| ≤ settings.maxOffset ∧
      checked - answer.doneAt ≤ settings.maxOffsetAge ∧ t - answer.delay - 1 < reading ∧ reading ≤ t ∧
      (∀ rows tf, ∀ row ∈ closedOnly rows tf reading, (row.openTime : ℚ) + tf.seconds ≤ t) ∧
      ∀ series rows, ∀ row ∈ storeRows series rows (clock.serverNow (host checked) (host t)),
        (row.candle.openTime : ℚ) + series.timeframe.seconds ≤ t := by
  have state := run.offsetTold
  obtain ⟨offset, held, young, rfl⟩ := BinanceClock.serverNow_eq_some.mp read
  obtain ⟨answer, same, told, near, synced⟩ := state.told offset held
  obtain ⟨done, rate⟩ := steady answer same
  have waited := answer.read_done
  have delayed := answer.delay_nonneg
  have read_done : answer.readAt ≤ answer.doneAt := waited
  -- The host has run at the true rate since, so its two readings are as far apart as the two times.
  have since_read := rate answer.readAt t (le_refl _) (by linarith) (le_refl _)
  have since_done := rate answer.doneAt checked read_done done order
  -- The reading is the whole second of the answer, moved on by the time since it was read.
  have value : host t + offset = ⌊answer.produced⌋ + (t - answer.produced - answer.delay) := by
    have placed : answer.readAt = answer.produced + answer.delay := rfl
    rw [told]
    unfold TimeAnswer.offset
    linarith
  have low := Int.floor_le answer.produced
  have high := Int.lt_floor_add_one answer.produced
  have behind : host t + offset ≤ t := by linarith
  rw [synced, state.age] at young
  rw [told] at near
  -- What the reading lags is the delay and what rounding down to the second takes off.
  refine ⟨answer, same, near, by linarith, by linarith, behind, ?_, ?_⟩
  · intro rows tf
    exact closedOnly_closed behind
  · intro series rows row written
    obtain ⟨now, now_read, -, -, listed, cut⟩ := mem_storeRows.mp written
    rw [read] at now_read
    obtain rfl := Option.some.inj now_read
    exact closedOnly_closed behind row.candle (List.mem_filter.mpr ⟨listed, decide_eq_true cut⟩)

end Run

/-- An answer of the middle of a second that is read a fifth of a second later. -/
def halfPast : TimeAnswer where
  produced := 1700000000 + 1 / 2
  delay := 1 / 5
  doneAt := 1700000001
  delay_nonneg := by norm_num
  read_done := by norm_num
  recent := by decide +kernel

/-- A host's clock that is ten minutes fast. -/
def fastHost : HostClock := fun time => time + 600

/-- The first answer, ten seconds later. -/
theorem halfPast_bounds : ∃ clock last reading, ClockRun fastHost {} clock last ∧
    clock.serverNow (fastHost 1700000010) (fastHost 1700000010) = some reading ∧
    ∃ answer, last = some answer ∧ |answer.offset fastHost| ≤ 3600 ∧ 1700000010 - answer.doneAt ≤ 300 ∧
      1700000010 - answer.delay - 1 < reading ∧ reading ≤ 1700000010 ∧
      (∀ rows tf, ∀ row ∈ closedOnly rows tf reading, (row.openTime : ℚ) + tf.seconds ≤ 1700000010) ∧
      ∀ series rows, ∀ row ∈ storeRows series rows (clock.serverNow (fastHost 1700000010) (fastHost 1700000010)),
        (row.candle.openTime : ℚ) + series.timeframe.seconds ≤ 1700000010 := by
  have run : ClockRun fastHost {} _ _ := .answered .start halfPast
  have read : ((({} : BinanceClock).sync (some halfPast.serverMs) (fastHost halfPast.readAt)
      (fastHost halfPast.doneAt)).2).serverNow (fastHost 1700000010) (fastHost 1700000010) =
        some (1700000009 + 3 / 10) := by decide +kernel
  refine ⟨_, _, _, run, read, ?_⟩
  apply clock_reading_bounds run (le_refl _) _ read
  intro answer same
  have kept : (({} : BinanceClock).sync (some halfPast.serverMs) (fastHost halfPast.readAt)
      (fastHost halfPast.doneAt)).1 = true := by decide +kernel
  obtain rfl := Option.some.inj ((if_pos kept).symm.trans same)
  refine ⟨by decide +kernel, ?_⟩
  intro first second _ _ _
  unfold fastHost
  ring

end Rasat
