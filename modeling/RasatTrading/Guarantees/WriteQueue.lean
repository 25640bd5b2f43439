import RasatTrading.Storage.WriteQueue
import Mathlib.Data.List.ReduceOption
import Mathlib.Data.List.Induction
import Mathlib.Data.List.Nodup
import Mathlib.Data.List.TakeWhile

/-! The write queue runs every accepted function once, in order and alone, and `stop` returns behind all of them. -/

namespace Rasat.WriteQueue

variable {σ α : Type}

/-! ### What a function leaves behind -/

/-- A change that a function makes last by itself, before `_run_write` ends its transaction. -/
inductive Kept (σ : Type)
  /-- A commit of its own, of these tables. -/
  | committed (tables : σ)
  /-- A statement on the schema, without a transaction. -/
  | altered (statement : σ → Except Exc σ)

/-- The committed tables behind such a change. -/
def Kept.apply (disk : σ) : Kept σ → σ
  | .committed tables => tables
  | .altered statement => (statement disk).toOption.getD disk

namespace WriteFn

/-- What a statement on the schema makes last. -/
def alters (fault : Option Exc) (statement : σ → Except Exc σ) (conn : Connection σ) : List (Kept σ) :=
  if fault.isNone && conn.pending.isNone then [.altered statement] else []

/-- What a commit makes last. -/
def commits (fault : Option Exc) (conn : Connection σ) : List (Kept σ) :=
  if fault.isNone then [.committed conn.view] else []

/-- What a run of a function makes last by itself, oldest first. -/
def kept (weather : Weather) : WriteFn σ α → ℕ → Connection σ → List (Kept σ)
  | .done _, _, _ => []
  | .raises _, _, _ => []
  | .dml statement next, tick, conn =>
    let (answer, after) := afterDml (weather tick) statement conn
    (next answer).kept weather (tick + 1) after
  | .ddl statement next, tick, conn =>
    let (answer, after) := afterDdl (weather tick) statement conn
    alters (weather tick) statement conn ++ (next answer).kept weather (tick + 1) after
  | .query next, tick, conn => (next conn.view).kept weather tick conn
  | .commit next, tick, conn =>
    let (answer, after) := afterCommit (weather tick) conn
    commits (weather tick) conn ++ (next answer).kept weather (tick + 1) after
  | .rollback next, tick, conn => next.kept weather tick conn.rollback

/-- A statement on rows commits nothing. -/
theorem afterDml_disk (fault : Option Exc) (statement : σ → Except Exc σ) (conn : Connection σ) :
    (afterDml fault statement conn).2.disk = conn.disk := by
  -- Whether it succeeds or not, only the view of the connection may change.
  simp only [afterDml]
  split <;> rfl

/-- A statement on the schema changes what is committed only without a transaction. -/
theorem afterDdl_disk (fault : Option Exc) (statement : σ → Except Exc σ) (conn : Connection σ) :
    (afterDdl fault statement conn).2.disk = (alters fault statement conn).foldl Kept.apply conn.disk := by
  cases fault with
  | some exc => simp [afterDdl, attempt, alters]
  | none =>
    cases opened : conn.pending with
    | some tables =>
      cases made : statement conn.view <;> simp [afterDdl, attempt, alters, opened, made]
    | none =>
      -- Without a transaction its statements see what is committed.
      have seen : conn.view = conn.disk := by simp [Connection.view, opened]
      cases made : statement conn.disk <;>
        simp [afterDdl, attempt, alters, opened, seen, made, Kept.apply, Except.toOption]

/-- A commit makes what its statements see last. -/
theorem afterCommit_disk (fault : Option Exc) (conn : Connection σ) :
    (afterCommit fault conn).2.disk = (commits fault conn).foldl Kept.apply conn.disk := by
  cases fault <;> simp [afterCommit, commits, Connection.commit, Kept.apply]

/-- Behind a function is committed what was, but for what the function has made last by itself. -/
theorem run_disk (weather : Weather) (fn : WriteFn σ α) (tick : ℕ) (conn : Connection σ) :
    (fn.run weather tick conn).2.2.disk = (fn.kept weather tick conn).foldl Kept.apply conn.disk := by
  -- The statements are taken one by one, with the connection that the earlier ones have left.
  induction fn generalizing tick conn with
  | done result => rfl
  | raises exc => rfl
  | dml statement next ih => rw [run, kept, ih, afterDml_disk]
  | ddl statement next ih => rw [run, kept, ih, List.foldl_append, afterDdl_disk]
  | query next ih => rw [run, kept, ih]
  | commit next ih => rw [run, kept, ih, List.foldl_append, afterCommit_disk]
  | rollback next ih => rw [run, kept, ih]; rfl

end WriteFn

/-- No transaction is left open behind a write. -/
theorem runWrite_pending (weather : Weather) (conn : Connection σ) (fn : WriteFn σ α) :
    (runWrite weather conn fn).2.pending = none := by
  -- It is committed or rolled back, and a commit that fails is rolled back as well.
  simp only [runWrite]
  split
  · rfl
  · split <;> rfl

/-- A write that raises leaves what its function has made last by itself, and nothing else. -/
theorem runWrite_raises (weather : Weather) (conn : Connection σ) (fn : WriteFn σ α) {exc : Exc}
    (raised : (runWrite weather conn fn).1 = .error exc) :
    (runWrite weather conn fn).2.disk = (fn.kept weather 0 conn).foldl Kept.apply conn.disk := by
  -- The context manager rolls back, whether the function or its commit has failed.
  rw [← WriteFn.run_disk]
  revert raised
  simp only [runWrite]
  split
  · case h_1 result tick after made => intro _; rw [made]; rfl
  · case h_2 result tick after made =>
    rw [made]
    split <;> simp [Connection.rollback]

/-! ### One move -/

/-- What a move makes of a state. -/
inductive Changes (s : State σ α) : Move σ α → State σ α → Prop
  | refused (fn : WriteFn σ α) (closed : s.closed = true) : Changes s (.write fn) { s with clock := s.clock + 1 }
  | accepted (fn : WriteFn σ α) (opened : s.closed = false) : Changes s (.write fn)
      { s with
        queue := s.queue ++ [some s.fns.length], fns := s.fns ++ [fn], futures := s.futures ++ [.pending]
        clock := s.clock + 1 }
  | cancelled (number : ℕ) (waits : s.futures[number]? = some .pending) : Changes s (.cancel number)
      { s with futures := s.futures.set number .cancelled, clock := s.clock + 1 }
  | stopsAgain (closed : s.closed = true) : Changes s .stop { s with clock := s.clock + 1 }
  | stops (opened : s.closed = false) : Changes s .stop
      { s with closed := true, queue := s.queue ++ [none], stop := .waiting, clock := s.clock + 1 }
  | connected (at_start : s.writer = .connecting) :
      Changes s .connected { s with writer := .waiting, clock := s.clock + 1 }
  | takesSentinel (rest : List (Option ℕ)) (waits : s.writer = .waiting) (queued : s.queue = none :: rest) :
      Changes s .take { s with writer := .closing, queue := rest, clock := s.clock + 1 }
  | takes (number : ℕ) (rest : List (Option ℕ)) (waits : s.writer = .waiting)
      (queued : s.queue = some number :: rest) :
      Changes s .take { s with writer := .executing number s.clock, queue := rest, clock := s.clock + 1 }
  | executes (weather : Weather) (number began : ℕ) (fn : WriteFn σ α)
      (holds : s.writer = .executing number began) (found : s.fns[number]? = some fn) :
      Changes s (.execute weather)
        { s with
          writer := .finished number (runWrite weather s.conn fn).1
          conn := (runWrite weather s.conn fn).2
          runs := s.runs ++ [⟨number, fn, weather, began, s.clock, s.conn.disk, (runWrite weather s.conn fn).1,
            (runWrite weather s.conn fn).2.disk⟩]
          clock := s.clock + 1 }
  | resumes (number : ℕ) (outcome : Except Exc α) (holds : s.writer = .finished number outcome) :
      Changes s .resume
        { s with
          writer := .waiting, futures := s.futures.modify number (Future.settle outcome), clock := s.clock + 1 }
  | closes (holds : s.writer = .closing) : Changes s .close { s with writer := .ended, clock := s.clock + 1 }
  | stopped (waits : s.stop = .waiting) (ended : s.writer = .ended) :
      Changes s .stopped { s with stop := .returned, clock := s.clock + 1 }

variable {s after : State σ α} {move : Move σ α} {run : Run σ α} {moves : List (Move σ α)}

/-- A move makes one of these changes. -/
theorem changes (moved : s.step move = some after) : Changes s move after := by
  simp only [State.step, Option.map_eq_some_iff] at moved
  obtain ⟨changed, found, rfl⟩ := moved
  cases move with
  | write fn =>
    simp only [State.change] at found
    split at found
    next closed => cases found; exact .refused fn closed
    next opened => cases found; exact .accepted fn (by simpa using opened)
  | cancel number =>
    simp only [State.change, Option.map_eq_some_iff, Option.bind_eq_some_iff] at found
    obtain ⟨given_up, ⟨future, held, gives⟩, rfl⟩ := found
    cases future with
    | pending => cases gives; exact .cancelled number held
    | resolved outcome => simp [Future.cancel] at gives
    | cancelled => simp [Future.cancel] at gives
  | stop =>
    simp only [State.change] at found
    split at found
    next closed => cases found; exact .stopsAgain closed
    next opened => cases found; exact .stops (by simpa using opened)
  | connected =>
    simp only [State.change] at found
    split at found
    next at_start => cases found; exact .connected at_start
    next => cases found
  | take =>
    simp only [State.change] at found
    split at found
    next rest waits queued => cases found; exact .takesSentinel rest waits queued
    next number rest waits queued => cases found; exact .takes number rest waits queued
    next => cases found
  | execute weather =>
    simp only [State.change] at found
    split at found
    next number began holds =>
      simp only [Option.map_eq_some_iff] at found
      obtain ⟨fn, held, rfl⟩ := found
      exact .executes weather number began fn holds held
    next => cases found
  | resume =>
    simp only [State.change] at found
    split at found
    next number outcome holds => cases found; exact .resumes number outcome holds
    next => cases found
  | close =>
    simp only [State.change] at found
    split at found
    next holds => cases found; exact .closes holds
    next => cases found
  | stopped =>
    simp only [State.change] at found
    split at found
    next waits ended => cases found; exact .stopped waits ended
    next => cases found

/-! ### The queue -/

/-- The number of a write that the writer has taken and the executor not run. -/
def Writer.unrun : Writer α → List ℕ
  | .executing number _ => [number]
  | _ => []

/-- The writer has left its loop. -/
def Writer.left : Writer α → Bool
  | .closing | .ended => true
  | _ => false

/-- The sentinel that `stop` has queued and the writer not taken. -/
def State.sentinel (s : State σ α) : List (Option ℕ) := if s.closed && !s.writer.left then [none] else []

/-- Every accepted write is run, taken or queued, in the order of acceptance, and the sentinel is behind them. -/
structure Queued (s : State σ α) : Prop where
  futures : s.futures.length = s.fns.length
  order : s.runs.map Run.number ++ s.writer.unrun ++ s.queue.reduceOption = List.range s.fns.length
  sentinel : s.queue = s.queue.reduceOption.map some ++ s.sentinel
  left : s.writer.left = true → s.closed = true ∧ s.queue = []
  stops : s.stop = .idle ↔ s.closed = false
  returned : s.stop = .returned → s.writer = .ended

/-- After `start` the queue is empty. -/
theorem Queued.started (disk : σ) : Queued (State.started disk : State σ α) := by
  constructor <;> simp [State.started, Writer.unrun, Writer.left, State.sentinel]

/-- The writer of an open database is in its loop, and has no sentinel before it. -/
theorem Queued.opened (sound : Queued s) (opened : s.closed = false) :
    s.writer.left = false ∧ s.queue = s.queue.reduceOption.map some := by
  constructor
  · cases gone : s.writer.left with
    | false => rfl
    | true => simp [(sound.left gone).1] at opened
  · simpa [State.sentinel, opened] using sound.sentinel

/-- Every move keeps the order of the queue. -/
theorem Queued.step (sound : Queued s) (changed : Changes s move after) : Queued after := by
  have open_writer := sound.opened
  obtain ⟨futures, order, sentinel, left, stops, returned⟩ := sound
  cases changed with
  | refused fn closed => exact ⟨futures, order, sentinel, left, stops, returned⟩
  | accepted fn opened =>
    -- An open database has no sentinel in its queue, so that the new number is the last of it.
    obtain ⟨none_left, numbers⟩ := open_writer opened
    refine ⟨by simp [futures], ?_, ?_, by simp [none_left], stops, returned⟩
    · simp only [List.reduceOption_append, List.length_append, List.length_singleton, List.range_succ, ← order]
      simp [List.reduceOption]
    · simp only [State.sentinel, opened, Bool.false_and, Bool.false_eq_true, if_false, List.append_nil]
      rw [List.reduceOption_append, List.map_append, ← numbers]
      simp [List.reduceOption]
  | cancelled number waits => exact ⟨by simpa using futures, order, sentinel, left, stops, returned⟩
  | stopsAgain closed => exact ⟨futures, order, sentinel, left, stops, returned⟩
  | stops opened =>
    obtain ⟨none_left, numbers⟩ := open_writer opened
    refine ⟨futures, ?_, ?_, by simp [none_left], by simp, by simp⟩
    · -- The sentinel goes behind all numbers and is none itself.
      simpa [List.reduceOption_append, List.reduceOption] using order
    · simp only [State.sentinel, none_left, Bool.not_false, Bool.and_self, if_true]
      rw [List.reduceOption_append, List.map_append, ← numbers]
      simp [List.reduceOption]
  | connected at_start =>
    simp only [at_start, State.sentinel, Writer.unrun, Writer.left] at order sentinel left returned
    exact ⟨futures, order, sentinel, by simp [Writer.left], stops, by simpa using returned⟩
  | takesSentinel rest waits queued =>
    -- Nothing is behind the sentinel, since nothing is accepted behind it.
    have empty : rest = [] ∧ s.closed = true := by
      simp only [queued, List.reduceOption_cons_of_none, State.sentinel] at sentinel
      cases numbers : rest.reduceOption with
      | cons number more => simp [numbers] at sentinel
      | nil =>
        rw [numbers, List.map_nil, List.nil_append] at sentinel
        split at sentinel
        next waiting =>
          simp only [Bool.and_eq_true] at waiting
          exact ⟨by simpa using sentinel, waiting.1⟩
        next => simp at sentinel
    obtain ⟨rfl, closed⟩ := empty
    simp only [waits, queued, Writer.unrun, List.append_nil] at order returned
    refine ⟨futures, by simpa [Writer.unrun, List.reduceOption] using order, ?_, ?_, stops, ?_⟩
    · simp [State.sentinel, Writer.left]
    · simp [closed]
    · simpa using returned
  | takes number rest waits queued =>
    -- The number moves from the head of the queue to the writer.
    simp only [waits, queued, Writer.unrun, List.append_nil, State.sentinel, Writer.left,
      List.reduceOption_cons_of_some, List.map_cons, List.cons_append, List.cons.injEq, true_and]
      at order sentinel returned
    exact ⟨futures, by simpa [Writer.unrun] using order, sentinel, by simp [Writer.left], stops,
      by simpa using returned⟩
  | executes weather number began fn holds found =>
    simp only [holds, Writer.unrun, State.sentinel, Writer.left] at order sentinel returned
    exact ⟨futures, by simpa [Writer.unrun] using order, sentinel, by simp [Writer.left], stops,
      by simpa using returned⟩
  | resumes number outcome holds =>
    simp only [holds, Writer.unrun, State.sentinel, Writer.left] at order sentinel returned
    exact ⟨by simpa using futures, order, sentinel, by simp [Writer.left], stops, by simpa using returned⟩
  | closes holds =>
    simp only [holds, Writer.unrun, State.sentinel, Writer.left] at order sentinel left
    exact ⟨futures, order, sentinel, by simpa [Writer.left] using left, stops, by simp⟩
  | stopped waits ended =>
    exact ⟨futures, order, sentinel, left, by simpa [waits] using stops, fun _ => ended⟩

/-- The runs are those of the first accepted writes, in the order of acceptance. -/
theorem Queued.numbered (sound : Queued s) :
    s.runs.map Run.number = List.range s.runs.length ∧ s.runs.length ≤ s.fns.length := by
  -- What is run is the start of all that was accepted.
  have start : s.runs.map Run.number <+: List.range s.fns.length := by
    rw [← sound.order, List.append_assoc]
    exact List.prefix_append _ _
  have short : s.runs.length ≤ s.fns.length := by simpa using start.length_le
  have taken := List.prefix_iff_eq_take.mp start
  rw [List.length_map, List.take_range, Nat.min_eq_left short] at taken
  exact ⟨taken, short⟩

/-- The run of a number is the only one. -/
theorem Queued.same_run (sound : Queued s) {first second : Run σ α} (one : first ∈ s.runs)
    (other : second ∈ s.runs) (same : first.number = second.number) : first = second := by
  -- The numbers of the runs are those of a range.
  have distinct : (s.runs.map Run.number).Nodup := by
    rw [sound.numbered.1]
    exact List.nodup_range
  exact List.inj_on_of_nodup_map distinct one other same

/-- A write that was run has its run. -/
theorem Queued.run_of (sound : Queued s) {number : ℕ} (run : number < s.runs.length) :
    ∃ run ∈ s.runs, run.number = number := by
  have listed : number ∈ s.runs.map Run.number := by
    rw [sound.numbered.1]
    exact List.mem_range.mpr run
  simpa using listed

/-- A run is one of an accepted write. -/
theorem Queued.run_lt (sound : Queued s) (made : run ∈ s.runs) : run.number < s.runs.length := by
  have listed := List.mem_map_of_mem (f := Run.number) made
  rw [sound.numbered.1] at listed
  exact List.mem_range.mp listed

/-- A run has a future. -/
theorem Queued.future_lt (sound : Queued s) (made : run ∈ s.runs) : run.number < s.futures.length := by
  rw [sound.futures]
  exact (sound.run_lt made).trans_le sound.numbered.2

/-- The writer holds the next write. -/
theorem Queued.next (sound : Queued s) {number began : ℕ}
    (holds : s.writer = .executing number began) : number = s.runs.length ∧ number < s.fns.length := by
  have order := sound.order
  have long : number ∈ List.range s.fns.length := by
    rw [← order, holds]
    simp [Writer.unrun]
  -- Behind the runs the writer holds the next number of the range.
  have place : (List.range s.fns.length)[s.runs.length]? = some number := by
    rw [← order, holds, List.append_assoc, List.getElem?_append_right (by simp)]
    simp [Writer.unrun]
  obtain ⟨inside, named⟩ := List.getElem?_eq_some_iff.mp place
  exact ⟨by simpa using named.symm, List.mem_range.mp long⟩

/-! ### The runs -/

/-- The runs lead from one committed state to another, each from where the one before it has ended. -/
def Linked : σ → List (Run σ α) → σ → Prop
  | first, [], last => first = last
  | first, run :: rest, last => run.before = first ∧ Linked run.after rest last

/-- A further run goes on from where the others have ended. -/
theorem Linked.snoc : ∀ {runs : List (Run σ α)} {first : σ},
    Linked first runs run.before → Linked first (runs ++ [run]) run.after := by
  intro runs
  induction runs with
  | nil => intro first linked; exact ⟨linked.symm, rfl⟩
  | cons head rest ih => intro first linked; exact ⟨linked.1, ih linked.2⟩

/-- A run is one of its accepted function, on a connection without an open transaction. -/
structure Run.Right (fns : List (WriteFn σ α)) (run : Run σ α) : Prop where
  own : fns[run.number]? = some run.fn
  made : runWrite run.weather ⟨run.before, none⟩ run.fn = (run.outcome, ⟨run.after, none⟩)
  lasts : run.began ≤ run.ended

/-- The runs are alone, and nothing else changes the database. -/
structure Ran (disk : σ) (s : State σ α) : Prop where
  no_transaction : s.conn.pending = none
  linked : Linked disk s.runs s.conn.disk
  right : ∀ run ∈ s.runs, run.Right s.fns
  past : ∀ run ∈ s.runs, run.ended < s.clock
  apart : s.runs.Pairwise fun earlier later => earlier.ended < later.began
  holding : ∀ number began, s.writer = .executing number began →
    began < s.clock ∧ ∀ run ∈ s.runs, run.ended < began

/-- After `start` nothing was run. -/
theorem Ran.started (disk : σ) : Ran disk (State.started disk : State σ α) := by
  constructor <;> simp [State.started, Linked]

variable {disk : σ}

/-- A move that runs nothing and hands nothing to the executor keeps the runs as they are. -/
theorem Ran.keep (sound : Ran disk s) (runs : after.runs = s.runs)
    (conn : after.conn = s.conn) (fns : s.fns <+: after.fns) (clock : s.clock < after.clock)
    (holding : ∀ number began, after.writer = .executing number began → s.writer = .executing number began) :
    Ran disk after := by
  refine ⟨by rw [conn]; exact sound.no_transaction, by rw [runs, conn]; exact sound.linked, ?_, ?_,
    by rw [runs]; exact sound.apart, ?_⟩
  · intro run made
    rw [runs] at made
    have right := sound.right run made
    refine ⟨?_, right.made, right.lasts⟩
    -- An accepted function keeps its number.
    obtain ⟨more, extended⟩ := fns
    obtain ⟨inside, _⟩ := List.getElem?_eq_some_iff.mp right.own
    rw [← extended, List.getElem?_append_left inside, right.own]
  · intro run made
    rw [runs] at made
    exact (sound.past run made).trans clock
  · intro number began holds
    have held := sound.holding number began (holding number began holds)
    rw [runs]
    exact ⟨held.1.trans clock, held.2⟩

/-- Every move keeps the runs apart. -/
theorem Ran.step (sound : Ran disk s) (changed : Changes s move after) : Ran disk after := by
  cases changed with
  | refused fn closed => exact sound.keep rfl rfl (List.prefix_refl _) (Nat.lt_succ_self _) fun _ _ holds => holds
  | accepted fn opened =>
    exact sound.keep rfl rfl (List.prefix_append _ _) (Nat.lt_succ_self _) fun _ _ holds => holds
  | cancelled number waits =>
    exact sound.keep rfl rfl (List.prefix_refl _) (Nat.lt_succ_self _) fun _ _ holds => holds
  | stopsAgain closed => exact sound.keep rfl rfl (List.prefix_refl _) (Nat.lt_succ_self _) fun _ _ holds => holds
  | stops opened => exact sound.keep rfl rfl (List.prefix_refl _) (Nat.lt_succ_self _) fun _ _ holds => holds
  | connected at_start => exact sound.keep rfl rfl (List.prefix_refl _) (Nat.lt_succ_self _) (by simp)
  | takesSentinel rest waits queued =>
    exact sound.keep rfl rfl (List.prefix_refl _) (Nat.lt_succ_self _) (by simp)
  | takes number rest waits queued =>
    -- All earlier runs have ended before the function is handed over.
    refine ⟨sound.no_transaction, sound.linked, sound.right,
      fun run made => (sound.past run made).trans (Nat.lt_succ_self _), sound.apart, ?_⟩
    intro held began holds
    obtain ⟨rfl, rfl⟩ := Writer.executing.inj holds
    exact ⟨Nat.lt_succ_self _, sound.past⟩
  | executes weather number began fn holds found =>
    -- The executor starts from what is committed, since no transaction is open.
    obtain ⟨early, before⟩ := sound.holding number began holds
    have closed := runWrite_pending weather s.conn fn
    have conn : s.conn = ⟨s.conn.disk, none⟩ := by rw [← sound.no_transaction]
    refine ⟨closed, sound.linked.snoc, ?_, ?_, ?_, by simp⟩
    · simp only [List.mem_append, List.mem_singleton]
      rintro run (made | rfl)
      · exact sound.right run made
      · refine ⟨found, ?_, early.le⟩
        rw [← conn, ← closed]
    · simp only [List.mem_append, List.mem_singleton]
      rintro run (made | rfl)
      · exact (sound.past run made).trans (Nat.lt_succ_self _)
      · exact Nat.lt_succ_self _
    · rw [List.pairwise_append]
      refine ⟨sound.apart, List.pairwise_singleton _ _, fun earlier made later last => ?_⟩
      obtain rfl := List.mem_singleton.mp last
      exact before earlier made
  | resumes number outcome holds =>
    exact sound.keep rfl rfl (List.prefix_refl _) (Nat.lt_succ_self _) (by simp)
  | closes holds => exact sound.keep rfl rfl (List.prefix_refl _) (Nat.lt_succ_self _) (by simp)
  | stopped waits ended => exact sound.keep rfl rfl (List.prefix_refl _) (Nat.lt_succ_self _) fun _ _ holds => holds

/-- A run that raises leaves what its function has made last by itself. -/
theorem Run.Right.raising {fns : List (WriteFn σ α)} (right : run.Right fns) {exc : Exc}
    (raised : run.outcome = .error exc) :
    run.after = (run.fn.kept run.weather 0 ⟨run.before, none⟩).foldl Kept.apply run.before := by
  have failed : (runWrite run.weather ⟨run.before, none⟩ run.fn).1 = .error exc := by
    rw [right.made]
    exact raised
  have left := runWrite_raises run.weather ⟨run.before, none⟩ run.fn failed
  simpa [right.made] using left

/-! ### The futures -/

/-- A write was run, and its caller has the outcome of its own run, or has given up. -/
def State.Answered (s : State σ α) (number : ℕ) : Prop :=
  ∃ run ∈ s.runs, run.number = number ∧
    (s.futures[number]? = some (.resolved run.outcome) ∨ s.futures[number]? = some .cancelled)

/-- The futures hold what the runs have brought. -/
structure Answers (s : State σ α) : Prop where
  /-- Every run but the last is answered, and the last one if the writer was resumed behind it. -/
  settled : ∀ run ∈ s.runs, s.writer = .finished run.number run.outcome ∨ s.Answered run.number
  finished : ∀ number outcome, s.writer = .finished number outcome →
    number + 1 = s.runs.length ∧ ∃ run ∈ s.runs, run.number = number ∧ run.outcome = outcome
  own : ∀ number outcome, s.futures[number]? = some (.resolved outcome) →
    ∃ run ∈ s.runs, run.number = number ∧ run.outcome = outcome

/-- After `start` there is no future. -/
theorem Answers.started (disk : σ) : Answers (State.started disk : State σ α) := by
  constructor <;> simp [State.started]

/-- A move that touches no future and runs nothing keeps the answers. -/
theorem Answers.keep (sound : Answers s) (runs : after.runs = s.runs) (futures : after.futures = s.futures)
    (finished : ∀ number outcome, after.writer = .finished number outcome ↔ s.writer = .finished number outcome) :
    Answers after := by
  refine ⟨fun run made => ?_, fun number outcome holds => ?_, ?_⟩
  · rw [finished]
    simpa only [State.Answered, runs, futures] using sound.settled run (by rwa [runs] at made)
  · rw [runs]
    exact sound.finished number outcome ((finished number outcome).mp holds)
  · rw [runs, futures]
    exact sound.own

/-- The future of a run has the outcome of the run when that is set, unless the caller has given up. -/
theorem Answers.delivered (sound : Answers s) (queued : Queued s) (made : run ∈ s.runs) :
    (s.futures.modify run.number (Future.settle run.outcome))[run.number]? = some (.resolved run.outcome) ∨
      (s.futures.modify run.number (Future.settle run.outcome))[run.number]? = some .cancelled := by
  have inside := queued.future_lt made
  rw [List.getElem?_modify_eq, List.getElem?_eq_getElem inside]
  cases held : s.futures[run.number] with
  | pending => exact .inl rfl
  | cancelled => exact .inr rfl
  | resolved before =>
    -- What it holds already was brought by the only run of its number.
    obtain ⟨own, listed, named, rfl⟩ := sound.own run.number before (by rw [List.getElem?_eq_getElem inside, held])
    rw [queued.same_run listed made named]
    exact .inl rfl

/-- Every move keeps the answers. -/
theorem Answers.step (queued : Queued s) (sound : Answers s)
    (changed : Changes s move after) : Answers after := by
  cases changed with
  | refused fn closed => exact sound.keep rfl rfl fun _ _ => Iff.rfl
  | accepted fn opened =>
    -- The new future is behind those of all runs.
    refine ⟨fun run made => ?_, sound.finished, fun number outcome held => ?_⟩
    · refine (sound.settled run made).imp_right fun ⟨own, listed, named, answered⟩ => ⟨own, listed, named, ?_⟩
      rwa [List.getElem?_append_left (queued.future_lt made)]
    · rw [List.getElem?_append] at held
      split at held
      · exact sound.own number outcome held
      · simp [List.getElem?_singleton] at held
  | cancelled number waits =>
    -- A future is only given up while it waits, so that no outcome is lost.
    refine ⟨fun run made => ?_, sound.finished, fun other outcome held => ?_⟩
    · refine (sound.settled run made).imp_right fun ⟨own, listed, named, answered⟩ => ⟨own, listed, named, ?_⟩
      rw [List.getElem?_set]
      split
      next same =>
        rw [same] at waits
        simp [waits] at answered
      next => exact answered
    · rw [List.getElem?_set] at held
      split at held
      next => split at held <;> simp at held
      next => exact sound.own other outcome held
  | stopsAgain closed => exact sound.keep rfl rfl fun _ _ => Iff.rfl
  | stops opened => exact sound.keep rfl rfl fun _ _ => Iff.rfl
  | connected at_start => exact sound.keep rfl rfl (by simp [at_start])
  | takesSentinel rest waits _ => exact sound.keep rfl rfl (by simp [waits])
  | takes number rest waits _ => exact sound.keep rfl rfl (by simp [waits])
  | executes weather number began fn holds found =>
    -- All earlier runs were answered before the writer took this one.
    refine ⟨fun run made => ?_, fun other outcome held => ?_, fun other outcome held => ?_⟩
    · rcases List.mem_append.mp made with before | last
      · refine .inr ?_
        obtain ⟨own, listed, named, answered⟩ := (sound.settled run before).resolve_left (by simp [holds])
        exact ⟨own, List.mem_append_left _ listed, named, answered⟩
      · obtain rfl := List.mem_singleton.mp last
        exact .inl rfl
    · -- The run that was just added is the one that the writer holds.
      obtain ⟨rfl, rfl⟩ := Writer.finished.inj held
      exact ⟨by simp [(queued.next holds).1], _, List.mem_append_right _ (List.mem_singleton.mpr rfl), rfl, rfl⟩
    · obtain ⟨own, listed, named, brought⟩ := sound.own other outcome held
      exact ⟨own, List.mem_append_left _ listed, named, brought⟩
  | resumes number outcome holds =>
    -- The writer sets the future of the run that it holds, which is the last one.
    obtain ⟨_, last, run, rfl, rfl⟩ := sound.finished number outcome holds
    have delivered := sound.delivered queued run
    refine ⟨fun other made => .inr ?_, by simp, fun other outcome held => ?_⟩
    · by_cases same : other.number = last.number
      · exact ⟨last, run, same.symm, by rwa [same]⟩
      · -- All other runs were answered before.
        have answered := (sound.settled other made).resolve_left fun at_it =>
          same (Writer.finished.inj (holds.symm.trans at_it)).1.symm
        obtain ⟨own, listed, named, answered⟩ := answered
        refine ⟨own, listed, named, ?_⟩
        simpa only [List.getElem?_modify_ne (Future.settle last.outcome) _ (Ne.symm same)] using answered
    · by_cases same : last.number = other
      · subst same
        rcases delivered with resolved | cancelled
        · exact ⟨last, run, rfl, Future.resolved.inj (Option.some.inj (resolved.symm.trans held))⟩
        · cases cancelled.symm.trans held
      · rw [List.getElem?_modify_ne _ _ same] at held
        exact sound.own other outcome held
  | closes holds => exact sound.keep rfl rfl (by simp [holds])
  | stopped waits ended => exact sound.keep rfl rfl fun _ _ => Iff.rfl

/-! ### Every run of the queue -/

/-- The function of a call of `write`. -/
def Move.written : Move σ α → Option (WriteFn σ α)
  | .write fn => some fn
  | _ => none

/-- A call of `stop`. -/
def Move.stops : Move σ α → Bool
  | .stop => true
  | _ => false

/-- The functions of the calls of `write` before the first call of `stop`. -/
def accepted (moves : List (Move σ α)) : List (WriteFn σ α) :=
  (moves.takeWhile fun move => !move.stops).filterMap Move.written

/-- The moves that the writer and a waiting `stop` have made. -/
def ownMoves (moves : List (Move σ α)) : ℕ := moves.countP Move.own

/-- How many moves have brought the writer and `stop` to where they are. -/
def State.made (s : State σ α) : ℕ :=
  3 * s.runs.length +
    match s.writer with
    | .connecting | .finished _ _ => 0
    | .waiting => 1
    | .executing _ _ | .closing => 2
    | .ended => if s.stop = .returned then 4 else 3

/-- A database follows the moves that were made with it. -/
structure Follows (moves : List (Move σ α)) (s : State σ α) : Prop where
  accepted : s.fns = accepted moves
  closed : s.closed = moves.any Move.stops
  made : s.made = ownMoves moves

/-- A further move is taken while no call of `stop` is among the earlier ones. -/
theorem accepted_snoc (moves : List (Move σ α)) (move : Move σ α) :
    accepted (moves ++ [move]) = accepted moves ++ (if moves.any Move.stops then [] else move.written.toList) := by
  simp only [accepted]
  cases called : moves.any Move.stops with
  | true =>
    obtain ⟨call, listed, stops⟩ := List.any_eq_true.mp called
    rw [List.takeWhile_append, if_neg, if_pos rfl, List.append_nil]
    -- The first call of `stop` ends the calls that are taken.
    intro whole
    have all := List.takeWhile_eq_self_iff.mp (List.Sublist.eq_of_length (List.takeWhile_sublist _) whole)
    simpa [stops] using all call listed
  | false =>
    have all : moves.takeWhile (fun move => !move.stops) = moves := by
      refine List.takeWhile_eq_self_iff.mpr fun move listed => ?_
      simpa using List.any_eq_false.mp called move listed
    rw [List.takeWhile_append, if_pos (by rw [all]), List.filterMap_append, all]
    cases move <;> simp [Move.stops, Move.written]

/-- After `start` no move was made. -/
theorem Follows.started (disk : σ) : Follows [] (State.started disk : State σ α) := by
  constructor <;> simp [State.started, WriteQueue.accepted, State.made, ownMoves]

/-- A database follows each further move. -/
theorem Follows.step (queued : Queued s)
    (follows : Follows moves s) (changed : Changes s move after) : Follows (moves ++ [move]) after := by
  obtain ⟨taken, closed, made⟩ := follows
  -- The moves are counted at the end, where the new one stands.
  have counted : ownMoves (moves ++ [move]) = ownMoves moves + if move.own then 1 else 0 := by
    simp [ownMoves, List.countP_append, List.countP_singleton]
  have called : (moves ++ [move]).any Move.stops = (s.closed || move.stops) := by simp [closed]
  refine ⟨?_, ?_, ?_⟩
  · rw [accepted_snoc, ← closed, ← taken]
    cases changed <;> simp_all [Move.written]
  · rw [called]
    cases changed <;> simp_all [Move.stops]
  · rw [counted, ← made]
    cases changed with
    | stopped waits ended => simp [State.made, Move.own, ended, waits]
    | closes holds =>
      have waiting : s.stop ≠ .returned := fun back => by simp [queued.returned back] at holds
      simp [State.made, Move.own, holds, waiting]
    | executes weather number began fn holds found => simp [State.made, Move.own, holds]; omega
    | stops opened =>
      have idle := queued.stops.mpr opened
      simp [State.made, Move.own, idle]
    | connected at_start => simp [State.made, Move.own, at_start]
    | takesSentinel rest waits queued => simp [State.made, Move.own, waits]
    | takes number rest waits queued => simp [State.made, Move.own, waits]
    | resumes number outcome holds => simp [State.made, Move.own, holds]
    -- No other change is one of the writer or of the waiting `stop`.
    | refused | accepted | cancelled | stopsAgain => simp [State.made, Move.own]

/-- What holds of a database behind every list of moves. -/
structure Sound (disk : σ) (moves : List (Move σ α)) (s : State σ α) : Prop where
  queued : Queued s
  ran : Ran disk s
  answers : Answers s
  follows : Follows moves s

/-- A run is continued by one move. -/
theorem State.run_snoc (s : State σ α) (moves : List (Move σ α)) (move : Move σ α) :
    s.run (moves ++ [move]) = (s.run moves).bind fun before => before.step move := by
  induction moves generalizing s with
  | nil => simp [State.run]
  | cons first rest ih =>
    -- The first move may not be possible; then neither run goes on.
    simp only [List.cons_append, State.run]
    cases s.step first with
    | none => rfl
    | some next => exact ih next

/-- Every run keeps all of it. -/
theorem run_sound (disk : σ) (moves : List (Move σ α)) (s : State σ α)
    (reached : (State.started disk).run moves = some s) : Sound disk moves s := by
  -- The list grows at its end, where the last move was made.
  induction moves using List.reverseRecOn generalizing s with
  | nil =>
    cases reached
    exact ⟨.started disk, .started disk, .started disk, .started disk⟩
  | append_singleton moves move ih =>
    rw [State.run_snoc, Option.bind_eq_some_iff] at reached
    obtain ⟨before, earlier, moved⟩ := reached
    obtain ⟨queued, ran, answers, follows⟩ := ih before earlier
    have changed := changes moved
    exact ⟨queued.step changed, ran.step changed, answers.step queued changed, follows.step queued changed⟩

/-- With an empty queue and an idle writer every write was run and answered. -/
theorem Sound.all_answered (sound : Sound disk moves s) (empty : s.queue = []) (idle : s.writer.unrun = [])
    (resumed : ∀ number outcome, s.writer ≠ .finished number outcome) :
    s.runs.length = s.fns.length ∧ ∀ number < s.fns.length, s.Answered number := by
  -- What is neither taken nor queued was run.
  have order := congrArg List.length sound.queued.order
  simp only [empty, idle, List.append_nil, List.reduceOption_nil, List.length_map, List.length_range] at order
  refine ⟨order, fun number accepted => ?_⟩
  obtain ⟨run, made, rfl⟩ := sound.queued.run_of (order ▸ accepted)
  exact (sound.answers.settled run made).resolve_left (resumed _ _)

/-- A write is answered when the writer has made enough moves, whatever its callers have done meanwhile. -/
theorem Sound.answered_in_time (sound : Sound disk moves s)
    {number : ℕ} (accepted : number < s.fns.length) (long : 3 * number + 4 ≤ ownMoves moves) :
    s.Answered number := by
  rw [← sound.follows.made] at long
  by_cases gone : s.writer.left = true
  · -- A writer that has left its loop has run everything.
    refine (sound.all_answered (sound.queued.left gone).2 ?_ ?_).2 number accepted
    · cases at_it : s.writer <;> simp [at_it, Writer.left, Writer.unrun] at gone ⊢
    · intro other outcome at_it
      simp [at_it, Writer.left] at gone
  · -- Three moves bring each run about.
    have run : number < s.runs.length := by
      simp only [State.made] at long
      cases at_it : s.writer <;> simp only [at_it, Writer.left, not_true_eq_false] at long gone <;> omega
    obtain ⟨own, made, rfl⟩ := sound.queued.run_of run
    refine (sound.answers.settled own made).resolve_left fun at_it => ?_
    -- The writer would hold the last run, and it has moved on from this one.
    have last := (sound.answers.finished _ _ at_it).1
    simp only [State.made, at_it] at long
    omega

/-- Something is left to do, and somebody can do it. -/
theorem Sound.goes_on (sound : Sound disk moves s)
    (left : (∃ number < s.fns.length, ¬ s.Answered number) ∨ s.stop = .waiting) :
    ∃ move : Move σ α, move.own = true ∧ (s.step move).isSome = true := by
  -- Wherever the writer is, it or the waiting `stop` can move.
  cases at_it : s.writer with
  | connecting => exact ⟨.connected, rfl, by simp [State.step, State.change, at_it]⟩
  | waiting =>
    cases queued : s.queue with
    | cons item rest =>
      refine ⟨.take, rfl, ?_⟩
      cases item <;> simp [State.step, State.change, at_it, queued]
    | nil =>
      exfalso
      have all := sound.all_answered queued (by rw [at_it]; rfl) (by simp [at_it])
      rcases left with ⟨number, accepted, open_end⟩ | waits
      · exact open_end (all.2 number accepted)
      · -- A closed database has its sentinel in the queue.
        have closed : s.closed = true := by
          cases flag : s.closed with
          | true => rfl
          | false => simp [sound.queued.stops.mpr flag] at waits
        have sentinel := sound.queued.sentinel
        simp [queued, State.sentinel, closed, at_it, Writer.left] at sentinel
  | executing number began =>
    obtain ⟨fn, found⟩ : ∃ fn, s.fns[number]? = some fn :=
      ⟨_, List.getElem?_eq_getElem (sound.queued.next at_it).2⟩
    exact ⟨.execute fun _ => none, rfl, by simp [State.step, State.change, at_it, found]⟩
  | finished number outcome => exact ⟨.resume, rfl, by simp [State.step, State.change, at_it]⟩
  | closing => exact ⟨.close, rfl, by simp [State.step, State.change, at_it]⟩
  | ended =>
    refine ⟨.stopped, rfl, ?_⟩
    have empty := (sound.queued.left (by rw [at_it]; rfl)).2
    have all := sound.all_answered empty (by rw [at_it]; rfl) (by simp [at_it])
    have waits : s.stop = .waiting :=
      left.resolve_left fun ⟨number, accepted, open_end⟩ => open_end (all.2 number accepted)
    simp [State.step, State.change, at_it, waits]

/-- What the queue promises to its callers behind a list of moves. -/
structure Serialized (disk : σ) (moves : List (Move σ α)) (s : State σ α) : Prop where
  /-- Nothing is accepted behind the beginning of `stop`. -/
  accepted : s.fns = accepted moves
  /-- What was run are the first accepted writes, each once and in the order of acceptance. -/
  in_order : s.runs.map Run.number = List.range s.runs.length ∧ s.runs.length ≤ s.fns.length
  right : ∀ run ∈ s.runs, run.Right s.fns
  apart : s.runs.Pairwise fun earlier later => earlier.ended < later.began
  linked : Linked disk s.runs s.conn.disk
  /-- A write that raises leaves what its function has made last by itself. -/
  raising : ∀ run ∈ s.runs, ∀ exc, run.outcome = .error exc →
    run.after = (run.fn.kept run.weather 0 ⟨run.before, none⟩).foldl Kept.apply run.before
  /-- A result or an exception is that of the caller's own function. -/
  own_caller : ∀ number outcome, s.futures[number]? = some (.resolved outcome) →
    ∃ run ∈ s.runs, run.number = number ∧ run.outcome = outcome
  drained : s.stop = .returned → s.runs.length = s.fns.length ∧ ∀ number < s.fns.length, s.Answered number
  /-- No write waits for ever, nor does `stop`. -/
  answered : ∀ number < s.fns.length, 3 * number + 4 ≤ ownMoves moves → s.Answered number
  stops : s.closed = true → 3 * s.fns.length + 4 ≤ ownMoves moves → s.stop = .returned
  goes_on : (∃ number < s.fns.length, ¬ s.Answered number) ∨ s.stop = .waiting →
    ∃ move : Move σ α, move.own = true ∧ (s.step move).isSome = true

/-- Behind every list of moves the queue has kept its promises. -/
theorem writes_serialized (disk : σ) (moves : List (Move σ α)) (s : State σ α)
    (reached : (State.started disk).run moves = some s) : Serialized disk moves s := by
  have sound := run_sound disk moves s reached
  refine
    { accepted := sound.follows.accepted, in_order := sound.queued.numbered, right := sound.ran.right
      apart := sound.ran.apart, linked := sound.ran.linked
      raising := fun run made exc raised => (sound.ran.right run made).raising raised
      own_caller := sound.answers.own
      drained := fun returned => ?_
      answered := fun number accepted long => sound.answered_in_time accepted long
      stops := fun closed long => ?_
      goes_on := sound.goes_on }
  · -- The call of `stop` returns behind the end of the writer.
    have ended := sound.queued.returned returned
    have empty := (sound.queued.left (by rw [ended]; rfl)).2
    exact sound.all_answered empty (by rw [ended]; rfl) (by simp [ended])
  · -- Before `stop` returns, no more moves than these were made.
    have short := sound.queued.numbered.2
    rw [← sound.follows.made] at long
    simp only [State.made] at long
    by_contra waits
    cases at_it : s.writer <;> simp only [at_it, if_neg waits] at long <;> omega

/-- What a statement raises whose row is there already. -/
def constraintFails : Exc := .integrity "UNIQUE constraint failed"

/-- Two writes, of which one raises behind a change, and a `stop` that comes while the first one is run. -/
def draining : List (Move (List ℕ) ℕ) :=
  [.write (.dml (fun rows => .ok (1 :: rows)) fun _ => .raises constraintFails), .connected, .take,
    .write (.dml (fun rows => .ok (2 :: rows)) fun _ => .query fun rows => .done rows.length), .stop,
    .execute fun _ => none, .resume, .take, .execute fun _ => none, .resume, .take, .close, .stopped]

/-- Both are run before `stop` returns, and the change of the second one is left. -/
theorem writes_serialized_draining : ∃ s, (State.started []).run draining = some s ∧ s.stop = .returned ∧
    s.conn.disk = [2] ∧ Serialized [] draining s :=
  ⟨_, rfl, rfl, rfl, writes_serialized [] draining _ rfl⟩

/-- Two migrations of which the second one fails: `run_migrations` ends a transaction behind each of them. -/
def migrating : List (Move (List ℕ) ℕ) :=
  [.connected, .write (.dml (fun applied => .ok (applied ++ [1])) fun _ => .commit fun _ =>
    .dml (fun _ => .error constraintFails) fun _ => .rollback (.raises constraintFails)),
    .take, .execute fun _ => none]

/-- A function that raises can leave a change to the rows behind, which it has committed itself. -/
theorem raising_write_leaves_rows : ∃ s, (State.started []).run migrating = some s ∧ ∃ run ∈ s.runs,
    run.outcome = .error constraintFails ∧ run.before = [] ∧ run.after = [1] :=
  ⟨_, rfl, _, List.mem_singleton.mpr rfl, rfl, rfl, rfl⟩

end Rasat.WriteQueue
