import RasatTrading.Ledger.Chain
import RasatTrading.Storage.WriteQueue
import RasatTrading.Storage.Writer

/-! The committed audit rows form an unbroken chain, whatever the queued transactions do. -/

namespace Rasat

variable {σ Details α : Type}

/-- An audit row as a link: the sealed entry is its actor, action, details and time. -/
def AuditRow.link (row : AuditRow) : HashChain.Link (String × String × String × Int) String where
  seq := row.seq
  entry := (row.actor, row.action, row.details, row.createdAt)
  prev := row.prevHash
  hash := row.hash

/-- How a row is sealed. -/
def sealRow (sha256Hex : String → String) (prevHash : String) (seq : Nat)
    (entry : String × String × String × Int) : String :=
  hashEntry sha256Hex prevHash seq entry.1 entry.2.1 entry.2.2.1 entry.2.2.2

/-- The rows, as stored, continue a chain from the given number and hash. -/
def ChainedFrom (sha256Hex : String → String) (seq : Nat) (prevHash : String)
    (rows : List AuditRow) : Prop :=
  HashChain.Continues (sealRow sha256Hex) seq prevHash (rows.map AuditRow.link)

/-- The rows form one chain from the genesis hash. -/
def Intact (sha256Hex : String → String) (rows : List AuditRow) : Prop :=
  ChainedFrom sha256Hex 0 genesisHash rows

variable {sha256Hex : String → String} {rows : List AuditRow} {encode : Details → Except Exc String}

/-- The rows of a chain are numbered consecutively. -/
theorem chainedFrom_seqs {seq : Nat} {prevHash : String} (chained : ChainedFrom sha256Hex seq prevHash rows) :
    rows.map (·.seq) = List.range' (seq + 1) rows.length := by
  have numbered := HashChain.continues_seqs chained
  rw [List.map_map, List.length_map] at numbered
  exact numbered

/-- A chain is stored in the order of its numbers. -/
theorem intact_ordered (intact : Intact sha256Hex rows) : orderBySeq rows = rows := by
  have ascending : (rows.map (·.seq)).Pairwise (· ≤ ·) := by
    rw [chainedFrom_seqs intact]
    exact (List.pairwise_lt_range' 1 (by decide)).imp Nat.le_of_lt
  -- Sorting an ascending list leaves it alone.
  refine List.mergeSort_of_pairwise ?_
  exact (List.pairwise_map.mp ascending).imp fun below => decide_eq_true below

/-- Verification finds nothing exactly on chains. -/
theorem verifyFrom_empty :
    ∀ {seq : Nat} {prevHash : String},
      verifyFrom sha256Hex seq prevHash rows = [] ↔ ChainedFrom sha256Hex seq prevHash rows := by
  induction rows with
  | nil =>
    intro seq prevHash
    simp [verifyFrom, ChainedFrom, HashChain.Continues]
  | cons row rest ih =>
    intro seq prevHash
    have following := @ih row.seq row.hash
    unfold ChainedFrom at following ⊢
    -- The hash is recomputed over the expected predecessor, which the chain also names.
    simp only [verifyFrom, verifyRow, List.append_eq_nil_iff, List.map_cons,
      HashChain.Continues, AuditRow.link, sealRow, following, ite_eq_right_iff]
    simp only [reduceCtorEq, imp_false, not_not, and_assoc]

/-- A chain verifies. -/
theorem intact_verifies (intact : Intact sha256Hex rows) : verify sha256Hex rows = [] := by
  unfold verify
  rw [intact_ordered intact]
  exact verifyFrom_empty.mpr intact

/-- An append that succeeds keeps the chain. -/
theorem appendInConnection_intact {stored : List AuditRow}
    {actor action : String} {details : Except Exc String} {now : Int} {seq : Nat}
    (intact : Intact sha256Hex rows)
    (appended : appendInConnection sha256Hex rows actor action details now = .ok (seq, stored)) :
    Intact sha256Hex stored := by
  unfold appendInConnection at appended
  rw [intact_ordered intact] at appended
  obtain ⟨detailsJson, _, inserted⟩ := bind_ok.mp appended
  obtain ⟨after, kept, finished⟩ := bind_ok.mp inserted
  cases finished
  unfold insertAuditRow at kept
  split at kept
  · cases kept
  · cases kept
    -- The new row is the link that seals its entry onto the last row.
    have next := HashChain.continues_next (actor, action, detailsJson, now) intact
    unfold Intact ChainedFrom
    rw [List.map_append]
    simpa [AuditRow.link, HashChain.nextLink, HashChain.endSeq, HashChain.endHash, sealRow,
      List.getLast?_map, Option.map_map, Function.comp_def] using next

/-- A body that returns keeps the chain, whatever it catches on the way. -/
theorem run_intact {weather : Weather} (fn : WriteFn σ Details α) :
    ∀ (tick : Nat) (conn : Connection σ) {changed : Connection σ} {result : α},
      Intact sha256Hex conn.audit →
      fn.run sha256Hex encode weather tick conn = .ok (result, changed) →
      Intact sha256Hex changed.audit := by
  -- The induction is on the body; only its appends touch the table.
  induction fn with
  | done result =>
    intro tick conn changed _ intact ran
    cases ran
    exact intact
  | raises exc =>
    intro tick conn changed _ intact ran
    cases ran
  | execute statement next ih =>
    intro tick conn changed result intact ran
    unfold WriteFn.run at ran
    split at ran
    · rename_i updated _
      exact ih (.ok ()) _ ⟨updated, conn.audit⟩ intact ran
    · exact ih (.error _) _ _ intact ran
  | query next ih =>
    intro tick conn changed result intact ran
    exact ih conn.tables conn.audit _ _ intact ran
  | append actor action details next ih =>
    intro tick conn changed result intact ran
    unfold WriteFn.run at ran
    split at ran
    · rename_i seq audit appended
      -- The append either raised before storing, or extended the chain.
      unfold Weather.append at appended
      split at appended
      · cases appended
      · exact ih (.ok seq) _ _ (appendInConnection_intact intact appended) ran
    · exact ih (.error _) _ _ intact ran

/-- A transaction keeps the committed chain, committed or rolled back. -/
theorem runWrite_intact {weather : Weather} {conn : Connection σ} {fn : WriteFn σ Details α}
    (intact : Intact sha256Hex conn.audit) :
    Intact sha256Hex (runWrite sha256Hex encode weather conn fn).2.audit := by
  unfold runWrite
  split
  · exact intact
  · rename_i ran
    split
    · exact intact
    · exact run_intact fn _ _ intact ran

/-- Every move of the process keeps the committed chain. -/
theorem step_intact {writer : Writer σ Details α} (move : WriterMove σ Details α)
    (intact : Intact sha256Hex writer.disk.audit) :
    Intact sha256Hex (writer.step sha256Hex encode move).disk.audit := by
  cases move with
  | write fn => exact intact
  | restart => exact intact
  | serve weather =>
    unfold Writer.step
    dsimp only
    split
    · exact intact
    · exact runWrite_intact intact

/-- A run of moves keeps the committed chain. -/
theorem run_moves_intact (moves : List (WriterMove σ Details α)) :
    ∀ {writer : Writer σ Details α}, Intact sha256Hex writer.disk.audit →
      Intact sha256Hex (writer.run sha256Hex encode moves).disk.audit := by
  induction moves with
  | nil =>
    intro writer intact
    exact intact
  | cons move rest ih =>
    intro writer intact
    exact ih (step_intact move intact)

/--
After any run of queued transactions, restarts and rollbacks the audit table is one chain.

Its numbers are exactly one to its length, each row names the hash before it, and it verifies.
-/
theorem audit_chain_intact (sha256Hex : String → String) (encode : Details → Except Exc String)
    (tables : σ) (moves : List (WriterMove σ Details α)) :
    let rows := ((Writer.opened tables).run sha256Hex encode moves).disk.audit
    (orderBySeq rows).map (·.seq) = List.range' 1 rows.length ∧
      (∀ row, (orderBySeq rows).head? = some row → row.prevHash = genesisHash) ∧
      (∀ before first second after, orderBySeq rows = before ++ first :: second :: after →
        second.prevHash = first.hash) ∧
      verify sha256Hex rows = [] := by
  intro rows
  have intact : Intact sha256Hex rows := run_moves_intact moves (by trivial)
  rw [intact_ordered intact]
  refine ⟨chainedFrom_seqs intact, ?_, ?_, intact_verifies intact⟩
  · intro row opens
    have first : (rows.map AuditRow.link).head? = some row.link := by
      rw [List.head?_map, opens, Option.map_some]
    exact HashChain.continues_head intact first
  · intro before first second after shape
    have linked : rows.map AuditRow.link =
        before.map AuditRow.link ++ first.link :: second.link :: after.map AuditRow.link := by
      rw [shape, List.map_append, List.map_cons, List.map_cons]
    exact HashChain.continues_prev intact linked

/-! The writer of the audit is the one of the write queue. -/

/-- The body as a function of the write queue: an append reads the last row, and then inserts its own. -/
def WriteFn.queued (sha256Hex : String → String) (encode : Details → Except Exc String) (weather : Weather) :
    WriteFn σ Details α → Nat → WriteQueue.WriteFn (Connection σ) α
  | .done result, _ => .done result
  | .raises exc, _ => .raises exc
  | .execute statement next, tick =>
    .dml (fun conn => (statement conn.tables).map fun tables => { conn with tables := tables }) fun answer =>
      (next answer).queued sha256Hex encode weather tick
  | .query next, tick => .query fun conn => (next conn.tables conn.audit).queued sha256Hex encode weather tick
  | .append actor action details next, tick => .query fun conn =>
    match weather.append sha256Hex conn.audit actor action (encode details) tick with
    | .ok (seq, audit) => .dml (fun conn => .ok { conn with audit := audit }) fun answer =>
      (next (answer.map fun _ => seq)).queued sha256Hex encode weather (tick + 1)
    | .error exc => (next (.error exc)).queued sha256Hex encode weather (tick + 1)

section Queued

variable {weather : Weather} {fn : WriteQueue.WriteFn (Connection σ) α} {count : ℕ} {conn : WriteQueue.Connection (Connection σ)}

/-- A function comes to an outcome on a calm day, and to what its statements then see. -/
def Comes (fn : WriteQueue.WriteFn (Connection σ) α) (count : ℕ) (conn : WriteQueue.Connection (Connection σ))
    (outcome : Except Exc (α × Connection σ)) : Prop :=
  ∃ ended after, count ≤ ended ∧ after.disk = conn.disk ∧ (∀ result ∈ outcome.toOption, after.view = result.2) ∧
    ∀ calm : WriteQueue.Weather, (∀ place, count ≤ place → place < ended → calm place = none) →
      fn.run calm count conn = (outcome.map Prod.fst, ended, after)

/-- A statement that is not refused comes to what its answer is taken for. -/
theorem Comes.dml {statement : Connection σ → Except Exc (Connection σ)}
    {next : Except Exc Unit → WriteQueue.WriteFn (Connection σ) α} {outcome : Except Exc (α × Connection σ)}
    (ok : ∀ changed after, statement conn.view = .ok changed → after.disk = conn.disk → after.view = changed →
      Comes (next (.ok ())) (count + 1) after outcome)
    (error : ∀ exc after, statement conn.view = .error exc → after.disk = conn.disk → after.view = conn.view →
      Comes (next (.error exc)) (count + 1) after outcome) : Comes (.dml statement next) count conn outcome := by
  have step : ∃ answer after, WriteQueue.WriteFn.afterDml none statement conn = (answer, after) ∧
      after.disk = conn.disk ∧ Comes (next answer) (count + 1) after outcome := by
    unfold WriteQueue.WriteFn.afterDml WriteQueue.WriteFn.attempt
    cases answered : statement conn.view with
    | ok changed => exact ⟨_, _, rfl, rfl, ok changed _ answered rfl rfl⟩
    | error exc => exact ⟨_, _, rfl, rfl, error exc _ answered rfl rfl⟩
  obtain ⟨answer, mid, answered, disk, ended, after, later, kept, seen, runs⟩ := step
  refine ⟨ended, after, by omega, kept.trans disk, seen, fun calm quiet => ?_⟩
  simp only [WriteQueue.WriteFn.run, quiet count le_rfl (by omega), answered]
  exact runs calm fun place early late => quiet place (by omega) late

/-- A reading comes to what is made of it. -/
theorem Comes.query {next : Connection σ → WriteQueue.WriteFn (Connection σ) α}
    {outcome : Except Exc (α × Connection σ)} (comes : Comes (next conn.view) count conn outcome) :
    Comes (.query next) count conn outcome := comes

/-- The queued function comes to what the body comes to. -/
theorem queued_comes (body : WriteFn σ Details α) (tick : ℕ) :
    Comes (body.queued sha256Hex encode weather tick) count conn
      (body.run sha256Hex encode weather tick conn.view) := by
  induction body generalizing tick count conn with
  | done result =>
    refine ⟨count, conn, le_rfl, rfl, ?_, fun _ _ => rfl⟩
    rintro _ ⟨⟩
    rfl
  | raises exc =>
    refine ⟨count, conn, le_rfl, rfl, ?_, fun _ _ => rfl⟩
    rintro _ ⟨⟩
  | query next ih => exact Comes.query (ih conn.view.tables conn.view.audit tick)
  | execute statement next ih =>
    unfold WriteFn.queued WriteFn.run
    cases answered : statement conn.view.tables with
    | ok tables =>
      refine Comes.dml (fun changed after same disk view => ?_) fun exc after refused => ?_
      · rw [answered] at same
        cases same
        have came : Comes _ (count + 1) after _ := ih (.ok ()) tick
        rw [view] at came
        exact came
      · rw [answered] at refused
        cases refused
    | error exc =>
      refine Comes.dml (fun changed after same => ?_) fun raised after refused disk view => ?_
      · rw [answered] at same
        cases same
      · rw [answered] at refused
        cases refused
        exact view ▸ ih (.error exc) tick
  | append actor action details next ih =>
    unfold WriteFn.queued WriteFn.run
    -- What the append finds is looked at before its row is inserted.
    refine Comes.query ?_
    cases weather.append sha256Hex conn.view.audit actor action (encode details) tick with
    | error exc => exact ih (.error exc) (tick + 1)
    | ok stored =>
      refine Comes.dml (fun changed after same disk view => ?_) fun exc after refused => by cases refused
      cases same
      have came : Comes _ (count + 1) after _ := ih (.ok stored.1) (tick + 1)
      rw [view] at came
      exact came

/-- Every transaction of a body is one of the write queue. -/
theorem runWrite_queued (weather : Weather) (disk : Connection σ) (body : WriteFn σ Details α) :
    ∃ calm, WriteQueue.runWrite calm ⟨disk, none⟩ (body.queued sha256Hex encode weather 0) =
      ((runWrite sha256Hex encode weather disk body).1, ⟨(runWrite sha256Hex encode weather disk body).2, none⟩) := by
  have came : Comes (body.queued sha256Hex encode weather 0) 0 ⟨disk, none⟩ (body.run sha256Hex encode weather 0 disk) :=
    queued_comes body 0
  obtain ⟨ended, after, -, kept, seen, runs⟩ := came
  -- Nothing fails but the commit at the end.
  let calm : WriteQueue.Weather := fun place => if place = ended then weather.commit else none
  have ran := runs calm fun place _ early => if_neg early.ne
  have last : calm ended = weather.commit := if_pos rfl
  refine ⟨calm, ?_⟩
  unfold WriteQueue.runWrite runWrite
  rw [ran]
  have undone : after.rollback = ⟨disk, none⟩ := by
    rw [WriteQueue.Connection.rollback, kept]
  cases came : body.run sha256Hex encode weather 0 disk with
  | error exc => exact congrArg (Prod.mk _) undone
  | ok result =>
    have view : after.view = result.2 := seen result (by rw [came]; rfl)
    dsimp only [Except.map]
    rw [last]
    cases weather.commit with
    | some exc => exact congrArg (Prod.mk _) undone
    | none => exact congrArg (Prod.mk _) (by rw [WriteQueue.Connection.commit, view])

end Queued

end Rasat
