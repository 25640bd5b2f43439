import RasatTrading.Guarantees.LogRoundTrip

/-! When every entry of the emergency log is in the audit table once: which logs can be reconciled. -/

namespace Rasat

open Document

/-! What the rows of a log are like. -/

/-- Whether a row is skipped as corrupt. -/
def corrupt (row : Document) : Bool := truthyDocument ((row.get? "_corrupt").getD .null)

/-- The row has a member of this name. -/
def has (key : String) (row : Document) : Bool := (row.get? key).isSome

/-- The hash of a row, or null. -/
def hashOf (row : Document) : Document := (row.get? "hash").getD .null

/-- The details of a row, or none. -/
def detailsOf (row : Document) : Document := (row.get? "details").getD (.object [])

/-- The number under a key. -/
def numberAt (lib : LogLibrary) (key : String) (row : Document) : Option ℤ :=
  (row.get? key).bind fun value => (intOf lib value).toOption

/-- The number of a row, zero without one. -/
def seqOf (lib : LogLibrary) (row : Document) : ℤ := (numberAt lib "seq" row).getD 0

/-- The text under a key. -/
def textAt (lib : LogLibrary) (key : String) (row : Document) : Str := strOf lib ((row.get? key).getD .null)

/-- Whether a row has all that is verified behind the row before it. -/
def complete (lib : LogLibrary) (state : Verified) (row : Document) : Bool :=
  [has "seq" row, (numberAt lib "seq" row).isSome, (detailsOf row).raw.dumpable true, has "created_at" row,
    (numberAt lib "created_at" row).isSome, decide (seqOf lib row = state.prevSeq + 1) || shortInt (state.prevSeq + 1),
    has "actor" row, has "action" row, state.prevHash.encodable, shortInt (seqOf lib row),
    (textAt lib "actor" row).encodable, (textAt lib "action" row).encodable, (detailsOf row).raw.encodable,
    has "hash" row].all id

/-- What the row behind a row is verified against. -/
def afterEntry (lib : LogLibrary) (state : Verified) (row : Document) : Verified :=
  if corrupt row then state else ⟨textAt lib "hash" row, seqOf lib row⟩

/-- Whether all rows can be verified. -/
def verifiable (lib : LogLibrary) (state : Verified) : List Document → Bool
  | [] => true
  | row :: rest => (corrupt row || complete lib state row) && verifiable lib (afterEntry lib state row) rest

/-- Whether a line is no document that Python refuses to read. -/
def readableLine (line : String) : Bool := (entryOf line).isOk

/-- Whether a log can be read: it is text, and has no number that is too long. -/
def readable (content : ByteArray) : Bool :=
  match String.fromUTF8? content with
  | none => false
  | some text => (linesOf text).all fun line => decide (strip line = "") || readableLine (strip line)

/-- The rows of a log. -/
def rowsOf (content : ByteArray) : List Document := (entries content).toOption.getD []

/-- Whether a row has members. -/
def isObject : Document → Bool
  | .object _ => true
  | _ => false

/-- Whether a value may be looked up in a set. -/
def hashable : Document → Bool
  | .array _ | .object _ => false
  | _ => true

/-- Whether a hash is among the existing ones. -/
def inTable (existing : List (Option String)) : Document → Bool
  | .null => existing.contains none
  | .str (.text value) => existing.contains (some value)
  | _ => false

/-- The hash of a row as its column stores it. -/
def columnKey (lib : ReconcileLibrary) (row : Document) : Option String :=
  (hashColumn lib (hashOf row)).toOption.getD none

/-- The audit details of a row. -/
def auditedAs (row : Document) : List (Key × Raw) :=
  entryDetails ((row.get? "seq").getD .null) ((row.get? "action").getD .null) (detailsOf row)

/-- Whether an entry can be written when some hashes are taken. -/
def writable (lib : ReconcileLibrary) (taken : List (Option String)) (row : Document) : Bool :=
  [has "seq" row, has "action" row, storedAsIs (auditedAs row), (hashColumn lib (hashOf row)).isOk,
    (seqColumn ((row.get? "seq").getD .null)).isOk,
    !decide ((columnKey lib row).isSome ∧ columnKey lib row ∈ taken)].all id

/-- Whether a row is not written. -/
def skipped (existing : List (Option String)) (row : Document) : Bool := corrupt row || inTable existing (hashOf row)

/-- Whether the loop gets past a row. -/
def getsPast (lib : ReconcileLibrary) (existing taken : List (Option String)) (row : Document) : Bool :=
  corrupt row ||
    isObject row && (hashable (hashOf row) && (inTable existing (hashOf row) || writable lib taken row))

/-- Whether the loop gets past all rows; the existing hashes are those from before the loop. -/
def storable (lib : ReconcileLibrary) (existing : List (Option String)) : List (Option String) → List Document → Bool
  | _, [] => true
  | taken, row :: rest =>
    getsPast lib existing taken row &&
      storable lib existing (if skipped existing row then taken else taken ++ [columnKey lib row]) rest

/-- Whether a log can be reconciled with tables that have some hashes. -/
def reconcilable (lib : ReconcileLibrary) (existing : List (Option String)) (content : ByteArray) : Bool :=
  (readable content && verifiable lib.toLogLibrary {} (rowsOf content)) &&
    storable lib existing existing (rowsOf content)

/-- The rows that are written. -/
def freshRows (existing : List (Option String)) (rows : List Document) : List Document :=
  rows.filter fun row => !skipped existing row

variable {row : Document}

section Verify

variable {lib : LogLibrary}

/-- A member is read exactly when the row has it. -/
theorem itemOf_decides (key : String) (row : Document) :
    Decides (itemOf key row) (has key row) fun value => row.get? key = some value := by
  cases row with
  | object members =>
    unfold itemOf has Document.get?
    dsimp only
    cases members.lookup (.text key) with
    | none => exact .error _
    | some value => exact .ok rfl
  | null | bool | int | float | str | array => exact .error _

/-- A number is read exactly when `int` takes the value. -/
theorem numberAt_decides {key : String} {row value : Document} (found : row.get? key = some value) :
    Decides (intOf lib value) (numberAt lib key row).isSome fun number => numberAt lib key row = some number := by
  unfold numberAt
  rw [found]
  show Decides (intOf lib value) (intOf lib value).toOption.isSome
    fun number => (intOf lib value).toOption = some number
  cases intOf lib value with
  | error raised => exact .error raised
  | ok number => exact .ok rfl

/-- A gap is reported unless the expected number is too long to print. -/
theorem gapFindings_decides (seq expected : ℤ) :
    Decides (gapFindings seq expected) (decide (seq = expected) || shortInt expected) fun _ => True := by
  unfold gapFindings
  by_cases next : seq = expected
  · rw [if_pos next, decide_eq_true next]
    exact .ok trivial
  · rw [if_neg next, decide_eq_false next]
    cases shortInt expected with
    | true => exact .ok trivial
    | false => exact .error _

/-- A string is hashed exactly when it can be encoded, -/
theorem strText_decides (value : Str) : Decides (strText value) value.encodable fun _ => True := by
  cases value with
  | text value => exact .ok trivial
  | broken codes => exact .error _

/-- and a whole number when it is short. -/
theorem hashText_int (value : ℤ) : Decides (hashText lib (.int value)) (shortInt value) fun _ => True := by
  show Decides (if shortInt value then _ else _) _ _
  cases shortInt value with
  | true => exact .ok trivial
  | false => exact .error _

/-- A value is dumped exactly when it is serializable. -/
theorem dumps_decides (value : Raw) :
    Decides (dumps true value) (value.dumpable true) fun document => document.encodable = value.encodable :=
  ((dump_decides true value).mapError dumpError).imp fun _ dumped => dumped.1

/-- A text is encoded exactly when it has no lone surrogate. -/
theorem encode_decides (document : Document) : Decides (encode document) document.encodable fun _ => True :=
  ((encoded_decides document).mapError dumpError).imp fun _ _ => trivial

/-- An object has its own value under a key, or the default. -/
theorem getOr_object (object : isObject row = true) (key : String) (default : Document) :
    getOr key default row = .ok ((row.get? key).getD default) := by
  cases row with
  | object members => rfl
  | null | bool | int | float | str | array => cases object

/-- A row is verified when it is corrupt, or has everything. -/
theorem verifyEntry_decides (state : Verified) (row : Document) :
    Decides (verifyEntry lib state row) (corrupt row || complete lib state row) fun result =>
      result.2 = afterEntry lib state row := by
  cases object : isObject row with
  | false =>
    cases row with
    | object members => cases object
    | null | bool | int | float | str | array => exact .error _
  | true =>
    have member := getOr_object object
    -- The reads of the row are taken in the order of the source, since the first failure decides.
    unfold verifyEntry
    apply Decides.known (member "_corrupt" .null)
    show Decides (if corrupt row then _ else _) _ _
    unfold afterEntry
    cases damaged : corrupt row with
    | true => exact .known (member "seq" .null) (.ok rfl)
    | false =>
      rw [Bool.false_or, complete]
      simp only [List.all_cons, List.all_nil, id_eq]
      apply (itemOf_decides "seq" row).bind
      intro seqValue seqFound
      apply (numberAt_decides seqFound).bind
      intro seq numbered
      have number : seqOf lib row = seq := by
        rw [seqOf, numbered]
        rfl
      rw [number]
      apply Decides.known (member "details" (.object []))
      apply (dumps_decides _).bind
      intro detailsJson written
      apply (itemOf_decides "created_at" row).bind
      intro createdValue createdFound
      apply (numberAt_decides createdFound).bind
      intro createdAt _
      -- A gap is printed with the number that was expected.
      apply (gapFindings_decides _ _).bind
      intro gaps _
      apply Decides.known (member "prev_hash" .null)
      apply (itemOf_decides "actor" row).bind
      intro actor actorFound
      apply (itemOf_decides "action" row).bind
      intro action actionFound
      have texts : textAt lib "actor" row = strOf lib actor ∧ textAt lib "action" row = strOf lib action := by
        rw [textAt, textAt, actorFound, actionFound]
        exact ⟨rfl, rfl⟩
      have dumped : detailsJson.encodable = (detailsOf row).raw.encodable := written
      rw [texts.1, texts.2, ← dumped]
      -- Now the parts of the hash are encoded, one after the other.
      apply (strText_decides _).bind
      intro prevHash _
      apply (hashText_int _).bind
      intro seqText _
      apply (strText_decides _).bind
      intro actorText _
      apply (strText_decides _).bind
      intro actionText _
      apply (encode_decides _).bind
      intro details _
      apply Decides.known (member "hash" .null)
      apply (itemOf_decides "hash" row).bind
      intro hash hashFound
      have sealedBy : textAt lib "hash" row = strOf lib hash := by
        rw [textAt, hashFound]
        rfl
      rw [sealedBy]
      exact .ok rfl

/-- The rows are verified exactly when each can be. -/
theorem verifyEntries_decides (state : Verified) (rows : List Document) :
    Decides (verifyEntries lib state rows) (verifiable lib state rows) fun _ => True := by
  -- Each row leaves the state that the next one is checked against.
  induction rows generalizing state with
  | nil => exact .ok trivial
  | cons row rest ih =>
    rw [verifyEntries, verifiable, ← Bool.and_true (verifiable _ _ _)]
    apply (verifyEntry_decides state row).bind
    intro result next
    rw [← next]
    apply (ih _).bind
    intro findings _
    exact .ok trivial

/-- The lines are read exactly when each is a row or blank. -/
theorem entriesOf_decides (lines : List String) :
    Decides (entriesOf lines) (lines.all fun line => decide (strip line = "") || readableLine (strip line)) fun _ =>
      True := by
  induction lines with
  | nil => exact .ok trivial
  | cons line rest ih =>
    rw [entriesOf, List.all_cons]
    -- A blank line is no row.
    by_cases blank : strip line = ""
    · rw [if_pos blank, decide_eq_true blank]
      exact ih
    · rw [if_neg blank, decide_eq_false blank, Bool.false_or, readableLine, ← Bool.and_true (List.all _ _)]
      cases entryOf (strip line) with
      | error raised => exact .error raised
      | ok row => exact ih.bind fun _ _ => .ok trivial

/-- A log that can be read has its rows. -/
theorem entries_decides (content : ByteArray) :
    Decides (entries content) (readable content) fun rows => rows = rowsOf content := by
  have read : Decides (entries content) (readable content) fun _ => True := by
    unfold entries readable
    cases String.fromUTF8? content with
    | none => exact .error _
    | some text => exact entriesOf_decides _
  unfold rowsOf
  cases found : entries content with
  | error raised =>
    rw [found] at read
    exact read
  | ok rows =>
    rw [found] at read
    exact ⟨read.1, rfl⟩

/-- A file is verified exactly when it can be read and each row can be. -/
theorem verifyLog_decides (content : ByteArray) :
    Decides (verifyLog lib content) (readable content && verifiable lib {} (rowsOf content)) fun _ => True := by
  unfold verifyLog
  apply (entries_decides content).bind
  intro rows same
  rw [same]
  exact verifyEntries_decides {} _

end Verify

/-! What is written. -/

/-- The hashes in the table. -/
def LogTables.keys (tables : LogTables) : List (Option String) := tables.reconciled.map (·.entryHash)

/-- An audit row of an entry. -/
structure EntryAudited (row : Document) (audit : AuditRow) : Prop where
  actor : audit.actor = "emergency_stop"
  action : audit.action = "emergency_stop"
  details : auditDetails (auditedAs row) = .ok audit.details

/-- No hash is there twice. -/
def Distinct (keys : List (Option String)) : Prop := ∀ hash, keys.count (some hash) ≤ 1

/-- The tables get each of some rows. -/
structure Extends (lib : ReconcileLibrary) (before after : LogTables) (rows : List Document) : Prop where
  audit : ∃ audits, after.audit = before.audit ++ audits ∧ List.Forall₂ EntryAudited rows audits
  keys : after.keys = before.keys ++ rows.map (columnKey lib)
  distinct : Distinct before.keys → Distinct after.keys

section Write

variable {lib : ReconcileLibrary} {before middle after : LogTables}

/-- Nothing is added by no row. -/
theorem Extends.refl (lib : ReconcileLibrary) (tables : LogTables) : Extends lib tables tables [] where
  audit := ⟨[], (List.append_nil _).symm, .nil⟩
  keys := (List.append_nil _).symm
  distinct := id

/-- What two lists of rows add, their concatenation adds. -/
theorem Extends.trans {first second : List Document} (one : Extends lib before middle first)
    (other : Extends lib middle after second) : Extends lib before after (first ++ second) where
  audit := by
    obtain ⟨audits, added, recorded⟩ := one.audit
    obtain ⟨more, grown, others⟩ := other.audit
    refine ⟨audits ++ more, ?_, List.rel_append recorded others⟩
    rw [grown, added, List.append_assoc]
  keys := by rw [other.keys, one.keys, List.map_append, List.append_assoc]
  distinct start := other.distinct (one.distinct start)

/-- A member that is there is read. -/
theorem itemOf_found {key : String} {row value : Document} (found : row.get? key = some value) :
    itemOf key row = .ok value := by
  cases row with
  | object members =>
    have same : members.lookup (.text key) = some value := found
    unfold itemOf
    dsimp only
    rw [same]
  | null | bool | int | float | str | array => cases found

/-- A computation decides whether it returns. -/
theorem isOk_decides {α : Type} (result : Except Exc α) :
    Decides result result.isOk fun value => result.toOption = some value := by
  cases result with
  | error raised => exact .error raised
  | ok value => exact .ok rfl

/-- A hash is looked up exactly when it is hashable. -/
theorem inExisting_decides (existing : List (Option String)) (hash : Document) :
    Decides (inExisting existing hash) (hashable hash) fun found => found = inTable existing hash := by
  cases hash with
  | null | bool | int | float => exact .ok rfl
  | array | object => exact .error _
  | str value => cases value <;> exact .ok rfl

/-- An append stores one row, unless its details are not stored. -/
theorem auditAppend_decides (sha256Hex : String → String) (rows : List AuditRow) (actor action : String)
    (details : List (Key × Raw)) (now : ℤ) :
    Decides (auditAppend sha256Hex rows actor action details now) (storedAsIs details) fun result =>
      ∃ row, result.2 = rows ++ [row] ∧ row.actor = actor ∧ row.action = action ∧
        auditDetails details = .ok row.details := by
  have decides := auditDetails_decides details
  unfold auditAppend
  cases encoded : auditDetails details with
  | error raised =>
    rw [encoded] at decides
    exact decides
  | ok detailsJson =>
    rw [encoded] at decides
    -- With details that are encoded nothing else can fail.
    obtain ⟨seq, row, ⟨byActor, asAction, stored⟩, appended⟩ :=
      appendInConnection_ok sha256Hex rows actor action detailsJson now
    rw [appended]
    exact ⟨decides.1, row, rfl, byActor, asAction, by rw [stored]⟩

/-- A hash that is not there, or NULL, is not there twice afterwards. -/
theorem Distinct.append {keys : List (Option String)} {key : Option String} (distinct : Distinct keys)
    (free : ¬(key.isSome ∧ key ∈ keys)) : Distinct (keys ++ [key]) := by
  intro hash
  rw [List.count_append, List.count_singleton]
  by_cases same : key = some hash
  · -- The hash itself is new, so it is there once.
    have absent : some hash ∉ keys := by
      intro member
      exact free ⟨by rw [same]; rfl, by rw [same]; exact member⟩
    rw [List.count_eq_zero_of_not_mem absent, same]
    simp
  · have other : (key == some hash) = false := by simpa using same
    rw [other]
    exact distinct hash

/-- A row is inserted exactly when its hash is not there yet. -/
theorem insertReconciled_decides (rows : List ReconciledRow) (row : ReconciledRow) :
    Decides (insertReconciled rows row) (!decide (row.entryHash.isSome ∧ row.entryHash ∈ rows.map (·.entryHash)))
      fun stored => stored = rows ++ [row] ∧ ¬(row.entryHash.isSome ∧ row.entryHash ∈ rows.map (·.entryHash)) := by
  unfold insertReconciled
  by_cases taken : row.entryHash.isSome ∧ row.entryHash ∈ rows.map (·.entryHash)
  · rw [if_pos taken, decide_eq_true taken]
    exact .error _
  · rw [if_neg taken, decide_eq_false taken]
    exact .ok ⟨rfl, taken⟩

/-- An entry is written into both tables, or nothing is. -/
theorem writeEntry_decides (now : ℤ) (tables : LogTables) (row : Document) :
    Decides (writeEntry lib now tables row) (writable lib tables.keys row) fun after =>
      Extends lib tables after [row] := by
  cases object : isObject row with
  | false =>
    cases row with
    | object members => cases object
    | null | bool | int | float | str | array => exact .error _
  | true =>
    have member := getOr_object object
    -- What can fail is listed in `writable` in the order in which it is done.
    unfold writeEntry writable
    simp only [List.all_cons, List.all_nil, id_eq]
    apply (itemOf_decides "seq" row).bind
    intro seq seqFound
    apply (itemOf_decides "action" row).bind
    intro action actionFound
    have shown : auditedAs row = entryDetails seq action (detailsOf row) := by
      rw [auditedAs, seqFound, actionFound]
      rfl
    rw [seqFound, shown]
    apply Decides.known (member "details" (.object []))
    apply (auditAppend_decides _ _ _ _ _ _).bind
    intro appended audited
    obtain ⟨audit, added, byActor, asAction, stored⟩ := audited
    apply Decides.known (member "hash" .null)
    apply (isOk_decides _).bind
    intro entryHash hashed
    have key : columnKey lib row = entryHash := by
      rw [columnKey, hashOf, hashed]
      rfl
    rw [key]
    apply Decides.known (itemOf_found seqFound)
    apply (isOk_decides _).bind
    intro seqStored _
    apply (insertReconciled_decides _ _).bind
    intro reconciled inserted
    obtain ⟨grown, free⟩ := inserted
    -- Both rows are there, or the exception has rolled both back.
    have keys : LogTables.keys ⟨appended.2, reconciled⟩ = tables.keys ++ [entryHash] := by
      rw [LogTables.keys, grown, List.map_append]
      rfl
    refine .ok ⟨⟨[audit], added, .cons ⟨byActor, asAction, ?_⟩ .nil⟩, ?_, ?_⟩
    · rw [shown]
      exact stored
    · rw [keys, List.map_singleton, key]
    · rw [keys]
      exact fun distinct => distinct.append free

/-- One turn of the loop writes the row, unless it is skipped. -/
theorem reconcileEntry_decides (existing : List (Option String)) (now : ℤ) (state : LogTables × ℕ) (row : Document) :
    Decides (reconcileEntry lib existing now state row) (getsPast lib existing state.1.keys row) fun after =>
      Extends lib state.1 after.1 (freshRows existing [row]) ∧
        after.2 = state.2 + (freshRows existing [row]).length := by
  cases object : isObject row with
  | false =>
    cases row with
    | object members => cases object
    | null | bool | int | float | str | array => exact .error _
  | true =>
    have member := getOr_object object
    have rows : freshRows existing [row] = if skipped existing row then [] else [row] := by
      rw [freshRows, List.filter_cons]
      cases skipped existing row <;> rfl
    -- A corrupt row and one that is known are skipped without a write.
    unfold reconcileEntry getsPast
    rw [rows, skipped, object, Bool.true_and]
    apply Decides.known (member "_corrupt" .null)
    show Decides (if corrupt row then _ else _) _ _
    cases corrupt row with
    | true => exact .ok ⟨.refl lib _, rfl⟩
    | false =>
      apply Decides.known (member "hash" .null)
      apply (inExisting_decides existing _).bind
      intro found sameFound
      subst sameFound
      show Decides (if inTable existing (hashOf row) then _ else _) _ _
      cases inTable existing (hashOf row) with
      | true => exact .ok ⟨.refl lib _, rfl⟩
      | false =>
        rw [Bool.false_or, ← Bool.and_true (writable _ _ _)]
        apply (writeEntry_decides now state.1 row).bind
        intro written extended
        exact .ok ⟨extended, rfl⟩

/-- The loop writes the freshRows rows when it gets past all of them. -/
theorem reconcileEntries_decides (existing : List (Option String)) (now : ℤ) (state : LogTables × ℕ)
    (rows : List Document) :
    Decides (rows.foldlM (reconcileEntry lib existing now) state) (storable lib existing state.1.keys rows) fun after =>
      Extends lib state.1 after.1 (freshRows existing rows) ∧ after.2 = state.2 + (freshRows existing rows).length := by
  induction rows generalizing state with
  | nil => exact .ok ⟨.refl lib _, rfl⟩
  | cons row rest ih =>
    rw [List.foldlM_cons, storable]
    apply (reconcileEntry_decides existing now state row).bind
    intro next step
    obtain ⟨extended, counted⟩ := step
    have keys : next.1.keys = if skipped existing row then state.1.keys else
        state.1.keys ++ [columnKey lib row] := by
      rw [extended.keys, freshRows, List.filter_cons]
      cases skipped existing row with
      | true => exact List.append_nil _
      | false => rfl
    -- What the first row adds to the table is what the rest starts from.
    rw [← keys]
    apply (ih next).imp
    intro after goesOn
    have split : freshRows existing (row :: rest) = freshRows existing [row] ++ freshRows existing rest :=
      List.filter_append [row] rest
    rw [split, List.length_append]
    refine ⟨extended.trans goesOn.1, ?_⟩
    rw [goesOn.2, counted]
    omega

/-- What a startup does to the tables when it returns. -/
structure Reconciles (lib : ReconcileLibrary) (content : ByteArray) (before : LogTables)
    (result : Reconciliation × LogTables) : Prop where
  findings : verifyLog lib.toLogLibrary content = .ok result.1.logBroken
  extended : Extends lib before result.2 (freshRows before.keys (rowsOf content))
  counted : result.1.reconciled = (freshRows before.keys (rowsOf content)).length

/-- A log is reconciled exactly when it can be. -/
theorem reconcile_decides (content : ByteArray) (tables : LogTables) (now : ℤ) :
    Decides (reconcileEmergencyLog lib content tables now) (reconcilable lib tables.keys content)
      (Reconciles lib content tables) := by
  have verified := @verifyLog_decides lib.toLogLibrary content
  unfold reconcileEmergencyLog reconcilable
  cases found : verifyLog lib.toLogLibrary content with
  | error raised =>
    rw [found] at verified
    have stuck : (readable content && verifiable lib.toLogLibrary {} (rowsOf content)) = false := verified
    rw [stuck]
    exact .error raised
  | ok findings =>
    rw [found] at verified
    have good : (readable content && verifiable lib.toLogLibrary {} (rowsOf content)) = true := verified.1
    rw [good, Bool.true_and]
    -- The loop reads the file again and finds the same rows.
    obtain ⟨rows, read, same⟩ := (entries_decides content).returned (Bool.and_eq_true_iff.mp good).1
    apply Decides.known read
    subst same
    rw [← Bool.and_true (storable _ _ _ _)]
    apply (reconcileEntries_decides tables.keys now (tables, 0) (rowsOf content)).bind
    intro after step
    refine .ok ⟨found, step.1, ?_⟩
    have counted : after.2 = 0 + _ := step.2
    rw [counted, Nat.zero_add]

end Write

/-! Whole runs. -/

/-- What happens to the tables. -/
inductive LogEvent
  /-- The daemon starts over a log. -/
  | startup (content : ByteArray) (now : ℤ)
  /-- Something else is audited, under a name of its own. -/
  | audited (actor action : String) (details : List (Key × Raw)) (now : ℤ) (other : action ≠ "emergency_stop")

/-- The tables after an event; what raises is rolled back. -/
def LogEvent.next (lib : ReconcileLibrary) (tables : LogTables) : LogEvent → LogTables
  | .startup content now => ((reconcileEmergencyLog lib content tables now).toOption.map Prod.snd).getD tables
  | .audited actor action details now _ =>
    { tables with audit := auditAfter lib.sha256Hex tables.audit actor action details now }

/-- The tables after some events. -/
def tablesAfter (lib : ReconcileLibrary) (events : List LogEvent) : LogTables :=
  events.foldl (LogEvent.next lib) {}

/-- An entry of a log that the daemon is started over. -/
def LoggedEntry (events : List LogEvent) (row : Document) : Prop :=
  ∃ content now, LogEvent.startup content now ∈ events ∧ row ∈ rowsOf content ∧ corrupt row = false

/-- The audit rows of entries. -/
def LogTables.emergencies (tables : LogTables) : List AuditRow :=
  tables.audit.filter fun row => row.action = "emergency_stop"

/-- Every startup goes through and reports the findings, and each hash of the logs is audited once. -/
structure ReconciledOnce (lib : ReconcileLibrary) (events : List LogEvent) : Prop where
  reported : ∀ before content now after, events = before ++ .startup content now :: after →
    ∃ result tables, reconcileEmergencyLog lib content (tablesAfter lib before) now = .ok (result, tables) ∧
      verifyLog lib.toLogLibrary content = .ok result.logBroken
  once : ∃ written, List.Forall₂ EntryAudited written (tablesAfter lib events).emergencies ∧
    (∀ row ∈ written, LoggedEntry events row) ∧
      ∀ row hash, LoggedEntry events row → columnKey lib row = some hash →
        (written.map (columnKey lib)).count (some hash) = 1

/-- The audit rows and the stored hashes are those of some entries. -/
structure Aligned (lib : ReconcileLibrary) (events : List LogEvent) (tables : LogTables) (written : List Document) :
    Prop where
  recorded : List.Forall₂ EntryAudited written tables.emergencies
  keys : tables.keys = written.map (columnKey lib)
  distinct : Distinct tables.keys
  logged : ∀ row ∈ written, LoggedEntry events row

section Runs

variable {lib : ReconcileLibrary} {events : List LogEvent} {tables : LogTables} {written : List Document}

/-- Rows of entries are kept by the filter. -/
theorem audited_emergencies {rows : List Document} {audits : List AuditRow}
    (recorded : List.Forall₂ EntryAudited rows audits) :
    audits.filter (fun row => row.action = "emergency_stop") = audits := by
  induction recorded with
  | nil => rfl
  | cons first rest ih => rw [List.filter_cons_of_pos (by simpa using first.action), ih]

/-- An entry stays logged while more happens. -/
theorem LoggedEntry.mono (logged : LoggedEntry events row) (more : List LogEvent) :
    LoggedEntry (events ++ more) row := by
  obtain ⟨content, now, started, listed, intact⟩ := logged
  exact ⟨content, now, List.mem_append_left more started, listed, intact⟩

/-- An event keeps everything aligned. -/
theorem Aligned.next (aligned : Aligned lib events tables written) (event : LogEvent) :
    ∃ more, Aligned lib (events ++ [event]) (event.next lib tables) (written ++ more) := by
  have earlier : ∀ row ∈ written, LoggedEntry (events ++ [event]) row :=
    fun row listed => (aligned.logged row listed).mono _
  cases event with
  | startup content now =>
    have decides := @reconcile_decides lib content tables now
    cases outcome : reconcileEmergencyLog lib content tables now with
    | error raised =>
      have same : LogEvent.next lib tables (.startup content now) = tables := by
        rw [LogEvent.next, outcome]
        rfl
      refine ⟨[], ?_⟩
      rw [List.append_nil, same]
      exact ⟨aligned.recorded, aligned.keys, aligned.distinct, earlier⟩
    | ok result =>
      obtain ⟨-, extended, -⟩ := (decides.of_ok outcome).2
      obtain ⟨audits, added, recorded⟩ := extended.audit
      have same : LogEvent.next lib tables (.startup content now) = result.2 := by
        rw [LogEvent.next, outcome]
        rfl
      rw [same]
      refine ⟨freshRows tables.keys (rowsOf content), ?_, ?_, extended.distinct aligned.distinct, ?_⟩
      · rw [LogTables.emergencies, added, List.filter_append, audited_emergencies recorded]
        exact List.rel_append aligned.recorded recorded
      · rw [extended.keys, aligned.keys, List.map_append]
      · intro row listed
        rw [List.mem_append] at listed
        rcases listed with old | new
        · exact earlier row old
        · have ⟨found, kept⟩ := List.mem_filter.mp new
          have intact : corrupt row = false := by
            rw [skipped, Bool.not_or, Bool.and_eq_true, Bool.not_eq_true'] at kept
            exact kept.1
          exact ⟨content, now, by simp, found, intact⟩
  | audited actor action details now other =>
    have kept : (LogEvent.next lib tables (.audited actor action details now other)).emergencies =
        tables.emergencies := by
      have decides := auditAppend_decides lib.sha256Hex tables.audit actor action details now
      show List.filter _ (auditAfter lib.sha256Hex tables.audit actor action details now) = _
      unfold auditAfter
      cases appended : auditAppend lib.sha256Hex tables.audit actor action details now with
      | error raised => rfl
      | ok result =>
        -- The new row is under another name.
        obtain ⟨row, added, -, named, -⟩ := (decides.of_ok appended).2
        show List.filter _ result.2 = _
        have foreign : row.action ≠ "emergency_stop" := by
          rw [named]
          exact other
        rw [added, List.filter_append, List.filter_singleton, decide_eq_false foreign]
        exact List.append_nil _
    refine ⟨[], ?_⟩
    rw [List.append_nil]
    refine ⟨?_, aligned.keys, aligned.distinct, earlier⟩
    rw [kept]
    exact aligned.recorded

/-- One more event is handled behind the others. -/
theorem tablesAfter_append (events : List LogEvent) (event : LogEvent) :
    tablesAfter lib (events ++ [event]) = event.next lib (tablesAfter lib events) := by
  unfold tablesAfter
  rw [List.foldl_append]
  rfl

/-- In every run the audit rows of entries and the stored hashes are aligned, whatever raises. -/
theorem aligned_run (lib : ReconcileLibrary) (events : List LogEvent) :
    ∃ written, Aligned lib events (tablesAfter lib events) written := by
  induction events using List.reverseRecOn with
  | nil =>
    refine ⟨[], .nil, rfl, fun hash => ?_, fun row listed => ?_⟩
    · exact Nat.zero_le 1
    · cases listed
  | append_singleton events event ih =>
    obtain ⟨written, aligned⟩ := ih
    obtain ⟨more, next⟩ := aligned.next event
    rw [tablesAfter_append]
    exact ⟨_, next⟩

/-- Stored hashes stay. -/
theorem next_keys (event : LogEvent) : tables.keys ⊆ (event.next lib tables).keys := by
  cases event with
  | startup content now =>
    rw [LogEvent.next]
    cases outcome : reconcileEmergencyLog lib content tables now with
    | error raised => exact List.Subset.refl _
    | ok result =>
      have extended := ((reconcile_decides content tables now).of_ok outcome).2.extended
      show tables.keys ⊆ result.2.keys
      rw [extended.keys]
      exact List.subset_append_left _ _
  | audited => exact List.Subset.refl _

/-- Keys that are stored stay stored. -/
theorem later_keys (events more : List LogEvent) :
    (tablesAfter lib events).keys ⊆ (tablesAfter lib (events ++ more)).keys := by
  induction more using List.reverseRecOn with
  | nil =>
    rw [List.append_nil]
    exact List.Subset.refl _
  | append_singleton more event ih =>
    rw [← List.append_assoc, tablesAfter_append]
    exact List.Subset.trans ih (next_keys event)

/-- A hash that is among the existing ones is stored. -/
theorem listed_stored {existing : List (Option String)} {hash : String}
    (found : inTable existing (hashOf row) = true) (key : columnKey lib row = some hash) : some hash ∈ existing := by
  unfold columnKey at key
  cases value : hashOf row with
  | null =>
    rw [value] at key
    cases key
  | str text =>
    rw [value] at found key
    cases text with
    | text given =>
      cases key
      exact List.contains_iff_mem.mp found
    | broken codes => cases found
  | bool | int | float | array | object =>
    rw [value] at found
    cases found

/-- After a startup that goes through, the hash of every entry is stored. -/
theorem startup_keys {content : ByteArray} {now : ℤ} {hash : String}
    (good : reconcilable lib tables.keys content = true) (found : row ∈ rowsOf content) (intact : corrupt row = false)
    (key : columnKey lib row = some hash) : some hash ∈ (LogEvent.next lib tables (.startup content now)).keys := by
  obtain ⟨result, outcome, -, extended, -⟩ := (reconcile_decides content tables now).returned good
  have same : LogEvent.next lib tables (.startup content now) = result.2 := by
    rw [LogEvent.next, outcome]
    rfl
  rw [same, extended.keys, List.mem_append]
  cases known : inTable tables.keys (hashOf row) with
  | true => exact .inl (listed_stored known key)
  | false =>
    have new : row ∈ freshRows tables.keys (rowsOf content) := by
      apply List.mem_filter.mpr
      rw [skipped, intact, known]
      exact ⟨found, rfl⟩
    rw [← key]
    exact .inr (List.mem_map_of_mem new)

/-- Every startup goes through and every hash is audited once exactly when each startup finds a log that can be
reconciled with the tables. -/
theorem reconciled_once_iff (lib : ReconcileLibrary) (events : List LogEvent) :
    ReconciledOnce lib events ↔ ∀ before content now after, events = before ++ .startup content now :: after →
      reconcilable lib (tablesAfter lib before).keys content = true := by
  constructor
  · intro once before content now after shape
    obtain ⟨result, tables, outcome, -⟩ := once.reported before content now after shape
    exact ((reconcile_decides content (tablesAfter lib before) now).of_ok outcome).1
  · intro good
    refine ⟨?_, ?_⟩
    · intro before content now after shape
      obtain ⟨result, outcome, reconciles⟩ :=
        (reconcile_decides content (tablesAfter lib before) now).returned (good before content now after shape)
      exact ⟨result.1, result.2, outcome, reconciles.findings⟩
    · obtain ⟨written, aligned⟩ := aligned_run lib events
      refine ⟨written, aligned.recorded, aligned.logged, ?_⟩
      intro row hash logged key
      obtain ⟨content, now, started, found, intact⟩ := logged
      obtain ⟨before, after, shape⟩ := List.append_of_mem started
      -- The hash is stored at the startup that finds the entry, and stays.
      have stored : some hash ∈ (tablesAfter lib events).keys := by
        have once : some hash ∈ (LogEvent.next lib (tablesAfter lib before) (.startup content now)).keys :=
          startup_keys (good before content now after shape) found intact key
        rw [← tablesAfter_append] at once
        have later := later_keys (before ++ [.startup content now]) after once
        rw [List.append_assoc, List.singleton_append, ← shape] at later
        exact later
      have most := aligned.distinct hash
      have least := List.count_pos_iff.mpr stored
      rw [aligned.keys] at most least
      omega

end Runs

/-- A library whose hashes all are the same text. -/
def stubLibrary : ReconcileLibrary := ⟨⟨plainText, fun _ => none, fun _ => "h"⟩, fun _ => none⟩

/-- The row of a first entry. -/
def haltMembers : List (Str × Document) :=
  [(.text "action", .text "halt"), (.text "actor", .text "cli"), (.text "created_at", .int 7),
    (.text "details", .object []), (.text "hash", .text "h"), (.text "prev_hash", .text "GENESIS"),
    (.text "seq", .int 1)]

/-- The log with its line. -/
def haltLog : ByteArray := .empty ++ (String.ofList (Document.object haltMembers).write ++ "\n").toByteArray

/-- The log with its line twice. -/
def repeatedLog : ByteArray := haltLog ++ (String.ofList (Document.object haltMembers).write ++ "\n").toByteArray

/-- The sample file has one row. -/
theorem entries_haltLog : LogHolds haltLog [.object haltMembers] :=
  holds_empty.append (by decide) (by decide) (by decide)

/-- The other one has the same row twice. -/
theorem entries_repeatedLog : LogHolds repeatedLog [.object haltMembers, .object haltMembers] :=
  entries_haltLog.append (by decide) (by decide) (by decide)

section Repeated

variable {content : ByteArray} (holds : LogHolds content [.object haltMembers, .object haltMembers])

include holds

/-- The loop stumbles over the second of two equal rows. -/
theorem repeated_raises : ∃ raised, reconcileEmergencyLog stubLibrary content {} 8 = .error raised := by
  have rows : rowsOf content = [.object haltMembers, .object haltMembers] := by
    rw [rowsOf, holds.entries]
    rfl
  have stuck : storable stubLibrary [] [] [.object haltMembers, .object haltMembers] = false := by decide +kernel
  have blocked : reconcilable stubLibrary (LogTables.keys {}) content = false := by
    rw [reconcilable, rows]
    exact Bool.and_eq_false_imp.mpr fun _ => stuck
  exact (reconcile_decides content {} 8).raised blocked

/-- The verification finds the second row out of place. -/
theorem repeated_found : (verifyLog stubLibrary.toLogLibrary content).toOption.map (List.map BrokenEntry.reason) =
    some ["sequence gap/deletion (expected 2)", "chain break (prev_hash mismatch)"] := by
  have found : (verifyEntries stubLibrary.toLogLibrary {} [.object haltMembers, .object haltMembers]).toOption.map
      (List.map BrokenEntry.reason) =
        some ["sequence gap/deletion (expected 2)", "chain break (prev_hash mismatch)"] := by decide +kernel
  unfold verifyLog
  rw [holds.entries]
  exact found

/-- The startup raises, and nothing is stored. -/
theorem repeated_kept : tablesAfter stubLibrary [.startup content 8] = {} := by
  obtain ⟨raised, outcome⟩ := repeated_raises holds
  show LogEvent.next stubLibrary {} (.startup content 8) = {}
  rw [LogEvent.next, outcome]
  rfl

/-- The repeated row is not reconciled. -/
theorem repeated_not_once : ¬ReconciledOnce stubLibrary [.startup content 8] := by
  intro once
  obtain ⟨raised, outcome⟩ := repeated_raises holds
  obtain ⟨result, tables, returned, -⟩ := once.reported [] content 8 [] rfl
  have same : reconcileEmergencyLog stubLibrary content {} 8 = .ok (result, tables) := returned
  rw [outcome] at same
  cases same

end Repeated

/-- A line that is there twice is found, but then nothing of the log is written. -/
theorem repeated_line_blocks :
    (verifyLog stubLibrary.toLogLibrary repeatedLog).toOption.map (List.map BrokenEntry.reason) =
      some ["sequence gap/deletion (expected 2)", "chain break (prev_hash mismatch)"] ∧
      tablesAfter stubLibrary [.startup repeatedLog 8] = {} ∧ ¬ReconciledOnce stubLibrary [.startup repeatedLog 8] :=
  ⟨repeated_found entries_repeatedLog, repeated_kept entries_repeatedLog, repeated_not_once entries_repeatedLog⟩

end Rasat
