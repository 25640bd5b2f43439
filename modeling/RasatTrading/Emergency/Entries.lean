import RasatTrading.Document.Read
import RasatTrading.Documents
import RasatTrading.Storage.Details

/-! The emergency log: a file of JSON lines that is appended to, read, looked into, verified and reconciled. -/

namespace Rasat

open Document Rounding

/-- What the log needs of the standard library. -/
structure LogLibrary where
  text : Text
  /-- `int` of a text; absent when it raises. -/
  parseInt : String → Option ℤ
  sha256Hex : String → String

variable (lib : LogLibrary)

/-! What the code asks of the parsed rows. -/

/-- `value[key]`. -/
def itemOf (key : String) : Document → Except Exc Document
  | .object members =>
    match members.lookup (.text key) with
    | some value => .ok value
    | none => .error (.other ("'" ++ key ++ "'"))
  | .str _ => .error (.other "string indices must be integers, not 'str'")
  | .array _ => .error (.other "list indices must be integers or slices, not str")
  | _ => .error (.other "object is not subscriptable")

/-- `value.get(key, default)`. -/
def getOr (key : String) (default : Document) : Document → Except Exc Document
  | .object members => .ok ((members.lookup (.text key)).getD default)
  | _ => .error (.other "object has no attribute 'get'")

/-- `value + 1`, a float to the nearest one. -/
def succDocument : Document → Except Exc Document
  | .int value => .ok (.int (value + 1))
  | .bool value => .ok (.int ((if value then 1 else 0) + 1))
  | .float value =>
    match value.extended with
    | .finite number => .ok (.float (.ofDecimal (number + 1 < 0) |number + 1|))
    | _ => .ok (.float value)
  | _ => .error (.other "unsupported operand type(s) for +")

/-- `str` of a value inside a hash; what cannot be encoded raises there. -/
def hashText : Document → Except Exc String
  | .str (.text value) => .ok value
  | .str (.broken _) => .error (dumpError .unencodable)
  | .int value => if shortInt value then .ok (toString value) else .error (dumpError .tooLong)
  | value => .ok (strDocument lib.text value)

/-- `int` of a value. -/
def intOf : Document → Except Exc ℤ
  | .int value => .ok value
  | .bool value => .ok (if value then 1 else 0)
  | .float value =>
    match value.extended with
    | .finite number => .ok (if 0 ≤ number then ⌊number⌋ else ⌈number⌉)
    | .infinite _ => .error (.other "cannot convert float infinity to integer")
    | .nan => .error (.other "cannot convert float NaN to integer")
  | .str (.text value) =>
    match lib.parseInt value with
    | some number => .ok number
    | none => .error (.other ("invalid literal for int() with base 10: " ++ lib.text.repr value))
  | _ => .error (.other "int() argument must be a string or a real number")

/-! Reading. -/

/-- The characters at which reading a text file splits lines. -/
def isBreak (c : Char) : Bool := c = '\n' ∨ c = '\r'

/-- The lines of a text, a last one without its end included. -/
def linesOf (content : String) : List String := (content.toList.splitOnP isBreak).map String.ofList

/-- The row that stands for a line that is no JSON. -/
def corruptEntry (line : String) : Document := .object [(.text "_corrupt", .bool true), (.text "raw", .text line)]

/-- The row of a line that is not blank. -/
def entryOf (line : String) : Except Exc Document :=
  match Document.read line.toList with
  | .ok row => .ok row
  | .error .tooLong => .error (dumpError .tooLong)
  | .error _ => .ok (corruptEntry line)

/-- The rows of some lines; blank lines are skipped. -/
def entriesOf : List String → Except Exc (List Document)
  | [] => .ok []
  | line :: rest =>
    if strip line = "" then entriesOf rest
    else do return (← entryOf (strip line)) :: (← entriesOf rest)

/-- `entries`: the rows of the file; a missing file is like an empty one. -/
def entries (content : ByteArray) : Except Exc (List Document) :=
  match String.fromUTF8? content with
  | none => .error (.other "'utf-8' codec can't decode byte")
  | some text => entriesOf (linesOf text)

/-! Appending. -/

/-- The number and the hash that a new row continues from. -/
def tailOf (rows : List Document) : Except Exc (Document × Document) :=
  let prev := rows.getLast?.getD .null
  if truthyDocument prev then do return (← itemOf "seq" prev, ← itemOf "hash" prev)
  else .ok (.int 0, .text genesisHash)

/-- `hash_entry`. -/
def entryHash (prevHash seq : String) (actor action detailsJson : String) (createdAt : ℤ) : String :=
  lib.sha256Hex (prevHash ++ "|" ++ seq ++ "|" ++ actor ++ "|" ++ action ++ "|" ++ detailsJson ++ "|" ++
    toString createdAt)

/-- The row of an append. -/
def entryRaw (seq prevHash : Document) (actor action : String) (safeDetails : Raw) (hash : String) (createdAt : ℤ) :
    Raw :=
  .dict [
    (.str (.text "seq"), seq.raw),
    (.str (.text "actor"), .str (.text actor)),
    (.str (.text "action"), .str (.text action)),
    (.str (.text "details"), safeDetails),
    (.str (.text "prev_hash"), prevHash.raw),
    (.str (.text "hash"), .str (.text hash)),
    (.str (.text "created_at"), .int createdAt)]

/-- The line that an append writes behind some rows. -/
def entryLine (rows : List Document) (actor action : String) (details : List (Key × Raw)) (now : ℤ) :
    Except Exc String := do
  let (prevSeq, prevHash) ← tailOf rows
  let seq ← succDocument prevSeq
  let safeDetails ← redact (.dict details)
  let detailsJson ← encode (← dumps true safeDetails)
  let hash := entryHash lib (← hashText lib prevHash) (← hashText lib seq) actor action detailsJson now
  encode (← dumps false (entryRaw seq prevHash actor action safeDetails hash now))

/-- `append`: the file afterwards. -/
def append (content : ByteArray) (actor action : String) (details : List (Key × Raw)) (now : ℤ) :
    Except Exc ByteArray := do
  let rows ← entries content
  let line ← entryLine lib rows actor action details now
  return content ++ (line ++ "\n").toByteArray

/-! Looking up. -/

/-- Whether a value is this text. -/
def isText (expected : String) (value : Document) : Bool :=
  match value with
  | .str value => value = .text expected
  | _ => false

/-- `value or` an empty dictionary. -/
def orEmpty (value : Document) : Document := if truthyDocument value then value else .object []

def sellLogAction : String := "emergency_sell"

def cancelLogAction : String := "emergency_cancel"

/-- `is_action_done`, without a terminal status. -/
def isActionDone (action idemKey : String) : List Document → Except Exc Bool
  | [] => .ok false
  | row :: rest => do
    if truthyDocument (← getOr "_corrupt" .null row) then isActionDone action idemKey rest
    else
      let details := orEmpty (← getOr "details" .null row)
      -- The details are only looked into for a row of this action.
      if isText action (← getOr "action" .null row) then
        if isText idemKey (← getOr "idem_key" .null details) then return true
        else isActionDone action idemKey rest
      else isActionDone action idemKey rest

/-- Whether `str` of a value starts with some text. -/
def startsWith (text : Text) (front : String) : Document → Bool
  | .str (.broken codes) => (front.toList.map Char.toNat).isPrefixOf codes
  | value => front.toList.isPrefixOf (strDocument text value).toList

/-- `_latest_sell_details`, after the details found so far. -/
def latestSell (text : Text) (lookFor : String) : List Document → Option Document → Except Exc (Option Document)
  | [], latest => .ok latest
  | row :: rest, latest => do
    if truthyDocument (← getOr "_corrupt" .null row) then latestSell text lookFor rest latest
    else
      let details := orEmpty (← getOr "details" .null row)
      if isText sellLogAction (← getOr "action" .null row) then
        if startsWith text lookFor (← getOr "idem_key" (.text "") details) then
          latestSell text lookFor rest (some details)
        else latestSell text lookFor rest latest
      else latestSell text lookFor rest latest

/-- `_latest_sell_details`. -/
def latestSellDetails (text : Text) (accountId symbol : String) (rows : List Document) :
    Except Exc (Option Document) :=
  latestSell text (accountId ++ ":" ++ symbol ++ ":") rows none

/-! Verifying. -/

/-- One finding. -/
structure BrokenEntry where
  seq : Document
  reason : String

/-- What the next row is verified against. -/
structure Verified where
  prevHash : Str := .text genesisHash
  prevSeq : ℤ := 0

/-- `str` of a value. -/
def strOf : Document → Str
  | .str value => value
  | value => .text (strDocument lib.text value)

/-- The text of a hashed string. -/
def strText : Str → Except Exc String
  | .text value => .ok value
  | .broken _ => .error (dumpError .unencodable)

/-- The finding of a number that does not follow; the message may be too long to be made. -/
def gapFindings (seq expected : ℤ) : Except Exc (List BrokenEntry) :=
  if seq = expected then .ok []
  else if shortInt expected then
    .ok [⟨.int seq, "sequence gap/deletion (expected " ++ toString expected ++ ")"⟩]
  else .error (dumpError .tooLong)

/-- One row of `verify`: its findings, and what the next row is verified against. -/
def verifyEntry (state : Verified) (row : Document) : Except Exc (List BrokenEntry × Verified) := do
  if truthyDocument (← getOr "_corrupt" .null row) then
    return ([⟨← getOr "seq" .null row, "corrupt row (not JSON)"⟩], state)
  else
    let seq ← intOf lib (← itemOf "seq" row)
    let detailsJson ← dumps true (← getOr "details" (.object []) row).raw
    let createdAt ← intOf lib (← itemOf "created_at" row)
    let gaps ← gapFindings seq (state.prevSeq + 1)
    let breaks := if strOf lib (← getOr "prev_hash" .null row) ≠ state.prevHash then
      [⟨.int seq, "chain break (prev_hash mismatch)"⟩] else []
    let actor := strOf lib (← itemOf "actor" row)
    let action := strOf lib (← itemOf "action" row)
    let expected := entryHash lib (← strText state.prevHash) (← hashText lib (.int seq)) (← strText actor)
      (← strText action) (← encode detailsJson) createdAt
    let changes := if strOf lib (← getOr "hash" .null row) ≠ .text expected then
      [⟨.int seq, "hash mismatch (row changed)"⟩] else []
    let hash ← itemOf "hash" row
    return (gaps ++ breaks ++ changes, ⟨strOf lib hash, seq⟩)

/-- The findings on some rows. -/
def verifyEntries (state : Verified) : List Document → Except Exc (List BrokenEntry)
  | [] => .ok []
  | row :: rest => do
    let (found, next) ← verifyEntry lib state row
    return found ++ (← verifyEntries next rest)

/-- `verify`. -/
def verifyLog (content : ByteArray) : Except Exc (List BrokenEntry) := do
  verifyEntries lib {} (← entries content)

end Rasat

/-! The emergency log reconciled into the audit table, at the start of the daemon. -/

namespace Rasat

open Document Rounding

/-- What reconciling needs besides: what a column of texts makes of a float, absent for NULL. -/
structure ReconcileLibrary extends LogLibrary where
  realText : Double → Option String

/-- A row of `emergency_reconciled`; a hash may be NULL, and nothing reads the number. -/
structure ReconciledRow where
  entryHash : Option String
  seq : Document
  reconciledAt : ℤ

/-- The tables that are reconciled. -/
structure LogTables where
  audit : List AuditRow := []
  reconciled : List ReconciledRow := []

variable (lib : ReconcileLibrary)

/-- `value in existing`; the set has texts, and perhaps None. -/
def inExisting (existing : List (Option String)) : Document → Except Exc Bool
  | .null => .ok (existing.contains none)
  | .str (.text value) => .ok (existing.contains (some value))
  | .array _ => .error (.other "unhashable type: 'list'")
  | .object _ => .error (.other "unhashable type: 'dict'")
  | .bool _ | .int _ | .float _ | .str (.broken _) => .ok false

/-- A whole number as SQLite has them. -/
def boundInt (value : ℤ) : Except Exc ℤ :=
  if -2 ^ 63 ≤ value ∧ value < 2 ^ 63 then .ok value
  else .error (.other "Python int too large to convert to SQLite INTEGER")

/-- What the column of hashes stores. -/
def hashColumn : Document → Except Exc (Option String)
  | .null => .ok none
  | .bool value => .ok (some (if value then "1" else "0"))
  | .int value => do return some (toString (← boundInt value))
  | .float value => .ok (lib.realText value)
  | .str (.text value) => .ok (some value)
  | .str (.broken _) => .error (dumpError .unencodable)
  | .array _ => .error (.other "Error binding parameter 1: type 'list' is not supported")
  | .object _ => .error (.other "Error binding parameter 1: type 'dict' is not supported")

/-- What the column of numbers stores; it is not NULL, which is also what no number is bound as. -/
def seqColumn : Document → Except Exc Document
  | .null | .float .nan => .error (.integrity "NOT NULL constraint failed: emergency_reconciled.seq")
  | .int value => do return .int (← boundInt value)
  | .str (.broken _) => .error (dumpError .unencodable)
  | .array _ => .error (.other "Error binding parameter 2: type 'list' is not supported")
  | .object _ => .error (.other "Error binding parameter 2: type 'dict' is not supported")
  | value => .ok value

/-- Store a row; the hashes that are not NULL are unique. -/
def insertReconciled (rows : List ReconciledRow) (row : ReconciledRow) : Except Exc (List ReconciledRow) :=
  if row.entryHash.isSome ∧ row.entryHash ∈ rows.map (·.entryHash) then
    .error (.integrity "UNIQUE constraint failed: emergency_reconciled.entry_hash")
  else .ok (rows ++ [row])

/-- The audit details of an entry. -/
def entryDetails (seq action details : Document) : List (Key × Raw) :=
  [(.str (.text "source"), .str (.text "emergency_stop.log")), (.str (.text "entry_seq"), seq.raw),
    (.str (.text "action"), action.raw), (.str (.text "entry"), details.raw)]

/-- An entry whose hash is not among the existing ones, into both tables. -/
def writeEntry (now : ℤ) (tables : LogTables) (row : Document) : Except Exc LogTables := do
  let details := entryDetails (← itemOf "seq" row) (← itemOf "action" row) (← getOr "details" (.object []) row)
  let (_, audit) ← auditAppend lib.sha256Hex tables.audit "emergency_stop" "emergency_stop" details now
  let entryHash ← hashColumn lib (← getOr "hash" .null row)
  let seq ← seqColumn (← itemOf "seq" row)
  let reconciled ← insertReconciled tables.reconciled ⟨entryHash, seq, now⟩
  return ⟨audit, reconciled⟩

/-- One turn of the loop: the tables, and how many entries are written. -/
def reconcileEntry (existing : List (Option String)) (now : ℤ) (state : LogTables × ℕ) (row : Document) :
    Except Exc (LogTables × ℕ) := do
  if truthyDocument (← getOr "_corrupt" .null row) then return state
  else if (← inExisting existing (← getOr "hash" .null row)) then return state
  else return (← writeEntry lib now state.1 row, state.2 + 1)

/-- What is reported. -/
structure Reconciliation where
  reconciled : ℕ
  logBroken : List BrokenEntry

/-- `reconcile_emergency_log`: the hashes that exist are read once, and everything is written in one transaction. -/
def reconcileEmergencyLog (content : ByteArray) (tables : LogTables) (now : ℤ) :
    Except Exc (Reconciliation × LogTables) := do
  let broken ← verifyLog lib.toLogLibrary content
  let existing := tables.reconciled.map (·.entryHash)
  let rows ← entries content
  let (after, written) ← rows.foldlM (reconcileEntry lib existing now) (tables, 0)
  return (⟨written, broken⟩, after)

end Rasat
