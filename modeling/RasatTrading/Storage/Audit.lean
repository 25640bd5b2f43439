import RasatTrading.Errors

/-! The audit table with its hash chain, as `AuditLog` appends to it and verifies it. -/

namespace Rasat

/-- One row of the audit table. -/
structure AuditRow where
  seq : Nat
  actor : String
  action : String
  details : String
  prevHash : String
  hash : String
  createdAt : Int
  deriving DecidableEq, Repr

def genesisHash : String := "GENESIS"

/-- The hash of one row, over the hash of the row before it. -/
def hashEntry (sha256Hex : String → String) (prevHash : String) (seq : Nat)
    (actor action detailsJson : String) (createdAt : Int) : String :=
  sha256Hex s!"{prevHash}|{seq}|{actor}|{action}|{detailsJson}|{createdAt}"

/-- The rows in the order of their numbers. -/
def orderBySeq (rows : List AuditRow) : List AuditRow :=
  rows.mergeSort fun left right => decide (left.seq ≤ right.seq)

/-- Store a row; the number column is unique. -/
def insertAuditRow (rows : List AuditRow) (row : AuditRow) : Except Exc (List AuditRow) :=
  if rows.any fun stored => stored.seq == row.seq then
    .error (.integrity "UNIQUE constraint failed: audit_log.seq")
  else
    .ok (rows ++ [row])

/-- Append inside an open transaction; encoding the details may raise. -/
def appendInConnection (sha256Hex : String → String) (rows : List AuditRow) (actor action : String)
    (details : Except Exc String) (now : Int) : Except Exc (Nat × List AuditRow) := do
  -- The row with the highest number gives the predecessor, an empty table none.
  let last := (orderBySeq rows).getLast?
  let prevSeq := (last.map (·.seq)).getD 0
  let prevHash := (last.map (·.hash)).getD genesisHash
  let seq := prevSeq + 1
  let detailsJson ← details
  let stored ← insertAuditRow rows {
    seq := seq
    actor := actor
    action := action
    details := detailsJson
    prevHash := prevHash
    hash := hashEntry sha256Hex prevHash seq actor action detailsJson now
    createdAt := now }
  pure (seq, stored)

/-- One finding of the verification. -/
structure BrokenRow where
  seq : Nat
  reason : String
  deriving DecidableEq, Repr

/-- What is wrong with one row after a row with the given number and hash. -/
def verifyRow (sha256Hex : String → String) (prevSeq : Nat) (prevHash : String) (row : AuditRow) :
    List BrokenRow :=
  let expected :=
    hashEntry sha256Hex prevHash row.seq row.actor row.action row.details row.createdAt
  (if row.seq ≠ prevSeq + 1 then
      [⟨row.seq, s!"sequence gap/deletion (expected {prevSeq + 1})"⟩] else []) ++
    (if row.prevHash ≠ prevHash then [⟨row.seq, "chain break (prev_hash mismatch)"⟩] else []) ++
    (if row.hash ≠ expected then [⟨row.seq, "hash mismatch (row changed)"⟩] else [])

/-- The findings on the rows after a given number and hash; broken rows are followed too. -/
def verifyFrom (sha256Hex : String → String) : Nat → String → List AuditRow → List BrokenRow
  | _, _, [] => []
  | prevSeq, prevHash, row :: rest =>
    verifyRow sha256Hex prevSeq prevHash row ++ verifyFrom sha256Hex row.seq row.hash rest

/-- The broken rows of the table, none when the chain is intact. -/
def verify (sha256Hex : String → String) (rows : List AuditRow) : List BrokenRow :=
  verifyFrom sha256Hex 0 genesisHash (orderBySeq rows)

end Rasat
