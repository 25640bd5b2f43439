import Mathlib.Data.Rat.Defs
import Mathlib.Algebra.Order.Ring.Rat
import Mathlib.Algebra.Order.Group.Unbundled.Abs

/-! The lock file, the processes around it, and the judgement whether its owner is alive. -/

namespace Rasat

/-- What the lock file says about its owner. -/
structure LockInfo where
  pid : Int
  startTime : ℚ
  /-- The random nonces, as numbers in the order in which they are drawn. -/
  nonce : Nat
  state : String
  deriving DecidableEq

/-- A file under the lock path. -/
structure LockFile where
  /-- The nonce of the lock for which the file was made; no lock has the nonce 0. -/
  nonce : Nat
  /-- What can be read from it; nothing while it is corrupt or not yet written. -/
  content : Option LockInfo
  deriving DecidableEq

/-- `read_lock`. -/
def readLock (path : Option LockFile) : Option LockInfo := path.bind LockFile.content

/-- Where a lock manager stands between two operations on the lock path. -/
inductive Phase
  /-- No acquisition is under way and no lock is held. -/
  | outside
  /-- At the top of the loop of `acquire`. -/
  | reading (tries : Nat)
  /-- Nothing was read; next `exists()`. -/
  | checking (tries : Nat)
  /-- The file is there but unreadable, and is read again. -/
  | rereading (tries left : Nat)
  /-- Next the unreadable file is removed. -/
  | clearing (tries : Nat)
  /-- Next the owner is judged. -/
  | judging (tries : Nat) (existing : LockInfo)
  /-- Next the file of the dead owner is removed. -/
  | evicting (tries : Nat)
  /-- Next the file is created with `O_EXCL`. -/
  | creating (tries : Nat)
  /-- The file is created; next its content is written. -/
  | writing (info : LockInfo)
  /-- `acquire` has returned. -/
  | holding (info : LockInfo)
  /-- `update_state` has been called; next the file is replaced. -/
  | replacing (info : LockInfo)
  /-- `release` has been called; next the file is read. -/
  | leaving (info : LockInfo)
  /-- `release` has read its own lock; next the file is removed. -/
  | removing (info : LockInfo)
  deriving DecidableEq

/-- A process with its lock manager. -/
structure Process where
  pid : Int
  startTime : ℚ
  alive : Bool := true
  phase : Phase := .outside
  deriving DecidableEq

/-- `pid_alive`, as far as the process list answers. -/
def pidAlive (procs : List Process) (pid : Int) : Bool :=
  decide (0 < pid) && procs.any fun process => process.alive && process.pid == pid

/-- `owner_alive`; a `psutil` call that fails counts as a dead owner. -/
def ownerAlive (procs : List Process) (psutilFails : Bool) (info : LockInfo) : Bool :=
  if info.pid ≤ 0 then false
  else if psutilFails || !pidAlive procs info.pid then false
  else
    match procs.find? fun process => process.alive && process.pid == info.pid with
    | some actual => decide (|actual.startTime - info.startTime| < 2)
    | none => false

end Rasat

/-! The lock managers of any number of processes over one lock path. -/

namespace Rasat

/-- The lock path with all processes, and the next nonce. -/
structure LockWorld where
  path : Option LockFile
  procs : List Process
  fresh : Nat
  deriving DecidableEq

/-- The start: whatever is under the path, and no process yet. -/
def LockWorld.initial (content : Option (Option LockInfo)) : LockWorld :=
  ⟨content.map (LockFile.mk 0), [], 1⟩

/-- What the surroundings decide at one operation. -/
structure LockChoice where
  /-- The `psutil` calls of `owner_alive` fail. -/
  psutilFails : Bool := false
  /-- The time that stands in for the start time when `psutil` cannot tell it. -/
  clock : Option ℚ := none
  deriving DecidableEq

/-- What one operation leaves: the next phase, the file under the path, the next nonce. -/
abbrev Operated := Phase × Option LockFile × Nat

/-- `LockInfo.create` in a process. -/
def Process.createInfo (self : Process) (choice : LockChoice) (nonce : Nat) : LockInfo :=
  ⟨self.pid, choice.clock.getD self.startTime, nonce, "starting"⟩

/-- The next operation of `acquire`, `update_state` or `release`. -/
def LockWorld.operate (world : LockWorld) (self : Process) (choice : LockChoice) :
    Phase → Option Operated
  | .outside | .holding _ => none
  -- All tries are used up: the lock counts as held.
  | .reading 0 => some (.outside, world.path, world.fresh)
  | .reading (tries + 1) =>
    match readLock world.path with
    | some existing => some (.judging tries existing, world.path, world.fresh)
    | none => some (.checking tries, world.path, world.fresh)
  | .checking tries =>
    if world.path.isSome then some (.rereading tries 3, world.path, world.fresh)
    else some (.creating tries, world.path, world.fresh)
  | .rereading tries left =>
    match readLock world.path with
    | some existing => some (.judging tries existing, world.path, world.fresh)
    | none =>
      if left ≤ 1 then some (.clearing tries, world.path, world.fresh)
      else some (.rereading tries (left - 1), world.path, world.fresh)
  | .clearing tries => some (.creating tries, none, world.fresh)
  | .judging tries existing =>
    -- A live owner makes `acquire` raise `LockHeldError`.
    if ownerAlive world.procs choice.psutilFails existing then
      some (.outside, world.path, world.fresh)
    else some (.evicting tries, world.path, world.fresh)
  | .evicting tries => some (.reading tries, none, world.fresh)
  | .creating tries =>
    match world.path with
    | some file => some (.reading tries, some file, world.fresh + 1)
    | none =>
      some (.writing (self.createInfo choice world.fresh), some ⟨world.fresh, none⟩,
        world.fresh + 1)
  | .writing info =>
    -- The content goes into the created file, which may no longer be the one under the path.
    let written := world.path.map fun file =>
      if file.nonce = info.nonce then { file with content := some info } else file
    some (.holding info, written, world.fresh)
  | .replacing info => some (.holding info, some ⟨info.nonce, some info⟩, world.fresh)
  | .leaving info =>
    match readLock world.path with
    | some current =>
      if current.pid = info.pid ∧ current.nonce = info.nonce then
        some (.removing info, world.path, world.fresh)
      else some (.outside, world.path, world.fresh)
    | none => some (.outside, world.path, world.fresh)
  | .removing _ => some (.outside, none, world.fresh)

/-- The phase in which a raised `OSError` leaves the manager. -/
def Phase.faulted : Phase → Option Phase
  | .outside | .holding _ => none
  | .replacing info | .leaving info | .removing info => some (.holding info)
  | _ => some .outside

/-- One move of the processes or of their surroundings. -/
inductive LockMove
  | spawn (pid : Int) (startTime : ℚ)
  | die (index : Nat)
  /-- A call of `acquire`. -/
  | acquire (index maxRetries : Nat)
  /-- The operation at hand is carried out. -/
  | operate (index : Nat) (choice : LockChoice)
  /-- The operation at hand raises. -/
  | fault (index : Nat)
  /-- A call of `update_state`. -/
  | updateState (index : Nat) (state : String)
  /-- A call of `release`. -/
  | release (index : Nat)
  /-- Someone else deletes the lock file. -/
  | delete
  deriving DecidableEq

/-- The live process of an index. -/
def LockWorld.running (world : LockWorld) (index : Nat) : Option Process :=
  world.procs[index]?.filter Process.alive

/-- The world with another phase of one process. -/
def LockWorld.setPhase (world : LockWorld) (index : Nat) (self : Process) (phase : Phase) :
    LockWorld :=
  { world with procs := world.procs.set index { self with phase := phase } }

/-- Carry out one move, if it can be made. -/
def LockWorld.step (world : LockWorld) : LockMove → Option LockWorld
  | .spawn pid startTime =>
    -- The system gives no process the number of a running one.
    if pid ≤ 0 ∨ pidAlive world.procs pid then none
    else some { world with procs := world.procs ++ [{ pid, startTime }] }
  | .die index => do
    let self ← world.running index
    return { world with procs := world.procs.set index { self with alive := false } }
  | .acquire index maxRetries => do
    let self ← world.running index
    guard (self.phase = .outside)
    return world.setPhase index self (.reading maxRetries)
  | .operate index choice => do
    let self ← world.running index
    let (phase, path, fresh) ← world.operate self choice self.phase
    return { world.setPhase index self phase with path, fresh }
  | .fault index => do
    let self ← world.running index
    let phase ← self.phase.faulted
    return world.setPhase index self phase
  | .updateState index state => do
    let self ← world.running index
    match self.phase with
    | .holding info => return world.setPhase index self (.replacing { info with state := state })
    | _ => none
  | .release index => do
    let self ← world.running index
    match self.phase with
    | .holding info => return world.setPhase index self (.leaving info)
    | _ => none
  | .delete => some { world with path := none }

end Rasat
