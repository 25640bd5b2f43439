import RasatTrading.Lock.Manager
import RasatTrading.Transition.Runs

/-! What one move can do to the lock file and to the locks that live processes hold. -/

namespace Rasat

/-- The lock whose file a process has created and neither released nor given up. -/
def Phase.claim : Phase → Option LockInfo
  | .writing info | .holding info | .replacing info | .leaving info | .removing info => some info
  | _ => none

/-- The next operation is one of the removals of `acquire`. -/
def Phase.clears : Phase → Bool
  | .clearing _ | .evicting _ => true
  | _ => false

/-- The lock in whose name `update_state` replaces or `release` removes the file next. -/
def Phase.displaces : Phase → Option LockInfo
  | .replacing info | .removing info => some info
  | _ => none

/-- The phases of `acquire` in which the file is only looked at. -/
def Phase.looks : Phase → Bool
  | .reading _ | .checking _ | .rereading _ _ | .judging _ _ => true
  | _ => false

namespace LockWorld

/-- The locks of all live processes, with the indexes of these processes. -/
def claims (world : LockWorld) : List (Nat × LockInfo) :=
  (List.range world.procs.length).filterMap fun index =>
    (world.running index).bind fun self => self.phase.claim.map (Prod.mk index)

/-- The nonce of the lock for which the file under the path was made. -/
def pathNonce (world : LockWorld) : Option Nat := world.path.map LockFile.nonce

/-- The move removes the file under the path, in `acquire` or from outside. -/
def clears (world : LockWorld) : LockMove → Bool
  | .operate index _ => (world.running index).any fun self => self.phase.clears
  | .delete => true
  | _ => false

/-- The process and the lock in whose name the move replaces or removes the file under the path. -/
def displaces (world : LockWorld) : LockMove → Option (Nat × LockInfo)
  | .operate index _ =>
    (world.running index).bind fun self => self.phase.displaces.map (Prod.mk index)
  | _ => none

variable {world after : LockWorld} {index : Nat} {self : Process} {info : LockInfo}

/-- A process that runs is in the list. -/
theorem running_lt (running : world.running index = some self) : index < world.procs.length := by
  obtain ⟨listed, -⟩ := Option.filter_eq_some_iff.mp running
  exact (List.getElem?_eq_some_iff.mp listed).1

/-- The locks are those of the live processes. -/
theorem mem_claims : (index, info) ∈ world.claims ↔
    ∃ self, world.running index = some self ∧ self.phase.claim = some info := by
  unfold claims
  constructor
  · intro member
    obtain ⟨number, -, found⟩ := List.mem_filterMap.mp member
    obtain ⟨self, running, claimed⟩ := Option.bind_eq_some_iff.mp found
    obtain ⟨held, claim, same⟩ := Option.map_eq_some_iff.mp claimed
    cases same
    exact ⟨self, running, claim⟩
  · rintro ⟨self, running, claim⟩
    refine List.mem_filterMap.mpr ⟨index, List.mem_range.mpr (running_lt running), ?_⟩
    simp [running, claim]

variable {other : Process}

/-- A process put in the place of a running one runs there, and nothing else changes. -/
theorem running_set (running : world.running index = some self) (wanted : Nat) :
    LockWorld.running { world with procs := world.procs.set index other } wanted =
      if wanted = index then (some other).filter Process.alive else world.running wanted := by
  have inside := running_lt running
  unfold LockWorld.running
  by_cases same : wanted = index
  · subst same
    simp [inside]
  · have differs : ¬index = wanted := fun equal => same equal.symm
    simp [differs, same]

/-- The locks behind a change of one running process: its own one, and those of the others. -/
theorem mem_claims_set {number : Nat} (running : world.running index = some self) :
    (number, info) ∈ LockWorld.claims { world with procs := world.procs.set index other } ↔
      if number = index then other.alive ∧ other.phase.claim = some info else (number, info) ∈ world.claims := by
  rw [mem_claims]
  simp only [running_set running]
  split_ifs with same
  · simp [Option.filter_eq_some_iff, and_assoc]
  · rw [mem_claims]

/-- Every later lock is an earlier one of the same process. -/
def Shrinks (before after : List (Nat × LockInfo)) : Prop :=
  ∀ claim ∈ after, ∃ old ∈ before, old.1 = claim.1 ∧ old.2.nonce = claim.2.nonce

/-- The same locks are no more locks. -/
theorem Shrinks.refl (claims : List (Nat × LockInfo)) : Shrinks claims claims :=
  fun claim member => ⟨claim, member, rfl, rfl⟩

/-- A process that takes up no new lock adds none. -/
theorem shrinks_set (running : world.running index = some self)
    (keeps : ∀ info, other.alive → other.phase.claim = some info →
      ∃ old, self.phase.claim = some old ∧ old.nonce = info.nonce) :
    Shrinks world.claims
      (LockWorld.claims { world with procs := world.procs.set index other }) := by
  rintro ⟨number, info⟩ member
  rw [mem_claims_set running] at member
  split_ifs at member with same
  · -- The lock is that of the process that moved.
    obtain ⟨old, claim, nonce⟩ := keeps info member.1 member.2
    exact ⟨(index, old), mem_claims.mpr ⟨self, running, claim⟩, same.symm, nonce⟩
  · exact ⟨(number, info), member, rfl, rfl⟩

/-- What one move does to the file under the path and to the locks. -/
inductive Effect (world : LockWorld) (move : LockMove) (after : LockWorld) : Prop
  /-- The path keeps its file. -/
  | keeps (path : after.pathNonce = world.pathNonce) (fresh : world.fresh ≤ after.fresh)
      (claims : Shrinks world.claims after.claims)
  /-- A process creates the file of a new lock. -/
  | creates (index : Nat) (free : world.path = none) (path : after.pathNonce = some world.fresh)
      (fresh : after.fresh = world.fresh + 1)
      (claims : ∀ claim ∈ after.claims, (claim.1 = index ∧ claim.2.nonce = world.fresh) ∨
        ∃ old ∈ world.claims, old.1 = claim.1 ∧ old.2.nonce = claim.2.nonce)
  /-- The file is removed by an `acquire` or from outside. -/
  | clears (removal : world.clears move = true) (path : after.pathNonce = none)
      (fresh : after.fresh = world.fresh) (claims : Shrinks world.claims after.claims)
  /-- `release` removes the file. -/
  | withdraws (index : Nat) (info : LockInfo) (removal : world.displaces move = some (index, info))
      (own : (index, info) ∈ world.claims) (path : after.pathNonce = none)
      (fresh : after.fresh = world.fresh) (claims : Shrinks world.claims after.claims)
      (gone : ∀ claim ∈ after.claims, claim.1 ≠ index)
  /-- `update_state` replaces the file. -/
  | replaces (index : Nat) (info : LockInfo) (removal : world.displaces move = some (index, info))
      (own : (index, info) ∈ world.claims) (path : after.pathNonce = some info.nonce)
      (fresh : after.fresh = world.fresh) (claims : Shrinks world.claims after.claims)

/-- A process that changes its phase and no lock leaves the path alone. -/
theorem effect_phase {move : LockMove} {phase : Phase} (running : world.running index = some self)
    (keeps : ∀ info, phase.claim = some info →
      ∃ old, self.phase.claim = some old ∧ old.nonce = info.nonce) :
    Effect world move (world.setPhase index self phase) :=
  .keeps rfl le_rfl (shrinks_set running fun info _ claimed => keeps info claimed)

/-- A look leaves the file as it is, and no lock behind. -/
theorem operate_looks {choice : LockChoice} {phase : Phase} {operated : Operated} (looks : phase.looks = true)
    (done : world.operate self choice phase = some operated) :
    operated.1.claim = none ∧ operated.2 = (world.path, world.fresh) := by
  -- Each of these operations only decides the next phase.
  cases phase with
  | reading tries =>
    cases tries with
    | zero =>
      cases done
      exact ⟨rfl, rfl⟩
    | succ tries =>
      simp only [LockWorld.operate] at done
      split at done
      · cases done
        exact ⟨rfl, rfl⟩
      · cases done
        exact ⟨rfl, rfl⟩
  | checking tries =>
    simp only [LockWorld.operate] at done
    split at done
    · cases done
      exact ⟨rfl, rfl⟩
    · cases done
      exact ⟨rfl, rfl⟩
  | rereading tries left =>
    simp only [LockWorld.operate] at done
    split at done
    · cases done
      exact ⟨rfl, rfl⟩
    · split at done
      · cases done
        exact ⟨rfl, rfl⟩
      · cases done
        exact ⟨rfl, rfl⟩
  | judging tries existing =>
    simp only [LockWorld.operate] at done
    split at done
    · cases done
      exact ⟨rfl, rfl⟩
    · cases done
      exact ⟨rfl, rfl⟩
  | outside | holding _ | clearing _ | evicting _ | creating _ | writing _ | replacing _ | leaving _ | removing _ =>
    cases looks

/-- Writing the content of a file changes no label. -/
theorem pathNonce_written (path : Option LockFile) (info : LockInfo) :
    (path.map fun file => if file.nonce = info.nonce then { file with content := some info } else file).map
      LockFile.nonce = path.map LockFile.nonce := by
  cases path with
  | none => rfl
  | some file =>
    by_cases own : file.nonce = info.nonce
    · simp [own]
    · simp [own]

/-- An operation has one of the five effects. -/
theorem operate_effect {choice : LockChoice} {operated : Operated} (running : world.running index = some self)
    (done : world.operate self choice self.phase = some operated) :
    Effect world (.operate index choice)
      { world.setPhase index self operated.1 with path := operated.2.1, fresh := operated.2.2 } := by
  -- The phases without a lock behind them add none.
  have shrinks : ∀ phase : Phase,
      (∀ info, phase.claim = some info →
        ∃ old, self.phase.claim = some old ∧ old.nonce = info.nonce) →
      Shrinks world.claims (world.setPhase index self phase).claims :=
    fun phase keeps => shrinks_set running fun info _ claimed => keeps info claimed
  have looked (looks : self.phase.looks = true) : Effect world (.operate index choice)
      { world.setPhase index self operated.1 with path := operated.2.1, fresh := operated.2.2 } := by
    obtain ⟨none, same⟩ := operate_looks looks done
    rw [same]
    exact .keeps rfl le_rfl (shrinks operated.1 (by simp [none]))
  cases at_ : self.phase with
  | outside => simp [at_, LockWorld.operate] at done
  | holding info => simp [at_, LockWorld.operate] at done
  | reading _ | checking _ | rereading _ _ | judging _ _ => exact looked (by rw [at_]; rfl)
  | clearing tries =>
    rw [at_] at done
    cases done
    refine .clears ?_ rfl rfl (shrinks _ (by simp [Phase.claim]))
    simp [LockWorld.clears, running, at_, Phase.clears]
  | evicting tries =>
    rw [at_] at done
    cases done
    refine .clears ?_ rfl rfl (shrinks _ (by simp [Phase.claim]))
    simp [LockWorld.clears, running, at_, Phase.clears]
  | creating tries =>
    rw [at_] at done
    simp only [LockWorld.operate] at done
    split at done
    · -- The file exists, so nothing is created.
      rename_i file there
      cases done
      refine .keeps ?_ (Nat.le_succ _) (shrinks _ (by simp [Phase.claim]))
      simp [LockWorld.pathNonce, there]
    · rename_i free
      cases done
      refine .creates index free rfl rfl ?_
      rintro ⟨number, info⟩ member
      have claimed := (mem_claims_set running).mp member
      split_ifs at claimed with same
      · obtain rfl := Option.some.inj claimed.2
        exact .inl ⟨same, rfl⟩
      · exact .inr ⟨(number, info), claimed, rfl, rfl⟩
  | writing info =>
    rw [at_] at done
    cases done
    exact .keeps (pathNonce_written world.path info) le_rfl (shrinks _ (by simp [Phase.claim, at_]))
  | replacing info =>
    rw [at_] at done
    cases done
    refine .replaces index info ?_ ?_ rfl rfl (shrinks _ (by simp [Phase.claim, at_]))
    · simp [LockWorld.displaces, running, at_, Phase.displaces]
    · exact mem_claims.mpr ⟨self, running, by simp [at_, Phase.claim]⟩
  | leaving info =>
    rw [at_] at done
    simp only [LockWorld.operate] at done
    -- The file is removed only when it is still that of the lock.
    split at done
    · split at done
      · cases done
        exact .keeps rfl le_rfl (shrinks _ (by simp [Phase.claim, at_]))
      · cases done
        exact .keeps rfl le_rfl (shrinks _ (by simp [Phase.claim]))
    · cases done
      exact .keeps rfl le_rfl (shrinks _ (by simp [Phase.claim]))
  | removing info =>
    rw [at_] at done
    cases done
    refine .withdraws index info ?_ ?_ rfl rfl (shrinks _ (by simp [Phase.claim])) ?_
    · simp [LockWorld.displaces, running, at_, Phase.displaces]
    · exact mem_claims.mpr ⟨self, running, by simp [at_, Phase.claim]⟩
    · rintro ⟨number, held⟩ member same
      have claimed := (mem_claims_set running).mp member
      rw [if_pos same] at claimed
      simp [Phase.claim] at claimed

/-- An error raised by an operation takes up no new lock. -/
theorem claim_faulted {phase failed : Phase} (faults : phase.faulted = some failed)
    (claimed : failed.claim = some info) :
    ∃ old, phase.claim = some old ∧ old.nonce = info.nonce := by
  cases phase <;> simp_all [Phase.faulted, Phase.claim] <;> subst faults <;> simp_all

/-- Every move has one of the five effects. -/
theorem step_effect {move : LockMove} (moved : world.step move = some after) : Effect world move after := by
  cases move with
  | spawn pid startTime =>
    simp only [LockWorld.step] at moved
    split_ifs at moved
    cases moved
    refine .keeps rfl le_rfl ?_
    rintro ⟨number, info⟩ member
    obtain ⟨found, runs, claimed⟩ := mem_claims.mp member
    -- A new process has no lock, so this one ran before.
    have old : world.running number = some found := by
      unfold LockWorld.running at runs ⊢
      by_cases inside : number < world.procs.length
      · rwa [List.getElem?_append_left inside] at runs
      · rw [List.getElem?_append_right (Nat.le_of_not_lt inside)] at runs
        obtain ⟨new, -⟩ := Option.filter_eq_some_iff.mp runs
        obtain rfl := List.mem_singleton.mp (List.mem_of_getElem? new)
        simp [Phase.claim] at claimed
    exact ⟨(number, info), mem_claims.mpr ⟨found, old, claimed⟩, rfl, rfl⟩
  | die index =>
    obtain ⟨self, running, same⟩ := Option.bind_eq_some_iff.mp moved
    cases same
    exact .keeps rfl le_rfl (shrinks_set running (by simp))
  | acquire index maxRetries =>
    obtain ⟨self, running, rest⟩ := Option.bind_eq_some_iff.mp moved
    obtain ⟨-, -, same⟩ := Option.bind_eq_some_iff.mp rest
    cases same
    exact effect_phase running (by simp [Phase.claim])
  | operate index choice =>
    obtain ⟨self, running, rest⟩ := Option.bind_eq_some_iff.mp moved
    obtain ⟨⟨phase, path, fresh⟩, done, same⟩ := Option.bind_eq_some_iff.mp rest
    cases same
    exact operate_effect running done
  | fault index =>
    obtain ⟨self, running, rest⟩ := Option.bind_eq_some_iff.mp moved
    obtain ⟨phase, faults, same⟩ := Option.bind_eq_some_iff.mp rest
    cases same
    exact effect_phase running fun info claimed => claim_faulted faults claimed
  | updateState index state =>
    obtain ⟨self, running, rest⟩ := Option.bind_eq_some_iff.mp moved
    split at rest
    · rename_i info held
      cases rest
      exact effect_phase running (by simp [Phase.claim, held])
    · contradiction
  | release index =>
    obtain ⟨self, running, rest⟩ := Option.bind_eq_some_iff.mp moved
    split at rest
    · rename_i info held
      cases rest
      exact effect_phase running (by simp [Phase.claim, held])
    · contradiction
  | delete =>
    cases moved
    exact .clears rfl rfl rfl (.refl _)

end LockWorld

end Rasat
