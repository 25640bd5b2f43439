import RasatTrading.Lock.Effects

/-! How many daemons hold the lock, and whose lock file they touch. -/

namespace Rasat

open Transition

/-- `acquire` has returned and the lock is not yet released. -/
def Phase.returned : Phase → Bool
  | .holding _ | .replacing _ | .leaving _ | .removing _ => true
  | _ => false

namespace LockWorld

/-- The live process of this index has acquired the lock and has not released it. -/
def Holds (world : LockWorld) (index : Nat) : Prop :=
  ∃ self, world.running index = some self ∧ self.phase.returned

/-- At most one live process has the lock. -/
def SingleDaemon (world : LockWorld) : Prop :=
  ∀ first second, world.Holds first → world.Holds second → first = second

/-- A removal by `acquire`, or from outside, does not hit the file that a live process has created
for a lock which it has neither released nor given up. -/
def Spares (world : LockWorld) (move : LockMove) : Prop :=
  world.clears move = true → ∀ claim ∈ world.claims, world.pathNonce ≠ some claim.2.nonce

instance (world : LockWorld) (move : LockMove) : Decidable (world.Spares move) :=
  inferInstanceAs (Decidable (_ → _))

/-- When `update_state` replaces or `release` removes the file, no other live process has created
the file of a lock since, that it has neither released nor given up. -/
def NoSuccessor (world : LockWorld) (move : LockMove) : Prop :=
  ∀ own ∈ world.displaces move, ∀ claim ∈ world.claims,
    claim.1 ≠ own.1 → claim.2.nonce < own.2.nonce

instance (world : LockWorld) (move : LockMove) : Decidable (world.NoSuccessor move) :=
  inferInstanceAs (Decidable (∀ own ∈ world.displaces move, _))

/-- The move is a replacement by `update_state` or a removal by `release`, and what it hits is the
file of a lock that another live process has. -/
def HitsSuccessor (world : LockWorld) (move : LockMove) : Prop :=
  ∃ own ∈ world.displaces move, ∃ claim ∈ world.claims,
    claim.1 ≠ own.1 ∧ world.pathNonce = some claim.2.nonce

/-- Nonces are drawn in order, and no two live processes have the same one. -/
structure Numbered (world : LockWorld) : Prop where
  path : ∀ nonce, world.pathNonce = some nonce → nonce < world.fresh
  claims : ∀ claim ∈ world.claims, claim.2.nonce < world.fresh
  apart : ∀ first ∈ world.claims, ∀ second ∈ world.claims,
    first.2.nonce = second.2.nonce → first.1 = second.1

variable {world after : LockWorld} {move : LockMove} {content : Option (Option LockInfo)}

/-- At the start no process has a lock. -/
theorem initial_numbered : (initial content).Numbered := by
  refine ⟨?_, ?_, ?_⟩
  · intro nonce labelled
    cases content with
    | none => simp [initial, pathNonce] at labelled
    | some info =>
      obtain rfl : 0 = nonce := by simpa [initial, pathNonce] using labelled
      exact Nat.zero_lt_one
  · simp [initial, claims]
  · simp [initial, claims]

/-- Fewer locks under the same nonces stay numbered. -/
theorem Numbered.shrink (numbered : world.Numbered) (fresh : world.fresh ≤ after.fresh)
    (path : ∀ nonce, after.pathNonce = some nonce → nonce < after.fresh)
    (claims : Shrinks world.claims after.claims) : after.Numbered := by
  refine ⟨path, ?_, ?_⟩
  · intro claim member
    obtain ⟨old, was, -, nonce⟩ := claims claim member
    exact nonce ▸ lt_of_lt_of_le (numbered.claims old was) fresh
  · intro first one second two same
    obtain ⟨oldFirst, wasFirst, firstIndex, firstNonce⟩ := claims first one
    obtain ⟨oldSecond, wasSecond, secondIndex, secondNonce⟩ := claims second two
    rw [← firstIndex, ← secondIndex]
    exact numbered.apart oldFirst wasFirst oldSecond wasSecond
      (firstNonce.trans (same.trans secondNonce.symm))

/-- Every move keeps the numbering. -/
theorem Numbered.step (numbered : world.Numbered) (moved : world.step move = some after) : after.Numbered := by
  cases step_effect moved with
  | keeps path fresh claims =>
    refine numbered.shrink fresh (fun nonce labelled => ?_) claims
    exact lt_of_lt_of_le (numbered.path nonce (path ▸ labelled)) fresh
  | creates index free path fresh claims =>
    refine ⟨?_, ?_, ?_⟩
    · intro nonce labelled
      obtain rfl : world.fresh = nonce := by simpa [path] using labelled
      rw [fresh]
      exact Nat.lt_succ_self _
    · intro claim member
      rw [fresh]
      rcases claims claim member with ⟨-, new⟩ | ⟨old, was, -, nonce⟩
      · omega
      · have below := numbered.claims old was
        omega
    · -- The new lock has a nonce above all others.
      intro first one second two same
      rcases claims first one with ⟨here, new⟩ | ⟨oldFirst, wasFirst, firstIndex, firstNonce⟩
      · rcases claims second two with ⟨there, -⟩ | ⟨oldSecond, wasSecond, -, secondNonce⟩
        · rw [here, there]
        · have below := numbered.claims oldSecond wasSecond
          omega
      · rcases claims second two with ⟨-, new⟩ | ⟨oldSecond, wasSecond, secondIndex, secondNonce⟩
        · have below := numbered.claims oldFirst wasFirst
          omega
        · rw [← firstIndex, ← secondIndex]
          exact numbered.apart oldFirst wasFirst oldSecond wasSecond
            (firstNonce.trans (same.trans secondNonce.symm))
  | clears removal path fresh claims =>
    exact numbered.shrink fresh.ge (by simp [path]) claims
  | withdraws index info removal own path fresh claims gone =>
    exact numbered.shrink fresh.ge (by simp [path]) claims
  | replaces index info removal own path fresh claims =>
    refine numbered.shrink fresh.ge (fun nonce labelled => ?_) claims
    obtain rfl : info.nonce = nonce := by simpa [path] using labelled
    rw [fresh]
    exact numbered.claims (index, info) own

/-- The file under the path is that of every lock there is. -/
structure Guarded (world : LockWorld) : Prop where
  numbered : world.Numbered
  present : ∀ claim ∈ world.claims, world.pathNonce = some claim.2.nonce

/-- Where the path has the file of every lock, there is only one lock. -/
theorem Guarded.index_eq (guarded : world.Guarded) {first second : Nat × LockInfo}
    (one : first ∈ world.claims) (two : second ∈ world.claims) : first.1 = second.1 := by
  have same := (guarded.present first one).symm.trans (guarded.present second two)
  exact guarded.numbered.apart first one second two (Option.some.inj same)

/-- A move that spares the files of live processes keeps them under the path. -/
theorem Guarded.step (guarded : world.Guarded) (spares : world.Spares move)
    (moved : world.step move = some after) : after.Guarded := by
  refine ⟨guarded.numbered.step moved, ?_⟩
  intro claim member
  cases step_effect moved with
  | keeps path fresh claims =>
    obtain ⟨old, was, -, nonce⟩ := claims claim member
    rw [path, guarded.present old was, nonce]
  | creates index free path fresh claims =>
    rcases claims claim member with ⟨-, new⟩ | ⟨old, was, -, -⟩
    · rw [path, new]
    · -- Nothing is created while a lock is there.
      have there := guarded.present old was
      simp [pathNonce, free] at there
  | clears removal path fresh claims =>
    obtain ⟨old, was, -, -⟩ := claims claim member
    exact absurd (guarded.present old was) (spares removal old was)
  | withdraws index info removal own path fresh claims gone =>
    obtain ⟨old, was, same, -⟩ := claims claim member
    exact absurd (same.symm.trans (guarded.index_eq was own)) (gone claim member)
  | replaces index info removal own path fresh claims =>
    obtain ⟨old, was, -, nonce⟩ := claims claim member
    have shared := (guarded.present old was).symm.trans (guarded.present (index, info) own)
    rw [path, ← nonce]
    exact shared.symm

/-- A process that holds the lock has a lock. -/
theorem Holds.claim {index : Nat} (holds : world.Holds index) : ∃ info, (index, info) ∈ world.claims := by
  obtain ⟨self, running, returned⟩ := holds
  have claimed : ∃ info, self.phase.claim = some info := by
    cases at_ : self.phase <;> simp_all [Phase.returned, Phase.claim]
  obtain ⟨info, claim⟩ := claimed
  exact ⟨info, mem_claims.mpr ⟨self, running, claim⟩⟩

/-- Whatever is under the path at first, in a run in which every removal by `acquire`, or from
outside, spares the files of live processes, at most one of them ever has the lock. -/
theorem single_daemon (reached : Reach step Spares (initial content) world) : world.SingleDaemon := by
  have guarded : world.Guarded := by
    refine reached.invariant ⟨initial_numbered, ?_⟩ ?_
    · simp [initial, claims]
    · intro before after move inv spares moved
      exact inv.step spares moved
  intro first second one two
  obtain ⟨firstInfo, firstClaim⟩ := one.claim
  obtain ⟨secondInfo, secondClaim⟩ := two.claim
  exact guarded.index_eq firstClaim secondClaim

/-- A lock that a process left behind when it died. -/
def staleLock : LockInfo := ⟨41, 5, 0, "ready"⟩

/-- Two processes start, and both call `acquire`. -/
def twoStarters : List LockMove :=
  [.spawn 70 100, .spawn 71 101, .acquire 0 5, .acquire 1 5]

/-- One operation, with `psutil` answering. -/
def operation (index : Nat) : LockMove := .operate index {}

/-- One starter reads, judges and removes the stale lock, and creates its own; then the other one
reads, and finds a live owner. -/
def orderlyTakeover : List LockMove :=
  twoStarters ++ [operation 0, operation 0, operation 0, operation 0, operation 0, operation 0,
    operation 0, operation 1, operation 1]

/-- Both starters judge the stale lock; one removes it and creates its own, which the other one
removes to create another. -/
def crossedTakeover : List LockMove :=
  twoStarters ++ [operation 0, operation 1, operation 0, operation 1,
    operation 1, operation 1, operation 1, operation 1, operation 1,
    operation 0, operation 0, operation 0, operation 0, operation 0]

/-- Where the orderly takeover ends. -/
def takenOver : LockWorld :=
  ⟨some ⟨1, some ⟨70, 100, 1, "starting"⟩⟩,
    [⟨70, 100, true, .holding ⟨70, 100, 1, "starting"⟩⟩, ⟨71, 101, true, .outside⟩], 2⟩

/-- Where the crossed takeover ends. -/
def doubled : LockWorld :=
  ⟨some ⟨2, some ⟨70, 100, 2, "starting"⟩⟩,
    [⟨70, 100, true, .holding ⟨70, 100, 2, "starting"⟩⟩,
      ⟨71, 101, true, .holding ⟨71, 101, 1, "starting"⟩⟩], 3⟩

/-- After the orderly takeover one process has the lock. -/
theorem orderly_takeover_single :
    run step Spares (initial (some (some staleLock))) orderlyTakeover = some takenOver ∧
      takenOver.Holds 0 ∧ takenOver.SingleDaemon := by
  have ran : run step Spares (initial (some (some staleLock))) orderlyTakeover =
      some takenOver := by decide +kernel
  have reached : Reach step Spares (initial (some (some staleLock))) takenOver := reach_run ran
  refine ⟨ran, ?_, ?_⟩
  · exact ⟨_, rfl, rfl⟩
  · exact single_daemon reached

/-- After the crossed takeover two live processes have acquired the lock and not released it. -/
theorem crossed_takeover_doubles :
    run step (fun _ _ => True) (initial (some (some staleLock))) crossedTakeover = some doubled ∧
      doubled.Holds 0 ∧ doubled.Holds 1 ∧ ¬doubled.SingleDaemon := by
  have ran : run step (fun _ _ => True) (initial (some (some staleLock))) crossedTakeover =
      some doubled := by decide +kernel
  have first : doubled.Holds 0 := ⟨_, rfl, rfl⟩
  have second : doubled.Holds 1 := ⟨_, rfl, rfl⟩
  refine ⟨ran, first, second, ?_⟩
  intro single
  exact absurd (single 0 1 first second) Nat.zero_ne_one

/-- A file under the path that belongs to a live process belongs to the latest of them. -/
structure Latest (world : LockWorld) : Prop where
  numbered : world.Numbered
  newest : ∀ claim ∈ world.claims, world.pathNonce = some claim.2.nonce →
    ∀ other ∈ world.claims, other.2.nonce ≤ claim.2.nonce

/-- A move without a successor keeps the file under the path that of the latest lock. -/
theorem Latest.step (latest : world.Latest) (alone : world.NoSuccessor move)
    (moved : world.step move = some after) : after.Latest := by
  refine ⟨latest.numbered.step moved, ?_⟩
  intro claim member labelled other also
  cases step_effect moved with
  | keeps path fresh claims =>
    obtain ⟨old, was, -, nonce⟩ := claims claim member
    obtain ⟨oldOther, wasOther, -, otherNonce⟩ := claims other also
    rw [← nonce, ← otherNonce]
    exact latest.newest old was (by rw [← path, labelled, nonce]) oldOther wasOther
  | creates index free path fresh claims =>
    -- The created file is newer than every lock.
    have created : world.fresh = claim.2.nonce := by simpa [path] using labelled
    rw [← created]
    rcases claims other also with ⟨-, new⟩ | ⟨old, was, -, nonce⟩
    · exact new.le
    · exact nonce ▸ (latest.numbered.claims old was).le
  | clears removal path fresh claims => simp [path] at labelled
  | withdraws index info removal own path fresh claims gone => simp [path] at labelled
  | replaces index info removal own path fresh claims =>
    obtain same : info.nonce = claim.2.nonce := by simpa [path] using labelled
    obtain ⟨old, was, place, nonce⟩ := claims other also
    rw [← same, ← nonce]
    by_cases self : old.1 = index
    · -- One process has one lock at a time.
      obtain ⟨number, held⟩ := old
      obtain rfl : number = index := self
      obtain ⟨process, runs, claimed⟩ := mem_claims.mp was
      obtain ⟨process', runs', claimed'⟩ := mem_claims.mp own
      obtain rfl : process = process' := Option.some.inj (runs.symm.trans runs')
      obtain rfl : held = info := Option.some.inj (claimed.symm.trans claimed')
      exact le_rfl
    · exact (alone (index, info) removal old was self).le

/-- In a run in which no replacement by `update_state` and no removal by `release` comes after
another live process has created its lock file, none of them ever hits the file of another live
process. -/
theorem successor_untouched (reached : Reach step NoSuccessor (initial content) world)
    (alone : world.NoSuccessor move) : ¬world.HitsSuccessor move := by
  have latest : world.Latest := by
    refine reached.invariant ⟨initial_numbered, ?_⟩ ?_
    · simp [initial, claims]
    · intro before after step inv meets moved
      exact inv.step meets moved
  rintro ⟨⟨index, info⟩, displaced, claim, member, other, labelled⟩
  -- The replaced file would be that of an older lock, but only the latest has its file there.
  have newer := alone (index, info) displaced claim member other
  have own : (index, info) ∈ world.claims := by
    cases move with
    | operate number choice =>
      obtain ⟨self, running, found⟩ := Option.bind_eq_some_iff.mp displaced
      obtain ⟨held, phase, same⟩ := Option.map_eq_some_iff.mp found
      cases same
      refine mem_claims.mpr ⟨self, running, ?_⟩
      cases at_ : self.phase <;> simp_all [Phase.displaces, Phase.claim]
    | _ => simp [displaces] at displaced
  have older := latest.newest claim member labelled (index, info) own
  exact absurd newer (Nat.not_lt_of_le older)

/-- A process acquires the lock and someone deletes its file; then another one acquires the lock,
and the first one is about to write a new state. -/
def deletedLock : List LockMove :=
  [.spawn 70 100, .spawn 71 101, .acquire 0 5, operation 0, operation 0, operation 0, operation 0,
    .delete, .acquire 1 5, operation 1, operation 1, operation 1, operation 1,
    .updateState 0 "migrating"]

/-- The first process writes its new state before anyone deletes its file. -/
def undisturbedUpdate : List LockMove :=
  [.spawn 70 100, .spawn 71 101, .acquire 0 5, operation 0, operation 0, operation 0, operation 0,
    .updateState 0 "migrating"]

/-- The undisturbed update is about to replace the file. -/
def updating : LockWorld :=
  ⟨some ⟨1, some ⟨70, 100, 1, "starting"⟩⟩,
    [⟨70, 100, true, .replacing ⟨70, 100, 1, "migrating"⟩⟩, ⟨71, 101, true, .outside⟩], 2⟩

/-- The first process is about to replace the file of the second one. -/
def superseded : LockWorld :=
  ⟨some ⟨2, some ⟨71, 101, 2, "starting"⟩⟩,
    [⟨70, 100, true, .replacing ⟨70, 100, 1, "migrating"⟩⟩,
      ⟨71, 101, true, .holding ⟨71, 101, 2, "starting"⟩⟩], 3⟩

/-- An undisturbed update touches no file of another process. -/
theorem undisturbed_update_own :
    run step NoSuccessor (initial none) undisturbedUpdate = some updating ∧
      updating.displaces (operation 0) = some (0, ⟨70, 100, 1, "migrating"⟩) ∧
      updating.NoSuccessor (operation 0) ∧ ¬updating.HitsSuccessor (operation 0) := by
  have ran : run step NoSuccessor (initial none) undisturbedUpdate = some updating := by
    decide +kernel
  have alone : updating.NoSuccessor (operation 0) := by decide +kernel
  have reached : Reach step NoSuccessor (initial none) updating := reach_run ran
  refine ⟨ran, rfl, alone, ?_⟩
  exact successor_untouched reached alone

/-- The update of the first process replaces the file of the second one, which is alive and has
the lock. -/
theorem deleted_lock_overwrites_successor :
    run step (fun _ _ => True) (initial none) deletedLock = some superseded ∧
      superseded.HitsSuccessor (operation 0) ∧ superseded.Holds 1 ∧
      (superseded.step (operation 0)).bind (fun after => readLock after.path) =
        some ⟨70, 100, 1, "migrating"⟩ := by
  have hits : superseded.HitsSuccessor (operation 0) :=
    ⟨(0, ⟨70, 100, 1, "migrating"⟩), rfl, (1, ⟨71, 101, 2, "starting"⟩), by decide +kernel,
      by decide, rfl⟩
  exact ⟨by decide +kernel, hits, ⟨_, rfl, rfl⟩, by decide +kernel⟩

end LockWorld

end Rasat
