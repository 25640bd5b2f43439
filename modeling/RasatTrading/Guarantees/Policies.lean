import RasatTrading.Guarantees.Overrides

/-! Risk policies over whole runs: a version names one policy, and reserved overrides are of the current one. -/

namespace Rasat

open Coop

variable {svc : Service} {db after : Database} {s last : State} {accountId : String}

/-- A cap after a patch: a clear flag wins over a value, and an omitted value keeps the previous one. -/
def patchedCap (clear : Bool) (value previous : Option ℚ) : Option ℚ :=
  if clear then none else value <|> previous

/-- The caps and symbols of a policy. -/
def RiskPolicy.terms (policy : RiskPolicy) : Option ℚ × Option ℚ × List String :=
  (policy.maxNotionalPerOrder, policy.maxAggregateExposure, policy.allowedSymbols)

/-- The caps and symbols that a patch asks for over a policy. -/
def PolicyPatch.terms (patch : PolicyPatch) (previous : RiskPolicy) : Option ℚ × Option ℚ × List String :=
  (patchedCap patch.clearNotional patch.maxNotional previous.maxNotionalPerOrder,
    patchedCap patch.clearAggregate patch.maxAggregate previous.maxAggregateExposure,
    if patch.clearSymbols then [] else if patch.symbols = [] then previous.allowedSymbols else patch.symbols)

/-- The version that a patched policy gets: 1 the first time, and one more exactly for a change. -/
def nextVersion (db : Database) (accountId : String) (patch : PolicyPatch) : Nat :=
  if db.policyRow accountId = none then 1
  else if patch.terms (db.policy accountId) = (db.policy accountId).terms then
    (db.policy accountId).policyVersion
  else (db.policy accountId).policyVersion + 1

/-- What is read of an account's policy is what its row stores, with parsed symbols. -/
theorem policy_of_row {row : RiskPolicy} (found : db.policyRow accountId = some row) :
    db.policy accountId = { row with allowedSymbols := parseSymbols row.allowedSymbols } := by
  unfold Database.policy
  rw [show (db.policies.find? fun row => row.accountId = accountId) = some row from found]

theorem policy_of_none (missing : db.policyRow accountId = none) : (db.policy accountId).policyVersion = 0 := by
  unfold Database.policy
  rw [show (db.policies.find? fun row => row.accountId = accountId) = none from missing]

/-- The policy that is read has canonical symbols and is of its account. -/
theorem policy_canonical (db : Database) (accountId : String) :
    parseSymbols (db.policy accountId).allowedSymbols = (db.policy accountId).allowedSymbols ∧
      (db.policy accountId).accountId = accountId := by
  cases found : db.policyRow accountId with
  | none =>
    unfold Database.policy
    rw [show (db.policies.find? fun row => row.accountId = accountId) = none from found]
    exact ⟨rfl, rfl⟩
  | some row =>
    rw [policy_of_row found]
    have named := List.find?_some (show db.policies.find? _ = some row from found)
    exact ⟨parseSymbols_canonical _, by simpa using named⟩

/-- The merged policy of a patch: its terms, its version and whether it is a change. -/
theorem mergePolicy_spec (db : Database) (accountId : String) (patch : PolicyPatch) :
    (db.mergePolicy accountId patch).1.accountId = accountId ∧
      (db.mergePolicy accountId patch).1.terms = patch.terms (db.policy accountId) ∧
      (db.mergePolicy accountId patch).1.policyVersion = nextVersion db accountId patch ∧
      ((db.mergePolicy accountId patch).2 = false →
        nextVersion db accountId patch = (db.policy accountId).policyVersion) := by
  have symbols : Database.mergeSymbols patch (db.policy accountId).allowedSymbols =
      if patch.clearSymbols then []
      else if patch.symbols = [] then (db.policy accountId).allowedSymbols else patch.symbols := by
    unfold Database.mergeSymbols
    split
    · rfl
    · split <;> simp_all
  have terms : (db.mergePolicy accountId patch).1.terms = patch.terms (db.policy accountId) := by
    unfold PolicyPatch.terms
    rw [← symbols]
    rfl
  -- A change is a first policy or one with other terms.
  have changed : (db.mergePolicy accountId patch).2 = true ↔
      db.policyRow accountId = none ∨ patch.terms (db.policy accountId) ≠ (db.policy accountId).terms := by
    rw [← terms]
    simp only [Database.mergePolicy, decide_eq_true_eq, RiskPolicy.terms, ne_eq, Prod.mk.injEq, not_and_or]
  have version : (db.mergePolicy accountId patch).1.policyVersion =
      if (db.mergePolicy accountId patch).2 = true then (db.policy accountId).policyVersion + 1
      else (db.policy accountId).policyVersion := by
    simp only [Database.mergePolicy, decide_eq_true_eq]
  have named : nextVersion db accountId patch =
      if (db.mergePolicy accountId patch).2 = true then (db.policy accountId).policyVersion + 1
      else (db.policy accountId).policyVersion := by
    unfold nextVersion
    by_cases first : db.policyRow accountId = none
    · rw [if_pos first, if_pos (changed.mpr (.inl first)), policy_of_none first]
    · rw [if_neg first]
      by_cases same : patch.terms (db.policy accountId) = (db.policy accountId).terms
      · rw [if_pos same, if_neg]
        exact fun moved => (changed.mp moved).elim first fun differ => differ same
      · rw [if_neg same, if_pos (changed.mpr (.inr same))]
  refine ⟨rfl, terms, version.trans named.symm, fun unchanged => ?_⟩
  rw [named, if_neg (by rw [unchanged]; decide)]

/-- A stored policy is the one that its account has from then on, and no other account's. -/
theorem storePolicy_row (db : Database) (merged : RiskPolicy) (other : String) :
    (db.storePolicy merged).policyRow other =
      if other = merged.accountId then some merged else db.policyRow other := by
  unfold Database.storePolicy
  cases found : db.policyRow merged.accountId with
  | none =>
    have missing : ∀ row ∈ db.policies, row.accountId ≠ merged.accountId := by
      simpa [Database.policyRow] using found
    unfold Database.policyRow
    dsimp only
    rw [List.find?_append]
    by_cases own : other = merged.accountId
    · subst own
      rw [if_pos rfl, show (db.policies.find? fun row => row.accountId = merged.accountId) = none from found]
      simp
    · rw [if_neg own]
      simp [Ne.symm own]
  | some row =>
    unfold Database.policyRow
    dsimp only
    rw [List.find?_map]
    -- A replaced row keeps its account.
    have same : ((fun row : RiskPolicy => decide (row.accountId = other)) ∘ fun row =>
        if row.accountId = merged.accountId then merged else row) =
          fun row => decide (row.accountId = other) := by
      funext row
      by_cases named : row.accountId = merged.accountId <;> simp [named]
    rw [same]
    by_cases own : other = merged.accountId
    · subst own
      have named := List.find?_some (show db.policies.find? _ = some row from found)
      rw [if_pos rfl, show (db.policies.find? fun row => row.accountId = merged.accountId) = some row from
        found]
      simp only [decide_eq_true_eq] at named
      simp [named]
    · rw [if_neg own]
      cases elsewhere : db.policies.find? fun row => decide (row.accountId = other) with
      | none => rfl
      | some row' =>
        have named := List.find?_some elsewhere
        simp only [decide_eq_true_eq] at named
        simp [named, own]

variable {answer : RiskPolicy × Bool} {now : Int} {patch : PolicyPatch}

/-- What setting a policy does to the policies and the overrides. -/
theorem setRiskPolicy_effect {actor : String} {audit : Bool}
    (done : db.setRiskPolicy accountId patch now actor audit = .ok (answer, after)) :
    (∀ other, after.policyRow other =
      if other = accountId then some (db.mergePolicy accountId patch).1 else db.policyRow other) ∧
      ∀ override ∈ after.overrides, override.state = .reserved → override ∈ db.overrides ∧
        (override.accountId = accountId → (db.mergePolicy accountId patch).2 = true →
          override.policyVersion = nextVersion db accountId patch) := by
  obtain ⟨owner, -, version, -⟩ := mergePolicy_spec db accountId patch
  unfold Database.setRiskPolicy at done
  by_cases missing : db.account accountId = none
  · rw [if_pos missing] at done
    cases done
  rw [if_neg missing] at done
  rcases merged : db.mergePolicy accountId patch with ⟨policy, changed⟩
  rw [merged] at done owner version
  dsimp only at owner version done ⊢
  have rows : ∀ other, (db.storePolicy policy).policyRow other =
      if other = accountId then some policy else db.policyRow other := by
    intro other
    rw [storePolicy_row, owner]
  cases changed with
  | false =>
    cases done
    exact ⟨rows, fun override member _ => ⟨member, fun _ impossible => nomatch impossible⟩⟩
  | true =>
    cases done
    refine ⟨rows, fun override member reserved => ?_⟩
    -- A reserved override is one that was not closed for its version.
    obtain ⟨old, stored, rfl⟩ := List.mem_map.mp member
    split at reserved
    · cases reserved
    · rename_i kept
      rw [if_neg kept]
      refine ⟨stored, fun own _ => ?_⟩
      simp only [Database.outdated, decide_eq_true_eq, not_and, not_not] at kept
      exact (kept own reserved).trans version

/-- A policy is read from its row alone. -/
theorem policy_congr (same : after.policyRow accountId = db.policyRow accountId) :
    after.policy accountId = db.policy accountId := by
  have rows : after.policies.find? (fun row => row.accountId = accountId) =
      db.policies.find? fun row => row.accountId = accountId := same
  unfold Database.policy
  rw [rows]

/-- A patch gives its account the next version, and other accounts keep their policies. -/
theorem setRiskPolicy_version {actor : String} {audit : Bool}
    (done : db.setRiskPolicy accountId patch now actor audit = .ok (answer, after)) :
    (after.policy accountId).policyVersion = nextVersion db accountId patch ∧
      ∀ other, other ≠ accountId → after.policy other = db.policy other := by
  obtain ⟨rows, -⟩ := setRiskPolicy_effect done
  constructor
  · have stored := rows accountId
    rw [if_pos rfl] at stored
    rw [policy_of_row stored]
    exact (mergePolicy_spec db accountId patch).2.2.1
  · intro other differ
    refine policy_congr ?_
    rw [rows other, if_neg differ]

/-- A patch gives its account the terms that it asks for under the next version. -/
theorem setRiskPolicy_patched {actor : String} {audit : Bool}
    (canonical : parseSymbols patch.symbols = patch.symbols)
    (done : db.setRiskPolicy accountId patch now actor audit = .ok (answer, after)) :
    (after.policy accountId).terms = patch.terms (db.policy accountId) ∧
      (after.policy accountId).policyVersion = nextVersion db accountId patch ∧
      after.policyRow accountId ≠ none := by
  obtain ⟨rows, -⟩ := setRiskPolicy_effect done
  obtain ⟨owner, terms, version, -⟩ := mergePolicy_spec db accountId patch
  have stored := rows accountId
  rw [if_pos rfl] at stored
  -- The merged symbols are parsed ones, so what is read is what was stored.
  have symbols : parseSymbols (db.mergePolicy accountId patch).1.allowedSymbols =
      (db.mergePolicy accountId patch).1.allowedSymbols := by
    have listed := congrArg (fun terms => terms.2.2) terms
    simp only [RiskPolicy.terms, PolicyPatch.terms] at listed
    rw [listed]
    split
    · rfl
    · split
      · exact (policy_canonical db accountId).1
      · exact canonical
  have read : after.policy accountId = (db.mergePolicy accountId patch).1 := by
    rw [policy_of_row stored, symbols]
  exact ⟨read ▸ terms, read ▸ version, by rw [stored]; simp⟩

/-- What one transaction does to an account's policy. -/
inductive PolicyStep (db after : Database) (accountId : String) : Tx → Prop
  | same {tx : Tx} (row : after.policyRow accountId = db.policyRow accountId) :
      PolicyStep db after accountId tx
  | patched (patch : PolicyPatch) (actor : String) (audit : Bool)
      (terms : (after.policy accountId).terms = patch.terms (db.policy accountId))
      (version : (after.policy accountId).policyVersion = nextVersion db accountId patch)
      (stored : after.policyRow accountId ≠ none) :
      PolicyStep db after accountId (.setRiskPolicy accountId patch actor audit)

/-- Every transaction but a patch of the account leaves its policy row alone. -/
theorem policy_step (accountId : String) {tx : Tx} {answer : tx.Ans} {uuid : Nat}
    (canonical : ∀ named patch actor audit, tx = .setRiskPolicy named patch actor audit →
      parseSymbols patch.symbols = patch.symbols)
    (ran : tx.run db now uuid = .ok (answer, after)) : PolicyStep db after accountId tx := by
  -- All but a patch leave the table of policies alone.
  have kept (same : after.policies = db.policies) : PolicyStep db after accountId tx :=
    .same (by unfold Database.policyRow; rw [same])
  cases tx with
  | setRiskPolicy named patch actor audit =>
    by_cases own : accountId = named
    · subst own
      obtain ⟨terms, version, stored⟩ := setRiskPolicy_patched (canonical _ _ _ _ rfl) ran
      exact .patched patch actor audit terms version stored
    · obtain ⟨rows, -⟩ := setRiskPolicy_effect ran
      exact .same (by rw [rows accountId, if_neg own])
  | _ => exact kept ((Tx.run_frame ran).policies rfl)

/-- Every reserved override carries the version of its account's policy. -/
def OverridesCurrent (db : Database) : Prop :=
  ∀ override ∈ db.overrides, override.state = .reserved →
    override.policyVersion = (db.policy override.accountId).policyVersion

/-- A later policy has a later version; under the same version it is the same policy. -/
def LaterPolicy (policy later : RiskPolicy) : Prop :=
  policy.policyVersion ≤ later.policyVersion ∧
    (later.policyVersion = policy.policyVersion → later = policy)

theorem LaterPolicy.refl (policy : RiskPolicy) : LaterPolicy policy policy := ⟨Nat.le_refl _, fun _ => rfl⟩

theorem LaterPolicy.trans {policy middle later : RiskPolicy} (first : LaterPolicy policy middle)
    (second : LaterPolicy middle later) : LaterPolicy policy later := by
  refine ⟨first.1.trans second.1, fun same => ?_⟩
  have upper := first.1
  have lower := second.1
  rw [second.2 (by omega), first.2 (by omega)]

/-- A transaction only makes policies later. -/
theorem PolicyStep.later {tx : Tx} (step : PolicyStep db after accountId tx) :
    LaterPolicy (db.policy accountId) (after.policy accountId) := by
  cases step with
  | same row => rw [policy_congr row]; exact .refl _
  | patched patch actor audit terms version stored =>
    unfold LaterPolicy
    rw [version]
    unfold nextVersion
    by_cases first : db.policyRow accountId = none
    · rw [if_pos first, policy_of_none first]
      exact ⟨Nat.zero_le 1, fun impossible => nomatch impossible⟩
    · rw [if_neg first]
      split
      · rename_i same
        -- With the same terms and version it is the same policy.
        refine ⟨Nat.le_refl _, fun _ => ?_⟩
        rw [nextVersion, if_neg first, if_pos same] at version
        have owner := (policy_canonical db accountId).2
        have owner' := (policy_canonical after accountId).2
        rw [same] at terms
        simp only [RiskPolicy.terms, Prod.mk.injEq] at terms
        cases h : after.policy accountId
        cases h' : db.policy accountId
        simp_all
      · exact ⟨Nat.le_succ _, fun impossible => absurd impossible (by omega)⟩

/-- A transaction keeps reserved overrides at the version of their account's policy. -/
theorem overridesCurrent_step {tx : Tx} {answer : tx.Ans} {uuid : Nat}
    (canonical : ∀ named patch actor audit, tx = .setRiskPolicy named patch actor audit →
      parseSymbols patch.symbols = patch.symbols)
    (ran : tx.run db now uuid = .ok (answer, after)) (current : OverridesCurrent db) :
    OverridesCurrent after := by
  intro override member reserved
  by_cases patches : ∃ named patch actor audit, tx = .setRiskPolicy named patch actor audit
  · obtain ⟨named, patch, actor, audit, rfl⟩ := patches
    obtain ⟨-, overrides⟩ := setRiskPolicy_effect ran
    obtain ⟨stored, fresh⟩ := overrides override member reserved
    obtain ⟨version, elsewhere⟩ := setRiskPolicy_version ran
    by_cases own : override.accountId = named
    · subst own
      rw [version]
      cases changed : (db.mergePolicy override.accountId patch).2 with
      | true => exact fresh rfl changed
      | false =>
        -- Nothing changed, so the version is the one that the override already carried.
        rw [(mergePolicy_spec db override.accountId patch).2.2.2 changed]
        exact current override stored reserved
    · rw [elsewhere _ own]
      exact current override stored reserved
  · -- No other transaction touches a policy.
    have kept : after.policy override.accountId = db.policy override.accountId := by
      cases policy_step override.accountId canonical ran with
      | same row => exact policy_congr row
      | patched patch actor audit _ _ _ => exact absurd ⟨_, patch, actor, audit, rfl⟩ patches
    rw [kept]
    cases overrides_step ran with
    | same rows => exact current override (rows ▸ member) reserved
    | added row fresh version grown =>
      rw [grown] at member
      rcases List.mem_append.mp member with old | new
      · exact current override old reserved
      · obtain rfl := List.mem_singleton.mp new
        exact version
    | reconciled closes now reason only closed =>
      rw [closed] at member
      obtain ⟨old, stored, rfl⟩ := List.mem_map.mp member
      split at reserved
      · cases reserved
      · rename_i open_
        rw [if_neg open_]
        exact current old stored reserved
    | applied named key version at_ audit candidate listed consumable used =>
      rw [used] at member
      obtain ⟨old, stored, rfl⟩ := List.mem_map.mp member
      split at reserved
      · cases reserved
      · rename_i open_
        rw [if_neg open_]
        exact current old stored reserved

/-- A task that patches a policy does so with parsed symbols. -/
theorem patch_canonical {calm : Prop} {task : Nat} {tx : Tx} {next : Except Exc tx.Ans → Task Reply}
    (represented : (custodySimulation svc.text calm).Represented s)
    (running : s.tasks task = some (.ask (.write tx) next)) (named : String) (patch : PolicyPatch)
    (actor : String) (audit : Bool) (same : tx = .setRiskPolicy named patch actor audit) :
    parseSymbols patch.symbols = patch.symbols := by
  subst same
  obtain ⟨known, -, -, -, permitted⟩ := asking_permitted represented running
  exact permitted

/-- What one move does to an account's policy: nothing, or a task's patch of it. -/
theorem step_policy {calm : Prop} {move : Move Choice Call} {after : State}
    (represented : (custodySimulation svc.text calm).Represented s)
    (stepped : (machine svc).step s move = some after) :
    (OverridesCurrent s.world.db → OverridesCurrent after.world.db) ∧
      ∀ accountId, after.world.db.policyRow accountId = s.world.db.policyRow accountId ∨
        ∃ task tx next, s.tasks task = some (.ask (.write tx) next) ∧
          PolicyStep s.world.db after.world.db accountId tx := by
  rcases step_db represented stepped with
    same | ⟨task, choice, tx, next, committed, world, -, running, ran, rfl⟩
  · rw [same]
    exact ⟨id, fun _ => .inl rfl⟩
  · have canonical := patch_canonical represented running
    exact ⟨overridesCurrent_step canonical ran, fun accountId =>
      .inr ⟨task, tx, next, running, policy_step accountId canonical ran⟩⟩

/-- What policies and overrides have in common between two states of a run and in the move after. -/
structure PoliciesFaithful (s last after : State) : Prop where
  /-- Versions never decrease, and one version is one policy. -/
  versions : ∀ accountId, LaterPolicy (s.world.db.policy accountId) (last.world.db.policy accountId)
  current : OverridesCurrent last.world.db
  /-- An account's policy only changes by a patch, whose terms and version it then has. -/
  patches : ∀ accountId, after.world.db.policy accountId = last.world.db.policy accountId ∨
    ∃ task patch actor audit next,
      last.tasks task = some (.ask (.write (.setRiskPolicy accountId patch actor audit)) next) ∧
      (after.world.db.policy accountId).terms = patch.terms (last.world.db.policy accountId) ∧
      (after.world.db.policy accountId).policyVersion = nextVersion last.world.db accountId patch
  /-- Such a patch is the only way in which a task's transaction is answered with a policy. -/
  answered : ∀ task accountId patch actor audit policy changed, Entry.answered task
      ⟨.write (.setRiskPolicy accountId patch actor audit), .ok (policy, changed)⟩ ∈ after.trace →
    Entry.answered task ⟨.write (.setRiskPolicy accountId patch actor audit), .ok (policy, changed)⟩
        ∈ last.trace ∨
      (after.world.db.policy accountId).terms = patch.terms (last.world.db.policy accountId) ∧
      (after.world.db.policy accountId).policyVersion = nextVersion last.world.db accountId patch ∧
      after.world.db.policyRow accountId ≠ none

/-- Over every run from tables whose reserved overrides are current, policy versions are faithful. -/
theorem policies_faithful {after : State} {move : Move Choice Call} (formed : db.WellFormed)
    (current : OverridesCurrent db) (reached : Reached svc db s)
    (steps : (machine svc).Steps (fun _ _ => True) s last)
    (stepped : (machine svc).step last move = some after) : PoliciesFaithful s last after := by
  have represented := reached.represented formed
  have arrived : Reached svc db last := Relation.ReflTransGen.trans reached steps
  have represented' := arrived.represented formed
  refine ⟨fun accountId => ?_, ?_, fun accountId => ?_, ?_⟩
  · refine custody_sound.evolves (fun before after : State =>
      LaterPolicy (before.world.db.policy accountId) (after.world.db.policy accountId))
      (fun _ => .refl _) LaterPolicy.trans (fun s move after represented _ stepped => ?_) represented
      (Machine.Steps.mono (fun _ _ _ => False.elim) steps : (machine svc).Steps (Calm False) s last)
    rcases (step_policy represented stepped).2 accountId with same | ⟨task, tx, next, -, step⟩
    · rw [policy_congr same]
      exact .refl _
    · exact step.later
  · exact arrived.invariant (fun s => OverridesCurrent s.world.db) formed current
      fun s move after represented stepped => (step_policy represented stepped).1
  · rcases (step_policy represented' stepped).2 accountId with same | ⟨task, tx, next, running, step⟩
    · exact .inl (policy_congr same)
    · cases step with
      | same row => exact .inl (policy_congr row)
      | patched patch actor audit terms version stored =>
        exact .inr ⟨task, patch, actor, audit, next, running, terms, version⟩
  · intro task accountId patch actor audit policy changed member
    refine (step_answered stepped member).imp_right ?_
    rintro ⟨choice, next, world, rfl, running, performed, rfl⟩
    have ran := perform_write performed
    exact setRiskPolicy_patched (patch_canonical represented' running _ _ _ _ rfl) ran

/-- Setting a first policy makes it version 1. -/
def firstPolicy : List (Move Choice Call) :=
  booted ++ .open (.setRiskPolicy { accountId := .text "main", maxNotionalPerOrder := .number 5 }) ::
    answers 1 [{}]

theorem first_policy_faithful :
    ∃ last after, (machine demo).run (started demo shop) firstPolicy = some last ∧
      (machine demo).step last .crash = some after ∧
      (last.world.db.policy "main").policyVersion = 1 ∧
      PoliciesFaithful (started demo shop) last after := by
  have passes : ((machine demo).run (started demo shop) firstPolicy).any fun last =>
      (last.world.db.policy "main").policyVersion = 1 := by decide +kernel
  obtain ⟨last, ran, checked⟩ := run_end passes
  exact ⟨last, _, ran, rfl, by simpa using checked,
    policies_faithful shop_wellFormed (fun _ member => nomatch member) .refl (reached_of_run ran)
      (show (machine demo).step last .crash = some _ from rfl)⟩

end Rasat
