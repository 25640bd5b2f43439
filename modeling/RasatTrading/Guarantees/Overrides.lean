import RasatTrading.Guarantees.Rows

/-! Risk overrides over whole runs: each is used at most once, and every order over a cap has its own. -/

namespace Rasat

open Coop

variable {svc : Service} {db after : Database} {s later : State}

/-! What the kill switch can ask for at all: it never reads a risk policy. -/

/-- The requests other than the read of a policy. -/
def PolicyFree : Req → Prop
  | .read (.policy _) => False
  | _ => True

/-- Order work reads no policy. -/
theorem OrderWork.policyFree {request : Req} (work : OrderWork request) : PolicyFree request := by
  cases request with
  | read query => cases query <;> exact work
  | _ => trivial

/-- What a call can ask for: the kill switch reads no policy. -/
def Call.footprint (call : Call) (request : Req) : Prop := call.isClose → PolicyFree request

/-- Every call keeps to its footprint. -/
theorem program_footprint (call : Call) : (call.program svc (executeOnAccounts svc)).Only call.footprint := by
  cases call with
  | closeAllPositions accountId actor =>
    refine Prog.only_bind ((closeAllPositions_work accountId).mono fun _ work _ => work.policyFree)
      fun _ => Prog.only_done
  | _ => exact Prog.only_of_forall (fun _ closes => nomatch closes) _

/-! The consumption of an override. -/

/-- The consumption of an override in a record: when it happened, the consuming task had read the
policy under this version and its clock, and the override was unexpired by that clock. -/
def ConsumedIn (trace : List (Entry Req Req.Ans Exc Call)) (override : RiskOverride) : Prop :=
  ∃ newer older task version key now audit,
    trace = newer ++ .answered task
      ⟨.write (.consumeOverride override.accountId version key now audit), .ok (some override)⟩ :: older ∧
    override.policyVersion = version ∧ override.consumedByIdem = some key ∧
    override.appliedAt = some now ∧ now < override.expiresAt ∧
    (∃ rest, histOf task older = ⟨.clock, .ok now⟩ :: rest) ∧
    ∃ policy seen, lastPolicyRead (histOf task older) = some (policy, seen) ∧
      policy.policyVersion = version

/-- What an override row can become: a reserved one is reconciled or applied, nothing else changes. -/
def LaterOverride (trace : List (Entry Req Req.Ans Exc Call)) (override later : RiskOverride) : Prop :=
  later = override ∨ override.state = .reserved ∧
    ((∃ now reason, later = Database.reconciledOverride override now reason) ∨
      ∃ now key, later = Database.appliedOverride override now key ∧ ConsumedIn trace later)

variable {trace : List (Entry Req Req.Ans Exc Call)} {override : RiskOverride}

theorem ConsumedIn.mono {more : List (Entry Req Req.Ans Exc Call)}
    (consumed : ConsumedIn trace override) (suffix : trace <:+ more) : ConsumedIn more override := by
  obtain ⟨newer, older, task, version, key, now, audit, split, facts⟩ := consumed
  obtain ⟨newest, rfl⟩ := suffix
  exact ⟨newest ++ newer, older, task, version, key, now, audit, by rw [split, List.append_assoc], facts⟩

theorem LaterOverride.mono {more : List (Entry Req Req.Ans Exc Call)}
    {later : RiskOverride} (late : LaterOverride trace override later)
    (suffix : trace <:+ more) : LaterOverride more override later := by
  rcases late with same | ⟨reserved, reconciled | ⟨now, key, applied, consumed⟩⟩
  · exact .inl same
  · exact .inr ⟨reserved, .inl reconciled⟩
  · exact .inr ⟨reserved, .inr ⟨now, key, applied, consumed.mono suffix⟩⟩

/-- A row that is no longer reserved has no other later form. -/
theorem LaterOverride.closed {later : RiskOverride}
    (late : LaterOverride trace override later) (closed : override.state ≠ .reserved) :
    later = override :=
  late.resolve_right fun moved => closed moved.1

theorem LaterOverride.trans {middle later : RiskOverride} (first : LaterOverride trace override middle)
    (second : LaterOverride trace middle later) : LaterOverride trace override later := by
  rcases first with rfl | ⟨reserved, ⟨now, reason, rfl⟩ | ⟨now, key, rfl, consumed⟩⟩
  · exact second
  -- Once it is closed, the row stays as it is.
  · rw [second.closed (by simp [Database.reconciledOverride])]
    exact .inr ⟨reserved, .inl ⟨now, reason, rfl⟩⟩
  · rw [second.closed (by simp [Database.appliedOverride])]
    exact .inr ⟨reserved, .inr ⟨now, key, rfl, consumed⟩⟩

/-- Every override of a table has a later form in another one. -/
def OverridesLater (trace : List (Entry Req Req.Ans Exc Call)) (rows later : List RiskOverride) : Prop :=
  ∀ row ∈ rows, ∃ row' ∈ later, LaterOverride trace row row'

/-- What a transaction does to the overrides: it adds a reserved one, reconciles some or applies one. -/
inductive OverridesStep (db after : Database) : (tx : Tx) → tx.Ans → Prop
  | same {tx : Tx} {answer : tx.Ans} (kept : after.overrides = db.overrides) : OverridesStep db after tx answer
  | added {tx : Tx} {answer : tx.Ans} (row : RiskOverride) (reserved : row.state = .reserved)
      (version : row.policyVersion = (db.policy row.accountId).policyVersion)
      (grown : after.overrides = db.overrides ++ [row]) : OverridesStep db after tx answer
  | reconciled {tx : Tx} {answer : tx.Ans} (closes : RiskOverride → Bool) (now : Int) (reason : String)
      (only : ∀ row, closes row → row.state = .reserved)
      (closed : after.overrides = db.overrides.map fun row =>
        if closes row then Database.reconciledOverride row now reason else row) :
      OverridesStep db after tx answer
  | applied (accountId key : String) (version : Nat) (now : Int) (audit : Bool) (candidate : RiskOverride)
      (member : candidate ∈ db.overrides)
      (consumable : Database.consumable accountId version now candidate)
      (used : after.overrides = db.overrides.map fun row =>
        if row.overrideId = candidate.overrideId ∧ row.state = .reserved then
          Database.appliedOverride row now key
        else row) :
      OverridesStep db after (.consumeOverride accountId version key now audit)
        (some (Database.appliedOverride candidate now key))

theorem outdated_reserved {accountId : String} {version : Nat} {row : RiskOverride}
    (closes : Database.outdated accountId version row) : row.state = .reserved := by
  simp only [Database.outdated, decide_eq_true_eq] at closes
  exact closes.2.1

/-- A new override carries the version of the policy that its account has when it is stored. -/
theorem createOverride_effect {draft : OverrideDraft} {overrideId : String} {audit : Bool}
    {answer : RiskOverride} (done : db.createOverride draft overrideId audit = .ok (answer, after)) :
    ∀ override ∈ after.overrides, override ∈ db.overrides ∨
      override.policyVersion = (db.policy override.accountId).policyVersion := by
  unfold Database.createOverride at done
  by_cases missing : db.account draft.accountId = none
  · rw [if_pos missing] at done
    cases done
  rw [if_neg missing] at done
  split at done
  · cases done
    exact fun _ member => .inl member
  by_cases taken : db.overrides.any fun row => row.overrideId = overrideId
  · rw [if_pos taken] at done
    cases done
  rw [if_neg taken] at done
  cases done
  intro override member
  rcases List.mem_append.mp member with old | new
  · exact .inl old
  · obtain rfl := List.mem_singleton.mp new
    exact .inr rfl

/-- Each transaction makes one of these steps. -/
theorem overrides_step {tx : Tx} {answer : tx.Ans} {now : Int} {uuid : Nat}
    (ran : tx.run db now uuid = .ok (answer, after)) : OverridesStep db after tx answer := by
  cases tx with
  | setRiskPolicy named patch actor audit =>
    rcases (Database.setRiskPolicy_ok ran).2.2.2 with kept | ⟨version, reason, closed⟩
    · exact .same kept
    · exact .reconciled _ _ _ (fun row => outdated_reserved) closed
  | createOverride draft audit =>
    have versions := createOverride_effect ran
    rcases Database.createOverride_ok ran with rfl | ⟨fresh, named, reserved, entry, rfl⟩
    · exact .same rfl
    · -- The added row is none of the old ones, so its version is the current one.
      refine .added answer reserved ((versions answer ?_).resolve_left fun old => fresh ?_) rfl
      · exact List.mem_append_right _ List.mem_cons_self
      · exact List.mem_map.mpr ⟨answer, old, named⟩
  | consumeOverride named version key at_ audit =>
    rcases Database.consumeOverride_tables (Except.ok.inj ran) with
      ⟨-, rfl⟩ | ⟨candidate, member, consumable, rfl, entry, rfl⟩
    · exact .same rfl
    · exact .applied named key version at_ audit candidate member consumable rfl
  | reconcileOverrides at_ audit =>
    cases ran
    refine .reconciled (fun row => decide (row.state = .reserved ∧ row.expiresAt ≤ at_)) at_ "expired"
      (fun row closes => ?_) rfl
    exact (by simpa using closes : row.state = .reserved ∧ _).1
  | _ => exact .same ((Tx.run_frame ran).overrides rfl)

theorem OverridesLater.refl (trace : List (Entry Req Req.Ans Exc Call)) (rows : List RiskOverride) :
    OverridesLater trace rows rows := fun row member => ⟨row, member, .inl rfl⟩

/-- One move of the daemon leaves a later form of every override. -/
theorem step_overridesLater {calm : Prop} {move : Move Choice Call} {after : State}
    (represented : (custodySimulation svc.text calm).Represented s)
    (stepped : (machine svc).step s move = some after) :
    OverridesLater after.trace s.world.db.overrides after.world.db.overrides := by
  rcases step_db represented stepped with
    same | ⟨task, choice, tx, next, committed, world, -, running, ran, rfl⟩
  · rw [same]
    exact .refl _ _
  obtain ⟨known, truth, -, -, permitted⟩ := asking_permitted represented running
  intro row member
  show ∃ row' ∈ world.db.overrides, _
  cases overrides_step ran with
  | same kept => exact ⟨row, kept ▸ member, .inl rfl⟩
  | added newest reserved version grown => exact ⟨row, grown ▸ List.mem_append_left _ member, .inl rfl⟩
  | reconciled closes now reason only closed =>
    refine ⟨_, closed ▸ List.mem_map_of_mem member, ?_⟩
    split
    · rename_i picked
      exact .inr ⟨only row picked, .inl ⟨now, reason, rfl⟩⟩
    · exact .inl rfl
  | applied accountId key version now audit candidate listed consumable used =>
    refine ⟨_, used ▸ List.mem_map_of_mem member, ?_⟩
    split
    · rename_i picked
      -- Ids are unique, so the applied row is the one that was consumable.
      obtain rfl : row = candidate :=
        List.inj_on_of_nodup_map represented.inv.formed.overrideIds member listed picked.1
      simp only [Database.consumable, decide_eq_true_eq] at consumable
      obtain ⟨rfl, -, rfl, unexpired⟩ := consumable
      obtain ⟨policy, seen, rest, read, version, ticked⟩ := permitted
      rw [truth.hist] at read ticked
      exact .inr ⟨picked.2, .inr ⟨now, key, rfl, [], s.trace, task, _, key, now, audit, rfl, rfl, rfl, rfl,
        unexpired, ⟨rest, ticked⟩, policy, seen, read, version⟩⟩
    · exact .inl rfl

/-- A run of the daemon leaves a later form of every override. -/
theorem steps_overridesLater {calm : Prop} (represented : (custodySimulation svc.text calm).Represented s)
    (steps : (machine svc).Steps (Calm calm) s later) :
    OverridesLater later.trace s.world.db.overrides later.world.db.overrides := by
  refine custody_sound.invariant
    (fun later => OverridesLater later.trace s.world.db.overrides later.world.db.overrides)
    (fun middle move after represented _ stepped before => ?_) represented (.refl _ _) steps
  obtain ⟨entry, grown, -⟩ := step_trace stepped
  intro row member
  obtain ⟨row', member', first⟩ := before row member
  obtain ⟨row'', member'', second⟩ := step_overridesLater represented stepped row' member'
  exact ⟨row'', member'', (first.mono (grown ▸ List.suffix_cons _ _)).trans second⟩

/-- An override that a task was given when it consumed it is stored as it was given. -/
def ConsumedStored (s : State) : Prop :=
  ∀ task accountId version key now audit override,
    Entry.answered task ⟨.write (.consumeOverride accountId version key now audit), .ok (some override)⟩
        ∈ s.trace →
      override ∈ s.world.db.overrides ∧ override.accountId = accountId ∧ override.state = .applied ∧
        override.consumedByIdem = some key

theorem Reached.consumedStored (reached : Reached svc db s) (formed : db.WellFormed) : ConsumedStored s := by
  refine reached.invariant ConsumedStored formed (fun _ _ _ _ _ _ _ member => nomatch member) ?_
  rintro s move after represented stepped before task accountId version key now audit override member
  rcases step_answered stepped member with old | ⟨choice, next, world, -, -, performed, rfl⟩
  · obtain ⟨stored, owner, applied, named⟩ := before task accountId version key now audit override old
    obtain ⟨row, stored', late⟩ := step_overridesLater represented stepped override stored
    -- An applied override is not changed any more.
    rw [late.closed (by rw [applied]; decide)] at stored'
    exact ⟨stored', owner, applied, named⟩
  · have ran := perform_write performed
    show override ∈ world.db.overrides ∧ _
    rcases Database.consumeOverride_tables (Except.ok.inj ran) with
      ⟨impossible, -⟩ | ⟨candidate, listed, consumable, same, entry, used⟩
    · cases impossible
    · cases same
      simp only [Database.consumable, decide_eq_true_eq] at consumable
      refine ⟨?_, consumable.1, rfl, rfl⟩
      rw [used]
      refine List.mem_map.mpr ⟨candidate, listed, ?_⟩
      rw [if_pos ⟨rfl, consumable.2.1⟩]

/-- The notional, the exposure or the symbol of an order is beyond a policy. -/
def Violates (policy : RiskPolicy) (symbol : String) (notional exposureAfter : ℚ) : Prop :=
  (policy.allowedSymbols ≠ [] ∧ symbol ∉ policy.allowedSymbols) ∨
    exceeds notional policy.maxNotionalPerOrder ∨ exceeds exposureAfter policy.maxAggregateExposure

/-- The order is beyond the newest policy that its task had read, at the exposure that it computed. -/
def OverCap (hist : History) (draft : OrderDraft) : Prop :=
  ∃ policy seen exposure, lastPolicyRead hist = some (policy, seen) ∧
    Exposed hist seen draft.accountId exposure ∧
    Violates policy draft.symbol draft.notional (exposure + draft.notional)

/-- The caps pass no order that is beyond the policy. -/
theorem violates_refused {text : Text} {policy : RiskPolicy} {symbol : String} {notional exposureAfter : ℚ}
    (violates : Violates policy symbol notional exposureAfter) :
    enforcePolicyCaps text symbol notional policy exposureAfter ≠ .ok () := by
  intro passed
  simp only [enforcePolicyCaps, bind_ok, rejectIf_ok] at passed
  obtain ⟨-, -, -, -, -, symbols, -, single, aggregate⟩ := passed
  rcases violates with stranger | large | exposed
  · exact symbols stranger
  · exact single large
  · exact aggregate exposed

/-- What an over-cap insertion needs: its task applied an override for this account and key. -/
theorem overCap_consumed {text : Text} {hist : History} {draft : OrderDraft} (judged : Judged text hist draft)
    (exceeding : OverCap hist draft) :
    ∃ version, Consumed hist draft.accountId version draft.idempotencyKey := by
  obtain ⟨policy, seen, exposure, read, exposed, passed | consumed⟩ := judged
  · -- The exposure is the one that was judged, since the task computed it only once from there.
    obtain ⟨policy', seen', exposure', read', exposed', violates⟩ := exceeding
    rw [read] at read'
    cases read'
    obtain ⟨until_, reaches, within⟩ := exposed
    obtain ⟨until', reaches', within'⟩ := exposed'
    obtain ⟨rfl, -⟩ := Reaches.deterministic reaches within reaches' within'
    exact absurd passed (violates_refused violates)
  · exact ⟨_, consumed⟩

/-- A history without policy reads has no newest one. -/
theorem lastPolicyRead_free {hist : History} (free : ∀ event ∈ hist, PolicyFree event.request) :
    lastPolicyRead hist = none := by
  induction hist with
  | nil => rfl
  | cons event rest ih =>
    have tail := ih fun older member => free older (List.mem_cons_of_mem _ member)
    unfold lastPolicyRead
    split
    · exact absurd (free _ List.mem_cons_self) id
    · exact tail

/-- The row of an order that was inserted beyond the policy which its task had read. -/
def OverCapRow (s : State) (row : Order) : Prop :=
  ∃ newer older task draft simulated audit,
    s.trace = newer ++ .answered task ⟨.write (.insertOrder draft simulated audit), .ok row⟩ :: older ∧
      OverCap (histOf task older) draft

/-- The override is applied, and its account and key are those of the order. -/
def Pays (override : RiskOverride) (row : Order) : Prop :=
  override.accountId = row.accountId ∧ override.state = .applied ∧
    override.consumedByIdem = some row.idempotencyKey

/-- Every order beyond its policy is paid for by a stored override. -/
theorem overCap_paid (reached : Reached svc db s) (formed : db.WellFormed) {row : Order}
    (exceeding : OverCapRow s row) : ∃ override ∈ s.world.db.overrides, Pays override row := by
  obtain ⟨newer, older, task, draft, simulated, audit, split, exceeding⟩ := exceeding
  have consumed := reached.every_answer (fun older task event => ∀ draft simulated audit,
      event.request = .write (.insertOrder draft simulated audit) → OverCap (histOf task older) draft →
        ∃ version, Consumed (histOf task older) draft.accountId version draft.idempotencyKey) formed
    (fun s task request next choice answer world arrived represented running performed => by
      rintro draft simulated audit rfl exceeding
      obtain ⟨known, truth, -, -, -, closing | judged⟩ := asking_permitted represented running
      · -- The kill switch reads no policy, so none of its orders is exceeding a cap that it read.
        obtain ⟨call, serving, closes⟩ := closing
        have within : s.Within Call.footprint := Machine.steps_within program_footprint arrived
        have free := (within task call (truth.call ▸ serving)).2
        obtain ⟨policy, seen, -, read, -⟩ := exceeding
        have unread : lastPolicyRead (histOf task s.trace) = none :=
          lastPolicyRead_free fun event member => free event member closes
        rw [unread] at read
        cases read
      · rw [truth.hist] at judged
        exact overCap_consumed judged exceeding) newer older task _ split
  obtain ⟨version, now, audit', override, member⟩ := consumed draft simulated audit rfl exceeding
  -- The override that was consumed is still stored as it was applied.
  have older_in : ∀ entry ∈ older, entry ∈ s.trace := fun entry listed =>
    split ▸ List.mem_append_right _ (List.mem_cons_of_mem _ listed)
  obtain ⟨stored, owner, applied, named⟩ :=
    reached.consumedStored formed _ _ _ _ _ _ _ (older_in _ (mem_of_histOf member))
  obtain ⟨shape, -⟩ := reached.insertedStored formed task draft simulated audit row
    (split ▸ List.mem_append_right _ List.mem_cons_self)
  refine ⟨override, stored, owner.trans ?_, applied, named.trans ?_⟩
  · rw [shape]; rfl
  · rw [shape]; rfl

/-- Orders with the same account and key are one order. -/
theorem overCapRow_unique (reached : Reached svc db s) (formed : db.WellFormed) {row other : Order}
    (exceeding : OverCapRow s row) (exceeding' : OverCapRow s other) (owner : row.accountId = other.accountId)
    (key : row.idempotencyKey = other.idempotencyKey) : row.orderId = other.orderId := by
  have stored : ∀ {row}, OverCapRow s row → ∃ later ∈ s.world.db.orders, LaterRow row later := by
    rintro row ⟨newer, older, task, draft, simulated, audit, split, -⟩
    exact (reached.insertedStored formed task draft simulated audit row
      (split ▸ List.mem_append_right _ List.mem_cons_self)).2
  obtain ⟨later, member, late⟩ := stored exceeding
  obtain ⟨later', member', late'⟩ := stored exceeding'
  have keys := (reached.represented formed).inv.formed.orderKeys
  have same : later = later' := by
    refine List.inj_on_of_nodup_map keys member member' ?_
    rw [late.draft, late'.draft, owner, key]
  rw [← late.orderId, same, late'.orderId]

/-- No account has more orders beyond their policies than applied overrides. -/
theorem overCap_count (reached : Reached svc db s) (formed : db.WellFormed) {accountId : String}
    {rows : List Order} (distinct : (rows.map Order.orderId).Nodup)
    (exceeding : ∀ row ∈ rows, OverCapRow s row ∧ row.accountId = accountId) :
    rows.length ≤ (s.world.db.overrides.filter fun override =>
      override.accountId = accountId ∧ override.state = .applied).length := by
  -- The keys of the orders are distinct, and each is the key of an applied override.
  have keys : (rows.map fun row => some row.idempotencyKey).Nodup := by
    refine (List.Nodup.of_map Order.orderId distinct).map_on ?_
    intro row member other member' same
    refine List.inj_on_of_nodup_map distinct member member' ?_
    refine overCapRow_unique reached formed (exceeding row member).1 (exceeding other member').1 ?_
      (Option.some.inj same)
    rw [(exceeding row member).2, (exceeding other member').2]
  have paid : (rows.map fun row => some row.idempotencyKey) ⊆
      (s.world.db.overrides.filter fun override =>
        override.accountId = accountId ∧ override.state = .applied).map RiskOverride.consumedByIdem := by
    intro key listed
    obtain ⟨row, member, rfl⟩ := List.mem_map.mp listed
    obtain ⟨override, stored, owner, applied, named⟩ := overCap_paid reached formed (exceeding row member).1
    refine List.mem_map.mpr ⟨override, List.mem_filter.mpr ⟨stored, ?_⟩, named⟩
    simp [owner, (exceeding row member).2, applied]
  have bounded := (List.subperm_of_subset keys paid).length_le
  simpa using bounded

/-- The account that overrides give of themselves between two states of a run. -/
structure OverridesAccounted (s later : State) : Prop where
  /-- A reserved override is applied or reconciled once, as its consumption in the record says. -/
  evolve : OverridesLater later.trace s.world.db.overrides later.world.db.overrides
  paid : ∀ row, OverCapRow later row → ∃ override ∈ later.world.db.overrides, Pays override row
  /-- One override does not pay for two orders. -/
  own : ∀ row other override, OverCapRow later row → OverCapRow later other →
    Pays override row → Pays override other → row.orderId = other.orderId
  count : ∀ (accountId : String) (rows : List Order), (rows.map Order.orderId).Nodup →
    (∀ row ∈ rows, OverCapRow later row ∧ row.accountId = accountId) →
      rows.length ≤ (later.world.db.overrides.filter fun override =>
        override.accountId = accountId ∧ override.state = .applied).length

/-- Over every run an override only moves from reserved to applied or reconciled, is applied while it
is unexpired and of the policy version that the consumer read, and every order that was stored beyond
the policy which its task had read has an applied override of its own. -/
theorem overrides_accounted (formed : db.WellFormed) (reached : Reached svc db s)
    (steps : (machine svc).Steps (fun _ _ => True) s later) : OverridesAccounted s later := by
  have arrived : Reached svc db later := Relation.ReflTransGen.trans reached steps
  refine ⟨?_, fun row exceeding => overCap_paid arrived formed exceeding, ?_,
    fun accountId rows distinct exceeding => overCap_count arrived formed distinct exceeding⟩
  · exact steps_overridesLater (reached.represented formed)
      (Machine.Steps.mono (fun _ _ _ => False.elim) steps)
  · rintro row other override exceeding exceeding' ⟨owner, -, named⟩ ⟨owner', -, named'⟩
    exact overCapRow_unique arrived formed exceeding exceeding' (owner.symm.trans owner')
      (Option.some.inj (named.symm.trans named'))

/-- The shop under a cap below the price of one coin, with one override at hand. -/
def cappedShop : Database where
  accounts := shop.accounts
  policies := [{
    accountId := "main"
    maxNotionalPerOrder := some 5
    maxAggregateExposure := none
    allowedSymbols := []
    policyVersion := 1 }]
  overrides := [{
    overrideId := "pass"
    accountId := "main"
    policyVersion := 1
    idempotencyKey := "once"
    actor := "owner"
    reason := "one coin"
    state := .reserved
    createdAt := 0
    expiresAt := 100 }]

theorem cappedShop_wellFormed : cappedShop.WellFormed where
  accountIds := by decide
  strippedIds := by decide
  orderIds := by decide
  orderKeys := by decide
  overrideIds := by decide
  pendingIds := by decide

/-- A buy of one coin at the market, up to the broker's answer. -/
def buyMoves : List (Move Choice Call) :=
  booted ++ .open (.placeOrder buyOne) :: answers 1 (List.replicate 14 calmDay)

/-- The buy that is over the cap uses the override up. -/
theorem capped_buy_accounted :
    ∃ later, (machine demo).run (started demo cappedShop) buyMoves = some later ∧
      (later.world.db.orders.length = 1 ∧
        later.world.db.overrides.all fun override => override.state = .applied) ∧
      OverridesAccounted (started demo cappedShop) later := by
  have passes : ((machine demo).run (started demo cappedShop) buyMoves).any fun later =>
      later.world.db.orders.length = 1 ∧
        later.world.db.overrides.all fun override => override.state = .applied := by
    decide +kernel
  obtain ⟨later, ran, checked⟩ := run_end passes
  exact ⟨later, ran, by simpa using checked,
    overrides_accounted cappedShop_wellFormed .refl (reached_of_run ran)⟩

end Rasat
