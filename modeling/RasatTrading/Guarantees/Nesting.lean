import RasatTrading.Analysis.StoreLaws
import RasatTrading.Guarantees.Independence

/-! Analyses on demand nest no deeper than there are pairs without a stored analysis, or budget for them. -/

namespace Rasat

open Coop Prog

/-- The pairs that the composite alerts read. -/
def PaWorld.clausePairs (world : PaWorld) : List Pair :=
  world.alarms.composites.flatMap fun row => row.definition.pairs

/-- All parts of an analysis of a pair are stored. -/
def PaWorld.settled (world : PaWorld) (pair : Pair) : Bool :=
  (world.current .marketStructure pair).isSome && (world.current .liquidityZones pair).isSome &&
    (world.current .orderBlocks pair).isSome

/-- A pair is settled when each of the tables has its open record. -/
theorem PaWorld.settled_iff {world : PaWorld} {pair : Pair} :
    world.settled pair = true ↔ ∀ table, (world.current table pair).isSome = true := by
  simp only [PaWorld.settled, Bool.and_eq_true]
  constructor
  · intro stored table
    cases table with
    | marketStructure => exact stored.1.1
    | liquidityZones => exact stored.1.2
    | orderBlocks => exact stored.2
  · exact fun stored => ⟨⟨stored _, stored _⟩, stored _⟩

/-- The distinct pairs among some that lack a stored analysis. -/
def PaWorld.lacking (world : PaWorld) (pairs : List Pair) : List Pair :=
  pairs.dedup.filter fun pair => !world.settled pair

/-- The tables of analyses are as calls of `_store_payload` leave them. -/
def PaWorld.Ordered (world : PaWorld) : Prop := ∀ table, (world.payloads table).Orderly

/-! What a request of any task leaves of the stored analyses and of the budget. -/

namespace PayloadTable

variable {π : Type} {table after : PayloadTable π} {call : StoreCall π} {pair : Pair}

/-- In an orderly table a pair with a row has an open one. -/
theorem Orderly.openRow_isSome (orderly : table.Orderly) :
    (table.openRow pair).isSome = true ↔ ∃ row ∈ table.rows, row.pair = pair := by
  constructor
  · intro found
    obtain ⟨row, opened⟩ := Option.isSome_iff_exists.mp found
    obtain ⟨stored, named, -⟩ := openRow_some opened
    exact ⟨row, stored, named⟩
  · rintro ⟨row, stored, rfl⟩
    cases missing : table.openRow row.pair with
    | some current => rfl
    | none =>
      -- An orderly table keeps one row of each pair open.
      obtain ⟨current, listed, shared, opened⟩ := orderly.opened row stored
      exact absurd opened (openRow_none missing current listed shared)

/-- A change leaves the pairs of all rows, and the pair of the call. -/
theorem Change.pairs (changed : Change table call after) (orderly : table.Orderly) :
    (∀ row ∈ table.rows, ∃ kept ∈ after.rows, kept.pair = row.pair) ∧ ∃ row ∈ after.rows, row.pair = call.pair := by
  constructor
  · intro row stored
    obtain ⟨kept, listed, outlives⟩ := changed.outlives orderly stored
    refine ⟨kept, listed, ?_⟩
    rcases outlives with rfl | ⟨-, last, rfl⟩ <;> rfl
  · cases changed with
    | same row stored named bar => exact ⟨row, stored, named⟩
    | first | revise | copy | advance | backfill => exact ⟨_, mem_insert.mpr (.inr rfl), rfl⟩

end PayloadTable

/-- The stored analyses of a state are kept by a later one, and the budget was only spent. -/
structure Grows (budget : ℕ) (before after : PaWorld) : Prop where
  ordered : after.Ordered
  kept : ∀ table pair, (before.current table pair).isSome = true → (after.current table pair).isSome = true
  spent : before.used .alarms ≤ after.used .alarms
  within : after.used .alarms ≤ max budget (before.used .alarms)

variable {budget : ℕ} {world later last : PaWorld}

/-- A state grows into itself. -/
theorem Grows.refl (ordered : world.Ordered) : Grows budget world world :=
  ⟨ordered, fun _ _ stored => stored, le_rfl, le_max_right _ _⟩

/-- A state that grows further has grown from where it began. -/
theorem Grows.trans (first : Grows budget world later) (second : Grows budget later last) :
    Grows budget world last := by
  refine ⟨second.ordered, fun table pair stored => second.kept table pair (first.kept table pair stored),
    first.spent.trans second.spent, ?_⟩
  have early := first.within
  have late := second.within
  omega

/-- A state with the same analyses and the same budget. -/
theorem Grows.of_same (ordered : world.Ordered) (payloads : later.payloads = world.payloads)
    (used : later.used .alarms = world.used .alarms) : Grows budget world later := by
  refine ⟨by rwa [PaWorld.Ordered, payloads], fun table pair stored => ?_, used.ge,
    by rw [used]; exact le_max_right _ _⟩
  simpa only [PaWorld.current, payloads] using stored

/-- A stored part is kept by every call of `_store_payload`. -/
theorem current_store (ordered : world.Ordered) (table : PaTable) (pair : Pair) (effectiveFrom : ℤ)
    (payload : table.Payload) (now : ℤ) :
    (world.store table pair effectiveFrom payload now).Ordered ∧
      (∀ other named, (world.current other named).isSome = true →
        ((world.store table pair effectiveFrom payload now).current other named).isSome = true) ∧
      ((world.store table pair effectiveFrom payload now).current table pair).isSome = true := by
  -- The call changes one table only, and leaves in it the pairs of all rows and its own.
  have changed := PayloadTable.storePayload_change (world.payloads table)
    { pair := pair, algoVersion := table.algoVersion payload, effectiveFrom := effectiveFrom, payload := payload
      now := now }
  have orderly := (ordered table).change changed
  have rows := changed.pairs (ordered table)
  refine ⟨fun other => ?_, fun other named stored => ?_, ?_⟩
  · by_cases same : other = table
    · subst same
      simpa [PaWorld.store] using orderly
    · simpa [PaWorld.store, same] using ordered other
  · by_cases same : other = table
    · subst same
      simp only [PaWorld.current, PaWorld.store, Function.update_self, Option.isSome_map] at stored ⊢
      obtain ⟨row, listed, rfl⟩ := (ordered other).openRow_isSome.mp stored
      exact orderly.openRow_isSome.mpr (rows.1 row listed)
    · simpa [PaWorld.current, PaWorld.store, same] using stored
  · simp only [PaWorld.current, PaWorld.store, Function.update_self, Option.isSome_map]
    exact orderly.openRow_isSome.mpr rows.2

variable {request : PaReq}

/-- Every request but a new pass of the alarm service keeps the analyses, and spends the budget only. -/
theorem serve_grows (ordered : world.Ordered) (begun : request ≠ .beginPass .alarms)
    (choice : PaChoice) : Grows budget world (world.serve budget request choice).2 := by
  -- Most requests leave both the tables of analyses and the budget as they are.
  have same (fault : Option Exc) {β : Type} (answer : β) {later : PaWorld} (payloads : later.payloads = world.payloads)
      (used : later.used = world.used) : Grows budget world (world.access fault (.ok (answer, later))).2 :=
    PaWorld.access_rule (P := Grows budget world) (.refl ordered) fault fun value after ran => by
      cases ran
      exact .of_same ordered payloads (by rw [used])
  cases request with
  | spend who =>
    -- Only the counter of the alarm service is looked at.
    simp only [PaWorld.serve]
    split
    · exact .refl ordered
    · rename_i left
      refine ⟨ordered, fun _ _ stored => stored, ?_, ?_⟩
      · cases who <;> simp
      · cases who with
        | alarms => simp only [Function.update_self]; omega
        | screener => simp
  | beginPass who =>
    cases who with
    | alarms => exact absurd rfl begun
    | screener => exact .of_same ordered rfl (by simp [PaWorld.serve])
  | store table pair effectiveFrom payload =>
    refine PaWorld.access_rule (P := Grows budget world) (.refl ordered) _ fun value after ran => ?_
    cases ran
    obtain ⟨sorted, kept, -⟩ := current_store ordered table pair effectiveFrom payload (truncated choice.host)
    exact ⟨sorted, kept, le_rfl, le_max_right _ _⟩
  | maybeTrigger args =>
    refine PaWorld.access_rule (P := Grows budget world) (.refl ordered) _ fun value after ran => ?_
    obtain ⟨result, -, same⟩ := PaWorld.except_map_ok.mp ran
    obtain ⟨-, rfl⟩ := Prod.mk.inj same
    exact .of_same ordered rfl rfl
  | insertAlert definition now =>
    refine PaWorld.access_rule (P := Grows budget world) (.refl ordered) _ fun value after ran => ?_
    obtain ⟨result, -, same⟩ := PaWorld.except_map_ok.mp ran
    obtain ⟨-, rfl⟩ := Prod.mk.inj same
    exact .of_same ordered rfl rfl
  | feed change => cases change <;> exact same _ _ rfl rfl
  | serverNow | hostNow | evaluate _ _ | screen _ _ | symbolValidity _ => exact .refl ordered
  | deleteAlert alertId => exact same _ _ rfl rfl
  | settle orderId status entry => exact same _ _ rfl rfl
  | candles _ _ | warmUp _ _ | futuresContext _ | futuresSeries _ _ _ | current _ _ | alertsBySymbol _
  | compositeAlerts | alertSymbols | candidateSymbols => exact same _ _ rfl rfl

/-- A settled pair stays settled. -/
theorem Grows.settled (grows : Grows budget world later) {pair : Pair} (settled : world.settled pair = true) :
    later.settled pair = true :=
  PaWorld.settled_iff.mpr fun table => grows.kept table pair (PaWorld.settled_iff.mp settled table)

/-- The requests that make no alert and leave the budgets to others. -/
def Harmless : PaReq → Prop
  | .insertAlert _ _ | .beginPass _ | .spend _ => False
  | _ => True

/-- A harmless request adds no pair to the composite alerts. -/
theorem harmless_clauses (harmless : Harmless request) (choice : PaChoice) :
    (world.serve budget request choice).2.clausePairs ⊆ world.clausePairs := by
  -- Where the database fails, the alerts are as they were.
  have rule (fault : Option Exc) {β : Type} (run : Except Exc (β × PaWorld))
      (kept : ∀ value after, run = .ok (value, after) → after.clausePairs ⊆ world.clausePairs) :
      (world.access fault run).2.clausePairs ⊆ world.clausePairs :=
    PaWorld.access_rule (P := fun after => after.clausePairs ⊆ world.clausePairs) (List.Subset.refl _) fault kept
  have same (fault : Option Exc) {β : Type} (answer : β) {later : PaWorld} (alarms : later.alarms = world.alarms) :
      (world.access fault (.ok (answer, later))).2.clausePairs ⊆ world.clausePairs := by
    refine rule fault _ fun value after ran => ?_
    cases ran
    rw [PaWorld.clausePairs, alarms, PaWorld.clausePairs]
    exact List.Subset.refl _
  cases request with
  | insertAlert _ _ | beginPass _ | spend _ => exact absurd harmless id
  | maybeTrigger args =>
    refine rule _ _ fun value after ran => ?_
    obtain ⟨⟨trigger, alarms⟩, made, same⟩ := PaWorld.except_map_ok.mp ran
    obtain ⟨-, rfl⟩ := Prod.mk.inj same
    rcases maybeTrigger_cases made with ⟨-, rfl⟩ | ⟨row, -, -, -, -, rfl⟩
    · exact List.Subset.refl _
    -- A trigger moves the state of its alert and leaves its definition.
    intro pair member
    simp only [PaWorld.clausePairs, AlertTables.composites, List.mem_flatMap, List.mem_filter, List.mem_map] at member ⊢
    obtain ⟨moved, ⟨⟨old, listed, rfl⟩, composite⟩, named⟩ := member
    have definition : (if old.alertId = args.alertId then AlertTables.rest args old else old).definition =
        old.definition := by
      split
      · exact rest_definition args old
      · rfl
    rw [definition] at composite named
    exact ⟨old, ⟨listed, composite⟩, named⟩
  | deleteAlert alertId =>
    refine rule _ _ fun value after ran => ?_
    cases ran
    -- What is left are alerts that were there.
    intro pair member
    simp only [PaWorld.clausePairs, AlertTables.composites, List.mem_flatMap, List.mem_filter] at member ⊢
    obtain ⟨row, ⟨⟨listed, -⟩, composite⟩, named⟩ := member
    exact ⟨row, ⟨listed, composite⟩, named⟩
  | serverNow | hostNow | evaluate _ _ | screen _ _ | symbolValidity _ => exact List.Subset.refl _
  | feed change => cases change <;> exact same _ _ rfl
  | settle orderId status entry =>
    refine rule _ _ fun value after ran => ?_
    cases ran
    exact List.Subset.refl _
  | candles _ _ | warmUp _ _ | futuresContext _ | futuresSeries _ _ _ | store _ _ _ _ | current _ _
  | alertsBySymbol _ | compositeAlerts | alertSymbols | candidateSymbols => exact same _ _ rfl

/-! The analyses that the alarm service asks for. -/

/-- The pair of a read record. -/
def pairRead : PaReq → Option Pair
  | .current _ pair => some pair
  | _ => none

/-- The alarm service took one analysis from its budget. -/
def granted : (request : PaReq) → Except Exc request.Ans → Bool
  | .spend .alarms, .ok taken => taken
  | _, _ => false

/-- The pairs of the analyses that the alarm service has asked for, newest first: it has just read their records. -/
def demanded : Hist PaReq PaReq.Ans Exc → List Pair
  | [] => []
  | event :: older =>
    if granted event.request event.answer then
      (older.head?.bind fun last => pairRead last.request).toList ++ demanded older
    else demanded older

/-- How many analyses the alarm service has asked for. -/
def grants (hist : Hist PaReq PaReq.Ans Exc) : ℕ := hist.countP fun event => granted event.request event.answer

/-- A harmless request takes no analysis from the budget. -/
theorem granted_harmless (harmless : Harmless request) (answer : Except Exc request.Ans) :
    granted request answer = false := by
  cases request with
  | spend who => exact absurd harmless id
  | _ => cases answer <;> rfl

/-- Behind a harmless request the same analyses were asked for. -/
theorem demanded_harmless (harmless : Harmless request) (answer : Except Exc request.Ans)
    (hist : Hist PaReq PaReq.Ans Exc) : demanded (⟨request, answer⟩ :: hist) = demanded hist := by
  simp [demanded, granted_harmless harmless]

/-- Behind a harmless request as many analyses were granted. -/
theorem grants_harmless (harmless : Harmless request) (answer : Except Exc request.Ans)
    (hist : Hist PaReq PaReq.Ans Exc) : grants (⟨request, answer⟩ :: hist) = grants hist := by
  simp [grants, granted_harmless harmless]

/-- What other tasks do between the steps of one: they make requests, none of which begins a new pass of the alarm
service, and their composite alerts read no other pairs. -/
structure Surroundings.Quiet (budget : ℕ) (pairs : List Pair) (env : Surroundings) : Prop where
  served : ∀ step world, Relation.ReflTransGen (fun before after : PaWorld => ∃ request choice,
    request ≠ .beginPass .alarms ∧ after = (before.serve budget request choice).2) world (env.others step world)
  covered : ∀ step (world : PaWorld), world.clausePairs ⊆ pairs → (env.others step world).clausePairs ⊆ pairs

/-- Other tasks keep the stored analyses. -/
theorem Surroundings.Quiet.grows {pairs : List Pair} {env : Surroundings} (quiet : env.Quiet budget pairs)
    (ordered : world.Ordered) (step : ℕ) : Grows budget world (env.others step world) := by
  have served := quiet.served step world
  generalize env.others step world = after at served ⊢
  -- One request of another task comes after the other.
  induction served with
  | refl => exact .refl ordered
  | tail _ last ih =>
    obtain ⟨request, choice, begun, rfl⟩ := last
    exact ih.trans (serve_grows ih.ordered begun choice)

/-- One analysis among other tasks: where it starts, and the pairs that composite alerts may read meanwhile. -/
structure Outset where
  cfg : PaConfig
  env : Surroundings
  root : Pair
  start : PaWorld
  pairs : List Pair

namespace Outset

/-- The server of its requests. -/
abbrev server (o : Outset) : Server PaReq PaReq.Ans Exc (ℕ × PaWorld) := among o.cfg.budget o.env

/-- The analyses on demand that there is budget for, or pairs without one. -/
def bound (o : Outset) : ℕ := min (o.cfg.budget - o.start.used .alarms) (o.start.lacking o.pairs).length

/-- What always holds in the course of an analysis. -/
structure Going (o : Outset) (state : ℕ × PaWorld) (hist : Hist PaReq PaReq.Ans Exc) : Prop where
  ordered : state.2.Ordered
  clauses : state.2.clausePairs ⊆ o.pairs
  kept : ∀ pair, o.start.settled pair = true → state.2.settled pair = true
  spent : o.start.used .alarms + (demanded hist).length ≤ state.2.used .alarms
  within : state.2.used .alarms ≤ max o.cfg.budget (o.start.used .alarms)
  distinct : (o.root :: demanded hist).Nodup
  asked : demanded hist ⊆ o.start.lacking o.pairs
  counted : grants hist = (demanded hist).length

/-- Whenever an alert is evaluated, all pairs that an analysis was begun of are settled; a pair is left out while its
analysis is being made. -/
structure Stands (o : Outset) (least : ℕ) (open_pair : Option Pair) (state : ℕ × PaWorld)
    (hist : Hist PaReq PaReq.Ans Exc) : Prop where
  least : least ≤ (demanded hist).length
  settled : ∀ pair ∈ o.root :: demanded hist, open_pair ≠ some pair → state.2.settled pair = true

/-- Two coroutines that come to the same in the course of an analysis. -/
abbrev Same {α : Type} (o : Outset) (first second : PaTask α) (state : ℕ × PaWorld)
    (hist : Hist PaReq PaReq.Ans Exc) (post : α → ℕ × PaWorld → Hist PaReq PaReq.Ans Exc → Prop) : Prop :=
  Alike o.server o.Going first second state hist post

variable {o : Outset} {state : ℕ × PaWorld} {hist : Hist PaReq PaReq.Ans Exc} {least : ℕ} {open_pair : Option Pair}
  {α : Type}

/-- No more analyses are asked for than there is budget and there are pairs. -/
theorem Going.bounded (going : o.Going state hist) : (demanded hist).length ≤ o.bound := by
  -- The asked pairs are distinct, lacked an analysis at the start, and took one unit of the budget each.
  have distinct := (List.nodup_cons.mp going.distinct).2
  have pairs := (distinct.subperm going.asked).length_le
  have spent := going.spent
  have within := going.within
  simp only [bound]
  omega

variable (quiet : o.env.Quiet o.cfg.budget o.pairs)

include quiet

/-- The state that a request is served from. -/
theorem Going.met (going : o.Going state hist) :
    Grows o.cfg.budget state.2 (o.env.others state.1 state.2) ∧
      (o.env.others state.1 state.2).clausePairs ⊆ o.pairs :=
  ⟨quiet.grows going.ordered state.1, quiet.covered state.1 state.2 going.clauses⟩

variable {after : ℕ × PaWorld} {pair : Pair}

omit quiet in
/-- Every later state with the same demands goes on. -/
theorem Going.persists {seen : Hist PaReq PaReq.Ans Exc} (going : o.Going state hist)
    (grows : Grows o.cfg.budget state.2 after.2) (clauses : after.2.clausePairs ⊆ o.pairs)
    (demands : demanded seen = demanded hist) (counts : grants seen = grants hist) : o.Going after seen := by
  have spent := grows.spent
  have within := grows.within
  have spent' := going.spent
  have within' := going.within
  refine ⟨grows.ordered, clauses, fun pair stored => grows.settled (going.kept pair stored), ?_, ?_, ?_, ?_, ?_⟩
  · rw [demands]; omega
  · omega
  · rw [demands]; exact going.distinct
  · rw [demands]; exact going.asked
  · rw [demands, counts]; exact going.counted

omit quiet in
/-- In every later state with the same demands the same pairs are settled. -/
theorem Stands.persists {seen : Hist PaReq PaReq.Ans Exc} (stands : o.Stands least open_pair state hist)
    (grows : Grows o.cfg.budget state.2 after.2) (demands : demanded seen = demanded hist) :
    o.Stands least open_pair after seen := by
  refine ⟨demands ▸ stands.least, fun pair member left => grows.settled (stands.settled pair ?_ left)⟩
  rwa [demands] at member

/-- A served harmless request leaves the tables no poorer. -/
theorem served_harmless (going : o.Going state hist) {request : PaReq}
    (harmless : Harmless request) : Grows o.cfg.budget state.2 (o.server request state).2.2 ∧
      (o.server request state).2.2.clausePairs ⊆ o.pairs := by
  obtain ⟨grows, clauses⟩ := going.met quiet
  have begun : request ≠ .beginPass .alarms := fun same => by rw [same] at harmless; exact harmless
  exact ⟨grows.trans (serve_grows grows.ordered begun _), List.Subset.trans (harmless_clauses harmless _) clauses⟩

variable {program : PaTask α}

/-- A program of harmless requests keeps what stands. -/
theorem same_harmless (only : program.Only Harmless)
    (going : o.Going state hist) (stands : o.Stands least open_pair state hist) :
    o.Same program program state hist fun _ => o.Stands least open_pair := by
  -- The history is longer by one event, which asks for nothing.
  refine Alike.of_only only going stands fun request later seen harmless going stands => ?_
  obtain ⟨grows, clauses⟩ := served_harmless quiet going harmless
  have demands := demanded_harmless harmless (o.server request later).1 seen
  exact ⟨going.persists grows clauses demands (grants_harmless harmless _ _), stands.persists grows demands⟩

omit quiet in
/-- A program that only reads is harmless. -/
theorem harmless_of_readOnly (only : program.Only ReadOnly) : program.Only Harmless := by
  refine only.mono fun request kind => ?_
  cases request with
  | insertAlert _ _ | beginPass _ | spend _ => exact absurd kind id
  | _ => trivial

/-- A program that only reads keeps what stands. -/
theorem same_readOnly (only : program.Only ReadOnly)
    (going : o.Going state hist) (stands : o.Stands least open_pair state hist) :
    o.Same program program state hist fun _ => o.Stands least open_pair :=
  same_harmless quiet (harmless_of_readOnly only) going stands

/-- One harmless request. -/
theorem same_await (request : PaReq) (harmless : Harmless request)
    (going : o.Going state hist) (stands : o.Stands least open_pair state hist) :
    o.Same (await request) (await request) state hist fun _ => o.Stands least open_pair :=
  same_harmless quiet (only_call.mpr harmless) going stands

/-- One harmless request, with what its answer tells. -/
theorem same_request (going : o.Going state hist)
    (stands : o.Stands least open_pair state hist) {request : PaReq} (harmless : Harmless request)
    {post : request.Ans → ℕ × PaWorld → Hist PaReq PaReq.Ans Exc → Prop}
    (tells : ∀ answer, (o.server request state).1 = .ok answer →
      Grows o.cfg.budget state.2 (o.server request state).2.2 →
        post answer (o.server request state).2 (⟨request, .ok answer⟩ :: hist)) :
    o.Same (await request) (await request) state hist fun answer later seen =>
      o.Stands least open_pair later seen ∧ post answer later seen := by
  obtain ⟨grows, clauses⟩ := served_harmless quiet going harmless
  refine .call (going.persists grows clauses (demanded_harmless harmless _ _) (grants_harmless harmless _ _))
    fun answer returned => ?_
  exact ⟨stands.persists grows (demanded_harmless harmless _ _), tells answer returned grows⟩

/-! The parts of an analysis. -/

/-- A stored part is there, as are the parts that were stored before it. -/
theorem same_store (going : o.Going state hist)
    (stands : o.Stands least open_pair state hist) (table : PaTable) (result : AnalysisResult) (earlier : List PaTable)
    (stored : ∀ other ∈ earlier, (state.2.current other result.pair).isSome = true) :
    o.Same (await (.store table result.pair result.asOf (result.payload table)))
      (await (.store table result.pair result.asOf (result.payload table))) state hist fun _ later seen =>
        o.Stands least open_pair later seen ∧
          ∀ other ∈ table :: earlier, (later.2.current other result.pair).isSome = true := by
  have harmless : Harmless (.store table result.pair result.asOf (result.payload table)) := trivial
  refine same_request quiet going stands harmless fun answer returned grows other member => ?_
  rcases List.mem_cons.mp member with rfl | before
  · -- The database has not failed, since the request has returned.
    have made := (current_store (going.met quiet).1.ordered other result.pair result.asOf (result.payload other)
      (truncated (o.env.choice state.1).host)).2.2
    rw [← (PaWorld.access_returned returned).2] at made
    exact made
  · exact grows.kept other result.pair (stored other before)

/-- An analysis that succeeds has settled its pair. -/
theorem same_computeAnalysis (pair : Pair) (lookback : ℕ)
    (going : o.Going state hist) (stands : o.Stands least (some pair) state hist) :
    o.Same (computeAnalysis o.cfg.general8 pair lookback) (computeAnalysis o.cfg.general8 pair lookback) state hist
      fun result later seen => o.Stands least none later seen ∧ result.pair = pair := by
  have market (request : PaReq) (kind : MarketOnly request) : Harmless request := by
    cases request <;> first | exact trivial | exact absurd kind id
  unfold computeAnalysis storeAnalysis
  simp only [Prog.bind_eq, bind_assoc]
  refine (same_harmless quiet ((analysisWindow_market pair lookback).mono market) going stands).bind
    fun window later seen going stands => ?_
  refine (same_await quiet (.futuresContext pair.symbol) trivial going stands).bind
    fun futures later seen going stands => ?_
  -- The parts are stored one after the other, and each store keeps the earlier ones.
  refine (same_store quiet going stands .marketStructure
    (analysisOf o.cfg.general8 pair window futures) [] (by simp)).bind fun _ later seen going stored => ?_
  refine (same_store quiet going stored.1 .liquidityZones
    (analysisOf o.cfg.general8 pair window futures) _ stored.2).bind fun _ later seen going stored => ?_
  refine (same_store quiet going stored.1 .orderBlocks
    (analysisOf o.cfg.general8 pair window futures) _ stored.2).bind fun _ later seen going stored => ?_
  refine .done going ⟨⟨stored.1.least, fun other member _ => ?_⟩, rfl⟩
  by_cases same : pair = other
  · subst same
    refine PaWorld.settled_iff.mpr fun table => stored.2 table ?_
    cases table <;> simp
  · exact stored.1.settled other member fun named => same (Option.some.inj named)

/-! The analyses on demand. -/

/-- A pair that no analysis was begun of, and that lacked one at the beginning. -/
structure Fresh (o : Outset) (asked : List Pair) (pair : Pair) : Prop where
  unasked : pair ∉ o.root :: asked
  lacked : o.start.settled pair = false

/-- A missing record is one of a pair that no analysis was begun of. -/
theorem same_current (going : o.Going state hist)
    (stands : o.Stands least none state hist) (table : PaTable) (pair : Pair) :
    o.Same (await (.current table pair)) (await (.current table pair)) state hist fun record later seen =>
      o.Stands least none later seen ∧ demanded seen = demanded hist ∧
        (seen.head?.bind fun last => pairRead last.request) = some pair ∧
          (record.isNone = true → o.Fresh (demanded hist) pair) := by
  have harmless : Harmless (.current table pair) := trivial
  have met := (going.met quiet).1
  refine same_request quiet going stands harmless fun record returned grows =>
    ⟨demanded_harmless harmless _ _, rfl, fun missing => ?_⟩
  -- The tables that were read do not settle the pair, but they settle those that analyses were begun of.
  have unsettled : (o.env.others state.1 state.2).settled pair = false := by
    rw [← Bool.not_eq_true]
    intro settled
    have stored := PaWorld.settled_iff.mp settled table
    rw [(PaWorld.access_returned returned).1] at stored
    cases record <;> simp at stored missing
  constructor
  · intro asked
    have settled := met.settled (stands.settled pair asked (by simp))
    simp [unsettled] at settled
  · rw [← Bool.not_eq_true]
    intro stored
    have settled := met.settled (going.kept pair stored)
    simp [unsettled] at settled

/-- A stored analysis lacks a part only of a pair that no analysis was begun of. -/
theorem same_readStored (going : o.Going state hist)
    (stands : o.Stands least none state hist) (pair : Pair) :
    o.Same (readStored pair) (readStored pair) state hist fun stored later seen =>
      o.Stands least none later seen ∧ (seen.head?.bind fun last => pairRead last.request) = some pair ∧
        (stored.marketStructure.isNone ∨ stored.liquidity.isNone ∨ stored.orderBlocks.isNone →
          o.Fresh (demanded seen) pair) := by
  unfold readStored
  refine (same_current quiet going stands _ pair).bind fun structured later seen going read => ?_
  obtain ⟨stands, first, -, missing⟩ := read
  refine (same_current quiet going stands _ pair).bind fun zones later seen going read => ?_
  obtain ⟨stands, second, -, missing'⟩ := read
  refine (same_current quiet going stands _ pair).bind fun blocks later seen going read => ?_
  obtain ⟨stands, third, last, missing''⟩ := read
  refine .done going ⟨stands, last, fun lacks => ?_⟩
  -- The three reads have asked for nothing.
  rw [third, second, first]
  rw [second, first] at missing''
  rw [first] at missing'
  rcases lacks with lacks | lacks | lacks
  · exact missing lacks
  · exact missing' lacks
  · exact missing'' lacks

omit quiet in
/-- A granted analysis is one of the pair whose records were just read. -/
theorem demanded_grant (read : (hist.head?.bind fun last => pairRead last.request) = some pair) :
    demanded (⟨.spend .alarms, .ok true⟩ :: hist) = pair :: demanded hist := by
  simp [demanded, granted, read]

omit quiet in
/-- A granted analysis is a further one, of a pair that had none. -/
theorem Going.grant (going : o.Going state hist)
    (grows : Grows o.cfg.budget state.2 after.2) (clauses : after.2.clausePairs ⊆ o.pairs)
    (taken : state.2.used .alarms + 1 ≤ after.2.used .alarms) (listed : pair ∈ o.pairs)
    (read : (hist.head?.bind fun last => pairRead last.request) = some pair) (fresh : o.Fresh (demanded hist) pair) :
    o.Going after (⟨.spend .alarms, .ok true⟩ :: hist) := by
  have demands := demanded_grant read
  have spent := going.spent
  have early := going.within
  have late := grows.within
  -- The budget was looked at in the state that the request is served from.
  refine ⟨grows.ordered, clauses, fun other stored => grows.settled (going.kept other stored), ?_, ?_, ?_, ?_, ?_⟩
  · rw [demands, List.length_cons]
    omega
  · omega
  · rw [demands, List.nodup_cons, List.mem_cons, not_or, List.nodup_cons]
    obtain ⟨apart, distinct⟩ := List.nodup_cons.mp going.distinct
    have unasked := fresh.unasked
    rw [List.mem_cons, not_or] at unasked
    exact ⟨⟨fun same => unasked.1 same.symm, apart⟩, unasked.2, distinct⟩
  · rw [demands]
    refine List.cons_subset.mpr ⟨?_, going.asked⟩
    simp [PaWorld.lacking, listed, fresh.lacked]
  · have counts : grants (⟨.spend .alarms, .ok true⟩ :: hist) = grants hist + 1 := List.countP_cons_of_pos rfl
    rw [demands, counts, going.counted, List.length_cons]

omit quiet in
/-- The pair of a granted analysis is left out until its analysis is made. -/
theorem Stands.grant (stands : o.Stands least none state hist) (grows : Grows o.cfg.budget state.2 after.2)
    (read : (hist.head?.bind fun last => pairRead last.request) = some pair) :
    o.Stands (least + 1) (some pair) after (⟨.spend .alarms, .ok true⟩ :: hist) := by
  refine ⟨?_, fun other member left => ?_⟩
  · rw [demanded_grant read, List.length_cons]
    exact Nat.succ_le_succ stands.least
  · rw [demanded_grant read] at member
    -- Only the pair of the grant is new, and it is the one that is left out.
    have others : other ∈ o.root :: demanded hist := by
      simp only [List.mem_cons] at member ⊢
      rcases member with root | rfl | asked
      · exact .inl root
      · exact absurd rfl left
      · exact .inr asked
    exact grows.settled (stands.settled other others (by simp))

/-- An analysis on demand is granted while the budget lasts. -/
theorem same_spend (going : o.Going state hist)
    (stands : o.Stands least none state hist) (listed : pair ∈ o.pairs)
    (read : (hist.head?.bind fun last => pairRead last.request) = some pair) (fresh : o.Fresh (demanded hist) pair) :
    o.Same (await (.spend .alarms)) (await (.spend .alarms)) state hist fun taken later seen =>
      if taken then o.Stands (least + 1) (some pair) later seen else o.Stands least none later seen := by
  obtain ⟨met, clauses⟩ := going.met quiet
  have grows : Grows o.cfg.budget state.2 (o.server (.spend .alarms) state).2.2 :=
    met.trans (serve_grows met.ordered (by simp) _)
  by_cases empty : o.cfg.budget ≤ (o.env.others state.1 state.2).used .alarms
  · -- The budget is used up, and nothing changes.
    have served : o.server (.spend .alarms) state = (.ok false, state.1 + 1, o.env.others state.1 state.2) := by
      simp [among, PaWorld.serve, empty]
    have demands : demanded (⟨.spend .alarms, .ok false⟩ :: hist) = demanded hist := by simp [demanded, granted]
    refine .call ?_ fun taken returned => ?_
    · rw [served]
      exact going.persists met clauses demands (by simp [grants, granted])
    · rw [served] at returned ⊢
      obtain rfl : false = taken := Except.ok.inj returned
      have still : o.Stands least none (state.1 + 1, o.env.others state.1 state.2)
          (⟨.spend .alarms, .ok false⟩ :: hist) := stands.persists met demands
      simpa using still
  · have served : o.server (.spend .alarms) state = (.ok true, state.1 + 1, { o.env.others state.1 state.2 with
        used := Function.update (o.env.others state.1 state.2).used .alarms
          ((o.env.others state.1 state.2).used .alarms + 1) }) := by
      simp [among, PaWorld.serve, empty]
    -- One unit is taken, for the pair whose records were just read.
    rw [served] at grows
    refine .call ?_ fun taken returned => ?_
    · rw [served]
      refine going.grant grows clauses ?_ listed read fresh
      simpa using met.spent
    · rw [served] at returned ⊢
      obtain rfl : true = taken := Except.ok.inj returned
      exact stands.grant grows read

/-- Two ways to make the analyses on demand that come to the same once enough of them were asked for. -/
def Nested (o : Outset) (enough : ℕ) (first second : Pair → PaTask Unit) : Prop :=
  ∀ pair state hist least, enough ≤ least → o.Going state hist → o.Stands least (some pair) state hist →
    o.Same (first pair) (second pair) state hist fun _ => o.Stands least none

variable {enough : ℕ} {first second : Pair → PaTask Unit}

/-- The stored analysis of a pair, or one on demand. -/
theorem same_storedAnalysis (nested : o.Nested enough first second)
    (near : enough ≤ least + 1) (going : o.Going state hist) (stands : o.Stands least none state hist)
    (listed : pair ∈ o.pairs) :
    o.Same (storedAnalysis .alarms first pair) (storedAnalysis .alarms second pair) state hist
      fun _ => o.Stands least none := by
  refine (same_readStored quiet going stands pair).bind fun stored later seen going read => ?_
  obtain ⟨stands, last, missing⟩ := read
  split
  next lacks =>
    refine (same_spend quiet going stands listed last (missing lacks)).bind fun taken later seen going spent => ?_
    cases taken with
    | false => exact .done going spent
    | true =>
      -- The grant counts, so that the analysis may nest one level less.
      refine (nested pair later seen (least + 1) near going spent).bind fun _ later seen going stands => ?_
      have weaker : o.Stands least none later seen := ⟨(Nat.le_succ _).trans stands.least, stands.settled⟩
      refine (same_readStored quiet going weaker pair).bind fun made later seen going read => ?_
      exact .done going read.1
  next => exact .done going stands

omit quiet in
/-- A trigger reads the clock and moves an alert. -/
theorem maybeTrigger_harmless (row : AlertRow) (triggerKey : String) (payload : TriggerPayload) :
    (maybeTrigger row triggerKey payload).Only Harmless :=
  only_asks trivial fun _ => only_call.mpr trivial

omit quiet in
/-- A simple alert of the pair that was analyzed asks for no analysis. -/
theorem evaluateSimple_harmless (ctx : Context) (pair : Pair) (triggers : List TriggeredAlert) (row : AlertRow) :
    (evaluateSimple (return some ctx) pair triggers row).Only Harmless := by
  unfold evaluateSimple
  split
  · exact only_done
  refine only_bind (harmless_of_readOnly (isArmed_readOnly row)) fun armed => ?_
  split
  · refine only_bind only_done fun found => ?_
    split
    · exact only_done
    · refine only_asks trivial fun matched => ?_
      split
      · exact only_bind (maybeTrigger_harmless _ _ _) fun _ => only_done
      · exact only_done
  · exact only_done

/-- The context of a clause. -/
theorem same_clauseContext (nested : o.Nested enough first second)
    (near : enough ≤ least + 1) (going : o.Going state hist) (stands : o.Stands least none state hist)
    (listed : pair ∈ o.pairs) :
    o.Same (clauseContext first pair) (clauseContext second pair) state hist fun _ => o.Stands least none := by
  refine (same_await quiet (.candles pair alarmLookback) trivial going stands).bind
    fun candles later seen going stands => ?_
  split
  next => exact .done going stands
  next =>
    split
    next => exact .fail going
    next tf named =>
      refine (same_readOnly quiet (filterClosedCandles_readOnly tf candles) going stands).bind
        fun closed later seen going stands => ?_
      split
      next => exact .done going stands
      next =>
        refine (same_storedAnalysis quiet nested near going stands listed).bind
          fun stored later seen going stands => ?_
        split
        next => exact .done going stands
        next found =>
          split
          next => exact .done going stands
          next asOf structured read =>
            refine (same_await quiet .serverNow trivial going stands).bind fun now later seen going stands => ?_
            split
            next => exact .done going stands
            next =>
              refine (same_readOnly quiet (latestFutures_readOnly _ _) going stands).bind
                fun fundingRate later seen going stands => ?_
              refine (same_await quiet (.futuresSeries pair.symbol "open_interest" 20) trivial going stands).bind
                fun oiSeries later seen going stands => ?_
              exact .done going stands

/-- The contexts of the clauses of a composite alert. -/
theorem same_clauseContexts (nested : o.Nested enough first second)
    (near : enough ≤ least + 1) (clauses : List Clause) (listed : ∀ clause ∈ clauses, clause.pair ∈ o.pairs)
    (going : o.Going state hist) (stands : o.Stands least none state hist) :
    o.Same (clauseContexts first clauses) (clauseContexts second clauses) state hist
      fun _ => o.Stands least none := by
  induction clauses generalizing state hist with
  | nil => exact .done going stands
  | cons clause rest ih =>
    refine (same_clauseContext quiet nested near going stands (listed clause List.mem_cons_self)).bind
      fun ctx later seen going stands => ?_
    cases ctx with
    | none => exact .done going stands
    | some ctx =>
      refine (ih (fun other member => listed other (List.mem_cons_of_mem _ member)) going stands).bind
        fun contexts later seen going stands => ?_
      exact .done going stands

/-- `_evaluate_composite`. -/
theorem same_evaluateComposite (nested : o.Nested enough first second)
    (near : enough ≤ least + 1) (row : AlertRow) (listed : row.definition.pairs ⊆ o.pairs)
    (going : o.Going state hist) (stands : o.Stands least none state hist) :
    o.Same (evaluateComposite first row) (evaluateComposite second row) state hist fun _ => o.Stands least none := by
  unfold evaluateComposite
  cases body : row.definition.body with
  | simple pair condition orderSpec => exact .done going stands
  | composite combine clause rest =>
    have pairs : ∀ other ∈ clause :: rest, other.pair ∈ o.pairs := by
      intro other member
      refine listed ?_
      rw [AlertDefinition.pairs, body]
      exact List.mem_map_of_mem member
    refine (same_readOnly quiet (isArmed_readOnly row) going stands).bind fun armed later seen going stands => ?_
    cases armed with
    | false => exact .done going stands
    | true =>
      refine (same_clauseContexts quiet nested near (clause :: rest) pairs going stands).bind
        fun contexts later seen going stands => ?_
      cases contexts with
      | none => exact .done going stands
      | some contexts =>
        refine (same_readOnly quiet (evaluateClauses_readOnly combine contexts) going stands).bind
          fun matched later seen going stands => ?_
        cases matched with
        | false => exact .done going stands
        | true => exact same_harmless quiet (maybeTrigger_harmless _ _ _) going stands

/-- The composite alerts that are read name pairs of the list only. -/
theorem same_compositeAlerts (going : o.Going state hist)
    (stands : o.Stands least none state hist) :
    o.Same (await .compositeAlerts) (await .compositeAlerts) state hist fun alerts later seen =>
      o.Stands least none later seen ∧ ∀ row ∈ alerts, row.definition.pairs ⊆ o.pairs := by
  have harmless : Harmless .compositeAlerts := trivial
  refine same_request quiet going stands harmless fun alerts returned grows row member pair named => ?_
  have covered := (going.met quiet).2
  refine covered (List.mem_flatMap.mpr ⟨row, ?_, named⟩)
  rw [(PaWorld.access_returned returned).1]
  exact member

/-- `on_analysis_updated` nests analyses that come to the same. -/
theorem same_onAnalysisUpdated (nested : o.Nested enough first second)
    (near : enough ≤ least + 1) (result : AnalysisResult) (going : o.Going state hist)
    (stands : o.Stands least none state hist) :
    o.Same (onAnalysisUpdated first result) (onAnalysisUpdated second result) state hist
      fun _ => o.Stands least none := by
  unfold onAnalysisUpdated
  split
  next => exact .fail going
  next tf named =>
    refine (same_await quiet .serverNow trivial going stands).bind fun now later seen going stands => ?_
    split
    next => exact .done going stands
    next =>
      refine (same_readOnly quiet (updatedContext_readOnly tf result) going stands).bind
        fun ctx later seen going stands => ?_
      refine (same_await quiet (.alertsBySymbol result.pair) trivial going stands).bind
        fun alerts later seen going stands => ?_
      refine (same_harmless quiet (only_foldlM (fun triggers row =>
        evaluateSimple_harmless ctx result.pair triggers row) alerts []) going stands).bind
          fun triggers later seen going stands => ?_
      -- Only composite alerts may nest; each evaluation begins and ends with all pairs settled.
      refine (same_compositeAlerts quiet going stands).bind fun rows later seen going read => ?_
      refine Alike.foldlM (o.Stands least none) going read.1 fun row member triggers later seen going stands => ?_
      split
      next =>
        refine (same_evaluateComposite quiet nested near row (read.2 row member) going stands).bind
          fun trigger later seen going stands => ?_
        exact .done going stands
      next => exact .done going stands

end Outset

/-! Analyses within analyses. -/

/-- The analysis that the interpreter no longer begins. -/
def tooDeep : Pair → ℕ → PaTask AnalysisResult := fun _ _ => .fail recursionError

/-- `analyze`, over some other way to make the analyses that nest too deep. -/
def analyzeOver (cfg : PaConfig) (bottom : Pair → ℕ → PaTask AnalysisResult) : ℕ → Pair → ℕ → PaTask AnalysisResult
  | 0, pair, lookback => bottom pair lookback
  | depth + 1, pair, lookback => do
    let result ← computeAnalysis cfg.general8 pair lookback
    let _ ← onAnalysisUpdated
      (fun other => (analyzeOver cfg bottom depth other paLookback).bind fun _ => .done ()) result
    return result

/-- The analysis of the source is the one over the error that the interpreter raises. -/
theorem analyzeOver_tooDeep (cfg : PaConfig) (depth : ℕ) : analyzeOver cfg tooDeep depth = analyze cfg depth := by
  -- On each level the analyses on demand are those of the level below.
  induction depth with
  | zero => rfl
  | succ depth ih =>
    funext pair lookback
    simp only [analyzeOver, analyze, ih]

namespace Outset

variable {o : Outset}

/-- An analysis comes to the same over all ways to make the analyses that nest too deep, when those that it may ask for
are fewer than the levels. -/
theorem same_analyze (quiet : o.env.Quiet o.cfg.budget o.pairs) (bottom other : Pair → ℕ → PaTask AnalysisResult)
    (depth : ℕ) : ∀ enough, o.bound < depth + enough ∨ (bottom = tooDeep ∧ other = tooDeep) →
      ∀ pair lookback state hist least, enough ≤ least → o.Going state hist → o.Stands least (some pair) state hist →
        o.Same (analyzeOver o.cfg bottom depth pair lookback) (analyzeOver o.cfg other depth pair lookback) state hist
          fun _ => o.Stands least none := by
  -- Every level needs one more grant, and there are no more grants than the bound.
  induction depth with
  | zero =>
    intro enough shallow pair lookback state hist least near going stands
    rcases shallow with few | ⟨rfl, rfl⟩
    · -- Enough analyses were asked for to use up the bound, so that this one cannot be begun.
      have made := going.bounded
      have asked := stands.least
      omega
    · exact .fail going
  | succ depth ih =>
    intro enough shallow pair lookback state hist least near going stands
    refine (same_computeAnalysis quiet pair lookback going stands).bind fun result later seen going made => ?_
    -- An analysis on demand has one level less and one grant more.
    have nested : o.Nested (enough + 1)
        (fun other => (analyzeOver o.cfg bottom depth other paLookback).bind fun _ => .done ())
        (fun pair => (analyzeOver o.cfg other depth pair paLookback).bind fun _ => .done ()) := by
      intro pair state hist least near going stands
      have fewer : o.bound < depth + (enough + 1) ∨ (bottom = tooDeep ∧ other = tooDeep) :=
        shallow.imp_left fun few => by omega
      refine (ih (enough + 1) fewer pair paLookback state hist least near going stands).bind
        fun result later seen going stands => ?_
      exact .done going stands
    refine (same_onAnalysisUpdated quiet nested (Nat.succ_le_succ near) result going made.1).bind
      fun triggers later seen going stands => ?_
    exact .done going stands

/-- An analysis begins with nothing asked for. -/
theorem going_start (ordered : o.start.Ordered) (clauses : o.start.clausePairs ⊆ o.pairs) :
    o.Going (0, o.start) [] ∧ o.Stands 0 (some o.root) (0, o.start) [] := by
  -- Of the pairs only the root was begun, and it is the one that is left out.
  refine ⟨⟨ordered, clauses, fun pair stored => stored, le_rfl, le_max_right _ _, by simp [demanded],
    by simp [demanded], rfl⟩, le_rfl, fun pair member left => ?_⟩
  obtain rfl : pair = o.root := by simpa [demanded] using member
  exact absurd rfl left

end Outset

/-- Every request leaves the tables of analyses orderly. -/
theorem serve_ordered {budget : ℕ} {world : PaWorld} (ordered : world.Ordered) (request : PaReq) (choice : PaChoice) :
    (world.serve budget request choice).2.Ordered := by
  by_cases begun : request = .beginPass .alarms
  · -- A new pass only sets the budget back.
    subst begun
    exact ordered
  · exact (serve_grows ordered begun choice).ordered

/-- In every state that a run reaches the tables of analyses are orderly. -/
theorem PaReached.ordered {cfg : PaConfig} {s : PaState} (reached : PaReached cfg s) : s.world.Ordered := by
  induction reached with
  | refl => exact fun table => PayloadTable.Orderly.empty
  | tail _ moved ih =>
    obtain ⟨move, -, stepped⟩ := moved
    rcases Machine.step_cases stepped with ⟨call, value, -, -, rfl⟩ |
      ⟨task, choice, request, next, answer, world, -, -, performed, rfl⟩ | ⟨-, rfl⟩
    · exact ih
    · -- A request of any task is served by the tables.
      simp only [paMachine, paPerform] at performed
      split at performed
      · cases performed
      · obtain rfl : _ = world := congrArg Prod.snd (Option.some.inj performed)
        exact serve_ordered ih request choice
    · exact ih

/-- The analyses that an analysis of a pair has asked for: no more than there was budget left or there were pairs
without a stored analysis, each of them at most once, and never the pair itself. -/
structure AsksFew (budget : ℕ) (pairs : List Pair) (world : PaWorld) (pair : Pair) (hist : Hist PaReq PaReq.Ans Exc) :
    Prop where
  few : grants hist ≤ min (budget - world.used .alarms) (world.lacking pairs).length
  named : (demanded hist).length = grants hist
  once : (pair :: demanded hist).Nodup
  lacked : demanded hist ⊆ world.lacking pairs

/-- For every stored state with its alerts, and whatever other tasks do meanwhile but begin a new pass: an analysis asks
for few analyses, however deep they may nest. It ends before it nests deeper than the number of these, since it comes
to the same along the same steps whatever stands for the deeper analyses. -/
theorem nested_analyses_end (cfg : PaConfig) {s : PaState} (reached : PaReached cfg s) (env : Surroundings)
    (pairs : List Pair) (covers : s.world.clausePairs ⊆ pairs) (quiet : env.Quiet cfg.budget pairs) (pair : Pair)
    (lookback : ℕ) :
    (∀ depth, AsksFew cfg.budget pairs s.world pair
      (events (among cfg.budget env) (analyze cfg depth pair lookback) (0, s.world))) ∧
    ∀ depth, min (cfg.budget - s.world.used .alarms) (s.world.lacking pairs).length < depth → ∀ bottom,
      exec (among cfg.budget env) (analyzeOver cfg bottom depth pair lookback) (0, s.world) =
          exec (among cfg.budget env) (analyze cfg depth pair lookback) (0, s.world) ∧
        events (among cfg.budget env) (analyzeOver cfg bottom depth pair lookback) (0, s.world) =
          events (among cfg.budget env) (analyze cfg depth pair lookback) (0, s.world) := by
  obtain ⟨going, stands⟩ := Outset.going_start (o := ⟨cfg, env, pair, s.world, pairs⟩) reached.ordered covers
  constructor
  · -- What always holds in its course holds at the end of the analysis, too.
    intro depth
    have same := Outset.same_analyze quiet tooDeep tooDeep depth 0 (.inr ⟨rfl, rfl⟩) pair lookback _ _ 0 le_rfl
      going stands
    have last := same.always
    rw [analyzeOver_tooDeep, List.append_nil] at last
    exact ⟨last.counted ▸ last.bounded, last.counted.symm, last.distinct, last.asked⟩
  · -- With more levels than the bound the deepest one is never reached.
    intro depth few bottom
    have shallow : (⟨cfg, env, pair, s.world, pairs⟩ : Outset).bound < depth + 0 := few
    have same := Outset.same_analyze quiet bottom tooDeep depth 0 (.inl shallow) pair lookback _ _ 0 le_rfl going stands
    rw [analyzeOver_tooDeep] at same
    exact ⟨same.ends, same.hears⟩

/-- An alert over two markets is made, and six bars of each of them arrive. -/
def twoMarkets : List (Move PaChoice PaCall) :=
  [.open (.createCompositeAlert .and
      [⟨⟨"BTCUSDT", "1h"⟩, anyPrice⟩, ⟨⟨"ETHUSDT", "1h"⟩, anyPrice⟩] 60 none),
    .resume 1 (atSix 0), .resume 1 (atSix 0),
    .open (.feed (.candles ((List.range 6).flatMap fun hour =>
      [hourBar "BTCUSDT" hour (10 + hour), hourBar "ETHUSDT" hour (20 + hour)]))),
    .resume 2 (atSix 1)]

/-- Nobody else makes a request in the quiet hour. -/
theorem quietHour_quiet (budget : ℕ) (pairs : List Pair) : quietHour.Quiet budget pairs :=
  ⟨fun _ _ => .refl, fun _ _ covered => covered⟩

/-- An analysis of one market asks for that of the other one, and for no more. -/
theorem nested_analyses_end_twoMarkets : ∃ s, PaReached plainConfig s ∧
    demanded (events (among 8 quietHour) (analyze plainConfig 3 ⟨"BTCUSDT", "1h"⟩ paLookback) (0, s.world)) =
      [⟨"ETHUSDT", "1h"⟩] ∧
    AsksFew 8 s.world.clausePairs s.world ⟨"BTCUSDT", "1h"⟩
      (events (among 8 quietHour) (analyze plainConfig 3 ⟨"BTCUSDT", "1h"⟩ paLookback) (0, s.world)) := by
  have ran : (((paMachine plainConfig).run ((paMachine plainConfig).start {}) twoMarkets).any fun s =>
      demanded (events (among 8 quietHour) (analyze plainConfig 3 ⟨"BTCUSDT", "1h"⟩ paLookback) (0, s.world)) =
        [⟨"ETHUSDT", "1h"⟩]) = true := by
    decide +kernel
  obtain ⟨s, run, asked⟩ := (Option.any_eq_true _ _).mp ran
  have reached : PaReached plainConfig s := Machine.run_steps run
  rw [decide_eq_true_eq] at asked
  exact ⟨s, reached, asked, (nested_analyses_end plainConfig reached quietHour s.world.clausePairs
    (List.Subset.refl _) (quietHour_quiet _ _) ⟨"BTCUSDT", "1h"⟩ paLookback).1 3⟩

end Rasat
