import RasatTrading.Analysis.Shown

/-! Alerts trigger once for a window of data, keep their cooldown, and leave the orders of their specs. -/

namespace Rasat

open Coop AlertTables

variable {cfg : PaConfig} {s after : PaState}

/-- The order that a trigger leaves has the fields of the spec and waits for approval. -/
structure LeftBy (row : AlertRow) (trigger : TriggeredAlert) (spec : OrderSpecFields)
    (order : AlertOrder) : Prop where
  alert : order.alertId = row.alertId
  waits : order.status = .awaitingApproval
  account : order.accountId = spec.accountId
  symbol : order.symbol = spec.symbol
  side : order.side = spec.side
  orderType : order.orderType = spec.orderType.getD "market"
  entry : order.entry = spec.entry
  stopLoss : order.stopLoss = spec.stopLoss
  riskPct : order.riskPct = spec.riskPct
  createdAt : order.createdAt = trigger.triggeredAt
  note : order.note = row.definition.note

/-- One alert triggers: once for its key, after its cooldown, and with the order of its spec only. -/
structure Fires (before after : AlertTables) (row : AlertRow) (trigger : TriggeredAlert)
    (orders : List AlertOrder) : Prop where
  present : row ∈ before.alerts
  owner : trigger.alertId = row.alertId
  triggered : after.triggered = before.triggered ++ [trigger]
  unrecorded : trigger.key ∉ before.triggered.map TriggeredAlert.key
  cooled : 0 < row.definition.cooldownSeconds → ∀ earlier ∈ before.triggered,
    earlier.alertId = row.alertId →
      earlier.triggeredAt + row.definition.cooldownSeconds ≤ trigger.triggeredAt
  pending : after.pending = before.pending ++ orders
  ordered : ∀ spec, row.definition.orderSpec = some spec →
    ∃ order, orders = [order] ∧ LeftBy row trigger spec.val order
  unordered : row.definition.orderSpec = none → orders = []

/-- A step in which nothing triggers adds no order. -/
structure Silent (before after : AlertTables) : Prop where
  triggered : after.triggered = before.triggered
  pending : after.pending.map (fun order => order.orderId) =
    before.pending.map fun order => order.orderId

/-- What a move may do to the triggers and to the orders of the alerts. -/
def TriggerStep (before after : AlertTables) : Prop :=
  Silent before after ∨ ∃ row trigger orders, Fires before after row trigger orders

/-- The cooldown of an alert lies behind all of its triggers. -/
def Cooled (tables : AlertTables) : Prop :=
  ∀ row ∈ tables.alerts, 0 < row.definition.cooldownSeconds → ∀ trigger ∈ tables.triggered,
    trigger.alertId = row.alertId → ∃ stop, row.cooldownUntil = some stop ∧
      trigger.triggeredAt + row.definition.cooldownSeconds ≤ stop

/-- The alerts of a table that have the id of a row are defined as the row says. -/
def Defines (tables : AlertTables) (row : AlertRow) : Prop :=
  ∀ current ∈ tables.alerts, current.alertId = row.alertId → current.definition = row.definition

/-- What holds of the alarm service's tables in every state. -/
structure AlarmsSound (world : PaWorld) : Prop where
  keys : (world.alarms.triggered.map TriggeredAlert.key).Nodup
  ids : (world.alarms.alerts.map AlertRow.alertId).Nodup
  alerts : ∀ row ∈ world.alarms.alerts, row.alertId ∈ world.minted
  triggers : ∀ trigger ∈ world.alarms.triggered, trigger.alertId ∈ world.minted
  cooled : Cooled world.alarms

/-- An alert row that was read is one that was made, and the table still agrees with it. -/
def Current (world : PaWorld) (row : AlertRow) : Prop :=
  row.alertId ∈ world.minted ∧ Defines world.alarms row

/-! The transaction of a trigger. -/

variable {row : AlertRow}

theorem alert_mem {tables : AlertTables} {alertId : String}
    (found : tables.alert alertId = some row) : row ∈ tables.alerts ∧ row.alertId = alertId := by
  refine ⟨List.mem_of_find?_eq_some found, ?_⟩
  simpa using List.find?_some found

variable {args : TriggerArgs} {world changed : PaWorld} {choice : PaChoice} {orderId : String}

/-- Everything a trigger transaction can do. -/
theorem maybeTrigger_cases {tables changed : AlertTables}
    {answer : Option TriggeredAlert} (ran : tables.maybeTrigger args orderId = .ok (answer, changed)) :
    (answer = none ∧ changed = tables) ∨
    ∃ row, tables.alert args.alertId = some row ∧
      lazyState row.state row.cooldownUntil args.now = .armed ∧
      (triggerOf args).key ∉ tables.triggered.map TriggeredAlert.key ∧
      answer = some (triggerOf args) ∧
      changed = {
        alerts := tables.alerts.map fun other =>
          if other.alertId = args.alertId then rest args other else other
        triggered := tables.triggered ++ [triggerOf args]
        pending := tables.pending ++
          (row.definition.orderSpec.map (orderOf args row.definition orderId)).toList } := by
  unfold AlertTables.maybeTrigger at ran
  cases found : tables.alert args.alertId with
  | none =>
    rw [found] at ran
    cases ran
  | some row =>
    rw [found] at ran
    dsimp only at ran
    split at ran
    · cases ran
      exact .inl ⟨rfl, rfl⟩
    rename_i armed
    split at ran
    · cases ran
      exact .inl ⟨rfl, rfl⟩
    -- The insertion into the triggers is behind both guards, and its unique key has to be new.
    rename_i fresh
    split at ran
    · cases ran
    · cases ran
      exact .inr ⟨row, rfl, not_not.mp armed, fresh, rfl, rfl⟩

/-- An armed alert with a cooldown is past it. -/
theorem armed_after {state : AlertState} {stop now : ℤ}
    (armed : lazyState state (some stop) now = .armed) : stop ≤ now := by
  unfold lazyState at armed
  dsimp only at armed
  split at armed
  · cases armed
  · omega

@[simp] theorem rest_alertId (args : TriggerArgs) (row : AlertRow) : (rest args row).alertId = row.alertId := by
  unfold rest
  split <;> rfl

@[simp] theorem rest_definition (args : TriggerArgs) (row : AlertRow) :
    (rest args row).definition = row.definition := by
  unfold rest
  split <;> rfl

/-- The alerts after a trigger, by the ones before it. -/
theorem mem_rested {alerts : List AlertRow} (member : row ∈ alerts.map fun other =>
      if other.alertId = args.alertId then rest args other else other) :
    ∃ old ∈ alerts, row.alertId = old.alertId ∧ row.definition = old.definition ∧
      (old.alertId = args.alertId → row = rest args old) ∧ (old.alertId ≠ args.alertId → row = old) := by
  obtain ⟨old, listed, rfl⟩ := List.mem_map.mp member
  by_cases named : old.alertId = args.alertId
  · rw [if_pos named]
    exact ⟨old, listed, rest_alertId _ _, rest_definition _ _, fun _ => rfl, fun other => absurd named other⟩
  · rw [if_neg named]
    exact ⟨old, listed, rfl, rfl, fun other => absurd other named, fun _ => rfl⟩

/-- A trigger with the cooldown of its alert is a firing. -/
theorem fires_of_trigger (sound : AlarmsSound world) (found : world.alarms.alert args.alertId = some row)
    (armed : lazyState row.state row.cooldownUntil args.now = .armed)
    (fresh : (triggerOf args).key ∉ world.alarms.triggered.map TriggeredAlert.key) {changed : AlertTables}
    (triggered : changed.triggered = world.alarms.triggered ++ [triggerOf args])
    (pending : changed.pending = world.alarms.pending ++
      (row.definition.orderSpec.map (orderOf args row.definition orderId)).toList) :
    Fires world.alarms changed row (triggerOf args)
      (row.definition.orderSpec.map (orderOf args row.definition orderId)).toList := by
  obtain ⟨present, named⟩ := alert_mem found
  refine ⟨present, named.symm, triggered, fresh, ?_, pending, ?_, ?_⟩
  · intro positive earlier member same
    -- The stored end of the cooldown lies between the two triggers.
    obtain ⟨stop, stored, bound⟩ := sound.cooled row present positive earlier member same
    rw [stored] at armed
    exact bound.trans (armed_after armed)
  · intro spec known
    rw [known]
    refine ⟨_, rfl, ?_⟩
    exact ⟨named.symm, rfl, rfl, rfl, rfl, rfl, rfl, rfl, rfl, rfl, rfl⟩
  · intro unknown
    rw [unknown]
    rfl

/-- A trigger with the cooldown of its alert keeps the tables sound. -/
theorem sound_of_trigger (sound : AlarmsSound world) (found : world.alarms.alert args.alertId = some row)
    (armed : lazyState row.state row.cooldownUntil args.now = .armed)
    (fresh : (triggerOf args).key ∉ world.alarms.triggered.map TriggeredAlert.key)
    (cooldown : row.definition.cooldownSeconds = args.cooldownSeconds) (minted : world.minted ⊆ changed.minted)
    (alerts : changed.alarms.alerts = world.alarms.alerts.map fun other =>
      if other.alertId = args.alertId then rest args other else other)
    (triggered : changed.alarms.triggered = world.alarms.triggered ++ [triggerOf args]) :
    AlarmsSound changed := by
  obtain ⟨present, named⟩ := alert_mem found
  have sameIds : changed.alarms.alerts.map AlertRow.alertId =
      world.alarms.alerts.map AlertRow.alertId := by
    rw [alerts, List.map_map]
    refine List.map_congr_left fun other _ => ?_
    simp only [Function.comp_apply]
    split
    · exact rest_alertId _ _
    · rfl
  refine ⟨?_, ?_, ?_, ?_, ?_⟩
  · rw [triggered, List.map_append]
    exact List.nodup_append.mpr ⟨sound.keys, List.nodup_singleton _, by
      rintro key member _ single rfl
      exact fresh (List.mem_singleton.mp single ▸ member)⟩
  · rw [sameIds]
    exact sound.ids
  · intro other member
    rw [alerts] at member
    obtain ⟨old, listed, same, -, -, -⟩ := mem_rested member
    exact same ▸ minted (sound.alerts old listed)
  · intro trigger member
    rw [triggered] at member
    rcases List.mem_append.mp member with old | new
    · exact minted (sound.triggers trigger old)
    · have made := minted (sound.alerts row present)
      rw [named] at made
      rw [List.mem_singleton.mp new]
      exact made
  · intro other member positive trigger recorded owner
    rw [alerts] at member
    obtain ⟨old, listed, sameId, sameDefinition, rested, kept⟩ := mem_rested member
    rw [sameDefinition] at positive
    rw [triggered] at recorded
    by_cases self : old.alertId = args.alertId
    · -- The triggered alert: its new cooldown starts at this trigger, which is the latest.
      have one : old = row := List.inj_on_of_nodup_map sound.ids listed present (self.trans named.symm)
      subst one
      have counted : 0 < args.cooldownSeconds := cooldown ▸ positive
      refine ⟨args.now + args.cooldownSeconds, ?_, ?_⟩
      · rw [rested self, rest, if_pos counted]
      · rw [sameDefinition, cooldown]
        rcases List.mem_append.mp recorded with earlier | new
        · obtain ⟨stop, stored, bound⟩ :=
            sound.cooled old listed positive trigger earlier (owner.trans sameId)
          rw [stored] at armed
          have passed := armed_after armed
          rw [cooldown] at bound
          omega
        · rw [List.mem_singleton.mp new]
          exact le_refl _
    · -- Another alert has neither a new trigger nor a new cooldown.
      rw [kept self] at owner ⊢
      rcases List.mem_append.mp recorded with earlier | new
      · exact sound.cooled old listed positive trigger earlier owner
      · rw [List.mem_singleton.mp new] at owner
        exact absurd owner.symm self

/-! One request of a task. -/

/-- What one request may do to the alarm service's tables. -/
structure AlarmEffect (before after : PaWorld) (shown : List AlertRow) : Prop where
  sound : AlarmsSound after
  step : TriggerStep before.alarms after.alarms
  kept : ∀ row, Current before row → Current after row
  current : ∀ row ∈ shown, Current after row

theorem silent_of_eq {before after : AlertTables} (same : after = before) : TriggerStep before after :=
  .inl (same ▸ ⟨rfl, rfl⟩)

/-- A row of the table is current. -/
theorem current_of_mem (sound : AlarmsSound world)
    (member : row ∈ world.alarms.alerts) : Current world row := by
  refine ⟨sound.alerts row member, fun other listed same => ?_⟩
  rw [List.inj_on_of_nodup_map sound.ids listed member same]

/-- A request that leaves the tables as they are shows current rows only. -/
theorem effect_of_same {before after : PaWorld} {shown : List AlertRow} (sound : AlarmsSound before)
    (alarms : after.alarms = before.alarms) (minted : after.minted = before.minted)
    (stored : ∀ row ∈ shown, row ∈ before.alarms.alerts) : AlarmEffect before after shown := by
  have carried (row : AlertRow) (current : Current before row) : Current after row := by
    unfold Current at *
    rw [alarms, minted]
    exact current
  refine ⟨?_, silent_of_eq alarms, carried, ?_⟩
  · refine ⟨?_, ?_, ?_, ?_, ?_⟩
    · exact alarms ▸ sound.keys
    · exact alarms ▸ sound.ids
    · exact alarms ▸ minted ▸ sound.alerts
    · exact alarms ▸ minted ▸ sound.triggers
    · exact alarms ▸ sound.cooled
  · exact fun row member => carried row (current_of_mem sound (stored row member))

variable {budget : ℕ}

/-- A trigger with the cooldown of the stored alert. -/
theorem effect_of_trigger {answer : Except Exc (Option TriggeredAlert)} (sound : AlarmsSound world)
    (cooldown : ∀ row ∈ world.alarms.alerts, row.alertId = args.alertId →
      row.definition.cooldownSeconds = args.cooldownSeconds)
    (served : world.serve budget (.maybeTrigger args) choice = (answer, changed)) :
    AlarmEffect world changed [] := by
  rcases PaWorld.access_cases served with ⟨raised, rfl, rfl⟩ | ⟨value, rfl, ran⟩
  · exact effect_of_same sound rfl rfl (by simp)
  obtain ⟨⟨result, tables⟩, triggered, same⟩ := PaWorld.except_map_ok.mp ran
  cases same
  rcases maybeTrigger_cases triggered with ⟨rfl, rfl⟩ | ⟨row, found, armed, fresh, rfl, rfl⟩
  · -- Nothing triggers, and at most an id is used up.
    have grown : ∀ row, Current world row → Current { world with
        alarms := world.alarms, minted := uuidHex choice.uuid :: world.minted } row :=
      fun row current => ⟨List.mem_cons_of_mem _ current.1, current.2⟩
    refine ⟨⟨sound.keys, sound.ids, ?_, ?_, sound.cooled⟩, silent_of_eq rfl, grown, by simp⟩
    · exact fun row member => List.mem_cons_of_mem _ (sound.alerts row member)
    · exact fun trigger member => List.mem_cons_of_mem _ (sound.triggers trigger member)
  · obtain ⟨present, named⟩ := alert_mem found
    refine ⟨?_, .inr ⟨row, _, _, fires_of_trigger sound found armed fresh rfl rfl⟩, ?_, by simp⟩
    · exact sound_of_trigger sound found armed fresh (cooldown row present named)
        (List.subset_cons_self _ _) rfl rfl
    · intro other current
      refine ⟨List.mem_cons_of_mem _ current.1, fun stored member same => ?_⟩
      obtain ⟨old, listed, sameId, sameDefinition, -, -⟩ := mem_rested member
      rw [sameDefinition]
      exact current.2 old listed (sameId.symm.trans same)

/-- A new alert has an id that was never given out before. -/
theorem effect_of_insert {definition : AlertDefinition} {now : ℤ}
    {answer : Except Exc String} (sound : AlarmsSound world)
    (unused : uuidHex choice.uuid ∉ world.minted)
    (served : world.serve budget (.insertAlert definition now) choice = (answer, changed)) :
    AlarmEffect world changed [] := by
  rcases PaWorld.access_cases served with ⟨raised, rfl, rfl⟩ | ⟨value, rfl, ran⟩
  · exact effect_of_same sound rfl rfl (by simp)
  generalize uuidHex choice.uuid = made at ran unused
  obtain ⟨tables, inserted, same⟩ := PaWorld.except_map_ok.mp ran
  cases same
  unfold AlertTables.insertAlert at inserted
  split at inserted
  · cases inserted
  rename_i absent
  cases inserted
  refine ⟨⟨sound.keys, ?_, ?_, ?_, ?_⟩, .inl ⟨rfl, rfl⟩, ?_, by simp⟩
  · rw [List.map_append]
    exact List.nodup_append.mpr ⟨sound.ids, List.nodup_singleton _, by
      rintro id member _ single rfl
      have one : id = value := List.mem_singleton.mp single
      exact absent (one ▸ member)⟩
  · intro row member
    rcases List.mem_append.mp member with old | new
    · exact List.mem_cons_of_mem _ (sound.alerts row old)
    · rw [List.mem_singleton.mp new]
      exact List.mem_cons_self
  · exact fun trigger member => List.mem_cons_of_mem _ (sound.triggers trigger member)
  · intro row member positive trigger recorded owner
    rcases List.mem_append.mp member with old | new
    · exact sound.cooled row old positive trigger recorded owner
    · -- No trigger belongs to an id that is new.
      rw [List.mem_singleton.mp new] at owner
      have one : trigger.alertId = value := owner
      exact absurd (one ▸ sound.triggers trigger recorded) unused
  · intro row current
    refine ⟨List.mem_cons_of_mem _ current.1, fun other member same => ?_⟩
    rcases List.mem_append.mp member with old | new
    · exact current.2 other old same
    · rw [List.mem_singleton.mp new] at same
      have one : value = row.alertId := same
      exact absurd (one ▸ current.1) unused

/-- A deleted alert leaves its triggers behind. -/
theorem effect_of_delete {alertId : String} {answer : Except Exc ℕ} (sound : AlarmsSound world)
    (served : world.serve budget (.deleteAlert alertId) choice = (answer, changed)) :
    AlarmEffect world changed [] := by
  rcases PaWorld.access_cases served with ⟨raised, rfl, rfl⟩ | ⟨value, rfl, ran⟩
  · exact effect_of_same sound rfl rfl (by simp)
  cases ran
  have within (row : AlertRow) (member : row ∈ world.alarms.alerts.filter fun row => row.alertId ≠ alertId) :
      row ∈ world.alarms.alerts := List.mem_of_mem_filter member
  refine ⟨⟨sound.keys, sound.ids.sublist (List.filter_sublist.map _), ?_, sound.triggers, ?_⟩,
    .inl ⟨rfl, rfl⟩, ?_, by simp⟩
  · exact fun row member => sound.alerts row (within row member)
  · exact fun row member => sound.cooled row (within row member)
  · exact fun row current => ⟨current.1, fun other member => current.2 other (within other member)⟩

/-- An approval changes no trigger and adds no order. -/
theorem effect_of_settle {status : PendingStatus}
    {entry : Option ℚ} {answer : Except Exc Unit} (sound : AlarmsSound world)
    (served : world.serve budget (.settle orderId status entry) choice = (answer, changed)) :
    AlarmEffect world changed [] := by
  rcases PaWorld.access_cases served with ⟨raised, rfl, rfl⟩ | ⟨value, rfl, ran⟩
  · exact effect_of_same sound rfl rfl (by simp)
  cases ran
  refine ⟨⟨sound.keys, sound.ids, sound.alerts, sound.triggers, sound.cooled⟩, .inl ⟨rfl, ?_⟩,
    fun row current => current, by simp⟩
  simp only [AlertTables.settle, List.map_map]
  refine List.map_congr_left fun order _ => ?_
  simp only [Function.comp_apply]
  split <;> rfl

/-- Every request keeps the tables sound and triggers at most once. -/
theorem effect_of_serve {request : PaReq}
    {answer : Except Exc request.Ans} (sound : AlarmsSound world) (unused : uuidHex choice.uuid ∉ world.minted)
    (cooldown : ∀ args, request = .maybeTrigger args → ∀ row ∈ world.alarms.alerts,
      row.alertId = args.alertId → row.definition.cooldownSeconds = args.cooldownSeconds)
    (served : world.serve budget request choice = (answer, changed)) :
    AlarmEffect world changed (request.shown answer) := by
  -- Four requests write to the tables of the alarm service; the others leave them as they are.
  cases request with
  | maybeTrigger args => exact effect_of_trigger sound (cooldown args rfl) served
  | insertAlert definition now => exact effect_of_insert sound unused served
  | deleteAlert alertId => exact effect_of_delete sound served
  | settle orderId status entry => exact effect_of_settle sound served
  | spend who =>
    simp only [PaWorld.serve] at served
    split at served <;> cases served <;> exact effect_of_same sound rfl rfl (by simp [PaReq.shown])
  | serverNow | hostNow | beginPass _ | evaluate _ _ | screen _ _ | symbolValidity _ =>
    cases served
    exact effect_of_same sound rfl rfl (by simp [PaReq.shown])
  | feed change =>
    rcases PaWorld.access_cases served with ⟨raised, rfl, rfl⟩ | ⟨value, rfl, ran⟩
    · exact effect_of_same sound rfl rfl (by simp [PaReq.shown])
    · cases ran
      cases change <;> exact effect_of_same sound rfl rfl (by simp [PaReq.shown])
  | alertsBySymbol _ | compositeAlerts =>
    rcases PaWorld.access_cases served with ⟨raised, rfl, rfl⟩ | ⟨value, rfl, ran⟩
    · exact effect_of_same sound rfl rfl (by simp [PaReq.shown])
    · cases ran
      exact effect_of_same sound rfl rfl fun row member => List.mem_of_mem_filter member
  | candles _ _ | warmUp _ _ | futuresContext _ | futuresSeries _ _ _ | store _ _ _ _ | current _ _
  | alertSymbols | candidateSymbols =>
    rcases PaWorld.access_cases served with ⟨raised, rfl, rfl⟩ | ⟨value, rfl, ran⟩
    · exact effect_of_same sound rfl rfl (by simp [PaReq.shown])
    · cases ran
      exact effect_of_same sound rfl rfl (by simp [PaReq.shown])

/-! Runs. -/

/-- A state that some run reaches from a database without alerts. -/
def PaReached (cfg : PaConfig) (s : PaState) : Prop :=
  (paMachine cfg).Steps (fun _ _ => True) ((paMachine cfg).start {}) s

/-- Every task triggers by the rule. -/
theorem triggers_sound (cfg : PaConfig) (allowed : PaState → Move PaChoice PaCall → Prop) :
    (recorded triggerRule fun _ => True).Sound (paMachine cfg) allowed :=
  recorded_sound (.done trivial) (fun call => paCall_tame cfg call _) allowed

theorem triggers_started (cfg : PaConfig) (world : PaWorld) :
    (recorded triggerRule fun _ => True).Represented ((paMachine cfg).start world) :=
  recorded_started (.done trivial)

/-- What holds of every state: sound tables, and every row that a task has read is current. -/
structure AlarmsHold (s : PaState) : Prop where
  sound : AlarmsSound s.world
  current : ∀ task row, Shown (s.hist task) row → Current s.world row

/-- The cooldown of a trigger that a task asks for is that of the stored alert. -/
theorem asked_cooldown {task : ℕ}
    {next : Except Exc (Option TriggeredAlert) → PaTask Unit} (holds : AlarmsHold s)
    (represented : (recorded triggerRule fun _ => True).Represented s)
    (running : s.tasks task = some (.ask (.maybeTrigger args) next)) :
    ∀ row ∈ s.world.alarms.alerts, row.alertId = args.alertId →
      row.definition.cooldownSeconds = args.cooldownSeconds := by
  obtain ⟨read, shown, named, cooldown⟩ := recorded_asks represented running
  intro row member same
  have defined := (holds.current task read shown).2 row member (same.trans named.symm)
  rw [defined]
  exact cooldown

/-- One move keeps what holds, triggers at most once and changes no definition. -/
theorem move_triggers {move : Move PaChoice PaCall}
    (represented : (recorded triggerRule fun _ => True).Represented s)
    (stepped : (paMachine cfg).step s move = some after) (holds : AlarmsHold s) :
    AlarmsHold after ∧ TriggerStep s.world.alarms after.world.alarms ∧
      ∀ row ∈ s.world.alarms.alerts, Defines after.world.alarms row := by
  have stored (row : AlertRow) (member : row ∈ s.world.alarms.alerts) : Defines s.world.alarms row :=
    (current_of_mem holds.sound member).2
  obtain ⟨call, value, rfl, -, rfl⟩ |
    ⟨task, choice, request, next, answer, world, rfl, running, performed, rfl⟩ | ⟨rfl, rfl⟩ :=
    Machine.step_cases stepped
  · exact ⟨⟨holds.sound, holds.current⟩, silent_of_eq rfl, stored⟩
  · simp only [paMachine, paPerform] at performed
    split at performed
    · cases performed
    rename_i unused
    have effect := effect_of_serve holds.sound unused
      (fun args asked => by subst asked; exact asked_cooldown holds represented running)
      (Option.some.inj performed)
    refine ⟨⟨effect.sound, fun other row shown => ?_⟩, effect.step, fun row member => ?_⟩
    · -- What the task reads now is current, and what was read before stays so.
      obtain ⟨event, member, listed⟩ := shown
      by_cases own : other = task
      · subst own
        rw [Sys.hist_answered_self] at member
        rcases List.mem_cons.mp member with rfl | older
        · exact effect.current row listed
        · exact effect.kept row (holds.current other row ⟨event, older, listed⟩)
      · rw [Sys.hist_answered_other own] at member
        exact effect.kept row (holds.current other row ⟨event, member, listed⟩)
    · exact (effect.kept row (current_of_mem holds.sound member)).2
  · -- A crash forgets the budgets only.
    have sound : AlarmsSound ((paMachine cfg).crashed s).world :=
      ⟨holds.sound.keys, holds.sound.ids, holds.sound.alerts, holds.sound.triggers, holds.sound.cooled⟩
    exact ⟨⟨sound, holds.current⟩, silent_of_eq rfl, stored⟩

theorem PaReached.holds (reached : PaReached cfg s) : AlarmsHold s := by
  refine (triggers_sound cfg _).invariant AlarmsHold
    (fun s move after represented _ stepped holds => (move_triggers represented stepped holds).1)
    (triggers_started cfg {}) ?_ reached
  refine ⟨⟨List.nodup_nil, List.nodup_nil, ?_, ?_, ?_⟩, ?_⟩
  · intro row member
    cases member
  · intro trigger member
    cases member
  · intro row member
    cases member
  · rintro task row ⟨event, member, -⟩
    cases member

/-- For every interleaving of analyses, passes, scans and changes of the alerts: no key of an alert
is recorded twice, and each move triggers at most one alert, which is past the cooldown of all of its
triggers and leaves exactly the order of its spec; nothing else adds an order, and no definition
changes. -/
theorem alerts_trigger_once (reached : PaReached cfg s) :
    (s.world.alarms.triggered.map TriggeredAlert.key).Nodup ∧
      ∀ move after, (paMachine cfg).step s move = some after →
        TriggerStep s.world.alarms after.world.alarms ∧
          ∀ row ∈ s.world.alarms.alerts, Defines after.world.alarms row := by
  refine ⟨reached.holds.sound.keys, fun move after stepped => ?_⟩
  have represented := (triggers_sound cfg _).represented (triggers_started cfg {}) reached
  exact (move_triggers represented stepped reached.holds).2

/-- A set-up for runs on given candles. -/
def plainConfig : PaConfig := ⟨fun price => toString price.num, 3, 8⟩

/-- A bar of one price, traded once. -/
def flatBar (price : ℚ) (time : ℤ) : Candle := ⟨time, price, price, price, price, 1, price, 1⟩

/-- The stored bar of an hour at a price. -/
def hourBar (symbol : String) (hour : ℕ) (price : ℚ) : StoredCandle :=
  ⟨⟨symbol, .h1, .spot⟩, flatBar price (hour * 3600), 0⟩

/-- An hour after the last of six bars. -/
def atSix (uuid : ℕ) : PaChoice := { host := 6 * 3600, server := 6 * 3600, uuid := uuid }

/-- An alert with an order is made, six bars arrive, and an analysis triggers the alert. -/
def triggeringMoves : List (Move PaChoice PaCall) :=
  [.open (.createAlert ⟨"BTCUSDT", "1h"⟩ anyPrice 60 none
      (some { accountId := "main", symbol := "BTCUSDT", side := "BUY", riskPct := some (1 / 100) })),
    .resume 1 (atSix 0), .resume 1 (atSix 0),
    .open (.feed (.candles ((List.range 6).map fun hour => hourBar "BTCUSDT" hour (10 + hour)))),
    .resume 2 (atSix 1), .open (.analyze ⟨"BTCUSDT", "1h"⟩ paLookback)] ++
  List.replicate 16 (.resume 3 (atSix 1))

/-- The guarantee in a run that has triggered an alert. -/
theorem triggered_run_once : ∃ s, PaReached plainConfig s ∧ s.world.alarms.triggered.length = 1 ∧
    s.world.alarms.pending.length = 1 ∧ (s.world.alarms.triggered.map TriggeredAlert.key).Nodup ∧
      ∀ move after, (paMachine plainConfig).step s move = some after →
        TriggerStep s.world.alarms after.world.alarms ∧
          ∀ row ∈ s.world.alarms.alerts, Defines after.world.alarms row := by
  have ran : (((paMachine plainConfig).run ((paMachine plainConfig).start {}) triggeringMoves).any
      fun s => s.world.alarms.triggered.length = 1 ∧ s.world.alarms.pending.length = 1) = true := by
    decide +kernel
  obtain ⟨s, run, counts⟩ := (Option.any_eq_true _ _).mp ran
  have reached : PaReached plainConfig s := Machine.run_steps run
  rw [decide_eq_true_eq] at counts
  exact ⟨s, reached, counts.1, counts.2, alerts_trigger_once reached⟩

end Rasat
