import RasatTrading.Coop.Followed
import RasatTrading.Document.Proper
import RasatTrading.Gateway

/-! The way of a tool call changes nothing about it, and nothing comes past the checks on it. -/

namespace Rasat.Gateway

open Coop Document

/-! Equal values. -/

variable {members : Members} {server : Server Q R}

/-- A value that keys itself is found. -/
theorem lookup_of_mem {key : Str} {value : Document}
    (distinct : (members.map Prod.fst).Nodup) (member : (key, value) ∈ members) :
    members.lookup key = some value := by
  induction members with
  | nil => cases member
  | cons first rest ih =>
    obtain ⟨name, other⟩ := first
    rw [List.map_cons, List.nodup_cons] at distinct
    rcases List.mem_cons.mp member with same | later
    · cases same
      simp
    · have differs : (key == name) = false := by
        rw [beq_eq_false_iff_ne]
        rintro rfl
        exact distinct.1 (List.mem_map.mpr ⟨_, later, rfl⟩)
      rw [List.lookup_cons, differs]
      exact ih distinct.2 later

mutual

/-- Every value is equal to itself as far as containers look at it. -/
theorem alike_self : (d : Document) → d.distinct = true → alike d d = true
  | .null, _ => rfl
  | .bool value, _ => by simp [alike, comparedNumber]
  | .int value, _ => by simp [alike, comparedNumber, numberOf]
  | .float value, _ => by simp [alike, comparedNumber, numberOf]
  | .str value, _ => by simp [alike]
  | .array items, distinct => by
    rw [alike]
    exact alikeItems_self items (by simpa [Document.distinct] using distinct)
  | .object members, distinct => by
    simp only [Document.distinct, Bool.and_eq_true, decide_eq_true_eq] at distinct
    simp only [alike, Bool.and_eq_true, decide_eq_true_eq, true_and]
    exact alikeMembers_self members members distinct.1 distinct.2 fun _ member => member

theorem alikeItems_self : (items : List Document) → distinctItems items = true → alikeItems items items = true
  | [], _ => rfl
  | item :: rest, distinct => by
    simp only [distinctItems, Bool.and_eq_true] at distinct
    simp only [alikeItems, alike_self item distinct.1, alikeItems_self rest distinct.2, Bool.and_self]

/-- Some members of an object are equal to what the object has under their keys. -/
theorem alikeMembers_self : (members whole : Members) → (whole.map Prod.fst).Nodup →
    distinctMembers members = true → (∀ member ∈ members, member ∈ whole) → alikeMembers members whole = true
  | [], _, _, _, _ => rfl
  | (key, value) :: rest, whole, keys, distinct, within => by
    simp only [distinctMembers, Bool.and_eq_true] at distinct
    have found := lookup_of_mem keys (within (key, value) (by simp))
    simp only [alikeMembers, found, alike_self value distinct.1, Bool.true_and]
    exact alikeMembers_self rest whole keys distinct.2 fun member listed => within member (by simp [listed])

end

/-- A value read twice is equal to itself unless it is a NaN. -/
theorem equal_self {d : Document} (distinct : d.distinct = true) : equal d d = !isNan d := by
  rw [equal, alike_self d distinct, Bool.true_and]

/-! Merging. -/

/-- Storing a member again changes nothing. -/
theorem store_same {key : Str} {value : Document}
    (distinct : (members.map Prod.fst).Nodup) (found : members.lookup key = some value) :
    store members (key, value) = members := by
  have listed : (key, value) ∈ members := mem_of_lookup found
  unfold store
  rw [if_pos (List.mem_map.mpr ⟨_, listed, rfl⟩)]
  conv_rhs => rw [← List.map_id members]
  refine List.map_congr_left fun other member => ?_
  split
  · rename_i same
    have there := lookup_of_mem distinct member
    rw [show other.1 = key from same, found] at there
    exact Prod.ext same.symm (Option.some.inj there)
  · rfl

/-! What can be sent. -/

/-- Members that reach the other side as they are: keys once each, and only strings that can be read. -/
structure Sendable (members : Members) : Prop where
  keys : (members.map Prod.fst).Nodup
  named : ∀ member ∈ members, member.1.readable = true
  values : ∀ member ∈ members, member.2.fitting Str.readable = true ∧ member.2.distinct = true

theorem fittingMembers_iff : fittingMembers Str.readable members = true ↔
    ∀ member ∈ members, member.1.readable = true ∧ member.2.fitting Str.readable = true := by
  induction members with
  | nil => simp [fittingMembers]
  | cons member rest ih => simp [fittingMembers, ih]

/-- An object can be sent when its members can. -/
theorem sendable_iff : Sendable members ↔
    (Document.object members).fitting Str.readable = true ∧ (Document.object members).distinct = true := by
  simp only [fitting, fittingMembers_iff, Document.distinct, distinctMembers_iff, Bool.and_eq_true,
    decide_eq_true_eq]
  constructor
  · exact fun sendable => ⟨fun member listed => ⟨sendable.named member listed, (sendable.values member listed).1⟩,
      sendable.keys, fun member listed => (sendable.values member listed).2⟩
  · exact fun ⟨fits, keys, distinct⟩ => ⟨keys, fun member listed => (fits member listed).1,
      fun member listed => ⟨(fits member listed).2, distinct member listed⟩⟩

/-- A stored member keeps an object sendable. -/
theorem Sendable.store {member : Str × Document} (sendable : Sendable members)
    (named : member.1.readable = true)
    (value : member.2.fitting Str.readable = true ∧ member.2.distinct = true) :
    Sendable (Document.store members member) :=
  ⟨store_nodup sendable.keys, forall_store named sendable.named, forall_store value sendable.values⟩

/-- The arguments of a tool call: the members of an object that a reader can have returned. -/
structure Arguments where
  members : Members
  short : shortMembers members = true
  sendable : Sendable members

/-- The members of a payload. -/
def payloadMembers (tool : String) (params : Members) : Members :=
  [(.text "tool", .text tool), (.text "params", .object params)] ++
    Numeric.transportFields.filterMap fun key =>
      (params.lookup (.text key)).map fun value => (.text key, value)

theorem beq_text (left right : String) : (Str.text left == Str.text right) = decide (left = right) := by
  rw [Bool.eq_iff_iff]
  simp

/-- A payload gives the arguments under their names and as they are. -/
theorem payload_lookups (tool : String) (params : Members) :
    (payloadMembers tool params).lookup (.text "tool") = some (.text tool) ∧
      (payloadMembers tool params).lookup (.text "params") = some (.object params) ∧
      ∀ key ∈ Numeric.transportFields, (payloadMembers tool params).lookup (.text key) = params.lookup (.text key) := by
  refine ⟨by simp [payloadMembers], by simp [payloadMembers, List.lookup_cons, beq_text], ?_⟩
  · intro key listed
    simp only [Numeric.transportFields, List.mem_cons, List.not_mem_nil, or_false] at listed
    rcases listed with rfl | rfl <;>
    · cases first : params.lookup (.text "request_id") <;>
        cases second : params.lookup (.text "idempotency_key") <;>
          simp [payloadMembers, Numeric.transportFields, List.lookup_cons, beq_text, first, second]

/-- A payload can be sent when the arguments can. -/
theorem payload_sendable (tool : String) (arguments : Arguments) :
    Sendable (payloadMembers tool arguments.members) ∧
      shortMembers (payloadMembers tool arguments.members) = true := by
  obtain ⟨members, short, sendable⟩ := arguments
  obtain ⟨fits, distinct⟩ := sendable_iff.mp sendable
  have whole : (Document.object members).short = true := short
  -- The promoted members are members of the arguments.
  have promoted : ∀ key value, members.lookup (.text key) = some value →
      value.short = true ∧ value.fitting Str.readable = true ∧ value.distinct = true := by
    intro key value found
    have listed := mem_of_lookup found
    exact ⟨shortMembers_iff.mp short _ listed, sendable.values _ listed⟩
  have each : ∀ member ∈ payloadMembers tool members, member.1.readable = true ∧
      member.2.short = true ∧ member.2.fitting Str.readable = true ∧ member.2.distinct = true := by
    intro member listed
    rcases List.mem_append.mp listed with fixed | top
    · simp only [List.mem_cons, List.not_mem_nil, or_false] at fixed
      rcases fixed with rfl | rfl
      · exact ⟨rfl, rfl, rfl, rfl⟩
      · exact ⟨rfl, whole, fits, distinct⟩
    · obtain ⟨key, -, found⟩ := List.mem_filterMap.mp top
      obtain ⟨value, there, rfl⟩ := Option.map_eq_some_iff.mp found
      exact ⟨rfl, promoted key value there⟩
  have keys : ((payloadMembers tool members).map Prod.fst).Nodup := by
    cases first : members.lookup (.text "request_id") <;>
      cases second : members.lookup (.text "idempotency_key") <;>
        simp [payloadMembers, Numeric.transportFields, first, second]
  exact ⟨⟨keys, fun member listed => (each member listed).1, fun member listed => (each member listed).2.2⟩,
    shortMembers_iff.mpr fun member listed => (each member listed).2.1⟩

/-- So the daemon reads the payload that the adapter wrote. -/
theorem read_payload (tool : String) (arguments : Arguments) :
    Document.read (payload tool arguments.members).asciiWrite =
      .ok (.object (payloadMembers tool arguments.members)) := by
  obtain ⟨sendable, short⟩ := payload_sendable tool arguments
  obtain ⟨fits, distinct⟩ := sendable_iff.mp sendable
  exact read_asciiWrite short fits distinct

/-! A tool call without JSON and HTTP. -/

/-- A NaN as a request id or idempotency key is taken for a conflict with itself. -/
def conflict (arguments : Members) (key : String) : Except Raised Unit :=
  refuseIf ((arguments.lookup (.text key)).any isNan) .invalidRequest
    (key ++ " values conflict between top level and params")

/-- What stands between a tool call and its handler. -/
def permit {Q : Type} {R : Q → Type} (server : Server Q R) (state name : String) (arguments : Members) : Except Raised ToolSpec := do
  refuseIf (!server.takes (payload name arguments).asciiWrite.length) .invalidRequest "could not read request body"
  refuseIf (maxBodyBytes < (payload name arguments).asciiWrite.length) .invalidRequest "request body is too large"
  refuseIf (name = "") .invalidRequest "tool field is required (string)"
  match server.registry.find? fun spec => spec.name = name with
  | none => .error (.rasat ⟨.toolNotFound, "unknown tool: " ++ name⟩ none 0)
  | some spec => do
    refuseIf (!spec.allowedBeforeReady && state ≠ "ready") .notReady
      ("daemon is not ready (state=" ++ state ++ ") — tool call rejected")
    conflict arguments "request_id"
    conflict arguments "idempotency_key"
    (Numeric.validateParams server.text (.object arguments) spec.inputSchema).mapError ofExc
    return spec

/-- A tool call as its caller means it: the handler is called with the arguments. -/
def direct {Q : Type} {R : Q → Type} (server : Server Q R) (state name : String) (arguments : Members) :
    Prog Q R Raised Document := do
  let spec ← Prog.ofExcept (permit server state name arguments)
  let outcome ← (server.dispatch spec.name arguments).attempt
  Prog.ofExcept (replyTo spec.name arguments outcome)

/-- The daemon passes on what it can: of a canonical error with status 401 the adapter keeps nothing. -/
def shownTo (now : String) (reply : Except Raised Document) : CallToolResult :=
  let sent := envelopeOf now reply
  envelopeToResult (if sent.1 = 401 then invalidToken else sent.2)

variable {Q : Type} {R : Q → Type}

/-- One key is merged without a change, or conflicts with itself. -/
theorem mergeField_payload (tool : String) (arguments : Arguments) {key : String}
    (listed : key ∈ Numeric.transportFields) :
    mergeField (payloadMembers tool arguments.members) arguments.members arguments.members key =
      (do conflict arguments.members key; return arguments.members) := by
  have top := (payload_lookups tool arguments.members).2.2 key listed
  unfold mergeField conflict get?
  rw [top]
  cases found : arguments.members.lookup (.text key) with
  | none => rfl
  | some value =>
    -- Storing what is stored changes nothing, and a sendable value equals itself.
    have same := store_same arguments.sendable.keys found
    have plain := equal_self (arguments.sendable.values _ (mem_of_lookup found)).2
    cases value with
    -- A null counts as absent.
    | null => rfl
    | _ => simp only [plain, same, Bool.not_not, Option.any_some]

/-- Merging the payload's fields into the arguments gives the arguments, unless one conflicts with itself. -/
theorem merge_payload (tool : String) (arguments : Arguments) :
    mergeTransportFields (payloadMembers tool arguments.members) arguments.members =
      (do
        conflict arguments.members "request_id"
        conflict arguments.members "idempotency_key"
        return arguments.members) := by
  have first := mergeField_payload tool arguments (show "request_id" ∈ Numeric.transportFields by decide)
  have second := mergeField_payload tool arguments (show "idempotency_key" ∈ Numeric.transportFields by decide)
  unfold mergeTransportFields
  simp only [Numeric.transportFields, List.foldlM_cons, List.foldlM_nil, first]
  cases conflict arguments.members "request_id" with
  | error raised => rfl
  | ok passed =>
    show (mergeField _ arguments.members arguments.members "idempotency_key" >>= pure) = _
    rw [second]
    cases conflict arguments.members "idempotency_key" <;> rfl

/-- The daemon reads a payload's parts as the adapter gave them. -/
theorem readBody_payload (takes : ℕ → Bool) (name : String) (arguments : Arguments) :
    readBody takes (.bytes (payload name arguments.members).asciiWrite.length
        (some (payload name arguments.members).asciiWrite)) =
      (do
        refuseIf (!takes (payload name arguments.members).asciiWrite.length) .invalidRequest
          "could not read request body"
        refuseIf (maxBodyBytes < (payload name arguments.members).asciiWrite.length) .invalidRequest
          "request body is too large"
        return payloadMembers name arguments.members) := by
  simp only [readBody, Option.map_some, read_payload]
  rfl

theorem readTool_payload (name : String) (arguments : Arguments) :
    readTool (payloadMembers name arguments.members) =
      (refuseIf (name = "") .invalidRequest "tool field is required (string)").map fun _ => .text name := by
  have same : decide (Str.text name = .text "" ∨ Str.text name = .broken []) = decide (name = "") := by simp
  simp only [readTool, (payload_lookups name arguments.members).1, same]
  cases refuseIf (name = "") .invalidRequest "tool field is required (string)" <;> rfl

theorem readParams_payload (name : String) (arguments : Arguments) :
    readParams (payloadMembers name arguments.members) = .ok arguments.members := by
  unfold readParams
  rw [(payload_lookups name arguments.members).2.1]
  -- Without arguments the parameters count as false, and stand for none.
  cases arguments.members <;> rfl

/-- What the daemon admits of a payload is what may pass, with the arguments as they are. -/
theorem accept_payload (server : Server Q R) (state name : String) (arguments : Arguments) :
    server.accept state (.bytes (payload name arguments.members).asciiWrite.length
        (some (payload name arguments.members).asciiWrite)) =
      (permit server state name arguments.members).map fun spec => (spec, arguments.members) := by
  unfold Server.accept permit
  -- Both sides make the same checks in the same order: body, tool, readiness, keys, schema.
  rw [readBody_payload]
  cases refuseIf (!server.takes (payload name arguments.members).asciiWrite.length) .invalidRequest
    "could not read request body" with
  | error raised => rfl
  | ok taken =>
  cases refuseIf (maxBodyBytes < (payload name arguments.members).asciiWrite.length) .invalidRequest
    "request body is too large" with
  | error raised => rfl
  | ok small =>
    show (readTool (payloadMembers name arguments.members) >>= _) = _
    rw [readTool_payload]
    cases refuseIf (name = "") .invalidRequest "tool field is required (string)" with
    | error raised => rfl
    | ok named =>
      show (readParams (payloadMembers name arguments.members) >>= _) = _
      -- The tool is named by a text, so the registry is searched for it.
      rw [readParams_payload]
      have found : server.specFor (.text name) = server.registry.find? fun spec => spec.name = name := rfl
      simp only [bind, Except.bind, found]
      cases server.registry.find? fun spec => spec.name = name with
      | none => rfl
      | some spec =>
        dsimp only
        cases refuseIf (!spec.allowedBeforeReady && state ≠ "ready") .notReady
          ("daemon is not ready (state=" ++ state ++ ") — tool call rejected") with
        | error raised => rfl
        | ok ready =>
          show (mergeTransportFields (payloadMembers name arguments.members) arguments.members >>= _) = _
          -- The payload carries these two keys twice, so a key can conflict only with itself.
          rw [merge_payload]
          cases conflict arguments.members "request_id" with
          | error raised => rfl
          | ok passed =>
            cases conflict arguments.members "idempotency_key" with
            | error raised => rfl
            | ok passed' =>
              show ((Numeric.validateParams server.text (.object arguments.members) spec.inputSchema).mapError
                ofExc >>= _) = _
              cases (Numeric.validateParams server.text (.object arguments.members) spec.inputSchema).mapError
                ofExc <;> rfl

/-! Envelopes that come back as they were sent. -/

/-- A document that reaches the other side as it is. -/
def Intact (d : Document) : Prop := d.fitting Str.readable = true ∧ d.distinct = true

/-- The documents in what a handler comes to reach the other side as they are. -/
def Plain : Except Raised Result → Prop
  | .ok (.json data info) => (∀ value ∈ data, Intact value) ∧ Sendable info.extra
  | .error (.rasat _ details _) => ∀ value ∈ details, Intact value ∧ value.short = true
  | _ => True

/-- Members that are stored one after the other keep an object sendable. -/
theorem Sendable.storeAll {later : Members} (sendable : Sendable members) (others : Sendable later) :
    Sendable (later.foldl Document.store members) := by
  have each : ∀ member ∈ later, member.1.readable = true ∧
      member.2.fitting Str.readable = true ∧ member.2.distinct = true :=
    fun member listed => ⟨others.named member listed, others.values member listed⟩
  -- By induction on what is stored, over every object it is stored into.
  clear others
  induction later generalizing members with
  | nil => exact sendable
  | cons member rest ih =>
    have first := each member (by simp)
    exact ih (sendable.store first.1 first.2) fun other listed => each other (by simp [listed])

/-- The meta information of an answer reaches the other side as it is. -/
theorem toDict_intact {info : Meta} (extra : Sendable info.extra) : Intact info.toDict := by
  refine sendable_iff.mp (Sendable.storeAll ⟨?_, ?_, ?_⟩ extra)
  all_goals cases info.algoVersion
  all_goals simp [Str.readable, fitting, Document.distinct]

/-- An envelope of an answer can be sent. -/
theorem okResponse_sendable {data requestId : Option Document} {info : Meta} (data_ : ∀ value ∈ data, Intact value)
    (extra : Sendable info.extra) (requestId_ : ∀ value ∈ requestId, Intact value) :
    ∃ members, okResponse data info requestId = .object members ∧ Sendable members := by
  have described := toDict_intact extra
  refine ⟨_, rfl, ?_⟩
  have shown : ∀ value ∈ requestId.filter truthyDocument, Intact value := fun value kept =>
    requestId_ value (Option.mem_filter_iff.mp kept).1
  -- An identifier that counts as false is not sent back.
  generalize requestId.filter truthyDocument = id at shown
  refine ⟨?_, ?_, ?_⟩
  · cases data <;> cases id <;> simp
  · cases data <;> cases id <;> simp [Str.readable]
  · intro member listed
    simp only [List.mem_append, List.mem_map, List.mem_singleton, Option.mem_toList] at listed
    rcases listed with ((rfl | ⟨value, given, rfl⟩) | rfl) | ⟨value, given, rfl⟩
    · exact ⟨rfl, rfl⟩
    · exact data_ value given
    · exact described
    · exact shown value given

/-- The envelope of an error can be sent, and is short when its details are. -/
theorem errorResponse_sendable {code message now : String} {details : Option Document}
    (details_ : ∀ value ∈ details, Intact value ∧ value.short = true) :
    ∃ members, errorResponse code message details now = .object members ∧ Sendable members ∧
      shortMembers members = true := by
  have described : Intact (Meta.toDict { asOf := now }) := toDict_intact ⟨by simp, by simp, by simp⟩
  -- The inner object is the error proper; the outer one adds the time.
  have inner : Sendable ([(.text "code", .text code), (.text "message", .text message)] ++
      details.toList.map fun value => (Str.text "details", value)) := by
    refine ⟨?_, ?_, ?_⟩
    · cases details <;> simp
    · cases details <;> simp [Str.readable]
    · intro member listed
      simp only [List.mem_append, List.mem_cons, List.not_mem_nil, or_false, List.mem_map,
        Option.mem_toList] at listed
      rcases listed with (rfl | rfl) | ⟨value, given, rfl⟩
      · exact ⟨rfl, rfl⟩
      · exact ⟨rfl, rfl⟩
      · exact (details_ value given).1
  -- Only the details can hold long whole numbers.
  have brief : shortMembers ([(.text "code", .text code), (.text "message", .text message)] ++
      details.toList.map fun value => (Str.text "details", value)) = true := by
    cases details with
    | none => rfl
    | some value =>
      simp only [shortMembers_iff]
      intro member listed
      simp only [Option.toList_some, List.map_cons, List.map_nil, List.mem_append, List.mem_cons,
        List.not_mem_nil, or_false] at listed
      rcases listed with (rfl | rfl) | rfl
      · rfl
      · rfl
      · exact (details_ value rfl).2
  refine ⟨_, rfl, ⟨by simp, by simp [Str.readable], ?_⟩, ?_⟩
  · intro member listed
    simp only [List.mem_cons, List.not_mem_nil, or_false] at listed
    rcases listed with rfl | rfl | rfl
    · exact ⟨rfl, rfl⟩
    · exact sendable_iff.mp inner
    · exact described
  · simp only [shortMembers, Document.short, Bool.and_true, Bool.true_and, Bool.and_eq_true]
    exact ⟨brief, rfl⟩

/-- What is sent for a reply comes back as it was. -/
structure Returns (now : String) (reply : Except Raised Document) : Prop where
  short : (envelopeOf now reply).2.short = true
  object : ∃ members, (envelopeOf now reply).2 = .object members
  intact : Intact (envelopeOf now reply).2

variable {raised : Raised}

theorem returns_error {now : String} (plain : ∀ error details status, raised = .rasat error details status →
      ∀ value ∈ details, Intact value ∧ value.short = true) : Returns now (.error raised) := by
  have sends : ∃ members, (envelopeOf now (.error raised)).2 = .object members ∧ Sendable members ∧
      shortMembers members = true := by
    cases raised with
    | rasat error details status => exact errorResponse_sendable (plain error details status rfl)
    | keyError shown => exact errorResponse_sendable (by simp)
    | other text => exact errorResponse_sendable (by simp)
  obtain ⟨members, same, sendable, short⟩ := sends
  exact ⟨by rw [same]; exact short, ⟨members, same⟩, by rw [same]; exact sendable_iff.mp sendable⟩

/-- Every reply to what a handler came to returns as it was. -/
theorem returns_reply {now tool : String} {arguments : Arguments} {outcome : Except Raised Result}
    (plain : Plain outcome) : Returns now (replyTo tool arguments.members outcome) := by
  cases outcome with
  | ok result =>
    cases result with
    | json data info =>
      have id : ∀ value ∈ arguments.members.lookup (.text "request_id"), Intact value := fun value found =>
        arguments.sendable.values _ (mem_of_lookup found)
      obtain ⟨members, same, sendable⟩ := okResponse_sendable plain.1 plain.2 id
      unfold replyTo
      dsimp only
      -- An answer with a whole number that is too long is replied to by an error.
      split
      · rename_i short
        exact ⟨short, ⟨members, same⟩, by rw [envelopeOf, same]; exact sendable_iff.mp sendable⟩
      · exact returns_error (by simp)
    -- What is no document is an internal error.
    | foreign => exact returns_error (by simp)
  | error exception =>
    cases exception with
    | rasat error details status =>
      refine returns_error fun error' details' status' same => ?_
      cases same
      exact plain
    | keyError shown => exact returns_error (by simp)
    | other text => exact returns_error (by simp)

/-- An exception without details of its own. -/
def Raised.Bare (raised : Raised) : Prop := ∀ error details status, raised = .rasat error details status → details = none

theorem refuseIf_bare {condition : Bool} {code : ErrorCode} {message : String}
    (refused : refuseIf condition code message = .error raised) : raised.Bare := by
  unfold refuseIf at refused
  split at refused
  · cases refused
    rintro error details status ⟨⟩
    rfl
  · cases refused

theorem ofExc_bare (raised : Exc) : (ofExc raised).Bare := by
  rintro error details status same
  cases raised <;> cases same
  rfl

/-- A step that fails fails with its own exception, or with one of what follows. -/
theorem bind_error {α β : Type} {first : Except Raised α} {next : α → Except Raised β}
    (failed : first >>= next = .error raised) :
    first = .error raised ∨ ∃ value, first = .ok value ∧ next value = .error raised := by
  cases first with
  | error other =>
    -- The first step failed, and with this exception.
    have same : other = raised := Except.error.inj failed
    exact .inl (same ▸ rfl)
  | ok value => exact .inr ⟨value, rfl, failed⟩

/-- An exception before the handler carries no details. -/
theorem permit_bare {state name : String} {arguments : Members}
    (refused : permit server state name arguments = .error raised) : raised.Bare := by
  unfold permit at refused
  -- The body, its size and the tool, step by step as the daemon checks them.
  rcases bind_error refused with first | ⟨-, -, refused⟩
  · exact refuseIf_bare first
  rcases bind_error refused with first | ⟨-, -, refused⟩
  · exact refuseIf_bare first
  rcases bind_error refused with first | ⟨-, -, refused⟩
  · exact refuseIf_bare first
  split at refused
  · -- No such tool.
    cases refused
    rintro error details status ⟨⟩
    rfl
  · rcases bind_error refused with first | ⟨-, -, refused⟩
    · exact refuseIf_bare first
    rcases bind_error refused with first | ⟨-, -, refused⟩
    · exact refuseIf_bare first
    rcases bind_error refused with first | ⟨-, -, refused⟩
    · exact refuseIf_bare first
    rcases bind_error refused with first | ⟨-, -, refused⟩
    · cases checked : Numeric.validateParams server.text (.object arguments) _ with
      | error exception =>
        rw [checked] at first
        cases first
        exact ofExc_bare exception
      | ok passed =>
        rw [checked] at first
        cases first
    · cases refused

/-! The whole way. -/

/-- The adapter's own header is accepted. -/
theorem verifyToken_bearer (token : Token) : verifyToken token (some ("Bearer " ++ token.value)) = some true := by
  have split : partition ("Bearer " ++ token.value) = ("Bearer", token.value) := by
    simp [partition, String.toList_append]
  have named : ("Bearer " ++ token.value) ≠ "" := by
    intro same
    simpa [String.toList_append] using congrArg String.toList same
  have plain : token.value.toList.all (fun c => c.toNat < 128) = true := by
    simpa using token.plain
  have scheme : lower "Bearer" = "bearer" := by decide
  -- The scheme and the token meet every test of the header.
  unfold verifyToken
  simp only [named, if_false, split, scheme, token.filled, plain, if_true, ne_eq, not_true_eq_false, or_self,
    decide_true]

/-- What is sent back comes back as it was. -/
theorem readResponse_sent {now : String} {reply : Except Raised Document} (returns : Returns now reply) :
    readResponse (jsonResponse (envelopeOf now reply)) =
      .ok (if (envelopeOf now reply).1 = 401 then invalidToken else (envelopeOf now reply).2) := by
  obtain ⟨members, object⟩ := returns.object
  have back := read_asciiWrite returns.short returns.intact.1 returns.intact.2
  rw [object] at back
  unfold jsonResponse readResponse
  rw [if_pos returns.short]
  simp only [not_true_eq_false, if_false, object, back]

/-- On a way that works a tool call is, as a program, what it is without JSON and HTTP. -/
theorem call_keeps_meaning (server : Server Q R) (state now name : String) (arguments : Arguments)
    (plain : ∀ spec handler, permit server state name arguments.members = .ok spec →
      server.handlers spec.name = some handler → (handler arguments.members).Ends Plain) :
    mcpCall server state now .delivered name arguments.members =
      (direct server state name arguments.members).attempt.bind fun reply => .done (shownTo now reply) := by
  -- What comes back of a reply, where it returns as it was.
  have shown : ∀ reply, Returns now reply →
      resultOf (readResponse (jsonResponse (envelopeOf now reply))) = shownTo now reply := by
    intro reply returns
    rw [readResponse_sent returns]
    rfl
  have served : mcpCall server state now .delivered name arguments.members =
      (server.rpc state (.bytes (payload name arguments.members).asciiWrite.length
        (some (payload name arguments.members).asciiWrite))).attempt.bind fun reply =>
          .done (resultOf (readResponse (jsonResponse (envelopeOf now reply)))) := by
    unfold mcpCall callTool Server.serve callRequest
    simp only [verifyToken_bearer, Prog.bind_eq, Prog.bind_assoc, Prog.pure_eq, Prog.done_bind]
  -- The adapter is taken away; what remains is the daemon's side of the call.
  rw [served]
  unfold Server.rpc direct
  rw [accept_payload]
  cases permitted : permit server state name arguments.members with
  | error raised =>
    -- A call that may not pass asks nothing, and its error has no details.
    refine congrArg Prog.done (shown _ (returns_error fun error details status same value given => ?_))
    cases permit_bare permitted error details status same
    cases given
  | ok spec =>
    have ends : (server.dispatch spec.name arguments.members).Ends Plain := by
      unfold Server.dispatch
      cases found : server.handlers spec.name with
      | none => exact fun value given => by cases given
      | some handler => exact plain spec handler permitted found
    show ((((server.dispatch spec.name arguments.members).attempt).bind fun outcome =>
        Prog.ofExcept (replyTo spec.name arguments.members outcome)).attempt).bind _ =
      ((((server.dispatch spec.name arguments.members).attempt).bind fun outcome =>
        Prog.ofExcept (replyTo spec.name arguments.members outcome)).attempt).bind _
    -- Every outcome of the handler is plain, so what it is replied with returns as it was.
    rw [Prog.attempt_of_outcomes, Prog.bind_assoc, Prog.bind_assoc]
    refine Prog.attempt_bind_congr ends fun outcome good => ?_
    exact congrArg Prog.done (shown _ (returns_reply good))

/-- A server with two tools, one of which may be called at any time; the other one tells how often it was called. -/
def counting : Server Unit (fun _ => ℤ) where
  text := ⟨fun _ => "", fun _ => "", id, fun _ => none, fun _ => true, id⟩
  token := ⟨"5f", by decide, by simp⟩
  registry := [{ name := "ping", inputSchema := .object [] true [], allowedBeforeReady := true },
    { name := "count", inputSchema := .object [] true [] }]
  handlers name :=
    if name = "count" then
      some fun _ => .ask () fun
        | .ok calls => .done (.json (some (.int calls)) { asOf := "then" })
        | .error _ => .fail (.other "unavailable")
    else none
  takes _ := true
  health _ _ := .null

/-- The arguments of a call with an identifier. -/
def named : Arguments where
  members := [(.text "request_id", .text "a")]
  short := rfl
  sendable := sendable_iff.mpr ⟨rfl, rfl⟩

/-- The handler of that server returns plain documents only. -/
theorem counting_plain {tool : String} {handler : Members → Prog Unit (fun _ => ℤ) Raised Result}
    (found : counting.handlers tool = some handler) (params : Members) : (handler params).Ends Plain := by
  unfold counting at found
  dsimp only at found
  split at found
  · cases found
    intro answer
    cases answer with
    | ok calls => exact ⟨fun value given => by cases given; exact ⟨rfl, rfl⟩, sendable_iff.mpr ⟨rfl, rfl⟩⟩
    | error raised => trivial
  · cases found

theorem call_keeps_meaning_count :
    mcpCall counting "ready" "now" .delivered "count" named.members =
        (direct counting "ready" "count" named.members).attempt.bind (fun reply => .done (shownTo "now" reply)) ∧
      permit counting "ready" "count" named.members = .ok { name := "count", inputSchema := .object [] true [] } := by
  exact ⟨call_keeps_meaning counting "ready" "now" "count" named fun _ _ _ found => counting_plain found _, rfl⟩

/-! Whole runs. -/

/-- The call that a request comes to, if it reaches a handler. -/
def Server.call? (server : Server Q R) (arrival : Arrival) : Option (ToolSpec × Members) :=
  if verifyToken server.token arrival.request.authorization = some true then
    match arrival.request.target with
    | .rpc body => (server.accept arrival.state body).toOption
    | _ => none
  else none

/-- How the program of a request goes on from what its handler came to. -/
def answerFrom (now : String) (call : ToolSpec × Members) (outcome : Except Raised Result) :
    Prog Q R Raised Response :=
  .done (jsonResponse (envelopeOf now (replyTo call.1.name call.2 outcome)))

variable {arrival : Arrival}

/-- A request that reaches a handler is the handler's program, and its answer. -/
theorem serve_called {call : ToolSpec × Members}
    (called : server.call? arrival = some call) : server.serve arrival.state arrival.now arrival.request =
      (server.dispatch call.1.name call.2).attempt.bind (answerFrom arrival.now call) := by
  unfold Server.call? at called
  split at called
  · rename_i verified
    split at called
    · rename_i body target
      -- Only an admitted body reaches a handler.
      cases admitted : server.accept arrival.state body with
      | error raised => rw [admitted] at called; cases called
      | ok found =>
        rw [admitted] at called
        cases called
        have rpc : server.rpc arrival.state body = (server.dispatch call.1.name call.2).attempt.bind fun outcome =>
            Prog.ofExcept (replyTo call.1.name call.2 outcome) := by
          unfold Server.rpc
          rw [admitted]
          rfl
        unfold Server.serve
        simp only [verified, target, rpc, Prog.bind_eq, Prog.attempt_of_outcomes, Prog.bind_assoc]
        rfl
    · cases called
  · cases called

/-- A request that reaches no handler is answered without asking anything. -/
theorem serve_idle (idle : server.call? arrival = none) :
    ∃ response, server.serve arrival.state arrival.now arrival.request = .done response := by
  unfold Server.call? at idle
  unfold Server.serve
  cases verified : verifyToken server.token arrival.request.authorization with
  | none => exact ⟨_, rfl⟩
  | some accepted =>
    cases accepted with
    -- The token is wrong: 401.
    | false => exact ⟨_, rfl⟩
    | true =>
      -- The token is right, so it is the target or the body that keeps the handler away.
      rw [if_pos verified] at idle
      cases target : arrival.request.target with
      | health => exact ⟨_, rfl⟩
      | elsewhere => exact ⟨_, rfl⟩
      | rpc body =>
        simp only [target] at idle
        simp only [Server.rpc]
        cases admitted : server.accept arrival.state body with
        | error raised => exact ⟨_, rfl⟩
        | ok call => rw [admitted] at idle; cases idle

/-- What is admitted is a tool of the registry, at a time when it may be called, with parameters that pass its
schema. -/
theorem accept_ok {state : String} {body : Body} {spec : ToolSpec} {params : Members}
    (admitted : server.accept state body = .ok (spec, params)) :
    spec ∈ server.registry ∧ (spec.allowedBeforeReady = true ∨ state = "ready") ∧
      Numeric.validateParams server.text (.object params) spec.inputSchema = .ok () := by
  unfold Server.accept at admitted
  obtain ⟨members, -, admitted⟩ := bind_ok.mp admitted
  obtain ⟨tool, -, admitted⟩ := bind_ok.mp admitted
  obtain ⟨own, -, admitted⟩ := bind_ok.mp admitted
  cases found : server.specFor tool with
  | none => rw [found] at admitted; cases admitted
  | some known =>
    rw [found] at admitted
    obtain ⟨⟨⟩, ready, admitted⟩ := bind_ok.mp admitted
    obtain ⟨merged, -, admitted⟩ := bind_ok.mp admitted
    obtain ⟨⟨⟩, checked, admitted⟩ := bind_ok.mp admitted
    cases admitted
    refine ⟨?_, ?_, ?_⟩
    · cases tool with
      | text name => exact List.mem_of_find?_eq_some found
      -- The registry holds no name with surrogates.
      | broken codes => cases found
    · -- A tool that may not be called yet was refused before.
      by_contra closed
      push Not at closed
      simp [refuseIf, closed.1, closed.2] at ready
    · cases passed : Numeric.validateParams server.text (.object params) spec.inputSchema with
      | error raised => rw [passed] at checked; cases checked
      | ok passed' => rfl

/-- What is called was asked for with the token. -/
theorem called_ok {call : ToolSpec × Members} (called : server.call? arrival = some call) :
    verifyToken server.token arrival.request.authorization = some true ∧ call.1 ∈ server.registry ∧
      (call.1.allowedBeforeReady = true ∨ arrival.state = "ready") ∧
      Numeric.validateParams server.text (.object call.2) call.1.inputSchema = .ok () := by
  unfold Server.call? at called
  split at called
  · rename_i verified
    split at called
    · rename_i body target
      cases admitted : server.accept arrival.state body with
      | error raised => rw [admitted] at called; cases called
      | ok found =>
        rw [admitted] at called
        cases called
        exact ⟨verified, accept_ok admitted⟩
    · cases called
  · cases called

/-- An outcome with the text of an unknown exception taken away. -/
def mute : Except Raised Result → Except Raised Result
  | .error (.other _) => .error (.other "")
  | outcome => outcome

/-- The server whose handlers keep those texts to themselves. -/
def Server.muted (server : Server Q R) : Server Q R :=
  { server with handlers := fun name => (server.handlers name).map fun handler params =>
      (handler params).attempt.bind fun outcome => Prog.ofExcept (mute outcome) }

theorem replyTo_mute (tool : String) (params : Members) (outcome : Except Raised Result) :
    replyTo tool params (mute outcome) = replyTo tool params outcome := by
  cases outcome with
  | ok result => rfl
  | error raised => cases raised <;> rfl

/-- The muted handlers do the same, and the replies to what they come to are the same. -/
theorem dispatch_muted {β : Type} (server : Server Q R) (name : String) (params : Members)
    (next : Except Raised Result → Prog Q R Raised β) (blind : ∀ outcome, next (mute outcome) = next outcome) :
    (server.muted.dispatch name params).attempt.bind next = (server.dispatch name params).attempt.bind next := by
  cases found : server.handlers name with
  | none => simp only [Server.dispatch, Server.muted, found, Option.map_none]
  | some handler =>
    simp only [Server.dispatch, Server.muted, found, Option.map_some, Prog.attempt_of_outcomes, Prog.bind_assoc,
      Prog.done_bind, blind]

/-- No request is served differently then. -/
theorem serve_muted (server : Server Q R) (arrival : Arrival) :
    server.muted.serve arrival.state arrival.now arrival.request =
      server.serve arrival.state arrival.now arrival.request := by
  have rpc : ∀ body, server.muted.rpc arrival.state body = server.rpc arrival.state body := by
    intro body
    have admitted : server.muted.accept arrival.state body = server.accept arrival.state body := rfl
    unfold Server.rpc
    rw [admitted]
    cases server.accept arrival.state body with
    | error raised => rfl
    | ok call =>
      -- A reply never tells the text of an unknown exception.
      exact dispatch_muted server call.1.name call.2
        (fun outcome => Prog.ofExcept (replyTo call.1.name call.2 outcome)) fun outcome => by rw [replyTo_mute]
  unfold Server.serve
  simp only [rpc]
  rfl

/-- Over every interleaving of the requests that come in, whoever sends them and in whatever state of the daemon: a
request that reaches no handler has asked nothing and is answered at once; any other one was sent with the token for
a tool of the registry that could be called at the time, with parameters that pass its schema, and has asked what
the tool's handler asks. The texts of unknown exceptions play no part in any of it. -/
theorem requests_are_their_calls {World Choice : Type} (server : Server Q R)
    (perform : World → ℕ → (request : Q) → Choice → Option (Except Raised (R request) × World))
    (boot : Prog Q R Raised Response) (rebooted : World → World) {world : World}
    {s : Sys Q R Raised World Arrival Response}
    (steps : (server.machine perform boot rebooted).Steps (fun _ _ => True)
      ((server.machine perform boot rebooted).start world) s) :
    (∀ task arrival, s.calls task = some arrival →
      (server.call? arrival = none ∧ s.hist task = [] ∧
        ∀ running, s.tasks task = some running → ∃ response, running = .done response) ∨
      ∃ call, server.call? arrival = some call ∧
        verifyToken server.token arrival.request.authorization = some true ∧ call.1 ∈ server.registry ∧
        (call.1.allowedBeforeReady = true ∨ arrival.state = "ready") ∧
        Numeric.validateParams server.text (.object call.2) call.1.inputSchema = .ok () ∧
        ∃ rest, Reaches (server.dispatch call.1.name call.2) [] rest (s.hist task) ∧
          ∀ running, s.tasks task = some running → running = rest.attempt.bind (answerFrom arrival.now call)) ∧
      server.muted.machine perform boot rebooted = server.machine perform boot rebooted := by
  refine ⟨fun task arrival called => ?_, ?_⟩
  · obtain ⟨program, reached, current⟩ := Machine.steps_followed steps task arrival called
    change Reaches (server.serve arrival.state arrival.now arrival.request) [] program (s.hist task) at reached
    cases call : server.call? arrival with
    | none =>
      obtain ⟨response, idle⟩ := serve_idle call
      rw [idle] at reached
      obtain ⟨rfl, silent⟩ := Reaches.of_done reached
      exact .inl ⟨rfl, silent, fun running found => ⟨response, current running found⟩⟩
    | some found =>
      obtain ⟨verified, listed, open', valid⟩ := called_ok call
      rw [serve_called call] at reached
      refine .inr ⟨found, rfl, verified, listed, open', valid, ?_⟩
      -- The handler is still under way, or it has come to an outcome.
      rcases Reaches.in_attempt reached with ⟨rest, before, same⟩ | ⟨outcome, middle, before, after⟩
      · exact ⟨rest, before, fun running there => (current running there).trans same⟩
      · obtain ⟨same, rfl⟩ := Reaches.of_done after
        refine ⟨Prog.ofExcept outcome, before, fun running there => (current running there).trans ?_⟩
        rw [same]
        cases outcome <;> rfl
  · have programs : (fun arrival : Arrival => server.muted.serve arrival.state arrival.now arrival.request) =
        fun arrival => server.serve arrival.state arrival.now arrival.request := funext (serve_muted server)
    unfold Server.machine
    rw [programs]

/-- The small server over its number of calls. -/
def tally : Machine Unit (fun _ => ℤ) Raised ℤ Unit Arrival Response :=
  counting.machine (fun calls _ _ _ => some (.ok calls, calls + 1)) (.done plainError) id

/-- The request of a call. -/
def counted : Arrival := ⟨"ready", "now", callRequest counting.token "count" named.members⟩

/-- It reaches its handler. -/
theorem counted_called :
    counting.call? counted = some ({ name := "count", inputSchema := .object [] true [] }, named.members) := by
  have permitted : permit counting "ready" "count" named.members =
      .ok { name := "count", inputSchema := .object [] true [] } := rfl
  unfold Server.call? counted callRequest
  simp only [verifyToken_bearer, if_true, accept_payload, permitted]
  rfl

/-- Served to its question, it has asked what the handler asks, and was sent with the token. -/
theorem requests_are_their_calls_count : ∃ s, tally.Steps (fun _ _ => True) (tally.start 0) s ∧
    s.hist 1 = [⟨(), .ok 0⟩] ∧ ∃ rest, Reaches (counting.dispatch "count" named.members) [] rest (s.hist 1) := by
  have program : ∀ arrival, tally.program arrival = counting.serve arrival.state arrival.now arrival.request :=
    fun _ => rfl
  -- The request stands at the handler's question.
  obtain ⟨next, running⟩ : ∃ next, (tally.opened (tally.start 0) counted).tasks 1 = some (.ask () next) := by
    have newest : (tally.opened (tally.start 0) counted).tasks (tally.start 0).fresh = some (tally.program counted) := by
      simp [Machine.opened]
    rw [program, serve_called counted_called] at newest
    exact ⟨_, newest⟩
  have silent : (tally.start 0).hist 1 = [] := rfl
  obtain ⟨s, stepped, heard, same⟩ : ∃ s, tally.step (tally.opened (tally.start 0) counted) (.resume 1 ()) = some s ∧
      s.hist 1 = [⟨(), .ok 0⟩] ∧ s.calls 1 = some counted := by
    refine ⟨(tally.opened (tally.start 0) counted).answered 1 () next (.ok 0) 1, ?_, by simp [silent], rfl⟩
    simp only [Machine.step, running]
    rfl
  have steps : tally.Steps (fun _ _ => True) (tally.start 0) s :=
    .tail (.tail .refl ⟨.open counted, trivial, rfl⟩) ⟨.resume 1 (), trivial, stepped⟩
  refine ⟨s, steps, heard, ?_⟩
  rcases (requests_are_their_calls counting _ _ _ steps).1 1 counted same with ⟨idle, -⟩ | ⟨call, called, rest⟩
  · rw [counted_called] at idle
    cases idle
  · rw [counted_called] at called
    cases called
    obtain ⟨-, -, -, -, program, reached, -⟩ := rest
    exact ⟨program, reached⟩

end Rasat.Gateway
