import RasatTrading.Coop.System
import RasatTrading.Document.Ascii
import RasatTrading.Numeric

/-! A tool call on its way: from the adapter through JSON and HTTP to the handler in the daemon and back. -/

namespace Rasat.Gateway

open Coop Document

/-! Envelopes. -/

/-- `Meta`. -/
structure Meta where
  asOf : String
  source : String := "daemon"
  freshness : String := "fresh"
  algoVersion : Option String := none
  extra : Members := []

/-- `Meta.to_dict`; an extra member replaces one of the same name. -/
def Meta.toDict (info : Meta) : Document :=
  .object (info.extra.foldl store
    ([(.text "as_of", .text info.asOf), (.text "source", .text info.source),
      (.text "freshness", .text info.freshness)] ++
      info.algoVersion.toList.map fun version => (.text "algo_version", .text version)))

/-- `ok_response`; a request id that counts as false is left out. -/
def okResponse (data : Option Document) (info : Meta) (requestId : Option Document) : Document :=
  .object ([(.text "ok", .bool true)] ++ (data.toList.map fun value => (.text "data", value)) ++
    [(.text "meta", info.toDict)] ++
    ((requestId.filter truthyDocument).toList.map fun value => (.text "request_id", value)))

/-- `error_response` at the given time. -/
def errorResponse (code message : String) (details : Option Document) (now : String) : Document :=
  .object [(.text "ok", .bool false),
    (.text "error", .object ([(.text "code", .text code), (.text "message", .text message)] ++
      details.toList.map fun value => (.text "details", value))),
    (.text "meta", Meta.toDict { asOf := now })]

/-! Exceptions. -/

/-- An exception on the way, told apart as far as the server does. -/
inductive Raised
  /-- A canonical error; its own HTTP status may be absent or zero. -/
  | rasat (error : RasatError) (details : Option Document) (httpStatus : ℕ)
  | keyError (shown : String)
  | other (text : String)

/-- Raise a canonical error when a condition is met. -/
def refuseIf (condition : Bool) (code : ErrorCode) (message : String) : Except Raised Unit :=
  if condition then .error (.rasat ⟨code, message⟩ none 0) else .ok ()

/-- An exception of a check. -/
def ofExc : Exc → Raised
  | .rasat error => .rasat error none 0
  | raised => .other raised.text

/-- `http_status_for`. -/
def httpStatusFor : ErrorCode → ℕ
  | .unauthorized => 401
  | .invalidRequest => 400
  | .toolNotFound | .accountNotFound | .notFound | .orderNotFound => 404
  | .rateLimited => 429
  | .notReady | .pipelineUnavailable | .credentialStoreUnavailable => 503
  | .timeout => 504
  | .staleData | .insufficientBalance | .accountExists | .accountInUse | .accountNoCredentials
  | .overrideNotAvailable | .tradingNotEnabled | .orderReconcileRequired => 409
  | .invalidSymbol | .riskLimitExceeded | .symbolNotAllowed | .filterViolation | .orderRejected
  | .orderExpired => 422
  | .credentialDecryptFailed | .orderUnknown | .internalError | .notImplemented => 500

/-! The daemon's side. -/

/-- `ToolSpec`, without its description. -/
structure ToolSpec where
  name : String
  inputSchema : Numeric.Schema
  allowedBeforeReady : Bool := false

/-- What a handler returns. -/
inductive Result
  | json (data : Option Document) (info : Meta)
  /-- One that `json.dumps` does not take. -/
  | foreign

/-- A bearer token: `secrets.token_hex` gives plain characters, and some. -/
structure Token where
  value : String
  filled : value ≠ ""
  plain : ∀ c ∈ value.toList, c.toNat < 128

/-- What the server is built over; the handlers are programs over whatever they need. -/
structure Server (Q : Type) (R : Q → Type) where
  text : Text
  token : Token
  /-- `REGISTRY`. -/
  registry : List ToolSpec
  handlers : String → Option (Members → Prog Q R Raised Result)
  /-- Which sizes of a body the HTTP server itself takes. -/
  takes : ℕ → Bool
  /-- The data of `/health` in a state and at a time. -/
  health : String → String → Document

/-- The body of a request: its bytes with the text that they encode, if they do. -/
inductive Body
  | unreadable
  | bytes (size : ℕ) (text : Option (List Char))

/-- Where a request goes. -/
inductive Target
  | health
  | rpc (body : Body)
  | elsewhere

/-- An HTTP request. -/
structure Request where
  authorization : Option String
  target : Target

/-- An HTTP response; one that is no JSON is the HTTP server's own. -/
structure Response where
  status : ℕ
  json : Bool
  text : List Char
  deriving DecidableEq

/-- `str.partition` at the first space. -/
def partition (header : String) : String × String :=
  (String.ofList (header.toList.takeWhile (· ≠ ' ')), String.ofList ((header.toList.dropWhile (· ≠ ' ')).drop 1))

/-- `_verify_token`; the comparison takes plain characters only, and raises for any other. -/
def verifyToken (expected : Token) (authHeader : Option String) : Option Bool :=
  match authHeader with
  | none => some false
  | some header =>
    if header = "" then some false
    else
      let (scheme, token) := partition header
      if lower scheme ≠ "bearer" ∨ token = "" then some false
      else if token.toList.all (fun c => c.toNat < 128) then some (token = expected.value)
      else none

/-- The number that `==` takes a value for, where it is one; a boolean counts, too. -/
def comparedNumber : Document → Option Rounding.Extended
  | .bool value => some (.finite (if value then 1 else 0))
  | value => numberOf value

mutual

/-- `==` between values inside of containers: the reader gives one object for every NaN, and an object
is found to be equal to itself. -/
def alike : Document → Document → Bool
  | .null, .null => true
  | .str left, .str right => left = right
  | .array left, .array right => alikeItems left right
  | .object left, .object right => left.length = right.length && alikeMembers left right
  | left, right =>
    match comparedNumber left, comparedNumber right with
    | some number, some other => number = other
    | _, _ => false

def alikeItems : List Document → List Document → Bool
  | [], [] => true
  | left :: rest, right :: others => alike left right && alikeItems rest others
  | _, _ => false

def alikeMembers : Members → Members → Bool
  | [], _ => true
  | (key, value) :: rest, others =>
    (match others.lookup key with
      | some other => alike value other
      | none => false) && alikeMembers rest others

end

/-- Whether a value is a NaN itself. -/
def isNan : Document → Bool
  | .float .nan => true
  | _ => false

/-- `==` between two values: a NaN is not equal to itself. -/
def equal (left right : Document) : Bool := alike left right && !isNan left

/-- `dict.get` with None for what is absent. -/
def get? (members : Members) (key : String) : Option Document :=
  match members.lookup (.text key) with
  | some .null => none
  | found => found

/-- One key of `_merge_transport_fields`. -/
def mergeField (body params merged : Members) (key : String) : Except Raised Members :=
  match get? body key, get? params key with
  | some top, some value => do
    refuseIf (!equal top value) .invalidRequest (key ++ " values conflict between top level and params")
    return store merged (.text key, top)
  | some top, none => return store merged (.text key, top)
  | none, _ => return merged

/-- `_merge_transport_fields`. -/
def mergeTransportFields (body params : Members) : Except Raised Members :=
  Numeric.transportFields.foldlM (mergeField body params) params

/-- `MAX_BODY_BYTES`. -/
def maxBodyBytes : ℕ := 1000000

/-- The object that a body encodes. -/
def readBody (takes : ℕ → Bool) : Body → Except Raised Members
  | .unreadable => .error (.rasat ⟨.invalidRequest, "could not read request body"⟩ none 0)
  | .bytes size text => do
    refuseIf (!takes size) .invalidRequest "could not read request body"
    refuseIf (maxBodyBytes < size) .invalidRequest "request body is too large"
    match text.map Document.read with
    | some (.ok (.object members)) => .ok members
    | some (.ok _) => .error (.rasat ⟨.invalidRequest, "request body must be an object"⟩ none 0)
    | _ => .error (.rasat ⟨.invalidRequest, "request body is not valid JSON"⟩ none 0)

/-- The name of the tool. -/
def readTool (body : Members) : Except Raised Str :=
  match body.lookup (.text "tool") with
  | some (.str name) => do
    refuseIf (name = .text "" ∨ name = .broken []) .invalidRequest "tool field is required (string)"
    return name
  | _ => .error (.rasat ⟨.invalidRequest, "tool field is required (string)"⟩ none 0)

/-- The parameters; what counts as false stands for none. -/
def readParams (body : Members) : Except Raised Members :=
  match (body.lookup (.text "params")).filter truthyDocument with
  | none => .ok []
  | some (.object params) => .ok params
  | some _ => .error (.rasat ⟨.invalidRequest, "params field must be an object"⟩ none 0)

variable {Q : Type} {R : Q → Type}

/-- `spec_for`. -/
def Server.specFor (server : Server Q R) : Str → Option ToolSpec
  | .text name => server.registry.find? fun spec => spec.name = name
  | .broken _ => none

/-- What stands before a handler: the tool and the parameters that it is called with. -/
def Server.accept (server : Server Q R) (state : String) (body : Body) : Except Raised (ToolSpec × Members) := do
  let members ← readBody server.takes body
  let tool ← readTool members
  let params ← readParams members
  match server.specFor tool with
  | none => .error (.rasat ⟨.toolNotFound, "unknown tool: " ++ Str.shown tool⟩ none 0)
  | some spec => do
    refuseIf (!spec.allowedBeforeReady && state ≠ "ready") .notReady
      ("daemon is not ready (state=" ++ state ++ ") — tool call rejected")
    let merged ← mergeTransportFields members params
    (Numeric.validateParams server.text (.object merged) spec.inputSchema).mapError ofExc
    return (spec, merged)

/-- `dispatch`. -/
def Server.dispatch (server : Server Q R) (name : String) (params : Members) : Prog Q R Raised Result :=
  match server.handlers name with
  | none => .fail (.rasat ⟨.toolNotFound, "unknown tool: " ++ name⟩ none 0)
  | some handler => handler params

/-- The envelope of what a handler came to; the text of an unknown exception stays in the log. -/
def replyTo (tool : String) (params : Members) : Except Raised Result → Except Raised Document
  | .ok (.json data info) =>
    let envelope := okResponse data info (params.lookup (.text "request_id"))
    if envelope.short then .ok envelope else .error (.other "Exceeds the limit for integer string conversion")
  | .ok .foreign => .error (.other "Object is not JSON serializable")
  | .error (.rasat error details status) => .error (.rasat error details status)
  | .error (.keyError shown) =>
    .error (.rasat ⟨.invalidRequest, tool ++ " missing required parameter: " ++ shown⟩ none 0)
  | .error (.other _) => .error (.rasat ⟨.internalError, tool ++ " failed"⟩ none 0)

/-- `rpc_handler`. -/
def Server.rpc (server : Server Q R) (state : String) (body : Body) : Prog Q R Raised Document := do
  let (spec, params) ← Prog.ofExcept (server.accept state body)
  let outcome ← (server.dispatch spec.name params).attempt
  Prog.ofExcept (replyTo spec.name params outcome)

/-- The status and the envelope of what is sent: `error_middleware`. -/
def envelopeOf (now : String) : Except Raised Document → ℕ × Document
  | .ok envelope => (200, envelope)
  | .error (.rasat error details status) =>
    (if status = 0 then httpStatusFor error.code else status,
      errorResponse error.code.name error.message details now)
  | .error _ => (500, errorResponse "INTERNAL_ERROR" "internal error" none now)

/-- The answer of the HTTP server itself. -/
def plainError : Response := ⟨500, false, "500 Internal Server Error".toList⟩

/-- `json_response`; an envelope that cannot be written leaves the HTTP server to answer. -/
def jsonResponse (sent : ℕ × Document) : Response :=
  if sent.2.short then ⟨sent.1, true, sent.2.asciiWrite⟩ else plainError

/-- A request is served: `auth_middleware` around everything else. The state is the one in which the request
comes in, the time is that of the answer. -/
def Server.serve (server : Server Q R) (state now : String) (request : Request) : Prog Q R Raised Response :=
  match verifyToken server.token request.authorization with
  | none => .done plainError
  | some false =>
    .done (jsonResponse (401, errorResponse "UNAUTHORIZED" "invalid or missing bearer token" none now))
  | some true =>
    match request.target with
    | .health => .done (jsonResponse (200, okResponse (some (server.health state now)) { asOf := now } none))
    | .rpc body => do
      let reply ← (server.rpc state body).attempt
      return jsonResponse (envelopeOf now reply)
    -- An unknown route is an exception like any other.
    | .elsewhere => .done (jsonResponse (envelopeOf now (.error (.other "Not Found"))))

/-- A request, the state in which it comes in and the time that its answer tells. -/
structure Arrival where
  state : String
  now : String
  request : Request

/-- The server as a service whose requests are served side by side, over any world. -/
def Server.machine {World Choice : Type} (server : Server Q R)
    (perform : World → ℕ → (request : Q) → Choice → Option (Except Raised (R request) × World))
    (boot : Prog Q R Raised Response) (rebooted : World → World) : Machine Q R Raised World Choice Arrival Response where
  perform := perform
  program arrival := server.serve arrival.state arrival.now arrival.request
  boot := boot
  rebooted := rebooted

/-! The adapter's side. -/

/-- What becomes of a request on the network. -/
inductive Network
  | delivered
  /-- The request did not get there, for an error of the HTTP client or for another one. -/
  | refused (client : Bool) (text : String)
  /-- The answer did not get back. -/
  | lost (client : Bool) (text : String)

/-- The payload of a tool call: two of its arguments are given at the top as well. -/
def payload (tool : String) (params : Members) : Document :=
  .object ([(.text "tool", .text tool), (.text "params", .object params)] ++
    Numeric.transportFields.filterMap fun key =>
      (params.lookup (.text key)).map fun value => (.text key, value))

/-- The envelope that a rejected token gives. -/
def invalidToken : Document :=
  .object [(.text "ok", .bool false),
    (.text "error", .object [(.text "code", .text "UNAUTHORIZED"), (.text "message", .text "invalid token")])]

/-- `call_tool` on what came back. -/
def readResponse (response : Response) : Except String Document :=
  if ¬response.json then .error "could not reach daemon: unexpected mimetype"
  else
    match Document.read response.text with
    | .ok (.object members) => .ok (if response.status = 401 then invalidToken else .object members)
    | .ok _ => .error "daemon returned an invalid envelope"
    | .error _ => .error "Expecting value"

/-- The request of `call_tool`. -/
def callRequest (token : Token) (tool : String) (params : Members) : Request where
  authorization := some ("Bearer " ++ token.value)
  target := .rpc (.bytes (payload tool params).asciiWrite.length (some (payload tool params).asciiWrite))

/-- The message of a failed exchange; a timeout is no error of the HTTP client. -/
def unreached (client : Bool) (text : String) : String :=
  if client then "could not reach daemon: " ++ text else text

/-- `DaemonClient.call_tool`. -/
def callTool (server : Server Q R) (state now : String) (network : Network) (tool : String) (params : Members) :
    Prog Q R Raised (Except String Document) :=
  match network with
  | .refused client text => .done (.error (unreached client text))
  | .lost client text => do
    let _ ← server.serve state now (callRequest server.token tool params)
    return .error (unreached client text)
  | .delivered => do
    let response ← server.serve state now (callRequest server.token tool params)
    return readResponse response

/-- The result of an MCP tool call. -/
structure CallToolResult where
  text : List Char
  isError : Bool
  deriving DecidableEq

/-- `_envelope_to_result`. -/
def envelopeToResult (envelope : Document) : CallToolResult where
  text := envelope.write
  isError :=
    match envelope.get? "ok" with
    | some (.bool true) => false
    | _ => true

/-- `_error_result`. -/
def errorResult (code message : String) : CallToolResult :=
  envelopeToResult (.object [(.text "ok", .bool false),
    (.text "error", .object [(.text "code", .text code), (.text "message", .text message)])])

/-- What `_call_tool` makes of what the client gives. -/
def resultOf : Except String Document → CallToolResult
  | .error text => errorResult "INTERNAL_ERROR" text
  | .ok envelope => envelopeToResult envelope

/-- `_call_tool`. -/
def mcpCall (server : Server Q R) (state now : String) (network : Network) (name : String) (arguments : Members) :
    Prog Q R Raised CallToolResult := do
  return resultOf (← callTool server state now network name arguments)

end Rasat.Gateway
