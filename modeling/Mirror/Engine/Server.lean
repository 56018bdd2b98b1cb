import Mirror.Engine.Framework
import Mirror.Engine.Handlers
import Mirror.Js.Arithmetic
import Mirror.Js.Form
import Mirror.Js.Process

/-! The HTTP server of the matching engine, with the state that its handlers share. -/
namespace Mirror

open Evm hiding Byte
open Js Completion

/-- What a request finds: what the handlers find, the ABI decoder, the token, and how often
`MATCH_V1` awaits something before it is done. -/
structure ServerHost extends Host where
  /-- `decodeAbiParameters` of a name and a reason, or the message of its error. -/
  decodeSayGoodbye : List Byte → Except JsString (JsString × JsString)
  teeInternalToken : Option JsString
  awaits : ℕ

/-- The module-level state of the handlers. -/
structure Extension where
  greetingCount : Number
  lastGreeting : JsString
  farewellCount : Number
  lastFarewell : JsString
  outcomes : List OutcomeRecord

def Extension.initial : Extension := ⟨.ofRat 0, [], .ofRat 0, [], []⟩

/-- `reportState()`. -/
def reportState (s : Extension) : Json :=
  .obj [(text "greetingCount", .num s.greetingCount), (text "lastGreeting", .str s.lastGreeting),
    (text "farewellCount", .num s.farewellCount), (text "lastFarewell", .str s.lastFarewell)]

/-! ### Handlers -/

abbrev HandlerTask := Task Extension (Except Thrown HandlerResult)

abbrev Handler := ServerHost → Json → HandlerTask

/-- What `hexToBytes` throws at a value that is neither a string nor nullish. -/
def notAString : JsString := text "TypeError: s.startsWith is not a function"

/-- A message that is no string fails in `hexToBytes`, where every handler begins. -/
def withText (f : ServerHost → JsString → HandlerTask) : Handler := fun host msg =>
  -- `hexToBytes(msg)` throws at a number or an object, inside the `try` of the handler
  match msg with
  | .str s => f host s
  | _ => .finish fun s => (.ok (refusal (text "decoding request: invalid hex: " ++ notAString)), s)

/-- Least first, by code units. -/
def unitsLe : JsString → JsString → Bool
  | [], _ => true
  | _ :: _, [] => false
  | c :: s, d :: t => c < d || (c = d && unitsLe s t)

/-- The name that a `SAY_HELLO` greets. -/
def readHello (host : Host) (msg : JsString) : Body JsString := do
  let raw ← decodeHex msg
  let source := utf8Decode raw
  let req ← orReturn (Json.parse source)
    (text "decoding request: " ++ host.syntaxErrorText source)
  -- `typeof null` and arrays are told apart in the source: neither is taken
  match req with
  | .obj members => do
    let unknown := ((members.map (·.1)).filter (· ≠ text "name")).mergeSort unitsLe
    match unknown with
    | key :: _ => returning (text "decoding request: unknown field \"" ++ key ++ text "\"")
    | [] =>
      orReturn (((req.get (text "name")).bind Json.asString).filter (· ≠ []))
        (text "name must not be empty")
  | _ => returning (text "decoding request: expected a JSON object")

def greetingText (name : JsString) : JsString :=
  text "Hello, " ++ name ++ text "! Welcome to Flare Confidential Compute."

/-- `handleSayHello(msg)`. -/
def handleSayHello (host : ServerHost) (msg : JsString) : HandlerTask := .finish fun s =>
  match readHello host.toHost msg with
  | .ok name =>
    let count := s.greetingCount.add (.ofRat 1)
    let greeting := greetingText name
    let resp := Json.obj [(text "greeting", .str greeting), (text "greetingNumber", .num count)]
    (.ok ⟨some (payloadHex resp), 1, none⟩,
      { s with greetingCount := count, lastGreeting := greeting })
  | .error (.returned message) => (.ok (refusal message), s)
  -- what is thrown passes the handler and the queue
  | .error (.thrown e) => (.error e, s)

/-- The name and the reason of a `SAY_GOODBYE`. -/
def readGoodbye (host : ServerHost) (msg : JsString) : Body (JsString × JsString) := do
  let raw ← decodeHex msg
  let (name, reason) ← match host.decodeSayGoodbye raw with
    | .ok decoded => pure decoded
    | .error e => returning (text "decoding request: ABI decode failed: " ++ e)
  returnIf (name = []) (text "name must not be empty")
  return (name, reason)

def farewellText (name reason : JsString) : JsString :=
  text "Goodbye, " ++ name ++ text "! Reason: " ++ reason

/-- `handleSayGoodbye(msg)`. -/
def handleSayGoodbye (host : ServerHost) (msg : JsString) : HandlerTask := .finish fun s =>
  match readGoodbye host msg with
  | .ok (name, reason) =>
    let count := s.farewellCount.add (.ofRat 1)
    let farewell := farewellText name reason
    let resp := Json.obj [(text "farewell", .str farewell), (text "farewellNumber", .num count)]
    (.ok ⟨some (payloadHex resp), 1, none⟩,
      { s with farewellCount := count, lastFarewell := farewell })
  | .error (.returned message) => (.ok (refusal message), s)
  | .error (.thrown e) => (.error e, s)

/-- `MATCH_V1` awaits the node and the chain, and appends to the log after the last of these. -/
def matchV1 (host : ServerHost) (msg : JsString) : HandlerTask :=
  .delayed host.awaits <| .finish fun s =>
    let (result, outcomes) := handleMirrorMatchStageB host.toHost msg s.outcomes
    (result, { s with outcomes })

def topUpV1 (host : ServerHost) (msg : JsString) : HandlerTask :=
  .finish fun s => (handleMirrorTopUpV1 host.toHost msg, s)

/-- The handlers by name. -/
inductive Operation
  | handleSayHello
  | handleSayGoodbye
  | handleMirrorMatchStageB
  | handleMirrorTopUpV1
  deriving DecidableEq

def Operation.handler : Operation → Handler
  | handleSayHello => withText Mirror.handleSayHello
  | handleSayGoodbye => withText Mirror.handleSayGoodbye
  | handleMirrorMatchStageB => withText matchV1
  | handleMirrorTopUpV1 => withText topUpV1

/-- What `register` passes to `framework.handle`, call by call. -/
def registrations : List (JsString × JsString × Operation) :=
  [(text "GREETING", text "SAY_HELLO", .handleSayHello),
    (text "GREETING", text "SAY_GOODBYE", .handleSayGoodbye),
    (text "MIRROR", text "MATCH_V1", .handleMirrorMatchStageB),
    (text "MIRROR", text "TOPUP_V1", .handleMirrorTopUpV1)]

/-- `register(framework)`. -/
def register (framework : Framework Operation) : Option (Framework Operation) :=
  framework.handleAll registrations

/-- The framework of the running server. -/
def engineFramework : Framework Operation := (register ⟨[]⟩).getD ⟨[]⟩

/-! ### Responses -/

inductive Payload
  | text (s : JsString)
  | json (v : Json)
  | empty

structure Response where
  status : ℕ
  payload : Payload

/-- What becomes of a request: its response, or what is thrown and caught by nobody, so that nothing
is sent and the process ends. -/
abbrev Answer := Except Thrown Response

/-- The text that `send` writes. -/
def Payload.body : Payload → JsString
  | text s => s
  | json v => v.stringify
  | empty => []

/-- `{ error: message }`. -/
def errorJson (message : JsString) : Payload := .json (.obj [(text "error", .str message)])

def badRequest (message : JsString) : Response := ⟨400, errorJson message⟩

def methodNotAllowed : Response := ⟨405, .text (text "method not allowed")⟩

def version : JsString := text "0.1.0"

/-- A property of an object literal; one that is `undefined` is not written. -/
def member (key : String) (v : Option Json) : List (JsString × Json) :=
  (v.map fun v => (text key, v)).toList

/-- The log of a result. -/
def resultLog (r : HandlerResult) : JsString :=
  if r.status = 0 then
    match r.error.filter (· ≠ []) with
    | some err => text "error: " ++ err
    | none => text "error: unknown"
  else if r.status = 1 then text "ok"
  else text "pending"

def actionResult (data df : Json) (r : HandlerResult) : Json :=
  .obj (member "id" (data.get (text "id")) ++
    -- what the request leaves out is `undefined`, so `JSON.stringify` leaves it out
    member "submissionTag" (data.get (text "submissionTag")) ++
    [(text "status", natJson r.status), (text "log", .str (resultLog r))] ++
    member "opType" (df.get (text "opType")) ++
    member "opCommand" (df.get (text "opCommand")) ++
    [(text "additionalResultStatus", .str (text "0x")), (text "version", .str version),
      (text "data", .str (r.data.getD (text "0x")))])

/-- The end of `processAction`. The line that it logs has the text of the id. -/
def finishAction (data df : Json) : Except Thrown HandlerResult → Answer
  | .ok r =>
    -- the template literal of the log line throws where the id has no text
    if (data.get (text "id")).all fun id => id.toText.isSome then
      .ok ⟨200, .json (actionResult data df r)⟩
    else .error .typeError
  | .error e => .error e

def stateResponse (s : Extension) : Json :=
  .obj [(text "stateVersion", .str ((stringToBytes32Hex version).getD [])),
    (text "state", reportState s)]

/-! ### Requests -/

structure IncomingMessage where
  host : ServerHost
  method : JsString
  url : JsString
  authorization : Option JsString
  /-- What arrives, unless reading it fails. -/
  body : Option (List Byte)

/-- The part before the first `?`. -/
def cleanPath (path : JsString) : JsString := path.takeWhile (· ≠ 0x3F)

/-- `path.split("?")[1]`, or nothing. -/
def queryOf (path : JsString) : JsString :=
  ((path.dropWhile (· ≠ 0x3F)).tail).takeWhile (· ≠ 0x3F)

/-- `hexToBytes(v)` where `v` may be left out. -/
def wireBytes : Option Json → Except JsString (List Byte)
  | none | some .null => .ok []
  | some (.str s) => hexToBytes s
  | some _ => .error notAString

abbrev Job := Task Extension Answer

/-- What a request comes to before it waits for others: a response, or a job for the queue. -/
abbrev Routed := Completion Thrown Response Job

def orBadRequest {α : Type} (context : String) :
    Except JsString α → Completion Thrown Response α
  | .ok a => .ok a
  | .error e => returning (badRequest (text context ++ e))

section

variable (host : ServerHost)

/-- The bytes as JSON, or the text of the error. -/
def parseText (source : JsString) : Except JsString Json :=
  match Json.parse source with
  | some v => .ok v
  | none => .error (host.syntaxErrorText source)

/-- What an action is about: its data and what is decoded from the message. -/
def readAction (body : JsString) : Completion Thrown Response (Json × Json) := do
  let action ← orBadRequest "invalid action JSON: " (parseText host body)
  let data ← orReturn ((action.get (text "data")).filter Json.isTruthy)
    (badRequest (text "invalid action structure: missing data"))
  let msgBytes ← orBadRequest "invalid hex in message: " (wireBytes (data.get (text "message")))
  let df ← orBadRequest "invalid DataFixed JSON in message: "
    (parseText host (utf8Decode msgBytes))
  returnIf ((df.get (text "opType")).filter Json.isTruthy = none)
    (badRequest (text "invalid DataFixed: missing opType"))
  return (data, df)

/-- The handler for what is decoded. -/
def lookupFixed (df : Json) : Except Thrown (Option Operation) :=
  engineFramework.lookup host.toLowerCase ((df.get (text "opType")).getD .null)
    ((defined df (text "opCommand")).getD (.str []))

def originalMessage (df : Json) : Json :=
  (defined df (text "originalMessage")).getD (.str (text "0x"))

def processAction (body : JsString) : Routed := do
  let (data, df) ← readAction host body
  match lookupFixed host df with
  | .error e => throwing e
  | .ok none => returning ⟨501, .text (text "unsupported op type")⟩
  | .ok (some operation) =>
    return (operation.handler host (originalMessage df)).map (finishAction data df)

def processState : Job := .finish fun s => (.ok ⟨200, .json (stateResponse s)⟩, s)

def directionJson : Direction → Json
  | .buy => .str (text "BUY")
  | .sell => .str (text "SELL")

def OutcomeRecord.toJson (r : OutcomeRecord) : Json :=
  .obj [(text "lead", .str r.lead), (text "timestamp", natJson r.timestamp),
    (text "pnlBps", .num (.ofRat r.pnlBps)), (text "direction", directionJson r.direction),
    (text "sizePct", .num r.sizePct)]

def getOutcomesForLead (lead : JsString) (log : List OutcomeRecord) : List OutcomeRecord :=
  log.filter fun e => host.toLowerCase e.lead = host.toLowerCase lead

def processOutcomeLog (path : JsString) (log : List OutcomeRecord) : Response :=
  match truthy host.teeInternalToken with
  -- asked again here, although `serve` has refused the request before
  | none => ⟨503, errorJson (text "TEE_INTERNAL_TOKEN not configured")⟩
  | some _ =>
    let events := match truthy (searchParam (queryOf path) (text "lead")) with
      | some lead => getOutcomesForLead host lead log
      | none => log
    ⟨200, .json (.obj [(text "events", .arr (events.map OutcomeRecord.toJson))])⟩

/-- `handleRequest(method, path, body)`, with the state at the time of the call. -/
def handleRequest (method path body : JsString) (s : Extension) : Routed :=
  let clean := cleanPath path
  -- these are answered before any queue
  if clean = text "/health" ∨ clean = text "/" then
    if method = text "GET" ∨ method = text "HEAD" then
      returning ⟨200, .json (.obj [(text "ok", .bool true),
        (text "service", .str (text "mirror-matching-engine"))])⟩
    else returning methodNotAllowed
  else if clean = text "/action" then
    if method = text "POST" then processAction host body else returning methodNotAllowed
  else if clean = text "/state" then
    if method = text "GET" then .ok processState else returning methodNotAllowed
  else if clean = text "/internal/outcome-log" then
    if method ≠ text "GET" then returning methodNotAllowed
    -- the log is read at once, whatever is under way
    else returning (processOutcomeLog host path s.outcomes)
  else returning ⟨404, .text (text "not found")⟩

end

/-- `auth !== "Bearer " + expected`, or nothing is expected. -/
def unauthorized (r : IncomingMessage) : Bool :=
  match truthy r.host.teeInternalToken with
  -- without a token in the environment nobody is authorized
  | none => true
  | some expected => r.authorization.getD [] ≠ text "Bearer " ++ expected

/-- `serve(req, res)` up to the queue. -/
def serve (r : IncomingMessage) (s : Extension) : Routed := do
  returnIf (cleanPath r.url = text "/internal/outcome-log" ∧ unauthorized r)
    ⟨401, errorJson (text "unauthorized")⟩
  returnIf (r.method = text "OPTIONS") ⟨204, .empty⟩
  -- the body is read before it is known whether anybody needs it
  let body ← orReturn r.body (badRequest (text "failed to read body"))
  handleRequest r.host r.method r.url (utf8Decode body) s

/-! ### The server -/

/-- A response at once, or a job that the request waits for. -/
def Server.route (r : IncomingMessage) (s : Extension) : Answer ⊕ Job :=
  match serve r s with
  | .ok job => .inr job
  | .error (.returned response) => .inl (.ok response)
  | .error (.thrown e) => .inl (.error e)

abbrev Server := Desk Extension Answer

/-- What happens at the server in one turn of the event loop. -/
abbrev Server.Turn := Process.Turn IncomingMessage

def Server.start : Server := Desk.start .initial

/-- One turn of the process, which ends when a request has thrown. -/
def Server.step : Server → Server.Turn → Server := Process.step Server.route

end Mirror
