import Mirror.Properties.Dispatch
import Mirror.Properties.ServingOrder
import Mirror.Refinement.Wire

/-! An instruction that is sent to the matching engine reaches its handler with its message as it
is, and what the handler makes of it is what the sender receives. -/
namespace Mirror

open Evm hiding Byte
open Js Completion

/-! ### What a handler makes of a message -/

/-- The payload of what is accepted, or the message of what is refused. -/
def Operation.performs (op : Operation) (host : ServerHost) (msg : JsString) (s : Extension) :
    Body Json :=
  match op with
  | handleSayHello => do
    let name ← readHello host.toHost msg
    return .obj [(text "greeting", .str (greetingText name)),
      (text "greetingNumber", .num (s.greetingCount.add (.ofRat 1)))]
  | handleSayGoodbye => do
    let (name, reason) ← readGoodbye host msg
    return .obj [(text "farewell", .str (farewellText name reason)),
      (text "farewellNumber", .num (s.farewellCount.add (.ofRat 1)))]
  | handleMirrorMatchStageB => do
    let accepted ← matchStageB host.toHost msg
    return accepted.payload
  | handleMirrorTopUpV1 => do
    let topUp ← mirrorTopUp host.toHost msg
    return topUp.payload

/-- The result of an accepted message. -/
def success (payload : Json) : HandlerResult := ⟨some (payloadHex payload), 1, none⟩

theorem handler_performs (op : Operation) (host : ServerHost) (msg : JsString) (s : Extension) :
    ((op.handler host (.str msg)).run s).1 = (op.performs host msg s).toCall success refusal := by
  -- each handler wraps one body: its results are those of the body, and so are its errors
  cases op with
  | handleSayHello =>
    simp only [Operation.handler, withText, handleSayHello, Task.run, Operation.performs]
    cases readHello host.toHost msg with
    | ok name => rfl
    | error e => cases e <;> rfl
  | handleSayGoodbye =>
    simp only [Operation.handler, withText, handleSayGoodbye, Task.run, Operation.performs]
    cases readGoodbye host msg with
    | ok decoded => rfl
    | error e => cases e <;> rfl
  | handleMirrorMatchStageB =>
    simp only [Operation.handler, withText, matchV1, Task.delayed_run, Task.run,
      handleMirrorMatchStageB, Operation.performs]
    cases matchStageB host.toHost msg with
    | ok a => rfl
    | error e => cases e <;> rfl
  | handleMirrorTopUpV1 =>
    simp only [Operation.handler, withText, topUpV1, Task.run, handleMirrorTopUpV1,
      Operation.performs]
    cases mirrorTopUp host.toHost msg with
    | ok t => rfl
    | error e => cases e <;> rfl

/-- A counter that is summed up is finite. -/
theorem count_finite {α : Type} {done : List α} {said : α → JsString} {count : Number}
    {last : JsString} (counts : Counts done said count last) (few : done.length < 2 ^ 53) :
    (Json.num (count.add (.ofRat 1))).IsFinite := by
  rw [counts.count few.le, ofRat_add_one few]
  exact natJson_finite few

theorem performs_finite {rs : List IncomingMessage} (few : rs.length < 2 ^ 53) {op : Operation}
    {host : ServerHost} {msg : JsString} {payload : Json}
    (performs : op.performs host msg (serveAll rs).2 = .ok payload) : payload.IsFinite := by
  have summary := summarizes rs
  -- the counters are numbers of requests, so they are exact where there are few
  cases op with
  | handleSayHello =>
    simp only [Operation.performs, bind_ok, pure_ok] at performs
    obtain ⟨name, -, rfl⟩ := performs
    exact obj_finite ⟨.str _,
      count_finite summary.greetings ((List.length_filterMap_le _ _).trans_lt few)⟩
  | handleSayGoodbye =>
    simp only [Operation.performs, bind_ok, pure_ok, Prod.exists] at performs
    obtain ⟨name, reason, -, rfl⟩ := performs
    exact obj_finite ⟨.str _,
      count_finite summary.farewells ((List.length_filterMap_le _ _).trans_lt few)⟩
  | handleMirrorMatchStageB =>
    simp only [Operation.performs, bind_ok, pure_ok] at performs
    obtain ⟨a, accepted, rfl⟩ := performs
    exact matchStageB_finite accepted
  | handleMirrorTopUpV1 =>
    simp only [Operation.performs, bind_ok, pure_ok] at performs
    obtain ⟨t, -, rfl⟩ := performs
    exact obj_finite ⟨.str _, .str _, .str _, .str _, .str _, .str _, .str _⟩

/-! ### What the sender receives -/

/-- A result as its sender reads it. -/
structure Received where
  id : JsString
  submissionTag : JsString
  status : Number
  log : JsString
  opType : JsString
  opCommand : JsString
  payload : Option Json

def textAt (v : Json) (key : String) : Option JsString := (v.get (text key)).bind Json.asString

def receive (wire : List Byte) : Option Received := do
  let v ← Json.parse (utf8Decode wire)
  let id ← textAt v "id"
  let submissionTag ← textAt v "submissionTag"
  let status ← (v.get (text "status")).bind Json.asNumber
  let log ← textAt v "log"
  let opType ← textAt v "opType"
  let opCommand ← textAt v "opCommand"
  let data ← textAt v "data"
  let bytes ← (hexToBytes data).toOption
  return ⟨id, submissionTag, status, log, opType, opCommand, Json.parse (utf8Decode bytes)⟩

/-- The result of an instruction. -/
def Instruction.received (i : Instruction) (r : HandlerResult) (payload : Option Json) :
    Received :=
  ⟨i.actionId, i.submissionTag, .ofRat r.status, resultLog r, identifier i.opType,
    identifier i.opCommand, payload⟩

section

variable {i : Instruction} {body : List Byte} {data df : Json}

/-- Where the status is small and the data is hex, everything arrives. -/
theorem receive_result (carries : i.Carries body data df) {r : HandlerResult}
    (status : r.status ≤ 2 ^ 53) {bytes : List Byte}
    (hex : hexToBytes (r.data.getD (text "0x")) = .ok bytes) :
    receive (utf8Encode (actionResult data df r).stringify) =
      some (i.received r (Json.parse (utf8Decode bytes))) := by
  -- the keys in the order in which the server writes them
  have same : actionResult data df r = .obj [(text "id", .str i.actionId),
      (text "submissionTag", .str i.submissionTag), (text "status", natJson r.status),
      (text "log", .str (resultLog r)), (text "opType", .str (identifier i.opType)),
      (text "opCommand", .str (identifier i.opCommand)),
      (text "additionalResultStatus", .str (text "0x")), (text "version", .str version),
      (text "data", .str (r.data.getD (text "0x")))] := by
    rw [actionResult, carries.id, carries.submissionTag, carries.fixes.opType,
      carries.fixes.opCommand]
    rfl
  -- what is finite is read back as it was written
  have finite : (actionResult data df r).IsFinite := by
    rw [same]
    exact obj_finite ⟨.str _, .str _, natJson_finite status, .str _, .str _, .str _, .str _, .str _,
      .str _⟩
  have id : textAt (actionResult data df r) "id" = some i.actionId := by rw [same]; rfl
  have tag : textAt (actionResult data df r) "submissionTag" = some i.submissionTag := by
    rw [same]; rfl
  have code : ((actionResult data df r).get (text "status")).bind Json.asNumber =
      some (.ofRat r.status) := by rw [same]; rfl
  have log : textAt (actionResult data df r) "log" = some (resultLog r) := by rw [same]; rfl
  have type : textAt (actionResult data df r) "opType" = some (identifier i.opType) := by
    rw [same]; rfl
  have command : textAt (actionResult data df r) "opCommand" = some (identifier i.opCommand) := by
    rw [same]; rfl
  have payload : textAt (actionResult data df r) "data" = some (r.data.getD (text "0x")) := by
    rw [same]; rfl
  simp only [receive, parse_utf8 finite, id, tag, code, log, type, command, payload, hex,
    Option.bind_eq_bind, Option.bind_some, Except.toOption]
  rfl

/-- The line that is logged has the text of the id, so the result is sent. -/
theorem finishAction_carried (carries : i.Carries body data df) (r : HandlerResult) :
    finishAction data df (.ok r) = .ok ⟨200, .json (actionResult data df r)⟩ := by
  rw [finishAction, if_pos]
  rw [carries.id]
  rfl

end

/-- The request posts the instruction, as the node does. -/
structure IncomingMessage.Posts (r : IncomingMessage) (i : Instruction) : Prop where
  path : cleanPath r.url = text "/action"
  post : r.method = text "POST"
  body : ∃ body data df, r.body = some body ∧ i.Carries body data df

theorem registered : Framework.handleAll ⟨[]⟩ registrations = some engineFramework :=
  Framework.handleAll_some.mpr ⟨by decide, rfl⟩

theorem registrations_proper : ∀ n ∈ registrations, Proper n.1 ∧ Proper n.2.1 := by
  have each : ∀ name ∈ [text "GREETING", text "SAY_HELLO", text "SAY_GOODBYE", text "MIRROR",
      text "MATCH_V1", text "TOPUP_V1"], Proper name := by
    intro name member
    -- no name of the engine has a character beyond ASCII
    have ascii : name.all (fun c => decide (c.val < 0x80)) = true := by
      revert name
      decide
    refine ⟨?_, wellFormed_of_all ascii, ?_⟩
    · revert name
      decide
    · revert name
      decide
  intro n member
  simp only [registrations, List.mem_cons, List.not_mem_nil, or_false] at member
  rcases member with rfl | rfl | rfl | rfl <;> exact ⟨each _ (by decide), each _ (by decide)⟩

theorem lookupFixed_dispatch {host : ServerHost} {i : Instruction} {df : Json}
    (fixes : i.Fixes df) (properType : Proper i.opType) (properCommand : Proper i.opCommand)
    (ascii : ∀ s, (∀ c ∈ s, c.val < 0x80) → host.toLowerCase s = lower s) :
    lookupFixed host df = .ok (dispatch registrations i.opType i.opCommand) := by
  have names : ∀ name, Identifies (.str (identifier name)) (bytes32 name) := fun name =>
    .hex (identifier_ne_nil name) (hexToBytes_bytesToHex _)
  have command : (defined df (text "opCommand")).getD (.str []) =
      .str (identifier i.opCommand) := by
    rw [defined, fixes.opCommand]
    rfl
  rw [lookupFixed, fixes.opType, command, Option.getD_some]
  exact lookup_names registered registrations_proper ascii properType properCommand
    (names i.opType) (names i.opCommand)

/-- The sender of the instruction receives what its handler has made of it. -/
def Instruction.Receives (i : Instruction) (a : Answer) : Body Json → Prop
  | .error (.thrown e) => a = .error e
  | .error (.returned message) => ∃ payload, a = .ok ⟨200, payload⟩ ∧
    receive (utf8Encode payload.body) = some (i.received (refusal message) none)
  | .ok v => ∃ payload, a = .ok ⟨200, payload⟩ ∧
    receive (utf8Encode payload.body) = some (i.received (success v) (some v))

/-- What becomes of an instruction: the names of its type and command alone decide who handles it,
the handler has the bytes of the message as they were sent, and the sender receives the payload
that the handler made, or the message of its refusal. -/
theorem instruction_round_trip (turns : List Server.Turn) {k : ℕ} {r : IncomingMessage} {a : Answer}
    {i : Instruction} (few : (Server.taken turns).length ≤ 2 ^ 53)
    (here : (Server.taken turns)[k]? = some r) (got : (Server.after turns).answer k = some a)
    (posts : r.Posts i) (properType : Proper i.opType) (properCommand : Proper i.opCommand)
    (ascii : ∀ s, (∀ c ∈ s, c.val < 0x80) → r.host.toLowerCase s = lower s) :
    decodeHex (bytesToHex i.original) = .ok i.original ∧
    match dispatch registrations i.opType i.opCommand with
    | none => a = .ok ⟨501, .text (text "unsupported op type")⟩
    | some op => i.Receives a (op.performs r.host (bytesToHex i.original)
        (serveAll ((Server.taken turns).take k)).2) := by
  refine ⟨decodeHex_ok.mpr (hexToBytes_bytesToHex _), ?_⟩
  obtain ⟨body, data, df, arrives, carries⟩ := posts.body
  have read := carries.read r.host
  have found := lookupFixed_dispatch carries.fixes properType properCommand ascii
  -- an action is no reading of the log, so it is answered as if it were alone
  have unread : ¬r.MayRead := fun log => absurd (posts.path.symm.trans log.path) (by decide)
  have alone := answer_alone here unread got
  have reached : r.operation = (dispatch registrations i.opType i.opCommand).map
      fun op => (op, data, df) := by
    rw [IncomingMessage.operation, if_pos ⟨posts.path, posts.post⟩, arrives, Option.bind_some,
      actionOperation, read]
    simp only [found]
    cases dispatch registrations i.opType i.opCommand <;> rfl
  -- a name that nobody has registered is refused before the queue
  cases handler : dispatch registrations i.opType i.opCommand with
  | none =>
    have refused : Server.route r (serveAll ((Server.taken turns).take k)).2 =
        .inl (.ok ⟨501, .text (text "unsupported op type")⟩) := by
      rw [handler] at found
      simp only [Server.route, serve_action posts.path posts.post arrives, processAction, read,
        found, bind, Except.bind, returning]
    rw [alone, Desk.serveAlone_answered refused]
  | some op =>
    change i.Receives a _
    rw [handler, Option.map_some] at reached
    have original : originalMessage df = .str (bytesToHex i.original) := by
      rw [originalMessage, defined, carries.fixes.originalMessage]
      rfl
    rw [serveAlone_operation reached, original, handler_performs] at alone
    have few' : ((Server.taken turns).take k).length < 2 ^ 53 := by
      have inside := (List.getElem?_eq_some_iff.mp here).1
      rw [List.length_take]
      omega
    cases performs : op.performs r.host (bytesToHex i.original)
        (serveAll ((Server.taken turns).take k)).2 with
    | ok v =>
      rw [performs] at alone
      refine ⟨_, alone.trans (finishAction_carried carries (success v)), ?_⟩
      have received := receive_result (r := success v) carries Nat.one_le_two_pow
        (hexToBytes_bytesToHex _)
      rw [parse_utf8 (performs_finite few' performs)] at received
      exact received
    -- what is thrown is what becomes of the request; a refusal has no data to read
    | error e =>
      rw [performs] at alone
      cases e with
      | thrown e => exact alone
      | returned message =>
        refine ⟨_, alone.trans (finishAction_carried carries (refusal message)), ?_⟩
        have nothing : hexToBytes ((refusal message).data.getD (text "0x")) = .ok [] := rfl
        exact receive_result carries (Nat.zero_le _) nothing

namespace Sample

def greet : Instruction where
  opType := text "GREETING"
  opCommand := text "SAY_HELLO"
  original := utf8Encode (text "\x7b\"name\":\"Bob\"\x7d")
  actionId := text "0x01"
  submissionTag := text "threshold"

def node : NodeFields where
  instructionId := .str (text "0x01")
  teeId := .str (bytesToHex (List.replicate 20 0x22))
  timestamp := natJson 1700000000
  rewardEpochId := natJson 42
  cosigners := .arr []
  cosignersThreshold := natJson 0
  additionalFixedMessage := .str (text "0x")
  type := .str (text "instruction")
  additionalVariableMessages := .arr []
  timestamps := .arr []
  additionalActionData := .str (text "0x")
  signatures := .arr []

theorem node_finite : node.IsFinite :=
  ⟨.str _, .str _, natJson_finite (by norm_num), natJson_finite (by norm_num),
    .arr (List.forall_mem_nil _), natJson_finite (by norm_num), .str _, .str _,
    .arr (List.forall_mem_nil _), .arr (List.forall_mem_nil _), .str _,
    .arr (List.forall_mem_nil _)⟩

/-- The request that posts it. -/
def posted : IncomingMessage :=
  ⟨engine, text "POST", text "/action", none, (greet.buildAction node).map utf8Encode⟩

/-- It is taken in one turn and handled in the next. -/
def posting : List Server.Turn := [[.request posted], [.advance 0]]

end Sample

/-- What comes back of a greeting. -/
theorem instruction_round_trip_greet :
    ∃ a, (Server.after Sample.posting).answer 0 = some a ∧
      Sample.greet.Receives a (Operation.handleSayHello.performs Sample.engine
        (bytesToHex Sample.greet.original) .initial) := by
  obtain ⟨a, got⟩ : ∃ a, (Server.after Sample.posting).answer 0 = some a :=
    Option.isSome_iff_exists.mp (by decide +kernel)
  obtain ⟨body, built⟩ : ∃ body, Sample.greet.buildAction Sample.node = some body :=
    Option.isSome_iff_exists.mp (by decide +kernel)
  obtain ⟨data, df, carries⟩ := carries_buildAction Sample.node_finite built
  have posts : Sample.posted.Posts Sample.greet :=
    ⟨by decide, rfl, _, data, df, by rw [Sample.posted, built]; rfl, carries⟩
  have proper := registrations_proper (text "GREETING", text "SAY_HELLO", .handleSayHello)
    List.mem_cons_self
  have dispatched : dispatch registrations Sample.greet.opType Sample.greet.opCommand =
      some .handleSayHello := by decide +kernel
  have taken : Server.taken Sample.posting = [Sample.posted] := taken_eq (by decide +kernel)
  have few : (Server.taken Sample.posting).length ≤ 2 ^ 53 := by
    rw [taken]
    decide
  have here : (Server.taken Sample.posting)[0]? = some Sample.posted := by
    rw [taken]
    rfl
  have trip := (instruction_round_trip Sample.posting few here got posts proper.1 proper.2
    (fun s _ => rfl)).2
  rw [dispatched] at trip
  exact ⟨a, got, trip⟩

end Mirror
