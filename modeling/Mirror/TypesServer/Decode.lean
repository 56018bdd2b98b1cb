import Mirror.Engine.Encoding

/-!
The types server, which shows the shape of a decode request: who it is for and what is asked, and
of the original message its length and its first bytes.
-/
namespace Mirror.TypesServer

open Js

/-- What `decodeShape` throws: an `Error` with this message, or what `JSON.parse` throws. -/
inductive DecodeError
  | error (message : JsString)
  | syntaxError
  deriving DecidableEq

/-- `Buffer.from(s, "hex")`, which ends before the first pair that is no byte. -/
def bufferFromHex : JsString → List Byte
  | hi :: lo :: rest =>
    if isDigit 16 hi && isDigit 16 lo then
      Fin.ofNat _ (digitsValue 16 [hi, lo]) :: bufferFromHex rest
    else []
  | _ => []

def hexToBytes (hex : JsString) : Except DecodeError (List Byte) :=
  let normalized := if startsWith hex (text "0x") then hex.drop 2 else hex
  if normalized.length % 2 ≠ 0 then .error (.error (text "hex must have even length"))
  else .ok (bufferFromHex normalized)

/-- `bytes32HexToString(hex)`. The padding of a `bytes32` is zeros at its end. -/
def bytes32HexToString (hex : JsString) : Except DecodeError JsString := do
  let b ← hexToBytes hex
  return utf8Decode (b.reverse.dropWhile fun x => x = 0).reverse

def decodeDataFixedFromActionMessage (actionMessageHex : JsString) : Except DecodeError Json := do
  let bytes ← hexToBytes actionMessageHex
  match Json.parse (utf8Decode bytes) with
  | some df => return df
  | none => .error .syntaxError

def safeJsonParseBytes (bytes : List Byte) : Json := (Json.parse (utf8Decode bytes)).getD .null

/-- The part of a decoded shape that is about the original message. -/
structure MessageShape where
  bytes : ℕ
  hexPrefix : Option JsString

/-- What `decodeShape` returns. -/
structure DecodedShape where
  instructionId : Json
  teeId : Json
  timestamp : Json
  rewardEpochId : Json
  opType : Option JsString
  opCommand : Option JsString
  originalMessage : MessageShape
  greetingName : Option JsString

/-- `payload?.message ?? payload?.data?.message ?? payload?.action?.data?.message`. -/
def actionMessage (payload : Json) : Option Json :=
  let data := payload.get (text "data")
  let actionData := (payload.get (text "action")).bind fun action => action.get (text "data")
  (defined payload (text "message")).or
    ((data.bind fun data => defined data (text "message")).or
      (actionData.bind fun data => data.get (text "message")))

/-- The text of a `bytes32` where the field is a string, and `null` where it is not. -/
def bytes32Field (df : Json) (key : JsString) : Except DecodeError (Option JsString) :=
  match (df.get key).bind Json.asString with
  | some hex => (bytes32HexToString hex).map some
  | none => .ok none

/-- `df?.originalMessage ?? "0x"`. -/
def originalMessageHex (df : Json) : Json :=
  (defined df (text "originalMessage")).getD (.str (text "0x"))

/-- The length in bytes where the message is a string, and 0 where it is not. -/
def messageBytes (message : Json) : Except DecodeError ℕ :=
  match message.asString with
  | some hex => (hexToBytes hex).map List.length
  | none => .ok 0

/-- The name that is greeted. The message of a greeting is no secret. -/
def greeted (message : Json) : Except DecodeError (Option JsString) :=
  match message.asString with
  | some hex => do
    let bytes ← hexToBytes hex
    let parsed := safeJsonParseBytes bytes
    return if parsed.isTruthy then (parsed.get (text "name")).bind Json.asString else none
  | none => .ok none

/-- The rest of `decodeShape`, once the request's `DataFixed` is read. -/
def shapeOf (df : Json) : Except DecodeError DecodedShape := do
  let opType ← bytes32Field df (text "opType")
  let opCommand ← bytes32Field df (text "opCommand")
  let message := originalMessageHex df
  let bytes ← messageBytes message
  let greetingName ←
    (if opType = some (text "GREETING") ∧ opCommand = some (text "SAY_HELLO") then greeted message
    else pure none)
  return {
    instructionId := (df.get (text "instructionId")).getD .null
    teeId := (df.get (text "teeId")).getD .null
    timestamp := (df.get (text "timestamp")).getD .null
    rewardEpochId := (df.get (text "rewardEpochId")).getD .null
    opType
    opCommand
    originalMessage := ⟨bytes, message.asString.map fun hex => hex.take 18⟩
    -- an empty name is left out like none
    greetingName := truthy greetingName }

def decodeShape (payload : Json) : Except DecodeError DecodedShape :=
  match (actionMessage payload).bind Json.asString with
  | some actionMessageHex =>
    if startsWith actionMessageHex (text "0x") then do
      let df ← decodeDataFixedFromActionMessage actionMessageHex
      shapeOf df
    else .error (.error (text "missing action.data.message hex (expected 0x...)"))
  | none => .error (.error (text "missing action.data.message hex (expected 0x...)"))

end Mirror.TypesServer
