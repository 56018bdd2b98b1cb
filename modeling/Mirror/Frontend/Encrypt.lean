import Mirror.Engine.Server
import Mirror.Js.Base64

/-! What the signal page encrypts for the TEE. -/
namespace Mirror.Frontend

open Js

structure SignalPayload where
  asset : JsString
  direction : Direction
  sizePct : Number
  nonce : JsString
  recipient : JsString

def SignalPayload.toJson (p : SignalPayload) : Json :=
  .obj [(text "asset", .str p.asset), (text "direction", directionJson p.direction),
    (text "sizePct", .num p.sizePct), (text "nonce", .str p.nonce),
    (text "recipient", .str p.recipient)]

/-- RSA-OAEP as `crypto.subtle` has it: a key from its bytes, and what a key makes of a message,
given what is random. -/
structure Subtle (Key Random : Type) where
  importKey : List Byte → Option Key
  encrypt : Random → Key → List Byte → Option (List Byte)

inductive EncryptError
  | error (message : JsString)
  | invalidCharacter
  | rejected
  deriving DecidableEq

def b64ToBuf (b64 : JsString) : Option (List Byte) :=
  base64Decode (b64.filter fun c => !isSpace c)

/-- `encryptSignal(payload, pubKeyB64)`. -/
def encryptSignal {Key Random : Type} (subtle : Subtle Key Random) (random : Random)
    (payload : SignalPayload) (pubKeyB64 : JsString) : Except EncryptError JsString :=
  if pubKeyB64 = [] then
    .error (.error (text ("TEE encrypt public key missing. " ++
      "Set NEXT_PUBLIC_TEE_ENCRYPT_PUBKEY.")))
  else
    match b64ToBuf pubKeyB64 with
    | none => .error .invalidCharacter
    | some der =>
      let plaintext := utf8Encode payload.toJson.stringify
      match (subtle.importKey der).bind fun key => subtle.encrypt random key plaintext with
      | none => .error .rejected
      | some cipher => .ok (text "0x" ++ cipher.flatMap hexByte)

end Mirror.Frontend
