import Mirror.Engine.Handlers
import Mirror.Js.Base64

/-! The client of the TEE node, to which a handler hands what is encrypted. -/
namespace Mirror

open Js

/-- What a request to the node comes to. One that takes longer than the client waits is aborted. -/
inductive Fetched
  | aborted
  | failed (message : JsString)
  | response (status : ℕ) (body : List Byte)

/-- What the client finds: what comes back of a body that is posted to a URL, the message of a
`SyntaxError`, and `Buffer.from(v, "base64")` of what is no base64 text. -/
structure NodeHost where
  fetch : JsString → JsString → Fetched
  syntaxErrorMessage : JsString → JsString
  bufferFrom : Json → Except JsString (List Byte)

structure NodeClient where
  signPort : Number
  timeoutMs : ℕ

namespace NodeClient

/-- `new NodeClient(signPort)`. -/
def new (signPort : JsString) : NodeClient := ⟨numberOfText signPort, 30000⟩

def baseUrl (client : NodeClient) : JsString :=
  text "http://localhost:" ++ client.signPort.toText

/-- The text of a body, which may begin with a byte order mark. -/
def bodyText : List Byte → JsString
  | 0xEF :: 0xBB :: 0xBF :: rest => utf8Decode rest
  | body => utf8Decode body

/-- `Buffer.from(v, "base64")`, or the message of its error. -/
def fromBase64 (net : NodeHost) (v : Json) : Except JsString (List Byte) :=
  match v.asString.bind base64Decode with
  | some bytes => .ok bytes
  | none => net.bufferFrom v

/-- `post(path, payload)`, or the message of its error. -/
def post (client : NodeClient) (net : NodeHost) (path : JsString) (payload : Json) :
    Except JsString Json :=
  match net.fetch (client.baseUrl ++ path) payload.stringify with
  | .aborted =>
    .error (text "node request to " ++ path ++ text " timed out after " ++
      decimal client.timeoutMs ++ text "ms")
  | .failed message => .error message
  | .response status body =>
    if status < 200 ∨ 300 ≤ status then
      .error (text "node returned " ++ decimal status ++ text " for " ++ path ++ text ": " ++
        bodyText body)
    else
      match Json.parse (bodyText body) with
      | some v => .ok v
      | none => .error (net.syntaxErrorMessage (bodyText body))

/-- `decrypt(ciphertext)`, or the message of its error. -/
def decrypt (client : NodeClient) (net : NodeHost) (ciphertext : List Byte) :
    Except JsString (List Byte) := do
  let resp ← client.post net (text "/decrypt")
    (.obj [(text "encryptedMessage", .str (base64Encode ciphertext))])
  if resp.isNull then
    .error (text "Cannot read properties of null (reading 'decryptedMessage')")
  else
    match resp.get (text "decryptedMessage") with
    | some encoded => fromBase64 net encoded
    | none => .error (text "node response missing decryptedMessage")

end NodeClient

/-- The client that a handler makes. -/
def Host.nodeClient (host : Host) : NodeClient :=
  .new (host.env.signPort.getD (text "9091"))

/-- A host whose messages are decrypted by the node. -/
def Host.withNode (host : Host) (net : NodeHost) : Host :=
  { host with decrypt := host.nodeClient.decrypt net }

end Mirror
