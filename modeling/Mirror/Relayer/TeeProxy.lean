import Mirror.Js.Json

/-!
The proxy in front of the matching engine. It looks through what it passes on, in both directions,
for text that only a signal in plaintext would have.
-/
namespace Mirror.Relayer

open Js

def PLAINTEXT_MARKERS : List JsString :=
  [text "\"direction\":", text "\"sizePct\":", text "\"asset\":\"FXRP\"",
    text "\"asset\":\"USDT0\""]

/-- `assertNoPlaintextDump(label, text)`, with the message of the error that it throws. -/
def assertNoPlaintextDump (label body : JsString) : Except JsString Unit :=
  match PLAINTEXT_MARKERS.find? fun m => includes body m with
  | some m =>
    .error (label ++ text ": refused — body looks like plaintext signal JSON (" ++ m ++ text ")")
  | none => .ok ()

/-- `UPSTREAM` and `TOKEN`. -/
structure TeeProxy where
  upstream : JsString
  token : JsString

/-- The proxy under these settings. One slash at the end of the endpoint is dropped. -/
def TeeProxy.configured (matchingEngineEndpoint teeProxyToken : Option JsString) : TeeProxy where
  upstream :=
    let endpoint := matchingEngineEndpoint.getD (text "http://127.0.0.1:8101")
    if endpoint.getLast? = some 0x2F then endpoint.dropLast else endpoint
  token := trim (teeProxyToken.getD [])

/-- A request, with the path that its URL has, unless that is no URL. -/
structure ProxyRequest where
  method : JsString
  pathname : Option JsString
  authorization : Option JsString
  body : List Byte

/-- What is sent to the matching engine. -/
structure Forwarded where
  url : JsString
  method : JsString
  contentType : Option JsString
  body : Option JsString
  deriving DecidableEq

structure ProxyResponse where
  status : ℕ
  contentType : JsString
  body : JsString
  deriving DecidableEq

/-- What the handler has sent to the matching engine, and its response. -/
structure Handled where
  forwarded : List Forwarded
  response : ProxyResponse
  deriving DecidableEq

def jsonResponse (status : ℕ) (v : Json) : ProxyResponse :=
  ⟨status, text "application/json", v.stringify⟩

/-- The response to an error that was caught. -/
def failure (msg : JsString) : ProxyResponse := jsonResponse 500 (.obj [(text "error", .str msg)])

namespace TeeProxy

variable (proxy : TeeProxy)

def authOk (req : ProxyRequest) : Bool :=
  -- without a token everybody is let in
  proxy.token = [] || req.authorization.getD [] = text "Bearer " ++ proxy.token

variable (fetch : Forwarded → Except JsString ProxyResponse)

/-- `POST /action` of a body. -/
def postAction (body : JsString) : Handled :=
  match assertNoPlaintextDump (text "proxy inbound") body with
  | .error msg => ⟨[], failure msg⟩
  | .ok () =>
    let sent : Forwarded := ⟨proxy.upstream ++ text "/action", text "POST",
      some (text "application/json"), some body⟩
    match fetch sent with
    | .error msg => ⟨[sent], failure msg⟩
    | .ok up =>
      match assertNoPlaintextDump (text "proxy upstream") up.body with
      | .error msg => ⟨[sent], failure msg⟩
      | .ok () => ⟨[sent], up⟩

/-- `GET /state`, whose answer is passed on unseen. -/
def getState : Handled :=
  let sent : Forwarded := ⟨proxy.upstream ++ text "/state", text "GET", none, none⟩
  match fetch sent with
  | .error msg => ⟨[sent], failure msg⟩
  | .ok up => ⟨[sent], up⟩

def handler (req : ProxyRequest) : Handled :=
  match req.pathname with
  | none => ⟨[], failure (text "Invalid URL")⟩
  | some pathname =>
    -- asked without authorization
    if pathname = text "/health" then
      ⟨[], jsonResponse 200
        (.obj [(text "ok", .bool true), (text "upstream", .str proxy.upstream)])⟩
    else if !proxy.authOk req then
      ⟨[], jsonResponse 401 (.obj [(text "error", .str (text "unauthorized"))])⟩
    else if pathname = text "/action" ∧ req.method = text "POST" then
      proxy.postAction fetch (utf8Decode req.body)
    else if pathname = text "/state" ∧ req.method = text "GET" then proxy.getState fetch
    else
      ⟨[], jsonResponse 404 (.obj [(text "error", .str (text "not found")),
        (text "paths", .arr [.str (text "/health"), .str (text "/action"), .str (text "/state")])])⟩

end TeeProxy

end Mirror.Relayer
