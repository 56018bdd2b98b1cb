import Mirror.Engine.Encoding

/-! The handlers of the matching engine: `MATCH_V1` on its two paths and `TOPUP_V1`. -/
namespace Mirror

open Evm hiding Byte
open Js Completion

/-- The variables of `process.env` that the handlers read. -/
structure Environment where
  fcePlaintextDecryptFallback : Option JsString
  signPort : Option JsString
  executionVenue : Option JsString
  mirrorMockVenues : Option JsString
  flareRpcUrl : Option JsString
  c2FxrpAddress : Option JsString
  c2Usdt0Address : Option JsString
  blazeswapRouterAddress : Option JsString
  mockSparkdexRouterAddress : Option JsString
  mockEnosysCdpAddress : Option JsString
  mockFirelightStrategyAddress : Option JsString
  mockKineticPoolAddress : Option JsString

abbrev Bytes21 := Fin (2 ^ 168)

/-- The chain as it answers `readContract` within one request; `none` is a failed read. -/
structure Rpc where
  getContractAddressByName : JsString → Option Address
  getFeedByIdInWei : Address → Bytes21 → Option (Uint256 × Uint64)
  fAsset : Address → Option Address

/-- A reading of `Date.now()`. No date lies further from the epoch. -/
abbrev Clock := Fin (8640000000000000 + 1)

/-- What a request finds outside the handlers: settings, the TEE node's answer to `decrypt`, the
chain, the clock at each reading, and what the language and its libraries leave to tables:
lower case, the checksum form of an address and the text of a `SyntaxError`. -/
structure Host where
  env : Environment
  decrypt : List Byte → Except JsString (List Byte)
  rpc : Rpc
  now : ℕ → Clock
  toLowerCase : JsString → JsString
  checksumAddress : Address → JsString
  syntaxErrorText : JsString → JsString

/-- `Math.floor(Date.now() / 1000)`. -/
def Host.seconds (host : Host) (reading : ℕ) : ℕ := (host.now reading).val / 1000

/-- One instruction of a result. The mock venues leave `fee` out. -/
structure Build where
  /-- The field `to`. -/
  target : Address
  data : List Byte
  venue : JsString
  fee : Option ℕ
  recipient : Address
  amountIn : ℤ
  deriving DecidableEq

/-- What an accepted signal yields. -/
structure Accepted where
  builds : List Build
  payload : Json
  outcome : OutcomeRecord

def natJson (n : ℕ) : Json := .num (.ofRat n)

/-- An instruction as it stands in a fan-out. -/
def Build.toJson (host : Host) (b : Build) : Json :=
  .obj ([(text "to", .str (host.checksumAddress b.target)), (text "data", .str (bytesToHex b.data)),
      (text "venue", .str b.venue)] ++ (b.fee.map fun fee => (text "fee", natJson fee)).toList ++
    [(text "recipient", .str (host.checksumAddress b.recipient)),
      (text "amountIn", .str (bigIntText b.amountIn))])

/-- The payload: a single instruction, or the list of them. -/
def payload (host : Host) (builds : List Build) (venue : JsString) : Json :=
  match builds with
  | [b] =>
    .obj [(text "to", .str (host.checksumAddress b.target)),
      (text "data", .str (bytesToHex b.data)), (text "venue", .str b.venue),
      (text "fee", natJson (b.fee.getD 0))]
  | builds =>
    .obj [(text "fanOut", .bool true), (text "instructions", .arr (builds.map (Build.toJson host))),
      (text "venue", .str venue)]

/-- `bytesToHex(Buffer.from(JSON.stringify(payload), "utf-8"))`. -/
def payloadHex (payload : Json) : JsString := bytesToHex (utf8Encode payload.stringify)

def Accepted.result (a : Accepted) : HandlerResult := ⟨some (payloadHex a.payload), 1, none⟩

/-- The lead that is named, or else who the first instruction is for. -/
def leadAddr (host : Host) (parsed : Json) (first : Build) : JsString :=
  match (parsed.get (text "lead")).bind Json.asString with
  | some lead =>
    if startsWith lead (text "0x") then lead else host.checksumAddress first.recipient
  | none => host.checksumAddress first.recipient

/-! ### Signals -/

/-- `safeJsonParse(buf)`. -/
def safeJsonParse (bytes : List Byte) : Json := (Json.parse (utf8Decode bytes)).getD .null

section Signal

variable (host : Host)

/-- Steps 0 and 1: the bytes of the message, decrypted where that is possible. -/
def decryptMessage (msg : JsString) : Body (List Byte) := do
  let ciphertext ← decodeHex msg
  let allowPlaintextFallback := host.env.fcePlaintextDecryptFallback = some (text "1")
  if host.env.signPort.isSome then
    match host.decrypt ciphertext with
    | .ok plaintext => return plaintext
    | .error e =>
      if allowPlaintextFallback then return ciphertext
      else returning (text "decrypt failed (and fallback disabled): " ++ e)
  else if allowPlaintextFallback then return ciphertext
  else returning (text "decrypt unavailable (no SIGN_PORT) and fallback disabled")

def readSignal (msg : JsString) : Body Json := do
  let plaintext ← decryptMessage host msg
  let parsed := safeJsonParse plaintext
  returnIf (¬parsed.isObject) (text "decrypted payload: expected JSON object")
  return parsed

/-- `String(parsed.venue ?? parsed.strategyKind ?? process.env.EXECUTION_VENUE ?? ..)` in lower
case. -/
def venueHint (parsed : Json) : Body JsString :=
  match (defined parsed (text "venue")).or (defined parsed (text "strategyKind")) with
  | some v => do
    let s ← orThrow v.toText .typeError
    return host.toLowerCase s
  | none => return host.toLowerCase (host.env.executionVenue.getD (text "mock-sparkdex"))

/-- `typeof sizePct === "number" && Number.isFinite(sizePct) && sizePct > 0`, with the number. -/
def sizeOf (parsed : Json) : Option Number :=
  ((parsed.get (text "sizePct")).bind Json.asNumber).filter fun x => x.isFinite && !x.le (.ofRat 0)

/-- `parsed.followers`, if it is an array with elements. -/
def followersOf (parsed : Json) : Option (List Json) :=
  ((parsed.get (text "followers")).bind Json.asArray).filter fun fs => !fs.isEmpty

/-- `(cap * BigInt(Math.trunc(sizePct))) / 10_000n`. -/
def baseNotional (cap : ℤ) (sizePct : Number) : Body ℤ := do
  let sizePctBps ← orThrow sizePct.trunc.toBigInt .rangeError
  return (cap * sizePctBps).tdiv 10000

/-- `(base * BigInt(Math.trunc(allocationBps))) / 10_000n`. -/
def followerNotional (base : ℤ) (allocationBps : Number) : Body ℤ := do
  let allocBps ← orThrow allocationBps.trunc.toBigInt .rangeError
  return (base * allocBps).tdiv 10000

/-! ### The swap path -/

structure FollowerAlloc where
  address : JsString
  allocationBps : Number
  deriving DecidableEq

/-- One entry of `followers` that passes validation. -/
def checkFollower (f : Json) : Body FollowerAlloc :=
  -- `f.address` of `null` throws; of a number or a text it is undefined, and refused
  if f.isNull then throwing .typeError
  else do
    let address ← orReturn (addressText (f.get (text "address")))
      (text "followers[].address must be a 20-byte hex address")
    let allocationBps ← orReturn
      (((f.get (text "allocationBps")).bind Json.asNumber).filter fun x => !x.le (.ofRat 0))
      (text "followers[].allocationBps must be positive")
    return ⟨address, allocationBps⟩

/-- Those who trade: the followers, or the recipient with everything. -/
def checkFollowers (parsed : Json) : Body (List FollowerAlloc) :=
  match followersOf parsed with
  | some followers => followers.mapM checkFollower
  | none => do
    let recipient ← orReturn (addressText (parsed.get (text "recipient")))
      (text "signal.recipient must be a 20-byte hex address string")
    return [⟨recipient, .ofRat 10000⟩]

def fxrpUsdFeedId : Bytes21 := 0x015852502f55534400000000000000000000000000
def usdt0UsdFeedId : Bytes21 := 0x01555344542f555344000000000000000000000000

/-- Both spot prices, which must not be zero. -/
def readPrices : Body (Uint256 × Uint256) := do
  let ftsoV2 ← orThrow (host.rpc.getContractAddressByName (text "FtsoV2")) .readContractFailed
  let (fxrpUsd, _) ← orThrow (host.rpc.getFeedByIdInWei ftsoV2 fxrpUsdFeedId) .readContractFailed
  let (usdt0Usd, _) ← orThrow (host.rpc.getFeedByIdInWei ftsoV2 usdt0UsdFeedId) .readContractFailed
  returnIf (fxrpUsd = 0 ∨ usdt0Usd = 0) (text "ftso returned zero price")
  return (fxrpUsd, usdt0Usd)

/-- A token's address: as configured, or as its asset manager names it. -/
def tokenAddress (configured : Option JsString) (manager : JsString) : Body Address :=
  match configured.filter fun s => startsWith s (text "0x") with
  | some s => orThrow (getAddress s) .invalidAddress
  | none => do
    let assetManager ← orThrow (host.rpc.getContractAddressByName manager) .readContractFailed
    orThrow (host.rpc.fAsset assetManager) .readContractFailed

/-- What is sold for what, and at which prices. -/
structure Pair where
  tokenIn : Address
  tokenOut : Address
  priceIn : Uint256
  priceOut : Uint256

/-- `((notional * priceIn) / priceOut) * 9900n / 10_000n`. -/
def Pair.amountOutMinimum (pair : Pair) (notional : ℤ) : ℤ :=
  (((notional * pair.priceIn.val).tdiv pair.priceOut.val) * 9900).tdiv 10000

/-- The arguments of one swap, on either venue. -/
structure SwapArgs where
  pair : Pair
  recipient : Address
  deadline : ℕ
  amountIn : ℤ
  amountOutMinimum : ℤ

/-- `swapExactTokensForTokens` on the V2 router. -/
def blazeswapCall (a : SwapArgs) : Body (Address × List Byte) := do
  let router ← orReturn (truthy host.env.blazeswapRouterAddress)
    (text "missing BLAZESWAP_ROUTER_ADDRESS")
  let target ← orThrow (getAddress router) .invalidAddress
  -- `path` is a dynamic array: its offset stands in the head, its elements after it
  let data ← orThrow (encodeFunctionData 0x38ed1739
    [a.amountIn, a.amountOutMinimum, 160, a.recipient.val, a.deadline, 2, a.pair.tokenIn.val,
      a.pair.tokenOut.val]) .integerOutOfRange
  return (target, data)

/-- `exactInputSingle` on the V3 router. -/
def sparkdexCall (a : SwapArgs) : Body (Address × List Byte) := do
  let router ← orReturn (truthy host.env.mockSparkdexRouterAddress)
    (text "missing MOCK_SPARKDEX_ROUTER_ADDRESS")
  let target ← orThrow (getAddress router) .invalidAddress
  let data ← orThrow (encodeFunctionData 0x414bf389
    [a.pair.tokenIn.val, a.pair.tokenOut.val, 500, a.recipient.val, a.deadline, a.amountIn,
      a.amountOutMinimum, 0]) .integerOutOfRange
  return (target, data)

/-- The router of the venue, and the calldata for it. -/
def swapCall (venue : JsString) (a : SwapArgs) : Body (Address × List Byte) :=
  if venue = text "blazeswap-v2" then blazeswapCall host a else sparkdexCall host a

/-- The instruction for one follower; `none` where its share rounds to nothing. -/
def swapBuild (pair : Pair) (base : ℤ) (reading : ℕ) (f : FollowerAlloc) :
    Body (Option Build) := do
  let notionalWei ← followerNotional base f.allocationBps
  if notionalWei = 0 then return none
  else do
    let amountOutMinimum := pair.amountOutMinimum notionalWei
    returnIf (amountOutMinimum = 0) (text "sizing produced zero minOut")
    let recipientAddr ← orThrow (getAddress f.address) .invalidAddress
    let venue := host.toLowerCase (host.env.executionVenue.getD (text "mock-sparkdex"))
    let args : SwapArgs :=
      ⟨pair, recipientAddr, host.seconds reading + 300, notionalWei, amountOutMinimum⟩
    let (target, data) ← swapCall host venue args
    let fee := if venue = text "blazeswap-v2" then 0 else 500
    return some ⟨target, data, venue, some fee, recipientAddr, notionalWei⟩

def asDirection (v : Option Json) : Option Direction :=
  match v.bind Json.asString with
  | some s =>
    if s = text "BUY" then some .buy else if s = text "SELL" then some .sell else none
  | none => none

/-- `1_000_000n * 10n ** 18n`. -/
def notionalCapWei : ℤ := 1000000 * 10 ^ 18

/-- The end of both paths: the payload and the entry of the outcome log. -/
def accept (parsed : Json) (direction : Direction) (sizePct : Number) (venue : Build → JsString)
    (empty : JsString) (reading : ℕ) (builds : List Build) : Body Accepted :=
  match builds with
  | [] => returning empty
  -- only what yields an instruction is logged
  | first :: _ =>
    return {
      builds
      payload := payload host builds (venue first)
      outcome := ⟨leadAddr host parsed first, host.seconds reading, 0, direction, sizePct.trunc⟩ }

def swapStageB (parsed : Json) : Body Accepted := do
  let asset := (parsed.get (text "asset")).bind Json.asString
  returnIf (asset ≠ some (text "FXRP") ∧ asset ≠ some (text "USDT0"))
    (text "signal.asset must be FXRP or USDT0")
  let direction ← orReturn (asDirection (parsed.get (text "direction")))
    (text "signal.direction must be BUY or SELL")
  let sizePct ← orReturn (sizeOf parsed) (text "signal.sizePct must be a positive number (bps)")
  let followersList ← checkFollowers parsed
  returnIf (truthy host.env.flareRpcUrl = none) (text "missing FLARE_RPC_URL")
  let (fxrpUsd, usdt0Usd) ← readPrices host
  let fxrpToken ← tokenAddress host host.env.c2FxrpAddress (text "AssetManagerFXRP")
  let usdt0Token ← tokenAddress host host.env.c2Usdt0Address (text "AssetManagerUSDT0")
  let baseNotionalWei ← baseNotional notionalCapWei sizePct
  returnIf (baseNotionalWei = 0) (text "sizing produced zero notional")
  let pair : Pair := match direction with
    | .buy => ⟨usdt0Token, fxrpToken, usdt0Usd, fxrpUsd⟩
    | .sell => ⟨fxrpToken, usdt0Token, fxrpUsd, usdt0Usd⟩
  let builds ← followersList.zipIdx.mapM fun (f, reading) =>
    swapBuild host pair baseNotionalWei reading f
  accept host parsed direction sizePct (fun first => first.venue)
    (text "fan-out produced zero instructions") followersList.length builds.reduceOption

/-! ### The mock venues -/

inductive MockVenue
  | enosysCdp
  | firelightStrategy
  deriving DecidableEq

def MockVenue.name : MockVenue → JsString
  | .enosysCdp => text "enosys-cdp"
  | .firelightStrategy => text "firelight-strategy"

/-- The mock venue that a hint names. -/
def asMockVenue (hint : JsString) : Option MockVenue :=
  if hint = text "enosys-cdp" then some .enosysCdp
  else if hint = text "firelight-strategy" then some .firelightStrategy
  else none

/-- `Math.trunc` of a property that may be left out. -/
def coerced (v : Option Json) : Body Number :=
  match v with
  | some v => orThrow v.toNumber .typeError
  | none => return .nan

/-- The venue's contract, and the calldata of one deposit. -/
def mockCall (venue : MockVenue) (notional : ℤ) : Body (Address × List Byte) :=
  match venue with
  | .enosysCdp => do
    let cdp ← orReturn (truthy host.env.mockEnosysCdpAddress)
      (text "missing MOCK_ENOSYS_CDP_ADDRESS")
    let target ← orThrow (getAddress cdp) .invalidAddress
    -- half of what is deposited is minted
    let data ← orThrow (encodeFunctionData 0xbedd9e3b [notional, notional.tdiv 2])
      .integerOutOfRange
    return (target, data)
  | .firelightStrategy => do
    let strat ← orReturn (truthy host.env.mockFirelightStrategyAddress)
      (text "missing MOCK_FIRELIGHT_STRATEGY_ADDRESS")
    let target ← orThrow (getAddress strat) .invalidAddress
    let data ← orThrow (encodeFunctionData 0xb6b55f25 [notional]) .integerOutOfRange
    return (target, data)

/-- The instruction for one target, which nothing has checked before. -/
def mockBuild (venue : MockVenue) (base : ℤ) (f : Json) : Body (Option Build) :=
  if f.isNull then throwing .typeError
  else do
    -- nothing has checked the allocation: one that is left out is `NaN`, which `BigInt` refuses
    let allocationBps ← coerced (f.get (text "allocationBps"))
    let notional ← followerNotional base allocationBps
    if notional = 0 then return none
    else do
      let recipientAddr ← orThrow (((f.get (text "address")).bind Json.asString).bind getAddress)
        .invalidAddress
      let (target, data) ← mockCall host venue notional
      return some ⟨target, data, venue.name, none, recipientAddr, notional⟩

/-- `1_000_000n * 10n ** 6n`. -/
def notionalCap : ℤ := 1000000 * 10 ^ 6

/-- The followers as they stand, or the recipient with everything. -/
def mockTargets (parsed : Json) : Body (List Json) :=
  match followersOf parsed with
  | some followers => return followers
  | none => do
    let recipient ← orReturn (addressText (parsed.get (text "recipient")))
      (text "signal.recipient or followers required for mock venue")
    return [.obj [(text "address", .str recipient), (text "allocationBps", natJson 10000)]]

def buildMockVenueStageB (parsed : Json) (venue : MockVenue) : Body Accepted := do
  let sizePct ← orReturn (sizeOf parsed) (text "signal.sizePct must be a positive number (bps)")
  let targets ← mockTargets parsed
  let base ← baseNotional notionalCap sizePct
  let builds ← targets.mapM (mockBuild host venue base)
  accept host parsed .buy sizePct (fun _ => venue.name)
    (text "mock venue fan-out produced zero instructions") 0 builds.reduceOption

/-! ### The handlers -/

/-- The mock venue that takes a signal with this hint; `none` is the swap path. -/
def route (hint : JsString) : Option MockVenue :=
  if host.env.mirrorMockVenues = some (text "true") then asMockVenue hint else none

/-- Everything that follows the decryption of a signal. -/
def executeSignal (parsed : Json) : Body Accepted := do
  let hint ← venueHint host parsed
  match route host hint with
  | some venue => buildMockVenueStageB host parsed venue
  | none => swapStageB host parsed

def matchStageB (msg : JsString) : Body Accepted := do
  let parsed ← readSignal host msg
  executeSignal host parsed

/-- `handleMirrorMatchStageB(msg)`: its result and the outcome log it leaves. -/
def handleMirrorMatchStageB (msg : JsString) (log : List OutcomeRecord) :
    Except Thrown HandlerResult × List OutcomeRecord :=
  let body := matchStageB host msg
  (body.toCall Accepted.result refusal,
    match body with
    | .ok a => appendOutcome a.outcome log
    -- neither a refusal nor an exception leaves a record
    | .error _ => log)

/-- What an accepted top-up yields. -/
structure TopUp where
  follower : JsString
  lead : JsString
  kineticPool : JsString
  amountWei : ℤ
  calldata : List Byte

/-- `typeof v.key === "string" ? v.key : other`. -/
def stringOr (v : Json) (key other : JsString) : JsString :=
  ((v.get key).bind Json.asString).getD other

/-- `BigInt(String(parsed.amountWei ?? "0"))`. -/
def topUpAmount (parsed : Json) : Body ℤ :=
  match defined parsed (text "amountWei") with
  | some v => do
    let s ← orThrow v.toText .typeError
    orThrow (bigIntOfText s) .syntaxError
  | none => return 0

def mirrorTopUp (msg : JsString) : Body TopUp := do
  let raw ← decodeHex msg
  let source := utf8Decode raw
  let parsed ← orReturn (Json.parse source)
    (text "decoding request: " ++ host.syntaxErrorText source)
  if parsed.isNull then throwing .typeError
  else do
    let follower := stringOr parsed (text "follower") []
    let lead := stringOr parsed (text "lead") []
    let kineticPool :=
      stringOr parsed (text "kineticPool") (host.env.mockKineticPoolAddress.getD [])
    let amountWei ← topUpAmount parsed
    returnIf (¬startsWith follower (text "0x") ∨ ¬startsWith kineticPool (text "0x") ∨
      amountWei ≤ 0) (text "invalid top-up payload")
    let calldata ← orThrow (encodeFunctionData 0x35403023 [amountWei]) .integerOutOfRange
    return ⟨follower, lead, kineticPool, amountWei, calldata⟩

def TopUp.payload (t : TopUp) : Json :=
  .obj [(text "to", .str t.kineticPool), (text "data", .str (bytesToHex t.calldata)),
    (text "venue", .str (text "mock-kinetic")), (text "follower", .str t.follower),
    (text "lead", .str t.lead), (text "amountWei", .str (bigIntText t.amountWei)),
    (text "op", .str (text "TOPUP_V1"))]

def TopUp.result (t : TopUp) : HandlerResult := ⟨some (payloadHex t.payload), 1, none⟩

/-- `handleMirrorTopUpV1(msg)`. -/
def handleMirrorTopUpV1 (msg : JsString) : Except Thrown HandlerResult :=
  (mirrorTopUp host msg).toCall TopUp.result refusal

end Signal

end Mirror
