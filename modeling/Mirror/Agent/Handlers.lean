import Mirror.Agent.Scoring

/-! The agent's handler of `SCORE_V1`, which takes the events from its message, from the matching
engine's log or from a fixture. -/
namespace Mirror

open Js Number Completion

/-! ### Fixtures -/

structure OutcomeEvent where
  timestamp : ℤ
  pnlBps : ℤ
  direction : Direction
  sizePct : ℤ

def Direction.name : Direction → JsString
  | .buy => text "BUY"
  | .sell => text "SELL"

def OutcomeEvent.json (lead : JsString) (e : OutcomeEvent) : Json :=
  .obj [(text "lead", .str lead), (text "timestamp", .num (.ofRat e.timestamp)),
    (text "pnlBps", .num (.ofRat e.pnlBps)), (text "direction", .str e.direction.name),
    (text "sizePct", .num (.ofRat e.sizePct))]

/-- `now` of the fixtures. -/
def fixtureNow : ℤ := 1700000000

def momentumEvent (i : ℕ) : OutcomeEvent where
  timestamp := fixtureNow - (29 - i) * 86400
  pnlBps := 40 + (i % 5 - 2) * 2
  direction := .buy
  sizePct := 1000

def meanRevEvent (i : ℕ) : OutcomeEvent where
  timestamp := fixtureNow - (29 - i) * 86400 + i % 5 * 12000
  pnlBps := if i % 2 = 0 then 200 else -180
  direction := if i % 2 = 0 then .buy else .sell
  sizePct := 300 + i % 11 * 250

def syntheticMomentumLead (lead : JsString) : List Json :=
  (List.range 30).map fun i => (momentumEvent i).json lead

def syntheticMeanRevLead (lead : JsString) : List Json :=
  (List.range 30).map fun i => (meanRevEvent i).json lead

/-! ### The outcome log -/

/-- A response of the matching engine; its body may be no JSON. -/
structure LogResponse where
  status : ℕ
  json : Except JsString Json

/-- What the agent is run with. Errors are their messages. -/
structure AgentHost where
  syntheticOutcomeFixture : Option JsString
  driftConfidenceThreshold : Option JsString
  matchingEnginePrivateLogUrl : Option JsString
  teeInternalToken : Option JsString
  encodeURIComponent : JsString → Except JsString JsString
  /-- `fetch(url)` with a bearer token. -/
  fetch : JsString → JsString → Except JsString LogResponse
  /-- The message of the `TypeError` for `null.events`. -/
  nullEvents : JsString
  /-- `Date.now()`. -/
  dateNow : ℕ

section

variable (host : AgentHost)

/-- `base.replace(/\/$/, "")`. -/
def withoutSlash (base : JsString) : JsString :=
  if base.getLast? = some 0x2F then base.dropLast else base

def fetchOutcomeLog (lead : JsString) : Except JsString Json := do
  match truthy host.matchingEnginePrivateLogUrl, truthy host.teeInternalToken with
  | some base, some token =>
    let encoded ← host.encodeURIComponent lead
    let url := withoutSlash base ++ text "/internal/outcome-log?lead=" ++ encoded
    let res ← host.fetch url token
    -- `!res.ok`
    if res.status < 200 ∨ 300 ≤ res.status then .error (text "HTTP " ++ decimal res.status)
    else
      let body ← res.json
      if body.isNull then .error host.nullEvents
      else return (defined body (text "events")).getD (.arr [])
  | _, _ =>
    .error (text "MATCHING_ENGINE_PRIVATE_LOG_URL / TEE_INTERNAL_TOKEN not set (and no fixture)")

/-! ### Events -/

/-- `events.length === 0`. -/
def isEmpty : Json → Bool
  | .arr elements => elements = []
  | .str s => s = []
  | .obj members => ((Json.obj members).get (text "length")).bind Json.asNumber = some zero
  | _ => false

/-- The code points of a string, each as a string. -/
def characters : JsString → List JsString
  | [] => []
  | [c] => [[c]]
  | c :: d :: rest =>
    if 0xD800 ≤ c.val ∧ c.val < 0xDC00 ∧ 0xDC00 ≤ d.val ∧ d.val < 0xE000 then
      [c, d] :: characters rest
    else [c] :: characters (d :: rest)

/-- `[...events]`. -/
def spread : Json → Sure (List Json)
  | .arr elements => return elements
  | .str s => return (characters s).map .str
  | _ => throwing .typeError

/-- `events.length`, as it is written to the result. -/
def eventCount : Json → Option Json
  | .arr elements => some (.num (ofLength elements.length))
  | .str s => some (.num (ofLength s.length))
  | v => v.get (text "length")

/-- A payload that is an object or an array. -/
def readPayload (msg : JsString) : Body Json := do
  let ciphertext ← decodeHex msg
  let parsed ← orReturn (Json.parse (utf8Decode ciphertext)) (text "payload: expected JSON object")
  returnIf (!parsed.isObject) (text "payload: expected JSON object")
  return parsed

/-- The events that a payload is about, whatever they are. -/
def sourceEvents (parsed : Json) (lead : JsString) : Body Json :=
  let fixture := (parsed.get (text "fixture")).filter Json.isTruthy
  if host.syntheticOutcomeFixture = some (text "1") ∨ fixture.isSome then
    let named := (defined parsed (text "fixture")).bind Json.asString
    return .arr (if named = some (text "mean-reversion") then syntheticMeanRevLead lead
      else syntheticMomentumLead lead)
  else
    -- an array is taken as it is, `as OutcomeEvent[]`
    match (parsed.get (text "events")).bind Json.asArray with
    | some events => return .arr events
    | none =>
      match fetchOutcomeLog host lead with
      | .ok events => return events
      | .error message => .returning (text "outcome log: " ++ message)

/-- The lead and the events that a message is about. -/
def readScoreRequest (msg : JsString) : Body (Json × JsString × Json) := do
  let parsed ← readPayload msg
  let lead ← orReturn (addressText (parsed.get (text "lead")))
    (text "lead must be a 20-byte hex address")
  let events ← sourceEvents host parsed lead
  returnIf (isEmpty events) (text "no outcome events for lead")
  return (parsed, lead, events)

/-! ### Results -/

structure ScoreRun where
  lead : JsString
  breakdown : ScoreBreakdown Number
  classification : Classification Number
  drift : DriftResult Number
  attestationId : JsString
  eventCount : Option Json

def StrategyClass.name : StrategyClass → JsString
  | .momentum => text "momentum"
  | .meanReversion => text "mean-reversion"
  | .yieldArb => text "yield-arb"

def ScoreBreakdown.json (b : ScoreBreakdown Number) : Json :=
  .obj [(text "sharpe", .num b.sharpe), (text "maxDrawdown", .num b.maxDrawdown),
    (text "consistency", .num b.consistency), (text "dataCompleteness", .num b.dataCompleteness),
    (text "aiScore", .num b.aiScore)]

def Classification.json (c : Classification Number) : Json :=
  .obj [(text "strategy", .str c.strategy.name), (text "confidence", .num c.confidence),
    (text "features", .obj [(text "directionAutocorr", .num c.directionAutocorr),
      (text "sizeCv", .num c.sizeCv), (text "meanAbsPnlBps", .num c.meanAbsPnlBps)])]

def DriftResult.json (d : DriftResult Number) : Json :=
  .obj [(text "lead", .str d.lead), (text "baseline", .num d.baseline),
    (text "live", .str d.live.name), (text "liveCode", .num d.liveCode),
    (text "confidence", .num d.confidence), (text "drifted", .bool d.drifted),
    (text "cycle", .num d.cycle), (text "threshold", .num d.threshold)]

/-- The properties of a result; one that is `undefined` is not written. -/
def ScoreRun.json (r : ScoreRun) : Json :=
  .obj ([(text "lead", .str r.lead), (text "score", .num r.breakdown.aiScore),
    (text "breakdown", r.breakdown.json), (text "classification", r.classification.json),
    (text "drift", r.drift.json), (text "attestationId", .str r.attestationId)] ++
    (r.eventCount.map fun n => (text "eventCount", n)).toList)

def ScoreRun.result (r : ScoreRun) : HandlerResult :=
  ⟨some (bytesToHex (utf8Encode r.json.stringify)), 1, none⟩

/-- The part of the handler that has its events. -/
def scoreEvents (parsed : Json) (lead : JsString) (events : Json) : Sure ScoreRun := do
  let list ← spread events
  let nowSec := ofRat (host.dateNow / 1000 : ℕ)
  let breakdown ← scoreLead list nowSec
  let classification ← classifyLead list
  let numberOr0 (key : String) := ((parsed.get (text key)).bind Json.asNumber).getD zero
  -- `detectDrift` classifies the events once more
  let drift ← detectDrift host.driftConfidenceThreshold lead (numberOr0 "baselineStrategyType")
    list (numberOr0 "cycle")
  let attestationId := ((parsed.get (text "attestationId")).bind Json.asString).filter fun s =>
    startsWith s (text "0x")
  return {
    lead
    breakdown
    classification
    drift
    attestationId := attestationId.getD (text "0x" ++ (List.replicate 32 (text "00")).flatten)
    eventCount := eventCount events }

def scoreV1 (msg : JsString) : Body ScoreRun := do
  let (parsed, lead, events) ← readScoreRequest host msg
  Sure.lift (scoreEvents host parsed lead events)

/-- `handleScoreV1(msg)`, where an error is a rejection. -/
def handleScoreV1 (msg : JsString) : Except Thrown HandlerResult :=
  (scoreV1 host msg).toCall ScoreRun.result refusal

end

/-! ### Publishing -/

/-- The check in `publishScore` of a score, which it then refuses. -/
def scoreOutOfRange (score : Number) : Bool := score.lt zero || Number.lt maxScore score

end Mirror
