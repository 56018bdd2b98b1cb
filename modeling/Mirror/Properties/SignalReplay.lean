import Mirror.Refinement.Signals

/-!
What the engine remembers of the signals it has handled: an entry in the outcome log, which no
later signal is checked against. The nonce of a signal is never looked at.
-/
namespace Mirror

open Js Completion

/-- A message to `MATCH_V1`, and the host as the handler finds it. -/
structure Request where
  host : Host
  msg : JsString

/-- What the handler answers. -/
def Request.answer (r : Request) : Except Thrown HandlerResult :=
  (matchStageB r.host r.msg).toCall Accepted.result refusal

/-- The results of messages handled one after the other. -/
def session (log : List OutcomeRecord) : List Request → List (Except Thrown HandlerResult)
  | [] => []
  | r :: rest =>
    let handled := handleMirrorMatchStageB r.host r.msg log
    handled.1 :: session handled.2 rest

/-- The outcome log they leave. -/
def sessionLog (log : List OutcomeRecord) : List Request → List OutcomeRecord
  | [] => log
  | r :: rest => sessionLog (handleMirrorMatchStageB r.host r.msg log).2 rest

/-- A result with status 1. -/
def succeeds (answer : Except Thrown HandlerResult) : Bool :=
  match answer with
  | .ok result => result.status = 1
  | .error _ => false

theorem succeeds_accepted {r : Request} (success : succeeds r.answer = true) :
    ∃ a, matchStageB r.host r.msg = .ok a := by
  cases body : matchStageB r.host r.msg with
  | ok a => exact ⟨a, rfl⟩
  | error e =>
    simp only [Request.answer, body] at success
    cases e <;> cases success

/-! ### The nonce -/

/-- Two signals with the same properties, but for their nonces. -/
def SameButNonce (signal signal' : Json) : Prop :=
  ∀ key, key ≠ text "nonce" → signal.get key = signal'.get key

theorem executeSignal_congr (host : Host) {signal signal' : Json}
    (same : SameButNonce signal signal') :
    executeSignal host signal = executeSignal host signal' := by
  have venue := same (text "venue") (by decide)
  have strategyKind := same (text "strategyKind") (by decide)
  have asset := same (text "asset") (by decide)
  have direction := same (text "direction") (by decide)
  have sizePct := same (text "sizePct") (by decide)
  have followers := same (text "followers") (by decide)
  have recipient := same (text "recipient") (by decide)
  have lead := same (text "lead") (by decide)
  simp only [executeSignal, venueHint, defined, buildMockVenueStageB, swapStageB, sizeOf,
    checkFollowers, mockTargets, followersOf, accept, leadAddr, venue, strategyKind, asset,
    direction, sizePct, followers, recipient, lead]

/-- A copy of a message, or another message whose signal differs in its nonce at most. -/
def Resubmits (host : Host) (msg msg' : JsString) : Prop :=
  msg' = msg ∨ ∃ signal signal', readSignal host msg = .ok signal ∧
    readSignal host msg' = .ok signal' ∧ SameButNonce signal signal'

theorem Resubmits.answer {host : Host} {msg msg' : JsString} (again : Resubmits host msg msg') :
    (Request.mk host msg').answer = (Request.mk host msg).answer := by
  rcases again with rfl | ⟨signal, signal', read, read', same⟩
  · rfl
  · have body : matchStageB host msg' = matchStageB host msg := by
      simp only [matchStageB, read, read']
      exact (executeSignal_congr host same).symm
    simp only [Request.answer, body]

/-! ### Sessions -/

/-- No result depends on what came before. -/
theorem session_answers (log : List OutcomeRecord) (reqs : List Request) :
    session log reqs = reqs.map Request.answer := by
  induction reqs generalizing log with
  | nil => rfl
  | cons r rest ih =>
    rw [session, List.map_cons, ih]
    rfl

theorem appendOutcome_length (record : OutcomeRecord) (log : List OutcomeRecord)
    (kept : log.length ≤ maxEntries) :
    (appendOutcome record log).length = min maxEntries (log.length + 1) := by
  simp only [appendOutcome, List.length_drop, List.length_append, List.length_singleton]
  omega

/-- A successful signal adds an entry to the log, up to its limit, and nothing else does. -/
theorem step_log (r : Request) (log : List OutcomeRecord) (kept : log.length ≤ maxEntries) :
    (handleMirrorMatchStageB r.host r.msg log).2.length =
      min maxEntries (log.length + if succeeds r.answer then 1 else 0) := by
  cases body : matchStageB r.host r.msg with
  | ok a =>
    have success : succeeds r.answer = true := by
      simp only [Request.answer, body]
      rfl
    have grown : (handleMirrorMatchStageB r.host r.msg log).2 = appendOutcome a.outcome log := by
      simp only [handleMirrorMatchStageB, body]
    rw [grown, if_pos success]
    exact appendOutcome_length a.outcome log kept
  | error e =>
    have failure : succeeds r.answer = false := by
      simp only [Request.answer, body]
      cases e <;> rfl
    have same : (handleMirrorMatchStageB r.host r.msg log).2 = log := by
      simp only [handleMirrorMatchStageB, body]
    rw [same, failure]
    exact (Nat.min_eq_right kept).symm

theorem sessionLog_length (log : List OutcomeRecord) (reqs : List Request)
    (kept : log.length ≤ maxEntries) :
    (sessionLog log reqs).length =
      min maxEntries (log.length + (session log reqs).countP succeeds) := by
  rw [session_answers]
  induction reqs generalizing log with
  | nil => exact (Nat.min_eq_right kept).symm
  | cons r rest ih =>
    have step := step_log r log kept
    rw [sessionLog, ih _ (by omega), step, List.map_cons, List.countP_cons]
    omega

/-- In every session a message that resubmits another one, under the same host, is answered as
that one was, whatever else is handled in between; the log has one entry more for it. -/
theorem resubmission_answered_alike (log : List OutcomeRecord) (reqs : List Request) (i j : ℕ)
    (host : Host) (msg msg' : JsString) (first : reqs[i]? = some ⟨host, msg⟩)
    (second : reqs[j]? = some ⟨host, msg'⟩) (again : Resubmits host msg msg')
    (kept : log.length ≤ maxEntries) :
    (session log reqs)[j]? = (session log reqs)[i]? ∧
      (sessionLog log reqs).length =
        min maxEntries (log.length + (session log reqs).countP succeeds) := by
  refine ⟨?_, sessionLog_length log reqs kept⟩
  rw [session_answers, List.getElem?_map, List.getElem?_map, first, second, Option.map_some,
    Option.map_some, again.answer]

namespace Sample

/-- A host without TEE node, on a chain with FXRP at two dollars. -/
def host : Host where
  env := {
    fcePlaintextDecryptFallback := some (text "1")
    signPort := none
    executionVenue := none
    mirrorMockVenues := some (text "true")
    flareRpcUrl := some (text "http://localhost")
    c2FxrpAddress := none
    c2Usdt0Address := none
    blazeswapRouterAddress := none
    mockSparkdexRouterAddress := some (text "0x00000000000000000000000000000000000000a1")
    mockEnosysCdpAddress := some (text "0x00000000000000000000000000000000000000a2")
    mockFirelightStrategyAddress := none
    mockKineticPoolAddress := none }
  decrypt _ := .error []
  rpc := {
    getContractAddressByName _ := some 1
    getFeedByIdInWei _ feed := some (if feed = fxrpUsdFeedId then 2 * 10 ^ 18 else 10 ^ 18, 0)
    fAsset manager := some (manager + 1) }
  now _ := 0
  -- on ASCII
  toLowerCase s := s.map fun c => if 0x41 ≤ c.val ∧ c.val ≤ 0x5A then c + 0x20 else c
  checksumAddress a := text "0x" ++ (Evm.beBytes 20 a.val).flatMap hexByte
  syntaxErrorText _ := text "SyntaxError"

/-- The hex text of a JSON text. -/
def message (json : String) : JsString := bytesToHex (utf8Encode (text json))

/-- A lead buys FXRP for itself, with this nonce. -/
def purchaseSignal (nonce : String) : JsString :=
  message ("\x7b\"asset\":\"FXRP\",\"direction\":\"BUY\",\"sizePct\":100,\"nonce\":" ++ nonce ++
    ",\"lead\":\"0x00000000000000000000000000000000000000ee\",\"recipient\":" ++
    "\"0x00000000000000000000000000000000000000ee\"\x7d")

def purchaseRequest : Request := ⟨host, purchaseSignal "1"⟩

end Sample

/-- A copy of a purchase, sent right after it. -/
theorem resubmission_answered_alike_copy :
    (session [] [Sample.purchaseRequest, Sample.purchaseRequest])[1]? =
        (session [] [Sample.purchaseRequest, Sample.purchaseRequest])[0]? ∧
      (sessionLog [] [Sample.purchaseRequest, Sample.purchaseRequest]).length =
        min maxEntries (([] : List OutcomeRecord).length +
          (session [] [Sample.purchaseRequest, Sample.purchaseRequest]).countP succeeds) :=
  resubmission_answered_alike [] [Sample.purchaseRequest, Sample.purchaseRequest] 0 1
    Sample.purchaseRequest.host Sample.purchaseRequest.msg Sample.purchaseRequest.msg rfl rfl
    (.inl rfl) (Nat.zero_le _)

/-- The copy succeeds as the purchase did, though lead and nonce are the same. -/
theorem signal_executed_twice :
    ¬∀ (log : List OutcomeRecord) (reqs : List Request) (i j : ℕ) (a b : Request)
      (signal signal' : Json) (answer answer' : Except Thrown HandlerResult),
      i ≠ j → reqs[i]? = some a → reqs[j]? = some b →
      readSignal a.host a.msg = .ok signal → readSignal b.host b.msg = .ok signal' →
      signal.get (text "lead") = signal'.get (text "lead") →
      signal.get (text "nonce") = signal'.get (text "nonce") →
      (session log reqs)[i]? = some answer → (session log reqs)[j]? = some answer' →
      ¬(succeeds answer = true ∧ succeeds answer' = true) := by
  intro once
  have purchase : ∃ r : Request, succeeds r.answer = true :=
    ⟨Sample.purchaseRequest, by decide +kernel⟩
  obtain ⟨r, success⟩ := purchase
  obtain ⟨a, accepted⟩ := succeeds_accepted success
  obtain ⟨signal, hint, read, -⟩ := matchStageB_ok accepted
  exact once [] [r, r] 0 1 r r signal signal r.answer r.answer (by decide) rfl rfl read read rfl rfl
    (by rw [session_answers]; rfl) (by rw [session_answers]; rfl) ⟨success, success⟩

end Mirror
