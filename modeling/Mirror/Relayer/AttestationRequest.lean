import Mirror.Js.Hex
import Mirror.Js.Number

/-!
`requestAttestation` of the relayer, run on what a node answers. The node may accept a transaction
and answer with an error all the same, so the transactions that it accepts are kept beside the
outcome of the call.
-/
namespace Mirror.Relayer

open Js

/-- What is thrown: an `Error`, with its cause as text, or anything else. -/
inductive Thrown
  | error (message : JsString) (cause : Option JsString)
  | other (asText : JsString)
  deriving DecidableEq

/-- `throw new Error(message)`. -/
def fail {α : Type} (message : JsString) : Except Thrown α := .error (.error message none)

/-- The error says that another transaction has the nonce. -/
def isNonceRace (err : Thrown) : Bool :=
  let msg := match err with
    | .error message cause => message ++ text " " ++ cause.getD []
    | .other asText => asText
  ["replacement transaction underpriced", "nonce too low", "already known",
    "replacement underpriced"].any fun race => includes (lower msg) (text race)

/-- The numbers of the account's transactions, up to the latest block and with those pending. -/
structure Counts where
  latest : Except Thrown ℕ
  pending : Except Thrown ℕ

/-- `waitForPendingNonce` with this number of polls left. -/
def pollPending (address : JsString) : ℕ → (ℕ → Counts) → Except Thrown Unit
  | 0, _ => fail (text "deployer " ++ address ++
      text " still has pending txs after 2m — not sending a replacement")
  | left + 1, polls => do
    let latest ← (polls 0).latest
    let pending ← (polls 0).pending
    if pending ≤ latest then return
    pollPending address left fun i => polls (i + 1)

def waitForPendingNonce (address : JsString) (polls : ℕ → Counts) : Except Thrown Unit :=
  pollPending address 40 polls

structure GasFees where
  maxFeePerGas : ℕ
  maxPriorityFeePerGas : ℕ
  deriving DecidableEq

/-- What `estimateFeesPerGas` resolves to. -/
structure FeeEstimate where
  maxFeePerGas : Option ℕ
  maxPriorityFeePerGas : Option ℕ

/-- The fees of the first attempt. -/
def initialFees (estimate : Except Thrown FeeEstimate) : GasFees :=
  let fees := match estimate with
    | .ok fees => fees
    | .error _ => ⟨some 50000000000, some 2000000000⟩
  let maxPriorityFeePerGas := fees.maxPriorityFeePerGas.getD 2000000000 * 2
  let maxFeePerGas := fees.maxFeePerGas.getD 50000000000 * 2
  { maxPriorityFeePerGas := maxPriorityFeePerGas
    maxFeePerGas := if maxFeePerGas < maxPriorityFeePerGas then maxPriorityFeePerGas * 2
      else maxFeePerGas }

/-- The fees of the next attempt. -/
def GasFees.bump (fees : GasFees) : GasFees where
  maxFeePerGas := fees.maxFeePerGas * 15 / 10
  maxPriorityFeePerGas := fees.maxPriorityFeePerGas * 15 / 10

/-- A call of `FdcHub.requestAttestation`. -/
structure Transaction where
  address : JsString
  args : List JsString
  value : ℕ
  gas : ℕ
  nonce : ℕ
  fees : GasFees
  deriving DecidableEq

/-- How the node answers one attempt, and whether it accepts the transaction. -/
structure Attempt where
  nonce : Except Thrown ℕ
  accepted : Bool
  /-- What `writeContract` resolves to. -/
  answer : Except Thrown JsString
  /-- The counts for the wait before the next attempt. -/
  polls : ℕ → Counts

/-- The transactions that the node accepts in an attempt. -/
def Attempt.paid (attempt : Attempt) (transaction : ℕ → Transaction) : List Transaction :=
  match attempt.nonce with
  | .ok nonce => if attempt.accepted then [transaction nonce] else []
  | .error _ => []

/-- The attempts, of which this number is left. -/
def submit (address : JsString) (transaction : GasFees → ℕ → Transaction) :
    ℕ → GasFees → (ℕ → Attempt) → List Transaction × Except Thrown (Option JsString)
  | 0, _, _ => ([], .ok none)
  | left + 1, fees, attempts =>
    let paid := (attempts 0).paid (transaction fees)
    -- the nonce is asked for inside the `try`
    match (attempts 0).nonce.bind fun _ => (attempts 0).answer with
    | .ok hash => (paid, .ok (some hash))
    | .error e =>
      if !isNonceRace e ∨ left = 0 then (paid, .error e)
      else
        match waitForPendingNonce address (attempts 0).polls with
        | .error e => (paid, .error e)
        | .ok _ =>
          let (later, outcome) := submit address transaction left fees.bump fun i =>
            attempts (i + 1)
          (paid ++ later, outcome)

structure Receipt where
  status : JsString
  blockNumber : ℕ

/-- A node, with all that it answers during a call. -/
structure Node where
  registryAddress : JsString → Except Thrown JsString
  getRequestFee : JsString → Except Thrown ℕ
  /-- The counts for the wait before the first attempt. -/
  polls : ℕ → Counts
  estimate : Except Thrown FeeEstimate
  attempts : ℕ → Attempt
  receipt : JsString → Except Thrown Receipt
  timestamp : ℕ → Except Thrown ℕ
  firstVotingRoundStartTs : Except Thrown ℕ
  votingEpochDurationSeconds : Except Thrown ℕ

/-- What `requestAttestation` resolves to. -/
structure Submitted where
  hash : JsString
  roundId : Number
  fee : ℕ

namespace Node

/-- What precedes the attempts: the hub and the fee. -/
def prepare (node : Node) (address abiEncodedRequest : JsString) :
    Except Thrown (JsString × ℕ) := do
  let fdcHub ← node.registryAddress (text "FdcHub")
  let _ ← node.registryAddress (text "FdcRequestFeeConfigurations")
  let fee ← node.getRequestFee abiEncodedRequest
  waitForPendingNonce address node.polls
  return (fdcHub, fee)

/-- What follows the attempts. -/
def conclude (node : Node) (fee : ℕ) (hash : Option JsString) : Except Thrown Submitted :=
  match hash.filter fun hash => hash ≠ [] with
  | none => fail (text "requestAttestation did not submit")
  | some hash => do
    let receipt ← node.receipt hash
    if receipt.status ≠ text "success" then
      fail (text "requestAttestation reverted tx=" ++ hash)
    let timestamp ← node.timestamp receipt.blockNumber
    let _ ← node.registryAddress (text "FlareSystemsManager")
    let first ← node.firstVotingRoundStartTs
    let duration ← node.votingEpochDurationSeconds
    if duration = 0 then fail (text "Division by zero")
    return ⟨hash, .ofRat (((timestamp : ℤ) - first).tdiv duration : ℤ), fee⟩

/-- The transactions that the node accepts during the call, and what the call returns. -/
def requestAttestation (node : Node) (address abiEncodedRequest : JsString) :
    List Transaction × Except Thrown Submitted :=
  match node.prepare address abiEncodedRequest with
  | .error e => ([], .error e)
  | .ok (fdcHub, fee) =>
    let transaction := fun fees nonce => Transaction.mk fdcHub [abiEncodedRequest] fee 1000000
      nonce fees
    let (paid, outcome) := submit address transaction 5 (initialFees node.estimate) node.attempts
    (paid, outcome.bind (node.conclude fee))

end Node

end Mirror.Relayer
