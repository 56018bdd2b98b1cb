import Mirror.Js.Asking
import Mirror.Js.Desk
import Mirror.Relayer.AttestationRequest

/-!
`requestAttestation` of the relayer with its gate: what a call asks the node for, one await after the
other, and calls that wait for the call before them.
-/
namespace Mirror.Relayer

open Js

/-- Which of its awaits a call asks for the number of transactions in: a poll of one of the waits,
the first of which is number 0, or an attempt. -/
inductive Place
  | poll (wait i : ℕ)
  | attempt (i : ℕ)

inductive BlockTag
  | latest
  | pending
  deriving DecidableEq

/-- What is asked of the node. -/
inductive Question
  | registryAddress (name : JsString)
  | getRequestFee (abiEncodedRequest : JsString)
  | getTransactionCount (blockTag : BlockTag) (place : Place)
  | estimateFeesPerGas
  | writeContract (attempt : ℕ) (transaction : Transaction)
  | waitForTransactionReceipt (hash : JsString)
  | getBlock (blockNumber : ℕ)
  | firstVotingRoundStartTs
  | votingEpochDurationSeconds

/-- A block is read for its timestamp. -/
def Question.Answer : Question → Type
  | registryAddress _ => JsString
  | getRequestFee _ => ℕ
  | getTransactionCount _ _ => ℕ
  | estimateFeesPerGas => FeeEstimate
  | writeContract _ _ => JsString
  | waitForTransactionReceipt _ => Receipt
  | getBlock _ => ℕ
  | firstVotingRoundStartTs => ℕ
  | votingEpochDurationSeconds => ℕ

abbrev Client (α : Type) := Asking Question Question.Answer Thrown α

namespace Client

def fail {α : Type} (message : JsString) : Client α := .throws (.error message none)

/-! What the code awaits, by the types of the answers. -/

def registryAddress (name : JsString) : Client JsString := Asking.await (Question.registryAddress name)

def getRequestFee (abiEncodedRequest : JsString) : Client ℕ :=
  Asking.await (Question.getRequestFee abiEncodedRequest)

def getTransactionCount (blockTag : BlockTag) (place : Place) : Client ℕ :=
  Asking.await (Question.getTransactionCount blockTag place)

def estimateFeesPerGas : Client FeeEstimate := Asking.await Question.estimateFeesPerGas

def writeContract (attempt : ℕ) (transaction : Transaction) : Client JsString :=
  Asking.await (Question.writeContract attempt transaction)

def waitForTransactionReceipt (hash : JsString) : Client Receipt :=
  Asking.await (Question.waitForTransactionReceipt hash)

def getBlock (blockNumber : ℕ) : Client ℕ := Asking.await (Question.getBlock blockNumber)

def firstVotingRoundStartTs : Client ℕ := Asking.await Question.firstVotingRoundStartTs

def votingEpochDurationSeconds : Client ℕ := Asking.await Question.votingEpochDurationSeconds

/-- `waitForPendingNonce` from poll `i` on. -/
def pollPending (address : JsString) (wait : ℕ) : ℕ → ℕ → Client Unit
  | 0, _ => fail (text "deployer " ++ address ++
      text " still has pending txs after 2m — not sending a replacement")
  | left + 1, i => do
    let latest ← getTransactionCount .latest (.poll wait i)
    let pending ← getTransactionCount .pending (.poll wait i)
    -- nothing of the account is under way any more
    if pending ≤ latest then return
    pollPending address wait left (i + 1)

def waitForPendingNonce (address : JsString) (wait : ℕ) : Client Unit :=
  pollPending address wait 40 0

/-- What stands in the `try`. -/
def send (transaction : ℕ → Transaction) (attempt : ℕ) : Client JsString := do
  let nonce ← getTransactionCount .pending (.attempt attempt)
  writeContract attempt (transaction nonce)

/-- The attempts from `attempt` on. -/
def submit (address : JsString) (transaction : GasFees → ℕ → Transaction) :
    ℕ → ℕ → GasFees → Client (Option JsString)
  | 0, _, _ => return none
  | left + 1, attempt, fees => do
    let sent ← (send (transaction fees) attempt).caught
    match sent with
    | .ok hash => return some hash
    | .error e =>
      -- another error ends the call, and so does the last attempt
      if !isNonceRace e ∨ left = 0 then Asking.throws e
      else
        waitForPendingNonce address (attempt + 1)
        submit address transaction left (attempt + 1) fees.bump

/-- What follows the attempts. -/
def conclude (fee : ℕ) (hash : Option JsString) : Client Submitted :=
  match hash.filter fun hash => hash ≠ [] with
  | none => fail (text "requestAttestation did not submit")
  | some hash => do
    let receipt ← waitForTransactionReceipt hash
    if receipt.status ≠ text "success" then
      fail (text "requestAttestation reverted tx=" ++ hash)
    let timestamp ← getBlock receipt.blockNumber
    -- the address is asked for and used by the next two questions
    let _ ← registryAddress (text "FlareSystemsManager")
    let first ← firstVotingRoundStartTs
    let duration ← votingEpochDurationSeconds
    if duration = 0 then fail (text "Division by zero")
    return ⟨hash, .ofRat (((timestamp : ℤ) - first).tdiv duration : ℤ), fee⟩

/-- `run` of `requestAttestation`. -/
def run (address abiEncodedRequest : JsString) : Client Submitted := do
  let fdcHub ← registryAddress (text "FdcHub")
  let _ ← registryAddress (text "FdcRequestFeeConfigurations")
  let fee ← getRequestFee abiEncodedRequest
  waitForPendingNonce address 0
  -- an estimate that fails is replaced by the fixed fees
  let estimate ← estimateFeesPerGas.caught
  let transaction := fun fees nonce => Transaction.mk fdcHub [abiEncodedRequest] fee 1000000
    nonce fees
  -- an attempt is never made before the account has nothing under way
  let hash ← submit address transaction 5 0 (initialFees estimate)
  conclude fee hash

end Client

/-! ### Calls of one process -/

/-- A transaction that was written, with the number of the account's transactions just before and
just after. -/
structure Written where
  transaction : Transaction
  before : ℕ
  after : ℕ

section

variable {σ : Type} (node : (q : Question) → σ → Except Thrown q.Answer × σ) (pending : σ → ℕ)

/-- The node, with a record of what is written. -/
def recorded (q : Question) (s : σ × List Written) :
    Except Thrown q.Answer × σ × List Written :=
  let (a, n) := node q s.1
  match q with
  | .writeContract _ transaction => (a, n, s.2 ++ [⟨transaction, pending s.1, pending n⟩])
  | _ => (a, n, s.2)

/-- A call of `requestAttestation`, or an answer that comes back to one. -/
def turn (address : JsString) :
    Desk.Event JsString → Turn (σ × List Written) (Except Thrown Submitted)
  | .request abiEncodedRequest =>
    .serialize ((Client.run address abiEncodedRequest).task (recorded node pending))
  | .advance call => .advance call

/-- `attestationGate` after calls and answers in any order. -/
def gateAfter (address : JsString) (s : σ) (events : List (Desk.Event JsString)) :
    Gate (σ × List Written) (Except Thrown Submitted) :=
  Evm.run Gate.step (Gate.start (s, [])) (events.map (turn node pending address))

end

end Mirror.Relayer
