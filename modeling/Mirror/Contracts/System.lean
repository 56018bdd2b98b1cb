import Mirror.Contracts.Sender
import Mirror.Evm.Run

/-!
The deployed contracts as one machine: entry points of `InstructionSender`, transactions and
the chain's record of them.
-/
namespace Mirror

open Evm

structure System where
  ledger : Ledger
  vault : MirrorVault
  fee : MirrorFee
  registry : MirrorRegistry
  sender : InstructionSender

namespace System

/-- A call into the vault, inside a transaction. -/
def onVault (f : Custody → Except Revert Custody) (s : System) : Except Revert System := do
  let c ← f ⟨s.ledger, s.vault⟩
  return { s with ledger := c.ledger, vault := c.vault }

/-- A call into the fee contract, inside a transaction. -/
def onFee (f : Treasury → Except Revert Treasury) (s : System) : Except Revert System := do
  let t ← f ⟨s.ledger, s.fee⟩
  return { s with ledger := t.ledger, fee := t.fee }

/-- A token call, inside a transaction. -/
def onToken (env : External) (token who : Address) (c : TokenCall Address) (s : System) :
    Except Revert System := do
  let ledger ← s.ledger.call env token who c
  return { s with ledger }

end System

/-- Entry points that stay open while `InstructionSender` executes a match. -/
inductive Entry
  | token (address : Address) (call : TokenCall Address)
  | vault (call : VaultCall)
  | fee (call : FeeCall)
  | registry (call : RegistryCall)
  | sender (call : SenderCall)

/-- A call that an account outside the protocol makes to an unguarded entry point. -/
structure Action (D : Deployment) where
  who : Outsider D
  entry : Entry

/-- What a router did during one swap: the calls it made, the logs it emitted and the amount it
returned. The guarded entry points of `InstructionSender` are closed to it. -/
structure Reply (D : Deployment) where
  actions : List (Action D)
  events : List Event
  amountOut : Uint256

/-- The routers by address; `none` is a revert. -/
abbrev Routers (D : Deployment) := Address → ExactInputSingleParams → Option (Reply D)

variable {D : Deployment}

/-- The log that `MockSparkDexRouter` emits for a swap. -/
def swapLog (router sender : Address) (params : ExactInputSingleParams) (amountOut : Uint256) :
    Event where
  emitterAddress := router
  topics := [swapTopic0, ⟨sender.val, by omega⟩, ⟨params.recipient.val, by omega⟩]
  data := abiEncode
    [params.tokenIn.val, params.tokenOut.val, params.amountIn.val, amountOut.val]
  removed := false

/-- The answer of a router that pulls what it is told to and delivers what it returns, as
`MockSparkDexRouter` does. -/
def exactReply (router : Outsider D) (params : ExactInputSingleParams) (amountOut : Uint256) :
    Reply D where
  actions := [
    ⟨router, .token params.tokenIn (.transferFrom D.sender router.addr params.amountIn.val)⟩,
    ⟨router, .token params.tokenOut (.transfer params.recipient amountOut.val)⟩]
  events := [swapLog router.addr D.sender params amountOut]
  amountOut := amountOut

namespace Action

def perform (env : External) (a : Action D) (s : System) : Except Revert System :=
  match a.entry with
  | .token address c => s.onToken env address a.who.addr c
  | .vault c => s.onVault fun custody => MirrorVault.call D env a.who.addr custody c
  | .fee c => s.onFee fun treasury => MirrorFee.call D env s.registry a.who.addr treasury c
  | .registry c => do
    let registry ← s.registry.call a.who.addr c
    return { s with registry }
  | .sender c => do
    let sender ← s.sender.call a.who.addr c
    return { s with sender }

def performAll (env : External) : List (Action D) → System → Except Revert System
  | [], s => return s
  | a :: rest, s => do
    let s ← a.perform env s
    performAll env rest s

/-- What an outsider's call writes, one case for each contract it may reach. -/
inductive Performed (env : External) (s : System) : Action D → System → Prop
  | token (who : Outsider D) (address : Address) (c : TokenCall Address) (ledger : Ledger)
      (called : s.ledger.call env address who.addr c = .ok ledger) :
      Performed env s ⟨who, .token address c⟩ { s with ledger }
  | vault (who : Outsider D) (c : VaultCall) (custody : Custody)
      (called : MirrorVault.call D env who.addr ⟨s.ledger, s.vault⟩ c = .ok custody) :
      Performed env s ⟨who, .vault c⟩ { s with ledger := custody.ledger, vault := custody.vault }
  | fee (who : Outsider D) (c : FeeCall) (treasury : Treasury)
      (called : MirrorFee.call D env s.registry who.addr ⟨s.ledger, s.fee⟩ c = .ok treasury) :
      Performed env s ⟨who, .fee c⟩ { s with ledger := treasury.ledger, fee := treasury.fee }
  | registry (who : Outsider D) (c : RegistryCall) (registry : MirrorRegistry)
      (called : s.registry.call who.addr c = .ok registry) :
      Performed env s ⟨who, .registry c⟩ { s with registry }
  | sender (who : Outsider D) (c : SenderCall) (sender : InstructionSender)
      (called : s.sender.call who.addr c = .ok sender) :
      Performed env s ⟨who, .sender c⟩ { s with sender }

theorem performed {env : External} {a : Action D} {s s' : System} (h : a.perform env s = .ok s') :
    Performed env s a s' := by
  obtain ⟨who, entry⟩ := a
  cases entry with
  | token address c =>
    simp only [perform, System.onToken, bind_ok, pure_ok] at h
    obtain ⟨ledger, called, rfl⟩ := h
    exact .token who address c ledger called
  | vault c =>
    simp only [perform, System.onVault, bind_ok, pure_ok] at h
    obtain ⟨custody, called, rfl⟩ := h
    exact .vault who c custody called
  | fee c =>
    simp only [perform, System.onFee, bind_ok, pure_ok] at h
    obtain ⟨treasury, called, rfl⟩ := h
    exact .fee who c treasury called
  | registry c =>
    simp only [perform, bind_ok, pure_ok] at h
    obtain ⟨registry, called, rfl⟩ := h
    exact .registry who c registry called
  | sender c =>
    simp only [perform, bind_ok, pure_ok] at h
    obtain ⟨sender, called, rfl⟩ := h
    exact .sender who c sender called

/-- What every action keeps, a sequence of actions keeps. -/
theorem performAll_keeps {env : External} {s s' : System} (P : Action D → Prop)
    (inv : System → Prop)
    (kept : ∀ (a : Action D) (s s' : System), P a → inv s → a.perform env s = .ok s' → inv s')
    {actions : List (Action D)} (allowed : ∀ a ∈ actions, P a) (start : inv s)
    (h : performAll env actions s = .ok s') : inv s' := by
  induction actions generalizing s with
  | nil =>
    rw [performAll, pure_ok] at h
    exact h ▸ start
  | cons a rest ih =>
    simp only [performAll, bind_ok] at h
    obtain ⟨mid, first, tail⟩ := h
    have next := kept a s mid (allowed a List.mem_cons_self) start first
    exact ih (fun b member => allowed b (List.mem_cons_of_mem _ member)) next tail

end Action

/-- What `executeMatch` reports: its return values and the logs of the router it called. -/
structure Matched where
  fillId : Uint256
  amountOut : Uint256
  events : List Event

namespace InstructionSender

section Guarded

variable (D) (env : External) (caller : Address)

/-- `if (params.tokenIn == fxrp) vault.transferForExecution(..)`. -/
def lockLeg (follower lead tokenIn : Address) (amountIn : Uint256) (s : System) :
    Except Revert System :=
  if tokenIn = D.fxrpToken then
    s.onVault (MirrorVault.transferForExecution D env D.sender follower lead amountIn)
  else return s

/-- `if (params.tokenOut == fxrp) vault.receiveExecutionProceeds(..)`, with its approval. -/
def proceedsLeg (tokenOut : Address) (amountOut : Uint256) (s : System) : Except Revert System :=
  if tokenOut = D.fxrpToken then do
    let s ← s.onToken env D.fxrpToken D.sender (.approve D.vault amountOut.val)
    s.onVault (MirrorVault.receiveExecutionProceeds D env D.sender amountOut)
  else return s

/-- The fill is stored under `nextFillId`, which wraps around. -/
def recordFill (fill : PendingFill) (i : InstructionSender) : InstructionSender :=
  { i with
    nextFillId := i.nextFillId + 1
    pendingFills := Function.update i.pendingFills i.nextFillId fill }

/-- The swap as the router receives it: the proceeds always come back to this contract. -/
def swapParams (exec : MatchExecution) : ExactInputSingleParams :=
  { exec.swap with recipient := D.sender }

def newFill (exec : MatchExecution) (amountOut : Uint256) : PendingFill where
  follower := exec.follower
  lead := exec.lead
  tokenIn := exec.swap.tokenIn
  tokenOut := exec.swap.tokenOut
  amountIn := exec.swap.amountIn
  amountOut := amountOut
  profit := exec.profit
  epochId := exec.epochId
  exists_ := true
  settled := false

def executeMatch (routers : Routers D) (exec : MatchExecution) (s : System) :
    Except Revert (System × Matched) := do
  s.sender.onlyAuthorizedExecutor caller
  revertIf (s.sender.swapRouter = 0) .routerNotSet
  let params := swapParams D exec
  let s ← lockLeg D env exec.follower exec.lead params.tokenIn params.amountIn s
  let s ← s.onToken env params.tokenIn D.sender (.approve s.sender.swapRouter params.amountIn.val)
  -- the router is foreign code: it may call any entry point that is not guarded
  let reply ← orRevert (routers s.sender.swapRouter params) .routerReverted
  let s ← Action.performAll env reply.actions s
  let s ← proceedsLeg D env params.tokenOut reply.amountOut s
  return ({ s with sender := s.sender.recordFill (newFill exec reply.amountOut) },
    ⟨s.sender.nextFillId, reply.amountOut, reply.events⟩)

/-- The checks of `applyFdcSettlement` before it writes anything. -/
def admitProof (fillId : Uint256) (proof : Proof) (i : InstructionSender) :
    Except Revert Unit := do
  i.onlyAuthorizedExecutor caller
  revertIf (i.fdcVerifier = 0) .fdcVerifierNotSet
  let fill := i.pendingFills fillId
  revertIf (fill.exists_ = false) .fillNotFound
  revertIf (fill.settled = true) .fillAlreadySettled
  revertIf (env.verifyEVMTransaction i.fdcVerifier proof = false) .invalidProof
  let txHash := proof.data.requestBody.transactionHash
  revertIf (txHash = 0) .invalidProof
  revertIf (i.usedProofTxHashes txHash = true) .proofAlreadyUsed
  revertIf (proof.data.responseBody.status ≠ 1) .invalidProof
  revertIf (proof.data.responseBody.receivingAddress ≠ D.sender) .proofMismatch
  -- the router configured now, whoever executed the fill
  matchSwapEvent i.swapRouter fill proof.data.responseBody.events

/-- `usedProofTxHashes[txHash] = true; fill.settled = true;`. -/
def markSettled (fillId : Uint256) (txHash : Bytes32) (i : InstructionSender) :
    InstructionSender :=
  { i with
    usedProofTxHashes := Function.update i.usedProofTxHashes txHash true
    pendingFills := Function.update i.pendingFills fillId
      { i.pendingFills fillId with settled := true } }

/-- The signed change a fill makes to its sub-account. -/
def fillDelta (fill : PendingFill) : Except Revert Int256 :=
  if fill.tokenIn = D.fxrpToken then
    orRevert (Int256.ofUint256 fill.amountIn).checkedNeg .panic
  else if fill.tokenOut = D.fxrpToken then return Int256.ofUint256 fill.amountOut
  else return 0

/-- `if (delta != 0) vault.settleFromProof(..)`. -/
def vaultLeg (fill : PendingFill) (s : System) : Except Revert System := do
  let delta ← fillDelta D fill
  if delta ≠ 0 then
    s.onVault (MirrorVault.settleFromProof D.sender fill.follower fill.lead delta)
  else return s

/-- The fee is accrued and released in one go. -/
def feeLeg (fill : PendingFill) (proof : Proof) (s : System) :
    Except Revert (System × List FeeAccrued) :=
  if 0 < fill.profit then do
    let accrual ← s.fee.accrueFee s.registry D.sender fill.lead fill.follower fill.profit
      fill.epochId
    let s := { s with fee := accrual.fee }
    if 0 < accrual.netFee then do
      let s ← s.onFee (MirrorFee.releaseFee D env D.sender proof fill.lead accrual.netFee)
      return (s, accrual.event.toList)
    else return (s, accrual.event.toList)
  else return (s, [])

def applyFdcSettlement (fillId : Uint256) (proof : Proof) (s : System) :
    Except Revert (System × List FeeAccrued) := do
  admitProof D env caller fillId proof s.sender
  -- `delta`, fee and profit are read from the fill as it was recorded
  let fill := s.sender.pendingFills fillId
  let s := { s with
    sender := s.sender.markSettled fillId proof.data.requestBody.transactionHash }
  let s ← vaultLeg D fill s
  feeLeg D env fill proof s

def settleBatch (settlements : List Settlement) (nonce : Uint256) (s : System) :
    Except Revert System := do
  s.sender.onlyAuthorizedExecutor caller
  let sender ← s.sender.validateAndConsumeNonce nonce
  { s with sender }.onVault (MirrorVault.settleBatch D.sender settlements)

/-- The loop of `accrueFees`. -/
def accrueEach : List FeeAccrual → System → Except Revert (System × List FeeAccrued)
  | [], s => return (s, [])
  | a :: rest, s => do
    let accrual ← s.fee.accrueFee s.registry D.sender a.lead a.follower a.profit a.epochId
    let (s, events) ← accrueEach rest { s with fee := accrual.fee }
    return (s, accrual.event.toList ++ events)

def accrueFees (accruals : List FeeAccrual) (nonce : Uint256) (s : System) :
    Except Revert (System × List FeeAccrued) := do
  s.sender.onlyAuthorizedExecutor caller
  let sender ← s.sender.validateAndConsumeNonce nonce
  accrueEach D accruals { s with sender }

def finalizeWithdrawal (follower lead : Address) (nonce : Uint256) (s : System) :
    Except Revert System := do
  s.sender.onlyAuthorizedExecutor caller
  let sender ← s.sender.validateAndConsumeNonce nonce
  { s with sender }.onVault (MirrorVault.finalizeWithdrawal D env D.sender follower lead)

end Guarded

end InstructionSender

/-! ### Transactions -/

inductive Call
  | entry (e : Entry)
  | executeMatch (exec : MatchExecution)
  | applyFdcSettlement (fillId : Uint256) (proof : Proof)
  | settleBatch (settlements : List Settlement) (nonce : Uint256)
  | accrueFees (accruals : List FeeAccrual) (nonce : Uint256)
  | finalizeWithdrawal (follower lead : Address) (nonce : Uint256)

/-- A transaction: an outsider's call, and how code outside the repository answers during it. -/
structure Tx (D : Deployment) where
  hash : Bytes32
  caller : Outsider D
  call : Call
  env : External
  routers : Routers D

/-- A successful `executeMatch`, as the chain remembers it. -/
structure Execution where
  txHash : Bytes32
  router : Address
  fillId : Uint256
  fill : PendingFill
  events : List Event
  deriving DecidableEq

inductive Outcome
  | reverted
  | done
  | matched (e : Execution)
  | settled (fillId : Uint256) (proof : Proof) (fees : List FeeAccrued)
  | accrued (fees : List FeeAccrued)

def Outcome.execution : Outcome → Option Execution
  | .matched e => some e
  | _ => none

/-- Fees accrued in the transaction. -/
def Outcome.fees : Outcome → List FeeAccrued
  | .settled _ _ fees => fees
  | .accrued fees => fees
  | _ => []

structure Receipt (D : Deployment) where
  tx : Tx D
  outcome : Outcome

/-- Contract storage and the receipts of all transactions so far, newest first. -/
structure Chain (D : Deployment) where
  sys : System
  history : List (Receipt D)

namespace Tx

def perform (tx : Tx D) (s : System) : Except Revert (System × Outcome) :=
  match tx.call with
  | .entry e => do
    let s ← Action.perform tx.env ⟨tx.caller, e⟩ s
    return (s, .done)
  | .executeMatch exec => do
    let (s', m) ← InstructionSender.executeMatch D tx.env tx.caller.addr tx.routers exec s
    return (s', .matched ⟨tx.hash, s.sender.swapRouter, m.fillId,
      InstructionSender.newFill exec m.amountOut, m.events⟩)
  | .applyFdcSettlement fillId proof => do
    let (s, fees) ← InstructionSender.applyFdcSettlement D tx.env tx.caller.addr fillId proof s
    return (s, .settled fillId proof fees)
  | .settleBatch settlements nonce => do
    let s ← InstructionSender.settleBatch D tx.caller.addr settlements nonce s
    return (s, .done)
  | .accrueFees accruals nonce => do
    let (s, fees) ← InstructionSender.accrueFees D tx.caller.addr accruals nonce s
    return (s, .accrued fees)
  | .finalizeWithdrawal follower lead nonce => do
    let s ← InstructionSender.finalizeWithdrawal D tx.env tx.caller.addr follower lead nonce s
    return (s, .done)

def outcome (tx : Tx D) (s : System) : Outcome :=
  match tx.perform s with
  | .ok (_, o) => o
  | .error _ => .reverted

end Tx

/-- A transaction that reverts leaves storage as it was. -/
def Chain.step (c : Chain D) (tx : Tx D) : Chain D :=
  match tx.perform c.sys with
  | .ok (s, outcome) => ⟨s, ⟨tx, outcome⟩ :: c.history⟩
  | .error _ => ⟨c.sys, ⟨tx, .reverted⟩ :: c.history⟩

/-- Executions not settled yet, newest first. A settlement takes the latest fill of its id. -/
def openExecutions : List (Receipt D) → List Execution
  | [] => []
  | r :: rest =>
    match r.outcome with
    | .matched e => e :: openExecutions rest
    -- ids wrap around, so the latest fill of an id is the one in storage
    | .settled fillId _ _ => (openExecutions rest).eraseP (fun e => e.fillId = fillId)
    | _ => openExecutions rest

/-- How many fills were ever created. -/
def fillCount : List (Receipt D) → ℕ
  | [] => 0
  | r :: rest =>
    match r.outcome with
    | .matched _ => fillCount rest + 1
    | _ => fillCount rest

/-! ### A chain to evaluate the model on -/

namespace Sample

/-- Constructed and wired. -/
def chain : Chain deployment where
  sys := {
    ledger := ledger
    vault := { MirrorVault.deployed owner with instructionSender := deployment.sender }
    fee := { MirrorFee.deployed owner with instructionSender := deployment.sender }
    registry := MirrorRegistry.deployed owner
    sender := InstructionSender.deployed executor owner }
  history := []

/-- Swaps one for one. -/
def routers : Routers deployment := fun r params =>
  if r = router ∧ params.tokenIn ≠ params.tokenOut then
    some (exactReply (outsider router) params params.amountIn)
  else none

def tx (hash : Bytes32) (caller : Address) [Fact (caller ∉ deployment.reserved)] (call : Call) :
    Tx deployment :=
  ⟨hash, outsider caller, call, external fun _ => false, routers⟩

/-- A settlement whose verifier accepts this one proof. -/
def settle (hash : Bytes32) (fillId : Uint256) (proof : Proof) : Tx deployment :=
  ⟨hash, outsider executor, .applyFdcSettlement fillId proof, external fun p => p = proof,
    routers⟩

def configure : List (Tx deployment) :=
  [tx 1 owner (.entry (.sender (.setSwapRouter router))),
    tx 2 owner (.entry (.sender (.setFdcVerifier verifier)))]

def swap (tokenIn tokenOut : Address) (amountIn : Uint256) : ExactInputSingleParams :=
  ⟨tokenIn, tokenOut, 500, deployment.sender, 0, amountIn, 0, 0⟩

/-- The transaction `hash` of a swap, attested by the chain `source`. -/
def proof (source hash : Bytes32) (params : ExactInputSingleParams) : Proof :=
  ⟨source, ⟨hash⟩, ⟨deployment.sender, 1,
    [swapLog router deployment.sender params params.amountIn]⟩⟩

/-- Alice's FXRP goes out and, in part, comes back; bob sends the vault a gift on the way. -/
def trade : List (Tx deployment) :=
  configure ++ [
    tx 3 alice (.entry (.vault (.deposit lead 100))),
    tx 4 executor (.executeMatch ⟨alice, lead, swap deployment.fxrpToken usdt0 60, 0, 0⟩),
    tx 5 bob (.entry (.token deployment.fxrpToken (.transfer deployment.vault 5))),
    settle 6 0 (proof 1 4 (swap deployment.fxrpToken usdt0 60)),
    tx 7 executor (.executeMatch ⟨alice, lead, swap usdt0 deployment.fxrpToken 20, 0, 0⟩),
    tx 8 alice (.entry (.vault (.requestWithdrawal lead 30))),
    tx 9 executor (.finalizeWithdrawal alice lead 0)]

end Sample

end Mirror
