import Mirror.Contracts.Vault
import Mirror.Contracts.Fee

/-! `InstructionSender`: storage, configuration and the event match of a settlement. -/
namespace Mirror

open Evm

/-- `ISwapRouter.ExactInputSingleParams`. -/
structure ExactInputSingleParams where
  tokenIn : Address
  tokenOut : Address
  fee : Uint24
  recipient : Address
  deadline : Uint256
  amountIn : Uint256
  amountOutMinimum : Uint256
  sqrtPriceLimitX96 : Uint160
  deriving DecidableEq

structure FeeAccrual where
  lead : Address
  follower : Address
  profit : Uint256
  epochId : Uint256

structure PendingFill where
  follower : Address
  lead : Address
  tokenIn : Address
  tokenOut : Address
  amountIn : Uint256
  amountOut : Uint256
  profit : Uint256
  epochId : Uint256
  exists_ : Bool
  settled : Bool
  deriving DecidableEq

structure MatchExecution where
  follower : Address
  lead : Address
  swap : ExactInputSingleParams
  profit : Uint256
  epochId : Uint256

structure InstructionSender where
  owner : Address
  authorizedExecutor : Address
  batchNonce : Uint256
  usedBatchNonces : Uint256 → Bool
  swapRouter : Address
  fdcVerifier : Address
  nextFillId : Uint256
  pendingFills : Uint256 → PendingFill
  usedProofTxHashes : Bytes32 → Bool

/-- Entry points without the reentrancy guard. -/
inductive SenderCall
  | setAuthorizedExecutor (executor : Address)
  | setSwapRouter (router : Address)
  | setFdcVerifier (verifier : Address)
  | transferOwnership (newOwner : Address)
  | renounceOwnership

/-- `keccak256("Swap(address,address,address,address,uint256,uint256)")`. -/
def swapTopic0 : Bytes32 := 0x20efd6d5195b7b50273f01cd79a27989255356f9f13293edc53ee142accfdb75

namespace InstructionSender

/-- Storage of an instruction sender just constructed. -/
def deployed (authorizedExecutor initialOwner : Address) : InstructionSender where
  owner := initialOwner
  authorizedExecutor := authorizedExecutor
  batchNonce := 0
  usedBatchNonces _ := false
  swapRouter := 0
  fdcVerifier := 0
  nextFillId := 0
  pendingFills _ := ⟨0, 0, 0, 0, 0, 0, 0, 0, false, false⟩
  usedProofTxHashes _ := false

def onlyAuthorizedExecutor (i : InstructionSender) (caller : Address) : Except Revert Unit :=
  revertIf (caller ≠ i.authorizedExecutor ∧ caller ≠ i.owner) .unauthorizedExecutor

/-- `_validateAndConsumeNonce`. -/
def validateAndConsumeNonce (nonce : Uint256) (i : InstructionSender) :
    Except Revert InstructionSender := do
  revertIf (nonce ≠ i.batchNonce) .invalidNonce
  revertIf (i.usedBatchNonces nonce = true) .nonceAlreadyUsed
  return { i with
    usedBatchNonces := Function.update i.usedBatchNonces nonce true
    batchNonce := i.batchNonce + 1 }

/-- The words of a `Swap` log against the words of a fill. Addresses are read as words and
compared on their low 160 bits. -/
def checkSwapData (fill : PendingFill) (data : List Byte) : Except Revert Unit := do
  revertIf (data.length < 128) .proofMismatch
  let tokenIn := wordAt data 0 % 2 ^ 160
  let tokenOut := wordAt data 1 % 2 ^ 160
  let amountIn := wordAt data 2
  let amountOut := wordAt data 3
  revertIf (tokenIn ≠ fill.tokenIn.val ∨ tokenOut ≠ fill.tokenOut.val) .proofMismatch
  revertIf (amountIn ≠ fill.amountIn.val ∨ amountOut ≠ fill.amountOut.val) .proofMismatch

/-- `_matchSwapEvent`: the first live `Swap` log of `router` decides. -/
def matchSwapEvent (router : Address) (fill : PendingFill) : List Event → Except Revert Unit
  | [] => .error .proofMismatch
  | ev :: rest =>
    if ev.removed = true ∨ ev.emitterAddress ≠ router then matchSwapEvent router fill rest
    else if ev.topics.head? ≠ some swapTopic0 then matchSwapEvent router fill rest
    -- no later log is tried when this one does not match
    else checkSwapData fill ev.data

/-- A call by `caller` to an unguarded entry point. -/
def call (caller : Address) (i : InstructionSender) : SenderCall → Except Revert InstructionSender
  | .setAuthorizedExecutor executor => do
    onlyOwner i.owner caller
    return { i with authorizedExecutor := executor }
  | .setSwapRouter router => do
    onlyOwner i.owner caller
    return { i with swapRouter := router }
  | .setFdcVerifier verifier => do
    onlyOwner i.owner caller
    return { i with fdcVerifier := verifier }
  | .transferOwnership newOwner => do
    let owner ← Mirror.transferOwnership i.owner caller newOwner
    return { i with owner }
  | .renounceOwnership => do
    onlyOwner i.owner caller
    return { i with owner := 0 }

end InstructionSender

end Mirror
