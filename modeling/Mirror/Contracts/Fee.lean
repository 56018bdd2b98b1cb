import Mirror.Contracts.Registry

/-! `MirrorFee`: fees accrue per lead and leave only against an attested transaction. -/
namespace Mirror

open Evm

def protocolFeeBps : Uint256 := 1000
def maxLeadFeeBps : ℕ := 2000
def bpsDenominator : ℕ := 10000

structure MirrorFee where
  owner : Address
  instructionSender : Address
  fdcVerifier : Address
  accruedFees : Address → Uint256
  usedProofs : Bytes32 → Bool

/-- The event `FeeAccrued`. -/
structure FeeAccrued where
  lead : Address
  follower : Address
  grossFee : Uint256
  protocolFee : Uint256
  netFee : Uint256
  epochId : Uint256
  deriving DecidableEq

/-- What `accrueFee` leaves behind: storage, its return value and the event, if it emits one. -/
structure Accrual where
  fee : MirrorFee
  netFee : Uint256
  event : Option FeeAccrued

/-- The fee contract together with the tokens it calls. -/
structure Treasury where
  ledger : Ledger
  fee : MirrorFee

inductive FeeCall
  | setInstructionSender (sender : Address)
  | setFdcVerifier (verifier : Address)
  | accrueFee (lead follower : Address) (profit epochId : Uint256)
  | claim (lead : Address)
  | releaseFee (proof : Proof) (lead : Address) (amount : Uint256)
  | transferOwnership (newOwner : Address)
  | renounceOwnership

/-- `uint256(feeRateBps)`. -/
def widen (rate : Uint16) : Uint256 := ⟨rate.val, by omega⟩

@[simp] theorem widen_val (rate : Uint16) : (widen rate).val = rate.val := rfl

namespace MirrorFee

/-- Storage of a fee contract just constructed. -/
def deployed (initialOwner : Address) : MirrorFee where
  owner := initialOwner
  instructionSender := 0
  fdcVerifier := 0
  accruedFees _ := 0
  usedProofs _ := false

def onlyInstructionSender (m : MirrorFee) (caller : Address) : Except Revert Unit :=
  revertIf (caller ≠ m.instructionSender) .onlyInstructionSender

/-- `(profit * feeRateBps) / MAX_LEAD_FEE_BPS`. -/
def grossFee (profit : Uint256) (rate : Uint16) : Except Revert Uint256 := do
  let product ← orRevert (checkedMul profit (widen rate)) .panic
  return quotient product maxLeadFeeBps

/-- `(grossFee * PROTOCOL_FEE_BPS) / BPS_DENOMINATOR`. -/
def protocolFee (gross : Uint256) : Except Revert Uint256 := do
  let product ← orRevert (checkedMul gross protocolFeeBps) .panic
  return quotient product bpsDenominator

def quoteNetFee (registry : MirrorRegistry) (lead : Address) (profit : Uint256) :
    Except Revert Uint256 :=
  if profit = 0 then return 0
  else
    let leadTrader := registry.getLead lead
    if leadTrader.wallet = 0 then return 0
    else do
      let gross ← grossFee profit leadTrader.feeRateBps
      if gross = 0 then return 0
      else do
        let protocol ← protocolFee gross
        orRevert (checkedSub gross protocol) .panic

def accrueFee (registry : MirrorRegistry) (caller lead follower : Address)
    (profit epochId : Uint256) (m : MirrorFee) : Except Revert Accrual := do
  m.onlyInstructionSender caller
  revertIf (profit = 0) .zeroAmount
  let leadTrader := registry.getLead lead
  revertIf (leadTrader.wallet = 0) .zeroAmount
  let gross ← grossFee profit leadTrader.feeRateBps
  -- a fee that rounds to zero is no error: nothing is booked, no event is emitted
  if gross = 0 then return ⟨m, 0, none⟩
  else do
    let protocol ← protocolFee gross
    let net ← orRevert (checkedSub gross protocol) .panic
    let accrued ← orRevert (checkedAdd (m.accruedFees lead) net) .panic
    return {
      fee := { m with accruedFees := Function.update m.accruedFees lead accrued }
      netFee := net
      event := some ⟨lead, follower, gross, protocol, net, epochId⟩ }

def releaseFee (D : Deployment) (env : External) (caller : Address) (proof : Proof)
    (lead : Address) (amount : Uint256) (t : Treasury) : Except Revert Treasury := do
  t.fee.onlyInstructionSender caller
  revertIf (t.fee.fdcVerifier = 0) .fdcVerifierNotSet
  revertIf (amount = 0) .zeroAmount
  revertIf (env.verifyEVMTransaction t.fee.fdcVerifier proof = false) .invalidProof
  let txHash := proof.data.requestBody.transactionHash
  revertIf (txHash = 0) .invalidProof
  revertIf (t.fee.usedProofs txHash = true) .proofAlreadyUsed
  revertIf (proof.data.responseBody.status ≠ 1) .invalidProof
  revertIf (t.fee.accruedFees lead < amount) .amountMismatch
  -- `accruedFees[lead] -= amount`, checked a second time
  let accrued ← orRevert (checkedSub (t.fee.accruedFees lead) amount) .panic
  let ledger ← t.ledger.call env D.fxrpToken D.fee (.transfer lead amount.val)
  return {
    ledger
    fee := { t.fee with
      usedProofs := Function.update t.fee.usedProofs txHash true
      accruedFees := Function.update t.fee.accruedFees lead accrued } }

/-- A call by `caller` to the fee contract. -/
def call (D : Deployment) (env : External) (registry : MirrorRegistry) (caller : Address)
    (t : Treasury) : FeeCall → Except Revert Treasury
  | .setInstructionSender sender => do
    onlyOwner t.fee.owner caller
    return { t with fee := { t.fee with instructionSender := sender } }
  | .setFdcVerifier verifier => do
    onlyOwner t.fee.owner caller
    return { t with fee := { t.fee with fdcVerifier := verifier } }
  | .accrueFee lead follower profit epochId => do
    let accrual ← t.fee.accrueFee registry caller lead follower profit epochId
    return { t with fee := accrual.fee }
  | .claim _ => .error .proofRequired
  | .releaseFee proof lead amount => releaseFee D env caller proof lead amount t
  | .transferOwnership newOwner => do
    let owner ← Mirror.transferOwnership t.fee.owner caller newOwner
    return { t with fee := { t.fee with owner } }
  | .renounceOwnership => do
    onlyOwner t.fee.owner caller
    return { t with fee := { t.fee with owner := 0 } }

end MirrorFee

end Mirror
