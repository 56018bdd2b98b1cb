import Mirror.Contracts.Common

/-!
`MirrorVault`: FXRP custody in one sub-account per follower and lead.

Every entry point that moves tokens is `nonReentrant`, and the only foreign code it runs is the
FXRP token, which makes no call of its own; the guard therefore never fires and is not stored.
-/
namespace Mirror

open Evm

structure SubAccount where
  balance : Uint256
  pendingWithdrawal : Uint256
  pendingLocked : Uint256
  deriving DecidableEq

structure Settlement where
  follower : Address
  lead : Address
  balanceDelta : Int256
  nonce : Uint256
  deriving DecidableEq

structure MirrorVault where
  owner : Address
  instructionSender : Address
  fsaOnboarder : Address
  legacySettleBatchEnabled : Bool
  subAccounts : Address → Address → SubAccount
  usedNonces : Address → Uint256 → Bool

/-- The vault together with the tokens it calls. -/
structure Custody where
  ledger : Ledger
  vault : MirrorVault

inductive VaultCall
  | setInstructionSender (sender : Address)
  | setFsaOnboarder (onboarder : Address)
  | setLegacySettleBatchEnabled (enabled : Bool)
  | deposit (lead : Address) (amount : Uint256)
  | depositFor (follower lead : Address) (amount : Uint256)
  | requestWithdrawal (lead : Address) (amount : Uint256)
  | transferForExecution (follower lead : Address) (amount : Uint256)
  | settleFromProof (follower lead : Address) (delta : Int256)
  | receiveExecutionProceeds (amount : Uint256)
  | settleBatch (settlements : List Settlement)
  | finalizeWithdrawal (follower lead : Address)
  | transferOwnership (newOwner : Address)
  | renounceOwnership

namespace MirrorVault

/-- Storage of a vault just constructed. -/
def deployed (initialOwner : Address) : MirrorVault where
  owner := initialOwner
  instructionSender := 0
  fsaOnboarder := 0
  legacySettleBatchEnabled := false
  subAccounts _ _ := ⟨0, 0, 0⟩
  usedNonces _ _ := false

def setAccount (v : MirrorVault) (follower lead : Address) (account : SubAccount) : MirrorVault :=
  { v with
    subAccounts := fun f l => if f = follower ∧ l = lead then account else v.subAccounts f l }

@[simp] theorem setAccount_same (v : MirrorVault) (f l : Address) (account : SubAccount) :
    (v.setAccount f l account).subAccounts f l = account := by
  simp [setAccount]

theorem setAccount_other (v : MirrorVault) {f l f' l' : Address} (account : SubAccount)
    (other : ¬(f' = f ∧ l' = l)) :
    (v.setAccount f l account).subAccounts f' l' = v.subAccounts f' l' := by
  simp [setAccount, other]

def onlyInstructionSender (v : MirrorVault) (caller : Address) : Except Revert Unit :=
  revertIf (caller ≠ v.instructionSender) .onlyInstructionSender

def onlyFsaOnboarder (v : MirrorVault) (caller : Address) : Except Revert Unit :=
  revertIf (caller ≠ v.fsaOnboarder) .onlyFsaOnboarder

def setInstructionSender (caller sender : Address) (c : Custody) : Except Revert Custody := do
  onlyOwner c.vault.owner caller
  return { c with vault := { c.vault with instructionSender := sender } }

def setFsaOnboarder (caller onboarder : Address) (c : Custody) : Except Revert Custody := do
  onlyOwner c.vault.owner caller
  return { c with vault := { c.vault with fsaOnboarder := onboarder } }

def setLegacySettleBatchEnabled (caller : Address) (enabled : Bool) (c : Custody) :
    Except Revert Custody := do
  onlyOwner c.vault.owner caller
  return { c with vault := { c.vault with legacySettleBatchEnabled := enabled } }

section Calls

variable (D : Deployment) (env : External) (caller : Address)

/-- The vault pulls `amount` from `src` and credits the sub-account. -/
def credit (src follower lead : Address) (amount : Uint256) (c : Custody) :
    Except Revert Custody := do
  let ledger ← c.ledger.call env D.fxrpToken D.vault (.transferFrom src D.vault amount.val)
  let account := c.vault.subAccounts follower lead
  let balance ← orRevert (checkedAdd account.balance amount) .panic
  return ⟨ledger, c.vault.setAccount follower lead { account with balance }⟩

def deposit (lead : Address) (amount : Uint256) (c : Custody) : Except Revert Custody := do
  revertIf (amount = 0) .zeroAmount
  credit D env caller caller lead amount c

def depositFor (follower lead : Address) (amount : Uint256) (c : Custody) :
    Except Revert Custody := do
  c.vault.onlyFsaOnboarder caller
  revertIf (amount = 0) .zeroAmount
  revertIf (follower = 0) .invalidSettlement
  credit D env caller follower lead amount c

def requestWithdrawal (lead : Address) (amount : Uint256) (c : Custody) :
    Except Revert Custody := do
  let account := c.vault.subAccounts caller lead
  revertIf (amount = 0) .zeroAmount
  let available ← orRevert (checkedSub account.balance account.pendingLocked) .panic
  revertIf (available < amount) .insufficientBalance
  let balance ← orRevert (checkedSub account.balance amount) .panic
  let pendingWithdrawal ← orRevert (checkedAdd account.pendingWithdrawal amount) .panic
  return { c with
    vault := c.vault.setAccount caller lead { account with balance, pendingWithdrawal } }

def transferForExecution (follower lead : Address) (amount : Uint256) (c : Custody) :
    Except Revert Custody := do
  c.vault.onlyInstructionSender caller
  revertIf (amount = 0) .zeroAmount
  let account := c.vault.subAccounts follower lead
  let available ← orRevert (checkedSub account.balance account.pendingLocked) .panic
  revertIf (available < amount) .insufficientUnlocked
  let pendingLocked ← orRevert (checkedAdd account.pendingLocked amount) .panic
  let ledger ← c.ledger.call env D.fxrpToken D.vault (.transfer caller amount.val)
  return ⟨ledger, c.vault.setAccount follower lead { account with pendingLocked }⟩

def settleFromProof (follower lead : Address) (delta : Int256) (c : Custody) :
    Except Revert Custody := do
  c.vault.onlyInstructionSender caller
  revertIf (follower = 0 ∨ lead = 0) .invalidSettlement
  let account := c.vault.subAccounts follower lead
  if delta.val < 0 then do
    -- `uint256(-delta)`: the negation is checked, the cast is not
    let negated ← orRevert delta.checkedNeg .panic
    let debit := negated.toUint256
    revertIf (account.pendingLocked < debit) .insufficientUnlocked
    revertIf (account.balance < debit) .insufficientBalance
    let pendingLocked ← orRevert (checkedSub account.pendingLocked debit) .panic
    let balance ← orRevert (checkedSub account.balance debit) .panic
    return { c with
      vault := c.vault.setAccount follower lead { account with pendingLocked, balance } }
  else if 0 < delta.val then do
    let balance ← orRevert (checkedAdd account.balance delta.toUint256) .panic
    return { c with vault := c.vault.setAccount follower lead { account with balance } }
  else return c

def receiveExecutionProceeds (amount : Uint256) (c : Custody) : Except Revert Custody := do
  c.vault.onlyInstructionSender caller
  revertIf (amount = 0) .zeroAmount
  let ledger ← c.ledger.call env D.fxrpToken D.vault (.transferFrom caller D.vault amount.val)
  return { c with ledger }

/-- The body of the loop in `settleBatch`. Nothing here looks at `pendingLocked`. -/
def settleOne (s : Settlement) (v : MirrorVault) : Except Revert MirrorVault := do
  revertIf (s.follower = 0 ∨ s.lead = 0) .invalidSettlement
  revertIf (v.usedNonces s.follower s.nonce = true) .duplicateNonce
  -- the nonce is spent whatever the sign of the delta
  let v := { v with
    usedNonces := fun f n => if f = s.follower ∧ n = s.nonce then true else v.usedNonces f n }
  let account := v.subAccounts s.follower s.lead
  if s.balanceDelta.val < 0 then do
    let negated ← orRevert s.balanceDelta.checkedNeg .panic
    let debit := negated.toUint256
    -- the balance alone is compared, the lock is left as it is
    revertIf (account.balance < debit) .insufficientBalance
    let balance ← orRevert (checkedSub account.balance debit) .panic
    return v.setAccount s.follower s.lead { account with balance }
  else if 0 < s.balanceDelta.val then do
    let balance ← orRevert (checkedAdd account.balance s.balanceDelta.toUint256) .panic
    return v.setAccount s.follower s.lead { account with balance }
  else return v

def settleEach : List Settlement → MirrorVault → Except Revert MirrorVault
  | [], v => return v
  | s :: rest, v => do
    let v ← settleOne s v
    settleEach rest v

def settleBatch (settlements : List Settlement) (c : Custody) : Except Revert Custody := do
  c.vault.onlyInstructionSender caller
  revertIf (c.vault.legacySettleBatchEnabled = false) .proofRequiredUseSettleFromProof
  let vault ← settleEach settlements c.vault
  return { c with vault }

def finalizeWithdrawal (follower lead : Address) (c : Custody) : Except Revert Custody := do
  c.vault.onlyInstructionSender caller
  let account := c.vault.subAccounts follower lead
  let amount := account.pendingWithdrawal
  revertIf (amount = 0) .zeroAmount
  let ledger ← c.ledger.call env D.fxrpToken D.vault (.transfer follower amount.val)
  return ⟨ledger, c.vault.setAccount follower lead { account with pendingWithdrawal := 0 }⟩

/-- A call by `caller` to the vault. -/
def call (c : Custody) : VaultCall → Except Revert Custody
  | .setInstructionSender sender => setInstructionSender caller sender c
  | .setFsaOnboarder onboarder => setFsaOnboarder caller onboarder c
  | .setLegacySettleBatchEnabled enabled => setLegacySettleBatchEnabled caller enabled c
  | .deposit lead amount => deposit D env caller lead amount c
  | .depositFor follower lead amount => depositFor D env caller follower lead amount c
  | .requestWithdrawal lead amount => requestWithdrawal caller lead amount c
  | .transferForExecution follower lead amount =>
    transferForExecution D env caller follower lead amount c
  | .settleFromProof follower lead delta => settleFromProof caller follower lead delta c
  | .receiveExecutionProceeds amount => receiveExecutionProceeds D env caller amount c
  | .settleBatch settlements => settleBatch caller settlements c
  | .finalizeWithdrawal follower lead => finalizeWithdrawal D env caller follower lead c
  | .transferOwnership newOwner => do
    let owner ← Mirror.transferOwnership c.vault.owner caller newOwner
    return { c with vault := { c.vault with owner } }
  | .renounceOwnership => do
    onlyOwner c.vault.owner caller
    return { c with vault := { c.vault with owner := 0 } }

end Calls

end MirrorVault

end Mirror
