import Mirror.Contracts.Vault
import Mirror.Contracts.Registry
import Mirror.Evm.Run

/-!
`MirrorFsaOnboarder`: a follower is registered, follows a lead and deposits in one call. The
contract itself only passes FXRP on; what it changes is in the registry, the vault and the token.
-/
namespace Mirror

open Evm

/-- The contracts that an onboarding writes, and the tokens. -/
structure Onboarding where
  ledger : Ledger
  vault : MirrorVault
  registry : MirrorRegistry

/-- A transaction that somebody sends to one of the contracts or to a token. -/
inductive OnboardingCall
  | token (address : Address) (call : TokenCall Address)
  | vault (call : VaultCall)
  | registry (call : RegistryCall)
  | onboard (lead : Address) (amount : Uint256) (riskProfile : Uint8)

structure OnboardingTx where
  caller : Address
  call : OnboardingCall
  env : External

namespace MirrorFsaOnboarder

section

variable (D : Deployment) (env : External) (onboarder : Address)

/-- `if (!profile.registered) registry.registerFollowerAs(..)`. -/
def registerLeg (follower : Address) (riskProfile : Uint8) (r : MirrorRegistry) :
    Except Revert MirrorRegistry :=
  if (r.getFollower follower).registered = false then
    r.call onboarder (.registerFollowerAs follower riskProfile)
  else return r

/-- `if (!alloc.active) registry.followLeadAs(..)`. -/
def followLeg (follower lead : Address) (amount : Uint256) (r : MirrorRegistry) :
    Except Revert MirrorRegistry :=
  if (r.getFollowAllocation follower lead).active = false then
    r.call onboarder (.followLeadAs follower lead amount)
  else return r

/-- The FXRP comes in, the vault is approved and pulls it. -/
def depositLeg (follower lead : Address) (amount : Uint256) (c : Custody) :
    Except Revert Custody := do
  let ledger ← c.ledger.call env D.fxrpToken onboarder
    (.transferFrom follower onboarder amount.val)
  -- the vault pulls exactly this, so nothing of the allowance is left
  let ledger ← ledger.call env D.fxrpToken onboarder (.approve D.vault amount.val)
  MirrorVault.call D env onboarder ⟨ledger, c.vault⟩ (.depositFor follower lead amount)

def onboard (caller lead : Address) (amount : Uint256) (riskProfile : Uint8) (s : Onboarding) :
    Except Revert Onboarding := do
  revertIf (amount = 0) .zeroAmount
  revertIf (lead = 0) .zeroAddress
  let leadInfo := s.registry.getLead lead
  revertIf (leadInfo.wallet = 0) .invalidLead
  revertIf (amount < leadInfo.minAllocation) .allocationBelowMinimum
  -- who is registered, or follows already, is left as it is: the terms stay frozen
  let registry ← registerLeg onboarder caller riskProfile s.registry
  let registry ← followLeg onboarder caller lead amount registry
  let custody ← depositLeg D env onboarder caller lead amount ⟨s.ledger, s.vault⟩
  return ⟨custody.ledger, custody.vault, registry⟩

end

end MirrorFsaOnboarder

namespace Onboarding

variable (D : Deployment) (onboarder : Address)

/-- The contracts and the tokens just deployed, whoever holds what. -/
def Deployed (s : Onboarding) : Prop :=
  (∃ owner, s.vault = MirrorVault.deployed owner) ∧
    ∃ owner, s.registry = MirrorRegistry.deployed owner

def perform (tx : OnboardingTx) (s : Onboarding) : Except Revert Onboarding :=
  match tx.call with
  | .token address c => do
    let ledger ← s.ledger.call tx.env address tx.caller c
    return { s with ledger }
  | .vault c => do
    let custody ← MirrorVault.call D tx.env tx.caller ⟨s.ledger, s.vault⟩ c
    return { s with ledger := custody.ledger, vault := custody.vault }
  | .registry c => do
    let registry ← s.registry.call tx.caller c
    return { s with registry }
  | .onboard lead amount riskProfile =>
    MirrorFsaOnboarder.onboard D tx.env onboarder tx.caller lead amount riskProfile s

/-- A transaction that reverts changes nothing. -/
def step (s : Onboarding) (tx : OnboardingTx) : Onboarding :=
  match s.perform D onboarder tx with
  | .ok s' => s'
  | .error _ => s

end Onboarding

end Mirror
