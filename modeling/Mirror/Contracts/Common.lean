import Mirror.Evm.Abi
import Mirror.Evm.Token

/-! What the contracts share: addresses, errors, tokens and attested transactions. -/
namespace Mirror

open Evm

/-- Addresses fixed by the constructors. Contracts live at different non-zero addresses. -/
structure Deployment where
  fxrpToken : Address
  vault : Address
  fee : Address
  registry : Address
  sender : Address
  distinct : [0, vault, fee, registry, sender].Nodup

namespace Deployment

/-- Addresses that never originate a call: the contracts only make the calls in their code. -/
def reserved (D : Deployment) : List Address := [0, D.vault, D.fee, D.registry, D.sender]

/-- Who is outside is none of the contracts. -/
theorem ne_vault (D : Deployment) {a : Address} (outside : a ∉ D.reserved) : a ≠ D.vault := by
  rintro rfl
  simp [reserved] at outside

theorem ne_fee (D : Deployment) {a : Address} (outside : a ∉ D.reserved) : a ≠ D.fee := by
  rintro rfl
  simp [reserved] at outside

theorem ne_sender (D : Deployment) {a : Address} (outside : a ∉ D.reserved) : a ≠ D.sender := by
  rintro rfl
  simp [reserved] at outside

theorem sender_ne_vault (D : Deployment) : D.sender ≠ D.vault := by
  have := D.distinct
  simp at this
  tauto

theorem sender_ne_fee (D : Deployment) : D.sender ≠ D.fee := by
  have := D.distinct
  simp at this
  tauto

theorem fee_ne_vault (D : Deployment) : D.fee ≠ D.vault := by
  have := D.distinct
  simp at this
  tauto

end Deployment

/-- An account outside the protocol, the only kind that starts a call. -/
structure Outsider (D : Deployment) where
  addr : Address
  outside : addr ∉ D.reserved

namespace Outsider

variable {D : Deployment} (who : Outsider D)

theorem ne_vault : who.addr ≠ D.vault := D.ne_vault who.outside

theorem ne_fee : who.addr ≠ D.fee := D.ne_fee who.outside

theorem ne_sender : who.addr ≠ D.sender := D.ne_sender who.outside

end Outsider

/-- Revert reasons. `panic` is a failed arithmetic check, `tokenReverted`, `routerReverted` and
`priceSourceReverted` a revert that bubbles up from a called contract. -/
inductive Revert
  | panic
  | tokenReverted
  | routerReverted
  | ownableUnauthorizedAccount
  | ownableInvalidOwner
  | onlyInstructionSender
  | onlyFsaOnboarder
  | zeroAmount
  | insufficientBalance
  | invalidSettlement
  | duplicateNonce
  | insufficientUnlocked
  | proofRequiredUseSettleFromProof
  | invalidProof
  | proofAlreadyUsed
  | proofRequired
  | fdcVerifierNotSet
  | amountMismatch
  | alreadyRegisteredLead
  | alreadyRegisteredFollower
  | notRegisteredFollower
  | invalidFeeRate
  | allocationBelowMinimum
  | alreadyFollowing
  | notFollowing
  | invalidLead
  | unauthorizedExecutor
  | invalidNonce
  | nonceAlreadyUsed
  | routerNotSet
  | fillNotFound
  | fillAlreadySettled
  | proofMismatch
  | priceSourceReverted
  | deadlineExpired
  | insufficientOutput
  | excessiveInput
  | unsupportedPair
  | invalidAnchorPrice
  | divergenceExceeded (blockPriceWei anchorPriceWei : Uint256)
  | insufficientCollateral
  | insufficientLiquidity
  | healthyPosition
  | zeroAddress
  | noPosition
  | debtOutstanding
  | insufficientShares
  deriving DecidableEq

/-- OpenZeppelin's `onlyOwner`. -/
def onlyOwner (owner caller : Address) : Except Revert Unit :=
  revertIf (caller ≠ owner) .ownableUnauthorizedAccount

/-- The owner after `transferOwnership(newOwner)`. -/
def transferOwnership (owner caller newOwner : Address) : Except Revert Address := do
  onlyOwner owner caller
  revertIf (newOwner = 0) .ownableInvalidOwner
  return newOwner

/-! ### Attested transactions -/

/-- `IEVMTransaction.Event`. -/
structure Event where
  emitterAddress : Address
  topics : List Bytes32
  data : List Byte
  removed : Bool
  deriving DecidableEq

structure RequestBody where
  transactionHash : Bytes32
  deriving DecidableEq

structure ResponseBody where
  receivingAddress : Address
  status : Uint8
  events : List Event
  deriving DecidableEq

structure ProofData where
  sourceId : Bytes32
  requestBody : RequestBody
  responseBody : ResponseBody
  deriving DecidableEq

/-- `IEVMTransaction.Proof`, with the fields a contract reads and the chain it names. -/
structure Proof where
  data : ProofData
  deriving DecidableEq

/-! ### Code outside the repository -/

/-- What tokens and verifiers answer during one transaction. A token may refuse any call;
a call it accepts does exactly what ERC-20 says. -/
structure External where
  refuses : Address → Address → TokenCall Address → Bool
  verifyEVMTransaction : Address → Proof → Bool

/-- The tokens by address. -/
abbrev Ledger := Address → Token Address

namespace Ledger

/-- `who` calls the token at `token`. -/
def call (env : External) (token who : Address) (c : TokenCall Address) (L : Ledger) :
    Except Revert Ledger := do
  revertIf (env.refuses token who c = true) .tokenReverted
  let t ← orRevert ((L token).perform who c) .tokenReverted
  return Function.update L token t

theorem call_ok (env : External) (token who : Address) (c : TokenCall Address) (L L' : Ledger) :
    L.call env token who c = .ok L' ↔
      env.refuses token who c = false ∧
        ∃ t, (L token).perform who c = some t ∧ L' = Function.update L token t := by
  simp only [call, bind_ok, revertIf_ok, orRevert_ok, pure_ok, exists_const, Bool.not_eq_true,
    eq_comm (a := L')]

theorem call_error (env : External) (token who : Address) (c : TokenCall Address) (L : Ledger)
    (e : Revert) :
    L.call env token who c = .error e ↔
      e = .tokenReverted ∧
        (env.refuses token who c = true ∨ (L token).perform who c = none) := by
  simp only [call, bind_error, revertIf_error, revertIf_ok, orRevert_error, orRevert_ok,
    pure_error, exists_const, and_false, eq_comm (a := e)]
  -- a token that refuses is not asked what it would have done
  cases env.refuses token who c <;> simp [and_comm]

/-- Other tokens do not notice. -/
theorem call_other {env : External} {token who other : Address} {c : TokenCall Address}
    {L L' : Ledger} (h : L.call env token who c = .ok L') (ne : other ≠ token) :
    L' other = L other := by
  obtain ⟨-, t, -, rfl⟩ := (call_ok _ _ _ _ _ _).mp h
  exact Function.update_of_ne ne _ _

theorem call_same {env : External} {token who : Address} {c : TokenCall Address}
    {L L' : Ledger} (h : L.call env token who c = .ok L') :
    (L token).perform who c = some (L' token) := by
  obtain ⟨-, t, performed, rfl⟩ := (call_ok _ _ _ _ _ _).mp h
  simpa using performed

/-- In any token nobody gains more than the call credits. -/
theorem call_inflow {env : External} {token who : Address} {c : TokenCall Address}
    {L L' : Ledger} (h : L.call env token who c = .ok L') (t x : Address) :
    (L' t).balanceOf x ≤ (L t).balanceOf x + (if token = t then c.inflow x else 0) := by
  -- the token that is called, or another one
  by_cases same : token = t
  · subst same
    simpa using Token.perform_inflow _ _ _ x _ (call_same h)
  · rw [call_other h (Ne.symm same)]
    exact Nat.le_add_right _ _

/-- A holder that neither calls nor has approved the caller only receives, in any token. -/
theorem call_bystander {env : External} {token who x t : Address} {c : TokenCall Address}
    {L L' : Ledger} (h : L.call env token who c = .ok L') (other : who ≠ x)
    (closed : (L t).allowance x who = 0) :
    (L' t).balanceOf x = (L t).balanceOf x + (if token = t then c.inflow x else 0) ∧
      (L' t).allowance x = (L t).allowance x := by
  by_cases same : token = t
  · subst same
    simpa using Token.perform_bystander _ _ _ _ _ (call_same h) other closed
  · rw [call_other h (Ne.symm same)]
    simp [same]

end Ledger

/-! ### A deployment to evaluate the model on -/

namespace Sample

/-- FXRP lives at 1, the contracts at 2 to 5. -/
def deployment : Deployment := ⟨1, 2, 3, 4, 5, by decide⟩

def usdt0 : Address := 6
def router : Address := 7
def verifier : Address := 8
def owner : Address := 9
def executor : Address := 10
def lead : Address := 11
def alice : Address := 12
def bob : Address := 13

instance router_outside : Fact (router ∉ deployment.reserved) := ⟨by decide⟩
instance owner_outside : Fact (owner ∉ deployment.reserved) := ⟨by decide⟩
instance executor_outside : Fact (executor ∉ deployment.reserved) := ⟨by decide⟩
instance lead_outside : Fact (lead ∉ deployment.reserved) := ⟨by decide⟩
instance alice_outside : Fact (alice ∉ deployment.reserved) := ⟨by decide⟩
instance bob_outside : Fact (bob ∉ deployment.reserved) := ⟨by decide⟩

def outsider (a : Address) [outside : Fact (a ∉ deployment.reserved)] : Outsider deployment :=
  ⟨a, outside.out⟩

/-- The token after `calls`, those that fail being skipped. -/
def token (calls : List (Address × TokenCall Address)) : Token Address :=
  calls.foldl (fun t (who, c) => (t.perform who c).getD t) Token.empty

/-- Both followers hold 100 FXRP and let the vault pull it; the router holds both tokens. -/
def ledger : Ledger := fun t =>
  if t = deployment.fxrpToken then
    token [(alice, .mint alice 100), (bob, .mint bob 100), (router, .mint router 1000),
      (alice, .approve deployment.vault 100), (bob, .approve deployment.vault 100)]
  else if t = usdt0 then token [(router, .mint router 1000)]
  else Token.empty

/-- Tokens that never refuse. -/
def external (accepts : Proof → Bool) : External where
  refuses _ _ _ := false
  verifyEVMTransaction v proof := v == verifier && accepts proof

end Sample

end Mirror
