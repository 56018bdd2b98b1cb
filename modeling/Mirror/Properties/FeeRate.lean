import Mirror.Evm.Run
import Mirror.Refinement.Treasury

/-!
The unit of the fee rate. The registry and the documents count it in basis points of 10000, the
fee contract divides by 2000.
-/
namespace Mirror

open Evm

variable {D : Deployment}

/-- One call to the registry; a revert changes nothing. -/
def registryStep (r : MirrorRegistry) (op : Outsider D × RegistryCall) : MirrorRegistry :=
  match r.call op.1.addr op.2 with
  | .ok r' => r'
  | .error _ => r

theorem registryStep_sound (r : MirrorRegistry) (op : Outsider D × RegistryCall)
    (sound : r.Sound D) : (registryStep r op).Sound D := by
  unfold registryStep
  split
  next r' called => exact MirrorRegistry.call_sound D op.1 r r' op.2 sound called
  next => exact sound

/-- The gross fee of an accrual, as its event reports it. -/
def Accrual.gross (a : Accrual) : ℕ :=
  match a.event with
  | some ev => ev.netFee.val + ev.protocolFee.val
  | none => 0

/-- Net fee and protocol fee add up to the quotient by 2000. -/
theorem accrual_gross {registry : MirrorRegistry} {m : MirrorFee} {caller lead follower : Address}
    {profit epochId : Uint256} {a : Accrual}
    (accrued : m.accrueFee registry caller lead follower profit epochId = .ok a) :
    a.gross = profit.val * (registry.leads lead).feeRateBps.val / 2000 := by
  obtain ⟨-, -, -, -, gross, hg, booked⟩ := MirrorFee.accrueFee_ok.mp accrued
  rw [← hg]
  cases booked with
  | inl nothing =>
    obtain ⟨rfl, rfl⟩ := nothing
    rfl
  | inr something =>
    obtain ⟨-, protocol, net, total, split, -, rfl⟩ := something
    exact split.rest.symm

/-- A quotient by 2000 is a fair share of 10000 only where it vanishes. -/
theorem quotient_within_iff (n : ℕ) : n / 2000 * 10000 ≤ n ↔ n < 2000 := by
  constructor
  · intro within
    -- a fee of at least one is more than twice too high
    by_contra large
    have above : n < n / 2000 * 2000 + 2000 := Nat.lt_div_mul_add (by decide)
    have one : 1 ≤ n / 2000 := by omega
    omega
  · intro small
    have nothing : n / 2000 = 0 := Nat.div_eq_of_lt small
    omega

/-- The fee of a registered lead stays within its rate, and within 20% of the profit, exactly
when it rounds to nothing; it is never more than the whole profit. -/
theorem fee_within_rate_iff (owner : Address) (calls : List (Outsider D × RegistryCall))
    (m : MirrorFee) (caller lead follower : Address) (profit epochId : Uint256) (a : Accrual)
    (accrued : m.accrueFee (run registryStep (MirrorRegistry.deployed owner) calls) caller lead
      follower profit epochId = .ok a) :
    (a.gross * 10000 ≤ profit.val *
          ((run registryStep (MirrorRegistry.deployed owner) calls).leads lead).feeRateBps.val ∧
        a.gross * 5 ≤ profit.val ↔
      profit.val *
        ((run registryStep (MirrorRegistry.deployed owner) calls).leads lead).feeRateBps.val
          < 2000) ∧
      a.gross ≤ profit.val := by
  have sound : (run registryStep (MirrorRegistry.deployed owner) calls).Sound D :=
    run_keeps registryStep_sound _ (MirrorRegistry.deployed_sound D owner) calls
  rw [accrual_gross accrued, quotient_within_iff]
  constructor
  · constructor
    · exact And.left
    · intro small
      refine ⟨small, ?_⟩
      rw [Nat.div_eq_of_lt small]
      omega
  · -- the highest rate takes the profit as a whole
    have bound := Nat.mul_le_mul_left profit.val (sound.rate lead)
    exact Nat.div_le_of_le_mul (by omega)

namespace Sample

/-- A lead registers at this rate. -/
def registered (rate : Uint16) : List (Outsider deployment × RegistryCall) :=
  [(outsider lead, .registerLead 0 rate 0 0)]

def feeContract : MirrorFee :=
  { MirrorFee.deployed owner with instructionSender := deployment.sender }

/-- A profit of 100 at 20%: the protocol gets 10 and the lead 90. -/
def accrual : Accrual where
  fee := { feeContract with accruedFees := Function.update feeContract.accruedFees lead 90 }
  netFee := 90
  event := some ⟨lead, alice, 100, 10, 90, 0⟩

theorem accrual_ok :
    feeContract.accrueFee (run registryStep (MirrorRegistry.deployed owner) (registered 2000))
      deployment.sender lead alice 100 0 = .ok accrual :=
  MirrorFee.accrueFee_ok.mpr ⟨rfl, by decide, by decide +kernel, by decide +kernel, 100,
    by decide +kernel, .inr ⟨by decide, 10, 90, 90, ⟨by decide, by decide, by decide⟩,
      by decide +kernel, rfl⟩⟩

end Sample

theorem fee_within_rate_iff_lead :
    (Sample.accrual.gross * 10000 ≤ 100 * 2000 ∧ Sample.accrual.gross * 5 ≤ 100 ↔
        100 * 2000 < 2000) ∧ Sample.accrual.gross ≤ 100 :=
  fee_within_rate_iff Sample.owner (Sample.registered 2000) Sample.feeContract
    Sample.deployment.sender Sample.lead Sample.alice 100 0 Sample.accrual Sample.accrual_ok

/-- At a rate of 20% the fee is the whole profit. -/
theorem fee_not_within_rate :
    ¬∀ (D : Deployment) (owner : Address) (calls : List (Outsider D × RegistryCall))
      (m : MirrorFee) (caller lead follower : Address) (profit epochId : Uint256) (a : Accrual),
      m.accrueFee (run registryStep (MirrorRegistry.deployed owner) calls) caller lead
        follower profit epochId = .ok a →
      a.gross * 10000 ≤ profit.val *
          ((run registryStep (MirrorRegistry.deployed owner) calls).leads lead).feeRateBps.val ∧
        a.gross * 5 ≤ profit.val := by
  intro always
  have within := always Sample.deployment Sample.owner (Sample.registered 2000) Sample.feeContract
    Sample.deployment.sender Sample.lead Sample.alice 100 0 Sample.accrual Sample.accrual_ok
  revert within
  decide +kernel

end Mirror
