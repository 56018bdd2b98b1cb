import Mirror.Contracts.Fee

/-!
What the fee contract does, call by call: how an accrual is computed, what a release needs and
what neither of them touches.
-/
namespace Mirror

open Evm

/-- `uint256 protocol` and `uint256 net` of a gross fee. -/
structure FeeSplit (gross protocol net : Uint256) : Prop where
  fits : gross.val * 1000 < 2 ^ 256
  share : protocol.val = gross.val * 1000 / 10000
  rest : gross.val = net.val + protocol.val

/-- The whole of a fee that is not zero is protocol fee and net fee. -/
theorem FeeSplit.net_pos {gross protocol net : Uint256} (split : FeeSplit gross protocol net)
    (positive : 0 < gross.val) : 0 < net.val := by
  -- the protocol takes a tenth, rounded down
  have share := split.share
  have rest := split.rest
  omega

theorem FeeSplit.net_eq {gross protocol net : Uint256} (split : FeeSplit gross protocol net) :
    net.val = gross.val - gross.val * 1000 / 10000 := by
  have share := split.share
  have rest := split.rest
  omega

/-- The calls that only change a setting. -/
def FeeCall.isSetting : FeeCall → Bool
  | .setInstructionSender _ | .setFdcVerifier _ | .transferOwnership _ | .renounceOwnership => true
  | _ => false

namespace MirrorFee

variable {D : Deployment} {env : External} {registry : MirrorRegistry} {caller : Address}
  {m m' : MirrorFee}

theorem grossFee_ok (profit : Uint256) (rate : Uint16) (gross : Uint256) :
    grossFee profit rate = .ok gross ↔
      profit.val * rate.val < 2 ^ 256 ∧ gross.val = profit.val * rate.val / 2000 := by
  simp only [grossFee, bind_ok, orRevert_ok, checkedMul_some, pure_ok, widen_val]
  constructor
  · rintro ⟨product, hp, rfl⟩
    have := product.isLt
    exact ⟨by omega, by rw [quotient_val, hp]; rfl⟩
  · rintro ⟨fits, hg⟩
    exact ⟨⟨profit.val * rate.val, fits⟩, rfl, Fin.ext (by rw [quotient_val, hg]; rfl)⟩

theorem protocolFee_ok (gross protocol : Uint256) :
    protocolFee gross = .ok protocol ↔
      gross.val * 1000 < 2 ^ 256 ∧ protocol.val = gross.val * 1000 / 10000 := by
  have bps : protocolFeeBps.val = 1000 := rfl
  simp only [protocolFee, bind_ok, orRevert_ok, checkedMul_some, pure_ok, bps]
  constructor
  · rintro ⟨product, hp, rfl⟩
    have := product.isLt
    exact ⟨by omega, by rw [quotient_val, hp]; rfl⟩
  · rintro ⟨fits, hg⟩
    exact ⟨⟨gross.val * 1000, fits⟩, rfl, Fin.ext (by rw [quotient_val, hg]; rfl)⟩

/-- An accrual that goes through either rounds to nothing or is booked to the lead in full. -/
theorem accrueFee_ok {lead follower : Address} {profit epochId : Uint256} {a : Accrual} :
    m.accrueFee registry caller lead follower profit epochId = .ok a ↔
      caller = m.instructionSender ∧ profit ≠ 0 ∧ (registry.leads lead).wallet ≠ 0 ∧
        profit.val * (registry.leads lead).feeRateBps.val < 2 ^ 256 ∧
        ∃ gross : Uint256,
          gross.val = profit.val * (registry.leads lead).feeRateBps.val / 2000 ∧
          ((gross = 0 ∧ a = ⟨m, 0, none⟩) ∨
            (gross ≠ 0 ∧ ∃ protocol net accrued : Uint256, FeeSplit gross protocol net ∧
              accrued.val = (m.accruedFees lead).val + net.val ∧
              a = ⟨{ m with accruedFees := Function.update m.accruedFees lead accrued }, net,
                some ⟨lead, follower, gross, protocol, net, epochId⟩⟩)) := by
  unfold accrueFee onlyInstructionSender MirrorRegistry.getLead
  simp only [bind_ok, revertIf_ok, exists_const, not_not, grossFee_ok, and_assoc, ne_eq,
    exists_and_left]
  refine and_congr_right fun _ => and_congr_right fun _ => and_congr_right fun _ =>
    and_congr_right fun _ => exists_congr fun gross => and_congr_right fun _ => ?_
  -- a fee that rounds to nothing ends the call, any other is split and booked
  by_cases zero : gross = 0
  · simp only [zero, if_true, pure_ok, true_and, not_true, false_and, or_false, eq_comm (a := a)]
  · simp only [zero, if_false, not_false_eq_true, true_and, false_and, false_or, bind_ok,
      protocolFee_ok, orRevert_ok, checkedSub_some, checkedAdd_some, pure_ok]
    constructor
    · rintro ⟨protocol, ⟨fits, hp⟩, net, hn, accrued, ha, rfl⟩
      exact ⟨protocol, net, ⟨fits, hp, hn⟩, accrued, ha, rfl⟩
    · rintro ⟨protocol, net, ⟨fits, hp, hn⟩, accrued, ha, rfl⟩
      exact ⟨protocol, ⟨fits, hp⟩, net, hn, accrued, ha, rfl⟩

/-- An accrual adds its net fee to what its lead has accrued, and writes nothing else. -/
theorem accrueFee_adds {lead follower : Address} {profit epochId : Uint256} {a : Accrual}
    (h : m.accrueFee registry caller lead follower profit epochId = .ok a) :
    ∃ total : Uint256, total.val = (m.accruedFees lead).val + a.netFee.val ∧
      a.fee = { m with accruedFees := Function.update m.accruedFees lead total } := by
  obtain ⟨-, -, -, -, gross, -, booked⟩ := accrueFee_ok.mp h
  rcases booked with ⟨-, rfl⟩ | ⟨-, protocol, net, total, -, added, rfl⟩
  · refine ⟨m.accruedFees lead, rfl, ?_⟩
    rw [Function.update_eq_self]
  · exact ⟨total, added, rfl⟩

theorem releaseFee_ok {proof : Proof} {lead : Address} {amount : Uint256} {t t' : Treasury} :
    releaseFee D env caller proof lead amount t = .ok t' ↔
      caller = t.fee.instructionSender ∧ t.fee.fdcVerifier ≠ 0 ∧ amount ≠ 0 ∧
        env.verifyEVMTransaction t.fee.fdcVerifier proof = true ∧
        proof.data.requestBody.transactionHash ≠ 0 ∧
        t.fee.usedProofs proof.data.requestBody.transactionHash = false ∧
        proof.data.responseBody.status = 1 ∧
        ∃ (accrued : Uint256) (ledger : Ledger),
          (t.fee.accruedFees lead).val = accrued.val + amount.val ∧
          t.ledger.call env D.fxrpToken D.fee (.transfer lead amount.val) = .ok ledger ∧
          t' = ⟨ledger, { t.fee with
            usedProofs := Function.update t.fee.usedProofs
              proof.data.requestBody.transactionHash true
            accruedFees := Function.update t.fee.accruedFees lead accrued }⟩ := by
  simp only [releaseFee, onlyInstructionSender, bind_ok, revertIf_ok, orRevert_ok,
    checkedSub_some, pure_ok, exists_const, not_not, ne_eq, Bool.not_eq_false, Bool.not_eq_true,
    Fin.lt_def, not_lt, eq_comm (a := t')]
  refine and_congr_right fun _ => and_congr_right fun _ => and_congr_right fun _ =>
    and_congr_right fun _ => and_congr_right fun _ => and_congr_right fun _ =>
    and_congr_right fun _ => ?_
  constructor
  · rintro ⟨-, accrued, ha, ledger, paid, rfl⟩
    exact ⟨accrued, ledger, ha, paid, rfl⟩
  · rintro ⟨accrued, ledger, ha, paid, rfl⟩
    exact ⟨by omega, accrued, ha, ledger, paid, rfl⟩

/-- Tokens and books stay, and so does the wiring unless `op` is its setter. -/
structure SettingOnly (op : FeeCall) (t t' : Treasury) : Prop where
  ledger : t'.ledger = t.ledger
  accrued : t'.fee.accruedFees = t.fee.accruedFees
  used : t'.fee.usedProofs = t.fee.usedProofs
  wired : (∀ sender, op ≠ .setInstructionSender sender) →
    t'.fee.instructionSender = t.fee.instructionSender

theorem call_setting {t t' : Treasury} {op : FeeCall} (setting : op.isSetting = true)
    (h : MirrorFee.call D env registry caller t op = .ok t') : SettingOnly op t t' := by
  cases op with
  | setInstructionSender sender =>
    simp only [call, bind_ok, pure_ok] at h
    obtain ⟨_, -, rfl⟩ := h
    exact ⟨rfl, rfl, rfl, fun other => absurd rfl (other sender)⟩
  | setFdcVerifier verifier =>
    simp only [call, bind_ok, pure_ok] at h
    obtain ⟨_, -, rfl⟩ := h
    exact ⟨rfl, rfl, rfl, fun _ => rfl⟩
  | transferOwnership newOwner =>
    simp only [call, bind_ok, pure_ok] at h
    obtain ⟨_, -, rfl⟩ := h
    exact ⟨rfl, rfl, rfl, fun _ => rfl⟩
  | renounceOwnership =>
    simp only [call, bind_ok, pure_ok] at h
    obtain ⟨_, -, rfl⟩ := h
    exact ⟨rfl, rfl, rfl, fun _ => rfl⟩
  | accrueFee | claim | releaseFee =>
    -- these write the books
    cases setting

/-! ### Who can be owed a fee -/

/-- Only outsiders have fees accrued, so a release never pays a contract of the protocol. -/
def Earners (D : Deployment) (m : MirrorFee) : Prop :=
  ∀ a, m.accruedFees a ≠ 0 → a ∉ D.reserved

theorem accrueFee_earners {lead follower : Address} {profit epochId : Uint256} {a : Accrual}
    (sound : registry.Sound D) (earners : m.Earners D)
    (h : m.accrueFee registry caller lead follower profit epochId = .ok a) :
    a.fee.Earners D := by
  obtain ⟨-, -, registered, -⟩ := accrueFee_ok.mp h
  obtain ⟨total, -, written⟩ := accrueFee_adds h
  rw [written]
  -- the only new earner is the registered lead
  intro x owed
  by_cases hx : x = lead
  · subst hx
    exact sound.outside x registered
  · exact earners x (by simpa [hx] using owed)

theorem releaseFee_earners {proof : Proof} {lead : Address} {amount : Uint256}
    {t t' : Treasury} (earners : t.fee.Earners D)
    (h : releaseFee D env caller proof lead amount t = .ok t') :
    t'.fee.Earners D ∧ lead ∉ D.reserved ∧
      t.ledger.call env D.fxrpToken D.fee (.transfer lead amount.val) = .ok t'.ledger := by
  obtain ⟨-, -, positive, -, -, -, -, accrued, ledger, ha, paid, rfl⟩ := releaseFee_ok.mp h
  -- a positive amount within the accrued fees means that fees were accrued
  have outside : lead ∉ D.reserved := by
    refine earners lead fun none => positive ?_
    rw [none] at ha
    exact Fin.ext (by simp only [Fin.val_zero] at ha ⊢; omega)
  refine ⟨fun x owed => ?_, outside, paid⟩
  by_cases hx : x = lead
  · exact hx ▸ outside
  · exact earners x (by simpa [hx] using owed)

/-- A call to the fee contract moves no token, or pays one outsider. -/
theorem call_earners {t t' : Treasury} {op : FeeCall} (sound : registry.Sound D)
    (earners : t.fee.Earners D) (h : MirrorFee.call D env registry caller t op = .ok t') :
    t'.fee.Earners D ∧ (t'.ledger = t.ledger ∨ ∃ lead n, lead ∉ D.reserved ∧
      t.ledger.call env D.fxrpToken D.fee (.transfer lead n) = .ok t'.ledger) := by
  cases op with
  | accrueFee lead follower profit epochId =>
    simp only [call, bind_ok, pure_ok] at h
    obtain ⟨a, accrued, rfl⟩ := h
    exact ⟨accrueFee_earners sound earners accrued, .inl rfl⟩
  | releaseFee proof lead amount =>
    obtain ⟨earners', outside, paid⟩ := releaseFee_earners earners h
    exact ⟨earners', .inr ⟨lead, amount.val, outside, paid⟩⟩
  | claim lead => simp [call] at h
  | setInstructionSender | setFdcVerifier | transferOwnership | renounceOwnership =>
    obtain ⟨ledger, accrued, -, -⟩ := call_setting rfl h
    refine ⟨fun x owed => earners x ?_, .inl ledger⟩
    rwa [accrued] at owed

end MirrorFee

end Mirror
