import Mirror.Refinement.FeeTill

/-!
What becomes of accrued fees. A settlement releases the fee it has just accrued and nothing else
pays a lead, so what was on the books before stays there for ever.
-/
namespace Mirror

open Evm InstructionSender

variable {D : Deployment} {env : External} {caller : Address} {s s' : System}

/-- The wiring stays and no lead loses accrued fees. -/
structure MirrorFee.Accumulates (m m' : MirrorFee) : Prop where
  wired : m'.instructionSender = m.instructionSender
  accrued : ∀ lead, m.accruedFees lead ≤ m'.accruedFees lead

namespace MirrorFee.Accumulates

variable {m m' m'' : MirrorFee}

theorem refl (m : MirrorFee) : m.Accumulates m := ⟨rfl, fun _ => le_refl _⟩

theorem trans (h : m.Accumulates m') (h' : m'.Accumulates m'') : m.Accumulates m'' :=
  ⟨h'.wired.trans h.wired, fun lead => (h.accrued lead).trans (h'.accrued lead)⟩

theorem of_sameBooks (h : m.SameBooks m') : m.Accumulates m' :=
  ⟨h.wired, fun lead => by rw [h.accrued]⟩

end MirrorFee.Accumulates

theorem accrueFee_accumulates {registry : MirrorRegistry} {m : MirrorFee} {lead follower : Address}
    {profit epochId : Uint256} {a : Accrual}
    (h : m.accrueFee registry caller lead follower profit epochId = .ok a) :
    m.Accumulates a.fee := by
  obtain ⟨total, added, written⟩ := MirrorFee.accrueFee_adds h
  rw [written]
  refine ⟨rfl, fun x => ?_⟩
  by_cases hx : x = lead
  · subst hx
    simp only [Function.update_self, Fin.le_def]
    omega
  · simp [hx]

theorem feeLeg_accumulates {fill : PendingFill} {proof : Proof} {fees : List FeeAccrued}
    (h : feeLeg D env fill proof s = .ok (s', fees)) : s.fee.Accumulates s'.fee := by
  refine ⟨(feeLeg_used h).1, fun x => ?_⟩
  rw [feeLeg_restores h]

theorem accrueEach_accumulates {accruals : List FeeAccrual} {fees : List FeeAccrued}
    (h : accrueEach D accruals s = .ok (s', fees)) : s.fee.Accumulates s'.fee := by
  replace h := accrueEach_trace h
  induction h with
  | nil => exact .refl _
  | cons accrued others ih =>
    have first := accrueFee_accumulates accrued
    exact first.trans ih

namespace Chain

/-- The fee contract is not taken from the instruction sender. -/
def KeepsFee (c : Chain D) (tx : Tx D) : Prop :=
  ∀ a ∈ tx.actions c.sys, a.entry.rewiresFee = false

instance (c : Chain D) (tx : Tx D) : Decidable (c.KeepsFee tx) :=
  inferInstanceAs (Decidable (∀ a ∈ tx.actions c.sys, a.entry.rewiresFee = false))

/-- No transaction, whoever sends it, brings accrued fees down. -/
theorem accumulates_step (c : Chain D) (tx : Tx D) (wired : c.sys.fee.instructionSender = D.sender)
    (keeps : c.KeepsFee tx) : c.sys.fee.Accumulates (c.step tx).sys.fee := by
  rcases c.step_cases tx with ⟨e, -, stepped⟩ | ⟨s, o, performed, stepped⟩
  · rw [stepped]
    exact .refl _
  · rw [stepped]
    -- one case for each entry point; only settlements and accruals write the books
    cases Tx.perform_trace performed with
    | entry e s' call acts acted =>
      rw [KeepsFee, acts] at keeps
      exact .of_sameBooks (Action.perform_fees wired (keeps _ List.mem_cons_self) acted)
    | matched exec call t acts =>
      rw [KeepsFee, acts] at keeps
      exact .of_sameBooks (t.fees wired keeps)
    | settled fillId proof fees s' call acts applied =>
      obtain ⟨-, mid, vaultWrites, feeWrites⟩ := applyFdcSettlement_ok.mp applied
      have grown := feeLeg_accumulates feeWrites
      rw [(vaultLeg_fee vaultWrites).1] at grown
      exact grown
    | batch settlements nonce s' call acts applied =>
      obtain ⟨i, -, written⟩ := InstructionSender.settleBatch_ok applied
      obtain ⟨_, -, rfl⟩ := System.onVault_ok written
      exact .refl _
    | accrued accruals nonce fees s' call acts applied =>
      obtain ⟨i, -, written⟩ := InstructionSender.accrueFees_ok applied
      have grown := accrueEach_accumulates written
      exact grown
    | withdrawn follower lead nonce s' call acts applied =>
      obtain ⟨i, -, written⟩ := InstructionSender.finalizeWithdrawal_ok applied
      obtain ⟨_, -, rfl⟩ := System.onVault_ok written
      exact .refl _

theorem accumulates_run (c : Chain D) (txs : List (Tx D))
    (wired : c.sys.fee.instructionSender = D.sender)
    (keeps : Admissible Chain.step KeepsFee c txs) :
    c.sys.fee.Accumulates (run Chain.step c txs).sys.fee := by
  have kept (c : Chain D) (tx : Tx D) (wired : c.sys.fee.instructionSender = D.sender)
      (keeps : c.KeepsFee tx) : (c.step tx).sys.fee.instructionSender = D.sender :=
    (c.accumulates_step tx wired keeps).wired.trans wired
  have refl (c : Chain D) : c.sys.fee.Accumulates c.sys.fee := .refl _
  have trans (a b c : Chain D) (h : a.sys.fee.Accumulates b.sys.fee)
      (h' : b.sys.fee.Accumulates c.sys.fee) : a.sys.fee.Accumulates c.sys.fee := h.trans h'
  exact run_relates refl trans kept accumulates_step c wired txs keeps

/-- Some further transactions bring what is accrued to `lead` down to nothing. -/
def Releasable (c : Chain D) (lead : Address) : Prop :=
  ∃ more, Admissible Chain.step KeepsFee c more ∧
    (run Chain.step c more).sys.fee.accruedFees lead = 0

theorem not_releasable (c : Chain D) (wired : c.sys.fee.instructionSender = D.sender)
    {lead : Address} (owed : c.sys.fee.accruedFees lead ≠ 0) : ¬c.Releasable lead := by
  rintro ⟨more, keeps, none⟩
  have grown := (c.accumulates_run more wired keeps).accrued lead
  rw [none, Fin.le_zero_iff] at grown
  exact owed grown

end Chain

/-- In no state reached from the deployment, and for no lead with accrued fees, do any further
transactions bring the accrued fees down to nothing. -/
theorem accrued_fees_stranded (c : Chain D) (txs : List (Tx D)) (deployed : c.Deployed)
    (keeps : Admissible Chain.step Chain.KeepsFee c txs) (lead : Address)
    (owed : (run Chain.step c txs).sys.fee.accruedFees lead ≠ 0) :
    ¬(run Chain.step c txs).Releasable lead := by
  obtain ⟨_, fee⟩ := deployed.fee
  have wired : c.sys.fee.instructionSender = D.sender := by rw [fee]
  exact Chain.not_releasable _ ((c.accumulates_run txs wired keeps).wired.trans wired) owed

namespace Sample

/-- A lead at 20% for whom the executor reports a profit of 100, and FXRP to pay the fee with. -/
def reported : List (Tx deployment) :=
  [tx 1 lead (.entry (.registry (.registerLead 0 2000 0 0))),
    tx 2 alice (.entry (.token deployment.fxrpToken (.transfer deployment.fee 100))),
    tx 3 executor (.accrueFees [⟨lead, alice, 100, 0⟩] 0)]

end Sample

theorem accrued_fees_stranded_reported :
    ¬(run Chain.step Sample.chain Sample.reported).Releasable Sample.lead :=
  accrued_fees_stranded Sample.chain Sample.reported Sample.chain_deployed (by decide +kernel)
    Sample.lead (by decide +kernel)

/-- Matches, settlements and accruals need not release a fee that the contract could pay. -/
theorem accrued_fees_not_always_released :
    ¬∀ (D : Deployment) (c : Chain D) (txs : List (Tx D)) (lead : Address), c.Deployed →
      Admissible Chain.step Chain.KeepsFee c txs →
      (run Chain.step c txs).sys.fee.accruedFees lead ≠ 0 →
      ((run Chain.step c txs).sys.fee.accruedFees lead).val ≤
        (run Chain.step c txs).sys.feeTill D →
      ∃ more, (∀ tx ∈ more, (∃ exec, tx.call = .executeMatch exec) ∨
          (∃ fillId proof, tx.call = .applyFdcSettlement fillId proof) ∨
          ∃ accruals nonce, tx.call = .accrueFees accruals nonce) ∧
        Admissible Chain.step Chain.KeepsFee (run Chain.step c txs) more ∧
        (run Chain.step (run Chain.step c txs) more).sys.fee.accruedFees lead = 0 := by
  intro always
  obtain ⟨more, -, keeps, released⟩ := always Sample.deployment Sample.chain Sample.reported
    Sample.lead Sample.chain_deployed (by decide +kernel) (by decide +kernel) (by decide +kernel)
  exact Chain.not_releasable _ (by decide +kernel) (by decide +kernel) ⟨more, keeps, released⟩

end Mirror
