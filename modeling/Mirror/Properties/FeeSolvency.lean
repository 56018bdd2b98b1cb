import Mirror.Refinement.FeeTill

/-!
Whether the fee contract can pay what it owes. Nothing in the system funds it: fees accrue without
any token moving, so it is solvent as long as whoever runs it has sent it enough.
-/
namespace Mirror

open Evm InstructionSender

variable {D : Deployment}

namespace Chain

/-- Neither the vault nor the fee contract is taken from the instruction sender. -/
structure KeepsWiring (c : Chain D) (tx : Tx D) : Prop where
  vault : ∀ a ∈ tx.actions c.sys, a.entry.rewiresVault = false
  fee : ∀ a ∈ tx.actions c.sys, a.entry.rewiresFee = false

instance (c : Chain D) (tx : Tx D) : Decidable (c.KeepsWiring tx) :=
  decidable_of_iff ((∀ a ∈ tx.actions c.sys, a.entry.rewiresVault = false) ∧
      ∀ a ∈ tx.actions c.sys, a.entry.rewiresFee = false)
    ⟨fun h => ⟨h.1, h.2⟩, fun h => ⟨h.vault, h.fee⟩⟩

/-- What every state reached with fixed wiring has: the contracts obey the instruction sender,
have approved nobody and owe outsiders only. -/
structure Operational (c : Chain D) : Prop where
  guarded : c.sys.Guarded D
  closed : c.sys.FeeClosed D

/-- FXRP that a transaction sends to the fee contract directly. -/
def feeGift (c : Chain D) (tx : Tx D) : ℤ := gifts D D.fee (tx.actions c.sys)

/-- Net fees that a transaction accrues. -/
def feeAccrued (c : Chain D) (tx : Tx D) : ℤ := netFees (tx.outcome c.sys).fees

theorem Deployed.operational {c : Chain D} (deployed : c.Deployed) : c.Operational := by
  obtain ⟨_, fee⟩ := deployed.fee
  refine ⟨deployed.system, deployed.closed _ (by simp) _, ?_⟩
  rw [fee]

/-- One transaction moves the surplus of the fee contract by the gifts it brings and the fees it
accrues. -/
theorem operational_step (c : Chain D) (tx : Tx D) (operational : c.Operational)
    (wired : c.KeepsWiring tx) :
    (c.step tx).sys.Guarded D ∧
      c.sys.FeeMoves D (c.feeGift tx - c.feeAccrued tx) (c.step tx).sys := by
  obtain ⟨guarded, closed⟩ := operational
  obtain ⟨vault, fee⟩ := wired
  refine ⟨c.guarded_step tx guarded vault, ?_⟩
  -- one case for each entry point; only accruals and gifts move the surplus
  unfold feeGift feeAccrued Tx.outcome
  rcases c.step_cases tx with ⟨e, reverted, stepped⟩ | ⟨s, o, performed, stepped⟩
  · rw [stepped, reverted, Tx.actions_reverted reverted]
    exact .refl D c.sys
  · rw [stepped, performed]
    cases Tx.perform_trace performed with
    | entry e s' call acts acted =>
      rw [acts] at fee ⊢
      have moved := Action.perform_feeMoves guarded closed (fee _ List.mem_cons_self) acted
      simpa [gifts, netFees, Outcome.fees] using moved
    | matched exec call t acts =>
      rw [acts] at vault fee ⊢
      simpa [netFees, Outcome.fees] using t.feeMoves guarded closed vault fee
    | settled fillId proof fees s' call acts applied =>
      have moved := (applyFdcSettlement_feeMoves guarded applied).2
      rw [acts]
      simpa [gifts, Outcome.fees] using moved
    | batch settlements nonce s' call acts applied =>
      obtain ⟨i, -, written⟩ := InstructionSender.settleBatch_ok applied
      obtain ⟨custody, settled, rfl⟩ := System.onVault_ok written
      simp only [MirrorVault.settleBatch, bind_ok, pure_ok] at settled
      obtain ⟨_, -, _, -, v, -, rfl⟩ := settled
      have still : c.sys.FeeMoves D 0 { c.sys with
        vault := v
        sender := i } := .still rfl (.refl _)
      rw [acts]
      simpa [gifts, netFees, Outcome.fees] using still
    | accrued accruals nonce fees s' call acts applied =>
      obtain ⟨i, -, written⟩ := InstructionSender.accrueFees_ok applied
      have record : c.sys.FeeMoves D 0 { c.sys with sender := i } := .still rfl (.refl _)
      rw [acts]
      simpa [gifts, Outcome.fees] using record.trans (accrueEach_feeMoves written)
    | withdrawn follower lead nonce s' call acts applied =>
      obtain ⟨i, -, written⟩ := InstructionSender.finalizeWithdrawal_ok applied
      have passed := guarded.withSender i
      obtain ⟨custody, paid, rfl⟩ := System.onVault_ok written
      have moved := System.FeeMoves.of_vault (s := { c.sys with sender := i })
        (.finalizeWithdrawal follower lead) passed ⟨closed.row, closed.wired⟩ D.sender_ne_fee paid
      have record : c.sys.FeeMoves D 0 { c.sys with sender := i } := .still rfl (.refl _)
      rw [acts]
      simpa [gifts, netFees, Outcome.fees] using record.trans moved

theorem Operational.step {c : Chain D} (operational : c.Operational) (tx : Tx D)
    (wired : c.KeepsWiring tx) : (c.step tx).Operational := by
  obtain ⟨guarded, moved⟩ := c.operational_step tx operational wired
  exact ⟨guarded, moved.closed operational.closed⟩

end Chain

/-- Over any run the surplus of the fee contract grows by what is sent to it directly and shrinks
by the net fees accrued. It can pay all it owes, and so any lead, exactly as long as the fees
accrued stay within the initial surplus and the gifts. -/
theorem fees_covered_iff_funded (c : Chain D) (txs : List (Tx D)) (operational : c.Operational)
    (wired : Admissible Chain.step Chain.KeepsWiring c txs) :
    (run Chain.step c txs).sys.feeSurplus D = c.sys.feeSurplus D +
        (accumulate Chain.step Chain.feeGift c txs -
          accumulate Chain.step Chain.feeAccrued c txs) ∧
      ((run Chain.step c txs).sys.feesOwed ≤ (run Chain.step c txs).sys.feeTill D ↔
        accumulate Chain.step Chain.feeAccrued c txs ≤
          c.sys.feeSurplus D + accumulate Chain.step Chain.feeGift c txs) ∧
      ((run Chain.step c txs).sys.feesOwed ≤ (run Chain.step c txs).sys.feeTill D →
        ∀ lead, ((run Chain.step c txs).sys.fee.accruedFees lead).val ≤
          (run Chain.step c txs).sys.feeTill D) := by
  have kept (c : Chain D) (tx : Tx D) (operational : c.Operational) (wired : c.KeepsWiring tx) :
      (c.step tx).Operational := operational.step tx wired
  have moves (c : Chain D) (tx : Tx D) (operational : c.Operational) (wired : c.KeepsWiring tx) :
      (c.step tx).sys.feeSurplus D = c.sys.feeSurplus D + (c.feeGift tx - c.feeAccrued tx) :=
    (c.operational_step tx operational wired).2.surplus
  have surplus : (run Chain.step c txs).sys.feeSurplus D = c.sys.feeSurplus D +
      accumulate Chain.step (fun c tx => c.feeGift tx - c.feeAccrued tx) c txs :=
    run_accumulates (g := fun c : Chain D => c.sys.feeSurplus D) kept moves c operational txs wired
  rw [accumulate_sub] at surplus
  refine ⟨surplus, ?_, fun solvent lead => ?_⟩
  · rw [System.feeSurplus] at surplus
    omega
  · exact (System.accrued_le_owed _ lead).trans solvent

namespace Sample

/-- A chain on which the lead has registered at 20%. -/
def listed : Chain deployment :=
  chain.step (tx 1 lead (.entry (.registry (.registerLead 0 2000 0 0))))

theorem listed_operational : listed.Operational :=
  chain_deployed.operational.step _ ⟨by decide +kernel, by decide +kernel⟩

/-- The executor reports a profit of 100. -/
def report (nonce : Uint256) : Tx deployment :=
  tx 2 executor (.accrueFees [⟨lead, alice, 100, 0⟩] nonce)

/-- Somebody sends the fee contract 100 FXRP before each report. -/
def funded : List (Tx deployment) :=
  [tx 3 alice (.entry (.token deployment.fxrpToken (.transfer deployment.fee 100))), report 0,
    tx 4 bob (.entry (.token deployment.fxrpToken (.transfer deployment.fee 100))), report 1]

end Sample

theorem fees_covered_iff_funded_listed :
    (run Chain.step Sample.listed Sample.funded).sys.feeSurplus Sample.deployment =
      Sample.listed.sys.feeSurplus Sample.deployment +
        (accumulate Chain.step Chain.feeGift Sample.listed Sample.funded -
          accumulate Chain.step Chain.feeAccrued Sample.listed Sample.funded) :=
  (fees_covered_iff_funded Sample.listed Sample.funded Sample.listed_operational
    (by decide +kernel)).1

/-- A single accrual leaves a fee contract insolvent that owed nothing before. -/
theorem fees_not_always_covered :
    ¬∀ (D : Deployment) (c : Chain D) (txs : List (Tx D)), c.Operational →
      Admissible Chain.step Chain.KeepsWiring c txs →
      (∀ tx ∈ txs, (∃ accruals nonce, tx.call = .accrueFees accruals nonce) ∨
        ∃ fillId proof, tx.call = .applyFdcSettlement fillId proof) →
      c.sys.feesOwed ≤ c.sys.feeTill D →
      (run Chain.step c txs).sys.feesOwed ≤ (run Chain.step c txs).sys.feeTill D := by
  intro always
  have owesNothing : Sample.listed.sys.feesOwed = 0 := by
    have none : Sample.listed.sys.fee.accruedFees = fun _ => 0 := rfl
    simp [System.feesOwed, none]
  have only : ∀ tx ∈ [Sample.report 0], (∃ accruals nonce, tx.call = .accrueFees accruals nonce) ∨
      ∃ fillId proof, tx.call = .applyFdcSettlement fillId proof := by
    intro tx member
    rw [List.mem_singleton.mp member]
    exact .inl ⟨[⟨Sample.lead, Sample.alice, 100, 0⟩], 0, rfl⟩
  have solvent := always Sample.deployment Sample.listed [Sample.report 0]
    Sample.listed_operational (by decide +kernel) only (owesNothing ▸ Nat.zero_le _)
  have owed := System.accrued_le_owed (run Chain.step Sample.listed [Sample.report 0]).sys
    Sample.lead
  have booked : ((run Chain.step Sample.listed [Sample.report 0]).sys.fee.accruedFees
    Sample.lead).val = 90 := by decide +kernel
  have empty : (run Chain.step Sample.listed [Sample.report 0]).sys.feeTill Sample.deployment =
    0 := by decide +kernel
  omega

end Mirror
