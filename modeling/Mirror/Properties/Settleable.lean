import Mirror.Refinement.Readiness

/-!
Whether an accepted fill can be settled. A match checks neither the names nor the profit that the
executor passes, and a settlement rolls back as a whole when the vault or the fee contract
rejects them.
-/
namespace Mirror

open Evm InstructionSender

variable {D : Deployment}

/-- An admitted proof settles its fill exactly if both legs accept it. In a run with fixed wiring
and no batches without proof this comes down to names that the vault accepts and room for the
credit, and for a fill with a profit to a registered lead whose fee can be booked and paid. -/
theorem settles_iff_settleable (c : Chain D) (txs : List (Tx D)) (deployed : c.Deployed)
    (env : External) (caller : Address) (fillId : Uint256) (proof : Proof)
    (admitted : admitProof D env caller fillId proof (run Chain.step c txs).sys.sender = .ok ()) :
    ((∃ s fees, applyFdcSettlement D env caller fillId proof (run Chain.step c txs).sys =
        .ok (s, fees)) ↔
      Accepts D env (run Chain.step c txs).sys
        ((run Chain.step c txs).sys.sender.pendingFills fillId) proof) ∧
    (c.fxrpSupply < 2 ^ 255 → Admissible Chain.step Chain.Undisturbed c txs →
      ((∃ s fees, applyFdcSettlement D env caller fillId proof (run Chain.step c txs).sys =
          .ok (s, fees) ∧ Committed D fillId (run Chain.step c txs).sys s) ↔
        Settleable D env (run Chain.step c txs).sys
          ((run Chain.step c txs).sys.sender.pendingFills fillId) proof)) := by
  refine ⟨settlement_succeeds admitted, fun supply undisturbed => ?_⟩
  -- what is locked is there to be spent in every state of such a run
  have backed : (run Chain.step c txs).Backed :=
    run_invariant Chain.backed_step c (deployed.backed supply) txs undisturbed
  rw [← backed.accepts_iff admitted, ← settlement_succeeds admitted]
  constructor
  · rintro ⟨s, fees, applied, -⟩
    exact ⟨s, fees, applied⟩
  · rintro ⟨s, fees, applied⟩
    exact ⟨s, fees, applied, backed.settlement_commits applied⟩

namespace Sample

/-- Everything is configured, the fee contract holds 50 FXRP and alice deposits. -/
def prepare : List (Tx deployment) :=
  configure ++ [
    tx 3 owner (.entry (.fee (.setFdcVerifier verifier))),
    tx 4 bob (.entry (.token deployment.fxrpToken (.transfer deployment.fee 50))),
    tx 5 alice (.entry (.vault (.deposit lead 100)))]

def register : Tx deployment := tx 7 lead (.entry (.registry (.registerLead 0 2000 0 0)))

/-- The executor reports a profit of 5. -/
def profitable : Tx deployment :=
  tx 6 executor (.executeMatch ⟨alice, lead, swap deployment.fxrpToken usdt0 60, 5, 0⟩)

def attested : Proof := proof 1 6 (swap deployment.fxrpToken usdt0 60)

/-- A verifier that accepts this one proof. -/
def attests : External := external fun p => p = attested

/-- The execution that `profitable` leaves open. -/
def execution : Execution where
  txHash := 6
  router := router
  fillId := 0
  fill := ⟨alice, lead, deployment.fxrpToken, usdt0, 60, 60, 5, 0, true, false⟩
  events := [swapLog router deployment.sender (swap deployment.fxrpToken usdt0 60) 60]

end Sample

theorem settles_iff_settleable_profitable :
    ∃ s fees, applyFdcSettlement Sample.deployment Sample.attests Sample.executor 0
        Sample.attested (run Chain.step Sample.chain
          (Sample.register :: Sample.prepare ++ [Sample.profitable])).sys = .ok (s, fees) ∧
      Committed Sample.deployment 0 (run Chain.step Sample.chain
        (Sample.register :: Sample.prepare ++ [Sample.profitable])).sys s :=
  ((settles_iff_settleable Sample.chain
    (Sample.register :: Sample.prepare ++ [Sample.profitable]) Sample.chain_deployed
    Sample.attests Sample.executor 0 Sample.attested (by decide +kernel)).2 (by decide +kernel)
    (by decide +kernel)).mpr
    ⟨⟨fun _ => by decide +kernel, fun other => (other (by decide +kernel)).elim⟩,
      fun _ => ⟨by decide +kernel, by decide +kernel, fun _ =>
        ⟨by decide +kernel, by decide +kernel, by decide +kernel, by decide +kernel,
          by decide +kernel⟩⟩⟩

namespace Chain

/-- What a settlement reads besides the fill and the books: router, verifiers and wiring. -/
def settings (c : Chain D) : List Address :=
  [c.sys.sender.swapRouter, c.sys.sender.fdcVerifier, c.sys.fee.fdcVerifier,
    c.sys.fee.instructionSender, c.sys.vault.instructionSender]

def KeepsSettings (c : Chain D) (tx : Tx D) : Prop := (c.step tx).settings = c.settings

end Chain

/-- An executed fill whose lead is not registered cannot be settled, and its lock stays. -/
theorem fills_not_always_settleable :
    ¬∀ (D : Deployment) (c : Chain D) (before after : List (Tx D)) (tx : Tx D)
      (e : Execution) (env : External) (caller : Address) (proof : Proof),
      c.Deployed → c.fxrpSupply < 2 ^ 255 →
      Admissible Chain.step Chain.Undisturbed c (before ++ tx :: after) →
      (tx.outcome (run Chain.step c before).sys).execution = some e →
      Admissible Chain.step Chain.KeepsSettings (run Chain.step c (before ++ [tx])) after →
      admitProof D env caller e.fillId proof
        (run Chain.step c (before ++ tx :: after)).sys.sender = .ok () →
      ∃ s fees, applyFdcSettlement D env caller e.fillId proof
        (run Chain.step c (before ++ tx :: after)).sys = .ok (s, fees) := by
  intro always
  obtain ⟨s, fees, applied⟩ := always Sample.deployment Sample.chain Sample.prepare []
    Sample.profitable Sample.execution Sample.attests Sample.executor Sample.attested
    Sample.chain_deployed (by decide +kernel) (by decide +kernel) (by decide +kernel) trivial
    (by decide +kernel)
  have reverts : (applyFdcSettlement Sample.deployment Sample.attests Sample.executor 0
      Sample.attested (run Chain.step Sample.chain
        (Sample.prepare ++ [Sample.profitable])).sys).isOk = false := by decide +kernel
  rw [show Sample.execution.fillId = 0 from rfl] at applied
  rw [applied] at reverts
  cases reverts

end Mirror
