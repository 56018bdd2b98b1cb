import Mirror.Refinement.Readiness
import Mirror.Refinement.SwapEvents

/-!
What becomes of a pending fill when the owner changes the configuration. A fill does not remember
the router that executed it: its proof is matched against the router of the day.
-/
namespace Mirror

open Evm InstructionSender

variable {D : Deployment}

/-- The genuine proof of an execution, presented by an authorised caller under whatever verifier
is configured: fresh, of a successful call to this contract, with the log of the router that
executed the fill. -/
structure Presented (D : Deployment) (env : External) (caller : Address) (i : InstructionSender)
    (tx : Tx D) (e : Execution) (proof : Proof) : Prop where
  authorized : caller = i.authorizedExecutor ∨ caller = i.owner
  verifier : i.fdcVerifier ≠ 0
  accepted : env.verifyEVMTransaction i.fdcVerifier proof = true
  genuine : Describes ⟨tx, .matched e⟩ proof
  hash : tx.hash ≠ 0
  unused : i.usedProofTxHashes tx.hash = false
  status : proof.data.responseBody.status = 1
  emitted : ∃ ev ∈ proof.data.responseBody.events, SwapOf e.router e.fill ev

/-- What the execution of a fill leaves in the record, and whom it is sent to. -/
theorem executed_fill {tx : Tx D} {s s' : System} {e : Execution}
    (performed : tx.perform s = .ok (s', .matched e)) :
    e.fill.exists_ = true ∧ e.fill.settled = false ∧ tx.call.to D = D.sender := by
  cases Tx.perform_trace performed with
  | matched exec call t acts =>
    refine ⟨rfl, rfl, ?_⟩
    rw [call]
    rfl

/-- The proof is admitted as long as the router is still the one that executed the fill. -/
theorem Presented.admitted_iff {env : External} {caller : Address} {i : InstructionSender}
    {tx : Tx D} {s s' : System} {e : Execution} {proof : Proof}
    (presented : Presented D env caller i tx e proof) (logs : tx.LogsOwn)
    (performed : tx.perform s = .ok (s', .matched e))
    (pending : i.pendingFills e.fillId = e.fill) :
    admitProof D env caller e.fillId proof i = .ok () ↔ i.swapRouter = e.router := by
  obtain ⟨found, unsettled, receiver⟩ := executed_fill performed
  obtain ⟨hash, receiver', -, seen⟩ := presented.genuine
  -- all `Swap` logs in the proof are of this very execution
  have only : ∀ ev ∈ proof.data.responseBody.events, ev.topics.head? = some swapTopic0 →
      SwapOf e.router e.fill ev := fun ev member topic =>
    executed_logs logs performed ev (seen ev member topic) topic
  have same : e.fill.SameSwap e.fill := ⟨rfl, rfl, rfl, rfl⟩
  have decided : matchSwapEvent i.swapRouter e.fill proof.data.responseBody.events = .ok () ↔
      i.swapRouter = e.router := by
    rw [matchSwapEvent_iff presented.emitted only]
    exact and_iff_left same
  simp only at hash receiver'
  rw [admitProof_ok, pending, decided, ← hash, ← receiver', receiver]
  simp [presented.authorized, presented.verifier, presented.accepted, presented.hash,
    presented.unused, presented.status, found, unsettled]

/-- Whatever happens after the execution of a fill without profit, its genuine proof settles it
exactly if the configured router is the one that executed it and the vault takes the change. In
a run with fixed wiring and no batches without proof the vault does so, and releases the lock,
unless a credit overflows the balance. -/
theorem proof_accepted_iff_same_router (c : Chain D) (before after : List (Tx D)) (tx : Tx D)
    (e : Execution) (deployed : c.Deployed) (logs : tx.LogsOwn)
    (executed : (tx.outcome (run Chain.step c before).sys).execution = some e)
    (named : e.fill.follower ≠ 0 ∧ e.fill.lead ≠ 0) (profitless : e.fill.profit = 0)
    (pending : (run Chain.step c (before ++ tx :: after)).sys.sender.pendingFills e.fillId = e.fill)
    (env : External) (caller : Address) (proof : Proof)
    (presented : Presented D env caller (run Chain.step c (before ++ tx :: after)).sys.sender tx e
      proof) :
    ((∃ s fees, applyFdcSettlement D env caller e.fillId proof
          (run Chain.step c (before ++ tx :: after)).sys = .ok (s, fees)) ↔
      (run Chain.step c (before ++ tx :: after)).sys.sender.swapRouter = e.router ∧
        VaultTakes D (run Chain.step c (before ++ tx :: after)).sys.vault e.fill) ∧
    (c.fxrpSupply < 2 ^ 255 →
      Admissible Chain.step Chain.Undisturbed c (before ++ tx :: after) →
      ((∃ s fees, applyFdcSettlement D env caller e.fillId proof
            (run Chain.step c (before ++ tx :: after)).sys = .ok (s, fees) ∧
          Committed D e.fillId (run Chain.step c (before ++ tx :: after)).sys s) ↔
        (run Chain.step c (before ++ tx :: after)).sys.sender.swapRouter = e.router ∧
          (e.fill.tokenIn ≠ D.fxrpToken → e.fill.tokenOut = D.fxrpToken →
            ((run Chain.step c (before ++ tx :: after)).sys.vault.subAccounts e.fill.follower
              e.fill.lead).balance.val + e.fill.amountOut.val < 2 ^ 256))) := by
  obtain ⟨s', performed⟩ := executed_iff.mp executed
  have admitted := presented.admitted_iff logs performed pending
  -- without a profit only the vault has a say
  have accepts : Accepts D env (run Chain.step c (before ++ tx :: after)).sys e.fill proof ↔
      VaultTakes D (run Chain.step c (before ++ tx :: after)).sys.vault e.fill :=
    ⟨Accepts.vault, fun takes => ⟨takes, fun profit => absurd profitless profit⟩⟩
  have succeeds : (∃ s fees, applyFdcSettlement D env caller e.fillId proof
        (run Chain.step c (before ++ tx :: after)).sys = .ok (s, fees)) ↔
      (run Chain.step c (before ++ tx :: after)).sys.sender.swapRouter = e.router ∧
        VaultTakes D (run Chain.step c (before ++ tx :: after)).sys.vault e.fill := by
    constructor
    · rintro ⟨s, fees, applied⟩
      have passed := (applyFdcSettlement_ok.mp applied).1
      have accepted := (settlement_succeeds passed).mp ⟨s, fees, applied⟩
      rw [pending] at accepted
      exact ⟨admitted.mp passed, accepted.vault⟩
    · rintro ⟨same, takes⟩
      refine (settlement_succeeds (admitted.mpr same)).mpr ?_
      rw [pending]
      exact accepts.mpr takes
  refine ⟨succeeds, fun supply undisturbed => ?_⟩
  have backed : (run Chain.step c (before ++ tx :: after)).Backed :=
    run_invariant Chain.backed_step c (deployed.backed supply) _ undisturbed
  -- in a run the vault's checks come down to the room for a credit
  have ready (same : (run Chain.step c (before ++ tx :: after)).sys.sender.swapRouter = e.router) :
      VaultTakes D (run Chain.step c (before ++ tx :: after)).sys.vault e.fill ↔
        Settleable D env (run Chain.step c (before ++ tx :: after)).sys e.fill proof := by
    have iff := backed.accepts_iff (admitted.mpr same)
    rw [pending, accepts] at iff
    exact iff
  constructor
  · rintro ⟨s, fees, applied, -⟩
    obtain ⟨same, takes⟩ := succeeds.mp ⟨s, fees, applied⟩
    exact ⟨same, ((ready same).mp takes).vault.room⟩
  · rintro ⟨same, room⟩
    have takes := (ready same).mpr
      ⟨⟨fun _ => named, room⟩, fun profit => absurd profitless profit⟩
    obtain ⟨s, fees, applied⟩ := succeeds.mpr ⟨same, takes⟩
    exact ⟨s, fees, applied, backed.settlement_commits applied⟩

namespace Sample

def deposited : List (Tx deployment) :=
  configure ++ [tx 3 alice (.entry (.vault (.deposit lead 100)))]

/-- Alice's swap of 60 FXRP. -/
def sale : Tx deployment :=
  tx 4 executor (.executeMatch ⟨alice, lead, swap deployment.fxrpToken usdt0 60, 0, 0⟩)

/-- The execution that `sale` leaves open. -/
def sold : Execution where
  txHash := 4
  router := router
  fillId := 0
  fill := ⟨alice, lead, deployment.fxrpToken, usdt0, 60, 60, 0, 0, true, false⟩
  events := [swapLog router deployment.sender (swap deployment.fxrpToken usdt0 60) 60]

def receipt : Proof := proof 1 4 (swap deployment.fxrpToken usdt0 60)

/-- A new executor, and then `more`. -/
def reconfigure (more : List (Tx deployment)) : List (Tx deployment) :=
  tx 5 owner (.entry (.sender (.setAuthorizedExecutor bob))) :: more

/-- The owner configures another router while the fill is pending. -/
def reroute : Tx deployment := tx 6 owner (.entry (.sender (.setSwapRouter bob)))

end Sample

theorem proof_accepted_iff_same_router_sale :
    ∃ s fees, applyFdcSettlement Sample.deployment (Sample.external fun p => p = Sample.receipt)
        Sample.bob 0 Sample.receipt (run Chain.step Sample.chain
          (Sample.deposited ++ Sample.sale :: Sample.reconfigure [])).sys = .ok (s, fees) ∧
      Committed Sample.deployment 0 (run Chain.step Sample.chain
        (Sample.deposited ++ Sample.sale :: Sample.reconfigure [])).sys s :=
  ((proof_accepted_iff_same_router Sample.chain Sample.deposited (Sample.reconfigure [])
    Sample.sale Sample.sold Sample.chain_deployed (Sample.routers_log _ rfl) (by decide +kernel)
    (by decide +kernel) (by decide +kernel) (by decide +kernel) _ Sample.bob Sample.receipt
    ⟨by decide +kernel, by decide +kernel, by decide +kernel, by decide +kernel,
      by decide +kernel, by decide +kernel, by decide +kernel, by decide +kernel⟩).2
    (by decide +kernel) (by decide +kernel)).mpr
    ⟨by decide +kernel, fun other => (other (by decide +kernel)).elim⟩

/-- A new router strands the fills of the old one. -/
theorem proofs_not_always_accepted :
    ¬∀ (D : Deployment) (c : Chain D) (before after : List (Tx D)) (tx : Tx D) (e : Execution)
      (env : External) (caller : Address) (proof : Proof), c.Deployed → c.fxrpSupply < 2 ^ 255 →
      Admissible Chain.step Chain.Undisturbed c (before ++ tx :: after) → tx.LogsOwn →
      (tx.outcome (run Chain.step c before).sys).execution = some e →
      e.fill.follower ≠ 0 ∧ e.fill.lead ≠ 0 → e.fill.profit = 0 →
      (run Chain.step c (before ++ tx :: after)).sys.sender.pendingFills e.fillId = e.fill →
      Presented D env caller (run Chain.step c (before ++ tx :: after)).sys.sender tx e proof →
      ∃ s fees, applyFdcSettlement D env caller e.fillId proof
        (run Chain.step c (before ++ tx :: after)).sys = .ok (s, fees) := by
  intro always
  obtain ⟨s, fees, applied⟩ := always Sample.deployment Sample.chain Sample.deposited
    (Sample.reconfigure [Sample.reroute]) Sample.sale Sample.sold
    (Sample.external fun p => p = Sample.receipt) Sample.bob Sample.receipt Sample.chain_deployed
    (by decide +kernel) (by decide +kernel) (Sample.routers_log _ rfl) (by decide +kernel)
    (by decide +kernel) (by decide +kernel) (by decide +kernel)
    ⟨by decide +kernel, by decide +kernel, by decide +kernel, by decide +kernel,
      by decide +kernel, by decide +kernel, by decide +kernel, by decide +kernel⟩
  have reverts : (applyFdcSettlement Sample.deployment
      (Sample.external fun p => p = Sample.receipt) Sample.bob 0 Sample.receipt
      (run Chain.step Sample.chain
        (Sample.deposited ++ Sample.sale :: Sample.reconfigure [Sample.reroute])).sys).isOk =
          false := by decide +kernel
  rw [show Sample.sold.fillId = 0 from rfl] at applied
  rw [applied] at reverts
  cases reverts

end Mirror
