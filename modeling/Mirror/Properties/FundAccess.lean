import Mirror.Refinement.Access
import Mirror.Refinement.Fees

/-!
Whose calls move FXRP out of the vault. In the deployed system only two calls to the instruction
sender do, both reserved to the executor and the owner.
-/
namespace Mirror

open Evm InstructionSender

variable {D : Deployment} {env : External} {caller : Address} {s s' : System}

/-- The vault as its calls see it. -/
def System.custody (s : System) : Custody := ⟨s.ledger, s.vault⟩

namespace System.Guarded

/-- A token call by anybody else takes nothing from the vault. -/
theorem till_call {token who : Address} {c : TokenCall Address} (guarded : s.Guarded D)
    (other : who ≠ D.vault) (called : s.ledger.call env token who c = .ok s'.ledger) :
    s.custody.till D ≤ s'.custody.till D := by
  have closed : (s.ledger D.fxrpToken).allowance D.vault who = 0 :=
    congrFun guarded.custody.closed who
  obtain ⟨received, -⟩ := Ledger.call_bystander called other closed
  simp only [Custody.till, System.custody, received]
  exact Nat.le_add_right _ _

end System.Guarded

theorem Action.perform_till {a : Action D} (guarded : s.Guarded D) (h : a.perform env s = .ok s') :
    s.custody.till D ≤ s'.custody.till D := by
  cases performed h with
  | token who address c ledger called => exact guarded.till_call who.ne_vault called
  | vault who op c called =>
    have stranger : who.addr ≠ s.vault.instructionSender := by
      have wired := guarded.custody.wired
      rw [wired]
      exact who.ne_sender
    exact (MirrorVault.call_stranger op stranger called).1.till
  | fee who op t called =>
    obtain ⟨-, still | ⟨lead, n, -, paid⟩⟩ :=
      MirrorFee.call_earners guarded.registry guarded.earners called
    · simp only [Custody.till, System.custody, still, le_refl]
    · exact guarded.till_call D.fee_ne_vault paid
  | registry | sender => exact le_refl _

theorem Action.performAll_till {actions : List (Action D)} (guarded : s.Guarded D)
    (keeps : ∀ a ∈ actions, a.entry.rewiresVault = false)
    (h : performAll env actions s = .ok s') : s.custody.till D ≤ s'.custody.till D := by
  have kept : ∀ (a : Action D) (x x' : System), a.entry.rewiresVault = false →
      x.Guarded D ∧ s.custody.till D ≤ x.custody.till D → a.perform env x = .ok x' →
      x'.Guarded D ∧ s.custody.till D ≤ x'.custody.till D := by
    rintro a x x' keeps ⟨guarded, grown⟩ done
    have guarded' := (perform_explains guarded keeps done (fun _ => 0) []).1
    exact ⟨guarded', grown.trans (perform_till guarded done)⟩
  exact (performAll_keeps _ _ kept keeps ⟨guarded, le_refl _⟩ h).2

theorem onToken_till {token : Address} {c : TokenCall Address} (guarded : s.Guarded D)
    (h : s.onToken env token D.sender c = .ok s') : s.custody.till D ≤ s'.custody.till D := by
  simp only [System.onToken, bind_ok, pure_ok] at h
  obtain ⟨L', called, rfl⟩ := h
  exact guarded.till_call D.sender_ne_vault called

theorem proceedsLeg_till {tokenOut : Address} {amountOut : Uint256} (guarded : s.Guarded D)
    (h : proceedsLeg D env tokenOut amountOut s = .ok s') :
    s.custody.till D ≤ s'.custody.till D := by
  rcases proceedsLeg_ok.mp h with ⟨-, mid, approved, received⟩ | ⟨-, rfl⟩
  · obtain ⟨c, pulled, rfl⟩ := System.onVault_ok received
    simp only [MirrorVault.receiveExecutionProceeds, bind_ok, pure_ok] at pulled
    obtain ⟨_, -, _, -, ledger, collected, rfl⟩ := pulled
    exact (onToken_till guarded approved).trans (Ledger.collect_le collected)
  · exact le_refl _

/-- After the lock, whatever the router does, a match only brings FXRP to the vault. -/
theorem MatchTrace.till {routers : Routers D} {exec : MatchExecution}
    (t : MatchTrace D env caller routers exec s) (guarded : s.Guarded D)
    (keeps : ∀ a ∈ t.reply.actions, a.entry.rewiresVault = false) :
    t.locked.custody.till D ≤ t.final.custody.till D := by
  have locked := (lockLeg_explains guarded t.lock []).1
  have approved := (approve_explains locked t.approve (fun _ => 0) []).1
  have swapped := (Action.performAll_explains approved keeps t.acted (fun _ => 0) []).1
  calc t.locked.custody.till D
      ≤ t.approved.custody.till D := onToken_till locked t.approve
    _ ≤ t.swapped.custody.till D := Action.performAll_till approved keeps t.acted
    _ ≤ t.booked.custody.till D := proceedsLeg_till swapped t.proceeds

theorem feeLeg_till {fill : PendingFill} {proof : Proof} {fees : List FeeAccrued}
    (guarded : s.Guarded D) (h : feeLeg D env fill proof s = .ok (s', fees)) :
    s.custody.till D ≤ s'.custody.till D := by
  cases feeLeg_trace h with
  | idle | booked => exact le_refl _
  | paid accrual treasury accrued due released =>
    obtain ⟨-, -, -, -, -, -, -, _, ledger, -, transferred, rfl⟩ :=
      MirrorFee.releaseFee_ok.mp released
    exact guarded.till_call D.fee_ne_vault transferred

/-- How a transaction takes FXRP out of the vault: a match that locks it, bringing some back
perhaps, or a withdrawal. -/
inductive Tx.PaysOut (tx : Tx D) (s s' : System) : Prop
  | matched (exec : MatchExecution) (lent : Custody) (call : tx.call = .executeMatch exec)
      (paid : s.custody.PaysOut D D.sender lent
        (.transferForExecution exec.follower exec.lead exec.swap.amountIn))
      (rest : lent.till D ≤ s'.custody.till D)
  | withdrawn (follower lead : Address) (nonce : Uint256)
      (call : tx.call = .finalizeWithdrawal follower lead nonce)
      (paid : s.custody.PaysOut D D.sender s'.custody (.finalizeWithdrawal follower lead))

namespace Chain

/-- A transaction either pays out, at the word of the executor or the owner, or takes nothing. -/
theorem paysOut_step (c : Chain D) (tx : Tx D) (guarded : c.sys.Guarded D)
    (keeps : c.KeepsVault tx) :
    ((tx.caller.addr = c.sys.sender.authorizedExecutor ∨ tx.caller.addr = c.sys.sender.owner) ∧
        tx.PaysOut c.sys (c.step tx).sys) ∨
      (c.sys.custody.till D ≤ (c.step tx).sys.custody.till D ∧
        ∀ exec ∈ tx.matched c.sys, exec.swap.tokenIn ≠ D.fxrpToken) := by
  rcases c.step_cases tx with ⟨e, reverted, stepped⟩ | ⟨s, o, performed, stepped⟩
  · rw [stepped]
    exact .inr ⟨le_refl _, by simp [Tx.matched, reverted]⟩
  · rw [stepped]
    have quiet (other : ∀ exec, tx.call ≠ .executeMatch exec)
        (kept : c.sys.custody.till D ≤ s.custody.till D) :
        c.sys.custody.till D ≤ s.custody.till D ∧
          ∀ exec ∈ tx.matched c.sys, exec.swap.tokenIn ≠ D.fxrpToken := by
      refine ⟨kept, fun exec found => ?_⟩
      simp only [Tx.matched, performed] at found
      split at found
      next exec' _ call => exact absurd call (other exec')
      next => cases found
    -- every call but two leaves at least as much in the vault
    cases Tx.perform_trace performed with
    | entry e s' call acts acted =>
      exact .inr (quiet (by simp [call]) (Action.perform_till guarded acted))
    | matched exec call t acts =>
      rw [KeepsVault, acts] at keeps
      have rest := t.till guarded keeps
      rcases lockLeg_ok.mp t.lock with ⟨-, lock⟩ | ⟨other, same⟩
      · obtain ⟨lent, called, locked⟩ := System.onVault_ok lock
        have same : t.locked.custody = lent := by rw [locked]; rfl
        rw [same] at rest
        exact .inl ⟨t.authorized, .matched exec lent call
          (MirrorVault.call_paysOut (.transferForExecution _ _ _) called
            (lends_less called)) rest⟩
      · rw [same] at rest
        refine .inr ⟨rest, fun exec' found => ?_⟩
        simp only [Tx.matched, performed, call, Option.mem_some] at found
        exact found ▸ other
    | settled fillId proof fees s' call acts applied =>
      obtain ⟨-, mid, vaultWrites, feeWrites⟩ := applyFdcSettlement_ok.mp applied
      have marked := guarded.withSender
        (c.sys.sender.markSettled fillId proof.data.requestBody.transactionHash)
      have rest := feeLeg_till (vaultLeg_guarded marked vaultWrites) feeWrites
      have same : mid.ledger = c.sys.ledger := (vaultLeg_fee vaultWrites).2.2
      have before : mid.custody.till D = c.sys.custody.till D := by
        simp only [Custody.till, System.custody, same]
      exact .inr (quiet (by simp [call]) (before ▸ rest))
    | batch settlements nonce s' call acts applied =>
      obtain ⟨i, -, written⟩ := InstructionSender.settleBatch_ok applied
      obtain ⟨custody, settled, rfl⟩ := System.onVault_ok written
      simp only [MirrorVault.settleBatch, bind_ok, pure_ok] at settled
      obtain ⟨_, -, _, -, _, -, rfl⟩ := settled
      exact .inr (quiet (by simp [call]) (le_refl _))
    | accrued accruals nonce fees s' call acts applied =>
      obtain ⟨i, -, written⟩ := InstructionSender.accrueFees_ok applied
      have ledger := (accrueEach_explains (guarded.withSender i) written).2.1
      exact .inr (quiet (by simp [call]) (by simp only [Custody.till, System.custody, ledger,
        le_refl]))
    | withdrawn follower lead nonce s' call acts applied =>
      have authorized := finalizeWithdrawal_authorized applied
      obtain ⟨i, -, written⟩ := InstructionSender.finalizeWithdrawal_ok applied
      obtain ⟨custody, paid, rfl⟩ := System.onVault_ok written
      exact .inl ⟨authorized, .withdrawn follower lead nonce call
        (MirrorVault.call_paysOut (.finalizeWithdrawal _ _) paid
          (guarded.custody.repays_less paid))⟩

end Chain

/-- In any state of the vault a stranger takes nothing and changes no lock, and nobody but the
follower and the instruction sender touches an account to its disadvantage. FXRP leaves only as a
loan to the instruction sender within one account's unlocked balance, or as a withdrawal to its
follower. In the deployed system both happen only in calls that the executor or the owner makes to
the instruction sender. -/
theorem only_tee_moves_funds (D : Deployment) :
    (∀ (env : External) (caller : Address) (c c' : Custody) (op : VaultCall),
      MirrorVault.call D env caller c op = .ok c' →
        (caller ≠ c.vault.instructionSender → c.Kept D c' ∧ ∀ f, f ≠ caller → c.Spares f c') ∧
        (c'.till D < c.till D → c.PaysOut D caller c' op)) ∧
      ∀ (c : Chain D) (txs : List (Tx D)) (tx : Tx D), c.Deployed →
        Admissible Chain.step Chain.KeepsVault c (txs ++ [tx]) →
        ((tx.caller.addr = (run Chain.step c txs).sys.sender.authorizedExecutor ∨
            tx.caller.addr = (run Chain.step c txs).sys.sender.owner) ∧
          tx.PaysOut (run Chain.step c txs).sys (run Chain.step c (txs ++ [tx])).sys) ∨
        ((run Chain.step c txs).sys.custody.till D ≤
            (run Chain.step c (txs ++ [tx])).sys.custody.till D ∧
          ∀ exec ∈ tx.matched (run Chain.step c txs).sys,
            exec.swap.tokenIn ≠ D.fxrpToken) := by
  refine ⟨fun env caller c c' op h => ⟨fun stranger => MirrorVault.call_stranger op stranger h,
    MirrorVault.call_paysOut op h⟩, fun c txs tx deployed keeps => ?_⟩
  obtain ⟨before, last⟩ := (admissible_append _ _ _ _).mp keeps
  have guarded : (run Chain.step c txs).sys.Guarded D :=
    run_invariant Chain.guarded_step c deployed.system txs before
  rw [run_append]
  exact Chain.paysOut_step _ tx guarded last.1

theorem only_tee_moves_funds_trade :
    let before := run Chain.step Sample.chain (Sample.trade.take 3)
    let lock := Sample.tx 4 Sample.executor (.executeMatch ⟨Sample.alice, Sample.lead,
      Sample.swap Sample.deployment.fxrpToken Sample.usdt0 60, 0, 0⟩)
    lock.PaysOut before.sys (before.step lock).sys := by
  have paid := (only_tee_moves_funds Sample.deployment).2 Sample.chain (Sample.trade.take 3)
    (Sample.tx 4 Sample.executor (.executeMatch ⟨Sample.alice, Sample.lead,
      Sample.swap Sample.deployment.fxrpToken Sample.usdt0 60, 0, 0⟩)) Sample.chain_deployed
    (by decide +kernel)
  rcases paid with paid | quiet
  · rw [run_append] at paid
    exact paid.2
  · exact absurd quiet.1 (by decide +kernel)

end Mirror
