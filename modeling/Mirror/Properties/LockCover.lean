import Mirror.Refinement.Custody

/-!
Locked funds against recorded balances. `requestWithdrawal`, `transferForExecution` and
`settleFromProof` subtract what is locked from the balance and rely on the difference being
there; `settleBatch` debits balances without looking at locks.
-/
namespace Mirror

open Evm MirrorVault

/-- An operation on the vault by any caller, or anything at all happening to the tokens. -/
inductive VaultOp
  | call (env : External) (caller : Address) (c : VaultCall)
  | elsewhere (ledger : Ledger)

variable (D : Deployment)

def vaultStep (c : Custody) : VaultOp → Custody
  | .call env caller op =>
    match MirrorVault.call D env caller c op with
    | .ok c' => c'
    | .error _ => c
  | .elsewhere ledger => { c with ledger }

def Custody.LocksCovered (c : Custody) : Prop :=
  ∀ f l, (c.vault.subAccounts f l).pendingLocked ≤ (c.vault.subAccounts f l).balance

/-- If the operation is a batch that goes through, its net effect leaves every account with at
least what the account has locked. -/
def BatchRespectsLocks (c : Custody) : VaultOp → Prop
  | .call env caller (.settleBatch settlements) =>
    (∃ c', MirrorVault.call D env caller c (.settleBatch settlements) = .ok c') → ∀ f l,
      ((c.vault.subAccounts f l).pendingLocked.val : ℤ) ≤
        (c.vault.subAccounts f l).balance.val + netDelta settlements f l
  | _ => True

variable {D} {env : External} {caller : Address} {c c' : Custody}

theorem Custody.LocksCovered.write {ledger : Ledger} {f l : Address} {a : SubAccount}
    (covered : c.LocksCovered) (safe : a.pendingLocked.val ≤ a.balance.val) :
    Custody.LocksCovered ⟨ledger, c.vault.setAccount f l a⟩ := by
  intro f' l'
  by_cases h : f' = f ∧ l' = l
  · obtain ⟨rfl, rfl⟩ := h
    simpa using safe
  · simpa only [setAccount_other c.vault a h] using covered f' l'

theorem credit_covered {src follower lead : Address} {amount : Uint256}
    (covered : c.LocksCovered) (h : credit D env src follower lead amount c = .ok c') :
    c'.LocksCovered := by
  simp only [credit, bind_ok, orRevert_ok, checkedAdd_some, pure_ok] at h
  obtain ⟨ledger, -, balance, hb, rfl⟩ := h
  have before : (c.vault.subAccounts follower lead).pendingLocked.val ≤ _ := covered follower lead
  exact covered.write (by simp only; omega)

theorem requestWithdrawal_covered {lead : Address} {amount : Uint256}
    (covered : c.LocksCovered) (h : requestWithdrawal caller lead amount c = .ok c') :
    c'.LocksCovered := by
  simp only [requestWithdrawal, bind_ok, revertIf_ok, orRevert_ok, checkedSub_some, pure_ok,
    exists_const, Fin.lt_def, not_lt] at h
  obtain ⟨-, available, ha, enough, balance, hb, pending, -, rfl⟩ := h
  exact covered.write (by simp only; omega)

theorem transferForExecution_covered {follower lead : Address} {amount : Uint256}
    (covered : c.LocksCovered)
    (h : transferForExecution D env caller follower lead amount c = .ok c') :
    c'.LocksCovered := by
  simp only [transferForExecution, bind_ok, revertIf_ok, orRevert_ok, checkedSub_some,
    checkedAdd_some, pure_ok, exists_const, Fin.lt_def, not_lt] at h
  obtain ⟨_, -, -, available, ha, enough, locked, hl, ledger, -, rfl⟩ := h
  exact covered.write (by simp only; omega)

/-- A proof releases the lock together with the balance. -/
theorem settleFromProof_covered {follower lead : Address} {delta : Int256}
    (covered : c.LocksCovered) (h : settleFromProof caller follower lead delta c = .ok c') :
    c'.LocksCovered := by
  have before : (c.vault.subAccounts follower lead).pendingLocked.val ≤ _ := covered follower lead
  obtain ⟨-, -, -, settled⟩ := settleFromProof_ok.mp h
  rcases settled with ⟨-, locked, balance, -, hl, hb, rfl⟩ | ⟨-, balance, hb, rfl⟩ | ⟨-, rfl⟩
  · exact covered.write (by simp only; omega)
  · exact covered.write (by simp only; omega)
  · exact covered

theorem finalizeWithdrawal_covered {follower lead : Address} (covered : c.LocksCovered)
    (h : finalizeWithdrawal D env caller follower lead c = .ok c') : c'.LocksCovered := by
  simp only [finalizeWithdrawal, bind_ok, pure_ok] at h
  obtain ⟨_, -, _, -, ledger, -, rfl⟩ := h
  exact covered.write (covered follower lead)

/-- For a batch the two say the same, account by account. -/
theorem settleBatch_covered_iff {settlements : List Settlement}
    (h : settleBatch caller settlements c = .ok c') :
    c'.LocksCovered ↔ ∀ f l, ((c.vault.subAccounts f l).pendingLocked.val : ℤ) ≤
      (c.vault.subAccounts f l).balance.val + netDelta settlements f l := by
  simp only [settleBatch, bind_ok, pure_ok] at h
  obtain ⟨_, -, _, -, v, settled, rfl⟩ := h
  have accounts := (settleEach_writes settled).2
  refine forall_congr' fun f => forall_congr' fun l => ?_
  -- balances move by the net delta, locks do not move
  obtain ⟨balance, locked, -⟩ := accounts f l
  simp only [locked, Fin.le_def]
  omega

/-- Every operation but a batch keeps locks covered. -/
theorem vaultStep_covered_iff (c : Custody) (op : VaultOp) (covered : c.LocksCovered) :
    (vaultStep D c op).LocksCovered ↔ BatchRespectsLocks D c op := by
  cases op with
  | elsewhere ledger => exact iff_of_true covered trivial
  | call env caller op =>
    cases result : MirrorVault.call D env caller c op with
    | error e =>
      simp only [vaultStep, result]
      refine iff_of_true covered ?_
      cases op <;> simp [BatchRespectsLocks, result]
    | ok c' =>
      simp only [vaultStep, result]
      cases op with
      | settleBatch settlements =>
        rw [settleBatch_covered_iff result]
        -- the batch went through, so its condition is not vacuous
        exact ⟨fun safe _ => safe, fun safe => safe ⟨c', result⟩⟩
      | deposit lead amount =>
        simp only [MirrorVault.call, deposit, bind_ok] at result
        obtain ⟨_, -, credited⟩ := result
        exact iff_of_true (credit_covered covered credited) trivial
      | depositFor follower lead amount =>
        simp only [MirrorVault.call, depositFor, bind_ok] at result
        obtain ⟨_, -, _, -, _, -, credited⟩ := result
        exact iff_of_true (credit_covered covered credited) trivial
      | requestWithdrawal lead amount =>
        exact iff_of_true (requestWithdrawal_covered covered result) trivial
      | transferForExecution follower lead amount =>
        exact iff_of_true (transferForExecution_covered covered result) trivial
      | settleFromProof follower lead delta =>
        exact iff_of_true (settleFromProof_covered covered result) trivial
      | finalizeWithdrawal follower lead =>
        exact iff_of_true (finalizeWithdrawal_covered covered result) trivial
      | receiveExecutionProceeds amount =>
        simp only [MirrorVault.call, receiveExecutionProceeds, bind_ok, pure_ok] at result
        obtain ⟨_, -, _, -, ledger, -, rfl⟩ := result
        exact iff_of_true covered trivial
      | setInstructionSender | setFsaOnboarder | setLegacySettleBatchEnabled | transferOwnership
      | renounceOwnership =>
        have accounts := (call_setting rfl result).accounts
        exact iff_of_true (fun f l => accounts ▸ covered f l) trivial

/-- From a fresh vault, locks stay covered through a run exactly when every batch that goes
through leaves each account, on balance, at least its locks. -/
theorem locks_covered_iff_batches_respect_locks (D : Deployment) (ledger : Ledger)
    (owner : Address) (ops : List VaultOp) :
    (∀ done, done <+: ops →
      (run (vaultStep D) ⟨ledger, deployed owner⟩ done).LocksCovered) ↔
      Admissible (vaultStep D) (BatchRespectsLocks D) ⟨ledger, deployed owner⟩ ops :=
  run_invariant_iff vaultStep_covered_iff _ (fun _ _ => le_rfl) ops

/-- 60 of 100 are locked for a swap when a batch debits 80. -/
def debitedWhileLocked : List VaultOp :=
  let env := Sample.external fun _ => true
  [.call env Sample.owner (.setInstructionSender Sample.deployment.sender),
    .call env Sample.owner (.setLegacySettleBatchEnabled true),
    .call env Sample.alice (.deposit Sample.lead 100),
    .call env Sample.deployment.sender (.transferForExecution Sample.alice Sample.lead 60),
    .call env Sample.deployment.sender
      (.settleBatch [⟨Sample.alice, Sample.lead, ⟨-80, by decide, by decide⟩, 1⟩])]

theorem locks_not_always_covered :
    ¬∀ (D : Deployment) (ledger : Ledger) (owner : Address) (ops : List VaultOp),
      (run (vaultStep D) ⟨ledger, deployed owner⟩ ops).LocksCovered := by
  intro always
  have covered := always Sample.deployment Sample.ledger Sample.owner debitedWhileLocked
    Sample.alice Sample.lead
  revert covered
  decide +kernel

end Mirror
