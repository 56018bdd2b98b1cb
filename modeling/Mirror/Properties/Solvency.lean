import Mirror.Refinement.Runs

/-!
The vault always holds what its accounts can ask for. Between swap and proof the books are out of
step with the till, and the open fills make up the difference.
-/
namespace Mirror

open Evm Escrow MirrorVault

variable {D : Deployment}

/-- FXRP that a fill brings to the vault. -/
def PendingFill.proceeds (D : Deployment) (fill : PendingFill) : ℕ :=
  if fill.tokenOut = D.fxrpToken then fill.amountOut.val else 0

namespace Chain

/-- FXRP in the vault. -/
def cash (c : Chain D) : ℕ := (c.sys.ledger D.fxrpToken).balanceOf D.vault

/-- What the sub-accounts record, locked money having left already. -/
def recorded (c : Chain D) : ℤ :=
  ∑ k : Address × Address, (((c.sys.vault.subAccounts k.1 k.2).balance.val : ℤ) +
    (c.sys.vault.subAccounts k.1 k.2).pendingWithdrawal.val -
    (c.sys.vault.subAccounts k.1 k.2).pendingLocked.val)

/-- FXRP that executions still open brought to the vault. -/
def awaited (c : Chain D) : ℕ :=
  ((openExecutions c.history).map fun e => e.fill.proceeds D).sum

/-- FXRP that a transaction sends to the vault directly. -/
def direct (c : Chain D) (tx : Tx D) : ℤ := gifts D D.vault (tx.actions c.sys)

/-- The wiring is fixed, batches without proof stay off and swaps are between different tokens. -/
structure Proper (c : Chain D) (tx : Tx D) : Prop where
  wired : c.Wired tx
  legacy : ∀ a ∈ tx.actions c.sys, a.entry.enablesLegacy = false
  distinct : c.SwapsDistinct tx

instance (c : Chain D) (tx : Tx D) : Decidable (c.Proper tx) :=
  decidable_of_iff (c.Wired tx ∧ (∀ a ∈ tx.actions c.sys, a.entry.enablesLegacy = false) ∧
      ∀ exec ∈ tx.matched c.sys, exec.swap.tokenIn ≠ exec.swap.tokenOut)
    ⟨fun h => ⟨h.1, h.2.1, h.2.2⟩, fun h => ⟨h.wired, h.legacy, h.distinct⟩⟩

structure Solvent (c : Chain D) : Prop where
  guarded : c.Guarded
  off : c.sys.vault.legacySettleBatchEnabled = false
  covered : c.book.Covered
  distinct : ∀ e ∈ openExecutions c.history, e.fill.tokenIn ≠ e.fill.tokenOut
  surplus : 0 ≤ c.book.surplus

theorem gifts_nonneg (x : Address) (actions : List (Action D)) : 0 ≤ gifts D x actions := by
  refine List.sum_nonneg fun g member => ?_
  obtain ⟨a, -, rfl⟩ := List.mem_map.mp member
  exact Int.natCast_nonneg _

theorem distinct_step (c : Chain D) (tx : Tx D) (proper : c.SwapsDistinct tx)
    (distinct : ∀ e ∈ openExecutions c.history, e.fill.tokenIn ≠ e.fill.tokenOut) :
    ∀ e ∈ openExecutions (c.step tx).history, e.fill.tokenIn ≠ e.fill.tokenOut := by
  rcases c.step_cases tx with ⟨_, -, stepped⟩ | ⟨s, o, performed, stepped⟩
  · rw [stepped]
    exact distinct
  · rw [stepped]
    cases Tx.perform_trace performed with
    | matched exec call t acts =>
      intro e member
      rcases List.mem_cons.mp member with rfl | old
      · exact proper.tokens performed call
      · exact distinct e old
    | settled fillId proof fees s' call acts applied =>
      exact fun e member => distinct e (List.mem_of_mem_eraseP member)
    | entry | batch | accrued | withdrawn => exact distinct

theorem solvent_step (c : Chain D) (tx : Tx D) (solvent : c.Solvent) (proper : c.Proper tx) :
    (c.step tx).Solvent ∧ (c.step tx).book.surplus = c.book.surplus + c.direct tx := by
  obtain ⟨guarded, booked⟩ := c.step_books tx solvent.guarded proper.wired
  -- without corrections every move is booked, so the surplus grows by the gifts
  have surplus : (c.step tx).book.surplus = c.book.surplus + c.direct tx := by
    cases booked with
    | corrected legacy =>
      rw [solvent.off] at legacy
      cases legacy
    | explained g gift explains =>
      obtain ⟨moves, reaches, booked, brought⟩ := explains
      rw [reaches.surplus booked, brought, gift proper.distinct]
      rfl
  have gained := gifts_nonneg D.vault (tx.actions c.sys)
  have before := solvent.surplus
  refine ⟨⟨guarded, c.step_legacy tx solvent.guarded proper.legacy solvent.off,
    booked.covered solvent.off solvent.covered,
    c.distinct_step tx proper.distinct solvent.distinct, ?_⟩, surplus⟩
  rw [surplus]
  exact Int.add_nonneg before gained

theorem Deployed.solvent {c : Chain D} (deployed : c.Deployed) (supply : c.fxrpSupply < 2 ^ 255) :
    c.Solvent ∧ c.book.surplus = c.cash := by
  obtain ⟨balance, owed, locked, tickets⟩ := deployed.book
  -- all books are empty
  have surplus : c.book.surplus = c.cash := by
    simp [Book.surplus, Book.claims, Book.proceeds, balance, owed, locked, tickets]
    rfl
  refine ⟨⟨deployed.guarded supply, deployed.off, deployed.covered, ?_, ?_⟩, surplus⟩
  · simp [deployed.history, openExecutions]
  · rw [surplus]
    exact Int.natCast_nonneg _

/-- Reading the surplus of the book off the contracts. -/
theorem Solvent.cash_eq {c : Chain D} (solvent : c.Solvent) :
    (c.cash : ℤ) = c.recorded + c.awaited + c.book.surplus := by
  -- with different tokens a ticket credits what the fill brings to the vault
  have proceeds : c.book.proceeds = c.awaited := by
    simp only [Book.proceeds, Chain.book, System.book, Custody.book, Chain.awaited, List.map_map]
    refine congrArg List.sum (List.map_congr_left fun e member => ?_)
    have distinct := solvent.distinct e member
    by_cases outFxrp : e.fill.tokenOut = D.fxrpToken
    · have other : e.fill.tokenIn ≠ D.fxrpToken := fun inFxrp =>
        distinct (inFxrp.trans outFxrp.symm)
      simp [ticketOf, PendingFill.proceeds, outFxrp, other]
    · simp [ticketOf, PendingFill.proceeds, outFxrp]
  have surplus : c.book.surplus = c.cash - c.recorded - c.awaited := by
    rw [Book.surplus, proceeds]
    rfl
  omega

/-- The vault can pay what it owes and lend what is unlocked. -/
theorem Solvent.affords {c : Chain D} (solvent : c.Solvent) (f l : Address) :
    (c.sys.vault.subAccounts f l).pendingWithdrawal.val ≤ c.cash ∧
      (c.sys.vault.subAccounts f l).balance.val ≤
        c.cash + (c.sys.vault.subAccounts f l).pendingLocked.val := by
  -- the claim of one account is within the till, as no claim is negative
  have claim : (c.sys.vault.subAccounts f l).balance.val +
      (c.sys.vault.subAccounts f l).pendingWithdrawal.val ≤
        c.cash + (c.sys.vault.subAccounts f l).pendingLocked.val :=
    Book.claim_le_cash c.book solvent.covered solvent.surplus (f, l)
  have covered : (c.sys.vault.subAccounts f l).pendingLocked.val ≤
      (c.sys.vault.subAccounts f l).balance.val := solvent.covered (f, l)
  exact ⟨by omega, by omega⟩

/-- A transfer out of the vault that the vault can afford fails only if the token refuses. -/
theorem transfer_refused {c : Chain D} {env : External} {dst : Address} {n : ℕ}
    (affords : n ≤ c.cash)
    (h : c.sys.ledger.call env D.fxrpToken D.vault (.transfer dst n) = .error .tokenReverted) :
    env.refuses D.fxrpToken D.vault (.transfer dst n) = true := by
  obtain ⟨-, refused | failed⟩ := (Ledger.call_error _ _ _ _ _ _).mp h
  · exact refused
  · obtain ⟨t, moved⟩ := (Token.move_isSome (c.sys.ledger D.fxrpToken) D.vault dst n).mpr affords
    simp only [Token.perform, moved, reduceCtorEq] at failed

/-- No lock that passes its checks fails for lack of tokens. -/
theorem Solvent.lock_funded {c : Chain D} (solvent : c.Solvent) {env : External}
    {f l : Address} {amount : Uint256}
    (h : transferForExecution D env D.sender f l amount ⟨c.sys.ledger, c.sys.vault⟩ =
      .error .tokenReverted) :
    env.refuses D.fxrpToken D.vault (.transfer D.sender amount.val) = true := by
  have affords := (solvent.affords f l).2
  simp only [transferForExecution, MirrorVault.onlyInstructionSender, bind_error, revertIf_error,
    revertIf_ok, orRevert_error, orRevert_ok, checkedSub_some, checkedAdd_some, pure_error,
    reduceCtorEq, and_false, exists_false, or_false, false_or, exists_const, Fin.lt_def,
    not_lt] at h
  obtain ⟨-, -, available, ha, enough, locked, -, failed⟩ := h
  exact transfer_refused (by omega) failed

/-- No withdrawal that is due fails for lack of tokens. -/
theorem Solvent.withdrawal_funded {c : Chain D} (solvent : c.Solvent) {env : External}
    {f l : Address}
    (h : finalizeWithdrawal D env D.sender f l ⟨c.sys.ledger, c.sys.vault⟩ =
      .error .tokenReverted) :
    env.refuses D.fxrpToken D.vault
      (.transfer f (c.sys.vault.subAccounts f l).pendingWithdrawal.val) = true := by
  simp only [finalizeWithdrawal, MirrorVault.onlyInstructionSender, bind_error, revertIf_error,
    revertIf_ok, pure_error, reduceCtorEq, and_false, exists_false, or_false, false_or,
    exists_const] at h
  obtain ⟨-, -, failed⟩ := h
  exact transfer_refused (solvent.affords f l).1 failed

end Chain

/-- After every run the vault's FXRP is what the accounts record, plus the proceeds of fills
still to be settled, plus what was sent to it directly; so no lock and no withdrawal ever fails
for lack of tokens. -/
theorem vault_solvent (c : Chain D) (txs : List (Tx D)) (deployed : c.Deployed)
    (supply : c.fxrpSupply < 2 ^ 255) (proper : Admissible Chain.step Chain.Proper c txs) :
    ((run Chain.step c txs).cash : ℤ) =
        (run Chain.step c txs).recorded + (run Chain.step c txs).awaited +
          (c.cash + accumulate Chain.step Chain.direct c txs) ∧
      (fillCount (run Chain.step c txs).history < 2 ^ 256 →
        (run Chain.step c txs).awaited =
          ∑ i, if ((run Chain.step c txs).sys.sender.pendingFills i).live then
            ((run Chain.step c txs).sys.sender.pendingFills i).proceeds D else 0) ∧
      (∀ (env : External) (f l : Address) (amount : Uint256),
        transferForExecution D env D.sender f l amount
            ⟨(run Chain.step c txs).sys.ledger, (run Chain.step c txs).sys.vault⟩ =
          .error .tokenReverted →
        env.refuses D.fxrpToken D.vault (.transfer D.sender amount.val) = true) ∧
      ∀ (env : External) (f l : Address),
        finalizeWithdrawal D env D.sender f l
            ⟨(run Chain.step c txs).sys.ledger, (run Chain.step c txs).sys.vault⟩ =
          .error .tokenReverted →
        env.refuses D.fxrpToken D.vault (.transfer f
          ((run Chain.step c txs).sys.vault.subAccounts f l).pendingWithdrawal.val) = true := by
  obtain ⟨start, initial⟩ := deployed.solvent supply
  have solvent : (run Chain.step c txs).Solvent :=
    run_invariant (fun c tx inv ok => (c.solvent_step tx inv ok).1) c start txs proper
  have surplus := run_accumulates (f := Chain.direct) (g := fun c => c.book.surplus)
    (fun c tx inv ok => (c.solvent_step tx inv ok).1)
    (fun c tx inv ok => (c.solvent_step tx inv ok).2) c start txs proper
  refine ⟨?_, ?_, ?_, ?_⟩
  · rw [solvent.cash_eq, surplus, initial]
  · intro few
    exact ((c.numbered_run txs deployed.stored deployed.numbered few).total
      (PendingFill.proceeds D)).symm
  · exact fun env f l amount h => solvent.lock_funded h
  · exact fun env f l h => solvent.withdrawal_funded h

theorem vault_solvent_trade :
    ((run Chain.step Sample.chain Sample.trade).cash : ℤ) =
      (run Chain.step Sample.chain Sample.trade).recorded +
        (run Chain.step Sample.chain Sample.trade).awaited +
        (Sample.chain.cash + accumulate Chain.step Chain.direct Sample.chain Sample.trade) :=
  (vault_solvent Sample.chain Sample.trade Sample.chain_deployed (by decide +kernel)
    (by decide +kernel)).1

end Mirror
