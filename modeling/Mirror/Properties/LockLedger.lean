import Mirror.Refinement.Runs

/-!
What is locked in the vault and what the unsettled fills of the instruction sender still hold
back are the same, account by account.
-/
namespace Mirror

open Evm Escrow

variable {D : Deployment}

namespace Chain

def locked (c : Chain D) (f l : Address) : ℕ := (c.sys.vault.subAccounts f l).pendingLocked.val

/-- The lock invariant of the book, read off the contracts. -/
theorem locked_eq_open (c : Chain D) (ledgered : c.book.Ledgered) (f l : Address) :
    c.locked f l = ((openExecutions c.history).map fun e => e.fill.holds D f l).sum := by
  have lock : c.locked f l = 0 + c.book.debits (f, l) := ledgered (f, l)
  rw [lock, Nat.zero_add, Book.debits, Chain.book, System.book, Custody.book, List.map_map]
  exact congrArg List.sum (List.map_congr_left fun e _ => holds_eq_debit f l e.fill)

theorem ledgered_step (c : Chain D) (tx : Tx D) (inv : c.Guarded ∧ c.book.Ledgered)
    (wired : c.Wired tx) : (c.step tx).Guarded ∧ (c.step tx).book.Ledgered := by
  obtain ⟨guarded, booked⟩ := c.step_books tx inv.1 wired
  obtain ⟨moves, reaches⟩ := booked.reaches
  exact ⟨guarded, reaches.ledgered inv.2⟩

/-- If a step lowers a lock, it settled a fill of that very account, by what the fill held. -/
theorem lock_released (c : Chain D) (tx : Tx D) (inv : c.Guarded ∧ c.book.Ledgered)
    (wired : c.Wired tx) (f l : Address) (lower : (c.step tx).locked f l < c.locked f l) :
    ∃ fillId, (c.sys.sender.pendingFills fillId).live = true ∧
      ((c.step tx).sys.sender.pendingFills fillId).settled = true ∧
      (c.sys.sender.pendingFills fillId).follower = f ∧
      (c.sys.sender.pendingFills fillId).lead = l ∧
      (c.sys.sender.pendingFills fillId).tokenIn = D.fxrpToken ∧
      c.locked f l =
        (c.step tx).locked f l + (c.sys.sender.pendingFills fillId).amountIn.val := by
  have before := c.locked_eq_open inv.2 f l
  have after := (c.step tx).locked_eq_open (c.ledgered_step tx inv wired).2 f l
  obtain ⟨o, history, records⟩ := c.step_records tx
  rw [history] at after
  -- only a settlement takes something off the list of open fills
  cases o with
  | reverted | done | accrued =>
    simp only [openExecutions] at after
    omega
  | matched e =>
    simp only [openExecutions, List.map_cons, List.sum_cons] at after
    omega
  | settled fillId proof fees =>
    obtain ⟨live, -, written⟩ := records
    obtain ⟨e, first, same⟩ := inv.1.stored fillId live
    have erased := sum_map_eraseP (fun e : Execution => e.fill.holds D f l) _ _ _ first
    simp only [openExecutions] at after
    rw [← before, ← after, same] at erased
    -- the lock fell, so the settled fill held a part of it
    have held : (c.sys.sender.pendingFills fillId).holds D f l ≠ 0 := by omega
    simp only [PendingFill.holds, ne_eq, ite_eq_right_iff, Classical.not_imp] at held
    obtain ⟨⟨own, by_, inFxrp⟩, -⟩ := held
    refine ⟨fillId, live, ?_, own, by_, inFxrp, ?_⟩
    · simp [written, InstructionSender.markSettled]
    · rw [PendingFill.holds, if_pos ⟨own, by_, inFxrp⟩] at erased
      exact erased.symm

end Chain

/-- After every run each account's lock is the sum of `amountIn` over its unsettled FXRP fills;
a further step that lowers the lock settles one of them. -/
theorem locked_eq_unsettled_fills (c : Chain D) (txs : List (Tx D)) (deployed : c.Deployed)
    (supply : c.fxrpSupply < 2 ^ 255) (wired : Admissible Chain.step Chain.Wired c txs)
    (few : fillCount (run Chain.step c txs).history < 2 ^ 256) (f l : Address) :
    ((run Chain.step c txs).sys.vault.subAccounts f l).pendingLocked.val =
        ∑ i, (if ((run Chain.step c txs).sys.sender.pendingFills i).exists_ = true ∧
            ((run Chain.step c txs).sys.sender.pendingFills i).settled = false ∧
            ((run Chain.step c txs).sys.sender.pendingFills i).follower = f ∧
            ((run Chain.step c txs).sys.sender.pendingFills i).lead = l ∧
            ((run Chain.step c txs).sys.sender.pendingFills i).tokenIn = D.fxrpToken then
          ((run Chain.step c txs).sys.sender.pendingFills i).amountIn.val else 0) ∧
      ∀ tx, (run Chain.step c txs).Wired tx →
        ((run Chain.step c txs).step tx).locked f l < (run Chain.step c txs).locked f l →
        ∃ fillId, ((run Chain.step c txs).sys.sender.pendingFills fillId).live = true ∧
          (((run Chain.step c txs).step tx).sys.sender.pendingFills fillId).settled = true ∧
          ((run Chain.step c txs).sys.sender.pendingFills fillId).follower = f ∧
          ((run Chain.step c txs).sys.sender.pendingFills fillId).lead = l ∧
          ((run Chain.step c txs).sys.sender.pendingFills fillId).tokenIn = D.fxrpToken ∧
          (run Chain.step c txs).locked f l = ((run Chain.step c txs).step tx).locked f l +
            ((run Chain.step c txs).sys.sender.pendingFills fillId).amountIn.val := by
  have inv : (run Chain.step c txs).Guarded ∧ (run Chain.step c txs).book.Ledgered :=
    run_invariant (fun c tx inv ok => c.ledgered_step tx inv ok) c
      ⟨deployed.guarded supply, deployed.ledgered⟩ txs wired
  refine ⟨?_, fun tx ok lower => (run Chain.step c txs).lock_released tx inv ok f l lower⟩
  have total := (c.numbered_run txs deployed.stored deployed.numbered few).total
    (PendingFill.holds D f l)
  have lock := (run Chain.step c txs).locked_eq_open inv.2 f l
  rw [← total] at lock
  rw [Chain.locked] at lock
  rw [lock]
  refine Finset.sum_congr rfl fun i _ => ?_
  simp only [PendingFill.holds, PendingFill.live, Bool.and_eq_true, Bool.not_eq_true',
    ← ite_and, and_assoc]

theorem locked_eq_unsettled_fills_trade :
    ((run Chain.step Sample.chain Sample.trade).sys.vault.subAccounts
        Sample.alice Sample.lead).pendingLocked.val =
      ∑ i, (if ((run Chain.step Sample.chain Sample.trade).sys.sender.pendingFills i).exists_ = true ∧
          ((run Chain.step Sample.chain Sample.trade).sys.sender.pendingFills i).settled = false ∧
          ((run Chain.step Sample.chain Sample.trade).sys.sender.pendingFills i).follower =
            Sample.alice ∧
          ((run Chain.step Sample.chain Sample.trade).sys.sender.pendingFills i).lead =
            Sample.lead ∧
          ((run Chain.step Sample.chain Sample.trade).sys.sender.pendingFills i).tokenIn =
            Sample.deployment.fxrpToken then
        ((run Chain.step Sample.chain Sample.trade).sys.sender.pendingFills i).amountIn.val
        else 0) :=
  (locked_eq_unsettled_fills Sample.chain Sample.trade Sample.chain_deployed
    (by decide +kernel) (by decide +kernel) (by decide +kernel) Sample.alice Sample.lead).1

end Mirror
