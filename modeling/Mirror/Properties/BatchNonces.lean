import Mirror.Refinement.History

/-!
Batch nonces. Three entry points of `InstructionSender` share one counter, and each value of it is
spent by one successful call, in order. The map of spent values never refuses a call.
-/
namespace Mirror

open Evm InstructionSender

variable {D : Deployment} {env : External} {caller : Address} {s s' : System}

/-! ### Who reverts with `NonceAlreadyUsed` -/

/-- Reverts of the vault's loop come from a settlement. -/
theorem settleEach_spares (settlements : List Settlement) (v : MirrorVault) :
    MirrorVault.settleEach settlements v ≠ .error .nonceAlreadyUsed := by
  induction settlements generalizing v with
  | nil => simp only [MirrorVault.settleEach, pure_error, ne_eq, not_false_iff]
  | cons s rest ih =>
    simp only [MirrorVault.settleEach, MirrorVault.settleOne, bind_error, revertIf_error,
      orRevert_error, pure_error, ite_error, ih, reduceCtorEq, and_false, exists_false, or_self,
      ne_eq, not_false_iff]

theorem MirrorVault.call_spares (D : Deployment) (env : External) (caller : Address) (c : Custody)
    (op : VaultCall) :
    MirrorVault.call D env caller c op ≠ .error .nonceAlreadyUsed := by
  cases op <;>
    simp only [MirrorVault.call, setInstructionSender, setFsaOnboarder, setLegacySettleBatchEnabled,
      deposit, depositFor, credit, requestWithdrawal, transferForExecution, settleFromProof,
      receiveExecutionProceeds, settleBatch, finalizeWithdrawal, transferOwnership, onlyOwner,
      onlyInstructionSender, onlyFsaOnboarder, bind_error, revertIf_error, orRevert_error,
      pure_error, ite_error, Ledger.call_error, settleEach_spares, reduceCtorEq, and_false,
      false_and, exists_false, or_self, ne_eq, not_false_iff]

theorem accrueFee_spares (registry : MirrorRegistry) (lead follower : Address)
    (profit epochId : Uint256) (m : MirrorFee) :
    m.accrueFee registry caller lead follower profit epochId ≠ .error .nonceAlreadyUsed := by
  simp only [MirrorFee.accrueFee, MirrorFee.grossFee, MirrorFee.protocolFee,
    MirrorFee.onlyInstructionSender, bind_error, revertIf_error, orRevert_error, pure_error,
    ite_error, reduceCtorEq, and_false, exists_false, or_self, ne_eq, not_false_iff]

theorem MirrorFee.call_spares (D : Deployment) (env : External) (caller : Address)
    (registry : MirrorRegistry) (t : Treasury) (op : FeeCall) :
    MirrorFee.call D env registry caller t op ≠ .error .nonceAlreadyUsed := by
  cases op <;>
    simp only [MirrorFee.call, releaseFee, onlyInstructionSender, transferOwnership, onlyOwner,
      accrueFee_spares, bind_error, revertIf_error, orRevert_error, pure_error, Ledger.call_error,
      Except.error.injEq, reduceCtorEq, and_false, false_and, exists_false, or_self, ne_eq,
      not_false_iff]

theorem MirrorRegistry.call_spares (r : MirrorRegistry) (op : RegistryCall) :
    r.call caller op ≠ .error .nonceAlreadyUsed := by
  cases op <;>
    simp only [MirrorRegistry.call, setFsaOnboarder, registerLead, registerFollower, followLead,
      unfollowLead, setLeadVerified, onlyFsaOnboarder, transferOwnership, onlyOwner, bind_error,
      revertIf_error, pure_error, reduceCtorEq, and_false, exists_false, or_self, ne_eq,
      not_false_iff]

theorem InstructionSender.call_spares (i : InstructionSender) (op : SenderCall) :
    i.call caller op ≠ .error .nonceAlreadyUsed := by
  cases op <;>
    simp only [InstructionSender.call, transferOwnership, onlyOwner, bind_error, revertIf_error,
      pure_error, reduceCtorEq, and_false, exists_false, or_self, ne_eq, not_false_iff]

theorem System.onVault_error {f : Custody → Except Revert Custody} {e : Revert} :
    s.onVault f = .error e ↔ f ⟨s.ledger, s.vault⟩ = .error e := by
  simp only [System.onVault, bind_error, pure_error, and_false, exists_false, or_false]

theorem System.onFee_error {f : Treasury → Except Revert Treasury} {e : Revert} :
    s.onFee f = .error e ↔ f ⟨s.ledger, s.fee⟩ = .error e := by
  simp only [System.onFee, bind_error, pure_error, and_false, exists_false, or_false]

theorem System.onToken_error {token who : Address} {c : TokenCall Address} {e : Revert} :
    s.onToken env token who c = .error e ↔ s.ledger.call env token who c = .error e := by
  simp only [System.onToken, bind_error, pure_error, and_false, exists_false, or_false]

theorem Action.perform_spares (a : Action D) :
    a.perform env s ≠ .error .nonceAlreadyUsed := by
  obtain ⟨who, entry⟩ := a
  cases entry <;>
    simp only [perform, System.onToken_error, System.onVault_error, System.onFee_error,
      Ledger.call_error, MirrorVault.call_spares, MirrorFee.call_spares, MirrorRegistry.call_spares,
      InstructionSender.call_spares, bind_error, pure_error, reduceCtorEq, and_false, false_and,
      exists_false, or_self, ne_eq, not_false_iff]

theorem Action.performAll_spares (actions : List (Action D)) (s : System) :
    performAll env actions s ≠ .error .nonceAlreadyUsed := by
  induction actions generalizing s with
  | nil => simp only [performAll, pure_error, ne_eq, not_false_iff]
  | cons a rest ih =>
    simp only [performAll, bind_error, perform_spares, ih, and_false, exists_false, or_self, ne_eq,
      not_false_iff]

theorem accrueEach_spares (accruals : List FeeAccrual) (s : System) :
    accrueEach D accruals s ≠ .error .nonceAlreadyUsed := by
  induction accruals generalizing s with
  | nil => simp only [accrueEach, pure_error, ne_eq, not_false_iff]
  | cons a rest ih =>
    simp only [accrueEach, bind_error, accrueFee_spares, ih, pure_error, and_false, exists_false,
      or_self, ne_eq, not_false_iff]

theorem lockLeg_spares (follower lead tokenIn : Address) (amountIn : Uint256) :
    lockLeg D env follower lead tokenIn amountIn s ≠ .error .nonceAlreadyUsed := by
  have lock := MirrorVault.call_spares D env D.sender
    ⟨s.ledger, s.vault⟩ (.transferForExecution follower lead amountIn)
  simp only [MirrorVault.call, ne_eq] at lock
  simp only [lockLeg, ite_error, System.onVault_error, lock, pure_error, and_false, or_self, ne_eq,
    not_false_iff]

theorem proceedsLeg_spares (tokenOut : Address) (amountOut : Uint256) (s : System) :
    proceedsLeg D env tokenOut amountOut s ≠ .error .nonceAlreadyUsed := by
  have proceeds (c : Custody) := MirrorVault.call_spares D env D.sender
    c (.receiveExecutionProceeds amountOut)
  simp only [MirrorVault.call, ne_eq] at proceeds
  simp only [proceedsLeg, ite_error, bind_error, System.onToken_error, System.onVault_error,
    Ledger.call_error, proceeds, pure_error, reduceCtorEq, and_false, false_and, exists_false,
    or_self, ne_eq, not_false_iff]

theorem executeMatch_spares (routers : Routers D) (exec : MatchExecution) :
    executeMatch D env caller routers exec s ≠ .error .nonceAlreadyUsed := by
  simp only [executeMatch, onlyAuthorizedExecutor, bind_error, revertIf_error, orRevert_error,
    pure_error, System.onToken_error, Ledger.call_error, lockLeg_spares, Action.performAll_spares,
    proceedsLeg_spares, reduceCtorEq, and_false, false_and, exists_false, or_self, ne_eq,
    not_false_iff]

theorem applyFdcSettlement_spares (fillId : Uint256) (proof : Proof) :
    applyFdcSettlement D env caller fillId proof s ≠ .error .nonceAlreadyUsed := by
  have unmatched (router : Address) (fill : PendingFill) (events : List Event) :
      matchSwapEvent router fill events ≠ .error .nonceAlreadyUsed := by
    intro h
    cases matchSwapEvent_error h
  have settle (c : Custody) (follower lead : Address) (delta : Int256) :=
    MirrorVault.call_spares D env D.sender c
      (.settleFromProof follower lead delta)
  have release (t : Treasury) (lead : Address) (amount : Uint256) :=
    MirrorFee.call_spares D env D.sender s.registry t
      (.releaseFee proof lead amount)
  simp only [MirrorVault.call, MirrorFee.call, ne_eq] at settle release unmatched
  simp only [applyFdcSettlement, admitProof, onlyAuthorizedExecutor, vaultLeg, fillDelta, feeLeg,
    bind_error, revertIf_error, orRevert_error, pure_error, ite_error, System.onVault_error,
    System.onFee_error, accrueFee_spares, settle, release, unmatched, reduceCtorEq, and_false,
    exists_false, or_self, ne_eq, not_false_iff]

/-- Only a nonce that is next and yet marked as spent would be refused. -/
theorem Tx.perform_nonceAlreadyUsed {tx : Tx D} (h : tx.perform s = .error .nonceAlreadyUsed) :
    s.sender.usedBatchNonces s.sender.batchNonce = true := by
  have consume {nonce : Uint256}
      (refused : s.sender.validateAndConsumeNonce nonce = .error .nonceAlreadyUsed) :
      s.sender.usedBatchNonces s.sender.batchNonce = true := by
    simp only [validateAndConsumeNonce, bind_error, revertIf_error, revertIf_ok, pure_error,
      reduceCtorEq, and_false, and_true, exists_false, or_false, false_or, exists_const, ne_eq,
      not_not] at refused
    obtain ⟨rfl, used⟩ := refused
    exact used
  have batch (c : Custody) (settlements : List Settlement) := MirrorVault.call_spares D
    tx.env D.sender c (.settleBatch settlements)
  have withdraw (c : Custody) (follower lead : Address) := MirrorVault.call_spares D
    tx.env D.sender c (.finalizeWithdrawal follower lead)
  simp only [MirrorVault.call, ne_eq] at batch withdraw
  unfold perform at h
  -- an entry point with a nonce fails on the nonce or later, the others never in this way
  split at h <;>
    simp only [bind_error, pure_error, Action.perform_spares, executeMatch_spares,
      applyFdcSettlement_spares, InstructionSender.settleBatch, InstructionSender.accrueFees,
      InstructionSender.finalizeWithdrawal, onlyAuthorizedExecutor, revertIf_error,
      System.onVault_error, accrueEach_spares, batch, withdraw, reduceCtorEq, and_false,
      exists_false, or_false, false_or] at h
  all_goals
    obtain ⟨_, -, refused⟩ := h
    exact consume refused

/-! ### What is spent -/

/-- The nonce that a call names, if it is to spend one. -/
def Call.batchNonce : Call → Option Uint256
  | .settleBatch _ nonce | .accrueFees _ nonce | .finalizeWithdrawal _ _ nonce => some nonce
  | _ => none

/-- The nonce that a transaction has spent. -/
def Receipt.spent (r : Receipt D) : Option Uint256 :=
  match r.outcome with
  | .reverted => none
  | _ => r.tx.call.batchNonce

/-- The nonces spent so far, in the order of the transactions that spent them. -/
def spentNonces (history : List (Receipt D)) : List ℕ :=
  (history.reverse.filterMap Receipt.spent).map Fin.val

/-- How a nonce shows in the counter and in the map. -/
def InstructionSender.Spends (i i' : InstructionSender) : Option Uint256 → Prop
  | some nonce =>
    nonce = i.batchNonce ∧ i'.batchNonce = i.batchNonce + 1 ∧
      i'.usedBatchNonces = Function.update i.usedBatchNonces nonce true
  | none => i'.batchNonce = i.batchNonce ∧ i'.usedBatchNonces = i.usedBatchNonces

theorem validateAndConsumeNonce_spends {i i' : InstructionSender} {nonce : Uint256}
    (h : i.validateAndConsumeNonce nonce = .ok i') : i.Spends i' (some nonce) := by
  obtain ⟨next, -, rfl⟩ := validateAndConsumeNonce_ok.mp h
  exact ⟨next, rfl, rfl⟩

/-- A transaction that goes through spends the nonce it names and no other. -/
theorem Tx.perform_spends {tx : Tx D} {o : Outcome} (h : tx.perform s = .ok (s', o)) :
    s.sender.Spends s'.sender (Receipt.spent ⟨tx, o⟩) := by
  cases Tx.perform_trace h with
  | entry e s' call acts acted =>
    simp only [Receipt.spent, call, Call.batchNonce]
    have same := Action.perform_reconfigures acted
    exact ⟨same.nonce, same.used⟩
  | matched exec call t acts =>
    simp only [Receipt.spent, call, Call.batchNonce]
    exact ⟨t.reconfigures.nonce, t.reconfigures.used⟩
  | settled fillId proof fees s' call acts applied =>
    obtain ⟨-, mid, vaultWrites, feeWrites⟩ := applyFdcSettlement_ok.mp applied
    simp only [Receipt.spent, call, Call.batchNonce]
    rw [(feeLeg_frame feeWrites).1, vaultLeg_sender vaultWrites]
    exact ⟨rfl, rfl⟩
  | batch settlements nonce s' call acts applied =>
    obtain ⟨i, consumed, written⟩ := InstructionSender.settleBatch_ok applied
    simp only [Receipt.spent, call, Call.batchNonce]
    exact System.onVault_sender written ▸ validateAndConsumeNonce_spends consumed
  | accrued accruals nonce fees s' call acts applied =>
    obtain ⟨i, consumed, written⟩ := InstructionSender.accrueFees_ok applied
    simp only [Receipt.spent, call, Call.batchNonce]
    exact accrueEach_sender written ▸ validateAndConsumeNonce_spends consumed
  | withdrawn follower lead nonce s' call acts applied =>
    obtain ⟨i, consumed, written⟩ := InstructionSender.finalizeWithdrawal_ok applied
    simp only [Receipt.spent, call, Call.batchNonce]
    exact System.onVault_sender written ▸ validateAndConsumeNonce_spends consumed

/-! ### Runs -/

namespace Chain

/-- The counter and the map tell which nonces were spent, and these are the first ones in order. -/
structure InOrder (c : Chain D) : Prop where
  used : ∀ n, c.sys.sender.usedBatchNonces n = true ↔ n < c.sys.sender.batchNonce
  spent : spentNonces c.history = List.range c.sys.sender.batchNonce.val

/-- There are no more nonces than transactions. -/
theorem InOrder.few {c : Chain D} (h : c.InOrder) :
    c.sys.sender.batchNonce.val ≤ c.history.length := by
  have length := congrArg List.length h.spent
  simp only [spentNonces, List.length_map, List.length_range] at length
  rw [← length]
  exact (List.length_filterMap_le _ _).trans_eq List.length_reverse

theorem spentNonces_cons (r : Receipt D) (history : List (Receipt D)) :
    spentNonces (r :: history) = spentNonces history ++ r.spent.toList.map Fin.val := by
  simp only [spentNonces, List.reverse_cons, List.filterMap_append, List.map_append]
  cases spent : r.spent <;> simp [spent]

theorem step_inOrder (c : Chain D) (tx : Tx D) (h : c.InOrder)
    (few : c.history.length + 1 < 2 ^ 256) : (c.step tx).InOrder := by
  rcases c.step_cases tx with ⟨e, -, stepped⟩ | ⟨s, o, performed, stepped⟩ <;> rw [stepped]
  -- a transaction that reverts spends nothing
  · exact ⟨h.used, by simpa [spentNonces_cons, Receipt.spent] using h.spent⟩
  · have spends := Tx.perform_spends performed
    cases named : Receipt.spent ⟨tx, o⟩ with
    | none =>
      rw [named] at spends
      obtain ⟨next, used⟩ := spends
      refine ⟨?_, ?_⟩
      · simp only [next, used]
        exact h.used
      · simp only [spentNonces_cons, named, next, Option.toList_none, List.map_nil, List.append_nil]
        exact h.spent
    | some nonce =>
      rw [named] at spends
      obtain ⟨rfl, next, used⟩ := spends
      -- the counter does not wrap around yet
      have val : (c.sys.sender.batchNonce + 1).val = c.sys.sender.batchNonce.val + 1 :=
        Fin.val_add_one_of_lt' (by have := h.few; omega)
      refine ⟨fun n => ?_, ?_⟩
      · simp only [next, used, Function.update_apply, Fin.lt_def, val]
        split
        next same =>
          subst same
          simp
        next other =>
          have differ : n.val ≠ c.sys.sender.batchNonce.val := fun eq => other (Fin.ext eq)
          rw [h.used, Fin.lt_def]
          omega
      · simp only [spentNonces_cons, named, next, val, Option.toList_some, List.map_cons,
          List.map_nil, List.range_succ, h.spent]

/-- In fewer than `2^256` transactions the counter does not wrap around. -/
theorem run_inOrder (sys : System) (authorizedExecutor owner : Address)
    (fresh : sys.sender = deployed authorizedExecutor owner) (txs : List (Tx D))
    (few : txs.length < 2 ^ 256) :
    (run step ⟨sys, []⟩ txs).InOrder ∧ (run step ⟨sys, []⟩ txs).history.length = txs.length := by
  -- the last transaction is one step after a shorter run
  induction txs using List.reverseRecOn with
  | nil =>
    refine ⟨⟨fun n => ?_, ?_⟩, rfl⟩
    · simp [fresh, deployed]
    · simp [fresh, deployed, spentNonces]
  | append_singleton txs tx ih =>
    rw [List.length_append, List.length_singleton] at few
    obtain ⟨ordered, counted⟩ := ih (by omega)
    rw [run_append]
    refine ⟨step_inOrder _ tx ordered (by omega), ?_⟩
    obtain ⟨o, grown, -⟩ := step_records (run step ⟨sys, []⟩ txs) tx
    simp only [run_cons, run_nil, grown, List.length_cons, List.length_append, counted,
      List.length_nil]

end Chain

/-- After any fewer than `2^256` transactions exactly the nonces below the counter are marked, they
were spent once each and in order, and the next transaction is never refused for a nonce already
used. One that reverts for another reason leaves counter and map alone. -/
theorem nonces_spent_in_order (sys : System) (authorizedExecutor owner : Address)
    (fresh : sys.sender = deployed authorizedExecutor owner) (txs : List (Tx D))
    (few : txs.length < 2 ^ 256) :
    (∀ n, (run Chain.step ⟨sys, []⟩ txs).sys.sender.usedBatchNonces n = true ↔
        n < (run Chain.step ⟨sys, []⟩ txs).sys.sender.batchNonce) ∧
      spentNonces (run Chain.step ⟨sys, []⟩ txs).history =
        List.range (run Chain.step ⟨sys, []⟩ txs).sys.sender.batchNonce.val ∧
      ∀ (tx : Tx D) (e : Revert), tx.perform (run Chain.step ⟨sys, []⟩ txs).sys = .error e →
        e ≠ .nonceAlreadyUsed ∧
          ((run Chain.step ⟨sys, []⟩ txs).step tx).sys = (run Chain.step ⟨sys, []⟩ txs).sys := by
  obtain ⟨ordered, -⟩ := Chain.run_inOrder sys authorizedExecutor owner fresh txs few
  refine ⟨ordered.used, ordered.spent, fun tx e reverted => ⟨?_, ?_⟩⟩
  · rintro rfl
    exact absurd ((ordered.used _).mp (Tx.perform_nonceAlreadyUsed reverted)) (lt_irrefl _)
  · simp only [Chain.step, reverted]

theorem nonces_spent_in_order_trade :
    spentNonces (run Chain.step Sample.chain Sample.trade).history = [0] := by
  have start : Sample.chain = ⟨Sample.chain.sys, []⟩ := rfl
  have counted : (run Chain.step Sample.chain Sample.trade).sys.sender.batchNonce = 1 := by
    decide +kernel
  rw [start] at counted ⊢
  rw [(nonces_spent_in_order Sample.chain.sys Sample.executor Sample.owner rfl Sample.trade
    (by decide)).2.1, counted]
  rfl

end Mirror
