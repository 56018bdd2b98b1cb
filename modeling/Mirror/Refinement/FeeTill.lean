import Mirror.Refinement.Fees

/-!
The till of the fee contract against what it owes. Accruing books a debt that no token follows,
releasing pays exactly what it strikes off, and all other FXRP that arrives is a gift.
-/
namespace Mirror

open Evm Escrow InstructionSender

variable {D : Deployment} {env : External} {caller : Address} {s s' s'' : System}

namespace System

/-- FXRP in the fee contract. -/
def feeTill (D : Deployment) (s : System) : ℕ := (s.ledger D.fxrpToken).balanceOf D.fee

/-- Fees accrued to all leads. -/
def feesOwed (s : System) : ℕ := ∑ lead, (s.fee.accruedFees lead).val

theorem accrued_le_owed (s : System) (lead : Address) :
    (s.fee.accruedFees lead).val ≤ s.feesOwed :=
  val_le_sum s.fee.accruedFees lead

def feeSurplus (D : Deployment) (s : System) : ℤ := s.feeTill D - s.feesOwed

/-- From `s` to `s'` the surplus grows by `n`; the wiring of the fee contract and its approvals
are as before. -/
structure FeeMoves (D : Deployment) (s : System) (n : ℤ) (s' : System) : Prop where
  surplus : s'.feeSurplus D = s.feeSurplus D + n
  row : (s'.ledger D.fxrpToken).allowance D.fee = (s.ledger D.fxrpToken).allowance D.fee
  wired : s'.fee.instructionSender = s.fee.instructionSender

theorem FeeMoves.refl (D : Deployment) (s : System) : s.FeeMoves D 0 s :=
  ⟨(Int.add_zero _).symm, rfl, rfl⟩

theorem FeeMoves.trans {m n : ℤ} (h : s.FeeMoves D m s') (h' : s'.FeeMoves D n s'') :
    s.FeeMoves D (m + n) s'' where
  surplus := by
    rw [h'.surplus, h.surplus]
    omega
  row := h'.row.trans h.row
  wired := h'.wired.trans h.wired

/-- The fee contract has approved nobody, and obeys the instruction sender. -/
structure FeeClosed (D : Deployment) (s : System) : Prop where
  row : (s.ledger D.fxrpToken).allowance D.fee = fun _ => 0
  wired : s.fee.instructionSender = D.sender

theorem FeeMoves.closed {n : ℤ} (h : s.FeeMoves D n s') (closed : s.FeeClosed D) :
    s'.FeeClosed D :=
  ⟨h.row.trans closed.row, h.wired.trans closed.wired⟩

/-- Where neither tokens nor the books of the fee contract change. -/
theorem FeeMoves.still (ledger : s'.ledger = s.ledger) (books : s.fee.SameBooks s'.fee) :
    s.FeeMoves D 0 s' where
  surplus := by
    simp only [feeSurplus, feeTill, feesOwed, ledger, books.accrued]
    omega
  row := by rw [ledger]
  wired := books.wired

/-- A token call by anybody else can only bring FXRP. -/
theorem FeeMoves.of_call {token who : Address} {c : TokenCall Address} (closed : s.FeeClosed D)
    (other : who ≠ D.fee) (called : s.ledger.call env token who c = .ok s'.ledger)
    (fee : s'.fee = s.fee) :
    s.FeeMoves D (if token = D.fxrpToken then c.inflow D.fee else 0 : ℕ) s' := by
  obtain ⟨till, row⟩ := Ledger.call_bystander called other (congrFun closed.row who)
  refine ⟨?_, row, by rw [fee]⟩
  simp only [feeSurplus, feeTill, feesOwed, till, fee, Nat.cast_add]
  omega

/-! ### Accruals and releases -/

/-- Replacing one account's entry moves what is owed by the difference. -/
theorem feesOwed_update (s : System) (m : MirrorFee) (lead : Address) (accrued : Uint256)
    (books : m.accruedFees = Function.update s.fee.accruedFees lead accrued) :
    (feesOwed { s with fee := m } : ℤ) =
      s.feesOwed + (accrued.val - (s.fee.accruedFees lead).val) := by
  have moved := sum_update (fun a => (s.fee.accruedFees a).val) lead accrued.val
  -- only the summand of this lead changes
  have entries : (fun a => (m.accruedFees a).val) =
      Function.update (fun a => (s.fee.accruedFees a).val) lead accrued.val := by
    funext a
    by_cases ha : a = lead
    · subst ha
      simp [books]
    · simp [books, ha]
  have total : feesOwed { s with fee := m } =
      ∑ a, Function.update (fun a => (s.fee.accruedFees a).val) lead accrued.val a :=
    Finset.sum_congr rfl fun a _ => congrFun entries a
  rw [total, feesOwed]
  omega

/-- An accrual owes the net fee of its event. -/
theorem accrueFee_moves {lead follower : Address} {profit epochId : Uint256} {a : Accrual}
    (h : s.fee.accrueFee s.registry caller lead follower profit epochId = .ok a) :
    s.FeeMoves D (-(a.event.toList.map fun ev => (ev.netFee.val : ℤ)).sum)
      { s with fee := a.fee } := by
  obtain ⟨-, -, -, -, gross, -, booked⟩ := MirrorFee.accrueFee_ok.mp h
  cases booked with
  | inl nothing =>
    obtain ⟨-, rfl⟩ := nothing
    exact FeeMoves.refl D s
  | inr something =>
    obtain ⟨-, protocol, net, total, -, ht, rfl⟩ := something
    -- no token moves: the debt grows by the net fee
    have owed := feesOwed_update s { s.fee with
      accruedFees := Function.update s.fee.accruedFees lead total } lead total rfl
    refine ⟨?_, rfl, rfl⟩
    simp only [feeSurplus, feeTill, owed, Option.toList_some, List.map_cons, List.map_nil,
      List.sum_cons, List.sum_nil]
    omega

/-- A release pays what it strikes off. -/
theorem releaseFee_moves {proof : Proof} {lead : Address} {amount : Uint256} {t : Treasury}
    (earners : s.fee.Earners D)
    (h : MirrorFee.releaseFee D env caller proof lead amount ⟨s.ledger, s.fee⟩ = .ok t) :
    s.FeeMoves D 0 { s with
      ledger := t.ledger
      fee := t.fee } := by
  obtain ⟨-, outside, -⟩ := MirrorFee.releaseFee_earners earners h
  obtain ⟨-, -, -, -, -, -, -, accrued, ledger, ha, paid, rfl⟩ := MirrorFee.releaseFee_ok.mp h
  -- the lead is an outsider, so the payment leaves the till
  obtain ⟨till, rows⟩ := Token.transfer_spends (D.ne_fee outside).symm (Ledger.call_same paid)
  have owed := feesOwed_update s { s.fee with
    usedProofs := Function.update s.fee.usedProofs proof.data.requestBody.transactionHash true
    accruedFees := Function.update s.fee.accruedFees lead accrued } lead accrued rfl
  refine ⟨?_, by simp only [rows], rfl⟩
  simp only [feesOwed] at owed
  simp only at ha till
  simp only [feeSurplus, feeTill, feesOwed, owed]
  omega

/-! ### Calls by outsiders and the legs of a match -/

/-- Where the vault owes outsiders only, a vault call brings the fee contract nothing. -/
theorem FeeMoves.of_vault {c : Custody} (op : VaultCall) (guarded : s.Guarded D)
    (closed : s.FeeClosed D) (other : caller ≠ D.fee)
    (called : MirrorVault.call D env caller ⟨s.ledger, s.vault⟩ op = .ok c) :
    s.FeeMoves D 0 { s with
      ledger := c.ledger
      vault := c.vault } := by
  cases MirrorVault.call_ledger op called with
  | inl same => exact .still same (.refl _)
  | inr called =>
    obtain ⟨tc, pays, called⟩ := called
    -- whom the vault pays, it is not the fee contract
    have missed : tc.inflow D.fee = 0 := by
      cases pays with
      | collects src n => simp [TokenCall.inflow, D.fee_ne_vault.symm]
      | lends n => simp [TokenCall.inflow, other]
      | repays f l n owed =>
        have outside := guarded.custody.payees f l owed
        simp [TokenCall.inflow, D.ne_fee outside]
    have moves : s.FeeMoves D (if D.fxrpToken = D.fxrpToken then tc.inflow D.fee else 0 : ℕ)
        { s with
          ledger := c.ledger
          vault := c.vault } := .of_call closed D.fee_ne_vault.symm called rfl
    simpa [missed] using moves

end System

/-- A call by an outsider moves the surplus by the gift it brings. -/
theorem Action.perform_feeMoves {a : Action D} (guarded : s.Guarded D) (closed : s.FeeClosed D)
    (keeps : a.entry.rewiresFee = false) (h : a.perform env s = .ok s') :
    s.FeeMoves D (a.entry.gift D D.fee) s' := by
  cases performed h with
  | token who address c ledger called => exact .of_call closed who.ne_fee called rfl
  | vault who op c called => exact .of_vault op guarded closed who.ne_fee called
  | fee who op t called =>
    obtain ⟨books, ledger⟩ := MirrorFee.call_outsider closed.wired keeps called
    exact .still ledger books
  | registry | sender => exact .still rfl (.refl _)

theorem Action.performAll_feeMoves {actions : List (Action D)} (guarded : s.Guarded D)
    (closed : s.FeeClosed D) (vault : ∀ a ∈ actions, a.entry.rewiresVault = false)
    (fee : ∀ a ∈ actions, a.entry.rewiresFee = false) (h : performAll env actions s = .ok s') :
    s.FeeMoves D (gifts D D.fee actions) s' := by
  -- induction on the calls; the gifts add up
  induction actions generalizing s with
  | nil =>
    rw [performAll, pure_ok] at h
    exact h ▸ .refl D s
  | cons a rest ih =>
    simp only [performAll, bind_ok] at h
    obtain ⟨mid, first, tail⟩ := h
    have moved := perform_feeMoves guarded closed (fee a List.mem_cons_self) first
    have guarded' := (perform_explains guarded (vault a List.mem_cons_self) first (fun _ => 0)
      []).1
    exact moved.trans (ih guarded' (moved.closed closed)
      (fun b member => vault b (List.mem_cons_of_mem _ member))
      (fun b member => fee b (List.mem_cons_of_mem _ member)) tail)

/-- An approval by the instruction sender brings nothing. -/
theorem approve_feeMoves {token spender : Address} {n : ℕ} (closed : s.FeeClosed D)
    (h : s.onToken env token D.sender (.approve spender n) = .ok s') : s.FeeMoves D 0 s' := by
  simp only [System.onToken, bind_ok, pure_ok] at h
  obtain ⟨L', called, rfl⟩ := h
  have moves : s.FeeMoves D (if token = D.fxrpToken then
      (TokenCall.approve spender n).inflow D.fee else 0 : ℕ) { s with ledger := L' } :=
    .of_call closed D.sender_ne_fee called rfl
  simpa [TokenCall.inflow] using moves

theorem lockLeg_feeMoves {follower lead tokenIn : Address} {amountIn : Uint256}
    (guarded : s.Guarded D) (closed : s.FeeClosed D)
    (h : lockLeg D env follower lead tokenIn amountIn s = .ok s') : s.FeeMoves D 0 s' := by
  rcases lockLeg_ok.mp h with ⟨-, lent⟩ | ⟨-, rfl⟩
  · obtain ⟨c, locked, rfl⟩ := System.onVault_ok lent
    exact .of_vault (.transferForExecution follower lead amountIn) guarded closed D.sender_ne_fee
      locked
  · exact .refl D _

theorem proceedsLeg_feeMoves {tokenOut : Address} {amountOut : Uint256} (guarded : s.Guarded D)
    (closed : s.FeeClosed D) (h : proceedsLeg D env tokenOut amountOut s = .ok s') :
    s.FeeMoves D 0 s' := by
  rcases proceedsLeg_ok.mp h with ⟨-, mid, approved, received⟩ | ⟨-, rfl⟩
  · have approval := approve_feeMoves closed approved
    have guarded' := (approve_explains guarded approved (fun _ => 0) []).1
    obtain ⟨c, collected, rfl⟩ := System.onVault_ok received
    exact approval.trans (.of_vault (.receiveExecutionProceeds amountOut) guarded'
      (approval.closed closed) D.sender_ne_fee collected)
  · exact .refl D _

/-- A match brings what its router sends. -/
theorem MatchTrace.feeMoves {routers : Routers D} {exec : MatchExecution}
    (t : MatchTrace D env caller routers exec s) (guarded : s.Guarded D) (closed : s.FeeClosed D)
    (vault : ∀ a ∈ t.reply.actions, a.entry.rewiresVault = false)
    (fee : ∀ a ∈ t.reply.actions, a.entry.rewiresFee = false) :
    s.FeeMoves D (gifts D D.fee t.reply.actions) t.final := by
  -- leg by leg, as in the book; only the router can bring something
  have lock := lockLeg_feeMoves guarded closed t.lock
  have approve := approve_feeMoves (lock.closed closed) t.approve
  have before := lock.trans approve
  have locked := (lockLeg_explains guarded t.lock []).1
  have approved := (approve_explains locked t.approve (fun _ => 0) []).1
  have acted := Action.performAll_feeMoves approved (before.closed closed) vault fee t.acted
  have during := before.trans acted
  have swapped := (Action.performAll_explains approved vault t.acted (fun _ => 0) []).1
  have after := during.trans (proceedsLeg_feeMoves swapped (during.closed closed) t.proceeds)
  have record : t.booked.FeeMoves D 0 t.final := .still rfl (.refl _)
  simpa using after.trans record

/-! ### Settlements, accruals and withdrawals -/

theorem vaultLeg_feeMoves {fill : PendingFill} (h : vaultLeg D fill s = .ok s') :
    s.FeeMoves D 0 s' := by
  obtain ⟨fee, -, ledger⟩ := vaultLeg_fee h
  exact .still ledger (fee ▸ .refl _)

/-- Net fees of accruals. -/
def netFees (fees : List FeeAccrued) : ℤ := (fees.map fun ev => (ev.netFee.val : ℤ)).sum

theorem feeLeg_feeMoves {fill : PendingFill} {proof : Proof} {fees : List FeeAccrued}
    (registry : s.registry.Sound D) (earners : s.fee.Earners D)
    (h : feeLeg D env fill proof s = .ok (s', fees)) : s.FeeMoves D (-netFees fees) s' := by
  cases feeLeg_trace h with
  | idle => exact .refl D s
  | booked accrual accrued => exact System.accrueFee_moves (D := D) accrued
  | paid accrual treasury accrued due released =>
    have booked := System.accrueFee_moves (D := D) accrued
    have earners' := MirrorFee.accrueFee_earners registry earners accrued
    have paid := System.releaseFee_moves (s := { s with fee := accrual.fee }) earners' released
    simpa [netFees] using booked.trans paid

/-- A settlement owes and pays its fee in one go. -/
theorem applyFdcSettlement_feeMoves {fillId : Uint256} {proof : Proof} {fees : List FeeAccrued}
    (guarded : s.Guarded D)
    (h : applyFdcSettlement D env caller fillId proof s = .ok (s', fees)) :
    s'.Guarded D ∧ s.FeeMoves D (-netFees fees) s' := by
  obtain ⟨-, mid, vaultWrites, feeWrites⟩ := applyFdcSettlement_ok.mp h
  have marked := guarded.withSender
    (s.sender.markSettled fillId proof.data.requestBody.transactionHash)
  have applied := vaultLeg_guarded marked vaultWrites
  have paid := (feeLeg_explains applied feeWrites (fun _ => 0) []).1
  have record : s.FeeMoves D 0 { s with
      sender := s.sender.markSettled fillId proof.data.requestBody.transactionHash } :=
    .still rfl (.refl _)
  -- mark, vault leg, fee leg: only the last one moves the surplus
  have moved := (record.trans (vaultLeg_feeMoves vaultWrites)).trans
    (feeLeg_feeMoves applied.registry applied.earners feeWrites)
  exact ⟨paid, by simpa using moved⟩

theorem accrueEach_feeMoves {accruals : List FeeAccrual} {fees : List FeeAccrued}
    (h : accrueEach D accruals s = .ok (s', fees)) : s.FeeMoves D (-netFees fees) s' := by
  replace h := accrueEach_trace h
  -- the net fees of the accruals add up
  induction h with
  | nil => exact .refl D _
  | @cons a rest s s' events accrual accrued others ih =>
    have first := System.accrueFee_moves (D := D) accrued
    have all := first.trans ih
    have total : netFees (accrual.event.toList ++ events) =
        (accrual.event.toList.map fun ev => (ev.netFee.val : ℤ)).sum + netFees events := by
      simp [netFees]
    rw [total, neg_add]
    exact all

end Mirror
