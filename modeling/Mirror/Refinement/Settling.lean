import Mirror.Refinement.Matching

/-!
A settlement as a move of the book: the promise of the fill is redeemed, and the fee that
may be paid with it never touches the vault.
-/
namespace Mirror

open Evm Escrow InstructionSender

variable {D : Deployment} {env : External} {caller : Address} {s s' : System} {fill : PendingFill}

/-- The signed amount is what the ticket promises. -/
theorem fillDelta_ok (fits : fill.Fits D) {delta : Int256} (h : fillDelta D fill = .ok delta) :
    delta.val = (ticketOf D fill).credit - (ticketOf D fill).debit := by
  unfold fillDelta at h
  split at h
  next inFxrp =>
    simp only [orRevert_ok, Int256.checkedNeg_some] at h
    -- amounts below 2^255 survive the cast to `int256`
    rw [h, Int256.ofUint256_of_lt _ (fits.amountIn inFxrp).2]
    simp [ticketOf, inFxrp]
  next other =>
    split at h
    next outFxrp =>
      rw [pure_ok] at h
      rw [← h, Int256.ofUint256_of_lt _ (fits.amountOut outFxrp).2]
      simp [ticketOf, other, outFxrp]
    next neither =>
      rw [pure_ok] at h
      rw [← h]
      simp [ticketOf, other, neither]

/-- A ticket never debits and credits at once. -/
theorem ticketOf_oneSided (D : Deployment) (fill : PendingFill) :
    (ticketOf D fill).debit = 0 ∨ (ticketOf D fill).credit = 0 := by
  by_cases inFxrp : fill.tokenIn = D.fxrpToken
  · exact .inr (by simp [ticketOf, inFxrp])
  · exact .inl (by simp [ticketOf, inFxrp])

theorem vaultLeg_explains (guarded : s.Guarded D) (fits : fill.Fits D) (id : Uint256)
    (tickets : List (Uint256 × Ticket Key))
    (first : tickets.find? (fun e => e.1 = id) = some (id, ticketOf D fill))
    (h : vaultLeg D fill s = .ok s') :
    s'.Guarded D ∧ (s.book D (fun _ => 0) tickets).Explains 0
      (s'.book D (fun _ => 0) (tickets.eraseP (fun e => e.1 = id))) := by
  obtain ⟨delta, signed, cases⟩ := vaultLeg_ok.mp h
  have value := fillDelta_ok fits signed
  have oneSided := ticketOf_oneSided D fill
  -- whatever the sign, the book redeems the ticket
  suffices redeems : s'.Guarded D ∧
      (s.book D (fun _ => 0) tickets).Valid (.redeem id (ticketOf D fill)) ∧
      s'.book D (fun _ => 0) (tickets.eraseP (fun e => e.1 = id)) =
        (s.book D (fun _ => 0) tickets).apply (.redeem id (ticketOf D fill)) by
    obtain ⟨guarded', valid, book⟩ := redeems
    exact ⟨guarded', book ▸ Book.Explains.single valid trivial⟩
  -- an empty ticket redeems to nothing
  have nothing (zero : delta.val = 0) :
      (s.book D (fun _ => 0) tickets).Valid (.redeem id (ticketOf D fill)) ∧
        s.book D (fun _ => 0) (tickets.eraseP (fun e => e.1 = id)) =
          (s.book D (fun _ => 0) tickets).apply (.redeem id (ticketOf D fill)) := by
    have debit : (ticketOf D fill).debit = 0 := by omega
    have credit : (ticketOf D fill).credit = 0 := by omega
    refine ⟨⟨first, by omega, by omega⟩, ?_⟩
    simp [System.book, Custody.book, Book.apply, debit, credit]
  rcases cases with ⟨-, written⟩ | ⟨zero, rfl⟩
  · obtain ⟨c, settled, rfl, keep⟩ := guarded.onVault written
    obtain ⟨-, -, -, cases⟩ := settleFromProof_ok.mp settled
    rcases cases with ⟨neg, locked, balance, -, hl, hb, rfl⟩ | ⟨pos, balance, hb, rfl⟩ |
      ⟨zero, rfl⟩
    -- a debit: lock and balance fall together
    · have debit : (ticketOf D fill).debit = (-delta.val).toNat := by omega
      have credit : (ticketOf D fill).credit = 0 := by omega
      rw [← debit] at hl hb
      refine ⟨keep (guarded.custody.write rfl (guarded.custody.payees _ _)),
        ⟨first, ?_, ?_⟩, ?_⟩
      · exact le_of_le_of_eq (Nat.le_add_left _ _) hl.symm
      · exact le_of_le_of_eq (Nat.le_add_left _ _) hb.symm
      · simp only [System.book, Custody.book, Book.apply, credit, Nat.add_zero, Book.mk.injEq,
          and_true]
        refine ⟨MirrorVault.entries_written _ _ _ _ _ _ ?_,
          MirrorVault.entries_kept _ _ _ _ _ rfl, MirrorVault.entries_written _ _ _ _ _ _ ?_⟩
        · exact Nat.eq_sub_of_add_eq hb.symm
        · exact Nat.eq_sub_of_add_eq hl.symm
    -- a credit: the balance rises, no lock is involved
    · have debit : (ticketOf D fill).debit = 0 := by omega
      have credit : (ticketOf D fill).credit = delta.val.toNat := by omega
      refine ⟨keep (guarded.custody.write rfl (guarded.custody.payees _ _)),
        ⟨first, by omega, by omega⟩, ?_⟩
      simp only [System.book, Custody.book, Book.apply, debit, Nat.sub_zero, Book.mk.injEq,
        and_true]
      refine ⟨MirrorVault.entries_written _ _ _ _ _ _ ?_,
        MirrorVault.entries_kept _ _ _ _ _ rfl, MirrorVault.entries_written _ _ _ _ _ _ rfl⟩
      rw [credit]
      exact hb
    · exact ⟨guarded, nothing zero⟩
  · exact ⟨guarded, nothing (by simpa using congrArg Int256.val zero)⟩

theorem vaultLeg_guarded (guarded : s.Guarded D) (h : vaultLeg D fill s = .ok s') :
    s'.Guarded D := by
  rcases vaultLeg_ok.mp h with ⟨delta, -, ⟨-, written⟩ | ⟨-, rfl⟩⟩
  · obtain ⟨c, settled, rfl, keep⟩ := guarded.onVault written
    obtain ⟨-, -, -, cases⟩ := settleFromProof_ok.mp settled
    have payee := guarded.custody.payees fill.follower fill.lead
    rcases cases with ⟨-, _, _, -, -, -, rfl⟩ | ⟨-, _, -, rfl⟩ | ⟨-, rfl⟩
    · exact keep (guarded.custody.write rfl payee)
    · exact keep (guarded.custody.write rfl payee)
    · exact guarded
  · exact guarded

/-- What the settlement of a fill adds to the balance of a sub-account. -/
def PendingFill.delta (D : Deployment) (f l : Address) (fill : PendingFill) : ℤ :=
  if fill.follower = f ∧ fill.lead = l then
    if fill.tokenIn = D.fxrpToken then -fill.amountIn.val
    else if fill.tokenOut = D.fxrpToken then fill.amountOut.val
    else 0
  else 0

/-- The signed change is the one of the fill's own account. -/
theorem delta_eq_ticket (f l : Address) (fill : PendingFill) :
    fill.delta D f l = if fill.follower = f ∧ fill.lead = l then
      ((ticketOf D fill).credit : ℤ) - (ticketOf D fill).debit else 0 := by
  unfold PendingFill.delta
  split
  -- FXRP bought counts only where none is sold
  · by_cases inFxrp : fill.tokenIn = D.fxrpToken
    · simp [ticketOf, inFxrp]
    · by_cases outFxrp : fill.tokenOut = D.fxrpToken
      · simp [ticketOf, inFxrp, outFxrp]
      · simp [ticketOf, inFxrp, outFxrp]
  · rfl

/-- FXRP that a fill keeps locked in a sub-account until it is settled. -/
def PendingFill.holds (D : Deployment) (f l : Address) (fill : PendingFill) : ℕ :=
  if fill.follower = f ∧ fill.lead = l ∧ fill.tokenIn = D.fxrpToken then fill.amountIn.val else 0

/-- To the book, `holds` is the debit of the fill's ticket. -/
theorem holds_eq_debit (f l : Address) (fill : PendingFill) :
    (if (ticketOf D fill).account = (f, l) then (ticketOf D fill).debit else 0) =
      fill.holds D f l := by
  by_cases own : fill.follower = f ∧ fill.lead = l
  · obtain ⟨rfl, rfl⟩ := own
    simp [ticketOf, PendingFill.holds]
  · have other : (ticketOf D fill).account ≠ (f, l) := fun same =>
      own ⟨congrArg Prod.fst same, congrArg Prod.snd same⟩
    have none : ¬(fill.follower = f ∧ fill.lead = l ∧ fill.tokenIn = D.fxrpToken) :=
      fun h => own ⟨h.1, h.2.1⟩
    rw [if_neg other, PendingFill.holds, if_neg none]

/-- The vault leg moves each balance by what the fill says and releases what it holds. -/
theorem vaultLeg_account {s s' : System} {fill : PendingFill} (fits : fill.Fits D)
    (h : vaultLeg D fill s = .ok s') (f l : Address) :
    ((s'.vault.subAccounts f l).balance.val : ℤ) =
        (s.vault.subAccounts f l).balance.val + fill.delta D f l ∧
      (s'.vault.subAccounts f l).pendingLocked.val + fill.holds D f l =
        (s.vault.subAccounts f l).pendingLocked.val := by
  obtain ⟨delta, signed, cases⟩ := vaultLeg_ok.mp h
  have value := fillDelta_ok fits signed
  have oneSided := ticketOf_oneSided D fill
  rw [delta_eq_ticket, ← value, ← holds_eq_debit]
  rcases cases with ⟨-, written⟩ | ⟨zero, rfl⟩
  · obtain ⟨c, settled, rfl⟩ := System.onVault_ok written
    obtain ⟨-, -, -, cases⟩ := settleFromProof_ok.mp settled
    -- the fill's own account, and all others
    by_cases own : f = fill.follower ∧ l = fill.lead
    · obtain ⟨rfl, rfl⟩ := own
      have account : (ticketOf D fill).account = (fill.follower, fill.lead) := rfl
      simp only [account, if_true, and_self]
      rcases cases with ⟨neg, locked, balance, -, hl, hb, rfl⟩ | ⟨pos, balance, hb, rfl⟩ |
        ⟨zero, rfl⟩
      · simp only [MirrorVault.setAccount_same] at hl hb ⊢
        exact ⟨by omega, by omega⟩
      · simp only [MirrorVault.setAccount_same] at hb ⊢
        exact ⟨by omega, by omega⟩
      · simp only
        exact ⟨by omega, by omega⟩
    · have other : ¬(fill.follower = f ∧ fill.lead = l) := fun h => own ⟨h.1.symm, h.2.symm⟩
      have another : (ticketOf D fill).account ≠ (f, l) := fun same =>
        other ⟨congrArg Prod.fst same, congrArg Prod.snd same⟩
      rw [if_neg other, if_neg another]
      rcases cases with ⟨-, _, _, -, -, -, rfl⟩ | ⟨-, _, -, rfl⟩ | ⟨-, rfl⟩
      · simp only [MirrorVault.setAccount_other _ _ own, Int.add_zero, Nat.add_zero, and_self]
      · simp only [MirrorVault.setAccount_other _ _ own, Int.add_zero, Nat.add_zero, and_self]
      · simp only [Int.add_zero, Nat.add_zero, and_self]
  · have still : delta.val = 0 := by simp [zero]
    have debit : (ticketOf D fill).debit = 0 := by omega
    simp [still, debit]

/-- Accruing moves no token and releasing pays a lead out of the fee contract. -/
theorem feeLeg_explains {proof : Proof} {fees : List FeeAccrued} (guarded : s.Guarded D)
    (h : feeLeg D env fill proof s = .ok (s', fees)) (loose : Key → ℕ)
    (tickets : List (Uint256 × Ticket Key)) :
    s'.Guarded D ∧ (s.book D loose tickets).Explains 0 (s'.book D loose tickets) := by
  cases feeLeg_trace h with
  | idle => exact ⟨guarded, Book.Explains.refl _⟩
  | booked accrual accrued =>
    have earners := MirrorFee.accrueFee_earners guarded.registry guarded.earners accrued
    exact ⟨⟨guarded.custody, guarded.registry, earners⟩, Book.Explains.refl _⟩
  | paid accrual treasury accrued due released =>
    have earners := MirrorFee.accrueFee_earners guarded.registry guarded.earners accrued
    obtain ⟨earners', outside, transferred⟩ := MirrorFee.releaseFee_earners earners released
    -- the fee contract pays the lead; to the vault that is somebody else's call
    obtain ⟨custody, book⟩ := guarded.custody.drift transferred D.fee_ne_vault loose tickets
    simp only [TokenCall.inflow, if_neg (D.ne_vault outside), ite_self] at book
    exact ⟨⟨custody, guarded.registry, earners'⟩, book⟩

theorem applyFdcSettlement_explains {fillId : Uint256} {proof : Proof} {fees : List FeeAccrued}
    (guarded : s.Guarded D) (fits : (s.sender.pendingFills fillId).Fits D)
    (tickets : List (Uint256 × Ticket Key))
    (first : tickets.find? (fun e => e.1 = fillId) =
      some (fillId, ticketOf D (s.sender.pendingFills fillId)))
    (h : applyFdcSettlement D env caller fillId proof s = .ok (s', fees)) :
    s'.Guarded D ∧ (s.book D (fun _ => 0) tickets).Explains 0
      (s'.book D (fun _ => 0) (tickets.eraseP (fun e => e.1 = fillId))) := by
  obtain ⟨-, mid, vaultWrites, feeWrites⟩ := applyFdcSettlement_ok.mp h
  -- marking the fill settled shows in neither vault nor tokens
  have marked := guarded.withSender
    (s.sender.markSettled fillId proof.data.requestBody.transactionHash)
  obtain ⟨guarded', redeemed⟩ := vaultLeg_explains marked fits fillId tickets first vaultWrites
  obtain ⟨guarded'', paid⟩ := feeLeg_explains guarded' feeWrites (fun _ => 0)
    (tickets.eraseP (fun e => e.1 = fillId))
  exact ⟨guarded'', redeemed.trans paid⟩

/-- Accruals without release touch neither tokens nor the vault. -/
theorem accrueEach_explains {accruals : List FeeAccrual} {fees : List FeeAccrued}
    (guarded : s.Guarded D) (h : accrueEach D accruals s = .ok (s', fees)) :
    s'.Guarded D ∧ s'.ledger = s.ledger ∧ s'.vault = s.vault := by
  replace h := accrueEach_trace h
  induction h with
  | nil => exact ⟨guarded, rfl, rfl⟩
  | cons accrued others ih =>
    have earners := MirrorFee.accrueFee_earners guarded.registry guarded.earners accrued
    exact ih ⟨guarded.custody, guarded.registry, earners⟩

end Mirror
