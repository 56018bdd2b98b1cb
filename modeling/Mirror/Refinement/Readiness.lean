import Mirror.Refinement.Fees

/-!
When the two legs of a settlement go through. The proof has been admitted; what is left are the
checks of the vault and of the fee contract, any of which rolls the whole settlement back.
-/
namespace Mirror

open Evm Escrow InstructionSender

variable {D : Deployment} {env : External} {s s' : System} {fill : PendingFill}

/-! ### The vault leg -/

/-- The signed change of a fill, its amounts read as `int256`. -/
def PendingFill.change (D : Deployment) (fill : PendingFill) : ℤ :=
  if fill.tokenIn = D.fxrpToken then -(Int256.ofUint256 fill.amountIn).val
  else if fill.tokenOut = D.fxrpToken then (Int256.ofUint256 fill.amountOut).val
  else 0

/-- What the vault checks before it applies the change of a fill. -/
structure VaultTakes (D : Deployment) (v : MirrorVault) (fill : PendingFill) : Prop where
  range : fill.change D ≠ 2 ^ 255
  called : fill.change D ≠ 0 →
    v.instructionSender = D.sender ∧ fill.follower ≠ 0 ∧ fill.lead ≠ 0
  debit : fill.change D < 0 → fill.change D ≠ -2 ^ 255 ∧
    -fill.change D ≤ (v.subAccounts fill.follower fill.lead).pendingLocked.val ∧
    -fill.change D ≤ (v.subAccounts fill.follower fill.lead).balance.val
  credit : 0 < fill.change D →
    (v.subAccounts fill.follower fill.lead).balance.val + fill.change D < 2 ^ 256

theorem fillDelta_change {delta : Int256} :
    fillDelta D fill = .ok delta ↔ delta.val = fill.change D := by
  unfold fillDelta PendingFill.change
  split
  · rw [orRevert_ok, Int256.checkedNeg_some]
  · split
    · rw [pure_ok, Int256.ext_iff]
      exact eq_comm
    · rw [pure_ok, Int256.ext_iff]
      exact eq_comm

theorem change_range (D : Deployment) (fill : PendingFill) :
    -2 ^ 255 ≤ fill.change D ∧ fill.change D ≤ 2 ^ 255 := by
  unfold PendingFill.change
  split
  · have := (Int256.ofUint256 fill.amountIn).lower
    have := (Int256.ofUint256 fill.amountIn).upper
    exact ⟨by omega, by omega⟩
  · split
    · have := (Int256.ofUint256 fill.amountOut).lower
      have := (Int256.ofUint256 fill.amountOut).upper
      exact ⟨by omega, by omega⟩
    · exact ⟨by omega, by omega⟩

theorem settleFromProof_succeeds {c : Custody} {caller follower lead : Address} {delta : Int256} :
    (∃ c', MirrorVault.settleFromProof caller follower lead delta c = .ok c') ↔
      caller = c.vault.instructionSender ∧ follower ≠ 0 ∧ lead ≠ 0 ∧
        (delta.val < 0 → delta.val ≠ -2 ^ 255 ∧
          -delta.val ≤ (c.vault.subAccounts follower lead).pendingLocked.val ∧
          -delta.val ≤ (c.vault.subAccounts follower lead).balance.val) ∧
        (0 < delta.val →
          (c.vault.subAccounts follower lead).balance.val + delta.val < 2 ^ 256) := by
  simp only [settleFromProof_ok]
  constructor
  · rintro ⟨c', sender, named, named', written⟩
    refine ⟨sender, named, named', fun neg => ?_, fun pos => ?_⟩
    · rcases written with ⟨-, _, _, notMin, hl, hb, -⟩ | ⟨pos, -⟩ | ⟨zero, -⟩
      · exact ⟨notMin, by omega, by omega⟩
      · omega
      · omega
    · rcases written with ⟨neg, -⟩ | ⟨-, balance, hb, -⟩ | ⟨zero, -⟩
      · omega
      · have := balance.isLt
        omega
      · omega
  · rintro ⟨sender, named, named', debit, credit⟩
    -- the words that the vault computes exist, as the checks have shown
    rcases lt_trichotomy delta.val 0 with neg | zero | pos
    · obtain ⟨notMin, locked, balance⟩ := debit neg
      refine ⟨_, sender, named, named', .inl ⟨neg,
        ⟨(c.vault.subAccounts follower lead).pendingLocked.val - (-delta.val).toNat, by omega⟩,
        ⟨(c.vault.subAccounts follower lead).balance.val - (-delta.val).toNat, by omega⟩,
        notMin, ?_, ?_, rfl⟩⟩
      · simp only
        omega
      · simp only
        omega
    · exact ⟨c, sender, named, named', .inr (.inr ⟨zero, rfl⟩)⟩
    · have room := credit pos
      exact ⟨_, sender, named, named', .inr (.inl ⟨pos,
        ⟨(c.vault.subAccounts follower lead).balance.val + delta.val.toNat, by omega⟩, rfl, rfl⟩)⟩

theorem vaultLeg_succeeds : (∃ s', vaultLeg D fill s = .ok s') ↔ VaultTakes D s.vault fill := by
  -- the call is made for a change that is not zero, and its result is all that matters
  have leg : (∃ s', vaultLeg D fill s = .ok s') ↔ ∃ delta, delta.val = fill.change D ∧
      (delta ≠ 0 → ∃ c, MirrorVault.settleFromProof D.sender fill.follower fill.lead delta
        ⟨s.ledger, s.vault⟩ = .ok c) := by
    simp only [vaultLeg, System.onVault, bind_ok, fillDelta_change]
    rw [exists_comm]
    refine exists_congr fun delta => ?_
    rw [exists_and_left]
    refine and_congr_right fun _ => ?_
    by_cases zero : delta = 0
    · simp [zero, pure_ok]
    · simp only [zero, ne_eq, not_false_eq_true, if_true, bind_ok, pure_ok, forall_const]
      constructor
      · rintro ⟨_, c, called, -⟩
        exact ⟨c, called⟩
      · rintro ⟨c, called⟩
        exact ⟨_, c, called, rfl⟩
  have moves (delta : Int256) (value : delta.val = fill.change D) :
      delta ≠ 0 ↔ fill.change D ≠ 0 := by
    rw [← value, ne_eq, Int256.ext_iff, Int256.zero_val]
  rw [leg]
  constructor
  · rintro ⟨delta, value, applied⟩
    have upper := delta.upper
    simp only [settleFromProof_succeeds, moves delta value, value] at applied
    refine ⟨by omega, fun touched => ?_, fun neg => ?_, fun pos => ?_⟩
    · obtain ⟨sender, named, named', -⟩ := applied touched
      exact ⟨sender.symm, named, named'⟩
    · exact (applied (by omega)).2.2.2.1 neg
    · exact (applied (by omega)).2.2.2.2 pos
  · intro takes
    have range := change_range D fill
    have notMax := takes.range
    refine ⟨⟨fill.change D, range.1, by omega⟩, rfl, fun touched => ?_⟩
    rw [moves _ rfl] at touched
    obtain ⟨sender, named, named'⟩ := takes.called touched
    exact settleFromProof_succeeds.mpr
      ⟨sender.symm, named, named', takes.debit, takes.credit⟩

/-- What the vault can still object to where amounts are small and locks are held. -/
structure VaultReady (D : Deployment) (v : MirrorVault) (fill : PendingFill) : Prop where
  named : fill.tokenIn = D.fxrpToken ∨ fill.tokenOut = D.fxrpToken →
    fill.follower ≠ 0 ∧ fill.lead ≠ 0
  room : fill.tokenIn ≠ D.fxrpToken → fill.tokenOut = D.fxrpToken →
    (v.subAccounts fill.follower fill.lead).balance.val + fill.amountOut.val < 2 ^ 256

theorem vaultTakes_iff_ready {v : MirrorVault} (wired : v.instructionSender = D.sender)
    (fits : fill.Fits D) (held : fill.tokenIn = D.fxrpToken →
      fill.amountIn.val ≤ (v.subAccounts fill.follower fill.lead).pendingLocked.val ∧
        fill.amountIn.val ≤ (v.subAccounts fill.follower fill.lead).balance.val) :
    VaultTakes D v fill ↔ VaultReady D v fill := by
  by_cases inFxrp : fill.tokenIn = D.fxrpToken
  · -- a debit: the lock covers it, so only the names can fail
    obtain ⟨locked, balance⟩ := held inFxrp
    obtain ⟨positive, small⟩ := fits.amountIn inFxrp
    have positive := Fin.val_ne_of_ne positive
    have value : fill.change D = -fill.amountIn.val := by
      rw [PendingFill.change, if_pos inFxrp, Int256.ofUint256_of_lt _ small]
    rw [Fin.val_zero] at positive
    constructor
    · intro takes
      exact ⟨fun _ => (takes.called (by omega)).2, fun other => absurd inFxrp other⟩
    · intro ready
      exact ⟨by omega, fun _ => ⟨wired, ready.named (.inl inFxrp)⟩,
        fun _ => ⟨by omega, by omega, by omega⟩, fun pos => by omega⟩
  · by_cases outFxrp : fill.tokenOut = D.fxrpToken
    · -- a credit: the names or the room for it can fail
      obtain ⟨positive, small⟩ := fits.amountOut outFxrp
      have positive := Fin.val_ne_of_ne positive
      have value : fill.change D = fill.amountOut.val := by
        rw [PendingFill.change, if_neg inFxrp, if_pos outFxrp, Int256.ofUint256_of_lt _ small]
      rw [Fin.val_zero] at positive
      constructor
      · intro takes
        have room := takes.credit (by omega)
        exact ⟨fun _ => (takes.called (by omega)).2, fun _ _ => by omega⟩
      · intro ready
        have room := ready.room inFxrp outFxrp
        exact ⟨by omega, fun _ => ⟨wired, ready.named (.inr outFxrp)⟩, fun neg => by omega,
          fun _ => by omega⟩
    · -- the vault is not called at all
      have value : fill.change D = 0 := by
        rw [PendingFill.change, if_neg inFxrp, if_neg outFxrp]
      constructor
      · intro _
        exact ⟨fun touches => (touches.elim inFxrp outFxrp).elim,
          fun _ touches => absurd touches outFxrp⟩
      · intro _
        exact ⟨by omega, fun touched => absurd value touched, fun neg => by omega,
          fun pos => by omega⟩

/-! ### The fee leg -/

/-- What `accrueFee` books of a profit at this rate, the protocol's share taken off. -/
def netOf (profit rate : ℕ) : ℕ :=
  profit * rate / 2000 - profit * rate / 2000 * 1000 / 10000

/-- The fee contract can book the fee and pay it out against this proof. -/
structure Payable (D : Deployment) (env : External) (t : Treasury) (lead : Address) (net : ℕ)
    (proof : Proof) : Prop where
  room : (t.fee.accruedFees lead).val + net < 2 ^ 256
  verifier : t.fee.fdcVerifier ≠ 0
  accepted : env.verifyEVMTransaction t.fee.fdcVerifier proof = true
  funded : net ≤ (t.ledger D.fxrpToken).balanceOf D.fee
  taken : env.refuses D.fxrpToken D.fee (.transfer lead net) = false

/-- The lead is registered, and unless the fee rounds to nothing it can be paid. -/
structure FeeReady (D : Deployment) (env : External) (registry : MirrorRegistry) (t : Treasury)
    (fill : PendingFill) (proof : Proof) : Prop where
  registered : (registry.leads fill.lead).wallet ≠ 0
  fits : fill.profit.val * (registry.leads fill.lead).feeRateBps.val < 2 ^ 256
  paid : fill.profit.val * (registry.leads fill.lead).feeRateBps.val / 2000 ≠ 0 →
    Payable D env t fill.lead
      (netOf fill.profit.val (registry.leads fill.lead).feeRateBps.val) proof

/-- What the fee contract checks: who calls, that a fee due is paid against a fresh proof, and
`FeeReady`. -/
structure FeeTakes (D : Deployment) (env : External) (registry : MirrorRegistry) (t : Treasury)
    (fill : PendingFill) (proof : Proof) : Prop where
  wired : t.fee.instructionSender = D.sender
  ready : FeeReady D env registry t fill proof
  fresh : fill.profit.val * (registry.leads fill.lead).feeRateBps.val / 2000 ≠ 0 →
    t.fee.usedProofs proof.data.requestBody.transactionHash = false

/-- A release asks for the verifier, the funds and a proof it has not seen. -/
theorem releaseFee_succeeds {t : Treasury} {proof : Proof} {lead : Address} {amount : Uint256}
    (wired : t.fee.instructionSender = D.sender) (positive : amount ≠ 0)
    (hash : proof.data.requestBody.transactionHash ≠ 0)
    (status : proof.data.responseBody.status = 1)
    (accrued : amount.val ≤ (t.fee.accruedFees lead).val) :
    (∃ t', MirrorFee.releaseFee D env D.sender proof lead amount t = .ok t') ↔
      t.fee.usedProofs proof.data.requestBody.transactionHash = false ∧
        t.fee.fdcVerifier ≠ 0 ∧ env.verifyEVMTransaction t.fee.fdcVerifier proof = true ∧
        amount.val ≤ (t.ledger D.fxrpToken).balanceOf D.fee ∧
        env.refuses D.fxrpToken D.fee (.transfer lead amount.val) = false := by
  simp only [MirrorFee.releaseFee_ok, Ledger.call_ok]
  constructor
  · rintro ⟨t', -, verifier, -, accepted, -, unused, -, _, _, -, ⟨taken, _, moved, -⟩, -⟩
    exact ⟨unused, verifier, accepted, (Token.move_some _ _ _ _ _ moved).1, taken⟩
  · rintro ⟨unused, verifier, accepted, funded, taken⟩
    -- the token moves what the fee contract holds
    obtain ⟨token, moved⟩ := (Token.move_isSome _ _ lead _).mpr funded
    exact ⟨_, wired.symm, verifier, positive, accepted, hash, unused, status,
      ⟨(t.fee.accruedFees lead).val - amount.val, by omega⟩, _, by simp only; omega,
      ⟨taken, token, moved, rfl⟩, rfl⟩

/-- The words that `accrueFee` computes of a fee, added to what has accrued. -/
theorem exists_split {fee accrued : ℕ} (fits : fee * 1000 < 2 ^ 256)
    (room : accrued + (fee - fee * 1000 / 10000) < 2 ^ 256) :
    ∃ gross protocol net total : Uint256, gross.val = fee ∧ FeeSplit gross protocol net ∧
      net.val = fee - fee * 1000 / 10000 ∧ total.val = accrued + net.val := by
  refine ⟨⟨fee, by omega⟩, ⟨fee * 1000 / 10000, by omega⟩, ⟨fee - fee * 1000 / 10000, by omega⟩,
    ⟨accrued + (fee - fee * 1000 / 10000), room⟩, rfl, ⟨fits, rfl, ?_⟩, rfl, rfl⟩
  change fee = fee - fee * 1000 / 10000 + fee * 1000 / 10000
  omega

theorem feeLeg_succeeds {proof : Proof} (hash : proof.data.requestBody.transactionHash ≠ 0)
    (status : proof.data.responseBody.status = 1) :
    (∃ s' fees, feeLeg D env fill proof s = .ok (s', fees)) ↔
      (fill.profit ≠ 0 → FeeTakes D env s.registry ⟨s.ledger, s.fee⟩ fill proof) := by
  -- without a profit nothing is called
  by_cases profit : fill.profit = 0
  · simp [feeLeg, profit, pure_ok]
  simp only [feeLeg, Fin.pos_iff_ne_zero.mpr profit, if_true, ne_eq, profit, not_false_eq_true,
    forall_const, bind_ok]
  constructor
  · rintro ⟨s', fees, accrual, accrued, released⟩
    obtain ⟨wired, -, registered, fits, gross, hg, booked⟩ := MirrorFee.accrueFee_ok.mp accrued
    rcases booked with ⟨rfl, -⟩ | ⟨positive, protocol, net, total, split, ht, rfl⟩
    · exact ⟨wired.symm, ⟨registered, fits, fun due => absurd hg.symm due⟩,
        fun due => absurd hg.symm due⟩
    · have netPos := split.net_pos (Nat.pos_of_ne_zero (Fin.val_ne_of_ne positive))
      have value : net.val = netOf fill.profit.val
          (s.registry.leads fill.lead).feeRateBps.val := by
        rw [split.net_eq, netOf, hg]
      rw [if_pos (Fin.lt_def.mpr netPos)] at released
      simp only [System.onFee, bind_ok, pure_ok] at released
      obtain ⟨_, ⟨t, paid, -⟩, -⟩ := released
      have checks := (releaseFee_succeeds (by exact wired.symm) (by rintro rfl; simp at netPos)
        hash status (by simp [ht])).mp ⟨t, paid⟩
      obtain ⟨unused, verifier, accepted, funded, taken⟩ := checks
      rw [value] at funded taken
      have := total.isLt
      exact ⟨wired.symm, ⟨registered, fits,
        fun _ => ⟨by simp only; omega, verifier, accepted, funded, taken⟩⟩, fun _ => unused⟩
  · rintro ⟨wired, ⟨registered, fits, paid⟩, fresh⟩
    by_cases nothing : fill.profit.val * (s.registry.leads fill.lead).feeRateBps.val / 2000 = 0
    · -- the fee rounds to nothing and nobody is paid
      have accrued : s.fee.accrueFee s.registry D.sender fill.lead fill.follower fill.profit
          fill.epochId = .ok ⟨s.fee, 0, none⟩ :=
        MirrorFee.accrueFee_ok.mpr
          ⟨wired.symm, profit, registered, fits, 0, nothing.symm, .inl ⟨rfl, rfl⟩⟩
      exact ⟨s, [], _, accrued, rfl⟩
    · obtain ⟨room, verifier, accepted, funded, taken⟩ := paid nothing
      obtain ⟨gross, protocol, net, total, hg, split, hn, ht⟩ := exists_split (by omega) room
      have netPos := split.net_pos (by omega)
      have accrued : s.fee.accrueFee s.registry D.sender fill.lead fill.follower fill.profit
          fill.epochId = .ok ⟨{ s.fee with
            accruedFees := Function.update s.fee.accruedFees fill.lead total }, net,
            some ⟨fill.lead, fill.follower, gross, protocol, net, fill.epochId⟩⟩ := by
        refine MirrorFee.accrueFee_ok.mpr
          ⟨wired.symm, profit, registered, fits, gross, hg, .inr ⟨?_, protocol, net, total, split,
            ht, rfl⟩⟩
        rintro rfl
        exact nothing (by simpa using hg.symm)
      rw [netOf, ← hn] at funded taken
      have release : ∃ t, MirrorFee.releaseFee D env D.sender proof fill.lead net ⟨s.ledger,
          { s.fee with accruedFees := Function.update s.fee.accruedFees fill.lead total }⟩ =
            .ok t := by
        rw [releaseFee_succeeds (by exact wired) ?_ hash status ?_]
        · exact ⟨fresh nothing, verifier, accepted, funded, taken⟩
        · rintro rfl
          simp at netPos
        · simp [ht]
      obtain ⟨t, released⟩ := release
      refine ⟨{ s with
        ledger := t.ledger
        fee := t.fee }, [⟨fill.lead, fill.follower, gross, protocol, net, fill.epochId⟩], _,
        accrued, ?_⟩
      rw [if_pos (Fin.lt_def.mpr netPos)]
      simp only [System.onFee, bind_ok, pure_ok]
      exact ⟨_, ⟨t, released, rfl⟩, rfl⟩

/-- Both legs accept the fill, whatever state they are in. -/
structure Accepts (D : Deployment) (env : External) (s : System) (fill : PendingFill)
    (proof : Proof) : Prop where
  vault : VaultTakes D s.vault fill
  fee : fill.profit ≠ 0 → FeeTakes D env s.registry ⟨s.ledger, s.fee⟩ fill proof

/-- Once a proof is admitted the two legs decide, each on the state before the settlement. -/
theorem settlement_succeeds {caller : Address} {fillId : Uint256} {proof : Proof}
    (admitted : admitProof D env caller fillId proof s.sender = .ok ()) :
    (∃ s' fees, applyFdcSettlement D env caller fillId proof s = .ok (s', fees)) ↔
      Accepts D env s (s.sender.pendingFills fillId) proof := by
  obtain ⟨-, -, -, -, -, hash, -, status, -⟩ := admitProof_ok.mp admitted
  -- the vault leg leaves everything that the fee leg reads
  have fees (mid : System) (h : vaultLeg D (s.sender.pendingFills fillId) { s with
      sender := s.sender.markSettled fillId proof.data.requestBody.transactionHash } = .ok mid) :
      (∃ s' fees, feeLeg D env (s.sender.pendingFills fillId) proof mid = .ok (s', fees)) ↔
        ((s.sender.pendingFills fillId).profit ≠ 0 → FeeTakes D env s.registry
          ⟨s.ledger, s.fee⟩ (s.sender.pendingFills fillId) proof) := by
    obtain ⟨fee, registry, ledger⟩ := vaultLeg_fee h
    rw [feeLeg_succeeds hash status, fee, registry, ledger]
  have vault : (∃ mid, vaultLeg D (s.sender.pendingFills fillId) { s with
      sender := s.sender.markSettled fillId proof.data.requestBody.transactionHash } = .ok mid) ↔
        VaultTakes D s.vault (s.sender.pendingFills fillId) := vaultLeg_succeeds
  simp only [applyFdcSettlement_ok, admitted, true_and]
  constructor
  · rintro ⟨s', fees', mid, written, paid⟩
    exact ⟨vault.mp ⟨mid, written⟩, (fees mid written).mp ⟨s', fees', paid⟩⟩
  · rintro ⟨vaultTakes, feeTakes⟩
    obtain ⟨mid, written⟩ := vault.mpr vaultTakes
    obtain ⟨s', fees', paid⟩ := (fees mid written).mpr feeTakes
    exact ⟨s', fees', mid, written, paid⟩

/-- What the two legs can still object to in a run. -/
structure Settleable (D : Deployment) (env : External) (s : System) (fill : PendingFill)
    (proof : Proof) : Prop where
  vault : VaultReady D s.vault fill
  fee : fill.profit ≠ 0 → FeeReady D env s.registry ⟨s.ledger, s.fee⟩ fill proof

/-- What a settlement leaves behind: the fill is closed, its account moves by what the fill says
and gets its lock back, and no other account notices. -/
structure Committed (D : Deployment) (fillId : Uint256) (s s' : System) : Prop where
  closed : (s'.sender.pendingFills fillId).settled = true
  balance : ∀ f l, ((s'.vault.subAccounts f l).balance.val : ℤ) =
    (s.vault.subAccounts f l).balance.val + (s.sender.pendingFills fillId).delta D f l
  lock : ∀ f l, (s'.vault.subAccounts f l).pendingLocked.val +
    (s.sender.pendingFills fillId).holds D f l = (s.vault.subAccounts f l).pendingLocked.val

/-! ### States of a run -/

namespace Chain

/-- The invariants under which a settlement depends on nothing else. -/
structure Backed (c : Chain D) : Prop where
  guarded : c.Guarded
  off : c.sys.vault.legacySettleBatchEnabled = false
  covered : c.book.Covered
  ledgered : c.book.Ledgered
  feeWired : c.sys.fee.instructionSender = D.sender
  spent : ∀ x, c.sys.fee.usedProofs x = true → c.sys.sender.usedProofTxHashes x = true

/-- The wiring is fixed and batches without proof stay off. -/
structure Undisturbed (c : Chain D) (tx : Tx D) : Prop where
  fixed : c.Fixed tx
  legacy : ∀ a ∈ tx.actions c.sys, a.entry.enablesLegacy = false

instance (c : Chain D) (tx : Tx D) : Decidable (c.Undisturbed tx) :=
  decidable_of_iff (c.Fixed tx ∧ ∀ a ∈ tx.actions c.sys, a.entry.enablesLegacy = false)
    ⟨fun h => ⟨h.1, h.2⟩, fun h => ⟨h.fixed, h.legacy⟩⟩

theorem backed_step (c : Chain D) (tx : Tx D) (backed : c.Backed) (ok : c.Undisturbed tx) :
    (c.step tx).Backed := by
  obtain ⟨guarded, booked⟩ := c.step_books tx backed.guarded ok.fixed.wired
  obtain ⟨moves, reaches⟩ := booked.reaches
  obtain ⟨feeWired, spent⟩ := c.spent_step tx backed.feeWired backed.spent ok.fixed.fee
  exact ⟨guarded, c.step_legacy tx backed.guarded ok.legacy backed.off,
    booked.covered backed.off backed.covered, reaches.ledgered backed.ledgered, feeWired, spent⟩

theorem Deployed.backed {c : Chain D} (deployed : c.Deployed) (supply : c.fxrpSupply < 2 ^ 255) :
    c.Backed := by
  obtain ⟨_, fee⟩ := deployed.fee
  refine ⟨deployed.guarded supply, deployed.off, deployed.covered, deployed.ledgered, ?_, ?_⟩
  · simp [fee]
  · simp [fee, MirrorFee.deployed]

/-- A fill of FXRP still holds its lock, and the lock its balance. -/
theorem Backed.held {c : Chain D} (backed : c.Backed) {fillId : Uint256}
    (live : (c.sys.sender.pendingFills fillId).live = true)
    (inFxrp : (c.sys.sender.pendingFills fillId).tokenIn = D.fxrpToken) :
    (c.sys.sender.pendingFills fillId).amountIn.val ≤
        (c.sys.vault.subAccounts (c.sys.sender.pendingFills fillId).follower
          (c.sys.sender.pendingFills fillId).lead).pendingLocked.val ∧
      (c.sys.sender.pendingFills fillId).amountIn.val ≤
        (c.sys.vault.subAccounts (c.sys.sender.pendingFills fillId).follower
          (c.sys.sender.pendingFills fillId).lead).balance.val := by
  obtain ⟨-, first⟩ := backed.guarded.ticket live
  -- the ledger gives the lock, and no account has more locked than it owns
  have locked := c.book.debit_le_locked backed.ledgered _ _ first
  have covered := backed.covered (ticketOf D (c.sys.sender.pendingFills fillId)).account
  simp only [ticketOf, inFxrp, if_true] at locked covered
  exact ⟨locked, locked.trans covered⟩

/-- In a run the wiring, the locks and the freshness of the proof are not in question. -/
theorem Backed.accepts_iff {c : Chain D} (backed : c.Backed) {env : External} {caller : Address}
    {fillId : Uint256} {proof : Proof}
    (admitted : admitProof D env caller fillId proof c.sys.sender = .ok ()) :
    Accepts D env c.sys (c.sys.sender.pendingFills fillId) proof ↔
      Settleable D env c.sys (c.sys.sender.pendingFills fillId) proof := by
  obtain ⟨-, -, found, unsettled, -, -, unused, -⟩ := admitProof_ok.mp admitted
  have live : (c.sys.sender.pendingFills fillId).live = true := by
    simp [PendingFill.live, found, unsettled]
  obtain ⟨fits, -⟩ := backed.guarded.ticket live
  -- a hash that the fee contract knows was used up before, but the proof was admitted
  have fresh : c.sys.fee.usedProofs proof.data.requestBody.transactionHash = false := by
    cases used : c.sys.fee.usedProofs proof.data.requestBody.transactionHash with
    | false => rfl
    | true =>
      rw [backed.spent _ used] at unused
      cases unused
  have vault := vaultTakes_iff_ready backed.guarded.system.custody.wired fits (backed.held live)
  constructor
  · rintro ⟨vaultTakes, feeTakes⟩
    exact ⟨vault.mp vaultTakes, fun profit => (feeTakes profit).ready⟩
  · rintro ⟨vaultReady, feeReady⟩
    exact ⟨vault.mpr vaultReady,
      fun profit => ⟨backed.feeWired, feeReady profit, fun _ => fresh⟩⟩

theorem Backed.settlement_commits {c : Chain D} (backed : c.Backed) {env : External}
    {caller : Address} {fillId : Uint256} {proof : Proof} {s : System} {fees : List FeeAccrued}
    (h : applyFdcSettlement D env caller fillId proof c.sys = .ok (s, fees)) :
    Committed D fillId c.sys s := by
  obtain ⟨admitted, mid, vaultWrites, feeWrites⟩ := applyFdcSettlement_ok.mp h
  obtain ⟨-, -, found, unsettled, -⟩ := admitProof_ok.mp admitted
  have live : (c.sys.sender.pendingFills fillId).live = true := by
    simp [PendingFill.live, found, unsettled]
  obtain ⟨fits, -⟩ := backed.guarded.ticket live
  obtain ⟨sender, vault⟩ := feeLeg_frame feeWrites
  constructor
  · rw [sender, vaultLeg_sender vaultWrites]
    simp [markSettled]
  · rw [vault]
    exact fun f l => (vaultLeg_account fits vaultWrites f l).1
  · rw [vault]
    exact fun f l => (vaultLeg_account fits vaultWrites f l).2

end Chain

end Mirror
