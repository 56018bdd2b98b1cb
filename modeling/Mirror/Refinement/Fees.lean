import Mirror.Refinement.Runs

/-!
Who writes the books of the fee contract: with the wiring fixed, only settlements and accruals of
the instruction sender do.
-/
namespace Mirror

open Evm InstructionSender

variable {D : Deployment} {env : External} {caller : Address} {s s' : System}

/-- The wiring and the books of the fee contract are as before. -/
structure MirrorFee.SameBooks (m m' : MirrorFee) : Prop where
  wired : m'.instructionSender = m.instructionSender
  accrued : m'.accruedFees = m.accruedFees
  used : m'.usedProofs = m.usedProofs

theorem MirrorFee.SameBooks.refl (m : MirrorFee) : m.SameBooks m := ⟨rfl, rfl, rfl⟩

theorem MirrorFee.SameBooks.trans {m m' m'' : MirrorFee} (h : m.SameBooks m')
    (h' : m'.SameBooks m'') : m.SameBooks m'' :=
  ⟨h'.wired.trans h.wired, h'.accrued.trans h.accrued, h'.used.trans h.used⟩

/-- Accruing and releasing are closed to outsiders; what is left changes settings only. -/
theorem MirrorFee.call_outsider {registry : MirrorRegistry} {who : Outsider D} {op : FeeCall}
    {t t' : Treasury} (wired : t.fee.instructionSender = D.sender)
    (keeps : Entry.rewiresFee (.fee op) = false)
    (h : MirrorFee.call D env registry who.addr t op = .ok t') :
    t.fee.SameBooks t'.fee ∧ t'.ledger = t.ledger := by
  cases op with
  | accrueFee lead follower profit epochId =>
    simp only [MirrorFee.call, bind_ok] at h
    obtain ⟨a, accrued, -⟩ := h
    obtain ⟨same, -⟩ := MirrorFee.accrueFee_ok.mp accrued
    exact absurd (same.trans wired) who.ne_sender
  | releaseFee proof lead amount =>
    obtain ⟨same, -⟩ := MirrorFee.releaseFee_ok.mp h
    exact absurd (same.trans wired) who.ne_sender
  | claim lead => simp [MirrorFee.call] at h
  | setInstructionSender sender => simp [Entry.rewiresFee] at keeps
  | setFdcVerifier | transferOwnership | renounceOwnership =>
    obtain ⟨ledger, accrued, used, wired'⟩ := MirrorFee.call_setting rfl h
    exact ⟨⟨wired' (by simp), accrued, used⟩, ledger⟩

theorem Action.perform_fees {a : Action D} (wired : s.fee.instructionSender = D.sender)
    (keeps : a.entry.rewiresFee = false) (h : a.perform env s = .ok s') :
    s.fee.SameBooks s'.fee := by
  cases performed h with
  | fee who op t called => exact (MirrorFee.call_outsider wired keeps called).1
  | token | vault | registry | sender => exact .refl _

theorem Action.performAll_fees {actions : List (Action D)}
    (wired : s.fee.instructionSender = D.sender)
    (keeps : ∀ a ∈ actions, a.entry.rewiresFee = false)
    (h : performAll env actions s = .ok s') : s.fee.SameBooks s'.fee := by
  have kept : ∀ (a : Action D) (x x' : System), a.entry.rewiresFee = false →
      s.fee.SameBooks x.fee → a.perform env x = .ok x' → s.fee.SameBooks x'.fee := by
    intro a x x' keeps same done
    exact same.trans (perform_fees (same.wired.trans wired) keeps done)
  exact performAll_keeps _ _ kept keeps (.refl _) h

theorem MatchTrace.fees {routers : Routers D} {exec : MatchExecution}
    (t : MatchTrace D env caller routers exec s) (wired : s.fee.instructionSender = D.sender)
    (keeps : ∀ a ∈ t.reply.actions, a.entry.rewiresFee = false) :
    s.fee.SameBooks t.final.fee := by
  have before : t.approved.fee = s.fee := by
    have approve := t.approve
    simp only [System.onToken, bind_ok, pure_ok] at approve
    obtain ⟨_, -, approved⟩ := approve
    rw [← approved]
    rcases lockLeg_ok.mp t.lock with ⟨-, lent⟩ | ⟨-, same⟩
    · obtain ⟨_, -, locked⟩ := System.onVault_ok lent
      rw [locked]
    · rw [same]
  -- what the router does is done by outsiders
  have during := Action.performAll_fees (before ▸ wired) keeps t.acted
  rw [before] at during
  have after : t.booked.fee = t.swapped.fee := by
    rcases proceedsLeg_ok.mp t.proceeds with ⟨-, mid, approved, received⟩ | ⟨-, same⟩
    · simp only [System.onToken, bind_ok, pure_ok] at approved
      obtain ⟨_, -, rfl⟩ := approved
      obtain ⟨_, -, booked⟩ := System.onVault_ok received
      rw [booked]
    · rw [same]
  rw [MatchTrace.final, after]
  exact during

theorem vaultLeg_fee {fill : PendingFill} (h : vaultLeg D fill s = .ok s') :
    s'.fee = s.fee ∧ s'.registry = s.registry ∧ s'.ledger = s.ledger := by
  rcases vaultLeg_ok.mp h with ⟨delta, -, ⟨-, written⟩ | ⟨-, rfl⟩⟩
  · obtain ⟨c, settled, rfl⟩ := System.onVault_ok written
    obtain ⟨-, -, -, cases⟩ := settleFromProof_ok.mp settled
    rcases cases with ⟨-, _, _, -, -, -, rfl⟩ | ⟨-, _, -, rfl⟩ | ⟨-, rfl⟩ <;> exact ⟨rfl, rfl, rfl⟩
  · exact ⟨rfl, rfl, rfl⟩

/-- What a settlement accrues it also releases: the books end as they were. -/
theorem feeLeg_restores {fill : PendingFill} {proof : Proof} {fees : List FeeAccrued}
    (h : feeLeg D env fill proof s = .ok (s', fees)) :
    s'.fee.accruedFees = s.fee.accruedFees := by
  cases feeLeg_trace h with
  | idle => rfl
  | booked accrual accrued nothing =>
    obtain ⟨total, added, written⟩ := MirrorFee.accrueFee_adds accrued
    have zero : accrual.netFee.val = 0 := Nat.le_zero.mp (not_lt.mp nothing)
    have same : total = s.fee.accruedFees fill.lead := Fin.ext (by omega)
    simp only [written, same, Function.update_eq_self]
  | paid accrual treasury accrued due released =>
    obtain ⟨total, added, written⟩ := MirrorFee.accrueFee_adds accrued
    obtain ⟨-, -, -, -, -, -, -, rest, ledger, struck, -, rfl⟩ :=
      MirrorFee.releaseFee_ok.mp released
    simp only [written, Function.update_self] at struck
    have restored : rest = s.fee.accruedFees fill.lead := Fin.ext (by omega)
    simp only [written, Function.update_idem, restored, Function.update_eq_self]

/-- A settlement uses up at most the hash of its own proof. -/
theorem feeLeg_used {fill : PendingFill} {proof : Proof} {fees : List FeeAccrued}
    (h : feeLeg D env fill proof s = .ok (s', fees)) :
    s'.fee.instructionSender = s.fee.instructionSender ∧
      ∀ x, s'.fee.usedProofs x = true →
        s.fee.usedProofs x = true ∨ x = proof.data.requestBody.transactionHash := by
  cases feeLeg_trace h with
  | idle => exact ⟨rfl, fun x used => .inl used⟩
  | booked accrual accrued =>
    obtain ⟨total, -, written⟩ := MirrorFee.accrueFee_adds accrued
    rw [written]
    exact ⟨rfl, fun x used => .inl used⟩
  | paid accrual treasury accrued due released =>
    obtain ⟨total, -, written⟩ := MirrorFee.accrueFee_adds accrued
    obtain ⟨-, -, -, -, -, -, -, _, _, -, -, rfl⟩ := MirrorFee.releaseFee_ok.mp released
    rw [written]
    refine ⟨rfl, fun x used => ?_⟩
    -- the release marks the hash of its own proof and no other
    by_cases own : x = proof.data.requestBody.transactionHash
    · exact .inr own
    · simp only [Function.update_of_ne own] at used
      exact .inl used

theorem accrueEach_used {accruals : List FeeAccrual} {fees : List FeeAccrued}
    (h : accrueEach D accruals s = .ok (s', fees)) :
    s'.fee.instructionSender = s.fee.instructionSender ∧
      s'.fee.usedProofs = s.fee.usedProofs := by
  replace h := accrueEach_trace h
  induction h with
  | nil => exact ⟨rfl, rfl⟩
  | cons accrued others ih =>
    obtain ⟨total, -, written⟩ := MirrorFee.accrueFee_adds accrued
    simp only [written] at ih
    exact ih

namespace Chain

/-- Both the vault and the fee contract stay with the instruction sender. -/
structure Fixed (c : Chain D) (tx : Tx D) : Prop where
  wired : c.Wired tx
  fee : ∀ a ∈ tx.actions c.sys, a.entry.rewiresFee = false

instance (c : Chain D) (tx : Tx D) : Decidable (c.Fixed tx) :=
  decidable_of_iff (c.Wired tx ∧ ∀ a ∈ tx.actions c.sys, a.entry.rewiresFee = false)
    ⟨fun h => ⟨h.1, h.2⟩, fun h => ⟨h.wired, h.fee⟩⟩

/-- The fee contract knows no hash that the instruction sender has not used up. -/
theorem spent_step (c : Chain D) (tx : Tx D) (feeWired : c.sys.fee.instructionSender = D.sender)
    (spent : ∀ x, c.sys.fee.usedProofs x = true → c.sys.sender.usedProofTxHashes x = true)
    (kept : ∀ a ∈ tx.actions c.sys, a.entry.rewiresFee = false) :
    (c.step tx).sys.fee.instructionSender = D.sender ∧
      ∀ x, (c.step tx).sys.fee.usedProofs x = true →
        (c.step tx).sys.sender.usedProofTxHashes x = true := by
  rcases c.step_cases tx with ⟨_, -, stepped⟩ | ⟨s, o, performed, stepped⟩
  · rw [stepped]
    exact ⟨feeWired, spent⟩
  · have records := Tx.perform_records performed
    rw [stepped]
    cases Tx.perform_trace performed with
    | entry e s' call acts acted =>
      rw [acts] at kept
      have same := Action.perform_fees feeWired (kept _ List.mem_cons_self) acted
      refine ⟨same.wired.trans feeWired, fun x used => ?_⟩
      rw [records.spent]
      exact spent x (same.used ▸ used)
    | matched exec call t acts =>
      rw [acts] at kept
      have same := t.fees feeWired kept
      obtain ⟨-, -, -, -, same'⟩ := records
      refine ⟨same.wired.trans feeWired, fun x used => ?_⟩
      rw [same']
      exact spent x (same.used ▸ used)
    | settled fillId proof fees s' call acts applied =>
      obtain ⟨-, mid, vaultWrites, feeWrites⟩ := applyFdcSettlement_ok.mp applied
      obtain ⟨fee, -, -⟩ := vaultLeg_fee vaultWrites
      obtain ⟨wired, used⟩ := feeLeg_used feeWrites
      rw [fee] at wired used
      obtain ⟨-, -, written⟩ := records
      refine ⟨wired.trans feeWired, fun x hx => ?_⟩
      simp only [written, markSettled]
      -- the hash that the release uses up was used up by the settlement before
      by_cases own : x = proof.data.requestBody.transactionHash
      · simp [own]
      · rw [Function.update_of_ne own]
        exact spent x ((used x hx).resolve_right own)
    | batch settlements nonce s' call acts applied =>
      obtain ⟨i, -, written⟩ := InstructionSender.settleBatch_ok applied
      obtain ⟨_, -, rfl⟩ := System.onVault_ok written
      exact ⟨feeWired, fun x used => records.spent ▸ spent x used⟩
    | accrued accruals nonce fees s' call acts applied =>
      obtain ⟨i, -, written⟩ := InstructionSender.accrueFees_ok applied
      obtain ⟨wired, used⟩ := accrueEach_used written
      exact ⟨wired.trans feeWired,
        fun x hx => records.spent ▸ spent x (used ▸ hx)⟩
    | withdrawn follower lead nonce s' call acts applied =>
      obtain ⟨i, -, written⟩ := InstructionSender.finalizeWithdrawal_ok applied
      obtain ⟨_, -, rfl⟩ := System.onVault_ok written
      exact ⟨feeWired, fun x used => records.spent ▸ spent x used⟩

end Chain

end Mirror
