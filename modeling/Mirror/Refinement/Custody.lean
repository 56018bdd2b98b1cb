import Mirror.Contracts.Vault
import Mirror.Escrow.Book

/-!
The vault's storage as an escrow book. Each accepted vault call is one move of the book, so
what the calls do to any account is read off once, here.
-/
namespace Mirror

open Evm Escrow

/-- A sub-account by follower and lead. -/
abbrev Key := Address × Address

namespace MirrorVault

/-- One field of all sub-accounts. -/
def entries (field : SubAccount → Uint256) (v : MirrorVault) : Key → ℕ :=
  fun k => (field (v.subAccounts k.1 k.2)).val

theorem entries_setAccount (field : SubAccount → Uint256) (v : MirrorVault) (f l : Address)
    (a : SubAccount) :
    entries field (v.setAccount f l a) =
      Function.update (entries field v) (f, l) (field a).val := by
  funext k
  -- the account written, and all others
  by_cases h : k = (f, l)
  · subst h
    simp [entries]
  · have other : ¬(k.1 = f ∧ k.2 = l) := fun hk => h (Prod.ext hk.1 hk.2)
    simp [entries, setAccount_other v a other, Function.update_of_ne h]

/-- A field the call does not write. -/
theorem entries_kept (field : SubAccount → Uint256) (v : MirrorVault) (f l : Address)
    (a : SubAccount) (same : field a = field (v.subAccounts f l)) :
    entries field (v.setAccount f l a) = entries field v := by
  rw [entries_setAccount, same]
  exact Function.update_eq_self (f, l) (entries field v)

theorem entries_written (field : SubAccount → Uint256) (v : MirrorVault) (f l : Address)
    (a : SubAccount) (n : ℕ) (value : (field a).val = n) :
    entries field (v.setAccount f l a) = Function.update (entries field v) (f, l) n := by
  rw [entries_setAccount, value]

end MirrorVault

open MirrorVault

variable (D : Deployment)

/-- The escrow that the vault keeps, with the tickets held elsewhere. -/
def Custody.book (c : Custody) (loose : Key → ℕ) (tickets : List (Uint256 × Ticket Key)) :
    Book Key Uint256 where
  balance := entries SubAccount.balance c.vault
  owed := entries SubAccount.pendingWithdrawal c.vault
  locked := entries SubAccount.pendingLocked c.vault
  loose := loose
  cash := (c.ledger D.fxrpToken).balanceOf D.vault
  tickets := tickets

/-- What every call keeps about the vault: it obeys the instruction sender, has approved nobody
and owes withdrawals to outsiders only. -/
structure Custody.Guarded (c : Custody) : Prop where
  wired : c.vault.instructionSender = D.sender
  closed : (c.ledger D.fxrpToken).allowance D.vault = fun _ => 0
  payees : ∀ f l, (c.vault.subAccounts f l).pendingWithdrawal ≠ 0 → f ∉ D.reserved

variable {D} {env : External} {c c' : Custody}

/-- Writing a sub-account keeps the vault guarded if new payees are outsiders. -/
theorem Custody.Guarded.write {ledger : Ledger} {f l : Address} {a : SubAccount}
    (guarded : c.Guarded D)
    (closed : (ledger D.fxrpToken).allowance D.vault = (c.ledger D.fxrpToken).allowance D.vault)
    (payee : a.pendingWithdrawal ≠ 0 → f ∉ D.reserved) :
    Custody.Guarded D ⟨ledger, c.vault.setAccount f l a⟩ where
  wired := guarded.wired
  closed := closed.trans guarded.closed
  payees f' l' := by
    -- only the account written can have a new payee
    by_cases h : f' = f ∧ l' = l
    · obtain ⟨rfl, rfl⟩ := h
      simpa using payee
    · simpa only [setAccount_other c.vault a h] using guarded.payees f' l'

theorem credit_refines {src follower lead : Address} {amount : Uint256} (loose : Key → ℕ)
    (tickets : List (Uint256 × Ticket Key)) (distinct : src ≠ D.vault) (guarded : c.Guarded D)
    (h : credit D env src follower lead amount c = .ok c') :
    c'.book D loose tickets =
      (c.book D loose tickets).apply (.deposit (follower, lead) amount.val) ∧ c'.Guarded D := by
  simp only [credit, bind_ok, orRevert_ok, checkedAdd_some, pure_ok] at h
  obtain ⟨ledger, pulled, balance, hb, rfl⟩ := h
  obtain ⟨cash, -, rows⟩ := Token.transferFrom_collects distinct (Ledger.call_same pulled)
  constructor
  -- the vault collects what it credits
  · simp only [Custody.book, Book.apply, cash, Book.mk.injEq, and_true]
    exact ⟨entries_written _ _ _ _ _ _ hb, entries_kept _ _ _ _ _ rfl,
      entries_kept _ _ _ _ _ rfl⟩
  · exact guarded.write (rows _ (Ne.symm distinct)) (guarded.payees follower lead)

theorem requestWithdrawal_refines {caller lead : Address} {amount : Uint256} (loose : Key → ℕ)
    (tickets : List (Uint256 × Ticket Key)) (outside : caller ∉ D.reserved) (guarded : c.Guarded D)
    (h : requestWithdrawal caller lead amount c = .ok c') :
    (c.book D loose tickets).Valid (.request (caller, lead) amount.val) ∧
      c'.book D loose tickets =
        (c.book D loose tickets).apply (.request (caller, lead) amount.val) ∧ c'.Guarded D := by
  simp only [requestWithdrawal, bind_ok, revertIf_ok, orRevert_ok, checkedSub_some,
    checkedAdd_some, pure_ok, exists_const, Fin.lt_def, not_lt] at h
  obtain ⟨-, available, ha, enough, balance, hb, pending, hp, rfl⟩ := h
  refine ⟨?_, ?_, ?_⟩
  · simp only [Book.Valid, Custody.book, entries]
    omega
  · simp only [Custody.book, Book.apply, Book.mk.injEq, and_true]
    refine ⟨entries_written _ _ _ _ _ _ ?_, entries_written _ _ _ _ _ _ hp,
      entries_kept _ _ _ _ _ rfl⟩
    simp only [entries]
    omega
  · exact guarded.write rfl (fun _ => outside)

theorem transferForExecution_refines {follower lead : Address} {amount : Uint256}
    (loose : Key → ℕ) (tickets : List (Uint256 × Ticket Key)) (guarded : c.Guarded D)
    (h : transferForExecution D env D.sender follower lead amount c = .ok c') :
    amount ≠ 0 ∧ (c.book D loose tickets).Valid (.lock (follower, lead) amount.val) ∧
      c'.book D (Function.update loose (follower, lead) (loose (follower, lead) + amount.val))
          tickets =
        (c.book D loose tickets).apply (.lock (follower, lead) amount.val) ∧ c'.Guarded D := by
  simp only [transferForExecution, bind_ok, revertIf_ok, orRevert_ok, checkedSub_some,
    checkedAdd_some, pure_ok, exists_const, Fin.lt_def, not_lt] at h
  obtain ⟨_, -, positive, available, ha, enough, locked, hl, ledger, sent, rfl⟩ := h
  -- the vault pays from its own balance, so no allowance changes
  obtain ⟨cash, rows⟩ := Token.transfer_spends D.sender_ne_vault.symm (Ledger.call_same sent)
  refine ⟨positive, ?_, ?_, ?_⟩
  · simp only [Book.Valid, Custody.book, entries]
    omega
  · simp only [Custody.book, Book.apply, Book.mk.injEq, true_and, and_true]
    refine ⟨entries_kept _ _ _ _ _ rfl, entries_kept _ _ _ _ _ rfl,
      entries_written _ _ _ _ _ _ hl, ?_⟩
    omega
  · exact guarded.write (by rw [rows]) (guarded.payees follower lead)

theorem finalizeWithdrawal_refines {follower lead : Address} (loose : Key → ℕ)
    (tickets : List (Uint256 × Ticket Key)) (guarded : c.Guarded D)
    (h : finalizeWithdrawal D env D.sender follower lead c = .ok c') :
    (c.book D loose tickets).Valid (.payout (follower, lead)) ∧
      c'.book D loose tickets = (c.book D loose tickets).apply (.payout (follower, lead)) ∧
      c'.Guarded D := by
  simp only [finalizeWithdrawal, bind_ok, revertIf_ok, pure_ok, exists_const] at h
  obtain ⟨_, -, owed, ledger, sent, rfl⟩ := h
  have outside := guarded.payees follower lead owed
  -- the payee is an outsider, so the money does leave the vault
  obtain ⟨cash, rows⟩ := Token.transfer_spends (D.ne_vault outside).symm (Ledger.call_same sent)
  refine ⟨?_, ?_, ?_⟩
  · simp only [Book.Valid, Custody.book, entries]
    omega
  · simp only [Custody.book, Book.apply, Book.mk.injEq, true_and, and_true]
    refine ⟨entries_kept _ _ _ _ _ rfl, entries_written _ _ _ _ _ _ rfl,
      entries_kept _ _ _ _ _ rfl, ?_⟩
    simp only [entries]
    omega
  · exact guarded.write (by rw [rows]) (fun h => absurd rfl h)

/-- Proceeds reach the till before any ticket says whose they are. -/
theorem receiveExecutionProceeds_refines {amount : Uint256} (loose : Key → ℕ)
    (tickets : List (Uint256 × Ticket Key)) (guarded : c.Guarded D)
    (h : receiveExecutionProceeds D env D.sender amount c = .ok c') :
    amount ≠ 0 ∧ amount.val ≤ (c.ledger D.fxrpToken).balanceOf D.sender ∧
      c'.book D loose tickets = (c.book D loose tickets).apply (.receive amount.val) ∧
      c'.Guarded D := by
  simp only [receiveExecutionProceeds, bind_ok, revertIf_ok, pure_ok, exists_const] at h
  obtain ⟨_, -, positive, ledger, pulled, rfl⟩ := h
  obtain ⟨cash, enough, rows⟩ :=
    Token.transferFrom_collects D.sender_ne_vault (Ledger.call_same pulled)
  refine ⟨positive, enough, ?_, guarded.wired, ?_, guarded.payees⟩
  · simp only [Custody.book, Book.apply, cash]
  · exact (rows _ D.sender_ne_vault.symm).trans guarded.closed

/-! ### Settlements -/

/-- A settlement from a proof either releases a lock together with its balance, or credits, or
does nothing. -/
theorem settleFromProof_ok {caller follower lead : Address} {delta : Int256} :
    settleFromProof caller follower lead delta c = .ok c' ↔
      caller = c.vault.instructionSender ∧ follower ≠ 0 ∧ lead ≠ 0 ∧
        ((delta.val < 0 ∧ ∃ locked balance : Uint256,
            delta.val ≠ -2 ^ 255 ∧
            (c.vault.subAccounts follower lead).pendingLocked.val =
              locked.val + (-delta.val).toNat ∧
            (c.vault.subAccounts follower lead).balance.val = balance.val + (-delta.val).toNat ∧
            c' = ⟨c.ledger, c.vault.setAccount follower lead
              ⟨balance, (c.vault.subAccounts follower lead).pendingWithdrawal, locked⟩⟩) ∨
          (0 < delta.val ∧ ∃ balance : Uint256,
            balance.val = (c.vault.subAccounts follower lead).balance.val + delta.val.toNat ∧
            c' = ⟨c.ledger, c.vault.setAccount follower lead
              ⟨balance, (c.vault.subAccounts follower lead).pendingWithdrawal,
                (c.vault.subAccounts follower lead).pendingLocked⟩⟩) ∨
          (delta.val = 0 ∧ c' = c)) := by
  simp only [settleFromProof, MirrorVault.onlyInstructionSender, bind_ok, revertIf_ok,
    exists_const, not_not, not_or, and_assoc]
  refine and_congr_right fun _ => and_congr_right fun _ => and_congr_right fun _ => ?_
  -- a negative delta releases and debits, a positive one credits, zero does nothing
  by_cases neg : delta.val < 0
  -- negated, a negative delta survives the cast to `uint256`
  · have negated (w : Int256) (hw : w.val = -delta.val) :
        w.toUint256.val = (-delta.val).toNat := by
      rw [Int256.toUint256_of_nonneg w (by omega), hw]
    simp only [neg, if_true, true_and, show ¬0 < delta.val by omega, false_and,
      show delta.val ≠ 0 by omega, or_false, bind_ok, orRevert_ok, revertIf_ok, exists_const,
      checkedSub_some, Int256.checkedNeg_some, pure_ok]
    constructor
    · rintro ⟨w, hw, -, -, locked, hl, balance, hb, rfl⟩
      rw [negated w hw] at hl hb
      refine ⟨locked, balance, ?_, hl, hb, rfl⟩
      have := w.upper
      omega
    · rintro ⟨locked, balance, notMin, hl, hb, rfl⟩
      refine ⟨⟨-delta.val, by have := delta.upper; omega, by have := delta.lower; omega⟩, rfl, ?_⟩
      rw [Fin.lt_def, Fin.lt_def, negated _ rfl]
      exact ⟨by omega, by omega, locked, hl, balance, hb, rfl⟩
  · by_cases pos : 0 < delta.val
    · simp only [neg, if_false, pos, if_true, false_and, true_and, false_or,
        show delta.val ≠ 0 by omega, or_false, bind_ok, orRevert_ok, checkedAdd_some, pure_ok,
        Int256.toUint256_of_nonneg delta (by omega), eq_comm (a := c')]
    · have zero : delta.val = 0 := by omega
      simp only [zero, lt_self_iff_false, if_false, false_and, false_or, true_and, pure_ok,
        eq_comm (a := c')]

/-- What a settlement list adds to one account's balance. -/
def netDelta (settlements : List Settlement) (f l : Address) : ℤ :=
  (settlements.map fun s =>
    if f = s.follower ∧ l = s.lead then s.balanceDelta.val else 0).sum

/-- Spending a nonce, with the new balance of one account. -/
def settled (s : Settlement) (balance : Uint256) (v : MirrorVault) : MirrorVault :=
  { v.setAccount s.follower s.lead { v.subAccounts s.follower s.lead with balance } with
    usedNonces := fun f n => if f = s.follower ∧ n = s.nonce then true else v.usedNonces f n }

theorem setAccount_self (v : MirrorVault) (f l : Address) :
    v.setAccount f l (v.subAccounts f l) = v := by
  have same : (v.setAccount f l (v.subAccounts f l)).subAccounts = v.subAccounts := by
    funext f' l'
    by_cases hk : f' = f ∧ l' = l
    · obtain ⟨rfl, rfl⟩ := hk
      exact setAccount_same _ _ _ _
    · exact setAccount_other v _ hk
  exact congrArg (fun accounts => { v with subAccounts := accounts }) same

/-- An entry of a batch names its parties, spends an unused nonce and overwrites one balance. -/
theorem settleOne_ok {s : Settlement} {v v' : MirrorVault} (h : settleOne s v = .ok v') :
    (s.follower ≠ 0 ∧ s.lead ≠ 0) ∧ v.usedNonces s.follower s.nonce = false ∧
      ∃ balance : Uint256,
        (balance.val : ℤ) = (v.subAccounts s.follower s.lead).balance.val + s.balanceDelta.val ∧
        v' = settled s balance v := by
  simp only [settleOne, bind_ok, revertIf_ok, exists_const, not_or, Bool.not_eq_true] at h
  obtain ⟨named, unused, written⟩ := h
  refine ⟨named, unused, ?_⟩
  -- debit, credit, or an entry that only spends its nonce
  split at written
  next neg =>
    simp only [bind_ok, orRevert_ok, revertIf_ok, exists_const, checkedSub_some,
      Int256.checkedNeg_some, pure_ok] at written
    obtain ⟨w, hw, -, balance, hb, rfl⟩ := written
    rw [Int256.toUint256_of_nonneg w (by omega), hw] at hb
    exact ⟨balance, by omega, rfl⟩
  next notNeg =>
    split at written
    next pos =>
      simp only [bind_ok, orRevert_ok, checkedAdd_some, pure_ok] at written
      obtain ⟨balance, hb, rfl⟩ := written
      rw [Int256.toUint256_of_nonneg _ (by omega)] at hb
      exact ⟨balance, by omega, rfl⟩
    next notPos =>
      rw [pure_ok] at written
      subst written
      refine ⟨(v.subAccounts s.follower s.lead).balance, by omega, ?_⟩
      rw [settled, setAccount_self]

/-- A batch moves every balance by its net delta and touches no lock. -/
theorem settleEach_writes {settlements : List Settlement} {v v' : MirrorVault}
    (h : settleEach settlements v = .ok v') :
    v'.instructionSender = v.instructionSender ∧ ∀ f l,
      ((v'.subAccounts f l).balance.val : ℤ) =
        (v.subAccounts f l).balance.val + netDelta settlements f l ∧
      (v'.subAccounts f l).pendingLocked = (v.subAccounts f l).pendingLocked ∧
      (v'.subAccounts f l).pendingWithdrawal = (v.subAccounts f l).pendingWithdrawal := by
  -- induction on the batch, whose entries see what the earlier ones wrote
  induction settlements generalizing v with
  | nil =>
    rw [settleEach, pure_ok] at h
    subst h
    simp [netDelta]
  | cons s rest ih =>
    simp only [settleEach, bind_ok] at h
    obtain ⟨mid, first, tail⟩ := h
    obtain ⟨-, -, balance, hb, rfl⟩ := settleOne_ok first
    obtain ⟨wired', rest'⟩ := ih tail
    refine ⟨wired', fun f l => ?_⟩
    obtain ⟨h1, h2, h3⟩ := rest' f l
    simp only [settled] at h1 h2 h3
    -- the first entry moves its own account, the others wait for the rest
    by_cases hk : f = s.follower ∧ l = s.lead
    · obtain ⟨rfl, rfl⟩ := hk
      simp only [setAccount_same] at h1 h2 h3
      simp only [netDelta, List.map_cons, List.sum_cons, and_self, if_true] at h1 ⊢
      exact ⟨by omega, h2, h3⟩
    · simp only [setAccount_other v _ hk] at h1 h2 h3
      simp only [netDelta, List.map_cons, List.sum_cons, if_neg hk] at h1 ⊢
      exact ⟨by omega, h2, h3⟩

/-- To the book, a batch is a list of outside corrections. -/
theorem settleEach_refines {settlements : List Settlement} {ledger : Ledger}
    {v v' : MirrorVault} (loose : Key → ℕ) (tickets : List (Uint256 × Ticket Key))
    (h : settleEach settlements v = .ok v') :
    ∃ moves, (Custody.book D ⟨ledger, v⟩ loose tickets).Reaches moves
      (Custody.book D ⟨ledger, v'⟩ loose tickets) := by
  induction settlements generalizing v with
  | nil =>
    rw [settleEach, pure_ok] at h
    subst h
    exact ⟨[], Book.Reaches.refl _⟩
  | cons s rest ih =>
    simp only [settleEach, bind_ok] at h
    obtain ⟨mid, first, tail⟩ := h
    obtain ⟨-, -, balance, -, rfl⟩ := settleOne_ok first
    obtain ⟨moves, reaches⟩ := ih tail
    -- one entry is one correction of one balance
    have one : Custody.book D ⟨ledger, settled s balance v⟩ loose tickets =
        (Custody.book D ⟨ledger, v⟩ loose tickets).apply
          (.adjust (s.follower, s.lead) balance.val) := by
      have same (field : SubAccount → Uint256) : entries field (settled s balance v) =
          entries field (v.setAccount s.follower s.lead
            { v.subAccounts s.follower s.lead with balance }) := rfl
      simp only [Custody.book, Book.apply, Book.mk.injEq, and_true, same]
      exact ⟨entries_written _ _ _ _ _ _ rfl, entries_kept _ _ _ _ _ rfl,
        entries_kept _ _ _ _ _ rfl⟩
    have step := Book.Reaches.single (b := Custody.book D ⟨ledger, v⟩ loose tickets)
      (m := .adjust (s.follower, s.lead) balance.val) trivial
    rw [← one] at step
    exact ⟨_, step.trans reaches⟩

theorem settleBatch_refines {settlements : List Settlement} {caller : Address}
    (loose : Key → ℕ) (tickets : List (Uint256 × Ticket Key)) (guarded : c.Guarded D)
    (h : settleBatch caller settlements c = .ok c') :
    c.vault.legacySettleBatchEnabled = true ∧ c'.Guarded D ∧
      ∃ moves, (c.book D loose tickets).Reaches moves (c'.book D loose tickets) := by
  simp only [settleBatch, bind_ok, revertIf_ok, pure_ok, exists_const, Bool.not_eq_false] at h
  obtain ⟨_, -, legacy, v, settled, rfl⟩ := h
  obtain ⟨wired, accounts⟩ := settleEach_writes settled
  refine ⟨legacy, ⟨wired.trans guarded.wired, guarded.closed, fun f l => ?_⟩,
    settleEach_refines loose tickets settled⟩
  -- a batch leaves withdrawals alone, so no new payee appears
  rw [(accounts f l).2.2]
  exact guarded.payees f l

/-! ### Settings -/

/-- The calls that only change a setting. -/
def VaultCall.isSetting : VaultCall → Bool
  | .setInstructionSender _ | .setFsaOnboarder _ | .setLegacySettleBatchEnabled _
  | .transferOwnership _ | .renounceOwnership => true
  | _ => false

/-- Tokens and accounts stay, and so do the settings that `op` does not name. -/
structure Custody.SettingOnly (op : VaultCall) (c c' : Custody) : Prop where
  ledger : c'.ledger = c.ledger
  accounts : c'.vault.subAccounts = c.vault.subAccounts
  wired : (∀ sender, op ≠ .setInstructionSender sender) →
    c'.vault.instructionSender = c.vault.instructionSender
  legacy : (∀ enabled, op ≠ .setLegacySettleBatchEnabled enabled) →
    c'.vault.legacySettleBatchEnabled = c.vault.legacySettleBatchEnabled

theorem MirrorVault.call_setting {caller : Address} {op : VaultCall}
    (setting : op.isSetting = true) (h : MirrorVault.call D env caller c op = .ok c') :
    c.SettingOnly op c' := by
  cases op with
  | setInstructionSender sender =>
    simp only [MirrorVault.call, setInstructionSender, bind_ok, pure_ok] at h
    obtain ⟨_, -, rfl⟩ := h
    exact ⟨rfl, rfl, fun other => absurd rfl (other sender), fun _ => rfl⟩
  | setLegacySettleBatchEnabled enabled =>
    simp only [MirrorVault.call, setLegacySettleBatchEnabled, bind_ok, pure_ok] at h
    obtain ⟨_, -, rfl⟩ := h
    exact ⟨rfl, rfl, fun _ => rfl, fun other => absurd rfl (other enabled)⟩
  | setFsaOnboarder onboarder =>
    simp only [MirrorVault.call, setFsaOnboarder, bind_ok, pure_ok] at h
    obtain ⟨_, -, rfl⟩ := h
    exact ⟨rfl, rfl, fun _ => rfl, fun _ => rfl⟩
  | transferOwnership newOwner =>
    simp only [MirrorVault.call, bind_ok, pure_ok] at h
    obtain ⟨_, -, rfl⟩ := h
    exact ⟨rfl, rfl, fun _ => rfl, fun _ => rfl⟩
  | renounceOwnership =>
    simp only [MirrorVault.call, bind_ok, pure_ok] at h
    obtain ⟨_, -, rfl⟩ := h
    exact ⟨rfl, rfl, fun _ => rfl, fun _ => rfl⟩
  | deposit | depositFor | requestWithdrawal | transferForExecution | settleFromProof
  | receiveExecutionProceeds | settleBatch | finalizeWithdrawal =>
    -- these move money or locks
    cases setting

/-! ### Calls of the instruction sender -/

/-- The entry points behind `onlyInstructionSender`. -/
def VaultCall.isGuarded : VaultCall → Bool
  | .transferForExecution _ _ _ | .settleFromProof _ _ _ | .receiveExecutionProceeds _
  | .settleBatch _ | .finalizeWithdrawal _ _ => true
  | _ => false

theorem MirrorVault.call_guarded {op : VaultCall} (guarded : op.isGuarded = true)
    (h : MirrorVault.call D env caller c op = .ok c') : caller = c.vault.instructionSender := by
  cases op with
  | transferForExecution follower lead amount =>
    simp only [MirrorVault.call, transferForExecution, onlyInstructionSender, bind_ok,
      revertIf_ok, not_not] at h
    obtain ⟨_, trusted, -⟩ := h
    exact trusted
  | settleFromProof follower lead delta => exact (settleFromProof_ok.mp h).1
  | receiveExecutionProceeds amount =>
    simp only [MirrorVault.call, receiveExecutionProceeds, onlyInstructionSender, bind_ok,
      revertIf_ok, not_not] at h
    obtain ⟨_, trusted, -⟩ := h
    exact trusted
  | settleBatch settlements =>
    simp only [MirrorVault.call, settleBatch, onlyInstructionSender, bind_ok, revertIf_ok,
      not_not] at h
    obtain ⟨_, trusted, -⟩ := h
    exact trusted
  | finalizeWithdrawal follower lead =>
    simp only [MirrorVault.call, finalizeWithdrawal, onlyInstructionSender, bind_ok, revertIf_ok,
      not_not] at h
    obtain ⟨_, trusted, -⟩ := h
    exact trusted
  | deposit | depositFor | requestWithdrawal | setInstructionSender | setFsaOnboarder
  | setLegacySettleBatchEnabled | transferOwnership | renounceOwnership =>
    -- these are open to others
    cases guarded

/-! ### Tokens that a vault call moves -/

/-- The calls that the vault makes to FXRP: it collects for itself, pays its caller, or pays an
account it owes. -/
inductive Custody.Pays (D : Deployment) (caller : Address) (c : Custody) : TokenCall Address → Prop
  | collects (src : Address) (n : ℕ) : Pays D caller c (.transferFrom src D.vault n)
  | lends (n : ℕ) : Pays D caller c (.transfer caller n)
  | repays (f l : Address) (n : ℕ)
      (owed : (c.vault.subAccounts f l).pendingWithdrawal ≠ 0) : Pays D caller c (.transfer f n)

/-- A vault call leaves all tokens alone or makes one such call. -/
theorem MirrorVault.call_ledger {caller : Address} (op : VaultCall)
    (h : MirrorVault.call D env caller c op = .ok c') :
    c'.ledger = c.ledger ∨ ∃ tc, Custody.Pays D caller c tc ∧
      c.ledger.call env D.fxrpToken D.vault tc = .ok c'.ledger := by
  cases op with
  | deposit lead amount =>
    simp only [MirrorVault.call, deposit, credit, bind_ok, pure_ok] at h
    obtain ⟨_, -, ledger, pulled, _, -, rfl⟩ := h
    exact .inr ⟨_, .collects _ _, pulled⟩
  | depositFor follower lead amount =>
    simp only [MirrorVault.call, depositFor, credit, bind_ok, pure_ok] at h
    obtain ⟨_, -, _, -, _, -, ledger, pulled, _, -, rfl⟩ := h
    exact .inr ⟨_, .collects _ _, pulled⟩
  | transferForExecution follower lead amount =>
    simp only [MirrorVault.call, transferForExecution, bind_ok, pure_ok] at h
    obtain ⟨_, -, _, -, _, -, _, -, _, -, ledger, sent, rfl⟩ := h
    exact .inr ⟨_, .lends _, sent⟩
  | receiveExecutionProceeds amount =>
    simp only [MirrorVault.call, receiveExecutionProceeds, bind_ok, pure_ok] at h
    obtain ⟨_, -, _, -, ledger, pulled, rfl⟩ := h
    exact .inr ⟨_, .collects _ _, pulled⟩
  | finalizeWithdrawal follower lead =>
    simp only [MirrorVault.call, finalizeWithdrawal, bind_ok, revertIf_ok, pure_ok,
      exists_const] at h
    obtain ⟨_, -, owed, ledger, sent, rfl⟩ := h
    exact .inr ⟨_, .repays follower lead _ owed, sent⟩
  | requestWithdrawal lead amount =>
    simp only [MirrorVault.call, requestWithdrawal, bind_ok, pure_ok] at h
    obtain ⟨_, -, _, -, _, -, _, -, _, -, rfl⟩ := h
    exact .inl rfl
  | settleFromProof follower lead delta =>
    obtain ⟨-, -, -, cases⟩ := settleFromProof_ok.mp h
    rcases cases with ⟨-, _, _, -, -, -, rfl⟩ | ⟨-, _, -, rfl⟩ | ⟨-, rfl⟩ <;> exact .inl rfl
  | settleBatch settlements =>
    simp only [MirrorVault.call, settleBatch, bind_ok, pure_ok] at h
    obtain ⟨_, -, _, -, _, -, rfl⟩ := h
    exact .inl rfl
  | setInstructionSender | setFsaOnboarder | setLegacySettleBatchEnabled | transferOwnership
  | renounceOwnership => exact .inl (MirrorVault.call_setting rfl h).ledger

/-- Tokens other than FXRP do not notice the vault. -/
theorem MirrorVault.call_elsewhere {caller t : Address} (op : VaultCall) (other : t ≠ D.fxrpToken)
    (h : MirrorVault.call D env caller c op = .ok c') : c'.ledger t = c.ledger t := by
  cases MirrorVault.call_ledger op h with
  | inl same => rw [same]
  | inr called =>
    obtain ⟨tc, -, called⟩ := called
    exact Ledger.call_other called other

end Mirror
