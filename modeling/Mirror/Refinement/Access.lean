import Mirror.Refinement.Custody

/-!
Who can do what to the vault, in any state of it. Strangers only add to it, followers only move
their own money towards a withdrawal, and what leaves goes where the books say.
-/
namespace Mirror

open Evm MirrorVault

variable {D : Deployment} {env : External} {caller : Address} {c c' : Custody}

namespace Custody

/-- FXRP in the vault. -/
def till (D : Deployment) (c : Custody) : ℕ := (c.ledger D.fxrpToken).balanceOf D.vault

/-- No FXRP has left the vault, no lock has changed and no account has lost anything. -/
structure Kept (D : Deployment) (c c' : Custody) : Prop where
  till : c.till D ≤ c'.till D
  locked : ∀ f l,
    (c'.vault.subAccounts f l).pendingLocked = (c.vault.subAccounts f l).pendingLocked
  holdings : ∀ f l, (c.vault.subAccounts f l).balance.val +
      (c.vault.subAccounts f l).pendingWithdrawal.val ≤
    (c'.vault.subAccounts f l).balance.val + (c'.vault.subAccounts f l).pendingWithdrawal.val

/-- The accounts of `f` have lost no balance, and `f` asks for the withdrawals as before. -/
def Spares (f : Address) (c c' : Custody) : Prop :=
  ∀ l, (c.vault.subAccounts f l).balance ≤ (c'.vault.subAccounts f l).balance ∧
    (c'.vault.subAccounts f l).pendingWithdrawal = (c.vault.subAccounts f l).pendingWithdrawal

/-- How FXRP leaves the vault: it is lent to the instruction sender out of what one account has
unlocked, or paid to the follower who asked to withdraw it. -/
inductive PaysOut (D : Deployment) (caller : Address) (c c' : Custody) : VaultCall → Prop
  | lent (follower lead : Address) (amount : Uint256)
      (trusted : caller = c.vault.instructionSender)
      (unlocked : (c.vault.subAccounts follower lead).pendingLocked.val + amount.val ≤
        (c.vault.subAccounts follower lead).balance.val)
      (left : c.till D = c'.till D + amount.val)
      (arrived : (c'.ledger D.fxrpToken).balanceOf c.vault.instructionSender =
        (c.ledger D.fxrpToken).balanceOf c.vault.instructionSender + amount.val) :
      PaysOut D caller c c' (.transferForExecution follower lead amount)
  | repaid (follower lead : Address)
      (trusted : caller = c.vault.instructionSender)
      (left : c.till D = c'.till D + (c.vault.subAccounts follower lead).pendingWithdrawal.val)
      (arrived : (c'.ledger D.fxrpToken).balanceOf follower =
        (c.ledger D.fxrpToken).balanceOf follower +
          (c.vault.subAccounts follower lead).pendingWithdrawal.val)
      (cleared : (c'.vault.subAccounts follower lead).pendingWithdrawal = 0) :
      PaysOut D caller c c' (.finalizeWithdrawal follower lead)

/-- One account written, none of it lost. -/
theorem Kept.write {ledger : Ledger} {f l : Address} {a : SubAccount}
    (till : c.till D ≤ (ledger D.fxrpToken).balanceOf D.vault)
    (locked : a.pendingLocked = (c.vault.subAccounts f l).pendingLocked)
    (holdings : (c.vault.subAccounts f l).balance.val +
        (c.vault.subAccounts f l).pendingWithdrawal.val ≤
      a.balance.val + a.pendingWithdrawal.val) :
    c.Kept D ⟨ledger, c.vault.setAccount f l a⟩ where
  till := till
  locked f' l' := by
    by_cases own : f' = f ∧ l' = l
    · obtain ⟨rfl, rfl⟩ := own
      simpa using locked
    · simp only [setAccount_other c.vault a own]
  holdings f' l' := by
    by_cases own : f' = f ∧ l' = l
    · obtain ⟨rfl, rfl⟩ := own
      simpa using holdings
    · simp only [setAccount_other c.vault a own, le_refl]

/-- An account written for `f` or to its advantage. -/
theorem Spares.write {ledger : Ledger} {f l x : Address} {a : SubAccount}
    (better : x = f → (c.vault.subAccounts f l).balance ≤ a.balance ∧
      a.pendingWithdrawal = (c.vault.subAccounts f l).pendingWithdrawal) :
    c.Spares x ⟨ledger, c.vault.setAccount f l a⟩ := by
  intro l'
  by_cases own : x = f ∧ l' = l
  · obtain ⟨rfl, rfl⟩ := own
    simpa using better rfl
  · simp only [setAccount_other c.vault a own, le_refl, and_self]

end Custody

/-! ### The calls one by one -/

/-- Collecting never takes from the collector. -/
theorem Ledger.collect_le {token who src dst : Address} {n : ℕ} {L L' : Ledger}
    (h : L.call env token who (.transferFrom src dst n) = .ok L') :
    (L token).balanceOf dst ≤ (L' token).balanceOf dst := by
  obtain ⟨_, -, enough, moved, -⟩ := Token.transferFrom_some _ _ _ _ _ _ (Ledger.call_same h)
  rw [moved]
  by_cases self : src = dst
  · subst self
    rw [shift_self _ _ _ enough]
  · rw [shift_dst _ _ self]
    exact Nat.le_add_right _ _

/-- A payment that costs the payer something arrives in full. -/
theorem Ledger.pay_arrives {token who dst : Address} {n : ℕ} {L L' : Ledger}
    (h : L.call env token who (.transfer dst n) = .ok L')
    (less : (L' token).balanceOf who < (L token).balanceOf who) :
    (L token).balanceOf who = (L' token).balanceOf who + n ∧
      (L' token).balanceOf dst = (L token).balanceOf dst + n := by
  obtain ⟨enough, moved, -⟩ := Token.move_some _ _ _ _ _ (Ledger.call_same h)
  by_cases self : who = dst
  · subst self
    rw [moved, shift_self _ _ _ enough] at less
    exact absurd less (lt_irrefl _)
  · rw [moved, shift_src _ _ self, shift_dst _ _ self]
    exact ⟨by omega, rfl⟩

theorem credit_kept {src follower lead : Address} {amount : Uint256}
    (h : credit D env src follower lead amount c = .ok c') :
    c.Kept D c' ∧ ∀ x, c.Spares x c' := by
  simp only [credit, bind_ok, orRevert_ok, checkedAdd_some, pure_ok] at h
  obtain ⟨ledger, pulled, balance, added, rfl⟩ := h
  refine ⟨.write (Ledger.collect_le pulled) rfl (by simp only; omega), fun x => .write fun _ => ?_⟩
  exact ⟨by simp only [Fin.le_def]; omega, rfl⟩

theorem requestWithdrawal_kept {lead : Address} {amount : Uint256}
    (h : requestWithdrawal caller lead amount c = .ok c') :
    c.Kept D c' ∧ ∀ x, x ≠ caller → c.Spares x c' := by
  simp only [requestWithdrawal, bind_ok, orRevert_ok, checkedSub_some, checkedAdd_some, pure_ok]
    at h
  obtain ⟨_, -, _, -, _, -, balance, hb, pending, hp, rfl⟩ := h
  exact ⟨.write (le_refl _) rfl (by simp only; omega),
    fun x other => .write fun own => absurd own other⟩

/-- A setting leaves tokens and accounts alone. -/
theorem Custody.SettingOnly.kept {op : VaultCall} (h : c.SettingOnly op c') :
    c.Kept D c' ∧ ∀ x, c.Spares x c' := by
  obtain ⟨ledger, accounts, -, -⟩ := h
  refine ⟨⟨?_, fun f l => by rw [accounts], fun f l => by rw [accounts]⟩, fun x l => ?_⟩
  · rw [Custody.till, Custody.till, ledger]
  · rw [accounts]
    exact ⟨le_refl _, rfl⟩

/-- Whoever is not the instruction sender takes nothing, and touches only its own accounts. -/
theorem MirrorVault.call_stranger (op : VaultCall) (stranger : caller ≠ c.vault.instructionSender)
    (h : MirrorVault.call D env caller c op = .ok c') :
    c.Kept D c' ∧ ∀ x, x ≠ caller → c.Spares x c' := by
  cases op with
  | deposit lead amount =>
    simp only [MirrorVault.call, deposit, bind_ok] at h
    obtain ⟨_, -, credited⟩ := h
    obtain ⟨kept, spares⟩ := credit_kept credited
    exact ⟨kept, fun x _ => spares x⟩
  | depositFor follower lead amount =>
    simp only [MirrorVault.call, depositFor, bind_ok] at h
    obtain ⟨_, -, _, -, _, -, credited⟩ := h
    obtain ⟨kept, spares⟩ := credit_kept credited
    exact ⟨kept, fun x _ => spares x⟩
  | requestWithdrawal lead amount => exact requestWithdrawal_kept h
  | setInstructionSender | setFsaOnboarder | setLegacySettleBatchEnabled | transferOwnership
  | renounceOwnership =>
    obtain ⟨kept, spares⟩ := (MirrorVault.call_setting rfl h).kept
    exact ⟨kept, fun x _ => spares x⟩
  | transferForExecution | settleFromProof | receiveExecutionProceeds | settleBatch
  | finalizeWithdrawal => exact absurd (MirrorVault.call_guarded rfl h) stranger

/-- FXRP leaves the vault in no other way than these two. -/
theorem MirrorVault.call_paysOut (op : VaultCall)
    (h : MirrorVault.call D env caller c op = .ok c') (less : c'.till D < c.till D) :
    c.PaysOut D caller c' op := by
  -- a call by anybody but the instruction sender takes nothing
  have trusted : caller = c.vault.instructionSender := by
    by_contra stranger
    exact absurd (MirrorVault.call_stranger op stranger h).1.till (not_le.mpr less)
  have untouched (same : c'.ledger = c.ledger) : False := by
    simp only [Custody.till, same, lt_irrefl] at less
  cases op with
  | transferForExecution follower lead amount =>
    simp only [MirrorVault.call, transferForExecution, bind_ok, revertIf_ok, orRevert_ok,
      checkedSub_some, pure_ok, Fin.lt_def, not_lt] at h
    obtain ⟨_, -, _, -, available, ha, _, enough, locked, -, ledger, sent, rfl⟩ := h
    obtain ⟨left, arrived⟩ := Ledger.pay_arrives sent less
    exact .lent follower lead amount trusted (by omega) left (trusted ▸ arrived)
  | finalizeWithdrawal follower lead =>
    simp only [MirrorVault.call, finalizeWithdrawal, bind_ok, pure_ok] at h
    obtain ⟨_, -, _, -, ledger, sent, rfl⟩ := h
    obtain ⟨left, arrived⟩ := Ledger.pay_arrives sent less
    exact .repaid follower lead trusted left arrived (by simp)
  | receiveExecutionProceeds amount =>
    simp only [MirrorVault.call, receiveExecutionProceeds, bind_ok, pure_ok] at h
    obtain ⟨_, -, _, -, ledger, pulled, rfl⟩ := h
    exact absurd (Ledger.collect_le pulled) (not_le.mpr less)
  | deposit lead amount =>
    simp only [MirrorVault.call, deposit, bind_ok] at h
    obtain ⟨_, -, credited⟩ := h
    exact absurd (credit_kept credited).1.till (not_le.mpr less)
  | depositFor follower lead amount =>
    simp only [MirrorVault.call, depositFor, bind_ok] at h
    obtain ⟨_, -, _, -, _, -, credited⟩ := h
    exact absurd (credit_kept credited).1.till (not_le.mpr less)
  | requestWithdrawal lead amount =>
    exact absurd (requestWithdrawal_kept (D := D) h).1.till (not_le.mpr less)
  | settleFromProof follower lead delta =>
    obtain ⟨-, -, -, cases⟩ := settleFromProof_ok.mp h
    rcases cases with ⟨-, _, _, -, -, -, rfl⟩ | ⟨-, _, -, rfl⟩ | ⟨-, rfl⟩ <;>
      exact (untouched rfl).elim
  | settleBatch settlements =>
    simp only [MirrorVault.call, settleBatch, bind_ok, pure_ok] at h
    obtain ⟨_, -, _, -, _, -, rfl⟩ := h
    exact (untouched rfl).elim
  | setInstructionSender | setFsaOnboarder | setLegacySettleBatchEnabled | transferOwnership
  | renounceOwnership => exact (untouched (MirrorVault.call_setting rfl h).ledger).elim

/-- A loan to the instruction sender does leave the vault. -/
theorem lends_less {follower lead : Address} {amount : Uint256}
    (h : transferForExecution D env D.sender follower lead amount c = .ok c') :
    c'.till D < c.till D := by
  simp only [transferForExecution, bind_ok, revertIf_ok, pure_ok, exists_const] at h
  obtain ⟨_, -, positive, _, -, _, _, -, ledger, sent, rfl⟩ := h
  obtain ⟨cash, -⟩ := Token.transfer_spends D.sender_ne_vault.symm (Ledger.call_same sent)
  have : amount.val ≠ 0 := fun zero => positive (Fin.ext zero)
  simp only [Custody.till]
  omega

/-- The follower of a withdrawal is an outsider, so it leaves the vault too. -/
theorem Custody.Guarded.repays_less {follower lead : Address} (guarded : c.Guarded D)
    (h : finalizeWithdrawal D env D.sender follower lead c = .ok c') :
    c'.till D < c.till D := by
  simp only [finalizeWithdrawal, bind_ok, revertIf_ok, pure_ok, exists_const] at h
  obtain ⟨_, -, owed, ledger, sent, rfl⟩ := h
  have outside := guarded.payees follower lead owed
  obtain ⟨cash, -⟩ := Token.transfer_spends (D.ne_vault outside).symm (Ledger.call_same sent)
  have : (c.vault.subAccounts follower lead).pendingWithdrawal.val ≠ 0 :=
    fun zero => owed (Fin.ext zero)
  simp only [Custody.till]
  omega

end Mirror
