import Mathlib.Data.List.Perm.Basic
import Mirror.Refinement.Custody

/-!
Legacy batches. Entries of a batch see what the earlier ones wrote, and whether a batch goes through
depends on their order; what it leaves does not.
-/
namespace Mirror

open Evm MirrorVault

variable {xs ys : List Settlement} {v v' v'' : MirrorVault} {caller : Address}

/-- Nonces are spent per follower, whoever the lead is. -/
def Settlement.ticket (s : Settlement) : Address × Uint256 := (s.follower, s.nonce)

/-- What a batch must be to go through. -/
structure MirrorVault.Accepts (v : MirrorVault) (xs : List Settlement) : Prop where
  named : ∀ s ∈ xs, s.follower ≠ 0 ∧ s.lead ≠ 0
  distinct : (xs.map Settlement.ticket).Nodup
  unused : ∀ s ∈ xs, v.usedNonces s.follower s.nonce = false

/-- What a batch that goes through leaves. -/
structure MirrorVault.SettledTo (xs : List Settlement) (v v' : MirrorVault) : Prop where
  settings : v' = { v with
    subAccounts := v'.subAccounts
    usedNonces := v'.usedNonces }
  balance : ∀ f l, ((v'.subAccounts f l).balance.val : ℤ) =
    (v.subAccounts f l).balance.val + netDelta xs f l
  locked : ∀ f l, (v'.subAccounts f l).pendingLocked = (v.subAccounts f l).pendingLocked
  withdrawal : ∀ f l,
    (v'.subAccounts f l).pendingWithdrawal = (v.subAccounts f l).pendingWithdrawal
  nonces : ∀ f n, v'.usedNonces f n = true ↔
    v.usedNonces f n = true ∨ (f, n) ∈ xs.map Settlement.ticket

theorem settled_nonces {s : Settlement} {balance : Uint256} (f : Address) (n : Uint256) :
    (settled s balance v).usedNonces f n = true ↔ (f, n) = s.ticket ∨ v.usedNonces f n = true := by
  simp only [settled, Settlement.ticket, Prod.mk.injEq]
  split
  next listed => simp [listed]
  next other => simp [other]

/-- The entries after the first are accepted by what the first leaves. -/
theorem settleEach_settles (h : settleEach xs v = .ok v') : v.Accepts xs ∧ SettledTo xs v v' := by
  have accounts := (settleEach_writes h).2
  induction xs generalizing v with
  | nil =>
    rw [settleEach, pure_ok] at h
    subst h
    refine ⟨⟨by simp, by simp, by simp⟩, rfl, fun f l => (accounts f l).1,
      fun f l => (accounts f l).2.1, fun f l => (accounts f l).2.2, by simp⟩
  | cons s rest ih =>
    have whole := accounts
    simp only [settleEach, bind_ok] at h
    obtain ⟨mid, first, tail⟩ := h
    obtain ⟨named, unused, balance, -, rfl⟩ := settleOne_ok first
    obtain ⟨accepts, settledTo⟩ := ih tail (settleEach_writes tail).2
    -- what is unused after the first entry is not its nonce, and was unused before
    have later : ∀ x ∈ rest, x.ticket ≠ s.ticket ∧ v.usedNonces x.follower x.nonce = false := by
      intro x member
      have free := accepts.unused x member
      rw [← Bool.not_eq_true, settled_nonces, not_or] at free
      exact ⟨free.1, (Bool.not_eq_true _).mp free.2⟩
    refine ⟨⟨?_, ?_, ?_⟩, ?_, fun f l => (whole f l).1, fun f l => (whole f l).2.1,
      fun f l => (whole f l).2.2, fun f n => ?_⟩
    · exact List.forall_mem_cons.mpr ⟨named, accepts.named⟩
    · rw [List.map_cons, List.nodup_cons]
      refine ⟨fun listed => ?_, accepts.distinct⟩
      obtain ⟨x, member, same⟩ := List.mem_map.mp listed
      exact (later x member).1 same
    · exact List.forall_mem_cons.mpr ⟨unused, fun x member => (later x member).2⟩
    · exact settledTo.settings
    · rw [settledTo.nonces, settled_nonces, List.map_cons, List.mem_cons]
      tauto

theorem netDelta_perm (same : xs.Perm ys) (f l : Address) : netDelta xs f l = netDelta ys f l :=
  (same.map _).sum_eq

/-- The list determines the result, and its order does not matter. -/
theorem MirrorVault.SettledTo.unique (h : SettledTo xs v v') (h' : SettledTo ys v v'')
    (same : xs.Perm ys) : v' = v'' := by
  have accounts : v'.subAccounts = v''.subAccounts := by
    funext f l
    have sum := h.balance f l
    rw [netDelta_perm same, ← h'.balance f l] at sum
    have balance : (v'.subAccounts f l).balance = (v''.subAccounts f l).balance :=
      Fin.ext (Int.ofNat.inj sum)
    exact SubAccount.mk.injEq .. |>.mpr ⟨balance,
      (h.withdrawal f l).trans (h'.withdrawal f l).symm, (h.locked f l).trans (h'.locked f l).symm⟩
  have nonces : v'.usedNonces = v''.usedNonces := by
    funext f n
    rw [Bool.eq_iff_iff, h.nonces, h'.nonces, (same.map Settlement.ticket).mem_iff]
  rw [h.settings, h'.settings, accounts, nonces]

theorem settleEach_append (xs ys : List Settlement) (v : MirrorVault) :
    settleEach (xs ++ ys) v = settleEach xs v >>= settleEach ys := by
  induction xs generalizing v with
  | nil => rfl
  | cons s rest ih =>
    simp only [List.cons_append, settleEach, ih, bind_assoc]

/-- The state after a call to `settleBatch`, whether it goes through or reverts. -/
def Custody.afterBatch (caller : Address) (xs : List Settlement) (c : Custody) : Custody :=
  match settleBatch caller xs c with
  | .ok c' => c'
  | .error _ => c

/-- Who may settle batches, while that is enabled. -/
structure MirrorVault.OpenTo (caller : Address) (v : MirrorVault) : Prop where
  sender : caller = v.instructionSender
  legacy : v.legacySettleBatchEnabled = true

/-- A batch changes no setting, so the next one meets the same checks. -/
theorem MirrorVault.OpenTo.after (h : v.OpenTo caller) (batch : SettledTo xs v v') :
    v'.OpenTo caller := by
  rw [batch.settings]
  exact ⟨h.sender, h.legacy⟩

theorem settleBatch_ok {c c' : Custody} :
    settleBatch caller xs c = .ok c' ↔
      c.vault.OpenTo caller ∧ ∃ v, settleEach xs c.vault = .ok v ∧ c' = { c with vault := v } := by
  simp only [settleBatch, onlyInstructionSender, bind_ok, revertIf_ok, pure_ok, exists_const,
    ne_eq, not_not, Bool.not_eq_false, eq_comm (a := c')]
  constructor
  · rintro ⟨sender, legacy, loop⟩
    exact ⟨⟨sender, legacy⟩, loop⟩
  · rintro ⟨⟨sender, legacy⟩, loop⟩
    exact ⟨sender, legacy, loop⟩

/-- The checks do not look at the list. -/
theorem settleBatch_shut {c : Custody} (closed : ¬c.vault.OpenTo caller) :
    ∃ e, ∀ xs, settleBatch caller xs c = .error e := by
  by_cases sender : caller = c.vault.instructionSender
  · have disabled : c.vault.legacySettleBatchEnabled = false :=
      (Bool.not_eq_true _).mp fun legacy => closed ⟨sender, legacy⟩
    refine ⟨.proofRequiredUseSettleFromProof, fun xs => ?_⟩
    simp [settleBatch, onlyInstructionSender, revertIf, sender, disabled, bind, Except.bind]
  · refine ⟨.onlyInstructionSender, fun xs => ?_⟩
    simp [settleBatch, onlyInstructionSender, revertIf, sender, bind, Except.bind]

/-- Behind the checks a call is the loop alone. -/
theorem settleBatch_open {c : Custody} (h : c.vault.OpenTo caller) (xs : List Settlement) :
    settleBatch caller xs c = (fun v => { c with vault := v }) <$> settleEach xs c.vault := by
  simp [settleBatch, onlyInstructionSender, revertIf, ← h.sender, h.legacy, bind, Except.bind,
    Functor.map, Except.map, pure, Except.pure]

theorem settleBatch_append (xs ys : List Settlement) (c : Custody) :
    settleBatch caller (xs ++ ys) c = settleBatch caller xs c >>= settleBatch caller ys := by
  by_cases h : c.vault.OpenTo caller
  · rw [settleBatch_open h, settleBatch_open h, settleEach_append]
    cases first : settleEach xs c.vault with
    | error e => rfl
    | ok v =>
      have again : Custody.vault ⟨c.ledger, v⟩ |>.OpenTo caller :=
        h.after (settleEach_settles first).2
      exact (settleBatch_open again ys).symm
  · obtain ⟨e, shut⟩ := settleBatch_shut h
    rw [shut, shut]
    rfl

/-- What a batch needs and what it leaves: an accepted list with every nonce spent once and every
balance moved by the list's own sum, or nothing at all. Neither the order of the entries nor a cut
of the list into two batches shows in the result. -/
theorem batch_settles_exactly (caller : Address) (c : Custody) :
    (∀ xs c', settleBatch caller xs c = .ok c' →
        c.vault.Accepts xs ∧ SettledTo xs c.vault c'.vault ∧ c'.ledger = c.ledger) ∧
      (∀ xs e, settleBatch caller xs c = .error e → c.afterBatch caller xs = c) ∧
      (∀ xs ys c' c'', xs.Perm ys → settleBatch caller xs c = .ok c' →
        settleBatch caller ys c = .ok c'' → c' = c'') ∧
      ∀ xs ys, settleBatch caller (xs ++ ys) c =
        settleBatch caller xs c >>= settleBatch caller ys := by
  refine ⟨fun xs c' h => ?_, fun xs e h => ?_, fun xs ys c' c'' same h h' => ?_,
    fun xs ys => settleBatch_append xs ys c⟩
  · obtain ⟨-, v, settled, rfl⟩ := settleBatch_ok.mp h
    obtain ⟨accepts, settledTo⟩ := settleEach_settles settled
    exact ⟨accepts, settledTo, rfl⟩
  · simp only [Custody.afterBatch, h]
  · obtain ⟨-, v, settled, rfl⟩ := settleBatch_ok.mp h
    obtain ⟨-, v', settled', rfl⟩ := settleBatch_ok.mp h'
    rw [(settleEach_settles settled).2.unique (settleEach_settles settled').2 same]

end Mirror
