import Mirror.Properties.BatchNonces
import Mirror.Properties.Solvency

/-! What is asked for is paid: every withdrawal that an account can ask for can be carried out, once
and in full. -/
namespace Mirror

open Evm Escrow MirrorVault InstructionSender

variable {D : Deployment} {env : External} {caller : Address} {s s' : System}

/-! ### What is asked for and what is paid -/

/-- FXRP that the account waits for. -/
def MirrorVault.owed (v : MirrorVault) (f l : Address) : ℕ :=
  (v.subAccounts f l).pendingWithdrawal.val

def VaultCall.request (l : Address) : VaultCall → ℕ
  | .requestWithdrawal lead amount => if lead = l then amount.val else 0
  | _ => 0

/-- What an action asks for the account. -/
def Action.request (f l : Address) (a : Action D) : ℕ :=
  match a.entry with
  | .vault op => if a.who.addr = f then op.request l else 0
  | _ => 0

/-- What a withdrawal pays out for the account. -/
def Call.payout (f l : Address) (owed : ℕ) : Call → ℕ
  | .finalizeWithdrawal follower lead _ => if follower = f ∧ lead = l then owed else 0
  | _ => 0

namespace Chain

/-- What a transaction asks for the account. -/
def requested (f l : Address) (c : Chain D) (tx : Tx D) : ℤ :=
  (((tx.actions c.sys).map fun a => a.request f l).sum : ℕ)

/-- What a transaction pays to the account. -/
def paid (f l : Address) (c : Chain D) (tx : Tx D) : ℤ :=
  match tx.perform c.sys with
  | .ok _ => tx.call.payout f l (c.sys.vault.owed f l)
  | .error _ => 0

end Chain

/-! ### Calls to the vault -/

theorem MirrorVault.owed_setAccount {v : MirrorVault} {f l f' l' : Address} {a : SubAccount} :
    (v.setAccount f l a).owed f' l' =
      if f' = f ∧ l' = l then a.pendingWithdrawal.val else v.owed f' l' := by
  unfold owed
  split
  next own =>
    obtain ⟨rfl, rfl⟩ := own
    rw [setAccount_same]
  next other => rw [setAccount_other v a other]

theorem MirrorVault.owed_kept {v : MirrorVault} {f l f' l' : Address} {a : SubAccount}
    (same : a.pendingWithdrawal = (v.subAccounts f l).pendingWithdrawal) :
    (v.setAccount f l a).owed f' l' = v.owed f' l' := by
  rw [owed_setAccount]
  split
  next own =>
    obtain ⟨rfl, rfl⟩ := own
    rw [same, owed]
  next => rfl

/-- Apart from payments only the follower's own request changes what it waits for. -/
theorem MirrorVault.call_owed {c c' : Custody} {op : VaultCall} (f l : Address)
    (unpaid : ∀ follower lead, op ≠ .finalizeWithdrawal follower lead)
    (h : MirrorVault.call D env caller c op = .ok c') :
    c'.vault.owed f l = c.vault.owed f l + if caller = f then op.request l else 0 := by
  have nothing : op.request l = 0 → c'.vault.owed f l = c.vault.owed f l →
      c'.vault.owed f l = c.vault.owed f l + if caller = f then op.request l else 0 := by
    intro none same
    rw [none, ite_self, same, Nat.add_zero]
  cases op with
  | requestWithdrawal lead amount =>
    simp only [MirrorVault.call, requestWithdrawal, bind_ok, orRevert_ok, checkedAdd_some,
      pure_ok] at h
    obtain ⟨_, -, _, -, _, -, balance, -, pending, added, rfl⟩ := h
    rw [owed_setAccount]
    simp only [VaultCall.request]
    by_cases own : f = caller ∧ l = lead
    · obtain ⟨rfl, rfl⟩ := own
      simp [added, owed]
    · rw [if_neg own]
      split_ifs with asker account
      · exact absurd ⟨asker.symm, account.symm⟩ own
      · rfl
      · rfl
  | deposit lead amount =>
    simp only [MirrorVault.call, deposit, credit, bind_ok, pure_ok] at h
    obtain ⟨_, -, ledger, -, balance, -, rfl⟩ := h
    exact nothing rfl (owed_kept rfl)
  | depositFor follower lead amount =>
    simp only [MirrorVault.call, depositFor, credit, bind_ok, pure_ok] at h
    obtain ⟨_, -, _, -, _, -, ledger, -, balance, -, rfl⟩ := h
    exact nothing rfl (owed_kept rfl)
  | transferForExecution follower lead amount =>
    simp only [MirrorVault.call, transferForExecution, bind_ok, pure_ok] at h
    obtain ⟨_, -, _, -, _, -, _, -, locked, -, ledger, -, rfl⟩ := h
    exact nothing rfl (owed_kept rfl)
  | settleFromProof follower lead delta =>
    obtain ⟨-, -, -, cases⟩ := settleFromProof_ok.mp h
    rcases cases with ⟨-, _, _, -, -, -, rfl⟩ | ⟨-, _, -, rfl⟩ | ⟨-, rfl⟩
    · exact nothing rfl (owed_kept rfl)
    · exact nothing rfl (owed_kept rfl)
    · exact nothing rfl rfl
  | receiveExecutionProceeds amount =>
    simp only [MirrorVault.call, receiveExecutionProceeds, bind_ok, pure_ok] at h
    obtain ⟨_, -, _, -, ledger, -, rfl⟩ := h
    exact nothing rfl rfl
  | settleBatch settlements =>
    simp only [MirrorVault.call, settleBatch, bind_ok, pure_ok] at h
    obtain ⟨_, -, _, -, v, settled, rfl⟩ := h
    refine nothing rfl ?_
    rw [owed, ((settleEach_writes settled).2 f l).2.2, owed]
  | finalizeWithdrawal follower lead => exact absurd rfl (unpaid follower lead)
  | setInstructionSender | setFsaOnboarder | setLegacySettleBatchEnabled | transferOwnership
  | renounceOwnership =>
    refine nothing rfl ?_
    rw [owed, (MirrorVault.call_setting rfl h).accounts, owed]

/-- Apart from payments the calls of the instruction sender leave alone what is waited for. -/
theorem System.onVault_owed (op : VaultCall) (f l : Address) (guarded : op.isGuarded = true)
    (unpaid : ∀ follower lead, op ≠ .finalizeWithdrawal follower lead)
    (h : s.onVault (fun c => MirrorVault.call D env caller c op) = .ok s') :
    s'.vault.owed f l = s.vault.owed f l := by
  obtain ⟨c, called, rfl⟩ := System.onVault_ok h
  have moved := MirrorVault.call_owed f l unpaid called
  have unasked : op.request l = 0 := by
    cases op with
    | requestWithdrawal lead amount => cases guarded
    | _ => rfl
  rw [unasked, ite_self, Nat.add_zero] at moved
  exact moved

/-! ### Outsiders and routers -/

theorem Action.perform_owed {a : Action D} (guarded : s.Guarded D) (f l : Address)
    (h : a.perform env s = .ok s') : s'.vault.owed f l = s.vault.owed f l + a.request f l := by
  cases performed h with
  | vault who op c called =>
    -- only the instruction sender pays, and it is no outsider
    have unpaid : ∀ follower lead, op ≠ .finalizeWithdrawal follower lead := by
      rintro follower lead rfl
      exact who.ne_sender ((MirrorVault.call_guarded rfl called).trans guarded.custody.wired)
    exact MirrorVault.call_owed f l unpaid called
  | token | fee | registry | sender => exact (Nat.add_zero _).symm

theorem Action.performAll_owed {actions : List (Action D)} (guarded : s.Guarded D)
    (keeps : ∀ a ∈ actions, a.entry.rewiresVault = false) (f l : Address)
    (h : performAll env actions s = .ok s') :
    s'.vault.owed f l = s.vault.owed f l + (actions.map fun a => a.request f l).sum := by
  induction actions generalizing s with
  | nil =>
    rw [performAll, pure_ok] at h
    rw [← h, List.map_nil, List.sum_nil, Nat.add_zero]
  | cons a rest ih =>
    simp only [performAll, bind_ok] at h
    obtain ⟨mid, first, tail⟩ := h
    have kept := (perform_explains guarded (keeps a List.mem_cons_self) first (fun _ => 0) []).1
    rw [ih kept (fun b member => keeps b (List.mem_cons_of_mem _ member)) tail,
      perform_owed guarded f l first, List.map_cons, List.sum_cons, Nat.add_assoc]

/-- What is asked for during a match its router has asked for. -/
theorem MatchTrace.owed {routers : Routers D} {exec : MatchExecution}
    (t : MatchTrace D env caller routers exec s) (guarded : s.Guarded D)
    (keeps : ∀ a ∈ t.reply.actions, a.entry.rewiresVault = false) (f l : Address) :
    t.final.vault.owed f l =
      s.vault.owed f l + (t.reply.actions.map fun a => a.request f l).sum := by
  have locked : t.locked.vault.owed f l = s.vault.owed f l := by
    rcases lockLeg_ok.mp t.lock with ⟨-, lent⟩ | ⟨-, same⟩
    · exact System.onVault_owed (.transferForExecution exec.follower exec.lead
        exec.swap.amountIn) f l rfl (fun _ _ => nofun) lent
    · rw [same]
  obtain ⟨guarded', -⟩ := lockLeg_explains guarded t.lock []
  obtain ⟨ready, -⟩ := approve_explains guarded' t.approve (fun _ => 0) []
  have swapped := Action.performAll_owed ready keeps f l t.acted
  rw [Chain.onToken_vault t.approve, locked] at swapped
  rw [← swapped]
  rcases proceedsLeg_ok.mp t.proceeds with ⟨-, mid, approval, received⟩ | ⟨-, same⟩
  · have receives := System.onVault_owed (.receiveExecutionProceeds t.reply.amountOut) f l rfl
      (fun _ _ => nofun) received
    rw [Chain.onToken_vault approval] at receives
    exact receives
  · rw [MatchTrace.final, same]

theorem applyFdcSettlement_owed {fillId : Uint256} {proof : Proof} {fees : List FeeAccrued}
    (f l : Address) (h : applyFdcSettlement D env caller fillId proof s = .ok (s', fees)) :
    s'.vault.owed f l = s.vault.owed f l := by
  obtain ⟨-, mid, vaultWrites, feeWrites⟩ := applyFdcSettlement_ok.mp h
  rw [(feeLeg_frame feeWrites).2]
  rcases vaultLeg_ok.mp vaultWrites with ⟨delta, -, ⟨-, written⟩ | ⟨-, rfl⟩⟩
  · have settled : System.onVault (fun c => MirrorVault.call D env D.sender c (.settleFromProof
        (s.sender.pendingFills fillId).follower (s.sender.pendingFills fillId).lead delta)) _ =
          .ok mid := written
    have same := System.onVault_owed (.settleFromProof _ _ delta) f l rfl (fun _ _ => nofun) settled
    exact same
  · rfl

/-! ### Transactions -/

namespace Chain

/-- Each transaction raises what an account waits for by what is asked for it, and lowers it by what
is paid to it. -/
theorem step_owed (c : Chain D) (tx : Tx D) (guarded : c.sys.Guarded D) (keeps : c.KeepsVault tx)
    (f l : Address) :
    ((c.step tx).sys.vault.owed f l : ℤ) =
      c.sys.vault.owed f l + (c.requested f l tx - c.paid f l tx) := by
  unfold KeepsVault at keeps
  rcases c.step_cases tx with ⟨e, reverted, stepped⟩ | ⟨s, o, performed, stepped⟩
  · rw [stepped]
    simp [requested, paid, Tx.actions_reverted reverted, reverted]
  · rw [stepped]
    have paying : c.paid f l tx = tx.call.payout f l (c.sys.vault.owed f l) := by
      rw [paid, performed]
    rw [requested, paying]
    cases Tx.perform_trace performed with
    | entry e s' call acts acted =>
      rw [acts, call]
      simp [Call.payout, Action.perform_owed guarded f l acted]
    | matched exec call t acts =>
      rw [acts] at keeps ⊢
      rw [call]
      simp [Call.payout, t.owed guarded keeps f l]
    | settled fillId proof fees s' call acts applied =>
      rw [acts, call]
      simp [Call.payout, applyFdcSettlement_owed f l applied]
    | batch settlements nonce s' call acts applied =>
      obtain ⟨i, -, written⟩ := InstructionSender.settleBatch_ok applied
      have settled : System.onVault (fun c => MirrorVault.call D tx.env D.sender c
          (.settleBatch settlements)) _ = .ok s := written
      have same := System.onVault_owed (.settleBatch settlements) f l rfl (fun _ _ => nofun) settled
      rw [acts, call]
      simp [Call.payout, same]
    | accrued accruals nonce fees s' call acts applied =>
      obtain ⟨i, -, written⟩ := InstructionSender.accrueFees_ok applied
      have passed := guarded.withSender i
      rw [acts, call, (accrueEach_explains passed written).2.2]
      simp [Call.payout]
    | withdrawn follower lead nonce s' call acts applied =>
      obtain ⟨i, -, written⟩ := InstructionSender.finalizeWithdrawal_ok applied
      obtain ⟨custody, paid, rfl⟩ := System.onVault_ok written
      simp only [MirrorVault.finalizeWithdrawal, bind_ok, pure_ok] at paid
      obtain ⟨-, -, -, -, ledger, -, rfl⟩ := paid
      rw [acts, call]
      simp only [Call.payout, MirrorVault.owed_setAccount, List.map_nil, List.sum_nil,
        eq_comm (a := f), eq_comm (a := l)]
      split_ifs <;> simp

/-! ### What can be asked for and what can be paid -/

/-- An account can ask for what it has and has not lent. -/
theorem Solvent.askable {c : Chain D} (solvent : c.Solvent) (f : Outsider D) (l : Address)
    (amount : Uint256) :
    (∃ s, Action.perform env ⟨f, .vault (.requestWithdrawal l amount)⟩ c.sys = .ok s) ↔
      amount ≠ 0 ∧ (c.sys.vault.subAccounts f.addr l).pendingLocked.val + amount.val ≤
        (c.sys.vault.subAccounts f.addr l).balance.val := by
  -- what is waited for stays below the supply, so it does not overflow
  have claim : (c.sys.vault.subAccounts f.addr l).balance.val +
      (c.sys.vault.subAccounts f.addr l).pendingWithdrawal.val ≤
        c.cash + (c.sys.vault.subAccounts f.addr l).pendingLocked.val :=
    Book.claim_le_cash c.book solvent.covered solvent.surplus (f.addr, l)
  have supply : c.cash < 2 ^ 255 :=
    lt_of_le_of_lt (Token.balance_le_supply _ _) solvent.guarded.supply
  simp only [Action.perform, System.onVault, MirrorVault.call, requestWithdrawal, bind_ok,
    revertIf_ok, orRevert_ok, checkedSub_some, checkedAdd_some, pure_ok, exists_const, Fin.lt_def,
    not_lt]
  constructor
  · rintro ⟨-, -, ⟨positive, available, unlocked, enough, -⟩, -⟩
    exact ⟨positive, by omega⟩
  · rintro ⟨positive, enough⟩
    refine ⟨_, _, ⟨positive,
      ⟨(c.sys.vault.subAccounts f.addr l).balance.val -
        (c.sys.vault.subAccounts f.addr l).pendingLocked.val, by omega⟩, ?_, ?_,
      ⟨(c.sys.vault.subAccounts f.addr l).balance.val - amount.val, by omega⟩, ?_,
      ⟨(c.sys.vault.subAccounts f.addr l).pendingWithdrawal.val + amount.val, by omega⟩, rfl, rfl⟩,
      rfl⟩
    · simp only
      omega
    · simp only
      omega
    · simp only
      omega

/-- What an account waits for can be paid as soon as the next nonce is used for it. -/
theorem Solvent.payable {c : Chain D} (solvent : c.Solvent) (ordered : c.InOrder) {tx : Tx D}
    {f l : Address} (call : tx.call = .finalizeWithdrawal f l c.sys.sender.batchNonce)
    (authorized : tx.caller.addr = c.sys.sender.authorizedExecutor ∨
      tx.caller.addr = c.sys.sender.owner)
    (waiting : c.sys.vault.owed f l ≠ 0) (apart : D.vault ≠ f)
    (taken : tx.env.refuses D.fxrpToken D.vault (.transfer f (c.sys.vault.owed f l)) = false) :
    (c.step tx).sys.vault.owed f l = 0 ∧
      (c.step tx).cash + c.sys.vault.owed f l = c.cash ∧
      ((c.step tx).sys.ledger D.fxrpToken).balanceOf f =
        (c.sys.ledger D.fxrpToken).balanceOf f + c.sys.vault.owed f l := by
  have affords : c.sys.vault.owed f l ≤ c.cash := (solvent.affords f l).1
  obtain ⟨t, moved⟩ := (Token.move_isSome (c.sys.ledger D.fxrpToken) D.vault f _).mpr affords
  have transferred := (Ledger.call_ok _ _ _ _ _ _).mpr ⟨taken, t, moved, rfl⟩
  have fresh : c.sys.sender.usedBatchNonces c.sys.sender.batchNonce = false :=
    Bool.eq_false_iff.mpr fun used => lt_irrefl _ ((ordered.used _).mp used)
  have consumed := validateAndConsumeNonce_ok.mpr ⟨rfl, fresh, rfl⟩
  have asked : (c.sys.vault.subAccounts f l).pendingWithdrawal ≠ 0 := fun zero =>
    waiting (congrArg Fin.val zero)
  have paid : MirrorVault.finalizeWithdrawal D tx.env D.sender f l ⟨c.sys.ledger, c.sys.vault⟩ =
      .ok ⟨Function.update c.sys.ledger D.fxrpToken t, c.sys.vault.setAccount f l
        { c.sys.vault.subAccounts f l with pendingWithdrawal := 0 }⟩ := by
    simp only [MirrorVault.finalizeWithdrawal, MirrorVault.onlyInstructionSender, bind_ok,
      revertIf_ok, pure_ok, exists_const]
    exact ⟨not_not.mpr solvent.guarded.system.custody.wired.symm, asked, _, transferred, rfl⟩
  obtain ⟨s, performed, ledger, vault⟩ : ∃ s, tx.perform c.sys = .ok (s, .done) ∧
      s.ledger = Function.update c.sys.ledger D.fxrpToken t ∧
      s.vault = c.sys.vault.setAccount f l
        { c.sys.vault.subAccounts f l with pendingWithdrawal := 0 } := by
    simp only [Tx.perform, call, InstructionSender.finalizeWithdrawal, System.onVault, bind_ok,
      pure_ok, Prod.mk.injEq, and_true]
    exact ⟨_, ⟨_, ⟨(), onlyAuthorizedExecutor_ok.mpr authorized, _, consumed, _, paid, rfl⟩, rfl⟩,
      rfl, rfl⟩
  have stepped : c.step tx = ⟨s, ⟨tx, .done⟩ :: c.history⟩ := by rw [step, performed]
  obtain ⟨-, balances, -⟩ := Token.move_some _ _ _ _ _ moved
  rw [stepped, cash, vault, ledger]
  refine ⟨?_, ?_, ?_⟩
  · rw [MirrorVault.owed_setAccount, if_pos ⟨rfl, rfl⟩]
    rfl
  · rw [Function.update_self, balances, shift_src _ _ apart]
    exact Nat.sub_add_cancel affords
  · rw [Function.update_self, balances, shift_dst _ _ apart]

end Chain

/-- After every run an account waits for exactly what it asked for and was not paid. It can ask for
any part of its balance that is not lent, and once it has asked the executor can always pay: the
next nonce is free and the vault has the tokens, so the whole amount arrives unless the token
refuses. -/
theorem withdrawals_honoured (c : Chain D) (txs : List (Tx D)) (deployed : c.Deployed)
    (supply : c.fxrpSupply < 2 ^ 255) (proper : Admissible Chain.step Chain.Proper c txs)
    (few : txs.length < 2 ^ 256) (f : Outsider D) (l : Address) :
    ((run Chain.step c txs).sys.vault.owed f.addr l : ℤ) =
        accumulate Chain.step (Chain.requested f.addr l) c txs -
          accumulate Chain.step (Chain.paid f.addr l) c txs ∧
      (∀ (env : External) (amount : Uint256),
        (∃ s, Action.perform env ⟨f, .vault (.requestWithdrawal l amount)⟩
            (run Chain.step c txs).sys = .ok s) ↔
          amount ≠ 0 ∧
            ((run Chain.step c txs).sys.vault.subAccounts f.addr l).pendingLocked.val +
                amount.val ≤
              ((run Chain.step c txs).sys.vault.subAccounts f.addr l).balance.val) ∧
      ∀ tx : Tx D,
        tx.call = .finalizeWithdrawal f.addr l (run Chain.step c txs).sys.sender.batchNonce →
        (tx.caller.addr = (run Chain.step c txs).sys.sender.authorizedExecutor ∨
          tx.caller.addr = (run Chain.step c txs).sys.sender.owner) →
        (run Chain.step c txs).sys.vault.owed f.addr l ≠ 0 →
        tx.env.refuses D.fxrpToken D.vault
          (.transfer f.addr ((run Chain.step c txs).sys.vault.owed f.addr l)) = false →
        ((run Chain.step c txs).step tx).sys.vault.owed f.addr l = 0 ∧
          ((run Chain.step c txs).step tx).cash +
              (run Chain.step c txs).sys.vault.owed f.addr l = (run Chain.step c txs).cash ∧
          (((run Chain.step c txs).step tx).sys.ledger D.fxrpToken).balanceOf f.addr =
            ((run Chain.step c txs).sys.ledger D.fxrpToken).balanceOf f.addr +
              (run Chain.step c txs).sys.vault.owed f.addr l := by
  obtain ⟨start, -⟩ := deployed.solvent supply
  have kept := fun (c : Chain D) (tx : Tx D) (inv : c.Solvent) (ok : c.Proper tx) =>
    (c.solvent_step tx inv ok).1
  have solvent : (run Chain.step c txs).Solvent := run_invariant kept c start txs proper
  have ordered : (run Chain.step c txs).InOrder := by
    obtain ⟨executor, owner, sender⟩ := deployed.sender
    have fresh : c = ⟨c.sys, []⟩ := by rw [← deployed.history]
    rw [fresh]
    exact (Chain.run_inOrder c.sys executor owner sender txs few).1
  refine ⟨?_, fun env amount => solvent.askable f l amount,
    fun tx call authorized waiting taken =>
      solvent.payable ordered call authorized waiting f.ne_vault.symm taken⟩
  -- every step moves the amount by what is asked less what is paid, and it starts at nothing
  have moves := run_accumulates (g := fun c : Chain D => (c.sys.vault.owed f.addr l : ℤ)) kept
    (fun c tx inv ok => c.step_owed tx inv.guarded.system ok.wired.keeps f.addr l)
    c start txs proper
  have initial : c.sys.vault.owed f.addr l = 0 := by
    obtain ⟨owner, vault⟩ := deployed.vault
    rw [vault]
    rfl
  rw [moves, initial, accumulate_sub]
  simp

/-- The last step of the trade: alice has asked for 30 and gets them. -/
theorem withdrawals_honoured_trade :
    (((run Chain.step Sample.chain Sample.trade.dropLast).step
        (Sample.tx 9 Sample.executor (.finalizeWithdrawal Sample.alice Sample.lead 0))).sys.ledger
          Sample.deployment.fxrpToken).balanceOf (Sample.outsider Sample.alice).addr =
      ((run Chain.step Sample.chain Sample.trade.dropLast).sys.ledger
          Sample.deployment.fxrpToken).balanceOf (Sample.outsider Sample.alice).addr + 30 := by
  obtain ⟨-, -, pays⟩ := withdrawals_honoured Sample.chain Sample.trade.dropLast
    Sample.chain_deployed (by decide +kernel) (by decide +kernel) (by decide)
    (Sample.outsider Sample.alice) Sample.lead
  have owed : (run Chain.step Sample.chain Sample.trade.dropLast).sys.vault.owed
      (Sample.outsider Sample.alice).addr Sample.lead = 30 := by decide +kernel
  have next : (run Chain.step Sample.chain Sample.trade.dropLast).sys.sender.batchNonce = 0 := by
    decide +kernel
  have executor : (run Chain.step Sample.chain
      Sample.trade.dropLast).sys.sender.authorizedExecutor = Sample.executor := by decide +kernel
  rw [owed, next, executor] at pays
  obtain ⟨-, -, arrived⟩ := pays
    (Sample.tx 9 Sample.executor (.finalizeWithdrawal Sample.alice Sample.lead 0)) rfl (.inl rfl)
    (by decide) rfl
  exact arrived

end Mirror
