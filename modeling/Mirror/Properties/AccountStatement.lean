import Mirror.Properties.ExactlyOnce
import Mirror.Properties.Withdrawals

/-! The statement of an account: what its follower paid in and took out, and what the proofs of its
fills made of it, add up to its balance. -/
namespace Mirror

open Evm Escrow MirrorVault InstructionSender

variable {D : Deployment} {env : External} {caller : Address} {s s' : System}

/-! ### What is paid in -/

/-- What a call of `who` pays into the account. -/
def VaultCall.credit (who f l : Address) : VaultCall → ℕ
  | .deposit lead amount => if who = f ∧ lead = l then amount.val else 0
  | .depositFor follower lead amount => if follower = f ∧ lead = l then amount.val else 0
  | _ => 0

/-- What an action pays into the account. -/
def Action.credit (f l : Address) (a : Action D) : ℕ :=
  match a.entry with
  | .vault op => op.credit a.who.addr f l
  | _ => 0

/-- What a batch without proof does to the account. -/
def Call.correction (f l : Address) : Call → ℤ
  | .settleBatch settlements _ => netDelta settlements f l
  | _ => 0

namespace Chain

/-- What a transaction pays into the account. -/
def deposited (f l : Address) (c : Chain D) (tx : Tx D) : ℤ :=
  (((tx.actions c.sys).map fun a => a.credit f l).sum : ℕ)

/-- What a transaction corrects by a batch without proof. -/
def corrected (f l : Address) (c : Chain D) (tx : Tx D) : ℤ :=
  match tx.perform c.sys with
  | .ok _ => tx.call.correction f l
  | .error _ => 0

end Chain

/-! ### Calls to the vault -/

/-- FXRP that the account can use, lent or not. -/
def MirrorVault.funds (v : MirrorVault) (f l : Address) : ℕ := (v.subAccounts f l).balance.val

theorem MirrorVault.funds_setAccount {v : MirrorVault} {f l f' l' : Address} {a : SubAccount} :
    (v.setAccount f l a).funds f' l' =
      if f' = f ∧ l' = l then a.balance.val else v.funds f' l' := by
  unfold funds
  split
  next own =>
    obtain ⟨rfl, rfl⟩ := own
    rw [setAccount_same]
  next other => rw [setAccount_other v a other]

theorem MirrorVault.funds_kept {v : MirrorVault} {f l f' l' : Address} {a : SubAccount}
    (same : a.balance = (v.subAccounts f l).balance) :
    (v.setAccount f l a).funds f' l' = v.funds f' l' := by
  rw [funds_setAccount]
  split
  next own =>
    obtain ⟨rfl, rfl⟩ := own
    rw [same, funds]
  next => rfl

/-- A credit goes to one account in full. -/
theorem MirrorVault.credit_funds {c c' : Custody} {src follower lead : Address} {amount : Uint256}
    (h : MirrorVault.credit D env src follower lead amount c = .ok c') (f l : Address) :
    c'.vault.funds f l =
      c.vault.funds f l + if follower = f ∧ lead = l then amount.val else 0 := by
  simp only [credit, bind_ok, orRevert_ok, checkedAdd_some, pure_ok] at h
  obtain ⟨ledger, -, balance, added, rfl⟩ := h
  rw [funds_setAccount]
  by_cases own : f = follower ∧ l = lead
  · obtain ⟨rfl, rfl⟩ := own
    simp [added, funds]
  · rw [if_neg own, if_neg fun other => own ⟨other.1.symm, other.2.symm⟩, Nat.add_zero]

/-- Settlements apart, only deposits for the account and its follower's own requests change what is
in it. -/
theorem MirrorVault.call_funds {c c' : Custody} {op : VaultCall} (f l : Address)
    (proofless : ∀ follower lead delta, op ≠ .settleFromProof follower lead delta)
    (unbatched : ∀ settlements, op ≠ .settleBatch settlements)
    (h : MirrorVault.call D env caller c op = .ok c') :
    c'.vault.funds f l + (if caller = f then op.request l else 0) =
      c.vault.funds f l + op.credit caller f l := by
  have nothing : op.request l = 0 → op.credit caller f l = 0 →
      c'.vault.funds f l = c.vault.funds f l →
      c'.vault.funds f l + (if caller = f then op.request l else 0) =
        c.vault.funds f l + op.credit caller f l := by
    intro unasked unpaid same
    rw [unasked, unpaid, ite_self, same]
  cases op with
  | deposit lead amount =>
    simp only [MirrorVault.call, deposit, bind_ok] at h
    obtain ⟨_, -, credited⟩ := h
    rw [credit_funds credited]
    simp only [VaultCall.request, VaultCall.credit, ite_self, Nat.add_zero]
  | depositFor follower lead amount =>
    simp only [MirrorVault.call, depositFor, bind_ok] at h
    obtain ⟨_, -, _, -, _, -, credited⟩ := h
    rw [credit_funds credited]
    simp only [VaultCall.request, VaultCall.credit, ite_self, Nat.add_zero]
  | requestWithdrawal lead amount =>
    simp only [MirrorVault.call, requestWithdrawal, bind_ok, orRevert_ok, checkedSub_some,
      pure_ok] at h
    obtain ⟨_, -, _, -, _, -, balance, taken, pending, -, rfl⟩ := h
    rw [funds_setAccount]
    simp only [VaultCall.request, VaultCall.credit]
    by_cases own : f = caller ∧ l = lead
    · obtain ⟨rfl, rfl⟩ := own
      simp [taken, funds]
    · rw [if_neg own]
      split_ifs with asker account
      · exact absurd ⟨asker.symm, account.symm⟩ own
      · rfl
      · rfl
  | transferForExecution follower lead amount =>
    simp only [MirrorVault.call, transferForExecution, bind_ok, pure_ok] at h
    obtain ⟨_, -, _, -, _, -, _, -, locked, -, ledger, -, rfl⟩ := h
    exact nothing rfl rfl (funds_kept rfl)
  | settleFromProof follower lead delta => exact absurd rfl (proofless follower lead delta)
  | receiveExecutionProceeds amount =>
    simp only [MirrorVault.call, receiveExecutionProceeds, bind_ok, pure_ok] at h
    obtain ⟨_, -, _, -, ledger, -, rfl⟩ := h
    exact nothing rfl rfl rfl
  | settleBatch settlements => exact absurd rfl (unbatched settlements)
  | finalizeWithdrawal follower lead =>
    simp only [MirrorVault.call, finalizeWithdrawal, bind_ok, pure_ok] at h
    obtain ⟨_, -, _, -, ledger, -, rfl⟩ := h
    exact nothing rfl rfl (funds_kept rfl)
  | setInstructionSender | setFsaOnboarder | setLegacySettleBatchEnabled | transferOwnership
  | renounceOwnership =>
    refine nothing rfl rfl ?_
    rw [funds, (MirrorVault.call_setting rfl h).accounts, funds]

/-- Settlements apart, the calls of the instruction sender leave every account what is in it. -/
theorem System.onVault_funds (op : VaultCall) (f l : Address) (guarded : op.isGuarded = true)
    (proofless : ∀ follower lead delta, op ≠ .settleFromProof follower lead delta)
    (unbatched : ∀ settlements, op ≠ .settleBatch settlements)
    (h : s.onVault (fun c => MirrorVault.call D env caller c op) = .ok s') :
    s'.vault.funds f l = s.vault.funds f l := by
  obtain ⟨c, called, rfl⟩ := System.onVault_ok h
  have moved := MirrorVault.call_funds f l proofless unbatched called
  cases op with
  | transferForExecution | receiveExecutionProceeds | finalizeWithdrawal =>
    simpa [VaultCall.request, VaultCall.credit] using moved
  | settleFromProof follower lead delta => exact absurd rfl (proofless follower lead delta)
  | settleBatch settlements => exact absurd rfl (unbatched settlements)
  | _ => cases guarded

/-! ### Outsiders and routers -/

theorem Action.perform_funds {a : Action D} (guarded : s.Guarded D) (f l : Address)
    (h : a.perform env s = .ok s') :
    s'.vault.funds f l + a.request f l = s.vault.funds f l + a.credit f l := by
  cases performed h with
  | vault who op c called =>
    -- only the instruction sender settles, and it is no outsider
    have outside (behind : op.isGuarded = true) : False :=
      who.ne_sender ((MirrorVault.call_guarded behind called).trans guarded.custody.wired)
    refine MirrorVault.call_funds f l ?_ ?_ called
    · rintro follower lead delta rfl
      exact outside rfl
    · rintro settlements rfl
      exact outside rfl
  | token | fee | registry | sender => rfl

theorem Action.performAll_funds {actions : List (Action D)} (guarded : s.Guarded D)
    (keeps : ∀ a ∈ actions, a.entry.rewiresVault = false) (f l : Address)
    (h : performAll env actions s = .ok s') :
    s'.vault.funds f l + (actions.map fun a => a.request f l).sum =
      s.vault.funds f l + (actions.map fun a => a.credit f l).sum := by
  induction actions generalizing s with
  | nil =>
    rw [performAll, pure_ok] at h
    rw [← h]
    rfl
  | cons a rest ih =>
    simp only [performAll, bind_ok] at h
    obtain ⟨mid, first, tail⟩ := h
    have kept := (perform_explains guarded (keeps a List.mem_cons_self) first (fun _ => 0) []).1
    have later := ih kept (fun b member => keeps b (List.mem_cons_of_mem _ member)) tail
    have now := perform_funds guarded f l first
    simp only [List.map_cons, List.sum_cons]
    omega

/-- What is paid in and asked for during a match its router has paid and asked for. -/
theorem MatchTrace.funds {routers : Routers D} {exec : MatchExecution}
    (t : MatchTrace D env caller routers exec s) (guarded : s.Guarded D)
    (keeps : ∀ a ∈ t.reply.actions, a.entry.rewiresVault = false) (f l : Address) :
    t.final.vault.funds f l + (t.reply.actions.map fun a => a.request f l).sum =
      s.vault.funds f l + (t.reply.actions.map fun a => a.credit f l).sum := by
  have locked : t.locked.vault.funds f l = s.vault.funds f l := by
    rcases lockLeg_ok.mp t.lock with ⟨-, lent⟩ | ⟨-, same⟩
    · exact System.onVault_funds (.transferForExecution exec.follower exec.lead
        exec.swap.amountIn) f l rfl (fun _ _ _ h => by cases h) (fun _ h => by cases h) lent
    · rw [same]
  obtain ⟨guarded', -⟩ := lockLeg_explains guarded t.lock []
  obtain ⟨ready, -⟩ := approve_explains guarded' t.approve (fun _ => 0) []
  have swapped := Action.performAll_funds ready keeps f l t.acted
  rw [Chain.onToken_vault t.approve, locked] at swapped
  rw [← swapped]
  rcases proceedsLeg_ok.mp t.proceeds with ⟨-, mid, approval, received⟩ | ⟨-, same⟩
  · have receives := System.onVault_funds (.receiveExecutionProceeds t.reply.amountOut) f l rfl
      (fun _ _ _ h => by cases h) (fun _ h => by cases h) received
    rw [Chain.onToken_vault approval] at receives
    exact congrArg (· + _) receives
  · rw [MatchTrace.final, same]

/-! ### Transactions -/

namespace Chain

/-- Each transaction raises what is in an account by what is paid in and by what settlements make
of it, and lowers it by what is asked for. -/
theorem step_funds (c : Chain D) (tx : Tx D) (once : c.Once) (keeps : c.KeepsVault tx)
    (f l : Address) :
    ((c.step tx).sys.vault.funds f l : ℤ) = c.sys.vault.funds f l +
      (c.deposited f l tx - c.requested f l tx + settlementChange f l c tx +
        c.corrected f l tx) := by
  have guarded := once.guarded.system
  unfold KeepsVault at keeps
  rcases c.step_cases tx with ⟨e, reverted, stepped⟩ | ⟨s, o, performed, stepped⟩
  · have still : settlementChange f l c tx = 0 := by
      unfold settlementChange
      rw [stepped]
      split
      · exact Int.sub_self _
      · rfl
    rw [still, stepped]
    simp [requested, deposited, corrected, Tx.actions_reverted reverted, reverted]
  · have correcting : c.corrected f l tx = tx.call.correction f l := by
      rw [corrected, performed]
    rw [requested, deposited, correcting]
    cases Tx.perform_trace performed with
    | entry e s' call acts acted =>
      have moved := Action.perform_funds guarded f l acted
      rw [acts, settlementChange, call, stepped]
      simp only [Call.correction, List.map_cons, List.map_nil, List.sum_cons, List.sum_nil]
      omega
    | matched exec call t acts =>
      rw [acts] at keeps ⊢
      have moved := t.funds guarded keeps f l
      rw [settlementChange, call, stepped]
      simp only [Call.correction]
      omega
    | settled fillId proof fees s' call acts applied =>
      rw [acts, settlementChange, call, stepped]
      simp [Call.correction, Chain.balance, MirrorVault.funds]
    | batch settlements nonce s' call acts applied =>
      obtain ⟨i, -, written⟩ := InstructionSender.settleBatch_ok applied
      obtain ⟨custody, settled, rfl⟩ := System.onVault_ok written
      simp only [MirrorVault.settleBatch, bind_ok, pure_ok] at settled
      obtain ⟨_, -, _, -, v, each, rfl⟩ := settled
      rw [acts, settlementChange, call, stepped]
      simp [Call.correction, MirrorVault.funds, ((settleEach_writes each).2 f l).1]
    | accrued accruals nonce fees s' call acts applied =>
      obtain ⟨i, -, written⟩ := InstructionSender.accrueFees_ok applied
      have passed := guarded.withSender i
      rw [acts, settlementChange, call, stepped, (accrueEach_explains passed written).2.2]
      simp [Call.correction]
    | withdrawn follower lead nonce s' call acts applied =>
      obtain ⟨i, -, written⟩ := InstructionSender.finalizeWithdrawal_ok applied
      have paid : System.onVault (fun c => MirrorVault.call D tx.env D.sender c
          (.finalizeWithdrawal follower lead)) _ = .ok s := written
      have same := System.onVault_funds (.finalizeWithdrawal follower lead) f l rfl
        (fun _ _ _ h => by cases h) (fun _ h => by cases h) paid
      rw [acts, settlementChange, call, stepped, same]
      simp [Call.correction]

end Chain

/-- After every run: the balance of an account is what was deposited for it, less what its follower
asked back, with the deltas of its settled fills and of the batches without proof. With what the
follower still waits for, it is what was deposited less what was paid out, with the same deltas. -/
theorem account_stated (c : Chain D) (txs : List (Tx D)) (deployed : c.Deployed)
    (supply : c.fxrpSupply < 2 ^ 255) (fixed : Admissible Chain.step Chain.Fixed c txs)
    (few : fillCount (run Chain.step c txs).history < 2 ^ 256) (f l : Address) :
    let v := (run Chain.step c txs).sys.vault
    let deltas := (∑ i, if ((run Chain.step c txs).sys.sender.pendingFills i).settled = true then
        ((run Chain.step c txs).sys.sender.pendingFills i).delta D f l else 0) +
      accumulate Chain.step (Chain.corrected f l) c txs
    let deposited := accumulate Chain.step (Chain.deposited f l) c txs
    (v.funds f l : ℤ) =
        deposited - accumulate Chain.step (Chain.requested f l) c txs + deltas ∧
      (v.funds f l : ℤ) + v.owed f l =
        deposited - accumulate Chain.step (Chain.paid f l) c txs + deltas := by
  intro v deltas deposited
  have allowed := (admissible_and _ _ _ _).mpr ⟨fixed, c.few_run txs few⟩
  have start := deployed.once supply
  have kept (c : Chain D) (tx : Tx D) (once : c.Once) (ok : c.Fixed tx ∧ c.Few tx) :=
    c.once_step tx once ok
  obtain ⟨owner, vault⟩ := deployed.vault
  have empty : c.sys.vault.funds f l = 0 ∧ c.sys.vault.owed f l = 0 := by
    rw [vault]
    exact ⟨rfl, rfl⟩
  have unsettled : c.settledDelta f l = 0 := by
    obtain ⟨_, _, sender⟩ := deployed.sender
    simp [Chain.settledDelta, sender, InstructionSender.deployed]
  have funds := run_accumulates (g := fun c : Chain D => (c.sys.vault.funds f l : ℤ)) kept
    (fun c tx once ok => c.step_funds tx once ok.1.wired.keeps f l) c start txs allowed
  have owed := run_accumulates (g := fun c : Chain D => (c.sys.vault.owed f l : ℤ)) kept
    (fun c tx once ok => c.step_owed tx once.guarded.system ok.1.wired.keeps f l) c start txs
    allowed
  have settled := run_accumulates (g := Chain.settledDelta f l) kept
    (fun c tx once _ => Chain.settledDelta_step f l c tx once) c start txs allowed
  rw [empty.1, accumulate_add, accumulate_add, accumulate_sub] at funds
  rw [empty.2, accumulate_sub] at owed
  rw [unsettled, Int.zero_add] at settled
  simp only [Chain.settledDelta] at settled
  simp only [v, deltas, deposited, settled]
  exact ⟨by omega, by omega⟩

/-- Alice has deposited 100 and got 30 back, and 10 are left: the fill that is settled sold 60. -/
theorem account_stated_trade :
    (∑ i, if ((run Chain.step Sample.chain Sample.trade).sys.sender.pendingFills i).settled = true
        then ((run Chain.step Sample.chain Sample.trade).sys.sender.pendingFills i).delta
          Sample.deployment Sample.alice Sample.lead else 0) +
      accumulate Chain.step (Chain.corrected Sample.alice Sample.lead) Sample.chain Sample.trade =
        -60 := by
  obtain ⟨stated, -⟩ := account_stated Sample.chain Sample.trade Sample.chain_deployed
    (by decide +kernel) (by decide +kernel) (by decide +kernel) Sample.alice Sample.lead
  have funds : (run Chain.step Sample.chain Sample.trade).sys.vault.funds Sample.alice
      Sample.lead = 10 := by decide +kernel
  have deposited : accumulate Chain.step (Chain.deposited Sample.alice Sample.lead) Sample.chain
      Sample.trade = 100 := by decide +kernel
  have requested : accumulate Chain.step (Chain.requested Sample.alice Sample.lead) Sample.chain
      Sample.trade = 30 := by decide +kernel
  rw [funds, deposited, requested] at stated
  omega

end Mirror
