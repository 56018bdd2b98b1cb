import Mirror.Refinement.Runs

/-!
What bounds a match. The registry plays no part in it: whether a follower follows the lead, and
with what allocation, is never asked. The follower's own unlocked balance is the only limit.
-/
namespace Mirror

open Evm Escrow InstructionSender

variable {D : Deployment} {env : External} {caller : Address} {s s' : System}

/-! ### The registry plays no part -/

/-- The same system with another registry. -/
def System.withRegistry (r : MirrorRegistry) (s : System) : System := { s with registry := r }

/-- Calls to the registry, or to the fee contract that reads it. -/
def Entry.consultsRegistry : Entry → Bool
  | .fee _ | .registry _ => true
  | _ => false

section Registry

variable (r : MirrorRegistry)

theorem System.onVault_withRegistry (f : Custody → Except Revert Custody) :
    (s.withRegistry r).onVault f = System.withRegistry r <$> s.onVault f := by
  simp only [System.onVault, System.withRegistry]
  cases f ⟨s.ledger, s.vault⟩ <;> rfl

theorem System.onToken_withRegistry (token who : Address) (c : TokenCall Address) :
    (s.withRegistry r).onToken env token who c =
      System.withRegistry r <$> s.onToken env token who c := by
  simp only [System.onToken, System.withRegistry]
  cases s.ledger.call env token who c <;> rfl

theorem Action.perform_withRegistry {a : Action D} (apart : a.entry.consultsRegistry = false) :
    a.perform env (s.withRegistry r) = System.withRegistry r <$> a.perform env s := by
  obtain ⟨who, entry⟩ := a
  cases entry with
  | token address c => exact System.onToken_withRegistry r address who.addr c
  | vault op =>
    exact System.onVault_withRegistry r fun custody => MirrorVault.call D env who.addr custody op
  | sender op =>
    simp only [perform, System.withRegistry]
    cases s.sender.call who.addr op <;> rfl
  | fee | registry => cases apart

theorem Action.performAll_withRegistry {actions : List (Action D)}
    (apart : ∀ a ∈ actions, a.entry.consultsRegistry = false) :
    performAll env actions (s.withRegistry r) =
      System.withRegistry r <$> performAll env actions s := by
  induction actions generalizing s with
  | nil => rfl
  | cons a rest ih =>
    simp only [performAll, perform_withRegistry r (apart a List.mem_cons_self)]
    cases a.perform env s with
    | error e => rfl
    | ok mid => exact ih fun b member => apart b (List.mem_cons_of_mem _ member)

theorem lockLeg_withRegistry (follower lead tokenIn : Address) (amountIn : Uint256) :
    lockLeg D env follower lead tokenIn amountIn (s.withRegistry r) =
      System.withRegistry r <$> lockLeg D env follower lead tokenIn amountIn s := by
  unfold lockLeg
  split
  · exact System.onVault_withRegistry r _
  · rfl

theorem proceedsLeg_withRegistry (tokenOut : Address) (amountOut : Uint256) :
    proceedsLeg D env tokenOut amountOut (s.withRegistry r) =
      System.withRegistry r <$> proceedsLeg D env tokenOut amountOut s := by
  unfold proceedsLeg
  split
  · rw [System.onToken_withRegistry]
    cases s.onToken env D.fxrpToken D.sender (.approve D.vault amountOut.val) with
    | error e => rfl
    | ok mid => exact System.onVault_withRegistry r _
  · rfl

/-- Under any registry a match does the same, unless its router asks the registry. -/
theorem executeMatch_withRegistry (routers : Routers D) (exec : MatchExecution)
    (apart : ∀ reply ∈ routers s.sender.swapRouter (swapParams D exec), ∀ a ∈ reply.actions,
      a.entry.consultsRegistry = false) :
    executeMatch D env caller routers exec (s.withRegistry r) =
      (fun (s', m) => (s'.withRegistry r, m)) <$> executeMatch D env caller routers exec s := by
  have same : (s.withRegistry r).sender = s.sender := rfl
  simp only [executeMatch, same]
  -- leg by leg: each fails in both systems or goes on in both
  cases s.sender.onlyAuthorizedExecutor caller with
  | error e => rfl
  | ok =>
  cases revertIf (s.sender.swapRouter = 0) Revert.routerNotSet with
  | error e => rfl
  | ok =>
  simp only [bind, Except.bind, lockLeg_withRegistry]
  cases lock : lockLeg D env exec.follower exec.lead (swapParams D exec).tokenIn
    (swapParams D exec).amountIn s with
  | error e => rfl
  | ok locked =>
  have after : locked.sender = s.sender := lockLeg_sender lock
  have after' : (locked.withRegistry r).sender = s.sender := after
  simp only [Functor.map, Except.map, after, after', System.onToken_withRegistry]
  cases approve : locked.onToken env (swapParams D exec).tokenIn D.sender
    (.approve s.sender.swapRouter (swapParams D exec).amountIn.val) with
  | error e => rfl
  | ok approved =>
  have before : approved.sender = s.sender :=
    (System.onToken_sender approve).trans after
  have before' : (approved.withRegistry r).sender = s.sender := before
  simp only [before, before']
  cases answered : routers s.sender.swapRouter (swapParams D exec) with
  | none => rfl
  | some reply =>
  simp only [orRevert, Action.performAll_withRegistry r (apart reply answered)]
  cases Action.performAll env reply.actions approved with
  | error e => rfl
  | ok swapped =>
  simp only [Functor.map, Except.map, proceedsLeg_withRegistry]
  cases proceedsLeg D env (swapParams D exec).tokenOut reply.amountOut swapped with
  | error e => rfl
  | ok booked => rfl

end Registry

/-! ### The balance is the limit -/

/-- A match that sells FXRP finds the amount unlocked, and ends with the lock covered. -/
theorem MatchTrace.within_balance {routers : Routers D} {exec : MatchExecution}
    (t : MatchTrace D env caller routers exec s) (guarded : s.Guarded D)
    (keeps : ∀ a ∈ t.reply.actions, a.entry.rewiresVault = false)
    (sells : exec.swap.tokenIn = D.fxrpToken) :
    exec.swap.amountIn ≠ 0 ∧
      (s.vault.subAccounts exec.follower exec.lead).pendingLocked.val + exec.swap.amountIn.val ≤
        (s.vault.subAccounts exec.follower exec.lead).balance.val ∧
      (t.final.vault.subAccounts exec.follower exec.lead).pendingLocked ≤
        (t.final.vault.subAccounts exec.follower exec.lead).balance := by
  have lock := ((lockLeg_ok.mp t.lock).resolve_right fun skipped => skipped.1 sells).2
  obtain ⟨c, called, lent⟩ := System.onVault_ok lock
  obtain ⟨positive, ⟨unlocked, -⟩, book, -⟩ :=
    transferForExecution_refines (fun _ => 0) [] guarded.custody called
  simp only [Custody.book, MirrorVault.entries] at unlocked
  -- the lock leaves the account covered, and everything after it is booked
  have covered : (t.locked.book D (fun _ => 0) []).locked (exec.follower, exec.lead) ≤
      (t.locked.book D (fun _ => 0) []).balance (exec.follower, exec.lead) := by
    have locks := congrFun (congrArg Book.locked book) (exec.follower, exec.lead)
    have balances := congrFun (congrArg Book.balance book) (exec.follower, exec.lead)
    simp only [Custody.book, Book.apply, Function.update_self,
      MirrorVault.entries] at locks balances
    simp only [lent, System.book, Custody.book, MirrorVault.entries]
    omega
  have locked := (lockLeg_explains guarded t.lock []).1
  obtain ⟨approved, approval⟩ := approve_explains locked t.approve (fun _ => 0) []
  obtain ⟨swapped, acted⟩ := Action.performAll_explains approved keeps t.acted (fun _ => 0) []
  obtain ⟨moves, reaches, booked, -⟩ := approval.trans acted
  have after := reaches.covered_at booked _ covered
  have same : t.final.vault.subAccounts = t.swapped.vault.subAccounts := by
    rw [MatchTrace.final]
    rcases proceedsLeg_ok.mp t.proceeds with ⟨-, mid, approved, received⟩ | ⟨-, same⟩
    · obtain ⟨c, pulled, booked⟩ := System.onVault_ok received
      simp only [MirrorVault.receiveExecutionProceeds, bind_ok, pure_ok] at pulled
      obtain ⟨_, -, _, -, ledger, -, rfl⟩ := pulled
      have still : mid.vault = t.swapped.vault := Chain.onToken_vault approved
      rw [booked]
      exact congrArg MirrorVault.subAccounts still
    · rw [same]
  refine ⟨positive, unlocked, ?_⟩
  rw [same, Fin.le_def]
  exact after

/-- A match neither needs nor reads the follower's consent. Under any registry it fails or
succeeds alike and leaves the same tokens, vault and fills, unless its router asks the registry.
What limits it is the sub-account: it sells FXRP only within the unlocked balance, and leaves no
more locked than the balance. -/
theorem matches_bounded_by_balance (c : Chain D) (txs : List (Tx D)) (tx : Tx D)
    (exec : MatchExecution) (deployed : c.Deployed)
    (keeps : Admissible Chain.step Chain.KeepsVault c (txs ++ [tx]))
    (call : tx.call = .executeMatch exec) :
    (∀ r : MirrorRegistry,
      (∀ reply ∈ tx.routers (run Chain.step c txs).sys.sender.swapRouter (swapParams D exec),
        ∀ a ∈ reply.actions, a.entry.consultsRegistry = false) →
      tx.perform ((run Chain.step c txs).sys.withRegistry r) =
        (fun (s, o) => (s.withRegistry r, o)) <$> tx.perform (run Chain.step c txs).sys) ∧
    ((tx.matched (run Chain.step c txs).sys).isSome → exec.swap.tokenIn = D.fxrpToken →
      exec.swap.amountIn ≠ 0 ∧
        ((run Chain.step c txs).sys.vault.subAccounts exec.follower exec.lead).pendingLocked.val +
            exec.swap.amountIn.val ≤
          ((run Chain.step c txs).sys.vault.subAccounts exec.follower exec.lead).balance.val ∧
        ((run Chain.step c (txs ++ [tx])).sys.vault.subAccounts exec.follower
            exec.lead).pendingLocked ≤
          ((run Chain.step c (txs ++ [tx])).sys.vault.subAccounts exec.follower
            exec.lead).balance) := by
  obtain ⟨before, last⟩ := (admissible_append _ _ _ _).mp keeps
  have guarded : (run Chain.step c txs).sys.Guarded D :=
    run_invariant Chain.guarded_step c deployed.system txs before
  rw [run_append]
  generalize run Chain.step c txs = c at guarded last
  refine ⟨fun r apart => ?_, fun matched sells => ?_⟩
  · simp only [Tx.perform, call]
    rw [executeMatch_withRegistry r tx.routers exec apart]
    have same : (c.sys.withRegistry r).sender = c.sys.sender := rfl
    rw [same]
    cases executeMatch D tx.env tx.caller.addr tx.routers exec c.sys <;> rfl
  · rw [run_cons, run_nil]
    rcases c.step_cases tx with ⟨e, reverted, -⟩ | ⟨s, o, performed, stepped⟩
    · simp [Tx.matched, reverted] at matched
    · rw [stepped]
      have allowed : ∀ a ∈ tx.actions c.sys, a.entry.rewiresVault = false := last.1
      cases Tx.perform_trace performed with
      | matched exec' call' t acts =>
        cases call.symm.trans call'
        rw [acts] at allowed
        exact t.within_balance guarded allowed sells
      | entry e s' call' | settled fillId proof fees s' call' | batch settlements nonce s' call'
      | accrued accruals nonce fees s' call' | withdrawn follower lead nonce s' call' =>
        cases call.symm.trans call'

namespace Sample

/-- Alice followed the lead with 50 FXRP and has left again; 100 FXRP are still in the vault. -/
def unfollowed : List (Tx deployment) :=
  configure ++ [
    tx 3 lead (.entry (.registry (.registerLead 0 2000 0 0))),
    tx 4 alice (.entry (.registry (.registerFollower 0))),
    tx 5 alice (.entry (.registry (.followLead lead 50))),
    tx 6 alice (.entry (.vault (.deposit lead 100))),
    tx 7 alice (.entry (.registry (.unfollowLead lead)))]

def afterwards : MatchExecution := ⟨alice, lead, swap deployment.fxrpToken usdt0 60, 0, 0⟩

end Sample

theorem matches_bounded_by_balance_afterwards :
    Sample.afterwards.swap.amountIn ≠ 0 ∧
      ((run Chain.step Sample.chain Sample.unfollowed).sys.vault.subAccounts Sample.alice
          Sample.lead).pendingLocked.val + Sample.afterwards.swap.amountIn.val ≤
        ((run Chain.step Sample.chain Sample.unfollowed).sys.vault.subAccounts Sample.alice
          Sample.lead).balance.val :=
  have bounded := (matches_bounded_by_balance Sample.chain Sample.unfollowed
    (Sample.tx 8 Sample.executor (.executeMatch Sample.afterwards)) Sample.afterwards
    Sample.chain_deployed (by decide +kernel) rfl).2 (by decide +kernel) rfl
  ⟨bounded.1, bounded.2.1⟩

/-- A match goes through for a follower who has left the lead. -/
theorem matches_without_consent :
    ¬∀ (D : Deployment) (c : Chain D) (txs : List (Tx D)) (tx : Tx D) (exec : MatchExecution),
      c.Deployed → tx.call = .executeMatch exec → exec.swap.tokenIn = D.fxrpToken →
      (tx.matched (run Chain.step c txs).sys).isSome →
      ((run Chain.step c txs).sys.registry.followAllocations exec.follower exec.lead).active =
          true ∧
        ((run Chain.step c (txs ++ [tx])).sys.vault.subAccounts exec.follower
            exec.lead).pendingLocked ≤
          ((run Chain.step c txs).sys.registry.followAllocations exec.follower
            exec.lead).allocation := by
  intro consented
  have active := consented Sample.deployment Sample.chain Sample.unfollowed
    (Sample.tx 8 Sample.executor (.executeMatch Sample.afterwards)) Sample.afterwards
    Sample.chain_deployed rfl rfl (by decide +kernel)
  exact absurd active.1 (by decide +kernel)

end Mirror
