import Mirror.Refinement.Fees

/-!
The tokens that swaps buy. They stay with the instruction sender in one pool, whoever's FXRP
bought them: a match spends from the pool and asks nobody's account.
-/
namespace Mirror

open Evm InstructionSender

variable {D : Deployment} {env : External} {caller t : Address} {s s' : System}

/-! ### What the instruction sender holds -/

/-- Tokens `t` held by the instruction sender. -/
def System.held (D : Deployment) (t : Address) (s : System) : ℕ := (s.ledger t).balanceOf D.sender

theorem held_onVault (env : External) {who : Address} (op : VaultCall) (other : t ≠ D.fxrpToken)
    (h : s.onVault (fun c => MirrorVault.call D env who c op) = .ok s') :
    s'.held D t = s.held D t := by
  obtain ⟨c, called, rfl⟩ := System.onVault_ok h
  simp only [System.held, MirrorVault.call_elsewhere op other called]

theorem held_approve {token spender : Address} {n : ℕ}
    (h : s.onToken env token D.sender (.approve spender n) = .ok s') :
    s'.held D t = s.held D t := by
  simp only [System.onToken, bind_ok, pure_ok] at h
  obtain ⟨L', called, rfl⟩ := h
  -- an approval changes allowances only
  by_cases same : t = token
  · subst same
    have approved := Ledger.call_same called
    simp only [Token.perform, Option.some.injEq] at approved
    simp only [System.held, ← approved]
    rfl
  · simp only [System.held, Ledger.call_other called same]

theorem held_releaseFee {proof : Proof} {lead : Address} {amount : Uint256} {treasury : Treasury}
    (other : t ≠ D.fxrpToken)
    (h : MirrorFee.releaseFee D env caller proof lead amount ⟨s.ledger, s.fee⟩ = .ok treasury) :
    treasury.ledger t = s.ledger t := by
  obtain ⟨-, -, -, -, -, -, -, _, ledger, -, paid, rfl⟩ := MirrorFee.releaseFee_ok.mp h
  exact Ledger.call_other paid other

theorem held_fee {op : FeeCall} {registry : MirrorRegistry} {treasury : Treasury}
    (other : t ≠ D.fxrpToken)
    (h : MirrorFee.call D env registry caller ⟨s.ledger, s.fee⟩ op = .ok treasury) :
    treasury.ledger t = s.ledger t := by
  cases op with
  | releaseFee proof lead amount => exact held_releaseFee other h
  | accrueFee lead follower profit epochId =>
    simp only [MirrorFee.call, bind_ok, pure_ok] at h
    obtain ⟨_, -, rfl⟩ := h
    rfl
  | claim lead => simp [MirrorFee.call] at h
  | setInstructionSender | setFdcVerifier | transferOwnership | renounceOwnership =>
    rw [(MirrorFee.call_setting rfl h).ledger]

/-- An outsider's call adds at most what it sends. -/
theorem Action.perform_held {a : Action D} (other : t ≠ D.fxrpToken)
    (h : a.perform env s = .ok s') : s'.held D t ≤ s.held D t + a.entry.inflow t D.sender := by
  cases performed h with
  | token who address c ledger called => exact Ledger.call_inflow called t D.sender
  | vault who op c called =>
    simp only [System.held, MirrorVault.call_elsewhere op other called]
    exact Nat.le_add_right _ _
  | fee who op treasury called =>
    simp only [System.held, held_fee other called]
    exact Nat.le_add_right _ _
  | registry | sender => exact Nat.le_add_right _ _

theorem held_settlement {fillId : Uint256} {proof : Proof} {fees : List FeeAccrued}
    (other : t ≠ D.fxrpToken)
    (h : applyFdcSettlement D env caller fillId proof s = .ok (s', fees)) :
    s'.held D t = s.held D t := by
  obtain ⟨-, mid, vaultWrites, feeWrites⟩ := applyFdcSettlement_ok.mp h
  -- the vault leg moves no token at all, and the fee leg only FXRP
  have before : mid.held D t = s.held D t := by
    simp only [System.held, (vaultLeg_fee vaultWrites).2.2]
  rw [← before]
  cases feeLeg_trace feeWrites with
  | idle | booked => rfl
  | paid accrual treasury accrued due released =>
    simp only [System.held]
    rw [held_releaseFee (s := { mid with fee := accrual.fee }) other released]

theorem held_accrueEach {accruals : List FeeAccrual} {fees : List FeeAccrued}
    (h : accrueEach D accruals s = .ok (s', fees)) : s'.held D t = s.held D t := by
  replace h := accrueEach_trace h
  induction h with
  | nil => rfl
  | cons accrued others ih => exact ih

/-! ### Matches -/

/-- Routers pull what they are told to and deliver what they return. -/
def Tx.Exact (tx : Tx D) : Prop :=
  ∀ r params reply, tx.routers r params = some reply →
    ∃ router : Outsider D, router.addr = r ∧ reply = exactReply router params reply.amountOut

theorem held_lockLeg {follower lead tokenIn : Address} {amountIn : Uint256}
    (other : t ≠ D.fxrpToken) (h : lockLeg D env follower lead tokenIn amountIn s = .ok s') :
    s'.held D t = s.held D t := by
  rcases lockLeg_ok.mp h with ⟨-, lent⟩ | ⟨-, rfl⟩
  · exact held_onVault env (.transferForExecution follower lead amountIn) other lent
  · rfl

theorem held_proceedsLeg {tokenOut : Address} {amountOut : Uint256} (other : t ≠ D.fxrpToken)
    (h : proceedsLeg D env tokenOut amountOut s = .ok s') : s'.held D t = s.held D t := by
  rcases proceedsLeg_ok.mp h with ⟨-, mid, approved, received⟩ | ⟨-, rfl⟩
  · exact (held_onVault env (.receiveExecutionProceeds amountOut) other received).trans
      (held_approve approved)
  · rfl

/-- What the router pulls was in the pool. -/
theorem held_pull {router : Outsider D} {token : Address} {n : ℕ}
    (h : Action.perform env ⟨router, .token token (.transferFrom D.sender router.addr n)⟩ s =
      .ok s') :
    s'.held D t + (if token = t then n else 0) = s.held D t ∧
      (token = t → n ≤ s.held D t) := by
  simp only [Action.perform, System.onToken, bind_ok, pure_ok] at h
  obtain ⟨L', called, rfl⟩ := h
  by_cases same : token = t
  · subst same
    obtain ⟨_, -, enough, moved, -⟩ :=
      Token.transferFrom_some _ _ _ _ _ _ (Ledger.call_same called)
    simp only [System.held, moved, shift_src _ _ router.ne_sender.symm, if_true]
    exact ⟨Nat.sub_add_cancel enough, fun _ => enough⟩
  · simp only [System.held, Ledger.call_other called (Ne.symm same), if_neg same]
    exact ⟨rfl, fun h => absurd h same⟩

/-- The fill spends what the pool holds, and only then are its proceeds added. -/
theorem MatchTrace.held {routers : Routers D} {exec : MatchExecution}
    (m : MatchTrace D env caller routers exec s) (other : t ≠ D.fxrpToken) {router : Outsider D}
    (exact : m.reply = exactReply router (swapParams D exec) m.reply.amountOut) :
    m.final.held D t + (if m.fill.tokenIn = t then m.fill.amountIn.val else 0) ≤
        s.held D t + (if m.fill.tokenOut = t then m.fill.amountOut.val else 0) ∧
      (m.fill.tokenIn = t → m.fill.amountIn.val ≤ s.held D t) := by
  -- the legs in FXRP do not touch `t`
  have before : m.approved.held D t = s.held D t :=
    (held_approve m.approve).trans (held_lockLeg other m.lock)
  have after : m.booked.held D t = m.swapped.held D t := held_proceedsLeg other m.proceeds
  have acted := m.acted
  rw [congrArg Reply.actions exact] at acted
  simp only [exactReply, Action.performAll, bind_ok, pure_ok] at acted
  obtain ⟨mid, pulled, last, delivered, rfl⟩ := acted
  obtain ⟨spent, enough⟩ := held_pull (t := t) pulled
  rw [before] at spent enough
  refine ⟨?_, enough⟩
  -- the router pulls `amountIn` and then delivers `amountOut`
  have taken : mid.held D t + (if m.fill.tokenIn = t then m.fill.amountIn.val else 0) =
      s.held D t := spent
  have gained : m.swapped.held D t ≤
      mid.held D t + (if m.fill.tokenOut = t then m.fill.amountOut.val else 0) := by
    have arrived := Action.perform_held other delivered
    rw [Entry.inflow, TokenCall.inflow] at arrived
    split at arrived
    next out =>
      have bought : m.fill.tokenOut = t := out
      have here : (swapParams D exec).recipient = D.sender := rfl
      rw [if_pos here] at arrived
      rw [if_pos bought]
      exact arrived
    next => exact arrived.trans (Nat.le_add_right _ _)
  have record : m.final.held D t = m.booked.held D t := rfl
  rw [record, after]
  omega

/-! ### Runs -/

/-- All executions of a history, settled or not, newest first. -/
def executions (history : List (Receipt D)) : List Execution :=
  history.filterMap fun r => r.outcome.execution

/-- The executions for one sub-account. -/
def fillsOf (follower lead : Address) (history : List (Receipt D)) : List Execution :=
  (executions history).filter fun e => e.fill.follower = follower ∧ e.fill.lead = lead

/-- Tokens `t` that the fills of these executions sell. -/
def sold (t : Address) (es : List Execution) : ℕ :=
  (es.map fun e => if e.fill.tokenIn = t then e.fill.amountIn.val else 0).sum

/-- Tokens `t` that the fills of these executions buy. -/
def bought (t : Address) (es : List Execution) : ℕ :=
  (es.map fun e => if e.fill.tokenOut = t then e.fill.amountOut.val else 0).sum

theorem executions_quiet {r : Receipt D} {rest : List (Receipt D)}
    (quiet : r.outcome.execution = none) : executions (r :: rest) = executions rest := by
  simp only [executions, List.filterMap_cons, quiet]

namespace Chain

/-- What is held of `t` and what was spent of it, less what was bought. -/
def pool (t : Address) (c : Chain D) : ℤ :=
  c.sys.held D t + sold t (executions c.history) - bought t (executions c.history)

/-- Tokens `t` sent to the instruction sender, the proceeds of swaps apart. -/
def topUp (t : Address) (c : Chain D) (tx : Tx D) : ℤ :=
  match (tx.outcome c.sys).execution with
  | some _ => 0
  | none => ((tx.actions c.sys).map fun a => (a.entry.inflow t D.sender : ℤ)).sum

theorem topUp_nonneg (c : Chain D) (tx : Tx D) : 0 ≤ c.topUp t tx := by
  unfold topUp
  split
  · exact le_rfl
  · refine List.sum_nonneg fun g member => ?_
    obtain ⟨a, -, rfl⟩ := List.mem_map.mp member
    exact Int.natCast_nonneg _

/-- A step that executes nothing moves the pool by what it moves the balance. -/
theorem pool_quiet {c : Chain D} {tx : Tx D} {s : System} {o : Outcome} {n : ℤ}
    (quiet : o.execution = none) (moved : (s.held D t : ℤ) ≤ c.sys.held D t + n) :
    pool t ⟨s, ⟨tx, o⟩ :: c.history⟩ ≤ c.pool t + n := by
  simp only [pool, executions_quiet (r := ⟨tx, o⟩) quiet]
  omega

theorem pool_step (other : t ≠ D.fxrpToken) (c : Chain D) (tx : Tx D) (exact : tx.Exact) :
    (c.step tx).pool t ≤ c.pool t + c.topUp t tx := by
  have sent := c.topUp_nonneg (t := t) tx
  rcases c.step_cases tx with ⟨e, -, stepped⟩ | ⟨s, o, performed, stepped⟩
  · rw [stepped]
    exact pool_quiet rfl (by omega)
  · have topped : c.topUp t tx = match o.execution with
      | some _ => 0
      | none => ((tx.actions c.sys).map fun a => (a.entry.inflow t D.sender : ℤ)).sum := by
      simp only [topUp, Tx.outcome, performed]
    rw [stepped]
    cases Tx.perform_trace performed with
    | entry e s' call acts acted =>
      have gained := Action.perform_held other acted
      simp only [Outcome.execution, acts, List.map_cons, List.map_nil, List.sum_cons,
        List.sum_nil, add_zero] at topped
      rw [topped]
      exact pool_quiet rfl (mod_cast gained)
    | matched exec call m acts =>
      -- the one step that spends: what it takes from the balance it adds to what is sold
      obtain ⟨router, -, exactly⟩ := exact _ _ _ m.answered
      obtain ⟨moved, -⟩ := m.held other exactly
      simp only [pool, sold, bought, executions, List.filterMap_cons, Outcome.execution,
        List.map_cons, List.sum_cons]
      omega
    | settled fillId proof fees s' call acts applied =>
      have kept := held_settlement other applied
      exact pool_quiet rfl (by omega)
    | batch settlements nonce s' call acts applied =>
      obtain ⟨i, -, written⟩ := InstructionSender.settleBatch_ok applied
      have kept : s.held D t = c.sys.held D t :=
        held_onVault (s := { c.sys with sender := i }) tx.env (.settleBatch settlements) other
          written
      exact pool_quiet rfl (by omega)
    | accrued accruals nonce fees s' call acts applied =>
      obtain ⟨i, -, written⟩ := InstructionSender.accrueFees_ok applied
      have kept : s.held D t = c.sys.held D t :=
        held_accrueEach (s := { c.sys with sender := i }) written
      exact pool_quiet rfl (by omega)
    | withdrawn follower lead nonce s' call acts applied =>
      obtain ⟨i, -, written⟩ := InstructionSender.finalizeWithdrawal_ok applied
      have kept : s.held D t = c.sys.held D t :=
        held_onVault (s := { c.sys with sender := i }) tx.env (.finalizeWithdrawal follower lead)
          other written
      exact pool_quiet rfl (by omega)

end Chain

/-- Swaps pool what they buy. A fill that sells `t` spends, together with all fills before it,
no more of `t` than those fills bought, whoever they were for, and was in the pool from the
start or sent to it. -/
theorem swaps_spend_pooled_proceeds (c : Chain D) (txs : List (Tx D)) (tx : Tx D) (e : Execution)
    (deployed : c.Deployed) (other : t ≠ D.fxrpToken)
    (exact : Admissible Chain.step (fun _ tx => tx.Exact) c (txs ++ [tx]))
    (executed : (tx.outcome (run Chain.step c txs).sys).execution = some e)
    (sells : e.fill.tokenIn = t) :
    (sold t (executions (run Chain.step c txs).history) : ℤ) + e.fill.amountIn.val ≤
      c.sys.held D t + accumulate Chain.step (Chain.topUp t) c txs +
        bought t (executions (run Chain.step c txs).history) := by
  obtain ⟨earlier, last, -⟩ := (admissible_append _ _ _ _).mp exact
  have pooled : (run Chain.step c txs).pool t ≤
      c.pool t + accumulate Chain.step (Chain.topUp t) c txs :=
    run_bounded (fun c tx => c.pool_step other tx) c txs earlier
  have start : c.pool t = c.sys.held D t := by
    simp [Chain.pool, sold, bought, executions, deployed.history]
  -- the router could pull what it did because the pool still held it
  obtain ⟨s', performed⟩ := executed_iff.mp executed
  have enough : e.fill.amountIn.val ≤ (run Chain.step c txs).sys.held D t := by
    cases Tx.perform_trace performed with
    | matched exec call m acts =>
      obtain ⟨router, -, exactly⟩ := last _ _ _ m.answered
      exact (m.held other exactly).2 sells
  rw [start, Chain.pool] at pooled
  omega

namespace Sample

theorem tx_exact {t : Tx deployment} (same : t.routers = routers) : t.Exact := by
  intro r params reply answered
  rw [same] at answered
  unfold routers at answered
  split at answered
  next supported =>
    rw [Option.some.injEq] at answered
    subst answered
    exact ⟨outsider router, supported.1.symm, rfl⟩
  next => cases answered

/-- Alice's FXRP buys another token. -/
def purchase : List (Tx deployment) :=
  configure ++ [
    tx 3 alice (.entry (.vault (.deposit lead 100))),
    tx 4 executor (.executeMatch ⟨alice, lead, swap deployment.fxrpToken usdt0 60, 0, 0⟩)]

theorem purchase_exact (last : Tx deployment) (same : last.routers = routers) :
    Admissible Chain.step (fun _ tx => tx.Exact) chain (purchase ++ [last]) :=
  ⟨tx_exact rfl, tx_exact rfl, tx_exact rfl, tx_exact rfl, tx_exact same, trivial⟩

/-- Bob, who has bought nothing, sells a part of it. -/
def resale : Tx deployment :=
  tx 5 executor (.executeMatch ⟨bob, lead, swap usdt0 deployment.fxrpToken 20, 0, 0⟩)

def resold : Execution where
  txHash := 5
  router := router
  fillId := 1
  fill := newFill ⟨bob, lead, swap usdt0 deployment.fxrpToken 20, 0, 0⟩ 20
  events := [swapLog router deployment.sender
    { swap usdt0 deployment.fxrpToken 20 with recipient := deployment.sender } 20]

end Sample

theorem swaps_spend_pooled_proceeds_resale :
    (sold Sample.usdt0 (executions (run Chain.step Sample.chain Sample.purchase).history) : ℤ) +
        Sample.resold.fill.amountIn.val ≤
      Sample.chain.sys.held Sample.deployment Sample.usdt0 +
        accumulate Chain.step (Chain.topUp Sample.usdt0) Sample.chain Sample.purchase +
        bought Sample.usdt0 (executions (run Chain.step Sample.chain Sample.purchase).history) :=
  swaps_spend_pooled_proceeds Sample.chain Sample.purchase Sample.resale Sample.resold
    Sample.chain_deployed (by decide) (Sample.purchase_exact _ rfl) (by decide +kernel) rfl

/-- Nothing keeps one follower's proceeds from another: bob sells what alice's FXRP bought. -/
theorem swaps_spend_others_proceeds :
    ¬∀ (D : Deployment) (t : Address) (c : Chain D) (txs : List (Tx D)) (tx : Tx D)
      (e : Execution), c.Deployed → t ≠ D.fxrpToken →
      Admissible Chain.step (fun _ tx => tx.Exact) c (txs ++ [tx]) →
      c.sys.held D t = 0 → accumulate Chain.step (Chain.topUp t) c txs = 0 →
      (tx.outcome (run Chain.step c txs).sys).execution = some e → e.fill.tokenIn = t →
      sold t (fillsOf e.fill.follower e.fill.lead (run Chain.step c txs).history) +
          e.fill.amountIn.val ≤
        bought t (fillsOf e.fill.follower e.fill.lead (run Chain.step c txs).history) := by
  intro always
  have isolated := always Sample.deployment Sample.usdt0 Sample.chain Sample.purchase
    Sample.resale Sample.resold Sample.chain_deployed (by decide)
    (Sample.purchase_exact _ rfl) (by decide +kernel) (by decide +kernel) (by decide +kernel) rfl
  revert isolated
  decide +kernel

end Mirror
