import Mirror.Contracts.System

/-!
The record of fills and spent proofs. Only a match adds a fill and only a settlement closes one;
every other call, by anybody, leaves the record alone.
-/
namespace Mirror

open Evm

variable {D : Deployment} {env : External} {caller : Address} {s s' : System}

namespace InstructionSender

/-- The two agree on fills and on spent proofs. -/
structure SameRecord (i i' : InstructionSender) : Prop where
  fills : i'.pendingFills = i.pendingFills
  next : i'.nextFillId = i.nextFillId
  spent : i'.usedProofTxHashes = i.usedProofTxHashes

theorem SameRecord.refl (i : InstructionSender) : i.SameRecord i :=
  ⟨rfl, rfl, rfl⟩

theorem SameRecord.trans {i j k : InstructionSender} (h : i.SameRecord j)
    (h' : j.SameRecord k) : i.SameRecord k :=
  ⟨h'.fills.trans h.fills, h'.next.trans h.next, h'.spent.trans h.spent⟩

/-- Only the configuration differs. -/
structure Reconfigured (i i' : InstructionSender) : Prop extends SameRecord i i' where
  nonce : i'.batchNonce = i.batchNonce
  used : i'.usedBatchNonces = i.usedBatchNonces

theorem Reconfigured.refl (i : InstructionSender) : i.Reconfigured i :=
  ⟨.refl i, rfl, rfl⟩

theorem Reconfigured.trans {i j k : InstructionSender} (h : i.Reconfigured j)
    (h' : j.Reconfigured k) : i.Reconfigured k :=
  ⟨h.toSameRecord.trans h'.toSameRecord, h'.nonce.trans h.nonce, h'.used.trans h.used⟩

theorem call_reconfigures {i i' : InstructionSender} {c : SenderCall}
    (h : i.call caller c = .ok i') : i.Reconfigured i' := by
  cases c <;> simp only [InstructionSender.call, bind_ok, pure_ok] at h <;>
    obtain ⟨_, -, rfl⟩ := h <;> exact ⟨⟨rfl, rfl, rfl⟩, rfl, rfl⟩

theorem validateAndConsumeNonce_ok {i i' : InstructionSender} {nonce : Uint256} :
    i.validateAndConsumeNonce nonce = .ok i' ↔
      nonce = i.batchNonce ∧ i.usedBatchNonces nonce = false ∧
        i' = { i with
          usedBatchNonces := Function.update i.usedBatchNonces nonce true
          batchNonce := i.batchNonce + 1 } := by
  simp only [validateAndConsumeNonce, bind_ok, revertIf_ok, pure_ok, exists_const, ne_eq, not_not,
    Bool.not_eq_true, eq_comm (a := i')]

theorem validateAndConsumeNonce_record {i i' : InstructionSender} {nonce : Uint256}
    (h : i.validateAndConsumeNonce nonce = .ok i') : i.SameRecord i' := by
  obtain ⟨-, -, rfl⟩ := validateAndConsumeNonce_ok.mp h
  exact ⟨rfl, rfl, rfl⟩

theorem onlyAuthorizedExecutor_ok {i : InstructionSender} {u : Unit} :
    i.onlyAuthorizedExecutor caller = .ok u ↔ caller = i.authorizedExecutor ∨ caller = i.owner := by
  simp only [onlyAuthorizedExecutor, revertIf_ok, ne_eq, not_and_or, not_not]

/-! The calls with a nonce pass on to another contract once the nonce is consumed. -/

theorem settleBatch_ok {settlements : List Settlement} {nonce : Uint256}
    (h : settleBatch D caller settlements nonce s = .ok s') :
    ∃ i, s.sender.validateAndConsumeNonce nonce = .ok i ∧
      { s with sender := i }.onVault (MirrorVault.settleBatch D.sender settlements) = .ok s' := by
  simp only [settleBatch, bind_ok] at h
  obtain ⟨_, -, i, consumed, written⟩ := h
  exact ⟨i, consumed, written⟩

theorem accrueFees_ok {accruals : List FeeAccrual} {nonce : Uint256} {fees : List FeeAccrued}
    (h : accrueFees D caller accruals nonce s = .ok (s', fees)) :
    ∃ i, s.sender.validateAndConsumeNonce nonce = .ok i ∧
      accrueEach D accruals { s with sender := i } = .ok (s', fees) := by
  simp only [accrueFees, bind_ok] at h
  obtain ⟨_, -, i, consumed, written⟩ := h
  exact ⟨i, consumed, written⟩

theorem finalizeWithdrawal_authorized {follower lead : Address} {nonce : Uint256}
    (h : finalizeWithdrawal D env caller follower lead nonce s = .ok s') :
    caller = s.sender.authorizedExecutor ∨ caller = s.sender.owner := by
  simp only [finalizeWithdrawal, bind_ok] at h
  obtain ⟨_, authorized, -⟩ := h
  exact onlyAuthorizedExecutor_ok.mp authorized

theorem finalizeWithdrawal_ok {follower lead : Address} {nonce : Uint256}
    (h : finalizeWithdrawal D env caller follower lead nonce s = .ok s') :
    ∃ i, s.sender.validateAndConsumeNonce nonce = .ok i ∧
      { s with sender := i }.onVault
        (MirrorVault.finalizeWithdrawal D env D.sender follower lead) = .ok s' := by
  simp only [finalizeWithdrawal, bind_ok] at h
  obtain ⟨_, -, i, consumed, written⟩ := h
  exact ⟨i, consumed, written⟩

end InstructionSender

open InstructionSender

/-! ### Calls that leave the sender's storage alone -/

theorem System.onVault_sender {f : Custody → Except Revert Custody} (h : s.onVault f = .ok s') :
    s'.sender = s.sender := by
  simp only [System.onVault, bind_ok, pure_ok] at h
  obtain ⟨_, -, rfl⟩ := h
  rfl

theorem System.onToken_sender {token who : Address} {c : TokenCall Address}
    (h : s.onToken env token who c = .ok s') : s'.sender = s.sender := by
  simp only [System.onToken, bind_ok, pure_ok] at h
  obtain ⟨_, -, rfl⟩ := h
  rfl

/-- The vault lends where FXRP is sold, and is not asked otherwise. -/
theorem lockLeg_ok {follower lead tokenIn : Address} {amountIn : Uint256} :
    lockLeg D env follower lead tokenIn amountIn s = .ok s' ↔
      (tokenIn = D.fxrpToken ∧
        s.onVault (MirrorVault.transferForExecution D env D.sender follower lead amountIn) =
          .ok s') ∨
      (tokenIn ≠ D.fxrpToken ∧ s' = s) := by
  unfold lockLeg
  by_cases sells : tokenIn = D.fxrpToken
  · simp [sells]
  · simp [sells, pure_ok, eq_comm (a := s)]

/-- Where FXRP is bought it is approved to the vault, which pulls it. -/
theorem proceedsLeg_ok {tokenOut : Address} {amountOut : Uint256} :
    proceedsLeg D env tokenOut amountOut s = .ok s' ↔
      (tokenOut = D.fxrpToken ∧
        ∃ mid, s.onToken env D.fxrpToken D.sender (.approve D.vault amountOut.val) = .ok mid ∧
          mid.onVault (MirrorVault.receiveExecutionProceeds D env D.sender amountOut) = .ok s') ∨
      (tokenOut ≠ D.fxrpToken ∧ s' = s) := by
  unfold proceedsLeg
  by_cases buys : tokenOut = D.fxrpToken
  · simp [buys, bind_ok]
  · simp [buys, pure_ok, eq_comm (a := s)]

/-- A change that is not zero is written to the vault. -/
theorem vaultLeg_ok {fill : PendingFill} :
    vaultLeg D fill s = .ok s' ↔ ∃ delta, fillDelta D fill = .ok delta ∧
      ((delta ≠ 0 ∧
          s.onVault (MirrorVault.settleFromProof D.sender fill.follower fill.lead delta) =
            .ok s') ∨
        (delta = 0 ∧ s' = s)) := by
  simp only [vaultLeg, bind_ok]
  refine exists_congr fun delta => and_congr_right fun _ => ?_
  by_cases zero : delta = 0
  · simp [zero, pure_ok, eq_comm (a := s)]
  · simp [zero]

theorem lockLeg_sender {follower lead tokenIn : Address} {amountIn : Uint256}
    (h : lockLeg D env follower lead tokenIn amountIn s = .ok s') : s'.sender = s.sender := by
  rcases lockLeg_ok.mp h with ⟨-, lent⟩ | ⟨-, rfl⟩
  · exact System.onVault_sender lent
  · rfl

theorem proceedsLeg_sender {tokenOut : Address} {amountOut : Uint256}
    (h : proceedsLeg D env tokenOut amountOut s = .ok s') : s'.sender = s.sender := by
  rcases proceedsLeg_ok.mp h with ⟨-, mid, approved, received⟩ | ⟨-, rfl⟩
  · exact (System.onVault_sender received).trans (System.onToken_sender approved)
  · rfl

theorem vaultLeg_sender {fill : PendingFill} (h : vaultLeg D fill s = .ok s') :
    s'.sender = s.sender := by
  rcases vaultLeg_ok.mp h with ⟨delta, -, ⟨-, written⟩ | ⟨-, rfl⟩⟩
  · exact System.onVault_sender written
  · rfl

/-- What the fee leg does: nothing without a profit, booking alone where no net fee is due, and
else booking and paying it. -/
inductive FeeTrace (D : Deployment) (env : External) (fill : PendingFill) (proof : Proof)
    (s : System) : System → List FeeAccrued → Prop
  | idle (unprofitable : ¬0 < fill.profit) : FeeTrace D env fill proof s s []
  | booked (accrual : Accrual)
      (accrued : s.fee.accrueFee s.registry D.sender fill.lead fill.follower fill.profit
        fill.epochId = .ok accrual)
      (nothing : ¬0 < accrual.netFee) :
      FeeTrace D env fill proof s { s with fee := accrual.fee } accrual.event.toList
  | paid (accrual : Accrual) (treasury : Treasury)
      (accrued : s.fee.accrueFee s.registry D.sender fill.lead fill.follower fill.profit
        fill.epochId = .ok accrual)
      (due : 0 < accrual.netFee)
      (released : MirrorFee.releaseFee D env D.sender proof fill.lead accrual.netFee
        ⟨s.ledger, accrual.fee⟩ = .ok treasury) :
      FeeTrace D env fill proof s { s with ledger := treasury.ledger, fee := treasury.fee }
        accrual.event.toList

theorem feeLeg_trace {fill : PendingFill} {proof : Proof} {fees : List FeeAccrued}
    (h : feeLeg D env fill proof s = .ok (s', fees)) : FeeTrace D env fill proof s s' fees := by
  unfold feeLeg at h
  split at h
  next =>
    simp only [bind_ok] at h
    obtain ⟨accrual, accrued, rest⟩ := h
    split at rest
    next due =>
      simp only [System.onFee, bind_ok, pure_ok, Prod.mk.injEq] at rest
      obtain ⟨_, ⟨treasury, released, rfl⟩, rfl, rfl⟩ := rest
      exact .paid accrual treasury accrued due released
    next nothing =>
      simp only [pure_ok, Prod.mk.injEq] at rest
      obtain ⟨rfl, rfl⟩ := rest
      exact .booked accrual accrued nothing
  next unprofitable =>
    simp only [pure_ok, Prod.mk.injEq] at h
    obtain ⟨rfl, rfl⟩ := h
    exact .idle unprofitable

theorem feeLeg_frame {fill : PendingFill} {proof : Proof} {fees : List FeeAccrued}
    (h : feeLeg D env fill proof s = .ok (s', fees)) :
    s'.sender = s.sender ∧ s'.vault = s.vault := by
  cases feeLeg_trace h with
  | idle | booked | paid => exact ⟨rfl, rfl⟩

/-- The loop over the accruals, one of them at a time. -/
inductive AccrualTrace (D : Deployment) :
    List FeeAccrual → System → System → List FeeAccrued → Prop
  | nil {s : System} : AccrualTrace D [] s s []
  | cons {a : FeeAccrual} {rest : List FeeAccrual} {s s' : System} {events : List FeeAccrued}
      {accrual : Accrual}
      (accrued : s.fee.accrueFee s.registry D.sender a.lead a.follower a.profit a.epochId =
        .ok accrual)
      (others : AccrualTrace D rest { s with fee := accrual.fee } s' events) :
      AccrualTrace D (a :: rest) s s' (accrual.event.toList ++ events)

theorem accrueEach_trace {accruals : List FeeAccrual} {fees : List FeeAccrued}
    (h : accrueEach D accruals s = .ok (s', fees)) : AccrualTrace D accruals s s' fees := by
  induction accruals generalizing s fees with
  | nil =>
    simp only [accrueEach, pure_ok, Prod.mk.injEq] at h
    obtain ⟨rfl, rfl⟩ := h
    exact .nil
  | cons a rest ih =>
    simp only [accrueEach, bind_ok, pure_ok, Prod.mk.injEq, Prod.exists] at h
    obtain ⟨accrual, accrued, mid, events, tail, rfl, rfl⟩ := h
    exact .cons accrued (ih tail)

theorem accrueEach_sender {accruals : List FeeAccrual} {fees : List FeeAccrued}
    (h : accrueEach D accruals s = .ok (s', fees)) : s'.sender = s.sender := by
  replace h := accrueEach_trace h
  induction h with
  | nil => rfl
  | cons accrued others ih => exact ih

theorem Action.perform_reconfigures {a : Action D} (h : a.perform env s = .ok s') :
    s.sender.Reconfigured s'.sender := by
  cases performed h with
  | sender who op i called => exact call_reconfigures called
  | token | vault | fee | registry => exact .refl _

theorem Action.performAll_reconfigures {actions : List (Action D)}
    (h : performAll env actions s = .ok s') : s.sender.Reconfigured s'.sender := by
  have kept : ∀ (a : Action D) (x x' : System), True → s.sender.Reconfigured x.sender →
      a.perform env x = .ok x' → s.sender.Reconfigured x'.sender := by
    intro a x x' _ same done
    exact same.trans (perform_reconfigures done)
  exact performAll_keeps (fun _ => True) _ kept (fun _ _ => trivial) (.refl _) h

/-! ### Matches and settlements -/

/-- A match that goes through, leg by leg. -/
structure MatchTrace (D : Deployment) (env : External) (caller : Address) (routers : Routers D)
    (exec : MatchExecution) (s : System) where
  locked : System
  approved : System
  reply : Reply D
  swapped : System
  booked : System
  authorized : caller = s.sender.authorizedExecutor ∨ caller = s.sender.owner
  lock : lockLeg D env exec.follower exec.lead exec.swap.tokenIn exec.swap.amountIn s = .ok locked
  approve : locked.onToken env exec.swap.tokenIn D.sender
    (.approve s.sender.swapRouter exec.swap.amountIn.val) = .ok approved
  answered : routers s.sender.swapRouter (swapParams D exec) = some reply
  acted : Action.performAll env reply.actions approved = .ok swapped
  proceeds : proceedsLeg D env exec.swap.tokenOut reply.amountOut swapped = .ok booked

namespace MatchTrace

variable {routers : Routers D} {exec : MatchExecution}

def fill (t : MatchTrace D env caller routers exec s) : PendingFill :=
  newFill exec t.reply.amountOut

def final (t : MatchTrace D env caller routers exec s) : System :=
  { t.booked with sender := t.booked.sender.recordFill t.fill }

def report (t : MatchTrace D env caller routers exec s) : Matched :=
  ⟨t.booked.sender.nextFillId, t.reply.amountOut, t.reply.events⟩

/-- Only the configuration changes before the match itself writes the record. -/
theorem reconfigures (t : MatchTrace D env caller routers exec s) :
    s.sender.Reconfigured t.booked.sender := by
  have before : t.approved.sender = s.sender :=
    (System.onToken_sender t.approve).trans (lockLeg_sender t.lock)
  have during := Action.performAll_reconfigures t.acted
  rw [before] at during
  rw [proceedsLeg_sender t.proceeds]
  exact during

end MatchTrace

theorem executeMatch_ok {routers : Routers D} {exec : MatchExecution} {m : Matched}
    (h : executeMatch D env caller routers exec s = .ok (s', m)) :
    ∃ t : MatchTrace D env caller routers exec s, s' = t.final ∧ m = t.report := by
  simp only [executeMatch, bind_ok, revertIf_ok, orRevert_ok, onlyAuthorizedExecutor, pure_ok,
    Prod.mk.injEq, exists_const] at h
  obtain ⟨authorized, -, locked, lock, approved, approve, reply, answered, swapped, acted,
    booked, proceeds, rfl, rfl⟩ := h
  -- no call in between writes the sender's storage, so the router read later is the one of `s`
  have same : locked.sender = s.sender := lockLeg_sender lock
  rw [same] at approve
  have same' : approved.sender = s.sender := (System.onToken_sender approve).trans same
  rw [same'] at answered
  exact ⟨⟨locked, approved, reply, swapped, booked, by tauto, lock, approve, answered, acted,
    proceeds⟩, rfl, rfl⟩

theorem matchSwapEvent_error {router : Address} {fill : PendingFill} {events : List Event}
    {e : Revert} (h : matchSwapEvent router fill events = .error e) : e = .proofMismatch := by
  induction events with
  | nil => exact (Except.error.inj h).symm
  | cons ev rest ih =>
    rw [matchSwapEvent] at h
    split at h
    · exact ih h
    · split at h
      · exact ih h
      · simp only [checkSwapData, bind_error, revertIf_error] at h
        rcases h with ⟨-, rfl⟩ | ⟨_, -, ⟨-, rfl⟩ | ⟨_, -, -, rfl⟩⟩ <;> rfl

theorem admitProof_ok {fillId : Uint256} {proof : Proof} {i : InstructionSender} {u : Unit} :
    admitProof D env caller fillId proof i = .ok u ↔
      (caller = i.authorizedExecutor ∨ caller = i.owner) ∧ i.fdcVerifier ≠ 0 ∧
        (i.pendingFills fillId).exists_ = true ∧ (i.pendingFills fillId).settled = false ∧
        env.verifyEVMTransaction i.fdcVerifier proof = true ∧
        proof.data.requestBody.transactionHash ≠ 0 ∧
        i.usedProofTxHashes proof.data.requestBody.transactionHash = false ∧
        proof.data.responseBody.status = 1 ∧ proof.data.responseBody.receivingAddress = D.sender ∧
        matchSwapEvent i.swapRouter (i.pendingFills fillId) proof.data.responseBody.events =
          .ok u := by
  simp only [admitProof, onlyAuthorizedExecutor, bind_ok, revertIf_ok, exists_const, not_not,
    Bool.not_eq_false, Bool.not_eq_true, ne_eq, not_and_or]

/-- A settlement that goes through: the proof is admitted, then both legs succeed. -/
theorem applyFdcSettlement_ok {fillId : Uint256} {proof : Proof} {fees : List FeeAccrued} :
    applyFdcSettlement D env caller fillId proof s = .ok (s', fees) ↔
      admitProof D env caller fillId proof s.sender = .ok () ∧
        ∃ mid, vaultLeg D (s.sender.pendingFills fillId)
            { s with
              sender := s.sender.markSettled fillId proof.data.requestBody.transactionHash } =
              .ok mid ∧
          feeLeg D env (s.sender.pendingFills fillId) proof mid = .ok (s', fees) := by
  simp only [applyFdcSettlement, bind_ok]
  exact ⟨fun ⟨_, h⟩ => h, fun h => ⟨(), h⟩⟩

/-! ### Transactions that go through -/

/-- The calls by outsiders that take effect in a transaction. -/
def Tx.actions (tx : Tx D) (s : System) : List (Action D) :=
  match tx.perform s with
  | .error _ => []
  | .ok _ =>
    match tx.call with
    | .entry e => [⟨tx.caller, e⟩]
    | .executeMatch exec => ((tx.routers s.sender.swapRouter (swapParams D exec)).map
        Reply.actions).getD []
    | _ => []

/-- The match that goes through in the transaction, if there is one. -/
def Tx.matched (tx : Tx D) (s : System) : Option MatchExecution :=
  match tx.perform s, tx.call with
  | .ok _, .executeMatch exec => some exec
  | _, _ => none

theorem Tx.actions_reverted {tx : Tx D} {s : System} {e : Revert} (h : tx.perform s = .error e) :
    tx.actions s = [] := by
  simp only [Tx.actions, h]

theorem Tx.actions_entry {tx : Tx D} {s : System} {r : System × Outcome} {e : Entry}
    (h : tx.perform s = .ok r) (call : tx.call = .entry e) : tx.actions s = [⟨tx.caller, e⟩] := by
  simp only [Tx.actions, h, call]

theorem Tx.actions_match {tx : Tx D} {s : System} {r : System × Outcome} {exec : MatchExecution}
    (h : tx.perform s = .ok r) (call : tx.call = .executeMatch exec)
    (t : MatchTrace D tx.env tx.caller.addr tx.routers exec s) :
    tx.actions s = t.reply.actions := by
  simp only [Tx.actions, h, call, t.answered, Option.map_some, Option.getD_some]

/-- What a transaction is, once it goes through. -/
inductive Tx.Trace (tx : Tx D) (s : System) : System → Outcome → Prop
  | entry (e : Entry) (s' : System) (call : tx.call = .entry e)
      (acts : tx.actions s = [⟨tx.caller, e⟩])
      (acted : Action.perform tx.env ⟨tx.caller, e⟩ s = .ok s') : Trace tx s s' .done
  | matched (exec : MatchExecution) (call : tx.call = .executeMatch exec)
      (t : MatchTrace D tx.env tx.caller.addr tx.routers exec s)
      (acts : tx.actions s = t.reply.actions) :
      Trace tx s t.final
        (.matched ⟨tx.hash, s.sender.swapRouter, t.report.fillId, t.fill, t.reply.events⟩)
  | settled (fillId : Uint256) (proof : Proof) (fees : List FeeAccrued) (s' : System)
      (call : tx.call = .applyFdcSettlement fillId proof) (acts : tx.actions s = [])
      (applied : applyFdcSettlement D tx.env tx.caller.addr fillId proof s = .ok (s', fees)) :
      Trace tx s s' (.settled fillId proof fees)
  | batch (settlements : List Settlement) (nonce : Uint256) (s' : System)
      (call : tx.call = .settleBatch settlements nonce) (acts : tx.actions s = [])
      (applied : InstructionSender.settleBatch D tx.caller.addr settlements nonce s = .ok s') :
      Trace tx s s' .done
  | accrued (accruals : List FeeAccrual) (nonce : Uint256) (fees : List FeeAccrued) (s' : System)
      (call : tx.call = .accrueFees accruals nonce) (acts : tx.actions s = [])
      (applied : InstructionSender.accrueFees D tx.caller.addr accruals nonce s = .ok (s', fees)) :
      Trace tx s s' (.accrued fees)
  | withdrawn (follower lead : Address) (nonce : Uint256) (s' : System)
      (call : tx.call = .finalizeWithdrawal follower lead nonce) (acts : tx.actions s = [])
      (applied : InstructionSender.finalizeWithdrawal D tx.env tx.caller.addr follower lead nonce s
        = .ok s') :
      Trace tx s s' .done

theorem Tx.perform_trace {tx : Tx D} {s s' : System} {o : Outcome}
    (h : tx.perform s = .ok (s', o)) : tx.Trace s s' o := by
  have went := h
  -- one case for each entry point
  unfold Tx.perform at h
  split at h
  next e call =>
    simp only [bind_ok, pure_ok, Prod.mk.injEq] at h
    obtain ⟨_, acted, rfl, rfl⟩ := h
    exact .entry e _ call (Tx.actions_entry went call) acted
  next exec call =>
    simp only [bind_ok, pure_ok, Prod.mk.injEq, Prod.exists] at h
    obtain ⟨_, m, matched, rfl, rfl⟩ := h
    obtain ⟨t, rfl, rfl⟩ := executeMatch_ok matched
    exact .matched exec call t (Tx.actions_match went call t)
  next fillId proof call =>
    simp only [bind_ok, pure_ok, Prod.mk.injEq, Prod.exists] at h
    obtain ⟨_, fees, applied, rfl, rfl⟩ := h
    exact .settled fillId proof fees _ call (by simp only [Tx.actions, went, call]) applied
  next settlements nonce call =>
    simp only [bind_ok, pure_ok, Prod.mk.injEq] at h
    obtain ⟨_, applied, rfl, rfl⟩ := h
    exact .batch settlements nonce _ call (by simp only [Tx.actions, went, call]) applied
  next accruals nonce call =>
    simp only [bind_ok, pure_ok, Prod.mk.injEq, Prod.exists] at h
    obtain ⟨_, fees, applied, rfl, rfl⟩ := h
    exact .accrued accruals nonce fees _ call (by simp only [Tx.actions, went, call]) applied
  next follower lead nonce call =>
    simp only [bind_ok, pure_ok, Prod.mk.injEq] at h
    obtain ⟨_, applied, rfl, rfl⟩ := h
    exact .withdrawn follower lead nonce _ call (by simp only [Tx.actions, went, call]) applied

/-- A fill that can still be settled. -/
def PendingFill.live (f : PendingFill) : Bool := f.exists_ && !f.settled

/-- How the outcome of a transaction shows in the record. -/
def Records (i i' : InstructionSender) : Outcome → Prop
  | .matched e =>
    e.fillId = i.nextFillId ∧ e.fill.live = true ∧ i'.nextFillId = i.nextFillId + 1 ∧
      i'.pendingFills = Function.update i.pendingFills i.nextFillId e.fill ∧
      i'.usedProofTxHashes = i.usedProofTxHashes
  | .settled fillId proof _ =>
    (i.pendingFills fillId).live = true ∧
      i.usedProofTxHashes proof.data.requestBody.transactionHash = false ∧
      i' = i.markSettled fillId proof.data.requestBody.transactionHash
  | .reverted | .done | .accrued _ => i.SameRecord i'

/-- The fills created or settled by a transaction are exactly those its outcome names. -/
theorem Tx.perform_records {tx : Tx D} {o : Outcome} (h : tx.perform s = .ok (s', o)) :
    Records s.sender s'.sender o := by
  cases Tx.perform_trace h with
  | entry e s' call acts acted => exact (Action.perform_reconfigures acted).toSameRecord
  | matched exec call t acts =>
    obtain ⟨fills, next, spent⟩ := t.reconfigures.toSameRecord
    -- the match itself writes one fill under the next id
    refine ⟨next, rfl, ?_, ?_, spent⟩
    · simp only [MatchTrace.final, recordFill, next]
    · simp only [MatchTrace.final, recordFill, next, fills]
  | settled fillId proof fees s' call acts applied =>
    obtain ⟨admitted, mid, vaultWrites, feeWrites⟩ := applyFdcSettlement_ok.mp applied
    obtain ⟨-, -, found, unsettled, -, -, unused, -⟩ := admitProof_ok.mp admitted
    -- the legs leave the mark of the settlement as it was made
    refine ⟨by simp [PendingFill.live, found, unsettled], unused, ?_⟩
    rw [(feeLeg_frame feeWrites).1, vaultLeg_sender vaultWrites]
  | batch settlements nonce s' call acts applied =>
    obtain ⟨i, consumed, written⟩ := InstructionSender.settleBatch_ok applied
    exact System.onVault_sender written ▸ validateAndConsumeNonce_record consumed
  | accrued accruals nonce fees s' call acts applied =>
    obtain ⟨i, consumed, written⟩ := InstructionSender.accrueFees_ok applied
    exact accrueEach_sender written ▸ validateAndConsumeNonce_record consumed
  | withdrawn follower lead nonce s' call acts applied =>
    obtain ⟨i, consumed, written⟩ := InstructionSender.finalizeWithdrawal_ok applied
    exact System.onVault_sender written ▸ validateAndConsumeNonce_record consumed

/-- A successful transaction and what it executed. -/
theorem executed_iff {tx : Tx D} {s : System} {e : Execution} :
    (tx.outcome s).execution = some e ↔ ∃ s', tx.perform s = .ok (s', .matched e) := by
  unfold Tx.outcome
  cases result : tx.perform s with
  | error => simp [Outcome.execution]
  | ok r =>
    obtain ⟨s', o⟩ := r
    cases o with
    | matched e' => simp [Outcome.execution]
    | reverted | done | settled | accrued => simp [Outcome.execution]

end Mirror
