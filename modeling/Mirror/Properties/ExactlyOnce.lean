import Mathlib.Data.Set.Function
import Mirror.Refinement.Fees

/-!
Every fill is settled at most once and by one proof, every proof settles one fill, and what
settlements did to the balances is the sum of what their fills say.
-/
namespace Mirror

open Evm Escrow InstructionSender

variable {D : Deployment}

/-- The hash of the proof that settled a fill. -/
def settledBy : List (Receipt D) → Uint256 → Bytes32
  | [], _ => 0
  | r :: rest, i =>
    match r.outcome with
    | .settled fillId proof _ =>
      if fillId = i then proof.data.requestBody.transactionHash else settledBy rest i
    | _ => settledBy rest i

/-! ### Where a settlement finds a proof already used -/

theorem admitProof_used {env : External} {caller : Address} {fillId : Uint256} {proof : Proof}
    {i : InstructionSender}
    (h : admitProof D env caller fillId proof i = .error .proofAlreadyUsed) :
    i.usedProofTxHashes proof.data.requestBody.transactionHash = true := by
  simp only [admitProof, onlyAuthorizedExecutor, bind_error, revertIf_error, reduceCtorEq,
    and_false, false_or] at h
  obtain ⟨_, -, _, -, _, -, _, -, _, -, _, -, h⟩ := h
  -- after the check on the hash only the event match can fail, and it says something else
  rcases h with ⟨used, -⟩ | ⟨_, -, _, -, _, -, mismatch⟩
  · exact used
  · exact absurd (matchSwapEvent_error mismatch) (by decide)

theorem vaultLeg_not_used {fill : PendingFill} {s : System} :
    vaultLeg D fill s ≠ .error .proofAlreadyUsed := by
  intro h
  simp only [vaultLeg, fillDelta, bind_error] at h
  rcases h with failed | ⟨delta, -, failed⟩
  · split at failed
    · simp only [orRevert_error, reduceCtorEq, and_false] at failed
    · split at failed <;> simp only [pure_error] at failed
  · split at failed
    · simp only [System.onVault, MirrorVault.settleFromProof, MirrorVault.onlyInstructionSender,
        bind_error, pure_error, revertIf_error, reduceCtorEq, and_false, false_or, or_false,
        exists_false] at failed
      obtain ⟨_, -, _, -, failed⟩ := failed
      split at failed
      · simp only [bind_error, orRevert_error, revertIf_error, pure_error, reduceCtorEq, and_false,
          false_or, exists_false] at failed
      · split at failed
        · simp only [bind_error, orRevert_error, pure_error, reduceCtorEq, and_false, false_or,
            exists_false] at failed
        · simp only [pure_error] at failed
    · simp only [pure_error] at failed

theorem accrueFee_not_used {registry : MirrorRegistry} {caller lead follower : Address}
    {profit epochId : Uint256} {m : MirrorFee} :
    m.accrueFee registry caller lead follower profit epochId ≠ .error .proofAlreadyUsed := by
  intro h
  simp only [MirrorFee.accrueFee, MirrorFee.onlyInstructionSender, MirrorFee.grossFee, bind_error,
    revertIf_error, orRevert_error, pure_error, reduceCtorEq, and_false, false_or, or_false,
    exists_false] at h
  obtain ⟨_, -, _, -, _, -, gross, -, failed⟩ := h
  split at failed
  · simp only [pure_error] at failed
  · simp only [MirrorFee.protocolFee, bind_error, orRevert_error, pure_error, reduceCtorEq,
      and_false, or_false, exists_false] at failed

/-- Only the release asks the fee contract whether it knows the proof. -/
theorem feeLeg_used_before {env : External} {fill : PendingFill} {proof : Proof} {s : System}
    (h : feeLeg D env fill proof s = .error .proofAlreadyUsed) :
    s.fee.usedProofs proof.data.requestBody.transactionHash = true := by
  unfold feeLeg at h
  split at h
  · simp only [bind_error] at h
    rcases h with failed | ⟨accrual, accrued, failed⟩
    · exact absurd failed accrueFee_not_used
    · obtain ⟨total, -, written⟩ := MirrorFee.accrueFee_adds accrued
      have kept : accrual.fee.usedProofs = s.fee.usedProofs := by rw [written]
      split at failed
      · simp only [System.onFee, MirrorFee.releaseFee, MirrorFee.onlyInstructionSender,
          bind_error, revertIf_error, orRevert_error, pure_error, Ledger.call_error, reduceCtorEq,
          and_false, false_and, false_or, or_false, exists_false] at failed
        obtain ⟨_, -, _, -, _, -, _, -, _, -, used, -⟩ := failed
        exact kept ▸ used
      · simp only [pure_error] at failed
  · simp only [pure_error] at h

namespace Chain

def balance (c : Chain D) (f l : Address) : ℕ := (c.sys.vault.subAccounts f l).balance.val

/-- The change that a transaction makes to a balance through `applyFdcSettlement`. -/
def settlementChange (f l : Address) (c : Chain D) (tx : Tx D) : ℤ :=
  match tx.call with
  | .applyFdcSettlement _ _ => (c.step tx).balance f l - c.balance f l
  | _ => 0

/-- The sum of the deltas of all settled fills of a sub-account. -/
def settledDelta (f l : Address) (c : Chain D) : ℤ :=
  ∑ i, if (c.sys.sender.pendingFills i).settled = true then
    (c.sys.sender.pendingFills i).delta D f l else 0

structure Once (c : Chain D) : Prop where
  guarded : c.Guarded
  numbered : c.Numbered
  feeWired : c.sys.fee.instructionSender = D.sender
  found : ∀ i, (c.sys.sender.pendingFills i).settled = true →
    (c.sys.sender.pendingFills i).exists_ = true
  paired : Set.BijOn (settledBy c.history)
    {i | (c.sys.sender.pendingFills i).settled = true}
    {x | c.sys.sender.usedProofTxHashes x = true}
  spent : ∀ x, c.sys.fee.usedProofs x = true → c.sys.sender.usedProofTxHashes x = true

/-! ### Fills and proofs -/

/-- The id of the next fill names none yet. -/
theorem Once.fresh {c : Chain D} (once : c.Once) :
    (c.sys.sender.pendingFills c.sys.sender.nextFillId).settled = false := by
  rw [← Bool.not_eq_true]
  intro settled
  exact lt_irrefl _ ((once.numbered.found _).mp (once.found _ settled))

/-- An open fill under an id that names no settled one leaves the settled ones as they are. -/
theorem settled_open {fills : Uint256 → PendingFill} {i : Uint256} {fill : PendingFill}
    (fresh : (fills i).settled = false) (pending : fill.settled = false) :
    {j | (Function.update fills i fill j).settled = true} = {j | (fills j).settled = true} := by
  ext j
  by_cases here : j = i
  · simp [here, fresh, pending]
  · simp [here]

theorem settled_markSettled (sender : InstructionSender) (fillId : Uint256) (hash : Bytes32) :
    {i | ((sender.markSettled fillId hash).pendingFills i).settled = true} =
      insert fillId {i | (sender.pendingFills i).settled = true} := by
  ext i
  by_cases here : i = fillId
  · simp [markSettled, here]
  · simp [markSettled, here]

theorem spent_markSettled (sender : InstructionSender) (fillId : Uint256) (hash : Bytes32) :
    {x | (sender.markSettled fillId hash).usedProofTxHashes x = true} =
      insert hash {x | sender.usedProofTxHashes x = true} := by
  ext x
  by_cases here : x = hash
  · simp [markSettled, here]
  · simp [markSettled, here]

theorem paired_step (c : Chain D) (tx : Tx D) (once : c.Once) :
    (∀ i, ((c.step tx).sys.sender.pendingFills i).settled = true →
      ((c.step tx).sys.sender.pendingFills i).exists_ = true) ∧
    Set.BijOn (settledBy (c.step tx).history)
      {i | ((c.step tx).sys.sender.pendingFills i).settled = true}
      {x | (c.step tx).sys.sender.usedProofTxHashes x = true} := by
  obtain ⟨o, history, records⟩ := c.step_records tx
  rw [history]
  cases o with
  | reverted | done | accrued =>
    rw [records.fills, records.spent]
    exact ⟨once.found, once.paired⟩
  | matched e =>
    obtain ⟨-, live, -, fills, spent⟩ := records
    simp only [PendingFill.live, Bool.and_eq_true, Bool.not_eq_true'] at live
    rw [fills, spent, settled_open once.fresh live.2]
    refine ⟨fun i settled => ?_, once.paired⟩
    by_cases here : i = c.sys.sender.nextFillId
    · subst here
      simp [live.1]
    · rw [Function.update_of_ne here] at settled ⊢
      exact once.found i settled
  | settled fillId proof fees =>
    obtain ⟨live, unused, written⟩ := records
    simp only [PendingFill.live, Bool.and_eq_true, Bool.not_eq_true'] at live
    rw [written]
    constructor
    · intro i settled
      simp only [markSettled] at settled ⊢
      by_cases here : i = fillId
      · subst here
        simpa using live.1
      · rw [Function.update_of_ne here] at settled ⊢
        exact once.found i settled
    · rw [settled_markSettled, spent_markSettled]
      -- the old pairs keep their proofs, the new fill gets the new hash
      have kept : Set.BijOn (settledBy (⟨tx, .settled fillId proof fees⟩ :: c.history))
          {i | (c.sys.sender.pendingFills i).settled = true}
          {x | c.sys.sender.usedProofTxHashes x = true} := by
        refine once.paired.congr fun i settled => ?_
        have other : fillId ≠ i := by
          rintro rfl
          simp [live.2] at settled
        simp [settledBy, other]
      have new : settledBy (⟨tx, .settled fillId proof fees⟩ :: c.history) fillId =
          proof.data.requestBody.transactionHash := by
        simp [settledBy]
      have fresh : settledBy (⟨tx, .settled fillId proof fees⟩ :: c.history) fillId ∉
          {x | c.sys.sender.usedProofTxHashes x = true} := by
        rw [new]
        simp [unused]
      have paired := kept.insert fresh
      rwa [new] at paired

theorem once_step (c : Chain D) (tx : Tx D) (once : c.Once) (ok : c.Fixed tx ∧ c.Few tx) :
    (c.step tx).Once := by
  obtain ⟨found, paired⟩ := c.paired_step tx once
  obtain ⟨feeWired, spent⟩ := c.spent_step tx once.feeWired once.spent ok.1.fee
  exact ⟨(c.step_books tx once.guarded ok.1.wired).1,
    c.numbered_step tx once.guarded.stored once.numbered ok.2, feeWired, found, paired, spent⟩

theorem Deployed.once {c : Chain D} (deployed : c.Deployed) (supply : c.fxrpSupply < 2 ^ 255) :
    c.Once := by
  obtain ⟨_, fee⟩ := deployed.fee
  obtain ⟨_, _, sender⟩ := deployed.sender
  refine ⟨deployed.guarded supply, deployed.numbered, ?_, ?_, ?_, ?_⟩
  · rw [fee]
  · simp [sender, InstructionSender.deployed]
  · simp [sender, InstructionSender.deployed]
  · simp [fee, MirrorFee.deployed]

/-- Both legs ask for an unused hash, and the first one's answer covers the second. -/
theorem Once.no_replay_in_fee {c : Chain D} (once : c.Once) {env : External} {caller : Address}
    {fillId : Uint256} {proof : Proof}
    (h : applyFdcSettlement D env caller fillId proof c.sys = .error .proofAlreadyUsed) :
    c.sys.sender.usedProofTxHashes proof.data.requestBody.transactionHash = true := by
  simp only [applyFdcSettlement, bind_error] at h
  rcases h with own | ⟨_, -, vault | ⟨mid, vaultWrites, fee⟩⟩
  · exact admitProof_used own
  · exact absurd vault vaultLeg_not_used
  · have used := feeLeg_used_before fee
    rw [(vaultLeg_fee vaultWrites).1] at used
    exact once.spent _ used

/-! ### Fills over time -/

/-- Fills keep all their fields but `settled`, and stay settled. -/
def Persists (c c' : Chain D) : Prop :=
  ∀ i, (c.sys.sender.pendingFills i).exists_ = true →
    c'.sys.sender.pendingFills i = { c.sys.sender.pendingFills i with
      settled := (c'.sys.sender.pendingFills i).settled } ∧
    ((c.sys.sender.pendingFills i).settled = true →
      (c'.sys.sender.pendingFills i).settled = true)

theorem Persists.refl (c : Chain D) : c.Persists c := fun _ _ => ⟨rfl, id⟩

theorem Persists.trans {c c' c'' : Chain D} (h : c.Persists c') (h' : c'.Persists c'') :
    c.Persists c'' := by
  intro i exist
  obtain ⟨same, settled⟩ := h i exist
  have exist' : (c'.sys.sender.pendingFills i).exists_ = true := by
    rw [same]
    exact exist
  obtain ⟨same', settled'⟩ := h' i exist'
  refine ⟨?_, fun before => settled' (settled before)⟩
  rw [same', same]

theorem persists_step (c : Chain D) (tx : Tx D) (numbered : c.Numbered) :
    c.Persists (c.step tx) := by
  obtain ⟨o, -, records⟩ := c.step_records tx
  intro i exist
  cases o with
  | reverted | done | accrued =>
    rw [records.fills]
    exact ⟨rfl, id⟩
  | matched e =>
    obtain ⟨-, -, -, fills, -⟩ := records
    -- the id of the new fill named none before
    have other : i ≠ c.sys.sender.nextFillId := by
      rintro rfl
      exact lt_irrefl _ ((numbered.found _).mp exist)
    rw [fills, Function.update_of_ne other]
    exact ⟨rfl, id⟩
  | settled fillId proof fees =>
    obtain ⟨-, -, written⟩ := records
    rw [written]
    by_cases here : i = fillId
    · subst here
      simp [markSettled]
    · simp [markSettled, here]

/-! ### Balances -/

theorem settledDelta_step (f l : Address) (c : Chain D) (tx : Tx D) (once : c.Once) :
    (c.step tx).settledDelta f l = c.settledDelta f l + settlementChange f l c tx := by
  rcases c.step_cases tx with ⟨_, -, stepped⟩ | ⟨s, o, performed, stepped⟩
  · have still : settlementChange f l c tx = 0 := by
      unfold settlementChange
      rw [stepped]
      split
      · exact Int.sub_self _
      · rfl
    rw [still, stepped, Int.add_zero]
    rfl
  · have records := Tx.perform_records performed
    -- steps that settle nothing contribute nothing, and leave the settled fills
    have quiet (other : ∀ fillId proof, tx.call ≠ .applyFdcSettlement fillId proof) :
        settlementChange f l c tx = 0 := by
      unfold settlementChange
      split
      next fillId proof call => exact absurd call (other fillId proof)
      next => rfl
    have unchanged (fills : s.sender.pendingFills = c.sys.sender.pendingFills) :
        (c.step tx).settledDelta f l = c.settledDelta f l := by
      rw [stepped]
      simp only [settledDelta, fills]
    cases Tx.perform_trace performed with
    | entry e s' call acts acted =>
      rw [quiet (by simp [call]), unchanged records.fills, Int.add_zero]
    | batch settlements nonce s' call acts applied =>
      rw [quiet (by simp [call]), unchanged records.fills, Int.add_zero]
    | accrued accruals nonce fees s' call acts applied =>
      rw [quiet (by simp [call]), unchanged records.fills, Int.add_zero]
    | withdrawn follower lead nonce s' call acts applied =>
      rw [quiet (by simp [call]), unchanged records.fills, Int.add_zero]
    | matched exec call t acts =>
      obtain ⟨-, live, -, fills, -⟩ := records
      simp only [PendingFill.live, Bool.and_eq_true, Bool.not_eq_true'] at live
      rw [quiet (by simp [call]), Int.add_zero, stepped]
      have added := sum_comp_update (fun fill : PendingFill => if fill.settled = true then
        fill.delta D f l else 0) c.sys.sender.pendingFills c.sys.sender.nextFillId t.fill
      simp only [live.2, once.fresh, Bool.false_eq_true, if_false, Int.add_zero] at added
      rw [Chain.settledDelta, fills, added, Chain.settledDelta]
    | settled fillId proof fees s' call acts applied =>
      obtain ⟨live, -, written⟩ := records
      obtain ⟨fits, -⟩ := once.guarded.ticket live
      obtain ⟨-, mid, vaultWrites, feeWrites⟩ := applyFdcSettlement_ok.mp applied
      have moved := (vaultLeg_account fits vaultWrites f l).1
      rw [← (feeLeg_frame feeWrites).2] at moved
      have change : settlementChange f l c tx =
          (c.sys.sender.pendingFills fillId).delta D f l := by
        simp only [settlementChange, call, stepped, Chain.balance]
        simp only at moved
        omega
      rw [change, stepped]
      simp only [PendingFill.live, Bool.and_eq_true, Bool.not_eq_true'] at live
      -- one summand turns from zero to the delta of the fill
      have summed := sum_comp_update (fun fill : PendingFill => if fill.settled = true then
        fill.delta D f l else 0) c.sys.sender.pendingFills fillId
        { c.sys.sender.pendingFills fillId with settled := true }
      simp only [live.2, Bool.false_eq_true, if_false, if_true, Int.add_zero] at summed
      rw [Chain.settledDelta, written, markSettled, summed]
      rfl

end Chain

/-- (a) The fills are those below `nextFillId` and only ever become settled. (b) Settled fills and
used hashes correspond one to one. (c) Settlements changed each balance by the sum of the deltas
of its settled fills. (d) The fee contract knows no other hashes, so its own replay check never
stops a settlement that passed the first one. -/
theorem settled_exactly_once (c : Chain D) (txs more : List (Tx D)) (deployed : c.Deployed)
    (supply : c.fxrpSupply < 2 ^ 255) (fixed : Admissible Chain.step Chain.Fixed c (txs ++ more))
    (few : fillCount (run Chain.step c (txs ++ more)).history < 2 ^ 256) :
    ((∀ i, ((run Chain.step c txs).sys.sender.pendingFills i).exists_ = true ↔
        i < (run Chain.step c txs).sys.sender.nextFillId) ∧
      (run Chain.step c txs).Persists (run Chain.step c (txs ++ more))) ∧
    Set.BijOn (settledBy (run Chain.step c txs).history)
      {i | ((run Chain.step c txs).sys.sender.pendingFills i).settled = true}
      {x | (run Chain.step c txs).sys.sender.usedProofTxHashes x = true} ∧
    (∀ f l, accumulate Chain.step (Chain.settlementChange f l) c txs =
      ∑ i, if ((run Chain.step c txs).sys.sender.pendingFills i).settled = true then
        ((run Chain.step c txs).sys.sender.pendingFills i).delta D f l else 0) ∧
    (∀ x, (run Chain.step c txs).sys.fee.usedProofs x = true →
      (run Chain.step c txs).sys.sender.usedProofTxHashes x = true) ∧
    ∀ (env : External) (caller : Address) (fillId : Uint256) (proof : Proof),
      applyFdcSettlement D env caller fillId proof (run Chain.step c txs).sys =
          .error .proofAlreadyUsed →
        (run Chain.step c txs).sys.sender.usedProofTxHashes
          proof.data.requestBody.transactionHash = true := by
  have allowed := (admissible_and _ _ _ _).mpr ⟨fixed, c.few_run (txs ++ more) few⟩
  obtain ⟨first, rest⟩ := (admissible_append _ _ _ _).mp allowed
  have start := deployed.once supply
  have kept (c : Chain D) (tx : Tx D) (once : c.Once) (ok : c.Fixed tx ∧ c.Few tx) :=
    c.once_step tx once ok
  have once : (run Chain.step c txs).Once := run_invariant kept c start txs first
  refine ⟨⟨once.numbered.found, ?_⟩, once.paired, fun f l => ?_, once.spent,
    fun env caller fillId proof h => once.no_replay_in_fee h⟩
  · rw [run_append]
    exact run_relates Chain.Persists.refl (fun _ _ _ h h' => h.trans h') kept
      (fun c tx once _ => c.persists_step tx once.numbered) _ once more rest
  · have moved := run_accumulates (g := Chain.settledDelta f l) kept
      (fun c tx once _ => Chain.settledDelta_step f l c tx once) c start txs first
    have none : c.settledDelta f l = 0 := by
      obtain ⟨_, _, sender⟩ := deployed.sender
      simp [Chain.settledDelta, sender, InstructionSender.deployed]
    rw [none, Int.zero_add] at moved
    exact moved.symm

theorem settled_exactly_once_trade :
    Set.BijOn (settledBy (run Chain.step Sample.chain Sample.trade).history)
      {i | ((run Chain.step Sample.chain Sample.trade).sys.sender.pendingFills i).settled = true}
      {x | (run Chain.step Sample.chain Sample.trade).sys.sender.usedProofTxHashes x = true} :=
  (settled_exactly_once Sample.chain Sample.trade [] Sample.chain_deployed (by decide +kernel)
    (by decide +kernel) (by decide +kernel)).2.1

end Mirror
