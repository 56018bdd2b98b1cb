import Mirror.Refinement.Runs
import Mirror.Refinement.SwapEvents

/-!
Which transaction settles which fill. A settlement looks at the router, at four words and at
whether the hash was used; fills that agree on these are settled by each other's proofs, and the
chain that a proof names is not looked at all.
-/
namespace Mirror

open Evm InstructionSender

variable {D : Deployment}

namespace Chain

/-- Code outside the repository during one transaction: routers log their own swap and no other,
and verifiers accept a proof that names this chain and a call to the instruction sender only if
it describes such a call. About other chains nothing is said. -/
structure World (here : Bytes32) (c : Chain D) (tx : Tx D) : Prop where
  logs : tx.LogsOwn
  faithful : ∀ verifier proof, tx.env.verifyEVMTransaction verifier proof = true →
    proof.data.sourceId = here → proof.data.responseBody.receivingAddress = D.sender →
    ∃ r ∈ c.history, Describes r proof

/-- A settlement is by the proof of the transaction on this chain that created the fill. -/
def Own (here : Bytes32) (c : Chain D) : Outcome → Prop
  | .settled fillId proof _ => proof.data.sourceId = here ∧
      ∃ r ∈ c.history, ∃ e ∈ r.outcome.execution,
        r.tx.hash = proof.data.requestBody.transactionHash ∧ e.fillId = fillId ∧
        e.fill = c.sys.sender.pendingFills fillId
  | .reverted | .done | .matched _ | .accrued _ => True

def OwnProof (here : Bytes32) (c : Chain D) (tx : Tx D) : Prop := c.Own here (tx.outcome c.sys)

/-- A settlement names this chain, and no other open execution through the configured router
swapped the same amounts of the same tokens as its fill. -/
def Alone (here : Bytes32) (c : Chain D) : Outcome → Prop
  | .settled fillId proof _ => proof.data.sourceId = here ∧
      ∀ e ∈ openExecutions c.history, e.router = c.sys.sender.swapRouter →
        (c.sys.sender.pendingFills fillId).SameSwap e.fill →
        (openExecutions c.history).find? (fun e => e.fillId = fillId) = some e
  | .reverted | .done | .matched _ | .accrued _ => True

def Unambiguous (here : Bytes32) (c : Chain D) (tx : Tx D) : Prop :=
  c.Alone here (tx.outcome c.sys)

instance (here : Bytes32) (c : Chain D) : ∀ o, Decidable (c.Own here o)
  | .settled _ _ _ => inferInstanceAs (Decidable (_ ∧ _))
  | .reverted | .done | .matched _ | .accrued _ => inferInstanceAs (Decidable True)

instance (here : Bytes32) (c : Chain D) : ∀ o, Decidable (c.Alone here o)
  | .settled _ _ _ => inferInstanceAs (Decidable (_ ∧ _))
  | .reverted | .done | .matched _ | .accrued _ => inferInstanceAs (Decidable True)

instance (here : Bytes32) (c : Chain D) (tx : Tx D) : Decidable (c.OwnProof here tx) :=
  inferInstanceAs (Decidable (c.Own here (tx.outcome c.sys)))

instance (here : Bytes32) (c : Chain D) (tx : Tx D) : Decidable (c.Unambiguous here tx) :=
  inferInstanceAs (Decidable (c.Alone here (tx.outcome c.sys)))

/-- Every execution is remembered with its own logs, and is open unless its hash is used. -/
structure Accounted (c : Chain D) : Prop where
  stored : c.Stored
  executions : ∀ r ∈ c.history, ∀ e, r.outcome = .matched e →
    e.txHash = r.tx.hash ∧
    (∀ ev ∈ e.events, ev.topics.head? = some swapTopic0 → SwapOf e.router e.fill ev) ∧
    (e ∈ openExecutions c.history ∨ c.sys.sender.usedProofTxHashes e.txHash = true)

/-- Any admitted proof of this chain is of an open execution that swapped the same. -/
theorem Accounted.execution {c : Chain D} (accounted : c.Accounted) {here : Bytes32}
    {tx : Tx D} (world : c.World here tx) {caller : Address} {fillId : Uint256} {proof : Proof}
    (source : proof.data.sourceId = here)
    (admitted : admitProof D tx.env caller fillId proof c.sys.sender = .ok ()) :
    ∃ r ∈ c.history, ∃ e, r.outcome = .matched e ∧
      r.tx.hash = proof.data.requestBody.transactionHash ∧ e.txHash = r.tx.hash ∧
      e ∈ openExecutions c.history ∧ e.router = c.sys.sender.swapRouter ∧
      (c.sys.sender.pendingFills fillId).SameSwap e.fill := by
  obtain ⟨-, -, -, -, accepted, -, unused, -, receiver, matched⟩ := admitProof_ok.mp admitted
  obtain ⟨r, member, described⟩ := world.faithful _ _ accepted source receiver
  obtain ⟨ev, seen, -, emitter, topic, checked⟩ := matchSwapEvent_ok matched
  have logged := described.logs ev seen topic
  -- a transaction that executed nothing logs no swap
  cases result : r.outcome with
  | reverted | done | settled | accrued =>
    simp [result, Outcome.swapLogs, Outcome.execution] at logged
  | matched e =>
    obtain ⟨hash, logs, status⟩ := accounted.executions r member e result
    rw [result] at logged
    have swap := logs ev logged topic
    rw [swap.data, checkSwapData_words] at checked
    refine ⟨r, member, e, result, described.hash, hash, ?_, swap.emitter.symm.trans emitter,
      checked⟩
    -- the hash of the proof is unused, so its execution is still open
    refine status.resolve_right fun used => ?_
    rw [hash, described.hash, unused] at used
    cases used

/-- With one candidate only, the execution is the fill's own. -/
theorem Accounted.own {c : Chain D} (accounted : c.Accounted) {here : Bytes32} {tx : Tx D}
    (world : c.World here tx) (unambiguous : c.Unambiguous here tx) {s : System}
    {fillId : Uint256} {proof : Proof} {fees : List FeeAccrued}
    (performed : tx.perform c.sys = .ok (s, .settled fillId proof fees)) :
    proof.data.sourceId = here ∧ ∃ r ∈ c.history, ∃ e, r.outcome = .matched e ∧
      r.tx.hash = proof.data.requestBody.transactionHash ∧ e.txHash = r.tx.hash ∧
      (openExecutions c.history).find? (fun e => e.fillId = fillId) = some e ∧
      e.fill = c.sys.sender.pendingFills fillId := by
  simp only [Unambiguous, Tx.outcome, performed] at unambiguous
  obtain ⟨source, only⟩ := unambiguous
  have admitted : admitProof D tx.env tx.caller.addr fillId proof c.sys.sender = .ok () := by
    cases Tx.perform_trace performed with
    | settled _ _ _ _ call acts applied => exact (applyFdcSettlement_ok.mp applied).1
  obtain ⟨r, member, e, result, hash, own, opened, router, same⟩ :=
    accounted.execution world source admitted
  -- the execution of the proof is the only candidate, hence the fill's own
  have first := only e opened router same
  obtain ⟨e', first', stored⟩ := accounted.stored fillId (Tx.perform_records performed).1
  rw [first, Option.some.injEq] at first'
  exact ⟨source, r, member, e, result, hash, own, first, first' ▸ stored⟩

/-- What is erased with the first match is at most that match. -/
theorem mem_eraseP_or_first {α : Type} {p : α → Bool} {l : List α} {first x : α}
    (found : l.find? p = some first) (member : x ∈ l) : x ∈ l.eraseP p ∨ x = first := by
  -- induction on the list, up to the match that goes
  induction l with
  | nil => cases member
  | cons a l ih =>
    cases ha : p a with
    | true =>
      rw [List.find?_cons_of_pos ha, Option.some.injEq] at found
      rw [List.eraseP_cons_of_pos ha]
      rcases List.mem_cons.mp member with rfl | tail
      · exact .inr found
      · exact .inl tail
    | false =>
      rw [List.find?_cons_of_neg (by simp [ha])] at found
      rw [List.eraseP_cons_of_neg (by simp [ha])]
      rcases List.mem_cons.mp member with rfl | tail
      · exact .inl List.mem_cons_self
      · exact (ih found tail).imp_left (List.mem_cons_of_mem _)

theorem accounted_step (here : Bytes32) (c : Chain D) (tx : Tx D) (accounted : c.Accounted)
    (ok : c.World here tx ∧ c.Unambiguous here tx) : (c.step tx).Accounted := by
  refine ⟨c.stored_step tx accounted.stored, ?_⟩
  have old := accounted.executions
  rcases c.step_cases tx with ⟨_, -, stepped⟩ | ⟨s, o, performed, stepped⟩
  · rw [stepped]
    intro r member e result
    rcases List.mem_cons.mp member with rfl | earlier
    · cases result
    · exact old r earlier e result
  · have records := Tx.perform_records performed
    rw [stepped]
    intro r member e result
    cases o with
    | reverted | done | accrued =>
      rw [records.spent]
      rcases List.mem_cons.mp member with rfl | earlier
      · cases result
      · exact old r earlier e result
    | matched new =>
      obtain ⟨-, -, -, -, spent⟩ := records
      rcases List.mem_cons.mp member with rfl | earlier
      · cases result
        cases Tx.perform_trace performed with
        | matched exec call t acts =>
          exact ⟨rfl, executed_logs ok.1.logs performed, .inl List.mem_cons_self⟩
      · obtain ⟨hash, logs, status⟩ := old r earlier e result
        rw [spent]
        exact ⟨hash, logs, status.imp_left (List.mem_cons_of_mem _)⟩
    | settled fillId proof fees =>
      obtain ⟨-, -, written⟩ := records
      rcases List.mem_cons.mp member with rfl | earlier
      · cases result
      · obtain ⟨hash, logs, status⟩ := old r earlier e result
        refine ⟨hash, logs, ?_⟩
        rw [written]
        simp only [markSettled]
        rcases status with opened | used
        · -- only the fill's own execution closes, and it is its hash that is used up
          obtain ⟨-, r', -, e', -, hash', own', first, -⟩ := accounted.own ok.1 ok.2 performed
          rcases mem_eraseP_or_first first opened with kept | rfl
          · exact .inl kept
          · right
            rw [own', hash', Function.update_self]
        · right
          by_cases new : e.txHash = proof.data.requestBody.transactionHash
          · rw [new, Function.update_self]
          · rw [Function.update_of_ne new]
            exact used

end Chain

/-- In a run whose settlements are unambiguous, every settlement is by the proof of the very
transaction that created the fill. -/
theorem settled_by_own_proof (here : Bytes32) (c : Chain D) (txs : List (Tx D))
    (deployed : c.Deployed)
    (ok : Admissible Chain.step (fun c tx => c.World here tx ∧ c.Unambiguous here tx) c txs) :
    Admissible Chain.step (Chain.OwnProof here) c txs := by
  have start : c.Accounted := ⟨deployed.stored, by simp [deployed.history]⟩
  refine run_admissible (Chain.accounted_step here) ?_ c start txs ok
  intro c tx accounted allowed
  unfold Chain.OwnProof Tx.outcome
  cases result : tx.perform c.sys with
  | error e => trivial
  | ok r =>
    obtain ⟨s, o⟩ := r
    cases o with
    | settled fillId proof fees =>
      obtain ⟨source, r, member, e, matched, hash, -, first, same⟩ :=
        accounted.own allowed.1 allowed.2 result
      have execution : e ∈ r.outcome.execution := by simp [matched, Outcome.execution]
      exact ⟨source, r, member, e, execution, hash, by simpa using List.find?_some first, same⟩
    | reverted | done | matched | accrued => trivial

namespace Sample

/-- A transaction whose verifiers accept nothing. -/
theorem tx_world (here : Bytes32) (c : Chain deployment) (hash : Bytes32) (caller : Address)
    [Fact (caller ∉ deployment.reserved)] (call : Call) : c.World here (tx hash caller call) where
  logs := routers_log _ rfl
  faithful verifier p accepted := by simp [tx, external] at accepted

theorem settle_world (here : Bytes32) (c : Chain deployment) (hash : Bytes32) (fillId : Uint256)
    (p : Proof) (described : ∃ r ∈ c.history, Describes r p) :
    c.World here (settle hash fillId p) where
  logs := routers_log _ rfl
  faithful verifier q accepted := by
    simp only [settle, external, Bool.and_eq_true, decide_eq_true_eq] at accepted
    exact fun _ _ => accepted.2 ▸ described

/-- Alice's and bob's fills swap the same amounts of the same tokens, and bob's proof settles
alice's fill. -/
def twins : List (Tx deployment) :=
  configure ++ [
    tx 3 alice (.entry (.vault (.deposit lead 100))),
    tx 4 bob (.entry (.vault (.deposit lead 100))),
    tx 5 executor (.executeMatch ⟨alice, lead, swap deployment.fxrpToken usdt0 60, 0, 0⟩),
    tx 6 executor (.executeMatch ⟨bob, lead, swap deployment.fxrpToken usdt0 60, 0, 0⟩),
    settle 7 0 (proof 1 6 (swap deployment.fxrpToken usdt0 60))]

end Sample

/-- Nothing ties the proof to the fill but the swap: bob's transaction settles alice's fill. -/
theorem settled_by_another_proof :
    ¬∀ (D : Deployment) (here : Bytes32) (c : Chain D) (txs : List (Tx D)), c.Deployed →
      Admissible Chain.step (Chain.World here) c txs →
        Admissible Chain.step (Chain.OwnProof here) c txs := by
  intro always
  have own := always Sample.deployment 1 Sample.chain Sample.twins Sample.chain_deployed
    ⟨Sample.tx_world .., Sample.tx_world .., Sample.tx_world .., Sample.tx_world ..,
      Sample.tx_world .., Sample.tx_world .., Sample.settle_world _ _ _ _ _ (by decide +kernel),
      trivial⟩
  revert own
  decide +kernel

theorem settled_by_own_proof_trade :
    Admissible Chain.step (Chain.OwnProof 1) Sample.chain Sample.trade :=
  settled_by_own_proof 1 Sample.chain Sample.trade Sample.chain_deployed
    ((admissible_and _ _ _ _).mpr
      ⟨⟨Sample.tx_world .., Sample.tx_world .., Sample.tx_world .., Sample.tx_world ..,
        Sample.tx_world .., Sample.settle_world _ _ _ _ _ (by decide +kernel),
        Sample.tx_world .., Sample.tx_world .., Sample.tx_world .., trivial⟩, by decide +kernel⟩)

end Mirror
