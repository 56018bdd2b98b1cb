import Mirror.Refinement.Record

/-!
What the event match of a settlement can tell: the router and four words. A log that some router
emitted for some fill passes for every fill with the same words, as long as that router is the
one configured.
-/
namespace Mirror

open Evm InstructionSender

/-- Two fills that no `Swap` log can tell apart. -/
structure PendingFill.SameSwap (a b : PendingFill) : Prop where
  tokenIn : a.tokenIn = b.tokenIn
  tokenOut : a.tokenOut = b.tokenOut
  amountIn : a.amountIn = b.amountIn
  amountOut : a.amountOut = b.amountOut

instance (a b : PendingFill) : Decidable (a.SameSwap b) :=
  decidable_of_iff (a.tokenIn = b.tokenIn ∧ a.tokenOut = b.tokenOut ∧ a.amountIn = b.amountIn ∧
      a.amountOut = b.amountOut)
    ⟨fun h => ⟨h.1, h.2.1, h.2.2.1, h.2.2.2⟩,
      fun h => ⟨h.tokenIn, h.tokenOut, h.amountIn, h.amountOut⟩⟩

/-- The words of a fill as its router logs them. -/
def PendingFill.words (fill : PendingFill) : List ℕ :=
  [fill.tokenIn.val, fill.tokenOut.val, fill.amountIn.val, fill.amountOut.val]

/-- A live `Swap` log of `router` for this fill. -/
structure SwapOf (router : Address) (fill : PendingFill) (ev : Event) : Prop where
  live : ev.removed = false
  emitter : ev.emitterAddress = router
  topic : ev.topics.head? = some swapTopic0
  data : ev.data = abiEncode fill.words

instance (router : Address) (fill : PendingFill) (ev : Event) : Decidable (SwapOf router fill ev) :=
  decidable_of_iff (ev.removed = false ∧ ev.emitterAddress = router ∧
      ev.topics.head? = some swapTopic0 ∧ ev.data = abiEncode fill.words)
    ⟨fun h => ⟨h.1, h.2.1, h.2.2.1, h.2.2.2⟩, fun h => ⟨h.live, h.emitter, h.topic, h.data⟩⟩

/-- A router that logs as `MockSparkDexRouter` logs the fill it executes. -/
theorem swapLog_of (D : Deployment) (router : Address) (exec : MatchExecution)
    (amountOut : Uint256) :
    SwapOf router (newFill exec amountOut)
      (swapLog router D.sender (swapParams D exec) amountOut) where
  live := rfl
  emitter := rfl
  topic := rfl
  data := by simp only [swapLog, swapParams, newFill, PendingFill.words]

theorem words_fit (fill : PendingFill) : ∀ w ∈ fill.words, w < 2 ^ 256 := by
  have wider : 2 ^ 160 < 2 ^ 256 := Nat.pow_lt_pow_right (by omega) (by omega)
  simp only [PendingFill.words, List.forall_mem_cons]
  exact ⟨fill.tokenIn.isLt.trans wider, fill.tokenOut.isLt.trans wider, fill.amountIn.isLt,
    fill.amountOut.isLt, fun w none => (List.not_mem_nil none).elim⟩

/-- The data of one fill's log satisfies the check of another exactly if the swaps agree. -/
theorem checkSwapData_words (fill other : PendingFill) (u : Unit) :
    checkSwapData fill (abiEncode other.words) = .ok u ↔ fill.SameSwap other := by
  have word (i : ℕ) (h : i < 4) : wordAt (abiEncode other.words) i = other.words.get ⟨i, h⟩ :=
    wordAt_abiEncode other.words (words_fit other) i h
  have first : wordAt (abiEncode other.words) 0 = other.tokenIn.val := word 0 (by decide)
  have second : wordAt (abiEncode other.words) 1 = other.tokenOut.val := word 1 (by decide)
  have third : wordAt (abiEncode other.words) 2 = other.amountIn.val := word 2 (by decide)
  have fourth : wordAt (abiEncode other.words) 3 = other.amountOut.val := word 3 (by decide)
  -- addresses fit into 160 bits, so nothing is cut off
  have inFits : other.tokenIn.val % 2 ^ 160 = other.tokenIn.val :=
    Nat.mod_eq_of_lt other.tokenIn.isLt
  have outFits : other.tokenOut.val % 2 ^ 160 = other.tokenOut.val :=
    Nat.mod_eq_of_lt other.tokenOut.isLt
  have long : ¬(abiEncode other.words).length < 128 := by
    simp [PendingFill.words]
  simp only [checkSwapData, bind_ok, revertIf_ok, exists_const, first, second, third, fourth,
    inFits, outFits, long, not_false_eq_true, true_and, not_or, not_not, ne_eq]
  constructor
  · rintro ⟨⟨hin, hout⟩, hamountIn, hamountOut⟩
    exact ⟨(Fin.ext hin).symm, (Fin.ext hout).symm, (Fin.ext hamountIn).symm,
      (Fin.ext hamountOut).symm⟩
  · rintro ⟨hin, hout, hamountIn, hamountOut⟩
    rw [hin, hout, hamountIn, hamountOut]
    exact ⟨⟨rfl, rfl⟩, rfl, rfl⟩

/-- A match was decided by some live `Swap` log of the router. -/
theorem matchSwapEvent_ok {router : Address} {fill : PendingFill} {events : List Event} {u : Unit}
    (h : matchSwapEvent router fill events = .ok u) :
    ∃ ev ∈ events, ev.removed = false ∧ ev.emitterAddress = router ∧
      ev.topics.head? = some swapTopic0 ∧ checkSwapData fill ev.data = .ok u := by
  -- induction on the logs: one that is skipped leaves the question to the rest
  induction events with
  | nil => cases h
  | cons ev rest ih =>
    rw [matchSwapEvent] at h
    split at h
    next =>
      obtain ⟨found, member, facts⟩ := ih h
      exact ⟨found, List.mem_cons_of_mem _ member, facts⟩
    next live =>
      split at h
      next =>
        obtain ⟨found, member, facts⟩ := ih h
        exact ⟨found, List.mem_cons_of_mem _ member, facts⟩
      next topic =>
        simp only [not_or, Bool.not_eq_true, not_not] at live topic
        exact ⟨ev, List.mem_cons_self, live.1, live.2, topic, h⟩

/-- Where all `Swap` logs are of one router and one fill, the match asks for that router and for
the same swap. -/
theorem matchSwapEvent_iff {router other : Address} {fill executed : PendingFill}
    {events : List Event} (emitted : ∃ ev ∈ events, SwapOf other executed ev)
    (only : ∀ ev ∈ events, ev.topics.head? = some swapTopic0 → SwapOf other executed ev) :
    matchSwapEvent router fill events = .ok () ↔ router = other ∧ fill.SameSwap executed := by
  constructor
  · intro h
    obtain ⟨ev, member, -, emitter, topic, checked⟩ := matchSwapEvent_ok h
    have swap := only ev member topic
    rw [swap.data, checkSwapData_words] at checked
    exact ⟨emitter.symm.trans swap.emitter, checked⟩
  · rintro ⟨rfl, same⟩
    -- induction on the logs: the deciding log is the head, or the head is no log of this fill
    induction events with
    | nil =>
      obtain ⟨_, member, -⟩ := emitted
      cases member
    | cons ev rest ih =>
      -- skipping a log that is not of the fill keeps both hypotheses for the rest
      have later (other : ¬SwapOf router executed ev) :
          matchSwapEvent router fill rest = .ok () := by
        obtain ⟨found, member, swap⟩ := emitted
        refine ih ⟨found, ?_, swap⟩ fun ev' member' => only ev' (List.mem_cons_of_mem _ member')
        rcases List.mem_cons.mp member with rfl | tail
        · exact absurd swap other
        · exact tail
      rw [matchSwapEvent]
      split
      next skipped =>
        refine later fun swap => ?_
        rcases skipped with removed | elsewhere
        · rw [swap.live] at removed
          cases removed
        · exact elsewhere swap.emitter
      next =>
        split
        next skipped => exact later fun swap => skipped swap.topic
        next topic =>
          have swap := only ev List.mem_cons_self (not_not.mp topic)
          rw [swap.data]
          exact (checkSwapData_words fill executed ()).mpr same

/-! ### Transactions and their proofs -/

variable {D : Deployment}

/-- The address a transaction is sent to. -/
def Call.to (D : Deployment) : Call → Address
  | .entry (.token address _) => address
  | .entry (.vault _) => D.vault
  | .entry (.fee _) => D.fee
  | .entry (.registry _) => D.registry
  | _ => D.sender

namespace Outcome

def succeeded : Outcome → Bool
  | .reverted => false
  | _ => true

/-- The logs among which a transaction's `Swap` logs are. -/
def swapLogs (o : Outcome) : List Event :=
  (o.execution.map Execution.events).getD []

end Outcome

/-- The proof tells the truth about a transaction of this chain's history. It may leave out
logs. -/
structure Describes (r : Receipt D) (proof : Proof) : Prop where
  hash : r.tx.hash = proof.data.requestBody.transactionHash
  receiver : r.tx.call.to D = proof.data.responseBody.receivingAddress
  success : proof.data.responseBody.status = 1 → r.outcome.succeeded = true
  logs : ∀ ev ∈ proof.data.responseBody.events, ev.topics.head? = some swapTopic0 →
    ev ∈ r.outcome.swapLogs

instance (r : Receipt D) (proof : Proof) : Decidable (Describes r proof) :=
  decidable_of_iff (r.tx.hash = proof.data.requestBody.transactionHash ∧
      r.tx.call.to D = proof.data.responseBody.receivingAddress ∧
      (proof.data.responseBody.status = 1 → r.outcome.succeeded = true) ∧
      ∀ ev ∈ proof.data.responseBody.events, ev.topics.head? = some swapTopic0 →
        ev ∈ r.outcome.swapLogs)
    ⟨fun h => ⟨h.1, h.2.1, h.2.2.1, h.2.2.2⟩, fun h => ⟨h.hash, h.receiver, h.success, h.logs⟩⟩

/-- Routers log no swap but the one they are asked for. -/
def Tx.LogsOwn (tx : Tx D) : Prop :=
  ∀ router params reply, tx.routers router params = some reply →
    ∀ ev ∈ reply.events, ev.topics.head? = some swapTopic0 →
      ev = swapLog router D.sender params reply.amountOut

theorem executed_logs {tx : Tx D} {s s' : System} {e : Execution} (logs : tx.LogsOwn)
    (performed : tx.perform s = .ok (s', .matched e)) :
    ∀ ev ∈ e.events, ev.topics.head? = some swapTopic0 → SwapOf e.router e.fill ev := by
  cases Tx.perform_trace performed with
  | matched exec call t acts =>
    intro ev seen topic
    rw [logs _ _ _ t.answered ev seen topic]
    exact swapLog_of D _ exec t.reply.amountOut

theorem Sample.routers_log (t : Tx deployment) (same : t.routers = routers) : t.LogsOwn := by
  intro r params reply answered ev member _
  rw [same] at answered
  unfold routers at answered
  split at answered
  next supported =>
    obtain ⟨rfl, -⟩ := supported
    rw [Option.some.injEq] at answered
    subst answered
    exact List.mem_singleton.mp member
  next => cases answered

end Mirror
