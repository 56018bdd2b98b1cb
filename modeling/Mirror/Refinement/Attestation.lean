import Mirror.Relayer.AttestationGate

/-! A call before a node whose answers are known beforehand comes to what `requestAttestation` of
these answers is. -/
namespace Mirror.Relayer

open Js

/-- What a poll answers. -/
def Counts.at (counts : Counts) : BlockTag → Except Thrown ℕ
  | .latest => counts.latest
  | .pending => counts.pending

namespace Node

/-- The polls of a wait. -/
def polled (node : Node) : ℕ → ℕ → Counts
  | 0 => node.polls
  | wait + 1 => (node.attempts wait).polls

def answer (node : Node) : (q : Question) → Except Thrown q.Answer
  | .registryAddress name => node.registryAddress name
  | .getRequestFee abiEncodedRequest => node.getRequestFee abiEncodedRequest
  | .getTransactionCount blockTag (.poll wait i) => (node.polled wait i).at blockTag
  | .getTransactionCount _ (.attempt i) => (node.attempts i).nonce
  | .estimateFeesPerGas => node.estimate
  | .writeContract i _ => (node.attempts i).answer
  | .waitForTransactionReceipt hash => node.receipt hash
  | .getBlock blockNumber => node.timestamp blockNumber
  | .firstVotingRoundStartTs => node.firstVotingRoundStartTs
  | .votingEpochDurationSeconds => node.votingEpochDurationSeconds

/-- The node answers and keeps the transactions that it accepts. -/
def behave (node : Node) (q : Question) (accepted : List Transaction) :
    Except Thrown q.Answer × List Transaction :=
  (node.answer q, match q with
    | .writeContract i transaction =>
      accepted ++ if (node.attempts i).accepted then [transaction] else []
    | _ => accepted)

variable (node : Node)

theorem reads_registryAddress (name : JsString) :
    (Client.registryAddress name).Reads node.behave (node.registryAddress name) :=
  fun _ => Asking.alone_await node.behave _ _

theorem reads_getRequestFee (abiEncodedRequest : JsString) :
    (Client.getRequestFee abiEncodedRequest).Reads node.behave
      (node.getRequestFee abiEncodedRequest) :=
  fun _ => Asking.alone_await node.behave _ _

theorem reads_poll (blockTag : BlockTag) (wait i : ℕ) :
    (Client.getTransactionCount blockTag (.poll wait i)).Reads node.behave
      ((node.polled wait i).at blockTag) :=
  fun _ => Asking.alone_await node.behave _ _

theorem reads_nonce (blockTag : BlockTag) (i : ℕ) :
    (Client.getTransactionCount blockTag (.attempt i)).Reads node.behave
      (node.attempts i).nonce :=
  fun _ => Asking.alone_await node.behave _ _

theorem reads_estimateFeesPerGas :
    Client.estimateFeesPerGas.Reads node.behave node.estimate :=
  fun _ => Asking.alone_await node.behave _ _

theorem reads_receipt (hash : JsString) :
    (Client.waitForTransactionReceipt hash).Reads node.behave (node.receipt hash) :=
  fun _ => Asking.alone_await node.behave _ _

theorem reads_getBlock (blockNumber : ℕ) :
    (Client.getBlock blockNumber).Reads node.behave (node.timestamp blockNumber) :=
  fun _ => Asking.alone_await node.behave _ _

theorem reads_firstVotingRoundStartTs :
    Client.firstVotingRoundStartTs.Reads node.behave node.firstVotingRoundStartTs :=
  fun _ => Asking.alone_await node.behave _ _

theorem reads_votingEpochDurationSeconds :
    Client.votingEpochDurationSeconds.Reads node.behave node.votingEpochDurationSeconds :=
  fun _ => Asking.alone_await node.behave _ _

theorem reads_pollPending (address : JsString) (wait left i : ℕ) :
    (Client.pollPending address wait left i).Reads node.behave
      (pollPending address left fun j => node.polled wait (i + j)) := by
  -- over the rounds that are left, the rounds so far being counted
  induction left generalizing i with
  | zero => exact .throws _
  | succ left ih =>
    have shift : (fun j => node.polled wait (i + (j + 1))) =
        fun j => node.polled wait (i + 1 + j) := by
      funext j
      rw [Nat.add_assoc, Nat.add_comm 1 j]
    rw [Client.pollPending, pollPending, shift]
    exact .bind (reads_poll node .latest wait i) fun latest =>
      .bind (reads_poll node .pending wait i) fun pending => .ite (.pure ()) (ih (i + 1))

theorem reads_waitForPendingNonce (address : JsString) (wait : ℕ) :
    (Client.waitForPendingNonce address wait).Reads node.behave
      (waitForPendingNonce address (node.polled wait)) := by
  have polls := reads_pollPending node address wait 40 0
  simp only [Nat.zero_add] at polls
  exact polls

/-- What stands in the `try`. -/
theorem alone_send (transaction : ℕ → Transaction) (i : ℕ) (accepted : List Transaction) :
    (Client.send transaction i).alone node.behave accepted =
      ((node.attempts i).nonce.bind fun _ => (node.attempts i).answer,
        accepted ++ (node.attempts i).paid transaction) := by
  have written (t : Transaction) : (Client.writeContract i t).alone node.behave accepted =
      ((node.attempts i).answer, accepted ++ if (node.attempts i).accepted then [t] else []) :=
    Asking.alone_await node.behave _ _
  simp only [Client.send, Asking.alone_bind, reads_nonce node .pending i accepted, Attempt.paid]
  -- without a nonce nothing is written
  cases (node.attempts i).nonce with
  | error e => simp [Except.bind]
  | ok nonce => simp only [written, Except.bind]

theorem alone_submit (address : JsString) (transaction : GasFees → ℕ → Transaction)
    (left attempt : ℕ) (fees : GasFees) (accepted : List Transaction) :
    (Client.submit address transaction left attempt fees).alone node.behave accepted =
      let (paid, outcome) := submit address transaction left fees fun j =>
        node.attempts (attempt + j)
      (outcome, accepted ++ paid) := by
  -- over the attempts that are left; what was accepted before stays
  induction left generalizing attempt fees accepted with
  | zero => simp [Client.submit, submit]
  | succ left ih =>
    have shift : (fun j => node.attempts (attempt + (j + 1))) =
        fun j => node.attempts (attempt + 1 + j) := by
      funext j
      rw [Nat.add_assoc, Nat.add_comm 1 j]
    simp only [Client.submit, submit, Asking.alone_bind, Asking.alone_caught, alone_send,
      Nat.add_zero]
    cases (node.attempts attempt).nonce.bind fun _ => (node.attempts attempt).answer with
    | ok hash => rfl
    | error e =>
      simp only
      split
      · rfl
      · have polls : node.polled (attempt + 1) = (node.attempts attempt).polls := rfl
        simp only [Asking.alone_bind, reads_waitForPendingNonce node address (attempt + 1) _,
          polls]
        cases waitForPendingNonce address (node.attempts attempt).polls with
        | error e => rfl
        | ok _ => simp only [ih, shift, List.append_assoc]

theorem reads_conclude (fee : ℕ) (hash : Option JsString) :
    (Client.conclude fee hash).Reads node.behave (node.conclude fee hash) := by
  rw [Client.conclude, conclude]
  generalize hash.filter (fun hash => decide (hash ≠ [])) = submitted
  cases submitted with
  | none => exact .throws _
  | some hash =>
    refine .bind (reads_receipt node hash) fun receipt => .ite (.bind (.throws _) fun _ => ?_) ?_
    all_goals
      exact .bind (reads_getBlock node _) fun timestamp =>
        .bind (reads_registryAddress node _) fun _ =>
        .bind (reads_firstVotingRoundStartTs node) fun first =>
        .bind (reads_votingEpochDurationSeconds node) fun duration =>
        .ite (.bind (.throws _) fun _ => .pure _) (.pure _)

/-- A call comes to what was said of calls by what their node answers. -/
theorem alone_requestAttestation (address abiEncodedRequest : JsString)
    (accepted : List Transaction) :
    (Client.run address abiEncodedRequest).alone node.behave accepted =
      ((node.requestAttestation address abiEncodedRequest).2,
        accepted ++ (node.requestAttestation address abiEncodedRequest).1) := by
  have waited : waitForPendingNonce address (node.polled 0) =
      waitForPendingNonce address node.polls := rfl
  simp only [Client.run, Asking.alone_bind, reads_registryAddress node _ _, requestAttestation,
    prepare]
  -- question by question, in the order of the source
  cases node.registryAddress (text "FdcHub") with
  | error e => simp [bind, Except.bind]
  | ok hub =>
    simp only [bind, Except.bind]
    cases node.registryAddress (text "FdcRequestFeeConfigurations") with
    | error e => simp
    | ok configurations =>
      simp only [reads_getRequestFee node _ _]
      cases node.getRequestFee abiEncodedRequest with
      | error e => simp
      | ok fee =>
        simp only [reads_waitForPendingNonce node _ _ _, waited]
        cases waitForPendingNonce address node.polls with
        | error e => simp
        | ok _ =>
          simp only [Asking.alone_caught, reads_estimateFeesPerGas node _, alone_submit,
            Nat.zero_add, pure, Except.pure]
          generalize submit address _ 5 _ _ = submitted
          cases submitted with
          | mk paid outcome =>
            cases outcome with
            | error e => rfl
            | ok hash => exact reads_conclude node fee hash _

end Node

end Mirror.Relayer
