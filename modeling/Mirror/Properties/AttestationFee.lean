import Mathlib.Data.List.Dedup
import Mirror.Relayer.AttestationRequest

/-!
How often an attestation is paid for. An attempt that ends with an error of a nonce race is made
again under another nonce, so whether the fee is paid twice is up to the errors that a node may
answer with after it has accepted the transaction.
-/
namespace Mirror.Relayer

open Js

/-- These are the errors that the node may answer a transaction with that it has accepted. -/
def Node.Loses (node : Node) (lost : Thrown → Prop) : Prop :=
  ∀ i e, (node.attempts i).accepted = true → (node.attempts i).answer = .error e → lost e

/-- The nonces under which the call's transactions are paid for: one nonce, one transaction. -/
def Node.payments (node : Node) (address abiEncodedRequest : JsString) : List ℕ :=
  ((node.requestAttestation address abiEncodedRequest).1.map Transaction.nonce).dedup

theorem Attempt.paid_length_le (attempt : Attempt) (transaction : ℕ → Transaction) :
    (attempt.paid transaction).length ≤ 1 := by
  unfold Attempt.paid
  split
  · split <;> simp
  · simp

/-- An attempt that is made again has not been paid for, where no such error is lost. -/
theorem Attempt.paid_eq_nil {attempt : Attempt} {transaction : ℕ → Transaction} {e : Thrown}
    (ended : (attempt.nonce.bind fun _ => attempt.answer) = .error e)
    (refused : attempt.accepted = true → attempt.answer ≠ .error e) :
    attempt.paid transaction = [] := by
  unfold Attempt.paid
  cases asked : attempt.nonce with
  | error _ => rfl
  | ok nonce =>
    rw [asked] at ended
    exact if_neg fun accepted => refused accepted ended

/-- However many attempts are left, at most one transaction of them is accepted. -/
theorem submit_length_le {lost : Thrown → Prop} (kept : ∀ e, lost e → isNonceRace e = false)
    (address : JsString) (transaction : GasFees → ℕ → Transaction) (left : ℕ) (fees : GasFees)
    (attempts : ℕ → Attempt)
    (loses : ∀ i e, (attempts i).accepted = true → (attempts i).answer = .error e → lost e) :
    (submit address transaction left fees attempts).1.length ≤ 1 := by
  induction left generalizing fees attempts with
  | zero => simp [submit]
  | succ left ih =>
    have once := (attempts 0).paid_length_le (transaction fees)
    unfold submit
    split
    · exact once
    next e ended =>
      split
      · exact once
      next again =>
        split
        · exact once
        -- the error is one of a nonce race, so that nothing was accepted before it
        · have race : isNonceRace e = true := by simpa using (not_or.mp again).1
          have unpaid : (attempts 0).paid (transaction fees) = [] := by
            refine Attempt.paid_eq_nil ended fun accepted answered => ?_
            rw [kept e (loses 0 e accepted answered)] at race
            cases race
          simpa only [unpaid, List.nil_append] using
            ih fees.bump (fun i => attempts (i + 1)) fun i => loses (i + 1)

/-- At most one transaction of a call is accepted. -/
theorem requestAttestation_length_le {lost : Thrown → Prop}
    (kept : ∀ e, lost e → isNonceRace e = false) {node : Node} (loses : node.Loses lost)
    (address abiEncodedRequest : JsString) :
    (node.requestAttestation address abiEncodedRequest).1.length ≤ 1 := by
  unfold Node.requestAttestation
  split
  · simp
  · exact submit_length_le kept address _ 5 _ _ loses

/-- A node that answers the first transaction with this error after it has accepted it. -/
def racingNode (e : Thrown) : Node where
  registryAddress _ := .ok []
  getRequestFee _ := .ok 10
  polls _ := ⟨.ok 7, .ok 7⟩
  estimate := .ok ⟨none, none⟩
  attempts
    | 0 => ⟨.ok 7, true, .error e, fun _ => ⟨.ok 8, .ok 8⟩⟩
    | _ => ⟨.ok 8, true, .ok (text "0x02"), fun _ => ⟨.ok 9, .ok 9⟩⟩
  receipt _ := .ok ⟨text "success", 100⟩
  timestamp _ := .ok 1000
  firstVotingRoundStartTs := .ok 100
  votingEpochDurationSeconds := .ok 90

theorem racingNode_loses (e : Thrown) : (racingNode e).Loses (· = e) := by
  intro i e' accepted answered
  cases i with
  | zero => exact (Except.error.inj answered).symm
  | succ i => cases answered

theorem waitForPendingNonce_clear (address : JsString) {polls : ℕ → Counts} {n : ℕ}
    (clear : polls 0 = ⟨.ok n, .ok n⟩) : waitForPendingNonce address polls = .ok () := by
  simp only [waitForPendingNonce, pollPending, clear]
  exact if_pos le_rfl

/-- After an error of a nonce race that node is paid once more. -/
theorem racingNode_paid {e : Thrown} (race : isNonceRace e = true)
    (address abiEncodedRequest : JsString) :
    (racingNode e).payments address abiEncodedRequest = [7, 8] := by
  have prepared : (racingNode e).prepare address abiEncodedRequest = .ok ([], 10) := by
    have waited : waitForPendingNonce address (racingNode e).polls = .ok () :=
      waitForPendingNonce_clear address rfl
    simp only [Node.prepare, waited]
    rfl
  have submitted (transaction : GasFees → ℕ → Transaction) (fees : GasFees) :
      (submit address transaction 5 fees (racingNode e).attempts).1 =
        [transaction fees 7, transaction fees.bump 8] := by
    have waited : waitForPendingNonce address ((racingNode e).attempts 0).polls = .ok () :=
      waitForPendingNonce_clear address rfl
    simp only [submit, waited]
    simp [racingNode, race, Attempt.paid, Except.bind]
  simp [Node.payments, Node.requestAttestation, prepared, submitted]

theorem payments_length_le (node : Node) (address abiEncodedRequest : JsString) :
    (node.payments address abiEncodedRequest).length ≤
      (node.requestAttestation address abiEncodedRequest).1.length := by
  rw [← List.length_map Transaction.nonce]
  exact (List.dedup_sublist _).length_le

/-- A call has at most one transaction accepted, or is paid for at most once, whatever the node
does, exactly if no error that it may answer an accepted transaction with is one of a nonce race. -/
theorem attestation_paid_once_iff (lost : Thrown → Prop) (address abiEncodedRequest : JsString) :
    ((∀ node : Node, node.Loses lost →
        (node.requestAttestation address abiEncodedRequest).1.length ≤ 1) ↔
      ∀ e, lost e → isNonceRace e = false) ∧
    ((∀ node : Node, node.Loses lost → (node.payments address abiEncodedRequest).length ≤ 1) ↔
      ∀ e, lost e → isNonceRace e = false) := by
  have necessary (paid : ∀ node : Node, node.Loses lost →
      (node.payments address abiEncodedRequest).length ≤ 1) (e : Thrown) (possible : lost e) :
      isNonceRace e = false := by
    by_contra race
    have loses : (racingNode e).Loses lost := by
      intro i e' accepted answered
      rwa [racingNode_loses e i e' accepted answered]
    have once := paid (racingNode e) loses
    rw [racingNode_paid (by simpa using race)] at once
    exact absurd once (by decide)
  refine ⟨⟨fun accepted => necessary fun node loses => ?_, fun kept node loses => ?_⟩,
    necessary, fun kept node loses => ?_⟩
  · exact (payments_length_le node _ _).trans (accepted node loses)
  · exact requestAttestation_length_le kept loses address abiEncodedRequest
  · exact (payments_length_le node _ _).trans (requestAttestation_length_le kept loses _ _)

/-- The node already knows the first transaction, and the fee is paid under a second nonce. -/
theorem attestation_paid_twice :
    ¬∀ (node : Node) (address abiEncodedRequest : JsString),
      (node.payments address abiEncodedRequest).length ≤ 1 := by
  intro once
  have race : isNonceRace (.error (text "already known") none) = true := by decide +kernel
  have bound := once (racingNode (.error (text "already known") none)) [] []
  rw [racingNode_paid race] at bound
  exact absurd bound (by decide)

end Mirror.Relayer
