import Mirror.Refinement.Attestation

/-! Attestations of one process never share a nonce: its calls ask the node one after the other. -/
namespace Mirror.Relayer

open Js

/-- What an account sees of a node that only this process writes to: the number of its transactions
is told as it is, only a transaction that is written changes it, and it never falls. -/
structure Counting {σ : Type} (node : (q : Question) → σ → Except Thrown q.Answer × σ)
    (pending : σ → ℕ) : Prop where
  told : ∀ place s (n : ℕ), (node (.getTransactionCount .pending place) s).1 = .ok n →
    n = pending s
  read : ∀ q s, (∀ attempt transaction, q ≠ .writeContract attempt transaction) →
    pending (node q s).2 = pending s
  grows : ∀ attempt transaction s,
    pending s ≤ pending (node (.writeContract attempt transaction) s).2

/-! ### Every write follows a count -/

/-- A transaction is written with the number that was asked for last, and after that not again. -/
def countFirst : Asking.Protocol Question Question.Answer Thrown (Option ℕ) where
  may known q :=
    match q with
    | .writeContract _ transaction => known = some transaction.nonce
    | _ => True
  learn known q a :=
    match q, a with
    | .getTransactionCount .pending _, .ok n => some n
    | .writeContract _ _, _ => none
    | _, _ => known

namespace Client

open Asking (Keeps)

theorem pollPending_keeps (address : JsString) (wait left i : ℕ) (known : Option ℕ) :
    Keeps countFirst known (pollPending address wait left i) := by
  -- over the rounds that are left; each of them only reads
  induction left generalizing i known with
  | zero => trivial
  | succ left ih =>
    refine Keeps.bind (Keeps.await trivial) fun k latest =>
      Keeps.bind (Keeps.await trivial) fun k pending => ?_
    split
    · trivial
    · exact ih (i + 1) k

theorem send_keeps {transaction : ℕ → Transaction} (numbered : ∀ n, (transaction n).nonce = n)
    (attempt : ℕ) (known : Option ℕ) : Keeps countFirst known (send transaction attempt) := by
  refine ⟨trivial, fun a => ?_⟩
  -- the nonce is asked for in the `try` and used in the very next question
  cases a with
  | error e => trivial
  | ok n => exact Keeps.await (show some n = some _ by rw [numbered n])

theorem submit_keeps (address : JsString) {transaction : GasFees → ℕ → Transaction}
    (numbered : ∀ fees n, (transaction fees n).nonce = n) (left attempt : ℕ) (fees : GasFees)
    (known : Option ℕ) :
    Keeps countFirst known (submit address transaction left attempt fees) := by
  -- over the attempts that are left; a failed one forgets the nonce
  induction left generalizing attempt fees known with
  | zero => trivial
  | succ left ih =>
    refine Keeps.bind (send_keeps (numbered fees) attempt known).caught fun k sent => ?_
    cases sent with
    | ok hash => trivial
    | error e =>
      simp only
      split
      · trivial
      · exact Keeps.bind (pollPending_keeps address (attempt + 1) 40 0 k) fun k _ =>
          ih (attempt + 1) fees.bump k

theorem conclude_keeps (fee : ℕ) (hash : Option JsString) (known : Option ℕ) :
    Keeps countFirst known (conclude fee hash) := by
  unfold conclude
  split
  · trivial
  · refine Keeps.bind (Keeps.await trivial) fun k receipt => ?_
    split
    · trivial
    · refine Keeps.bind (Keeps.await trivial) fun k timestamp =>
        Keeps.bind (Keeps.await trivial) fun k _ => Keeps.bind (Keeps.await trivial) fun k first =>
        Keeps.bind (Keeps.await trivial) fun k duration => ?_
      split <;> trivial

theorem run_keeps (address abiEncodedRequest : JsString) (known : Option ℕ) :
    Keeps countFirst known (run address abiEncodedRequest) := by
  refine Keeps.bind (Keeps.await trivial) fun k hub => Keeps.bind (Keeps.await trivial) fun k _ =>
    Keeps.bind (Keeps.await trivial) fun k fee =>
    Keeps.bind (pollPending_keeps address 0 40 0 k) fun k _ =>
    Keeps.bind (Keeps.await (q := Question.estimateFeesPerGas) trivial).caught fun k estimate =>
    Keeps.bind (submit_keeps address (fun _ _ => rfl) 5 0 _ k) fun k hash =>
    conclude_keeps fee hash k

end Client

/-! ### What is written -/

section

variable {σ : Type} {node : (q : Question) → σ → Except Thrown q.Answer × σ} {pending : σ → ℕ}

/-- Each transaction has the number of those before it, and the next ones come after it. -/
structure Numbered (pending : σ → ℕ) (s : σ × List Written) : Prop where
  each : ∀ w ∈ s.2, w.transaction.nonce = w.before ∧ w.before ≤ w.after ∧ w.after ≤ pending s.1
  order : s.2.Pairwise fun w w' => w.after ≤ w'.before

/-- What is known of the count is so. -/
def Knows (pending : σ → ℕ) (known : Option ℕ) (s : σ × List Written) : Prop :=
  Numbered pending s ∧ ∀ n, known = some n → pending s.1 = n

theorem Numbered.read {s : σ × List Written} (numbered : Numbered pending s) {n : σ}
    (same : pending n = pending s.1) : Numbered pending (n, s.2) :=
  ⟨fun w member => same ▸ numbered.each w member, numbered.order⟩

theorem Numbered.write {s : σ × List Written} (numbered : Numbered pending s)
    {transaction : Transaction} (counted : transaction.nonce = pending s.1) {n : σ}
    (grows : pending s.1 ≤ pending n) :
    Numbered pending (n, s.2 ++ [⟨transaction, pending s.1, pending n⟩]) := by
  constructor
  · intro w member
    rcases List.mem_append.mp member with old | new
    · obtain ⟨nonce, up, below⟩ := numbered.each w old
      exact ⟨nonce, up, below.trans grows⟩
    · cases List.mem_singleton.mp new
      exact ⟨counted, grows, le_refl _⟩
  -- the new transaction comes after all that were written before
  · refine List.pairwise_append.mpr ⟨numbered.order, List.pairwise_singleton _ _, ?_⟩
    intro w old w' new
    cases List.mem_singleton.mp new
    exact (numbered.each w old).2.2

/-- What is not a write leaves what was true of the count. -/
theorem Knows.read (counting : Counting node pending) {known learnt : Option ℕ} {q : Question}
    {s : σ × List Written} (knows : Knows pending known s)
    (unwritten : ∀ attempt transaction, q ≠ .writeContract attempt transaction)
    (told : ∀ n, learnt = some n → pending s.1 = n) :
    Knows pending learnt ((node q s.1).2, s.2) := by
  have same := counting.read q s.1 unwritten
  exact ⟨knows.1.read same, fun n here => same.trans (told n here)⟩

/-- One question. -/
theorem Knows.recorded (counting : Counting node pending) (known : Option ℕ) (q : Question)
    (s : σ × List Written) (knows : Knows pending known s) (may : countFirst.may known q) :
    Knows pending (countFirst.learn known q (recorded node pending q s).1)
      (recorded node pending q s).2 := by
  -- a write uses up what is known, a pending count renews it, other questions keep it
  cases q with
  | writeContract attempt transaction =>
    have counted : transaction.nonce = pending s.1 := (knows.2 _ may).symm
    refine ⟨knows.1.write counted (counting.grows attempt transaction s.1), fun n absurd => ?_⟩
    cases absurd
  | getTransactionCount blockTag place =>
    refine knows.read counting (by simp) fun n learnt => ?_
    cases blockTag with
    | latest => exact knows.2 n learnt
    | pending =>
      cases answer : (node (.getTransactionCount .pending place) s.1).1 with
      | error e =>
        rw [Relayer.recorded, answer] at learnt
        exact knows.2 n learnt
      | ok told =>
        rw [Relayer.recorded, answer] at learnt
        have now : told = n := Option.some.inj learnt
        exact now ▸ (counting.told place s.1 told answer).symm
  | registryAddress | getRequestFee | estimateFeesPerGas | waitForTransactionReceipt | getBlock
  | firstVotingRoundStartTs | votingEpochDurationSeconds =>
    exact knows.read counting (fun _ _ write => by cases write) knows.2

theorem made_turns (address : JsString) (events : List (Desk.Event JsString)) :
    Gate.made (events.map (turn node pending address)) = (Desk.requests events).map fun r =>
      (Client.run address r).task (recorded node pending) := by
  induction events with
  | nil => rfl
  | cons e events ih => cases e <;> simp [turn, Gate.made, Desk.requests, ih]

end

/-- In whatever order calls are made and answers come back: calls are never under way together and
come to what they come to one after the other, whoever waits is answered, each transaction is
written with the number of the account's transactions at that moment, and none with a nonce that a
transaction before it has taken. -/
theorem attestations_take_turns {σ : Type}
    {node : (q : Question) → σ → Except Thrown q.Answer × σ} {pending : σ → ℕ}
    (counting : Counting node pending) (address : JsString) (s : σ)
    (events : List (Desk.Event JsString)) :
    let g := gateAfter node pending address s events
    let alone := Gate.replay (s, []) ((Desk.requests events).map fun r =>
      (Client.run address r).task (recorded node pending))
    (∀ w ∈ g.shared.2, w.transaction.nonce = w.before) ∧
    g.shared.2.Pairwise (fun w w' => w.before < w.after →
      w.transaction.nonce < w'.transaction.nonce) ∧
    (∀ (i j : ℕ) a b, g.calls[i]? = some (.running a) → g.calls[j]? = some (.running b) → i = j) ∧
    (∀ (k : ℕ) r, g.calls[k]? = some (.settled r) → alone.1[k]? = some r) ∧
    ∃ answers : List ℕ, gateAfter node pending address s (events ++ answers.map .advance) =
      ⟨alone.2, alone.1.map .settled⟩ := by
  intro g alone
  have serial := Gate.serial_run (Gate.serial_start (s, []))
    (events.map (turn node pending address))
  rw [List.nil_append, made_turns] at serial
  have start : Numbered pending (s, []) :=
    ⟨fun w member => absurd member List.not_mem_nil, List.Pairwise.nil⟩
  -- each call keeps the numbering, whatever it knew when it began
  have held : Gate.Held (Numbered pending) g := by
    refine (Gate.held_start start).run (Gate.serial_start _) _ fun fn made s numbered => ?_
    rw [made_turns] at made
    obtain ⟨r, -, rfl⟩ := List.mem_map.mp made
    exact (Client.run_keeps address r none).always (fun known s knows => knows.1)
      (Knows.recorded counting) ⟨numbered, fun n absurd => by cases absurd⟩
  refine ⟨fun w member => (held.now.each w member).1, ?_, fun i j a b => serial.running_unique,
    fun k r settled => (serial.settled settled).1, ?_⟩
  · refine held.now.order.imp_of_mem fun {w w'} member member' order taken => ?_
    rw [(held.now.each w member).1, (held.now.each w' member').1]
    omega
  · obtain ⟨answers, ends⟩ := serial.completes
    refine ⟨answers, ?_⟩
    have later : (answers.map Desk.Event.advance).map (turn node pending address) =
        answers.map .advance := by
      rw [List.map_map]
      rfl
    rw [gateAfter, List.map_append, Evm.run_append, later, ends]

namespace Sample

/-- A node without pending transactions, which takes every one. -/
def node : (q : Question) → ℕ → Except Thrown q.Answer × ℕ
  | .registryAddress _, s => (.ok (text "0x01"), s)
  | .getRequestFee _, s => (.ok (10 : ℕ), s)
  | .getTransactionCount _ _, s => (.ok s, s)
  | .estimateFeesPerGas, s => (.ok ⟨none, none⟩, s)
  | .writeContract _ _, s => (.ok (text "0x02"), s + 1)
  | .waitForTransactionReceipt _, s => (.ok ⟨text "success", 5⟩, s)
  | .getBlock _, s => (.ok (1000 : ℕ), s)
  | .firstVotingRoundStartTs, s => (.ok (100 : ℕ), s)
  | .votingEpochDurationSeconds, s => (.ok (90 : ℕ), s)

theorem node_counting : Counting node id where
  told _ s n counted := (Except.ok.inj counted).symm
  read q s unwritten := by
    cases q with
    | writeContract attempt transaction => exact absurd rfl (unwritten attempt transaction)
    | _ => rfl
  grows _ _ s := Nat.le_succ s

/-- Two calls, one right after the other. -/
def calls : List (Desk.Event JsString) := [.request (text "a"), .request (text "b"), .advance 0]

end Sample

theorem attestations_take_turns_calls :
    ∃ answers : List ℕ, gateAfter Sample.node id (text "0x03") 7
        (Sample.calls ++ answers.map .advance) =
      ⟨(Gate.replay (7, []) ((Desk.requests Sample.calls).map fun r =>
          (Client.run (text "0x03") r).task (recorded Sample.node id))).2,
        (Gate.replay (7, []) ((Desk.requests Sample.calls).map fun r =>
          (Client.run (text "0x03") r).task (recorded Sample.node id))).1.map .settled⟩ :=
  (attestations_take_turns Sample.node_counting (text "0x03") 7 Sample.calls).2.2.2.2

end Mirror.Relayer
