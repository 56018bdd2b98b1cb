import Mirror.Refinement.Actions
import Mirror.Refinement.Record

/-!
A match as moves of the book: money is locked, the router acts, proceeds come back and a ticket
promises how the fill will be booked.
-/
namespace Mirror

open Evm Escrow InstructionSender

variable (D : Deployment)

/-- How the settlement of a fill changes its sub-account. -/
def ticketOf (fill : PendingFill) : Ticket Key where
  account := (fill.follower, fill.lead)
  debit := if fill.tokenIn = D.fxrpToken then fill.amountIn.val else 0
  credit :=
    if fill.tokenIn ≠ D.fxrpToken ∧ fill.tokenOut = D.fxrpToken then fill.amountOut.val else 0

/-- The FXRP amounts of a fill are not zero and survive the cast to `int256`. -/
structure PendingFill.Fits (fill : PendingFill) : Prop where
  amountIn : fill.tokenIn = D.fxrpToken → fill.amountIn ≠ 0 ∧ fill.amountIn.val < 2 ^ 255
  amountOut : fill.tokenOut = D.fxrpToken → fill.amountOut ≠ 0 ∧ fill.amountOut.val < 2 ^ 255

/-- Locks in the middle of a match: the money is gone, the fill is not recorded yet. -/
def midway (exec : MatchExecution) : Key → ℕ :=
  if exec.swap.tokenIn = D.fxrpToken then
    Function.update (fun _ => 0) (exec.follower, exec.lead) exec.swap.amountIn.val
  else fun _ => 0

variable {D} {env : External} {caller : Address} {s s' : System} {exec : MatchExecution}

theorem System.onVault_ok {f : Custody → Except Revert Custody} (h : s.onVault f = .ok s') :
    ∃ c, f ⟨s.ledger, s.vault⟩ = .ok c ∧
      s' = { s with
        ledger := c.ledger
        vault := c.vault } := by
  simp only [System.onVault, bind_ok, pure_ok] at h
  obtain ⟨c, called, rfl⟩ := h
  exact ⟨c, called, rfl⟩

theorem System.Guarded.onVault {f : Custody → Except Revert Custody} (guarded : s.Guarded D)
    (h : s.onVault f = .ok s') : ∃ c, f ⟨s.ledger, s.vault⟩ = .ok c ∧
      s' = { s with
        ledger := c.ledger
        vault := c.vault } ∧ (c.Guarded D → s'.Guarded D) := by
  obtain ⟨c, called, rfl⟩ := System.onVault_ok h
  exact ⟨c, called, rfl, fun custody => ⟨custody, guarded.registry, guarded.earners⟩⟩

/-- A token call by the instruction sender can only bring FXRP to the vault. -/
theorem onToken_explains {token : Address} {c : TokenCall Address} (guarded : s.Guarded D)
    (h : s.onToken env token D.sender c = .ok s') (loose : Key → ℕ)
    (tickets : List (Uint256 × Ticket Key)) :
    s'.Guarded D ∧ (s.book D loose tickets).Explains
      (if token = D.fxrpToken then c.inflow D.vault else 0 : ℕ) (s'.book D loose tickets) := by
  simp only [System.onToken, bind_ok, pure_ok] at h
  obtain ⟨L', called, rfl⟩ := h
  obtain ⟨custody, book⟩ := guarded.custody.drift called D.sender_ne_vault loose tickets
  exact ⟨⟨custody, guarded.registry, guarded.earners⟩, book⟩

theorem approve_explains {token spender : Address} {n : ℕ} (guarded : s.Guarded D)
    (h : s.onToken env token D.sender (.approve spender n) = .ok s') (loose : Key → ℕ)
    (tickets : List (Uint256 × Ticket Key)) :
    s'.Guarded D ∧ (s.book D loose tickets).Explains 0 (s'.book D loose tickets) := by
  simpa [TokenCall.inflow] using onToken_explains guarded h loose tickets

theorem lockLeg_explains (guarded : s.Guarded D)
    (h : lockLeg D env exec.follower exec.lead exec.swap.tokenIn exec.swap.amountIn s = .ok s')
    (tickets : List (Uint256 × Ticket Key)) :
    s'.Guarded D ∧ (s.book D (fun _ => 0) tickets).Explains 0 (s'.book D (midway D exec) tickets) ∧
      (exec.swap.tokenIn = D.fxrpToken → exec.swap.amountIn ≠ 0 ∧
        exec.swap.amountIn.val ≤ (s.ledger D.fxrpToken).balanceOf D.vault) := by
  rcases lockLeg_ok.mp h with ⟨inFxrp, lent⟩ | ⟨other, rfl⟩
  -- the vault pays and the lock is loose until the fill is recorded
  · obtain ⟨c, locked, rfl, keep⟩ := guarded.onVault lent
    obtain ⟨positive, valid, book, guarded'⟩ :=
      transferForExecution_refines (fun _ => 0) tickets guarded.custody locked
    have opened : midway D exec = Function.update (fun _ => 0) (exec.follower, exec.lead)
        (0 + exec.swap.amountIn.val) := by
      simp only [midway, inFxrp, if_true, Nat.zero_add]
    refine ⟨keep guarded', ?_, fun _ => ⟨positive, valid.2⟩⟩
    have step := Book.Explains.single valid trivial
    rw [← book, ← opened] at step
    exact step
  -- the vault is not asked
  · refine ⟨guarded, ?_, fun h => absurd h other⟩
    simp only [midway, other, if_false]
    exact Book.Explains.refl _

/-- Recording the fill closes what the lock left open. -/
theorem issue_closes (exec : MatchExecution) (amountOut : Uint256) (b : Book Key Uint256)
    (id : Uint256) (opened : b.loose = midway D exec) :
    b.Valid (.issue id (ticketOf D (newFill exec amountOut))) ∧
      (b.apply (.issue id (ticketOf D (newFill exec amountOut)))).loose = fun _ => 0 := by
  by_cases inFxrp : exec.swap.tokenIn = D.fxrpToken
  · simp only [Book.Valid, Book.apply, opened, ticketOf, newFill, midway, inFxrp, if_true,
      Function.update_self, le_refl, Nat.sub_self, true_and, Function.update_idem]
    exact Function.update_eq_self _ _
  · simp only [Book.Valid, Book.apply, opened, ticketOf, newFill, midway, inFxrp, if_false,
      Nat.zero_le, Nat.sub_zero, true_and]
    exact Function.update_eq_self _ _

/-- With different tokens the proceeds are what the ticket promises; FXRP swapped for FXRP stays
in the vault as a gift. -/
theorem proceedsLeg_explains {amountOut : Uint256} (guarded : s.Guarded D)
    (h : proceedsLeg D env exec.swap.tokenOut amountOut s = .ok s') (id : Uint256)
    (tickets : List (Uint256 × Ticket Key)) :
    s'.Guarded D ∧
      (∃ g, (exec.swap.tokenIn ≠ exec.swap.tokenOut → g = 0) ∧
        (s.book D (midway D exec) tickets).Explains g
          (s'.book D (fun _ => 0) ((id, ticketOf D (newFill exec amountOut)) :: tickets))) ∧
      (exec.swap.tokenOut = D.fxrpToken → amountOut ≠ 0 ∧
        amountOut.val ≤ (s'.ledger D.fxrpToken).balanceOf D.vault) := by
  rcases proceedsLeg_ok.mp h with ⟨outFxrp, mid, approved, received⟩ | ⟨other, rfl⟩
  · obtain ⟨guarded, approval⟩ := approve_explains guarded approved (midway D exec) tickets
    obtain ⟨c, pulled, rfl, keep⟩ := guarded.onVault received
    obtain ⟨positive, -, book, guarded'⟩ :=
      receiveExecutionProceeds_refines (midway D exec) tickets guarded.custody pulled
    have cash := congrArg Book.cash book
    simp only [Custody.book, Book.apply] at cash
    refine ⟨keep guarded', ?_, fun _ => ⟨positive, by simp only; omega⟩⟩
    by_cases inFxrp : exec.swap.tokenIn = D.fxrpToken
    · -- the vault receives what no ticket promises
      refine ⟨amountOut.val, fun distinct => (distinct (inFxrp.trans outFxrp.symm)).elim, ?_⟩
      obtain ⟨valid, closed⟩ := issue_closes exec amountOut
        (c.book D (midway D exec) tickets) id rfl
      have issued : System.book D { mid with
            ledger := c.ledger
            vault := c.vault } (fun _ => 0)
          ((id, ticketOf D (newFill exec amountOut)) :: tickets) =
          (c.book D (midway D exec) tickets).apply
            (.issue id (ticketOf D (newFill exec amountOut))) := by
        rw [System.book, Custody.book, ← closed]
        simp [Book.apply, Custody.book, ticketOf, newFill, inFxrp]
      have step := Book.Explains.single (b := mid.book D (midway D exec) tickets)
        (m := .receive amountOut.val) trivial trivial
      have close := Book.Explains.single valid trivial
      rw [book] at close issued
      rw [issued]
      simpa [Move.gift] using approval.trans (step.trans close)
    · refine ⟨0, fun _ => rfl, ?_⟩
      obtain ⟨valid, closed⟩ := issue_closes exec amountOut
        (mid.book D (midway D exec) tickets) id rfl
      -- receiving changes the till only, by what the ticket promises
      have entries := book
      simp only [Custody.book, Book.apply, Book.mk.injEq] at entries
      obtain ⟨balance, owed, locked, -, -, -⟩ := entries
      have issued : System.book D { mid with
            ledger := c.ledger
            vault := c.vault } (fun _ => 0)
          ((id, ticketOf D (newFill exec amountOut)) :: tickets) =
          (mid.book D (midway D exec) tickets).apply
            (.issue id (ticketOf D (newFill exec amountOut))) := by
        rw [System.book, Custody.book, ← closed]
        simp [System.book, Book.apply, Custody.book, ticketOf, newFill, inFxrp, outFxrp, balance,
          owed, locked, cash]
      rw [issued]
      simpa [Move.gift] using approval.trans (Book.Explains.single valid trivial)
  -- a fill that buys another token promises nothing
  · refine ⟨guarded, ⟨0, fun _ => rfl, ?_⟩, fun h => absurd h other⟩
    obtain ⟨valid, closed⟩ := issue_closes exec amountOut
      (s'.book D (midway D exec) tickets) id rfl
    have issued : s'.book D (fun _ => 0)
        ((id, ticketOf D (newFill exec amountOut)) :: tickets) =
        (s'.book D (midway D exec) tickets).apply
          (.issue id (ticketOf D (newFill exec amountOut))) := by
      rw [System.book, Custody.book, ← closed]
      simp [System.book, Book.apply, Custody.book, ticketOf, newFill, other]
    rw [issued]
    exact Book.Explains.single valid trivial

/-- FXRP that the calls send to `x` directly. -/
def gifts (D : Deployment) (x : Address) (actions : List (Action D)) : ℤ :=
  (actions.map fun a => (a.entry.gift D x : ℤ)).sum

/-- A match locks, lets the router act, and issues one ticket. -/
theorem MatchTrace.explains {routers : Routers D} (t : MatchTrace D env caller routers exec s)
    (guarded : s.Guarded D) (keeps : ∀ a ∈ t.reply.actions, a.entry.rewiresVault = false)
    (tickets : List (Uint256 × Ticket Key)) :
    t.final.Guarded D ∧
      (∃ g, (exec.swap.tokenIn ≠ exec.swap.tokenOut → g = gifts D D.vault t.reply.actions) ∧
        (s.book D (fun _ => 0) tickets).Explains g
          (t.final.book D (fun _ => 0) ((t.report.fillId, ticketOf D t.fill) :: tickets))) ∧
      ((s.ledger D.fxrpToken).totalSupply < 2 ^ 255 →
        (t.final.ledger D.fxrpToken).totalSupply < 2 ^ 255 → t.fill.Fits D) := by
  -- lock, approval, router, proceeds: each leg starts where the one before it ended
  obtain ⟨locked, lock, afford⟩ := lockLeg_explains guarded t.lock tickets
  obtain ⟨approved, approve⟩ := approve_explains locked t.approve (midway D exec) tickets
  obtain ⟨swapped, acted⟩ :=
    Action.performAll_explains approved keeps t.acted (midway D exec) tickets
  obtain ⟨booked, ⟨g, spare, proceeds⟩, arrived⟩ :=
    proceedsLeg_explains swapped t.proceeds t.report.fillId tickets
  refine ⟨⟨booked.custody, booked.registry, booked.earners⟩,
    ⟨0 + 0 + gifts D D.vault t.reply.actions + g, ?_, ?_⟩, fun before after => ⟨?_, ?_⟩⟩
  · intro distinct
    rw [spare distinct]
    omega
  · exact ((lock.trans approve).trans acted).trans proceeds
  -- an amount that moved is within the supply
  · intro inFxrp
    obtain ⟨positive, enough⟩ := afford inFxrp
    exact ⟨positive, lt_of_le_of_lt (enough.trans (Token.balance_le_supply _ _)) before⟩
  · intro outFxrp
    obtain ⟨positive, enough⟩ := arrived outFxrp
    exact ⟨positive, lt_of_le_of_lt (enough.trans (Token.balance_le_supply _ _)) after⟩

end Mirror
