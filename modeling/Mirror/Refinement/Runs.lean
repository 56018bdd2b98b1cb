import Mirror.Refinement.History
import Mirror.Refinement.Settling

/-!
The chain as an escrow book. Every transaction, whoever sends it and whatever its router does, is
a sequence of moves; only a batch without proof needs moves that the book cannot explain.
-/
namespace Mirror

open Evm Escrow InstructionSender

variable {D : Deployment}

namespace Chain

/-- The tickets are the fills still open. -/
def book (c : Chain D) : Book Key Uint256 :=
  c.sys.book D (fun _ => 0) ((openExecutions c.history).map fun e => (e.fillId, ticketOf D e.fill))

def fxrpSupply (c : Chain D) : ℕ := (c.sys.ledger D.fxrpToken).totalSupply

structure Guarded (c : Chain D) : Prop where
  system : c.sys.Guarded D
  stored : c.Stored
  fits : ∀ e ∈ openExecutions c.history, e.fill.Fits D
  supply : c.fxrpSupply < 2 ^ 255

/-- The vault stays with the instruction sender and FXRP stays below 2^255. -/
structure Wired (c : Chain D) (tx : Tx D) : Prop where
  keeps : ∀ a ∈ tx.actions c.sys, a.entry.rewiresVault = false
  supply : (c.step tx).fxrpSupply < 2 ^ 255

instance (c : Chain D) (tx : Tx D) : Decidable (c.Wired tx) :=
  decidable_of_iff
    ((∀ a ∈ tx.actions c.sys, a.entry.rewiresVault = false) ∧ (c.step tx).fxrpSupply < 2 ^ 255)
    ⟨fun h => ⟨h.1, h.2⟩, fun h => ⟨h.keeps, h.supply⟩⟩

/-- If the transaction swaps, it swaps different tokens. -/
def SwapsDistinct (c : Chain D) (tx : Tx D) : Prop :=
  ∀ exec ∈ tx.matched c.sys, exec.swap.tokenIn ≠ exec.swap.tokenOut

theorem SwapsDistinct.tokens {c : Chain D} {tx : Tx D} {exec : MatchExecution}
    {r : System × Outcome} (distinct : c.SwapsDistinct tx) (performed : tx.perform c.sys = .ok r)
    (call : tx.call = .executeMatch exec) : exec.swap.tokenIn ≠ exec.swap.tokenOut :=
  distinct exec (by simp only [Tx.matched, performed, call, Option.mem_some])

/-- What the book sees of a step. -/
inductive Booked (c c' : Chain D) (tx : Tx D) : Prop
  | explained (g : ℤ) (gift : c.SwapsDistinct tx → g = gifts D D.vault (tx.actions c.sys))
      (explains : c.book.Explains g c'.book)
  | corrected (legacy : c.sys.vault.legacySettleBatchEnabled = true)
      (moves : List (Move Key Uint256)) (reaches : c.book.Reaches moves c'.book)

theorem Booked.reaches {c c' : Chain D} {tx : Tx D} (h : Booked c c' tx) :
    ∃ moves, c.book.Reaches moves c'.book := by
  cases h with
  | explained g gift explains =>
    obtain ⟨moves, reaches, -⟩ := explains
    exact ⟨moves, reaches⟩
  | corrected legacy moves reaches => exact ⟨moves, reaches⟩

/-- Without corrections no account gets more locked than it owns. -/
theorem Booked.covered {c c' : Chain D} {tx : Tx D} (h : Booked c c' tx)
    (off : c.sys.vault.legacySettleBatchEnabled = false) (covered : c.book.Covered) :
    c'.book.Covered := by
  cases h with
  | explained g gift explains =>
    obtain ⟨moves, reaches, booked, -⟩ := explains
    exact reaches.covered booked covered
  | corrected legacy =>
    -- corrections need the flag
    rw [off] at legacy
    cases legacy

/-- The ticket that a live fill redeems. -/
theorem Guarded.ticket {c : Chain D} (guarded : c.Guarded) {fillId : Uint256}
    (live : (c.sys.sender.pendingFills fillId).live = true) :
    (c.sys.sender.pendingFills fillId).Fits D ∧
      ((openExecutions c.history).map fun e => (e.fillId, ticketOf D e.fill)).find?
        (fun e => e.1 = fillId) =
        some (fillId, ticketOf D (c.sys.sender.pendingFills fillId)) := by
  obtain ⟨e, first, same⟩ := guarded.stored fillId live
  have id : e.fillId = fillId := by simpa using List.find?_some first
  rw [← same]
  refine ⟨guarded.fits e (List.mem_of_find?_eq_some first), ?_⟩
  rw [List.find?_map, Function.comp_def, first, Option.map_some, id]

/-! ### What the book sees of a transaction that goes through -/

section Steps

variable {c : Chain D} {tx : Tx D} {s : System} (guarded : c.Guarded)

include guarded

theorem booked_entry {e : Entry} (keeps : e.rewiresVault = false)
    (acts : tx.actions c.sys = [⟨tx.caller, e⟩])
    (acted : Action.perform tx.env ⟨tx.caller, e⟩ c.sys = .ok s) :
    s.Guarded D ∧ Booked c ⟨s, ⟨tx, .done⟩ :: c.history⟩ tx := by
  obtain ⟨system, book⟩ := Action.perform_explains guarded.system keeps acted (fun _ => 0)
    ((openExecutions c.history).map fun e => (e.fillId, ticketOf D e.fill))
  refine ⟨system, .explained _ (fun _ => ?_) book⟩
  rw [acts]
  simp [gifts]

/-- The new fill is bounded by the supply before and after the match. -/
theorem booked_match {exec : MatchExecution} {r : System × Outcome}
    (performed : tx.perform c.sys = .ok r) (call : tx.call = .executeMatch exec)
    (t : MatchTrace D tx.env tx.caller.addr tx.routers exec c.sys)
    (acts : tx.actions c.sys = t.reply.actions)
    (keeps : ∀ a ∈ t.reply.actions, a.entry.rewiresVault = false) {o : Outcome}
    (matched : o = .matched
      ⟨tx.hash, c.sys.sender.swapRouter, t.report.fillId, t.fill, t.reply.events⟩)
    (supply : (t.final.ledger D.fxrpToken).totalSupply < 2 ^ 255) :
    t.final.Guarded D ∧ t.fill.Fits D ∧ Booked c ⟨t.final, ⟨tx, o⟩ :: c.history⟩ tx := by
  subst matched
  obtain ⟨system, ⟨g, gift, book⟩, fits⟩ := t.explains guarded.system keeps
    ((openExecutions c.history).map fun e => (e.fillId, ticketOf D e.fill))
  refine ⟨system, fits guarded.supply supply, .explained g (fun distinct => ?_) book⟩
  rw [acts]
  exact gift (distinct.tokens performed call)

theorem booked_settlement {fillId : Uint256} {proof : Proof} {fees : List FeeAccrued}
    (acts : tx.actions c.sys = [])
    (applied : applyFdcSettlement D tx.env tx.caller.addr fillId proof c.sys = .ok (s, fees)) :
    s.Guarded D ∧ Booked c ⟨s, ⟨tx, .settled fillId proof fees⟩ :: c.history⟩ tx := by
  obtain ⟨admitted, -⟩ := applyFdcSettlement_ok.mp applied
  obtain ⟨-, -, found, unsettled, -⟩ := admitProof_ok.mp admitted
  have live : (c.sys.sender.pendingFills fillId).live = true := by
    simp [PendingFill.live, found, unsettled]
  -- a live fill has its ticket in the book, and this is the one redeemed
  obtain ⟨fits, first⟩ := guarded.ticket live
  obtain ⟨system, book⟩ := applyFdcSettlement_explains guarded.system fits _ first applied
  refine ⟨system, .explained 0 (fun _ => ?_) ?_⟩
  · rw [acts]
    rfl
  · rw [List.eraseP_map] at book
    exact book

/-- The only moves that the book cannot explain. -/
theorem booked_batch {settlements : List Settlement} {nonce : Uint256}
    (applied : InstructionSender.settleBatch D tx.caller.addr settlements nonce c.sys = .ok s) :
    s.Guarded D ∧ Booked c ⟨s, ⟨tx, .done⟩ :: c.history⟩ tx := by
  obtain ⟨i, -, written⟩ := InstructionSender.settleBatch_ok applied
  have passed := guarded.system.withSender i
  obtain ⟨custody, settled, rfl, keep⟩ := passed.onVault written
  obtain ⟨legacy, kept, moves, reaches⟩ := settleBatch_refines (fun _ => 0)
    ((openExecutions c.history).map fun e => (e.fillId, ticketOf D e.fill))
    guarded.system.custody settled
  exact ⟨keep kept, .corrected legacy moves reaches⟩

theorem booked_accruals {accruals : List FeeAccrual} {nonce : Uint256} {fees : List FeeAccrued}
    (acts : tx.actions c.sys = [])
    (applied : InstructionSender.accrueFees D tx.caller.addr accruals nonce c.sys =
      .ok (s, fees)) :
    s.Guarded D ∧ Booked c ⟨s, ⟨tx, .accrued fees⟩ :: c.history⟩ tx := by
  obtain ⟨i, -, written⟩ := InstructionSender.accrueFees_ok applied
  have passed := guarded.system.withSender i
  obtain ⟨system, ledger, vault⟩ := accrueEach_explains passed written
  refine ⟨system, .explained 0 (fun _ => ?_) ?_⟩
  · rw [acts]
    rfl
  · simp only [Chain.book, System.book, ledger, vault]
    exact .refl _

theorem booked_payout {follower lead : Address} {nonce : Uint256} (acts : tx.actions c.sys = [])
    (applied : InstructionSender.finalizeWithdrawal D tx.env tx.caller.addr follower lead nonce
      c.sys = .ok s) :
    s.Guarded D ∧ Booked c ⟨s, ⟨tx, .done⟩ :: c.history⟩ tx := by
  obtain ⟨i, -, written⟩ := InstructionSender.finalizeWithdrawal_ok applied
  have passed := guarded.system.withSender i
  obtain ⟨custody, paid, rfl, keep⟩ := passed.onVault written
  obtain ⟨valid, book, kept⟩ := finalizeWithdrawal_refines (fun _ => 0)
    ((openExecutions c.history).map fun e => (e.fillId, ticketOf D e.fill))
    guarded.system.custody paid
  refine ⟨keep kept, .explained 0 (fun _ => ?_) ?_⟩
  · rw [acts]
    rfl
  · have step := Book.Explains.single valid trivial
    rw [← book] at step
    exact step

end Steps

theorem step_books (c : Chain D) (tx : Tx D) (guarded : c.Guarded) (wired : c.Wired tx) :
    (c.step tx).Guarded ∧ Booked c (c.step tx) tx := by
  have stored := c.stored_step tx guarded.stored
  have supply := wired.supply
  rcases c.step_cases tx with ⟨e, reverted, stepped⟩ | ⟨s, o, performed, stepped⟩
  · rw [stepped] at stored supply ⊢
    refine ⟨⟨guarded.system, stored, guarded.fits, supply⟩, .explained 0 (fun _ => ?_) (.refl _)⟩
    rw [Tx.actions_reverted reverted]
    rfl
  · rw [stepped] at stored supply ⊢
    have keeps := wired.keeps
    -- only a match adds a fill, and only a settlement takes one away
    cases Tx.perform_trace performed with
    | entry e s' call acts acted =>
      rw [acts] at keeps
      obtain ⟨system, booked⟩ := booked_entry guarded (keeps _ List.mem_cons_self) acts acted
      exact ⟨⟨system, stored, guarded.fits, supply⟩, booked⟩
    | matched exec call t acts =>
      rw [acts] at keeps
      obtain ⟨system, fits, booked⟩ := booked_match guarded performed call t acts keeps rfl supply
      refine ⟨⟨system, stored, fun e member => ?_, supply⟩, booked⟩
      rcases List.mem_cons.mp member with rfl | old
      · exact fits
      · exact guarded.fits e old
    | settled fillId proof fees s' call acts applied =>
      obtain ⟨system, booked⟩ := booked_settlement guarded acts applied
      exact ⟨⟨system, stored, fun e member => guarded.fits e (List.mem_of_mem_eraseP member),
        supply⟩, booked⟩
    | batch settlements nonce s' call acts applied =>
      obtain ⟨system, booked⟩ := booked_batch guarded applied
      exact ⟨⟨system, stored, guarded.fits, supply⟩, booked⟩
    | accrued accruals nonce fees s' call acts applied =>
      obtain ⟨system, booked⟩ := booked_accruals guarded acts applied
      exact ⟨⟨system, stored, guarded.fits, supply⟩, booked⟩
    | withdrawn follower lead nonce s' call acts applied =>
      obtain ⟨system, booked⟩ := booked_payout guarded acts applied
      exact ⟨⟨system, stored, guarded.fits, supply⟩, booked⟩

/-- The vault is not taken from the instruction sender. -/
def KeepsVault (c : Chain D) (tx : Tx D) : Prop :=
  ∀ a ∈ tx.actions c.sys, a.entry.rewiresVault = false

instance (c : Chain D) (tx : Tx D) : Decidable (c.KeepsVault tx) :=
  inferInstanceAs (Decidable (∀ a ∈ tx.actions c.sys, a.entry.rewiresVault = false))

/-- Whatever goes through keeps the system guarded, as long as the vault is not rewired. -/
theorem guarded_step (c : Chain D) (tx : Tx D) (guarded : c.sys.Guarded D)
    (keeps : c.KeepsVault tx) : (c.step tx).sys.Guarded D := by
  unfold KeepsVault at keeps
  rcases c.step_cases tx with ⟨e, -, stepped⟩ | ⟨s, o, performed, stepped⟩
  · rw [stepped]
    exact guarded
  · rw [stepped]
    cases Tx.perform_trace performed with
    | entry e s' call acts acted =>
      rw [acts] at keeps
      exact (Action.perform_explains guarded (keeps _ List.mem_cons_self) acted (fun _ => 0) []).1
    | matched exec call t acts =>
      rw [acts] at keeps
      exact (t.explains guarded keeps []).1
    | settled fillId proof fees s' call acts applied =>
      obtain ⟨-, mid, vaultWrites, feeWrites⟩ := applyFdcSettlement_ok.mp applied
      have marked := guarded.withSender
        (c.sys.sender.markSettled fillId proof.data.requestBody.transactionHash)
      exact (feeLeg_explains (vaultLeg_guarded marked vaultWrites) feeWrites (fun _ => 0) []).1
    | batch settlements nonce s' call acts applied =>
      obtain ⟨i, -, written⟩ := InstructionSender.settleBatch_ok applied
      obtain ⟨custody, settled, rfl, keep⟩ := (guarded.withSender i).onVault written
      exact keep (settleBatch_refines (fun _ => 0) [] guarded.custody settled).2.1
    | accrued accruals nonce fees s' call acts applied =>
      obtain ⟨i, -, written⟩ := InstructionSender.accrueFees_ok applied
      exact (accrueEach_explains (guarded.withSender i) written).1
    | withdrawn follower lead nonce s' call acts applied =>
      obtain ⟨i, -, written⟩ := InstructionSender.finalizeWithdrawal_ok applied
      obtain ⟨custody, paid, rfl, keep⟩ := (guarded.withSender i).onVault written
      exact keep (finalizeWithdrawal_refines (fun _ => 0) [] guarded.custody paid).2.2

/-! ### Batches without proof -/

theorem onToken_vault {s s' : System} {env : External} {token who : Address}
    {c : TokenCall Address} (h : s.onToken env token who c = .ok s') : s'.vault = s.vault := by
  simp only [System.onToken, bind_ok, pure_ok] at h
  obtain ⟨_, -, rfl⟩ := h
  rfl

theorem match_legacy {s : System} {env : External} {caller : Address} {routers : Routers D}
    {exec : MatchExecution} (t : MatchTrace D env caller routers exec s)
    (keeps : ∀ a ∈ t.reply.actions, a.entry.enablesLegacy = false)
    (off : s.vault.legacySettleBatchEnabled = false) :
    t.final.vault.legacySettleBatchEnabled = false := by
  -- the flag is followed through the legs of the match
  have locked : t.locked.vault.legacySettleBatchEnabled = false := by
    rcases lockLeg_ok.mp t.lock with ⟨-, lent⟩ | ⟨-, same⟩
    · obtain ⟨c, called, same⟩ := System.onVault_ok lent
      rw [same]
      exact MirrorVault.call_legacy (.transferForExecution _ _ _) rfl off called
    · rw [same]
      exact off
  have approved : t.approved.vault.legacySettleBatchEnabled = false := by
    rw [onToken_vault t.approve]
    exact locked
  have swapped := Action.performAll_keeps (fun a : Action D => a.entry.enablesLegacy = false)
    (fun s => s.vault.legacySettleBatchEnabled = false)
    (fun a s s' allowed off done => Action.perform_legacy allowed off done) keeps approved t.acted
  rcases proceedsLeg_ok.mp t.proceeds with ⟨-, mid, approval, received⟩ | ⟨-, same⟩
  · obtain ⟨c, called, same⟩ := System.onVault_ok received
    have ready : mid.vault.legacySettleBatchEnabled = false := by
      rw [onToken_vault approval]
      exact swapped
    have booked : t.booked.vault.legacySettleBatchEnabled = false := by
      rw [same]
      exact MirrorVault.call_legacy (.receiveExecutionProceeds _) rfl ready called
    exact booked
  · have booked : t.booked.vault.legacySettleBatchEnabled = false := same ▸ swapped
    exact booked

theorem settlement_legacy {s s' : System} {env : External} {caller : Address}
    {fillId : Uint256} {proof : Proof} {fees : List FeeAccrued}
    (off : s.vault.legacySettleBatchEnabled = false)
    (h : applyFdcSettlement D env caller fillId proof s = .ok (s', fees)) :
    s'.vault.legacySettleBatchEnabled = false := by
  obtain ⟨-, mid, vaultWrites, feeWrites⟩ := applyFdcSettlement_ok.mp h
  rw [(feeLeg_frame feeWrites).2]
  rcases vaultLeg_ok.mp vaultWrites with ⟨delta, -, ⟨-, written⟩ | ⟨-, rfl⟩⟩
  · obtain ⟨c, settled, rfl⟩ := System.onVault_ok written
    rw [settleFromProof_legacy settled]
    exact off
  · exact off

/-- The flag stays off through any step that has no call switching it on. -/
theorem step_legacy (c : Chain D) (tx : Tx D) (guarded : c.Guarded)
    (keeps : ∀ a ∈ tx.actions c.sys, a.entry.enablesLegacy = false)
    (off : c.sys.vault.legacySettleBatchEnabled = false) :
    (c.step tx).sys.vault.legacySettleBatchEnabled = false := by
  rcases c.step_cases tx with ⟨e, reverted, stepped⟩ | ⟨s, o, performed, stepped⟩
  · rw [stepped]
    exact off
  · rw [stepped]
    cases Tx.perform_trace performed with
    | entry e s' call acts acted =>
      rw [acts] at keeps
      exact Action.perform_legacy (keeps _ List.mem_cons_self) off acted
    | matched exec call t acts =>
      rw [acts] at keeps
      exact match_legacy t keeps off
    | settled fillId proof fees s' call acts applied => exact settlement_legacy off applied
    | batch settlements nonce s' call acts applied =>
      obtain ⟨i, -, written⟩ := InstructionSender.settleBatch_ok applied
      obtain ⟨custody, settled, rfl⟩ := System.onVault_ok written
      obtain ⟨legacy, -⟩ := settleBatch_refines (fun _ => 0) [] guarded.system.custody settled
      -- with the flag off no batch goes through
      exact absurd legacy (by simp only [off]; decide)
    | accrued accruals nonce fees s' call acts applied =>
      obtain ⟨i, -, written⟩ := InstructionSender.accrueFees_ok applied
      have passed := guarded.system.withSender i
      rw [(accrueEach_explains passed written).2.2]
      exact off
    | withdrawn follower lead nonce s' call acts applied =>
      obtain ⟨i, -, written⟩ := InstructionSender.finalizeWithdrawal_ok applied
      obtain ⟨custody, paid, rfl⟩ := System.onVault_ok written
      exact MirrorVault.call_legacy (.finalizeWithdrawal _ _) rfl off paid

/-! ### From the deployment on -/

/-- The contracts as constructed and wired, with tokens in any hands. -/
structure Deployed (c : Chain D) : Prop where
  history : c.history = []
  vault : ∃ owner, c.sys.vault = { MirrorVault.deployed owner with instructionSender := D.sender }
  fee : ∃ owner, c.sys.fee = { MirrorFee.deployed owner with instructionSender := D.sender }
  registry : ∃ owner, c.sys.registry = MirrorRegistry.deployed owner
  sender : ∃ executor owner, c.sys.sender = InstructionSender.deployed executor owner
  closed : ∀ x ∈ [D.vault, D.fee, D.sender], ∀ token,
    (c.sys.ledger token).allowance x = fun _ => 0

theorem Deployed.stored {c : Chain D} (deployed : c.Deployed) : c.Stored := by
  obtain ⟨_, _, sender⟩ := deployed.sender
  intro i live
  simp [sender, InstructionSender.deployed, PendingFill.live] at live

theorem Deployed.numbered {c : Chain D} (deployed : c.Deployed) : c.Numbered := by
  obtain ⟨_, _, sender⟩ := deployed.sender
  refine ⟨?_, fun i => ?_, fun g => ?_⟩
  · simp [sender, InstructionSender.deployed, deployed.history, fillCount]
  · simp [sender, InstructionSender.deployed]
  · simp [sender, InstructionSender.deployed, PendingFill.live, deployed.history, openExecutions]

theorem Deployed.system {c : Chain D} (deployed : c.Deployed) : c.sys.Guarded D := by
  obtain ⟨_, vault⟩ := deployed.vault
  obtain ⟨_, fee⟩ := deployed.fee
  obtain ⟨_, registry⟩ := deployed.registry
  refine ⟨⟨?_, ?_, ?_⟩, ?_, ?_⟩
  · simp [vault]
  · exact deployed.closed _ (by simp) _
  · simp [vault, MirrorVault.deployed]
  · exact registry ▸ MirrorRegistry.deployed_sound D _
  · simp [fee, MirrorFee.Earners, MirrorFee.deployed]

theorem Deployed.guarded {c : Chain D} (deployed : c.Deployed) (supply : c.fxrpSupply < 2 ^ 255) :
    c.Guarded :=
  ⟨deployed.system, deployed.stored, by simp [deployed.history, openExecutions], supply⟩

/-- Nobody owns or owes anything yet. -/
theorem Deployed.book {c : Chain D} (deployed : c.Deployed) :
    c.book.balance = (fun _ => 0) ∧ c.book.owed = (fun _ => 0) ∧ c.book.locked = (fun _ => 0) ∧
      c.book.tickets = [] := by
  obtain ⟨_, vault⟩ := deployed.vault
  refine ⟨?_, ?_, ?_, ?_⟩
  · funext k
    simp [Chain.book, System.book, Custody.book, MirrorVault.entries, vault, MirrorVault.deployed]
  · funext k
    simp [Chain.book, System.book, Custody.book, MirrorVault.entries, vault, MirrorVault.deployed]
  · funext k
    simp [Chain.book, System.book, Custody.book, MirrorVault.entries, vault, MirrorVault.deployed]
  · simp [Chain.book, System.book, Custody.book, deployed.history, openExecutions]

theorem Deployed.off {c : Chain D} (deployed : c.Deployed) :
    c.sys.vault.legacySettleBatchEnabled = false := by
  obtain ⟨_, vault⟩ := deployed.vault
  simp [vault, MirrorVault.deployed]

theorem Deployed.covered {c : Chain D} (deployed : c.Deployed) : c.book.Covered := by
  obtain ⟨-, -, locked, -⟩ := deployed.book
  intro k
  simp [locked]

theorem Deployed.ledgered {c : Chain D} (deployed : c.Deployed) : c.book.Ledgered := by
  obtain ⟨-, -, locked, tickets⟩ := deployed.book
  intro k
  simp only [locked, Book.debits, tickets, List.map_nil, List.sum_nil]
  rfl

end Chain

theorem Sample.chain_deployed : Sample.chain.Deployed := by
  refine ⟨rfl, ⟨owner, rfl⟩, ⟨owner, rfl⟩, ⟨owner, rfl⟩, ⟨executor, owner, rfl⟩, ?_⟩
  intro x member token
  simp only [List.mem_cons, List.not_mem_nil, or_false] at member
  simp only [Sample.chain, Sample.ledger]
  split
  · rcases member with rfl | rfl | rfl <;> rfl
  · split <;> rfl

end Mirror
