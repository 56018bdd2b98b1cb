import Mirror.Contracts.System
import Mirror.Refinement.Custody
import Mirror.Refinement.Treasury

/-!
What outsiders can do through the unguarded entry points, alone or in the middle of a match:
deposit, ask for withdrawals, and move their own tokens.
-/
namespace Mirror

open Evm Escrow

/-- Calls that would take the vault away from the instruction sender. -/
def Entry.rewiresVault : Entry → Bool
  | .vault (.setInstructionSender _) => true
  | _ => false

def Entry.rewiresFee : Entry → Bool
  | .fee (.setInstructionSender _) => true
  | _ => false

def Entry.enablesLegacy : Entry → Bool
  | .vault (.setLegacySettleBatchEnabled enabled) => enabled
  | _ => false

/-- Tokens `t` that the call sends to `x` directly. -/
def Entry.inflow (t x : Address) : Entry → ℕ
  | .token address c => if address = t then c.inflow x else 0
  | _ => 0

/-- FXRP that the call sends to `x` directly. -/
def Entry.gift (D : Deployment) (x : Address) (e : Entry) : ℕ := e.inflow D.fxrpToken x

namespace System

/-- The vault is guarded and whoever is owed money, there or in the fee contract, is an outsider. -/
structure Guarded (D : Deployment) (s : System) : Prop where
  custody : Custody.Guarded D ⟨s.ledger, s.vault⟩
  registry : s.registry.Sound D
  earners : s.fee.Earners D

/-- The instruction sender's own storage does not matter. -/
theorem Guarded.withSender {D : Deployment} {s : System} (guarded : s.Guarded D)
    (i : InstructionSender) : Guarded D { s with sender := i } :=
  ⟨guarded.custody, guarded.registry, guarded.earners⟩

def book (D : Deployment) (s : System) (loose : Key → ℕ) (tickets : List (Uint256 × Ticket Key)) :
    Book Key Uint256 :=
  Custody.book D ⟨s.ledger, s.vault⟩ loose tickets

end System

variable {D : Deployment} {env : External} {s s' : System}

/-! ### Vault calls by outsiders -/

section VaultCalls

variable {c c' : Custody} {who : Outsider D}

/-- An outsider's call deposits, asks for a withdrawal, or only changes settings. -/
theorem MirrorVault.call_outsider {op : VaultCall} (guarded : c.Guarded D)
    (keeps : Entry.rewiresVault (.vault op) = false)
    (h : MirrorVault.call D env who.addr c op = .ok c') (loose : Key → ℕ)
    (tickets : List (Uint256 × Ticket Key)) :
    c'.Guarded D ∧ (c.book D loose tickets).Explains 0 (c'.book D loose tickets) := by
  -- a setting other than the wiring shows nowhere in the book
  have settings (setting : op.isSetting = true)
      (other : ∀ sender, op ≠ .setInstructionSender sender) :
      c'.Guarded D ∧ (c.book D loose tickets).Explains 0 (c'.book D loose tickets) := by
    obtain ⟨ledger, accounts, wired, -⟩ := MirrorVault.call_setting setting h
    have same (field : SubAccount → Uint256) : entries field c'.vault = entries field c.vault := by
      unfold entries
      rw [accounts]
    have unchanged : c'.book D loose tickets = c.book D loose tickets := by
      simp only [Custody.book, same, ledger]
    rw [unchanged]
    exact ⟨⟨(wired other).trans guarded.wired, ledger ▸ guarded.closed,
      fun f l => accounts ▸ guarded.payees f l⟩, Book.Explains.refl _⟩
  cases op with
  | deposit lead amount =>
    simp only [MirrorVault.call, deposit, bind_ok] at h
    obtain ⟨_, -, credited⟩ := h
    obtain ⟨book, guarded'⟩ := credit_refines loose tickets who.ne_vault guarded credited
    exact ⟨guarded', book ▸ Book.Explains.single (m := .deposit _ _) trivial trivial⟩
  | depositFor follower lead amount =>
    simp only [MirrorVault.call, depositFor, bind_ok] at h
    obtain ⟨_, -, _, -, _, -, credited⟩ := h
    obtain ⟨book, guarded'⟩ := credit_refines loose tickets who.ne_vault guarded credited
    exact ⟨guarded', book ▸ Book.Explains.single (m := .deposit _ _) trivial trivial⟩
  | requestWithdrawal lead amount =>
    obtain ⟨valid, book, guarded'⟩ :=
      requestWithdrawal_refines loose tickets who.outside guarded h
    exact ⟨guarded', book ▸ Book.Explains.single valid trivial⟩
  | transferForExecution | settleFromProof | receiveExecutionProceeds | settleBatch
  | finalizeWithdrawal =>
    -- the entry points of the instruction sender are closed to outsiders
    exact absurd ((MirrorVault.call_guarded rfl h).trans guarded.wired) who.ne_sender
  | setInstructionSender sender => simp [Entry.rewiresVault] at keeps
  | setFsaOnboarder | setLegacySettleBatchEnabled | transferOwnership | renounceOwnership =>
    exact settings rfl (by simp)

theorem settleFromProof_legacy {caller follower lead : Address} {delta : Int256}
    (h : MirrorVault.settleFromProof caller follower lead delta c = .ok c') :
    c'.vault.legacySettleBatchEnabled = c.vault.legacySettleBatchEnabled := by
  obtain ⟨-, -, -, settled⟩ := settleFromProof_ok.mp h
  rcases settled with ⟨-, _, _, -, -, -, rfl⟩ | ⟨-, _, -, rfl⟩ | ⟨-, rfl⟩ <;> rfl

/-- The flag for batches without proof only comes on through its setter. -/
theorem MirrorVault.call_legacy {caller : Address} (op : VaultCall)
    (keeps : Entry.enablesLegacy (.vault op) = false)
    (off : c.vault.legacySettleBatchEnabled = false)
    (h : MirrorVault.call D env caller c op = .ok c') :
    c'.vault.legacySettleBatchEnabled = false := by
  cases op with
  | deposit lead amount =>
    simp only [MirrorVault.call, deposit, credit, bind_ok, pure_ok] at h
    obtain ⟨_, -, _, -, _, -, rfl⟩ := h
    exact off
  | depositFor follower lead amount =>
    simp only [MirrorVault.call, depositFor, credit, bind_ok, pure_ok] at h
    obtain ⟨_, -, _, -, _, -, _, -, _, -, rfl⟩ := h
    exact off
  | requestWithdrawal lead amount =>
    simp only [MirrorVault.call, requestWithdrawal, bind_ok, pure_ok] at h
    obtain ⟨_, -, _, -, _, -, _, -, _, -, rfl⟩ := h
    exact off
  | transferForExecution follower lead amount =>
    simp only [MirrorVault.call, transferForExecution, bind_ok, pure_ok] at h
    obtain ⟨_, -, _, -, _, -, _, -, _, -, _, -, rfl⟩ := h
    exact off
  | settleFromProof follower lead delta =>
    rw [settleFromProof_legacy h]
    exact off
  | receiveExecutionProceeds amount =>
    simp only [MirrorVault.call, receiveExecutionProceeds, bind_ok, pure_ok] at h
    obtain ⟨_, -, _, -, _, -, rfl⟩ := h
    exact off
  | settleBatch settlements =>
    simp only [MirrorVault.call, settleBatch, bind_ok, revertIf_ok] at h
    -- a batch that goes through shows that the flag was on
    obtain ⟨_, -, _, on, -⟩ := h
    exact absurd off on
  | finalizeWithdrawal follower lead =>
    simp only [MirrorVault.call, finalizeWithdrawal, bind_ok, pure_ok] at h
    obtain ⟨_, -, _, -, _, -, rfl⟩ := h
    exact off
  | setLegacySettleBatchEnabled enabled =>
    simp only [MirrorVault.call, MirrorVault.setLegacySettleBatchEnabled, bind_ok, pure_ok] at h
    obtain ⟨_, -, rfl⟩ := h
    exact keeps
  | setInstructionSender | setFsaOnboarder | transferOwnership | renounceOwnership =>
    rw [(MirrorVault.call_setting rfl h).legacy (by simp)]
    exact off

end VaultCalls

/-! ### Any call by an outsider -/

/-- Somebody else's token call can only bring FXRP to the vault. -/
theorem Custody.Guarded.drift {L L' : Ledger} {v : MirrorVault} {token who : Address}
    {c : TokenCall Address} (guarded : Custody.Guarded D ⟨L, v⟩)
    (called : L.call env token who c = .ok L') (other : who ≠ D.vault) (loose : Key → ℕ)
    (tickets : List (Uint256 × Ticket Key)) :
    Custody.Guarded D ⟨L', v⟩ ∧
      (Custody.book D ⟨L, v⟩ loose tickets).Explains
        (if token = D.fxrpToken then c.inflow D.vault else 0 : ℕ)
        (Custody.book D ⟨L', v⟩ loose tickets) := by
  have closed : (L D.fxrpToken).allowance D.vault who = 0 := congrFun guarded.closed who
  obtain ⟨cash, row⟩ := Ledger.call_bystander called other closed
  -- whatever the call was, to the book it is a gift
  have book : Custody.book D ⟨L', v⟩ loose tickets =
      (Custody.book D ⟨L, v⟩ loose tickets).apply
        (.receive (if token = D.fxrpToken then c.inflow D.vault else 0)) := by
    simp only [Custody.book, Book.apply, cash]
  refine ⟨⟨guarded.wired, row.trans guarded.closed, guarded.payees⟩, ?_⟩
  rw [book]
  exact Book.Explains.single trivial trivial

namespace Action

variable {a : Action D}

/-- A call by an outsider keeps the system guarded; to the book it is a few moves and the gift it
brings. -/
theorem perform_explains (guarded : s.Guarded D) (keeps : a.entry.rewiresVault = false)
    (h : a.perform env s = .ok s') (loose : Key → ℕ) (tickets : List (Uint256 × Ticket Key)) :
    s'.Guarded D ∧
      (s.book D loose tickets).Explains (a.entry.gift D D.vault) (s'.book D loose tickets) := by
  cases performed h with
  | token who address c ledger called =>
    obtain ⟨custody, book⟩ := guarded.custody.drift called who.ne_vault loose tickets
    exact ⟨⟨custody, guarded.registry, guarded.earners⟩, book⟩
  | vault who op c called =>
    obtain ⟨custody, book⟩ := MirrorVault.call_outsider guarded.custody keeps called loose tickets
    exact ⟨⟨custody, guarded.registry, guarded.earners⟩, book⟩
  | fee who op t called =>
    obtain ⟨earners, still | ⟨lead, n, outside, paid⟩⟩ :=
      MirrorFee.call_earners guarded.registry guarded.earners called
    · obtain ⟨ledger, fee⟩ := t
      simp only at still earners
      subst still
      exact ⟨⟨guarded.custody, guarded.registry, earners⟩, Book.Explains.refl _⟩
    · -- a lead is paid: the vault is neither the payer nor the payee
      obtain ⟨custody, book⟩ := guarded.custody.drift paid D.fee_ne_vault loose tickets
      simp only [TokenCall.inflow, if_neg (D.ne_vault outside), ite_self] at book
      exact ⟨⟨custody, guarded.registry, earners⟩, book⟩
  | registry who op r called =>
    have sound := MirrorRegistry.call_sound D who _ _ _ guarded.registry called
    exact ⟨⟨guarded.custody, sound, guarded.earners⟩, Book.Explains.refl _⟩
  | sender =>
    exact ⟨⟨guarded.custody, guarded.registry, guarded.earners⟩, Book.Explains.refl _⟩

theorem perform_legacy (keeps : a.entry.enablesLegacy = false)
    (off : s.vault.legacySettleBatchEnabled = false) (h : a.perform env s = .ok s') :
    s'.vault.legacySettleBatchEnabled = false := by
  cases performed h with
  | vault who op c called => exact MirrorVault.call_legacy op keeps off called
  | token | fee | registry | sender => exact off

theorem performAll_explains {actions : List (Action D)} (guarded : s.Guarded D)
    (keeps : ∀ a ∈ actions, a.entry.rewiresVault = false)
    (h : performAll env actions s = .ok s') (loose : Key → ℕ)
    (tickets : List (Uint256 × Ticket Key)) :
    s'.Guarded D ∧
      (s.book D loose tickets).Explains (actions.map fun a => (a.entry.gift D D.vault : ℤ)).sum
        (s'.book D loose tickets) := by
  -- induction on the calls; the gifts add up
  induction actions generalizing s with
  | nil =>
    rw [performAll, pure_ok] at h
    subst h
    exact ⟨guarded, Book.Explains.refl _⟩
  | cons a rest ih =>
    simp only [performAll, bind_ok] at h
    obtain ⟨mid, first, tail⟩ := h
    obtain ⟨guarded', book⟩ :=
      perform_explains guarded (keeps a List.mem_cons_self) first loose tickets
    obtain ⟨guarded'', book'⟩ :=
      ih guarded' (fun b member => keeps b (List.mem_cons_of_mem _ member)) tail
    exact ⟨guarded'', book.trans book'⟩

end Action

end Mirror
