import Mathlib.Algebra.BigOperators.Group.Finset.Piecewise
import Mathlib.Algebra.Order.BigOperators.Group.Finset
import Mathlib.Data.Fintype.BigOperators
import Mirror.Evm.Run
import Mirror.Evm.Token

/-!
Two-phase escrow over arbitrary accounts. Money is first locked and leaves, a ticket then
promises how the trade will be booked, and redeeming the ticket books it.
-/
namespace Escrow

open Evm

/-- How a trade changes its account once it is proved. -/
structure Ticket (K : Type) where
  account : K
  debit : ℕ
  credit : ℕ
  deriving DecidableEq

/-- `loose` counts locks that no ticket covers yet, `cash` is what the escrow really holds. -/
structure Book (K I : Type) where
  balance : K → ℕ
  owed : K → ℕ
  locked : K → ℕ
  loose : K → ℕ
  cash : ℕ
  tickets : List (I × Ticket K)

inductive Move (K I : Type)
  | deposit (k : K) (n : ℕ)
  | receive (n : ℕ)
  | request (k : K) (n : ℕ)
  | payout (k : K)
  | lock (k : K) (n : ℕ)
  | issue (i : I) (t : Ticket K)
  | redeem (i : I) (t : Ticket K)
  | adjust (k : K) (n : ℕ)

/-- A move that only books what the escrow itself did, not an outside correction. -/
def Move.Booked {K I : Type} : Move K I → Prop
  | .adjust _ _ => False
  | _ => True

/-- Money that arrives without being anybody's. -/
def Move.gift {K I : Type} : Move K I → ℤ
  | .receive n => n
  | _ => 0

/-- The sum of `f` over what is left after the first match goes, and over that match. -/
theorem sum_map_eraseP {α : Type} (f : α → ℕ) (p : α → Bool) (l : List α) (x : α)
    (first : l.find? p = some x) : ((l.eraseP p).map f).sum + f x = (l.map f).sum := by
  -- induction on the list: the first match is the head or lies in the tail
  induction l with
  | nil => simp at first
  | cons a l ih =>
    cases ha : p a with
    | true =>
      rw [List.find?_cons_of_pos ha, Option.some.injEq] at first
      subst first
      rw [List.eraseP_cons_of_pos ha, List.map_cons, List.sum_cons, Nat.add_comm]
    | false =>
      rw [List.find?_cons_of_neg (by simp [ha])] at first
      rw [List.eraseP_cons_of_neg (by simp [ha]), List.map_cons, List.map_cons, List.sum_cons,
        List.sum_cons, Nat.add_assoc, ih first]

namespace Book

section Moves

variable {K I : Type} [DecidableEq K] [DecidableEq I]

/-- When the escrow accepts a move. -/
def Valid (b : Book K I) : Move K I → Prop
  | .deposit _ _ | .receive _ | .adjust _ _ => True
  | .request k n => b.locked k + n ≤ b.balance k
  | .payout k => b.owed k ≤ b.cash
  | .lock k n => b.locked k + n ≤ b.balance k ∧ n ≤ b.cash
  | .issue _ t => t.debit ≤ b.loose t.account
  -- a ticket is redeemed against the lock and the balance behind it
  | .redeem i t => b.tickets.find? (fun e => e.1 = i) = some (i, t) ∧
      t.debit ≤ b.locked t.account ∧ t.debit ≤ b.balance t.account

def apply (b : Book K I) : Move K I → Book K I
  | .deposit k n =>
    { b with
      balance := Function.update b.balance k (b.balance k + n)
      cash := b.cash + n }
  | .receive n => { b with cash := b.cash + n }
  | .request k n =>
    { b with
      balance := Function.update b.balance k (b.balance k - n)
      owed := Function.update b.owed k (b.owed k + n) }
  | .payout k =>
    { b with
      owed := Function.update b.owed k 0
      cash := b.cash - b.owed k }
  | .lock k n =>
    { b with
      locked := Function.update b.locked k (b.locked k + n)
      loose := Function.update b.loose k (b.loose k + n)
      cash := b.cash - n }
  -- a ticket covers a lock that was loose and brings its proceeds into the till
  | .issue i t =>
    { b with
      loose := Function.update b.loose t.account (b.loose t.account - t.debit)
      cash := b.cash + t.credit
      tickets := (i, t) :: b.tickets }
  | .redeem i t =>
    { b with
      balance := Function.update b.balance t.account (b.balance t.account - t.debit + t.credit)
      locked := Function.update b.locked t.account (b.locked t.account - t.debit)
      tickets := b.tickets.eraseP (fun e => e.1 = i) }
  | .adjust k n => { b with balance := Function.update b.balance k n }

/-- `moves` lead from `b` to `b'`, each valid where it is made. -/
def Reaches (b : Book K I) (moves : List (Move K I)) (b' : Book K I) : Prop :=
  Admissible apply Valid b moves ∧ run apply b moves = b'

theorem Reaches.refl (b : Book K I) : b.Reaches [] b := ⟨trivial, rfl⟩

theorem Reaches.single {b : Book K I} {m : Move K I} (valid : b.Valid m) :
    b.Reaches [m] (b.apply m) := ⟨⟨valid, trivial⟩, rfl⟩

theorem Reaches.trans {b b' b'' : Book K I} {ms ms' : List (Move K I)} (h : b.Reaches ms b')
    (h' : b'.Reaches ms' b'') : b.Reaches (ms ++ ms') b'' := by
  obtain ⟨valid, rfl⟩ := h
  obtain ⟨valid', rfl⟩ := h'
  exact ⟨(admissible_append _ _ _ _).mpr ⟨valid, valid'⟩, run_append _ _ _⟩

/-- Booked moves lead from `b` to `b'` and bring in `gift` on the way. -/
def Explains (b : Book K I) (gift : ℤ) (b' : Book K I) : Prop :=
  ∃ moves, b.Reaches moves b' ∧ (∀ m ∈ moves, m.Booked) ∧ (moves.map Move.gift).sum = gift

theorem Explains.refl (b : Book K I) : b.Explains 0 b :=
  ⟨[], Reaches.refl b, by simp, rfl⟩

theorem Explains.single {b : Book K I} {m : Move K I} (valid : b.Valid m) (booked : m.Booked) :
    b.Explains m.gift (b.apply m) :=
  ⟨[m], Reaches.single valid, by simpa using booked, by simp⟩

theorem Explains.trans {b b' b'' : Book K I} {g g' : ℤ} (h : b.Explains g b')
    (h' : b'.Explains g' b'') : b.Explains (g + g') b'' := by
  obtain ⟨ms, reaches, booked, gift⟩ := h
  obtain ⟨ms', reaches', booked', gift'⟩ := h'
  refine ⟨ms ++ ms', reaches.trans reaches', ?_, by simp [gift, gift']⟩
  intro m hm
  rcases List.mem_append.mp hm with left | right
  · exact booked m left
  · exact booked' m right

/-! ### Locks -/

/-- What the open tickets of `k` will debit. -/
def debits (b : Book K I) (k : K) : ℕ :=
  (b.tickets.map fun e => if e.2.account = k then e.2.debit else 0).sum

/-- Every lock is loose or belongs to exactly one open ticket. -/
def Ledgered (b : Book K I) : Prop :=
  ∀ k, b.locked k = b.loose k + b.debits k

/-- No account has more locked than it owns. -/
def Covered (b : Book K I) : Prop :=
  ∀ k, b.locked k ≤ b.balance k

theorem ledgered_step (b : Book K I) (m : Move K I) (ledgered : b.Ledgered) (valid : b.Valid m) :
    (b.apply m).Ledgered := by
  intro k
  have hk := ledgered k
  cases m with
  | deposit | receive | request | payout | adjust => exact hk
  -- a new lock is loose until a ticket covers it
  | lock k' n =>
    by_cases h : k = k'
    · subst h
      simp only [apply, debits, Function.update_self] at hk ⊢
      omega
    · simpa [apply, debits, h] using hk
  -- the loose part of the lock becomes the debit of the ticket
  | issue i t =>
    simp only [Valid] at valid
    by_cases h : k = t.account
    · subst h
      simp only [apply, debits, Function.update_self, List.map_cons, List.sum_cons, if_true]
        at hk ⊢
      omega
    · simpa [apply, debits, h, Ne.symm h] using hk
  | redeem i t =>
    -- the ticket leaves the list and its debit leaves the lock
    obtain ⟨first, enough, -⟩ := valid
    have erased := sum_map_eraseP (fun e : I × Ticket K => if e.2.account = k then e.2.debit else 0)
      _ _ _ first
    by_cases h : k = t.account
    · subst h
      simp only [apply, debits, Function.update_self, if_true] at hk erased ⊢
      omega
    · simp only [if_neg (Ne.symm h)] at erased
      simp only [apply, debits, Function.update_of_ne h] at hk ⊢
      omega

theorem covered_at_step (b : Book K I) (m : Move K I) (k : K) (covered : b.locked k ≤ b.balance k)
    (valid : b.Valid m) (booked : m.Booked) : (b.apply m).locked k ≤ (b.apply m).balance k := by
  cases m with
  | receive | payout | issue => exact covered
  -- an outside correction may take what is locked
  | adjust => exact booked.elim
  | deposit k' n =>
    by_cases h : k = k'
    · subst h
      simp only [apply, Function.update_self]
      omega
    · simpa [apply, h] using covered
  | request k' n =>
    simp only [Valid] at valid
    by_cases h : k = k'
    · subst h
      simp only [apply, Function.update_self]
      omega
    · simpa [apply, h] using covered
  | lock k' n =>
    simp only [Valid] at valid
    by_cases h : k = k'
    · subst h
      simp only [apply, Function.update_self]
      omega
    · simpa [apply, h] using covered
  -- lock and balance fall by the same debit
  | redeem i t =>
    by_cases h : k = t.account
    · subst h
      simp only [apply, Function.update_self]
      omega
    · simpa [apply, h] using covered

/-- An open ticket is backed by locks on its account. -/
theorem debit_le_locked (b : Book K I) (ledgered : b.Ledgered) (i : I) (t : Ticket K)
    (first : b.tickets.find? (fun e => e.1 = i) = some (i, t)) :
    t.debit ≤ b.locked t.account := by
  have erased := sum_map_eraseP
    (fun e : I × Ticket K => if e.2.account = t.account then e.2.debit else 0) _ _ _ first
  have := ledgered t.account
  simp only [debits, if_true] at *
  omega

theorem Reaches.ledgered {b b' : Book K I} {ms : List (Move K I)} (h : b.Reaches ms b')
    (ledgered : b.Ledgered) : b'.Ledgered := by
  obtain ⟨valid, rfl⟩ := h
  exact run_invariant (fun b m inv ok => ledgered_step b m inv ok) b ledgered ms valid

theorem Reaches.covered_at {b b' : Book K I} {ms : List (Move K I)} (h : b.Reaches ms b')
    (booked : ∀ m ∈ ms, m.Booked) (k : K) (covered : b.locked k ≤ b.balance k) :
    b'.locked k ≤ b'.balance k := by
  obtain ⟨valid, rfl⟩ := h
  -- induction on the moves; each is valid where it is made
  induction ms generalizing b with
  | nil => exact covered
  | cons m ms ih =>
    exact ih (fun m' hm => booked m' (List.mem_cons_of_mem _ hm))
      (covered_at_step b m k covered valid.1 (booked m List.mem_cons_self)) valid.2

theorem Reaches.covered {b b' : Book K I} {ms : List (Move K I)} (h : b.Reaches ms b')
    (booked : ∀ m ∈ ms, m.Booked) (covered : b.Covered) : b'.Covered :=
  fun k => h.covered_at booked k (covered k)

end Moves

/-! ### Solvency -/

section Solvency

variable {K I : Type} [DecidableEq K] [DecidableEq I] [Fintype K]

/-- What the accounts are owed today, locked money having left already. -/
def claims (b : Book K I) : ℤ :=
  ∑ k, ((b.balance k : ℤ) + b.owed k - b.locked k)

/-- Proceeds that arrived for tickets still open. -/
def proceeds (b : Book K I) : ℕ := (b.tickets.map fun e => e.2.credit).sum

/-- Cash beyond what the books explain. -/
def surplus (b : Book K I) : ℤ := b.cash - b.claims - b.proceeds

/-- Replacing one account's entries moves the claims by the difference. -/
theorem sum_entries (f g : K → ℤ) (k : K) (same : ∀ x, x ≠ k → g x = f x) :
    ∑ x, g x = ∑ x, f x + (g k - f k) := by
  have updated : g = Function.update f k (g k) := by
    funext x
    by_cases h : x = k
    · subst h; simp
    · simp [h, same x h]
  have := sum_update f k (g k)
  rw [← updated] at this
  omega

theorem surplus_step (b : Book K I) (m : Move K I) (valid : b.Valid m) (booked : m.Booked) :
    (b.apply m).surplus = b.surplus + m.gift := by
  -- each move touches one account, whose entry moves the claims by the difference
  have entries (b' : Book K I) (k : K)
      (same : ∀ x, x ≠ k → b'.balance x = b.balance x ∧ b'.owed x = b.owed x ∧
        b'.locked x = b.locked x) :=
    sum_entries (fun x => (b.balance x : ℤ) + b.owed x - b.locked x)
      (fun x => (b'.balance x : ℤ) + b'.owed x - b'.locked x) k
      (fun x hx => by obtain ⟨h1, h2, h3⟩ := same x hx; simp only [h1, h2, h3])
  cases m with
  | receive n =>
    simp only [surplus, apply, claims, proceeds, Move.gift, Nat.cast_add]
    omega
  | adjust => exact booked.elim
  | deposit k n =>
    have moved := entries (b.apply (.deposit k n)) k (fun x hx => by simp [apply, hx])
    simp only [apply, Function.update_self] at moved
    simp only [surplus, apply, claims, proceeds, Move.gift]
    omega
  -- from one entry of the account to another: the claims stay
  | request k n =>
    simp only [Valid] at valid
    have moved := entries (b.apply (.request k n)) k (fun x hx => by simp [apply, hx])
    simp only [apply, Function.update_self] at moved
    simp only [surplus, apply, claims, proceeds, Move.gift]
    omega
  | payout k =>
    simp only [Valid] at valid
    have moved := entries (b.apply (.payout k)) k (fun x hx => by simp [apply, hx])
    simp only [apply, Function.update_self] at moved
    simp only [surplus, apply, claims, proceeds, Move.gift]
    omega
  -- locked money is no claim any more, and it leaves the till
  | lock k n =>
    simp only [Valid] at valid
    have moved := entries (b.apply (.lock k n)) k (fun x hx => by simp [apply, hx])
    simp only [apply, Function.update_self] at moved
    simp only [surplus, apply, claims, proceeds, Move.gift]
    omega
  -- the proceeds of the ticket explain the cash that came in with it
  | issue i t =>
    simp only [surplus, apply, claims, proceeds, Move.gift, List.map_cons, List.sum_cons,
      Nat.cast_add]
    omega
  | redeem i t =>
    obtain ⟨first, enough, afford⟩ := valid
    have moved := entries (b.apply (.redeem i t)) t.account (fun x hx => by simp [apply, hx])
    have erased := sum_map_eraseP (fun e : I × Ticket K => e.2.credit) _ _ _ first
    simp only [apply, Function.update_self] at moved
    simp only [surplus, apply, claims, proceeds, Move.gift]
    simp only at erased
    omega

/-- Over a run the surplus grows by the gifts alone. -/
theorem Reaches.surplus {b b' : Book K I} {ms : List (Move K I)} (h : b.Reaches ms b')
    (booked : ∀ m ∈ ms, m.Booked) : b'.surplus = b.surplus + (ms.map Move.gift).sum := by
  obtain ⟨valid, rfl⟩ := h
  induction ms generalizing b with
  | nil => simp
  | cons m ms ih =>
    rw [run_cons, ih (fun m' hm => booked m' (List.mem_cons_of_mem _ hm)) valid.2,
      surplus_step b m valid.1 (booked m List.mem_cons_self), List.map_cons, List.sum_cons,
      add_assoc]

omit [DecidableEq K] [DecidableEq I] in
/-- With locks covered and a surplus, everything an account could ask for is in the till. -/
theorem claim_le_cash (b : Book K I) (covered : b.Covered) (solvent : 0 ≤ b.surplus) (k : K) :
    b.balance k + b.owed k ≤ b.cash + b.locked k := by
  -- no account has a negative claim, so one claim is at most their sum
  have term : (b.balance k : ℤ) + b.owed k - b.locked k ≤ b.claims :=
    Finset.single_le_sum (f := fun k => (b.balance k : ℤ) + b.owed k - b.locked k)
      (fun x _ => by have := covered x; omega) (Finset.mem_univ k)
  simp only [surplus] at solvent
  omega

end Solvency

end Book

end Escrow
