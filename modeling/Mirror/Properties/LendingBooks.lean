import Mirror.Refinement.Lending

/-!
The books of the lending pool. Its totals are the sums of its accounts, its tokens what the totals
call for and what it was given, and while price and threshold stay a sound account stays sound.
-/
namespace Mirror

open Evm Credit MockKineticPool

section

variable {kinetic : Kinetic}

/-- The books of a pool that nobody else can spend for. -/
structure Lending.Booked (kinetic : Kinetic) (l : Lending) : Prop where
  closed : l.ledger.Unapproved kinetic.asset kinetic.pool
  supply : ∑ user, (l.pool.supplyBalance user).val = l.pool.totalSupply.val
  borrow : ∑ user, (l.pool.borrowBalance user).val = l.pool.totalBorrow.val
  covered : l.pool.totalSupply.val ≤
    (l.ledger kinetic.asset).balanceOf kinetic.pool + l.pool.totalBorrow.val

/-- What the pool holds beyond what it owes its suppliers. -/
def Lending.surplus (kinetic : Kinetic) (l : Lending) : ℕ :=
  (l.ledger kinetic.asset).balanceOf kinetic.pool + l.pool.totalBorrow.val - l.pool.totalSupply.val

theorem Lending.Moves.booked {l l' : Lending} {c : Change Address} (moves : l.Moves kinetic l' c)
    (booked : l.Booked kinetic) : l'.Booked kinetic ∧ l'.surplus kinetic = l.surplus kinetic := by
  have supplied := moves.makes.collateral_sum
  have borrowed := moves.makes.debt_sum
  simp only [positions, positionsOf, booked.supply, booked.borrow] at supplied borrowed
  have := moves.supply
  have := moves.borrow
  have := moves.cash
  have := booked.covered
  -- sums, totals and tokens move by the same amounts
  refine ⟨⟨moves.closed, by omega, by omega, by omega⟩, ?_⟩
  unfold Lending.surplus
  omega

theorem Lending.Tuned.booked {l l' : Lending} (tuned : l.Tuned l') (booked : l.Booked kinetic) :
    l'.Booked kinetic ∧ l'.surplus kinetic = l.surplus kinetic := by
  have columns (user : Address) := Position.mk.inj (congrFun tuned.positions user)
  refine ⟨⟨?_, ?_, ?_, ?_⟩, ?_⟩
  · rw [tuned.ledger]
    exact booked.closed
  · simp only [columns, tuned.supply, booked.supply]
  · simp only [columns, tuned.borrow, booked.borrow]
  · rw [tuned.ledger, tuned.supply, tuned.borrow]
    exact booked.covered
  · unfold Lending.surplus
    rw [tuned.ledger, tuned.supply, tuned.borrow]

theorem step_booked (l : Lending) (op : KineticOp kinetic) (booked : l.Booked kinetic) :
    (l.step op).Booked kinetic ∧
      (l.step op).surplus kinetic = l.surplus kinetic + l.donation op := by
  cases op with
  | call env caller c =>
    simp only [Lending.step, Lending.donation, Nat.add_zero]
    cases done : MockKineticPool.call kinetic env caller.addr l c with
    | error e => exact ⟨booked, rfl⟩
    | ok l' =>
      rcases call_moves booked.closed done with tuned | ⟨change, moves⟩
      · exact tuned.booked booked
      · exact moves.booked booked
  | token op =>
    obtain ⟨closed, received⟩ := booked.closed.apply op
    have covered := booked.covered
    simp only [Lending.step, Lending.donation, Lending.surplus, received]
    exact ⟨⟨closed, booked.supply, booked.borrow, by simp only [received]; omega⟩, by omega⟩

/-- While price and threshold stay, a sound account stays sound. -/
theorem step_sound (l : Lending) (op : KineticOp kinetic) (booked : l.Booked kinetic)
    (same : (l.step op).pool.terms = l.pool.terms) {user : Address}
    (sound : l.pool.terms.Sound (l.pool.positions user)) :
    l.pool.terms.Sound ((l.step op).pool.positions user) := by
  cases op with
  | call env caller c =>
    simp only [Lending.step] at same ⊢
    cases done : MockKineticPool.call kinetic env caller.addr l c with
    | error e => exact sound
    | ok l' =>
      rcases call_moves booked.closed done with tuned | ⟨change, moves⟩
      · simp only [tuned.positions]
        exact sound
      · exact moves.makes.sound sound
  | token op => exact sound

theorem run_sound (l : Lending) (later : List (KineticOp kinetic)) (booked : l.Booked kinetic)
    (steady : ∀ done, done <+: later → (run Lending.step l done).pool.terms = l.pool.terms)
    {user : Address} (sound : l.pool.terms.Sound (l.pool.positions user)) :
    (run Lending.step l later).pool.terms.Sound
      ((run Lending.step l later).pool.positions user) := by
  refine run_steady (fun s => s.pool.terms) (fun s => s.pool.terms.Sound (s.pool.positions user))
    (fun s op booked => (step_booked s op booked).1) (fun s op booked same sound => ?_) l booked
    later steady sound
  rw [same]
  exact step_sound s op booked same sound

/-- No subtraction on the totals can fail: not what repaying takes off the debt, and not what
liquidating then takes off the supply. -/
theorem Lending.Booked.totals_suffice {l : Lending} (booked : l.Booked kinetic) (user : Address)
    (amount : Uint256) :
    ∃ p, l.pool.reduceDebt user (capped amount (l.pool.borrowBalance user)) = .ok p ∧
      ∀ pay, ∃ total,
        checkedSub p.totalSupply (capped pay (p.supplyBalance user)) = some total := by
  have owed := capped_le amount (l.pool.borrowBalance user)
  -- no account owes more than all of them together
  have borrowed : (l.pool.borrowBalance user).val ≤ l.pool.totalBorrow.val := by
    rw [← booked.borrow]
    exact val_le_sum l.pool.borrowBalance user
  have supplied : (l.pool.supplyBalance user).val ≤ l.pool.totalSupply.val := by
    rw [← booked.supply]
    exact val_le_sum l.pool.supplyBalance user
  obtain ⟨debt, left⟩ := checkedSub_of_le owed
  obtain ⟨total, less⟩ := checkedSub_of_le (owed.trans borrowed)
  have paid : l.pool.reduceDebt user (capped amount (l.pool.borrowBalance user)) =
      .ok { l.pool with
        borrowBalance := Function.update l.pool.borrowBalance user debt
        totalBorrow := total } := by
    simp only [reduceDebt, left, less]
    rfl
  exact ⟨_, paid, fun pay => checkedSub_of_le ((capped_le pay _).trans supplied)⟩

end

/-- The totals are the sums of the accounts, and the pool holds what its suppliers are owed and not
lent out, with what it was given. No subtraction on the totals fails, and while price and threshold
stay, an account that owes nothing or has the ratio called for cannot be liquidated. -/
theorem lending_books_balance (kinetic : Kinetic) (owner : Address) (start : Lending)
    (fresh : start.pool = deployed owner)
    (closed : start.ledger.Unapproved kinetic.asset kinetic.pool) (ops : List (KineticOp kinetic))
    (l : Lending) (reached : run Lending.step start ops = l) :
    ∑ user, (l.pool.supplyBalance user).val = l.pool.totalSupply.val ∧
      ∑ user, (l.pool.borrowBalance user).val = l.pool.totalBorrow.val ∧
      (l.ledger kinetic.asset).balanceOf kinetic.pool + l.pool.totalBorrow.val =
        l.pool.totalSupply.val + ((start.ledger kinetic.asset).balanceOf kinetic.pool +
          accumulate Lending.step Lending.donation start ops) ∧
      (∀ user amount, ∃ p,
        l.pool.reduceDebt user (capped amount (l.pool.borrowBalance user)) = .ok p ∧
        ∀ pay, ∃ total,
          checkedSub p.totalSupply (capped pay (p.supplyBalance user)) = some total) ∧
      ∀ later : List (KineticOp kinetic),
        (∀ done, done <+: later → (run Lending.step l done).pool.priceWei = l.pool.priceWei ∧
          (run Lending.step l done).pool.liquidationThresholdBps =
            l.pool.liquidationThresholdBps) →
        ∀ user, (l.pool.borrowBalance user = 0 ∨ ∃ ratio,
          l.pool.getCollateralRatioBps user = .ok ratio ∧
          l.pool.liquidationThresholdBps.val ≤ ratio.val) →
        (run Lending.step l later).pool.isLiquidatable user ≠ .ok true := by
  have opened : start.Booked kinetic := by
    refine ⟨closed, ?_, ?_, ?_⟩ <;> rw [fresh] <;> simp [deployed]
  have booked := run_keeps (fun l op booked => (step_booked l op booked).1) start opened ops
  have surplus := run_gains (fun l op booked => (step_booked l op booked).1)
    (fun l op booked => (step_booked l op booked).2) start opened ops
  rw [reached] at booked surplus
  have covered := booked.covered
  have initial : start.surplus kinetic = (start.ledger kinetic.asset).balanceOf kinetic.pool := by
    simp [Lending.surplus, fresh, deployed]
  refine ⟨booked.supply, booked.borrow, ?_, booked.totals_suffice, ?_⟩
  · unfold Lending.surplus at surplus initial
    omega
  · intro later steady user healthy liquidatable
    refine unsound_of_liquidatable liquidatable (run_sound l later booked ?_ ?_)
    · intro done initial
      obtain ⟨price, threshold⟩ := steady done initial
      rw [terms, price, threshold, terms]
    · rcases healthy with free | ⟨ratio, reported, enough⟩
      · exact .inl (congrArg Fin.val free)
      · exact sound_of_ratio reported enough

namespace Sample

def borrower : Other kinetic.pool := ⟨alice, by decide⟩

/-- Alice makes herself 100 units, supplies 60, borrows 20 and gives 5. -/
def lendingRun : List (KineticOp kinetic) :=
  let calls (call : TokenCall Address) : KineticOp kinetic :=
    .token ⟨external fun _ => false, borrower, kinetic.asset, call⟩
  let asks (call : KineticCall) : KineticOp kinetic :=
    .call (external fun _ => false) borrower call
  [calls (.mint alice 100), calls (.approve kinetic.pool 100), asks (.supply 60),
    asks (.borrow 20), calls (.transfer kinetic.pool 5)]

end Sample

theorem lending_books_balance_sample :
    ∑ user, ((run Lending.step ⟨fun _ => Token.empty, deployed Sample.owner⟩
      Sample.lendingRun).pool.supplyBalance user).val = 60 := by
  rw [(lending_books_balance Sample.kinetic Sample.owner
    ⟨fun _ => Token.empty, deployed Sample.owner⟩ rfl (fun _ => rfl) Sample.lendingRun _ rfl).1]
  decide +kernel

end Mirror
