import Mirror.Credit.Positions
import Mirror.Evm.Run
import Mirror.Properties.TopUpSizing

/-!
The lending pool's accounts as collateralised debt. Each of its operations is one change of one
position, careful under the pool's price and threshold, and the totals and the tokens go with it.
-/
namespace Mirror

open Evm Credit MockKineticPool

namespace MockKineticPool

def positions (p : MockKineticPool) : Address → Position :=
  positionsOf p.supplyBalance p.borrowBalance

def terms (p : MockKineticPool) : Terms :=
  ⟨p.priceWei.val, priceUnit, p.liquidationThresholdBps.val⟩

variable {p : MockKineticPool} {user : Address}

/-- A ratio that the pool reports for an account with debt. -/
theorem ratio_reported {ratio : Uint256} (owes : 0 < (p.borrowBalance user).val)
    (h : p.collateralRatioBps user = .ok ratio) : ratio.val = p.terms.ratio (p.positions user) :=
  collateralRatioBps_of_debt owes h

/-- Where the pool finds the ratio high enough, the position is sound. -/
theorem sound_of_ratio {ratio : Uint256} (h : p.collateralRatioBps user = .ok ratio)
    (enough : p.liquidationThresholdBps.val ≤ ratio.val) : p.terms.Sound (p.positions user) := by
  refine .of_ratio fun owes => ?_
  rw [← ratio_reported owes h]
  exact enough

theorem unsound_of_liquidatable (h : p.isLiquidatable user = .ok true) :
    ¬p.terms.Sound (p.positions user) := by
  -- who owes nothing is never liquidated
  by_cases free : p.borrowBalance user = 0
  · simp only [isLiquidatable, if_pos free, pure_ok, Bool.false_eq_true] at h
  · have owes : 0 < (p.borrowBalance user).val := Fin.pos_iff_ne_zero.mpr free
    simp only [isLiquidatable, if_neg free, bind_ok, pure_ok, decide_eq_true_eq] at h
    obtain ⟨ratio, reported, short⟩ := h
    rintro (none | enough)
    · exact absurd none owes.ne'
    · rw [← ratio_reported owes reported] at enough
      exact absurd enough (not_le.mpr short)

theorem capped_le (a b : Uint256) : (capped a b).val ≤ b.val := by
  unfold capped
  split <;> omega

end MockKineticPool

/-- The pool after one change, with its totals and its tokens. -/
structure Lending.Moves (kinetic : Kinetic) (l l' : Lending) (c : Change Address) : Prop where
  makes : c.Makes l.pool.positions l.pool.terms l'.pool.positions
  terms : l'.pool.terms = l.pool.terms
  supply : l'.pool.totalSupply.val + c.withdrawn = l.pool.totalSupply.val + c.deposited
  borrow : l'.pool.totalBorrow.val + c.repaid = l.pool.totalBorrow.val + c.drawn
  cash : (l'.ledger kinetic.asset).balanceOf kinetic.pool + c.withdrawn + c.drawn =
    (l.ledger kinetic.asset).balanceOf kinetic.pool + c.deposited + c.repaid
  closed : l'.ledger.Unapproved kinetic.asset kinetic.pool

/-- The owner has changed a parameter. -/
structure Lending.Tuned (l l' : Lending) : Prop where
  ledger : l'.ledger = l.ledger
  positions : l'.pool.positions = l.pool.positions
  supply : l'.pool.totalSupply = l.pool.totalSupply
  borrow : l'.pool.totalBorrow = l.pool.totalBorrow

section

variable {kinetic : Kinetic} {env : External} {caller : Other kinetic.pool} {l l' : Lending}
  (closed : l.ledger.Unapproved kinetic.asset kinetic.pool)

include closed

theorem supply_moves {amount : Uint256} (h : supply kinetic env caller.addr amount l = .ok l') :
    l.Moves kinetic l' ⟨caller.addr, amount.val, 0, 0, 0⟩ := by
  simp only [supply, credit, bind_ok, orRevert_ok, checkedAdd_some, pure_ok] at h
  obtain ⟨_, -, ledger, taken, _, ⟨balance, added, total, summed, rfl⟩, rfl⟩ := h
  obtain ⟨closed, received⟩ := closed.take caller.other taken
  refine ⟨⟨⟨Nat.zero_le _, Nat.zero_le _⟩, .inl ⟨rfl, rfl⟩, ?_⟩, rfl, summed, rfl, received, closed⟩
  simp only [positions, positionsOf_update_collateral, added]
  rfl

theorem borrow_moves {amount : Uint256} (h : borrow kinetic env caller.addr amount l = .ok l') :
    l.Moves kinetic l' ⟨caller.addr, 0, 0, amount.val, 0⟩ := by
  simp only [borrow, bind_ok, revertIf_ok, orRevert_ok, checkedAdd_some, pure_ok, not_lt] at h
  obtain ⟨_, -, debt, added, ratio, reported, _, enough, _, -, total, summed, ledger, paid,
    rfl⟩ := h
  obtain ⟨closed, spent⟩ := closed.pay caller.other paid
  have applied : positionsOf l.pool.supplyBalance
      (Function.update l.pool.borrowBalance caller.addr debt) =
        (Change.mk caller.addr 0 0 amount.val 0).apply l.pool.positions := by
    simp only [positionsOf_update_debt, added]
    rfl
  refine ⟨.of_sound ⟨Nat.zero_le _, Nat.zero_le _⟩ applied (sound_of_ratio reported enough), rfl,
    rfl, summed, ?_, closed⟩
  simp only [spent]
  omega

theorem repay_moves {amount : Uint256} (h : repay kinetic env caller.addr amount l = .ok l') :
    l.Moves kinetic l'
      ⟨caller.addr, 0, 0, 0, (capped amount (l.pool.borrowBalance caller.addr)).val⟩ := by
  simp only [repay, reduceDebt, bind_ok, orRevert_ok, checkedSub_some, pure_ok] at h
  obtain ⟨_, -, ledger, taken, _, ⟨debt, left, total, less, rfl⟩, rfl⟩ := h
  obtain ⟨closed, received⟩ := closed.take caller.other taken
  have owed := capped_le amount (l.pool.borrowBalance caller.addr)
  refine ⟨⟨⟨Nat.zero_le _, owed⟩, .inl ⟨rfl, rfl⟩, ?_⟩, rfl, rfl, less.symm, received, closed⟩
  have remains : debt.val = (l.pool.borrowBalance caller.addr).val -
      (capped amount (l.pool.borrowBalance caller.addr)).val := by omega
  simp only [positions, positionsOf_update_debt, remains]
  rfl

theorem liquidate_moves {user : Address} {repayAmount : Uint256}
    (h : liquidate kinetic env caller.addr user repayAmount l = .ok l') :
    ∃ c, l.Moves kinetic l' c := by
  simp only [liquidate, reduceDebt, bind_ok, revertIf_ok, orRevert_ok, checkedSub_some, pure_ok,
    Bool.not_eq_false] at h
  obtain ⟨_, found, _, rfl, ledger, taken, _, ⟨debt, left, total, less, rfl⟩, supplied, kept,
    supply, smaller, ledger', paid, rfl⟩ := h
  obtain ⟨closed, received⟩ := closed.take caller.other taken
  obtain ⟨closed, spent⟩ := closed.pay caller.other paid
  dsimp only at kept smaller spent
  set pay := capped repayAmount (l.pool.borrowBalance user)
  set seize := capped pay (l.pool.supplyBalance user)
  -- what is repaid is owed, and what is seized is there
  have owed : pay.val ≤ (l.pool.borrowBalance user).val := capped_le _ _
  have held : seize.val ≤ (l.pool.supplyBalance user).val := capped_le _ _
  refine ⟨⟨user, 0, seize.val, 0, pay.val⟩, ⟨⟨held, owed⟩, .inr (.inr ?_), ?_⟩, rfl, smaller.symm,
    less.symm, ?_, closed⟩
  · exact unsound_of_liquidatable found
  · have remains : debt.val = (l.pool.borrowBalance user).val - pay.val := by omega
    have remains' : supplied.val = (l.pool.supplyBalance user).val - seize.val := by omega
    simp only [positions, positionsOf_update, remains, remains']
    rfl
  · dsimp only
    omega

/-- Every call that goes through tunes the pool or makes one change. -/
theorem call_moves {c : KineticCall}
    (h : MockKineticPool.call kinetic env caller.addr l c = .ok l') :
    l.Tuned l' ∨ ∃ change, l.Moves kinetic l' change := by
  -- the owner changes terms, everybody else one position
  cases c with
  | supply amount => exact .inr ⟨_, supply_moves closed h⟩
  | borrow amount => exact .inr ⟨_, borrow_moves closed h⟩
  | repay amount => exact .inr ⟨_, repay_moves closed h⟩
  | liquidate user repayAmount => exact .inr (liquidate_moves closed h)
  | setCollateralFactorBps _ | setLiquidationThresholdBps _ | setPrice _ =>
    simp only [MockKineticPool.call, bind_ok, pure_ok] at h
    obtain ⟨_, -, rfl⟩ := h
    exact .inl ⟨rfl, rfl, rfl, rfl⟩

end

end Mirror
