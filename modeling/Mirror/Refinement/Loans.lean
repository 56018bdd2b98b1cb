import Mirror.Credit.Positions
import Mirror.Evm.Run
import Mirror.Mocks.EnosysCdp

/-!
The accounts of the stablecoin contract as collateralised debt. Each of its operations is one change
of one position, careful under the contract's price and threshold, and its tokens and its stable
balances go with it.
-/
namespace Mirror

open Evm Credit MockEnosysCDP

namespace MockEnosysCDP

def positions (c : MockEnosysCDP) : Address → Position := positionsOf c.collateralOf c.debtOf

def terms (c : MockEnosysCDP) : Terms := ⟨c.priceWei.val, priceUnit, c.liquidationThresholdBps.val⟩

variable {c c' : MockEnosysCDP} {user : Address} {amount : Uint256}

/-- A ratio that the contract reports for an account with debt. -/
theorem ratio_reported {ratio : Uint256} (owes : 0 < (c.debtOf user).val)
    (h : c.collateralRatioBps user = .ok ratio) : ratio.val = c.terms.ratio (c.positions user) := by
  have nonzero : c.debtOf user ≠ 0 := Fin.pos_iff_ne_zero.mp owes
  simp only [collateralRatioBps, if_neg nonzero, bind_ok, orRevert_ok, checkedMul_some,
    checkedDiv_some, quotient_val] at h
  obtain ⟨value, product, scaled, rescaled, -, divided⟩ := h
  rw [divided, rescaled, product]
  rfl

/-- Where the contract finds the ratio high enough, the position is sound. -/
theorem sound_of_ratio {ratio : Uint256} (h : c.collateralRatioBps user = .ok ratio)
    (enough : c.liquidationThresholdBps.val ≤ ratio.val) : c.terms.Sound (c.positions user) := by
  refine .of_ratio fun owes => ?_
  rw [← ratio_reported owes h]
  exact enough

/-- What is drawn is added to debt and stable balance, and leaves a sound position. -/
structure Drawn (user : Address) (amount : Uint256) (c c' : MockEnosysCDP) (debt stable : Uint256) :
    Prop where
  added : debt.val = (c.debtOf user).val + amount.val
  minted : stable.val = (c.stableBalance user).val + amount.val
  result : c' = { c with
    debtOf := Function.update c.debtOf user debt
    stableBalance := Function.update c.stableBalance user stable }
  sound : c'.terms.Sound (c'.positions user)

theorem draw_drawn (h : c.draw user amount = .ok c') :
    ∃ debt stable, Drawn user amount c c' debt stable := by
  simp only [draw, bind_ok, revertIf_ok, orRevert_ok, checkedAdd_some, pure_ok, not_lt] at h
  obtain ⟨debt, added, ratio, reported, _, enough, stable, minted, rfl⟩ := h
  exact ⟨debt, stable, added, minted, rfl, sound_of_ratio reported enough⟩

/-- Drawing keeps the stable balances equal to the debts. -/
theorem Drawn.matched {debt stable : Uint256} (drawn : Drawn user amount c c' debt stable)
    (matched : c.stableBalance = c.debtOf) : c'.stableBalance = c'.debtOf := by
  have same : stable = debt := Fin.ext (by rw [drawn.added, drawn.minted, matched])
  rw [drawn.result]
  simp only [matched, same]

/-- What is released is taken off the collateral, and leaves a sound position. -/
structure Released (user : Address) (amount : Uint256) (c c' : MockEnosysCDP) (left : Uint256) :
    Prop where
  taken : (c.collateralOf user).val = left.val + amount.val
  result : c' = { c with collateralOf := Function.update c.collateralOf user left }
  sound : c'.terms.Sound (c'.positions user)

theorem release_released (h : c.release user amount = .ok c') :
    ∃ left, Released user amount c c' left := by
  simp only [release, bind_ok, revertIf_ok, orRevert_ok, checkedSub_some] at h
  obtain ⟨_, -, left, taken, h⟩ := h
  split at h
  case isTrue owes =>
    simp only [bind_ok, revertIf_ok, pure_ok, not_lt] at h
    obtain ⟨ratio, reported, _, enough, rfl⟩ := h
    exact ⟨left, taken, rfl, sound_of_ratio reported enough⟩
  case isFalse free =>
    cases (pure_ok _ _).mp h
    have none : (c.debtOf user).val = 0 := Nat.le_zero.mp (not_lt.mp free)
    exact ⟨left, taken, rfl, .inl none⟩

end MockEnosysCDP

/-- The contract after one change, with its tokens and its stable balances. -/
structure Loans.Moves (enosys : Enosys) (l l' : Loans) (c : Change Address) : Prop where
  makes : c.Makes l.cdp.positions l.cdp.terms l'.cdp.positions
  terms : l'.cdp.terms = l.cdp.terms
  stable : l.cdp.stableBalance = l.cdp.debtOf → l'.cdp.stableBalance = l'.cdp.debtOf
  cash : (l'.ledger enosys.collateralToken).balanceOf enosys.cdp + c.withdrawn =
    (l.ledger enosys.collateralToken).balanceOf enosys.cdp + c.deposited
  closed : l'.ledger.Unapproved enosys.collateralToken enosys.cdp

/-- The owner has changed a parameter. -/
structure Loans.Tuned (l l' : Loans) : Prop where
  ledger : l'.ledger = l.ledger
  positions : l'.cdp.positions = l.cdp.positions
  stable : l.cdp.stableBalance = l.cdp.debtOf → l'.cdp.stableBalance = l'.cdp.debtOf

section

variable {enosys : Enosys} {env : External} {caller : Other enosys.cdp} {l l' : Loans}
  {amount : Uint256}

/-- What is deposited is received and added to the collateral. -/
structure Loans.Deposited (enosys : Enosys) (caller : Address) (amount : Uint256) (l l' : Loans)
    (collateral : Uint256) : Prop where
  added : collateral.val = (l.cdp.collateralOf caller).val + amount.val
  result : l'.cdp = { l.cdp with
    collateralOf := Function.update l.cdp.collateralOf caller collateral }
  received : (l'.ledger enosys.collateralToken).balanceOf enosys.cdp =
    (l.ledger enosys.collateralToken).balanceOf enosys.cdp + amount.val
  closed : l'.ledger.Unapproved enosys.collateralToken enosys.cdp

theorem deposit_deposited (closed : l.ledger.Unapproved enosys.collateralToken enosys.cdp)
    (h : deposit enosys env caller.addr amount l = .ok l') :
    ∃ collateral, l.Deposited enosys caller.addr amount l' collateral := by
  unfold deposit at h
  split at h
  case isTrue some_amount =>
    simp only [bind_ok, orRevert_ok, checkedAdd_some, pure_ok] at h
    obtain ⟨ledger, taken, collateral, added, rfl⟩ := h
    obtain ⟨closed, received⟩ := closed.take caller.other taken
    exact ⟨collateral, added, rfl, received, closed⟩
  -- nothing is asked of the token, and nothing changes
  case isFalse no_amount =>
    cases (pure_ok _ _).mp h
    have zero : amount.val = 0 := Nat.le_zero.mp (not_lt.mp no_amount)
    refine ⟨l.cdp.collateralOf caller.addr, by omega, ?_, by omega, closed⟩
    rw [Function.update_eq_self]

section

variable (closed : l.ledger.Unapproved enosys.collateralToken enosys.cdp)

include closed

theorem openCdp_moves {collateralAmount mintAmount : Uint256}
    (h : openCdp enosys env caller.addr collateralAmount mintAmount l = .ok l') :
    l.Moves enosys l' ⟨caller.addr, collateralAmount.val, 0, mintAmount.val, 0⟩ := by
  simp only [openCdp, bind_ok] at h
  obtain ⟨_, -, ⟨ledger, cdp⟩, paid, h⟩ := h
  obtain ⟨collateral, added, rfl, received, closed⟩ := deposit_deposited closed paid
  split at h
  case isTrue some_amount =>
    simp only [bind_ok, pure_ok] at h
    obtain ⟨cdp, drawn, rfl⟩ := h
    obtain ⟨debt, stable, drawn⟩ := draw_drawn drawn
    have matched := drawn.matched
    obtain ⟨owed, -, rfl, sound⟩ := drawn
    have applied : positionsOf (Function.update l.cdp.collateralOf caller.addr collateral)
        (Function.update l.cdp.debtOf caller.addr debt) =
          (Change.mk caller.addr collateralAmount.val 0 mintAmount.val 0).apply
            l.cdp.positions := by
      simp only [positionsOf_update, added, owed]
      rfl
    exact ⟨.of_sound ⟨Nat.zero_le _, Nat.zero_le _⟩ applied sound, rfl, matched, received, closed⟩
  -- without debt any position is sound, the new one too
  case isFalse no_amount =>
    cases (pure_ok _ _).mp h
    have zero : mintAmount.val = 0 := Nat.le_zero.mp (not_lt.mp no_amount)
    rw [zero]
    refine ⟨⟨⟨Nat.zero_le _, Nat.zero_le _⟩, .inl ⟨rfl, rfl⟩, ?_⟩, rfl, id, received, closed⟩
    simp only [positions, positionsOf_update_collateral, added]
    rfl

theorem adjustCollateral_moves {addAmount removeAmount : Uint256}
    (h : adjustCollateral enosys env caller.addr addAmount removeAmount l = .ok l') :
    l.Moves enosys l' ⟨caller.addr, addAmount.val, removeAmount.val, 0, 0⟩ := by
  simp only [adjustCollateral, bind_ok] at h
  obtain ⟨⟨ledger, cdp⟩, paid, h⟩ := h
  obtain ⟨collateral, added, rfl, received, closed⟩ := deposit_deposited closed paid
  dsimp only at received closed h
  split at h
  case isTrue some_amount =>
    simp only [bind_ok, pure_ok] at h
    obtain ⟨cdp, released, ledger', sent, rfl⟩ := h
    obtain ⟨left, taken, rfl, sound⟩ := release_released released
    obtain ⟨closed, spent⟩ := closed.pay caller.other sent
    simp only [Function.update_self, Function.update_idem] at taken sound ⊢
    -- what is added counts before what is removed
    have remains : left.val =
        (l.cdp.collateralOf caller.addr).val + addAmount.val - removeAmount.val := by omega
    have applied : positionsOf (Function.update l.cdp.collateralOf caller.addr left) l.cdp.debtOf =
        (Change.mk caller.addr addAmount.val removeAmount.val 0 0).apply l.cdp.positions := by
      simp only [positionsOf_update_collateral, remains]
      rfl
    refine ⟨.of_sound ⟨?_, Nat.zero_le _⟩ applied sound, rfl, id, ?_, closed⟩
    · change removeAmount.val ≤ (l.cdp.collateralOf caller.addr).val + addAmount.val
      omega
    · dsimp only
      omega
  case isFalse no_amount =>
    cases (pure_ok _ _).mp h
    have zero : removeAmount.val = 0 := Nat.le_zero.mp (not_lt.mp no_amount)
    rw [zero]
    refine ⟨⟨⟨Nat.zero_le _, Nat.zero_le _⟩, .inl ⟨rfl, rfl⟩, ?_⟩, rfl, id, received, closed⟩
    simp only [positions, positionsOf_update_collateral, added]
    rfl

theorem mintStable_moves (h : mintStable caller.addr amount l = .ok l') :
    l.Moves enosys l' ⟨caller.addr, 0, 0, amount.val, 0⟩ := by
  simp only [mintStable, bind_ok, pure_ok] at h
  obtain ⟨_, -, _, -, cdp, drawn, rfl⟩ := h
  obtain ⟨debt, stable, drawn⟩ := draw_drawn drawn
  have matched := drawn.matched
  obtain ⟨owed, -, rfl, sound⟩ := drawn
  have applied : positionsOf l.cdp.collateralOf (Function.update l.cdp.debtOf caller.addr debt) =
      (Change.mk caller.addr 0 0 amount.val 0).apply l.cdp.positions := by
    simp only [positionsOf_update_debt, owed]
    rfl
  exact ⟨.of_sound ⟨Nat.zero_le _, Nat.zero_le _⟩ applied sound, rfl, matched, rfl, closed⟩

theorem repayStable_moves (h : repayStable caller.addr amount l = .ok l') :
    ∃ c, l.Moves enosys l' c := by
  simp only [repayStable, bind_ok, orRevert_ok, checkedSub_some, pure_ok] at h
  obtain ⟨_, -, _, -, stable, kept, debt, left, rfl⟩ := h
  -- what is paid is the debt at most
  set pay := if l.cdp.debtOf caller.addr < amount then l.cdp.debtOf caller.addr else amount
  refine ⟨⟨caller.addr, 0, 0, 0, pay.val⟩, ⟨⟨Nat.zero_le _, ?_⟩, .inl ⟨rfl, rfl⟩, ?_⟩, rfl, ?_,
    rfl, closed⟩
  · change pay.val ≤ (l.cdp.debtOf caller.addr).val
    omega
  · have remains : debt.val = (l.cdp.debtOf caller.addr).val - pay.val := by omega
    simp only [positions, positionsOf_update_debt, remains]
    rfl
  · intro matched
    rw [matched] at kept
    have same : stable = debt := Fin.ext (by omega)
    simp only [matched, same]

theorem closeCdp_moves (h : closeCdp enosys env caller.addr l = .ok l') :
    ∃ c, l.Moves enosys l' c := by
  simp only [closeCdp, bind_ok, revertIf_ok, not_not] at h
  obtain ⟨_, free, h⟩ := h
  set col := l.cdp.collateralOf caller.addr
  have applied : positionsOf (Function.update l.cdp.collateralOf caller.addr 0) l.cdp.debtOf =
      (Change.mk caller.addr 0 col.val 0 0).apply l.cdp.positions := by
    simp only [positionsOf_update_collateral, Change.apply, Change.after, positions, positionsOf,
      free, Fin.val_zero, Nat.add_zero, Nat.sub_self, col]
  -- a position without debt is sound with no collateral
  have makes : (Change.mk caller.addr 0 col.val 0 0).Makes l.cdp.positions l.cdp.terms
      (positionsOf (Function.update l.cdp.collateralOf caller.addr 0) l.cdp.debtOf) := by
    refine ⟨⟨Nat.le_refl _, Nat.zero_le _⟩, .inr (.inl (.inl ?_)), applied⟩
    change (l.cdp.debtOf caller.addr).val + 0 - 0 = 0
    rw [free]
    rfl
  split at h
  case isTrue some_amount =>
    simp only [bind_ok, pure_ok] at h
    obtain ⟨ledger, sent, rfl⟩ := h
    obtain ⟨closed, spent⟩ := closed.pay caller.other sent
    exact ⟨_, makes, rfl, id, spent.symm, closed⟩
  case isFalse no_amount =>
    cases (pure_ok _ _).mp h
    have zero : col.val = 0 := Nat.le_zero.mp (not_lt.mp no_amount)
    rw [zero] at makes
    exact ⟨_, makes, rfl, id, rfl, closed⟩

/-- Every call that goes through tunes the contract or makes one change. -/
theorem enosys_moves {c : EnosysCall} (h : MockEnosysCDP.call enosys env caller.addr l c = .ok l') :
    l.Tuned l' ∨ ∃ change, l.Moves enosys l' change := by
  cases c with
  | openCdp collateralAmount mintAmount => exact .inr ⟨_, openCdp_moves closed h⟩
  | adjustCollateral addAmount removeAmount => exact .inr ⟨_, adjustCollateral_moves closed h⟩
  | mintStable amount => exact .inr ⟨_, mintStable_moves closed h⟩
  | repayStable amount => exact .inr (repayStable_moves closed h)
  | closeCdp => exact .inr (closeCdp_moves closed h)
  | setPrice _ | setLiquidationThresholdBps _ =>
    simp only [MockEnosysCDP.call, bind_ok, pure_ok] at h
    obtain ⟨_, -, rfl⟩ := h
    exact .inl ⟨rfl, rfl, id⟩

end

end

end Mirror
