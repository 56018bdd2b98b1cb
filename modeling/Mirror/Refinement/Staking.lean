import Mathlib.Tactic.Linarith
import Mirror.Credit.Shares
import Mirror.Evm.Run
import Mirror.Mocks.FirelightStrategy

/-! The strategy as a pool owned in shares: what its conversions return and its deposits issue. -/
namespace Mirror

open Evm Credit MockFirelightStrategy

namespace MockFirelightStrategy

variable (m : MockFirelightStrategy)

def pool : SharePool := ⟨m.totalAssets.val, m.totalShares.val⟩

/-- A deposit that buys no share. -/
def Dust (assets : Uint256) : Prop :=
  0 < m.totalAssets.val ∧ assets.val * m.totalShares.val < m.totalAssets.val

variable {m} {assets shares issued : Uint256}

theorem pool_owned : 0 < m.pool.shares ↔ m.totalShares ≠ 0 := Fin.pos_iff_ne_zero

/-- The value of shares, where the product fits. -/
theorem convertToAssets_ok (owned : 0 < m.pool.shares) :
    m.convertToAssets shares = .ok assets ↔
      shares.val * m.pool.assets < 2 ^ 256 ∧ assets.val = m.pool.value shares.val := by
  simp only [convertToAssets, if_neg (pool_owned.mp owned), bind_ok, orRevert_ok, checkedMul_some,
    checkedDiv_some]
  constructor
  · rintro ⟨product, multiplied, -, divided⟩
    rw [multiplied] at divided
    exact ⟨multiplied ▸ product.isLt, divided⟩
  · rintro ⟨fits, value⟩
    exact ⟨⟨_, fits⟩, rfl, owned, value⟩

/-- Dust is given as many shares as it has units, everything else what it pays for. -/
theorem sharesFor_ok (owned : 0 < m.pool.shares) (h : m.sharesFor assets = .ok issued) :
    (m.Dust assets → issued = assets) ∧ (¬m.Dust assets → m.pool.Fair assets.val issued.val) := by
  simp only [sharesFor, bind_ok, pure_ok] at h
  obtain ⟨bought, priced, rfl⟩ := h
  -- shares without assets buy at one for one, like the first deposit
  by_cases empty : m.totalAssets = 0
  · rw [if_pos (.inr empty), pure_ok] at priced
    subst priced
    refine ⟨fun dust => absurd (congrArg Fin.val empty) dust.1.ne', fun _ => ?_⟩
    exact SharePool.fair_of_empty (congrArg Fin.val empty)
  · rw [if_neg (not_or.mpr ⟨pool_owned.mp owned, empty⟩)] at priced
    simp only [bind_ok, orRevert_ok, checkedMul_some, checkedDiv_some] at priced
    obtain ⟨product, multiplied, backed, divided⟩ := priced
    rw [multiplied] at divided
    -- the rounded price is 0 exactly for dust
    have none_iff : bought = 0 ↔ m.Dust assets := by
      rw [Fin.ext_iff, divided, Fin.val_zero, Nat.div_eq_zero_iff_lt backed]
      exact ⟨fun less => ⟨backed, less⟩, And.right⟩
    refine ⟨fun dust => if_pos (none_iff.mpr dust), fun worth => ?_⟩
    rw [if_neg (none_iff.not.mpr worth), divided]
    exact SharePool.fair_of_rounded

end MockFirelightStrategy

section

variable {firelight : Firelight} {env : External} {caller : Address} {l l' : Staking}
  {assets shares issued back : Uint256}

/-- The strategy after a deposit. -/
structure Staking.Deposited (firelight : Firelight) (caller : Address) (assets issued : Uint256)
    (l l' : Staking) : Prop where
  priced : l.strategy.sharesFor assets = .ok issued
  pool : l'.strategy.pool = l.strategy.pool.issue assets.val issued.val
  own : (l'.strategy.balanceOf caller).val = (l.strategy.balanceOf caller).val + issued.val
  others : ∀ user, user ≠ caller → l'.strategy.balanceOf user = l.strategy.balanceOf user
  cash : (l'.ledger firelight.asset).balanceOf firelight.strategy =
    (l.ledger firelight.asset).balanceOf firelight.strategy + assets.val
  positive : 0 < assets.val

theorem strategy_deposited (other : caller ≠ firelight.strategy)
    (h : deposit firelight env caller assets l = .ok (l', issued)) :
    l.Deposited firelight caller assets issued l' := by
  simp only [deposit, bind_ok, revertIf_ok, orRevert_ok, checkedAdd_some, pure_ok,
    Prod.mk.injEq] at h
  obtain ⟨_, nonzero, ledger, taken, _, priced, balance, added, shares, minted, total, summed, rfl,
    rfl⟩ := h
  refine ⟨priced, ?_, ?_, ?_, ?_, Fin.pos_iff_ne_zero.mpr nonzero⟩
  · simp only [pool, SharePool.issue, summed, minted]
  · simp only [Function.update_self, added]
  · intro user distinct
    exact Function.update_of_ne distinct _ _
  · exact (Token.transferFrom_collects other (Ledger.call_same taken)).1

/-- What a withdrawal returns, and has paid. -/
theorem withdraw_returns (owned : 0 < l.strategy.pool.shares)
    (h : withdraw firelight env caller shares l = .ok (l', back)) :
    back.val = l.strategy.pool.value shares.val ∧
      shares.val * l.strategy.pool.assets < 2 ^ 256 ∧
      back.val ≤ (l.ledger firelight.asset).balanceOf firelight.strategy := by
  simp only [withdraw, if_neg (pool_owned.mp owned), bind_ok, orRevert_ok, checkedMul_some,
    checkedDiv_some, pure_ok, Prod.mk.injEq] at h
  obtain ⟨_, -, _, -, value, ⟨product, multiplied, -, divided⟩, _, -, _, -, _, -, _, sent, -,
    rfl⟩ := h
  rw [multiplied] at divided
  exact ⟨divided, multiplied ▸ product.isLt, (Token.move_some _ _ _ _ _ (Ledger.call_same sent)).1⟩

/-- A withdrawal of what one holds pays its value, unless that overflows, is not there to pay or is
refused by the token. -/
theorem withdraw_pays (positive : 0 < shares.val)
    (held : shares.val ≤ (l.strategy.balanceOf caller).val)
    (counted : shares.val ≤ l.strategy.pool.shares)
    (fits : shares.val * l.strategy.pool.assets < 2 ^ 256)
    (paid : l.strategy.pool.value shares.val ≤
      (l.ledger firelight.asset).balanceOf firelight.strategy)
    (taken : env.refuses firelight.asset firelight.strategy
      (.transfer caller (l.strategy.pool.value shares.val)) = false) :
    ∃ l' back, withdraw firelight env caller shares l = .ok (l', back) ∧
      back.val = l.strategy.pool.value shares.val ∧
      (caller ≠ firelight.strategy → (l'.ledger firelight.asset).balanceOf caller =
        (l.ledger firelight.asset).balanceOf caller + back.val) := by
  have owned : 0 < l.strategy.pool.shares := positive.trans_le counted
  -- the value of some shares is no more than all the assets
  have less : l.strategy.pool.value shares.val ≤ l.strategy.pool.assets :=
    Nat.div_le_of_le_mul (Nat.mul_le_mul_right _ counted)
  let product : Uint256 := ⟨shares.val * l.strategy.pool.assets, fits⟩
  let value : Uint256 := quotient product l.strategy.pool.shares
  obtain ⟨balance, left⟩ := checkedSub_of_le held
  obtain ⟨totalShares, fewer⟩ := checkedSub_of_le (show shares.val ≤ l.strategy.totalShares.val
    from counted)
  obtain ⟨totalAssets, smaller⟩ := checkedSub_of_le (show value.val ≤ l.strategy.totalAssets.val
    from less)
  obtain ⟨t, moved⟩ := (Token.move_isSome _ firelight.strategy caller value.val).mpr paid
  have sent := (Ledger.call_ok env firelight.asset firelight.strategy (.transfer caller value.val)
    l.ledger _).mpr ⟨taken, t, moved, rfl⟩
  -- every check passes, in the order in which the contract makes them
  have done : withdraw firelight env caller shares l =
      .ok (⟨Function.update l.ledger firelight.asset t, { l.strategy with
        balanceOf := Function.update l.strategy.balanceOf caller balance
        totalShares
        totalAssets }⟩, value) := by
    simp only [withdraw, if_neg (pool_owned.mp owned), bind_ok, revertIf_ok, orRevert_ok, pure_ok]
    refine ⟨(), Fin.pos_iff_ne_zero.mp positive, (), not_lt.mpr held, value, ⟨product, ?_, ?_⟩,
      balance, left, totalShares, fewer, totalAssets, smaller, _, sent, rfl⟩
    · exact (checkedMul_some _ _ _).mpr rfl
    · exact (checkedDiv_some _ _ _).mpr ⟨owned, rfl⟩
  refine ⟨_, value, done, rfl, fun other => ?_⟩
  obtain ⟨-, balances, -⟩ := Token.move_some _ _ _ _ _ moved
  dsimp only
  rw [Function.update_self, balances, shift_dst _ _ other.symm]

/-- A withdrawal of what one holds fails only where its value overflows or is not there to pay. -/
theorem withdraw_succeeds (positive : 0 < shares.val)
    (held : shares.val ≤ (l.strategy.balanceOf caller).val)
    (counted : shares.val ≤ l.strategy.pool.shares)
    (fits : shares.val * l.strategy.pool.assets < 2 ^ 256)
    (paid : l.strategy.pool.value shares.val ≤
      (l.ledger firelight.asset).balanceOf firelight.strategy) :
    ∃ env l' back, withdraw firelight env caller shares l = .ok (l', back) := by
  let env : External := ⟨fun _ _ _ => false, fun _ _ => false⟩
  obtain ⟨l', back, done, -⟩ := withdraw_pays positive held counted fits paid
    (show env.refuses _ _ _ = false from rfl)
  exact ⟨env, l', back, done⟩

end

/-! ### What a call can do -/

/-- The strategy after a call that has gone through. -/
inductive Staking.Moved (firelight : Firelight) (caller : Address) (l l' : Staking) :
    FirelightCall → Prop
  | deposited {assets : Uint256} (issued balance : Uint256)
    (priced : l.strategy.sharesFor assets = .ok issued)
    (pool : l'.strategy.pool = l.strategy.pool.issue assets.val issued.val)
    (added : balance.val = (l.strategy.balanceOf caller).val + issued.val)
    (booked : l'.strategy.balanceOf = Function.update l.strategy.balanceOf caller balance)
    (yield : l'.strategy.yieldAmount = l.strategy.yieldAmount)
    (cash : (l'.ledger firelight.asset).balanceOf firelight.strategy =
      (l.ledger firelight.asset).balanceOf firelight.strategy + assets.val) :
    Moved firelight caller l l' (.deposit assets)
  | withdrawn {shares : Uint256} (back balance : Uint256) (owned : 0 < l.strategy.pool.shares)
    (returned : back.val = l.strategy.pool.value shares.val)
    (pool : l'.strategy.pool = l.strategy.pool.redeem shares.val)
    (held : shares.val ≤ l.strategy.pool.shares)
    (left : (l.strategy.balanceOf caller).val = balance.val + shares.val)
    (booked : l'.strategy.balanceOf = Function.update l.strategy.balanceOf caller balance)
    (yield : l'.strategy.yieldAmount = l.strategy.yieldAmount)
    (covered : back.val ≤ l.strategy.pool.assets)
    (cash : (l.ledger firelight.asset).balanceOf firelight.strategy =
      (l'.ledger firelight.asset).balanceOf firelight.strategy + back.val) :
    Moved firelight caller l l' (.withdraw shares)
  | yielded {amount : Uint256} (ledger : l'.ledger = l.ledger)
    (booked : l'.strategy.balanceOf = l.strategy.balanceOf)
    (shares : l'.strategy.pool.shares = l.strategy.pool.shares)
    (yield : l'.strategy.yieldAmount = amount)
    (credited : l'.strategy.pool.assets =
      l.strategy.pool.assets + amount.val - l.strategy.yieldAmount.val) :
    Moved firelight caller l l' (.setYieldAmount amount)

section

variable {firelight : Firelight} {env : External} {caller : Other firelight.strategy}
  {l l' : Staking} (closed : l.ledger.Unapproved firelight.asset firelight.strategy)

theorem setYieldAmount_ok {m m' : MockFirelightStrategy} {caller : Address} {amount : Uint256}
    (h : m.setYieldAmount caller amount = .ok m') :
    m'.balanceOf = m.balanceOf ∧ m'.totalShares = m.totalShares ∧ m'.yieldAmount = amount ∧
      m'.totalAssets.val = m.totalAssets.val + amount.val - m.yieldAmount.val := by
  simp only [setYieldAmount, bind_ok, pure_ok] at h
  obtain ⟨_, -, total, credited, rfl⟩ := h
  refine ⟨rfl, rfl, rfl, ?_⟩
  dsimp only
  split at credited
  next more =>
    simp only [bind_ok, orRevert_ok, checkedSub_some, checkedAdd_some] at credited
    obtain ⟨inc, rise, summed⟩ := credited
    omega
  next less =>
    simp only [bind_ok, orRevert_ok, checkedSub_some] at credited
    obtain ⟨dec, fall, credited⟩ := credited
    split at credited
    next enough =>
      simp only [orRevert_ok, checkedSub_some] at credited
      omega
    -- the assets stop at 0, where subtraction of naturals does
    next short =>
      cases credited
      rw [Fin.lt_def] at short
      rw [Fin.val_zero]
      omega

include closed

/-- Every call that goes through deposits, withdraws or sets the yield. -/
theorem MockFirelightStrategy.call_moved {c : FirelightCall}
    (h : MockFirelightStrategy.call firelight env caller.addr l c = .ok l') :
    l.Moved firelight caller.addr l' c ∧
      l'.ledger.Unapproved firelight.asset firelight.strategy := by
  cases c with
  | setYieldAmount amount =>
    simp only [MockFirelightStrategy.call, bind_ok, pure_ok] at h
    obtain ⟨m, set, rfl⟩ := h
    obtain ⟨booked, shares, yield, credited⟩ := setYieldAmount_ok set
    exact ⟨.yielded rfl booked (congrArg Fin.val shares) yield credited, closed⟩
  | deposit assets =>
    simp only [MockFirelightStrategy.call, deposit, bind_ok, revertIf_ok, orRevert_ok,
      checkedAdd_some, pure_ok, Prod.exists, Prod.mk.injEq] at h
    obtain ⟨_, _, ⟨_, -, ledger, taken, issued, priced, balance, added, shares, minted, total,
      summed, rfl, rfl⟩, rfl⟩ := h
    obtain ⟨closed, received⟩ := closed.take caller.other taken
    refine ⟨.deposited issued balance priced ?_ added rfl rfl received, closed⟩
    simp only [pool, SharePool.issue, summed, minted]
  | withdraw shares =>
    simp only [MockFirelightStrategy.call, withdraw, bind_ok, revertIf_ok, orRevert_ok,
      checkedSub_some, pure_ok, Prod.exists, Prod.mk.injEq] at h
    obtain ⟨_, _, ⟨_, nonzero, _, -, back, priced, balance, left, total, fewer, rest, less, ledger,
      sent, rfl, rfl⟩, rfl⟩ := h
    -- somebody holds shares, so there are some
    have positive : 0 < shares.val := Fin.pos_iff_ne_zero.mpr nonzero
    have owned : 0 < l.strategy.pool.shares := by
      dsimp only [pool]
      omega
    simp only [if_neg (pool_owned.mp owned), bind_ok, orRevert_ok, checkedMul_some,
      checkedDiv_some] at priced
    obtain ⟨product, multiplied, -, divided⟩ := priced
    rw [multiplied] at divided
    obtain ⟨closed, spent⟩ := closed.pay caller.other sent
    refine ⟨.withdrawn back balance owned divided ?_ ?_ left rfl rfl ?_ spent, closed⟩
    · simp only [pool, SharePool.redeem, SharePool.mk.injEq]
      have value : SharePool.value ⟨l.strategy.totalAssets.val, l.strategy.totalShares.val⟩
          shares.val = back.val := divided.symm
      omega
    · dsimp only [pool]
      omega
    · dsimp only [pool]
      omega

end

end Mirror
