import Mirror.Contracts.Holding

/-! `MockKineticPool`: supplied and borrowed balances of one asset, and who may be liquidated. -/
namespace Mirror

open Evm

/-- The pool's address and its immutable. -/
structure Kinetic where
  pool : Address
  asset : Address

structure MockKineticPool where
  owner : Address
  collateralFactorBps : Uint256
  liquidationThresholdBps : Uint256
  priceWei : Uint256
  supplyBalance : Address → Uint256
  borrowBalance : Address → Uint256
  totalSupply : Uint256
  totalBorrow : Uint256

/-- The pool together with the tokens it calls. -/
structure Lending where
  ledger : Ledger
  pool : MockKineticPool

inductive KineticCall
  | setCollateralFactorBps (bps : Uint256)
  | setLiquidationThresholdBps (bps : Uint256)
  | setPrice (priceWei : Uint256)
  | supply (amount : Uint256)
  | borrow (amount : Uint256)
  | repay (amount : Uint256)
  | liquidate (user : Address) (repayAmount : Uint256)

namespace MockKineticPool

/-- `1e18`. -/
def priceUnit : ℕ := 10 ^ 18

/-- Storage of a pool just constructed. -/
def deployed (initialOwner : Address) : MockKineticPool where
  owner := initialOwner
  collateralFactorBps := 7500
  liquidationThresholdBps := 11000
  priceWei := 10 ^ 18
  supplyBalance _ := 0
  borrowBalance _ := 0
  totalSupply := 0
  totalBorrow := 0

/-- `_collateralRatioBps(user)`. The price applies to the collateral only. -/
def collateralRatioBps (user : Address) (p : MockKineticPool) : Except Revert Uint256 :=
  let debt := p.borrowBalance user
  if debt = 0 then return ⟨maxUint256, by decide⟩
  else do
    let value ← orRevert (checkedMul (p.supplyBalance user) p.priceWei) .panic
    let scaled ← orRevert (checkedMul (quotient value priceUnit) 10000) .panic
    orRevert (checkedDiv scaled debt) .panic

def getCollateralRatioBps (user : Address) (p : MockKineticPool) : Except Revert Uint256 :=
  p.collateralRatioBps user

/-- `getAccountLiquidity(user)`: what the account could still borrow, or what it lacks. -/
def getAccountLiquidity (user : Address) (p : MockKineticPool) :
    Except Revert (Uint256 × Uint256) := do
  let supplied ← orRevert (checkedMul (p.supplyBalance user) p.priceWei) .panic
  let borrowed ← orRevert (checkedMul (p.borrowBalance user) p.priceWei) .panic
  let borrowVal := quotient borrowed priceUnit
  let factored ← orRevert (checkedMul (quotient supplied priceUnit) p.collateralFactorBps) .panic
  let maxBorrow := quotient factored 10000
  -- the difference is a value, divided by the price to be an amount of the asset again
  if borrowVal.val ≤ maxBorrow.val then do
    let excess ← orRevert (checkedSub maxBorrow borrowVal) .panic
    let scaled ← orRevert (checkedMul excess (10 ^ 18)) .panic
    let liquidity ← orRevert (checkedDiv scaled p.priceWei) .panic
    return (liquidity, 0)
  else do
    let deficit ← orRevert (checkedSub borrowVal maxBorrow) .panic
    let scaled ← orRevert (checkedMul deficit (10 ^ 18)) .panic
    let shortfall ← orRevert (checkedDiv scaled p.priceWei) .panic
    return (0, shortfall)

def isLiquidatable (user : Address) (p : MockKineticPool) : Except Revert Bool :=
  if p.borrowBalance user = 0 then return false
  else do
    let ratio ← p.collateralRatioBps user
    return decide (ratio.val < p.liquidationThresholdBps.val)

/-- `supplyBalance[user] += amount; totalSupply += amount`. -/
def credit (user : Address) (amount : Uint256) (p : MockKineticPool) :
    Except Revert MockKineticPool := do
  let balance ← orRevert (checkedAdd (p.supplyBalance user) amount) .panic
  let total ← orRevert (checkedAdd p.totalSupply amount) .panic
  return { p with
    supplyBalance := Function.update p.supplyBalance user balance
    totalSupply := total }

/-- `borrowBalance[user] = debt - pay; totalBorrow -= pay`. -/
def reduceDebt (user : Address) (pay : Uint256) (p : MockKineticPool) :
    Except Revert MockKineticPool := do
  let debt ← orRevert (checkedSub (p.borrowBalance user) pay) .panic
  let total ← orRevert (checkedSub p.totalBorrow pay) .panic
  return { p with
    borrowBalance := Function.update p.borrowBalance user debt
    totalBorrow := total }

/-- `a > b ? b : a`. -/
def capped (a b : Uint256) : Uint256 := if b.val < a.val then b else a

section Calls

variable (kinetic : Kinetic) (env : External) (caller : Address)

def supply (amount : Uint256) (l : Lending) : Except Revert Lending := do
  revertIf (amount = 0) .zeroAmount
  let ledger ← l.ledger.call env kinetic.asset kinetic.pool
    (.transferFrom caller kinetic.pool amount.val)
  let pool ← l.pool.credit caller amount
  return ⟨ledger, pool⟩

def borrow (amount : Uint256) (l : Lending) : Except Revert Lending := do
  revertIf (amount = 0) .zeroAmount
  let debt ← orRevert (checkedAdd (l.pool.borrowBalance caller) amount) .panic
  let pool := { l.pool with borrowBalance := Function.update l.pool.borrowBalance caller debt }
  -- the ratio is the one that the new debt would leave
  let ratio ← pool.collateralRatioBps caller
  revertIf (ratio.val < pool.liquidationThresholdBps.val) .insufficientCollateral
  revertIf ((l.ledger kinetic.asset).balanceOf kinetic.pool < amount.val) .insufficientLiquidity
  let total ← orRevert (checkedAdd pool.totalBorrow amount) .panic
  let ledger ← l.ledger.call env kinetic.asset kinetic.pool (.transfer caller amount.val)
  return ⟨ledger, { pool with totalBorrow := total }⟩

def repay (amount : Uint256) (l : Lending) : Except Revert Lending := do
  revertIf (amount = 0) .zeroAmount
  -- who owes nothing pays nothing, and that succeeds
  let pay := capped amount (l.pool.borrowBalance caller)
  let ledger ← l.ledger.call env kinetic.asset kinetic.pool
    (.transferFrom caller kinetic.pool pay.val)
  let pool ← l.pool.reduceDebt caller pay
  return ⟨ledger, pool⟩

def liquidate (user : Address) (repayAmount : Uint256) (l : Lending) : Except Revert Lending := do
  let liquidatable ← l.pool.isLiquidatable user
  revertIf (liquidatable = false) .healthyPosition
  let pay := capped repayAmount (l.pool.borrowBalance user)
  let ledger ← l.ledger.call env kinetic.asset kinetic.pool
    (.transferFrom caller kinetic.pool pay.val)
  let pool ← l.pool.reduceDebt user pay
  -- as much collateral as was repaid, at any price, or all that there is
  let seize := capped pay (pool.supplyBalance user)
  let left ← orRevert (checkedSub (pool.supplyBalance user) seize) .panic
  let total ← orRevert (checkedSub pool.totalSupply seize) .panic
  let ledger ← ledger.call env kinetic.asset kinetic.pool (.transfer caller seize.val)
  return ⟨ledger, { pool with
    supplyBalance := Function.update pool.supplyBalance user left
    totalSupply := total }⟩

/-- A call by `caller` to the pool. -/
def call (l : Lending) : KineticCall → Except Revert Lending
  -- the setters take any value, a price of 0 included
  | .setCollateralFactorBps bps => do
    onlyOwner l.pool.owner caller
    return { l with pool := { l.pool with collateralFactorBps := bps } }
  | .setLiquidationThresholdBps bps => do
    onlyOwner l.pool.owner caller
    return { l with pool := { l.pool with liquidationThresholdBps := bps } }
  | .setPrice priceWei => do
    onlyOwner l.pool.owner caller
    return { l with pool := { l.pool with priceWei } }
  | .supply amount => supply kinetic env caller amount l
  | .borrow amount => borrow kinetic env caller amount l
  | .repay amount => repay kinetic env caller amount l
  | .liquidate user repayAmount => liquidate kinetic env caller user repayAmount l

end Calls

end MockKineticPool

/-- Somebody calls the pool or a token. -/
inductive KineticOp (kinetic : Kinetic)
  | call (env : External) (caller : Other kinetic.pool) (c : KineticCall)
  | token (op : TokenOp kinetic.pool)

section Runs

variable {kinetic : Kinetic}

/-- A call that reverts changes nothing. -/
def Lending.step (l : Lending) : KineticOp kinetic → Lending
  | .call env caller c =>
    match MockKineticPool.call kinetic env caller.addr l c with
    | .ok l' => l'
    | .error _ => l
  | .token op => { l with ledger := op.apply l.ledger }

/-- What the pool receives apart from its operations. -/
def Lending.donation (l : Lending) : KineticOp kinetic → ℕ
  | .call _ _ _ => 0
  | .token op => op.gift kinetic.asset l.ledger

end Runs

end Mirror
