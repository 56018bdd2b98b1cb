import Mirror.Contracts.Holding

/-! `MockFirelightStrategy`: assets held in shares, with a yield that the owner sets. -/
namespace Mirror

open Evm

/-- The strategy's address and its immutable. -/
structure Firelight where
  strategy : Address
  asset : Address

structure MockFirelightStrategy where
  owner : Address
  balanceOf : Address → Uint256
  totalShares : Uint256
  totalAssets : Uint256
  yieldAmount : Uint256

/-- The strategy together with the tokens it calls. -/
structure Staking where
  ledger : Ledger
  strategy : MockFirelightStrategy

inductive FirelightCall
  | setYieldAmount (amount : Uint256)
  | deposit (assets : Uint256)
  | withdraw (shares : Uint256)

namespace MockFirelightStrategy

/-- Storage of a strategy just constructed. -/
def deployed (initialOwner : Address) : MockFirelightStrategy where
  owner := initialOwner
  balanceOf _ := 0
  totalShares := 0
  totalAssets := 0
  yieldAmount := 0

/-- `setYieldAmount(amount)`. A yield that falls takes no more than there is. -/
def setYieldAmount (caller : Address) (amount : Uint256) (m : MockFirelightStrategy) :
    Except Revert MockFirelightStrategy := do
  onlyOwner m.owner caller
  let totalAssets ←
    (if m.yieldAmount ≤ amount then do
      let inc ← orRevert (checkedSub amount m.yieldAmount) .panic
      orRevert (checkedAdd m.totalAssets inc) .panic
    else do
      let dec ← orRevert (checkedSub m.yieldAmount amount) .panic
      -- not below 0, whatever the depositors hold
      if dec < m.totalAssets then orRevert (checkedSub m.totalAssets dec) .panic else pure 0)
  return { m with totalAssets, yieldAmount := amount }

/-- What is issued for `assets`: as many shares as they buy, and one for each unit where that is
none or there is nothing to go by. -/
def sharesFor (assets : Uint256) (m : MockFirelightStrategy) : Except Revert Uint256 := do
  let shares ←
    (if m.totalShares = 0 ∨ m.totalAssets = 0 then pure assets
    else do
      let product ← orRevert (checkedMul assets m.totalShares) .panic
      orRevert (checkedDiv product m.totalAssets) .panic)
  -- a deposit that buys no share is issued one for each unit all the same
  return if shares = 0 then assets else shares

def convertToAssets (shares : Uint256) (m : MockFirelightStrategy) : Except Revert Uint256 :=
  if m.totalShares = 0 then return shares
  else do
    let product ← orRevert (checkedMul shares m.totalAssets) .panic
    orRevert (checkedDiv product m.totalShares) .panic

section Calls

variable (firelight : Firelight) (env : External) (caller : Address)

/-- `deposit(assets)` and the shares it returns. -/
def deposit (assets : Uint256) (l : Staking) : Except Revert (Staking × Uint256) := do
  revertIf (assets = 0) .zeroAmount
  let ledger ← l.ledger.call env firelight.asset firelight.strategy
    (.transferFrom caller firelight.strategy assets.val)
  -- the shares are counted by what the strategy has noted, not by what it holds
  let shares ← l.strategy.sharesFor assets
  let balance ← orRevert (checkedAdd (l.strategy.balanceOf caller) shares) .panic
  let totalShares ← orRevert (checkedAdd l.strategy.totalShares shares) .panic
  let totalAssets ← orRevert (checkedAdd l.strategy.totalAssets assets) .panic
  return (⟨ledger, { l.strategy with
    balanceOf := Function.update l.strategy.balanceOf caller balance
    totalShares
    totalAssets }⟩, shares)

/-- `withdraw(shares)` and the assets it returns. -/
def withdraw (shares : Uint256) (l : Staking) : Except Revert (Staking × Uint256) := do
  revertIf (shares = 0) .zeroAmount
  revertIf (l.strategy.balanceOf caller < shares) .insufficientShares
  let assets ←
    (if l.strategy.totalShares = 0 then pure 0
    else do
      let product ← orRevert (checkedMul shares l.strategy.totalAssets) .panic
      orRevert (checkedDiv product l.strategy.totalShares) .panic)
  let balance ← orRevert (checkedSub (l.strategy.balanceOf caller) shares) .panic
  let totalShares ← orRevert (checkedSub l.strategy.totalShares shares) .panic
  let totalAssets ← orRevert (checkedSub l.strategy.totalAssets assets) .panic
  -- the token is called last, and refuses what the strategy does not hold
  let ledger ← l.ledger.call env firelight.asset firelight.strategy (.transfer caller assets.val)
  return (⟨ledger, { l.strategy with
    balanceOf := Function.update l.strategy.balanceOf caller balance
    totalShares
    totalAssets }⟩, assets)

/-- A call by `caller` to the strategy. -/
def call (l : Staking) : FirelightCall → Except Revert Staking
  | .setYieldAmount amount => do
    let strategy ← l.strategy.setYieldAmount caller amount
    return { l with strategy }
  | .deposit assets => do
    let (l, _) ← deposit firelight env caller assets l
    return l
  | .withdraw shares => do
    let (l, _) ← withdraw firelight env caller shares l
    return l

end Calls

end MockFirelightStrategy

/-- Somebody calls the strategy or a token. -/
inductive FirelightOp (firelight : Firelight)
  | call (env : External) (caller : Other firelight.strategy) (c : FirelightCall)
  | token (op : TokenOp firelight.strategy)

/-- A call that reverts changes nothing. -/
def Staking.step {firelight : Firelight} (l : Staking) : FirelightOp firelight → Staking
  | .call env caller c =>
    match MockFirelightStrategy.call firelight env caller.addr l c with
    | .ok l' => l'
    | .error _ => l
  | .token op => { l with ledger := op.apply l.ledger }

end Mirror
