import Mirror.Contracts.Holding

/-! `MockEnosysCDP`: a stablecoin, kept as balances, that is minted against a collateral token. -/
namespace Mirror

open Evm

/-- The contract's address and its immutable. -/
structure Enosys where
  cdp : Address
  collateralToken : Address

structure MockEnosysCDP where
  owner : Address
  stableBalance : Address → Uint256
  collateralOf : Address → Uint256
  debtOf : Address → Uint256
  liquidationThresholdBps : Uint256
  priceWei : Uint256

/-- The contract together with the tokens it calls. -/
structure Loans where
  ledger : Ledger
  cdp : MockEnosysCDP

inductive EnosysCall
  | setPrice (priceWei : Uint256)
  | setLiquidationThresholdBps (bps : Uint256)
  | openCdp (collateralAmount mintAmount : Uint256)
  | adjustCollateral (addAmount removeAmount : Uint256)
  | mintStable (amount : Uint256)
  | repayStable (amount : Uint256)
  | closeCdp

namespace MockEnosysCDP

/-- `1e18`. -/
def priceUnit : ℕ := 10 ^ 18

/-- Storage of a contract just constructed. -/
def deployed (initialOwner : Address) : MockEnosysCDP where
  owner := initialOwner
  stableBalance _ := 0
  collateralOf _ := 0
  debtOf _ := 0
  liquidationThresholdBps := 15000
  priceWei := 10 ^ 18

/-- `_collateralRatioBps(user)`. -/
def collateralRatioBps (user : Address) (c : MockEnosysCDP) : Except Revert Uint256 :=
  let debt := c.debtOf user
  if debt = 0 then return ⟨maxUint256, maxUint256_lt⟩
  else do
    let value ← orRevert (checkedMul (c.collateralOf user) c.priceWei) .panic
    let scaled ← orRevert (checkedMul (quotient value priceUnit) 10000) .panic
    orRevert (checkedDiv scaled debt) .panic

def getCollateralRatio (user : Address) (c : MockEnosysCDP) : Except Revert Uint256 :=
  c.collateralRatioBps user

/-- `debtOf[user] += amount`, `stableBalance[user] += amount`, with the ratio checked between. -/
def draw (user : Address) (amount : Uint256) (c : MockEnosysCDP) : Except Revert MockEnosysCDP := do
  let debt ← orRevert (checkedAdd (c.debtOf user) amount) .panic
  let c := { c with debtOf := Function.update c.debtOf user debt }
  let ratio ← c.collateralRatioBps user
  revertIf (ratio.val < c.liquidationThresholdBps.val) .insufficientCollateral
  let stable ← orRevert (checkedAdd (c.stableBalance user) amount) .panic
  return { c with stableBalance := Function.update c.stableBalance user stable }

/-- `collateralOf[user] -= amount`, with the ratio of an account in debt checked after. -/
def release (user : Address) (amount : Uint256) (c : MockEnosysCDP) :
    Except Revert MockEnosysCDP := do
  revertIf (c.collateralOf user < amount) .insufficientCollateral
  let left ← orRevert (checkedSub (c.collateralOf user) amount) .panic
  let c := { c with collateralOf := Function.update c.collateralOf user left }
  if 0 < c.debtOf user then do
    let ratio ← c.collateralRatioBps user
    revertIf (ratio.val < c.liquidationThresholdBps.val) .insufficientCollateral
    return c
  else return c

section Calls

variable (enosys : Enosys) (env : External) (caller : Address)

/-- `if (amount > 0)`: the caller pays, and `collateralOf[caller] += amount`. -/
def deposit (amount : Uint256) (l : Loans) : Except Revert Loans :=
  if 0 < amount then do
    let ledger ← l.ledger.call env enosys.collateralToken enosys.cdp
      (.transferFrom caller enosys.cdp amount.val)
    let collateral ← orRevert (checkedAdd (l.cdp.collateralOf caller) amount) .panic
    return ⟨ledger, { l.cdp with
      collateralOf := Function.update l.cdp.collateralOf caller collateral }⟩
  else return l

def openCdp (collateralAmount mintAmount : Uint256) (l : Loans) : Except Revert Loans := do
  revertIf (collateralAmount = 0 ∧ mintAmount = 0) .zeroAmount
  let l ← deposit enosys env caller collateralAmount l
  -- collateral alone opens a position without debt
  if 0 < mintAmount then do
    let cdp ← l.cdp.draw caller mintAmount
    return { l with cdp }
  else return l

def adjustCollateral (addAmount removeAmount : Uint256) (l : Loans) : Except Revert Loans := do
  let l ← deposit enosys env caller addAmount l
  -- what is added counts before something is taken away
  if 0 < removeAmount then do
    let cdp ← l.cdp.release caller removeAmount
    let ledger ← l.ledger.call env enosys.collateralToken enosys.cdp
      (.transfer caller removeAmount.val)
    return ⟨ledger, cdp⟩
  else return l

def mintStable (amount : Uint256) (l : Loans) : Except Revert Loans := do
  revertIf (amount = 0) .zeroAmount
  revertIf (l.cdp.collateralOf caller = 0) .noPosition
  let cdp ← l.cdp.draw caller amount
  return { l with cdp }

def repayStable (amount : Uint256) (l : Loans) : Except Revert Loans := do
  revertIf (amount = 0) .zeroAmount
  let debt := l.cdp.debtOf caller
  -- more than the debt is not taken
  let pay := if debt < amount then debt else amount
  let bal := l.cdp.stableBalance caller
  revertIf (bal < pay) .insufficientCollateral
  let stable ← orRevert (checkedSub bal pay) .panic
  let debt ← orRevert (checkedSub debt pay) .panic
  return { l with cdp := { l.cdp with
    stableBalance := Function.update l.cdp.stableBalance caller stable
    debtOf := Function.update l.cdp.debtOf caller debt } }

def closeCdp (l : Loans) : Except Revert Loans := do
  revertIf (l.cdp.debtOf caller ≠ 0) .debtOutstanding
  let col := l.cdp.collateralOf caller
  -- the collateral is written off before the token is called
  let cdp := { l.cdp with collateralOf := Function.update l.cdp.collateralOf caller 0 }
  if 0 < col then do
    let ledger ← l.ledger.call env enosys.collateralToken enosys.cdp (.transfer caller col.val)
    return ⟨ledger, cdp⟩
  else return { l with cdp }

/-- A call by `caller` to the contract. -/
def call (l : Loans) : EnosysCall → Except Revert Loans
  | .setPrice priceWei => do
    onlyOwner l.cdp.owner caller
    return { l with cdp := { l.cdp with priceWei } }
  | .setLiquidationThresholdBps bps => do
    onlyOwner l.cdp.owner caller
    return { l with cdp := { l.cdp with liquidationThresholdBps := bps } }
  | .openCdp collateralAmount mintAmount =>
    openCdp enosys env caller collateralAmount mintAmount l
  | .adjustCollateral addAmount removeAmount =>
    adjustCollateral enosys env caller addAmount removeAmount l
  | .mintStable amount => mintStable caller amount l
  | .repayStable amount => repayStable caller amount l
  | .closeCdp => closeCdp enosys env caller l

end Calls

end MockEnosysCDP

/-- Somebody calls the contract or a token. -/
inductive EnosysOp (enosys : Enosys)
  | call (env : External) (caller : Other enosys.cdp) (c : EnosysCall)
  | token (op : TokenOp enosys.cdp)

section Runs

variable {enosys : Enosys}

/-- A call that reverts changes nothing. -/
def Loans.step (l : Loans) : EnosysOp enosys → Loans
  | .call env caller c =>
    match MockEnosysCDP.call enosys env caller.addr l c with
    | .ok l' => l'
    | .error _ => l
  | .token op => { l with ledger := op.apply l.ledger }

/-- What the contract receives apart from its operations. -/
def Loans.donation (l : Loans) : EnosysOp enosys → ℕ
  | .call _ _ _ => 0
  | .token op => op.gift enosys.collateralToken l.ledger

end Runs

end Mirror
