import Mirror.Contracts.Sender

/-! `MockSparkDexRouter` and the `AnchorDivergenceGuard` it consults before every swap. -/
namespace Mirror

open Evm

structure AnchorDivergenceGuard where
  notionalThresholdWei : Uint256
  maxDivergenceBps : Uint256

namespace AnchorDivergenceGuard

def checkDivergence (guard : AnchorDivergenceGuard)
    (blockPriceWei anchorPriceWei notionalWei : Uint256) : Except Revert Unit :=
  if notionalWei.val < guard.notionalThresholdWei.val then return ()
  else do
    revertIf (anchorPriceWei = 0) .invalidAnchorPrice
    let diff ← orRevert
      (if anchorPriceWei.val ≤ blockPriceWei.val then checkedSub blockPriceWei anchorPriceWei
        else checkedSub anchorPriceWei blockPriceWei) .panic
    let scaled ← orRevert (checkedMul diff 10000) .panic
    let divergenceBps ← orRevert (checkedDiv scaled anchorPriceWei) .panic
    revertIf (guard.maxDivergenceBps.val < divergenceBps.val)
      (.divergenceExceeded blockPriceWei anchorPriceWei)

end AnchorDivergenceGuard

/-- `ISwapRouter.ExactOutputSingleParams`. -/
structure ExactOutputSingleParams where
  tokenIn : Address
  tokenOut : Address
  fee : Uint24
  recipient : Address
  deadline : Uint256
  amountOut : Uint256
  amountInMaximum : Uint256
  sqrtPriceLimitX96 : Uint160
  deriving DecidableEq

/-- The router's address and its immutables. -/
structure SparkDex where
  router : Address
  fxrp : Address
  usdt0 : Address
  divergenceGuard : AnchorDivergenceGuard

/-- What a transaction finds outside the router: the block, the tokens' consent and the answers
of `IPriceSource`, where `none` is a revert. A price source is read twice in one swap and, being
a view, answers twice the same. -/
structure Market where
  timestamp : Uint256
  tokens : External
  getFxrpUsdInWei : Option (Uint256 × Uint64)
  getUsdt0UsdInWei : Option (Uint256 × Uint64)

structure MockSparkDexRouter where
  owner : Address
  lastAnchorFxrpWei : Uint256
  lastAnchorUsdt0Wei : Uint256
  lastAnchorTimestamp : Uint64
  deriving DecidableEq

/-- The router together with the tokens it calls. -/
structure Exchange where
  ledger : Ledger
  router : MockSparkDexRouter

/-- A swap that went through: the state it leaves and the amounts of its event. -/
structure Swapped where
  exchange : Exchange
  amountIn : Uint256
  amountOut : Uint256

inductive SwapCall
  | exactInputSingle (params : ExactInputSingleParams)
  | exactOutputSingle (params : ExactOutputSingleParams)
  deriving DecidableEq

namespace SwapCall

def tokenIn : SwapCall → Address
  | .exactInputSingle params => params.tokenIn
  | .exactOutputSingle params => params.tokenIn

def tokenOut : SwapCall → Address
  | .exactInputSingle params => params.tokenOut
  | .exactOutputSingle params => params.tokenOut

/-- The amount named by the caller, which is also the one the guard sees. -/
def amount : SwapCall → Uint256
  | .exactInputSingle params => params.amountIn
  | .exactOutputSingle params => params.amountOut

end SwapCall

namespace MockSparkDexRouter

def anchorInterval : Uint64 := 90

/-- `1e18`. -/
def weiPerUsd : ℕ := 10 ^ 18

/-- Storage of a router just constructed. -/
def deployed (initialOwner : Address) : MockSparkDexRouter := ⟨initialOwner, 0, 0, 0⟩

def setAnchorSnapshot (caller : Address) (fxrpWei usdt0Wei : Uint256) (ts : Uint64)
    (r : MockSparkDexRouter) : Except Revert MockSparkDexRouter := do
  onlyOwner r.owner caller
  return { r with
    lastAnchorFxrpWei := fxrpWei
    lastAnchorUsdt0Wei := usdt0Wei
    lastAnchorTimestamp := ts }

section Quotes

variable (dex : SparkDex) (market : Market)

/-- `_spotPrices(tokenIn, tokenOut)`. -/
def spotPrices (tokenIn tokenOut : Address) : Except Revert (Uint256 × Uint256) := do
  let (fxrpUsd, _) ← orRevert market.getFxrpUsdInWei .priceSourceReverted
  let (usdt0Usd, _) ← orRevert market.getUsdt0UsdInWei .priceSourceReverted
  revertIf (¬((tokenIn = dex.fxrp ∧ tokenOut = dex.usdt0) ∨
    (tokenIn = dex.usdt0 ∧ tokenOut = dex.fxrp))) .unsupportedPair
  return (if tokenIn = dex.fxrp then fxrpUsd else usdt0Usd,
    if tokenOut = dex.fxrp then fxrpUsd else usdt0Usd)

/-- The anchor of one of the two tokens. -/
def anchorOf (token : Address) (r : MockSparkDexRouter) : Uint256 :=
  if token = dex.fxrp then r.lastAnchorFxrpWei else r.lastAnchorUsdt0Wei

/-- `_spotAndGuard(tokenIn, tokenOut, amount)`: the anchors it leaves and the spot prices. -/
def spotAndGuard (tokenIn tokenOut : Address) (amount : Uint256) (r : MockSparkDexRouter) :
    Except Revert (MockSparkDexRouter × Uint256 × Uint256) := do
  let (fxrpUsd, fxrpTs) ← orRevert market.getFxrpUsdInWei .priceSourceReverted
  let (usdt0Usd, usdt0Ts) ← orRevert market.getUsdt0UsdInWei .priceSourceReverted
  let ts := if fxrpTs.val < usdt0Ts.val then fxrpTs else usdt0Ts
  let fresh := { r with
    lastAnchorFxrpWei := fxrpUsd
    lastAnchorUsdt0Wei := usdt0Usd
    lastAnchorTimestamp := ts }
  -- the first swap ever takes the spot prices for anchors
  let r := if r.lastAnchorTimestamp = 0 then fresh else r
  let (priceIn, priceOut) ← spotPrices dex market tokenIn tokenOut
  let value ← orRevert (checkedMul amount priceIn) .panic
  let anchorIn := anchorOf dex tokenIn r
  let notionalUsdWei := quotient value weiPerUsd
  dex.divergenceGuard.checkDivergence priceIn anchorIn notionalUsdWei
  let due ← orRevert (checkedAdd64 r.lastAnchorTimestamp anchorInterval) .panic
  return (if due.val ≤ ts.val then fresh else r, priceIn, priceOut)

/-- `_quoteAndGuard(tokenIn, tokenOut, amountIn)`, which returns the amount out. -/
def quoteAndGuard (tokenIn tokenOut : Address) (amountIn : Uint256) (r : MockSparkDexRouter) :
    Except Revert (MockSparkDexRouter × Uint256) := do
  let (r, priceIn, priceOut) ← spotAndGuard dex market tokenIn tokenOut amountIn r
  let value ← orRevert (checkedMul amountIn priceIn) .panic
  let amountOut ← orRevert (checkedDiv value priceOut) .panic
  return (r, amountOut)

/-- `_quoteOutAndGuard(tokenIn, tokenOut, amountOut)`, which returns the amount in. -/
def quoteOutAndGuard (tokenIn tokenOut : Address) (amountOut : Uint256)
    (r : MockSparkDexRouter) : Except Revert (MockSparkDexRouter × Uint256) := do
  let (r, priceIn, priceOut) ← spotAndGuard dex market tokenIn tokenOut amountOut r
  let value ← orRevert (checkedMul amountOut priceOut) .panic
  let amountIn ← orRevert (checkedDiv value priceIn) .panic
  revertIf (amountIn = 0) .zeroAmount
  return (r, amountIn)

end Quotes

section Swaps

variable (dex : SparkDex) (market : Market) (caller : Address)

/-- The two transfers at the end of a swap. -/
def settle (tokenIn tokenOut recipient : Address) (amountIn amountOut : Uint256)
    (ledger : Ledger) : Except Revert Ledger := do
  let ledger ← ledger.call market.tokens tokenIn dex.router
    (.transferFrom caller dex.router amountIn.val)
  ledger.call market.tokens tokenOut dex.router (.transfer recipient amountOut.val)

def exactInputSingle (params : ExactInputSingleParams) (x : Exchange) :
    Except Revert Swapped := do
  revertIf (params.deadline.val < market.timestamp.val) .deadlineExpired
  revertIf (params.amountIn = 0) .zeroAmount
  let (router, amountOut) ←
    quoteAndGuard dex market params.tokenIn params.tokenOut params.amountIn x.router
  revertIf (amountOut.val < params.amountOutMinimum.val) .insufficientOutput
  let ledger ← settle dex market caller params.tokenIn params.tokenOut params.recipient
    params.amountIn amountOut x.ledger
  return ⟨⟨ledger, router⟩, params.amountIn, amountOut⟩

def exactOutputSingle (params : ExactOutputSingleParams) (x : Exchange) :
    Except Revert Swapped := do
  revertIf (params.deadline.val < market.timestamp.val) .deadlineExpired
  revertIf (params.amountOut = 0) .zeroAmount
  let (router, amountIn) ←
    quoteOutAndGuard dex market params.tokenIn params.tokenOut params.amountOut x.router
  revertIf (params.amountInMaximum.val < amountIn.val) .excessiveInput
  let ledger ← settle dex market caller params.tokenIn params.tokenOut params.recipient
    amountIn params.amountOut x.ledger
  return ⟨⟨ledger, router⟩, amountIn, params.amountOut⟩

/-- A swap through either entry point. -/
def swap (x : Exchange) : SwapCall → Except Revert Swapped
  | .exactInputSingle params => exactInputSingle dex market caller params x
  | .exactOutputSingle params => exactOutputSingle dex market caller params x

end Swaps

end MockSparkDexRouter

end Mirror
