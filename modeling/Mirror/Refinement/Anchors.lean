import Mirror.Mocks.SparkDexRouter
import Mirror.Oracle.Snapshot

/-!
What a swap does to the router's storage. The anchors are a snapshot of the spot prices, and
whether a swap goes through depends on them only through the anchor of the token it sells.
-/
namespace Mirror

open Evm Oracle

namespace AnchorDivergenceGuard

variable (guard : AnchorDivergenceGuard) (blockPriceWei anchorPriceWei : Uint256)

/-- The prices are close enough for a position of any size. -/
def Tolerates : Prop :=
  ∀ notionalWei, guard.checkDivergence blockPriceWei anchorPriceWei notionalWei = .ok ()

/-- From the threshold on the size of a position no longer matters. -/
theorem checkDivergence_above {notionalWei : Uint256}
    (above : guard.notionalThresholdWei.val ≤ notionalWei.val) :
    guard.checkDivergence blockPriceWei anchorPriceWei notionalWei = .ok () ↔
      guard.Tolerates blockPriceWei anchorPriceWei := by
  constructor
  · intro passed notional
    -- a small position passes unseen, a large one is judged on the prices alone
    unfold checkDivergence at passed ⊢
    rw [if_neg (by omega)] at passed
    split
    · rfl
    · exact passed
  · intro tolerated
    exact tolerated notionalWei

end AnchorDivergenceGuard

/-- Both feeds as a swap reads them. The older of the two timestamps counts. -/
structure Spot where
  fxrpUsd : Uint256
  usdt0Usd : Uint256
  ts : Uint64
  deriving DecidableEq

def Market.spot (market : Market) : Option Spot := do
  let (fxrpUsd, fxrpTs) ← market.getFxrpUsdInWei
  let (usdt0Usd, usdt0Ts) ← market.getUsdt0UsdInWei
  return ⟨fxrpUsd, usdt0Usd, if fxrpTs.val < usdt0Ts.val then fxrpTs else usdt0Ts⟩

theorem Market.spot_some {market : Market} {spot : Spot} :
    market.spot = some spot ↔ ∃ fxrpTs usdt0Ts,
      market.getFxrpUsdInWei = some (spot.fxrpUsd, fxrpTs) ∧
      market.getUsdt0UsdInWei = some (spot.usdt0Usd, usdt0Ts) ∧
      spot.ts = if fxrpTs.val < usdt0Ts.val then fxrpTs else usdt0Ts := by
  obtain ⟨fxrpUsd, usdt0Usd, ts⟩ := spot
  simp only [Market.spot, Option.bind_eq_bind, Option.bind_eq_some_iff, Prod.exists,
    Option.pure_def, Option.some.injEq, Spot.mk.injEq]
  constructor
  · rintro ⟨_, fxrpTs, fxrp, _, usdt0Ts, usdt0, rfl, rfl, rfl⟩
    exact ⟨fxrpTs, usdt0Ts, fxrp, usdt0, rfl⟩
  · rintro ⟨fxrpTs, usdt0Ts, fxrp, usdt0, rfl⟩
    exact ⟨_, fxrpTs, fxrp, _, usdt0Ts, usdt0, rfl, rfl, rfl⟩

/-- The spot price of one of the two tokens. -/
def Spot.price (dex : SparkDex) (spot : Spot) (token : Address) : Uint256 :=
  if token = dex.fxrp then spot.fxrpUsd else spot.usdt0Usd

/-- The two directions in which the pair is traded. -/
def SparkDex.Supports (dex : SparkDex) (tokenIn tokenOut : Address) : Prop :=
  (tokenIn = dex.fxrp ∧ tokenOut = dex.usdt0) ∨ (tokenIn = dex.usdt0 ∧ tokenOut = dex.fxrp)

namespace MockSparkDexRouter

/-- Both anchors moved to the spot prices. -/
def sampled (spot : Spot) (r : MockSparkDexRouter) : MockSparkDexRouter :=
  { r with
    lastAnchorFxrpWei := spot.fxrpUsd
    lastAnchorUsdt0Wei := spot.usdt0Usd
    lastAnchorTimestamp := spot.ts }

/-- The anchors that the guard compares with. -/
def seeded (spot : Spot) (r : MockSparkDexRouter) : MockSparkDexRouter :=
  if r.lastAnchorTimestamp = 0 then r.sampled spot else r

theorem seeded_of_set {r : MockSparkDexRouter} (spot : Spot) (set : r.lastAnchorTimestamp ≠ 0) :
    r.seeded spot = r :=
  if_neg set

section Quotes

variable {dex : SparkDex} {market : Market} {tokenIn tokenOut : Address} {amount : Uint256}
  {r r' : MockSparkDexRouter} {priceIn priceOut : Uint256}

theorem spotPrices_ok :
    spotPrices dex market tokenIn tokenOut = .ok (priceIn, priceOut) ↔
      ∃ spot, market.spot = some spot ∧ dex.Supports tokenIn tokenOut ∧
        priceIn = spot.price dex tokenIn ∧ priceOut = spot.price dex tokenOut := by
  simp only [spotPrices, bind_ok, orRevert_ok, revertIf_ok, pure_ok, exists_const, not_not,
    Prod.exists, Prod.mk.injEq, Market.spot_some]
  constructor
  · rintro ⟨fxrpUsd, fxrpTs, fxrp, usdt0Usd, usdt0Ts, usdt0, supported, rfl, rfl⟩
    exact ⟨⟨fxrpUsd, usdt0Usd, _⟩, ⟨fxrpTs, usdt0Ts, fxrp, usdt0, rfl⟩, supported, rfl, rfl⟩
  · rintro ⟨spot, ⟨fxrpTs, usdt0Ts, fxrp, usdt0, -⟩, supported, rfl, rfl⟩
    exact ⟨_, fxrpTs, fxrp, _, usdt0Ts, usdt0, supported, rfl, rfl⟩

/-- Everything a swap has passed once its prices are quoted. -/
theorem spotAndGuard_ok :
    spotAndGuard dex market tokenIn tokenOut amount r = .ok (r', priceIn, priceOut) ↔
      ∃ spot, market.spot = some spot ∧
        spotPrices dex market tokenIn tokenOut = .ok (priceIn, priceOut) ∧
        ∃ value, value.val = amount.val * priceIn.val ∧
          dex.divergenceGuard.checkDivergence priceIn (anchorOf dex tokenIn (r.seeded spot))
            (quotient value weiPerUsd) = .ok () ∧
          (r.seeded spot).lastAnchorTimestamp.val + 90 < 2 ^ 64 ∧
          r' = if (r.seeded spot).lastAnchorTimestamp.val + 90 ≤ spot.ts.val then r.sampled spot
            else r.seeded spot := by
  simp only [spotAndGuard, bind_ok, orRevert_ok, pure_ok, Prod.exists,
    Prod.mk.injEq, Market.spot_some, checkedMul_some, checkedAdd64_some]
  constructor
  · rintro ⟨fxrpUsd, fxrpTs, fxrp, usdt0Usd, usdt0Ts, usdt0, _, _, quoted, value, product,
      _, passed, due, sum, rfl, rfl, rfl⟩
    let spot : Spot := ⟨fxrpUsd, usdt0Usd, if fxrpTs.val < usdt0Ts.val then fxrpTs else usdt0Ts⟩
    have dueAt : due.val = (r.seeded spot).lastAnchorTimestamp.val + 90 := sum
    refine ⟨spot, ⟨fxrpTs, usdt0Ts, fxrp, usdt0, rfl⟩, quoted, value, product, passed, ?_, ?_⟩
    · rw [← dueAt]
      exact due.isLt
    · rw [← dueAt]
      rfl
  · rintro ⟨⟨fxrpUsd, usdt0Usd, ts⟩, ⟨fxrpTs, usdt0Ts, fxrp, usdt0, rfl⟩, quoted, value,
      product, passed, fits, rfl⟩
    exact ⟨_, fxrpTs, fxrp, _, usdt0Ts, usdt0, _, _, quoted, value, product, (), passed,
      ⟨_, fits⟩, rfl, rfl, rfl, rfl⟩

/-- The two agree on the age of the anchors and on the anchor of the token that is sold. -/
structure SameSide (dex : SparkDex) (tokenIn : Address) (r r' : MockSparkDexRouter) : Prop where
  timestamp : r'.lastAnchorTimestamp = r.lastAnchorTimestamp
  anchor : anchorOf dex tokenIn r' = anchorOf dex tokenIn r

theorem SameSide.seeded (same : SameSide dex tokenIn r r') (spot : Spot) :
    SameSide dex tokenIn (r.seeded spot) (r'.seeded spot) := by
  by_cases unset : r.lastAnchorTimestamp = 0
  · -- both take the spot prices
    simp only [MockSparkDexRouter.seeded, same.timestamp, if_pos unset]
    exact ⟨rfl, rfl⟩
  · rwa [seeded_of_set spot unset, seeded_of_set spot (same.timestamp ▸ unset)]

/-- The anchor of the token that is bought is never looked at. -/
theorem SameSide.spotAndGuard (same : SameSide dex tokenIn r r') {next : MockSparkDexRouter}
    (passed : spotAndGuard dex market tokenIn tokenOut amount r = .ok (next, priceIn, priceOut)) :
    ∃ next', MockSparkDexRouter.spotAndGuard dex market tokenIn tokenOut amount r' =
      .ok (next', priceIn, priceOut) := by
  obtain ⟨spot, shown, quoted, value, product, checked, fits, -⟩ := spotAndGuard_ok.mp passed
  have agreed := same.seeded spot
  rw [← agreed.timestamp] at fits
  rw [← agreed.anchor] at checked
  exact ⟨_, spotAndGuard_ok.mpr ⟨spot, shown, quoted, value, product, checked, fits, rfl⟩⟩

end Quotes

section Swaps

variable {dex : SparkDex} {market : Market} {caller : Address} {x x' : Exchange}
  {call : SwapCall} {swapped : Swapped}

/-- Both entry points go through the guard, with the amount the caller named. -/
theorem swap_guarded (done : swap dex market caller x call = .ok swapped) :
    ∃ priceIn priceOut,
      spotAndGuard dex market call.tokenIn call.tokenOut call.amount x.router =
        .ok (swapped.exchange.router, priceIn, priceOut) := by
  cases call with
  | exactInputSingle params =>
    simp only [swap, exactInputSingle, quoteAndGuard, bind_ok, pure_ok, Prod.exists,
      Prod.mk.injEq] at done
    obtain ⟨_, -, _, -, _, _, ⟨_, priceIn, priceOut, guarded, _, -, _, -, rfl, -⟩, _, -, _, -,
      rfl⟩ := done
    exact ⟨priceIn, priceOut, guarded⟩
  | exactOutputSingle params =>
    simp only [swap, exactOutputSingle, quoteOutAndGuard, bind_ok, pure_ok, Prod.exists,
      Prod.mk.injEq] at done
    obtain ⟨_, -, _, -, _, _, ⟨_, priceIn, priceOut, guarded, _, -, _, -, _, -, rfl, -⟩, _, -, _,
      -, rfl⟩ := done
    exact ⟨priceIn, priceOut, guarded⟩

/-- Where only the anchor of the bought token differs, the same swaps go through. -/
theorem SameSide.swap (same : SameSide dex call.tokenIn x.router x'.router)
    (funds : x'.ledger = x.ledger) (done : swap dex market caller x call = .ok swapped) :
    ∃ router, MockSparkDexRouter.swap dex market caller x' call =
      .ok { swapped with exchange := ⟨swapped.exchange.ledger, router⟩ } := by
  cases call with
  | exactInputSingle params =>
    simp only [MockSparkDexRouter.swap, exactInputSingle, quoteAndGuard, bind_ok, pure_ok,
      Prod.exists, Prod.mk.injEq, funds] at done ⊢
    obtain ⟨_, timely, _, nonzero, _, amountOut, ⟨_, priceIn, priceOut, guarded, value, product,
      out, quoted, rfl, rfl⟩, _, enough, ledger, settled, rfl⟩ := done
    obtain ⟨next, guarded'⟩ := same.spotAndGuard guarded
    exact ⟨next, _, timely, _, nonzero, next, out, ⟨next, priceIn, priceOut, guarded', value,
      product, out, quoted, rfl, rfl⟩, _, enough, ledger, settled, rfl⟩
  | exactOutputSingle params =>
    simp only [MockSparkDexRouter.swap, exactOutputSingle, quoteOutAndGuard, bind_ok, pure_ok,
      Prod.exists, Prod.mk.injEq, funds] at done ⊢
    obtain ⟨_, timely, _, nonzero, _, amountIn, ⟨_, priceIn, priceOut, guarded, value, product,
      paid, quoted, _, positive, rfl, rfl⟩, _, enough, ledger, settled, rfl⟩ := done
    obtain ⟨next, guarded'⟩ := same.spotAndGuard guarded
    exact ⟨next, _, timely, _, nonzero, next, paid, ⟨next, priceIn, priceOut, guarded', value,
      product, paid, quoted, _, positive, rfl, rfl⟩, _, enough, ledger, settled, rfl⟩

end Swaps

end MockSparkDexRouter

end Mirror
