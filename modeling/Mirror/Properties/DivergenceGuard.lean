import Mirror.Refinement.Anchors

/-!
Which prices a large swap has checked. The guard takes one price and one anchor, those of the
token that is sold; the anchor of the other token has no say.
-/
namespace Mirror

open Evm MockSparkDexRouter

instance AnchorDivergenceGuard.Tolerates.decidable (guard : AnchorDivergenceGuard)
    (blockPriceWei anchorPriceWei : Uint256) :
    Decidable (guard.Tolerates blockPriceWei anchorPriceWei) :=
  decidable_of_iff _ (guard.checkDivergence_above blockPriceWei anchorPriceWei (Nat.le_refl _))

section Guarded

variable {dex : SparkDex} {market : Market} {caller : Address} {x : Exchange} {swapped : Swapped}

theorem exactInputSingle_amountIn {params : ExactInputSingleParams}
    (done : exactInputSingle dex market caller params x = .ok swapped) :
    swapped.amountIn = params.amountIn := by
  simp only [exactInputSingle, bind_ok, pure_ok] at done
  obtain ⟨_, -, _, -, _, -, _, -, _, -, rfl⟩ := done
  rfl

/-- A swap that the guard sees as large has the sold token within tolerance. -/
theorem swap_tolerated {call : SwapCall} {priceIn priceOut : Uint256}
    (set : x.router.lastAnchorTimestamp ≠ 0)
    (done : swap dex market caller x call = .ok swapped)
    (quoted : spotPrices dex market call.tokenIn call.tokenOut = .ok (priceIn, priceOut))
    (large : dex.divergenceGuard.notionalThresholdWei.val ≤
      call.amount.val * priceIn.val / weiPerUsd) :
    dex.divergenceGuard.Tolerates priceIn (anchorOf dex call.tokenIn x.router) := by
  obtain ⟨_, _, guarded⟩ := swap_guarded done
  obtain ⟨spot, -, again, value, product, checked, -⟩ := spotAndGuard_ok.mp guarded
  -- the two readings of the price source agree
  rw [quoted] at again
  cases again
  rw [seeded_of_set spot set] at checked
  refine (AnchorDivergenceGuard.checkDivergence_above _ _ _ ?_).mp checked
  rwa [quotient_val, product]

end Guarded

/-- A large swap succeeds only if the price of the token it sells is within tolerance of that
token's anchor, and it succeeds alike under any anchor of the token it buys. -/
theorem guard_covers_sold_token (dex : SparkDex) (market : Market) (caller : Address)
    (x : Exchange) (call : SwapCall) (swapped : Swapped) (priceIn priceOut : Uint256)
    (set : x.router.lastAnchorTimestamp ≠ 0)
    (done : swap dex market caller x call = .ok swapped)
    (quoted : spotPrices dex market call.tokenIn call.tokenOut = .ok (priceIn, priceOut))
    (large : dex.divergenceGuard.notionalThresholdWei.val ≤
      swapped.amountIn.val * priceIn.val / weiPerUsd)
    (requested : ∀ params, call = .exactOutputSingle params →
      dex.divergenceGuard.notionalThresholdWei.val ≤
        params.amountOut.val * priceIn.val / weiPerUsd) :
    dex.divergenceGuard.Tolerates priceIn (anchorOf dex call.tokenIn x.router) ∧
      ∀ x' : Exchange, x'.ledger = x.ledger → SameSide dex call.tokenIn x.router x'.router →
        ∃ router, swap dex market caller x' call =
          .ok { swapped with exchange := ⟨swapped.exchange.ledger, router⟩ } := by
  constructor
  · apply swap_tolerated set done quoted
    cases call with
    | exactInputSingle params => rwa [exactInputSingle_amountIn done] at large
    | exactOutputSingle params => exact requested params rfl
  · intro x' funds same
    exact same.swap funds done

/-- A swap that is known to go through, given what it pays. -/
theorem swap_of_amount {dex : SparkDex} {market : Market} {caller : Address} {x : Exchange}
    {call : SwapCall} {amountIn : Uint256}
    (h : (swap dex market caller x call).toOption.map (·.amountIn) = some amountIn) :
    ∃ swapped, swap dex market caller x call = .ok swapped ∧ swapped.amountIn = amountIn := by
  cases done : swap dex market caller x call with
  | error e =>
    rw [done] at h
    cases h
  | ok swapped =>
    rw [done] at h
    exact ⟨swapped, rfl, Option.some.inj h⟩

namespace Sample

/-- Positions from 1000 USD on may diverge by 1%. -/
def dex : SparkDex where
  router := router
  fxrp := deployment.fxrpToken
  usdt0 := usdt0
  divergenceGuard := ⟨1000 * 10 ^ 18, 100⟩

/-- The feeds at one moment, both of the same age. -/
def market (fxrpUsd usdt0Usd : Uint256) (ts : Uint64) : Market where
  timestamp := 0
  tokens := external fun _ => false
  getFxrpUsdInWei := some (fxrpUsd, ts)
  getUsdt0UsdInWei := some (usdt0Usd, ts)

/-- One dollar, in wei. -/
def dollar : Uint256 := 10 ^ 18

/-- The router and the seller both hold plenty of both tokens; the anchors stand at a dollar. -/
def exchange : Exchange where
  ledger t :=
    if t = deployment.fxrpToken then
      token [(alice, .mint alice (10 ^ 24)), (router, .mint router (10 ^ 24)),
        (alice, .approve router (10 ^ 24))]
    else token [(router, .mint router (10 ^ 24))]
  router := ⟨owner, dollar, dollar, 1000⟩

/-- Alice sells this much FXRP. -/
def fxrpSale (amountIn : Uint256) : SwapCall :=
  .exactInputSingle ⟨deployment.fxrpToken, usdt0, 500, alice, 0, amountIn, 0, 0⟩

end Sample

/-- The other anchor may stand at zero, or anywhere else. -/
theorem guard_covers_sold_token_sale :
    ∃ swapped, swap Sample.dex (Sample.market Sample.dollar Sample.dollar 1000) Sample.alice
        Sample.exchange (Sample.fxrpSale (2000 * 10 ^ 18)) = .ok swapped ∧
      Sample.dex.divergenceGuard.Tolerates Sample.dollar Sample.dollar ∧
      ∀ x' : Exchange, x'.ledger = Sample.exchange.ledger →
        SameSide Sample.dex Sample.deployment.fxrpToken Sample.exchange.router x'.router →
        ∃ router, swap Sample.dex (Sample.market Sample.dollar Sample.dollar 1000) Sample.alice x'
            (Sample.fxrpSale (2000 * 10 ^ 18)) =
          .ok { swapped with exchange := ⟨swapped.exchange.ledger, router⟩ } := by
  have sold : ∃ swapped, swap Sample.dex (Sample.market Sample.dollar Sample.dollar 1000)
      Sample.alice Sample.exchange (Sample.fxrpSale (2000 * 10 ^ 18)) = .ok swapped ∧
      swapped.amountIn = 2000 * 10 ^ 18 := swap_of_amount (by decide +kernel)
  obtain ⟨swapped, done, paid⟩ := sold
  exact ⟨swapped, done, guard_covers_sold_token Sample.dex _ Sample.alice Sample.exchange _ swapped
    Sample.dollar Sample.dollar (by decide) done (by decide +kernel)
    (by rw [paid]; decide +kernel) nofun⟩

/-- With USDT0 at half its anchor a large sale of FXRP still goes through. -/
theorem guard_misses_bought_token :
    ¬∀ (dex : SparkDex) (market : Market) (caller : Address) (x : Exchange) (call : SwapCall)
      (swapped : Swapped) (priceIn priceOut : Uint256),
      x.router.lastAnchorTimestamp ≠ 0 →
      swap dex market caller x call = .ok swapped →
      spotPrices dex market call.tokenIn call.tokenOut = .ok (priceIn, priceOut) →
      dex.divergenceGuard.notionalThresholdWei.val ≤
        swapped.amountIn.val * priceIn.val / weiPerUsd →
      dex.divergenceGuard.Tolerates priceIn (anchorOf dex call.tokenIn x.router) ∧
        dex.divergenceGuard.Tolerates priceOut (anchorOf dex call.tokenOut x.router) := by
  intro always
  have sold : ∃ swapped, swap Sample.dex (Sample.market Sample.dollar (5 * 10 ^ 17) 1000)
      Sample.alice Sample.exchange (Sample.fxrpSale (2000 * 10 ^ 18)) = .ok swapped ∧
      swapped.amountIn = 2000 * 10 ^ 18 := swap_of_amount (by decide +kernel)
  obtain ⟨swapped, done, paid⟩ := sold
  have both := always Sample.dex _ Sample.alice Sample.exchange _ swapped Sample.dollar
    (5 * 10 ^ 17) (by decide) done (by decide +kernel) (by rw [paid]; decide +kernel)
  revert both
  decide +kernel

end Mirror
