import Mirror.Properties.DivergenceGuard
import Mirror.Refinement.Fills

/-!
The guard on the two ways to ask for the same trade. It values the amount that the caller named at
the price of the token that is sold. A caller who names the amount out names an amount of the other
token, so the guard sees a position of another size than the one that is paid for.
-/
namespace Mirror

open Evm Oracle MockSparkDexRouter

/-- What the guard takes the size of a position for. -/
def notional (amount priceIn : ℕ) : ℕ := amount * priceIn / weiPerUsd

/-- The amount in, paid for this amount out, is too small for the guard, or the amount out, at the
price of the sold token, is large enough, or the sold token is within tolerance anyhow. -/
def AnchorDivergenceGuard.SeesAlike (guard : AnchorDivergenceGuard)
    (priceIn priceOut anchorIn amountOut : Uint256) : Prop :=
  notional (quote amountOut.val priceOut.val priceIn.val) priceIn.val <
      guard.notionalThresholdWei.val ∨
    guard.notionalThresholdWei.val ≤ notional amountOut.val priceIn.val ∨
    guard.Tolerates priceIn anchorIn

instance (guard : AnchorDivergenceGuard) (priceIn priceOut anchorIn amountOut : Uint256) :
    Decidable (guard.SeesAlike priceIn priceOut anchorIn amountOut) :=
  inferInstanceAs (Decidable (_ ∨ _ ∨ _))

section

variable {guard : AnchorDivergenceGuard} {blockPriceWei anchorPriceWei notionalWei : Uint256}

/-- The guard lets small positions pass, and any that it tolerates. -/
theorem AnchorDivergenceGuard.checkDivergence_iff :
    guard.checkDivergence blockPriceWei anchorPriceWei notionalWei = .ok () ↔
      notionalWei.val < guard.notionalThresholdWei.val ∨
        guard.Tolerates blockPriceWei anchorPriceWei := by
  by_cases small : notionalWei.val < guard.notionalThresholdWei.val
  · refine iff_of_true ?_ (.inl small)
    rw [checkDivergence, if_pos small]
    rfl
  · rw [guard.checkDivergence_above _ _ (not_lt.mp small), or_iff_right small]

end

section

variable {dex : SparkDex} {market : Market} {tokenIn tokenOut : Address}
  {amount priceIn priceOut : Uint256} {r : MockSparkDexRouter} {spot : Spot}

/-- A position passes the guard where its value is a word, the guard agrees and the clock fits. -/
theorem spotAndGuard_passes (shown : market.spot = some spot)
    (quoted : spotPrices dex market tokenIn tokenOut = .ok (priceIn, priceOut)) :
    (∃ passed, spotAndGuard dex market tokenIn tokenOut amount r = .ok passed) ↔
      amount.val * priceIn.val < 2 ^ 256 ∧
        (notional amount.val priceIn.val < dex.divergenceGuard.notionalThresholdWei.val ∨
          dex.divergenceGuard.Tolerates priceIn (anchorOf dex tokenIn (r.seeded spot))) ∧
        (r.seeded spot).lastAnchorTimestamp.val + 90 < 2 ^ 64 := by
  constructor
  · rintro ⟨⟨_, _, _⟩, passed⟩
    obtain ⟨_, again, quoted', value, product, checked, fits, -⟩ := spotAndGuard_ok.mp passed
    cases shown.symm.trans again
    cases quoted.symm.trans quoted'
    rw [AnchorDivergenceGuard.checkDivergence_iff, quotient_val, product] at checked
    exact ⟨product ▸ value.isLt, checked, fits⟩
  · rintro ⟨product, checked, fits⟩
    refine ⟨_, spotAndGuard_ok.mpr
      ⟨spot, shown, quoted, ⟨amount.val * priceIn.val, product⟩, rfl, ?_, fits, rfl⟩⟩
    exact AnchorDivergenceGuard.checkDivergence_iff.mpr checked

end

/-- Whenever `exactOutputSingle` goes through, the guard of `exactInputSingle` lets the amount in
pass exactly if that amount is small, the amount out is large, both at the price of the sold token,
or that price is within tolerance of its anchor. -/
theorem output_guard_alike_iff (dex : SparkDex) (market : Market) (caller : Address)
    (params : ExactOutputSingleParams) (x : Exchange) (swapped : Swapped) (spot : Spot)
    (shown : market.spot = some spot)
    (done : exactOutputSingle dex market caller params x = .ok swapped) :
    (∃ passed, spotAndGuard dex market params.tokenIn params.tokenOut swapped.amountIn x.router =
        .ok passed) ↔
      dex.divergenceGuard.SeesAlike (spot.price dex params.tokenIn)
        (spot.price dex params.tokenOut) (anchorOf dex params.tokenIn (x.router.seeded spot))
        params.amountOut := by
  simp only [exactOutputSingle, bind_ok, pure_ok, Prod.exists] at done
  obtain ⟨_, -, _, -, _, amountIn, quotedOut, _, -, _, -, rfl⟩ := done
  obtain ⟨priceIn, priceOut, passed, fits, -, paid⟩ := quoteOutAndGuard_guarded quotedOut
  obtain ⟨_, -, priced, -⟩ := spotAndGuard_ok.mp passed
  obtain ⟨_, again, -, rfl, rfl⟩ := spotPrices_ok.mp priced
  cases shown.symm.trans again
  have asked := (spotAndGuard_passes shown priced).mp ⟨_, passed⟩
  rw [spotAndGuard_passes shown priced, AnchorDivergenceGuard.SeesAlike, paid]
  constructor
  · rintro ⟨-, small | tolerated, -⟩
    · exact .inl small
    · exact .inr (.inr tolerated)
  · intro alike
    refine ⟨lt_of_le_of_lt (quote_value_le _ _ _) fits, ?_, asked.2.2⟩
    rcases alike with small | large | tolerated
    · exact .inl small
    -- the guard has judged the amount out, and not because it is small
    · exact .inr (asked.2.1.resolve_left (not_lt.mpr large))
    · exact .inr tolerated

namespace Sample

/-- FXRP has lost half of what its anchor says. -/
def slump : Market := market (5 * 10 ^ 17) dollar 1000

/-- Alice buys this much USDT0 for FXRP. -/
def usdt0Order (amountOut : Uint256) : ExactOutputSingleParams :=
  ⟨deployment.fxrpToken, usdt0, 500, alice, 0, amountOut, 10 ^ 30, 0⟩

end Sample

/-- A hundred USDT0 are a small position either way. -/
theorem output_guard_alike_iff_small :
    ∃ swapped, exactOutputSingle Sample.dex Sample.slump Sample.alice
        (Sample.usdt0Order (100 * 10 ^ 18)) Sample.exchange = .ok swapped ∧
      ∃ passed, spotAndGuard Sample.dex Sample.slump Sample.deployment.fxrpToken Sample.usdt0
        swapped.amountIn Sample.exchange.router = .ok passed := by
  obtain ⟨swapped, done, -⟩ : ∃ swapped, swap Sample.dex Sample.slump Sample.alice Sample.exchange
      (.exactOutputSingle (Sample.usdt0Order (100 * 10 ^ 18))) = .ok swapped ∧
      swapped.amountIn = 200 * 10 ^ 18 := swap_of_amount (by decide +kernel)
  exact ⟨swapped, done, (output_guard_alike_iff Sample.dex Sample.slump Sample.alice
    (Sample.usdt0Order (100 * 10 ^ 18)) Sample.exchange swapped
    ⟨5 * 10 ^ 17, Sample.dollar, 1000⟩ (by decide) done).mpr (by decide +kernel)⟩

/-- 1500 USDT0 pass for 750 USD and cost 3000 FXRP, which sold by amount would not pass. -/
theorem output_evades_guard :
    ¬∀ (dex : SparkDex) (market : Market) (caller : Address) (params : ExactOutputSingleParams)
      (x : Exchange) (swapped : Swapped),
      exactOutputSingle dex market caller params x = .ok swapped →
      ∃ passed, spotAndGuard dex market params.tokenIn params.tokenOut swapped.amountIn x.router =
        .ok passed := by
  intro always
  obtain ⟨swapped, done, paid⟩ : ∃ swapped, swap Sample.dex Sample.slump Sample.alice
      Sample.exchange (.exactOutputSingle (Sample.usdt0Order (1500 * 10 ^ 18))) = .ok swapped ∧
      swapped.amountIn = 3000 * 10 ^ 18 := swap_of_amount (by decide +kernel)
  have alike := always Sample.dex Sample.slump Sample.alice
    (Sample.usdt0Order (1500 * 10 ^ 18)) Sample.exchange swapped done
  have shown : Sample.slump.spot = some ⟨5 * 10 ^ 17, Sample.dollar, 1000⟩ := by decide
  have quoted : spotPrices Sample.dex Sample.slump Sample.deployment.fxrpToken Sample.usdt0 =
      .ok (5 * 10 ^ 17, Sample.dollar) := by decide +kernel
  have judged := (spotAndGuard_passes shown quoted).mp alike
  rw [paid] at judged
  revert judged
  decide +kernel

end Mirror
