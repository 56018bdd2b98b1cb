import Mirror.Engine.Handlers
import Mirror.Properties.DivergenceGuard
import Mirror.Refinement.Fills

/-!
The minimum that the matching engine puts into an order, and the router that fills the order. The
engine allows for 1% at the prices that it has read, the router fills at those of its own block.
-/
namespace Mirror

open Evm Oracle MockSparkDexRouter

/-- For a positive notional the truncating divisions of the engine round down. -/
theorem amountOutMinimum_eq_share (pair : Pair) (n : ℕ) :
    pair.amountOutMinimum n =
      (share 9900 10000 (quote n pair.priceIn.val pair.priceOut.val) : ℕ) := by
  simp only [Pair.amountOutMinimum, share, quote]
  norm_cast

section

variable {dex : SparkDex} {market : Market} {caller : Address} {x : Exchange}
  {params : ExactInputSingleParams} {swapped : Swapped} {qIn qOut : Uint256}

/-- A swap that misses its minimum has been quoted less. -/
theorem exactInputSingle_insufficient
    (quoted : spotPrices dex market params.tokenIn params.tokenOut = .ok (qIn, qOut))
    (h : exactInputSingle dex market caller params x = .error .insufficientOutput) :
    0 < qOut.val ∧ quote params.amountIn.val qIn.val qOut.val < params.amountOutMinimum.val := by
  simp only [exactInputSingle, bind_error, revertIf_error, pure_error, reduceCtorEq, and_false,
    false_or, or_false, exists_false, Prod.exists, quoteAndGuard_error] at h
  -- either the comparison failed, or the transfers after it
  obtain ⟨_, -, _, -, _, amountOut, guarded, short | ⟨_, -, unsettled⟩⟩ := h
  · obtain ⟨_, _, again, priced, out⟩ := quoteAndGuard_ok guarded
    cases quoted.symm.trans again
    rw [← out]
    exact ⟨priced, short.1⟩
  · cases settle_error unsettled

theorem exactInputSingle_enough
    (done : exactInputSingle dex market caller params x = .ok swapped) :
    params.amountOutMinimum.val ≤ swapped.amountOut.val ∧
      settle dex market caller params.tokenIn params.tokenOut params.recipient params.amountIn
        swapped.amountOut x.ledger = .ok swapped.exchange.ledger := by
  simp only [exactInputSingle, bind_ok, revertIf_ok, pure_ok, Prod.exists] at done
  obtain ⟨_, -, _, -, _, amountOut, -, _, enough, ledger, settled, rfl⟩ := done
  exact ⟨Nat.le_of_not_lt enough, settled⟩

end

/-- An order with the engine's minimum is not refused for its output as long as the prices moved
by 1% at most; and when it is filled, its recipient is paid 99% of the value that the engine has
seen, up to less than one unit. -/
theorem sized_order_slippage (pair : Pair) (dex : SparkDex) (market : Market) (caller : Address)
    (params : ExactInputSingleParams) (x : Exchange) (qIn qOut : Uint256)
    (sized : (params.amountOutMinimum.val : ℤ) = pair.amountOutMinimum params.amountIn.val)
    (quoted : spotPrices dex market params.tokenIn params.tokenOut = .ok (qIn, qOut)) :
    (99 * pair.priceIn.val * qOut.val ≤ qIn.val * pair.priceOut.val * 100 →
        exactInputSingle dex market caller params x ≠ .error .insufficientOutput) ∧
      ∀ swapped, exactInputSingle dex market caller params x = .ok swapped →
        99 * (params.amountIn.val * pair.priceIn.val / pair.priceOut.val) <
            100 * (swapped.amountOut.val + 1) ∧
          (params.tokenIn ≠ params.tokenOut → params.recipient ≠ dex.router →
            (swapped.exchange.ledger params.tokenOut).balanceOf params.recipient =
              (x.ledger params.tokenOut).balanceOf params.recipient + swapped.amountOut.val) := by
  rw [amountOutMinimum_eq_share, Nat.cast_inj] at sized
  constructor
  · intro moved refused
    obtain ⟨priced, short⟩ := exactInputSingle_insufficient quoted refused
    have covered : params.amountOutMinimum.val ≤ quote params.amountIn.val qIn.val qOut.val := by
      rw [sized]
      apply share_le_quote (by decide) priced
      calc 9900 * pair.priceIn.val * qOut.val
          = 100 * (99 * pair.priceIn.val * qOut.val) := by ring
        _ ≤ 100 * (qIn.val * pair.priceOut.val * 100) := Nat.mul_le_mul_left _ moved
        _ = qIn.val * pair.priceOut.val * 10000 := by ring
    omega
  · intro swapped done
    obtain ⟨enough, settled⟩ := exactInputSingle_enough done
    rw [sized] at enough
    constructor
    · have received := lt_share_succ (by decide) enough
      rw [quote] at received
      omega
    · intro distinct other
      exact settle_delivers distinct other settled

namespace Sample

/-- Three FXRP units at 2 USD for USDT0 at 1 USD: worth 6, of which 5 must arrive. -/
def order : ExactInputSingleParams :=
  ⟨deployment.fxrpToken, usdt0, 500, alice, 0, 3, 5, 0⟩

def pair : Pair := ⟨deployment.fxrpToken, usdt0, 2 * dollar, dollar⟩

end Sample

/-- USDT0 has gained 0.1% when the order is filled. -/
theorem sized_order_slippage_three :
    exactInputSingle Sample.dex (Sample.market (2 * Sample.dollar) (Sample.dollar + 10 ^ 15) 1000)
        Sample.alice Sample.order Sample.exchange ≠ .error .insufficientOutput ∧
      ∃ swapped, exactInputSingle Sample.dex
          (Sample.market (2 * Sample.dollar) (Sample.dollar + 10 ^ 15) 1000)
          Sample.alice Sample.order Sample.exchange = .ok swapped ∧
        99 * 6 < 100 * (swapped.amountOut.val + 1) := by
  have agrees := sized_order_slippage Sample.pair Sample.dex
    (Sample.market (2 * Sample.dollar) (Sample.dollar + 10 ^ 15) 1000) Sample.alice Sample.order
    Sample.exchange (2 * Sample.dollar) (Sample.dollar + 10 ^ 15) (by decide +kernel)
    (by decide +kernel)
  have filled : ∃ swapped, swap Sample.dex
      (Sample.market (2 * Sample.dollar) (Sample.dollar + 10 ^ 15) 1000) Sample.alice
      Sample.exchange (.exactInputSingle Sample.order) = .ok swapped ∧ swapped.amountIn = 3 :=
    swap_of_amount (by decide +kernel)
  obtain ⟨swapped, done, -⟩ := filled
  exact ⟨agrees.1 (by decide +kernel), swapped, done, (agrees.2 swapped done).1⟩

end Mirror
