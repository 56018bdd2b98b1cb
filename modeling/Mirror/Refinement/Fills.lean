import Mirror.Oracle.Quote
import Mirror.Refinement.Anchors

/-!
What a swap pays and receives. Each entry point is told one amount and quotes the other at the spot
prices; the two transfers at its end move exactly these amounts.
-/
namespace Mirror

open Evm Oracle MockSparkDexRouter

section Quotes

variable {dex : SparkDex} {market : Market} {tokenIn tokenOut : Address}
  {r r' : MockSparkDexRouter} {priceIn priceOut amountIn amountOut : Uint256}

theorem quoteAndGuard_ok
    (h : quoteAndGuard dex market tokenIn tokenOut amountIn r = .ok (r', amountOut)) :
    ∃ priceIn priceOut, spotPrices dex market tokenIn tokenOut = .ok (priceIn, priceOut) ∧
      0 < priceOut.val ∧ amountOut.val = quote amountIn.val priceIn.val priceOut.val := by
  simp only [quoteAndGuard, bind_ok, orRevert_ok, pure_ok, Prod.exists, Prod.mk.injEq,
    checkedMul_some, checkedDiv_some] at h
  obtain ⟨_, priceIn, priceOut, guarded, value, product, _, ⟨priced, out⟩, -, rfl⟩ := h
  obtain ⟨_, -, quoted, -⟩ := spotAndGuard_ok.mp guarded
  refine ⟨priceIn, priceOut, quoted, priced, ?_⟩
  rw [out, product, quote]

/-- An amount in is quoted for an amount out that has passed the guard. -/
theorem quoteOutAndGuard_guarded
    (h : quoteOutAndGuard dex market tokenIn tokenOut amountOut r = .ok (r', amountIn)) :
    ∃ priceIn priceOut,
      spotAndGuard dex market tokenIn tokenOut amountOut r = .ok (r', priceIn, priceOut) ∧
      amountOut.val * priceOut.val < 2 ^ 256 ∧ 0 < priceIn.val ∧
      amountIn.val = quote amountOut.val priceOut.val priceIn.val := by
  simp only [quoteOutAndGuard, bind_ok, orRevert_ok, pure_ok, Prod.exists, Prod.mk.injEq,
    checkedMul_some, checkedDiv_some] at h
  obtain ⟨_, priceIn, priceOut, guarded, value, product, _, ⟨priced, paid⟩, -, -, rfl, rfl⟩ := h
  refine ⟨priceIn, priceOut, guarded, product ▸ value.isLt, priced, ?_⟩
  rw [paid, product, quote]

theorem quoteOutAndGuard_ok
    (h : quoteOutAndGuard dex market tokenIn tokenOut amountOut r = .ok (r', amountIn)) :
    ∃ priceIn priceOut, spotPrices dex market tokenIn tokenOut = .ok (priceIn, priceOut) ∧
      0 < priceIn.val ∧ amountIn.val = quote amountOut.val priceOut.val priceIn.val := by
  obtain ⟨priceIn, priceOut, guarded, -, priced, paid⟩ := quoteOutAndGuard_guarded h
  obtain ⟨_, -, quoted, -⟩ := spotAndGuard_ok.mp guarded
  exact ⟨priceIn, priceOut, quoted, priced, paid⟩

/-- Nothing before the comparison of the amounts reverts with `InsufficientOutput`. -/
theorem quoteAndGuard_error :
    quoteAndGuard dex market tokenIn tokenOut amountIn r ≠ .error .insufficientOutput := by
  have guard : ∀ blockPrice anchor notional,
      dex.divergenceGuard.checkDivergence blockPrice anchor notional ≠
        .error .insufficientOutput := by
    intro blockPrice anchor notional
    simp only [AnchorDivergenceGuard.checkDivergence]
    split
    · rintro ⟨⟩
    · simp [bind_error, orRevert_error, revertIf_error]
  -- every other step reverts with an error of its own, or is `guard`
  intro reverted
  simp only [quoteAndGuard, spotAndGuard, spotPrices, bind_error, orRevert_error, revertIf_error,
    pure_error, guard, reduceCtorEq, and_false, exists_false, or_false] at reverted

end Quotes

section Settlement

variable {dex : SparkDex} {market : Market} {caller tokenIn tokenOut recipient : Address}
  {amountIn amountOut : Uint256} {L L' : Ledger}

/-- A token that refuses is the only reason why a settlement fails. -/
theorem settle_error {e : Revert}
    (h : settle dex market caller tokenIn tokenOut recipient amountIn amountOut L = .error e) :
    e = .tokenReverted := by
  simp only [settle, bind_error, Ledger.call_error] at h
  rcases h with ⟨rfl, -⟩ | ⟨_, -, rfl, -⟩
  · rfl
  · rfl

/-- A router that is not its own customer gains what is paid in and loses at most what is paid
out, in every token. -/
theorem settle_reserves (customer : caller ≠ dex.router)
    (h : settle dex market caller tokenIn tokenOut recipient amountIn amountOut L = .ok L')
    (t : Address) :
    (L t).balanceOf dex.router + (if t = tokenIn then amountIn.val else 0) ≤
      (L' t).balanceOf dex.router + (if t = tokenOut then amountOut.val else 0) := by
  simp only [settle, bind_ok] at h
  obtain ⟨mid, collected, paid⟩ := h
  -- the collection credits the router with `amountIn` and no other token
  have received : (mid t).balanceOf dex.router =
      (L t).balanceOf dex.router + (if t = tokenIn then amountIn.val else 0) := by
    by_cases same : t = tokenIn
    · subst same
      rw [if_pos rfl]
      exact (Token.transferFrom_collects customer (Ledger.call_same collected)).1
    · rw [if_neg same, Ledger.call_other collected same, Nat.add_zero]
  rw [← received]
  by_cases same : t = tokenOut
  · subst same
    rw [if_pos rfl]
    obtain ⟨enough, moved, -⟩ := Token.move_some _ _ _ _ _ (Ledger.call_same paid)
    -- paying itself leaves the router what it has
    by_cases itself : dex.router = recipient
    · rw [moved, ← itself, shift_self _ _ _ enough]
      exact Nat.le_add_right _ _
    · exact (Token.transfer_spends itself (Ledger.call_same paid)).1.le
  · rw [if_neg same, Ledger.call_other paid same, Nat.add_zero]

/-- A recipient other than the router is credited what is paid out. -/
theorem settle_delivers (distinct : tokenIn ≠ tokenOut) (other : recipient ≠ dex.router)
    (h : settle dex market caller tokenIn tokenOut recipient amountIn amountOut L = .ok L') :
    (L' tokenOut).balanceOf recipient = (L tokenOut).balanceOf recipient + amountOut.val := by
  simp only [settle, bind_ok] at h
  obtain ⟨mid, collected, paid⟩ := h
  obtain ⟨-, moved, -⟩ := Token.move_some _ _ _ _ _ (Ledger.call_same paid)
  rw [moved, shift_dst _ _ (Ne.symm other), Ledger.call_other collected (Ne.symm distinct)]

end Settlement

end Mirror
