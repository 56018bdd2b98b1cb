import Mathlib.Tactic.Common
import Mathlib.Tactic.Ring

/-!
Amounts of two tokens compared at their prices. A quote rounds down, which favours whoever gives
the quoted amount away and costs whoever asks for it.
-/
namespace Oracle

/-- How much of a token at price `priceTo` is worth `amount` at price `priceFrom`. -/
def quote (amount priceFrom priceTo : ℕ) : ℕ := amount * priceFrom / priceTo

section

variable (amount priceFrom priceTo : ℕ)

/-- What is quoted is worth no more than what it is quoted for. -/
theorem quote_value_le : quote amount priceFrom priceTo * priceTo ≤ amount * priceFrom :=
  Nat.div_mul_le_self _ _

/-- And it is worth as much only where nothing was cut off. -/
theorem quote_covers :
    amount * priceFrom ≤ quote amount priceFrom priceTo * priceTo ↔
      priceTo ∣ amount * priceFrom := by
  constructor
  · intro covered
    exact ⟨_, (Nat.le_antisymm covered (quote_value_le _ _ _)).trans (Nat.mul_comm _ _)⟩
  · intro whole
    exact (Nat.div_mul_cancel whole).ge

/-- Reserves of two tokens keep their value when what leaves is covered by what comes. -/
theorem value_le_of_covered {held held' kept kept' amountIn amountOut priceIn priceOut : ℕ}
    (paid : held + amountIn ≤ held') (lost : kept ≤ kept' + amountOut)
    (covered : amountOut * priceOut ≤ amountIn * priceIn) :
    held * priceIn + kept * priceOut ≤ held' * priceIn + kept' * priceOut := by
  have gain : (held + amountIn) * priceIn ≤ held' * priceIn := Nat.mul_le_mul_right _ paid
  have loss : kept * priceOut ≤ (kept' + amountOut) * priceOut := Nat.mul_le_mul_right _ lost
  rw [Nat.add_mul] at gain loss
  omega

end

/-- A share of a quote: `num` parts in `den`. -/
def share (num den quoted : ℕ) : ℕ := quoted * num / den

section

variable {amount num den : ℕ}

/-- Where the prices moved by no more than the share allows, the new quote covers the share. -/
theorem share_le_quote {priceFrom priceTo priceFrom' priceTo' : ℕ} (part : 0 < den)
    (positive : 0 < priceTo')
    (moved : num * priceFrom * priceTo' ≤ priceFrom' * priceTo * den) :
    share num den (quote amount priceFrom priceTo) ≤ quote amount priceFrom' priceTo' := by
  rcases Nat.eq_zero_or_pos priceTo with free | priced
  · simp [share, quote, free]
  · apply (Nat.le_div_iff_mul_le positive).mpr
    have cut := quote_value_le amount priceFrom priceTo
    have taken : share num den (quote amount priceFrom priceTo) * den ≤
        quote amount priceFrom priceTo * num := Nat.div_mul_le_self _ _
    -- compare both sides in units of `den * priceTo`
    refine Nat.le_of_mul_le_mul_right ?_ (Nat.mul_pos part priced)
    calc share num den (quote amount priceFrom priceTo) * priceTo' * (den * priceTo)
        = share num den (quote amount priceFrom priceTo) * den * (priceTo * priceTo') := by ring
      _ ≤ quote amount priceFrom priceTo * num * (priceTo * priceTo') :=
          Nat.mul_le_mul_right _ taken
      _ = quote amount priceFrom priceTo * priceTo * (num * priceTo') := by ring
      _ ≤ amount * priceFrom * (num * priceTo') := Nat.mul_le_mul_right _ cut
      _ = amount * (num * priceFrom * priceTo') := by ring
      _ ≤ amount * (priceFrom' * priceTo * den) := Nat.mul_le_mul_left _ moved
      _ = amount * priceFrom' * (den * priceTo) := by ring

/-- Who gets the share gets it up to one unit. -/
theorem lt_share_succ {quoted received : ℕ} (part : 0 < den)
    (enough : share num den quoted ≤ received) : num * quoted < den * (received + 1) := by
  have cut : quoted * num < den * (share num den quoted + 1) := Nat.lt_mul_div_succ _ part
  calc num * quoted
      = quoted * num := Nat.mul_comm _ _
    _ < den * (share num den quoted + 1) := cut
    _ ≤ den * (received + 1) := Nat.mul_le_mul_left _ (Nat.succ_le_succ enough)

end

end Oracle
