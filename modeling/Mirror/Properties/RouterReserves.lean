import Mirror.Properties.AnchorSampling
import Mirror.Refinement.Fills

/-!
What the router's reserves are worth. Whoever names the amount in is quoted an output that is
rounded down, in the router's favour; whoever names the amount out is quoted an input that is
rounded down as well, at the router's cost.
-/
namespace Mirror

open Evm Oracle MockSparkDexRouter

/-- The oracle shows these prices, at whatever time. -/
def Market.Shows (fxrpUsd usdt0Usd : Uint256) (market : Market) : Prop :=
  ∃ ts, market.spot = some ⟨fxrpUsd, usdt0Usd, ts⟩

section

variable (dex : SparkDex) (fxrpUsd usdt0Usd : Uint256)

/-- The price of one of the two tokens. -/
def SparkDex.price (token : Address) : ℕ := (if token = dex.fxrp then fxrpUsd else usdt0Usd).val

/-- What the router holds of both tokens, at these prices. -/
def Exchange.reserveValue (x : Exchange) : ℕ :=
  (x.ledger dex.fxrp).balanceOf dex.router * fxrpUsd.val +
    (x.ledger dex.usdt0).balanceOf dex.router * usdt0Usd.val

/-- The router is paid at least the value that it gives away. -/
def Swapped.Covered (tokenIn tokenOut : Address) (swapped : Swapped) : Prop :=
  swapped.amountOut.val * dex.price fxrpUsd usdt0Usd tokenOut ≤
    swapped.amountIn.val * dex.price fxrpUsd usdt0Usd tokenIn

/-- The call names what it sells, or it buys what a whole number of units is worth. -/
def SwapCall.Whole : SwapCall → Prop
  | .exactInputSingle _ => True
  | .exactOutputSingle params =>
    dex.price fxrpUsd usdt0Usd params.tokenIn ∣
      params.amountOut.val * dex.price fxrpUsd usdt0Usd params.tokenOut

instance (call : SwapCall) : Decidable (call.Whole dex fxrpUsd usdt0Usd) :=
  match call with
  | .exactInputSingle _ => inferInstanceAs (Decidable True)
  | .exactOutputSingle _ => inferInstanceAs (Decidable (_ ∣ _))

variable {dex fxrpUsd usdt0Usd} {x : Exchange} {op : SwapOp} {swapped : Swapped}

/-- The prices of a swap are those that the oracle shows. -/
theorem Market.Shows.prices {market : Market} (shown : market.Shows fxrpUsd usdt0Usd)
    {tokenIn tokenOut : Address} {priceIn priceOut : Uint256}
    (quoted : spotPrices dex market tokenIn tokenOut = .ok (priceIn, priceOut)) :
    dex.Supports tokenIn tokenOut ∧ priceIn.val = dex.price fxrpUsd usdt0Usd tokenIn ∧
      priceOut.val = dex.price fxrpUsd usdt0Usd tokenOut := by
  obtain ⟨ts, spot⟩ := shown
  obtain ⟨_, spot', supported, rfl, rfl⟩ := spotPrices_ok.mp quoted
  cases spot.symm.trans spot'
  exact ⟨supported, rfl, rfl⟩

/-- What a swap that went through has quoted, and how it was settled. -/
theorem swap_filled (shown : op.market.Shows fxrpUsd usdt0Usd)
    (done : swap dex op.market op.caller x op.call = .ok swapped) :
    ∃ recipient, dex.Supports op.call.tokenIn op.call.tokenOut ∧
      settle dex op.market op.caller op.call.tokenIn op.call.tokenOut recipient swapped.amountIn
        swapped.amountOut x.ledger = .ok swapped.exchange.ledger ∧
      (swapped.Covered dex fxrpUsd usdt0Usd op.call.tokenIn op.call.tokenOut ↔
        op.call.Whole dex fxrpUsd usdt0Usd) := by
  obtain ⟨market, caller, call⟩ := op
  cases call with
  | exactInputSingle params =>
    simp only [swap, exactInputSingle, bind_ok, pure_ok, Prod.exists] at done
    obtain ⟨_, -, _, -, _, amountOut, guarded, _, -, ledger, settled, rfl⟩ := done
    obtain ⟨priceIn, priceOut, quoted, -, out⟩ := quoteAndGuard_ok guarded
    obtain ⟨supported, priced, priced'⟩ := shown.prices quoted
    refine ⟨params.recipient, supported, settled, iff_of_true ?_ trivial⟩
    rw [priced, priced'] at out
    -- the output is a quote, which is never worth more than what it is for
    rw [Swapped.Covered, out]
    exact quote_value_le _ _ _
  | exactOutputSingle params =>
    simp only [swap, exactOutputSingle, bind_ok, pure_ok, Prod.exists] at done
    obtain ⟨_, -, _, -, _, amountIn, guarded, _, -, ledger, settled, rfl⟩ := done
    obtain ⟨priceIn, priceOut, quoted, -, paid⟩ := quoteOutAndGuard_ok guarded
    obtain ⟨supported, priced, priced'⟩ := shown.prices quoted
    refine ⟨params.recipient, supported, settled, ?_⟩
    rw [priced, priced'] at paid
    -- the input is a quote, worth as much as the output only where nothing was cut off
    rw [Swapped.Covered, paid]
    exact quote_covers _ _ _

/-- A covered trade of the pair keeps the value of the reserves. -/
theorem settle_value {market : Market} {caller tokenIn tokenOut recipient : Address} {L' : Ledger}
    {r : MockSparkDexRouter} (priced : 0 < fxrpUsd.val) (customer : caller ≠ dex.router)
    (supported : dex.Supports tokenIn tokenOut)
    (settled : settle dex market caller tokenIn tokenOut recipient swapped.amountIn
      swapped.amountOut x.ledger = .ok L')
    (covered : swapped.Covered dex fxrpUsd usdt0Usd tokenIn tokenOut) :
    x.reserveValue dex fxrpUsd usdt0Usd ≤
      (Exchange.mk L' r).reserveValue dex fxrpUsd usdt0Usd := by
  have moved := settle_reserves customer settled
  unfold Exchange.reserveValue
  have fxrp := moved dex.fxrp
  have usdt0 := moved dex.usdt0
  by_cases one : dex.usdt0 = dex.fxrp
  · -- one token in both roles: what comes in and what goes out are compared as amounts
    have same : tokenIn = dex.fxrp ∧ tokenOut = dex.fxrp := by
      rcases supported with ⟨rfl, rfl⟩ | ⟨rfl, rfl⟩
      · exact ⟨rfl, one⟩
      · exact ⟨one, rfl⟩
    obtain ⟨rfl, rfl⟩ := same
    have less : swapped.amountOut.val ≤ swapped.amountIn.val := by
      simp only [Swapped.Covered, SparkDex.price, if_pos] at covered
      exact Nat.le_of_mul_le_mul_right covered priced
    have kept : (x.ledger dex.fxrp).balanceOf dex.router ≤
        (L' dex.fxrp).balanceOf dex.router := by
      rw [if_pos rfl, if_pos rfl] at fxrp
      omega
    rw [one]
    gcongr
  · have other : dex.fxrp ≠ dex.usdt0 := Ne.symm one
    rcases supported with ⟨rfl, rfl⟩ | ⟨rfl, rfl⟩
    · simp only [Swapped.Covered, SparkDex.price, if_pos, if_neg one] at covered
      rw [if_pos rfl, if_neg other, Nat.add_zero] at fxrp
      rw [if_neg one, if_pos rfl, Nat.add_zero] at usdt0
      exact value_le_of_covered fxrp usdt0 covered
    · simp only [Swapped.Covered, SparkDex.price, if_pos, if_neg one] at covered
      rw [if_neg other, if_pos rfl, Nat.add_zero] at fxrp
      rw [if_pos rfl, if_neg one, Nat.add_zero] at usdt0
      have kept := value_le_of_covered usdt0 fxrp covered
      dsimp only
      omega

/-- A swap of whole units keeps the value of the reserves, and so does one that reverts. -/
theorem step_value (priced : 0 < fxrpUsd.val) (shown : op.market.Shows fxrpUsd usdt0Usd)
    (customer : op.caller ≠ dex.router) (whole : op.call.Whole dex fxrpUsd usdt0Usd) :
    x.reserveValue dex fxrpUsd usdt0Usd ≤ (x.step dex op).reserveValue dex fxrpUsd usdt0Usd := by
  simp only [Exchange.step]
  cases done : swap dex op.market op.caller x op.call with
  | error e => exact Nat.le_refl _
  | ok swapped =>
    obtain ⟨recipient, supported, settled, exact⟩ := swap_filled shown done
    exact settle_value priced customer supported settled (exact.mpr whole)

end

/-- At fixed prices an executed swap covers what it takes out exactly if it names what it sells or
buys what a whole number of units is worth; in a run of such swaps the reserves never lose value. -/
theorem reserves_keep_value (dex : SparkDex) (fxrpUsd usdt0Usd : Uint256) (x : Exchange)
    (ops : List SwapOp) (priced : 0 < fxrpUsd.val)
    (fixed : ∀ op ∈ ops, op.market.Shows fxrpUsd usdt0Usd)
    (customers : ∀ op ∈ ops, op.caller ≠ dex.router) :
    Admissible (Exchange.step dex) (fun x op => ∀ swapped,
        swap dex op.market op.caller x op.call = .ok swapped →
        (swapped.Covered dex fxrpUsd usdt0Usd op.call.tokenIn op.call.tokenOut ↔
          op.call.Whole dex fxrpUsd usdt0Usd)) x ops ∧
      ((∀ op ∈ ops, op.call.Whole dex fxrpUsd usdt0Usd) →
        Admissible (Exchange.step dex) (fun x op =>
          x.reserveValue dex fxrpUsd usdt0Usd ≤
            (x.step dex op).reserveValue dex fxrpUsd usdt0Usd) x ops) := by
  constructor
  · refine admissible_of_forall (fun x op shown swapped done => ?_) x ops fixed
    obtain ⟨_, -, -, exact⟩ := swap_filled shown done
    exact exact
  · intro whole
    have sound : ∀ (x : Exchange) (op : SwapOp), (op.market.Shows fxrpUsd usdt0Usd ∧
        op.caller ≠ dex.router ∧ op.call.Whole dex fxrpUsd usdt0Usd) →
        x.reserveValue dex fxrpUsd usdt0Usd ≤
          (x.step dex op).reserveValue dex fxrpUsd usdt0Usd := by
      rintro x op ⟨shown, customer, whole⟩
      exact step_value priced shown customer whole
    refine admissible_of_forall sound x ops fun op member => ?_
    exact ⟨fixed op member, customers op member, whole op member⟩

namespace Sample

/-- With FXRP at 2 USD, Alice buys this much USDT0 for one unit of FXRP at most. -/
def usdt0Purchase (amountOut : Uint256) : SwapOp where
  market := market (2 * dollar) dollar 1000
  caller := alice
  call := .exactOutputSingle ⟨deployment.fxrpToken, usdt0, 500, alice, 0, amountOut, 1, 0⟩

end Sample

/-- Two units of USDT0 are worth one of FXRP. -/
theorem reserves_keep_value_two :
    Admissible (Exchange.step Sample.dex) (fun x op =>
      x.reserveValue Sample.dex (2 * Sample.dollar) Sample.dollar ≤
        (x.step Sample.dex op).reserveValue Sample.dex (2 * Sample.dollar) Sample.dollar)
      Sample.exchange [Sample.usdt0Purchase 2] := by
  refine (reserves_keep_value Sample.dex (2 * Sample.dollar) Sample.dollar Sample.exchange
    [Sample.usdt0Purchase 2] (by decide) ?_ ?_).2 ?_
  · intro op member
    cases List.mem_singleton.mp member
    exact ⟨1000, by decide +kernel⟩
  · decide
  · decide +kernel

/-- Three units of USDT0 are sold for one unit of FXRP at 2 USD. -/
theorem reserves_lose_value :
    ¬∀ (dex : SparkDex) (fxrpUsd usdt0Usd : Uint256) (x : Exchange) (ops : List SwapOp),
      0 < fxrpUsd.val → 0 < usdt0Usd.val →
      (∀ op ∈ ops, op.market.Shows fxrpUsd usdt0Usd) →
      (∀ op ∈ ops, op.caller ≠ dex.router) →
      Admissible (Exchange.step dex) (fun x op =>
        x.reserveValue dex fxrpUsd usdt0Usd ≤
          (x.step dex op).reserveValue dex fxrpUsd usdt0Usd) x ops := by
  intro always
  have kept := always Sample.dex (2 * Sample.dollar) Sample.dollar Sample.exchange
    [Sample.usdt0Purchase 3] (by decide) (by decide) ?_ (by decide)
  · revert kept
    decide +kernel
  · intro op member
    cases List.mem_singleton.mp member
    exact ⟨1000, by decide +kernel⟩

end Mirror
