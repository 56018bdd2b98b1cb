import Mirror.Properties.FanOut
import Mirror.Refinement.Payloads

/-!
What a signal's asset and direction make of a trade. The direction decides which of the two tokens
is sold; the asset is checked and then not looked at, as if it always were FXRP.
-/
namespace Mirror

open Evm hiding Byte
open Js Completion

/-- The assets that a signal may name. -/
inductive Asset
  | fxrp
  | usdt0
  deriving DecidableEq

/-- `signal.asset`, where it is one of the two. -/
def assetOf (signal : Json) : Option Asset :=
  match (signal.get (text "asset")).bind Json.asString with
  | some s =>
    if s = text "FXRP" then some .fxrp else if s = text "USDT0" then some .usdt0 else none
  | none => none

/-- The two tokens and their prices. -/
structure Listing where
  fxrp : Address
  usdt0 : Address
  fxrpUsd : Uint256
  usdt0Usd : Uint256

namespace Listing

variable (l : Listing)

def token : Asset → Address
  | .fxrp => l.fxrp
  | .usdt0 => l.usdt0

def price : Asset → Uint256
  | .fxrp => l.fxrpUsd
  | .usdt0 => l.usdt0Usd

/-- One asset sold for another. -/
def pair (sold bought : Asset) : Pair :=
  ⟨l.token sold, l.token bought, l.price sold, l.price bought⟩

end Listing

/-- The trade that stands in calldata for one of the routers. -/
structure TradeWords where
  tokenIn : ℕ
  tokenOut : ℕ
  amountIn : ℕ
  amountOutMinimum : ℕ
  deriving DecidableEq

def Build.trade (b : Build) : TradeWords :=
  let word := wordAt (b.data.drop 4)
  if b.venue = text "blazeswap-v2" then ⟨word 6, word 7, word 0, word 1⟩
  else ⟨word 0, word 1, word 5, word 6⟩

/-- The instruction buys the named asset or sells it, as directed, and its minimum is priced from
the feed of the token that it sells over the feed of the token that it buys. -/
structure Build.Obeys (l : Listing) (asset : Asset) (direction : Direction) (b : Build) : Prop where
  named : match direction with
    | .buy => b.trade.tokenOut = (l.token asset).val
    | .sell => b.trade.tokenIn = (l.token asset).val
  priced : ∃ sold bought, sold ≠ bought ∧ b.trade.tokenIn = (l.token sold).val ∧
    b.trade.tokenOut = (l.token bought).val ∧
    (b.trade.amountOutMinimum : ℤ) = (l.pair sold bought).amountOutMinimum b.amountIn

section

variable {host : Host} {signal : Json} {a : Accepted}

/-- What the calldata of a swap says. -/
theorem swapCall_trade {args : SwapArgs} {b : Build}
    (called : swapCall host b.venue args = .ok (b.target, b.data)) :
    b.trade.tokenIn = args.pair.tokenIn.val ∧ b.trade.tokenOut = args.pair.tokenOut.val ∧
      (b.trade.amountIn : ℤ) = args.amountIn ∧
      (b.trade.amountOutMinimum : ℤ) = args.amountOutMinimum := by
  simp only [swapCall] at called
  simp only [Build.trade]
  split at called
  next v2 =>
    rw [if_pos v2]
    simp only [blazeswapCall, bind_ok, orThrow_ok, pure_ok, Prod.mk.injEq] at called
    obtain ⟨_, -, _, -, _, encoded, -, rfl⟩ := called
    have word := encodeFunctionData_word encoded
    exact ⟨Int.ofNat.inj (word 6 rfl), Int.ofNat.inj (word 7 rfl), word 0 rfl, word 1 rfl⟩
  next v3 =>
    rw [if_neg v3]
    simp only [sparkdexCall, bind_ok, orThrow_ok, pure_ok, Prod.mk.injEq] at called
    obtain ⟨_, -, _, -, _, encoded, -, rfl⟩ := called
    have word := encodeFunctionData_word encoded
    exact ⟨Int.ofNat.inj (word 0 rfl), Int.ofNat.inj (word 1 rfl), word 5 rfl, word 6 rfl⟩

/-- What the code sells for a direction, and what it buys. -/
def soldFor : Direction → Asset
  | .buy => .usdt0
  | .sell => .fxrp

def boughtFor : Direction → Asset
  | .buy => .fxrp
  | .sell => .usdt0

namespace SwapTrade

def listing (trade : SwapTrade host signal a) : Listing :=
  ⟨trade.fxrp, trade.usdt0, trade.prices.1, trade.prices.2⟩

variable (trade : SwapTrade host signal a)

/-- Every instruction trades one token for the other by its direction alone. -/
theorem trades {b : Build} (member : b ∈ a.builds) :
    b.trade.tokenIn = (trade.listing.token (soldFor trade.direction)).val ∧
      b.trade.tokenOut = (trade.listing.token (boughtFor trade.direction)).val ∧
      (b.trade.amountOutMinimum : ℤ) = (trade.listing.pair (soldFor trade.direction)
        (boughtFor trade.direction)).amountOutMinimum b.amountIn := by
  rw [trade.builds, List.reduceOption_mem_iff] at member
  obtain ⟨p, -, built⟩ := forall₂_exists trade.built.flip member
  obtain ⟨-, -, -, rounds⟩ := swapBuild_ok built
  obtain ⟨-, -, venue, called⟩ := rounds b rfl
  rw [← venue] at called
  obtain ⟨tokenIn, tokenOut, -, minimum⟩ := swapCall_trade called
  have pair : pairOf trade.direction trade.fxrp trade.usdt0 trade.prices =
      trade.listing.pair (soldFor trade.direction) (boughtFor trade.direction) := by
    cases trade.direction <;> rfl
  rw [pair] at tokenIn tokenOut minimum
  exact ⟨tokenIn, tokenOut, minimum⟩

/-- The instructions obey if the asset is FXRP, or the two tokens are one. -/
theorem obeys_iff (asset : Asset) :
    (∀ b ∈ a.builds, b.Obeys trade.listing asset trade.direction) ↔
      asset = .fxrp ∨ trade.fxrp = trade.usdt0 := by
  constructor
  · intro obeys
    -- one instruction is enough to tell the tokens
    obtain ⟨b, rest, split⟩ := List.exists_cons_of_ne_nil trade.instructed
    have member : b ∈ a.builds := split ▸ List.mem_cons_self
    obtain ⟨tokenIn, tokenOut, -⟩ := trade.trades member
    have named := (obeys b member).named
    cases asset with
    | fxrp => exact .inl rfl
    | usdt0 =>
      right
      cases direction : trade.direction with
      | buy =>
        rw [direction] at named tokenOut
        exact Fin.ext (tokenOut.symm.trans named)
      | sell =>
        rw [direction] at named tokenIn
        exact Fin.ext (tokenIn.symm.trans named)
  · intro fine b member
    obtain ⟨tokenIn, tokenOut, minimum⟩ := trade.trades member
    -- where the asset is FXRP, or is the same token, its token is what the direction takes it for
    have token : trade.listing.token asset = trade.fxrp := by
      rcases fine with rfl | one
      · rfl
      · cases asset with
        | fxrp => rfl
        | usdt0 => exact one.symm
    constructor
    · rw [token]
      cases direction : trade.direction with
      | buy =>
        rw [direction] at tokenOut
        exact tokenOut
      | sell =>
        rw [direction] at tokenIn
        exact tokenIn
    · refine ⟨_, _, ?_, tokenIn, tokenOut, minimum⟩
      cases trade.direction <;> decide

end SwapTrade

/-- The signals agree but for their assets. -/
def DifferInAsset (signal signal' : Json) : Prop :=
  ∀ key, key ≠ text "asset" → signal'.get key = signal.get key

/-- Where both are accepted, signals that differ in their assets have the same outcome. -/
theorem DifferInAsset.accepted {signal' : Json} {a' : Accepted}
    (differ : DifferInAsset signal signal') (accepted : swapStageB host signal = .ok a)
    (accepted' : swapStageB host signal' = .ok a') : a' = a := by
  have direction := differ (text "direction") (by decide)
  have sizePct := differ (text "sizePct") (by decide)
  have followers := differ (text "followers") (by decide)
  have recipient := differ (text "recipient") (by decide)
  have lead := differ (text "lead") (by decide)
  have size : sizeOf signal' = sizeOf signal := by rw [Mirror.sizeOf, sizePct, Mirror.sizeOf]
  have targets : checkFollowers signal' = checkFollowers signal := by
    simp only [checkFollowers, followersOf, followers, recipient]
  have finish : accept host signal' = accept host signal := by
    funext direction sizePct venue empty reading builds
    simp only [accept, leadAddr, lead]
  -- the check of the asset is all that tells the two bodies apart
  obtain ⟨_, -, rest⟩ := (bind_ok _ _ _).mp accepted
  obtain ⟨_, -, rest'⟩ := (bind_ok _ _ _).mp accepted'
  rw [direction, size, targets, finish] at rest'
  exact Except.ok.inj (rest'.symm.trans rest)

end

/-- An accepted signal is traded as its asset and direction say if and only if the asset is FXRP or
the two tokens are one; whatever the tokens, a signal that differs from it in the asset alone has
the same instructions. -/
theorem trade_obeys_iff (host : Host) (signal : Json) (a : Accepted)
    (accepted : swapStageB host signal = .ok a) :
    ∃ (asset : Asset) (direction : Direction) (listing : Listing),
      assetOf signal = some asset ∧
      asDirection (signal.get (text "direction")) = some direction ∧
      host.fxrp = some listing.fxrp ∧ host.usdt0 = some listing.usdt0 ∧
      host.rpc.spotPrices = some (listing.fxrpUsd, listing.usdt0Usd) ∧
      ((∀ b ∈ a.builds, b.Obeys listing asset direction) ↔
        asset = .fxrp ∨ listing.fxrp = listing.usdt0) ∧
      ∀ (signal' : Json) (a' : Accepted), DifferInAsset signal signal' →
        swapStageB host signal' = .ok a' → a'.builds = a.builds := by
  obtain ⟨trade⟩ := swapStageB_ok accepted
  obtain ⟨asset, named⟩ : ∃ asset, assetOf signal = some asset := by
    rcases List.mem_pair.mp trade.asset with fxrp | usdt0
    · exact ⟨.fxrp, by rw [assetOf, fxrp]; rfl⟩
    · exact ⟨.usdt0, by rw [assetOf, usdt0]; rfl⟩
  refine ⟨asset, trade.direction, trade.listing, named, trade.directed, trade.resolved.1,
    trade.resolved.2, trade.quoted, trade.obeys_iff asset, ?_⟩
  intro signal' a' differ accepted'
  rw [differ.accepted accepted accepted']

namespace Sample

/-- A host on whose chain the two assets have two tokens. -/
def tokensHost : Host :=
  { host with rpc := { host.rpc with
      getContractAddressByName := fun name =>
        if name = text "AssetManagerFXRP" then some 1 else some 3 } }

/-- A purchase of one asset. -/
def buySignal (asset : String) : Json :=
  .obj [(text "asset", .str (text asset)), (text "direction", .str (text "BUY")),
    (text "sizePct", natJson 100),
    (text "recipient", .str (text "0x00000000000000000000000000000000000000ee"))]

end Sample

theorem fxrp_purchase : ∃ a, swapStageB Sample.tokensHost (Sample.buySignal "FXRP") = .ok a ∧
    a.builds.map Build.amountIn = [10 ^ 22] :=
  accepted_of_amounts (by decide +kernel)

theorem usdt0_purchase : ∃ a, swapStageB Sample.tokensHost (Sample.buySignal "USDT0") = .ok a ∧
    a.builds.map Build.amountIn = [10 ^ 22] :=
  accepted_of_amounts (by decide +kernel)

theorem trade_obeys_iff_fxrp :
    ∃ a, swapStageB Sample.tokensHost (Sample.buySignal "FXRP") = .ok a ∧
      ∃ listing : Listing, listing.fxrp = 2 ∧ listing.usdt0 = 4 ∧
        ∀ b ∈ a.builds, b.Obeys listing .fxrp .buy := by
  obtain ⟨a, accepted, -⟩ := fxrp_purchase
  obtain ⟨asset, direction, listing, named, directed, fxrp, usdt0, -, obeys, -⟩ :=
    trade_obeys_iff Sample.tokensHost (Sample.buySignal "FXRP") a accepted
  have first : asset = .fxrp :=
    Option.some.inj (named.symm.trans (by decide : assetOf (Sample.buySignal "FXRP") = some .fxrp))
  have buy : direction = .buy := Option.some.inj (directed.symm.trans (by decide))
  refine ⟨a, accepted, listing, Option.some.inj (fxrp.symm.trans rfl),
    Option.some.inj (usdt0.symm.trans rfl), ?_⟩
  rw [first, buy] at obeys
  exact obeys.mpr (.inl rfl)

/-- A purchase of USDT0 is the purchase of FXRP. -/
theorem asset_ignored :
    ¬∀ (host : Host) (signal signal' : Json) (a a' : Accepted),
      DifferInAsset signal signal' → assetOf signal = some .fxrp → assetOf signal' = some .usdt0 →
      host.fxrp ≠ host.usdt0 →
      swapStageB host signal = .ok a → swapStageB host signal' = .ok a' →
      a.builds.map Build.data ≠ a'.builds.map Build.data := by
  intro differs
  obtain ⟨a, accepted, -⟩ := fxrp_purchase
  obtain ⟨a', accepted', -⟩ := usdt0_purchase
  have differ : DifferInAsset (Sample.buySignal "FXRP") (Sample.buySignal "USDT0") := by
    intro key other
    exact (Json.get_cons_ne other _ _).trans (Json.get_cons_ne other _ _).symm
  have same := differ.accepted accepted accepted'
  exact differs Sample.tokensHost _ _ a a' differ (by decide) (by decide) (by decide)
    accepted accepted' (by rw [same])

end Mirror
