import Mirror.Js.Numeral

/-! The agent's view of a position: its health and the collateral that would restore it. -/
namespace Mirror

open Js

inductive HealthStatus
  | healthy
  | driftDetected
  | liquidationRisk
  deriving DecidableEq

structure HealthSnapshot where
  follower : JsString
  lead : JsString
  collateralRatioBps : Number
  alertBps : Number
  liquidateBps : Number
  status : HealthStatus
  needsTopUp : Bool
  suggestedTopUp : ℤ
  deriving DecidableEq

/-- The argument of `assessHealth`; `none` is a property left out. -/
structure HealthOptions where
  follower : JsString
  lead : JsString
  collateralRatioBps : Number
  liquidateBps : Option Number
  alertBps : Option Number
  drift : Option Bool
  borrowBalance : Option ℤ
  supplyBalance : Option ℤ

/-- `liquidationAlertBps()`, given `process.env.LIQUIDATION_ALERT_BPS`. -/
def liquidationAlertBps (setting : Option JsString) : Number :=
  let n := numberOfText (setting.getD (text "13000"))
  if n.isFinite then n else .ofInt 13000 (by decide)

/-- The amount that takes `supply` to `(borrow * BigInt(alertBps)) / 10000n`. -/
def suggestion (borrow alertBps : ℤ) (supply : Option ℤ) : ℤ :=
  let targetSupply := (borrow * alertBps).tdiv 10000
  let current := supply.getD 0
  if current < targetSupply then targetSupply - current else 0

/-- `suggestedTopUp`, where `none` is the `RangeError` of `BigInt(alertBps)`. -/
def suggestedTopUp (needsTopUp : Bool) (alertBps : Number) : Option ℤ → Option ℤ → Option ℤ
  | some borrow, supply =>
    if needsTopUp && 0 < borrow then
      alertBps.toBigInt.map fun alert => suggestion borrow alert supply
    else some 0
  | none, _ => some 0

/-- `assessHealth(opts)`, given `process.env.LIQUIDATION_ALERT_BPS`. -/
def assessHealth (setting : Option JsString) (opts : HealthOptions) : Option HealthSnapshot := do
  let alertBps := opts.alertBps.getD (liquidationAlertBps setting)
  let liquidateBps := opts.liquidateBps.getD (.ofInt 11000 (by decide))
  let cr := opts.collateralRatioBps
  let status :=
    if cr.lt alertBps then HealthStatus.liquidationRisk
    else if opts.drift = some true then .driftDetected else .healthy
  -- `cr < alertBps && cr >= liquidateBps`
  let needsTopUp := cr.lt alertBps && liquidateBps.le cr
  let suggestedTopUp ← suggestedTopUp needsTopUp alertBps opts.borrowBalance opts.supplyBalance
  return {
    follower := opts.follower
    lead := opts.lead
    collateralRatioBps := cr
    alertBps
    liquidateBps
    status
    needsTopUp
    suggestedTopUp }

end Mirror
