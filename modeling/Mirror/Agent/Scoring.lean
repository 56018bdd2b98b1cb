import Mathlib.Data.List.Sort
import Mirror.Agent.Measures
import Mirror.Engine.Encoding

/-!
The agent's score of a lead, the classification of its strategy, and its drift from the registered
one. The events are whatever JSON they came as, so reading one may throw, and a number may be none.
-/
namespace Mirror

open Js Number Completion

/-- A computation that throws or ends, and never returns early. -/
abbrev Sure := Completion Thrown Empty

/-- Such a computation as a part of a body. -/
def Sure.lift {α ρ : Type} (x : Sure α) : Completion Thrown ρ α :=
  match x with
  | .ok a => .ok a
  | .error (.thrown e) => throwing e

/-- `e.key` of an event; `none` is `undefined`. -/
def property (key : String) (e : Json) : Sure (Option Json) :=
  if e.isNull then throwing .typeError else return e.get (text key)

/-- A value as an operand of arithmetic. -/
def operand (v : Option Json) : Sure Number :=
  match v with
  | some v => orThrow v.toNumber .typeError
  | none => return .nan

/-- `e.key` as an operand. -/
def numeric (key : String) (e : Json) : Sure Number := property key e >>= operand

/-- Numbers in ascending order, and what goes with them. Where the order of their differences is
none, as it may be with `NaN`, the language leaves open which order results. -/
def ascending {α : Type} (keyed : List (Number × α)) : List α :=
  (keyed.insertionSort fun x y => ¬zero.lt (x.1.sub y.1)).map (·.2)

/-- `[...as].sort((a, b) => key(a) - key(b))`, which compares every element if there are two. -/
def sortBy {α : Type} (key : α → Sure Number) (as : List α) : Sure (List α) :=
  if as.length < 2 then return as
  else do
    let keyed ← as.mapM fun a => do return (← key a, a)
    return ascending keyed

/-! ### Scoring -/

/-- `consistencyScore`; sorting moves every `undefined` to the end. -/
def consistencyScore (timestamps : List (Option Json)) : Sure Number :=
  if timestamps.length < 3 then return sparse timestamps.length
  else do
    -- `undefined` is not compared, and turns into `NaN` when it is subtracted
    let present ← sortBy operand (timestamps.filter Option.isSome)
    let sorted ← (present ++ timestamps.filter Option.isNone).mapM operand
    return regularity (gaps sorted)

def dataCompleteness (events : List Json) (nowSec : Number) : Sure Number :=
  if events = [] then return zero
  else do
    let inWindow ← events.mapM fun e => do
      return (windowStart nowSec).le (← numeric "timestamp" e)
    return coverage (inWindow.count true)

def scoreLead (events : List Json) (nowSec : Number) : Sure (ScoreBreakdown Number) := do
  let sorted ← sortBy (numeric "timestamp") events
  let returns ← sorted.mapM fun e => do
    return (← numeric "pnlBps" e).div bps
  let timestamps ← sorted.mapM (property "timestamp")
  let consistency ← consistencyScore timestamps
  let completeness ← dataCompleteness sorted nowSec
  return breakdown returns consistency completeness

/-! ### Classification -/

def directionSeries (events : List Json) : Sure (List Number) :=
  events.mapM fun e => do
    let direction ← property "direction" e
    return if direction.bind Json.asString = some (text "SELL") then one.neg else one

/-- Lag-1 autocorrelation of the directions. -/
def directionAutocorr (events : List Json) : Sure Number := do
  return autocorrelation (← directionSeries events)

/-- A number or a string, as `+` makes one. -/
inductive Primitive
  | num (x : Number)
  | str (s : JsString)

def Primitive.toNumber : Primitive → Number
  | num x => x
  | str s => numberOfText s

def Primitive.toText : Primitive → JsString
  | num x => x.toText
  | str s => s

/-- The primitive that `+` takes a value for. -/
def primitive (v : Json) : Sure Primitive :=
  match v with
  | .null => return .num zero
  | .bool b => return .num (if b then one else zero)
  | .num x => return .num x
  | .str s => return .str s
  | .arr _ | .obj _ => .str <$> orThrow v.toText .typeError

/-- `a + b`, where a string among the two makes a string of them. -/
def Primitive.plus : Primitive → Primitive → Primitive
  | num x, num y => num (x.add y)
  | a, b => str (a.toText ++ b.toText)

/-- `e.sizePct ?? 0`. -/
def sizePct (e : Json) : Sure Json := do
  return ((← property "sizePct" e).filter fun v => !v.isNull).getD (.num zero)

/-- `sizes.length ? sizes.reduce((a, b) => a + b, 0) / sizes.length : 0`. -/
def meanSize (sizes : List Json) : Sure Number :=
  if sizes = [] then return zero
  else do
    let parts ← sizes.mapM primitive
    return (parts.foldl Primitive.plus (.num zero)).toNumber.div (ofLength sizes.length)

def classifyLead (events : List Json) : Sure (Classification Number) := do
  let sorted ← sortBy (numeric "timestamp") events
  let directions ← directionSeries sorted
  let autocorr ← directionAutocorr sorted
  let stated ← sorted.mapM sizePct
  let measured ← stated.mapM fun v => do return (v, ← operand (some v))
  -- what is no number is not above zero
  let sizes := measured.filter fun m => zero.lt m.2
  let meanSize ← meanSize (sizes.map (·.1))
  let losses ← sorted.mapM fun e => Number.abs <$> numeric "pnlBps" e
  let meanAbsPnl := if sorted = [] then zero else mean losses
  return classification directions sorted.length autocorr
    (variation meanSize (sizes.map (·.2))) meanAbsPnl

/-! ### Drift -/

/-- `driftConfidenceThreshold()`, given `process.env.DRIFT_CONFIDENCE_THRESHOLD`. -/
def driftConfidenceThreshold (setting : Option JsString) : Number :=
  let n := numberOfText (setting.getD (text "0.55"))
  if n.isFinite then n else ofRat (55 / 100)

def detectDrift (setting : Option JsString) (lead : JsString) (baselineStrategyType : Number)
    (events : List Json) (cycle : Number) : Sure (DriftResult Number) := do
  let threshold := driftConfidenceThreshold setting
  return drift threshold lead baselineStrategyType cycle (← classifyLead events)

end Mirror
