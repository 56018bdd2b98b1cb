import Mathlib.Data.List.Sort
import Mirror.Agent.Scoring

/-!
Scoring and classification over any arithmetic, of events that are what their type says: nothing
throws, and the arithmetic may also be an exact one.
-/
namespace Mirror.Outcome

open Js Calculation

structure OutcomeEvent (K : Type) where
  timestamp : K
  pnlBps : K
  direction : Option Direction
  sizePct : Option K

section

variable {K : Type} [Zero K] [One K] [Add K] [Sub K] [Mul K] [Div K] [Neg K] [Min K] [Max K]
  [LT K] [LE K] [DecidableEq K] [DecidableLT K] [DecidableLE K] [Calculation K]

/-- `[...as].sort((a, b) => key(a) - key(b))`. -/
def sortBy {α : Type} (key : α → K) (as : List α) : List α :=
  as.insertionSort fun a b => ¬0 < key a - key b

/-! ### Scoring -/

def consistencyScore (timestamps : List K) : K :=
  if timestamps.length < 3 then sparse timestamps.length
  else regularity (gaps (sortBy id timestamps))

def dataCompleteness (events : List (OutcomeEvent K)) (nowSec : K) : K :=
  if events.isEmpty then 0
  else coverage (events.filter fun e => windowStart nowSec ≤ e.timestamp).length

def scoreLead (events : List (OutcomeEvent K)) (nowSec : K) : ScoreBreakdown K :=
  let sorted := sortBy OutcomeEvent.timestamp events
  let returns := sorted.map fun e => e.pnlBps / bps
  let timestamps := sorted.map OutcomeEvent.timestamp
  breakdown returns (consistencyScore timestamps) (dataCompleteness sorted nowSec)

/-- The events that `scoreFromReturns` makes up, to be counted. -/
def fauxEvents (timestamps : List K) (count : ℕ) (nowSec : K) : List (OutcomeEvent K) :=
  (List.range count).map fun i =>
    -- a timestamp that is missing is replaced by the first one
    { timestamp := (timestamps[i]?.or timestamps[0]?).getD nowSec -
        Calculation.length i * literal 86400
      pnlBps := 0
      direction := none
      sizePct := none }

def scoreFromReturns (returns timestamps : List K) (eventCountForCompleteness : ℕ) (nowSec : K) :
    ScoreBreakdown K :=
  breakdown returns (consistencyScore timestamps)
    (dataCompleteness (fauxEvents timestamps eventCountForCompleteness nowSec) nowSec)

/-! ### Classification -/

def directionSeries (events : List (OutcomeEvent K)) : List K :=
  events.map fun e => if e.direction = some .sell then -1 else 1

def directionAutocorr (events : List (OutcomeEvent K)) : K :=
  autocorrelation (directionSeries events)

/-- The positive sizes, in the order of the events. -/
def positiveSizes (events : List (OutcomeEvent K)) : List K :=
  (events.map fun e => e.sizePct.getD 0).filter fun s => 0 < s

/-- `sizes.length ? sizes.reduce((a, b) => a + b, 0) / sizes.length : 0`. -/
def meanSize (sizes : List K) : K := if sizes = [] then 0 else average sizes

def meanAbsPnl (events : List (OutcomeEvent K)) : K :=
  if events.isEmpty then 0 else average (events.map fun e => Calculation.abs e.pnlBps)

def classifyLead (events : List (OutcomeEvent K)) : Classification K :=
  let sorted := sortBy OutcomeEvent.timestamp events
  let sizes := positiveSizes sorted
  classification (directionSeries sorted) sorted.length (directionAutocorr sorted)
    (variation (meanSize sizes) sizes) (meanAbsPnl sorted)

/-! ### Drift -/

/-- `detectDrift`, with the threshold from the environment for callers that give none. -/
def detectDrift (driftConfidenceThreshold : K) (lead : JsString) (baselineStrategyType : K)
    (events : List (OutcomeEvent K)) (cycle : K) (threshold : Option K) : DriftResult K :=
  drift (threshold.getD driftConfidenceThreshold) lead baselineStrategyType cycle
    (classifyLead events)

end

end Mirror.Outcome
