import Mirror.Js.Calculation
import Mirror.Js.Text

/-!
What the agent computes of returns, gaps, directions and sizes, once it has them: the parts of a
score, the choice of a strategy, and its drift from the registered one. The text is the same over
any arithmetic, that of the language or an exact one.
-/
namespace Mirror

open Js Calculation

/-! ### Results -/

structure ScoreBreakdown (K : Type) where
  sharpe : K
  maxDrawdown : K
  consistency : K
  dataCompleteness : K
  aiScore : K
  deriving DecidableEq

inductive StrategyClass
  | momentum
  | meanReversion
  | yieldArb
  deriving DecidableEq

structure Classification (K : Type) where
  strategy : StrategyClass
  confidence : K
  directionAutocorr : K
  sizeCv : K
  meanAbsPnlBps : K

structure DriftResult (K : Type) where
  lead : JsString
  baseline : K
  live : StrategyClass
  liveCode : K
  confidence : K
  drifted : Bool
  cycle : K
  threshold : K

section

variable {K : Type} [Zero K] [One K] [Add K] [Sub K] [Mul K] [Div K] [Neg K] [Min K] [Max K]
  [LT K] [LE K] [DecidableEq K] [DecidableLT K] [DecidableLE K] [Calculation K]

/-! ### Scoring -/

/-- The highest score. -/
def maxScore : K := literal 100

/-- One, in basis points. -/
def bps : K := literal 10000

def weightSharpe : K := literal (4 / 10)

def weightDrawdown : K := literal (25 / 100)

def weightConsistency : K := literal (2 / 10)

def weightCompleteness : K := literal (15 / 100)

def sharpeEquivalent (returns : List K) (periodsPerYear : K) : K :=
  if returns.length < 2 then 0
  else
    let mean := average returns
    let variance := squares mean returns / length (returns.length - 1)
    let stdev := Calculation.sqrt variance
    if stdev = 0 then (if 0 < mean then literal 10 else 0)
    else mean / stdev * Calculation.sqrt periodsPerYear

structure Equity (K : Type) where
  equity : K
  peak : K
  mdd : K

/-- One period of `maxDrawdown`. -/
def Equity.step (s : Equity K) (r : K) : Equity K :=
  let equity := s.equity * (1 + r)
  let peak := if s.peak < equity then equity else s.peak
  -- a drop that is no number is no larger than the worst one
  let dd := if 0 < peak then (peak - equity) / peak else 0
  ⟨equity, peak, if s.mdd < dd then dd else s.mdd⟩

def maxDrawdown (returns : List K) : K := (returns.foldl Equity.step ⟨1, 1, 0⟩).mdd

/-- `Math.max(0, Math.min(1, x))`. -/
def clamp01 (x : K) : K := max 0 (min 1 x)

/-- The positive differences of neighbours. -/
def gaps (sorted : List K) : List K :=
  (sorted.zipWith (fun earlier later => later - earlier) sorted.tail).filter fun g => 0 < g

/-- The part of `consistencyScore` that is about the gaps. -/
def regularity (gaps : List K) : K :=
  if gaps = [] then 0
  else
    let mean := average gaps
    if mean = 0 then 0
    else
      let variance := squares mean gaps / length gaps.length
      let cv := Calculation.sqrt variance / mean
      clamp01 (1 - cv)

/-- `consistencyScore` of so few timestamps that they leave at most one gap. -/
def sparse (timestamps : ℕ) : K := if timestamps = 0 then 0 else literal (3 / 10)

/-- When the window of 30 days begins that `dataCompleteness` looks at. -/
def windowStart (nowSec : K) : K := nowSec - literal (30 * 24 * 3600)

/-- `dataCompleteness`, for so many events in the window. -/
def coverage (inWindow : ℕ) : K := clamp01 (length inWindow / literal 30)

/-- Map Sharpe to 0–1. -/
def normalizeSharpe (s : K) : K := clamp01 (s / literal 2)

/-- Map drawdown to 0–1. -/
def normalizeDrawdown (mdd : K) : K := clamp01 (1 - mdd)

/-- The weighted sum of the four parts, before it is rounded. -/
def composite (sharpe mdd consistency completeness : K) : K :=
  maxScore *
    (weightSharpe * normalizeSharpe sharpe + weightDrawdown * normalizeDrawdown mdd +
      weightConsistency * consistency + weightCompleteness * completeness)

/-- The part that `scoreLead` and `scoreFromReturns` share. -/
def breakdown (returns : List K) (consistency completeness : K) : ScoreBreakdown K :=
  let sharpe := sharpeEquivalent returns (literal 365)
  let mdd := maxDrawdown returns
  let aiScore := Calculation.round (composite sharpe mdd consistency completeness)
  { sharpe
    maxDrawdown := mdd
    consistency
    dataCompleteness := completeness
    aiScore := max 0 (min maxScore aiScore) }

/-! ### Classification -/

/-- Lag-1 autocorrelation of a series. -/
def autocorrelation (d : List K) : K :=
  if d.length < 3 then 0
  else
    let mean := average d
    let den := squares mean d
    let num := total (d.zipWith (fun before x => (x - mean) * (before - mean)) d.tail)
    if den = 0 then 0 else num / den

/-- How sizes vary around their mean. -/
def variation (meanSize : K) (sizes : List K) : K :=
  let sizeVar := if 1 < sizes.length then squares meanSize sizes / length sizes.length else 0
  if 0 < meanSize then Calculation.sqrt sizeVar / meanSize else 1

/-- The strategy, and how confident the classifier is of it. -/
def chooseStrategy (allSameDirection : Bool) (count : ℕ) (autocorr sizeCv meanAbsPnl : K) :
    StrategyClass × K :=
  if allSameDirection ∧ 3 ≤ count then (.momentum, literal (9 / 10))
  else if literal (25 / 100) ≤ autocorr then (.momentum, clamp01 autocorr)
  else if autocorr ≤ literal (-15 / 100) then (.meanReversion, clamp01 (-autocorr))
  else if sizeCv < literal (25 / 100) ∧ meanAbsPnl < literal 80 ∧ 5 ≤ count then
    (.yieldArb, clamp01 (1 - sizeCv))
  else
    (if literal 100 ≤ meanAbsPnl then .momentum else .meanReversion, literal (35 / 100))

/-- The end of `classifyLead`, that has the features of the events. -/
def classification (directions : List K) (count : ℕ) (autocorr sizeCv meanAbsPnl : K) :
    Classification K :=
  let allSameDirection := directions ≠ [] ∧ ∀ d ∈ directions, some d = directions.head?
  let chosen := chooseStrategy allSameDirection count autocorr sizeCv meanAbsPnl
  ⟨chosen.1, chosen.2, autocorr, sizeCv, meanAbsPnl⟩

/-! ### Drift -/

/-- Map classifier label to the registry's `strategyType`. -/
def strategyTypeCode : StrategyClass → K
  | .momentum => 0
  | .meanReversion => 1
  | .yieldArb => literal 2

/-- The end of `detectDrift`, that has the classification. -/
def drift (threshold : K) (lead : JsString) (baselineStrategyType cycle : K)
    (classification : Classification K) : DriftResult K :=
  let liveCode := strategyTypeCode classification.strategy
  { lead
    baseline := baselineStrategyType
    live := classification.strategy
    liveCode
    confidence := classification.confidence
    drifted := liveCode ≠ baselineStrategyType ∧ threshold ≤ classification.confidence
    cycle
    threshold }

end

end Mirror
