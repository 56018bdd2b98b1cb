import Mathlib.Analysis.Real.Sqrt
import Mirror.Refinement.Outcomes

/-!
The order in which events are listed, in exact arithmetic. Sorting by time leaves open only the
order of events that share their timestamp, which the drawdown and the autocorrelation depend on.
-/
namespace Mirror.Outcome

open Js

section

variable {K : Type} {events events' : List (OutcomeEvent K)}

/-- The event counts as a sale. -/
def OutcomeEvent.sells (e : OutcomeEvent K) : Bool := e.direction = some .sell

variable [LinearOrder K]

/-- Events that share their timestamp come in the same order, as far as `f` tells them apart. -/
def SameTies {β : Type} (f : OutcomeEvent K → β) (events events' : List (OutcomeEvent K)) : Prop :=
  ∀ t, (withKey OutcomeEvent.timestamp t events).map f =
    (withKey OutcomeEvent.timestamp t events').map f

/-- It is enough that `f` does not tell events apart that share their timestamp. -/
theorem sameTies_of_agree {β : Type} {f : OutcomeEvent K → β} (perm : events.Perm events')
    (agree : ∀ e ∈ events, ∀ e' ∈ events, e.timestamp = e'.timestamp → f e = f e') :
    SameTies f events events' := by
  intro t
  have tied : ((withKey OutcomeEvent.timestamp t events).map f).Perm
      ((withKey OutcomeEvent.timestamp t events').map f) := (perm.filter _).map f
  -- all that is read off tied events is the same
  have same (as : List (OutcomeEvent K)) (part : ∀ e ∈ as, e ∈ events) :
      ((withKey OutcomeEvent.timestamp t as).map f).Pairwise (· = ·) := by
    refine List.pairwise_map.mpr (List.pairwise_of_forall_mem_list fun e he e' he' => ?_)
    rw [mem_withKey] at he he'
    exact agree e (part e he.1) e' (part e' he'.1) (he.2.trans he'.2.symm)
  exact List.Perm.eq_of_pairwise (fun _ _ _ _ equal _ => equal) (same events fun _ => id)
    (same events' fun _ => perm.mem_iff.mpr) tied

variable [Field K] [IsStrictOrderedRing K] [FloorRing K] [SquareRoot K]

theorem scoreLead_eq (ties : SameTies OutcomeEvent.pnlBps events events') (nowSec : K) :
    scoreLead events nowSec = scoreLead events' nowSec := by
  have sorted := map_sortOn_eq ties
  have timestamps : (sortOn OutcomeEvent.timestamp events).map OutcomeEvent.timestamp =
      (sortOn OutcomeEvent.timestamp events').map OutcomeEvent.timestamp := by
    have := congrArg (List.map Prod.fst) sorted
    rwa [List.map_map, List.map_map] at this
  have returns : (sortOn OutcomeEvent.timestamp events).map (fun e => e.pnlBps / bps) =
      (sortOn OutcomeEvent.timestamp events').map fun e => e.pnlBps / bps := by
    have := congrArg (List.map fun x : K × K => x.2 / bps) sorted
    rwa [List.map_map, List.map_map] at this
  have completeness := dataCompleteness_perm (.of_eq timestamps) nowSec
  simp only [scoreLead, sortBy_eq, timestamps, returns, completeness]

theorem classifyLead_eq (perm : events.Perm events')
    (ties : SameTies OutcomeEvent.sells events events') :
    classifyLead events = classifyLead events' := by
  have sorted := map_sortOn_eq ties
  have perm' : (sortOn OutcomeEvent.timestamp events).Perm
      (sortOn OutcomeEvent.timestamp events') := sortOn_perm_of_perm perm
  have series (as : List (OutcomeEvent K)) : directionSeries as =
      (as.map fun e => (e.timestamp, e.sells)).map fun x => if x.2 then -1 else 1 := by
    rw [List.map_map]
    refine List.map_congr_left fun e _ => ?_
    simp [OutcomeEvent.sells]
  have directions : directionSeries (sortOn OutcomeEvent.timestamp events) =
      directionSeries (sortOn OutcomeEvent.timestamp events') := by
    rw [series, series, sorted]
  have autocorr : directionAutocorr (sortOn OutcomeEvent.timestamp events) =
      directionAutocorr (sortOn OutcomeEvent.timestamp events') := by
    simp only [directionAutocorr, directions]
  simp only [classifyLead, sortBy_eq, directions, autocorr, perm'.length_eq,
    meanSize_perm (positiveSizes_perm perm'), variation_perm (positiveSizes_perm perm'),
    meanAbsPnl_perm perm']

/-- All but the drawdown and the autocorrelation is the same however the events are listed. -/
theorem sums_listed (perm : events.Perm events') (nowSec : K) :
    (scoreLead events nowSec).sharpe = (scoreLead events' nowSec).sharpe ∧
    (scoreLead events nowSec).consistency = (scoreLead events' nowSec).consistency ∧
    (scoreLead events nowSec).dataCompleteness = (scoreLead events' nowSec).dataCompleteness ∧
    (classifyLead events).sizeCv = (classifyLead events').sizeCv ∧
    (classifyLead events).meanAbsPnlBps = (classifyLead events').meanAbsPnlBps := by
  have perm' : (sortOn OutcomeEvent.timestamp events).Perm
      (sortOn OutcomeEvent.timestamp events') := sortOn_perm_of_perm perm
  have sizes := positiveSizes_perm perm'
  simp only [scoreLead, breakdown, classifyLead, classification, sortBy_eq]
  exact ⟨sharpeEquivalent_perm (perm'.map _) _, consistencyScore_perm (perm'.map _),
    dataCompleteness_perm (perm'.map _) nowSec,
    (variation_perm sizes _).trans (congrArg (variation · _) (meanSize_perm sizes)),
    meanAbsPnl_perm perm'⟩

/-- The whole result is the same if events that share their timestamp keep the order of their
returns, or of their directions, as they do where they agree in them. -/
theorem scores_listed (perm : events.Perm events') (nowSec : K) :
    (scoreLead events nowSec).sharpe = (scoreLead events' nowSec).sharpe ∧
    (scoreLead events nowSec).consistency = (scoreLead events' nowSec).consistency ∧
    (scoreLead events nowSec).dataCompleteness = (scoreLead events' nowSec).dataCompleteness ∧
    (classifyLead events).sizeCv = (classifyLead events').sizeCv ∧
    (classifyLead events).meanAbsPnlBps = (classifyLead events').meanAbsPnlBps ∧
    (SameTies OutcomeEvent.pnlBps events events' →
      scoreLead events nowSec = scoreLead events' nowSec) ∧
    (SameTies OutcomeEvent.sells events events' →
      classifyLead events = classifyLead events') ∧
    ((∀ e ∈ events, ∀ e' ∈ events, e.timestamp = e'.timestamp →
        e.pnlBps = e'.pnlBps ∧ e.sells = e'.sells) →
      scoreLead events nowSec = scoreLead events' nowSec ∧
        classifyLead events = classifyLead events') := by
  obtain ⟨sharpe, consistency, completeness, sizes, losses⟩ := sums_listed perm nowSec
  refine ⟨sharpe, consistency, completeness, sizes, losses, fun ties => scoreLead_eq ties nowSec,
    classifyLead_eq perm, fun agree => ⟨scoreLead_eq ?_ nowSec, classifyLead_eq perm ?_⟩⟩
  · exact sameTies_of_agree perm fun e he e' he' same => (agree e he e' he' same).1
  · exact sameTies_of_agree perm fun e he e' he' same => (agree e he e' he' same).2

end

/-! ### Tied events -/

/-- The square root of the reals. -/
noncomputable instance : SquareRoot ℝ := ⟨Real.sqrt⟩

namespace Sample

/-- An event at this time with this return. -/
def event (timestamp pnlBps : ℤ) : OutcomeEvent ℝ := ⟨timestamp, pnlBps, none, none⟩

/-- A loss of a tenth, then a loss and a gain of a half at one time. -/
def lossFirst : List (OutcomeEvent ℝ) := [event 1 (-1000), event 2 (-5000), event 2 5000]

def gainFirst : List (OutcomeEvent ℝ) := [event 1 (-1000), event 2 5000, event 2 (-5000)]

theorem perm : lossFirst.Perm gainFirst := (List.Perm.swap _ _ _).cons _

/-- Events in order are scored as they are. -/
theorem drawdown {events : List (OutcomeEvent ℝ)} (nowSec : ℝ)
    (sorted : events.Pairwise fun a b => a.timestamp ≤ b.timestamp) :
    (scoreLead events nowSec).maxDrawdown =
      maxDrawdown (events.map fun e => e.pnlBps / Calculation.literal 10000) := by
  simp only [scoreLead, breakdown, sortBy_eq, sortOn]
  rw [List.Pairwise.insertionSort_eq sorted]
  rfl

end Sample

theorem scores_listed_two :
    scoreLead [Sample.event 1 100, Sample.event 2 (-200)] 0 =
        scoreLead [Sample.event 2 (-200), Sample.event 1 100] 0 ∧
      classifyLead [Sample.event 1 100, Sample.event 2 (-200)] =
        classifyLead [Sample.event 2 (-200), Sample.event 1 100] := by
  have listed := scores_listed
    (List.Perm.swap (Sample.event 2 (-200)) (Sample.event 1 100) []) 0
  refine listed.2.2.2.2.2.2.2 fun e he e' he' same => ?_
  simp only [List.mem_cons, List.not_mem_nil, or_false] at he he'
  -- no two of them share their timestamp
  rcases he with rfl | rfl <;> rcases he' with rfl | rfl
  · exact ⟨rfl, rfl⟩
  · norm_num [Sample.event] at same
  · norm_num [Sample.event] at same
  · exact ⟨rfl, rfl⟩

/-- The drawdown is 55 percent where the loss is listed first, else 50 percent. -/
theorem tied_events_matter :
    ¬∀ (events events' : List (OutcomeEvent ℝ)) (nowSec : ℝ), events.Perm events' →
      scoreLead events nowSec = scoreLead events' nowSec ∧
        classifyLead events = classifyLead events' := by
  intro listed
  have same := congrArg ScoreBreakdown.maxDrawdown
    (listed Sample.lossFirst Sample.gainFirst 0 Sample.perm).1
  have loss : (scoreLead Sample.lossFirst 0).maxDrawdown = 55 / 100 := by
    rw [Sample.drawdown 0 (by simp [Sample.lossFirst, Sample.event])]
    norm_num [maxDrawdown, Sample.lossFirst, Sample.event, Equity.step, Calculation.literal]
  have gain : (scoreLead Sample.gainFirst 0).maxDrawdown = 50 / 100 := by
    rw [Sample.drawdown 0 (by simp [Sample.gainFirst, Sample.event])]
    norm_num [maxDrawdown, Sample.gainFirst, Sample.event, Equity.step, Calculation.literal]
  rw [loss, gain] at same
  norm_num at same

end Mirror.Outcome
