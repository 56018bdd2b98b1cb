import Mirror.Agent.Outcome
import Mirror.Js.StableSort

/-!
Scoring in exact arithmetic: what does not depend on the order of events, since it sums over them,
and how they are sorted.
-/
namespace Mirror.Outcome

open Js

section

variable {K : Type} [Field K]

theorem total_eq_sum (xs : List K) : total xs = xs.sum := List.sum_eq_foldl.symm

theorem total_perm {xs ys : List K} (perm : xs.Perm ys) : total xs = total ys := by
  rw [total_eq_sum, total_eq_sum, perm.sum_eq]

theorem squares_perm {xs ys : List K} (perm : xs.Perm ys) (mean : K) :
    squares mean xs = squares mean ys :=
  total_perm (perm.map _)

end

section

variable {K : Type} [Field K] [LinearOrder K]

theorem positiveSizes_perm {events events' : List (OutcomeEvent K)}
    (perm : events.Perm events') : (positiveSizes events).Perm (positiveSizes events') :=
  (perm.map _).filter _

theorem sortBy_eq [IsStrictOrderedRing K] {α : Type} (key : α → K) (as : List α) :
    sortBy key as = sortOn key as := by
  simp only [sortBy, sortOn, sub_pos, not_lt]

variable [FloorRing K] [SquareRoot K]

section

variable {xs ys : List K} (perm : xs.Perm ys)

include perm

theorem average_perm : average xs = average ys := by
  rw [average, average, total_perm perm, perm.length_eq]

theorem sharpeEquivalent_perm (periodsPerYear : K) :
    sharpeEquivalent xs periodsPerYear = sharpeEquivalent ys periodsPerYear := by
  simp only [sharpeEquivalent, perm.length_eq, average_perm perm, squares_perm perm]

theorem meanSize_perm : meanSize xs = meanSize ys := by
  simp only [meanSize, ← List.isEmpty_iff, perm.isEmpty_eq, average_perm perm]

theorem variation_perm (mean : K) : variation mean xs = variation mean ys := by
  simp only [variation, perm.length_eq, squares_perm perm]

theorem consistencyScore_perm [IsStrictOrderedRing K] :
    consistencyScore xs = consistencyScore ys := by
  -- sorted numbers are determined by which numbers they are
  have sorted : sortBy id xs = sortBy id ys := by
    rw [sortBy_eq, sortBy_eq]
    exact List.Perm.eq_of_pairwise (fun a b _ _ => le_antisymm) (sortOn_sorted xs)
      (sortOn_sorted ys) (sortOn_perm_of_perm perm)
  simp only [consistencyScore, perm.length_eq, sorted]

end

section

variable {events events' : List (OutcomeEvent K)}

/-- Whether an event is in the window is up to its timestamp. -/
theorem dataCompleteness_perm
    (perm : (events.map OutcomeEvent.timestamp).Perm (events'.map OutcomeEvent.timestamp))
    (nowSec : K) : dataCompleteness events nowSec = dataCompleteness events' nowSec := by
  have none := perm.isEmpty_eq
  rw [List.isEmpty_map, List.isEmpty_map] at none
  have inWindow (events : List (OutcomeEvent K)) (start : K) :
      (events.filter fun e => start ≤ e.timestamp).length =
        ((events.map OutcomeEvent.timestamp).filter fun t => start ≤ t).length := by
    rw [List.filter_map, List.length_map]
    rfl
  simp only [dataCompleteness, none, inWindow, (perm.filter _).length_eq]

theorem meanAbsPnl_perm (perm : events.Perm events') : meanAbsPnl events = meanAbsPnl events' := by
  simp only [meanAbsPnl, perm.isEmpty_eq, average_perm (perm.map _)]

end

end

end Mirror.Outcome
