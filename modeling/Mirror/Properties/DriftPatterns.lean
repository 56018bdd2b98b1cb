import Mirror.Properties.EventOrder
import Mirror.Series.Alternation

/-!
Histories of a clean pattern, of any length. One that alternates is taken for mean reversion, the
more confidently the longer it is, and one of a single direction for momentum.
-/
namespace Mirror.Outcome

open Js Series

section

variable {K : Type} [Field K] {events : List (OutcomeEvent K)}

/-- Sales and purchases take turns. An event without a direction counts as a purchase. -/
def TakeTurns (events : List (OutcomeEvent K)) : Prop :=
  events.IsChain fun a b => a.sells ≠ b.sells

def OneDirection (events : List (OutcomeEvent K)) : Prop :=
  ∀ e ∈ events, ∀ e' ∈ events, e.sells = e'.sells

theorem directionSeries_eq (events : List (OutcomeEvent K)) :
    directionSeries events = events.map fun e => if e.sells then -1 else 1 := by
  simp only [directionSeries, OutcomeEvent.sells, decide_eq_true_eq]

theorem directionSeries_unit (events : List (OutcomeEvent K)) :
    ∀ x ∈ directionSeries events, x * x = 1 := by
  intro x member
  rw [directionSeries_eq] at member
  obtain ⟨e, -, rfl⟩ := List.mem_map.mp member
  cases e.sells <;> simp

theorem TakeTurns.alternating (turns : TakeTurns events) :
    Alternating (directionSeries events) := by
  rw [directionSeries_eq, Alternating, List.isChain_map]
  refine turns.imp fun a b other => ?_
  rcases Bool.eq_false_or_eq_true a.sells with sale | purchase
  · have next : b.sells = false := by
      rw [sale] at other
      exact Bool.eq_false_iff.mpr other.symm
    simp [sale, next]
  · have next : b.sells = true := by
      rw [purchase] at other
      exact Bool.not_eq_false _ ▸ other.symm
    simp [purchase, next]

/-- Nothing but the directions can tell events of one direction apart. -/
theorem OneDirection.same (one : OneDirection events) :
    ∀ d ∈ directionSeries events, some d = (directionSeries events).head? := by
  intro d member
  rw [directionSeries_eq] at member ⊢
  obtain ⟨e, listed, rfl⟩ := List.mem_map.mp member
  cases events with
  | nil => cases listed
  | cons first rest =>
    rw [List.map_cons, List.head?_cons, one e listed first List.mem_cons_self]

variable [LinearOrder K] [IsStrictOrderedRing K]

/-- The second event differs from the first. -/
theorem TakeTurns.mixed (turns : TakeTurns events) (long : 3 ≤ events.length) :
    ¬∀ d ∈ directionSeries events, some d = (directionSeries events).head? := by
  intro same
  obtain ⟨a, b, rest, rfl⟩ : ∃ a b rest, events = a :: b :: rest := by
    match events, long with
    | a :: b :: rest, _ => exact ⟨a, b, rest, rfl⟩
  have other : a.sells ≠ b.sells := (List.isChain_cons_cons.mp turns).1
  rw [directionSeries_eq] at same
  have second := same _ (List.mem_cons_of_mem _ List.mem_cons_self)
  rw [List.map_cons, List.head?_cons, Option.some.injEq] at second
  have nonzero : (1 : K) ≠ -1 := by norm_num
  cases ha : a.sells <;> cases hb : b.sells <;> simp_all

variable [FloorRing K] [SquareRoot K]

/-- The autocorrelation of turns. -/
theorem TakeTurns.autocorr (turns : TakeTurns events) (long : 3 ≤ events.length) :
    directionAutocorr events = -(((events.length : K) - 1) / events.length) := by
  have length : (directionSeries events).length = events.length := List.length_map _
  have mean : average (directionSeries events) =
      (directionSeries events).sum / (directionSeries events).length := by
    rw [average, total_eq_sum]
    rfl
  obtain ⟨spread, quotient⟩ := turns.alternating.autocorrelation (directionSeries_unit events)
    (by omega) mean
  have den : squares (average (directionSeries events)) (directionSeries events) ≠ 0 := by
    rw [squares, total_eq_sum]
    exact spread
  simp only [directionAutocorr, autocorrelation]
  rw [if_neg (by omega), if_neg den, total_eq_sum, squares, total_eq_sum, ← length]
  exact quotient

/-- Turns are taken for mean reversion, whatever was traded and earned. -/
theorem TakeTurns.classified (turns : TakeTurns events) (long : 3 ≤ events.length)
    (ordered : events.Pairwise fun a b => a.timestamp < b.timestamp) :
    (classifyLead events).strategy = .meanReversion ∧
      (classifyLead events).confidence = ((events.length : K) - 1) / events.length := by
  have asListed : sortBy OutcomeEvent.timestamp events = events := by
    rw [sortBy_eq, sortOn, List.Pairwise.insertionSort_eq (ordered.imp le_of_lt)]
  have autocorr := turns.autocorr long
  have size : (3 : K) ≤ events.length := by exact_mod_cast long
  have nonempty : (0 : K) < events.length := by positivity
  -- at least two thirds, and no more than one
  have high : 2 / 3 ≤ ((events.length : K) - 1) / events.length := by
    rw [div_le_div_iff₀ (by norm_num) nonempty]
    linarith
  have low : ((events.length : K) - 1) / events.length ≤ 1 := by
    rw [div_le_one nonempty]
    linarith
  simp only [classifyLead, classification, asListed, autocorr, chooseStrategy,
    Calculation.literal]
  rw [if_neg, if_neg, if_pos, neg_neg]
  · refine ⟨rfl, ?_⟩
    rw [clamp01, min_eq_right low, max_eq_right (by linarith)]
  · push_cast
    linarith
  · push_cast
    linarith
  · rintro ⟨same, -⟩
    exact turns.mixed long (of_decide_eq_true same).2

/-- A single direction is taken for momentum, in whatever order the events are listed. -/
theorem OneDirection.classified (one : OneDirection events) (long : 3 ≤ events.length) :
    (classifyLead events).strategy = .momentum ∧ (classifyLead events).confidence = 9 / 10 := by
  let sorted := sortBy OutcomeEvent.timestamp events
  have listed : sorted.Perm events := by
    rw [show sorted = _ from sortBy_eq OutcomeEvent.timestamp events]
    exact sortOn_perm events
  have length : 3 ≤ sorted.length := listed.length_eq.symm ▸ long
  have same : OneDirection sorted := fun e he e' he' =>
    one e (listed.mem_iff.mp he) e' (listed.mem_iff.mp he')
  have nonempty : directionSeries sorted ≠ [] := by
    rw [← List.length_pos_iff, directionSeries, List.length_map]
    omega
  have chosen : (decide (directionSeries sorted ≠ [] ∧
      ∀ d ∈ directionSeries sorted, some d = (directionSeries sorted).head?)) = true ∧
        3 ≤ sorted.length := ⟨decide_eq_true ⟨nonempty, same.same⟩, length⟩
  simp only [classifyLead, classification, chooseStrategy]
  rw [if_pos chosen]
  simp [Calculation.literal]

/-- Whether a lead drifts whose events take turns or go one way. -/
theorem clean_patterns (events : List (OutcomeEvent K)) (long : 3 ≤ events.length) :
    (events.Pairwise (fun a b => a.timestamp < b.timestamp) → TakeTurns events →
      directionAutocorr events = -(((events.length : K) - 1) / events.length) ∧
        (classifyLead events).strategy = .meanReversion ∧
        (classifyLead events).confidence = ((events.length : K) - 1) / events.length ∧
        ∀ default lead baseline cycle threshold, baseline ≠ 1 →
          ((detectDrift default lead baseline events cycle threshold).drifted = true ↔
            threshold.getD default ≤ ((events.length : K) - 1) / events.length)) ∧
      (OneDirection events →
        (classifyLead events).strategy = .momentum ∧ (classifyLead events).confidence = 9 / 10 ∧
        ∀ default lead cycle threshold,
          (detectDrift default lead 0 events cycle threshold).drifted = false) := by
  constructor
  · intro ordered turns
    obtain ⟨strategy, confidence⟩ := turns.classified long ordered
    refine ⟨turns.autocorr long, strategy, confidence,
      fun default lead baseline cycle threshold other => ?_⟩
    have live : (strategyTypeCode (classifyLead events).strategy : K) ≠ baseline := by
      rw [strategy]
      exact other.symm
    simp only [detectDrift, drift, decide_eq_true_eq, confidence, live, ne_eq, not_false_eq_true,
      true_and]
  · intro one
    obtain ⟨strategy, confidence⟩ := one.classified long
    refine ⟨strategy, confidence, fun default lead cycle threshold => ?_⟩
    have live : (strategyTypeCode (classifyLead events).strategy : K) = 0 := by
      rw [strategy]
      rfl
    simp only [detectDrift, drift, live, ne_eq, not_true_eq_false, false_and, decide_false]

end

namespace Sample

/-- An event at this time in this direction. -/
def trade (timestamp : ℤ) (direction : Direction) : OutcomeEvent ℝ :=
  ⟨timestamp, 100, some direction, none⟩

end Sample

/-- A purchase, a sale and a purchase are mean reversion, with a confidence of two thirds. -/
theorem clean_patterns_three :
    (classifyLead [Sample.trade 1 .buy, Sample.trade 2 .sell, Sample.trade 3 .buy]).strategy =
        .meanReversion ∧
      (classifyLead [Sample.trade 1 .sell, Sample.trade 1 .sell, Sample.trade 0 .sell]).strategy =
        .momentum := by
  constructor
  · have turns := (clean_patterns
      [Sample.trade 1 .buy, Sample.trade 2 .sell, Sample.trade 3 .buy] (by simp)).1
      (by norm_num [Sample.trade]) (by simp [TakeTurns, OutcomeEvent.sells, Sample.trade])
    exact turns.2.1
  · have one := (clean_patterns
      [Sample.trade 1 .sell, Sample.trade 1 .sell, Sample.trade 0 .sell] (by simp)).2
      (by simp [OneDirection, OutcomeEvent.sells, Sample.trade])
    exact one.1

end Mirror.Outcome
