import Mirror.Properties.EventOrder

/-!
The two ways to a score. Given an array of returns, the agent makes up an event for each of them, a
day earlier from one to the next, so that the window of 30 days may count fewer of them.
-/
namespace Mirror.Outcome

open Js

/-! ### Counting -/

/-- A part of a list has as many elements as the list exactly if it is the list. -/
theorem length_filter_eq_iff {α : Type} {p q : α → Bool} (part : ∀ a, p a = true → q a = true)
    (as : List α) :
    (as.filter p).length = (as.filter q).length ↔ ∀ a ∈ as, q a = true → p a = true := by
  rw [← List.countP_eq_length_filter, ← List.countP_eq_length_filter]
  induction as with
  | nil => simp
  | cons a as ih =>
    -- the rest of the list can only have fewer of them as well
    have fewer : as.countP p ≤ as.countP q := List.countP_mono_left fun b _ => part b
    rw [List.forall_mem_cons, ← ih, List.countP_cons, List.countP_cons]
    cases hq : q a with
    | false =>
      have hp : p a = false := by
        by_contra yes
        rw [part a (Bool.not_eq_false _ ▸ yes)] at hq
        cases hq
      simp [hp]
    | true =>
      cases hp : p a with
      | false => simp; omega
      | true => simp

theorem filter_zipIdx_length {α : Type} (p : α → Bool) (as : List α) :
    (as.filter p).length = (as.zipIdx.filter fun x => p x.1).length := by
  have firsts : as.zipIdx.map Prod.fst = as := List.zipIdx_map_fst 0 as
  conv_lhs => rw [← firsts, List.filter_map, List.length_map]
  rfl

section

variable {K : Type} [Field K] [LinearOrder K] {events : List (OutcomeEvent K)}

/-! ### Completeness -/

/-- The event counts for completeness. -/
def OutcomeEvent.InWindow (nowSec : K) (e : OutcomeEvent K) : Prop :=
  nowSec - 30 * 24 * 3600 ≤ e.timestamp

/-- The event would count if it were `i` days older. -/
def OutcomeEvent.StaysInWindow (nowSec : K) (e : OutcomeEvent K) (i : ℕ) : Prop :=
  nowSec - 30 * 24 * 3600 ≤ e.timestamp - i * 86400

instance (nowSec : K) (e : OutcomeEvent K) : Decidable (e.InWindow nowSec) :=
  inferInstanceAs (Decidable (_ ≤ _))

instance (nowSec : K) (e : OutcomeEvent K) (i : ℕ) : Decidable (e.StaysInWindow nowSec i) :=
  inferInstanceAs (Decidable (_ ≤ _))

/-- How many events count if each is as many days older as there are events before it. -/
def staying (nowSec : K) (events : List (OutcomeEvent K)) : ℕ :=
  (events.zipIdx.filter fun x => x.1.StaysInWindow nowSec x.2).length

/-- Thirty events stay in the window, or as many as are in it. -/
def CountsAlike (nowSec : K) (events : List (OutcomeEvent K)) : Prop :=
  30 ≤ staying nowSec events ∨
    ∀ i (h : i < events.length), events[i].InWindow nowSec → events[i].StaysInWindow nowSec i

variable [IsStrictOrderedRing K]

theorem OutcomeEvent.StaysInWindow.inWindow {nowSec : K} {e : OutcomeEvent K} {i : ℕ}
    (stays : e.StaysInWindow nowSec i) : e.InWindow nowSec := by
  have days : (0 : K) ≤ i * 86400 := by positivity
  exact stays.trans (sub_le_self _ days)

variable [FloorRing K] [SquareRoot K]

/-- Thirty events are enough. -/
theorem dataCompleteness_eq (events : List (OutcomeEvent K)) (nowSec : K) :
    dataCompleteness events nowSec =
      (min 30 (events.filter fun e => e.InWindow nowSec).length : ℕ) / 30 := by
  -- more than thirty count as thirty
  have ratio (n : ℕ) : clamp01 ((n : K) / 30) = (min 30 n : ℕ) / 30 := by
    have nonneg : (0 : K) ≤ min 1 ((n : K) / 30) := by positivity
    have thirty : (0 : K) ≤ 30 := by norm_num
    rw [clamp01, max_eq_right nonneg, Nat.cast_min, ← min_div_div_right thirty]
    norm_num
  cases events with
  | nil => simp [dataCompleteness]
  | cons e events =>
    rw [← ratio]
    simp only [dataCompleteness, coverage, windowStart, OutcomeEvent.InWindow, Calculation.length,
      Calculation.literal]
    norm_num

omit [IsStrictOrderedRing K] in
/-- What is made up for the events counts as they would if they were older. -/
theorem fauxEvents_staying (events : List (OutcomeEvent K)) (nowSec : K) :
    ((fauxEvents (events.map OutcomeEvent.timestamp) events.length nowSec).filter fun e =>
      e.InWindow nowSec).length = staying nowSec events := by
  -- the event made up for place `i` is `i` days older than the one that stood there
  have made : fauxEvents (events.map OutcomeEvent.timestamp) events.length nowSec =
      events.zipIdx.map fun x => ⟨x.1.timestamp - x.2 * 86400, 0, none, none⟩ := by
    refine List.ext_getElem (by simp [fauxEvents]) fun i h _ => ?_
    have within : i < events.length := by simpa [fauxEvents] using h
    simp [fauxEvents, within, Calculation.length, Calculation.literal]
  rw [made, List.filter_map, List.length_map]
  rfl

theorem dataCompleteness_faux_iff (events : List (OutcomeEvent K)) (nowSec : K) :
    dataCompleteness (fauxEvents (events.map OutcomeEvent.timestamp) events.length nowSec) nowSec =
        dataCompleteness events nowSec ↔ CountsAlike nowSec events := by
  have part (x : OutcomeEvent K × ℕ) (stays : decide (x.1.StaysInWindow nowSec x.2) = true) :
      decide (x.1.InWindow nowSec) = true :=
    decide_eq_true (of_decide_eq_true stays).inWindow
  have fewer : staying nowSec events ≤ (events.filter fun e => e.InWindow nowSec).length := by
    rw [filter_zipIdx_length]
    exact (List.monotone_filter_right _ part).length_le
  have same : staying nowSec events = (events.filter fun e => e.InWindow nowSec).length ↔
      ∀ i (h : i < events.length), events[i].InWindow nowSec →
        events[i].StaysInWindow nowSec i := by
    rw [filter_zipIdx_length, staying, length_filter_eq_iff part, List.forall_mem_zipIdx']
    simp
  have thirty : (30 : K) ≠ 0 := by norm_num
  rw [dataCompleteness_eq, dataCompleteness_eq, fauxEvents_staying, div_left_inj' thirty,
    Nat.cast_inj, CountsAlike, ← same]
  omega

/-! ### Scores -/

/-- The two ways differ in the completeness only. -/
theorem scores_eq_iff_completeness (events : List (OutcomeEvent K)) (nowSec : K)
    (sorted : events.Pairwise fun a b => a.timestamp ≤ b.timestamp) :
    scoreFromReturns (events.map fun e => e.pnlBps / Calculation.literal 10000)
        (events.map OutcomeEvent.timestamp) events.length nowSec = scoreLead events nowSec ↔
      dataCompleteness (fauxEvents (events.map OutcomeEvent.timestamp) events.length nowSec)
        nowSec = dataCompleteness events nowSec := by
  have asListed : sortBy OutcomeEvent.timestamp events = events := by
    rw [sortBy_eq, sortOn, List.Pairwise.insertionSort_eq sorted]
  -- every other part is computed from the same returns
  constructor
  · intro same
    have completeness := congrArg ScoreBreakdown.dataCompleteness same
    simpa only [scoreFromReturns, scoreLead, breakdown, asListed] using completeness
  · intro completeness
    simp only [scoreFromReturns, scoreLead, bps, asListed, completeness]

/-- Both ways lead to one breakdown exactly where the made up events count as the events do. -/
theorem scores_agree_iff (events : List (OutcomeEvent K)) (nowSec : K)
    (sorted : events.Pairwise fun a b => a.timestamp ≤ b.timestamp) :
    scoreFromReturns (events.map fun e => e.pnlBps / Calculation.literal 10000)
        (events.map OutcomeEvent.timestamp) events.length nowSec = scoreLead events nowSec ↔
      CountsAlike nowSec events := by
  rw [scores_eq_iff_completeness events nowSec sorted]
  exact dataCompleteness_faux_iff events nowSec

end

/-- Yesterday's event would count as well if it were of the day before. -/
theorem scores_agree_iff_recent :
    scoreFromReturns ([Sample.event (-86400) 100, Sample.event 0 (-200)].map fun e =>
        e.pnlBps / Calculation.literal 10000)
        ([Sample.event (-86400) 100, Sample.event 0 (-200)].map OutcomeEvent.timestamp) 2 0 =
      scoreLead [Sample.event (-86400) 100, Sample.event 0 (-200)] 0 := by
  refine (scores_agree_iff [Sample.event (-86400) 100, Sample.event 0 (-200)] 0 ?_).mpr
    (.inr fun i h _ => ?_)
  · simp [Sample.event]
  · have two : i < 2 := h
    obtain rfl | rfl : i = 0 ∨ i = 1 := by omega
    · norm_num [OutcomeEvent.StaysInWindow, Sample.event]
    · norm_num [OutcomeEvent.StaysInWindow, Sample.event]

/-- Of two events that are 30 days old, one is made up to be 31 days old. -/
theorem scores_disagree :
    ¬∀ (events : List (OutcomeEvent ℝ)) (nowSec : ℝ),
      events.Pairwise (fun a b => a.timestamp ≤ b.timestamp) →
      scoreFromReturns (events.map fun e => e.pnlBps / Calculation.literal 10000)
        (events.map OutcomeEvent.timestamp) events.length nowSec = scoreLead events nowSec := by
  intro always
  have sorted : [Sample.event 0 100, Sample.event 0 100].Pairwise fun a b =>
      a.timestamp ≤ b.timestamp := by
    simp
  have completeness := (scores_eq_iff_completeness _ (30 * 24 * 3600) sorted).mp
    (always _ _ sorted)
  rcases (dataCompleteness_faux_iff _ _).mp completeness with many | each
  · have two := many.trans (List.length_filter_le _ _)
    simp at two
  · have stays := each 1 (by simp) (by norm_num [OutcomeEvent.InWindow, Sample.event])
    norm_num [OutcomeEvent.StaysInWindow, Sample.event] at stays

end Mirror.Outcome
