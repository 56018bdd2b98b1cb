import Mirror.Js.Order
import Mirror.Properties.ScoreTotality

/-! Scores keep an order. A lead that is no worse in any part of its score has no lower one, and
without new events a score only falls. -/
namespace Mirror

open Evm hiding Byte
open Js Number Completion

section

variable {sharpe mdd consistency completeness : Number}

/-- The weighted sum keeps the order of its parts, rounding included. -/
theorem composite_mono {sharpe' mdd' consistency' completeness' : Number}
    (ratio : sharpe.le sharpe' = true) (loss : mdd'.le mdd = true)
    (regular : consistency.le consistency' = true)
    (complete : completeness.le completeness' = true) (hc : consistency.IsNonneg)
    (hk : completeness.IsNonneg) :
    (composite sharpe mdd consistency completeness).le
      (composite sharpe' mdd' consistency' completeness') = true := by
  -- every weight is a positive double
  obtain ⟨hundred, hundred_eq, positive⟩ : ∃ d, maxScore = finite d ∧ 0 < d.val :=
    finite_of_pos (by decide +kernel) (by decide +kernel)
  obtain ⟨w₁, sharpe_eq, pos₁⟩ : ∃ d, weightSharpe = finite d ∧ 0 < d.val :=
    finite_of_pos (by decide +kernel) (by decide +kernel)
  obtain ⟨w₂, drawdown_eq, pos₂⟩ : ∃ d, weightDrawdown = finite d ∧ 0 < d.val :=
    finite_of_pos (by decide +kernel) (by decide +kernel)
  obtain ⟨w₃, consistency_eq, pos₃⟩ : ∃ d, weightConsistency = finite d ∧ 0 < d.val :=
    finite_of_pos (by decide +kernel) (by decide +kernel)
  obtain ⟨w₄, completeness_eq, pos₄⟩ : ∃ d, weightCompleteness = finite d ∧ 0 < d.val :=
    finite_of_pos (by decide +kernel) (by decide +kernel)
  have clamped {x y : Number} (h : x.le y = true) : (clamp01 x).le (clamp01 y) = true :=
    clamp_mono (finite_ne_nan _) (finite_ne_nan _) h
  have ratios : (normalizeSharpe sharpe).le (normalizeSharpe sharpe') = true := by
    unfold normalizeSharpe
    rw [literal_ofNat 2 (by decide)]
    exact clamped (div_mono (by norm_num) ratio)
  have losses : (normalizeDrawdown mdd).le (normalizeDrawdown mdd') = true :=
    clamped (add_left_mono _ (neg_antitone loss))
  have ratio' := normalizeSharpe_isNonneg (ne_nan_of_le ratio).1
  have loss' := normalizeDrawdown_isNonneg (ne_nan_of_le loss).2
  rw [composite, composite, hundred_eq, sharpe_eq, drawdown_eq, consistency_eq, completeness_eq]
  -- the sum is added up from the left, and no part of it is below zero
  have first := (IsNonneg.mul pos₁ ratio').add_mono (IsNonneg.mul pos₂ loss')
    (mul_mono pos₁ ratios) (mul_mono pos₂ losses)
  have second := ((IsNonneg.mul pos₁ ratio').add (IsNonneg.mul pos₂ loss')).add_mono
    (IsNonneg.mul pos₃ hc) first (mul_mono pos₃ regular)
  have third := (((IsNonneg.mul pos₁ ratio').add (IsNonneg.mul pos₂ loss')).add
    (IsNonneg.mul pos₃ hc)).add_mono (IsNonneg.mul pos₄ hk) second (mul_mono pos₄ complete)
  exact mul_mono positive third

/-- A score keeps the order of what it is rounded from. -/
theorem scoreOf_mono {x y : Number} (h : x.le y = true) :
    (clamp zero maxScore x.round).le (clamp zero maxScore y.round) = true :=
  clamp_mono (finite_ne_nan _) (ofRat_ne_nan _) (round_mono h)

end

/-! ### What a breakdown consists of -/

section

variable {events : List Json} {nowSec : Number} {b : ScoreBreakdown Number}

/-- A regularity that is a number is at least zero. -/
theorem regularity_nonneg {gaps : List Number} (known : regularity gaps ≠ nan) :
    (regularity gaps).IsNonneg := by
  have clamped {x : Number} (h : clamp01 x ≠ nan) : (clamp01 x).IsNonneg :=
    clamp01_isNonneg fun none => h (none ▸ clamp01_nan)
  unfold regularity at known ⊢
  split at known
  next none =>
    rw [if_pos none]
    exact zero_isNonneg
  next some =>
    rw [if_neg some]
    dsimp only at known ⊢
    split at known
    next flat =>
      rw [if_pos flat]
      exact zero_isNonneg
    next uneven =>
      rw [if_neg uneven]
      exact clamped known

theorem consistencyScore_nonneg {timestamps : List (Option Json)} {c : Number}
    (scored : consistencyScore timestamps = .ok c) (known : c ≠ nan) : c.IsNonneg := by
  unfold consistencyScore at scored
  split at scored
  · cases scored
    exact sparse_isNonneg _
  · obtain ⟨_, -, scored⟩ := (bind_ok _ _ _).mp scored
    obtain ⟨_, -, scored⟩ := (bind_ok _ _ _).mp scored
    cases scored
    exact regularity_nonneg known

theorem dataCompleteness_nonneg {k : Number} (counted : dataCompleteness events nowSec = .ok k) :
    k.IsNonneg := by
  unfold dataCompleteness at counted
  split at counted
  · cases counted
    exact zero_isNonneg
  · obtain ⟨_, -, counted⟩ := (bind_ok _ _ _).mp counted
    cases counted
    exact coverage_isNonneg _

/-- The parts of a breakdown, and the score that is made of them. -/
structure Breakdown (b : ScoreBreakdown Number) : Prop where
  score : b.aiScore = clamp zero maxScore
    (composite b.sharpe b.maxDrawdown b.consistency b.dataCompleteness).round
  consistency : b.consistency ≠ nan → b.consistency.IsNonneg
  completeness : b.dataCompleteness.IsNonneg

theorem scoreLead_breakdown (scored : scoreLead events nowSec = .ok b) : Breakdown b := by
  obtain ⟨_, -, scored⟩ := (bind_ok _ _ _).mp scored
  obtain ⟨_, -, scored⟩ := (bind_ok _ _ _).mp scored
  obtain ⟨_, -, scored⟩ := (bind_ok _ _ _).mp scored
  obtain ⟨c, regular, scored⟩ := (bind_ok _ _ _).mp scored
  obtain ⟨k, counted, scored⟩ := (bind_ok _ _ _).mp scored
  cases scored
  exact ⟨rfl, consistencyScore_nonneg regular, dataCompleteness_nonneg counted⟩

end

/-- Of two leads the one that has no lower Sharpe ratio, consistency and completeness and no larger
drawdown has no lower score, whatever their events are and whenever they are scored. -/
theorem score_respects_parts {events events' : List Json} {nowSec nowSec' : Number}
    {b b' : ScoreBreakdown Number} (scored : scoreLead events nowSec = .ok b)
    (scored' : scoreLead events' nowSec' = .ok b') (sharpe : b.sharpe.le b'.sharpe = true)
    (loss : b'.maxDrawdown.le b.maxDrawdown = true)
    (regular : b.consistency.le b'.consistency = true)
    (complete : b.dataCompleteness.le b'.dataCompleteness = true) :
    b.aiScore.le b'.aiScore = true := by
  have parts := scoreLead_breakdown scored
  rw [parts.score, (scoreLead_breakdown scored').score]
  exact scoreOf_mono (composite_mono sharpe loss regular complete
    (parts.consistency (ne_nan_of_le regular).1) parts.completeness)

namespace Sample

/-- A trade that gained or lost so many basis points. -/
def closedAt (time pnlBps : ℤ) : Json :=
  .obj [(text "timestamp", .num (ofRat time)), (text "pnlBps", .num (ofRat pnlBps))]

/-- A gain after a gain. -/
def gaining : List Json := [closedAt 1000 100, closedAt 2000 300]

/-- A loss after a gain. -/
def losing : List Json := [closedAt 1000 100, closedAt 2000 (-200)]

/-- The breakdown of events at a time when they are recent. -/
def scored (events : List Json) : ScoreBreakdown Number :=
  match scoreLead events (ofRat 3000) with
  | .ok b => b
  | .error _ => ⟨zero, zero, zero, zero, zero⟩

theorem scored_ok {events : List Json}
    (ok : (scoreLead events (ofRat 3000)).isOk = true) :
    scoreLead events (ofRat 3000) = .ok (scored events) := by
  unfold scored
  cases done : scoreLead events (ofRat 3000) with
  | ok b => rfl
  | error e =>
    rw [done] at ok
    cases ok

end Sample

/-- The loss costs Sharpe ratio and makes a drawdown, and so it costs score. -/
theorem score_respects_parts_loss :
    ((Sample.scored Sample.losing).sharpe.lt (Sample.scored Sample.gaining).sharpe = true ∧
      (Sample.scored Sample.gaining).maxDrawdown.lt
        (Sample.scored Sample.losing).maxDrawdown = true) ∧
      (Sample.scored Sample.losing).aiScore.le (Sample.scored Sample.gaining).aiScore = true :=
  ⟨by decide +kernel,
    score_respects_parts (Sample.scored_ok (by decide +kernel))
      (Sample.scored_ok (by decide +kernel)) (by decide +kernel) (by decide +kernel)
      (by decide +kernel) (by decide +kernel)⟩

/-! ### The passing of time -/

/-- A computation that begins as one that failed fails too if what follows does. -/
theorem bind_fails {ε α β γ : Type} {x : Except ε α} {f : α → Except ε β} {g : α → Except ε γ}
    {e : ε} (failed : x >>= f = .error e)
    (later : ∀ a, x = .ok a → f a = .error e → g a = .error e) : x >>= g = .error e := by
  rcases (bind_error _ _ _).mp failed with failed | ⟨a, read, failed⟩
  · exact (bind_error _ _ _).mpr (.inl failed)
  · exact (bind_error _ _ _).mpr (.inr ⟨a, read, later a read failed⟩)

section

variable {events : List Json} {nowSec later : Number}

/-- The times of the events are read first, and then counted. -/
theorem dataCompleteness_times (some : events ≠ []) :
    dataCompleteness events nowSec = (events.mapM (numeric "timestamp")) >>= fun times =>
      .ok (coverage ((times.map fun t => (windowStart nowSec).le t).count true)) := by
  rw [dataCompleteness, if_neg some, mapM_return]
  cases events.mapM (numeric "timestamp") <;> rfl

theorem coverage_mono {m n : ℕ} (fewer : m ≤ n) : (coverage m : Number).le (coverage n) = true := by
  unfold coverage
  rw [literal_ofNat 30 (by decide)]
  exact clamp_mono (finite_ne_nan _) (finite_ne_nan _) (div_mono (by norm_num) (ofLength_le fewer))

theorem windowStart_mono (h : nowSec.le later = true) :
    (windowStart nowSec).le (windowStart later) = true := by
  have window : (Calculation.literal (30 * 24 * 3600) : Number).isFinite = true := by
    decide +kernel
  obtain ⟨d, finite, -⟩ := finite_of_pos window (by decide +kernel)
  unfold windowStart
  rw [finite]
  exact add_right_mono _ h

/-- Later no more events lie in the window. -/
theorem dataCompleteness_later (h : nowSec.le later = true) {k : Number}
    (counted : dataCompleteness events nowSec = .ok k) :
    ∃ k', dataCompleteness events later = .ok k' ∧ k'.le k = true := by
  by_cases none : events = []
  · rw [dataCompleteness, if_pos none] at counted ⊢
    cases counted
    exact ⟨zero, rfl, le_self (finite_ne_nan _)⟩
  · rw [dataCompleteness_times none] at counted ⊢
    obtain ⟨times, read, counted⟩ := (bind_ok _ _ _).mp counted
    cases counted
    rw [read]
    refine ⟨_, rfl, coverage_mono ?_⟩
    rw [List.count_eq_countP, List.count_eq_countP, List.countP_map, List.countP_map]
    -- the window begins later, so what is in it was in the earlier one
    refine List.countP_mono_left fun t _ inside => ?_
    simp only [Function.comp_apply, beq_true] at inside ⊢
    exact le_of_le_of_le (windowStart_mono h) inside

/-- Events that cannot be counted cannot be counted later either. -/
theorem dataCompleteness_fails {e : Abrupt Thrown Empty}
    (failed : dataCompleteness events nowSec = .error e) :
    dataCompleteness events later = .error e := by
  by_cases none : events = []
  · rw [dataCompleteness, if_pos none] at failed
    cases failed
  · rw [dataCompleteness_times none] at failed ⊢
    rcases (bind_error _ _ _).mp failed with unread | ⟨times, -, failed⟩
    · rw [unread]
      rfl
    · cases failed

/-- One breakdown follows another without new events. -/
structure Follows (b b' : ScoreBreakdown Number) : Prop where
  same : b' = { b with dataCompleteness := b'.dataCompleteness, aiScore := b'.aiScore }
  completeness : b'.dataCompleteness.le b.dataCompleteness = true
  score : b'.aiScore.le b.aiScore = true ∨ b'.aiScore = nan ∧ b.aiScore = nan

/-- A part that is no number leaves no score. -/
theorem breakdown_nan {returns : List Number} {c : Number}
    (none : sharpeEquivalent returns (Calculation.literal 365) = nan ∨ c = nan) (k : Number) :
    (breakdown returns c k).aiScore = nan := by
  have score : (breakdown returns c k).aiScore = clamp zero maxScore (composite
      (sharpeEquivalent returns (Calculation.literal 365)) (maxDrawdown returns) c k).round := rfl
  rw [score, composite_nan none]
  exact clamp_nan _ _

theorem scoreLead_later (h : nowSec.le later = true) {b : ScoreBreakdown Number}
    (scored : scoreLead events nowSec = .ok b) :
    ∃ b', scoreLead events later = .ok b' ∧ Follows b b' := by
  have parts := scoreLead_breakdown scored
  obtain ⟨sorted, order, scored⟩ := (bind_ok _ _ _).mp scored
  obtain ⟨returns, gained, scored⟩ := (bind_ok _ _ _).mp scored
  obtain ⟨timestamps, timed, scored⟩ := (bind_ok _ _ _).mp scored
  obtain ⟨c, regular, scored⟩ := (bind_ok _ _ _).mp scored
  obtain ⟨k, counted, scored⟩ := (bind_ok _ _ _).mp scored
  cases scored
  obtain ⟨k', counted', fewer⟩ := dataCompleteness_later h counted
  refine ⟨_, (bind_ok _ _ _).mpr ⟨sorted, order, (bind_ok _ _ _).mpr ⟨returns, gained,
    (bind_ok _ _ _).mpr ⟨timestamps, timed, (bind_ok _ _ _).mpr ⟨c, regular,
      (bind_ok _ _ _).mpr ⟨k', counted', rfl⟩⟩⟩⟩⟩, rfl, fewer, ?_⟩
  by_cases known : sharpeEquivalent returns (Calculation.literal 365) ≠ nan ∧ c ≠ nan
  · exact .inl (scoreOf_mono (composite_mono (le_self known.1)
      (le_self (maxDrawdown_ne_nan returns)) (le_self known.2) fewer
      (parts.consistency known.2) (dataCompleteness_nonneg counted')))
  · have none : sharpeEquivalent returns (Calculation.literal 365) = nan ∨ c = nan := by
      by_contra both
      exact known (not_or.mp both)
    exact .inr ⟨breakdown_nan none k', breakdown_nan none k⟩

/-- Events that cannot be scored cannot be scored later either. -/
theorem scoreLead_fails {e : Abrupt Thrown Empty} (failed : scoreLead events nowSec = .error e) :
    scoreLead events later = .error e := by
  unfold scoreLead at failed ⊢
  refine bind_fails failed fun sorted order failed => ?_
  refine bind_fails failed fun returns gained failed => ?_
  refine bind_fails failed fun timestamps timed failed => ?_
  refine bind_fails failed fun c regular failed => ?_
  rcases (bind_error _ _ _).mp failed with failed | ⟨k, counted, failed⟩
  · exact (bind_error _ _ _).mpr (.inl (dataCompleteness_fails failed))
  · cases failed

end

/-- The agent at another time, with everything else as it was. -/
def AgentHost.at (host : AgentHost) (time : ℕ) : AgentHost := { host with dateNow := time }

section

variable {host : AgentHost} {later : ℕ} (time : host.dateNow ≤ later) {parsed events : Json}
  {lead : JsString}

include time

theorem dateNow_le : (ofRat (host.dateNow / 1000 : ℕ)).le (ofRat (later / 1000 : ℕ)) = true :=
  ofRat_le (Nat.cast_le.mpr (Nat.div_le_div_right time))

theorem scoreEvents_later {r : ScoreRun} (scored : scoreEvents host parsed lead events = .ok r) :
    ∃ b, Follows r.breakdown b ∧
      scoreEvents (host.at later) parsed lead events = .ok { r with breakdown := b } := by
  obtain ⟨entries, listed, scored⟩ := (bind_ok _ _ _).mp scored
  obtain ⟨b, breakdown, scored⟩ := (bind_ok _ _ _).mp scored
  obtain ⟨c, classified, scored⟩ := (bind_ok _ _ _).mp scored
  obtain ⟨d, drifted, scored⟩ := (bind_ok _ _ _).mp scored
  cases scored
  obtain ⟨b', breakdown', follows⟩ := scoreLead_later (dateNow_le time) breakdown
  exact ⟨b', follows, (bind_ok _ _ _).mpr ⟨entries, listed, (bind_ok _ _ _).mpr ⟨b', breakdown',
    (bind_ok _ _ _).mpr ⟨c, classified, (bind_ok _ _ _).mpr ⟨d, drifted, rfl⟩⟩⟩⟩⟩

theorem scoreEvents_fails {e : Abrupt Thrown Empty}
    (failed : scoreEvents host parsed lead events = .error e) :
    scoreEvents (host.at later) parsed lead events = .error e := by
  unfold scoreEvents at failed ⊢
  refine bind_fails failed fun entries listed failed => ?_
  rcases (bind_error _ _ _).mp failed with failed | ⟨b, breakdown, failed⟩
  · exact (bind_error _ _ _).mpr (.inl (scoreLead_fails failed))
  -- what follows the breakdown does not read it
  obtain ⟨b', breakdown', -⟩ := scoreLead_later (dateNow_le time) breakdown
  refine (bind_error _ _ _).mpr (.inr ⟨b', breakdown', ?_⟩)
  refine bind_fails failed fun c classified failed => ?_
  refine bind_fails failed fun d drifted failed => ?_
  cases failed

end

/-- The same request for a score at a later time, when the log has nothing new: it fails as it
failed, or its result is the same but for the completeness and the score, and neither is higher. -/
theorem later_scores_no_higher (host : AgentHost) (msg : JsString) {later : ℕ}
    (time : host.dateNow ≤ later) :
    (∀ e, scoreV1 host msg = .error e → scoreV1 (host.at later) msg = .error e) ∧
      ∀ r, scoreV1 host msg = .ok r → ∃ b, Follows r.breakdown b ∧
        scoreV1 (host.at later) msg = .ok { r with breakdown := b } := by
  have request : readScoreRequest (host.at later) msg = readScoreRequest host msg := rfl
  constructor
  · intro e failed
    rw [scoreV1] at failed ⊢
    rw [request]
    rcases (bind_error _ _ _).mp failed with failed | ⟨⟨parsed, lead, events⟩, read, failed⟩
    · exact (bind_error _ _ _).mpr (.inl failed)
    refine (bind_error _ _ _).mpr (.inr ⟨_, read, ?_⟩)
    dsimp only at failed ⊢
    cases scored : scoreEvents host parsed lead events with
    | ok r =>
      rw [scored] at failed
      cases failed
    | error thrown =>
      rw [scoreEvents_fails time scored, ← failed, scored]
  · intro r scored
    obtain ⟨⟨parsed, lead, events⟩, read, scored⟩ := (bind_ok _ _ _).mp scored
    obtain ⟨b, follows, scored'⟩ := scoreEvents_later time (lift_ok.mp scored)
    refine ⟨b, follows, ?_⟩
    rw [scoreV1, request]
    exact (bind_ok _ _ _).mpr ⟨_, read, lift_ok.mpr scored'⟩

namespace Sample

/-- A request to score one trade, at the first second. -/
def flatRequest : JsString := scoreRequest "[\x7b\"timestamp\":1,\"pnlBps\":0\x7d]"

end Sample

/-- A hundred days later the trade is no longer counted. -/
theorem later_scores_no_higher_flat :
    ∃ r b, scoreV1 Sample.agentHost Sample.flatRequest = .ok r ∧ Follows r.breakdown b ∧
      scoreV1 (Sample.agentHost.at 8640000000) Sample.flatRequest =
        .ok { r with breakdown := b } := by
  obtain ⟨-, follows⟩ := later_scores_no_higher Sample.agentHost Sample.flatRequest
    (show Sample.agentHost.dateNow ≤ 8640000000 by decide)
  have scored : (scoreV1 Sample.agentHost Sample.flatRequest).toBool = true := by decide +kernel
  cases answered : scoreV1 Sample.agentHost Sample.flatRequest with
  | error e =>
    rw [answered] at scored
    cases scored
  | ok r =>
    obtain ⟨b, less, later⟩ := follows r answered
    exact ⟨r, b, rfl, less, later⟩

end Mirror
