import Mirror.Agent.Handlers
import Mirror.Refinement.Signals

/-!
When a score is a number. The parts of a score are numbers unless a sum overflows, and a score that
is a number is an integer in its range, however it came about.
-/
namespace Mirror

open Js Number Completion

/-- A score that the leaderboard takes: an integer between 0 and 100. -/
def Publishable (score : Number) : Prop := ∃ k : ℕ, k ≤ 100 ∧ score.toBigInt = some (k : ℤ)

/-! ### The parts of a score -/

theorem annual_root_finite :
    ∃ d, (Calculation.sqrt (Calculation.literal 365) : Number) = finite d ∧ 0 < d.val :=
  finite_of_pos (by decide +kernel) (by decide +kernel)

section

variable {returns gaps : List Number}

/-- The Sharpe ratio is a number unless the sum of the returns overflows. -/
theorem sharpe_ne_nan (small : 2 ≤ returns.length → (sum returns).isFinite = true) :
    sharpeEquivalent returns (Calculation.literal 365) ≠ nan := by
  unfold sharpeEquivalent
  split
  · exact finite_ne_nan _
  next several =>
    have two : 2 ≤ returns.length := not_lt.mp several
    have some : returns ≠ [] := List.ne_nil_of_length_pos (by omega)
    have finite : (mean returns).isFinite = true := (mean_isFinite some).trans (small two)
    obtain ⟨n, length, large⟩ := ofLength_finite (n := returns.length - 1) (by omega)
    obtain ⟨year, root, positive⟩ := annual_root_finite
    -- the mean is finite, so no deviation from it is `NaN`
    have deviates : (deviation (mean returns) returns).IsNonneg := by
      refine deviation_isNonneg finite fun x member => ?_
      rintro rfl
      cases sum_isFinite (small two) nan member
    have stdev : ((deviation (mean returns) returns).div (ofLength (returns.length - 1))).sqrt
        ≠ nan := by
      rw [length]
      exact (deviates.div (one_pos.trans_le large)).sqrt.ne_nan
    dsimp only
    split
    · split
      · exact ofRat_ne_nan _
      · exact finite_ne_nan _
    next spread =>
      rw [root]
      exact mul_ne_nan (finite_div_ne_nan finite stdev spread) positive.ne'

theorem sharpe_nan (two : 2 ≤ returns.length) (overflow : (sum returns).isFinite = false) :
    sharpeEquivalent returns (Calculation.literal 365) = nan := by
  have some : returns ≠ [] := List.ne_nil_of_length_pos (by omega)
  have top : (average returns).isFinite = false := (mean_isFinite some).trans overflow
  obtain ⟨n, length, large⟩ := ofLength_finite (n := returns.length - 1) (by omega)
  -- against a mean that is not finite nothing deviates by a finite amount
  have stdev : (Calculation.sqrt (squares (average returns) returns /
      Calculation.length (returns.length - 1))).IsTop := by
    rw [length_def, length]
    exact ((deviation_top top some).div (one_pos.trans_le large)).sqrt
  have spread : Calculation.sqrt (squares (average returns) returns /
      Calculation.length (returns.length - 1)) ≠ 0 := by
    intro none
    rw [none] at stdev
    rcases stdev with impossible | impossible <;> cases impossible
  unfold sharpeEquivalent
  rw [if_neg (not_lt.mpr two)]
  dsimp only
  rw [if_neg spread, mul_def, div_def, div_eq_nan top stdev.not_isFinite, nan_mul]

/-- The drawdown is a number: nothing else is larger than one. -/
theorem maxDrawdown_ne_nan (returns : List Number) : maxDrawdown returns ≠ nan := by
  have larger (x dd : Number) (h : x ≠ nan) : (if x.lt dd then dd else x) ≠ nan := by
    split
    next above => exact (ne_nan_of_lt above).2
    next => exact h
  have all (s : Equity Number) (h : s.mdd ≠ nan) : (returns.foldl Equity.step s).mdd ≠ nan := by
    induction returns generalizing s with
    | nil => exact h
    | cons r rest ih => exact ih _ (larger s.mdd _ h)
  exact all _ (finite_ne_nan _)

theorem clamp01_isNonneg {x : Number} (h : x ≠ nan) : (clamp01 x).IsNonneg := by
  obtain ⟨d, clamped, low, -⟩ := clamp_finite (fun _ => True)
    ⟨((0 : ℤ) : ℚ), representable_intCast (by decide)⟩
    ⟨((1 : ℤ) : ℚ), representable_intCast (by decide)⟩ (by simp) h trivial trivial
    fun _ _ => trivial
  have same : clamp01 x = finite d := clamped
  rw [same]
  exact Int.cast_zero.symm.trans_le low

theorem clamp01_nan : clamp01 (nan : Number) = nan := clamp_nan _ _

/-- The regularity is a number unless the sum of the gaps overflows. -/
theorem regularity_isNonneg (positive : ∀ g ∈ gaps, zero.lt g = true)
    (small : (sum gaps).isFinite = true) : (regularity gaps).IsNonneg := by
  unfold regularity
  split
  · exact zero_isNonneg
  next some =>
    have finite : (mean gaps).isFinite = true := (mean_isFinite some).trans small
    obtain ⟨n, length, large⟩ := ofLength_finite (List.length_pos_iff.mpr some).ne'
    dsimp only
    split
    · exact zero_isNonneg
    next uneven =>
      have nonzero : mean gaps ≠ zero := uneven
      have deviates : (deviation (mean gaps) gaps).IsNonneg :=
        deviation_isNonneg finite fun g member => (ne_nan_of_lt (positive g member)).2
      have cv : ((deviation (mean gaps) gaps).div (ofLength gaps.length)).sqrt.div (mean gaps)
          ≠ nan := by
        cases average : mean gaps with
        | nan | infinity =>
          rw [average] at finite
          cases finite
        | finite d =>
          rw [average] at nonzero deviates
          rw [length]
          exact div_ne_nan (deviates.div (one_pos.trans_le large)).sqrt.ne_nan
            (mt finite_eq_zero.mpr nonzero)
      exact clamp01_isNonneg (finite_sub_ne_nan rfl cv)

theorem regularity_nan (overflow : (sum gaps).isFinite = false) : regularity gaps = nan := by
  have some : gaps ≠ [] := by
    rintro rfl
    cases overflow
  have top : (average gaps).isFinite = false := (mean_isFinite some).trans overflow
  obtain ⟨n, length, large⟩ := ofLength_finite (List.length_pos_iff.mpr some).ne'
  have root : (Calculation.sqrt (squares (average gaps) gaps /
      Calculation.length gaps.length)).IsTop := by
    rw [length_def, length]
    exact ((deviation_top top some).div (one_pos.trans_le large)).sqrt
  have nonzero : average gaps ≠ 0 := by
    intro none
    rw [none] at top
    cases top
  unfold regularity
  rw [if_neg some]
  dsimp only
  rw [if_neg nonzero, div_def, div_eq_nan root.not_isFinite top, sub_def, sub_nan, clamp01_nan]

theorem sparse_isNonneg (timestamps : ℕ) : (sparse timestamps : Number).IsNonneg := by
  unfold sparse
  split
  · exact zero_isNonneg
  · exact ofRat_isNonneg (by norm_num)

theorem coverage_isNonneg (inWindow : ℕ) : (coverage inWindow : Number).IsNonneg := by
  unfold coverage
  rw [literal_ofNat 30 (by decide)]
  exact clamp01_isNonneg (div_ne_nan (x := ofLength _) (finite_ne_nan _) (by norm_num))

theorem normalizeSharpe_isNonneg {ratio : Number} (known : ratio ≠ nan) :
    (normalizeSharpe ratio).IsNonneg := by
  unfold normalizeSharpe
  rw [literal_ofNat 2 (by decide)]
  exact clamp01_isNonneg (div_ne_nan known (by norm_num))

theorem normalizeDrawdown_isNonneg {mdd : Number} (known : mdd ≠ nan) :
    (normalizeDrawdown mdd).IsNonneg :=
  clamp01_isNonneg (finite_sub_ne_nan rfl known)

/-! ### The score -/

theorem maxScore_eq : (maxScore : Number) = ofInt 100 (by decide) := literal_ofNat 100 (by decide)

section

variable {sharpe mdd consistency completeness : Number}

theorem composite_ne_nan (ratio : sharpe ≠ nan) (loss : mdd ≠ nan) (regular : consistency.IsNonneg)
    (complete : completeness.IsNonneg) : composite sharpe mdd consistency completeness ≠ nan := by
  obtain ⟨hundred, hundred_eq, _⟩ : ∃ d, maxScore = finite d ∧ 0 < d.val :=
    finite_of_pos (by decide +kernel) (by decide +kernel)
  obtain ⟨w₁, sharpe_eq, _⟩ : ∃ d, weightSharpe = finite d ∧ 0 < d.val :=
    finite_of_pos (by decide +kernel) (by decide +kernel)
  obtain ⟨w₂, drawdown_eq, _⟩ : ∃ d, weightDrawdown = finite d ∧ 0 < d.val :=
    finite_of_pos (by decide +kernel) (by decide +kernel)
  obtain ⟨w₃, consistency_eq, _⟩ : ∃ d, weightConsistency = finite d ∧ 0 < d.val :=
    finite_of_pos (by decide +kernel) (by decide +kernel)
  obtain ⟨w₄, completeness_eq, _⟩ : ∃ d, weightCompleteness = finite d ∧ 0 < d.val :=
    finite_of_pos (by decide +kernel) (by decide +kernel)
  -- clamped to 0–1 the parts are numbers, and so is their weighted sum
  have ratio' := normalizeSharpe_isNonneg ratio
  have loss' := normalizeDrawdown_isNonneg loss
  rw [composite, hundred_eq, sharpe_eq, drawdown_eq, consistency_eq, completeness_eq]
  exact (IsNonneg.mul ‹_› ((((IsNonneg.mul ‹_› ratio').add (IsNonneg.mul ‹_› loss')).add
    (IsNonneg.mul ‹_› regular)).add (IsNonneg.mul ‹_› complete))).ne_nan

/-- One part that is no number leaves none. -/
theorem composite_nan (none : sharpe = nan ∨ consistency = nan) :
    composite sharpe mdd consistency completeness = nan := by
  rcases none with rfl | rfl
  · simp [composite, normalizeSharpe, clamp01_nan, add_def, mul_def, div_def]
  · simp [composite, add_def, mul_def]

/-- The bounds are doubles, so a number between them is one. -/
theorem clamp_bounds (has : Double → Prop) (low : ∀ d : Double, d.val = 0 → has d)
    (high : ∀ d : Double, d.val = 100 → has d) {x : Number} (known : x ≠ nan)
    (mid : ∀ d, x = finite d → has d) :
    ∃ d, clamp zero maxScore x = finite d ∧ 0 ≤ d.val ∧ d.val ≤ 100 ∧ has d := by
  obtain ⟨d, clamped, above, below, holds⟩ := clamp_finite has
    ⟨((0 : ℤ) : ℚ), representable_intCast (by decide)⟩
    ⟨((100 : ℤ) : ℚ), representable_intCast (by decide)⟩ (by simp) known
    (low _ Int.cast_zero) (high _ (by simp)) mid
  rw [maxScore_eq]
  exact ⟨d, clamped, Int.cast_zero.symm.trans_le above, below.trans_eq (by simp), holds⟩

/-- A rounded number within the bounds is publishable, and what is no number never is. -/
theorem clamp_round_publishable (x : Number) :
    Publishable (clamp zero maxScore x.round) ↔ x ≠ nan := by
  constructor
  · rintro ⟨k, -, integer⟩ rfl
    rw [show nan.round = nan from rfl, clamp_nan] at integer
    cases integer
  · intro known
    -- rounding keeps what is no finite number
    have rounded : x.round ≠ nan := by
      cases x with
      | nan => exact absurd rfl known
      | infinity negative => exact infinity_ne_nan negative
      | finite d => exact finite_ne_nan _
    obtain ⟨d, clamped, low, high, z, integer⟩ := clamp_bounds (fun d => ∃ z : ℤ, d.val = z)
      (fun d none => ⟨0, by simpa using none⟩) (fun d most => ⟨100, by simpa using most⟩) rounded
      fun d same => by
        cases x with
        | nan | infinity => cases same
        | finite x =>
          cases same
          exact ⟨_, rfl⟩
    rw [integer] at low high
    have low : 0 ≤ z := by exact_mod_cast low
    have high : z ≤ 100 := by exact_mod_cast high
    refine ⟨z.toNat, by omega, ?_⟩
    rw [Int.toNat_of_nonneg low]
    exact toBigInt_some.mpr ⟨d, clamped, integer⟩

/-- A clamped score passes the check of its range, even if it is no number. -/
theorem clamp_inRange (x : Number) :
    scoreOutOfRange (clamp zero maxScore x) = false := by
  by_cases unknown : x = nan
  · rw [unknown, clamp_nan, scoreOutOfRange, maxScore_eq]
    rfl
  · obtain ⟨d, clamped, low, high, -⟩ := clamp_bounds (fun _ => True) (fun _ _ => trivial)
      (fun _ _ => trivial) unknown fun _ _ => trivial
    rw [clamped, scoreOutOfRange, maxScore_eq]
    simp [zero, ofInt, lt, low, high]

end

end

end Mirror
