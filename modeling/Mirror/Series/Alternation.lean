import Mathlib.Algebra.Order.Field.Basic
import Mathlib.Algebra.BigOperators.Group.List.Basic
import Mathlib.Tactic.LinearCombination
import Mathlib.Tactic.Linarith
import Mathlib.Tactic.Positivity
import Mathlib.Tactic.Ring

/-!
A series of ones and minus ones that alternates. Its mean depends on whether its length is even, its
lag-1 autocorrelation does not.
-/
namespace Series

section

variable {K : Type} [Field K] {d : List K}

/-- What the lag-1 autocorrelation sums, for a series of mean `m`. -/
def lagged (m : K) (d : List K) : List K :=
  d.zipWith (fun before x => (x - m) * (before - m)) d.tail

/-- Each term is the other sign of the one before it. -/
def Alternating (d : List K) : Prop := d.IsChain fun a b => a + b = 0

/-- Terms cancel in pairs. -/
theorem Alternating.sum (alternating : Alternating d) : d.sum = 0 ∨ d.head? = some d.sum := by
  induction d with
  | nil => exact .inl rfl
  | cons x d ih =>
    cases d with
    | nil => simp
    | cons y d =>
      obtain ⟨opposite, rest⟩ := List.isChain_cons_cons.mp alternating
      -- either nothing is left after `x`, or the `y` that cancels it
      rcases ih rest with zero | first
      · right
        rw [List.sum_cons, zero, add_zero, List.head?_cons]
      · left
        rw [List.head?_cons, Option.some.injEq] at first
        rw [List.sum_cons, ← first, opposite]

/-- Every product of neighbours is the same. -/
theorem Alternating.lagged_sum (alternating : Alternating d) (unit : ∀ x ∈ d, x * x = 1)
    (some : d ≠ []) (m : K) : (lagged m d).sum = (d.length - 1) * (m * m - 1) := by
  induction d with
  | nil => exact absurd rfl some
  | cons x d ih =>
    cases d with
    | nil => simp [lagged]
    | cons y d =>
      obtain ⟨opposite, rest⟩ := List.isChain_cons_cons.mp alternating
      rw [List.forall_mem_cons] at unit
      have later := ih rest unit.2 (List.cons_ne_nil y d)
      have split : (lagged m (x :: y :: d)).sum = (y - m) * (x - m) + (lagged m (y :: d)).sum :=
        List.sum_cons
      rw [split, later]
      push_cast [List.length_cons]
      linear_combination (x - m) * opposite - unit.1

theorem squares_sum (unit : ∀ x ∈ d, x * x = 1) (m : K) :
    (d.map fun x => (x - m) * (x - m)).sum = d.length * (1 + m * m) - 2 * m * d.sum := by
  induction d with
  | nil => simp
  | cons x d ih =>
    rw [List.forall_mem_cons] at unit
    rw [List.map_cons, List.sum_cons, ih unit.2]
    push_cast [List.length_cons, List.sum_cons]
    linear_combination unit.1

variable [LinearOrder K] [IsStrictOrderedRing K]

/-- The squares add up to the products of neighbours, and one more of them. -/
theorem Alternating.autocorrelation (alternating : Alternating d) (unit : ∀ x ∈ d, x * x = 1)
    (long : 2 ≤ d.length) {m : K} (mean : m = d.sum / d.length) :
    (d.map fun x => (x - m) * (x - m)).sum ≠ 0 ∧
      (lagged m d).sum / (d.map fun x => (x - m) * (x - m)).sum =
        -((d.length - 1) / d.length) := by
  have length : (2 : K) ≤ d.length := by exact_mod_cast long
  have some : d ≠ [] := by
    rintro rfl
    simp at long
  have total : d.sum = m * d.length := by
    rw [mean, div_mul_cancel₀ _ (by positivity)]
  have bounded : d.sum * d.sum ≤ 1 := by
    rcases alternating.sum with zero | first
    · rw [zero, mul_zero]
      exact zero_le_one
    · exact (unit _ (List.mem_of_head? first)).le
  -- so the mean is smaller than one in magnitude
  have small : m * m < 1 := by
    rw [total] at bounded
    by_contra large
    have four : 2 * 2 ≤ (d.length : K) * d.length := mul_self_le_mul_self zero_le_two length
    have product : 1 * (2 * 2) ≤ m * m * (d.length * d.length) :=
      mul_le_mul (not_lt.mp large) four (by norm_num) (mul_self_nonneg m)
    linarith
  rw [squares_sum unit, alternating.lagged_sum unit some, total]
  have squares : d.length * (1 + m * m) - 2 * m * (m * d.length) = d.length * (1 - m * m) := by
    ring
  have nonzero : 1 - m * m ≠ 0 := by linarith
  have nonempty : (d.length : K) ≠ 0 := by positivity
  rw [squares]
  refine ⟨mul_ne_zero nonempty nonzero, ?_⟩
  rw [div_eq_iff (mul_ne_zero nonempty nonzero), neg_mul, ← mul_assoc, div_mul_cancel₀ _ nonempty]
  ring

end

end Series
