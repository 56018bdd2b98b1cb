import Mathlib.Algebra.BigOperators.Group.List.Basic
import Mathlib.Algebra.Order.BigOperators.GroupWithZero.List
import Mathlib.Algebra.Order.Ring.Rat
import Mathlib.Tactic.Linarith
import Mirror.Agent.Outcome
import Mirror.Series.Drawdown

/-!
The drawdown of returns in exact arithmetic. One pass that remembers the peak finds the worst of all
losses between two points of the equity curve.
-/
namespace Mirror.Outcome

open Js Series

section

variable {K : Type} [Field K]

/-- The equity after the first `k` returns. -/
def equityAt (returns : List K) (k : ℕ) : K := ((returns.take k).map (1 + ·)).prod

theorem equityAt_append {returns : List K} {k : ℕ} (within : k ≤ returns.length) (more : List K) :
    equityAt (returns ++ more) k = equityAt returns k := by
  rw [equityAt, List.take_append_of_le_length within, equityAt]

theorem equityAt_succ {returns : List K} {k : ℕ} (within : k < returns.length) :
    equityAt returns (k + 1) = equityAt returns k * (1 + returns[k]) := by
  rw [equityAt, equityAt, List.take_succ_eq_append_getElem within, List.map_append,
    List.prod_append, List.map_singleton, List.prod_singleton]

variable [LinearOrder K] {returns : List K}

/-- What one pass over the returns has found. -/
structure Tracks (returns : List K) (s : Equity K) : Prop where
  equity : s.equity = equityAt returns returns.length
  peak : IsGreatest (equityAt returns '' Set.Iic returns.length) s.peak
  mdd : IsGreatest (losses (equityAt returns) returns.length) s.mdd

/-- Before any return. -/
theorem tracks_nil : Tracks (K := K) [] ⟨1, 1, 0⟩ where
  equity := rfl
  peak := by
    have start : Set.Iic (List.length ([] : List K)) = {0} := by
      ext i
      simp
    rw [start, Set.image_singleton]
    exact isGreatest_singleton
  mdd := by
    constructor
    · exact ⟨0, 0, le_refl _, le_refl _, loss_self.symm⟩
    · rintro x ⟨i, j, hij, hj, rfl⟩
      obtain rfl : j = 0 := Nat.le_zero.mp hj
      obtain rfl : i = 0 := Nat.le_zero.mp hij
      exact loss_self.le

variable [IsStrictOrderedRing K]

theorem equityAt_pos (solvent : ∀ r ∈ returns, -1 < r) (k : ℕ) : 0 < equityAt returns k := by
  refine List.prod_pos fun factor member => ?_
  obtain ⟨r, taken, rfl⟩ := List.mem_map.mp member
  have := solvent r (List.mem_of_mem_take taken)
  linarith

/-- One more return moves the curve to a new point, which only the highest one before it matters
for. -/
theorem Tracks.step {s : Equity K} (tracks : Tracks returns s) {r : K}
    (solvent : ∀ r' ∈ returns ++ [r], -1 < r') : Tracks (returns ++ [r]) (s.step r) := by
  let curve := equityAt (returns ++ [r])
  have same : ∀ i ≤ returns.length, equityAt returns i = curve i :=
    fun i hi => (equityAt_append hi [r]).symm
  have length : (returns ++ [r]).length = returns.length + 1 := by simp
  have equity : (s.step r).equity = curve (returns.length + 1) := by
    have next := equityAt_succ (show returns.length < (returns ++ [r]).length by simp)
    rw [List.getElem_concat_length rfl, equityAt_append (le_refl _), ← tracks.equity] at next
    exact next.symm
  -- the loop compares with the point that it has just computed
  have peak : (s.step r).peak = max s.peak (curve (returns.length + 1)) := by
    rw [← equity, max_def_lt]
    rfl
  have above : IsGreatest (curve '' Set.Iic (returns.length + 1)) (s.step r).peak := by
    have before : equityAt returns '' Set.Iic returns.length = curve '' Set.Iic returns.length :=
      Set.image_congr same
    rw [peak]
    refine peak_succ ?_
    rw [← before]
    exact tracks.peak
  have positive : 0 < (s.step r).peak := by
    obtain ⟨i, -, at_top⟩ := above.1
    rw [← at_top]
    exact equityAt_pos solvent i
  have mdd : (s.step r).mdd = max s.mdd (loss (s.step r).peak (curve (returns.length + 1))) := by
    rw [← equity, max_def_lt, loss]
    simp only [Equity.step] at positive ⊢
    rw [if_pos positive]
    rfl
  refine ⟨by rw [length]; exact equity, by rw [length]; exact above, ?_⟩
  rw [length, mdd]
  refine worst_succ (fun i _ => equityAt_pos solvent i) above ?_
  rw [← losses_congr same]
  exact tracks.mdd

/-- The loop finds the worst loss. -/
theorem tracks_foldl (solvent : ∀ r ∈ returns, -1 < r) :
    Tracks returns (returns.foldl Equity.step ⟨1, 1, 0⟩) := by
  induction returns using List.reverseRecOn with
  | nil => exact tracks_nil
  | append_singleton returns r ih =>
    rw [List.foldl_append]
    exact (ih fun r' member => solvent r' (List.mem_append_left _ member)).step solvent

/-- The drawdown is the worst loss from a point of the equity curve to a later one. It lies in
`[0, 1)`, more returns never lower it, and it is zero exactly where no return is negative. -/
theorem maxDrawdown_worst (returns : List K) (solvent : ∀ r ∈ returns, -1 < r) :
    IsGreatest (losses (equityAt returns) returns.length) (maxDrawdown returns) ∧
      0 ≤ maxDrawdown returns ∧ maxDrawdown returns < 1 ∧
      (∀ more : List K, (∀ r ∈ more, -1 < r) →
        maxDrawdown returns ≤ maxDrawdown (returns ++ more)) ∧
      (maxDrawdown returns = 0 ↔ ∀ r ∈ returns, 0 ≤ r) := by
  have worst := (tracks_foldl solvent).mdd
  have positive (i : ℕ) (_ : i ≤ returns.length) := equityAt_pos solvent i
  refine ⟨worst, worst_nonneg worst, worst_lt_one positive worst, fun more moreSolvent => ?_, ?_⟩
  · have all : ∀ r ∈ returns ++ more, -1 < r := by
      intro r member
      exact (List.mem_append.mp member).elim (solvent r) (moreSolvent r)
    exact worst_le (fun i hi => (equityAt_append hi more).symm) (by simp) worst
      (tracks_foldl all).mdd
  · have rises (i : ℕ) (hi : i < returns.length) :
        equityAt returns i ≤ equityAt returns (i + 1) ↔ 0 ≤ returns[i] := by
      rw [equityAt_succ hi, le_mul_iff_one_le_right (equityAt_pos solvent i),
        le_add_iff_nonneg_right]
    refine (worst_eq_zero_iff positive worst).trans ?_
    rw [List.forall_mem_iff_getElem]
    exact forall₂_congr rises

end

/-- A gain of a tenth, a loss of a half, a gain of a quarter. -/
theorem maxDrawdown_worst_three :
    IsGreatest (losses (equityAt [1 / 10, -1 / 2, 1 / 4]) 3)
        (maxDrawdown [(1 / 10 : ℚ), -1 / 2, 1 / 4]) ∧
      maxDrawdown [(1 / 10 : ℚ), -1 / 2, 1 / 4] = 1 / 2 := by
  refine ⟨(maxDrawdown_worst [(1 / 10 : ℚ), -1 / 2, 1 / 4] (by norm_num)).1, ?_⟩
  decide +kernel

end Mirror.Outcome
