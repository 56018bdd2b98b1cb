import Mathlib.Algebra.Order.Field.Basic
import Mathlib.Order.Bounds.Basic
import Mathlib.Order.Interval.Set.Basic
import Mathlib.Tactic.Common

/-! The worst loss of a positive curve, from any of its points to a later one. -/
namespace Series

section

variable {K : Type} [Field K] {curve : ℕ → K} {n m : ℕ} {p d d' : K}

/-- The part of `peak` that is gone at `value`. -/
def loss (peak value : K) : K := (peak - value) / peak

/-- The losses between the points of a curve up to the `n`-th. -/
def losses (curve : ℕ → K) (n : ℕ) : Set K :=
  {x | ∃ i j, i ≤ j ∧ j ≤ n ∧ x = loss (curve i) (curve j)}

theorem loss_self {x : K} : loss x x = 0 := by
  rw [loss, sub_self, zero_div]

theorem losses_congr {curve' : ℕ → K} (same : ∀ i ≤ n, curve i = curve' i) :
    losses curve n = losses curve' n := by
  ext x
  constructor
  · rintro ⟨i, j, hij, hj, rfl⟩
    exact ⟨i, j, hij, hj, by rw [same i (hij.trans hj), same j hj]⟩
  · rintro ⟨i, j, hij, hj, rfl⟩
    exact ⟨i, j, hij, hj, by rw [same i (hij.trans hj), same j hj]⟩

variable [LinearOrder K]

theorem worst_nonneg (worst : IsGreatest (losses curve n) d) : 0 ≤ d :=
  worst.2 ⟨0, 0, le_refl _, Nat.zero_le _, loss_self.symm⟩

/-- Losses stay, however the curve goes on. -/
theorem worst_le {curve' : ℕ → K} (same : ∀ i ≤ n, curve i = curve' i) (longer : n ≤ m)
    (worst : IsGreatest (losses curve n) d) (worst' : IsGreatest (losses curve' m) d') :
    d ≤ d' := by
  rw [losses_congr same] at worst
  obtain ⟨i, j, hij, hj, rfl⟩ := worst.1
  exact worst'.2 ⟨i, j, hij, hj.trans longer, rfl⟩

omit [Field K] in
theorem peak_succ (peak : IsGreatest (curve '' Set.Iic n) p) :
    IsGreatest (curve '' Set.Iic (n + 1)) (max p (curve (n + 1))) := by
  have parts : Set.Iic (n + 1) = Set.Iic n ∪ {n + 1} := by
    ext i
    simp only [Set.mem_Iic, Set.mem_union, Set.mem_singleton_iff]
    omega
  rw [parts, Set.image_union, Set.image_singleton]
  exact peak.union isGreatest_singleton

variable [IsStrictOrderedRing K]

/-- The higher the peak was, the more of it is lost. -/
theorem loss_mono {a b v : K} (ha : 0 < a) (hab : a ≤ b) (hv : 0 ≤ v) : loss a v ≤ loss b v := by
  have hb : 0 < b := ha.trans_le hab
  rw [loss, loss, sub_div, sub_div, div_self ha.ne', div_self hb.ne']
  exact sub_le_sub_left (div_le_div_of_nonneg_left hv ha hab) 1

theorem loss_lt_one {a v : K} (ha : 0 < a) (hv : 0 < v) : loss a v < 1 := by
  rw [loss, div_lt_one ha]
  exact sub_lt_self a hv

theorem loss_nonpos_iff {a v : K} (ha : 0 < a) : loss a v ≤ 0 ↔ a ≤ v := by
  rw [loss, div_le_iff₀ ha, zero_mul, sub_nonpos]

/-! ### One more point -/

/-- A new point adds the losses down to it, the worst of which is from the highest point. -/
theorem worst_succ (positive : ∀ i ≤ n + 1, 0 < curve i)
    (peak : IsGreatest (curve '' Set.Iic (n + 1)) p) (worst : IsGreatest (losses curve n) d) :
    IsGreatest (losses curve (n + 1)) (max d (loss p (curve (n + 1)))) := by
  obtain ⟨⟨top, reached, rfl⟩, highest⟩ := peak
  obtain ⟨⟨i, j, hij, hj, rfl⟩, bound⟩ := worst
  constructor
  · rcases max_choice (loss (curve i) (curve j)) (loss (curve top) (curve (n + 1))) with h | h
    · rw [h]
      exact ⟨i, j, hij, by omega, rfl⟩
    · rw [h]
      exact ⟨top, n + 1, reached, le_refl _, rfl⟩
  · rintro x ⟨i', j', hij', hj', rfl⟩
    rcases Nat.lt_or_eq_of_le hj' with before | last
    · exact le_max_of_le_left (bound ⟨i', j', hij', by omega, rfl⟩)
    · subst last
      refine le_max_of_le_right (loss_mono (positive i' hij') (highest ?_) (positive _ hj').le)
      exact ⟨i', hij', rfl⟩

theorem worst_lt_one (positive : ∀ i ≤ n, 0 < curve i) (worst : IsGreatest (losses curve n) d) :
    d < 1 := by
  obtain ⟨i, j, hij, hj, rfl⟩ := worst.1
  exact loss_lt_one (positive i (hij.trans hj)) (positive j hj)

/-- There is no loss exactly where the curve never falls. -/
theorem worst_eq_zero_iff (positive : ∀ i ≤ n, 0 < curve i)
    (worst : IsGreatest (losses curve n) d) :
    d = 0 ↔ ∀ i < n, curve i ≤ curve (i + 1) := by
  constructor
  · rintro rfl i hi
    exact (loss_nonpos_iff (positive i hi.le)).mp
      (worst.2 ⟨i, i + 1, Nat.le_succ i, hi, rfl⟩)
  · intro rises
    -- what rises at every step from `i` to `j` has risen from `i` to `j`
    have risen : ∀ i j, i ≤ j → j ≤ n → curve i ≤ curve j := by
      intro i j hij
      induction j, hij using Nat.le_induction with
      | base => exact fun _ => le_refl _
      | succ j _ ih => exact fun hj => (ih (Nat.le_of_succ_le hj)).trans (rises j hj)
    obtain ⟨i, j, hij, hj, rfl⟩ := worst.1
    refine le_antisymm ?_ (worst_nonneg worst)
    exact (loss_nonpos_iff (positive i (hij.trans hj))).mpr (risen i j hij hj)

end

end Series
