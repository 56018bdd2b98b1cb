import Mirror.Js.Number
import Mathlib.Data.Nat.Sqrt
import Mathlib.Data.Rat.Lemmas

/-!
Arithmetic of numbers. What becomes of `NaN` and the infinities is followed through sums, squares
and roots: a sum is finite only if everything in it is, and a deviation from a mean that is not
finite leaves no number.
-/
namespace Js

/-- The square root, except that a digit far below any double's stands for all that follow. -/
def root (q : ℚ) : ℚ :=
  let k : ℕ := (80 - Int.log 2 q / 2).toNat
  let square := ⌊q * 4 ^ k⌋.toNat
  let r := Nat.sqrt square
  let sticky := if (r * r : ℚ) = q * 4 ^ k then 0 else 1
  (2 * r + sticky : ℕ) / 2 ^ (k + 1)

theorem root_nonneg (q : ℚ) : 0 ≤ root q := by
  simp only [root]
  positivity

theorem nearest_representable {q : ℚ} (h : Representable q) : Representable (⌊q + 1 / 2⌋ : ℤ) := by
  by_cases coarse : 0 ≤ scale q
  · -- a double this large is an integer
    obtain ⟨z, hz⟩ := h.multiple coarse
    rw [zpow_zero, mul_one] at hz
    have same : ⌊(z : ℚ) + 1 / 2⌋ = z := by
      rw [Int.floor_intCast_add]
      norm_num
    rw [hz, same, ← hz]
    exact h
  · have small : |q| < 2 ^ 52 := by
      refine (abs_lt_scale q).trans_le ?_
      rw [← zpow_natCast]
      exact zpow_le_zpow_right₀ one_le_two (by push_cast; omega)
    have := abs_lt.mp small
    have low : (-2 ^ 53 : ℤ) ≤ ⌊q + 1 / 2⌋ := Int.le_floor.mpr (by push_cast; linarith)
    have high : ⌊q + 1 / 2⌋ ≤ (2 ^ 53 : ℤ) := by
      have := Int.floor_le (q + 1 / 2)
      have : (⌊q + 1 / 2⌋ : ℚ) ≤ (2 ^ 53 : ℤ) := by push_cast; linarith
      exact_mod_cast this
    exact representable_intCast (abs_le.mpr ⟨low, high⟩)

namespace Number

/-! ### Operations -/

def zero : Number := ofInt 0 (by decide)

def one : Number := ofInt 1 (by decide)

def neg : Number → Number
  | nan => nan
  | infinity negative => infinity !negative
  | finite x => finite x.neg

def add : Number → Number → Number
  | finite x, finite y => ofRat (x.val + y.val)
  | infinity s, infinity t => if s = t then infinity s else nan
  | infinity s, finite _ | finite _, infinity s => infinity s
  | nan, _ | _, nan => nan

def sub (x y : Number) : Number := x.add y.neg

def mul : Number → Number → Number
  | finite x, finite y => ofRat (x.val * y.val)
  | infinity s, infinity t => infinity (s != t)
  | infinity s, finite y | finite y, infinity s =>
    if y.val = 0 then nan else infinity (s != decide (y.val < 0))
  | nan, _ | _, nan => nan

/-- `x / y`; a `y` of zero counts as positive. -/
def div : Number → Number → Number
  | finite x, finite y =>
    if y.val ≠ 0 then ofRat (x.val / y.val)
    else if x.val = 0 then nan else infinity (x.val < 0)
  | finite _, infinity _ => zero
  | infinity s, finite y => infinity (s != decide (y.val < 0))
  | infinity _, infinity _ => nan
  | nan, _ | _, nan => nan

/-- `x ** 2`. -/
def square (x : Number) : Number := x.mul x

/-- `Math.sqrt`. -/
def sqrt : Number → Number
  | finite x => if 0 ≤ x.val then ofRat (root x.val) else nan
  | infinity false => infinity false
  | _ => nan

/-- `Math.abs`. -/
def abs : Number → Number
  | finite x => if 0 ≤ x.val then finite x else finite x.neg
  | infinity _ => infinity false
  | nan => nan

/-- `Math.min` of two. -/
def min (x y : Number) : Number := if x = nan ∨ y = nan then nan else if x.lt y then x else y

/-- `Math.max` of two. -/
def max (x y : Number) : Number := if x = nan ∨ y = nan then nan else if x.lt y then y else x

/-- `Math.round`. -/
def round : Number → Number
  | finite x => finite ⟨⌊x.val + 1 / 2⌋, nearest_representable x.representable⟩
  | x => x

/-- The length of an array; none comes near the bound. -/
def ofLength (n : ℕ) : Number := ofInt (Min.min n (2 ^ 53)) (by
  rw [abs_of_nonneg (by positivity)]
  exact min_le_right _ _)

/-- `xs.reduce((a, b) => a + b, 0)`. -/
def sum (xs : List Number) : Number := xs.foldl add zero

/-- `Math.max(lo, Math.min(hi, x))`. -/
def clamp (lo hi x : Number) : Number := lo.max (hi.min x)

/-! ### Propagation -/

theorem finite_ne_nan (d : Double) : finite d ≠ nan := by
  intro same
  cases same

theorem infinity_ne_nan (negative : Bool) : infinity negative ≠ nan := by
  intro same
  cases same

@[simp] theorem nan_add (x : Number) : nan.add x = nan := by cases x <;> rfl

@[simp] theorem add_nan (x : Number) : x.add nan = nan := by cases x <;> rfl

@[simp] theorem sub_nan (x : Number) : x.sub nan = nan := add_nan x

@[simp] theorem nan_mul (x : Number) : nan.mul x = nan := by cases x <;> rfl

@[simp] theorem mul_nan (x : Number) : x.mul nan = nan := by cases x <;> rfl

@[simp] theorem nan_div (x : Number) : nan.div x = nan := by cases x <;> rfl

@[simp] theorem clamp_nan (lo hi : Number) : clamp lo hi nan = nan := by simp [clamp, min, max]

/-! ### Signs -/

/-- A number that is at least zero. -/
def IsNonneg : Number → Prop
  | finite x => 0 ≤ x.val
  | infinity negative => negative = false
  | nan => False

theorem zero_isNonneg : zero.IsNonneg := by simp [zero, ofInt, IsNonneg]

theorem IsNonneg.ne_nan {x : Number} (h : x.IsNonneg) : x ≠ nan := by
  rintro rfl
  exact h

theorem ofRat_isNonneg {q : ℚ} (h : 0 ≤ q) : (ofRat q).IsNonneg := by
  simp only [ofRat]
  split
  · have start : Representable ((0 : ℤ) : ℚ) := representable_intCast (by norm_num)
    exact start.le_rounded (by simpa using h)
  · exact decide_eq_false (not_lt.mpr h)

theorem ofRat_ne_nan (q : ℚ) : ofRat q ≠ nan := by
  simp only [ofRat]
  split
  · exact finite_ne_nan _
  · exact infinity_ne_nan _

/-- What is no larger than a double does not overflow. -/
theorem ofRat_isFinite {q : ℚ} {d : Double} (h : |q| ≤ |d.val|) : (ofRat q).isFinite = true := by
  -- `d` or its opposite bounds the number, and neither overflows
  obtain ⟨a, rep, below, bound⟩ :
      ∃ a, Representable a ∧ |q| ≤ a ∧ a < overflow := by
    rcases abs_choice d.val with same | negated
    · exact ⟨d.val, d.representable, same ▸ h, (le_abs_self _).trans_lt d.representable.2⟩
    · exact ⟨-d.val, d.representable.neg, negated ▸ h,
        (neg_le_abs _).trans_lt d.representable.2⟩
  have high := rep.rounded_le ((le_abs_self q).trans below)
  have low := rep.neg.le_rounded ((neg_le_neg below).trans (neg_abs_le q))
  have bounded : |rounded q| < overflow := (abs_le.mpr ⟨low, high⟩).trans_lt bound
  rw [ofRat, dif_pos bounded]
  rfl

theorem IsNonneg.add {x y : Number} (hx : x.IsNonneg) (hy : y.IsNonneg) : (x.add y).IsNonneg := by
  -- no infinity here is negative, so two of them do not cancel
  match x, y, hx, hy with
  | finite x, finite y, hx, hy => exact ofRat_isNonneg (add_nonneg hx hy)
  | infinity _, infinity _, rfl, rfl => rfl
  | infinity _, finite _, rfl, _ => rfl
  | finite _, infinity _, _, rfl => rfl

/-- A product with a positive double. -/
theorem IsNonneg.mul {d : Double} (positive : 0 < d.val) {x : Number} (hx : x.IsNonneg) :
    ((finite d).mul x).IsNonneg := by
  match x, hx with
  | finite x, hx => exact ofRat_isNonneg (mul_nonneg positive.le hx)
  | infinity _, rfl =>
    simp [Number.mul, IsNonneg, positive.ne', positive.le]

theorem IsNonneg.div {d : Double} (positive : 0 < d.val) {x : Number} (hx : x.IsNonneg) :
    (x.div (finite d)).IsNonneg := by
  match x, hx with
  | finite x, hx =>
    simp only [Number.div, if_pos positive.ne']
    exact ofRat_isNonneg (div_nonneg hx positive.le)
  | infinity _, rfl => simp [Number.div, IsNonneg, positive.le]

theorem square_isNonneg {x : Number} (h : x ≠ nan) : x.square.IsNonneg := by
  match x, h with
  | finite x, _ => exact ofRat_isNonneg (mul_self_nonneg x.val)
  | infinity false, _ | infinity true, _ => rfl
  | nan, h => exact absurd rfl h

theorem IsNonneg.sqrt {x : Number} (hx : x.IsNonneg) : x.sqrt.IsNonneg := by
  match x, hx with
  | finite x, hx =>
    simp only [Number.sqrt, if_pos (show 0 ≤ x.val from hx)]
    exact ofRat_isNonneg (root_nonneg x.val)
  | infinity _, rfl => rfl

/-- Taking away something finite. -/
theorem sub_ne_nan {x y : Number} (hx : x ≠ nan) (hy : y.isFinite = true) : x.sub y ≠ nan := by
  match x, y, hx, hy with
  | finite x, finite y, _, _ => exact ofRat_ne_nan _
  | infinity _, finite _, _, _ => exact infinity_ne_nan _
  | nan, _, hx, _ => exact absurd rfl hx

/-- Something taken away from something finite. -/
theorem finite_sub_ne_nan {x y : Number} (hx : x.isFinite = true) (hy : y ≠ nan) :
    x.sub y ≠ nan := by
  cases x with
  | nan | infinity => cases hx
  | finite x =>
    cases y with
    | nan => exact absurd rfl hy
    | infinity _ => exact infinity_ne_nan _
    | finite y => exact ofRat_ne_nan _

/-- A quotient by a double other than zero. -/
theorem div_ne_nan {x : Number} (hx : x ≠ nan) {d : Double} (nonzero : d.val ≠ 0) :
    x.div (finite d) ≠ nan := by
  match x, hx with
  | finite x, _ =>
    simp only [div, if_pos nonzero]
    exact ofRat_ne_nan _
  | infinity _, _ => exact infinity_ne_nan _
  | nan, hx => exact absurd rfl hx

theorem finite_eq_zero {d : Double} : finite d = zero ↔ d.val = 0 := by
  have same : zero = finite ⟨((0 : ℤ) : ℚ), representable_intCast (by decide)⟩ := rfl
  rw [same, finite.injEq]
  constructor
  · rintro rfl
    exact Int.cast_zero
  · intro none
    cases d
    simpa using none

theorem finite_div_ne_nan {x y : Number} (hx : x.isFinite = true) (hy : y ≠ nan)
    (nonzero : y ≠ zero) : x.div y ≠ nan := by
  cases x with
  | nan | infinity => cases hx
  | finite x =>
    -- only zero by zero and infinity by infinity leave no number
    cases y with
    | nan => exact absurd rfl hy
    | infinity _ => exact finite_ne_nan _
    | finite y => exact div_ne_nan (finite_ne_nan x) (mt finite_eq_zero.mpr nonzero)

theorem mul_ne_nan {x : Number} (hx : x ≠ nan) {d : Double} (nonzero : d.val ≠ 0) :
    x.mul (finite d) ≠ nan := by
  match x, hx with
  | finite x, _ => exact ofRat_ne_nan _
  | infinity _, _ =>
    simp only [mul, if_neg nonzero]
    exact infinity_ne_nan _
  | nan, hx => exact absurd rfl hx

theorem finite_of_pos {x : Number} (finite : x.isFinite = true) (positive : zero.lt x = true) :
    ∃ d, x = .finite d ∧ 0 < d.val := by
  match x, finite, positive with
  | .finite d, _, positive => exact ⟨d, rfl, by simpa [zero, ofInt, lt] using positive⟩

theorem ofLength_finite {n : ℕ} (some : n ≠ 0) : ∃ d, ofLength n = finite d ∧ 1 ≤ d.val := by
  refine ⟨_, rfl, ?_⟩
  have large : (1 : ℤ) ≤ Min.min (n : ℤ) (2 ^ 53) := by omega
  exact Int.cast_le.mpr large

/-- Nothing is compared with no number. -/
theorem ne_nan_of_lt {x y : Number} (h : x.lt y = true) : x ≠ nan ∧ y ≠ nan := by
  match x, y, h with
  | finite _, finite _, _ => exact ⟨finite_ne_nan _, finite_ne_nan _⟩
  | infinity true, finite _, _ => exact ⟨infinity_ne_nan _, finite_ne_nan _⟩
  | finite _, infinity false, _ => exact ⟨finite_ne_nan _, infinity_ne_nan _⟩
  | infinity true, infinity false, _ => exact ⟨infinity_ne_nan _, infinity_ne_nan _⟩

/-! ### What is not finite -/

theorem add_isFinite {x y : Number} (h : (x.add y).isFinite = true) :
    x.isFinite = true ∧ y.isFinite = true := by
  match x, y, h with
  | finite _, finite _, _ => exact ⟨rfl, rfl⟩
  | infinity s, infinity t, h =>
    -- infinities of different signs leave no number, and others stay infinite
    simp only [add] at h
    split at h <;> cases h

/-- A number that is infinite or none: no quotient of two of them is a number. -/
theorem div_eq_nan {x y : Number} (hx : x.isFinite = false) (hy : y.isFinite = false) :
    x.div y = nan := by
  match x, y, hx, hy with
  | infinity _, infinity _, _, _ | nan, _, _, _ | infinity _, nan, _, _ => simp [div]

theorem div_not_isFinite {x y : Number} (hx : x.isFinite = false) : (x.div y).isFinite = false := by
  match x, y, hx with
  | infinity _, finite _, _ | infinity _, infinity _, _ | infinity _, nan, _ => rfl
  | nan, y, _ => rw [nan_div]; rfl

/-- A quotient by a double of at least one. -/
theorem div_isFinite {x : Number} (hx : x.isFinite = true) {d : Double} (large : 1 ≤ d.val) :
    (x.div (finite d)).isFinite = true := by
  match x, hx with
  | finite x, _ =>
    have positive : 0 < d.val := one_pos.trans_le large
    simp only [div, if_pos positive.ne']
    refine ofRat_isFinite (d := x) ?_
    rw [abs_div, abs_of_pos positive]
    exact div_le_self (abs_nonneg _) large

/-- Infinite, or no number. -/
def IsTop (x : Number) : Prop := x = infinity false ∨ x = nan

theorem IsTop.not_isFinite {x : Number} (h : x.IsTop) : x.isFinite = false := by
  rcases h with rfl | rfl <;> rfl

theorem IsTop.add {x y : Number} (hx : x.isFinite = true ∨ x.IsTop) (hy : y.IsTop) :
    (x.add y).IsTop := by
  rcases hy with rfl | rfl
  -- only a negative infinity would cancel it, and that is neither finite nor `IsTop`
  · match x, hx with
    | finite _, _ => exact .inl rfl
    | infinity _, .inr (.inl rfl) => exact .inl rfl
    | nan, _ => exact .inr rfl
  · exact .inr (add_nan x)

theorem IsTop.div {x : Number} (h : x.IsTop) {d : Double} (positive : 0 < d.val) :
    (x.div (finite d)).IsTop := by
  rcases h with rfl | rfl
  · simp [Number.div, IsTop, positive.le]
  · exact .inr rfl

theorem IsTop.sqrt {x : Number} (h : x.IsTop) : x.sqrt.IsTop := by
  rcases h with rfl | rfl
  · exact .inl rfl
  · exact .inr rfl

/-! ### Sums -/

theorem foldl_add_isFinite (xs : List Number) (start : Number)
    (h : (xs.foldl add start).isFinite = true) :
    start.isFinite = true ∧ ∀ x ∈ xs, x.isFinite = true := by
  -- induction on the list for every start, since the start grows with each element
  induction xs generalizing start with
  | nil => exact ⟨h, List.forall_mem_nil _⟩
  | cons x xs ih =>
    obtain ⟨first, rest⟩ := ih (start.add x) h
    obtain ⟨left, right⟩ := add_isFinite first
    exact ⟨left, List.forall_mem_cons.mpr ⟨right, rest⟩⟩

/-- Everything in a finite sum is finite. -/
theorem sum_isFinite {xs : List Number} (h : (sum xs).isFinite = true) :
    ∀ x ∈ xs, x.isFinite = true :=
  (foldl_add_isFinite xs zero h).2

theorem foldl_add_isNonneg (xs : List Number) (start : Number) (hs : start.IsNonneg)
    (h : ∀ x ∈ xs, x.IsNonneg) : (xs.foldl add start).IsNonneg := by
  induction xs generalizing start with
  | nil => exact hs
  | cons x xs ih =>
    rw [List.forall_mem_cons] at h
    exact ih _ (hs.add h.1) h.2

theorem sum_isNonneg {xs : List Number} (h : ∀ x ∈ xs, x.IsNonneg) : (sum xs).IsNonneg :=
  foldl_add_isNonneg xs zero zero_isNonneg h

theorem foldl_add_top (xs : List Number) (start : Number) (hs : start.IsTop)
    (h : ∀ x ∈ xs, x.IsTop) : (xs.foldl add start).IsTop := by
  induction xs generalizing start with
  | nil => exact hs
  | cons x xs ih =>
    rw [List.forall_mem_cons] at h
    exact ih _ (IsTop.add (.inr hs) h.1) h.2

theorem sum_top {xs : List Number} (some : xs ≠ []) (h : ∀ x ∈ xs, x.IsTop) : (sum xs).IsTop := by
  -- the first element turns the sum, the others cannot turn it back
  obtain ⟨x, rest, rfl⟩ := List.exists_cons_of_ne_nil some
  rw [List.forall_mem_cons] at h
  exact foldl_add_top rest _ (IsTop.add (.inl rfl) h.1) h.2

/-- `xs.reduce((a, b) => a + (b - mean) ** 2, 0)`. -/
def deviation (mean : Number) (xs : List Number) : Number :=
  sum (xs.map fun b => (b.sub mean).square)

theorem deviation_isNonneg {mean : Number} (hm : mean.isFinite = true) {xs : List Number}
    (h : ∀ x ∈ xs, x ≠ nan) : (deviation mean xs).IsNonneg := by
  refine sum_isNonneg ?_
  intro y member
  obtain ⟨x, member', rfl⟩ := List.mem_map.mp member
  exact square_isNonneg (sub_ne_nan (h x member') hm)

/-- From a mean that is not finite everything deviates infinitely, if by a number at all. -/
theorem square_sub_top {mean : Number} (hm : mean.isFinite = false) (x : Number) :
    (x.sub mean).square.IsTop := by
  -- a difference of equal infinities is no number; any other one has an infinite square
  match mean, x, hm with
  | nan, x, _ => exact .inr (by simp [square])
  | infinity _, nan, _ => exact .inr rfl
  | infinity false, finite _, _ | infinity true, finite _, _ => exact .inl rfl
  | infinity false, infinity false, _ | infinity true, infinity true, _ => exact .inr rfl
  | infinity false, infinity true, _ | infinity true, infinity false, _ => exact .inl rfl

theorem deviation_top {mean : Number} (hm : mean.isFinite = false) {xs : List Number}
    (some : xs ≠ []) : (deviation mean xs).IsTop := by
  refine sum_top (by simpa using some) ?_
  intro y member
  obtain ⟨x, -, rfl⟩ := List.mem_map.mp member
  exact square_sub_top hm x

/-- `xs.reduce((a, b) => a + b, 0) / xs.length`. -/
def mean (xs : List Number) : Number := (sum xs).div (ofLength xs.length)

/-- The mean is finite where the sum is. -/
theorem mean_isFinite {xs : List Number} (some : xs ≠ []) :
    (mean xs).isFinite = (sum xs).isFinite := by
  obtain ⟨d, length, large⟩ := ofLength_finite (List.length_pos_iff.mpr some).ne'
  rw [mean, length]
  -- a length is at least one, so dividing by it neither overflows nor mends an overflow
  cases finite : (sum xs).isFinite with
  | true => exact div_isFinite finite large
  | false => exact div_not_isFinite finite

/-! ### Clamping -/

theorem max_finite (x y : Double) :
    ∃ e, (finite x).max (finite y) = finite e ∧ x.val ≤ e.val ∧ (e = x ∨ e = y) := by
  by_cases below : x.val < y.val
  · exact ⟨y, by simp [max, lt, below], below.le, .inr rfl⟩
  · exact ⟨x, by simp [max, lt, below], le_rfl, .inl rfl⟩

/-- What is clamped between two doubles is one, and it has what they and the number have. -/
theorem clamp_finite (has : Double → Prop) (lo hi : Double) (order : lo.val ≤ hi.val) {x : Number}
    (h : x ≠ nan) (low : has lo) (high : has hi) (mid : ∀ d, x = finite d → has d) :
    ∃ d, clamp (finite lo) (finite hi) x = finite d ∧ lo.val ≤ d.val ∧ d.val ≤ hi.val ∧ has d := by
  -- minus infinity gives the lower bound; all else is capped first and then raised
  by_cases least : x = infinity true
  · rw [least]
    exact ⟨lo, by simp [clamp, min, max, lt], le_rfl, order, low⟩
  · obtain ⟨capped, minimum, below, kept⟩ :
        ∃ d, (finite hi).min x = finite d ∧ d.val ≤ hi.val ∧ has d := by
      cases x with
      | nan => exact absurd rfl h
      | infinity negative =>
        cases negative with
        | true => exact absurd rfl least
        | false => exact ⟨hi, by simp [min, lt], le_rfl, high⟩
      | finite d =>
        by_cases above : hi.val < d.val
        · exact ⟨hi, by simp [min, lt, above], le_rfl, high⟩
        · exact ⟨d, by simp [min, lt, above], not_lt.mp above, mid d rfl⟩
    obtain ⟨e, maximum, least, which⟩ := max_finite lo capped
    rw [clamp, minimum]
    rcases which with rfl | rfl
    · exact ⟨e, maximum, least, order, low⟩
    · exact ⟨e, maximum, least, below, kept⟩

end Number

end Js
