import Mathlib.Data.Int.Log
import Mathlib.Data.Rat.Floor
import Mathlib.Tactic.Linarith
import Mathlib.Tactic.FieldSimp
import Mathlib.Tactic.Ring

/-!
The numbers of ECMAScript. A finite double is a rational that is an integer multiple of its own
unit in the last place; an exact result becomes a number by rounding to the nearest double. The
two zeros are one number here, as they are to every operation below.
-/
namespace Js

/-- The exponent of the last binary digit that a double near `q` has room for. -/
def scale (q : ℚ) : ℤ := max (-1074) (Int.log 2 |q| - 52)

/-- The unit in the last place of doubles near `q`. -/
def ulp (q : ℚ) : ℚ := 2 ^ scale q

/-- From here on magnitudes overflow to infinity. -/
def overflow : ℚ := 2 ^ 1024

def Representable (q : ℚ) : Prop := (⌊q / ulp q⌋ : ℚ) * ulp q = q ∧ |q| < overflow

instance (q : ℚ) : Decidable (Representable q) := inferInstanceAs (Decidable (_ ∧ _))

/-- The nearest integer, and of two equally near ones the even one. -/
def nearestEven (q : ℚ) : ℤ :=
  let rest := q - ⌊q⌋
  if rest < 1 / 2 then ⌊q⌋
  else if 1 / 2 < rest then ⌊q⌋ + 1
  else if ⌊q⌋ % 2 = 0 then ⌊q⌋ else ⌊q⌋ + 1

/-- `q` to the precision of a double. -/
def rounded (q : ℚ) : ℚ := nearestEven (q / ulp q) * ulp q

theorem ulp_pos (q : ℚ) : 0 < ulp q := zpow_pos (by norm_num) _

/-! ### Rounding to an integer -/

theorem floor_le_nearestEven (q : ℚ) : ⌊q⌋ ≤ nearestEven q := by
  unfold nearestEven
  dsimp only
  split
  · exact le_refl _
  · split
    · omega
    · split <;> omega

theorem nearestEven_le_floor_add_one (q : ℚ) : nearestEven q ≤ ⌊q⌋ + 1 := by
  unfold nearestEven
  dsimp only
  split
  · omega
  · split
    · exact le_refl _
    · split <;> omega

theorem nearestEven_intCast (z : ℤ) : nearestEven z = z := by
  simp [nearestEven]

theorem le_nearestEven {z : ℤ} {q : ℚ} (h : (z : ℚ) ≤ q) : z ≤ nearestEven q :=
  (Int.le_floor.mpr h).trans (floor_le_nearestEven q)

theorem nearestEven_le {z : ℤ} {q : ℚ} (h : q ≤ z) : nearestEven q ≤ z := by
  rcases h.lt_or_eq with below | same
  · -- strictly below an integer the next integer is at most that one
    have : ⌊q⌋ < z := Int.floor_lt.mpr below
    have := nearestEven_le_floor_add_one q
    omega
  · rw [same, nearestEven_intCast]

/-! ### Rounding to a double -/

/-- A multiple of the unit below `q` stays below what `q` is rounded to. -/
theorem multiple_le_rounded {z : ℤ} {q : ℚ} (h : z * ulp q ≤ q) : z * ulp q ≤ rounded q := by
  have below : (z : ℚ) ≤ q / ulp q := (le_div_iff₀ (ulp_pos q)).mpr h
  have : (z : ℚ) ≤ nearestEven (q / ulp q) := by exact_mod_cast le_nearestEven below
  exact mul_le_mul_of_nonneg_right this (ulp_pos q).le

theorem rounded_le_multiple {z : ℤ} {q : ℚ} (h : q ≤ z * ulp q) : rounded q ≤ z * ulp q := by
  have above : q / ulp q ≤ (z : ℚ) := (div_le_iff₀ (ulp_pos q)).mpr h
  have : (nearestEven (q / ulp q) : ℚ) ≤ z := by exact_mod_cast nearestEven_le above
  exact mul_le_mul_of_nonneg_right this (ulp_pos q).le

/-- A power of two on a finer scale is an integer multiple of one on a coarser scale. -/
theorem two_zpow_multiple {e f : ℤ} (h : e ≤ f) : ∃ z : ℤ, (2 : ℚ) ^ f = z * 2 ^ e := by
  refine ⟨2 ^ (f - e).toNat, ?_⟩
  rw [Int.cast_pow, Int.cast_ofNat, ← zpow_natCast, ← zpow_add₀ (by norm_num)]
  congr 1
  omega

theorem Representable.multiple {q : ℚ} (h : Representable q) {e : ℤ} (fine : e ≤ scale q) :
    ∃ z : ℤ, q = z * 2 ^ e := by
  obtain ⟨w, hw⟩ := two_zpow_multiple fine
  refine ⟨⌊q / ulp q⌋ * w, ?_⟩
  rw [Int.cast_mul, mul_assoc, ← hw]
  exact h.1.symm

/-- A multiple of its own unit is representable. -/
theorem representable_of_multiple {q : ℚ} {z : ℤ} (h : q = z * ulp q) (bounded : |q| < overflow) :
    Representable q := by
  refine ⟨?_, bounded⟩
  have : q / ulp q = z := by
    rw [div_eq_iff (ulp_pos q).ne']
    exact h
  rw [this, Int.floor_intCast]
  exact h.symm

theorem abs_lt_scale (q : ℚ) : |q| < 2 ^ (scale q + 53) := by
  have below : |q| < (2 : ℚ) ^ (Int.log 2 |q| + 1) := Int.lt_zpow_succ_log_self one_lt_two _
  refine below.trans_le (zpow_le_zpow_right₀ one_le_two ?_)
  have : Int.log 2 |q| - 52 ≤ scale q := le_max_right _ _
  omega

theorem neg_1074_le_scale (q : ℚ) : -1074 ≤ scale q := le_max_left _ _

theorem scale_le_of_abs_lt {q : ℚ} {e : ℤ} (nonzero : q ≠ 0) (normal : -1074 ≤ e)
    (h : |q| < 2 ^ (e + 53)) : scale q ≤ e := by
  have : Int.log 2 |q| < e + 53 :=
    (Int.lt_zpow_iff_log_lt one_lt_two (abs_pos.mpr nonzero)).mp (by exact_mod_cast h)
  exact max_le normal (by omega)

/-- A number on a finer scale is smaller, with a power of two in between. -/
theorem abs_lt_of_scale_lt {a q : ℚ} (finer : scale a < scale q) (nonzero : q ≠ 0) :
    |a| < ((2 ^ 52 : ℤ) : ℚ) * ulp q ∧ ((2 ^ 52 : ℤ) : ℚ) * ulp q ≤ |q| := by
  have power : ((2 ^ 52 : ℤ) : ℚ) * ulp q = 2 ^ (scale q + 52) := by
    rw [ulp, add_comm, zpow_add₀ (by norm_num)]
    norm_num
  rw [power]
  constructor
  · refine (abs_lt_scale a).trans_le (zpow_le_zpow_right₀ one_le_two ?_)
    omega
  · -- on this scale the unit follows the magnitude
    have normal : Int.log 2 |q| - 52 = scale q := by
      have := neg_1074_le_scale a
      unfold scale at this finer ⊢
      omega
    have : Int.log 2 |q| = scale q + 52 := by omega
    rw [← this]
    exact_mod_cast Int.zpow_log_le_self one_lt_two (abs_pos.mpr nonzero)

theorem rounded_zero : rounded 0 = 0 := by
  rw [rounded, zero_div]
  have : nearestEven 0 = 0 := nearestEven_intCast 0
  rw [this, Int.cast_zero, zero_mul]

/-- Rounding does not cross a double. -/
theorem Representable.le_rounded {a q : ℚ} (ha : Representable a) (h : a ≤ q) :
    a ≤ rounded q := by
  by_cases fine : scale q ≤ scale a
  · obtain ⟨z, hz⟩ := ha.multiple fine
    rw [hz] at h ⊢
    exact multiple_le_rounded h
  · by_cases zero : q = 0
    · rw [zero, rounded_zero]
      exact zero ▸ h
    · obtain ⟨small, large⟩ := abs_lt_of_scale_lt (not_le.mp fine) zero
      rcases lt_or_gt_of_ne zero with negative | positive
      · -- `a` cannot lie below a negative number of larger magnitude
        rw [abs_of_neg negative] at large
        rw [abs_of_neg (h.trans_lt negative)] at small
        linarith
      · rw [abs_of_pos positive] at large
        exact (le_abs_self a).trans (small.le.trans (multiple_le_rounded large))

theorem Representable.rounded_le {a q : ℚ} (ha : Representable a) (h : q ≤ a) :
    rounded q ≤ a := by
  by_cases fine : scale q ≤ scale a
  · obtain ⟨z, hz⟩ := ha.multiple fine
    rw [hz] at h ⊢
    exact rounded_le_multiple h
  · by_cases zero : q = 0
    · rw [zero, rounded_zero]
      exact zero ▸ h
    · obtain ⟨small, large⟩ := abs_lt_of_scale_lt (not_le.mp fine) zero
      rcases lt_or_gt_of_ne zero with negative | positive
      · rw [abs_of_neg negative] at large
        have below : q ≤ ((-2 ^ 52 : ℤ) : ℚ) * ulp q := by
          push_cast at large ⊢
          linarith
        have bound := rounded_le_multiple below
        have := neg_abs_le a
        push_cast at bound small
        linarith
      · rw [abs_of_pos positive] at large
        rw [abs_of_pos (positive.trans_le h)] at small
        linarith

theorem abs_rounded_le (q : ℚ) : |rounded q| ≤ 2 ^ (scale q + 53) := by
  have power : (2 : ℚ) ^ (scale q + 53) = ((2 ^ 53 : ℤ) : ℚ) * ulp q := by
    rw [ulp, add_comm, zpow_add₀ (by norm_num)]
    norm_num
  have bound := abs_lt.mp (abs_lt_scale q)
  rw [power] at bound ⊢
  have below : ((-2 ^ 53 : ℤ) : ℚ) * ulp q ≤ q := by
    push_cast at bound ⊢
    linarith
  have low := multiple_le_rounded below
  have high := rounded_le_multiple bound.2.le
  rw [abs_le]
  push_cast at low high ⊢
  exact ⟨by linarith, high⟩

/-- What rounding yields is a double, unless it overflows. -/
theorem rounded_representable (q : ℚ) (bounded : |rounded q| < overflow) :
    Representable (rounded q) := by
  by_cases zero : rounded q = 0
  · rw [zero] at bounded ⊢
    exact representable_of_multiple (z := 0) (by simp) bounded
  · rcases (abs_rounded_le q).lt_or_eq with below | power
    · -- the unit has not grown, so the multiple is one of the new unit too
      have fine : scale (rounded q) ≤ scale q :=
        scale_le_of_abs_lt zero (neg_1074_le_scale q) below
      obtain ⟨w, hw⟩ := two_zpow_multiple fine
      have unit : ulp q = w * ulp (rounded q) := hw
      refine representable_of_multiple (z := nearestEven (q / ulp q) * w) ?_ bounded
      rw [Int.cast_mul, mul_assoc, ← unit]
      rfl
    · -- the mantissa has overflowed to a power of two
      have fine : scale (rounded q) ≤ scale q + 53 := by
        refine scale_le_of_abs_lt zero (by have := neg_1074_le_scale q; omega) ?_
        rw [power]
        exact zpow_lt_zpow_right₀ one_lt_two (by omega)
      obtain ⟨w, hw⟩ := two_zpow_multiple fine
      rw [← ulp] at hw
      rcases abs_cases (rounded q) with ⟨same, -⟩ | ⟨negated, -⟩
      · refine representable_of_multiple (z := w) ?_ bounded
        rw [← hw, ← power, same]
      · refine representable_of_multiple (z := -w) ?_ bounded
        rw [Int.cast_neg, neg_mul, ← hw, ← power, negated, neg_neg]

theorem Representable.neg {q : ℚ} (h : Representable q) : Representable (-q) := by
  have unit : ulp (-q) = ulp q := by rw [ulp, ulp, scale, scale, abs_neg]
  refine representable_of_multiple (z := -⌊q / ulp q⌋) ?_ (by rw [abs_neg]; exact h.2)
  rw [unit, Int.cast_neg, neg_mul, h.1]

/-! ### Numbers -/

/-- A finite double. -/
structure Double where
  val : ℚ
  representable : Representable val
  deriving DecidableEq

def Double.neg (x : Double) : Double := ⟨-x.val, x.representable.neg⟩

inductive Number
  | nan
  | infinity (negative : Bool)
  | finite (x : Double)
  deriving DecidableEq

theorem representable_intCast {z : ℤ} (small : |z| ≤ 2 ^ 53) : Representable z := by
  by_cases zero : z = 0
  · subst zero
    exact representable_of_multiple (z := 0) (by simp) (by simp [overflow])
  · have nonzero : (z : ℚ) ≠ 0 := by exact_mod_cast zero
    have bound : |(z : ℚ)| ≤ 2 ^ 53 := by exact_mod_cast small
    have bounded : |(z : ℚ)| < overflow := 
      bound.trans_lt (pow_lt_pow_right₀ one_lt_two (by norm_num))
    -- the largest of these has one digit more, but it is even
    rcases bound.lt_or_eq with below | power
    · have fine : scale (z : ℚ) ≤ 0 :=
        scale_le_of_abs_lt nonzero (by decide) (below.trans_eq (by norm_num))
      obtain ⟨w, hw⟩ := two_zpow_multiple fine
      have unit : 1 = w * ulp (z : ℚ) := by
        rw [← zpow_zero (2 : ℚ)]
        exact hw
      refine representable_of_multiple (z := z * w) ?_ bounded
      rw [Int.cast_mul, mul_assoc, ← unit, mul_one]
    · have fine : scale (z : ℚ) ≤ 1 := by
        refine scale_le_of_abs_lt nonzero (by decide) ?_
        rw [power]
        norm_num
      obtain ⟨w, hw⟩ := two_zpow_multiple fine
      have unit : 2 = w * ulp (z : ℚ) := by
        rw [← zpow_one (2 : ℚ)]
        exact hw
      have half : |z| = 2 ^ 53 := by exact_mod_cast power
      refine representable_of_multiple (z := z / 2 * w) ?_ bounded
      rw [Int.cast_mul, mul_assoc, ← unit]
      have : z / 2 * 2 = z := by
        rcases abs_eq (by norm_num) |>.mp half with rfl | rfl <;> rfl
      exact_mod_cast this.symm

/-- Rounding towards zero. -/
def truncated (q : ℚ) : ℤ := if 0 ≤ q then ⌊q⌋ else ⌈q⌉

theorem truncated_intCast (z : ℤ) : truncated z = z := by
  unfold truncated
  split <;> simp

theorem abs_truncated_le (q : ℚ) : |(truncated q : ℚ)| ≤ |q| := by
  unfold truncated
  split
  next nonneg =>
    rw [abs_of_nonneg nonneg, abs_of_nonneg (by exact_mod_cast Int.floor_nonneg.mpr nonneg)]
    exact Int.floor_le q
  next negative =>
    have negative := not_le.mp negative
    rw [abs_of_neg negative, abs_of_nonpos (by exact_mod_cast Int.ceil_nonpos.mpr negative.le)]
    exact neg_le_neg (Int.le_ceil q)

theorem truncated_representable {q : ℚ} (h : Representable q) : Representable (truncated q) := by
  by_cases coarse : 0 ≤ scale q
  · -- a double this large is an integer
    obtain ⟨z, hz⟩ := h.multiple coarse
    rw [zpow_zero, mul_one] at hz
    rw [hz, truncated_intCast, ← hz]
    exact h
  · have small : |q| < 2 ^ 53 := by
      refine (abs_lt_scale q).trans_le ?_
      rw [← zpow_natCast]
      exact zpow_le_zpow_right₀ one_le_two (by push_cast; omega)
    have : |(truncated q : ℚ)| ≤ 2 ^ 53 := (abs_truncated_le q).trans small.le
    exact representable_intCast (by exact_mod_cast this)

namespace Number

/-- The number that an exact result becomes. -/
def ofRat (q : ℚ) : Number :=
  if h : |rounded q| < overflow then finite ⟨rounded q, rounded_representable q h⟩
  else infinity (q < 0)

/-- An integer literal of moderate size. -/
def ofInt (z : ℤ) (small : |z| ≤ 2 ^ 53) : Number := finite ⟨z, representable_intCast small⟩

/-- `Number.isFinite`. -/
def isFinite : Number → Bool
  | finite _ => true
  | _ => false

/-- `x < y`, which is false as soon as one of the two is no number. -/
def lt : Number → Number → Bool
  | finite x, finite y => x.val < y.val
  | infinity true, finite _ | finite _, infinity false | infinity true, infinity false => true
  | _, _ => false

/-- `x <= y`. -/
def le : Number → Number → Bool
  | finite x, finite y => x.val ≤ y.val
  | infinity true, finite _ | finite _, infinity false | infinity _, infinity false
  | infinity true, infinity true => true
  | _, _ => false

/-- `Math.trunc`. -/
def trunc : Number → Number
  | finite x => finite ⟨truncated x.val, truncated_representable x.representable⟩
  | x => x

/-- `BigInt(x)`, which throws for everything but integers. -/
def toBigInt : Number → Option ℤ
  | finite x => if (⌊x.val⌋ : ℚ) = x.val then some ⌊x.val⌋ else none
  | _ => none

/-- `Number(n)` of a `BigInt`. -/
def ofBigInt (n : ℤ) : Number := ofRat n

theorem toBigInt_some {x : Number} {n : ℤ} :
    x.toBigInt = some n ↔ ∃ d, x = finite d ∧ d.val = n := by
  cases x with
  | nan | infinity => simp [toBigInt]
  | finite d =>
    simp only [toBigInt, finite.injEq, exists_eq_left', Option.ite_none_right_eq_some,
      Option.some.injEq]
    constructor
    · rintro ⟨integral, rfl⟩
      exact integral.symm
    · intro same
      rw [same, Int.floor_intCast]
      exact ⟨rfl, rfl⟩

theorem trunc_toBigInt (d : Double) : (trunc (finite d)).toBigInt = some (truncated d.val) :=
  toBigInt_some.mpr ⟨_, rfl, rfl⟩

/-- An integer of moderate size is a number as it is. -/
theorem ofRat_intCast {z : ℤ} (small : |z| ≤ 2 ^ 53) : ofRat z = ofInt z small := by
  have representable := representable_intCast small
  have exact : rounded z = z :=
    le_antisymm (representable.rounded_le le_rfl) (representable.le_rounded le_rfl)
  unfold ofRat
  rw [dif_pos (by rw [exact]; exact representable.2)]
  simp only [exact, ofInt]

theorem ofRat_zero : ∃ h, ofRat 0 = finite ⟨0, h⟩ := by
  have zero : ofRat ((0 : ℤ) : ℚ) = ofInt 0 (by norm_num) := ofRat_intCast (by norm_num)
  exact ⟨by simpa using representable_intCast (z := 0) (by norm_num), by simpa [ofInt] using zero⟩

theorem zero_le_finite (d : Double) : (ofRat 0).le (finite d) = decide (0 ≤ d.val) := by
  obtain ⟨h, zero⟩ := ofRat_zero
  rw [zero]
  rfl

theorem finite_le_zero (d : Double) : (finite d).le (ofRat 0) = decide (d.val ≤ 0) := by
  obtain ⟨h, zero⟩ := ofRat_zero
  rw [zero]
  rfl

/-- A large integer that stands below a double is still below it as a number. -/
theorem lt_of_ofBigInt_lt {n : ℤ} {d : Double} (h : lt (ofBigInt n) (finite d) = true) :
    (n : ℚ) < d.val := by
  by_contra above
  have kept := d.representable.le_rounded (not_lt.mp above)
  unfold ofBigInt ofRat at h
  split at h
  · simp only [lt, decide_eq_true_eq] at h
    exact absurd h (not_lt.mpr kept)
  next large =>
    -- only a negative integer overflows to minus infinity
    cases sign : decide ((n : ℚ) < 0) with
    | false =>
      rw [sign] at h
      cases h
    | true =>
      have negative : (n : ℚ) ≤ 0 := (of_decide_eq_true sign).le
      have zero : Representable ((0 : ℤ) : ℚ) := representable_intCast (by norm_num)
      have nonpos : rounded n ≤ 0 := (zero.rounded_le (by simpa using negative)).trans_eq (by simp)
      rw [not_lt, abs_of_nonpos nonpos] at large
      have bounded := (abs_lt.mp d.representable.2).1
      linarith

end Number

end Js
