import Mirror.Js.Arithmetic

/-! Rounding keeps the order of what is rounded, and so do the operations on numbers: a sum, a
product or a clamped number never falls where what it is made of does not. -/
namespace Js

/-! ### Rounding -/

theorem nearestEven_mono {p q : ℚ} (h : p ≤ q) : nearestEven p ≤ nearestEven q := by
  have floors : ⌊p⌋ ≤ ⌊q⌋ := Int.floor_mono h
  have above := nearestEven_le_floor_add_one p
  rcases floors.lt_or_eq with apart | same
  · have := floor_le_nearestEven q
    omega
  -- over the same integer the larger one has the larger rest
  · rcases lt_or_ge (p - ⌊p⌋) (1 / 2) with low | high
    · have down : nearestEven p = ⌊p⌋ := by simp only [nearestEven, if_pos low]
      rw [down, same]
      exact floor_le_nearestEven q
    · rcases h.eq_or_lt with equal | less
      · rw [equal]
      · have half : 1 / 2 < q - ⌊q⌋ := by
          rw [← same]
          exact high.trans_lt (sub_lt_sub_right less _)
        have up : nearestEven q = ⌊q⌋ + 1 := by
          simp only [nearestEven, if_neg half.not_gt, if_pos half]
        rwa [up, ← same]

/-- A multiple of the unit of a coarser scale is not crossed either. -/
theorem rounded_le_coarse {p : ℚ} {z e : ℤ} (coarse : scale p ≤ e) (h : p ≤ z * 2 ^ e) :
    rounded p ≤ z * 2 ^ e := by
  obtain ⟨w, hw⟩ := two_zpow_multiple coarse
  have multiple : (z : ℚ) * 2 ^ e = (z * w : ℤ) * ulp p := by
    rw [hw, Int.cast_mul, mul_assoc]
    rfl
  rw [multiple] at h ⊢
  exact rounded_le_multiple h

theorem coarse_le_rounded {p : ℚ} {z e : ℤ} (coarse : scale p ≤ e) (h : z * 2 ^ e ≤ p) :
    z * 2 ^ e ≤ rounded p := by
  obtain ⟨w, hw⟩ := two_zpow_multiple coarse
  have multiple : (z : ℚ) * 2 ^ e = (z * w : ℤ) * ulp p := by
    rw [hw, Int.cast_mul, mul_assoc]
    rfl
  rw [multiple] at h ⊢
  exact multiple_le_rounded h

theorem representable_zero : Representable 0 :=
  representable_of_multiple (z := 0) (by simp) (by simp [overflow])

theorem rounded_mono {p q : ℚ} (h : p ≤ q) : rounded p ≤ rounded q := by
  rcases lt_trichotomy (scale p) (scale q) with finer | same | coarser
  · by_cases zero : q = 0
    · rw [zero, rounded_zero]
      exact representable_zero.rounded_le (zero ▸ h)
    -- a power of two lies between the two, which both are rounded to this side of
    · obtain ⟨small, large⟩ := abs_lt_of_scale_lt finer zero
      have positive : 0 < q := by
        by_contra negative
        rw [abs_of_nonpos (not_lt.mp negative)] at large
        rw [abs_of_nonpos (h.trans (not_lt.mp negative))] at small
        linarith
      rw [abs_of_pos positive] at large
      exact (rounded_le_coarse finer.le ((le_abs_self p).trans small.le)).trans
        (multiple_le_rounded large)
  -- on one scale both are rounded to multiples of the same unit
  · have unit : ulp p = ulp q := by rw [ulp, same, ulp]
    rw [rounded, rounded, unit]
    refine mul_le_mul_of_nonneg_right ?_ (ulp_pos q).le
    exact_mod_cast nearestEven_mono (div_le_div_of_nonneg_right h (ulp_pos q).le)
  · by_cases zero : p = 0
    · rw [zero, rounded_zero]
      exact representable_zero.le_rounded (zero ▸ h)
    · obtain ⟨small, large⟩ := abs_lt_of_scale_lt coarser zero
      have negative : p < 0 := by
        by_contra positive
        rw [abs_of_nonneg (not_lt.mp positive)] at large
        rw [abs_of_nonneg ((not_lt.mp positive).trans h)] at small
        linarith
      rw [abs_of_neg negative] at large
      have below : p ≤ ((-2 ^ 52 : ℤ) : ℚ) * ulp p := by
        push_cast at large ⊢
        linarith
      have above : ((-2 ^ 52 : ℤ) : ℚ) * ulp p ≤ q := by
        have := neg_abs_le q
        push_cast at small ⊢
        linarith
      exact (rounded_le_multiple below).trans (coarse_le_rounded coarser.le above)

namespace Number

/-! ### The order -/

/-- Where a number stands; `NaN` stands anywhere. -/
def place : Number → WithBot (WithTop ℚ)
  | finite d => ((d.val : WithTop ℚ) : WithBot (WithTop ℚ))
  | infinity false => ((⊤ : WithTop ℚ) : WithBot (WithTop ℚ))
  | infinity true | nan => ⊥

theorem finite_le {x y : Double} : (finite x).le (finite y) = true ↔ x.val ≤ y.val :=
  decide_eq_true_iff

/-- What a comparison says of two numbers that stand somewhere. -/
theorem known_iff {x y : Number} {P Q : Prop} (hx : x ≠ nan) (hy : y ≠ nan) (h : P ↔ Q) :
    P ↔ x ≠ nan ∧ y ≠ nan ∧ Q :=
  h.trans ⟨fun q => ⟨hx, hy, q⟩, fun q => q.2.2⟩

theorem le_iff {x y : Number} : x.le y = true ↔ x ≠ nan ∧ y ≠ nan ∧ x.place ≤ y.place := by
  -- the cases are those of the comparison, which says nothing of `NaN`
  cases x with
  | nan => exact iff_of_false (by cases y <;> exact Bool.false_ne_true) fun h => h.1 rfl
  | infinity s =>
    cases y with
    | nan => cases s <;> exact iff_of_false Bool.false_ne_true fun h => h.2.1 rfl
    | infinity t =>
      refine known_iff (infinity_ne_nan s) (infinity_ne_nan t) ?_
      cases s with
      | true => cases t <;> exact iff_of_true rfl bot_le
      | false =>
        cases t with
        | true => exact iff_of_false Bool.false_ne_true (WithBot.not_coe_le_bot _)
        | false => exact iff_of_true rfl le_rfl
    | finite e =>
      refine known_iff (infinity_ne_nan s) (finite_ne_nan e) ?_
      cases s with
      | true => exact iff_of_true rfl bot_le
      | false =>
        exact iff_of_false Bool.false_ne_true
          (not_le.mpr (WithBot.coe_lt_coe.mpr (WithTop.coe_lt_top e.val)))
  | finite d =>
    cases y with
    | nan => exact iff_of_false Bool.false_ne_true fun h => h.2.1 rfl
    | infinity t =>
      refine known_iff (finite_ne_nan d) (infinity_ne_nan t) ?_
      cases t with
      | true => exact iff_of_false Bool.false_ne_true (WithBot.not_coe_le_bot _)
      | false => exact iff_of_true rfl le_top
    | finite e =>
      exact known_iff (finite_ne_nan d) (finite_ne_nan e)
        (finite_le.trans (WithBot.coe_le_coe.trans WithTop.coe_le_coe).symm)

/-- Of two numbers one comes before the other exactly where the other is not up to it. -/
theorem lt_eq_not_le {x y : Number} (hx : x ≠ nan) (hy : y ≠ nan) : x.lt y = !y.le x := by
  cases x with
  | nan => exact absurd rfl hx
  | infinity s =>
    cases y with
    | nan => exact absurd rfl hy
    | infinity t => cases s <;> cases t <;> rfl
    | finite e => cases s <;> rfl
  | finite d =>
    cases y with
    | nan => exact absurd rfl hy
    | infinity t => cases t <;> rfl
    | finite e => exact (decide_eq_decide.mpr not_le.symm).trans decide_not

theorem lt_iff {x y : Number} : x.lt y = true ↔ x ≠ nan ∧ y ≠ nan ∧ x.place < y.place := by
  by_cases hx : x = nan
  · rw [hx]
    exact iff_of_false (by cases y <;> exact Bool.false_ne_true) fun h => h.1 rfl
  · by_cases hy : y = nan
    · rw [hy]
      exact iff_of_false (by rcases x with _ | (_ | _) | _ <;> exact Bool.false_ne_true)
        fun h => h.2.1 rfl
    · have stands : y.le x = true ↔ y.place ≤ x.place :=
        le_iff.trans ⟨fun h => h.2.2, fun h => ⟨hy, hx, h⟩⟩
      -- of two numbers the order is total
      refine known_iff hx hy ?_
      rw [lt_eq_not_le hx hy, Bool.not_eq_true', Bool.eq_false_iff, ne_eq, stands, not_le]

/-- What stands in a comparison that holds is a number. -/
theorem ne_nan_of_le {x y : Number} (h : x.le y = true) : x ≠ nan ∧ y ≠ nan :=
  ⟨(le_iff.mp h).1, (le_iff.mp h).2.1⟩

theorem le_self {x : Number} (h : x ≠ nan) : x.le x = true := le_iff.mpr ⟨h, h, le_rfl⟩

theorem le_of_le_of_le {x y z : Number} (h : x.le y = true) (h' : y.le z = true) :
    x.le z = true :=
  le_iff.mpr ⟨(ne_nan_of_le h).1, (ne_nan_of_le h').2,
    (le_iff.mp h).2.2.trans (le_iff.mp h').2.2⟩

theorem lt_of_lt_of_le' {x y z : Number} (h : x.lt y = true) (h' : y.le z = true) :
    x.lt z = true :=
  lt_iff.mpr ⟨(lt_iff.mp h).1, (ne_nan_of_le h').2, (lt_iff.mp h).2.2.trans_le (le_iff.mp h').2.2⟩

theorem le_of_lt' {x y : Number} (h : x.lt y = true) : x.le y = true :=
  le_iff.mpr ⟨(lt_iff.mp h).1, (lt_iff.mp h).2.1, (lt_iff.mp h).2.2.le⟩

/-- Of two numbers that are not ordered one way the other way holds. -/
theorem le_of_not_lt {x y : Number} (hx : x ≠ nan) (hy : y ≠ nan) (h : x.lt y = false) :
    y.le x = true := by
  refine le_iff.mpr ⟨hy, hx, not_lt.mp fun before => ?_⟩
  rw [lt_iff.mpr ⟨hx, hy, before⟩] at h
  cases h

theorem least_le {x : Number} (h : x ≠ nan) : (infinity true).le x = true :=
  le_iff.mpr ⟨nofun, h, bot_le⟩

theorem le_largest {x : Number} (h : x ≠ nan) : x.le (infinity false) = true :=
  le_iff.mpr ⟨h, nofun, le_top⟩

theorem ofRat_le {p q : ℚ} (h : p ≤ q) : (ofRat p).le (ofRat q) = true := by
  have order := rounded_mono h
  by_cases low : |rounded p| < overflow
  · by_cases high : |rounded q| < overflow
    · rw [ofRat, dif_pos low, ofRat, dif_pos high]
      exact finite_le.mpr order
    -- what overflows above a double does so upwards
    · have positive : ¬q < 0 := by
        intro negative
        rw [abs_of_nonpos (representable_zero.rounded_le negative.le)] at high
        have := (abs_lt.mp low).1
        linarith
      rw [ofRat, dif_pos low, ofRat, dif_neg high, decide_eq_false positive]
      rfl
  · by_cases negative : p < 0
    · rw [ofRat, dif_neg low, decide_eq_true negative]
      exact least_le (ofRat_ne_nan q)
    · have positive := not_lt.mp negative
      rw [abs_of_nonneg (representable_zero.le_rounded positive)] at low
      have high : ¬|rounded q| < overflow := fun small => low
        ((order.trans (le_abs_self _)).trans_lt small)
      have most : ofRat q = infinity false := by
        rw [ofRat, dif_neg high, decide_eq_false (not_lt.mpr (positive.trans h))]
      rw [most]
      exact le_largest (ofRat_ne_nan p)

/-! ### Operations -/

/-- Between the infinities only doubles are ordered. -/
theorem exists_finite_of_le {x y : Number} (h : x.le y = true) (least : x ≠ infinity true)
    (largest : y ≠ infinity false) :
    ∃ a b : Double, x = finite a ∧ y = finite b ∧ a.val ≤ b.val := by
  obtain ⟨hx, hy⟩ := ne_nan_of_le h
  rcases x with _ | (_ | _) | a
  · exact absurd rfl hx
  · rcases y with _ | (_ | _) | b
    · exact absurd rfl hy
    · exact absurd rfl largest
    · cases h
    · cases h
  · exact absurd rfl least
  · rcases y with _ | (_ | _) | b
    · exact absurd rfl hy
    · exact absurd rfl largest
    · cases h
    · exact ⟨a, b, rfl, rfl, finite_le.mp h⟩

theorem neg_ne_nan {x : Number} (h : x ≠ nan) : x.neg ≠ nan := by
  cases x with
  | nan => exact absurd rfl h
  | infinity negative => exact infinity_ne_nan _
  | finite d => exact finite_ne_nan _

theorem neg_antitone {x y : Number} (h : x.le y = true) : y.neg.le x.neg = true := by
  obtain ⟨hx, hy⟩ := ne_nan_of_le h
  by_cases least : x = infinity true
  · rw [least]
    exact le_largest (neg_ne_nan hy)
  · by_cases largest : y = infinity false
    · rw [largest]
      exact least_le (neg_ne_nan hx)
    · obtain ⟨a, b, rfl, rfl, less⟩ := exists_finite_of_le h least largest
      exact finite_le.mpr (neg_le_neg less)

theorem isNonneg_iff {x : Number} : x.IsNonneg ↔ zero.le x = true := by
  cases x with
  | nan => exact iff_of_false id Bool.false_ne_true
  | infinity negative =>
    cases negative with
    | true => exact iff_of_false Bool.noConfusion Bool.false_ne_true
    | false => exact iff_of_true rfl rfl
  | finite d =>
    have origin : zero.le (finite d) = true ↔ ((0 : ℤ) : ℚ) ≤ d.val := decide_eq_true_iff
    rw [Int.cast_zero] at origin
    exact origin.symm

theorem IsNonneg.of_le {x y : Number} (hx : x.IsNonneg) (h : x.le y = true) : y.IsNonneg :=
  isNonneg_iff.mpr (le_of_le_of_le (isNonneg_iff.mp hx) h)

/-- What keeps the infinities and the order of the doubles keeps the order. -/
theorem mono_of_finite {f : Number → Number}
    (infinite : ∀ negative, f (infinity negative) = infinity negative)
    (known : ∀ d, f (finite d) ≠ nan)
    (order : ∀ a b : Double, a.val ≤ b.val → (f (finite a)).le (f (finite b)) = true)
    {x y : Number} (h : x.le y = true) : (f x).le (f y) = true := by
  have number {z : Number} (hz : z ≠ nan) : f z ≠ nan := by
    cases z with
    | nan => exact absurd rfl hz
    | infinity negative =>
      rw [infinite]
      exact infinity_ne_nan negative
    | finite d => exact known d
  obtain ⟨hx, hy⟩ := ne_nan_of_le h
  by_cases least : x = infinity true
  · rw [least, infinite]
    exact least_le (number hy)
  · by_cases largest : y = infinity false
    · rw [largest, infinite]
      exact le_largest (number hx)
    · obtain ⟨a, b, rfl, rfl, less⟩ := exists_finite_of_le h least largest
      exact order a b less

theorem add_left_mono (d : Double) {x y : Number} (h : x.le y = true) :
    ((finite d).add x).le ((finite d).add y) = true :=
  mono_of_finite (fun _ => rfl) (fun _ => ofRat_ne_nan _)
    (fun _ _ less => ofRat_le (by linarith)) h

theorem add_right_mono (d : Double) {x y : Number} (h : x.le y = true) :
    (x.add (finite d)).le (y.add (finite d)) = true :=
  mono_of_finite (f := fun z => z.add (finite d)) (fun _ => rfl) (fun _ => ofRat_ne_nan _)
    (fun _ _ less => ofRat_le (by linarith)) h

theorem IsNonneg.isFinite_of_le {x : Number} {d : Double} (hx : x.IsNonneg)
    (h : x.le (finite d) = true) : x.isFinite = true := by
  rcases x with _ | (_ | _) | _
  · exact absurd h Bool.false_ne_true
  · exact absurd h Bool.false_ne_true
  · exact absurd hx Bool.noConfusion
  · rfl

theorem IsNonneg.largest_add {x : Number} (hx : x.IsNonneg) :
    (infinity false).add x = infinity false ∧ x.add (infinity false) = infinity false := by
  cases x with
  | nan => exact hx.elim
  | infinity negative =>
    have positive : negative = false := hx
    rw [positive]
    exact ⟨rfl, rfl⟩
  | finite d => exact ⟨rfl, rfl⟩

/-- Numbers that are at least zero can always be added. -/
theorem IsNonneg.add_mono {x x' y y' : Number} (hx : x.IsNonneg) (hy : y.IsNonneg)
    (h : x.le x' = true) (h' : y.le y' = true) : (x.add y).le (x'.add y') = true := by
  have hx' := hx.of_le h
  have hy' := hy.of_le h'
  have known : x.add y ≠ nan := (hx.add hy).ne_nan
  cases x' with
  | nan => exact hx'.elim
  | infinity negative =>
    have positive : negative = false := hx'
    rw [positive, hy'.largest_add.1]
    exact le_largest known
  | finite d' =>
    cases y' with
    | nan => exact hy'.elim
    | infinity negative =>
      have positive : negative = false := hy'
      rw [positive, hx'.largest_add.2]
      exact le_largest known
    | finite e' =>
      -- what is below a double is one
      have finite_x := hx.isFinite_of_le h
      have finite_y := hy.isFinite_of_le h'
      cases x with
      | nan | infinity => cases finite_x
      | finite d =>
        cases y with
        | nan | infinity => cases finite_y
        | finite e => exact ofRat_le (add_le_add (finite_le.mp h) (finite_le.mp h'))

/-- Scaling by a positive double keeps the order. -/
theorem mul_mono {d : Double} (positive : 0 < d.val) {x y : Number} (h : x.le y = true) :
    ((finite d).mul x).le ((finite d).mul y) = true := by
  refine mono_of_finite (fun negative => ?_) (fun e => ofRat_ne_nan _) (fun a b less => ?_) h
  · have scaled : (finite d).mul (infinity negative) =
        if d.val = 0 then nan else infinity (negative != decide (d.val < 0)) := rfl
    rw [scaled, if_neg positive.ne', decide_eq_false positive.not_gt, Bool.bne_false]
  · exact ofRat_le (mul_le_mul_of_nonneg_left less positive.le)

/-- Dividing by a positive double keeps the order. -/
theorem div_mono {d : Double} (positive : 0 < d.val) {x y : Number} (h : x.le y = true) :
    (x.div (finite d)).le (y.div (finite d)) = true := by
  refine mono_of_finite (f := fun z => z.div (finite d)) (fun negative => ?_)
    (fun e => div_ne_nan (finite_ne_nan e) positive.ne') (fun a b less => ?_) h
  · have divided : (infinity negative).div (finite d) =
        infinity (negative != decide (d.val < 0)) := rfl
    rw [divided, decide_eq_false positive.not_gt, Bool.bne_false]
  · have divided (e : Double) : (finite e).div (finite d) = ofRat (e.val / d.val) :=
      if_pos positive.ne'
    rw [divided, divided]
    exact ofRat_le (div_le_div_of_nonneg_right less positive.le)

theorem round_mono {x y : Number} (h : x.le y = true) : x.round.le y.round = true :=
  mono_of_finite (fun _ => rfl) (fun _ => finite_ne_nan _)
    (fun a b less => finite_le.mpr (Int.cast_le.mpr (Int.floor_mono (by linarith)))) h

theorem max_mono {c x y : Number} (number : c ≠ nan) (h : x.le y = true) :
    (c.max x).le (c.max y) = true := by
  obtain ⟨hx, hy⟩ := ne_nan_of_le h
  have chosen {z : Number} (hz : z ≠ nan) : c.max z = if c.lt z then z else c :=
    if_neg (not_or.mpr ⟨number, hz⟩)
  rw [chosen hx, chosen hy]
  cases below : c.lt x with
  | true =>
    rw [lt_of_lt_of_le' below h]
    exact h
  | false =>
    cases above : c.lt y with
    -- what replaces the bound is above it
    | true => exact le_of_lt' above
    | false => exact le_self number

theorem min_mono {c x y : Number} (number : c ≠ nan) (h : x.le y = true) :
    (c.min x).le (c.min y) = true := by
  obtain ⟨hx, hy⟩ := ne_nan_of_le h
  have chosen {z : Number} (hz : z ≠ nan) : c.min z = if c.lt z then c else z :=
    if_neg (not_or.mpr ⟨number, hz⟩)
  rw [chosen hx, chosen hy]
  cases above : c.lt x with
  | true =>
    rw [lt_of_lt_of_le' above h]
    exact le_self number
  | false =>
    cases c.lt y with
    | true => exact le_of_not_lt number hx above
    | false => exact h

theorem clamp_mono {lo hi x y : Number} (low : lo ≠ nan) (high : hi ≠ nan) (h : x.le y = true) :
    (clamp lo hi x).le (clamp lo hi y) = true :=
  max_mono low (min_mono high h)

theorem ofLength_le {m n : ℕ} (h : m ≤ n) : (ofLength m).le (ofLength n) = true :=
  finite_le.mpr (Int.cast_le.mpr (by exact_mod_cast min_le_min_right (2 ^ 53) h))

end Number

end Js
