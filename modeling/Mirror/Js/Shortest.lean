import Mirror.Js.Decimal
import Mirror.Js.Numeral
import Mathlib.Tactic.NormNum

/-!
The shortest decimal of a double, as `Number::toString` writes it, is read back as the double.
-/
namespace Js

/-! ### Seventeen digits -/

theorem nearestEven_of_near {z : ℤ} {q : ℚ} (low : (z : ℚ) - 1 / 2 < q) (high : q < z + 1 / 2) :
    nearestEven q = z := by
  rcases le_or_gt (z : ℚ) q with above | below
  · have floor : ⌊q⌋ = z := Int.floor_eq_iff.mpr ⟨above, by linarith⟩
    simp only [nearestEven, floor]
    rw [if_pos (by linarith)]
  · have floor : ⌊q⌋ = z - 1 :=
      Int.floor_eq_iff.mpr ⟨by push_cast; linarith, by push_cast; linarith⟩
    simp only [nearestEven, floor]
    rw [if_neg (by push_cast; linarith), if_pos (by push_cast; linarith)]
    omega

/-- On the scale of a double, what lies within half a unit of it is rounded to it. -/
theorem rounded_of_near {v q : ℚ} (hv : Representable v) (same : scale q = scale v)
    (low : v - ulp v / 2 < q) (high : q < v + ulp v / 2) : rounded q = v := by
  have unit := ulp_pos v
  have units : ulp q = ulp v := by rw [ulp, ulp, same]
  have multiple : (⌊v / ulp v⌋ : ℚ) * ulp v = v := hv.1
  have near : nearestEven (q / ulp v) = ⌊v / ulp v⌋ := by
    refine nearestEven_of_near ?_ ?_
    · rw [lt_div_iff₀ unit]
      linarith
    · rw [div_lt_iff₀ unit]
      linarith
  rw [rounded, units, near, multiple]

theorem scale_mono {p q : ℚ} (positive : 0 < p) (h : p ≤ q) : scale p ≤ scale q := by
  have logs : Int.log 2 |p| ≤ Int.log 2 |q| := by
    rw [abs_of_pos positive, abs_of_pos (positive.trans_le h)]
    exact Int.log_mono_right positive h
  unfold scale
  omega

/-- Of two neighbours in steps of at most `10⁻¹⁶` of a double, one is rounded to it. -/
theorem rounded_neighbour {v unit a : ℚ} (hv : Representable v) (positive : 0 < a)
    (fine : unit * 10 ^ 16 ≤ v) (below : a ≤ v) (above : v < a + unit) :
    rounded a = v ∨ rounded (a + unit) = v := by
  have one := ulp_pos v
  have vpos : 0 < v := positive.trans_le below
  have power : (2 : ℚ) ^ (scale v + 53) = 2 ^ 53 * ulp v := by
    rw [ulp, add_comm, zpow_add₀ (by norm_num)]
    norm_num
  have bounded : v < 2 ^ 53 * ulp v := by
    have magnitude := abs_lt_scale v
    rwa [power, abs_of_pos vpos] at magnitude
  -- the double itself is at most the last multiple of the unit in its binade
  have last : v ≤ (2 ^ 53 - 1) * ulp v := by
    obtain ⟨m, multiple⟩ : ∃ m : ℤ, m * ulp v = v := ⟨_, hv.1⟩
    have small : (m : ℚ) < ((2 ^ 53 : ℤ) : ℚ) := by
      push_cast
      exact lt_of_mul_lt_mul_right (multiple.trans_lt bounded) one.le
    have whole : m ≤ 2 ^ 53 - 1 := Int.le_sub_one_of_lt (Int.cast_lt.mp small)
    have whole' : (m : ℚ) ≤ 2 ^ 53 - 1 := by exact_mod_cast whole
    calc v = m * ulp v := multiple.symm
      _ ≤ (2 ^ 53 - 1) * ulp v := mul_le_mul_of_nonneg_right whole' one.le
  rcases lt_or_ge (a + unit) (v + ulp v / 2) with near | far
  · right
    have larger : v ≤ a + unit := above.le
    refine rounded_of_near hv (le_antisymm ?_ (scale_mono vpos larger)) (by linarith) near
    refine scale_le_of_abs_lt (vpos.trans_le larger).ne' (neg_1074_le_scale v) ?_
    rw [abs_of_pos (vpos.trans_le larger), power]
    linarith
  · left
    -- a step of half a unit and more: the double lies in the upper part of its binade
    have high : (2 ^ 52 + 1) * ulp v < v := by linarith
    have close : v - ulp v / 2 < a := by linarith
    refine rounded_of_near hv (le_antisymm (scale_mono positive below) (not_lt.mp fun finer => ?_))
      close (by linarith)
    have small := (abs_lt_of_scale_lt finer vpos.ne').1
    rw [abs_of_pos positive] at small
    push_cast at small
    linarith

theorem ofRat_of_rounded {q : ℚ} {x : Double} (same : rounded q = x.val) :
    Number.ofRat q = .finite x := by
  unfold Number.ofRat
  rw [dif_pos (by rw [same]; exact x.representable.2)]
  congr 1
  cases x
  congr

/-! ### Decimals of some length -/

section

variable {x : Double} (positive : 0 < x.val)
include positive

/-- The magnitude in units of the `k`-th digit. -/
theorem units_bounds {k : ℕ} (some : 0 < k) :
    (10 : ℚ) ^ (k - 1) ≤ x.val / 10 ^ (Int.log 10 x.val + 1 - k) ∧
      x.val / 10 ^ (Int.log 10 x.val + 1 - k) < 10 ^ k := by
  have ten : (0 : ℚ) < 10 ^ (Int.log 10 x.val + 1 - k) := zpow_pos (by norm_num) _
  have low : (10 : ℚ) ^ Int.log 10 x.val ≤ x.val := by
    exact_mod_cast Int.zpow_log_le_self (b := 10) (by norm_num) positive
  have high : x.val < (10 : ℚ) ^ (Int.log 10 x.val + 1) := by
    exact_mod_cast Int.lt_zpow_succ_log_self (b := 10) (by norm_num) x.val
  rw [le_div_iff₀ ten, div_lt_iff₀ ten]
  have first : (10 : ℚ) ^ (k - 1) * 10 ^ (Int.log 10 x.val + 1 - k) = 10 ^ Int.log 10 x.val := by
    rw [← zpow_natCast, ← zpow_add₀ (by norm_num)]
    congr 1
    omega
  have last : (10 : ℚ) ^ k * 10 ^ (Int.log 10 x.val + 1 - k) = 10 ^ (Int.log 10 x.val + 1) := by
    rw [← zpow_natCast, ← zpow_add₀ (by norm_num)]
    congr 1
    omega
  rw [first, last]
  exact ⟨low, high⟩

/-- The two candidates of `k` digits, of which the upper one may have one digit more. -/
theorem candidates {k : ℕ} (some : 0 < k) :
    let unit : ℚ := 10 ^ (Int.log 10 x.val + 1 - k)
    let below := ⌊x.val / unit⌋.toNat
    10 ^ (k - 1) ≤ below ∧ below < 10 ^ k ∧ below * unit ≤ x.val ∧
      x.val < below * unit + unit := by
  intro unit below
  obtain ⟨low, high⟩ := units_bounds positive some
  have ten : 0 < unit := zpow_pos (by norm_num) _
  have floor : (below : ℤ) = ⌊x.val / unit⌋ :=
    Int.toNat_of_nonneg (Int.floor_nonneg.mpr (div_pos positive ten).le)
  have whole : (below : ℚ) = (⌊x.val / unit⌋ : ℚ) := by exact_mod_cast floor
  refine ⟨?_, ?_, ?_, ?_⟩
  · have : ((10 ^ (k - 1) : ℕ) : ℤ) ≤ ⌊x.val / unit⌋ := Int.le_floor.mpr (by push_cast; exact low)
    exact_mod_cast floor ▸ this
  · have : ⌊x.val / unit⌋ < ((10 ^ k : ℕ) : ℤ) := Int.floor_lt.mpr (by push_cast; exact high)
    exact_mod_cast floor ▸ this
  · rw [whole, ← le_div_iff₀ ten]
    exact Int.floor_le _
  · have := Int.lt_floor_add_one (x.val / unit)
    rw [div_lt_iff₀ ten, add_mul, one_mul] at this
    rw [whole]
    exact this

theorem decimalOfLength_some {k : ℕ} (some : 0 < k) {d : Shortest}
    (h : decimalOfLength x k = .some d) :
    10 ^ (k - 1) ≤ d.digits ∧ d.digits < 10 ^ k ∧
      Number.ofRat (d.digits * 10 ^ (d.exponent - k)) = .finite x := by
  obtain ⟨low, high, -, -⟩ := candidates positive some
  -- the candidate that was taken, before a carry
  obtain ⟨s, readsBack, large, small, carried⟩ : ∃ s : ℕ,
      Number.ofRat (s * 10 ^ (Int.log 10 x.val + 1 - k)) = .finite x ∧ 10 ^ (k - 1) ≤ s ∧
        s ≤ 10 ^ k ∧
        d = if s = 10 ^ k then ⟨10 ^ (k - 1), Int.log 10 x.val + 1 + 1⟩
          else ⟨s, Int.log 10 x.val + 1⟩ := by
    unfold decimalOfLength at h
    dsimp only at h
    split at h
    next lower upper =>
      simp only [decide_eq_true_eq] at lower upper
      split at h
      · exact ⟨_, lower, low, high.le, (Option.some.inj h).symm⟩
      · exact ⟨_, upper, low.trans (Nat.le_succ _), high, (Option.some.inj h).symm⟩
    next lower _ =>
      simp only [decide_eq_true_eq] at lower
      exact ⟨_, lower, low, high.le, (Option.some.inj h).symm⟩
    next _ upper =>
      simp only [decide_eq_true_eq] at upper
      exact ⟨_, upper, low.trans (Nat.le_succ _), high, (Option.some.inj h).symm⟩
    next => cases h
  rw [carried]
  split
  next full =>
    refine ⟨le_rfl, Nat.pow_lt_pow_right (by decide) (by omega), ?_⟩
    have value : ((10 ^ (k - 1) : ℕ) : ℚ) * 10 ^ (Int.log 10 x.val + 1 + 1 - k) =
        s * 10 ^ (Int.log 10 x.val + 1 - k) := by
      rw [full]
      push_cast
      rw [← zpow_natCast, ← zpow_natCast, ← zpow_add₀ (by norm_num), ← zpow_add₀ (by norm_num)]
      congr 1
      omega
    rw [value]
    exact readsBack
  next notFull => exact ⟨large, lt_of_le_of_ne small notFull, readsBack⟩

theorem decimalOfLength_seventeen : ∃ d, decimalOfLength x 17 = some d := by
  obtain ⟨low, -, below, above⟩ := candidates positive (k := 17) (by decide)
  have ten : (0 : ℚ) < 10 ^ (Int.log 10 x.val + 1 - (17 : ℕ)) := zpow_pos (by norm_num) _
  have fine : (10 : ℚ) ^ (Int.log 10 x.val + 1 - (17 : ℕ)) * 10 ^ 16 ≤ x.val := by
    have log : (10 : ℚ) ^ Int.log 10 x.val ≤ x.val := by
      exact_mod_cast Int.zpow_log_le_self (b := 10) (by norm_num) positive
    refine le_trans (le_of_eq ?_) log
    rw [← zpow_natCast, ← zpow_add₀ (by norm_num)]
    congr 1
    push_cast
    omega
  have nonzero : (0 : ℚ) < ⌊x.val / 10 ^ (Int.log 10 x.val + 1 - (17 : ℕ))⌋.toNat :=
    Nat.cast_pos.mpr (lt_of_lt_of_le (by norm_num) low)
  have neighbour := rounded_neighbour x.representable (mul_pos nonzero ten) fine below above
  unfold decimalOfLength
  dsimp only
  split
  · exact ⟨_, rfl⟩
  · exact ⟨_, rfl⟩
  · exact ⟨_, rfl⟩
  next lower upper =>
    simp only [decide_eq_false_iff_not] at lower upper
    rcases neighbour with down | up
    · exact absurd (ofRat_of_rounded down) lower
    · refine absurd (ofRat_of_rounded ?_) upper
      push_cast
      rw [add_mul, one_mul]
      exact up

/-- The digits of a positive double, with their number. -/
theorem shortest_readsBack : ∃ k : ℕ, 0 < k ∧ 10 ^ (k - 1) ≤ (shortest x).digits ∧
    (shortest x).digits < 10 ^ k ∧
    Number.ofRat ((shortest x).digits * 10 ^ ((shortest x).exponent - k)) = .finite x := by
  obtain ⟨d, seventeen⟩ := decimalOfLength_seventeen positive
  have found : ∃ d, (List.range' 1 17).findSome? (decimalOfLength x) = some d := by
    rw [← Option.isSome_iff_exists, List.findSome?_isSome_iff]
    exact ⟨17, by decide, by rw [seventeen]; rfl⟩
  obtain ⟨d', first⟩ := found
  obtain ⟨k, member, length⟩ := List.exists_of_findSome?_eq_some first
  have some : 0 < k := by
    have := (List.mem_range'_1.mp member).1
    omega
  have read : shortest x = d' := by rw [shortest, first, Option.getD_some]
  rw [read]
  exact ⟨k, some, decimalOfLength_some positive some length⟩

end

/-! ### The text -/

/-- A code unit of a decimal literal. -/
def IsLiteralUnit (c : CodeUnit) : Prop :=
  isDigit 10 c = true ∨ isSign c = true ∨ c = 0x2E ∨ c = 0x65

/-- The text is a literal of JSON without sign, and `d` is what it is taken apart into. -/
structure IsLiteral (s : JsString) (d : Decimal) : Prop where
  split : splitDecimal s = some d
  start : ∃ c rest, s = c :: rest ∧ isDigit 10 c = true
  whole : d.whole ≠ []
  head : d.whole.head? = some 0x30 → d.whole.length = 1
  fraction : d.point = true → d.fraction ≠ []
  units : ∀ c ∈ s, IsLiteralUnit c

theorem IsLiteral.jsonNumber {s : JsString} {d : Decimal} (h : IsLiteral s d) :
    jsonNumber s = some (.ofRat d.value) ∧ jsonNumber (0x2D :: s) = some (.ofRat (-d.value)) := by
  obtain ⟨c, rest, rfl, digit⟩ := h.start
  have noSign : c ≠ 0x2D := by
    rintro rfl
    exact absurd digit (by decide)
  have valid : ¬((decide (d.whole = []) || (decide (d.whole.head? = some 0x30) &&
      decide (d.whole.length ≠ 1)) || (d.point && decide (d.fraction = []))) = true) := by
    have whole := h.whole
    have head := h.head
    have fraction := h.fraction
    simp only [Bool.or_eq_true, Bool.and_eq_true, decide_eq_true_eq]
    tauto
  constructor
  · unfold Js.jsonNumber
    split
    next negative magnitude same =>
      split at same
      next signed => exact absurd (List.cons.inj signed).1 noSign
      next =>
        cases same
        simp only [h.split, Option.bind_eq_bind, Option.bind_some, if_neg valid, applySign]
        rfl
  · unfold Js.jsonNumber
    simp only [h.split, Option.bind_eq_bind, Option.bind_some, if_neg valid, applySign]
    rfl

theorem takeWhile_isDigit {digits tail : JsString} (all : ∀ c ∈ digits, isDigit 10 c = true)
    (stop : ∀ c rest, tail = c :: rest → isDigit 10 c = false) :
    (digits ++ tail).takeWhile (isDigit 10) = digits ∧
      (digits ++ tail).dropWhile (isDigit 10) = tail := by
  rw [List.takeWhile_append_of_pos all, List.dropWhile_append_of_pos all]
  cases tail with
  | nil => exact ⟨List.append_nil _, rfl⟩
  | cons c rest =>
    have := stop c rest rfl
    rw [List.takeWhile_cons_of_neg (by rw [this]; decide), List.append_nil,
      List.dropWhile_cons_of_neg (by rw [this]; decide)]
    exact ⟨rfl, rfl⟩

/-- What may follow the digits: nothing, or an exponent. -/
def IsTail (tail : JsString) (e : ℤ) : Prop :=
  exponentValue tail = some e ∧ (∀ c rest, tail = c :: rest → c = 0x65) ∧
    ∀ c ∈ tail, IsLiteralUnit c

theorem IsTail.nil : IsTail [] 0 :=
  ⟨rfl, fun _ _ h => absurd h (List.cons_ne_nil _ _).symm, List.forall_mem_nil _⟩

theorem exponentValue_signed {digits : JsString} (all : ∀ c ∈ digits, isDigit 10 c = true)
    (some : digits ≠ []) :
    exponentValue (0x65 :: 0x2D :: digits) = .some (-(digitsValue 10 digits : ℤ)) ∧
      exponentValue (0x65 :: 0x2B :: digits) = .some (digitsValue 10 digits : ℤ) := by
  have each : digits.all (isDigit 10) = true := List.all_eq_true.mpr all
  constructor
  all_goals
    simp only [exponentValue, splitSign, each, some, ne_eq, not_false_eq_true, decide_true,
      Bool.true_or, Bool.and_true, if_true, Bool.false_eq_true, if_false]

theorem IsTail.exponent (e : ℤ) :
    IsTail (text (if e < 0 then "e-" else "e+") ++ decimal e.natAbs) e := by
  have digits := decimal_isDigit e.natAbs
  obtain ⟨minus, plus⟩ := exponentValue_signed digits (decimal_ne_nil e.natAbs)
  rw [digitsValue_decimal] at minus plus
  obtain ⟨sign, letters, signed, value⟩ : ∃ sign : CodeUnit,
      text (if e < 0 then "e-" else "e+") = [0x65, sign] ∧ isSign sign = true ∧
        exponentValue (0x65 :: sign :: decimal e.natAbs) = some e := by
    split
    next negative =>
      exact ⟨0x2D, by decide, by decide, minus.trans (congrArg some (by omega))⟩
    next nonnegative =>
      exact ⟨0x2B, by decide, by decide, plus.trans (congrArg some (by omega))⟩
  rw [letters, List.cons_append, List.cons_append, List.nil_append]
  refine ⟨value, fun c rest h => (List.cons.inj h).1.symm, ?_⟩
  simp only [List.forall_mem_cons]
  exact ⟨.inr (.inr (.inr rfl)), .inr (.inl signed), fun c member => .inl (digits c member)⟩

theorem IsTail.isDigit {tail : JsString} {e : ℤ} (h : IsTail tail e) {c : CodeUnit}
    {rest : JsString} (starts : tail = c :: rest) : isDigit 10 c = false := by
  rw [h.2.1 c rest starts]
  decide

/-! ### Literals with and without a point -/

/-- Digits that are no numeral with leading zeros. -/
structure IsWhole (digits : JsString) : Prop where
  some : digits ≠ []
  all : ∀ c ∈ digits, isDigit 10 c = true
  head : digits.head? = .some 0x30 → digits.length = 1

theorem IsWhole.start {digits : JsString} (h : IsWhole digits) (tail : JsString) :
    ∃ c rest, digits ++ tail = c :: rest ∧ isDigit 10 c = true := by
  obtain ⟨c, rest, rfl⟩ := List.exists_cons_of_ne_nil h.some
  exact ⟨c, rest ++ tail, rfl, h.all c List.mem_cons_self⟩

theorem isLiteral_whole {digits tail : JsString} {e : ℤ} (h : IsWhole digits) (ht : IsTail tail e) :
    IsLiteral (digits ++ tail) ⟨digits, false, [], e⟩ := by
  obtain ⟨taken, dropped⟩ := takeWhile_isDigit h.all fun _ _ => ht.isDigit
  refine ⟨?_, h.start tail, h.some, h.head, fun point => (Bool.noConfusion point), ?_⟩
  · unfold splitDecimal
    simp only [taken, dropped]
    -- the tail does not begin with a point
    split
    next rest => exact absurd (ht.2.1 0x2E rest rfl) (by decide)
    next => rw [ht.1, Option.map_some]
  · rw [List.forall_mem_append]
    exact ⟨fun c member => .inl (h.all c member), ht.2.2⟩

theorem isLiteral_fraction {digits fraction tail : JsString} {e : ℤ} (h : IsWhole digits)
    (some : fraction ≠ []) (all : ∀ c ∈ fraction, isDigit 10 c = true) (ht : IsTail tail e) :
    IsLiteral (digits ++ (0x2E :: (fraction ++ tail))) ⟨digits, true, fraction, e⟩ := by
  have stop : ∀ c rest, 0x2E :: (fraction ++ tail) = c :: rest → isDigit 10 c = false := by
    intro c rest starts
    rw [← (List.cons.inj starts).1]
    decide
  obtain ⟨taken, dropped⟩ := takeWhile_isDigit h.all stop
  obtain ⟨taken', dropped'⟩ := takeWhile_isDigit all fun _ _ => ht.isDigit
  refine ⟨?_, h.start _, h.some, h.head, fun _ => some, ?_⟩
  · unfold splitDecimal
    simp only [taken, dropped, taken', dropped', ht.1, Option.map_some]
  · simp only [List.forall_mem_append, List.forall_mem_cons]
    exact ⟨fun c member => .inl (h.all c member), .inr (.inr (.inl rfl)),
      fun c member => .inl (all c member), ht.2.2⟩

theorem isWhole_decimal {n : ℕ} (nonzero : n ≠ 0) (zeros : JsString)
    (all : ∀ c ∈ zeros, isDigit 10 c = true) : IsWhole (decimal n ++ zeros) := by
  obtain ⟨d, rest, positive, small, head⟩ := decimal_head nonzero
  refine ⟨List.append_ne_nil_of_left_ne_nil (decimal_ne_nil n) _, ?_, fun zero => ?_⟩
  · rw [List.forall_mem_append]
    exact ⟨decimal_isDigit n, all⟩
  · have each : ∀ d < 10, 0 < d → digitUnit d ≠ 0x30 := by decide
    rw [head, List.cons_append, List.head?_cons] at zero
    exact absurd (Option.some.inj zero) (each d small positive)

theorem isWhole_take {n m : ℕ} (nonzero : n ≠ 0) (positive : 0 < m) :
    IsWhole ((decimal n).take m) := by
  obtain ⟨d, rest, dpos, small, head⟩ := decimal_head nonzero
  obtain ⟨m, rfl⟩ := Nat.exists_eq_succ_of_ne_zero positive.ne'
  refine ⟨?_, fun c member => decimal_isDigit n c (List.mem_of_mem_take member), fun zero => ?_⟩
  · rw [head, List.take_succ_cons]
    exact List.cons_ne_nil _ _
  · have each : ∀ d < 10, 0 < d → digitUnit d ≠ 0x30 := by decide
    rw [head, List.take_succ_cons, List.head?_cons] at zero
    exact absurd (Option.some.inj zero) (each d small dpos)

theorem zeros_isDigit (m : ℕ) : ∀ c ∈ List.replicate m (0x30 : CodeUnit), isDigit 10 c = true := by
  intro c member
  rw [List.eq_of_mem_replicate member]
  decide

/-- The value of a literal, by the digits that stand in it. -/
theorem Decimal.value_eq {d : Decimal} {n k : ℕ} {e : ℤ}
    (digits : digitsValue 10 (d.whole ++ d.fraction) = n * 10 ^ k)
    (exponent : (k : ℤ) + d.exponent - d.fraction.length = e) : d.value = n * (10 : ℚ) ^ e := by
  rw [Decimal.value, digits]
  push_cast
  rw [mul_assoc, ← zpow_natCast, ← zpow_add₀ (by norm_num)]
  congr 2
  omega

/-! ### The notations -/

/-- The text is a literal whose value has these digits, the last of them in this place. -/
def Denotes (s : JsString) (m : ℕ) (e : ℤ) : Prop :=
  ∃ d, IsLiteral s d ∧ d.value = m * (10 : ℚ) ^ e

section

variable {m : ℕ} {n : ℤ}

/-- The digits, and zeros up to the point. -/
theorem denotes_integral (nonzero : m ≠ 0) (whole : ((decimal m).length : ℤ) ≤ n) :
    Denotes (decimal m ++ List.replicate (n - (decimal m).length).toNat 0x30) m
      (n - (decimal m).length) := by
  have literal := isLiteral_whole
    (isWhole_decimal nonzero _ (zeros_isDigit (n - (decimal m).length).toNat)) IsTail.nil
  rw [List.append_nil] at literal
  refine ⟨_, literal, Decimal.value_eq (k := (n - (decimal m).length).toNat) ?_ ?_⟩
  · rw [List.append_nil, digitsValue_append, digitsValue_decimal, digitsValue_zeros,
      List.length_replicate, Nat.add_zero]
  · simp only [List.length_nil]
    omega

/-- The point among the digits. -/
theorem denotes_pointed (nonzero : m ≠ 0) (positive : 0 < n)
    (inside : n < (decimal m).length) :
    Denotes ((decimal m).take n.toNat ++ [0x2E] ++ (decimal m).drop n.toNat) m
      (n - (decimal m).length) := by
  have fraction : (decimal m).drop n.toNat ≠ [] := by
    rw [← List.length_pos_iff, List.length_drop]
    omega
  have literal := isLiteral_fraction (isWhole_take nonzero (m := n.toNat) (by omega)) fraction
    (fun c member => decimal_isDigit m c (List.mem_of_mem_drop member)) IsTail.nil
  rw [List.append_nil] at literal
  rw [List.append_assoc]
  refine ⟨_, literal, Decimal.value_eq (k := 0) ?_ ?_⟩
  · rw [List.take_append_drop, digitsValue_decimal, pow_zero, Nat.mul_one]
  · simp only [List.length_drop]
    omega

/-- Zeros from the point to the digits. -/
theorem denotes_small (small : n ≤ 0) :
    Denotes (text "0." ++ List.replicate (-n).toNat 0x30 ++ decimal m) m
      (n - (decimal m).length) := by
  have zero : IsWhole [0x30] :=
    ⟨List.cons_ne_nil _ _, List.forall_mem_singleton.mpr rfl, fun _ => rfl⟩
  have fraction : List.replicate (-n).toNat 0x30 ++ decimal m ≠ [] :=
    List.append_ne_nil_of_right_ne_nil _ (decimal_ne_nil _)
  have literal := isLiteral_fraction zero fraction
    (List.forall_mem_append.mpr ⟨zeros_isDigit _, decimal_isDigit m⟩) IsTail.nil
  have point : text "0." = [0x30, 0x2E] := by decide
  rw [List.append_nil] at literal
  rw [point, List.append_assoc]
  refine ⟨_, literal, Decimal.value_eq (k := 0) ?_ ?_⟩
  · have zeros : digitsValue 10 [0x30] = 0 := by decide
    rw [digitsValue_append, digitsValue_append, zeros, digitsValue_zeros, digitsValue_decimal,
      Nat.zero_mul, Nat.zero_mul, Nat.zero_add, Nat.zero_add, pow_zero, Nat.mul_one]
  · simp only [List.length_append, List.length_replicate]
    omega

/-- The first digit before the point, if there are more, and an exponent. -/
theorem denotes_scientific (nonzero : m ≠ 0) :
    Denotes ((if (decimal m).length = 1 then decimal m
        else (decimal m).take 1 ++ [0x2E] ++ (decimal m).drop 1) ++
      text (if n - 1 < 0 then "e-" else "e+") ++ decimal (n - 1).natAbs) m
      (n - (decimal m).length) := by
  split
  next one =>
    have whole := isWhole_decimal nonzero [] (List.forall_mem_nil _)
    rw [List.append_nil] at whole
    have literal := isLiteral_whole whole (IsTail.exponent (n - 1))
    rw [List.append_assoc]
    refine ⟨_, literal, Decimal.value_eq (k := 0) ?_ ?_⟩
    · rw [List.append_nil, digitsValue_decimal, pow_zero, Nat.mul_one]
    · simp only [List.length_nil]
      omega
  next several =>
    have some := List.length_pos_iff.mpr (decimal_ne_nil m)
    have fraction : (decimal m).drop 1 ≠ [] := by
      rw [← List.length_pos_iff, List.length_drop]
      omega
    have literal := isLiteral_fraction (isWhole_take nonzero (m := 1) Nat.one_pos) fraction
      (fun c member => decimal_isDigit m c (List.mem_of_mem_drop member)) (IsTail.exponent (n - 1))
    simp only [List.append_assoc, List.cons_append, List.nil_append]
    refine ⟨_, literal, Decimal.value_eq (k := 0) ?_ ?_⟩
    · rw [List.take_append_drop, digitsValue_decimal, pow_zero, Nat.mul_one]
    · simp only [List.length_drop]
      omega

end

/-- Whatever the notation, the value is that of the digits in their place. -/
theorem positiveText_denotes {x : Double} (nonzero : (shortest x).digits ≠ 0) :
    Denotes (positiveText x) (shortest x).digits
      ((shortest x).exponent - (decimal (shortest x).digits).length) := by
  unfold positiveText
  dsimp only
  split
  next integral => exact denotes_integral nonzero integral.1
  next large =>
    split
    next inside => exact denotes_pointed nonzero inside.1 (by omega)
    next outside =>
      split
      next small => exact denotes_small small.2
      next => exact denotes_scientific nonzero

theorem positiveText_literal {x : Double} (positive : 0 < x.val) :
    ∃ d, IsLiteral (positiveText x) d ∧ Number.ofRat d.value = .finite x := by
  obtain ⟨k, some, low, high, readsBack⟩ := shortest_readsBack positive
  have nonzero : (shortest x).digits ≠ 0 := (lt_of_lt_of_le (Nat.pow_pos (by decide)) low).ne'
  obtain ⟨d, literal, value⟩ := positiveText_denotes nonzero
  rw [decimal_length some low high] at value
  exact ⟨d, literal, by rw [value, readsBack]⟩

/-! ### Every double -/

theorem nearestEven_neg (q : ℚ) : nearestEven (-q) = -nearestEven q := by
  have bounds := Int.floor_le q
  have above := Int.lt_floor_add_one q
  rcases eq_or_lt_of_le bounds with whole | inside
  · rw [← whole, ← Int.cast_neg, nearestEven_intCast, nearestEven_intCast]
  · have floor : ⌊-q⌋ = -⌊q⌋ - 1 := by
      rw [Int.floor_eq_iff]
      push_cast
      constructor <;> linarith
    simp only [nearestEven, floor]
    push_cast
    -- the fraction on the other side is what is missing here
    rcases lt_trichotomy (q - ⌊q⌋) (1 / 2) with low | half | high
    · rw [if_neg (by linarith), if_pos (by linarith), if_pos low]
      omega
    · rw [if_neg (by linarith), if_neg (by linarith)]
      split
      all_goals
        rw [if_neg (by linarith), if_neg (by linarith)]
        split <;> omega
    · rw [if_pos (by linarith), if_neg (by linarith), if_pos high]
      omega

theorem rounded_neg (q : ℚ) : rounded (-q) = -rounded q := by
  have units : ulp (-q) = ulp q := by rw [ulp, ulp, scale, scale, abs_neg]
  rw [rounded, rounded, units, neg_div, nearestEven_neg, Int.cast_neg, neg_mul]

theorem rounded_of_ofRat {q : ℚ} {x : Double} (h : Number.ofRat q = .finite x) :
    rounded q = x.val := by
  unfold Number.ofRat at h
  split at h
  · exact congrArg Double.val (Number.finite.inj h)
  · cases h

/-- What a finite number is written as: a literal of JSON, after a sign if it is negative. -/
theorem toText_literal (x : Double) :
    ∃ s d, IsLiteral s d ∧ ((Number.finite x).toText = s ∧ Number.ofRat d.value = .finite x ∨
      (Number.finite x).toText = 0x2D :: s ∧ Number.ofRat (-d.value) = .finite x) := by
  rcases lt_trichotomy x.val 0 with negative | zero | positive
  · have pos : 0 < x.neg.val := neg_pos.mpr negative
    obtain ⟨d, literal, value⟩ := positiveText_literal pos
    refine ⟨_, d, literal, .inr ⟨?_, ?_⟩⟩
    · rw [Number.toText, if_neg negative.ne, if_neg negative.le.not_gt]
      rfl
    · refine ofRat_of_rounded ?_
      rw [rounded_neg, rounded_of_ofRat value]
      exact neg_neg _
  · have whole : IsWhole [0x30] :=
      ⟨List.cons_ne_nil _ _, List.forall_mem_singleton.mpr rfl, fun _ => rfl⟩
    refine ⟨_, _, isLiteral_whole whole IsTail.nil, .inl ⟨?_, ?_⟩⟩
    · rw [Number.toText, if_pos zero]
      decide
    · refine ofRat_of_rounded ?_
      have digits : digitsValue 10 ([0x30] ++ []) = 0 * 10 ^ 0 := by decide
      rw [Decimal.value_eq (d := ⟨[0x30], false, [], 0⟩) digits (e := 0) rfl, zero]
      norm_num [rounded_zero]
  · obtain ⟨d, literal, value⟩ := positiveText_literal positive
    refine ⟨_, d, literal, .inl ⟨?_, value⟩⟩
    rw [Number.toText, if_neg positive.ne', if_pos positive]

/-- A finite number is read back from its text. -/
theorem jsonNumber_toText (x : Double) :
    jsonNumber (Number.finite x).toText = some (.finite x) := by
  obtain ⟨s, d, literal, ⟨written, value⟩ | ⟨written, value⟩⟩ := toText_literal x
  · rw [written, literal.jsonNumber.1, value]
  · rw [written, literal.jsonNumber.2, value]

end Js
