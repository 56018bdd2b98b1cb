import Mathlib.Data.Nat.Digits.Lemmas
import Mirror.Js.Text

/-!
Hexadecimal text: how numbers are written, padded to a width and read back. Up to letter case a
text of digits is the list of their values.
-/
namespace Js

/-- `s.padStart(width, "0")`. -/
def padStart (width : ℕ) (s : JsString) : JsString :=
  List.replicate (width - s.length) 0x30 ++ s

/-- `n.toString(16)`. -/
def hexText (n : ℕ) : JsString :=
  if n = 0 then [0x30] else (Nat.digits 16 n).reverse.map digitUnit

/-- A letter of the Latin alphabet in lower case, anything else as it is. -/
def lowerUnit (c : CodeUnit) : CodeUnit :=
  if 0x41 ≤ c.val ∧ c.val ≤ 0x5A then Fin.ofNat _ (c.val + 0x20) else c

/-- Texts agree up to letter case where this agrees. -/
def lower (s : JsString) : JsString := s.map lowerUnit

theorem lower_append (s t : JsString) : lower (s ++ t) = lower s ++ lower t :=
  List.map_append

/-! ### Digits and their values -/

/-- The text of a list of digits. -/
def spell (ds : List ℕ) : JsString := ds.map digitUnit

/-- The number that a list of digits is, leading ones first. -/
def valueOf (ds : List ℕ) : ℕ := Nat.ofDigits 16 ds.reverse

theorem spell_append (ds es : List ℕ) : spell (ds ++ es) = spell ds ++ spell es :=
  List.map_append

theorem valueOf_append (ds es : List ℕ) :
    valueOf (ds ++ es) = valueOf ds * 16 ^ es.length + valueOf es := by
  rw [valueOf, List.reverse_append, Nat.ofDigits_append, List.length_reverse, valueOf, valueOf]
  ring

/-- Lists of the same length are told apart by their values. -/
theorem valueOf_inj {ds es : List ℕ} (lengths : ds.length = es.length) (hd : ∀ d ∈ ds, d < 16)
    (he : ∀ e ∈ es, e < 16) (same : valueOf ds = valueOf es) : ds = es := by
  have reversed : ds.reverse = es.reverse := by
    -- `Nat.ofDigits` reads the lowest digit first
    refine Nat.ofDigits_inj_of_len_eq (by decide) ?_ ?_ ?_ same
    · rw [List.length_reverse, List.length_reverse, lengths]
    · intro d member
      exact hd d (List.mem_reverse.mp member)
    · intro e member
      exact he e (List.mem_reverse.mp member)
  exact List.reverse_inj.mp reversed

theorem digitUnit_val {d : ℕ} (small : d < 16) :
    (digitUnit d).val = if d < 10 then 0x30 + d else 0x57 + d := by
  rw [digitUnit, Fin.val_ofNat]
  split <;> omega

theorem digitUnit_inj {d e : ℕ} (hd : d < 16) (he : e < 16)
    (same : digitUnit d = digitUnit e) : d = e := by
  have values := congrArg Fin.val same
  -- figures and letters lie in different ranges
  rw [digitUnit_val hd, digitUnit_val he] at values
  split at values <;> split at values <;> omega

theorem spell_inj {ds es : List ℕ} (hd : ∀ d ∈ ds, d < 16) (he : ∀ e ∈ es, e < 16)
    (same : spell ds = spell es) : ds = es := by
  induction ds generalizing es with
  | nil =>
    cases es with
    | nil => rfl
    | cons e es => cases same
  | cons d ds ih =>
    cases es with
    | nil => cases same
    | cons e es =>
      obtain ⟨first, rest⟩ := List.cons.inj same
      rw [List.forall_mem_cons] at hd he
      rw [digitUnit_inj hd.1 he.1 first, ih hd.2 he.2 rest]

/-- Every hexadecimal digit is, in lower case, the digit of its value. -/
theorem digitUnit_of_isDigit {c : CodeUnit} (digit : isDigit 16 c = true) :
    ∃ d < 16, digitValue c = some d ∧ lowerUnit c = digitUnit d := by
  simp only [isDigit] at digit
  cases read : digitValue c with
  | none =>
    rw [read] at digit
    cases digit
  | some d =>
    refine ⟨d, ?_, rfl, ?_⟩
    · rw [read] at digit
      exact of_decide_eq_true digit
    · have small : d < 16 := by
        rw [read] at digit
        exact of_decide_eq_true digit
      apply Fin.ext
      rw [digitUnit_val small]
      -- the three ranges of `digitValue`: figures, small letters, capital letters
      simp only [digitValue] at read
      simp only [lowerUnit]
      split at read
      next =>
        cases read
        rw [if_neg (by omega), if_pos (by omega)]
        omega
      next =>
        split at read
        next =>
          cases read
          rw [if_neg (by omega), if_neg (by omega)]
          omega
        next =>
          split at read
          next =>
            cases read
            rw [if_pos (by omega), if_neg (by omega), Fin.val_ofNat]
            omega
          next => cases read

theorem isDigit_ascii {c : CodeUnit} (digit : isDigit 16 c = true) : c.val < 0x80 := by
  obtain ⟨d, small, -, lowered⟩ := digitUnit_of_isDigit digit
  by_contra large
  -- no capital letter, so it is the digit itself
  rw [lowerUnit, if_neg (by omega)] at lowered
  have value := digitUnit_val small
  rw [← lowered] at value
  split at value <;> omega

theorem lower_spell {ds : List ℕ} (small : ∀ d ∈ ds, d < 16) : lower (spell ds) = spell ds := by
  rw [lower, spell, List.map_map]
  apply List.map_congr_left
  intro d member
  have value := digitUnit_val (small d member)
  -- a digit written by `digitUnit` is no capital letter
  rw [Function.comp_apply, lowerUnit, if_neg]
  rw [value]
  have := small d member
  split <;> omega

/-- Any text of digits, up to letter case. -/
theorem exists_spell {s : JsString} (digits : s.all (isDigit 16) = true) :
    ∃ ds, ds.length = s.length ∧ (∀ d ∈ ds, d < 16) ∧ lower s = spell ds ∧
      digitsValue 16 s = valueOf ds := by
  -- the digits that were read so far are carried along as `n`
  have each : ∀ (s : JsString) (n : ℕ), s.all (isDigit 16) = true →
      ∃ ds, ds.length = s.length ∧ (∀ d ∈ ds, d < 16) ∧ lower s = spell ds ∧
        s.foldl (fun n c => n * 16 + (digitValue c).getD 0) n =
          n * 16 ^ s.length + valueOf ds := by
    intro s
    induction s with
    | nil =>
      intro n _
      exact ⟨[], rfl, List.forall_mem_nil _, rfl, by simp [valueOf]⟩
    | cons c rest ih =>
      intro n digits
      rw [List.all_cons, Bool.and_eq_true] at digits
      obtain ⟨d, small, read, lowered⟩ := digitUnit_of_isDigit digits.1
      obtain ⟨ds, length, smalls, spelled, value⟩ := ih (n * 16 + d) digits.2
      refine ⟨d :: ds, congrArg Nat.succ length, List.forall_mem_cons.mpr ⟨small, smalls⟩, ?_, ?_⟩
      · rw [lower, List.map_cons, lowered]
        exact congrArg (digitUnit d :: ·) spelled
      · have head : valueOf (d :: ds) = d * 16 ^ rest.length + valueOf ds := by
          rw [← length, ← List.singleton_append, valueOf_append]
          simp [valueOf]
        rw [List.foldl_cons, read, Option.getD_some, value, head, List.length_cons]
        ring
  obtain ⟨ds, length, small, spelled, value⟩ := each s 0 digits
  refine ⟨ds, length, small, spelled, ?_⟩
  rw [digitsValue, value, Nat.zero_mul, Nat.zero_add]

/-! ### Numbers -/

theorem hexText_spell (n : ℕ) :
    ∃ ds, (∀ d ∈ ds, d < 16) ∧ hexText n = spell ds ∧ valueOf ds = n ∧
      ∀ width, 0 < width → n < 16 ^ width → ds.length ≤ width := by
  simp only [hexText]
  split
  next zero =>
    subst zero
    exact ⟨[0], by decide, by decide, rfl, fun width positive _ => positive⟩
  next =>
    refine ⟨(Nat.digits 16 n).reverse, ?_, rfl, ?_, ?_⟩
    · intro d member
      exact Nat.digits_lt_base (by decide) (List.mem_reverse.mp member)
    · rw [valueOf, List.reverse_reverse, Nat.ofDigits_digits]
    · intro width _ fits
      rw [List.length_reverse]
      exact (Nat.digits_length_le_iff (by decide) n).mpr fits

theorem hexText_length_le_iff {n width : ℕ} (positive : 0 < width) :
    (hexText n).length ≤ width ↔ n < 16 ^ width := by
  simp only [hexText]
  split
  next zero =>
    subst zero
    exact iff_of_true positive (Nat.pow_pos (by decide))
  next =>
    rw [List.length_map, List.length_reverse]
    exact Nat.digits_length_le_iff (by decide) n

/-- Leading zeros change nothing. -/
theorem valueOf_zeros (k : ℕ) (ds : List ℕ) : valueOf (List.replicate k 0 ++ ds) = valueOf ds := by
  rw [valueOf, List.reverse_append, List.reverse_replicate, Nat.ofDigits_append_replicate_zero,
    valueOf]

/-- A number that fits, padded to its width. -/
theorem padStart_hexText {n width : ℕ} (positive : 0 < width) (fits : n < 16 ^ width) :
    ∃ ds, ds.length = width ∧ (∀ d ∈ ds, d < 16) ∧ padStart width (hexText n) = spell ds ∧
      valueOf ds = n := by
  obtain ⟨ds, small, spelled, value, short⟩ := hexText_spell n
  have enough := short width positive fits
  -- the padding is zeros, which add nothing to the value
  refine ⟨List.replicate (width - ds.length) 0 ++ ds, ?_, ?_, ?_, ?_⟩
  · rw [List.length_append, List.length_replicate]
    omega
  · intro d member
    rcases List.mem_append.mp member with zero | digit
    · rw [List.eq_of_mem_replicate zero]
      decide
    · exact small d digit
  · have length : (spell ds).length = ds.length := List.length_map _
    have zeros : spell (List.replicate (width - ds.length) 0) =
        List.replicate (width - ds.length) 0x30 := List.map_replicate
    rw [padStart, spelled, length, spell_append, zeros]
  · rw [valueOf_zeros, value]

theorem digitsValue_spell {ds : List ℕ} (small : ∀ d ∈ ds, d < 16) :
    digitsValue 16 (spell ds) = valueOf ds := by
  have digit : ∀ d < 16, isDigit 16 (digitUnit d) = true := by decide
  have digits : (spell ds).all (isDigit 16) = true := by
    rw [spell, List.all_map, List.all_eq_true]
    exact fun d member => digit d (small d member)
  obtain ⟨es, -, smaller, spelled, value⟩ := exists_spell digits
  rw [lower_spell small] at spelled
  rw [value, spell_inj small smaller spelled]

/-- What is read back from the padded text. -/
theorem digitsValue_padStart {n width : ℕ} (positive : 0 < width) (fits : n < 16 ^ width) :
    (padStart width (hexText n)).length = width ∧
      (padStart width (hexText n)).all (isDigit 16) = true ∧
      digitsValue 16 (padStart width (hexText n)) = n := by
  obtain ⟨ds, length, small, spelled, value⟩ := padStart_hexText positive fits
  have digit : ∀ d < 16, isDigit 16 (digitUnit d) = true := by decide
  rw [spelled]
  refine ⟨?_, ?_, ?_⟩
  · rw [spell, List.length_map, length]
  · rw [spell, List.all_map, List.all_eq_true]
    exact fun d member => digit d (small d member)
  · rw [digitsValue_spell small, value]

/-! ### Bytes -/

theorem hexByte_inj {a b : Byte} (same : hexByte a = hexByte b) : a = b := by
  have low : a.val % 16 < 16 ∧ b.val % 16 < 16 := by omega
  have high : a.val / 16 < 16 ∧ b.val / 16 < 16 := by
    have := a.isLt
    have := b.isLt
    omega
  simp only [hexByte, List.cons.injEq, and_true] at same
  have first := digitUnit_inj high.1 high.2 same.1
  have second := digitUnit_inj low.1 low.2 same.2
  apply Fin.ext
  omega

/-- Two digits a byte: the digits tell the bytes. -/
theorem flatMap_hexByte_inj {as bs : List Byte}
    (same : as.flatMap hexByte = bs.flatMap hexByte) : as = bs := by
  induction as generalizing bs with
  | nil =>
    cases bs with
    | nil => rfl
    | cons b bs => cases same
  | cons a as ih =>
    cases bs with
    | nil => cases same
    | cons b bs =>
      rw [List.flatMap_cons, List.flatMap_cons] at same
      -- both first bytes take two digits
      obtain ⟨first, rest⟩ := List.append_inj same rfl
      rw [hexByte_inj first, ih rest]

/-- Two digits are, in lower case, those of the byte that they are read as. -/
theorem lower_pair {hi lo : CodeUnit} (high : isDigit 16 hi = true) (low : isDigit 16 lo = true) :
    lower [hi, lo] = hexByte (Fin.ofNat _ (digitsValue 16 [hi, lo])) := by
  obtain ⟨h, hSmall, hRead, hLower⟩ := digitUnit_of_isDigit high
  obtain ⟨l, lSmall, lRead, lLower⟩ := digitUnit_of_isDigit low
  have value : digitsValue 16 [hi, lo] = h * 16 + l := by
    simp only [digitsValue, List.foldl_cons, List.foldl_nil, hRead, lRead, Option.getD_some]
    omega
  have byte : (Fin.ofNat 256 (h * 16 + l)).val = h * 16 + l := by
    rw [Fin.val_ofNat]
    omega
  have first : (h * 16 + l) / 16 = h := by omega
  have second : (h * 16 + l) % 16 = l := by omega
  rw [value, hexByte, byte, first, second]
  simp only [lower, List.map_cons, List.map_nil, hLower, lLower]

/-- An even number of digits is, in lower case, what its bytes are written as. -/
theorem lower_pairBytes {s : JsString} (even : s.length % 2 = 0)
    (digits : s.all (isDigit 16) = true) : lower s = (pairBytes s).flatMap hexByte := by
  induction s using pairBytes.induct with
  | case1 hi lo rest ih =>
    simp only [List.all_cons, Bool.and_eq_true] at digits
    rw [List.length_cons, List.length_cons] at even
    rw [pairBytes, List.flatMap_cons, ← lower_pair digits.1 digits.2.1, ← ih (by omega) digits.2.2]
    rfl
  | case2 s short =>
    rcases s with - | ⟨c, - | ⟨d, rest⟩⟩
    · rfl
    · cases even
    · exact absurd rfl (short c d rest)

/-- What stands in hexadecimal text. -/
theorem mem_flatMap_hexByte {bytes : List Byte} {c : CodeUnit}
    (member : c ∈ bytes.flatMap hexByte) : ∃ d < 16, c = digitUnit d := by
  obtain ⟨b, -, digit⟩ := List.mem_flatMap.mp member
  have := b.isLt
  simp only [hexByte, List.mem_cons, List.not_mem_nil, or_false] at digit
  rcases digit with rfl | rfl
  · exact ⟨b.val / 16, by omega, rfl⟩
  · exact ⟨b.val % 16, by omega, rfl⟩

theorem length_flatMap_hexByte (bytes : List Byte) : (bytes.flatMap hexByte).length =
    2 * bytes.length := by
  induction bytes with
  | nil => rfl
  | cons b bytes ih =>
    rw [List.flatMap_cons, List.length_append, ih, List.length_cons, hexByte, List.length_cons,
      List.length_singleton]
    omega

theorem isDigit_of_lowerUnit {c : CodeUnit} {d : ℕ} (small : d < 16)
    (same : lowerUnit c = digitUnit d) : isDigit 16 c = true := by
  have value := congrArg Fin.val same
  rw [digitUnit_val small, lowerUnit] at value
  simp only [isDigit, digitValue]
  split at value
  next capital =>
    rw [Fin.val_ofNat] at value
    rw [if_neg (by omega), if_neg (by omega), if_pos (by split at value <;> omega)]
    exact decide_eq_true (by split at value <;> omega)
  next =>
    split at value
    · rw [if_pos (by omega)]
      exact decide_eq_true (by omega)
    · rw [if_neg (by omega), if_pos (by omega)]
      exact decide_eq_true (by omega)

/-- A text is read as the bytes that it is written as in lower case. -/
theorem pairBytes_of_lower {s : JsString} {bytes : List Byte}
    (written : lower s = bytes.flatMap hexByte) :
    s.length % 2 = 0 ∧ s.all (isDigit 16) = true ∧ pairBytes s = bytes := by
  have length : s.length = 2 * bytes.length := by
    rw [← length_flatMap_hexByte, ← written, lower, List.length_map]
  have digits : s.all (isDigit 16) = true := by
    refine List.all_eq_true.mpr fun c member => ?_
    have lowered : lowerUnit c ∈ bytes.flatMap hexByte := written ▸ List.mem_map_of_mem member
    obtain ⟨d, small, same⟩ := mem_flatMap_hexByte lowered
    exact isDigit_of_lowerUnit small same
  refine ⟨by omega, digits, flatMap_hexByte_inj ?_⟩
  rw [← lower_pairBytes (by omega) digits, written]

theorem lower_flatMap_hexByte (bytes : List Byte) :
    lower (bytes.flatMap hexByte) = bytes.flatMap hexByte := by
  refine (List.map_congr_left fun c member => ?_).trans (List.map_id _)
  obtain ⟨d, small, rfl⟩ := mem_flatMap_hexByte member
  have one := lower_spell (List.forall_mem_singleton.mpr small)
  exact (List.cons.inj one).1

end Js
