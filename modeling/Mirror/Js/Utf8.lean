import Mirror.Js.Text

/-! UTF-8 as a code: what `utf8Encode` writes, `utf8Decode` reads back. -/
namespace Js

def IsSurrogate (c : CodeUnit) : Prop := 0xD800 ≤ c.val ∧ c.val < 0xE000

def IsLeadSurrogate (c : CodeUnit) : Prop := 0xD800 ≤ c.val ∧ c.val < 0xDC00

def IsTrailSurrogate (c : CodeUnit) : Prop := 0xDC00 ≤ c.val ∧ c.val < 0xE000

/-- Surrogates stand in pairs, a leading one before a trailing one. -/
inductive WellFormed : JsString → Prop
  | nil : WellFormed []
  | unit {c : CodeUnit} {rest : JsString} (single : ¬IsSurrogate c) (more : WellFormed rest) :
    WellFormed (c :: rest)
  | pair {c d : CodeUnit} {rest : JsString} (lead : IsLeadSurrogate c) (trail : IsTrailSurrogate d)
    (more : WellFormed rest) : WellFormed (c :: d :: rest)

theorem WellFormed.append {s t : JsString} (hs : WellFormed s) (ht : WellFormed t) :
    WellFormed (s ++ t) := by
  induction hs with
  | nil => exact ht
  | unit single _ ih => exact .unit single ih
  | pair lead trail _ ih => exact .pair lead trail ih

theorem wellFormed_of_ascii {s : JsString} (ascii : ∀ c ∈ s, c.val < 0x80) : WellFormed s := by
  induction s with
  | nil => exact .nil
  | cons c rest ih =>
    rw [List.forall_mem_cons] at ascii
    refine .unit (fun surrogate => ?_) (ih ascii.2)
    have := surrogate.1
    omega

theorem wellFormed_of_all {s : JsString} (all : s.all (fun c => c.val < 0x80) = true) :
    WellFormed s :=
  wellFormed_of_ascii fun c member => of_decide_eq_true (List.all_eq_true.mp all c member)

/-! ### One character -/

/-- A code point that is no surrogate. -/
def IsScalar (point : ℕ) : Prop := point < 0xD800 ∨ (0xE000 ≤ point ∧ point < 0x110000)

theorem codePoints_lead {b : Byte} {begun : Partial} (lead : leadByte b = .inr begun)
    (rest : List Byte) : codePoints none (b :: rest) = codePoints (some begun) rest := by
  rw [codePoints, lead]

theorem codePoints_last {point lower upper : ℕ} {b : Byte} (within : lower ≤ b.val ∧ b.val ≤ upper)
    (rest : List Byte) :
    codePoints (some ⟨point, 0, lower, upper⟩) (b :: rest) =
      (point * 0x40 + (b.val - 0x80)) :: codePoints none rest := by
  rw [codePoints, if_pos within]

theorem codePoints_more {point missing lower upper : ℕ} {b : Byte}
    (within : lower ≤ b.val ∧ b.val ≤ upper) (rest : List Byte) :
    codePoints (some ⟨point, missing + 1, lower, upper⟩) (b :: rest) =
      codePoints (some ⟨point * 0x40 + (b.val - 0x80), missing, 0x80, 0xBF⟩) rest := by
  rw [codePoints, if_pos within]

theorem leadByte_two {b : ℕ} (low : 0xC2 ≤ b) (high : b < 0xE0) :
    leadByte b = .inr ⟨b - 0xC0, 0, 0x80, 0xBF⟩ := by
  rw [leadByte, if_neg (by omega), if_neg (by omega), if_pos high]

theorem leadByte_three {b : ℕ} (low : 0xE0 ≤ b) (high : b < 0xF0) :
    leadByte b = .inr ⟨b - 0xE0, 1, if b = 0xE0 then 0xA0 else 0x80,
      if b = 0xED then 0x9F else 0xBF⟩ := by
  rw [leadByte, if_neg (by omega), if_neg (by omega), if_neg (by omega), if_pos high]

theorem leadByte_four {b : ℕ} (low : 0xF0 ≤ b) (high : b < 0xF5) :
    leadByte b = .inr ⟨b - 0xF0, 2, if b = 0xF0 then 0x90 else 0x80,
      if b = 0xF4 then 0x8F else 0xBF⟩ := by
  rw [leadByte, if_neg (by omega), if_neg (by omega), if_neg (by omega), if_neg (by omega),
    if_pos high]

theorem byte_val {n : ℕ} (small : n < 256) : (Fin.ofNat 256 n).val = n :=
  Nat.mod_eq_of_lt small

theorem codePoints_encodePoint {point : ℕ} (scalar : IsScalar point) (rest : List Byte) :
    codePoints none (encodePoint point ++ rest) = point :: codePoints none rest := by
  have bound : point < 0x110000 := by
    rcases scalar with low | high <;> omega
  -- by the number of bytes, as `encodePoint` writes them
  unfold encodePoint
  split
  next one =>
    have lead : leadByte (Fin.ofNat 256 point).val = .inl point := by
      rw [byte_val (by omega), leadByte, if_pos one]
    simp only [List.cons_append, List.nil_append, codePoints, lead]
  next =>
    split
    next two =>
      have first := byte_val (n := 0xC0 + point / 0x40) (by omega)
      have second := byte_val (n := 0x80 + point % 0x40) (by omega)
      rw [List.cons_append, codePoints_lead (leadByte_two (by omega) (by omega)),
        List.cons_append, codePoints_last (by omega), first, second, List.nil_append]
      have value : (0xC0 + point / 0x40 - 0xC0) * 0x40 + (0x80 + point % 0x40 - 0x80) = point := by
        omega
      rw [value]
    next =>
      split
      next three =>
        have first := byte_val (n := 0xE0 + point / 0x1000) (by omega)
        have second := byte_val (n := 0x80 + point / 0x40 % 0x40) (by omega)
        have third := byte_val (n := 0x80 + point % 0x40) (by omega)
        -- the second byte leaves out overlong forms and surrogates
        have within : (if 0xE0 + point / 0x1000 = 0xE0 then 0xA0 else 0x80) ≤
            0x80 + point / 0x40 % 0x40 ∧ 0x80 + point / 0x40 % 0x40 ≤
            if 0xE0 + point / 0x1000 = 0xED then 0x9F else 0xBF := by
          unfold IsScalar at scalar
          split <;> split <;> omega
        rw [List.cons_append, codePoints_lead (leadByte_three (by omega) (by omega)), first,
          List.cons_append, codePoints_more (by rw [second]; exact within), second,
          List.cons_append, codePoints_last (by omega), third, List.nil_append]
        have value : ((0xE0 + point / 0x1000 - 0xE0) * 0x40 + (0x80 + point / 0x40 % 0x40 - 0x80)) *
            0x40 + (0x80 + point % 0x40 - 0x80) = point := by omega
        rw [value]
      next four =>
        have first := byte_val (n := 0xF0 + point / 0x40000) (by omega)
        have second := byte_val (n := 0x80 + point / 0x1000 % 0x40) (by omega)
        have third := byte_val (n := 0x80 + point / 0x40 % 0x40) (by omega)
        have fourth := byte_val (n := 0x80 + point % 0x40) (by omega)
        have within : (if 0xF0 + point / 0x40000 = 0xF0 then 0x90 else 0x80) ≤
            0x80 + point / 0x1000 % 0x40 ∧ 0x80 + point / 0x1000 % 0x40 ≤
            if 0xF0 + point / 0x40000 = 0xF4 then 0x8F else 0xBF := by
          split <;> split <;> omega
        rw [List.cons_append, codePoints_lead (leadByte_four (by omega) (by omega)), first,
          List.cons_append, codePoints_more (by rw [second]; exact within), second,
          List.cons_append, codePoints_more (by omega), third,
          List.cons_append, codePoints_last (by omega), fourth, List.nil_append]
        have value : (((0xF0 + point / 0x40000 - 0xF0) * 0x40 +
            (0x80 + point / 0x1000 % 0x40 - 0x80)) * 0x40 + (0x80 + point / 0x40 % 0x40 - 0x80)) *
            0x40 + (0x80 + point % 0x40 - 0x80) = point := by omega
        rw [value]

/-! ### Texts -/

theorem utf8Decode_encodePoint {point : ℕ} (scalar : IsScalar point) (rest : List Byte) :
    utf8Decode (encodePoint point ++ rest) = utf16 point ++ utf8Decode rest := by
  rw [utf8Decode, codePoints_encodePoint scalar, List.flatMap_cons, utf8Decode]

/-- A unit that begins no pair stands for itself. -/
theorem utf8Encode_unit {c : CodeUnit} (single : ¬IsSurrogate c) (rest : JsString) :
    utf8Encode (c :: rest) = encodePoint c.val ++ utf8Encode rest := by
  unfold IsSurrogate at single
  cases rest with
  | nil => simp only [utf8Encode, if_neg single, List.append_nil]
  | cons d rest => rw [utf8Encode, if_neg (by omega), if_neg single]

theorem utf8Encode_pair {c d : CodeUnit} (lead : IsLeadSurrogate c) (trail : IsTrailSurrogate d)
    (rest : JsString) :
    utf8Encode (c :: d :: rest) =
      encodePoint (0x10000 + (c.val - 0xD800) * 0x400 + (d.val - 0xDC00)) ++ utf8Encode rest := by
  rw [utf8Encode, if_pos ⟨lead.1, lead.2, trail.1, trail.2⟩]

theorem utf8Encode_append {s : JsString} (wellFormed : WellFormed s) (t : JsString) :
    utf8Encode (s ++ t) = utf8Encode s ++ utf8Encode t := by
  induction wellFormed with
  | nil => rfl
  | unit single _ ih =>
    rw [List.cons_append, utf8Encode_unit single, utf8Encode_unit single, ih, List.append_assoc]
  | pair lead trail _ ih =>
    rw [List.cons_append, List.cons_append, utf8Encode_pair lead trail,
      utf8Encode_pair lead trail, ih, List.append_assoc]

theorem utf16_unit (c : CodeUnit) : utf16 c.val = [c] := by
  have := c.isLt
  rw [utf16, if_pos (by omega)]
  exact congrArg (fun d => [d]) (Fin.ext (Nat.mod_eq_of_lt c.isLt))

theorem utf16_pair {c d : CodeUnit} (lead : IsLeadSurrogate c) (trail : IsTrailSurrogate d) :
    utf16 (0x10000 + (c.val - 0xD800) * 0x400 + (d.val - 0xDC00)) = [c, d] := by
  unfold IsLeadSurrogate at lead
  unfold IsTrailSurrogate at trail
  rw [utf16, if_neg (by omega)]
  have first : Fin.ofNat 65536 (0xD800 + (0x10000 + (c.val - 0xD800) * 0x400 + (d.val - 0xDC00) -
      0x10000) / 0x400) = c := Fin.ext (by rw [Fin.val_ofNat]; omega)
  have second : Fin.ofNat 65536 (0xDC00 + (0x10000 + (c.val - 0xD800) * 0x400 + (d.val - 0xDC00) -
      0x10000) % 0x400) = d := Fin.ext (by rw [Fin.val_ofNat]; omega)
  rw [first, second]

/-- A text without surrogates on their own is read back from its bytes. -/
theorem utf8Decode_utf8Encode {s : JsString} (wellFormed : WellFormed s) :
    utf8Decode (utf8Encode s) = s := by
  induction wellFormed with
  | nil => rfl
  | @unit c rest single _ ih =>
    have := c.isLt
    have scalar : IsScalar c.val := by
      unfold IsSurrogate at single
      unfold IsScalar
      omega
    rw [utf8Encode_unit single, utf8Decode_encodePoint scalar, ih, utf16_unit]
    rfl
  | @pair c d rest lead trail _ ih =>
    have scalar : IsScalar (0x10000 + (c.val - 0xD800) * 0x400 + (d.val - 0xDC00)) := by
      unfold IsLeadSurrogate at lead
      unfold IsTrailSurrogate at trail
      unfold IsScalar
      omega
    rw [utf8Encode_pair lead trail, utf8Decode_encodePoint scalar, ih, utf16_pair lead trail]
    rfl

end Js
