import Mathlib.Data.List.Basic
import Mirror.Js.Text

/-! Base64 text: three bytes are four digits, and `=` fills up the last four. -/
namespace Js

/-- A base64 digit. -/
def sextetUnit (d : ℕ) : CodeUnit :=
  if d < 26 then Fin.ofNat _ (0x41 + d)
  else if d < 52 then Fin.ofNat _ (0x61 + (d - 26))
  else if d < 62 then Fin.ofNat _ (0x30 + (d - 52))
  else if d = 62 then 0x2B
  else 0x2F

def sextetValue (c : CodeUnit) : Option ℕ :=
  if 0x41 ≤ c.val ∧ c.val ≤ 0x5A then some (c.val - 0x41)
  else if 0x61 ≤ c.val ∧ c.val ≤ 0x7A then some (c.val - 0x61 + 26)
  else if 0x30 ≤ c.val ∧ c.val ≤ 0x39 then some (c.val - 0x30 + 52)
  else if c = 0x2B then some 62
  else if c = 0x2F then some 63
  else none

/-- The digits of a byte string. The last one is filled up with zero bits. -/
def sextets : List Byte → List ℕ
  | a :: b :: c :: rest =>
    a.val / 4 :: (a.val % 4 * 16 + b.val / 16) :: (b.val % 16 * 4 + c.val / 64) :: c.val % 64 ::
      sextets rest
  | [a, b] => [a.val / 4, a.val % 4 * 16 + b.val / 16, b.val % 16 * 4]
  | [a] => [a.val / 4, a.val % 4 * 16]
  | [] => []

/-- The byte string of digits, without the bits that are left over. One digit is no byte. -/
def sextetBytes : List ℕ → Option (List Byte)
  | p :: q :: r :: s :: rest =>
    (sextetBytes rest).map ([Fin.ofNat _ (p * 4 + q / 16), Fin.ofNat _ (q % 16 * 16 + r / 4),
      Fin.ofNat _ (r % 4 * 64 + s)] ++ ·)
  | [p, q, r] => some [Fin.ofNat _ (p * 4 + q / 16), Fin.ofNat _ (q % 16 * 16 + r / 4)]
  | [p, q] => some [Fin.ofNat _ (p * 4 + q / 16)]
  | [_] => none
  | [] => some []

/-- `Buffer.from(bytes).toString("base64")`. -/
def base64Encode (bytes : List Byte) : JsString :=
  (sextets bytes).map sextetUnit ++ List.replicate ((3 - bytes.length % 3) % 3) 0x3D

def isAsciiWhitespace (c : CodeUnit) : Bool := c.val ∈ [0x09, 0x0A, 0x0C, 0x0D, 0x20]

/-- One `=` off the end. -/
def dropFill (s : JsString) : JsString := if s.getLast? = some 0x3D then s.dropLast else s

/-- `atob(s)` as bytes, which throws where this is `none`. -/
def base64Decode (s : JsString) : Option (List Byte) :=
  let s := s.filter fun c => !isAsciiWhitespace c
  -- filling counts only where it fills up the last four
  let s := if s.length % 4 = 0 then dropFill (dropFill s) else s
  (s.mapM sextetValue).bind sextetBytes

/-! ### What is encoded is decoded -/

theorem sextets_small (bytes : List Byte) : ∀ d ∈ sextets bytes, d < 64 := by
  fun_induction sextets bytes with
  | case1 a b c rest ih =>
    simp only [List.forall_mem_cons]
    exact ⟨by omega, by omega, by omega, by omega, ih⟩
  | case2 a b =>
    simp only [List.forall_mem_cons]
    exact ⟨by omega, by omega, by omega, List.forall_mem_nil _⟩
  | case3 a =>
    simp only [List.forall_mem_cons]
    exact ⟨by omega, by omega, List.forall_mem_nil _⟩
  | case4 => exact List.forall_mem_nil _

theorem length_sextets (bytes : List Byte) :
    (sextets bytes).length = (bytes.length * 4 + 2) / 3 := by
  fun_induction sextets bytes with
  | case1 a b c rest ih =>
    simp only [List.length_cons, ih]
    omega
  | case2 a b => simp only [List.length_cons, List.length_nil]
  | case3 a => simp only [List.length_cons, List.length_nil]
  | case4 => rfl

/-- A byte whose bits are in two digits. -/
theorem byte_split {n : ℕ} {b : Byte} (same : n = b.val) : (Fin.ofNat 256 n) = b :=
  Fin.ext (by rw [Fin.val_ofNat, same, Nat.mod_eq_of_lt b.isLt])

theorem sextetBytes_sextets (bytes : List Byte) : sextetBytes (sextets bytes) = some bytes := by
  -- three bytes at a time, as both functions go
  fun_induction sextets bytes with
  | case1 a b c rest ih =>
    rw [sextetBytes, ih, Option.map_some, byte_split (b := a) (by omega),
      byte_split (b := b) (by omega), byte_split (b := c) (by omega)]
    rfl
  | case2 a b =>
    rw [sextetBytes, byte_split (b := a) (by omega), byte_split (b := b) (by omega)]
  | case3 a => rw [sextetBytes, byte_split (b := a) (by omega)]
  | case4 => rfl

/-- The alphabet: each digit is read as itself, and none of them is filling or white space. -/
theorem sextetUnit_read {d : ℕ} (small : d < 64) : sextetValue (sextetUnit d) = some d ∧
    sextetUnit d ≠ 0x3D ∧ isAsciiWhitespace (sextetUnit d) = false := by
  revert d
  decide

theorem mapM_sextetUnit {ds : List ℕ} (small : ∀ d ∈ ds, d < 64) :
    (ds.map sextetUnit).mapM sextetValue = some ds := by
  induction ds with
  | nil => rfl
  | cons d ds ih =>
    rw [List.forall_mem_cons] at small
    rw [List.map_cons, List.mapM_cons, (sextetUnit_read small.1).1, ih small.2]
    rfl

theorem dropFill_concat (s : JsString) : dropFill (s ++ [0x3D]) = s := by
  rw [dropFill, List.getLast?_concat, if_pos rfl, List.dropLast_concat]

theorem dropFill_digits {ds : List ℕ} (small : ∀ d ∈ ds, d < 64) :
    dropFill (ds.map sextetUnit) = ds.map sextetUnit := by
  refine if_neg fun filled => ?_
  obtain ⟨d, member, same⟩ := List.mem_map.mp (List.mem_of_getLast? filled)
  exact (sextetUnit_read (small d member)).2.1 same

theorem dropFill_filled {ds : List ℕ} (small : ∀ d ∈ ds, d < 64) {k : ℕ} (few : k ≤ 2) :
    dropFill (dropFill (ds.map sextetUnit ++ List.replicate k 0x3D)) = ds.map sextetUnit := by
  obtain rfl | rfl | rfl : k = 0 ∨ k = 1 ∨ k = 2 := by omega
  · rw [List.replicate_zero, List.append_nil, dropFill_digits small, dropFill_digits small]
  · rw [List.replicate_one, dropFill_concat, dropFill_digits small]
  · rw [List.replicate_succ', ← List.append_assoc, dropFill_concat, List.replicate_one,
      dropFill_concat]

/-- The white space that is skipped is not among the digits. -/
theorem base64Encode_unspaced (bytes : List Byte) :
    (base64Encode bytes).filter (fun c => !isAsciiWhitespace c) = base64Encode bytes := by
  refine List.filter_eq_self.mpr fun c member => ?_
  rcases List.mem_append.mp member with digit | fill
  · obtain ⟨d, inside, rfl⟩ := List.mem_map.mp digit
    rw [(sextetUnit_read (sextets_small bytes d inside)).2.2]
    rfl
  · rw [List.eq_of_mem_replicate fill]
    rfl

theorem base64Decode_base64Encode (bytes : List Byte) :
    base64Decode (base64Encode bytes) = some bytes := by
  -- digits and filling together are whole groups of four
  have fours : (base64Encode bytes).length % 4 = 0 := by
    rw [base64Encode, List.length_append, List.length_map, length_sextets, List.length_replicate]
    obtain rest | rest | rest : bytes.length % 3 = 0 ∨ bytes.length % 3 = 1 ∨
      bytes.length % 3 = 2 := by omega
    all_goals
      rw [rest]
      omega
  rw [base64Decode, base64Encode_unspaced]
  simp only [fours, if_true]
  rw [base64Encode, dropFill_filled (sextets_small bytes) (by omega),
    mapM_sextetUnit (sextets_small bytes), Option.bind_some, sextetBytes_sextets]

end Js
