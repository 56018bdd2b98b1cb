import Mirror.Js.Text
import Mathlib.Tactic.Ring

/-! Natural numbers in decimal: what `decimal` writes is read back by `digitsValue`. -/
namespace Js

theorem decimal_digits (n : ℕ) :
    decimal n = (Nat.toDigits 10 n).flatMap fun c => utf16 c.toNat := by
  have digits : (Nat.repr n).toList = Nat.toDigits 10 n := by simp [Nat.repr]
  rw [decimal, text, digits]

theorem utf16_digitChar {d : ℕ} (small : d < 10) :
    utf16 (Nat.digitChar d).toNat = [digitUnit d] := by
  have each : ∀ d < 10, utf16 (Nat.digitChar d).toNat = [digitUnit d] := by decide
  exact each d small

theorem decimal_of_lt {n : ℕ} (small : n < 10) : decimal n = [digitUnit n] := by
  rw [decimal_digits, Nat.toDigits_of_lt_base small, List.flatMap_singleton, utf16_digitChar small]

theorem decimal_of_le {n : ℕ} (large : 10 ≤ n) :
    decimal n = decimal (n / 10) ++ [digitUnit (n % 10)] := by
  rw [decimal_digits, Nat.toDigits_of_base_le (by decide) large, List.flatMap_append,
    ← decimal_digits, List.flatMap_singleton, utf16_digitChar (Nat.mod_lt n (by decide))]

theorem decimal_ne_nil (n : ℕ) : decimal n ≠ [] := by
  rcases Nat.lt_or_ge n 10 with small | large
  · rw [decimal_of_lt small]
    exact List.cons_ne_nil _ _
  · rw [decimal_of_le large]
    exact List.append_ne_nil_of_right_ne_nil _ (List.cons_ne_nil _ _)

theorem isDigit_digitUnit {d : ℕ} (small : d < 10) : isDigit 10 (digitUnit d) = true := by
  have each : ∀ d < 10, isDigit 10 (digitUnit d) = true := by decide
  exact each d small

theorem exists_digitUnit {c : CodeUnit} (digit : isDigit 10 c = true) :
    ∃ d < 10, c = digitUnit d := by
  simp only [isDigit, digitValue] at digit
  split at digit
  next d value =>
    split at value
    next range =>
      refine ⟨c.val - 0x30, by omega, Fin.ext ?_⟩
      rw [digitUnit, if_pos (by omega), Fin.val_ofNat]
      omega
    next =>
      -- letters are worth ten and more
      have small := of_decide_eq_true digit
      split at value
      next =>
        cases value
        omega
      next =>
        split at value
        next =>
          cases value
          omega
        next => cases value
  next => cases digit

theorem decimal_isDigit (n : ℕ) : ∀ c ∈ decimal n, isDigit 10 c = true := by
  induction n using Nat.strong_induction_on with
  | _ n ih =>
    rcases Nat.lt_or_ge n 10 with small | large
    · rw [decimal_of_lt small]
      exact List.forall_mem_singleton.mpr (isDigit_digitUnit small)
    · rw [decimal_of_le large, List.forall_mem_append]
      refine ⟨ih (n / 10) (by omega), List.forall_mem_singleton.mpr (isDigit_digitUnit ?_)⟩
      omega

theorem digitsValue_append (base : ℕ) (s t : JsString) :
    digitsValue base (s ++ t) = digitsValue base s * base ^ t.length + digitsValue base t := by
  have each : ∀ (t : JsString) (n : ℕ), t.foldl (fun n c => n * base + (digitValue c).getD 0) n =
      n * base ^ t.length + digitsValue base t := by
    intro t
    induction t with
    | nil => simp [digitsValue]
    | cons c t ih =>
      intro n
      have first : digitsValue base (c :: t) = (digitValue c).getD 0 * base ^ t.length +
          digitsValue base t := by
        rw [digitsValue, List.foldl_cons, ih, Nat.zero_mul, Nat.zero_add]
      rw [List.foldl_cons, ih, first, List.length_cons]
      ring
  rw [digitsValue, List.foldl_append]
  exact each t _

theorem digitsValue_digitUnit {d : ℕ} (small : d < 10) : digitsValue 10 [digitUnit d] = d := by
  have each : ∀ d < 10, digitsValue 10 [digitUnit d] = d := by decide
  exact each d small

@[simp] theorem digitsValue_decimal (n : ℕ) : digitsValue 10 (decimal n) = n := by
  induction n using Nat.strong_induction_on with
  | _ n ih =>
    rcases Nat.lt_or_ge n 10 with small | large
    · rw [decimal_of_lt small, digitsValue_digitUnit small]
    · rw [decimal_of_le large, digitsValue_append, ih (n / 10) (by omega),
        digitsValue_digitUnit (Nat.mod_lt n (by decide)), List.length_singleton]
      omega

theorem digitsValue_zeros (k : ℕ) : digitsValue 10 (List.replicate k 0x30) = 0 := by
  induction k with
  | zero => rfl
  | succ k ih =>
    rw [List.replicate_succ', digitsValue_append, ih]
    decide

theorem decimal_length_le_iff {n k : ℕ} (positive : 0 < k) :
    (decimal n).length ≤ k ↔ n < 10 ^ k := by
  have each : ∀ c ∈ Nat.toDigits 10 n, (utf16 c.toNat).length = 1 := by
    intro c member
    have digit : c.isDigit = true :=
      Nat.isDigit_of_mem_toDigits (show 0 < 10 by decide) (Nat.le_refl 10) member
    have range : c.toNat ≤ 0x39 := by
      simp only [Char.isDigit, Bool.and_eq_true, decide_eq_true_eq, ge_iff_le,
        UInt32.le_iff_toNat_le] at digit
      exact digit.2
    rw [utf16, if_pos (by omega), List.length_singleton]
  have length : (decimal n).length = (Nat.toDigits 10 n).length := by
    rw [decimal_digits, List.length_flatMap, List.map_congr_left each, List.map_const',
      List.sum_replicate_nat, mul_one]
  rw [length, Nat.length_toDigits_le_iff (by decide) positive]

/-- A number from `10 ^ (k - 1)` below `10 ^ k` has `k` digits. -/
theorem decimal_length {n k : ℕ} (positive : 0 < k) (low : 10 ^ (k - 1) ≤ n) (high : n < 10 ^ k) :
    (decimal n).length = k := by
  refine le_antisymm ((decimal_length_le_iff positive).mpr high) (not_lt.mp fun short => ?_)
  rcases Nat.lt_or_ge 1 k with more | one
  · have := (decimal_length_le_iff (n := n) (k := k - 1) (by omega)).mp (by omega)
    omega
  · have := List.length_pos_iff.mpr (decimal_ne_nil n)
    omega

/-- No leading zeros. -/
theorem decimal_head {n : ℕ} (nonzero : n ≠ 0) : ∃ d rest, 0 < d ∧ d < 10 ∧
    decimal n = digitUnit d :: rest := by
  induction n using Nat.strong_induction_on with
  | _ n ih =>
    rcases Nat.lt_or_ge n 10 with small | large
    · exact ⟨n, [], Nat.pos_of_ne_zero nonzero, small, decimal_of_lt small⟩
    · obtain ⟨d, rest, positive, small, head⟩ := ih (n / 10) (by omega) (by omega)
      exact ⟨d, rest ++ [digitUnit (n % 10)], positive, small, by
        rw [decimal_of_le large, head, List.cons_append]⟩

end Js
