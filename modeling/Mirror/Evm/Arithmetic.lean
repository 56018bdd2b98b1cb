import Mathlib.Algebra.BigOperators.Group.List.Basic
import Mathlib.Algebra.Order.Ring.Int
import Mathlib.Data.Nat.Notation
import Mathlib.Data.ZMod.Defs
import Mathlib.Tactic.Common

/-! Machine words, checked arithmetic and reverting computations of the EVM. -/
namespace Evm

abbrev Uint8 := Fin 256

abbrev Uint16 := Fin 65536

abbrev Uint24 := Fin (2 ^ 24)

abbrev Uint64 := Fin (2 ^ 64)

abbrev Uint160 := Fin (2 ^ 160)

abbrev Uint256 := Fin (2 ^ 256)

/-- An address is the integer spelled by its 20 bytes. -/
abbrev Address := Fin (2 ^ 160)

abbrev Bytes32 := Fin (2 ^ 256)

/-! Numerals need to know that a word type is not empty, also those of other languages whose words
have one of these sizes. -/

instance (priority := 2000) octet_neZero : NeZero 256 := ⟨by decide⟩

instance (priority := 2000) doubleOctet_neZero : NeZero 65536 := ⟨by decide⟩

instance (priority := 2000) uint24_neZero : NeZero (2 ^ 24) := ⟨by decide⟩

instance (priority := 2000) uint64_neZero : NeZero (2 ^ 64) := ⟨by decide⟩

instance (priority := 2000) uint160_neZero : NeZero (2 ^ 160) := ⟨by decide⟩

instance (priority := 2000) uint256_neZero : NeZero (2 ^ 256) := ⟨by decide⟩

/-- `type(uint256).max`. -/
def maxUint256 : ℕ := 2 ^ 256 - 1

theorem maxUint256_lt : maxUint256 < 2 ^ 256 := by decide

/-! ### Reverting computations -/

section Revert

variable {ε α β : Type}

/-- Solidity's `if (p) revert e;`. -/
def revertIf (p : Prop) [Decidable p] (e : ε) : Except ε Unit :=
  if p then .error e else .ok ()

/-- A partial operation whose failure reverts with `e`. -/
def orRevert (x : Option α) (e : ε) : Except ε α :=
  match x with
  | some a => .ok a
  | none => .error e

theorem bind_ok (x : Except ε α) (f : α → Except ε β) (b : β) :
    (x >>= f) = .ok b ↔ ∃ a, x = .ok a ∧ f a = .ok b := by
  cases x <;> simp [bind, Except.bind]

theorem pure_ok (a b : α) : (pure a : Except ε α) = .ok b ↔ a = b := by
  simp [pure, Except.pure]

theorem revertIf_ok (p : Prop) [Decidable p] (e : ε) (u : Unit) :
    revertIf p e = .ok u ↔ ¬p := by
  unfold revertIf
  split <;> simp_all

theorem orRevert_ok (x : Option α) (e : ε) (a : α) : orRevert x e = .ok a ↔ x = some a := by
  cases x <;> simp [orRevert]

theorem mapError_ok {ε' : Type} (f : ε → ε') (x : Except ε α) (a : α) :
    x.mapError f = .ok a ↔ x = .ok a := by
  cases x <;> simp [Except.mapError]

theorem bind_error (x : Except ε α) (f : α → Except ε β) (e : ε) :
    (x >>= f) = .error e ↔ x = .error e ∨ ∃ a, x = .ok a ∧ f a = .error e := by
  cases x <;> simp [bind, Except.bind]

theorem pure_error (a : α) (e : ε) : (pure a : Except ε α) = .error e ↔ False := by
  simp [pure, Except.pure]

theorem revertIf_error (p : Prop) [Decidable p] (e e' : ε) :
    revertIf p e = .error e' ↔ p ∧ e = e' := by
  unfold revertIf
  split <;> simp_all

theorem ite_error (p : Prop) [Decidable p] (x y : Except ε α) (e : ε) :
    (if p then x else y) = .error e ↔ p ∧ x = .error e ∨ ¬p ∧ y = .error e := by
  by_cases h : p <;> simp [h]

theorem orRevert_error (x : Option α) (e e' : ε) :
    orRevert x e = .error e' ↔ x = none ∧ e = e' := by
  cases x <;> simp [orRevert]

end Revert

/-! ### Unsigned words -/

def checkedAdd (a b : Uint256) : Option Uint256 :=
  if h : a.val + b.val < 2 ^ 256 then some ⟨a.val + b.val, h⟩ else none

def checkedSub (a b : Uint256) : Option Uint256 :=
  if b.val ≤ a.val then some ⟨a.val - b.val, by omega⟩ else none

def checkedMul (a b : Uint256) : Option Uint256 :=
  if h : a.val * b.val < 2 ^ 256 then some ⟨a.val * b.val, h⟩ else none

/-- `a + b` on `uint64`. -/
def checkedAdd64 (a b : Uint64) : Option Uint64 :=
  if h : a.val + b.val < 2 ^ 64 then some ⟨a.val + b.val, h⟩ else none

def checkedDiv (a b : Uint256) : Option Uint256 :=
  if b = 0 then none else some ⟨a.val / b.val, Nat.lt_of_le_of_lt (Nat.div_le_self _ _) a.isLt⟩

/-- Division by a positive constant never reverts. -/
def quotient (a : Uint256) (d : ℕ) : Uint256 :=
  ⟨a.val / d, Nat.lt_of_le_of_lt (Nat.div_le_self _ _) a.isLt⟩

/-- A result that fits its word is enough: the bound of `c` carries the overflow check. -/
theorem checkedAdd_some (a b c : Uint256) : checkedAdd a b = some c ↔ c.val = a.val + b.val := by
  unfold checkedAdd
  split
  · simp only [Option.some.injEq, Fin.ext_iff]
    exact eq_comm
  · simp only [reduceCtorEq, false_iff]
    omega

theorem checkedSub_some (a b c : Uint256) : checkedSub a b = some c ↔ a.val = c.val + b.val := by
  unfold checkedSub
  split
  · simp only [Option.some.injEq, Fin.ext_iff]
    omega
  · simp only [reduceCtorEq, false_iff]
    omega

theorem checkedSub_of_le {a b : Uint256} (h : b.val ≤ a.val) : ∃ c, checkedSub a b = some c :=
  ⟨_, if_pos h⟩

theorem checkedMul_some (a b c : Uint256) : checkedMul a b = some c ↔ c.val = a.val * b.val := by
  unfold checkedMul
  split
  · simp only [Option.some.injEq, Fin.ext_iff]
    exact eq_comm
  · simp only [reduceCtorEq, false_iff]
    -- no word has the value of a product that overflows
    have := c.isLt
    omega

theorem checkedAdd64_some (a b c : Uint64) :
    checkedAdd64 a b = some c ↔ c.val = a.val + b.val := by
  unfold checkedAdd64
  split
  · simp only [Option.some.injEq, Fin.ext_iff]
    exact eq_comm
  · simp only [reduceCtorEq, false_iff]
    omega

theorem checkedDiv_some (a b c : Uint256) :
    checkedDiv a b = some c ↔ 0 < b.val ∧ c.val = a.val / b.val := by
  unfold checkedDiv
  split
  next zero => simp [zero]
  next nonzero =>
    have positive : 0 < b.val := Fin.pos_iff_ne_zero.mpr nonzero
    simp only [Option.some.injEq, Fin.ext_iff, positive, true_and]
    exact eq_comm

@[simp] theorem quotient_val (a : Uint256) (d : ℕ) : (quotient a d).val = a.val / d := rfl

/-! ### Signed words -/

/-- `int256`, as an integer in its range. -/
structure Int256 where
  val : ℤ
  lower : -2 ^ 255 ≤ val
  upper : val < 2 ^ 255
  deriving DecidableEq

namespace Int256

@[ext] theorem ext (a b : Int256) (h : a.val = b.val) : a = b := by
  cases a; cases b; simp_all

instance : Zero Int256 := ⟨⟨0, by decide, by decide⟩⟩

@[simp] theorem zero_val : (0 : Int256).val = 0 := rfl

/-- `int256(a)` reads the word in two's complement. -/
def ofUint256 (a : Uint256) : Int256 :=
  if h : a.val < 2 ^ 255 then ⟨a.val, by omega, by omega⟩
  else ⟨(a.val : ℤ) - 2 ^ 256, by omega, by omega⟩

/-- `uint256(z)` writes the word in two's complement. -/
def toUint256 (z : Int256) : Uint256 :=
  ⟨(z.val % 2 ^ 256).toNat, by
    have := Int.emod_lt_of_pos z.val (show (0 : ℤ) < 2 ^ 256 by decide)
    omega⟩

/-- Checked negation panics on `type(int256).min` alone. -/
def checkedNeg (z : Int256) : Option Int256 :=
  if h : z.val = -2 ^ 255 then none
  else some ⟨-z.val, by have := z.upper; omega, by have := z.lower; omega⟩

theorem ofUint256_of_lt (a : Uint256) (h : a.val < 2 ^ 255) : (ofUint256 a).val = a.val := by
  simp only [ofUint256, dif_pos h]

theorem toUint256_of_nonneg (z : Int256) (h : 0 ≤ z.val) : (toUint256 z).val = z.val.toNat := by
  have := z.upper
  simp only [toUint256]
  rw [Int.emod_eq_of_lt h (by omega)]

theorem checkedNeg_some (z w : Int256) : z.checkedNeg = some w ↔ w.val = -z.val := by
  unfold checkedNeg
  -- `-type(int256).min` is no `int256`, so the bound of `w` rules the panic out
  have := w.upper
  split
  · simp only [reduceCtorEq, false_iff]
    omega
  · simp only [Option.some.injEq, Int256.ext_iff]
    exact eq_comm

end Int256

/-! ### Functions that add up to within one unit, such as quotients rounded either way -/

/-- Splitting an argument in two changes the value by at most one. -/
structure NearlyAdditive (f : ℕ → ℕ) : Prop where
  whole_le : ∀ a b, f (a + b) ≤ f a + f b + 1
  parts_le : ∀ a b, f a + f b ≤ f (a + b) + 1

/-- Splitting it in `k` changes the value by at most `k - 1`. -/
theorem NearlyAdditive.sum {f : ℕ → ℕ} (h : NearlyAdditive f) {parts : List ℕ}
    (some : parts ≠ []) :
    f parts.sum ≤ (parts.map f).sum + (parts.length - 1) ∧
      (parts.map f).sum ≤ f parts.sum + (parts.length - 1) := by
  -- every part after the first is one more cut
  induction parts with
  | nil => exact absurd rfl some
  | cons p rest ih =>
    by_cases last : rest = []
    · subst last
      simp
    · obtain ⟨whole, sum⟩ := ih last
      have := h.whole_le p rest.sum
      have := h.parts_le p rest.sum
      have cuts : 0 < rest.length := List.length_pos_iff.mpr last
      simp only [List.sum_cons, List.map_cons, List.length_cons, Nat.add_sub_cancel]
      omega

end Evm
