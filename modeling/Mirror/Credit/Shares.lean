import Mathlib.Algebra.Order.Ring.Nat
import Mathlib.Data.Nat.Notation
import Mathlib.Tactic.Ring

/-!
Pools owned in shares. A share is worth its part of the assets, rounded down, and new shares are
issued for new assets.
-/
namespace Credit

structure SharePool where
  assets : ℕ
  shares : ℕ
  deriving DecidableEq

namespace SharePool

variable (p : SharePool) {a issued s : ℕ}

/-- What `s` shares are worth. -/
def value (s : ℕ) : ℕ := s * p.assets / p.shares

/-- The pool with `a` more assets, for which shares were issued. -/
def issue (a issued : ℕ) : SharePool := ⟨p.assets + a, p.shares + issued⟩

/-- What the new shares are worth at the old price, unrounded, is paid for. -/
def Fair (a issued : ℕ) : Prop := issued * p.assets ≤ a * p.shares

variable {p}

/-- Rounding aside, whoever holds `s` shares of the pool is owed their part of what was paid in. -/
theorem value_le_issue_iff (owned : 0 < p.shares) :
    p.value s ≤ (p.issue a issued).value s ↔
      issued * p.value s ≤ s * a + s * p.assets % p.shares := by
  have parts := Nat.div_add_mod (s * p.assets) p.shares
  unfold issue value
  dsimp only
  -- multiplied out, the floor before is the product less its remainder
  rw [Nat.le_div_iff_mul_le (Nat.add_pos_left owned _), Nat.mul_add, Nat.mul_add,
    Nat.mul_comm _ p.shares, Nat.mul_comm _ issued]
  omega

/-- New shares return no more than was paid for them exactly if they are not worth a whole unit
more. -/
theorem issue_value_le_iff (owned : 0 < p.shares) :
    (p.issue a issued).value issued ≤ a ↔
      issued * p.assets < a * p.shares + p.shares + issued := by
  unfold issue value
  dsimp only
  rw [← Nat.lt_succ_iff, Nat.div_lt_iff_lt_mul (Nat.add_pos_left owned _)]
  have left : issued * (p.assets + a) = issued * p.assets + a * issued := by ring
  have right : (a + 1) * (p.shares + issued) =
      a * p.shares + a * issued + p.shares + issued := by ring
  rw [left, Nat.succ_eq_add_one, right]
  omega

/-- Shares that are paid for dilute nobody. -/
theorem Fair.value_le (fair : p.Fair a issued) (owned : 0 < p.shares) :
    p.value s ≤ (p.issue a issued).value s := by
  rw [value_le_issue_iff owned]
  -- the floor is no more than the quotient
  have part : p.value s * p.shares ≤ s * p.assets := Nat.div_mul_le_self _ _
  have scaled : issued * p.value s * p.shares ≤ s * a * p.shares :=
    calc issued * p.value s * p.shares = issued * (p.value s * p.shares) := Nat.mul_assoc _ _ _
      _ ≤ issued * (s * p.assets) := Nat.mul_le_mul_left _ part
      _ = s * (issued * p.assets) := Nat.mul_left_comm _ _ _
      _ ≤ s * (a * p.shares) := Nat.mul_le_mul_left _ fair
      _ = s * a * p.shares := (Nat.mul_assoc _ _ _).symm
  exact (Nat.le_of_mul_le_mul_right scaled owned).trans (Nat.le_add_right _ _)

/-- Shares that are paid for return no more. -/
theorem Fair.return_le (fair : p.Fair a issued) (owned : 0 < p.shares) :
    (p.issue a issued).value issued ≤ a := by
  rw [issue_value_le_iff owned]
  unfold Fair at fair
  omega

/-- As many shares as the payment buys, rounded down, are paid for. -/
theorem fair_of_rounded : p.Fair a (a * p.shares / p.assets) := by
  unfold Fair
  exact Nat.div_mul_le_self _ _

/-- Shares of a pool without assets cost nothing. -/
theorem fair_of_empty (empty : p.assets = 0) : p.Fair a issued := by
  rw [Fair, empty, Nat.mul_zero]
  exact Nat.zero_le _

/-! ### The price of a share -/

/-- The pool without `s` of its shares and what they are worth. -/
def redeem (p : SharePool) (s : ℕ) : SharePool := ⟨p.assets - p.value s, p.shares - s⟩

/-- A share of `q` has no less behind it than a share of `p`. -/
def NoCheaper (p q : SharePool) : Prop := p.assets * q.shares ≤ q.assets * p.shares

variable {q r : SharePool}

theorem NoCheaper.refl (p : SharePool) : p.NoCheaper p := le_rfl

theorem NoCheaper.trans (owned : 0 < q.shares) (first : p.NoCheaper q) (second : q.NoCheaper r) :
    p.NoCheaper r := by
  refine Nat.le_of_mul_le_mul_right ?_ owned
  calc p.assets * r.shares * q.shares = p.assets * q.shares * r.shares := Nat.mul_right_comm _ _ _
    _ ≤ q.assets * p.shares * r.shares := Nat.mul_le_mul_right _ first
    _ = q.assets * r.shares * p.shares := Nat.mul_right_comm _ _ _
    _ ≤ r.assets * q.shares * p.shares := Nat.mul_le_mul_right _ second
    _ = r.assets * p.shares * q.shares := Nat.mul_right_comm _ _ _

/-- Where a share has no less behind it, any number of them is worth no less. -/
theorem NoCheaper.value_le (dear : p.NoCheaper q) (owned : 0 < p.shares) (owned' : 0 < q.shares)
    (s : ℕ) : p.value s ≤ q.value s := by
  unfold value
  rw [Nat.le_div_iff_mul_le owned']
  have part : s * p.assets / p.shares * p.shares ≤ s * p.assets := Nat.div_mul_le_self _ _
  refine Nat.le_of_mul_le_mul_right ?_ owned
  calc s * p.assets / p.shares * q.shares * p.shares
      = s * p.assets / p.shares * p.shares * q.shares := Nat.mul_right_comm _ _ _
    _ ≤ s * p.assets * q.shares := Nat.mul_le_mul_right _ part
    _ = s * (p.assets * q.shares) := Nat.mul_assoc _ _ _
    _ ≤ s * (q.assets * p.shares) := Nat.mul_le_mul_left _ dear
    _ = s * q.assets * p.shares := (Nat.mul_assoc _ _ _).symm

theorem Fair.noCheaper (fair : p.Fair a issued) : p.NoCheaper (p.issue a issued) := by
  unfold Fair at fair
  rw [NoCheaper, issue, Nat.mul_add, Nat.add_mul, Nat.mul_comm p.assets issued]
  exact Nat.add_le_add_left fair _

/-- What a redemption loses in rounding is left to the others. -/
theorem redeem_noCheaper (p : SharePool) (s : ℕ) : p.NoCheaper (p.redeem s) := by
  have part : p.value s * p.shares ≤ s * p.assets := Nat.div_mul_le_self _ _
  rw [NoCheaper, redeem, Nat.mul_sub, Nat.sub_mul, Nat.mul_comm p.assets s]
  exact Nat.sub_le_sub_left part _

end SharePool

end Credit
