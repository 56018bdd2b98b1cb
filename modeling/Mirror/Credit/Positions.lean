import Mathlib.Tactic.GCongr
import Mirror.Evm.Token

/-!
Collateralised debt over arbitrary accounts. A position is sound as long as the value of its
collateral, rounded as the contracts round it, is a given multiple of its debt.
-/
namespace Credit

open Evm

/-- What an account has put up and what it owes. -/
structure Position where
  collateral : ℕ
  debt : ℕ
  deriving DecidableEq

section

variable {K : Type}

/-- The positions that two columns of words stand for. -/
def positionsOf (collateral debt : K → Uint256) (k : K) : Position :=
  ⟨(collateral k).val, (debt k).val⟩

variable [DecidableEq K] (collateral debt : K → Uint256) (a : K) (v w : Uint256)

theorem positionsOf_update :
    positionsOf (Function.update collateral a v) (Function.update debt a w) =
      Function.update (positionsOf collateral debt) a ⟨v.val, w.val⟩ := by
  funext k
  by_cases own : k = a
  · subst own
    simp only [positionsOf, Function.update_self]
  · simp only [positionsOf, Function.update_of_ne own]

theorem positionsOf_update_collateral :
    positionsOf (Function.update collateral a v) debt =
      Function.update (positionsOf collateral debt) a ⟨v.val, (debt a).val⟩ := by
  rw [← positionsOf_update, Function.update_eq_self]

theorem positionsOf_update_debt :
    positionsOf collateral (Function.update debt a w) =
      Function.update (positionsOf collateral debt) a ⟨(collateral a).val, w.val⟩ := by
  rw [← positionsOf_update, Function.update_eq_self]

end

/-- How collateral is valued, and the ratio in basis points that a debt calls for. -/
structure Terms where
  price : ℕ
  unit : ℕ
  threshold : ℕ
  deriving DecidableEq

namespace Terms

variable (t : Terms) {p q : Position}

def value (collateral : ℕ) : ℕ := collateral * t.price / t.unit

def ratio (p : Position) : ℕ := t.value p.collateral * 10000 / p.debt

def Sound (p : Position) : Prop := p.debt = 0 ∨ t.threshold ≤ t.ratio p

instance (p : Position) : Decidable (t.Sound p) := inferInstanceAs (Decidable (_ ∨ _))

variable {t}

/-- A position is sound if its debt, where it has one, has the ratio called for. -/
theorem Sound.of_ratio (enough : 0 < p.debt → t.threshold ≤ t.ratio p) : t.Sound p := by
  rcases Nat.eq_zero_or_pos p.debt with free | owes
  · exact .inl free
  · exact .inr (enough owes)

/-- More collateral and less debt do no harm. -/
theorem Sound.mono (sound : t.Sound p) (more : p.collateral ≤ q.collateral)
    (less : q.debt ≤ p.debt) : t.Sound q := by
  rcases Nat.eq_zero_or_pos q.debt with free | owes
  · exact .inl free
  · right
    rcases sound with free | enough
    · omega
    -- the value grows with the collateral, the quotient falls with the debt
    · calc t.threshold ≤ t.value p.collateral * 10000 / p.debt := enough
        _ ≤ t.value q.collateral * 10000 / p.debt := by
          unfold value
          gcongr
        _ ≤ t.value q.collateral * 10000 / q.debt := Nat.div_le_div_left less owes

end Terms

/-- What one operation does to one account. -/
structure Change (K : Type) where
  account : K
  deposited : ℕ
  withdrawn : ℕ
  drawn : ℕ
  repaid : ℕ

namespace Change

section

variable {K : Type} (c : Change K) (p : Position)

def after : Position :=
  ⟨p.collateral + c.deposited - c.withdrawn, p.debt + c.drawn - c.repaid⟩

/-- No more is taken out or paid back than there is. -/
def Valid : Prop :=
  c.withdrawn ≤ p.collateral + c.deposited ∧ c.repaid ≤ p.debt + c.drawn

/-- The change improves the position, or leaves a sound one, or the position was not sound. -/
def Careful (t : Terms) : Prop :=
  (c.withdrawn = 0 ∧ c.drawn = 0) ∨ t.Sound (c.after p) ∨ ¬t.Sound p

variable {c p} {t : Terms}

theorem Careful.sound_after (careful : c.Careful p t) (sound : t.Sound p) :
    t.Sound (c.after p) := by
  -- it only improves the position, has been checked after, or began unsound
  rcases careful with ⟨kept, undrawn⟩ | after | unsound
  · refine sound.mono ?_ ?_
    · simp only [after]
      omega
    · simp only [after]
      omega
  · exact after
  · exact absurd sound unsound

end

section

variable {K : Type} [DecidableEq K] (c : Change K) (ps : K → Position)

def apply : K → Position := Function.update ps c.account (c.after (ps c.account))

/-- `ps'` is what the change makes of `ps`, and it may be made under these terms. -/
structure Makes (t : Terms) (ps' : K → Position) : Prop where
  valid : c.Valid (ps c.account)
  careful : c.Careful (ps c.account) t
  applied : ps' = c.apply ps

variable {c ps} {t : Terms} {ps' : K → Position}

/-- A change that leaves its account sound may be made. -/
theorem Makes.of_sound (valid : c.Valid (ps c.account)) (applied : ps' = c.apply ps)
    (sound : t.Sound (ps' c.account)) : c.Makes ps t ps' := by
  rw [applied, apply, Function.update_self] at sound
  exact ⟨valid, .inr (.inl sound), applied⟩

/-- What is sound stays sound, on the account of the change as on the others. -/
theorem Makes.sound (makes : c.Makes ps t ps') {k : K} (sound : t.Sound (ps k)) :
    t.Sound (ps' k) := by
  rw [makes.applied, apply]
  by_cases own : k = c.account
  · subst own
    rw [Function.update_self]
    exact makes.careful.sound_after sound
  · rw [Function.update_of_ne own]
    exact sound

variable [Fintype K]

theorem Makes.collateral_sum (makes : c.Makes ps t ps') :
    ∑ k, (ps' k).collateral + c.withdrawn = ∑ k, (ps k).collateral + c.deposited := by
  have moved := sum_comp_update Position.collateral ps c.account (c.after (ps c.account))
  have enough := makes.valid.1
  rw [makes.applied]
  simp only [apply, after] at moved ⊢
  omega

theorem Makes.debt_sum (makes : c.Makes ps t ps') :
    ∑ k, (ps' k).debt + c.repaid = ∑ k, (ps k).debt + c.drawn := by
  have moved := sum_comp_update Position.debt ps c.account (c.after (ps c.account))
  have enough := makes.valid.2
  rw [makes.applied]
  simp only [apply, after] at moved ⊢
  omega

end

end Change

end Credit
