import Mathlib.Algebra.BigOperators.Group.Finset.Piecewise
import Mathlib.Algebra.Order.BigOperators.Group.Finset
import Mathlib.Data.Fintype.BigOperators
import Mathlib.Tactic.Common
import Mirror.Evm.Arithmetic

/-! ERC-20 balances and allowances over an arbitrary finite set of holders. -/
namespace Evm

/-- Overwriting one summand exchanges its old value for the new one. -/
theorem sum_update {A M : Type} [Fintype A] [DecidableEq A] [AddCommMonoid M]
    (f : A → M) (a : A) (v : M) : ∑ x, Function.update f a v x + f a = ∑ x, f x + v := by
  have rest : ∑ x ∈ Finset.univ \ {a}, f x + f a = ∑ x, f x := by
    rw [← Finset.sum_sdiff (Finset.subset_univ {a}), Finset.sum_singleton]
  rw [Finset.sum_update_of_mem (Finset.mem_univ a), add_assoc, rest, add_comm]

/-- Overwriting one value exchanges the summand that is made of it. -/
theorem sum_comp_update {A B M : Type} [Fintype A] [DecidableEq A] [AddCommMonoid M] (g : B → M)
    (f : A → B) (a : A) (b : B) :
    ∑ x, g (Function.update f a b x) + g (f a) = ∑ x, g (f x) + g b := by
  have moved := sum_update (g ∘ f) a (g b)
  rwa [← Function.comp_update] at moved

/-- No word of a column is more than all of them together. -/
theorem val_le_sum {A : Type} [Fintype A] (column : A → Uint256) (a : A) :
    (column a).val ≤ ∑ x, (column x).val :=
  Finset.single_le_sum (f := fun x => (column x).val) (fun _ _ => Nat.zero_le _) (Finset.mem_univ a)

/-- Token storage whose balances add up to the supply. -/
structure Token (A : Type) [Fintype A] where
  balanceOf : A → ℕ
  allowance : A → A → ℕ
  totalSupply : ℕ
  backed : ∑ a, balanceOf a = totalSupply

inductive TokenCall (A : Type)
  | transfer (dst : A) (amount : ℕ)
  | transferFrom (src dst : A) (amount : ℕ)
  | approve (spender : A) (amount : ℕ)
  | mint (dst : A) (amount : ℕ)
  | burn (amount : ℕ)
  deriving DecidableEq

/-- What a call credits to `x`. -/
def TokenCall.inflow {A : Type} [DecidableEq A] (x : A) : TokenCall A → ℕ
  | .transfer dst n | .transferFrom _ dst n | .mint dst n => if dst = x then n else 0
  | .approve _ _ | .burn _ => 0

variable {A : Type} [DecidableEq A]

/-- Balances after `n` units leave `src` and then reach `dst`. -/
def shift (b : A → ℕ) (src dst : A) (n : ℕ) : A → ℕ :=
  let debited := Function.update b src (b src - n)
  Function.update debited dst (debited dst + n)

theorem shift_src (b : A → ℕ) {src dst : A} (n : ℕ) (distinct : src ≠ dst) :
    shift b src dst n src = b src - n := by
  simp [shift, distinct]

theorem shift_dst (b : A → ℕ) {src dst : A} (n : ℕ) (distinct : src ≠ dst) :
    shift b src dst n dst = b dst + n := by
  simp [shift, Function.update_of_ne distinct.symm]

theorem shift_other (b : A → ℕ) {src dst x : A} (n : ℕ) (hs : x ≠ src) (hd : x ≠ dst) :
    shift b src dst n x = b x := by
  simp [shift, hs, hd]

/-- Nothing moves when the sender pays itself. -/
theorem shift_self (b : A → ℕ) (a : A) (n : ℕ) (enough : n ≤ b a) : shift b a a n = b := by
  funext x
  by_cases h : x = a
  · subst h
    simp [shift, Nat.sub_add_cancel enough]
  · simp [shift, h]

theorem shift_le (b : A → ℕ) (src dst x : A) (n : ℕ) (enough : n ≤ b src) :
    shift b src dst n x ≤ b x + if dst = x then n else 0 := by
  -- paying oneself moves nothing; otherwise `x` receives, pays or looks on
  by_cases hs : src = dst
  · subst hs
    rw [shift_self b src n enough]
    exact Nat.le_add_right _ _
  · by_cases hd : dst = x
    · subst hd
      rw [shift_dst b n hs, if_pos rfl]
    · by_cases hx : x = src
      · subst hx
        rw [shift_src b n hs]
        omega
      · rw [shift_other b n hx (Ne.symm hd)]
        exact Nat.le_add_right _ _

variable [Fintype A]

theorem sum_shift (b : A → ℕ) (src dst : A) (n : ℕ) (enough : n ≤ b src) :
    ∑ x, shift b src dst n x = ∑ x, b x := by
  -- the debit and the credit each overwrite one summand
  have out := sum_update b src (b src - n)
  have paid := sum_update (Function.update b src (b src - n)) dst
    (Function.update b src (b src - n) dst + n)
  simp only [shift]
  omega

namespace Token

omit [DecidableEq A] in
theorem balance_le_supply (t : Token A) (a : A) : t.balanceOf a ≤ t.totalSupply :=
  t.backed ▸ Finset.single_le_sum (fun _ _ => Nat.zero_le _) (Finset.mem_univ a)

def empty : Token A := ⟨fun _ => 0, fun _ _ => 0, 0, by simp⟩

def move (t : Token A) (src dst : A) (n : ℕ) : Option (Token A) :=
  if h : n ≤ t.balanceOf src then
    some { t with
      balanceOf := shift t.balanceOf src dst n
      backed := (sum_shift t.balanceOf src dst n h).trans t.backed }
  else none

def setAllowance (t : Token A) (owner spender : A) (n : ℕ) : Token A :=
  { t with allowance := fun o s => if o = owner ∧ s = spender then n else t.allowance o s }

/-- An allowance of `type(uint256).max` is never spent. -/
def spend (t : Token A) (owner spender : A) (n : ℕ) : Option (Token A) :=
  if t.allowance owner spender = maxUint256 then some t
  else if n ≤ t.allowance owner spender then
    some (t.setAllowance owner spender (t.allowance owner spender - n))
  else none

/-- One call to the token by `who`. -/
def perform (t : Token A) (who : A) : TokenCall A → Option (Token A)
  | .transfer dst n => t.move who dst n
  | .transferFrom src dst n => do
    -- OpenZeppelin spends the allowance before it moves the balance
    let t ← t.spend src who n
    t.move src dst n
  | .approve spender n => some (t.setAllowance who spender n)
  | .mint dst n =>
    if t.totalSupply + n < 2 ^ 256 then
      some { t with
        balanceOf := Function.update t.balanceOf dst (t.balanceOf dst + n)
        totalSupply := t.totalSupply + n
        backed := by
          have := sum_update t.balanceOf dst (t.balanceOf dst + n)
          have := t.backed
          omega }
    else none
  | .burn n =>
    if h : n ≤ t.balanceOf who then
      some { t with
        balanceOf := Function.update t.balanceOf who (t.balanceOf who - n)
        totalSupply := t.totalSupply - n
        backed := by
          have := sum_update t.balanceOf who (t.balanceOf who - n)
          have := t.balance_le_supply who
          have := t.backed
          omega }
    else none

theorem move_some (t t' : Token A) (src dst : A) (n : ℕ) (h : t.move src dst n = some t') :
    n ≤ t.balanceOf src ∧ t'.balanceOf = shift t.balanceOf src dst n ∧
      t'.allowance = t.allowance ∧ t'.totalSupply = t.totalSupply := by
  unfold move at h
  split at h
  next enough =>
    cases h
    exact ⟨enough, rfl, rfl, rfl⟩
  next => cases h

theorem move_isSome (t : Token A) (src dst : A) (n : ℕ) :
    (∃ t', t.move src dst n = some t') ↔ n ≤ t.balanceOf src := by
  unfold move
  split <;> simp_all

theorem spend_some (t t' : Token A) (owner spender : A) (n : ℕ)
    (h : t.spend owner spender n = some t') :
    t'.balanceOf = t.balanceOf ∧ t'.totalSupply = t.totalSupply ∧
      (t.allowance owner spender = maxUint256 ∨ n ≤ t.allowance owner spender) ∧
      (∀ x, x ≠ owner → t'.allowance x = t.allowance x) ∧
      (∀ y, y ≠ spender → t'.allowance owner y = t.allowance owner y) ∧
      (t.allowance owner spender ≠ maxUint256 →
        t'.allowance owner spender = t.allowance owner spender - n) := by
  unfold spend at h
  split at h
  next unlimited =>
    cases h
    exact ⟨rfl, rfl, .inl unlimited, fun _ _ => rfl, fun _ _ => rfl, fun h => absurd unlimited h⟩
  next =>
    split at h
    next enough =>
      cases h
      refine ⟨rfl, rfl, .inr enough, ?_, ?_, ?_⟩
      · intro x hx
        simp [setAllowance, hx]
      · intro y hy
        simp [setAllowance, hy]
      · intro _
        simp [setAllowance]
    next => cases h

theorem spend_isSome (t : Token A) (owner spender : A) (n : ℕ) :
    (∃ t', t.spend owner spender n = some t') ↔
      t.allowance owner spender = maxUint256 ∨ n ≤ t.allowance owner spender := by
  unfold spend
  split
  next unlimited => simp [unlimited]
  next limited =>
    split <;> simp_all

theorem transferFrom_some (t t' : Token A) (who src dst : A) (n : ℕ)
    (h : t.perform who (.transferFrom src dst n) = some t') :
    ∃ spent, t.spend src who n = some spent ∧ n ≤ t.balanceOf src ∧
      t'.balanceOf = shift t.balanceOf src dst n ∧
      t'.allowance = spent.allowance ∧ t'.totalSupply = t.totalSupply := by
  simp only [perform, Option.bind_eq_bind, Option.bind_eq_some_iff] at h
  obtain ⟨spent, hspend, hmove⟩ := h
  obtain ⟨balances, supply, -⟩ := spend_some _ _ _ _ _ hspend
  obtain ⟨enough, moved, allowed, kept⟩ := move_some _ _ _ _ _ hmove
  -- spending the allowance has not moved any balance yet
  rw [balances] at enough moved
  exact ⟨spent, hspend, enough, moved, allowed, kept.trans supply⟩

theorem transferFrom_isSome (t : Token A) (who src dst : A) (n : ℕ) :
    (∃ t', t.perform who (.transferFrom src dst n) = some t') ↔
      (t.allowance src who = maxUint256 ∨ n ≤ t.allowance src who) ∧ n ≤ t.balanceOf src := by
  rw [← spend_isSome, perform]
  simp only [Option.bind_eq_bind, Option.bind_eq_some_iff]
  constructor
  · rintro ⟨t', spent, spending, moved⟩
    rw [← (spend_some _ _ _ _ _ spending).1]
    exact ⟨⟨spent, spending⟩, (move_some _ _ _ _ _ moved).1⟩
  · rintro ⟨⟨spent, spending⟩, enough⟩
    rw [← (spend_some _ _ _ _ _ spending).1] at enough
    obtain ⟨t', moved⟩ := (move_isSome spent src dst n).mpr enough
    exact ⟨t', spent, spending, moved⟩

theorem transfer_spends {t t' : Token A} {who dst : A} {n : ℕ} (distinct : who ≠ dst)
    (h : t.perform who (.transfer dst n) = some t') :
    t.balanceOf who = t'.balanceOf who + n ∧ t'.allowance = t.allowance := by
  obtain ⟨enough, moved, allowed, -⟩ := move_some _ _ _ _ _ h
  rw [moved, shift_src _ _ distinct]
  exact ⟨by omega, allowed⟩

theorem transferFrom_collects {t t' : Token A} {who src dst : A} {n : ℕ} (distinct : src ≠ dst)
    (h : t.perform who (.transferFrom src dst n) = some t') :
    t'.balanceOf dst = t.balanceOf dst + n ∧ n ≤ t.balanceOf src ∧
      ∀ x, x ≠ src → t'.allowance x = t.allowance x := by
  obtain ⟨spent, hspend, enough, moved, allowed, -⟩ := transferFrom_some _ _ _ _ _ _ h
  obtain ⟨-, -, -, rows, -⟩ := spend_some _ _ _ _ _ hspend
  rw [moved, shift_dst _ _ distinct, allowed]
  exact ⟨rfl, enough, rows⟩

section Passing

variable {t t₁ t₂ : Token A} {src mid dst : A} {n : ℕ}

/-- `mid` takes `n` from `src` and lets `dst` take just as much from itself. -/
theorem passed_on (apart : src ≠ mid) (onward : mid ≠ dst) (limited : n ≠ maxUint256)
    (taken : t.perform mid (.transferFrom src mid n) = some t₁)
    (passed : (t₁.setAllowance mid dst n).perform dst (.transferFrom mid dst n) = some t₂) :
    t₂.balanceOf mid = t.balanceOf mid ∧ t₂.allowance mid dst = 0 ∧
      (src ≠ dst → t₂.balanceOf dst = t.balanceOf dst + n) := by
  obtain ⟨-, -, -, moved, -⟩ := transferFrom_some _ _ _ _ _ _ taken
  obtain ⟨spent, spending, -, moved', allowed', -⟩ := transferFrom_some _ _ _ _ _ _ passed
  have same : (t₁.setAllowance mid dst n).balanceOf = t₁.balanceOf := rfl
  have approved : (t₁.setAllowance mid dst n).allowance mid dst = n := by simp [setAllowance]
  rw [moved', same, allowed']
  refine ⟨?_, ?_, fun other => ?_⟩
  · rw [shift_src _ _ onward, moved, shift_dst _ _ apart, Nat.add_sub_cancel]
  · obtain ⟨-, -, -, -, -, left⟩ := spend_some _ _ _ _ _ spending
    rw [left (by rwa [approved]), approved, Nat.sub_self]
  · rw [shift_dst _ _ onward, moved, shift_other _ _ (Ne.symm other) (Ne.symm onward)]

/-- What `mid` takes it can pass on. -/
theorem passOn_isSome (t : Token A) (apart : src ≠ mid) (dst : A) (n : ℕ) :
    (∃ t₁ t₂, t.perform mid (.transferFrom src mid n) = some t₁ ∧
      (t₁.setAllowance mid dst n).perform dst (.transferFrom mid dst n) = some t₂) ↔
    (t.allowance src mid = maxUint256 ∨ n ≤ t.allowance src mid) ∧ n ≤ t.balanceOf src := by
  rw [← transferFrom_isSome t mid src mid n]
  constructor
  · rintro ⟨t₁, -, taken, -⟩
    exact ⟨t₁, taken⟩
  · rintro ⟨t₁, taken⟩
    have held := (transferFrom_collects apart taken).1
    have approved : (t₁.setAllowance mid dst n).allowance mid dst = n := by simp [setAllowance]
    obtain ⟨t₂, passed⟩ := (transferFrom_isSome (t₁.setAllowance mid dst n) dst mid dst n).mpr
      ⟨.inr approved.ge, held ▸ Nat.le_add_left n _⟩
    exact ⟨t₁, t₂, taken, passed⟩

end Passing

/-- Minting credits its recipient and touches no allowance. -/
theorem perform_mint {t t' : Token A} {who dst : A} {n : ℕ}
    (h : t.perform who (.mint dst n) = some t') (x : A) :
    t'.balanceOf x = t.balanceOf x + (TokenCall.mint dst n).inflow x ∧
      t'.allowance x = t.allowance x := by
  simp only [perform, Option.ite_none_right_eq_some, Option.some.injEq] at h
  obtain ⟨-, rfl⟩ := h
  refine ⟨?_, rfl⟩
  by_cases credited : dst = x
  · subst credited
    simp [TokenCall.inflow]
  · simp [TokenCall.inflow, credited, Ne.symm credited]

/-- No call raises a balance by more than it credits. -/
theorem perform_inflow (t t' : Token A) (who x : A) (call : TokenCall A)
    (h : t.perform who call = some t') : t'.balanceOf x ≤ t.balanceOf x + call.inflow x := by
  cases call with
  | transfer dst n =>
    obtain ⟨enough, moved, -⟩ := move_some _ _ _ _ _ h
    rw [moved]
    exact shift_le _ _ _ _ _ enough
  | transferFrom src dst n =>
    obtain ⟨_, -, enough, moved, -⟩ := transferFrom_some _ _ _ _ _ _ h
    rw [moved]
    exact shift_le _ _ _ _ _ enough
  | approve spender n =>
    simp only [perform, Option.some.injEq] at h
    subst h
    exact Nat.le_add_right _ _
  | mint dst n => exact (perform_mint h x).1.le
  | burn n =>
    simp only [perform, Option.dite_none_right_eq_some, Option.some.injEq] at h
    obtain ⟨-, rfl⟩ := h
    by_cases hw : x = who
    · subst hw
      simp [TokenCall.inflow]
    · simp [TokenCall.inflow, hw]

/-- A holder that neither calls nor has approved the caller only receives. -/
theorem perform_bystander (t t' : Token A) (who x : A) (call : TokenCall A)
    (h : t.perform who call = some t') (other : who ≠ x) (closed : t.allowance x who = 0) :
    t'.balanceOf x = t.balanceOf x + call.inflow x ∧ t'.allowance x = t.allowance x := by
  cases call with
  | transfer dst n =>
    obtain ⟨-, moved, allowed, -⟩ := move_some _ _ _ _ _ h
    rw [moved, allowed]
    refine ⟨?_, rfl⟩
    by_cases hd : dst = x
    · subst hd
      simp [shift_dst _ _ other, TokenCall.inflow]
    · simp [shift_other _ _ (Ne.symm other) (Ne.symm hd), TokenCall.inflow, hd]
  | transferFrom src dst n =>
    obtain ⟨spent, hspend, enough, moved, allowed, -⟩ := transferFrom_some _ _ _ _ _ _ h
    obtain ⟨-, -, covered, rows, cells, exact⟩ := spend_some _ _ _ _ _ hspend
    by_cases hs : src = x
    · subst hs
      -- without an allowance only nothing can be taken from `x`
      have nothing : n = 0 := by
        rw [closed] at covered
        simpa [maxUint256] using covered
      subst nothing
      -- and taking nothing leaves its row of allowances as it was
      have row : spent.allowance src = t.allowance src := by
        funext y
        by_cases hy : y = who
        · subst hy
          rw [exact (by rw [closed]; simp [maxUint256]), closed]
        · exact cells y hy
      rw [moved, allowed, row]
      refine ⟨?_, rfl⟩
      by_cases hd : dst = src
      · subst hd
        simp [shift_self, TokenCall.inflow]
      · simp [shift_src _ _ (Ne.symm hd), TokenCall.inflow, hd]
    · rw [moved, allowed, rows x (Ne.symm hs)]
      refine ⟨?_, rfl⟩
      by_cases hd : dst = x
      · subst hd
        simp [shift_dst _ _ hs, TokenCall.inflow]
      · simp [shift_other _ _ (Ne.symm hs) (Ne.symm hd), TokenCall.inflow, hd]
  | approve spender n =>
    simp only [perform, Option.some.injEq] at h
    subst h
    exact ⟨rfl, by funext y; simp [setAllowance, Ne.symm other]⟩
  | mint dst n => exact perform_mint h x
  | burn n =>
    simp only [perform, Option.dite_none_right_eq_some, Option.some.injEq] at h
    obtain ⟨-, rfl⟩ := h
    exact ⟨by simp [TokenCall.inflow, Ne.symm other], rfl⟩

end Token

end Evm
