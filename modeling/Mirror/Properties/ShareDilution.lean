import Mirror.Refinement.Staking

/-!
What a deposit does to the shares of others. Shares that it pays for dilute nobody and return no
more than was paid; a deposit too small to buy one is given one for each of its units.
-/
namespace Mirror

open Evm Credit MockFirelightStrategy

section

variable (firelight : Firelight) (caller : Address) (assets issued : Uint256) (l l' : Staking)

/-- The shares of everybody else are worth no less than before, and the new ones return no more than
was paid for them. -/
structure Staking.Undiluted : Prop where
  others : ∀ user, user ≠ caller → ∀ v v',
    l.strategy.convertToAssets (l.strategy.balanceOf user) = .ok v →
    l'.strategy.convertToAssets (l'.strategy.balanceOf user) = .ok v' → v ≤ v'
  own : ∀ env l'' back, withdraw firelight env caller issued l' = .ok (l'', back) → back ≤ assets

/-- The deposit buys a share, or what it is given without buying one is lost in rounding: no other
account misses a unit, and no unit more is paid back, as its value is below that, or beyond a word,
or beyond the tokens held. -/
def Staking.Covered : Prop :=
  l.strategy.Dust assets →
    (∀ user, user ≠ caller →
      assets.val * l.strategy.pool.value (l.strategy.balanceOf user).val ≤
        (l.strategy.balanceOf user).val * assets.val +
          (l.strategy.balanceOf user).val * l.strategy.pool.assets % l.strategy.pool.shares ∨
      2 ^ 256 ≤ (l.strategy.balanceOf user).val * (l.strategy.pool.assets + assets.val)) ∧
    (assets.val * l.strategy.pool.assets <
        assets.val * l.strategy.pool.shares + l.strategy.pool.shares + assets.val ∨
      2 ^ 256 ≤ assets.val * (l.strategy.pool.assets + assets.val) ∨
      (l.ledger firelight.asset).balanceOf firelight.strategy + assets.val <
        assets.val * (l.strategy.pool.assets + assets.val) / (l.strategy.pool.shares + assets.val))

variable {firelight caller assets issued l l'}

section

variable (deposited : l.Deposited firelight caller assets issued l')
  (owned : 0 < l.strategy.pool.shares)

include deposited owned

theorem Staking.Deposited.owned_after : 0 < l'.strategy.pool.shares := by
  rw [deposited.pool]
  exact Nat.add_pos_left owned _

/-- Another account is not worse off exactly if the shares issued leave it its part. -/
theorem Staking.Deposited.others_iff {user : Address} (other : user ≠ caller) :
    (∀ v v', l.strategy.convertToAssets (l.strategy.balanceOf user) = .ok v →
      l'.strategy.convertToAssets (l'.strategy.balanceOf user) = .ok v' → v ≤ v') ↔
    (issued.val * l.strategy.pool.value (l.strategy.balanceOf user).val ≤
        (l.strategy.balanceOf user).val * assets.val +
          (l.strategy.balanceOf user).val * l.strategy.pool.assets % l.strategy.pool.shares ∨
      2 ^ 256 ≤ (l.strategy.balanceOf user).val * (l.strategy.pool.assets + assets.val)) := by
  simp only [convertToAssets_ok owned, convertToAssets_ok (deposited.owned_after owned),
    deposited.others user other, deposited.pool]
  rw [← SharePool.value_le_issue_iff owned]
  generalize (l.strategy.balanceOf user).val = s
  constructor
  · intro kept
    by_contra lost
    rw [not_or, not_le, not_le] at lost
    obtain ⟨less, fits⟩ := lost
    -- the product only grows, so it fitted before as well
    have before : s * l.strategy.pool.assets < 2 ^ 256 :=
      (Nat.mul_le_mul_left s (Nat.le_add_right _ _)).trans_lt fits
    have small (p : SharePool) (positive : s * p.assets < 2 ^ 256) : p.value s < 2 ^ 256 :=
      (Nat.div_le_self _ _).trans_lt positive
    have more := kept ⟨l.strategy.pool.value s, small _ before⟩ ⟨_, small _ fits⟩ ⟨before, rfl⟩
      ⟨fits, rfl⟩
    exact absurd less (not_lt.mpr more)
  · rintro (kept | overflows) v v' ⟨-, was⟩ ⟨fits, is⟩
    · rw [Fin.le_def, was, is]
      exact kept
    · exact absurd fits (not_lt.mpr overflows)

/-- The depositor gets back no more exactly if the shares issued are not worth a unit more, or that
cannot be paid. -/
theorem Staking.Deposited.own_iff (positive : 0 < issued.val) :
    (∀ env l'' back, withdraw firelight env caller issued l' = .ok (l'', back) → back ≤ assets) ↔
    (issued.val * l.strategy.pool.assets <
        assets.val * l.strategy.pool.shares + l.strategy.pool.shares + issued.val ∨
      2 ^ 256 ≤ issued.val * (l.strategy.pool.assets + assets.val) ∨
      (l.ledger firelight.asset).balanceOf firelight.strategy + assets.val <
        issued.val * (l.strategy.pool.assets + assets.val) /
          (l.strategy.pool.shares + issued.val)) := by
  have owned' := deposited.owned_after owned
  rw [← SharePool.issue_value_le_iff owned]
  constructor
  · intro never
    by_contra pays
    simp only [not_or, not_le, not_lt] at pays
    obtain ⟨more, fits, paid⟩ := pays
    -- a token that never refuses pays more than was deposited
    obtain ⟨env, l'', back, done⟩ :
        ∃ env l'' back, withdraw firelight env caller issued l' = .ok (l'', back) := by
      refine withdraw_succeeds positive ?_ ?_ ?_ ?_
      · rw [deposited.own]
        exact Nat.le_add_left _ _
      · rw [deposited.pool]
        exact Nat.le_add_left _ _
      · rw [deposited.pool]
        exact fits
      · rw [deposited.pool, deposited.cash]
        exact paid
    obtain ⟨returned, -, -⟩ := withdraw_returns owned' done
    rw [deposited.pool] at returned
    have less := never env l'' back done
    rw [Fin.le_def, returned] at less
    exact absurd more (not_lt.mpr less)
  · rintro unprofitable env l'' back done
    obtain ⟨returned, fits, paid⟩ := withdraw_returns owned' done
    rw [deposited.pool] at returned fits
    rw [returned, deposited.cash] at paid
    rw [Fin.le_def, returned]
    -- no unit more, a value beyond a word, or too few tokens
    rcases unprofitable with less | overflows | short
    · exact less
    · exact absurd fits (not_lt.mpr overflows)
    · exact absurd paid (not_le.mpr short)

/-- A deposit dilutes nobody and returns no more exactly if it is covered. -/
theorem Staking.Deposited.undiluted_iff :
    l.Undiluted firelight caller assets issued l' ↔ l.Covered firelight caller assets := by
  obtain ⟨dusty, fairly⟩ := sharesFor_ok owned deposited.priced
  by_cases dust : l.strategy.Dust assets
  · cases dusty dust
    have others (user : Address) (other : user ≠ caller) := deposited.others_iff owned other
    have own := deposited.own_iff owned deposited.positive
    constructor
    · rintro ⟨kept, returned⟩ -
      exact ⟨fun user other => (others user other).mp (kept user other), own.mp returned⟩
    · intro covered
      obtain ⟨kept, returned⟩ := covered dust
      exact ⟨fun user other => (others user other).mpr (kept user other), own.mpr returned⟩
  -- a deposit that buys its shares is fair, so nobody loses by it
  · have fair := fairly dust
    refine iff_of_true ⟨fun user other v v' was is => ?_, fun env l'' back done => ?_⟩
      (fun dust' => absurd dust' dust)
    · rw [convertToAssets_ok owned] at was
      rw [deposited.others user other, convertToAssets_ok (deposited.owned_after owned),
        deposited.pool] at is
      rw [Fin.le_def, was.2, is.2]
      exact fair.value_le owned
    · have returned := (withdraw_returns (deposited.owned_after owned) done).1
      rw [deposited.pool] at returned
      rw [Fin.le_def, returned]
      exact fair.return_le owned

end

end

/-- At every deposit of a run into a strategy with shares, the shares of others are worth no less
than before and the new ones return no more than was paid exactly if the deposit buys a share or
rounding covers what it is given. -/
theorem deposits_undiluted_iff (firelight : Firelight) (start : Staking)
    (ops : List (FirelightOp firelight)) :
    Admissible Staking.step (fun (l : Staking) (op : FirelightOp firelight) =>
      ∀ env caller assets l' issued, op = .call env caller (.deposit assets) →
        0 < l.strategy.totalShares.val →
        deposit firelight env caller.addr assets l = .ok (l', issued) →
        (l.Undiluted firelight caller.addr assets issued l' ↔
          l.Covered firelight caller.addr assets)) start ops := by
  refine admissible_of_forall (fun l op _ => ?_) start ops (fun _ _ => trivial)
  rintro env caller assets l' issued - owned done
  exact (strategy_deposited caller.other done).undiluted_iff owned

namespace Sample

def firelight : Firelight := ⟨16, deployment.fxrpToken⟩

/-- Alice and Bob make themselves 1000 units each, Alice deposits hers, and the owner sets a yield
of 1500. -/
def yielded : List (FirelightOp firelight) :=
  let calls (who : Other firelight.strategy) (call : TokenCall Address) : FirelightOp firelight :=
    .token ⟨external fun _ => false, who, firelight.asset, call⟩
  let asks (who : Other firelight.strategy) (call : FirelightCall) : FirelightOp firelight :=
    .call (external fun _ => false) who call
  [calls ⟨alice, by decide⟩ (.mint alice 1000),
    calls ⟨alice, by decide⟩ (.approve firelight.strategy 1000),
    calls ⟨bob, by decide⟩ (.mint bob 1000),
    calls ⟨bob, by decide⟩ (.approve firelight.strategy 1000),
    asks ⟨alice, by decide⟩ (.deposit 1000), asks ⟨owner, by decide⟩ (.setYieldAmount 1500)]

def staked : Staking := run Staking.step ⟨fun _ => Token.empty, deployed owner⟩ yielded

/-- Bob's 2 units buy nothing at 2.5 a share, and he is given 2 shares. -/
theorem dust_deposited : ∃ l',
    deposit firelight (external fun _ => false) bob 2 staked = .ok (l', 2) ∧
    l'.strategy.convertToAssets (l'.strategy.balanceOf alice) = .ok 2497 ∧
    ∃ l'', withdraw firelight (external fun _ => false) bob 2 l' = .ok (l'', 4) := by
  have issued : ((deposit firelight (external fun _ => false) bob 2 staked).toOption.map
      Prod.snd) = some 2 := by decide +kernel
  have left : ((deposit firelight (external fun _ => false) bob 2 staked).toOption.map fun d =>
      (d.1.strategy.convertToAssets (d.1.strategy.balanceOf alice)).toOption) =
        some (some 2497) := by decide +kernel
  have returned : ((deposit firelight (external fun _ => false) bob 2 staked).toOption.bind fun d =>
      (withdraw firelight (external fun _ => false) bob 2 d.1).toOption.map Prod.snd) = some 4 := by
    decide +kernel
  cases done : deposit firelight (external fun _ => false) bob 2 staked with
  | error e =>
    rw [done] at issued
    cases issued
  | ok d =>
    obtain ⟨l', shares⟩ := d
    rw [done] at issued left returned
    cases issued
    simp only [Except.toOption, Option.map_some, Option.some.injEq, Option.bind_some]
      at left returned
    refine ⟨l', rfl, ?_, ?_⟩
    · cases worth : l'.strategy.convertToAssets (l'.strategy.balanceOf alice) with
      | error e => simp [worth] at left
      | ok v =>
        simp only [worth, Option.some.injEq] at left
        rw [left]
    · cases back : withdraw firelight (external fun _ => false) bob 2 l' with
      | error e => simp [back] at returned
      | ok w =>
        simp only [back, Option.map_some, Option.some.injEq] at returned
        exact ⟨w.1, by rw [← returned]⟩

end Sample

theorem deposits_undiluted_iff_dust :
    ∃ l', deposit Sample.firelight (Sample.external fun _ => false) Sample.bob 2 Sample.staked =
        .ok (l', 2) ∧
      (Sample.staked.Undiluted Sample.firelight Sample.bob 2 2 l' ↔
        Sample.staked.Covered Sample.firelight Sample.bob 2) := by
  obtain ⟨l', done, -⟩ := Sample.dust_deposited
  have exact := deposits_undiluted_iff Sample.firelight Sample.staked
    [.call (Sample.external fun _ => false) ⟨Sample.bob, by decide⟩ (.deposit 2)]
  exact ⟨l', done, exact.1 _ _ _ l' 2 rfl (by decide +kernel) done⟩

/-- At 2.5 a share Bob deposits 2 units: Alice's 1000 shares fall from 2500 to 2497, and Bob can
take 4 back. -/
theorem deposits_dilute :
    (¬∀ (firelight : Firelight) (owner : Address) (start : Staking)
      (ops : List (FirelightOp firelight)), start.strategy = deployed owner →
      0 < (run Staking.step start ops).strategy.totalShares.val →
      ∀ env (caller : Other firelight.strategy) assets l' issued,
        deposit firelight env caller.addr assets (run Staking.step start ops) = .ok (l', issued) →
        ∀ user, user ≠ caller.addr → ∀ v v',
          (run Staking.step start ops).strategy.convertToAssets
            ((run Staking.step start ops).strategy.balanceOf user) = .ok v →
          l'.strategy.convertToAssets (l'.strategy.balanceOf user) = .ok v' → v ≤ v') ∧
    ¬∀ (firelight : Firelight) (owner : Address) (start : Staking)
      (ops : List (FirelightOp firelight)), start.strategy = deployed owner →
      0 < (run Staking.step start ops).strategy.totalShares.val →
      ∀ env (caller : Other firelight.strategy) assets l' issued,
        deposit firelight env caller.addr assets (run Staking.step start ops) = .ok (l', issued) →
        ∀ env l'' back,
          withdraw firelight env caller.addr issued l' = .ok (l'', back) → back ≤ assets := by
  obtain ⟨l', done, worth, l'', returned⟩ := Sample.dust_deposited
  constructor
  · intro always
    have kept := always Sample.firelight Sample.owner _ Sample.yielded rfl (by decide +kernel) _
      ⟨Sample.bob, by decide⟩ 2 l' 2 done Sample.alice (by decide) 2500 2497 (by decide +kernel)
      worth
    revert kept
    decide
  · intro always
    have fair := always Sample.firelight Sample.owner _ Sample.yielded rfl (by decide +kernel) _
      ⟨Sample.bob, by decide⟩ 2 l' 2 done _ l'' 4 returned
    revert fair
    decide

end Mirror
