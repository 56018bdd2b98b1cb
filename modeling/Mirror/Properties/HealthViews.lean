import Mathlib.Data.List.Infix
import Mathlib.Tactic.IntervalCases
import Mirror.Properties.LendingBooks

/-!
The two views of an account's health. `isLiquidatable` prices the collateral only, and
`getAccountLiquidity` both sides, under a factor of its own: up to rounding, the first is the
stricter below 82.5 cents, and the second above.
-/
namespace Mirror

open Evm Credit MockKineticPool

/-! ### Rounded values -/

section

variable {value debt price unit : ℕ}

/-- The factor on the collateral of a liquidatable account leaves less than 82.5% of its debt. -/
theorem factored_lt (owes : 0 < debt) (short : value * 10000 / debt < 11000) :
    40 * (value * 7500 / 10000) < 33 * debt := by
  rw [Nat.div_lt_iff_lt_mul owes] at short
  omega

theorem add_le_mul_of_lt {m q d : ℕ} (less : m < d) (positive : 0 < q) : m + q ≤ d * q :=
  calc m + q ≤ m * q + q := Nat.add_le_add_right (Nat.le_mul_of_pos_right m positive) q
    _ = (m + 1) * q := (Nat.succ_mul m q).symm
    _ ≤ d * q := Nat.mul_le_mul_right q less

/-- A whole price rounds nothing off the debt. -/
theorem short_of_whole {m : ℕ} (positive : 0 < unit) (priced : unit ≤ price) (whole : unit ∣ price)
    (less : 40 * m < 33 * debt) : m * unit + price ≤ debt * price / unit * unit := by
  obtain ⟨q, rfl⟩ := whole
  have some_q : 0 < q := Nat.pos_of_mul_pos_left (positive.trans_le priced)
  have fits : m + q ≤ debt * q := add_le_mul_of_lt (by omega) some_q
  calc m * unit + unit * q = (m + q) * unit := by ring
    _ ≤ debt * q * unit := Nat.mul_le_mul_right _ fits
    _ = debt * (unit * q) / unit * unit := by
      rw [mul_left_comm, Nat.mul_div_cancel_left _ positive]

/-- A debt of five units outweighs what any price from a dollar up rounds off. -/
theorem short_of_large {m : ℕ} (positive : 0 < unit) (priced : unit ≤ price) (large : 5 ≤ debt)
    (short : value * 10000 / debt < 11000) (factored : m = value * 7500 / 10000) :
    m * unit + price ≤ debt * price / unit * unit := by
  rw [Nat.div_lt_iff_lt_mul (by omega)] at short
  -- two units are missing: for large debts by proportion, for small ones by inspection
  have missing : m + 1 < debt := by
    by_cases small : debt ≤ 11
    · interval_cases debt <;> omega
    · omega
  set q := price / unit
  have some_q : 0 < q := Nat.div_pos priced positive
  have below : price < (q + 1) * unit := Nat.lt_mul_of_div_lt (Nat.lt_succ_self q) positive
  have fits : m + 1 + q ≤ debt * q := add_le_mul_of_lt missing some_q
  have worth : debt * q ≤ debt * price / unit := Nat.mul_div_le_mul_div_assoc debt price unit
  calc m * unit + price ≤ m * unit + (q + 1) * unit := Nat.add_le_add_left below.le _
    _ = (m + 1 + q) * unit := by ring
    _ ≤ debt * price / unit * unit := Nat.mul_le_mul_right _ (fits.trans worth)

/-- Above 82.5 cents the debt outweighs the rounding as soon as it is large enough. -/
theorem short_of_margin {m : ℕ} (positive : 0 < unit) (less : 40 * m < 33 * debt)
    (margin : 33 * debt * unit + 40 * (unit + price) ≤ 40 * debt * price) :
    m * unit + price ≤ debt * price / unit * unit := by
  have rounded : debt * price < (debt * price / unit + 1) * unit :=
    Nat.lt_mul_of_div_lt (Nat.lt_succ_self _) positive
  have scaled : 40 * m * unit ≤ 33 * debt * unit := Nat.mul_le_mul_right _ less.le
  nlinarith

/-- What the ratio check lets through is within the factor, up to 82.5 cents. -/
theorem within_of_cheap {borrowed : ℕ} (positive : 0 < unit) (owes : 0 < debt)
    (enough : 11000 ≤ value * 10000 / debt) (cheap : 1000 * price ≤ 825 * unit)
    (worth : borrowed * unit ≤ debt * price) : borrowed ≤ value * 7500 / 10000 := by
  rw [Nat.le_div_iff_mul_le owes] at enough
  have scaled : 1000 * borrowed * unit ≤ 825 * debt * unit := by nlinarith
  have bounded : 1000 * borrowed ≤ 825 * debt := Nat.le_of_mul_le_mul_right scaled positive
  omega

/-- From a dollar up, a debt of at most 75% of the supply is missing less than a unit. -/
theorem within_of_covered {supplied : ℕ} (positive : 0 < unit) (priced : unit ≤ price)
    (covered : 4 * debt ≤ 3 * supplied) :
    debt * price / unit * unit <
      supplied * price / unit * 7500 / 10000 * unit + price := by
  rcases priced.eq_or_lt with rfl | dearer
  · rw [Nat.mul_div_cancel _ positive, Nat.mul_div_cancel _ positive]
    have enough : debt ≤ supplied * 7500 / 10000 := by omega
    exact (Nat.mul_le_mul_right _ enough).trans_lt (Nat.lt_add_of_pos_right positive)
  · have lower : debt * price / unit * unit ≤ debt * price := Nat.div_mul_le_self _ _
    have upper : supplied * price < (supplied * price / unit + 1) * unit :=
      Nat.lt_mul_of_div_lt (Nat.lt_succ_self _) positive
    generalize debt * price / unit = borrowed at *
    generalize supplied * price / unit = value at *
    have scaled : 4 * borrowed * unit < 3 * (value + 1) * unit := by nlinarith
    have close : 4 * borrowed < 3 * (value + 1) := Nat.lt_of_mul_lt_mul_right scaled
    -- what is missing is at most one dollar, and a unit is worth more
    have missing : borrowed ≤ value * 7500 / 10000 + 1 := by omega
    calc borrowed * unit ≤ (value * 7500 / 10000 + 1) * unit := Nat.mul_le_mul_right _ missing
      _ < value * 7500 / 10000 * unit + price := by
        rw [Nat.add_mul, one_mul]
        exact Nat.add_lt_add_left dearer _

end

/-! ### The pool -/

namespace MockKineticPool

variable (p : MockKineticPool) (user : Address)

/-- The factor and the threshold of a new pool, and a positive price. -/
structure AtDefaults : Prop where
  factor : p.collateralFactorBps = 7500
  threshold : p.liquidationThresholdBps = 11000
  priced : 0 < p.priceWei.val

instance : Decidable p.AtDefaults :=
  decidable_of_iff (p.collateralFactorBps = 7500 ∧ p.liquidationThresholdBps = 11000 ∧
    0 < p.priceWei.val) ⟨fun ⟨a, b, c⟩ => ⟨a, b, c⟩, fun ⟨a, b, c⟩ => ⟨a, b, c⟩⟩

/-- What the account may borrow in all, in dollars as `getAccountLiquidity` rounds them. -/
def maxBorrow : ℕ := p.terms.value (p.supplyBalance user).val * p.collateralFactorBps.val / 10000

/-- What it has borrowed, likewise. -/
def borrowVal : ℕ := p.terms.value (p.borrowBalance user).val

/-- The debt exceeds what may be borrowed by the value of a unit at least. -/
def Short : Prop :=
  p.maxBorrow user * priceUnit + p.priceWei.val ≤ p.borrowVal user * priceUnit

variable {p user} {liquidity shortfall : Uint256}

/-- A shortfall is reported exactly of who is short. -/
theorem shortfall_iff (h : p.getAccountLiquidity user = .ok (liquidity, shortfall)) :
    0 < shortfall.val ↔ p.Short user := by
  simp only [getAccountLiquidity, bind_ok, orRevert_ok, checkedMul_some] at h
  obtain ⟨supplied, valued, borrowed, owed, factored, scaled, h⟩ := h
  have may : (quotient factored 10000).val = p.maxBorrow user := by
    rw [quotient_val, scaled, quotient_val, valued]
    rfl
  have owes : (quotient borrowed priceUnit).val = p.borrowVal user := by
    rw [quotient_val, owed]
    rfl
  split at h
  case isTrue within =>
    simp only [bind_ok, orRevert_ok, checkedDiv_some, pure_ok, Prod.mk.injEq] at h
    obtain ⟨_, -, _, -, _, ⟨priced, -⟩, -, rfl⟩ := h
    rw [may, owes] at within
    have := Nat.mul_le_mul_right priceUnit within
    unfold Short
    simp only [Fin.val_zero]
    omega
  case isFalse beyond =>
    simp only [bind_ok, orRevert_ok, checkedSub_some, checkedMul_some, checkedDiv_some, pure_ok,
      Prod.mk.injEq] at h
    obtain ⟨deficit, missing, scaled, product, _, ⟨priced, divided⟩, -, rfl⟩ := h
    rw [may, owes] at missing
    have excess : p.borrowVal user * priceUnit =
        deficit.val * priceUnit + p.maxBorrow user * priceUnit := by rw [missing, Nat.add_mul]
    rw [divided, product, Nat.div_pos_iff]
    unfold Short
    change 0 < p.priceWei.val ∧ p.priceWei.val ≤ deficit.val * priceUnit ↔ _
    omega

theorem AtDefaults.maxBorrow (defaults : p.AtDefaults) :
    p.maxBorrow user = p.terms.value (p.supplyBalance user).val * 7500 / 10000 := by
  unfold MockKineticPool.maxBorrow
  rw [defaults.factor]
  rfl

/-- Who may be liquidated owes more than the threshold lets stand. -/
theorem AtDefaults.ratio_short (defaults : p.AtDefaults) (h : p.isLiquidatable user = .ok true) :
    0 < (p.borrowBalance user).val ∧
      p.terms.value (p.supplyBalance user).val * 10000 / (p.borrowBalance user).val < 11000 := by
  have unsound := unsound_of_liquidatable h
  rw [Terms.Sound, not_or, not_le] at unsound
  have threshold : p.terms.threshold = 11000 := congrArg Fin.val defaults.threshold
  exact ⟨Nat.pos_of_ne_zero unsound.1, unsound.2.trans_eq threshold⟩

/-- From a dollar up, but for the rounding of small debts, and from 82.5 cents up for debts that
outweigh the rounding, who may be liquidated is short. -/
theorem AtDefaults.short_of_liquidatable (defaults : p.AtDefaults)
    (h : p.isLiquidatable user = .ok true)
    (dear : (priceUnit ≤ p.priceWei.val ∧
        (priceUnit ∣ p.priceWei.val ∨ 5 ≤ (p.borrowBalance user).val)) ∨
      33 * (p.borrowBalance user).val * priceUnit + 40 * (priceUnit + p.priceWei.val) ≤
        40 * (p.borrowBalance user).val * p.priceWei.val) : p.Short user := by
  obtain ⟨owes, short⟩ := defaults.ratio_short h
  have unit : 0 < priceUnit := by decide
  have less := factored_lt owes short
  rw [Short, defaults.maxBorrow]
  rcases dear with ⟨priced, whole | large⟩ | margin
  · exact short_of_whole unit priced whole less
  · exact short_of_large unit priced large short rfl
  · exact short_of_margin unit less margin

end MockKineticPool

/-- What a borrow that goes through has checked. -/
theorem borrow_checked {kinetic : Kinetic} {env : External} {caller : Address} {amount : Uint256}
    {l l' : Lending} (h : borrow kinetic env caller amount l = .ok l') :
    (l.pool.AtDefaults → l'.pool.AtDefaults) ∧ 0 < (l'.pool.borrowBalance caller).val ∧
      l'.pool.terms.Sound (l'.pool.positions caller) := by
  simp only [borrow, bind_ok, revertIf_ok, orRevert_ok, checkedAdd_some, pure_ok, not_lt] at h
  obtain ⟨_, nonzero, debt, added, ratio, reported, _, enough, _, -, total, -, ledger, -, rfl⟩ := h
  refine ⟨fun defaults => ⟨defaults.factor, defaults.threshold, defaults.priced⟩, ?_, ?_⟩
  · have positive : 0 < amount.val := Fin.pos_iff_ne_zero.mpr nonzero
    simp only [Function.update_self, added]
    omega
  · exact sound_of_ratio reported enough

/-- At 82.5 cents or less, and from a dollar up where 75% of the supply covers the debt, who has
just borrowed is not short. -/
theorem not_short_of_borrowed {kinetic : Kinetic} {env : External} {caller : Address}
    {amount : Uint256} {l l' : Lending} (defaults : l.pool.AtDefaults)
    (h : borrow kinetic env caller amount l = .ok l')
    (covered : 1000 * l'.pool.priceWei.val ≤ 825 * priceUnit ∨
      (priceUnit ≤ l'.pool.priceWei.val ∧
        4 * (l'.pool.borrowBalance caller).val ≤ 3 * (l'.pool.supplyBalance caller).val)) :
    ¬l'.pool.Short caller := by
  obtain ⟨kept, owes, sound⟩ := borrow_checked h
  have defaults := kept defaults
  have unit : 0 < priceUnit := by decide
  rw [Short, defaults.maxBorrow, not_le]
  rcases covered with cheap | ⟨priced, enough⟩
  · have threshold : l'.pool.terms.threshold = 11000 := congrArg Fin.val defaults.threshold
    have ratio := sound.resolve_left owes.ne'
    rw [threshold] at ratio
    have within := within_of_cheap unit owes ratio cheap (Nat.div_mul_le_self _ _)
    exact (Nat.mul_le_mul_right _ within).trans_lt (Nat.lt_add_of_pos_right defaults.priced)
  · exact within_of_covered unit priced enough

/-- The default factor and threshold and any positive price: a shortfall is reported exactly of who
is short, of who may be liquidated where the price is high, and not of who has just borrowed where
it is low or the supply covers the debt. -/
theorem health_views_agree (l : Lending) (defaults : l.pool.AtDefaults) :
    (∀ user liquidity shortfall,
      l.pool.getAccountLiquidity user = .ok (liquidity, shortfall) →
      (0 < shortfall.val ↔ l.pool.Short user) ∧
        (l.pool.isLiquidatable user = .ok true →
          ((priceUnit ≤ l.pool.priceWei.val ∧
              (priceUnit ∣ l.pool.priceWei.val ∨ 5 ≤ (l.pool.borrowBalance user).val)) ∨
            33 * (l.pool.borrowBalance user).val * priceUnit +
                40 * (priceUnit + l.pool.priceWei.val) ≤
              40 * (l.pool.borrowBalance user).val * l.pool.priceWei.val) →
          0 < shortfall.val)) ∧
      ∀ kinetic env caller amount l' liquidity shortfall,
        borrow kinetic env caller amount l = .ok l' →
        l'.pool.getAccountLiquidity caller = .ok (liquidity, shortfall) →
        (1000 * l'.pool.priceWei.val ≤ 825 * priceUnit ∨
          (priceUnit ≤ l'.pool.priceWei.val ∧
            4 * (l'.pool.borrowBalance caller).val ≤ 3 * (l'.pool.supplyBalance caller).val)) →
        shortfall = 0 := by
  constructor
  · intro user liquidity shortfall reported
    refine ⟨shortfall_iff reported, fun liquidatable dear => ?_⟩
    exact (shortfall_iff reported).mpr (defaults.short_of_liquidatable liquidatable dear)
  · intro kinetic env caller amount l' liquidity shortfall borrowed reported covered
    have covers := not_short_of_borrowed defaults borrowed covered
    rw [← shortfall_iff reported, Nat.not_lt, Nat.le_zero] at covers
    exact Fin.ext covers

/-- Reached from a new pool, at the defaults all along. -/
def Lending.ReachedAtDefaults (kinetic : Kinetic) (l : Lending) : Prop :=
  ∃ owner start, ∃ ops : List (KineticOp kinetic), start.pool = deployed owner ∧
    start.ledger.Unapproved kinetic.asset kinetic.pool ∧
    (∀ done, done <+: ops → (run Lending.step start done).pool.AtDefaults) ∧
    run Lending.step start ops = l

namespace Sample

/-- Alice supplies what she has made herself. -/
def supplied (amount : Uint256) : List (KineticOp kinetic) :=
  let calls (call : TokenCall Address) : KineticOp kinetic :=
    .token ⟨external fun _ => false, borrower, kinetic.asset, call⟩
  [calls (.mint alice amount.val), calls (.approve kinetic.pool amount.val),
    .call (external fun _ => false) borrower (.supply amount)]

/-- With 200 supplied she borrows 100, and the price is halved. -/
def halved : List (KineticOp kinetic) :=
  supplied 200 ++ [.call (external fun _ => false) borrower (.borrow 100),
    .call (external fun _ => false) ⟨owner, by decide⟩ (.setPrice (5 * 10 ^ 17))]

def opened : Lending := ⟨fun _ => Token.empty, deployed owner⟩

theorem reached (ops : List (KineticOp kinetic))
    (steady : ∀ done ∈ ops.inits, (run Lending.step opened done).pool.AtDefaults) :
    (run Lending.step opened ops).ReachedAtDefaults kinetic :=
  ⟨owner, opened, ops, rfl, fun _ => rfl,
    fun done initial => steady done ((List.mem_inits _ _).mpr initial), rfl⟩

end Sample

theorem health_views_agree_halved :
    ∃ liquidity shortfall,
      (run Lending.step Sample.opened Sample.halved).pool.getAccountLiquidity Sample.alice =
        .ok (liquidity, shortfall) ∧
      (0 < shortfall.val ↔
        (run Lending.step Sample.opened Sample.halved).pool.Short Sample.alice) := by
  refine ⟨50, 0, by decide +kernel, ?_⟩
  exact ((health_views_agree (run Lending.step Sample.opened Sample.halved)
    (by decide +kernel)).1 Sample.alice 50 0 (by decide +kernel)).1

/-- At half a dollar 100 units are liquidatable against 200, and 50 more could be borrowed; at a
dollar 90 may be borrowed against 100, and 15 are missing. -/
theorem health_views_differ :
    (¬∀ kinetic l, Lending.ReachedAtDefaults kinetic l → ∀ user liquidity shortfall,
      l.pool.isLiquidatable user = .ok true →
      l.pool.getAccountLiquidity user = .ok (liquidity, shortfall) → 0 < shortfall.val) ∧
    ¬∀ kinetic l, Lending.ReachedAtDefaults kinetic l →
      ∀ env caller amount l' liquidity shortfall,
        borrow kinetic env caller amount l = .ok l' →
        l'.pool.getAccountLiquidity caller = .ok (liquidity, shortfall) → shortfall = 0 := by
  constructor
  · intro always
    have positive := always Sample.kinetic _ (Sample.reached Sample.halved (by decide +kernel))
      Sample.alice 50 0 (by decide +kernel) (by decide +kernel)
    exact Nat.lt_irrefl 0 positive
  · intro always
    have none := always Sample.kinetic _ (Sample.reached (Sample.supplied 100) (by decide +kernel))
      (Sample.external fun _ => false) Sample.alice 90
    have reported : ((borrow Sample.kinetic (Sample.external fun _ => false) Sample.alice 90
        (run Lending.step Sample.opened (Sample.supplied 100))).toOption.bind
          fun l' => (l'.pool.getAccountLiquidity Sample.alice).toOption) = some (0, 15) := by
      decide +kernel
    cases done : borrow Sample.kinetic (Sample.external fun _ => false) Sample.alice 90
        (run Lending.step Sample.opened (Sample.supplied 100)) with
    | error e =>
      rw [done] at reported
      cases reported
    | ok l' =>
      rw [done] at reported
      cases viewed : l'.pool.getAccountLiquidity Sample.alice with
      | error e =>
        simp only [Except.toOption, Option.bind_some, viewed, reduceCtorEq] at reported
      | ok view =>
        simp only [Except.toOption, Option.bind_some, viewed, Option.some.injEq] at reported
        subst reported
        exact absurd (none l' 0 15 done viewed) (by decide)

end Mirror
