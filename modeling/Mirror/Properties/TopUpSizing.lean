import Mirror.Agent.Health
import Mirror.Mocks.KineticPool

/-!
Whether the suggested top-up restores the ratio it aims at. The agent sizes it in units of the
asset, the pool values the collateral at its price and rounds twice.
-/
namespace Mirror

open Evm Js MockKineticPool

/-! ### The pool -/

/-- The ratio of an account with debt. -/
theorem collateralRatioBps_of_debt {p : MockKineticPool} {user : Address} {ratio : Uint256}
    (debt : 0 < (p.borrowBalance user).val) (h : p.getCollateralRatioBps user = .ok ratio) :
    ratio.val = (p.supplyBalance user).val * p.priceWei.val / priceUnit * 10000 /
      (p.borrowBalance user).val := by
  have nonzero : p.borrowBalance user ≠ 0 := Fin.pos_iff_ne_zero.mp debt
  simp only [getCollateralRatioBps, collateralRatioBps, if_neg nonzero, bind_ok, orRevert_ok,
    checkedMul_some, checkedDiv_some, quotient_val] at h
  obtain ⟨value, product, scaled, rescaled, -, divided⟩ := h
  rw [divided, rescaled, product]
  rfl

/-- Supplying changes what the user has supplied, and nothing else that the ratio reads. -/
structure Supplied (user : Address) (amount : Uint256) (p p' : MockKineticPool) : Prop where
  supply : (p'.supplyBalance user).val = (p.supplyBalance user).val + amount.val
  borrow : p'.borrowBalance = p.borrowBalance
  price : p'.priceWei = p.priceWei

theorem supply_supplied {kinetic : Kinetic} {env : External} {user : Address} {amount : Uint256}
    {l l' : Lending} (h : supply kinetic env user amount l = .ok l') :
    Supplied user amount l.pool l'.pool := by
  simp only [supply, credit, bind_ok, orRevert_ok, pure_ok, checkedAdd_some] at h
  obtain ⟨_, -, ledger, -, _, ⟨balance, sum, total, -, rfl⟩, rfl⟩ := h
  refine ⟨?_, rfl, rfl⟩
  dsimp only
  rw [Function.update_self, sum]

/-- The user supplies the amount, or there is nothing to supply. -/
def TopsUp (kinetic : Kinetic) (env : External) (user : Address) (amount : Uint256)
    (l l' : Lending) : Prop :=
  (amount = 0 ∧ l' = l) ∨ supply kinetic env user amount l = .ok l'

theorem TopsUp.supplied {kinetic : Kinetic} {env : External} {user : Address} {amount : Uint256}
    {l l' : Lending} (h : TopsUp kinetic env user amount l l') :
    Supplied user amount l.pool l'.pool := by
  rcases h with ⟨rfl, rfl⟩ | supplied
  · exact ⟨rfl, rfl, rfl⟩
  · exact supply_supplied supplied

/-! ### The agent -/

/-- A suggestion for an account in need. -/
theorem assessHealth_suggestion {setting : Option JsString} {opts : HealthOptions}
    {snap : HealthSnapshot} {debt supplied : ℕ} {cr : Uint256}
    (assessed : assessHealth setting opts = some snap) (needed : snap.needsTopUp = true)
    (owes : 0 < debt) (ratio : opts.collateralRatioBps = .ofBigInt cr.val)
    (borrow : opts.borrowBalance = some (debt : ℤ))
    (supply : opts.supplyBalance = some (supplied : ℤ)) :
    ∃ alert : ℕ, (opts.alertBps.getD (liquidationAlertBps setting)).toBigInt = some (alert : ℤ) ∧
      cr.val < alert ∧
      snap.suggestedTopUp = ((alert * debt / 10000 - supplied : ℕ) : ℤ) := by
  simp only [assessHealth, Option.bind_eq_bind, Option.bind_eq_some_iff, Option.pure_def,
    Option.some.injEq, borrow, suggestedTopUp] at assessed
  obtain ⟨top, suggested, rfl⟩ := assessed
  dsimp only at needed ⊢
  have positive : decide (0 < (debt : ℤ)) = true := decide_eq_true (by exact_mod_cast owes)
  rw [needed, positive, Bool.and_self, if_pos rfl, Option.map_eq_some_iff] at suggested
  obtain ⟨alert, integral, rfl⟩ := suggested
  -- the ratio is below the alert line as an integer too, so that line is positive
  have below := (Bool.and_eq_true_iff.mp needed).1
  obtain ⟨line, isLine, value⟩ := Number.toBigInt_some.mp integral
  rw [isLine, ratio] at below
  have lower : (cr.val : ℤ) < alert := by
    have := Number.lt_of_ofBigInt_lt below
    rw [value] at this
    exact_mod_cast this
  lift alert to ℕ using by omega
  refine ⟨alert, integral, by exact_mod_cast lower, ?_⟩
  have target : ((debt : ℤ) * alert).tdiv 10000 = ((alert * debt / 10000 : ℕ) : ℤ) := by
    rw [Int.tdiv_eq_ediv_of_nonneg (by positivity)]
    push_cast
    rw [mul_comm]
  simp only [suggestion, supply, Option.getD_some, target]
  split <;> omega

/-! ### Both -/

/-- A supply of `need / 10000` is worth `need / 10000`, unrounded, exactly if the price makes up
for both roundings. -/
theorem worth_iff {need price unit : ℕ} (positive : 0 < need) (hunit : 0 < unit) :
    need ≤ need / 10000 * price / unit * 10000 ↔
      unit ≤ price ∧ (10000 ∣ need ∨ unit ≤ need / 10000 * (price - unit)) := by
  have split := Nat.div_add_mod need 10000
  generalize need / 10000 = target at *
  rcases Nat.eq_zero_or_pos (need % 10000) with whole | rest
  · -- nothing was rounded off: the collateral must not be worth less than its amount
    have divides : 10000 ∣ need := Nat.dvd_of_mod_eq_zero whole
    have fewer : need ≤ target * price / unit * 10000 ↔ target ≤ target * price / unit := by
      omega
    rw [fewer, Nat.le_div_iff_mul_le hunit, Nat.mul_le_mul_left_iff (by omega)]
    exact ⟨fun h => ⟨h, .inl divides⟩, And.left⟩
  · -- one unit more than the target is needed
    have rounded : ¬10000 ∣ need := fun h => rest.ne' (Nat.mod_eq_zero_of_dvd h)
    have more : need ≤ target * price / unit * 10000 ↔ target + 1 ≤ target * price / unit := by
      have := Nat.mod_lt need (show 0 < 10000 by decide)
      omega
    rw [more, Nat.le_div_iff_mul_le hunit, Nat.add_mul, one_mul]
    simp only [rounded, false_or, Nat.mul_sub]
    constructor
    · intro enough
      refine ⟨?_, by omega⟩
      by_contra low
      have : target * price ≤ target * unit := Nat.mul_le_mul_left _ (by omega)
      omega
    · rintro ⟨high, enough⟩
      have : target * unit ≤ target * price := Nat.mul_le_mul_left _ high
      omega

/-- A supply below the alert line reaches it, by a top-up to the target, exactly where the target
is worth what it should be. -/
theorem restored_iff {supplied price debt alert : ℕ} (owes : 0 < debt)
    (below : supplied * price / priceUnit * 10000 / debt < alert) :
    (0 < alert * debt / 10000 - supplied ∧
      alert ≤ (supplied + (alert * debt / 10000 - supplied)) * price / priceUnit * 10000 / debt) ↔
    priceUnit ≤ price ∧
      (10000 ∣ alert * debt ∨ priceUnit ≤ alert * debt / 10000 * (price - priceUnit)) := by
  have need : 0 < alert * debt := Nat.mul_pos (Nat.zero_lt_of_lt below) owes
  rw [Nat.div_lt_iff_lt_mul owes] at below
  rw [Nat.le_div_iff_mul_le owes, ← worth_iff need (by decide)]
  constructor
  · rintro ⟨short, reached⟩
    rwa [Nat.add_sub_cancel' (by omega)] at reached
  · intro reached
    -- a supply at the target or beyond would have been worth enough before
    have short : supplied < alert * debt / 10000 := by
      by_contra full
      have : alert * debt / 10000 * price / priceUnit ≤ supplied * price / priceUnit :=
        Nat.div_le_div_right (Nat.mul_le_mul_right _ (not_lt.mp full))
      omega
    refine ⟨by omega, ?_⟩
    rwa [Nat.add_sub_cancel' short.le]

/-- A suggested top-up is positive and takes the account to the alert line exactly where the price
is at least a dollar and the target is whole or the surplus of its value makes up a unit. -/
theorem topUp_restores_iff (setting : Option JsString) (opts : HealthOptions)
    (snap : HealthSnapshot) (kinetic : Kinetic) (env : External) (user : Address)
    (l l' : Lending) (cr cr' amount : Uint256)
    (owes : 0 < (l.pool.borrowBalance user).val)
    (ratio : l.pool.getCollateralRatioBps user = .ok cr)
    (reported : opts.collateralRatioBps = .ofBigInt cr.val)
    (borrow : opts.borrowBalance = some ((l.pool.borrowBalance user).val : ℤ))
    (supply : opts.supplyBalance = some ((l.pool.supplyBalance user).val : ℤ))
    (assessed : assessHealth setting opts = some snap) (needed : snap.needsTopUp = true)
    (suggested : snap.suggestedTopUp = amount.val)
    (topped : TopsUp kinetic env user amount l l')
    (ratio' : l'.pool.getCollateralRatioBps user = .ok cr') :
    ∃ alert : ℕ, (opts.alertBps.getD (liquidationAlertBps setting)).toBigInt = some (alert : ℤ) ∧
      (0 < snap.suggestedTopUp ∧ alert ≤ cr'.val ↔
        priceUnit ≤ l.pool.priceWei.val ∧
          (10000 ∣ alert * (l.pool.borrowBalance user).val ∨
            priceUnit ≤ alert * (l.pool.borrowBalance user).val / 10000 *
              (l.pool.priceWei.val - priceUnit))) := by
  obtain ⟨alert, integral, below, sized⟩ :=
    assessHealth_suggestion assessed needed owes reported borrow supply
  refine ⟨alert, integral, ?_⟩
  have grown := topped.supplied
  rw [collateralRatioBps_of_debt owes ratio] at below
  rw [collateralRatioBps_of_debt (by rw [grown.borrow]; exact owes) ratio', grown.supply,
    grown.borrow, grown.price]
  rw [sized] at suggested
  have filled : amount.val = alert * (l.pool.borrowBalance user).val / 10000 -
      (l.pool.supplyBalance user).val := by exact_mod_cast suggested.symm
  rw [filled, sized, ← restored_iff owes below]
  norm_num

namespace Sample

def kinetic : Kinetic := ⟨14, deployment.fxrpToken⟩

/-- Alice owes 100 and holds 100 more, which the pool may pull. -/
def lending (priceWei supplied : Uint256) : Lending where
  ledger _ := token [(alice, .mint alice 100), (alice, .approve kinetic.pool 100)]
  pool := { deployed owner with
    priceWei
    supplyBalance := Function.update (fun _ => 0) alice supplied
    borrowBalance := Function.update (fun _ => 0) alice 100 }

/-- What the agent is told: a ratio of 12500, and these balances. -/
def healthOptions (supplied : ℤ) : HealthOptions where
  follower := text "alice"
  lead := text "lead"
  collateralRatioBps := .ofBigInt 12500
  liquidateBps := none
  alertBps := none
  drift := none
  borrowBalance := some 100
  supplyBalance := some supplied

def healthSnapshot (suggestedTopUp : ℤ) : HealthSnapshot where
  follower := text "alice"
  lead := text "lead"
  collateralRatioBps := .ofBigInt 12500
  alertBps := .ofRat 13000
  liquidateBps := .ofRat 11000
  status := .liquidationRisk
  needsTopUp := true
  suggestedTopUp

/-- At a dollar 5 more are supplied, and the ratio is 13000. -/
theorem lending_topped :
    ∃ l', TopsUp kinetic (external fun _ => false) alice 5 (lending (10 ^ 18) 125) l' ∧
      l'.pool.getCollateralRatioBps alice = .ok 13000 := by
  have after : ((supply kinetic (external fun _ => false) alice 5
      (lending (10 ^ 18) 125)).toOption.bind
        fun l' => (l'.pool.getCollateralRatioBps alice).toOption) = some 13000 := by
    decide +kernel
  cases h : supply kinetic (external fun _ => false) alice 5 (lending (10 ^ 18) 125) with
  | error e =>
    rw [h] at after
    cases after
  | ok l' =>
    rw [h] at after
    refine ⟨l', .inr h, ?_⟩
    cases ratio : l'.pool.getCollateralRatioBps alice with
    | error e =>
      simp only [Except.toOption, ratio, Option.bind_some, reduceCtorEq] at after
    | ok cr =>
      simp only [Except.toOption, ratio, Option.bind_some, Option.some.injEq] at after
      rw [after]

end Sample

theorem topUp_restores_iff_dollar :
    ∃ alert : ℕ, (liquidationAlertBps none).toBigInt = some (alert : ℤ) ∧
      (0 < (Sample.healthSnapshot 5).suggestedTopUp ∧ alert ≤ (13000 : Uint256).val ↔
        priceUnit ≤ 10 ^ 18 ∧
          (10000 ∣ alert * 100 ∨ priceUnit ≤ alert * 100 / 10000 * (10 ^ 18 - priceUnit))) := by
  obtain ⟨l', topped, ratio'⟩ := Sample.lending_topped
  exact topUp_restores_iff none (Sample.healthOptions 125) (Sample.healthSnapshot 5)
    Sample.kinetic _ Sample.alice (Sample.lending (10 ^ 18) 125) l' 12500 13000 5
    (by decide +kernel) (by decide +kernel) rfl rfl rfl (by decide +kernel) rfl rfl topped ratio'

/-- At half a dollar 250 supplied for 100 borrowed need a top-up, and none is suggested. -/
theorem topUp_not_always_restores :
    ¬∀ (setting : Option JsString) (opts : HealthOptions) (snap : HealthSnapshot)
      (kinetic : Kinetic) (env : External) (user : Address) (l l' : Lending)
      (cr cr' amount : Uint256) (alert : ℕ),
      0 < (l.pool.borrowBalance user).val → 0 < l.pool.priceWei.val →
      l.pool.getCollateralRatioBps user = .ok cr →
      opts.collateralRatioBps = .ofBigInt cr.val →
      opts.borrowBalance = some ((l.pool.borrowBalance user).val : ℤ) →
      opts.supplyBalance = some ((l.pool.supplyBalance user).val : ℤ) →
      assessHealth setting opts = some snap → snap.needsTopUp = true →
      snap.liquidateBps.le snap.alertBps = true →
      snap.alertBps.toBigInt = some (alert : ℤ) →
      snap.suggestedTopUp = amount.val → TopsUp kinetic env user amount l l' →
      l'.pool.getCollateralRatioBps user = .ok cr' →
      0 < snap.suggestedTopUp ∧ alert ≤ cr'.val := by
  intro always
  have restored := always none (Sample.healthOptions 250) (Sample.healthSnapshot 0) Sample.kinetic
    (Sample.external fun _ => false) Sample.alice (Sample.lending (5 * 10 ^ 17) 250)
    (Sample.lending (5 * 10 ^ 17) 250) 12500 12500 0 13000 (by decide +kernel) (by decide +kernel)
    (by decide +kernel) rfl rfl rfl (by decide +kernel) rfl (by decide +kernel)
    (by decide +kernel) rfl (.inl ⟨rfl, rfl⟩) (by decide +kernel)
  exact absurd restored.1 (by decide)

end Mirror
