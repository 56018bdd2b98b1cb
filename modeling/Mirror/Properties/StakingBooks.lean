import Mirror.Properties.ShareDilution

/-!
The books of the strategy. Its shares are those of its accounts, its assets are tokens that it holds
or a yield that was set, and a share is worth no less later than sooner.
-/
namespace Mirror

open Evm Credit MockFirelightStrategy

section

variable {firelight : Firelight}

/-- The books of a strategy that nobody else can spend for. -/
structure Staking.Booked (firelight : Firelight) (l : Staking) : Prop where
  closed : l.ledger.Unapproved firelight.asset firelight.strategy
  shares : ∑ user, (l.strategy.balanceOf user).val = l.strategy.totalShares.val
  covered : l.strategy.totalAssets.val ≤
    (l.ledger firelight.asset).balanceOf firelight.strategy + l.strategy.yieldAmount.val

theorem Staking.Moved.booked {caller : Address} {l l' : Staking} {c : FirelightCall}
    (moved : l.Moved firelight caller l' c)
    (closed : l'.ledger.Unapproved firelight.asset firelight.strategy)
    (booked : l.Booked firelight) : l'.Booked firelight := by
  have counted := booked.shares
  have covered := booked.covered
  -- one account changes by what the totals change by
  cases moved with
  | deposited issued balance priced pool added book yield cash =>
    obtain ⟨assets', shares'⟩ := SharePool.mk.inj pool
    have moved := sum_comp_update Fin.val l.strategy.balanceOf caller balance
    refine ⟨closed, ?_, ?_⟩
    · rw [book, shares']
      dsimp only [MockFirelightStrategy.pool]
      omega
    · rw [assets', cash, yield]
      dsimp only [MockFirelightStrategy.pool]
      omega
  | withdrawn back balance owned returned pool held left book yield backed cash =>
    obtain ⟨assets', shares'⟩ := SharePool.mk.inj pool
    have moved := sum_comp_update Fin.val l.strategy.balanceOf caller balance
    rw [← returned] at assets'
    dsimp only [MockFirelightStrategy.pool] at assets' shares' held backed
    refine ⟨closed, ?_, ?_⟩
    · rw [book, shares']
      omega
    · rw [assets', yield]
      omega
  | yielded ledger book shares yield credited =>
    dsimp only [MockFirelightStrategy.pool] at shares credited
    refine ⟨closed, ?_, ?_⟩
    · rw [book, shares, counted]
    · rw [ledger, yield]
      omega

theorem Staking.step_books (l : Staking) (op : FirelightOp firelight)
    (booked : l.Booked firelight) : (l.step op).Booked firelight := by
  cases op with
  | call env caller c =>
    simp only [Staking.step]
    cases done : MockFirelightStrategy.call firelight env caller.addr l c with
    | error e => exact booked
    | ok l' =>
      obtain ⟨moved, closed⟩ := call_moved booked.closed done
      exact moved.booked closed booked
  | token op =>
    obtain ⟨closed, received⟩ := booked.closed.apply op
    have covered := booked.covered
    refine ⟨closed, booked.shares, ?_⟩
    simp only [Staking.step, received]
    omega

/-! ### What a share is worth -/

/-- A deposit buys a share, and a yield that is set is not below the one before. -/
def Staking.Keeps (l : Staking) : FirelightCall → Prop
  | .deposit assets => ¬l.strategy.Dust assets
  | .setYieldAmount amount => l.strategy.yieldAmount ≤ amount
  | .withdraw _ => True

/-- So it is of a call that goes through. -/
def Staking.Generous (l : Staking) : FirelightOp firelight → Prop
  | .call env caller c =>
    (MockFirelightStrategy.call firelight env caller.addr l c).isOk = true → l.Keeps c
  | .token _ => True

theorem Staking.Moved.noCheaper {caller : Address} {l l' : Staking} {c : FirelightCall}
    (moved : l.Moved firelight caller l' c) (generous : l.Keeps c)
    (owned : 0 < l.strategy.pool.shares) :
    l.strategy.pool.NoCheaper l'.strategy.pool := by
  -- a fair issue, a redemption rounded down, or a yield that rises
  cases moved with
  | deposited issued balance priced pool added book yield cash =>
    rw [pool]
    exact ((sharesFor_ok owned priced).2 generous).noCheaper
  | withdrawn back balance owned returned pool held left book yield backed cash =>
    rw [pool]
    exact SharePool.redeem_noCheaper _ _
  | yielded ledger book shares yield credited =>
    have more : l.strategy.yieldAmount.val ≤ _ := Fin.le_def.mp generous
    rw [SharePool.NoCheaper, shares]
    refine Nat.mul_le_mul_right _ ?_
    omega

/-- One call, if shares are left. -/
theorem Staking.step_noCheaper (l : Staking) (op : FirelightOp firelight)
    (booked : l.Booked firelight) (generous : l.Generous op)
    (owned : 0 < l.strategy.pool.shares) :
    l.strategy.pool.NoCheaper (l.step op).strategy.pool := by
  cases op with
  | call env caller c =>
    simp only [Staking.step]
    cases done : MockFirelightStrategy.call firelight env caller.addr l c with
    | error e => exact .refl _
    | ok l' =>
      have keeps : l.Keeps c := generous (by rw [done]; rfl)
      exact (call_moved booked.closed done).1.noCheaper keeps owned
  | token op => exact .refl _

/-- A run that is generous throughout, and in which somebody always holds shares. -/
theorem Staking.run_noCheaper (l : Staking) (ops : List (FirelightOp firelight))
    (booked : l.Booked firelight) (owned : 0 < l.strategy.pool.shares)
    (kept : Admissible Staking.step (fun l op => l.Generous op ∧
      0 < (l.step op).strategy.pool.shares) l ops) :
    0 < (run Staking.step l ops).strategy.pool.shares ∧
      l.strategy.pool.NoCheaper (run Staking.step l ops).strategy.pool := by
  induction ops generalizing l with
  | nil => exact ⟨owned, .refl _⟩
  | cons op ops ih =>
    obtain ⟨⟨generous, owned'⟩, rest⟩ := kept
    obtain ⟨last, later⟩ := ih (l.step op) (l.step_books op booked) owned' rest
    exact ⟨last, (l.step_noCheaper op booked generous owned).trans owned' later⟩

/-- Whoever holds shares can have their value, as long as no yield was set. -/
theorem Staking.Booked.redeems {l : Staking} (booked : l.Booked firelight)
    (yielded : l.strategy.yieldAmount = 0) (env : External) (caller : Other firelight.strategy)
    (shares : Uint256) (positive : 0 < shares.val)
    (held : shares ≤ l.strategy.balanceOf caller.addr)
    (fits : shares.val * l.strategy.totalAssets.val < 2 ^ 256)
    (taken : env.refuses firelight.asset firelight.strategy
      (.transfer caller.addr (l.strategy.pool.value shares.val)) = false) :
    ∃ l' back, withdraw firelight env caller.addr shares l = .ok (l', back) ∧
      l.strategy.convertToAssets shares = .ok back ∧
      (l'.ledger firelight.asset).balanceOf caller.addr =
        (l.ledger firelight.asset).balanceOf caller.addr + back.val := by
  have counted : shares.val ≤ l.strategy.pool.shares := by
    calc shares.val ≤ (l.strategy.balanceOf caller.addr).val := held
      _ ≤ ∑ user, (l.strategy.balanceOf user).val := val_le_sum _ _
      _ = l.strategy.pool.shares := booked.shares
  have cash : l.strategy.totalAssets.val ≤
      (l.ledger firelight.asset).balanceOf firelight.strategy := by
    have covered := booked.covered
    rwa [yielded, Fin.val_zero, Nat.add_zero] at covered
  have less : l.strategy.pool.value shares.val ≤ l.strategy.totalAssets.val :=
    Nat.div_le_of_le_mul (Nat.mul_le_mul_right _ counted)
  obtain ⟨l', back, done, returned, arrived⟩ :=
    withdraw_pays positive held counted fits (less.trans cash) taken
  exact ⟨l', back, done, (convertToAssets_ok (positive.trans_le counted)).mpr ⟨fits, returned⟩,
    arrived caller.other⟩

end

/-- After any calls the shares of all accounts make up the total, and the assets are tokens that the
strategy holds, except for the yield that was set. Where none was, whoever holds shares can redeem
any of them for what they convert to, unless that overflows or the token refuses. From then on, as
long as deposits buy shares, the yield does not fall and somebody holds shares, any number of shares
converts to no less. -/
theorem staking_books_balance (firelight : Firelight) (owner : Address) (start : Staking)
    (fresh : start.strategy = deployed owner)
    (closed : start.ledger.Unapproved firelight.asset firelight.strategy)
    (ops : List (FirelightOp firelight)) (l : Staking) (reached : run Staking.step start ops = l) :
    ∑ user, (l.strategy.balanceOf user).val = l.strategy.totalShares.val ∧
      l.strategy.totalAssets.val ≤ (l.ledger firelight.asset).balanceOf firelight.strategy +
        l.strategy.yieldAmount.val ∧
      (l.strategy.yieldAmount = 0 → ∀ (env : External) (caller : Other firelight.strategy) shares,
        0 < shares.val → shares ≤ l.strategy.balanceOf caller.addr →
        shares.val * l.strategy.totalAssets.val < 2 ^ 256 →
        env.refuses firelight.asset firelight.strategy
          (.transfer caller.addr (l.strategy.pool.value shares.val)) = false →
        ∃ l' back, withdraw firelight env caller.addr shares l = .ok (l', back) ∧
          l.strategy.convertToAssets shares = .ok back ∧
          (l'.ledger firelight.asset).balanceOf caller.addr =
            (l.ledger firelight.asset).balanceOf caller.addr + back.val) ∧
      (0 < l.strategy.totalShares.val → ∀ later : List (FirelightOp firelight),
        Admissible Staking.step (fun l op => l.Generous op ∧
          0 < (l.step op).strategy.totalShares.val) l later →
        ∀ shares v v', l.strategy.convertToAssets shares = .ok v →
          (run Staking.step l later).strategy.convertToAssets shares = .ok v' → v ≤ v') := by
  have opened : start.Booked firelight := by
    refine ⟨closed, ?_, ?_⟩ <;> rw [fresh] <;> simp [deployed]
  have booked := run_keeps Staking.step_books start opened ops
  rw [reached] at booked
  refine ⟨booked.shares, booked.covered, booked.redeems, ?_⟩
  intro owned later kept shares v v' before after
  obtain ⟨owned', dear⟩ := l.run_noCheaper later booked owned kept
  rw [convertToAssets_ok owned] at before
  rw [convertToAssets_ok owned'] at after
  rw [Fin.le_def, before.2, after.2]
  exact dear.value_le owned owned' shares.val

namespace Sample

/-- Alice has deposited her 1000 units, and no yield is set. -/
def endowed : Staking :=
  run Staking.step ⟨fun _ => Token.empty, deployed owner⟩ yielded.dropLast

theorem owner_ne_strategy : owner ≠ firelight.strategy := by decide

theorem bob_ne_strategy : bob ≠ firelight.strategy := by decide

/-- The owner sets a yield of 1500, and Bob deposits 7. -/
def gains : List (FirelightOp firelight) :=
  [.call (external fun _ => false) ⟨owner, owner_ne_strategy⟩ (.setYieldAmount 1500),
    .call (external fun _ => false) ⟨bob, bob_ne_strategy⟩ (.deposit 7)]

end Sample

/-- Alice can redeem 400 of her shares. Had she waited, they were worth no less. -/
theorem staking_books_balance_gains :
    (∃ l' back, withdraw Sample.firelight (Sample.external fun _ => false) Sample.alice 400
        Sample.endowed = .ok (l', back) ∧
      Sample.endowed.strategy.convertToAssets 400 = .ok back) ∧
    ∀ v v', Sample.endowed.strategy.convertToAssets 400 = .ok v →
      (run Staking.step Sample.endowed Sample.gains).strategy.convertToAssets 400 = .ok v' →
      v ≤ v' := by
  obtain ⟨-, -, redeems, grows⟩ := staking_books_balance Sample.firelight Sample.owner
    ⟨fun _ => Token.empty, deployed Sample.owner⟩ rfl (fun _ => rfl) Sample.yielded.dropLast
    Sample.endowed rfl
  constructor
  · obtain ⟨l', back, done, worth, -⟩ := redeems (by decide +kernel)
      (Sample.external fun _ => false) ⟨Sample.alice, by decide⟩ 400 (by decide)
      (by decide +kernel) (by decide +kernel) rfl
    exact ⟨l', back, done, worth⟩
  · refine grows (by decide +kernel) Sample.gains ⟨⟨?_, ?_⟩, ⟨?_, ?_⟩, trivial⟩ 400
    · exact fun _ => show Sample.endowed.strategy.yieldAmount ≤ 1500 by decide +kernel
    · decide +kernel
    · exact fun _ => show ¬(Sample.endowed.step _).strategy.Dust 7 from fun dust =>
        absurd dust.2 (by decide +kernel)
    · decide +kernel

end Mirror
