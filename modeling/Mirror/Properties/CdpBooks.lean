import Mirror.Refinement.Loans

/-!
The books of the stablecoin contract. Every stable balance is the debt of its holder, the tokens
held are the collateral recorded and what was given, and while price and threshold stay a sound
account stays sound.
-/
namespace Mirror

open Evm Credit MockEnosysCDP

section

variable {enosys : Enosys}

/-- The books of a contract that nobody else can spend for. -/
structure Loans.Booked (enosys : Enosys) (l : Loans) : Prop where
  closed : l.ledger.Unapproved enosys.collateralToken enosys.cdp
  stable : l.cdp.stableBalance = l.cdp.debtOf
  covered : ∑ user, (l.cdp.collateralOf user).val ≤
    (l.ledger enosys.collateralToken).balanceOf enosys.cdp

/-- What the contract holds beyond the collateral that it has recorded. -/
def Loans.surplus (enosys : Enosys) (l : Loans) : ℕ :=
  (l.ledger enosys.collateralToken).balanceOf enosys.cdp - ∑ user, (l.cdp.collateralOf user).val

theorem Loans.Moves.booked {l l' : Loans} {c : Change Address} (moves : l.Moves enosys l' c)
    (booked : l.Booked enosys) : l'.Booked enosys ∧ l'.surplus enosys = l.surplus enosys := by
  have recorded := moves.makes.collateral_sum
  simp only [positions, positionsOf] at recorded
  have cash := moves.cash
  have covered := booked.covered
  -- the sums are compared as numbers only
  have kept : ∑ user, (l'.cdp.collateralOf user).val ≤
      (l'.ledger enosys.collateralToken).balanceOf enosys.cdp ∧
        l'.surplus enosys = l.surplus enosys := by
    unfold Loans.surplus
    generalize ∑ user, (l'.cdp.collateralOf user).val = after at *
    generalize ∑ user, (l.cdp.collateralOf user).val = before at *
    omega
  exact ⟨⟨moves.closed, moves.stable booked.stable, kept.1⟩, kept.2⟩

theorem Loans.Tuned.booked {l l' : Loans} (tuned : l.Tuned l') (booked : l.Booked enosys) :
    l'.Booked enosys ∧ l'.surplus enosys = l.surplus enosys := by
  have columns (user : Address) := Position.mk.inj (congrFun tuned.positions user)
  refine ⟨⟨?_, tuned.stable booked.stable, ?_⟩, ?_⟩
  · rw [tuned.ledger]
    exact booked.closed
  · simp only [tuned.ledger, columns, booked.covered]
  · simp only [surplus, tuned.ledger, columns]

theorem loans_booked (l : Loans) (op : EnosysOp enosys) (booked : l.Booked enosys) :
    (l.step op).Booked enosys ∧ (l.step op).surplus enosys = l.surplus enosys + l.donation op := by
  cases op with
  | call env caller c =>
    simp only [Loans.step, Loans.donation]
    rw [Nat.add_zero]
    cases done : MockEnosysCDP.call enosys env caller.addr l c with
    | error e => exact ⟨booked, rfl⟩
    | ok l' =>
      rcases enosys_moves booked.closed done with tuned | ⟨change, moves⟩
      · exact tuned.booked booked
      · exact moves.booked booked
  | token op =>
    obtain ⟨closed, received⟩ := booked.closed.apply op
    simp only [Loans.step, Loans.donation, Loans.surplus, received]
    refine ⟨⟨closed, booked.stable, ?_⟩, Nat.sub_add_comm booked.covered⟩
    rw [received]
    exact booked.covered.trans (Nat.le_add_right _ _)

/-- While price and threshold stay, a sound account stays sound. -/
theorem loans_sound (l : Loans) (op : EnosysOp enosys) (booked : l.Booked enosys)
    (same : (l.step op).cdp.terms = l.cdp.terms) {user : Address}
    (sound : l.cdp.terms.Sound (l.cdp.positions user)) :
    (l.step op).cdp.terms.Sound ((l.step op).cdp.positions user) := by
  rw [same]
  cases op with
  | call env caller c =>
    simp only [Loans.step] at same ⊢
    cases done : MockEnosysCDP.call enosys env caller.addr l c with
    | error e => exact sound
    | ok l' =>
      rcases enosys_moves booked.closed done with tuned | ⟨change, moves⟩
      · simp only [tuned.positions]
        exact sound
      · exact moves.makes.sound sound
  | token op => exact sound

/-- Recorded collateral can be paid out, unless the token refuses. -/
theorem Loans.Booked.payable {l : Loans} (booked : l.Booked enosys) {env : External}
    {user : Address} {n : ℕ} (recorded : n ≤ (l.cdp.collateralOf user).val)
    (accepted : env.refuses enosys.collateralToken enosys.cdp (.transfer user n) = false) :
    ∃ L', l.ledger.call env enosys.collateralToken enosys.cdp (.transfer user n) = .ok L' := by
  have total := val_le_sum l.cdp.collateralOf user
  have enough : n ≤ (l.ledger enosys.collateralToken).balanceOf enosys.cdp :=
    (recorded.trans total).trans booked.covered
  obtain ⟨t, moved⟩ := (Token.move_isSome _ enosys.cdp user n).mpr enough
  exact ⟨_, (Ledger.call_ok _ _ _ _ _ _).mpr ⟨accepted, t, moved, rfl⟩⟩

/-- Nobody lacks the stable balance to repay a debt. -/
theorem Loans.Booked.repayable {l : Loans} (booked : l.Booked enosys) (user : Address)
    (amount : Uint256) : repayStable user amount l ≠ .error .insufficientCollateral := by
  intro h
  simp only [repayStable, booked.stable, bind_error, revertIf_error, revertIf_ok, orRevert_error,
    pure_error, reduceCtorEq, and_false, exists_false, or_false, false_or] at h
  obtain ⟨_, -, short, -⟩ := h
  split at short
  case isTrue => exact lt_irrefl _ short
  case isFalse covered => exact covered short

end

/-- Every stable balance is a debt, and the contract holds the recorded collateral with what it was
given, so that collateral can be paid out and debts repaid. While price and threshold stay, an
account that owes nothing or has the ratio called for never comes to owe at a lower one. -/
theorem cdp_books_balance (enosys : Enosys) (owner : Address) (start : Loans)
    (fresh : start.cdp = deployed owner)
    (closed : start.ledger.Unapproved enosys.collateralToken enosys.cdp)
    (ops : List (EnosysOp enosys)) (l : Loans) (reached : run Loans.step start ops = l) :
    (∀ user, l.cdp.stableBalance user = l.cdp.debtOf user) ∧
      (l.ledger enosys.collateralToken).balanceOf enosys.cdp =
        ∑ user, (l.cdp.collateralOf user).val +
          ((start.ledger enosys.collateralToken).balanceOf enosys.cdp +
            accumulate Loans.step Loans.donation start ops) ∧
      (∀ env user n, n ≤ (l.cdp.collateralOf user).val →
        env.refuses enosys.collateralToken enosys.cdp (.transfer user n) = false →
        ∃ L', l.ledger.call env enosys.collateralToken enosys.cdp (.transfer user n) = .ok L') ∧
      (∀ user amount, repayStable user amount l ≠ .error .insufficientCollateral) ∧
      ∀ later : List (EnosysOp enosys),
        (∀ done, done <+: later → (run Loans.step l done).cdp.priceWei = l.cdp.priceWei ∧
          (run Loans.step l done).cdp.liquidationThresholdBps = l.cdp.liquidationThresholdBps) →
        ∀ user, (l.cdp.debtOf user = 0 ∨ ∃ ratio,
          l.cdp.getCollateralRatio user = .ok ratio ∧
          l.cdp.liquidationThresholdBps.val ≤ ratio.val) →
        ¬(0 < ((run Loans.step l later).cdp.debtOf user).val ∧ ∃ ratio,
          (run Loans.step l later).cdp.getCollateralRatio user = .ok ratio ∧
          ratio.val < (run Loans.step l later).cdp.liquidationThresholdBps.val) := by
  have opened : start.Booked enosys := by
    refine ⟨closed, ?_, ?_⟩
    · rw [fresh]
      rfl
    · simp [fresh, deployed]
  have booked := run_keeps (fun l op booked => (loans_booked l op booked).1) start opened ops
  have surplus := run_gains (fun l op booked => (loans_booked l op booked).1)
    (fun l op booked => (loans_booked l op booked).2) start opened ops
  rw [reached] at booked surplus
  have covered := booked.covered
  have initial : start.surplus enosys =
      (start.ledger enosys.collateralToken).balanceOf enosys.cdp := by
    simp [Loans.surplus, fresh, deployed]
  refine ⟨congrFun booked.stable, ?_, fun env user n => booked.payable, booked.repayable, ?_⟩
  · unfold Loans.surplus at surplus initial
    omega
  · rintro later steady user healthy ⟨owes, ratio, reported, short⟩
    have sound : l.cdp.terms.Sound (l.cdp.positions user) := by
      rcases healthy with free | ⟨ratio, reported, enough⟩
      · exact .inl (congrArg Fin.val free)
      · exact sound_of_ratio reported enough
    have still := run_steady (fun s => s.cdp.terms)
      (fun s => s.cdp.terms.Sound (s.cdp.positions user))
      (fun s op booked => (loans_booked s op booked).1)
      (fun s op booked same => loans_sound s op booked same) l booked later ?_ sound
    · rcases still with free | enough
      · exact absurd free owes.ne'
      · rw [← ratio_reported owes reported] at enough
        exact absurd enough (not_le.mpr short)
    · intro done initial
      obtain ⟨price, threshold⟩ := steady done initial
      simp only [terms, price, threshold]

namespace Sample

def enosys : Enosys := ⟨15, deployment.fxrpToken⟩

/-- Alice makes herself 200 units, puts up 150 for 100, and gives 5. -/
def loansRun : List (EnosysOp enosys) :=
  let calls (call : TokenCall Address) : EnosysOp enosys :=
    .token ⟨external fun _ => false, ⟨alice, by decide⟩, enosys.collateralToken, call⟩
  let asks (call : EnosysCall) : EnosysOp enosys :=
    .call (external fun _ => false) ⟨alice, by decide⟩ call
  [calls (.mint alice 200), calls (.approve enosys.cdp 200), asks (.openCdp 150 100),
    calls (.transfer enosys.cdp 5)]

def bank : Loans := ⟨fun _ => Token.empty, deployed owner⟩

end Sample

theorem cdp_books_balance_sample :
    ∑ user, ((run Loans.step Sample.bank Sample.loansRun).cdp.collateralOf user).val = 150 := by
  have books := (cdp_books_balance Sample.enosys Sample.owner Sample.bank rfl (fun _ => rfl)
    Sample.loansRun _ rfl).2.1
  have none : (Sample.bank.ledger Sample.enosys.collateralToken).balanceOf Sample.enosys.cdp = 0 :=
    rfl
  have given : accumulate Loans.step Loans.donation Sample.bank Sample.loansRun = 5 := by
    decide +kernel
  have held : ((run Loans.step Sample.bank Sample.loansRun).ledger
      Sample.enosys.collateralToken).balanceOf Sample.enosys.cdp = 155 := by decide +kernel
  rw [none, given, held] at books
  generalize ∑ user, ((run Loans.step Sample.bank Sample.loansRun).cdp.collateralOf user).val =
    recorded at *
  omega

end Mirror
