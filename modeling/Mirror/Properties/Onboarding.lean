import Mirror.Contracts.Onboarder
import Mirror.Properties.RegistryConsistency

/-!
When an onboarding succeeds, and what it leaves. The checks of the registry, the vault and the token
that it runs into are all implied by the ones it makes itself and by the FXRP of its caller.
-/
namespace Mirror

open Evm MirrorFsaOnboarder

/-! ### The legs -/

section Legs

variable {D : Deployment} {env : External} {onboarder follower lead : Address} {amount : Uint256}
  {riskProfile : Uint8} {r r' : MirrorRegistry} {c c' : Custody}

/-- The registry after `registerLeg`. -/
def MirrorRegistry.enrolled (follower : Address) (riskProfile : Uint8) (r : MirrorRegistry) :
    MirrorRegistry :=
  if (r.getFollower follower).registered = false then
    { r with followers := Function.update r.followers follower ⟨follower, riskProfile, true⟩ }
  else r

/-- The onboarder's registration always goes through. -/
theorem registerLeg_ok (trusted : r.fsaOnboarder = onboarder) :
    registerLeg onboarder follower riskProfile r = .ok (r.enrolled follower riskProfile) := by
  unfold registerLeg MirrorRegistry.enrolled
  by_cases fresh : (r.getFollower follower).registered = false
  · rw [if_pos fresh, if_pos fresh]
    simp only [MirrorRegistry.call, bind_ok, MirrorRegistry.onlyFsaOnboarder, revertIf_ok,
      MirrorRegistry.registerFollower_ok]
    exact ⟨(), not_not.mpr trusted.symm, fresh, trivial⟩
  · rw [if_neg fresh, if_neg fresh]
    rfl

theorem enrolled_registered :
    ((r.enrolled follower riskProfile).followers follower).registered = true := by
  unfold MirrorRegistry.enrolled
  split
  · simp only [Function.update_self]
  next known => exact Bool.not_eq_false _ ▸ known

/-- Everything but the followers is as it was. -/
theorem enrolled_rest (follower : Address) (riskProfile : Uint8) (r : MirrorRegistry) :
    (r.enrolled follower riskProfile).fsaOnboarder = r.fsaOnboarder ∧
      (r.enrolled follower riskProfile).leads = r.leads ∧
      (r.enrolled follower riskProfile).followAllocations = r.followAllocations := by
  unfold MirrorRegistry.enrolled
  split <;> exact ⟨rfl, rfl, rfl⟩

theorem enrolled_followers (x : Address) :
    (r.enrolled follower riskProfile).followers x =
      if x = follower ∧ (r.followers follower).registered = false then ⟨follower, riskProfile, true⟩
      else r.followers x := by
  unfold MirrorRegistry.enrolled
  by_cases fresh : (r.getFollower follower).registered = false
  · rw [if_pos fresh]
    by_cases same : x = follower
    · subst same
      rw [if_pos ⟨rfl, fresh⟩]
      simp only [Function.update_self]
    · rw [if_neg fun both => same both.1]
      simp only [Function.update_of_ne same]
  · rw [if_neg fresh, if_neg fun both => fresh both.2]

/-- The registry after `followLeg`. -/
def MirrorRegistry.following (follower lead : Address) (amount : Uint256) (r : MirrorRegistry) :
    MirrorRegistry :=
  if (r.getFollowAllocation follower lead).active = false then
    { r with
      followAllocations := Function.update r.followAllocations follower
        (Function.update (r.followAllocations follower) lead ⟨lead, amount, true⟩)
      followerLeads := Function.update r.followerLeads follower (r.followerLeads follower ++ [lead])
      leadFollowers := Function.update r.leadFollowers lead (r.leadFollowers lead ++ [follower]) }
  else r

/-- A registered follower is made to follow a registered lead, unless it does already. -/
theorem followLeg_ok (trusted : r.fsaOnboarder = onboarder)
    (profile : (r.followers follower).registered = true) (registered : (r.leads lead).wallet ≠ 0)
    (enough : (r.leads lead).minAllocation ≤ amount) :
    followLeg onboarder follower lead amount r = .ok (r.following follower lead amount) := by
  unfold followLeg MirrorRegistry.following
  by_cases fresh : (r.getFollowAllocation follower lead).active = false
  · rw [if_pos fresh, if_pos fresh]
    simp only [MirrorRegistry.call, bind_ok, MirrorRegistry.onlyFsaOnboarder, revertIf_ok,
      MirrorRegistry.followLead_ok]
    exact ⟨(), not_not.mpr trusted.symm, profile, registered, enough, fresh, trivial⟩
  · rw [if_neg fresh, if_neg fresh]
    rfl

theorem following_rest (follower lead : Address) (amount : Uint256) (r : MirrorRegistry) :
    (r.following follower lead amount).leads = r.leads ∧
      (r.following follower lead amount).followers = r.followers := by
  unfold MirrorRegistry.following
  split <;> exact ⟨rfl, rfl⟩

theorem following_allocations (x y : Address) :
    (r.following follower lead amount).followAllocations x y =
      if (x = follower ∧ y = lead) ∧ ¬r.Follows follower lead then ⟨lead, amount, true⟩
      else r.followAllocations x y := by
  unfold MirrorRegistry.following
  by_cases fresh : (r.getFollowAllocation follower lead).active = false
  · have idle : ¬r.Follows follower lead := (Bool.not_eq_true _).mpr fresh
    rw [if_pos fresh]
    simp only [update_update_apply, idle, not_false_iff, and_true]
  · have active : r.Follows follower lead := (Bool.not_eq_false _).mp fresh
    rw [if_neg fresh, if_neg fun both => both.2 active]

/-- The registry after both legs: at most one profile and one allocation are new. -/
theorem joined_books (follower lead : Address) (amount : Uint256) (riskProfile : Uint8)
    (r : MirrorRegistry) :
    let joined := (r.enrolled follower riskProfile).following follower lead amount
    joined.leads = r.leads ∧
      (∀ x, joined.followers x =
        if x = follower ∧ (r.followers follower).registered = false then
          ⟨follower, riskProfile, true⟩
        else r.followers x) ∧
      ∀ x y, joined.followAllocations x y =
        if (x = follower ∧ y = lead) ∧ ¬r.Follows follower lead then ⟨lead, amount, true⟩
        else r.followAllocations x y := by
  obtain ⟨-, leads, allocations⟩ :=
    enrolled_rest follower riskProfile r
  obtain ⟨leads', followers⟩ := following_rest follower lead amount
    (r.enrolled follower riskProfile)
  have same : (r.enrolled follower riskProfile).Follows follower lead ↔
      r.Follows follower lead := by
    unfold MirrorRegistry.Follows
    rw [allocations]
  refine ⟨leads'.trans leads, fun x => ?_, fun x y => ?_⟩
  · rw [followers]
    exact enrolled_followers x
  · simp only [following_allocations, allocations, same]

/-- The token refuses none of the three calls. -/
structure MirrorFsaOnboarder.Unrefused (D : Deployment) (env : External)
    (onboarder follower : Address) (amount : Uint256) : Prop where
  pull : env.refuses D.fxrpToken onboarder (.transferFrom follower onboarder amount.val) = false
  approve : env.refuses D.fxrpToken onboarder (.approve D.vault amount.val) = false
  deposit : env.refuses D.fxrpToken D.vault (.transferFrom onboarder D.vault amount.val) = false

theorem depositLeg_ok (trusted : c.vault.fsaOnboarder = onboarder) (positive : amount ≠ 0)
    (named : follower ≠ 0) :
    depositLeg D env onboarder follower lead amount c = .ok c' ↔
      Unrefused D env onboarder follower amount ∧
        ∃ t₁ t₂ balance,
          ((c.ledger D.fxrpToken).perform onboarder (.transferFrom follower onboarder amount.val) =
              some t₁ ∧
            (t₁.setAllowance onboarder D.vault amount.val).perform D.vault
              (.transferFrom onboarder D.vault amount.val) = some t₂) ∧
          balance.val = (c.vault.subAccounts follower lead).balance.val + amount.val ∧
          c' = ⟨Function.update c.ledger D.fxrpToken t₂, c.vault.setAccount follower lead
            { c.vault.subAccounts follower lead with balance }⟩ := by
  have approve (t : Token Address) : t.perform onboarder (.approve D.vault amount.val) =
      some (t.setAllowance onboarder D.vault amount.val) := rfl
  simp only [depositLeg, MirrorVault.call, MirrorVault.depositFor, MirrorVault.onlyFsaOnboarder,
    MirrorVault.credit, bind_ok, revertIf_ok, orRevert_ok, checkedAdd_some, pure_ok,
    Ledger.call_ok, trusted, positive, named, approve, not_true, not_false_iff,
    exists_const, true_and, ne_eq, Option.some.injEq]
  constructor
  · rintro ⟨L₁, ⟨pull, t₁, taken, rfl⟩, L₂, ⟨approved, t, rfl, rfl⟩, L₃, ⟨deposit, t₂, passed, rfl⟩,
      balance, sum, rfl⟩
    simp only [Function.update_self] at passed
    exact ⟨⟨pull, approved, deposit⟩, t₁, t₂, balance, ⟨taken, passed⟩, sum, by
      simp only [Function.update_idem]⟩
  · rintro ⟨accepted, t₁, t₂, balance, ⟨taken, passed⟩, sum, rfl⟩
    refine ⟨_, ⟨accepted.pull, t₁, taken, rfl⟩, _, ⟨accepted.approve, _, rfl, rfl⟩, _,
      ⟨accepted.deposit, t₂, ?_, rfl⟩, balance, sum, ?_⟩
    · simpa only [Function.update_self] using passed
    · simp only [Function.update_idem]

end Legs

/-! ### Consistency -/

namespace Onboarding

/-- States that transactions lead to, whoever sends them. -/
def Reachable (D : Deployment) (onboarder : Address) (s : Onboarding) : Prop :=
  ∃ s₀ txs, Deployed s₀ ∧ s = run (step D onboarder) s₀ txs

variable {D : Deployment} {onboarder : Address} {s s' : Onboarding} {tx : OnboardingTx}

/-- The registry only changes by its own calls. -/
theorem perform_consistent (h : s.registry.Consistent)
    (done : s.perform D onboarder tx = .ok s') : s'.registry.Consistent := by
  have called {r r' : MirrorRegistry} {caller : Address} {c : RegistryCall} (h : r.Consistent)
      (done : r.call caller c = .ok r') : r'.Consistent :=
    MirrorRegistry.effect_consistent h (MirrorRegistry.call_effect done)
  obtain ⟨caller, call, env⟩ := tx
  cases call with
  | token | vault =>
    simp only [perform, bind_ok, pure_ok] at done
    obtain ⟨_, -, rfl⟩ := done
    exact h
  | registry c =>
    simp only [perform, bind_ok, pure_ok] at done
    obtain ⟨r', done, rfl⟩ := done
    exact called h done
  | onboard lead amount riskProfile =>
    simp only [perform, onboard, bind_ok, pure_ok] at done
    obtain ⟨_, -, _, -, _, -, _, -, r₁, registered, r₂, followed, _, -, rfl⟩ := done
    have first : r₁.Consistent := by
      unfold registerLeg at registered
      split at registered
      · exact called h registered
      · cases registered
        exact h
    unfold followLeg at followed
    split at followed
    · exact called first followed
    · cases followed
      exact first

theorem Reachable.consistent (reachable : Reachable D onboarder s) : s.registry.Consistent := by
  obtain ⟨s₀, txs, ⟨-, owner, registry⟩, rfl⟩ := reachable
  have kept : ∀ (s : Onboarding) (tx : OnboardingTx), s.registry.Consistent →
      (s.step D onboarder tx).registry.Consistent := by
    intro s tx h
    simp only [step]
    cases done : s.perform D onboarder tx with
    | error e => exact h
    | ok s' => exact perform_consistent h done
  have start : s₀.registry.Consistent := registry ▸ MirrorRegistry.deployed_consistent owner
  exact run_keeps kept s₀ start txs

/-- The registry and the vault both trust the onboarder. -/
structure Wired (onboarder : Address) (s : Onboarding) : Prop where
  registry : s.registry.fsaOnboarder = onboarder
  vault : s.vault.fsaOnboarder = onboarder

/-- A registered lead, an amount it accepts, and a caller who can pay it. -/
structure Ready (D : Deployment) (onboarder caller lead : Address) (amount : Uint256)
    (s : Onboarding) : Prop where
  positive : 0 < amount
  registered : (s.registry.leads lead).wallet ≠ 0
  enough : (s.registry.leads lead).minAllocation ≤ amount
  held : amount.val ≤ (s.ledger D.fxrpToken).balanceOf caller
  allowed : amount.val ≤ (s.ledger D.fxrpToken).allowance caller onboarder
  fits : (s.vault.subAccounts caller lead).balance.val + amount.val < 2 ^ 256

/-- The caller is registered, follows the lead and has deposited; nothing else has changed. -/
structure Onboarded (D : Deployment) (onboarder caller lead : Address) (amount : Uint256)
    (riskProfile : Uint8) (s s' : Onboarding) : Prop where
  registered : (s'.registry.followers caller).registered = true
  follows : s'.registry.Follows caller lead
  profile : s'.registry.followers caller =
    if (s.registry.followers caller).registered = true then s.registry.followers caller
    else ⟨caller, riskProfile, true⟩
  allocation : s'.registry.followAllocations caller lead =
    if s.registry.Follows caller lead then s.registry.followAllocations caller lead
    else ⟨lead, amount, true⟩
  enough : (s'.registry.leads lead).minAllocation ≤
    (s'.registry.followAllocations caller lead).allocation
  balance : (s'.vault.subAccounts caller lead).balance.val =
    (s.vault.subAccounts caller lead).balance.val + amount.val
  pending : (s'.vault.subAccounts caller lead).pendingLocked =
      (s.vault.subAccounts caller lead).pendingLocked ∧
    (s'.vault.subAccounts caller lead).pendingWithdrawal =
      (s.vault.subAccounts caller lead).pendingWithdrawal
  custody : (s'.ledger D.fxrpToken).balanceOf D.vault =
    (s.ledger D.fxrpToken).balanceOf D.vault + amount.val
  leads : s'.registry.leads = s.registry.leads
  otherFollowers : ∀ f, f ≠ caller → s'.registry.followers f = s.registry.followers f
  otherAllocations : ∀ f l, ¬(f = caller ∧ l = lead) →
    s'.registry.followAllocations f l = s.registry.followAllocations f l
  otherAccounts : ∀ f l, ¬(f = caller ∧ l = lead) →
    s'.vault.subAccounts f l = s.vault.subAccounts f l
  passed : (s'.ledger D.fxrpToken).balanceOf onboarder =
    (s.ledger D.fxrpToken).balanceOf onboarder
  spent : (s'.ledger D.fxrpToken).allowance onboarder D.vault = 0

variable {caller lead : Address} {amount : Uint256} {riskProfile : Uint8} {env : External}

/-- The checks of the onboarder itself are all that the registry asks for. -/
theorem onboard_ok (wired : Wired onboarder s) :
    onboard D env onboarder caller lead amount riskProfile s = .ok s' ↔
      amount ≠ 0 ∧ lead ≠ 0 ∧ (s.registry.leads lead).wallet ≠ 0 ∧
        (s.registry.leads lead).minAllocation ≤ amount ∧
        ∃ c', depositLeg D env onboarder caller lead amount ⟨s.ledger, s.vault⟩ = .ok c' ∧
          s' = ⟨c'.ledger, c'.vault,
            (s.registry.enrolled caller riskProfile).following caller lead amount⟩ := by
  obtain ⟨trusted, leads, -⟩ := enrolled_rest caller riskProfile s.registry
  have followed (registered : (s.registry.leads lead).wallet ≠ 0)
      (enough : (s.registry.leads lead).minAllocation ≤ amount) :
      followLeg onboarder caller lead amount (s.registry.enrolled caller riskProfile) =
        .ok ((s.registry.enrolled caller riskProfile).following caller lead amount) :=
    followLeg_ok (trusted.trans wired.registry) enrolled_registered (leads ▸ registered)
      (leads ▸ enough)
  simp only [onboard, bind_ok, revertIf_ok, pure_ok, registerLeg_ok wired.registry, not_lt,
    exists_const, Except.ok.injEq, eq_comm (a := s')]
  constructor
  · rintro ⟨positive, named, registered, enough, _, rfl, _, following, c', deposited, rfl⟩
    rw [followed registered enough] at following
    cases following
    exact ⟨positive, named, registered, enough, c', deposited, rfl⟩
  · rintro ⟨positive, named, registered, enough, c', deposited, rfl⟩
    exact ⟨positive, named, registered, enough, _, rfl, _, followed registered enough, c',
      deposited, rfl⟩

theorem onboard_succeeds (consistent : s.registry.Consistent) (wired : Wired onboarder s)
    (named : caller ≠ 0) (apart : caller ≠ onboarder)
    (accepted : Unrefused D env onboarder caller amount) :
    (∃ s', onboard D env onboarder caller lead amount riskProfile s = .ok s') ↔
      Ready D onboarder caller lead amount s := by
  have small : amount.val ≤ maxUint256 := by
    have := amount.isLt
    unfold maxUint256
    omega
  have paid := (s.ledger D.fxrpToken).passOn_isSome apart D.vault amount.val
  constructor
  · rintro ⟨s', done⟩
    obtain ⟨positive, -, registered, enough, c', deposited, -⟩ := (onboard_ok wired).mp done
    obtain ⟨-, t₁, t₂, balance, moved, sum, -⟩ :=
      (depositLeg_ok wired.vault positive named).mp deposited
    obtain ⟨allowed, held⟩ := paid.mp ⟨t₁, t₂, moved⟩
    exact ⟨Fin.pos_iff_ne_zero.mpr positive, registered, enough, held,
      allowed.elim (fun unlimited => unlimited ▸ small) id, sum ▸ balance.isLt⟩
  · intro ready
    have positive : amount ≠ 0 := Fin.pos_iff_ne_zero.mp ready.positive
    -- a registered lead is listed under its own wallet, so it is not the zero address
    have lead_named : lead ≠ 0 := consistent.wallet lead ready.registered ▸ ready.registered
    obtain ⟨t₁, t₂, moved⟩ := paid.mpr ⟨.inr ready.allowed, ready.held⟩
    obtain ⟨c', deposited⟩ : ∃ c', depositLeg D env onboarder caller lead amount
        ⟨s.ledger, s.vault⟩ = .ok c' :=
      ⟨_, (depositLeg_ok wired.vault positive named).mpr
        ⟨accepted, t₁, t₂, ⟨_, ready.fits⟩, moved, rfl, rfl⟩⟩
    exact ⟨_, (onboard_ok wired).mpr
      ⟨positive, lead_named, ready.registered, ready.enough, c', deposited, rfl⟩⟩

theorem onboard_completes (consistent : s.registry.Consistent) (wired : Wired onboarder s)
    (outside : onboarder ∉ D.reserved) (caller_outside : caller ∉ D.reserved)
    (apart : caller ≠ onboarder) (limited : amount.val < maxUint256)
    (done : onboard D env onboarder caller lead amount riskProfile s = .ok s') :
    Onboarded D onboarder caller lead amount riskProfile s s' := by
  have named : caller ≠ 0 := by
    rintro rfl
    simp [Deployment.reserved] at caller_outside
  obtain ⟨positive, -, registered, enough, c', deposited, rfl⟩ := (onboard_ok wired).mp done
  obtain ⟨-, t₁, t₂, balance, ⟨taken, passed⟩, sum, rfl⟩ :=
    (depositLeg_ok wired.vault positive named).mp deposited
  obtain ⟨through, spent, received⟩ :=
    Token.passed_on apart (D.ne_vault outside) limited.ne taken passed
  obtain ⟨leads, followers, allocations⟩ := joined_books caller lead amount
    riskProfile s.registry
  have active : ((s.registry.enrolled caller riskProfile).following caller lead amount).Follows
      caller lead := by
    rw [MirrorRegistry.Follows, allocations]
    split
    · rfl
    next known => exact not_not.mp fun idle => known ⟨⟨rfl, rfl⟩, idle⟩
  refine {
    registered := ?_
    follows := active
    profile := ?_
    allocation := ?_
    enough := ?_
    balance := ?_
    pending := ?_
    custody := ?_
    leads := leads
    otherFollowers := fun f other => ?_
    otherAllocations := fun f l other => ?_
    otherAccounts := fun f l other => MirrorVault.setAccount_other _ _ other
    passed := ?_
    spent := ?_ }
  · simp only [followers]
    split
    · rfl
    next known => exact (Bool.not_eq_false _).mp fun fresh => known ⟨trivial, fresh⟩
  · by_cases known : (s.registry.followers caller).registered = true <;> simp [followers, known]
  · by_cases known : s.registry.Follows caller lead <;> simp [allocations, known]
  · simp only [leads, allocations]
    split
    · exact enough
    next known =>
      exact consistent.enough caller lead (not_not.mp fun idle => known ⟨⟨trivial, trivial⟩, idle⟩)
  · simpa using sum
  · simp
  · simpa using received (D.ne_vault caller_outside)
  · simp [followers, other]
  · simp [allocations, other]
  · simpa using through
  · simpa using spent

end Onboarding

open Onboarding

/-- With both contracts wired to the onboarder and a token that does not refuse, an onboarding goes
through exactly when the caller is ready, and whenever it goes through it is complete. -/
theorem onboarding_exact (D : Deployment) (env : External) (onboarder : Outsider D)
    (caller : Outsider D) (apart : caller.addr ≠ onboarder.addr) (lead : Address)
    (amount : Uint256) (riskProfile : Uint8) (limited : amount.val < maxUint256) (s : Onboarding)
    (reachable : Reachable D onboarder.addr s) (wired : Wired onboarder.addr s) :
    (Unrefused D env onboarder.addr caller.addr amount →
        ((∃ s', onboard D env onboarder.addr caller.addr lead amount riskProfile s = .ok s') ↔
          Ready D onboarder.addr caller.addr lead amount s)) ∧
      ∀ s', onboard D env onboarder.addr caller.addr lead amount riskProfile s = .ok s' →
        Onboarded D onboarder.addr caller.addr lead amount riskProfile s s' := by
  have named : caller.addr ≠ 0 := by
    intro zero
    have outside := caller.outside
    simp [zero, Deployment.reserved] at outside
  exact ⟨onboard_succeeds reachable.consistent wired named apart, fun s' =>
    onboard_completes reachable.consistent wired onboarder.outside caller.outside apart limited⟩

namespace Sample

def onboarder : Address := 14

instance onboarder_outside : Fact (onboarder ∉ deployment.reserved) := ⟨by decide⟩

/-- Alice holds 100 FXRP and lets the onboarder take 60; the lead asks for 10 at least. -/
def readyToOnboard : Onboarding :=
  run (step deployment onboarder)
    ⟨ledger, MirrorVault.deployed owner, MirrorRegistry.deployed owner⟩
    [⟨owner, .vault (.setFsaOnboarder onboarder), external fun _ => true⟩,
      ⟨owner, .registry (.setFsaOnboarder onboarder), external fun _ => true⟩,
      ⟨lead, .registry (.registerLead 0 1000 10 0), external fun _ => true⟩,
      ⟨alice, .token deployment.fxrpToken (.approve onboarder 60), external fun _ => true⟩]

end Sample

open Sample in
theorem onboarding_exact_sample :
    ∃ s', onboard deployment (external fun _ => true) onboarder alice Sample.lead 50 2
        readyToOnboard = .ok s' ∧
      Onboarded deployment onboarder alice Sample.lead 50 2 readyToOnboard s' := by
  have exact := onboarding_exact deployment (external fun _ => true) (outsider onboarder)
    (outsider alice) (by decide) Sample.lead 50 2 (by decide) readyToOnboard
    ⟨_, _, ⟨⟨Sample.owner, rfl⟩, Sample.owner, rfl⟩, rfl⟩ ⟨by decide, by decide⟩
  obtain ⟨s', done⟩ := (exact.1 ⟨rfl, rfl, rfl⟩).mpr
    ⟨by decide, by decide, by decide, by decide, by decide, by decide⟩
  exact ⟨s', done, exact.2 s' done⟩

end Mirror
