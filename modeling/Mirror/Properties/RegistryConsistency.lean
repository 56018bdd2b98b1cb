import Mirror.Properties.FollowerLists

/-!
What the registry's books say of each other. An active allocation names a registered follower and a
registered lead whose minimum it meets, leads keep their terms, and each array has an entry for
every follow that ever succeeded.
-/
namespace Mirror

open Evm

/-- Wallet, rate and minimum are the same. -/
structure LeadTrader.SameTerms (a b : LeadTrader) : Prop where
  wallet : b.wallet = a.wallet
  rate : b.feeRateBps = a.feeRateBps
  minimum : b.minAllocation = a.minAllocation

/-- The call asks for this follower to follow this lead. -/
def RegistryOp.Asks (follower lead : Address) (op : RegistryOp) : Prop :=
  (op.call.request op.caller).map (fun asked => (asked.1, asked.2.lead)) = some (follower, lead)

instance (follower lead : Address) (op : RegistryOp) : Decidable (op.Asks follower lead) :=
  inferInstanceAs (Decidable (_ = _))

namespace MirrorRegistry

variable {r r' : MirrorRegistry} {caller : Address} {c : RegistryCall}

/-- The books of leads, followers and allocations agree. -/
structure Consistent (r : MirrorRegistry) : Prop where
  wallet : ∀ lead, (r.leads lead).wallet ≠ 0 → (r.leads lead).wallet = lead
  rate : ∀ lead, (r.leads lead).wallet ≠ 0 → (r.leads lead).feeRateBps.val ≤ 2000
  profile : ∀ follower lead, r.Follows follower lead → (r.followers follower).registered = true
  registered : ∀ follower lead, r.Follows follower lead → (r.leads lead).wallet ≠ 0
  named : ∀ follower lead, r.Follows follower lead →
    (r.followAllocations follower lead).lead = lead
  enough : ∀ follower lead, r.Follows follower lead →
    (r.leads lead).minAllocation ≤ (r.followAllocations follower lead).allocation
  idle : ∀ follower lead, ¬r.Follows follower lead →
    (r.followAllocations follower lead).allocation = 0

/-- How many follows of the lead by or for the follower this step adds. -/
def followsMade (follower lead : Address) (r : MirrorRegistry) (op : RegistryOp) : ℕ :=
  if op.Asks follower lead ∧ (r.call op.caller op.call).isOk = true then 1 else 0

/-! ### Terms of leads -/

/-- Who registers was not registered, and the flag is no term. -/
theorem effect_terms (h : Effect caller r c r') (lead : Address)
    (registered : (r.leads lead).wallet ≠ 0) : (r.leads lead).SameTerms (r'.leads lead) := by
  cases h with
  | lead strategyType feeRateBps minAllocation key fresh =>
    have other : lead ≠ caller := fun same => registered (same ▸ fresh)
    simp only [Function.update_of_ne other]
    exact ⟨rfl, rfl, rfl⟩
  | verified lead' =>
    by_cases same : lead = lead'
    · subst same
      simp only [Function.update_self]
      exact ⟨rfl, rfl, rfl⟩
    · simp only [Function.update_of_ne same]
      exact ⟨rfl, rfl, rfl⟩
  | setting | follower | follow | unfollow => exact ⟨rfl, rfl, rfl⟩

theorem step_terms (lead : Address) (op : RegistryOp) (registered : (r.leads lead).wallet ≠ 0) :
    (r.leads lead).SameTerms ((r.step op).leads lead) := by
  simp only [step]
  cases h : r.call op.caller op.call with
  | error e => exact ⟨rfl, rfl, rfl⟩
  | ok r' => exact effect_terms (call_effect h) lead registered

/-- A registered lead keeps its terms in every run. -/
theorem run_terms (r : MirrorRegistry) (lead : Address) (registered : (r.leads lead).wallet ≠ 0)
    (ops : List RegistryOp) : (r.leads lead).SameTerms ((run step r ops).leads lead) := by
  have kept : ∀ (x : MirrorRegistry) (op : RegistryOp), (r.leads lead).SameTerms (x.leads lead) →
      (r.leads lead).SameTerms ((x.step op).leads lead) := by
    intro x op same
    have next := step_terms lead op (same.wallet ▸ registered)
    exact ⟨next.wallet.trans same.wallet, next.rate.trans same.rate,
      next.minimum.trans same.minimum⟩
  exact run_keeps kept r ⟨rfl, rfl, rfl⟩ ops

/-! ### Consistency -/

/-- Only leads are written: those registered keep their terms and new ones are sound. -/
theorem Consistent.of_leads (h : r.Consistent)
    (terms : ∀ lead, (r.leads lead).wallet ≠ 0 → (r.leads lead).SameTerms (r'.leads lead))
    (sound : ∀ lead, (r.leads lead).wallet = 0 → (r'.leads lead).wallet ≠ 0 →
      (r'.leads lead).wallet = lead ∧ (r'.leads lead).feeRateBps.val ≤ 2000)
    (followers : r'.followers = r.followers)
    (allocations : r'.followAllocations = r.followAllocations) : r'.Consistent := by
  have same : r'.Follows = r.Follows := by
    funext follower lead
    rw [Follows, Follows, allocations]
  refine ⟨fun lead new => ?_, fun lead new => ?_, ?_, fun follower lead => ?_, ?_,
    fun follower lead => ?_, ?_⟩
  · by_cases before : (r.leads lead).wallet = 0
    · exact (sound lead before new).1
    · rw [(terms lead before).wallet]
      exact h.wallet lead before
  · by_cases before : (r.leads lead).wallet = 0
    · exact (sound lead before new).2
    · rw [(terms lead before).rate]
      exact h.rate lead before
  · rw [same, followers]
    exact h.profile
  · intro following
    rw [same] at following
    rw [(terms lead (h.registered follower lead following)).wallet]
    exact h.registered follower lead following
  · rw [same, allocations]
    exact h.named
  · intro following
    rw [same] at following
    rw [(terms lead (h.registered follower lead following)).minimum, allocations]
    exact h.enough follower lead following
  · rw [same, allocations]
    exact h.idle

/-- One allocation is written: it is active and sound, or empty. -/
theorem Consistent.of_allocation (h : r.Consistent) {follower lead : Address} {a : FollowAllocation}
    (leads : r'.leads = r.leads) (followers : r'.followers = r.followers)
    (allocations : r'.followAllocations = Function.update r.followAllocations follower
      (Function.update (r.followAllocations follower) lead a))
    (sound : a.active = true → (r.followers follower).registered = true ∧
      (r.leads lead).wallet ≠ 0 ∧ a.lead = lead ∧ (r.leads lead).minAllocation ≤ a.allocation)
    (empty : a.active = false → a.allocation = 0) : r'.Consistent := by
  have entry (x y : Address) : r'.followAllocations x y =
      if x = follower ∧ y = lead then a else r.followAllocations x y := by
    rw [allocations, update_update_apply]
  -- the written entry is as told, the others are as they were
  have each (x y : Address) (holds : r'.Follows x y) :
      (r'.followers x).registered = true ∧ (r'.leads y).wallet ≠ 0 ∧
        (r'.followAllocations x y).lead = y ∧
        (r'.leads y).minAllocation ≤ (r'.followAllocations x y).allocation := by
    rw [Follows, entry] at holds
    rw [leads, followers, entry]
    by_cases pair : x = follower ∧ y = lead
    · obtain ⟨rfl, rfl⟩ := pair
      rw [if_pos ⟨rfl, rfl⟩] at holds ⊢
      exact sound holds
    · rw [if_neg pair] at holds ⊢
      exact ⟨h.profile x y holds, h.registered x y holds, h.named x y holds, h.enough x y holds⟩
  refine ⟨?_, ?_, fun x y holds => (each x y holds).1, fun x y holds => (each x y holds).2.1,
    fun x y holds => (each x y holds).2.2.1, fun x y holds => (each x y holds).2.2.2,
    fun x y holds => ?_⟩
  · rw [leads]
    exact h.wallet
  · rw [leads]
    exact h.rate
  · rw [Follows, entry] at holds
    rw [entry]
    by_cases pair : x = follower ∧ y = lead
    · rw [if_pos pair] at holds ⊢
      exact empty (Bool.not_eq_true _ ▸ holds)
    · rw [if_neg pair] at holds ⊢
      exact h.idle x y holds

theorem effect_consistent (h : r.Consistent) (done : Effect caller r c r') : r'.Consistent := by
  have terms := effect_terms done
  cases done with
  | setting => exact ⟨h.wallet, h.rate, h.profile, h.registered, h.named, h.enough, h.idle⟩
  | lead strategyType feeRateBps minAllocation key fresh low =>
    refine h.of_leads terms (fun lead before after => ?_) rfl rfl
    by_cases same : lead = caller
    · subst same
      simp only [Function.update_self]
      exact ⟨trivial, low⟩
    · simp only [Function.update_of_ne same] at after
      exact absurd before after
  | verified lead' flag registered =>
    refine h.of_leads terms (fun lead before after => ?_) rfl rfl
    have same : lead ≠ lead' := fun same => registered (same ▸ before)
    simp only [Function.update_of_ne same] at after
    exact absurd before after
  | follower profile asked fresh =>
    refine ⟨h.wallet, h.rate, fun follower lead following => ?_, h.registered, h.named, h.enough,
      h.idle⟩
    by_cases same : follower = profile.wallet
    · subst same
      simp only [Function.update_self]
      cases c <;> cases asked <;> rfl
    · simp only [Function.update_of_ne same]
      exact h.profile follower lead following
  | follow follower a asked profile registered enough =>
    have active : a.active = true := by
      cases c <;> cases asked <;> rfl
    refine h.of_allocation rfl rfl rfl (fun _ => ⟨profile, registered, rfl, enough⟩) ?_
    rw [active]
    rintro ⟨⟩
  | unfollow lead => exact h.of_allocation rfl rfl rfl (by rintro ⟨⟩) fun _ => rfl

theorem step_consistent (r : MirrorRegistry) (op : RegistryOp) (h : r.Consistent) :
    (r.step op).Consistent := by
  simp only [step]
  cases done : r.call op.caller op.call with
  | error e => exact h
  | ok r' => exact effect_consistent h (call_effect done)

theorem deployed_consistent (initialOwner : Address) : (deployed initialOwner).Consistent where
  wallet _ registered := absurd rfl registered
  rate _ registered := absurd rfl registered
  profile _ _ following := absurd following Bool.false_ne_true
  registered _ _ following := absurd following Bool.false_ne_true
  named _ _ following := absurd following Bool.false_ne_true
  enough _ _ following := absurd following Bool.false_ne_true
  idle _ _ _ := rfl

/-! ### The arrays -/

/-- A follow appends to one row and one column, nothing else touches them. -/
theorem effect_counts (done : Effect caller r c r') (follower lead : Address) :
    (r'.followerLeads follower).count lead = (r.followerLeads follower).count lead +
        (if RegistryOp.Asks follower lead ⟨caller, c⟩ then 1 else 0) ∧
      (r'.leadFollowers lead).count follower = (r.leadFollowers lead).count follower +
        (if RegistryOp.Asks follower lead ⟨caller, c⟩ then 1 else 0) := by
  have silent (none : c.request caller = none) :
      ¬RegistryOp.Asks follower lead ⟨caller, c⟩ := by
    simp [RegistryOp.Asks, none]
  cases done with
  | setting only =>
    rw [if_neg (silent (by cases c <;> first | rfl | cases only))]
    exact ⟨rfl, rfl⟩
  | lead | verified | unfollow =>
    rw [if_neg (silent rfl)]
    exact ⟨rfl, rfl⟩
  | follower profile asked =>
    rw [if_neg (silent (by cases c <;> first | rfl | cases asked))]
    exact ⟨rfl, rfl⟩
  | follow f a asked =>
    simp only [RegistryOp.Asks, asked, count_update_append, Option.map_some, Option.some.injEq,
      Prod.mk.injEq, and_comm, and_self]

theorem step_counts (r : MirrorRegistry) (op : RegistryOp) (follower lead : Address) :
    ((r.step op).followerLeads follower).count lead =
        (r.followerLeads follower).count lead + followsMade follower lead r op ∧
      ((r.step op).leadFollowers lead).count follower =
        (r.leadFollowers lead).count follower + followsMade follower lead r op := by
  simp only [step, followsMade]
  cases done : r.call op.caller op.call with
  | error e => simp [Except.isOk, Except.toBool]
  | ok r' =>
    simp only [Except.isOk, Except.toBool, and_true]
    exact effect_counts (call_effect done) follower lead

end MirrorRegistry

open MirrorRegistry

/-- In every reachable state the books agree and each array counts the follows that succeeded, and
from there on every registered lead keeps its wallet, rate and minimum. -/
theorem registry_consistent (initialOwner : Address) (ops : List RegistryOp) :
    (run step (deployed initialOwner) ops).Consistent ∧
      (∀ follower lead,
        ((run step (deployed initialOwner) ops).followerLeads follower).count lead =
            accumulate step (followsMade follower lead) (deployed initialOwner) ops ∧
          ((run step (deployed initialOwner) ops).leadFollowers lead).count follower =
            accumulate step (followsMade follower lead) (deployed initialOwner) ops) ∧
      ∀ lead later, ((run step (deployed initialOwner) ops).leads lead).wallet ≠ 0 →
        ((run step (deployed initialOwner) ops).leads lead).SameTerms
          ((run step (deployed initialOwner) (ops ++ later)).leads lead) := by
  refine ⟨run_keeps step_consistent _ (deployed_consistent initialOwner) ops,
    fun follower lead => ⟨?_, ?_⟩, fun lead later registered => ?_⟩
  · have grown := run_tallies (followsMade follower lead)
      (fun r => (r.followerLeads follower).count lead)
      (fun r op => (step_counts r op follower lead).1) (deployed initialOwner) ops
    exact grown.trans (Nat.zero_add _)
  · have grown := run_tallies (followsMade follower lead)
      (fun r => (r.leadFollowers lead).count follower)
      (fun r op => (step_counts r op follower lead).2) (deployed initialOwner) ops
    exact grown.trans (Nat.zero_add _)
  · rw [run_append]
    exact run_terms _ lead registered later

end Mirror
