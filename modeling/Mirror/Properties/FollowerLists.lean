import Mirror.Contracts.Registry
import Mirror.Evm.Enumeration
import Mirror.Evm.Run

/-!
The follower lists of the registry. Who follows whom is kept in a mapping, which follows and
unfollows both change, and in two families of arrays, which only a follow appends to.
-/
namespace Mirror

open Evm

/-- A call that somebody sends to the registry. -/
structure RegistryOp where
  caller : Address
  call : RegistryCall

namespace MirrorRegistry

variable {r r' : MirrorRegistry} {caller : Address}

/-- A call that reverts changes nothing. -/
def step (r : MirrorRegistry) (op : RegistryOp) : MirrorRegistry :=
  match r.call op.caller op.call with
  | .ok r' => r'
  | .error _ => r

/-- The follower has an active allocation to the lead. -/
def Follows (r : MirrorRegistry) (follower lead : Address) : Prop :=
  (r.followAllocations follower lead).active = true

instance (r : MirrorRegistry) (follower lead : Address) : Decidable (r.Follows follower lead) :=
  inferInstanceAs (Decidable (_ = true))

/-- `getFollowedLeads` and `getFollowers` list exactly the active allocations, each once. -/
def Listed (r : MirrorRegistry) : Prop :=
  Enumerated r.Follows r.followerLeads r.leadFollowers

/-- Nobody is unfollowed: the call is no `unfollowLead`, or its caller does not follow that lead. -/
def KeepsFollowing (r : MirrorRegistry) (op : RegistryOp) : Prop :=
  ∀ lead, op.call = .unfollowLead lead → ¬r.Follows op.caller lead

/-- All that a call can do to the follow relation and its lists. -/
inductive Change (r r' : MirrorRegistry) : RegistryOp → Prop
  | none {op : RegistryOp} (keeps : r.KeepsFollowing op)
      (mapping : r'.followAllocations = r.followAllocations)
      (rows : r'.followerLeads = r.followerLeads)
      (columns : r'.leadFollowers = r.leadFollowers) : Change r r' op
  | follow {op : RegistryOp} (keeps : r.KeepsFollowing op) (follower lead : Address)
      (fresh : ¬r.Follows follower lead)
      (added : ∀ x y, r'.Follows x y ↔ r.Follows x y ∨ x = follower ∧ y = lead)
      (rows : r'.followerLeads =
        Function.update r.followerLeads follower (r.followerLeads follower ++ [lead]))
      (columns : r'.leadFollowers =
        Function.update r.leadFollowers lead (r.leadFollowers lead ++ [follower])) :
      Change r r' op
  | unfollow (caller lead : Address) (following : r.Follows caller lead)
      (removed : ∀ x y, r'.Follows x y ↔ r.Follows x y ∧ ¬(x = caller ∧ y = lead))
      (rows : r'.followerLeads = r.followerLeads)
      (columns : r'.leadFollowers = r.leadFollowers) : Change r r' ⟨caller, .unfollowLead lead⟩

/-- Overwriting one allocation overwrites one entry of the relation. -/
theorem follows_update (follower lead x y : Address) (allocation : FollowAllocation)
    (h : r'.followAllocations = Function.update r.followAllocations follower
      (Function.update (r.followAllocations follower) lead allocation)) :
    r'.Follows x y ↔ if x = follower ∧ y = lead then allocation.active = true
      else r.Follows x y := by
  rw [Follows, h, update_update_apply]
  split
  · rfl
  · rfl

theorem call_change {op : RegistryOp} (h : r.call op.caller op.call = .ok r') :
    Change r r' op := by
  obtain ⟨caller, c⟩ := op
  cases call_effect h with
  | setting only =>
    refine .none (fun lead unfollows => ?_) rfl rfl rfl
    cases unfollows
    cases only
  | lead | verified =>
    refine .none (fun lead unfollows => ?_) rfl rfl rfl
    cases unfollows
  | follower profile asked =>
    refine .none (fun lead unfollows => ?_) rfl rfl rfl
    cases unfollows
    cases asked
  | follow follower a asked _ _ _ fresh =>
    have active : a.active = true := by
      cases c <;> cases asked <;> rfl
    refine .follow (fun lead unfollows => ?_) follower a.lead (by simp [Follows, fresh]) ?_ rfl rfl
    · cases unfollows
      cases asked
    · intro x y
      rw [follows_update follower a.lead x y a rfl]
      by_cases pair : x = follower ∧ y = a.lead
      · simp [pair, active]
      · simp [pair]
  | unfollow lead following =>
    refine .unfollow caller lead following ?_ rfl rfl
    intro x y
    rw [follows_update caller lead x y _ rfl]
    by_cases pair : x = caller ∧ y = lead
    · simp [pair]
    · simp [pair]

/-- Whoever unfollows a lead that is followed gets through. -/
theorem unfollowLead_done {lead : Address} (following : r.Follows caller lead) :
    ∃ r', r.call caller (.unfollowLead lead) = .ok r' := by
  have active : ¬(r.followAllocations caller lead).active = false := by
    rw [Bool.not_eq_false]
    exact following
  simp only [call, unfollowLead, bind_ok, revertIf_ok, pure_ok]
  exact ⟨_, (), active, rfl⟩

theorem deployed_listed (initialOwner : Address) : (deployed initialOwner).Listed where
  row _ := enumerates_nil fun _ => Bool.false_ne_true
  column _ := enumerates_nil fun _ => Bool.false_ne_true

/-- From exact lists a call leads to exact lists unless it ends a follow. -/
theorem step_listed (op : RegistryOp) (listed : r.Listed) :
    (r.step op).Listed ↔ r.KeepsFollowing op := by
  simp only [step]
  cases h : r.call op.caller op.call with
  -- a call that ends a follow does not revert, so this one does not end one
  | error e =>
    refine iff_of_true listed fun lead unfollows following => ?_
    obtain ⟨r', done⟩ := unfollowLead_done following
    rw [unfollows] at h
    cases h.symm.trans done
  | ok r' =>
    cases call_change h with
    | none keeps mapping rows columns =>
      refine iff_of_true ?_ keeps
      have same : r'.Follows = r.Follows := by
        funext follower lead
        rw [Follows, Follows, mapping]
      rw [Listed, rows, columns, same]
      exact listed
    | follow keeps follower lead fresh added rows columns =>
      refine iff_of_true ?_ keeps
      rw [Listed, rows, columns]
      exact listed.add fresh added
    -- the arrays keep the pair that the relation loses
    | unfollow caller lead following removed rows columns =>
      refine iff_of_false ?_ fun keeps => keeps lead rfl following
      rw [Listed, rows, columns]
      refine listed.not_left_in following fun still => ?_
      exact ((removed caller lead).mp still).2 ⟨rfl, rfl⟩

end MirrorRegistry

open MirrorRegistry

/-- The lists are exact in every state of a run if and only if nobody is unfollowed in it. -/
theorem listed_iff_never_unfollowed (initialOwner : Address) (ops : List RegistryOp) :
    (∀ done, done <+: ops → (run step (deployed initialOwner) done).Listed) ↔
      Admissible step KeepsFollowing (deployed initialOwner) ops :=
  run_invariant_iff (fun _ op listed => step_listed op listed) _ (deployed_listed initialOwner) ops

namespace Sample

/-- Alice follows the lead, thinks better of it and follows again. -/
def secondThoughts : List RegistryOp :=
  [⟨lead, .registerLead 1 100 0 0⟩, ⟨alice, .registerFollower 1⟩, ⟨alice, .followLead lead 5⟩,
    ⟨alice, .unfollowLead lead⟩, ⟨alice, .followLead lead 5⟩]

end Sample

/-- Once unfollowed the lead is still listed, and twice after it is followed again. -/
theorem lists_keep_unfollowed :
    ¬∀ (initialOwner : Address) (ops : List RegistryOp),
      (run step (deployed initialOwner) ops).Listed := by
  intro always
  have again := always Sample.owner Sample.secondThoughts
  have twice : (run step (deployed Sample.owner) Sample.secondThoughts).followerLeads Sample.alice =
      [Sample.lead, Sample.lead] := by decide +kernel
  have once := (again.row Sample.alice).1
  rw [twice] at once
  revert once
  decide

end Mirror
