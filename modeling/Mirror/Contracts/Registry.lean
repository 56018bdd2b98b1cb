import Mirror.Contracts.Common

/-! `MirrorRegistry`: leads, followers and who follows whom. -/
namespace Mirror

open Evm

structure LeadTrader where
  wallet : Address
  strategyType : Uint8
  feeRateBps : Uint16
  minAllocation : Uint256
  teePublicKeyHash : Bytes32
  verified : Bool
  deriving DecidableEq

structure FollowerProfile where
  wallet : Address
  riskProfile : Uint8
  registered : Bool
  deriving DecidableEq

structure FollowAllocation where
  lead : Address
  allocation : Uint256
  active : Bool
  deriving DecidableEq

structure MirrorRegistry where
  owner : Address
  fsaOnboarder : Address
  leads : Address → LeadTrader
  followers : Address → FollowerProfile
  followAllocations : Address → Address → FollowAllocation
  followerLeads : Address → List Address
  leadFollowers : Address → List Address

inductive RegistryCall
  | setFsaOnboarder (onboarder : Address)
  | registerLead (strategyType : Uint8) (feeRateBps : Uint16) (minAllocation : Uint256)
      (teePublicKeyHash : Bytes32)
  | registerFollower (riskProfile : Uint8)
  | registerFollowerAs (follower : Address) (riskProfile : Uint8)
  | followLead (lead : Address) (allocation : Uint256)
  | followLeadAs (follower lead : Address) (allocation : Uint256)
  | unfollowLead (lead : Address)
  | setLeadVerified (lead : Address) (verified : Bool)
  | transferOwnership (newOwner : Address)
  | renounceOwnership

namespace MirrorRegistry

/-- Storage of a registry just constructed. -/
def deployed (initialOwner : Address) : MirrorRegistry where
  owner := initialOwner
  fsaOnboarder := 0
  leads _ := ⟨0, 0, 0, 0, 0, false⟩
  followers _ := ⟨0, 0, false⟩
  followAllocations _ _ := ⟨0, 0, false⟩
  followerLeads _ := []
  leadFollowers _ := []

def getLead (r : MirrorRegistry) (wallet : Address) : LeadTrader := r.leads wallet

def getFollower (r : MirrorRegistry) (wallet : Address) : FollowerProfile := r.followers wallet

def getFollowAllocation (r : MirrorRegistry) (follower lead : Address) : FollowAllocation :=
  r.followAllocations follower lead

def onlyFsaOnboarder (r : MirrorRegistry) (caller : Address) : Except Revert Unit :=
  revertIf (caller ≠ r.fsaOnboarder) .onlyFsaOnboarder

def setFsaOnboarder (caller onboarder : Address) (r : MirrorRegistry) :
    Except Revert MirrorRegistry := do
  onlyOwner r.owner caller
  return { r with fsaOnboarder := onboarder }

def registerLead (caller : Address) (strategyType : Uint8) (feeRateBps : Uint16)
    (minAllocation : Uint256) (teePublicKeyHash : Bytes32) (r : MirrorRegistry) :
    Except Revert MirrorRegistry := do
  revertIf ((r.leads caller).wallet ≠ 0) .alreadyRegisteredLead
  revertIf (2000 < feeRateBps.val) .invalidFeeRate
  return { r with
    leads := Function.update r.leads caller
      { wallet := caller, strategyType, feeRateBps, minAllocation, teePublicKeyHash,
        verified := false } }

/-- `_registerFollower`. -/
def registerFollower (follower : Address) (riskProfile : Uint8) (r : MirrorRegistry) :
    Except Revert MirrorRegistry := do
  revertIf ((r.followers follower).registered = true) .alreadyRegisteredFollower
  return { r with
    followers := Function.update r.followers follower
      { wallet := follower, riskProfile, registered := true } }

/-- `_followLead`. -/
def followLead (follower lead : Address) (allocation : Uint256) (r : MirrorRegistry) :
    Except Revert MirrorRegistry := do
  revertIf ((r.followers follower).registered = false) .notRegisteredFollower
  let leadTrader := r.leads lead
  revertIf (leadTrader.wallet = 0) .invalidLead
  revertIf (allocation < leadTrader.minAllocation) .allocationBelowMinimum
  revertIf ((r.followAllocations follower lead).active = true) .alreadyFollowing
  return { r with
    followAllocations := Function.update r.followAllocations follower
      (Function.update (r.followAllocations follower) lead { lead, allocation, active := true })
    followerLeads := Function.update r.followerLeads follower (r.followerLeads follower ++ [lead])
    leadFollowers := Function.update r.leadFollowers lead (r.leadFollowers lead ++ [follower]) }

def unfollowLead (caller lead : Address) (r : MirrorRegistry) : Except Revert MirrorRegistry := do
  let allocation := r.followAllocations caller lead
  revertIf (allocation.active = false) .notFollowing
  return { r with
    followAllocations := Function.update r.followAllocations caller
      (Function.update (r.followAllocations caller) lead
        { allocation with active := false, allocation := 0 }) }

def setLeadVerified (caller lead : Address) (verified : Bool) (r : MirrorRegistry) :
    Except Revert MirrorRegistry := do
  onlyOwner r.owner caller
  revertIf ((r.leads lead).wallet = 0) .invalidLead
  return { r with leads := Function.update r.leads lead { r.leads lead with verified } }

/-- A call by `caller` to the registry. -/
def call (caller : Address) (r : MirrorRegistry) : RegistryCall → Except Revert MirrorRegistry
  | .setFsaOnboarder onboarder => r.setFsaOnboarder caller onboarder
  | .registerLead strategyType feeRateBps minAllocation teePublicKeyHash =>
    r.registerLead caller strategyType feeRateBps minAllocation teePublicKeyHash
  | .registerFollower riskProfile => r.registerFollower caller riskProfile
  | .registerFollowerAs follower riskProfile => do
    r.onlyFsaOnboarder caller
    r.registerFollower follower riskProfile
  | .followLead lead allocation => r.followLead caller lead allocation
  | .followLeadAs follower lead allocation => do
    r.onlyFsaOnboarder caller
    r.followLead follower lead allocation
  | .unfollowLead lead => r.unfollowLead caller lead
  | .setLeadVerified lead verified => r.setLeadVerified caller lead verified
  | .transferOwnership newOwner => do
    let owner ← Mirror.transferOwnership r.owner caller newOwner
    return { r with owner }
  | .renounceOwnership => do
    onlyOwner r.owner caller
    return { r with owner := 0 }

/-! ### What a call can do -/

end MirrorRegistry

namespace RegistryCall

/-- The calls that only change a setting. -/
def isSetting : RegistryCall → Bool
  | .setFsaOnboarder _ | .transferOwnership _ | .renounceOwnership => true
  | _ => false

/-- The profile that a call by `caller` asks to register. -/
def profile (caller : Address) : RegistryCall → Option FollowerProfile
  | .registerFollower riskProfile => some ⟨caller, riskProfile, true⟩
  | .registerFollowerAs follower riskProfile => some ⟨follower, riskProfile, true⟩
  | _ => none

/-- Who is to follow whom, and with what allocation, if a call by `caller` asks for it. -/
def request (caller : Address) : RegistryCall → Option (Address × FollowAllocation)
  | .followLead lead allocation => some (caller, ⟨lead, allocation, true⟩)
  | .followLeadAs follower lead allocation => some (follower, ⟨lead, allocation, true⟩)
  | _ => none

end RegistryCall

namespace MirrorRegistry

/-- All that a call by `caller` can do, with the checks it has passed. -/
inductive Effect (caller : Address) (r : MirrorRegistry) : RegistryCall → MirrorRegistry → Prop
  | setting {c : RegistryCall} (only : c.isSetting = true) (owner fsaOnboarder : Address) :
      Effect caller r c { r with owner, fsaOnboarder }
  | lead (strategyType : Uint8) (feeRateBps : Uint16) (minAllocation : Uint256) (key : Bytes32)
      (fresh : (r.leads caller).wallet = 0) (low : feeRateBps.val ≤ 2000) :
      Effect caller r (.registerLead strategyType feeRateBps minAllocation key)
        { r with
          leads := Function.update r.leads caller
            ⟨caller, strategyType, feeRateBps, minAllocation, key, false⟩ }
  | verified (lead : Address) (verified : Bool) (registered : (r.leads lead).wallet ≠ 0) :
      Effect caller r (.setLeadVerified lead verified)
        { r with leads := Function.update r.leads lead { r.leads lead with verified } }
  | follower {c : RegistryCall} (profile : FollowerProfile)
      (asked : c.profile caller = some profile)
      (fresh : (r.followers profile.wallet).registered = false) :
      Effect caller r c { r with followers := Function.update r.followers profile.wallet profile }
  | follow {c : RegistryCall} (follower : Address) (a : FollowAllocation)
      (asked : c.request caller = some (follower, a))
      (profile : (r.followers follower).registered = true)
      (registered : (r.leads a.lead).wallet ≠ 0)
      (enough : (r.leads a.lead).minAllocation ≤ a.allocation)
      (fresh : (r.followAllocations follower a.lead).active = false) :
      Effect caller r c
        { r with
          followAllocations := Function.update r.followAllocations follower
            (Function.update (r.followAllocations follower) a.lead a)
          followerLeads :=
            Function.update r.followerLeads follower (r.followerLeads follower ++ [a.lead])
          leadFollowers :=
            Function.update r.leadFollowers a.lead (r.leadFollowers a.lead ++ [follower]) }
  | unfollow (lead : Address) (following : (r.followAllocations caller lead).active = true) :
      Effect caller r (.unfollowLead lead)
        { r with
          followAllocations := Function.update r.followAllocations caller
            (Function.update (r.followAllocations caller) lead
              { r.followAllocations caller lead with active := false, allocation := 0 }) }

theorem registerLead_ok (caller : Address) (strategyType : Uint8) (feeRateBps : Uint16)
    (minAllocation : Uint256) (key : Bytes32) (r r' : MirrorRegistry) :
    r.registerLead caller strategyType feeRateBps minAllocation key = .ok r' ↔
      (r.leads caller).wallet = 0 ∧ feeRateBps.val ≤ 2000 ∧
        r' = { r with
          leads := Function.update r.leads caller
            ⟨caller, strategyType, feeRateBps, minAllocation, key, false⟩ } := by
  simp only [registerLead, bind_ok, revertIf_ok, pure_ok, exists_const, not_not, not_lt,
    eq_comm (a := r')]

theorem registerFollower_ok {follower : Address} {riskProfile : Uint8} {r r' : MirrorRegistry} :
    r.registerFollower follower riskProfile = .ok r' ↔
      (r.followers follower).registered = false ∧
        r' = { r with
          followers := Function.update r.followers follower ⟨follower, riskProfile, true⟩ } := by
  simp only [registerFollower, bind_ok, revertIf_ok, pure_ok, exists_const, Bool.not_eq_true,
    eq_comm (a := r')]

theorem followLead_ok {follower lead : Address} {allocation : Uint256} {r r' : MirrorRegistry} :
    r.followLead follower lead allocation = .ok r' ↔
      (r.followers follower).registered = true ∧ (r.leads lead).wallet ≠ 0 ∧
        (r.leads lead).minAllocation ≤ allocation ∧
        (r.followAllocations follower lead).active = false ∧
        r' = { r with
          followAllocations := Function.update r.followAllocations follower
            (Function.update (r.followAllocations follower) lead ⟨lead, allocation, true⟩)
          followerLeads :=
            Function.update r.followerLeads follower (r.followerLeads follower ++ [lead])
          leadFollowers :=
            Function.update r.leadFollowers lead (r.leadFollowers lead ++ [follower]) } := by
  simp only [followLead, bind_ok, revertIf_ok, pure_ok, exists_const, Bool.not_eq_true,
    Bool.not_eq_false, not_lt, ne_eq, eq_comm (a := r')]

/-- A call that goes through does one of these things. -/
theorem call_effect {caller : Address} {r r' : MirrorRegistry} {c : RegistryCall}
    (h : r.call caller c = .ok r') : Effect caller r c r' := by
  cases c with
  | setFsaOnboarder onboarder =>
    simp only [call, setFsaOnboarder, bind_ok, pure_ok] at h
    obtain ⟨_, -, rfl⟩ := h
    exact .setting rfl r.owner onboarder
  | registerLead strategyType feeRateBps minAllocation key =>
    obtain ⟨fresh, low, rfl⟩ := (registerLead_ok _ _ _ _ _ _ _).mp h
    exact .lead strategyType feeRateBps minAllocation key fresh low
  | registerFollower riskProfile =>
    obtain ⟨fresh, rfl⟩ := registerFollower_ok.mp h
    exact .follower ⟨caller, riskProfile, true⟩ rfl fresh
  | registerFollowerAs follower riskProfile =>
    simp only [call, bind_ok] at h
    obtain ⟨_, -, registered⟩ := h
    obtain ⟨fresh, rfl⟩ := registerFollower_ok.mp registered
    exact .follower ⟨follower, riskProfile, true⟩ rfl fresh
  | followLead lead allocation =>
    obtain ⟨profile, registered, enough, fresh, rfl⟩ := followLead_ok.mp h
    exact .follow caller ⟨lead, allocation, true⟩ rfl profile registered enough fresh
  | followLeadAs follower lead allocation =>
    simp only [call, bind_ok] at h
    obtain ⟨_, -, followed⟩ := h
    obtain ⟨profile, registered, enough, fresh, rfl⟩ := followLead_ok.mp followed
    exact .follow follower ⟨lead, allocation, true⟩ rfl profile registered enough fresh
  | unfollowLead lead =>
    simp only [call, unfollowLead, bind_ok, revertIf_ok, pure_ok, Bool.not_eq_false] at h
    obtain ⟨_, following, rfl⟩ := h
    exact .unfollow lead following
  | setLeadVerified lead verified =>
    simp only [call, setLeadVerified, bind_ok, revertIf_ok, pure_ok] at h
    obtain ⟨_, -, _, registered, rfl⟩ := h
    exact .verified lead verified registered
  | transferOwnership newOwner =>
    simp only [call, bind_ok, pure_ok] at h
    obtain ⟨owner, -, rfl⟩ := h
    exact .setting rfl owner r.fsaOnboarder
  | renounceOwnership =>
    simp only [call, bind_ok, pure_ok] at h
    obtain ⟨_, -, rfl⟩ := h
    exact .setting rfl 0 r.fsaOnboarder

/-! ### Leads -/

/-- What registration guarantees: a lead is listed under its own wallet, as an account that
called in, at a rate the registry accepts. -/
structure Sound (D : Deployment) (r : MirrorRegistry) : Prop where
  wallet : ∀ a, (r.leads a).wallet = 0 ∨ (r.leads a).wallet = a
  outside : ∀ a, (r.leads a).wallet ≠ 0 → a ∉ D.reserved
  rate : ∀ a, (r.leads a).feeRateBps.val ≤ 2000

theorem deployed_sound (D : Deployment) (initialOwner : Address) :
    (deployed initialOwner).Sound D where
  wallet _ := .inl rfl
  outside _ h := absurd rfl h
  rate _ := by simp [deployed]

theorem Sound.of_leads {D : Deployment} {r r' : MirrorRegistry} (sound : r.Sound D)
    (same : r'.leads = r.leads) : r'.Sound D where
  wallet := same ▸ sound.wallet
  outside := same ▸ sound.outside
  rate := same ▸ sound.rate

/-- Every call but `registerLead` and `setLeadVerified` leaves the leads alone. -/
theorem call_sound (D : Deployment) (who : Outsider D) (r r' : MirrorRegistry) (c : RegistryCall)
    (sound : r.Sound D) (h : r.call who.addr c = .ok r') : r'.Sound D := by
  cases call_effect h with
  | lead strategyType feeRateBps minAllocation key _ low =>
    -- the entry written is the caller's own, with a rate that was checked
    refine ⟨fun a => ?_, fun a => ?_, fun a => ?_⟩ <;> by_cases ha : a = who.addr
    · subst ha; simp
    · simpa [ha] using sound.wallet a
    · subst ha; exact fun _ => who.outside
    · simpa [ha] using sound.outside a
    · subst ha; simpa using low
    · simpa [ha] using sound.rate a
  | verified lead =>
    -- the flag changes and wallet and rate are copied
    refine ⟨fun a => ?_, fun a => ?_, fun a => ?_⟩ <;> by_cases ha : a = lead
    · subst ha; simpa using sound.wallet a
    · simpa [ha] using sound.wallet a
    · subst ha; simpa using sound.outside a
    · simpa [ha] using sound.outside a
    · subst ha; simpa using sound.rate a
    · simpa [ha] using sound.rate a
  | setting | follower | follow | unfollow => exact sound.of_leads rfl

end MirrorRegistry

end Mirror
