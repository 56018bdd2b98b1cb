import Mirror.Contracts.Common

/-! `MirrorHealthAuth`: which top-ups followers have authorized in advance. -/
namespace Mirror

open Evm

structure Auth where
  maxTopUp : Uint256
  enabled : Bool
  deriving DecidableEq

structure MirrorHealthAuth where
  owner : Address
  healthMonitor : Address
  authorizations : Address → Address → Auth

inductive HealthAuthCall
  | setHealthMonitor (monitor : Address)
  | preAuthorizeTopUp (lead : Address) (maxTopUp : Uint256) (enabled : Bool)
  | transferOwnership (newOwner : Address)
  | renounceOwnership

namespace MirrorHealthAuth

/-- Storage of the contract just constructed. -/
def deployed (initialOwner : Address) : MirrorHealthAuth where
  owner := initialOwner
  healthMonitor := 0
  authorizations _ _ := ⟨0, false⟩

def getAuth (follower lead : Address) (h : MirrorHealthAuth) : Auth :=
  h.authorizations follower lead

def isAuthorized (follower lead : Address) (amount : Uint256) (h : MirrorHealthAuth) : Bool :=
  let a := h.authorizations follower lead
  a.enabled && 0 < amount.val && amount.val ≤ a.maxTopUp.val

def setHealthMonitor (caller monitor : Address) (h : MirrorHealthAuth) :
    Except Revert MirrorHealthAuth := do
  onlyOwner h.owner caller
  return { h with healthMonitor := monitor }

def preAuthorizeTopUp (caller lead : Address) (maxTopUp : Uint256) (enabled : Bool)
    (h : MirrorHealthAuth) : Except Revert MirrorHealthAuth := do
  -- a lead that is not registered, and a cap of 0, are taken
  revertIf (lead = 0) .zeroAddress
  return { h with
    authorizations := Function.update h.authorizations caller
      (Function.update (h.authorizations caller) lead { maxTopUp, enabled }) }

/-- A call by `caller` to the contract. -/
def call (caller : Address) (h : MirrorHealthAuth) : HealthAuthCall → Except Revert MirrorHealthAuth
  | .setHealthMonitor monitor => h.setHealthMonitor caller monitor
  | .preAuthorizeTopUp lead maxTopUp enabled => h.preAuthorizeTopUp caller lead maxTopUp enabled
  | .transferOwnership newOwner => do
    let owner ← Mirror.transferOwnership h.owner caller newOwner
    return { h with owner }
  | .renounceOwnership => do
    onlyOwner h.owner caller
    return { h with owner := 0 }

/-- The authorization that a call gives, if it gives one for this follower and this lead. -/
def givenAuth (follower lead caller : Address) : HealthAuthCall → Option Auth
  | .preAuthorizeTopUp lead' maxTopUp enabled =>
    if caller = follower ∧ lead' = lead ∧ lead ≠ 0 then some ⟨maxTopUp, enabled⟩ else none
  | _ => none

/-- A follower alone changes its authorizations, one at a time. -/
theorem call_authorizations {follower lead caller : Address} {h h' : MirrorHealthAuth}
    {c : HealthAuthCall} (done : h.call caller c = .ok h') :
    h'.authorizations follower lead =
      (givenAuth follower lead caller c).getD (h.authorizations follower lead) := by
  cases c with
  | preAuthorizeTopUp lead' maxTopUp enabled =>
    simp only [call, preAuthorizeTopUp, bind_ok, revertIf_ok, pure_ok] at done
    obtain ⟨_, nonzero, rfl⟩ := done
    simp only [givenAuth]
    -- our entry, another lead of our follower, or another follower
    by_cases ours : caller = follower ∧ lead' = lead
    · obtain ⟨rfl, rfl⟩ := ours
      rw [if_pos ⟨rfl, rfl, nonzero⟩, Function.update_self, Function.update_self]
      rfl
    · rw [if_neg fun given => ours ⟨given.1, given.2.1⟩]
      by_cases same : caller = follower
      · subst same
        rw [Function.update_self,
          Function.update_of_ne fun other : lead = lead' => ours ⟨rfl, other.symm⟩]
        rfl
      · rw [Function.update_of_ne fun other : follower = caller => same other.symm]
        rfl
  | setHealthMonitor monitor =>
    simp only [call, setHealthMonitor, bind_ok, pure_ok] at done
    obtain ⟨_, -, rfl⟩ := done
    rfl
  | transferOwnership newOwner =>
    simp only [call, bind_ok, pure_ok] at done
    obtain ⟨_, -, rfl⟩ := done
    rfl
  | renounceOwnership =>
    simp only [call, bind_ok, pure_ok] at done
    obtain ⟨_, -, rfl⟩ := done
    rfl

/-- A call for this authorization that reverts is one for the zero address. -/
theorem call_given {follower lead caller : Address} {h : MirrorHealthAuth} {c : HealthAuthCall}
    {a : Auth} (given : givenAuth follower lead caller c = some a) :
    ∃ h', h.call caller c = .ok h' := by
  cases c with
  | preAuthorizeTopUp lead' maxTopUp enabled =>
    obtain ⟨⟨-, rfl, nonzero⟩, -⟩ := Option.ite_none_right_eq_some.mp given
    simp only [call, preAuthorizeTopUp, bind_ok, revertIf_ok, pure_ok]
    exact ⟨_, (), nonzero, rfl⟩
  | setHealthMonitor | transferOwnership | renounceOwnership => cases given

end MirrorHealthAuth

end Mirror
