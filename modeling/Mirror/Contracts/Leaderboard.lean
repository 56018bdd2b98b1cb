import Mirror.Contracts.Common

/-! `MirrorLeaderboard`: attested scores, which the signer of the scoring agent alone updates. -/
namespace Mirror

open Evm

structure ScoreRecord where
  score : Uint8
  attestationId : Bytes32
  updatedAt : Uint256
  deriving DecidableEq

inductive LeaderboardRevert
  | ownable (r : Revert)
  | onlyAiAgentSigner
  | invalidScore
  | leadNotFound
  deriving DecidableEq

structure MirrorLeaderboard where
  owner : Address
  aiAgentSigner : Address
  rankedLeads : List Address
  scores : Address → ScoreRecord
  isRanked : Address → Bool

inductive LeaderboardCall
  | setAiAgentSigner (signer : Address)
  | updateScore (lead : Address) (score : Uint8) (attestationId : Bytes32)
  | transferOwnership (newOwner : Address)
  | renounceOwnership

/-- A call, who makes it and when. -/
structure LeaderboardOp where
  caller : Address
  timestamp : Uint256
  call : LeaderboardCall

namespace MirrorLeaderboard

/-- Storage of the contract just constructed. -/
def deployed (aiAgentSigner initialOwner : Address) : MirrorLeaderboard where
  owner := initialOwner
  aiAgentSigner := aiAgentSigner
  rankedLeads := []
  scores _ := ⟨0, 0, 0⟩
  isRanked _ := false

def onlyAiAgentSigner (b : MirrorLeaderboard) (caller : Address) :
    Except LeaderboardRevert Unit :=
  revertIf (caller ≠ b.aiAgentSigner) .onlyAiAgentSigner

def setAiAgentSigner (caller signer : Address) (b : MirrorLeaderboard) :
    Except LeaderboardRevert MirrorLeaderboard := do
  (onlyOwner b.owner caller).mapError .ownable
  return { b with aiAgentSigner := signer }

def updateScore (caller : Address) (timestamp : Uint256) (lead : Address) (score : Uint8)
    (attestationId : Bytes32) (b : MirrorLeaderboard) :
    Except LeaderboardRevert MirrorLeaderboard := do
  b.onlyAiAgentSigner caller
  revertIf (100 < score.val) .invalidScore
  revertIf (lead = 0) .leadNotFound
  let b := { b with
    scores := Function.update b.scores lead { score, attestationId, updatedAt := timestamp } }
  -- the list only ever grows: a lead is appended with its first score
  if b.isRanked lead = false then
    return { b with
      isRanked := Function.update b.isRanked lead true
      rankedLeads := b.rankedLeads ++ [lead] }
  else return b

def getScore (b : MirrorLeaderboard) (lead : Address) : ScoreRecord := b.scores lead

def getRankedLeads (b : MirrorLeaderboard) : List Address := b.rankedLeads

def call (b : MirrorLeaderboard) (op : LeaderboardOp) :
    Except LeaderboardRevert MirrorLeaderboard :=
  match op.call with
  | .setAiAgentSigner signer => b.setAiAgentSigner op.caller signer
  | .updateScore lead score attestationId =>
    b.updateScore op.caller op.timestamp lead score attestationId
  | .transferOwnership newOwner => do
    let owner ← (Mirror.transferOwnership b.owner op.caller newOwner).mapError .ownable
    return { b with owner }
  | .renounceOwnership => do
    (onlyOwner b.owner op.caller).mapError .ownable
    return { b with owner := 0 }

/-- A call that reverts changes nothing. -/
def step (b : MirrorLeaderboard) (op : LeaderboardOp) : MirrorLeaderboard :=
  match b.call op with
  | .ok b' => b'
  | .error _ => b

end MirrorLeaderboard

end Mirror
