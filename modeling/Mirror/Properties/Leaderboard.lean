import Mirror.Contracts.Leaderboard
import Mirror.Evm.Enumeration
import Mirror.Evm.Run

/-! The leaderboard shows the latest score that its signer posted for each lead. -/
namespace Mirror

open Evm

/-- Who may change what. -/
structure Authority where
  owner : Address
  signer : Address

/-- A score that was posted. -/
structure Posting where
  lead : Address
  record : ScoreRecord
  deriving DecidableEq

namespace Authority

/-- The authority after a call, whatever becomes of the scores. -/
def step (w : Authority) (op : LeaderboardOp) : Authority :=
  match op.call with
  | .setAiAgentSigner signer => if op.caller = w.owner then { w with signer } else w
  | .updateScore _ _ _ => w
  | .transferOwnership newOwner =>
    if op.caller = w.owner ∧ newOwner ≠ 0 then { w with owner := newOwner } else w
  | .renounceOwnership => if op.caller = w.owner then { w with owner := 0 } else w

/-- What a call posts. -/
def posts (w : Authority) (op : LeaderboardOp) : Option Posting :=
  match op.call with
  | .updateScore lead score attestationId =>
    if op.caller = w.signer ∧ score.val ≤ 100 ∧ lead ≠ 0 then
      some ⟨lead, score, attestationId, op.timestamp⟩
    else none
  | _ => none

/-- What calls post one after the other. -/
def postings : Authority → List LeaderboardOp → List Posting
  | _, [] => []
  | w, op :: ops => (w.posts op).toList ++ postings (w.step op) ops

/-- Every posting is one of the calls, made by the signer of that moment. -/
theorem posts_some {w : Authority} {op : LeaderboardOp} {p : Posting} (h : w.posts op = some p) :
    op.call = .updateScore p.lead p.record.score p.record.attestationId ∧ op.caller = w.signer ∧
      p.record.score.val ≤ 100 ∧ p.lead ≠ 0 ∧ p.record.updatedAt = op.timestamp := by
  unfold posts at h
  split at h
  next lead score attestationId called =>
    split at h
    next may =>
      cases h
      exact ⟨called, may.1, may.2.1, may.2.2, rfl⟩
    next => cases h
  next => cases h

theorem postings_sound {w : Authority} {ops : List LeaderboardOp} {p : Posting}
    (h : p ∈ w.postings ops) : p.record.score.val ≤ 100 ∧ p.lead ≠ 0 := by
  -- over the calls, under the authority that each of them meets
  induction ops generalizing w with
  | nil => cases h
  | cons op ops ih =>
    rw [postings, List.mem_append, Option.mem_toList] at h
    rcases h with first | later
    · obtain ⟨-, -, score, lead, -⟩ := posts_some first
      exact ⟨score, lead⟩
    · exact ih later

end Authority

/-- The record last posted for a lead. -/
def latest (ps : List Posting) (lead : Address) : ScoreRecord :=
  ((ps.filter fun p => p.lead = lead).getLast?.map Posting.record).getD ⟨0, 0, 0⟩

theorem latest_concat (ps : List Posting) (p : Posting) :
    latest (ps ++ [p]) = Function.update (latest ps) p.lead p.record := by
  funext lead
  rw [latest, List.filter_append]
  by_cases own : p.lead = lead
  · subst own
    simp
  · rw [Function.update_of_ne (Ne.symm own)]
    simp [own, latest]

theorem latest_score_le {ps : List Posting} (bounded : ∀ p ∈ ps, p.record.score.val ≤ 100)
    (lead : Address) : (latest ps lead).score.val ≤ 100 := by
  unfold latest
  cases last : (ps.filter fun p => p.lead = lead).getLast? with
  | none => exact Nat.zero_le 100
  | some p => exact bounded p (List.mem_of_mem_filter (List.mem_of_getLast? last))

namespace MirrorLeaderboard

/-- What the contract stores, told by the authority and the postings so far. -/
structure Shows (b : MirrorLeaderboard) (w : Authority) (ps : List Posting) : Prop where
  owner : b.owner = w.owner
  signer : b.aiAgentSigner = w.signer
  scores : b.scores = latest ps
  listed : b.rankedLeads = (ps.map Posting.lead).eraseDups
  marked : ∀ lead, b.isRanked lead = true ↔ lead ∈ ps.map Posting.lead

theorem shows_deployed (signer owner : Address) :
    (deployed signer owner).Shows ⟨owner, signer⟩ [] :=
  ⟨rfl, rfl, rfl, rfl, fun lead => by simp [deployed]⟩

theorem onlyAiAgentSigner_ok {b : MirrorLeaderboard} {caller : Address} {u : Unit} :
    b.onlyAiAgentSigner caller = .ok u ↔ caller = b.aiAgentSigner := by
  rw [onlyAiAgentSigner, revertIf_ok, not_not]

/-- The storage after a score is posted. -/
def posted (b : MirrorLeaderboard) (p : Posting) : MirrorLeaderboard :=
  { b with
    scores := Function.update b.scores p.lead p.record
    isRanked := Function.update b.isRanked p.lead true
    rankedLeads := if b.isRanked p.lead then b.rankedLeads else b.rankedLeads ++ [p.lead] }

theorem updateScore_ok {b b' : MirrorLeaderboard} {caller lead : Address} {timestamp : Uint256}
    {score : Uint8} {attestationId : Bytes32} :
    b.updateScore caller timestamp lead score attestationId = .ok b' ↔
      (caller = b.aiAgentSigner ∧ score.val ≤ 100 ∧ lead ≠ 0) ∧
        b' = b.posted ⟨lead, score, attestationId, timestamp⟩ := by
  simp only [updateScore, bind_ok, onlyAiAgentSigner_ok, revertIf_ok, exists_const, Nat.not_lt,
    and_assoc]
  refine and_congr_right fun _ => and_congr_right fun _ => and_congr_right fun _ => ?_
  by_cases ranked : b.isRanked lead = true
  · -- to mark a lead again changes nothing
    have same : Function.update b.isRanked lead true = b.isRanked := by
      rw [← ranked, Function.update_eq_self]
    rw [if_neg (by simp [ranked]), pure_ok, posted, if_pos ranked, same]
    exact eq_comm
  · rw [if_pos (by simpa using ranked), pure_ok, posted, if_neg ranked]
    exact eq_comm

/-- The owner and the signer of now. -/
def authority (b : MirrorLeaderboard) : Authority := ⟨b.owner, b.aiAgentSigner⟩

/-- What a call does to the scores is what it posts, and to the authority what `Authority.step`
says. -/
theorem step_eq (b : MirrorLeaderboard) (op : LeaderboardOp) :
    b.step op =
      { ((b.authority.posts op).map b.posted).getD b with
        owner := (b.authority.step op).owner
        aiAgentSigner := (b.authority.step op).signer } := by
  rw [step, call, Authority.posts, Authority.step]
  -- each call either passes its check and does one thing, or changes nothing
  cases called : op.call with
  | setAiAgentSigner signer =>
    by_cases own : op.caller = b.owner
    · simp [setAiAgentSigner, onlyOwner, revertIf, Except.mapError, authority, own, bind,
        Except.bind, pure, Except.pure]
    · simp [setAiAgentSigner, onlyOwner, revertIf, Except.mapError, authority, own, bind,
        Except.bind]
  | updateScore lead score attestationId =>
    by_cases may : op.caller = b.aiAgentSigner ∧ score.val ≤ 100 ∧ lead ≠ 0
    · have done : b.updateScore op.caller op.timestamp lead score attestationId =
          .ok (b.posted ⟨lead, score, attestationId, op.timestamp⟩) := updateScore_ok.mpr ⟨may, rfl⟩
      simp only [done]
      rw [if_pos (show op.caller = b.authority.signer ∧ _ from may)]
      rfl
    · simp only
      rw [if_neg (show ¬(op.caller = b.authority.signer ∧ _) from may)]
      split
      next b' done => exact absurd (updateScore_ok.mp done).1 may
      next => rfl
  | transferOwnership newOwner =>
    by_cases own : op.caller = b.owner
    · by_cases zero : newOwner = 0
      · simp [Mirror.transferOwnership, onlyOwner, revertIf, Except.mapError, authority, own, zero,
          bind, Except.bind]
      · simp [Mirror.transferOwnership, onlyOwner, revertIf, Except.mapError, authority, own, zero,
          bind, Except.bind, pure, Except.pure]
    · simp [Mirror.transferOwnership, onlyOwner, revertIf, Except.mapError, authority, own, bind,
        Except.bind]
  | renounceOwnership =>
    by_cases own : op.caller = b.owner
    · simp [onlyOwner, revertIf, Except.mapError, authority, own, bind, Except.bind, pure,
        Except.pure]
    · simp [onlyOwner, revertIf, Except.mapError, authority, own, bind, Except.bind]

theorem Shows.posted {b : MirrorLeaderboard} {w : Authority} {ps : List Posting}
    (shows : b.Shows w ps) (p : Posting) : (b.posted p).Shows w (ps ++ [p]) where
  owner := shows.owner
  signer := shows.signer
  scores := by rw [latest_concat, ← shows.scores]; rfl
  listed := by
    rw [List.map_append, List.map_singleton, eraseDups_concat, ← shows.listed,
      ← if_congr (shows.marked p.lead) rfl rfl]
    rfl
  marked lead := by
    rw [List.map_append, List.map_singleton, List.mem_append, List.mem_singleton,
      ← shows.marked lead]
    by_cases own : lead = p.lead
    · subst own
      simp [MirrorLeaderboard.posted]
    · simp [MirrorLeaderboard.posted, own]

/-- One call. -/
theorem Shows.step {b : MirrorLeaderboard} {w : Authority} {ps : List Posting}
    (shows : b.Shows w ps) (op : LeaderboardOp) :
    (b.step op).Shows (w.step op) (ps ++ (w.posts op).toList) := by
  have same : b.authority = w := by rw [authority, shows.owner, shows.signer]
  rw [step_eq, same]
  cases w.posts op with
  | none =>
    rw [Option.toList_none, List.append_nil]
    exact ⟨rfl, rfl, shows.scores, shows.listed, shows.marked⟩
  | some p =>
    have next := shows.posted p
    exact ⟨rfl, rfl, next.scores, next.listed, next.marked⟩

/-- A run of calls. -/
theorem Shows.run {b : MirrorLeaderboard} {w : Authority} {ps : List Posting}
    (shows : b.Shows w ps) (ops : List LeaderboardOp) :
    (Evm.run MirrorLeaderboard.step b ops).Shows (Evm.run Authority.step w ops)
      (ps ++ w.postings ops) := by
  -- over the calls, with what has been posted so far
  induction ops generalizing b w ps with
  | nil => simpa [Authority.postings] using shows
  | cons op ops ih =>
    rw [Authority.postings, ← List.append_assoc]
    exact ih (shows.step op)

/-- After any calls by anyone, each lead has the record that the signer of that moment posted for
it last and none if there is no such record, the leads are listed once each in the order of their
first postings, and no score is above 100. -/
theorem shows_latest_postings (signer owner : Address) (ops : List LeaderboardOp) :
    let b := Evm.run step (deployed signer owner) ops
    let ps := Authority.postings ⟨owner, signer⟩ ops
    b.authority = Evm.run Authority.step ⟨owner, signer⟩ ops ∧
      (∀ lead, b.getScore lead = latest ps lead ∧ (b.getScore lead).score.val ≤ 100) ∧
      b.getRankedLeads = (ps.map Posting.lead).eraseDups ∧
      b.getRankedLeads.Nodup ∧
      ∀ lead, (b.isRanked lead = true ↔ lead ∈ b.getRankedLeads) ∧
        (lead ∈ b.getRankedLeads → lead ≠ 0) := by
  intro b ps
  obtain ⟨owned, signed, scores, listed, marked⟩ :=
    (shows_deployed signer owner).run ops
  rw [List.nil_append] at scores listed marked
  have ranks := enumerates_eraseDups (ps.map Posting.lead)
  have member (lead : Address) : lead ∈ b.getRankedLeads ↔ lead ∈ ps.map Posting.lead := by
    rw [getRankedLeads, listed]
    exact ranks.2 lead
  refine ⟨by rw [authority, owned, signed], fun lead => ?_, listed, ?_, fun lead => ⟨?_, ?_⟩⟩
  · have shown : b.getScore lead = latest ps lead := congrFun scores lead
    refine ⟨shown, ?_⟩
    rw [shown]
    exact latest_score_le (fun p posting => (Authority.postings_sound posting).1) lead
  · rw [getRankedLeads, listed]
    exact ranks.1
  · rw [member lead]
    exact marked lead
  · rw [member lead]
    intro posting
    obtain ⟨p, posted, rfl⟩ := List.mem_map.mp posting
    exact (Authority.postings_sound posted).2

end MirrorLeaderboard

end Mirror
