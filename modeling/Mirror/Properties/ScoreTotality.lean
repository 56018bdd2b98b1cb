import Mirror.Properties.SignalReplay
import Mirror.Refinement.ScoredEvents

/-!
When a request for a score is answered with a score. The events are not checked: what is wrong with
one makes the handler throw, or goes through to a score that is no number.
-/
namespace Mirror

open Evm hiding Byte
open Js Number Completion

section

variable {host : AgentHost} {msg : JsString}

/-- Reading a request throws nothing. -/
theorem readScoreRequest_settles (host : AgentHost) (msg : JsString) :
    (readScoreRequest host msg).Settles fun _ => True := by
  have payload : (readPayload msg).Settles fun _ => True := by
    simp only [readPayload, decodeHex]
    rw [settles_bind]
    cases hexToBytes msg with
    | error e => trivial
    | ok bytes =>
      have read : ((orReturn (Json.parse (utf8Decode bytes))
          (text "payload: expected JSON object") : Body Json) >>= fun parsed => do
            returnIf (!parsed.isObject) (text "payload: expected JSON object")
            return parsed).Settles fun _ => True := by
        simp only [settles_bind, settles_orReturn, settles_returnIf, settles_pure]
        exact fun _ _ _ => trivial
      exact read
  -- a failed fetch is answered with its message
  have source (parsed : Json) (lead : JsString) :
      (sourceEvents host parsed lead).Settles fun _ => True := by
    unfold sourceEvents
    dsimp only
    split
    · trivial
    · split
      · trivial
      · split <;> trivial
  simp only [readScoreRequest, settles_bind, settles_orReturn, settles_returnIf, settles_pure]
  refine settles_mono (fun parsed _ _ lead _ => ?_) payload
  exact settles_mono (fun _ _ _ _ => trivial) (source parsed lead)

/-- The message is about an event that is no object, or without a number for its time or return. -/
def MalformedEvents (host : AgentHost) (msg : JsString) : Prop :=
  ∃ parsed lead events entries, readScoreRequest host msg = .ok (parsed, lead, events) ∧
    spread events = .ok entries ∧ ∃ e ∈ entries, ¬Complete e

/-- A result comes back with status 0 or 1: with 1 where its score is publishable, and with 0
where the events are malformed. -/
def ScoreAnswers (host : AgentHost) (msg : JsString) : Prop :=
  ∃ r, handleScoreV1 host msg = .ok r ∧ (r.status = 0 ∨ r.status = 1) ∧
    (r.status = 1 → ∃ run, scoreV1 host msg = .ok run ∧ r = run.result ∧
      Publishable run.breakdown.aiScore) ∧
    (MalformedEvents host msg → r.status = 0)

/-- The message is refused before its events are scored, or they are complete, have sizes that
convert, and no sum over them overflows. -/
def Scoreable (host : AgentHost) (msg : JsString) : Prop :=
  ∀ parsed lead events, readScoreRequest host msg = .ok (parsed, lead, events) →
    ∃ entries, spread events = .ok entries ∧ (∀ e ∈ entries, Complete e ∧ Sizeable e) ∧
      SumsFinite entries

theorem scoreAnswers_settles : ScoreAnswers host msg ↔ (scoreV1 host msg).Settles fun run =>
    Publishable run.breakdown.aiScore ∧ ¬MalformedEvents host msg := by
  simp only [ScoreAnswers, handleScoreV1]
  match scoreV1 host msg with
  | .ok run =>
    constructor
    · rintro ⟨_, ⟨⟩, -, score, malformed⟩
      obtain ⟨_, ⟨⟩, -, publishable⟩ := score rfl
      refine ⟨publishable, ?_⟩
      intro wrong
      cases malformed wrong
    · rintro ⟨publishable, wellFormed⟩
      exact ⟨run.result, rfl, .inr rfl, fun _ => ⟨run, rfl, rfl, publishable⟩,
        fun wrong => absurd wrong wellFormed⟩
  | .error (.returned message) =>
    refine iff_of_true ⟨refusal message, rfl, .inl rfl, ?_, fun _ => rfl⟩ trivial
    rintro ⟨⟩
  | .error (.thrown e) => simp [toCall, Settles]

/-- What complete events come to. -/
theorem scoreEvents_iff (parsed : Json) (lead : JsString) (events : Json) :
    (∃ run, scoreEvents host parsed lead events = .ok run ∧
      Publishable run.breakdown.aiScore ∧
      ∀ entries, spread events = .ok entries → ∀ e ∈ entries, Complete e) ↔
    ∃ entries, spread events = .ok entries ∧ (∀ e ∈ entries, Complete e ∧ Sizeable e) ∧
      SumsFinite entries := by
  constructor
  · rintro ⟨run, done, publishable, known⟩
    obtain ⟨entries, iterable, done⟩ := (bind_ok _ _ _).mp done
    obtain ⟨breakdown, scored, done⟩ := (bind_ok _ _ _).mp done
    obtain ⟨classification, classified, done⟩ := (bind_ok _ _ _).mp done
    obtain ⟨drift, -, done⟩ := (bind_ok _ _ _).mp done
    cases done
    have complete := known entries iterable
    obtain ⟨_, same, finite⟩ := scoreLead_complete complete (ofRat (host.dateNow / 1000 : ℕ))
    rw [scored] at same
    cases same
    have sizeable := (classifyLead_complete complete).mp ⟨_, classified⟩
    exact ⟨entries, iterable, fun e member => ⟨complete e member, sizeable e member⟩,
      finite.mp publishable⟩
  · rintro ⟨entries, iterable, known, finite⟩
    have complete : ∀ e ∈ entries, Complete e := fun e member => (known e member).1
    have sizeable : ∀ e ∈ entries, Sizeable e := fun e member => (known e member).2
    obtain ⟨breakdown, scored, publishable⟩ :=
      scoreLead_complete complete (ofRat (host.dateNow / 1000 : ℕ))
    obtain ⟨classification, classified⟩ := (classifyLead_complete complete).mpr sizeable
    obtain ⟨drift, drifted⟩ := (detectDrift_complete complete host.driftConfidenceThreshold lead
      (((parsed.get (text "baselineStrategyType")).bind Json.asNumber).getD zero)
      (((parsed.get (text "cycle")).bind Json.asNumber).getD zero)).mpr sizeable
    refine ⟨_, (bind_ok _ _ _).mpr ⟨_, iterable, (bind_ok _ _ _).mpr ⟨_, scored,
      (bind_ok _ _ _).mpr ⟨_, classified, (bind_ok _ _ _).mpr ⟨_, drifted, rfl⟩⟩⟩⟩,
      publishable.mpr finite, ?_⟩
    intro entries' iterable' e member
    rw [iterable] at iterable'
    cases iterable'
    exact complete e member

theorem lift_ok {α ρ : Type} {x : Sure α} {a : α} :
    (x.lift : Completion Thrown ρ α) = .ok a ↔ x = .ok a := by
  match x with
  | .ok b => simp [Sure.lift]
  | .error (.thrown e) => simp [Sure.lift, throwing]

theorem lift_settles {α ρ : Type} {x : Sure α} {post : α → Prop} :
    (x.lift : Completion Thrown ρ α).Settles post ↔ ∃ a, x = .ok a ∧ post a := by
  match x with
  | .ok a =>
    simp only [Except.ok.injEq, exists_eq_left']
    exact Iff.rfl
  | .error (.thrown e) =>
    refine iff_of_false (settles_throwing e) ?_
    rintro ⟨_, ⟨⟩, -⟩

/-- A message is answered as it should be exactly if it is refused early, or its events are
complete, their sizes convert and no sum over them overflows. -/
theorem score_answers_iff (host : AgentHost) (msg : JsString) :
    ScoreAnswers host msg ↔ Scoreable host msg := by
  have settled := readScoreRequest_settles host msg
  rw [scoreAnswers_settles, scoreV1, settles_bind]
  simp only [Scoreable, MalformedEvents]
  match request : readScoreRequest host msg with
  | .error (.returned message) =>
    refine iff_of_true trivial ?_
    rintro _ _ _ ⟨⟩
  | .error (.thrown e) =>
    rw [request] at settled
    exact settled.elim
  | .ok (parsed, lead, events) =>
    -- the request is known, so what is said of every such request is said of it
    have events_of {p : Json → Prop} : (∀ parsed' lead' events',
        (Except.ok (parsed, lead, events) : Body _) = .ok (parsed', lead', events') →
          p events') ↔ p events := by
      constructor
      · intro all
        exact all parsed lead events rfl
      · rintro holds _ _ _ ⟨⟩
        exact holds
    rw [events_of, ← scoreEvents_iff parsed lead events]
    refine lift_settles.trans (exists_congr fun run => and_congr_right fun _ =>
      and_congr_right fun _ => ?_)
    constructor
    · intro none entries iterable e member
      by_contra incomplete
      exact none ⟨parsed, lead, events, entries, rfl, iterable, e, member, incomplete⟩
    · rintro all ⟨_, _, _, entries, ⟨⟩, iterable, e, member, incomplete⟩
      exact incomplete (all entries iterable e member)

/-! ### The check before publishing -/

/-- The check that `publishScore` makes refuses no score of the handler, even where it is no
number. -/
theorem range_check_passes {run : ScoreRun} (done : scoreV1 host msg = .ok run) :
    scoreOutOfRange run.breakdown.aiScore = false := by
  obtain ⟨⟨parsed, lead, events⟩, -, lifted⟩ := (bind_ok _ _ _).mp done
  obtain ⟨entries, -, known⟩ := (bind_ok _ _ _).mp (lift_ok.mp lifted)
  obtain ⟨breakdown, scored, known⟩ := (bind_ok _ _ _).mp known
  obtain ⟨_, -, known⟩ := (bind_ok _ _ _).mp known
  obtain ⟨_, -, known⟩ := (bind_ok _ _ _).mp known
  cases known
  -- the score is clamped, and clamping leaves `NaN` as it is
  exact scoreLead_inRange scored

/-! ### Fixtures -/

theorem json_complete (lead : JsString) (e : OutcomeEvent) :
    Complete (e.json lead) ∧ Sizeable (e.json lead) :=
  ⟨⟨rfl, rfl⟩, rfl⟩

/-- What a fixture is sorted by, with its returns. -/
def fixtureReturns (event : ℕ → OutcomeEvent) : List (Number × Number) :=
  (List.range 30).map fun i =>
    (.ofRat (event i).timestamp, (Number.ofRat (event i).pnlBps).div bps)

def fixtureTimes (event : ℕ → OutcomeEvent) : List (Number × Number) :=
  (List.range 30).map fun i => (.ofRat (event i).timestamp, .ofRat (event i).timestamp)

/-- Thirty events of which no sum overflows are scored, whoever they are of. -/
theorem fixture_scored (event : ℕ → OutcomeEvent) (lead : JsString)
    (returns : (sum (ascending (fixtureReturns event))).isFinite = true)
    (times : (sum (gaps (ascending
      ((ascending (fixtureTimes event)).map fun t => (t, t))))).isFinite = true) :
    (∀ e ∈ (List.range 30).map fun i => (event i).json lead, Complete e ∧ Sizeable e) ∧
      SumsFinite ((List.range 30).map fun i => (event i).json lead) := by
  refine ⟨?_, fun _ => ?_, fun _ => ?_⟩
  · intro e member
    obtain ⟨i, -, rfl⟩ := List.mem_map.mp member
    exact json_complete lead (event i)
  -- the sums do not depend on whose events they are
  · rw [byTime_map, List.map_map]
    exact returns
  · have sorted : (byTime ((List.range 30).map fun i => (event i).json lead)).map (fun e =>
        (timestampOf e, timestampOf e)) =
          (ascending (fixtureTimes event)).map fun t => (t, t) := by
      rw [byTime_map, List.map_map, ascending_map, fixtureTimes, List.map_map]
      rfl
    rw [gapsOf, sorted]
    exact times

/-- Where fixtures are switched on, every message is answered as it should be. -/
theorem fixture_scoreable (fixture : host.syntheticOutcomeFixture = some (text "1")) :
    Scoreable host msg := by
  intro parsed lead events request
  obtain ⟨_, -, request⟩ := (bind_ok _ _ _).mp request
  obtain ⟨_, -, request⟩ := (bind_ok _ _ _).mp request
  obtain ⟨_, source, request⟩ := (bind_ok _ _ _).mp request
  obtain ⟨_, -, request⟩ := (bind_ok _ _ _).mp request
  cases request
  unfold sourceEvents at source
  dsimp only at source
  rw [if_pos (.inl fixture)] at source
  cases source
  refine ⟨_, rfl, ?_⟩
  split
  · exact fixture_scored meanRevEvent lead (by decide +kernel) (by decide +kernel)
  · exact fixture_scored momentumEvent lead (by decide +kernel) (by decide +kernel)

end

namespace Sample

/-- An agent that fetches nothing. -/
def agentHost : AgentHost where
  syntheticOutcomeFixture := none
  driftConfidenceThreshold := none
  matchingEnginePrivateLogUrl := none
  teeInternalToken := none
  encodeURIComponent s := .ok s
  fetch _ _ := .error (text "fetch failed")
  nullEvents := text "Cannot read properties of null (reading 'events')"
  dateNow := 0

/-- A request to score a lead by these events. -/
def scoreRequest (events : String) : JsString :=
  message ("\x7b\"lead\":\"0x00000000000000000000000000000000000000ee\",\"events\":" ++ events ++
    "\x7d")

end Sample

/-- A single `null` among the events makes the handler throw. -/
theorem null_event_throws : ¬∀ (host : AgentHost) (msg : JsString), ScoreAnswers host msg := by
  intro answers
  obtain ⟨r, answered, -⟩ := answers Sample.agentHost (Sample.scoreRequest "[null]")
  have thrown : handleScoreV1 Sample.agentHost (Sample.scoreRequest "[null]") =
      .error .typeError := by
    decide +kernel
  rw [thrown] at answered
  cases answered

end Mirror
