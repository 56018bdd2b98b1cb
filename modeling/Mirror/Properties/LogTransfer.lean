import Mirror.Agent.Handlers
import Mirror.Properties.ServingOrder
import Mirror.Refinement.Wire

/-! The scoring agent receives from the matching engine the records of the lead that it asks
for. -/
namespace Mirror

open Evm hiding Byte
open Js Completion

/-! ### What is recorded can be written -/

theorem trunc_finite {x : Number} (finite : x.isFinite = true) : (Json.num x.trunc).IsFinite := by
  cases x with
  | finite d => exact .num _
  | nan | infinity => cases finite

theorem accept_outcome {host : Host} {parsed : Json} {direction : Direction} {sizePct : Number}
    {venue : Build → JsString} {empty : JsString} {reading : ℕ} {builds : List Build} {a : Accepted}
    (h : accept host parsed direction sizePct venue empty reading builds = .ok a) :
    ∃ lead, a.outcome = ⟨lead, host.seconds reading, 0, direction, sizePct.trunc⟩ := by
  simp only [accept] at h
  split at h
  next => cases h
  next first rest =>
    cases Except.ok.inj h
    exact ⟨_, rfl⟩

/-- A signal is recorded with a finite size, at a time that is a number. -/
theorem matchStageB_outcome {host : Host} {msg : JsString} {a : Accepted}
    (accepts : matchStageB host msg = .ok a) : a.outcome.toJson.IsFinite := by
  have made : ∃ (x : Number) (lead : JsString) (reading : ℕ) (direction : Direction),
      x.isFinite = true ∧ a.outcome = ⟨lead, host.seconds reading, 0, direction, x.trunc⟩ := by
    simp only [matchStageB, executeSignal, bind_ok] at accepts
    obtain ⟨signal, -, hint, -, taken⟩ := accepts
    -- both paths have checked that the size is finite
    have sized : ∀ {x}, sizeOf signal = some x → x.isFinite = true := by
      intro x stated
      have passes := (Option.filter_eq_some_iff.mp stated).2
      exact (Bool.and_eq_true_iff.mp passes).1
    split at taken
    · simp only [buildMockVenueStageB, bind_ok, orReturn_ok] at taken
      obtain ⟨x, stated, _, -, _, -, _, -, done⟩ := taken
      obtain ⟨lead, same⟩ := accept_outcome done
      exact ⟨x, lead, _, _, sized stated, same⟩
    · simp only [swapStageB, bind_ok, orReturn_ok] at taken
      obtain ⟨_, -, _, -, x, stated, _, -, _, -, _, -, _, -, _, -, _, -, _, -, _, -, done⟩ := taken
      obtain ⟨lead, same⟩ := accept_outcome done
      exact ⟨x, lead, _, _, sized stated, same⟩
  obtain ⟨x, lead, reading, direction, finite, same⟩ := made
  -- no date is so late that its seconds are rounded
  have time : host.seconds reading ≤ 2 ^ 53 := by
    have := (host.now reading).isLt
    rw [Host.seconds]
    omega
  rw [same, OutcomeRecord.toJson]
  refine obj_finite ⟨.str _, natJson_finite time, ?_, ?_, trunc_finite finite⟩
  · exact natJson_finite (Nat.zero_le _)
  · cases direction <;> exact .str _

theorem recorded_finite {rs : List IncomingMessage} {record : OutcomeRecord}
    (member : record ∈ recorded rs) : record.toJson.IsFinite := by
  obtain ⟨r, -, recorded⟩ := List.mem_filterMap.mp member
  have effect : r.effect = .outcome record := by
    cases effect : r.effect with
    | outcome record' => rw [effect] at recorded; rw [Option.some.inj recorded]
    | nothing | greeting | farewell => rw [effect] at recorded; cases recorded
  unfold IncomingMessage.effect at effect
  split at effect
  · obtain ⟨m, a, accepts, rfl⟩ := effect_outcome effect
    exact matchStageB_outcome accepts
  · cases effect

/-! ### The request of the agent -/

/-- The request that a fetch of the log makes: the path and the query of its URL, and the token. -/
def logRequest (engine : ServerHost) (token encoded : JsString) : IncomingMessage where
  host := engine
  method := text "GET"
  url := text "/internal/outcome-log?lead=" ++ urlQuery encoded
  authorization := some (text "Bearer " ++ token)
  body := some []

/-- What a fetch makes of an answer. -/
def logResponse : Answer → Except JsString LogResponse
  | .ok response => .ok ⟨response.status,
    match Json.parse (utf8Decode (utf8Encode response.payload.body)) with
    | some v => .ok v
    | none => .error []⟩
  | .error _ => .error []

theorem logUrl_eq (encoded : JsString) : text "/internal/outcome-log?lead=" ++ urlQuery encoded =
    text "/internal/outcome-log" ++ 0x3F :: (text "lead" ++ 0x3D :: urlQuery encoded) := by
  have parts : text "/internal/outcome-log?lead=" =
      text "/internal/outcome-log" ++ 0x3F :: (text "lead" ++ [0x3D]) := by decide
  rw [parts, List.append_assoc, List.cons_append, List.append_assoc, List.singleton_append]

theorem takeWhile_all {p : CodeUnit → Bool} {s : JsString} (all : s.all p = true)
    (t : JsString) : (s ++ t).takeWhile p = s ++ t.takeWhile p ∧
      (s ++ t).dropWhile p = t.dropWhile p := by
  have each : ∀ c ∈ s, p c = true := List.all_eq_true.mp all
  exact ⟨List.takeWhile_append_of_pos each, List.dropWhile_append_of_pos each⟩

theorem logRequest_mayRead {engine : ServerHost} {token : JsString}
    (shared : truthy engine.teeInternalToken = some token) (encoded : JsString) :
    (logRequest engine token encoded).MayRead where
  path := by
    rw [cleanPath, logRequest, logUrl_eq, (takeWhile_all (by rfl) _).1,
      List.takeWhile_cons_of_neg (by decide), List.append_nil]
  get := rfl
  token := by simp [unauthorized, logRequest, shared]
  arrives := rfl

/-- The engine reads the lead that the agent has asked for. -/
theorem logView_request {engine : ServerHost} {token lead encoded : JsString} (named : lead ≠ [])
    (escaped : encodeURIComponent lead = some encoded) (records : List OutcomeRecord) :
    logView (logRequest engine token encoded) records = getOutcomesForLead engine lead records := by
  obtain ⟨wellFormed, escapes⟩ := encodeURIComponent_escapes escaped
  -- the query is one part: nothing in it can be a question mark
  have rest : (text "lead" ++ 0x3D :: urlQuery encoded).all (· ≠ (0x3F : CodeUnit)) = true := by
    rw [List.all_append, List.all_cons, Bool.and_eq_true, Bool.and_eq_true]
    refine ⟨by rfl, by decide, List.all_eq_true.mpr fun c member => decide_eq_true fun same => ?_⟩
    exact (escapes.urlQuery.isPart c member).2 (by rw [same]; decide)
  have query : queryOf (logRequest engine token encoded).url =
      text "lead" ++ 0x3D :: urlQuery encoded := by
    have whole := (takeWhile_all rest []).1
    rw [List.takeWhile_nil, List.append_nil] at whole
    rw [queryOf, logRequest, logUrl_eq, (takeWhile_all (by rfl) _).2,
      List.dropWhile_cons_of_neg (by decide), List.tail_cons]
    exact whole
  have free : (text "lead").all isUnreserved = true := by rfl
  have read := searchParam_escapes free escapes.urlQuery
  rw [utf8Decode_utf8Encode wellFormed] at read
  have kept : truthy (some lead) = some lead :=
    Option.filter_some_pos (by simpa using named)
  rw [logView, query, read, kept]
  rfl

/-- The agent takes the records out of the response. -/
theorem fetchOutcomeLog_records {host : AgentHost} {base token lead encoded : JsString}
    (configured : truthy host.matchingEnginePrivateLogUrl = some base)
    (known : truthy host.teeInternalToken = some token)
    (escapes : host.encodeURIComponent lead = .ok encoded) {records : List OutcomeRecord}
    (written : ∀ record ∈ records, record.toJson.IsFinite)
    (received : host.fetch (withoutSlash base ++ text "/internal/outcome-log?lead=" ++ encoded)
      token = logResponse (.ok (eventsResponse records))) :
    fetchOutcomeLog host lead = .ok (.arr (records.map OutcomeRecord.toJson)) := by
  -- what is written is finite, so it is read as it was written
  have finite : (Json.obj [(text "events", .arr (records.map OutcomeRecord.toJson))]).IsFinite := by
    refine obj_finite (.arr fun v member => ?_)
    obtain ⟨record, kept, rfl⟩ := List.mem_map.mp member
    exact written record kept
  simp only [eventsResponse, logResponse, Payload.body, parse_utf8 finite] at received
  simp only [fetchOutcomeLog, configured, known, escapes, received, bind, Except.bind]
  rfl

/-- In whatever order requests arrive at the engine and its handlers go on, in the life of its
process: the agent that asks for a lead, with the token that both have, receives the records of this
lead, in any letter case, among the newest of the requests that are done by then, and nothing
else. -/
theorem fetch_reads_log (host : AgentHost) (engine : ServerHost)
    {base token lead encoded : JsString}
    (configured : truthy host.matchingEnginePrivateLogUrl = some base)
    (known : truthy host.teeInternalToken = some token)
    (shared : truthy engine.teeInternalToken = some token) (named : lead ≠ [])
    (escaped : encodeURIComponent lead = some encoded)
    (escapes : host.encodeURIComponent lead = .ok encoded)
    (done : List Server.Turn) (alive : (Server.after done).ended = false)
    (before after : Server.Turn) (later : List Server.Turn)
    (transported : ∀ a, (Server.after (done ++ (before ++ .request (logRequest engine token
        encoded) :: after) :: later)).answer (Server.taken (done ++ [before])).length = some a →
      host.fetch (withoutSlash base ++ text "/internal/outcome-log?lead=" ++ encoded) token =
        logResponse a) :
    let v := Server.after (done ++ [before])
    let rs := Server.taken (done ++ [before])
    ∃ m ≤ rs.length, (∀ j < m, (v.response j).isSome ∨
        ∃ e, v.answer j = some (.error e) ∧ (Server.after done).answer j = none) ∧
      (∀ j q, m ≤ j → rs[j]? = some q → (q.operation.isSome ∨ q.ReadsState) →
        v.answer j = none) ∧
      fetchOutcomeLog host lead = .ok (.arr
        ((getOutcomesForLead engine lead (newest maxEntries (recorded (rs.take m)))).map
          OutcomeRecord.toJson)) := by
  obtain ⟨m, within, settled, waiting, got⟩ :=
    log_moment alive before after later (logRequest_mayRead shared encoded)
  refine ⟨m, within, settled, waiting, ?_⟩
  rw [logView_request named escaped, (summarizes _).outcomes] at got
  refine fetchOutcomeLog_records configured known escapes (fun record member => ?_)
    (transported _ (Desk.response_iff.mp got))
  exact recorded_finite (List.mem_of_mem_drop (List.mem_filter.mp member).1)

namespace Sample

/-- The lead of the purchase, as the agent asks for it. -/
def askedLead : JsString := text "0x00000000000000000000000000000000000000EE"

/-- An agent that fetches from the engine, while the purchase is under way. -/
def fetchingAgent : AgentHost where
  syntheticOutcomeFixture := none
  driftConfidenceThreshold := none
  matchingEnginePrivateLogUrl := some (text "http://engine/")
  teeInternalToken := some (text "token")
  encodeURIComponent s := .ok s
  fetch _ _ := logResponse (((Server.after (underWay ++
    [[.request (logRequest engine (text "token") askedLead)]])).answer 1).getD (.error .typeError))
  nullEvents := []
  dateNow := 0

end Sample

theorem fetch_reads_log_underWay : ∃ m ≤ 1, fetchOutcomeLog Sample.fetchingAgent Sample.askedLead =
    .ok (.arr ((getOutcomesForLead Sample.engine Sample.askedLead
      (newest maxEntries (recorded ([Sample.matchAction].take m)))).map
        OutcomeRecord.toJson)) := by
  have alive : (Server.after Sample.underWay).ended = false := by decide +kernel
  have taken : Server.taken (Sample.underWay ++ [[]]) = [Sample.matchAction] := by
    rw [Server.taken, events_part alive, List.append_nil]
    exact taken_eq alive
  have encoded : encodeURIComponent Sample.askedLead = some Sample.askedLead := by decide
  have fetched : ∀ a, (Server.after (Sample.underWay ++
      [[.request (logRequest Sample.engine (text "token") Sample.askedLead)]])).answer
        (Server.taken (Sample.underWay ++ [[]])).length = some a →
      ∀ url token, Sample.fetchingAgent.fetch url token = logResponse a := by
    intro a got url token
    rw [taken, List.length_singleton] at got
    simp only [Sample.fetchingAgent, got, Option.getD_some]
  obtain ⟨m, within, -, -, records⟩ := fetch_reads_log Sample.fetchingAgent Sample.engine rfl rfl
    rfl (by decide) encoded rfl Sample.underWay alive [] [] [] fun a got => fetched a got _ _
  rw [taken] at within records
  exact ⟨m, within, records⟩

end Mirror
