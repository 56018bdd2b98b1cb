import Mirror.Properties.SignalReplay
import Mirror.Refinement.Effects

/-! In whatever order requests arrive and handlers go on, the matching engine answers as if it
took one request after the other. -/
namespace Mirror

open Evm hiding Byte
open Js

/-! ### The outcome log -/

/-- The events of a response. -/
def eventsResponse (records : List OutcomeRecord) : Response :=
  ⟨200, .json (.obj [(text "events", .arr (records.map OutcomeRecord.toJson))])⟩

/-- The log as one who may read it gets it. -/
def logView (r : IncomingMessage) (records : List OutcomeRecord) : List OutcomeRecord :=
  match truthy (searchParam (queryOf r.url) (text "lead")) with
  | some lead => getOutcomesForLead r.host lead records
  | none => records

theorem serve_mayRead {r : IncomingMessage} (mayRead : r.MayRead) (s : Extension) :
    Server.route r s = .inl (.ok (eventsResponse (logView r s.outcomes))) := by
  obtain ⟨expected, setting⟩ : ∃ t, truthy r.host.teeInternalToken = some t := by
    cases setting : truthy r.host.teeInternalToken with
    | none =>
      have token := mayRead.token
      rw [unauthorized, setting] at token
      cases token
    | some t => exact ⟨t, rfl⟩
  simp only [Server.route, serve_log mayRead, Completion.returning, processOutcomeLog, setting]
  rfl

/-! ### Throwing -/

/-- Of requests that are taken one after the other some throws. -/
def Throws (rs : List IncomingMessage) : Prop := ∃ e, .error e ∈ (serveAll rs).1

/-- Who may read the log has the answer at once, and no other than a response. -/
theorem mayRead_answer {turns : List Server.Turn} {k : ℕ} {r : IncomingMessage}
    (here : (Server.taken turns)[k]? = some r) (mayRead : r.MayRead) :
    ∃ records, (Server.after turns).answer k = some (.ok (eventsResponse records)) := by
  have answered : Desk.callOf Server.route .initial r = none :=
    Desk.callOf_none.mpr ⟨_, serve_mayRead mayRead .initial⟩
  obtain ⟨m, -, read⟩ := (kept_run turns).answer_read here answered
  rw [Desk.serveAlone_answered (serve_mayRead mayRead _)] at read
  exact ⟨_, read⟩

/-- What a process has thrown is thrown where requests are taken one after the other. -/
theorem throws_of_ended {turns : List Server.Turn} (ended : (Server.after turns).ended = true) :
    Throws (Server.taken turns) := by
  obtain ⟨k, e, got⟩ := Desk.ended_iff.mp ended
  obtain ⟨entry, there, -⟩ := Option.bind_eq_some_iff.mp got
  have inside : k < (Server.taken turns).length := by
    rw [← (kept_run turns).length]
    exact (List.getElem?_eq_some_iff.mp there).1
  have here := List.getElem?_eq_getElem inside
  -- reading the log does not throw
  have other : ¬(Server.taken turns)[k].MayRead := fun mayRead => by
    obtain ⟨records, read⟩ := mayRead_answer here mayRead
    rw [read] at got
    cases got
  exact ⟨e, List.mem_of_getElem? (answer_eq here other got)⟩

/-- Where all requests have responses, none of them throws. -/
theorem not_throws {turns : List Server.Turn}
    (answered : ∀ k < (Server.taken turns).length, ((Server.after turns).response k).isSome) :
    ¬Throws (Server.taken turns) := by
  rintro ⟨e, thrown⟩
  obtain ⟨k, there⟩ := List.mem_iff_getElem?.mp thrown
  have inside : k < (Server.taken turns).length := by
    rw [← Desk.serveAll_length Server.route .initial]
    exact (List.getElem?_eq_some_iff.mp there).1
  obtain ⟨a, response⟩ := Option.isSome_iff_exists.mp (answered k inside)
  have got := Desk.response_iff.mp response
  have here := List.getElem?_eq_getElem inside
  -- a reader of the log has its response alone too, and any other request has the same one
  by_cases mayRead : (Server.taken turns)[k].MayRead
  · rw [serveAll, Desk.serveAll_get _ _ _ here,
      Desk.serveAlone_answered (serve_mayRead mayRead _)] at there
    cases there
  · rw [answer_eq here mayRead got] at there
    cases there

/-- No request is taken in turns in which handlers go on. -/
theorem taken_advance (turns : List Server.Turn) (jobs : List ℕ) :
    Server.taken (turns ++ jobs.map fun job => [.advance job]) = Server.taken turns := by
  have none : ∀ (jobs : List ℕ) (d : Server), Desk.requests (Process.events Server.route d
      (jobs.map fun job => [.advance job])) = [] := by
    intro jobs
    induction jobs with
    | nil => exact fun d => rfl
    | cons job jobs ih =>
      intro d
      cases ended : d.ended with
      | true => rw [Process.events_ended ended]; rfl
      | false => exact (congrArg Desk.requests (Process.events_alive ended _ _)).trans (ih _)
  rw [Server.taken, Server.events, Process.events_append, Desk.requests_append, none,
    List.append_nil]
  rfl

/-- Nobody waits for ever: some turns bring all responses, unless a request throws. -/
theorem completes (turns : List Server.Turn) : ∃ jobs : List ℕ,
    let v := Server.after (turns ++ jobs.map fun job => [.advance job])
    (Throws (Server.taken turns) ∧ v.ended = true) ∨
      (¬Throws (Server.taken turns) ∧
        ∀ k < (Server.taken turns).length, (v.response k).isSome) := by
  obtain ⟨jobs, finished⟩ := Process.completes (kept_run turns)
  refine ⟨jobs, ?_⟩
  intro v
  have reached : v = Evm.run (Process.step Server.route) (Server.after turns)
      (jobs.map fun job => [.advance job]) := Evm.run_append ..
  rw [← reached] at finished
  rcases finished with ended | answered
  · exact .inl ⟨taken_advance turns jobs ▸ throws_of_ended ended, ended⟩
  · refine .inr ⟨?_, answered⟩
    rw [← taken_advance turns jobs] at answered ⊢
    exact not_throws answered

/-- Two handlers are never under way together, whoever does not read the outcome log has the
response of the server that takes one request after the other, and nobody waits for ever: unless
a request throws, which ends the process, some turns bring all responses. -/
theorem answers_in_order (turns : List Server.Turn) :
    let v := Server.after turns
    let rs := Server.taken turns
    (∀ (i j : ℕ) (a b : Job), v.gate.calls[i]? = some (Call.running a) →
      v.gate.calls[j]? = some (Call.running b) → i = j) ∧
    (∀ k r a, rs[k]? = some r → ¬r.MayRead → v.response k = some a →
      (serveAll rs).1[k]? = some (.ok a)) ∧
    ∃ jobs : List ℕ, let v' := Server.after (turns ++ jobs.map fun job => [.advance job])
      (Throws rs ∧ v'.ended = true) ∨
        (¬Throws rs ∧ ∀ k < rs.length, (v'.response k).isSome) := by
  refine ⟨fun i j a b => (kept_run turns).serial.running_unique, fun k r a here other got => ?_,
    completes turns⟩
  exact answer_eq here other (Desk.response_iff.mp got)

/-! ### Reading the log -/

/-- Who may read the log sees what the requests leave that are done by then. -/
theorem log_moment {done : List Server.Turn} (alive : (Server.after done).ended = false)
    (before after : Server.Turn) (later : List Server.Turn) {r : IncomingMessage}
    (mayRead : r.MayRead) :
    let v := Server.after (done ++ [before])
    let rs := Server.taken (done ++ [before])
    ∃ m ≤ rs.length, (∀ j < m, (v.response j).isSome ∨
        ∃ e, v.answer j = some (.error e) ∧ (Server.after done).answer j = none) ∧
      (∀ j q, m ≤ j → rs[j]? = some q → (q.operation.isSome ∨ q.ReadsState) →
        v.answer j = none) ∧
      (Server.after (done ++ (before ++ .request r :: after) :: later)).response rs.length =
        some (eventsResponse (logView r (serveAll (rs.take m)).2.outcomes)) := by
  intro v rs
  have answered : Desk.callOf Server.route .initial r = none :=
    Desk.callOf_none.mpr ⟨_, serve_mayRead mayRead .initial⟩
  obtain ⟨m, within, settled, waiting, got⟩ :=
    (kept_run (done ++ [before])).read route_steady route_quiet answered
  refine ⟨m, within, fun j earlier => ?_, fun j q later here waits => ?_, ?_⟩
  -- the process was alive when the turn began
  · refine (Desk.answered_cases (settled j earlier)).imp_right ?_
    rintro ⟨e, thrown⟩
    exact ⟨e, thrown, threw_now alive thrown⟩
  · refine waiting j q later here (Option.isSome_iff_exists.mpr ?_)
    rcases waits with reached | state
    · obtain ⟨⟨op, data, df⟩, reached⟩ := Option.isSome_iff_exists.mp reached
      exact ⟨_, Desk.callOf_some.mpr
        (route_called.mpr (serve_ok.mpr (.inl ⟨op, data, df, reached, rfl⟩)))⟩
    · exact ⟨_, Desk.callOf_some.mpr (route_called.mpr (serve_ok.mpr (.inr ⟨state, rfl⟩)))⟩
  · -- nothing that comes later, in this turn or after it, changes the answer
    obtain ⟨more, happened⟩ := events_turn alive (before ++ .request r :: after) later
    have whole : Server.after (done ++ (before ++ .request r :: after) :: later) =
        Evm.run (Desk.step Server.route) v (.request r :: (after ++ more)) := by
      rw [after_eq, happened, List.append_assoc, ← List.append_assoc, List.cons_append,
        Evm.run_append, ← events_part alive, ← after_eq]
    rw [whole]
    refine Desk.response_iff.mpr ((got (after ++ more)).trans ?_)
    rw [Desk.serveAlone_answered (serve_mayRead mayRead _)]
    rfl

/-- Who may read the outcome log gets, in whatever order things happen in the life of a process,
the newest records of the requests that are done by then: no record is lost, doubled or out of
order, and none is seen of a request that still waits. Those that are done have their responses, or
have thrown in the turn that is under way and with which the process ends. -/
theorem log_read (done : List Server.Turn) (alive : (Server.after done).ended = false)
    (before after : Server.Turn) (later : List Server.Turn) (r : IncomingMessage)
    (mayRead : r.MayRead) :
    let v := Server.after (done ++ [before])
    let rs := Server.taken (done ++ [before])
    ∃ m ≤ rs.length, (∀ j < m, (v.response j).isSome ∨
        ∃ e, v.answer j = some (.error e) ∧ (Server.after done).answer j = none) ∧
      (∀ j q, m ≤ j → rs[j]? = some q → (q.operation.isSome ∨ q.ReadsState) →
        v.answer j = none) ∧
      (Server.after (done ++ (before ++ .request r :: after) :: later)).response rs.length =
        some (eventsResponse (logView r (newest maxEntries (recorded (rs.take m))))) := by
  obtain ⟨m, within, settled, waiting, got⟩ := log_moment alive before after later mayRead
  rw [(summarizes _).outcomes] at got
  exact ⟨m, within, settled, waiting, got⟩

namespace Sample

/-- A server whose matches await twice, and that knows the agent by a token. -/
def engine : ServerHost :=
  { host with
    decodeSayGoodbye := fun _ => .error (text "no data")
    teeInternalToken := some (text "token")
    awaits := 2 }

def request (method url : String) (body : JsString) : IncomingMessage :=
  ⟨engine, text method, text url, some (text "Bearer token"), some (utf8Encode body)⟩

/-- An action for a handler, with a message in hex. -/
def action (opType opCommand : String) (msg : JsString) : IncomingMessage :=
  request "POST" "/action" (Json.stringify (.obj [(text "data", .obj [
    (text "id", .str (text "0x01")), (text "submissionTag", .str (text "submit")),
    (text "message", .str (payloadHex (.obj [(text "opType", .str (identifier (text opType))),
      (text "opCommand", .str (identifier (text opCommand))),
      (text "originalMessage", .str msg)])))])]))

def matchAction : IncomingMessage := action "MIRROR" "MATCH_V1" (purchaseSignal "1")

/-- A signal that is still under way. -/
def underWay : List Server.Turn := [[.request matchAction], [.advance 0]]

end Sample

/-- The log is asked for while a signal is under way. -/
theorem log_read_underWay : ∃ m ≤ 1,
    (Server.after (Sample.underWay ++
      [[.request (Sample.request "GET" "/internal/outcome-log" [])]])).response 1 =
        some (eventsResponse (logView (Sample.request "GET" "/internal/outcome-log" [])
          (newest maxEntries (recorded ([Sample.matchAction].take m))))) := by
  have alive : (Server.after Sample.underWay).ended = false := by decide +kernel
  have taken : Server.taken (Sample.underWay ++ [[]]) = [Sample.matchAction] := by
    rw [Server.taken, events_part alive, List.append_nil]
    exact taken_eq alive
  obtain ⟨m, within, -, -, got⟩ := log_read Sample.underWay alive [] [] []
    (Sample.request "GET" "/internal/outcome-log" []) ⟨by decide, rfl, by decide, rfl⟩
  rw [taken] at within got
  exact ⟨m, within, got⟩

end Mirror
