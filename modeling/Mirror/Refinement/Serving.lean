import Mirror.Engine.Server

/-! The server of the matching engine is the one that takes one request after the other. -/
namespace Mirror

open Evm hiding Byte
open Js Completion

/-- The request gets to read the outcome log. -/
structure IncomingMessage.MayRead (r : IncomingMessage) : Prop where
  path : cleanPath r.url = text "/internal/outcome-log"
  get : r.method = text "GET"
  token : unauthorized r = false
  arrives : r.body.isSome

theorem handleRequest_log (host : ServerHost) {path : JsString}
    (log : cleanPath path = text "/internal/outcome-log") (body : JsString) (s : Extension) :
    handleRequest host (text "GET") path body s =
      returning (processOutcomeLog host path s.outcomes) := by
  unfold handleRequest
  simp only [log]
  rfl

/-- Nothing else looks at the state before it is its turn. -/
theorem handleRequest_steady (host : ServerHost) {method path : JsString}
    (other : ¬(cleanPath path = text "/internal/outcome-log" ∧ method = text "GET"))
    (body : JsString) (s s' : Extension) :
    handleRequest host method path body s = handleRequest host method path body s' := by
  unfold handleRequest
  by_cases log : cleanPath path = text "/internal/outcome-log"
  · have method : method ≠ text "GET" := fun get => other ⟨log, get⟩
    simp only [log, method, ne_eq, not_false_eq_true, if_true]
  · simp only [log, if_false]

theorem serve_steady {r : IncomingMessage} (other : ¬r.MayRead) (s s' : Extension) :
    serve r s = serve r s' := by
  by_cases log : cleanPath r.url = text "/internal/outcome-log" ∧ r.method = text "GET"
  · unfold serve
    cases token : unauthorized r with
    | true => simp only [log.1, true_and, Completion.returnIf_bind, if_true]
    | false =>
      cases body : r.body with
      | none => rfl
      | some bytes => exact absurd ⟨log.1, log.2, token, by rw [body]; rfl⟩ other
  · simp only [serve, handleRequest_steady r.host log _ s s']

/-- A request for the log is answered at once. -/
theorem serve_log {r : IncomingMessage} (mayRead : r.MayRead) (s : Extension) :
    serve r s = returning (processOutcomeLog r.host r.url s.outcomes) := by
  obtain ⟨path, get, token, arrives⟩ := mayRead
  obtain ⟨body, here⟩ := Option.isSome_iff_exists.mp arrives
  have options : text "GET" ≠ text "OPTIONS" := by decide
  simp only [serve, path, get, token, here, options, and_false, if_false, Bool.false_eq_true,
    returnIf_bind, orReturn]
  exact handleRequest_log r.host path (utf8Decode body) s

theorem route_steady : Desk.Steady Server.route := by
  intro r s s' job called
  by_cases mayRead : r.MayRead
  · simp only [Server.route, serve_log mayRead s, returning] at called
    cases called
  · rw [Server.route, ← serve_steady mayRead s s']
    exact called

/-! ### Jobs change the state at their end -/

theorem withText_quiet {f : ServerHost → JsString → HandlerTask}
    (quiet : ∀ host msg, (f host msg).Quiet) (host : ServerHost) (msg : Json) :
    (withText f host msg).Quiet := by
  unfold withText
  split
  · exact quiet host _
  · trivial

theorem matchV1_quiet (host : ServerHost) (msg : JsString) : (matchV1 host msg).Quiet :=
  Task.delayed_quiet (Task.finish_quiet _) host.awaits

theorem handler_quiet (op : Operation) (host : ServerHost) (msg : Json) :
    (op.handler host msg).Quiet := by
  cases op with
  | handleSayHello => exact @withText_quiet handleSayHello (fun _ _ => Task.finish_quiet _) host msg
  | handleSayGoodbye =>
    exact @withText_quiet handleSayGoodbye (fun _ _ => Task.finish_quiet _) host msg
  | handleMirrorMatchStageB => exact withText_quiet matchV1_quiet host msg
  | handleMirrorTopUpV1 => exact @withText_quiet topUpV1 (fun _ _ => Task.finish_quiet _) host msg

/-! ### What a request may wait for -/

/-- The handler that an action reaches, with what it is about. -/
def actionOperation (host : ServerHost) (body : JsString) : Option (Operation × Json × Json) :=
  match readAction host body with
  | .ok (data, df) =>
    match lookupFixed host df with
    | .ok (some op) => some (op, data, df)
    | _ => none
  | .error _ => none

/-- The handler that a request reaches, with the data and the decoded message of its action. -/
def IncomingMessage.operation (r : IncomingMessage) : Option (Operation × Json × Json) :=
  if cleanPath r.url = text "/action" ∧ r.method = text "POST" then
    r.body.bind fun body => actionOperation r.host (utf8Decode body)
  else none

/-- The job that runs a handler and answers. -/
def operationJob (host : ServerHost) (op : Operation) (data df : Json) : Job :=
  (op.handler host (originalMessage df)).map (finishAction data df)

theorem operationJob_quiet (host : ServerHost) (op : Operation) (data df : Json) :
    (operationJob host op data df).Quiet :=
  Task.map_quiet _ (handler_quiet op host _)

theorem processAction_ok {host : ServerHost} {body : JsString} {job : Job} :
    processAction host body = .ok job ↔
      ∃ op data df, actionOperation host body = some (op, data, df) ∧
        job = operationJob host op data df := by
  unfold processAction actionOperation
  cases readAction host body with
  | error e => exact iff_of_false (fun h => nomatch h) (fun ⟨_, _, _, h, _⟩ => nomatch h)
  | ok pair =>
    obtain ⟨data, df⟩ := pair
    simp only [bind, Except.bind]
    cases lookupFixed host df with
    | error e => exact iff_of_false (fun h => nomatch h) (fun ⟨_, _, _, h, _⟩ => nomatch h)
    | ok found =>
      cases found with
      | none => exact iff_of_false (fun h => nomatch h) (fun ⟨_, _, _, h, _⟩ => nomatch h)
      | some op =>
        constructor
        · intro h
          exact ⟨op, data, df, rfl, (Except.ok.inj h).symm⟩
        · rintro ⟨op', data', df', same, rfl⟩
          cases same
          rfl

/-- The request is for the state. -/
def IncomingMessage.ReadsState (r : IncomingMessage) : Prop :=
  cleanPath r.url = text "/state" ∧ r.method = text "GET" ∧ r.body.isSome

theorem handleRequest_ok {host : ServerHost} {method path body : JsString} {s : Extension}
    {job : Job} : handleRequest host method path body s = .ok job ↔
      (cleanPath path = text "/action" ∧ method = text "POST" ∧ processAction host body = .ok job) ∨
      (cleanPath path = text "/state" ∧ method = text "GET" ∧ job = processState) := by
  have other : text "/state" ≠ text "/action" := by decide
  unfold handleRequest
  -- the paths are compared one after the other, and each of them allows one method
  by_cases health : cleanPath path = text "/health" ∨ cleanPath path = text "/"
  · have action : cleanPath path ≠ text "/action" := by
      rcases health with h | h <;> rw [h] <;> decide
    have state : cleanPath path ≠ text "/state" := by
      rcases health with h | h <;> rw [h] <;> decide
    simp only [health, if_true, action, state, false_and, or_self, iff_false]
    split <;> exact fun h => nomatch h
  · simp only [health, if_false]
    by_cases action : cleanPath path = text "/action"
    · simp only [action, if_true, true_and, other.symm, false_and, or_false]
      split
      next post => simp [post]
      next post => exact iff_of_false (fun h => nomatch h) fun h => post h.1
    · simp only [action, if_false, false_and, false_or]
      by_cases state : cleanPath path = text "/state"
      · simp only [state, if_true, true_and]
        split
        next get => simp [get, eq_comm]
        next get => exact iff_of_false (fun h => nomatch h) fun h => get h.1
      · simp only [state, if_false, false_and, iff_false]
        split
        · split <;> exact fun h => nomatch h
        · exact fun h => nomatch h

/-- What is queued: a snapshot of the state, or the handler of an action. -/
theorem serve_ok {r : IncomingMessage} {s : Extension} {job : Job} : serve r s = .ok job ↔
    (∃ op data df, r.operation = some (op, data, df) ∧ job = operationJob r.host op data df) ∨
    (r.ReadsState ∧ job = processState) := by
  have post : text "POST" ≠ text "OPTIONS" := by decide
  have get : text "GET" ≠ text "OPTIONS" := by decide
  have action : text "/action" ≠ text "/internal/outcome-log" := by decide
  have state : text "/state" ≠ text "/internal/outcome-log" := by decide
  unfold serve IncomingMessage.operation IncomingMessage.ReadsState
  rw [returnIf_bind]
  split
  next refused =>
    -- without the token, which only the log asks for
    have notAction : cleanPath r.url ≠ text "/action" := fun h => action (h.symm.trans refused.1)
    have notState : cleanPath r.url ≠ text "/state" := fun h => state (h.symm.trans refused.1)
    simp only [notAction, notState, false_and, if_false]
    exact iff_of_false (fun h => nomatch h) (by simp)
  next =>
    rw [returnIf_bind]
    split
    next options =>
      -- the preflight has no body that is looked at
      have notPost : r.method ≠ text "POST" := fun h => post (h.symm.trans options)
      have notGet : r.method ≠ text "GET" := fun h => get (h.symm.trans options)
      simp only [notPost, notGet, and_false, false_and, if_false]
      exact iff_of_false (fun h => nomatch h) (by simp)
    next =>
      cases r.body with
      | none => exact iff_of_false (fun h => nomatch h) (by simp)
      | some body =>
        rw [show orReturn (some body) (badRequest (text "failed to read body")) =
          (.ok body : Completion Thrown Response _) from rfl]
        simp only [bind, Except.bind, handleRequest_ok, processAction_ok, Option.bind_some,
          Option.isSome_some, and_true]
        by_cases toAction : cleanPath r.url = text "/action" ∧ r.method = text "POST"
        · simp [toAction, and_assoc]
        · rw [if_neg toAction]
          simp only [← and_assoc, toAction, false_and, false_or, reduceCtorEq, exists_false]

theorem serve_action {r : IncomingMessage} {body : List Byte}
    (path : cleanPath r.url = text "/action") (post : r.method = text "POST")
    (arrives : r.body = some body) (s : Extension) :
    serve r s = processAction r.host (utf8Decode body) := by
  have log : text "/action" ≠ text "/internal/outcome-log" := by decide
  have health : ¬(text "/action" = text "/health" ∨ text "/action" = text "/") := by decide
  have options : text "POST" ≠ text "OPTIONS" := by decide
  simp only [serve, path, post, arrives, log, options, false_and, if_false, returnIf_bind, orReturn]
  change handleRequest r.host (text "POST") r.url (utf8Decode body) s = _
  simp only [handleRequest, path, health, if_true, if_false]

theorem route_called {r : IncomingMessage} {s : Extension} {job : Job} :
    Server.route r s = .inr job ↔ serve r s = .ok job := by
  unfold Server.route
  split
  next here => rw [here]; exact ⟨fun h => by rw [Sum.inr.inj h], fun h => by rw [Except.ok.inj h]⟩
  next here => rw [here]; exact iff_of_false (fun h => nomatch h) (fun h => nomatch h)
  next here => rw [here]; exact iff_of_false (fun h => nomatch h) (fun h => nomatch h)

theorem route_quiet (r : IncomingMessage) (s : Extension) (job : Job)
    (called : Desk.callOf Server.route s r = some job) : job.Quiet := by
  rcases serve_ok.mp (route_called.mp (Desk.callOf_some.mp called)) with
    ⟨op, data, df, -, rfl⟩ | ⟨-, rfl⟩
  · exact operationJob_quiet r.host op data df
  · exact Task.finish_quiet _

/-! ### Runs -/

/-- The server after the turns that the process lives to take. -/
def Server.after (turns : List Server.Turn) : Server := Evm.run Server.step Server.start turns

/-- What has happened in these turns. -/
def Server.events (turns : List Server.Turn) : List (Desk.Event IncomingMessage) :=
  Process.events Server.route Server.start turns

/-- The requests that are taken in these turns. -/
def Server.taken (turns : List Server.Turn) : List IncomingMessage :=
  Desk.requests (Server.events turns)

/-- The server that takes one request after the other. -/
def serveAll (rs : List IncomingMessage) : List Answer × Extension :=
  Desk.serveAll Server.route .initial rs

theorem after_eq (turns : List Server.Turn) :
    Server.after turns = Evm.run (Desk.step Server.route) Server.start (Server.events turns) :=
  Process.run_eq Server.start turns

/-- While the process runs, every request is taken. -/
theorem taken_eq {turns : List Server.Turn} (alive : (Server.after turns).ended = false) :
    Server.taken turns = Desk.requests turns.flatten :=
  congrArg Desk.requests (Process.events_all alive)

theorem kept_run (turns : List Server.Turn) :
    Desk.Kept Server.route .initial (Server.taken turns) (Server.after turns) := by
  rw [after_eq]
  exact Desk.kept_run route_steady route_quiet (Desk.kept_start _) _

/-- An answer that does not look at the state is the same at any time. -/
theorem answer_eq {turns : List Server.Turn} {k : ℕ} {r : IncomingMessage}
    (here : (Server.taken turns)[k]? = some r) (other : ¬r.MayRead) {a : Answer}
    (got : (Server.after turns).answer k = some a) :
    (serveAll (Server.taken turns)).1[k]? = some a := by
  have kept := kept_run turns
  cases call : Desk.callOf Server.route .initial r with
  | some job =>
    -- a queued job runs on what the jobs before it have left
    exact kept.answer_called route_steady here (by rw [call]; rfl) got
  | none =>
    -- at once it is answered from the state of that moment, which makes no difference
    obtain ⟨m, -, read⟩ := kept.answer_read here call
    rw [read] at got
    have alone : ∀ s s', (Desk.serveAlone Server.route s r).1 =
        (Desk.serveAlone Server.route s' r).1 := by
      intro s s'
      obtain ⟨b, answered⟩ := Desk.callOf_none.mp call
      have same : ∀ s, Server.route r s = .inl b := fun s => by
        rw [Server.route, serve_steady other s .initial]
        exact answered
      rw [Desk.serveAlone_answered (same s), Desk.serveAlone_answered (same s')]
    rw [serveAll, Desk.serveAll_get _ _ _ here, alone _ (Desk.serveAll Server.route .initial
      ((Server.taken turns).take m)).2]
    exact got

/-- The answer is the one that the request has alone, after those before it. -/
theorem answer_alone {turns : List Server.Turn} {k : ℕ} {r : IncomingMessage}
    (here : (Server.taken turns)[k]? = some r) (other : ¬r.MayRead) {a : Answer}
    (got : (Server.after turns).answer k = some a) :
    a = (Desk.serveAlone Server.route (serveAll ((Server.taken turns).take k)).2 r).1 := by
  have turn := answer_eq here other got
  rw [serveAll, Desk.serveAll_get _ _ _ here] at turn
  exact (Option.some.inj turn).symm

/-! ### A turn under way -/

section

variable {done : List Server.Turn} (alive : (Server.after done).ended = false)

include alive

theorem events_turn (turn : Server.Turn) (later : List Server.Turn) :
    ∃ more, Server.events (done ++ turn :: later) = Server.events done ++ (turn ++ more) := by
  refine ⟨Process.events Server.route (Server.step (Server.after done) turn) later, ?_⟩
  rw [Server.events, Process.events_append]
  exact congrArg (Server.events done ++ ·) (Process.events_alive alive turn later)

/-- A part of a turn, as far as it goes. -/
theorem events_part (part : Server.Turn) :
    Server.events (done ++ [part]) = Server.events done ++ part := by
  rw [Server.events, Process.events_append]
  refine congrArg (Server.events done ++ ·) ((Process.events_alive alive part []).trans ?_)
  rw [Process.events, List.append_nil]

/-- Whoever has thrown by now has done so in this turn. -/
theorem threw_now {part : Server.Turn} {k : ℕ} {e : Thrown}
    (got : (Server.after (done ++ [part])).answer k = some (.error e)) :
    (Server.after done).answer k = none := by
  rw [Server.after, Evm.run_append] at got
  exact Process.threw_now alive part got

end

end Mirror
