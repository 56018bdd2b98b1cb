import Mirror.Properties.ServingOrder

/-! Who may not read the outcome log learns nothing of the signals of others. -/
namespace Mirror

open Evm hiding Byte
open Js

/-- The request reaches the handler that records outcomes. -/
def IncomingMessage.isMatch (r : IncomingMessage) : Bool :=
  r.operation.any fun found => found.1 = .handleMirrorMatchStageB

/-- The state without the outcome log. -/
def Extension.withoutLog (s : Extension) : Extension := { s with outcomes := [] }

theorem withoutLog_log (s : Extension) (log : List OutcomeRecord) :
    Extension.withoutLog { s with outcomes := log } = s.withoutLog := rfl

theorem handler_withoutLog {op : Operation} (other : op ≠ .handleMirrorMatchStageB)
    (host : ServerHost) (msg : Json) (s : Extension) :
    ((op.handler host msg).run s).1 = ((op.handler host msg).run s.withoutLog).1 := by
  cases msg with
  | str m =>
    cases op with
    | handleSayHello =>
      simp only [Operation.handler, withText, handleSayHello, Task.run]
      cases readHello host.toHost m with
      | ok name => rfl
      | error e => cases e <;> rfl
    | handleSayGoodbye =>
      simp only [Operation.handler, withText, handleSayGoodbye, Task.run]
      cases readGoodbye host m with
      | ok decoded => rfl
      | error e => cases e <;> rfl
    | handleMirrorMatchStageB => exact absurd rfl other
    | handleMirrorTopUpV1 => rfl
  | null | bool | num | arr | obj => cases op <;> rfl

/-- Nobody else's answer depends on the log. -/
theorem serveAlone_withoutLog {r : IncomingMessage} (other : r.isMatch = false)
    (unread : ¬r.MayRead) (s : Extension) : (Desk.serveAlone Server.route s r).1 =
      (Desk.serveAlone Server.route s.withoutLog r).1 := by
  cases call : Desk.callOf Server.route s r with
  | none =>
    obtain ⟨a, answered⟩ := Desk.callOf_none.mp call
    have same : Server.route r s.withoutLog = .inl a := by
      rw [Server.route, serve_steady unread s.withoutLog s]
      exact answered
    rw [Desk.serveAlone_answered answered, Desk.serveAlone_answered same]
  | some job =>
    rcases serve_ok.mp (route_called.mp (Desk.callOf_some.mp call)) with
      ⟨op, data, df, reached, -⟩ | ⟨reads, -⟩
    · have different : op ≠ .handleMirrorMatchStageB := by
        simpa [IncomingMessage.isMatch, reached] using other
      rw [serveAlone_operation reached, serveAlone_operation reached,
        handler_withoutLog different]
    · rw [serveAlone_state reads, serveAlone_state reads]
      rfl

theorem apply_withoutLog (e : Effect) (s : Extension) :
    (e.apply s).withoutLog = (e.apply s.withoutLog).withoutLog := by
  cases e with
  | outcome record =>
    have recorded : ∀ s, ((Effect.outcome record).apply s).withoutLog = s.withoutLog := fun s =>
      withoutLog_log s _
    rw [recorded, recorded]
    exact (withoutLog_log s []).symm
  | nothing | greeting | farewell => rfl

/-- A signal changes nothing but the log. -/
theorem apply_match {r : IncomingMessage} (isMatch : r.isMatch = true) (s : Extension) :
    (r.effect.apply s).withoutLog = s.withoutLog := by
  have kind : r.effect = .nothing ∨ ∃ record, r.effect = .outcome record := by
    cases reached : r.operation with
    | none => exact .inl (by rw [IncomingMessage.effect, reached])
    | some found =>
      obtain ⟨op, data, df⟩ := found
      have same : op = .handleMirrorMatchStageB := by
        simpa [IncomingMessage.isMatch, reached] using isMatch
      rw [IncomingMessage.effect, reached, same]
      exact effect_match r.host (originalMessage df)
  rcases kind with effect | ⟨record, effect⟩ <;> rw [effect]
  · rfl
  · rw [Effect.apply, withoutLog_log]

/-- The requests that are no signals. -/
def visible (rs : List IncomingMessage) : List IncomingMessage := rs.filter fun r => !r.isMatch

/-- What the signals leave is what there is without them, but for the log. -/
theorem serveAll_visible (rs : List IncomingMessage) :
    (serveAll rs).2.withoutLog = (serveAll (visible rs)).2.withoutLog := by
  induction rs using List.reverseRecOn with
  | nil => rfl
  | append_singleton rs r ih =>
    rw [serveAll_concat, visible, List.filter_append]
    cases isMatch : r.isMatch with
    | true =>
      rw [apply_match isMatch, ih, List.filter_singleton, isMatch]
      simp [visible]
    | false =>
      rw [List.filter_singleton, isMatch]
      simp only [Bool.not_false, cond_true]
      rw [serveAll_concat, apply_withoutLog, ih, ← apply_withoutLog]
      rfl

/-- The place of an element among those that stay. -/
theorem filter_split {α : Type} {p : α → Bool} {as : List α} {k : ℕ} {a : α}
    (here : as[k]? = some a) (stays : p a = true) :
    as.filter p = (as.take k).filter p ++ a :: (as.drop (k + 1)).filter p := by
  obtain ⟨inside, rfl⟩ := List.getElem?_eq_some_iff.mp here
  rw [← List.filter_cons_of_pos stays, ← List.filter_append, List.getElem_cons_drop,
    List.take_append_drop]

section

variable {turns turns' : List Server.Turn} {k k' : ℕ} {r r' : IncomingMessage}

/-- In histories that differ in their signals only, what becomes of the same request, if anything
has by now, is the same. -/
theorem answer_visible (same : visible (Server.taken turns) = visible (Server.taken turns'))
    (here : (Server.taken turns)[k]? = some r) (there : (Server.taken turns')[k']? = some r')
    (shown : r.isMatch = false) (shown' : r'.isMatch = false) (unread : ¬r.MayRead)
    (place : (visible ((Server.taken turns).take k)).length =
      (visible ((Server.taken turns').take k')).length) {a a' : Answer}
    (got : (Server.after turns).answer k = some a)
    (got' : (Server.after turns').answer k' = some a') : a = a' := by
  have split := filter_split (p := fun r => !r.isMatch) here (by rw [shown]; rfl)
  have split' := filter_split (p := fun r => !r.isMatch) there (by rw [shown']; rfl)
  obtain ⟨before, after⟩ := List.append_inj (split.symm.trans (same.trans split')) place
  obtain ⟨rfl, -⟩ := List.cons.inj after
  have states : (serveAll ((Server.taken turns).take k)).2.withoutLog =
      (serveAll ((Server.taken turns').take k')).2.withoutLog := by
    rw [serveAll_visible, serveAll_visible ((Server.taken turns').take k')]
    exact congrArg (fun qs => (serveAll qs).2.withoutLog) before
  rw [answer_alone here unread got, answer_alone there unread got',
    serveAlone_withoutLog shown unread,
    serveAlone_withoutLog shown unread (serveAll ((Server.taken turns').take k')).2]
  exact congrArg (fun s => (Desk.serveAlone Server.route s r).1) states

end

/-- Histories that differ in their signals only, in whatever order things happen: what becomes of
the request of somebody who may not read the log, the signals themselves apart, does not differ,
and where no request throws, both histories go on to the same response. -/
theorem answers_without_signals (turns turns' : List Server.Turn) :
    let rs := Server.taken turns
    let rs' := Server.taken turns'
    visible rs = visible rs' → ∀ k k' r r', rs[k]? = some r → rs'[k']? = some r' →
      r.isMatch = false → r'.isMatch = false → ¬r.MayRead →
      (visible (rs.take k)).length = (visible (rs'.take k')).length →
      (∀ a a', (Server.after turns).answer k = some a → (Server.after turns').answer k' = some a' →
        a = a') ∧
      (¬Throws rs → ¬Throws rs' → ∃ (jobs jobs' : List ℕ) (a : Response),
        (Server.after (turns ++ jobs.map fun job => [.advance job])).response k = some a ∧
        (Server.after (turns' ++ jobs'.map fun job => [.advance job])).response k' = some a) := by
  intro rs rs' same k k' r r' here there shown shown' unread place
  refine ⟨fun a a' => answer_visible same here there shown shown' unread place, ?_⟩
  intro quiet quiet'
  obtain ⟨jobs, finished⟩ := completes turns
  obtain ⟨jobs', finished'⟩ := completes turns'
  obtain ⟨-, answered⟩ := finished.resolve_left fun ends => quiet ends.1
  obtain ⟨-, answered'⟩ := finished'.resolve_left fun ends => quiet' ends.1
  obtain ⟨a, got⟩ := Option.isSome_iff_exists.mp
    (answered k (List.getElem?_eq_some_iff.mp here).1)
  obtain ⟨a', got'⟩ := Option.isSome_iff_exists.mp
    (answered' k' (List.getElem?_eq_some_iff.mp there).1)
  -- the turns that follow take no further requests
  have more := taken_advance turns jobs
  have more' := taken_advance turns' jobs'
  have alike : (.ok a : Answer) = .ok a' :=
    answer_visible (by rw [more, more']; exact same) (by rw [more]; exact here)
      (by rw [more']; exact there) shown shown' unread (by rw [more, more']; exact place)
      (Desk.response_iff.mp got) (Desk.response_iff.mp got')
  rw [← Except.ok.inj alike] at got'
  exact ⟨jobs, jobs', a, got, got'⟩

namespace Sample

/-- A signal without a message, which is refused. -/
def signal : IncomingMessage := action "MIRROR" "MATCH_V1" (text "0x")

def stateRequest : IncomingMessage := request "GET" "/state" []

/-- The state is asked for after the signal. -/
def signalled : List Server.Turn := [[.request signal], [.request stateRequest]]

def unsignalled : List Server.Turn := [[.request stateRequest]]

end Sample

/-- The state is the same with a signal before it and without. -/
theorem answers_without_signals_state : ∃ (jobs jobs' : List ℕ) (a : Response),
    (Server.after (Sample.signalled ++ jobs.map fun job => [.advance job])).response 1 = some a ∧
    (Server.after (Sample.unsignalled ++ jobs'.map fun job => [.advance job])).response 0 =
      some a := by
  have isMatch : Sample.signal.isMatch = true := by decide +kernel
  have other : Sample.stateRequest.isMatch = false := by decide +kernel
  have taken : Server.taken Sample.signalled = [Sample.signal, Sample.stateRequest] :=
    taken_eq (by decide +kernel)
  have taken' : Server.taken Sample.unsignalled = [Sample.stateRequest] :=
    taken_eq (by decide +kernel)
  have hidden : visible [Sample.signal, Sample.stateRequest] = [Sample.stateRequest] := by
    simp only [visible, List.filter_cons, List.filter_nil, isMatch, other, Bool.not_true,
      Bool.not_false, Bool.false_eq_true, if_false, if_true]
  have same :
      visible (Server.taken Sample.signalled) = visible (Server.taken Sample.unsignalled) := by
    rw [taken, taken', hidden]
    simp only [visible, List.filter_cons, List.filter_nil, other, Bool.not_false, if_true]
  have first : (visible ((Server.taken Sample.signalled).take 1)).length =
      (visible ((Server.taken Sample.unsignalled).take 0)).length := by
    rw [taken, taken']
    simp only [visible, List.take_succ_cons, List.take_zero, List.filter_cons, List.filter_nil,
      isMatch, Bool.not_true, Bool.false_eq_true, if_false]
  -- neither request throws: the signal is refused, and the state is shown
  have quiet : ¬Throws (Server.taken Sample.signalled) := by
    rw [← taken_advance Sample.signalled [0, 0, 0, 1]]
    refine not_throws fun k inside => ?_
    rw [taken_advance, taken] at inside
    revert k
    decide +kernel
  have quiet' : ¬Throws (Server.taken Sample.unsignalled) := by
    rw [← taken_advance Sample.unsignalled [0]]
    refine not_throws fun k inside => ?_
    rw [taken_advance, taken'] at inside
    revert k
    decide +kernel
  refine (answers_without_signals Sample.signalled Sample.unsignalled same 1 0
    Sample.stateRequest Sample.stateRequest ?_ ?_ other other
    (fun log => absurd log.path (by decide)) first).2 quiet quiet'
  · rw [taken]
    rfl
  · rw [taken']
    rfl

end Mirror
