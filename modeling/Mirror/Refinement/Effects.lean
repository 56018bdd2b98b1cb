import Mirror.Refinement.Serving

/-! What a request does to the state of the matching engine, and what a whole history does. -/
namespace Mirror

open Evm hiding Byte
open Js Completion

inductive Effect
  | nothing
  | greeting (name : JsString)
  | farewell (name reason : JsString)
  | outcome (record : OutcomeRecord)

def Effect.apply : Effect → Extension → Extension
  | nothing, s => s
  | greeting name, s =>
    { s with greetingCount := s.greetingCount.add (.ofRat 1), lastGreeting := greetingText name }
  | farewell name reason, s =>
    { s with
      farewellCount := s.farewellCount.add (.ofRat 1), lastFarewell := farewellText name reason }
  | outcome record, s => { s with outcomes := appendOutcome record s.outcomes }

/-- The effect of what is accepted. -/
def accepted {α : Type} (effect : α → Effect) : Body α → Effect
  | .ok a => effect a
  | .error _ => .nothing

def Operation.effect (op : Operation) (host : ServerHost) (msg : Json) : Effect :=
  match msg, op with
  | .str s, handleSayHello => accepted .greeting (readHello host.toHost s)
  | .str s, handleSayGoodbye => accepted (fun d => .farewell d.1 d.2) (readGoodbye host s)
  | .str s, handleMirrorMatchStageB =>
    accepted (fun a => .outcome a.outcome) (matchStageB host.toHost s)
  | _, _ => .nothing

def IncomingMessage.effect (r : IncomingMessage) : Effect :=
  match r.operation with
  | some (op, _, df) => op.effect r.host (originalMessage df)
  | none => .nothing

theorem accepted_eq {α : Type} {effect : α → Effect} {body : Body α} {e : Effect}
    (done : accepted effect body = e) (real : e ≠ .nothing) : ∃ a, body = .ok a ∧ effect a = e := by
  cases body with
  | ok a => exact ⟨a, rfl, done⟩
  | error error => exact absurd done.symm real

theorem effect_greeting {op : Operation} {host : ServerHost} {msg : Json} {name : JsString}
    (effect : op.effect host msg = .greeting name) :
    ∃ m, op = .handleSayHello ∧ msg = .str m ∧ readHello host.toHost m = .ok name := by
  cases msg with
  | str m =>
    cases op with
    | handleSayHello =>
      obtain ⟨name', read, same⟩ := accepted_eq effect (fun h => nomatch h)
      cases same
      exact ⟨m, rfl, rfl, read⟩
    | handleSayGoodbye | handleMirrorMatchStageB =>
      obtain ⟨_, -, absurd⟩ := accepted_eq effect (fun h => nomatch h)
      cases absurd
    | handleMirrorTopUpV1 => cases effect
  | null | bool | num | arr | obj => cases op <;> cases effect

theorem effect_farewell {op : Operation} {host : ServerHost} {msg : Json} {name reason : JsString}
    (effect : op.effect host msg = .farewell name reason) :
    ∃ m, op = .handleSayGoodbye ∧ msg = .str m ∧ readGoodbye host m = .ok (name, reason) := by
  cases msg with
  | str m =>
    cases op with
    | handleSayGoodbye =>
      obtain ⟨decoded, read, same⟩ := accepted_eq effect (fun h => nomatch h)
      cases same
      exact ⟨m, rfl, rfl, read⟩
    | handleSayHello | handleMirrorMatchStageB =>
      obtain ⟨_, -, absurd⟩ := accepted_eq effect (fun h => nomatch h)
      cases absurd
    | handleMirrorTopUpV1 => cases effect
  | null | bool | num | arr | obj => cases op <;> cases effect

theorem effect_outcome {op : Operation} {host : ServerHost} {msg : Json} {record : OutcomeRecord}
    (effect : op.effect host msg = .outcome record) :
    ∃ m a, matchStageB host.toHost m = .ok a ∧ a.outcome = record := by
  cases msg with
  | str m =>
    cases op with
    | handleMirrorMatchStageB =>
      obtain ⟨a, accepts, same⟩ := accepted_eq effect (fun h => nomatch h)
      exact ⟨m, a, accepts, Effect.outcome.inj same⟩
    | handleSayHello | handleSayGoodbye =>
      obtain ⟨_, -, absurd⟩ := accepted_eq effect (fun h => nomatch h)
      cases absurd
    | handleMirrorTopUpV1 => cases effect
  | null | bool | num | arr | obj => cases op <;> cases effect

/-- A signal is recorded or refused. -/
theorem effect_match (host : ServerHost) (msg : Json) :
    Operation.handleMirrorMatchStageB.effect host msg = .nothing ∨
      ∃ record, Operation.handleMirrorMatchStageB.effect host msg = .outcome record := by
  cases msg with
  | str m =>
    simp only [Operation.effect]
    cases matchStageB host.toHost m with
    | ok a => exact .inr ⟨a.outcome, rfl⟩
    | error e => exact .inl rfl
  | null | bool | num | arr | obj => exact .inl rfl

theorem handler_effect (op : Operation) (host : ServerHost) (msg : Json) (s : Extension) :
    ((op.handler host msg).run s).2 = (op.effect host msg).apply s := by
  cases msg with
  | str m =>
    cases op with
    | handleSayHello =>
      simp only [Operation.handler, withText, handleSayHello, Task.run, Operation.effect]
      cases readHello host.toHost m with
      | ok name => rfl
      | error e => cases e <;> rfl
    | handleSayGoodbye =>
      simp only [Operation.handler, withText, handleSayGoodbye, Task.run, Operation.effect]
      cases readGoodbye host m with
      | ok decoded => rfl
      | error e => cases e <;> rfl
    | handleMirrorMatchStageB =>
      simp only [Operation.handler, withText, matchV1, Task.delayed_run, Task.run,
        handleMirrorMatchStageB, Operation.effect]
      cases matchStageB host.toHost m <;> rfl
    | handleMirrorTopUpV1 => rfl
  | null | bool | num | arr | obj => cases op <;> rfl

/-! ### One request -/

theorem serveAlone_operation {r : IncomingMessage} {op : Operation} {data df : Json}
    (reached : r.operation = some (op, data, df)) (s : Extension) :
    Desk.serveAlone Server.route s r =
      (finishAction data df ((op.handler r.host (originalMessage df)).run s).1,
        r.effect.apply s) := by
  have job : serve r s = .ok (operationJob r.host op data df) :=
    serve_ok.mpr (.inl ⟨op, data, df, reached, rfl⟩)
  rw [Desk.serveAlone_called (route_called.mpr job), operationJob, Task.map_run,
    handler_effect]
  simp only [IncomingMessage.effect, reached]

theorem serveAlone_state {r : IncomingMessage} (reads : r.ReadsState) (s : Extension) :
    Desk.serveAlone Server.route s r = (.ok ⟨200, .json (stateResponse s)⟩, s) := by
  have job : serve r s = .ok processState := serve_ok.mpr (.inr ⟨reads, rfl⟩)
  rw [Desk.serveAlone_called (route_called.mpr job)]
  rfl

theorem serveAlone_effect (r : IncomingMessage) (s : Extension) :
    (Desk.serveAlone Server.route s r).2 = r.effect.apply s := by
  cases reached : r.operation with
  | some found =>
    obtain ⟨op, data, df⟩ := found
    rw [serveAlone_operation reached]
  -- a request without a handler is answered at once or reads the state
  | none =>
    have quiet : r.effect = .nothing := by simp only [IncomingMessage.effect, reached]
    rw [quiet]
    cases call : Desk.callOf Server.route s r with
    | none =>
      obtain ⟨a, answered⟩ := Desk.callOf_none.mp call
      rw [Desk.serveAlone_answered answered]
      rfl
    | some job =>
      rcases serve_ok.mp (route_called.mp (Desk.callOf_some.mp call)) with
        ⟨op, data, df, found, -⟩ | ⟨reads, -⟩
      · rw [reached] at found
        cases found
      · rw [serveAlone_state reads]
        rfl

/-! ### A history -/

theorem serveAll_concat (rs : List IncomingMessage) (r : IncomingMessage) :
    (serveAll (rs ++ [r])).2 = r.effect.apply (serveAll rs).2 := by
  rw [serveAll, Desk.serveAll_append]
  exact serveAlone_effect r _

@[simp] def Effect.recorded : Effect → Option OutcomeRecord
  | outcome record => some record
  | _ => none

@[simp] def Effect.greeted : Effect → Option JsString
  | greeting name => some name
  | _ => none

@[simp] def Effect.dismissed : Effect → Option (JsString × JsString)
  | farewell name reason => some (name, reason)
  | _ => none

/-- What requests have recorded, oldest first. -/
def recorded (rs : List IncomingMessage) : List OutcomeRecord :=
  rs.filterMap fun r => r.effect.recorded

def greeted (rs : List IncomingMessage) : List JsString := rs.filterMap fun r => r.effect.greeted

def dismissed (rs : List IncomingMessage) : List (JsString × JsString) :=
  rs.filterMap fun r => r.effect.dismissed

/-- The last entries, as many as there is room for. -/
def newest {α : Type} (room : ℕ) (records : List α) : List α :=
  records.drop (records.length - room)

theorem newest_concat {α : Type} (room : ℕ) (record : α) (records : List α) :
    newest room (newest room records ++ [record]) = newest room (records ++ [record]) := by
  simp only [newest, List.length_append, List.length_drop, List.length_singleton]
  rw [← List.drop_append_of_le_length (Nat.sub_le _ _), List.drop_drop]
  -- what is dropped in two steps is dropped in one
  congr 1
  omega

/-- A counter of things that were done and the text of the last of them. -/
structure Counts {α : Type} (done : List α) (said : α → JsString) (count : Number)
    (last : JsString) : Prop where
  count : done.length ≤ 2 ^ 53 → count = .ofRat done.length
  last : last = (done.getLast?.map said).getD []

/-- Counting is exact up to `2^53`. -/
theorem ofRat_add_one {n : ℕ} (small : n + 1 ≤ 2 ^ 53) :
    (Number.ofRat n).add (.ofRat 1) = .ofRat (n + 1 : ℕ) := by
  have count : Number.ofRat ((n : ℤ) : ℚ) = .ofInt n (by rw [abs_of_nonneg] <;> omega) :=
    Number.ofRat_intCast _
  have one : Number.ofRat ((1 : ℤ) : ℚ) = .ofInt 1 (by decide) := Number.ofRat_intCast _
  rw [Int.cast_natCast] at count
  rw [Int.cast_one] at one
  rw [count, one, Nat.cast_add, Nat.cast_one]
  rfl

theorem Counts.concat {α : Type} {done : List α} {said : α → JsString} {count : Number}
    {last : JsString} (counts : Counts done said count last) (a : α) :
    Counts (done ++ [a]) said (count.add (.ofRat 1)) (said a) where
  count few := by
    rw [List.length_append, List.length_singleton] at few ⊢
    rw [counts.count (by omega), ofRat_add_one few]
  last := by rw [List.getLast?_concat, Option.map_some, Option.getD_some]

/-- The state that a history leaves is a summary of it. -/
structure Summarizes (rs : List IncomingMessage) (s : Extension) : Prop where
  greetings : Counts (greeted rs) greetingText s.greetingCount s.lastGreeting
  farewells : Counts (dismissed rs) (fun d => farewellText d.1 d.2) s.farewellCount s.lastFarewell
  outcomes : s.outcomes = newest maxEntries (recorded rs)

theorem appendOutcome_eq (record : OutcomeRecord) (log : List OutcomeRecord) :
    appendOutcome record log = newest maxEntries (log ++ [record]) := rfl

theorem filterMap_concat {α β : Type} (f : α → Option β) (as : List α) (a : α) :
    (as ++ [a]).filterMap f = as.filterMap f ++ (f a).toList := by
  rw [List.filterMap_append]
  cases here : f a with
  | none => rw [List.filterMap_cons_none here]; rfl
  | some b => rw [List.filterMap_cons_some here]; rfl

theorem Summarizes.concat {rs : List IncomingMessage} {s : Extension} (summarizes : Summarizes rs s)
    (r : IncomingMessage) : Summarizes (rs ++ [r]) (r.effect.apply s) := by
  have greetings : greeted (rs ++ [r]) = greeted rs ++ r.effect.greeted.toList :=
    filterMap_concat _ rs r
  have farewells : dismissed (rs ++ [r]) = dismissed rs ++ r.effect.dismissed.toList :=
    filterMap_concat _ rs r
  have outcomes : recorded (rs ++ [r]) = recorded rs ++ r.effect.recorded.toList :=
    filterMap_concat _ rs r
  cases effect : r.effect <;>
    simp only [effect, Effect.greeted, Effect.dismissed, Effect.recorded, Option.toList_none,
      Option.toList_some, List.append_nil] at greetings farewells outcomes <;>
    simp only [Effect.apply]
  case nothing =>
    exact ⟨greetings ▸ summarizes.greetings, farewells ▸ summarizes.farewells,
      outcomes ▸ summarizes.outcomes⟩
  case greeting name =>
    exact ⟨greetings ▸ summarizes.greetings.concat name, farewells ▸ summarizes.farewells,
      outcomes ▸ summarizes.outcomes⟩
  case farewell name reason =>
    exact ⟨greetings ▸ summarizes.greetings,
      farewells ▸ summarizes.farewells.concat (name, reason), outcomes ▸ summarizes.outcomes⟩
  -- the oldest entry goes where the log is full
  case outcome record =>
    refine ⟨greetings ▸ summarizes.greetings, farewells ▸ summarizes.farewells, ?_⟩
    rw [outcomes, appendOutcome_eq, summarizes.outcomes, newest_concat]

theorem summarizes (rs : List IncomingMessage) : Summarizes rs (serveAll rs).2 := by
  -- over the history, the latest request last
  induction rs using List.reverseRecOn with
  | nil => exact ⟨⟨fun _ => rfl, rfl⟩, ⟨fun _ => rfl, rfl⟩, rfl⟩
  | append_singleton rs r ih =>
    rw [serveAll_concat]
    exact ih.concat r

end Mirror
