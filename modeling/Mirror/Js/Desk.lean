import Mirror.Js.Gate

/-!
A server before a gate. A request is answered at once, from what is shared at that moment, or it
makes a call and waits for the result.
-/
namespace Js

inductive Entry (ρ : Type)
  | answered (a : ρ)
  | waiting (call : ℕ)

/-- The gate, and the requests in the order in which they are taken. -/
structure Desk (σ ρ : Type) where
  gate : Gate σ ρ
  entries : List (Entry ρ)

namespace Desk

/-- What can happen: a request is taken, or a call goes on. -/
inductive Event (α : Type)
  | request (r : α)
  | advance (call : ℕ)

variable {α σ ρ : Type}

def start (s : σ) : Desk σ ρ := ⟨.start s, []⟩

def step (route : α → σ → ρ ⊕ Task σ ρ) (d : Desk σ ρ) : Event α → Desk σ ρ
  | .request r =>
    match route r d.gate.shared with
    | .inl a => { d with entries := d.entries ++ [.answered a] }
    | .inr fn => ⟨d.gate.step (.serialize fn), d.entries ++ [.waiting d.gate.calls.length]⟩
  | .advance call => { d with gate := d.gate.step (.advance call) }

/-- What a caller has, once it has it. -/
def answerOf (g : Gate σ ρ) : Entry ρ → Option ρ
  | .answered a => some a
  | .waiting call =>
    match g.calls[call]? with
    | some (.settled a) => some a
    | _ => none

/-- The answer to the request with this number, once there is one. -/
def answer (d : Desk σ ρ) (k : ℕ) : Option ρ := d.entries[k]?.bind (answerOf d.gate)

/-- The requests that the events are about. -/
def requests : List (Event α) → List α
  | [] => []
  | .request r :: events => r :: requests events
  | .advance _ :: events => requests events

theorem requests_append (before after : List (Event α)) :
    requests (before ++ after) = requests before ++ requests after := by
  induction before with
  | nil => rfl
  | cons event before ih =>
    cases event with
    | request r => rw [List.cons_append, requests, requests, ih, List.cons_append]
    | advance call => exact ih

/-! ### One request at a time -/

/-- A request with nobody else there. -/
def serveAlone (route : α → σ → ρ ⊕ Task σ ρ) (s : σ) (r : α) : ρ × σ :=
  match route r s with
  | .inl a => (a, s)
  | .inr fn => fn.run s

/-- The requests one after the other. -/
def serveAll (route : α → σ → ρ ⊕ Task σ ρ) : σ → List α → List ρ × σ
  | s, [] => ([], s)
  | s, r :: rs =>
    let here := serveAlone route s r
    let later := serveAll route here.2 rs
    (here.1 :: later.1, later.2)

section

variable (route : α → σ → ρ ⊕ Task σ ρ)

theorem serveAll_append (s : σ) (rs qs : List α) :
    serveAll route s (rs ++ qs) = ((serveAll route s rs).1 ++
      (serveAll route (serveAll route s rs).2 qs).1,
      (serveAll route (serveAll route s rs).2 qs).2) := by
  induction rs generalizing s with
  | nil => rfl
  | cons r rs ih => simp only [List.cons_append, serveAll, ih]

theorem serveAll_length (s : σ) (rs : List α) : (serveAll route s rs).1.length = rs.length := by
  induction rs generalizing s with
  | nil => rfl
  | cons r rs ih => simp only [serveAll, List.length_cons, ih]

/-- Every answer is one that its request has alone, in the state that those before it leave. -/
theorem serveAll_get (s : σ) (rs : List α) {k : ℕ} {r : α} (here : rs[k]? = some r) :
    (serveAll route s rs).1[k]? =
      some (serveAlone route (serveAll route s (rs.take k)).2 r).1 := by
  induction rs generalizing s k with
  | nil => cases here
  | cons q rs ih =>
    cases k with
    | zero =>
      cases here
      rfl
    | succ k => exact ih (serveAlone route s q).2 here

end

/-- Whether a request waits, and for what, is its own matter. -/
def Steady (route : α → σ → ρ ⊕ Task σ ρ) : Prop :=
  ∀ r s s' fn, route r s = .inr fn → route r s' = .inr fn

/-! ### The calls that are made -/

/-- The call that a request makes. The state does not matter where the routes are steady. -/
def callOf (route : α → σ → ρ ⊕ Task σ ρ) (s : σ) (r : α) : Option (Task σ ρ) :=
  (route r s).getRight?

def calls (route : α → σ → ρ ⊕ Task σ ρ) (s : σ) (rs : List α) : List (Task σ ρ) :=
  rs.filterMap (callOf route s)

section

variable {route : α → σ → ρ ⊕ Task σ ρ}

theorem callOf_some {s : σ} {r : α} {fn : Task σ ρ} :
    callOf route s r = some fn ↔ route r s = .inr fn := by
  rw [callOf, Sum.getRight?_eq_some_iff]

theorem callOf_none {s : σ} {r : α} : callOf route s r = none ↔ ∃ a, route r s = .inl a := by
  rw [callOf, Sum.getRight?_eq_none_iff, Sum.isLeft_iff]

theorem callOf_steady (steady : Steady route) (s s' : σ) : callOf route s = callOf route s' := by
  funext r
  cases here : callOf route s r with
  | some fn => rw [callOf_some.mpr (steady r s s' fn (callOf_some.mp here))]
  | none =>
    cases there : callOf route s' r with
    | none => rfl
    | some fn =>
      rw [callOf_some.mpr (steady r s' s fn (callOf_some.mp there))] at here
      cases here

theorem calls_append (s : σ) (rs qs : List α) :
    calls route s (rs ++ qs) = calls route s rs ++ calls route s qs :=
  List.filterMap_append

theorem calls_cons_none {s : σ} {r : α} (here : callOf route s r = none) (rs : List α) :
    calls route s (r :: rs) = calls route s rs := List.filterMap_cons_none here

theorem calls_cons_some {s : σ} {r : α} {fn : Task σ ρ} (here : callOf route s r = some fn)
    (rs : List α) : calls route s (r :: rs) = fn :: calls route s rs :=
  List.filterMap_cons_some here

theorem calls_steady (steady : Steady route) (s s' : σ) (rs : List α) :
    calls route s rs = calls route s' rs := by
  rw [calls, calls, callOf_steady steady s s']

theorem serveAlone_answered {s : σ} {r : α} {a : ρ} (here : route r s = .inl a) :
    serveAlone route s r = (a, s) := by
  rw [serveAlone, here]

theorem serveAlone_called {s : σ} {r : α} {fn : Task σ ρ} (here : route r s = .inr fn) :
    serveAlone route s r = fn.run s := by
  rw [serveAlone, here]

/-- The call of one request stands between those of the requests before and after it. -/
theorem calls_split {s : σ} {rs : List α} {k : ℕ} {r : α} {fn : Task σ ρ} (here : rs[k]? = some r)
    (call : callOf route s r = some fn) :
    calls route s rs = calls route s (rs.take k) ++ fn :: calls route s (rs.drop (k + 1)) := by
  obtain ⟨inside, rfl⟩ := List.getElem?_eq_some_iff.mp here
  rw [← calls_cons_some call, ← calls_append, List.getElem_cons_drop, List.take_append_drop]

/-- Only the calls change what is shared. -/
theorem serveAll_shared (steady : Steady route) (s : σ) (rs : List α) :
    (serveAll route s rs).2 = (Gate.replay s (calls route s rs)).2 := by
  induction rs generalizing s with
  | nil => rfl
  | cons r rs ih =>
    cases here : callOf route s r with
    | none =>
      obtain ⟨a, answered⟩ := callOf_none.mp here
      rw [calls_cons_none here, serveAll, serveAlone_answered answered, ih]
    | some fn =>
      rw [calls_cons_some here, serveAll, serveAlone_called (callOf_some.mp here), ih,
        calls_steady steady _ s]
      rfl

/-- The answers of those who wait are the results of their calls. -/
theorem serveAll_called (steady : Steady route) (s : σ) (rs : List α) {k : ℕ} {r : α}
    {fn : Task σ ρ} (here : rs[k]? = some r) (call : callOf route s r = some fn) :
    (serveAll route s rs).1[k]? =
      (Gate.replay s (calls route s rs)).1[(calls route s (rs.take k)).length]? := by
  have alone : callOf route (serveAll route s (rs.take k)).2 r = some fn := by
    rw [callOf_steady steady _ s, call]
  rw [serveAll_get route s rs here, serveAlone_called (callOf_some.mp alone),
    serveAll_shared steady, calls_split here call, Gate.replay_append,
    List.getElem?_append_right (Gate.replay_length _ _).le, Gate.replay_length, Nat.sub_self]
  rfl

/-! ### Every order of events -/

/-- Every entry is what its request has made of it: a call of its own, or an answer that it has
after some of the requests before it. -/
structure Kept (route : α → σ → ρ ⊕ Task σ ρ) (s : σ) (rs : List α) (d : Desk σ ρ) : Prop where
  serial : Gate.Serial s (calls route s rs) d.gate
  length : d.entries.length = rs.length
  called : ∀ {k : ℕ} {r : α} {fn : Task σ ρ}, rs[k]? = some r → callOf route s r = some fn →
    d.entries[k]? = some (Entry.waiting (calls route s (rs.take k)).length)
  answered : ∀ {k : ℕ} {r : α}, rs[k]? = some r → callOf route s r = none → ∃ m ≤ k,
    d.entries[k]? = some (Entry.answered (serveAlone route (serveAll route s (rs.take m)).2 r).1)

theorem kept_start (s : σ) : Kept route s ([] : List α) (start s) where
  serial := Gate.serial_start s
  length := rfl
  called here _ := by cases here
  answered here _ := by cases here

/-- Calls are settled or not in the order of the requests: what is shared is as some of the
requests leave it, all of those are answered, and nobody who waits after them is. -/
theorem Kept.moment (steady : Steady route)
    (quiet : ∀ r s fn, callOf route s r = some fn → fn.Quiet) {s : σ} {rs : List α} {d : Desk σ ρ}
    (kept : Kept route s rs d) : ∃ m ≤ rs.length,
      d.gate.shared = (serveAll route s (rs.take m)).2 ∧ (∀ j < m, (d.answer j).isSome) ∧
      ∀ j r, m ≤ j → rs[j]? = some r → (callOf route s r).isSome → d.answer j = none := by
  have quietly : ∀ t ∈ calls route s rs, t.Quiet := by
    intro t member
    obtain ⟨r, -, call⟩ := List.mem_filterMap.mp member
    exact quiet r s t call
  obtain ⟨done, todo, split, shared, settled⟩ := kept.serial.shared_eq quietly
  obtain ⟨before, after, rfl, rfl, rfl⟩ := List.filterMap_eq_append_iff.mp split
  refine ⟨before.length, ?_, ?_, ?_, ?_⟩
  · rw [List.length_append]
    exact Nat.le_add_right _ _
  · rw [List.take_left, serveAll_shared steady, shared]
    rfl
  · intro j earlier
    have here : (before ++ after)[j]? = some before[j] := by
      rw [List.getElem?_append_left earlier, List.getElem?_eq_getElem earlier]
    cases call : callOf route s before[j] with
    | none =>
      obtain ⟨m, -, entry⟩ := kept.answered here call
      rw [answer, entry]
      rfl
    | some fn =>
      have inside : (calls route s ((before ++ after).take j)).length <
          (Gate.replay s (calls route s before)).1.length := by
        rw [Gate.replay_length, calls_split (List.getElem?_eq_getElem earlier) call,
          List.take_append_of_le_length earlier.le, List.length_append, List.length_cons]
        omega
      have result := (settled _ _).mpr (List.getElem?_eq_getElem inside)
      rw [answer, kept.called here call, Option.bind_some, answerOf, result]
      rfl
  · intro j r later here call
    obtain ⟨fn, call⟩ := Option.isSome_iff_exists.mp call
    have outside : (Gate.replay s (calls route s before)).1.length ≤
        (calls route s ((before ++ after).take j)).length := by
      rw [Gate.replay_length, List.take_append, calls_append, List.take_of_length_le later,
        List.length_append]
      omega
    rw [answer, kept.called here call, Option.bind_some, answerOf]
    split
    next a result =>
      have absurd : (Gate.replay s (calls route s before)).1[_]? = some a :=
        (settled _ _).mp result
      rw [List.getElem?_eq_none outside] at absurd
      cases absurd
    next => rfl

/-! ### One event -/

theorem Kept.request (steady : Steady route)
    (quiet : ∀ r s fn, callOf route s r = some fn → fn.Quiet) {s : σ} {rs : List α} {d : Desk σ ρ}
    (kept : Kept route s rs d) (r : α) : Kept route s (rs ++ [r]) (d.step route (.request r)) := by
  have length := kept.length
  have last : ∀ {k : ℕ} {q : α}, (rs ++ [r])[k]? = some q →
      (rs[k]? = some q ∧ k < rs.length) ∨ (k = rs.length ∧ q = r) := by
    intro k q here
    rcases Nat.lt_or_ge k rs.length with before | after
    · rw [List.getElem?_append_left before] at here
      exact .inl ⟨here, before⟩
    · rw [List.getElem?_append_right after] at here
      obtain ⟨inside, same⟩ := List.getElem?_eq_some_iff.mp here
      rw [List.length_singleton] at inside
      rw [List.getElem_singleton] at same
      exact .inr ⟨by omega, same.symm⟩
  have shorter : ∀ {m : ℕ}, m ≤ rs.length → (rs ++ [r]).take m = rs.take m := fun within =>
    List.take_append_of_le_length within
  -- what the requests before have stays as it is
  have before : ∀ (entry : Entry ρ) {k : ℕ}, k < rs.length →
      (d.entries ++ [entry])[k]? = d.entries[k]? := fun entry _ inside =>
    List.getElem?_append_left (by omega)
  cases routed : route r d.gate.shared with
  | inl a =>
    have none : callOf route s r = none := by
      rw [callOf_steady steady s d.gate.shared]
      exact callOf_none.mpr ⟨a, routed⟩
    obtain ⟨m, within, shared, -, -⟩ := kept.moment steady quiet
    simp only [step, routed]
    refine ⟨?_, ?_, ?_, ?_⟩
    · rw [calls_append, calls_cons_none none]
      simpa [calls] using kept.serial
    · simp [length]
    · intro k q fn here call
      rcases last here with ⟨here, inside⟩ | ⟨-, rfl⟩
      · rw [before _ inside, kept.called here call, shorter inside.le]
      · rw [none] at call
        cases call
    · intro k q here call
      rcases last here with ⟨here, inside⟩ | ⟨rfl, rfl⟩
      · obtain ⟨m, earlier, entry⟩ := kept.answered here call
        exact ⟨m, earlier, by rw [before _ inside, entry, shorter (by omega)]⟩
      · refine ⟨m, within, ?_⟩
        rw [shorter within, ← shared, serveAlone_answered routed, ← length,
          List.getElem?_concat_length]
  | inr fn =>
    have some : callOf route s r = some fn := by
      rw [callOf_steady steady s d.gate.shared]
      exact callOf_some.mpr routed
    simp only [step, routed]
    refine ⟨?_, ?_, ?_, ?_⟩
    · rw [calls_append, calls_cons_some some]
      exact kept.serial.serialize fn
    · simp [length]
    · intro k q fn' here call
      rcases last here with ⟨here, inside⟩ | ⟨rfl, rfl⟩
      · rw [before _ inside, kept.called here call, shorter inside.le]
      · rw [shorter le_rfl, List.take_length, ← kept.serial.length, ← length,
          List.getElem?_concat_length]
    · intro k q here call
      rcases last here with ⟨here, inside⟩ | ⟨rfl, rfl⟩
      · obtain ⟨m, earlier, entry⟩ := kept.answered here call
        exact ⟨m, earlier, by rw [before _ inside, entry, shorter (by omega)]⟩
      · rw [some] at call
        cases call

theorem Kept.advance {s : σ} {rs : List α} {d : Desk σ ρ} (kept : Kept route s rs d) (call : ℕ) :
    Kept route s rs (d.step route (.advance call)) :=
  { kept with serial := kept.serial.advance call }

/-- Whatever happens in whatever order. -/
theorem kept_run (steady : Steady route)
    (quiet : ∀ r s fn, callOf route s r = some fn → fn.Quiet) {s : σ} {rs : List α} {d : Desk σ ρ}
    (kept : Kept route s rs d) (events : List (Event α)) :
    Kept route s (rs ++ requests events) (Evm.run (step route) d events) := by
  induction events generalizing rs d with
  | nil =>
    rw [requests, List.append_nil]
    exact kept
  | cons event events ih =>
    cases event with
    | request r =>
      rw [requests, ← List.singleton_append, ← List.append_assoc]
      exact ih (kept.request steady quiet r)
    | advance call => exact ih (kept.advance call)

/-! ### What a caller has -/

/-- Who waits gets the answer of a server that takes one request after the other. -/
theorem Kept.answer_called (steady : Steady route) {s : σ} {rs : List α} {d : Desk σ ρ}
    (kept : Kept route s rs d) {k : ℕ} {r : α} (here : rs[k]? = some r)
    (call : (callOf route s r).isSome) {a : ρ} (got : d.answer k = some a) :
    (serveAll route s rs).1[k]? = some a := by
  obtain ⟨fn, call⟩ := Option.isSome_iff_exists.mp call
  rw [answer, kept.called here call, Option.bind_some, answerOf] at got
  split at got
  next b result =>
    cases got
    rw [serveAll_called steady s rs here call]
    exact (kept.serial.settled result).1
  next => cases got

/-- Who does not wait has an answer, in a state between two calls. -/
theorem Kept.answer_read {s : σ} {rs : List α} {d : Desk σ ρ} (kept : Kept route s rs d) {k : ℕ}
    {r : α} (here : rs[k]? = some r) (call : callOf route s r = none) :
    ∃ m ≤ k, d.answer k = some (serveAlone route (serveAll route s (rs.take m)).2 r).1 := by
  obtain ⟨m, earlier, entry⟩ := kept.answered here call
  exact ⟨m, earlier, by rw [answer, entry]; rfl⟩

theorem answer_step {d : Desk σ ρ} {k : ℕ} {a : ρ}
    (got : d.answer k = some a) (event : Event α) : (d.step route event).answer k = some a := by
  obtain ⟨entry, here, same⟩ := Option.bind_eq_some_iff.mp got
  have inside : k < d.entries.length := (List.getElem?_eq_some_iff.mp here).1
  have stays : ∀ turn, answerOf (d.gate.step turn) entry = some a := by
    intro turn
    cases entry with
    | answered b => exact same
    | waiting call =>
      rw [answerOf] at same ⊢
      split at same
      next b settled => rw [Gate.settled_step settled turn]; exact same
      next => cases same
  cases event with
  | request r =>
    rw [step]
    split
    · rw [answer, List.getElem?_append_left inside, here]
      exact same
    · rw [answer, List.getElem?_append_left inside, here]
      exact stays _
  | advance call =>
    rw [step, answer, here]
    exact stays _

/-- What has become of a request never changes. -/
theorem answer_run {d : Desk σ ρ} {k : ℕ} {a : ρ}
    (got : d.answer k = some a) (events : List (Event α)) :
    (Evm.run (step route) d events).answer k = some a := by
  induction events generalizing d with
  | nil => exact got
  | cons event events ih => exact ih (answer_step got event)

/-- Entries are only added. -/
theorem entries_run (d : Desk σ ρ) (events : List (Event α)) :
    ∃ more, (Evm.run (step route) d events).entries = d.entries ++ more := by
  induction events generalizing d with
  | nil => exact ⟨[], (List.append_nil _).symm⟩
  | cons event events ih =>
    obtain ⟨more, rest⟩ := ih (step route d event)
    have one : ∃ added, (step route d event).entries = d.entries ++ added := by
      cases event with
      | request r =>
        rw [step]
        cases route r d.gate.shared <;> exact ⟨_, rfl⟩
      | advance call => exact ⟨[], (List.append_nil _).symm⟩
    obtain ⟨added, here⟩ := one
    exact ⟨added ++ more, by rw [Evm.run_cons, rest, here, List.append_assoc]⟩

/-- Who does not wait sees what the answered requests leave, and of those who wait no others. -/
theorem Kept.read (steady : Steady route)
    (quiet : ∀ r s fn, callOf route s r = some fn → fn.Quiet) {s : σ} {rs : List α} {d : Desk σ ρ}
    (kept : Kept route s rs d) {r : α} (call : callOf route s r = none) :
    ∃ m ≤ rs.length, (∀ j < m, (d.answer j).isSome) ∧
      (∀ j q, m ≤ j → rs[j]? = some q → (callOf route s q).isSome → d.answer j = none) ∧
      ∀ events, (Evm.run (step route) d (.request r :: events)).answer rs.length =
        some (serveAlone route (serveAll route s (rs.take m)).2 r).1 := by
  obtain ⟨m, within, shared, settled, waiting⟩ := kept.moment steady quiet
  refine ⟨m, within, settled, waiting, fun events => ?_⟩
  rw [callOf_steady steady s d.gate.shared] at call
  obtain ⟨a, answered⟩ := callOf_none.mp call
  have entered : (step route d (.request r)).entries = d.entries ++ [.answered a] := by
    rw [step, answered]
  obtain ⟨more, rest⟩ := entries_run (step route d (.request r)) events
  rw [Evm.run_cons, answer, rest, entered, ← kept.length, List.append_assoc,
    List.getElem?_append_right le_rfl, Nat.sub_self, ← shared, serveAlone_answered answered]
  rfl

/-- Nobody waits for ever: some advances bring all answers. -/
theorem Kept.completes {s : σ} {rs : List α} {d : Desk σ ρ} (kept : Kept route s rs d) :
    ∃ cs : List ℕ, ∀ k < rs.length,
      ((Evm.run (step route) d (cs.map .advance)).answer k).isSome := by
  obtain ⟨cs, ends⟩ := kept.serial.completes
  refine ⟨cs, fun k inside => ?_⟩
  have entries : ∀ (cs : List ℕ) (d : Desk σ ρ), Evm.run (step route) d (cs.map .advance) =
      ⟨Evm.run Gate.step d.gate (cs.map .advance), d.entries⟩ := by
    intro cs
    induction cs with
    | nil => exact fun d => rfl
    | cons c cs ih => exact fun d => ih _
  rw [entries, ends, answer]
  have here : rs[k]? = some rs[k] := List.getElem?_eq_getElem inside
  cases call : callOf route s rs[k] with
  | none =>
    obtain ⟨m, -, entry⟩ := kept.answered here call
    rw [entry]
    rfl
  | some fn =>
    have settled : (calls route s (rs.take k)).length <
        (Gate.replay s (calls route s rs)).1.length := by
      rw [Gate.replay_length, calls_split here call, List.length_append, List.length_cons]
      omega
    rw [kept.called here call, Option.bind_some, answerOf, List.getElem?_map,
      List.getElem?_eq_getElem settled]
    rfl

end

end Desk

end Js
