import Mirror.Js.Desk

/-!
A process that serves at a desk. What is thrown and caught by nobody is an unhandled rejection:
whatever else belongs to that turn of the event loop still happens, and then the process ends.
-/
namespace Js

variable {α σ ε ρ : Type}

namespace Desk

def threw : Option (Except ε ρ) → Bool
  | some (.error _) => true
  | _ => false

/-- Some request has thrown. -/
def ended (d : Desk σ (Except ε ρ)) : Bool :=
  d.entries.any fun entry => threw (answerOf d.gate entry)

/-- The response to the request with this number, once there is one. -/
def response (d : Desk σ (Except ε ρ)) (k : ℕ) : Option ρ := (d.answer k).bind Except.toOption

theorem threw_iff {a : Option (Except ε ρ)} : threw a = true ↔ ∃ e, a = some (.error e) := by
  constructor
  · intro thrown
    match a, thrown with
    | some (.error e), _ => exact ⟨e, rfl⟩
  · rintro ⟨e, rfl⟩
    rfl

theorem ended_iff {d : Desk σ (Except ε ρ)} :
    d.ended = true ↔ ∃ k e, d.answer k = some (.error e) := by
  rw [ended, List.any_eq_true]
  constructor
  · rintro ⟨entry, member, thrown⟩
    obtain ⟨k, here⟩ := List.mem_iff_getElem?.mp member
    obtain ⟨e, same⟩ := threw_iff.mp thrown
    exact ⟨k, e, by rw [answer, here, Option.bind_some, same]⟩
  · rintro ⟨k, e, got⟩
    obtain ⟨entry, here, same⟩ := Option.bind_eq_some_iff.mp got
    exact ⟨entry, List.mem_of_getElem? here, threw_iff.mpr ⟨e, same⟩⟩

theorem response_iff {d : Desk σ (Except ε ρ)} {k : ℕ} {a : ρ} :
    d.response k = some a ↔ d.answer k = some (.ok a) := by
  rw [response]
  match d.answer k with
  | none => exact iff_of_false (fun h => by cases h) (fun h => by cases h)
  | some (.error _) => exact iff_of_false (fun h => by cases h) (fun h => by cases h)
  | some (.ok b) => exact ⟨fun h => by cases h; rfl, fun h => by cases h; rfl⟩

/-- What has become of a request is a response or what it has thrown. -/
theorem answered_cases {d : Desk σ (Except ε ρ)} {k : ℕ} (answered : (d.answer k).isSome) :
    (d.response k).isSome ∨ ∃ e, d.answer k = some (.error e) := by
  obtain ⟨a, got⟩ := Option.isSome_iff_exists.mp answered
  cases a with
  | ok a => exact .inl (Option.isSome_iff_exists.mpr ⟨a, response_iff.mpr got⟩)
  | error e => exact .inr ⟨e, got⟩

end Desk

namespace Process

/-- What happens in one turn of the event loop. -/
abbrev Turn (α : Type) := List (Desk.Event α)

section

variable (route : α → σ → Except ε ρ ⊕ Task σ (Except ε ρ))

def step (d : Desk σ (Except ε ρ)) (turn : Turn α) : Desk σ (Except ε ρ) :=
  -- the rejection is reported when the turn is over
  if d.ended then d else Evm.run (Desk.step route) d turn

/-- The events up to the end of the process. -/
def events : Desk σ (Except ε ρ) → List (Turn α) → List (Desk.Event α)
  | _, [] => []
  | d, turn :: turns => if d.ended then [] else turn ++ events (step route d turn) turns

end

variable {route : α → σ → Except ε ρ ⊕ Task σ (Except ε ρ)}

theorem step_ended {d : Desk σ (Except ε ρ)} (ended : d.ended = true) (turn : Turn α) :
    step route d turn = d := by
  rw [step, if_pos ended]

theorem step_alive {d : Desk σ (Except ε ρ)} (alive : d.ended = false) (turn : Turn α) :
    step route d turn = Evm.run (Desk.step route) d turn := by
  rw [step, alive, if_neg Bool.false_ne_true]

theorem events_ended {d : Desk σ (Except ε ρ)} (ended : d.ended = true) (turns : List (Turn α)) :
    events route d turns = [] := by
  cases turns with
  | nil => rfl
  | cons turn turns => rw [events, if_pos ended]

theorem events_alive {d : Desk σ (Except ε ρ)} (alive : d.ended = false) (turn : Turn α)
    (turns : List (Turn α)) :
    events route d (turn :: turns) = turn ++ events route (step route d turn) turns := by
  rw [events, alive, if_neg Bool.false_ne_true]

theorem run_ended {d : Desk σ (Except ε ρ)} (ended : d.ended = true) (turns : List (Turn α)) :
    Evm.run (step route) d turns = d := by
  induction turns with
  | nil => rfl
  | cons turn turns ih => rw [Evm.run_cons, step_ended ended, ih]

/-- The process is where its desk is after what has happened. -/
theorem run_eq (d : Desk σ (Except ε ρ)) (turns : List (Turn α)) :
    Evm.run (step route) d turns = Evm.run (Desk.step route) d (events route d turns) := by
  -- turn by turn; from the end of the process on neither side moves
  induction turns generalizing d with
  | nil => rfl
  | cons turn turns ih =>
    cases ended : d.ended with
    | true => rw [run_ended ended, events_ended ended, Evm.run_nil]
    | false =>
      rw [Evm.run_cons, ih, events_alive ended, Evm.run_append, step_alive ended]

theorem events_append (d : Desk σ (Except ε ρ)) (turns more : List (Turn α)) :
    events route d (turns ++ more) =
      events route d turns ++ events route (Evm.run (step route) d turns) more := by
  induction turns generalizing d with
  | nil => rfl
  | cons turn turns ih =>
    cases ended : d.ended with
    | true => rw [events_ended ended, events_ended ended, run_ended ended, events_ended ended]; rfl
    | false =>
      rw [List.cons_append, events_alive ended, events_alive ended, ih, Evm.run_cons,
        List.append_assoc]

/-- Where the process still runs, everything has happened. -/
theorem events_all {d : Desk σ (Except ε ρ)} {turns : List (Turn α)}
    (alive : (Evm.run (step route) d turns).ended = false) :
    events route d turns = turns.flatten := by
  induction turns generalizing d with
  | nil => rfl
  | cons turn turns ih =>
    cases ended : d.ended with
    | true => rw [run_ended ended, ended] at alive; cases alive
    | false => rw [events_alive ended, List.flatten_cons, ih alive]

/-- What a process that still runs has thrown so far, it has thrown in this turn. -/
theorem threw_now {d : Desk σ (Except ε ρ)} (alive : d.ended = false) (turn : Turn α) {k : ℕ}
    {e : ε} (got : (step route d turn).answer k = some (.error e)) : d.answer k = none := by
  cases before : d.answer k with
  | none => rfl
  | some a =>
    -- what has become of a request stays, so it would have ended the process before this turn
    rw [step_alive alive, Desk.answer_run before turn] at got
    rw [Option.some.inj got] at before
    rw [Desk.ended_iff.mpr ⟨k, e, before⟩] at alive
    cases alive

/-- Some turns bring the responses of all requests, or one of these ends the process. -/
theorem completes {s : σ} {rs : List α} {d : Desk σ (Except ε ρ)}
    (kept : Desk.Kept route s rs d) : ∃ jobs : List ℕ,
      let d' := Evm.run (step route) d (jobs.map fun job => [.advance job])
      d'.ended = true ∨ ∀ k < rs.length, (d'.response k).isSome := by
  obtain ⟨jobs, answered⟩ := kept.completes
  refine ⟨jobs, ?_⟩
  intro d'
  cases ended : d'.ended with
  | true => exact .inl rfl
  | false =>
    -- a process that still runs has been through all these turns, and nothing was thrown
    have happened : (jobs.map fun job => [Desk.Event.advance (α := α) job]).flatten =
        jobs.map .advance := by
      rw [← List.flatMap_def, ← List.map_eq_flatMap]
    refine .inr fun k inside => ?_
    have settled := answered k inside
    rw [← happened, ← events_all ended, ← run_eq] at settled
    refine (Desk.answered_cases settled).resolve_right fun ⟨e, thrown⟩ => ?_
    rw [Desk.ended_iff.mpr ⟨k, e, thrown⟩] at ended
    cases ended

end Process

end Js
