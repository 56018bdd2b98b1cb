import Mirror.Evm.Run

/-!
A queue of promises, `next = queue.then(fn, fn)` and `queue = next.then(..)`: a call begins when
the call before it has settled, however it settled. Calls are functions that run in stretches
between their awaits, and between two stretches anything else may happen.
-/
namespace Js

/-- An async function over state that it shares with others. Its last stretch has its result. -/
inductive Task (σ ρ : Type)
  | finish (act : σ → ρ × σ)
  | wait (act : σ → σ) (next : σ → Task σ ρ)

inductive Call (σ ρ : Type)
  | queued (fn : Task σ ρ)
  | running (rest : Task σ ρ)
  | settled (result : ρ)

/-- The calls in the order in which they were made. -/
structure Gate (σ ρ : Type) where
  shared : σ
  calls : List (Call σ ρ)

/-- What can happen: another call, or the next stretch of one that was made before. -/
inductive Turn (σ ρ : Type)
  | serialize (fn : Task σ ρ)
  | advance (i : ℕ)

variable {σ ρ : Type}

namespace Task

/-- All stretches at once. -/
def run : Task σ ρ → σ → ρ × σ
  | finish act, s => act s
  | wait act next, s => (next s).run (act s)

/-- Only the last stretch changes anything. -/
def Quiet : Task σ ρ → Prop
  | finish _ => True
  | wait act next => ∀ s, act s = s ∧ (next s).Quiet

@[simp] theorem finish_quiet (act : σ → ρ × σ) : (finish act).Quiet := trivial

/-- The same after `n` awaits. -/
def delayed : ℕ → Task σ ρ → Task σ ρ
  | 0, t => t
  | n + 1, t => wait id fun _ => delayed n t

/-- The same with the result passed on, `run.then(f)`. -/
def map {ρ' : Type} (f : ρ → ρ') : Task σ ρ → Task σ ρ'
  | finish act => finish fun s => (f (act s).1, (act s).2)
  | wait act next => wait act fun s => (next s).map f

@[simp] theorem map_run {ρ' : Type} (f : ρ → ρ') (t : Task σ ρ) (s : σ) :
    (t.map f).run s = (f (t.run s).1, (t.run s).2) := by
  induction t generalizing s with
  | finish act => rfl
  | wait act next ih => exact ih s (act s)

theorem map_quiet {ρ' : Type} (f : ρ → ρ') {t : Task σ ρ} (quiet : t.Quiet) : (t.map f).Quiet := by
  induction t with
  | finish act => trivial
  | wait act next ih => exact fun s => ⟨(quiet s).1, ih s (quiet s).2⟩

@[simp] theorem delayed_run (n : ℕ) (t : Task σ ρ) (s : σ) : (delayed n t).run s = t.run s := by
  induction n with
  | zero => rfl
  | succ n ih => exact ih

theorem delayed_quiet {t : Task σ ρ} (quiet : t.Quiet) (n : ℕ) : (delayed n t).Quiet := by
  induction n with
  | zero => exact quiet
  | succ n ih => exact fun _ => ⟨rfl, ih⟩

/-- Alone, the function leaves `inv` after each of its stretches. -/
def Always (inv : σ → Prop) : Task σ ρ → σ → Prop
  | finish act, s => inv (act s).2
  | wait act next, s => inv (act s) ∧ (next s).Always inv (act s)

end Task

namespace Gate

def isSettled : Call σ ρ → Bool
  | .settled _ => true
  | _ => false

/-- The call before `i` has settled. -/
def ready (g : Gate σ ρ) (i : ℕ) : Bool :=
  i = 0 || (g.calls[i - 1]?.map isSettled).getD false

/-- The next stretch of call `i`. -/
def resume (g : Gate σ ρ) (i : ℕ) : Task σ ρ → Gate σ ρ
  | .finish act => ⟨(act g.shared).2, g.calls.set i (.settled (act g.shared).1)⟩
  | .wait act next => ⟨act g.shared, g.calls.set i (.running (next g.shared))⟩

def step (g : Gate σ ρ) : Turn σ ρ → Gate σ ρ
  | .serialize fn => { g with calls := g.calls ++ [.queued fn] }
  | .advance i =>
    match g.calls[i]? with
    | some (.queued fn) => if g.ready i then g.resume i fn else g
    | some (.running rest) => g.resume i rest
    | _ => g

def start (s : σ) : Gate σ ρ := ⟨s, []⟩

/-- The calls that the turns make. -/
def made : List (Turn σ ρ) → List (Task σ ρ)
  | [] => []
  | .serialize fn :: turns => fn :: made turns
  | .advance _ :: turns => made turns

/-! ### One after the other -/

/-- The functions run one after the other, without a queue. -/
def replay : σ → List (Task σ ρ) → List ρ × σ
  | s, [] => ([], s)
  | s, t :: ts =>
    let here := t.run s
    let later := replay here.2 ts
    (here.1 :: later.1, later.2)

theorem replay_append (s : σ) (ts us : List (Task σ ρ)) :
    replay s (ts ++ us) =
      ((replay s ts).1 ++ (replay (replay s ts).2 us).1, (replay (replay s ts).2 us).2) := by
  induction ts generalizing s with
  | nil => rfl
  | cons t ts ih => simp only [List.cons_append, replay, ih]

theorem replay_length (s : σ) (ts : List (Task σ ρ)) : (replay s ts).1.length = ts.length := by
  induction ts generalizing s with
  | nil => rfl
  | cons t ts ih => simp only [replay, List.length_cons, ih]

/-- The gate is where the calls would be one after the other, but for one that is under way. -/
inductive Serial (s : σ) (ts : List (Task σ ρ)) : Gate σ ρ → Prop
  | idle {done todo : List (Task σ ρ)} (split : ts = done ++ todo) :
    Serial s ts ⟨(replay s done).2, (replay s done).1.map .settled ++ todo.map .queued⟩
  | busy {done todo : List (Task σ ρ)} {t rest : Task σ ρ} {shared : σ}
    (split : ts = done ++ t :: todo) (same : rest.run shared = t.run (replay s done).2)
    (quiet : t.Quiet → rest.Quiet ∧ shared = (replay s done).2) :
    Serial s ts ⟨shared, (replay s done).1.map .settled ++ .running rest :: todo.map .queued⟩

theorem serial_start (s : σ) : Serial s ([] : List (Task σ ρ)) (start s) :=
  @Serial.idle _ _ s [] [] [] rfl

/-! ### One turn -/

section

variable {done : List ρ} {c : Call σ ρ} {rest : List (Call σ ρ)} {i : ℕ}

theorem getElem?_done (rest : List (Call σ ρ)) (before : i < done.length) :
    ∃ r, (done.map Call.settled ++ rest)[i]? = some (.settled r) := by
  refine ⟨done[i], ?_⟩
  rw [List.getElem?_append_left (by rwa [List.length_map]), List.getElem?_map,
    List.getElem?_eq_getElem before, Option.map_some]

theorem getElem?_here : (done.map Call.settled ++ c :: rest)[done.length]? = some c := by
  rw [List.getElem?_append_right (by rw [List.length_map]), List.length_map, Nat.sub_self,
    List.getElem?_cons_zero]

theorem set_here (c' : Call σ ρ) :
    (done.map Call.settled ++ c :: rest).set done.length c' =
      done.map Call.settled ++ c' :: rest := by
  rw [List.set_append_right _ _ (by rw [List.length_map]), List.length_map, Nat.sub_self,
    List.set_cons_zero]

end

/-- The first task that has not begun, or the rest of the one that is under way, goes on. -/
theorem Serial.resume {s : σ} {done todo : List (Task σ ρ)} {t rest : Task σ ρ} {shared : σ}
    {c : Call σ ρ} (same : rest.run shared = t.run (replay s done).2)
    (quiet : t.Quiet → rest.Quiet ∧ shared = (replay s done).2) :
    Serial s (done ++ t :: todo)
      (resume ⟨shared, (replay s done).1.map .settled ++ c :: todo.map .queued⟩ done.length
        rest) := by
  have here : done.length = (replay s done).1.length := (replay_length s done).symm
  cases rest with
  | finish act =>
    have finished : (done ++ t :: todo) = (done ++ [t]) ++ todo := by
      rw [List.append_assoc, List.singleton_append]
    have next : replay s (done ++ [t]) =
        ((replay s done).1 ++ [(act shared).1], (act shared).2) := by
      have acts : act shared = t.run (replay s done).2 := same
      rw [replay_append, acts]
      rfl
    have idle : Serial s (done ++ t :: todo) _ := .idle finished
    rw [next] at idle
    simp only [Gate.resume, here, set_here]
    simpa only [List.map_append, List.map_cons, List.map_nil, List.append_assoc,
      List.singleton_append] using idle
  | wait act next =>
    simp only [Gate.resume, here, set_here]
    refine .busy rfl same fun quietly => ?_
    obtain ⟨restQuiet, unchanged⟩ := quiet quietly
    have each : act shared = shared ∧ (next shared).Quiet := restQuiet shared
    exact ⟨each.2, each.1.trans unchanged⟩

/-- A call that waits behind another that has not settled does not begin. -/
theorem not_ready {done : List ρ} {todo : List (Task σ ρ)} {c : Call σ ρ}
    (unsettled : isSettled c = false) {shared : σ} {i : ℕ} (later : done.length < i) :
    ready ⟨shared, done.map .settled ++ c :: todo.map .queued⟩ i = false := by
  have nonzero : i ≠ 0 := by omega
  simp only [ready, nonzero, decide_false, Bool.false_or]
  rw [List.getElem?_append_right (by rw [List.length_map]; omega), List.length_map]
  rcases Nat.lt_or_ge (i - 1) (done.length + 1) with next | further
  · have first : i - 1 - done.length = 0 := by omega
    rw [first, List.getElem?_cons_zero, Option.map_some, Option.getD_some, unsettled]
  · obtain ⟨k, hk⟩ : ∃ k, i - 1 - done.length = k + 1 := ⟨i - 1 - done.length - 1, by omega⟩
    rw [hk, List.getElem?_cons_succ, List.getElem?_map, Option.map_map]
    cases todo[k]? <;> rfl

theorem ready_next {done : List ρ} {rest : List (Call σ ρ)} {shared : σ} :
    ready ⟨shared, done.map .settled ++ rest⟩ done.length = true := by
  rcases List.eq_nil_or_concat done with rfl | ⟨before, r, rfl⟩
  · rfl
  · have last : (before ++ [r]).length - 1 = before.length := by
      rw [List.length_append, List.length_singleton, Nat.add_sub_cancel]
    rw [List.concat_eq_append]
    simp only [ready, last, List.map_append, List.map_cons, List.map_nil, List.append_assoc,
      List.cons_append, getElem?_here, Option.map_some, isSettled, Option.getD_some, Bool.or_true]

/-- Who has settled stays settled. -/
theorem settled_step {g : Gate σ ρ} {i : ℕ} {a : ρ} (here : g.calls[i]? = some (.settled a))
    (turn : Turn σ ρ) : (g.step turn).calls[i]? = some (.settled a) := by
  have inside : i < g.calls.length := (List.getElem?_eq_some_iff.mp here).1
  cases turn with
  | serialize fn =>
    rw [← here]
    exact List.getElem?_append_left inside
  | advance j =>
    -- a call that goes on is not the one that has settled
    have other : ∀ c, (∀ b, c ≠ Call.settled b) → g.calls[j]? = some c → j ≠ i := by
      rintro c unsettled there rfl
      exact unsettled a (Option.some.inj (there.symm.trans here))
    have resumes : ∀ t, j ≠ i → (g.resume j t).calls[i]? = some (.settled a) := by
      intro t ne
      cases t <;> exact (List.getElem?_set_ne ne).trans here
    rw [Gate.step]
    split
    next fn there =>
      have ne := other _ (fun b h => by cases h) there
      split
      · exact resumes fn ne
      · exact here
    next rest there => exact resumes rest (other _ (fun b h => by cases h) there)
    next => exact here

theorem step_of_unready {g : Gate σ ρ} {i : ℕ}
    (waits : ∀ c, g.calls[i]? = some c → (∃ r, c = .settled r) ∨
      (∃ fn, c = .queued fn) ∧ g.ready i = false) : g.step (.advance i) = g := by
  simp only [step]
  split
  next fn here =>
    rcases waits _ here with ⟨r, absurd⟩ | ⟨-, unready⟩
    · cases absurd
    · rw [unready, if_neg Bool.false_ne_true]
  next rest here =>
    rcases waits _ here with ⟨r, absurd⟩ | ⟨⟨fn, absurd⟩, -⟩
    · cases absurd
    · cases absurd
  next => rfl

/-- Behind one that has not settled the calls are queued, and none of them begins. -/
theorem step_behind {done : List ρ} {todo : List (Task σ ρ)} {c : Call σ ρ}
    (unsettled : isSettled c = false) {shared : σ} {i : ℕ} (later : done.length < i) :
    step ⟨shared, done.map .settled ++ c :: todo.map .queued⟩ (.advance i) =
      ⟨shared, done.map .settled ++ c :: todo.map .queued⟩ := by
  refine step_of_unready fun d here => .inr ⟨?_, not_ready unsettled later⟩
  obtain ⟨k, hk⟩ : ∃ k, i - done.length = k + 1 := ⟨i - done.length - 1, by omega⟩
  rw [List.getElem?_append_right (by rw [List.length_map]; omega), List.length_map, hk,
    List.getElem?_cons_succ, List.getElem?_map, Option.map_eq_some_iff] at here
  obtain ⟨fn, -, rfl⟩ := here
  exact ⟨fn, rfl⟩

theorem step_before {done : List ρ} {rest : List (Call σ ρ)} {shared : σ} {i : ℕ}
    (before : i < done.length) :
    step ⟨shared, done.map .settled ++ rest⟩ (.advance i) =
      ⟨shared, done.map .settled ++ rest⟩ := by
  refine step_of_unready fun d here => .inl ?_
  obtain ⟨r, settled⟩ := getElem?_done rest before
  rw [settled] at here
  exact ⟨r, (Option.some.inj here).symm⟩

theorem Serial.advance {s : σ} {ts : List (Task σ ρ)} {g : Gate σ ρ} (serial : Serial s ts g)
    (i : ℕ) : Serial s ts (g.step (.advance i)) := by
  cases serial with
  | @idle done todo split =>
    have length := replay_length s done
    rcases lt_trichotomy i done.length with before | rfl | behind
    · rw [step_before (by omega)]
      exact .idle split
    · cases todo with
      | nil =>
        rw [step_of_unready]
        · exact .idle split
        · intro c here
          rw [List.map_nil, List.append_nil, List.getElem?_eq_none (by
            rw [List.length_map, length])] at here
          cases here
      | cons t todo =>
        have here : ((replay s done).1.map Call.settled ++
            .queued t :: todo.map .queued)[done.length]? = some (.queued t) := by
          rw [← length]
          exact getElem?_here
        have next : ready ⟨(replay s done).2, (replay s done).1.map .settled ++
            .queued t :: todo.map .queued⟩ done.length = true := by
          rw [← length]
          exact ready_next
        rw [List.map_cons, step]
        simp only [here, next, if_true]
        rw [split]
        exact .resume rfl fun quiet => ⟨quiet, rfl⟩
    · cases todo with
      | nil =>
        rw [step_of_unready]
        · exact .idle split
        · intro c here
          rw [List.map_nil, List.append_nil, List.getElem?_eq_none (by
            rw [List.length_map, length]; omega)] at here
          cases here
      | cons t todo =>
        rw [List.map_cons, step_behind rfl (by omega)]
        exact .idle split
  | @busy done todo t rest shared split same quiet =>
    have length := replay_length s done
    rcases lt_trichotomy i done.length with before | rfl | behind
    · rw [step_before (by omega)]
      exact .busy split same quiet
    · have here : ((replay s done).1.map Call.settled ++
          .running rest :: todo.map .queued)[done.length]? = some (.running rest) := by
        rw [← length]
        exact getElem?_here
      rw [step]
      simp only [here]
      rw [split]
      exact .resume same quiet
    · rw [step_behind rfl (by omega)]
      exact .busy split same quiet

theorem Serial.serialize {s : σ} {ts : List (Task σ ρ)} {g : Gate σ ρ} (serial : Serial s ts g)
    (fn : Task σ ρ) : Serial s (ts ++ [fn]) (g.step (.serialize fn)) := by
  cases serial with
  | @idle done todo split =>
    have longer : ts ++ [fn] = done ++ (todo ++ [fn]) := by rw [split, List.append_assoc]
    have idle : Serial s (ts ++ [fn]) _ := .idle longer
    simpa only [step, List.map_append, List.map_cons, List.map_nil, List.append_assoc] using idle
  | @busy done todo t rest shared split same quiet =>
    have longer : ts ++ [fn] = done ++ t :: (todo ++ [fn]) := by
      rw [split, List.append_assoc, List.cons_append]
    have busy : Serial s (ts ++ [fn]) _ := .busy longer same quiet
    simpa only [step, List.map_append, List.map_cons, List.map_nil, List.append_assoc,
      List.cons_append] using busy

/-- Whatever happens in whatever order, the calls are served one after the other. -/
theorem serial_run {s : σ} {ts : List (Task σ ρ)} {g : Gate σ ρ} (serial : Serial s ts g)
    (turns : List (Turn σ ρ)) : Serial s (ts ++ made turns) (Evm.run step g turns) := by
  induction turns generalizing ts g with
  | nil =>
    rw [made, List.append_nil]
    exact serial
  | cons turn turns ih =>
    cases turn with
    | serialize fn =>
      rw [made, ← List.singleton_append, ← List.append_assoc]
      exact ih (serial.serialize fn)
    | advance i => exact ih (serial.advance i)

/-! ### What a caller sees -/

theorem getElem?_settled_iff {done : List ρ} {rest : List (Call σ ρ)}
    (unsettled : ∀ c ∈ rest, isSettled c = false) (i : ℕ) (r : ρ) :
    (done.map Call.settled ++ rest)[i]? = some (.settled r) ↔ done[i]? = some r := by
  rcases Nat.lt_or_ge i done.length with before | after
  · rw [List.getElem?_append_left (by rwa [List.length_map]), List.getElem?_map,
      List.getElem?_eq_getElem before]
    simp
  · rw [List.getElem?_append_right (by rwa [List.length_map]), List.getElem?_eq_none after]
    refine iff_of_false (fun here => ?_) (Option.some_ne_none r).symm
    have absurd := unsettled _ (List.mem_of_getElem? here)
    cases absurd

section

variable {s : σ} {ts : List (Task σ ρ)} {g : Gate σ ρ}

/-- The settled calls, and what stands behind them. -/
theorem Serial.calls_eq (serial : Serial s ts g) :
    ∃ done todo rest, ts = done ++ todo ∧ g.calls = (replay s done).1.map .settled ++ rest ∧
      (∀ c ∈ rest, isSettled c = false) ∧ (∀ c ∈ rest.tail, ∃ fn, c = .queued fn) ∧
      ((∀ t ∈ ts, t.Quiet) → g.shared = (replay s done).2) := by
  have queued : ∀ (todo : List (Task σ ρ)), ∀ c ∈ todo.map Call.queued, ∃ fn, c = .queued fn := by
    intro todo c member
    obtain ⟨fn, -, rfl⟩ := List.mem_map.mp member
    exact ⟨fn, rfl⟩
  have unsettled : ∀ (todo : List (Task σ ρ)), ∀ c ∈ todo.map Call.queued,
      isSettled c = false := by
    intro todo c member
    obtain ⟨fn, rfl⟩ := queued todo c member
    rfl
  cases serial with
  | @idle done todo split =>
    exact ⟨done, todo, _, split, rfl, unsettled todo,
      fun c member => queued todo c (List.mem_of_mem_tail member), fun _ => rfl⟩
  | @busy done todo t rest shared split same quiet =>
    refine ⟨done, t :: todo, _, split, rfl, List.forall_mem_cons.mpr ⟨rfl, unsettled todo⟩,
      queued todo, fun each => ?_⟩
    exact (quiet (each t (split ▸ List.mem_append_right _ List.mem_cons_self))).2

theorem Serial.length (serial : Serial s ts g) : g.calls.length = ts.length := by
  cases serial with
  | idle split => simp [split, replay_length]
  | busy split same quiet => simp [split, replay_length]

/-- A call has the result that it has without a queue, and those before it have settled. -/
theorem Serial.settled (serial : Serial s ts g) {i : ℕ} {r : ρ}
    (here : g.calls[i]? = some (.settled r)) :
    (replay s ts).1[i]? = some r ∧ ∀ j < i, ∃ r', g.calls[j]? = some (.settled r') := by
  obtain ⟨done, todo, rest, split, calls, unsettled, -, -⟩ := serial.calls_eq
  rw [calls, getElem?_settled_iff unsettled] at here
  have inside : i < (replay s done).1.length := (List.getElem?_eq_some_iff.mp here).1
  constructor
  · rw [split, replay_append, List.getElem?_append_left inside, here]
  · intro j earlier
    rw [calls]
    exact getElem?_done rest (by omega)

/-- Two calls are never under way together. -/
theorem Serial.running_unique (serial : Serial s ts g) {i j : ℕ} {a b : Task σ ρ}
    (here : g.calls[i]? = some (.running a)) (there : g.calls[j]? = some (.running b)) : i = j := by
  obtain ⟨done, todo, rest, -, calls, -, queued, -⟩ := serial.calls_eq
  -- the only place for a call that runs is the first one that has not settled
  have place : ∀ {k : ℕ} {c : Task σ ρ}, g.calls[k]? = some (.running c) →
      k = (replay s done).1.length := by
    intro k c at_k
    rw [calls] at at_k
    rcases Nat.lt_or_ge k (replay s done).1.length with before | after
    · obtain ⟨r, settled⟩ := getElem?_done rest before
      rw [settled] at at_k
      cases at_k
    · by_contra other
      rw [List.getElem?_append_right (by rwa [List.length_map]), List.length_map] at at_k
      obtain ⟨m, hm⟩ : ∃ m, k - (replay s done).1.length = m + 1 :=
        ⟨k - (replay s done).1.length - 1, by omega⟩
      rw [hm, ← List.getElem?_tail] at at_k
      obtain ⟨fn, absurd⟩ := queued _ (List.mem_of_getElem? at_k)
      cases absurd
  rw [place here, place there]

/-- A queued call that is ready begins while none is under way. -/
theorem Serial.not_running (serial : Serial s ts g) {i j : ℕ} {fn rest : Task σ ρ}
    (here : g.calls[i]? = some (.queued fn)) (ready : g.ready i = true) :
    g.calls[j]? ≠ some (.running rest) := by
  intro there
  cases serial with
  | @idle done todo split =>
    rcases List.mem_append.mp (List.mem_of_getElem? there) with settled | queued
    · obtain ⟨r, -, absurd⟩ := List.mem_map.mp settled
      cases absurd
    · obtain ⟨t, -, absurd⟩ := List.mem_map.mp queued
      cases absurd
  | @busy done todo t rest shared split same quiet =>
    have length := replay_length s done
    rcases lt_trichotomy i (replay s done).1.length with before | rfl | behind
    · obtain ⟨r, settled⟩ := getElem?_done (.running rest :: todo.map .queued) before
      rw [settled] at here
      cases here
    · rw [getElem?_here] at here
      cases here
    · rw [not_ready rfl behind] at ready
      cases ready

/-- What every stretch leaves, told of a gate. -/
structure Held (inv : σ → Prop) (g : Gate σ ρ) : Prop where
  now : inv g.shared
  queued : ∀ (i : ℕ) (fn : Task σ ρ), g.calls[i]? = some (.queued fn) →
    ∀ s, inv s → fn.Always inv s
  running : ∀ (i : ℕ) (rest : Task σ ρ), g.calls[i]? = some (.running rest) →
    rest.Always inv g.shared

theorem Held.resume {inv : σ → Prop} (held : Held inv g) {i : ℕ} {rest : Task σ ρ}
    (alone : ∀ (j : ℕ) (rest' : Task σ ρ), j ≠ i → g.calls[j]? ≠ some (.running rest'))
    (always : rest.Always inv g.shared) : Held inv (g.resume i rest) := by
  cases rest with
  | finish act =>
    refine ⟨always, fun j fn here => ?_, fun j rest' here => ?_⟩
    · rw [Gate.resume, List.getElem?_set] at here
      split at here
      next => split at here <;> cases here
      next => exact held.queued j fn here
    · rw [Gate.resume, List.getElem?_set] at here
      split at here
      next => split at here <;> cases here
      next other => exact absurd here (alone j rest' (Ne.symm other))
  | wait act next =>
    refine ⟨always.1, fun j fn here => ?_, fun j rest' here => ?_⟩
    · rw [Gate.resume, List.getElem?_set] at here
      split at here
      next => split at here <;> cases here
      next => exact held.queued j fn here
    · rw [Gate.resume, List.getElem?_set] at here
      split at here
      next =>
        split at here
        next =>
          cases here
          exact always.2
        next => cases here
      next other => exact absurd here (alone j rest' (Ne.symm other))

theorem Held.step {inv : σ → Prop} (held : Held inv g) (serial : Serial s ts g) (turn : Turn σ ρ)
    (made : ∀ fn, turn = .serialize fn → ∀ s, inv s → fn.Always inv s) :
    Held inv (g.step turn) := by
  cases turn with
  | serialize fn =>
    have cases_of : ∀ {j : ℕ} {c : Call σ ρ}, (g.calls ++ [.queued fn])[j]? = some c →
        g.calls[j]? = some c ∨ c = .queued fn := by
      intro j c here
      rcases Nat.lt_or_ge j g.calls.length with before | after
      · exact .inl (List.getElem?_append_left before ▸ here)
      · rw [List.getElem?_append_right after] at here
        exact .inr (List.mem_singleton.mp (List.mem_of_getElem? here))
    refine ⟨held.now, fun j fn' here => ?_, fun j rest here => ?_⟩
    · rcases cases_of here with before | new
      · exact held.queued j fn' before
      · cases new
        exact made fn rfl
    · rcases cases_of here with before | new
      · exact held.running j rest before
      · cases new
  | advance i =>
    rw [Gate.step]
    split
    next fn here =>
      split
      next ready =>
        exact held.resume (fun j rest' _ => serial.not_running here ready)
          (held.queued i fn here _ held.now)
      next => exact held
    next rest here =>
      refine held.resume (fun j rest' other there => ?_) (held.running i rest here)
      exact other (serial.running_unique there here)
    next => exact held

/-- What every call keeps on its own is kept by the calls together. -/
theorem Held.run {inv : σ → Prop} (held : Held inv g) (serial : Serial s ts g)
    (turns : List (Turn σ ρ)) (made : ∀ fn ∈ Gate.made turns, ∀ s, inv s → fn.Always inv s) :
    Held inv (Evm.run Gate.step g turns) := by
  induction turns generalizing g ts with
  | nil => exact held
  | cons turn turns ih =>
    cases turn with
    | serialize fn =>
      rw [Gate.made, List.forall_mem_cons] at made
      refine ih (held.step serial _ fun fn' same => ?_) (serial.serialize fn) made.2
      cases same
      exact made.1
    | advance i =>
      exact ih (held.step serial _ fun fn same => by cases same) (serial.advance i) made

theorem held_start {inv : σ → Prop} {s : σ} (now : inv s) :
    Held inv (start s : Gate σ ρ) := by
  refine ⟨now, fun i fn here => ?_, fun i rest here => ?_⟩
  · cases here
  · cases here

/-- Where only last stretches change anything, what is shared is as the settled calls leave it. -/
theorem Serial.shared_eq (serial : Serial s ts g) (quiet : ∀ t ∈ ts, t.Quiet) :
    ∃ done todo, ts = done ++ todo ∧ g.shared = (replay s done).2 ∧
      ∀ (i : ℕ) (r : ρ), g.calls[i]? = some (.settled r) ↔ (replay s done).1[i]? = some r := by
  obtain ⟨done, todo, rest, split, calls, unsettled, -, shared⟩ := serial.calls_eq
  refine ⟨done, todo, split, shared quiet, fun i r => ?_⟩
  rw [calls, getElem?_settled_iff unsettled]

end

/-- The call that is under way comes to its end. -/
theorem exists_turns_busy {s : σ} {done todo : List (Task σ ρ)} {t rest : Task σ ρ} {shared : σ}
    (same : rest.run shared = t.run (replay s done).2) :
    ∃ n, Evm.run step ⟨shared, (replay s done).1.map .settled ++ .running rest ::
        todo.map .queued⟩ (List.replicate n (.advance done.length)) =
      ⟨(replay s (done ++ [t])).2, (replay s (done ++ [t])).1.map .settled ++
        todo.map .queued⟩ := by
  have length := replay_length s done
  have here : ∀ rest : Task σ ρ, ((replay s done).1.map Call.settled ++
      .running rest :: todo.map .queued)[done.length]? = some (.running rest) := by
    intro rest
    rw [← length]
    exact getElem?_here
  induction rest generalizing shared with
  | finish act =>
    refine ⟨1, ?_⟩
    have acts : act shared = t.run (replay s done).2 := same
    rw [replay_append]
    simp only [List.replicate_one, Evm.run, step, resume, replay, ← length, set_here]
    simp [acts]
  | wait act next ih =>
    obtain ⟨n, ends⟩ := ih shared same
    refine ⟨n + 1, ?_⟩
    have goes : step ⟨shared, (replay s done).1.map .settled ++ .running (.wait act next) ::
        todo.map .queued⟩ (.advance done.length) =
        ⟨act shared, (replay s done).1.map .settled ++ .running (next shared) ::
          todo.map .queued⟩ := by
      simp only [step, here, resume]
      rw [← length, set_here]
    rw [List.replicate_succ, Evm.run_cons, goes, ends]

theorem exists_turns_idle (s : σ) (done todo : List (Task σ ρ)) :
    ∃ is : List ℕ, Evm.run step ⟨(replay s done).2, (replay s done).1.map .settled ++
        todo.map .queued⟩ (is.map .advance) =
      ⟨(replay s (done ++ todo)).2, (replay s (done ++ todo)).1.map .settled⟩ := by
  induction todo generalizing done with
  | nil =>
    refine ⟨[], ?_⟩
    rw [List.append_nil, List.map_nil, List.append_nil]
    rfl
  | cons t todo ih =>
    obtain ⟨is, ends⟩ := ih (done ++ [t])
    have length := replay_length s done
    have here : ((replay s done).1.map Call.settled ++
        .queued t :: todo.map .queued)[done.length]? = some (.queued t) := by
      rw [← length]
      exact getElem?_here
    have next : ready ⟨(replay s done).2, (replay s done).1.map .settled ++
        .queued t :: todo.map .queued⟩ done.length = true := by
      rw [← length]
      exact ready_next
    rw [List.append_assoc, List.singleton_append] at ends
    -- beginning a call is its first stretch, which may be its last one
    cases t with
    | finish act =>
      refine ⟨done.length :: is, ?_⟩
      rw [← ends, List.map_cons, List.map_cons, Evm.run_cons]
      congr 1
      simp only [step, here, next, if_true, resume]
      rw [← length, set_here, replay_append]
      simp [replay, Task.run]
    | wait act more =>
      obtain ⟨n, busy⟩ := @exists_turns_busy _ _ s done todo (.wait act more)
        (more (replay s done).2) (act (replay s done).2) rfl
      refine ⟨done.length :: (List.replicate n done.length ++ is), ?_⟩
      have goes : step ⟨(replay s done).2, (replay s done).1.map .settled ++
          .queued (.wait act more) :: todo.map .queued⟩ (.advance done.length) =
          ⟨act (replay s done).2, (replay s done).1.map .settled ++
            .running (more (replay s done).2) :: todo.map .queued⟩ := by
        simp only [step, here, next, if_true, resume]
        rw [← length, set_here]
      rw [List.map_cons, List.map_cons, List.map_append, List.map_replicate, Evm.run_cons, goes,
        Evm.run_append, busy, ends]

/-- Nothing is stuck: from wherever it is, every call that was made comes to its end, and the
results are those of the calls one after the other. -/
theorem Serial.completes {s : σ} {ts : List (Task σ ρ)} {g : Gate σ ρ} (serial : Serial s ts g) :
    ∃ is : List ℕ, Evm.run step g (is.map .advance) =
      ⟨(replay s ts).2, (replay s ts).1.map .settled⟩ := by
  cases serial with
  | @idle done todo split =>
    rw [split]
    exact exists_turns_idle s done todo
  | @busy done todo t rest shared split same quiet =>
    obtain ⟨n, busy⟩ := @exists_turns_busy _ _ s done todo t rest shared same
    obtain ⟨is, ends⟩ := exists_turns_idle s (done ++ [t]) todo
    refine ⟨List.replicate n done.length ++ is, ?_⟩
    rw [List.map_append, List.map_replicate, Evm.run_append, busy, ends, split, List.append_assoc,
      List.singleton_append]

end Gate

end Js
