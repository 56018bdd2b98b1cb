import Mirror.Js.Gate

/-!
Async functions that ask someone outside and go on with the answers, or with what was thrown. Each
question is one stretch: it is answered at once, and other calls have their turns before the function
goes on.
-/
namespace Js

/-- A function that asks questions `q`, which have answers in `A q` or throw. -/
inductive Asking (Q : Type) (A : Q → Type) (ε ρ : Type)
  | returns (r : ρ)
  | throws (e : ε)
  | ask (q : Q) (next : Except ε (A q) → Asking Q A ε ρ)

namespace Asking

variable {Q : Type} {A : Q → Type} {ε ρ ρ' σ : Type}

def bind : Asking Q A ε ρ → (ρ → Asking Q A ε ρ') → Asking Q A ε ρ'
  | returns r, f => f r
  | throws e, _ => throws e
  | ask q next, f => ask q fun a => (next a).bind f

instance : Monad (Asking Q A ε) where
  pure := returns
  bind := bind

/-- `await` of the answer. -/
def await (q : Q) : Asking Q A ε (A q) :=
  ask q fun
    | .ok a => returns a
    | .error e => throws e

/-- What a `try` around the function goes on with. -/
def caught : Asking Q A ε ρ → Asking Q A ε (Except ε ρ)
  | returns r => returns (.ok r)
  | throws e => returns (.error e)
  | ask q next => ask q fun a => (next a).caught

/-- The function before someone who answers from a state and may change it. -/
def task (answer : (q : Q) → σ → Except ε (A q) × σ) : Asking Q A ε ρ → Task σ (Except ε ρ)
  | returns r => .finish fun s => (.ok r, s)
  | throws e => .finish fun s => (.error e, s)
  | ask q next => .wait (fun s => (answer q s).2) fun s => (next (answer q s).1).task answer

/-! ### Alone -/

section

variable (answer : (q : Q) → σ → Except ε (A q) × σ)

/-- The function on its own. -/
def alone (p : Asking Q A ε ρ) (s : σ) : Except ε ρ × σ := (p.task answer).run s

@[simp] theorem alone_returns (r : ρ) (s : σ) :
    alone answer (returns r : Asking Q A ε ρ) s = (.ok r, s) := rfl

@[simp] theorem alone_pure (r : ρ) (s : σ) :
    alone answer (pure r : Asking Q A ε ρ) s = (.ok r, s) := rfl

@[simp] theorem alone_throws (e : ε) (s : σ) :
    alone answer (throws e : Asking Q A ε ρ) s = (.error e, s) := rfl

theorem alone_ask (q : Q) (next : Except ε (A q) → Asking Q A ε ρ) (s : σ) :
    alone answer (ask q next) s = alone answer (next (answer q s).1) (answer q s).2 := rfl

theorem alone_bind (p : Asking Q A ε ρ) (f : ρ → Asking Q A ε ρ') (s : σ) :
    alone answer (p >>= f) s = match alone answer p s with
      | (.ok r, s') => alone answer (f r) s'
      | (.error e, s') => (.error e, s') := by
  -- over the questions of the first part, with the state that each answer leaves
  induction p generalizing s with
  | returns r => rfl
  | throws e => rfl
  | ask q next ih => exact ih (answer q s).1 (answer q s).2

@[simp] theorem alone_await (q : Q) (s : σ) : alone answer (await q) s = answer q s := by
  rw [await, alone_ask]
  cases answer q s with
  | mk a s' => cases a <;> rfl

@[simp] theorem alone_caught (p : Asking Q A ε ρ) (s : σ) :
    alone answer p.caught s = (.ok (alone answer p s).1, (alone answer p s).2) := by
  induction p generalizing s with
  | returns r => rfl
  | throws e => rfl
  | ask q next ih => exact ih (answer q s).1 (answer q s).2

end

/-! ### Reading -/

section

variable {answer : (q : Q) → σ → Except ε (A q) × σ}

/-- The function leaves every state as it is, and comes to the same in all of them. -/
def Reads (answer : (q : Q) → σ → Except ε (A q) × σ) (p : Asking Q A ε ρ) (x : Except ε ρ) :
    Prop :=
  ∀ s, p.alone answer s = (x, s)

theorem Reads.pure (r : ρ) : Reads answer (pure r) (pure r) := fun _ => rfl

theorem Reads.throws (e : ε) : Reads answer (throws e : Asking Q A ε ρ) (.error e) := fun _ => rfl

theorem Reads.bind {p : Asking Q A ε ρ} {x : Except ε ρ} {f : ρ → Asking Q A ε ρ'}
    {g : ρ → Except ε ρ'} (reads : Reads answer p x) (next : ∀ r, Reads answer (f r) (g r)) :
    Reads answer (p >>= f) (x >>= g) := by
  intro s
  rw [alone_bind, reads s]
  cases x with
  | error e => rfl
  | ok r => exact next r s

theorem Reads.ite {c : Prop} [Decidable c] {p p' : Asking Q A ε ρ} {x x' : Except ε ρ}
    (yes : Reads answer p x) (no : Reads answer p' x') :
    Reads answer (if c then p else p') (if c then x else x') := by
  split
  · exact yes
  · exact no

end

/-! ### Rules for asking -/

/-- Which questions are allowed, by what is known from the questions before. -/
structure Protocol (Q : Type) (A : Q → Type) (ε K : Type) where
  may : K → Q → Prop
  learn : K → (q : Q) → Except ε (A q) → K

variable {K : Type}

/-- The function keeps to the protocol, whatever it is answered. -/
def Keeps (rules : Protocol Q A ε K) : K → Asking Q A ε ρ → Prop
  | _, returns _ => True
  | _, throws _ => True
  | k, ask q next => rules.may k q ∧ ∀ a, Keeps rules (rules.learn k q a) (next a)

variable {rules : Protocol Q A ε K}

theorem Keeps.bind {p : Asking Q A ε ρ} {f : ρ → Asking Q A ε ρ'} {k : K} (keeps : Keeps rules k p)
    (then_ : ∀ k' r, Keeps rules k' (f r)) : Keeps rules k (p >>= f) := by
  -- over the questions; the second part starts from whatever is known then
  induction p generalizing k with
  | returns r => exact then_ k r
  | throws e => trivial
  | ask q next ih => exact ⟨keeps.1, fun a => ih a (keeps.2 a)⟩

theorem Keeps.await {k : K} {q : Q} (may : rules.may k q) :
    Keeps rules k (await q : Asking Q A ε (A q)) :=
  ⟨may, fun a => by cases a <;> trivial⟩

theorem Keeps.caught {p : Asking Q A ε ρ} {k : K} (keeps : Keeps rules k p) :
    Keeps rules k p.caught := by
  induction p generalizing k with
  | returns r => trivial
  | throws e => trivial
  | ask q next ih => exact ⟨keeps.1, fun a => ih a (keeps.2 a)⟩

/-- Before one who answers so that what is known stays true, what it implies holds after each
stretch. -/
theorem Keeps.always {answer : (q : Q) → σ → Except ε (A q) × σ} {knows : K → σ → Prop}
    {inv : σ → Prop} (implies : ∀ k s, knows k s → inv s)
    (sound : ∀ k q s, knows k s → rules.may k q →
      knows (rules.learn k q (answer q s).1) (answer q s).2)
    {p : Asking Q A ε ρ} {k : K} (keeps : Keeps rules k p) {s : σ} (known : knows k s) :
    (p.task answer).Always inv s := by
  -- stretch by stretch: a sound answer makes what is learnt true
  induction p generalizing k s with
  | returns r => exact implies k s known
  | throws e => exact implies k s known
  | ask q next ih =>
    have next_known := sound k q s known keeps.1
    exact ⟨implies _ _ next_known, ih _ (keeps.2 _) next_known⟩

end Asking

end Js
