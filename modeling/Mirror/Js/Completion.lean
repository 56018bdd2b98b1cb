import Mathlib.Data.List.Forall2
import Mathlib.Tactic.Common

/-!
How a function body can end: with a value for what follows, with an early `return`, or with a
thrown error that its caller sees. `Settles` is the weakest precondition of never throwing.
-/
namespace Js

/-- Ending before the end. -/
inductive Abrupt (ε ρ : Type)
  | thrown (e : ε)
  | returned (r : ρ)
  deriving DecidableEq

abbrev Completion (ε ρ α : Type) := Except (Abrupt ε ρ) α

namespace Completion

variable {ε ρ σ α β : Type}

def throwing (e : ε) : Completion ε ρ α := .error (.thrown e)

def returning (r : ρ) : Completion ε ρ α := .error (.returned r)

/-- `if (p) return r;`. -/
def returnIf (p : Prop) [Decidable p] (r : ρ) : Completion ε ρ Unit :=
  if p then returning r else .ok ()

def orThrow (x : Option α) (e : ε) : Completion ε ρ α :=
  match x with
  | some a => .ok a
  | none => throwing e

def orReturn (x : Option α) (r : ρ) : Completion ε ρ α :=
  match x with
  | some a => .ok a
  | none => returning r

@[simp] theorem throwing_bind (e : ε) (f : α → Completion ε ρ β) :
    throwing e >>= f = throwing e := rfl

theorem returnIf_bind (p : Prop) [Decidable p] (r : ρ) (f : Unit → Completion ε ρ β) :
    returnIf p r >>= f = if p then returning r else f () := by
  unfold returnIf
  split <;> rfl

@[simp] theorem orThrow_some (a : α) (e : ε) :
    orThrow (some a) e = (pure a : Completion ε ρ α) := rfl

@[simp] theorem orThrow_none (e : ε) : orThrow none e = (throwing e : Completion ε ρ α) := rfl

theorem orReturn_eq_ok {o : Option α} {r : ρ} {a : α} :
    (orReturn o r : Completion ε ρ α) = .ok a ↔ o = some a := by
  cases o <;> simp [orReturn, returning]

theorem returnIf_eq_ok {p : Prop} [Decidable p] {r : ρ} {u : Unit} :
    (returnIf p r : Completion ε ρ Unit) = .ok u ↔ ¬p := by
  unfold returnIf
  split <;> simp_all [returning]

/-- The call as its caller sees it: `finish` makes the value of the last `return`, `early` that of
an early one. -/
def toCall (finish : α → σ) (early : ρ → σ) (x : Completion ε ρ α) : Except ε σ :=
  match x with
  | .ok a => .ok (finish a)
  | .error (.returned r) => .ok (early r)
  | .error (.thrown e) => .error e

/-- The computation throws nothing, and what it yields meets the condition. -/
def Settles (x : Completion ε ρ α) (post : α → Prop) : Prop :=
  match x with
  | .ok a => post a
  | .error (.returned _) => True
  | .error (.thrown _) => False

instance (x : Completion ε ρ α) (post : α → Prop) [DecidablePred post] :
    Decidable (x.Settles post) :=
  match x with
  | .ok a => inferInstanceAs (Decidable (post a))
  | .error (.returned _) => inferInstanceAs (Decidable True)
  | .error (.thrown _) => inferInstanceAs (Decidable False)

variable {post : α → Prop}

@[simp] theorem settles_pure (a : α) : (pure a : Completion ε ρ α).Settles post ↔ post a :=
  Iff.rfl

theorem settles_bind (x : Completion ε ρ α) (f : α → Completion ε ρ β) (post : β → Prop) :
    Settles (x >>= f) post ↔ x.Settles fun a => (f a).Settles post := by
  cases x with
  | ok a => exact Iff.rfl
  | error e => cases e <;> exact Iff.rfl

@[simp] theorem settles_returning (r : ρ) : (returning r : Completion ε ρ α).Settles post :=
  trivial

@[simp] theorem settles_throwing (e : ε) : ¬(throwing e : Completion ε ρ α).Settles post :=
  id

theorem settles_returnIf (p : Prop) [Decidable p] (r : ρ) (post : Unit → Prop) :
    (returnIf p r : Completion ε ρ Unit).Settles post ↔ (¬p → post ()) := by
  unfold returnIf
  split
  next h => simp [h]
  next h =>
    simp only [h, not_false_eq_true, true_imp_iff]
    exact Iff.rfl

theorem settles_orThrow (x : Option α) (e : ε) :
    (orThrow x e : Completion ε ρ α).Settles post ↔ ∃ a, x = some a ∧ post a := by
  cases x with
  | none => simp [orThrow]
  | some a =>
    simp only [Option.some.injEq, exists_eq_left']
    exact Iff.rfl

theorem settles_orReturn (x : Option α) (r : ρ) :
    (orReturn x r : Completion ε ρ α).Settles post ↔ ∀ a, x = some a → post a := by
  cases x with
  | none => simp [orReturn]
  | some a =>
    simp only [Option.some.injEq, forall_eq']
    exact Iff.rfl

theorem settles_mono {x : Completion ε ρ α} {post' : α → Prop}
    (h : ∀ a, x = .ok a → post a → post' a) (settles : x.Settles post) : x.Settles post' := by
  match x, settles with
  | .ok a, met => exact h a rfl met
  | .error (.returned _), _ => trivial

theorem settles_iff (x : Completion ε ρ α) :
    x.Settles post ↔ (x.Settles fun _ => True) ∧ ∀ a, x = .ok a → post a := by
  match x with
  | .ok a => simp [Settles]
  | .error (.returned r) => simp [Settles]
  | .error (.thrown e) => simp [Settles]

/-! ### Loops -/

/-- A loop that reaches the end has passed every element. -/
theorem mapM_ok (f : α → Completion ε ρ β) (as : List α) (bs : List β) :
    as.mapM f = .ok bs ↔ List.Forall₂ (fun a b => f a = .ok b) as bs := by
  -- over the list: the first element, and then the loop over the others
  induction as generalizing bs with
  | nil =>
    rw [List.mapM_nil, List.forall₂_nil_left_iff]
    exact ⟨fun h => (Except.ok.inj h).symm, fun h => h ▸ rfl⟩
  | cons a as ih =>
    rw [List.mapM_cons, List.forall₂_cons_left_iff]
    simp only [← ih]
    constructor
    · intro h
      cases first : f a with
      | error e =>
        rw [first] at h
        cases h
      | ok b =>
        cases rest : as.mapM f with
        | error e =>
          rw [first, rest] at h
          cases h
        | ok later =>
          rw [first, rest] at h
          exact ⟨b, later, rfl, rfl, (Except.ok.inj h).symm⟩
    · rintro ⟨b, later, first, rest, rfl⟩
      rw [first, rest]
      rfl

/-- What a loop makes of its results can be made of them afterwards. -/
theorem mapM_return {γ : Type} (f : α → Completion ε ρ β) (g : β → γ) (as : List α) :
    (as.mapM fun a => do return g (← f a)) = do return (← as.mapM f).map g := by
  induction as with
  | nil => rfl
  | cons a as ih =>
    rw [List.mapM_cons, List.mapM_cons, ih]
    cases f a with
    | error e => rfl
    | ok b => cases as.mapM f <;> rfl

/-- A loop reaches the end exactly if it passes every element. -/
theorem mapM_isOk (f : α → Completion ε ρ β) (as : List α) :
    (∃ bs, as.mapM f = .ok bs) ↔ ∀ a ∈ as, ∃ b, f a = .ok b := by
  simp only [mapM_ok]
  induction as with
  | nil => exact ⟨fun _ _ member => (List.not_mem_nil member).elim, fun _ => ⟨[], .nil⟩⟩
  | cons a as ih =>
    rw [List.forall_mem_cons, ← ih]
    -- results of every element are a list of results
    constructor
    · rintro ⟨bs, passed⟩
      cases passed with
      | cons first rest => exact ⟨⟨_, first⟩, _, rest⟩
    · rintro ⟨⟨b, first⟩, bs, rest⟩
      exact ⟨b :: bs, .cons first rest⟩

/-- A loop over the list reaches the element if it gets through all that stand before it. -/
def Reached (passes : α → Prop) (as : List α) (a : α) : Prop :=
  ∃ before after, as = before ++ a :: after ∧ ∀ b ∈ before, passes b

/-- No element of the list throws that a loop over it reaches. -/
def EachSettles (f : α → Completion ε ρ β) (as : List α) : Prop :=
  ∀ a, Reached (fun b => ∃ c, f b = .ok c) as a → (f a).Settles fun _ => True

theorem not_reached_nil (passes : α → Prop) (a : α) : ¬Reached passes [] a := by
  rintro ⟨before, after, split, -⟩
  exact List.append_ne_nil_of_right_ne_nil before (List.cons_ne_nil a after) split.symm

theorem reached_head (passes : α → Prop) (a : α) (as : List α) : Reached passes (a :: as) a :=
  ⟨[], as, rfl, by simp⟩

theorem reached_cons {passes : α → Prop} {a : α} (passed : passes a) {as : List α} {b : α}
    (later : Reached passes as b) : Reached passes (a :: as) b := by
  obtain ⟨before, after, rfl, all⟩ := later
  exact ⟨a :: before, after, rfl, List.forall_mem_cons.mpr ⟨passed, all⟩⟩

theorem reached_map {passes : α → Prop} (g : β → α) (bs : List β) (a : α) :
    Reached passes (bs.map g) a ↔ ∃ b, Reached (fun b => passes (g b)) bs b ∧ g b = a := by
  constructor
  · rintro ⟨before, after, split, passed⟩
    obtain ⟨bs₁, bs₂, rfl, rfl, rest⟩ := List.map_eq_append_iff.mp split
    obtain ⟨b, bs₃, rfl, same, rfl⟩ := List.map_eq_cons_iff.mp rest
    exact ⟨b, ⟨bs₁, bs₃, rfl, List.forall_mem_map.mp passed⟩, same⟩
  · rintro ⟨b, ⟨before, after, rfl, passed⟩, rfl⟩
    exact ⟨before.map g, after.map g, by simp, List.forall_mem_map.mpr passed⟩

theorem eachSettles_cons (f : α → Completion ε ρ β) (a : α) (as : List α) :
    EachSettles f (a :: as) ↔ (f a).Settles fun _ => EachSettles f as := by
  constructor
  · intro each
    refine settles_mono (fun b ok _ x later => ?_) (each a (reached_head _ a as))
    exact each x (reached_cons ⟨b, ok⟩ later)
  · rintro settles x ⟨before, after, split, passed⟩
    -- the element itself is reached always, those behind it only if it is passed
    cases before with
    | nil =>
      obtain ⟨rfl, -⟩ := List.cons.inj split
      exact settles_mono (fun _ _ _ => trivial) settles
    | cons first before =>
      obtain ⟨rfl, rest⟩ := List.cons.inj split
      obtain ⟨⟨b, ok⟩, passed⟩ := List.forall_mem_cons.mp passed
      rw [ok] at settles
      exact settles x ⟨before, after, rest, passed⟩

/-- Where it is known what an element needs to throw nothing, and what to be passed, so is it of a
loop. -/
theorem eachSettles_iff {f : α → Completion ε ρ β} {safe passes : α → Prop}
    (settles : ∀ a, ((f a).Settles fun _ => True) ↔ safe a)
    (passed : ∀ a, (∃ b, f a = .ok b) ↔ passes a) (as : List α) :
    EachSettles f as ↔ ∀ a, Reached passes as a → safe a := by
  simp only [EachSettles, settles, passed]

/-- A loop throws nothing exactly if no element that it reaches does; its condition is about loops
that reach the end. -/
theorem settles_mapM (f : α → Completion ε ρ β) (as : List α) (post : List β → Prop) :
    (as.mapM f).Settles post ↔ EachSettles f as ∧ ∀ bs, as.mapM f = .ok bs → post bs := by
  induction as generalizing post with
  | nil =>
    rw [List.mapM_nil, settles_pure]
    simp [EachSettles, not_reached_nil, pure, Except.pure]
  | cons a as ih =>
    rw [List.mapM_cons, settles_bind, eachSettles_cons]
    -- the first element passes, ends the function early, or throws
    match h : f a with
    | .ok b =>
      have first : Settles (.ok b : Completion ε ρ β) (fun _ => EachSettles f as) ↔
          EachSettles f as := Iff.rfl
      have rest : Settles (.ok b : Completion ε ρ β)
            (fun b => Settles (do let bs ← as.mapM f; pure (b :: bs)) post) ↔
          Settles (do let bs ← as.mapM f; pure (b :: bs)) post := Iff.rfl
      rw [first, rest, settles_bind]
      simp only [settles_pure]
      rw [ih]
      refine and_congr_right fun _ => ?_
      cases as.mapM f <;> simp [bind, Except.bind, pure, Except.pure]
    | .error (.returned r) =>
      simp [Settles, bind, Except.bind]
    | .error (.thrown e) =>
      simp [Settles, bind, Except.bind]

end Completion

end Js
