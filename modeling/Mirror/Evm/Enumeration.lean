import Mathlib.Data.List.Induction
import Mathlib.Data.List.Nodup
import Mathlib.Logic.Function.Basic
import Mathlib.Tactic.Common

/-!
A relation that is kept twice: as a mapping, and as arrays that list who is related to whom. An
array that is only ever appended to follows a relation that only ever grows.
-/
namespace Evm

variable {A B : Type}

/-- One entry of a mapping of mappings is overwritten. -/
theorem update_update_apply {V : Type} [DecidableEq A] [DecidableEq B] (f : A → B → V) (a x : A)
    (b y : B) (v : V) :
    Function.update f a (Function.update (f a) b v) x y = if x = a ∧ y = b then v else f x y := by
  by_cases row : x = a
  · subst row
    rw [Function.update_self]
    by_cases column : y = b
    · subst column
      rw [Function.update_self, if_pos ⟨rfl, rfl⟩]
    · rw [Function.update_of_ne column, if_neg (fun both => column both.2)]
  · rw [Function.update_of_ne row, if_neg (fun both => row both.1)]

/-- The list holds each element that `p` accepts exactly once, and no other. -/
def Enumerates (p : A → Prop) (l : List A) : Prop := l.Nodup ∧ ∀ a, a ∈ l ↔ p a

/-- Every row and every column of the relation is listed. -/
structure Enumerated (rel : A → B → Prop) (rows : A → List B) (columns : B → List A) : Prop where
  row : ∀ a, Enumerates (rel a) (rows a)
  column : ∀ b, Enumerates (fun a => rel a b) (columns b)

theorem enumerates_nil {p : A → Prop} (empty : ∀ a, ¬p a) : Enumerates p [] := by
  refine ⟨List.nodup_nil, fun a => ?_⟩
  simp [empty a]

theorem Enumerates.congr {p q : A → Prop} {l : List A} (h : Enumerates p l)
    (same : ∀ a, p a ↔ q a) : Enumerates q l :=
  ⟨h.1, fun a => (h.2 a).trans (same a)⟩

/-- One more element is appended. -/
theorem Enumerates.append {p q : A → Prop} {l : List A} {new : A} (h : Enumerates p l)
    (fresh : ¬p new) (grown : ∀ a, q a ↔ p a ∨ a = new) : Enumerates q (l ++ [new]) := by
  have absent : new ∉ l := fun member => fresh ((h.2 new).mp member)
  constructor
  · rw [List.nodup_append]
    refine ⟨h.1, List.nodup_singleton new, ?_⟩
    rintro a member b single rfl
    exact absent (List.mem_singleton.mp single ▸ member)
  · intro a
    rw [List.mem_append, List.mem_singleton, h.2 a, grown a]

/-- An array to which an element is appended when it first appears lists the elements in the order
in which they first appeared. -/
theorem eraseDups_concat [DecidableEq A] (l : List A) (a : A) :
    (l ++ [a]).eraseDups = if a ∈ l then l.eraseDups else l.eraseDups ++ [a] := by
  rw [List.eraseDups_append]
  by_cases old : a ∈ l
  · simp [List.removeAll, old]
  · simp [List.removeAll, old, List.eraseDups_cons]

theorem enumerates_eraseDups [DecidableEq A] (l : List A) :
    Enumerates (fun a => a ∈ l) l.eraseDups := by
  induction l using List.reverseRecOn with
  | nil => exact enumerates_nil fun a => List.not_mem_nil
  | append_singleton l a ih =>
    have grown (x : A) : x ∈ l ++ [a] ↔ x ∈ l ∨ x = a := by simp
    rw [eraseDups_concat]
    by_cases old : a ∈ l
    · rw [if_pos old]
      refine ih.congr fun x => ?_
      rw [grown]
      exact ⟨Or.inl, fun h => h.elim id fun same => same ▸ old⟩
    · rw [if_neg old]
      exact ih.append old grown

section

variable {rel rel' : A → B → Prop} {rows : A → List B} {columns : B → List A} {a : A} {b : B}

/-- Appending `b` to the row of `a` adds one entry to one row. -/
theorem count_update_append [DecidableEq A] [DecidableEq B] (rows : A → List B) (a x : A)
    (b y : B) :
    (Function.update rows a (rows a ++ [b]) x).count y =
      (rows x).count y + if a = x ∧ b = y then 1 else 0 := by
  by_cases row : a = x
  · subst row
    rw [Function.update_self, List.count_append, List.count_singleton]
    simp
  · rw [Function.update_of_ne (Ne.symm row), if_neg (fun both => row both.1), Nat.add_zero]

/-- A pair that leaves the relation must leave the arrays. -/
theorem Enumerated.not_left_in (h : Enumerated rel rows columns) (related : rel a b)
    (left : ¬rel' a b) : ¬Enumerated rel' rows columns := by
  intro still
  -- the arrays still list `b` because they did
  have listed : b ∈ rows a := ((h.row a).2 b).mpr related
  exact left (((still.row a).2 b).mp listed)

variable [DecidableEq A] [DecidableEq B]

/-- Appending a new pair on both sides keeps both sides in step. -/
theorem Enumerated.add (h : Enumerated rel rows columns) (fresh : ¬rel a b)
    (grown : ∀ x y, rel' x y ↔ rel x y ∨ x = a ∧ y = b) :
    Enumerated rel' (Function.update rows a (rows a ++ [b]))
      (Function.update columns b (columns b ++ [a])) where
  row x := by
    -- only the row of `a` and the column of `b` have changed
    by_cases same : x = a
    · subst same
      rw [Function.update_self]
      refine (h.row x).append fresh fun y => ?_
      rw [grown x y, and_iff_right rfl]
    · rw [Function.update_of_ne same]
      refine (h.row x).congr fun y => ?_
      rw [grown x y, or_iff_left (fun new => same new.1)]
  column y := by
    by_cases same : y = b
    · subst same
      rw [Function.update_self]
      refine (h.column y).append fresh fun x => ?_
      rw [grown x y, and_iff_left rfl]
    · rw [Function.update_of_ne same]
      refine (h.column y).congr fun x => ?_
      rw [grown x y, or_iff_left (fun new => same new.2)]

end

end Evm
