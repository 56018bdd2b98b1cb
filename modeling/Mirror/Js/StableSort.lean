import Mathlib.Data.List.Sort
import Mathlib.Order.Defs.LinearOrder

/-!
Sorting by a key. The sort is stable: elements that share their key keep their order, and apart from
that the result does not depend on how they were listed.
-/
namespace Js

section

variable {α β K : Type} [LinearOrder K] (key : α → K)

/-- In the order of their keys. -/
def sortOn (as : List α) : List α := as.insertionSort fun a b => key a ≤ key b

/-- The elements that have this key. -/
def withKey (k : K) (as : List α) : List α := as.filter fun a => key a = k

variable {key} {a : α} {k : K}

theorem withKey_cons_pos (same : key a = k) (as : List α) :
    withKey key k (a :: as) = a :: withKey key k as :=
  List.filter_cons_of_pos (decide_eq_true same)

theorem withKey_cons_neg (other : key a ≠ k) (as : List α) :
    withKey key k (a :: as) = withKey key k as :=
  List.filter_cons_of_neg (by simpa using other)

theorem mem_withKey {as : List α} : a ∈ withKey key k as ↔ a ∈ as ∧ key a = k := by
  simp [withKey]

theorem withKey_map (f : α → K × β) (as : List α) :
    withKey Prod.fst k (as.map f) = (withKey (fun a => (f a).1) k as).map f :=
  List.filter_map

theorem sortOn_perm (as : List α) : (sortOn key as).Perm as := List.perm_insertionSort _ as

theorem sortOn_perm_of_perm {as bs : List α} (perm : as.Perm bs) :
    (sortOn key as).Perm (sortOn key bs) :=
  (sortOn_perm as).trans (perm.trans (sortOn_perm bs).symm)

theorem sortOn_sorted (as : List α) : (sortOn key as).Pairwise fun a b => key a ≤ key b := by
  have : Std.Total fun a b : α => key a ≤ key b := ⟨fun a b => le_total (key a) (key b)⟩
  have : IsTrans α fun a b => key a ≤ key b := ⟨fun _ _ _ => le_trans⟩
  exact List.pairwise_insertionSort _ as

/-- Elements that share their key keep their order. -/
theorem withKey_sortOn (as : List α) (k : K) :
    withKey key k (sortOn key as) = withKey key k as := by
  -- they are in order already, so that they are a part of the result
  have ordered : (withKey key k as).Pairwise fun a b => key a ≤ key b := by
    refine List.pairwise_of_forall_mem_list fun a ha b hb => ?_
    rw [(mem_withKey.mp ha).2, (mem_withKey.mp hb).2]
  have kept : (withKey key k as).Sublist (sortOn key as) :=
    List.sublist_insertionSort ordered List.filter_sublist
  have part : (withKey key k as).Sublist (withKey key k (sortOn key as)) := by
    have twice : withKey key k (withKey key k as) = withKey key k as := by
      simp [withKey, List.filter_filter]
    rw [← twice]
    exact kept.filter _
  exact (part.eq_of_length ((sortOn_perm as).filter _).length_eq.symm).symm

/-- Sorted lists are the same if they have the same elements of every key, in the same order. -/
theorem eq_of_sorted {as bs : List α} (sorted : as.Pairwise fun a b => key a ≤ key b)
    (sorted' : bs.Pairwise fun a b => key a ≤ key b)
    (same : ∀ k, withKey key k as = withKey key k bs) : as = bs := by
  induction as generalizing bs with
  | nil =>
    cases bs with
    | nil => rfl
    | cons b bs =>
      have none := same (key b)
      rw [withKey_cons_pos rfl] at none
      cases none
  | cons a as ih =>
    cases bs with
    | nil =>
      have none := same (key a)
      rw [withKey_cons_pos rfl] at none
      cases none
    | cons b bs =>
      rw [List.pairwise_cons] at sorted sorted'
      -- each of the two begins with a least key of both, since the other's first is among it
      have least {x y : α} {xs ys : List α} (sorted : ∀ z ∈ xs, key x ≤ key z)
          (same : withKey key (key y) (x :: xs) = withKey key (key y) (y :: ys)) :
          key x ≤ key y := by
        have member : y ∈ withKey key (key y) (x :: xs) := by
          rw [same, withKey_cons_pos rfl]
          exact List.mem_cons_self
        rcases List.mem_cons.mp (mem_withKey.mp member).1 with first | later
        · rw [first]
        · exact sorted y later
      have keys : key a = key b := le_antisymm (least sorted.1 (same (key b)))
        (least sorted'.1 (same (key a)).symm)
      have heads := same (key b)
      rw [withKey_cons_pos keys, withKey_cons_pos rfl] at heads
      obtain ⟨first, rest⟩ := List.cons.inj heads
      subst first
      refine congrArg (a :: ·) (ih sorted.2 sorted'.2 fun k => ?_)
      by_cases here : key a = k
      · rw [← here]
        exact rest
      · rw [← withKey_cons_neg here as, ← withKey_cons_neg here bs]
        exact same k

/-- What is read off the sorted elements depends on the order of those that share their key only. -/
theorem map_sortOn_eq {f : α → β} {as bs : List α}
    (same : ∀ k, (withKey key k as).map f = (withKey key k bs).map f) :
    (sortOn key as).map (fun a => (key a, f a)) = (sortOn key bs).map fun a => (key a, f a) := by
  have sorted (as : List α) : ((sortOn key as).map fun a => (key a, f a)).Pairwise
      fun a b => a.1 ≤ b.1 := List.pairwise_map.mpr (sortOn_sorted as)
  -- of one key the elements are given by what is read off them
  have read (as : List α) (k : K) :
      withKey Prod.fst k ((sortOn key as).map fun a => (key a, f a)) =
        ((withKey key k as).map f).map fun b => (k, b) := by
    rw [withKey_map, List.map_map, withKey_sortOn]
    exact List.map_congr_left fun a member => Prod.ext (mem_withKey.mp member).2 rfl
  refine eq_of_sorted (sorted as) (sorted bs) fun k => ?_
  rw [read, read, same]

end

end Js
