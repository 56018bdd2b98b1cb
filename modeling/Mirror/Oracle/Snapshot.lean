import Mathlib.Algebra.Order.Group.Nat
import Mathlib.Order.Defs.LinearOrder
import Mirror.Evm.Run

/-!
A reference value that is taken over from the observations, at most once per interval. Nothing
compares the new value with the old one: what the reference can reach is what is observed.
-/
namespace Oracle

open Evm

structure Snapshot (V : Type) where
  value : V
  time : ℕ
  deriving DecidableEq

namespace Snapshot

variable {V : Type} (interval : ℕ)

/-- The observation comes late enough to replace the snapshot. -/
def Due (s o : Snapshot V) : Prop := s.time + interval ≤ o.time

instance (s o : Snapshot V) : Decidable (s.Due interval o) :=
  inferInstanceAs (Decidable (_ ≤ _))

def observe (s o : Snapshot V) : Snapshot V := if s.Due interval o then o else s

/-- How many of the observations replace the snapshot. -/
def updates (s : Snapshot V) (os : List (Snapshot V)) : ℕ :=
  accumulate (observe interval) (fun s o => if s.Due interval o then 1 else 0) s os

theorem observe_due {s o : Snapshot V} (due : s.Due interval o) : s.observe interval o = o :=
  if_pos due

theorem observe_early {s o : Snapshot V} (early : ¬s.Due interval o) :
    s.observe interval o = s :=
  if_neg early

/-- Every replacement takes an interval of the observed time. -/
theorem updates_spaced (s : Snapshot V) (os : List (Snapshot V)) :
    s.time + interval * s.updates interval os ≤ (run (observe interval) s os).time := by
  induction os generalizing s with
  | nil => exact Nat.le_refl _
  | cons o rest ih =>
    have later := ih (s.observe interval o)
    rw [run_cons, updates, accumulate, Nat.mul_add]
    rw [updates] at later
    by_cases due : s.Due interval o
    · rw [if_pos due]
      rw [observe_due interval due] at later ⊢
      have : s.time + interval ≤ o.time := due
      omega
    · rw [if_neg due]
      rw [observe_early interval due] at later ⊢
      omega

/-- The reference is where it was or at one of the observed values. -/
theorem run_observed (s : Snapshot V) (os : List (Snapshot V)) :
    run (observe interval) s os = s ∨ run (observe interval) s os ∈ os := by
  induction os generalizing s with
  | nil => exact .inl rfl
  | cons o rest ih =>
    rw [run_cons]
    rcases ih (s.observe interval o) with unmoved | moved
    · rw [unmoved]
      by_cases due : s.Due interval o
      · rw [observe_due interval due]
        exact .inr List.mem_cons_self
      · exact .inl (observe_early interval due)
    · exact .inr (List.mem_cons_of_mem _ moved)

end Snapshot

end Oracle
