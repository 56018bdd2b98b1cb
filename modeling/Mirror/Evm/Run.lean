import Mathlib.Algebra.Order.Monoid.Defs
import Mathlib.Tactic.Common
import Mathlib.Tactic.GCongr

/-! Runs of a deterministic transition function, under a condition on every step. -/
namespace Evm

section Run

variable {S L M : Type} (step : S → L → S)

/-- The state after the labels are applied in order. -/
def run : S → List L → S
  | s, [] => s
  | s, l :: ls => run (step s l) ls

/-- Every step of the run meets `allow`, judged on the state before it. -/
def Admissible (allow : S → L → Prop) : S → List L → Prop
  | _, [] => True
  | s, l :: ls => allow s l ∧ Admissible allow (step s l) ls

instance Admissible.decidable (allow : S → L → Prop) [∀ s l, Decidable (allow s l)] :
    ∀ (s : S) (ls : List L), Decidable (Admissible step allow s ls)
  | _, [] => inferInstanceAs (Decidable True)
  | s, l :: ls =>
    have := Admissible.decidable allow (step s l) ls
    inferInstanceAs (Decidable (allow s l ∧ Admissible step allow (step s l) ls))

/-- The sum of what `f` reads off every step of the run. -/
def accumulate [AddMonoid M] (f : S → L → M) : S → List L → M
  | _, [] => 0
  | s, l :: ls => f s l + accumulate f (step s l) ls

variable {step}

@[simp] theorem run_nil (s : S) : run step s [] = s := rfl

@[simp] theorem run_cons (s : S) (l : L) (ls : List L) :
    run step s (l :: ls) = run step (step s l) ls := rfl

theorem run_append (s : S) (ls ms : List L) :
    run step s (ls ++ ms) = run step (run step s ls) ms := by
  induction ls generalizing s with
  | nil => rfl
  | cons l ls ih => exact ih (step s l)

theorem admissible_append (allow : S → L → Prop) (s : S) (ls ms : List L) :
    Admissible step allow s (ls ++ ms) ↔
      Admissible step allow s ls ∧ Admissible step allow (run step s ls) ms := by
  induction ls generalizing s with
  | nil => simp [Admissible]
  | cons l ls ih => simp only [List.cons_append, Admissible, ih, run_cons, and_assoc]

theorem admissible_and (allow allow' : S → L → Prop) (s : S) (ls : List L) :
    Admissible step (fun s l => allow s l ∧ allow' s l) s ls ↔
      Admissible step allow s ls ∧ Admissible step allow' s ls := by
  induction ls generalizing s with
  | nil => simp [Admissible]
  | cons l ls ih =>
    simp only [Admissible, ih]
    tauto

/-- What holds at the start and is kept by every allowed step holds after every run. -/
theorem run_invariant {allow : S → L → Prop} {inv : S → Prop}
    (kept : ∀ s l, inv s → allow s l → inv (step s l))
    (s : S) (start : inv s) (ls : List L) (h : Admissible step allow s ls) :
    inv (run step s ls) := by
  induction ls generalizing s with
  | nil => exact start
  | cons l ls ih => exact ih _ (kept s l start h.1) h.2

/-- What holds at the start and is kept by every step holds after every run. -/
theorem run_keeps {inv : S → Prop} (kept : ∀ s l, inv s → inv (step s l)) (s : S)
    (start : inv s) (ls : List L) : inv (run step s ls) := by
  induction ls generalizing s with
  | nil => exact start
  | cons l ls ih => exact ih _ (kept s l start)

/-- What holds of every step under an allowed label holds of every step of a run of them. -/
theorem admissible_of_forall {allow : L → Prop} {holds : S → L → Prop}
    (sound : ∀ s l, allow l → holds s l) (s : S) (ls : List L) (h : ∀ l ∈ ls, allow l) :
    Admissible step holds s ls := by
  induction ls generalizing s with
  | nil => trivial
  | cons l ls ih =>
    rw [List.forall_mem_cons] at h
    exact ⟨sound s l h.1, ih _ h.2⟩

/-- What holds of every allowed step from a state that meets the invariant holds of every step. -/
theorem run_admissible {allow holds : S → L → Prop} {inv : S → Prop}
    (kept : ∀ s l, inv s → allow s l → inv (step s l))
    (sound : ∀ s l, inv s → allow s l → holds s l)
    (s : S) (start : inv s) (ls : List L) (h : Admissible step allow s ls) :
    Admissible step holds s ls := by
  induction ls generalizing s with
  | nil => trivial
  | cons l ls ih => exact ⟨sound s l start h.1, ih _ (kept s l start h.1) h.2⟩

/-- What holds of every step from a state that meets the invariant holds of every step. -/
theorem run_always {holds : S → L → Prop} {inv : S → Prop}
    (kept : ∀ s l, inv s → inv (step s l)) (sound : ∀ s l, inv s → holds s l)
    (s : S) (start : inv s) (ls : List L) : Admissible step holds s ls := by
  induction ls generalizing s with
  | nil => trivial
  | cons l ls ih => exact ⟨sound s l start, ih _ (kept s l start)⟩

/-- Where a step that `holds` and keeps `inv` is exactly one that is allowed, so is a run. -/
theorem run_holds_iff {allow holds : S → L → Prop} {inv : S → Prop}
    (exact : ∀ s l, inv s → (holds s l ∧ inv (step s l) ↔ allow s l))
    (s : S) (start : inv s) (ls : List L) :
    (Admissible step holds s ls ∧ ∀ done, done <+: ls → inv (run step s done)) ↔
      Admissible step allow s ls := by
  induction ls generalizing s with
  | nil =>
    simp only [List.prefix_nil, forall_eq, run_nil, Admissible, true_and, iff_true]
    exact start
  | cons l ls ih =>
    constructor
    -- the prefix of one step shows that it is allowed, longer ones are runs from there
    · rintro ⟨⟨here, later⟩, safe⟩
      have next : inv (step s l) := safe [l] (List.prefix_append [l] ls)
      refine ⟨(exact s l start).mp ⟨here, next⟩, (ih _ next).mp ⟨later, fun done h => ?_⟩⟩
      exact safe (l :: done) (List.prefix_cons_inj l |>.mpr h)
    · rintro ⟨allowed, rest⟩
      obtain ⟨here, next⟩ := (exact s l start).mpr allowed
      obtain ⟨later, safe⟩ := (ih _ next).mpr rest
      refine ⟨⟨here, later⟩, fun done h => ?_⟩
      rcases List.prefix_cons_iff.mp h with rfl | ⟨tail, rfl, htail⟩
      · exact start
      · exact safe tail htail

/-- Where a step keeps `inv` exactly when it is allowed, so does every initial part of a run. -/
theorem run_invariant_iff {allow : S → L → Prop} {inv : S → Prop}
    (exact : ∀ s l, inv s → (inv (step s l) ↔ allow s l))
    (s : S) (start : inv s) (ls : List L) :
    (∀ done, done <+: ls → inv (run step s done)) ↔ Admissible step allow s ls := by
  have each : ∀ s l, inv s → (True ∧ inv (step s l) ↔ allow s l) := fun s l here =>
    (and_iff_right trivial).trans (exact s l here)
  have every : Admissible step (fun _ _ => True) s ls :=
    admissible_of_forall (fun _ _ _ => trivial) s ls fun _ _ => trivial
  rw [← run_holds_iff each s start ls]
  exact (and_iff_right every).symm

/-- A system over another one, whose steps it shows through `view`, has the same runs there. -/
theorem admissible_view {S' : Type} {step' : S' → L → S'} {view : S' → S}
    (shown : ∀ s l, view (step' s l) = step (view s) l) (holds : S → L → Prop) (s : S')
    (ls : List L) : Admissible step' (fun s l => holds (view s) l) s ls ↔
      Admissible step holds (view s) ls := by
  induction ls generalizing s with
  | nil => exact Iff.rfl
  | cons l ls ih => rw [Admissible, ih, shown, Admissible]

/-- While what is observed stays as it was, so does what every step keeps under that condition. -/
theorem run_steady {O : Type} (obs : S → O) (holds : S → Prop) {inv : S → Prop}
    (kept : ∀ s l, inv s → inv (step s l))
    (sound : ∀ s l, inv s → obs (step s l) = obs s → holds s → holds (step s l))
    (s : S) (start : inv s) (ls : List L)
    (steady : ∀ done, done <+: ls → obs (run step s done) = obs s) (here : holds s) :
    holds (run step s ls) := by
  induction ls generalizing s with
  | nil => exact here
  | cons l ls ih =>
    have same : obs (step s l) = obs s := steady [l] (List.prefix_append [l] ls)
    refine ih _ (kept s l start) (fun done h => ?_) (sound s l start same here)
    rw [same]
    exact steady (l :: done) (List.prefix_cons_inj l |>.mpr h)

/-- A reflexive and transitive relation between the ends of each step relates the ends of a run. -/
theorem run_relates {allow : S → L → Prop} {inv : S → Prop} {rel : S → S → Prop}
    (refl : ∀ s, rel s s) (trans : ∀ a b c, rel a b → rel b c → rel a c)
    (kept : ∀ s l, inv s → allow s l → inv (step s l))
    (related : ∀ s l, inv s → allow s l → rel s (step s l))
    (s : S) (start : inv s) (ls : List L) (h : Admissible step allow s ls) :
    rel s (run step s ls) := by
  induction ls generalizing s with
  | nil => exact refl s
  | cons l ls ih =>
    exact trans _ _ _ (related s l start h.1) (ih _ (kept s l start h.1) h.2)

/-- Two systems that every allowed label keeps related are related after a run of such labels. -/
theorem run_simulates {S' : Type} {step' : S' → L → S'} {allow : L → Prop} {rel : S → S' → Prop}
    (kept : ∀ s s' l, rel s s' → allow l → rel (step s l) (step' s' l)) (s : S) (s' : S')
    (start : rel s s') (ls : List L) (h : ∀ l ∈ ls, allow l) :
    rel (run step s ls) (run step' s' ls) := by
  induction ls generalizing s s' with
  | nil => exact start
  | cons l ls ih =>
    rw [List.forall_mem_cons] at h
    exact ih _ _ (kept s s' l start h.1) h.2

/-- A quantity that every step raises by `f` ends at its start plus what the run accumulated. -/
theorem run_accumulates [AddMonoid M] {allow : S → L → Prop} {inv : S → Prop}
    {f : S → L → M} {g : S → M}
    (kept : ∀ s l, inv s → allow s l → inv (step s l))
    (moves : ∀ s l, inv s → allow s l → g (step s l) = g s + f s l)
    (s : S) (start : inv s) (ls : List L) (h : Admissible step allow s ls) :
    g (run step s ls) = g s + accumulate step f s ls := by
  induction ls generalizing s with
  | nil => simp [accumulate]
  | cons l ls ih =>
    rw [run_cons, ih _ (kept s l start h.1) h.2, moves s l start h.1, accumulate, add_assoc]

/-- As `run_accumulates`, where every step is allowed. -/
theorem run_tallies [AddMonoid M] (f : S → L → M) (g : S → M)
    (moves : ∀ s l, g (step s l) = g s + f s l) (s : S) (ls : List L) :
    g (run step s ls) = g s + accumulate step f s ls := by
  induction ls generalizing s with
  | nil => simp [accumulate]
  | cons l ls ih => rw [run_cons, ih, moves, accumulate, add_assoc]

/-- As `run_accumulates`, where every step from a state that meets the invariant is allowed. -/
theorem run_gains [AddMonoid M] {inv : S → Prop} {f : S → L → M} {g : S → M}
    (kept : ∀ s l, inv s → inv (step s l)) (moves : ∀ s l, inv s → g (step s l) = g s + f s l)
    (s : S) (start : inv s) (ls : List L) : g (run step s ls) = g s + accumulate step f s ls := by
  induction ls generalizing s with
  | nil => simp [accumulate]
  | cons l ls ih => rw [run_cons, ih _ (kept s l start), moves s l start, accumulate, add_assoc]

/-- A quantity that every step raises by at most `f` ends at most that much higher. -/
theorem run_bounded [AddCommMonoid M] [PartialOrder M] [IsOrderedAddMonoid M]
    {allow : S → L → Prop} {f : S → L → M} {g : S → M}
    (moves : ∀ s l, allow s l → g (step s l) ≤ g s + f s l)
    (s : S) (ls : List L) (h : Admissible step allow s ls) :
    g (run step s ls) ≤ g s + accumulate step f s ls := by
  induction ls generalizing s with
  | nil => simp [accumulate]
  | cons l ls ih =>
    calc g (run step (step s l) ls)
        ≤ g (step s l) + accumulate step f (step s l) ls := ih _ h.2
      _ ≤ g s + f s l + accumulate step f (step s l) ls := by
        gcongr
        exact moves s l h.1
      _ = g s + accumulate step f s (l :: ls) := by rw [accumulate, add_assoc]

theorem accumulate_add [AddCommMonoid M] (f g : S → L → M) (s : S) (ls : List L) :
    accumulate step (fun s l => f s l + g s l) s ls =
      accumulate step f s ls + accumulate step g s ls := by
  induction ls generalizing s with
  | nil => exact (add_zero 0).symm
  | cons l ls ih =>
    simp only [accumulate, ih]
    exact add_add_add_comm _ _ _ _

theorem accumulate_sub [AddCommGroup M] (f g : S → L → M) (s : S) (ls : List L) :
    accumulate step (fun s l => f s l - g s l) s ls =
      accumulate step f s ls - accumulate step g s ls := by
  induction ls generalizing s with
  | nil => exact (sub_zero 0).symm
  | cons l ls ih =>
    simp only [accumulate, ih]
    exact sub_add_sub_comm _ _ _ _

end Run

end Evm
