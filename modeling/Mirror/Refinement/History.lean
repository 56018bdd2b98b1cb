import Mirror.Escrow.Book
import Mirror.Refinement.Record

/-!
The chain's history against the record: open executions are the live fills, and while fill ids
last each of them is used once.
-/
namespace Mirror

open Evm

variable {D : Deployment}

/-- Either the transaction reverts and leaves a receipt, or it goes through. -/
theorem Chain.step_cases (c : Chain D) (tx : Tx D) :
    (∃ e, tx.perform c.sys = .error e ∧ c.step tx = ⟨c.sys, ⟨tx, .reverted⟩ :: c.history⟩) ∨
      ∃ s o, tx.perform c.sys = .ok (s, o) ∧ c.step tx = ⟨s, ⟨tx, o⟩ :: c.history⟩ := by
  unfold Chain.step
  cases result : tx.perform c.sys with
  | error e => exact .inl ⟨e, rfl, rfl⟩
  | ok r => exact .inr ⟨r.1, r.2, rfl, rfl⟩

/-- Every step adds one receipt, and the record changes as its outcome says. -/
theorem Chain.step_records (c : Chain D) (tx : Tx D) :
    ∃ o, (c.step tx).history = ⟨tx, o⟩ :: c.history ∧
      Records c.sys.sender (c.step tx).sys.sender o := by
  rcases c.step_cases tx with ⟨e, -, stepped⟩ | ⟨s, o, performed, stepped⟩
  · rw [stepped]
    exact ⟨.reverted, rfl, .refl _⟩
  · rw [stepped]
    exact ⟨o, rfl, Tx.perform_records performed⟩

/-- Erasing the first match of one predicate does not hide what another one finds. -/
theorem find?_eraseP_disjoint {α : Type} (p q : α → Bool) (l : List α)
    (disjoint : ∀ x, p x = true → q x = false) : (l.eraseP p).find? q = l.find? q := by
  -- induction on the list; what is erased was no match of `q`
  induction l with
  | nil => rfl
  | cons a l ih =>
    cases ha : p a with
    | true =>
      rw [List.eraseP_cons_of_pos ha, List.find?_cons_of_neg (by simp [disjoint a ha])]
    | false =>
      rw [List.eraseP_cons_of_neg (by simp [ha]), List.find?_cons, List.find?_cons, ih]

namespace Chain

/-- A live fill is the newest open execution of its id. -/
def Stored (c : Chain D) : Prop :=
  ∀ i, (c.sys.sender.pendingFills i).live = true →
    ∃ e, (openExecutions c.history).find? (fun e => e.fillId = i) = some e ∧
      e.fill = c.sys.sender.pendingFills i

/-- While ids last: the fills are those below `nextFillId`, and summing over the live ones is
summing over the open executions. -/
structure Numbered (c : Chain D) : Prop where
  next : c.sys.sender.nextFillId.val = fillCount c.history
  found : ∀ i, (c.sys.sender.pendingFills i).exists_ = true ↔ i < c.sys.sender.nextFillId
  total : ∀ g : PendingFill → ℕ,
    ∑ i, (if (c.sys.sender.pendingFills i).live then g (c.sys.sender.pendingFills i) else 0) =
      ((openExecutions c.history).map fun e => g e.fill).sum

theorem stored_step (c : Chain D) (tx : Tx D) (stored : c.Stored) : (c.step tx).Stored := by
  obtain ⟨o, history, records⟩ := c.step_records tx
  intro i hi
  rw [history]
  cases o with
  | reverted | done | accrued =>
    rw [records.fills] at hi ⊢
    exact stored i hi
  | matched e =>
    obtain ⟨id, -, -, fills, -⟩ := records
    rw [fills] at hi ⊢
    -- the new fill is found first, under its id; other ids see the old list
    by_cases here : i = c.sys.sender.nextFillId
    · subst here
      exact ⟨e, List.find?_cons_of_pos (by simpa using id), by simp⟩
    · rw [Function.update_of_ne here] at hi ⊢
      obtain ⟨e', first, same⟩ := stored i hi
      refine ⟨e', ?_, same⟩
      rw [openExecutions, List.find?_cons_of_neg (by simpa [id] using Ne.symm here)]
      exact first
  | settled j proof fees =>
    obtain ⟨-, -, written⟩ := records
    rw [written] at hi ⊢
    simp only [InstructionSender.markSettled] at hi ⊢
    by_cases here : i = j
    · subst here
      -- the fill just settled is not live
      simp [PendingFill.live] at hi
    · rw [Function.update_of_ne here] at hi ⊢
      obtain ⟨e', first, same⟩ := stored i hi
      refine ⟨e', ?_, same⟩
      have apart : ∀ e : Execution,
          decide (e.fillId = j) = true → decide (e.fillId = i) = false := by
        intro e found
        have id : e.fillId = j := by simpa using found
        simp [id, Ne.symm here]
      rw [openExecutions, find?_eraseP_disjoint _ _ _ apart]
      exact first

theorem fillCount_step (c : Chain D) (tx : Tx D) :
    fillCount c.history ≤ fillCount (c.step tx).history := by
  obtain ⟨o, history, -⟩ := c.step_records tx
  rw [history]
  cases o <;> simp [fillCount]

theorem numbered_step (c : Chain D) (tx : Tx D) (stored : c.Stored) (numbered : c.Numbered)
    (few : fillCount (c.step tx).history < 2 ^ 256) : (c.step tx).Numbered := by
  obtain ⟨o, history, records⟩ := c.step_records tx
  obtain ⟨next, found, total⟩ := numbered
  cases o with
  | reverted | done | accrued =>
    obtain ⟨fills, same, -⟩ := records
    refine ⟨?_, ?_, ?_⟩
    · rw [same, history]
      exact next
    · rw [fills, same]
      exact found
    · rw [fills, history]
      exact total
  | matched e =>
    obtain ⟨-, live, counted, fills, -⟩ := records
    simp only [history, fillCount] at few
    -- ids have not run out, so the next one does not wrap around
    have bound : (c.sys.sender.nextFillId + 1).val = c.sys.sender.nextFillId.val + 1 := by
      rw [Fin.val_add_one_of_lt' (by omega)]
    -- the new id is free, so nothing is overwritten
    have free : (c.sys.sender.pendingFills c.sys.sender.nextFillId).live = false := by
      have absent := (found c.sys.sender.nextFillId).not.mpr (lt_irrefl _)
      simp [PendingFill.live, absent]
    refine ⟨?_, fun i => ?_, fun g => ?_⟩
    · rw [counted, bound, next, history]
      rfl
    · rw [counted, fills, Fin.lt_def, bound]
      by_cases here : i = c.sys.sender.nextFillId
      · subst here
        simp only [PendingFill.live, Bool.and_eq_true] at live
        simp [live.1]
      · rw [Function.update_of_ne here, found, Fin.lt_def]
        have := Fin.val_ne_of_ne here
        omega
    · rw [fills, history, openExecutions, List.map_cons, List.sum_cons, ← total g]
      -- one summand appears in storage, one at the head of the list
      have added := sum_comp_update (fun fill : PendingFill => if fill.live then g fill else 0)
        c.sys.sender.pendingFills c.sys.sender.nextFillId e.fill
      simp only [free, live, Bool.false_eq_true, if_false, if_true, add_zero] at added
      rw [added, add_comm]
  | settled j proof fees =>
    obtain ⟨live, -, written⟩ := records
    obtain ⟨e, first, same⟩ := stored j live
    refine ⟨?_, fun i => ?_, fun g => ?_⟩
    · rw [written, history]
      exact next
    · rw [written]
      simp only [InstructionSender.markSettled]
      rw [← found i]
      by_cases here : i = j
      · subst here
        simp
      · rw [Function.update_of_ne here]
    -- the settled fill leaves both sums
    · have erased := Escrow.sum_map_eraseP (fun e : Execution => g e.fill) _ _ _ first
      have removed := sum_comp_update (fun fill : PendingFill => if fill.live then g fill else 0)
        c.sys.sender.pendingFills j { c.sys.sender.pendingFills j with settled := true }
      have closed : { c.sys.sender.pendingFills j with settled := true }.live = false := by
        simp [PendingFill.live]
      rw [total g, ← erased, same] at removed
      simp only [live, closed, if_true, Bool.false_eq_true, if_false, add_zero,
        Nat.add_right_cancel_iff] at removed
      rw [written, history, openExecutions, ← removed]
      rfl

theorem fillCount_run (c : Chain D) (txs : List (Tx D)) :
    fillCount c.history ≤ fillCount (run Chain.step c txs).history := by
  induction txs generalizing c with
  | nil => exact le_rfl
  | cons tx txs ih => exact (c.fillCount_step tx).trans (ih (c.step tx))

/-- The step leaves ids to spare. -/
def Few (c : Chain D) (tx : Tx D) : Prop := fillCount (c.step tx).history < 2 ^ 256

/-- Enough ids at the end of a run were enough all along. -/
theorem few_run (c : Chain D) (txs : List (Tx D))
    (few : fillCount (run Chain.step c txs).history < 2 ^ 256) :
    Admissible Chain.step Few c txs := by
  -- ids are only used up along the run
  induction txs generalizing c with
  | nil => trivial
  | cons tx txs ih => exact ⟨lt_of_le_of_lt ((c.step tx).fillCount_run txs) few, ih (c.step tx) few⟩

theorem numbered_run (c : Chain D) (txs : List (Tx D)) (stored : c.Stored) (numbered : c.Numbered)
    (few : fillCount (run Chain.step c txs).history < 2 ^ 256) :
    (run Chain.step c txs).Numbered := by
  have kept (c : Chain D) (tx : Tx D) (inv : c.Stored ∧ c.Numbered) (few : c.Few tx) :
      (c.step tx).Stored ∧ (c.step tx).Numbered :=
    ⟨c.stored_step tx inv.1, c.numbered_step tx inv.1 inv.2 few⟩
  exact (run_invariant kept c ⟨stored, numbered⟩ txs (c.few_run txs few)).2

end Chain

end Mirror
