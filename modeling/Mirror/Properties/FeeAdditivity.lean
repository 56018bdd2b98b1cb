import Mirror.Refinement.Readiness

/-!
Fees add up. What an accrual books and what a settlement pays is what `quoteNetFee` quotes, however
the accruals are ordered and cut into batches. Cutting one profit into parts moves the fee by the
rounding of the cuts.
-/
namespace Mirror

open Evm InstructionSender MirrorFee

variable {D : Deployment} {env : External} {caller : Address} {s s' : System}
  {registry : MirrorRegistry} {m : MirrorFee} {lead follower : Address}
  {profit epochId q : Uint256}

/-! ### The quote -/

/-- The quote fails on overflow only. -/
theorem quoteNetFee_ok (profitable : profit ≠ 0) (registered : (registry.leads lead).wallet ≠ 0) :
    quoteNetFee registry lead profit = .ok q ↔
      profit.val * (registry.leads lead).feeRateBps.val < 2 ^ 256 ∧
        q.val = netOf profit.val (registry.leads lead).feeRateBps.val := by
  have listed : ¬(registry.getLead lead).wallet = 0 := registered
  simp only [quoteNetFee, if_neg profitable, if_neg listed, bind_ok, grossFee_ok]
  simp only [MirrorRegistry.getLead]
  constructor
  · rintro ⟨gross, ⟨fits, hg⟩, quoted⟩
    refine ⟨fits, ?_⟩
    split at quoted
    -- a gross fee of 0 is quoted at once
    next zero =>
      rw [pure_ok] at quoted
      subst quoted
      rw [zero] at hg
      simp [netOf, ← hg]
    next nonzero =>
      simp only [bind_ok, protocolFee_ok, orRevert_ok, checkedSub_some] at quoted
      obtain ⟨protocol, ⟨-, hp⟩, rest⟩ := quoted
      simp only [netOf, ← hg]
      omega
  · rintro ⟨fits, hq⟩
    refine ⟨⟨_, by omega⟩, ⟨fits, rfl⟩, ?_⟩
    split
    next zero =>
      have none := congrArg Fin.val zero
      simp only [Fin.val_zero] at none
      rw [netOf, none] at hq
      exact (pure_ok _ _).mpr (Fin.ext hq.symm)
    next nonzero =>
      simp only [bind_ok, protocolFee_ok, orRevert_ok, checkedSub_some]
      refine ⟨⟨profit.val * (registry.leads lead).feeRateBps.val / 2000 * 1000 / 10000, by omega⟩,
        ⟨by omega, rfl⟩, ?_⟩
      simp only [hq, netOf]
      omega

/-- Nothing is due on no profit or to a lead that is not registered. -/
theorem quoteNetFee_idle (idle : profit = 0 ∨ (registry.leads lead).wallet = 0) :
    quoteNetFee registry lead profit = .ok 0 := by
  unfold quoteNetFee
  by_cases none : profit = 0
  · rw [if_pos none]
    rfl
  · have unlisted : (registry.getLead lead).wallet = 0 := idle.resolve_left none
    simp only [if_neg none, if_pos unlisted]
    rfl

/-- What an accrual books is the quote. -/
theorem accrueFee_quotes {a : Accrual}
    (h : m.accrueFee registry caller lead follower profit epochId = .ok a) :
    quoteNetFee registry lead profit = .ok a.netFee ∧
      ∃ accrued : Uint256, accrued.val = (m.accruedFees lead).val + a.netFee.val ∧
        a.fee = { m with accruedFees := Function.update m.accruedFees lead accrued } := by
  refine ⟨?_, accrueFee_adds h⟩
  obtain ⟨-, profitable, registered, fits, gross, hg, booked⟩ := accrueFee_ok.mp h
  rw [quoteNetFee_ok profitable registered]
  -- the same two cases as in the quote
  rcases booked with ⟨rfl, rfl⟩ | ⟨-, protocol, net, accrued, split, -, rfl⟩
  · have none := hg.symm
    simp only [Fin.val_zero] at none
    exact ⟨fits, by simp [netOf, none]⟩
  · exact ⟨fits, by rw [split.net_eq, netOf, hg]⟩

/-- What can be quoted can be booked, while there is room. -/
theorem accrueFee_succeeds (wired : caller = m.instructionSender)
    (quoted : quoteNetFee registry lead profit = .ok q)
    (room : (m.accruedFees lead).val + q.val < 2 ^ 256) :
    (∃ a, m.accrueFee registry caller lead follower profit epochId = .ok a) ↔
      profit ≠ 0 ∧ (registry.leads lead).wallet ≠ 0 := by
  constructor
  · rintro ⟨a, h⟩
    obtain ⟨-, profitable, registered, -⟩ := accrueFee_ok.mp h
    exact ⟨profitable, registered⟩
  · rintro ⟨profitable, registered⟩
    obtain ⟨fits, value⟩ := (quoteNetFee_ok profitable registered).mp quoted
    rw [value, netOf] at room
    obtain ⟨gross, protocol, net, total, hg, split, -, ht⟩ := exists_split (by omega) room
    by_cases nothing : gross = 0
    · exact ⟨_, accrueFee_ok.mpr
        ⟨wired, profitable, registered, fits, gross, hg, .inl ⟨nothing, rfl⟩⟩⟩
    · exact ⟨_, accrueFee_ok.mpr ⟨wired, profitable, registered, fits, gross, hg,
        .inr ⟨nothing, protocol, net, total, split, ht, rfl⟩⟩⟩

/-! ### Batches -/

/-- What `quoteNetFee` answers, nothing if it reverts. -/
def quoted (registry : MirrorRegistry) (lead : Address) (profit : Uint256) : ℕ :=
  match quoteNetFee registry lead profit with
  | .ok q => q.val
  | .error _ => 0

theorem quoted_eq (quote : quoteNetFee registry lead profit = .ok q) :
    quoted registry lead profit = q.val := by
  rw [quoted, quote]

/-- The sum of the quotes for one lead. -/
def owed (registry : MirrorRegistry) (accruals : List FeeAccrual) (lead : Address) : ℕ :=
  (accruals.map fun a => if a.lead = lead then quoted registry lead a.profit else 0).sum

theorem owed_cons (registry : MirrorRegistry) (a : FeeAccrual) (rest : List FeeAccrual)
    (lead : Address) : owed registry (a :: rest) lead =
      (if a.lead = lead then quoted registry lead a.profit else 0) + owed registry rest lead := by
  simp only [owed, List.map_cons, List.sum_cons]

theorem owed_append (registry : MirrorRegistry) (xs ys : List FeeAccrual) (lead : Address) :
    owed registry (xs ++ ys) lead = owed registry xs lead + owed registry ys lead := by
  simp only [owed, List.map_append, List.sum_append]

theorem owed_perm {xs ys : List FeeAccrual} (same : xs.Perm ys) (lead : Address) :
    owed registry xs lead = owed registry ys lead :=
  (same.map _).sum_eq

/-- Each lead is booked what it is owed, and nothing else is written. -/
structure System.Booked (accruals : List FeeAccrual) (s s' : System) : Prop where
  quotes : ∀ a ∈ accruals, ∃ q, quoteNetFee s.registry a.lead a.profit = .ok q
  fees : ∀ lead, (s'.fee.accruedFees lead).val =
    (s.fee.accruedFees lead).val + owed s.registry accruals lead
  rest : s' = { s with
    fee := { s.fee with accruedFees := s'.fee.accruedFees }
    sender := s'.sender }

theorem System.Booked.refl (s : System) : s.Booked [] s :=
  ⟨by simp, fun _ => rfl, rfl⟩

theorem System.Booked.trans {xs ys : List FeeAccrual} {s'' : System} (h : s.Booked xs s')
    (h' : s'.Booked ys s'') : s.Booked (xs ++ ys) s'' := by
  have registry : s'.registry = s.registry := by rw [h.rest]
  refine ⟨fun a member => ?_, fun lead => ?_, ?_⟩
  · rcases List.mem_append.mp member with first | second
    · exact h.quotes a first
    · exact registry ▸ h'.quotes a second
  · rw [h'.fees, h.fees, registry, owed_append, Nat.add_assoc]
  · rw [h'.rest, h.rest]

/-- The list in any order says what is booked. -/
theorem System.Booked.unique {xs ys : List FeeAccrual} {s'' : System} (h : s.Booked xs s')
    (h' : s.Booked ys s'') (same : xs.Perm ys) : s'.fee = s''.fee := by
  have fees : s'.fee.accruedFees = s''.fee.accruedFees := by
    funext lead
    exact Fin.ext (by rw [h.fees, h'.fees, owed_perm same])
  rw [h.rest, h'.rest, fees]

theorem accrueFee_books {a : FeeAccrual} {accrual : Accrual}
    (h : s.fee.accrueFee s.registry caller a.lead a.follower a.profit a.epochId = .ok accrual) :
    s.Booked [a] { s with fee := accrual.fee } := by
  obtain ⟨quote, total, sum, written⟩ := accrueFee_quotes h
  refine ⟨List.forall_mem_singleton.mpr ⟨_, quote⟩, fun lead => ?_, by rw [written]⟩
  rw [owed_cons]
  by_cases own : a.lead = lead
  · subst own
    simp only [written, Function.update_self, sum, quoted_eq quote, if_true, owed, List.map_nil,
      List.sum_nil, Nat.add_zero]
  · simp only [written, Function.update_of_ne (Ne.symm own), if_neg own, owed, List.map_nil,
      List.sum_nil, Nat.add_zero]

theorem accrueEach_books {accruals : List FeeAccrual} {fees : List FeeAccrued}
    (h : accrueEach D accruals s = .ok (s', fees)) : s.Booked accruals s' := by
  replace h := accrueEach_trace h
  induction h with
  | nil => exact .refl _
  | cons accrued others ih => exact (accrueFee_books accrued).trans ih

/-- No quote and no sum overflows. -/
structure System.Fits (accruals : List FeeAccrual) (s : System) : Prop where
  quotes : ∀ a ∈ accruals, ∃ q, quoteNetFee s.registry a.lead a.profit = .ok q
  room : ∀ lead, (s.fee.accruedFees lead).val + owed s.registry accruals lead < 2 ^ 256

/-- What one entry books leaves the room that the others need. -/
theorem System.Fits.tail {a : FeeAccrual} {rest : List FeeAccrual} (fits : s.Fits (a :: rest))
    (booked : s.Booked [a] s') : s'.Fits rest := by
  have registry : s'.registry = s.registry := by rw [booked.rest]
  refine ⟨fun b member => ?_, fun lead => ?_⟩
  · rw [registry]
    exact fits.quotes b (List.mem_cons_of_mem a member)
  · have room := fits.room lead
    rw [← List.singleton_append, owed_append] at room
    rw [booked.fees, registry, Nat.add_assoc]
    exact room

theorem accrueEach_succeeds {accruals : List FeeAccrual}
    (wired : s.fee.instructionSender = D.sender) (fits : s.Fits accruals) :
    (∃ s' fees, accrueEach D accruals s = .ok (s', fees)) ↔
      ∀ a ∈ accruals, a.profit ≠ 0 ∧ (s.registry.leads a.lead).wallet ≠ 0 := by
  induction accruals generalizing s with
  | nil => simp [accrueEach, pure_ok]
  | cons a rest ih =>
    obtain ⟨q, quote⟩ := fits.quotes a List.mem_cons_self
    have room := fits.room a.lead
    rw [owed_cons, if_pos rfl, quoted_eq quote] at room
    have first : (∃ accrual, s.fee.accrueFee s.registry D.sender a.lead a.follower a.profit
        a.epochId = .ok accrual) ↔ a.profit ≠ 0 ∧ (s.registry.leads a.lead).wallet ≠ 0 :=
      accrueFee_succeeds wired.symm quote (by omega)
    -- what the first entry has written is what the others start from
    have others {accrual : Accrual} (accrued : s.fee.accrueFee s.registry D.sender a.lead a.follower
        a.profit a.epochId = .ok accrual) :
        (∃ s' fees, accrueEach D rest { s with fee := accrual.fee } = .ok (s', fees)) ↔
          ∀ b ∈ rest, b.profit ≠ 0 ∧ (s.registry.leads b.lead).wallet ≠ 0 := by
      obtain ⟨-, total, -, written⟩ := accrueFee_quotes accrued
      exact ih (by simp only [written, wired]) (fits.tail (accrueFee_books accrued))
    rw [List.forall_mem_cons, ← first]
    simp only [accrueEach, bind_ok, pure_ok, Prod.mk.injEq, Prod.exists]
    constructor
    · rintro ⟨_, _, accrual, accrued, mid, events, tail, -, -⟩
      exact ⟨⟨accrual, accrued⟩, (others accrued).mp ⟨mid, events, tail⟩⟩
    · rintro ⟨⟨accrual, accrued⟩, sound⟩
      obtain ⟨mid, events, tail⟩ := (others accrued).mpr sound
      exact ⟨_, _, accrual, accrued, mid, events, tail, rfl, rfl⟩

/-- The nonce is the next one, and not marked as spent. -/
structure InstructionSender.Next (nonce : Uint256) (i : InstructionSender) : Prop where
  next : nonce = i.batchNonce
  unused : i.usedBatchNonces nonce = false

theorem accrueFees_books {accruals : List FeeAccrual} {nonce : Uint256} {fees : List FeeAccrued}
    (h : accrueFees D caller accruals nonce s = .ok (s', fees)) : s.Booked accruals s' := by
  obtain ⟨i, -, written⟩ := accrueFees_ok h
  obtain ⟨quotes, fees, rest⟩ := accrueEach_books written
  exact ⟨quotes, fees, by rw [rest]⟩

/-- Batches sent one after the other, each under its own nonce. -/
def accrueBatches (D : Deployment) (caller : Address) :
    List (List FeeAccrual × Uint256) → System → Except Revert System
  | [], s => return s
  | (accruals, nonce) :: rest, s => do
    let (s, _) ← accrueFees D caller accruals nonce s
    accrueBatches D caller rest s

theorem accrueBatches_books {batches : List (List FeeAccrual × Uint256)}
    (h : accrueBatches D caller batches s = .ok s') : s.Booked (batches.flatMap Prod.fst) s' := by
  induction batches generalizing s with
  | nil =>
    rw [accrueBatches, pure_ok] at h
    exact h ▸ .refl s
  | cons batch rest ih =>
    simp only [accrueBatches, bind_ok, Prod.exists] at h
    obtain ⟨mid, fees, first, tail⟩ := h
    exact (accrueFees_books first).trans (ih tail)

/-- An authorised call fails on its nonce or on one of its entries. -/
theorem accrueFees_fails {accruals : List FeeAccrual} {nonce : Uint256}
    (wired : s.fee.instructionSender = D.sender)
    (authorized : caller = s.sender.authorizedExecutor ∨ caller = s.sender.owner)
    (fits : s.Fits accruals) :
    (∃ e, accrueFees D caller accruals nonce s = .error e) ↔
      (∃ a ∈ accruals, a.profit = 0 ∨ (s.registry.leads a.lead).wallet = 0) ∨
        ¬s.sender.Next nonce := by
  -- the call goes through if the nonce is the next one and every entry is accrued
  have goes : (∃ s' fees, accrueFees D caller accruals nonce s = .ok (s', fees)) ↔
      s.sender.Next nonce ∧
        ∀ a ∈ accruals, a.profit ≠ 0 ∧ (s.registry.leads a.lead).wallet ≠ 0 := by
    simp only [accrueFees, bind_ok, onlyAuthorizedExecutor_ok, authorized, true_and, exists_const]
    constructor
    · rintro ⟨s', fees, i, consumed, written⟩
      obtain ⟨next, unused, -⟩ := validateAndConsumeNonce_ok.mp consumed
      have entries := (accrueEach_succeeds (s := { s with sender := i }) wired
        ⟨fits.quotes, fits.room⟩).mp ⟨s', fees, written⟩
      exact ⟨⟨next, unused⟩, entries⟩
    · rintro ⟨⟨next, unused⟩, entries⟩
      obtain ⟨i, consumed⟩ : ∃ i, s.sender.validateAndConsumeNonce nonce = .ok i :=
        ⟨_, validateAndConsumeNonce_ok.mpr ⟨next, unused, rfl⟩⟩
      obtain ⟨s', fees, written⟩ := (accrueEach_succeeds (s := { s with sender := i }) wired
        ⟨fits.quotes, fits.room⟩).mpr entries
      exact ⟨s', fees, i, consumed, written⟩
  have fails : (∃ e, accrueFees D caller accruals nonce s = .error e) ↔
      ¬∃ s' fees, accrueFees D caller accruals nonce s = .ok (s', fees) := by
    cases accrueFees D caller accruals nonce s with
    | error e => simp
    | ok r => simpa using ⟨r.1, r.2, rfl⟩
  -- the failures are the negation of both
  rw [fails, goes, not_and_or, or_comm]
  refine or_congr_left ?_
  push Not
  exact exists_congr fun a => and_congr_right fun _ => by tauto

/-! ### Settlements -/

/-- What a settlement books it pays out again. -/
theorem feeLeg_pays {fill : PendingFill} {proof : Proof} {fees : List FeeAccrued}
    (sound : s.registry.Sound D) (h : feeLeg D env fill proof s = .ok (s', fees)) :
    ∃ q, quoteNetFee s.registry fill.lead fill.profit = .ok q ∧
      s'.fee.accruedFees = s.fee.accruedFees ∧
      (s'.ledger D.fxrpToken).balanceOf fill.lead =
        (s.ledger D.fxrpToken).balanceOf fill.lead + q.val := by
  have restored := feeLeg_restores h
  -- no profit, a fee that rounds to nothing, or a fee that is booked and released
  cases feeLeg_trace h with
  | idle unprofitable =>
    exact ⟨0, quoteNetFee_idle (.inl (by simpa using unprofitable)), restored, rfl⟩
  | booked accrual accrued nothing =>
    have zero : accrual.netFee.val = 0 := by simpa using nothing
    exact ⟨accrual.netFee, (accrueFee_quotes accrued).1, restored,
      by simp only [zero, Nat.add_zero]⟩
  | paid accrual treasury accrued due released =>
    refine ⟨accrual.netFee, (accrueFee_quotes accrued).1, restored, ?_⟩
    obtain ⟨-, -, registered, -⟩ := accrueFee_ok.mp accrued
    obtain ⟨-, -, -, -, -, -, -, rest, ledger, -, moved, rfl⟩ := releaseFee_ok.mp released
    obtain ⟨-, balances, -⟩ := Token.move_some _ _ _ _ _ (Ledger.call_same moved)
    simp only [balances]
    exact shift_dst _ _ (D.ne_fee (sound.outside _ registered)).symm

theorem applyFdcSettlement_pays {fillId : Uint256} {proof : Proof} {fees : List FeeAccrued}
    (sound : s.registry.Sound D)
    (h : applyFdcSettlement D env caller fillId proof s = .ok (s', fees)) :
    ∃ q, quoteNetFee s.registry (s.sender.pendingFills fillId).lead
        (s.sender.pendingFills fillId).profit = .ok q ∧
      s'.fee.accruedFees = s.fee.accruedFees ∧
      (s'.ledger D.fxrpToken).balanceOf (s.sender.pendingFills fillId).lead =
        (s.ledger D.fxrpToken).balanceOf (s.sender.pendingFills fillId).lead + q.val := by
  obtain ⟨-, mid, vaultWrites, feeWrites⟩ := applyFdcSettlement_ok.mp h
  obtain ⟨fee, registry, ledger⟩ := vaultLeg_fee vaultWrites
  have paid := feeLeg_pays (registry ▸ sound) feeWrites
  rwa [fee, registry, ledger] at paid

/-! ### Splits -/

/-- A tenth of a quotient, rounded the other way: the two drifts never add up. -/
theorem netOf_nearlyAdditive (rate : ℕ) : NearlyAdditive (netOf · rate) where
  whole_le a b := by
    simp only [netOf, Nat.add_mul]
    omega
  parts_le a b := by
    simp only [netOf, Nat.add_mul]
    omega

/-- If the whole can be quoted so can its parts, and each cut moves the sum by at most one. -/
theorem quotes_split {parts : List Uint256} (some : parts ≠ [])
    (positive : ∀ p ∈ parts, p ≠ 0) (whole : profit.val = (parts.map Fin.val).sum)
    (quote : quoteNetFee registry lead profit = .ok q) :
    (∀ p ∈ parts, ∃ q', quoteNetFee registry lead p = .ok q') ∧
      q.val ≤ (parts.map (quoted registry lead)).sum + (parts.length - 1) ∧
      (parts.map (quoted registry lead)).sum ≤ q.val + (parts.length - 1) := by
  by_cases registered : (registry.leads lead).wallet = 0
  -- a lead that is not registered is quoted nothing for the whole and for each part
  · have idle (p : Uint256) : quoteNetFee registry lead p = .ok 0 :=
      quoteNetFee_idle (.inr registered)
    have nothing : (parts.map (quoted registry lead)).sum = 0 := by
      rw [List.sum_eq_zero_iff_forall_eq_nat, List.forall_mem_map]
      exact fun p _ => quoted_eq (idle p)
    rw [idle] at quote
    cases quote
    rw [nothing]
    exact ⟨fun p _ => ⟨0, idle p⟩, Nat.zero_le _, Nat.zero_le _⟩
  · have within (p : Uint256) (member : p ∈ parts) : p.val ≤ profit.val :=
      whole ▸ List.le_sum_of_mem (List.mem_map_of_mem member)
    have profitable : profit ≠ 0 := by
      obtain ⟨p, member⟩ := List.exists_mem_of_ne_nil parts some
      rintro rfl
      exact positive p member (Fin.ext (Nat.le_zero.mp (within p member)))
    obtain ⟨fits, value⟩ := (quoteNetFee_ok profitable registered).mp quote
    -- a part is no more than the whole, so it does not overflow where the whole does not
    have each (p : Uint256) (member : p ∈ parts) : ∃ q', quoteNetFee registry lead p = .ok q' ∧
        q'.val = netOf p.val (registry.leads lead).feeRateBps.val := by
      have small := Nat.mul_le_mul_right (registry.leads lead).feeRateBps.val (within p member)
      have net : netOf p.val (registry.leads lead).feeRateBps.val < 2 ^ 256 := by
        rw [netOf]
        omega
      exact ⟨⟨_, net⟩, (quoteNetFee_ok (positive p member) registered).mpr ⟨by omega, rfl⟩, rfl⟩
    have sums : parts.map (quoted registry lead) =
        (parts.map Fin.val).map (netOf · (registry.leads lead).feeRateBps.val) := by
      rw [List.map_map]
      refine List.map_congr_left fun p member => ?_
      obtain ⟨q', quote', value'⟩ := each p member
      exact (quoted_eq quote').trans value'
    have values : parts.map Fin.val ≠ [] := by simpa using some
    have drift := (netOf_nearlyAdditive (registry.leads lead).feeRateBps.val).sum values
    rw [← whole, ← sums, ← value, List.length_map] at drift
    exact ⟨fun p member => (each p member).imp fun _ found => found.1, drift⟩

/-- Accruals book the sum of the quotes, in any order and any cut into batches; they revert for an
entry without profit or lead or for a wrong nonce, and then change nothing. Settlements pay the
quote. The parts of a profit are quoted the whole, but for the rounding of each cut. -/
theorem fees_additive (D : Deployment) (env : External) (caller : Address) (s : System) :
    (∀ accruals nonce s' fees, accrueFees D caller accruals nonce s = .ok (s', fees) →
        (∀ a ∈ accruals, ∃ q, quoteNetFee s.registry a.lead a.profit = .ok q) ∧
          ∀ lead, (s'.fee.accruedFees lead).val =
            (s.fee.accruedFees lead).val + owed s.registry accruals lead) ∧
      (∀ batches batches' s' s'', (batches.flatMap Prod.fst).Perm (batches'.flatMap Prod.fst) →
        accrueBatches D caller batches s = .ok s' → accrueBatches D caller batches' s = .ok s'' →
          s'.fee = s''.fee) ∧
      (s.fee.instructionSender = D.sender →
        caller = s.sender.authorizedExecutor ∨ caller = s.sender.owner →
        ∀ accruals nonce, s.Fits accruals →
          ((∃ e, accrueFees D caller accruals nonce s = .error e) ↔
            (∃ a ∈ accruals, a.profit = 0 ∨ (s.registry.leads a.lead).wallet = 0) ∨
              ¬s.sender.Next nonce)) ∧
      (∀ (tx : Tx D) (history : List (Receipt D)) (e : Revert), tx.perform s = .error e →
        (Chain.step ⟨s, history⟩ tx).sys = s) ∧
      (s.registry.Sound D → ∀ fillId proof s' fees,
        applyFdcSettlement D env caller fillId proof s = .ok (s', fees) →
        ∃ q, quoteNetFee s.registry (s.sender.pendingFills fillId).lead
            (s.sender.pendingFills fillId).profit = .ok q ∧
          s'.fee.accruedFees = s.fee.accruedFees ∧
          (s'.ledger D.fxrpToken).balanceOf (s.sender.pendingFills fillId).lead =
            (s.ledger D.fxrpToken).balanceOf (s.sender.pendingFills fillId).lead + q.val) ∧
      ∀ (lead : Address) (profit q : Uint256) (parts : List Uint256), parts ≠ [] →
        (∀ p ∈ parts, p ≠ 0) → profit.val = (parts.map Fin.val).sum →
        quoteNetFee s.registry lead profit = .ok q →
        (∀ p ∈ parts, ∃ q', quoteNetFee s.registry lead p = .ok q') ∧
          q.val ≤ (parts.map (quoted s.registry lead)).sum + (parts.length - 1) ∧
          (parts.map (quoted s.registry lead)).sum ≤ q.val + (parts.length - 1) := by
  refine ⟨fun accruals nonce s' fees h => ?_, fun batches batches' s' s'' same h h' => ?_,
    fun wired authorized accruals nonce => accrueFees_fails wired authorized, ?_,
    fun sound fillId proof s' fees => applyFdcSettlement_pays sound,
    fun lead profit q parts => quotes_split⟩
  · have booked := accrueFees_books h
    exact ⟨booked.quotes, booked.fees⟩
  · exact (accrueBatches_books h).unique (accrueBatches_books h') same
  · intro tx history e reverted
    simp only [Chain.step, reverted]

end Mirror
