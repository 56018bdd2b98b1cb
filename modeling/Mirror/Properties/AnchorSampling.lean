import Mirror.Properties.DivergenceGuard

/-!
How the anchors move. They are samples of the oracle's spot prices, taken at most every 90
seconds of its own time by whichever swap comes first, large or small.
-/
namespace Mirror

open Evm Oracle MockSparkDexRouter

/-- Both anchors, as one snapshot of the oracle. -/
def MockSparkDexRouter.anchors (r : MockSparkDexRouter) : Snapshot (Uint256 × Uint256) :=
  ⟨(r.lastAnchorFxrpWei, r.lastAnchorUsdt0Wei), r.lastAnchorTimestamp.val⟩

def Spot.snapshot (spot : Spot) : Snapshot (Uint256 × Uint256) :=
  ⟨(spot.fxrpUsd, spot.usdt0Usd), spot.ts.val⟩

/-- A swap that somebody sends, and the world it meets. -/
structure SwapOp where
  market : Market
  caller : Address
  call : SwapCall

section Runs

variable (dex : SparkDex)

/-- A swap that reverts changes nothing. -/
def Exchange.step (x : Exchange) (op : SwapOp) : Exchange :=
  match swap dex op.market op.caller x op.call with
  | .ok swapped => swapped.exchange
  | .error _ => x

/-- The anchors stay, or they move to the spot prices once they are 90 seconds old; if the swap is
large, the price of the token it sells is within tolerance of the anchor it replaces. -/
def Exchange.Samples (x : Exchange) (op : SwapOp) : Prop :=
  (x.step dex op).router = x.router ∨
    ∃ spot, op.market.spot = some spot ∧
      x.router.lastAnchorTimestamp.val + 90 ≤ spot.ts.val ∧
      (x.step dex op).router = x.router.sampled spot ∧
      (dex.divergenceGuard.notionalThresholdWei.val ≤
          op.call.amount.val * (spot.price dex op.call.tokenIn).val / weiPerUsd →
        dex.divergenceGuard.Tolerates (spot.price dex op.call.tokenIn)
          (anchorOf dex op.call.tokenIn x.router))

/-- The anchors stay, or both move to prices within tolerance of the ones they replace. -/
def Exchange.WithinTolerance (x : Exchange) (op : SwapOp) : Prop :=
  (x.step dex op).router = x.router ∨
    dex.divergenceGuard.Tolerates (x.step dex op).router.lastAnchorFxrpWei
        x.router.lastAnchorFxrpWei ∧
      dex.divergenceGuard.Tolerates (x.step dex op).router.lastAnchorUsdt0Wei
        x.router.lastAnchorUsdt0Wei

instance (x : Exchange) (op : SwapOp) : Decidable (x.WithinTolerance dex op) :=
  inferInstanceAs (Decidable (_ ∨ _ ∧ _))

/-- How many steps of a run move the anchors. -/
def Exchange.anchorUpdates (x : Exchange) (ops : List SwapOp) : ℕ :=
  accumulate (Exchange.step dex)
    (fun x op => if (x.step dex op).router = x.router then 0 else 1) x ops

/-- The spot prices that the successful swaps of a run have read. -/
def Exchange.observations : Exchange → List SwapOp → List (Snapshot (Uint256 × Uint256))
  | _, [] => []
  | x, op :: rest =>
    match swap dex op.market op.caller x op.call with
    | .ok swapped =>
      (op.market.spot.map Spot.snapshot).toList ++ observations swapped.exchange rest
    | .error _ => observations x rest

variable {x : Exchange} {op : SwapOp} {swapped : Swapped}

/-- A swap leaves the anchors as they observe the spot prices, whatever its size. -/
theorem swap_anchors {dex : SparkDex} (set : x.router.lastAnchorTimestamp ≠ 0)
    (done : swap dex op.market op.caller x op.call = .ok swapped) :
    ∃ spot, op.market.spot = some spot ∧
      swapped.exchange.router =
        (if x.router.anchors.Due 90 spot.snapshot then x.router.sampled spot else x.router) ∧
      swapped.exchange.router.anchors = x.router.anchors.observe 90 spot.snapshot := by
  obtain ⟨_, _, guarded⟩ := swap_guarded done
  obtain ⟨spot, shown, -, -, -, -, -, moved⟩ := spotAndGuard_ok.mp guarded
  rw [seeded_of_set spot set] at moved
  refine ⟨spot, shown, moved, ?_⟩
  rw [moved]
  by_cases due : x.router.anchors.Due 90 spot.snapshot
  · rw [Snapshot.observe_due 90 due]
    exact congrArg anchors (if_pos due)
  · rw [Snapshot.observe_early 90 due]
    exact congrArg anchors (if_neg due)

theorem step_samples (op : SwapOp) (set : x.router.lastAnchorTimestamp ≠ 0) : x.Samples dex op := by
  unfold Exchange.Samples Exchange.step
  cases done : swap dex op.market op.caller x op.call with
  | error e => exact .inl rfl
  | ok swapped =>
    obtain ⟨spot, shown, moved, -⟩ := swap_anchors set done
    by_cases due : x.router.anchors.Due 90 spot.snapshot
    · rw [if_pos due] at moved
      refine .inr ⟨spot, shown, due, moved, fun large => ?_⟩
      obtain ⟨_, _, guarded⟩ := swap_guarded done
      obtain ⟨_, _, quoted, -⟩ := spotAndGuard_ok.mp guarded
      obtain ⟨spot', shown', -, rfl, -⟩ := spotPrices_ok.mp quoted
      cases shown.symm.trans shown'
      exact swap_tolerated set done quoted large
    · rw [if_neg due] at moved
      exact .inl moved

/-- Anchors that are set stay set: they only get younger. -/
theorem step_set (op : SwapOp) (set : x.router.lastAnchorTimestamp ≠ 0) :
    (x.step dex op).router.lastAnchorTimestamp ≠ 0 := by
  rcases step_samples dex op set with same | ⟨spot, -, later, moved, -⟩
  · rwa [same]
  · rw [moved]
    intro zero
    have : spot.ts = 0 := zero
    simp [this] at later

/-- The anchors after a run are what sampling its observations gives, and every move of the
anchors is an observation that came due. -/
theorem run_samples (set : x.router.lastAnchorTimestamp ≠ 0) (ops : List SwapOp) :
    (run (Exchange.step dex) x ops).router.anchors =
        run (Snapshot.observe 90) x.router.anchors (x.observations dex ops) ∧
      x.anchorUpdates dex ops = x.router.anchors.updates 90 (x.observations dex ops) := by
  induction ops generalizing x with
  | nil => exact ⟨rfl, rfl⟩
  | cons op rest ih =>
    have later := ih (step_set dex op set)
    rw [run_cons, Exchange.anchorUpdates, accumulate, Exchange.observations]
    rw [Exchange.anchorUpdates] at later
    cases done : swap dex op.market op.caller x op.call with
    | error e =>
      have same : x.step dex op = x := by simp only [Exchange.step, done]
      rw [same] at later ⊢
      rwa [if_pos rfl, Nat.zero_add]
    | ok swapped =>
      have next : x.step dex op = swapped.exchange := by simp only [Exchange.step, done]
      obtain ⟨spot, shown, moved, observed⟩ := swap_anchors set done
      rw [next, observed] at later
      simp only [next, shown, Option.map_some, Option.toList_some, List.singleton_append, run_cons]
      refine ⟨later.1, ?_⟩
      rw [Snapshot.updates, accumulate, later.2, Snapshot.updates]
      congr 1
      by_cases due : x.router.anchors.Due 90 spot.snapshot
      · rw [if_pos due] at moved
        -- younger anchors are other anchors
        have changed : swapped.exchange.router ≠ x.router := by
          intro same
          have time : x.router.lastAnchorTimestamp = spot.ts := by
            rw [← same, moved]
            rfl
          have later : x.router.lastAnchorTimestamp.val + 90 ≤ spot.ts.val := due
          rw [time] at later
          omega
        rw [if_neg changed, if_pos due]
      · rw [if_neg due] at moved
        rw [if_pos moved, if_neg due]

/-- Every observation is the spot of one of the swaps. -/
theorem mem_observations {dex : SparkDex} {ops : List SwapOp} {s : Snapshot (Uint256 × Uint256)}
    (member : s ∈ x.observations dex ops) :
    ∃ op ∈ ops, ∃ spot, op.market.spot = some spot ∧ s = spot.snapshot := by
  induction ops generalizing x with
  | nil => cases member
  | cons op rest ih =>
    have tail : ∀ {x' : Exchange}, s ∈ x'.observations dex rest →
        ∃ op' ∈ op :: rest, ∃ spot, op'.market.spot = some spot ∧ s = spot.snapshot := by
      intro x' later
      obtain ⟨op', among, found⟩ := ih later
      exact ⟨op', List.mem_cons_of_mem _ among, found⟩
    rw [Exchange.observations] at member
    cases done : swap dex op.market op.caller x op.call with
    | error e =>
      rw [done] at member
      exact tail member
    | ok swapped =>
      rw [done] at member
      rcases List.mem_append.mp member with first | later
      · obtain ⟨spot, shown, rfl⟩ := Option.map_eq_some_iff.mp (Option.mem_toList.mp first)
        exact ⟨op, List.mem_cons_self, spot, shown, rfl⟩
      · exact tail later

end Runs

/-- In every run of swaps each update of the anchors moves both to the spot prices that the swap
has read, 90 seconds of oracle time or more after the last update; a large swap that updates them
has found the sold token within tolerance. At the end the anchors are the first ones or the spot
prices of one of the swaps. -/
theorem anchors_sample_oracle (dex : SparkDex) (x : Exchange) (ops : List SwapOp)
    (set : x.router.lastAnchorTimestamp ≠ 0) :
    Admissible (Exchange.step dex) (Exchange.Samples dex) x ops ∧
      x.router.lastAnchorTimestamp.val + 90 * x.anchorUpdates dex ops ≤
        (run (Exchange.step dex) x ops).router.lastAnchorTimestamp.val ∧
      ((run (Exchange.step dex) x ops).router.anchors = x.router.anchors ∨
        ∃ op ∈ ops, ∃ spot, op.market.spot = some spot ∧
          (run (Exchange.step dex) x ops).router.anchors = spot.snapshot) := by
  obtain ⟨samples, count⟩ := run_samples dex set ops
  refine ⟨?_, ?_, ?_⟩
  · have young : ∀ (y : Exchange) (op : SwapOp), y.router.lastAnchorTimestamp ≠ 0 →
        (y.step dex op).router.lastAnchorTimestamp ≠ 0 := fun _ op set => step_set dex op set
    exact run_always young (fun _ op set => step_samples dex op set) x set ops
  · have spaced := x.router.anchors.updates_spaced 90 (x.observations dex ops)
    rw [← count, ← samples] at spaced
    exact spaced
  · rw [samples]
    rcases x.router.anchors.run_observed 90 (x.observations dex ops) with same | observed
    · exact .inl same
    · exact .inr (mem_observations observed)

namespace Sample

/-- Alice sells a little FXRP, and then a lot, with FXRP at twice its anchor. -/
def walk : List SwapOp :=
  [⟨market (2 * dollar) dollar 1090, alice, fxrpSale (10 ^ 18)⟩,
    ⟨market (2 * dollar) dollar 1090, alice, fxrpSale (2000 * 10 ^ 18)⟩]

end Sample

/-- The small sale moves the anchors, and the large one is checked against the moved ones. -/
theorem anchors_sample_oracle_walk :
    Admissible (Exchange.step Sample.dex) (Exchange.Samples Sample.dex) Sample.exchange
        Sample.walk ∧
      1000 + 90 * Sample.exchange.anchorUpdates Sample.dex Sample.walk ≤
        (run (Exchange.step Sample.dex) Sample.exchange
          Sample.walk).router.lastAnchorTimestamp.val ∧
      ((run (Exchange.step Sample.dex) Sample.exchange Sample.walk).router.anchors =
          Sample.exchange.router.anchors ∨
        ∃ op ∈ Sample.walk, ∃ spot, op.market.spot = some spot ∧
          (run (Exchange.step Sample.dex) Sample.exchange Sample.walk).router.anchors =
            spot.snapshot) :=
  anchors_sample_oracle Sample.dex Sample.exchange Sample.walk (by decide)

/-- A small sale moves the anchor of FXRP to twice its value, where 1% is tolerated. -/
theorem anchors_walked :
    ¬∀ (dex : SparkDex) (x : Exchange) (ops : List SwapOp),
      x.router.lastAnchorTimestamp ≠ 0 →
      Admissible (Exchange.step dex) (Exchange.WithinTolerance dex) x ops := by
  intro always
  have tolerated := always Sample.dex Sample.exchange Sample.walk (by decide)
  revert tolerated
  decide +kernel

end Mirror
