import Mathlib.Data.List.ReduceOption
import Mirror.Engine.Handlers

/-!
What an accepted signal has gone through: how much of the cap it takes, for whom, and which
instructions come of it.
-/
namespace Mirror

open Evm hiding Byte
open Js Completion

variable {host : Host} {signal : Json}

/-! ### Completions, once more as equations -/

section

variable {α β : Type} {x : Body α}

theorem orThrow_ok {o : Option α} {e : Thrown} {a : α} :
    (orThrow o e : Body α) = .ok a ↔ o = some a := by
  cases o <;> simp [orThrow, throwing]

theorem orReturn_ok {o : Option α} {message : JsString} {a : α} :
    (orReturn o message : Body α) = .ok a ↔ o = some a := by
  cases o <;> simp [orReturn, returning]

theorem returnIf_ok {p : Prop} [Decidable p] {message : JsString} {u : Unit} :
    (returnIf p message : Body Unit) = .ok u ↔ ¬p := by
  unfold returnIf
  split <;> simp_all [returning]

end

/-! ### Sizing -/

/-- `sizePct`, truncated, of a signal that states a positive one. -/
def sizeBps (signal : Json) : Option ℤ := (sizeOf signal).bind fun x => x.trunc.toBigInt

/-- What a follower is allocated, truncated. -/
def allocationBps (f : Json) : Option ℤ :=
  ((f.get (text "allocationBps")).bind Json.toNumber).bind fun x => x.trunc.toBigInt

/-- What everybody is allocated: each follower its own part, or the recipient everything. -/
def allocations (signal : Json) : List (Option ℤ) :=
  match followersOf signal with
  | some followers => followers.map allocationBps
  | none => [some 10000]

theorem baseNotional_ok {cap base : ℤ} {x : Number} :
    baseNotional cap x = .ok base ↔
      ∃ size, x.trunc.toBigInt = some size ∧ base = (cap * size).tdiv 10000 := by
  simp only [baseNotional, bind_ok, orThrow_ok, pure_ok, eq_comm (b := base)]

theorem followerNotional_ok {base n : ℤ} {x : Number} :
    followerNotional base x = .ok n ↔
      ∃ part, x.trunc.toBigInt = some part ∧ n = (base * part).tdiv 10000 := by
  simp only [followerNotional, bind_ok, orThrow_ok, pure_ok, eq_comm (b := n)]

/-- What is instructed for a follower: nothing, or an amount that is not zero. -/
def amountOf (b : Option Build) : ℤ := b.elim 0 Build.amountIn

theorem sum_reduceOption (bs : List (Option Build)) :
    (bs.reduceOption.map Build.amountIn).sum = (bs.map amountOf).sum := by
  -- over the builds: one that was left out adds nothing
  induction bs with
  | nil => rfl
  | cons b rest ih =>
    cases b with
    | none =>
      rw [List.reduceOption_cons_of_none, ih, List.map_cons, List.sum_cons]
      exact (zero_add _).symm
    | some b =>
      rw [List.reduceOption_cons_of_some, List.map_cons, List.map_cons, List.sum_cons,
        List.sum_cons, ih]
      rfl

theorem swapBuild_amount {pair : Pair} {base : ℤ} {reading : ℕ} {f : FollowerAlloc}
    {b : Option Build} (built : swapBuild host pair base reading f = .ok b) :
    ∃ part, f.allocationBps.trunc.toBigInt = some part ∧
      amountOf b = (base * part).tdiv 10000 := by
  simp only [swapBuild, bind_ok, followerNotional_ok] at built
  obtain ⟨notional, ⟨part, whole, sized⟩, built⟩ := built
  refine ⟨part, whole, ?_⟩
  rw [← sized]
  -- the round ends here if nothing is left after rounding
  split at built
  next zero =>
    rw [pure_ok] at built
    rw [zero, ← built]
    rfl
  next =>
    simp only [bind_ok, pure_ok] at built
    obtain ⟨_, -, _, -, _, -, rfl⟩ := built
    rfl

/-- A property that can be made an integer. -/
theorem coerced_ok {v : Option Json} {x : Number} {n : ℤ} (h : coerced v = .ok x)
    (integral : x.trunc.toBigInt = some n) :
    (v.bind Json.toNumber).bind (fun x => x.trunc.toBigInt) = some n := by
  cases v with
  | none =>
    cases h
    cases integral
  | some v =>
    have number : v.toNumber = some x := orThrow_ok.mp h
    rw [Option.bind_some, number, Option.bind_some, integral]

theorem mockBuild_amount {venue : MockVenue} {base : ℤ} {f : Json} {b : Option Build}
    (built : mockBuild host venue base f = .ok b) :
    ∃ part, allocationBps f = some part ∧ amountOf b = (base * part).tdiv 10000 := by
  unfold mockBuild at built
  split at built
  next => cases built
  next =>
    simp only [bind_ok, followerNotional_ok] at built
    obtain ⟨x, coerced', notional, ⟨part, whole, sized⟩, built⟩ := built
    refine ⟨part, coerced_ok coerced' whole, ?_⟩
    rw [← sized]
    split at built
    next zero =>
      rw [pure_ok] at built
      rw [zero, ← built]
      rfl
    next =>
      simp only [bind_ok, pure_ok] at built
      obtain ⟨_, -, _, -, rfl⟩ := built
      rfl

theorem checkFollower_allocation {f : Json} {g : FollowerAlloc} (checked : checkFollower f = .ok g)
    {part : ℤ} (whole : g.allocationBps.trunc.toBigInt = some part) :
    allocationBps f = some part := by
  unfold checkFollower at checked
  split at checked
  next => cases checked
  next =>
    simp only [bind_ok, orReturn_ok, pure_ok, Option.filter_eq_some_iff,
      Option.bind_eq_some_iff] at checked
    obtain ⟨_, -, x, ⟨⟨v, found, number⟩, -⟩, rfl⟩ := checked
    -- validation takes numbers only, so `BigInt` sees the same value on both paths
    cases v with
    | num y =>
      cases number
      simp only [allocationBps, found, Option.bind_some]
      exact whole
    | null | bool | str | arr | obj => cases number

/-- Both roundings are exact: the caps are multiples of 100 million. -/
theorem notional_exact (unit size part : ℤ) :
    ((unit * 10 ^ 8 * size).tdiv 10000 * part).tdiv 10000 = unit * size * part := by
  have base : unit * 10 ^ 8 * size = 10000 * (unit * 10 ^ 4 * size) := by ring
  have notional : unit * 10 ^ 4 * size * part = 10000 * (unit * size * part) := by ring
  rw [base, Int.mul_tdiv_cancel_left _ (by decide), notional,
    Int.mul_tdiv_cancel_left _ (by decide)]

/-- Where every follower has its exact share, so have all of them together. -/
theorem sum_amounts {α : Type} {part : α → Option ℤ} {share : ℤ} {fs : List α}
    {bs : List (Option Build)}
    (each : List.Forall₂ (fun f b => ∃ p, part f = some p ∧ amountOf b = share * p) fs bs) :
    ∃ parts : List ℤ, fs.map part = parts.map some ∧ (bs.map amountOf).sum = share * parts.sum := by
  -- over the followers, with the part of each put in front
  induction each with
  | nil => exact ⟨[], rfl, (mul_zero share).symm⟩
  | cons head _ ih =>
    obtain ⟨p, allocated, amount⟩ := head
    obtain ⟨parts, rest, total⟩ := ih
    refine ⟨p :: parts, ?_, ?_⟩
    · rw [List.map_cons, List.map_cons, allocated, rest]
    · rw [List.map_cons, List.sum_cons, List.sum_cons, amount, total, mul_add]

theorem forall₂_comp {α β γ : Type} {R : α → β → Prop} {S : β → γ → Prop} {as : List α}
    {bs : List β} {cs : List γ} (first : List.Forall₂ R as bs) (second : List.Forall₂ S bs cs) :
    List.Forall₂ (fun a c => ∃ b, R a b ∧ S b c) as cs := by
  induction first generalizing cs with
  | nil =>
    cases second
    exact .nil
  | cons related _ ih =>
    cases second with
    | cons related' rest => exact .cons ⟨_, related, related'⟩ (ih rest)

theorem forall₂_exists {α β : Type} {R : α → β → Prop} {as : List α} {bs : List β}
    (h : List.Forall₂ R as bs) {a : α} (member : a ∈ as) : ∃ b ∈ bs, R a b := by
  induction h with
  | nil => cases member
  | cons related _ ih =>
    rcases List.mem_cons.mp member with rfl | later
    · exact ⟨_, List.mem_cons_self, related⟩
    · obtain ⟨b, among, related'⟩ := ih later
      exact ⟨b, List.mem_cons_of_mem _ among, related'⟩

/-- A loop over numbered elements, read as one over the elements. -/
theorem forall₂_zipIdx {α β : Type} {R : α → β → Prop} {as : List α} {bs : List β} {k : ℕ}
    (h : List.Forall₂ (fun (a : α × ℕ) b => R a.1 b) (as.zipIdx k) bs) :
    List.Forall₂ R as bs := by
  rw [← List.zipIdx_map_fst k as]
  exact List.forall₂_map_left_iff.mpr h

theorem accept_ok {direction : Direction} {sizePct : Number} {venue : Build → JsString}
    {empty : JsString} {reading : ℕ} {builds : List Build} {a : Accepted}
    (h : accept host signal direction sizePct venue empty reading builds = .ok a) :
    a.builds = builds := by
  unfold accept at h
  split at h
  next => cases h
  next => exact (Except.ok.inj h) ▸ rfl

/-- A recipient on its own is allocated everything. -/
theorem everything : (Number.ofRat 10000).trunc.toBigInt = some 10000 := by
  decide +kernel

/-- The amounts on the swap path, in units of 0.01 tokens at 18 decimals. -/
theorem swapStageB_amounts {a : Accepted} (h : swapStageB host signal = .ok a) :
    ∃ (size : ℤ) (parts : List ℤ), sizeBps signal = some size ∧
      allocations signal = parts.map some ∧
      (a.builds.map Build.amountIn).sum = 10 ^ 16 * size * parts.sum := by
  simp only [swapStageB, bind_ok, orReturn_ok, baseNotional_ok] at h
  obtain ⟨_, -, direction, -, sizePct, stated, followers, checked, _, -, prices, -, fxrp, -,
    usdt0, -, base, ⟨size, whole, rfl⟩, _, -, bs, built, done⟩ := h
  rw [mapM_ok] at built
  have each : List.Forall₂ (fun g b => ∃ part, g.allocationBps.trunc.toBigInt = some part ∧
      amountOf b = ((notionalCapWei * size).tdiv 10000 * part).tdiv 10000) followers bs :=
    forall₂_zipIdx (built.imp fun f b h => swapBuild_amount h)
  have sized : sizeBps signal = some size := by rw [sizeBps, stated, Option.bind_some, whole]
  -- the cap is 10^16 times a number that both divisions by 10,000 leave whole
  have capped : notionalCapWei = 10 ^ 16 * 10 ^ 8 := by decide
  simp only [capped, notional_exact] at each
  rw [accept_ok done, sum_reduceOption]
  unfold checkFollowers at checked
  -- followers that are listed, or the recipient on its own
  split at checked
  next fs listed =>
    rw [mapM_ok] at checked
    have paired := (forall₂_comp checked each).imp fun f b ⟨g, passed, part, whole, amount⟩ =>
      (⟨part, checkFollower_allocation passed whole, amount⟩ :
        ∃ p, allocationBps f = some p ∧ amountOf b = 10 ^ 16 * size * p)
    obtain ⟨parts, allocated, total⟩ := sum_amounts paired
    refine ⟨size, parts, sized, ?_, total⟩
    rw [allocations, listed]
    exact allocated
  next alone =>
    simp only [bind_ok, orReturn_ok, pure_ok] at checked
    obtain ⟨recipient, -, rfl⟩ := checked
    obtain ⟨parts, allocated, total⟩ := sum_amounts each
    refine ⟨size, parts, sized, ?_, total⟩
    rw [allocations, alone, ← allocated]
    exact congrArg (fun n => [n]) everything.symm

/-- The amounts on the mock-venue path, in units of 0.01 tokens at 6 decimals. -/
theorem buildMockVenueStageB_amounts {venue : MockVenue} {a : Accepted}
    (h : buildMockVenueStageB host signal venue = .ok a) :
    ∃ (size : ℤ) (parts : List ℤ), sizeBps signal = some size ∧
      allocations signal = parts.map some ∧
      (a.builds.map Build.amountIn).sum = 10 ^ 4 * size * parts.sum := by
  simp only [buildMockVenueStageB, bind_ok, orReturn_ok, baseNotional_ok] at h
  obtain ⟨sizePct, stated, targets, targeted, base, ⟨size, whole, rfl⟩, bs, built, done⟩ := h
  rw [mapM_ok] at built
  have each := built.imp fun f b h => mockBuild_amount h
  have sized : sizeBps signal = some size := by rw [sizeBps, stated, Option.bind_some, whole]
  have capped : notionalCap = 10 ^ 4 * 10 ^ 8 := by decide
  simp only [capped, notional_exact] at each
  obtain ⟨parts, allocated, total⟩ := sum_amounts each
  rw [accept_ok done, sum_reduceOption]
  refine ⟨size, parts, sized, ?_, total⟩
  -- the same two cases, read without validation
  unfold mockTargets at targeted
  split at targeted
  next fs listed =>
    rw [pure_ok] at targeted
    rw [allocations, listed, targeted]
    exact allocated
  next alone =>
    simp only [bind_ok, orReturn_ok, pure_ok] at targeted
    obtain ⟨recipient, -, rfl⟩ := targeted
    rw [allocations, alone, ← allocated]
    exact congrArg (fun n => [n]) everything.symm

/-- An accepted message carries a signal, which one of the two paths has accepted. -/
theorem matchStageB_ok {msg : JsString} {a : Accepted} (h : matchStageB host msg = .ok a) :
    ∃ signal hint, readSignal host msg = .ok signal ∧ venueHint host signal = .ok hint ∧
      match route host hint with
      | some venue => buildMockVenueStageB host signal venue = .ok a
      | none => swapStageB host signal = .ok a := by
  simp only [matchStageB, executeSignal, bind_ok] at h
  obtain ⟨signal, read, hint, hinted, done⟩ := h
  refine ⟨signal, hint, read, hinted, ?_⟩
  cases path : route host hint with
  | none =>
    rw [path] at done
    exact done
  | some venue =>
    rw [path] at done
    exact done

end Mirror
