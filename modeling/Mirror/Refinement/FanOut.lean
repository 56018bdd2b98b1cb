import Mirror.Refinement.Paths

/-!
From a list of follower entries to a list of instructions. Both paths go through the entries in
order, skip those whose share rounds to nothing and instruct the others, each with its own share.
-/
namespace Mirror

open Evm hiding Byte
open Js Completion

variable {host : Host} {signal : Json}

/-! ### The specification -/

/-- The entries of a signal: its followers, or its recipient with everything. -/
def entries (signal : Json) : List Json :=
  match followersOf signal with
  | some followers => followers
  | none =>
    [.obj [(text "address", (signal.get (text "recipient")).getD .null),
      (text "allocationBps", natJson 10000)]]

/-- Whom an entry names. -/
def addressOf (f : Json) : Option Address :=
  ((f.get (text "address")).bind Json.asString).bind getAddress

/-- The part of a base that an entry is allocated, rounded down. -/
def amountFor (base : ℤ) (f : Json) : ℤ := base * (allocationBps f).getD 0 / 10000

/-- The instructions are those for the entries. -/
structure FanOut (base : ℤ) (entries : List Json) (builds : List Build) : Prop where
  /-- One for each entry with a share, in order, for whom it names and with its amount. -/
  exact : List.Forall₂
    (fun f b => addressOf f = some b.recipient ∧ b.amountIn = amountFor base f)
    (entries.filter fun f => amountFor base f ≠ 0) builds
  /-- Less than one unit an entry is left over, in units of 1/10000. -/
  remainder : ∃ parts : List ℤ, entries.map allocationBps = parts.map some ∧
    0 ≤ base * parts.sum - 10000 * (builds.map Build.amountIn).sum ∧
    base * parts.sum - 10000 * (builds.map Build.amountIn).sum < 10000 * entries.length

/-! ### One entry -/

/-- The venue that the swap path trades on. -/
def Host.venue (host : Host) : JsString :=
  host.toLowerCase (host.env.executionVenue.getD (text "mock-sparkdex"))

/-- The deadline of the swaps built at one reading of the clock. -/
def Host.deadline (host : Host) (reading : ℕ) : ℕ := host.seconds reading + 300

/-- A round of the loop on the swap path, once it is through. -/
theorem swapBuild_ok {pair : Pair} {base : ℤ} {reading : ℕ} {g : FollowerAlloc}
    {b : Option Build} (built : swapBuild host pair base reading g = .ok b) :
    ∃ part, g.allocationBps.trunc.toBigInt = some part ∧ amountOf b = share base part ∧
      ∀ c, b = some c → c.amountIn ≠ 0 ∧ getAddress g.address = some c.recipient ∧
        c.venue = host.venue ∧
        swapCall host host.venue ⟨pair, c.recipient, host.deadline reading, c.amountIn,
          pair.amountOutMinimum c.amountIn⟩ = .ok (c.target, c.data) := by
  obtain ⟨part, whole, amount⟩ := swapBuild_amount built
  refine ⟨part, whole, amount, ?_⟩
  rintro c rfl
  simp only [swapBuild, bind_ok, followerNotional_ok] at built
  obtain ⟨notional, -, built⟩ := built
  split at built
  next =>
    rw [pure_ok] at built
    cases built
  next some =>
    simp only [bind_ok, pure_ok, orThrow_ok, Prod.exists] at built
    obtain ⟨_, -, recipient, named, target, data, called, same⟩ := built
    cases Option.some.inj same
    exact ⟨some, named, rfl, called⟩

/-- A round of the loop on the mock path, once it is through. -/
theorem mockBuild_ok {venue : MockVenue} {base : ℤ} {f : Json} {b : Option Build}
    (built : mockBuild host venue base f = .ok b) :
    ∃ part, allocationBps f = some part ∧ amountOf b = share base part ∧
      ∀ c, b = some c → c.amountIn ≠ 0 ∧ addressOf f = some c.recipient ∧
        c.venue = venue.name ∧ c.fee = none ∧
        mockCall host venue c.amountIn = .ok (c.target, c.data) := by
  obtain ⟨part, whole, amount⟩ := mockBuild_amount built
  refine ⟨part, whole, amount, ?_⟩
  rintro c rfl
  simp only [mockBuild] at built
  split at built
  next => cases built
  next =>
    simp only [bind_ok, followerNotional_ok] at built
    obtain ⟨x, -, notional, -, built⟩ := built
    split at built
    next =>
      rw [pure_ok] at built
      cases built
    next some =>
      simp only [bind_ok, pure_ok, orThrow_ok, Prod.exists] at built
      obtain ⟨recipient, named, target, data, called, same⟩ := built
      cases Option.some.inj same
      exact ⟨some, named, rfl, rfl, called⟩

/-! ### The loop -/

/-- What the loop leaves behind for one entry. -/
def Round (base : ℤ) (f : Json) (b : Option Build) : Prop :=
  ∃ part, allocationBps f = some part ∧ amountOf b = share base part ∧
    ∀ c, b = some c → c.amountIn ≠ 0 ∧ addressOf f = some c.recipient

/-- A base that is a share of a multiple of 10^8. -/
def wholeBase (unit size : ℤ) : ℤ := unit * 10 ^ 4 * size

theorem wholeBase_multiple (unit size : ℤ) :
    unit * 10 ^ 8 * size = 10000 * wholeBase unit size := by
  rw [wholeBase]
  ring

theorem base_whole (unit size : ℤ) : (unit * 10 ^ 8 * size).tdiv 10000 = wholeBase unit size := by
  rw [wholeBase_multiple, Int.mul_tdiv_cancel_left _ (by decide)]

/-- Rounded down or towards zero, the base is the same. -/
theorem base_floor (unit size : ℤ) : unit * 10 ^ 8 * size / 10000 = wholeBase unit size := by
  rw [wholeBase_multiple, Int.mul_ediv_cancel_left _ (by decide)]

theorem amountFor_whole {unit size part : ℤ} {f : Json} (allocated : allocationBps f = some part) :
    amountFor (wholeBase unit size) f = unit * size * part ∧
      share (wholeBase unit size) part = unit * size * part := by
  have multiple : wholeBase unit size * part = 10000 * (unit * size * part) := by
    rw [wholeBase]
    ring
  constructor
  · rw [amountFor, allocated, Option.getD_some, multiple,
      Int.mul_ediv_cancel_left _ (by decide)]
  · rw [share, multiple, Int.mul_tdiv_cancel_left _ (by decide)]

/-- Entry by entry: the ones that are skipped have no share. -/
theorem rounds_exact {unit size : ℤ} {fs : List Json} {bs : List (Option Build)}
    (rounds : List.Forall₂ (Round (wholeBase unit size)) fs bs) :
    List.Forall₂
      (fun f b => addressOf f = some b.recipient ∧ b.amountIn = amountFor (wholeBase unit size) f)
      (fs.filter fun f => amountFor (wholeBase unit size) f ≠ 0) bs.reduceOption := by
  induction rounds with
  | nil => exact .nil
  | @cons f b fs bs head _ ih =>
    obtain ⟨part, allocated, amount, named⟩ := head
    obtain ⟨exact, rounded⟩ : amountFor (wholeBase unit size) f = unit * size * part ∧ _ :=
      amountFor_whole allocated
    rw [rounded, ← exact] at amount
    -- an entry is skipped exactly if its share is zero
    cases b with
    | none =>
      have nothing : ¬decide (amountFor (wholeBase unit size) f ≠ 0) = true := by
        simp only [decide_eq_true_eq, not_not]
        exact amount.symm
      rw [List.filter_cons, if_neg nothing, List.reduceOption_cons_of_none]
      exact ih
    | some c =>
      obtain ⟨some, address⟩ := named c rfl
      have amount : c.amountIn = amountFor (wholeBase unit size) f := amount
      have something : decide (amountFor (wholeBase unit size) f ≠ 0) = true := by
        rw [decide_eq_true_eq, ← amount]
        exact some
      rw [List.filter_cons, if_pos something, List.reduceOption_cons_of_some]
      exact .cons ⟨address, amount⟩ ih

theorem rounds_fanOut {unit size : ℤ} {fs : List Json} {bs : List (Option Build)}
    (nonempty : fs ≠ []) (rounds : List.Forall₂ (Round (wholeBase unit size)) fs bs) :
    FanOut (wholeBase unit size) fs bs.reduceOption where
  exact := rounds_exact rounds
  remainder := by
    have shares : List.Forall₂
        (fun f b => ∃ p, allocationBps f = some p ∧ amountOf b = unit * size * p) fs bs := by
      refine rounds.imp fun f b round => ?_
      obtain ⟨part, allocated, amount, -⟩ := round
      exact ⟨part, allocated, amount.trans (amountFor_whole allocated).2⟩
    obtain ⟨parts, allocated, total⟩ := sum_amounts shares
    -- with a base of whole units nothing at all is left over
    have nothing : wholeBase unit size * parts.sum -
        10000 * (bs.reduceOption.map Build.amountIn).sum = 0 := by
      rw [sum_reduceOption, total, wholeBase]
      ring
    have some : 0 < fs.length := List.length_pos_iff.mpr nonempty
    refine ⟨parts, allocated, ?_, ?_⟩
    · rw [nothing]
    · rw [nothing]
      omega

/-! ### The two paths -/

theorem accept_payload {direction : Direction} {sizePct : Number} {venue : Build → JsString}
    {empty : JsString} {reading : ℕ} {builds : List Build} {a : Accepted}
    (h : accept host signal direction sizePct venue empty reading builds = .ok a) :
    ∃ first rest, a.builds = first :: rest ∧ builds = first :: rest ∧
      a.payload = payload host a.builds (venue first) := by
  simp only [accept] at h
  split at h
  next => cases h
  next first rest =>
    cases Except.ok.inj h
    exact ⟨first, rest, rfl, rfl, rfl⟩

theorem swapStageB_payload {a : Accepted}
    (h : swapStageB host signal = .ok a) : ∃ venue, a.payload = payload host a.builds venue := by
  simp only [swapStageB, bind_ok] at h
  obtain ⟨_, -, _, -, _, -, _, -, _, -, _, -, _, -, _, -, _, -, _, -, _, -, done⟩ := h
  obtain ⟨first, rest, -, -, paid⟩ := accept_payload done
  exact ⟨_, paid⟩

theorem readPrices_ok {prices : Uint256 × Uint256} (h : readPrices host = .ok prices) :
    host.rpc.spotPrices = some prices := by
  simp only [readPrices, bind_ok, orThrow_ok, pure_ok, Prod.exists] at h
  obtain ⟨ftsoV2, named, fxrp, _, fed, usdt0, _, fed', _, -, rfl⟩ := h
  simp only [Rpc.spotPrices, named, fed, fed', Option.bind_eq_bind, Option.bind_some,
    Option.pure_def]

theorem tokenAddress_ok {configured : Option JsString} {manager : JsString} {a : Address}
    (h : tokenAddress host configured manager = .ok a) :
    host.rpc.token configured manager = some a := by
  simp only [tokenAddress] at h
  simp only [Rpc.token]
  cases setting : configured.filter fun s => startsWith s (text "0x") with
  | some s =>
    rw [setting] at h
    exact orThrow_ok.mp h
  | none =>
    simp only [setting, bind_ok, orThrow_ok] at h
    obtain ⟨assetManager, named, issued⟩ := h
    rw [← issued]
    exact congrArg (fun m => Option.bind m host.rpc.fAsset) named

/-- FXRP as a host resolves it. -/
def Host.fxrp (host : Host) : Option Address :=
  host.rpc.token host.env.c2FxrpAddress (text "AssetManagerFXRP")

/-- USDT0 as a host resolves it. -/
def Host.usdt0 (host : Host) : Option Address :=
  host.rpc.token host.env.c2Usdt0Address (text "AssetManagerUSDT0")

/-- What a signal accepted on the swap path has gone through. -/
structure SwapTrade (host : Host) (signal : Json) (a : Accepted) where
  direction : Direction
  size : ℤ
  followers : List FollowerAlloc
  fxrp : Address
  usdt0 : Address
  prices : Uint256 × Uint256
  rounds : List (Option Build)
  asset : (signal.get (text "asset")).bind Json.asString ∈
    [some (text "FXRP"), some (text "USDT0")]
  directed : asDirection (signal.get (text "direction")) = some direction
  sized : sizeBps signal = some size
  traders : Traders signal followers
  quoted : host.rpc.spotPrices = some prices
  resolved : host.fxrp = some fxrp ∧ host.usdt0 = some usdt0
  built : List.Forall₂
    (fun p b => swapBuild host (pairOf direction fxrp usdt0 prices) (wholeBase (10 ^ 16) size) p.2
      p.1 = .ok b) followers.zipIdx rounds
  builds : a.builds = rounds.reduceOption
  instructed : a.builds ≠ []

theorem swapStageB_ok {a : Accepted} (h : swapStageB host signal = .ok a) :
    Nonempty (SwapTrade host signal a) := by
  simp only [swapStageB, bind_ok, orReturn_ok, returnIf_ok, baseNotional_ok, mapM_ok] at h
  obtain ⟨_, asset, direction, directed, sizePct, stated, followers, checked, _, -, prices, read,
    fxrp, resolved, usdt0, resolved', base, ⟨size, whole, rfl⟩, _, -, rounds, built, done⟩ := h
  obtain ⟨first, rest, builds, rounds', -⟩ := accept_payload done
  have capped : notionalCapWei = 10 ^ 16 * 10 ^ 8 := by decide
  rw [capped, base_whole] at built
  refine ⟨⟨direction, size, followers, fxrp, usdt0, prices, rounds, ?_, directed, ?_,
    checkFollowers_ok.mp checked, readPrices_ok read,
    ⟨tokenAddress_ok resolved, tokenAddress_ok resolved'⟩, ?_, builds.trans rounds'.symm, ?_⟩⟩
  · simpa [or_iff_not_imp_left] using asset
  · rw [sizeBps, stated, Option.bind_some, whole]
  · cases direction <;> exact built
  · rw [builds]
    exact List.cons_ne_nil _ _

/-- On the swap path the followers are the entries, as they are read. -/
theorem Traders.entries {followers : List FollowerAlloc} (traders : Traders signal followers) :
    List.Forall₂ (fun f g => addressOf f = getAddress g.address ∧
      ∀ part, g.allocationBps.trunc.toBigInt = some part → allocationBps f = some part)
      (entries signal) followers := by
  simp only [Traders] at traders
  simp only [Mirror.entries]
  cases listed : followersOf signal with
  | some fs =>
    rw [listed] at traders
    refine traders.imp fun f g valid => ⟨?_, fun part whole => ?_⟩
    · obtain ⟨text, -⟩ := Option.filter_eq_some_iff.mp valid.1
      rw [addressOf, text, Option.bind_some]
    · exact checkFollower_allocation (checkFollower_ok.mpr valid) whole
  | none =>
    rw [listed] at traders
    obtain ⟨recipient, named, rfl⟩ := traders
    obtain ⟨text, -⟩ := Option.filter_eq_some_iff.mp named
    obtain ⟨v, found, string⟩ := Option.bind_eq_some_iff.mp text
    refine .cons ⟨?_, fun part whole => ?_⟩ .nil
    · rw [found, Option.getD_some]
      exact congrArg (fun s => Option.bind s getAddress) string
    · exact whole

theorem entries_nonempty (signal : Json) : entries signal ≠ [] := by
  simp only [entries]
  split
  next fs listed =>
    obtain ⟨-, some⟩ := Option.filter_eq_some_iff.mp listed
    simpa using some
  next => exact List.cons_ne_nil _ _

theorem SwapTrade.fanOut {a : Accepted} (trade : SwapTrade host signal a) :
    FanOut (wholeBase (10 ^ 16) trade.size) (Mirror.entries signal) a.builds := by
  have each : List.Forall₂ (fun g b => ∃ part, g.allocationBps.trunc.toBigInt = some part ∧
      amountOf b = share (wholeBase (10 ^ 16) trade.size) part ∧
      ∀ c, b = some c → c.amountIn ≠ 0 ∧ getAddress g.address = some c.recipient)
      trade.followers trade.rounds := by
    refine forall₂_zipIdx (trade.built.imp ?_)
    intro p b built
    obtain ⟨part, whole, amount, named⟩ := swapBuild_ok built
    refine ⟨part, whole, amount, fun c same => ?_⟩
    obtain ⟨some, recipient, -⟩ := named c same
    exact ⟨some, recipient⟩
  have rounds := (forall₂_comp trade.traders.entries each).imp fun f b both => by
    obtain ⟨g, ⟨address, allocated⟩, part, whole, amount, named⟩ := both
    refine (⟨part, allocated part whole, amount, fun c same => ?_⟩ :
      Round (wholeBase (10 ^ 16) trade.size) f b)
    obtain ⟨some, recipient⟩ := named c same
    exact ⟨some, address.trans recipient⟩
  rw [trade.builds]
  exact rounds_fanOut (entries_nonempty signal) rounds

/-- What a signal accepted by a mock venue has gone through. -/
structure MockTrade (host : Host) (signal : Json) (venue : MockVenue) (a : Accepted) where
  size : ℤ
  rounds : List (Option Build)
  sized : sizeBps signal = some size
  built : List.Forall₂ (fun f b => mockBuild host venue (wholeBase (10 ^ 4) size) f = .ok b)
    (entries signal) rounds
  builds : a.builds = rounds.reduceOption
  instructed : a.builds ≠ []
  paid : a.payload = payload host a.builds venue.name

theorem buildMockVenueStageB_ok {venue : MockVenue} {a : Accepted}
    (h : buildMockVenueStageB host signal venue = .ok a) :
    Nonempty (MockTrade host signal venue a) := by
  simp only [buildMockVenueStageB, bind_ok, orReturn_ok, baseNotional_ok, mapM_ok] at h
  obtain ⟨sizePct, stated, targets, targeted, base, ⟨size, whole, rfl⟩, rounds, built, done⟩ := h
  obtain ⟨first, rest, builds, rounds', paid⟩ := accept_payload done
  have capped : notionalCap = 10 ^ 4 * 10 ^ 8 := by decide
  rw [capped, base_whole] at built
  have same : targets = entries signal := by
    simp only [mockTargets] at targeted
    simp only [entries]
    cases listed : followersOf signal with
    | some fs =>
      rw [listed] at targeted
      exact ((pure_ok _ _).mp targeted).symm
    | none =>
      simp only [listed, bind_ok, orReturn_ok, pure_ok] at targeted
      obtain ⟨recipient, named, rfl⟩ := targeted
      obtain ⟨text, -⟩ := Option.filter_eq_some_iff.mp named
      obtain ⟨v, found, string⟩ := Option.bind_eq_some_iff.mp text
      cases v with
      | str s =>
        cases string
        rw [found]
        rfl
      | null | bool | num | arr | obj => cases string
  rw [same] at built
  refine ⟨⟨size, rounds, ?_, built, builds.trans rounds'.symm, ?_, paid⟩⟩
  · rw [sizeBps, stated, Option.bind_some, whole]
  · rw [builds]
    exact List.cons_ne_nil _ _

theorem MockTrade.fanOut {venue : MockVenue} {a : Accepted}
    (trade : MockTrade host signal venue a) :
    FanOut (wholeBase (10 ^ 4) trade.size) (entries signal) a.builds := by
  have rounds := trade.built.imp fun f b built => by
    obtain ⟨part, allocated, amount, named⟩ := mockBuild_ok built
    refine (⟨part, allocated, amount, fun c same => ?_⟩ :
      Round (wholeBase (10 ^ 4) trade.size) f b)
    obtain ⟨some, recipient, -⟩ := named c same
    exact ⟨some, recipient⟩
  rw [trade.builds]
  exact rounds_fanOut (entries_nonempty signal) rounds

end Mirror
