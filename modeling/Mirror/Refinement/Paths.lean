import Mirror.Refinement.Conversions

/-!
What a message has to carry, on each path, for no conversion to throw: the conditions of the
handlers' stages, put together in the order in which the stages run.
-/
namespace Mirror

open Evm hiding Byte
open Js Completion

/-! ### Validation on the swap path -/

/-- An entry of `followers` that passes validation. -/
def ValidFollower (f : Json) (g : FollowerAlloc) : Prop :=
  addressText (f.get (text "address")) = some g.address ∧
  (f.get (text "allocationBps")).bind Json.asNumber = some g.allocationBps ∧
  g.allocationBps.le (.ofRat 0) = false

/-- Those who trade on a signal, the recipient on its own with everything. -/
def Traders (signal : Json) (followers : List FollowerAlloc) : Prop :=
  match followersOf signal with
  | some fs => List.Forall₂ ValidFollower fs followers
  | none => ∃ recipient, addressText (signal.get (text "recipient")) = some recipient ∧
      followers = [⟨recipient, .ofRat 10000⟩]

/-- Validation meets no `null` before it ends. -/
def NoNullFollower (signal : Json) : Prop :=
  ∀ fs, followersOf signal = some fs →
    ∀ f, Reached (fun f => ∃ g, ValidFollower f g) fs f → f.isNull = false

theorem checkFollower_ok {f : Json} {g : FollowerAlloc} :
    checkFollower f = .ok g ↔ ValidFollower f g := by
  unfold checkFollower
  split
  next null =>
    -- reading a property of `null` throws, so no follower comes of it
    cases f with
    | null => exact ⟨fun h => (nomatch h), fun valid => (nomatch valid.1)⟩
    | bool | num | str | arr | obj => cases null
  next =>
    simp only [bind_ok, orReturn_ok, pure_ok, Option.filter_eq_some_iff, Bool.not_eq_true',
      ValidFollower]
    constructor
    · rintro ⟨s, address, x, ⟨number, positive⟩, rfl⟩
      exact ⟨address, number, positive⟩
    · rintro ⟨address, number, positive⟩
      exact ⟨_, address, _, ⟨number, positive⟩, rfl⟩

theorem checkFollower_settles (f : Json) :
    ((checkFollower f).Settles fun _ => True) ↔ f.isNull = false := by
  unfold checkFollower
  split
  next null => simp [null]
  next object =>
    simp only [object, settles_bind, settles_orReturn, settles_pure, implies_true]

theorem checkFollowers_ok {signal : Json} {followers : List FollowerAlloc} :
    checkFollowers signal = .ok followers ↔ Traders signal followers := by
  unfold checkFollowers Traders
  cases followersOf signal with
  | some fs => simp only [mapM_ok, checkFollower_ok]
  | none => simp only [bind_ok, orReturn_ok, pure_ok, eq_comm (b := followers)]

theorem checkFollowers_settles (signal : Json) :
    ((checkFollowers signal).Settles fun _ => True) ↔ NoNullFollower signal := by
  unfold checkFollowers NoNullFollower
  cases followersOf signal with
  | some fs =>
    simp only [settles_mapM, eachSettles_iff checkFollower_settles
      fun f => exists_congr fun g => checkFollower_ok (f := f) (g := g), Option.some.injEq,
      forall_eq', implies_true, and_true]
  | none =>
    simp only [settles_bind, settles_orReturn, settles_pure, implies_true, reduceCtorEq,
      false_imp_iff]

/-! ### The two paths -/

section

variable {host : Host} {signal : Json} {fine : Prop}

/-- The spot prices of FXRP and of USDT0, where they can be read. -/
def Rpc.spotPrices (rpc : Rpc) : Option (Uint256 × Uint256) := do
  -- the second component of a feed, its time, is read by nobody
  let ftsoV2 ← rpc.getContractAddressByName (text "FtsoV2")
  let fxrpFeed ← rpc.getFeedByIdInWei ftsoV2 fxrpUsdFeedId
  let usdt0Feed ← rpc.getFeedByIdInWei ftsoV2 usdt0UsdFeedId
  return (fxrpFeed.1, usdt0Feed.1)

/-- A token as it is configured, or else as the chain names it. -/
def Rpc.token (rpc : Rpc) (configured : Option JsString) (manager : JsString) : Option Address :=
  -- a setting that does not start with `0x` counts as none
  match configured.filter fun s => startsWith s (text "0x") with
  | some s => getAddress s
  | none => (rpc.getContractAddressByName manager).bind rpc.fAsset

/-- What is sold for what. -/
def pairOf (direction : Direction) (fxrp usdt0 : Address) (prices : Uint256 × Uint256) : Pair :=
  match direction with
  | .buy => ⟨usdt0, fxrp, prices.2, prices.1⟩
  | .sell => ⟨fxrp, usdt0, prices.1, prices.2⟩

/-- Those a signal on the mock path is for. -/
def Targets (signal : Json) (targets : List Json) : Prop :=
  match followersOf signal with
  | some fs => targets = fs
  -- the entry that the source writes itself for a recipient on its own
  | none => ∃ recipient, addressText (signal.get (text "recipient")) = some recipient ∧
      targets = [.obj [(text "address", .str recipient), (text "allocationBps", natJson 10000)]]

/-- A loop over those whom a signal is for, on one of the paths, reaches its end with an
instruction. -/
inductive Served (host : Host) (signal : Json) : Prop
  | swap {followers : List FollowerAlloc} {pair : Pair} {base : ℤ}
      (trade : Traders signal followers)
      (passed : ∀ g ∈ followers, FollowerPasses host pair base g)
      (some : ∃ g ∈ followers, FollowerFunded base g)
  | mock {venue : MockVenue} {size : ℤ} {targets : List Json}
      (sized : sizeBps signal = .some size) (targeted : Targets signal targets)
      (passed : ∀ f ∈ targets, TargetPasses host venue (share notionalCap size) f)
      (some : ∃ f ∈ targets, Funded (share notionalCap size) f)

/-- What a signal on the swap path needs for nothing to throw: everything that is converted before
a check refuses the signal can be converted. -/
def SwapSafe (host : Host) (signal : Json) (fine : Prop) : Prop :=
  ∀ direction size,
    (signal.get (text "asset")).bind Json.asString ∈
      [some (text "FXRP"), some (text "USDT0")] →
    asDirection (signal.get (text "direction")) = some direction →
    sizeBps signal = some size →
    NoNullFollower signal ∧
    ∀ followers, Traders signal followers → truthy host.env.flareRpcUrl ≠ none →
      ∃ prices, host.rpc.spotPrices = some prices ∧ (prices.1 ≠ 0 → prices.2 ≠ 0 →
        ∃ fxrp, host.rpc.token host.env.c2FxrpAddress (text "AssetManagerFXRP") = some fxrp ∧
        ∃ usdt0, host.rpc.token host.env.c2Usdt0Address (text "AssetManagerUSDT0") = some usdt0 ∧
          (share notionalCapWei size ≠ 0 →
            LoopSafe
              (FollowerSafe host (pairOf direction fxrp usdt0 prices) (share notionalCapWei size))
              (FollowerPasses host (pairOf direction fxrp usdt0 prices) (share notionalCapWei size))
              (FollowerFunded (share notionalCapWei size)) followers fine))

theorem SwapSafe.mono {fine' : Prop} (h : SwapSafe host signal fine)
    (weaker : Served host signal → fine → fine') : SwapSafe host signal fine' := by
  intro direction size asset directed sized
  obtain ⟨nulls, traded⟩ := h direction size asset directed sized
  refine ⟨nulls, ?_⟩
  intro followers trade url
  obtain ⟨prices, read, quoted⟩ := traded followers trade url
  refine ⟨prices, read, ?_⟩
  intro fxrpUsd usdt0Usd
  obtain ⟨fxrp, issued, usdt0, issued', loops⟩ := quoted fxrpUsd usdt0Usd
  refine ⟨fxrp, issued, usdt0, issued', ?_⟩
  intro base
  -- the conditions on the way are the same; only the end of the loop changes
  refine (loops base).mono ?_
  intro passed some
  exact weaker (.swap trade passed some)

theorem settles_checkFollowers {post : List FollowerAlloc → Prop} :
    (checkFollowers signal).Settles post ↔
      NoNullFollower signal ∧ ∀ followers, Traders signal followers → post followers := by
  rw [settles_iff, checkFollowers_settles]
  simp only [checkFollowers_ok]

theorem settles_readPrices {post : Uint256 × Uint256 → Prop} :
    (readPrices host).Settles post ↔ ∃ prices, host.rpc.spotPrices = some prices ∧
      (prices.1 ≠ 0 → prices.2 ≠ 0 → post prices) := by
  simp only [readPrices, Rpc.spotPrices, settles_bind, settles_orThrow, settles_returnIf,
    settles_pure, not_or, and_imp, Option.bind_eq_bind, Option.bind_eq_some_iff, Option.pure_def,
    Option.some.injEq]
  constructor
  · rintro ⟨ftsoV2, named, fxrp, fed, usdt0, fed', after⟩
    exact ⟨_, ⟨ftsoV2, named, fxrp, fed, usdt0, fed', rfl⟩, after⟩
  · rintro ⟨_, ⟨ftsoV2, named, fxrp, fed, usdt0, fed', rfl⟩, after⟩
    exact ⟨ftsoV2, named, fxrp, fed, usdt0, fed', after⟩

theorem settles_tokenAddress {configured : Option JsString} {manager : JsString}
    {post : Address → Prop} :
    (tokenAddress host configured manager).Settles post ↔
      ∃ a, host.rpc.token configured manager = some a ∧ post a := by
  unfold tokenAddress Rpc.token
  cases configured.filter fun s => startsWith s (text "0x") with
  | some s => rw [settles_orThrow]
  -- the two calls of the asset manager, one after the other
  | none =>
    simp only [settles_bind, settles_orThrow, Option.bind_eq_some_iff]
    constructor
    · rintro ⟨assetManager, named, a, issued, met⟩
      exact ⟨a, ⟨assetManager, named, issued⟩, met⟩
    · rintro ⟨a, ⟨assetManager, named, issued⟩, met⟩
      exact ⟨assetManager, named, a, issued, met⟩

theorem settles_baseNotional {cap size : ℤ} {x : Number} (whole : x.trunc.toBigInt = some size)
    {post : ℤ → Prop} : (baseNotional cap x).Settles post ↔ post (share cap size) := by
  simp only [baseNotional, whole, orThrow_some, pure_bind, settles_pure, share]

/-- A size that a path takes is a number of basis points. -/
theorem sizeOf_whole {x : Number} (sized : sizeOf signal = some x) :
    ∃ size, x.trunc.toBigInt = some size ∧ sizeBps signal = some size := by
  obtain ⟨-, finite⟩ := Option.filter_eq_some_iff.mp sized
  cases x with
  | finite d =>
    have whole := Number.trunc_toBigInt d
    exact ⟨_, whole, by rw [sizeBps, sized, Option.bind_some, whole]⟩
  | nan | infinity => cases finite

theorem swapStageB_settles :
    ((swapStageB host signal).Settles fun _ => fine) ↔ SwapSafe host signal fine := by
  -- the clock is read once for each follower, so the loop runs over numbered followers
  have loop := fun (direction : Direction) (sizePct : Number) (pair : Pair) (base : ℤ)
      (followers : List FollowerAlloc) =>
    (loop_settles (fun p : FollowerAlloc × ℕ => swapBuild_fate host pair base p.2 p.1)
      followers.zipIdx
      (accept_settles fine host signal direction sizePct (fun first => first.venue)
        (text "fan-out produced zero instructions") followers.length)).trans
      (loopSafe_zipIdx followers)
  simp only [swapStageB, settles_bind, settles_returnIf, settles_orReturn, settles_checkFollowers,
    settles_readPrices, settles_tokenAddress, loop, not_and_or, not_ne_iff]
  -- what is left is the same on both sides, for either direction
  constructor
  · intro h direction size asset directed sized
    obtain ⟨x, stated, whole⟩ := Option.bind_eq_some_iff.mp sized
    have trade := h (by simpa using asset) direction directed x stated
    simp only [settles_baseNotional whole] at trade
    cases direction <;> exact trade
  · intro h asset direction directed x stated
    obtain ⟨size, whole, sized⟩ := sizeOf_whole stated
    have trade := h direction size (by simpa using asset) directed sized
    simp only [settles_baseNotional whole]
    cases direction <;> exact trade

/-- What a signal on the mock path needs for nothing to throw. -/
def MockSafe (host : Host) (signal : Json) (venue : MockVenue) (fine : Prop) : Prop :=
  ∀ size targets, sizeBps signal = some size → Targets signal targets →
    LoopSafe (TargetSafe host venue (share notionalCap size))
      (TargetPasses host venue (share notionalCap size)) (Funded (share notionalCap size)) targets
      fine

theorem MockSafe.mono {venue : MockVenue} {fine' : Prop} (h : MockSafe host signal venue fine)
    (weaker : Served host signal → fine → fine') : MockSafe host signal venue fine' := by
  intro size targets sized targeted
  refine (h size targets sized targeted).mono ?_
  intro passed some
  exact weaker (.mock sized targeted passed some)

theorem settles_mockTargets {post : List Json → Prop} :
    (mockTargets signal).Settles post ↔ ∀ targets, Targets signal targets → post targets := by
  unfold mockTargets Targets
  cases followersOf signal with
  | some fs => simp only [settles_pure, forall_eq]
  | none =>
    simp only [settles_bind, settles_orReturn, settles_pure, forall_exists_index, and_imp]
    exact ⟨fun h _ recipient named same => same ▸ h recipient named,
      fun h recipient named => h _ recipient named rfl⟩

theorem buildMockVenueStageB_settles (venue : MockVenue) :
    ((buildMockVenueStageB host signal venue).Settles fun _ => fine) ↔
      MockSafe host signal venue fine := by
  have loop := fun (sizePct : Number) (base : ℤ) (targets : List Json) =>
    loop_settles (mockBuild_fate host venue base) targets
      (accept_settles fine host signal .buy sizePct (fun _ => venue.name)
        (text "mock venue fan-out produced zero instructions") 0)
  simp only [buildMockVenueStageB, settles_bind, settles_orReturn, settles_mockTargets, loop]
  -- this path logs every signal as a purchase, so no direction is asked for
  constructor
  · intro h size targets sized targeted
    obtain ⟨x, stated, whole⟩ := Option.bind_eq_some_iff.mp sized
    exact (settles_baseNotional whole).mp (h x stated targets targeted)
  · intro h x stated targets targeted
    obtain ⟨size, whole, sized⟩ := sizeOf_whole stated
    exact (settles_baseNotional whole).mpr (h size targets sized targeted)

/-! ### Messages -/

/-- What a message says once the hex text is read and, where that is possible, decrypted. -/
def Plaintext (host : Host) (msg : JsString) (bytes : List Byte) : Prop :=
  ∃ ciphertext, hexToBytes msg = .ok ciphertext ∧
    -- the bytes themselves count only where decryption is impossible or has failed
    ((host.env.signPort ≠ none ∧ host.decrypt ciphertext = .ok bytes) ∨
      ((host.env.signPort ≠ none → ∃ e, host.decrypt ciphertext = .error e) ∧
        host.env.fcePlaintextDecryptFallback = some (text "1") ∧ ciphertext = bytes))

/-- The signal of a message. -/
def Carries (host : Host) (msg : JsString) (signal : Json) : Prop :=
  ∃ bytes, Plaintext host msg bytes ∧ safeJsonParse bytes = signal ∧ signal.isObject = true

/-- The venue that a signal is for, in lower case. -/
def Hinted (host : Host) (signal : Json) (hint : JsString) : Prop :=
  match (defined signal (text "venue")).or (defined signal (text "strategyKind")) with
  | some v => ∃ s, v.toText = some s ∧ host.toLowerCase s = hint
  | none => host.toLowerCase (host.env.executionVenue.getD (text "mock-sparkdex")) = hint

/-- What a message to `MATCH_V1` needs for nothing to throw, and for its signal to be `fine` where
that is accepted. -/
def MatchSafe (host : Host) (msg : JsString) (fine : Json → Prop) : Prop :=
  ∀ signal, Carries host msg signal →
    ∃ hint, Hinted host signal hint ∧
      match route host hint with
      | some venue => MockSafe host signal venue (fine signal)
      | none => SwapSafe host signal (fine signal)

theorem MatchSafe.mono {msg : JsString} {fine fine' : Json → Prop}
    (h : MatchSafe host msg fine)
    (weaker : ∀ signal, Carries host msg signal → Served host signal → fine signal →
      fine' signal) : MatchSafe host msg fine' := by
  intro signal carries
  obtain ⟨hint, hinted, path⟩ := h signal carries
  refine ⟨hint, hinted, ?_⟩
  cases taken : route host hint with
  | some venue =>
    rw [taken] at path
    exact path.mono (weaker signal carries)
  | none =>
    rw [taken] at path
    exact path.mono (weaker signal carries)

theorem decodeHex_ok {msg : JsString} {bytes : List Byte} :
    decodeHex msg = .ok bytes ↔ hexToBytes msg = .ok bytes := by
  unfold decodeHex
  cases hexToBytes msg <;> simp [returning]

theorem decodeHex_settles (msg : JsString) : (decodeHex msg).Settles fun _ => True := by
  unfold decodeHex
  cases hexToBytes msg <;> exact trivial

theorem decryptMessage_ok {msg : JsString} {bytes : List Byte} :
    decryptMessage host msg = .ok bytes ↔ Plaintext host msg bytes := by
  unfold decryptMessage Plaintext
  simp only [bind_ok, decodeHex_ok]
  refine exists_congr fun ciphertext => and_congr_right fun _ => ?_
  -- with or without the fallback, and with or without a node to ask
  by_cases fallback : host.env.fcePlaintextDecryptFallback = some (text "1")
  · cases host.env.signPort with
    | none => simp [fallback, pure_ok]
    | some port => cases host.decrypt ciphertext <;> simp [fallback, pure_ok]
  · cases host.env.signPort with
    | none => simp [fallback, returning]
    | some port => cases host.decrypt ciphertext <;> simp [fallback, returning, pure_ok]

theorem decryptMessage_settles (msg : JsString) :
    (decryptMessage host msg).Settles fun _ => True := by
  unfold decryptMessage
  rw [settles_bind]
  refine settles_mono (fun ciphertext _ _ => ?_) (decodeHex_settles msg)
  by_cases fallback : host.env.fcePlaintextDecryptFallback = some (text "1")
  · cases host.env.signPort with
    | none => simp [fallback]
    | some port => cases host.decrypt ciphertext <;> simp [fallback]
  · cases host.env.signPort with
    | none => simp [fallback]
    | some port => cases host.decrypt ciphertext <;> simp [fallback]

theorem readSignal_ok {msg : JsString} :
    readSignal host msg = .ok signal ↔ Carries host msg signal := by
  simp only [readSignal, bind_ok, decryptMessage_ok, returnIf_ok, pure_ok, not_not, Carries]
  constructor
  · rintro ⟨bytes, plaintext, _, object, rfl⟩
    exact ⟨bytes, plaintext, rfl, object⟩
  · rintro ⟨bytes, plaintext, rfl, object⟩
    exact ⟨bytes, plaintext, (), object, rfl⟩

/-- A message carries one signal at most. -/
theorem Carries.unique {msg : JsString} {signal' : Json} (carries : Carries host msg signal)
    (carries' : Carries host msg signal') : signal = signal' :=
  Except.ok.inj ((readSignal_ok.mpr carries).symm.trans (readSignal_ok.mpr carries'))

theorem settles_readSignal {msg : JsString} {post : Json → Prop} :
    (readSignal host msg).Settles post ↔ ∀ signal, Carries host msg signal → post signal := by
  simp only [readSignal, settles_bind, settles_returnIf, settles_pure, Carries]
  rw [settles_iff]
  simp only [decryptMessage_settles, true_and, decryptMessage_ok, not_not]
  constructor
  · rintro h _ ⟨bytes, plaintext, rfl, object⟩
    exact h bytes plaintext object
  · intro h bytes plaintext object
    exact h _ ⟨bytes, plaintext, rfl, object⟩

theorem settles_venueHint {post : JsString → Prop} :
    (venueHint host signal).Settles post ↔ ∃ hint, Hinted host signal hint ∧ post hint := by
  unfold venueHint Hinted
  cases (defined signal (text "venue")).or (defined signal (text "strategyKind")) with
  | some v =>
    simp only [settles_bind, settles_orThrow, settles_pure]
    constructor
    · rintro ⟨s, named, met⟩
      exact ⟨_, ⟨s, named, rfl⟩, met⟩
    · rintro ⟨_, ⟨s, named, rfl⟩, met⟩
      exact ⟨s, named, met⟩
  | none => simp only [settles_pure, exists_eq_left']

theorem matchStageB_settles {msg : JsString} :
    ((matchStageB host msg).Settles fun _ => fine) ↔ MatchSafe host msg fun _ => fine := by
  simp only [matchStageB, executeSignal, settles_bind, settles_readSignal, settles_venueHint,
    MatchSafe]
  refine forall_congr' fun signal => imp_congr_right fun _ => exists_congr fun hint =>
    and_congr_right fun _ => ?_
  cases route host hint with
  | some venue => exact buildMockVenueStageB_settles venue
  | none => exact swapStageB_settles

/-! ### Top-ups -/

/-- `amountWei` as an integer, 0 where there is none. -/
def amountWei (parsed : Json) : Option ℤ :=
  match defined parsed (text "amountWei") with
  | some v => v.toText.bind bigIntOfText
  | none => some 0

/-- A top-up that the handler takes for valid, at this amount. -/
def ValidTopUp (host : Host) (parsed : Json) (amount : ℤ) : Prop :=
  startsWith (stringOr parsed (text "follower") []) (text "0x") = true ∧
  startsWith (stringOr parsed (text "kineticPool") (host.env.mockKineticPoolAddress.getD []))
    (text "0x") = true ∧
  0 < amount

/-- What a message to `TOPUP_V1` needs for nothing to throw, and for the top-up to be `fine` where
it is accepted. -/
def TopUpSafe (host : Host) (msg : JsString) (fine : Json → Prop) : Prop :=
  ∀ raw parsed, hexToBytes msg = .ok raw → Json.parse (utf8Decode raw) = some parsed →
    parsed.isNull = false ∧ ∃ amount, amountWei parsed = some amount ∧
      (ValidTopUp host parsed amount → amount < 2 ^ 256 ∧ fine parsed)

/-- A message with a top-up of this amount that the handler accepts. -/
structure CarriesTopUp (host : Host) (msg : JsString) (parsed : Json) (amount : ℤ) : Prop where
  read : ∃ raw, hexToBytes msg = .ok raw ∧ Json.parse (utf8Decode raw) = some parsed
  object : parsed.isNull = false
  amounts : amountWei parsed = some amount
  valid : ValidTopUp host parsed amount
  bounded : amount < 2 ^ 256

theorem TopUpSafe.mono {msg : JsString} {fine fine' : Json → Prop} (h : TopUpSafe host msg fine)
    (weaker : ∀ parsed amount, CarriesTopUp host msg parsed amount → fine parsed → fine' parsed) :
    TopUpSafe host msg fine' := by
  intro raw parsed decoded read
  obtain ⟨object, amount, amounts, accepted⟩ := h raw parsed decoded read
  refine ⟨object, amount, amounts, ?_⟩
  intro valid
  obtain ⟨bounded, tidy⟩ := accepted valid
  exact ⟨bounded, weaker parsed amount ⟨⟨raw, decoded, read⟩, object, amounts, valid, bounded⟩ tidy⟩

theorem settles_topUpAmount {parsed : Json} {post : ℤ → Prop} :
    (topUpAmount parsed).Settles post ↔ ∃ amount, amountWei parsed = some amount ∧ post amount := by
  unfold topUpAmount amountWei
  cases defined parsed (text "amountWei") with
  | none => simp only [settles_pure, Option.some.injEq, exists_eq_left']
  | some v =>
    simp only [settles_bind, settles_orThrow, Option.bind_eq_some_iff]
    constructor
    · rintro ⟨s, named, n, read, met⟩
      exact ⟨n, ⟨s, named, read⟩, met⟩
    · rintro ⟨n, ⟨s, named, read⟩, met⟩
      exact ⟨s, named, n, read, met⟩

theorem settles_decodeHex {msg : JsString} {post : List Byte → Prop} :
    (decodeHex msg).Settles post ↔ ∀ bytes, hexToBytes msg = .ok bytes → post bytes := by
  rw [settles_iff]
  simp only [decodeHex_settles, true_and, decodeHex_ok]

theorem topUp_encode {amount : ℤ} (positive : 0 < amount) :
    (∃ data, encodeFunctionData 0x35403023 [amount] = some data) ↔ amount < 2 ^ 256 := by
  rw [encode_some, List.forall_mem_singleton, IsWord]
  exact ⟨And.right, fun bounded => ⟨positive.le, bounded⟩⟩

theorem mirrorTopUp_settles {msg : JsString} :
    ((mirrorTopUp host msg).Settles fun _ => fine) ↔ TopUpSafe host msg fun _ => fine := by
  simp only [mirrorTopUp, settles_bind, settles_decodeHex, settles_orReturn, TopUpSafe]
  refine forall_congr' fun raw => ?_
  -- `JSON.parse` answers with one value at most, so the order of the two does not matter
  rw [forall_comm]
  refine forall_congr' fun parsed => imp_congr_right fun _ => imp_congr_right fun _ => ?_
  cases null : parsed.isNull with
  | true => simp
  | false =>
    simp only [Bool.false_eq_true, if_false, true_and, settles_bind, settles_topUpAmount,
      settles_returnIf, settles_orThrow, settles_pure, exists_and_right]
    refine exists_congr fun amount => and_congr_right fun _ => ?_
    simp only [not_or, not_not, not_le, ValidTopUp, and_imp]
    refine imp_congr_right fun _ => imp_congr_right fun _ => imp_congr_right fun positive => ?_
    -- only a valid amount reaches the ABI encoder, which takes what fits a word
    rw [topUp_encode positive]

theorem topUpAmount_ok {parsed : Json} {amount : ℤ} :
    topUpAmount parsed = .ok amount ↔ amountWei parsed = some amount := by
  unfold topUpAmount amountWei
  cases defined parsed (text "amountWei") with
  | none => simp only [pure_ok, Option.some.injEq]
  | some v => simp only [bind_ok, orThrow_ok, Option.bind_eq_some_iff]

/-- A top-up that is built is the one that its message carries. -/
theorem mirrorTopUp_carries {msg : JsString} {t : TopUp} :
    mirrorTopUp host msg = .ok t → ∃ parsed, CarriesTopUp host msg parsed t.amountWei ∧
      t.follower = stringOr parsed (text "follower") [] ∧
      t.lead = stringOr parsed (text "lead") [] := by
  simp only [mirrorTopUp, bind_ok, decodeHex_ok, orReturn_ok]
  rintro ⟨raw, decoded, parsed, read, done⟩
  refine ⟨parsed, ?_⟩
  cases object : parsed.isNull with
  | true =>
    rw [object] at done
    cases done
  | false =>
    simp only [object, Bool.false_eq_true, if_false, bind_ok, topUpAmount_ok, returnIf_ok,
      orThrow_ok, pure_ok, not_or, not_not, not_le] at done
    obtain ⟨amount, amounts, _, valid, data, encoded, rfl⟩ := done
    exact ⟨⟨⟨raw, decoded, read⟩, object, amounts, valid,
      (topUp_encode valid.2.2).mp ⟨data, encoded⟩⟩, rfl, rfl⟩

/-- A message that carries a top-up has it built. -/
theorem CarriesTopUp.built {msg : JsString} {parsed : Json} {amount : ℤ}
    (carries : CarriesTopUp host msg parsed amount) : ∃ t, mirrorTopUp host msg = .ok t ∧
      t.amountWei = amount ∧ t.follower = stringOr parsed (text "follower") [] ∧
      t.lead = stringOr parsed (text "lead") [] := by
  obtain ⟨⟨raw, decoded, read⟩, object, amounts, valid, bounded⟩ := carries
  obtain ⟨data, encoded⟩ := (topUp_encode valid.2.2).mpr bounded
  -- the top-up in full: the handler reads these fields and no others
  let t : TopUp := ⟨stringOr parsed (text "follower") [], stringOr parsed (text "lead") [],
    stringOr parsed (text "kineticPool") (host.env.mockKineticPoolAddress.getD []), amount, data⟩
  refine ⟨t, ?_, rfl, rfl, rfl⟩
  simp only [mirrorTopUp, bind_ok, decodeHex_ok, orReturn_ok]
  refine ⟨raw, decoded, parsed, read, ?_⟩
  simp only [object, Bool.false_eq_true, if_false, bind_ok, topUpAmount_ok, returnIf_ok,
    orThrow_ok, pure_ok, not_or, not_not, not_le]
  exact ⟨amount, amounts, (), valid, data, encoded, rfl⟩

end

end Mirror
