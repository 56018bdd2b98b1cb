import Mirror.Refinement.Signals

/-!
When the conversions of the handlers go through: what a round of the loops over targets needs for
no call into the language or its libraries to throw, and what the loops need.
-/
namespace Mirror

open Evm hiding Byte
open Js Completion

/-- A value of `uint256`. -/
def IsWord (n : ℤ) : Prop := 0 ≤ n ∧ n < 2 ^ 256

instance (n : ℤ) : Decidable (IsWord n) := inferInstanceAs (Decidable (_ ∧ _))

def IsAddress (s : JsString) : Prop := ∃ a, getAddress s = some a

/-- An instruction can be put into calldata: the recipient is an address, and so is the contract,
if there is one configured, which then takes amounts that fit. -/
structure Convertible (recipient contract : Option JsString) (amounts : List ℤ) : Prop where
  recipient : ∃ s, recipient = some s ∧ IsAddress s
  contract : ∀ s, contract = some s → IsAddress s ∧ ∀ n ∈ amounts, IsWord n

theorem encode_some {selector : ℕ} {args : List ℤ} :
    (∃ data, encodeFunctionData selector args = some data) ↔ ∀ n ∈ args, IsWord n := by
  unfold encodeFunctionData
  split
  next fits =>
    simp only [List.all_eq_true, decide_eq_true_eq] at fits
    exact ⟨fun _ => fits, fun _ => ⟨_, rfl⟩⟩
  next unfit =>
    simp only [List.all_eq_true, decide_eq_true_eq] at unfit
    constructor
    · rintro ⟨_, none⟩
      cases none
    · intro fits
      exact (unfit fits).elim

theorem isWord_val {n : ℕ} (x : Fin n) (fits : n ≤ 2 ^ 256) : IsWord x.val := by
  have := x.isLt
  unfold IsWord
  omega

/-! ### Calls to contracts -/

/-- When a call to a contract is put together: nothing throws, and it gets done. -/
structure CallFate (call : Body (Address × List Byte)) (contract : Option JsString)
    (amounts : List ℤ) : Prop where
  settles : (call.Settles fun _ => True) ↔
    ∀ s, contract = some s → IsAddress s ∧ ∀ n ∈ amounts, IsWord n
  ok : (∃ c, call = .ok c) ↔ ∃ s, contract = some s ∧ IsAddress s ∧ ∀ n ∈ amounts, IsWord n

/-- A call to the contract that a setting names. -/
def contractCall (contract : Option JsString) (missing : JsString) (data : Option (List Byte)) :
    Body (Address × List Byte) := do
  let s ← orReturn contract missing
  let target ← orThrow (getAddress s) .invalidAddress
  let data ← orThrow data .integerOutOfRange
  return (target, data)

theorem contractCall_fate {contract : Option JsString} {missing : JsString} {selector : ℕ}
    {args amounts : List ℤ} (fits : (∀ n ∈ args, IsWord n) ↔ ∀ n ∈ amounts, IsWord n) :
    CallFate (contractCall contract missing (encodeFunctionData selector args)) contract
      amounts where
  settles := by
    simp only [contractCall, settles_bind, settles_orReturn, settles_orThrow, settles_pure,
      and_true, exists_and_right, encode_some, fits, IsAddress]
  ok := by
    simp only [contractCall, bind_ok, orReturn_ok, orThrow_ok, pure_ok, IsAddress, ← fits]
    -- the setting is read first, then the target is checked, then the words are encoded
    constructor
    · rintro ⟨_, s, setting, target, address, bytes, encoded, -⟩
      exact ⟨s, setting, ⟨target, address⟩, encode_some.mp ⟨bytes, encoded⟩⟩
    · rintro ⟨s, setting, ⟨target, address⟩, words⟩
      obtain ⟨bytes, encoded⟩ := encode_some.mpr words
      exact ⟨(target, bytes), s, setting, target, address, bytes, encoded, rfl⟩

/-- The contract of a mock venue, where one is configured. -/
def MockVenue.contract (venue : MockVenue) (env : Environment) : Option JsString :=
  match venue with
  | .enosysCdp => truthy env.mockEnosysCdpAddress
  | .firelightStrategy => truthy env.mockFirelightStrategyAddress

theorem mockCall_fate (host : Host) (venue : MockVenue) (notional : ℤ) :
    CallFate (mockCall host venue notional) (venue.contract host.env) [notional] := by
  cases venue with
  | firelightStrategy => exact contractCall_fate Iff.rfl
  | enosysCdp =>
    -- half of a word is a word, so the second argument asks for nothing more
    have half : IsWord notional → IsWord (notional.tdiv 2) := by
      rintro ⟨nonneg, bounded⟩
      have floor : notional.tdiv 2 = notional / 2 := Int.tdiv_eq_ediv_of_nonneg nonneg
      unfold IsWord
      omega
    exact contractCall_fate (by simpa using half)

/-- The router that the swap path calls, where one is configured. -/
def routerOf (host : Host) : Option JsString :=
  if host.toLowerCase (host.env.executionVenue.getD (text "mock-sparkdex")) = text "blazeswap-v2"
  then truthy host.env.blazeswapRouterAddress
  else truthy host.env.mockSparkdexRouterAddress

theorem swapCall_fate (host : Host) (a : SwapArgs) (dated : a.deadline < 2 ^ 256) :
    CallFate
      (swapCall host (host.toLowerCase (host.env.executionVenue.getD (text "mock-sparkdex"))) a)
      (routerOf host) [a.amountIn, a.amountOutMinimum] := by
  have address : ∀ x : Address, IsWord x.val := fun x => isWord_val x (by decide)
  have deadline : IsWord a.deadline := by
    unfold IsWord
    omega
  -- the fee, the offset and the length of the path, and the price limit
  have constant : IsWord 0 ∧ IsWord 2 ∧ IsWord 160 ∧ IsWord 500 := by decide
  unfold swapCall routerOf
  split
  next => exact contractCall_fate (by simp [address, deadline, constant])
  next => exact contractCall_fate (by simp [address, deadline, constant])

/-! ### One target -/

/-- How a round of a loop over targets ends: with nothing thrown, with the loop going on, and then
with an instruction. -/
structure Fate (x : Body (Option Build)) (safe passes funded : Prop) : Prop where
  settles : (x.Settles fun _ => True) ↔ safe
  ok : (∃ b, x = .ok b) ↔ passes
  built : ∀ b, x = .ok b → (b ≠ none ↔ funded)

/-- The instruction for a recipient, given the call. -/
def instruct (recipient : Option JsString) (call : Address → Body (Address × List Byte))
    (build : Address → Address × List Byte → Build) : Body (Option Build) := do
  let recipientAddr ← orThrow (recipient.bind getAddress) .invalidAddress
  let c ← call recipientAddr
  return some (build recipientAddr c)

theorem instruct_fate {recipient contract : Option JsString}
    {call : Address → Body (Address × List Byte)} {amounts : List ℤ}
    (fate : ∀ recipient, CallFate (call recipient) contract amounts)
    (build : Address → Address × List Byte → Build) :
    Fate (instruct recipient call build) (Convertible recipient contract amounts)
      (Convertible recipient contract amounts ∧ ∃ s, contract = some s) True where
  settles := by
    simp only [instruct, settles_bind, settles_orThrow, settles_pure,
      fun recipient => (fate recipient).settles, exists_and_right, Option.bind_eq_some_iff]
    constructor
    · rintro ⟨⟨a, s, named, address⟩, called⟩
      exact ⟨⟨s, named, a, address⟩, called⟩
    · rintro ⟨⟨s, named, a, address⟩, called⟩
      exact ⟨⟨a, s, named, address⟩, called⟩
  ok := by
    simp only [instruct, bind_ok, orThrow_ok, pure_ok, Option.bind_eq_some_iff]
    constructor
    · rintro ⟨_, a, ⟨s, named, address⟩, c, called, -⟩
      obtain ⟨t, setting, target, words⟩ := (fate a).ok.mp ⟨c, called⟩
      refine ⟨⟨⟨s, named, a, address⟩, fun t' same => ?_⟩, t, setting⟩
      cases setting.symm.trans same
      exact ⟨target, words⟩
    · rintro ⟨⟨⟨s, named, a, address⟩, called⟩, t, setting⟩
      obtain ⟨c, done⟩ := (fate a).ok.mpr ⟨t, setting, called t setting⟩
      exact ⟨_, a, ⟨s, named, address⟩, c, done, rfl⟩
  built b done := by
    simp only [instruct, bind_ok, pure_ok] at done
    -- whatever the call is, the round ends with an instruction
    obtain ⟨_, -, _, -, rfl⟩ := done
    simp

theorem fate_thrown (e : Thrown) : Fate (throwing e) False False False where
  settles := by simp
  ok := by simp [throwing]
  built _ done := by cases done

theorem fate_skipped : Fate (pure none) True True False where
  settles := Iff.rfl
  ok := ⟨fun _ => trivial, fun _ => ⟨none, rfl⟩⟩
  built _ done := by
    cases done
    simp

theorem fate_refused (message : JsString) : Fate (returning message) True False False where
  settles := Iff.rfl
  ok := by simp [returning]
  built _ done := by cases done

/-! ### Targets of the mock venues -/

/-- A part of a base, in basis points. -/
def share (base part : ℤ) : ℤ := (base * part).tdiv 10000

/-- An allocation that can be read, of which something is left after rounding. -/
def Funded (base : ℤ) (f : Json) : Prop :=
  ∃ part, allocationBps f = some part ∧ share base part ≠ 0

/-- What a target of the mock path needs for nothing to throw. -/
def TargetSafe (host : Host) (venue : MockVenue) (base : ℤ) (f : Json) : Prop :=
  ∃ part, allocationBps f = some part ∧ (share base part ≠ 0 →
    Convertible ((f.get (text "address")).bind Json.asString) (venue.contract host.env)
      [share base part])

/-- What it needs for the loop to go on. -/
def TargetPasses (host : Host) (venue : MockVenue) (base : ℤ) (f : Json) : Prop :=
  TargetSafe host venue base f ∧ (Funded base f → ∃ s, venue.contract host.env = some s)

theorem Fate.congr {x : Body (Option Build)} {safe passes funded safe' passes' funded' : Prop}
    (fate : Fate x safe passes funded) (hs : safe ↔ safe') (hp : passes ↔ passes')
    (hf : passes → (funded ↔ funded')) : Fate x safe' passes' funded' where
  settles := fate.settles.trans hs
  ok := fate.ok.trans hp
  built b done := (fate.built b done).trans (hf (fate.ok.mp ⟨b, done⟩))

/-- The round of a target whose allocation cannot be read. -/
theorem mockBuild_unread (host : Host) (venue : MockVenue) (base : ℤ) {f : Json}
    (unread : allocationBps f = none) : ∃ e, mockBuild host venue base f = throwing e := by
  unfold mockBuild
  split
  next => exact ⟨_, rfl⟩
  next =>
    unfold allocationBps at unread
    -- one that is left out, has no number, or is a number that `BigInt` refuses
    cases found : f.get (text "allocationBps") with
    | none => exact ⟨.rangeError, rfl⟩
    | some v =>
      rw [found, Option.bind_some] at unread
      simp only [coerced]
      cases number : v.toNumber with
      | none => exact ⟨.typeError, rfl⟩
      | some x =>
        rw [number, Option.bind_some] at unread
        simp only [orThrow_some, pure_bind, followerNotional, unread, orThrow_none, throwing_bind]
        exact ⟨.rangeError, rfl⟩

theorem mockBuild_read (host : Host) (venue : MockVenue) (base : ℤ) {part : ℤ} {f : Json}
    (allocated : allocationBps f = some part) :
    ∃ build, mockBuild host venue base f =
      if share base part = 0 then pure none
      else instruct ((f.get (text "address")).bind Json.asString)
        (fun _ => mockCall host venue (share base part)) build := by
  obtain ⟨x, number, whole⟩ := Option.bind_eq_some_iff.mp allocated
  obtain ⟨v, found, number⟩ := Option.bind_eq_some_iff.mp number
  -- a target with an allocation is an object
  have object : f.isNull = false := by
    cases f with
    | null => cases found
    | bool | num | str | arr | obj => rfl
  refine ⟨fun recipient call =>
    ⟨call.1, call.2, venue.name, none, recipient, share base part⟩, ?_⟩
  unfold mockBuild
  rw [if_neg (by simp [object])]
  simp only [coerced, found, number, followerNotional, whole, orThrow_some, pure_bind]
  rfl

theorem mockBuild_fate (host : Host) (venue : MockVenue) (base : ℤ) (f : Json) :
    Fate (mockBuild host venue base f) (TargetSafe host venue base f)
      (TargetPasses host venue base f) (Funded base f) := by
  cases allocated : allocationBps f with
  | none =>
    obtain ⟨e, throws⟩ := mockBuild_unread host venue base allocated
    rw [throws]
    refine (fate_thrown e).congr ?_ ?_ ?_ <;> simp [TargetPasses, TargetSafe, Funded, allocated]
  | some part =>
    obtain ⟨build, reads⟩ := mockBuild_read host venue base allocated
    rw [reads]
    split
    next none =>
      refine fate_skipped.congr ?_ ?_ ?_ <;>
        simp [TargetPasses, TargetSafe, Funded, allocated, none]
    next some =>
      have call := fun _ : Address => mockCall_fate host venue (share base part)
      refine (instruct_fate call build).congr ?_ ?_ ?_ <;>
        simp [TargetPasses, TargetSafe, Funded, allocated, some]

/-! ### Followers on the swap path -/

/-- What a follower needs for nothing to throw. -/
def FollowerSafe (host : Host) (pair : Pair) (base : ℤ) (g : FollowerAlloc) : Prop :=
  ∃ part, g.allocationBps.trunc.toBigInt = some part ∧
    (share base part ≠ 0 → pair.amountOutMinimum (share base part) ≠ 0 →
      Convertible (some g.address) (routerOf host)
        [share base part, pair.amountOutMinimum (share base part)])

/-- What it needs for the loop to go on. -/
def FollowerPasses (host : Host) (pair : Pair) (base : ℤ) (g : FollowerAlloc) : Prop :=
  FollowerSafe host pair base g ∧ ∀ part, g.allocationBps.trunc.toBigInt = some part →
    share base part ≠ 0 →
      pair.amountOutMinimum (share base part) ≠ 0 ∧ ∃ s, routerOf host = some s

/-- A follower for whom something is left after rounding. -/
def FollowerFunded (base : ℤ) (g : FollowerAlloc) : Prop :=
  ∃ part, g.allocationBps.trunc.toBigInt = some part ∧ share base part ≠ 0

theorem swapBuild_read (host : Host) (pair : Pair) (base : ℤ) {part : ℤ} {g : FollowerAlloc}
    (reading : ℕ) (whole : g.allocationBps.trunc.toBigInt = some part) :
    ∃ message build, swapBuild host pair base reading g =
      if share base part = 0 then pure none
      else if pair.amountOutMinimum (share base part) = 0 then returning message
      else instruct (some g.address) (fun recipient =>
        swapCall host (host.toLowerCase (host.env.executionVenue.getD (text "mock-sparkdex")))
          ⟨pair, recipient, host.seconds reading + 300, share base part,
            pair.amountOutMinimum (share base part)⟩) build := by
  let venue := host.toLowerCase (host.env.executionVenue.getD (text "mock-sparkdex"))
  refine ⟨text "sizing produced zero minOut", fun recipient call => ⟨call.1, call.2, venue,
    some (if venue = text "blazeswap-v2" then 0 else 500), recipient, share base part⟩, ?_⟩
  unfold swapBuild
  simp only [followerNotional, whole, orThrow_some, pure_bind, returnIf_bind]
  rfl

theorem seconds_lt (host : Host) (reading : ℕ) : host.seconds reading + 300 < 2 ^ 256 := by
  have := (host.now reading).isLt
  unfold Host.seconds
  omega

theorem swapBuild_fate (host : Host) (pair : Pair) (base : ℤ) (reading : ℕ) (g : FollowerAlloc) :
    Fate (swapBuild host pair base reading g) (FollowerSafe host pair base g)
      (FollowerPasses host pair base g) (FollowerFunded base g) := by
  cases whole : g.allocationBps.trunc.toBigInt with
  | none =>
    have throws : swapBuild host pair base reading g = throwing .rangeError := by
      simp only [swapBuild, followerNotional, whole, orThrow_none, throwing_bind]
    rw [throws]
    refine (fate_thrown .rangeError).congr ?_ ?_ ?_ <;>
      simp [FollowerPasses, FollowerSafe, FollowerFunded, whole]
  | some part =>
    obtain ⟨message, build, reads⟩ :=
      swapBuild_read host pair base reading whole
    rw [reads]
    split
    next none =>
      refine fate_skipped.congr ?_ ?_ ?_ <;>
        simp [FollowerPasses, FollowerSafe, FollowerFunded, whole, none]
    -- the minimum output may be 0 all the same, and then the whole signal is refused
    next some =>
      split
      next zero =>
        refine (fate_refused message).congr ?_ ?_ ?_ <;>
          simp [FollowerPasses, FollowerSafe, FollowerFunded, whole, some, zero]
      next positive =>
        have call : ∀ recipient, CallFate (swapCall host
              (host.toLowerCase (host.env.executionVenue.getD (text "mock-sparkdex")))
              ⟨pair, recipient, host.seconds reading + 300, share base part,
                pair.amountOutMinimum (share base part)⟩)
            (routerOf host) [share base part, pair.amountOutMinimum (share base part)] :=
          fun recipient => swapCall_fate host _ (seconds_lt host reading)
        refine (instruct_fate call build).congr ?_ ?_ ?_ <;>
          simp [FollowerPasses, FollowerSafe, FollowerFunded, whole, some, positive]

/-! ### Loops over targets -/

/-- What a loop over targets needs for nothing to throw, and for `fine` to hold where it ends with
an instruction. -/
def LoopSafe {α : Type} (safe passes funded : α → Prop) (as : List α) (fine : Prop) : Prop :=
  (∀ a, Reached passes as a → safe a) ∧ ((∀ a ∈ as, passes a) → (∃ a ∈ as, funded a) → fine)

section

variable {α : Type} {f : α → Body (Option Build)} {safe passes funded : α → Prop}
  {fine : Prop}

theorem LoopSafe.mono {as : List α} {fine' : Prop} (h : LoopSafe safe passes funded as fine)
    (weaker : (∀ a ∈ as, passes a) → (∃ a ∈ as, funded a) → fine → fine') :
    LoopSafe safe passes funded as fine' := by
  obtain ⟨safe, after⟩ := h
  refine ⟨safe, ?_⟩
  intro passed some
  exact weaker passed some (after passed some)

theorem built_some (fate : ∀ a, Fate (f a) (safe a) (passes a) (funded a)) {as : List α}
    {bs : List (Option Build)} (done : List.Forall₂ (fun a b => f a = .ok b) as bs) :
    bs.reduceOption ≠ [] ↔ ∃ a ∈ as, funded a := by
  -- over the rounds: those that are skipped leave nothing
  induction done with
  | nil => simp
  | @cons a b as bs head _ ih =>
    have first := (fate a).built b head
    cases b with
    | none =>
      rw [List.reduceOption_cons_of_none, ih, List.exists_mem_cons_iff]
      simp only [ne_eq, not_true_eq_false, false_iff] at first
      simp [first]
    | some b =>
      simp only [ne_eq, reduceCtorEq, not_false_eq_true, true_iff] at first
      simp [first]

theorem loop_settles (fate : ∀ a, Fate (f a) (safe a) (passes a) (funded a)) (as : List α)
    {finish : List Build → Body Accepted}
    (ends : ∀ bs, ((finish bs).Settles fun _ => fine) ↔ (bs ≠ [] → fine)) :
    ((as.mapM f).Settles fun bs => (finish bs.reduceOption).Settles fun _ => fine) ↔
      LoopSafe safe passes funded as fine := by
  rw [settles_mapM, LoopSafe,
    eachSettles_iff (fun a => (fate a).settles) fun a => (fate a).ok]
  refine and_congr_right fun _ => ?_
  simp only [ends]
  -- the loop ends where every target passes, with what the funded ones were built
  constructor
  · intro after passed some
    obtain ⟨bs, done⟩ := (mapM_isOk f as).mpr fun a member => (fate a).ok.mpr (passed a member)
    exact after bs done ((built_some fate ((mapM_ok f as bs).mp done)).mpr some)
  · intro after bs done some
    have passed := (mapM_isOk f as).mp ⟨bs, done⟩
    exact after (fun a member => (fate a).ok.mp (passed a member))
      ((built_some fate ((mapM_ok f as bs).mp done)).mp some)

/-- A loop over numbered targets that need the same whatever their number. -/
theorem loopSafe_zipIdx (as : List α) :
    LoopSafe (fun p : α × ℕ => safe p.1) (fun p => passes p.1) (fun p => funded p.1) as.zipIdx
        fine ↔
      LoopSafe safe passes funded as fine := by
  have plain : as = as.zipIdx.map Prod.fst := (List.zipIdx_map_fst 0 as).symm
  conv_rhs => rw [plain]
  unfold LoopSafe
  simp only [reached_map, List.mem_map, exists_exists_and_eq_and,
    forall_exists_index, and_imp, forall_apply_eq_imp_iff₂]

theorem accept_settles (fine : Prop) (host : Host) (signal : Json) (direction : Direction)
    (sizePct : Number) (venue : Build → JsString) (empty : JsString) (reading : ℕ)
    (builds : List Build) :
    ((accept host signal direction sizePct venue empty reading builds).Settles fun _ => fine) ↔
      (builds ≠ [] → fine) := by
  cases builds with
  | nil => simp [accept]
  | cons b bs => simp [accept]

end

end Mirror
