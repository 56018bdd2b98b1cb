import Mirror.Properties.SignalReplay
import Mirror.Refinement.Paths

/-!
When the handlers answer. They check parts of what they convert and convert parts of what they
never check, so a message can make them throw, or be accepted with fields that make no sense.
-/
namespace Mirror

open Js Completion

/-- A result comes back, with status 0 or 1, and with status 0 where the message is malformed. -/
def Answers (answer : Except Thrown HandlerResult) (malformed : Prop) : Prop :=
  ∃ r, answer = .ok r ∧ (r.status = 0 ∨ r.status = 1) ∧ (malformed → r.status = 0)

theorem answers_iff {α : Type} (x : Body α) {finish : α → HandlerResult}
    (success : ∀ a, (finish a).status = 1) (malformed : Prop) :
    Answers (x.toCall finish refusal) malformed ↔ x.Settles fun _ => ¬malformed := by
  unfold Answers
  match x with
  | .ok a =>
    simp only [toCall, Except.ok.injEq, exists_eq_left', success]
    simp [Settles]
  | .error (.returned message) => simp [toCall, Settles, refusal]
  | .error (.thrown e) => simp [toCall, Settles]

/-! ### Malformed fields -/

/-- A text that looks like an address, with digits that are not hexadecimal. -/
def NonHex (v : Option Json) : Prop := ∃ s, addressText v = some s ∧ ¬IsAddress s

/-- An allocation that is there, finite, not negative and without a fraction. -/
def WholeAllocation (v : Option Json) : Prop :=
  ∃ x : Number, v.bind Json.toNumber = some x ∧ x.isFinite = true ∧
    (Number.ofRat 0).le x = true ∧ x.trunc = x

def MalformedFollower (f : Json) : Prop :=
  f.isObject = false ∨ ¬WholeAllocation (f.get (text "allocationBps")) ∨
    NonHex (f.get (text "address"))

/-- A malformed field among those that instructions or the outcome log are made of. -/
def MalformedFields (signal : Json) : Prop :=
  (∃ fs, followersOf signal = some fs ∧ ∃ f ∈ fs, MalformedFollower f) ∨
  (followersOf signal = none ∧ NonHex (signal.get (text "recipient"))) ∨
  NonHex (signal.get (text "lead"))

def MalformedSignal (host : Host) (msg : JsString) : Prop :=
  ∃ signal, Carries host msg signal ∧ MalformedFields signal

/-- A malformed field of a top-up, or no top-up at all. -/
def MalformedTopUp (msg : JsString) : Prop :=
  ∃ raw parsed, hexToBytes msg = .ok raw ∧ Json.parse (utf8Decode raw) = some parsed ∧
    (parsed.isNull = true ∨ (∀ n, amountWei parsed = some n → 2 ^ 256 ≤ n) ∨
      NonHex (parsed.get (text "follower")) ∨ NonHex (parsed.get (text "lead")) ∨
      NonHex (parsed.get (text "kineticPool")))

/-! ### What the conversions leave unnoticed -/

/-- The fields of an accepted signal that no conversion depends on: fractions, which are truncated,
and addresses that no instruction is for. -/
structure TidySignal (signal : Json) : Prop where
  whole : ∀ fs, followersOf signal = some fs → ∀ f ∈ fs, ∀ x : Number,
    (f.get (text "allocationBps")).bind Json.toNumber = some x → x.trunc = x
  followers : ∀ fs, followersOf signal = some fs → ∀ f ∈ fs, ¬NonHex (f.get (text "address"))
  lead : ¬NonHex (signal.get (text "lead"))

structure TidyTopUp (parsed : Json) : Prop where
  follower : ¬NonHex (parsed.get (text "follower"))
  lead : ¬NonHex (parsed.get (text "lead"))
  kineticPool : ¬NonHex (parsed.get (text "kineticPool"))

/-- A follower whose allocation is a number, and not a negative integer. -/
def Allocated (f : Json) : Prop :=
  ∃ x : Number, (f.get (text "allocationBps")).bind Json.toNumber = some x ∧ x.isFinite = true ∧
    (x.trunc = x → (Number.ofRat 0).le x = true)

theorem isObject_of_get {f v : Json} {key : JsString} (found : f.get key = some v) :
    f.isObject = true := by
  cases f with
  | obj => rfl
  | null | bool | num | str | arr => cases found

theorem Allocated.malformed_iff {f : Json} (allocated : Allocated f) :
    ¬MalformedFollower f ↔
      (∀ x : Number, (f.get (text "allocationBps")).bind Json.toNumber = some x → x.trunc = x) ∧
        ¬NonHex (f.get (text "address")) := by
  obtain ⟨x, number, finite, nonneg⟩ := allocated
  obtain ⟨v, found, -⟩ := Option.bind_eq_some_iff.mp number
  simp only [MalformedFollower, isObject_of_get found, reduceCtorEq, false_or, not_or,
    not_not, WholeAllocation, number, Option.some.injEq, forall_eq', exists_eq_left', finite,
    true_and]
  exact and_congr_left fun _ => ⟨And.right, fun whole => ⟨nonneg whole, whole⟩⟩

theorem malformed_iff {signal : Json}
    (followers : ∀ fs, followersOf signal = some fs → ∀ f ∈ fs, Allocated f)
    (recipient : followersOf signal = none → ¬NonHex (signal.get (text "recipient"))) :
    ¬MalformedFields signal ↔ TidySignal signal := by
  unfold MalformedFields
  constructor
  · intro fine
    simp only [not_or, not_exists, not_and] at fine
    obtain ⟨each, -, lead⟩ := fine
    have split := fun fs listed f member =>
      (followers fs listed f member).malformed_iff.mp (each fs listed f member)
    exact ⟨fun fs listed f member => (split fs listed f member).1,
      fun fs listed f member => (split fs listed f member).2, lead⟩
  · rintro tidy (⟨fs, listed, f, member, malformed⟩ | ⟨alone, malformed⟩ | malformed)
    · exact (followers fs listed f member).malformed_iff.mpr
        ⟨tidy.whole fs listed f member, tidy.followers fs listed f member⟩ malformed
    · exact recipient alone malformed
    · exact tidy.lead malformed

/-- An allocation that can be made an integer is a number. -/
theorem allocated_of_part {f : Json} {part : ℤ} (read : allocationBps f = some part)
    (nonneg : 0 ≤ part) : Allocated f := by
  obtain ⟨x, number, whole⟩ := Option.bind_eq_some_iff.mp read
  obtain ⟨v, found, number⟩ := Option.bind_eq_some_iff.mp number
  refine ⟨x, by rw [found, Option.bind_some, number], ?_⟩
  cases x with
  | nan | infinity => cases whole
  | finite d =>
    refine ⟨rfl, fun same => ?_⟩
    rw [same] at whole
    obtain ⟨_, same, value⟩ := Number.toBigInt_some.mp whole
    cases same
    rw [Number.zero_le_finite, value]
    simpa using nonneg

/-- Where a share of the mock cap is a word, what is allocated is not negative. -/
theorem share_nonneg {size part : ℤ} (positive : 0 < size)
    (word : share (share notionalCap size) part ≠ 0 →
      0 ≤ share (share notionalCap size) part) : 0 ≤ part := by
  have exact : share (share notionalCap size) part = 10 ^ 4 * size * part := by
    have capped : notionalCap = 10 ^ 4 * 10 ^ 8 := by decide
    simp only [share, capped, notional_exact]
  rw [exact] at word
  by_contra negative
  have below : 10 ^ 4 * size * part < 0 :=
    mul_neg_of_pos_of_neg (by omega) (not_le.mp negative)
  exact absurd (word below.ne) (not_le.mpr below)

theorem sizeBps_nonneg {signal : Json} {size : ℤ} (sized : sizeBps signal = some size) :
    0 ≤ size := by
  obtain ⟨x, stated, whole⟩ := Option.bind_eq_some_iff.mp sized
  obtain ⟨-, positive⟩ := Option.filter_eq_some_iff.mp stated
  cases x with
  | nan | infinity => cases whole
  | finite d =>
    rw [Number.finite_le_zero] at positive
    have above : 0 ≤ d.val := by
      have : 0 < d.val := by simpa [Number.isFinite] using positive
      exact this.le
    cases (Number.trunc_toBigInt d).symm.trans whole
    rw [truncated, if_pos above]
    exact Int.floor_nonneg.mpr above

/-- Who is converted to an address is one. -/
theorem Convertible.not_nonHex {v : Option Json} {recipient : JsString}
    {contract : Option JsString} {amounts : List ℤ}
    (convertible : Convertible (some recipient) contract amounts)
    (named : addressText v = some recipient) : ¬NonHex v := by
  obtain ⟨s, given, address⟩ := convertible.recipient
  cases given
  rintro ⟨s', named', hex⟩
  cases named.symm.trans named'
  exact hex address

/-- On the mock path. -/
theorem mock_malformed_iff {host : Host} {signal : Json} {venue : MockVenue} {size : ℤ}
    {targets : List Json} (sized : sizeBps signal = some size) (targeted : Targets signal targets)
    (passed : ∀ f ∈ targets, TargetPasses host venue (share notionalCap size) f)
    (some : ∃ f ∈ targets, Funded (share notionalCap size) f) :
    ¬MalformedFields signal ↔ TidySignal signal := by
  have positive : 0 < size := by
    obtain ⟨f, -, part, -, funded⟩ := some
    refine lt_of_le_of_ne (sizeBps_nonneg sized) fun zero => funded ?_
    subst zero
    simp [share]
  unfold Targets at targeted
  refine malformed_iff (fun fs listed f member => ?_) fun alone => ?_
  · rw [listed] at targeted
    subst targeted
    obtain ⟨⟨part, read, convertible⟩, configured⟩ := passed f member
    refine allocated_of_part read (share_nonneg positive fun funded => ?_)
    obtain ⟨s, setting⟩ := configured ⟨part, read, funded⟩
    exact (((convertible funded).contract s setting).2 _ (List.mem_singleton.mpr rfl)).1
  · rw [alone] at targeted
    obtain ⟨recipient, named, rfl⟩ := targeted
    obtain ⟨f, member, part, read, funded⟩ := some
    obtain ⟨⟨part', read', convertible⟩, -⟩ := passed f member
    cases read.symm.trans read'
    obtain rfl := List.mem_singleton.mp member
    exact Convertible.not_nonHex (convertible funded) named

/-- A follower that passes validation and then the loop. -/
theorem valid_allocated {f : Json} {g : FollowerAlloc} {part : ℤ} (valid : ValidFollower f g)
    (whole : g.allocationBps.trunc.toBigInt = some part) : Allocated f := by
  obtain ⟨-, number, positive⟩ := valid
  obtain ⟨v, found, number⟩ := Option.bind_eq_some_iff.mp number
  generalize g.allocationBps = x at number positive whole
  cases v with
  | null | bool | str | arr | obj => cases number
  | num y =>
    obtain rfl : y = x := Option.some.inj number
    refine ⟨y, by rw [found]; rfl, ?_⟩
    cases y with
    | nan | infinity => cases whole
    | finite d =>
      refine ⟨rfl, fun _ => ?_⟩
      rw [Number.finite_le_zero, decide_eq_false_iff_not, not_le] at positive
      rw [Number.zero_le_finite]
      exact decide_eq_true positive.le

/-- On the swap path. -/
theorem swap_malformed_iff {host : Host} {signal : Json} {pair : Pair} {base : ℤ}
    {followers : List FollowerAlloc} (trade : Traders signal followers)
    (passed : ∀ g ∈ followers, FollowerPasses host pair base g)
    (some : ∃ g ∈ followers, FollowerFunded base g) :
    ¬MalformedFields signal ↔ TidySignal signal := by
  unfold Traders at trade
  refine malformed_iff (fun fs listed f member => ?_) fun alone => ?_
  · rw [listed] at trade
    obtain ⟨g, traded, valid⟩ := forall₂_exists trade member
    obtain ⟨⟨part, whole, -⟩, -⟩ := passed g traded
    exact valid_allocated valid whole
  · rw [alone] at trade
    obtain ⟨recipient, named, rfl⟩ := trade
    obtain ⟨g, member, part, read, funded⟩ := some
    obtain ⟨⟨part', read', convertible⟩, goes⟩ := passed g member
    cases read.symm.trans read'
    obtain rfl := List.mem_singleton.mp member
    exact (convertible funded (goes part read funded).1).not_nonHex named

theorem malformedSignal_iff {host : Host} {msg : JsString} {signal : Json}
    (carries : Carries host msg signal) : MalformedSignal host msg ↔ MalformedFields signal := by
  constructor
  · rintro ⟨signal', carries', malformed⟩
    rwa [carries.unique carries']
  · intro malformed
    exact ⟨signal, carries, malformed⟩

theorem Served.malformed_iff {host : Host} {msg : JsString} {signal : Json}
    (served : Served host signal) (carries : Carries host msg signal) :
    ¬MalformedSignal host msg ↔ TidySignal signal := by
  rw [malformedSignal_iff carries]
  cases served with
  | swap trade passed some => exact swap_malformed_iff trade passed some
  | mock sized targeted passed some => exact mock_malformed_iff sized targeted passed some

theorem matchSafe_tidy {host : Host} {msg : JsString} :
    (MatchSafe host msg fun _ => ¬MalformedSignal host msg) ↔
      MatchSafe host msg TidySignal := by
  constructor
  · intro fine
    refine fine.mono ?_
    intro signal carries served
    exact (served.malformed_iff carries).mp
  · intro tidy
    refine tidy.mono ?_
    intro signal carries served
    exact (served.malformed_iff carries).mpr

theorem CarriesTopUp.malformed_iff {host : Host} {msg : JsString} {parsed : Json} {amount : ℤ}
    (carries : CarriesTopUp host msg parsed amount) : ¬MalformedTopUp msg ↔ TidyTopUp parsed := by
  obtain ⟨raw, decoded, read⟩ := carries.read
  constructor
  · intro fine
    simp only [MalformedTopUp, not_exists, not_and, not_or] at fine
    obtain ⟨-, -, follower, lead, kineticPool⟩ := fine raw parsed decoded read
    exact ⟨follower, lead, kineticPool⟩
  · rintro tidy ⟨raw', parsed', decoded', read', malformed⟩
    cases decoded.symm.trans decoded'
    cases read.symm.trans read'
    rcases malformed with null | oversized | follower | lead | kineticPool
    · rw [carries.object] at null
      cases null
    · exact absurd carries.bounded (not_lt.mpr (oversized amount carries.amounts))
    · exact tidy.follower follower
    · exact tidy.lead lead
    · exact tidy.kineticPool kineticPool

theorem topUpSafe_tidy {host : Host} {msg : JsString} :
    (TopUpSafe host msg fun _ => ¬MalformedTopUp msg) ↔ TopUpSafe host msg TidyTopUp := by
  constructor
  · intro fine
    refine fine.mono ?_
    intro parsed amount carries
    exact carries.malformed_iff.mp
  · intro tidy
    refine tidy.mono ?_
    intro parsed amount carries
    exact carries.malformed_iff.mpr

/-- A handler answers as it should exactly if every conversion that the message reaches, before a
check refuses it, goes through, and what is accepted then is tidy. -/
theorem handlers_answer_iff (host : Host) (msg : JsString) (log : List OutcomeRecord) :
    (Answers (handleMirrorMatchStageB host msg log).1 (MalformedSignal host msg) ↔
      MatchSafe host msg TidySignal) ∧
    (Answers (handleMirrorTopUpV1 host msg) (MalformedTopUp msg) ↔
      TopUpSafe host msg TidyTopUp) := by
  constructor
  · rw [← matchSafe_tidy, ← matchStageB_settles]
    exact answers_iff (matchStageB host msg) (fun _ => rfl) _
  · rw [← topUpSafe_tidy, ← mirrorTopUp_settles]
    exact answers_iff (mirrorTopUp host msg) (fun _ => rfl) _

/-- The JSON text `null` makes the handler of top-ups throw. -/
theorem handlers_not_total :
    ¬∀ (host : Host) (msg : JsString) (log : List OutcomeRecord),
      Answers (handleMirrorMatchStageB host msg log).1 (MalformedSignal host msg) ∧
      Answers (handleMirrorTopUpV1 host msg) (MalformedTopUp msg) := by
  intro total
  have throws : handleMirrorTopUpV1 Sample.host (text "0x6e756c6c") = .error .typeError := by
    decide +kernel
  obtain ⟨r, answered, -⟩ := (total Sample.host (text "0x6e756c6c") []).2
  rw [throws] at answered
  cases answered

end Mirror
