import Mirror.Contracts.HealthAuth
import Mirror.Evm.Run
import Mirror.Properties.SignalReplay
import Mirror.Refinement.Paths

/-!
What an authorization does for top-ups. The contract answers those who ask it; the handler of
`TOPUP_V1` is not among them, and goes by its message alone.
-/
namespace Mirror

open Evm hiding Byte
open Js Completion MirrorHealthAuth

/-- A call to the contract, or a request to the handler. -/
inductive TopUpStep
  | call (caller : Address) (c : HealthAuthCall)
  | request (host : Host) (msg : JsString)

/-- The contract after a step, which it reverts or is no part of. -/
def applyTopUpStep (h : MirrorHealthAuth) : TopUpStep → MirrorHealthAuth
  | .call caller c =>
    match h.call caller c with
    | .ok h' => h'
    | .error _ => h
  | .request _ _ => h

/-- The latest authorization of a follower for a lead. -/
def latestAuth (follower lead : Address) : Auth → List TopUpStep → Auth
  | a, [] => a
  | a, .call caller c :: rest =>
    latestAuth follower lead ((givenAuth follower lead caller c).getD a) rest
  | a, .request _ _ :: rest => latestAuth follower lead a rest

theorem applyTopUpStep_call (h : MirrorHealthAuth) (follower lead caller : Address)
    (c : HealthAuthCall) :
    (applyTopUpStep h (.call caller c)).authorizations follower lead =
      (givenAuth follower lead caller c).getD (h.authorizations follower lead) := by
  cases done : h.call caller c with
  | ok h' =>
    simp only [applyTopUpStep, done]
    exact call_authorizations done
  | error e =>
    simp only [applyTopUpStep, done]
    cases given : givenAuth follower lead caller c with
    | none => rfl
    | some a =>
      obtain ⟨h', ok⟩ := call_given (h := h) given
      rw [done] at ok
      cases ok

/-- The contract knows the latest authorization of every follower for every lead. -/
theorem run_authorizations (h : MirrorHealthAuth) (steps : List TopUpStep)
    (follower lead : Address) :
    (run applyTopUpStep h steps).authorizations follower lead =
      latestAuth follower lead (h.authorizations follower lead) steps := by
  induction steps generalizing h with
  | nil => rfl
  | cons step rest ih =>
    rw [run_cons, ih]
    cases step with
    | call caller c => rw [latestAuth, applyTopUpStep_call]
    | request host msg => rfl

theorem topUp_succeeds_iff (host : Host) (msg : JsString) :
    succeeds (handleMirrorTopUpV1 host msg) = true ↔ ∃ t, mirrorTopUp host msg = .ok t := by
  unfold handleMirrorTopUpV1
  match mirrorTopUp host msg with
  | .ok t => simp [toCall, succeeds, TopUp.result]
  | .error (.returned message) => simp [toCall, succeeds, refusal]
  | .error (.thrown e) => simp [toCall, succeeds]

/-! ### What is asked for -/

/-- The follower, the lead and the amount of a top-up. -/
structure TopUpRequest where
  follower : JsString
  lead : JsString
  amount : ℕ

instance (host : Host) (parsed : Json) (amount : ℤ) : Decidable (ValidTopUp host parsed amount) :=
  inferInstanceAs (Decidable (_ ∧ _ ∧ _))

/-- What a message asks for, if it carries a top-up. -/
def requestedTopUp (host : Host) (msg : JsString) : Option TopUpRequest := do
  let raw ← (hexToBytes msg).toOption
  let parsed ← (Json.parse (utf8Decode raw)).filter fun v => !v.isNull
  let amount ← (amountWei parsed).filter fun n => ValidTopUp host parsed n ∧ n < 2 ^ 256
  return ⟨stringOr parsed (text "follower") [], stringOr parsed (text "lead") [], amount.toNat⟩

theorem requestedTopUp_some {host : Host} {msg : JsString} {r : TopUpRequest} :
    requestedTopUp host msg = some r ↔ ∃ parsed amount, CarriesTopUp host msg parsed amount ∧
      r = ⟨stringOr parsed (text "follower") [], stringOr parsed (text "lead") [],
        amount.toNat⟩ := by
  simp only [requestedTopUp, Option.bind_eq_bind, Option.bind_eq_some_iff,
    Option.filter_eq_some_iff, Option.pure_def, Option.some.injEq, decide_eq_true_eq,
    Bool.not_eq_true']
  constructor
  · rintro ⟨raw, decoded, parsed, ⟨read, object⟩, amount, ⟨amounts, valid, bounded⟩, rfl⟩
    cases bytes : hexToBytes msg with
    | error e => rw [bytes] at decoded; cases decoded
    | ok b =>
      rw [bytes] at decoded
      cases decoded
      exact ⟨parsed, amount, ⟨⟨_, bytes, read⟩, object, amounts, valid, bounded⟩, rfl⟩
  · rintro ⟨parsed, amount, ⟨⟨raw, decoded, read⟩, object, amounts, valid, bounded⟩, rfl⟩
    exact ⟨raw, by rw [decoded]; rfl, parsed, ⟨read, object⟩, amount, ⟨amounts, valid, bounded⟩,
      rfl⟩

/-- The handler builds what is asked for, and nothing else. -/
theorem mirrorTopUp_requested {host : Host} {msg : JsString} {t : TopUp}
    (done : mirrorTopUp host msg = .ok t) :
    requestedTopUp host msg = some ⟨t.follower, t.lead, t.amountWei.toNat⟩ ∧ 0 < t.amountWei := by
  obtain ⟨parsed, carries, follower, lead⟩ := mirrorTopUp_carries done
  refine ⟨requestedTopUp_some.mpr ⟨parsed, _, carries, ?_⟩, carries.valid.2.2⟩
  rw [follower, lead]

theorem requested_built {host : Host} {msg : JsString} {r : TopUpRequest}
    (asked : requestedTopUp host msg = some r) : ∃ t, mirrorTopUp host msg = .ok t ∧
      r = ⟨t.follower, t.lead, t.amountWei.toNat⟩ := by
  obtain ⟨parsed, amount, carries, rfl⟩ := requestedTopUp_some.mp asked
  obtain ⟨t, done, same, follower, lead⟩ := carries.built
  exact ⟨t, done, by rw [follower, lead, same]⟩

/-- What a request asks for a follower and a lead. -/
def askedFor (follower lead : Address) (host : Host) (msg : JsString) : ℕ :=
  match requestedTopUp host msg with
  | some r =>
    if getAddress r.follower = some follower ∧ getAddress r.lead = some lead then r.amount else 0
  | none => 0

/-- The contract, with what was asked for since the latest authorization of each follower. -/
structure TopUpBook where
  contract : MirrorHealthAuth
  asked : Address → Address → ℕ

def TopUpBook.step (b : TopUpBook) : TopUpStep → TopUpBook
  | .call caller c =>
    ⟨applyTopUpStep b.contract (.call caller c), fun follower lead =>
      if (givenAuth follower lead caller c).isSome then 0 else b.asked follower lead⟩
  | .request host msg =>
    ⟨b.contract, fun follower lead => b.asked follower lead + askedFor follower lead host msg⟩

/-- The contract says yes to what is asked for with all that was asked for before. -/
def TopUpBook.Funded (b : TopUpBook) : TopUpStep → Prop
  | .call _ _ => True
  | .request host msg => ∀ r, requestedTopUp host msg = some r →
    ∃ (follower lead : Address) (total : Uint256), getAddress r.follower = some follower ∧
      getAddress r.lead = some lead ∧ total.val = b.asked follower lead + r.amount ∧
      b.contract.isAuthorized follower lead total = true

/-- No more was asked for than is authorized. -/
def TopUpBook.Within (b : TopUpBook) : Prop :=
  ∀ follower lead, b.asked follower lead ≤ (b.contract.authorizations follower lead).maxTopUp.val

/-! ### Requests without authorization -/

/-- The contract says yes to the top-up, for the accounts that it names. -/
def MirrorHealthAuth.Covers (h : MirrorHealthAuth) (t : TopUp) : Prop :=
  ∃ (follower lead : Address) (amount : Uint256), getAddress t.follower = some follower ∧
    getAddress t.lead = some lead ∧ (amount.val : ℤ) = t.amountWei ∧
    h.isAuthorized follower lead amount = true

/-- What a request brings a follower to top up for a lead. -/
def emittedFor (follower lead : Address) (host : Host) (msg : JsString) : ℤ :=
  match mirrorTopUp host msg with
  | .ok t =>
    if getAddress t.follower = some follower ∧ getAddress t.lead = some lead then t.amountWei else 0
  | .error _ => 0

/-- What all requests have brought it to since its latest authorization. -/
def emittedSince (follower lead : Address) : ℤ → List TopUpStep → ℤ
  | n, [] => n
  | n, .call caller c :: rest =>
    emittedSince follower lead (if (givenAuth follower lead caller c).isSome then 0 else n) rest
  | n, .request host msg :: rest =>
    emittedSince follower lead (n + emittedFor follower lead host msg) rest

/-! ### Requests within their authorization -/

theorem emittedFor_eq (follower lead : Address) (host : Host) (msg : JsString) :
    emittedFor follower lead host msg = askedFor follower lead host msg := by
  unfold emittedFor askedFor
  cases asked : requestedTopUp host msg with
  | none =>
    cases done : mirrorTopUp host msg with
    | ok t =>
      rw [(mirrorTopUp_requested done).1] at asked
      cases asked
    | error e => rfl
  | some r =>
    obtain ⟨t, done, rfl⟩ := requested_built asked
    have positive := (mirrorTopUp_requested done).2
    rw [done]
    -- an amount above zero is the natural number it is counted as
    simp only
    split
    · exact (Int.toNat_of_nonneg positive.le).symm
    · rfl

theorem run_asked (b : TopUpBook) (steps : List TopUpStep) (follower lead : Address) :
    ((run TopUpBook.step b steps).asked follower lead : ℤ) =
      emittedSince follower lead (b.asked follower lead) steps := by
  induction steps generalizing b with
  | nil => rfl
  | cons step rest ih =>
    rw [run_cons, ih]
    cases step with
    | call caller c =>
      -- whoever authorizes anew starts from nothing
      rw [emittedSince, TopUpBook.step]
      simp only
      split <;> rfl
    | request host msg =>
      rw [emittedSince, TopUpBook.step, emittedFor_eq, Nat.cast_add]

theorem run_contract (b : TopUpBook) (steps : List TopUpStep) :
    (run TopUpBook.step b steps).contract = run applyTopUpStep b.contract steps := by
  induction steps generalizing b with
  | nil => rfl
  | cons step rest ih =>
    rw [run_cons, ih, run_cons]
    cases step <;> rfl

/-- Calls to the contract are free. -/
theorem TopUpBook.Within.call {b : TopUpBook} (within : b.Within) (caller : Address)
    (c : HealthAuthCall) : (b.step (.call caller c)).Within := by
  intro follower lead
  have before := within follower lead
  simp only [TopUpBook.step, applyTopUpStep_call]
  cases givenAuth follower lead caller c with
  | none => exact before
  | some a => exact Nat.zero_le _

/-- A request is for what is authorized, and leaves no more asked for than is, exactly if it is
funded. -/
theorem TopUpBook.Within.request {b : TopUpBook} (within : b.Within) (host : Host)
    (msg : JsString) :
    (∀ t, mirrorTopUp host msg = .ok t → b.contract.Covers t) ∧
      (b.step (.request host msg)).Within ↔ b.Funded (.request host msg) := by
  cases asked : requestedTopUp host msg with
  | none =>
    -- nothing is asked for, so nothing is built
    have nothing : ∀ follower lead, askedFor follower lead host msg = 0 := by
      intro follower lead
      rw [askedFor, asked]
    refine iff_of_true ⟨fun t done => ?_, fun follower lead => ?_⟩ fun r here => ?_
    · rw [(mirrorTopUp_requested done).1] at asked
      cases asked
    · simp only [TopUpBook.step, nothing, Nat.add_zero]
      exact within follower lead
    · rw [asked] at here
      cases here
  | some r =>
    obtain ⟨t, done, same⟩ := requested_built asked
    have positive := (mirrorTopUp_requested done).2
    have amount : (r.amount : ℤ) = t.amountWei := by
      rw [same]
      exact Int.toNat_of_nonneg positive.le
    constructor
    · rintro ⟨covered, left⟩ r' here
      rw [asked] at here
      cases here
      -- it is authorized on its own, and the book shows that it also is with those before it
      obtain ⟨follower, lead, word, named, named', value, yes⟩ := covered t done
      have room := left follower lead
      have ours : askedFor follower lead host msg = r.amount := by
        rw [askedFor, asked]
        exact if_pos ⟨by rw [same]; exact named, by rw [same]; exact named'⟩
      simp only [TopUpBook.step, ours] at room
      have small := (b.contract.authorizations follower lead).maxTopUp.isLt
      refine ⟨follower, lead, ⟨b.asked follower lead + r.amount, by omega⟩,
        by rw [same]; exact named, by rw [same]; exact named', rfl, ?_⟩
      simp only [isAuthorized, Bool.and_eq_true, decide_eq_true_eq] at yes ⊢
      exact ⟨⟨yes.1.1, by omega⟩, room⟩
    · intro funded
      obtain ⟨follower, lead, total, named, named', value, yes⟩ := funded r asked
      simp only [isAuthorized, Bool.and_eq_true, decide_eq_true_eq] at yes
      obtain ⟨⟨enabled, -⟩, room⟩ := yes
      rw [value] at room
      -- what is authorized with those before it is so on its own, and nobody else is asked for
      refine ⟨fun t' done' => ?_, fun follower' lead' => ?_⟩
      · cases done.symm.trans done'
        have small := (b.contract.authorizations follower lead).maxTopUp.isLt
        refine ⟨follower, lead, ⟨r.amount, by omega⟩, by rw [same] at named; exact named,
          by rw [same] at named'; exact named', amount, ?_⟩
        simp only [isAuthorized, Bool.and_eq_true, decide_eq_true_eq]
        exact ⟨⟨enabled, by omega⟩, by omega⟩
      · simp only [TopUpBook.step, askedFor, asked]
        split
        next here =>
          cases named.symm.trans here.1
          cases named'.symm.trans here.2
          exact room
        next => exact within follower' lead'

/-- Over every run: whatever the handler answers with status 1 is authorized at that moment, and
what it has emitted for a follower and a lead since the latest authorization stays within it,
exactly if every request that carries a top-up is funded, together with those before it. -/
theorem topUps_authorized_iff (h : MirrorHealthAuth) (steps : List TopUpStep) :
    (Admissible applyTopUpStep
      (fun h step => ∀ host msg t, step = .request host msg →
        mirrorTopUp host msg = .ok t → h.Covers t) h steps ∧
      ∀ done, done <+: steps → ∀ follower lead, emittedSince follower lead 0 done ≤
        (latestAuth follower lead (h.authorizations follower lead) done).maxTopUp.val) ↔
    Admissible TopUpBook.step TopUpBook.Funded ⟨h, fun _ _ => 0⟩ steps := by
  let start : TopUpBook := ⟨h, fun _ _ => 0⟩
  have within : ∀ done, (∀ follower lead, emittedSince follower lead 0 done ≤
      (latestAuth follower lead (h.authorizations follower lead) done).maxTopUp.val) ↔
      (run TopUpBook.step start done).Within := by
    intro done
    refine forall_congr' fun follower => forall_congr' fun lead => ?_
    rw [← Nat.cast_le (α := ℤ), run_asked, run_contract, run_authorizations]
    rfl
  have shown : ∀ (b : TopUpBook) step,
      (b.step step).contract = applyTopUpStep b.contract step := by
    intro b step
    cases step <;> rfl
  rw [← admissible_view shown _ start steps]
  simp only [within]
  refine run_holds_iff (fun b step safe => ?_) start (fun _ _ => Nat.zero_le _) steps
  cases step with
  | call caller c =>
    exact iff_of_true ⟨fun host msg t same => (by cases same), safe.call caller c⟩ trivial
  | request host msg =>
    rw [← safe.request host msg]
    refine and_congr_left fun _ => ?_
    refine ⟨fun all t => all host msg t rfl, fun all host' msg' t same => ?_⟩
    cases same
    exact all t

namespace Sample

/-- Five base units for a position that nobody has authorized top-ups of. -/
def topUpMessage : JsString :=
  message ("\x7b\"follower\":\"0x00000000000000000000000000000000000000f1\"," ++
    "\"lead\":\"0x00000000000000000000000000000000000000ee\",\"amountWei\":\"5\"," ++
    "\"kineticPool\":\"0x00000000000000000000000000000000000000a3\"\x7d")

end Sample

/-- A contract just deployed says no to everything, and the request succeeds. -/
theorem topUp_without_authorization :
    ¬∀ (initialOwner : Address) (steps : List TopUpStep),
      Admissible applyTopUpStep
        (fun h step => ∀ host msg t, step = .request host msg →
          mirrorTopUp host msg = .ok t → h.Covers t)
        (deployed initialOwner) steps ∧
      ∀ follower lead, emittedSince follower lead 0 steps ≤
        (latestAuth follower lead ⟨0, false⟩ steps).maxTopUp.val := by
  intro authorized
  have success : succeeds (handleMirrorTopUpV1 Sample.host Sample.topUpMessage) = true := by
    decide +kernel
  obtain ⟨t, done⟩ := (topUp_succeeds_iff _ _).mp success
  obtain ⟨⟨covered, -⟩, -⟩ := authorized 1 [.request Sample.host Sample.topUpMessage]
  obtain ⟨follower, lead, amount, -, -, -, yes⟩ := covered _ _ t rfl done
  cases yes

end Mirror
