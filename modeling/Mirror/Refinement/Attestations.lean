import Mirror.Relayer.Monitor

/-!
What the monitor keeps while payments are attested: a running attestation is the one in flight for
its payment and not of a completed one, and the status that stands under the address of a completed
payment says that it is completed, if it is about that payment.
-/
namespace Mirror.Relayer

open Js

variable {p : Platform} {m : Monitor} {disk next : Disk} {ref : ℕ}

namespace Monitor

/-! ### What the operations change -/

@[simp] theorem persist_objects : (m.persist p disk ref).objects = m.objects := by
  simp only [persist]
  split <;> rfl

@[simp] theorem persist_runs : (m.persist p disk ref).runs = m.runs := by
  simp only [persist]
  split <;> rfl

@[simp] theorem persist_inflight : (m.persist p disk ref).inflight = m.inflight := by
  simp only [persist]
  split <;> rfl

theorem persist_statuses (key : JsString) :
    (m.persist p disk ref).statuses key = some ref ∨
      (m.persist p disk ref).statuses key = m.statuses key := by
  simp only [persist]
  split
  · simp only [Function.update_apply]
    split
    · exact .inl rfl
    · split
      · exact .inl rfl
      · exact .inr rfl
  · exact .inr rfl

theorem persist_latest {st : PaymentStatus} (here : m.objects[ref]? = some st) :
    (m.persist p disk ref).statuses (p.toLowerCase st.xrplAddress) = some ref := by
  simp only [persist, here, Function.update_self]

theorem persist_settle (run : Run) :
    (m.persist p disk ref).settle run = (m.settle run).persist p disk ref := by
  simp only [persist, settle]
  split <;> rfl

theorem amend_settle (change : PaymentStatus → PaymentStatus) (run : Run) :
    (m.amend p disk ref change).settle run = (m.settle run).amend p disk ref change :=
  persist_settle run

/-- Not to complete anything, it is enough to write no object that completes. -/
theorem Completed.announce {s : PaymentStatus} {key : JsString}
    (running : s.state ≠ .subAccountActive) :
    (m.announce p disk s).Completed p key ↔ m.Completed p key := by
  simp only [Completed, Monitor.announce, persist_objects, List.mem_append, List.mem_singleton]
  constructor
  -- an object that completes is an old one
  · rintro ⟨st, member | rfl, active, paid⟩
    · exact ⟨st, member, active, paid⟩
    · exact absurd active running
  · rintro ⟨st, member, done⟩
    exact ⟨st, .inl member, done⟩

theorem Completed.exists_ref {key : JsString} (completed : m.Completed p key) :
    ∃ (ref : ℕ) (st : PaymentStatus), m.objects[ref]? = some st ∧
      st.state = .subAccountActive ∧ st.payment p = some key := by
  obtain ⟨st, member, done⟩ := completed
  obtain ⟨ref, found⟩ := List.mem_iff_getElem?.mp member
  exact ⟨ref, st, found, done⟩

/-! ### The invariant -/

/-- A monitor whose runs are all in flight, of payments that are not completed. -/
structure Sound (p : Platform) (m : Monitor) : Prop where
  flying : ∀ run ∈ m.runs, m.inflight run.key = some run.ref
  owned : ∀ run ∈ m.runs, ∃ st, m.objects[run.ref]? = some st ∧ st.payment p = some run.key
  pending : ∀ run ∈ m.runs, ¬m.Completed p run.key
  shown : ∀ (ref : ℕ) (st : PaymentStatus) (key : JsString), m.objects[ref]? = some st →
    st.state = .subAccountActive → st.payment p = some key →
    ∃ (ref' : ℕ) (latest : PaymentStatus),
      m.statuses (p.toLowerCase st.xrplAddress) = some ref' ∧ m.objects[ref']? = some latest ∧
      (latest.payment p = some key → latest.state = .subAccountActive)

theorem sound_start (files : JsString → Option PaymentStatus) : (start files).Sound p where
  flying := by rintro run ⟨⟩
  owned := by rintro run ⟨⟩
  pending := by rintro run ⟨⟩
  shown := by rintro ref st key ⟨⟩

/-- No two runs are of the same payment. -/
theorem Sound.run_unique (sound : m.Sound p) {run other : Run} (member : run ∈ m.runs)
    (member' : other ∈ m.runs) (same : run.key = other.key) : run.ref = other.ref := by
  -- both are the one in flight
  have flying := sound.flying run member
  rw [same, sound.flying other member'] at flying
  exact (Option.some.inj flying).symm

/-- The payment's object is the only one that may say that the payment is completed. -/
def Alone (p : Platform) (m : Monitor) (ref : ℕ) (key : JsString) : Prop :=
  ∀ (other : ℕ) (st : PaymentStatus), m.objects[other]? = some st →
    st.state = .subAccountActive → st.payment p = some key → other = ref

theorem alone_of_not_completed {key : JsString} (running : ¬m.Completed p key) (ref : ℕ) :
    m.Alone p ref key := by
  intro other st found active paid
  exact absurd ⟨st, List.mem_of_getElem? found, active, paid⟩ running

/-- One object is written, for a payment which it completes only if no run is of it. -/
theorem Sound.write {m' : Monitor} {st : PaymentStatus} {key : JsString} (sound : m.Sound p)
    (here : m'.objects[ref]? = some st)
    (elsewhere : ∀ other, other ≠ ref → m'.objects[other]? = m.objects[other]?)
    (statuses : ∀ k, m'.statuses k = some ref ∨ m'.statuses k = m.statuses k)
    (latest : st.state = .subAccountActive →
      m'.statuses (p.toLowerCase st.xrplAddress) = some ref)
    (runs : m'.runs = m.runs) (inflight : m'.inflight = m.inflight)
    (paid : st.payment p = some key)
    (kept : ∀ old, m.objects[ref]? = some old → old.payment p = some key)
    (alone : m.Alone p ref key)
    (calm : st.state = .subAccountActive → ∀ run ∈ m.runs, run.key ≠ key) : m'.Sound p where
  flying := by
    rw [runs, inflight]
    exact sound.flying
  owned := by
    rw [runs]
    intro run member
    -- where the run's object was written, it kept its payment
    obtain ⟨old, found, payment⟩ := sound.owned run member
    by_cases same : run.ref = ref
    · rw [same] at found ⊢
      exact ⟨st, here, paid.trans ((kept old found).symm.trans payment)⟩
    · exact ⟨old, (elsewhere _ same).trans found, payment⟩
  pending := by
    rw [runs]
    intro run member completed
    -- an old object was no obstacle before, and the written one is calm
    obtain ⟨other, old, found, active, payment⟩ := completed.exists_ref
    by_cases same : other = ref
    · obtain rfl : st = old := Option.some.inj (here.symm.trans (same ▸ found))
      exact calm active run member (Option.some.inj (payment.symm.trans paid))
    · rw [elsewhere _ same] at found
      exact sound.pending run member ⟨old, List.mem_of_getElem? found, active, payment⟩
  shown := by
    intro other done key' found active payment
    -- under the address stands the written object, or what stood there before
    by_cases same : other = ref
    · obtain rfl : st = done := Option.some.inj (here.symm.trans (same ▸ found))
      exact ⟨ref, st, latest active, here, fun _ => active⟩
    · rw [elsewhere _ same] at found
      -- a payment that was completed before is not the one of the object
      have other_key : key' ≠ key := by
        rintro rfl
        exact same (alone other done found active payment)
      have vacuous : st.payment p = some key' → st.state = .subAccountActive := fun h =>
        absurd (Option.some.inj (h.symm.trans paid)) other_key
      obtain ⟨ref', shown, stored, held, fits⟩ := sound.shown other done key' found active payment
      rcases statuses (p.toLowerCase done.xrplAddress) with moved | unmoved
      · exact ⟨ref, st, moved, here, vacuous⟩
      · by_cases at_ref : ref' = ref
        · exact ⟨ref, st, unmoved.trans (at_ref ▸ stored), here, vacuous⟩
        · exact ⟨ref', shown, unmoved.trans stored, (elsewhere _ at_ref).trans held, fits⟩

/-- A new object for a payment that is not completed. -/
theorem Sound.announce {s : PaymentStatus} {key : JsString} (sound : m.Sound p)
    (running : s.state ≠ .subAccountActive) (paid : s.payment p = some key)
    (fresh : ¬m.Completed p key) : (m.announce p disk s).Sound p := by
  have here : (m.announce p disk s).objects[m.objects.length]? = some s := by
    simp [Monitor.announce]
  refine sound.write here ?_ persist_statuses ?_ persist_runs persist_inflight paid ?_
    (alone_of_not_completed fresh _) ?_
  -- the old objects keep their places
  · intro other elsewhere
    simp only [Monitor.announce, persist_objects, List.getElem?_append]
    split
    · rfl
    · rw [List.getElem?_eq_none (by simp only [List.length_singleton]; omega),
        List.getElem?_eq_none (by omega)]
  · intro active
    exact absurd active running
  · intro old found
    rw [List.getElem?_eq_none le_rfl] at found
    cases found
  · intro active
    exact absurd active running

section

variable {key : JsString} {change : PaymentStatus → PaymentStatus}

theorem assign_objects_self {st : PaymentStatus} (found : m.objects[ref]? = some st) :
    (m.assign ref change).objects[ref]? = some (change st) := by
  rw [Monitor.assign, List.getElem?_modify_eq, found]
  rfl

theorem assign_objects_ne {other : ℕ} (elsewhere : other ≠ ref) :
    (m.assign ref change).objects[other]? = m.objects[other]? :=
  List.getElem?_modify_ne _ _ (Ne.symm elsewhere)

/-- Assignments to the object of a payment that leave it with its payment, not completed. -/
theorem Sound.assign (sound : m.Sound p)
    (owned : ∃ st, m.objects[ref]? = some st ∧ st.payment p = some key)
    (fresh : ¬m.Completed p key) (keeps : ∀ st, (change st).payment p = st.payment p)
    (stays : ∀ st, (change st).state = st.state) : (m.assign ref change).Sound p := by
  obtain ⟨st, found, paid⟩ := owned
  have running : (change st).state ≠ .subAccountActive := by
    rw [stays]
    exact fun active => fresh ⟨st, List.mem_of_getElem? found, active, paid⟩
  refine sound.write (assign_objects_self found) (fun _ => assign_objects_ne)
    (fun _ => .inr rfl) (fun active => absurd active running) rfl rfl ((keeps st).trans paid) ?_
    (alone_of_not_completed fresh ref) (fun active => absurd active running)
  intro old found'
  obtain rfl : st = old := Option.some.inj (found.symm.trans found')
  exact paid

/-- Assignments that leave the object with its payment, persisted. -/
theorem Sound.amend (sound : m.Sound p)
    (owned : ∃ st, m.objects[ref]? = some st ∧ st.payment p = some key)
    (alone : m.Alone p ref key) (keeps : ∀ st, (change st).payment p = st.payment p)
    (calm : (∃ st, (change st).state = .subAccountActive) → ∀ run ∈ m.runs, run.key ≠ key) :
    (m.amend p disk ref change).Sound p := by
  obtain ⟨st, found, paid⟩ := owned
  have here : (m.amend p disk ref change).objects[ref]? = some (change st) := by
    rw [Monitor.amend, persist_objects, assign_objects_self found]
  refine sound.write here ?_ persist_statuses ?_ persist_runs persist_inflight
    ((keeps st).trans paid) ?_ alone (fun active => calm ⟨st, active⟩)
  · intro other elsewhere
    rw [Monitor.amend, persist_objects, assign_objects_ne elsewhere]
  -- a persisted object stands under its address
  · intro _
    exact persist_latest (assign_objects_self found)
  · intro old found'
    obtain rfl : st = old := Option.some.inj (found.symm.trans found')
    exact paid

/-- After assignments that leave its payment the object is still the one of the payment, and the
only one that may complete it. -/
theorem amend_owned (owned : ∃ st, m.objects[ref]? = some st ∧ st.payment p = some key)
    (alone : m.Alone p ref key) (keeps : ∀ st, (change st).payment p = st.payment p) :
    (∃ st, (m.amend p disk ref change).objects[ref]? = some st ∧ st.payment p = some key) ∧
      (m.amend p disk ref change).Alone p ref key := by
  obtain ⟨st, found, paid⟩ := owned
  constructor
  · refine ⟨change st, ?_, (keeps st).trans paid⟩
    rw [Monitor.amend, persist_objects, assign_objects_self found]
  · intro other st' found' active paid'
    by_contra elsewhere
    rw [Monitor.amend, persist_objects, assign_objects_ne elsewhere] at found'
    exact elsewhere (alone other st' found' active paid')

end

/-! ### Runs -/

theorem Sound.proceed (sound : m.Sound p) (stage : Stage) : (m.proceed ref stage).Sound p := by
  -- a run's stage is no part of the invariant
  have kept : ∀ run ∈ (m.proceed ref stage).runs,
      ∃ old ∈ m.runs, old.ref = run.ref ∧ old.key = run.key := by
    intro run member
    obtain ⟨old, member', rfl⟩ := List.mem_map.mp member
    refine ⟨old, member', ?_⟩
    split <;> exact ⟨rfl, rfl⟩
  refine { flying := ?flying, owned := ?owned, pending := ?pending, shown := sound.shown }
  case flying =>
    intro run member
    obtain ⟨old, member', ref, key⟩ := kept run member
    rw [← ref, ← key]
    exact sound.flying old member'
  case owned =>
    intro run member
    obtain ⟨old, member', ref, key⟩ := kept run member
    rw [← ref, ← key]
    exact sound.owned old member'
  case pending =>
    intro run member
    obtain ⟨old, member', ref, key⟩ := kept run member
    rw [← key]
    exact sound.pending old member'

/-- When a run is gone no other one is of its payment. -/
theorem Sound.settle_calm (sound : m.Sound p) {run : Run} (member : run ∈ m.runs) :
    ∀ other ∈ (m.settle run).runs, other.key ≠ run.key := by
  intro other member' same
  obtain ⟨still, elsewhere⟩ := List.mem_filter.mp member'
  exact of_decide_eq_true elsewhere (sound.run_unique still member same)

theorem Sound.settle (sound : m.Sound p) {run : Run} (member : run ∈ m.runs) :
    (m.settle run).Sound p where
  flying := by
    intro other member'
    -- no other run has this key, so its entry in `inflight` is left alone
    have differ := sound.settle_calm member other member'
    exact (Function.update_of_ne differ _ _).trans
      (sound.flying other (List.mem_filter.mp member').1)
  owned := by
    intro other member'
    exact sound.owned other (List.mem_filter.mp member').1
  pending := by
    intro other member'
    exact sound.pending other (List.mem_filter.mp member').1
  shown := sound.shown

/-- A run may end with any changes of its object that leave the payment. -/
theorem Sound.finish (sound : m.Sound p) {run : Run} (member : run ∈ m.runs)
    {change : PaymentStatus → PaymentStatus}
    (keeps : ∀ st, (change st).payment p = st.payment p) :
    ((m.amend p disk run.ref change).settle run).Sound p := by
  -- the run may be taken away before its object is written, since the two do not meet
  rw [amend_settle]
  exact (sound.settle member).amend (sound.owned run member)
    (alone_of_not_completed (sound.pending run member) run.ref) keeps
    (fun _ => sound.settle_calm member)

theorem Sound.reject (sound : m.Sound p) {run : Run} (member : run ∈ m.runs) (error : JsString) :
    (m.reject p disk run error).Sound p :=
  sound.finish member fun _ => rfl

theorem Sound.attested (sound : m.Sound p) {run : Run} (member : run ∈ m.runs) (roundId : ℕ) :
    (m.attested p disk next run roundId).Sound p := by
  have minting : (m.amend p disk run.ref fun st => { st with
      state := .mintingFxrp
      message := some (text "FDC round " ++ decimal roundId) }).Sound p := by
    refine sound.amend (sound.owned run member)
      (alone_of_not_completed (sound.pending run member) run.ref) (fun _ => rfl) ?_
    rintro ⟨_, ⟨⟩⟩
  simp only [Monitor.attested]
  cases disk with
  | some error => exact minting.reject (by rwa [Monitor.amend, persist_runs]) error
  | none => exact minting.proceed .executing

theorem Sound.executed (sound : m.Sound p) {run : Run} (member : run ∈ m.runs)
    (personalAccount hash : JsString) (fault : Option JsString) :
    (m.executed p disk run personalAccount hash fault).Sound p := by
  have next : (m.assign run.ref fun st => { st with
      personalAccount := some personalAccount
      message := some (text "executeInstruction " ++ hash) }).Sound p :=
    sound.assign (sound.owned run member) (sound.pending run member) (fun _ => rfl) fun _ => rfl
  simp only [Monitor.executed]
  cases fault with
  | some error => exact next.reject member error
  | none => exact next.proceed .counting

/-- As `Sound.finish`, where the first changes may complete the payment while its run is still in
flight. -/
theorem Sound.finish_twice (sound : m.Sound p) {run : Run} (member : run ∈ m.runs)
    {first last : PaymentStatus → PaymentStatus}
    (keeps : ∀ st, (first st).payment p = st.payment p)
    (keeps' : ∀ st, (last st).payment p = st.payment p) :
    (((m.amend p disk run.ref first).amend p next run.ref last).settle run).Sound p := by
  -- the object stays the only one of its payment that may complete it, also after the first write
  have alone := alone_of_not_completed (sound.pending run member) run.ref
  have calm := sound.settle_calm member
  have settled : ((m.settle run).amend p disk run.ref first).Sound p :=
    (sound.settle member).amend (sound.owned run member) alone keeps fun _ => calm
  have left : (∃ st, ((m.settle run).amend p disk run.ref first).objects[run.ref]? = some st ∧
      st.payment p = some run.key) ∧ ((m.settle run).amend p disk run.ref first).Alone p run.ref
      run.key := amend_owned (sound.owned run member) alone keeps
  rw [amend_settle, amend_settle]
  refine settled.amend left.1 left.2 keeps' fun _ => ?_
  rw [Monitor.amend, persist_runs]
  exact calm

theorem Sound.counted (sound : m.Sound p) {run : Run} (member : run ∈ m.runs) (bal : ℕ) :
    (m.counted p disk next run bal).Sound p := by
  simp only [Monitor.counted]
  cases disk with
  | some error => exact sound.finish_twice member (fun _ => rfl) fun _ => rfl
  | none => exact sound.finish member fun _ => rfl

/-! ### Events -/

/-- A run of a payment that is neither in flight nor completed. -/
theorem Sound.launch (sound : m.Sound p) {key : JsString} (idle : m.inflight key = none)
    (owned : ∃ st, m.objects[ref]? = some st ∧ st.payment p = some key)
    (fresh : ¬m.Completed p key) (stage : Stage) :
    Sound p { m with
      inflight := Function.update m.inflight key (some ref)
      runs := ⟨ref, key, stage⟩ :: m.runs } := by
  constructor
  · rintro run (_ | ⟨_, member⟩)
    · exact Function.update_self key (some ref) m.inflight
    · have flying := sound.flying run member
      have differ : run.key ≠ key := by
        intro same
        rw [same, idle] at flying
        cases flying
      exact (Function.update_of_ne differ _ _).trans flying
  · rintro run (_ | ⟨_, member⟩)
    · exact owned
    · exact sound.owned run member
  · rintro run (_ | ⟨_, member⟩)
    · exact fresh
    · exact sound.pending run member
  · exact sound.shown

theorem payment_some {st : PaymentStatus} {hash : JsString} (named : st.txHash = some hash)
    (given : hash ≠ []) : st.payment p = some (paymentKey p hash) := by
  rw [PaymentStatus.payment, named, Option.filter_some, if_pos (decide_eq_true given)]
  rfl

section

variable {opts : PaymentOpts} {now : JsString}

theorem Sound.runProcessPayment (sound : m.Sound p) (given : opts.txHash ≠ [])
    (idle : m.inflight (paymentKey p opts.txHash) = none)
    (fresh : ¬m.Completed p (paymentKey p opts.txHash)) :
    (m.runProcessPayment p disk now opts).Sound p := by
  have paid : (opts.status now).payment p = some (paymentKey p opts.txHash) :=
    payment_some rfl given
  have next : (m.announce p disk (opts.status now)).Sound p :=
    sound.announce (by simp [PaymentOpts.status]) paid fresh
  simp only [Monitor.runProcessPayment]
  cases disk with
  | some _ => exact next
  | none =>
    refine next.launch ?_ ⟨opts.status now, ?_, paid⟩ ?_ .attesting
    · rw [Monitor.announce, persist_inflight]
      exact idle
    · rw [Monitor.announce, persist_objects]
      exact List.getElem?_concat_length
    · rw [Completed.announce (by simp [PaymentOpts.status])]
      exact fresh

/-- What `processPayment` does. -/
theorem processPayment_cases (disk : Disk) (now : JsString) (m : Monitor) (opts : PaymentOpts) :
    (∃ ref, m.inflight (paymentKey p opts.txHash) = some ref ∧
      m.processPayment p disk now opts = (m, .existing ref)) ∨
    (∃ cached, m.cachedStatus p opts = some cached ∧
      m.processPayment p disk now opts = (m, .cached cached)) ∨
    (m.inflight (paymentKey p opts.txHash) = none ∧ m.cachedStatus p opts = none ∧
      m.processPayment p disk now opts =
        (m.runProcessPayment p disk now opts, .started (paymentKey p opts.txHash))) := by
  cases running : m.inflight (paymentKey p opts.txHash) with
  | some ref => exact .inl ⟨ref, rfl, by simp only [Monitor.processPayment, running]⟩
  | none =>
    cases stored : m.cachedStatus p opts with
    | some cached => exact .inr (.inl ⟨cached, rfl, by
        simp only [Monitor.processPayment, running, stored]⟩)
    | none => exact .inr (.inr ⟨rfl, rfl, by simp only [Monitor.processPayment, running, stored]⟩)

/-- No completed payment is processed again, provided that its status is found. -/
theorem Sound.processPayment (sound : m.Sound p) (disk : Disk) (now : JsString)
    (given : opts.txHash ≠ [])
    (found : m.Completed p (paymentKey p opts.txHash) → m.cachedStatus p opts ≠ none) :
    (m.processPayment p disk now opts).1.Sound p ∧
      ∀ key, (m.processPayment p disk now opts).2 = .started key → ¬m.Completed p key := by
  rcases processPayment_cases disk now m opts with
    ⟨ref, -, result⟩ | ⟨cached, -, result⟩ | ⟨idle, missing, result⟩
  · rw [result]
    refine ⟨sound, ?_⟩
    rintro _ ⟨⟩
  · rw [result]
    refine ⟨sound, ?_⟩
    rintro _ ⟨⟩
  · have fresh : ¬m.Completed p (paymentKey p opts.txHash) := fun done => found done missing
    rw [result]
    refine ⟨sound.runProcessPayment given idle fresh, ?_⟩
    rintro key ⟨⟩
    exact fresh

end

end Monitor

/-- The payment that the event is about, if it may be to be processed. -/
def Event.payment (p : Platform) : Event → Option PaymentOpts
  | .transaction tx _ _ _ _ => tx.payment p
  | .process body _ _ => requestedPayment body
  | _ => none

def Event.isRequest : Event → Bool
  | .process _ _ _ => true
  | _ => false

theorem readRequest_truthy {body : JsString} {address hash : Json}
    (read : readRequest body = .ok (address, hash)) : hash.isTruthy = true := by
  unfold readRequest at read
  split at read
  · cases read
  · split at read
    · cases read
    · dsimp only at read
      split at read
      next _ given =>
        cases read
        exact (Option.filter_eq_some_iff.mp given).2
      · cases read

theorem Event.payment_hash {e : Event} {opts : PaymentOpts} (named : e.payment p = some opts) :
    opts.txHash ≠ [] := by
  cases e with
  | transaction tx =>
    simp only [Event.payment, TransactionStream.payment, Option.bind_eq_bind,
      Option.bind_eq_some_iff] at named
    obtain ⟨tr, -, hash, -, accepted⟩ := named
    split at accepted
    next checked =>
      cases accepted
      exact checked.2.2.1
    next => cases accepted
  | process body =>
    simp only [Event.payment, requestedPayment, Option.bind_eq_bind,
      Option.bind_eq_some_iff] at named
    obtain ⟨⟨address, hash⟩, read, _, -, h, string, same⟩ := named
    have truthy : hash.isTruthy = true := by
      cases request : readRequest body with
      | error e =>
        rw [request] at read
        cases read
      | ok pair =>
        rw [request] at read
        cases read
        exact readRequest_truthy request
    cases same
    cases hash with
    | str s =>
      cases string
      exact of_decide_eq_true truthy
    | null | bool | num | arr | obj => cases string
  | attested | executed | counted | rejected => cases named

/-- An event about a completed payment is a request, for an address for which the payment was
completed and under which no other payment's status stands since. -/
def Orderly (p : Platform) (m : Monitor) (e : Event) : Prop :=
  ∀ opts ∈ e.payment p, m.Completed p (paymentKey p opts.txHash) →
    e.isRequest = true ∧
    (∃ st ∈ m.objects, st.state = .subAccountActive ∧
      st.payment p = some (paymentKey p opts.txHash) ∧
      p.toLowerCase st.xrplAddress = p.toLowerCase opts.xrplAddress) ∧
    (m.getStatus p opts.xrplAddress).bind (PaymentStatus.payment p) =
      some (paymentKey p opts.txHash)

instance (p : Platform) (m : Monitor) (e : Event) : Decidable (Orderly p m e) :=
  inferInstanceAs (Decidable (∀ opts ∈ e.payment p, _))

namespace Monitor

/-- What the awaited end of a stage does, it does to a run of the monitor. -/
theorem Sound.awaited (sound : m.Sound p) (stages : List Stage) {effect : Run → Monitor}
    (keeps : ∀ run ∈ m.runs, (effect run).Sound p) :
    (((m.waiting ref stages).map effect).getD m).Sound p := by
  cases waits : m.waiting ref stages with
  | none => exact sound
  | some run => exact keeps run (List.mem_of_find?_eq_some waits)

/-- The status of a completed payment is found where the request is orderly. -/
theorem Sound.cachedStatus (sound : m.Sound p) {e : Event} {opts : PaymentOpts}
    (orderly : Orderly p m e) (named : e.payment p = some opts)
    (done : m.Completed p (paymentKey p opts.txHash)) : m.cachedStatus p opts ≠ none := by
  obtain ⟨-, ⟨st, member, active, paid, address⟩, last⟩ := orderly opts named done
  obtain ⟨latest, stands, about⟩ := Option.bind_eq_some_iff.mp last
  obtain ⟨ref, found⟩ := List.mem_iff_getElem?.mp member
  obtain ⟨ref', shown, stored, held, fits⟩ := sound.shown ref st _ found active paid
  have same : latest = shown := by
    rw [getStatus, ← address, stored] at stands
    exact Option.some.inj (stands.symm.trans held)
  have active' : latest.state = .subAccountActive := same ▸ fits (same ▸ about)
  have keeps : m.cachedStatus p opts = some latest := by
    rw [Monitor.cachedStatus, stands, Option.filter_some, if_pos]
    exact decide_eq_true ⟨about, .inr active'⟩
  rw [keeps]
  exact Option.some_ne_none latest

theorem Sound.onTransaction (sound : m.Sound p) {tx : TransactionStream} {now later : JsString}
    (orderly : Orderly p m (.transaction tx now later disk next)) :
    (m.onTransaction p disk next now later tx).1.Sound p ∧
      ∀ key, (m.onTransaction p disk next now later tx).2 = some (.started key) →
        ¬m.Completed p key := by
  simp only [Monitor.onTransaction]
  cases named : tx.payment p with
  | none =>
    refine ⟨sound, ?_⟩
    rintro _ ⟨⟩
  | some opts =>
    have given : opts.txHash ≠ [] :=
      Event.payment_hash (e := .transaction tx now later disk next) named
    -- only a request may be about a completed payment
    have fresh : ¬m.Completed p (paymentKey p opts.txHash) := by
      intro done
      cases (orderly opts named done).1
    have running : StepperState.waitingXrpl ≠ .subAccountActive := by decide
    have seen : (m.announce p disk
        ⟨opts.xrplAddress, some opts.txHash, .waitingXrpl, none, none, none, now⟩).Sound p :=
      sound.announce running (payment_some rfl given) fresh
    cases disk with
    | some _ =>
      refine ⟨seen, ?_⟩
      rintro _ ⟨⟩
    | none =>
      have processed := seen.processPayment next later given fun done =>
        absurd ((Completed.announce running).mp done) fresh
      refine ⟨processed.1, ?_⟩
      intro key started done
      exact processed.2 key (Option.some.inj started) ((Completed.announce running).mpr done)

theorem Sound.onProcess (sound : m.Sound p) {body now : JsString}
    (orderly : Orderly p m (.process body now disk)) :
    (m.onProcess p disk now body).1.Sound p ∧
      ∀ key, (m.onProcess p disk now body).2 = some (.started key) → ¬m.Completed p key := by
  simp only [Monitor.onProcess]
  cases named : requestedPayment body with
  | none =>
    refine ⟨sound, ?_⟩
    rintro _ ⟨⟩
  | some opts =>
    have processed := sound.processPayment disk now
      (Event.payment_hash (p := p) (e := .process body now disk) named)
      (sound.cachedStatus orderly named)
    refine ⟨processed.1, ?_⟩
    intro key started
    exact processed.2 key (Option.some.inj started)

/-- An orderly event keeps the monitor sound and starts no completed payment. -/
theorem Sound.react (sound : m.Sound p) (e : Event) (orderly : Orderly p m e) :
    (m.step p e).Sound p ∧ ∀ key, m.Starts p e key → ¬m.Completed p key := by
  cases e with
  | transaction tx now later disk next => exact sound.onTransaction orderly
  | process body now disk => exact sound.onProcess orderly
  | attested ref roundId disk next =>
    constructor
    · refine sound.awaited _ fun run member => ?_
      exact sound.attested member roundId
    · rintro _ ⟨⟩
  | executed ref personalAccount hash fault disk =>
    constructor
    · refine sound.awaited _ fun run member => ?_
      exact sound.executed member personalAccount hash fault
    · rintro _ ⟨⟩
  | counted ref bal disk next =>
    constructor
    · refine sound.awaited _ fun run member => ?_
      exact sound.counted member bal
    · rintro _ ⟨⟩
  | rejected ref error disk =>
    constructor
    · refine sound.awaited _ fun run member => ?_
      exact sound.reject member error
    · rintro _ ⟨⟩

end Monitor

end Mirror.Relayer
