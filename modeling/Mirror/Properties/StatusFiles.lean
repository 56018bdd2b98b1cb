import Mirror.Js.Hex
import Mirror.Refinement.Attestations

/-!
The status files and `STATUS_DIR`. The name of a file is the address that a request gives, with its
separators, so that its folders may lead out of the directory.
-/
namespace Mirror.Relayer

open Js Evm

/-- The monitor on another disk. -/
def Monitor.onDisk (m : Monitor) (files : JsString → Option PaymentStatus) : Monitor :=
  { m with files := files }

/-- The event writes no file outside the directory. -/
def WritesInside (p : Platform) (dir : JsString) (e : Event) : Prop :=
  ∀ (m : Monitor) (path : JsString), ¬Inside dir path → (m.step p e).files path = m.files path

/-- What is found under this key does not depend on any file outside the directory. -/
def ReadsInside (p : Platform) (dir key : JsString) : Prop :=
  ∀ (m : Monitor) (files : JsString → Option PaymentStatus),
    (∀ path, Inside dir path → files path = m.files path) →
    (m.onDisk files).getStatus p key = m.getStatus p key

section

variable {p : Platform} {dir : JsString} {files files' : JsString → Option PaymentStatus}
  {m m' : Monitor} {disk next : Disk}

/-- The path of a status file is in the directory if its name's folders lead back to it. -/
theorem inside_statusPath_iff (key : JsString) :
    Inside dir ((p.storing dir).statusPath (key ++ text ".json")) ↔ Returns dir key :=
  inside_join_iff dir key (by decide +kernel) (by decide +kernel)

theorem persist_files_ne {ref : ℕ} {s : PaymentStatus} (found : m.objects[ref]? = some s)
    {path : JsString} (other : path ≠ p.statusPath (s.xrplAddress ++ text ".json")) :
    (m.persist p disk ref).files path = m.files path := by
  simp only [Monitor.persist, found]
  cases disk with
  | some _ => rfl
  | none => exact Function.update_of_ne other _ _

/-- One monitor on two disks that agree in the directory. Outside it the disks hold what they held
at first. -/
structure Twins (dir : JsString) (files files' : JsString → Option PaymentStatus)
    (m m' : Monitor) : Prop where
  objects : m'.objects = m.objects
  statuses : m'.statuses = m.statuses
  inflight : m'.inflight = m.inflight
  runs : m'.runs = m.runs
  inside : ∀ path, Inside dir path → m'.files path = m.files path
  outside : ∀ path, ¬Inside dir path → m.files path = files path ∧ m'.files path = files' path
  returns : ∀ st ∈ m.objects, Returns dir st.xrplAddress

namespace Twins

theorem getStatus (twins : Twins dir files files' m m') {key : JsString}
    (returns : Returns dir key) :
    m'.getStatus (p.storing dir) key = m.getStatus (p.storing dir) key := by
  simp only [Monitor.getStatus, twins.statuses, twins.objects]
  cases m.statuses ((p.storing dir).toLowerCase key) with
  | some ref => rfl
  | none => exact twins.inside _ ((inside_statusPath_iff key).mpr returns)

theorem persist (twins : Twins dir files files' m m') (ref : ℕ) :
    Twins dir files files' (m.persist (p.storing dir) disk ref)
      (m'.persist (p.storing dir) disk ref) := by
  cases found : m.objects[ref]? with
  | none => simpa only [Monitor.persist, twins.objects, found] using twins
  | some s =>
    have found' : m'.objects[ref]? = some s := twins.objects ▸ found
    -- both write the same status to the same file
    have here : Inside dir ((p.storing dir).statusPath (s.xrplAddress ++ text ".json")) :=
      (inside_statusPath_iff _).mpr (twins.returns s (List.mem_of_getElem? found))
    constructor
    case objects => rw [Monitor.persist_objects, Monitor.persist_objects, twins.objects]
    case statuses => simp only [Monitor.persist, found, found', twins.statuses]
    case inflight => rw [Monitor.persist_inflight, Monitor.persist_inflight, twins.inflight]
    case runs => rw [Monitor.persist_runs, Monitor.persist_runs, twins.runs]
    case inside =>
      intro path within
      have same := twins.inside path within
      simp only [Monitor.persist, found, found']
      cases disk with
      | some _ => exact same
      | none => simp only [Option.isNone_none, if_true, Function.update_apply, same]
    case outside =>
      intro path without
      have other : path ≠ (p.storing dir).statusPath (s.xrplAddress ++ text ".json") := by
        rintro rfl
        exact without here
      rw [persist_files_ne found other, persist_files_ne found' other]
      exact twins.outside path without
    case returns =>
      rw [Monitor.persist_objects]
      exact twins.returns

theorem announce (twins : Twins dir files files' m m') {s : PaymentStatus}
    (returns : Returns dir s.xrplAddress) :
    Twins dir files files' (m.announce (p.storing dir) disk s)
      (m'.announce (p.storing dir) disk s) := by
  simp only [Monitor.announce, twins.objects]
  have added : Twins dir files files' { m with objects := m.objects ++ [s] }
      { m' with objects := m.objects ++ [s] } := by
    refine { twins with objects := rfl, returns := ?_ }
    intro st member
    rcases List.mem_append.mp member with old | new
    · exact twins.returns st old
    · rwa [List.mem_singleton.mp new]
  exact added.persist m.objects.length

section

variable {change : PaymentStatus → PaymentStatus} {run : Run}

theorem assign (twins : Twins dir files files' m m') (ref : ℕ)
    (keeps : ∀ st, (change st).xrplAddress = st.xrplAddress) :
    Twins dir files files' (m.assign ref change) (m'.assign ref change) := by
  refine { twins with objects := ?_, returns := ?_ }
  · simp only [Monitor.assign, twins.objects]
  · intro st member
    obtain ⟨other, found⟩ := List.mem_iff_getElem?.mp member
    by_cases same : other = ref
    · rw [same, Monitor.assign, List.getElem?_modify_eq] at found
      obtain ⟨old, found', rfl⟩ := Option.map_eq_some_iff.mp found
      rw [keeps]
      exact twins.returns old (List.mem_of_getElem? found')
    · rw [Monitor.assign_objects_ne same] at found
      exact twins.returns st (List.mem_of_getElem? found)

theorem amend (twins : Twins dir files files' m m') (ref : ℕ)
    (keeps : ∀ st, (change st).xrplAddress = st.xrplAddress) :
    Twins dir files files' (m.amend (p.storing dir) disk ref change)
      (m'.amend (p.storing dir) disk ref change) :=
  (twins.assign ref keeps).persist ref

theorem proceed (twins : Twins dir files files' m m') (ref : ℕ) (stage : Stage) :
    Twins dir files files' (m.proceed ref stage) (m'.proceed ref stage) :=
  { twins with runs := by simp only [Monitor.proceed, twins.runs] }

theorem settle (twins : Twins dir files files' m m') (run : Run) :
    Twins dir files files' (m.settle run) (m'.settle run) :=
  { twins with
    inflight := by simp only [Monitor.settle, twins.inflight]
    runs := by simp only [Monitor.settle, twins.runs] }

theorem reject (twins : Twins dir files files' m m') (error : JsString) :
    Twins dir files files' (m.reject (p.storing dir) disk run error)
      (m'.reject (p.storing dir) disk run error) := by
  refine (twins.amend run.ref ?_).settle run
  exact fun _ => rfl

theorem attested (twins : Twins dir files files' m m') (roundId : ℕ) :
    Twins dir files files' (m.attested (p.storing dir) disk next run roundId)
      (m'.attested (p.storing dir) disk next run roundId) := by
  cases disk with
  | some error =>
    refine (twins.amend run.ref ?_).reject error
    exact fun _ => rfl
  | none =>
    refine (twins.amend run.ref ?_).proceed run.ref .executing
    exact fun _ => rfl

theorem executed (twins : Twins dir files files' m m') (personalAccount hash : JsString)
    (fault : Option JsString) :
    Twins dir files files' (m.executed (p.storing dir) disk run personalAccount hash fault)
      (m'.executed (p.storing dir) disk run personalAccount hash fault) := by
  cases fault with
  | some error =>
    refine (twins.assign run.ref ?_).reject error
    exact fun _ => rfl
  | none =>
    refine (twins.assign run.ref ?_).proceed run.ref .counting
    exact fun _ => rfl

theorem counted (twins : Twins dir files files' m m') (bal : ℕ) :
    Twins dir files files' (m.counted (p.storing dir) disk next run bal)
      (m'.counted (p.storing dir) disk next run bal) := by
  cases disk with
  | some error =>
    refine (twins.amend run.ref ?_).reject error
    exact fun _ => rfl
  | none =>
    refine (twins.amend run.ref ?_).settle run
    exact fun _ => rfl

/-- What the awaited end of a stage does, it does to both. -/
theorem awaited (twins : Twins dir files files' m m') (ref : ℕ) (stages : List Stage)
    (effect : Monitor → Run → Monitor)
    (keeps : ∀ run, Twins dir files files' (effect m run) (effect m' run)) :
    Twins dir files files' (((m.waiting ref stages).map (effect m)).getD m)
      (((m'.waiting ref stages).map (effect m')).getD m') := by
  have same : m'.waiting ref stages = m.waiting ref stages := by
    simp only [Monitor.waiting, twins.runs]
  rw [same]
  cases m.waiting ref stages with
  | none => exact twins
  | some run => exact keeps run

end

section

variable {opts : PaymentOpts} {now : JsString}

theorem runProcessPayment (twins : Twins dir files files' m m')
    (returns : Returns dir opts.xrplAddress) :
    Twins dir files files' (m.runProcessPayment (p.storing dir) disk now opts)
      (m'.runProcessPayment (p.storing dir) disk now opts) := by
  have next : Twins dir files files' (m.announce (p.storing dir) disk (opts.status now))
      (m'.announce (p.storing dir) disk (opts.status now)) := twins.announce returns
  cases disk with
  | some _ => exact next
  | none =>
    refine { next with inflight := ?_, runs := ?_ }
    · simp only [Monitor.runProcessPayment, next.inflight, twins.objects]
    · simp only [Monitor.runProcessPayment, next.runs, twins.objects]

theorem processPayment (twins : Twins dir files files' m m')
    (returns : Returns dir opts.xrplAddress) :
    Twins dir files files' (m.processPayment (p.storing dir) disk now opts).1
        (m'.processPayment (p.storing dir) disk now opts).1 ∧
      (m'.processPayment (p.storing dir) disk now opts).2 =
        (m.processPayment (p.storing dir) disk now opts).2 := by
  have stored : m'.cachedStatus (p.storing dir) opts = m.cachedStatus (p.storing dir) opts := by
    rw [Monitor.cachedStatus, twins.getStatus returns, Monitor.cachedStatus]
  simp only [Monitor.processPayment, twins.inflight, stored]
  cases m.inflight (paymentKey (p.storing dir) opts.txHash) with
  | some ref => exact ⟨twins, rfl⟩
  | none =>
    cases m.cachedStatus (p.storing dir) opts with
    | some cached => exact ⟨twins, rfl⟩
    | none => exact ⟨twins.runProcessPayment returns, rfl⟩

theorem onTransaction (twins : Twins dir files files' m m') {tx : TransactionStream}
    {later : JsString}
    (returns : ∀ opts, tx.payment (p.storing dir) = some opts → Returns dir opts.xrplAddress) :
    Twins dir files files' (m.onTransaction (p.storing dir) disk next now later tx).1
        (m'.onTransaction (p.storing dir) disk next now later tx).1 ∧
      (m'.onTransaction (p.storing dir) disk next now later tx).2 =
        (m.onTransaction (p.storing dir) disk next now later tx).2 := by
  simp only [Monitor.onTransaction]
  cases named : tx.payment (p.storing dir) with
  | none => exact ⟨twins, rfl⟩
  | some opts =>
    let waiting : PaymentStatus :=
      ⟨opts.xrplAddress, some opts.txHash, .waitingXrpl, none, none, none, now⟩
    have seen : Twins dir files files' (m.announce (p.storing dir) disk waiting)
        (m'.announce (p.storing dir) disk waiting) := twins.announce (returns opts named)
    cases disk with
    | some _ => exact ⟨seen, rfl⟩
    | none =>
      obtain ⟨after, answer⟩ := seen.processPayment (returns opts named)
      exact ⟨after, congrArg some answer⟩

theorem onProcess (twins : Twins dir files files' m m') {body : JsString}
    (returns : ∀ opts, requestedPayment body = some opts → Returns dir opts.xrplAddress) :
    Twins dir files files' (m.onProcess (p.storing dir) disk now body).1
        (m'.onProcess (p.storing dir) disk now body).1 ∧
      (m'.onProcess (p.storing dir) disk now body).2 =
        (m.onProcess (p.storing dir) disk now body).2 := by
  simp only [Monitor.onProcess]
  cases named : requestedPayment body with
  | none => exact ⟨twins, rfl⟩
  | some opts =>
    obtain ⟨after, answer⟩ := twins.processPayment (returns opts named)
    exact ⟨after, congrArg some answer⟩

end

/-- An event whose payment's address returns does the same to both, and answers the same. -/
theorem react (twins : Twins dir files files' m m') {e : Event}
    (returns : ∀ opts, e.payment (p.storing dir) = some opts → Returns dir opts.xrplAddress) :
    Twins dir files files' (m.step (p.storing dir) e) (m'.step (p.storing dir) e) ∧
      (m'.react (p.storing dir) e).2 = (m.react (p.storing dir) e).2 := by
  cases e with
  | transaction tx now later disk next => exact twins.onTransaction returns
  | process body now disk => exact twins.onProcess returns
  | attested ref roundId disk next =>
    refine ⟨twins.awaited ref [.attesting] (fun m run =>
      m.attested (p.storing dir) disk next run roundId) fun run => ?_, rfl⟩
    exact twins.attested roundId
  | executed ref personalAccount hash fault disk =>
    refine ⟨twins.awaited ref [.executing] (fun m run =>
      m.executed (p.storing dir) disk run personalAccount hash fault) fun run => ?_, rfl⟩
    exact twins.executed personalAccount hash fault
  | counted ref bal disk next =>
    refine ⟨twins.awaited ref [.counting] (fun m run =>
      m.counted (p.storing dir) disk next run bal) fun run => ?_, rfl⟩
    exact twins.counted bal
  | rejected ref error disk =>
    refine ⟨twins.awaited ref [.attesting, .executing, .counting] (fun m run =>
      m.reject (p.storing dir) disk run error) fun run => ?_, rfl⟩
    exact twins.reject error

end Twins

/-- Under a key is found what is in the directory exactly when the key returns to it. -/
theorem readsInside_iff (p : Platform) (dir key : JsString) :
    ReadsInside (p.storing dir) dir key ↔ Returns dir key := by
  constructor
  · intro reads
    by_contra escapes
    -- a monitor that has just started reads the file
    have without := mt (inside_statusPath_iff (p := p) key).mp escapes
    let status : PaymentStatus := ⟨key, none, .failed, none, none, none, []⟩
    have unread := reads (.start fun _ => none) (Function.update (fun _ => none)
      ((p.storing dir).statusPath (key ++ text ".json")) (some status)) (by
        intro path within
        refine Function.update_of_ne ?_ _ _
        rintro rfl
        exact without within)
    simp [Monitor.getStatus, Monitor.onDisk, Monitor.start] at unread
  · intro returns m files agree
    simp only [Monitor.getStatus, Monitor.onDisk]
    cases m.statuses ((p.storing dir).toLowerCase key) with
    | some ref => rfl
    | none => exact agree _ ((inside_statusPath_iff key).mpr returns)

/-- A request has a file written in the directory exactly when its address returns to it. -/
theorem writesInside_iff (p : Platform) (dir : JsString) {body : JsString} {opts : PaymentOpts}
    (named : requestedPayment body = some opts) :
    (∀ now disk, WritesInside (p.storing dir) dir (.process body now disk)) ↔
      Returns dir opts.xrplAddress := by
  constructor
  · intro writes
    by_contra escapes
    have without := mt (inside_statusPath_iff (p := p) opts.xrplAddress).mp escapes
    -- a monitor that has just started writes the file
    have unwritten := writes [] none (.start fun _ => none) _ without
    simp [Monitor.step, Monitor.react, Monitor.onProcess, named, Monitor.processPayment,
      Monitor.cachedStatus, Monitor.getStatus, Monitor.start, Monitor.runProcessPayment,
      Monitor.announce, Monitor.persist, PaymentOpts.status] at unwritten
  · intro returns now disk m path without
    have other : path ≠ (p.storing dir).statusPath (opts.xrplAddress ++ text ".json") := by
      rintro rfl
      exact without ((inside_statusPath_iff _).mpr returns)
    have kept : (m.announce (p.storing dir) disk (opts.status now)).files path = m.files path :=
      persist_files_ne List.getElem?_concat_length other
    simp only [Monitor.step, Monitor.react, Monitor.onProcess, named]
    rcases Monitor.processPayment_cases disk now m opts with
      ⟨ref, -, result⟩ | ⟨cached, -, result⟩ | ⟨-, -, result⟩
    · rw [result]
    · rw [result]
    · rw [result]
      cases disk with
      | some _ => exact kept
      | none => exact kept

end

/-- A request has files written and read in `STATUS_DIR` exactly when the folders of its address
lead back there, and so has a question for a status. In every run of payments with such addresses
nothing outside is written, and nothing that happens depends on what is there. -/
theorem status_files_confined (p : Platform) (dir : JsString) :
    (∀ (body : JsString) (opts : PaymentOpts), requestedPayment body = some opts →
      ((∀ now disk, WritesInside (p.storing dir) dir (.process body now disk)) ↔
        Returns dir opts.xrplAddress)) ∧
    (∀ (body : JsString) (address hash : Json) (key : JsString),
      readRequest body = .ok (address, hash) → address.asString = some key →
      (ReadsInside (p.storing dir) dir key ↔ Returns dir key)) ∧
    (∀ pathname key : JsString, requestedStatus pathname = some key →
      (ReadsInside (p.storing dir) dir key ↔ Returns dir key)) ∧
    ∀ (files files' : JsString → Option PaymentStatus) (events : List Event),
      (∀ path, Inside dir path → files' path = files path) →
      (∀ e ∈ events, ∀ opts, e.payment (p.storing dir) = some opts →
        Returns dir opts.xrplAddress) →
      Twins dir files files' (run (Monitor.step (p.storing dir)) (.start files) events)
        (run (Monitor.step (p.storing dir)) (.start files') events) := by
  refine ⟨fun body opts named => writesInside_iff p dir named,
    fun body address hash key _ _ => readsInside_iff p dir key,
    fun pathname key _ => readsInside_iff p dir key, ?_⟩
  intro files files' events agree returns
  have start : Twins dir files files' (.start files) (.start files') := by
    constructor
    case inside => exact agree
    case outside => exact fun path _ => ⟨rfl, rfl⟩
    case returns => rintro st ⟨⟩
    all_goals rfl
  exact run_simulates (fun _ _ _ twins returns => (twins.react returns).1) _ _ start events returns

namespace Sample

def statusDir : JsString := text "/tmp/mirror-fsa-status"

def statusPlatform : Platform where
  operator := text "rPT1Sjq2YGrBMTttX4GZHjKu9dyfzbpAYe"
  -- on ASCII
  toLowerCase := lower
  statusPath s := s

/-- A request under the address of an account. -/
def plainBody : JsString := text "\x7b\"xrplAddress\":\"rA\",\"txHash\":\"AB\"\x7d"

/-- A request under an address that leads out of the directory. -/
def escapingBody : JsString := text "\x7b\"xrplAddress\":\"../x\",\"txHash\":\"AB\"\x7d"

end Sample

theorem status_files_confined_plain :
    (∀ now disk, WritesInside (Sample.statusPlatform.storing Sample.statusDir) Sample.statusDir
      (.process Sample.plainBody now disk)) ∧
    Twins Sample.statusDir (fun _ => none) (fun _ => none)
      (run (Monitor.step (Sample.statusPlatform.storing Sample.statusDir)) (.start fun _ => none)
        [.process Sample.plainBody [] none])
      (run (Monitor.step (Sample.statusPlatform.storing Sample.statusDir)) (.start fun _ => none)
        [.process Sample.plainBody [] none]) := by
  have confined := status_files_confined Sample.statusPlatform Sample.statusDir
  have named : requestedPayment Sample.plainBody = some ⟨text "rA", text "AB"⟩ := by
    decide +kernel
  have returns : Returns Sample.statusDir (text "rA") := returns_of_plain (by decide +kernel)
  refine ⟨(confined.1 _ _ named).mpr returns, confined.2.2.2 _ _ _ (fun _ _ => rfl) ?_⟩
  intro e member opts payment
  rw [List.mem_singleton.mp member, Event.payment, named] at payment
  obtain rfl := Option.some.inj payment
  exact returns

/-- A request has `/tmp/x.json` written. -/
theorem status_file_escapes :
    ¬∀ (p : Platform) (dir body : JsString) (opts : PaymentOpts),
      requestedPayment body = some opts →
      ∀ now disk, WritesInside (p.storing dir) dir (.process body now disk) := by
  intro confined
  have kept := confined Sample.statusPlatform Sample.statusDir Sample.escapingBody
    ⟨text "../x", text "AB"⟩ (by decide +kernel) [] none (.start fun _ => none)
    (text "/tmp/x.json") (by
      have path : (Sample.statusPlatform.storing Sample.statusDir).statusPath
          (text "../x" ++ text ".json") = text "/tmp/x.json" := by decide +kernel
      rw [← path, inside_statusPath_iff]
      decide +kernel)
  exact absurd kept (by decide +kernel)

end Mirror.Relayer
