import Mirror.Evm.Run
import Mirror.Js.Json
import Mirror.Js.Path
import Mathlib.Logic.Function.Basic

/-!
The XRPL monitor of the relayer. Its handlers run to their next `await` without interruption, so an
event here is one such stretch: a payment that the stream delivers, a request, or what a running
attestation waits for. Statuses are shared objects that a run goes on changing, so the map of
statuses holds references.
-/
namespace Mirror.Relayer

open Js

inductive StepperState
  | waitingXrpl
  | requestingFdc
  | mintingFxrp
  | subAccountActive
  | failed
  deriving DecidableEq

structure PaymentStatus where
  xrplAddress : JsString
  txHash : Option JsString
  state : StepperState
  message : Option JsString
  personalAccount : Option JsString
  vaultBalance : Option JsString
  updatedAt : JsString
  deriving DecidableEq

/-- What the monitor finds where it runs. -/
structure Platform where
  operator : JsString
  toLowerCase : JsString → JsString
  /-- `join(STATUS_DIR, name)`. -/
  statusPath : JsString → JsString

/-- The platform where `STATUS_DIR` is this directory. -/
def Platform.storing (p : Platform) (dir : JsString) : Platform :=
  { p with statusPath := fun name => join [dir, name] }

/-- What a running `runProcessPayment` waits for. -/
inductive Stage
  | attesting
  | executing
  | counting
  deriving DecidableEq

/-- A `runProcessPayment` that waits, with its status object and its key in `inflight`. -/
structure Run where
  ref : ℕ
  key : JsString
  stage : Stage

structure Monitor where
  objects : List PaymentStatus
  statuses : JsString → Option ℕ
  files : JsString → Option PaymentStatus
  inflight : JsString → Option ℕ
  runs : List Run

/-- The error of writing a file, unless it is written. -/
abbrev Disk := Option JsString

/-- A monitor as it starts, with what earlier ones left in files. -/
def Monitor.start (files : JsString → Option PaymentStatus) : Monitor :=
  ⟨[], fun _ => none, files, fun _ => none, []⟩

section

variable (p : Platform)

def statusKey (xrpl : JsString) (txHash : Option JsString) : JsString :=
  p.toLowerCase (xrpl ++ text ":" ++ txHash.getD (text "pending"))

/-- `txHash.replace(/^0x/i, "").toLowerCase()`. -/
def paymentKey (txHash : JsString) : JsString :=
  p.toLowerCase (if startsWith txHash (text "0x") || startsWith txHash (text "0X") then
    txHash.drop 2 else txHash)

/-- The key of the payment that a status is about. -/
def PaymentStatus.payment (st : PaymentStatus) : Option JsString :=
  (st.txHash.filter fun h => h ≠ []).map (paymentKey p)

namespace Monitor

def getStatus (m : Monitor) (xrplOrKey : JsString) : Option PaymentStatus :=
  -- `statuses.has(k)`, else the file of that name
  match m.statuses (p.toLowerCase xrplOrKey) with
  | some ref => m.objects[ref]?
  | none => m.files (p.statusPath (xrplOrKey ++ text ".json"))

/-- `persist` of an object; the maps are set before the file is written. -/
def persist (disk : Disk) (m : Monitor) (ref : ℕ) : Monitor :=
  match m.objects[ref]? with
  | some s =>
    { m with
      statuses := Function.update
        (Function.update m.statuses (statusKey p s.xrplAddress s.txHash) (some ref))
        (p.toLowerCase s.xrplAddress) (some ref)
      files := if disk.isNone then
          Function.update m.files (p.statusPath (s.xrplAddress ++ text ".json")) (some s)
        else m.files }
  | none => m

/-- A new object, persisted. -/
def announce (disk : Disk) (m : Monitor) (s : PaymentStatus) : Monitor :=
  persist p disk { m with objects := m.objects ++ [s] } m.objects.length

/-- Assignments to an object. -/
def assign (m : Monitor) (ref : ℕ) (change : PaymentStatus → PaymentStatus) : Monitor :=
  { m with objects := m.objects.modify ref change }

/-- Assignments to an object, persisted. -/
def amend (disk : Disk) (m : Monitor) (ref : ℕ) (change : PaymentStatus → PaymentStatus) :
    Monitor :=
  persist p disk (m.assign ref change) ref

/-- The run waits for something else. -/
def proceed (m : Monitor) (ref : ℕ) (stage : Stage) : Monitor :=
  { m with
    runs := m.runs.map fun run => if run.ref = ref then { run with stage := stage } else run }

/-- The run has ended: `.finally(() => inflight.delete(key))`. -/
def settle (m : Monitor) (run : Run) : Monitor :=
  { m with
    inflight := Function.update m.inflight run.key none
    runs := m.runs.filter fun other => other.ref ≠ run.ref }

end Monitor

end

structure PaymentOpts where
  xrplAddress : JsString
  txHash : JsString
  deriving DecidableEq

/-- The status of a payment whose attestation begins. -/
def PaymentOpts.status (opts : PaymentOpts) (now : JsString) : PaymentStatus where
  xrplAddress := opts.xrplAddress
  txHash := some opts.txHash
  state := .requestingFdc
  message := some (text "Requesting FDC Payment attestation (one round, typically 1–3 min)")
  personalAccount := none
  vaultBalance := none
  updatedAt := now

/-- How `processPayment` answers. -/
inductive Answer
  | existing (ref : ℕ)
  | cached (status : PaymentStatus)
  | started (key : JsString)
  deriving DecidableEq

section

variable (p : Platform)

namespace Monitor

/-- `runProcessPayment` to its first `await`: where the status cannot be written it is rejected. -/
def runProcessPayment (disk : Disk) (now : JsString) (m : Monitor) (opts : PaymentOpts) : Monitor :=
  let key := paymentKey p opts.txHash
  let next := m.announce p disk (opts.status now)
  -- `persist` stands before the `try`, so its error rejects the promise at once
  match disk with
  | some _ => next
  | none =>
    { next with
      inflight := Function.update next.inflight key (some m.objects.length)
      runs := ⟨m.objects.length, key, .attesting⟩ :: next.runs }

/-- The cached status that makes another run of the payment needless. -/
def cachedStatus (m : Monitor) (opts : PaymentOpts) : Option PaymentStatus :=
  (m.getStatus p opts.xrplAddress).filter fun cached =>
    cached.payment p = some (paymentKey p opts.txHash) ∧
      (cached.state = .mintingFxrp ∨ cached.state = .subAccountActive)

def processPayment (disk : Disk) (now : JsString) (m : Monitor) (opts : PaymentOpts) :
    Monitor × Answer :=
  let key := paymentKey p opts.txHash
  -- another attestation of the payment is running
  match m.inflight key with
  | some ref => (m, .existing ref)
  | none =>
    -- the status under the address, whichever payment it is of
    match m.cachedStatus p opts with
    | some cached => (m, .cached cached)
    | none => (m.runProcessPayment p disk now opts, .started key)

end Monitor

/-! ### The stream -/

structure XrplTransaction where
  transactionType : JsString
  destination : Option JsString
  account : JsString

/-- A `TransactionStream`, which has its transaction in one of two places. -/
structure TransactionStream where
  txJson : Option XrplTransaction
  transaction : Option XrplTransaction
  hash : Option JsString

/-- The payment to the operator that the stream delivers. -/
def TransactionStream.payment (tx : TransactionStream) : Option PaymentOpts := do
  let tr ← tx.txJson <|> tx.transaction
  let hash ← tx.hash
  if tr.transactionType = text "Payment" ∧ tr.destination = some p.operator ∧ hash ≠ [] ∧
      tr.account ≠ [] then
    return ⟨tr.account, hash⟩
  else none

namespace Monitor

/-- The handler of `transaction`; where the status cannot be written it ends there. -/
def onTransaction (disk next : Disk) (now later : JsString) (m : Monitor)
    (tx : TransactionStream) : Monitor × Option Answer :=
  match tx.payment p with
  | none => (m, none)
  | some opts =>
    -- this overwrites what stood under the address
    let seen := m.announce p disk
      ⟨opts.xrplAddress, some opts.txHash, .waitingXrpl, none, none, none, now⟩
    match disk with
    | some _ => (seen, none)
    | none =>
      let (after, answer) := seen.processPayment p next later opts
      (after, some answer)

end Monitor

/-! ### Requests -/

/-- Why a request is answered with status 400. -/
inductive Refusal
  | syntaxError
  | typeError
  /-- "xrplAddress and txHash required". -/
  | required
  deriving DecidableEq

/-- The two properties of a request, which may be no strings. -/
def readRequest (body : JsString) : Except Refusal (Json × Json) :=
  match Json.parse body with
  | none => .error .syntaxError
  | some j =>
    -- `null.xrplAddress` throws
    if j.isNull then .error .typeError
    else
      let given (key : String) := (j.get (text key)).filter Json.isTruthy
      match given "xrplAddress", given "txHash" with
      | some address, some hash => .ok (address, hash)
      | _, _ => .error .required

/-- The payment that a request asks for; with anything but strings `processPayment` is rejected. -/
def requestedPayment (body : JsString) : Option PaymentOpts := do
  let (address, hash) ← (readRequest body).toOption
  return ⟨← address.asString, ← hash.asString⟩

/-- Whose status a request asks for, from the path of its URL; `decodeURIComponent` may throw. -/
def requestedStatus (pathname : JsString) : Option JsString :=
  if startsWith pathname (text "/status/") then
    decodeURIComponent (pathname.drop (text "/status/").length)
  else none

/-- What a request is answered with status 202. -/
inductive Response
  | stored (status : PaymentStatus)
  /-- In state `requesting_fdc`, with the properties of the request. -/
  | requesting (xrplAddress : JsString) (txHash : Json) (updatedAt : JsString)

namespace Monitor

/-- The answer to `POST /process`, from the statuses that the request left. -/
def response (later : JsString) (m : Monitor) (body : JsString) : Except Refusal Response := do
  let (address, hash) ← readRequest body
  match address.asString with
  | none => .error .typeError
  | some xrplAddress =>
    match m.getStatus p xrplAddress with
    | some st => return .stored st
    | none => return .requesting xrplAddress hash later

/-- The answer to `GET /status/`, if there is one. -/
def onStatus (m : Monitor) (pathname : JsString) : Option (Option PaymentStatus) :=
  (requestedStatus pathname).map (m.getStatus p)

def onProcess (disk : Disk) (now : JsString) (m : Monitor) (body : JsString) :
    Monitor × Option Answer :=
  match requestedPayment body with
  | none => (m, none)
  | some opts =>
    let (next, answer) := m.processPayment p disk now opts
    (next, some answer)

/-! ### Runs -/

/-- The `catch` of a run, which ends it. -/
def reject (disk : Disk) (m : Monitor) (run : Run) (error : JsString) : Monitor :=
  let next := m.amend p disk run.ref fun st => { st with state := .failed, message := some error }
  next.settle run

/-- `attestXrplPayment` has returned. -/
def attested (disk next : Disk) (m : Monitor) (run : Run) (roundId : ℕ) : Monitor :=
  let minting := m.amend p disk run.ref fun st =>
    { st with state := .mintingFxrp, message := some (text "FDC round " ++ decimal roundId) }
  -- `persist` stands inside the `try`
  match disk with
  | some error => minting.reject p next run error
  | none => minting.proceed run.ref .executing

/-- `executeInstructionOnMac` has returned; `fault` is thrown before the balance is asked for. -/
def executed (disk : Disk) (m : Monitor) (run : Run) (personalAccount hash : JsString)
    (fault : Option JsString) : Monitor :=
  let next := m.assign run.ref fun st =>
    { st with
      personalAccount := some personalAccount
      message := some (text "executeInstruction " ++ hash) }
  -- reading the configuration and `getAddress` may throw here
  match fault with
  | some error => next.reject p disk run error
  | none => next.proceed run.ref .counting

/-- The vault's balance has been read. -/
def counted (disk next : Disk) (m : Monitor) (run : Run) (bal : ℕ) : Monitor :=
  let active := m.amend p disk run.ref fun st =>
    { st with
      vaultBalance := some (decimal bal)
      state := .subAccountActive
      message := if bal = 0 then
          some (st.message.getD [] ++ text " — PersonalAccount " ++ st.personalAccount.getD [] ++
            text " is active. Mirror vault follow still needs onboard().")
        else st.message }
  match disk with
  | some error => active.reject p next run error
  | none => active.settle run

end Monitor

/-- What happens to the monitor, with what it reads off the clock and the chain then and how its
writes end, of which there may be two. -/
inductive Event
  | transaction (tx : TransactionStream) (now later : JsString) (disk next : Disk)
  | process (body : JsString) (now : JsString) (disk : Disk)
  | attested (ref : ℕ) (roundId : ℕ) (disk next : Disk)
  | executed (ref : ℕ) (personalAccount hash : JsString) (fault : Option JsString) (disk : Disk)
  | counted (ref : ℕ) (bal : ℕ) (disk next : Disk)
  | rejected (ref : ℕ) (error : JsString) (disk : Disk)

namespace Monitor

/-- The run with this object, if it waits for this. -/
def waiting (m : Monitor) (ref : ℕ) (stages : List Stage) : Option Run :=
  m.runs.find? fun run => run.ref = ref ∧ run.stage ∈ stages

/-- The event's effect, with the answer of `processPayment` where it is called. What no run waits
for does not happen. -/
def react (m : Monitor) : Event → Monitor × Option Answer
  | .transaction tx now later disk next => m.onTransaction p disk next now later tx
  | .process body now disk => m.onProcess p disk now body
  | .attested ref roundId disk next =>
    (((m.waiting ref [.attesting]).map fun run => m.attested p disk next run roundId).getD m, none)
  | .executed ref personalAccount hash fault disk =>
    (((m.waiting ref [.executing]).map fun run =>
      m.executed p disk run personalAccount hash fault).getD m, none)
  | .counted ref bal disk next =>
    (((m.waiting ref [.counting]).map fun run => m.counted p disk next run bal).getD m, none)
  | .rejected ref error disk =>
    (((m.waiting ref [.attesting, .executing, .counting]).map fun run =>
      m.reject p disk run error).getD m, none)

def step (m : Monitor) (e : Event) : Monitor := (m.react p e).1

/-- The event starts `runProcessPayment` for this payment. -/
def Starts (m : Monitor) (e : Event) (key : JsString) : Prop :=
  (m.react p e).2 = some (.started key)

instance (m : Monitor) (e : Event) (key : JsString) : Decidable (m.Starts p e key) :=
  inferInstanceAs (Decidable (_ = _))

/-- A run for this payment has completed successfully. -/
def Completed (m : Monitor) (key : JsString) : Prop :=
  ∃ st ∈ m.objects, st.state = .subAccountActive ∧ st.payment p = some key

instance (m : Monitor) (key : JsString) : Decidable (m.Completed p key) :=
  inferInstanceAs (Decidable (∃ st ∈ m.objects, _))

end Monitor

end

end Mirror.Relayer
