import Mirror.Js.Hex
import Mirror.Refinement.Attestations

/-!
A payment on the XRPL is processed once. What the monitor remembers of a completed payment is the
status under its address, which the next event may overwrite.
-/
namespace Mirror.Relayer

open Js Evm

variable {p : Platform} {m : Monitor}

/-- A new status is the one that stands under its address. -/
theorem getStatus_announce (m : Monitor) (s : PaymentStatus) :
    (m.announce p none s).getStatus p s.xrplAddress = some s := by
  have here : (m.objects ++ [s])[m.objects.length]? = some s := List.getElem?_concat_length
  have latest : (m.announce p none s).statuses (p.toLowerCase s.xrplAddress) =
      some m.objects.length := Monitor.persist_latest here
  rw [Monitor.getStatus, latest]
  simp only [Monitor.announce, Monitor.persist_objects]
  exact here

/-- A payment that the stream delivers is processed if it is not in flight, completed or not. -/
theorem redelivery_starts {tx : TransactionStream} {opts : PaymentOpts}
    (named : tx.payment p = some opts) (now later : JsString)
    (idle : m.inflight (paymentKey p opts.txHash) = none) (next : Disk) :
    m.Starts p (.transaction tx now later none next) (paymentKey p opts.txHash) := by
  let waiting : PaymentStatus :=
    ⟨opts.xrplAddress, some opts.txHash, .waitingXrpl, none, none, none, now⟩
  have stands : (m.announce p none waiting).getStatus p opts.xrplAddress = some waiting :=
    getStatus_announce m waiting
  -- the delivery itself has taken the place of the status that would have been found
  have missing : (m.announce p none waiting).cachedStatus p opts = none := by
    rw [Monitor.cachedStatus, stands]
    simp [waiting]
  have idle' : (m.announce p none waiting).inflight (paymentKey p opts.txHash) = none := by
    rw [Monitor.announce, Monitor.persist_inflight]
    exact idle
  have started : ((m.announce p none waiting).processPayment p next later opts).2 =
      .started (paymentKey p opts.txHash) := by
    simp only [Monitor.processPayment, idle', missing]
  simp only [Monitor.Starts, Monitor.react, Monitor.onTransaction, named]
  exact congrArg some started

/-- In every run where each event about a completed payment is a request for an address for which
it was completed, and under which no other payment's status stands, no completed payment is
processed again. -/
theorem completed_not_reprocessed (p : Platform) (files : JsString → Option PaymentStatus)
    (events : List Event)
    (orderly : Admissible (Monitor.step p) (Orderly p) (.start files) events) :
    Admissible (Monitor.step p) (fun m e => ∀ key, m.Starts p e key → ¬m.Completed p key)
      (.start files) events :=
  run_admissible (fun _ e sound orderly => (sound.react e orderly).1)
    (fun _ e sound orderly => (sound.react e orderly).2) _ (Monitor.sound_start files) events
    orderly

namespace Sample

def platform : Platform where
  operator := text "rPT1Sjq2YGrBMTttX4GZHjKu9dyfzbpAYe"
  -- on ASCII
  toLowerCase := lower
  statusPath s := s

def opts : PaymentOpts where
  xrplAddress := text "rGWrZyQqhTp9Xu7G5Pkayo7bXjH4k4QYpf"
  txHash := text "E3FE6EA3D48F0C2B639448020EA4F03D4F4F8FFDB243A852A0F59177921B4879"

/-- A payment to the operator. -/
def payment : TransactionStream where
  txJson := some ⟨text "Payment", some platform.operator, opts.xrplAddress⟩
  transaction := none
  hash := some opts.txHash

/-- A request for this payment, its hash spelled otherwise. -/
def processBody : JsString :=
  text "\x7b\"xrplAddress\":" ++ text "\"rGWrZyQqhTp9Xu7G5Pkayo7bXjH4k4QYpf\"" ++
    text ",\"txHash\":" ++
    text "\"0xe3fe6ea3d48f0c2b639448020ea4f03d4f4f8ffdb243a852a0f59177921b4879\"" ++ text "\x7d"

/-- The payment is seen and processed to the end. -/
def processed : List Event :=
  [.transaction payment (text "t0") (text "t1") none none, .attested 1 1000 none none,
    .executed 1 (text "0x01") (text "0x02") none none, .counted 1 0 none none]

end Sample

theorem completed_not_reprocessed_request :
    Admissible (Monitor.step Sample.platform)
      (fun m e => ∀ key, m.Starts Sample.platform e key → ¬m.Completed Sample.platform key)
      (.start fun _ => none) (Sample.processed ++ [.process Sample.processBody (text "t2") none]) :=
  completed_not_reprocessed Sample.platform (fun _ => none)
    (Sample.processed ++ [.process Sample.processBody (text "t2") none]) (by decide +kernel)

/-- The stream delivers a completed payment once more, and it is processed once more. -/
theorem payment_processed_twice :
    ¬∀ (p : Platform) (files : JsString → Option PaymentStatus) (events : List Event),
      Admissible (Monitor.step p) (fun m e => ∀ key, m.Starts p e key → ¬m.Completed p key)
        (.start files) events := by
  intro once
  have again := once Sample.platform (fun _ => none)
    (Sample.processed ++ [.transaction Sample.payment (text "t3") (text "t4") none none])
  rw [admissible_append] at again
  have named : Sample.payment.payment Sample.platform = some Sample.opts := by decide +kernel
  exact again.2.1 _ (redelivery_starts named _ _ (by decide +kernel) none) (by decide +kernel)

end Mirror.Relayer
