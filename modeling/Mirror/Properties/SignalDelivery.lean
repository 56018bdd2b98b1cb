import Mirror.Engine.Node
import Mirror.Frontend.Encrypt
import Mirror.Properties.NotionalCap
import Mirror.Refinement.Payloads
import Mirror.Refinement.Wire

/-! A signal that the page encrypts is the signal that the matching engine decides. -/
namespace Mirror

open Evm hiding Byte
open Js Completion Frontend

/-! ### The node and its keys -/

/-- The node opens what is sent to it, both ways in base64. -/
def NodeHost.Opens (net : NodeHost) (client : NodeClient)
    (dec : List Byte → Option (List Byte)) : Prop :=
  ∀ body request c m, Json.parse body = some request →
    request.get (text "encryptedMessage") = some (.str (base64Encode c)) → dec c = some m →
    ∃ status reply v, net.fetch (client.baseUrl ++ text "/decrypt") body = .response status reply ∧
      200 ≤ status ∧ status < 300 ∧ Json.parse (NodeClient.bodyText reply) = some v ∧
      v.get (text "decryptedMessage") = some (.str (base64Encode m))

/-- What is encrypted with the public key, whatever is random, the private key opens. -/
def KeyPair {Key Random : Type} (subtle : Subtle Key Random) (pubKeyB64 : JsString)
    (dec : List Byte → Option (List Byte)) : Prop :=
  ∀ der key random m c, b64ToBuf pubKeyB64 = some der → subtle.importKey der = some key →
    subtle.encrypt random key m = some c → dec c = some m

theorem NodeClient.decrypt_opens {client : NodeClient} {net : NodeHost}
    {dec : List Byte → Option (List Byte)} (opens : net.Opens client dec) {c m : List Byte}
    (opened : dec c = some m) : client.decrypt net c = .ok m := by
  have request : (Json.obj [(text "encryptedMessage", .str (base64Encode c))]).IsFinite :=
    obj_finite (.str _)
  obtain ⟨status, reply, v, answer, low, high, parsed, sent⟩ :=
    opens _ _ c m (Json.parse_stringify request) rfl opened
  have posted : client.post net (text "/decrypt")
      (.obj [(text "encryptedMessage", .str (base64Encode c))]) = .ok v := by
    rw [NodeClient.post, answer]
    simp only [parsed]
    exact if_neg (by omega)
  have decoded : NodeClient.fromBase64 net (.str (base64Encode m)) = .ok m := by
    rw [NodeClient.fromBase64, Json.asString, Option.bind_some, base64Decode_base64Encode]
  -- an answer with a member is not `null`
  have some : v.isNull = false := by
    cases v with
    | null => cases sent
    | bool | num | str | arr | obj => rfl
  rw [NodeClient.decrypt, posted]
  simp only [bind, Except.bind, some, Bool.false_eq_true, if_false, sent, decoded]

theorem encryptSignal_ok {Key Random : Type} {subtle : Subtle Key Random} {random : Random}
    {p : SignalPayload} {pubKeyB64 hex : JsString}
    (encrypted : encryptSignal subtle random p pubKeyB64 = .ok hex) :
    ∃ der key cipher, b64ToBuf pubKeyB64 = some der ∧ subtle.importKey der = some key ∧
      subtle.encrypt random key (utf8Encode p.toJson.stringify) = some cipher ∧
      hex = bytesToHex cipher := by
  unfold encryptSignal at encrypted
  split at encrypted
  · cases encrypted
  · split at encrypted
    next => cases encrypted
    next der decoded =>
      simp only at encrypted
      split at encrypted
      next => cases encrypted
      next cipher made =>
        obtain ⟨key, imported, made⟩ := Option.bind_eq_some_iff.mp made
        cases encrypted
        exact ⟨der, key, cipher, decoded, imported, made, rfl⟩

/-! ### The payload -/

namespace Frontend.SignalPayload

/-- The payload as it is read: a size that is no finite number is written as `null`. -/
def received (p : SignalPayload) : Json :=
  .obj [(text "asset", .str p.asset), (text "direction", directionJson p.direction),
    (text "sizePct", if p.sizePct.isFinite then .num p.sizePct else .null),
    (text "nonce", .str p.nonce), (text "recipient", .str p.recipient)]

theorem received_finite (p : SignalPayload) : p.received.IsFinite := by
  have direction : (directionJson p.direction).IsFinite := by
    cases p.direction with
    | buy => exact .str _
    | sell => exact .str _
  refine obj_finite ⟨.str _, direction, ?_, .str _, .str _⟩
  cases p.sizePct with
  | finite x => exact .num x
  | nan => exact .null
  | infinity negative => exact .null

theorem stringify_received (p : SignalPayload) : p.toJson.stringify = p.received.stringify := by
  obtain ⟨asset, direction, sizePct, nonce, recipient⟩ := p
  -- `JSON.stringify` writes what is no finite number as `null`, as the read payload has it
  cases sizePct with
  | finite x => rfl
  | nan => rfl
  | infinity negative => rfl

theorem parse_sent (p : SignalPayload) :
    Json.parse (utf8Decode (utf8Encode p.toJson.stringify)) = some p.received := by
  rw [stringify_received, parse_utf8 p.received_finite]

/-- The only size that is accepted is the one that was sent. -/
theorem sizeBps_received {p : SignalPayload} {size : ℤ} (sized : sizeBps p.received = some size) :
    p.sizePct.trunc.toBigInt = some size := by
  obtain ⟨asset, direction, sizePct, nonce, recipient⟩ := p
  obtain ⟨x, stated, whole⟩ := Option.bind_eq_some_iff.mp sized
  obtain ⟨number, -⟩ := Option.filter_eq_some_iff.mp stated
  cases sizePct with
  | finite y =>
    cases number
    exact whole
  | nan => cases number
  | infinity negative => cases number

theorem entries_received (p : SignalPayload) : entries p.received =
    [.obj [(text "address", .str p.recipient), (text "allocationBps", natJson 10000)]] := rfl

end Frontend.SignalPayload

/-! ### What the engine decides -/

/-- A host without a node, which takes messages as they are. -/
def Host.unencrypted (host : Host) : Host :=
  { host with env := { host.env with
    signPort := none, fcePlaintextDecryptFallback := some (text "1") } }

theorem readSignal_decrypted {host : Host} {msg : JsString} {p : SignalPayload}
    (decrypted : decryptMessage host msg = .ok (utf8Encode p.toJson.stringify)) :
    readSignal host msg = .ok p.received := by
  rw [readSignal, decrypted]
  simp only [bind, Except.bind, safeJsonParse, p.parse_sent, Option.getD_some]
  rfl

/-- How a message is decrypted is nothing to what follows. -/
theorem executeSignal_unencrypted (host : Host) (net : NodeHost) :
    executeSignal host.unencrypted = executeSignal (host.withNode net) := rfl

/-- An only entry, which has everything, is an only instruction for the whole base. -/
theorem FanOut.alone {unit size : ℤ} {recipient : JsString} {builds : List Build}
    (fanOut : FanOut (wholeBase unit size)
      [.obj [(text "address", .str recipient), (text "allocationBps", natJson 10000)]] builds)
    (instructed : builds ≠ []) : ∃ b, builds = [b] ∧ getAddress recipient = some b.recipient ∧
      b.amountIn = wholeBase unit size := by
  have exact := fanOut.exact
  rw [List.filter_singleton] at exact
  -- the entry has an instruction, or else there is none at all
  cases kept : decide (amountFor (wholeBase unit size) (.obj [(text "address", .str recipient),
      (text "allocationBps", natJson 10000)]) ≠ 0) with
  | true =>
    rw [kept] at exact
    obtain ⟨b, rest, ⟨address, amount⟩, none, rfl⟩ := List.forall₂_cons_left_iff.mp exact
    cases none
    have allocated : allocationBps (.obj [(text "address", .str recipient),
        (text "allocationBps", natJson 10000)]) = some 10000 := everything
    refine ⟨b, rfl, address, amount.trans ?_⟩
    rw [(amountFor_whole allocated).1, wholeBase]
    ring
  | false =>
    rw [kept] at exact
    cases exact
    exact absurd rfl instructed

/-- What a signal of the page comes to, once it is accepted. -/
theorem Frontend.SignalPayload.traded {host : Host} {p : SignalPayload} {msg : JsString}
    {a : Accepted} (read : readSignal host msg = .ok p.received)
    (accepted : matchStageB host msg = .ok a) :
    ∃ b size, a.builds = [b] ∧ getAddress p.recipient = some b.recipient ∧
      p.sizePct.trunc.toBigInt = some size ∧
      b.amountIn = capOf (route host host.venue) * size / 10000 ∧
      b.Instructs host (route host host.venue) ∧
      instructionsOf a.payload = [a.payload] ∧ b.Listed host 1 a.payload := by
  obtain ⟨signal, hint, read', hinted, done⟩ := matchStageB_ok accepted
  cases read.symm.trans read'
  cases (show venueHint host p.received = .ok host.venue from rfl).symm.trans hinted
  obtain ⟨b, size, alone, address, sized, amount⟩ : ∃ b size, a.builds = [b] ∧
      getAddress p.recipient = some b.recipient ∧ p.sizePct.trunc.toBigInt = some size ∧
      b.amountIn = capOf (route host host.venue) * size / 10000 := by
    -- the base is the cap of the path, and the only entry takes all of it
    cases path : route host host.venue with
    | some venue =>
      rw [path] at done
      obtain ⟨trade⟩ := buildMockVenueStageB_ok done
      have fanOut := trade.fanOut
      rw [p.entries_received] at fanOut
      obtain ⟨b, alone, address, amount⟩ := fanOut.alone trade.instructed
      exact ⟨b, trade.size, alone, address, p.sizeBps_received trade.sized,
        amount.trans (base_floor _ _).symm⟩
    | none =>
      rw [path] at done
      obtain ⟨trade⟩ := swapStageB_ok done
      have fanOut := trade.fanOut
      rw [p.entries_received] at fanOut
      obtain ⟨b, alone, address, amount⟩ := fanOut.alone trade.instructed
      exact ⟨b, trade.size, alone, address, p.sizeBps_received trade.sized,
        amount.trans (base_floor _ _).symm⟩
  obtain ⟨instructs, -, name, paid⟩ := accepted_calls done
  rw [alone] at instructs paid
  rw [paid]
  exact ⟨b, size, alone, address, sized, amount, instructs b (List.mem_singleton_self b),
    payload_single host b name⟩

/-- A signal that the page has encrypted with the key of the node is decided, with what it leaves
in the log, as the text of its payload is where nothing is encrypted; and for one that is accepted
the handler returns one instruction, of `sizePct` ten-thousandths of the cap: a swap on the router
for the wallet, or a deposit at the venue, which names nobody. -/
theorem signal_arrives {Key Random : Type} {subtle : Subtle Key Random} {random : Random}
    {p : SignalPayload} {pubKeyB64 hex : JsString} {dec : List Byte → Option (List Byte)}
    {host : Host} {net : NodeHost} (port : host.env.signPort.isSome)
    (keys : KeyPair subtle pubKeyB64 dec) (opens : net.Opens host.nodeClient dec)
    (encrypted : encryptSignal subtle random p pubKeyB64 = .ok hex) (log : List OutcomeRecord) :
    handleMirrorMatchStageB (host.withNode net) hex log =
      handleMirrorMatchStageB host.unencrypted (bytesToHex (utf8Encode p.toJson.stringify)) log ∧
    ∀ a, matchStageB (host.withNode net) hex = .ok a →
      (∃ b size, a.builds = [b] ∧ getAddress p.recipient = some b.recipient ∧
        p.sizePct.trunc.toBigInt = some size ∧
        b.amountIn = capOf (route host host.venue) * size / 10000 ∧
        b.Instructs (host.withNode net) (route host host.venue) ∧
        instructionsOf a.payload = [a.payload] ∧ b.Listed (host.withNode net) 1 a.payload) ∧
      (handleMirrorMatchStageB (host.withNode net) hex log).1 =
        .ok ⟨some (payloadHex a.payload), 1, none⟩ := by
  obtain ⟨der, key, cipher, decoded, imported, made, rfl⟩ := encryptSignal_ok encrypted
  have decrypted : decryptMessage (host.withNode net) (bytesToHex cipher) =
      .ok (utf8Encode p.toJson.stringify) := by
    have opened := keys der key random _ cipher decoded imported made
    have enabled : (host.withNode net).env.signPort.isSome := port
    have here : (host.withNode net).decrypt cipher = .ok (utf8Encode p.toJson.stringify) :=
      NodeClient.decrypt_opens opens opened
    rw [decryptMessage, decodeHex_ok.mpr (hexToBytes_bytesToHex cipher)]
    simp only [bind, Except.bind]
    rw [if_pos enabled, here]
    rfl
  -- without a node the bytes of the message are the payload itself
  have plain : decryptMessage host.unencrypted (bytesToHex (utf8Encode p.toJson.stringify)) =
      .ok (utf8Encode p.toJson.stringify) := by
    rw [decryptMessage, decodeHex_ok.mpr (hexToBytes_bytesToHex _)]
    rfl
  have read := readSignal_decrypted decrypted
  constructor
  -- both hosts find the same signal, and what follows reads no node
  · have same : matchStageB (host.withNode net) (bytesToHex cipher) =
        matchStageB host.unencrypted (bytesToHex (utf8Encode p.toJson.stringify)) := by
      rw [matchStageB, read, matchStageB, readSignal_decrypted plain,
        executeSignal_unencrypted host net]
    rw [handleMirrorMatchStageB, handleMirrorMatchStageB, same]
  · intro a accepted
    have traded := p.traded read accepted
    exact ⟨traded, handler_accepted accepted log⟩

/-- A body that is an object has no byte order mark. -/
theorem NodeClient.bodyText_obj (ms : List (JsString × Json)) :
    NodeClient.bodyText (utf8Encode (Json.obj ms).stringify) =
      utf8Decode (utf8Encode (Json.obj ms).stringify) := by
  -- the first byte is a brace
  have brace : utf8Encode (Json.obj ms).stringify =
      0x7B :: utf8Encode (Json.stringifyMembers ms ++ [0x7D]) := by
    rw [Json.stringify, List.append_assoc]
    exact utf8Encode_unit (fun surrogate => absurd surrogate.1 (by decide)) _
  rw [brace]
  rfl

namespace Sample

/-- A cipher that turns messages round, behind a random byte. -/
def subtle : Subtle Unit Byte where
  importKey _ := some ()
  encrypt random _ m := some (random :: m.reverse)

def turnedBack (c : List Byte) : Option (List Byte) := some c.tail.reverse

/-- What a node with the key answers. -/
def decryptedMessage (c : List Byte) : Json :=
  .obj [(text "decryptedMessage", .str (base64Encode c.tail.reverse))]

def teeNode : NodeHost where
  fetch _ body :=
    match ((Json.parse body).bind fun v => (v.get (text "encryptedMessage")).bind
        Json.asString).bind base64Decode with
    | some c => .response 200 (utf8Encode (decryptedMessage c).stringify)
    | none => .response 400 []
  syntaxErrorMessage _ := []
  bufferFrom _ := .error []

theorem teeNode_opens (client : NodeClient) : teeNode.Opens client turnedBack := by
  intro body request c m parsed sent opened
  cases opened
  refine ⟨200, utf8Encode (decryptedMessage c).stringify, decryptedMessage c, ?_, le_rfl,
    by decide, ?_, rfl⟩
  · simp only [teeNode, parsed, Option.bind_some, sent, Json.asString, base64Decode_base64Encode]
  · have finite : (decryptedMessage c).IsFinite := obj_finite (.str _)
    rw [decryptedMessage, NodeClient.bodyText_obj]
    exact parse_utf8 finite

/-- A host with a node. -/
def teeHost : Host :=
  { host with env := { host.env with
    signPort := some (text "9091"), fcePlaintextDecryptFallback := none } }

def signalPayload : SignalPayload :=
  ⟨text "FXRP", .buy, .ofRat 10, text "1", text "0x00000000000000000000000000000000000000ee"⟩

end Sample

/-- Ten percent on the page is a thousandth of the cap. -/
theorem signal_arrives_purchase : ∃ hex a b,
    encryptSignal Sample.subtle 7 Sample.signalPayload (text "AA==") = .ok hex ∧
      matchStageB (Sample.teeHost.withNode Sample.teeNode) hex = .ok a ∧ a.builds = [b] ∧
      b.amountIn = notionalCapWei / 1000 ∧ b.CallsRouter (Sample.teeHost.withNode Sample.teeNode) ∧
      b.Listed (Sample.teeHost.withNode Sample.teeNode) 1 a.payload := by
  have keys : KeyPair Sample.subtle (text "AA==") Sample.turnedBack := by
    intro der key random m c decoded imported made
    cases made
    rw [Sample.turnedBack, List.tail_cons, List.reverse_reverse]
  obtain ⟨hex, encrypted⟩ : ∃ hex,
      encryptSignal Sample.subtle 7 Sample.signalPayload (text "AA==") = .ok hex := ⟨_, rfl⟩
  have arrives := signal_arrives (show Sample.teeHost.env.signPort.isSome from rfl) keys
    (Sample.teeNode_opens _) encrypted []
  have success : succeeds (handleMirrorMatchStageB Sample.teeHost.unencrypted
      (bytesToHex (utf8Encode Sample.signalPayload.toJson.stringify)) []).1 = true := by
    decide +kernel
  rw [← arrives.1] at success
  obtain ⟨a, accepted⟩ := succeeds_accepted
    (r := ⟨Sample.teeHost.withNode Sample.teeNode, hex⟩) success
  obtain ⟨⟨b, size, alone, -, sized, amount, calls, -, listed⟩, -⟩ := arrives.2 a accepted
  refine ⟨hex, a, b, encrypted, accepted, alone, ?_, calls, listed⟩
  have ten : Sample.signalPayload.sizePct.trunc.toBigInt = some 10 := by decide +kernel
  cases ten.symm.trans sized
  exact amount

end Mirror
