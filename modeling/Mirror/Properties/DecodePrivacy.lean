import Mirror.TypesServer.Decode

/-!
What the types server shows of an encrypted message. Two requests that differ in it only are
answered alike, as long as it has the same length and the same first eight bytes.
-/
namespace Mirror.TypesServer

open Js

/-! ### One request -/

/-- The request carries this `DataFixed`, as hex of its JSON text. -/
def Carries (payload df : Json) : Prop :=
  ∃ actionMessageHex, actionMessage payload = some (.str actionMessageHex) ∧
    startsWith actionMessageHex (text "0x") = true ∧
    decodeDataFixedFromActionMessage actionMessageHex = .ok df

/-- The operation is the greeting, whose message is read. -/
def Greets (df : Json) : Prop :=
  bytes32Field df (text "opType") = .ok (some (text "GREETING")) ∧
    bytes32Field df (text "opCommand") = .ok (some (text "SAY_HELLO"))

/-- The original message is `0x` and these hexadecimal digits. -/
structure Encrypts (df : Json) (digits : JsString) : Prop where
  message : df.get (text "originalMessage") = some (.str (text "0x" ++ digits))
  hex : digits.all (isDigit 16) = true

theorem decodeShape_carried {payload df : Json} (carries : Carries payload df) :
    decodeShape payload = shapeOf df := by
  obtain ⟨hex, found, written, decoded⟩ := carries
  simp only [decodeShape, found, Option.bind_some, Json.asString, if_pos written, decoded]
  rfl

theorem bufferFromHex_length {digits : JsString} (hex : digits.all (isDigit 16) = true) :
    (bufferFromHex digits).length = digits.length / 2 := by
  fun_induction bufferFromHex digits with
  | case1 hi lo rest digit ih =>
    simp only [List.all_cons, Bool.and_eq_true] at hex
    simp only [List.length_cons, ih hex.2.2]
    omega
  -- decoding stops at what is no digit, and here everything is one
  | case2 hi lo rest other =>
    simp only [List.all_cons, Bool.and_eq_true] at hex other
    exact absurd ⟨hex.1, hex.2.1⟩ other
  | case3 digits short =>
    have few : digits.length < 2 := by
      match digits, short with
      | [], _ | [_], _ => simp
      | hi :: lo :: rest, short => exact (short hi lo rest rfl).elim
    rw [Nat.div_eq_of_lt few, List.length_nil]

/-- Of hexadecimal digits the server reports how many bytes they are. -/
theorem messageBytes_hex {digits : JsString} (hex : digits.all (isDigit 16) = true) :
    messageBytes (.str (text "0x" ++ digits)) =
      if digits.length % 2 ≠ 0 then .error (.error (text "hex must have even length"))
      else .ok (digits.length / 2) := by
  have marked : startsWith (text "0x" ++ digits) (text "0x") = true :=
    List.isPrefixOf_iff_prefix.mpr (List.prefix_append _ _)
  have bare : (text "0x" ++ digits).drop 2 = digits := rfl
  simp only [messageBytes, Json.asString, hexToBytes, if_pos marked, bare]
  split
  · rfl
  · simp only [Except.map, bufferFromHex_length hex]

/-! ### Two requests -/

/-- Everything but the original message is the same. -/
def SameOperation (df df' : Json) : Prop :=
  ∀ key, key ≠ text "originalMessage" → df.get key = df'.get key

theorem SameOperation.bytes32Field {df df' : Json} (same : SameOperation df df') {key : JsString}
    (other : key ≠ text "originalMessage") :
    TypesServer.bytes32Field df key = TypesServer.bytes32Field df' key := by
  simp only [TypesServer.bytes32Field, same key other]

theorem Encrypts.original {df : Json} {digits : JsString} (encrypts : Encrypts df digits) :
    originalMessageHex df = .str (text "0x" ++ digits) := by
  simp only [originalMessageHex, defined, encrypts.message]
  rfl

/-- The shape of an operation other than the greeting is made of its other fields, the length of the
message and its first units. -/
theorem shapeOf_alike {df df' : Json} {digits digits' : JsString} (same : SameOperation df df')
    (encrypts : Encrypts df digits) (encrypts' : Encrypts df' digits')
    (lengths : digits.length = digits'.length)
    (heads : (text "0x" ++ digits).take 18 = (text "0x" ++ digits').take 18)
    (secret : ¬Greets df) : shapeOf df = shapeOf df' := by
  have opType := same.bytes32Field (show text "opType" ≠ text "originalMessage" by decide)
  have opCommand := same.bytes32Field (show text "opCommand" ≠ text "originalMessage" by decide)
  have instructionId := same (text "instructionId") (by decide)
  have teeId := same (text "teeId") (by decide)
  have timestamp := same (text "timestamp") (by decide)
  have rewardEpochId := same (text "rewardEpochId") (by decide)
  -- of the message the shape has its length and its first units
  have bytes : messageBytes (originalMessageHex df) = messageBytes (originalMessageHex df') := by
    rw [encrypts.original, encrypts'.original, messageBytes_hex encrypts.hex,
      messageBytes_hex encrypts'.hex, lengths]
  have shown : (originalMessageHex df).asString.map (fun hex => hex.take 18) =
      (originalMessageHex df').asString.map fun hex => hex.take 18 := by
    rw [encrypts.original, encrypts'.original]
    exact congrArg some heads
  unfold Greets at secret
  simp only [shapeOf, ← opType, ← opCommand, ← bytes, shown, instructionId, teeId, timestamp,
    rewardEpochId]
  -- the greeting alone has its message decoded
  cases type : bytes32Field df (text "opType") with
  | error e => rfl
  | ok opType =>
    cases command : bytes32Field df (text "opCommand") with
    | error e => rfl
    | ok opCommand =>
      have other : ¬(opType = some (text "GREETING") ∧ opCommand = some (text "SAY_HELLO")) := by
        rintro ⟨rfl, rfl⟩
        exact secret ⟨type, command⟩
      simp only [bind, Except.bind, if_neg other]

/-- Two requests whose operations differ in an encrypted message only, of one length and with the
same first 18 units, are answered alike, be it with a shape or with an error. -/
theorem payload_not_shown (payload payload' df df' : Json) (digits digits' : JsString)
    (carries : Carries payload df) (carries' : Carries payload' df')
    (same : SameOperation df df') (encrypts : Encrypts df digits) (encrypts' : Encrypts df' digits')
    (lengths : digits.length = digits'.length)
    (heads : (text "0x" ++ digits).take 18 = (text "0x" ++ digits').take 18)
    (secret : ¬Greets df) : decodeShape payload = decodeShape payload' := by
  rw [decodeShape_carried carries, decodeShape_carried carries']
  exact shapeOf_alike same encrypts encrypts' lengths heads secret

namespace Sample

/-- An operation `MIRROR` whose message ends with this byte. -/
def mirror (last : JsString) : Json :=
  .obj [(text "originalMessage", .str (text "0x0011223344556677" ++ last)),
    (text "opType", .str (text "0x4d4952524f52"))]

/-- Its JSON text in hex. -/
def mirrorHex (last : JsString) : JsString :=
  text "0x7b226f726967696e616c4d657373616765223a22307830303131323233333434353536363737" ++
    last.flatMap (fun c => hexByte (Fin.ofNat _ c.val)) ++
    text "222c226f7054797065223a223078346434393532353234663532227d"

def request (last : JsString) : Json :=
  .obj [(text "data", .obj [(text "message", .str (mirrorHex last))])]

/-- The keys and strings of an object of two strings. -/
def twoStrings : Json → Option (JsString × JsString × JsString × JsString)
  | .obj [(k, .str a), (l, .str b)] => some (k, a, l, b)
  | _ => none

theorem twoStrings_some {v : Json} {k a l b : JsString} (h : twoStrings v = some (k, a, l, b)) :
    v = .obj [(k, .str a), (l, .str b)] := by
  unfold twoStrings at h
  split at h
  · cases h
    rfl
  · cases h

theorem request_carries {last : JsString}
    (read : (decodeDataFixedFromActionMessage (mirrorHex last)).toOption.bind twoStrings =
      some (text "originalMessage", text "0x0011223344556677" ++ last, text "opType",
        text "0x4d4952524f52")) : Carries (request last) (mirror last) := by
  refine ⟨mirrorHex last, rfl, rfl, ?_⟩
  cases decoded : decodeDataFixedFromActionMessage (mirrorHex last) with
  | error e =>
    rw [decoded] at read
    cases read
  | ok df =>
    rw [decoded] at read
    exact congrArg _ (twoStrings_some read)

theorem mirror_same (last last' : JsString) : SameOperation (mirror last) (mirror last') := by
  intro key other
  simp only [mirror, Json.get_cons_ne other]

end Sample

theorem payload_not_shown_mirror :
    decodeShape (Sample.request (text "aa")) = decodeShape (Sample.request (text "bb")) := by
  refine payload_not_shown _ _ (Sample.mirror (text "aa")) (Sample.mirror (text "bb"))
    (text "0011223344556677aa") (text "0011223344556677bb")
    (Sample.request_carries (by decide +kernel)) (Sample.request_carries (by decide +kernel))
    (Sample.mirror_same _ _) ⟨rfl, by decide +kernel⟩ ⟨rfl, by decide +kernel⟩
    (by decide +kernel) (by decide +kernel) ?_
  rintro ⟨-, greeting⟩
  revert greeting
  decide +kernel

end Mirror.TypesServer
