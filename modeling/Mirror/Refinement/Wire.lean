import Mirror.Js.Reading
import Mirror.Refinement.Effects
import Mirror.Refinement.FanOut
import Mirror.Refinement.HexText

/-! Actions and results on the wire. -/
namespace Mirror

open Evm hiding Byte
open Js Completion

/-! ### Actions as the node sends them -/

/-- What an instruction on the chain comes to, and the tag that the node submits it under. -/
structure Instruction where
  opType : JsString
  opCommand : JsString
  original : List Byte
  actionId : JsString
  submissionTag : JsString

/-- The value is a `DataFixed` of the instruction. What else stands there is the node's own. -/
structure Instruction.Fixes (i : Instruction) (df : Json) : Prop where
  opType : df.get (text "opType") = some (.str (identifier i.opType))
  opCommand : df.get (text "opCommand") = some (.str (identifier i.opCommand))
  originalMessage : df.get (text "originalMessage") = some (.str (bytesToHex i.original))

/-- The bytes are an `Action` of the instruction, however the node prints it. -/
structure Instruction.Carries (i : Instruction) (body : List Byte) (data df : Json) : Prop where
  action : ∃ action, Json.parse (utf8Decode body) = some action ∧
    action.get (text "data") = some data
  id : data.get (text "id") = some (.str i.actionId)
  submissionTag : data.get (text "submissionTag") = some (.str i.submissionTag)
  message : ∃ fixed, data.get (text "message") = some (.str (bytesToHex fixed)) ∧
    Json.parse (utf8Decode fixed) = some df
  fixes : i.Fixes df

/-- The fields of an action that the node fills in and no handler reads. -/
structure NodeFields where
  instructionId : Json
  teeId : Json
  timestamp : Json
  rewardEpochId : Json
  cosigners : Json
  cosignersThreshold : Json
  additionalFixedMessage : Json
  type : Json
  additionalVariableMessages : Json
  timestamps : Json
  additionalActionData : Json
  signatures : Json

section

variable (i : Instruction) (node : NodeFields)

def Instruction.dataFixed : Option Json := do
  let opType ← stringToBytes32Hex i.opType
  let opCommand ← stringToBytes32Hex i.opCommand
  return .obj [(text "instructionId", node.instructionId), (text "teeId", node.teeId),
    (text "timestamp", node.timestamp), (text "rewardEpochId", node.rewardEpochId),
    (text "opType", .str opType), (text "opCommand", .str opCommand),
    (text "cosigners", node.cosigners), (text "cosignersThreshold", node.cosignersThreshold),
    (text "originalMessage", .str (bytesToHex i.original)),
    (text "additionalFixedMessage", node.additionalFixedMessage)]

def Instruction.data (dataFixed : Json) : Json :=
  .obj [(text "id", .str i.actionId), (text "type", node.type),
    (text "submissionTag", .str i.submissionTag), (text "message", .str (payloadHex dataFixed))]

/-- `buildAction(opts)`. -/
def Instruction.buildAction : Option JsString := do
  let dataFixed ← i.dataFixed node
  return (Json.obj [(text "data", i.data node dataFixed),
    (text "additionalVariableMessages", node.additionalVariableMessages),
    (text "timestamps", node.timestamps),
    (text "additionalActionData", node.additionalActionData),
    (text "signatures", node.signatures)]).stringify

end

/-! ### Finite values -/

theorem natJson_finite {n : ℕ} (small : n ≤ 2 ^ 53) : (natJson n).IsFinite := by
  have whole : Number.ofRat ((n : ℤ) : ℚ) = .ofInt n (by rw [abs_of_nonneg] <;> omega) :=
    Number.ofRat_intCast _
  rw [Int.cast_natCast] at whole
  rw [natJson, whole]
  exact .num _

/-- An object is finite when its members are. -/
theorem obj_finite {ms : List (JsString × Json)} (each : ms.Forall fun m => m.2.IsFinite) :
    (Json.obj ms).IsFinite :=
  .obj (List.forall_iff_forall_mem.mp each)

/-- Every number that the node fills in is finite. -/
def NodeFields.IsFinite (node : NodeFields) : Prop :=
  [node.instructionId, node.teeId, node.timestamp, node.rewardEpochId, node.cosigners,
    node.cosignersThreshold, node.additionalFixedMessage, node.type,
    node.additionalVariableMessages, node.timestamps, node.additionalActionData,
    node.signatures].Forall Json.IsFinite

theorem text_ne {s : JsString} (some : s ≠ []) : (Json.str s).isTruthy = true := by
  simpa [Json.isTruthy] using some

theorem orBadRequest_ok {α : Type} {context : String} {x : Except JsString α} {a : α} :
    orBadRequest context x = .ok a ↔ x = .ok a := by
  cases x <;> simp [orBadRequest, returning]

theorem parseText_ok {host : ServerHost} {source : JsString} {v : Json} :
    parseText host source = .ok v ↔ Json.parse source = some v := by
  unfold parseText
  cases Json.parse source <;> simp

theorem readAction_ok {host : ServerHost} {body : JsString} {data df : Json} :
    readAction host body = .ok (data, df) ↔ ∃ action bytes, Json.parse body = some action ∧
      (action.get (text "data")).filter Json.isTruthy = some data ∧
      wireBytes (data.get (text "message")) = .ok bytes ∧
      Json.parse (utf8Decode bytes) = some df ∧
      (df.get (text "opType")).filter Json.isTruthy ≠ none := by
  simp only [readAction, bind_ok, orReturn_eq_ok, returnIf_eq_ok, pure_ok, orBadRequest_ok,
    parseText_ok, Prod.mk.injEq]
  constructor
  · rintro ⟨action, parsed, data', found, bytes, read, df', decoded, _, typed, rfl, rfl⟩
    exact ⟨action, bytes, parsed, found, read, decoded, typed⟩
  · rintro ⟨action, bytes, parsed, found, read, decoded, typed⟩
    exact ⟨action, parsed, data, found, bytes, read, df, decoded, (), typed, rfl, rfl⟩

theorem get_truthy {v w : Json} {key : JsString} (here : v.get key = some w) :
    v.isTruthy = true := by
  cases v with
  | obj members => rfl
  | null | bool | num | str | arr => cases here

/-- An action is read, whatever else it has. -/
theorem Instruction.Carries.read {i : Instruction} {body : List Byte} {data df : Json}
    (carries : i.Carries body data df) (host : ServerHost) :
    readAction host (utf8Decode body) = .ok (data, df) := by
  obtain ⟨action, parsed, found⟩ := carries.action
  obtain ⟨fixed, message, decoded⟩ := carries.message
  have read : wireBytes (data.get (text "message")) = .ok fixed := by
    rw [message]
    exact hexToBytes_bytesToHex fixed
  have typed : (df.get (text "opType")).filter Json.isTruthy ≠ none := by
    rw [carries.fixes.opType, Option.filter_some_pos (text_ne (identifier_ne_nil _))]
    exact Option.some_ne_none _
  refine readAction_ok.mpr ⟨action, fixed, parsed, ?_, read, decoded, typed⟩
  rw [found, Option.filter_some_pos (get_truthy carries.id)]

theorem dataFixed_fixes {i : Instruction} {node : NodeFields} (finite : node.IsFinite) {df : Json}
    (built : i.dataFixed node = some df) : df.IsFinite ∧ i.Fixes df := by
  simp only [Instruction.dataFixed, Option.bind_eq_bind, Option.bind_eq_some_iff,
    stringToBytes32Hex_some] at built
  obtain ⟨_, ⟨-, rfl⟩, _, ⟨-, rfl⟩, same⟩ := built
  cases same
  obtain ⟨instructionId, teeId, timestamp, rewardEpochId, cosigners, threshold, more, -⟩ := finite
  refine ⟨obj_finite ?_, rfl, rfl, rfl⟩
  exact ⟨instructionId, teeId, timestamp, rewardEpochId, .str _, .str _, cosigners, threshold,
    .str _, more⟩

/-- What the node builds is an action of its instruction. -/
theorem carries_buildAction {i : Instruction} {node : NodeFields} (finite : node.IsFinite)
    {body : JsString} (built : i.buildAction node = some body) :
    ∃ data df, i.Carries (utf8Encode body) data df := by
  simp only [Instruction.buildAction, Option.bind_eq_bind, Option.bind_eq_some_iff] at built
  obtain ⟨df, fixed, same⟩ := built
  cases same
  obtain ⟨whole, fixes⟩ := dataFixed_fixes finite fixed
  obtain ⟨-, -, -, -, -, -, -, type, messages, timestamps, extra, signatures⟩ := finite
  have data : (i.data node df).IsFinite := obj_finite ⟨.str _, type, .str _, .str _⟩
  have action : (Json.obj [(text "data", i.data node df),
      (text "additionalVariableMessages", node.additionalVariableMessages),
      (text "timestamps", node.timestamps),
      (text "additionalActionData", node.additionalActionData),
      (text "signatures", node.signatures)]).IsFinite :=
    obj_finite ⟨data, messages, timestamps, extra, signatures⟩
  exact ⟨i.data node df, df, ⟨_, parse_utf8 action, rfl⟩, rfl, rfl, ⟨_, rfl, parse_utf8 whole⟩,
    fixes⟩

/-! ### Payloads -/

theorem swapBuild_fee {host : Host} {pair : Pair} {base : ℤ} {reading : ℕ} {g : FollowerAlloc}
    {b : Build} (built : swapBuild host pair base reading g = .ok (some b)) :
    ∀ fee, b.fee = some fee → fee ≤ 500 := by
  simp only [swapBuild, bind_ok] at built
  obtain ⟨notional, -, built⟩ := built
  split at built
  · cases built
  · simp only [bind_ok, pure_ok, Prod.exists] at built
    obtain ⟨_, -, recipient, -, target, data, -, same⟩ := built
    cases same
    intro fee charged
    cases charged
    -- 0 on one venue, 500 on the other
    split <;> omega

theorem payload_finite {host : Host} {builds : List Build}
    (fees : ∀ b ∈ builds, ∀ fee, b.fee = some fee → fee ≤ 500) (venue : JsString) :
    (payload host builds venue).IsFinite := by
  have charged : ∀ b ∈ builds, ∀ fee, b.fee = some fee → (natJson fee).IsFinite :=
    fun b member fee same => natJson_finite ((fees b member fee same).trans (by norm_num))
  have instruction : ∀ b ∈ builds, (b.toJson host).IsFinite := by
    intro b member
    refine .obj fun m part => ?_
    simp only [List.mem_append, List.mem_cons, List.not_mem_nil, or_false, Option.mem_toList,
      Option.map_eq_some_iff] at part
    rcases part with ((rfl | rfl | rfl) | ⟨fee, same, rfl⟩) | rfl | rfl
    · exact .str _
    · exact .str _
    · exact .str _
    · exact charged b member fee same
    · exact .str _
    · exact .str _
  -- a single instruction, or the list of several
  unfold payload
  split
  next b =>
    refine obj_finite ⟨.str _, .str _, .str _, ?_⟩
    cases fee : b.fee with
    | none => exact natJson_finite (by norm_num)
    | some n => exact charged b (List.mem_singleton_self b) n fee
  next =>
    refine obj_finite ⟨.bool _, .arr fun v member => ?_, .str _⟩
    obtain ⟨b, of_b, rfl⟩ := List.mem_map.mp member
    exact instruction b of_b

/-- The payload of an accepted signal is written with finite numbers. -/
theorem matchStageB_finite {host : Host} {msg : JsString} {a : Accepted}
    (accepts : matchStageB host msg = .ok a) : a.payload.IsFinite := by
  simp only [matchStageB, executeSignal, bind_ok] at accepts
  obtain ⟨signal, -, hint, -, taken⟩ := accepts
  -- an instruction of a mock venue has no fee, one of a swap has a small one
  split at taken
  next venue _ =>
    obtain ⟨trade⟩ := buildMockVenueStageB_ok taken
    rw [trade.paid]
    refine payload_finite (fun b member fee charged => ?_) venue.name
    rw [trade.builds, List.reduceOption_mem_iff] at member
    obtain ⟨f, -, built⟩ := forall₂_exists trade.built.flip member
    obtain ⟨-, -, -, named⟩ := mockBuild_ok built
    rw [(named b rfl).2.2.2.1] at charged
    cases charged
  next =>
    obtain ⟨trade⟩ := swapStageB_ok taken
    obtain ⟨venue, paid⟩ := swapStageB_payload taken
    rw [paid]
    refine payload_finite (fun b member => ?_) venue
    rw [trade.builds, List.reduceOption_mem_iff] at member
    obtain ⟨f, -, built⟩ := forall₂_exists trade.built.flip member
    exact swapBuild_fee built

end Mirror
