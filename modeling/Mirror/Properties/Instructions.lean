import Mirror.Contracts.Instructions
import Mirror.Evm.Run
import Mirror.Properties.WireRoundTrip

/-! Instructions reach the handler that they are for, by registries and an extension that are
settled once. -/
namespace Mirror

open Evm hiding Byte
open Js

/-- What a call asks the engine for, and with which message. -/
def TeeCall.asks : TeeCall → Option (Operation × List Byte)
  | .sendSayHello message => some (.handleSayHello, message)
  | .sendMirrorMatchStageB encryptedSignal => some (.handleMirrorMatchStageB, encryptedSignal)
  | .sendMirrorTopUp topUpPayload => some (.handleMirrorTopUpV1, topUpPayload)
  | _ => none

/-- The names that an operation is registered under. -/
def Operation.names : Operation → JsString × JsString
  | handleSayHello => (text "GREETING", text "SAY_HELLO")
  | handleSayGoodbye => (text "GREETING", text "SAY_GOODBYE")
  | handleMirrorMatchStageB => (text "MIRROR", text "MATCH_V1")
  | handleMirrorTopUpV1 => (text "MIRROR", text "TOPUP_V1")

theorem dispatch_names (op : Operation) :
    dispatch registrations op.names.1 op.names.2 = some op := by
  cases op <;> decide

theorem names_proper (op : Operation) : Proper op.names.1 ∧ Proper op.names.2 := by
  have registered : ∃ n ∈ registrations, op.names = (n.1, n.2.1) := by
    cases op <;> decide
  obtain ⟨n, member, same⟩ := registered
  rw [same]
  exact registrations_proper n member

namespace InstructionRouting

variable {this : Address}

/-- The smallest public id that the registry gave to `this`. -/
structure Assigned (this : Address) (env : TeeSystem) (registry : Address) (id : ℕ) : Prop where
  published : ∃ c, env.nextPublicExtensionId registry = some c ∧ id < c
  first : FIRST_PUBLIC_EXTENSION_ID ≤ id
  own : env.getTeeExtensionInstructionsSender registry id = some this
  smallest : ∀ j, FIRST_PUBLIC_EXTENSION_ID ≤ j → j < id →
    ∃ other ≠ this, env.getTeeExtensionInstructionsSender registry j = some other

theorem discover_ok {instructionsSender : ℕ → Option Address} {left id found : ℕ} :
    discover this instructionsSender left id = .ok found ↔
      (id ≤ found ∧ found < id + left) ∧ instructionsSender found = some this ∧
        ∀ j, id ≤ j → j < found → ∃ other ≠ this, instructionsSender j = some other := by
  induction left generalizing id with
  | zero =>
    refine iff_of_false (fun h => by cases h) ?_
    rintro ⟨⟨_, _⟩, -⟩
    omega
  | succ left ih =>
    simp only [discover, bind_ok, orRevert_ok]
    constructor
    · rintro ⟨sender, here, rest⟩
      split at rest
      next own =>
        cases rest
        subst own
        exact ⟨⟨le_refl _, by omega⟩, here, fun j after before => absurd before (by omega)⟩
      next other =>
        obtain ⟨within, own, smaller⟩ := ih.mp rest
        refine ⟨by omega, own, fun j from_id before => ?_⟩
        by_cases first : j = id
        · exact ⟨sender, other, first ▸ here⟩
        · exact smaller j (by omega) before
    · rintro ⟨within, own, smaller⟩
      by_cases first : found = id
      · subst first
        exact ⟨this, own, by rw [if_pos rfl]; rfl⟩
      · obtain ⟨other, ne, here⟩ := smaller id (le_refl _) (by omega)
        refine ⟨other, here, ?_⟩
        rw [if_neg ne]
        exact ih.mpr ⟨by omega, own, fun j after before => smaller j (by omega) before⟩

/-! ### What a call does -/

theorem setTeeRegistries_ok {env : TeeSystem} {caller ext machine : Address}
    {i i' : InstructionRouting} : i.setTeeRegistries env caller ext machine = .ok i' ↔
      caller = i.owner ∧ (i.teeExtensionRegistry = 0 ∧ i.teeMachineRegistry = 0) ∧
        (ext ≠ 0 ∧ machine ≠ 0) ∧ (env.hasCode ext = true ∧ env.hasCode machine = true) ∧
        i' = { i with teeExtensionRegistry := ext, teeMachineRegistry := machine } := by
  simp only [setTeeRegistries, bind_ok, mapError_ok, onlyOwner, revertIf_ok, pure_ok, exists_const,
    not_or, not_not, Bool.not_eq_false, and_assoc, eq_comm (b := i'), ne_eq]

theorem registriesSet_ok {i : InstructionRouting} {u : Unit} : i.registriesSet = .ok u ↔
    i.teeExtensionRegistry ≠ 0 ∧ i.teeMachineRegistry ≠ 0 := by
  rw [registriesSet, revertIf_ok, not_or]

theorem setExtensionId_ok {env : TeeSystem} {caller : Address} {i i' : InstructionRouting} :
    i.setExtensionId this env caller = .ok i' ↔
      caller = i.owner ∧ (i.teeExtensionRegistry ≠ 0 ∧ i.teeMachineRegistry ≠ 0) ∧
        i.extensionId = 0 ∧ ∃ id, Assigned this env i.teeExtensionRegistry id ∧
          i' = { i with extensionId := id } := by
  simp only [setExtensionId, bind_ok, mapError_ok, onlyOwner, revertIf_ok, registriesSet_ok,
    orRevert_ok, discover_ok, pure_ok, exists_const, not_not, ne_eq, eq_comm (b := i')]
  refine and_congr_right fun _ => and_congr_right fun _ => and_congr_right fun _ => ?_
  constructor
  · rintro ⟨c, next, id, ⟨within, own, smaller⟩, rfl⟩
    exact ⟨id, ⟨⟨c, next, by omega⟩, within.1, own, smaller⟩, rfl⟩
  · rintro ⟨id, ⟨⟨c, next, below⟩, first, own, smaller⟩, rfl⟩
    exact ⟨c, next, id, ⟨by omega, own, smaller⟩, rfl⟩

theorem send_ok {opType opCommand : Bytes32} {env : TeeSystem} {caller : Address}
    {value : Uint256} {message : List Byte} {i : InstructionRouting} {sent : SentInstruction} :
    i.send opType opCommand env caller value message = .ok sent ↔
      ((i.teeExtensionRegistry ≠ 0 ∧ i.teeMachineRegistry ≠ 0) ∧ i.extensionId ≠ 0) ∧
      (env.getRandomTeeIds i.teeMachineRegistry i.extensionId 1 = some sent.teeIds ∧
      env.sendInstructions i.teeExtensionRegistry sent.teeIds sent.params =
        some sent.instructionId) ∧
      sent.registry = i.teeExtensionRegistry ∧ sent.value = value ∧
      sent.params = ⟨opType, opCommand, message, [], 0, caller⟩ := by
  simp only [send, bind_ok, registriesSet_ok, getExtensionId, revertIf_ok, orRevert_ok, pure_ok,
    exists_const, exists_and_left, ne_eq, and_assoc]
  refine and_congr_right fun _ => and_congr_right fun _ => and_congr_right fun _ => ?_
  constructor
  · rintro ⟨_, rfl, teeIds, drawn, instructionId, taken, rfl⟩
    exact ⟨drawn, taken, rfl, rfl, rfl⟩
  · rintro ⟨drawn, taken, registry, paid, params⟩
    refine ⟨_, rfl, sent.teeIds, drawn, sent.instructionId, params ▸ taken, ?_⟩
    rw [← registry, ← paid, ← params]

/-- What a call that succeeds does. -/
inductive Routes (this : Address) (op : TeeOp) (i : InstructionRouting) :
    InstructionRouting → Option SentInstruction → Prop
  | registries {ext machine : Address} (owner : op.caller = i.owner)
    (unset : i.teeExtensionRegistry = 0 ∧ i.teeMachineRegistry = 0)
    (set : ext ≠ 0 ∧ machine ≠ 0) (called : op.call = .setTeeRegistries ext machine) :
    Routes this op i { i with teeExtensionRegistry := ext, teeMachineRegistry := machine } none
  | extension {id : ℕ} (owner : op.caller = i.owner)
    (set : i.teeExtensionRegistry ≠ 0 ∧ i.teeMachineRegistry ≠ 0) (unset : i.extensionId = 0)
    (assigned : Assigned this op.env i.teeExtensionRegistry id)
    (called : op.call = .setExtensionId) :
    Routes this op i { i with extensionId := id } none
  | instruction {handler : Operation} {message : List Byte} {sent : SentInstruction}
    (asks : op.call.asks = some (handler, message))
    (set : (i.teeExtensionRegistry ≠ 0 ∧ i.teeMachineRegistry ≠ 0) ∧ i.extensionId ≠ 0)
    (drawn : op.env.getRandomTeeIds i.teeMachineRegistry i.extensionId 1 = some sent.teeIds)
    (registry : sent.registry = i.teeExtensionRegistry) (value : sent.value = op.value)
    (message : sent.params.message = message) (back : sent.params.claimBackAddress = op.caller)
    (type : beBytes 32 sent.params.opType.val = bytes32 handler.names.1)
    (command : beBytes 32 sent.params.opCommand.val = bytes32 handler.names.2) :
    Routes this op i i (some sent)
  | ownership {owner : Address} : Routes this op i { i with owner } none

theorem greeting_bytes : beBytes 32 OP_TYPE_GREETING.val = bytes32 (text "GREETING") ∧
    beBytes 32 OP_COMMAND_SAY_HELLO.val = bytes32 (text "SAY_HELLO") := by
  decide +kernel

theorem mirror_bytes : beBytes 32 OP_TYPE_MIRROR.val = bytes32 (text "MIRROR") ∧
    beBytes 32 OP_COMMAND_MATCH_V1.val = bytes32 (text "MATCH_V1") ∧
    beBytes 32 OP_COMMAND_TOPUP_V1.val = bytes32 (text "TOPUP_V1") := by
  decide +kernel

theorem routes_of_call {i i' : InstructionRouting} {op : TeeOp} {sent : Option SentInstruction}
    (h : i.call this op = .ok (i', sent)) : Routes this op i i' sent := by
  unfold call at h
  split at h
  next ext machine called =>
    simp only [bind_ok, pure_ok, Prod.mk.injEq, setTeeRegistries_ok] at h
    obtain ⟨_, ⟨owner, unset, set, -, rfl⟩, rfl, rfl⟩ := h
    exact .registries owner unset set called
  next called =>
    simp only [bind_ok, pure_ok, Prod.mk.injEq, setExtensionId_ok] at h
    obtain ⟨_, ⟨owner, set, unset, id, assigned, rfl⟩, rfl, rfl⟩ := h
    exact .extension owner set unset assigned called
  next message called =>
    simp only [bind_ok, pure_ok, Prod.mk.injEq, sendSayHello, send_ok] at h
    obtain ⟨s, ⟨set, ⟨drawn, -⟩, registry, value, params⟩, rfl, rfl⟩ := h
    exact .instruction (by rw [called, TeeCall.asks]) set drawn registry value (by rw [params])
      (by rw [params]) (by rw [params]; exact greeting_bytes.1)
      (by rw [params]; exact greeting_bytes.2)
  next encryptedSignal called =>
    simp only [bind_ok, pure_ok, Prod.mk.injEq, sendMirrorMatchStageB, send_ok] at h
    obtain ⟨s, ⟨set, ⟨drawn, -⟩, registry, value, params⟩, rfl, rfl⟩ := h
    exact .instruction (by rw [called, TeeCall.asks]) set drawn registry value (by rw [params])
      (by rw [params]) (by rw [params]; exact mirror_bytes.1)
      (by rw [params]; exact mirror_bytes.2.1)
  next topUpPayload called =>
    simp only [bind_ok, pure_ok, Prod.mk.injEq, sendMirrorTopUp, send_ok] at h
    obtain ⟨s, ⟨set, ⟨drawn, -⟩, registry, value, params⟩, rfl, rfl⟩ := h
    exact .instruction (by rw [called, TeeCall.asks]) set drawn registry value (by rw [params])
      (by rw [params]) (by rw [params]; exact mirror_bytes.1)
      (by rw [params]; exact mirror_bytes.2.2)
  next newOwner called =>
    simp only [bind_ok, pure_ok, Prod.mk.injEq] at h
    obtain ⟨owner, -, rfl, rfl⟩ := h
    exact .ownership
  next called =>
    simp only [bind_ok, pure_ok, Prod.mk.injEq] at h
    obtain ⟨-, -, rfl, rfl⟩ := h
    exact .ownership

/-! ### Runs -/

/-- In the run a call of the owner of that moment was as `did` says. -/
def OwnerDid (this initialOwner : Address) (ops : List TeeOp) (did : TeeOp → Prop) : Prop :=
  ∃ before op after, ops = before ++ op :: after ∧
    op.caller = (Evm.run (step this) (deployed initialOwner) before).owner ∧ did op

/-- Where the registries and the id come from. -/
structure Settled (this initialOwner : Address) (ops : List TeeOp) (i : InstructionRouting) :
    Prop where
  registries : i.teeExtensionRegistry = 0 ∧ i.teeMachineRegistry = 0 ∨
    OwnerDid this initialOwner ops fun op =>
      op.call = .setTeeRegistries i.teeExtensionRegistry i.teeMachineRegistry
  extension : i.extensionId = 0 ∨
    (i.teeExtensionRegistry ≠ 0 ∧ i.teeMachineRegistry ≠ 0) ∧
    OwnerDid this initialOwner ops fun op =>
      op.call = .setExtensionId ∧ Assigned this op.env i.teeExtensionRegistry i.extensionId

theorem OwnerDid.mono {initialOwner : Address} {ops : List TeeOp} {did : TeeOp → Prop}
    (h : OwnerDid this initialOwner ops did) (op : TeeOp) :
    OwnerDid this initialOwner (ops ++ [op]) did := by
  obtain ⟨before, o, after, rfl, owner, here⟩ := h
  exact ⟨before, o, after ++ [op], by simp, owner, here⟩

theorem settled (this initialOwner : Address) (ops : List TeeOp) :
    Settled this initialOwner ops (Evm.run (step this) (deployed initialOwner) ops) := by
  induction ops using List.reverseRecOn with
  | nil => exact ⟨.inl ⟨rfl, rfl⟩, .inl rfl⟩
  | append_singleton ops op ih =>
    rw [Evm.run_append, Evm.run_cons, Evm.run_nil]
    have registries := ih.registries.imp_right fun did => did.mono op
    have extension := ih.extension.imp_right fun both => And.imp_right (fun did => did.mono op) both
    rw [step]
    split
    next i' sent taken =>
      cases routes_of_call taken with
      | registries owner unset set called =>
        refine ⟨.inr ⟨ops, op, [], rfl, owner, called⟩, extension.imp_right fun both => ?_⟩
        -- an id is set after the registries only
        exact absurd unset.1 both.1.1
      | extension owner set unset assigned called =>
        exact ⟨registries, .inr ⟨set, ops, op, [], rfl, owner, called, assigned⟩⟩
      | instruction => exact ⟨registries, extension⟩
      | ownership => exact ⟨registries, extension⟩
    next => exact ⟨registries, extension⟩

/-- Where instructions are sent. -/
def target (i : InstructionRouting) : Address × Address × ℕ :=
  (i.teeExtensionRegistry, i.teeMachineRegistry, i.extensionId)

theorem target_kept {i : InstructionRouting}
    (set : (i.teeExtensionRegistry ≠ 0 ∧ i.teeMachineRegistry ≠ 0) ∧ i.extensionId ≠ 0)
    (ops : List TeeOp) : (Evm.run (step this) i ops).target = i.target := by
  suffices kept : ∀ (i' : InstructionRouting) (op : TeeOp), i'.target = i.target →
      (step this i' op).target = i.target from Evm.run_keeps kept i rfl ops
  intro i' op same
  have here : i'.teeExtensionRegistry = i.teeExtensionRegistry ∧
      i'.teeMachineRegistry = i.teeMachineRegistry ∧ i'.extensionId = i.extensionId := by
    simpa [target] using same
  rw [step]
  split
  next next sent taken =>
    cases routes_of_call taken with
    | registries owner unset => exact absurd (here.1.symm.trans unset.1) set.1.1
    | extension owner registries unset => exact absurd (here.2.2.symm.trans unset) set.2
    | instruction => exact same
    | ownership => exact same
  next => exact same

/-- Whatever anyone calls before and after: an instruction that is sent carries its message as it
was submitted, under names for which the engine has just the handler that the call is for, however
the node spells them. It goes to the registry that an owner set, for the smallest public id that
this registry gave to the contract, and so do all later ones. -/
theorem instructions_arrive (this initialOwner : Address) (before : List TeeOp) (op : TeeOp)
    (after : List TeeOp) {i' : InstructionRouting} {sent : SentInstruction}
    (called : (Evm.run (step this) (deployed initialOwner) before).call this op =
      .ok (i', some sent))
    {toLowerCase : JsString → JsString}
    (ascii : ∀ s, (∀ c ∈ s, c.val < 0x80) → toLowerCase s = lower s) :
    let i := Evm.run (step this) (deployed initialOwner) before
    i' = i ∧ sent.registry = i.teeExtensionRegistry ∧ sent.value = op.value ∧
    sent.params.claimBackAddress = op.caller ∧
    op.env.getRandomTeeIds i.teeMachineRegistry i.extensionId 1 = some sent.teeIds ∧
    (∃ handler, op.call.asks = some (handler, sent.params.message) ∧
      ∀ t c, Identifies t (beBytes 32 sent.params.opType.val) →
        Identifies c (beBytes 32 sent.params.opCommand.val) →
        engineFramework.lookup toLowerCase t c = .ok (some handler)) ∧
    OwnerDid this initialOwner before (fun o =>
      o.call = .setTeeRegistries i.teeExtensionRegistry i.teeMachineRegistry) ∧
    OwnerDid this initialOwner before (fun o =>
      o.call = .setExtensionId ∧ Assigned this o.env i.teeExtensionRegistry i.extensionId) ∧
    (Evm.run (step this) (deployed initialOwner) (before ++ op :: after)).target = i.target := by
  intro i
  have history := settled this initialOwner before
  cases routes_of_call called with
  | @instruction handler message _ asks set drawn registry value message back type command =>
    refine ⟨rfl, registry, value, back, drawn, ⟨handler, ?_, fun t c typed commanded => ?_⟩,
      history.registries.resolve_left fun unset => set.1.1 unset.1,
      (history.extension.resolve_left set.2).2, ?_⟩
    · rw [asks, message]
    · rw [lookup_names registered registrations_proper ascii (names_proper handler).1
        (names_proper handler).2 (type ▸ typed) (command ▸ commanded), dispatch_names]
    · rw [Evm.run_append]
      exact target_kept set (op :: after)

end InstructionRouting

namespace Sample

/-- Registries that gave one public id, to the contract at 5. -/
def teeSystem : TeeSystem where
  hasCode _ := true
  nextPublicExtensionId _ := some (FIRST_PUBLIC_EXTENSION_ID + 1)
  getTeeExtensionInstructionsSender _ _ := some 5
  getRandomTeeIds _ _ _ := some [14]
  sendInstructions _ _ _ := some 1

def teeOp (caller : Address) (call : TeeCall) : TeeOp := ⟨caller, 0, teeSystem, call⟩

/-- What alice sends: a signal, which the contract takes as bytes. -/
def sentSignal : List Byte := utf8Encode (text ("\x7b\"asset\":\"FXRP\"," ++
  "\"direction\":\"BUY\",\"sizePct\":100\x7d"))

/-- The owner sets the registries and the id. -/
def routing : List TeeOp :=
  [teeOp owner (.setTeeRegistries 15 16), teeOp owner .setExtensionId]

end Sample

/-- A signal of alice reaches the handler of signals. -/
theorem instructions_arrive_signal :
    ∃ handler, (TeeCall.sendMirrorMatchStageB Sample.sentSignal).asks =
        some (handler, Sample.sentSignal) ∧
      ∀ t c, Identifies t (beBytes 32 OP_TYPE_MIRROR.val) →
        Identifies c (beBytes 32 OP_COMMAND_MATCH_V1.val) →
        engineFramework.lookup lower t c = .ok (some handler) := by
  have called : (Evm.run (InstructionRouting.step 5) (InstructionRouting.deployed Sample.owner)
      Sample.routing).call 5
        (Sample.teeOp Sample.alice (.sendMirrorMatchStageB Sample.sentSignal)) =
      .ok (⟨Sample.owner, 15, 16, FIRST_PUBLIC_EXTENSION_ID⟩, some ⟨15, 0, [14],
        ⟨OP_TYPE_MIRROR, OP_COMMAND_MATCH_V1, Sample.sentSignal, [], 0, Sample.alice⟩, 1⟩) := rfl
  obtain ⟨-, -, -, -, -, arrives, -⟩ := InstructionRouting.instructions_arrive 5 Sample.owner
    Sample.routing (Sample.teeOp Sample.alice (.sendMirrorMatchStageB Sample.sentSignal)) [] called
    (fun s _ => rfl)
  exact arrives

end Mirror
