import Mirror.Contracts.Common

/-!
`InstructionSender`: the instructions that it sends to the extensions. Of its storage they share only
the owner with the settlement of fills.
-/
namespace Mirror

open Evm

/-- `bytes32("..")` of an ASCII literal of at most 32 characters. -/
def bytes32Literal (s : String) : Bytes32 :=
  Fin.ofNat (2 ^ 256)
    (beValue (s.toList.map (fun c => Fin.ofNat 256 c.toNat) ++ List.replicate (32 - s.length) 0))

def OP_TYPE_GREETING : Bytes32 := bytes32Literal "GREETING"

def OP_COMMAND_SAY_HELLO : Bytes32 := bytes32Literal "SAY_HELLO"

def OP_TYPE_MIRROR : Bytes32 := bytes32Literal "MIRROR"

def OP_COMMAND_MATCH_V1 : Bytes32 := bytes32Literal "MATCH_V1"

def OP_COMMAND_TOPUP_V1 : Bytes32 := bytes32Literal "TOPUP_V1"

def FIRST_PUBLIC_EXTENSION_ID : ℕ := 0x10000

structure TeeInstructionParams where
  opType : Bytes32
  opCommand : Bytes32
  message : List Byte
  cosigners : List Address
  cosignersThreshold : Uint64
  claimBackAddress : Address
  deriving DecidableEq

/-- `required` is a `require` with its reason, `registryReverted` a revert that bubbles up. -/
inductive TeeRevert
  | ownable (r : Revert)
  | teeRegistriesNotSet
  | extensionIdNotSet
  | teeRegistryAlreadySet
  | required (reason : String)
  | registryReverted
  deriving DecidableEq

/-- What the registries answer during one transaction, by their addresses. -/
structure TeeSystem where
  hasCode : Address → Bool
  nextPublicExtensionId : Address → Option ℕ
  getTeeExtensionInstructionsSender : Address → ℕ → Option Address
  getRandomTeeIds : Address → ℕ → ℕ → Option (List Address)
  sendInstructions : Address → List Address → TeeInstructionParams → Option Bytes32

/-- A call of `sendInstructions` that a registry took. -/
structure SentInstruction where
  registry : Address
  value : Uint256
  teeIds : List Address
  params : TeeInstructionParams
  instructionId : Bytes32

structure InstructionRouting where
  owner : Address
  teeExtensionRegistry : Address
  teeMachineRegistry : Address
  extensionId : ℕ
  deriving DecidableEq

inductive TeeCall
  | setTeeRegistries (extRegistry machineRegistry : Address)
  | setExtensionId
  | sendSayHello (message : List Byte)
  | sendMirrorMatchStageB (encryptedSignal : List Byte)
  | sendMirrorTopUp (topUpPayload : List Byte)
  | transferOwnership (newOwner : Address)
  | renounceOwnership

structure TeeOp where
  caller : Address
  value : Uint256
  env : TeeSystem
  call : TeeCall

namespace InstructionRouting

def deployed (initialOwner : Address) : InstructionRouting := ⟨initialOwner, 0, 0, 0⟩

def setTeeRegistries (env : TeeSystem) (caller extRegistry machineRegistry : Address)
    (i : InstructionRouting) : Except TeeRevert InstructionRouting := do
  (onlyOwner i.owner caller).mapError .ownable
  -- one of them being set is enough for a refusal
  revertIf (i.teeExtensionRegistry ≠ 0 ∨ i.teeMachineRegistry ≠ 0) .teeRegistryAlreadySet
  revertIf (extRegistry = 0) (.required "TeeExtensionRegistry cannot be zero address")
  revertIf (machineRegistry = 0) (.required "TeeMachineRegistry cannot be zero address")
  revertIf (env.hasCode extRegistry = false) (.required "TeeExtensionRegistry has no code")
  revertIf (env.hasCode machineRegistry = false) (.required "TeeMachineRegistry has no code")
  return { i with teeExtensionRegistry := extRegistry, teeMachineRegistry := machineRegistry }

def registriesSet (i : InstructionRouting) : Except TeeRevert Unit :=
  -- and here one of them missing is enough
  revertIf (i.teeExtensionRegistry = 0 ∨ i.teeMachineRegistry = 0) .teeRegistriesNotSet

/-- The loop of `setExtensionId` from `id` on, with this many rounds left. -/
def discover (this : Address) (instructionsSender : ℕ → Option Address) :
    ℕ → ℕ → Except TeeRevert ℕ
  | 0, _ => .error (.required "Extension ID not found.")
  | left + 1, id => do
    let sender ← orRevert (instructionsSender id) .registryReverted
    if sender = this then return id
    discover this instructionsSender left (id + 1)

def setExtensionId (this : Address) (env : TeeSystem) (caller : Address) (i : InstructionRouting) :
    Except TeeRevert InstructionRouting := do
  (onlyOwner i.owner caller).mapError .ownable
  i.registriesSet
  revertIf (i.extensionId ≠ 0) (.required "Extension ID already set.")
  let c ← orRevert (env.nextPublicExtensionId i.teeExtensionRegistry) .registryReverted
  -- a registry without public extensions leaves no rounds
  let extensionId ← discover this (env.getTeeExtensionInstructionsSender i.teeExtensionRegistry)
    (c - FIRST_PUBLIC_EXTENSION_ID) FIRST_PUBLIC_EXTENSION_ID
  return { i with extensionId }

def getExtensionId (i : InstructionRouting) : Except TeeRevert ℕ := do
  revertIf (i.extensionId = 0) .extensionIdNotSet
  return i.extensionId

/-- An instruction. The registry may call back, but nothing is written and nothing read after it
was called. -/
def send (opType opCommand : Bytes32) (env : TeeSystem) (caller : Address) (value : Uint256)
    (message : List Byte) (i : InstructionRouting) : Except TeeRevert SentInstruction := do
  i.registriesSet
  let extensionId ← i.getExtensionId
  let teeIds ← orRevert (env.getRandomTeeIds i.teeMachineRegistry extensionId 1) .registryReverted
  let params : TeeInstructionParams :=
    -- nobody cosigns, and the caller may claim back what it paid
    { opType, opCommand, message
      cosigners := []
      cosignersThreshold := 0
      claimBackAddress := caller }
  let instructionId ← orRevert (env.sendInstructions i.teeExtensionRegistry teeIds params)
    .registryReverted
  return { registry := i.teeExtensionRegistry, value, teeIds, params, instructionId }

def sendSayHello := send OP_TYPE_GREETING OP_COMMAND_SAY_HELLO

def sendMirrorMatchStageB := send OP_TYPE_MIRROR OP_COMMAND_MATCH_V1

def sendMirrorTopUp := send OP_TYPE_MIRROR OP_COMMAND_TOPUP_V1

/-- The storage after a call, and what it sent. -/
def call (this : Address) (i : InstructionRouting) (op : TeeOp) :
    Except TeeRevert (InstructionRouting × Option SentInstruction) :=
  match op.call with
  | .setTeeRegistries ext machine => do
    return (← i.setTeeRegistries op.env op.caller ext machine, none)
  | .setExtensionId => do return (← i.setExtensionId this op.env op.caller, none)
  | .sendSayHello message => do
    return (i, some (← i.sendSayHello op.env op.caller op.value message))
  | .sendMirrorMatchStageB encryptedSignal => do
    return (i, some (← i.sendMirrorMatchStageB op.env op.caller op.value encryptedSignal))
  | .sendMirrorTopUp topUpPayload => do
    return (i, some (← i.sendMirrorTopUp op.env op.caller op.value topUpPayload))
  | .transferOwnership newOwner => do
    let owner ← (Mirror.transferOwnership i.owner op.caller newOwner).mapError .ownable
    return ({ i with owner }, none)
  | .renounceOwnership => do
    (onlyOwner i.owner op.caller).mapError .ownable
    return ({ i with owner := 0 }, none)

/-- A call that reverts changes nothing. -/
def step (this : Address) (i : InstructionRouting) (op : TeeOp) : InstructionRouting :=
  match i.call this op with
  | .ok (i', _) => i'
  | .error _ => i

end InstructionRouting

end Mirror
