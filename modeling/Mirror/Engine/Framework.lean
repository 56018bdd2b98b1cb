import Mirror.Engine.Encoding

/-! The registry of handlers, by operation type and command. -/
namespace Mirror

open Evm hiding Byte
open Js

/-- Zero padding on the right, up to 32 bytes. -/
def zeroPadded (bytes : List Byte) : List Byte := bytes ++ List.replicate (32 - bytes.length) 0

/-- `stringToBytes32Hex(s)`, which throws where this is `none`. -/
def stringToBytes32Hex (s : JsString) : Option JsString :=
  let encoded := utf8Encode s
  if 32 < encoded.length then none else some (bytesToHex (zeroPadded encoded))

/-- `EMPTY_BYTES32`. -/
def emptyBytes32 : JsString := bytesToHex (zeroPadded (utf8Encode []))

/-- Maps pairs of identifiers in hex to handlers, in the order of their registration. -/
structure Framework (α : Type) where
  handlers : List (JsString × JsString × α)

/-- `normalize(h)`, which throws at what is neither falsy nor a string. -/
def normalize (toLowerCase : JsString → JsString) (h : Json) : Except Thrown JsString :=
  if !h.isTruthy then .ok emptyBytes32
  else
    match h.asString with
    | some s =>
      let lower := toLowerCase s
      .ok (if startsWith lower (text "0x") then lower else text "0x" ++ lower)
    | none => .error .typeError

namespace Framework

variable {α : Type}

def handle (f : Framework α) (opType opCommand : JsString) (handler : α) :
    Option (Framework α) := do
  let t ← stringToBytes32Hex opType
  let c ← stringToBytes32Hex opCommand
  -- an earlier registration under the same names is found first
  return ⟨f.handlers ++ [(t, c, handler)]⟩

/-- One call of `handle` after the other. -/
def handleAll (f : Framework α) (names : List (JsString × JsString × α)) : Option (Framework α) :=
  names.foldlM (fun f n => f.handle n.1 n.2.1 n.2.2) f

/-- The first handler that is registered under both. -/
def first (f : Framework α) (t c : JsString) : Option α :=
  (f.handlers.find? fun r => r.1 = t && r.2.1 = c).map (·.2.2)

/-- Exact match first, then the wildcard. -/
def lookup (f : Framework α) (toLowerCase : JsString → JsString) (opType opCommand : Json) :
    Except Thrown (Option α) := do
  let t ← normalize toLowerCase opType
  let c ← normalize toLowerCase opCommand
  -- the empty command stands for every command of the type
  return (f.first t c).or (f.first t emptyBytes32)

end Framework

/-! ### What is registered -/

/-- The identifier of a name. -/
def identifier (name : JsString) : JsString := bytesToHex (zeroPadded (utf8Encode name))

theorem identifier_ne_nil (name : JsString) : identifier name ≠ [] := List.cons_ne_nil _ _

/-- A name whose identifier has room for it. -/
def Fits (name : JsString) : Prop := (utf8Encode name).length ≤ 32

instance (name : JsString) : Decidable (Fits name) := inferInstanceAs (Decidable (_ ≤ _))

theorem stringToBytes32Hex_some {s hex : JsString} :
    stringToBytes32Hex s = some hex ↔ Fits s ∧ hex = identifier s := by
  simp only [stringToBytes32Hex, Fits, identifier]
  split
  next long => exact iff_of_false (by simp) fun ⟨short, _⟩ => absurd short (by omega)
  next short => exact ⟨fun h => ⟨by omega, (Option.some.inj h).symm⟩, fun h => by rw [h.2]⟩

namespace Framework

variable {α : Type}

theorem handle_some {f g : Framework α} {opType opCommand : JsString} {handler : α} :
    f.handle opType opCommand handler = some g ↔ Fits opType ∧ Fits opCommand ∧
      g = ⟨f.handlers ++ [(identifier opType, identifier opCommand, handler)]⟩ := by
  simp only [handle, Option.bind_eq_bind, Option.bind_eq_some_iff, stringToBytes32Hex_some]
  constructor
  · rintro ⟨t, ⟨typeFits, rfl⟩, c, ⟨commandFits, rfl⟩, same⟩
    exact ⟨typeFits, commandFits, (Option.some.inj same).symm⟩
  · rintro ⟨typeFits, commandFits, rfl⟩
    exact ⟨_, ⟨typeFits, rfl⟩, _, ⟨commandFits, rfl⟩, rfl⟩

/-- What is registered under names stands under their identifiers, in the same order. -/
theorem handleAll_some {f g : Framework α} {names : List (JsString × JsString × α)} :
    f.handleAll names = some g ↔ (∀ n ∈ names, Fits n.1 ∧ Fits n.2.1) ∧
      g = ⟨f.handlers ++ names.map fun n => (identifier n.1, identifier n.2.1, n.2.2)⟩ := by
  -- over the registrations, from whatever is registered already
  induction names generalizing f with
  | nil => simp [handleAll, eq_comm]
  | cons n names ih =>
    rw [handleAll, List.foldlM_cons, Option.bind_eq_bind, Option.bind_eq_some_iff]
    constructor
    · rintro ⟨f', one, rest⟩
      obtain ⟨typeFits, commandFits, rfl⟩ := handle_some.mp one
      obtain ⟨fits, rfl⟩ := ih.mp rest
      exact ⟨List.forall_mem_cons.mpr ⟨⟨typeFits, commandFits⟩, fits⟩, by simp⟩
    · rintro ⟨fits, rfl⟩
      obtain ⟨⟨typeFits, commandFits⟩, fits⟩ := List.forall_mem_cons.mp fits
      exact ⟨_, handle_some.mpr ⟨typeFits, commandFits, rfl⟩, ih.mpr ⟨fits, by simp⟩⟩

theorem lookup_ok {f : Framework α} {toLowerCase : JsString → JsString} {opType opCommand : Json}
    {found : Option α} : f.lookup toLowerCase opType opCommand = .ok found ↔
      ∃ t c, normalize toLowerCase opType = .ok t ∧ normalize toLowerCase opCommand = .ok c ∧
        found = (f.first t c).or (f.first t emptyBytes32) := by
  unfold lookup
  cases normalize toLowerCase opType with
  | error e => exact iff_of_false (fun h => nomatch h) (fun ⟨t, c, h, _⟩ => nomatch h)
  | ok t =>
    cases normalize toLowerCase opCommand with
    | error e => exact iff_of_false (fun h => nomatch h) (fun ⟨t, c, _, h, _⟩ => nomatch h)
    | ok c =>
      constructor
      · intro h
        exact ⟨t, c, rfl, rfl, (Except.ok.inj h).symm⟩
      · rintro ⟨t', c', sameType, sameCommand, rfl⟩
        cases sameType
        cases sameCommand
        rfl

end Framework

end Mirror
