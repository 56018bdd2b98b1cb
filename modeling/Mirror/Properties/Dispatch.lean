import Mathlib.Data.List.DropRight
import Mirror.Refinement.HexText

/-! Handlers are found by the names that they are registered under. -/
namespace Mirror

open Evm hiding Byte
open Js

/-- The 32 bytes of a name. -/
def bytes32 (name : JsString) : List Byte := zeroPadded (utf8Encode name)

/-- A name that its 32 bytes tell: it fits, is well formed and does not end in a NUL. -/
structure Proper (name : JsString) : Prop where
  fits : Fits name
  wellFormed : WellFormed name
  ends : name.getLast? ≠ some 0

/-! ### Names and their bytes -/

theorem utf8Encode_zeros (n : ℕ) :
    utf8Encode (List.replicate n 0) = List.replicate n 0 := by
  induction n with
  | zero => rfl
  | succ n ih =>
    have single : ¬IsSurrogate 0 := fun surrogate => absurd surrogate.1 (by decide)
    rw [List.replicate_succ, utf8Encode_unit single, ih, List.replicate_succ]
    rfl

/-- Read back, the padding is a row of NULs. -/
theorem utf8Decode_bytes32 {name : JsString} (proper : Proper name) :
    utf8Decode (bytes32 name) = name ++ List.replicate (32 - (utf8Encode name).length) 0 := by
  have zeros : WellFormed (List.replicate (32 - (utf8Encode name).length) 0) :=
    wellFormed_of_ascii fun c member => by rw [List.eq_of_mem_replicate member]; decide
  rw [bytes32, zeroPadded, ← utf8Encode_zeros, ← utf8Encode_append proper.wellFormed,
    utf8Decode_utf8Encode (proper.wellFormed.append zeros)]

/-- Without the NULs at its end. -/
def withoutNuls (s : JsString) : JsString := s.rdropWhile (· = 0)

theorem withoutNuls_padded {name : JsString} (ends : name.getLast? ≠ some 0) (n : ℕ) :
    withoutNuls (name ++ List.replicate n 0) = name := by
  -- over the padding, one NUL at a time
  induction n with
  | zero =>
    rw [List.replicate_zero, List.append_nil, withoutNuls, List.rdropWhile_eq_self_iff]
    intro nonempty zero
    rw [List.getLast?_eq_getLast_of_ne_nil nonempty, of_decide_eq_true zero] at ends
    exact ends rfl
  | succ n ih =>
    rw [List.replicate_succ', ← List.append_assoc, withoutNuls,
      List.rdropWhile_concat_pos _ _ _ (by decide)]
    exact ih

theorem bytes32_inj {a b : JsString} (ha : Proper a) (hb : Proper b)
    (same : bytes32 a = bytes32 b) : a = b := by
  -- the padding goes, and nothing else does
  have texts := congrArg utf8Decode same
  rw [utf8Decode_bytes32 ha, utf8Decode_bytes32 hb] at texts
  rw [← withoutNuls_padded ha.ends, texts, withoutNuls_padded hb.ends]

/-! ### Identifiers on the wire -/

/-- The value stands for these bytes: they are what its text reads as, and those of the empty name
where there is no text. -/
inductive Identifies : Json → List Byte → Prop
  | absent {v : Json} (falsy : v.isTruthy = false) : Identifies v (bytes32 [])
  | hex {s : JsString} {id : List Byte} (some : s ≠ []) (reads : hexToBytes s = .ok id) :
    Identifies (.str s) id

theorem hexToBytes_ascii {s : JsString} {id : List Byte} (reads : hexToBytes s = .ok id) :
    ∀ c ∈ s, c.val < 0x80 := by
  intro c member
  have lowered : lowerUnit c ∈ lower s := List.mem_map_of_mem member
  have written : lowerUnit c ∈ text "0x" ++ hexDigits id := by
    rcases hexToBytes_ok.mp reads with bare | marked
    · exact List.mem_append_right _ (bare ▸ lowered)
    · exact marked ▸ lowered
  have small : (lowerUnit c).val < 0x80 := by
    rcases List.mem_append.mp written with mark | digit
    · have marks : (text "0x").all (fun c => decide (c.val < 0x80)) = true := rfl
      exact of_decide_eq_true (List.all_eq_true.mp marks _ mark)
    · obtain ⟨d, bound, same⟩ := mem_flatMap_hexByte digit
      rw [same, digitUnit_val bound]
      split <;> omega
  unfold lowerUnit at small
  split at small <;> omega

section

variable {toLowerCase : JsString → JsString}

/-- Every spelling of an identifier becomes the same text. -/
theorem normalize_identifies (ascii : ∀ s, (∀ c ∈ s, c.val < 0x80) → toLowerCase s = lower s)
    {v : Json} {id : List Byte} (identifies : Identifies v id) :
    normalize toLowerCase v = .ok (bytesToHex id) := by
  cases identifies with
  | absent falsy =>
    rw [normalize, falsy]
    rfl
  | @hex s _ nonempty reads =>
    have truthy : (Json.str s).isTruthy = true := by simpa [Json.isTruthy] using nonempty
    have lowered := ascii s (hexToBytes_ascii reads)
    have marked : ∀ digits, startsWith (text "0x" ++ digits) (text "0x") = true := fun digits =>
      List.isPrefixOf_iff_prefix.mpr (List.prefix_append _ digits)
    simp only [normalize, truthy, Json.asString, lowered, Bool.not_true, Bool.false_eq_true,
      if_false]
    -- written with the mark `0x` or without it
    rcases hexToBytes_ok.mp reads with bare | written
    · have unmarked : startsWith (hexDigits id) (text "0x") = false := by
        by_contra starts
        obtain ⟨rest, same⟩ := List.isPrefixOf_iff_prefix.mp (Bool.eq_true_of_not_eq_false starts)
        exact hexDigits_unmarked id rest same.symm
      rw [bare, unmarked]
      rfl
    · rw [written, marked]
      rfl

end

theorem bytesToHex_inj {as bs : List Byte} : bytesToHex as = bytesToHex bs ↔ as = bs := by
  rw [bytesToHex, bytesToHex, List.append_cancel_left_eq]
  exact ⟨flatMap_hexByte_inj, fun same => by rw [same]⟩

/-! ### Lookup -/

variable {α : Type}

/-- The first registration whose names have these bytes. -/
def firstUnder (names : List (JsString × JsString × α)) (t c : List Byte) :
    Option (JsString × JsString × α) :=
  names.find? fun n => bytes32 n.1 = t ∧ bytes32 n.2.1 = c

theorem first_identifiers (names : List (JsString × JsString × α)) (t c : List Byte) :
    Framework.first ⟨names.map fun n => (identifier n.1, identifier n.2.1, n.2.2)⟩
      (bytesToHex t) (bytesToHex c) = (firstUnder names t c).map (·.2.2) := by
  have each : ∀ n : JsString × JsString × α, (decide (identifier n.1 = bytesToHex t) &&
      decide (identifier n.2.1 = bytesToHex c)) = decide (bytes32 n.1 = t ∧ bytes32 n.2.1 = c) := by
    intro n
    rw [Bool.decide_and, identifier, identifier]
    simp only [bytesToHex_inj]
    rfl
  rw [Framework.first, List.find?_map, Option.map_map, firstUnder]
  congr 1
  exact congrArg (names.find? ·) (funext each)

/-- The handler for names: the first that is registered under both, or else the first that is
registered for every command of the type. -/
def dispatch (names : List (JsString × JsString × α)) (opType opCommand : JsString) : Option α :=
  ((names.find? fun n => n.1 = opType ∧ n.2.1 = opCommand).or
    (names.find? fun n => n.1 = opType ∧ n.2.1 = [])).map (·.2.2)

section

variable {names : List (JsString × JsString × α)} {f : Framework α}
  {toLowerCase : JsString → JsString} {t c : Json} {type command : List Byte}

theorem lookup_bytes (registered : Framework.handleAll ⟨[]⟩ names = some f)
    (ascii : ∀ s, (∀ c ∈ s, c.val < 0x80) → toLowerCase s = lower s) (typed : Identifies t type)
    (commanded : Identifies c command) : f.lookup toLowerCase t c =
      .ok (((firstUnder names type command).or (firstUnder names type (bytes32 []))).map
        (·.2.2)) := by
  obtain ⟨-, rfl⟩ := Framework.handleAll_some.mp registered
  refine Framework.lookup_ok.mpr ⟨_, _, normalize_identifies ascii typed,
    normalize_identifies ascii commanded, ?_⟩
  rw [List.nil_append, first_identifiers, show emptyBytes32 = bytesToHex (bytes32 []) from rfl,
    first_identifiers, Option.map_or]

/-- The bytes of names are as good as the names. -/
theorem lookup_names (registered : Framework.handleAll ⟨[]⟩ names = some f)
    (proper : ∀ n ∈ names, Proper n.1 ∧ Proper n.2.1)
    (ascii : ∀ s, (∀ c ∈ s, c.val < 0x80) → toLowerCase s = lower s) {opType opCommand : JsString}
    (properType : Proper opType) (properCommand : Proper opCommand)
    (typed : Identifies t (bytes32 opType)) (commanded : Identifies c (bytes32 opCommand)) :
    f.lookup toLowerCase t c = .ok (dispatch names opType opCommand) := by
  -- no command at all is a name like any other
  have empty : Proper [] := ⟨by decide, .nil, by decide⟩
  have named : ∀ command, Proper command →
      firstUnder names (bytes32 opType) (bytes32 command) =
        names.find? fun n => n.1 = opType ∧ n.2.1 = command := by
    intro command properCommand
    rw [firstUnder, ← List.head?_filter, ← List.head?_filter]
    refine congrArg List.head? (List.filter_congr fun n member => ?_)
    obtain ⟨nType, nCommand⟩ := proper n member
    exact decide_eq_decide.mpr (and_congr ⟨bytes32_inj nType properType, congrArg bytes32⟩
      ⟨bytes32_inj nCommand properCommand, congrArg bytes32⟩)
  rw [lookup_bytes registered ascii typed commanded, named _ properCommand, named _ empty, dispatch]

end

/-- Whatever is registered in whatever order: identifiers that stand for names, in any spelling,
find the handler of these names, and identifiers that stand for no registered name find none. -/
theorem lookup_by_name {names : List (JsString × JsString × α)} {f : Framework α}
    (registered : Framework.handleAll ⟨[]⟩ names = some f)
    (proper : ∀ n ∈ names, Proper n.1 ∧ Proper n.2.1) {toLowerCase : JsString → JsString}
    (ascii : ∀ s, (∀ c ∈ s, c.val < 0x80) → toLowerCase s = lower s) {t c : Json}
    {type : List Byte} (typed : Identifies t type) :
    (∀ opType opCommand, Proper opType → Proper opCommand → type = bytes32 opType →
      Identifies c (bytes32 opCommand) →
      f.lookup toLowerCase t c = .ok (dispatch names opType opCommand)) ∧
    ((∀ n ∈ names, bytes32 n.1 ≠ type) → ∀ command, Identifies c command →
      f.lookup toLowerCase t c = .ok none) := by
  constructor
  · rintro opType opCommand properType properCommand rfl commanded
    exact lookup_names registered proper ascii properType properCommand typed commanded
  · intro unknown command commanded
    -- neither under the command nor under every command
    have none : ∀ command, firstUnder names type command = none := by
      intro command
      refine List.find?_eq_none.mpr fun n member => ?_
      simpa using fun same => absurd same (unknown n member)
    rw [lookup_bytes registered ascii typed commanded, none, none]
    rfl

namespace Sample

/-- One handler, for every command of its type. -/
def wildcard : List (JsString × JsString × ℕ) := [(text "MIRROR", [], 7)]

/-- The identifier of the type, in capitals. -/
def capitals : JsString :=
  text "0X4D4952524F52" ++ List.replicate 52 0x30

end Sample

/-- A command that nobody registered goes to the handler for every command. -/
theorem lookup_by_name_wildcard :
    (⟨[(identifier (text "MIRROR"), identifier [], 7)]⟩ : Framework ℕ).lookup lower
      (.str Sample.capitals) (.str (identifier (text "NOPE"))) = .ok (some 7) := by
  have ascii : ∀ name ∈ [text "MIRROR", text "NOPE"], Proper name := by
    intro name member
    have units : name.all (fun c => decide (c.val < 0x80)) = true := by
      revert name
      decide
    exact ⟨by revert name; decide, wellFormed_of_all units, by revert name; decide⟩
  have registered : Framework.handleAll ⟨[]⟩ Sample.wildcard =
      some ⟨[(identifier (text "MIRROR"), identifier [], 7)]⟩ :=
    Framework.handleAll_some.mpr ⟨by decide, rfl⟩
  have proper : ∀ n ∈ Sample.wildcard, Proper n.1 ∧ Proper n.2.1 := by
    intro n member
    cases List.mem_singleton.mp member
    exact ⟨ascii _ (by decide), by decide, .nil, by decide⟩
  have typed : Identifies (.str Sample.capitals) (bytes32 (text "MIRROR")) :=
    .hex (by decide) (by decide)
  exact (lookup_by_name registered proper (fun s _ => rfl) typed).1 (text "MIRROR") (text "NOPE")
    (ascii _ (by decide)) (ascii _ (by decide)) rfl
    (.hex (identifier_ne_nil _) (hexToBytes_bytesToHex _))

end Mirror
