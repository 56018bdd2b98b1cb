import Mathlib.Tactic.Common
import Mirror.Evm.Arithmetic

/-! The strings of ECMAScript, their UTF-8 encoding and the byte strings of hexadecimal text. -/
namespace Js

abbrev Byte := Fin 256

abbrev CodeUnit := Fin 65536

/-- A string is its UTF-16 code units. -/
abbrev JsString := List CodeUnit

/-- The code units of a code point. -/
def utf16 (point : ℕ) : JsString :=
  if point < 0x10000 then [Fin.ofNat _ point]
  else
    [Fin.ofNat _ (0xD800 + (point - 0x10000) / 0x400),
      Fin.ofNat _ (0xDC00 + (point - 0x10000) % 0x400)]

/-- A string literal. -/
def text (s : String) : JsString := s.toList.flatMap fun c => utf16 c.toNat

/-- `s.startsWith(search)`. -/
def startsWith (s search : JsString) : Bool := search.isPrefixOf s

/-- `s.includes(search)`. -/
def includes (s search : JsString) : Bool := s.tails.any fun rest => startsWith rest search

/-! ### UTF-8 -/

/-- U+FFFD stands for what is not well formed. -/
def replacement : ℕ := 0xFFFD

/-- A character of which `missing` bytes are to come, the next of them between `lower` and
`upper`. -/
structure Partial where
  point : ℕ
  missing : ℕ
  lower : ℕ
  upper : ℕ

/-- The first byte of a character completes it, begins it or is malformed. -/
def leadByte (b : ℕ) : ℕ ⊕ Partial :=
  if b < 0x80 then .inl b
  else if b < 0xC2 then .inl replacement
  else if b < 0xE0 then .inr ⟨b - 0xC0, 0, 0x80, 0xBF⟩
  else if b < 0xF0 then
    .inr ⟨b - 0xE0, 1, if b = 0xE0 then 0xA0 else 0x80, if b = 0xED then 0x9F else 0xBF⟩
  else if b < 0xF5 then
    .inr ⟨b - 0xF0, 2, if b = 0xF0 then 0x90 else 0x80, if b = 0xF4 then 0x8F else 0xBF⟩
  else .inl replacement

/-- The code points of a byte string. A character cut short is replaced, and the byte that cuts
it short is read again. -/
def codePoints : Option Partial → List Byte → List ℕ
  | none, [] => []
  | some _, [] => [replacement]
  | none, b :: rest =>
    match leadByte b with
    | .inl point => point :: codePoints none rest
    | .inr begun => codePoints (some begun) rest
  | some begun, b :: rest =>
    if begun.lower ≤ b.val ∧ b.val ≤ begun.upper then
      let point := begun.point * 0x40 + (b.val - 0x80)
      match begun.missing with
      | 0 => point :: codePoints none rest
      | missing + 1 => codePoints (some ⟨point, missing, 0x80, 0xBF⟩) rest
    else
      match leadByte b with
      | .inl point => replacement :: point :: codePoints none rest
      | .inr again => replacement :: codePoints (some again) rest

/-- `Buffer.from(bytes).toString("utf-8")`. -/
def utf8Decode (bytes : List Byte) : JsString := (codePoints none bytes).flatMap utf16

def encodePoint (point : ℕ) : List Byte :=
  if point < 0x80 then [Fin.ofNat _ point]
  else if point < 0x800 then
    [Fin.ofNat _ (0xC0 + point / 0x40), Fin.ofNat _ (0x80 + point % 0x40)]
  else if point < 0x10000 then
    [Fin.ofNat _ (0xE0 + point / 0x1000), Fin.ofNat _ (0x80 + point / 0x40 % 0x40),
      Fin.ofNat _ (0x80 + point % 0x40)]
  else
    [Fin.ofNat _ (0xF0 + point / 0x40000), Fin.ofNat _ (0x80 + point / 0x1000 % 0x40),
      Fin.ofNat _ (0x80 + point / 0x40 % 0x40), Fin.ofNat _ (0x80 + point % 0x40)]

/-- `Buffer.from(s, "utf-8")`. Two surrogates that make a pair are one character, a surrogate on
its own is replaced. -/
def utf8Encode : JsString → List Byte
  | [] => []
  | [c] => encodePoint (if 0xD800 ≤ c.val ∧ c.val < 0xE000 then replacement else c.val)
  | c :: d :: rest =>
    if 0xD800 ≤ c.val ∧ c.val < 0xDC00 ∧ 0xDC00 ≤ d.val ∧ d.val < 0xE000 then
      encodePoint (0x10000 + (c.val - 0xD800) * 0x400 + (d.val - 0xDC00)) ++ utf8Encode rest
    else
      encodePoint (if 0xD800 ≤ c.val ∧ c.val < 0xE000 then replacement else c.val) ++
        utf8Encode (d :: rest)

/-! ### Digits -/

/-- The value of a digit in any base up to 16. -/
def digitValue (c : CodeUnit) : Option ℕ :=
  if 0x30 ≤ c.val ∧ c.val ≤ 0x39 then some (c.val - 0x30)
  else if 0x61 ≤ c.val ∧ c.val ≤ 0x66 then some (c.val - 0x61 + 10)
  else if 0x41 ≤ c.val ∧ c.val ≤ 0x46 then some (c.val - 0x41 + 10)
  else none

def isDigit (base : ℕ) (c : CodeUnit) : Bool :=
  match digitValue c with
  | some d => d < base
  | none => false

/-- The natural number that a list of digits spells, leading ones first. -/
def digitsValue (base : ℕ) (s : JsString) : ℕ :=
  s.foldl (fun n c => n * base + (digitValue c).getD 0) 0

def digitUnit (d : ℕ) : CodeUnit := Fin.ofNat _ (if d < 10 then 0x30 + d else 0x57 + d)

/-- A natural number in decimal. -/
def decimal (n : ℕ) : JsString := text (Nat.repr n)

/-- Two lower-case hexadecimal digits. -/
def hexByte (b : Byte) : JsString := [digitUnit (b.val / 16), digitUnit (b.val % 16)]

/-- Pairs of hexadecimal digits as bytes. -/
def pairBytes : JsString → List Byte
  | hi :: lo :: rest => Fin.ofNat _ (digitsValue 16 [hi, lo]) :: pairBytes rest
  | _ => []

/-! ### URI components -/

/-- What stands at one place of a URI component. -/
inductive UriUnit
  | plain (c : CodeUnit)
  | escaped (b : Byte)

/-- The places of a URI component, unless two digits are missing after a `%`. -/
def uriUnits : JsString → Option (List UriUnit)
  | [] => some []
  | c :: rest =>
    if c = 0x25 then
      match rest with
      | hi :: lo :: rest =>
        if isDigit 16 hi && isDigit 16 lo then
          (uriUnits rest).map (.escaped (Fin.ofNat _ (digitsValue 16 [hi, lo])) :: ·)
        else none
      | _ => none
    else (uriUnits rest).map (.plain c :: ·)

/-- The code units of a URI component, unless its bytes are malformed. -/
def unescape : Option Partial → List UriUnit → Option JsString
  | none, [] => some []
  | none, .plain c :: rest => (unescape none rest).map (c :: ·)
  | none, .escaped b :: rest =>
    match leadByte b with
    | .inl point =>
      if point = replacement then none else (unescape none rest).map (utf16 point ++ ·)
    | .inr begun => unescape (some begun) rest
  | some begun, .escaped b :: rest =>
    if begun.lower ≤ b.val ∧ b.val ≤ begun.upper then
      let point := begun.point * 0x40 + (b.val - 0x80)
      match begun.missing with
      | 0 => (unescape none rest).map (utf16 point ++ ·)
      | missing + 1 => unescape (some ⟨point, missing, 0x80, 0xBF⟩) rest
    else none
  -- a character is cut short
  | some _, _ => none

/-- `decodeURIComponent(s)`, which may throw. -/
def decodeURIComponent (s : JsString) : Option JsString := (uriUnits s).bind (unescape none)

/-! ### White space -/

/-- What `trim` and the conversions to numbers skip. -/
def isSpace (c : CodeUnit) : Bool :=
  c.val ∈ [0x09, 0x0A, 0x0B, 0x0C, 0x0D, 0x20, 0xA0, 0x1680, 0x2028, 0x2029, 0x202F, 0x205F,
    0x3000, 0xFEFF] || (0x2000 ≤ c.val && c.val ≤ 0x200A)

def trim (s : JsString) : JsString :=
  ((s.dropWhile isSpace).reverse.dropWhile isSpace).reverse

end Js
