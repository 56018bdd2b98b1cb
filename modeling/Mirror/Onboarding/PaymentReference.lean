import Mirror.Js.Arithmetic
import Mirror.Js.Hex

/-! The payment references of FXRP transfers, as the scripts and the web app encode them. -/
namespace Mirror

open Js

/-- The two kinds of numbers that `toHex` takes. -/
inductive Numeric
  | bigint (n : ℤ)
  | number (x : Number)

/-- What the two encoders call: `toLowerCase` of the language and `toHex`, `pad` and `concat` of
viem, where `none` is a throw. The laws are what is documented of them. -/
structure Helpers where
  toLowerCase : JsString → JsString
  toHex : Numeric → Option ℕ → Option JsString
  pad : JsString → ℕ → Option JsString
  concat : List JsString → JsString
  toLowerCase_ascii : ∀ s, (∀ c ∈ s, c.val < 0x80) → toLowerCase s = lower s
  /-- Without a size no digit is wasted. -/
  toHex_minimal : ∀ n : ℕ, toHex (.bigint n) none = some (text "0x" ++ hexText n)
  toHex_sized : ∀ n size : ℕ, 0 < size → n < 256 ^ size →
    toHex (.bigint n) (some size) = some (text "0x" ++ padStart (2 * size) (hexText n))
  toHex_negative : ∀ n < 0, ∀ size, toHex (.bigint n) size = none
  toHex_large : ∀ n size : ℕ, 0 < size → 256 ^ size ≤ n → toHex (.bigint n) (some size) = none
  /-- Only an integer has digits. -/
  toHex_number : ∀ x size, 0 < size → toHex (.number x) (some size) =
    x.toBigInt.bind fun n => toHex (.bigint n) (some size)
  pad_left : ∀ digits size, digits.length ≤ 2 * size →
    pad (text "0x" ++ digits) size = some (text "0x" ++ padStart (2 * size) digits)
  pad_long : ∀ digits size, 2 * size < digits.length → pad (text "0x" ++ digits) size = none
  concat_digits : ∀ parts : List JsString,
    concat (parts.map fun digits => text "0x" ++ digits) = text "0x" ++ parts.flatten

/-- An integer that fits a byte is two digits, any other number throws. -/
theorem Helpers.toHex_byte (helpers : Helpers) {x : Number} {n : ℕ} (byte : n < 256)
    (integral : x.toBigInt = some (n : ℤ)) :
    helpers.toHex (.number x) (some 1) = some (text "0x" ++ padStart 2 (hexText n)) := by
  rw [helpers.toHex_number x 1 one_pos, integral]
  exact helpers.toHex_sized n 1 one_pos byte

theorem Helpers.toHex_byte_iff (helpers : Helpers) (x : Number) :
    (∃ s, helpers.toHex (.number x) (some 1) = some s) ↔
      ∃ n : ℕ, n < 256 ∧ x.toBigInt = some (n : ℤ) := by
  constructor
  · rintro ⟨s, written⟩
    rw [helpers.toHex_number x 1 one_pos, Option.bind_eq_some_iff] at written
    obtain ⟨z, integral, written⟩ := written
    by_cases negative : z < 0
    · rw [helpers.toHex_negative z negative] at written
      cases written
    · lift z to ℕ using not_lt.mp negative
      by_cases byte : z < 256
      · exact ⟨z, byte, integral⟩
      · rw [helpers.toHex_large z 1 one_pos (by omega)] at written
        cases written
  · rintro ⟨n, byte, integral⟩
    exact ⟨_, helpers.toHex_byte byte integral⟩

/-- `s.replace(/^0x/, "")`. -/
def stripPrefix (s : JsString) : JsString := if startsWith s (text "0x") then s.drop 2 else s

/-- The options of `encodeFxrpTransferReference`. -/
structure TransferOptions where
  recipient : JsString
  valueDrops : ℤ
  walletId : Option Number

section

variable (helpers : Helpers)

/-- `encodePaymentReference` of the web app. -/
def encodePaymentReference (recipient : JsString) (valueDrops : ℕ) : JsString :=
  let typeCmd := text "01"
  let walletId := text "00"
  let addr := padStart 40 (helpers.toLowerCase (stripPrefix recipient))
  let value := padStart 20 (hexText valueDrops)
  text "0x" ++ typeCmd ++ walletId ++ addr ++ value

/-- `encodeFxrpTransferReference` of the scripts. -/
def encodeFxrpTransferReference (opts : TransferOptions) : Option JsString := do
  let typeCmd := Number.one
  let walletId := opts.walletId.getD Number.zero
  let recipient ← helpers.pad opts.recipient 20
  -- Flare layout: [typeCmd:1][walletId:1][value:10][recipient:20]
  let valueHex ← helpers.pad (← helpers.toHex (.bigint opts.valueDrops) none) 10
  return helpers.concat [← helpers.toHex (.number typeCmd) (some 1),
    ← helpers.toHex (.number walletId) (some 1), valueHex, recipient]

/-- The memo data of a reference. -/
def paymentReferenceToMemoData (ref : JsString) : JsString :=
  helpers.toLowerCase (stripPrefix ref)

end

end Mirror
