import Mirror.Properties.PaymentReference

/-!
References of FXRP transfers read back. Every field has its own bytes, so a decoder of the layout
finds what was encoded, and what would not fit its field is refused.
-/
namespace Mirror

open Js

/-- The digits of `size` bytes from byte `start` on. -/
def referenceField (ref : JsString) (start size : ℕ) : JsString :=
  (ref.drop (2 + 2 * start)).take (2 * size)

/-- The fields of a reference. -/
structure ReferenceFields where
  typeCmd : ℕ
  walletId : ℕ
  value : ℕ
  recipient : JsString

/-- A reader of `[typeCmd:1][walletId:1][value:10][recipient:20]`. -/
def decodeReference (ref : JsString) : ReferenceFields where
  typeCmd := digitsValue 16 (referenceField ref 0 1)
  walletId := digitsValue 16 (referenceField ref 1 1)
  value := digitsValue 16 (referenceField ref 2 10)
  recipient := referenceField ref 12 20

/-- The wallet is a byte and the amount a number of 80 bits. -/
structure TransferFits (walletId : Option Number) (valueDrops : ℤ) (w v : ℕ) : Prop where
  wallet : (walletId.getD Number.zero).toBigInt = some (w : ℤ)
  byte : w < 256
  value : valueDrops = v
  bits : v < 2 ^ 80

/-- Text of 32 bytes. -/
structure IsReference (ref : JsString) : Prop where
  marked : ref.take 2 = text "0x"
  length : ref.length = 66
  digits : (ref.drop 2).all (isDigit 16) = true

/-- 64 digits in lower case. -/
structure IsMemoData (memo : JsString) : Prop where
  length : memo.length = 64
  digits : ∀ c ∈ memo, ∃ d < 16, c = digitUnit d

section

variable (helpers : Helpers) {recipient : AddressDigits} {walletId : Option Number}
  {valueDrops : ℤ} {w v : ℕ} {ref : JsString}

/-- A reference is its four fields one after the other. -/
theorem encodeFxrpTransferReference_fits (fits : TransferFits walletId valueDrops w v) :
    encodeFxrpTransferReference helpers ⟨recipient.written, valueDrops, walletId⟩ =
      some (text "0x" ++ (text "01" ++ padStart 2 (hexText w) ++ padStart 20 (hexText v) ++
        recipient.digits)) := by
  obtain ⟨wallet, byte, rfl, bits⟩ := fits
  have one : helpers.toHex (.number Number.one) (some 1) = some (text "0x" ++ text "01") :=
    helpers.toHex_byte (n := 1) (by decide) (Number.toBigInt_some.mpr ⟨_, rfl, rfl⟩)
  have whole : helpers.pad recipient.written 20 = some (text "0x" ++ recipient.digits) := by
    have padded := helpers.pad_left recipient.digits 20 recipient.forty.le
    rwa [padStart_full recipient.forty] at padded
  have short : (hexText v).length ≤ 2 * 10 :=
    (hexText_length_le_iff (by decide)).mpr (by omega)
  have amount := helpers.pad_left (hexText v) 10 short
  have joined := helpers.concat_digits
    [text "01", padStart 2 (hexText w), padStart 20 (hexText v), recipient.digits]
  simp only [List.map_cons, List.map_nil, List.flatten_cons, List.flatten_nil, List.append_nil]
    at joined
  simp only [encodeFxrpTransferReference, helpers.toHex_minimal, one, whole, amount,
    helpers.toHex_byte byte wallet, joined, Option.bind_eq_bind, Option.bind_some,
    Option.pure_def, List.append_assoc]

/-- What does not fit is refused. -/
theorem encodeFxrpTransferReference_some (encoded : encodeFxrpTransferReference helpers
    ⟨recipient.written, valueDrops, walletId⟩ = some ref) :
    ∃ w v, TransferFits walletId valueDrops w v := by
  simp only [encodeFxrpTransferReference, Option.bind_eq_bind, Option.bind_eq_some_iff] at encoded
  obtain ⟨_, -, hex, amount, _, padded, _, -, _, wallet, -⟩ := encoded
  obtain ⟨w, byte, integral⟩ := (helpers.toHex_byte_iff _).mp ⟨_, wallet⟩
  have nonneg : 0 ≤ valueDrops := by
    by_contra negative
    rw [helpers.toHex_negative _ (not_le.mp negative)] at amount
    cases amount
  lift valueDrops to ℕ using nonneg
  rw [helpers.toHex_minimal] at amount
  cases amount
  refine ⟨w, valueDrops, integral, byte, rfl, ?_⟩
  by_contra large
  -- from 2^80 on there are more digits than the field has room for
  have long : 2 * 10 < (hexText valueDrops).length :=
    not_le.mp fun short => large (by have := (hexText_length_le_iff (by decide)).mp short; omega)
  rw [helpers.pad_long _ _ long] at padded
  cases padded

/-- What an encoded reference is. -/
theorem encodeFxrpTransferReference_eq (encoded : encodeFxrpTransferReference helpers
    ⟨recipient.written, valueDrops, walletId⟩ = some ref) :
    ∃ w v, TransferFits walletId valueDrops w v ∧
      ref = text "0x" ++ (text "01" ++ padStart 2 (hexText w) ++ padStart 20 (hexText v) ++
        recipient.digits) := by
  obtain ⟨w, v, fits⟩ := encodeFxrpTransferReference_some helpers encoded
  rw [encodeFxrpTransferReference_fits helpers fits, Option.some.injEq] at encoded
  exact ⟨w, v, fits, encoded.symm⟩

end

/-! ### Reading back -/

theorem referenceField_eq {before field after : JsString} {start size : ℕ}
    (place : before.length = 2 + 2 * start) (width : field.length = 2 * size) :
    referenceField (before ++ (field ++ after)) start size = field := by
  rw [referenceField, List.drop_left' place, List.take_left' width]

/-- Fields of the widths of the layout are found in their places. -/
theorem decodeReference_fields {first second third fourth : JsString} (one : first.length = 2)
    (two : second.length = 2) (three : third.length = 20) (four : fourth.length = 40) :
    decodeReference (text "0x" ++ (first ++ second ++ third ++ fourth)) =
      ⟨digitsValue 16 first, digitsValue 16 second, digitsValue 16 third, fourth⟩ := by
  have mark : (text "0x").length = 2 := rfl
  have typeCmd : referenceField (text "0x" ++ (first ++ (second ++ third ++ fourth))) 0 1 = first :=
    referenceField_eq mark one
  have walletId : referenceField (text "0x" ++ first ++ (second ++ (third ++ fourth))) 1 1 =
      second :=
    referenceField_eq (by rw [List.length_append, mark, one]) two
  have value : referenceField (text "0x" ++ first ++ second ++ (third ++ fourth)) 2 10 = third :=
    referenceField_eq (by rw [List.length_append, List.length_append, mark, one, two]) three
  have recipient : referenceField (text "0x" ++ first ++ second ++ third ++ (fourth ++ [])) 12 20 =
      fourth :=
    referenceField_eq (by simp only [List.length_append, mark, one, two, three]) four
  simp only [List.append_assoc, List.append_nil] at typeCmd walletId value recipient
  simp only [decodeReference, List.append_assoc, typeCmd, walletId, value, recipient]

theorem isReference_fields {digits : JsString} (length : digits.length = 64)
    (hex : digits.all (isDigit 16) = true) : IsReference (text "0x" ++ digits) :=
  ⟨rfl, by rw [List.length_append, length]; rfl, hex⟩

/-- Stripped of its mark and in lower case, a reference is memo data. -/
theorem memoData_of_reference (helpers : Helpers) {digits : JsString} (length : digits.length = 64)
    (hex : digits.all (isDigit 16) = true) :
    IsMemoData (paymentReferenceToMemoData helpers (text "0x" ++ digits)) := by
  have ascii : ∀ c ∈ digits, c.val < 0x80 := fun c member =>
    isDigit_ascii (List.all_eq_true.mp hex c member)
  have stripped : stripPrefix (text "0x" ++ digits) = digits := rfl
  rw [paymentReferenceToMemoData, stripped, helpers.toLowerCase_ascii _ ascii]
  obtain ⟨ds, -, small, spelled, -⟩ := exists_spell hex
  refine ⟨by rw [lower, List.length_map, length], fun c member => ?_⟩
  rw [spelled] at member
  obtain ⟨d, digit, rfl⟩ := List.mem_map.mp member
  exact ⟨d, small d digit, rfl⟩

theorem toBigInt_inj {x y : Number} {n : ℤ} (hx : x.toBigInt = some n)
    (hy : y.toBigInt = some n) : x = y := by
  obtain ⟨⟨q, _⟩, rfl, value⟩ := Number.toBigInt_some.mp hx
  obtain ⟨⟨q', _⟩, rfl, value'⟩ := Number.toBigInt_some.mp hy
  obtain rfl : q = q' := value.trans value'.symm
  rfl

theorem decodeReference_encoded (helpers : Helpers) {recipient : AddressDigits}
    {walletId : Option Number} {valueDrops : ℤ} {ref : JsString}
    (encoded : encodeFxrpTransferReference helpers ⟨recipient.written, valueDrops, walletId⟩ =
      some ref) :
    IsReference ref ∧ IsMemoData (paymentReferenceToMemoData helpers ref) ∧
      ∃ w v, TransferFits walletId valueDrops w v ∧
        decodeReference ref = ⟨1, w, v, recipient.digits⟩ := by
  obtain ⟨w, v, fits, rfl⟩ := encodeFxrpTransferReference_eq helpers encoded
  have small : v < 16 ^ 20 := by
    have := fits.bits
    omega
  obtain ⟨two, walletHex, wallet⟩ := digitsValue_padStart (show 0 < 2 by decide)
    (show w < 16 ^ 2 from fits.byte)
  obtain ⟨twenty, valueHex, value⟩ := digitsValue_padStart (show 0 < 20 by decide) small
  have length : (text "01" ++ padStart 2 (hexText w) ++ padStart 20 (hexText v) ++
      recipient.digits).length = 64 := by
    simp only [List.length_append, two, twenty, recipient.forty]
    rfl
  have hex : (text "01" ++ padStart 2 (hexText w) ++ padStart 20 (hexText v) ++
      recipient.digits).all (isDigit 16) = true := by
    simp only [List.all_append, walletHex, valueHex, recipient.hex, Bool.and_true]
    rfl
  refine ⟨isReference_fields length hex, memoData_of_reference helpers length hex, w, v, fits, ?_⟩
  rw [decodeReference_fields rfl two twenty recipient.forty, wallet, value]
  rfl

/-- An encoding throws exactly when the wallet or the amount does not fit its field. Otherwise it is
32 bytes that read back as the type, the wallet, the amount and the recipient, and as memo data they
are 64 digits in lower case. So no two inputs share a reference. -/
theorem reference_reads_back (helpers : Helpers) (recipient : AddressDigits)
    (walletId : Option Number) (valueDrops : ℤ) :
    (encodeFxrpTransferReference helpers ⟨recipient.written, valueDrops, walletId⟩ = none ↔
        ¬∃ w v, TransferFits walletId valueDrops w v) ∧
      (∀ ref,
        encodeFxrpTransferReference helpers ⟨recipient.written, valueDrops, walletId⟩ = some ref →
        IsReference ref ∧ IsMemoData (paymentReferenceToMemoData helpers ref) ∧
          ∃ w v, TransferFits walletId valueDrops w v ∧
            decodeReference ref = ⟨1, w, v, recipient.digits⟩) ∧
      ∀ (recipient' : AddressDigits) (walletId' : Option Number) (valueDrops' : ℤ) (ref : JsString),
        encodeFxrpTransferReference helpers ⟨recipient.written, valueDrops, walletId⟩ = some ref →
        encodeFxrpTransferReference helpers ⟨recipient'.written, valueDrops', walletId'⟩ =
          some ref →
        recipient'.digits = recipient.digits ∧ valueDrops' = valueDrops ∧
          walletId'.getD Number.zero = walletId.getD Number.zero := by
  refine ⟨?_, fun ref => decodeReference_encoded helpers, ?_⟩
  · rw [← Option.not_isSome_iff_eq_none, Option.isSome_iff_exists]
    refine not_congr ⟨?_, ?_⟩
    · rintro ⟨ref, encoded⟩
      exact encodeFxrpTransferReference_some helpers encoded
    · rintro ⟨w, v, fits⟩
      exact ⟨_, encodeFxrpTransferReference_fits helpers fits⟩
  · intro recipient' walletId' valueDrops' ref encoded encoded'
    obtain ⟨-, -, w, v, fits, decoded⟩ := decodeReference_encoded helpers encoded
    obtain ⟨-, -, w', v', fits', decoded'⟩ := decodeReference_encoded helpers encoded'
    -- the reader does not know which of the two it reads
    rw [decoded, ReferenceFields.mk.injEq] at decoded'
    obtain ⟨-, rfl, rfl, same⟩ := decoded'
    exact ⟨same.symm, fits'.value.trans fits.value.symm, toBigInt_inj fits'.wallet fits.wallet⟩

/-- Five drops for the address 2 and the first wallet. -/
theorem reference_reads_back_five : ∃ ref,
    encodeFxrpTransferReference Sample.helpers ⟨(Sample.recipient 2).written, 5, none⟩ = some ref ∧
      IsReference ref ∧ IsMemoData (paymentReferenceToMemoData Sample.helpers ref) := by
  obtain ⟨throws, reads, -⟩ := reference_reads_back Sample.helpers (Sample.recipient 2) none 5
  have fits : TransferFits none 5 0 5 :=
    ⟨Number.toBigInt_some.mpr ⟨_, rfl, rfl⟩, by decide, rfl, by decide⟩
  cases encoded : encodeFxrpTransferReference Sample.helpers
      ⟨(Sample.recipient 2).written, 5, none⟩ with
  | none => exact absurd ⟨0, 5, fits⟩ (throws.mp encoded)
  | some ref =>
    obtain ⟨whole, memo, -⟩ := reads ref encoded
    exact ⟨ref, rfl, whole, memo⟩

end Mirror
