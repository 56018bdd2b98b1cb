import Mirror.Onboarding.PaymentReference

/-!
The two encoders of payment references. The scripts put the amount before the recipient, as the
layout says, and the web app puts it after; both references have 32 bytes.
-/
namespace Mirror

open Js

/-- A 20-byte address in hexadecimal, in any letter case. -/
structure AddressDigits where
  digits : JsString
  forty : digits.length = 40
  hex : digits.all (isDigit 16) = true

namespace AddressDigits

variable (recipient : AddressDigits)

/-- The address as it is written. -/
def written : JsString := text "0x" ++ recipient.digits

/-- The number that the address is. -/
def number : ℕ := digitsValue 16 recipient.digits

theorem stripPrefix_written : stripPrefix recipient.written = recipient.digits := rfl

theorem ascii {c : CodeUnit} (member : c ∈ recipient.digits) : c.val < 0x80 :=
  isDigit_ascii (List.all_eq_true.mp recipient.hex c member)

end AddressDigits

theorem padStart_full {width : ℕ} {s : JsString} (full : s.length = width) :
    padStart width s = s := by
  rw [padStart, full, Nat.sub_self, List.replicate_zero, List.nil_append]

section

variable (helpers : Helpers) {recipient : AddressDigits} {value : ℕ} {addr amount : List ℕ}

/-- In the web app the recipient comes before the amount. -/
theorem lower_encodePaymentReference (spelled : lower recipient.digits = spell addr)
    (padded : padStart 20 (hexText value) = spell amount) (addrSmall : ∀ d ∈ addr, d < 16)
    (amountSmall : ∀ d ∈ amount, d < 16) :
    lower (encodePaymentReference helpers recipient.written value) =
      text "0x0100" ++ spell (addr ++ amount) := by
  have lowered : helpers.toLowerCase (stripPrefix recipient.written) = spell addr := by
    rw [recipient.stripPrefix_written, ← spelled]
    exact helpers.toLowerCase_ascii _ fun c => recipient.ascii
  have full : (spell addr).length = 40 := by
    rw [← spelled, lower, List.length_map, recipient.forty]
  simp only [encodePaymentReference, lowered, padStart_full full, padded, lower_append,
    lower_spell addrSmall, lower_spell amountSmall, spell_append, ← List.append_assoc]
  rfl

/-- In the scripts the amount comes before the recipient. -/
theorem lower_encodeFxrpTransferReference (fits : value < 2 ^ 80)
    (spelled : lower recipient.digits = spell addr)
    (padded : padStart 20 (hexText value) = spell amount)
    (amountSmall : ∀ d ∈ amount, d < 16) :
    (encodeFxrpTransferReference helpers ⟨recipient.written, value, none⟩).map lower =
      some (text "0x0100" ++ spell (amount ++ addr)) := by
  have one : helpers.toHex (.number Number.one) (some 1) = some (text "0x" ++ text "01") :=
    helpers.toHex_byte (n := 1) (by decide) (Number.toBigInt_some.mpr ⟨_, rfl, rfl⟩)
  have zero : helpers.toHex (.number Number.zero) (some 1) = some (text "0x" ++ text "00") :=
    helpers.toHex_byte (n := 0) (by decide) (Number.toBigInt_some.mpr ⟨_, rfl, rfl⟩)
  have whole : helpers.pad recipient.written 20 = some (text "0x" ++ recipient.digits) := by
    have padded := helpers.pad_left recipient.digits 20 recipient.forty.le
    rwa [padStart_full recipient.forty] at padded
  have short : (hexText value).length ≤ 2 * 10 :=
    (hexText_length_le_iff (by decide)).mpr (by omega)
  have tail := helpers.pad_left (hexText value) 10 short
  rw [show 2 * 10 = 20 from rfl, padded] at tail
  -- `concat` strips the marks, which leaves the four fields one after the other
  have joined := helpers.concat_digits
    [text "01", text "00", spell amount, recipient.digits]
  simp only [List.map_cons, List.map_nil] at joined
  simp only [encodeFxrpTransferReference, Option.getD_none, helpers.toHex_minimal, one, zero,
    whole, tail, joined, Option.bind_eq_bind, Option.bind_some, Option.pure_def, Option.map_some,
    List.flatten_cons, List.flatten_nil, List.append_nil, lower_append, lower_spell amountSmall,
    spelled, spell_append, ← List.append_assoc]
  rfl

end

/-- Two fields that trade places without a trace: the longer one is the shorter one twice. -/
theorem swap_fields {recipient value : ℕ} :
    value * 16 ^ 40 + recipient = recipient * 16 ^ 20 + value ↔
      recipient = value * (2 ^ 80 + 1) := by
  omega

/-- For every 20-byte recipient and every amount below 2^80, the references of the two encoders
agree up to letter case exactly if the recipient's digits are those of the amount, twice. -/
theorem encoders_agree_iff (helpers : Helpers) (recipient : AddressDigits) (value : ℕ)
    (fits : value < 2 ^ 80) :
    (encodeFxrpTransferReference helpers ⟨recipient.written, value, none⟩).map lower =
        some (lower (encodePaymentReference helpers recipient.written value)) ↔
      recipient.number = value * (2 ^ 80 + 1) := by
  obtain ⟨addr, forty, addrSmall, spelled, number⟩ := exists_spell recipient.hex
  obtain ⟨amount, twenty, amountSmall, padded, worth⟩ :=
    padStart_hexText (show 0 < 20 by decide) (show value < 16 ^ 20 by omega)
  rw [recipient.forty] at forty
  have small : ∀ ds es : List ℕ, (∀ d ∈ ds, d < 16) → (∀ e ∈ es, e < 16) →
      ∀ d ∈ ds ++ es, d < 16 := by
    intro ds es hd he d member
    exact (List.mem_append.mp member).elim (hd d) (he d)
  rw [lower_encodeFxrpTransferReference helpers fits spelled padded amountSmall,
    lower_encodePaymentReference helpers spelled padded addrSmall amountSmall, Option.some.injEq,
    List.append_cancel_left_eq]
  -- two texts of 60 digits agree where their numbers do
  have byValue : spell (amount ++ addr) = spell (addr ++ amount) ↔
      valueOf (amount ++ addr) = valueOf (addr ++ amount) := by
    constructor
    · intro same
      rw [spell_inj (small _ _ amountSmall addrSmall) (small _ _ addrSmall amountSmall) same]
    · intro same
      refine congrArg spell (valueOf_inj ?_ (small _ _ amountSmall addrSmall)
        (small _ _ addrSmall amountSmall) same)
      rw [List.length_append, List.length_append, Nat.add_comm]
  rw [byValue, valueOf_append, valueOf_append, forty, twenty, worth, ← number]
  exact swap_fields

namespace Sample

/-- The digits of an integer, in so many bytes where it says how many. None is no size. -/
def digitsOf (n : ℤ) (size : Option ℕ) : Option JsString :=
  if n < 0 then none
  else match size.filter (0 < ·) with
    | none => some (text "0x" ++ hexText n.toNat)
    | some size =>
      if 256 ^ size ≤ n.toNat then none
      else some (text "0x" ++ padStart (2 * size) (hexText n.toNat))

def toHex : Numeric → Option ℕ → Option JsString
  | .bigint n, size => digitsOf n size
  | .number x, size => x.toBigInt.bind fun n => digitsOf n size

/-- `pad`, on the left with zeros to so many bytes. -/
def pad (s : JsString) (size : ℕ) : Option JsString :=
  if s.length ≤ 2 * size + 2 then some (text "0x" ++ padStart (2 * size) (s.drop 2)) else none

theorem pad_digits (digits : JsString) (size : ℕ) (short : digits.length ≤ 2 * size) :
    pad (text "0x" ++ digits) size = some (text "0x" ++ padStart (2 * size) digits) := by
  have fits : (text "0x" ++ digits).length ≤ 2 * size + 2 := by
    rw [List.length_append, Nat.add_comm]
    exact Nat.add_le_add_right short 2
  rw [pad, if_pos fits]
  rfl

theorem flatMap_digits (parts : List JsString) :
    (parts.map fun digits => text "0x" ++ digits).flatMap (fun s => s.drop 2) = parts.flatten := by
  induction parts with
  | nil => rfl
  | cons digits rest ih =>
    rw [List.map_cons, List.flatMap_cons, ih, List.flatten_cons]
    rfl

/-- viem as far as the encoders need it. -/
def helpers : Helpers where
  toLowerCase := lower
  toHex := toHex
  pad := pad
  concat parts := text "0x" ++ parts.flatMap fun s => s.drop 2
  toLowerCase_ascii _ _ := rfl
  toHex_minimal n := by simp [toHex, digitsOf]
  toHex_sized n size given fits := by simp [toHex, digitsOf, Option.filter_some, given, fits]
  toHex_negative n negative size := by simp [toHex, digitsOf, negative]
  toHex_large n size given large := by simp [toHex, digitsOf, Option.filter_some, given, large]
  toHex_number _ _ _ := rfl
  pad_left := pad_digits
  pad_long digits size long := by
    rw [pad, if_neg]
    rw [List.length_append]
    exact not_le.mpr (by rw [Nat.add_comm]; exact Nat.add_lt_add_left long 2)
  concat_digits parts := congrArg (text "0x" ++ ·) (flatMap_digits parts)

/-- The address that is the number `n`. -/
def recipient (n : ℕ) : AddressDigits where
  digits := (List.range 40).reverse.map fun i => digitUnit (n / 16 ^ i % 16)
  forty := by simp
  hex := by
    have digit : ∀ d < 16, isDigit 16 (digitUnit d) = true := by decide
    rw [List.all_map, List.all_eq_true]
    intro i _
    exact digit _ (Nat.mod_lt _ (by decide))

end Sample

/-- One drop for 0x00000000000000000001 twice. -/
theorem encoders_agree_iff_twice :
    (encodeFxrpTransferReference Sample.helpers
        ⟨(Sample.recipient (2 ^ 80 + 1)).written, 1, none⟩).map lower =
      some (lower (encodePaymentReference Sample.helpers
        (Sample.recipient (2 ^ 80 + 1)).written 1)) :=
  (encoders_agree_iff Sample.helpers (Sample.recipient (2 ^ 80 + 1)) 1 (by decide)).mpr
    (by decide +kernel)

/-- One drop for the address 2. -/
theorem encoders_disagree :
    ¬∀ (helpers : Helpers) (recipient : AddressDigits) (value : ℕ), value < 2 ^ 80 →
      (encodeFxrpTransferReference helpers ⟨recipient.written, value, none⟩).map lower =
        some (lower (encodePaymentReference helpers recipient.written value)) := by
  intro always
  have agree := always Sample.helpers (Sample.recipient 2) 1 (by decide)
  revert agree
  decide +kernel

end Mirror
