import Mirror.Engine.Framework
import Mirror.Js.Hex
import Mirror.Js.Utf8

/-! Hexadecimal text on the wire: what it is read as, and the identifiers of operations. -/
namespace Mirror

open Evm hiding Byte
open Js

/-- The digits of bytes. -/
def hexDigits (bytes : List Byte) : JsString := bytes.flatMap hexByte

theorem lower_mark : lower (text "0x") = text "0x" ∧ lower (text "0X") = text "0x" := by decide

/-- No digit is an `x`. -/
theorem hexDigits_unmarked (bytes : List Byte) (rest : JsString) :
    hexDigits bytes ≠ text "0x" ++ rest := by
  intro same
  have member : (0x78 : CodeUnit) ∈ hexDigits bytes := by
    rw [same]
    exact List.mem_append_left _ (by decide)
  obtain ⟨d, small, x⟩ := mem_flatMap_hexByte member
  -- a digit is a decimal one or a letter up to f
  have value := congrArg Fin.val x
  rw [digitUnit_val small] at value
  have literal : (0x78 : CodeUnit).val = 120 := rfl
  split at value <;> omega

/-- `hexToBytes` of what stands after the mark. -/
def readDigits (s : JsString) : Except JsString (List Byte) :=
  if s.length % 2 ≠ 0 then
    .error (text "Error: invalid hex: odd length (" ++ decimal s.length ++ text ")")
  else if !s.all (isDigit 16) then .error (text "Error: invalid hex: non-hex characters")
  else .ok (pairBytes s)

theorem readDigits_ok {s : JsString} {bytes : List Byte} :
    readDigits s = .ok bytes ↔ lower s = hexDigits bytes := by
  constructor
  · intro read
    unfold readDigits at read
    split at read
    · cases read
    · split at read
      · cases read
      · cases read
        exact lower_pairBytes (by omega) (by simp_all)
  · intro written
    obtain ⟨even, digits, bytes⟩ := pairBytes_of_lower written
    rw [readDigits, if_neg (by omega), digits, bytes]
    rfl

theorem hexToBytes_marked {mark : JsString} (isMark : mark = text "0x" ∨ mark = text "0X")
    (s : JsString) : hexToBytes (mark ++ s) = readDigits s := by
  have starts : (startsWith (mark ++ s) (text "0x") || startsWith (mark ++ s) (text "0X")) = true ∧
      (mark ++ s).drop 2 = s := by
    rcases isMark with rfl | rfl <;> exact ⟨rfl, rfl⟩
  simp only [hexToBytes, starts, if_true]
  rfl

theorem lowerUnit_zero {c : CodeUnit} (zero : lowerUnit c = 0x30) : c = 0x30 := by
  have value := congrArg Fin.val zero
  have literal : (0x30 : CodeUnit).val = 0x30 := rfl
  rw [literal, lowerUnit] at value
  apply Fin.ext
  split at value
  · rw [Fin.val_ofNat] at value
    omega
  · exact value

theorem lowerUnit_x {c : CodeUnit} (x : lowerUnit c = 0x78) : c = 0x78 ∨ c = 0x58 := by
  have value := congrArg Fin.val x
  have small : (0x78 : CodeUnit).val = 0x78 := rfl
  have capital : (0x58 : CodeUnit).val = 0x58 := rfl
  rw [small, lowerUnit] at value
  split at value
  · rw [Fin.val_ofNat] at value
    exact .inr (Fin.ext (by omega))
  · exact .inl (Fin.ext value)

/-- A text is marked or is not, also in lower case. -/
theorem marked_or (h : JsString) :
    (∃ mark s, (mark = text "0x" ∨ mark = text "0X") ∧ h = mark ++ s) ∨
      (hexToBytes h = readDigits h ∧ ∀ rest, lower h ≠ text "0x" ++ rest) := by
  by_cases starts : (startsWith h (text "0x") || startsWith h (text "0X")) = true
  · left
    rcases Bool.or_eq_true_iff.mp starts with small | capital
    · obtain ⟨s, rfl⟩ := List.isPrefixOf_iff_prefix.mp small
      exact ⟨_, s, .inl rfl, rfl⟩
    · obtain ⟨s, rfl⟩ := List.isPrefixOf_iff_prefix.mp capital
      exact ⟨_, s, .inr rfl, rfl⟩
  · right
    refine ⟨by simp only [hexToBytes, starts]; rfl, fun rest same => starts ?_⟩
    have long : 2 ≤ h.length := by
      rw [← List.length_map lowerUnit, ← lower, same, List.length_append]
      exact Nat.le_add_right 2 rest.length
    -- a mark is two characters, so shorter texts have none
    rcases h with - | ⟨c, - | ⟨d, s⟩⟩
    · cases long
    · exact absurd long (Nat.not_succ_le_self 1)
    · obtain ⟨first, second⟩ := List.cons.inj (same : lowerUnit c :: _ = 0x30 :: _)
      have zero := lowerUnit_zero first
      rcases lowerUnit_x (List.cons.inj (second : lowerUnit d :: _ = 0x78 :: _)).1 with rfl | rfl
      · rw [zero]; rfl
      · rw [zero]; rfl

/-- A text is read as the bytes that it spells, marked or not, in any letter case. -/
theorem hexToBytes_ok {h : JsString} {bytes : List Byte} : hexToBytes h = .ok bytes ↔
    lower h = hexDigits bytes ∨ lower h = text "0x" ++ hexDigits bytes := by
  rcases marked_or h with ⟨mark, s, isMark, rfl⟩ | ⟨read, unmarked⟩
  · have lowered : lower (mark ++ s) = text "0x" ++ lower s := by
      rcases isMark with rfl | rfl
      · rw [lower_append, lower_mark.1]
      · rw [lower_append, lower_mark.2]
    rw [hexToBytes_marked isMark, readDigits_ok, lowered, List.append_cancel_left_eq]
    exact (or_iff_right fun same => hexDigits_unmarked bytes _ same.symm).symm
  · rw [read, readDigits_ok]
    exact (or_iff_left (unmarked _)).symm

/-- What is written is read. -/
theorem hexToBytes_bytesToHex (bytes : List Byte) : hexToBytes (bytesToHex bytes) = .ok bytes := by
  rw [hexToBytes_ok]
  right
  rw [bytesToHex, lower_append, lower_mark.1, lower_flatMap_hexByte]
  rfl

end Mirror
