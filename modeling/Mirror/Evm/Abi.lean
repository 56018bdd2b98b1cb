import Mathlib.Data.List.Basic
import Mathlib.Tactic.Common
import Mirror.Evm.Arithmetic

/-! Big-endian words in byte strings: ABI encoding of static tuples and `mload`. -/
namespace Evm

abbrev Byte := Uint8

/-- The integer a byte string spells, most significant byte first. -/
def beValue (bytes : List Byte) : ℕ :=
  bytes.foldl (fun acc b => acc * 256 + b.val) 0

/-- The low `k` bytes of `n`, most significant byte first. -/
def beBytes : ℕ → ℕ → List Byte
  | 0, _ => []
  | k + 1, n => beBytes k (n / 256) ++ [Fin.ofNat 256 n]

/-- `abi.encode` of a tuple of words. -/
def abiEncode (words : List ℕ) : List Byte :=
  words.flatMap (beBytes 32)

/-- `mload(add(data, 32 * (i + 1)))` for the `i`-th word of a byte array in memory. -/
def wordAt (data : List Byte) (i : ℕ) : ℕ :=
  beValue ((data.drop (32 * i)).take 32)

@[simp] theorem beBytes_length (k n : ℕ) : (beBytes k n).length = k := by
  induction k generalizing n with
  | zero => rfl
  | succ k ih => simp [beBytes, ih]

theorem beValue_snoc (bytes : List Byte) (b : Byte) :
    beValue (bytes ++ [b]) = beValue bytes * 256 + b.val := by
  simp [beValue, List.foldl_append]

theorem beValue_beBytes (k n : ℕ) (fits : n < 256 ^ k) : beValue (beBytes k n) = n := by
  -- induction on the number of bytes; the last byte is the remainder by 256
  induction k generalizing n with
  | zero =>
    simp only [Nat.pow_zero, Nat.lt_one_iff] at fits
    simp [beBytes, beValue, fits]
  | succ k ih =>
    have low : n / 256 < 256 ^ k := by
      rw [Nat.pow_succ] at fits
      exact Nat.div_lt_of_lt_mul (by omega)
    rw [beBytes, beValue_snoc, ih _ low]
    simp only [Fin.val_ofNat]
    omega

@[simp] theorem abiEncode_length (words : List ℕ) :
    (abiEncode words).length = 32 * words.length := by
  induction words with
  | nil => rfl
  | cons w ws ih =>
    simp only [abiEncode] at ih
    simp only [abiEncode, List.flatMap_cons, List.length_append, beBytes_length,
      List.length_cons, ih]
    omega

/-- Reading a word back gives what was encoded. -/
theorem wordAt_abiEncode (words : List ℕ) (fits : ∀ w ∈ words, w < 2 ^ 256)
    (i : ℕ) (h : i < words.length) : wordAt (abiEncode words) i = words[i] := by
  induction words generalizing i with
  | nil => simp at h
  | cons w ws ih =>
    -- the first word fills 32 bytes, so dropping them is stepping to the tail
    have split : abiEncode (w :: ws) = beBytes 32 w ++ abiEncode ws := rfl
    cases i with
    | zero =>
      have head : w < 256 ^ 32 := by
        have := fits w (by simp)
        omega
      rw [split, wordAt, Nat.mul_zero, List.drop_zero, List.take_left' (beBytes_length 32 w),
        beValue_beBytes 32 w head]
      rfl
    | succ i =>
      have tail := ih (fun w hw => fits w (List.mem_cons_of_mem _ hw)) i (by simpa using h)
      have shift : 32 * (i + 1) = (beBytes 32 w).length + 32 * i := by simp; omega
      rw [split, wordAt, shift, List.drop_length_add_append]
      exact tail

/-- Words are told from their encoding. -/
theorem abiEncode_inj {ws vs : List ℕ} (fits : ∀ w ∈ ws, w < 2 ^ 256)
    (fits' : ∀ v ∈ vs, v < 2 ^ 256) (same : abiEncode ws = abiEncode vs) : ws = vs := by
  have lengths : ws.length = vs.length := by
    have := congrArg List.length same
    rw [abiEncode_length, abiEncode_length] at this
    omega
  apply List.ext_getElem lengths
  intro i h h'
  rw [← wordAt_abiEncode ws fits i h, ← wordAt_abiEncode vs fits' i h', same]

end Evm
