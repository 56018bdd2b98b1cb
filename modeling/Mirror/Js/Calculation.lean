import Mathlib.Algebra.Order.Floor.Defs
import Mathlib.Algebra.Order.Field.Basic
import Mathlib.Data.Rat.Cast.Defs
import Mirror.Js.Arithmetic

/-!
What a calculation uses of its numbers. They may be those of the language or exact ones, so that one
text is read in either arithmetic.
-/
namespace Js

/-- Beside the operations that have a class of their own. -/
class Calculation (K : Type) where
  literal : ℚ → K
  /-- The length of an array. -/
  length : ℕ → K
  sqrt : K → K
  /-- `Math.round`. -/
  round : K → K
  abs : K → K

/-- A square root, for arithmetic that is exact otherwise. -/
class SquareRoot (K : Type) where
  sqrt : K → K

section

variable {K : Type} [Field K] [LinearOrder K] [FloorRing K] [SquareRoot K]

/-- Exact arithmetic. -/
instance : Calculation K where
  literal q := q
  length n := n
  sqrt := SquareRoot.sqrt
  round x := (⌊x + 1 / 2⌋ : ℤ)
  abs x := |x|

end

namespace Number

instance : Zero Number := ⟨zero⟩

instance : One Number := ⟨one⟩

instance : Add Number := ⟨add⟩

instance : Sub Number := ⟨sub⟩

instance : Mul Number := ⟨mul⟩

instance : Div Number := ⟨div⟩

instance : Neg Number := ⟨neg⟩

instance : Min Number := ⟨min⟩

instance : Max Number := ⟨max⟩

instance : LT Number := ⟨fun x y => x.lt y = true⟩

instance : LE Number := ⟨fun x y => x.le y = true⟩

instance : DecidableLT Number := fun x y => inferInstanceAs (Decidable (x.lt y = true))

instance : DecidableLE Number := fun x y => inferInstanceAs (Decidable (x.le y = true))

/-- The arithmetic of the language. -/
instance : Calculation Number where
  literal := ofRat
  length := ofLength
  sqrt := sqrt
  round := round
  abs := abs

section

variable (x y : Number)

theorem add_def : x + y = x.add y := rfl

theorem sub_def : x - y = x.sub y := rfl

theorem mul_def : x * y = x.mul y := rfl

theorem div_def : x / y = x.div y := rfl

end

theorem length_def (n : ℕ) : (Calculation.length n : Number) = ofLength n := rfl

theorem literal_ofNat (n : ℕ) [n.AtLeastTwo] (small : |(OfNat.ofNat n : ℤ)| ≤ 2 ^ 53) :
    (Calculation.literal (OfNat.ofNat n) : Number) = ofInt (OfNat.ofNat n) small := by
  have exact := ofRat_intCast small
  rwa [Int.cast_ofNat] at exact

end Number

section

variable {K : Type} [Zero K] [Add K] [Sub K] [Mul K] [Div K] [Calculation K]

/-- `xs.reduce((a, b) => a + b, 0)`. -/
def total (xs : List K) : K := xs.foldl (· + ·) 0

/-- The total over the length. -/
def average (xs : List K) : K := total xs / Calculation.length xs.length

/-- `xs.reduce((a, b) => a + (b - mean) ** 2, 0)`. -/
def squares (mean : K) (xs : List K) : K := total (xs.map fun b => (b - mean) * (b - mean))

end

end Js
