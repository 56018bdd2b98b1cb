import Mirror.Js.Number
import Mirror.Js.Text

/-! Numbers as text: literals, `Number(s)`, `BigInt(s)` and the shortest decimal of a double. -/
namespace Js

/-! ### Reading -/

def isSign (c : CodeUnit) : Bool := c = 0x2B || c = 0x2D

/-- The sign at the head of a text, if there is one, and the rest. -/
def splitSign : JsString → Bool × JsString
  | 0x2D :: rest => (true, rest)
  | 0x2B :: rest => (false, rest)
  | s => (false, s)

def applySign (negative : Bool) (q : ℚ) : ℚ := if negative then -q else q

/-- An exponent part `e12`, `E+12` or nothing. -/
def exponentValue : JsString → Option ℤ
  | [] => some 0
  | c :: rest =>
    let (negative, digits) := splitSign rest
    if (c = 0x65 || c = 0x45) && digits ≠ [] && digits.all (isDigit 10) then
      some (if negative then -(digitsValue 10 digits : ℤ) else digitsValue 10 digits)
    else none

/-- A decimal literal without sign, taken apart at its point and its exponent. -/
structure Decimal where
  whole : JsString
  point : Bool
  fraction : JsString
  exponent : ℤ

def splitDecimal (s : JsString) : Option Decimal :=
  let whole := s.takeWhile (isDigit 10)
  match s.dropWhile (isDigit 10) with
  | 0x2E :: rest =>
    let fraction := rest.takeWhile (isDigit 10)
    (exponentValue (rest.dropWhile (isDigit 10))).map fun e => ⟨whole, true, fraction, e⟩
  | rest => (exponentValue rest).map fun e => ⟨whole, false, [], e⟩

/-- The exact value of a decimal literal. -/
def Decimal.value (d : Decimal) : ℚ :=
  digitsValue 10 (d.whole ++ d.fraction) * (10 : ℚ) ^ (d.exponent - d.fraction.length)

/-- A number in JSON: no leading zeros, and digits on both sides of a point. -/
def jsonNumber (s : JsString) : Option Number := do
  let (negative, magnitude) := match s with
    | 0x2D :: rest => (true, rest)
    | _ => (false, s)
  let d ← splitDecimal magnitude
  if d.whole = [] || (d.whole.head? = some 0x30 && d.whole.length ≠ 1) ||
    (d.point && d.fraction = []) then none
  else return .ofRat (applySign negative d.value)

/-- The digits of `0x1F`, `0o17` or `0b11`, with their base. -/
def splitBase : JsString → Option (ℕ × JsString)
  | 0x30 :: c :: digits =>
    let base :=
      if c = 0x78 || c = 0x58 then 16
      else if c = 0x6F || c = 0x4F then 8
      else if c = 0x62 || c = 0x42 then 2 else 0
    if digits ≠ [] && digits.all (isDigit base) then some (base, digits) else none
  | _ => none

/-- `Number(s)`. -/
def numberOfText (s : JsString) : Number :=
  let s := trim s
  if s = [] then .ofRat 0
  else
    match splitBase s with
    | some (base, digits) => .ofRat (digitsValue base digits)
    | none =>
      let (negative, magnitude) := splitSign s
      if magnitude = text "Infinity" then .infinity negative
      else
        match splitDecimal magnitude with
        | some d =>
          if d.whole = [] && d.fraction = [] then .nan
          else .ofRat (applySign negative d.value)
        | none => .nan

/-- `BigInt(s)`, which throws where there is no integer to read. -/
def bigIntOfText (s : JsString) : Option ℤ :=
  let s := trim s
  if s = [] then some 0
  else
    match splitBase s with
    | some (base, digits) => some (digitsValue base digits)
    | none =>
      let (negative, digits) := splitSign s
      if digits ≠ [] && digits.all (isDigit 10) then
        some (if negative then -(digitsValue 10 digits : ℤ) else digitsValue 10 digits)
      else none

/-! ### Writing -/

/-- `digits * 10 ^ (exponent - number of digits)`. -/
structure Shortest where
  digits : ℕ
  exponent : ℤ

/-- A decimal with `k` digits that reads back as `x`, the nearer one if two do. -/
def decimalOfLength (x : Double) (k : ℕ) : Option Shortest :=
  let n := Int.log 10 x.val + 1
  let unit : ℚ := 10 ^ (n - k)
  let below := ⌊x.val / unit⌋.toNat
  let readsBack (s : ℕ) : Bool := Number.ofRat (s * unit) = .finite x
  -- rounding up from 99…9 takes the next power of ten
  let carry (s : ℕ) : Shortest := if s = 10 ^ k then ⟨10 ^ (k - 1), n + 1⟩ else ⟨s, n⟩
  let rest := x.val / unit - below
  match readsBack below, readsBack (below + 1) with
  | true, true =>
    some (carry (if rest < 1 / 2 ∨ (rest = 1 / 2 ∧ below % 2 = 0) then below else below + 1))
  | true, false => some (carry below)
  | false, true => some (carry (below + 1))
  | false, false => none

/-- Seventeen digits always suffice. -/
def shortest (x : Double) : Shortest :=
  ((List.range' 1 17).findSome? (decimalOfLength x)).getD ⟨0, 1⟩

/-- `String(x)` of a positive double. -/
def positiveText (x : Double) : JsString :=
  let d := shortest x
  let digits := decimal d.digits
  let k := digits.length
  let n := d.exponent
  let zeros (m : ℤ) : JsString := List.replicate m.toNat 0x30
  if (k : ℤ) ≤ n ∧ n ≤ 21 then digits ++ zeros (n - k)
  else if 0 < n ∧ n ≤ 21 then digits.take n.toNat ++ [0x2E] ++ digits.drop n.toNat
  else if -6 < n ∧ n ≤ 0 then text "0." ++ zeros (-n) ++ digits
  else
    let mantissa := if k = 1 then digits else digits.take 1 ++ [0x2E] ++ digits.drop 1
    let e := n - 1
    mantissa ++ text (if e < 0 then "e-" else "e+") ++ decimal e.natAbs

/-- `String(x)`. -/
def Number.toText : Number → JsString
  | .nan => text "NaN"
  | .infinity negative => text (if negative then "-Infinity" else "Infinity")
  | .finite x =>
    if x.val = 0 then text "0"
    else if 0 < x.val then positiveText x
    else [0x2D] ++ positiveText x.neg

/-- `n.toString()` of a `BigInt`. -/
def bigIntText (n : ℤ) : JsString := (if n < 0 then [0x2D] else []) ++ decimal n.natAbs

end Js
