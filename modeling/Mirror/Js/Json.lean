import Mirror.Js.Numeral

/-!
JSON values. Reading is a machine over code units that yields tokens and a machine over tokens
that keeps the open arrays and objects on a stack.
-/
namespace Js

/-- What `JSON.parse` returns. Members of an object stand in the order of the text, repeated keys
included. -/
inductive Json
  | null
  | bool (b : Bool)
  | num (x : Number)
  | str (s : JsString)
  | arr (elements : List Json)
  | obj (members : List (JsString × Json))

/-! ### Tokens -/

inductive Token
  | openBrace
  | closeBrace
  | openBracket
  | closeBracket
  | comma
  | colon
  | scalar (v : Json)

/-- What the reader is in the middle of, with what it has read of it in reverse. -/
inductive Lexing
  | between
  | string (read : JsString)
  | escape (read : JsString)
  | unicode (read digits : JsString)
  | number (read : JsString)
  | word (read : JsString)

def isJsonSpace (c : CodeUnit) : Bool := c = 0x20 || c = 0x09 || c = 0x0A || c = 0x0D

def isNumberPart (c : CodeUnit) : Bool :=
  isDigit 10 c || isSign c || c = 0x2E || c = 0x65 || c = 0x45

def isLetter (c : CodeUnit) : Bool := 0x61 ≤ c.val && c.val ≤ 0x7A

def punctuation (c : CodeUnit) : Option Token :=
  if c = 0x7B then some .openBrace
  else if c = 0x7D then some .closeBrace
  else if c = 0x5B then some .openBracket
  else if c = 0x5D then some .closeBracket
  else if c = 0x2C then some .comma
  else if c = 0x3A then some .colon
  else none

/-- The code unit that a one-letter escape stands for. -/
def escaped (c : CodeUnit) : Option CodeUnit :=
  if c = 0x22 || c = 0x5C || c = 0x2F then some c
  else if c = 0x62 then some 0x08
  else if c = 0x66 then some 0x0C
  else if c = 0x6E then some 0x0A
  else if c = 0x72 then some 0x0D
  else if c = 0x74 then some 0x09
  else none

def wordToken (s : JsString) : Option Token :=
  if s = text "true" then some (.scalar (.bool true))
  else if s = text "false" then some (.scalar (.bool false))
  else if s = text "null" then some (.scalar .null)
  else none

/-- The token that ends where the next one begins. -/
def Lexing.finish : Lexing → Option (List Token)
  | .between => some []
  | .number read => (jsonNumber read.reverse).map fun x => [.scalar (.num x)]
  | .word read => (wordToken read.reverse).map fun t => [t]
  | .string _ | .escape _ | .unicode _ _ => none

/-- A code unit outside strings and apart from what precedes it. -/
def startToken (c : CodeUnit) : Option (List Token × Lexing) :=
  if isJsonSpace c then some ([], .between)
  else if c = 0x22 then some ([], .string [])
  else if c = 0x2D || isDigit 10 c then some ([], .number [c])
  else if isLetter c then some ([], .word [c])
  else (punctuation c).map fun t => ([t], .between)

def Lexing.step (l : Lexing) (c : CodeUnit) : Option (List Token × Lexing) :=
  match l with
  | .string read =>
    if c = 0x22 then some ([.scalar (.str read.reverse)], .between)
    else if c = 0x5C then some ([], .escape read)
    else if c.val < 0x20 then none
    else some ([], .string (c :: read))
  | .escape read =>
    if c = 0x75 then some ([], .unicode read [])
    else (escaped c).map fun e => ([], .string (e :: read))
  | .unicode read digits =>
    if isDigit 16 c then
      let digits := digits ++ [c]
      -- four digits are one code unit, half of a pair included
      if digits.length = 4 then
        some ([], .string (Fin.ofNat _ (digitsValue 16 digits) :: read))
      else some ([], .unicode read digits)
    else none
  | .number read =>
    if isNumberPart c then some ([], .number (c :: read))
    else do
      let done ← Lexing.finish (.number read)
      let (begun, next) ← startToken c
      return (done ++ begun, next)
  -- a word ends like a number does
  | .word read =>
    if isLetter c then some ([], .word (c :: read))
    else do
      let done ← Lexing.finish (.word read)
      let (begun, next) ← startToken c
      return (done ++ begun, next)
  | .between => startToken c

def tokens : Lexing → JsString → Option (List Token)
  | l, [] => l.finish
  | l, c :: rest => do
    let (done, next) ← l.step c
    let later ← tokens next rest
    return done ++ later

/-! ### Values -/

/-- An array or object that is not closed yet, its parts in reverse; an object waits for the value
of its last key. -/
inductive Frame
  | array (elements : List Json)
  | object (members : List (JsString × Json)) (key : JsString)

/-- What has to come next. -/
inductive Awaiting
  | value
  | valueOrClose
  | keyOrClose
  | key (members : List (JsString × Json))
  | colon (members : List (JsString × Json)) (key : JsString)
  | done (v : Json)

structure Parsing where
  stack : List Frame
  next : Awaiting

/-- After a complete value a comma goes on with the innermost frame and a bracket closes it. -/
def afterValue (v : Json) : List Frame → Token → Option Parsing
  | .array elements :: stack, .comma => some ⟨.array (v :: elements) :: stack, .value⟩
  | .array elements :: stack, .closeBracket =>
    some ⟨stack, .done (.arr (v :: elements).reverse)⟩
  | .object members k :: stack, .comma => some ⟨stack, .key ((k, v) :: members)⟩
  | .object members k :: stack, .closeBrace =>
    some ⟨stack, .done (.obj ((k, v) :: members).reverse)⟩
  | _, _ => none

def startValue (stack : List Frame) : Token → Option Parsing
  | .scalar v => some ⟨stack, .done v⟩
  | .openBracket => some ⟨.array [] :: stack, .valueOrClose⟩
  | .openBrace => some ⟨stack, .keyOrClose⟩
  | _ => none

def Parsing.step (p : Parsing) (t : Token) : Option Parsing :=
  match p.next, t with
  | .value, t => startValue p.stack t
  -- an array without elements, and below an object without members
  | .valueOrClose, .closeBracket => some ⟨p.stack.tail, .done (.arr [])⟩
  | .valueOrClose, t => startValue p.stack t
  | .keyOrClose, .closeBrace => some ⟨p.stack, .done (.obj [])⟩
  | .keyOrClose, .scalar (.str k) => some ⟨p.stack, .colon [] k⟩
  | .key members, .scalar (.str k) => some ⟨p.stack, .colon members k⟩
  | .colon members k, .colon => some ⟨.object members k :: p.stack, .value⟩
  | .done v, t => afterValue v p.stack t
  | _, _ => none

/-- `JSON.parse(s)`, which throws a `SyntaxError` where this is `none`. -/
def Json.parse (s : JsString) : Option Json := do
  let ts ← tokens .between s
  let p ← ts.foldlM Parsing.step ⟨[], .value⟩
  match p with
  | ⟨[], .done v⟩ => some v
  | _ => none

/-! ### Looking at values -/

namespace Json

/-- A property of a value other than `null`; `none` is `undefined`. -/
def get (v : Json) (key : JsString) : Option Json :=
  match v with
  -- the last of several members with one key counts
  | .obj members => (members.reverse.find? fun m => m.1 = key).map (·.2)
  | _ => none

theorem get_cons_ne {key key' : JsString} (other : key ≠ key') (v : Json)
    (members : List (JsString × Json)) :
    (obj ((key', v) :: members)).get key = (obj members).get key := by
  have skipped : decide (key' = key) = false := decide_eq_false (Ne.symm other)
  simp only [get, List.reverse_cons, List.find?_append, List.find?_cons, List.find?_nil,
    skipped, Option.or_none]

def isNull : Json → Bool
  | .null => true
  | _ => false

/-- `typeof v === "string"`, with the string. -/
def asString : Json → Option JsString
  | .str s => some s
  | _ => none

/-- `typeof v === "number"`, with the number. -/
def asNumber : Json → Option Number
  | .num x => some x
  | _ => none

/-- `Array.isArray(v)`, with the elements. -/
def asArray : Json → Option (List Json)
  | .arr elements => some elements
  | _ => none

/-- `typeof v === "object"` of a value other than `null`. -/
def isObject : Json → Bool
  | .arr _ | .obj _ => true
  | _ => false

/-- `!!v`. -/
def isTruthy : Json → Bool
  | .null => false
  | .bool b => b
  | .num (.finite x) => x.val ≠ 0
  | .num .nan => false
  | .num (.infinity _) => true
  | .str s => s ≠ []
  | .arr _ | .obj _ => true

/-- An own `toString` is never a function, and without it an object has no text. -/
def hasText (members : List (JsString × Json)) : Bool :=
  (members.find? fun m => m.1 = text "toString").isNone

mutual

/-- `String(v)`, which throws a `TypeError` where this is `none`. -/
def toText : Json → Option JsString
  | .null => some (text "null")
  | .bool b => some (text (if b then "true" else "false"))
  | .num x => some x.toText
  | .str s => some s
  | .arr elements => joinText elements
  | .obj members => if hasText members then some (text "[object Object]") else none

/-- `elements.join()`, where `null` reads as nothing. -/
def joinText : List Json → Option JsString
  | [] => some []
  | [v] => if v.isNull then some [] else v.toText
  | v :: w :: rest => do
    let s ← if v.isNull then some [] else v.toText
    let later ← joinText (w :: rest)
    return s ++ [0x2C] ++ later

end

/-- `Number(v)`, which throws a `TypeError` where this is `none`. -/
def toNumber : Json → Option Number
  | .null => some (.ofRat 0)
  | .bool b => some (.ofRat (if b then 1 else 0))
  | .num x => some x
  | .str s => some (numberOfText s)
  | .arr elements => (joinText elements).map numberOfText
  | .obj members => if hasText members then some .nan else none

/-! ### Writing -/

/-- A code unit as it stands in a string literal, a surrogate on its own being escaped. -/
def quoteUnit (c : CodeUnit) : JsString :=
  if c = 0x22 then text "\\\""
  else if c = 0x5C then text "\\\\"
  else if c = 0x08 then text "\\b"
  else if c = 0x0C then text "\\f"
  else if c = 0x0A then text "\\n"
  else if c = 0x0D then text "\\r"
  else if c = 0x09 then text "\\t"
  else if c.val < 0x20 ∨ (0xD800 ≤ c.val ∧ c.val < 0xE000) then
    text "\\u" ++ [digitUnit (c.val / 0x1000), digitUnit (c.val / 0x100 % 0x10),
      digitUnit (c.val / 0x10 % 0x10), digitUnit (c.val % 0x10)]
  else [c]

def quoteUnits : JsString → JsString
  | [] => []
  | [c] => quoteUnit c
  | c :: d :: rest =>
    -- a proper pair stands as it is
    if 0xD800 ≤ c.val ∧ c.val < 0xDC00 ∧ 0xDC00 ≤ d.val ∧ d.val < 0xE000 then
      c :: d :: quoteUnits rest
    else quoteUnit c ++ quoteUnits (d :: rest)

def quote (s : JsString) : JsString := [0x22] ++ quoteUnits s ++ [0x22]

mutual

/-- `JSON.stringify(v)` of a value whose keys are distinct and not numerals. -/
def stringify : Json → JsString
  | .null => text "null"
  | .bool b => text (if b then "true" else "false")
  | .num (.finite x) => (Number.finite x).toText
  | .num _ => text "null"
  | .str s => quote s
  | .arr elements => [0x5B] ++ stringifyElements elements ++ [0x5D]
  | .obj members => [0x7B] ++ stringifyMembers members ++ [0x7D]

def stringifyElements : List Json → JsString
  | [] => []
  | [v] => stringify v
  | v :: w :: rest => stringify v ++ [0x2C] ++ stringifyElements (w :: rest)

def stringifyMembers : List (JsString × Json) → JsString
  | [] => []
  | [(k, v)] => quote k ++ [0x3A] ++ stringify v
  | (k, v) :: m :: rest =>
    quote k ++ [0x3A] ++ stringify v ++ [0x2C] ++ stringifyMembers (m :: rest)

end

end Json

end Js
