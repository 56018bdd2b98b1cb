import Mirror.Evm.Abi
import Mirror.Js.Completion
import Mirror.Js.Json

/-! What the handlers of the matching engine share: their results, hex text, calls to contracts
and the outcome log. -/
namespace Mirror

open Evm hiding Byte
open Js

/-- `[dataHexOrNull, status, errorOrNull]`, where status 0 is an error and 1 success. -/
structure HandlerResult where
  data : Option JsString
  status : ℕ
  error : Option JsString
  deriving DecidableEq

/-- What escapes a handler. -/
inductive Thrown
  | typeError
  | rangeError
  | syntaxError
  | invalidAddress
  | integerOutOfRange
  | readContractFailed
  deriving DecidableEq

/-- A part of a handler's body. Where a handler returns early it reports an error, whose message
is the value here. -/
abbrev Body := Completion Thrown JsString

/-- `return [null, 0, message]`. -/
def refusal (message : JsString) : HandlerResult := ⟨none, 0, some message⟩

/-! ### Hex text -/

/-- `hexToBytes(h)`, or the text of its error. -/
def hexToBytes (h : JsString) : Except JsString (List Byte) :=
  -- the mark is optional, in either case
  let s := if startsWith h (text "0x") || startsWith h (text "0X") then h.drop 2 else h
  if s.length % 2 ≠ 0 then
    .error (text "Error: invalid hex: odd length (" ++ decimal s.length ++ text ")")
  else if !s.all (isDigit 16) then .error (text "Error: invalid hex: non-hex characters")
  else .ok (pairBytes s)

def bytesToHex (bytes : List Byte) : JsString := text "0x" ++ bytes.flatMap hexByte

/-- `hexToBytes` in a handler, which reports what is wrong with its message. -/
def decodeHex (msg : JsString) : Body (List Byte) :=
  match hexToBytes msg with
  | .ok bytes => .ok bytes
  | .error e => .returning (text "decoding request: invalid hex: " ++ e)

/-! ### Addresses and calldata -/

/-- `getAddress(s)`, which throws where this is `none`. Its value is the address itself, and
`checksumAddress` of the host is how the address is written. -/
def getAddress : JsString → Option Address
  | 0x30 :: 0x78 :: digits =>
    if digits.length = 40 && digits.all (isDigit 16) then
      some (Fin.ofNat _ (digitsValue 16 digits))
    else none
  | _ => none

/-- `encodeFunctionData`, which throws where an argument is no word. -/
def encodeFunctionData (selector : ℕ) (args : List ℤ) : Option (List Byte) :=
  if args.all fun n => 0 ≤ n ∧ n < 2 ^ 256 then
    some (beBytes 4 selector ++ abiEncode (args.map Int.toNat))
  else none

/-- A setting that is there and not empty. -/
def truthy (setting : Option JsString) : Option JsString := setting.filter fun s => s ≠ []

/-- `v.key` where neither `undefined` nor `null`. -/
def defined (v : Json) (key : JsString) : Option Json := (v.get key).filter fun x => !x.isNull

/-- `typeof s === "string" && s.startsWith("0x") && s.length === 42`, with the string. -/
def addressText (v : Option Json) : Option JsString :=
  (v.bind Json.asString).filter fun s => startsWith s (text "0x") && s.length = 42

/-! ### The outcome log -/

inductive Direction
  | buy
  | sell
  deriving DecidableEq

structure OutcomeRecord where
  lead : JsString
  timestamp : ℕ
  pnlBps : ℤ
  direction : Direction
  sizePct : Number
  deriving DecidableEq

def maxEntries : ℕ := 10000

/-- The log is kept to its newest entries. -/
def appendOutcome (record : OutcomeRecord) (log : List OutcomeRecord) : List OutcomeRecord :=
  let log := log ++ [record]
  -- the oldest go first
  log.drop (log.length - maxEntries)

end Mirror
