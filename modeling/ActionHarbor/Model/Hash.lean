import ActionHarbor.Model.Js
import Mathlib.Data.List.Sort

/-!
# Canonical JSON and its hash

`canonicalize`, `hashCanonical` and `computeProposalHash` of the domain package,
with the part of `JSON.stringify` they print through.
-/

namespace ActionHarbor

/-! ## Canonical values -/

/-- What `canonicalize` returns. A `hole` is a missing array element that
    `Array.prototype.map` carried over. -/
inductive Canonical where
  | null
  | bool (b : Bool)
  | number (n : JsNumber)
  | string (s : JsString)
  | hole
  | array (items : List Canonical)
  | object (props : List (JsString × Canonical))
deriving Repr

/-- The `TypeError`s of `canonicalize`. -/
inductive CanonicalizeError where
  | nonFinite (text : JsString)
  | undefinedField (key : JsString)
  | unsupported (type : JsString)
deriving DecidableEq, Repr

/-- The message of a `TypeError` thrown by `canonicalize`. -/
def CanonicalizeError.message : CanonicalizeError → JsString
  | .nonFinite text =>
    js "canonicalize: non-finite number is not hashable (" ++ text ++ js ")"
  | .undefinedField key =>
    js "canonicalize: field \"" ++ key ++ js "\" is undefined; omit it explicitly instead"
  | .unsupported type => js "canonicalize: unsupported value of type " ++ type

/-- The value of a canonical array index (`"0"`, `"17"`, not `"01"`). -/
def arrayIndex (key : JsString) : Option Nat :=
  let n := key.foldl (fun acc u => acc * 10 + (u.toNat - 0x30)) 0
  if key.all (fun u => 0x30 ≤ u && u ≤ 0x39) && key = js (Nat.repr n) && n < 2 ^ 32 - 1
  then some n else none

/-- Property order: array indices ascending, then the other keys as inserted. -/
def inPropertyOrder {α : Type} (props : List (JsString × α)) : List (JsString × α) :=
  let indexed := props.filter fun p => (arrayIndex p.1).isSome
  let named := props.filter fun p => (arrayIndex p.1).isNone
  indexed.insertionSort (fun p q => (arrayIndex p.1).getD 0 ≤ (arrayIndex q.1).getD 0) ++ named

/-- The object built by assigning each entry in turn to `{}`. -/
def assignAll {α : Type} (entries : List (JsString × α)) : List (JsString × α) :=
  inPropertyOrder (entries.filter fun p => p.1 ≠ protoKey)

/-- `Object.keys(input).sort()`: by code units. -/
def sortKeys {α : Type} (props : List (JsString × α)) : List (JsString × α) :=
  props.insertionSort fun p q => p.1 ≤ q.1

/-- Run the entries in order and keep the first error. -/
def collect {ε α : Type} : List (JsString × Except ε α) → Except ε (List (JsString × α))
  | [] => .ok []
  | (key, entry) :: rest => do
    let value ← entry
    let values ← collect rest
    .ok ((key, value) :: values)

/-- The loop over the sorted keys of an object, given the outcome of its body at
    each field. -/
def canonicalizeObject (fields : List (JsString × Except CanonicalizeError Canonical)) :
    Except CanonicalizeError Canonical :=
  (collect (sortKeys fields)).map fun entries => .object (assignAll entries)

mutual

/-- Rebuild plain JSON data with sorted keys, rejecting what has no lossless
    JSON text. A class instance is walked like a plain object: the source only
    asks for `typeof value === "object"`. -/
def canonicalize : JsValue → Except CanonicalizeError Canonical
  | .null => .ok .null
  | .bool b => .ok (.bool b)
  | .string s => .ok (.string s)
  | .number n => if n.isFinite then .ok (.number n) else .error (.nonFinite n.toText)
  | .array items => (canonicalizeItems items).map .array
  | .object props => canonicalizeObject (canonicalizeFields props)
  | .classInstance _ props => canonicalizeObject (canonicalizeFields props)
  | .undefined => .error (.unsupported (js "undefined"))
  | .hole => .error (.unsupported (js "undefined"))
  | .bigint _ => .error (.unsupported (js "bigint"))
  | .symbol _ => .error (.unsupported (js "symbol"))
  | .function _ => .error (.unsupported (js "function"))

/-- `value.map((item) => canonicalize(item))`: holes are skipped and stay holes. -/
def canonicalizeItems : List JsValue → Except CanonicalizeError (List Canonical)
  | [] => .ok []
  | .hole :: rest => (canonicalizeItems rest).map (.hole :: ·)
  | item :: rest => do
    let value ← canonicalize item
    let values ← canonicalizeItems rest
    .ok (value :: values)

/-- The loop body at each field, in the order the object lists them. -/
def canonicalizeFields :
    List (JsString × JsValue) → List (JsString × Except CanonicalizeError Canonical)
  | [] => []
  | (key, .undefined) :: rest => (key, .error (.undefinedField key)) :: canonicalizeFields rest
  | (key, value) :: rest => (key, canonicalize value) :: canonicalizeFields rest

end

/-! ## JSON text -/

/-- A lowercase hexadecimal digit. -/
def hexDigit (n : Nat) : UInt16 := (if n < 10 then 0x30 + n else 0x57 + n).toUInt16

/-- `\uXXXX` of a code unit. -/
def unicodeEscape (u : UInt16) : JsString :=
  let n := u.toNat
  js "\\u" ++
    [hexDigit (n / 4096 % 16), hexDigit (n / 256 % 16), hexDigit (n / 16 % 16), hexDigit (n % 16)]

/-- A code unit of the high half of a surrogate pair. -/
def isHighSurrogate (u : UInt16) : Bool := 0xD800 ≤ u && u ≤ 0xDBFF

/-- A code unit of the low half of a surrogate pair. -/
def isLowSurrogate (u : UInt16) : Bool := 0xDC00 ≤ u && u ≤ 0xDFFF

/-- The escape of a code unit that is not part of a surrogate pair. -/
def quoteUnit (u : UInt16) : JsString :=
  if u = 0x22 then js "\\\""
  else if u = 0x5C then js "\\\\"
  else if u = 0x08 then js "\\b"
  else if u = 0x09 then js "\\t"
  else if u = 0x0A then js "\\n"
  else if u = 0x0C then js "\\f"
  else if u = 0x0D then js "\\r"
  else if u < 0x20 || isHighSurrogate u || isLowSurrogate u then unicodeEscape u
  else [u]

/-- The body of `QuoteJSONString`: surrogate pairs are kept, lone surrogates escaped. -/
def quoteBody : JsString → JsString
  | [] => []
  | [u] => quoteUnit u
  | u :: v :: rest =>
    if isHighSurrogate u && isLowSurrogate v then u :: v :: quoteBody rest
    else quoteUnit u ++ quoteBody (v :: rest)

/-- `QuoteJSONString`. -/
def quote (s : JsString) : JsString := js "\"" ++ quoteBody s ++ js "\""

/-- Concatenate with commas. -/
def joinCommas : List JsString → JsString
  | [] => []
  | [s] => s
  | s :: rest => s ++ js "," ++ joinCommas rest

mutual

/-- `JSON.stringify` without indentation, on canonical values. -/
def stringify : Canonical → JsString
  | .null => js "null"
  | .bool b => if b then js "true" else js "false"
  | .number n => if n.isFinite then n.toText else js "null"
  | .string s => quote s
  | .hole => js "null"
  | .array items => js "[" ++ joinCommas (stringifyItems items) ++ js "]"
  | .object props => js "\x7b" ++ joinCommas (stringifyProps props) ++ js "\x7d"

/-- The texts of the elements of an array. -/
def stringifyItems : List Canonical → List JsString
  | [] => []
  | item :: rest => stringify item :: stringifyItems rest

/-- The `"key":value` texts of an object. -/
def stringifyProps : List (JsString × Canonical) → List JsString
  | [] => []
  | (key, value) :: rest => (quote key ++ js ":" ++ stringify value) :: stringifyProps rest

end

/-! ## Hashes -/

section
variable [Host]

/-- `sha256:` and the hexadecimal digest of the UTF-8 text. -/
def sha256Hex (input : JsString) : JsString := js "sha256:" ++ Host.sha256Digest input

/-- Deterministic hash of any canonicalizable value. -/
def hashCanonical (value : JsValue) : Except CanonicalizeError JsString :=
  (canonicalize value).map fun canonical => sha256Hex (stringify canonical)

/-- The plan a proposal hash pins down. -/
structure ProposalHashInput where
  schemaVersion : JsString
  actionType : JsString
  resourceId : JsString
  parameters : JsValue
  evidenceRefs : List JsString

/-- The canonical plan hash: evidence is sorted first, so its order is immaterial. -/
def computeProposalHash (input : ProposalHashInput) : Except CanonicalizeError JsString :=
  hashCanonical (.object [
    (js "schemaVersion", .string input.schemaVersion),
    (js "actionType", .string input.actionType),
    (js "resourceId", .string input.resourceId),
    (js "parameters", input.parameters),
    (js "evidenceRefs", .array ((input.evidenceRefs.insertionSort (· ≤ ·)).map .string))])

end

end ActionHarbor
