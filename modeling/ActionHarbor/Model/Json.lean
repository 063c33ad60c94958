import ActionHarbor.Model.Hash
import ActionHarbor.Model.Node

/-!
# JSON text

`JSON.parse` on UTF-16 text, by the grammar of the standard, and the byte length
`Buffer.byteLength` counts. A parser takes the text from where it stands to the
value it read and the text behind it; `none` is the `SyntaxError`.

## Key definitions

- `readString`, `readNumber`: the two tokens with an inner grammar
- `parseValue`: one value, its nesting bounded by fuel
- `jsonParse`: a whole text
-/

namespace ActionHarbor

/-! ## Bytes -/

/-- The UTF-8 bytes of a code unit outside a surrogate pair; a lone surrogate is
    encoded as U+FFFD. -/
def unitByteLength (u : UInt16) : Nat :=
  if u < 0x80 then 1 else if u < 0x800 then 2 else 3

/-- `Buffer.byteLength(text, "utf8")`. -/
def utf8ByteLength : JsString → Nat
  | [] => 0
  | [u] => unitByteLength u
  | u :: v :: rest =>
    if isHighSurrogate u && isLowSurrogate v then 4 + utf8ByteLength rest
    else unitByteLength u + utf8ByteLength (v :: rest)

/-! ## Tokens -/

/-- JSON white space, a smaller set than that of JavaScript. -/
def isJsonSpace (u : UInt16) : Bool := u = 0x20 || u = 0x09 || u = 0x0A || u = 0x0D

/-- The text behind leading white space. -/
def skipSpace (text : JsString) : JsString := text.dropWhile isJsonSpace

/-- Read one given code unit behind white space. -/
def readMark (mark : UInt16) (text : JsString) : Option JsString :=
  match skipSpace text with
  | [] => none
  | u :: rest => if u = mark then some rest else none

/-- Read one given word. -/
def readWord (word text : JsString) : Option JsString :=
  if word.isPrefixOf text then some (text.drop word.length) else none

/-- The value of a hexadecimal digit. -/
def hexValue (u : UInt16) : Option Nat :=
  if 0x30 ≤ u ∧ u ≤ 0x39 then some (u.toNat - 0x30)
  else if 0x41 ≤ u ∧ u ≤ 0x46 then some (u.toNat - 0x37)
  else if 0x61 ≤ u ∧ u ≤ 0x66 then some (u.toNat - 0x57)
  else none

/-- The code unit of four hexadecimal digits. -/
def hexUnit (a b c d : UInt16) : Option UInt16 := do
  let a ← hexValue a
  let b ← hexValue b
  let c ← hexValue c
  let d ← hexValue d
  some (((a * 16 + b) * 16 + c) * 16 + d).toUInt16

/-- The code unit of a one-letter escape. -/
def simpleEscape (u : UInt16) : Option UInt16 :=
  if u = 0x22 ∨ u = 0x5C ∨ u = 0x2F then some u
  else if u = 0x62 then some 0x08
  else if u = 0x66 then some 0x0C
  else if u = 0x6E then some 0x0A
  else if u = 0x72 then some 0x0D
  else if u = 0x74 then some 0x09
  else none

/-- A string behind its opening quote, up to and with the closing one. -/
def readString : JsString → Option (JsString × JsString)
  | [] => none
  | u :: rest =>
    if u = 0x22 then some ([], rest)
    else if u = 0x5C then
      match rest with
      | [] => none
      | e :: rest =>
        if e = 0x75 then
          match rest with
          | a :: b :: c :: d :: rest => do
            let unit ← hexUnit a b c d
            let (units, rest) ← readString rest
            some (unit :: units, rest)
          | _ => none
        else do
          let unit ← simpleEscape e
          let (units, rest) ← readString rest
          some (unit :: units, rest)
    -- an unescaped control character ends the parse
    else if u < 0x20 then none
    else do
      let (units, rest) ← readString rest
      some (u :: units, rest)

/-- A decimal digit. -/
def isJsonDigit (u : UInt16) : Bool := 0x30 ≤ u && u ≤ 0x39

/-- The value of decimal digits. -/
def decimalValue (digits : JsString) : Nat :=
  digits.foldl (fun acc u => acc * 10 + (u.toNat - 0x30)) 0

/-- One or more digits. -/
def readDigits1 (text : JsString) : Option (JsString × JsString) :=
  let digits := text.takeWhile isJsonDigit
  if digits.isEmpty then none else some (digits, text.dropWhile isJsonDigit)

/-- The digits before the point: a zero stands alone. -/
def readInteger (text : JsString) : Option (JsString × JsString) :=
  match text with
  | 0x30 :: rest => some ([0x30], rest)
  | _ => readDigits1 text

/-- The digits behind the point, when there is one. -/
def readFraction (text : JsString) : Option (JsString × JsString) :=
  match text with
  | 0x2E :: rest => readDigits1 rest
  | _ => some ([], text)

/-- The exponent, when there is one. -/
def readExponent (text : JsString) : Option (Int × JsString) :=
  match text with
  | [] => some (0, [])
  | u :: rest =>
    if u = 0x65 ∨ u = 0x45 then
      match rest with
      | 0x2B :: rest => (readDigits1 rest).map fun (digits, rest) => (decimalValue digits, rest)
      | 0x2D :: rest => (readDigits1 rest).map fun (digits, rest) => (-decimalValue digits, rest)
      | _ => (readDigits1 rest).map fun (digits, rest) => (decimalValue digits, rest)
    else some (0, text)

section
variable [Host]

/-- A number. -/
def readNumber (text : JsString) : Option (JsNumber × JsString) := do
  let (negative, text) := match text with
    | 0x2D :: rest => (true, rest)
    | _ => (false, text)
  let (integer, text) ← readInteger text
  let (fraction, text) ← readFraction text
  let (exponent, text) ← readExponent text
  let magnitude := Decimal.scaled (decimalValue (integer ++ fraction)) (exponent - fraction.length)
  some (Host.roundDecimal negative magnitude, text)

/-! ## Values -/

omit [Host] in
/-- Define a property: a key that is there keeps its place and changes its value.
    Unlike an assignment this makes `__proto__` an own property. -/
def defineProp (props : List (JsString × JsValue)) (key : JsString) (value : JsValue) :
    List (JsString × JsValue) :=
  if props.any fun p => p.1 = key then
    props.map fun p => if p.1 = key then (key, value) else p
  else props ++ [(key, value)]

omit [Host] in
/-- The object of the members of a text, in the order they are written. -/
def objectOfMembers (members : List (JsString × JsValue)) : JsValue :=
  .object (inPropertyOrder (members.foldl (fun props p => defineProp props p.1 p.2) []))

mutual

/-- One value behind white space. -/
def parseValue : Nat → JsString → Option (JsValue × JsString)
  | 0, _ => none
  | fuel + 1, text =>
    match skipSpace text with
    | [] => none
    | u :: rest =>
      if u = 0x22 then (readString rest).map fun (s, rest) => (.string s, rest)
      else if u = 0x5B then
        match readMark 0x5D rest with
        | some rest => some (.array [], rest)
        | none => (parseElements fuel rest).map fun (items, rest) => (.array items, rest)
      else if u = 0x7B then
        match readMark 0x7D rest with
        | some rest => some (.object [], rest)
        | none => (parseMembers fuel rest).map fun (members, rest) =>
            (objectOfMembers members, rest)
      else if u = 0x74 then (readWord (js "rue") rest).map fun rest => (.bool true, rest)
      else if u = 0x66 then (readWord (js "alse") rest).map fun rest => (.bool false, rest)
      else if u = 0x6E then (readWord (js "ull") rest).map fun rest => (.null, rest)
      else (readNumber (u :: rest)).map fun (n, rest) => (.number n, rest)

/-- The elements of an array, up to and with its closing bracket. -/
def parseElements : Nat → JsString → Option (List JsValue × JsString)
  | 0, _ => none
  | fuel + 1, text => do
    let (item, text) ← parseValue fuel text
    match readMark 0x2C text with
    | some text =>
      let (items, text) ← parseElements fuel text
      some (item :: items, text)
    | none => (readMark 0x5D text).map fun text => ([item], text)

/-- The members of an object, up to and with its closing brace. -/
def parseMembers : Nat → JsString → Option (List (JsString × JsValue) × JsString)
  | 0, _ => none
  | fuel + 1, text => do
    let text ← readMark 0x22 text
    let (key, text) ← readString text
    let text ← readMark 0x3A text
    let (value, text) ← parseValue fuel text
    match readMark 0x2C text with
    | some text =>
      let (members, text) ← parseMembers fuel text
      some ((key, value) :: members, text)
    | none => (readMark 0x7D text).map fun text => ([(key, value)], text)

end

/-- `JSON.parse(text)`. A value, an element list and a member list each start with a
    code unit of their own or hand on to a value, so twice the length is enough fuel. -/
def jsonParse (text : JsString) : Option JsValue := do
  let (value, rest) ← parseValue (2 * text.length + 1) text
  if (skipSpace rest).isEmpty then some value else none

example : ((@jsonParse node
      (js " \x7b\"b\": 1, \"2\": [-2.50e1, null], \"b\": \"\\u0041\"\x7d ")).bind
        fun value => (canonicalize value).toOption.map stringify) =
    some (js "\x7b\"2\":[-25,null],\"b\":\"A\"\x7d") := by
  decide +kernel

end

end ActionHarbor
