import ActionHarbor.Model.Js

/-!
# The host functions of Node

An executable `Host`: SHA-256 over UTF-8, UTC dates in ISO form and zod's
datetime test. No theorem depends on it; runs on concrete inputs do.

## Key definitions

- `utf8`, `sha256`: the digest of a string
- `civilFromDays`, `daysFromCivil`: the proleptic Gregorian calendar
- `isoFromInstant`, `instantFromIso`: `Date` in its ISO form
- `node`: the host
-/

namespace ActionHarbor

/-! ## UTF-8 -/

/-- The UTF-8 bytes of one code point. -/
def utf8Bytes (n : Nat) : List UInt8 :=
  if n < 0x80 then [n.toUInt8]
  else if n < 0x800 then [(0xC0 + n / 0x40).toUInt8, (0x80 + n % 0x40).toUInt8]
  else if n < 0x10000 then
    [(0xE0 + n / 0x1000).toUInt8, (0x80 + n / 0x40 % 0x40).toUInt8, (0x80 + n % 0x40).toUInt8]
  else
    [(0xF0 + n / 0x40000).toUInt8, (0x80 + n / 0x1000 % 0x40).toUInt8,
      (0x80 + n / 0x40 % 0x40).toUInt8, (0x80 + n % 0x40).toUInt8]

/-- A code unit between `low` and `high`. -/
def unitIn (low high u : UInt16) : Bool := low ≤ u && u ≤ high

/-- The UTF-8 text of a string; a lone surrogate becomes U+FFFD. -/
def utf8 : JsString → List UInt8
  | [] => []
  | [u] => utf8Bytes (if unitIn 0xD800 0xDFFF u then 0xFFFD else u.toNat)
  | u :: v :: rest =>
    if unitIn 0xD800 0xDBFF u && unitIn 0xDC00 0xDFFF v then
      utf8Bytes (0x10000 + (u.toNat - 0xD800) * 0x400 + (v.toNat - 0xDC00)) ++ utf8 rest
    else
      utf8Bytes (if unitIn 0xD800 0xDFFF u then 0xFFFD else u.toNat) ++ utf8 (v :: rest)

/-! ## SHA-256 -/

namespace Sha256

/-- The round constants. -/
def roundConstants : List (BitVec 32) :=
  [0x428a2f98, 0x71374491, 0xb5c0fbcf, 0xe9b5dba5, 0x3956c25b, 0x59f111f1, 0x923f82a4, 0xab1c5ed5,
    0xd807aa98, 0x12835b01, 0x243185be, 0x550c7dc3, 0x72be5d74, 0x80deb1fe, 0x9bdc06a7, 0xc19bf174,
    0xe49b69c1, 0xefbe4786, 0x0fc19dc6, 0x240ca1cc, 0x2de92c6f, 0x4a7484aa, 0x5cb0a9dc, 0x76f988da,
    0x983e5152, 0xa831c66d, 0xb00327c8, 0xbf597fc7, 0xc6e00bf3, 0xd5a79147, 0x06ca6351, 0x14292967,
    0x27b70a85, 0x2e1b2138, 0x4d2c6dfc, 0x53380d13, 0x650a7354, 0x766a0abb, 0x81c2c92e, 0x92722c85,
    0xa2bfe8a1, 0xa81a664b, 0xc24b8b70, 0xc76c51a3, 0xd192e819, 0xd6990624, 0xf40e3585, 0x106aa070,
    0x19a4c116, 0x1e376c08, 0x2748774c, 0x34b0bcb5, 0x391c0cb3, 0x4ed8aa4a, 0x5b9cca4f, 0x682e6ff3,
    0x748f82ee, 0x78a5636f, 0x84c87814, 0x8cc70208, 0x90befffa, 0xa4506ceb, 0xbef9a3f7, 0xc67178f2]

/-- The eight working variables. -/
structure Registers where
  (a b c d e f g h : BitVec 32)

/-- The initial hash value. -/
def initial : Registers :=
  ⟨0x6a09e667, 0xbb67ae85, 0x3c6ef372, 0xa54ff53a, 0x510e527f, 0x9b05688c, 0x1f83d9ab, 0x5be0cd19⟩

/-- Extend a message schedule, latest word first, by `n` words. -/
def extend : Nat → List (BitVec 32) → List (BitVec 32)
  | 0, words => words
  | n + 1, words =>
    let w (i : Nat) : BitVec 32 := words.getD (i - 1) 0
    let s0 := (w 15).rotateRight 7 ^^^ (w 15).rotateRight 18 ^^^ w 15 >>> 3
    let s1 := (w 2).rotateRight 17 ^^^ (w 2).rotateRight 19 ^^^ w 2 >>> 10
    extend n ((w 16 + s0 + w 7 + s1) :: words)

/-- One round. -/
def round (r : Registers) (constant word : BitVec 32) : Registers :=
  let s1 := r.e.rotateRight 6 ^^^ r.e.rotateRight 11 ^^^ r.e.rotateRight 25
  let choice := (r.e &&& r.f) ^^^ (~~~r.e &&& r.g)
  let temp1 := r.h + s1 + choice + constant + word
  let s0 := r.a.rotateRight 2 ^^^ r.a.rotateRight 13 ^^^ r.a.rotateRight 22
  let majority := (r.a &&& r.b) ^^^ (r.a &&& r.c) ^^^ (r.b &&& r.c)
  ⟨temp1 + (s0 + majority), r.a, r.b, r.c, r.d + temp1, r.e, r.f, r.g⟩

/-- The rounds of a block. -/
def rounds : Registers → List (BitVec 32) → List (BitVec 32) → Registers
  | r, constant :: constants, word :: words => rounds (round r constant word) constants words
  | r, _, _ => r

/-- The compression function. -/
def compress (r : Registers) (block : List (BitVec 32)) : Registers :=
  let s := rounds r roundConstants (extend 48 block.reverse).reverse
  ⟨r.a + s.a, r.b + s.b, r.c + s.c, r.d + s.d, r.e + s.e, r.f + s.f, r.g + s.g, r.h + s.h⟩

/-- Big-endian words of a byte list. -/
def toWords : List UInt8 → List (BitVec 32)
  | a :: b :: c :: d :: rest =>
    BitVec.ofNat 32 (((a.toNat * 256 + b.toNat) * 256 + c.toNat) * 256 + d.toNat) :: toWords rest
  | _ => []

/-- The message, a one bit, zeros, and the bit length in eight bytes. -/
def pad (message : List UInt8) : List UInt8 :=
  let bits := message.length * 8
  message ++ 0x80 :: List.replicate ((119 - message.length % 64) % 64) 0 ++
    [bits / 2 ^ 56, bits / 2 ^ 48, bits / 2 ^ 40, bits / 2 ^ 32,
      bits / 2 ^ 24, bits / 2 ^ 16, bits / 2 ^ 8, bits].map Nat.toUInt8

/-- Compress the blocks of sixteen words in turn. -/
def absorb : Nat → Registers → List (BitVec 32) → Registers
  | 0, r, _ => r
  | blocks + 1, r, words => absorb blocks (compress r (words.take 16)) (words.drop 16)

/-- The lowercase hexadecimal digits of a word. -/
def hexWord (word : BitVec 32) : JsString :=
  let digit (i : Nat) : UInt16 :=
    let n := word.toNat / 16 ^ i % 16
    (if n < 10 then 0x30 + n else 0x57 + n).toUInt16
  [digit 7, digit 6, digit 5, digit 4, digit 3, digit 2, digit 1, digit 0]

end Sha256

/-- The hexadecimal SHA-256 digest of the UTF-8 text of a string. -/
def sha256 (text : JsString) : JsString :=
  let words := Sha256.toWords (Sha256.pad (utf8 text))
  let r := Sha256.absorb (words.length / 16) Sha256.initial words
  [r.a, r.b, r.c, r.d, r.e, r.f, r.g, r.h].flatMap Sha256.hexWord

example : sha256 (js "abc") =
    js "ba7816bf8f01cfea414140de5dae2223b00361a396177a9cb410ff61f20015ad" := by
  decide +kernel

/-! ## Dates -/

/-- Days from 1970-01-01 to a date of the proleptic Gregorian calendar. -/
def daysFromCivil (year month day : Int) : Int :=
  let y := if month ≤ 2 then year - 1 else year
  let era := y / 400
  let yearOfEra := y - era * 400
  let dayOfYear := (153 * ((month + 9) % 12) + 2) / 5 + day - 1
  let dayOfEra := yearOfEra * 365 + yearOfEra / 4 - yearOfEra / 100 + dayOfYear
  era * 146097 + dayOfEra - 719468

/-- The year, month and day of a day number. -/
def civilFromDays (days : Int) : Int × Int × Int :=
  let z := days + 719468
  let era := z / 146097
  let dayOfEra := z - era * 146097
  let yearOfEra := (dayOfEra - dayOfEra / 1460 + dayOfEra / 36524 - dayOfEra / 146096) / 365
  let dayOfYear := dayOfEra - (365 * yearOfEra + yearOfEra / 4 - yearOfEra / 100)
  let shifted := (5 * dayOfYear + 2) / 153
  let day := dayOfYear - (153 * shifted + 2) / 5 + 1
  let month := if shifted < 10 then shifted + 3 else shifted - 9
  (yearOfEra + era * 400 + (if month ≤ 2 then 1 else 0), month, day)

/-- The last `width` decimal digits of a number. -/
def paddedDigits : Nat → Nat → JsString
  | 0, _ => []
  | width + 1, n => paddedDigits width (n / 10) ++ [(0x30 + n % 10).toUInt16]

/-- `Date.prototype.toISOString`. -/
def isoFromInstant (t : Instant) : JsString :=
  let (year, month, day) := civilFromDays (t / 86400000)
  let ms := (t % 86400000).toNat
  let yearText :=
    if 0 ≤ year ∧ year ≤ 9999 then paddedDigits 4 year.toNat
    else js (if year < 0 then "-" else "+") ++ paddedDigits 6 year.natAbs
  yearText ++ js "-" ++ paddedDigits 2 month.toNat ++ js "-" ++ paddedDigits 2 day.toNat ++
    js "T" ++ paddedDigits 2 (ms / 3600000) ++ js ":" ++ paddedDigits 2 (ms / 60000 % 60) ++
    js ":" ++ paddedDigits 2 (ms / 1000 % 60) ++ js "." ++ paddedDigits 3 (ms % 1000) ++ js "Z"

/-- A decimal digit. -/
def isDigit (u : UInt16) : Bool := unitIn 0x30 0x39 u

/-- The value of decimal digits. -/
def digitsValue (text : JsString) : Nat :=
  text.foldl (fun acc u => acc * 10 + (u.toNat - 0x30)) 0

/-- Read exactly `n` digits; their value and what follows. -/
def readDigits (n : Nat) (text : JsString) : Option (Nat × JsString) :=
  if n ≤ text.length && (text.take n).all isDigit then
    some (digitsValue (text.take n), text.drop n)
  else none

/-- Read one given code unit. -/
def readUnit (u : UInt16) : JsString → Option JsString
  | [] => none
  | v :: rest => if v = u then some rest else none

/-- The number of days of a month. -/
def daysInMonth (year month : Nat) : Nat :=
  if month = 2 then
    if year % 4 = 0 ∧ (year % 100 ≠ 0 ∨ year % 400 = 0) then 29 else 28
  else if month = 4 ∨ month = 6 ∨ month = 9 ∨ month = 11 then 30 else 31

/-- Seconds, fraction and the closing `Z` of a datetime, in milliseconds. -/
def readSeconds (text : JsString) : Option Nat :=
  if text = js "Z" then some 0
  else do
    let text ← readUnit 0x3A text
    let (second, text) ← readDigits 2 text
    if 59 < second then none
    else if text = js "Z" then some (second * 1000)
    else do
      let text ← readUnit 0x2E text
      let fraction := text.takeWhile isDigit
      if fraction.isEmpty || text.dropWhile isDigit ≠ js "Z" then none
      else some (second * 1000 + digitsValue ((fraction ++ js "000").take 3))

/-- The instant of a UTC datetime `YYYY-MM-DDTHH:mm[:ss[.s+]]Z` of the calendar.
    Other texts are not dates here. -/
def instantFromIso (text : JsString) : Option Instant := do
  let (year, text) ← readDigits 4 text
  let (month, text) ← readDigits 2 (← readUnit 0x2D text)
  let (day, text) ← readDigits 2 (← readUnit 0x2D text)
  let (hour, text) ← readDigits 2 (← readUnit 0x54 text)
  let (minute, text) ← readDigits 2 (← readUnit 0x3A text)
  let ms ← readSeconds text
  if 1 ≤ month && month ≤ 12 && 1 ≤ day && day ≤ daysInMonth year month && hour ≤ 23 &&
      minute ≤ 59 then
    some (daysFromCivil year month day * 86400000 + hour * 3600000 + minute * 60000 + ms)
  else none

/-! ## The host -/

/-- Node and zod. A decimal literal is kept as it stands: exact wherever it is the
    shortest decimal of a double. Case folding is that of ASCII. -/
@[reducible] def node : Host where
  sha256Digest := sha256
  dateParse := instantFromIso
  toISOString := isoFromInstant
  isoDatetime text := (instantFromIso text).isSome
  roundDecimal negative d := .finite negative d
  toLowerCase text := text.map fun u => if unitIn 0x41 0x5A u then u + 0x20 else u

example : isoFromInstant 1787400000000 = js "2026-08-22T12:00:00.000Z" := by decide +kernel

example : instantFromIso (js "2026-08-22T12:00:00.000Z") = some 1787400000000 := by decide +kernel

end ActionHarbor
