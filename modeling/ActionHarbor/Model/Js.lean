import ActionHarbor.ForStd.Rounding
import Mathlib.Algebra.Ring.Int.Defs
import Mathlib.Algebra.Ring.Nat
import Mathlib.Data.List.Basic

/-!
# JavaScript values

The fragment of JavaScript's data the repository computes with: strings as
UTF-16 code units, numbers, and the values that cross an untrusted boundary
(`unknown` in the source). Accessors and proxies are not values here: reading a
property has no effect.

## Key definitions

- `JsString`, `js`: code-unit strings and the strings of source literals
- `JsNumber`: numbers with `===` as `JsNumber.strictEq`
- `JsValue`, `JsValue.getProp`: values and property reads
- `Host`: what Node and zod contribute and the model does not look inside
-/

namespace ActionHarbor

/-! ## Strings -/

/-- A JavaScript string: its UTF-16 code units. Lone surrogates are allowed. -/
abbrev JsString := List UInt16

/-- The UTF-16 code units of one character. -/
def utf16Units (c : Char) : JsString :=
  if c.val < 0x10000 then [c.val.toUInt16]
  else
    let v := c.val - 0x10000
    [(0xD800 + v / 0x400).toUInt16, (0xDC00 + v % 0x400).toUInt16]

/-- The JavaScript string of a source literal. -/
def js (s : String) : JsString := s.toList.flatMap utf16Units

/-! ## Numbers -/

/-- A non-negative decimal `digits * 10 ^ exponent` in normal form: no trailing
    zero in `digits`. A finite double is identified with the shortest decimal
    `Number::toString` prints for it. -/
structure Decimal where
  digits : Nat
  exponent : Int
  normal : digits % 10 ≠ 0 ∨ (digits = 0 ∧ exponent = 0)
deriving DecidableEq, Repr

/-- Strip trailing zeros: the remaining digits and how many zeros were removed. -/
def stripZeros : Nat → Nat → Nat × Nat
  | 0, n => (n, 0)
  | fuel + 1, n =>
    if n ≠ 0 ∧ n % 10 = 0 then
      let r := stripZeros fuel (n / 10)
      (r.1, r.2 + 1)
    else (n, 0)

/-- Stripping zeros keeps the value. -/
theorem stripZeros_value (fuel n : Nat) :
    (stripZeros fuel n).1 * 10 ^ (stripZeros fuel n).2 = n := by
  induction fuel generalizing n with
  | zero => simp [stripZeros]
  | succ fuel ih =>
    simp only [stripZeros]
    split
    · rename_i h
      have := ih (n / 10)
      calc (stripZeros fuel (n / 10)).1 * 10 ^ ((stripZeros fuel (n / 10)).2 + 1)
          = (stripZeros fuel (n / 10)).1 * 10 ^ (stripZeros fuel (n / 10)).2 * 10 := by
            rw [Nat.pow_succ, Nat.mul_assoc]
        _ = n := by rw [this]; omega
    · simp

/-- With enough fuel the result has no trailing zero. -/
theorem stripZeros_normal (fuel n : Nat) (hn : n ≠ 0) (hfuel : n ≤ fuel) :
    (stripZeros fuel n).1 % 10 ≠ 0 := by
  induction fuel generalizing n with
  | zero => omega
  | succ fuel ih =>
    simp only [stripZeros]
    split
    · exact ih (n / 10) (by omega) (by omega)
    · dsimp only; omega

/-- The decimal of a natural number. -/
def Decimal.ofNat (n : Nat) : Decimal :=
  if h : n = 0 then ⟨0, 0, .inr ⟨rfl, rfl⟩⟩
  else
    ⟨(stripZeros n n).1, (stripZeros n n).2, .inl (stripZeros_normal n n h (Nat.le_refl n))⟩

/-- The decimal `n * 10 ^ exponent`. -/
def Decimal.scaled (n : Nat) (exponent : Int) : Decimal :=
  if h : n = 0 then ⟨0, 0, .inr ⟨rfl, rfl⟩⟩
  else
    ⟨(stripZeros n n).1, (stripZeros n n).2 + exponent,
      .inl (stripZeros_normal n n h (Nat.le_refl n))⟩

/-- A JavaScript number. Zero has two signs. -/
inductive JsNumber where
  | nan
  | infinity (negative : Bool)
  | finite (negative : Bool) (magnitude : Decimal)
deriving DecidableEq, Repr

/-- The number of a natural number. -/
def JsNumber.ofNat (n : Nat) : JsNumber := .finite false (Decimal.ofNat n)

/-- `Number.isFinite`. -/
def JsNumber.isFinite : JsNumber → Bool
  | .finite _ _ => true
  | _ => false

/-- `===` on numbers: `NaN` differs from itself and the two zeros are equal. -/
def JsNumber.strictEq : JsNumber → JsNumber → Bool
  | .nan, _ => false
  | .finite s a, .finite t b => a = b && (s = t || a.digits = 0)
  | x, y => x = y

/-- The double nearest to an integer, ties to even: 53 significant bits. -/
def roundToDouble (i : Int) : Int :=
  i.sign * Nat.roundBits 53 i.natAbs

/-- `i > n` for an integer-valued `i`; every comparison with `NaN` is false. -/
def JsNumber.ltInt (n : JsNumber) (i : Int) : Bool :=
  match n with
  | .nan => false
  | .infinity negative => negative
  | .finite negative d =>
    let digits : Int := if negative then -d.digits else d.digits
    if 0 ≤ d.exponent then digits * 10 ^ d.exponent.toNat < i
    else digits < i * 10 ^ (-d.exponent).toNat

/-- Different naturals are different decimals. -/
theorem Decimal.ofNat_injective {m n : Nat} (h : Decimal.ofNat m = Decimal.ofNat n) : m = n := by
  have value : ∀ k, (Decimal.ofNat k).digits * 10 ^ (Decimal.ofNat k).exponent.toNat = k := by
    intro k
    simp only [Decimal.ofNat]
    split
    · rename_i hk; simp [hk]
    · simpa using stripZeros_value k k
  rw [← value m, h, value n]

/-- `===` on two naturals is equality. -/
@[simp] theorem JsNumber.strictEq_ofNat (m n : Nat) :
    (JsNumber.ofNat m).strictEq (JsNumber.ofNat n) = decide (m = n) := by
  simp only [JsNumber.ofNat, JsNumber.strictEq, decide_true, Bool.true_or, Bool.and_true]
  exact decide_eq_decide.mpr ⟨Decimal.ofNat_injective, fun h => h ▸ rfl⟩

/-- `Number::toString` on a magnitude with at least one digit: the digits `s`,
    `k` of them, stand for `s * 10 ^ (n - k)`. -/
def Decimal.toText (d : Decimal) : JsString :=
  let s := js (Nat.repr d.digits)
  let k : Int := s.length
  let n : Int := k + d.exponent
  let zeros (i : Int) : JsString := List.replicate i.toNat 0x30
  if d.digits = 0 then js "0"
  else if k ≤ n ∧ n ≤ 21 then s ++ zeros (n - k)
  else if 0 < n ∧ n ≤ 21 then s.take n.toNat ++ js "." ++ s.drop n.toNat
  else if -6 < n ∧ n ≤ 0 then js "0." ++ zeros (-n) ++ s
  else
    let e := n - 1
    let tail := js (if e < 0 then "e-" else "e+") ++ js (Nat.repr e.natAbs)
    if k = 1 then s ++ tail else s.take 1 ++ js "." ++ s.drop 1 ++ tail

/-- `String(n)` of a number. The two zeros both print `0`. -/
def JsNumber.toText : JsNumber → JsString
  | .nan => js "NaN"
  | .infinity negative => if negative then js "-Infinity" else js "Infinity"
  | .finite negative d =>
    if negative ∧ d.digits ≠ 0 then js "-" ++ d.toText else d.toText

/-! ## Values -/

/-- A JavaScript value. `hole` stands for a missing element and occurs only
    inside `array`; the properties of an object are its own enumerable
    string-keyed ones, in property order. -/
inductive JsValue where
  | undefined
  | null
  | bool (b : Bool)
  | number (n : JsNumber)
  | string (s : JsString)
  | bigint (i : Int)
  | symbol (description : JsString)
  | function (name : JsString)
  | hole
  | array (items : List JsValue)
  | object (props : List (JsString × JsValue))
  | classInstance (className : JsString) (props : List (JsString × JsValue))
deriving Repr

/-- `value === undefined`. -/
def JsValue.isUndefined : JsValue → Bool
  | .undefined => true
  | _ => false

/-- `value === s` for a string `s`. -/
def JsValue.isString (value : JsValue) (s : JsString) : Bool :=
  match value with
  | .string t => t = s
  | _ => false

/-- The own property `key` of a property list, `undefined` when absent. -/
def propOf (props : List (JsString × JsValue)) (key : JsString) : JsValue :=
  (props.lookup key).getD .undefined

/-- `__proto__`: assigning this name on a plain object creates no own property. -/
def protoKey : JsString := js "__proto__"

/-- Read `value[key]` for a name that no built-in prototype carries. `none` is
    the `TypeError` thrown for `undefined` and `null`. -/
def JsValue.getProp (value : JsValue) (key : JsString) : Option JsValue :=
  match value with
  | .undefined | .null | .hole => none
  | .object props | .classInstance _ props => some (propOf props key)
  | _ => some .undefined

/-! ## Host functions -/

/-- The time value of a valid `Date`, in milliseconds since the epoch. -/
abbrev Instant := Int

/-- `a - b` of two time values. Both are doubles; their difference is rounded to one. -/
def Instant.minus (a b : Instant) : Int := roundToDouble (a - b)

/-- Functions of Node and zod the model takes as given. No law is assumed here;
    a theorem that needs one states it. -/
class Host where
  /-- `createHash("sha256").update(input, "utf8").digest("hex")` -/
  sha256Digest : JsString → JsString
  /-- `new Date(text).getTime()`, `none` for `NaN` -/
  dateParse : JsString → Option Instant
  /-- `new Date(t).toISOString()` -/
  toISOString : Instant → JsString
  /-- the test of `z.string().datetime()` -/
  isoDatetime : JsString → Bool
  /-- the number a decimal literal denotes, its sign first -/
  roundDecimal : Bool → Decimal → JsNumber
  /-- `text.toLowerCase()` -/
  toLowerCase : JsString → JsString

end ActionHarbor
