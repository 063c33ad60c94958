import ActionHarbor.Model.Json
import Mathlib.Data.List.Induction
import Mathlib.Tactic.Ring
import Mathlib.Tactic.IntervalCases

/-!
# Numbers survive their JSON text

`Number::toString` prints a finite number in one of four layouts, all of them JSON
numbers. Reading such a text back gives the number again, the sign of zero apart:
the two zeros have one text.

## Key results

- `decimalValue_repr`: the digits of a natural number denote it
- `Decimal.scaled_shift`: a decimal is found again from any scaling of its digits
- `readNumber_toText`: a finite number is read back from its text
-/

namespace ActionHarbor

/-! ## Digits -/

/-- One decimal digit as text. -/
theorem js_digitChar (n : Nat) (h : n < 10) :
    utf16Units (Nat.digitChar n) = [(0x30 + n).toUInt16] := by
  interval_cases n <;> decide

/-- The last digit comes off the end. -/
theorem js_repr (n : Nat) :
    js (Nat.repr n) =
      (if n < 10 then [] else js (Nat.repr (n / 10))) ++ [(0x30 + n % 10).toUInt16] := by
  rw [js, Nat.toList_repr, Nat.toDigits_eq_if (by decide)]
  split
  · next h => rw [Nat.mod_eq_of_lt h]; simp [js_digitChar n h]
  · next h =>
    rw [List.flatMap_append, js, Nat.toList_repr]
    simp [js_digitChar (n % 10) (Nat.mod_lt n (by decide))]

/-- A digit unit and its value. -/
theorem digit_unit {n : Nat} (h : n < 10) :
    isJsonDigit (0x30 + n).toUInt16 = true ∧ ((0x30 + n).toUInt16).toNat - 0x30 = n ∧
      (n ≠ 0 → (0x30 + n).toUInt16 ≠ 0x30) := by
  interval_cases n <;> decide

/-- The digits of a natural number are digits. -/
theorem isJsonDigit_of_mem_repr (n : Nat) : ∀ u ∈ js (Nat.repr n), isJsonDigit u = true := by
  induction n using Nat.strongRecOn with
  | ind n ih =>
    rw [js_repr]
    intro u hu
    rcases List.mem_append.mp hu with hu | hu
    · split at hu
      · cases hu
      · next h => exact ih (n / 10) (by omega) u hu
    · obtain rfl := List.mem_singleton.mp hu
      exact (digit_unit (Nat.mod_lt n (by decide))).1

/-- There is at least one digit. -/
theorem repr_ne_nil (n : Nat) : js (Nat.repr n) ≠ [] := by
  rw [js_repr]
  simp

/-- A number other than zero does not start with a zero. -/
theorem head_repr_ne_zero (n : Nat) (h : n ≠ 0) : (js (Nat.repr n)).head? ≠ some 0x30 := by
  induction n using Nat.strongRecOn with
  | ind n ih =>
    rw [js_repr]
    split
    · next hlt =>
      rw [Nat.mod_eq_of_lt hlt]
      simpa using (digit_unit hlt).2.2 h
    · next hge =>
      rw [List.head?_append_of_ne_nil _ (repr_ne_nil _)]
      exact ih (n / 10) (by omega) (by omega)

/-- More digits behind others. -/
theorem decimalValue_append (s t : JsString) :
    decimalValue (s ++ t) = decimalValue s * 10 ^ t.length + decimalValue t := by
  induction t using List.reverseRecOn with
  | nil => simp [decimalValue]
  | append_singleton t u ih =>
    have last : ∀ digits : JsString,
        decimalValue (digits ++ [u]) = decimalValue digits * 10 + (u.toNat - 0x30) := by
      intro digits
      rw [decimalValue, List.foldl_append]
      rfl
    rw [← List.append_assoc, last, ih, last, List.length_append, List.length_singleton]
    ring

/-- Zeros denote zero. -/
theorem decimalValue_zeros (k : Nat) : decimalValue (List.replicate k 0x30) = 0 := by
  induction k with
  | zero => rfl
  | succ k ih =>
    rw [List.replicate_succ', decimalValue_append, ih]
    simp [decimalValue]

/-- The digits of a natural number denote it. -/
theorem decimalValue_repr (n : Nat) : decimalValue (js (Nat.repr n)) = n := by
  induction n using Nat.strongRecOn with
  | ind n ih =>
    have hdigit : decimalValue [(0x30 + n % 10).toUInt16] = n % 10 := by
      simpa [decimalValue] using (digit_unit (Nat.mod_lt n (by decide : 0 < 10))).2.1
    rw [js_repr, decimalValue_append, hdigit]
    split
    · next h => simp [decimalValue, Nat.mod_eq_of_lt h]
    · next h =>
      rw [ih (n / 10) (by omega), List.length_singleton]
      omega

/-! ## Scaling -/

/-- A number has one form with a last digit other than zero. -/
theorem scale_unique {a b i j : Nat} (ha : a % 10 ≠ 0) (hb : b % 10 ≠ 0)
    (h : a * 10 ^ i = b * 10 ^ j) : a = b ∧ i = j := by
  induction i generalizing j with
  | zero =>
    cases j with
    | zero => simpa using h
    | succ j => rw [Nat.pow_zero, Nat.mul_one, Nat.pow_succ, ← Nat.mul_assoc] at h; omega
  | succ i ih =>
    cases j with
    | zero => rw [Nat.pow_zero, Nat.mul_one, Nat.pow_succ, ← Nat.mul_assoc] at h; omega
    | succ j =>
      rw [Nat.pow_succ, Nat.pow_succ, ← Nat.mul_assoc, ← Nat.mul_assoc] at h
      obtain ⟨hab, hij⟩ := ih (Nat.eq_of_mul_eq_mul_right (by decide) h)
      exact ⟨hab, congrArg Nat.succ hij⟩

/-- A decimal is found again from any scaling of its digits. -/
theorem Decimal.scaled_shift (d : Decimal) (hd : d.digits ≠ 0) (j : Nat) {n : Nat} {e : Int}
    (hn : n = d.digits * 10 ^ j) (he : e = d.exponent - j) : Decimal.scaled n e = d := by
  have hnormal : d.digits % 10 ≠ 0 := by
    rcases d.normal with h | h
    · exact h
    · exact absurd h.1 hd
  have hpos : n ≠ 0 := by
    rw [hn]
    exact Nat.mul_ne_zero hd (by positivity)
  obtain ⟨hdigits, hzeros⟩ := scale_unique (stripZeros_normal n n hpos (Nat.le_refl n)) hnormal
    ((stripZeros_value n n).trans hn)
  rw [Decimal.scaled, dif_neg hpos]
  cases d
  simp only [Decimal.mk.injEq]
  exact ⟨hdigits, by rw [hzeros, he]; simp⟩

/-! ## Reading -/

/-- A number ends here: neither a digit nor a point nor an exponent follows. -/
def NumberEnds (rest : JsString) : Prop :=
  ∀ u, rest.head? = some u → isJsonDigit u = false ∧ u ≠ 0x2E ∧ u ≠ 0x65 ∧ u ≠ 0x45

/-- Nothing follows. -/
theorem numberEnds_nil : NumberEnds [] := by
  intro u hu
  cases hu

/-- A digit string is read up to the first unit that is no digit. -/
theorem readDigits1_append (rest : JsString) {digits : JsString} (hne : digits ≠ [])
    (hdigits : ∀ u ∈ digits, isJsonDigit u = true)
    (hrest : ∀ u, rest.head? = some u → isJsonDigit u = false) :
    readDigits1 (digits ++ rest) = some (digits, rest) := by
  have htake : (digits ++ rest).takeWhile isJsonDigit = digits := by
    rw [List.takeWhile_append_of_pos hdigits]
    cases rest with
    | nil => simp
    | cons u rest => simp [hrest u rfl]
  have hdrop : (digits ++ rest).dropWhile isJsonDigit = rest := by
    rw [List.dropWhile_append_of_pos hdigits]
    cases rest with
    | nil => simp
    | cons u rest => simp [hrest u rfl]
  rw [readDigits1, htake, hdrop, if_neg (by simpa using hne)]

/-- So are the digits before the point when they do not start with a zero. -/
theorem readInteger_append (rest : JsString) {digits : JsString} (hne : digits ≠ [])
    (hdigits : ∀ u ∈ digits, isJsonDigit u = true) (hhead : digits.head? ≠ some 0x30)
    (hrest : ∀ u, rest.head? = some u → isJsonDigit u = false) :
    readInteger (digits ++ rest) = some (digits, rest) := by
  rw [← readDigits1_append rest hne hdigits hrest]
  cases digits with
  | nil => exact absurd rfl hne
  | cons u digits =>
    rw [List.cons_append, readInteger]
    intro tail htail
    exact hhead (by rw [List.cons.injEq] at htail; simp [htail.1])

/-- An integer does not start with a sign. -/
theorem readInteger_minus (text : JsString) : readInteger (0x2D :: text) = none := rfl

/-- No fraction where no point follows. -/
theorem readFraction_none {rest : JsString} (h : rest.head? ≠ some 0x2E) :
    readFraction rest = some ([], rest) := by
  rw [readFraction]
  rintro tail rfl
  exact h rfl

/-- No exponent where the number ends. -/
theorem readExponent_none {rest : JsString} (h : NumberEnds rest) :
    readExponent rest = some (0, rest) := by
  cases rest with
  | nil => rfl
  | cons u rest =>
    obtain ⟨-, -, hlower, hupper⟩ := h u rfl
    simp only [readExponent, hlower, hupper, or_self, if_false]

/-- A signed exponent. -/
theorem readExponent_append {rest : JsString} (h : NumberEnds rest) (e : Int) :
    readExponent (js (if e < 0 then "e-" else "e+") ++ js (Nat.repr e.natAbs) ++ rest) =
      some (e, rest) := by
  have hdigits := readDigits1_append rest (repr_ne_nil e.natAbs)
    (isJsonDigit_of_mem_repr e.natAbs) fun u hu => (h u hu).1
  split
  · next hneg =>
    have : js "e-" ++ js (Nat.repr e.natAbs) ++ rest =
        0x65 :: 0x2D :: (js (Nat.repr e.natAbs) ++ rest) := rfl
    rw [this]
    simp only [readExponent, true_or, if_true, hdigits, Option.map_some, decimalValue_repr]
    simp only [Option.some.injEq, Prod.mk.injEq, and_true]
    omega
  · next hpos =>
    have : js "e+" ++ js (Nat.repr e.natAbs) ++ rest =
        0x65 :: 0x2B :: (js (Nat.repr e.natAbs) ++ rest) := rfl
    rw [this]
    simp only [readExponent, true_or, if_true, hdigits, Option.map_some, decimalValue_repr]
    simp only [Option.some.injEq, Prod.mk.injEq, and_true]
    omega

/-- The text splits into the three parts of a number, and they denote the decimal. -/
def Denotes (text : JsString) (d : Decimal) (rest : JsString) : Prop :=
  ∃ integer afterInteger fraction afterFraction exponent,
    readInteger text = some (integer, afterInteger) ∧
    readFraction afterInteger = some (fraction, afterFraction) ∧
    readExponent afterFraction = some (exponent, rest) ∧
    Decimal.scaled (decimalValue (integer ++ fraction)) (exponent - fraction.length) = d

section
variable {d : Decimal} {rest : JsString}

/-- An integer, padded with zeros. -/
theorem denotes_padded (hd : d.digits ≠ 0) (he : 0 ≤ d.exponent) (hrest : NumberEnds rest) :
    Denotes (js (Nat.repr d.digits) ++ List.replicate d.exponent.toNat 0x30 ++ rest) d rest := by
  have hne : js (Nat.repr d.digits) ++ List.replicate d.exponent.toNat 0x30 ≠ [] := by
    simp [repr_ne_nil]
  have hdigits : ∀ u ∈ js (Nat.repr d.digits) ++ List.replicate d.exponent.toNat 0x30,
      isJsonDigit u = true := by
    intro u hu
    rcases List.mem_append.mp hu with hu | hu
    · exact isJsonDigit_of_mem_repr _ u hu
    · rw [List.eq_of_mem_replicate hu]; rfl
  have hhead : (js (Nat.repr d.digits) ++ List.replicate d.exponent.toNat 0x30).head? ≠
      some 0x30 := by
    rw [List.head?_append_of_ne_nil _ (repr_ne_nil _)]
    exact head_repr_ne_zero _ hd
  refine ⟨_, rest, [], rest, 0,
    readInteger_append _ hne hdigits hhead fun u hu => (hrest u hu).1,
    readFraction_none fun h => (hrest _ h).2.1 rfl, readExponent_none hrest, ?_⟩
  apply Decimal.scaled_shift d hd d.exponent.toNat
  · rw [List.append_nil, decimalValue_append, decimalValue_repr, decimalValue_zeros,
      List.length_replicate, Nat.add_zero]
  · simp [he]

/-- The point among the digits, then what comes behind the fraction. -/
theorem denotes_pointed (hd : d.digits ≠ 0) {m : Nat} (hm : 0 < m)
    (hlen : m < (js (Nat.repr d.digits)).length) {tail : JsString} {exponent : Int}
    (htail : ∀ u, tail.head? = some u → isJsonDigit u = false)
    (hexponent : readExponent tail = some (exponent, rest))
    (he : exponent = d.exponent + ((js (Nat.repr d.digits)).length - m)) :
    Denotes ((js (Nat.repr d.digits)).take m ++ js "." ++ (js (Nat.repr d.digits)).drop m ++ tail)
      d rest := by
  have htake : (js (Nat.repr d.digits)).take m ≠ [] := by
    rw [← List.length_pos_iff, List.length_take]
    omega
  have hdrop : (js (Nat.repr d.digits)).drop m ≠ [] := by
    rw [← List.length_pos_iff, List.length_drop]
    omega
  have hhead : ((js (Nat.repr d.digits)).take m).head? ≠ some 0x30 := by
    rw [List.head?_take, if_neg (by omega)]
    exact head_repr_ne_zero _ hd
  have hinteger := readInteger_append (js "." ++ (js (Nat.repr d.digits)).drop m ++ tail)
    htake (fun u hu => isJsonDigit_of_mem_repr _ u (List.mem_of_mem_take hu)) hhead
    (by intro u hu; obtain rfl := Option.some.inj hu; rfl)
  have hfraction := readDigits1_append tail hdrop
    (fun u hu => isJsonDigit_of_mem_repr _ u (List.mem_of_mem_drop hu)) htail
  refine ⟨(js (Nat.repr d.digits)).take m, 0x2E :: ((js (Nat.repr d.digits)).drop m ++ tail), _,
    tail, exponent, ?_, hfraction, hexponent, ?_⟩
  · rw [← List.append_assoc, ← List.append_assoc] at hinteger
    exact hinteger
  · apply Decimal.scaled_shift d hd 0
    · rw [List.take_append_drop, decimalValue_repr, Nat.pow_zero, Nat.mul_one]
    · rw [List.length_drop, he]
      omega

/-- A fraction below one. -/
theorem denotes_below_one (hd : d.digits ≠ 0) {zeros : Nat}
    (he : d.exponent = -((js (Nat.repr d.digits)).length + zeros : Nat))
    (hrest : NumberEnds rest) :
    Denotes (js "0." ++ List.replicate zeros 0x30 ++ js (Nat.repr d.digits) ++ rest) d rest := by
  have hne : List.replicate zeros 0x30 ++ js (Nat.repr d.digits) ≠ [] := by
    simp [repr_ne_nil]
  have hdigits : ∀ u ∈ List.replicate zeros 0x30 ++ js (Nat.repr d.digits),
      isJsonDigit u = true := by
    intro u hu
    rcases List.mem_append.mp hu with hu | hu
    · rw [List.eq_of_mem_replicate hu]; rfl
    · exact isJsonDigit_of_mem_repr _ u hu
  have hfraction := readDigits1_append rest hne hdigits fun u hu => (hrest u hu).1
  refine ⟨[0x30], 0x2E :: (List.replicate zeros 0x30 ++ js (Nat.repr d.digits) ++ rest),
    _, rest, 0, ?_, hfraction, readExponent_none hrest, ?_⟩
  · rw [List.append_assoc, List.append_assoc, ← List.append_assoc (List.replicate _ _)]
    rfl
  · apply Decimal.scaled_shift d hd 0
    · have hzero : decimalValue [0x30] = 0 := rfl
      rw [decimalValue_append, decimalValue_append, decimalValue_zeros, decimalValue_repr, hzero]
      simp
    · rw [List.length_append, List.length_replicate, he]
      omega

/-- An integer and an exponent. -/
theorem denotes_scientific (hd : d.digits ≠ 0) {tail : JsString}
    (htail : ∀ u, tail.head? = some u → isJsonDigit u = false ∧ u ≠ 0x2E)
    (hexponent : readExponent tail = some (d.exponent, rest)) :
    Denotes (js (Nat.repr d.digits) ++ tail) d rest := by
  refine ⟨_, tail, [], tail, d.exponent,
    readInteger_append _ (repr_ne_nil _) (isJsonDigit_of_mem_repr _) (head_repr_ne_zero _ hd)
      fun u hu => (htail u hu).1,
    readFraction_none fun h => (htail _ h).2 rfl, hexponent, ?_⟩
  apply Decimal.scaled_shift d hd 0
  · rw [List.append_nil, decimalValue_repr, Nat.pow_zero, Nat.mul_one]
  · simp

/-- The text of a decimal denotes it, in whichever layout it is printed. -/
theorem denotes_toText (d : Decimal) (hrest : NumberEnds rest) :
    Denotes (d.toText ++ rest) d rest := by
  have hpos : 0 < (js (Nat.repr d.digits)).length := List.length_pos_iff.mpr (repr_ne_nil _)
  unfold Decimal.toText
  dsimp only
  by_cases hd : d.digits = 0
  · rw [if_pos hd]
    have hzero : d.exponent = 0 := by
      rcases d.normal with h | h
      · omega
      · exact h.2
    refine ⟨[0x30], rest, [], rest, 0, rfl, readFraction_none fun h => (hrest _ h).2.1 rfl,
      readExponent_none hrest, ?_⟩
    cases d
    simp only at hd hzero
    subst hd hzero
    rfl
  rw [if_neg hd]
  generalize hk : (js (Nat.repr d.digits)).length = k at hpos ⊢
  split
  · next h =>
    -- digits and zeros, a point inside, a point before, or an exponent
    have he : (k : Int) + d.exponent - k = d.exponent := by omega
    rw [he]
    exact denotes_padded hd (by omega) hrest
  split
  · next _ h =>
    exact denotes_pointed hd (by omega) (by omega) (fun u hu => (hrest u hu).1)
      (readExponent_none hrest) (by omega)
  split
  · next h =>
    exact denotes_below_one hd (by omega) hrest
  · have htail : ∀ e : Int, ∀ u,
        (js (if e < 0 then "e-" else "e+") ++ js (Nat.repr e.natAbs) ++ rest).head? = some u →
          isJsonDigit u = false ∧ u ≠ 0x2E := by
      intro e u hu
      split at hu <;> (obtain rfl := Option.some.inj hu; exact ⟨rfl, by decide⟩)
    split
    · next h =>
      rw [List.append_assoc]
      exact denotes_scientific hd (htail _) (by rw [readExponent_append hrest]; congr 2; omega)
    · next h =>
      rw [List.append_assoc]
      exact denotes_pointed hd (by omega) (by omega) (fun u hu => (htail _ u hu).1)
        (readExponent_append hrest _) (by omega)

end

/-- The number a text of `n` is read as: the two zeros are one. -/
def JsNumber.reread : JsNumber → JsNumber
  | .finite negative d => .finite (negative && d.digits ≠ 0) d
  | n => n

/-- The host does not round the number when it reads it. -/
def JsNumber.ReadExactly [Host] (n : JsNumber) : Prop :=
  ∀ sign d, n.reread = .finite sign d → Host.roundDecimal sign d = .finite sign d

/-- A finite number that is not rounded is read back from its text. -/
theorem readNumber_toText [Host] (n : JsNumber) (hn : n.isFinite = true) (hexact : n.ReadExactly)
    {rest : JsString} (hrest : NumberEnds rest) :
    readNumber (n.toText ++ rest) = some (n.reread, rest) := by
  cases n with
  | nan => cases hn
  | infinity negative => cases hn
  | finite negative d =>
    obtain ⟨integer, t, fraction, t', exponent, hinteger, hfraction, hexponent, hscaled⟩ :=
      denotes_toText d hrest
    rw [JsNumber.toText]
    split
    · next h =>
      have hsign : js "-" ++ d.toText ++ rest = 0x2D :: (d.toText ++ rest) := rfl
      rw [hsign]
      unfold readNumber
      simp only [hinteger, hfraction, hexponent, hscaled, bind, Option.bind, JsNumber.reread]
      simp only [h.1, ne_eq, h.2, not_false_eq_true, decide_true, Bool.and_self]
      rw [hexact true d (by simp [JsNumber.reread, h])]
    · next h =>
      have hreread : (JsNumber.finite negative d).reread = .finite false d := by
        cases negative
        · rfl
        · simp only [JsNumber.reread, JsNumber.finite.injEq, and_true]
          simpa using h
      rw [hreread]
      unfold readNumber
      split
      next sign text hsign =>
      split at hsign
      -- digits do not begin with a sign
      · next tail htext =>
        rw [htext, readInteger_minus] at hinteger
        cases hinteger
      · obtain ⟨rfl, rfl⟩ := Prod.mk.inj hsign
        simp only [hinteger, hfraction, hexponent, hscaled, bind, Option.bind]
        rw [hexact false d hreread]

end ActionHarbor
