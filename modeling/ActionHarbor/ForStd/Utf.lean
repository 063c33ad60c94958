import Mathlib.Algebra.Ring.Nat
import Mathlib.Data.List.Basic

/-!
# UTF-16 and UTF-8

Strings of 16-bit units that may hold lone surrogates, and the bytes they travel as.
The reader of UTF-8 is an automaton that takes one byte at a time: it completes a code
point, waits for another byte, or has no place for this one. A lenient reader puts
U+FFFD there, a strict one gives up.

## Key results

- `flatMap_units_codePoints`: a string is its code points
- `codePoints_append`: behind a well-formed string another one can be put
- `reads_encode`: the automaton completes what the encoder wrote
- `decode_of_reads`: the lenient reader, behind one such code point
-/

namespace Utf

/-! ## UTF-16 -/

/-- A code unit of the high half of a surrogate pair. -/
def IsHigh (u : UInt16) : Prop := 0xD800 ≤ u.toNat ∧ u.toNat ≤ 0xDBFF

/-- A code unit of the low half. -/
def IsLow (u : UInt16) : Prop := 0xDC00 ≤ u.toNat ∧ u.toNat ≤ 0xDFFF

instance (u : UInt16) : Decidable (IsHigh u) := inferInstanceAs (Decidable (_ ∧ _))
instance (u : UInt16) : Decidable (IsLow u) := inferInstanceAs (Decidable (_ ∧ _))

/-- A code point that is no surrogate. -/
def IsScalar (n : Nat) : Prop := n < 0xD800 ∨ 0xE000 ≤ n ∧ n < 0x110000

instance (n : Nat) : Decidable (IsScalar n) := inferInstanceAs (Decidable (_ ∨ _))

/-- The code point of a surrogate pair. -/
def ofPair (u v : UInt16) : Nat := 0x10000 + (u.toNat - 0xD800) * 0x400 + (v.toNat - 0xDC00)

/-- The code points of a string; a lone surrogate is one of its own. -/
def codePoints : List UInt16 → List Nat
  | [] => []
  | [u] => [u.toNat]
  | u :: v :: rest =>
    if IsHigh u ∧ IsLow v then ofPair u v :: codePoints rest
    else u.toNat :: codePoints (v :: rest)

/-- The units of a code point. -/
def units (n : Nat) : List UInt16 :=
  if n < 0x10000 then [n.toUInt16]
  else [(0xD800 + (n - 0x10000) / 0x400).toUInt16, (0xDC00 + (n - 0x10000) % 0x400).toUInt16]

/-- No lone surrogates. -/
def WellFormed (s : List UInt16) : Prop := ∀ n ∈ codePoints s, IsScalar n

instance (s : List UInt16) : Decidable (WellFormed s) :=
  inferInstanceAs (Decidable (∀ n ∈ codePoints s, IsScalar n))

theorem units_toNat (u : UInt16) : units u.toNat = [u] := by
  have hu : u.toNat < 0x10000 := u.toNat_lt
  rw [units, if_pos hu]
  simp

theorem units_ofPair {u v : UInt16} (hu : IsHigh u) (hv : IsLow v) :
    units (ofPair u v) = [u, v] := by
  obtain ⟨hu1, hu2⟩ := hu
  obtain ⟨hv1, hv2⟩ := hv
  have hhigh : 0xD800 + (ofPair u v - 0x10000) / 0x400 = u.toNat := by
    unfold ofPair
    omega
  have hlow : 0xDC00 + (ofPair u v - 0x10000) % 0x400 = v.toNat := by
    unfold ofPair
    omega
  have hlarge : ¬ ofPair u v < 0x10000 := by
    unfold ofPair
    omega
  rw [units, if_neg hlarge, hhigh, hlow]
  simp

theorem isScalar_ofPair {u v : UInt16} (hu : IsHigh u) (hv : IsLow v) : IsScalar (ofPair u v) := by
  obtain ⟨hu1, hu2⟩ := hu
  obtain ⟨hv1, hv2⟩ := hv
  unfold IsScalar ofPair
  omega

/-- A string is its code points. -/
@[simp] theorem flatMap_units_codePoints (s : List UInt16) : (codePoints s).flatMap units = s := by
  fun_induction codePoints s with
  | case1 => rfl
  | case2 u => simp [units_toNat]
  | case3 u v rest hpair ih => simp [units_ofPair hpair.1 hpair.2, ih]
  | case4 u v rest hpair ih => simp [units_toNat, ih]

/-- A unit that is no high surrogate stands for itself. -/
theorem codePoints_cons {u : UInt16} (hu : ¬ IsHigh u) (s : List UInt16) :
    codePoints (u :: s) = u.toNat :: codePoints s := by
  cases s with
  | nil => rfl
  | cons v rest => rw [codePoints, if_neg fun h => hu h.1]

theorem not_isHigh_of_isScalar {u : UInt16} (h : IsScalar u.toNat) : ¬ IsHigh u := by
  rintro ⟨h1, h2⟩
  rw [IsScalar] at h
  omega

/-- Behind a well-formed string another one can be put. -/
theorem codePoints_append {s : List UInt16} (hs : WellFormed s) (t : List UInt16) :
    codePoints (s ++ t) = codePoints s ++ codePoints t := by
  fun_induction codePoints s with
  | case1 => rfl
  | case2 u =>
    exact codePoints_cons (not_isHigh_of_isScalar (hs _ (by simp [codePoints]))) t
  | case3 u v rest hpair ih =>
    have hrest : WellFormed rest := fun n hn => hs n (by simp [codePoints, hpair, hn])
    rw [List.cons_append, List.cons_append, codePoints, if_pos hpair, ih hrest, List.cons_append]
  | case4 u v rest hpair ih =>
    have hrest : WellFormed (v :: rest) := fun n hn => hs n (by simp [codePoints, hpair, hn])
    rw [List.cons_append, List.cons_append, codePoints, if_neg hpair, ← List.cons_append, ih hrest,
      List.cons_append]

theorem wellFormed_nil : WellFormed [] := by
  intro n hn
  cases hn

theorem WellFormed.append {s t : List UInt16} (hs : WellFormed s) (ht : WellFormed t) :
    WellFormed (s ++ t) := by
  intro n hn
  rw [codePoints_append hs, List.mem_append] at hn
  exact hn.elim (hs n) (ht n)

/-- Units that are no surrogates. -/
theorem wellFormed_of_forall {s : List UInt16} (h : ∀ u ∈ s, IsScalar u.toNat) : WellFormed s := by
  induction s with
  | nil => exact wellFormed_nil
  | cons u rest ih =>
    have hu := h u List.mem_cons_self
    intro n hn
    rw [codePoints_cons (not_isHigh_of_isScalar hu)] at hn
    rcases List.mem_cons.mp hn with rfl | hn
    · exact hu
    · exact ih (fun v hv => h v (List.mem_cons_of_mem u hv)) n hn

/-- A surrogate pair. -/
theorem wellFormed_pair {u v : UInt16} (hu : IsHigh u) (hv : IsLow v) : WellFormed [u, v] := by
  intro n hn
  simp only [codePoints, hu, hv, and_self, if_true, List.mem_singleton] at hn
  exact hn ▸ isScalar_ofPair hu hv

/-! ## Writing UTF-8 -/

/-- The bytes of a code point. -/
def encode (n : Nat) : List UInt8 :=
  if n < 0x80 then [n.toUInt8]
  else if n < 0x800 then [(0xC0 + n / 0x40).toUInt8, (0x80 + n % 0x40).toUInt8]
  else if n < 0x10000 then
    [(0xE0 + n / 0x1000).toUInt8, (0x80 + n / 0x40 % 0x40).toUInt8, (0x80 + n % 0x40).toUInt8]
  else
    [(0xF0 + n / 0x40000).toUInt8, (0x80 + n / 0x1000 % 0x40).toUInt8,
      (0x80 + n / 0x40 % 0x40).toUInt8, (0x80 + n % 0x40).toUInt8]

/-! ## Reading UTF-8 -/

/-- Inside a sequence: what was read of the code point, how many bytes come after the next
    one, and the range of the next one. -/
structure Partial where
  codePoint : Nat
  afterNext : Nat
  lower : Nat
  upper : Nat

/-- What a byte does. -/
inductive Progress where
  | done (codePoint : Nat)
  | more (state : Partial)

/-- The first byte of a sequence. The ranges of the second one leave out overlong forms,
    surrogates and what is above U+10FFFF. -/
def lead (b : Nat) : Option Progress :=
  if b < 0x80 then some (.done b)
  else if 0xC2 ≤ b ∧ b ≤ 0xDF then some (.more ⟨b - 0xC0, 0, 0x80, 0xBF⟩)
  else if 0xE0 ≤ b ∧ b ≤ 0xEF then
    some (.more
      ⟨b - 0xE0, 1, if b = 0xE0 then 0xA0 else 0x80, if b = 0xED then 0x9F else 0xBF⟩)
  else if 0xF0 ≤ b ∧ b ≤ 0xF4 then
    some (.more
      ⟨b - 0xF0, 2, if b = 0xF0 then 0x90 else 0x80, if b = 0xF4 then 0x8F else 0xBF⟩)
  else none

/-- A later byte. -/
def Partial.next (state : Partial) (b : Nat) : Option Progress :=
  if state.lower ≤ b ∧ b ≤ state.upper then
    let codePoint := state.codePoint * 0x40 + (b - 0x80)
    match state.afterNext with
    | 0 => some (.done codePoint)
    | n + 1 => some (.more ⟨codePoint, n, 0x80, 0xBF⟩)
  else none

/-- One byte, at the start of a sequence or inside one. -/
def step : Option Partial → UInt8 → Option Progress
  | none, b => lead b.toNat
  | some state, b => state.next b.toNat

/-- The lenient reader: a byte without a place ends the sequence with U+FFFD and may start
    another one. -/
def decode : Option Partial → List UInt8 → List Nat
  | none, [] => []
  | some _, [] => [0xFFFD]
  | state, b :: rest =>
    match step state b with
    | some (.done n) => n :: decode none rest
    | some (.more state) => decode (some state) rest
    | none =>
      if state.isNone then 0xFFFD :: decode none rest
      else
        match step none b with
        | some (.done n) => 0xFFFD :: n :: decode none rest
        | some (.more state) => 0xFFFD :: decode (some state) rest
        | none => 0xFFFD :: 0xFFFD :: decode none rest

/-- The automaton takes the bytes and completes the code point at the last one. -/
inductive Reads : Option Partial → List UInt8 → Nat → Prop
  | done (state : Option Partial) (b : UInt8) (n : Nat) (hstep : step state b = some (.done n)) :
      Reads state [b] n
  | more (state : Option Partial) (b : UInt8) (state' : Partial) (bytes : List UInt8) (n : Nat)
      (hstep : step state b = some (.more state')) (hrest : Reads (some state') bytes n) :
      Reads state (b :: bytes) n

/-- The last byte of a sequence. -/
private theorem reads_last {codePoint b n : Nat} (hb : 0x80 ≤ b) (hb' : b ≤ 0xBF)
    (hn : codePoint * 0x40 + (b - 0x80) = n) {state : Partial}
    (hstate : state = ⟨codePoint, 0, 0x80, 0xBF⟩) : Reads (some state) [b.toUInt8] n := by
  subst hstate hn
  refine .done _ _ _ ?_
  have hbyte : b.toUInt8.toNat = b := UInt8.toNat_ofNat_of_lt (show b < 0x100 by omega)
  simp [step, Partial.next, hbyte, hb, hb']

/-- A byte inside a sequence. -/
private theorem reads_next {state : Partial} {b afterNext n : Nat} {bytes : List UInt8}
    (hafter : state.afterNext = afterNext + 1) (hb : state.lower ≤ b) (hb' : b ≤ state.upper)
    (hbyte : b < 0x100)
    (hrest : Reads (some ⟨state.codePoint * 0x40 + (b - 0x80), afterNext, 0x80, 0xBF⟩) bytes n) :
    Reads (some state) (b.toUInt8 :: bytes) n := by
  refine .more _ _ _ _ _ ?_ hrest
  have hbyte : b.toUInt8.toNat = b := UInt8.toNat_ofNat_of_lt hbyte
  simp [step, Partial.next, hbyte, hb, hb', hafter]

/-- The automaton completes what the encoder wrote. -/
theorem reads_encode {n : Nat} (hn : IsScalar n) : Reads none (encode n) n := by
  have hbyte : ∀ b < 0x100, b.toUInt8.toNat = b := fun b hb => UInt8.toNat_ofNat_of_lt hb
  have hlead : ∀ b < 0x100, step none b.toUInt8 = lead b := fun b hb => by
    rw [step, hbyte b hb]
  rw [IsScalar] at hn
  rw [encode]
  split
  · refine .done _ _ _ ?_
    rw [hlead n (by omega), lead, if_pos (by omega)]
  split
  · -- two bytes
    refine .more _ _ ⟨n / 0x40, 0, 0x80, 0xBF⟩ _ _ ?_
      (reads_last (by omega) (by omega) (by omega) rfl)
    rw [hlead _ (by omega), lead, if_neg (by omega), if_pos (by omega)]
    simp
  split
  · -- three bytes
    have hhead : lead (0xE0 + n / 0x1000) = some (.more ⟨n / 0x1000, 1,
        if 0xE0 + n / 0x1000 = 0xE0 then 0xA0 else 0x80,
        if 0xE0 + n / 0x1000 = 0xED then 0x9F else 0xBF⟩) := by
      rw [lead, if_neg (by omega), if_neg (by omega), if_pos (by omega)]
      simp
    refine .more _ _ _ _ _ ((hlead _ (by omega)).trans hhead) ?_
    refine reads_next rfl ?_ ?_ (by omega)
      (reads_last (by omega) (by omega) (by dsimp only; omega) rfl)
    · dsimp only
      split <;> omega
    · dsimp only
      split <;> omega
  · -- four bytes
    have hhead : lead (0xF0 + n / 0x40000) = some (.more ⟨n / 0x40000, 2,
        if 0xF0 + n / 0x40000 = 0xF0 then 0x90 else 0x80,
        if 0xF0 + n / 0x40000 = 0xF4 then 0x8F else 0xBF⟩) := by
      rw [lead, if_neg (by omega), if_neg (by omega), if_neg (by omega), if_pos (by omega)]
      simp
    refine .more _ _ _ _ _ ((hlead _ (by omega)).trans hhead) ?_
    refine reads_next rfl ?_ ?_ (by omega)
      (reads_next rfl (by dsimp only; omega) (by dsimp only; omega) (by omega)
        (reads_last (by omega) (by omega) (by dsimp only; omega) rfl))
    · dsimp only
      split <;> omega
    · dsimp only
      split <;> omega

/-- The lenient reader, behind one completed code point. -/
theorem decode_of_reads {state : Option Partial} {bytes : List UInt8} {n : Nat}
    (h : Reads state bytes n) (rest : List UInt8) :
    decode state (bytes ++ rest) = n :: decode none rest := by
  induction h with
  | done state b n hstep =>
    rw [List.singleton_append, decode, hstep]
  | more state b state' bytes n hstep _ ih =>
    rw [List.cons_append, decode, hstep]
    exact ih

/-- What was encoded code point by code point is decoded so. -/
theorem decode_flatMap_encode {points : List Nat} (h : ∀ n ∈ points, IsScalar n) :
    decode none (points.flatMap encode) = points := by
  induction points with
  | nil => rfl
  | cons n points ih =>
    rw [List.flatMap_cons, decode_of_reads (reads_encode (h n List.mem_cons_self)),
      ih fun m hm => h m (List.mem_cons_of_mem n hm)]

end Utf
