import ActionHarbor.Spec.JsonNumbers

/-!
# JSON text determines the value

`JSON.parse` undoes `JSON.stringify` on what `canonicalize` returns. Every reader is
run on a text with something behind it and gives back that rest, so no text is a
proper prefix of another one and the encoding is injective through all nesting.

## Key results

- `readString_quoteBody`: a quoted string is read back, lone surrogates included
- `parseValue_stringify`: a printed value is read back, with what stands behind it
- `jsonParse_stringify`: parsing a whole printed text
-/

namespace ActionHarbor

/-! ## Strings -/

/-- A hexadecimal digit is read back. -/
theorem hexValue_hexDigit {n : Nat} (h : n < 16) : hexValue (hexDigit n) = some n := by
  interval_cases n <;> decide

/-- A unit escaped by number is read back. -/
theorem readString_unicodeEscape (u : UInt16) (rest : JsString) :
    readString (unicodeEscape u ++ rest) =
      (readString rest).map fun (units, rest) => (u :: units, rest) := by
  have hu : u.toNat < 65536 := u.toNat_lt
  have hunit : hexUnit (hexDigit (u.toNat / 4096 % 16)) (hexDigit (u.toNat / 256 % 16))
      (hexDigit (u.toNat / 16 % 16)) (hexDigit (u.toNat % 16)) = some u := by
    have hsum : ((u.toNat / 4096 % 16 * 16 + u.toNat / 256 % 16) * 16 + u.toNat / 16 % 16) * 16 +
        u.toNat % 16 = u.toNat := by omega
    simp only [hexUnit, hexValue_hexDigit (Nat.mod_lt _ (by decide : 0 < 16)), bind, Option.bind,
      hsum]
    simp
  have htext : unicodeEscape u ++ rest =
      0x5C :: 0x75 :: hexDigit (u.toNat / 4096 % 16) :: hexDigit (u.toNat / 256 % 16) ::
        hexDigit (u.toNat / 16 % 16) :: hexDigit (u.toNat % 16) :: rest := rfl
  have hescape : (0x5C : UInt16) ≠ 0x22 := by decide
  rw [htext, readString.eq_def]
  simp only [hescape, if_false, if_true, hunit, bind, Option.bind]
  cases readString rest <;> rfl

/-- The closing quote ends a string. -/
theorem readString_close (rest : JsString) : readString (0x22 :: rest) = some ([], rest) := by
  rw [readString.eq_def]
  simp only [if_true]

/-- A unit that needs no escape is read back. -/
theorem readString_raw {u : UInt16} (hquote : u ≠ 0x22) (hescape : u ≠ 0x5C) (hcontrol : ¬ u < 0x20)
    (rest : JsString) :
    readString (u :: rest) = (readString rest).map fun (units, rest) => (u :: units, rest) := by
  rw [readString.eq_def]
  simp only [hquote, hescape, hcontrol, if_false, bind, Option.bind]
  cases readString rest <;> rfl

/-- Half of a surrogate pair needs no escape next to the other half. -/
theorem readString_surrogate {u : UInt16} (h : isHighSurrogate u = true ∨ isLowSurrogate u = true)
    (rest : JsString) :
    readString (u :: rest) = (readString rest).map fun (units, rest) => (u :: units, rest) := by
  have hlarge : 0xD800 ≤ u := by
    rcases h with h | h <;> simp only [isHighSurrogate, isLowSurrogate, Bool.and_eq_true,
      decide_eq_true_eq] at h
    · exact h.1
    · exact UInt16.le_trans (by decide) h.1
  have hnat : 0xD800 ≤ u.toNat := by simpa using UInt16.le_iff_toNat_le.mp hlarge
  apply readString_raw
  · rintro rfl; exact absurd hnat (by decide)
  · rintro rfl; exact absurd hnat (by decide)
  · rw [UInt16.lt_iff_toNat_lt]
    have : (0x20 : UInt16).toNat = 0x20 := rfl
    omega

/-- A unit is read back from its escape. -/
theorem readString_quoteUnit (u : UInt16) (rest : JsString) :
    readString (quoteUnit u ++ rest) =
      (readString rest).map fun (units, rest) => (u :: units, rest) := by
  -- the escapes of two characters
  have simple : ∀ (e : UInt16) (unit : UInt16), simpleEscape e = some unit → e ≠ 0x75 →
      readString (0x5C :: e :: rest) =
        (readString rest).map fun (units, rest) => (unit :: units, rest) := by
    intro e unit he hne
    have hescape : (0x5C : UInt16) ≠ 0x22 := by decide
    rw [readString.eq_def]
    simp only [hescape, if_true, he, hne, bind, Option.bind, if_false]
    cases readString rest <;> rfl
  unfold quoteUnit
  split
  · next h => subst h; exact simple 0x22 0x22 rfl (by decide)
  split
  · next h => subst h; exact simple 0x5C 0x5C rfl (by decide)
  split
  · next h => subst h; exact simple 0x62 0x08 rfl (by decide)
  split
  · next h => subst h; exact simple 0x74 0x09 rfl (by decide)
  split
  · next h => subst h; exact simple 0x6E 0x0A rfl (by decide)
  split
  · next h => subst h; exact simple 0x66 0x0C rfl (by decide)
  split
  · next h => subst h; exact simple 0x72 0x0D rfl (by decide)
  split
  · exact readString_unicodeEscape u rest
  · next hquote hescape _ _ _ _ _ hplain =>
    simp only [Bool.or_eq_true, decide_eq_true_eq, not_or] at hplain
    exact readString_raw hquote hescape hplain.1.1 rest

/-- A string is read back from its quoted body. -/
theorem readString_quoteBody (s rest : JsString) :
    readString (quoteBody s ++ 0x22 :: rest) = some (s, rest) := by
  fun_induction quoteBody s with
  | case1 => exact readString_close rest
  | case2 u =>
    rw [readString_quoteUnit, readString_close]
    rfl
  | case3 u v s hpair ih =>
    obtain ⟨hhigh, hlow⟩ := Bool.and_eq_true_iff.mp hpair
    rw [List.cons_append, List.cons_append, readString_surrogate (.inl hhigh),
      readString_surrogate (.inr hlow), ih]
    rfl
  | case4 u v s hpair ih =>
    rw [List.append_assoc, readString_quoteUnit, ih]
    rfl

/-! ## Values -/

mutual

/-- The value a text printed for a canonical value is read as. -/
def Canonical.reread : Canonical → JsValue
  | .null => .null
  | .bool b => .bool b
  | .number n => if n.isFinite then .number n.reread else .null
  | .string s => .string s
  | .hole => .null
  | .array items => .array (rereadItems items)
  | .object props => objectOfMembers (rereadProps props)

/-- The elements of an array. -/
def Canonical.rereadItems : List Canonical → List JsValue
  | [] => []
  | item :: rest => item.reread :: rereadItems rest

/-- The members of an object. -/
def Canonical.rereadProps : List (JsString × Canonical) → List (JsString × JsValue)
  | [] => []
  | (key, value) :: rest => (key, value.reread) :: rereadProps rest

end

mutual

/-- The host rounds none of the numbers of a value when it reads them. -/
def Canonical.ReadExactly [Host] : Canonical → Prop
  | .number n => n.ReadExactly
  | .array items => ReadExactlyItems items
  | .object props => ReadExactlyProps props
  | _ => True

/-- None of those in the elements of an array. -/
def Canonical.ReadExactlyItems [Host] : List Canonical → Prop
  | [] => True
  | item :: rest => item.ReadExactly ∧ ReadExactlyItems rest

/-- None of those in the members of an object. -/
def Canonical.ReadExactlyProps [Host] : List (JsString × Canonical) → Prop
  | [] => True
  | (_, value) :: rest => value.ReadExactly ∧ ReadExactlyProps rest

end

mutual

/-- Decimals of any length are numbers in this model of Node. -/
theorem Canonical.readExactly_node (c : Canonical) : @Canonical.ReadExactly node c := by
  match c with
  | .number n => exact fun _ _ _ => rfl
  | .array items => exact readExactlyItems_node items
  | .object props => exact readExactlyProps_node props
  | .null | .bool _ | .string _ | .hole => trivial

theorem Canonical.readExactlyItems_node (items : List Canonical) :
    @Canonical.ReadExactlyItems node items := by
  match items with
  | [] => trivial
  | item :: rest => exact ⟨item.readExactly_node, readExactlyItems_node rest⟩

theorem Canonical.readExactlyProps_node (props : List (JsString × Canonical)) :
    @Canonical.ReadExactlyProps node props := by
  match props with
  | [] => trivial
  | (_, value) :: rest => exact ⟨value.readExactly_node, readExactlyProps_node rest⟩

end

/-- No white space in front. -/
theorem skipSpace_cons {u : UInt16} (h : isJsonSpace u = false) (rest : JsString) :
    skipSpace (u :: rest) = u :: rest := by
  simp [skipSpace, h]

/-- The mark that stands there. -/
theorem readMark_self {u : UInt16} (h : isJsonSpace u = false) (rest : JsString) :
    readMark u (u :: rest) = some rest := by
  simp [readMark, skipSpace_cons h]

/-- Another mark stands there. -/
theorem readMark_ne {u mark : UInt16} (h : isJsonSpace u = false) (hne : u ≠ mark)
    (rest : JsString) : readMark mark (u :: rest) = none := by
  simp [readMark, skipSpace_cons h, hne]

/-- A word is read up to its end. -/
theorem readWord_append (word rest : JsString) : readWord word (word ++ rest) = some rest := by
  simp [readWord]

/-- A value may be followed by a separator or a closing bracket. -/
theorem numberEnds_cons {u : UInt16} (h : u = 0x2C ∨ u = 0x5D ∨ u = 0x7D) (rest : JsString) :
    NumberEnds (u :: rest) := by
  intro v hv
  obtain rfl := Option.some.inj hv
  rcases h with rfl | rfl | rfl <;> decide

/-- What a number starts with. -/
theorem head_toText {n : JsNumber} (hn : n.isFinite = true) :
    ∃ u t, n.toText = u :: t ∧ (u = 0x2D ∨ isJsonDigit u = true) := by
  cases n with
  | nan => cases hn
  | infinity negative => cases hn
  | finite negative d =>
    rw [JsNumber.toText]
    split
    · exact ⟨0x2D, d.toText, rfl, .inl rfl⟩
    · obtain ⟨integer, t, -, -, -, hinteger, -⟩ := denotes_toText d numberEnds_nil
      -- a text an integer can be read from starts with a digit
      rw [List.append_nil] at hinteger
      cases htext : d.toText with
      | nil => rw [htext] at hinteger; cases hinteger
      | cons u tail =>
        refine ⟨u, tail, rfl, .inr ?_⟩
        rw [htext] at hinteger
        by_contra hdigit
        have hzero : u ≠ 0x30 := by rintro rfl; exact hdigit rfl
        rw [readInteger] at hinteger
        · simp [readDigits1, hdigit] at hinteger
        · intro rest hrest
          exact hzero (List.cons.inj hrest).1

/-- The units a number starts with start nothing else. -/
theorem numberHead_ne {u : UInt16} (h : u = 0x2D ∨ isJsonDigit u = true) :
    isJsonSpace u = false ∧ u ≠ 0x22 ∧ u ≠ 0x5B ∧ u ≠ 0x7B ∧ u ≠ 0x74 ∧ u ≠ 0x66 ∧ u ≠ 0x6E ∧
      u ≠ 0x5D := by
  have other : ∀ v : UInt16, v ≠ 0x2D → isJsonDigit v = false → u ≠ v := by
    rintro v hminus hdigit rfl
    rcases h with h | h
    · exact hminus h
    · rw [hdigit] at h; cases h
  refine ⟨?_, other _ (by decide) rfl, other _ (by decide) rfl, other _ (by decide) rfl,
    other _ (by decide) rfl, other _ (by decide) rfl, other _ (by decide) rfl,
    other _ (by decide) rfl⟩
  simp [isJsonSpace, other 0x20 (by decide) rfl, other 0x09 (by decide) rfl,
    other 0x0A (by decide) rfl, other 0x0D (by decide) rfl]

/-- A printed value starts with no white space and no closing bracket. -/
theorem head_stringify (c : Canonical) :
    ∃ u t, stringify c = u :: t ∧ isJsonSpace u = false ∧ u ≠ 0x5D := by
  cases c with
  | null => exact ⟨0x6E, _, rfl, rfl, by decide⟩
  | bool b => cases b <;> exact ⟨_, _, rfl, rfl, by decide⟩
  | string s => exact ⟨0x22, _, rfl, rfl, by decide⟩
  | hole => exact ⟨0x6E, _, rfl, rfl, by decide⟩
  | array items => exact ⟨0x5B, _, rfl, rfl, by decide⟩
  | object props => exact ⟨0x7B, _, rfl, rfl, by decide⟩
  | number n =>
    rw [stringify]
    split
    · next hn =>
      obtain ⟨u, t, htext, hhead⟩ := head_toText hn
      obtain ⟨hspace, -, -, -, -, -, -, hclose⟩ := numberHead_ne hhead
      exact ⟨u, t, htext, hspace, hclose⟩
    · exact ⟨0x6E, _, rfl, rfl, by decide⟩

/-- Words and strings, by their first unit. -/
theorem parseValue_atoms [Host] (fuel : Nat) (rest : JsString) :
    parseValue (fuel + 1) (js "null" ++ rest) = some (.null, rest) ∧
      parseValue (fuel + 1) (js "true" ++ rest) = some (.bool true, rest) ∧
      parseValue (fuel + 1) (js "false" ++ rest) = some (.bool false, rest) ∧
      ∀ s, parseValue (fuel + 1) (quote s ++ rest) = some (.string s, rest) := by
  refine ⟨?_, ?_, ?_, ?_⟩
  · have : js "null" ++ rest = 0x6E :: (js "ull" ++ rest) := rfl
    rw [this, parseValue]
    simp [skipSpace_cons, isJsonSpace, readWord_append]
  · have : js "true" ++ rest = 0x74 :: (js "rue" ++ rest) := rfl
    rw [this, parseValue]
    simp [skipSpace_cons, isJsonSpace, readWord_append]
  · have : js "false" ++ rest = 0x66 :: (js "alse" ++ rest) := rfl
    rw [this, parseValue]
    simp [skipSpace_cons, isJsonSpace, readWord_append]
  · intro s
    have : quote s ++ rest = 0x22 :: (quoteBody s ++ 0x22 :: rest) := by
      rw [quote, List.append_assoc]
      rfl
    rw [this, parseValue]
    simp [skipSpace_cons, isJsonSpace, readString_quoteBody]

/-- A number, by its first unit. -/
theorem parseValue_number [Host] (fuel : Nat) {n : JsNumber} (hn : n.isFinite = true)
    (hexact : n.ReadExactly) {rest : JsString} (hrest : NumberEnds rest) :
    parseValue (fuel + 1) (n.toText ++ rest) = some (.number n.reread, rest) := by
  have hread := readNumber_toText n hn hexact hrest
  obtain ⟨u, t, htext, hhead⟩ := head_toText hn
  obtain ⟨hspace, h1, h2, h3, h4, h5, h6, -⟩ := numberHead_ne hhead
  rw [htext, List.cons_append] at hread ⊢
  rw [parseValue]
  simp only [skipSpace_cons hspace, h1, h2, h3, h4, h5, h6, if_false, hread, Option.map_some]

/-- An array text, once its elements are read. -/
theorem parseValue_array [Host] {fuel : Nat} {body tail rest : JsString} {items : List JsValue}
    (hhead : ∃ u t, body = u :: t ∧ isJsonSpace u = false ∧ u ≠ 0x5D)
    (hitems : parseElements fuel (body ++ tail) = some (items, rest)) :
    parseValue (fuel + 1) (0x5B :: (body ++ tail)) = some (.array items, rest) := by
  obtain ⟨u, t, rfl, hspace, hclose⟩ := hhead
  rw [parseValue]
  simp only [skipSpace_cons (rfl : isJsonSpace 0x5B = false)]
  rw [List.cons_append] at hitems ⊢
  rw [readMark_ne hspace hclose]
  simp [hitems]

/-- An object text, once its members are read. -/
theorem parseValue_object [Host] {fuel : Nat} {body tail rest : JsString}
    {members : List (JsString × JsValue)} (hhead : ∃ t, body = 0x22 :: t)
    (hmembers : parseMembers fuel (body ++ tail) = some (members, rest)) :
    parseValue (fuel + 1) (0x7B :: (body ++ tail)) =
      some (objectOfMembers members, rest) := by
  obtain ⟨t, rfl⟩ := hhead
  rw [parseValue]
  simp only [skipSpace_cons (rfl : isJsonSpace 0x7B = false)]
  rw [List.cons_append] at hmembers ⊢
  have hclose : readMark 0x7D (0x22 :: (t ++ tail)) = none := readMark_ne rfl (by decide) _
  simp [hclose, hmembers]

/-- A text joined with commas is not empty when there is something to join. -/
theorem joinCommas_cons (s : JsString) (rest : List JsString) :
    joinCommas (s :: rest) = s ++ (if rest = [] then [] else 0x2C :: joinCommas rest) := by
  cases rest with
  | nil => simp [joinCommas]
  | cons t rest => simp only [joinCommas, List.append_assoc]; rfl

/-- The brackets of an array text. -/
theorem stringify_array (items : List Canonical) :
    stringify (.array items) = 0x5B :: (joinCommas (stringifyItems items) ++ [0x5D]) := by
  rw [stringify, List.append_assoc]
  rfl

/-- The braces of an object text. -/
theorem stringify_object (props : List (JsString × Canonical)) :
    stringify (.object props) = 0x7B :: (joinCommas (stringifyProps props) ++ [0x7D]) := by
  rw [stringify, List.append_assoc]
  rfl

/-- An element list starts as its first element does. -/
theorem head_joinCommas_items (item : Canonical) (items : List Canonical) :
    ∃ u t, joinCommas (stringifyItems (item :: items)) = u :: t ∧ isJsonSpace u = false ∧
      u ≠ 0x5D := by
  obtain ⟨u, t, htext, hu⟩ := head_stringify item
  rw [stringifyItems, joinCommas_cons, htext]
  exact ⟨u, _, rfl, hu⟩

/-- A member list starts with the quote of its first key. -/
theorem head_joinCommas_props (key : JsString) (value : Canonical)
    (props : List (JsString × Canonical)) :
    ∃ t, joinCommas (stringifyProps ((key, value) :: props)) = 0x22 :: t := by
  rw [stringifyProps, joinCommas_cons]
  exact ⟨_, rfl⟩

mutual

/-- A printed value is read back, with what stands behind it. -/
theorem parseValue_stringify [Host] (c : Canonical) (hexact : c.ReadExactly) (fuel : Nat)
    (rest : JsString) (hfuel : 2 * (stringify c).length ≤ fuel) (hrest : NumberEnds rest) :
    parseValue fuel (stringify c ++ rest) = some (c.reread, rest) := by
  obtain ⟨u, t, hhead, -⟩ := head_stringify c
  obtain ⟨fuel, rfl⟩ : ∃ k, fuel = k + 1 :=
    Nat.exists_eq_succ_of_ne_zero (by rw [hhead, List.length_cons] at hfuel; omega)
  obtain ⟨hnull, htrue, hfalse, hstring⟩ := parseValue_atoms fuel rest
  -- a level down costs two units of fuel and at least one character
  match c with
  | .null => exact hnull
  | .bool true => exact htrue
  | .bool false => exact hfalse
  | .string s => exact hstring s
  | .hole => exact hnull
  | .number n =>
    rw [stringify, Canonical.reread]
    split
    · next hn => exact parseValue_number fuel hn hexact hrest
    · exact hnull
  | .array [] =>
    rw [stringify_array, parseValue]
    simp [stringifyItems, joinCommas, skipSpace_cons, readMark_self, isJsonSpace,
      Canonical.reread, Canonical.rereadItems]
  | .array (item :: items) =>
    rw [stringify_array] at hfuel ⊢
    simp only [List.length_cons, List.length_append, List.length_nil] at hfuel
    rw [List.cons_append, List.append_assoc, Canonical.reread]
    exact parseValue_array (head_joinCommas_items item items)
      (parseElements_stringify item items hexact fuel rest (by omega))
  | .object [] =>
    rw [stringify_object, parseValue]
    simp [stringifyProps, joinCommas, skipSpace_cons, readMark_self, isJsonSpace,
      Canonical.reread, Canonical.rereadProps]
    rfl
  | .object ((key, value) :: props) =>
    rw [stringify_object] at hfuel ⊢
    simp only [List.length_cons, List.length_append, List.length_nil] at hfuel
    rw [List.cons_append, List.append_assoc, Canonical.reread]
    exact parseValue_object (head_joinCommas_props key value props)
      (parseMembers_stringify key value props hexact fuel rest (by omega))
termination_by fuel

/-- So are the elements of an array that has some. -/
theorem parseElements_stringify [Host] (item : Canonical) (items : List Canonical)
    (hexact : Canonical.ReadExactlyItems (item :: items)) (fuel : Nat) (rest : JsString)
    (hfuel : 2 * (joinCommas (stringifyItems (item :: items))).length + 1 ≤ fuel) :
    parseElements fuel (joinCommas (stringifyItems (item :: items)) ++ 0x5D :: rest) =
      some (Canonical.rereadItems (item :: items), rest) := by
  obtain ⟨fuel, rfl⟩ : ∃ k, fuel = k + 1 := Nat.exists_eq_succ_of_ne_zero (by omega)
  rw [stringifyItems, joinCommas_cons] at hfuel ⊢
  rw [List.length_append] at hfuel
  match items with
  -- the last element is followed by the bracket, any other by a comma
  | [] =>
    simp only [stringifyItems, if_true, List.append_nil] at hfuel ⊢
    rw [parseElements]
    simp only [parseValue_stringify item hexact.1 fuel (0x5D :: rest) (by omega)
      (numberEnds_cons (.inr (.inl rfl)) rest), bind, Option.bind]
    rw [readMark_ne rfl (by decide)]
    simp [readMark_self, isJsonSpace, Canonical.rereadItems]
  | next :: items =>
    have hne : stringifyItems (next :: items) ≠ [] := by simp [stringifyItems]
    simp only [hne, if_false, List.length_cons] at hfuel ⊢
    rw [List.append_assoc, List.cons_append, parseElements]
    simp only [parseValue_stringify item hexact.1 fuel _ (by omega)
      (numberEnds_cons (.inl rfl) _), bind, Option.bind]
    rw [readMark_self rfl]
    simp only [parseElements_stringify next items hexact.2 fuel rest (by omega)]
    rfl
termination_by fuel

/-- And the members of an object that has some. -/
theorem parseMembers_stringify [Host] (key : JsString) (value : Canonical)
    (props : List (JsString × Canonical))
    (hexact : Canonical.ReadExactlyProps ((key, value) :: props)) (fuel : Nat) (rest : JsString)
    (hfuel : 2 * (joinCommas (stringifyProps ((key, value) :: props))).length + 1 ≤ fuel) :
    parseMembers fuel (joinCommas (stringifyProps ((key, value) :: props)) ++ 0x7D :: rest) =
      some (Canonical.rereadProps ((key, value) :: props), rest) := by
  obtain ⟨fuel, rfl⟩ : ∃ k, fuel = k + 1 := Nat.exists_eq_succ_of_ne_zero (by omega)
  have hmember : ∀ tail, quote key ++ js ":" ++ stringify value ++ tail =
      0x22 :: (quoteBody key ++ 0x22 :: 0x3A :: (stringify value ++ tail)) := by
    intro tail
    simp only [quote, List.append_assoc]
    rfl
  -- a member is its quoted key, a colon and its value
  rw [stringifyProps, joinCommas_cons] at hfuel ⊢
  rw [List.append_assoc (quote key ++ js ":" ++ stringify value), hmember]
  rw [parseMembers]
  simp only [readMark_self (rfl : isJsonSpace 0x22 = false), readString_quoteBody,
    readMark_self (rfl : isJsonSpace 0x3A = false), bind, Option.bind]
  match props with
  | [] =>
    simp only [stringifyProps, if_true, List.nil_append, List.append_nil, List.length_append]
      at hfuel ⊢
    rw [parseValue_stringify value hexact.1 fuel (0x7D :: rest) (by omega)
      (numberEnds_cons (.inr (.inr rfl)) rest)]
    have hcomma : readMark 0x2C (0x7D :: rest) = none := readMark_ne rfl (by decide) rest
    simp [hcomma, readMark_self, isJsonSpace, Canonical.rereadProps]
  | (next, nextValue) :: props =>
    have hne : stringifyProps ((next, nextValue) :: props) ≠ [] := by simp [stringifyProps]
    simp only [hne, if_false, List.length_cons, List.length_append] at hfuel ⊢
    rw [List.cons_append, parseValue_stringify value hexact.1 fuel _ (by omega)
      (numberEnds_cons (.inl rfl) _)]
    simp only [readMark_self (rfl : isJsonSpace 0x2C = false)]
    rw [parseMembers_stringify next nextValue props hexact.2 fuel rest (by omega)]
    rfl
termination_by fuel

end

/-- Parsing a printed text. -/
theorem jsonParse_stringify [Host] (c : Canonical) (hexact : c.ReadExactly) :
    jsonParse (stringify c) = some c.reread := by
  have h := parseValue_stringify c hexact (2 * (stringify c).length + 1) [] (by omega) numberEnds_nil
  rw [List.append_nil] at h
  unfold jsonParse
  rw [h]
  rfl

/-- Values with one text are read as one value. -/
theorem reread_eq_of_stringify_eq {c d : Canonical} (h : stringify c = stringify d) :
    c.reread = d.reread := by
  have hc := @jsonParse_stringify node c c.readExactly_node
  rw [h, @jsonParse_stringify node d d.readExactly_node] at hc
  exact (Option.some.inj hc).symm

end ActionHarbor
