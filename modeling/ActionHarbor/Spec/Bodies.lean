import ActionHarbor.Model.Http
import ActionHarbor.Spec.CanonicalText

/-!
# Bodies on the wire

What one side sends as JSON the other side reads as the same data: printing keeps every
part, the text has no lone surrogates and survives UTF-8, and it does not matter how the
network cuts the bytes into chunks. Only the limit on their number does.

## Key results

- `utf8Text_utf8`: a well-formed text survives its bytes
- `jsonData_printsAs`: printed data is read as the same data
- `readJsonBody_flatten`: the chunks of a body do not matter
- `readJsonBody_sent`: a body from `JSON.stringify` to `readJsonBody`
-/

namespace ActionHarbor

/-! ## Text and bytes -/

/-- Node's encoder is the one of the standard. -/
theorem utf8Bytes_eq (n : Nat) : utf8Bytes n = Utf.encode n := rfl

/-- The surrogate ranges, as the encoder asks for them. -/
private theorem unitIn_surrogate (u : UInt16) :
    (unitIn 0xD800 0xDBFF u = true ↔ Utf.IsHigh u) ∧
      (unitIn 0xDC00 0xDFFF u = true ↔ Utf.IsLow u) ∧
      (unitIn 0xD800 0xDFFF u = true ↔ ¬ Utf.IsScalar u.toNat) := by
  have hu : u.toNat < 0x10000 := u.toNat_lt
  simp only [unitIn, Bool.and_eq_true, decide_eq_true_eq, UInt16.le_iff_toNat_le, Utf.IsHigh,
    Utf.IsLow, Utf.IsScalar, UInt16.reduceToNat]
  exact ⟨trivial, trivial, by omega⟩

/-- `utf8`, code point by code point. -/
theorem utf8_eq_flatMap {text : JsString} (h : Utf.WellFormed text) :
    utf8 text = (Utf.codePoints text).flatMap Utf.encode := by
  fun_induction Utf.codePoints text with
  | case1 => rfl
  | case2 u =>
    have hu : Utf.IsScalar u.toNat := h _ (by simp [Utf.codePoints])
    have hscalar : unitIn 0xD800 0xDFFF u = false :=
      Bool.eq_false_iff.mpr fun hin => (unitIn_surrogate u).2.2.mp hin hu
    rw [utf8, hscalar]
    simp [utf8Bytes_eq]
  | case3 u v rest hpair ih =>
    have hrest : Utf.WellFormed rest := fun n hn => h n (by simp [Utf.codePoints, hpair, hn])
    rw [utf8, if_pos (by simp [(unitIn_surrogate u).1, (unitIn_surrogate v).2.1, hpair]),
      ih hrest, List.flatMap_cons]
    rfl
  | case4 u v rest hpair ih =>
    have hu : Utf.IsScalar u.toNat := h _ (by simp [Utf.codePoints, hpair])
    have hrest : Utf.WellFormed (v :: rest) :=
      fun n hn => h n (by simp [Utf.codePoints, hpair, hn])
    have hscalar : unitIn 0xD800 0xDFFF u = false :=
      Bool.eq_false_iff.mpr fun hin => (unitIn_surrogate u).2.2.mp hin hu
    rw [utf8, if_neg (by simp [(unitIn_surrogate u).1, (unitIn_surrogate v).2.1, hpair]), hscalar,
      ih hrest, List.flatMap_cons]
    simp [utf8Bytes_eq]

/-- A well-formed text survives its bytes. -/
theorem utf8Text_utf8 {text : JsString} (h : Utf.WellFormed text) : utf8Text (utf8 text) = text := by
  rw [utf8Text, utf8_eq_flatMap h, Utf.decode_flatMap_encode h, Utf.flatMap_units_codePoints]

/-! ## Printed texts are well formed -/

/-- Nothing but ASCII. -/
def IsAscii (s : JsString) : Prop := ∀ u ∈ s, u < 0x80

instance (s : JsString) : Decidable (IsAscii s) :=
  List.decidableBAll (· < 0x80) s

/-- Two ASCII texts make an ASCII text. -/
theorem IsAscii.append {s t : JsString} (hs : IsAscii s) (ht : IsAscii t) : IsAscii (s ++ t) :=
  fun u hu => (List.mem_append.mp hu).elim (hs u) (ht u)

/-- An ASCII text has no surrogates, so it is well formed. -/
theorem IsAscii.wellFormed {s : JsString} (h : IsAscii s) : Utf.WellFormed s := by
  refine Utf.wellFormed_of_forall fun u hu => .inl ?_
  have hsmall : u.toNat < 0x80 := UInt16.lt_iff_toNat_lt.mp (h u hu)
  omega

/-- A hexadecimal digit is an ASCII character. -/
private theorem hexDigit_lt {n : Nat} (h : n < 16) : hexDigit n < 0x80 := by
  interval_cases n <;> decide

/-- An escape, or a unit that is no surrogate. -/
private theorem wellFormed_quoteUnit (u : UInt16) : Utf.WellFormed (quoteUnit u) := by
  unfold quoteUnit
  split
  · exact IsAscii.wellFormed (by decide)
  split
  · exact IsAscii.wellFormed (by decide)
  split
  · exact IsAscii.wellFormed (by decide)
  split
  · exact IsAscii.wellFormed (by decide)
  split
  · exact IsAscii.wellFormed (by decide)
  split
  · exact IsAscii.wellFormed (by decide)
  split
  · exact IsAscii.wellFormed (by decide)
  split
  · refine IsAscii.wellFormed fun v hv => ?_
    rw [unicodeEscape, List.mem_append] at hv
    rcases hv with hv | hv
    · have hmark : IsAscii (js "\\u") := by decide
      exact hmark v hv
    · simp only [List.mem_cons, List.not_mem_nil, or_false] at hv
      rcases hv with rfl | rfl | rfl | rfl <;> exact hexDigit_lt (Nat.mod_lt _ (by decide))
  · rename_i hplain
    refine Utf.wellFormed_of_forall fun v hv => ?_
    rw [List.mem_singleton.mp hv]
    simp only [isHighSurrogate, isLowSurrogate, Bool.or_eq_true, Bool.and_eq_true,
      decide_eq_true_eq, UInt16.le_iff_toNat_le, UInt16.toNat_ofNat, not_or] at hplain
    have hu : u.toNat < 0x10000 := u.toNat_lt
    unfold Utf.IsScalar
    omega

/-- What stands between the quotes of a JSON string is well formed: a lone surrogate is escaped. -/
private theorem wellFormed_quoteBody (s : JsString) : Utf.WellFormed (quoteBody s) := by
  fun_induction quoteBody s with
  | case1 => exact Utf.wellFormed_nil
  | case2 u => exact wellFormed_quoteUnit u
  | case3 u v rest hpair ih =>
    -- a pair is kept
    simp only [isHighSurrogate, isLowSurrogate, Bool.and_eq_true, decide_eq_true_eq,
      UInt16.le_iff_toNat_le, UInt16.toNat_ofNat] at hpair
    exact (Utf.wellFormed_pair hpair.1 hpair.2).append ih
  | case4 u v rest hpair ih => exact (wellFormed_quoteUnit u).append ih

/-- A JSON string is well formed, whatever it quotes. -/
private theorem wellFormed_quote (s : JsString) : Utf.WellFormed (quote s) :=
  ((IsAscii.wellFormed (by decide)).append (wellFormed_quoteBody s)).append
    (IsAscii.wellFormed (by decide))

/-- Well-formed texts joined by commas are well formed. -/
private theorem wellFormed_joinCommas {texts : List JsString}
    (h : ∀ text ∈ texts, Utf.WellFormed text) : Utf.WellFormed (joinCommas texts) := by
  induction texts with
  | nil => exact Utf.wellFormed_nil
  | cons text rest ih =>
    have htext := h text List.mem_cons_self
    have hrest := ih fun t ht => h t (List.mem_cons_of_mem text ht)
    cases rest with
    | nil => exact htext
    | cons next rest => exact (htext.append (IsAscii.wellFormed (by decide))).append hrest

/-- The decimal digits of a natural number are ASCII. -/
private theorem isAscii_repr (n : Nat) : IsAscii (js (Nat.repr n)) := by
  intro u hu
  have hdigit := isJsonDigit_of_mem_repr n u hu
  simp only [isJsonDigit, Bool.and_eq_true, decide_eq_true_eq] at hdigit
  exact UInt16.lt_of_le_of_lt hdigit.2 (by decide)

/-- A run of zeros is ASCII. -/
private theorem isAscii_zeros (n : Nat) : IsAscii (List.replicate n 0x30) := by
  intro u hu
  rw [List.eq_of_mem_replicate hu]
  decide

/-- A magnitude prints digits, zeros, a point and an exponent. -/
private theorem Decimal.isAscii_toText (d : Decimal) : IsAscii d.toText := by
  have hdigits := isAscii_repr d.digits
  have htake : ∀ n, IsAscii ((js (Nat.repr d.digits)).take n) :=
    fun n u hu => hdigits u (List.mem_of_mem_take hu)
  have hdrop : ∀ n, IsAscii ((js (Nat.repr d.digits)).drop n) :=
    fun n u hu => hdigits u (List.mem_of_mem_drop hu)
  have hexponent : ∀ e : Int, IsAscii (js (if e < 0 then "e-" else "e+") ++ js (Nat.repr e.natAbs)) := by
    intro e
    refine IsAscii.append ?_ (isAscii_repr _)
    split <;> decide
  unfold toText
  dsimp only
  split
  · decide
  split
  · exact hdigits.append (isAscii_zeros _)
  split
  · exact ((htake _).append (by decide)).append (hdrop _)
  split
  · exact (IsAscii.append (by decide) (isAscii_zeros _)).append hdigits
  split
  · exact hdigits.append (hexponent _)
  · exact (((htake _).append (by decide)).append (hdrop _)).append (hexponent _)

/-- A number prints ASCII. -/
private theorem JsNumber.isAscii_toText (n : JsNumber) : IsAscii n.toText := by
  cases n with
  | nan => decide
  | infinity negative => cases negative <;> decide
  | finite negative d =>
    rw [toText]
    split
    · exact IsAscii.append (by decide) d.isAscii_toText
    · exact d.isAscii_toText

mutual

/-- No printed text has a lone surrogate. -/
theorem wellFormed_stringify (c : Canonical) : Utf.WellFormed (stringify c) := by
  match c with
  | .null | .hole => exact IsAscii.wellFormed (by decide)
  | .bool b => cases b <;> exact IsAscii.wellFormed (by decide)
  | .string s => exact wellFormed_quote s
  | .number n =>
    rw [stringify]
    split
    · exact n.isAscii_toText.wellFormed
    · exact IsAscii.wellFormed (by decide)
  | .array items =>
    rw [stringify]
    exact ((IsAscii.wellFormed (by decide)).append
      (wellFormed_joinCommas (wellFormed_stringifyItems items))).append
      (IsAscii.wellFormed (by decide))
  | .object props =>
    rw [stringify]
    exact ((IsAscii.wellFormed (by decide)).append
      (wellFormed_joinCommas (wellFormed_stringifyProps props))).append
      (IsAscii.wellFormed (by decide))

/-- Every item of a JSON array is well formed. -/
theorem wellFormed_stringifyItems (items : List Canonical) :
    ∀ text ∈ stringifyItems items, Utf.WellFormed text := by
  match items with
  | [] => exact fun _ h => by cases h
  | item :: rest =>
    rintro text (_ | ⟨_, htext⟩)
    · exact wellFormed_stringify item
    · exact wellFormed_stringifyItems rest text htext

/-- Every member of a JSON object is well formed. -/
theorem wellFormed_stringifyProps (props : List (JsString × Canonical)) :
    ∀ text ∈ stringifyProps props, Utf.WellFormed text := by
  match props with
  | [] => exact fun _ h => by cases h
  | (key, value) :: rest =>
    rintro text (_ | ⟨_, htext⟩)
    · exact ((wellFormed_quote key).append (IsAscii.wellFormed (by decide))).append
        (wellFormed_stringify value)
    · exact wellFormed_stringifyProps rest text htext

end

/-! ## Printed data is read as the same data -/

/-- Every property, under another name than `__proto__`. -/
theorem isJsonProps_iff {props : List (JsString × JsValue)} :
    isJsonProps props = true ↔ ∀ p ∈ props, p.1 ≠ protoKey ∧ isJsonData p.2 = true := by
  induction props with
  | nil => simp [isJsonProps]
  | cons p rest ih =>
    obtain ⟨key, value⟩ := p
    simp [ih, and_assoc]

/-- JSON data is the same as itself. -/
theorem sameJson_refl {v : JsValue} (hv : isJsonData v = true) : sameJson v v = true := by
  obtain ⟨c, hc⟩ := hashable_of_isPlainJson v (isPlainJson_of_isJsonData v hv)
  have h := sameJson_reread v c hv hc
  exact sameJson_euclid v v c.reread hv hv h h

/-- To be the same JSON data is symmetric between JSON data. -/
theorem sameJson_symm {v w : JsValue} (hv : isJsonData v = true) (hw : isJsonData w = true)
    (h : sameJson v w = true) : sameJson w v = true :=
  sameJson_euclid w v w hw hv (sameJson_refl hw) h

/-- Between JSON data one direction of the comparison gives the other. -/
theorem SameJson.of_sameJson {v w : JsValue} (hv : isJsonData v = true)
    (hw : isJsonData w = true) (h : sameJson v w = true) : SameJson v w :=
  ⟨h, sameJson_symm hv hw h⟩

/-- A printed value, and the data it is read as. -/
structure PrintsAs (v : JsValue) (c : Canonical) : Prop where
  data : isJsonData c.reread = true
  same : sameJson v c.reread = true

/-- The properties of a read object, when each was printed. -/
private theorem printsAs_object {props : List (JsString × JsValue)}
    {members : List (JsString × Canonical)} (hdistinct : (AssocList.keys props).Nodup)
    (hdata : isJsonProps props = true)
    (hmembers : List.Forall₂ (fun p member => member.1 = p.1 ∧ PrintsAs p.2 member.2) props
      members) : PrintsAs (.object props) (.object members) := by
  have hkeys : AssocList.keys (Canonical.rereadProps members) = AssocList.keys props := by
    rw [rereadProps_eq, AssocList.keys, List.map_map]
    refine List.ext_getElem (by simp [hmembers.length_eq]) fun i hi hi' => ?_
    simp only [List.length_map] at hi hi'
    simpa using (hmembers.get hi' hi).1
  have hnodup : (AssocList.keys (Canonical.rereadProps members)).Nodup := hkeys ▸ hdistinct
  have hperm := inPropertyOrder_perm (Canonical.rereadProps members)
  have hread : (Canonical.object members).reread =
      .object (inPropertyOrder (Canonical.rereadProps members)) := by
    rw [Canonical.reread, objectOfMembers_eq hnodup]
  -- each property is found where its member was printed
  have hfound : ∀ p ∈ props, ∃ member ∈ members, member.1 = p.1 ∧ PrintsAs p.2 member.2 := by
    intro p hp
    obtain ⟨i, hi, rfl⟩ := List.getElem_of_mem hp
    have hi' : i < members.length := hmembers.length_eq ▸ hi
    exact ⟨members[i], List.getElem_mem hi', hmembers.get hi hi'⟩
  constructor
  · rw [hread, isJsonData_object]
    refine ⟨(hperm.map Prod.fst).nodup_iff.mpr hnodup, isJsonProps_iff.mpr fun p hp => ?_⟩
    rw [hperm.mem_iff, rereadProps_eq] at hp
    obtain ⟨member, hmember, rfl⟩ := List.mem_map.mp hp
    obtain ⟨i, hi, rfl⟩ := List.getElem_of_mem hmember
    have hi' : i < props.length := hmembers.length_eq ▸ hi
    obtain ⟨hkey, hprints⟩ := hmembers.get hi' hi
    have hkey : members[i].1 = props[i].1 := hkey
    refine ⟨?_, hprints.data⟩
    dsimp only
    rw [hkey]
    exact (isJsonProps_iff.mp hdata _ (List.getElem_mem hi')).1
  · rw [hread, sameJson, Bool.and_eq_true, decide_eq_true_eq]
    refine ⟨?_, sameProps_of_forall fun key value hmem => ?_⟩
    · rw [hperm.length_eq, rereadProps_eq, List.length_map, hmembers.length_eq]
    · obtain ⟨member, hmember, hkey, hprints⟩ := hfound _ hmem
      refine ⟨member.2.reread, ?_, hprints.same⟩
      rw [← AssocList.lookup_perm hperm.symm hnodup, AssocList.lookup_eq_some_iff_mem hnodup,
        rereadProps_eq]
      exact List.mem_map.mpr ⟨member, hmember, Prod.ext hkey rfl⟩

mutual

/-- JSON data prints in full, and is read as the same data. -/
theorem jsonData_printsAs (v : JsValue) (hv : isJsonData v = true) :
    ∃ c, jsonData v = .ok (some c) ∧ PrintsAs v c := by
  match v with
  | .null => exact ⟨.null, rfl, rfl, rfl⟩
  | .bool b => exact ⟨.bool b, rfl, rfl, by simp [Canonical.reread, sameJson]⟩
  | .string s => exact ⟨.string s, rfl, rfl, by simp [Canonical.reread, sameJson]⟩
  | .number n =>
    have hfinite : n.isFinite = true := hv
    cases n with
    | nan => cases hfinite
    | infinity negative => cases hfinite
    | finite negative d =>
      refine ⟨.number (.finite negative d), rfl, rfl, ?_⟩
      cases negative <;>
        simp [Canonical.reread, JsNumber.reread, JsNumber.isFinite, sameJson, JsNumber.strictEq]
  | .array items =>
    obtain ⟨cs, hcs, hdata, hsame⟩ := jsonItems_printsAs items hv
    exact ⟨.array cs, by rw [jsonData, hcs]; rfl, hdata, hsame⟩
  | .object props =>
    obtain ⟨hdistinct, hdata⟩ := isJsonData_object.mp hv
    obtain ⟨members, hmembers, hprints⟩ := jsonProps_printsAs props hdata
    exact ⟨.object members, by rw [jsonData, hmembers]; rfl,
      printsAs_object hdistinct hdata hprints⟩
  | .undefined | .bigint _ | .symbol _ | .function _ | .hole | .classInstance _ _ => cases hv

/-- So do the elements of an array. -/
theorem jsonItems_printsAs (items : List JsValue) (hitems : isJsonItems items = true) :
    ∃ cs, jsonItems items = .ok cs ∧ isJsonItems (Canonical.rereadItems cs) = true ∧
      sameItems items (Canonical.rereadItems cs) = true := by
  match items with
  | [] => exact ⟨[], rfl, rfl, rfl⟩
  | item :: rest =>
    obtain ⟨hitem, hrest⟩ := isJsonItems_cons.mp hitems
    obtain ⟨c, hc, hprints⟩ := jsonData_printsAs item hitem
    obtain ⟨cs, hcs, hdata, hsame⟩ := jsonItems_printsAs rest hrest
    refine ⟨c :: cs, by rw [jsonItems, hc, hcs]; rfl, ?_, ?_⟩
    · exact isJsonItems_cons.mpr ⟨hprints.data, hdata⟩
    · rw [Canonical.rereadItems, sameItems, hprints.same, hsame]
      rfl

/-- And the members of an object. -/
theorem jsonProps_printsAs (props : List (JsString × JsValue)) (hdata : isJsonProps props = true) :
    ∃ members, jsonProps props = .ok members ∧
      List.Forall₂ (fun p member => member.1 = p.1 ∧ PrintsAs p.2 member.2) props members := by
  match props with
  | [] => exact ⟨[], rfl, .nil⟩
  | (key, value) :: rest =>
    obtain ⟨-, hvalue, hrest⟩ := isJsonProps_cons.mp hdata
    obtain ⟨c, hc, hprints⟩ := jsonData_printsAs value hvalue
    obtain ⟨members, hmembers, hall⟩ := jsonProps_printsAs rest hrest
    exact ⟨(key, c) :: members, by rw [jsonProps, hc, hmembers]; rfl, .cons ⟨rfl, hprints⟩ hall⟩

end

/-! ## Chunks -/

/-- What a body of these bytes is read as, however it arrives. -/
def bodyOf [Host] (bytes : List UInt8) : Except RequestError JsValue :=
  if maxBodyBytes < bytes.length then
    .error (.orchestrator .invalidState (js "request body too large"))
  else if bytes.isEmpty then .ok (.object [])
  else
    match jsonParse (utf8Text bytes) with
    | some value => .ok value
    | none => .error (.orchestrator .invalidState (js "request body is not valid JSON"))

/-- The loop gives up once the bytes so far are too many, and hands on the chunks otherwise. -/
private theorem readChunks_eq (total : Nat) (chunks req : List (List UInt8)) :
    readChunks total chunks req =
      if maxBodyBytes < total + req.flatten.length ∧ req ≠ [] then
        .error (.orchestrator .invalidState (js "request body too large"))
      else .ok (chunks ++ req) := by
  induction req generalizing total chunks with
  | nil => simp [readChunks]
  | cons chunk rest ih =>
    rw [readChunks, List.flatten_cons, List.length_append]
    by_cases hlarge : maxBodyBytes < total + chunk.length
    · rw [if_pos hlarge, if_pos ⟨by omega, List.cons_ne_nil _ _⟩]
    · rw [if_neg hlarge, ih, List.append_assoc, List.singleton_append, ← Nat.add_assoc]
      by_cases hrest : rest = []
      · subst hrest
        rw [if_neg (by simp), if_neg fun h => hlarge (by simpa using h.1)]
      · simp [hrest]

/-- The chunks of a body do not matter; none of them is empty. -/
theorem readJsonBody_flatten [Host] {req : List (List UInt8)} (hchunks : [] ∉ req) :
    readJsonBody req = bodyOf req.flatten := by
  have hempty : req.flatten.isEmpty = true ↔ req = [] := by
    rw [List.isEmpty_iff, List.flatten_eq_nil_iff]
    refine ⟨fun h => List.eq_nil_iff_forall_not_mem.mpr fun chunk hmem => ?_, fun h => by simp [h]⟩
    exact hchunks (h chunk hmem ▸ hmem)
  rw [readJsonBody, readChunks_eq, bodyOf, Nat.zero_add, List.nil_append]
  by_cases hreq : req = []
  · subst hreq
    rfl
  · have hnonempty : req.flatten.isEmpty = false := Bool.eq_false_iff.mpr fun h => hreq (hempty.mp h)
    by_cases hlarge : maxBodyBytes < req.flatten.length
    · rw [if_pos ⟨hlarge, hreq⟩, if_pos hlarge]
      rfl
    · rw [if_neg fun h => hlarge h.1, if_neg hlarge, hnonempty]
      show (if req.length = 0 then _ else _) = _
      rw [if_neg (by simpa using hreq)]
      rfl

/-- A body from `JSON.stringify` to `readJsonBody`. -/
theorem readJsonBody_sent [Host] {value : JsValue} (hvalue : isJsonData value = true)
    (hexact : ∀ c, jsonData value = .ok (some c) → c.ReadExactly) :
    ∃ text received, jsonText value = .ok (some text) ∧ isJsonData received = true ∧
      SameJson value received ∧
      ∀ chunks, [] ∉ chunks → chunks.flatten = utf8 text →
        readJsonBody chunks =
          if maxBodyBytes < (utf8 text).length then
            .error (.orchestrator .invalidState (js "request body too large"))
          else .ok received := by
  obtain ⟨c, hc, hprints⟩ := jsonData_printsAs value hvalue
  refine ⟨stringify c, c.reread, by rw [jsonText, hc]; rfl, hprints.data,
    .of_sameJson hvalue hprints.data hprints.same, fun chunks hchunks hbytes => ?_⟩
  have htext := utf8Text_utf8 (wellFormed_stringify c)
  have hparsed := jsonParse_stringify c (hexact c hc)
  -- no printed text is empty
  have hnonempty : (utf8 (stringify c)).isEmpty = false := by
    rw [Bool.eq_false_iff, ne_eq, List.isEmpty_iff]
    intro hnil
    rw [hnil] at htext
    obtain ⟨u, t, hhead, -⟩ := head_stringify c
    rw [hhead] at htext
    cases htext
  rw [readJsonBody_flatten hchunks, hbytes, bodyOf, hnonempty, htext, hparsed]
  rfl

end ActionHarbor
