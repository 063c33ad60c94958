import ActionHarbor.Spec.HashChain
import ActionHarbor.Spec.LedgerAppend
import ActionHarbor.Spec.SameJson

/-!
# What canonicalize accepts and forgets

`canonicalize` reads a class instance as the plain object of its own properties
and leaves the holes of an array for `JSON.stringify` to print as `null`;
anything else that is not plain JSON data it rejects. Of plain JSON data it
forgets the order of keys, the sign of zero, and the fields called `__proto__`:
assigning that name makes no own property.

## Key results

- `hashable_iff`: the values `canonicalize` accepts
- `canonicalize_exact_iff`: where it accepts exactly plain JSON data
- `stringify_eq_of_sameJson`: the same value has the same canonical text
- `hashCanonical_exact_iff`: where equal hashes are equal values
-/

namespace ActionHarbor

/-! ## Acceptance -/

mutual

/-- Read each hole of an array as `null` and each class instance as the plain object of
    its own properties. -/
def fillGaps : JsValue → JsValue
  | .array items => .array (fillGapsItems items)
  | .object props => .object (fillGapsProps props)
  | .classInstance _ props => .object (fillGapsProps props)
  | value => value

/-- In the elements of an array. -/
def fillGapsItems : List JsValue → List JsValue
  | [] => []
  | .hole :: rest => .null :: fillGapsItems rest
  | item :: rest => fillGaps item :: fillGapsItems rest

/-- In the properties of an object. -/
def fillGapsProps : List (JsString × JsValue) → List (JsString × JsValue)
  | [] => []
  | (key, value) :: rest => (key, fillGaps value) :: fillGapsProps rest

end

mutual

/-- `canonicalize` accepts what is plain JSON data once its gaps are filled. -/
theorem hashable_iff (v : JsValue) : Hashable v ↔ isPlainJson (fillGaps v) = true := by
  match v with
  | .null | .bool _ | .string _ => simp [fillGaps, isPlainJson, Hashable, canonicalize]
  | .number n =>
    simp only [fillGaps, isPlainJson, Hashable, canonicalize]
    cases n.isFinite <;> simp
  | .array items =>
    rw [hashable_array, fillGaps, isPlainJson]
    exact hashableItems_iff items
  | .object props =>
    rw [hashable_object, fillGaps, isPlainJson]
    exact hashableProps_iff props
  | .classInstance _ props =>
    rw [hashable_classInstance, fillGaps, isPlainJson]
    exact hashableProps_iff props
  | .undefined | .bigint _ | .symbol _ | .function _ | .hole =>
    simp [fillGaps, isPlainJson, Hashable, canonicalize]

/-- So it does with the elements of an array. -/
theorem hashableItems_iff (items : List JsValue) :
    (∀ item ∈ items, item = .hole ∨ Hashable item) ↔
      isPlainJsonItems (fillGapsItems items) = true := by
  match items with
  | [] => simp [fillGapsItems, isPlainJsonItems]
  | item :: rest =>
    rw [List.forall_mem_cons, hashableItems_iff rest]
    by_cases hole : item = .hole
    · subst hole
      simp [fillGapsItems, isPlainJsonItems, isPlainJson]
    · rw [fillGapsItems.eq_3 _ _ hole, isPlainJsonItems, Bool.and_eq_true, hashable_iff item]
      simp [hole]

/-- And with the properties of an object. -/
theorem hashableProps_iff (props : List (JsString × JsValue)) :
    HashableProps props ↔ isPlainJsonProps (fillGapsProps props) = true := by
  match props with
  | [] => simp [fillGapsProps, isPlainJsonProps]
  | (key, value) :: rest =>
    rw [hashableProps_cons, fillGapsProps, isPlainJsonProps, Bool.and_eq_true,
      hashable_iff value, hashableProps_iff rest]

end

/-- `canonicalize` tells plain JSON data from other values exactly where filling the
    gaps of a value does not turn it into plain JSON data. -/
theorem canonicalize_exact_iff (v : JsValue) :
    ((∃ canonical, canonicalize v = .ok canonical) ↔ isPlainJson v = true) ↔
      (isPlainJson (fillGaps v) = true → isPlainJson v = true) := by
  have haccepts : (∃ canonical, canonicalize v = .ok canonical) ↔
      isPlainJson (fillGaps v) = true := hashable_iff v
  have hplain : isPlainJson v = true → isPlainJson (fillGaps v) = true := fun h =>
    haccepts.mp (hashable_of_isPlainJson v h)
  rw [haccepts]
  exact ⟨fun h => h.mp, fun h => ⟨h, hplain⟩⟩

/-! ## The fields of an object in its canonical text -/

/-- A field of an object's text. -/
def fieldText (p : JsString × Canonical) : JsString × JsString := (p.1, stringify p.2)

theorem stringifyProps_eq (props : List (JsString × Canonical)) :
    stringifyProps props = (props.map fieldText).map fun p => quote p.1 ++ js ":" ++ p.2 := by
  induction props with
  | nil => rfl
  | cons p rest ih =>
    rw [stringifyProps, ih]
    rfl

/-- Property order looks at keys only. -/
theorem inPropertyOrder_map {α β : Type} (f : JsString × α → JsString × β)
    (hf : ∀ p, (f p).1 = p.1) (props : List (JsString × α)) :
    (inPropertyOrder props).map f = inPropertyOrder (props.map f) := by
  have hindexed : (fun p : JsString × β => (arrayIndex p.1).isSome) ∘ f =
      fun p => (arrayIndex p.1).isSome := by
    funext p
    simp [hf]
  have hnamed : (fun p : JsString × β => (arrayIndex p.1).isNone) ∘ f =
      fun p => (arrayIndex p.1).isNone := by
    funext p
    simp [hf]
  simp only [inPropertyOrder, List.map_append, List.filter_map, hindexed, hnamed]
  congr 1
  refine List.map_insertionSort _ _ f _ ?_
  intro p _ q _
  rw [hf, hf]

/-- Assigning looks at keys only. -/
theorem assignAll_map {α β : Type} (f : JsString × α → JsString × β) (hf : ∀ p, (f p).1 = p.1)
    (entries : List (JsString × α)) :
    (assignAll entries).map f = assignAll (entries.map f) := by
  have hproto : (fun p : JsString × β => decide (p.1 ≠ protoKey)) ∘ f =
      fun p => decide (p.1 ≠ protoKey) := by
    funext p
    simp [hf]
  rw [assignAll, assignAll, inPropertyOrder_map f hf, List.filter_map, hproto]

/-- Objects whose loops gather the same texts have one text. -/
theorem stringify_object_congr {entries others : List (JsString × Canonical)}
    (hdistinct : (AssocList.keys entries).Nodup)
    (hsorted : entries.Pairwise fun p q => p.1 ≤ q.1)
    (hsorted' : others.Pairwise fun p q => p.1 ≤ q.1)
    (hperm : (entries.map fieldText).Perm (others.map fieldText)) :
    stringify (.object (assignAll entries)) = stringify (.object (assignAll others)) := by
  have htexts : entries.map fieldText = others.map fieldText := by
    refine AssocList.eq_of_sorted (fun a b => List.le_antisymm) ?_ hperm
      (List.pairwise_map.mpr hsorted) (List.pairwise_map.mpr hsorted')
    rwa [AssocList.keys, List.map_map]
  rw [stringify, stringify, stringifyProps_eq, stringifyProps_eq,
    assignAll_map fieldText (fun _ => rfl), assignAll_map fieldText (fun _ => rfl), htexts]

/-! ## The same value, the same text -/

mutual

/-- Data an object literal can spell is plain JSON data. -/
theorem isPlainJson_of_isJsonData (v : JsValue) (h : isJsonData v = true) :
    isPlainJson v = true := by
  match v with
  | .null | .bool _ | .string _ => rfl
  | .number n => exact h
  | .array items => exact isPlainJsonItems_of_isJsonItems items h
  | .object props => exact isPlainJsonProps_of_isJsonProps props (isJsonData_object.mp h).2

/-- So are its elements. -/
theorem isPlainJsonItems_of_isJsonItems (items : List JsValue) (h : isJsonItems items = true) :
    isPlainJsonItems items = true := by
  match items with
  | [] => rfl
  | item :: rest =>
    obtain ⟨hitem, hrest⟩ := isJsonItems_cons.mp h
    rw [isPlainJsonItems, isPlainJson_of_isJsonData item hitem,
      isPlainJsonItems_of_isJsonItems rest hrest]
    rfl

/-- And its properties. -/
theorem isPlainJsonProps_of_isJsonProps (props : List (JsString × JsValue))
    (h : isJsonProps props = true) : isPlainJsonProps props = true := by
  match props with
  | [] => rfl
  | (key, value) :: rest =>
    obtain ⟨-, hvalue, hrest⟩ := isJsonProps_cons.mp h
    rw [isPlainJsonProps, isPlainJson_of_isJsonData value hvalue,
      isPlainJsonProps_of_isJsonProps rest hrest]
    rfl

end

/-- A number equal to a finite one is finite. -/
theorem isFinite_of_strictEq {m n : JsNumber} (h : m.strictEq n = true)
    (hn : n.isFinite = true) : m.isFinite = true := by
  cases m <;> cases n <;> simp_all [JsNumber.strictEq, JsNumber.isFinite]

/-- What a property of plain JSON data is bound to. -/
theorem isPlainJson_of_lookup {props : List (JsString × JsValue)}
    (h : isPlainJsonProps props = true) {key : JsString} {value : JsValue}
    (hvalue : props.lookup key = some value) : isPlainJson value = true := by
  induction props with
  | nil => cases hvalue
  | cons p rest ih =>
    obtain ⟨key', value'⟩ := p
    rw [isPlainJsonProps, Bool.and_eq_true] at h
    rw [List.lookup_cons] at hvalue
    split at hvalue
    · exact Option.some.inj hvalue ▸ h.1
    · exact ih h.2 hvalue

mutual

/-- The same value as plain JSON data is plain JSON data. -/
theorem isPlainJson_of_sameJson (v w : JsValue) (h : sameJson v w = true)
    (hw : isPlainJson w = true) : isPlainJson v = true := by
  match v, w with
  | .null, _ | .bool _, _ | .string _, _ => rfl
  | .number m, .number n => exact isFinite_of_strictEq h hw
  | .array items, .array others => exact isPlainJsonItems_of_sameItems items others h hw
  | .object props, .object others =>
    rw [sameJson, Bool.and_eq_true] at h
    exact isPlainJsonProps_of_sameProps props others h.2 hw

/-- In the elements of an array. -/
theorem isPlainJsonItems_of_sameItems (items others : List JsValue)
    (h : sameItems items others = true) (hothers : isPlainJsonItems others = true) :
    isPlainJsonItems items = true := by
  match items, others with
  | [], _ => rfl
  | item :: rest, other :: others =>
    rw [sameItems, Bool.and_eq_true] at h
    rw [isPlainJsonItems, Bool.and_eq_true] at hothers ⊢
    exact ⟨isPlainJson_of_sameJson item other h.1 hothers.1,
      isPlainJsonItems_of_sameItems rest others h.2 hothers.2⟩

/-- In the properties of an object. -/
theorem isPlainJsonProps_of_sameProps (props others : List (JsString × JsValue))
    (h : sameProps props others = true) (hothers : isPlainJsonProps others = true) :
    isPlainJsonProps props = true := by
  match props with
  | [] => rfl
  | (key, value) :: rest =>
    obtain ⟨⟨other, hlookup, hsame⟩, hrest⟩ := sameProps_cons.mp h
    rw [isPlainJsonProps, Bool.and_eq_true]
    exact ⟨isPlainJson_of_sameJson value other hsame (isPlainJson_of_lookup hothers hlookup),
      isPlainJsonProps_of_sameProps rest others hrest hothers⟩

end

/-- Equal numbers print alike: so do the two zeros. -/
theorem toText_eq_of_strictEq {m n : JsNumber} (h : m.strictEq n = true) :
    m.toText = n.toText := by
  cases m with
  | nan => cases h
  | infinity negative =>
    obtain rfl : JsNumber.infinity negative = n := by simpa [JsNumber.strictEq] using h
    rfl
  | finite negative d =>
    cases n with
    | nan => simp [JsNumber.strictEq] at h
    | infinity negative' => simp [JsNumber.strictEq] at h
    | finite negative' e =>
      simp only [JsNumber.strictEq, Bool.and_eq_true, Bool.or_eq_true, decide_eq_true_eq] at h
      obtain ⟨rfl, rfl | hzero⟩ := h
      · rfl
      · simp [JsNumber.toText, hzero]

/-- The elements of an array one by one, where there is no hole. -/
theorem canonicalizeItems_cons {item : JsValue} {rest : List JsValue} {values : List Canonical}
    (hhole : item ≠ .hole) (h : canonicalizeItems (item :: rest) = .ok values) :
    ∃ c cs, canonicalize item = .ok c ∧ canonicalizeItems rest = .ok cs ∧ values = c :: cs := by
  rw [canonicalizeItems.eq_3 _ _ hhole] at h
  cases hc : canonicalize item with
  | error e => rw [hc] at h; cases h
  | ok c =>
    cases hcs : canonicalizeItems rest with
    | error e => rw [hc, hcs] at h; cases h
    | ok cs =>
      rw [hc, hcs] at h
      exact ⟨c, cs, rfl, rfl, (Except.ok.inj h).symm⟩

/-- A property of an object with distinct keys is bound to what the loop found for it. -/
theorem Gathers.value {props : List (JsString × JsValue)} {entries : List (JsString × Canonical)}
    (h : Gathers props entries) (hdistinct : (AssocList.keys props).Nodup) {key : JsString}
    {c : Canonical} (hentry : (key, c) ∈ entries) :
    ∃ value, (key, value) ∈ props ∧ canonicalize value = .ok c := by
  have hkey : key ∈ AssocList.keys props := h.keys.mem_iff.mp (List.mem_map_of_mem hentry)
  obtain ⟨⟨_, value⟩, hmem, rfl⟩ := List.mem_map.mp hkey
  obtain ⟨c', hc', hentry'⟩ := h.values _ value hmem
  have hnodup : (AssocList.keys entries).Nodup := h.keys.nodup_iff.mpr hdistinct
  obtain rfl : c = c' := by
    rw [← AssocList.lookup_eq_some_iff_mem hnodup] at hentry hentry'
    exact Option.some.inj (hentry.symm.trans hentry')
  exact ⟨value, hmem, hc'⟩

mutual

/-- The same JSON data has one canonical text: the order of keys is settled by
    sorting, and both zeros print `0`. -/
theorem stringify_eq_of_sameJson (v w : JsValue) {c d : Canonical} (hv : isJsonData v = true)
    (hw : isJsonData w = true) (hsame : sameJson v w = true) (hc : canonicalize v = .ok c)
    (hd : canonicalize w = .ok d) : stringify c = stringify d := by
  match v, w with
  | .null, .null =>
    obtain rfl := Except.ok.inj (hc.symm.trans hd)
    rfl
  | .bool a, .bool b =>
    obtain rfl : a = b := by simpa [sameJson] using hsame
    obtain rfl := Except.ok.inj (hc.symm.trans hd)
    rfl
  | .string a, .string b =>
    obtain rfl : a = b := by simpa [sameJson] using hsame
    obtain rfl := Except.ok.inj (hc.symm.trans hd)
    rfl
  | .number m, .number n =>
    -- `===` of finite numbers, and one text for both zeros
    have hm : m.isFinite = true := hv
    have hn : n.isFinite = true := hw
    rw [canonicalize, if_pos hm] at hc
    rw [canonicalize, if_pos hn] at hd
    obtain rfl := Except.ok.inj hc
    obtain rfl := Except.ok.inj hd
    rw [stringify, stringify, if_pos hm, if_pos hn]
    exact toText_eq_of_strictEq hsame
  | .array items, .array others =>
    rw [canonicalize] at hc hd
    cases hitems : canonicalizeItems items with
    | error e => rw [hitems] at hc; cases hc
    | ok values =>
      cases hothers : canonicalizeItems others with
      | error e => rw [hothers] at hd; cases hd
      | ok values' =>
        rw [hitems] at hc
        rw [hothers] at hd
        obtain rfl := Except.ok.inj hc
        obtain rfl := Except.ok.inj hd
        rw [stringify, stringify, stringifyItems_eq_of_sameItems items others hv hw hsame hitems
          hothers]
  | .object props, .object others =>
    -- both gather the same keys, sorted; so the texts agree field by field
    obtain ⟨hdistinct, hdata⟩ := isJsonData_object.mp hv
    obtain ⟨hdistinct', hdata'⟩ := isJsonData_object.mp hw
    obtain ⟨entries, hentries, rfl⟩ := gathers_of_canonicalize hc
    obtain ⟨entries', hentries', rfl⟩ := gathers_of_canonicalize hd
    rw [sameJson, Bool.and_eq_true, decide_eq_true_eq] at hsame
    have htexts := fieldText_of_sameProps props others hdata hdata' hsame.2
    have hkeys : (AssocList.keys entries).Perm (AssocList.keys entries') :=
      hentries.keys.trans
        ((AssocList.keys_perm hdistinct hsame.1 (sameProps_keys hsame.2)).trans hentries'.keys.symm)
    have hnodup : (AssocList.keys entries).Nodup := hentries.keys.nodup_iff.mpr hdistinct
    refine stringify_object_congr hnodup hentries.sorted hentries'.sorted
      (AssocList.perm_of_keys ?_ ?_ ?_)
    · rwa [AssocList.keys, List.map_map]
    · rw [AssocList.keys, AssocList.keys, List.map_map, List.map_map]
      exact hkeys
    · intro key text hmem
      obtain ⟨⟨_, c⟩, hentry, hfield⟩ := List.mem_map.mp hmem
      obtain ⟨rfl, rfl⟩ := Prod.mk.inj hfield
      obtain ⟨value, hvalue, hc'⟩ := hentries.value hdistinct hentry
      obtain ⟨other, hother, htext⟩ := htexts _ value hvalue
      obtain ⟨d, hd', hentry'⟩ := hentries'.values _ other
        ((AssocList.lookup_eq_some_iff_mem hdistinct').mp hother)
      rw [htext c d hc' hd']
      exact List.mem_map_of_mem (f := fieldText) hentry'

/-- So have the elements of an array. -/
theorem stringifyItems_eq_of_sameItems (items others : List JsValue)
    {values values' : List Canonical} (hitems : isJsonItems items = true)
    (hothers : isJsonItems others = true) (hsame : sameItems items others = true)
    (hvalues : canonicalizeItems items = .ok values)
    (hvalues' : canonicalizeItems others = .ok values') :
    stringifyItems values = stringifyItems values' := by
  match items, others with
  | [], [] =>
    obtain rfl := Except.ok.inj (hvalues.symm.trans hvalues')
    rfl
  | item :: rest, other :: others =>
    obtain ⟨hitem, hrest⟩ := isJsonItems_cons.mp hitems
    obtain ⟨hother, hothers⟩ := isJsonItems_cons.mp hothers
    rw [sameItems, Bool.and_eq_true] at hsame
    have hhole : item ≠ .hole := by rintro rfl; cases hitem
    have hhole' : other ≠ .hole := by rintro rfl; cases hother
    -- heads and tails have the same texts
    obtain ⟨c, cs, hc, hcs, rfl⟩ := canonicalizeItems_cons hhole hvalues
    obtain ⟨d, ds, hd, hds, rfl⟩ := canonicalizeItems_cons hhole' hvalues'
    rw [stringifyItems, stringifyItems,
      stringify_eq_of_sameJson item other hitem hother hsame.1 hc hd,
      stringifyItems_eq_of_sameItems rest others hrest hothers hsame.2 hcs hds]

/-- And the properties of an object, wherever the other object has them. -/
theorem fieldText_of_sameProps (props others : List (JsString × JsValue))
    (hprops : isJsonProps props = true) (hothers : isJsonProps others = true)
    (hsame : sameProps props others = true) :
    ∀ key value, (key, value) ∈ props → ∃ other, others.lookup key = some other ∧
      ∀ c d, canonicalize value = .ok c → canonicalize other = .ok d →
        stringify c = stringify d := by
  match props with
  | [] => simp
  | (key, value) :: rest =>
    obtain ⟨-, hvalue, hrest⟩ := isJsonProps_cons.mp hprops
    obtain ⟨⟨other, hother, hsameValue⟩, hsameRest⟩ := sameProps_cons.mp hsame
    intro k v hmem
    rcases List.mem_cons.mp hmem with heq | hmem
    · obtain ⟨rfl, rfl⟩ := Prod.mk.inj heq
      refine ⟨other, hother, fun c d hc hd => ?_⟩
      exact stringify_eq_of_sameJson v other hvalue (isJsonData_of_lookup hothers hother)
        hsameValue hc hd
    · exact fieldText_of_sameProps rest others hrest hothers hsameRest k v hmem

end

/-! ## What JSON.parse returns -/

mutual

/-- A value `JSON.parse` can return: objects have distinct keys. -/
def isParsedJson : JsValue → Bool
  | .null | .bool _ | .string _ | .number _ => true
  | .array items => isParsedItems items
  | .object props => decide (AssocList.keys props).Nodup && isParsedProps props
  | _ => false

/-- Every element is such a value. -/
def isParsedItems : List JsValue → Bool
  | [] => true
  | item :: rest => isParsedJson item && isParsedItems rest

/-- Every property is. -/
def isParsedProps : List (JsString × JsValue) → Bool
  | [] => true
  | (_, value) :: rest => isParsedJson value && isParsedProps rest

end

theorem isParsedProps_iff {props : List (JsString × JsValue)} :
    isParsedProps props = true ↔ ∀ p ∈ props, isParsedJson p.2 = true := by
  induction props with
  | nil => simp [isParsedProps]
  | cons p rest ih => simp [isParsedProps, ih]

/-- Defining a property keeps the keys distinct and the values parsed ones. -/
theorem isParsedProps_defineProp {props : List (JsString × JsValue)} (key : JsString)
    {value : JsValue} (hdistinct : (AssocList.keys props).Nodup)
    (hprops : isParsedProps props = true) (hvalue : isParsedJson value = true) :
    (AssocList.keys (defineProp props key value)).Nodup ∧
      isParsedProps (defineProp props key value) = true := by
  rw [isParsedProps_iff] at *
  unfold defineProp
  split
  -- a key that is there keeps its place, a new one comes last
  · have hkeys : AssocList.keys (props.map fun p => if p.1 = key then (key, value) else p) =
        AssocList.keys props := by
      rw [AssocList.keys, List.map_map]
      refine List.map_congr_left fun p _ => ?_
      by_cases hp : p.1 = key <;> simp [hp]
    refine ⟨hkeys ▸ hdistinct, ?_⟩
    intro p hp
    obtain ⟨q, hq, rfl⟩ := List.mem_map.mp hp
    split
    · exact hvalue
    · exact hprops q hq
  · rename_i hnew
    have hkey : key ∉ AssocList.keys props := by
      intro hmem
      obtain ⟨p, hp, hpkey⟩ := List.mem_map.mp hmem
      exact hnew (List.any_eq_true.mpr ⟨p, hp, decide_eq_true hpkey⟩)
    constructor
    · rw [AssocList.keys, List.map_append]
      exact List.Nodup.append hdistinct (List.nodup_singleton _) (by simpa using hkey)
    · intro p hp
      rcases List.mem_append.mp hp with hp | hp
      · exact hprops p hp
      · obtain rfl := List.mem_singleton.mp hp
        exact hvalue

/-- The object of parsed members is a parsed value. -/
theorem isParsedJson_objectOfMembers {members : List (JsString × JsValue)}
    (hmembers : isParsedProps members = true) :
    isParsedJson (objectOfMembers members) = true := by
  have hfold : ∀ props : List (JsString × JsValue), (AssocList.keys props).Nodup →
      isParsedProps props = true →
      (AssocList.keys (members.foldl (fun props p => defineProp props p.1 p.2) props)).Nodup ∧
        isParsedProps (members.foldl (fun props p => defineProp props p.1 p.2) props) = true := by
    induction members with
    | nil => exact fun props hdistinct hprops => ⟨hdistinct, hprops⟩
    | cons p rest ih =>
      intro props hdistinct hprops
      rw [isParsedProps_iff, List.forall_mem_cons] at hmembers
      obtain ⟨hdistinct', hprops'⟩ :=
        isParsedProps_defineProp p.1 hdistinct hprops hmembers.1
      exact ih (isParsedProps_iff.mpr hmembers.2) _ hdistinct' hprops'
  obtain ⟨hdistinct, hprops⟩ := hfold [] List.nodup_nil rfl
  -- putting integer keys first only reorders
  have hperm := inPropertyOrder_perm
    (members.foldl (fun props p => defineProp props p.1 p.2) [])
  rw [objectOfMembers, isParsedJson, Bool.and_eq_true, decide_eq_true_eq]
  refine ⟨(hperm.map Prod.fst).nodup_iff.mpr hdistinct, ?_⟩
  rw [isParsedProps_iff] at hprops ⊢
  exact fun p hp => hprops p (hperm.mem_iff.mp hp)

section
variable [Host]

mutual

/-- Every value a text stands for is a parsed value. -/
theorem isParsedJson_of_parseValue (fuel : Nat) {text rest : JsString} {value : JsValue}
    (h : parseValue fuel text = some (value, rest)) : isParsedJson value = true := by
  match fuel with
  | 0 => cases h
  | fuel + 1 =>
    unfold parseValue at h
    split at h
    · cases h
    split at h
    -- a string
    · obtain ⟨⟨s, tail⟩, -, heq⟩ := Option.map_eq_some_iff.mp h
      obtain ⟨rfl, -⟩ := Prod.mk.inj heq
      rfl
    split at h
    -- an array
    · split at h
      · obtain ⟨rfl, -⟩ := Prod.mk.inj (Option.some.inj h)
        rfl
      · obtain ⟨⟨items, tail⟩, hitems, heq⟩ := Option.map_eq_some_iff.mp h
        obtain ⟨rfl, -⟩ := Prod.mk.inj heq
        exact isParsedItems_of_parseElements fuel hitems
    split at h
    -- an object
    · split at h
      · obtain ⟨rfl, -⟩ := Prod.mk.inj (Option.some.inj h)
        rfl
      · obtain ⟨⟨members, tail⟩, hmembers, heq⟩ := Option.map_eq_some_iff.mp h
        obtain ⟨rfl, -⟩ := Prod.mk.inj heq
        exact isParsedJson_objectOfMembers (isParsedProps_of_parseMembers fuel hmembers)
    -- `true`, `false`, `null` and the numbers
    all_goals
      repeat' split at h
      all_goals
        obtain ⟨_, -, heq⟩ := Option.map_eq_some_iff.mp h
        obtain ⟨rfl, -⟩ := Prod.mk.inj heq
        rfl

/-- So are the elements of an array. -/
theorem isParsedItems_of_parseElements (fuel : Nat) {text rest : JsString} {items : List JsValue}
    (h : parseElements fuel text = some (items, rest)) : isParsedItems items = true := by
  match fuel with
  | 0 => cases h
  | fuel + 1 =>
    simp only [parseElements, Option.bind_eq_bind, Option.bind_eq_some_iff] at h
    obtain ⟨⟨item, tail⟩, hitem, h⟩ := h
    have hparsed := isParsedJson_of_parseValue fuel hitem
    dsimp only at h
    split at h
    · obtain ⟨⟨items', tail'⟩, hitems, heq⟩ := Option.bind_eq_some_iff.mp h
      obtain ⟨rfl, -⟩ := Prod.mk.inj (Option.some.inj heq)
      rw [isParsedItems, hparsed, isParsedItems_of_parseElements fuel hitems]
      rfl
    · obtain ⟨_, -, heq⟩ := Option.map_eq_some_iff.mp h
      obtain ⟨rfl, -⟩ := Prod.mk.inj heq
      rw [isParsedItems, hparsed]
      rfl

/-- And the members of an object. -/
theorem isParsedProps_of_parseMembers (fuel : Nat) {text rest : JsString}
    {members : List (JsString × JsValue)} (h : parseMembers fuel text = some (members, rest)) :
    isParsedProps members = true := by
  match fuel with
  | 0 => cases h
  | fuel + 1 =>
    simp only [parseMembers, Option.bind_eq_bind, Option.bind_eq_some_iff] at h
    obtain ⟨_, -, ⟨key, _⟩, -, _, -, ⟨value, tail⟩, hvalue, h⟩ := h
    have hparsed := isParsedJson_of_parseValue fuel hvalue
    dsimp only at h
    split at h
    · obtain ⟨⟨members', tail'⟩, hmembers, heq⟩ := Option.bind_eq_some_iff.mp h
      obtain ⟨rfl, -⟩ := Prod.mk.inj (Option.some.inj heq)
      rw [isParsedProps, hparsed, isParsedProps_of_parseMembers fuel hmembers]
      rfl
    · obtain ⟨_, -, heq⟩ := Option.map_eq_some_iff.mp h
      obtain ⟨rfl, -⟩ := Prod.mk.inj heq
      rw [isParsedProps, hparsed]
      rfl

end

/-- `JSON.parse` returns this value for some text. -/
def ReturnedByJsonParse (value : JsValue) : Prop := ∃ text, jsonParse text = some value

theorem ReturnedByJsonParse.isParsedJson {value : JsValue} (h : ReturnedByJsonParse value) :
    isParsedJson value = true := by
  obtain ⟨text, htext⟩ := h
  unfold jsonParse at htext
  obtain ⟨⟨parsed, rest⟩, hparsed, heq⟩ := Option.bind_eq_some_iff.mp htext
  dsimp only at heq
  split at heq
  · obtain rfl := Option.some.inj heq
    exact isParsedJson_of_parseValue _ hparsed
  · cases heq

end

mutual

/-- A parsed value has no gaps. -/
theorem fillGaps_of_isParsedJson (v : JsValue) (h : isParsedJson v = true) : fillGaps v = v := by
  match v with
  | .null | .bool _ | .number _ | .string _ => simp only [fillGaps]
  | .array items => rw [fillGaps, fillGapsItems_of_isParsedItems items h]
  | .object props =>
    rw [isParsedJson, Bool.and_eq_true] at h
    rw [fillGaps, fillGapsProps_of_isParsedProps props h.2]

/-- Nor have its elements. -/
theorem fillGapsItems_of_isParsedItems (items : List JsValue) (h : isParsedItems items = true) :
    fillGapsItems items = items := by
  match items with
  | [] => rfl
  | item :: rest =>
    obtain ⟨hitem, hrest⟩ := Bool.and_eq_true_iff.mp h
    have hhole : item ≠ .hole := by rintro rfl; cases hitem
    rw [fillGapsItems.eq_3 _ _ hhole, fillGaps_of_isParsedJson item hitem,
      fillGapsItems_of_isParsedItems rest hrest]

/-- Nor its properties. -/
theorem fillGapsProps_of_isParsedProps (props : List (JsString × JsValue))
    (h : isParsedProps props = true) : fillGapsProps props = props := by
  match props with
  | [] => rfl
  | (key, value) :: rest =>
    obtain ⟨hvalue, hrest⟩ := Bool.and_eq_true_iff.mp h
    rw [fillGapsProps, fillGaps_of_isParsedJson value hvalue,
      fillGapsProps_of_isParsedProps rest hrest]

end

/-- A parsed value is rejected only for an infinite number. -/
theorem hashable_iff_of_isParsedJson {v : JsValue} (h : isParsedJson v = true) :
    Hashable v ↔ isPlainJson v = true := by
  rw [hashable_iff, fillGaps_of_isParsedJson v h]

/-! ## Fields called `__proto__` -/

mutual

/-- The value without its fields called `__proto__`, at every depth. -/
def dropProto : JsValue → JsValue
  | .array items => .array (dropProtoItems items)
  | .object props => .object (dropProtoProps props)
  | value => value

/-- In the elements of an array. -/
def dropProtoItems : List JsValue → List JsValue
  | [] => []
  | item :: rest => dropProto item :: dropProtoItems rest

/-- In the properties of an object. -/
def dropProtoProps : List (JsString × JsValue) → List (JsString × JsValue)
  | [] => []
  | (key, value) :: rest =>
    if key = protoKey then dropProtoProps rest else (key, dropProto value) :: dropProtoProps rest

end

/-- The keys that stay. -/
theorem keys_dropProtoProps (props : List (JsString × JsValue)) :
    AssocList.keys (dropProtoProps props) =
      (AssocList.keys props).filter fun key => key ≠ protoKey := by
  induction props with
  | nil => rfl
  | cons p rest ih =>
    obtain ⟨key, value⟩ := p
    rw [dropProtoProps]
    split
    · rename_i hkey
      rw [ih]
      simp [hkey]
    · rename_i hkey
      rw [AssocList.keys, List.map_cons, ← AssocList.keys, ih]
      simp [hkey]

/-- The properties that stay. -/
theorem mem_dropProtoProps {props : List (JsString × JsValue)} {key : JsString}
    {value : JsValue} :
    (key, value) ∈ dropProtoProps props ↔
      key ≠ protoKey ∧ ∃ original, (key, original) ∈ props ∧ value = dropProto original := by
  induction props with
  | nil => simp [dropProtoProps]
  | cons p rest ih =>
    obtain ⟨key', value'⟩ := p
    rw [dropProtoProps]
    split
    -- the first field is dropped or kept
    · rename_i hkey
      rw [ih]
      constructor
      · rintro ⟨hne, original, hmem, rfl⟩
        exact ⟨hne, original, List.mem_cons_of_mem _ hmem, rfl⟩
      · rintro ⟨hne, original, hmem, rfl⟩
        rcases List.mem_cons.mp hmem with heq | hmem
        · exact absurd ((Prod.mk.inj heq).1.trans hkey) hne
        · exact ⟨hne, original, hmem, rfl⟩
    · rename_i hkey
      rw [List.mem_cons, ih]
      constructor
      · rintro (heq | ⟨hne, original, hmem, rfl⟩)
        · obtain ⟨rfl, rfl⟩ := Prod.mk.inj heq
          exact ⟨hkey, value', List.mem_cons_self, rfl⟩
        · exact ⟨hne, original, List.mem_cons_of_mem _ hmem, rfl⟩
      · rintro ⟨hne, original, hmem, rfl⟩
        rcases List.mem_cons.mp hmem with heq | hmem
        · obtain ⟨rfl, rfl⟩ := Prod.mk.inj heq
          exact .inl rfl
        · exact .inr ⟨hne, original, hmem, rfl⟩

mutual

/-- A parsed value with finite numbers only, without its `__proto__` fields, is data an
    object literal can spell. -/
theorem isJsonData_dropProto (v : JsValue) (hv : isParsedJson v = true)
    (hplain : isPlainJson v = true) : isJsonData (dropProto v) = true := by
  match v with
  | .null | .bool _ | .string _ => rfl
  | .number n => exact hplain
  | .array items => exact isJsonItems_dropProto items hv hplain
  | .object props =>
    rw [isParsedJson, Bool.and_eq_true, decide_eq_true_eq] at hv
    rw [dropProto, isJsonData_object, keys_dropProtoProps]
    exact ⟨hv.1.filter _, isJsonProps_dropProto props hv.2 hplain⟩

/-- So are the elements of an array. -/
theorem isJsonItems_dropProto (items : List JsValue) (hitems : isParsedItems items = true)
    (hplain : isPlainJsonItems items = true) : isJsonItems (dropProtoItems items) = true := by
  match items with
  | [] => rfl
  | item :: rest =>
    obtain ⟨hitem, hrest⟩ := Bool.and_eq_true_iff.mp hitems
    obtain ⟨hplain, hplainRest⟩ := Bool.and_eq_true_iff.mp hplain
    exact isJsonItems_cons.mpr
      ⟨isJsonData_dropProto item hitem hplain, isJsonItems_dropProto rest hrest hplainRest⟩

/-- And the properties of an object. -/
theorem isJsonProps_dropProto (props : List (JsString × JsValue))
    (hprops : isParsedProps props = true) (hplain : isPlainJsonProps props = true) :
    isJsonProps (dropProtoProps props) = true := by
  match props with
  | [] => rfl
  | (key, value) :: rest =>
    obtain ⟨hvalue, hrest⟩ := Bool.and_eq_true_iff.mp hprops
    obtain ⟨hplain, hplainRest⟩ := Bool.and_eq_true_iff.mp hplain
    have ih := isJsonProps_dropProto rest hrest hplainRest
    rw [dropProtoProps]
    split
    · exact ih
    · rename_i hkey
      exact isJsonProps_cons.mpr ⟨hkey, isJsonData_dropProto value hvalue hplain, ih⟩

end

mutual

/-- `canonicalize` does not see the fields called `__proto__`. -/
theorem canonicalize_dropProto (v : JsValue) {c : Canonical} (hv : isParsedJson v = true)
    (hc : canonicalize v = .ok c) : canonicalize (dropProto v) = .ok c := by
  match v with
  | .null | .bool _ | .string _ | .number _ => exact hc
  | .array items =>
    rw [canonicalize] at hc
    cases hitems : canonicalizeItems items with
    | error e => rw [hitems] at hc; cases hc
    | ok values =>
      rw [hitems] at hc
      rw [dropProto, canonicalize, canonicalizeItems_dropProto items hv hitems]
      exact hc
  | .object props =>
    rw [isParsedJson, Bool.and_eq_true, decide_eq_true_eq] at hv
    obtain ⟨entries, hentries, rfl⟩ := gathers_of_canonicalize hc
    have hfields := canonicalize_dropProtoProps props hv.2
    have hhashable : Hashable (.object (dropProtoProps props)) := by
      rw [hashable_object]
      rintro ⟨key, value⟩ hmem
      obtain ⟨-, original, horiginal, rfl⟩ := mem_dropProtoProps.mp hmem
      obtain ⟨c, hc, -⟩ := hentries.values key original horiginal
      exact ⟨c, hfields key original c horiginal hc⟩
    obtain ⟨c, hc⟩ := hhashable
    obtain ⟨kept, hkept, rfl⟩ := gathers_of_canonicalize hc
    -- both loops gather the same fields in the same order, but for `__proto__`
    have hnodup : (AssocList.keys kept).Nodup := by
      rw [hkept.keys.nodup_iff, keys_dropProtoProps]
      exact hv.1.filter _
    have hsame : kept = entries.filter fun p => p.1 ≠ protoKey := by
      refine AssocList.eq_of_sorted (fun a b => List.le_antisymm) hnodup
        (AssocList.perm_of_keys hnodup ?_ ?_) hkept.sorted (hentries.sorted.filter _)
      · refine hkept.keys.trans ?_
        have hkeys : AssocList.keys (entries.filter fun p => p.1 ≠ protoKey) =
            (AssocList.keys entries).filter fun key => key ≠ protoKey := by
          rw [AssocList.keys, AssocList.keys, List.filter_map]
          rfl
        rw [keys_dropProtoProps, hkeys]
        exact (hentries.keys.filter _).symm
      · intro key d hmem
        have hkey : key ∈ AssocList.keys (dropProtoProps props) :=
          hkept.keys.mem_iff.mp (List.mem_map_of_mem hmem)
        obtain ⟨⟨_, value⟩, hvalue, rfl⟩ := List.mem_map.mp hkey
        obtain ⟨hne, original, horiginal, rfl⟩ := mem_dropProtoProps.mp hvalue
        obtain ⟨c, hc, hentry⟩ := hentries.values _ original horiginal
        obtain ⟨c', hc', hmem'⟩ := hkept.values _ _ hvalue
        obtain rfl := Except.ok.inj ((hfields _ original c horiginal hc).symm.trans hc')
        obtain rfl : d = c := by
          rw [← AssocList.lookup_eq_some_iff_mem hnodup] at hmem hmem'
          exact Option.some.inj (hmem.symm.trans hmem')
        exact List.mem_filter.mpr ⟨hentry, decide_eq_true hne⟩
    rw [dropProto, hc, hsame, assignAll, assignAll, List.filter_filter]
    simp

/-- Nor in the elements of an array. -/
theorem canonicalizeItems_dropProto (items : List JsValue) {values : List Canonical}
    (hitems : isParsedItems items = true) (hvalues : canonicalizeItems items = .ok values) :
    canonicalizeItems (dropProtoItems items) = .ok values := by
  match items with
  | [] => exact hvalues
  | item :: rest =>
    obtain ⟨hitem, hrest⟩ := Bool.and_eq_true_iff.mp hitems
    have hhole : item ≠ .hole := by rintro rfl; cases hitem
    obtain ⟨c, cs, hc, hcs, rfl⟩ := canonicalizeItems_cons hhole hvalues
    have hc' := canonicalize_dropProto item hitem hc
    have hhole' : dropProto item ≠ .hole := by
      intro heq
      rw [heq] at hc'
      cases hc'
    rw [dropProtoItems, canonicalizeItems.eq_3 _ _ hhole', hc',
      canonicalizeItems_dropProto rest hrest hcs]
    rfl

/-- Nor in the properties of an object. -/
theorem canonicalize_dropProtoProps (props : List (JsString × JsValue))
    (hprops : isParsedProps props = true) :
    ∀ key value c, (key, value) ∈ props → canonicalize value = .ok c →
      canonicalize (dropProto value) = .ok c := by
  match props with
  | [] => simp
  | (key, value) :: rest =>
    obtain ⟨hvalue, hrest⟩ := Bool.and_eq_true_iff.mp hprops
    intro k v c hmem hc
    rcases List.mem_cons.mp hmem with heq | hmem
    · obtain ⟨rfl, rfl⟩ := Prod.mk.inj heq
      exact canonicalize_dropProto v hvalue hc
    · exact canonicalize_dropProtoProps rest hrest k v c hmem hc

end

mutual

/-- Values that are the same are so without their `__proto__` fields. -/
theorem sameJson_dropProto (v w : JsValue) (hv : isParsedJson v = true)
    (hw : isParsedJson w = true) (h : sameJson v w = true) :
    sameJson (dropProto v) (dropProto w) = true := by
  match v, w with
  | .null, .null | .bool _, .bool _ | .number _, .number _ | .string _, .string _ => exact h
  | .array items, .array others => exact sameItems_dropProto items others hv hw h
  | .object props, .object others =>
    rw [isParsedJson, Bool.and_eq_true, decide_eq_true_eq] at hv hw
    rw [sameJson, Bool.and_eq_true, decide_eq_true_eq] at h
    have hkeys := AssocList.keys_perm hv.1 h.1 (sameProps_keys h.2)
    have hlength : (dropProtoProps props).length = (dropProtoProps others).length := by
      have hkept := (hkeys.filter fun key => key ≠ protoKey).length_eq
      rwa [← keys_dropProtoProps, ← keys_dropProtoProps, List.length_map, List.length_map]
        at hkept
    rw [dropProto, dropProto, sameJson, Bool.and_eq_true, decide_eq_true_eq]
    exact ⟨hlength, sameProps_dropProto props others hv.2 hw h.2⟩

/-- So are the elements of an array. -/
theorem sameItems_dropProto (items others : List JsValue) (hitems : isParsedItems items = true)
    (hothers : isParsedItems others = true) (h : sameItems items others = true) :
    sameItems (dropProtoItems items) (dropProtoItems others) = true := by
  match items, others with
  | [], [] => rfl
  | item :: rest, other :: others =>
    obtain ⟨hitem, hrest⟩ := Bool.and_eq_true_iff.mp hitems
    obtain ⟨hother, hothers⟩ := Bool.and_eq_true_iff.mp hothers
    rw [sameItems, Bool.and_eq_true] at h
    rw [dropProtoItems, dropProtoItems, sameItems, sameJson_dropProto item other hitem hother h.1,
      sameItems_dropProto rest others hrest hothers h.2]
    rfl

/-- And the properties of an object. -/
theorem sameProps_dropProto (props others : List (JsString × JsValue))
    (hprops : isParsedProps props = true)
    (hothers : (AssocList.keys others).Nodup ∧ isParsedProps others = true)
    (h : sameProps props others = true) :
    sameProps (dropProtoProps props) (dropProtoProps others) = true := by
  match props with
  | [] => rfl
  | (key, value) :: rest =>
    obtain ⟨hvalue, hrest⟩ := Bool.and_eq_true_iff.mp hprops
    obtain ⟨⟨other, hother, hsame⟩, hsameRest⟩ := sameProps_cons.mp h
    have ih := sameProps_dropProto rest others hrest hothers hsameRest
    rw [dropProtoProps]
    split
    · exact ih
    · rename_i hkey
      -- the other object has this field too, and does not drop it
      have hmem := (AssocList.lookup_eq_some_iff_mem hothers.1).mp hother
      have hdistinct : (AssocList.keys (dropProtoProps others)).Nodup := by
        rw [keys_dropProtoProps]
        exact hothers.1.filter _
      refine sameProps_cons.mpr ⟨⟨dropProto other, ?_, ?_⟩, ih⟩
      · rw [AssocList.lookup_eq_some_iff_mem hdistinct, mem_dropProtoProps]
        exact ⟨hkey, other, hmem, rfl⟩
      · exact sameJson_dropProto value other hvalue (isParsedProps_iff.mp hothers.2 _ hmem) hsame

end

/-! ## Exactness -/

section
variable [Host]

/-- Both values have a hash, the same one. -/
def HashesAgree (v w : JsValue) : Prop :=
  ∃ hash, hashCanonical v = .ok hash ∧ hashCanonical w = .ok hash

/-- A value with a hash was accepted by `canonicalize`. -/
theorem hashable_of_hashCanonical {v : JsValue} {hash : JsString}
    (h : hashCanonical v = .ok hash) : Hashable v := by
  rw [hashCanonical] at h
  cases hc : canonicalize v with
  | error e => rw [hc] at h; cases h
  | ok c => exact ⟨c, hc⟩

/-- The hash is one of the canonical value. -/
theorem hashCanonical_congr {v w : JsValue} (h : canonicalize v = canonicalize w) :
    hashCanonical v = hashCanonical w := by
  rw [hashCanonical, hashCanonical, h]

/-- Data an object literal can spell hashes alike exactly when it is the same data. -/
theorem hashesAgree_iff_sameJson (hdigest : DigestInjective) {v w : JsValue}
    (hv : isJsonData v = true) (hw : isJsonData w = true) : HashesAgree v w ↔ SameJson v w := by
  constructor
  · rintro ⟨hash, hvhash, hwhash⟩
    exact ⟨sameJson_of_hashCanonical hdigest hv hw hvhash hwhash,
      sameJson_of_hashCanonical hdigest hw hv hwhash hvhash⟩
  · rintro ⟨hsame, -⟩
    obtain ⟨c, hc⟩ := hashable_of_isPlainJson v (isPlainJson_of_isJsonData v hv)
    obtain ⟨d, hd⟩ := hashable_of_isPlainJson w (isPlainJson_of_isJsonData w hw)
    have htext := stringify_eq_of_sameJson v w hv hw hsame hc hd
    refine ⟨sha256Hex (stringify c), ?_, ?_⟩
    · rw [hashCanonical, hc]
      rfl
    · rw [hashCanonical, hd, htext]
      rfl

/-- Parsed values hash alike that are the same but for `__proto__` fields, if their
    numbers are finite. -/
theorem hashesAgree_iff (hdigest : DigestInjective) {v w : JsValue} (hv : isParsedJson v = true)
    (hw : isParsedJson w = true) :
    HashesAgree v w ↔
      (isPlainJson v = true ∧ isPlainJson w = true) ∧ SameJson (dropProto v) (dropProto w) := by
  have hdropped : ∀ {u : JsValue}, isParsedJson u = true → isPlainJson u = true →
      hashCanonical (dropProto u) = hashCanonical u := by
    intro u hu hplain
    obtain ⟨c, hc⟩ := hashable_of_isPlainJson u hplain
    exact hashCanonical_congr ((canonicalize_dropProto u hu hc).trans hc.symm)
  -- without such fields both values are data the text determines
  have hagree : isPlainJson v = true → isPlainJson w = true →
      (HashesAgree v w ↔ SameJson (dropProto v) (dropProto w)) := by
    intro hvplain hwplain
    rw [← hashesAgree_iff_sameJson hdigest (isJsonData_dropProto v hv hvplain)
      (isJsonData_dropProto w hw hwplain), HashesAgree, HashesAgree, hdropped hv hvplain,
      hdropped hw hwplain]
  constructor
  · rintro h
    obtain ⟨hash, hvhash, hwhash⟩ := id h
    have hvplain := (hashable_iff_of_isParsedJson hv).mp (hashable_of_hashCanonical hvhash)
    have hwplain := (hashable_iff_of_isParsedJson hw).mp (hashable_of_hashCanonical hwhash)
    exact ⟨⟨hvplain, hwplain⟩, (hagree hvplain hwplain).mp h⟩
  · rintro ⟨⟨hvplain, hwplain⟩, hsame⟩
    exact (hagree hvplain hwplain).mpr hsame

/-- Equal hashes are equal values, and equal values have equal hashes, exactly for the
    values that do not differ in `__proto__` fields alone and, if they are equal, have
    no infinite number. -/
theorem hashCanonical_exact_iff (hdigest : DigestInjective) {v w : JsValue}
    (hv : ReturnedByJsonParse v) (hw : ReturnedByJsonParse w) :
    (HashesAgree v w ↔ SameJson v w) ↔
      (isPlainJson v = true ∧ isPlainJson w = true →
        SameJson (dropProto v) (dropProto w) → SameJson v w) ∧
      (SameJson v w → isPlainJson v = true ∧ isPlainJson w = true) := by
  have hvparsed := hv.isParsedJson
  have hwparsed := hw.isParsedJson
  have hdrop : SameJson v w → SameJson (dropProto v) (dropProto w) := fun h =>
    ⟨sameJson_dropProto v w hvparsed hwparsed h.1, sameJson_dropProto w v hwparsed hvparsed h.2⟩
  rw [hashesAgree_iff hdigest hvparsed hwparsed]
  constructor
  · intro h
    exact ⟨fun hplain hsame => h.mp ⟨hplain, hsame⟩, fun hsame => (h.mpr hsame).1⟩
  · rintro ⟨hproto, hfinite⟩
    exact ⟨fun h => hproto h.1 h.2, fun h => ⟨hfinite h, hdrop h⟩⟩

end

/-! ## Values that slip through -/

namespace Sample

/-- A date and an array with a hole in it. -/
def gappyValue : JsValue :=
  .object [(js "at", .classInstance (js "Date") []), (js "list", .array [.null, .hole])]

/-- `canonicalize` accepts them, which are no plain JSON data. -/
theorem gappyValue_accepted :
    isPlainJson gappyValue = false ∧
      ¬ ((∃ canonical, canonicalize gappyValue = .ok canonical) ↔
        isPlainJson gappyValue = true) := by
  have hplain : isPlainJson gappyValue = false := rfl
  have haccepted : Hashable gappyValue := (hashable_iff gappyValue).mpr rfl
  exact ⟨hplain, fun h => absurd (h.mp haccepted) (by rw [hplain]; decide)⟩

/-- A digest decides nothing about parsing. -/
theorem parse_pinnedNode (texts : List JsString) (fuel : Nat) :
    @parseValue (pinnedNode texts) fuel = @parseValue node fuel ∧
      @parseElements (pinnedNode texts) fuel = @parseElements node fuel ∧
      @parseMembers (pinnedNode texts) fuel = @parseMembers node fuel := by
  have hnumber : @readNumber (pinnedNode texts) = @readNumber node := rfl
  induction fuel with
  | zero => exact ⟨rfl, rfl, rfl⟩
  | succ fuel ih =>
    obtain ⟨hvalue, helements, hmembers⟩ := ih
    refine ⟨?_, ?_, ?_⟩
    · funext text
      unfold parseValue
      rw [helements, hmembers, hnumber]
    · funext text
      unfold parseElements
      rw [hvalue, helements]
    · funext text
      unfold parseMembers
      rw [hvalue, hmembers]

/-- What a canonical text is read as is returned by `JSON.parse`. -/
theorem returned_reread (texts : List JsString) (c : Canonical) :
    @ReturnedByJsonParse (pinnedNode texts) c.reread := by
  refine ⟨stringify c, ?_⟩
  rw [← @jsonParse_stringify node c c.readExactly_node]
  unfold jsonParse
  rw [(parse_pinnedNode texts _).1]

/-- Node, with a digest that is injective and SHA-256 on the texts used here. -/
@[reducible] def textsNode : Host :=
  pinnedNode [js "\x7b\x7d", js "\x7b\"a\":[true],\"b\":null\x7d"]

theorem textsNode_injective : @DigestInjective textsNode :=
  pinnedNode_injective (by decide +kernel) (by decide +kernel)

attribute [local instance] textsNode

/-- An object with a field called `__proto__`. -/
def protoField : JsValue := .object [(protoKey, .bool true)]

/-- It hashes like the empty object. -/
theorem protoField_unhashed :
    DigestInjective ∧ ReturnedByJsonParse protoField ∧ ReturnedByJsonParse (.object []) ∧
      ¬ (HashesAgree protoField (.object []) ↔ SameJson protoField (.object [])) := by
  have hcanonical : canonicalize protoField = canonicalize (.object []) := rfl
  have hempty : canonicalize (.object []) = .ok (.object []) := rfl
  have hagree : HashesAgree protoField (.object []) := by
    refine ⟨sha256Hex (stringify (.object [])), ?_, ?_⟩
    · rw [hashCanonical, hcanonical, hempty, Except.map]
    · rw [hashCanonical, hempty, Except.map]
  refine ⟨textsNode_injective, returned_reread _ (.object [(protoKey, .bool true)]),
    returned_reread _ (.object []), fun h => absurd (h.mp hagree) (by decide)⟩

/-- The members of one object. -/
def memberA : JsString × Canonical := (js "a", .array [.bool true])

/-- The other one. -/
def memberB : JsString × Canonical := (js "b", .null)

/-- In either order they hash alike. -/
theorem reordered_agree :
    HashesAgree (Canonical.object [memberB, memberA]).reread
      (Canonical.object [memberA, memberB]).reread :=
  ((hashCanonical_exact_iff textsNode_injective (returned_reread _ _) (returned_reread _ _)).mpr
    ⟨fun _ _ => by decide, fun _ => ⟨rfl, rfl⟩⟩).mpr (by decide)

end Sample

end ActionHarbor
