import ActionHarbor.ForStd.AssocList
import ActionHarbor.Spec.JsonText

/-!
# JSON values up to key order

`canonicalize` loses the order of an object's keys and the sign of zero, and
nothing else. Two JSON values with one canonical text are the same value up to
key order.

## Key results

- `sameJson`: equality of JSON values up to key order
- `sameJson_reread`: a value is the same as what its canonical text is read as
- `sameJson_of_hashCanonical`: equal hashes, equal values
-/

namespace ActionHarbor

/-! ## Equality up to key order -/

mutual

/-- The same JSON value: numbers by `===`, objects by what their keys are bound to. -/
def sameJson : JsValue → JsValue → Bool
  | .null, .null => true
  | .bool a, .bool b => a = b
  | .number m, .number n => m.strictEq n
  | .string s, .string t => s = t
  | .array items, .array others => sameItems items others
  | .object props, .object others => props.length = others.length && sameProps props others
  | _, _ => false

/-- The same elements in the same places. -/
def sameItems : List JsValue → List JsValue → Bool
  | [], [] => true
  | item :: rest, other :: others => sameJson item other && sameItems rest others
  | _, _ => false

/-- Every property of the left list is one of the right list. -/
def sameProps : List (JsString × JsValue) → List (JsString × JsValue) → Bool
  | [], _ => true
  | (key, value) :: rest, others =>
    (match others.lookup key with
      | some other => sameJson value other
      | none => false) && sameProps rest others

end

example :
    sameJson (.object [(js "a", .null), (js "b", .array [.bool true])])
        (.object [(js "b", .array [.bool true]), (js "a", .null)]) = true ∧
      sameJson (.object [(js "a", .null)]) (.object [(js "a", .bool false)]) = false := by
  decide

mutual

/-- JSON data that an object literal can spell: no property is called `__proto__`. -/
def isJsonData : JsValue → Bool
  | .null | .bool _ | .string _ => true
  | .number n => n.isFinite
  | .array items => isJsonItems items
  | .object props => decide (AssocList.keys props).Nodup && isJsonProps props
  | _ => false

/-- Every element is such data. -/
def isJsonItems : List JsValue → Bool
  | [] => true
  | item :: rest => isJsonData item && isJsonItems rest

/-- Every property is, under another name than `__proto__`. -/
def isJsonProps : List (JsString × JsValue) → Bool
  | [] => true
  | (key, value) :: rest => key ≠ protoKey && isJsonData value && isJsonProps rest

end

@[simp] theorem isJsonItems_cons {item : JsValue} {rest : List JsValue} :
    isJsonItems (item :: rest) = true ↔ isJsonData item = true ∧ isJsonItems rest = true := by
  simp [isJsonItems]

@[simp] theorem isJsonProps_cons {key : JsString} {value : JsValue}
    {rest : List (JsString × JsValue)} :
    isJsonProps ((key, value) :: rest) = true ↔
      key ≠ protoKey ∧ isJsonData value = true ∧ isJsonProps rest = true := by
  simp [isJsonProps, and_assoc]

@[simp] theorem isJsonData_object {props : List (JsString × JsValue)} :
    isJsonData (.object props) = true ↔
      (AssocList.keys props).Nodup ∧ isJsonProps props = true := by
  simp [isJsonData]

/-- What a property is bound to is JSON data. -/
theorem isJsonData_of_lookup {props : List (JsString × JsValue)} (h : isJsonProps props = true)
    {key : JsString} {value : JsValue} (hvalue : props.lookup key = some value) :
    isJsonData value = true := by
  induction props with
  | nil => cases hvalue
  | cons p rest ih =>
    obtain ⟨key', value'⟩ := p
    obtain ⟨-, hdata, hrest⟩ := isJsonProps_cons.mp h
    rw [List.lookup_cons] at hvalue
    cases hkey : key == key' with
    | true =>
      rw [hkey] at hvalue
      exact Option.some.inj hvalue ▸ hdata
    | false =>
      rw [hkey] at hvalue
      exact ih hrest hvalue

/-- The first property is found on the right, and so are the others. -/
@[simp] theorem sameProps_cons {key : JsString} {value : JsValue}
    {rest others : List (JsString × JsValue)} :
    sameProps ((key, value) :: rest) others = true ↔
      (∃ other, others.lookup key = some other ∧ sameJson value other = true) ∧
        sameProps rest others = true := by
  rw [sameProps, Bool.and_eq_true]
  cases others.lookup key <;> simp

/-- Every property of the left list has its match on the right. -/
theorem sameProps_lookup {props others : List (JsString × JsValue)}
    (h : sameProps props others = true) {key : JsString} {value : JsValue}
    (hvalue : props.lookup key = some value) :
    ∃ other, others.lookup key = some other ∧ sameJson value other = true := by
  induction props with
  | nil => cases hvalue
  | cons p rest ih =>
    obtain ⟨key', value'⟩ := p
    obtain ⟨hhead, hrest⟩ := sameProps_cons.mp h
    rw [List.lookup_cons] at hvalue
    by_cases hkey : key = key'
    · subst hkey
      simp only [beq_self_eq_true, Option.some.injEq] at hvalue
      exact hvalue ▸ hhead
    · have hne : (key == key') = false := beq_false_of_ne hkey
      rw [hne] at hvalue
      exact ih hrest hvalue

/-- A list whose properties all have their match on the right. -/
theorem sameProps_of_forall {props others : List (JsString × JsValue)}
    (h : ∀ key value, (key, value) ∈ props →
      ∃ other, others.lookup key = some other ∧ sameJson value other = true) :
    sameProps props others = true := by
  induction props with
  | nil => rfl
  | cons p rest ih =>
    obtain ⟨key, value⟩ := p
    exact sameProps_cons.mpr ⟨h key value List.mem_cons_self,
      ih fun k v hmem => h k v (List.mem_cons_of_mem _ hmem)⟩

/-- The keys on the left are keys on the right. -/
theorem sameProps_keys {props others : List (JsString × JsValue)}
    (h : sameProps props others = true) : ∀ key ∈ AssocList.keys props, key ∈ AssocList.keys others := by
  intro key hkey
  obtain ⟨value, hvalue⟩ := AssocList.exists_lookup_of_mem_keys hkey
  obtain ⟨other, hother, -⟩ := sameProps_lookup h hvalue
  exact AssocList.mem_keys_of_lookup hother

/-- Numbers equal to one number are equal. -/
theorem JsNumber.strictEq_euclid {m n k : JsNumber} (hm : m.strictEq k = true)
    (hn : n.strictEq k = true) : m.strictEq n = true := by
  cases m <;> cases n <;> cases k <;> simp_all [JsNumber.strictEq]
  grind

mutual

/-- Two values that are the same as a third one are the same. -/
theorem sameJson_euclid (v w u : JsValue) (hv : isJsonData v = true) (hw : isJsonData w = true)
    (hvu : sameJson v u = true) (hwu : sameJson w u = true) : sameJson v w = true := by
  match v, u, w with
  | .null, .null, .null => rfl
  | .bool a, .bool c, .bool b =>
    simp only [sameJson, decide_eq_true_eq] at *
    exact hvu.trans hwu.symm
  | .number m, .number k, .number n => exact JsNumber.strictEq_euclid hvu hwu
  | .string a, .string c, .string b =>
    simp only [sameJson, decide_eq_true_eq] at *
    exact hvu.trans hwu.symm
  | .array items, .array targets, .array others =>
    exact sameItems_euclid items others targets hv hw hvu hwu
  | .object props, .object targets, .object others =>
    simp only [sameJson, Bool.and_eq_true, decide_eq_true_eq] at hvu hwu ⊢
    obtain ⟨-, hprops⟩ := isJsonData_object.mp hv
    obtain ⟨hdistinct, hothers⟩ := isJsonData_object.mp hw
    -- the keys of the other object are all keys of the third one
    have hperm := AssocList.keys_perm hdistinct hwu.1 (sameProps_keys hwu.2)
    refine ⟨hvu.1.trans hwu.1.symm, ?_⟩
    refine sameProps_euclid props others targets hprops hothers hvu.2 hwu.2 fun key hkey => ?_
    exact hperm.mem_iff.mpr (sameProps_keys hvu.2 key hkey)
  | .undefined, _, _ | .bigint _, _, _ | .symbol _, _, _ | .function _, _, _ | .hole, _, _
  | .classInstance _ _, _, _ => cases hv

/-- So are two lists of elements. -/
theorem sameItems_euclid (items others targets : List JsValue) (hitems : isJsonItems items = true)
    (hothers : isJsonItems others = true) (h : sameItems items targets = true)
    (h' : sameItems others targets = true) : sameItems items others = true := by
  match items, targets, others with
  | [], [], [] => rfl
  | item :: items, target :: targets, other :: others =>
    simp only [sameItems, Bool.and_eq_true, isJsonItems_cons] at *
    exact ⟨sameJson_euclid item other target hitems.1 hothers.1 h.1 h'.1,
      sameItems_euclid items others targets hitems.2 hothers.2 h.2 h'.2⟩

/-- And the properties of two objects with the same keys. -/
theorem sameProps_euclid (props others targets : List (JsString × JsValue))
    (hprops : isJsonProps props = true) (hothers : isJsonProps others = true)
    (h : sameProps props targets = true) (h' : sameProps others targets = true)
    (hkeys : ∀ key ∈ AssocList.keys props, key ∈ AssocList.keys others) :
    sameProps props others = true := by
  match props with
  | [] => rfl
  | (key, value) :: rest =>
    obtain ⟨⟨target, htarget, hsame⟩, hrest⟩ := sameProps_cons.mp h
    obtain ⟨-, hvalue, hrestData⟩ := isJsonProps_cons.mp hprops
    obtain ⟨other, hother⟩ := AssocList.exists_lookup_of_mem_keys (hkeys key (by simp))
    obtain ⟨target', htarget', hsame'⟩ := sameProps_lookup h' hother
    obtain rfl : target' = target := Option.some.inj (htarget'.symm.trans htarget)
    have hotherData := isJsonData_of_lookup hothers hother
    exact sameProps_cons.mpr ⟨⟨other, hother,
        sameJson_euclid value other target' hvalue hotherData hsame hsame'⟩,
      sameProps_euclid rest others targets hrestData hothers hrest h'
        fun key hkey => hkeys key (List.mem_cons_of_mem _ hkey)⟩

end

theorem JsNumber.strictEq_trans {m n k : JsNumber} (h : m.strictEq n = true)
    (h' : n.strictEq k = true) : m.strictEq k = true := by
  cases m <;> cases n <;> cases k <;> simp_all [JsNumber.strictEq]
  grind

mutual

/-- What is the same as a value is the same as whatever that value is. -/
theorem sameJson_trans (v w u : JsValue) (h : sameJson v w = true) (h' : sameJson w u = true) :
    sameJson v u = true := by
  match v, w, u with
  | .null, .null, .null => rfl
  | .bool a, .bool b, .bool c =>
    simp only [sameJson, decide_eq_true_eq] at *
    exact h.trans h'
  | .number m, .number n, .number k => exact JsNumber.strictEq_trans h h'
  | .string a, .string b, .string c =>
    simp only [sameJson, decide_eq_true_eq] at *
    exact h.trans h'
  | .array items, .array others, .array targets => exact sameItems_trans items others targets h h'
  | .object props, .object others, .object targets =>
    simp only [sameJson, Bool.and_eq_true, decide_eq_true_eq] at h h' ⊢
    exact ⟨h.1.trans h'.1, sameProps_trans props others targets h.2 h'.2⟩

/-- So it is with lists of elements. -/
theorem sameItems_trans (items others targets : List JsValue)
    (h : sameItems items others = true) (h' : sameItems others targets = true) :
    sameItems items targets = true := by
  match items, others, targets with
  | [], [], [] => rfl
  | item :: items, other :: others, target :: targets =>
    simp only [sameItems, Bool.and_eq_true] at *
    exact ⟨sameJson_trans item other target h.1 h'.1,
      sameItems_trans items others targets h.2 h'.2⟩

/-- And with properties. -/
theorem sameProps_trans (props others targets : List (JsString × JsValue))
    (h : sameProps props others = true) (h' : sameProps others targets = true) :
    sameProps props targets = true := by
  match props with
  | [] => rfl
  | (key, value) :: rest =>
    obtain ⟨⟨other, hother, hsame⟩, hrest⟩ := sameProps_cons.mp h
    obtain ⟨target, htarget, hsame'⟩ := sameProps_lookup h' hother
    exact sameProps_cons.mpr ⟨⟨target, htarget, sameJson_trans value other target hsame hsame'⟩,
      sameProps_trans rest others targets hrest h'⟩

end

/-- Equality of JSON values up to key order. -/
def SameJson (v w : JsValue) : Prop := sameJson v w = true ∧ sameJson w v = true

instance (v w : JsValue) : Decidable (SameJson v w) :=
  inferInstanceAs (Decidable (sameJson v w = true ∧ sameJson w v = true))

theorem SameJson.symm {v w : JsValue} (h : SameJson v w) : SameJson w v := ⟨h.2, h.1⟩

theorem SameJson.trans {v w u : JsValue} (h : SameJson v w) (h' : SameJson w u) : SameJson v u :=
  ⟨sameJson_trans v w u h.1 h'.1, sameJson_trans u w v h'.2 h.2⟩

/-! ## Objects through the canonical text -/

/-- Property order is an order of the same properties. -/
theorem inPropertyOrder_perm {α : Type} (props : List (JsString × α)) :
    (inPropertyOrder props).Perm props := by
  have hsplit := List.filter_append_perm (fun p : JsString × α => (arrayIndex p.1).isSome) props
  have hnone : (fun p : JsString × α => !(arrayIndex p.1).isSome) =
      fun p => (arrayIndex p.1).isNone := by
    funext p
    cases arrayIndex p.1 <;> rfl
  rw [hnone] at hsplit
  exact ((List.perm_insertionSort _ _).append_right _).trans hsplit

/-- Defining properties with new names appends them. -/
theorem foldl_defineProp (members props : List (JsString × JsValue))
    (h : (AssocList.keys (props ++ members)).Nodup) :
    members.foldl (fun props p => defineProp props p.1 p.2) props = props ++ members := by
  induction members generalizing props with
  | nil => simp
  | cons p members ih =>
    have hassoc : props ++ p :: members = props ++ [p] ++ members := by simp
    have hnew : props.any (fun q => q.1 = p.1) = false := by
      rw [List.any_eq_false]
      intro q hq hkey
      rw [AssocList.keys, List.map_append, List.map_cons] at h
      refine List.disjoint_of_nodup_append h (List.mem_map_of_mem hq) ?_
      rw [of_decide_eq_true hkey]
      exact List.mem_cons_self
    rw [List.foldl_cons, defineProp, hnew]
    simp only [Bool.false_eq_true, if_false]
    rw [ih _ (hassoc ▸ h), hassoc]

/-- An object text with distinct keys is read as its members, in property order. -/
theorem objectOfMembers_eq {members : List (JsString × JsValue)}
    (h : (AssocList.keys members).Nodup) :
    objectOfMembers members = .object (inPropertyOrder members) := by
  rw [objectOfMembers, foldl_defineProp members [] (by simpa using h), List.nil_append]

/-- Rereading the properties of an object one by one. -/
theorem rereadProps_eq (props : List (JsString × Canonical)) :
    Canonical.rereadProps props = props.map fun p => (p.1, p.2.reread) := by
  induction props with
  | nil => rfl
  | cons p rest ih => rw [Canonical.rereadProps, ih]; rfl

/-- What `collect` gathers: the keys as they were, each bound to its outcome. -/
theorem collect_eq_ok {ε α : Type} {entries : List (JsString × Except ε α)}
    {values : List (JsString × α)} (h : collect entries = .ok values) :
    AssocList.keys values = AssocList.keys entries ∧
      ∀ key outcome, (key, outcome) ∈ entries → ∃ value, outcome = .ok value ∧ (key, value) ∈ values := by
  induction entries generalizing values with
  | nil =>
    cases h
    simp [AssocList.keys]
  | cons p rest ih =>
    -- the first error would be the answer
    obtain ⟨key, outcome⟩ := p
    cases outcome with
    | error e => cases h
    | ok value =>
      cases hrest : collect rest with
      | error e => rw [collect, hrest] at h; cases h
      | ok others =>
        rw [collect, hrest] at h
        obtain rfl := Except.ok.inj h
        obtain ⟨hkeys, hfound⟩ := ih hrest
        refine ⟨congrArg (key :: ·) hkeys, fun k outcome hmem => ?_⟩
        rcases List.mem_cons.mp hmem with heq | hmem
        · obtain ⟨rfl, rfl⟩ := Prod.mk.inj heq
          exact ⟨value, rfl, List.mem_cons_self⟩
        · obtain ⟨other, hother, hin⟩ := hfound k outcome hmem
          exact ⟨other, hother, List.mem_cons_of_mem _ hin⟩

/-- The loop over an object's fields runs at each of its properties. -/
theorem mem_canonicalizeFields {props : List (JsString × JsValue)} {key : JsString}
    {value : JsValue} (h : (key, value) ∈ props) (hdefined : value ≠ .undefined) :
    (key, canonicalize value) ∈ canonicalizeFields props := by
  induction props with
  | nil => cases h
  | cons p rest ih =>
    obtain ⟨key', value'⟩ := p
    rcases List.mem_cons.mp h with heq | h
    · obtain ⟨rfl, rfl⟩ := Prod.mk.inj heq
      rw [canonicalizeFields]
      · exact List.mem_cons_self
      · exact hdefined
    · have := ih h
      cases value' <;> exact List.mem_cons_of_mem _ this

/-- The loop does not touch the keys. -/
theorem keys_canonicalizeFields (props : List (JsString × JsValue)) :
    AssocList.keys (canonicalizeFields props) = AssocList.keys props := by
  induction props with
  | nil => rfl
  | cons p rest ih =>
    obtain ⟨key, value⟩ := p
    cases value <;> exact congrArg (key :: ·) ih

/-- What the loop over an object's sorted keys gathers: every property under its key,
    in key order, with what its value becomes. -/
structure Gathers (props : List (JsString × JsValue)) (entries : List (JsString × Canonical)) :
    Prop where
  sorted : entries.Pairwise fun p q => p.1 ≤ q.1
  keys : (AssocList.keys entries).Perm (AssocList.keys props)
  values : ∀ key value, (key, value) ∈ props →
    ∃ c, canonicalize value = .ok c ∧ (key, c) ∈ entries

/-- Sorting by key leaves the keys in order. -/
theorem sortKeys_sorted {α : Type} (props : List (JsString × α)) :
    (sortKeys props).Pairwise fun p q => p.1 ≤ q.1 := by
  have : IsTrans (JsString × α) fun p q => p.1 ≤ q.1 := ⟨fun _ _ _ h h' => List.le_trans h h'⟩
  have : Std.Total (α := JsString × α) fun p q => p.1 ≤ q.1 :=
    ⟨fun p q => List.le_total p.1 q.1⟩
  exact List.pairwise_insertionSort _ props

/-- The loop body at a property, `undefined` or not. -/
theorem mem_canonicalizeFields_of_mem {props : List (JsString × JsValue)} {key : JsString}
    {value : JsValue} (h : (key, value) ∈ props) :
    (∃ error, (key, .error error) ∈ canonicalizeFields props) ∨
      (key, canonicalize value) ∈ canonicalizeFields props := by
  by_cases hvalue : value = .undefined
  · subst hvalue
    refine .inl ⟨.undefinedField key, ?_⟩
    induction props with
    | nil => cases h
    | cons p rest ih =>
      obtain ⟨key', value'⟩ := p
      rcases List.mem_cons.mp h with heq | hrest
      · obtain ⟨rfl, rfl⟩ := Prod.mk.inj heq
        exact List.mem_cons_self
      · cases value' <;> exact List.mem_cons_of_mem _ (ih hrest)
  · exact .inr (mem_canonicalizeFields h hvalue)

/-- An object through `canonicalize`. -/
theorem gathers_of_canonicalize {props : List (JsString × JsValue)} {canonical : Canonical}
    (h : canonicalize (.object props) = .ok canonical) :
    ∃ entries, Gathers props entries ∧ canonical = .object (assignAll entries) := by
  rw [canonicalize, canonicalizeObject] at h
  cases hcollect : collect (sortKeys (canonicalizeFields props)) with
  | error e => rw [hcollect] at h; cases h
  | ok entries =>
    rw [hcollect] at h
    obtain rfl := Except.ok.inj h
    obtain ⟨hkeys, hfound⟩ := collect_eq_ok hcollect
    -- sorted by key, with the keys of the object, each with its canonical value
    have hperm : (sortKeys (canonicalizeFields props)).Perm (canonicalizeFields props) :=
      List.perm_insertionSort _ _
    refine ⟨entries, ⟨?_, ?_, ?_⟩, rfl⟩
    · have hsorted := List.pairwise_map.mpr (sortKeys_sorted (canonicalizeFields props))
      rw [← AssocList.keys, ← hkeys] at hsorted
      exact List.pairwise_map.mp hsorted
    · rw [hkeys, ← keys_canonicalizeFields]
      exact hperm.map Prod.fst
    · intro key value hmem
      rcases mem_canonicalizeFields_of_mem hmem with ⟨error, herror⟩ | hvalue
      · obtain ⟨c, hc, -⟩ := hfound key _ (hperm.mem_iff.mpr herror)
        cases hc
      · exact hfound key _ (hperm.mem_iff.mpr hvalue)

/-- No property of JSON data is called `__proto__`. -/
theorem protoKey_notMem_keys {props : List (JsString × JsValue)} (h : isJsonProps props = true) :
    protoKey ∉ AssocList.keys props := by
  induction props with
  | nil => simp [AssocList.keys]
  | cons p rest ih =>
    obtain ⟨hkey, -, hrest⟩ := isJsonProps_cons.mp h
    simp only [AssocList.keys, List.map_cons, List.mem_cons, not_or]
    exact ⟨hkey.symm, ih hrest⟩

/-- An object of JSON data through `canonicalize`: the same keys, each bound to what
    its own value becomes. -/
theorem canonicalize_object {props : List (JsString × JsValue)} {canonical : Canonical}
    (hdistinct : (AssocList.keys props).Nodup) (hdata : isJsonProps props = true)
    (hcanonical : canonicalize (.object props) = .ok canonical) :
    ∃ assigned, canonical = .object assigned ∧
      (AssocList.keys assigned).Perm (AssocList.keys props) ∧
      ∀ key value, (key, value) ∈ props →
        ∃ c, canonicalize value = .ok c ∧ assigned.lookup key = some c := by
  obtain ⟨entries, hentries, rfl⟩ := gathers_of_canonicalize hcanonical
  have hnodup : (AssocList.keys entries).Nodup := hentries.keys.nodup_iff.mpr hdistinct
  -- assigning only reorders, as no key is `__proto__`
  have hassigned : (assignAll entries).Perm entries := by
    have hkept : entries.filter (fun p => p.1 ≠ protoKey) = entries := by
      refine List.filter_eq_self.mpr fun p hp => decide_eq_true ?_
      intro hproto
      refine protoKey_notMem_keys hdata (hentries.keys.mem_iff.mp ?_)
      exact hproto ▸ List.mem_map_of_mem hp
    rw [assignAll, hkept]
    exact inPropertyOrder_perm entries
  refine ⟨assignAll entries, rfl, (hassigned.map Prod.fst).trans hentries.keys, ?_⟩
  intro key value hmem
  obtain ⟨c, hc, hin⟩ := hentries.values key value hmem
  refine ⟨c, hc, ?_⟩
  rw [← AssocList.lookup_perm hassigned.symm hnodup, AssocList.lookup_eq_some_iff_mem hnodup]
  exact hin

/-- And then through its text. -/
theorem reread_object {props : List (JsString × JsValue)} {canonical : Canonical}
    (hdistinct : (AssocList.keys props).Nodup) (hdata : isJsonProps props = true)
    (hcanonical : canonicalize (.object props) = .ok canonical) :
    ∃ others, canonical.reread = .object others ∧ props.length = others.length ∧
      ∀ key value, (key, value) ∈ props →
        ∃ c, canonicalize value = .ok c ∧ others.lookup key = some c.reread := by
  obtain ⟨assigned, rfl, hkeys, hfound⟩ := canonicalize_object hdistinct hdata hcanonical
  -- reading a text back keeps the keys, up to their order
  have hmembers : AssocList.keys (Canonical.rereadProps assigned) = AssocList.keys assigned := by
    rw [rereadProps_eq, AssocList.keys, List.map_map]
    rfl
  have hnodup : (AssocList.keys (Canonical.rereadProps assigned)).Nodup :=
    hmembers ▸ hkeys.nodup_iff.mpr hdistinct
  have hperm := inPropertyOrder_perm (Canonical.rereadProps assigned)
  refine ⟨inPropertyOrder (Canonical.rereadProps assigned),
    by rw [Canonical.reread, objectOfMembers_eq hnodup], ?_, ?_⟩
  · have hlength := hkeys.length_eq
    simp only [AssocList.keys, List.length_map] at hlength
    rw [hperm.length_eq, rereadProps_eq, List.length_map, hlength]
  · intro key value hmem
    obtain ⟨c, hc, hlookup⟩ := hfound key value hmem
    refine ⟨c, hc, ?_⟩
    rw [← AssocList.lookup_perm hperm.symm hnodup, rereadProps_eq, AssocList.lookup_map_values,
      hlookup]
    rfl

/-! ## The canonical text -/

mutual

/-- JSON data is the same as what its canonical text is read as. -/
theorem sameJson_reread (v : JsValue) (canonical : Canonical) (hv : isJsonData v = true)
    (hcanonical : canonicalize v = .ok canonical) : sameJson v canonical.reread = true := by
  match v with
  -- by the value; a number is read back as it is, up to the sign of zero
  | .null => obtain rfl := Except.ok.inj hcanonical; rfl
  | .bool b =>
    obtain rfl := Except.ok.inj hcanonical
    simp [Canonical.reread, sameJson]
  | .string s =>
    obtain rfl := Except.ok.inj hcanonical
    simp [Canonical.reread, sameJson]
  | .number n =>
    have hfinite : n.isFinite = true := hv
    rw [canonicalize, if_pos hfinite] at hcanonical
    obtain rfl := Except.ok.inj hcanonical
    rw [Canonical.reread, if_pos hfinite, sameJson]
    cases n with
    | nan => cases hfinite
    | infinity negative => cases hfinite
    | finite negative d => cases negative <;> simp [JsNumber.reread, JsNumber.strictEq]
  | .array items =>
    rw [canonicalize] at hcanonical
    cases hitems : canonicalizeItems items with
    | error e => rw [hitems] at hcanonical; cases hcanonical
    | ok values =>
      rw [hitems] at hcanonical
      obtain rfl := Except.ok.inj hcanonical
      exact sameItems_reread items values hv hitems
  | .object props =>
    obtain ⟨hdistinct, hdata⟩ := isJsonData_object.mp hv
    obtain ⟨others, hothers, hlength, hfound⟩ := reread_object hdistinct hdata hcanonical
    rw [hothers, sameJson, Bool.and_eq_true, decide_eq_true_eq]
    exact ⟨hlength, sameProps_reread props others hdata hfound⟩
  | .undefined | .bigint _ | .symbol _ | .function _ | .hole | .classInstance _ _ => cases hv

/-- So are the elements of an array. -/
theorem sameItems_reread (items : List JsValue) (values : List Canonical)
    (hitems : isJsonItems items = true) (hcanonical : canonicalizeItems items = .ok values) :
    sameItems items (Canonical.rereadItems values) = true := by
  match items with
  | [] => obtain rfl := Except.ok.inj hcanonical; rfl
  | item :: rest =>
    obtain ⟨hitem, hrest⟩ := isJsonItems_cons.mp hitems
    have hhole : item ≠ .hole := by rintro rfl; cases hitem
    rw [canonicalizeItems.eq_3 _ _ hhole] at hcanonical
    cases hhead : canonicalize item with
    | error e => rw [hhead] at hcanonical; cases hcanonical
    | ok c =>
      cases htail : canonicalizeItems rest with
      | error e => rw [hhead, htail] at hcanonical; cases hcanonical
      | ok cs =>
        rw [hhead, htail] at hcanonical
        obtain rfl := Except.ok.inj hcanonical
        rw [Canonical.rereadItems, sameItems, sameJson_reread item c hitem hhead,
          sameItems_reread rest cs hrest htail]
        rfl

/-- And the properties of an object, wherever they are found. -/
theorem sameProps_reread (props others : List (JsString × JsValue))
    (hdata : isJsonProps props = true)
    (hfound : ∀ key value, (key, value) ∈ props →
      ∃ c, canonicalize value = .ok c ∧ others.lookup key = some c.reread) :
    sameProps props others = true := by
  match props with
  | [] => rfl
  | (key, value) :: rest =>
    obtain ⟨-, hvalue, hrest⟩ := isJsonProps_cons.mp hdata
    obtain ⟨c, hc, hlookup⟩ := hfound key value List.mem_cons_self
    refine sameProps_cons.mpr ⟨⟨_, hlookup, sameJson_reread value c hvalue hc⟩, ?_⟩
    exact sameProps_reread rest others hrest
      fun k v hmem => hfound k v (List.mem_cons_of_mem _ hmem)

end

/-- Two pieces of JSON data with one canonical text are the same. -/
theorem sameJson_of_stringify_eq {v w : JsValue} {c d : Canonical} (hv : isJsonData v = true)
    (hw : isJsonData w = true) (hc : canonicalize v = .ok c) (hd : canonicalize w = .ok d)
    (h : stringify c = stringify d) : sameJson v w = true := by
  refine sameJson_euclid v w c.reread hv hw (sameJson_reread v c hv hc) ?_
  rw [reread_eq_of_stringify_eq h]
  exact sameJson_reread w d hw hd

section
variable [Host]

/-- The digest tells canonical texts apart: what injectivity of SHA-256 gives. The
    texts are well-formed UTF-16, so their UTF-8 bytes differ when they do. -/
def DigestInjective : Prop := Set.InjOn Host.sha256Digest (Set.range stringify)

/-- Equal hashes of JSON data are hashes of the same data. -/
theorem sameJson_of_hashCanonical (hdigest : DigestInjective) {v w : JsValue} {hash : JsString}
    (hv : isJsonData v = true) (hw : isJsonData w = true) (hvhash : hashCanonical v = .ok hash)
    (hwhash : hashCanonical w = .ok hash) : sameJson v w = true := by
  rw [hashCanonical] at hvhash hwhash
  cases hc : canonicalize v with
  | error e => rw [hc] at hvhash; cases hvhash
  | ok c =>
    cases hd : canonicalize w with
    | error e => rw [hd] at hwhash; cases hwhash
    | ok d =>
      rw [hc] at hvhash
      rw [hd] at hwhash
      have hhex : sha256Hex (stringify c) = sha256Hex (stringify d) :=
        Except.ok.inj (hvhash.trans hwhash.symm)
      have htext := hdigest ⟨c, rfl⟩ ⟨d, rfl⟩ (List.append_cancel_left hhex)
      exact sameJson_of_stringify_eq hv hw hc hd htext

end

end ActionHarbor
