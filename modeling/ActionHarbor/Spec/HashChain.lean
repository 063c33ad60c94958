import ActionHarbor.Spec.LiveLedger
import ActionHarbor.Spec.SameJson

/-!
# The hash chain binds its history

A row that checks holds its position, the hash of the row before and the hash of
everything but that hash. With a digest that tells texts apart, one hash therefore
fixes a position, a row and the hash before it, and so on back to the first row.

## Key results

- `RowChecks`: what the checker has established of one row
- `RowChecks.same`: rows with one hash are one row
- `hashChain_binding`: one hash fixes the ledger up to its row
-/

namespace ActionHarbor

section
variable [Host]

/-! ## One row -/

/-- A row that checks at a position, behind a row with hash `prevHash`. -/
structure RowChecks (row : JsValue) (sequence : Nat) (prevHash hash : JsString) : Prop where
  position : ∃ n, row.getProp (js "sequence") = some (.number n) ∧
    n.strictEq (.ofNat sequence) = true
  pointer : row.getProp (js "prevHash") = some (.string prevHash)
  stored : row.getProp (js "hash") = some (.string hash)
  hashed : hashCanonical (Untyped.withoutHash row) = .ok hash

omit [Host] in
/-- `===` with a string is equality. -/
theorem JsValue.eq_of_isString {value : JsValue} {s : JsString} (h : value.isString s = true) :
    value = .string s := by
  cases value <;> simp_all [JsValue.isString]

/-- The first row of a list that checks, then the others. -/
theorem rowChecks_of_verifyLoop {index : Nat} {prevHash : JsString} {row : JsValue}
    {rest : List JsValue} (h : Untyped.verifyLoop index prevHash (row :: rest) = .ok none) :
    ∃ hash, RowChecks row (index + 1) prevHash hash ∧
      Untyped.verifyLoop (index + 1) hash rest = .ok none := by
  rw [Untyped.verifyLoop] at h
  -- each check that is passed gives one property of the row
  split at h
  · next sequence pointer hash hsequence hpointer hhash =>
    split at h
    · cases h
    rename_i hnat
    split at h
    · cases h
    rename_i hprev
    cases hrecomputed : hashCanonical (Untyped.withoutHash row) with
    | error e =>
      rw [Untyped.computeEntryHash, hrecomputed] at h
      cases h
    | ok recomputed =>
      rw [Untyped.computeEntryHash, hrecomputed] at h
      simp only [Except.mapError, bind, Except.bind] at h
      split at h
      · cases h
      rename_i hmatch
      simp only [Bool.not_eq_true', Bool.not_eq_false] at hnat hprev hmatch
      refine ⟨recomputed, ⟨?_, ?_, ?_, hrecomputed⟩, h⟩
      · cases sequence <;> simp only [Untyped.isNat, Bool.false_eq_true] at hnat
        exact ⟨_, hsequence, hnat⟩
      · rw [hpointer, JsValue.eq_of_isString hprev]
      · rw [hhash, JsValue.eq_of_isString hmatch]
  · cases h

omit [Host] in
/-- Numbers that are `===` to two naturals and to each other give one natural. -/
theorem JsNumber.ofNat_unique {m n : JsNumber} {i j : Nat} (hm : m.strictEq (.ofNat i) = true)
    (hn : n.strictEq (.ofNat j) = true) (h : m.strictEq n = true) : i = j := by
  have hsymm : ∀ {a b : JsNumber}, a.strictEq b = true → b.strictEq a = true := by
    intro a b hab
    cases a <;> cases b <;> simp_all [JsNumber.strictEq]
    grind
  have hij : (JsNumber.ofNat i).strictEq (.ofNat j) = true :=
    JsNumber.strictEq_euclid (JsNumber.strictEq_euclid (hsymm hm) (hsymm h)) (hsymm hn)
  simpa using hij

omit [Host] in
/-- Another property than `hash` is still there when `hash` is taken out. -/
theorem lookup_withoutHash (props : List (JsString × JsValue)) {key : JsString}
    (hkey : key ≠ js "hash") :
    (props.filter fun p => p.1 ≠ js "hash").lookup key = props.lookup key := by
  induction props with
  | nil => rfl
  | cons p rest ih =>
    obtain ⟨key', value⟩ := p
    rw [List.filter_cons]
    split
    · rw [List.lookup_cons, List.lookup_cons, ih]
    · next hdropped =>
      have hhash : key' = js "hash" := by simpa using hdropped
      have hne : (key == key') = false := beq_false_of_ne (hhash ▸ hkey)
      rw [ih, List.lookup_cons, hne]

omit [Host] in
/-- What is left without `hash` is JSON data. -/
theorem isJsonData_withoutHash {props : List (JsString × JsValue)}
    (h : isJsonData (.object props) = true) :
    isJsonData (Untyped.withoutHash (.object props)) = true := by
  obtain ⟨hdistinct, hdata⟩ := isJsonData_object.mp h
  rw [Untyped.withoutHash, isJsonData_object]
  refine ⟨hdistinct.sublist (List.filter_sublist.map Prod.fst), ?_⟩
  clear hdistinct h
  induction props with
  | nil => rfl
  | cons p rest ih =>
    obtain ⟨key, value⟩ := p
    obtain ⟨hkey, hvalue, hrest⟩ := isJsonProps_cons.mp hdata
    rw [List.filter_cons]
    split
    · exact isJsonProps_cons.mpr ⟨hkey, hvalue, ih hrest⟩
    · exact ih hrest

omit [Host] in
/-- Objects with one `hash` that are the same without it are the same. -/
theorem sameJson_of_withoutHash {props others : List (JsString × JsValue)} {hash : JsString}
    (hdistinct : (AssocList.keys props).Nodup) (hdistinct' : (AssocList.keys others).Nodup)
    (hhash : props.lookup (js "hash") = some (.string hash))
    (hhash' : others.lookup (js "hash") = some (.string hash))
    (h : sameJson (Untyped.withoutHash (.object props)) (Untyped.withoutHash (.object others)) =
      true) : sameJson (.object props) (.object others) = true := by
  simp only [Untyped.withoutHash, sameJson, Bool.and_eq_true, decide_eq_true_eq] at h ⊢
  obtain ⟨hlength, hsame⟩ := h
  have hfiltered : ∀ {l : List (JsString × JsValue)} (key : JsString),
      key ∈ AssocList.keys (l.filter fun p => p.1 ≠ js "hash") ↔
        key ∈ AssocList.keys l ∧ key ≠ js "hash" := by
    intro l key
    simp [AssocList.keys, List.mem_map, List.mem_filter]
  have hperm := AssocList.keys_perm (hdistinct.sublist (List.filter_sublist.map Prod.fst)) hlength
    (sameProps_keys hsame)
  -- the same keys: `hash` on both sides, the others through the filtered lists
  have hkeys : (AssocList.keys props).Perm (AssocList.keys others) := by
    refine (List.perm_ext_iff_of_nodup hdistinct hdistinct').mpr fun key => ?_
    by_cases hkey : key = js "hash"
    · subst hkey
      exact iff_of_true (AssocList.mem_keys_of_lookup hhash) (AssocList.mem_keys_of_lookup hhash')
    · have := hperm.mem_iff (a := key)
      rw [hfiltered, hfiltered] at this
      simpa [hkey] using this
  refine ⟨by simpa [AssocList.keys] using hkeys.length_eq, sameProps_of_forall ?_⟩
  intro key value hmem
  have hvalue := (AssocList.lookup_eq_some_iff_mem hdistinct).mpr hmem
  by_cases hkey : key = js "hash"
  · subst hkey
    rw [hhash] at hvalue
    obtain rfl := Option.some.inj hvalue
    exact ⟨_, hhash', by simp [sameJson]⟩
  · rw [← lookup_withoutHash props hkey] at hvalue
    rw [← lookup_withoutHash others hkey]
    exact sameProps_lookup hsame hvalue

omit [Host] in
/-- Of JSON data only an object has properties. -/
theorem object_of_getProp {row : JsValue} {key : JsString} {value : JsValue}
    (hrow : isJsonData row = true) (h : row.getProp key = some value) (hvalue : value ≠ .undefined) :
    ∃ props, row = .object props := by
  cases row with
  | object props => exact ⟨props, rfl⟩
  | classInstance className props => cases hrow
  | undefined | null | hole => cases h
  | bool _ | number _ | string _ | bigint _ | symbol _ | function _ | array _ =>
    exact absurd (Option.some.inj h).symm hvalue

omit [Host] in
/-- A property that is read is bound. -/
theorem lookup_of_getProp {props : List (JsString × JsValue)} {key : JsString} {value : JsValue}
    (h : (JsValue.object props).getProp key = some value) (hvalue : value ≠ .undefined) :
    props.lookup key = some value := by
  have hget : propOf props key = value := Option.some.inj h
  rw [propOf] at hget
  cases hlookup : props.lookup key with
  | none => rw [hlookup] at hget; exact absurd hget.symm hvalue
  | some found => rw [hlookup] at hget; exact congrArg some hget

/-- Two rows that check with one hash are one row, at one position, behind one hash. -/
theorem RowChecks.same (hdigest : DigestInjective) {row other : JsValue} {i j : Nat}
    {prevHash prevHash' hash : JsString} (h : RowChecks row i prevHash hash)
    (h' : RowChecks other j prevHash' hash) (hrow : isJsonData row = true)
    (hother : isJsonData other = true) :
    i = j ∧ prevHash = prevHash' ∧ sameJson row other = true := by
  obtain ⟨props, rfl⟩ := object_of_getProp hrow h.stored (by simp)
  obtain ⟨others, rfl⟩ := object_of_getProp hother h'.stored (by simp)
  obtain ⟨n, hn, hni⟩ := h.position
  obtain ⟨m, hm, hmj⟩ := h'.position
  have hn := lookup_of_getProp hn (by simp)
  have hm := lookup_of_getProp hm (by simp)
  have hpointer := lookup_of_getProp h.pointer (by simp)
  have hpointer' := lookup_of_getProp h'.pointer (by simp)
  -- one digest of two rows: the rows are equal but for the stored hash
  have hrest : sameJson (Untyped.withoutHash (.object props))
      (Untyped.withoutHash (.object others)) = true :=
    sameJson_of_hashCanonical hdigest (isJsonData_withoutHash hrow)
      (isJsonData_withoutHash hother) h.hashed h'.hashed
  have hall := sameJson_of_withoutHash (isJsonData_object.mp hrow).1 (isJsonData_object.mp hother).1
    (lookup_of_getProp h.stored (by simp)) (lookup_of_getProp h'.stored (by simp)) hrest
  have hprops : sameProps props others = true := by
    simp only [sameJson, Bool.and_eq_true] at hall
    exact hall.2
  refine ⟨?_, ?_, hall⟩
  · obtain ⟨value, hvalue, hsame⟩ := sameProps_lookup hprops hn
    obtain rfl := Option.some.inj (hvalue.symm.trans hm)
    exact JsNumber.ofNat_unique hni hmj hsame
  · obtain ⟨value, hvalue, hsame⟩ := sameProps_lookup hprops hpointer
    obtain rfl := Option.some.inj (hvalue.symm.trans hpointer')
    simpa [sameJson] using hsame

/-! ## The chain -/

/-- Every position of a list that checks: its row checks there, behind the hash of the
    row before. -/
theorem rowChecks_at {index : Nat} {prevHash : JsString} {rows : List JsValue}
    (h : Untyped.verifyLoop index prevHash rows = .ok none) {i : Nat} {row : JsValue}
    (hrow : rows[i]? = some row) :
    ∃ pointer hash, RowChecks row (index + i + 1) pointer hash ∧ (i = 0 → pointer = prevHash) ∧
      ∀ k before, i = k + 1 → rows[k]? = some before →
        before.getProp (js "hash") = some (.string pointer) := by
  induction rows generalizing index prevHash i with
  | nil => cases hrow
  | cons first rest ih =>
    obtain ⟨hash, hfirst, hrest⟩ := rowChecks_of_verifyLoop h
    cases i with
    | zero =>
      obtain rfl := Option.some.inj hrow
      exact ⟨prevHash, hash, hfirst, fun _ => rfl, by intro k before hk; cases hk⟩
    | succ i =>
      -- the pointer of a row further on is the stored hash of the row before it
      rw [List.getElem?_cons_succ] at hrow
      obtain ⟨pointer, hash', hchecks, hzero, hbefore⟩ := ih hrest hrow
      have hposition : index + (i + 1) + 1 = index + 1 + i + 1 := by omega
      refine ⟨pointer, hash', hposition ▸ hchecks, fun hi => absurd hi (Nat.succ_ne_zero i), ?_⟩
      intro k before hk hfound
      obtain rfl : i = k := by omega
      cases i with
      | zero =>
        obtain rfl := Option.some.inj hfound
        rw [hzero rfl]
        exact hfirst.stored
      | succ k =>
        rw [List.getElem?_cons_succ] at hfound
        exact hbefore k before rfl hfound

omit [Host] in
/-- One more element behind the same elements. -/
theorem sameItems_concat {items others : List JsValue} {item other : JsValue}
    (h : sameItems items others = true) (hlast : sameJson item other = true) :
    sameItems (items ++ [item]) (others ++ [other]) = true := by
  induction items generalizing others with
  | nil =>
    cases others with
    | nil => simp [sameItems, hlast]
    | cons _ _ => cases h
  | cons first rest ih =>
    cases others with
    | nil => cases h
    | cons first' rest' =>
      simp only [sameItems, Bool.and_eq_true, List.cons_append] at h ⊢
      exact ⟨h.1, ih h.2⟩

/-- What the loop stops at is a broken row. -/
theorem verifyLoop_broken {index : Nat} {prevHash : JsString} {rows : List JsValue}
    {result : LedgerIntegrityResult}
    (h : Untyped.verifyLoop index prevHash rows = .ok (some result)) (n : Nat) :
    result ≠ .ok n := by
  induction rows generalizing index prevHash with
  | nil => cases h
  | cons row rest ih =>
    rw [Untyped.verifyLoop] at h
    split at h
    · split at h
      -- a result inside the loop names the row where the chain breaks
      · cases h; simp
      split at h
      · cases h; simp
      cases hrecomputed : Untyped.computeEntryHash (Untyped.withoutHash row) with
      | error e => rw [hrecomputed] at h; cases h
      | ok recomputed =>
        simp only [hrecomputed, bind, Except.bind] at h
        split at h
        · cases h; simp
        · exact ih h
    · cases h

/-- The loop ran through a list that is accepted. -/
theorem verifyLoop_of_accepted {rows : List JsValue} {expected : Option Nat} {n : Nat}
    (h : Untyped.verifyLedgerIntegrity rows expected = .ok (.ok n)) :
    Untyped.verifyLoop 0 genesisHash rows = .ok none := by
  unfold Untyped.verifyLedgerIntegrity at h
  cases hloop : Untyped.verifyLoop 0 genesisHash rows with
  | error e => rw [hloop] at h; cases h
  | ok broken =>
    rw [hloop] at h
    cases broken with
    | none => rfl
    | some result => exact absurd (Except.ok.inj h) (verifyLoop_broken hloop n)

/-- Rows of two accepted lists with one hash stand at one place, behind the same rows. -/
theorem take_same {rows others : List JsValue} (hdigest : DigestInjective)
    (hrows : Untyped.verifyLoop 0 genesisHash rows = .ok none)
    (hothers : Untyped.verifyLoop 0 genesisHash others = .ok none)
    (hdata : ∀ row ∈ rows, isJsonData row = true)
    (hdata' : ∀ row ∈ others, isJsonData row = true) {i j : Nat} {row other : JsValue}
    (hrow : rows[i]? = some row) (hother : others[j]? = some other)
    (hhash : row.getProp (js "hash") = other.getProp (js "hash")) :
    i = j ∧ sameItems (rows.take (i + 1)) (others.take (i + 1)) = true := by
  have link : ∀ {i j : Nat} {row other : JsValue}, rows[i]? = some row → others[j]? = some other →
      row.getProp (js "hash") = other.getProp (js "hash") →
      i = j ∧ sameJson row other = true ∧
        ∀ k before before', i = k + 1 → rows[k]? = some before → others[k]? = some before' →
          before.getProp (js "hash") = before'.getProp (js "hash") := by
    intro i j row other hrow hother hhash
    obtain ⟨pointer, hash, hchecks, -, hbefore⟩ := rowChecks_at hrows hrow
    obtain ⟨pointer', hash', hchecks', -, hbefore'⟩ := rowChecks_at hothers hother
    rw [hchecks.stored, hchecks'.stored] at hhash
    obtain rfl : hash = hash' := by simpa using hhash
    obtain ⟨hij, hpointer, hsame⟩ := hchecks.same hdigest hchecks'
      (hdata row (List.mem_of_getElem? hrow)) (hdata' other (List.mem_of_getElem? hother))
    obtain rfl : i = j := by omega
    refine ⟨rfl, hsame, fun k before before' hk hfound hfound' => ?_⟩
    rw [hbefore k before hk hfound, hbefore' k before' hk hfound', hpointer]
  -- back along the pointers, one position at a time
  induction i generalizing j row other with
  | zero =>
    obtain ⟨rfl, hsame, -⟩ := link hrow hother hhash
    refine ⟨rfl, ?_⟩
    rw [List.take_add_one, List.take_add_one, hrow, hother]
    simp [sameItems, hsame]
  | succ i ih =>
    obtain ⟨rfl, hsame, hbefore⟩ := link hrow hother hhash
    obtain ⟨hi, -⟩ := List.getElem?_eq_some_iff.mp hrow
    obtain ⟨hi', -⟩ := List.getElem?_eq_some_iff.mp hother
    have hrow' : rows[i]? = some rows[i] := List.getElem?_eq_getElem (by omega)
    have hother' : others[i]? = some others[i] := List.getElem?_eq_getElem (by omega)
    obtain ⟨-, htake⟩ := ih hrow' hother' (hbefore i _ _ rfl hrow' hother')
    refine ⟨rfl, ?_⟩
    rw [List.take_add_one, List.take_add_one (l := others), hrow, hother]
    exact sameItems_concat htake hsame

/-- One hash fixes a position and everything up to it: if the row at `i` of one accepted
    list has the hash of the row at `j` of another, then `i = j` and the rows up to there
    are the same. Two accepted lists of one length with one last hash are the same. -/
theorem hashChain_binding (hdigest : DigestInjective) {A B : List JsValue}
    {expectedA expectedB : Option Nat} {n m : Nat}
    (hA : Untyped.verifyLedgerIntegrity A expectedA = .ok (.ok n))
    (hB : Untyped.verifyLedgerIntegrity B expectedB = .ok (.ok m))
    (hdataA : ∀ row ∈ A, isJsonData row = true) (hdataB : ∀ row ∈ B, isJsonData row = true) :
    (∀ i j a b, A[i]? = some a → B[j]? = some b →
        a.getProp (js "hash") = b.getProp (js "hash") →
        i = j ∧ sameItems (A.take (i + 1)) (B.take (j + 1)) = true) ∧
      (A.length = B.length →
        A.getLast?.map (·.getProp (js "hash")) = B.getLast?.map (·.getProp (js "hash")) →
        sameItems A B = true) := by
  have binding : ∀ i j a b, A[i]? = some a → B[j]? = some b →
      a.getProp (js "hash") = b.getProp (js "hash") →
      i = j ∧ sameItems (A.take (i + 1)) (B.take (j + 1)) = true := by
    intro i j a b ha hb hhash
    obtain ⟨rfl, htake⟩ := take_same hdigest (verifyLoop_of_accepted hA)
      (verifyLoop_of_accepted hB) hdataA hdataB ha hb hhash
    exact ⟨rfl, htake⟩
  refine ⟨binding, fun hlength hlast => ?_⟩
  -- for the whole lists, the two last rows are compared
  rw [List.getLast?_eq_getElem?, List.getLast?_eq_getElem?] at hlast
  cases ha : A[A.length - 1]? with
  | none =>
    obtain rfl : A = [] := by simpa using ha
    obtain rfl : B = [] := List.length_eq_zero_iff.mp hlength.symm
    rfl
  | some a =>
    cases hb : B[B.length - 1]? with
    | none => rw [ha, hb] at hlast; cases hlast
    | some b =>
      rw [ha, hb] at hlast
      obtain ⟨-, htake⟩ := binding _ _ a b ha hb (Option.some.inj hlast)
      rwa [List.take_of_length_le (by omega), List.take_of_length_le (by omega)] at htake

end

/-! ## Two copies of one ledger -/

namespace Sample

/-- Node, with a digest that is SHA-256 on the given texts and keeps all others apart. -/
@[reducible] def pinnedNode (texts : List JsString) : Host :=
  { node with
    sha256Digest := fun text =>
      if texts.any fun known => known = text then sha256 text else js "x" ++ text }

/-- That digest tells all texts apart when SHA-256 does so on the given ones. -/
theorem pinnedNode_injective {texts : List JsString} (hdistinct : (texts.map sha256).Nodup)
    (hhex : ∀ text ∈ texts, (sha256 text).head? ≠ some 0x78) :
    @DigestInjective (pinnedNode texts) := by
  intro a _ b _ hab
  have hknown : ∀ text, (texts.any fun known => known = text) = true → text ∈ texts :=
    fun text h => by simpa using h
  change (if texts.any fun known => known = a then sha256 a else js "x" ++ a) =
    (if texts.any fun known => known = b then sha256 b else js "x" ++ b) at hab
  split at hab <;> split at hab
  · next ha hb => exact List.inj_on_of_nodup_map hdistinct (hknown a ha) (hknown b hb) hab
  · next ha _ => exact absurd (congrArg List.head? hab) (hhex a (hknown a ha))
  · next hb => exact absurd (congrArg List.head? hab).symm (hhex b (hknown b hb))
  · exact List.append_cancel_left hab

end Sample

mutual

/-- Numbers are read as Node reads them. -/
theorem Canonical.readExactly_pinnedNode (texts : List JsString) (c : Canonical) :
    @Canonical.ReadExactly (Sample.pinnedNode texts) c := by
  match c with
  | .number n => exact fun _ _ _ => rfl
  | .array items => exact readExactlyItems_pinnedNode texts items
  | .object props => exact readExactlyProps_pinnedNode texts props
  | .null | .bool _ | .string _ | .hole => trivial

theorem Canonical.readExactlyItems_pinnedNode (texts : List JsString) (items : List Canonical) :
    @Canonical.ReadExactlyItems (Sample.pinnedNode texts) items := by
  match items with
  | [] => trivial
  | item :: rest =>
    exact ⟨item.readExactly_pinnedNode texts, readExactlyItems_pinnedNode texts rest⟩

theorem Canonical.readExactlyProps_pinnedNode (texts : List JsString)
    (props : List (JsString × Canonical)) :
    @Canonical.ReadExactlyProps (Sample.pinnedNode texts) props := by
  match props with
  | [] => trivial
  | (_, value) :: rest =>
    exact ⟨value.readExactly_pinnedNode texts, readExactlyProps_pinnedNode texts rest⟩

end

namespace Sample

/-- The rows of a ledger after two appends. -/
def rows : List JsValue :=
  (@AuditLedger.after node
    [(⟨.policyDecision, ⟨.server, js "policy"⟩, ⟨.action, js "a"⟩,
        [(js "outcome", .string (js "ALLOW"))], none, none, none, none⟩, ⟨js "evt_1", 0⟩),
      (⟨.executionStarted, ⟨.server, js "gateway"⟩, ⟨.operation, js "op"⟩,
        [(js "attempt", .number (.ofNat 1))], none, some (js "op"), none, none⟩,
        ⟨js "evt_2", 5⟩)]).list

/-- The texts their hashes are taken of. -/
def hashedTexts : List JsString :=
  rows.filterMap fun row => (canonicalize (Untyped.withoutHash row)).toOption.map stringify

/-- A copy of an object that lists its properties backwards. -/
def backwards : JsValue → JsValue
  | .object props => .object props.reverse
  | value => value

/-- A copy of the ledger whose rows list their fields backwards is accepted too, and its
    last hash says that it is the same ledger. -/
theorem backwards_same :
    @DigestInjective (pinnedNode hashedTexts) ∧
      @Untyped.verifyLedgerIntegrity (pinnedNode hashedTexts) rows none = .ok (.ok 2) ∧
      @Untyped.verifyLedgerIntegrity (pinnedNode hashedTexts) (rows.map backwards) (some 2) =
        .ok (.ok 2) ∧
      sameItems rows (rows.map backwards) = true := by
  obtain ⟨hdistinct, hhex, haccepted, hbackwards⟩ :
      (hashedTexts.map sha256).Nodup ∧
        (∀ text ∈ hashedTexts, (sha256 text).head? ≠ some 0x78) ∧
        @Untyped.verifyLedgerIntegrity (pinnedNode hashedTexts) rows none = .ok (.ok 2) ∧
        @Untyped.verifyLedgerIntegrity (pinnedNode hashedTexts) (rows.map backwards) (some 2) =
          .ok (.ok 2) := by
    decide +kernel
  have hinjective := pinnedNode_injective hdistinct hhex
  have hbinding := @hashChain_binding (pinnedNode hashedTexts) hinjective rows
    (rows.map backwards) none (some 2) 2 2 haccepted hbackwards (by decide +kernel)
    (by decide +kernel)
  exact ⟨hinjective, haccepted, hbackwards, hbinding.2 (by decide +kernel) rfl⟩

end Sample

end ActionHarbor
