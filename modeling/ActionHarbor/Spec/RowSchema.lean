import ActionHarbor.Model.LedgerPreview
import ActionHarbor.Spec.Bodies
import ActionHarbor.Spec.JsonNumbers
import ActionHarbor.Spec.LiveLedger
import ActionHarbor.Spec.Receipts

/-!
# Rows and their schema

What `AuditLedgerEntry.safeParse` accepts, and what comes out of it. A row the ledger wrote
comes out as it is; so does any JSON copy of it, up to the key order of its payload.

## Key results

- `sameJson_object_iff`: objects are compared key by key
- `AuditLedgerEntry.safeParse_eq_some_iff`: what a parsed row was read from
- `AuditLedgerEntry.sameJson_iff_copiedAs`: the same object, the same row
- `AuditLedgerEntry.safeParse_copy`: a copy of a row parses when the row does
-/

namespace ActionHarbor

/-! ## Objects key by key -/

/-- Two copies of a property: absent in both, or the same data. -/
def SameField (v w : JsValue) : Prop := v = .undefined ∧ w = .undefined ∨ SameJson v w

/-- Two fields that are the same are so in either order. -/
theorem SameField.symm {v w : JsValue} (h : SameField v w) : SameField w v :=
  h.imp And.symm SameJson.symm

/-- Nothing is the same data as `undefined`. -/
theorem not_sameJson_undefined (v : JsValue) : ¬ SameJson v .undefined := by
  rintro ⟨-, h⟩
  cases v <;> cases h

/-- A property of the left object has its copy on the right. -/
private theorem exists_copy {props others : List (JsString × JsValue)}
    (h : SameJson (.object props) (.object others)) {key : JsString} {value : JsValue}
    (hvalue : props.lookup key = some value) :
    ∃ other, others.lookup key = some other ∧ SameJson value other := by
  obtain ⟨h, h'⟩ := h
  simp only [sameJson, Bool.and_eq_true, decide_eq_true_eq] at h h'
  obtain ⟨other, hother, hsame⟩ := sameProps_lookup h.2 hvalue
  obtain ⟨back, hback, hsame'⟩ := sameProps_lookup h'.2 hother
  obtain rfl := Option.some.inj (hback.symm.trans hvalue)
  exact ⟨other, hother, hsame, hsame'⟩

/-- The properties of two copies of an object. -/
theorem SameJson.propOf {props others : List (JsString × JsValue)}
    (h : SameJson (.object props) (.object others)) (key : JsString) :
    SameField (propOf props key) (propOf others key) := by
  unfold ActionHarbor.propOf
  cases hvalue : props.lookup key with
  | some value =>
    obtain ⟨other, hother, hsame⟩ := exists_copy h hvalue
    rw [hother]
    exact .inr hsame
  | none =>
    cases hother : others.lookup key with
    | none => exact .inl ⟨rfl, rfl⟩
    | some other =>
      obtain ⟨value, hvalue', -⟩ := exists_copy h.symm hother
      rw [hvalue] at hvalue'
      cases hvalue'

/-- What JSON data binds is not `undefined`. -/
private theorem propOf_of_mem {props : List (JsString × JsValue)}
    (hprops : isJsonData (.object props) = true) {key : JsString} {value : JsValue}
    (hmem : (key, value) ∈ props) :
    props.lookup key = some value ∧ ActionHarbor.propOf props key = value ∧ value ≠ .undefined := by
  obtain ⟨hdistinct, hdata⟩ := isJsonData_object.mp hprops
  have hlookup := (AssocList.lookup_eq_some_iff_mem hdistinct).mpr hmem
  refine ⟨hlookup, by rw [ActionHarbor.propOf, hlookup]; rfl, ?_⟩
  rintro rfl
  cases (isJsonProps_iff.mp hdata _ hmem).2

/-- What it binds is JSON data. -/
theorem isJsonData_propOf {props : List (JsString × JsValue)}
    (hprops : isJsonData (.object props) = true) {key : JsString}
    (hdefined : propOf props key ≠ .undefined) : isJsonData (propOf props key) = true := by
  rw [propOf] at hdefined ⊢
  cases hlookup : props.lookup key with
  | none => exact absurd (by rw [hlookup]; rfl) hdefined
  | some value => exact isJsonData_of_lookup (isJsonData_object.mp hprops).2 hlookup

/-- Objects are compared key by key. -/
theorem sameJson_object_iff {props others : List (JsString × JsValue)}
    (hprops : isJsonData (.object props) = true) (hothers : isJsonData (.object others) = true) :
    SameJson (.object props) (.object others) ↔
      ∀ key, SameField (propOf props key) (propOf others key) := by
  refine ⟨fun h => h.propOf, fun h => ?_⟩
  -- a property of one object is found in the other
  have hfound : ∀ {props others : List (JsString × JsValue)},
      isJsonData (.object props) = true →
      (∀ key, SameField (propOf props key) (propOf others key)) →
      ∀ key value, (key, value) ∈ props →
        ∃ other, others.lookup key = some other ∧ sameJson value other = true := by
    intro props others hprops h key value hmem
    obtain ⟨-, hvalue, hdefined⟩ := propOf_of_mem hprops hmem
    have hsame := h key
    rw [hvalue] at hsame
    rcases hsame with ⟨hundefined, -⟩ | hsame
    · exact absurd hundefined hdefined
    · cases hother : others.lookup key with
      | none =>
        rw [propOf, hother] at hsame
        exact absurd hsame (not_sameJson_undefined _)
      | some other =>
        rw [propOf, hother] at hsame
        exact ⟨other, rfl, hsame.1⟩
  have hleft := sameProps_of_forall (hfound hprops h)
  have hright := sameProps_of_forall (hfound hothers fun key => (h key).symm)
  have hlength : props.length = others.length := by
    have hle := ((isJsonData_object.mp hprops).1.subperm (sameProps_keys hleft)).length_le
    have hge := ((isJsonData_object.mp hothers).1.subperm (sameProps_keys hright)).length_le
    simp only [AssocList.keys, List.length_map] at hle hge
    omega
  simp only [SameJson, sameJson, hleft, hright, hlength]
  simp

/-! ## Field schemas -/

namespace Zod

/-- A string is accepted when it is not empty. -/
theorem nonEmptyString_eq_some {value : JsValue} {s : JsString} :
    nonEmptyString value = some s ↔ value = .string s ∧ s ≠ [] := by
  rw [nonEmptyString, boundedString_eq_some]
  simp [Nat.one_le_iff_ne_zero]

/-- An enumeration all of whose texts are read back. -/
theorem enum_eq_some {α : Type} {options : List α} {text : α → JsString}
    (hread : ∀ a, enum options text (.string (text a)) = some a) {value : JsValue} {a : α} :
    enum options text value = some a ↔ value = .string (text a) := by
  refine ⟨fun h => ?_, fun h => h ▸ hread a⟩
  cases value with
  | string t =>
    rw [enum] at h
    simpa [eq_comm] using List.find?_some h
  | _ => cases h

/-- A record is accepted as its properties, without a `__proto__`. -/
theorem record_eq_some {value : JsValue} {payload : List (JsString × JsValue)} :
    record value = some payload ↔
      ∃ props, value = .object props ∧ payload = props.filter fun p => p.1 ≠ protoKey := by
  cases value <;> simp [record, eq_comm]

end Zod

@[simp] theorem JsNumber.toNat_ofNat (n : Nat) : (JsNumber.ofNat n).toNat = n := by
  have value : ∀ k, (Decimal.ofNat k).digits * 10 ^ (Decimal.ofNat k).exponent.toNat = k := by
    intro k
    simp only [Decimal.ofNat]
    split
    · rename_i hk
      simp [hk]
    · exact stripZeros_value k k
  exact value n

/-- The safe integers above zero. -/
theorem Zod.positiveInt_eq_ofNat {value : JsValue} {m : JsNumber} :
    positiveInt value = some m ↔
      ∃ n, value = .number (.ofNat n) ∧ m = .ofNat n ∧ 0 < n ∧ n ≤ 2 ^ 53 - 1 := by
  rw [positiveInt_eq_some]
  constructor
  · rintro ⟨rfl, d, rfl, hdigits, hexponent, hsafe⟩
    have hofNat : JsNumber.ofNat (d.digits * 10 ^ d.exponent.toNat) = .finite false d := by
      rw [JsNumber.ofNat]
      congr 1
      have hpos : d.digits * 10 ^ d.exponent.toNat ≠ 0 := by positivity
      have hscaled := d.scaled_shift (by omega) d.exponent.toNat rfl (e := 0) (by omega)
      rw [Decimal.scaled, dif_neg hpos] at hscaled
      rw [Decimal.ofNat, dif_neg hpos]
      refine Eq.trans ?_ hscaled
      simp
    exact ⟨_, by rw [hofNat], hofNat.symm, by positivity, hsafe⟩
  · rintro ⟨n, rfl, rfl, hpos, hsafe⟩
    have hvalue := JsNumber.toNat_ofNat n
    rw [JsNumber.ofNat, JsNumber.toNat] at hvalue
    refine ⟨rfl, Decimal.ofNat n, rfl, ?_, ?_, by rwa [hvalue]⟩
    · exact Nat.pos_of_ne_zero fun h => by rw [h] at hvalue; omega
    · rw [Decimal.ofNat, dif_neg (by omega)]
      exact Int.natCast_nonneg _

/-! ## Rows -/

/-- The schema of an event type accepts its text, and no other. -/
theorem AuditEventType.enum_eq_some {value : JsValue} {type : AuditEventType} :
    Zod.enum options toJs value = some type ↔ value = .string type.toJs :=
  Zod.enum_eq_some (by rintro (_ | _) <;> decide)

/-- So does that of the kind of an actor. -/
theorem AuditActorKind.enum_eq_some {value : JsValue} {kind : AuditActorKind} :
    Zod.enum options toJs value = some kind ↔ value = .string kind.toJs :=
  Zod.enum_eq_some (by rintro (_ | _) <;> decide)

/-- So does that of the kind of a subject. -/
theorem AuditSubjectKind.enum_eq_some {value : JsValue} {kind : AuditSubjectKind} :
    Zod.enum options toJs value = some kind ↔ value = .string kind.toJs :=
  Zod.enum_eq_some (by rintro (_ | _) <;> decide)

/-- What has properties is there. -/
theorem HasProps.ne_undefined {props : List (JsString × JsValue)} {value : JsValue}
    (h : HasProps props value) : value ≠ .undefined := by
  cases h <;> exact JsValue.noConfusion

/-- An actor or a subject, as it is written. -/
structure PartyFrom (kind id : JsString) (props : List (JsString × JsValue)) : Prop where
  keys : ∀ p ∈ props, p.1 ∈ [protoKey, js "kind", js "id"]
  kind : propOf props (js "kind") = .string kind
  id : propOf props (js "id") = .string id

/-- The actors the schema accepts. -/
theorem AuditActor.safeParse_eq_some {raw : JsValue} {actor : AuditActor} :
    safeParse raw = some actor ↔
      ∃ props, HasProps props raw ∧ PartyFrom actor.kind.toJs actor.id props ∧ actor.id ≠ [] := by
  simp only [safeParse, Option.bind_eq_bind, Option.bind_eq_some_iff, Zod.strictObject_eq_some,
    AuditActorKind.enum_eq_some, Zod.nonEmptyString_eq_some]
  constructor
  · rintro ⟨props, ⟨hprops, hkeys⟩, kind, hkind, id, ⟨hid, hne⟩, h⟩
    obtain rfl := Option.some.inj h
    exact ⟨props, hprops, ⟨hkeys, hkind, hid⟩, hne⟩
  · rintro ⟨props, hprops, hparty, hne⟩
    exact ⟨props, ⟨hprops, hparty.keys⟩, _, hparty.kind, _, ⟨hparty.id, hne⟩, rfl⟩

/-- The subjects the schema accepts. -/
theorem AuditSubject.safeParse_eq_some {raw : JsValue} {subject : AuditSubject} :
    safeParse raw = some subject ↔
      ∃ props, HasProps props raw ∧ PartyFrom subject.kind.toJs subject.id props ∧
        subject.id ≠ [] := by
  simp only [safeParse, Option.bind_eq_bind, Option.bind_eq_some_iff, Zod.strictObject_eq_some,
    AuditSubjectKind.enum_eq_some, Zod.nonEmptyString_eq_some]
  constructor
  · rintro ⟨props, ⟨hprops, hkeys⟩, kind, hkind, id, ⟨hid, hne⟩, h⟩
    obtain rfl := Option.some.inj h
    exact ⟨props, hprops, ⟨hkeys, hkind, hid⟩, hne⟩
  · rintro ⟨props, hprops, hparty, hne⟩
    exact ⟨props, ⟨hprops, hparty.keys⟩, _, hparty.kind, _, ⟨hparty.id, hne⟩, rfl⟩

/-- An optional text, `undefined` where it is absent. -/
def optionalText : Option JsString → JsValue
  | none => .undefined
  | some s => .string s

/-- An optional text is missing or not empty. -/
theorem optionalText_eq_some {value : JsValue} {field : Option JsString} :
    Zod.optional Zod.nonEmptyString value = some field ↔
      value = optionalText field ∧ field ≠ some [] := by
  rw [Zod.optional_eq_some (by rfl)]
  cases field with
  | none => simp [optionalText]
  | some s => simp [optionalText, Zod.nonEmptyString_eq_some]

namespace AuditLedgerEntry

/-- A row, as it is written. -/
structure ReadFrom (row : AuditLedgerEntry) (props : List (JsString × JsValue)) : Prop where
  keys : ∀ p ∈ props, p.1 ∈ protoKey :: keys
  eventId : propOf props (js "eventId") = .string row.eventId
  sequence : propOf props (js "sequence") = .number (.ofNat row.sequence)
  runId : propOf props (js "runId") = optionalText row.runId
  operationId : propOf props (js "operationId") = optionalText row.operationId
  type : propOf props (js "type") = .string row.type.toJs
  actor : ∃ actor, HasProps actor (propOf props (js "actor")) ∧
    PartyFrom row.actor.kind.toJs row.actor.id actor
  subject : ∃ subject, HasProps subject (propOf props (js "subject")) ∧
    PartyFrom row.subject.kind.toJs row.subject.id subject
  payload : ∃ payload, propOf props (js "payload") = .object payload ∧
    row.payload = payload.filter fun p => p.1 ≠ protoKey
  policyVersion : propOf props (js "policyVersion") = optionalText row.policyVersion
  requestId : propOf props (js "requestId") = optionalText row.requestId
  occurredAt : propOf props (js "occurredAt") = .string row.occurredAt
  prevHash : propOf props (js "prevHash") = .string row.prevHash
  hash : propOf props (js "hash") = .string row.hash

/-- The bounds of the schema. -/
structure Readable [Host] (row : AuditLedgerEntry) : Prop where
  eventId : row.eventId ≠ []
  sequence : 0 < row.sequence ∧ row.sequence ≤ 2 ^ 53 - 1
  runId : row.runId ≠ some []
  operationId : row.operationId ≠ some []
  actor : row.actor.id ≠ []
  subject : row.subject.id ≠ []
  policyVersion : row.policyVersion ≠ some []
  requestId : row.requestId ≠ some []
  occurredAt : Host.isoDatetime row.occurredAt = true
  prevHash : row.prevHash ≠ []
  hash : row.hash ≠ []

/-- Any object is a payload. -/
theorem Readable.withPayload [Host] {row : AuditLedgerEntry} (h : row.Readable)
    (payload : List (JsString × JsValue)) :
    AuditLedgerEntry.Readable { row with payload := payload } :=
  ⟨h.eventId, h.sequence, h.runId, h.operationId, h.actor, h.subject, h.policyVersion,
    h.requestId, h.occurredAt, h.prevHash, h.hash⟩

/-- A schema goes on with what the field before it gave. -/
private theorem bind_eq_some {α β : Type} {field : Option α} {next : α → Option β} {b : β} :
    (field >>= next) = some b ↔ ∃ a, field = some a ∧ next a = some b :=
  Option.bind_eq_some_iff

/-- What a parsed row was read from. -/
theorem safeParse_eq_some_iff [Host] {raw : JsValue} {row : AuditLedgerEntry} :
    safeParse raw = some row ↔
      ∃ props, HasProps props raw ∧ row.ReadFrom props ∧ row.Readable := by
  constructor
  · intro h
    -- the schemas of the fields, one after the other
    obtain ⟨props, hprops, h⟩ := bind_eq_some.mp h
    obtain ⟨eventId, heventId, h⟩ := bind_eq_some.mp h
    obtain ⟨sequence, hsequence, h⟩ := bind_eq_some.mp h
    obtain ⟨runId, hrunId, h⟩ := bind_eq_some.mp h
    obtain ⟨operationId, hoperationId, h⟩ := bind_eq_some.mp h
    obtain ⟨type, htype, h⟩ := bind_eq_some.mp h
    obtain ⟨actor, hactor, h⟩ := bind_eq_some.mp h
    obtain ⟨subject, hsubject, h⟩ := bind_eq_some.mp h
    obtain ⟨payload, hpayload, h⟩ := bind_eq_some.mp h
    obtain ⟨policyVersion, hpolicyVersion, h⟩ := bind_eq_some.mp h
    obtain ⟨requestId, hrequestId, h⟩ := bind_eq_some.mp h
    obtain ⟨occurredAt, hoccurredAt, h⟩ := bind_eq_some.mp h
    obtain ⟨prevHash, hprevHash, h⟩ := bind_eq_some.mp h
    obtain ⟨hash, hhash, h⟩ := bind_eq_some.mp h
    obtain rfl := Option.some.inj h
    -- what each of them has accepted
    obtain ⟨hprops, hkeys⟩ := Zod.strictObject_eq_some.mp hprops
    obtain ⟨n, hnumber, rfl, hpositive⟩ := Zod.positiveInt_eq_ofNat.mp hsequence
    obtain ⟨actorProps, hactor, hactor', hactorId⟩ := AuditActor.safeParse_eq_some.mp hactor
    obtain ⟨subjectProps, hsubject, hsubject', hsubjectId⟩ :=
      AuditSubject.safeParse_eq_some.mp hsubject
    rw [Zod.nonEmptyString_eq_some] at heventId hprevHash hhash
    rw [optionalText_eq_some] at hrunId hoperationId hpolicyVersion hrequestId
    rw [AuditEventType.enum_eq_some] at htype
    rw [Zod.record_eq_some] at hpayload
    rw [Zod.isoDatetime_eq_some] at hoccurredAt
    refine ⟨props, hprops, ?_, ?_⟩
    · exact ⟨hkeys, heventId.1, by simpa using hnumber, hrunId.1,
        hoperationId.1, htype, ⟨_, hactor, hactor'⟩, ⟨_, hsubject, hsubject'⟩, hpayload,
        hpolicyVersion.1, hrequestId.1, hoccurredAt.1, hprevHash.1, hhash.1⟩
    · exact ⟨heventId.2, by simpa using hpositive, hrunId.2,
        hoperationId.2, hactorId, hsubjectId, hpolicyVersion.2, hrequestId.2, hoccurredAt.2,
        hprevHash.2, hhash.2⟩
  · rintro ⟨props, hprops, hread, hreadable⟩
    have text : ∀ {key : JsString} {s : JsString}, propOf props key = .string s → s ≠ [] →
        Zod.nonEmptyString (propOf props key) = some s :=
      fun h hne => Zod.nonEmptyString_eq_some.mpr ⟨h, hne⟩
    have optional : ∀ {key : JsString} {field : Option JsString},
        propOf props key = optionalText field → field ≠ some [] →
          Zod.optional Zod.nonEmptyString (propOf props key) = some field :=
      fun h hne => optionalText_eq_some.mpr ⟨h, hne⟩
    -- and back, in the same order
    obtain ⟨actor, hactor, hactor'⟩ := hread.actor
    obtain ⟨subject, hsubject, hsubject'⟩ := hread.subject
    refine bind_eq_some.mpr ⟨_, Zod.strictObject_eq_some.mpr ⟨hprops, hread.keys⟩, ?_⟩
    refine bind_eq_some.mpr ⟨_, text hread.eventId hreadable.eventId, ?_⟩
    refine bind_eq_some.mpr ⟨_,
      Zod.positiveInt_eq_ofNat.mpr ⟨_, hread.sequence, rfl, hreadable.sequence⟩, ?_⟩
    refine bind_eq_some.mpr ⟨_, optional hread.runId hreadable.runId, ?_⟩
    refine bind_eq_some.mpr ⟨_, optional hread.operationId hreadable.operationId, ?_⟩
    refine bind_eq_some.mpr ⟨_, AuditEventType.enum_eq_some.mpr hread.type, ?_⟩
    refine bind_eq_some.mpr ⟨_,
      AuditActor.safeParse_eq_some.mpr ⟨actor, hactor, hactor', hreadable.actor⟩, ?_⟩
    refine bind_eq_some.mpr ⟨_,
      AuditSubject.safeParse_eq_some.mpr ⟨subject, hsubject, hsubject', hreadable.subject⟩, ?_⟩
    refine bind_eq_some.mpr ⟨_, Zod.record_eq_some.mpr hread.payload, ?_⟩
    refine bind_eq_some.mpr ⟨_, optional hread.policyVersion hreadable.policyVersion, ?_⟩
    refine bind_eq_some.mpr ⟨_, optional hread.requestId hreadable.requestId, ?_⟩
    refine bind_eq_some.mpr ⟨_,
      Zod.isoDatetime_eq_some.mpr ⟨hread.occurredAt, hreadable.occurredAt⟩, ?_⟩
    refine bind_eq_some.mpr ⟨_, text hread.prevHash hreadable.prevHash, ?_⟩
    refine bind_eq_some.mpr ⟨_, text hread.hash hreadable.hash, ?_⟩
    rw [JsNumber.toNat_ofNat]

end AuditLedgerEntry

/-! ## Copies -/

/-- The copy of a field of this kind. -/
private theorem SameField.eq_string {s : JsString} {w : JsValue} (h : SameField (.string s) w) :
    w = .string s := by
  obtain ⟨h, -⟩ | ⟨h, -⟩ := h
  · cases h
  · cases w with
    | string t => rw [of_decide_eq_true h]
    | _ => cases h

/-- The copy of an optional text is the same text, or missing too. -/
private theorem SameField.eq_optionalText {field : Option JsString} {w : JsValue}
    (h : SameField (optionalText field) w) : w = optionalText field := by
  cases field with
  | some s => exact h.eq_string
  | none =>
    obtain ⟨-, rfl⟩ | h := h
    · rfl
    · exact absurd h.symm (not_sameJson_undefined w)

/-- The copy of a positive number is the number. -/
private theorem SameField.eq_ofNat {n : Nat} {w : JsValue} (hn : 0 < n)
    (h : SameField (.number (.ofNat n)) w) : w = .number (.ofNat n) := by
  obtain ⟨h, -⟩ | ⟨h, -⟩ := h
  · cases h
  cases w with
  | number m =>
    rw [sameJson, JsNumber.ofNat] at h
    cases m with
    | finite negative d =>
      have hvalue := JsNumber.toNat_ofNat n
      rw [JsNumber.ofNat, JsNumber.toNat] at hvalue
      simp only [JsNumber.strictEq, Bool.and_eq_true, Bool.or_eq_true, decide_eq_true_eq] at h
      obtain ⟨rfl, rfl | hzero⟩ := h
      · rfl
      · rw [hzero] at hvalue
        omega
    | _ => cases h
  | _ => cases h

/-- The copy of an object is an object with the same JSON data. -/
private theorem SameField.eq_object {props : List (JsString × JsValue)} {w : JsValue}
    (h : SameField (.object props) w) :
    ∃ others, w = .object others ∧ SameJson (.object props) (.object others) := by
  obtain ⟨h, -⟩ | h := h
  · cases h
  · cases w with
    | object others => exact ⟨others, rfl, h⟩
    | _ => cases h.1

/-- `Zod.record` leaves nothing out of JSON data. -/
theorem filter_protoKey {props : List (JsString × JsValue)}
    (h : isJsonData (.object props) = true) : (props.filter fun p => p.1 ≠ protoKey) = props :=
  List.filter_eq_self.mpr fun p hp =>
    decide_eq_true (isJsonProps_iff.mp (isJsonData_object.mp h).2 p hp).1

/-- JSON data binds the keys a strict object lists, and no `__proto__`. -/
private theorem propOf_of_unlisted {props : List (JsString × JsValue)} {keys : List JsString}
    (hdata : isJsonData (.object props) = true) (hkeys : ∀ p ∈ props, p.1 ∈ protoKey :: keys)
    {key : JsString} (hkey : key ∉ keys) : propOf props key = .undefined := by
  by_contra hdefined
  have hmem : (key, propOf props key) ∈ props := mem_of_propOf rfl hdefined
  have hproto := (isJsonProps_iff.mp (isJsonData_object.mp hdata).2 _ hmem).1
  rcases List.mem_cons.mp (hkeys _ hmem) with heq | hlisted
  · exact hproto heq
  · exact hkey hlisted

/-- A copy has no other keys. -/
private theorem keys_copy {props others : List (JsString × JsValue)} {allowed : List JsString}
    (hkeys : ∀ p ∈ props, p.1 ∈ allowed) (hsame : SameJson (.object props) (.object others)) :
    ∀ p ∈ others, p.1 ∈ allowed := by
  intro p hp
  have hback := hsame.2
  simp only [sameJson, Bool.and_eq_true] at hback
  obtain ⟨q, hq, hqp⟩ := List.mem_map.mp
    (sameProps_keys hback.2 p.1 (List.mem_map_of_mem hp))
  exact hqp ▸ hkeys q hq

/-- The copy of a party. -/
private theorem PartyFrom.copy {kind id : JsString} {props : List (JsString × JsValue)}
    {value w : JsValue} (hprops : HasProps props value) (hdata : isJsonData value = true)
    (hparty : PartyFrom kind id props) (h : SameField value w) :
    ∃ others, HasProps others w ∧ PartyFrom kind id others := by
  cases hprops with
  | classInstance className => cases hdata
  | object =>
    obtain ⟨others, rfl, hsame⟩ := h.eq_object
    exact ⟨others, .object, keys_copy hparty.keys hsame,
      (hparty.kind ▸ hsame.propOf _).eq_string, (hparty.id ▸ hsame.propOf _).eq_string⟩

/-- Copies of a party. -/
private theorem PartyFrom.same {kind id : JsString} {props others : List (JsString × JsValue)}
    {v w : JsValue} (hprops : HasProps props v) (hothers : HasProps others w)
    (hv : isJsonData v = true) (hw : isJsonData w = true) (h : PartyFrom kind id props)
    (h' : PartyFrom kind id others) : SameJson v w := by
  cases hprops with
  | classInstance => cases hv
  | object =>
    cases hothers with
    | classInstance => cases hw
    | object =>
      refine (sameJson_object_iff hv hw).mpr fun key => ?_
      by_cases hkey : key ∈ [js "kind", js "id"]
      · simp only [List.mem_cons, List.not_mem_nil, or_false] at hkey
        rcases hkey with rfl | rfl
        · exact .inr (by rw [h.kind, h'.kind]; exact ⟨by simp [sameJson], by simp [sameJson]⟩)
        · exact .inr (by rw [h.id, h'.id]; exact ⟨by simp [sameJson], by simp [sameJson]⟩)
      · exact .inl ⟨propOf_of_unlisted hv h.keys hkey, propOf_of_unlisted hw h'.keys hkey⟩

namespace AuditLedgerEntry

/-- Rows that differ in the key order of their payloads at most. -/
structure CopiedAs (row copy : AuditLedgerEntry) : Prop where
  rest : copy = { row with payload := copy.payload }
  payload : SameJson (.object row.payload) (.object copy.payload)

/-- An object is read as one row. -/
theorem ReadFrom.unique {row other : AuditLedgerEntry} {props : List (JsString × JsValue)}
    (h : row.ReadFrom props) (h' : other.ReadFrom props) : row = other := by
  have text : ∀ {key s t : JsString}, propOf props key = .string s → propOf props key = .string t →
      s = t := fun hs ht => JsValue.string.inj (hs.symm.trans ht)
  have optional : ∀ {key : JsString} {s t : Option JsString},
      propOf props key = optionalText s → propOf props key = optionalText t → s = t := by
    intro key s t hs ht
    have heq := hs.symm.trans ht
    cases s <;> cases t <;> simp_all [optionalText]
  have hsequence : row.sequence = other.sequence := by
    have heq := JsValue.number.inj (h.sequence.symm.trans h'.sequence)
    exact Decimal.ofNat_injective (JsNumber.finite.inj heq).2
  -- no two options of an enum have the same text
  have htype : row.type = other.type := by
    have heq := h.type.symm.trans h'.type
    exact Option.some.inj ((AuditEventType.enum_eq_some.mpr rfl).symm.trans
      (AuditEventType.enum_eq_some.mpr heq))
  have hactor : row.actor = other.actor := by
    obtain ⟨actor, hactor, hparty⟩ := h.actor
    obtain ⟨actor', hactor', hparty'⟩ := h'.actor
    obtain rfl := hactor.unique hactor'
    have hkind := hparty.kind.symm.trans hparty'.kind
    have hid := JsValue.string.inj (hparty.id.symm.trans hparty'.id)
    have hkind' := Option.some.inj ((AuditActorKind.enum_eq_some.mpr rfl).symm.trans
      (AuditActorKind.enum_eq_some.mpr hkind))
    cases hrow : row.actor
    cases hother : other.actor
    simp_all
  have hsubject : row.subject = other.subject := by
    obtain ⟨subject, hsubject, hparty⟩ := h.subject
    obtain ⟨subject', hsubject', hparty'⟩ := h'.subject
    obtain rfl := hsubject.unique hsubject'
    have hkind := hparty.kind.symm.trans hparty'.kind
    have hid := JsValue.string.inj (hparty.id.symm.trans hparty'.id)
    have hkind' := Option.some.inj ((AuditSubjectKind.enum_eq_some.mpr rfl).symm.trans
      (AuditSubjectKind.enum_eq_some.mpr hkind))
    cases hrow : row.subject
    cases hother : other.subject
    simp_all
  have hpayload : row.payload = other.payload := by
    obtain ⟨payload, hpayload, heq⟩ := h.payload
    obtain ⟨payload', hpayload', heq'⟩ := h'.payload
    obtain rfl := JsValue.object.inj (hpayload.symm.trans hpayload')
    rw [heq, heq']
  have heventId := text h.eventId h'.eventId
  have hrunId := optional h.runId h'.runId
  have hoperationId := optional h.operationId h'.operationId
  have hpolicyVersion := optional h.policyVersion h'.policyVersion
  have hrequestId := optional h.requestId h'.requestId
  have hoccurredAt := text h.occurredAt h'.occurredAt
  have hprevHash := text h.prevHash h'.prevHash
  have hhash := text h.hash h'.hash
  obtain ⟨body, hash⟩ := row
  obtain ⟨body', hash'⟩ := other
  cases body
  cases body'
  simp_all

/-- A copy of an object is read as a copy of its row. -/
theorem ReadFrom.copy {row : AuditLedgerEntry} {props others : List (JsString × JsValue)}
    (h : row.ReadFrom props) (hpositive : 0 < row.sequence)
    (hprops : isJsonData (.object props) = true) (hothers : isJsonData (.object others) = true)
    (hsame : SameJson (.object props) (.object others)) :
    ∃ copy : AuditLedgerEntry, copy.ReadFrom others ∧ row.CopiedAs copy ∧
      isJsonData (.object copy.payload) = true := by
  have text : ∀ {key s : JsString}, propOf props key = .string s → propOf others key = .string s :=
    fun hs => (hs ▸ hsame.propOf _).eq_string
  have optional : ∀ {key : JsString} {s : Option JsString},
      propOf props key = optionalText s → propOf others key = optionalText s :=
    fun hs => (hs ▸ hsame.propOf _).eq_optionalText
  have party : ∀ {key kind id : JsString}, (∃ party, HasProps party (propOf props key) ∧
      PartyFrom kind id party) → ∃ party, HasProps party (propOf others key) ∧
        PartyFrom kind id party := by
    rintro key kind id ⟨party, hparty, hfields⟩
    exact hfields.copy hparty (isJsonData_propOf hprops hparty.ne_undefined) (hsame.propOf key)
  obtain ⟨payload, hpayload, heq⟩ := h.payload
  obtain ⟨payload', hpayload', hsame'⟩ := (hpayload ▸ hsame.propOf _).eq_object
  have hdata := hpayload ▸ isJsonData_propOf hprops (by rw [hpayload]; exact JsValue.noConfusion)
  have hdata' := hpayload' ▸ isJsonData_propOf hothers (by rw [hpayload']; exact JsValue.noConfusion)
  rw [filter_protoKey hdata] at heq
  refine ⟨{ row with payload := payload' }, ?_, ⟨rfl, heq ▸ hsame'⟩, hdata'⟩
  exact ⟨keys_copy h.keys hsame, text h.eventId, (h.sequence ▸ hsame.propOf _).eq_ofNat hpositive,
    optional h.runId, optional h.operationId, text h.type, party h.actor, party h.subject,
    ⟨payload', hpayload', (filter_protoKey hdata').symm⟩, optional h.policyVersion,
    optional h.requestId, text h.occurredAt, text h.prevHash, text h.hash⟩

/-- The objects of copies. -/
theorem ReadFrom.same {row copy : AuditLedgerEntry} {props others : List (JsString × JsValue)}
    (h : row.ReadFrom props) (h' : copy.ReadFrom others) (hcopy : row.CopiedAs copy)
    (hprops : isJsonData (.object props) = true) (hothers : isJsonData (.object others) = true) :
    SameJson (.object props) (.object others) := by
  have refl : ∀ {key : JsString} {v : JsValue}, propOf props key = v → propOf others key = v →
      SameField (propOf props key) (propOf others key) := by
    intro key v hv hv'
    by_cases hdefined : propOf props key = .undefined
    · exact .inl ⟨hdefined, hv'.trans (hv.symm.trans hdefined)⟩
    · have hsame := sameJson_refl (isJsonData_propOf hprops hdefined)
      rw [hv', ← hv]
      exact .inr ⟨hsame, hsame⟩
  have hrest := hcopy.rest
  rw [hrest] at h'
  refine (sameJson_object_iff hprops hothers).mpr fun key => ?_
  by_cases hkey : key ∈ AuditLedgerEntry.keys
  -- under a key that is not listed neither object has anything
  swap
  · exact .inl ⟨propOf_of_unlisted hprops h.keys hkey, propOf_of_unlisted hothers h'.keys hkey⟩
  simp only [AuditLedgerEntry.keys, List.mem_cons, List.not_mem_nil, or_false] at hkey
  rcases hkey with rfl | rfl | rfl | rfl | rfl | rfl | rfl | rfl | rfl | rfl | rfl | rfl | rfl
  · exact refl h.eventId h'.eventId
  · exact refl h.sequence h'.sequence
  · exact refl h.runId h'.runId
  · exact refl h.operationId h'.operationId
  · exact refl h.type h'.type
  · obtain ⟨actor, hactor, hparty⟩ := h.actor
    obtain ⟨actor', hactor', hparty'⟩ := h'.actor
    exact .inr (hparty.same hactor hactor' (isJsonData_propOf hprops hactor.ne_undefined)
      (isJsonData_propOf hothers hactor'.ne_undefined) hparty')
  · obtain ⟨subject, hsubject, hparty⟩ := h.subject
    obtain ⟨subject', hsubject', hparty'⟩ := h'.subject
    exact .inr (hparty.same hsubject hsubject' (isJsonData_propOf hprops hsubject.ne_undefined)
      (isJsonData_propOf hothers hsubject'.ne_undefined) hparty')
  -- neither payload has a `__proto__`, which the schema would leave out
  · obtain ⟨payload, hpayload, heq⟩ := h.payload
    obtain ⟨payload', hpayload', heq'⟩ := h'.payload
    have hdata := hpayload ▸ isJsonData_propOf hprops (by rw [hpayload]; exact JsValue.noConfusion)
    have hdata' := hpayload' ▸
      isJsonData_propOf hothers (by rw [hpayload']; exact JsValue.noConfusion)
    rw [filter_protoKey hdata] at heq
    rw [filter_protoKey hdata'] at heq'
    rw [hpayload, hpayload', ← heq, ← heq']
    exact .inr hcopy.payload
  · exact refl h.policyVersion h'.policyVersion
  · exact refl h.requestId h'.requestId
  · exact refl h.occurredAt h'.occurredAt
  · exact refl h.prevHash h'.prevHash
  · exact refl h.hash h'.hash

/-! ## Written rows -/

/-- The properties of a row as it is listed. -/
def props (row : AuditLedgerEntry) : List (JsString × JsValue) :=
  row.toAuditEntryBody.toProps ++ [(js "hash", .string row.hash)]

/-- A row is listed as the object with these properties. -/
theorem toJsValue_eq (row : AuditLedgerEntry) : row.toJsValue = .object row.props := rfl

/-- An optional field in front of others. -/
private theorem propOf_optionalField (key : JsString) {field : Option JsString}
    {rest : List (JsString × JsValue)} (key' : JsString) :
    propOf (optionalField key field ++ rest) key' =
      if key' = key then field.elim (propOf rest key') .string else propOf rest key' := by
  cases field <;> simp [optionalField]

private theorem elim_undefined (field : Option JsString) :
    field.elim .undefined .string = optionalText field := by
  cases field <;> rfl

/-- Its keys are among those of the schema, each at most once. -/
private theorem keys_props (row : AuditLedgerEntry) :
    (AssocList.keys row.props).Sublist
      [js "eventId", js "sequence", js "type", js "actor", js "subject", js "payload",
        js "occurredAt", js "prevHash", js "runId", js "operationId", js "policyVersion",
        js "requestId", js "hash"] := by
  have optional : ∀ (key : JsString) (field : Option JsString),
      ((optionalField key field).map Prod.fst).Sublist [key] := by
    intro key field
    cases field <;> simp [optionalField]
  simp only [props, AuditEntryBody.toProps, AuditEntryBody.toJsValue, AssocList.keys,
    List.map_append]
  exact (((((List.Sublist.refl [_, _, _, _, _, _, _, _]).append (optional _ _)).append
    (optional _ _)).append (optional _ _)).append (optional _ _)).append (.refl [_])

/-- A row as it is written. -/
theorem readFrom_props {row : AuditLedgerEntry} (hpayload : isJsonData (.object row.payload) = true) :
    row.ReadFrom row.props := by
  have hparty : ∀ kind id : JsString,
      PartyFrom kind id [(js "kind", .string kind), (js "id", .string id)] := by
    intro kind id
    exact ⟨by simp, by simp, by simp⟩
  constructor
  case keys =>
    have hallowed : ∀ key ∈ [js "eventId", js "sequence", js "type", js "actor", js "subject",
        js "payload", js "occurredAt", js "prevHash", js "runId", js "operationId",
        js "policyVersion", js "requestId", js "hash"], key ∈ keys := by decide
    exact fun p hp => List.mem_cons_of_mem _
      (hallowed _ (row.keys_props.subset (List.mem_map_of_mem hp)))
  case actor => exact ⟨_, .object, hparty _ _⟩
  case subject => exact ⟨_, .object, hparty _ _⟩
  case payload => exact ⟨row.payload, rfl, (filter_protoKey hpayload).symm⟩
  all_goals
    simp [props, AuditEntryBody.toProps, AuditEntryBody.toJsValue, propOf_optionalField,
      elim_undefined]

/-- A row is JSON data when its payload is. -/
theorem isJsonData_toJsValue {row : AuditLedgerEntry}
    (hpayload : isJsonData (.object row.payload) = true) : isJsonData row.toJsValue = true := by
  have hnodup : [js "eventId", js "sequence", js "type", js "actor", js "subject", js "payload",
      js "occurredAt", js "prevHash", js "runId", js "operationId", js "policyVersion",
      js "requestId", js "hash"].Nodup := by decide
  have hproto : ∀ key ∈ [js "eventId", js "sequence", js "type", js "actor", js "subject",
      js "payload", js "occurredAt", js "prevHash", js "runId", js "operationId",
      js "policyVersion", js "requestId", js "hash"], key ≠ protoKey := by decide
  have hparty : ∀ kind id : JsString,
      isJsonData (.object [(js "kind", .string kind), (js "id", .string id)]) = true := by
    intro kind id
    simp [isJsonData, isJsonProps, AssocList.keys]
    decide
  have optional : ∀ (key : JsString) (field : Option JsString),
      ∀ p ∈ optionalField key field, isJsonData p.2 = true := by
    intro key field p hp
    cases field with
    | none => cases hp
    | some value =>
      obtain rfl := List.mem_singleton.mp hp
      rfl
  -- the keys are the schema's, so only the values are left
  rw [toJsValue_eq, isJsonData_object, isJsonProps_iff]
  refine ⟨row.keys_props.nodup hnodup, fun p hp =>
    ⟨hproto _ (row.keys_props.subset (List.mem_map_of_mem hp)), ?_⟩⟩
  simp only [props, AuditEntryBody.toProps, AuditEntryBody.toJsValue, List.mem_append] at hp
  rcases hp with ((((hp | hp) | hp) | hp) | hp) | hp
  · simp only [List.mem_cons, List.not_mem_nil, or_false] at hp
    rcases hp with rfl | rfl | rfl | rfl | rfl | rfl | rfl | rfl
    · rfl
    · rfl
    · rfl
    · exact hparty _ _
    · exact hparty _ _
    · exact hpayload
    · rfl
    · rfl
  · exact optional _ _ p hp
  · exact optional _ _ p hp
  · exact optional _ _ p hp
  · exact optional _ _ p hp
  · obtain rfl := List.mem_singleton.mp hp
    rfl

section
variable {row copy : AuditLedgerEntry}

/-- The same object, the same row. -/
theorem sameJson_iff_copiedAs (hpositive : 0 < row.sequence)
    (hrow : isJsonData (.object row.payload) = true)
    (hcopy : isJsonData (.object copy.payload) = true) :
    SameJson row.toJsValue copy.toJsValue ↔ row.CopiedAs copy := by
  constructor
  · intro h
    obtain ⟨read, hread, hcopied, -⟩ := (readFrom_props hrow).copy hpositive
      (isJsonData_toJsValue hrow) (isJsonData_toJsValue hcopy) h
    rwa [(readFrom_props hcopy).unique hread]
  · intro h
    exact (readFrom_props hrow).same (readFrom_props hcopy) h (isJsonData_toJsValue hrow)
      (isJsonData_toJsValue hcopy)

/-- So is what is hashed. -/
theorem isJsonData_body (hrow : isJsonData (.object row.payload) = true) :
    isJsonData row.toAuditEntryBody.toJsValue = true := by
  obtain ⟨hdistinct, hdata⟩ := isJsonData_object.mp (isJsonData_toJsValue hrow)
  rw [AuditEntryBody.toJsValue_eq, isJsonData_object]
  exact ⟨hdistinct.sublist ((List.sublist_append_left _ _).map Prod.fst), isJsonProps_iff.mpr
    fun p hp => isJsonProps_iff.mp hdata p (List.mem_append_left _ hp)⟩

/-- The hash is one more property. -/
private theorem propOf_props (row : AuditLedgerEntry) (key : JsString) :
    propOf row.props key =
      if key = js "hash" then .string row.hash else propOf row.toAuditEntryBody.toProps key := by
  have hnone : row.toAuditEntryBody.toProps.lookup (js "hash") = none :=
    List.lookup_eq_none_iff.mpr fun p hp => by simpa using (row.hash_notMem_toProps p hp).symm
  rw [propOf, props, List.lookup_append]
  split
  · rename_i hkey
    rw [hkey, hnone]
    simp
  · rename_i hkey
    have hne : (key == js "hash") = false := beq_false_of_ne hkey
    rw [List.lookup_cons, hne, List.lookup_nil, Option.or_none, propOf]

/-- Rows with one hash are the same when what was hashed is the same. -/
theorem sameJson_body_iff (hhash : copy.hash = row.hash)
    (hrow : isJsonData (.object row.payload) = true)
    (hcopy : isJsonData (.object copy.payload) = true) :
    SameJson row.toAuditEntryBody.toJsValue copy.toAuditEntryBody.toJsValue ↔
      SameJson row.toJsValue copy.toJsValue := by
  have habsent : ∀ row : AuditLedgerEntry,
      propOf row.toAuditEntryBody.toProps (js "hash") = .undefined := by
    intro row
    by_contra hdefined
    exact row.hash_notMem_toProps _ (mem_of_propOf rfl hdefined) rfl
  refine (sameJson_object_iff (isJsonData_body hrow) (isJsonData_body hcopy)).trans
    (Iff.trans ?_ (sameJson_object_iff (isJsonData_toJsValue hrow)
      (isJsonData_toJsValue hcopy)).symm)
  refine forall_congr' fun key => ?_
  show SameField (propOf row.toAuditEntryBody.toProps key) (propOf copy.toAuditEntryBody.toProps key) ↔
    SameField (propOf row.props key) (propOf copy.props key)
  rw [propOf_props, propOf_props]
  by_cases hkey : key = js "hash"
  · rw [if_pos hkey, if_pos hkey, hkey, habsent, habsent, hhash]
    exact iff_of_true (.inl ⟨rfl, rfl⟩) (.inr ⟨by simp [sameJson], by simp [sameJson]⟩)
  · rw [if_neg hkey, if_neg hkey]

/-- A copy has the hash of the row. -/
theorem CopiedAs.computeEntryHash_eq [Host] (h : row.CopiedAs copy) (hpositive : 0 < row.sequence)
    (hrow : isJsonData (.object row.payload) = true)
    (hcopy : isJsonData (.object copy.payload) = true) :
    computeEntryHash copy.toAuditEntryBody = computeEntryHash row.toAuditEntryBody := by
  have hhash : copy.hash = row.hash := by rw [h.rest]
  have hbody := (sameJson_body_iff hhash hrow hcopy).mpr
    ((sameJson_iff_copiedAs hpositive hrow hcopy).mpr h)
  obtain ⟨c, hc⟩ := hashable_of_isPlainJson _ (isPlainJson_of_isJsonData _ (isJsonData_body hrow))
  obtain ⟨d, hd⟩ := hashable_of_isPlainJson _ (isPlainJson_of_isJsonData _ (isJsonData_body hcopy))
  have htext := stringify_eq_of_sameJson _ _ (isJsonData_body hrow) (isJsonData_body hcopy)
    hbody.1 hc hd
  rw [computeEntryHash, computeEntryHash, hashCanonical, hashCanonical, hc, hd]
  simp only [Except.map, htext]

/-- A row that keeps the hash of another one but is no copy of it hashes to something else. -/
theorem computeEntryHash_ne [Host] (hdigest : DigestInjective) (hhash : copy.hash = row.hash)
    (hpositive : 0 < row.sequence) (hrow : isJsonData (.object row.payload) = true)
    (hcopy : isJsonData (.object copy.payload) = true)
    (hcomputed : computeEntryHash row.toAuditEntryBody = .ok row.hash) (h : ¬ row.CopiedAs copy) :
    ∃ recomputed, computeEntryHash copy.toAuditEntryBody = .ok recomputed ∧
      recomputed ≠ copy.hash := by
  obtain ⟨c, hc⟩ := hashable_of_isPlainJson _ (isPlainJson_of_isJsonData _ (isJsonData_body hcopy))
  have hrecomputed : computeEntryHash copy.toAuditEntryBody = .ok (sha256Hex (stringify c)) := by
    rw [computeEntryHash, hashCanonical, hc]
    rfl
  refine ⟨_, hrecomputed, fun heq => h ?_⟩
  rw [heq, hhash] at hrecomputed
  rw [← sameJson_iff_copiedAs hpositive hrow hcopy, ← sameJson_body_iff hhash hrow hcopy]
  exact (hashesAgree_iff_sameJson hdigest (isJsonData_body hrow) (isJsonData_body hcopy)).mp
    ⟨_, hcomputed, hrecomputed⟩

/-- A copy of a row parses as one when the row does, and not otherwise. -/
theorem safeParse_copy [Host] {raw : JsValue} (hpositive : 0 < row.sequence)
    (hrow : isJsonData (.object row.payload) = true) (hraw : isJsonData raw = true)
    (hsame : SameJson row.toJsValue raw) :
    (row.Readable → ∃ copy, safeParse raw = some copy ∧ row.CopiedAs copy ∧
      isJsonData (.object copy.payload) = true) ∧
    (¬ row.Readable → safeParse raw = none) := by
  cases raw with
  | object others =>
    obtain ⟨copy, hread, hcopied, hdata⟩ := (readFrom_props hrow).copy hpositive
      (isJsonData_toJsValue hrow) hraw hsame
    have hreadable : copy.Readable ↔ row.Readable := by
      rw [hcopied.rest]
      exact ⟨fun h => h.withPayload row.payload, fun h => h.withPayload copy.payload⟩
    refine ⟨fun h => ⟨copy, safeParse_eq_some_iff.mpr ⟨others, .object, hread,
      hreadable.mpr h⟩, hcopied, hdata⟩, fun h => ?_⟩
    cases hparse : safeParse (.object others) with
    | none => rfl
    | some parsed =>
      obtain ⟨props, hprops, hparsed, hbounds⟩ := safeParse_eq_some_iff.mp hparse
      obtain rfl := hprops.unique .object
      obtain rfl := hparsed.unique hread
      exact absurd (hreadable.mp hbounds) h
  | _ => cases hsame.1

/-- The payload of parsed JSON data is JSON data. -/
theorem isJsonData_payload [Host] {raw : JsValue} (hraw : isJsonData raw = true)
    (hparse : safeParse raw = some row) : isJsonData (.object row.payload) = true := by
  obtain ⟨props, hprops, hread, -⟩ := safeParse_eq_some_iff.mp hparse
  cases hprops with
  | classInstance => cases hraw
  | object =>
    obtain ⟨payload, hpayload, heq⟩ := hread.payload
    have hdata := hpayload ▸ isJsonData_propOf hraw (by rw [hpayload]; exact JsValue.noConfusion)
    rwa [heq, filter_protoKey hdata]

end

end AuditLedgerEntry

end ActionHarbor
