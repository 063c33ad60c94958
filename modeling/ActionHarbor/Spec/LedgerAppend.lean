import ActionHarbor.Model.Gateway

/-!
# Appending to the ledger never throws on plain data

`AuditLedger.append` hashes the redacted row, and `canonicalize` throws on what
has no lossless JSON text. A payload of plain data stays plain data under
redaction, so the rows the server builds from strings and arrays of strings
always hash: the `withAudit` and `recordAndAudit` of the gateway never take
their throwing branch.

## Key results

- `hashable_redactPayload`: redaction keeps a payload hashable
- `AuditLedger.append_hashable`: a hashable payload is appended as the last row
-/

namespace ActionHarbor

/-! ## Hashable values -/

/-- `canonicalize` returns on this value. -/
def Hashable (value : JsValue) : Prop := ∃ canonical, canonicalize value = .ok canonical

/-- Every property of the list holds a hashable value. -/
def HashableProps (props : List (JsString × JsValue)) : Prop := ∀ p ∈ props, Hashable p.2

@[simp] theorem hashable_string (s : JsString) : Hashable (.string s) := ⟨_, rfl⟩

@[simp] theorem hashable_bool (b : Bool) : Hashable (.bool b) := ⟨_, rfl⟩

@[simp] theorem hashable_ofNat (n : Nat) : Hashable (.number (.ofNat n)) := ⟨_, rfl⟩

@[simp] theorem not_hashable_undefined : ¬ Hashable .undefined := by
  rintro ⟨_, h⟩
  cases h

@[simp] theorem hashableProps_nil : HashableProps [] := by
  simp [HashableProps]

@[simp] theorem hashableProps_cons {key : JsString} {value : JsValue}
    {rest : List (JsString × JsValue)} :
    HashableProps ((key, value) :: rest) ↔ Hashable value ∧ HashableProps rest := by
  simp [HashableProps]

@[simp] theorem hashableProps_append {props rest : List (JsString × JsValue)} :
    HashableProps (props ++ rest) ↔ HashableProps props ∧ HashableProps rest := by
  simp only [HashableProps, List.mem_append, or_imp, forall_and]

@[simp] theorem hashableProps_optionalField (key : JsString) (field : Option JsString) :
    HashableProps (optionalField key field) := by
  cases field <;> simp [optionalField]

@[simp] theorem hashableProps_reasonCodePayload (reasonCode : JsString) :
    HashableProps (reasonCodePayload reasonCode) := by
  simp [reasonCodePayload]

/-- `collect` succeeds exactly when every entry does. -/
private theorem collect_ok_iff {ε α : Type} (entries : List (JsString × Except ε α)) :
    (∃ values, collect entries = .ok values) ↔ ∀ p ∈ entries, ∃ value, p.2 = .ok value := by
  induction entries with
  | nil => simp [collect]
  | cons p rest ih =>
    obtain ⟨key, entry⟩ := p
    rw [List.forall_mem_cons, ← ih]
    cases entry with
    | error e => simp [collect, bind, Except.bind]
    | ok value => cases h : collect rest <;> simp [collect, bind, Except.bind, h]

/-- The loop body succeeds at a field exactly when its value is hashable. -/
private theorem canonicalizeFields_ok_iff (props : List (JsString × JsValue)) :
    (∀ p ∈ canonicalizeFields props, ∃ canonical, p.2 = .ok canonical) ↔ HashableProps props := by
  induction props with
  | nil => simp [canonicalizeFields]
  | cons p rest ih =>
    obtain ⟨key, value⟩ := p
    rw [hashableProps_cons, ← ih]
    cases value <;> simp [canonicalizeFields, Hashable, canonicalize]

/-- An object built from outcomes is hashable exactly when all of them succeed. -/
private theorem canonicalizeObject_ok_iff
    (fields : List (JsString × Except CanonicalizeError Canonical)) :
    (∃ canonical, canonicalizeObject fields = .ok canonical) ↔
      ∀ p ∈ fields, ∃ canonical, p.2 = .ok canonical := by
  have hperm : ∀ p, p ∈ sortKeys fields ↔ p ∈ fields := fun p =>
    (List.perm_insertionSort _ fields).mem_iff
  have hsorted := collect_ok_iff (sortKeys fields)
  simp only [hperm] at hsorted
  rw [← hsorted, canonicalizeObject]
  cases collect (sortKeys fields) <;> simp [Except.map]

/-- An object is hashable exactly when its properties are. -/
@[simp] theorem hashable_object {props : List (JsString × JsValue)} :
    Hashable (.object props) ↔ HashableProps props := by
  rw [← canonicalizeFields_ok_iff, ← canonicalizeObject_ok_iff, Hashable, canonicalize]

/-- An instance is walked like a plain object. -/
@[simp] theorem hashable_classInstance {className : JsString}
    {props : List (JsString × JsValue)} :
    Hashable (.classInstance className props) ↔ HashableProps props := by
  rw [← canonicalizeFields_ok_iff, ← canonicalizeObject_ok_iff, Hashable, canonicalize]

/-- An array is hashable exactly when the elements that are not holes are. -/
@[simp] theorem hashable_array {items : List JsValue} :
    Hashable (.array items) ↔ ∀ item ∈ items, item = .hole ∨ Hashable item := by
  have hitems : (∃ values, canonicalizeItems items = .ok values) ↔
      ∀ item ∈ items, item = .hole ∨ Hashable item := by
    induction items with
    | nil => simp [canonicalizeItems]
    | cons item rest ih =>
      rw [List.forall_mem_cons, ← ih]
      by_cases hole : item = .hole
      · subst hole
        cases h : canonicalizeItems rest <;> simp [canonicalizeItems, h, Except.map]
      · rw [canonicalizeItems.eq_3 _ _ hole]
        cases hi : canonicalize item <;> cases hr : canonicalizeItems rest <;>
          simp [hole, Hashable, hi, bind, Except.bind]
  rw [← hitems, Hashable, canonicalize]
  cases canonicalizeItems items <;> simp [Except.map]

mutual

/-- Plain JSON data: no `undefined`, hole, non-finite number, function or the like. -/
def isPlainJson : JsValue → Bool
  | .null | .bool _ | .string _ => true
  | .number n => n.isFinite
  | .array items => isPlainJsonItems items
  | .object props => isPlainJsonProps props
  | _ => false

/-- Every element is plain JSON. -/
def isPlainJsonItems : List JsValue → Bool
  | [] => true
  | item :: rest => isPlainJson item && isPlainJsonItems rest

/-- Every property is plain JSON. -/
def isPlainJsonProps : List (JsString × JsValue) → Bool
  | [] => true
  | (_, value) :: rest => isPlainJson value && isPlainJsonProps rest

end

mutual

/-- Plain JSON data is hashable. -/
theorem hashable_of_isPlainJson (value : JsValue) (h : isPlainJson value = true) :
    Hashable value := by
  match value with
  | .null | .bool _ | .string _ => exact ⟨_, rfl⟩
  | .number n => exact ⟨.number n, by rw [canonicalize]; exact if_pos h⟩
  | .array items =>
    rw [hashable_array]
    exact fun item hitem => .inr (hashable_of_isPlainJsonItems items h item hitem)
  | .object props =>
    rw [hashable_object]
    exact hashable_of_isPlainJsonProps props h
  | .undefined | .bigint _ | .symbol _ | .function _ | .hole | .classInstance _ _ =>
    cases h

/-- So are the elements of a plain array. -/
theorem hashable_of_isPlainJsonItems (items : List JsValue) (h : isPlainJsonItems items = true) :
    ∀ item ∈ items, Hashable item := by
  match items with
  | [] => simp
  | item :: rest =>
    obtain ⟨hitem, hrest⟩ := Bool.and_eq_true_iff.mp h
    exact List.forall_mem_cons.mpr
      ⟨hashable_of_isPlainJson item hitem, hashable_of_isPlainJsonItems rest hrest⟩

/-- And the properties of a plain object. -/
theorem hashable_of_isPlainJsonProps (props : List (JsString × JsValue))
    (h : isPlainJsonProps props = true) : HashableProps props := by
  match props with
  | [] => simp
  | (key, value) :: rest =>
    obtain ⟨hvalue, hrest⟩ := Bool.and_eq_true_iff.mp h
    exact hashableProps_cons.mpr
      ⟨hashable_of_isPlainJson value hvalue, hashable_of_isPlainJsonProps rest hrest⟩

end

/-! ## Redaction -/

mutual

/-- Redaction keeps a value hashable. -/
theorem hashable_redactValue (key : JsString) (value : JsValue) (h : Hashable value) :
    Hashable (redactValue key value) := by
  match value with
  | .string s => simp only [redactValue]; split <;> simp
  | .array items =>
    rw [redactValue, hashable_array]
    exact hashable_redactItems key items (hashable_array.mp h)
  | .object props =>
    rw [redactValue, hashable_object]
    exact hashable_redactPayload props (hashable_object.mp h)
  | .classInstance _ props =>
    rw [redactValue, hashable_object]
    exact hashable_redactPayload props (hashable_classInstance.mp h)
  | .null | .bool _ | .number _ | .undefined | .hole | .bigint _ | .symbol _ | .function _ =>
    simpa only [redactValue] using h

/-- Redaction keeps the elements of an array hashable and its holes where they are. -/
theorem hashable_redactItems (key : JsString) (items : List JsValue)
    (h : ∀ item ∈ items, item = .hole ∨ Hashable item) :
    ∀ item ∈ redactItems key items, item = .hole ∨ Hashable item := by
  match items with
  | [] => simp [redactItems]
  | item :: rest =>
    obtain ⟨hitem, hrest⟩ := List.forall_mem_cons.mp h
    rw [redactItems, List.forall_mem_cons]
    refine ⟨?_, hashable_redactItems key rest hrest⟩
    rcases hitem with rfl | hitem
    · exact .inl rfl
    · exact .inr (hashable_redactValue key item hitem)

/-- Redaction keeps a payload hashable. -/
theorem hashable_redactPayload (props : List (JsString × JsValue)) (h : HashableProps props) :
    HashableProps (redactPayload props) := by
  match props with
  | [] => simp [redactPayload]
  | (key, value) :: rest =>
    obtain ⟨hvalue, hrest⟩ := hashableProps_cons.mp h
    rw [redactPayload]
    split
    · exact hashable_redactPayload rest hrest
    · exact hashableProps_cons.mpr
        ⟨hashable_redactValue key value hvalue, hashable_redactPayload rest hrest⟩

end

/-! ## Appending -/

section
variable [Host]

/-- A row with a hashable payload has a hash. -/
theorem computeEntryHash_hashable (entry : AuditEntryBody) (h : HashableProps entry.payload) :
    ∃ hash, computeEntryHash entry = .ok hash := by
  have hrow : Hashable entry.toJsValue := by simp [AuditEntryBody.toJsValue, h]
  obtain ⟨canonical, hcanonical⟩ := hrow
  exact ⟨_, by rw [computeEntryHash, hashCanonical, hcanonical, Except.map]⟩

/-- Appending an event with a hashable payload adds exactly one row at the end. -/
theorem AuditLedger.append_hashable (ledger : AuditLedger) (input : AuditEventInput)
    (stamp : Stamp) (h : HashableProps input.payload) :
    ∃ entry, ledger.append input stamp = .ok (⟨ledger.entries ++ [entry]⟩, entry) ∧
      entry.type = input.type ∧ entry.operationId = input.operationId ∧
      entry.payload = redactPayload input.payload := by
  obtain ⟨hash, hhash⟩ := computeEntryHash_hashable
    { eventId := stamp.eventId, sequence := ledger.entries.length + 1, type := input.type,
      actor := input.actor, subject := input.subject, payload := redactPayload input.payload,
      occurredAt := Host.toISOString stamp.now, prevHash := ledger.lastHash,
      runId := input.runId, operationId := input.operationId,
      policyVersion := input.policyVersion, requestId := input.requestId }
    (hashable_redactPayload input.payload h)
  simp [AuditLedger.append, buildLedgerEntry, hhash, bind, Except.bind]

/-- The gateway's own events are always appended. -/
theorem audit_hashable (ledger : AuditLedger) (operationId : JsString) (type : AuditEventType)
    (payload : List (JsString × JsValue)) (stamp : Stamp) (h : HashableProps payload) :
    ∃ entry, audit ledger operationId type payload stamp =
      .ok (⟨ledger.entries ++ [entry]⟩, entry) ∧
      entry.type = type ∧ entry.operationId = some operationId := by
  obtain ⟨entry, hentry, htype, hoperation, -⟩ := ledger.append_hashable
    { type := type, actor := executionGatewayActor, subject := ⟨.operation, operationId⟩,
      payload := payload, operationId := some operationId } stamp h
  exact ⟨entry, hentry, htype, hoperation⟩

end

end ActionHarbor
