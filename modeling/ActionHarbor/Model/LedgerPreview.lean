import ActionHarbor.Model.Http
import ActionHarbor.Model.LedgerRows

/-!
# The ledger preview

`POST /api/ledger/verify-preview`: anyone may submit rows and have their chain checked. The
rows come out of a body, so they pass the contract schema first. The page has a button that
submits a tampered copy of the ledger it shows.

## Key definitions

- `AuditLedgerEntry.safeParse`: the schema of a row
- `verifyPreview`: the answer to submitted rows
- `tamperedCopy`: what the button submits
-/

namespace ActionHarbor

/-! ## The schema -/

/-- The options of the `AuditEventType` enum, in order. -/
def AuditEventType.options : List AuditEventType :=
  [.modelProposalRecorded, .policyDecision, .approvalConsumed, .capabilityMinted,
    .executionStarted, .preconditionFailed, .postconditionVerified, .postconditionFailed,
    .executionUnknown, .reconciliationRequired, .auditIntegrityChecked, .duplicateReplayDetected]

/-- The options of the `AuditActorKind` enum, in order. -/
def AuditActorKind.options : List AuditActorKind := [.server, .human, .model, .tool]

/-- The options of the `AuditSubjectKind` enum, in order. -/
def AuditSubjectKind.options : List AuditSubjectKind :=
  [.action, .approval, .capability, .resource, .operation]

namespace Zod

/-- `z.record(z.string(), z.unknown())`: a plain object. zod leaves out a `__proto__`. -/
def record : JsValue → Option (List (JsString × JsValue))
  | .object props => some (props.filter fun p => p.1 ≠ protoKey)
  | _ => none

/-- `schema.array()` -/
def array {α : Type} (schema : JsValue → Option α) : JsValue → Option (List α)
  | .array items => items.mapM schema
  | _ => none

end Zod

/-- The integer a number denotes; used of what `Zod.positiveInt` lets through. -/
def JsNumber.toNat : JsNumber → Nat
  | .finite false d => d.digits * 10 ^ d.exponent.toNat
  | _ => 0

/-- The schema of `actor`. -/
def AuditActor.safeParse (raw : JsValue) : Option AuditActor := do
  let props ← Zod.strictObject [js "kind", js "id"] raw
  let kind ← Zod.enum AuditActorKind.options AuditActorKind.toJs (propOf props (js "kind"))
  let id ← Zod.nonEmptyString (propOf props (js "id"))
  some { kind, id }

/-- The schema of `subject`. -/
def AuditSubject.safeParse (raw : JsValue) : Option AuditSubject := do
  let props ← Zod.strictObject [js "kind", js "id"] raw
  let kind ← Zod.enum AuditSubjectKind.options AuditSubjectKind.toJs (propOf props (js "kind"))
  let id ← Zod.nonEmptyString (propOf props (js "id"))
  some { kind, id }

namespace AuditLedgerEntry

/-- The keys of the `AuditLedgerEntry` schema. -/
def keys : List JsString :=
  [js "eventId", js "sequence", js "runId", js "operationId", js "type", js "actor",
    js "subject", js "payload", js "policyVersion", js "requestId", js "occurredAt",
    js "prevHash", js "hash"]

/-- `AuditLedgerEntry.safeParse` -/
def safeParse [Host] (raw : JsValue) : Option AuditLedgerEntry := do
  let props ← Zod.strictObject keys raw
  let eventId ← Zod.nonEmptyString (propOf props (js "eventId"))
  let sequence ← Zod.positiveInt (propOf props (js "sequence"))
  let runId ← Zod.optional Zod.nonEmptyString (propOf props (js "runId"))
  let operationId ← Zod.optional Zod.nonEmptyString (propOf props (js "operationId"))
  let type ← Zod.enum AuditEventType.options AuditEventType.toJs (propOf props (js "type"))
  let actor ← AuditActor.safeParse (propOf props (js "actor"))
  let subject ← AuditSubject.safeParse (propOf props (js "subject"))
  let payload ← Zod.record (propOf props (js "payload"))
  let policyVersion ← Zod.optional Zod.nonEmptyString (propOf props (js "policyVersion"))
  let requestId ← Zod.optional Zod.nonEmptyString (propOf props (js "requestId"))
  let occurredAt ← Zod.isoDatetime (propOf props (js "occurredAt"))
  let prevHash ← Zod.nonEmptyString (propOf props (js "prevHash"))
  let hash ← Zod.nonEmptyString (propOf props (js "hash"))
  some { eventId, sequence := sequence.toNat, type, actor, subject, payload, occurredAt,
         prevHash, runId, operationId, policyVersion, requestId, hash }

end AuditLedgerEntry

/-! ## The endpoint -/

/-- How submitted rows are answered. -/
inductive PreviewAnswer where
  /-- `INVALID_LEDGER_ENTRIES` -/
  | invalidEntries
  | checked (result : LedgerIntegrityResult)
deriving DecidableEq, Repr

/-- The status of such an answer. -/
def PreviewAnswer.status : PreviewAnswer → Nat
  | .invalidEntries => 400
  | .checked _ => 200

/-- The handler of `verify-preview` behind its body. The error is what hashing a row throws. -/
def verifyPreview [Host] (rawEntries : JsValue) : Except CanonicalizeError PreviewAnswer :=
  match Zod.array AuditLedgerEntry.safeParse rawEntries with
  | none => .ok .invalidEntries
  | some entries => (verifyLedgerIntegrity entries).map .checked

/-! ## The button -/

/-- `__tampered_for_demo__` -/
def tamperKey : JsString := js "__tampered_for_demo__"

/-- `{ ...value, [key]: field }` of a plain object. -/
def withField (value : JsValue) (key : JsString) (field : JsValue) : JsValue :=
  match value with
  | .object props => .object (defineProp props key field)
  | value => value

/-- `{ ...entry, payload: { ...entry.payload, __tampered_for_demo__: true } }` -/
def tamperedRow (entry : JsValue) : JsValue :=
  withField entry (js "payload")
    (withField ((entry.getProp (js "payload")).getD .undefined) tamperKey (.bool true))

/-- `run.ledger.map(…)` of `runTamperDemo`. -/
def tamperedCopy : List JsValue → List JsValue
  | [] => []
  | first :: rest => tamperedRow first :: rest

/-- `runTamperDemo`: nothing is sent for an empty ledger. -/
def runTamperDemo (ledger : List JsValue) : Option ClientCall :=
  if ledger.isEmpty then none else some (.verifyLedgerPreview (.array (tamperedCopy ledger)))

end ActionHarbor
