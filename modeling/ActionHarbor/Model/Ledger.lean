import ActionHarbor.Model.Contracts
import ActionHarbor.Model.Hash

/-!
# Audit ledger

Redaction of payloads, construction of hash-chained rows, the append-only
`AuditLedger` and `verifyLedgerIntegrity`.

## Key definitions

- `redactPayload`: removes credential-shaped strings
- `buildLedgerEntry`, `AuditLedger.append`: the only way to add a row
- `verifyLedgerIntegrity`: recomputes the chain of a list of rows
-/

namespace ActionHarbor

/-! ## Redaction -/

/-- `[REDACTED]` -/
def redacted : JsString := js "[REDACTED]"

/-- ASCII case folding, which is what the `i` flag does on ASCII patterns. -/
def lowerAscii (u : UInt16) : UInt16 := if 0x41 ≤ u && u ≤ 0x5A then u + 0x20 else u

/-- Some alternative occurs in the text. -/
def containsAny (needles : List JsString) (text : JsString) : Bool :=
  text.tails.any fun suffix => needles.any fun needle => needle.isPrefixOf suffix

/-- The alternatives of `SECRET_KEY_PATTERN`, optional separators written out. -/
def secretKeyNeedles : List JsString :=
  [js "token", js "secret", js "password", js "passwd",
    js "apikey", js "api_key", js "api-key", js "credential", js "bearer", js "authorization",
    js "privatekey", js "private_key", js "private-key",
    js "accesskey", js "access_key", js "access-key"]

/-- `SECRET_KEY_PATTERN.test(key)`. -/
def isSecretKey (key : JsString) : Bool := containsAny secretKeyNeedles (key.map lowerAscii)

/-- `\s`. -/
def isSpaceUnit (u : UInt16) : Bool :=
  (0x09 ≤ u && u ≤ 0x0D) || u = 0x20 || u = 0xA0 || u = 0x1680 ||
  (0x2000 ≤ u && u ≤ 0x200A) || u = 0x2028 || u = 0x2029 || u = 0x202F || u = 0x205F ||
  u = 0x3000 || u = 0xFEFF

/-- `BEARER_VALUE_PATTERN.test(value)`: `bearer`, spaces, then a non-space. -/
def isBearerShaped (value : JsString) : Bool :=
  (js "bearer").isPrefixOf (value.map lowerAscii) &&
    match value.drop 6 with
    | [] => false
    | u :: rest => isSpaceUnit u && !(rest.dropWhile isSpaceUnit).isEmpty

/-- `[a-z0-9_-]` under the `i` flag. -/
def isTokenUnit (u : UInt16) : Bool :=
  let l := lowerAscii u
  (0x61 ≤ l && l ≤ 0x7A) || (0x30 ≤ u && u ≤ 0x39) || u = 0x5F || u = 0x2D

/-- One or more token units up to a dot; what follows the dot. -/
def afterTokenDot (text : JsString) : Option JsString :=
  match text.takeWhile isTokenUnit, text.dropWhile isTokenUnit with
  | _ :: _, 0x2E :: rest => some rest
  | _, _ => none

/-- `JWT_VALUE_PATTERN.test(value)`: `eyj` and three dot-separated tokens. -/
def isJwtShaped (value : JsString) : Bool :=
  (js "eyj").isPrefixOf (value.map lowerAscii) &&
    match (afterTokenDot (value.drop 3)).bind afterTokenDot with
    | some rest => !rest.isEmpty && rest.all isTokenUnit
    | none => false

/-- A credential that landed under an innocuous key. -/
def isSecretShapedValue (value : JsString) : Bool := isBearerShaped value || isJwtShaped value

mutual

/-- Redact one value under its nearest enclosing key. A class instance comes out
    as the plain object of its entries. -/
def redactValue (key : JsString) : JsValue → JsValue
  | .string value =>
    if isSecretKey key || isSecretShapedValue value then .string redacted else .string value
  | .array items => .array (redactItems key items)
  | .object props => .object (redactPayload props)
  | .classInstance _ props => .object (redactPayload props)
  | value => value

/-- `value.map((item) => redactValue(key, item))`. -/
def redactItems (key : JsString) : List JsValue → List JsValue
  | [] => []
  | item :: rest => redactValue key item :: redactItems key rest

/-- Assign every redacted entry to a fresh object. -/
def redactPayload : List (JsString × JsValue) → List (JsString × JsValue)
  | [] => []
  | (key, value) :: rest =>
    if key = protoKey then redactPayload rest
    else (key, redactValue key value) :: redactPayload rest

end

/-! ## Rows -/

/-- The `prevHash` of sequence 1. -/
def genesisHash : JsString := js "sha256:genesis"

/-- Everything a caller supplies for one event. -/
structure AuditEventInput where
  type : AuditEventType
  actor : AuditActor
  subject : AuditSubject
  payload : List (JsString × JsValue)
  runId : Option JsString := none
  operationId : Option JsString := none
  policyVersion : Option JsString := none
  requestId : Option JsString := none

/-- What one append draws from its surroundings: the id generator's next `evt`
    id and the clock's reading. -/
structure Stamp where
  eventId : JsString
  now : Instant
deriving DecidableEq, Repr

/-- An optional string field, present only when defined. -/
def optionalField (key : JsString) : Option JsString → List (JsString × JsValue)
  | some value => [(key, .string value)]
  | none => []

/-- A row without its hash as the object that is hashed. -/
def AuditEntryBody.toJsValue (e : AuditEntryBody) : JsValue :=
  .object ([(js "eventId", .string e.eventId), (js "sequence", .number (.ofNat e.sequence)),
      (js "type", .string e.type.toJs),
      (js "actor", .object [(js "kind", .string e.actor.kind.toJs), (js "id", .string e.actor.id)]),
      (js "subject",
        .object [(js "kind", .string e.subject.kind.toJs), (js "id", .string e.subject.id)]),
      (js "payload", .object e.payload), (js "occurredAt", .string e.occurredAt),
      (js "prevHash", .string e.prevHash)] ++
    optionalField (js "runId") e.runId ++ optionalField (js "operationId") e.operationId ++
    optionalField (js "policyVersion") e.policyVersion ++
    optionalField (js "requestId") e.requestId)

section
variable [Host]

/-- `computeEntryHash`: the canonical hash folds `prevHash` in as a field. -/
def computeEntryHash (entryWithoutHash : AuditEntryBody) : Except CanonicalizeError JsString :=
  hashCanonical entryWithoutHash.toJsValue

/-- Build the next row from its position, its predecessor's hash and the input. -/
def buildLedgerEntry (input : AuditEventInput) (sequence : Nat) (prevHash : JsString)
    (stamp : Stamp) : Except CanonicalizeError AuditLedgerEntry := do
  let entryWithoutHash : AuditEntryBody :=
    { eventId := stamp.eventId
      sequence := sequence
      type := input.type
      actor := input.actor
      subject := input.subject
      payload := redactPayload input.payload
      occurredAt := Host.toISOString stamp.now
      prevHash := prevHash
      runId := input.runId
      operationId := input.operationId
      policyVersion := input.policyVersion
      requestId := input.requestId }
  let hash ← computeEntryHash entryWithoutHash
  .ok { entryWithoutHash with hash := hash }

end

/-! ## The ledger -/

/-- The append-only audit store. -/
structure AuditLedger where
  entries : List AuditLedgerEntry := []
deriving Repr

namespace AuditLedger
variable [Host]

/-- The hash the next row points back to. -/
def lastHash (ledger : AuditLedger) : JsString :=
  match ledger.entries.getLast? with
  | none => genesisHash
  | some last => last.hash

/-- Append one event; an unhashable payload throws and leaves the ledger alone. -/
def append (ledger : AuditLedger) (input : AuditEventInput) (stamp : Stamp) :
    Except CanonicalizeError (AuditLedger × AuditLedgerEntry) := do
  let entry ← buildLedgerEntry input (ledger.entries.length + 1) ledger.lastHash stamp
  .ok (⟨ledger.entries ++ [entry]⟩, entry)

end AuditLedger

/-! ## Integrity -/

/-- What a broken chain is reported as. -/
inductive LedgerIntegrityReasonCode where
  | sequenceGap
  | prevHashMismatch
  | hashMismatch
  | chainLengthMismatch
deriving DecidableEq, Repr

/-- The wire text of an integrity failure. -/
def LedgerIntegrityReasonCode.toJs : LedgerIntegrityReasonCode → JsString
  | .sequenceGap => js "SEQUENCE_GAP"
  | .prevHashMismatch => js "PREV_HASH_MISMATCH"
  | .hashMismatch => js "HASH_MISMATCH"
  | .chainLengthMismatch => js "CHAIN_LENGTH_MISMATCH"

/-- Outcome of an integrity check. -/
inductive LedgerIntegrityResult where
  | ok (checkedEntries : Nat)
  | broken (reasonCode : LedgerIntegrityReasonCode) (brokenAtSequence : Nat)
deriving DecidableEq, Repr

section
variable [Host]

/-- The checking loop from position `index` on, after a row with hash `prevHash`:
    `none` when every row checks. `Except` is the `TypeError` of an unhashable row. -/
def verifyLoop (index : Nat) (prevHash : JsString) :
    List AuditLedgerEntry → Except CanonicalizeError (Option LedgerIntegrityResult)
  | [] => .ok none
  | entry :: rest =>
    if entry.sequence ≠ index + 1 then .ok (some (.broken .sequenceGap (index + 1)))
    else if entry.prevHash ≠ prevHash then .ok (some (.broken .prevHashMismatch entry.sequence))
    else do
      let recomputed ← computeEntryHash entry.toAuditEntryBody
      if recomputed ≠ entry.hash then .ok (some (.broken .hashMismatch entry.sequence))
      else verifyLoop (index + 1) entry.hash rest

/-- Recompute the hash chain from scratch over whatever rows are handed in. -/
def verifyLedgerIntegrity (entries : List AuditLedgerEntry)
    (expectedSequenceCount : Option Nat := none) :
    Except CanonicalizeError LedgerIntegrityResult := do
  match ← verifyLoop 0 genesisHash entries with
  | some result => .ok result
  | none =>
    match expectedSequenceCount with
    | some expected =>
      if entries.length ≠ expected then .ok (.broken .chainLengthMismatch expected)
      else .ok (.ok entries.length)
    | none => .ok (.ok entries.length)

end

end ActionHarbor
