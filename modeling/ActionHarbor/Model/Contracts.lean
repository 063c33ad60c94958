import ActionHarbor.Model.Js

/-!
# Contracts

The data shapes crossing package boundaries, and the strict zod schemas that
parse the untrusted ones. A schema is a function from a JavaScript value to the
parsed data, `none` where `safeParse` reports failure.

## Key definitions

- `Zod`: the schema constructors used, with zod's documented meaning
- `Capability`, `CapabilityRequest`, `Approval`: authority
- `TicketReceipt`, `MessageReceipt`, `RefundReceipt`: adapter receipts
- `RunState`, `RunStateTrigger`: the run state machine's alphabet
- `AuditLedgerEntry`: one row of the audit ledger
-/

namespace ActionHarbor

/-! ## Schema constructors -/

namespace Zod

/-- `z.object(shape).strict()`: an object with no key outside `keys`. An own `__proto__`
    is skipped: it is neither reported nor read. The properties are handed on to the
    field schemas. -/
def strictObject (keys : List JsString) : JsValue → Option (List (JsString × JsValue))
  | .object props | .classInstance _ props =>
    if props.all fun p => (protoKey :: keys).contains p.1 then some props else none
  | _ => none

/-- `z.string()` with length bounds counted in code units. -/
def boundedString (minLength : Nat) (maxLength : Option Nat) : JsValue → Option JsString
  | .string s =>
    if minLength ≤ s.length && maxLength.all (s.length ≤ ·) then some s else none
  | _ => none

/-- `z.string().min(1)`. -/
def nonEmptyString : JsValue → Option JsString := boundedString 1 none

/-- `z.string().datetime()`. -/
def isoDatetime [Host] : JsValue → Option JsString
  | .string s => if Host.isoDatetime s then some s else none
  | _ => none

/-- `z.enum(options)`, and `z.literal` for a single option. -/
def enum {α : Type} (options : List α) (text : α → JsString) : JsValue → Option α
  | .string s => options.find? fun option => text option = s
  | _ => none

/-- `schema.optional()`. -/
def optional {α : Type} (schema : JsValue → Option α) : JsValue → Option (Option α)
  | .undefined => some none
  | value => (schema value).map some

/-- `z.number().int().positive()`: a safe integer above zero. -/
def positiveInt : JsValue → Option JsNumber
  | .number (.finite false d) =>
    if 0 < d.digits ∧ 0 ≤ d.exponent ∧ d.digits * 10 ^ d.exponent.toNat ≤ 2 ^ 53 - 1
    then some (.finite false d) else none
  | _ => none

end Zod

/-! ## Enumerations -/

/-- The complete allowlist of action types. -/
inductive ActionType where
  | createInternalTicket
  | sendCustomerMessage
  | issueRefund
  | updateTicketStatus
deriving DecidableEq, Repr

namespace ActionType

/-- The wire text of an action type. -/
def toJs : ActionType → JsString
  | .createInternalTicket => js "create_internal_ticket"
  | .sendCustomerMessage => js "send_customer_message"
  | .issueRefund => js "issue_refund"
  | .updateTicketStatus => js "update_ticket_status"

/-- The options of the `ActionType` enum, in order. -/
def options : List ActionType :=
  [.createInternalTicket, .sendCustomerMessage, .issueRefund, .updateTicketStatus]

end ActionType

/-- A capability's lifecycle; only `active` may authorize an adapter call. -/
inductive CapabilityStatus where
  | active
  | consumed
  | revoked
  | expired
deriving DecidableEq, Repr

namespace CapabilityStatus

/-- The wire text of a capability status. -/
def toJs : CapabilityStatus → JsString
  | .active => js "active"
  | .consumed => js "consumed"
  | .revoked => js "revoked"
  | .expired => js "expired"

/-- The options of the `CapabilityStatus` enum, in order. -/
def options : List CapabilityStatus := [.active, .consumed, .revoked, .expired]

end CapabilityStatus

/-- Why a capability check was refused. -/
inductive CapabilityRejectionReason where
  | statusInvalid
  | expired
  | scopeMismatch
  | malformed
  | unknown
  | nonceMismatch
  | alreadyConsumed
deriving DecidableEq, Repr

/-- The wire text of a capability rejection. -/
def CapabilityRejectionReason.toJs : CapabilityRejectionReason → JsString
  | .statusInvalid => js "CAPABILITY_STATUS_INVALID"
  | .expired => js "CAPABILITY_EXPIRED"
  | .scopeMismatch => js "CAPABILITY_SCOPE_MISMATCH"
  | .malformed => js "CAPABILITY_MALFORMED"
  | .unknown => js "CAPABILITY_UNKNOWN"
  | .nonceMismatch => js "CAPABILITY_NONCE_MISMATCH"
  | .alreadyConsumed => js "CAPABILITY_ALREADY_CONSUMED"

/-- Why the freshness recheck refused to let a capability execute. -/
inductive PreconditionRejectionReason where
  | planHashMismatch
  | preconditionFailed
  | resourceVersionChanged
deriving DecidableEq, Repr

/-- The wire text of a precondition rejection. -/
def PreconditionRejectionReason.toJs : PreconditionRejectionReason → JsString
  | .planHashMismatch => js "PLAN_HASH_MISMATCH"
  | .preconditionFailed => js "PRECONDITION_FAILED"
  | .resourceVersionChanged => js "RESOURCE_VERSION_CHANGED"

/-- The decided state of an operation. -/
inductive OperationState where
  | succeeded
  | failed
  | unknownOutcome
deriving DecidableEq, Repr

/-- Why a capability was not minted. -/
inductive CapabilityMintRejectionReason where
  | policyDidNotAllow
  | approvalNotConsumed
  | planHashMismatch
  | approvalScopeMismatch
deriving DecidableEq, Repr

/-- The wire text of a mint rejection. -/
def CapabilityMintRejectionReason.toJs : CapabilityMintRejectionReason → JsString
  | .policyDidNotAllow => js "POLICY_DID_NOT_ALLOW"
  | .approvalNotConsumed => js "APPROVAL_NOT_CONSUMED"
  | .planHashMismatch => js "PLAN_HASH_MISMATCH"
  | .approvalScopeMismatch => js "APPROVAL_SCOPE_MISMATCH"

/-- Reason codes of a verification decision. -/
inductive VerificationReasonCode where
  | unknownOutcome
  | reconciledSuccess
  | postconditionUnverified
  | idempotentReplay
deriving DecidableEq, Repr

/-- The wire text of a verification reason code. -/
def VerificationReasonCode.toJs : VerificationReasonCode → JsString
  | .unknownOutcome => js "UNKNOWN_OUTCOME"
  | .reconciledSuccess => js "RECONCILED_SUCCESS"
  | .postconditionUnverified => js "POSTCONDITION_UNVERIFIED"
  | .idempotentReplay => js "IDEMPOTENT_REPLAY"

/-- What policy decides. -/
inductive PolicyOutcome where
  | allow
  | requireApproval
  | deny
deriving DecidableEq, Repr

/-- The wire text of a policy outcome. -/
def PolicyOutcome.toJs : PolicyOutcome → JsString
  | .allow => js "ALLOW"
  | .requireApproval => js "REQUIRE_APPROVAL"
  | .deny => js "DENY"

/-- Every reason code the policy engine emits. -/
inductive PolicyReasonCode where
  | missingPrincipal
  | unknownActionType
  | auditWriteForbidden
  | modelHasNoAuthority
  | crossTenantResource
  | intentExpired
  | missingFinanceRole
  | highImpact
  | evidenceNotFound
  | resourceNotActive
  | externalCommunication
  | irreversibleAction
  | affectsOtherPrincipal
  | policyUnavailable
deriving DecidableEq, Repr

/-- The wire text of a policy reason code. -/
def PolicyReasonCode.toJs : PolicyReasonCode → JsString
  | .missingPrincipal => js "MISSING_PRINCIPAL"
  | .unknownActionType => js "UNKNOWN_ACTION_TYPE"
  | .auditWriteForbidden => js "AUDIT_WRITE_FORBIDDEN"
  | .modelHasNoAuthority => js "MODEL_HAS_NO_AUTHORITY"
  | .crossTenantResource => js "CROSS_TENANT_RESOURCE"
  | .intentExpired => js "INTENT_EXPIRED"
  | .missingFinanceRole => js "MISSING_FINANCE_ROLE"
  | .highImpact => js "HIGH_IMPACT"
  | .evidenceNotFound => js "EVIDENCE_NOT_FOUND"
  | .resourceNotActive => js "RESOURCE_NOT_ACTIVE"
  | .externalCommunication => js "EXTERNAL_COMMUNICATION"
  | .irreversibleAction => js "IRREVERSIBLE_ACTION"
  | .affectsOtherPrincipal => js "AFFECTS_OTHER_PRINCIPAL"
  | .policyUnavailable => js "POLICY_UNAVAILABLE"

/-! ## Capability -/

/-- The only runtime authority an adapter call may present. -/
structure Capability where
  id : JsString
  principalId : JsString
  actionType : ActionType
  resourceId : JsString
  proposalHash : JsString
  expiresAt : JsString
  nonce : JsString
  status : CapabilityStatus
deriving DecidableEq, Repr

/-- The exact call a capability is asked to authorize. -/
structure CapabilityRequest where
  principalId : JsString
  actionType : ActionType
  resourceId : JsString
  proposalHash : JsString
deriving DecidableEq, Repr

namespace Capability

/-- The keys of the `Capability` schema. -/
def keys : List JsString :=
  [js "id", js "principalId", js "actionType", js "resourceId", js "proposalHash",
    js "expiresAt", js "nonce", js "status"]

/-- `Capability.safeParse`. -/
def safeParse [Host] (raw : JsValue) : Option Capability := do
  let props ← Zod.strictObject keys raw
  let id ← Zod.nonEmptyString (propOf props (js "id"))
  let principalId ← Zod.nonEmptyString (propOf props (js "principalId"))
  let actionType ← Zod.enum ActionType.options ActionType.toJs (propOf props (js "actionType"))
  let resourceId ← Zod.nonEmptyString (propOf props (js "resourceId"))
  let proposalHash ← Zod.nonEmptyString (propOf props (js "proposalHash"))
  let expiresAt ← Zod.isoDatetime (propOf props (js "expiresAt"))
  let nonce ← Zod.nonEmptyString (propOf props (js "nonce"))
  let status ←
    Zod.enum CapabilityStatus.options CapabilityStatus.toJs (propOf props (js "status"))
  some { id, principalId, actionType, resourceId, proposalHash, expiresAt, nonce, status }

/-- A capability as the plain object it is at run time. -/
def toJsValue (c : Capability) : JsValue :=
  .object [(js "id", .string c.id), (js "principalId", .string c.principalId),
    (js "actionType", .string c.actionType.toJs), (js "resourceId", .string c.resourceId),
    (js "proposalHash", .string c.proposalHash), (js "expiresAt", .string c.expiresAt),
    (js "nonce", .string c.nonce), (js "status", .string c.status.toJs)]

end Capability

/-! ## Receipts -/

/-- The fields `create_internal_ticket` receipts carry. -/
structure TicketReceipt where
  ticketId : JsString
  title : JsString
  description : Option JsString
  priority : JsString
  idempotencyKey : JsString
  resourceId : JsString
  createdAt : JsString
deriving DecidableEq, Repr

/-- The fields `send_customer_message` receipts carry. -/
structure MessageReceipt where
  messageId : JsString
  customerId : JsString
  body : JsString
  channel : JsString
  idempotencyKey : JsString
  resourceId : JsString
  sentAt : JsString
deriving DecidableEq, Repr

/-- The fields `issue_refund` receipts carry. -/
structure RefundReceipt where
  refundId : JsString
  orderId : JsString
  amountMinorInteger : JsNumber
  currency : JsString
  reason : JsString
  idempotencyKey : JsString
  resourceId : JsString
  issuedAt : JsString
deriving DecidableEq, Repr

/-- The options of a ticket's priority. -/
def ticketPriorities : List JsString := [js "low", js "medium", js "high"]

/-- The options of a message's channel. -/
def messageChannels : List JsString := [js "email", js "sms"]

/-- `TicketReceipt.safeParse`. The literal `status` is checked and not kept. -/
def TicketReceipt.safeParse [Host] (raw : JsValue) : Option TicketReceipt := do
  let props ← Zod.strictObject
    [js "ticketId", js "status", js "title", js "description", js "priority",
      js "idempotencyKey", js "resourceId", js "createdAt"] raw
  let ticketId ← Zod.nonEmptyString (propOf props (js "ticketId"))
  let _status ← Zod.enum [js "open"] id (propOf props (js "status"))
  let title ← Zod.boundedString 1 (some 120) (propOf props (js "title"))
  let description ←
    Zod.optional (Zod.boundedString 0 (some 2000)) (propOf props (js "description"))
  let priority ← Zod.enum ticketPriorities id (propOf props (js "priority"))
  let idempotencyKey ← Zod.nonEmptyString (propOf props (js "idempotencyKey"))
  let resourceId ← Zod.nonEmptyString (propOf props (js "resourceId"))
  let createdAt ← Zod.isoDatetime (propOf props (js "createdAt"))
  some { ticketId, title, description, priority, idempotencyKey, resourceId, createdAt }

/-- The parsed data of a ticket receipt as a plain object. -/
def TicketReceipt.toJsValue (r : TicketReceipt) : JsValue :=
  .object ([(js "ticketId", .string r.ticketId), (js "status", .string (js "open")),
      (js "title", .string r.title)] ++
    (match r.description with
      | some description => [(js "description", .string description)]
      | none => []) ++
    [(js "priority", .string r.priority), (js "idempotencyKey", .string r.idempotencyKey),
      (js "resourceId", .string r.resourceId), (js "createdAt", .string r.createdAt)])

/-- `MessageReceipt.safeParse`. -/
def MessageReceipt.safeParse [Host] (raw : JsValue) : Option MessageReceipt := do
  let props ← Zod.strictObject
    [js "messageId", js "customerId", js "body", js "channel", js "idempotencyKey",
      js "resourceId", js "sentAt"] raw
  let messageId ← Zod.nonEmptyString (propOf props (js "messageId"))
  let customerId ← Zod.nonEmptyString (propOf props (js "customerId"))
  let body ← Zod.boundedString 1 (some 2000) (propOf props (js "body"))
  let channel ← Zod.enum messageChannels id (propOf props (js "channel"))
  let idempotencyKey ← Zod.nonEmptyString (propOf props (js "idempotencyKey"))
  let resourceId ← Zod.nonEmptyString (propOf props (js "resourceId"))
  let sentAt ← Zod.isoDatetime (propOf props (js "sentAt"))
  some { messageId, customerId, body, channel, idempotencyKey, resourceId, sentAt }

/-- The parsed data of a message receipt as a plain object. -/
def MessageReceipt.toJsValue (r : MessageReceipt) : JsValue :=
  .object [(js "messageId", .string r.messageId), (js "customerId", .string r.customerId),
    (js "body", .string r.body), (js "channel", .string r.channel),
    (js "idempotencyKey", .string r.idempotencyKey), (js "resourceId", .string r.resourceId),
    (js "sentAt", .string r.sentAt)]

/-- `RefundReceipt.safeParse`. -/
def RefundReceipt.safeParse [Host] (raw : JsValue) : Option RefundReceipt := do
  let props ← Zod.strictObject
    [js "refundId", js "orderId", js "amountMinorInteger", js "currency", js "reason",
      js "idempotencyKey", js "resourceId", js "issuedAt"] raw
  let refundId ← Zod.nonEmptyString (propOf props (js "refundId"))
  let orderId ← Zod.nonEmptyString (propOf props (js "orderId"))
  let amountMinorInteger ← Zod.positiveInt (propOf props (js "amountMinorInteger"))
  let currency ← Zod.boundedString 3 (some 3) (propOf props (js "currency"))
  let reason ← Zod.boundedString 1 (some 300) (propOf props (js "reason"))
  let idempotencyKey ← Zod.nonEmptyString (propOf props (js "idempotencyKey"))
  let resourceId ← Zod.nonEmptyString (propOf props (js "resourceId"))
  let issuedAt ← Zod.isoDatetime (propOf props (js "issuedAt"))
  some { refundId, orderId, amountMinorInteger, currency, reason, idempotencyKey, resourceId,
         issuedAt }

/-- The parsed data of a refund receipt as a plain object. -/
def RefundReceipt.toJsValue (r : RefundReceipt) : JsValue :=
  .object [(js "refundId", .string r.refundId), (js "orderId", .string r.orderId),
    (js "amountMinorInteger", .number r.amountMinorInteger), (js "currency", .string r.currency),
    (js "reason", .string r.reason), (js "idempotencyKey", .string r.idempotencyKey),
    (js "resourceId", .string r.resourceId), (js "issuedAt", .string r.issuedAt)]

/-! ## Approval -/

/-- An approval's lifecycle. -/
inductive ApprovalStatus where
  | active
  | consumed
  | invalidated
deriving DecidableEq, Repr

/-- What an approval covers. -/
structure ApprovalScope where
  actionType : ActionType
  resourceId : JsString
deriving DecidableEq, Repr

/-- A human's approval of one exact plan hash. -/
structure Approval where
  id : JsString
  proposalHash : JsString
  approverId : JsString
  scope : ApprovalScope
  policyVersion : JsString
  expiresAt : JsString
  approvedAt : JsString
  status : ApprovalStatus
deriving DecidableEq, Repr

/-- The exact call an approval is asked to authorize. -/
structure ApprovalRequest where
  proposalHash : JsString
  actionType : ActionType
  resourceId : JsString
deriving DecidableEq, Repr

/-- Why an approval was refused. -/
inductive ApprovalRejectionReason where
  | statusInvalid
  | alreadyConsumed
  | expired
  | planHashMismatch
  | scopeMismatch
deriving DecidableEq, Repr

/-- The wire text of an approval rejection. -/
def ApprovalRejectionReason.toJs : ApprovalRejectionReason → JsString
  | .statusInvalid => js "APPROVAL_STATUS_INVALID"
  | .alreadyConsumed => js "APPROVAL_ALREADY_CONSUMED"
  | .expired => js "APPROVAL_EXPIRED"
  | .planHashMismatch => js "PLAN_HASH_MISMATCH"
  | .scopeMismatch => js "APPROVAL_SCOPE_MISMATCH"

/-! ## Run state machine -/

/-- Every state a run can be in. -/
inductive RunState where
  | proposed
  | validated
  | rejected
  | denied
  | approvalRequired
  | authorized
  | stale
  | expired
  | executing
  | verified
  | failed
  | unknownOutcome
  | reconciliationRequired
  | revoked
  | conflict
deriving DecidableEq, Repr

/-- The wire text of a run state. -/
def RunState.toJs : RunState → JsString
  | .proposed => js "PROPOSED"
  | .validated => js "VALIDATED"
  | .rejected => js "REJECTED"
  | .denied => js "DENIED"
  | .approvalRequired => js "APPROVAL_REQUIRED"
  | .authorized => js "AUTHORIZED"
  | .stale => js "STALE"
  | .expired => js "EXPIRED"
  | .executing => js "EXECUTING"
  | .verified => js "VERIFIED"
  | .failed => js "FAILED"
  | .unknownOutcome => js "UNKNOWN_OUTCOME"
  | .reconciliationRequired => js "RECONCILIATION_REQUIRED"
  | .revoked => js "REVOKED"
  | .conflict => js "CONFLICT"

/-- Every trigger deterministic code may fire to move a run between states. -/
inductive RunStateTrigger where
  | schemaPass
  | schemaFail
  | policyDeny
  | highRisk
  | lowRiskPolicyAllow
  | matchingApproval
  | ttlElapsed
  | freshPreconditions
  | planOrResourceChanged
  | postconditionPass
  | deterministicToolFailure
  | timeoutTransportAmbiguity
  | lookupConfirmsSuccess
  | lookupConfirmsFailure
  | lookupInconclusive
  | capabilityRevoked
  | concurrentApprovalConflict
deriving DecidableEq, Repr

/-- The wire text of a trigger. -/
def RunStateTrigger.toJs : RunStateTrigger → JsString
  | .schemaPass => js "schema_pass"
  | .schemaFail => js "schema_fail"
  | .policyDeny => js "policy_deny"
  | .highRisk => js "high_risk"
  | .lowRiskPolicyAllow => js "low_risk_policy_allow"
  | .matchingApproval => js "matching_approval"
  | .ttlElapsed => js "ttl_elapsed"
  | .freshPreconditions => js "fresh_preconditions"
  | .planOrResourceChanged => js "plan_or_resource_changed"
  | .postconditionPass => js "postcondition_pass"
  | .deterministicToolFailure => js "deterministic_tool_failure"
  | .timeoutTransportAmbiguity => js "timeout_transport_ambiguity"
  | .lookupConfirmsSuccess => js "lookup_confirms_success"
  | .lookupConfirmsFailure => js "lookup_confirms_failure"
  | .lookupInconclusive => js "lookup_inconclusive"
  | .capabilityRevoked => js "capability_revoked"
  | .concurrentApprovalConflict => js "concurrent_approval_conflict"

/-! ## Audit ledger rows -/

/-- The complete audit event vocabulary. -/
inductive AuditEventType where
  | modelProposalRecorded
  | policyDecision
  | approvalConsumed
  | capabilityMinted
  | executionStarted
  | preconditionFailed
  | postconditionVerified
  | postconditionFailed
  | executionUnknown
  | reconciliationRequired
  | auditIntegrityChecked
  | duplicateReplayDetected
deriving DecidableEq, Repr

/-- The wire text of an audit event type. -/
def AuditEventType.toJs : AuditEventType → JsString
  | .modelProposalRecorded => js "MODEL_PROPOSAL_RECORDED"
  | .policyDecision => js "POLICY_DECISION"
  | .approvalConsumed => js "APPROVAL_CONSUMED"
  | .capabilityMinted => js "CAPABILITY_MINTED"
  | .executionStarted => js "EXECUTION_STARTED"
  | .preconditionFailed => js "PRECONDITION_FAILED"
  | .postconditionVerified => js "POSTCONDITION_VERIFIED"
  | .postconditionFailed => js "POSTCONDITION_FAILED"
  | .executionUnknown => js "EXECUTION_UNKNOWN"
  | .reconciliationRequired => js "RECONCILIATION_REQUIRED"
  | .auditIntegrityChecked => js "AUDIT_INTEGRITY_CHECKED"
  | .duplicateReplayDetected => js "DUPLICATE_REPLAY_DETECTED"

/-- Who an event is attributed to. -/
inductive AuditActorKind where
  | server
  | human
  | model
  | tool
deriving DecidableEq, Repr

/-- The wire text of an actor kind. -/
def AuditActorKind.toJs : AuditActorKind → JsString
  | .server => js "server"
  | .human => js "human"
  | .model => js "model"
  | .tool => js "tool"

/-- What an event is about. -/
inductive AuditSubjectKind where
  | action
  | approval
  | capability
  | resource
  | operation
deriving DecidableEq, Repr

/-- The wire text of a subject kind. -/
def AuditSubjectKind.toJs : AuditSubjectKind → JsString
  | .action => js "action"
  | .approval => js "approval"
  | .capability => js "capability"
  | .resource => js "resource"
  | .operation => js "operation"

/-- `{ kind, id }` of an actor. -/
structure AuditActor where
  kind : AuditActorKind
  id : JsString
deriving DecidableEq, Repr

/-- `{ kind, id }` of a subject. -/
structure AuditSubject where
  kind : AuditSubjectKind
  id : JsString
deriving DecidableEq, Repr

/-- A row of the ledger without its own hash. -/
structure AuditEntryBody where
  eventId : JsString
  sequence : Nat
  type : AuditEventType
  actor : AuditActor
  subject : AuditSubject
  payload : List (JsString × JsValue)
  occurredAt : JsString
  prevHash : JsString
  runId : Option JsString
  operationId : Option JsString
  policyVersion : Option JsString
  requestId : Option JsString
deriving Repr

/-- A row of the append-only, hash-chained audit ledger. -/
structure AuditLedgerEntry extends AuditEntryBody where
  hash : JsString
deriving Repr

end ActionHarbor
