import ActionHarbor.Model.Domain
import ActionHarbor.Model.Ledger
import ActionHarbor.Model.Policy
import ActionHarbor.Model.Verifier
import Mathlib.Logic.Function.Basic

/-!
# Action gateway

The registry of minted capabilities, the operation store, `mintCapability`,
`invokeAdapter` and `executeAction`.

`executeAction` is an `async` function. Its code up to the first `await` is
`executeAction`; what runs after the race between adapter and timer is
`afterRace`, and what runs after a reconciliation lookup is `afterLookup`. What
the adapter answers is an argument of these two.

## Key definitions

- `CapabilityRegistry`, `OperationStore`: the shared, stateful halves
- `mintCapability`: the authority-issuing step
- `executeAction`, `afterRace`, `afterLookup`: one call of the gateway
- `Waiting.resume`: the continuation of a call in flight
-/

namespace ActionHarbor

/-! ## Capability registry -/

/-- The capabilities recorded so far, by id. -/
structure CapabilityRegistry where
  byId : JsString → Option Capability := fun _ => none

namespace CapabilityRegistry

/-- Record a minted capability. -/
def record (registry : CapabilityRegistry) (capability : Capability) : CapabilityRegistry :=
  ⟨Function.update registry.byId capability.id (some capability)⟩

/-- Check the presented id and nonce and mark the entry consumed in one step. On
    refusal the registry is left as it was. -/
def consume (registry : CapabilityRegistry) (capabilityId nonce : JsString) :
    Except CapabilityRejectionReason CapabilityRegistry :=
  match registry.byId capabilityId with
  | none => .error .unknown
  | some stored =>
    if stored.nonce ≠ nonce then .error .nonceMismatch
    else if stored.status ≠ .active then .error .alreadyConsumed
    else .ok ⟨Function.update registry.byId capabilityId (some { stored with status := .consumed })⟩

end CapabilityRegistry

/-! ## Operation store -/

/-- `postconditionReport` of a record. -/
structure PostconditionReport where
  verified : Bool
  reasonCode : Option VerificationReasonCode := none
deriving DecidableEq, Repr

/-- The outcome remembered for an operation. An absent `receipt` reads `undefined`. -/
structure OperationRecord where
  operationId : JsString
  idempotencyKey : JsString
  capabilityId : JsString
  payloadHash : JsString
  state : OperationState
  receipt : JsValue := .undefined
  errorMessage : Option JsString := none
  postconditionReport : Option PostconditionReport := none
deriving Repr

/-- What `check` finds under an idempotency key. -/
inductive OperationLookup where
  | new
  | duplicate (operation : OperationRecord)
  | conflict
deriving Repr

/-- The gateway's own idempotency bookkeeping: two maps written together. -/
structure OperationStore where
  byIdempotencyKey : JsString → Option OperationRecord := fun _ => none
  byOperationId : JsString → Option OperationRecord := fun _ => none

namespace OperationStore

/-- Consulted before the adapter is ever called. -/
def check (store : OperationStore) (idempotencyKey payloadHash : JsString) : OperationLookup :=
  match store.byIdempotencyKey idempotencyKey with
  | none => .new
  | some existing =>
    if existing.payloadHash ≠ payloadHash then .conflict else .duplicate existing

/-- Overwrite both entries, whatever they held. -/
def record (store : OperationStore) (operation : OperationRecord) : OperationStore where
  byIdempotencyKey :=
    Function.update store.byIdempotencyKey operation.idempotencyKey (some operation)
  byOperationId := Function.update store.byOperationId operation.operationId (some operation)

/-- The record last written under an operation id. -/
def lookup (store : OperationStore) (operationId : JsString) : Option OperationRecord :=
  store.byOperationId operationId

end OperationStore

/-! ## Minting -/

/-- `MAX_CAPABILITY_TTL_MS` -/
def maxCapabilityTtlMs : Int := 5 * 60 * 1000

/-- The two forms of evidence `mintCapability` accepts. -/
inductive AuthorizationEvidence where
  | policyAllow (verdict : PolicyVerdict)
  | approved (approval : Approval)

/-- What minting draws from its surroundings: the ids `next("cap")` and
    `next("nonce")` and one clock reading. -/
structure MintDraw where
  capabilityId : JsString
  nonce : JsString
  now : Instant

/-- The evidence check of `mintCapability`. -/
def checkEvidence (evidence : AuthorizationEvidence) (request : CapabilityRequest) :
    Except CapabilityMintRejectionReason Unit :=
  match evidence with
  | .policyAllow verdict =>
    if verdict.outcome ≠ .allow then .error .policyDidNotAllow else .ok ()
  | .approved approval =>
    if approval.status ≠ .consumed then .error .approvalNotConsumed
    else if approval.proposalHash ≠ request.proposalHash then .error .planHashMismatch
    else if approval.scope.actionType ≠ request.actionType ∨
        approval.scope.resourceId ≠ request.resourceId then .error .approvalScopeMismatch
    else .ok ()

/-- The only function that constructs a capability with status `active`. -/
def mintCapability [Host] (evidence : AuthorizationEvidence) (request : CapabilityRequest)
    (draw : MintDraw) (ttlMs : Int) : Except CapabilityMintRejectionReason Capability :=
  (checkEvidence evidence request).map fun _ =>
    { id := draw.capabilityId
      principalId := request.principalId
      actionType := request.actionType
      resourceId := request.resourceId
      proposalHash := request.proposalHash
      expiresAt := Host.toISOString (draw.now + min ttlMs maxCapabilityTtlMs)
      nonce := draw.nonce
      status := .active }

/-! ## Inputs and results of a call -/

/-- One execution attempt: the durable handle and the idempotency key. -/
structure AdapterOperation where
  operationId : JsString
  idempotencyKey : JsString
deriving DecidableEq, Repr

/-- The inputs of a call that are not shared objects. `timeoutMs` only decides
    when the timer fires, which is an event of its own. -/
structure ExecuteActionInput where
  capabilityRaw : JsValue
  request : CapabilityRequest
  operation : AdapterOperation
  params : JsValue
  precondition : Precondition
  postcondition : PostconditionExpectation

/-- What a call settles with when its promise resolves. -/
inductive ExecuteActionResult where
  | ok (receipt : JsValue) (replay : Bool) (operationId : JsString)
      (reasonCode : Option VerificationReasonCode) (auditEvents : List AuditLedgerEntry)
  | capability (reasonCode : CapabilityRejectionReason) (auditEvents : List AuditLedgerEntry)
  | precondition (reasonCodes : List PreconditionRejectionReason)
      (auditEvents : List AuditLedgerEntry)
  | idempotency (auditEvents : List AuditLedgerEntry)
  | postcondition (auditEvents : List AuditLedgerEntry)
  | unknownOutcome (operationId : JsString) (auditEvents : List AuditLedgerEntry)
  | reconciliationRequired (operationId : JsString) (auditEvents : List AuditLedgerEntry)
  | adapter (errorMessage : JsString) (auditEvents : List AuditLedgerEntry)
deriving Repr

/-- Why a call's promise rejects instead of resolving. -/
inductive CallError where
  | unhashable (error : CanonicalizeError)
  | lookupRejected
  | notAnObject
  | unprintableRejection
deriving DecidableEq, Repr

/-- A settled call. -/
inductive Settled where
  | returned (result : ExecuteActionResult)
  | threw (error : CallError)
deriving Repr

/-- What an adapter's promise rejects with: an `Error`, or another value with the
    text `String(value)` gives it. That conversion itself throws for some values,
    such as an object without a prototype. -/
inductive AdapterError where
  | error (message : JsString)
  | other (text : Option JsString)
deriving DecidableEq, Repr

/-- `error instanceof Error ? error.message : String(error)` -/
def AdapterError.errorMessage : AdapterError → Option JsString
  | .error message => some message
  | .other text => text

/-- How the promise of `adapter.lookup` settles. -/
inductive LookupAnswer where
  | resolved (value : JsValue)
  | rejected
deriving Repr

/-- `RaceOutcome`: how the race of `invokeAdapter` against the timer ends. -/
inductive RaceOutcome where
  | resolved (gatewayResult : Except CapabilityRejectionReason JsValue)
  | rejected (error : AdapterError)
  | timeout
deriving Repr

/-! ## Calls in flight -/

/-- A call that consumed its capability and awaits the race. -/
structure RacingCall where
  input : ExecuteActionInput
  capability : Capability
  payloadHash : JsString
  auditEvents : List AuditLedgerEntry

/-- A call that awaits the reconciliation lookup of an earlier operation. -/
structure LookupCall where
  input : ExecuteActionInput
  prior : OperationRecord

/-- What a call that has not settled waits for. -/
inductive Waiting where
  /-- `adapter.execute(operation, capability, params)` has been invoked -/
  | executing (call : RacingCall)
  /-- `invokeAdapter`'s own check refused; its promise resolves with the reason -/
  | refused (call : RacingCall) (reasonCode : CapabilityRejectionReason)
  /-- `adapter.lookup(prior.operationId)` has been invoked -/
  | lookingUp (call : LookupCall)

/-- Where a call stands at its first `await` or its end. -/
inductive CallProgress where
  | done (settled : Settled)
  | waiting (waiting : Waiting)

/-- The objects a call shares with others. -/
structure Shared where
  registry : CapabilityRegistry := {}
  operationStore : OperationStore := {}
  ledger : AuditLedger := {}

/-- The clock readings and event id the synchronous part of a call draws. -/
structure CallReads where
  /-- `input.clock.now()` on entry -/
  now : Instant
  /-- the ledger append, at most one on every path -/
  stamp : Stamp
  /-- `args.clock.now()` in `invokeAdapter` -/
  gatewayNow : Instant
deriving DecidableEq, Repr

/-! ## executeAction -/

section
variable [Host]

/-- `EXECUTION_GATEWAY_ACTOR` -/
def executionGatewayActor : AuditActor := ⟨.server, js "execution-gateway-v1"⟩

/-- Append one event about an operation. -/
def audit (ledger : AuditLedger) (operationId : JsString) (type : AuditEventType)
    (payload : List (JsString × JsValue)) (stamp : Stamp) :
    Except CanonicalizeError (AuditLedger × AuditLedgerEntry) :=
  ledger.append
    { type := type
      actor := executionGatewayActor
      subject := ⟨.operation, operationId⟩
      payload := payload
      operationId := some operationId } stamp

/-- Append an event and go on with its row; an unhashable one rejects the call. -/
def withAudit (shared : Shared) (operationId : JsString) (type : AuditEventType)
    (payload : List (JsString × JsValue)) (stamp : Stamp)
    (next : Shared → AuditLedgerEntry → Shared × CallProgress) : Shared × CallProgress :=
  match audit shared.ledger operationId type payload stamp with
  | .error error => (shared, .done (.threw (.unhashable error)))
  | .ok (ledger, entry) => next { shared with ledger := ledger } entry

/-- `{ reasonCode }` -/
def reasonCodePayload (reasonCode : JsString) : List (JsString × JsValue) :=
  [(js "reasonCode", .string reasonCode)]

/-- `invokeAdapter` up to its `await`: on a refusal `adapter.execute` is never invoked. -/
def invokeAdapter (call : RacingCall) (now : Instant) : Waiting :=
  match validateCapability call.capability call.input.request now with
  | .error reasonCode => .refused call reasonCode
  | .ok () => .executing call

/-- `reconcileDuplicate` up to its `await`. -/
def reconcileDuplicate (shared : Shared) (input : ExecuteActionInput) (prior : OperationRecord)
    (stamp : Stamp) : Shared × CallProgress :=
  if prior.state = .succeeded ∧ !prior.receipt.isUndefined then
    withAudit shared input.operation.operationId .duplicateReplayDetected
      (reasonCodePayload VerificationReasonCode.idempotentReplay.toJs) stamp fun shared entry =>
        (shared, .done (.returned
          (.ok prior.receipt true prior.operationId (some .idempotentReplay) [entry])))
  else if prior.state = .failed then
    (shared, .done (.returned
      (.adapter (prior.errorMessage.getD (js "prior attempt did not succeed")) [])))
  else (shared, .waiting (.lookingUp ⟨input, prior⟩))

/-- The `"new"` branch: consume the capability, then call the adapter. -/
def executeFresh (shared : Shared) (input : ExecuteActionInput) (capability : Capability)
    (payloadHash : JsString) (reads : CallReads) : Shared × CallProgress :=
  match shared.registry.consume capability.id capability.nonce with
  | .error reasonCode => (shared, .done (.returned (.capability reasonCode [])))
  | .ok registry =>
    withAudit { shared with registry := registry } input.operation.operationId .executionStarted
      [(js "actionType", .string input.request.actionType.toJs)] reads.stamp fun shared entry =>
        (shared,
          .waiting (invokeAdapter ⟨input, capability, payloadHash, [entry]⟩ reads.gatewayNow))

/-- `executeAction` up to its first `await`: capability, preconditions, idempotency,
    and only for a new key the registry and the adapter. -/
def executeAction (shared : Shared) (input : ExecuteActionInput) (reads : CallReads) :
    Shared × CallProgress :=
  let operationId := input.operation.operationId
  match parseAndValidateCapability input.capabilityRaw input.request reads.now with
  -- a refused capability leaves no row
  | .error reasonCode => (shared, .done (.returned (.capability reasonCode [])))
  | .ok capability =>
    match checkPreconditions capability input.precondition with
    | .error reasonCodes =>
      withAudit shared operationId .preconditionFailed
        [(js "reasonCodes", .array (reasonCodes.map fun code => .string code.toJs))] reads.stamp
        fun shared entry => (shared, .done (.returned (.precondition reasonCodes [entry])))
    | .ok () =>
      match hashCanonical input.params with
      | .error error => (shared, .done (.threw (.unhashable error)))
      | .ok payloadHash =>
        -- only from here on does the store matter
        match shared.operationStore.check input.operation.idempotencyKey payloadHash with
        | .conflict =>
          withAudit shared operationId .duplicateReplayDetected
            (reasonCodePayload (js "IDEMPOTENCY_KEY_PAYLOAD_MISMATCH")) reads.stamp
            fun shared entry => (shared, .done (.returned (.idempotency [entry])))
        | .duplicate operation => reconcileDuplicate shared input operation reads.stamp
        | .new => executeFresh shared input capability payloadHash reads

/-- Record an outcome, then append its event; the record stays if the append throws. -/
def recordAndAudit (shared : Shared) (record : OperationRecord) (operationId : JsString)
    (type : AuditEventType) (payload : List (JsString × JsValue)) (stamp : Stamp)
    (result : AuditLedgerEntry → ExecuteActionResult) : Shared × Settled :=
  let shared := { shared with operationStore := shared.operationStore.record record }
  match audit shared.ledger operationId type payload stamp with
  | .error error => (shared, .threw (.unhashable error))
  | .ok (ledger, entry) => ({ shared with ledger := ledger }, .returned (result entry))

/-- The record of a verified receipt, under this call's operation id, also after a lookup. -/
def verifiedRecord (input : ExecuteActionInput) (receipt : JsValue)
    (payloadHash capabilityId : JsString) : OperationRecord where
  operationId := input.operation.operationId
  idempotencyKey := input.operation.idempotencyKey
  capabilityId := capabilityId
  payloadHash := payloadHash
  state := .succeeded
  receipt := receipt
  postconditionReport := some { verified := true }

/-- The record of a receipt that did not verify. -/
def unverifiedRecord (input : ExecuteActionInput) (payloadHash capabilityId : JsString) :
    OperationRecord where
  operationId := input.operation.operationId
  idempotencyKey := input.operation.idempotencyKey
  capabilityId := capabilityId
  payloadHash := payloadHash
  state := .failed
  errorMessage := some (js "adapter response did not satisfy the required postcondition")
  postconditionReport := some { verified := false, reasonCode := some .postconditionUnverified }

/-- The payload of `POSTCONDITION_VERIFIED`. -/
def verifiedPayload (reconciled : Bool) : List (JsString × JsValue) :=
  if reconciled then reasonCodePayload VerificationReasonCode.reconciledSuccess.toJs else []

/-- Run the postcondition check on a receipt, record the outcome, return the result. -/
def finalizeFromReceipt (shared : Shared) (input : ExecuteActionInput) (receipt : JsValue)
    (payloadHash capabilityId : JsString) (reconciled : Bool)
    (auditEventsSoFar : List AuditLedgerEntry) (stamp : Stamp) : Shared × Settled :=
  let operationId := input.operation.operationId
  if verifyPostcondition input.request.actionType receipt input.postcondition then
    recordAndAudit shared (verifiedRecord input receipt payloadHash capabilityId) operationId
      .postconditionVerified (verifiedPayload reconciled) stamp fun entry =>
        .ok receipt reconciled operationId
          (if reconciled then some .reconciledSuccess else none) (auditEventsSoFar ++ [entry])
  else
    recordAndAudit shared (unverifiedRecord input payloadHash capabilityId) operationId
      .postconditionFailed (reasonCodePayload VerificationReasonCode.postconditionUnverified.toJs)
      stamp fun entry => .postcondition (auditEventsSoFar ++ [entry])

/-- The record of a racing call that ended without a receipt. -/
def RacingCall.outcomeRecord (call : RacingCall) (state : OperationState)
    (errorMessage : Option JsString) : OperationRecord where
  operationId := call.input.operation.operationId
  idempotencyKey := call.input.operation.idempotencyKey
  capabilityId := call.capability.id
  payloadHash := call.payloadHash
  state := state
  errorMessage := errorMessage

/-- `executeAction` after `raceWithTimeout`. -/
def afterRace (shared : Shared) (call : RacingCall) (outcome : RaceOutcome) (stamp : Stamp) :
    Shared × Settled :=
  let operationId := call.input.operation.operationId
  match outcome with
  | .timeout =>
    recordAndAudit shared (call.outcomeRecord .unknownOutcome none) operationId .executionUnknown
      (reasonCodePayload VerificationReasonCode.unknownOutcome.toJs) stamp fun entry =>
        .unknownOutcome operationId (call.auditEvents ++ [entry])
  | .rejected error =>
    -- `String(error)` may throw; a failure is recorded but not audited
    match error.errorMessage with
    | none => (shared, .threw .unprintableRejection)
    | some errorMessage =>
      ({ shared with
          operationStore :=
            shared.operationStore.record (call.outcomeRecord .failed (some errorMessage)) },
        .returned (.adapter errorMessage call.auditEvents))
  | .resolved (.error reasonCode) =>
    ({ shared with
        operationStore := shared.operationStore.record
          (call.outcomeRecord .failed (some (js "gateway rejected: " ++ reasonCode.toJs))) },
      .returned (.capability reasonCode call.auditEvents))
  | .resolved (.ok receipt) =>
    finalizeFromReceipt shared call.input receipt call.payloadHash call.capability.id false
      call.auditEvents stamp

/-- `reconcileDuplicate` after `adapter.lookup`: only a status `"unknown"` is
    inconclusive, anything else with properties is read for its receipt. -/
def afterLookup (shared : Shared) (call : LookupCall) (answer : LookupAnswer) (stamp : Stamp) :
    Shared × Settled :=
  match answer with
  | .rejected => (shared, .threw .lookupRejected)
  | .resolved value =>
    match value.getProp (js "status") with
    | none => (shared, .threw .notAnObject)
    | some status =>
      if status.isString (js "unknown") then
        match audit shared.ledger call.input.operation.operationId .reconciliationRequired
          (reasonCodePayload VerificationReasonCode.unknownOutcome.toJs) stamp with
        | .error error => (shared, .threw (.unhashable error))
        | .ok (ledger, entry) =>
          ({ shared with ledger := ledger },
            .returned (.reconciliationRequired call.prior.operationId [entry]))
      else
        finalizeFromReceipt shared call.input ((value.getProp (js "receipt")).getD .undefined)
          call.prior.payloadHash call.prior.capabilityId true [] stamp

/-! ## Resuming a call -/

/-- What can end a call's wait. -/
inductive Wakeup where
  | executeResolved (receipt : JsValue)
  | executeRejected (error : AdapterError)
  | timerFired
  | refusalDelivered
  | lookupSettled (answer : LookupAnswer)
deriving Repr

/-- Run the rest of a waiting call; `none` when the wakeup is for another kind of
    wait. A refusal is already resolved when the race starts, so no timer beats it. -/
def Waiting.resume (waiting : Waiting) (wakeup : Wakeup) (shared : Shared) (stamp : Stamp) :
    Option (Shared × Settled) :=
  match waiting, wakeup with
  | .executing call, .executeResolved receipt =>
    some (afterRace shared call (.resolved (.ok receipt)) stamp)
  | .executing call, .executeRejected error => some (afterRace shared call (.rejected error) stamp)
  | .executing call, .timerFired => some (afterRace shared call .timeout stamp)
  | .refused call reasonCode, .refusalDelivered =>
    some (afterRace shared call (.resolved (.error reasonCode)) stamp)
  | .lookingUp call, .lookupSettled answer => some (afterLookup shared call answer stamp)
  | _, _ => none

end

end ActionHarbor
