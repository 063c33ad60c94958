import ActionHarbor.Model.Interleaving

/-!
# Interleavings on one ledger

Any number of `executeAction` calls that append to one ledger. Each is given a
registry and a store by name, the same as others are given or not, and other code
may append to the ledger at any time. As in `World`, the adapters, the timers and
the scheduler are the environment.

`trace` lists the rows as they are appended and the records as they are written, by
whom, next to the invocations of `adapter.execute`: a call that starts appends its
row before it goes on to the adapter, and one that is resumed makes its writes in the
order of the statements of `executeAction`.
-/

namespace ActionHarbor

/-- The registry and the store a call is given. -/
structure CallObjects (ρ σ : Type) where
  registry : ρ
  store : σ

/-! ## The writes of a continuation -/

/-- One write of a call, to its store or to the ledger. -/
inductive CallWrite where
  | record (record : OperationRecord)
  | append (entry : AuditLedgerEntry)

/-- Carry a write out. -/
def Shared.write (shared : Shared) : CallWrite → Shared
  | .record record => { shared with operationStore := shared.operationStore.record record }
  | .append entry => { shared with ledger := ⟨shared.ledger.entries ++ [entry]⟩ }

section
variable [Host]

/-- The write of `audit`; an unhashable event makes none. -/
def auditWrites (shared : Shared) (operationId : JsString) (type : AuditEventType)
    (payload : List (JsString × JsValue)) (stamp : Stamp) : List CallWrite :=
  match audit shared.ledger operationId type payload stamp with
  | .error _ => []
  | .ok (_, entry) => [.append entry]

/-- The writes of `finalizeFromReceipt`: `operationStore.record`, then `audit`. -/
def finalizeWrites (shared : Shared) (input : ExecuteActionInput) (receipt : JsValue)
    (payloadHash capabilityId : JsString) (reconciled : Bool) (stamp : Stamp) : List CallWrite :=
  let operationId := input.operation.operationId
  if verifyPostcondition input.request.actionType receipt input.postcondition then
    .record (verifiedRecord input receipt payloadHash capabilityId) ::
      auditWrites shared operationId .postconditionVerified (verifiedPayload reconciled) stamp
  else
    .record (unverifiedRecord input payloadHash capabilityId) ::
      auditWrites shared operationId .postconditionFailed
        (reasonCodePayload VerificationReasonCode.postconditionUnverified.toJs) stamp

/-- The writes of `executeAction` after `raceWithTimeout`. -/
def afterRaceWrites (shared : Shared) (call : RacingCall) (outcome : RaceOutcome)
    (stamp : Stamp) : List CallWrite :=
  match outcome with
  | .timeout =>
    .record (call.outcomeRecord .unknownOutcome none) ::
      auditWrites shared call.input.operation.operationId .executionUnknown
        (reasonCodePayload VerificationReasonCode.unknownOutcome.toJs) stamp
  | .rejected error =>
    match error.errorMessage with
    | none => []
    | some errorMessage => [.record (call.outcomeRecord .failed (some errorMessage))]
  | .resolved (.error reasonCode) =>
    [.record (call.outcomeRecord .failed (some (js "gateway rejected: " ++ reasonCode.toJs)))]
  | .resolved (.ok receipt) =>
    finalizeWrites shared call.input receipt call.payloadHash call.capability.id false stamp

/-- The writes of `reconcileDuplicate` after `adapter.lookup`. -/
def afterLookupWrites (shared : Shared) (call : LookupCall) (answer : LookupAnswer)
    (stamp : Stamp) : List CallWrite :=
  match answer with
  | .rejected => []
  | .resolved value =>
    match value.getProp (js "status") with
    | none => []
    | some status =>
      if status.isString (js "unknown") then
        auditWrites shared call.input.operation.operationId .reconciliationRequired
          (reasonCodePayload VerificationReasonCode.unknownOutcome.toJs) stamp
      else
        finalizeWrites shared call.input ((value.getProp (js "receipt")).getD .undefined)
          call.prior.payloadHash call.prior.capabilityId true stamp

/-- The writes of a call that is resumed. -/
def Waiting.writeList (waiting : Waiting) (wakeup : Wakeup) (shared : Shared) (stamp : Stamp) :
    List CallWrite :=
  match waiting, wakeup with
  | .executing call, .executeResolved receipt =>
    afterRaceWrites shared call (.resolved (.ok receipt)) stamp
  | .executing call, .executeRejected error => afterRaceWrites shared call (.rejected error) stamp
  | .executing call, .timerFired => afterRaceWrites shared call .timeout stamp
  | .refused call reasonCode, .refusalDelivered =>
    afterRaceWrites shared call (.resolved (.error reasonCode)) stamp
  | .lookingUp call, .lookupSettled answer => afterLookupWrites shared call answer stamp
  | _, _ => []

end

/-! ## The world -/

/-- One observable happening around the ledger. -/
inductive LedgerObservation where
  | recorded (c : CallId) (record : OperationRecord)
  | appended (c : CallId) (entry : AuditLedgerEntry)
  /-- by other code than `executeAction` -/
  | appendedElsewhere (entry : AuditLedgerEntry)
  | executeInvoked (c : CallId) (operation : AdapterOperation)
  | settled (c : CallId) (settled : Settled)

/-- The ledger, what the calls on it share besides, and the calls in flight. -/
structure LedgerWorld (ρ σ : Type) where
  registries : ρ → CapabilityRegistry := fun _ => {}
  stores : σ → OperationStore := fun _ => {}
  ledger : AuditLedger := {}
  pending : CallId → Option (CallObjects ρ σ × Waiting) := fun _ => none
  nextCall : CallId := 0
  trace : List LedgerObservation := []

/-- One scheduling step. -/
inductive LedgerEvent (ρ σ : Type) where
  | record (registry : ρ) (capability : Capability)
  | append (input : AuditEventInput) (stamp : Stamp)
  | start (objects : CallObjects ρ σ) (input : ExecuteActionInput) (reads : CallReads)
  | wake (c : CallId) (wakeup : Wakeup) (stamp : Stamp)

/-- The rows a ledger has gained. -/
def AuditLedger.rowsSince (ledger' ledger : AuditLedger) : List AuditLedgerEntry :=
  ledger'.entries.drop ledger.entries.length

/-- A write of a call, as it is observed. -/
def CallWrite.observation (c : CallId) : CallWrite → LedgerObservation
  | .record operation => .recorded c operation
  | .append entry => .appended c entry

/-- What a call does once it has appended the rows of its synchronous part. -/
def CallProgress.observations (c : CallId) : CallProgress → List LedgerObservation
  | .done outcome => [.settled c outcome]
  | .waiting (.executing call) => [.executeInvoked c call.input.operation]
  | .waiting _ => []

/-- Where a call stands after its synchronous part. -/
def CallProgress.pending {ρ σ : Type} (objects : CallObjects ρ σ) :
    CallProgress → Option (CallObjects ρ σ × Waiting)
  | .done _ => none
  | .waiting call => some (objects, call)

namespace LedgerWorld
variable {ρ σ : Type} [DecidableEq ρ] [DecidableEq σ]

/-- The objects of a call, the ledger among them. -/
def shared (w : LedgerWorld ρ σ) (objects : CallObjects ρ σ) : Shared :=
  ⟨w.registries objects.registry, w.stores objects.store, w.ledger⟩

/-- Write the objects of a call back, with the writes it made. -/
def setShared (w : LedgerWorld ρ σ) (c : CallId) (objects : CallObjects ρ σ) (shared : Shared)
    (writes : List CallWrite) : LedgerWorld ρ σ :=
  { w with
    registries := Function.update w.registries objects.registry shared.registry
    stores := Function.update w.stores objects.store shared.operationStore
    ledger := shared.ledger
    trace := w.trace ++ writes.map (·.observation c) }

/-- One step; `none` when the label does not fit the state. -/
def step [Host] (w : LedgerWorld ρ σ) : LedgerEvent ρ σ → Option (LedgerWorld ρ σ)
  | .record registry capability =>
    some { w with
      registries :=
        Function.update w.registries registry ((w.registries registry).record capability) }
  | .append input stamp =>
    match w.ledger.append input stamp with
    -- a throwing append leaves the ledger alone
    | .error _ => some w
    | .ok (ledger, entry) =>
      some { w with ledger := ledger, trace := w.trace ++ [.appendedElsewhere entry] }
  | .start objects input reads =>
    let (shared, progress) := executeAction (w.shared objects) input reads
    -- a call records nothing before its first `await`
    let writes := (shared.ledger.rowsSince w.ledger).map .append
    let w' := w.setShared w.nextCall objects shared writes
    some { w' with
      pending := Function.update w.pending w.nextCall (progress.pending objects)
      nextCall := w.nextCall + 1
      trace := w'.trace ++ progress.observations w.nextCall }
  | .wake c wakeup stamp =>
    match w.pending c with
    | none => none
    | some (objects, call) =>
      (call.resume wakeup (w.shared objects) stamp).map fun (shared, outcome) =>
        let w' := w.setShared c objects shared (call.writeList wakeup (w.shared objects) stamp)
        { w' with
          pending := Function.update w.pending c none
          trace := w'.trace ++ [.settled c outcome] }

end LedgerWorld

end ActionHarbor
