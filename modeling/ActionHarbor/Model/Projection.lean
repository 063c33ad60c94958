import ActionHarbor.Model.Gateway

/-!
# Operation projection

What the ledger tells about one operation: a fold over its rows in sequence order,
the last telling row winning. And `executeAction` calls run to completion one after
another, on the store and the ledger this is to be compared on.
-/

namespace ActionHarbor

/-! ## projection.ts -/

/-- The stages of an operation. -/
inductive ProjectionStage where
  | proposal
  | policy
  | approval
  | capability
  | execution
  | verification
deriving DecidableEq, Repr

/-- Where the rows of an operation leave it. -/
inductive OperationFinalState where
  | noEvents
  | proposed
  | policyDecided
  | approved
  | capabilityMinted
  | executing
  | verified
  | failed
  | unknownOutcome
  | reconciliationRequired
deriving DecidableEq, Repr

/-- What is read off the rows of one operation. -/
structure OperationProjection where
  operationId : JsString
  stagesSeen : List ProjectionStage
  finalState : OperationFinalState
  events : List AuditLedgerEntry
deriving Repr

/-- `stageForEventType` -/
def stageForEventType : AuditEventType → Option ProjectionStage
  | .modelProposalRecorded => some .proposal
  | .policyDecision => some .policy
  | .approvalConsumed => some .approval
  | .capabilityMinted => some .capability
  | .executionStarted | .preconditionFailed | .duplicateReplayDetected => some .execution
  | .postconditionVerified | .postconditionFailed | .executionUnknown
  | .reconciliationRequired => some .verification
  | .auditIntegrityChecked => none

/-- `finalStateForEventType`. A replay is ambiguous by itself and tells nothing. -/
def finalStateForEventType (type : AuditEventType) (previous : OperationFinalState) :
    OperationFinalState :=
  match type with
  | .modelProposalRecorded => .proposed
  | .policyDecision => .policyDecided
  | .approvalConsumed => .approved
  | .capabilityMinted => .capabilityMinted
  | .executionStarted => .executing
  | .preconditionFailed => .failed
  | .postconditionVerified => .verified
  | .postconditionFailed => .failed
  | .executionUnknown => .unknownOutcome
  | .reconciliationRequired => .reconciliationRequired
  | .auditIntegrityChecked | .duplicateReplayDetected => previous

/-- `stages.add(stage)`: a `Set` lists its members in the order they came. -/
def addStage (stages : List ProjectionStage) (entry : AuditLedgerEntry) : List ProjectionStage :=
  match stageForEventType entry.type with
  | none => stages
  | some stage => if stage ∈ stages then stages else stages ++ [stage]

/-- `projectOperation` -/
def projectOperation (entries : List AuditLedgerEntry) (operationId : JsString) :
    OperationProjection :=
  let relevant := (entries.filter fun entry => entry.operationId = some operationId).insertionSort
    fun a b => a.sequence ≤ b.sequence
  { operationId := operationId
    stagesSeen := relevant.foldl addStage []
    finalState := relevant.foldl (fun state entry => finalStateForEventType entry.type state)
      (if relevant.length = 0 then .noEvents else .proposed)
    events := relevant }

/-! ## Calls one after another -/

/-- The store and the ledger of a sequence of calls. -/
structure AuditedStore where
  operationStore : OperationStore := {}
  ledger : AuditLedger := {}

/-- A call run to completion: its inputs, the registry it is given, and what ends its
    wait, if it comes to wait. -/
structure AuditedCall where
  registry : CapabilityRegistry
  input : ExecuteActionInput
  reads : CallReads
  wakeup : Wakeup
  stamp : Stamp

/-- Run a call to completion; `none` when the wakeup is for another kind of wait. -/
def AuditedStore.complete [Host] (s : AuditedStore) (call : AuditedCall) : Option AuditedStore :=
  let (shared, progress) :=
    executeAction ⟨call.registry, s.operationStore, s.ledger⟩ call.input call.reads
  match progress with
  | .done _ => some ⟨shared.operationStore, shared.ledger⟩
  | .waiting waiting =>
    (waiting.resume call.wakeup shared call.stamp).map fun (shared, _) =>
      ⟨shared.operationStore, shared.ledger⟩

end ActionHarbor
