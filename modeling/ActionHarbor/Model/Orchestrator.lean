import ActionHarbor.Model.Adapters
import ActionHarbor.Model.ModelAdapter

/-!
# Orchestrator

The demo scenarios, the record of a run, and the requests of the server on one
run, each up to the first `await` on the gateway and from there on. The model's
`propose` is awaited before a run exists and touches nothing shared, so it is a
plain function here.

A request mutates its run and the registry of capabilities as it goes, and a
thrown error does not undo that: `Turn` carries both next to the outcome.

## Key definitions

- `RunRecord`: everything the server holds about one run
- `mustTransition`, `applyExecutionResult`: the run state machine, driven
- `createRun`, `approveRun`, `simulateDrift`, `replayRun`, `reconcileRun`,
  `verifyRunLedger`: the requests
-/

namespace ActionHarbor

/-! ## Scenarios -/

/-- The five demo flows. -/
inductive ScenarioId where
  | blocked
  | approval
  | replay
  | stale
  | unknownOutcome
deriving DecidableEq, Repr

/-- The wire text of a scenario id. -/
def ScenarioId.toJs : ScenarioId → JsString
  | .blocked => js "blocked"
  | .approval => js "approval"
  | .replay => js "replay"
  | .stale => js "stale"
  | .unknownOutcome => js "unknown_outcome"

/-- What kind of thing an action affects. -/
inductive ResourceType where
  | ticket
  | customer
  | order
deriving DecidableEq, Repr

/-- `ScenarioMeta`, without the texts only the page shows. -/
structure ScenarioMeta where
  id : ScenarioId
  role : JsString
  goal : JsString
  resourceType : ResourceType
deriving DecidableEq, Repr

/-- `SCENARIOS` -/
def scenarios : List ScenarioMeta :=
  [⟨.blocked, js "operator", js "issue a refund for the damaged order", .order⟩,
    ⟨.approval, js "operator", js "send the customer a message about the shipping delay",
      .customer⟩,
    ⟨.replay, js "operator", js "send the customer a message about their refund status", .customer⟩,
    ⟨.stale, js "operator", js "send the customer a message about a billing question", .customer⟩,
    ⟨.unknownOutcome, js "operator", js "open an incident ticket for the payment failure", .ticket⟩]

/-- `findScenario` -/
def findScenario (id : JsString) : Option ScenarioMeta :=
  scenarios.find? fun s => s.id.toJs = id

/-! ## Errors -/

/-- The codes of an `OrchestratorError`. -/
inductive OrchestratorErrorCode where
  | notFound
  | invalidState
  | unknownScenario
deriving DecidableEq, Repr

/-- What a request can die with. -/
inductive RequestError where
  | orchestrator (code : OrchestratorErrorCode) (message : JsString)
  | illegalTransition (current : RunState) (trigger : RunStateTrigger)
  /-- any other `Error` -/
  | internal (message : JsString)
  /-- the rejection of `executeAction` -/
  | call (error : CallError)
deriving DecidableEq, Repr

/-- The message of an error the orchestrator itself throws. -/
def RequestError.message : RequestError → Option JsString
  | .orchestrator _ message | .internal message => some message
  | .illegalTransition current trigger =>
    some (js "orchestrator: illegal transition " ++ current.toJs ++ js " --" ++ trigger.toJs ++
      js "--> ? (orchestrator bug)")
  | .call _ => none

/-- A transition the orchestrator is certain of: an illegal one throws. -/
def mustTransition (current : RunState) (trigger : RunStateTrigger) :
    Except RequestError RunState :=
  match transition current trigger with
  | some nextState => .ok nextState
  | none => .error (.illegalTransition current trigger)

/-! ## Runs -/

/-- What the server remembers of the last attempt to execute. -/
structure RunExecutionSummary where
  ok : Bool
  stage : Option JsString := none
  reasonCode : Option JsString := none
  reasonCodes : Option (List JsString) := none
  replay : Bool
  receipt : Option JsValue := none
  errorMessage : Option JsString := none
deriving Repr

/-- The fields of a run that are never assigned again. -/
structure RunPlan where
  runId : JsString
  scenario : ScenarioId
  createdAt : JsString
  principal : Principal
  resourceType : ResourceType
  resourceOwnerId : JsString
  tenantId : JsString
  resourceId : JsString
  parameters : RawActionParameters
  evidenceRefs : List JsString
  modelProposalRaw : JsString
  proposalHash : JsString
  policyVerdict : PolicyVerdict
  operationId : JsString
  idempotencyKey : JsString
deriving DecidableEq, Repr

/-- Everything one run needs: its plan, the objects only it uses, and its status. -/
structure RunRecord extends RunPlan where
  ledger : AuditLedger := {}
  adapter : CountingAdapter := {}
  operationStore : OperationStore := {}
  state : RunState := .proposed
  resourceVersionAtProposal : Nat
  resourceVersionNow : Nat
  drifted : Bool := false
  approval : Option Approval := none
  capability : Option Capability := none
  execution : Option RunExecutionSummary := none
  lastActionAt : JsString

namespace RunPlan

/-- `actionType`, which the parsed parameters decide. -/
def actionType (plan : RunPlan) : ActionType := plan.parameters.actionType

/-- The scope every capability of the run is requested for. -/
def request (plan : RunPlan) : CapabilityRequest :=
  ⟨plan.principal.id, plan.actionType, plan.resourceId, plan.proposalHash⟩

/-- `{ operationId, idempotencyKey }` of the run. -/
def operation (plan : RunPlan) : AdapterOperation := ⟨plan.operationId, plan.idempotencyKey⟩

/-- The postcondition `executeForRun` asks for. Only two action types have an
    execution path. -/
def postcondition (plan : RunPlan) : Option PostconditionExpectation :=
  match plan.parameters with
  | .sendCustomerMessage customerId body channel =>
    some (.sendCustomerMessage plan.idempotencyKey customerId body channel)
  | .createInternalTicket _ _ _ => some (.createInternalTicket plan.idempotencyKey)
  | .issueRefund _ _ _ _ => none

end RunPlan

/-- The fake that `createAdapterAndStore` puts behind the run's counting adapter. A
    `SlowTicketAdapter` is a fake ticket adapter that waits first. -/
def adapterKind [Host] : ScenarioId → FakeAdapterKind
  | .blocked => fakeRefundAdapter
  | .approval | .replay | .stale => fakeMessageAdapter
  | .unknownOutcome => fakeTicketAdapter

/-- The versions and plan hash a call is rechecked against. -/
def RunRecord.precondition (run : RunRecord) : Precondition where
  currentProposalHash := run.proposalHash
  currentResourceVersion := .ofNat run.resourceVersionNow
  expectedResourceVersion := .ofNat run.resourceVersionAtProposal

/-- The arguments of every call of `executeAction` on a run. -/
def RunRecord.callInput (run : RunRecord) (capability : Capability)
    (postcondition : PostconditionExpectation) : ExecuteActionInput where
  capabilityRaw := capability.toJsValue
  request := run.request
  operation := run.operation
  params := run.parameters.toJsValue
  precondition := run.precondition
  postcondition := postcondition

/-! ## Turns -/

/-- Where the synchronous part of a request leaves it. -/
inductive RequestProgress where
  | responded (outcome : Except RequestError Unit)
  | calling (progress : CallProgress)

/-- What the synchronous part of a request did: the registry and the run it leaves,
    and the capability it minted, if any. -/
structure Turn where
  registry : CapabilityRegistry
  run : RunRecord
  minted : Option Capability := none
  progress : RequestProgress

namespace Turn

/-- The request dies; what it did so far stays done. -/
def throw (registry : CapabilityRegistry) (run : RunRecord) (error : RequestError) : Turn where
  registry := registry
  run := run
  progress := .responded (.error error)

/-- The request is answered with the run. -/
def finish (registry : CapabilityRegistry) (run : RunRecord) : Turn where
  registry := registry
  run := run
  progress := .responded (.ok ())

end Turn

section
variable [Host]

/-- Append an event to the run's ledger and go on. -/
def withEvent (registry : CapabilityRegistry) (run : RunRecord) (input : AuditEventInput)
    (stamp : Stamp) (next : RunRecord → Turn) : Turn :=
  match run.ledger.append input stamp with
  | .error error => .throw registry run (.internal error.message)
  | .ok (ledger, _) => next { run with ledger := ledger }

omit [Host] in
/-- `run.state = mustTransition(run.state, trigger)`, and go on. -/
def withTransition (registry : CapabilityRegistry) (run : RunRecord) (trigger : RunStateTrigger)
    (next : RunRecord → Turn) : Turn :=
  match mustTransition run.state trigger with
  | .error error => .throw registry run error
  | .ok state => next { run with state := state }

/-! ## Executing -/

/-- The ids and clock readings minting and starting a call draw. -/
structure AuthorizeDraw where
  mint : MintDraw
  /-- the `CAPABILITY_MINTED` row -/
  stamp : Stamp
  reads : CallReads
  /-- `nowIso` when nothing was minted -/
  lastActionAt : Instant

omit [Host] in
/-- `adapter.execute` counts the call it is handed. -/
def RunRecord.invokeAdapter (run : RunRecord) : CallProgress → RunRecord
  | .waiting (.executing _) => { run with adapter := run.adapter.count }
  | _ => run

/-- `executeForRun` up to its `await`: the first execution, a replay and a
    reconciliation all make this call. -/
def executeForRun (registry : CapabilityRegistry) (run : RunRecord) (capability : Capability)
    (reads : CallReads) : Turn :=
  match run.postcondition with
  | none =>
    .throw registry run (.internal (js "orchestrator: no execution path wired for actionType \"" ++
      run.actionType.toJs ++
      js "\" (only the 5 demo scenarios' action types are supported)"))
  | some postcondition =>
    let (shared, progress) := executeAction ⟨registry, run.operationStore, run.ledger⟩
      (run.callInput capability postcondition) reads
    { registry := shared.registry
      run := { run with
        operationStore := shared.operationStore
        ledger := shared.ledger }.invokeAdapter progress
      progress := .calling progress }

/-- `authorizeAndExecute`: the one way a run comes by a capability. -/
def authorizeAndExecute (registry : CapabilityRegistry) (run : RunRecord)
    (evidence : AuthorizationEvidence) (draw : AuthorizeDraw) : Turn :=
  match mintCapability evidence run.request draw.mint 60000 with
  | .error reasonCode =>
    .finish registry { run with
      execution := some { ok := false, reasonCode := some reasonCode.toJs, replay := false }
      lastActionAt := Host.toISOString draw.lastActionAt }
  | .ok capability =>
    let turn := withEvent registry run
      { type := .capabilityMinted
        actor := ⟨.server, js "capability-minter-v1"⟩
        subject := ⟨.capability, capability.id⟩
        payload := [(js "actionType", .string capability.actionType.toJs),
          (js "resourceId", .string capability.resourceId),
          (js "expiresAt", .string capability.expiresAt)]
        operationId := some run.operationId } draw.stamp fun run =>
        executeForRun (registry.record capability) { run with capability := some capability }
          capability draw.reads
    { turn with minted := some capability }

/-- `applyExecutionResult`: the state the stage of a result leads to. -/
def applyExecutionResult (state : RunState) : ExecuteActionResult → Except RequestError RunState
  | .ok _ _ _ reasonCode _ =>
    if reasonCode = some .reconciledSuccess then mustTransition state .lookupConfirmsSuccess
    else if state = .authorized then do
      mustTransition (← mustTransition state .freshPreconditions) .postconditionPass
    else .ok state
  | .precondition _ _ => mustTransition state .planOrResourceChanged
  | .unknownOutcome _ _ => do
    mustTransition (← mustTransition state .freshPreconditions) .timeoutTransportAmbiguity
  | .reconciliationRequired _ _ => mustTransition state .lookupInconclusive
  | .postcondition _ => do
    mustTransition (← mustTransition state .freshPreconditions) .deterministicToolFailure
  | .capability _ _ | .idempotency _ | .adapter _ _ => .ok state

/-- `summarizeResult` -/
def summarizeResult : ExecuteActionResult → RunExecutionSummary
  | .ok receipt replay _ reasonCode _ =>
    { ok := true, replay := replay, reasonCode := reasonCode.map (·.toJs), receipt := some receipt }
  | .capability reasonCode _ =>
    { ok := false, stage := some (js "capability"), replay := false,
      reasonCode := some reasonCode.toJs }
  | .idempotency _ =>
    { ok := false, stage := some (js "idempotency"), replay := false,
      reasonCode := some (js "IDEMPOTENCY_KEY_PAYLOAD_MISMATCH") }
  | .postcondition _ =>
    { ok := false, stage := some (js "postcondition"), replay := false,
      reasonCode := some VerificationReasonCode.postconditionUnverified.toJs }
  | .unknownOutcome _ _ =>
    { ok := false, stage := some (js "unknown_outcome"), replay := false,
      reasonCode := some VerificationReasonCode.unknownOutcome.toJs }
  | .reconciliationRequired _ _ =>
    { ok := false, stage := some (js "reconciliation_required"), replay := false,
      reasonCode := some VerificationReasonCode.unknownOutcome.toJs }
  | .precondition reasonCodes _ =>
    { ok := false, stage := some (js "precondition"), replay := false,
      reasonCodes := some (reasonCodes.map (·.toJs)) }
  | .adapter errorMessage _ =>
    { ok := false, stage := some (js "adapter"), replay := false,
      errorMessage := some errorMessage }

/-- The rest of `executeForRun`, once `executeAction` has settled. -/
def finishExecution (run : RunRecord) (settled : Settled) (now : Instant) :
    RunRecord × Except RequestError Unit :=
  match settled with
  | .threw error => (run, .error (.call error))
  | .returned result =>
    match applyExecutionResult run.state result with
    | .error error => (run, .error error)
    | .ok state =>
      ({ run with
          state := state
          execution := some (summarizeResult result)
          lastActionAt := Host.toISOString now }, .ok ())

/-! ## Requests -/

/-- `SCHEMA_VERSION` -/
def schemaVersion : JsString := js "w3-proposal-1"

/-- The ids and clock readings of `createRun`. -/
structure CreateDraw where
  runId : JsString
  resourceId : JsString
  operationId : JsString
  idempotencyKey : JsString
  /-- the `MODEL_PROPOSAL_RECORDED` row -/
  proposalStamp : Stamp
  policyNow : Instant
  /-- the `POLICY_DECISION` row -/
  policyStamp : Stamp
  createdAt : Instant
  lastActionAt : Instant
  authorize : AuthorizeDraw

/-- The ids and clock readings of `approveRun`. -/
structure ApproveDraw where
  approvalId : JsString
  expiryNow : Instant
  approvedAt : Instant
  consumedAt : Instant
  /-- the `APPROVAL_CONSUMED` row -/
  stamp : Stamp
  lastActionAt : Instant
  authorize : AuthorizeDraw

/-- Append to a ledger that no run has yet. -/
def appendNew (ledger : AuditLedger) (input : AuditEventInput) (stamp : Stamp) :
    Except RequestError AuditLedger :=
  match ledger.append input stamp with
  | .error error => .error (.internal error.message)
  | .ok (ledger, _) => .ok ledger

/-- What `createRun` does once the run is registered: the policy outcome decides. -/
def followVerdict (registry : CapabilityRegistry) (run : RunRecord) (draw : AuthorizeDraw) : Turn :=
  match run.policyVerdict.outcome with
  | .deny => withTransition registry run .policyDeny (.finish registry)
  | .requireApproval => withTransition registry run .highRisk (.finish registry)
  | .allow =>
    withTransition registry run .lowRiskPolicyAllow fun run =>
      authorizeAndExecute registry run (.policyAllow run.policyVerdict) draw

/-- `createRun` up to the registration of the run: an error here leaves nothing behind. -/
def proposeRun (model : ModelAdapter) (scenarioId : JsString) (draw : CreateDraw) :
    Except RequestError RunRecord := do
  match findScenario scenarioId with
  | none =>
    .error (.orchestrator .unknownScenario
      (js "unknown scenario \"" ++ scenarioId ++ js "\""))
  | some scenario =>
    let principal : Principal := ⟨js "principal-1", scenario.role, js "t1"⟩
    let raw := model ⟨scenario.goal, draw.resourceId⟩
    let ledger ← appendNew {}
      { type := .modelProposalRecorded
        actor := ⟨.model, js "fake-model-adapter-v1"⟩
        subject := ⟨.action, draw.runId⟩
        payload := [(js "goal", .string scenario.goal), (js "raw", .string raw)]
        operationId := some draw.operationId } draw.proposalStamp
    match parseModelProposal raw with
    | none | some [] =>
      .error (.internal (js "orchestrator: scenario \"" ++ scenarioId ++
        js "\" produced an unparseable model proposal — this is a scenarios.ts bug, not a user error"))
    -- further actions of the model are not looked at
    | some (action :: _) =>
      match computeProposalHash
        { schemaVersion := schemaVersion
          actionType := action.actionType.toJs
          resourceId := action.resourceId
          parameters := action.parameters.toJsValue
          evidenceRefs := action.evidenceRefs } with
      | .error error => .error (.internal error.message)
      | .ok proposalHash =>
        let policyVerdict := evaluatePolicy
          { principal := some principal
            actionType := action.actionType.toJs
            resource := ⟨draw.resourceId, principal.id, principal.tenantId, js "active"⟩
            evidenceRefs := action.evidenceRefs
            environment := { now := draw.policyNow, knownEvidenceIds := [] } }
        let ledger ← appendNew ledger
          { type := .policyDecision
            actor := ⟨.server, js "policy-engine-v1"⟩
            subject := ⟨.action, draw.runId⟩
            payload := [(js "outcome", .string policyVerdict.outcome.toJs),
              (js "reasonCodes",
                .array (policyVerdict.reasonCodes.map fun code => .string code.toJs))]
            policyVersion := some policyVerdict.policyVersion
            operationId := some draw.operationId } draw.policyStamp
        let state ← mustTransition .proposed .schemaPass
        .ok
          { runId := draw.runId
            scenario := scenario.id
            createdAt := Host.toISOString draw.createdAt
            principal := principal
            resourceType := scenario.resourceType
            resourceOwnerId := principal.id
            tenantId := principal.tenantId
            resourceId := action.resourceId
            parameters := action.parameters
            evidenceRefs := action.evidenceRefs
            modelProposalRaw := raw
            proposalHash := proposalHash
            policyVerdict := policyVerdict
            operationId := draw.operationId
            idempotencyKey := draw.idempotencyKey
            ledger := ledger
            state := state
            resourceVersionAtProposal := 1
            resourceVersionNow := 1
            lastActionAt := Host.toISOString draw.lastActionAt }

/-- `createRun` -/
def createRun (model : ModelAdapter) (registry : CapabilityRegistry) (scenarioId : JsString)
    (draw : CreateDraw) : Except RequestError Turn := do
  let run ← proposeRun model scenarioId draw
  .ok (followVerdict registry run draw.authorize)

omit [Host] in
/-- The refusal of a request in a state it is not meant for. -/
def invalidState (run : RunRecord) (before after : String) : RequestError :=
  .orchestrator .invalidState (js before ++ run.runId ++ js after ++ run.state.toJs ++ js ")")

/-- The approval `approveRun` builds: fresh, and scoped to the run's own plan. -/
def RunRecord.newApproval (run : RunRecord) (draw : ApproveDraw) : Approval where
  id := draw.approvalId
  proposalHash := run.proposalHash
  approverId := js "human-approver-1"
  scope := ⟨run.actionType, run.resourceId⟩
  policyVersion := run.policyVerdict.policyVersion
  expiresAt := Host.toISOString (draw.expiryNow + 10 * 60000)
  approvedAt := Host.toISOString draw.approvedAt
  status := .active

omit [Host] in
/-- The `APPROVAL_CONSUMED` event. -/
def Approval.consumedEvent (approval : Approval) (operationId : JsString) : AuditEventInput where
  type := .approvalConsumed
  actor := ⟨.human, approval.approverId⟩
  subject := ⟨.approval, approval.id⟩
  payload := [(js "proposalHash", .string approval.proposalHash),
    (js "scope", .object [(js "actionType", .string approval.scope.actionType.toJs),
      (js "resourceId", .string approval.scope.resourceId)])]
  operationId := some operationId

/-- `approveRun` on a run that exists. -/
def approveRun (registry : CapabilityRegistry) (run : RunRecord) (draw : ApproveDraw) :
    Except RequestError Turn :=
  if run.state ≠ .approvalRequired then
    .error (invalidState run "run \"" "\" is not awaiting approval (current state: ")
  else
    let approval := run.newApproval draw
    match consumeApproval approval ⟨run.proposalHash, run.actionType, run.resourceId⟩
      draw.consumedAt with
    | .error reasonCode =>
      .error (.orchestrator .invalidState
        (js "approval could not be consumed: " ++ reasonCode.toJs))
    | .ok consumed =>
      .ok (withEvent registry run (approval.consumedEvent run.operationId) draw.stamp fun run =>
        withTransition registry { run with approval := some consumed } .matchingApproval fun run =>
          authorizeAndExecute registry
            { run with lastActionAt := Host.toISOString draw.lastActionAt } (.approved consumed)
            draw.authorize)

/-- `simulateDrift` on a run that exists. -/
def simulateDrift (run : RunRecord) (now : Instant) : Except RequestError RunRecord :=
  if run.state ≠ .approvalRequired then
    .error (.orchestrator .invalidState
      (js "drift can only be simulated while a run awaits approval (current state: " ++
        run.state.toJs ++ js ")"))
  else
    .ok { run with
      resourceVersionNow := run.resourceVersionNow + 1
      drifted := true
      lastActionAt := Host.toISOString now }

/-- `replayRun` on a run that exists. -/
def replayRun (registry : CapabilityRegistry) (run : RunRecord) (reads : CallReads) :
    Except RequestError Turn :=
  match run.state, run.capability with
  | .verified, some capability => .ok (executeForRun registry run capability reads)
  | _, _ => .error (invalidState run "run \"" "\" has nothing to replay yet (current state: ")

/-- `reconcileRun` on a run that exists. -/
def reconcileRun (registry : CapabilityRegistry) (run : RunRecord) (reads : CallReads) :
    Except RequestError Turn :=
  if run.state ≠ .unknownOutcome ∧ run.state ≠ .reconciliationRequired then
    .error (invalidState run "run \"" "\" is not awaiting reconciliation (current state: ")
  else
    match run.capability with
    | none =>
      .error (.internal (js
        "orchestrator: unreachable — a run past AUTHORIZED always has a capability on record"))
    | some capability => .ok (executeForRun registry run capability reads)

omit [Host] in
/-- The payload of an `AUDIT_INTEGRITY_CHECKED` event. -/
def LedgerIntegrityResult.toPayload : LedgerIntegrityResult → List (JsString × JsValue)
  | .ok checkedEntries =>
    [(js "ok", .bool true), (js "checkedEntries", .number (.ofNat checkedEntries))]
  | .broken reasonCode brokenAtSequence =>
    [(js "ok", .bool false), (js "reasonCode", .string reasonCode.toJs),
      (js "brokenAtSequence", .number (.ofNat brokenAtSequence))]

/-- `verifyRunLedger` on a run that exists. -/
def verifyRunLedger (run : RunRecord) (stamp : Stamp) :
    Except RequestError (RunRecord × LedgerIntegrityResult) :=
  match verifyLedgerIntegrity run.ledger.entries with
  | .error error => .error (.internal error.message)
  | .ok result =>
    match run.ledger.append
      { type := .auditIntegrityChecked
        actor := ⟨.server, js "audit-verifier-v1"⟩
        subject := ⟨.operation, run.operationId⟩
        payload := result.toPayload
        operationId := some run.operationId } stamp with
    | .error error => .error (.internal error.message)
    | .ok (ledger, _) => .ok ({ run with ledger := ledger }, result)

end

/-! ## Views -/

/-- `availableActions`: what the page offers next. -/
def availableActions (run : RunRecord) : List JsString :=
  (if run.state = .approvalRequired then
    (if run.scenario = .stale ∧ !run.drifted then [js "simulate_drift"] else []) ++ [js "approve"]
    else []) ++
  (if run.state = .verified then [js "replay"] else []) ++
  (if run.state = .unknownOutcome ∨ run.state = .reconciliationRequired then [js "reconcile"]
    else []) ++
  [js "verify_ledger"]

end ActionHarbor
