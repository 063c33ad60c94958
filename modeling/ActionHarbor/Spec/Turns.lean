import ActionHarbor.Model.Server
import ActionHarbor.Spec.ExecutionSteps
import ActionHarbor.Spec.FakeAdapters

/-!
# What a turn of a request can do

Inversion lemmas for the synchronous part of each request: what it leaves of the
run, what it observes, and where the request then stands. The rows a turn appends
always hash and the transitions it is certain of are edges of the table, so of the
throwing branches only the missing execution path remains.

## Key results

- `executeForRun_facts`: the call every execution, replay and reconciliation makes
- `authorizeAndExecute_cases`, `approveRun_cases`, `proposeRun_eq_ok`: how a run
  comes by its first call
-/

namespace ActionHarbor

/-! ## Observations -/

/-- The capability an observation is the minting of. -/
@[simp] def RunObservation.mintedCapability : RunObservation → Option Capability
  | .minted capability => some capability
  | _ => none

/-- The invocation of `adapter.execute` an observation is. -/
@[simp] def RunObservation.execution :
    RunObservation → Option (AdapterOperation × Capability × JsValue)
  | .executeInvoked operation capability params => some (operation, capability, params)
  | _ => none

/-- The capabilities minted, oldest first. -/
def mintedCapabilities (history : List RunObservation) : List Capability :=
  history.filterMap RunObservation.mintedCapability

/-- The invocations of `adapter.execute`, oldest first. -/
def executions (history : List RunObservation) :
    List (AdapterOperation × Capability × JsValue) :=
  history.filterMap RunObservation.execution

@[simp] theorem mintedCapabilities_nil : mintedCapabilities [] = [] := rfl

@[simp] theorem mintedCapabilities_cons (observation : RunObservation)
    (rest : List RunObservation) :
    mintedCapabilities (observation :: rest) =
      observation.mintedCapability.toList ++ mintedCapabilities rest := by
  cases observation <;> rfl

/-- What a longer history minted is what the history minted and then what came later. -/
@[simp] theorem mintedCapabilities_append (history later : List RunObservation) :
    mintedCapabilities (history ++ later) =
      mintedCapabilities history ++ mintedCapabilities later := List.filterMap_append

@[simp] theorem executions_nil : executions [] = [] := rfl

@[simp] theorem executions_cons (observation : RunObservation) (rest : List RunObservation) :
    executions (observation :: rest) = observation.execution.toList ++ executions rest := by
  cases observation <;> rfl

/-- The executions of a longer history are those of the history and then the later ones. -/
@[simp] theorem executions_append (history later : List RunObservation) :
    executions (history ++ later) = executions history ++ executions later :=
  List.filterMap_append

/-! ## Errors -/

/-- The error of `mustTransition`. -/
def RequestError.isIllegalTransition : RequestError → Bool
  | .illegalTransition _ _ => true
  | _ => false

/-- A request died with it. -/
def RunObservation.isIllegalTransition : RunObservation → Bool
  | .responded (.error error) => error.isIllegalTransition
  | _ => false

/-! ## Runs -/

/-- The run with more rows in its ledger. -/
def RunRecord.appendRows (run : RunRecord) (rows : List AuditLedgerEntry) : RunRecord :=
  { run with ledger := ⟨run.ledger.entries ++ rows⟩ }

/-- An operation is recorded under the key of the run. -/
def RunRecord.Recorded (run : RunRecord) (operation : OperationRecord) : Prop :=
  run.operationStore.byIdempotencyKey run.idempotencyKey = some operation

/-- Two runs that differ in their ledger, adapter and store at most. -/
structure SameStatus (run run' : RunRecord) : Prop where
  plan : run'.toRunPlan = run.toRunPlan
  state : run'.state = run.state
  resourceVersionAtProposal : run'.resourceVersionAtProposal = run.resourceVersionAtProposal
  resourceVersionNow : run'.resourceVersionNow = run.resourceVersionNow
  drifted : run'.drifted = run.drifted
  approval : run'.approval = run.approval

section
variable [Host]

/-- A payload of plain data is always appended. -/
theorem withEvent_eq (registry : CapabilityRegistry) (run : RunRecord) (input : AuditEventInput)
    (stamp : Stamp) (next : RunRecord → Turn) (h : HashableProps input.payload) :
    ∃ entry, withEvent registry run input stamp next = next (run.appendRows [entry]) ∧
      entry.type = input.type ∧ entry.payload = redactPayload input.payload := by
  obtain ⟨entry, hentry, htype, -, hpayload⟩ := run.ledger.append_hashable input stamp h
  exact ⟨entry, by rw [withEvent, hentry]; rfl, htype, hpayload⟩

omit [Host] in
/-- A legal transition does not throw. -/
theorem withTransition_eq (registry : CapabilityRegistry) (run : RunRecord)
    {trigger : RunStateTrigger} {state : RunState} (next : RunRecord → Turn)
    (h : transition run.state trigger = some state) :
    withTransition registry run trigger next = next { run with state := state } := by
  rw [withTransition, mustTransition, h]

/-! ## The call -/

/-- `executeForRun` throws, or makes its call. -/
inductive CallTurn (registry : CapabilityRegistry) (run : RunRecord) (capability : Capability)
    (reads : CallReads) : Turn → Prop
  | unwired (message : JsString) (hpost : run.postcondition = none) :
      CallTurn registry run capability reads (.throw registry run (.internal message))
  | called (postcondition : PostconditionExpectation) (shared : Shared) (progress : CallProgress)
      (hpost : run.postcondition = some postcondition)
      (houtcome : StartOutcome ⟨registry, run.operationStore, run.ledger⟩
        (run.callInput capability postcondition) reads shared progress) :
      CallTurn registry run capability reads
        { registry := shared.registry
          run := { run with
            operationStore := shared.operationStore
            ledger := shared.ledger }.invokeAdapter progress
          progress := .calling progress }

/-- A call made for a run is refused in the gateway, settles at once, or waits for its adapter. -/
theorem executeForRun_cases (registry : CapabilityRegistry) (run : RunRecord)
    (capability : Capability) (reads : CallReads) :
    CallTurn registry run capability reads (executeForRun registry run capability reads) := by
  rw [executeForRun]
  cases hpost : run.postcondition with
  | none => exact .unwired _ hpost
  | some postcondition => exact .called postcondition _ _ hpost (executeAction_cases _ _ _)

/-- A settled call that moves its run on towards a verified or an unknown outcome. -/
def Settled.Concludes : Settled → Prop
  | .returned (.ok _ _ _ _ _) | .returned (.unknownOutcome _ _)
  | .returned (.reconciliationRequired _ _) => True
  | _ => False

/-- The three kinds of start: answered from what is on record or not at all, looking
    up a recorded operation, or at the adapter with a new key. -/
inductive StartEffect (shared : Shared) (input : ExecuteActionInput) (reads : CallReads) :
    Shared → CallProgress → Prop
  | answered (shared' : Shared) (rows : List AuditLedgerEntry) (settled : Settled)
      (hshared : shared' = { shared with ledger := ⟨shared.ledger.entries ++ rows⟩ })
      (hconcludes : settled.Concludes → ∃ prior,
        shared.operationStore.byIdempotencyKey input.operation.idempotencyKey = some prior) :
      StartEffect shared input reads shared' (.done settled)
  | lookingUp (prior : OperationRecord)
      (hrecord : shared.operationStore.byIdempotencyKey input.operation.idempotencyKey =
        some prior) :
      StartEffect shared input reads shared (.waiting (.lookingUp ⟨input, prior⟩))
  | entered (capability : Capability) (payloadHash : JsString) (registry : CapabilityRegistry)
      (entry : AuditLedgerEntry)
      (hguards : PassesGuards input reads.now capability)
      (hnew : shared.operationStore.byIdempotencyKey input.operation.idempotencyKey = none)
      (hstarted : entry.type = .executionStarted) :
      StartEffect shared input reads ({ shared with registry := registry }.appendRow entry)
        (.waiting (invokeAdapter ⟨input, capability, payloadHash, [entry]⟩ reads.gatewayNow))

/-- What a started call did to the state it shares, whichever way it went. -/
theorem StartOutcome.effect {shared shared' : Shared} {input : ExecuteActionInput}
    {reads : CallReads} {progress : CallProgress}
    (h : StartOutcome shared input reads shared' progress) :
    StartEffect shared input reads shared' progress := by
  -- a call that ends at once appends at most one row
  cases h with
  | capabilityRefused reasonCode | unhashableParams _ error | registryRefused _ _ reasonCode
  | replayedFailure => exact .answered _ [] _ (by simp) False.elim
  | preconditionFailed _ _ entry | conflict _ _ _ entry =>
    exact .answered _ [entry] _ rfl False.elim
  | replayed _ prior entry _ _ hrecord =>
    exact .answered _ [entry] _ rfl fun _ => ⟨prior, hrecord⟩
  | lookingUp _ prior _ _ hrecord => exact .lookingUp prior hrecord
  | entered capability payloadHash registry entry hguards _ hnew _ hstarted =>
    exact .entered capability payloadHash registry entry hguards hnew hstarted.1

/-- What holds of a request on a run, whatever the run's state: its call is the run's
    own, and it only reconciles or concludes with an operation on record. -/
def RequestStage.Sound (run : RunRecord) : RequestStage → Prop
  | .waiting call =>
    call.input.operation = run.operation ∧
      (call.reconciles = true → ∃ operation, run.Recorded operation)
  | .settled outcome => outcome.Concludes → ∃ operation, run.Recorded operation

/-- A capability with exactly the scope of a plan. -/
structure Capability.Covers (capability : Capability) (plan : RunPlan) : Prop where
  actionType : capability.actionType = plan.actionType
  resourceId : capability.resourceId = plan.resourceId
  proposalHash : capability.proposalHash = plan.proposalHash

/-- A turn that invokes `adapter.execute`: once, with the run's own plan, at the version
    of the proposal and for a new key. -/
structure Executes (run : RunRecord) (turn : Turn) (capability : Capability) : Prop where
  executions : executions turn.observations =
    [(run.operation, capability, run.parameters.toJsValue)]
  callCount : turn.run.adapter.callCount = run.adapter.callCount + 1
  covers : capability.Covers run.toRunPlan
  versions : run.resourceVersionNow = run.resourceVersionAtProposal
  new : ∀ operation, ¬ run.Recorded operation

/-- What a turn that calls the gateway on a run, or might, leaves behind. -/
structure TurnFacts (run : RunRecord) (turn : Turn) : Prop where
  same : SameStatus run turn.run
  minted_once : (mintedCapabilities turn.observations).length ≤ 1
  undrifted : .driftSimulated ∉ turn.observations
  legal : ∀ observation ∈ turn.observations, observation.isIllegalTransition = false
  /-- the synchronous part never writes the store, or the tables of the adapter -/
  store : turn.run.operationStore = run.operationStore
  inner : turn.run.adapter.inner = run.adapter.inner
  /-- an invocation of the adapter has its row -/
  ledger : ∃ rows, turn.run.ledger.entries = run.ledger.entries ++ rows ∧
    (executions turn.observations ≠ [] → ∃ row ∈ rows, row.type = .executionStarted)
  executed : (executions turn.observations = [] ∧
      turn.run.adapter.callCount = run.adapter.callCount) ∨
    ∃ capability, Executes run turn capability
  stage : ∀ stage, turn.stage = some stage → stage.Sound turn.run

omit [Host] in
/-- A call whose preconditions pass has the version of its proposal. -/
theorem versions_of_checkPreconditions {run : RunRecord} {capability parsed : Capability}
    {postcondition : PostconditionExpectation}
    (h : checkPreconditions parsed (run.callInput capability postcondition).precondition = .ok ()) :
    run.resourceVersionNow = run.resourceVersionAtProposal := by
  rw [checkPreconditions] at h
  split at h
  · cases h
  · split at h
    · rename_i hversion
      simpa [RunRecord.callInput, RunRecord.precondition] using hversion
    · cases h

/-- The call itself mints nothing. -/
theorem executeForRun_minted (registry : CapabilityRegistry) (run : RunRecord)
    (capability : Capability) (reads : CallReads) :
    (executeForRun registry run capability reads).minted = none := by
  unfold executeForRun
  split <;> rfl

omit [Host] in
/-- A turn that mints nothing observes no minted capability. -/
theorem mintedCapabilities_of_minted_eq_none {turn : Turn} (h : turn.minted = none) :
    mintedCapabilities turn.observations = [] := by
  rw [Turn.observations, h]
  unfold Turn.RequestProgress.observations
  split <;> rfl

/-- The call of a run keeps its plan, its state and its store, only appends to its ledger, and
    invokes the adapter at most once. -/
theorem executeForRun_facts (registry : CapabilityRegistry) (run : RunRecord)
    (capability : Capability) (reads : CallReads) :
    TurnFacts run (executeForRun registry run capability reads) := by
  have hcase := executeForRun_cases registry run capability reads
  generalize executeForRun registry run capability reads = turn at hcase
  cases hcase with
  | unwired message hpost =>
    exact {
      same := ⟨rfl, rfl, rfl, rfl, rfl, rfl⟩
      minted_once := Nat.zero_le 1
      undrifted := by simp [Turn.throw, Turn.observations, Turn.RequestProgress.observations]
      legal := by simp [Turn.throw, Turn.observations, Turn.RequestProgress.observations,
        RunObservation.isIllegalTransition, RequestError.isIllegalTransition]
      store := rfl
      inner := rfl
      ledger := ⟨[], by simp [Turn.throw], fun h => absurd rfl h⟩
      executed := .inl ⟨rfl, rfl⟩
      stage := fun _ h => by cases h }
  | called postcondition shared progress hpost houtcome =>
    cases houtcome.effect with
    | answered _ rows settled hshared hconcludes =>
      -- the store and the registry stay, and at most a row is appended
      subst hshared
      exact {
        same := ⟨rfl, rfl, rfl, rfl, rfl, rfl⟩
        minted_once := Nat.zero_le 1
        undrifted := by simp [Turn.observations, Turn.RequestProgress.observations]
        legal := by simp [Turn.observations, Turn.RequestProgress.observations,
          RunObservation.isIllegalTransition]
        store := rfl
        inner := rfl
        ledger := ⟨rows, rfl, fun h => absurd rfl h⟩
        executed := .inl ⟨rfl, rfl⟩
        stage := by
          intro stage hstage
          obtain rfl := Option.some.inj hstage
          exact hconcludes }
    | lookingUp prior hrecord =>
      -- a lookup is no execution, and nothing is written before it is answered
      exact {
        same := ⟨rfl, rfl, rfl, rfl, rfl, rfl⟩
        minted_once := Nat.zero_le 1
        undrifted := by simp [Turn.observations, Turn.RequestProgress.observations]
        legal := by simp [Turn.observations, Turn.RequestProgress.observations,
          RunObservation.isIllegalTransition]
        store := rfl
        inner := rfl
        ledger := ⟨[], by simp [RunRecord.invokeAdapter], fun h => absurd rfl h⟩
        executed := .inl ⟨rfl, rfl⟩
        stage := by
          intro stage hstage
          obtain rfl := Option.some.inj hstage
          exact ⟨rfl, fun _ => ⟨prior, hrecord⟩⟩ }
    | entered parsed payloadHash registry' entry hguards hnew hstarted =>
      -- the one case that may invoke `execute`; what the guards have checked is its scope
      obtain ⟨-, haction, hresource, hhash⟩ := hguards.scope
      rw [invokeAdapter]
      split
      · -- the gateway's own check refuses: the adapter is not invoked
        exact {
          same := ⟨rfl, rfl, rfl, rfl, rfl, rfl⟩
          minted_once := Nat.zero_le 1
          undrifted := by simp [Turn.observations, Turn.RequestProgress.observations]
          legal := by simp [Turn.observations, Turn.RequestProgress.observations,
            RunObservation.isIllegalTransition]
          store := rfl
          inner := rfl
          ledger := ⟨[entry], rfl, fun h => absurd rfl h⟩
          executed := .inl ⟨rfl, rfl⟩
          stage := by
            intro stage hstage
            obtain rfl := Option.some.inj hstage
            exact ⟨rfl, fun h => by cases h⟩ }
      · have hexecutes : Executes run
            { registry := registry'
              run := { run with
                operationStore := run.operationStore
                ledger := ⟨run.ledger.entries ++ [entry]⟩
                adapter := run.adapter.count }
              progress := .calling (.waiting (.executing
                ⟨run.callInput capability postcondition, parsed, payloadHash, [entry]⟩)) }
            parsed :=
          { executions := rfl
            callCount := rfl
            covers := ⟨haction, hresource, hhash⟩
            versions := versions_of_checkPreconditions hguards.2
            new := fun operation hrecord => by cases hnew.symm.trans hrecord }
        exact {
          same := ⟨rfl, rfl, rfl, rfl, rfl, rfl⟩
          minted_once := Nat.zero_le 1
          undrifted := by simp [Turn.observations, Turn.RequestProgress.observations]
          legal := by simp [Turn.observations, Turn.RequestProgress.observations,
            RunObservation.isIllegalTransition]
          store := rfl
          inner := rfl
          ledger := ⟨[entry], rfl, fun _ => ⟨entry, List.mem_singleton_self entry, hstarted⟩⟩
          executed := .inr ⟨parsed, hexecutes⟩
          stage := by
            intro stage hstage
            obtain rfl := Option.some.inj hstage
            exact ⟨rfl, fun h => by cases h⟩ }

/-! ## Authority -/

/-- How a run comes by a capability, or does not. -/
inductive AuthorizeTurn (registry : CapabilityRegistry) (run : RunRecord)
    (evidence : AuthorizationEvidence) (draw : AuthorizeDraw) : Turn → Prop
  | unminted (execution : Option RunExecutionSummary) (lastActionAt : JsString) :
      AuthorizeTurn registry run evidence draw
        (.finish registry { run with execution := execution, lastActionAt := lastActionAt })
  | minted (capability : Capability) (entry : AuditLedgerEntry)
      (hmint : mintCapability evidence run.request draw.mint 60000 = .ok capability)
      (hminted : entry.type = .capabilityMinted) :
      AuthorizeTurn registry run evidence draw
        { executeForRun (registry.record capability)
            { run.appendRows [entry] with capability := some capability } capability draw.reads with
          minted := some capability }

/-- Evidence that does not authorize the run ends the turn; otherwise a capability is minted, its
    row is appended and the call is made under it. -/
theorem authorizeAndExecute_cases (registry : CapabilityRegistry) (run : RunRecord)
    (evidence : AuthorizationEvidence) (draw : AuthorizeDraw) :
    AuthorizeTurn registry run evidence draw (authorizeAndExecute registry run evidence draw) := by
  rw [authorizeAndExecute]
  cases hmint : mintCapability evidence run.request draw.mint 60000 with
  | error reasonCode => exact .unminted _ _
  | ok capability =>
    -- the mint's row is always appended: its payload is hashable
    obtain ⟨entry, hentry, htype, -⟩ := withEvent_eq registry run
      { type := .capabilityMinted
        actor := ⟨.server, js "capability-minter-v1"⟩
        subject := ⟨.capability, capability.id⟩
        payload := [(js "actionType", .string capability.actionType.toJs),
          (js "resourceId", .string capability.resourceId),
          (js "expiresAt", .string capability.expiresAt)]
        operationId := some run.operationId } draw.stamp
      (fun run => executeForRun (registry.record capability)
        { run with capability := some capability } capability draw.reads) (by simp)
    dsimp only
    rw [hentry]
    exact .minted capability entry hmint htype

omit [Host] in
/-- The same facts hold of a turn that mints first. -/
private theorem TurnFacts.mint {run : RunRecord} {capability : Capability}
    {entry : AuditLedgerEntry} {turn : Turn}
    (h : TurnFacts { run.appendRows [entry] with capability := some capability } turn)
    (hminted : turn.minted = none) :
    TurnFacts run { turn with minted := some capability } := by
  have hobservations : Turn.observations { turn with minted := some capability } =
      .minted capability :: turn.observations := by
    simp [Turn.observations, hminted]
  have hexecutions : executions (Turn.observations { turn with minted := some capability }) =
      executions turn.observations := by simp [hobservations]
  obtain ⟨rows, hrows, hstarted⟩ := h.ledger
  -- the mint stands before the turn's other observations, and its row before their rows
  exact {
    same := ⟨h.same.plan, h.same.state, h.same.resourceVersionAtProposal,
      h.same.resourceVersionNow, h.same.drifted, h.same.approval⟩
    minted_once := by
      rw [hobservations]
      simp [mintedCapabilities_of_minted_eq_none hminted]
    undrifted := by
      rw [hobservations]
      simp [h.undrifted]
    legal := by
      rw [hobservations]
      simp only [List.mem_cons, forall_eq_or_imp]
      exact ⟨rfl, h.legal⟩
    store := h.store
    inner := h.inner
    ledger := by
      refine ⟨entry :: rows, by simpa [RunRecord.appendRows] using hrows, fun hne => ?_⟩
      rw [hexecutions] at hne
      obtain ⟨row, hrow, htype⟩ := hstarted hne
      exact ⟨row, List.mem_cons_of_mem entry hrow, htype⟩
    executed := by
      rw [hexecutions]
      rcases h.executed with hnone | ⟨parsed, hexecutes⟩
      · exact .inl hnone
      · exact .inr ⟨parsed, hexecutions ▸ hexecutes.executions, hexecutes.callCount,
          hexecutes.covers, hexecutes.versions, hexecutes.new⟩
    stage := h.stage }

/-- So does authorizing a run and executing it, and at most one capability is minted on the way. -/
theorem authorizeAndExecute_facts (registry : CapabilityRegistry) (run : RunRecord)
    (evidence : AuthorizationEvidence) (draw : AuthorizeDraw) :
    TurnFacts run (authorizeAndExecute registry run evidence draw) := by
  have hcase := authorizeAndExecute_cases registry run evidence draw
  generalize authorizeAndExecute registry run evidence draw = turn at hcase
  cases hcase with
  | unminted execution lastActionAt =>
    -- a turn that does not mint changes the summary alone
    exact {
      same := ⟨rfl, rfl, rfl, rfl, rfl, rfl⟩
      minted_once := Nat.zero_le 1
      undrifted := by simp [Turn.finish, Turn.observations, Turn.RequestProgress.observations]
      legal := by simp [Turn.finish, Turn.observations, Turn.RequestProgress.observations,
        RunObservation.isIllegalTransition]
      store := rfl
      inner := rfl
      ledger := ⟨[], by simp [Turn.finish], fun h => absurd rfl h⟩
      executed := .inl ⟨rfl, rfl⟩
      stage := fun _ h => by cases h }
  | minted capability entry hmint hminted =>
    exact TurnFacts.mint (executeForRun_facts _ _ capability draw.reads)
      (executeForRun_minted _ _ capability draw.reads)

/-! ## Requests -/

/-- The row of a consumed approval. -/
structure ApprovalRow (row : AuditLedgerEntry) (proposalHash : JsString) : Prop where
  type : row.type = .approvalConsumed
  proposalHash : propOf row.payload (js "proposalHash") = .string proposalHash

/-- A consumed approval of a run's own plan. -/
structure Approval.Approves (approval : Approval) (plan : RunPlan) : Prop where
  status : approval.status = .consumed
  proposalHash : approval.proposalHash = plan.proposalHash
  scope : approval.scope = ⟨plan.actionType, plan.resourceId⟩

/-- A hash names its algorithm. -/
theorem hashCanonical_eq_ok {value : JsValue} {hash : JsString}
    (h : hashCanonical value = .ok hash) : ∃ digest, hash = js "sha256:" ++ digest := by
  rw [hashCanonical] at h
  cases hcanonical : canonicalize value with
  | error _ => rw [hcanonical] at h; cases h
  | ok canonical =>
    rw [hcanonical] at h
    exact ⟨_, (Except.ok.inj h).symm⟩

omit [Host] in
/-- A hash is not redacted from the row of an approval. -/
private theorem redactPayload_consumedEvent (approval : Approval) (operationId digest : JsString)
    (h : approval.proposalHash = js "sha256:" ++ digest) :
    propOf (redactPayload (approval.consumedEvent operationId).payload) (js "proposalHash") =
      .string approval.proposalHash := by
  have hkey : isSecretKey (js "proposalHash") = false := by decide +kernel
  have hproto : js "proposalHash" ≠ protoKey := by decide
  have hvalue : isSecretShapedValue approval.proposalHash = false := by
    rw [h, show js "sha256:" = [0x73, 0x68, 0x61, 0x32, 0x35, 0x36, 0x3A] by decide]
    rfl
  simp [Approval.consumedEvent, redactPayload, redactValue, hkey, hproto, hvalue]

omit [Host] in
/-- The plan a run's proposal hash is of. -/
def RunPlan.hashInput (plan : RunPlan) : ProposalHashInput where
  schemaVersion := schemaVersion
  actionType := plan.actionType.toJs
  resourceId := plan.resourceId
  parameters := plan.parameters.toJsValue
  evidenceRefs := plan.evidenceRefs

/-- A run's proposal hash is the hash of its own plan. -/
def RunPlan.Pinned (plan : RunPlan) : Prop :=
  computeProposalHash plan.hashInput = .ok plan.proposalHash

/-- `approveRun` on a run that awaits approval: the approval is consumed and recorded
    before anything is minted. -/
inductive ApproveTurn (registry : CapabilityRegistry) (run : RunRecord) (draw : ApproveDraw) :
    Turn → Prop
  | approved (consumed : Approval) (row : AuditLedgerEntry)
      (hstate : run.state = .approvalRequired)
      (happroves : consumed.Approves run.toRunPlan)
      (hrow : ApprovalRow row run.proposalHash) :
      ApproveTurn registry run draw
        (authorizeAndExecute registry
          { run.appendRows [row] with
            approval := some consumed
            state := .authorized
            lastActionAt := Host.toISOString draw.lastActionAt }
          (.approved consumed) draw.authorize)

/-- What consuming an approval leaves. -/
theorem consumeApproval_eq_ok {approval consumed : Approval} {request : ApprovalRequest}
    {now : Instant} (h : consumeApproval approval request now = .ok consumed) :
    consumed = { approval with status := .consumed } := by
  rw [consumeApproval] at h
  cases hcheck : checkApproval approval request now with
  | error _ => rw [hcheck] at h; cases h
  | ok _ =>
    rw [hcheck] at h
    exact (Except.ok.inj h).symm

/-- An accepted approval found its run in `APPROVAL_REQUIRED` and goes on to authorize it with
    the consumed approval, which approves the run's own plan. -/
theorem approveRun_cases {registry : CapabilityRegistry} {run : RunRecord} {draw : ApproveDraw}
    {turn : Turn} (hpinned : run.Pinned) (h : approveRun registry run draw = .ok turn) :
    ApproveTurn registry run draw turn := by
  rw [approveRun] at h
  split at h
  · cases h
  rename_i hstate
  have hstate : run.state = .approvalRequired := not_not.mp hstate
  dsimp only at h
  split at h
  · cases h
  rename_i consumed hconsumed
  have happroval := consumeApproval_eq_ok hconsumed
  obtain ⟨digest, hdigest⟩ := hashCanonical_eq_ok hpinned
  -- the hash in the approval's row is a digest, so redaction leaves it
  obtain ⟨row, hrow, htype, hpayload⟩ := withEvent_eq registry run
    ((run.newApproval draw).consumedEvent run.operationId) draw.stamp
    (fun run => withTransition registry { run with approval := some consumed } .matchingApproval
      fun run => authorizeAndExecute registry
        { run with lastActionAt := Host.toISOString draw.lastActionAt } (.approved consumed)
        draw.authorize)
    (by simp [Approval.consumedEvent])
  have hmatching : transition run.state .matchingApproval = some .authorized := by
    rw [hstate]
    rfl
  rw [hrow, withTransition_eq registry { run.appendRows [row] with approval := some consumed } _
    hmatching] at h
  obtain rfl := Except.ok.inj h
  refine .approved consumed row hstate (happroval ▸ ⟨rfl, rfl, rfl⟩) ⟨htype, ?_⟩
  rw [hpayload]
  exact redactPayload_consumedEvent (run.newApproval draw) run.operationId digest hdigest

/-- A refused approval is not an illegal transition. -/
theorem approveRun_eq_error {registry : CapabilityRegistry} {run : RunRecord} {draw : ApproveDraw}
    {error : RequestError} (h : approveRun registry run draw = .error error) :
    error.isIllegalTransition = false := by
  rw [approveRun] at h
  split at h
  · obtain rfl := Except.error.inj h
    rfl
  dsimp only at h
  split at h
  · obtain rfl := Except.error.inj h
    rfl
  · cases h

/-- A replay is the call of a verified run with the capability it has. -/
theorem replayRun_eq_ok {registry : CapabilityRegistry} {run : RunRecord} {reads : CallReads}
    {turn : Turn} (h : replayRun registry run reads = .ok turn) :
    run.state = .verified ∧ ∃ capability, run.capability = some capability ∧
      turn = executeForRun registry run capability reads := by
  unfold replayRun at h
  split at h
  · rename_i capability hstate hcapability
    exact ⟨hstate, capability, hcapability, (Except.ok.inj h).symm⟩
  · cases h

/-- No refused replay is an illegal transition: the guard comes before any transition. -/
theorem replayRun_eq_error {registry : CapabilityRegistry} {run : RunRecord} {reads : CallReads}
    {error : RequestError} (h : replayRun registry run reads = .error error) :
    error.isIllegalTransition = false := by
  unfold replayRun at h
  split at h
  · cases h
  · obtain rfl := Except.error.inj h
    rfl

/-- So is a reconciliation, from the two states that await one. -/
theorem reconcileRun_eq_ok {registry : CapabilityRegistry} {run : RunRecord} {reads : CallReads}
    {turn : Turn} (h : reconcileRun registry run reads = .ok turn) :
    (run.state = .unknownOutcome ∨ run.state = .reconciliationRequired) ∧
      ∃ capability, run.capability = some capability ∧
        turn = executeForRun registry run capability reads := by
  rw [reconcileRun] at h
  split at h
  · cases h
  rename_i hstate
  refine ⟨by simpa [Classical.or_iff_not_imp_left] using hstate, ?_⟩
  split at h
  · cases h
  · rename_i capability hcapability
    exact ⟨capability, hcapability, (Except.ok.inj h).symm⟩

/-- No refused reconciliation is an illegal transition. -/
theorem reconcileRun_eq_error {registry : CapabilityRegistry} {run : RunRecord}
    {reads : CallReads} {error : RequestError}
    (h : reconcileRun registry run reads = .error error) :
    error.isIllegalTransition = false := by
  rw [reconcileRun] at h
  split at h
  · obtain rfl := Except.error.inj h
    rfl
  · split at h
    · obtain rfl := Except.error.inj h
      rfl
    · cases h

/-- Drift moves the version of a run that awaits approval. -/
theorem simulateDrift_eq_ok {run run' : RunRecord} {now : Instant}
    (h : simulateDrift run now = .ok run') :
    run.state = .approvalRequired ∧
      run' = { run with
        resourceVersionNow := run.resourceVersionNow + 1
        drifted := true
        lastActionAt := Host.toISOString now } := by
  rw [simulateDrift] at h
  split at h
  · cases h
  · rename_i hstate
    exact ⟨not_not.mp hstate, (Except.ok.inj h).symm⟩

/-- No refused drift is an illegal transition: a drift makes none. -/
theorem simulateDrift_eq_error {run : RunRecord} {now : Instant} {error : RequestError}
    (h : simulateDrift run now = .error error) : error.isIllegalTransition = false := by
  rw [simulateDrift] at h
  split at h
  · obtain rfl := Except.error.inj h
    rfl
  · cases h

/-- Checking the ledger of a run only appends to it. -/
theorem verifyRunLedger_eq_ok {run run' : RunRecord} {stamp : Stamp}
    {result : LedgerIntegrityResult} (h : verifyRunLedger run stamp = .ok (run', result)) :
    ∃ row, row.type = .auditIntegrityChecked ∧ run' = run.appendRows [row] := by
  rw [verifyRunLedger] at h
  split at h
  · cases h
  rename_i result' _
  obtain ⟨row, hrow, htype, -⟩ := run.ledger.append_hashable
    { type := .auditIntegrityChecked
      actor := ⟨.server, js "audit-verifier-v1"⟩
      subject := ⟨.operation, run.operationId⟩
      payload := result'.toPayload
      operationId := some run.operationId } stamp
    (by cases result' <;> simp [LedgerIntegrityResult.toPayload])
  rw [hrow] at h
  obtain ⟨rfl, -⟩ := Prod.mk.inj (Except.ok.inj h)
  exact ⟨row, htype, rfl⟩

/-- No refused verification is an illegal transition: verifying makes none. -/
theorem verifyRunLedger_eq_error {run : RunRecord} {stamp : Stamp} {error : RequestError}
    (h : verifyRunLedger run stamp = .error error) : error.isIllegalTransition = false := by
  rw [verifyRunLedger] at h
  split at h
  · obtain rfl := Except.error.inj h
    rfl
  · split at h
    · obtain rfl := Except.error.inj h
      rfl
    · cases h

/-! ## New runs -/

/-- What a run is when it is registered. -/
structure NewRun (run : RunRecord) : Prop where
  pinned : run.Pinned
  adapter : run.adapter = {}
  unrecorded : ∀ operation, ¬ run.Recorded operation
  state : run.state = .validated
  versions : run.resourceVersionNow = run.resourceVersionAtProposal
  unstarted : ∀ row ∈ run.ledger.entries, row.type ≠ .executionStarted

/-- An event that is appended is a row of its type. -/
theorem appendNew_eq_ok {ledger ledger' : AuditLedger} {input : AuditEventInput} {stamp : Stamp}
    (h : appendNew ledger input stamp = .ok ledger') :
    ∃ row, row.type = input.type ∧ ledger'.entries = ledger.entries ++ [row] := by
  rw [appendNew] at h
  split at h
  · cases h
  rename_i happend
  obtain rfl := Except.ok.inj h
  obtain ⟨row, hrow, happend⟩ := bind_eq_ok happend
  obtain ⟨hash, -, hrow⟩ := bind_eq_ok hrow
  obtain rfl := Except.ok.inj hrow
  exact ⟨_, rfl, congrArg (AuditLedger.entries ∘ Prod.fst) (Except.ok.inj happend).symm⟩

omit [Host] in
/-- The first error of two steps. -/
theorem bind_eq_error {ε α β : Type} {x : Except ε α} {f : α → Except ε β} {e : ε}
    (h : (x >>= f) = .error e) : x = .error e ∨ ∃ a, x = .ok a ∧ f a = .error e := by
  cases x with
  | error _ => exact .inl (congrArg Except.error (Except.error.inj h))
  | ok a => exact .inr ⟨a, rfl, h⟩

/-- A row the schema refuses is reported as such. -/
theorem appendNew_eq_error {ledger : AuditLedger} {input : AuditEventInput} {stamp : Stamp}
    {error : RequestError} (h : appendNew ledger input stamp = .error error) :
    error.isIllegalTransition = false := by
  rw [appendNew] at h
  split at h
  · obtain rfl := Except.error.inj h
    rfl
  · cases h

/-- A proposal that is registered is pinned by its hash and has done nothing yet. -/
theorem proposeRun_eq_ok {model : ModelAdapter} {scenarioId : JsString} {draw : CreateDraw}
    {run : RunRecord} (h : proposeRun model scenarioId draw = .ok run) : NewRun run := by
  rw [proposeRun] at h
  split at h
  · cases h
  obtain ⟨ledger, hledger, h⟩ := bind_eq_ok h
  split at h
  · cases h
  · cases h
  split at h
  · cases h
  rename_i proposalHash hproposalHash
  obtain ⟨ledger', hledger', h⟩ := bind_eq_ok h
  obtain ⟨state, hstate, h⟩ := bind_eq_ok h
  obtain rfl := Except.ok.inj h
  exact {
    pinned := hproposalHash
    adapter := rfl
    unrecorded := fun _ h => by cases h
    state := (Except.ok.inj hstate).symm
    versions := rfl
    unstarted := by
      -- the two rows so far are the proposal's and the decision's
      obtain ⟨proposed, hproposed, hentries⟩ := appendNew_eq_ok hledger
      obtain ⟨decided, hdecided, hentries'⟩ := appendNew_eq_ok hledger'
      have hrows : ledger'.entries = [proposed, decided] := by simp [hentries', hentries]
      show ∀ row ∈ ledger'.entries, row.type ≠ .executionStarted
      simp [hrows, hproposed, hdecided] }

/-- What a new run takes over from its scenario, the model's answer and its action. -/
structure RunRecord.ProposedAs (run : RunRecord) (draw : CreateDraw) (flow : ScenarioMeta)
    (raw : JsString) (action : RawAction) : Prop where
  runId : run.runId = draw.runId
  scenario : run.scenario = flow.id
  modelProposalRaw : run.modelProposalRaw = raw
  resourceId : run.resourceId = action.resourceId
  parameters : run.parameters = action.parameters
  evidenceRefs : run.evidenceRefs = action.evidenceRefs
  policyVerdict : run.policyVerdict = evaluatePolicy
    { principal := some ⟨js "principal-1", flow.role, js "t1"⟩
      actionType := action.actionType.toJs
      resource := ⟨draw.resourceId, js "principal-1", js "t1", js "active"⟩
      evidenceRefs := action.evidenceRefs
      environment := { now := draw.policyNow, knownEvidenceIds := [] } }
  drifted : run.drifted = false
  capability : run.capability = none
  execution : run.execution = none

/-- A run is proposed as the first action the model's answer parses to. -/
theorem proposeRun_record {model : ModelAdapter} {scenarioId : JsString} {draw : CreateDraw}
    {run : RunRecord} (h : proposeRun model scenarioId draw = .ok run) :
    ∃ flow action more, findScenario scenarioId = some flow ∧
      parseModelProposal (model ⟨flow.goal, draw.resourceId⟩) = some (action :: more) ∧
      run.ProposedAs draw flow (model ⟨flow.goal, draw.resourceId⟩) action := by
  rw [proposeRun] at h
  split at h
  · cases h
  rename_i flow hflow
  obtain ⟨ledger, -, h⟩ := bind_eq_ok h
  split at h
  · cases h
  · cases h
  rename_i action more hparse
  split at h
  · cases h
  obtain ⟨ledger', -, h⟩ := bind_eq_ok h
  obtain ⟨state, -, h⟩ := bind_eq_ok h
  obtain rfl := Except.ok.inj h
  exact ⟨flow, action, more, hflow, hparse, rfl, rfl, rfl, rfl, rfl, rfl, rfl, rfl, rfl, rfl⟩

/-- No refused proposal is an illegal transition: the two a new run makes are in the table. -/
theorem proposeRun_eq_error {model : ModelAdapter} {scenarioId : JsString} {draw : CreateDraw}
    {error : RequestError} (h : proposeRun model scenarioId draw = .error error) :
    error.isIllegalTransition = false := by
  rw [proposeRun] at h
  split at h
  · obtain rfl := Except.error.inj h
    rfl
  rcases bind_eq_error h with h | ⟨ledger, -, h⟩
  · exact appendNew_eq_error h
  split at h
  · obtain rfl := Except.error.inj h
    rfl
  · obtain rfl := Except.error.inj h
    rfl
  split at h
  · obtain rfl := Except.error.inj h
    rfl
  rcases bind_eq_error h with h | ⟨ledger', -, h⟩
  · exact appendNew_eq_error h
  -- `PROPOSED` has an edge for `SCHEMA_PASS`
  rcases bind_eq_error h with h | ⟨state, -, h⟩
  · cases h
  · cases h

/-- Where the verdict leads a new run. -/
inductive VerdictTurn (registry : CapabilityRegistry) (run : RunRecord) (draw : AuthorizeDraw) :
    Turn → Prop
  | denied (houtcome : run.policyVerdict.outcome = .deny) :
      VerdictTurn registry run draw (.finish registry { run with state := .denied })
  | parked (houtcome : run.policyVerdict.outcome = .requireApproval) :
      VerdictTurn registry run draw (.finish registry { run with state := .approvalRequired })
  | allowed (houtcome : run.policyVerdict.outcome = .allow) :
      VerdictTurn registry run draw
        (authorizeAndExecute registry { run with state := .authorized }
          (.policyAllow run.policyVerdict) draw)

/-- A validated run is denied, asks for approval, or is authorized at once, as its verdict says. -/
theorem followVerdict_cases (registry : CapabilityRegistry) {run : RunRecord}
    (draw : AuthorizeDraw) (hstate : run.state = .validated) :
    VerdictTurn registry run draw (followVerdict registry run draw) := by
  rw [followVerdict]
  cases houtcome : run.policyVerdict.outcome with
  | deny =>
    rw [withTransition_eq registry run _ (show transition run.state .policyDeny = some .denied by
      rw [hstate]; rfl)]
    exact .denied houtcome
  | requireApproval =>
    rw [withTransition_eq registry run _ (show transition run.state .highRisk =
      some .approvalRequired by rw [hstate]; rfl)]
    exact .parked houtcome
  | allow =>
    rw [withTransition_eq registry run _ (show transition run.state .lowRiskPolicyAllow =
      some .authorized by rw [hstate]; rfl)]
    exact .allowed houtcome

end

end ActionHarbor
