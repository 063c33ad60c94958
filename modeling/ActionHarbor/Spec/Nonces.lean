import ActionHarbor.Model.Views
import ActionHarbor.Spec.Authority
import ActionHarbor.Spec.RegistryReads

/-!
# Nonces stay inside

Putting one nonce in the place of all others commutes with every step of the server:
the comparison in `consume` is between a capability and the entry it has just been
recorded as, and a nonce is asked nothing else than not to be empty. So what the
nonces were cannot be told from the views, the ledgers and the answers.

## Key results

- `RunRecord.effect_hideNonce`: the effect of a step under another nonce
- `Server.step_hideNonce`, `Server.run_hideNonce`: a step and a run under another nonce
- `Server.nonces_stay_inside`: two histories that differ in their nonces look the same
-/

namespace ActionHarbor

/-! ## Another nonce -/

/-- The one nonce put in the place of others. An empty one is no nonce. -/
def hiddenNonce (nonce : JsString) : JsString :=
  if nonce = [] then [] else js "nonce"

def Capability.hideNonce (capability : Capability) : Capability :=
  { capability with nonce := hiddenNonce capability.nonce }

def CapabilityRegistry.hideNonce (registry : CapabilityRegistry) : CapabilityRegistry :=
  ⟨Option.map Capability.hideNonce ∘ registry.byId⟩

/-- The same in a printed capability. -/
def JsValue.hideNonce : JsValue → JsValue
  | .object props => .object (props.map fun (key, value) =>
      match value with
      | .string nonce => (key, .string (if key = js "nonce" then hiddenNonce nonce else nonce))
      | _ => (key, value))
  | value => value

def ExecuteActionInput.hideNonce (input : ExecuteActionInput) : ExecuteActionInput :=
  { input with capabilityRaw := input.capabilityRaw.hideNonce }

def RacingCall.hideNonce (call : RacingCall) : RacingCall :=
  { call with
    input := call.input.hideNonce
    capability := call.capability.hideNonce }

def Waiting.hideNonce : Waiting → Waiting
  | .executing call => .executing call.hideNonce
  | .refused call reasonCode => .refused call.hideNonce reasonCode
  | .lookingUp call => .lookingUp { call with input := call.input.hideNonce }

def CallProgress.hideNonce : CallProgress → CallProgress
  | .done settled => .done settled
  | .waiting call => .waiting call.hideNonce

def Shared.hideNonce (shared : Shared) : Shared :=
  { shared with registry := shared.registry.hideNonce }

def RequestProgress.hideNonce : RequestProgress → RequestProgress
  | .responded outcome => .responded outcome
  | .calling progress => .calling progress.hideNonce

def RunRecord.hideNonce (run : RunRecord) : RunRecord :=
  { run with capability := run.capability.map Capability.hideNonce }

def Turn.hideNonce (turn : Turn) : Turn where
  registry := turn.registry.hideNonce
  run := turn.run.hideNonce
  minted := turn.minted.map Capability.hideNonce
  progress := turn.progress.hideNonce

def MintDraw.hideNonce (draw : MintDraw) : MintDraw :=
  { draw with nonce := hiddenNonce draw.nonce }

def AuthorizeDraw.hideNonce (draw : AuthorizeDraw) : AuthorizeDraw :=
  { draw with mint := draw.mint.hideNonce }

def Request.hideNonce : Request → Request
  | .createRun scenarioId draw =>
    .createRun scenarioId { draw with authorize := draw.authorize.hideNonce }
  | .approveRun runId draw =>
    .approveRun runId { draw with authorize := draw.authorize.hideNonce }
  | asked => asked

/-- A step that draws another nonce, if it draws one. -/
def ServerEvent.hideNonce : ServerEvent → ServerEvent
  | .request asked => .request asked.hideNonce
  | e => e

def RequestStage.hideNonce : RequestStage → RequestStage
  | .waiting call => .waiting call.hideNonce
  | .settled outcome => .settled outcome

def AdapterPromise.hideNonce : AdapterPromise → AdapterPromise
  | .sleeping operation capability params =>
    .sleeping operation capability.hideNonce params
  | promise => promise

def RunObservation.hideNonce : RunObservation → RunObservation
  | .minted capability => .minted capability.hideNonce
  | .executeInvoked operation capability params =>
    .executeInvoked operation capability.hideNonce params
  | observation => observation

def RunEffect.hideNonce (effect : RunEffect) : RunEffect where
  registry := effect.registry.hideNonce
  run := effect.run.hideNonce
  stage := effect.stage.map RequestStage.hideNonce
  promise := effect.promise.map AdapterPromise.hideNonce
  observations := effect.observations.map RunObservation.hideNonce

/-- Everything under one nonce. -/
def Server.hideNonce (s : Server) : Server where
  state := { s.state with
    registry := s.state.registry.hideNonce
    records := Option.map RunRecord.hideNonce ∘ s.state.records }
  requests := Option.map (fun (ref, stage) => (ref, stage.hideNonce)) ∘ s.requests
  promises := Option.map (fun (ref, promise) => (ref, promise.hideNonce)) ∘ s.promises
  nextRequest := s.nextRequest
  trace := s.trace.map fun entry => { entry with observation := entry.observation.hideNonce }

/-- The object of a capability without its nonce is its own object with the nonce hidden. -/
theorem Capability.toJsValue_hideNonce (capability : Capability) :
    capability.hideNonce.toJsValue = capability.toJsValue.hideNonce := by
  simp [toJsValue, JsValue.hideNonce, hideNonce]

/-- A registry that records a capability without its nonce has hidden it in the row. -/
theorem CapabilityRegistry.record_hideNonce (registry : CapabilityRegistry)
    (capability : Capability) :
    registry.hideNonce.record capability.hideNonce =
      (registry.record capability).hideNonce := by
  simp only [record, hideNonce, Function.comp_update]
  rfl

/-- What a run hands to the gateway hides the nonce of its capability. -/
theorem RunRecord.callInput_hideNonce (run : RunRecord) (capability : Capability)
    (postcondition : PostconditionExpectation) :
    run.hideNonce.callInput capability.hideNonce postcondition =
      (run.callInput capability postcondition).hideNonce := by
  simp only [callInput, ExecuteActionInput.hideNonce, Capability.toJsValue_hideNonce]
  rfl

/-! ## The call -/

/-- The entry of a capability was recorded with its nonce. -/
def CapabilityRegistry.Knows (registry : CapabilityRegistry) (capability : Capability) : Prop :=
  ∀ stored, registry.byId capability.id = some stored → stored.nonce = capability.nonce

/-- So consuming it does not depend on what the nonce is. -/
theorem CapabilityRegistry.consume_hideNonce {registry : CapabilityRegistry}
    {capability : Capability} (h : registry.Knows capability) :
    registry.hideNonce.consume capability.hideNonce.id capability.hideNonce.nonce =
      (registry.consume capability.id capability.nonce).map
        CapabilityRegistry.hideNonce := by
  have hid : capability.hideNonce.id = capability.id := rfl
  rw [consume, consume, hid]
  cases hstored : registry.byId capability.id with
  | none => simp [hideNonce, hstored, Except.map]
  | some stored =>
    have hsame : stored.nonce = capability.nonce := h stored hstored
    by_cases hstatus : stored.status = .active
    · simp only [hideNonce, Function.comp_apply, hstored, Option.map_some,
        Capability.hideNonce, hsame, hstatus, ne_eq, not_true, if_false, Except.map,
        Function.comp_update]
    · simp only [hideNonce, Function.comp_apply, hstored, Option.map_some,
        Capability.hideNonce, hsame, hstatus, ne_eq, not_true, not_false_iff, if_false, if_true,
        Except.map]

section
variable [Host]

/-- A hidden nonce is empty only where the nonce was, so the capability is as valid as before. -/
theorem Capability.valid_hideNonce {capability : Capability} :
    capability.hideNonce.Valid ↔ capability.Valid := by
  have hnonce : 1 ≤ (hiddenNonce capability.nonce).length ↔ 1 ≤ capability.nonce.length := by
    rw [hiddenNonce]
    split
    · rename_i hempty
      rw [hempty]
    · rename_i hne
      exact iff_of_true (by decide) (List.length_pos_iff.mpr hne)
  constructor
  · intro h
    exact ⟨h.id, h.principalId, h.resourceId, h.proposalHash, h.expiresAt, hnonce.mp h.nonce⟩
  · intro h
    exact ⟨h.id, h.principalId, h.resourceId, h.proposalHash, h.expiresAt, hnonce.mpr h.nonce⟩

/-- The schema of a capability only wants some nonce. -/
theorem Capability.safeParse_hideNonce (capability : Capability) :
    Capability.safeParse capability.hideNonce.toJsValue =
      (Capability.safeParse capability.toJsValue).map Capability.hideNonce := by
  cases hparse : Capability.safeParse capability.toJsValue with
  | some parsed =>
    obtain ⟨rfl, hvalid⟩ := safeParse_toJsValue_eq_some.mp hparse
    exact safeParse_toJsValue_eq_some.mpr ⟨rfl, valid_hideNonce.mpr hvalid⟩
  | none =>
    cases hparse' : Capability.safeParse capability.hideNonce.toJsValue with
    | none => rfl
    | some parsed =>
      obtain ⟨-, hvalid⟩ := safeParse_toJsValue_eq_some.mp hparse'
      cases hparse.symm.trans
        (safeParse_toJsValue_eq_some.mpr ⟨rfl, valid_hideNonce.mp hvalid⟩)

/-- The gateway's check of a capability does not depend on its nonce, and returns it hidden. -/
theorem parseAndValidateCapability_hideNonce (capability : Capability)
    (request : CapabilityRequest) (now : Instant) :
    parseAndValidateCapability capability.hideNonce.toJsValue request now =
      (parseAndValidateCapability capability.toJsValue request now).map
        Capability.hideNonce := by
  rw [parseAndValidateCapability, parseAndValidateCapability, Capability.safeParse_hideNonce]
  cases Capability.safeParse capability.toJsValue with
  | none => rfl
  | some parsed =>
    simp only [Option.map_some]
    have hvalidate : validateCapability parsed.hideNonce request now =
        validateCapability parsed request now := rfl
    rw [hvalidate]
    cases validateCapability parsed request now <;> rfl

/-- An audited step of a call hides the nonces if what follows the row does. -/
private theorem withAudit_hideNonce (shared : Shared) {operationId : JsString}
    {type : AuditEventType} {payload : List (JsString × JsValue)} {stamp : Stamp}
    {next next' : Shared → AuditLedgerEntry → Shared × CallProgress}
    (hnext : ∀ ledger entry, next' ({ shared with ledger := ledger }.hideNonce) entry =
      Prod.map Shared.hideNonce CallProgress.hideNonce
        (next { shared with ledger := ledger } entry)) :
    withAudit shared.hideNonce operationId type payload stamp next' =
      Prod.map Shared.hideNonce CallProgress.hideNonce
        (withAudit shared operationId type payload stamp next) := by
  rw [withAudit_def, withAudit_def]
  have hledger : shared.hideNonce.ledger = shared.ledger := rfl
  rw [hledger]
  cases audit shared.ledger operationId type payload stamp with
  | error error => rfl
  | ok result => exact hnext result.1 result.2

/-- Calling the adapter hides the nonce the call was started with. -/
private theorem invokeAdapter_hideNonce (call : RacingCall) (now : Instant) :
    invokeAdapter call.hideNonce now = (invokeAdapter call now).hideNonce := by
  have hvalidate : validateCapability call.hideNonce.capability
      call.hideNonce.input.request now =
      validateCapability call.capability call.input.request now := rfl
  rw [invokeAdapter, invokeAdapter, hvalidate]
  cases validateCapability call.capability call.input.request now <;> rfl

/-- The first call under a key goes alike with the nonces hidden: the registry knows the
    capability, so `consume` compares equal nonces in both. -/
private theorem executeFresh_hideNonce {shared : Shared} {input : ExecuteActionInput}
    {capability : Capability} (h : shared.registry.Knows capability) (payloadHash : JsString)
    (reads : CallReads) :
    executeFresh shared.hideNonce input.hideNonce capability.hideNonce
        payloadHash reads =
      Prod.map Shared.hideNonce CallProgress.hideNonce
        (executeFresh shared input capability payloadHash reads) := by
  have hconsume : shared.hideNonce.registry.consume capability.hideNonce.id
      capability.hideNonce.nonce =
      (shared.registry.consume capability.id capability.nonce).map
        CapabilityRegistry.hideNonce := CapabilityRegistry.consume_hideNonce h
  rw [executeFresh, executeFresh, hconsume]
  cases shared.registry.consume capability.id capability.nonce with
  | error reasonCode => rfl
  | ok registry =>
    refine withAudit_hideNonce { shared with registry := registry } fun ledger entry => ?_
    exact congrArg (Prod.mk _) (congrArg CallProgress.waiting
      (invokeAdapter_hideNonce ⟨input, capability, payloadHash, [entry]⟩ reads.gatewayNow))

/-- A call that finds a record under its key runs alike with the nonces hidden. -/
private theorem reconcileDuplicate_hideNonce (shared : Shared) (input : ExecuteActionInput)
    (prior : OperationRecord) (stamp : Stamp) :
    reconcileDuplicate shared.hideNonce input.hideNonce prior stamp =
      Prod.map Shared.hideNonce CallProgress.hideNonce
        (reconcileDuplicate shared input prior stamp) := by
  rw [reconcileDuplicate, reconcileDuplicate]
  split
  · exact withAudit_hideNonce shared fun _ _ => rfl
  split <;> rfl

/-- The synchronous part of a call. Only a call with a new key compares nonces. -/
theorem executeAction_hideNonce (shared : Shared) {input : ExecuteActionInput}
    {capability : Capability} (hraw : input.capabilityRaw = capability.toJsValue)
    (hknows : shared.operationStore.byIdempotencyKey input.operation.idempotencyKey = none →
      shared.registry.Knows capability) (reads : CallReads) :
    executeAction shared.hideNonce input.hideNonce reads =
      Prod.map Shared.hideNonce CallProgress.hideNonce
        (executeAction shared input reads) := by
  have hparse : parseAndValidateCapability input.hideNonce.capabilityRaw
      input.hideNonce.request reads.now =
      (parseAndValidateCapability input.capabilityRaw input.request reads.now).map
        Capability.hideNonce := by
    rw [hraw, ← parseAndValidateCapability_hideNonce, Capability.toJsValue_hideNonce,
      ← hraw]
    rfl
  rw [executeAction, executeAction, hparse]
  cases hparsed : parseAndValidateCapability input.capabilityRaw input.request reads.now with
  | error reasonCode => rfl
  | ok parsed =>
    rw [hraw] at hparsed
    obtain ⟨rfl, -, -⟩ := parseAndValidateCapability_toJsValue.mp hparsed
    simp only [Except.map]
    have hpreconditions : checkPreconditions parsed.hideNonce
        input.hideNonce.precondition = checkPreconditions parsed input.precondition := rfl
    rw [hpreconditions]
    cases checkPreconditions parsed input.precondition with
    | error reasonCodes => exact withAudit_hideNonce shared fun _ _ => rfl
    | ok _ =>
      have hparams : input.hideNonce.params = input.params := rfl
      have hcheck : ∀ payloadHash, shared.hideNonce.operationStore.check
          input.hideNonce.operation.idempotencyKey payloadHash =
          shared.operationStore.check input.operation.idempotencyKey payloadHash := fun _ => rfl
      simp only [hparams]
      cases hashCanonical input.params with
      | error error => rfl
      | ok payloadHash =>
        simp only [hcheck]
        cases hlookup : shared.operationStore.check input.operation.idempotencyKey payloadHash with
        | conflict => exact withAudit_hideNonce shared fun _ _ => rfl
        | duplicate prior => exact reconcileDuplicate_hideNonce shared input prior reads.stamp
        | new =>
          refine executeFresh_hideNonce (hknows ?_) payloadHash reads
          -- the registry is read here alone, where the key is new
          rw [OperationStore.check] at hlookup
          split at hlookup
          · assumption
          · split at hlookup <;> cases hlookup

/-! ## Turns -/

omit [Host] in
/-- A run's adapter is called, and counted, alike with the nonces hidden. -/
private theorem RunRecord.invokeAdapter_hideNonce (run : RunRecord) (progress : CallProgress) :
    run.hideNonce.invokeAdapter progress.hideNonce = (run.invokeAdapter progress).hideNonce := by
  cases progress with
  | done => rfl
  | waiting call => cases call <;> rfl

/-- The call of a run that has its operation on record or its capability just recorded. -/
theorem executeForRun_hideNonce {registry : CapabilityRegistry} (run : RunRecord)
    {capability : Capability}
    (hknows : (∀ operation, ¬ run.Recorded operation) → registry.Knows capability)
    (reads : CallReads) :
    executeForRun registry.hideNonce run.hideNonce capability.hideNonce reads =
      (executeForRun registry run capability reads).hideNonce := by
  have hpostcondition : run.hideNonce.postcondition = run.postcondition := rfl
  rw [executeForRun, executeForRun, hpostcondition]
  cases run.postcondition with
  | none => rfl
  | some postcondition =>
    dsimp only
    have hraw : (run.callInput capability postcondition).capabilityRaw = capability.toJsValue := rfl
    have hcall := executeAction_hideNonce ⟨registry, run.operationStore, run.ledger⟩ hraw
      (fun hnone => hknows fun operation hrecorded => by cases hnone.symm.trans hrecorded) reads
    rw [← RunRecord.callInput_hideNonce] at hcall
    have hshared : (⟨registry.hideNonce, run.hideNonce.operationStore, run.hideNonce.ledger⟩ :
        Shared) = Shared.hideNonce ⟨registry, run.operationStore, run.ledger⟩ := rfl
    rw [hshared, hcall]
    -- the turn carries the run on with the store and the ledger of the call
    generalize executeAction ⟨registry, run.operationStore, run.ledger⟩ _ reads = result
    obtain ⟨shared, progress⟩ := result
    have hrun := RunRecord.invokeAdapter_hideNonce
      { run with operationStore := shared.operationStore, ledger := shared.ledger } progress
    exact congrArg (fun run => ({
      registry := shared.registry.hideNonce
      run := run
      progress := .calling progress.hideNonce } : Turn)) hrun

/-- A turn that appends a row hides the nonces if what follows the row does. -/
private theorem withEvent_hideNonce {registry : CapabilityRegistry} (run : RunRecord)
    {input : AuditEventInput} {stamp : Stamp} {next next' : RunRecord → Turn}
    (hnext : ∀ ledger, next' { run.hideNonce with ledger := ledger } =
      (next { run with ledger := ledger }).hideNonce) :
    withEvent registry.hideNonce run.hideNonce input stamp next' =
      (withEvent registry run input stamp next).hideNonce := by
  have hledger : run.hideNonce.ledger = run.ledger := rfl
  rw [withEvent, withEvent, hledger]
  cases run.ledger.append input stamp with
  | error error => rfl
  | ok result => exact hnext result.1

omit [Host] in
/-- A turn that moves the run hides the nonces if what follows the transition does. -/
private theorem withTransition_hideNonce {registry : CapabilityRegistry} (run : RunRecord)
    {trigger : RunStateTrigger} {next next' : RunRecord → Turn}
    (hnext : ∀ state, next' { run.hideNonce with state := state } =
      (next { run with state := state }).hideNonce) :
    withTransition registry.hideNonce run.hideNonce trigger next' =
      (withTransition registry run trigger next).hideNonce := by
  have hstate : run.hideNonce.state = run.state := rfl
  rw [withTransition, withTransition, hstate]
  cases mustTransition run.state trigger with
  | error error => rfl
  | ok state => exact hnext state

/-- Minting with the nonce hidden from the draw mints the capability without it. -/
private theorem mintCapability_hideNonce (evidence : AuthorizationEvidence)
    (request : CapabilityRequest) (draw : MintDraw) (ttlMs : Int) :
    mintCapability evidence request draw.hideNonce ttlMs =
      (mintCapability evidence request draw ttlMs).map Capability.hideNonce := by
  rw [mintCapability, mintCapability]
  cases checkEvidence evidence request <;> rfl

/-- What is minted is recorded before it is used. -/
theorem authorizeAndExecute_hideNonce (registry : CapabilityRegistry) (run : RunRecord)
    (evidence : AuthorizationEvidence) (draw : AuthorizeDraw) :
    authorizeAndExecute registry.hideNonce run.hideNonce evidence draw.hideNonce =
      (authorizeAndExecute registry run evidence draw).hideNonce := by
  have hminted : mintCapability evidence run.hideNonce.request draw.hideNonce.mint 60000 =
      (mintCapability evidence run.request draw.mint 60000).map Capability.hideNonce :=
    mintCapability_hideNonce ..
  cases hmint : mintCapability evidence run.request draw.mint 60000 with
  | error reasonCode =>
    rw [hmint] at hminted
    rw [authorizeAndExecute, authorizeAndExecute, hminted, hmint]
    rfl
  | ok capability =>
    rw [hmint] at hminted
    rw [authorizeAndExecute_eq hmint, authorizeAndExecute_eq hminted]
    have hturn : withEvent registry.hideNonce run.hideNonce
        (capability.mintedEvent run.operationId) draw.stamp (fun run' =>
          executeForRun (registry.hideNonce.record capability.hideNonce)
            { run' with capability := some capability.hideNonce } capability.hideNonce
            draw.reads) =
        (withEvent registry run (capability.mintedEvent run.operationId) draw.stamp fun run' =>
          executeForRun (registry.record capability) { run' with capability := some capability }
            capability draw.reads).hideNonce := by
      refine withEvent_hideNonce run fun ledger => ?_
      -- the capability the call presents is the one just recorded
      rw [CapabilityRegistry.record_hideNonce]
      refine executeForRun_hideNonce { run with
        ledger := ledger
        capability := some capability } (fun _ stored hstored => ?_) draw.reads
      obtain rfl : capability = stored := by simpa [CapabilityRegistry.record] using hstored
      rfl
    have hevent : capability.hideNonce.mintedEvent run.hideNonce.operationId =
        capability.mintedEvent run.operationId := rfl
    have hstamp : draw.hideNonce.stamp = draw.stamp := rfl
    have hreads : draw.hideNonce.reads = draw.reads := rfl
    rw [hevent, hstamp, hreads, hturn]
    generalize withEvent registry run _ draw.stamp _ = turn
    rfl

/-- Where the verdict leads a new run. -/
theorem followVerdict_hideNonce (registry : CapabilityRegistry) (run : RunRecord)
    (draw : AuthorizeDraw) :
    followVerdict registry.hideNonce run.hideNonce draw.hideNonce =
      (followVerdict registry run draw).hideNonce := by
  have houtcome : run.hideNonce.policyVerdict = run.policyVerdict := rfl
  rw [followVerdict, followVerdict, houtcome]
  cases run.policyVerdict.outcome with
  | deny | requireApproval => exact withTransition_hideNonce run fun _ => rfl
  | allow =>
    refine withTransition_hideNonce run fun state => ?_
    exact authorizeAndExecute_hideNonce registry { run with state := state } _ draw

/-! ## Effects -/

omit [Host] in
/-- The effect of a turn with the nonces hidden is its effect, hidden. -/
private theorem RunEffect.ofTurn_hideNonce (turn : Turn) :
    RunEffect.ofTurn turn.hideNonce = (RunEffect.ofTurn turn).hideNonce := by
  obtain ⟨registry, run, minted, progress⟩ := turn
  cases progress with
  | responded outcome => cases minted <;> rfl
  | calling progress =>
    cases progress with
    | done settled => cases minted <;> rfl
    | waiting call => cases call <;> cases minted <;> rfl

omit [Host] in
/-- Taking a turn or refusing it hides the nonces in the same way. -/
private theorem RunEffect.take_hideNonce (registry : CapabilityRegistry) (run : RunRecord)
    (result : Except RequestError Turn) :
    RunEffect.take registry.hideNonce run.hideNonce (result.map Turn.hideNonce) =
      (RunEffect.take registry run result).hideNonce := by
  cases result with
  | error error => rfl
  | ok turn => exact RunEffect.ofTurn_hideNonce turn

/-- Approving a run goes alike with the nonces hidden from the run and from the draw. -/
private theorem approveRun_hideNonce (registry : CapabilityRegistry) (run : RunRecord)
    (draw : ApproveDraw) :
    approveRun registry.hideNonce run.hideNonce
        { draw with authorize := draw.authorize.hideNonce } =
      (approveRun registry run draw).map Turn.hideNonce := by
  have hstate : run.hideNonce.state = run.state := rfl
  have happroval : run.hideNonce.newApproval { draw with authorize := draw.authorize.hideNonce } =
      run.newApproval draw := rfl
  have hrequest : (⟨run.hideNonce.proposalHash, run.hideNonce.actionType,
      run.hideNonce.resourceId⟩ : ApprovalRequest) =
      ⟨run.proposalHash, run.actionType, run.resourceId⟩ := rfl
  -- nothing up to the mint reads a nonce
  rw [approveRun, approveRun, hstate]
  split
  · rfl
  dsimp only
  rw [happroval, hrequest]
  cases consumeApproval (run.newApproval draw) ⟨run.proposalHash, run.actionType, run.resourceId⟩
      draw.consumedAt with
  | error reasonCode => rfl
  | ok consumed =>
    refine congrArg Except.ok (withEvent_hideNonce run fun ledger => ?_)
    refine withTransition_hideNonce { run with
      ledger := ledger
      approval := some consumed } fun state => ?_
    exact authorizeAndExecute_hideNonce registry { run with
      ledger := ledger
      approval := some consumed
      state := state
      lastActionAt := Host.toISOString draw.lastActionAt } _ draw.authorize

/-- A run that replays has its operation on record. -/
private theorem replayRun_hideNonce (registry : CapabilityRegistry) {run : RunRecord}
    (hrecorded : run.state.Concluded → ∃ operation, run.Recorded operation) (reads : CallReads) :
    replayRun registry.hideNonce run.hideNonce reads =
      (replayRun registry run reads).map Turn.hideNonce := by
  have hstate : run.hideNonce.state = run.state := rfl
  have hcapability : run.hideNonce.capability = run.capability.map Capability.hideNonce := rfl
  have hrefused : ∀ before after, invalidState run.hideNonce before after =
      invalidState run before after := fun _ _ => rfl
  rw [replayRun.eq_def, replayRun.eq_def, hstate, hcapability]
  cases hverified : run.state with
  | verified =>
    rw [hverified] at hrecorded
    obtain ⟨operation, hrecord⟩ := hrecorded trivial
    cases run.capability with
    | none => exact congrArg Except.error (hrefused ..)
    | some capability =>
      exact congrArg Except.ok
        (executeForRun_hideNonce run (fun hnone => absurd hrecord (hnone operation)) reads)
  | _ => exact congrArg Except.error (hrefused ..)

/-- So has a run that reconciles. -/
private theorem reconcileRun_hideNonce (registry : CapabilityRegistry) {run : RunRecord}
    (hrecorded : run.state.Concluded → ∃ operation, run.Recorded operation) (reads : CallReads) :
    reconcileRun registry.hideNonce run.hideNonce reads =
      (reconcileRun registry run reads).map Turn.hideNonce := by
  have hstate : run.hideNonce.state = run.state := rfl
  have hcapability : run.hideNonce.capability = run.capability.map Capability.hideNonce := rfl
  rw [reconcileRun, reconcileRun, hstate, hcapability]
  split
  · rfl
  · rename_i hawaits
    have hconcluded : run.state.Concluded := by
      cases hunknown : run.state with
      | unknownOutcome | reconciliationRequired => trivial
      | _ => simp [hunknown] at hawaits
    obtain ⟨operation, hrecord⟩ := hrecorded hconcluded
    -- the key is taken, so `consume` is not reached
    cases run.capability with
    | none => rfl
    | some capability =>
      exact congrArg Except.ok
        (executeForRun_hideNonce run (fun hnone => absurd hrecord (hnone operation)) reads)

/-- The continuation of a call does not look at its capability's nonce. -/
private theorem Waiting.resume_hideNonce (waiting : Waiting) (wakeup : Wakeup) (shared : Shared)
    (stamp : Stamp) : waiting.hideNonce.resume wakeup shared stamp =
      waiting.resume wakeup shared stamp := by
  cases waiting with
  | executing | refused => cases wakeup <;> rfl
  | lookingUp call =>
    cases wakeup with
    | lookupSettled answer =>
      have hoperation : call.input.hideNonce.operation = call.input.operation := rfl
      have hfinalize : ∀ receipt payloadHash capabilityId reconciled auditEvents,
          finalizeFromReceipt shared call.input.hideNonce receipt payloadHash capabilityId
            reconciled auditEvents stamp = finalizeFromReceipt shared call.input receipt
              payloadHash capabilityId reconciled auditEvents stamp := fun _ _ _ _ _ => rfl
      simp only [resume, hideNonce, afterLookup, hoperation, hfinalize]
    | _ => rfl

/-- Waking a request has the same effect with the nonces hidden. -/
private theorem RunRecord.wakeEffect_hideNonce (registry : CapabilityRegistry) (run : RunRecord)
    (stage : Option RequestStage) (promise : Option AdapterPromise) (wakeup : Wakeup)
    (stamp : Stamp) :
    run.hideNonce.wakeEffect registry.hideNonce (stage.map RequestStage.hideNonce)
        (promise.map AdapterPromise.hideNonce) wakeup stamp =
      (run.wakeEffect registry stage promise wakeup stamp).map RunEffect.hideNonce := by
  cases stage with
  | none => rfl
  | some stage =>
    cases stage with
    | settled => rfl
    | waiting call =>
      have hstore : run.hideNonce.operationStore = run.operationStore := rfl
      have hledger : run.hideNonce.ledger = run.ledger := rfl
      simp only [wakeEffect, Option.map_some, RequestStage.hideNonce, Waiting.resume_hideNonce,
        hstore, hledger]
      rw [call.resume_registry wakeup registry registry.hideNonce]
      -- a continuation leaves the registry alone, so it may run over either
      cases hresume : call.resume wakeup ⟨registry, run.operationStore, run.ledger⟩ stamp with
      | none => rfl
      | some result =>
        have hregistry : result.1.registry = registry := (resume_cases hresume).registry_eq
        obtain ⟨⟨_, store, ledger⟩, settled⟩ := result
        obtain rfl : _ = registry := hregistry
        rfl

/-- The fake behind a run does not look at the nonce of a capability. -/
private theorem CountingAdapter.execute_hideNonce (scenario : ScenarioId)
    (adapter : CountingAdapter) (operation : AdapterOperation) (capability : Capability)
    (params : JsValue) (draw : AdapterDraw) :
    adapter.execute (adapterKind scenario) operation capability.hideNonce params draw =
      adapter.execute (adapterKind scenario) operation capability params draw := by
  cases scenario <;> rfl

omit [Host] in
/-- What an adapter delivers does not depend on the nonce. -/
private theorem AdapterPromise.wakeup_hideNonce (promise : AdapterPromise) :
    promise.hideNonce.wakeup = promise.wakeup := by
  cases promise <;> rfl

/-- The effect of a step under another nonce. -/
theorem RunRecord.effect_hideNonce {run : RunRecord}
    (hrecorded : run.state.Concluded → ∃ operation, run.Recorded operation)
    (registry : CapabilityRegistry) (stage : Option RequestStage)
    (promise : Option AdapterPromise) (e : ServerEvent) :
    run.hideNonce.effect registry.hideNonce (stage.map RequestStage.hideNonce)
        (promise.map AdapterPromise.hideNonce) e.hideNonce =
      (run.effect registry stage promise e).map RunEffect.hideNonce := by
  cases e with
  | request asked =>
    cases asked with
    | createRun => rfl
    | approveRun runId draw =>
      have happrove := approveRun_hideNonce registry run draw
      exact congrArg some ((congrArg _ happrove).trans (RunEffect.take_hideNonce ..))
    | replayRun runId reads =>
      have hreplay := replayRun_hideNonce registry hrecorded reads
      exact congrArg some ((congrArg _ hreplay).trans (RunEffect.take_hideNonce ..))
    | reconcileRun runId reads =>
      have hreconcile := reconcileRun_hideNonce registry hrecorded reads
      exact congrArg some ((congrArg _ hreconcile).trans (RunEffect.take_hideNonce ..))
    | simulateDrift runId now =>
      -- neither this nor the integrity check reads a capability
      have hdrift : simulateDrift run.hideNonce now =
          (simulateDrift run now).map RunRecord.hideNonce := by
        have hstate : run.hideNonce.state = run.state := rfl
        rw [simulateDrift, simulateDrift, hstate]
        split <;> rfl
      refine congrArg some ?_
      rw [hdrift]
      cases simulateDrift run now <;> rfl
    | verifyRunLedger runId stamp =>
      have hverify : verifyRunLedger run.hideNonce stamp =
          (verifyRunLedger run stamp).map (Prod.map RunRecord.hideNonce id) := by
        have hledger : run.hideNonce.ledger = run.ledger := rfl
        have hoperation : run.hideNonce.operationId = run.operationId := rfl
        rw [verifyRunLedger, verifyRunLedger, hledger, hoperation]
        cases verifyLedgerIntegrity run.ledger.entries with
        | error error => rfl
        | ok result =>
          dsimp only
          cases run.ledger.append _ stamp <;> rfl
      refine congrArg some ?_
      rw [hverify]
      cases verifyRunLedger run stamp <;> rfl
  | execute c draw =>
    cases promise with
    | none => rfl
    | some promise =>
      cases promise with
      | sleeping operation capability params =>
        -- a fake reads no nonce either
        have hexecute : run.hideNonce.adapter.execute (adapterKind run.hideNonce.scenario)
            operation capability.hideNonce params draw =
            run.adapter.execute (adapterKind run.scenario) operation capability params draw :=
          CountingAdapter.execute_hideNonce ..
        simp only [effect, Option.map_some, ServerEvent.hideNonce, AdapterPromise.hideNonce,
          hexecute]
        generalize run.adapter.execute _ operation capability params draw = result
        rfl
      | executed | lookedUp => rfl
  | deliver c stamp =>
    cases promise with
    | none => rfl
    | some promise =>
      simp only [effect, Option.map_some, Option.bind_some, ServerEvent.hideNonce,
        AdapterPromise.wakeup_hideNonce]
      cases promise.wakeup with
      | none => rfl
      | some wakeup => exact wakeEffect_hideNonce registry run stage (some promise) wakeup stamp
  | timeout c stamp => exact wakeEffect_hideNonce registry run stage promise .timerFired stamp
  | refuse c stamp =>
    exact wakeEffect_hideNonce registry run stage promise .refusalDelivered stamp
  | resume c now =>
    cases stage with
    | none => rfl
    | some stage =>
      cases stage with
      | waiting => rfl
      | settled settled =>
        -- nor does the state machine
        have hfinish : finishExecution run.hideNonce settled now =
            Prod.map RunRecord.hideNonce id (finishExecution run settled now) := by
          have hstate : run.hideNonce.state = run.state := rfl
          cases settled with
          | threw error => rfl
          | returned result =>
            rw [finishExecution, finishExecution, hstate]
            cases applyExecutionResult run.state result <;> rfl
        simp only [effect, Option.map_some, ServerEvent.hideNonce, RequestStage.hideNonce,
          hfinish]
        generalize finishExecution run settled now = result
        rfl

/-! ## The server -/

namespace Server

omit [Host] in
/-- The records of the server with its nonces hidden. -/
theorem hideNonce_record (s : Server) (ref : RunRef) :
    s.hideNonce.state.records ref = (s.state.records ref).map RunRecord.hideNonce := rfl

omit [Host] in
/-- Applying an effect and hiding the nonces commute. -/
theorem apply_hideNonce (s : Server) (ref : RunRef) (c : RequestId) (effect : RunEffect) :
    (s.apply ref c effect).hideNonce = s.hideNonce.apply ref c effect.hideNonce := by
  have hstage : (effect.stage.map fun stage => (ref, stage)).map
      (fun entry : RunRef × RequestStage => (entry.1, entry.2.hideNonce)) =
      effect.hideNonce.stage.map fun stage => (ref, stage) := by
    rw [RunEffect.hideNonce, Option.map_map, Option.map_map]
    rfl
  have hpromise : (effect.promise.map fun promise => (ref, promise)).map
      (fun entry : RunRef × AdapterPromise => (entry.1, entry.2.hideNonce)) =
      effect.hideNonce.promise.map fun promise => (ref, promise) := by
    rw [RunEffect.hideNonce, Option.map_map, Option.map_map]
    rfl
  simp only [hideNonce, apply, Function.comp_update, hstage, hpromise, List.map_append,
    entriesOn, List.map_map, Option.map_some]
  simp only [RunEffect.hideNonce, List.map_map]
  rfl

section
variable {s : Server}

omit [Host] in
/-- Hiding the nonces takes no identifier that was free. -/
theorem Fresh.hideNonce (h : s.Fresh) : s.hideNonce.Fresh where
  records ref href := by simp [Server.hideNonce, h.records ref href]
  requests c hc := by simp [Server.hideNonce, h.requests c hc]
  promises c hc := by simp [Server.hideNonce, h.promises c hc]
  requestRefs c ref stage hrequest := by
    obtain ⟨⟨owner, own⟩, hown, heq⟩ := Option.map_eq_some_iff.mp hrequest
    cases heq
    exact h.requestRefs c ref own hown
  promiseRefs c ref promise hpromise := by
    obtain ⟨⟨owner, own⟩, hown, heq⟩ := Option.map_eq_some_iff.mp hpromise
    cases heq
    exact h.promiseRefs c ref own hown
  traceRefs entry hmem ref href := by
    obtain ⟨own, hown, rfl⟩ := List.mem_map.mp hmem
    exact h.traceRefs own hown ref href
  owners c ref stage ref' promise hrequest hpromise := by
    obtain ⟨⟨owner, own⟩, hown, heq⟩ := Option.map_eq_some_iff.mp hrequest
    obtain ⟨⟨owner', own'⟩, hown', heq'⟩ := Option.map_eq_some_iff.mp hpromise
    cases heq
    cases heq'
    exact h.owners c ref own ref' own' hown hown'

omit [Host] in
/-- The links between run ids, records and requests are no nonces. -/
theorem Linked.hideNonce (h : s.Linked) : s.hideNonce.Linked where
  registered runId ref hruns := by
    have hsome := h.registered runId ref hruns
    simpa [Server.hideNonce] using hsome

omit [Host] in
/-- What belongs to a run is mapped where it belongs to the run. -/
private theorem ofRun_map {α β : Type} (ref : RunRef) (f : α → β) (entry : Option (RunRef × α)) :
    ofRun ref (entry.map fun entry => (entry.1, f entry.2)) = (ofRun ref entry).map f := by
  cases entry with
  | none => rfl
  | some entry =>
    obtain ⟨owner, a⟩ := entry
    by_cases h : owner = ref <;> simp [ofRun, h]

variable {model : ModelAdapter} {e : ServerEvent}

/-- Proposing a run reads no nonce, so it only hides the one of its draw. -/
private theorem proposeRun_hideNonce (scenarioId : JsString) (draw : CreateDraw) :
    proposeRun model scenarioId { draw with authorize := draw.authorize.hideNonce } =
      proposeRun model scenarioId draw := rfl

/-- A step belongs to the same run under another nonce. -/
theorem actor_hideNonce (s : Server) (e : ServerEvent) :
    s.hideNonce.actor model e.hideNonce = s.actor model e := by
  cases e with
  | request asked =>
    cases asked with
    | createRun scenarioId draw =>
      simp only [actor, ServerEvent.hideNonce, Request.hideNonce, createRun, proposeRun_hideNonce]
      cases proposeRun model scenarioId draw <;> rfl
    | _ => rfl
  | execute c draw =>
    simp only [actor, ServerEvent.hideNonce, hideNonce, Function.comp_apply, Option.map_map]
    rfl
  | deliver c _ | timeout c _ | refuse c _ | resume c _ =>
    simp only [actor, ServerEvent.hideNonce, hideNonce, Function.comp_apply, Option.map_map]
    rfl

/-- A step that is no request belongs to a run that is there. -/
private theorem step_eq_none (hfresh : s.Fresh) (hlinked : s.Linked)
    (hrequest : e.isRequest = false)
    (hactor : ∀ ref, s.actor model e = some ref → s.state.records ref = none) :
    s.step model e = none := by
  rw [Option.eq_none_iff_forall_not_mem]
  intro s' hstep
  cases step_cases hfresh hlinked hstep with
  | idle error _ hidle => cases hidle.symm.trans hrequest
  | born scenarioId draw run turn he => subst he; cases hrequest
  | acted ref run effect hacts hrecord => cases (hactor ref hacts).symm.trans hrecord

/-- A step on a run that is there, under another nonce. -/
private theorem acted_hideNonce (hfresh : s.Fresh) {ref : RunRef} {run : RunRecord}
    (hactor : s.actor model e = some ref) (hrecord : s.state.records ref = some run)
    (hrecorded : run.state.Concluded → ∃ operation, run.Recorded operation)
    (hcreate : ∀ scenarioId draw, e ≠ .request (.createRun scenarioId draw)) :
    s.hideNonce.step model e.hideNonce = (s.step model e).map hideNonce := by
  have hcreate' : ∀ scenarioId draw, e.hideNonce ≠ .request (.createRun scenarioId draw) := by
    intro scenarioId draw heq
    cases e with
    | request asked =>
      cases asked with
      | createRun scenarioId draw => exact hcreate scenarioId draw rfl
      | _ => cases heq
    | _ => cases heq
  have hrecord' : s.hideNonce.state.records ref = some run.hideNonce := by
    simp [hideNonce, hrecord]
  have hnumber : e.hideNonce.number s.hideNonce.nextRequest = e.number s.nextRequest := by
    cases e <;> rfl
  rw [step_eq_apply hfresh hactor hrecord hcreate,
    step_eq_apply hfresh.hideNonce ((actor_hideNonce s e).trans hactor) hrecord' hcreate', hnumber]
  -- both steps are effects on the run, taken on what the run sees
  have hstage : ofRun ref (s.hideNonce.requests (e.number s.nextRequest)) =
      (ofRun ref (s.requests (e.number s.nextRequest))).map RequestStage.hideNonce :=
    ofRun_map ref RequestStage.hideNonce _
  have hpromise : ofRun ref (s.hideNonce.promises (e.number s.nextRequest)) =
      (ofRun ref (s.promises (e.number s.nextRequest))).map AdapterPromise.hideNonce :=
    ofRun_map ref AdapterPromise.hideNonce _
  have hregistry : s.hideNonce.state.registry = s.state.registry.hideNonce := rfl
  rw [hstage, hpromise, hregistry, RunRecord.effect_hideNonce hrecorded, Option.map_map,
    Option.map_map]
  congr 1
  funext effect
  exact (apply_hideNonce s ref _ effect).symm

omit [Host] in
/-- A refusal hides nothing but what the server already held. -/
private theorem refuse_hideNonce (s : Server) (ref : Option RunRef) (error : RequestError) :
    s.hideNonce.refuse ref error = (s.refuse ref error).hideNonce := by
  simp [refuse, hideNonce, RunObservation.hideNonce]

/-- A creation under another nonce. -/
private theorem create_hideNonce (s : Server) (scenarioId : JsString) (draw : CreateDraw) :
    s.hideNonce.handle model
        (.createRun scenarioId { draw with authorize := draw.authorize.hideNonce }) =
      (s.handle model (.createRun scenarioId draw)).hideNonce := by
  simp only [handle, createRun, proposeRun_hideNonce]
  cases hnew : proposeRun model scenarioId draw with
  | error error => exact refuse_hideNonce s none error
  | ok run =>
    have hrun : run.hideNonce = run := by
      rw [RunRecord.hideNonce, proposeRun_capability hnew, Option.map_none,
        ← proposeRun_capability hnew]
    have hturn : followVerdict s.hideNonce.state.registry run draw.authorize.hideNonce =
        (followVerdict s.state.registry run draw.authorize).hideNonce := by
      have hturn := followVerdict_hideNonce s.state.registry run draw.authorize
      rwa [hrun] at hturn
    show (s.hideNonce.register _).enter _ _ = ((s.register _).enter _ _).hideNonce
    rw [hturn, enter_eq_apply, enter_eq_apply, apply_hideNonce, RunEffect.ofTurn_hideNonce]
    rfl

/-- So is a request on a run that does not exist. -/
private theorem unknown_hideNonce {asked : Request} {runId : JsString}
    (hrunId : asked.runId = some runId) (hruns : s.state.runs runId = none) :
    s.hideNonce.handle model asked.hideNonce = (s.handle model asked).hideNonce := by
  have hruns' : s.hideNonce.state.runs runId = none := hruns
  cases asked <;> cases hrunId <;>
    simp only [handle, onRun, hruns, Request.hideNonce, hruns', refuse_hideNonce]

/-- A step under another nonce. -/
theorem step_hideNonce (hfresh : s.Fresh) (hlinked : s.Linked)
    (hrecorded : ∀ ref run, s.state.records ref = some run →
      run.state.Concluded → ∃ operation, run.Recorded operation) (e : ServerEvent) :
    s.hideNonce.step model e.hideNonce = (s.step model e).map hideNonce := by
  have hacted : ∀ ref, s.actor model e = some ref → s.state.records ref ≠ none →
      (∀ scenarioId draw, e ≠ .request (.createRun scenarioId draw)) →
      s.hideNonce.step model e.hideNonce = (s.step model e).map hideNonce := by
    intro ref hactor hsome hcreate
    obtain ⟨run, hrecord⟩ := Option.ne_none_iff_exists'.mp hsome
    exact acted_hideNonce hfresh hactor hrecord (hrecorded ref run hrecord) hcreate
  cases hrequest : e.isRequest with
  | false =>
    by_cases hrun : ∃ ref, s.actor model e = some ref ∧ s.state.records ref ≠ none
    -- a step with nobody to take it is refused on both sides
    · obtain ⟨ref, hactor, hsome⟩ := hrun
      refine hacted ref hactor hsome ?_
      rintro scenarioId draw rfl
      cases hrequest
    · have hnone : ∀ ref, s.actor model e = some ref → s.state.records ref = none :=
        fun ref hactor => not_not.mp fun hsome => hrun ⟨ref, hactor, hsome⟩
      rw [step_eq_none hfresh hlinked hrequest hnone]
      refine step_eq_none hfresh.hideNonce hlinked.hideNonce ?_ fun ref hactor => ?_
      · rw [← hrequest]
        cases e <;> rfl
      · rw [actor_hideNonce] at hactor
        simp [hideNonce, hnone ref hactor]
  | true =>
    cases e with
    | request asked =>
      cases hrunId : asked.runId with
      | none =>
        cases asked with
        | createRun scenarioId draw => exact congrArg some (create_hideNonce s scenarioId draw)
        | _ => cases hrunId
      | some runId =>
        cases hruns : s.state.runs runId with
        | none => exact congrArg some (unknown_hideNonce hrunId hruns)
        | some ref =>
          have hactor : s.actor model (.request asked) = some ref := by
            rw [← hruns]
            cases asked <;> cases hrunId <;> rfl
          refine hacted ref hactor (Option.isSome_iff_ne_none.mp (hlinked.registered runId ref hruns))
            ?_
          rintro scenarioId draw heq
          cases heq
          cases hrunId
    | _ => cases hrequest

/-! ## Runs -/

/-- A run of the server under another nonce. -/
theorem run_hideNonce (events : List ServerEvent) :
    Transition.run (step model) {} (events.map ServerEvent.hideNonce) =
      (Transition.run (step model) {} events).map hideNonce := by
  induction events using List.reverseRecOn with
  | nil => rfl
  | append_singleton events e ih =>
    rw [List.map_append, List.map_singleton, Transition.run_concat, Transition.run_concat, ih]
    cases hrun : Transition.run (step model) {} events with
    | none => rfl
    | some s =>
      obtain ⟨hfresh, hlinked⟩ := run_ordered hrun
      refine step_hideNonce hfresh hlinked (fun ref run hrecord => ?_) e
      have hsystem : s.system ref = some (s.view ref run) := by rw [system, hrecord]; rfl
      exact (run_sound hrun hsystem).recorded

end

end Server

end

/-! ## What can be seen -/

/-- Two steps that differ at most in a nonce that is not empty. -/
def ServerEvent.SameButNonce (e e' : ServerEvent) : Prop :=
  e'.hideNonce = e.hideNonce

/-- No view of a run shows a nonce. -/
theorem toRunView_hideNonce (run : RunRecord) : toRunView run.hideNonce = toRunView run := by
  have hcapability : toSafeCapabilityView run.hideNonce = toSafeCapabilityView run := by
    rw [toSafeCapabilityView, toSafeCapabilityView, RunRecord.hideNonce, Option.map_map]
    rfl
  simp only [toRunView, hcapability]
  rfl

namespace Server

/-- The answers to all requests so far, each under its request and its run. -/
def answerEntries (s : Server) : List (RequestId × Option RunRef × Except RequestError Unit) :=
  s.trace.filterMap fun entry =>
    entry.observation.answer.map fun answer => (entry.request, entry.run, answer)

/-- What the clients of two servers get to see: the runs by id, the view and the ledger
    of every run, and the answers to all requests so far. -/
structure LooksLike (s s' : Server) : Prop where
  runs : s'.state.runs = s.state.runs
  views : ∀ ref, (s'.state.records ref).map toRunView = (s.state.records ref).map toRunView
  ledgers : ∀ ref, (s'.state.records ref).map (·.ledger) = (s.state.records ref).map (·.ledger)
  answers : s'.answerEntries = s.answerEntries

/-- A server looks as it does under another nonce. -/
theorem looksLike_hideNonce (s : Server) : LooksLike s s.hideNonce where
  runs := rfl
  views ref := by
    rw [hideNonce_record, Option.map_map]
    congr 1
    funext run
    exact toRunView_hideNonce run
  ledgers ref := by
    rw [hideNonce_record, Option.map_map]
    rfl
  answers := by
    have hanswer : ∀ observation : RunObservation,
        observation.hideNonce.answer = observation.answer := by
      intro observation
      cases observation <;> rfl
    simp only [answerEntries, hideNonce, List.filterMap_map, Function.comp_def, hanswer]

/-- To look alike is symmetric. -/
theorem LooksLike.symm {s s' : Server} (h : LooksLike s s') : LooksLike s' s where
  runs := h.runs.symm
  views ref := (h.views ref).symm
  ledgers ref := (h.ledgers ref).symm
  answers := h.answers.symm

/-- To look alike is transitive. -/
theorem LooksLike.trans {s s' s'' : Server} (h : LooksLike s s') (h' : LooksLike s' s'') :
    LooksLike s s'' where
  runs := h'.runs.trans h.runs
  views ref := (h'.views ref).trans (h.views ref)
  ledgers ref := (h'.ledgers ref).trans (h.ledgers ref)
  answers := h'.answers.trans h.answers

/-- Two histories that differ only in the nonces they draw look the same after any number
    of steps: they get equally far, and show the same views, ledgers and answers. -/
theorem nonces_stay_inside [Host] {model : ModelAdapter} {events events' : List ServerEvent}
    (hsame : List.Forall₂ ServerEvent.SameButNonce events events') (n : Nat) :
    Option.Rel LooksLike (Transition.run (step model) {} (events.take n))
      (Transition.run (step model) {} (events'.take n)) := by
  have hhidden : (events'.take n).map ServerEvent.hideNonce =
      (events.take n).map ServerEvent.hideNonce := by
    rw [← List.forall₂_eq_eq_eq, List.forall₂_map_left_iff, List.forall₂_map_right_iff]
    exact (List.forall₂_take n hsame).flip
  have hrun : Transition.run (step model) {} _ = _ := run_hideNonce (events.take n)
  have hrun' : Transition.run (step model) {} _ = _ := run_hideNonce (events'.take n)
  -- hidden, both runs are the same run
  rw [hhidden, hrun] at hrun'
  cases hleft : Transition.run (step model) {} (events.take n) with
  | none =>
    rw [hleft] at hrun'
    rw [Option.map_eq_none_iff.mp hrun'.symm]
    exact .none
  | some s =>
    rw [hleft] at hrun'
    obtain ⟨s', hs', hhides⟩ := Option.map_eq_some_iff.mp hrun'.symm
    rw [hs']
    have hlooks : LooksLike s s'.hideNonce := hhides ▸ looksLike_hideNonce s
    exact .some (hlooks.trans (looksLike_hideNonce s').symm)

end Server

/-! ## Two nonces -/

namespace Sample

section
attribute [local instance] node

/-- The message of `approvedMessage`, with another nonce. -/
def approvedMessageOtherNonce : List ServerEvent :=
  [.request (.createRun (js "approval") createDraw),
    .request (.approveRun (js "run_000001")
      { approvalId := js "appr_000001"
        expiryNow := now
        approvedAt := now
        consumedAt := now
        stamp := stamp "evt_consumed"
        lastActionAt := now
        authorize := { authorizeDraw with mint := ⟨js "cap_000001", js "secret", now⟩ } })]

/-- Two runs of an approved message that draw different nonces look alike. -/
theorem approvedMessage_nonce_inside :
    ∃ s s', Transition.run (Server.step FakeModelAdapter.propose) {} approvedMessage = some s ∧
      Transition.run (Server.step FakeModelAdapter.propose) {} approvedMessageOtherNonce = some s' ∧
      Server.LooksLike s s' := by
  have hsame : List.Forall₂ ServerEvent.SameButNonce approvedMessage approvedMessageOtherNonce :=
    .cons rfl (.cons rfl .nil)
  have hlooks : Option.Rel Server.LooksLike
      (Transition.run (Server.step FakeModelAdapter.propose) {} (approvedMessage.take 2)) _ :=
    Server.nonces_stay_inside hsame 2
  have hsome : (Transition.run (Server.step FakeModelAdapter.propose) {}
      (approvedMessage.take 2)).isSome := by
    decide +kernel
  obtain ⟨s, hs⟩ := Option.isSome_iff_exists.mp hsome
  rw [hs] at hlooks
  generalize hs' : Transition.run (Server.step FakeModelAdapter.propose) {}
    (approvedMessageOtherNonce.take 2) = outcome at hlooks
  cases hlooks with
  | some hlooks => exact ⟨s, _, hs, hs', hlooks⟩

end

end Sample

end ActionHarbor
