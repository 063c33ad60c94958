import ActionHarbor.Spec.Receipts
import ActionHarbor.Spec.RunEffects
import ActionHarbor.Spec.WorldSteps

/-!
# What a step reads of the registry

A capability survives the way through its own schema, and a call looks up no other
entry of the registry than that of its capability. So a step on a run reads and
writes only the entry of the run's own capability.

## Key results

- `Capability.safeParse_toJsValue_eq_some`: the schema gives back what was printed
- `RunRecord.effect_congr`: the effect of a step under registries that agree on that entry
- `RunRecord.effect_registry`: the entries it leaves alone
-/

namespace ActionHarbor

section
variable [Host]

/-! ## Capabilities through their schema -/

/-- A capability the schema accepts. -/
structure Capability.Valid (capability : Capability) : Prop where
  id : 1 ≤ capability.id.length
  principalId : 1 ≤ capability.principalId.length
  resourceId : 1 ≤ capability.resourceId.length
  proposalHash : 1 ≤ capability.proposalHash.length
  expiresAt : Host.isoDatetime capability.expiresAt = true
  nonce : 1 ≤ capability.nonce.length

omit [Host] in
/-- Every action type is read back from its own text. -/
@[simp] theorem ActionType.enum_toJs (actionType : ActionType) :
    Zod.enum ActionType.options ActionType.toJs (.string actionType.toJs) = some actionType := by
  cases actionType <;> decide

omit [Host] in
/-- Every status is read back from its own text. -/
@[simp] theorem CapabilityStatus.enum_toJs (status : CapabilityStatus) :
    Zod.enum CapabilityStatus.options CapabilityStatus.toJs (.string status.toJs) =
      some status := by
  cases status <;> decide

/-- Parsing a printed capability gives it back, if the schema accepts it. -/
theorem Capability.safeParse_toJsValue_eq_some {capability parsed : Capability} :
    Capability.safeParse capability.toJsValue = some parsed ↔
      parsed = capability ∧ capability.Valid := by
  simp only [safeParse, Option.bind_eq_bind, Option.bind_eq_some_iff, Zod.strictObject_eq_some,
    Zod.nonEmptyString, Zod.boundedString_eq_some, Zod.isoDatetime_eq_some, Option.some.injEq,
    toJsValue]
  constructor
  · rintro ⟨props, ⟨hprops, -⟩, id, hid, principalId, hprincipal, actionType, haction, resourceId,
      hresource, proposalHash, hproposal, expiresAt, hexpires, nonce, hnonce, status, hstatus, rfl⟩
    cases hprops
    -- each property is read back as it was written
    simp at hid hprincipal haction hresource hproposal hexpires hnonce hstatus
    obtain ⟨rfl, hid⟩ := hid
    obtain ⟨rfl, hprincipal⟩ := hprincipal
    obtain ⟨rfl, hresource⟩ := hresource
    obtain ⟨rfl, hproposal⟩ := hproposal
    obtain ⟨rfl, hexpires⟩ := hexpires
    obtain ⟨rfl, hnonce⟩ := hnonce
    subst haction hstatus
    exact ⟨rfl, hid, hprincipal, hresource, hproposal, hexpires, hnonce⟩
  · rintro ⟨rfl, hvalid⟩
    refine ⟨_, ⟨.object, ?_⟩, _, ⟨?_, hvalid.id, ?_⟩, _, ⟨?_, hvalid.principalId, ?_⟩, _, ?_, _,
      ⟨?_, hvalid.resourceId, ?_⟩, _, ⟨?_, hvalid.proposalHash, ?_⟩, _, ⟨?_, hvalid.expiresAt⟩, _,
      ⟨?_, hvalid.nonce, ?_⟩, _, ?_, rfl⟩
    all_goals simp [keys]

/-- So a check of a printed capability checks the capability. -/
theorem parseAndValidateCapability_toJsValue {capability parsed : Capability}
    {request : CapabilityRequest} {now : Instant} :
    parseAndValidateCapability capability.toJsValue request now = .ok parsed ↔
      parsed = capability ∧ capability.Valid ∧ validateCapability capability request now = .ok () := by
  rw [parseAndValidateCapability_eq_ok, Capability.safeParse_toJsValue_eq_some, and_assoc]
  constructor
  · rintro ⟨rfl, hvalid, hvalidate⟩
    exact ⟨rfl, hvalid, hvalidate⟩
  · rintro ⟨rfl, hvalid, hvalidate⟩
    exact ⟨rfl, hvalid, hvalidate⟩

/-! ## Two registries that agree on one entry -/

/-- The same shared objects, but for entries of the registry under other ids. -/
structure SameShared (id : JsString) (shared shared' : Shared) : Prop where
  registry : shared'.registry.byId id = shared.registry.byId id
  operationStore : shared'.operationStore = shared.operationStore
  ledger : shared'.ledger = shared.ledger

/-- So does a call, and it stands where the other does. -/
structure SameCall (id : JsString) (result result' : Shared × CallProgress) : Prop where
  shared : SameShared id result.1 result'.1
  progress : result'.2 = result.2

omit [Host] in
/-- Consuming the capability with this id. -/
theorem CapabilityRegistry.consume_congr {registry registry' : CapabilityRegistry}
    {id : JsString} (h : registry'.byId id = registry.byId id) (nonce : JsString) :
    (∃ reasonCode, registry.consume id nonce = .error reasonCode ∧
      registry'.consume id nonce = .error reasonCode) ∨
    ∃ next next', registry.consume id nonce = .ok next ∧ registry'.consume id nonce = .ok next' ∧
      next'.byId id = next.byId id := by
  rw [consume, consume, h]
  cases registry.byId id with
  | none => exact .inl ⟨_, rfl, rfl⟩
  | some stored =>
    dsimp only
    split
    · exact .inl ⟨_, rfl, rfl⟩
    split
    · exact .inl ⟨_, rfl, rfl⟩
    · refine .inr ⟨_, _, rfl, rfl, ?_⟩
      simp

/-- Two calls that append the same row go on alike if what follows the row does. -/
private theorem SameCall.withAudit {id operationId : JsString} {shared shared' : Shared}
    {type : AuditEventType} {payload : List (JsString × JsValue)} {stamp : Stamp}
    {next : Shared → AuditLedgerEntry → Shared × CallProgress} (h : SameShared id shared shared')
    (hnext : ∀ shared shared' entry, SameShared id shared shared' →
      SameCall id (next shared entry) (next shared' entry)) :
    SameCall id (ActionHarbor.withAudit shared operationId type payload stamp next)
      (ActionHarbor.withAudit shared' operationId type payload stamp next) := by
  rw [withAudit_def, withAudit_def, h.ledger]
  cases audit shared.ledger operationId type payload stamp with
  | error error => exact ⟨h, rfl⟩
  | ok result => exact hnext _ _ _ ⟨h.registry, h.operationStore, rfl⟩

/-- The synchronous part of a call reads one entry of the registry. -/
theorem executeAction_congr {shared shared' : Shared} {input : ExecuteActionInput}
    {capability : Capability} (hraw : input.capabilityRaw = capability.toJsValue)
    (h : SameShared capability.id shared shared') (reads : CallReads) :
    SameCall capability.id (executeAction shared input reads)
      (executeAction shared' input reads) := by
  rw [executeAction, executeAction, hraw, h.operationStore]
  -- up to `consume`, nothing but the store and the ledger is read
  cases hparse : parseAndValidateCapability capability.toJsValue input.request reads.now with
  | error reasonCode => exact ⟨h, rfl⟩
  | ok parsed =>
    obtain ⟨rfl, -, -⟩ := parseAndValidateCapability_toJsValue.mp hparse
    dsimp only
    cases checkPreconditions parsed input.precondition with
    | error reasonCodes => exact .withAudit h fun _ _ _ h => ⟨h, rfl⟩
    | ok _ =>
      dsimp only
      cases hashCanonical input.params with
      | error error => exact ⟨h, rfl⟩
      | ok payloadHash =>
        dsimp only
        cases shared.operationStore.check input.operation.idempotencyKey payloadHash with
        | conflict => exact .withAudit h fun _ _ _ h => ⟨h, rfl⟩
        | duplicate prior =>
          dsimp only [reconcileDuplicate]
          split
          · exact .withAudit h fun _ _ _ h => ⟨h, rfl⟩
          split
          · exact ⟨h, rfl⟩
          · exact ⟨h, rfl⟩
        | new =>
          dsimp only [executeFresh]
          rcases CapabilityRegistry.consume_congr h.registry parsed.nonce with
            ⟨reasonCode, hconsume, hconsume'⟩ | ⟨next, next', hconsume, hconsume', hsame⟩
          · rw [hconsume, hconsume']
            exact ⟨h, rfl⟩
          · rw [hconsume, hconsume']
            exact .withAudit ⟨hsame, h.operationStore, h.ledger⟩ fun _ _ _ h => ⟨h, rfl⟩

/-- And writes no other. -/
theorem executeAction_registry {shared : Shared} {input : ExecuteActionInput}
    {capability : Capability} (hraw : input.capabilityRaw = capability.toJsValue)
    (reads : CallReads) {id : JsString} (hne : id ≠ capability.id) :
    (executeAction shared input reads).1.registry.byId id = shared.registry.byId id := by
  have hcases := executeAction_cases shared input reads
  generalize executeAction shared input reads = result at hcases
  obtain ⟨shared', progress⟩ := result
  cases hcases with
  | entered parsed payloadHash registry entry hguards hhash hnew hconsume =>
    have hparse := hguards.1
    rw [hraw] at hparse
    obtain ⟨rfl, -, -⟩ := parseAndValidateCapability_toJsValue.mp hparse
    obtain ⟨stored, -, -, -, hregistry⟩ := CapabilityRegistry.consume_eq_ok hconsume
    exact (congrFun hregistry id).trans (Function.update_of_ne hne _ _)
  | _ => rfl

/-! ## Turns -/

/-- Two registries have the same entry for the capability of a run, if it has one. -/
def RunRecord.Agree (run : RunRecord) (registry registry' : CapabilityRegistry) : Prop :=
  ∀ capability, run.capability = some capability →
    registry'.byId capability.id = registry.byId capability.id

/-- Turns that differ in other entries of the registry at most. -/
structure SameTurn (turn turn' : Turn) : Prop where
  run : turn'.run = turn.run
  minted : turn'.minted = turn.minted
  progress : turn'.progress = turn.progress
  registry : turn.run.Agree turn.registry turn'.registry

omit [Host] in
/-- Calling the adapter of a run leaves its capability as it is. -/
theorem RunRecord.invokeAdapter_capability (run : RunRecord) (progress : CallProgress) :
    (run.invokeAdapter progress).capability = run.capability := by
  unfold invokeAdapter
  split <;> rfl

/-- The call of a run with its own capability. -/
theorem executeForRun_congr {registry registry' : CapabilityRegistry} {run : RunRecord}
    {capability : Capability} (hcapability : run.capability = some capability)
    (h : run.Agree registry registry') (reads : CallReads) :
    SameTurn (executeForRun registry run capability reads)
      (executeForRun registry' run capability reads) := by
  rw [executeForRun, executeForRun]
  cases run.postcondition with
  | none => exact ⟨rfl, rfl, rfl, h⟩
  | some postcondition =>
    have hsame : SameShared capability.id ⟨registry, run.operationStore, run.ledger⟩
        ⟨registry', run.operationStore, run.ledger⟩ := ⟨h capability hcapability, rfl, rfl⟩
    have hraw : (run.callInput capability postcondition).capabilityRaw = capability.toJsValue := rfl
    have hcall := executeAction_congr hraw hsame reads
    -- the run's own capability is the only entry that has to agree
    dsimp only
    refine ⟨?_, rfl, ?_, fun own hown => ?_⟩
    · simp only [hcall.progress, hcall.shared.operationStore, hcall.shared.ledger]
    · simp only [hcall.progress]
    · rw [RunRecord.invokeAdapter_capability] at hown
      obtain rfl := Option.some.inj (hcapability.symm.trans hown)
      exact hcall.shared.registry

/-- Two turns that append the same row go on alike if what follows the row does. -/
private theorem SameTurn.withEvent {registry registry' : CapabilityRegistry} {run : RunRecord}
    {input : AuditEventInput} {stamp : Stamp} {next next' : RunRecord → Turn}
    (h : run.Agree registry registry')
    (hnext : ∀ ledger, SameTurn (next { run with ledger := ledger })
      (next' { run with ledger := ledger })) :
    SameTurn (ActionHarbor.withEvent registry run input stamp next)
      (ActionHarbor.withEvent registry' run input stamp next') := by
  rw [ActionHarbor.withEvent, ActionHarbor.withEvent]
  cases run.ledger.append input stamp with
  | error error => exact ⟨rfl, rfl, rfl, h⟩
  | ok result => exact hnext result.1

omit [Host] in
/-- Two turns that make the same transition go on alike if what follows it does. -/
private theorem SameTurn.withTransition {registry registry' : CapabilityRegistry}
    {run : RunRecord} {trigger : RunStateTrigger} {next next' : RunRecord → Turn}
    (h : run.Agree registry registry')
    (hnext : ∀ state, SameTurn (next { run with state := state })
      (next' { run with state := state })) :
    SameTurn (ActionHarbor.withTransition registry run trigger next)
      (ActionHarbor.withTransition registry' run trigger next') := by
  rw [ActionHarbor.withTransition, ActionHarbor.withTransition]
  cases mustTransition run.state trigger with
  | error error => exact ⟨rfl, rfl, rfl, h⟩
  | ok state => exact hnext state

omit [Host] in
/-- Two turns that are alike stay alike with the same capability minted. -/
private theorem SameTurn.mint {turn turn' : Turn} (h : SameTurn turn turn')
    (capability : Capability) :
    SameTurn { turn with minted := some capability } { turn' with minted := some capability } :=
  ⟨h.run, rfl, h.progress, h.registry⟩

omit [Host] in
/-- The `CAPABILITY_MINTED` event. -/
def Capability.mintedEvent (capability : Capability) (operationId : JsString) :
    AuditEventInput where
  type := .capabilityMinted
  actor := ⟨.server, js "capability-minter-v1"⟩
  subject := ⟨.capability, capability.id⟩
  payload := [(js "actionType", .string capability.actionType.toJs),
    (js "resourceId", .string capability.resourceId),
    (js "expiresAt", .string capability.expiresAt)]
  operationId := some operationId

/-- `authorizeAndExecute` once it has a capability. -/
theorem authorizeAndExecute_eq {registry : CapabilityRegistry} {run : RunRecord}
    {evidence : AuthorizationEvidence} {draw : AuthorizeDraw} {capability : Capability}
    (h : mintCapability evidence run.request draw.mint 60000 = .ok capability) :
    authorizeAndExecute registry run evidence draw =
      { withEvent registry run (capability.mintedEvent run.operationId) draw.stamp fun run =>
          executeForRun (registry.record capability) { run with capability := some capability }
            capability draw.reads with
        minted := some capability } := by
  rw [authorizeAndExecute, h]
  rfl

/-- Minting writes the entry before the call reads it. -/
theorem authorizeAndExecute_congr {registry registry' : CapabilityRegistry} {run : RunRecord}
    (h : run.Agree registry registry') (evidence : AuthorizationEvidence) (draw : AuthorizeDraw) :
    SameTurn (authorizeAndExecute registry run evidence draw)
      (authorizeAndExecute registry' run evidence draw) := by
  cases hmint : mintCapability evidence run.request draw.mint 60000 with
  | error reasonCode =>
    rw [authorizeAndExecute, authorizeAndExecute, hmint]
    exact ⟨rfl, rfl, rfl, h⟩
  | ok capability =>
    rw [authorizeAndExecute_eq hmint, authorizeAndExecute_eq hmint]
    refine .mint (.withEvent h fun ledger => ?_) capability
    refine executeForRun_congr rfl (fun own hown => ?_) draw.reads
    obtain rfl := Option.some.inj hown
    simp [CapabilityRegistry.record]

/-- Where the verdict leads a new run. -/
theorem followVerdict_congr {registry registry' : CapabilityRegistry} {run : RunRecord}
    (h : run.Agree registry registry') (draw : AuthorizeDraw) :
    SameTurn (followVerdict registry run draw) (followVerdict registry' run draw) := by
  rw [followVerdict, followVerdict]
  cases run.policyVerdict.outcome with
  | deny | requireApproval => exact .withTransition h fun _ => ⟨rfl, rfl, rfl, h⟩
  | allow =>
    refine .withTransition h fun state => ?_
    have hnext : ({ run with state := state } : RunRecord).Agree registry registry' := h
    exact authorizeAndExecute_congr hnext _ draw

/-! ## Effects -/

/-- Effects that differ in other entries of the registry at most. -/
structure SameEffect (effect effect' : RunEffect) : Prop where
  run : effect'.run = effect.run
  stage : effect'.stage = effect.stage
  promise : effect'.promise = effect.promise
  observations : effect'.observations = effect.observations
  registry : effect.run.Agree effect.registry effect'.registry

omit [Host] in
/-- Turns that are alike have effects that are alike. -/
theorem SameTurn.effect {turn turn' : Turn} (h : SameTurn turn turn') :
    SameEffect (.ofTurn turn) (.ofTurn turn') where
  run := h.run
  stage := by simp only [RunEffect.ofTurn, Turn.stage, h.progress]
  promise := by simp only [RunEffect.ofTurn, Turn.promise, h.progress, h.run]
  observations := by simp only [RunEffect.ofTurn, Turn.observations, h.progress, h.minted]
  registry := h.registry

/-- `approveRun` under two registries. -/
private theorem approveRun_congr {registry registry' : CapabilityRegistry} {run : RunRecord}
    (h : run.Agree registry registry') (draw : ApproveDraw) :
    SameEffect (.take registry run (approveRun registry run draw))
      (.take registry' run (approveRun registry' run draw)) := by
  rw [approveRun, approveRun]
  split
  · exact ⟨rfl, rfl, rfl, rfl, h⟩
  dsimp only
  cases consumeApproval (run.newApproval draw) ⟨run.proposalHash, run.actionType, run.resourceId⟩
      draw.consumedAt with
  | error reasonCode => exact ⟨rfl, rfl, rfl, rfl, h⟩
  | ok consumed =>
    refine SameTurn.effect (.withEvent h fun ledger => .withTransition h fun state => ?_)
    have hnext : ∀ lastActionAt, ({ run with
        ledger := ledger
        approval := some consumed
        state := state
        lastActionAt := lastActionAt } : RunRecord).Agree registry registry' := fun _ => h
    exact authorizeAndExecute_congr (hnext _) _ draw.authorize

/-- So are replays. -/
private theorem replayRun_congr {registry registry' : CapabilityRegistry} {run : RunRecord}
    (h : run.Agree registry registry') (reads : CallReads) :
    SameEffect (.take registry run (replayRun registry run reads))
      (.take registry' run (replayRun registry' run reads)) := by
  rw [replayRun, replayRun]
  split
  · rename_i capability hstate hcapability
    exact (executeForRun_congr hcapability h reads).effect
  · exact ⟨rfl, rfl, rfl, rfl, h⟩

/-- And reconciliations. -/
private theorem reconcileRun_congr {registry registry' : CapabilityRegistry} {run : RunRecord}
    (h : run.Agree registry registry') (reads : CallReads) :
    SameEffect (.take registry run (reconcileRun registry run reads))
      (.take registry' run (reconcileRun registry' run reads)) := by
  rw [reconcileRun, reconcileRun]
  split
  · exact ⟨rfl, rfl, rfl, rfl, h⟩
  · cases hcapability : run.capability with
    | none => exact ⟨rfl, rfl, rfl, rfl, h⟩
    | some capability => exact (executeForRun_congr hcapability h reads).effect

omit [Host] in
/-- A settled call over another registry. -/
def overRegistry (registry : CapabilityRegistry) (result : Shared × Settled) : Shared × Settled :=
  ({ result.1 with registry := registry }, result.2)

/-- Recording an operation and appending its row do not touch the registry. -/
private theorem recordAndAudit_registry (registry registry' : CapabilityRegistry)
    (store : OperationStore) (ledger : AuditLedger) (record : OperationRecord)
    (operationId : JsString) (type : AuditEventType) (payload : List (JsString × JsValue))
    (stamp : Stamp) (result : AuditLedgerEntry → ExecuteActionResult) :
    recordAndAudit ⟨registry', store, ledger⟩ record operationId type payload stamp result =
      overRegistry registry' (recordAndAudit ⟨registry, store, ledger⟩ record operationId type
        payload stamp result) := by
  rw [recordAndAudit_def, recordAndAudit_def]
  dsimp only
  cases audit ledger operationId type payload stamp <;> rfl

/-- Finalizing a receipt does not touch the registry. -/
private theorem finalizeFromReceipt_registry (registry registry' : CapabilityRegistry)
    (store : OperationStore) (ledger : AuditLedger) (input : ExecuteActionInput)
    (receipt : JsValue) (payloadHash capabilityId : JsString) (reconciled : Bool)
    (auditEvents : List AuditLedgerEntry) (stamp : Stamp) :
    finalizeFromReceipt ⟨registry', store, ledger⟩ input receipt payloadHash capabilityId
        reconciled auditEvents stamp =
      overRegistry registry' (finalizeFromReceipt ⟨registry, store, ledger⟩ input receipt
        payloadHash capabilityId reconciled auditEvents stamp) := by
  rw [finalizeFromReceipt, finalizeFromReceipt]
  split <;> exact recordAndAudit_registry registry registry' ..

/-- The continuation of a call does not look at the registry. -/
theorem Waiting.resume_registry (waiting : Waiting) (wakeup : Wakeup)
    (registry registry' : CapabilityRegistry) (store : OperationStore) (ledger : AuditLedger)
    (stamp : Stamp) :
    waiting.resume wakeup ⟨registry', store, ledger⟩ stamp =
      (waiting.resume wakeup ⟨registry, store, ledger⟩ stamp).map (overRegistry registry') := by
  -- no continuation reads the registry
  cases waiting with
  | executing call =>
    cases wakeup with
    | executeResolved receipt =>
      simp only [resume, afterRace, Option.map_some]
      rw [finalizeFromReceipt_registry registry registry']
    | executeRejected error =>
      simp only [resume, afterRace, Option.map_some]
      cases error.errorMessage <;> rfl
    | timerFired =>
      simp only [resume, afterRace, Option.map_some]
      rw [recordAndAudit_registry registry registry']
    | refusalDelivered | lookupSettled _ => rfl
  | refused call reasonCode => cases wakeup <;> rfl
  | lookingUp call =>
    cases wakeup with
    | lookupSettled answer =>
      cases answer with
      | rejected => rfl
      | resolved value =>
        simp only [resume, afterLookup, Option.map_some]
        cases value.getProp (js "status") with
        | none => rfl
        | some status =>
          dsimp only
          split
          · cases audit ledger call.input.operation.operationId .reconciliationRequired
              (reasonCodePayload VerificationReasonCode.unknownOutcome.toJs) stamp <;> rfl
          · rw [finalizeFromReceipt_registry registry registry']
    | executeResolved _ | executeRejected _ | timerFired | refusalDelivered => rfl

/-- The end of a wait under two registries. -/
private theorem RunRecord.wakeEffect_congr {registry registry' : CapabilityRegistry}
    {run : RunRecord} (h : run.Agree registry registry') (stage : Option RequestStage)
    (promise : Option AdapterPromise) (wakeup : Wakeup) (stamp : Stamp) :
    Option.Rel SameEffect (run.wakeEffect registry stage promise wakeup stamp)
      (run.wakeEffect registry' stage promise wakeup stamp) := by
  unfold wakeEffect
  split
  · rename_i waiting
    rw [waiting.resume_registry wakeup registry registry']
    cases hresume : waiting.resume wakeup ⟨registry, run.operationStore, run.ledger⟩ stamp with
    | none => exact .none
    | some result =>
      have hregistry : result.1.registry = registry := (resume_cases hresume).registry_eq
      obtain ⟨shared, settled⟩ := result
      refine .some ⟨rfl, rfl, rfl, rfl, fun capability hcapability => ?_⟩
      exact (h capability hcapability).trans (by rw [← hregistry])
  · exact .none

/-- Finishing an execution leaves the capability of the run as it is. -/
theorem finishExecution_capability (run : RunRecord) (settled : Settled) (now : Instant) :
    (finishExecution run settled now).1.capability = run.capability := by
  unfold finishExecution
  split
  · rfl
  · split <;> rfl

/-- The effect of a step under two registries that agree on the capability of its run. -/
theorem RunRecord.effect_congr {registry registry' : CapabilityRegistry} {run : RunRecord}
    (h : run.Agree registry registry') (stage : Option RequestStage)
    (promise : Option AdapterPromise) (e : ServerEvent) :
    Option.Rel SameEffect (run.effect registry stage promise e)
      (run.effect registry' stage promise e) := by
  cases e with
  | request request =>
    cases request with
    | createRun => exact .none
    | approveRun _ draw => exact .some (approveRun_congr h draw)
    | replayRun _ reads => exact .some (replayRun_congr h reads)
    | reconcileRun _ reads => exact .some (reconcileRun_congr h reads)
    -- the last two do not read the registry
    | simulateDrift _ now =>
      refine .some ?_
      cases hdrift : simulateDrift run now with
      | error error => exact ⟨rfl, rfl, rfl, rfl, h⟩
      | ok drifted =>
        obtain ⟨-, rfl⟩ := simulateDrift_eq_ok hdrift
        exact ⟨rfl, rfl, rfl, rfl, h⟩
    | verifyRunLedger _ stamp =>
      refine .some ?_
      cases hverify : verifyRunLedger run stamp with
      | error error => exact ⟨rfl, rfl, rfl, rfl, h⟩
      | ok result =>
        obtain ⟨checked, result⟩ := result
        obtain ⟨row, -, rfl⟩ := verifyRunLedger_eq_ok hverify
        exact ⟨rfl, rfl, rfl, rfl, h⟩
  | execute c draw =>
    simp only [effect]
    split
    · exact .some ⟨rfl, rfl, rfl, rfl, h⟩
    · exact .none
  | deliver c stamp =>
    simp only [effect]
    cases promise with
    | none => exact .none
    | some own =>
      simp only [Option.bind_some]
      cases own.wakeup with
      | none => exact .none
      | some wakeup => exact wakeEffect_congr h stage _ wakeup stamp
  | timeout c stamp => exact wakeEffect_congr h stage promise .timerFired stamp
  | refuse c stamp => exact wakeEffect_congr h stage promise .refusalDelivered stamp
  | resume c now =>
    simp only [effect]
    split
    · rename_i settled
      refine .some ⟨rfl, rfl, rfl, rfl, fun capability hcapability => h capability ?_⟩
      rwa [finishExecution_capability] at hcapability
    · exact .none

/-! ## What a step writes -/

/-- What a step does to the capability of its run and to the registry: the run keeps what
    it has, or its capability is minted in this step, and no other entry changes. -/
structure RegistryEffect (registry : CapabilityRegistry) (held : Option Capability)
    (effect : RunEffect) : Prop where
  capability : effect.run.capability = held ∨
    ∃ capability ∈ mintedCapabilities effect.observations,
      effect.run.capability = some capability
  /-- entries are not removed -/
  kept : ∀ id, registry.byId id ≠ none → effect.registry.byId id ≠ none
  /-- a capability that is new to the run is recorded -/
  recorded : ∀ capability, effect.run.capability = some capability →
    held = some capability ∨ effect.registry.byId capability.id ≠ none
  others : ∀ id, (∀ capability, effect.run.capability = some capability → id ≠ capability.id) →
    effect.registry.byId id = registry.byId id

omit [Host] in
/-- A step that leaves the registry and the run's capability alone. -/
private theorem RegistryEffect.quiet {registry : CapabilityRegistry} {held : Option Capability}
    {effect : RunEffect} (hregistry : effect.registry = registry)
    (hcapability : effect.run.capability = held) : RegistryEffect registry held effect where
  capability := .inl hcapability
  kept _ h := hregistry ▸ h
  recorded _ h := .inl (hcapability ▸ h)
  others _ _ := by rw [hregistry]

/-- No entry is removed by a call. -/
theorem executeAction_kept {shared : Shared} {input : ExecuteActionInput} (reads : CallReads)
    {id : JsString} (h : shared.registry.byId id ≠ none) :
    (executeAction shared input reads).1.registry.byId id ≠ none := by
  have hcases := executeAction_cases shared input reads
  generalize executeAction shared input reads = result at hcases
  obtain ⟨shared', progress⟩ := result
  cases hcases with
  | entered parsed payloadHash registry entry hguards hhash hnew hconsume =>
    obtain ⟨stored, -, -, -, hregistry⟩ := CapabilityRegistry.consume_eq_ok hconsume
    have hentry : registry.byId id ≠ none := by
      rw [hregistry]
      by_cases hid : id = parsed.id
      · rw [hid, Function.update_self]
        exact Option.some_ne_none _
      · rwa [Function.update_of_ne hid]
    exact hentry
  | _ => exact h

/-- Executing for a run leaves its capability as it is. -/
theorem executeForRun_capability (registry : CapabilityRegistry) (run : RunRecord)
    (capability : Capability) (reads : CallReads) :
    (executeForRun registry run capability reads).run.capability = run.capability := by
  rw [executeForRun]
  cases run.postcondition with
  | none => rfl
  | some postcondition => exact RunRecord.invokeAdapter_capability _ _

/-- The call of a run with its own capability. -/
private theorem executeForRun_writes (registry : CapabilityRegistry) {run : RunRecord}
    {capability : Capability} (hcapability : run.capability = some capability)
    (reads : CallReads) :
    RegistryEffect registry run.capability
      (.ofTurn (executeForRun registry run capability reads)) := by
  have hown := executeForRun_capability registry run capability reads
  -- a call consumes its own capability and adds none
  refine ⟨.inl hown, ?_, fun _ h => .inl (hown.symm.trans h), ?_⟩
  · intro id h
    rw [executeForRun]
    cases run.postcondition with
    | none => exact h
    | some postcondition => exact executeAction_kept reads h
  · intro id hother
    have hne : id ≠ capability.id := hother capability (hown.trans hcapability)
    rw [executeForRun]
    cases run.postcondition with
    | none => rfl
    | some postcondition =>
      have hraw : (run.callInput capability postcondition).capabilityRaw =
          capability.toJsValue := rfl
      exact executeAction_registry hraw reads hne

/-- Minting records the capability and then makes the call. -/
private theorem authorizeAndExecute_writes (registry : CapabilityRegistry) {run : RunRecord}
    {held : Option Capability} (hrun : run.capability = held) (evidence : AuthorizationEvidence)
    (draw : AuthorizeDraw) :
    RegistryEffect registry held (.ofTurn (authorizeAndExecute registry run evidence draw)) := by
  subst hrun
  have hcases := authorizeAndExecute_cases registry run evidence draw
  generalize authorizeAndExecute registry run evidence draw = turn at hcases
  cases hcases with
  | unminted => exact .quiet rfl rfl
  | minted capability entry hmint htype =>
    have hheld : ({ run.appendRows [entry] with capability := some capability } :
        RunRecord).capability = some capability := rfl
    have hcall := executeForRun_writes (registry.record capability) hheld draw.reads
    have howned := (executeForRun_capability (registry.record capability) _ capability
      draw.reads).trans hheld
    generalize executeForRun (registry.record capability) _ capability draw.reads = turn
      at hcall howned ⊢
    have hentry : (registry.record capability).byId capability.id ≠ none := by
      simp [CapabilityRegistry.record]
    -- what the mint has recorded, the call's own writes keep
    refine ⟨.inr ⟨capability, ?_, howned⟩, fun id h => hcall.kept id ?_, fun own hown => ?_,
      fun id hother => ?_⟩
    · simp [RunEffect.ofTurn, Turn.observations]
    · by_cases hid : id = capability.id
      · exact hid ▸ hentry
      · simpa [CapabilityRegistry.record, Function.update_of_ne hid] using h
    · obtain rfl := Option.some.inj (howned.symm.trans hown)
      exact .inr (hcall.kept _ hentry)
    · have hid : id ≠ capability.id := hother capability howned
      refine (hcall.others id hother).trans ?_
      exact Function.update_of_ne hid _ _

/-- A turn that appends a row has the registry effect of what follows. -/
private theorem RegistryEffect.withEvent {registry : CapabilityRegistry} {run : RunRecord}
    {held : Option Capability} {input : AuditEventInput} {stamp : Stamp} {next : RunRecord → Turn}
    (hrun : run.capability = held)
    (hnext : ∀ ledger, RegistryEffect registry held
      (.ofTurn (next { run with ledger := ledger }))) :
    RegistryEffect registry held
      (.ofTurn (ActionHarbor.withEvent registry run input stamp next)) := by
  rw [ActionHarbor.withEvent]
  cases run.ledger.append input stamp with
  | error error => exact .quiet rfl hrun
  | ok result => exact hnext result.1

omit [Host] in
/-- A turn that moves the run has the registry effect of what follows. -/
private theorem RegistryEffect.withTransition {registry : CapabilityRegistry} {run : RunRecord}
    {held : Option Capability} {trigger : RunStateTrigger} {next : RunRecord → Turn}
    (hrun : run.capability = held)
    (hnext : ∀ state, RegistryEffect registry held
      (.ofTurn (next { run with state := state }))) :
    RegistryEffect registry held
      (.ofTurn (ActionHarbor.withTransition registry run trigger next)) := by
  rw [ActionHarbor.withTransition]
  cases mustTransition run.state trigger with
  | error error => exact .quiet rfl hrun
  | ok state => exact hnext state

/-- A new run has no capability. -/
theorem proposeRun_capability {model : ModelAdapter} {scenarioId : JsString} {draw : CreateDraw}
    {run : RunRecord} (h : proposeRun model scenarioId draw = .ok run) :
    run.capability = none := by
  rw [proposeRun] at h
  split at h
  · cases h
  obtain ⟨ledger, -, h⟩ := bind_eq_ok h
  split at h
  · cases h
  · cases h
  split at h
  · cases h
  obtain ⟨ledger', -, h⟩ := bind_eq_ok h
  obtain ⟨state, -, h⟩ := bind_eq_ok h
  obtain rfl := Except.ok.inj h
  rfl

/-- Where the verdict leads a new run. -/
theorem followVerdict_writes (registry : CapabilityRegistry) (run : RunRecord)
    (draw : AuthorizeDraw) :
    RegistryEffect registry run.capability (.ofTurn (followVerdict registry run draw)) := by
  rw [followVerdict]
  cases run.policyVerdict.outcome with
  | deny | requireApproval => exact .withTransition rfl fun _ => .quiet rfl rfl
  | allow =>
    refine .withTransition rfl fun state => authorizeAndExecute_writes registry ?_ _ draw
    rfl

/-- What a step writes in the registry. -/
theorem RunRecord.effect_registry {registry : CapabilityRegistry} {run : RunRecord}
    {stage : Option RequestStage} {promise : Option AdapterPromise} {e : ServerEvent}
    {effect : RunEffect} (h : run.effect registry stage promise e = some effect) :
    RegistryEffect registry run.capability effect := by
  -- the end of a wait writes the store and the ledger, never the registry
  have hwake : ∀ {promise wakeup stamp effect},
      run.wakeEffect registry stage promise wakeup stamp = some effect →
      RegistryEffect registry run.capability effect := by
    intro promise wakeup stamp effect h
    unfold wakeEffect at h
    split at h
    · obtain ⟨result, hresume, rfl⟩ := Option.map_eq_some_iff.mp h
      have hregistry : result.1.registry = registry := (resume_cases hresume).registry_eq
      exact .quiet hregistry rfl
    · cases h
  cases e with
  | request request =>
    cases request with
    | createRun => cases h
    | approveRun _ draw =>
      -- an approval that is consumed mints; all before it are refusals
      obtain rfl := Option.some.inj h
      rw [approveRun]
      split
      · exact .quiet rfl rfl
      dsimp only
      cases consumeApproval (run.newApproval draw)
          ⟨run.proposalHash, run.actionType, run.resourceId⟩ draw.consumedAt with
      | error reasonCode => exact .quiet rfl rfl
      | ok consumed =>
        refine .withEvent rfl fun ledger => .withTransition rfl fun state => ?_
        refine authorizeAndExecute_writes registry ?_ _ draw.authorize
        rfl
    | replayRun _ reads =>
      obtain rfl := Option.some.inj h
      rw [replayRun]
      split
      · rename_i capability hstate hcapability
        exact executeForRun_writes registry hcapability reads
      · exact .quiet rfl rfl
    | reconcileRun _ reads =>
      obtain rfl := Option.some.inj h
      rw [reconcileRun]
      split
      · exact .quiet rfl rfl
      · cases hcapability : run.capability with
        | none => exact .quiet rfl hcapability
        | some capability =>
          have hwrites := executeForRun_writes registry hcapability reads
          rw [hcapability] at hwrites
          exact hwrites
    | simulateDrift _ now =>
      obtain rfl := Option.some.inj h
      cases hdrift : simulateDrift run now with
      | error error => exact .quiet rfl rfl
      | ok drifted =>
        obtain ⟨-, rfl⟩ := simulateDrift_eq_ok hdrift
        exact .quiet rfl rfl
    | verifyRunLedger _ stamp =>
      obtain rfl := Option.some.inj h
      cases hverify : verifyRunLedger run stamp with
      | error error => exact .quiet rfl rfl
      | ok result =>
        obtain ⟨checked, result⟩ := result
        obtain ⟨row, -, rfl⟩ := verifyRunLedger_eq_ok hverify
        exact .quiet rfl rfl
  | execute c draw =>
    rw [RunRecord.effect.eq_def] at h
    dsimp only at h
    split at h
    · obtain rfl := Option.some.inj h
      exact .quiet rfl rfl
    · cases h
  | deliver c stamp =>
    obtain ⟨own, -, hwakeup⟩ := Option.bind_eq_some_iff.mp h
    obtain ⟨wakeup, -, heffect⟩ := Option.bind_eq_some_iff.mp hwakeup
    exact hwake heffect
  | timeout c stamp | refuse c stamp => exact hwake h
  | resume c now =>
    -- the continuation of a request reads and writes neither
    rw [RunRecord.effect.eq_def] at h
    dsimp only at h
    split at h
    · obtain rfl := Option.some.inj h
      exact .quiet rfl (finishExecution_capability ..)
    · cases h

end

end ActionHarbor
