import ActionHarbor.Spec.LedgerAppend

/-!
# What a step of the gateway can do

One inversion lemma for the synchronous part of a call and one for its
continuation. The invariants of later modules are derived from these and never
unfold `executeAction`.

## Key results

- `executeAction_cases`: every way the synchronous part of a call can go
- `resume_cases`: every way a waiting call can end
-/

namespace ActionHarbor

/-! ## The registry -/

/-- Consuming finds an active entry and leaves a consumed one in its place. -/
theorem CapabilityRegistry.consume_eq_ok {registry registry' : CapabilityRegistry}
    {capabilityId nonce : JsString} (h : registry.consume capabilityId nonce = .ok registry') :
    ∃ stored, registry.byId capabilityId = some stored ∧ stored.nonce = nonce ∧
      stored.status = .active ∧
      registry'.byId =
        Function.update registry.byId capabilityId (some { stored with status := .consumed }) := by
  rw [consume] at h
  split at h
  · cases h
  · rename_i stored hstored
    split at h
    · cases h
    · rename_i hnonce
      split at h
      · cases h
      · rename_i hstatus
        obtain rfl := Except.ok.inj h
        exact ⟨stored, hstored, not_not.mp hnonce, not_not.mp hstatus, rfl⟩

/-! ## Shared objects -/

/-- The shared objects after one more row in the ledger. -/
def Shared.appendRow (shared : Shared) (entry : AuditLedgerEntry) : Shared :=
  { shared with ledger := ⟨shared.ledger.entries ++ [entry]⟩ }

@[simp] theorem Shared.appendRow_registry (shared : Shared) (entry : AuditLedgerEntry) :
    (shared.appendRow entry).registry = shared.registry := rfl

@[simp] theorem Shared.appendRow_operationStore (shared : Shared) (entry : AuditLedgerEntry) :
    (shared.appendRow entry).operationStore = shared.operationStore := rfl

section
variable [Host]

/-! ## The synchronous part -/

/-- The capability and precondition checks of a call pass, with this capability. -/
def PassesGuards (input : ExecuteActionInput) (now : Instant) (capability : Capability) : Prop :=
  parseAndValidateCapability input.capabilityRaw input.request now = .ok capability ∧
    checkPreconditions capability input.precondition = .ok ()

/-- The entry check parses, then validates. -/
theorem parseAndValidateCapability_eq_ok {raw : JsValue} {request : CapabilityRequest}
    {now : Instant} {capability : Capability} :
    parseAndValidateCapability raw request now = .ok capability ↔
      Capability.safeParse raw = some capability ∧
        validateCapability capability request now = .ok () := by
  rw [parseAndValidateCapability]
  cases Capability.safeParse raw with
  | none => simp
  | some parsed =>
    dsimp only
    constructor
    · intro h
      cases hvalidate : validateCapability parsed request now with
      | error reasonCode =>
        rw [hvalidate] at h
        cases h
      | ok _ =>
        rw [hvalidate] at h
        obtain rfl := Except.ok.inj h
        exact ⟨rfl, hvalidate⟩
    · rintro ⟨hparse, hvalidate⟩
      obtain rfl := Option.some.inj hparse
      rw [hvalidate]
      rfl

/-- A capability that validates has the scope of the request. -/
theorem scope_of_parseAndValidateCapability {raw : JsValue} {request : CapabilityRequest}
    {now : Instant} {capability : Capability}
    (h : parseAndValidateCapability raw request now = .ok capability) :
    capability.principalId = request.principalId ∧
      capability.actionType = request.actionType ∧
      capability.resourceId = request.resourceId ∧
      capability.proposalHash = request.proposalHash := by
  have hvalidate := (parseAndValidateCapability_eq_ok.mp h).2
  rw [validateCapability] at hvalidate
  split at hvalidate
  · cases hvalidate
  · split at hvalidate
    · cases hvalidate
    · split at hvalidate
      · rename_i hscope
        simpa [scopeMatches, and_assoc] using hscope
      · cases hvalidate

/-- A capability that validates once is refused later only because it has expired. -/
theorem validateCapability_later {capability : Capability} {request : CapabilityRequest}
    {now : Instant} (h : validateCapability capability request now = .ok ()) (later : Instant) :
    validateCapability capability request later =
      if isExpired capability.expiresAt later then .error .expired else .ok () := by
  rw [validateCapability] at h ⊢
  split at h
  · cases h
  · rename_i hactive
    rw [if_neg hactive]
    split at h
    · cases h
    · split at h
      · rename_i hscope
        rw [if_pos hscope]
      · cases h

/-- So is one that was parsed first. -/
theorem parseAndValidateCapability_later {raw : JsValue} {request : CapabilityRequest}
    {now : Instant} {capability : Capability}
    (h : parseAndValidateCapability raw request now = .ok capability) (later : Instant) :
    parseAndValidateCapability raw request later =
      if isExpired capability.expiresAt later then .error .expired else .ok capability := by
  obtain ⟨hparse, hvalidate⟩ := parseAndValidateCapability_eq_ok.mp h
  rw [parseAndValidateCapability, hparse]
  dsimp only
  rw [validateCapability_later hvalidate]
  cases isExpired capability.expiresAt later <;> rfl

/-- A capability that passes the guards does. -/
theorem PassesGuards.scope {input : ExecuteActionInput} {now : Instant} {capability : Capability}
    (h : PassesGuards input now capability) :
    capability.principalId = input.request.principalId ∧
      capability.actionType = input.request.actionType ∧
      capability.resourceId = input.request.resourceId ∧
      capability.proposalHash = input.request.proposalHash :=
  scope_of_parseAndValidateCapability h.1

/-- What passes the guards once passes them until the capability expires. -/
theorem PassesGuards.later {input : ExecuteActionInput} {now later : Instant}
    {capability : Capability} (h : PassesGuards input now capability)
    (hlive : isExpired capability.expiresAt later = false) :
    PassesGuards input later capability := by
  refine ⟨?_, h.2⟩
  rw [parseAndValidateCapability_later h.1, hlive]
  rfl

/-- Every way the synchronous part of a call can go: what it leaves in the shared
    objects, and where the call then stands. -/
inductive StartOutcome (shared : Shared) (input : ExecuteActionInput) (reads : CallReads) :
    Shared → CallProgress → Prop
  | capabilityRefused (reasonCode : CapabilityRejectionReason)
      (hguard : parseAndValidateCapability input.capabilityRaw input.request reads.now =
        .error reasonCode) :
      StartOutcome shared input reads shared (.done (.returned (.capability reasonCode [])))
  | preconditionFailed (capability : Capability) (reasonCodes : List PreconditionRejectionReason)
      (entry : AuditLedgerEntry)
      (hguard : parseAndValidateCapability input.capabilityRaw input.request reads.now =
        .ok capability)
      (hprecondition : checkPreconditions capability input.precondition = .error reasonCodes) :
      StartOutcome shared input reads (shared.appendRow entry)
        (.done (.returned (.precondition reasonCodes [entry])))
  | unhashableParams (capability : Capability) (error : CanonicalizeError)
      (hguards : PassesGuards input reads.now capability)
      (hhash : hashCanonical input.params = .error error) :
      StartOutcome shared input reads shared (.done (.threw (.unhashable error)))
  | conflict (capability : Capability) (payloadHash : JsString) (existing : OperationRecord)
      (entry : AuditLedgerEntry)
      (hguards : PassesGuards input reads.now capability)
      (hhash : hashCanonical input.params = .ok payloadHash)
      (hrecord : shared.operationStore.byIdempotencyKey input.operation.idempotencyKey =
        some existing)
      (hpayload : existing.payloadHash ≠ payloadHash) :
      StartOutcome shared input reads (shared.appendRow entry)
        (.done (.returned (.idempotency [entry])))
  | replayed (capability : Capability) (prior : OperationRecord) (entry : AuditLedgerEntry)
      (hguards : PassesGuards input reads.now capability)
      (hhash : hashCanonical input.params = .ok prior.payloadHash)
      (hrecord : shared.operationStore.byIdempotencyKey input.operation.idempotencyKey = some prior)
      (hstate : prior.state = .succeeded) (hreceipt : prior.receipt.isUndefined = false) :
      StartOutcome shared input reads (shared.appendRow entry)
        (.done (.returned
          (.ok prior.receipt true prior.operationId (some .idempotentReplay) [entry])))
  | replayedFailure (capability : Capability) (prior : OperationRecord)
      (hguards : PassesGuards input reads.now capability)
      (hhash : hashCanonical input.params = .ok prior.payloadHash)
      (hrecord : shared.operationStore.byIdempotencyKey input.operation.idempotencyKey = some prior)
      (hstate : prior.state = .failed) :
      StartOutcome shared input reads shared
        (.done (.returned
          (.adapter (prior.errorMessage.getD (js "prior attempt did not succeed")) [])))
  | lookingUp (capability : Capability) (prior : OperationRecord)
      (hguards : PassesGuards input reads.now capability)
      (hhash : hashCanonical input.params = .ok prior.payloadHash)
      (hrecord : shared.operationStore.byIdempotencyKey input.operation.idempotencyKey = some prior)
      (hnotReplayed : ¬ (prior.state = .succeeded ∧ prior.receipt.isUndefined = false))
      (hnotFailed : prior.state ≠ .failed) :
      StartOutcome shared input reads shared (.waiting (.lookingUp ⟨input, prior⟩))
  | registryRefused (capability : Capability) (payloadHash : JsString)
      (reasonCode : CapabilityRejectionReason)
      (hguards : PassesGuards input reads.now capability)
      (hhash : hashCanonical input.params = .ok payloadHash)
      (hnew : shared.operationStore.byIdempotencyKey input.operation.idempotencyKey = none)
      (hconsume : shared.registry.consume capability.id capability.nonce = .error reasonCode) :
      StartOutcome shared input reads shared (.done (.returned (.capability reasonCode [])))
  | entered (capability : Capability) (payloadHash : JsString) (registry : CapabilityRegistry)
      (entry : AuditLedgerEntry)
      (hguards : PassesGuards input reads.now capability)
      (hhash : hashCanonical input.params = .ok payloadHash)
      (hnew : shared.operationStore.byIdempotencyKey input.operation.idempotencyKey = none)
      (hconsume : shared.registry.consume capability.id capability.nonce = .ok registry)
      (hstarted : entry.type = .executionStarted ∧
        entry.operationId = some input.operation.operationId) :
      StartOutcome shared input reads ({ shared with registry := registry }.appendRow entry)
        (.waiting (invokeAdapter ⟨input, capability, payloadHash, [entry]⟩ reads.gatewayNow))

/-- `withAudit`, unfolded. Its own equation lemma takes seconds to derive. -/
theorem withAudit_def (shared : Shared) (operationId : JsString) (type : AuditEventType)
    (payload : List (JsString × JsValue)) (stamp : Stamp)
    (next : Shared → AuditLedgerEntry → Shared × CallProgress) :
    withAudit shared operationId type payload stamp next =
      match audit shared.ledger operationId type payload stamp with
      | .error error => (shared, .done (.threw (.unhashable error)))
      | .ok (ledger, entry) => next { shared with ledger := ledger } entry := by
  delta withAudit
  generalize audit shared.ledger operationId type payload stamp = result
  rfl

/-- Appending one of the gateway's events always goes on with a new row. -/
theorem withAudit_eq (shared : Shared) (operationId : JsString) (type : AuditEventType)
    (payload : List (JsString × JsValue)) (stamp : Stamp)
    (next : Shared → AuditLedgerEntry → Shared × CallProgress) (h : HashableProps payload) :
    ∃ entry, withAudit shared operationId type payload stamp next =
        next (shared.appendRow entry) entry ∧
      entry.type = type ∧ entry.operationId = some operationId := by
  obtain ⟨entry, hentry, hrow⟩ := audit_hashable shared.ledger operationId type payload stamp h
  refine ⟨entry, ?_, hrow⟩
  rw [withAudit_def, hentry]
  rfl

/-- The duplicate branch. -/
private theorem reconcileDuplicate_cases {shared : Shared} {input : ExecuteActionInput}
    {reads : CallReads} {capability : Capability} {prior : OperationRecord}
    (hguards : PassesGuards input reads.now capability)
    (hhash : hashCanonical input.params = .ok prior.payloadHash)
    (hrecord : shared.operationStore.byIdempotencyKey input.operation.idempotencyKey = some prior) :
    StartOutcome shared input reads (reconcileDuplicate shared input prior reads.stamp).1
      (reconcileDuplicate shared input prior reads.stamp).2 := by
  simp only [reconcileDuplicate, Bool.not_eq_eq_eq_not, Bool.not_true]
  -- by the prior record: succeeded with a receipt, failed, anything else
  split
  · rename_i h
    obtain ⟨entry, hentry, -⟩ := withAudit_eq shared input.operation.operationId
      .duplicateReplayDetected (reasonCodePayload VerificationReasonCode.idempotentReplay.toJs)
      reads.stamp
      (fun shared entry => (shared, .done (.returned
        (.ok prior.receipt true prior.operationId (some .idempotentReplay) [entry]))))
      (hashableProps_reasonCodePayload _)
    rw [hentry]
    exact .replayed capability prior entry hguards hhash hrecord h.1 h.2
  · rename_i hnotReplayed
    split
    · rename_i hfailed
      exact .replayedFailure capability prior hguards hhash hrecord hfailed
    · rename_i hnotFailed
      exact .lookingUp capability prior hguards hhash hrecord hnotReplayed hnotFailed

/-- The branch of a new key. -/
private theorem executeFresh_cases {shared : Shared} {input : ExecuteActionInput}
    {reads : CallReads} {capability : Capability} {payloadHash : JsString}
    (hguards : PassesGuards input reads.now capability)
    (hhash : hashCanonical input.params = .ok payloadHash)
    (hnew : shared.operationStore.byIdempotencyKey input.operation.idempotencyKey = none) :
    StartOutcome shared input reads (executeFresh shared input capability payloadHash reads).1
      (executeFresh shared input capability payloadHash reads).2 := by
  rw [executeFresh]
  cases hconsume : shared.registry.consume capability.id capability.nonce with
  | error reasonCode =>
    exact .registryRefused capability payloadHash reasonCode hguards hhash hnew hconsume
  | ok registry =>
    -- the capability is consumed before the row is appended
    obtain ⟨entry, hentry, hstarted⟩ := withAudit_eq { shared with registry := registry }
      input.operation.operationId .executionStarted
      [(js "actionType", .string input.request.actionType.toJs)] reads.stamp
      (fun shared entry => (shared,
        .waiting (invokeAdapter ⟨input, capability, payloadHash, [entry]⟩ reads.gatewayNow)))
      (by simp)
    dsimp only
    rw [hentry]
    exact .entered capability payloadHash registry entry hguards hhash hnew hconsume hstarted

/-- The synchronous part of a call goes one of these ways. -/
theorem executeAction_cases (shared : Shared) (input : ExecuteActionInput) (reads : CallReads) :
    StartOutcome shared input reads (executeAction shared input reads).1
      (executeAction shared input reads).2 := by
  rw [executeAction]
  cases hparse : parseAndValidateCapability input.capabilityRaw input.request reads.now with
  | error reasonCode => exact .capabilityRefused reasonCode hparse
  | ok capability =>
    dsimp only
    cases hprecondition : checkPreconditions capability input.precondition with
    | error reasonCodes =>
      obtain ⟨entry, hentry, -⟩ := withAudit_eq shared input.operation.operationId .preconditionFailed
        [(js "reasonCodes", .array (reasonCodes.map fun code => .string code.toJs))] reads.stamp
        (fun shared entry => (shared, .done (.returned (.precondition reasonCodes [entry]))))
        (by simp)
      dsimp only
      rw [hentry]
      exact .preconditionFailed capability reasonCodes entry hparse hprecondition
    | ok _ =>
      have hguards : PassesGuards input reads.now capability := ⟨hparse, hprecondition⟩
      dsimp only
      cases hhash : hashCanonical input.params with
      | error error => exact .unhashableParams capability error hguards hhash
      | ok payloadHash =>
        dsimp only [OperationStore.check]
        cases hrecord :
          shared.operationStore.byIdempotencyKey input.operation.idempotencyKey with
        | none => exact executeFresh_cases hguards hhash hrecord
        | some existing =>
          -- the key is there: the same payload or another one
          by_cases hpayload : existing.payloadHash = payloadHash
          · subst hpayload
            simp only [ne_eq, not_true_eq_false, if_false]
            exact reconcileDuplicate_cases hguards hhash hrecord
          · obtain ⟨entry, hentry, -⟩ := withAudit_eq shared input.operation.operationId
              .duplicateReplayDetected
              (reasonCodePayload (js "IDEMPOTENCY_KEY_PAYLOAD_MISMATCH")) reads.stamp
              (fun shared entry => (shared, .done (.returned (.idempotency [entry]))))
              (hashableProps_reasonCodePayload _)
            simp only [ne_eq, hpayload, not_false_eq_true, if_true]
            rw [hentry]
            exact .conflict capability payloadHash existing entry hguards hhash hrecord hpayload

/-- Every way a call goes on that has passed its guards and hashed its params, by what
    the store holds under its key. -/
inductive GuardedOutcome (shared : Shared) (input : ExecuteActionInput) (reads : CallReads)
    (capability : Capability) (payloadHash : JsString) :
    Option OperationRecord → Shared → CallProgress → Prop
  | registryRefused (reasonCode : CapabilityRejectionReason)
      (hconsume : shared.registry.consume capability.id capability.nonce = .error reasonCode) :
      GuardedOutcome shared input reads capability payloadHash none shared
        (.done (.returned (.capability reasonCode [])))
  | entered (registry : CapabilityRegistry) (entry : AuditLedgerEntry)
      (hconsume : shared.registry.consume capability.id capability.nonce = .ok registry) :
      GuardedOutcome shared input reads capability payloadHash none
        ({ shared with registry := registry }.appendRow entry)
        (.waiting (invokeAdapter ⟨input, capability, payloadHash, [entry]⟩ reads.gatewayNow))
  | conflict (existing : OperationRecord) (entry : AuditLedgerEntry)
      (hpayload : existing.payloadHash ≠ payloadHash) :
      GuardedOutcome shared input reads capability payloadHash (some existing)
        (shared.appendRow entry) (.done (.returned (.idempotency [entry])))
  | replayed (prior : OperationRecord) (entry : AuditLedgerEntry)
      (hpayload : prior.payloadHash = payloadHash) (hstate : prior.state = .succeeded)
      (hreceipt : prior.receipt.isUndefined = false) :
      GuardedOutcome shared input reads capability payloadHash (some prior)
        (shared.appendRow entry)
        (.done (.returned
          (.ok prior.receipt true prior.operationId (some .idempotentReplay) [entry])))
  | replayedFailure (prior : OperationRecord) (hpayload : prior.payloadHash = payloadHash)
      (hstate : prior.state = .failed) :
      GuardedOutcome shared input reads capability payloadHash (some prior) shared
        (.done (.returned
          (.adapter (prior.errorMessage.getD (js "prior attempt did not succeed")) [])))
  | lookingUp (prior : OperationRecord) (hpayload : prior.payloadHash = payloadHash)
      (hnotReplayed : ¬ (prior.state = .succeeded ∧ prior.receipt.isUndefined = false))
      (hnotFailed : prior.state ≠ .failed) :
      GuardedOutcome shared input reads capability payloadHash (some prior) shared
        (.waiting (.lookingUp ⟨input, prior⟩))

/-- A call that has passed its guards and hashed its params goes one of these ways. -/
theorem StartOutcome.guarded {shared shared' : Shared} {input : ExecuteActionInput}
    {reads : CallReads} {progress : CallProgress} {capability : Capability}
    {payloadHash : JsString} (h : StartOutcome shared input reads shared' progress)
    (hguards : PassesGuards input reads.now capability)
    (hhash : hashCanonical input.params = .ok payloadHash) :
    GuardedOutcome shared input reads capability payloadHash
      (shared.operationStore.byIdempotencyKey input.operation.idempotencyKey) shared' progress := by
  have hsame : ∀ {capability' payloadHash'}, PassesGuards input reads.now capability' →
      hashCanonical input.params = .ok payloadHash' →
      capability' = capability ∧ payloadHash' = payloadHash := fun hguards' hhash' =>
    ⟨Except.ok.inj (hguards'.1.symm.trans hguards.1), Except.ok.inj (hhash'.symm.trans hhash)⟩
  -- the refusals contradict the guards; the others differ in what the key holds
  cases h with
  | capabilityRefused reasonCode hguard => cases hguards.1.symm.trans hguard
  | preconditionFailed capability' reasonCodes entry hguard hprecondition =>
    obtain rfl := Except.ok.inj (hguards.1.symm.trans hguard)
    cases hguards.2.symm.trans hprecondition
  | unhashableParams _ _ _ hhash' => cases hhash.symm.trans hhash'
  | conflict _ _ existing entry hguards' hhash' hrecord hpayload =>
    obtain ⟨rfl, rfl⟩ := hsame hguards' hhash'
    exact hrecord ▸ .conflict existing entry hpayload
  | replayed _ prior entry hguards' hhash' hrecord hstate hreceipt =>
    obtain ⟨rfl, rfl⟩ := hsame hguards' hhash'
    exact hrecord ▸ .replayed prior entry rfl hstate hreceipt
  | replayedFailure _ prior hguards' hhash' hrecord hstate =>
    obtain ⟨rfl, rfl⟩ := hsame hguards' hhash'
    exact hrecord ▸ .replayedFailure prior rfl hstate
  | lookingUp _ prior hguards' hhash' hrecord hnotReplayed hnotFailed =>
    obtain ⟨rfl, rfl⟩ := hsame hguards' hhash'
    exact hrecord ▸ .lookingUp prior rfl hnotReplayed hnotFailed
  | registryRefused _ _ reasonCode hguards' hhash' hnew hconsume =>
    obtain ⟨rfl, rfl⟩ := hsame hguards' hhash'
    exact hnew ▸ .registryRefused reasonCode hconsume
  | entered _ _ registry entry hguards' hhash' hnew hconsume =>
    obtain ⟨rfl, rfl⟩ := hsame hguards' hhash'
    exact hnew ▸ .entered registry entry hconsume

/-- A call whose key is new and whose capability the registry consumes goes on to the
    gateway's own check. -/
theorem StartOutcome.entered_of_consume {shared shared' : Shared} {input : ExecuteActionInput}
    {reads : CallReads} {progress : CallProgress} {capability : Capability}
    {payloadHash : JsString} {registry : CapabilityRegistry}
    (h : StartOutcome shared input reads shared' progress)
    (hguards : PassesGuards input reads.now capability)
    (hhash : hashCanonical input.params = .ok payloadHash)
    (hnew : shared.operationStore.byIdempotencyKey input.operation.idempotencyKey = none)
    (hconsume : shared.registry.consume capability.id capability.nonce = .ok registry) :
    ∃ entry, shared' = { shared with registry := registry }.appendRow entry ∧
      progress =
        .waiting (invokeAdapter ⟨input, capability, payloadHash, [entry]⟩ reads.gatewayNow) := by
  have hguarded := h.guarded hguards hhash
  rw [hnew] at hguarded
  cases hguarded with
  | entered registry' entry hconsume' =>
    obtain rfl := Except.ok.inj (hconsume.symm.trans hconsume')
    exact ⟨entry, rfl, rfl⟩
  | registryRefused _ hconsume' => cases hconsume.symm.trans hconsume'

/-- A capability that does not validate ends the call. -/
theorem StartOutcome.refused_of_error {shared shared' : Shared} {input : ExecuteActionInput}
    {reads : CallReads} {progress : CallProgress} {reasonCode : CapabilityRejectionReason}
    (h : StartOutcome shared input reads shared' progress)
    (hguard : parseAndValidateCapability input.capabilityRaw input.request reads.now =
      .error reasonCode) :
    shared' = shared ∧ progress = .done (.returned (.capability reasonCode [])) := by
  have hfails : ∀ {capability}, ¬ PassesGuards input reads.now capability := fun hguards => by
    cases hguard.symm.trans hguards.1
  cases h with
  | capabilityRefused reasonCode' hguard' =>
    obtain rfl := Except.error.inj (hguard.symm.trans hguard')
    exact ⟨rfl, rfl⟩
  | preconditionFailed _ _ _ hguard' => cases hguard.symm.trans hguard'
  | unhashableParams _ _ hguards | conflict _ _ _ _ hguards | replayed _ _ _ hguards
  | replayedFailure _ _ hguards | lookingUp _ _ hguards | registryRefused _ _ _ hguards
  | entered _ _ _ _ hguards => exact absurd hguards hfails

/-- A recorded success answers every call that passes its guards with its key and
    payload. -/
theorem StartOutcome.replayed_of_recorded {shared shared' : Shared} {input : ExecuteActionInput}
    {reads : CallReads} {progress : CallProgress} {capability : Capability}
    {prior : OperationRecord} (h : StartOutcome shared input reads shared' progress)
    (hguards : PassesGuards input reads.now capability)
    (hhash : hashCanonical input.params = .ok prior.payloadHash)
    (hrecord : shared.operationStore.byIdempotencyKey input.operation.idempotencyKey = some prior)
    (hstate : prior.state = .succeeded) (hreceipt : prior.receipt.isUndefined = false) :
    ∃ entry, shared' = shared.appendRow entry ∧ progress = .done (.returned
      (.ok prior.receipt true prior.operationId (some .idempotentReplay) [entry])) := by
  have hguarded := h.guarded hguards hhash
  rw [hrecord] at hguarded
  cases hguarded with
  | replayed _ entry => exact ⟨entry, rfl, rfl⟩
  | conflict _ _ hpayload => exact absurd rfl hpayload
  | replayedFailure _ _ hfailed => cases hstate.symm.trans hfailed
  | lookingUp _ _ hnotReplayed => exact absurd ⟨hstate, hreceipt⟩ hnotReplayed

/-- A record that is neither a success with a receipt nor a failure is looked up by every
    call that passes its guards with its key and payload. -/
theorem StartOutcome.lookingUp_of_recorded {shared shared' : Shared} {input : ExecuteActionInput}
    {reads : CallReads} {progress : CallProgress} {capability : Capability}
    {prior : OperationRecord} (h : StartOutcome shared input reads shared' progress)
    (hguards : PassesGuards input reads.now capability)
    (hhash : hashCanonical input.params = .ok prior.payloadHash)
    (hrecord : shared.operationStore.byIdempotencyKey input.operation.idempotencyKey = some prior)
    (hnotReplayed : ¬ (prior.state = .succeeded ∧ prior.receipt.isUndefined = false))
    (hnotFailed : prior.state ≠ .failed) :
    shared' = shared ∧ progress = .waiting (.lookingUp ⟨input, prior⟩) := by
  have hguarded := h.guarded hguards hhash
  rw [hrecord] at hguarded
  cases hguarded with
  | lookingUp => exact ⟨rfl, rfl⟩
  | conflict _ _ hpayload => exact absurd rfl hpayload
  | replayed _ _ _ hstate hreceipt => exact absurd ⟨hstate, hreceipt⟩ hnotReplayed
  | replayedFailure _ _ hfailed => exact absurd hfailed hnotFailed

/-! ## The continuation -/

/-- The arguments of the call that waits. -/
def Waiting.input : Waiting → ExecuteActionInput
  | .executing call => call.input
  | .refused call _ => call.input
  | .lookingUp call => call.input

/-- The payload hash a waiting call writes into its record. -/
def Waiting.payloadHash : Waiting → JsString
  | .executing call => call.payloadHash
  | .refused call _ => call.payloadHash
  | .lookingUp call => call.prior.payloadHash

/-- The capability id a waiting call writes into its record. -/
def Waiting.capabilityId : Waiting → JsString
  | .executing call => call.capability.id
  | .refused call _ => call.capability.id
  | .lookingUp call => call.prior.capabilityId

/-- The rows a waiting call has appended so far. -/
def Waiting.auditEvents : Waiting → List AuditLedgerEntry
  | .executing call => call.auditEvents
  | .refused call _ => call.auditEvents
  | .lookingUp _ => []

/-- The call waits for a lookup. -/
def Waiting.reconciles : Waiting → Bool
  | .lookingUp _ => true
  | _ => false

/-- The idempotency key of a waiting call. -/
def Waiting.idempotencyKey (waiting : Waiting) : JsString :=
  waiting.input.operation.idempotencyKey

/-- The record a waiting call leaves of a verified receipt. -/
def Waiting.succeededRecord (waiting : Waiting) (receipt : JsValue) : OperationRecord :=
  verifiedRecord waiting.input receipt waiting.payloadHash waiting.capabilityId

/-- The record it leaves of a receipt that did not verify. -/
def Waiting.unverifiedRecord (waiting : Waiting) : OperationRecord :=
  ActionHarbor.unverifiedRecord waiting.input waiting.payloadHash waiting.capabilityId

/-- The receipt a wakeup hands to the postcondition check, if any. -/
inductive Receives : Waiting → Wakeup → JsValue → Prop
  | executed (call : RacingCall) (receipt : JsValue) :
      Receives (.executing call) (.executeResolved receipt) receipt
  | found (call : LookupCall) (value status : JsValue)
      (hstatus : value.getProp (js "status") = some status)
      (hfound : status.isString (js "unknown") = false) :
      Receives (.lookingUp call) (.lookupSettled (.resolved value))
        ((value.getProp (js "receipt")).getD .undefined)

/-- A record is written, then a row is appended. -/
def Shared.recorded (shared : Shared) (record : OperationRecord) (entry : AuditLedgerEntry) :
    Shared :=
  { shared with operationStore := shared.operationStore.record record }.appendRow entry

/-- Every way a waiting call can end. -/
inductive Settlement (shared : Shared) : Waiting → Wakeup → Shared → Settled → Prop
  | verified (waiting : Waiting) (wakeup : Wakeup) (receipt : JsValue) (entry : AuditLedgerEntry)
      (hreceives : Receives waiting wakeup receipt)
      (hverified : verifyPostcondition waiting.input.request.actionType receipt
        waiting.input.postcondition = true) :
      Settlement shared waiting wakeup (shared.recorded (waiting.succeededRecord receipt) entry)
        (.returned (.ok receipt waiting.reconciles waiting.input.operation.operationId
          (if waiting.reconciles then some .reconciledSuccess else none)
          (waiting.auditEvents ++ [entry])))
  | unverified (waiting : Waiting) (wakeup : Wakeup) (receipt : JsValue) (entry : AuditLedgerEntry)
      (hreceives : Receives waiting wakeup receipt)
      (hunverified : verifyPostcondition waiting.input.request.actionType receipt
        waiting.input.postcondition = false) :
      Settlement shared waiting wakeup (shared.recorded waiting.unverifiedRecord entry)
        (.returned (.postcondition (waiting.auditEvents ++ [entry])))
  | timedOut (call : RacingCall) (entry : AuditLedgerEntry) :
      Settlement shared (.executing call) .timerFired
        (shared.recorded (call.outcomeRecord .unknownOutcome none) entry)
        (.returned (.unknownOutcome call.input.operation.operationId
          (call.auditEvents ++ [entry])))
  | rejected (call : RacingCall) (error : AdapterError) (errorMessage : JsString)
      (hmessage : error.errorMessage = some errorMessage) :
      Settlement shared (.executing call) (.executeRejected error)
        { shared with
          operationStore :=
            shared.operationStore.record (call.outcomeRecord .failed (some errorMessage)) }
        (.returned (.adapter errorMessage call.auditEvents))
  | crashed (call : RacingCall) (error : AdapterError) (hmessage : error.errorMessage = none) :
      Settlement shared (.executing call) (.executeRejected error) shared
        (.threw .unprintableRejection)
  | refusal (call : RacingCall) (reasonCode : CapabilityRejectionReason) :
      Settlement shared (.refused call reasonCode) .refusalDelivered
        { shared with
          operationStore := shared.operationStore.record
            (call.outcomeRecord .failed (some (js "gateway rejected: " ++ reasonCode.toJs))) }
        (.returned (.capability reasonCode call.auditEvents))
  | inconclusive (call : LookupCall) (value status : JsValue) (entry : AuditLedgerEntry)
      (hstatus : value.getProp (js "status") = some status)
      (hunknown : status.isString (js "unknown") = true) :
      Settlement shared (.lookingUp call) (.lookupSettled (.resolved value))
        (shared.appendRow entry)
        (.returned (.reconciliationRequired call.prior.operationId [entry]))
  | lookupMalformed (call : LookupCall) (value : JsValue)
      (hstatus : value.getProp (js "status") = none) :
      Settlement shared (.lookingUp call) (.lookupSettled (.resolved value)) shared
        (.threw .notAnObject)
  | lookupRejected (call : LookupCall) :
      Settlement shared (.lookingUp call) (.lookupSettled .rejected) shared
        (.threw .lookupRejected)

/-- `recordAndAudit`, unfolded, for the same reason. -/
theorem recordAndAudit_def (shared : Shared) (record : OperationRecord) (operationId : JsString)
    (type : AuditEventType) (payload : List (JsString × JsValue)) (stamp : Stamp)
    (result : AuditLedgerEntry → ExecuteActionResult) :
    recordAndAudit shared record operationId type payload stamp result =
      match audit shared.ledger operationId type payload stamp with
      | .error error =>
        ({ shared with operationStore := shared.operationStore.record record },
          .threw (.unhashable error))
      | .ok (ledger, entry) =>
        (⟨shared.registry, shared.operationStore.record record, ledger⟩,
          .returned (result entry)) := by
  cases happend : audit shared.ledger operationId type payload stamp with
  | error error =>
    delta recordAndAudit
    simp only [happend]
  | ok appended =>
    delta recordAndAudit
    simp only [happend]

/-- Recording an outcome always goes on with a new row. -/
private theorem recordAndAudit_eq (shared : Shared) (record : OperationRecord)
    (operationId : JsString) (type : AuditEventType) (payload : List (JsString × JsValue))
    (stamp : Stamp) (result : AuditLedgerEntry → ExecuteActionResult)
    (h : HashableProps payload) :
    ∃ entry, recordAndAudit shared record operationId type payload stamp result =
      (shared.recorded record entry, .returned (result entry)) := by
  obtain ⟨entry, hentry, -⟩ := audit_hashable shared.ledger operationId type payload stamp h
  refine ⟨entry, ?_⟩
  rw [recordAndAudit_def, hentry]
  rfl

/-- What happens once a receipt has been received, on either path. -/
private theorem finalizeFromReceipt_cases (shared : Shared) (waiting : Waiting) (wakeup : Wakeup)
    (receipt : JsValue) (stamp : Stamp) (hreceives : Receives waiting wakeup receipt) :
    Settlement shared waiting wakeup
      (finalizeFromReceipt shared waiting.input receipt waiting.payloadHash waiting.capabilityId
        waiting.reconciles waiting.auditEvents stamp).1
      (finalizeFromReceipt shared waiting.input receipt waiting.payloadHash waiting.capabilityId
        waiting.reconciles waiting.auditEvents stamp).2 := by
  rw [finalizeFromReceipt]
  split
  · rename_i hverified
    obtain ⟨entry, hentry⟩ := recordAndAudit_eq shared (waiting.succeededRecord receipt)
      waiting.input.operation.operationId .postconditionVerified
      (if waiting.reconciles then reasonCodePayload VerificationReasonCode.reconciledSuccess.toJs
        else []) stamp
      (fun entry => .ok receipt waiting.reconciles waiting.input.operation.operationId
        (if waiting.reconciles then some .reconciledSuccess else none)
        (waiting.auditEvents ++ [entry]))
      (by split <;> simp)
    exact hentry ▸ .verified waiting wakeup receipt entry hreceives hverified
  · rename_i hunverified
    obtain ⟨entry, hentry⟩ := recordAndAudit_eq shared waiting.unverifiedRecord
      waiting.input.operation.operationId .postconditionFailed
      (reasonCodePayload VerificationReasonCode.postconditionUnverified.toJs) stamp
      (fun entry => .postcondition (waiting.auditEvents ++ [entry]))
      (hashableProps_reasonCodePayload _)
    exact hentry ▸ .unverified waiting wakeup receipt entry hreceives
      (Bool.eq_false_iff.mpr hunverified)

/-- A waiting call ends one of these ways. -/
theorem resume_cases {shared : Shared} {waiting : Waiting} {wakeup : Wakeup} {stamp : Stamp}
    {result : Shared × Settled} (h : waiting.resume wakeup shared stamp = some result) :
    Settlement shared waiting wakeup result.1 result.2 := by
  cases waiting with
  | executing call =>
    cases wakeup with
    | executeResolved receipt =>
      obtain rfl := Option.some.inj h
      exact finalizeFromReceipt_cases shared (.executing call) _ receipt stamp
        (.executed call receipt)
    | executeRejected error =>
      obtain rfl := Option.some.inj h
      -- a rejection without a message is an error of the service itself
      cases hmessage : error.errorMessage with
      | none =>
        simp only [afterRace, hmessage]
        exact .crashed call error hmessage
      | some errorMessage =>
        simp only [afterRace, hmessage]
        exact .rejected call error errorMessage hmessage
    | timerFired =>
      obtain rfl := Option.some.inj h
      obtain ⟨entry, hentry⟩ := recordAndAudit_eq shared (call.outcomeRecord .unknownOutcome none)
        call.input.operation.operationId .executionUnknown
        (reasonCodePayload VerificationReasonCode.unknownOutcome.toJs) stamp
        (fun entry => .unknownOutcome call.input.operation.operationId
          (call.auditEvents ++ [entry]))
        (hashableProps_reasonCodePayload _)
      simp only [afterRace, hentry]
      exact .timedOut call entry
    | refusalDelivered | lookupSettled _ => cases h
  | refused call reasonCode =>
    cases wakeup with
    | refusalDelivered =>
      obtain rfl := Option.some.inj h
      exact .refusal call reasonCode
    | executeResolved _ | executeRejected _ | timerFired | lookupSettled _ => cases h
  | lookingUp call =>
    cases wakeup with
    | lookupSettled answer =>
      obtain rfl := Option.some.inj h
      cases answer with
      | rejected => exact .lookupRejected call
      | resolved value =>
        simp only [afterLookup]
        cases hstatus : value.getProp (js "status") with
        | none => exact .lookupMalformed call value hstatus
        | some status =>
          -- the receipt that was looked up is finalized as one the adapter returns
          cases hunknown : status.isString (js "unknown") with
          | false =>
            simp only [hunknown, Bool.false_eq_true, if_false]
            exact finalizeFromReceipt_cases shared (.lookingUp call) _ _ stamp
              (.found call value status hstatus hunknown)
          | true =>
            obtain ⟨entry, hentry, -⟩ := audit_hashable shared.ledger
              call.input.operation.operationId .reconciliationRequired
              (reasonCodePayload VerificationReasonCode.unknownOutcome.toJs) stamp
              (hashableProps_reasonCodePayload _)
            simp only [hunknown, hentry, if_true]
            exact .inconclusive call value status entry hstatus hunknown
    | executeResolved _ | executeRejected _ | timerFired | refusalDelivered => cases h

end

end ActionHarbor
