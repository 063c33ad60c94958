import ActionHarbor.Model.Contracts

/-!
# Domain rules

The pure checks of the domain package: `validateCapability`,
`parseAndValidateCapability`, `checkPreconditions`, `checkApproval`,
`consumeApproval` and the run state machine's `transition`.
-/

namespace ActionHarbor

/-! ## Capabilities -/

section
variable [Host]

/-- The expiry bound every capability check uses: an unparseable `expiresAt` is expired. -/
def isExpired (expiresAt : JsString) (now : Instant) : Bool :=
  match Host.dateParse expiresAt with
  | none => true
  | some expiresAtMs => expiresAtMs ≤ now

/-- A capability and a request name the same principal, action, resource and plan. -/
def scopeMatches (capability : Capability) (request : CapabilityRequest) : Bool :=
  capability.principalId = request.principalId &&
  capability.actionType = request.actionType &&
  capability.resourceId = request.resourceId &&
  capability.proposalHash = request.proposalHash

/-- Status, then expiry, then exact scope; the reason is the first thing wrong. -/
def validateCapability (capability : Capability) (request : CapabilityRequest) (now : Instant) :
    Except CapabilityRejectionReason Unit :=
  if capability.status ≠ .active then .error .statusInvalid
  else if isExpired capability.expiresAt now then .error .expired
  else if scopeMatches capability request then .ok ()
  else .error .scopeMismatch

/-- `Capability.safeParse` first, `validateCapability` only if that succeeds. -/
def parseAndValidateCapability (raw : JsValue) (request : CapabilityRequest) (now : Instant) :
    Except CapabilityRejectionReason Capability :=
  match Capability.safeParse raw with
  | none => .error .malformed
  | some capability => (validateCapability capability request now).map fun _ => capability

end

/-! ## Preconditions -/

/-- The plan hash and resource versions an execution is rechecked against. -/
structure Precondition where
  currentProposalHash : JsString
  currentResourceVersion : JsNumber
  expectedResourceVersion : JsNumber
deriving DecidableEq, Repr

/-- The freshness recheck before every execution: the plan first, then the version. -/
def checkPreconditions (capability : Capability) (input : Precondition) :
    Except (List PreconditionRejectionReason) Unit :=
  if capability.proposalHash ≠ input.currentProposalHash then .error [.planHashMismatch]
  else if input.currentResourceVersion.strictEq input.expectedResourceVersion then .ok ()
  else .error [.preconditionFailed, .resourceVersionChanged]

/-! ## Approvals -/

section
variable [Host]

/-- Status, expiry, plan hash and scope of an approval. The expiry comparison is
    false for an unparseable `expiresAt`, so that case goes on to the next check. -/
def checkApproval (approval : Approval) (request : ApprovalRequest) (now : Instant) :
    Except ApprovalRejectionReason Unit :=
  if approval.status = .consumed then .error .alreadyConsumed
  else if approval.status ≠ .active then .error .statusInvalid
  else if (Host.dateParse approval.expiresAt).any (· ≤ now) then .error .expired
  else if approval.proposalHash ≠ request.proposalHash then .error .planHashMismatch
  else if approval.scope.actionType = request.actionType ∧
      approval.scope.resourceId = request.resourceId then .ok ()
  else .error .scopeMismatch

/-- The only way an approval's status becomes `consumed`. -/
def consumeApproval (approval : Approval) (request : ApprovalRequest) (now : Instant) :
    Except ApprovalRejectionReason Approval :=
  (checkApproval approval request now).map fun _ => { approval with status := .consumed }

end

/-! ## Run state machine -/

/-- `TRANSITION_TABLE`: the next state of each legal (state, trigger) pair. -/
def transitionTable : RunState → RunStateTrigger → Option RunState
  | .proposed, .schemaPass => some .validated
  | .proposed, .schemaFail => some .rejected
  | .validated, .policyDeny => some .denied
  | .validated, .highRisk => some .approvalRequired
  | .validated, .lowRiskPolicyAllow => some .authorized
  | .approvalRequired, .matchingApproval => some .authorized
  | .approvalRequired, .ttlElapsed => some .expired
  | .approvalRequired, .capabilityRevoked => some .revoked
  | .approvalRequired, .concurrentApprovalConflict => some .conflict
  | .authorized, .freshPreconditions => some .executing
  | .authorized, .planOrResourceChanged => some .stale
  | .authorized, .capabilityRevoked => some .revoked
  | .executing, .postconditionPass => some .verified
  | .executing, .deterministicToolFailure => some .failed
  | .executing, .timeoutTransportAmbiguity => some .unknownOutcome
  | .unknownOutcome, .lookupConfirmsSuccess => some .verified
  | .unknownOutcome, .lookupConfirmsFailure => some .failed
  | .unknownOutcome, .lookupInconclusive => some .reconciliationRequired
  -- nothing leads on from the other states
  | _, _ => none

/-- Apply one trigger to one state; `none` is the `ILLEGAL_TRANSITION` result. -/
def transition (current : RunState) (trigger : RunStateTrigger) : Option RunState :=
  transitionTable current trigger

/-- The triggers, in the order their keys have in `TRANSITION_TABLE`. -/
def RunStateTrigger.all : List RunStateTrigger :=
  [.schemaPass, .schemaFail, .policyDeny, .highRisk, .lowRiskPolicyAllow, .matchingApproval,
    .ttlElapsed, .freshPreconditions, .planOrResourceChanged, .capabilityRevoked,
    .concurrentApprovalConflict, .postconditionPass, .deterministicToolFailure,
    .timeoutTransportAmbiguity, .lookupConfirmsSuccess, .lookupConfirmsFailure,
    .lookupInconclusive]

end ActionHarbor
