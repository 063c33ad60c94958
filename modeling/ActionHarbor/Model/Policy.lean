import ActionHarbor.Model.Contracts

/-!
# Policy decision point

`evaluateUnsafe` with its guards in source order, and `evaluatePolicy`, which
turns a thrown error into the fail-closed `POLICY_UNAVAILABLE` verdict. Role,
status and action type are arbitrary strings here, as at run time.
-/

namespace ActionHarbor

/-- `CURRENT_POLICY_VERSION` -/
def currentPolicyVersion : JsString := js "policy-2026-08-22.1"

/-- `AUDIT_TAMPERING_OPERATIONS` -/
def auditTamperingOperations : List JsString :=
  [js "delete_audit_event", js "alter_audit_event", js "rewrite_audit_event"]

/-- `CAPABILITY_SELF_GRANT_OPERATIONS` -/
def capabilitySelfGrantOperations : List JsString :=
  [js "mint_capability", js "grant_capability", js "approve_action", js "self_approve",
    js "set_policy_decision"]

/-- `IRREVERSIBLE_ACTION_TYPES` -/
def irreversibleActionTypes : List ActionType := [.sendCustomerMessage, .issueRefund]

/-- `CUSTOMER_IMPACTING_ACTION_TYPES` -/
def customerImpactingActionTypes : List ActionType := [.sendCustomerMessage, .issueRefund]

/-- The allowlisted roles. -/
def roleOptions : List JsString := [js "operator", js "finance", js "admin"]

/-- The recognized resource statuses. -/
def resourceStatusOptions : List JsString := [js "active", js "closed", js "archived"]

/-- The human or service an action is requested on behalf of. -/
structure Principal where
  id : JsString
  role : JsString
  tenantId : JsString
deriving DecidableEq, Repr

/-- The fields of the affected resource that policy reads. -/
structure PolicyResource where
  id : JsString
  ownerId : JsString
  tenantId : JsString
  status : JsString
deriving DecidableEq, Repr

/-- What the caller supplies about the world. -/
structure PolicyEnvironment where
  now : Instant
  knownEvidenceIds : List JsString
  intentTtlMs : Option JsNumber := none
  intentCreatedAt : Option JsString := none

/-- The input of one policy decision. -/
structure PolicyInput where
  principal : Option Principal
  actionType : JsString
  resource : PolicyResource
  evidenceRefs : List JsString
  environment : PolicyEnvironment

/-- A policy decision. -/
structure PolicyVerdict where
  outcome : PolicyOutcome
  reasonCodes : List PolicyReasonCode
  policyVersion : JsString
deriving DecidableEq, Repr

/-- A `DENY` verdict. -/
def deny (reasonCodes : List PolicyReasonCode) : PolicyVerdict :=
  ⟨.deny, reasonCodes, currentPolicyVersion⟩

/-- A `REQUIRE_APPROVAL` verdict. -/
def requireApproval (reasonCodes : List PolicyReasonCode) : PolicyVerdict :=
  ⟨.requireApproval, reasonCodes, currentPolicyVersion⟩

/-- The `ALLOW` verdict. -/
def allow : PolicyVerdict := ⟨.allow, [], currentPolicyVersion⟩

/-- The message of the error thrown for an unrecognized role. -/
def invalidRoleMessage (role : JsString) : JsString :=
  js "policy: principal role \"" ++ role ++ js "\" is not a recognized role"

/-- The message of the error thrown for an unrecognized resource status. -/
def invalidResourceStatusMessage (status : JsString) : JsString :=
  js "policy: resource status \"" ++ status ++ js "\" is not a recognized status"

section
variable [Host]

/-- `now - createdAt > intentTtlMs`, the difference rounded to a double. With an
    unparseable `createdAt` the age is `NaN` and the comparison is false. -/
def intentExpired (environment : PolicyEnvironment) : Bool :=
  match environment.intentTtlMs, environment.intentCreatedAt with
  | some ttlMs, some createdAt =>
    match Host.dateParse createdAt with
    | some createdAtMs => ttlMs.ltInt (environment.now.minus createdAtMs)
    | none => false
  | _, _ => false

/-- The rules for a recognized action type, from the resource status check on. -/
def evaluateRecognized (principal : Principal) (actionType : ActionType) (input : PolicyInput) :
    Except JsString PolicyVerdict :=
  if input.resource.status ∉ resourceStatusOptions then
    .error (invalidResourceStatusMessage input.resource.status)
  else if principal.tenantId ≠ input.resource.tenantId then .ok (deny [.crossTenantResource])
  else if intentExpired input.environment then .ok (deny [.intentExpired])
  else if actionType = .issueRefund ∧ principal.role ≠ js "finance" then
    .ok (deny [.missingFinanceRole, .highImpact])
  else if actionType ∈ customerImpactingActionTypes ∧
      (input.evidenceRefs.any fun ref => !input.environment.knownEvidenceIds.contains ref) then
    .ok (deny [.evidenceNotFound])
  else if input.resource.status ≠ js "active" then .ok (deny [.resourceNotActive])
  else if actionType = .sendCustomerMessage then .ok (requireApproval [.externalCommunication])
  else if actionType ∈ irreversibleActionTypes then .ok (requireApproval [.irreversibleAction])
  else if input.resource.ownerId ≠ principal.id then
    .ok (requireApproval [.affectsOtherPrincipal])
  else .ok allow

/-- The evaluation logic; `Except` carries the message of a thrown error. -/
def evaluateUnsafe (input : PolicyInput) : Except JsString PolicyVerdict :=
  match input.principal with
  | none => .ok (deny [.missingPrincipal])
  | some principal =>
    if principal.role ∉ roleOptions then .error (invalidRoleMessage principal.role)
    else if input.actionType ∈ auditTamperingOperations then .ok (deny [.auditWriteForbidden])
    else if input.actionType ∈ capabilitySelfGrantOperations then
      .ok (deny [.modelHasNoAuthority])
    else
      match ActionType.options.find? fun option => option.toJs = input.actionType with
      | none => .ok (deny [.unknownActionType])
      | some actionType => evaluateRecognized principal actionType input

/-- The policy decision point: a thrown error denies. -/
def evaluatePolicy (input : PolicyInput) : PolicyVerdict :=
  match evaluateUnsafe input with
  | .ok verdict => verdict
  | .error _ => deny [.policyUnavailable]

end

end ActionHarbor
