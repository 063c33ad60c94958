import ActionHarbor.Model.Orchestrator

/-!
# Views

What a client gets to see of a run. `toRunView` is the only function that turns a
`RunRecord` into an answer; the capability it shows is stripped to four fields. The
verification panel reads two checks off the view.
-/

namespace ActionHarbor

/-- The texts of a `ScenarioMeta` that only the page shows. -/
structure ScenarioTexts where
  label : JsString
  description : JsString
  expectedNarrative : JsString
deriving DecidableEq, Repr

/-- The texts `findScenario` finds for a run's scenario. -/
def ScenarioId.texts : ScenarioId → ScenarioTexts
  | .blocked =>
    ⟨js "A. Blocked action",
      js "The model proposes a refund. Policy denies it before any capability can exist — no adapter side effect, ever.",
      js "DENIED — MISSING_FINANCE_ROLE, HIGH_IMPACT. No capability. No adapter call."⟩
  | .approval =>
    ⟨js "B. Approval path",
      js "The model proposes a customer message. A human approves the exact plan hash; the capability is minted only after that; the adapter runs exactly once.",
      js "REQUIRE_APPROVAL -> approve -> capability minted -> adapter executes once -> postcondition verified -> VERIFIED."⟩
  | .replay =>
    ⟨js "C. Replay / duplicate",
      js "Same approval path as B. After it succeeds, replay the identical operation — the adapter must not be called a second time.",
      js "Second submission of the same idempotency key returns the same receipt; adapter call count stays at 1."⟩
  | .stale =>
    ⟨js "D. Stale approval",
      js "Approval is granted, but the resource changes underneath it before execution. The now-stale capability cannot run.",
      js "Resource drifts after approval -> precondition check fails -> STALE. No execution."⟩
  | .unknownOutcome =>
    ⟨js "E. Unknown outcome",
      js "The adapter call times out after it may have already taken effect. Reported as UNKNOWN_OUTCOME, resolved only by reconciliation — never by blind retry.",
      js "Adapter is slower than the execution budget -> UNKNOWN_OUTCOME -> Reconcile (read-only lookup, never re-executes) -> VERIFIED (RECONCILED_SUCCESS)."⟩

/-- `SafeCapabilityView` -/
structure SafeCapabilityView where
  scope : ActionType
  resourceId : JsString
  expiresAt : JsString
  status : CapabilityStatus
deriving DecidableEq, Repr

/-- `RunView["resource"]` -/
structure ResourceView where
  id : JsString
  type : ResourceType
  ownerId : JsString
  versionAtProposal : Nat
  versionNow : Nat
  drifted : Bool
deriving DecidableEq, Repr

/-- `RunView["proposal"]` -/
structure ProposalView where
  actionType : ActionType
  parameters : RawActionParameters
  evidenceRefs : List JsString
  raw : JsString
  proposalHash : JsString
deriving DecidableEq, Repr

/-- `RunView["approval"]` -/
structure ApprovalView where
  id : JsString
  approverId : JsString
  scope : ApprovalScope
  approvedAt : JsString
  expiresAt : JsString
  status : ApprovalStatus
deriving DecidableEq, Repr

/-- `RunView`, the client-visible JSON; `none` is `null`. -/
structure RunView where
  runId : JsString
  scenario : ScenarioId
  texts : ScenarioTexts
  createdAt : JsString
  lastActionAt : JsString
  state : RunState
  principal : Principal
  resource : ResourceView
  proposal : ProposalView
  policy : PolicyVerdict
  approval : Option ApprovalView
  capability : Option SafeCapabilityView
  execution : Option RunExecutionSummary
  adapterCallCount : Nat
  availableActions : List JsString
  ledger : List AuditLedgerEntry

/-- `toSafeCapabilityView` -/
def toSafeCapabilityView (run : RunRecord) : Option SafeCapabilityView :=
  run.capability.map fun capability =>
    { scope := capability.actionType
      resourceId := capability.resourceId
      expiresAt := capability.expiresAt
      status := capability.status }

/-- `toRunView` -/
def toRunView (run : RunRecord) : RunView where
  runId := run.runId
  scenario := run.scenario
  texts := run.scenario.texts
  createdAt := run.createdAt
  lastActionAt := run.lastActionAt
  state := run.state
  principal := run.principal
  resource :=
    { id := run.resourceId
      type := run.resourceType
      ownerId := run.resourceOwnerId
      versionAtProposal := run.resourceVersionAtProposal
      versionNow := run.resourceVersionNow
      drifted := run.drifted }
  proposal :=
    { actionType := run.actionType
      parameters := run.parameters
      evidenceRefs := run.evidenceRefs
      raw := run.modelProposalRaw
      proposalHash := run.proposalHash }
  policy := run.policyVerdict
  -- the approval's hash and policy version are not shown
  approval := run.approval.map fun approval =>
    { id := approval.id
      approverId := approval.approverId
      scope := approval.scope
      approvedAt := approval.approvedAt
      expiresAt := approval.expiresAt
      status := approval.status }
  capability := toSafeCapabilityView run
  execution := run.execution
  adapterCallCount := run.adapter.callCount
  availableActions := availableActions run
  ledger := run.ledger.entries

/-! ## The verification panel -/

/-- `CheckStatus` of the verification panel. -/
inductive CheckStatus where
  | notReached
  | passed
  | failed
  | unknown
deriving DecidableEq, Repr

namespace VerificationPanel

/-- `precondition` of the verification panel. -/
def precondition (run : RunView) : CheckStatus :=
  match run.execution with
  | none => .notReached
  | some execution =>
    if !execution.ok ∧ execution.stage = some (js "precondition") then .failed else .passed

/-- `postcondition` of the verification panel. -/
def postcondition (run : RunView) : CheckStatus :=
  match run.execution with
  | none => .notReached
  | some execution =>
    if !execution.ok ∧ execution.stage = some (js "precondition") then .notReached
    else if !execution.ok ∧ (execution.stage = some (js "unknown_outcome") ∨
        execution.stage = some (js "reconciliation_required")) then .unknown
    else if !execution.ok ∧ execution.stage = some (js "postcondition") then .failed
    else if execution.ok then .passed
    else .unknown

end VerificationPanel

end ActionHarbor
