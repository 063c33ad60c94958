import ActionHarbor.Model.Gateway
import ActionHarbor.Model.Node

/-!
# What minting relies on

`mintCapability` takes two forms of evidence. A consumed approval is compared with the
request, field by field. A policy verdict carries no subject, and only its outcome is
looked at: whatever the policy allowed, the capability is for what is requested. So a
verdict alone can mint an action type that no policy input is ever allowed for.

## Key results

- `evaluatePolicy_allow_iff`: the inputs the policy allows
- `policyCanAllow_iff`: the action types it can allow at all
- `mintCapability_sound_iff`: when minting is covered by its evidence
-/

namespace ActionHarbor

section
variable [Host]

/-! ## What the policy allows -/

/-- A ticket action by the owner of an active resource, in time. -/
structure PolicyInput.Allowable (input : PolicyInput) (principal : Principal)
    (actionType : ActionType) : Prop where
  requestedBy : input.principal = some principal
  knownRole : principal.role ∈ roleOptions
  recognized : input.actionType = actionType.toJs
  reversible : actionType ∉ irreversibleActionTypes
  sameTenant : principal.tenantId = input.resource.tenantId
  inTime : intentExpired input.environment = false
  active : input.resource.status = js "active"
  owner : input.resource.ownerId = principal.id

omit [Host] in
/-- An action type is found under its own name, and is no forbidden operation. -/
theorem ActionType.find_toJs (actionType : ActionType) :
    ActionType.options.find? (fun option => option.toJs = actionType.toJs) = some actionType ∧
      actionType.toJs ∉ auditTamperingOperations ∧
      actionType.toJs ∉ capabilitySelfGrantOperations := by
  cases actionType <;> decide

/-- The rules end in `ALLOW` exactly for these inputs. -/
theorem evaluateRecognized_allow_iff {principal : Principal} {actionType : ActionType}
    {input : PolicyInput} (hprincipal : input.principal = some principal)
    (hrole : principal.role ∈ roleOptions) (hactionType : input.actionType = actionType.toJs) :
    evaluateRecognized principal actionType input = .ok allow ↔
      input.Allowable principal actionType := by
  constructor
  · intro h
    unfold evaluateRecognized at h
    -- each rule that is passed leaves the fact it checks
    split at h
    · cases h
    split at h
    · cases h
    rename_i htenant
    split at h
    · cases h
    rename_i hintent
    split at h
    · cases h
    split at h
    · cases h
    split at h
    · cases h
    rename_i hactive
    split at h
    · cases h
    split at h
    · cases h
    rename_i hreversible
    split at h
    · cases h
    rename_i howner
    exact ⟨hprincipal, hrole, hactionType, hreversible, not_not.mp htenant,
      Bool.eq_false_iff.mpr hintent, not_not.mp hactive, not_not.mp howner⟩
  · intro h
    have hstatus : js "active" ∈ resourceStatusOptions := by decide
    -- a reversible action is none of those that need an approval
    have htypes : actionType ≠ .issueRefund ∧ actionType ≠ .sendCustomerMessage ∧
        actionType ∉ customerImpactingActionTypes := by
      have := h.reversible
      cases actionType <;> first | (exact absurd (by decide) this) | decide
    simp [evaluateRecognized, h.active, hstatus, h.sameTenant, h.inTime, h.owner, h.reversible,
      htypes.1, htypes.2.1, htypes.2.2]

/-- There is one verdict with outcome `ALLOW`. -/
theorem evaluateRecognized_eq_allow {principal : Principal} {actionType : ActionType}
    {input : PolicyInput} {verdict : PolicyVerdict}
    (h : evaluateRecognized principal actionType input = .ok verdict)
    (houtcome : verdict.outcome = .allow) : verdict = allow := by
  unfold evaluateRecognized at h
  repeat' split at h
  all_goals first
    | cases h; rfl
    | cases h; cases houtcome
    | cases h

/-- A verdict other than `DENY` is one of the rules for a recognized action type. -/
theorem evaluateRecognized_of_outcome {input : PolicyInput}
    (h : (evaluatePolicy input).outcome ≠ .deny) :
    ∃ principal actionType, input.principal = some principal ∧ principal.role ∈ roleOptions ∧
      input.actionType = actionType.toJs ∧
      evaluateRecognized principal actionType input = .ok (evaluatePolicy input) := by
  rw [evaluatePolicy] at h ⊢
  split at h
  · rename_i verdict hverdict
    rw [evaluateUnsafe] at hverdict
    -- what the policy answers before it knows the action type is a denial
    split at hverdict
    · cases hverdict
      exact absurd rfl h
    rename_i principal hprincipal
    split at hverdict
    · cases hverdict
    rename_i hrole
    split at hverdict
    · cases hverdict
      exact absurd rfl h
    split at hverdict
    · cases hverdict
      exact absurd rfl h
    split at hverdict
    · cases hverdict
      exact absurd rfl h
    rename_i actionType hfound
    have hactionType : actionType.toJs = input.actionType := by
      simpa using List.find?_some hfound
    exact ⟨principal, actionType, hprincipal, not_not.mp hrole, hactionType.symm, hverdict⟩
  · exact absurd rfl h

/-- What the rules answer for a recognized action type, the policy answers. -/
theorem evaluatePolicy_of_recognized {input : PolicyInput} {principal : Principal}
    {actionType : ActionType} {verdict : PolicyVerdict}
    (hprincipal : input.principal = some principal) (hrole : principal.role ∈ roleOptions)
    (hactionType : input.actionType = actionType.toJs)
    (hverdict : evaluateRecognized principal actionType input = .ok verdict) :
    evaluatePolicy input = verdict := by
  obtain ⟨hfound, htampering, hgrant⟩ := actionType.find_toJs
  rw [evaluatePolicy, evaluateUnsafe, hprincipal]
  simp only [hrole, not_true, if_false, hactionType, htampering, hgrant, hfound]
  rw [hverdict]

/-- The policy answers `ALLOW` exactly for these inputs. -/
theorem evaluatePolicy_allow_iff (input : PolicyInput) :
    (evaluatePolicy input).outcome = .allow ↔
      ∃ principal actionType, input.Allowable principal actionType := by
  constructor
  · intro h
    have hnotDenied : (evaluatePolicy input).outcome ≠ .deny := by
      rw [h]
      decide
    obtain ⟨principal, actionType, hprincipal, hrole, hactionType, hverdict⟩ :=
      evaluateRecognized_of_outcome hnotDenied
    rw [evaluateRecognized_eq_allow hverdict h] at hverdict
    exact ⟨principal, actionType,
      (evaluateRecognized_allow_iff hprincipal hrole hactionType).mp hverdict⟩
  · rintro ⟨principal, actionType, h⟩
    have hrecognized :=
      (evaluateRecognized_allow_iff h.requestedBy h.knownRole h.recognized).mpr h
    rw [evaluatePolicy_of_recognized h.requestedBy h.knownRole h.recognized hrecognized]
    rfl

/-- Some input for this principal, action type and resource is allowed without a human. -/
def PolicyCanAllow (request : CapabilityRequest) : Prop :=
  ∃ input principal, input.principal = some principal ∧ principal.id = request.principalId ∧
    input.actionType = request.actionType.toJs ∧ input.resource.id = request.resourceId ∧
    (evaluatePolicy input).outcome = .allow

omit [Host] in
/-- Names of action types differ. -/
theorem ActionType.toJs_injective {s t : ActionType} (h : s.toJs = t.toJs) : s = t := by
  have hs := s.find_toJs.1
  rw [h, t.find_toJs.1] at hs
  exact (Option.some.inj hs).symm

/-- The policy can allow an action type for someone, and then for anyone, exactly when it
    is reversible. -/
theorem policyCanAllow_iff (request : CapabilityRequest) :
    PolicyCanAllow request ↔ request.actionType ∉ irreversibleActionTypes := by
  constructor
  · rintro ⟨input, principal, -, -, hactionType, -, hallow⟩
    obtain ⟨owner, actionType, h⟩ := (evaluatePolicy_allow_iff input).mp hallow
    rw [ActionType.toJs_injective (hactionType.symm.trans h.recognized)]
    exact h.reversible
  · intro hreversible
    let owner : Principal := ⟨request.principalId, js "operator", js "t1"⟩
    refine ⟨
      { principal := some owner
        actionType := request.actionType.toJs
        resource := ⟨request.resourceId, request.principalId, js "t1", js "active"⟩
        evidenceRefs := []
        environment := { now := 0, knownEvidenceIds := [] } }, owner, rfl, rfl, rfl, rfl, ?_⟩
    rw [evaluatePolicy_allow_iff]
    exact ⟨owner, request.actionType, rfl, by simp only [owner]; decide, rfl, hreversible, rfl,
      rfl, rfl, rfl⟩

/-! ## What minting grants -/

/-- A capability that is minted is covered by the policy or the approval behind its
    evidence. -/
structure MintSound (evidence : AuthorizationEvidence) (request : CapabilityRequest)
    (draw : MintDraw) (ttlMs : Int) : Prop where
  policy : ∀ input capability, evidence = .policyAllow (evaluatePolicy input) →
    mintCapability evidence request draw ttlMs = .ok capability → PolicyCanAllow request
  approval : ∀ active approvalRequest now approval capability,
    evidence = .approved approval → consumeApproval active approvalRequest now = .ok approval →
    mintCapability evidence request draw ttlMs = .ok capability →
    approval.proposalHash = request.proposalHash ∧
      approval.scope.actionType = request.actionType ∧
      approval.scope.resourceId = request.resourceId

/-- Minting succeeds exactly when the evidence passes its check. -/
theorem mintCapability_succeeds_iff (evidence : AuthorizationEvidence)
    (request : CapabilityRequest) (draw : MintDraw) (ttlMs : Int) :
    (∃ capability, mintCapability evidence request draw ttlMs = .ok capability) ↔
      checkEvidence evidence request = .ok () := by
  rw [mintCapability]
  cases hcheck : checkEvidence evidence request with
  | error reasonCode =>
    constructor
    · rintro ⟨_, h⟩
      cases h
    · intro h
      cases h
  | ok _ => exact ⟨fun _ => rfl, fun _ => ⟨_, rfl⟩⟩

/-- Minting is sound except where an `ALLOW` of the policy, for whatever it was given, is
    the evidence for an action type the policy never allows. -/
theorem mintCapability_sound_iff (evidence : AuthorizationEvidence) (request : CapabilityRequest)
    (draw : MintDraw) (ttlMs : Int) :
    MintSound evidence request draw ttlMs ↔
      ¬ ∃ input, evidence = .policyAllow (evaluatePolicy input) ∧
        (evaluatePolicy input).outcome = .allow ∧
        request.actionType ∈ irreversibleActionTypes := by
  constructor
  · rintro hsound ⟨input, rfl, houtcome, hirreversible⟩
    have hcheck : checkEvidence (.policyAllow (evaluatePolicy input)) request = .ok () := by
      rw [checkEvidence, houtcome]
      rfl
    obtain ⟨capability, hmint⟩ := (mintCapability_succeeds_iff _ request draw ttlMs).mpr hcheck
    exact (policyCanAllow_iff request).mp (hsound.policy input capability rfl hmint)
      hirreversible
  · intro hcovered
    constructor
    -- minting checks the evidence and nothing else
    · intro input capability hevidence hmint
      rw [policyCanAllow_iff]
      intro hirreversible
      refine hcovered ⟨input, hevidence, ?_, hirreversible⟩
      have hcheck := (mintCapability_succeeds_iff ..).mp ⟨capability, hmint⟩
      rw [hevidence, checkEvidence] at hcheck
      split at hcheck
      · cases hcheck
      · rename_i houtcome
        exact not_not.mp houtcome
    · intro active approvalRequest now approval capability hevidence _ hmint
      have hcheck := (mintCapability_succeeds_iff ..).mp ⟨capability, hmint⟩
      rw [hevidence, checkEvidence] at hcheck
      split at hcheck
      · cases hcheck
      split at hcheck
      · cases hcheck
      rename_i hhash
      split at hcheck
      · cases hcheck
      rename_i hscope
      rw [not_or, not_not, not_not] at hscope
      exact ⟨not_not.mp hhash, hscope⟩

end

namespace Sample

/-- The owner of a ticket closes it. -/
def closesOwnTicket : PolicyInput :=
  { principal := some ⟨js "p1", js "operator", js "t1"⟩
    actionType := js "update_ticket_status"
    resource := ⟨js "ticket-1", js "p1", js "t1", js "active"⟩
    evidenceRefs := []
    environment := { now := 0, knownEvidenceIds := [] } }

/-- The capability asked for on the strength of that verdict. -/
def refundRequest : CapabilityRequest :=
  ⟨js "p1", .issueRefund, js "charge-9", js "hash-1"⟩

end Sample

/-- The verdict on a ticket of one's own mints a refund of another resource. -/
theorem mintCapability_refund_from_ticket_verdict :
    ¬ @MintSound node (.policyAllow (@evaluatePolicy node Sample.closesOwnTicket))
      Sample.refundRequest ⟨js "cap-1", js "nonce-1", 0⟩ 60000 := by
  intro hsound
  have hcheck : checkEvidence (.policyAllow (@evaluatePolicy node Sample.closesOwnTicket))
      Sample.refundRequest = .ok () := by decide +kernel
  obtain ⟨capability, hmint⟩ := (@mintCapability_succeeds_iff node _ Sample.refundRequest
    ⟨js "cap-1", js "nonce-1", 0⟩ 60000).mpr hcheck
  refine (@policyCanAllow_iff node _).mp (@MintSound.policy node _ _ _ _ hsound _ capability rfl hmint) ?_
  decide

end ActionHarbor
