import ActionHarbor.Spec.HashChain
import ActionHarbor.Spec.WorldSteps

/-!
# The parameters behind a plan hash

A plan hash pins the parameters that were approved, and a capability carries one. But
`executeAction` only compares the capability's hash with hashes its caller supplies, and
hands the adapter parameters the caller supplies next to them. So a call executes the
planned parameters exactly if its caller hashed the parameters it passes.

## Key results

- `handsOver_iff`: which calls reach `adapter.execute`, and with what
- `sameJson_parameters`: a plan hash tells parameters apart
- `planned_params_iff`: when a call executes what every planned call executes
-/

namespace ActionHarbor

section
variable [Host]

/-! ## Calls that reach the adapter -/

/-- The call invokes `adapter.execute` with this capability and these parameters. -/
def HandsOver (shared : Shared) (input : ExecuteActionInput) (reads : CallReads)
    (capability : Capability) (params : JsValue) : Prop :=
  ∃ call, (executeAction shared input reads).2 = .waiting (.executing call) ∧
    call.capability = capability ∧ call.input.params = params

/-- What a call needs to reach the adapter: its parameters only have to have a hash. -/
structure ReadyToExecute (shared : Shared) (input : ExecuteActionInput) (reads : CallReads)
    (capability : Capability) : Prop where
  guards : PassesGuards input reads.now capability
  hashable : ∃ payloadHash, hashCanonical input.params = .ok payloadHash
  new : shared.operationStore.byIdempotencyKey input.operation.idempotencyKey = none
  consumable : ∃ registry, shared.registry.consume capability.id capability.nonce = .ok registry
  valid : validateCapability capability input.request reads.gatewayNow = .ok ()

/-- The adapter is handed the caller's own parameters, under these conditions. -/
theorem handsOver_iff {shared : Shared} {input : ExecuteActionInput} {reads : CallReads}
    {capability : Capability} {params : JsValue} :
    HandsOver shared input reads capability params ↔
      params = input.params ∧ ReadyToExecute shared input reads capability := by
  have hcases := executeAction_cases shared input reads
  rw [HandsOver]
  generalize (executeAction shared input reads).1 = shared' at hcases
  generalize (executeAction shared input reads).2 = progress at hcases
  constructor
  · rintro ⟨call, rfl, rfl, rfl⟩
    generalize hprogress : CallProgress.waiting (.executing call) = progress at hcases
    cases hcases with
    -- only a call that enters the race is handed over
    | entered capability payloadHash registry entry hguards hhash hnew hconsume =>
      rw [invokeAdapter] at hprogress
      split at hprogress
      · cases hprogress
      · rename_i hvalid
        cases hprogress
        exact ⟨rfl, hguards, ⟨payloadHash, hhash⟩, hnew, ⟨registry, hconsume⟩, hvalid⟩
    | lookingUp => cases hprogress
    | capabilityRefused | preconditionFailed | unhashableParams | conflict | replayed
    | replayedFailure | registryRefused => cases hprogress
  · rintro ⟨rfl, hguards, ⟨payloadHash, hhash⟩, hnew, ⟨registry, hconsume⟩, hvalid⟩
    obtain ⟨entry, -, rfl⟩ := hcases.entered_of_consume hguards hhash hnew hconsume
    refine ⟨⟨input, capability, payloadHash, [entry]⟩, ?_, rfl, rfl⟩
    rw [invokeAdapter, hvalid]

/-- The guards tie the capability to the hash the caller says is current. -/
theorem PassesGuards.currentProposalHash {input : ExecuteActionInput} {now : Instant}
    {capability : Capability} (h : PassesGuards input now capability) :
    capability.proposalHash = input.precondition.currentProposalHash := by
  have hprecondition := h.2
  rw [checkPreconditions] at hprecondition
  split at hprecondition
  · cases hprecondition
  · rename_i hhash
    exact not_not.mp hhash

/-! ## What a plan hash pins -/

omit [Host] in
/-- The object a plan hash is taken of. -/
def planProps (plan : ProposalHashInput) : List (JsString × JsValue) :=
  [(js "schemaVersion", .string plan.schemaVersion),
    (js "actionType", .string plan.actionType),
    (js "resourceId", .string plan.resourceId),
    (js "parameters", plan.parameters),
    (js "evidenceRefs", .array ((plan.evidenceRefs.insertionSort (· ≤ ·)).map .string))]

omit [Host] in
theorem isJsonItems_strings (texts : List JsString) :
    isJsonItems (texts.map .string) = true := by
  induction texts with
  | nil => rfl
  | cons text rest ih => exact isJsonItems_cons.mpr ⟨rfl, ih⟩

omit [Host] in
/-- It is JSON data if the parameters are. -/
theorem isJsonData_plan {plan : ProposalHashInput}
    (h : isJsonData plan.parameters = true) : isJsonData (.object (planProps plan)) = true := by
  have hkeys : (AssocList.keys (planProps plan)).Nodup := by
    show [js "schemaVersion", js "actionType", js "resourceId", js "parameters",
      js "evidenceRefs"].Nodup
    decide
  refine isJsonData_object.mpr ⟨hkeys, ?_⟩
  simp only [planProps, isJsonProps_cons]
  refine ⟨by decide, rfl, by decide, rfl, by decide, rfl, by decide, h, by decide, ?_, rfl⟩
  exact isJsonItems_strings _

/-- Parameters that are part of a plan hash have a hash of their own. -/
theorem hashCanonical_parameters {plan : ProposalHashInput} {hash : JsString}
    (hjson : isJsonData plan.parameters = true) (h : computeProposalHash plan = .ok hash) :
    ∃ payloadHash, hashCanonical plan.parameters = .ok payloadHash := by
  have hplan : hashCanonical (.object (planProps plan)) = .ok hash := h
  rw [hashCanonical] at hplan
  cases hcanonical : canonicalize (.object (planProps plan)) with
  | error e =>
    rw [hcanonical] at hplan
    cases hplan
  | ok canonical =>
    obtain ⟨hkeys, hprops⟩ := isJsonData_object.mp (isJsonData_plan hjson)
    obtain ⟨_, -, -, hvalues⟩ := canonicalize_object hkeys hprops hcanonical
    obtain ⟨c, hc, -⟩ := hvalues (js "parameters") plan.parameters (by simp [planProps])
    exact ⟨_, by rw [hashCanonical, hc]; rfl⟩

/-- Plans with one hash have the same parameters. -/
theorem sameJson_parameters (hdigest : DigestInjective) {plan plan' : ProposalHashInput}
    {hash : JsString} (hjson : isJsonData plan.parameters = true)
    (hjson' : isJsonData plan'.parameters = true) (h : computeProposalHash plan = .ok hash)
    (h' : computeProposalHash plan' = .ok hash) :
    sameJson plan.parameters plan'.parameters = true := by
  have hplans : sameJson (.object (planProps plan)) (.object (planProps plan')) = true :=
    sameJson_of_hashCanonical hdigest (isJsonData_plan hjson) (isJsonData_plan hjson') h h'
  rw [sameJson, Bool.and_eq_true] at hplans
  have hfound : ∀ plan : ProposalHashInput,
      (planProps plan).lookup (js "parameters") = some plan.parameters := fun _ => rfl
  obtain ⟨other, hother, hsame⟩ := sameProps_lookup hplans.2 (hfound plan)
  obtain rfl := Option.some.inj ((hfound plan').symm.trans hother)
  exact hsame

/-! ## Planned calls -/

/-- The plan hash a caller says is current is the hash of a plan with these parameters. -/
def Precondition.Pins (precondition : Precondition) (params : JsValue) : Prop :=
  ∃ plan, isJsonData plan.parameters = true ∧
    computeProposalHash plan = .ok precondition.currentProposalHash ∧
    SameJson params plan.parameters

/-- A capability minted for a plan hash carries to the adapter what every caller that
    hashes its own parameters would hand over, exactly if this caller does so too. -/
theorem planned_params_iff (hdigest : DigestInjective) {plan : ProposalHashInput}
    (hjson : isJsonData plan.parameters = true) {shared : Shared} {input : ExecuteActionInput}
    {reads : CallReads} {capability : Capability} {params : JsValue}
    (hcall : HandsOver shared input reads capability params)
    (hplan : computeProposalHash plan = .ok capability.proposalHash) :
    (∀ shared' input' reads' capability' params',
      HandsOver shared' input' reads' capability' params' →
      capability'.proposalHash = capability.proposalHash → input'.precondition.Pins params' →
      SameJson params params') ↔ input.precondition.Pins params := by
  obtain ⟨rfl, hready⟩ := handsOver_iff.mp hcall
  have hcurrent := hready.guards.currentProposalHash
  constructor
  · intro hall
    -- the same call with the parameters of the plan
    have hplanned : HandsOver shared { input with params := plan.parameters } reads capability
        plan.parameters :=
      handsOver_iff.mpr ⟨rfl, hready.guards, hashCanonical_parameters hjson hplan, hready.new,
        hready.consumable, hready.valid⟩
    have hself := sameJson_parameters hdigest hjson hjson hplan hplan
    have hsame := hall _ _ _ _ _ hplanned rfl ⟨plan, hjson, hcurrent ▸ hplan, hself, hself⟩
    exact ⟨plan, hjson, hcurrent ▸ hplan, hsame⟩
  · rintro ⟨own, hown, hownHash, hsame⟩ shared' input' reads' capability' params' hcall' hhash
      ⟨other, hother, hotherHash, hsame'⟩
    obtain ⟨rfl, hready'⟩ := handsOver_iff.mp hcall'
    have hequal : input'.precondition.currentProposalHash =
        input.precondition.currentProposalHash :=
      hready'.guards.currentProposalHash.symm.trans (hhash.trans hcurrent)
    rw [hequal] at hotherHash
    have hplans : SameJson own.parameters other.parameters :=
      ⟨sameJson_parameters hdigest hown hother hownHash hotherHash,
        sameJson_parameters hdigest hother hown hotherHash hownHash⟩
    exact (hsame.trans hplans).trans hsame'.symm

end

namespace Sample

/-- The parameters of a ticket, as they were approved. -/
def ticketParams : JsValue :=
  .object [(js "title", .string (js "Cold-chain check")), (js "priority", .string (js "high"))]

/-- Other parameters. -/
def otherParams : JsValue := .object [(js "title", .string (js "Cancel all orders"))]

/-- The plan of the ticket. -/
def ticketPlan : ProposalHashInput where
  schemaVersion := js "w3-proposal-1"
  actionType := js "create_internal_ticket"
  resourceId := js "incident-1"
  parameters := ticketParams
  evidenceRefs := []

/-- The request for a capability for it. -/
def plannedRequest : CapabilityRequest :=
  { makeRequest with proposalHash := (@computeProposalHash node ticketPlan).toOption.getD [] }

/-- The capability, and the objects its call shares. -/
def plannedCapability : Capability := makeCapability plannedRequest "cap_000001" "nonce_000001"

/-- The registry knows it, and nothing is recorded yet. -/
def plannedShared : Shared := { registry := ({} : CapabilityRegistry).record plannedCapability }

/-- A call with these parameters, under the plan hash. -/
def plannedCall (params : JsValue) : ExecuteActionInput :=
  { makeInput plannedCapability plannedRequest "op_1" "key-1" with params := params }

/-- What is hashed on the way: the plan, the parameters and the row of the execution. -/
def plannedTexts : List JsString :=
  ([.object (planProps ticketPlan), ticketParams, otherParams] ++
    (@executeAction node plannedShared (plannedCall ticketParams)
      (reads "evt_000001")).1.ledger.list.map Untyped.withoutHash).filterMap fun value =>
        (canonicalize value).toOption.map stringify

/-- Node, with a digest that keeps all texts apart. -/
@[reducible] def plannedNode : Host := pinnedNode plannedTexts

theorem plannedNode_injective : @DigestInjective plannedNode := by
  have hdistinct : (plannedTexts.map sha256).Nodup ∧
      ∀ text ∈ plannedTexts, (sha256 text).head? ≠ some 0x78 := by
    decide +kernel
  exact pinnedNode_injective hdistinct.1 hdistinct.2

section
attribute [local instance] plannedNode

/-- The capability is for the plan of the ticket. -/
theorem computeProposalHash_ticketPlan :
    computeProposalHash ticketPlan = .ok plannedCapability.proposalHash := by
  decide +kernel

/-- A computation that succeeds has a result. -/
theorem exists_ok {ε α : Type} {x : Except ε α} (h : x.isOk = true) : ∃ a, x = .ok a := by
  cases x with
  | error e => cases h
  | ok a => exact ⟨a, rfl⟩

/-- Whatever its parameters are, the call reaches the adapter. -/
theorem plannedCall_handsOver (params : JsValue) (h : (hashCanonical params).isOk = true) :
    HandsOver plannedShared (plannedCall params) (reads "evt_000001") plannedCapability params := by
  obtain ⟨hparse, hprecondition, hconsume, hvalid⟩ :
      parseAndValidateCapability plannedCapability.toJsValue plannedRequest now =
          .ok plannedCapability ∧
        checkPreconditions plannedCapability (plannedCall ticketParams).precondition = .ok () ∧
        (plannedShared.registry.consume plannedCapability.id plannedCapability.nonce).isOk ∧
        validateCapability plannedCapability plannedRequest now = .ok () := by
    decide +kernel
  exact handsOver_iff.mpr ⟨rfl, ⟨hparse, hprecondition⟩, exists_ok h, rfl, exists_ok hconsume,
    hvalid⟩

/-- Two callers that hash what they pass hand over the same parameters. -/
theorem plannedCalls_same :
    DigestInjective ∧
      HandsOver plannedShared (plannedCall ticketParams) (reads "evt_000001") plannedCapability
        ticketParams ∧
      HandsOver plannedShared (plannedCall (backwards ticketParams)) (reads "evt_000001")
        plannedCapability (backwards ticketParams) ∧
      SameJson ticketParams (backwards ticketParams) := by
  have hcall := plannedCall_handsOver ticketParams (by decide +kernel)
  have hcall' := plannedCall_handsOver (backwards ticketParams) (by decide +kernel)
  have hpins : ∀ params, SameJson params ticketParams →
      (plannedCall params).precondition.Pins params := fun params h =>
    ⟨ticketPlan, rfl, computeProposalHash_ticketPlan, h⟩
  have hjson : isJsonData ticketPlan.parameters = true := rfl
  have hiff := planned_params_iff plannedNode_injective hjson hcall
    computeProposalHash_ticketPlan
  exact ⟨plannedNode_injective, hcall, hcall', hiff.mpr (hpins _ (by decide)) _ _ _ _ _ hcall' rfl
    (hpins _ (by decide))⟩

/-- Under one plan hash, the adapter is handed the parameters it was computed from and
    others. -/
theorem otherParams_handedOver :
    DigestInjective ∧ computeProposalHash ticketPlan = .ok plannedCapability.proposalHash ∧
      HandsOver plannedShared (plannedCall ticketParams) (reads "evt_000001") plannedCapability
        ticketParams ∧
      HandsOver plannedShared (plannedCall otherParams) (reads "evt_000001") plannedCapability
        otherParams ∧
      ¬ SameJson ticketParams otherParams := by
  refine ⟨plannedNode_injective, computeProposalHash_ticketPlan,
    plannedCall_handsOver _ (by decide +kernel), plannedCall_handsOver _ (by decide +kernel), ?_⟩
  decide

end

end Sample

end ActionHarbor
