import ActionHarbor.Spec.Authority

/-!
# The resource the policy judges

`createRun` asks the policy about a resource of its own making, and pins the run to the
one the model names. What the model answers is untrusted text, so the two need not be
the same: a capability is for the principal and the action type the policy judged, and
for the resource it judged only where the model echoes the id it was given.

## Key results

- `RunSystem.Issued.step`: every capability of a run is for the run's plan
- `Server.minted_judged_iff`: when a capability is for what the policy was given
-/

namespace ActionHarbor

/-- What `createRun` asks the policy about. -/
def judgedInput (scenario : ScenarioMeta) (draw : CreateDraw) (action : RawAction) :
    PolicyInput where
  principal := some ⟨js "principal-1", scenario.role, js "t1"⟩
  actionType := action.actionType.toJs
  resource := ⟨draw.resourceId, js "principal-1", js "t1", js "active"⟩
  evidenceRefs := action.evidenceRefs
  environment := { now := draw.policyNow, knownEvidenceIds := [] }

/-- A capability for the principal, the action type and the resource the policy was given. -/
structure Capability.JudgedBy (capability : Capability) (input : PolicyInput) : Prop where
  principalId : input.principal.map (·.id) = some capability.principalId
  actionType : input.actionType = capability.actionType.toJs
  resourceId : input.resource.id = capability.resourceId

/-- A capability minted for a request. -/
structure Capability.IssuedFor (capability : Capability) (request : CapabilityRequest) :
    Prop where
  principalId : capability.principalId = request.principalId
  actionType : capability.actionType = request.actionType
  resourceId : capability.resourceId = request.resourceId

section
variable [Host]

/-- Minting copies the request. -/
theorem mintCapability_issuedFor {evidence : AuthorizationEvidence} {request : CapabilityRequest}
    {draw : MintDraw} {ttlMs : Int} {capability : Capability}
    (h : mintCapability evidence request draw ttlMs = .ok capability) :
    capability.IssuedFor request := by
  rw [mintCapability] at h
  cases hcheck : checkEvidence evidence request with
  | error reasonCode =>
    rw [hcheck] at h
    cases h
  | ok _ =>
    rw [hcheck] at h
    cases h
    exact ⟨rfl, rfl, rfl⟩

/-- The one capability a turn mints is for its run. -/
theorem authorizeAndExecute_issuedFor {registry : CapabilityRegistry} {run : RunRecord}
    {evidence : AuthorizationEvidence} {draw : AuthorizeDraw} :
    ∀ capability ∈
      mintedCapabilities (authorizeAndExecute registry run evidence draw).observations,
      capability.IssuedFor run.request := by
  intro capability hminted
  have hcase := authorizeAndExecute_cases registry run evidence draw
  generalize authorizeAndExecute registry run evidence draw = turn at hcase hminted
  cases hcase with
  | unminted execution lastActionAt => cases hminted
  | minted issued entry hmint _ =>
    -- the call itself mints nothing more
    have hcall := executeForRun_minted (registry.record issued)
      { run.appendRows [entry] with capability := some issued } issued draw.reads
    generalize executeForRun _ _ _ _ = turn at hcall hminted
    have hobservations : Turn.observations { turn with minted := some issued } =
        .minted issued :: turn.observations := by
      simp [Turn.observations, hcall]
    rw [hobservations, mintedCapabilities_cons, mintedCapabilities_of_minted_eq_none hcall]
      at hminted
    obtain rfl := List.mem_singleton.mp hminted
    exact mintCapability_issuedFor hmint

/-! ## The capabilities of a run -/

/-- Every capability of the run is for this plan, which the run still has. -/
structure RunSystem.Issued (plan : RunPlan) (sys : RunSystem) : Prop where
  sound : sys.Sound
  same : sys.run.toRunPlan = plan
  issued : ∀ capability ∈ mintedCapabilities sys.history, capability.IssuedFor plan.request

/-- A step that mints nothing. -/
private theorem RunSystem.Issued.unminted {C : RunSystem → CallReads → Prop} {plan : RunPlan}
    {sys : RunSystem} (h : sys.Issued plan) {run : RunRecord} {c : RequestId}
    {stage : Option RequestStage} {promise : Option AdapterPromise}
    {observations : List RunObservation}
    (hstep : RunStep C sys (sys.change run c stage promise observations))
    (hplan : run.toRunPlan = sys.run.toRunPlan) (hminted : mintedCapabilities observations = []) :
    (sys.change run c stage promise observations).Issued plan where
  sound := h.sound.step hstep
  same := hplan.trans h.same
  issued := by
    simp only [RunSystem.change_history, mintedCapabilities_append, hminted, List.append_nil]
    exact h.issued

/-- A step of the run keeps it so. -/
theorem RunSystem.Issued.step {C : RunSystem → CallReads → Prop} {plan : RunPlan}
    {sys sys' : RunSystem} (h : sys.Issued plan) (hstep : RunStep C sys sys') :
    sys'.Issued plan := by
  have hkeep := hstep
  cases hstep with
  | refused c error => exact h.unminted hkeep rfl rfl
  | approved c registry draw turn hunused hturn =>
    refine ⟨h.sound.step hkeep, ?_, ?_⟩
    · cases approveRun_cases h.sound.pinned hturn with
      | approved => exact (authorizeAndExecute_facts ..).same.plan.trans h.same
    · rw [RunSystem.enter, RunSystem.change_history, mintedCapabilities_append]
      -- an approved run is the only one that still mints
      intro capability hmem
      rcases List.mem_append.mp hmem with hold | hnew
      · exact h.issued capability hold
      · cases approveRun_cases h.sound.pinned hturn with
        | approved =>
          have hfor := authorizeAndExecute_issuedFor capability hnew
          rw [← h.same]
          exact hfor
  | replayed c registry reads turn hunused hturn =>
    obtain ⟨-, capability, -, rfl⟩ := replayRun_eq_ok hturn
    exact h.unminted hkeep (executeForRun_facts ..).same.plan
      (mintedCapabilities_of_minted_eq_none (executeForRun_minted ..))
  | reconciled c registry reads turn hunused _ hturn =>
    obtain ⟨-, capability, -, rfl⟩ := reconcileRun_eq_ok hturn
    exact h.unminted hkeep (executeForRun_facts ..).same.plan
      (mintedCapabilities_of_minted_eq_none (executeForRun_minted ..))
  | drifted c now run hunused hdrift =>
    obtain ⟨-, rfl⟩ := simulateDrift_eq_ok hdrift
    exact h.unminted hkeep rfl rfl
  | checked c stamp run result hunused hverify =>
    obtain ⟨row, -, rfl⟩ := verifyRunLedger_eq_ok hverify
    exact h.unminted hkeep rfl rfl
  | executed | woke => exact h.unminted hkeep rfl rfl
  | resumed c settled now run outcome _ hfinish =>
    refine h.unminted hkeep ?_ rfl
    cases finishExecution_cases hfinish with
    | threw | illegal | finished => rfl

/-- A new run has it of its own plan. -/
theorem RunSystem.Issued.born {model : ModelAdapter} {scenarioId : JsString} {draw : CreateDraw}
    {run : RunRecord} (hnew : proposeRun model scenarioId draw = .ok run)
    (registry : CapabilityRegistry) (c : RequestId) :
    (RunSystem.enter { run := run } c (followVerdict registry run draw.authorize)).Issued
      run.toRunPlan := by
  have hsound := RunSystem.Sound.born (.created scenarioId draw registry run c hnew)
  have hcase := followVerdict_cases registry draw.authorize (proposeRun_eq_ok hnew).state
  generalize followVerdict registry run draw.authorize = turn at hcase hsound
  cases hcase with
  | denied | parked => exact ⟨hsound, rfl, fun _ hmem => by cases hmem⟩
  | allowed =>
    refine ⟨hsound, (authorizeAndExecute_facts ..).same.plan, ?_⟩
    rw [RunSystem.enter, RunSystem.change_history, List.nil_append]
    exact authorizeAndExecute_issuedFor

/-! ## What was judged -/

/-- A new run is pinned to what the model names, under the verdict on what the policy was
    given. -/
theorem proposeRun_judged {model : ModelAdapter} {scenarioId : JsString} {draw : CreateDraw}
    {scenario : ScenarioMeta} {action : RawAction} {rest : List RawAction} {run : RunRecord}
    (hscenario : findScenario scenarioId = some scenario)
    (hparsed : parseModelProposal (model ⟨scenario.goal, draw.resourceId⟩) = some (action :: rest))
    (hnew : proposeRun model scenarioId draw = .ok run) :
    run.policyVerdict = evaluatePolicy (judgedInput scenario draw action) ∧
      run.principal = ⟨js "principal-1", scenario.role, js "t1"⟩ ∧
      run.actionType = action.actionType ∧ run.resourceId = action.resourceId := by
  rw [proposeRun, hscenario] at hnew
  dsimp only at hnew
  rw [hparsed] at hnew
  obtain ⟨ledger, -, hnew⟩ := bind_eq_ok hnew
  dsimp only at hnew
  split at hnew
  · cases hnew
  obtain ⟨ledger', -, hnew⟩ := bind_eq_ok hnew
  obtain ⟨state, -, hnew⟩ := bind_eq_ok hnew
  obtain rfl := Except.ok.inj hnew
  exact ⟨rfl, rfl, rfl, rfl⟩

omit [Host] in
theorem mem_mintedCapabilities {history : List RunObservation} {capability : Capability} :
    capability ∈ mintedCapabilities history ↔ .minted capability ∈ history := by
  rw [mintedCapabilities, List.mem_filterMap]
  constructor
  · rintro ⟨observation, hmem, hminted⟩
    cases observation <;> cases hminted
    exact hmem
  · intro hmem
    exact ⟨_, hmem, rfl⟩

/-- Whatever happens to a run after its creation, a capability of it is for what the
    policy judged exactly if the model named the resource it was asked about. -/
theorem Server.minted_judged_iff {model : ModelAdapter} {before after : List ServerEvent}
    {s₀ s : Server} {scenarioId : JsString} {draw : CreateDraw} {scenario : ScenarioMeta}
    {action : RawAction} {rest : List RawAction} {run : RunRecord}
    (hbefore : Transition.run (Server.step model) {} before = some s₀)
    (hscenario : findScenario scenarioId = some scenario)
    (hparsed : parseModelProposal (model ⟨scenario.goal, draw.resourceId⟩) = some (action :: rest))
    (hnew : proposeRun model scenarioId draw = .ok run)
    (hafter : Transition.run (Server.step model) s₀
      (.request (.createRun scenarioId draw) :: after) = some s) :
    run.policyVerdict = evaluatePolicy (judgedInput scenario draw action) ∧
      ∀ capability, .minted capability ∈ s.history s₀.state.nextRef →
        (capability.JudgedBy (judgedInput scenario draw action) ↔
          action.resourceId = draw.resourceId) := by
  obtain ⟨hverdict, hprincipal, hactionType, hresourceId⟩ :=
    proposeRun_judged hscenario hparsed hnew
  refine ⟨hverdict, fun capability hminted => ?_⟩
  -- what the first step makes of the run, and what later steps keep
  obtain ⟨s₁, hfirst, hrest⟩ := Transition.run_cons_eq_some.mp hafter
  have hfresh := run_fresh hbefore
  have hstepped : Stepped model (fun _ _ => True) s₀ s₁ :=
    step_system hfresh (fun _ _ _ _ _ _ _ => trivial) hfirst
  have hcreated : s₁.system s₀.state.nextRef = some (RunSystem.enter { run := run }
      s₀.nextRequest (followVerdict s₀.state.registry run draw.authorize)) := by
    obtain rfl := Option.some.inj hfirst
    simp only [handle, createRun, hnew]
    exact hfresh.system_registered run _
  have hborn := RunSystem.Issued.born hnew s₀.state.registry s₀.nextRequest
  obtain ⟨sys, hsystem, hissued⟩ := system_run (fun _ _ h hstep => h.step hstep) hstepped.fresh
    hcreated hborn hrest
  obtain ⟨last, hrecord, rfl⟩ := Option.map_eq_some_iff.mp hsystem
  have hfor := hissued.issued capability (mem_mintedCapabilities.mpr hminted)
  constructor
  · intro h
    rw [← hresourceId]
    exact hfor.resourceId.symm.trans h.resourceId.symm
  · intro hsame
    refine ⟨?_, ?_, ?_⟩
    · rw [hfor.principalId]
      show some (js "principal-1") = some run.principal.id
      rw [hprincipal]
    · rw [hfor.actionType]
      exact congrArg ActionType.toJs hactionType.symm
    · rw [hfor.resourceId]
      exact hsame.symm.trans hresourceId.symm

end

namespace Sample

section
attribute [local instance] node

/-- What the fake model proposes for the message, about the resource it was given. -/
def messageAction : RawAction :=
  ⟨js "res_000001", [], .sendCustomerMessage (js "res_000001")
    (js "Update regarding: send the customer a message about the shipping delay") (js "email")⟩

/-- The scenario of the message. -/
def messageScenario : ScenarioMeta :=
  ⟨.approval, js "operator", js "send the customer a message about the shipping delay", .customer⟩

theorem approvedMessage_judged :
    ∃ s capability, Transition.run (Server.step FakeModelAdapter.propose) {} approvedMessage =
        some s ∧
      .minted capability ∈ s.history 0 ∧
      capability.JudgedBy (judgedInput messageScenario createDraw messageAction) := by
  obtain ⟨hscenario, hparsed, hnew, hrun⟩ :
      findScenario (js "approval") = some messageScenario ∧
        parseModelProposal (FakeModelAdapter.propose
          ⟨messageScenario.goal, createDraw.resourceId⟩) = some [messageAction] ∧
        (proposeRun FakeModelAdapter.propose (js "approval") createDraw).toOption.isSome ∧
        ∃ s ∈ Transition.run (Server.step FakeModelAdapter.propose) {} approvedMessage,
          (mintedCapabilities (s.history 0)).head?.isSome := by
    decide +kernel
  -- the history has a capability, and the theorem says what it is for
  obtain ⟨s, hs, hminted⟩ := hrun
  obtain ⟨capability, hcapability⟩ := Option.isSome_iff_exists.mp hminted
  have hminted : .minted capability ∈ s.history 0 :=
    mem_mintedCapabilities.mp (List.mem_of_mem_head? hcapability)
  cases hrun : proposeRun FakeModelAdapter.propose (js "approval") createDraw with
  | error error =>
    rw [hrun] at hnew
    cases hnew
  | ok run =>
    have hstart : Transition.run (Server.step FakeModelAdapter.propose) {} [] = some {} := rfl
    have hjudged := (Server.minted_judged_iff hstart hscenario hparsed hrun hs).2
    exact ⟨s, capability, hs, hminted, (hjudged capability hminted).mpr rfl⟩

/-- A model that answers about a resource of its own choice. -/
def otherResource : ModelAdapter := fun request =>
  FakeModelAdapter.propose { request with resourceId := js "res_victim" }

/-- The policy allows a ticket about the resource it was given, and the capability is
    for the one the model named. -/
theorem otherResource_minted :
    ∃ scenario ∈ findScenario (js "unknown_outcome"),
      ∃ actions ∈ parseModelProposal (otherResource ⟨scenario.goal, createDraw.resourceId⟩),
      ∃ action ∈ actions.head?,
      ∃ s ∈ Transition.run (Server.step otherResource) {}
        [.request (.createRun (js "unknown_outcome") createDraw)],
      ∃ capability ∈ mintedCapabilities (s.history 0),
        ¬ capability.JudgedBy (judgedInput scenario createDraw action) := by
  have hminted : ∃ scenario ∈ findScenario (js "unknown_outcome"),
      ∃ actions ∈ parseModelProposal (otherResource ⟨scenario.goal, createDraw.resourceId⟩),
      ∃ action ∈ actions.head?,
      ∃ s ∈ Transition.run (Server.step otherResource) {}
        [.request (.createRun (js "unknown_outcome") createDraw)],
      ∃ capability ∈ mintedCapabilities (s.history 0),
        (judgedInput scenario createDraw action).resource.id ≠ capability.resourceId := by
    decide +kernel
  obtain ⟨scenario, hscenario, actions, hactions, action, haction, s, hs, capability, hcapability,
    hne⟩ := hminted
  exact ⟨scenario, hscenario, actions, hactions, action, haction, s, hs, capability, hcapability,
    fun h => hne h.resourceId⟩

end

end Sample

end ActionHarbor
