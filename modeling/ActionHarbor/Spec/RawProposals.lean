import ActionHarbor.Spec.ShownRuns
import ActionHarbor.Spec.UnknownFields

/-!
# What a run was made of

A run keeps the raw text of the model's answer, and its view shows the text next to the
proposal. The proposal is what the text says: the schema has accepted it, without an unknown
field, and the first of its actions is the one the run acts on, for as long as there is the
run.

## Key results

- `RunPlan.MadeFrom.born`: a new run is made from the answer of the model
- `Server.shown_proposal`: so is every run, and so its view shows
-/

namespace ActionHarbor

section
variable [Host]

/-- The plan was made from the model's answer to the goal of its scenario: a text the schema
    accepts, without unknown fields, whose first action is this one. -/
structure RunPlan.MadeFrom (model : ModelAdapter) (zod : ZodReports) (plan : RunPlan)
    (action : RawAction) : Prop where
  answered : ∃ flow resourceId, flow ∈ scenarios ∧ flow.id = plan.scenario ∧
    plan.modelProposalRaw = model ⟨flow.goal, resourceId⟩
  accepted : ∃ more, parseModelProposalResult zod plan.modelProposalRaw = .ok (action :: more)
  known : utf8ByteLength plan.modelProposalRaw ≤ maxProposalBytes ∧
    ∃ payload, jsonParse plan.modelProposalRaw = some payload ∧
      hasCheckedUnknownField payload = false
  resourceId : plan.resourceId = action.resourceId
  parameters : plan.parameters = action.parameters
  evidenceRefs : plan.evidenceRefs = action.evidenceRefs

omit [Host] in
/-- The view shows the action as the proposal, next to the text. -/
structure RunView.Proposes (view : RunView) (raw : JsString) (action : RawAction) : Prop where
  raw : view.proposal.raw = raw
  actionType : view.proposal.actionType = action.actionType
  parameters : view.proposal.parameters = action.parameters
  evidenceRefs : view.proposal.evidenceRefs = action.evidenceRefs
  resource : view.resource.id = action.resourceId

/-- The view of a run shows what its plan was made from. -/
theorem RunPlan.MadeFrom.proposes {model : ModelAdapter} {zod : ZodReports} {run : RunRecord}
    {action : RawAction} (h : run.toRunPlan.MadeFrom model zod action) :
    (toRunView run).Proposes run.modelProposalRaw action where
  raw := rfl
  actionType := congrArg RawActionParameters.actionType h.parameters
  parameters := h.parameters
  evidenceRefs := h.evidenceRefs
  resource := h.resourceId

/-- A new run is made from the answer of the model. -/
theorem RunPlan.MadeFrom.born {model : ModelAdapter} {zod : ZodReports} (hzod : zod.Documented)
    {sys : RunSystem} (h : Born model sys) :
    ∃ action, sys.run.toRunPlan.MadeFrom model zod action := by
  obtain ⟨scenarioId, draw, registry, run, c, hnew⟩ := h
  obtain ⟨flow, action, more, hflow, hparse, hproposed⟩ := proposeRun_record hnew
  have hplan := followVerdict_plan registry draw.authorize (proposeRun_eq_ok hnew).state
  -- the verdict leaves the plan alone
  show ∃ action, (followVerdict registry run draw.authorize).run.toRunPlan.MadeFrom model zod action
  rw [hplan]
  have haccepted : parseModelProposalResult zod run.modelProposalRaw = .ok (action :: more) := by
    rw [hproposed.modelProposalRaw]
    exact (parseModelProposal_eq_some_iff zod).mp hparse
  exact ⟨action, {
    answered := ⟨flow, draw.resourceId, List.mem_of_find?_eq_some hflow,
      hproposed.scenario.symm, hproposed.modelProposalRaw⟩
    accepted := ⟨more, haccepted⟩
    known := parseModelProposalResult_ok hzod haccepted
    resourceId := hproposed.resourceId
    parameters := hproposed.parameters
    evidenceRefs := hproposed.evidenceRefs }⟩

/-- In every reachable state the plan of a run is made from the model's answer to the goal of
    its scenario, and the view shows the action that was read from it. -/
theorem Server.shown_proposal {model : ModelAdapter} {zod : ZodReports} (hzod : zod.Documented)
    {events : List ServerEvent} {s : Server}
    (hrun : Transition.run (Server.step model) {} events = some s) {ref : RunRef}
    {run : RunRecord} (hrecord : s.state.records ref = some run) :
    ∃ action, run.toRunPlan.MadeFrom model zod action ∧
      (toRunView run).Proposes run.modelProposalRaw action := by
  have hsystem : s.system ref = some (s.view ref run) := by rw [system, hrecord]; rfl
  have hkept : (s.view ref run).Sound ∧
      ∃ action, (s.view ref run).run.toRunPlan.MadeFrom model zod action := by
    refine run_system_invariant
      (P := fun sys => sys.Sound ∧ ∃ action, sys.run.toRunPlan.MadeFrom model zod action)
      (fun _ hborn => ⟨.born hborn, RunPlan.MadeFrom.born hzod hborn⟩) ?_ (meets_true {} events)
        hrun hsystem
    -- no step changes the plan
    rintro sys sys' ⟨hsound, hmade⟩ hstep
    exact ⟨hsound.step hstep, hstep.plan hsound ▸ hmade⟩
  obtain ⟨-, action, hmade⟩ := hkept
  exact ⟨action, hmade, hmade.proposes⟩

end

namespace Sample

section
attribute [local instance] node

theorem approvedMessage_proposal :
    ∃ s run action, Transition.run (Server.step FakeModelAdapter.propose) {} approvedMessage =
        some s ∧
      s.state.records 0 = some run ∧
      run.toRunPlan.MadeFrom FakeModelAdapter.propose zodReports action ∧
      (toRunView run).Proposes run.modelProposalRaw action := by
  have hcreated : ∃ s ∈ Transition.run (Server.step FakeModelAdapter.propose) {} approvedMessage,
      (s.state.records 0).isSome := by
    decide +kernel
  obtain ⟨s, hs, hrecord⟩ := hcreated
  obtain ⟨run, hrecord⟩ := Option.isSome_iff_exists.mp hrecord
  obtain ⟨action, hproposal⟩ := Server.shown_proposal zodReports_documented hs hrecord
  exact ⟨s, run, action, hs, hrecord, hproposal⟩

end

end Sample

end ActionHarbor
