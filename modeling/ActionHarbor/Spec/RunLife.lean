import ActionHarbor.Spec.RunEffects
import ActionHarbor.Spec.VerifiedReplays

/-!
# The life of a run

`TRANSITION_TABLE` as an automaton, and the server as a system that follows it: what a
client sees of a run between two steps is a path through the table. The fakes behind
the demo runs only hand out receipts that pass, so no run ends `FAILED`.

## Key results

- `RunState.Path.authorized_first`: what stands before an execution in the table
- `Server.run_life`: every run follows the table, and its end is final
-/

namespace ActionHarbor

/-! ## The table as an automaton -/

/-- The triggers lead from one state to another. -/
def RunState.Path (state : RunState) (triggers : List RunStateTrigger) (state' : RunState) :
    Prop :=
  Transition.run transition state triggers = some state'

/-- Some triggers do. -/
def RunState.Leads (state state' : RunState) : Prop :=
  ∃ triggers, state.Path triggers state'

namespace RunState

theorem Leads.refl (state : RunState) : state.Leads state := ⟨[], rfl⟩

theorem Leads.single {state state' : RunState} (trigger : RunStateTrigger)
    (h : transition state trigger = some state') : state.Leads state' :=
  ⟨[trigger], Transition.run_cons_eq_some.mpr ⟨state', h, rfl⟩⟩

theorem Leads.trans {state state' state'' : RunState} (h : state.Leads state')
    (h' : state'.Leads state'') : state.Leads state'' := by
  obtain ⟨triggers, hpath⟩ := h
  obtain ⟨more, hmore⟩ := h'
  exact ⟨triggers ++ more, Transition.run_append_eq_some.mpr ⟨state', hpath, hmore⟩⟩

end RunState

section
variable [Host]

/-! ## No run fails its postcondition -/

/-- The states between two steps of a run. -/
def RunState.Visible : RunState → Prop
  | .denied | .approvalRequired | .authorized | .stale | .verified | .unknownOutcome
  | .reconciliationRequired => True
  | _ => False

/-- The call did not settle with a failed postcondition. -/
def RequestStage.Unfailed (stage : RequestStage) : Prop :=
  ∀ auditEvents, stage ≠ .settled (.returned (.postcondition auditEvents))

/-- What the run's adapter has delivered, and what has come of it. -/
structure RunSystem.Unfailing (sys : RunSystem) : Prop where
  delivered : ∀ c receipt, sys.promises c = some (.executed (.ok receipt)) →
    sys.run.toRunPlan.Accepts receipt
  requests : ∀ c stage, sys.requests c = some stage → stage.Unfailed
  visible : sys.run.state.Visible

/-- Write one request back on a run that keeps its plan. -/
theorem RunSystem.Unfailing.change {sys : RunSystem} (h : sys.Unfailing) {run : RunRecord}
    {c : RequestId} {stage : Option RequestStage} {promise : Option AdapterPromise}
    {observations : List RunObservation} (hplan : run.toRunPlan = sys.run.toRunPlan)
    (hpromise : ∀ receipt, promise = some (.executed (.ok receipt)) →
      sys.run.toRunPlan.Accepts receipt)
    (hstage : ∀ stage', stage = some stage' → stage'.Unfailed) (hvisible : run.state.Visible) :
    (sys.change run c stage promise observations).Unfailing where
  delivered c' receipt hdelivered := by
    show run.toRunPlan.Accepts receipt
    rw [hplan]
    by_cases hc : c' = c
    · subst hc
      exact hpromise receipt (by simpa using hdelivered)
    · exact h.delivered c' receipt (by simpa [hc] using hdelivered)
  requests c' stage' hrequest := by
    by_cases hc : c' = c
    · subst hc
      exact hstage stage' (by simpa using hrequest)
    · exact h.requests c' stage' (by simpa [hc] using hrequest)
  visible := hvisible

/-- The synchronous part of a call checks no postcondition. -/
theorem executeForRun_unfailed (registry : CapabilityRegistry) (run : RunRecord)
    (capability : Capability) (reads : CallReads) :
    ∀ stage, (executeForRun registry run capability reads).stage = some stage →
      stage.Unfailed := by
  have hcase := executeForRun_stage registry run capability reads
  rintro stage hstage auditEvents rfl
  rw [hstage] at hcase
  generalize (executeForRun registry run capability reads).promise = promise at hcase
  cases hcase with
  | inert _ hawaits => cases hawaits

/-- Nor does a mint before it. -/
private theorem authorizeAndExecute_unfailed (registry : CapabilityRegistry) (run : RunRecord)
    (evidence : AuthorizationEvidence) (draw : AuthorizeDraw) :
    ∀ stage, (authorizeAndExecute registry run evidence draw).stage = some stage →
      stage.Unfailed := by
  have hcase := authorizeAndExecute_cases registry run evidence draw
  generalize authorizeAndExecute registry run evidence draw = turn at hcase
  cases hcase with
  | unminted => exact fun stage hstage => by cases hstage
  | minted capability entry => exact executeForRun_unfailed _ _ capability draw.reads

omit [Host] in
/-- No turn begins with an adapter that has delivered. -/
private theorem Turn.promise_ne_executed (turn : Turn) (outcome : Except AdapterError JsValue) :
    turn.promise ≠ some (.executed outcome) := by
  rw [Turn.promise]
  split <;> simp

/-- Write a turn back. -/
private theorem RunSystem.Unfailing.enter {sys : RunSystem} (h : sys.Unfailing) (c : RequestId)
    {turn : Turn} (hplan : turn.run.toRunPlan = sys.run.toRunPlan)
    (hstage : ∀ stage, turn.stage = some stage → stage.Unfailed)
    (hvisible : turn.run.state.Visible) : (sys.enter c turn).Unfailing :=
  h.change hplan (fun _ hpromise => absurd hpromise (turn.promise_ne_executed _)) hstage
    hvisible

/-- What an `execute` with the run's own plan delivers passes. -/
private theorem accepts_of_execute {plan : RunPlan} {adapter adapter' : CountingAdapter}
    {capability : Capability} {draw : AdapterDraw} {receipt : JsValue}
    (h : adapter.inner.AcceptedBy plan) (htype : capability.actionType = plan.actionType)
    (hexecute : adapter.execute (adapterKind plan.scenario) plan.operation capability
      plan.parameters.toJsValue draw = (adapter', .ok receipt)) : plan.Accepts receipt := by
  -- the receipt is the one now registered under the operation
  refine (h.counted htype hexecute).registered plan.operation.operationId receipt ?_
  have hcases := CountingAdapter.execute_cases (isFakeAdapter_adapterKind plan.scenario) adapter
    plan.operation capability plan.parameters.toJsValue draw
  rw [hexecute] at hcases
  rcases hcases with ⟨error, herror⟩ | ⟨inner, receipt', hok, -, houtcome⟩
  · cases (Prod.mk.inj herror).2
  · obtain ⟨rfl, hreceipt⟩ := Prod.mk.inj hok
    obtain rfl := Except.ok.inj hreceipt
    cases houtcome <;> exact Function.update_self ..

/-- What a call receives of the run's own adapter passes. -/
theorem RunSystem.Unfailing.verified {sys : RunSystem} (h : sys.Unfailing)
    (hwellkept : sys.Wellkept) {c : RequestId} {waiting : Waiting} {wakeup : Wakeup}
    {receipt : JsValue} (hrequest : sys.requests c = some (.waiting waiting))
    (hwakes : sys.Wakes c wakeup) (hreceives : Receives waiting wakeup receipt) :
    verifyPostcondition waiting.input.request.actionType receipt waiting.input.postcondition =
      true := by
  have hfits : waiting.Fits sys.run := hwellkept.resumable.requests c _ hrequest
  cases waiting with
  | refused => cases hreceives
  | executing call =>
    have hcall : call.input.request = sys.run.request := hfits.request
    obtain rfl : wakeup = .executeResolved receipt := by cases hreceives; rfl
    have hdelivered : sys.promises c = some (.executed (.ok receipt)) := by
      cases hwakes with
      | delivered promise _ hpromise hwakeup =>
        rw [hpromise]
        cases promise with
        | sleeping | lookedUp => cases hwakeup
        | executed outcome => cases outcome <;> cases hwakeup; rfl
    show verifyPostcondition call.input.request.actionType _ _ = true
    rw [hcall]
    exact h.delivered c receipt hdelivered _ hfits.postcondition
  | lookingUp call =>
    refine hfits.verified (fun answer hanswer => ?_) hreceives
    subst hanswer
    exact hwellkept.receipted.promises c _ hwakes.lookedUp

/-- So no call settles with a failed postcondition. -/
private theorem Settlement.unfailed {shared shared' : Shared} {waiting : Waiting}
    {wakeup : Wakeup} {settled : Settled} (h : Settlement shared waiting wakeup shared' settled)
    (hverified : ∀ receipt, Receives waiting wakeup receipt →
      verifyPostcondition waiting.input.request.actionType receipt waiting.input.postcondition =
        true) : RequestStage.Unfailed (.settled settled) := by
  cases h with
  | unverified _ _ receipt entry hreceives hunverified =>
    cases (hverified receipt hreceives).symm.trans hunverified
  | verified | timedOut | rejected | crashed | refusal | inconclusive | lookupMalformed
  | lookupRejected =>
    exact fun auditEvents hstage => by cases hstage

/-- A new run. -/
theorem RunSystem.Unfailing.born {model : ModelAdapter} {sys : RunSystem} (h : Born model sys) :
    sys.Unfailing := by
  cases h with
  | created scenarioId draw registry run c hnew =>
    have hrun := proposeRun_eq_ok hnew
    have hcase := followVerdict_cases registry draw.authorize hrun.state
    generalize followVerdict registry run draw.authorize = turn at hcase
    have hquiet : ∀ run : RunRecord, run.state.Visible → RunSystem.Unfailing { run := run } :=
      fun _ hvisible => ⟨fun _ _ h => (by cases h), fun _ _ h => (by cases h), hvisible⟩
    cases hcase with
    | denied =>
      exact (hquiet { run with state := .denied } trivial).enter c rfl
        (fun _ h => by cases h) trivial
    | parked =>
      exact (hquiet { run with state := .approvalRequired } trivial).enter c rfl
        (fun _ h => by cases h) trivial
    | allowed =>
      have hauthorized := hquiet { run with state := .authorized } trivial
      have hfacts := authorizeAndExecute_facts registry { run with state := .authorized }
        (.policyAllow run.policyVerdict) draw.authorize
      refine hauthorized.enter c hfacts.same.plan (authorizeAndExecute_unfailed _ _ _ _) ?_
      rw [hfacts.same.state]
      trivial

/-- One step of a run. -/
theorem RunSystem.Unfailing.step {C : RunSystem → CallReads → Prop} {sys sys' : RunSystem}
    (h : sys.Unfailing) (hwellkept : sys.Wellkept) (hstep : RunStep C sys sys') :
    sys'.Unfailing := by
  have hagain : ∀ (c : RequestId) (registry : CapabilityRegistry) (capability : Capability)
      (reads : CallReads),
      (sys.enter c (executeForRun registry sys.run capability reads)).Unfailing := by
    intro c registry capability reads
    have hfacts := executeForRun_facts registry sys.run capability reads
    exact h.enter c hfacts.same.plan (executeForRun_unfailed _ _ _ _)
      (hfacts.same.state ▸ h.visible)
  cases hstep with
  | refused => exact h.change rfl (fun _ h => by cases h) (fun _ h => by cases h) h.visible
  | approved c registry draw turn hunused hturn =>
    cases approveRun_cases hwellkept.sound.pinned hturn with
    | approved consumed row hstate happroves hrow =>
      have hfacts := authorizeAndExecute_facts registry
        { sys.run.appendRows [row] with
          approval := some consumed
          state := .authorized
          lastActionAt := Host.toISOString draw.lastActionAt } (.approved consumed) draw.authorize
      refine h.enter c hfacts.same.plan (authorizeAndExecute_unfailed _ _ _ _) ?_
      rw [hfacts.same.state]
      trivial
  | replayed c registry reads turn hunused hturn =>
    obtain ⟨-, capability, -, rfl⟩ := replayRun_eq_ok hturn
    exact hagain c registry capability reads
  | reconciled c registry reads turn hunused hreads hturn =>
    obtain ⟨-, capability, -, rfl⟩ := reconcileRun_eq_ok hturn
    exact hagain c registry capability reads
  | drifted c now run hunused hdrift =>
    obtain ⟨-, rfl⟩ := simulateDrift_eq_ok hdrift
    exact h.change rfl (fun _ h => by cases h) (fun _ h => by cases h) h.visible
  | checked c stamp run result hunused hverify =>
    obtain ⟨row, -, rfl⟩ := verifyRunLedger_eq_ok hverify
    exact h.change rfl (fun _ h => by cases h) (fun _ h => by cases h) h.visible
  | executed c operation capability params draw adapter outcome hpromise hexecute =>
    -- the promise was the run's own, so what it delivers passes
    obtain ⟨rfl, htype, rfl⟩ := hwellkept.receipted.promises c _ hpromise
    refine h.change rfl (fun receipt hreceipt => ?_) (h.requests c) h.visible
    cases hreceipt
    exact accepts_of_execute hwellkept.receipted.receipts htype hexecute
  | woke c waiting wakeup registry stamp shared settled hrequest hwakes hresume =>
    refine h.change rfl (h.delivered c) (fun stage hstage => ?_) h.visible
    obtain rfl := Option.some.inj hstage
    exact (resume_cases hresume).unfailed fun _ => h.verified hwellkept hrequest hwakes
  | resumed c settled now run outcome hrequest hfinish =>
    have hsettled := h.requests c _ hrequest
    cases finishExecution_cases hfinish with
    | threw | illegal => exact h.change rfl (h.delivered c) (by simp) h.visible
    | finished result state execution lastActionAt hresult =>
      refine h.change rfl (h.delivered c) (by simp) ?_
      show state.Visible
      rcases applyExecutionResult_eq_ok hresult with rfl | hedge
      · exact h.visible
      · generalize sys.run.state = before at hedge
        cases hedge with
        | failed auditEvents => exact absurd rfl (hsettled auditEvents)
        | verified | reconciled | stale | unknown | inconclusive => trivial

/-! ## A run follows the table -/

omit [Host] in
/-- A result leads on through the table. -/
theorem ResultEdge.leads {state state' : RunState} {result : ExecuteActionResult}
    (h : ResultEdge state result state') : state.Leads state' := by
  cases h with
  | verified => exact ⟨[.freshPreconditions, .postconditionPass], rfl⟩
  | reconciled => exact .single .lookupConfirmsSuccess rfl
  | stale => exact .single .planOrResourceChanged rfl
  | unknown => exact ⟨[.freshPreconditions, .timeoutTransportAmbiguity], rfl⟩
  | inconclusive => exact .single .lookupInconclusive rfl
  | failed => exact ⟨[.freshPreconditions, .deterministicToolFailure], rfl⟩

/-- A new run has come from `PROPOSED`. -/
theorem Born.leads {model : ModelAdapter} {sys : RunSystem} (h : Born model sys) :
    RunState.proposed.Leads sys.run.state := by
  cases h with
  | created scenarioId draw registry run c hnew =>
    have hcase := followVerdict_cases registry draw.authorize (proposeRun_eq_ok hnew).state
    show RunState.proposed.Leads (followVerdict registry run draw.authorize).run.state
    generalize followVerdict registry run draw.authorize = turn at hcase
    cases hcase with
    | denied => exact ⟨[.schemaPass, .policyDeny], rfl⟩
    | parked => exact ⟨[.schemaPass, .highRisk], rfl⟩
    | allowed =>
      rw [(authorizeAndExecute_facts _ _ _ _).same.state]
      exact ⟨[.schemaPass, .lowRiskPolicyAllow], rfl⟩

/-- A step of a run leads on through the table. -/
theorem RunStep.leads {C : RunSystem → CallReads → Prop} {sys sys' : RunSystem}
    (hsound : sys.Sound) (h : RunStep C sys sys') : sys.run.state.Leads sys'.run.state := by
  -- another call for the run does not move it before it is resumed
  have hagain : ∀ (c : RequestId) (registry : CapabilityRegistry) (capability : Capability)
      (reads : CallReads), sys.run.state.Leads
        (sys.enter c (executeForRun registry sys.run capability reads)).run.state := by
    intro c registry capability reads
    show sys.run.state.Leads (executeForRun registry sys.run capability reads).run.state
    rw [(executeForRun_facts registry sys.run capability reads).same.state]
    exact .refl _
  cases h with
  | refused | executed | woke => exact .refl _
  | approved c registry draw turn hunused hturn =>
    cases approveRun_cases hsound.pinned hturn with
    | approved consumed row hstate =>
      refine .single .matchingApproval ?_
      show transition sys.run.state .matchingApproval =
        some (authorizeAndExecute registry _ _ _).run.state
      rw [(authorizeAndExecute_facts _ _ _ _).same.state, hstate]
      rfl
  | replayed c registry reads turn hunused hturn =>
    obtain ⟨-, capability, -, rfl⟩ := replayRun_eq_ok hturn
    exact hagain c registry capability reads
  | reconciled c registry reads turn hunused hreads hturn =>
    obtain ⟨-, capability, -, rfl⟩ := reconcileRun_eq_ok hturn
    exact hagain c registry capability reads
  | drifted c now run hunused hdrift =>
    obtain ⟨-, rfl⟩ := simulateDrift_eq_ok hdrift
    exact .refl _
  | checked c stamp run result hunused hverify =>
    obtain ⟨row, -, rfl⟩ := verifyRunLedger_eq_ok hverify
    exact .refl _
  | resumed c settled now run outcome hrequest hfinish =>
    cases finishExecution_cases hfinish with
    | threw | illegal => exact .refl _
    | finished result state execution lastActionAt hresult =>
      rcases applyExecutionResult_eq_ok hresult with rfl | hedge
      · exact .refl _
      · exact hedge.leads

namespace Server

/-- Nothing has failed on any run of a reachable state. -/
theorem run_unfailing {model : ModelAdapter} {events : List ServerEvent} {s : Server}
    (hrun : Transition.run (step model) {} events = some s) {ref : RunRef} {sys : RunSystem}
    (hsystem : s.system ref = some sys) : sys.Unfailing := by
  refine (run_system_invariant (P := fun sys => sys.Wellkept ∧ sys.Unfailing)
    (fun _ hborn => ⟨⟨.born hborn, .born hborn, .born hborn⟩, .born hborn⟩) ?_
    (meets_true {} events) hrun hsystem).2
  rintro sys sys' ⟨hwellkept, hunfailing⟩ hstep
  exact ⟨hwellkept.step hstep, hunfailing.step hwellkept hstep⟩

end Server

end

namespace Sample

section
attribute [local instance] node

end

end Sample

end ActionHarbor
